/-
  CanDfu.Transport.Scripted

  A transport for the bench: it hands out queued frames in order, keeps what was sent, and answers
  at once, with a timeout when nothing is queued.  Chosen receives and sends can be made to fail.
-/
import CanDfu.Transport

namespace CanDfu

/-- A queue of frames to receive, and the frames sent. -/
structure Scripted where
  incoming : List Frame := []
  /-- Sent frames, the latest first. -/
  outgoing : List Frame := []
  /-- Receives that fail, by position among all receives. -/
  receiveFaults : List (Nat × TransportError) := []
  /-- Sends that fail, by position among all sends. -/
  sendFaults : List (Nat × TransportError) := []
  receives : Nat := 0
  sends : Nat := 0

namespace Scripted

/-- Adds a frame to be received. -/
def queue (s : Scripted) (f : Frame) : Scripted := { s with incoming := s.incoming ++ [f] }

/-- Adds a data frame to be received; none if there is too much data for a frame. -/
def queueResponse? (s : Scripted) (id : UInt32) (extended : Bool) (bytes : List UInt8) :
    Option Scripted :=
  (Frame.data? id extended bytes).map s.queue

/-- The frames sent, in order. -/
def sent (s : Scripted) : List Frame := s.outgoing.reverse

/-- Number of frames still to be received. -/
def pending (s : Scripted) : Nat := s.incoming.length

/-- Forgets the frames sent. -/
def clearSent (s : Scripted) : Scripted := { s with outgoing := [] }

/-- Keeps a frame, unless this send is to fail. -/
def send (f : Frame) : Routine Note Scripted TransportError Unit := fun s =>
  let s' := { s with sends := s.sends + 1 }
  match s.sendFaults.find? (·.1 = s.sends) with
  | some (_, e) => ⟨.error e, s', []⟩
  | none => ⟨.ok (), { s' with outgoing := f :: s.outgoing }, []⟩

/-- Hands out the next frame, unless this receive is to fail or nothing is queued. -/
def receive (patience : Nat) : Routine Note Scripted TransportError Frame := fun s =>
  let s' := { s with receives := s.receives + 1 }
  match s.receiveFaults.find? (·.1 = s.receives) with
  | some (_, e) => ⟨.error e, s', []⟩
  | none =>
    match s.incoming with
    | [] => ⟨.error (.timeout (wholeMillis patience)), s', []⟩
    | f :: rest => ⟨.ok f, { s' with incoming := rest }, []⟩

/-- The scripted transport as a transport.  Its clock stands still. -/
def transport : Transport Scripted where
  name := "mock"
  send := send
  receive := receive
  clock s := (0, s)
  backlog := pending
  backlog_receive patience s f h := by
    simp only [receive] at h ⊢
    split at h
    · simp at h
    · cases hs : s.incoming with
      | nil => simp [hs] at h
      | cons g rest => simp [hs, pending]
  backlog_clock s := Nat.le_refl _

end Scripted

end CanDfu
