/-
  CanDfu.Transport

  What carries frames.  A transport keeps any state, and may fail and be late as it likes; it has
  a clock, in nanoseconds, which need not reach every point in time, and at any time holds finitely
  many frames: each one it hands over leaves fewer.  That is why waiting for an answer ends.
-/
import CanDfu.Frame
import CanDfu.Journal
import CanDfu.Routine

namespace CanDfu

/-- Nanoseconds in a millisecond. -/
def nanosPerMilli : Nat := 1000000

/-- The whole milliseconds of a number of nanoseconds, cut off to 64 bits. -/
def wholeMillis (nanos : Nat) : UInt64 := .ofNat (nanos / nanosPerMilli)

/-- Below 2⁶⁴ milliseconds nothing is cut off. -/
theorem toNat_wholeMillis {nanos : Nat} (fits : nanos / nanosPerMilli < UInt64.size) :
    (wholeMillis nanos).toNat = nanos / nanosPerMilli :=
  UInt64.toNat_ofNat_of_lt fits

/-- A carrier of frames with state `τ`. -/
structure Transport (τ : Type) where
  /-- The adapter in messages. -/
  name : String
  /-- Hands over one frame for transmission. -/
  send : Frame → Routine Note τ TransportError Unit
  /-- Waits up to a number of nanoseconds for the next frame. -/
  receive : Nat → Routine Note τ TransportError Frame
  /-- Reads the clock. -/
  clock : τ → Nat × τ
  /-- Whether the clock can tell a point in time.  What a 64-bit number of milliseconds leads to is
  well within the reach of common clocks, so if nothing else is said the clock tells everything. -/
  tells : Nat → Bool := fun _ => true
  /-- A bound on the frames that can still be received without sending. -/
  backlog : τ → Nat
  backlog_receive : ∀ patience s f, (receive patience s).result = .ok f →
    backlog (receive patience s).state < backlog s
  backlog_clock : ∀ s, backlog (clock s).2 ≤ backlog s

/-- A data frame, or the failure that says how much data was given. -/
def Frame.ofData (id : UInt32) (extended : Bool) (bytes : List UInt8) :
    Except TransportError Frame :=
  match Frame.data? id extended bytes with
  | some frame => .ok frame
  | none => .error (.malformedFrame s!"{bytes.length} data bytes (max {maxFrameData})")

end CanDfu
