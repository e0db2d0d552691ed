/-
  CanDfu.Proofs.SentFrames

  All that a session hands to its transport.  `Transport.watched` passes everything on to a
  transport and notes what it is used for; a session cannot tell the two apart.  `Sending` says
  that of a routine, and which frames it sends.  So what is noted is what any transport is used
  for, whatever it answers and whenever it fails.

  An identifier is computed once, when the node is addressed, and then used for the whole session.
  It is exact or there is no session: no frame goes out under an identifier with bits cut off.
-/
import CanDfu.Proofs.HostFrameCodec
import CanDfu.Proofs.RequestFrames
import CanDfu.Proofs.SessionRefinement

namespace CanDfu

variable {τ ε ε' α β : Type}

/-! ## Watching a transport -/

/-- What a transport is used for, apart from its clock. -/
inductive Use
  | send (f : Frame)
  | receive (patience : Nat)
  deriving DecidableEq

/-- The frame that is sent. -/
def Use.frame? : Use → Option Frame
  | send f => some f
  | receive _ => none

/-- The state of a transport, and what it has been used for. -/
structure Watched (τ : Type) where
  state : τ
  uses : List Use := []

/-- All frames sent so far. -/
def Watched.frames (w : Watched τ) : List Frame := w.uses.filterMap Use.frame?

/-- What a use of a transport leaves, and the use. -/
def Watched.noting (w : Watched τ) (u : Use) (o : Outcome Note τ ε α) :
    Outcome Note (Watched τ) ε α :=
  ⟨o.result, ⟨o.state, w.uses ++ [u]⟩, o.log⟩

/-- Passes everything on to the transport, and notes it. -/
def Transport.watched (t : Transport τ) : Transport (Watched τ) where
  name := t.name
  send f w := w.noting (.send f) (t.send f w.state)
  receive patience w := w.noting (.receive patience) (t.receive patience w.state)
  clock w := ((t.clock w.state).1, ⟨(t.clock w.state).2, w.uses⟩)
  tells := t.tells
  backlog w := t.backlog w.state
  backlog_receive patience w f h := t.backlog_receive patience w.state f h
  backlog_clock w := t.backlog_clock w.state

/-- On a watched transport a routine does what it does on the transport itself, and sends these
frames. -/
def Sending (frames : List Frame) (r : Routine Note τ ε α)
    (r' : Routine Note (Watched τ) ε α) : Prop :=
  ∀ w : Watched τ, (r' w).result = (r w.state).result ∧ (r' w).state.state = (r w.state).state ∧
    (r' w).log = (r w.state).log ∧ (r' w).state.frames = w.frames ++ frames

/-! ## The routines of a session -/

namespace Sending

variable {frames : List Frame} {r : Routine Note τ ε α} {r' : Routine Note (Watched τ) ε α}

theorem pure (a : α) : Sending [] (Pure.pure a : Routine Note τ ε α) (Pure.pure a) := by
  intro w
  exact ⟨rfl, rfl, rfl, (List.append_nil _).symm⟩

theorem mapError (h : Sending frames r r') (f : ε → ε') :
    Sending frames (r.mapError f) (r'.mapError f) := by
  intro w
  obtain ⟨result, state, log, sent⟩ := h w
  exact ⟨congrArg (Except.mapError f) result, state, log, sent⟩

/-- What is sent by two routines, one after the other, if the second sends nothing. -/
theorem bind (h : Sending frames r r') {k : α → Routine Note τ ε β}
    {k' : α → Routine Note (Watched τ) ε β} (rest : ∀ a, Sending [] (k a) (k' a)) :
    Sending frames (r >>= k) (r' >>= k') := by
  intro w
  obtain ⟨result, state, log, sent⟩ := h w
  cases run : r w.state with
  | mk outcome s log₁ =>
    cases run' : r' w with
    | mk outcome' w₁ log' =>
      rw [run, run'] at result state log
      rw [run'] at sent
      obtain rfl : outcome' = outcome := result
      obtain rfl : w₁.state = s := state
      obtain rfl : log' = log₁ := log
      cases outcome' with
      | error e =>
        rw [Routine.bind_of_error run, Routine.bind_of_error run']
        exact ⟨rfl, rfl, rfl, sent⟩
      | ok a =>
        rw [Routine.bind_of_ok run, Routine.bind_of_ok run']
        obtain ⟨result, state, log, nothing⟩ := rest a w₁
        rw [List.append_nil] at nothing
        exact ⟨result, state, congrArg (log' ++ ·) log, nothing.trans sent⟩

/-- Logging sends nothing. -/
theorem emit_bind (note : Note) {k : Unit → Routine Note τ ε β}
    {k' : Unit → Routine Note (Watched τ) ε β} (h : Sending frames (k ()) (k' ())) :
    Sending frames (Routine.emit note >>= k) (Routine.emit note >>= k') := by
  intro w
  rw [Routine.bind_of_ok (Routine.emit_apply note w.state),
    Routine.bind_of_ok (Routine.emit_apply note w)]
  obtain ⟨result, state, log, sent⟩ := h w
  exact ⟨result, state, congrArg ([note] ++ ·) log, sent⟩

theorem send (t : Transport τ) (f : Frame) : Sending [f] (t.send f) (t.watched.send f) := by
  intro w
  exact ⟨rfl, rfl, rfl, List.filterMap_append ..⟩

/-- Waiting sends nothing. -/
theorem receive (t : Transport τ) (a : Awaited) (patience deadline : Nat) :
    Sending [] (a.receive t patience deadline) (a.receive t.watched patience deadline) := by
  intro w
  rw [List.append_nil]
  -- the induction is on what can still be received; it ends the wait
  induction h : t.backlog w.state using Nat.strongRecOn generalizing w with
  | ind n ih =>
    have fewer := t.backlog_receive (deadline - (t.clock w.state).1) (t.clock w.state).2
    have noted : t.watched.receive (deadline - (t.watched.clock w).1) (t.watched.clock w).2
        = (t.watched.clock w).2.noting (Use.receive (deadline - (t.clock w.state).1))
          (t.receive (deadline - (t.clock w.state).1) (t.clock w.state).2) := rfl
    have unsent (u : Nat) : (w.uses ++ [Use.receive u]).filterMap Use.frame? = w.frames := by
      rw [List.filterMap_append]
      exact List.append_nil _
    rw [Awaited.receive_eq t, Awaited.receive_eq t.watched, noted]
    cases found : t.receive (deadline - (t.clock w.state).1) (t.clock w.state).2 with
    | mk outcome s log =>
      cases outcome with
      | error e => exact ⟨rfl, rfl, rfl, unsent _⟩
      | ok f =>
        simp only [Watched.noting]
        split
        · exact ⟨rfl, rfl, rfl, unsent _⟩
        · have clock : (t.watched.clock w).1 = (t.clock w.state).1 := rfl
          rw [clock]
          split
          · exact ⟨rfl, rfl, rfl, unsent _⟩
          · have less : t.backlog s < n := by
              rw [found] at fewer
              exact Nat.lt_of_lt_of_le (fewer f rfl) (h ▸ t.backlog_clock w.state)
            obtain ⟨result, state, log, sent⟩ := ih _ less ⟨s, _⟩ rfl
            refine ⟨result, state, ?_, sent.trans (unsent _)⟩
            simp only [log]

theorem await (t : Transport τ) (a : Awaited) (patience : Nat) :
    Sending [] (Awaited.await t a patience) (Awaited.await t.watched a patience) := by
  intro w
  by_cases told : t.tells ((t.clock w.state).1 + patience) = true
  · have told' : t.watched.tells ((t.watched.clock w).1 + patience) = true := told
    rw [Awaited.await_of_told a told, Awaited.await_of_told a told']
    exact receive t a patience ((t.clock w.state).1 + patience) (t.watched.clock w).2
  · have untold' : ¬ t.watched.tells ((t.watched.clock w).1 + patience) = true := told
    rw [Awaited.await_of_untold a told, Awaited.await_of_untold a untold']
    exact ⟨rfl, rfl, rfl, (List.append_nil _).symm⟩

/-- A command that is not refused sends its frame, whether it fails later or not. -/
theorem call (t : Transport τ) (n : Node) (c : Command) :
    Sending (n.sends c) (n.call t c) (n.call t.watched c) := by
  intro w
  cases checked : c.check with
  | error e =>
    rw [Node.call_of_refused checked, Node.call_of_refused checked, n.sends_of_refused checked]
    exact ⟨rfl, rfl, rfl, (List.append_nil _).symm⟩
  | ok _ =>
    have framed := n.frame_eq c
    rw [Node.call_eq checked framed, Node.call_eq checked framed, n.sends_of_checked checked framed]
    refine emit_bind _ (bind ((send t _).mapError _) fun _ => ?_) w
    cases c.answerSize with
    | none => exact pure _
    | some size => exact bind (await t _ _) fun _ => pure _

/-- Addressing a node sends the probe, whether there is an answer or not. -/
theorem connect (t : Transport τ) {p : Profile} {node : UInt8} {ids : FrameIds}
    (resolved : FrameIds.resolve p node = .ok ids) (patience : Nat) :
    Sending [Node.hashProbe ids p] (Node.connect t p node patience)
      (Node.connect t.watched p node patience) := by
  rw [Node.connect_eq resolved, Node.connect_eq resolved]
  refine bind ((send t _).mapError _) fun _ => bind (await t _ patience) fun answer => ?_
  exact emit_bind _ (pure _)

/-- A session sends the frames of its commands, one after the other. -/
theorem session (t : Transport τ) (n : Node) (commands : List Command) (w : Watched τ) :
    ((n.device t.watched).session commands w).1 = ((n.device t).session commands w.state).1 ∧
      ((n.device t.watched).session commands w).2.state
        = ((n.device t).session commands w.state).2 ∧
      ((n.device t.watched).session commands w).2.frames
        = w.frames ++ commands.flatMap n.sends := by
  induction commands generalizing w with
  | nil => exact ⟨rfl, rfl, (List.append_nil _).symm⟩
  | cons c rest ih =>
    obtain ⟨answer, state, -, sent⟩ := call t n c w
    obtain ⟨made, state', sent'⟩ := ih (n.call t.watched c w).state
    rw [state] at made state'
    rw [sent, List.append_assoc] at sent'
    refine ⟨?_, state', sent'⟩
    show Call.mk c (n.call t.watched c w).result :: _ = Call.mk c (n.call t c w.state).result :: _
    rw [answer]
    exact congrArg _ made

end Sending

/-- A session keeps the profile it was opened with, and the identifiers found for its node. -/
theorem Node.of_connect {t : Transport τ} {p : Profile} {node : UInt8} {ids : FrameIds}
    {patience : Nat} {s : τ} {n : Node} (resolved : FrameIds.resolve p node = .ok ids)
    (connected : (Node.connect t p node patience s).result = .ok n) :
    n.profile = p ∧ n.ids = ids := by
  rw [connect_eq resolved] at connected
  obtain ⟨-, _, -, rest⟩ := Routine.exists_of_bind_eq_ok connected
  obtain ⟨answer, _, -, rest⟩ := Routine.exists_of_bind_eq_ok rest
  obtain ⟨-, _, -, rest⟩ := Routine.exists_of_bind_eq_ok rest
  injection rest with rest
  subst rest
  exact ⟨rfl, rfl⟩

/-! ## Exact identifiers -/

/-- A frame to an endpoint of a node, under the identifier the profile gives it. -/
structure Profile.Exactly (p : Profile) (node : UInt8) (endpoint : UInt16) (f : Frame) : Prop where
  width : f.extended = p.extendedId
  id : f.id.toNat = node.toNat * 2 ^ p.nodeIdShift.toNat + endpoint.toNat
  limit : f.id.toNat ≤ if p.extendedId then 0x1FFFFFFF else 0x7FF
  data : f.bytes.length ≤ 8
  /-- The host frame carries the identifier as it is. -/
  unmasked : HostFrame.markedId f = f.id ||| HostFrame.marks f

/-- The frame of every request to a node that can be addressed is under its exact identifier. -/
theorem Request.exactly_frame {p : Profile} {node : UInt8} {ids : FrameIds}
    (resolved : FrameIds.resolve p node = .ok ids) (r : Request) :
    p.Exactly node (r.endpoint p.endpoints) (r.frame p ids) := by
  obtain ⟨exact, within⟩ := Profile.toNat_of_frameId (endpoint_lt resolved r)
    (frameId_frame resolved r)
  have width : (r.frame p ids).extended = p.extendedId := by
    cases r <;> rfl
  have limit : (r.frame p ids).idLimit = p.maxFrameId := by
    rw [Frame.idLimit, width, Profile.maxFrameId]
  have fits : (r.frame p ids).Fits := by
    have bits := (r.frame p ids).toNat_idLimit
    have some_bits := Nat.two_pow_pos (r.frame p ids).idBits
    rw [limit] at bits
    unfold Frame.Fits
    omega
  refine ⟨width, exact, ?_, ?_, HostFrame.markedId_of_fits fits⟩
  · unfold Profile.maxFrameId at within
    split at within
    · next extended => rwa [if_pos extended]
    · next standard => rwa [if_neg standard]
  · cases r with
    | hash => exact Nat.zero_le 8
    | command c => exact c.length_arguments

/-- No frame goes out under a truncated identifier, on any transport.  Where the profile is not
valid or one identifier of the node does not fit its width, addressing fails and the transport is
not used.  Where all fit, being watched changes nothing, and what is sent is the probe and then the
frame of each command that is not refused, each under its exact identifier; no command fails for
want of a frame. -/
theorem session_frames_exact (t : Transport τ) (p : Profile) (node : UInt8) (patience : Nat)
    (s : τ) :
    let plain := Node.connect t p node patience s
    let watched := Node.connect t.watched p node patience ⟨s, []⟩
    (¬ p.Addresses node →
      ∃ cause, watched = ⟨.error (.addressing cause), ⟨s, []⟩, []⟩) ∧
    (p.Addresses node →
      (watched.result = plain.result ∧ watched.state.state = plain.state ∧
        watched.log = plain.log) ∧
      ∃ probe, p.Exactly node p.endpoints.protocolHash probe ∧ watched.state.frames = [probe] ∧
        ∀ n, watched.result = .ok n →
          (∀ c, (∃ f, n.frame c = .ok f) ∧
            ∀ f ∈ n.sends c, p.Exactly node (p.endpoints.ofCommand c) f) ∧
          ∀ commands,
            let run := (n.device t.watched).session commands watched.state
            let plain_run := (n.device t).session commands plain.state
            run.1 = plain_run.1 ∧ run.2.state = plain_run.2 ∧
              run.2.frames = probe :: commands.flatMap n.sends) := by
  refine ⟨fun refused => ?_, fun addressed => ?_⟩
  · cases resolved : FrameIds.resolve p node with
    | error cause =>
      refine ⟨cause, ?_⟩
      unfold Node.connect
      rw [resolved]
      exact Routine.bind_of_error (Routine.mapError_of_error (Routine.ofExcept_apply _ _) _) _
    | ok ids => exact absurd (FrameIds.exists_resolve_iff.mp ⟨ids, resolved⟩) refused
  · obtain ⟨ids, resolved⟩ := FrameIds.exists_resolve_iff.mpr addressed
    obtain ⟨result, state, log, sent⟩ := Sending.connect t resolved patience ⟨s, []⟩
    refine ⟨⟨result, state, log⟩, Node.hashProbe ids p, Request.hash.exactly_frame resolved, sent,
      fun n connected => ⟨fun c => ⟨⟨_, n.frame_eq c⟩, fun f hf => ?_⟩, fun commands => ?_⟩⟩
    · obtain ⟨profile, same⟩ := Node.of_connect resolved connected
      cases checked : c.check with
      | error e =>
        rw [n.sends_of_refused checked] at hf
        cases hf
      | ok _ =>
        rw [n.sends_of_checked checked (n.frame_eq c), List.mem_singleton] at hf
        rw [hf, profile, same]
        exact (Request.command c).exactly_frame resolved
    · obtain ⟨made, left, frames⟩ := Sending.session t n commands
        (Node.connect t.watched p node patience ⟨s, []⟩).state
      rw [state] at made left
      rw [sent] at frames
      exact ⟨made, left, frames⟩

/-- Among strays, a session with node 1 sends nothing for a register that is not there; node 32
does not fit the width, and the bus is left as it was. -/
theorem session_frames_exact_among_strays :
    let t : Transport (SimulatedBus seededProfile seededIds) := SimulatedBus.transport 0x1234
    let watched := Node.connect t.watched seededProfile 1 5000000 ⟨strayBus, []⟩
    (∃ cause, Node.connect t.watched seededProfile 32 5000000 ⟨strayBus, []⟩
      = ⟨.error (.addressing cause), ⟨strayBus, []⟩, []⟩) ∧
    ∃ n, watched.result = .ok n ∧
      ((n.device t.watched).session [.scratch 4 0, .erase n.seed, .reset]
        watched.state).2.frames.map Frame.id = [64, 68, 69] := by
  intro t watched
  have too_large : ¬ seededProfile.Addresses 32 := fun h =>
    absurd (h.fits _ (List.mem_cons_self ..)) (by decide)
  have addressed : seededProfile.Addresses 1 := FrameIds.exists_resolve_iff.mp ⟨seededIds, rfl⟩
  obtain ⟨_, _, connected, -⟩ := Serves.connect_eq
    (SimulatedBus.serves 0x1234 (by decide) : Serves t _ _ _ 0x1234 5000000)
    (rfl : FrameIds.resolve seededProfile 1 = .ok seededIds) (s := strayBus) (by decide)
  refine ⟨(session_frames_exact t seededProfile 32 5000000 strayBus).1 too_large, ?_⟩
  obtain ⟨⟨result, -⟩, probe, exact, -, session⟩ :=
    (session_frames_exact t seededProfile 1 5000000 strayBus).2 addressed
  have opened := result.trans (congrArg Outcome.result connected)
  refine ⟨_, opened, ?_⟩
  rw [((session _ opened).2 _).2.2]
  have id : probe.id = 64 := UInt32.toNat_inj.mp exact.id
  rw [List.map_cons, id]
  rfl

end CanDfu
