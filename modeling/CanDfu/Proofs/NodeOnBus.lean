/-
  CanDfu.Proofs.NodeOnBus

  A session with a node that serves requests on a bus with other traffic.  `BusView` looks behind
  a transport: at the bootloader of the node, at the frames on the node's identifiers that are
  still to be received, and at what was sent.  `Serves` says how these move; of other frames it
  says nothing, so they may come at any time and in any number.

  Between two commands nothing is pending.  That invariant is what keeps requests and answers
  together: a wait finds the one answer there is, or none.
-/
import CanDfu.Proofs.BusProtocol

namespace CanDfu

variable {τ : Type}

/-! ## The bus behind a transport -/

/-- What there is behind a transport. -/
structure BusView (τ : Type) where
  /-- The bootloader of the node. -/
  node : τ → Simulated
  /-- The frames on the node's identifiers that were not received yet. -/
  pending : τ → List Frame
  /-- All frames sent so far. -/
  sent : τ → List Frame

/-- A data frame of the profile's width on one of the node's identifiers. -/
def IsRelated (p : Profile) (ids : FrameIds) (f : Frame) : Prop :=
  f.extended = p.extendedId ∧ f.isRemote = false ∧ f.id ∈ ids.toList

/-- The states at which a wait that began in `s₀` looks at the clock. -/
inductive WaitsAt (t : Transport τ) (s₀ : τ) : τ → Prop
  | start : WaitsAt t s₀ (t.clock s₀).2
  | next {s : τ} (remaining : Nat) (h : WaitsAt t s₀ s) :
      WaitsAt t s₀ (t.receive remaining (t.clock s).2).state

/-- Two states that look alike. -/
structure BusView.Same (v : BusView τ) (s s' : τ) : Prop where
  node : v.node s' = v.node s
  pending : v.pending s' = v.pending s
  sent : v.sent s' = v.sent s

/-- A transport to a node that carries out requests and answers them. -/
structure Serves (t : Transport τ) (v : BusView τ) (p : Profile) (ids : FrameIds) (hash : UInt32)
    (patience : Nat) : Prop where
  /-- Sending takes the frame to the node, whose answer is pending from then on. -/
  send : ∀ f s, (t.send f s).result = .ok () ∧
    v.node (t.send f s).state = (serve p ids hash (v.node s) f).1 ∧
    v.pending (t.send f s).state = v.pending s ++ (serve p ids hash (v.node s) f).2.toList ∧
    v.sent (t.send f s).state = v.sent s ++ [f]
  clock : ∀ s, v.Same s (t.clock s).2
  /-- The clock can tell when a wait is to end. -/
  told : ∀ s, t.tells ((t.clock s).1 + patience) = true
  /-- Receiving does not touch the node. -/
  receive : ∀ remaining s, v.node (t.receive remaining s).state = v.node s ∧
    v.sent (t.receive remaining s).state = v.sent s
  /-- Frames on the node's identifiers are received in order, others at any time. -/
  received : ∀ remaining s f, (t.receive remaining s).result = .ok f →
    (IsRelated p ids f ∧ v.pending s = f :: v.pending (t.receive remaining s).state) ∨
      (¬ IsRelated p ids f ∧ v.pending (t.receive remaining s).state = v.pending s)
  /-- Receiving fails only by finding nothing. -/
  timeout : ∀ remaining s e, (t.receive remaining s).result = .error e →
    (∃ millis, e = .timeout millis) ∧ v.pending s = [] ∧
      v.pending (t.receive remaining s).state = []
  /-- No deadline passes while something is pending. -/
  on_time : ∀ s₀ s, WaitsAt t s₀ s → v.pending s ≠ [] →
    (t.clock s).1 < (t.clock s₀).1 + patience

/-! ## The steps of a wait -/

/-- The failure of a wait in which receiving fails. -/
def Awaited.missed (patience : Nat) : TransportError → SessionError
  | .timeout _ => .noResponse (wholeMillis patience)
  | e => .transport e

/-- A failure to receive ends a wait, and so does the answer; another frame is passed over, unless
the deadline has been reached. -/
theorem Awaited.receive_eq (t : Transport τ) (a : Awaited) (patience deadline : Nat) (s : τ) :
    a.receive t patience deadline s =
      match t.receive (deadline - (t.clock s).1) (t.clock s).2 with
      | ⟨.error e, s', log⟩ => ⟨.error (missed patience e), s', log⟩
      | ⟨.ok f, s', log⟩ =>
        if a.isAnswer f then ⟨a.accept f, s', log⟩
        else
          let ignored : Note := .record ⟨.trace, "Ignoring unrelated frame", [("frame", f.text)]⟩
          if deadline - (t.clock s).1 = 0 then
            ⟨.error (.noResponse (wholeMillis patience)), s', log ++ [ignored]⟩
          else
            let o := a.receive t patience deadline s'
            ⟨o.result, o.state, log ++ ignored :: o.log⟩ := by
  rw [Awaited.receive]
  simp only
  split
  · next found =>
    rw [found]
    rfl
  · next e _ _ not_timeout found =>
    rw [found]
    cases e with
    | timeout millis => exact absurd rfl (not_timeout millis)
    | _ => rfl
  · next found => rw [found]

/-- A wait whose end the clock can tell is a wait for that point in time. -/
theorem Awaited.await_of_told {t : Transport τ} {patience : Nat} {s : τ} (a : Awaited)
    (told : t.tells ((t.clock s).1 + patience) = true) :
    Awaited.await t a patience s
      = a.receive t patience ((t.clock s).1 + patience) (t.clock s).2 :=
  if_pos told

/-- Any other receives nothing. -/
theorem Awaited.await_of_untold {t : Transport τ} {patience : Nat} {s : τ} (a : Awaited)
    (untold : ¬ t.tells ((t.clock s).1 + patience) = true) :
    Awaited.await t a patience s = ⟨.error .fatal, (t.clock s).2, []⟩ :=
  if_neg untold

/-! ## The steps of a call -/

section Calls

variable {t : Transport τ} {n : Node} {c : Command} {s : τ}

/-- Commands that are answered are never refused. -/
theorem Command.check_of_answered {size : Nat} (answered : c.answerSize = some size) :
    c.check = .ok () := by
  cases c with
  | scratch | reset => cases answered
  | read | commit | erase => rfl

/-- A command that is refused is not sent. -/
theorem Node.call_of_refused {e : SessionError} (refused : c.check = .error e) :
    n.call t c s = ⟨.error e, s, []⟩ := by
  unfold call
  rw [refused, Routine.bind_of_error (Routine.ofExcept_apply _ s)]

section Sending

variable {f : Frame} (checked : c.check = .ok ()) (framed : n.frame c = .ok f)
include checked framed

/-- A command that is not refused is sent, and then done, or waits for its answer. -/
theorem Node.call_eq :
    n.call t c s = (Routine.emit (.record ⟨.trace, "TX", [("frame", f.text)]⟩) >>= fun _ =>
      (t.send f).mapError .transport >>= fun _ =>
        match c.answerSize with
        | none => pure (c.ofAnswer [])
        | some size => Awaited.await t (n.awaited c size) n.patience >>= fun answer =>
          pure (c.ofAnswer answer)) s := by
  unfold call
  rw [checked, Routine.bind_of_ok (Routine.ofExcept_apply _ s), framed,
    Routine.bind_of_ok (Routine.mapError_of_ok (Routine.ofExcept_apply _ s) _)]
  rfl

/-- A command that cannot be sent fails. -/
theorem Node.call_of_unsent {e : TransportError} {s' : τ} {log : List Note}
    (unsent : t.send f s = ⟨.error e, s', log⟩) :
    ∃ log, n.call t c s = ⟨.error (.transport e), s', log⟩ := by
  rw [Node.call_eq checked framed, Routine.bind_of_ok (Routine.emit_apply _ s),
    Routine.bind_of_error (Routine.mapError_of_error unsent _)]
  exact ⟨_, rfl⟩

variable {s' : τ} {log : List Note} (sent : t.send f s = ⟨.ok (), s', log⟩)
include sent

/-- A command that is not answered is done when it is sent. -/
theorem Node.call_of_unanswered (unanswered : c.answerSize = none) :
    ∃ log, n.call t c s = ⟨.ok (c.ofAnswer []), s', log⟩ := by
  rw [Node.call_eq checked framed, Routine.bind_of_ok (Routine.emit_apply _ s),
    Routine.bind_of_ok (Routine.mapError_of_ok sent _), unanswered]
  exact ⟨_, rfl⟩

/-- A command that is answered waits for its answer when it is sent. -/
theorem Node.call_of_answered {size : Nat} (answered : c.answerSize = some size)
    {o : Outcome Note τ SessionError (List UInt8)}
    (waited : Awaited.await t (n.awaited c size) n.patience s' = o) :
    ∃ log, n.call t c s = ⟨o.result.map c.ofAnswer, o.state, log⟩ := by
  rw [Node.call_eq checked framed, Routine.bind_of_ok (Routine.emit_apply _ s),
    Routine.bind_of_ok (Routine.mapError_of_ok sent _), answered]
  obtain ⟨e | answer, s'', more⟩ := o
  · simp only
    rw [Routine.bind_of_error waited]
    exact ⟨_, rfl⟩
  · simp only
    rw [Routine.bind_of_ok waited]
    exact ⟨_, rfl⟩

end Sending

/-- What is left to do once the identifiers of a node are found. -/
theorem Node.connect_eq {p : Profile} {node : UInt8} {ids : FrameIds} {patience : Nat}
    (resolved : FrameIds.resolve p node = .ok ids) :
    Node.connect t p node patience = (t.send (hashProbe ids p)).mapError .transport >>= fun _ =>
      Awaited.await t ⟨"protocol_hash", ids.protocolHash, p.extendedId, 4⟩ patience >>=
        fun answer => Routine.emit (.record ⟨.debug, "Device connected",
          [("node_id", s!"{node}"), ("adapter", t.name),
            ("hash", Hex.address (LittleEndian.firstWord 0 answer))]⟩) >>= fun _ =>
          pure ⟨p, ids, node, patience, LittleEndian.firstWord 0 answer⟩ := by
  funext s
  unfold connect
  rw [resolved, Routine.bind_of_ok (Routine.mapError_of_ok (Routine.ofExcept_apply _ s) _)]
  rfl

end Calls

section Serves

variable {t : Transport τ} {v : BusView τ} {p : Profile} {ids : FrameIds} {hash : UInt32}
  {patience : Nat} {s s₀ : τ} {a : Awaited}

/-! ## Waiting -/

/-- What comes of waiting when there is an answer, or none. -/
def Awaited.outcome (a : Awaited) (patience : Nat) : Option Frame → Except SessionError (List UInt8)
  | some f => a.accept f
  | none => .error (.noResponse (wholeMillis patience))

/-- Waiting finds the answer that is pending, whatever other frames come before it; if none is
pending, it ends without one. -/
theorem Serves.receive_eq (serves : Serves t v p ids hash patience) (answer : Option Frame)
    (related : ∀ f, a.isAnswer f = true → IsRelated p ids f)
    (fits : ∀ f ∈ answer, a.isAnswer f = true) (waits : WaitsAt t s₀ s)
    (pending : v.pending s = answer.toList) :
    ∃ s' log, a.receive t patience ((t.clock s₀).1 + patience) s
        = ⟨a.outcome patience answer, s', log⟩ ∧
      v.node s' = v.node s ∧ v.pending s' = [] ∧ v.sent s' = v.sent s := by
  -- the induction is on what can still be received; it ends the wait
  induction h : t.backlog s using Nat.strongRecOn generalizing s with
  | ind n ih =>
    have clock := serves.clock s
    have same_pending : v.pending (t.clock s).2 = answer.toList := clock.pending.trans pending
    have quiet := serves.receive ((t.clock s₀).1 + patience - (t.clock s).1) (t.clock s).2
    have received := serves.received ((t.clock s₀).1 + patience - (t.clock s).1) (t.clock s).2
    have timeout := serves.timeout ((t.clock s₀).1 + patience - (t.clock s).1) (t.clock s).2
    have fewer := t.backlog_receive ((t.clock s₀).1 + patience - (t.clock s).1) (t.clock s).2
    have next := waits.next ((t.clock s₀).1 + patience - (t.clock s).1)
    rw [Awaited.receive_eq]
    split
    -- nothing was received, so no answer was pending
    · next e s' log found =>
      rw [found] at timeout quiet
      obtain ⟨⟨millis, rfl⟩, empty, empty'⟩ := timeout _ rfl
      have none : answer = none := by
        cases answer with
        | none => rfl
        | some f => exact absurd (same_pending.symm.trans empty) (List.cons_ne_nil f [])
      subst none
      exact ⟨s', log, rfl, quiet.1.trans clock.node, empty', quiet.2.trans clock.sent⟩
    · next f s' log found =>
      rw [found] at received quiet fewer next
      rcases received f rfl with ⟨-, first⟩ | ⟨unrelated, same⟩
      -- a frame of the node: it is the answer
      · rw [same_pending] at first
        cases answer with
        | none => cases first
        | some g =>
          injection first with is_answer rest
          subst is_answer
          rw [if_pos (fits g rfl)]
          exact ⟨s', log, rfl, quiet.1.trans clock.node, rest.symm, quiet.2.trans clock.sent⟩
      -- other traffic: it is passed over
      · have passed_over : ¬ a.isAnswer f = true := fun h => unrelated (related f h)
        have pending' : v.pending s' = answer.toList := same.trans same_pending
        rw [if_neg passed_over]
        split
        · next expired =>
          -- no deadline passes while an answer is pending
          have none : answer = none := by
            cases answer with
            | none => rfl
            | some g =>
              have held : v.pending s ≠ [] := by
                rw [pending]
                exact List.cons_ne_nil g []
              have early := serves.on_time s₀ s waits held
              omega
          subst none
          exact ⟨s', _, rfl, quiet.1.trans clock.node, pending', quiet.2.trans clock.sent⟩
        · have less : t.backlog s' < n :=
            Nat.lt_of_lt_of_le (fewer f rfl) (h ▸ t.backlog_clock s)
          obtain ⟨s'', more, waited, node, nothing, sent⟩ := ih _ less next pending' rfl
          simp only [waited]
          exact ⟨s'', _, rfl, node.trans (quiet.1.trans clock.node), nothing,
            sent.trans (quiet.2.trans clock.sent)⟩

theorem Serves.await_eq (serves : Serves t v p ids hash patience) (answer : Option Frame)
    (related : ∀ f, a.isAnswer f = true → IsRelated p ids f)
    (fits : ∀ f ∈ answer, a.isAnswer f = true) (pending : v.pending s = answer.toList) :
    ∃ s' log, Awaited.await t a patience s = ⟨a.outcome patience answer, s', log⟩ ∧
      v.node s' = v.node s ∧ v.pending s' = [] ∧ v.sent s' = v.sent s := by
  have clock := serves.clock s
  obtain ⟨s', log, waited, node, nothing, sent⟩ := serves.receive_eq answer related fits
    (.start : WaitsAt t s _) (clock.pending.trans pending)
  rw [Awaited.await_of_told a (serves.told s)]
  exact ⟨s', log, waited, node.trans clock.node, nothing, sent.trans clock.sent⟩

/-! ## Commands -/

/-- What a session sends for a command: its frame, unless the command is refused unsent. -/
def Node.sends (n : Node) (c : Command) : List Frame :=
  match c.check, n.frame c with
  | .ok (), .ok f => [f]
  | _, _ => []

theorem Node.sends_of_refused (n : Node) {c : Command} {e : SessionError}
    (refused : c.check = .error e) : n.sends c = [] := by
  rw [sends, refused]

theorem Node.sends_of_checked (n : Node) {c : Command} {f : Frame} (checked : c.check = .ok ())
    (framed : n.frame c = .ok f) : n.sends c = [f] := by
  rw [sends, checked, framed]

/-- An answer on one of the node's identifiers is a related frame. -/
theorem Awaited.isRelated_of_isAnswer {f : Frame} (width : a.extended = p.extendedId)
    (id : a.id ∈ ids.toList) (h : a.isAnswer f = true) : IsRelated p ids f := by
  simp only [isAnswer, Bool.and_eq_true, Bool.not_eq_true'] at h
  obtain ⟨⟨same_id, same_width⟩, data⟩ := h
  rw [of_decide_eq_true same_id |>.symm] at id
  exact ⟨(of_decide_eq_true same_width).trans width, data, id⟩

theorem FrameIds.ofCommand_mem_toList (ids : FrameIds) (c : Command) :
    ids.ofCommand c ∈ ids.toList := by
  cases c <;> simp [ofCommand, toList]

variable {n : Node}

theorem Serves.send_eq (serves : Serves t v p ids hash patience) (f : Frame) (s : τ) :
    t.send f s = ⟨.ok (), (t.send f s).state, (t.send f s).log⟩ := by
  rw [← (serves.send f s).1]

/-- One command: the session sees what the bootloader answers, and nothing is pending after it. -/
theorem Serves.call_eq (serves : Serves t v n.profile n.ids hash n.patience)
    (distinct : n.ids.toList.Nodup) (quiet : v.pending s = []) (c : Command) :
    ∃ s' log, n.call t c s = ⟨seenOver n.patience ((v.node s).answer c).1, s', log⟩ ∧
      v.node s' = ((v.node s).answer c).2 ∧ v.pending s' = [] ∧
      v.sent s' = v.sent s ++ n.sends c := by
  cases checked : c.check with
  | error e =>
    -- refused by both sides, and not sent
    obtain ⟨refused, seen⟩ := (v.node s).answer_of_check_error n.patience checked
    rw [Node.call_of_refused checked, refused]
    refine ⟨s, [], by rw [seen], rfl, quiet, ?_⟩
    rw [n.sends_of_refused checked, List.append_nil]
  | ok _ =>
    obtain ⟨f, framed, decoded⟩ := n.frame_eq_ok distinct c
    obtain ⟨-, node, pending, sent⟩ := serves.send f s
    have out := serves.send_eq f s
    have sends := n.sends_of_checked checked framed
    rw [serve_command decoded] at node pending
    rw [quiet, List.nil_append] at pending
    cases answered : c.answerSize with
    | none =>
      -- not answered, and never rejected
      have accepted := (v.node s).answer_of_unanswered checked answered
      rw [accepted] at pending ⊢
      simp only [Command.answerBytes_of_unanswered answered, Option.bind_none,
        Option.toList_none] at pending
      obtain ⟨log, call⟩ := Node.call_of_unanswered checked framed out answered
      exact ⟨_, log, call, node, pending, sends ▸ sent⟩
    | some size =>
      cases reaction : ((v.node s).answer c).1 with
      | ok reply =>
        -- carried out: the one frame that is pending is the answer
        obtain ⟨g, bytes, framed', isAnswer, accepted, meant⟩ := n.exists_answer answered reply
        simp only [reaction, framed'] at pending
        obtain ⟨s', log, waited, node', nothing, sent'⟩ := serves.await_eq (some g)
          (fun _ => Awaited.isRelated_of_isAnswer rfl (n.ids.ofCommand_mem_toList c))
          (fun _ hg => Option.mem_some.mp hg ▸ isAnswer) pending
        rw [Awaited.outcome, accepted] at waited
        obtain ⟨log, call⟩ := Node.call_of_answered checked framed out answered waited
        rw [call, Except.map, meant]
        exact ⟨s', _, rfl, node'.trans node, nothing, sends ▸ sent'.trans sent⟩
      | error e =>
        -- rejected: nothing is pending, and the wait ends without an answer
        simp only [reaction] at pending
        obtain ⟨s', log, waited, node', nothing, sent'⟩ := serves.await_eq
          (a := n.awaited c size) none
          (fun _ => Awaited.isRelated_of_isAnswer rfl (n.ids.ofCommand_mem_toList c)) nofun pending
        obtain ⟨log, call⟩ := Node.call_of_answered checked framed out answered waited
        rw [call, Simulated.seenOver_of_rejected checked reaction]
        exact ⟨s', _, rfl, node'.trans node, nothing, sends ▸ sent'.trans sent⟩

/-- Addressing the node: the session learns its hash. -/
theorem Serves.connect_eq {node : UInt8} (serves : Serves t v p ids hash patience)
    (resolved : FrameIds.resolve p node = .ok ids) (quiet : v.pending s = []) :
    ∃ s' log, Node.connect t p node patience s = ⟨.ok ⟨p, ids, node, patience, hash⟩, s', log⟩ ∧
      v.node s' = v.node s ∧ v.pending s' = [] ∧
      v.sent s' = v.sent s ++ [Node.hashProbe ids p] := by
  obtain ⟨-, node_sent, pending, sent⟩ := serves.send (Node.hashProbe ids p) s
  rw [serve_hash (Node.decode_hashProbe p ids)] at node_sent pending
  obtain ⟨f, framed, isAnswer, accepted⟩ := Awaited.exists_answer
    ⟨"protocol_hash", ids.protocolHash, p.extendedId, 4⟩ (LittleEndian.bytes hash) rfl
    (by decide : 4 ≤ 8)
  rw [quiet, List.nil_append, framed] at pending
  obtain ⟨s', log, waited, node', nothing, sent'⟩ := serves.await_eq (some f)
    (fun _ => Awaited.isRelated_of_isAnswer rfl (List.mem_cons_self ..))
    (fun _ hf => Option.mem_some.mp hf ▸ isAnswer) pending
  rw [Awaited.outcome, accepted] at waited
  rw [Node.connect_eq resolved,
    Routine.bind_of_ok (Routine.mapError_of_ok (serves.send_eq (Node.hashProbe ids p) s) _),
    Routine.bind_of_ok waited]
  simp only
  rw [Routine.bind_of_ok (Routine.emit_apply _ s'), Routine.pure_apply,
    LittleEndian.firstWord_bytes]
  exact ⟨s', _, rfl, node'.trans node_sent, nothing, sent'.trans sent⟩

end Serves

end CanDfu
