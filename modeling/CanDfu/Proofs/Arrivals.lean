/-
  CanDfu.Proofs.Arrivals

  Sessions on a bus whose answers come in order, each of them once, but after any delay: a wait
  may end before its answer has come, and the session may go on.  `ArrivalView` looks behind a
  transport at all that is still to be received, queued or on its way, with the request that each
  answer belongs to.

  Nothing in an answer says which request it belongs to, so a wait takes the first frame on its
  identifier.  `Called` says what that makes of a call: what it took, and what it left to come.
-/
import CanDfu.Proofs.NodeOnBus

namespace CanDfu

variable {τ : Type}

/-- A frame that is still to be received: the answer to a request, by number, or none. -/
structure Arrival where
  frame : Frame
  request : Option Nat
  deriving DecidableEq

/-- What there is behind a transport. -/
structure ArrivalView (τ : Type) where
  /-- The number of requests so far. -/
  requests : τ → Nat
  /-- What is still to be received, in order. -/
  coming : τ → List Arrival
  /-- What is still to be received when the next request goes out; other frames may have been
  queued by then. -/
  found : τ → List Arrival

/-- Whether a frame is taken for the answer to a command. -/
def Node.takes (n : Node) (c : Command) (f : Frame) : Bool := (n.awaited c 0).isAnswer f

/-- A transport to a node that answers each request once and in order, after any delay. -/
structure AnswersInOrder (t : Transport τ) (v : ArrivalView τ) (n : Node) : Prop where
  /-- What is coming keeps its order, and what joins it answers no request. -/
  found : ∀ s, (v.coming s).Sublist (v.found s) ∧
    ∀ a ∈ v.found s, a ∈ v.coming s ∨ a.request = none
  /-- The answer to a request comes behind all that was coming when it went out. -/
  send : ∀ c f s, n.frame c = .ok f → ∃ answer : Option Frame,
    v.coming (t.send f s).state
      = v.found s ++ answer.toList.map (⟨·, some (v.requests s)⟩) ∧
    v.requests (t.send f s).state = v.requests s + 1 ∧
    (∀ g ∈ answer, n.takes c g = true) ∧
    (c.answerSize = none → answer = none) ∧
    (c.answerSize ≠ none → (t.send f s).result = .ok () → answer ≠ none)
  clock : ∀ s, v.coming (t.clock s).2 = v.coming s ∧ v.requests (t.clock s).2 = v.requests s
  /-- What is coming is received in order; frames of others may come at any time. -/
  received : ∀ patience s f, (t.receive patience s).result = .ok f →
    (∃ a : Arrival, a.frame = f ∧ v.coming s = a :: v.coming (t.receive patience s).state) ∨
      (¬ IsRelated n.profile n.ids f ∧ v.coming (t.receive patience s).state = v.coming s)
  /-- A receive that fails takes nothing. -/
  failed : ∀ patience s e, (t.receive patience s).result = .error e →
    v.coming (t.receive patience s).state = v.coming s
  /-- Receiving is no request. -/
  receive : ∀ patience s, v.requests (t.receive patience s).state = v.requests s

section Takes

variable {n : Node} {c k : Command} {f : Frame}

/-- Commands with one identifier take the same frames. -/
theorem Node.takes_congr (same : n.ids.ofCommand k = n.ids.ofCommand c) :
    n.takes k f = n.takes c f := by
  unfold takes awaited Awaited.isAnswer
  rw [same]

/-- Commands with different identifiers take different frames. -/
theorem Node.takes_of_ne (other : n.ids.ofCommand k ≠ n.ids.ofCommand c)
    (h : n.takes k f = true) : n.takes c f = false := by
  have id : f.id = n.ids.ofCommand k := by
    simp only [takes, Awaited.isAnswer, Bool.and_eq_true] at h
    exact of_decide_eq_true h.1.1
  have elsewhere : decide (f.id = n.ids.ofCommand c) = false :=
    decide_eq_false fun here => other (id.symm.trans here)
  show (decide (f.id = n.ids.ofCommand c) && _ && _) = false
  rw [elsewhere]
  rfl

end Takes

section Waiting

variable {t : Transport τ} {v : ArrivalView τ} {n : Node} {a : Awaited} {s s' : τ}

/-- An answer that is long enough is kept as far as it is asked for. -/
theorem Awaited.accept_eq_ok_iff {f : Frame} {bytes : List UInt8} :
    a.accept f = .ok bytes ↔ a.size ≤ f.bytes.length ∧ bytes = f.bytes.take a.size := by
  unfold accept
  split
  · next short => exact ⟨nofun, fun h => absurd h.1 (Nat.not_le_of_lt short)⟩
  · next enough =>
    rw [Except.ok.injEq]
    exact ⟨fun h => ⟨Nat.le_of_not_lt enough, h.symm⟩, fun h => h.2.symm⟩

/-- A wait ends with the answer when that is received. -/
theorem Awaited.receive_of_answer {patience deadline : Nat} {f : Frame} {log : List Note}
    (received : t.receive (deadline - (t.clock s).1) (t.clock s).2 = ⟨.ok f, s', log⟩)
    (isAnswer : a.isAnswer f = true) :
    a.receive t patience deadline s = ⟨a.accept f, s', log⟩ := by
  rw [Awaited.receive_eq, received]
  exact if_pos isAnswer

/-- A wait ends without an answer when receiving times out. -/
theorem Awaited.receive_of_timeout {patience deadline : Nat} {millis : UInt64} {log : List Note}
    (timeout : t.receive (deadline - (t.clock s).1) (t.clock s).2
      = ⟨.error (.timeout millis), s', log⟩) :
    a.receive t patience deadline s
      = ⟨.error (.noResponse (wholeMillis patience)), s', log⟩ := by
  rw [Awaited.receive_eq, timeout]
  rfl

/-- What comes of waiting: the first frame that may be the answer is taken, and what came before it
is passed over; or the wait fails, with the rest still to come. -/
inductive Took (v : ArrivalView τ) (a : Awaited) (s : τ) :
    Outcome Note τ SessionError (List UInt8) → Prop
  | answer {bytes : List UInt8} {before : List Arrival} {x : Arrival} {s' : τ} {log : List Note}
      (split : v.coming s = before ++ x :: v.coming s')
      (skipped : ∀ b ∈ before, a.isAnswer b.frame = false) (first : a.isAnswer x.frame = true)
      (accepted : a.accept x.frame = .ok bytes) (requests : v.requests s' = v.requests s) :
      Took v a s ⟨.ok bytes, s', log⟩
  | failure {e : SessionError} {s' : τ} {log : List Note} (left : v.coming s' <:+ v.coming s)
      (requests : v.requests s' = v.requests s) : Took v a s ⟨.error e, s', log⟩

/-- Passing over what is not the answer. -/
theorem Took.passing {passed : List Arrival} (split : v.coming s = passed ++ v.coming s')
    (skipped : ∀ b ∈ passed, a.isAnswer b.frame = false) (same : v.requests s' = v.requests s)
    {o : Outcome Note τ SessionError (List UInt8)} (h : Took v a s' o) (log : List Note) :
    Took v a s ⟨o.result, o.state, log⟩ := by
  cases h with
  | answer split' skipped' first accepted requests =>
    refine .answer ?_ (List.forall_mem_append.mpr ⟨skipped, skipped'⟩) first accepted
      (requests.trans same)
    rw [split, split', List.append_assoc]
  | failure left requests =>
    exact .failure (split ▸ left.trans (List.suffix_append ..)) (requests.trans same)

/-- Waiting takes the first frame on its identifier, whatever request that answers. -/
theorem AnswersInOrder.receive_took (lawful : AnswersInOrder t v n)
    (related : ∀ f, a.isAnswer f = true → IsRelated n.profile n.ids f) (patience deadline : Nat)
    (s : τ) : Took v a s (a.receive t patience deadline s) := by
  -- the induction is on what can still be received; it ends the wait
  induction h : t.backlog s using Nat.strongRecOn generalizing s with
  | ind m ih =>
    obtain ⟨clock, clock_requests⟩ := lawful.clock s
    have requests := lawful.receive (deadline - (t.clock s).1) (t.clock s).2
    have received := lawful.received (deadline - (t.clock s).1) (t.clock s).2
    have failed := lawful.failed (deadline - (t.clock s).1) (t.clock s).2
    have fewer := t.backlog_receive (deadline - (t.clock s).1) (t.clock s).2
    rw [clock_requests] at requests
    rw [clock] at received failed
    rw [Awaited.receive_eq]
    split
    · next e s' log found =>
      rw [found] at failed requests
      exact .failure (failed _ rfl ▸ List.suffix_rfl) requests
    · next f s' log found =>
      rw [found] at received requests fewer
      by_cases isAnswer : a.isAnswer f = true
      -- a frame on the identifier comes from what was coming, and it was the first of it
      · obtain ⟨x, rfl, first⟩ := (received f rfl).resolve_right
          fun unrelated => unrelated.1 (related f isAnswer)
        rw [if_pos isAnswer]
        cases accepted : a.accept x.frame with
        | ok bytes =>
          have head : v.coming s = [] ++ x :: v.coming s' := first
          exact .answer head (List.forall_mem_nil _) isAnswer accepted requests
        | error e => exact .failure (first ▸ List.suffix_cons ..) requests
      · rw [if_neg isAnswer]
        -- what is passed over was the first of what was coming, or was not among it
        obtain ⟨passed, split, skipped⟩ : ∃ passed, v.coming s = passed ++ v.coming s' ∧
            ∀ b ∈ passed, a.isAnswer b.frame = false := by
          rcases received f rfl with ⟨x, rfl, first⟩ | ⟨-, same⟩
          · exact ⟨[x], first, List.forall_mem_singleton.mpr (Bool.eq_false_iff.mpr isAnswer)⟩
          · exact ⟨[], same.symm, List.forall_mem_nil _⟩
        split
        · exact .failure (split ▸ List.suffix_append ..) requests
        · have less : t.backlog s' < m :=
            Nat.lt_of_lt_of_le (fewer f rfl) (h ▸ t.backlog_clock s)
          exact (ih _ less s' rfl).passing split skipped requests _

end Waiting

section Calls

variable {t : Transport τ} {v : ArrivalView τ} {n : Node} {c : Command} {s : τ}

/-- What comes of a call, from what was coming and the answer to its own request: it is not sent;
or its reply is read from the first frame on its identifier; or it has no answer; or it fails, with
a rest still to come. -/
inductive Called (t : Transport τ) (v : ArrivalView τ) (n : Node) (c : Command) (s : τ) :
    Outcome Note τ SessionError c.Reply → Prop
  | unsent {e : SessionError} : Called t v n c s ⟨.error e, s, []⟩
  | replied {size : Nat} {f own : Frame} {before : List Arrival} {x : Arrival} {s' : τ}
      {log : List Note} (answered : c.answerSize = some size) (framed : n.frame c = .ok f)
      (out : v.coming (t.send f s).state = v.found s ++ [⟨own, some (v.requests s)⟩])
      (takes : n.takes c own = true)
      (split : v.found s ++ [⟨own, some (v.requests s)⟩] = before ++ x :: v.coming s')
      (skipped : ∀ b ∈ before, n.takes c b.frame = false) (first : n.takes c x.frame = true)
      (enough : size ≤ x.frame.bytes.length) (requests : v.requests s' = v.requests s + 1) :
      Called t v n c s ⟨.ok (c.ofAnswer (x.frame.bytes.take size)), s', log⟩
  | done {s' : τ} {log : List Note} (unanswered : c.answerSize = none)
      (left : v.coming s' = v.found s) (requests : v.requests s' = v.requests s + 1) :
      Called t v n c s ⟨.ok (c.ofAnswer []), s', log⟩
  | failed {e : SessionError} {answer : Option Frame} {s' : τ} {log : List Note}
      (takes : ∀ g ∈ answer, n.takes c g = true)
      (left : v.coming s' <:+ v.found s ++ answer.toList.map (⟨·, some (v.requests s)⟩))
      (requests : v.requests s' = v.requests s + 1) : Called t v n c s ⟨.error e, s', log⟩

/-- Waiting after a send that went well. -/
theorem AnswersInOrder.await_took (lawful : AnswersInOrder t v n) (size : Nat) (s : τ) :
    Took v (n.awaited c size) s (Awaited.await t (n.awaited c size) n.patience s) := by
  obtain ⟨clock, requests⟩ := lawful.clock s
  by_cases told : t.tells ((t.clock s).1 + n.patience) = true
  · rw [Awaited.await_of_told _ told]
    have took := lawful.receive_took (a := n.awaited c size)
      (fun _ => Awaited.isRelated_of_isAnswer rfl (n.ids.ofCommand_mem_toList c)) n.patience
      ((t.clock s).1 + n.patience) (t.clock s).2
    have split : v.coming s = [] ++ v.coming (t.clock s).2 := clock.symm
    exact took.passing split (List.forall_mem_nil _) requests _
  · rw [Awaited.await_of_untold _ told]
    exact .failure (clock ▸ List.suffix_rfl) requests

/-- Every call goes this way. -/
theorem AnswersInOrder.called (lawful : AnswersInOrder t v n) (c : Command) (s : τ) :
    Called t v n c s (n.call t c s) := by
  cases checked : c.check with
  | error e =>
    rw [Node.call_of_refused checked]
    exact .unsent
  | ok _ =>
    have framed := n.frame_eq c
    generalize Frame.mk (n.ids.ofCommand c) n.profile.extendedId _ = f at framed
    obtain ⟨answer, coming, requests, takes, unanswered, answered⟩ := lawful.send c f s framed
    generalize sent : t.send f s = o at coming requests answered
    obtain ⟨e | _, s', log⟩ := o
    · obtain ⟨log, call⟩ := Node.call_of_unsent checked framed sent
      rw [call]
      exact .failed takes (coming ▸ List.suffix_rfl) requests
    cases size : c.answerSize with
    | none =>
      obtain ⟨log, call⟩ := Node.call_of_unanswered checked framed sent size
      rw [unanswered size, Option.toList_none, List.map_nil, List.append_nil] at coming
      rw [call]
      exact .done size coming requests
    | some size' =>
      -- the request is out and will be answered, so its answer is the last of what is coming
      obtain ⟨own, rfl⟩ := Option.ne_none_iff_exists'.mp (answered (by rw [size]; nofun) rfl)
      have out : v.coming (t.send f s).state = v.found s ++ [⟨own, some (v.requests s)⟩] := by
        rw [sent]
        exact coming
      have took := lawful.await_took (c := c) size' s'
      generalize waited : Awaited.await t (n.awaited c size') n.patience s' = o at took
      obtain ⟨log, call⟩ := Node.call_of_answered checked framed sent size waited
      rw [call]
      cases took with
      | answer split skipped first accepted same =>
        obtain ⟨enough, rfl⟩ := Awaited.accept_eq_ok_iff.mp accepted
        exact .replied size framed out (takes own rfl) (coming ▸ split) skipped first enough
          (same.trans requests)
      | failure left same => exact .failed takes (coming ▸ left) (same.trans requests)

end Calls

end CanDfu
