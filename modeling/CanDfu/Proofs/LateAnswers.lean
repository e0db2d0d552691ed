/-
  CanDfu.Proofs.LateAnswers

  Whose answer a session gets when answers may be late.  Answers are matched with requests by
  their identifier alone, so a call takes the first frame on its identifier: a frame that was
  queued already, the late answer to a request that was given up, or else its own answer.

    * `reply_of_first` : which frame a reply is read from, and when that is the call's own answer.
    * `late_answer_taken` : a read that is answered with what an earlier one asked for.

  Replies keep in step with requests as long as no call on the identifier fails: a call that
  succeeds takes the last of what was coming on it (`Called.clear`).
-/
import CanDfu.Proofs.Arrivals
import CanDfu.Proofs.SessionRefinement

namespace CanDfu

variable {τ : Type} {t : Transport τ} {v : ArrivalView τ} {n : Node} {c k : Command} {s : τ}

/-! ## What is left to come -/

/-- Answers that are still to come answer requests that were sent. -/
def ArrivalView.Dated (v : ArrivalView τ) (s : τ) : Prop :=
  ∀ a ∈ v.coming s, ∀ request, a.request = some request → request < v.requests s

/-- No frame that a command would take for its answer is still to come. -/
def ArrivalView.Clear (v : ArrivalView τ) (n : Node) (c : Command) (s : τ) : Prop :=
  ∀ a ∈ v.coming s, n.takes c a.frame = false

/-- No frame has been queued that a command would take for its answer. -/
def ArrivalView.Undisturbed (v : ArrivalView τ) (n : Node) (c : Command) (s : τ) : Prop :=
  ∀ a ∈ v.found s, a ∈ v.coming s ∨ n.takes c a.frame = false

/-- What a request finds is dated, or no answer. -/
theorem AnswersInOrder.found_dated (lawful : AnswersInOrder t v n) (dated : v.Dated s)
    {a : Arrival} (ha : a ∈ v.found s) {request : Nat} (h : a.request = some request) :
    request < v.requests s := by
  rcases (lawful.found s).2 a ha with coming | none
  · exact dated a coming request h
  · rw [none] at h
    cases h

/-- After a call there comes what it found, or the answer to it. -/
theorem Called.coming_subset (lawful : AnswersInOrder t v n)
    {o : Outcome Note τ SessionError c.Reply} (h : Called t v n c s o) {a : Arrival}
    (ha : a ∈ v.coming o.state) :
    a ∈ v.found s ∨ a.request = some (v.requests s) ∧ n.takes c a.frame = true := by
  cases h with
  | unsent => exact .inl ((lawful.found s).1.subset ha)
  | @replied size f own before x s' log _ _ _ takes split =>
    have late : a ∈ before ++ x :: v.coming s' :=
      List.mem_append_right _ (List.mem_cons_of_mem _ ha)
    rw [← split] at late
    rcases List.mem_append.mp late with found | own
    · exact .inl found
    · rw [List.mem_singleton.mp own]
      exact .inr ⟨rfl, takes⟩
  | done _ left => exact .inl (left ▸ ha)
  | failed takes left =>
    rcases List.mem_append.mp (left.subset ha) with found | own
    · exact .inl found
    · obtain ⟨g, hg, rfl⟩ := List.mem_map.mp own
      exact .inr ⟨rfl, takes g (Option.mem_toList.mp hg)⟩

/-- A call is one request, or none and leaves all as it was. -/
theorem Called.requests {o : Outcome Note τ SessionError c.Reply} (h : Called t v n c s o) :
    o.state = s ∨ v.requests o.state = v.requests s + 1 := by
  cases h with
  | unsent => exact .inl rfl
  | replied _ _ _ _ _ _ _ _ requests => exact .inr requests
  | done _ _ requests => exact .inr requests
  | failed _ _ requests => exact .inr requests

theorem Called.dated (lawful : AnswersInOrder t v n) {o : Outcome Note τ SessionError c.Reply}
    (h : Called t v n c s o) (dated : v.Dated s) : v.Dated o.state := by
  rcases h.requests with same | requests
  · rw [same]
    exact dated
  · intro a ha request asked
    rw [requests]
    rcases h.coming_subset lawful ha with found | ⟨own, -⟩
    · exact Nat.lt_succ_of_lt (lawful.found_dated dated found asked)
    · rw [own, Option.some.injEq] at asked
      omega

/-- Of a list with one more element, an element that is new is the last. -/
theorem eq_last_of_not_mem {α : Type} {xs before rest : List α} {x y : α}
    (split : xs ++ [y] = before ++ x :: rest) (new : x ∉ xs) : x = y ∧ rest = [] := by
  rcases List.eq_nil_or_concat rest with rfl | ⟨init, z, rfl⟩
  · exact ⟨(List.singleton_inj.mp (List.append_inj' split rfl).2).symm, rfl⟩
  · rw [List.concat_eq_append, ← List.cons_append, ← List.append_assoc] at split
    refine absurd ?_ new
    rw [(List.append_inj' split rfl).1]
    exact List.mem_append_right _ (List.mem_cons_self ..)

/-- What a request finds is clear, when what was coming is. -/
theorem ArrivalView.Undisturbed.found (undisturbed : v.Undisturbed n c s) (clear : v.Clear n c s)
    {a : Arrival} (ha : a ∈ v.found s) : n.takes c a.frame = false :=
  (undisturbed a ha).elim (clear a) id

/-- A call on an identifier leaves nothing to come on it if it succeeds; a call on another one
does not add to it. -/
theorem Called.clear (lawful : AnswersInOrder t v n) {o : Outcome Note τ SessionError k.Reply}
    (h : Called t v n k s o) (undisturbed : v.Undisturbed n c s) (clear : v.Clear n c s)
    (succeeds : n.ids.ofCommand k = n.ids.ofCommand c → ∃ reply, o.result = .ok reply) :
    v.Clear n c o.state := by
  intro a ha
  by_cases same : n.ids.ofCommand k = n.ids.ofCommand c
  · cases h with
    | unsent => exact clear a ha
    | replied _ _ _ _ split _ first =>
      -- it took a frame on the identifier, and what it found has none: it took the last
      have new : ∀ x, n.takes k x.frame = true → x ∉ v.found s := by
        intro x taken found
        rw [n.takes_congr same, undisturbed.found clear found] at taken
        cases taken
      obtain ⟨-, nothing⟩ := eq_last_of_not_mem split (new _ first)
      rw [nothing] at ha
      cases ha
    | done _ left => exact undisturbed.found clear (left ▸ ha)
    | failed =>
      obtain ⟨reply, ok⟩ := succeeds same
      cases ok
  · rcases h.coming_subset lawful ha with found | ⟨-, own⟩
    · exact undisturbed.found clear found
    · exact n.takes_of_ne same own

/-! ## Sessions -/

/-- The states in which a session gives its commands, and the one it ends in. -/
def Device.states {σ : Type} (d : Device σ) : List Command → σ → List σ
  | [], s => [s]
  | c :: rest, s => s :: d.states rest (d.call c s).state

/-- A session begins with its first call. -/
theorem Device.session_cons {σ : Type} {d : Device σ} {c : Command} {s s' : σ}
    {answer : Except SessionError c.Reply} {log : List Note} (rest : List Command)
    (call : d.call c s = ⟨answer, s', log⟩) :
    d.session (c :: rest) s = (⟨c, answer⟩ :: (d.session rest s').1, (d.session rest s').2) ∧
      d.states (c :: rest) s = s :: d.states rest s' := by
  rw [session, states, call]
  exact ⟨rfl, rfl⟩

theorem Device.mem_states_session {σ : Type} (d : Device σ) (commands : List Command) (s : σ) :
    (d.session commands s).2 ∈ d.states commands s := by
  induction commands generalizing s with
  | nil => exact List.mem_singleton.mpr rfl
  | cons c rest ih => exact List.mem_cons_of_mem _ (ih _)

theorem AnswersInOrder.session_dated (lawful : AnswersInOrder t v n) (commands : List Command)
    (dated : v.Dated s) : v.Dated ((n.device t).session commands s).2 := by
  induction commands generalizing s with
  | nil => exact dated
  | cons k rest ih => exact ih ((lawful.called k s).dated lawful dated)

/-- As long as the calls on an identifier succeed, nothing on it is left to come. -/
theorem AnswersInOrder.session_clear (lawful : AnswersInOrder t v n) (commands : List Command)
    (undisturbed : ∀ w ∈ (n.device t).states commands s, v.Undisturbed n c w)
    (clear : v.Clear n c s)
    (succeeded : ∀ call ∈ ((n.device t).session commands s).1,
      n.ids.ofCommand call.command = n.ids.ofCommand c → ∃ reply, call.answer = .ok reply) :
    v.Clear n c ((n.device t).session commands s).2 := by
  induction commands generalizing s with
  | nil => exact clear
  | cons k rest ih =>
    obtain ⟨first, others⟩ := List.forall_mem_cons.mp undisturbed
    obtain ⟨here, later⟩ := List.forall_mem_cons.mp succeeded
    exact ih others ((lawful.called k s).clear lawful first clear here) later

/-- A reply is read from the first frame on its identifier, of all that is coming once the request
is out; the answer to the request itself is the last of it. -/
structure RepliedFrom (t : Transport τ) (v : ArrivalView τ) (n : Node) (c : Command) (s : τ)
    (reply : c.Reply) (own taken : Arrival) : Prop where
  out : ∃ f, n.frame c = .ok f ∧ v.coming (t.send f s).state = v.found s ++ [own]
  answer : own.request = some (v.requests s) ∧ n.takes c own.frame = true
  first : (v.found s ++ [own]).find? (fun a => n.takes c a.frame) = some taken
  reply : ∃ size, c.answerSize = some size ∧ size ≤ taken.frame.bytes.length ∧
    reply = c.ofAnswer (taken.frame.bytes.take size)

theorem Called.repliedFrom {o : Outcome Note τ SessionError c.Reply} (h : Called t v n c s o)
    (answered : c.answerSize ≠ none) {reply : c.Reply} (ok : o.result = .ok reply) :
    ∃ own taken, RepliedFrom t v n c s reply own taken := by
  cases h with
  | unsent | failed => cases ok
  | done unanswered => exact absurd unanswered answered
  | @replied size f own before x s' log answered framed out takes split skipped first enough =>
    injection ok with ok
    refine ⟨⟨own, some (v.requests s)⟩, x, ⟨f, framed, out⟩, ⟨rfl, takes⟩, ?_,
      size, answered, enough, ok.symm⟩
    rw [split]
    refine List.find?_eq_some_iff_append.mpr ⟨first, before, _, rfl, fun b hb => ?_⟩
    rw [skipped b hb]
    rfl

/-- The frame that is taken is the call's own answer, or one that was found. -/
theorem RepliedFrom.eq_own_iff (lawful : AnswersInOrder t v n) (dated : v.Dated s) {reply : c.Reply}
    {own taken : Arrival} (h : RepliedFrom t v n c s reply own taken) :
    (taken = own ↔ ∀ a ∈ v.found s, n.takes c a.frame = false) ∧
      (taken ≠ own → taken ∈ v.found s) := by
  have first := h.first
  have taken_takes := List.find?_some first
  rw [List.find?_append] at first
  cases found : (v.found s).find? (fun a => n.takes c a.frame) with
  | none =>
    rw [found, Option.none_or, List.find?_singleton, if_pos h.answer.2] at first
    injection first with same
    have none_taken := List.find?_eq_none.mp found
    refine ⟨⟨fun _ a ha => Bool.eq_false_iff.mpr (none_taken a ha), fun _ => same.symm⟩,
      fun other => absurd same.symm other⟩
  | some x =>
    rw [found, Option.some_or] at first
    injection first with same
    subst same
    have mem := List.mem_of_find?_eq_some found
    -- what was found is older than the request
    have older : x ≠ own := by
      rintro rfl
      exact Nat.lt_irrefl _ (lawful.found_dated dated mem h.answer.1)
    refine ⟨⟨fun own => absurd own older, fun none_taken => ?_⟩, fun _ => mem⟩
    rw [none_taken x mem] at taken_takes
    cases taken_takes

/-! ## A bus with late answers -/

/-- A bus on which answers reach the session when they are due, and frames of others are queued
before a request goes out. -/
structure LateBus where
  /-- Frames to be received. -/
  queue : List Arrival := []
  /-- Answers that did not reach the queue yet. -/
  underway : List Arrival := []
  requests : Nat := 0
  /-- How many answers reach the queue before each receive to come. -/
  deliveries : List Nat := []
  /-- Frames of others queued before each request to come. -/
  others : List (List Frame) := []

namespace LateBus

/-- What a node answers to each request: bytes that depend on the request and its number. -/
abbrev Answers := Nat → Command → List UInt8

/-- The frame that answers a command. -/
def answerFrame (n : Node) (answers : Answers) (request : Nat) (c : Command) : Frame :=
  ⟨n.ids.ofCommand c, n.profile.extendedId,
    .data ((answers request c).take maxFrameData) (List.length_take_le ..)⟩

/-- The answer to a request frame, unless its command is not answered. -/
def answer (n : Node) (answers : Answers) (request : Nat) (f : Frame) : Option Frame :=
  match Request.decode n.profile n.ids f with
  | some (.command c) =>
    if c.answerSize = none then none else some (answerFrame n answers request c)
  | _ => none

/-- The bus when a request is out: others have queued their frames, and the answer is on its
way. -/
def asked (b : LateBus) (answer : Option Frame) : LateBus :=
  { b with
    queue := b.queue ++ (b.others.headD []).map (⟨·, none⟩)
    underway := b.underway ++ answer.toList.map (⟨·, some b.requests⟩)
    requests := b.requests + 1
    others := b.others.tail }

/-- What the next receive finds: the queue, and behind it the answers that are due. -/
def ready (b : LateBus) : List Arrival := b.queue ++ b.underway.take (b.deliveries.headD 0)

/-- The bus after a receive that left some of what it found. -/
def received (b : LateBus) (rest : List Arrival) : LateBus :=
  { b with
    queue := rest
    underway := b.underway.drop (b.deliveries.headD 0)
    deliveries := b.deliveries.tail }

/-- Takes a request to the node. -/
def send (n : Node) (answers : Answers) (f : Frame) : Routine Note LateBus TransportError Unit :=
  fun b => ⟨.ok (), b.asked (answer n answers b.requests f), []⟩

/-- Hands out the next frame. -/
def receive (patience : Nat) : Routine Note LateBus TransportError Frame := fun b =>
  match b.ready with
  | [] => ⟨.error (.timeout (wholeMillis patience)), b.received [], []⟩
  | a :: rest => ⟨.ok a.frame, b.received rest, []⟩

theorem receive_of_nothing {b : LateBus} {patience : Nat} (nothing : b.ready = []) :
    receive patience b = ⟨.error (.timeout (wholeMillis patience)), b.received [], []⟩ := by
  rw [receive, nothing]

theorem receive_of_first {b : LateBus} {patience : Nat} {a : Arrival} {rest : List Arrival}
    (first : b.ready = a :: rest) : receive patience b = ⟨.ok a.frame, b.received rest, []⟩ := by
  rw [receive, first]

/-- What there is behind the bus. -/
def view : ArrivalView LateBus where
  requests := requests
  coming b := b.queue ++ b.underway
  found b := b.queue ++ (b.others.headD []).map (⟨·, none⟩) ++ b.underway

/-- What a receive does not find is still to come after what it leaves. -/
theorem coming_received (b : LateBus) {found rest : List Arrival} (h : b.ready = found ++ rest) :
    view.coming b = found ++ view.coming (b.received rest) := by
  show b.queue ++ b.underway = found ++ (rest ++ b.underway.drop _)
  rw [← List.append_assoc, ← h, ready, List.append_assoc, List.take_append_drop]

/-- Receiving takes the first of what is coming, or finds nothing and leaves all of it. -/
theorem receive_cases (patience : Nat) (b : LateBus) :
    (∃ a : Arrival, (receive patience b).result = .ok a.frame ∧
        view.coming b = a :: view.coming (receive patience b).state) ∨
      (∃ e, (receive patience b).result = .error e) ∧
        view.coming (receive patience b).state = view.coming b := by
  cases ready : b.ready with
  | nil =>
    rw [receive_of_nothing ready]
    have left : view.coming b = [] ++ view.coming (b.received []) := b.coming_received ready
    exact .inr ⟨⟨_, rfl⟩, left.symm⟩
  | cons a rest =>
    rw [receive_of_first ready]
    have taken : view.coming b = [a] ++ view.coming (b.received rest) := b.coming_received ready
    exact .inl ⟨a, rfl, taken⟩

/-- The bus as a transport.  Its clock stands still. -/
def transport (n : Node) (answers : Answers) : Transport LateBus where
  name := "bench"
  send := send n answers
  receive := receive
  clock b := (0, b)
  backlog b := (view.coming b).length
  backlog_receive patience b f h := by
    rcases receive_cases patience b with ⟨a, -, first⟩ | ⟨⟨e, failed⟩, -⟩
    · rw [first]
      exact Nat.lt_succ_self _
    · cases h.symm.trans failed
  backlog_clock b := Nat.le_refl _

section Bus

variable {n : Node} {answers : Answers} {c : Command} {b : LateBus}

theorem takes_answerFrame (request : Nat) : n.takes c (answerFrame n answers request c) = true := by
  simp [Node.takes, Node.awaited, Awaited.isAnswer, Frame.isRemote, answerFrame]

/-- The frame of a command is answered as the command is. -/
theorem answer_eq (distinct : n.ids.toList.Nodup) {f : Frame} (framed : n.frame c = .ok f)
    (request : Nat) :
    answer n answers request f
      = if c.answerSize = none then none else some (answerFrame n answers request c) := by
  obtain ⟨g, framed', decoded⟩ := n.frame_eq_ok distinct c
  cases framed.symm.trans framed'
  rw [answer, decoded]

/-- Whatever the node answers, and whenever its answers come, each request is answered once and
in order. -/
theorem answersInOrder (n : Node) (answers : Answers) (distinct : n.ids.toList.Nodup) :
    AnswersInOrder (transport n answers) view n where
  found b := by
    have queue : b.queue.Sublist (b.queue ++ (b.others.headD []).map (⟨·, none⟩)) :=
      List.sublist_append_left ..
    refine ⟨queue.append (List.Sublist.refl _), fun a ha => ?_⟩
    rcases List.mem_append.mp ha with ha | ha
    · rcases List.mem_append.mp ha with ha | ha
      · exact .inl (List.mem_append_left _ ha)
      · obtain ⟨f, -, rfl⟩ := List.mem_map.mp ha
        exact .inr rfl
    · exact .inl (List.mem_append_right _ ha)
  send c f b framed := by
    have replies : answer n answers b.requests f = _ := answer_eq distinct framed b.requests
    refine ⟨answer n answers b.requests f, (List.append_assoc ..).symm, rfl, ?_, ?_, ?_⟩
    · intro g hg
      rw [replies] at hg
      split at hg
      · cases hg
      · rw [← Option.mem_some.mp hg]
        exact takes_answerFrame _
    · intro unanswered
      rw [replies, if_pos unanswered]
    · intro answered _
      rw [replies, if_neg answered]
      exact Option.some_ne_none _
  clock b := ⟨rfl, rfl⟩
  received patience b f h := by
    rcases receive_cases patience b with ⟨a, received, first⟩ | ⟨⟨e, failed⟩, -⟩
    · exact .inl ⟨a, Except.ok.inj (received.symm.trans h), first⟩
    · cases h.symm.trans failed
  failed patience b e h := by
    rcases receive_cases patience b with ⟨a, received, -⟩ | ⟨-, same⟩
    · cases h.symm.trans received
    · exact same
  receive patience b := by
    show (receive patience b).state.requests = b.requests
    unfold receive
    split <;> rfl

variable {size : Nat} (distinct : n.ids.toList.Nodup) (answered : c.answerSize = some size)
include distinct answered

theorem send_of_answered {f : Frame} (framed : n.frame c = .ok f) :
    (transport n answers).send f b
      = ⟨.ok (), b.asked (some (answerFrame n answers b.requests c)), []⟩ := by
  show Outcome.mk _ (b.asked (answer n answers b.requests f)) _ = _
  rw [answer_eq distinct framed, answered, if_neg (Option.some_ne_none _)]

/-- A call for which nothing is there in time ends without an answer. -/
theorem call_of_nothing
    (nothing : (b.asked (some (answerFrame n answers b.requests c))).ready = []) :
    ∃ log, n.call (transport n answers) c b
      = ⟨.error (.noResponse (wholeMillis n.patience)),
          (b.asked (some (answerFrame n answers b.requests c))).received [], log⟩ :=
  Node.call_of_answered (c.check_of_answered answered) (n.frame_eq c)
    (send_of_answered distinct answered (n.frame_eq c)) answered
    (Awaited.receive_of_timeout (receive_of_nothing nothing))

/-- A call takes the first frame that is there in time, if that may be its answer. -/
theorem call_of_first {x : Arrival} {rest : List Arrival} {bytes : List UInt8}
    (first : (b.asked (some (answerFrame n answers b.requests c))).ready = x :: rest)
    (takes : n.takes c x.frame = true)
    (accepted : (n.awaited c size).accept x.frame = .ok bytes) :
    ∃ log, n.call (transport n answers) c b
      = ⟨.ok (c.ofAnswer bytes),
          (b.asked (some (answerFrame n answers b.requests c))).received rest, log⟩ := by
  have waited : Awaited.await (transport n answers) (n.awaited c size) n.patience
      (b.asked (some (answerFrame n answers b.requests c))) = ⟨_, _, _⟩ :=
    Awaited.receive_of_answer (receive_of_first first) takes
  rw [accepted] at waited
  exact Node.call_of_answered (c.check_of_answered answered) (n.frame_eq c)
    (send_of_answered distinct answered (n.frame_eq c)) answered waited

end Bus

end LateBus

/-! ## Replies -/

/-- The reply of a call in a session is read from the first frame on its identifier, of all that
is coming once its request is out.  That is the node's answer to the request exactly when no such
frame was queued or on its way when the request went out, and otherwise one of those; and it is the
answer when none was coming as the session began, others queued none, and every call before it on
the identifier succeeded. -/
theorem reply_of_first (t : Transport τ) (v : ArrivalView τ) (n : Node)
    (lawful : AnswersInOrder t v n) (s : τ) (dated : v.Dated s) (before : List Command)
    (c : Command) (answered : c.answerSize ≠ none) (reply : c.Reply)
    (replied : ((n.device t).call c ((n.device t).session before s).2).result = .ok reply) :
    let session := (n.device t).session before s
    ∃ own taken, RepliedFrom t v n c session.2 reply own taken ∧
      (taken = own ↔ ∀ a ∈ v.found session.2, n.takes c a.frame = false) ∧
      (taken ≠ own → taken ∈ v.found session.2) ∧
      (v.Clear n c s → (∀ w ∈ (n.device t).states before s, v.Undisturbed n c w) →
        (∀ call ∈ session.1, n.ids.ofCommand call.command = n.ids.ofCommand c →
          ∃ reply, call.answer = .ok reply) → taken = own) := by
  intro session
  obtain ⟨own, taken, origin⟩ := (lawful.called c session.2).repliedFrom answered replied
  obtain ⟨own_iff, found⟩ := origin.eq_own_iff lawful (lawful.session_dated before dated)
  refine ⟨own, taken, origin, own_iff, found, fun clear undisturbed succeeded => ?_⟩
  have still := lawful.session_clear before undisturbed clear succeeded
  have last := undisturbed _ ((n.device t).mem_states_session before s)
  exact own_iff.mpr fun a ha => last.found still ha

/-- Node 1 of the seeded profile, waiting for five milliseconds. -/
def patientNode : Node := ⟨seededProfile, seededIds, 1, 5000000, 0x1234⟩

/-- Every read is answered with its own address. -/
def addressAnswers : LateBus.Answers
  | _, .read address => LittleEndian.bytes address
  | _, _ => [0, 0, 0, 0]

/-- A bus on which the first answer misses the first receive and comes before the second. -/
def lateBus : LateBus := { deliveries := [0, 1] }

/-- The same bus when the first read has been given up, and its answer is still on its way. -/
def givenUpBus : LateBus where
  underway := [⟨⟨65, false, .data (LittleEndian.bytes 0x1000) (by decide)⟩, some 0⟩]
  requests := 1
  deliveries := [1]

/-- A bus on which every answer is there in time. -/
def promptBus : LateBus := { deliveries := [1, 1] }

/-- The same bus after a read. -/
def servedBus : LateBus := { requests := 1, deliveries := [1] }

/-- The node on such a bus. -/
abbrev patientDevice : Device LateBus :=
  patientNode.device (LateBus.transport patientNode addressAnswers)

theorem call_lateBus :
    ∃ log, patientDevice.call (.read 0x1000) lateBus = ⟨.error (.noResponse 5), givenUpBus, log⟩ :=
  LateBus.call_of_nothing (by decide) rfl rfl

theorem accept_addressAnswers (request : Nat) (address a : UInt32) :
    (patientNode.awaited (.read a) 4).accept
        (LateBus.answerFrame patientNode addressAnswers request (.read address))
      = .ok (LittleEndian.bytes address) :=
  rfl

theorem call_givenUpBus : ∃ s log,
    patientDevice.call (.read 0x1004) givenUpBus = ⟨.ok (0x1000 : UInt32), s, log⟩ :=
  ⟨_, LateBus.call_of_first (c := .read 0x1004) (b := givenUpBus) (by decide) rfl rfl rfl
    (accept_addressAnswers 0 0x1000 0x1004)⟩

theorem call_promptBus : ∃ log,
    patientDevice.call (.read 0x1000) promptBus = ⟨.ok (0x1000 : UInt32), servedBus, log⟩ :=
  LateBus.call_of_first (c := .read 0x1000) (b := promptBus) (by decide) rfl rfl rfl
    (accept_addressAnswers 0 0x1000 0x1000)

theorem call_servedBus : ∃ s log,
    patientDevice.call (.read 0x1004) servedBus = ⟨.ok (0x1004 : UInt32), s, log⟩ :=
  ⟨_, LateBus.call_of_first (c := .read 0x1004) (b := servedBus) (by decide) rfl rfl rfl
    (accept_addressAnswers 1 0x1004 0x1004)⟩

/-- Behind a read that was given up, the next one is answered with the late answer of the first; on
a prompt bus it is answered with its own. -/
theorem reply_of_first_late_and_prompt :
    let t := LateBus.transport patientNode addressAnswers
    (∃ own taken, RepliedFrom t LateBus.view patientNode (.read 0x1004) givenUpBus
      (0x1000 : UInt32) own taken ∧ taken ∈ LateBus.view.found givenUpBus) ∧
    ∃ own, RepliedFrom t LateBus.view patientNode (.read 0x1004) servedBus
      (0x1004 : UInt32) own own := by
  intro t
  have lawful := LateBus.answersInOrder patientNode addressAnswers (by decide)
  constructor
  · -- the answer to the read that was given up is still to come
    obtain ⟨_, given_up⟩ := call_lateBus
    obtain ⟨_, _, replied⟩ := call_givenUpBus
    have session := (Device.session_cons [] given_up).1
    have late : ¬ ∀ a ∈ LateBus.view.found givenUpBus,
        patientNode.takes (.read 0x1004) a.frame = false := by
      decide
    obtain ⟨own, taken, origin, own_iff, found, -⟩ := reply_of_first t LateBus.view patientNode
      lawful lateBus nofun [.read 0x1000] (.read 0x1004) nofun (0x1000 : UInt32)
      (by rw [session]; exact congrArg Outcome.result replied)
    rw [session] at origin own_iff found
    exact ⟨own, taken, origin, found fun same => late (own_iff.mp same)⟩
  · obtain ⟨_, served⟩ := call_promptBus
    obtain ⟨_, _, replied⟩ := call_servedBus
    obtain ⟨session, states⟩ := Device.session_cons [] served
    obtain ⟨own, taken, origin, -, -, in_step⟩ := reply_of_first t LateBus.view patientNode
      lawful promptBus nofun [.read 0x1000] (.read 0x1004) nofun (0x1004 : UInt32)
      (by rw [session]; exact congrArg Outcome.result replied)
    rw [session] at origin in_step
    rw [states] at in_step
    obtain rfl : taken = own := by
      refine in_step nofun ?_ ?_
      · exact List.forall_mem_cons.mpr ⟨nofun, List.forall_mem_singleton.mpr nofun⟩
      · intro call hcall _
        rw [List.mem_singleton.mp hcall]
        exact ⟨_, rfl⟩
    exact ⟨taken, origin⟩

/-- The second read is answered with what the first one asked for, not with the answer to its own
request. -/
theorem late_answer_taken :
    let t := LateBus.transport patientNode addressAnswers
    AnswersInOrder t LateBus.view patientNode ∧ LateBus.view.Dated lateBus ∧
      ((patientNode.device t).session [.read 0x1000, .read 0x1004] lateBus).1
        = [⟨.read 0x1000, .error (.noResponse 5)⟩, ⟨.read 0x1004, .ok (0x1000 : UInt32)⟩] ∧
      ∀ f, patientNode.frame (.read 0x1004) = .ok f →
        (LateBus.answer patientNode addressAnswers 1 f).map Frame.bytes
          = some (LittleEndian.bytes 0x1004) := by
  refine ⟨LateBus.answersInOrder patientNode addressAnswers (by decide), nofun, ?_, ?_⟩
  · obtain ⟨_, given_up⟩ := call_lateBus
    obtain ⟨_, _, replied⟩ := call_givenUpBus
    have first := (Device.session_cons [.read 0x1004] given_up).1
    have second := (Device.session_cons [] replied).1
    rw [second] at first
    exact congrArg Prod.fst first
  · intro f framed
    rw [LateBus.answer_eq (by decide) framed]
    rfl

end CanDfu
