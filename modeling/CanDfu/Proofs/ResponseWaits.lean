/-
  CanDfu.Proofs.ResponseWaits

  How a wait for an answer ends.  A wait sees a stream of receives, each with the time it was
  started and what came of it; the first one that is not passed over settles it.

    timeout                             no response
    other failure                       that failure
    awaited data frame, long enough     its first bytes
    awaited data frame, too short       unexpected response
    other frame, deadline not reached   passed over
    other frame, deadline reached       no response

  `PassesOver` is the one row on which the wait goes on, `Settles` are the others.  The stream may
  never end (`Traffic`): what ends the wait on a busy bus is the clock.

  Any length of time can be waited for.  The milliseconds of a missing response are cut off to 64
  bits, and a deadline that the clock cannot tell is fatal before anything is received.
-/
import CanDfu.Proofs.SentFrames
import CanDfu.Transport.Scripted

namespace CanDfu

variable {τ : Type}

/-! ## One receive -/

/-- A receive of a wait: when it was started, and what came of it. -/
structure Reception where
  started : Nat
  result : Except TransportError Frame

namespace Awaited

variable {a : Awaited} {patience deadline : Nat} {r : Reception}
  {x y : Except SessionError (List UInt8)}

/-- A data frame with the awaited identifier, of the awaited width. -/
structure Matches (a : Awaited) (f : Frame) : Prop where
  id : f.id = a.id
  width : f.extended = a.extended
  data : f.isRemote = false

theorem isAnswer_iff_matches {f : Frame} : a.isAnswer f = true ↔ a.Matches f := by
  simp only [isAnswer, Bool.and_eq_true, decide_eq_true_eq, Bool.not_eq_true']
  constructor
  · rintro ⟨⟨id, width⟩, data⟩
    exact ⟨id, width, data⟩
  · rintro ⟨id, width, data⟩
    exact ⟨⟨id, width⟩, data⟩

/-- A frame that is not awaited, from a receive that was started before the deadline. -/
structure PassesOver (a : Awaited) (deadline : Nat) (r : Reception) : Prop where
  early : r.started < deadline
  unrelated : ∃ f, r.result = .ok f ∧ ¬ a.Matches f

/-- The receives that settle a wait, and its result. -/
inductive Settles (a : Awaited) (patience deadline : Nat) :
    Reception → Except SessionError (List UInt8) → Prop
  | silence {started : Nat} {millis : UInt64} : Settles a patience deadline
      ⟨started, .error (.timeout millis)⟩ (.error (.noResponse (wholeMillis patience)))
  | failure {started : Nat} {e : TransportError} (other : ∀ millis, e ≠ .timeout millis) :
      Settles a patience deadline ⟨started, .error e⟩ (.error (.transport e))
  | answer {started : Nat} {f : Frame} (awaited : a.Matches f)
      (enough : a.size ≤ f.bytes.length) :
      Settles a patience deadline ⟨started, .ok f⟩ (.ok (f.bytes.take a.size))
  | short {started : Nat} {f : Frame} (awaited : a.Matches f) (short : f.bytes.length < a.size) :
      Settles a patience deadline ⟨started, .ok f⟩
        (.error (.unexpectedResponse a.command f.bytes.length a.size))
  | late {started : Nat} {f : Frame} (unrelated : ¬ a.Matches f) (reached : deadline ≤ started) :
      Settles a patience deadline ⟨started, .ok f⟩
        (.error (.noResponse (wholeMillis patience)))

/-- The result is decided by the receive alone. -/
theorem Settles.unique (h : a.Settles patience deadline r x)
    (h' : a.Settles patience deadline r y) : y = x := by
  cases h with
  | silence =>
    cases h' with
    | silence => rfl
    | failure other => exact absurd rfl (other _)
  | failure other =>
    cases h' with
    | silence => exact absurd rfl (other _)
    | failure => rfl
  | answer awaited enough =>
    cases h' with
    | answer => rfl
    | short _ short => exact absurd enough (Nat.not_le_of_lt short)
    | late unrelated => exact absurd awaited unrelated
  | short awaited short =>
    cases h' with
    | answer _ enough => exact absurd enough (Nat.not_le_of_lt short)
    | short => rfl
    | late unrelated => exact absurd awaited unrelated
  | late unrelated =>
    cases h' with
    | answer awaited => exact absurd awaited unrelated
    | short awaited => exact absurd awaited unrelated
    | late => rfl

theorem Settles.not_passesOver (h : a.Settles patience deadline r x) :
    ¬ a.PassesOver deadline r := by
  rintro ⟨early, f, received, unrelated⟩
  cases h with
  | silence => cases received
  | failure => cases received
  | answer awaited =>
    cases received
    exact unrelated awaited
  | short awaited =>
    cases received
    exact unrelated awaited
  | late _ reached => exact Nat.not_le_of_lt early reached

/-- What is not passed over settles the wait. -/
theorem exists_settles (a : Awaited) (patience : Nat) (h : ¬ a.PassesOver deadline r) :
    ∃ x, a.Settles patience deadline r x := by
  obtain ⟨started, e | f⟩ := r
  · by_cases timeout : ∃ millis, e = .timeout millis
    · obtain ⟨millis, rfl⟩ := timeout
      exact ⟨_, .silence⟩
    · exact ⟨_, .failure fun millis same => timeout ⟨millis, same⟩⟩
  · by_cases awaited : a.Matches f
    · by_cases short : f.bytes.length < a.size
      · exact ⟨_, .short awaited short⟩
      · exact ⟨_, .answer awaited (Nat.le_of_not_lt short)⟩
    · exact ⟨_, .late awaited (Nat.le_of_not_lt fun early => h ⟨early, f, rfl, awaited⟩)⟩

end Awaited

/-! ## The receives of a wait -/

namespace Transport

/-- The receive that a wait begins with, from some state on. -/
def reception (t : Transport τ) (deadline : Nat) (s : τ) : Reception :=
  ⟨(t.clock s).1, (t.receive (deadline - (t.clock s).1) (t.clock s).2).result⟩

/-- The state that this receive leaves. -/
def received (t : Transport τ) (deadline : Nat) (s : τ) : τ :=
  (t.receive (deadline - (t.clock s).1) (t.clock s).2).state

/-- The state after some receives, whatever came of them. -/
def afterReceives (t : Transport τ) (deadline : Nat) : Nat → τ → τ
  | 0, s => s
  | k + 1, s => t.afterReceives deadline k (t.received deadline s)

/-- The stream of receives that a wait sees, for as long as it goes on. -/
def stream (t : Transport τ) (deadline : Nat) (s : τ) (k : Nat) : Reception :=
  t.reception deadline (t.afterReceives deadline k s)

/-- Watching changes nothing of the stream, and notes one receive for each element. -/
theorem afterReceives_watched (t : Transport τ) (deadline k : Nat) (w : Watched τ) :
    t.watched.afterReceives deadline k w = ⟨t.afterReceives deadline k w.state,
      w.uses ++ (List.range k).map
        fun i => .receive (deadline - (t.stream deadline w.state i).started)⟩ := by
  induction k generalizing w with
  | zero => simp [afterReceives]
  | succ k ih =>
    have first : t.watched.received deadline w = ⟨t.received deadline w.state,
        w.uses ++ [.receive (deadline - (t.clock w.state).1)]⟩ := rfl
    rw [afterReceives, first, ih, List.range_succ_eq_map, List.map_cons, List.map_map,
      List.append_assoc]
    rfl

theorem stream_watched (t : Transport τ) (deadline k : Nat) (w : Watched τ) :
    t.watched.stream deadline w k = t.stream deadline w.state k := by
  rw [stream, afterReceives_watched]
  rfl

end Transport

namespace Awaited

variable {t : Transport τ} {a : Awaited} {patience deadline : Nat} {s : τ}
  {x : Except SessionError (List UInt8)}

/-- A wait whose first receive settles it ends there. -/
theorem receive_of_settles (h : a.Settles patience deadline (t.reception deadline s) x) :
    (a.receive t patience deadline s).result = x ∧
      (a.receive t patience deadline s).state = t.received deadline s := by
  have whole := receive_eq t a patience deadline s
  rw [Transport.reception] at h
  rw [Transport.received]
  generalize t.receive (deadline - (t.clock s).1) (t.clock s).2 = o at h whole ⊢
  generalize (t.clock s).1 = started at h whole
  obtain ⟨result, s', log⟩ := o
  cases h with
  | silence =>
    rw [whole]
    exact ⟨rfl, rfl⟩
  | @failure _ e other =>
    rw [whole]
    cases e with
    | timeout millis => exact absurd rfl (other millis)
    | _ => exact ⟨rfl, rfl⟩
  | answer awaited enough =>
    simp only [if_pos (isAnswer_iff_matches.mpr awaited), accept,
      if_neg (Nat.not_lt.mpr enough)] at whole
    rw [whole]
    exact ⟨rfl, rfl⟩
  | short awaited short =>
    simp only [if_pos (isAnswer_iff_matches.mpr awaited), accept, if_pos short] at whole
    rw [whole]
    exact ⟨rfl, rfl⟩
  | late unrelated reached =>
    simp only [if_neg (mt isAnswer_iff_matches.mp unrelated),
      if_pos (Nat.sub_eq_zero_of_le reached)] at whole
    rw [whole]
    exact ⟨rfl, rfl⟩

/-- A wait goes on behind what it passes over, and less can still be received then. -/
theorem receive_of_passesOver (patience : Nat)
    (h : a.PassesOver deadline (t.reception deadline s)) :
    (a.receive t patience deadline s).result
        = (a.receive t patience deadline (t.received deadline s)).result ∧
      (a.receive t patience deadline s).state
        = (a.receive t patience deadline (t.received deadline s)).state ∧
      t.backlog (t.received deadline s) < t.backlog s := by
  obtain ⟨early, f, received, unrelated⟩ := h
  have whole := receive_eq t a patience deadline s
  have fewer := t.backlog_receive (deadline - (t.clock s).1) (t.clock s).2 f received
  have time_left : ¬ deadline - (t.clock s).1 = 0 := Nat.sub_ne_zero_of_lt early
  rw [Transport.reception] at received
  rw [Transport.received]
  generalize t.receive (deadline - (t.clock s).1) (t.clock s).2 = o at received whole fewer ⊢
  obtain ⟨result, s', log⟩ := o
  obtain rfl : result = .ok f := received
  simp only [if_neg (mt isAnswer_iff_matches.mp unrelated), if_neg time_left] at whole
  rw [whole]
  exact ⟨rfl, rfl, Nat.lt_of_lt_of_le fewer (t.backlog_clock s)⟩

/-- The element of a stream of receives that settles a wait, behind those that are passed over. -/
structure FirstSettled (a : Awaited) (patience deadline : Nat) (stream : Nat → Reception)
    (k : Nat) (x : Except SessionError (List UInt8)) : Prop where
  passed : ∀ i < k, a.PassesOver deadline (stream i)
  settled : a.Settles patience deadline (stream k) x

/-- Only the stream up to that element matters. -/
theorem FirstSettled.congr {stream other : Nat → Reception} {k : Nat}
    (h : a.FirstSettled patience deadline stream k x) (same : ∀ i ≤ k, other i = stream i) :
    a.FirstSettled patience deadline other k x where
  passed i hi := by
    rw [same i (Nat.le_of_lt hi)]
    exact h.passed i hi
  settled := by
    rw [same k (Nat.le_refl k)]
    exact h.settled

/-- A stream settles a wait with one result only. -/
theorem FirstSettled.unique {stream : Nat → Reception} {k j : Nat}
    {y : Except SessionError (List UInt8)} (h : a.FirstSettled patience deadline stream k x)
    (h' : a.FirstSettled patience deadline stream j y) : x = y := by
  rcases Nat.lt_trichotomy k j with earlier | rfl | later
  · exact absurd (h'.passed k earlier) h.settled.not_passesOver
  · exact h'.settled.unique h.settled
  · exact absurd (h.passed j later) h'.settled.not_passesOver

/-- A receive that was started when the deadline had been reached is not passed over. -/
theorem FirstSettled.le_of_reached {stream : Nat → Reception} {k j : Nat}
    (h : a.FirstSettled patience deadline stream k x) (reached : deadline ≤ (stream j).started) :
    k ≤ j :=
  Nat.le_of_not_lt fun before => Nat.not_le_of_lt (h.passed j before).early reached

/-- A wait ends with the first element of its stream that settles it, and takes nothing more. -/
theorem receive_of_firstSettled {k : Nat}
    (h : a.FirstSettled patience deadline (t.stream deadline s) k x) :
    (a.receive t patience deadline s).result = x ∧
      (a.receive t patience deadline s).state = t.afterReceives deadline (k + 1) s := by
  induction k generalizing s with
  | zero => exact receive_of_settles h.settled
  | succ k ih =>
    obtain ⟨result, state, -⟩ := receive_of_passesOver patience (h.passed 0 (Nat.succ_pos k))
    obtain ⟨result', state'⟩ := ih (s := t.received deadline s)
      ⟨fun i hi => h.passed (i + 1) (Nat.succ_lt_succ hi), h.settled⟩
    exact ⟨result.trans result', state.trans state'⟩

/-- Some element settles a wait, since only so much can be received. -/
theorem exists_firstSettled (t : Transport τ) (a : Awaited) (patience deadline : Nat) (s : τ) :
    ∃ k x, a.FirstSettled patience deadline (t.stream deadline s) k x := by
  induction held : t.backlog s using Nat.strongRecOn generalizing s with
  | ind n ih =>
    by_cases passed : a.PassesOver deadline (t.reception deadline s)
    · obtain ⟨-, -, fewer⟩ := receive_of_passesOver patience passed
      obtain ⟨k, x, first⟩ := ih _ (held ▸ fewer) (t.received deadline s) rfl
      refine ⟨k + 1, x, fun i hi => ?_, first.settled⟩
      cases i with
      | zero => exact passed
      | succ i => exact first.passed i (Nat.lt_of_succ_lt_succ hi)
    · obtain ⟨x, settled⟩ := exists_settles a patience passed
      exact ⟨0, x, fun i hi => absurd hi (Nat.not_lt_zero i), settled⟩

end Awaited

/-! ## Traffic without end -/

/-- Traffic on a bus: what each reading of the clock shows, and what comes of each receive. -/
structure Traffic where
  clock : Nat → Nat
  receives : Nat → Except TransportError Frame

namespace Traffic

/-- How much of the traffic has gone by. -/
structure Position where
  readings : Nat := 0
  received : Nat := 0
  sent : List Frame := []
  deriving DecidableEq

/-- The receives of a wait that begins with the traffic, when the clock has been read once. -/
def stream (g : Traffic) (k : Nat) : Reception := ⟨g.clock (k + 1), g.receives k⟩

/-- A transport that lasts for some receives of the traffic, and then breaks down. -/
def transport (g : Traffic) (lasts : Nat) : Transport Position where
  name := "traffic"
  send f p := ⟨.ok (), { p with sent := p.sent ++ [f] }, []⟩
  receive _ p :=
    ⟨if p.received < lasts then g.receives p.received else .error (.readFailed "broken down"),
      { p with received := p.received + 1 }, []⟩
  clock p := (g.clock p.readings, { p with readings := p.readings + 1 })
  backlog p := lasts - p.received
  backlog_receive patience p f ok := by
    dsimp only at ok ⊢
    split at ok
    · next left => omega
    · cases ok
  backlog_clock p := Nat.le_refl _

variable (g : Traffic) (lasts deadline : Nat)

theorem afterReceives (k : Nat) (p : Position) :
    (g.transport lasts).afterReceives deadline k p
      = { p with readings := p.readings + k, received := p.received + k } := by
  induction k generalizing p with
  | zero => rfl
  | succ k ih =>
    rw [Transport.afterReceives, ih]
    show Position.mk (p.readings + 1 + k) (p.received + 1 + k) p.sent = _
    simp only [Nat.add_assoc, Nat.add_comm 1]

/-- While the transport lasts, a wait sees the traffic. -/
theorem stream_transport {k : Nat} (holds : k < lasts) :
    (g.transport lasts).stream deadline { readings := 1 } k = g.stream k := by
  rw [Transport.stream, afterReceives]
  show Reception.mk (g.clock (1 + k)) (if 0 + k < lasts then g.receives (0 + k) else _) = _
  rw [Nat.zero_add, if_pos holds, Nat.add_comm]
  rfl

/-- Once a receive has been started behind the deadline, some receive up to it settles a wait,
however long the transport lasts after it. -/
theorem exists_firstSettled (a : Awaited) (patience : Nat) {n : Nat}
    (reached : deadline ≤ g.clock (n + 1)) :
    ∃ k x, k ≤ n ∧ a.FirstSettled patience deadline g.stream k x := by
  obtain ⟨k, x, first⟩ := Awaited.exists_firstSettled (g.transport (n + 1)) a patience deadline
    { readings := 1 }
  have le : k ≤ n := by
    refine first.le_of_reached (j := n) ?_
    rw [stream_transport g _ _ (Nat.lt_succ_self n)]
    exact reached
  exact ⟨k, x, le, first.congr fun i hi =>
    (stream_transport g (n + 1) deadline (Nat.lt_succ_of_le (Nat.le_trans hi le))).symm⟩

/-- The receive that settles a wait does so as long as the transport lasts that long. -/
theorem firstSettled_transport {a : Awaited} {patience k : Nat}
    {x : Except SessionError (List UInt8)}
    (first : a.FirstSettled patience deadline g.stream k x) (holds : k < lasts) :
    a.FirstSettled patience deadline
      ((g.transport lasts).stream deadline { readings := 1 }) k x :=
  first.congr fun _ hi => stream_transport g lasts deadline (Nat.lt_of_le_of_lt hi holds)

end Traffic

/-! ## Waits -/

/-- A wait for a response ends with the first receive that settles it.

Every receive is passed over or settles the wait, and then in one way; a missing response tells
the milliseconds of the wait exactly if 64 bits hold them.  On any transport, a wait uses the
transport for receives only, up to and with the first one that settles it, and has the result that
this one gives; so at most the last receive was started at the deadline or later.  A deadline that
the clock cannot tell is fatal, and nothing is received.  On traffic without end a wait is over as
soon as a receive was started at the deadline or later, whatever else may come. -/
theorem await_settled :
    (∀ (a : Awaited) (patience deadline : Nat) (r : Reception),
      (a.PassesOver deadline r ∨ ∃ x, a.Settles patience deadline r x) ∧
      (∀ x, a.Settles patience deadline r x →
        ¬ a.PassesOver deadline r ∧ ∀ y, a.Settles patience deadline r y → y = x) ∧
      (patience / nanosPerMilli < 2 ^ 64 →
        (wholeMillis patience).toNat = patience / nanosPerMilli)) ∧
    (∀ (τ : Type) (t : Transport τ) (a : Awaited) (patience : Nat) (s : τ),
      let deadline := (t.clock s).1 + patience
      let stream := t.stream deadline (t.clock s).2
      let o := Awaited.await t a patience s
      let uses := (Awaited.await t.watched a patience ⟨s, []⟩).state.uses
      (t.tells deadline = true → ∃ k, a.FirstSettled patience deadline stream k o.result ∧
        o.state = t.afterReceives deadline (k + 1) (t.clock s).2 ∧
        uses = (List.range (k + 1)).map (fun i => .receive (deadline - (stream i).started)) ∧
        ∀ i, deadline ≤ (stream i).started → k ≤ i) ∧
      (t.tells deadline = false → o = ⟨.error .fatal, (t.clock s).2, []⟩ ∧ uses = [])) ∧
    ∀ (g : Traffic) (a : Awaited) (patience n : Nat), g.clock 0 + patience ≤ g.clock (n + 1) →
      ∃ k x, k ≤ n ∧ a.FirstSettled patience (g.clock 0 + patience) g.stream k x ∧
        ∀ lasts, k < lasts →
          (Awaited.await (g.transport lasts) a patience {}).result = x ∧
          (Awaited.await (g.transport lasts) a patience {}).state = ⟨k + 2, k + 1, []⟩ := by
  refine ⟨fun a patience deadline r => ⟨?_, fun x settled => ?_, toNat_wholeMillis⟩, ?_, ?_⟩
  · by_cases passed : a.PassesOver deadline r
    · exact .inl passed
    · exact .inr (Awaited.exists_settles a patience passed)
  · exact ⟨settled.not_passesOver, fun y => settled.unique⟩
  · intro τ t a patience s deadline stream o uses
    refine ⟨fun told => ?_, fun untold => ?_⟩
    · have begun : o = a.receive t patience deadline (t.clock s).2 := Awaited.await_of_told a told
      have begun_watched : Awaited.await t.watched a patience ⟨s, []⟩
          = a.receive t.watched patience deadline ⟨(t.clock s).2, []⟩ :=
        Awaited.await_of_told a told
      obtain ⟨k, x, first⟩ := Awaited.exists_firstSettled t a patience deadline (t.clock s).2
      obtain ⟨result, state⟩ := Awaited.receive_of_firstSettled first
      have first_watched : a.FirstSettled patience deadline
          (t.watched.stream deadline ⟨(t.clock s).2, []⟩) k x :=
        first.congr fun i _ => t.stream_watched deadline i ⟨(t.clock s).2, []⟩
      obtain ⟨-, state_watched⟩ := Awaited.receive_of_firstSettled first_watched
      rw [← begun] at result state
      rw [← begun_watched, Transport.afterReceives_watched] at state_watched
      exact ⟨k, result.symm ▸ first, state, congrArg Watched.uses state_watched,
        fun i => first.le_of_reached⟩
    · have beyond : ¬ t.tells deadline = true := Bool.not_eq_true _ ▸ untold
      have not_begun : Awaited.await t.watched a patience ⟨s, []⟩
          = ⟨.error .fatal, ⟨(t.clock s).2, []⟩, []⟩ := Awaited.await_of_untold a beyond
      exact ⟨Awaited.await_of_untold a beyond, congrArg (fun o => o.state.uses) not_begun⟩
  · intro g a patience n reached
    obtain ⟨k, x, le, first⟩ := g.exists_firstSettled _ a patience reached
    refine ⟨k, x, le, first, fun lasts holds => ?_⟩
    obtain ⟨result, state⟩ :=
      Awaited.receive_of_firstSettled (g.firstSettled_transport lasts _ first holds)
    refine ⟨result, ?_⟩
    rw [Traffic.afterReceives] at state
    refine Eq.trans state ?_
    show Traffic.Position.mk (1 + (k + 1)) (0 + (k + 1)) [] = _
    rw [Nat.zero_add, Nat.add_comm 1]

/-! ## A busy bus -/

/-- A frame of another node. -/
def otherFrame : Frame := ⟨0x80, false, .data [1, 2, 3, 4] (by decide)⟩

/-- Frames of another node, one after the other without end, and a clock on which each takes three
milliseconds. -/
def busyTraffic : Traffic where
  clock n := n * 3000000
  receives _ := .ok otherFrame

/-- The answer to a read. -/
def readAwaited : Awaited := ⟨"read_flash_32", 0x41, false, 4⟩

/-- So many seconds that 64 bits do not hold their milliseconds; in nanoseconds. -/
def ages : Nat := 18446744073709552 * 1000000000

/-- An empty bench whose clock counts nanoseconds in 63 bits. -/
def shortClock : Transport Scripted :=
  { Scripted.transport with tells := (· < 0x8000000000000000) }

/-- Among the frames of another node, a wait of five milliseconds passes over the first one, and
is over with the second.  A wait of ages that hears nothing tells what 64 bits hold of its
milliseconds, and does not begin on a clock that ends before. -/
theorem await_settled_busy :
    let o := Awaited.await (busyTraffic.transport 1000) readAwaited 5000000 {}
    (o.result = .error (.noResponse 5) ∧ o.state = ⟨3, 2, []⟩ ∧
      (wholeMillis 5000000).toNat = 5000000 / nanosPerMilli) ∧
    (Awaited.await Scripted.transport readAwaited ages {}).result = .error (.noResponse 384) ∧
    Awaited.await shortClock readAwaited ages {} = ⟨.error .fatal, {}, []⟩ := by
  intro o
  refine ⟨?_, ?_, ?_⟩
  · have reached : busyTraffic.clock 0 + 5000000 ≤ busyTraffic.clock (1 + 1) := by decide
    obtain ⟨k, x, le, first, waits⟩ := await_settled.2.2 busyTraffic readAwaited 5000000 1 reached
    obtain ⟨result, state⟩ := waits 1000 (by omega)
    have other : ¬ readAwaited.Matches otherFrame := fun awaited => absurd awaited.id (by decide)
    -- the first frame is passed over, so the second settles the wait, and only by coming late
    obtain rfl : k = 1 := by
      refine Nat.le_antisymm le (Nat.pos_of_ne_zero fun zero => ?_)
      subst zero
      exact first.settled.not_passesOver ⟨by decide, otherFrame, rfl, other⟩
    have late : x = .error (.noResponse 5) :=
      (first.settled.unique (.late other (by decide))).symm
    have exact_millis := (await_settled.1 readAwaited 5000000 0 ⟨0, .ok otherFrame⟩).2.2
    exact ⟨result.trans late, state, exact_millis (by decide)⟩
  · obtain ⟨k, first, -⟩ :=
      (await_settled.2.1 Scripted Scripted.transport readAwaited ages {}).1 rfl
    have nothing (deadline : Nat) : readAwaited.FirstSettled ages deadline
        (Scripted.transport.stream deadline {}) 0 (.error (.noResponse 384)) :=
      ⟨fun i before => absurd before (Nat.not_lt_zero i), .silence⟩
    exact first.unique (nothing _)
  · have untold : shortClock.tells ((shortClock.clock {}).1 + ages) = false := by decide
    exact ((await_settled.2.1 Scripted shortClock readAwaited ages {}).2 untold).1

end CanDfu
