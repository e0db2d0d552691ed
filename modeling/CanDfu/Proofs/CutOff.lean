/-
  CanDfu.Proofs.CutOff

  Buses without end.  A transport holds finitely many frames at any time; on a live bus there is
  always one more.  So a live bus is cut off: it lasts for some receives, and then breaks down.
  Every result about any transport holds of a bus that is cut off.  The cut is not seen:

    * `Steady` : a routine that leaves some receives over does the same with more of them.
    * `Ending` : besides, it leaves some over, if there are enough of them to begin with.
    * `Routine.Yields` : the one outcome that every bus shows that lasts long enough.

  Steady and ending routines are both compositional (`steadiness`, `finiteness`), so it takes no
  more than a look at single receives and at waits to know this of sessions and whole runs.
-/
import CanDfu.Proofs.Compositional

namespace CanDfu

variable {τ σ σ' ω ω' ε ε' α β : Type}

/-! ## Being cut off -/

/-- A state that lasts for so many more receives. -/
structure Lasting (τ : Type) where
  state : τ
  left : Nat

/-- With so many more left. -/
def Lasting.more (k : Nat) (s : Lasting τ) : Lasting τ := { s with left := s.left + k }

namespace Place

variable {p : Place (Lasting τ) σ}

/-- What is left in a place. -/
def left (p : Place (Lasting τ) σ) (s : σ) : Nat := (p.host s).left

/-- With so many more left in a place. -/
def more (p : Place (Lasting τ) σ) (k : Nat) (s : σ) : σ := p.setHost ((p.host s).more k) s

@[simp] theorem left_more (k : Nat) (s : σ) : p.left (p.more k s) = p.left s + k := by
  rw [left, more, p.host_setHost]
  rfl

theorem more_more (j k : Nat) (s : σ) : p.more k (p.more j s) = p.more (j + k) s := by
  have sum : ((p.host s).more j).more k = (p.host s).more (j + k) :=
    congrArg (Lasting.mk _) (Nat.add_assoc ..)
  rw [more, more, p.host_setHost, p.setHost_setHost, sum, ← more]

end Place

/-- From a state a routine uses up what it uses up, and if it leaves anything over, it does the
same with more. -/
structure SteadyAt (p : Place (Lasting τ) σ) (r : Routine ω σ ε α) (s : σ) : Prop where
  used : p.left (r s).state ≤ p.left s
  same : 0 < p.left (r s).state →
    ∀ k, r (p.more k s) = ⟨(r s).result, p.more k (r s).state, (r s).log⟩

/-- From any state. -/
def Steady (p : Place (Lasting τ) σ) (r : Routine ω σ ε α) : Prop := ∀ s, SteadyAt p r s

/-- From a state a routine leaves something over, if there is enough. -/
def EndsAt (p : Place (Lasting τ) σ) (r : Routine ω σ ε α) (s : σ) : Prop :=
  ∃ k, 0 < p.left (r (p.more k s)).state

/-- A steady routine that leaves something over from any state, if there is enough. -/
structure Ending (p : Place (Lasting τ) σ) (r : Routine ω σ ε α) : Prop where
  steady : Steady p r
  ends : ∀ s, EndsAt p r s

/-! ## Routines one after another -/

section

variable {p : Place (Lasting τ) σ} {r : Routine ω σ ε α} {f : α → Routine ω σ ε β} {s : σ}

theorem Steady.ofExcept (x : Except ε α) : Steady p (Routine.ofExcept x : Routine ω σ ε α) :=
  fun _ => ⟨Nat.le_refl _, fun _ _ => rfl⟩

theorem Steady.emit (w : ω) : Steady p (Routine.emit w : Routine ω σ ε Unit) :=
  fun _ => ⟨Nat.le_refl _, fun _ _ => rfl⟩

theorem Ending.ofExcept (x : Except ε α) : Ending p (Routine.ofExcept x : Routine ω σ ε α) :=
  ⟨.ofExcept x, fun s => ⟨1, by simp⟩⟩

theorem Ending.emit (w : ω) : Ending p (Routine.emit w : Routine ω σ ε Unit) :=
  ⟨.emit w, fun s => ⟨1, by simp⟩⟩

theorem SteadyAt.bind (first : SteadyAt p r s)
    (second : ∀ a, (r s).result = .ok a → SteadyAt p (f a) (r s).state) :
    SteadyAt p (r >>= f) s := by
  obtain ⟨used, same⟩ := first
  cases run : r s with
  | mk result s' log =>
    rw [run] at used same second
    cases result with
    | error e =>
      have whole := Routine.bind_of_error run f
      constructor
      · rw [whole]
        exact used
      · rw [whole]
        intro spare k
        exact Routine.bind_of_error (same spare k) f
    | ok a =>
      obtain ⟨used', same'⟩ := second a rfl
      have whole := Routine.bind_of_ok run f
      constructor
      · rw [whole]
        exact Nat.le_trans used' used
      · rw [whole]
        intro spare k
        have again := same (Nat.lt_of_lt_of_le spare used') k
        rw [Routine.bind_of_ok again, same' spare k]

/-- What the second routine needs is there if it is added to what the first one needs. -/
theorem EndsAt.bind (steady : Steady p r) (first : EndsAt p r s)
    (second : ∀ k a, (r (p.more k s)).result = .ok a → EndsAt p (f a) (r (p.more k s)).state) :
    EndsAt p (r >>= f) s := by
  obtain ⟨k, spare⟩ := first
  have same := (steady (p.more k s)).same spare
  specialize second k
  cases run : r (p.more k s) with
  | mk result s' log =>
    rw [run] at spare same second
    cases result with
    | error e =>
      refine ⟨k, ?_⟩
      rw [Routine.bind_of_error run]
      exact spare
    | ok a =>
      obtain ⟨j, spare'⟩ := second a rfl
      have again := same j
      rw [p.more_more] at again
      refine ⟨k + j, ?_⟩
      rw [Routine.bind_of_ok again]
      exact spare'

/-- A routine that reads the state, but not how much is left of it. -/
theorem Steady.get_bind {f : σ → Routine ω σ ε β} (blind : ∀ k s, f (p.more k s) = f s)
    (rest : ∀ s, Steady p (f s)) : Steady p (Routine.get >>= f) := by
  intro s
  obtain ⟨used, same⟩ := rest s s
  constructor
  · rw [Routine.get_bind_apply]
    exact used
  · intro spare k
    rw [Routine.get_bind_apply] at spare ⊢
    rw [Routine.get_bind_apply, ← same spare k, blind]

theorem Ending.get_bind {f : σ → Routine ω σ ε β} (blind : ∀ k s, f (p.more k s) = f s)
    (rest : ∀ s, Ending p (f s)) : Ending p (Routine.get >>= f) := by
  refine ⟨.get_bind blind fun s => (rest s).steady, fun s => ?_⟩
  obtain ⟨k, spare⟩ := (rest s).ends s
  refine ⟨k, ?_⟩
  rw [Routine.get_bind_apply, blind]
  exact spare

end

/-! ## Properties of routines -/

section

variable {L : Layer (Lasting τ) σ ω} {L' : Layer (Lasting τ) σ' ω} {get : σ' → σ}
  {set : σ → σ' → σ'} (part : L'.Part L get set)
include part

theorem Layer.Part.left_set (t : σ) (s : σ') : L'.left (set t s) = L.left t :=
  congrArg Lasting.left (part.host_set t s)

theorem Layer.Part.get_more (k : Nat) (s : σ') : get (L'.more k s) = L.more k (get s) := by
  rw [Place.more, part.get_setHost, part.host_get]
  rfl

theorem Layer.Part.set_more (k : Nat) (t : σ) (s : σ') :
    set (L.more k t) (L'.more k s) = L'.more k (set t s) := by
  rw [Place.more, Place.more, part.set_setHost, ← part.host_set t s]
  rfl

end

section

variable {p : Place (Lasting τ) σ} {r : Routine ω σ ε α} {r' : Routine ω' σ ε' β}
  (g : Except ε α → Except ε' β) (l : List ω → List ω')
  (restated : ∀ s, r' s = ⟨g (r s).result, (r s).state, l (r s).log⟩)
include restated

/-- A routine that states its result and its log in another way. -/
theorem Steady.restate (steady : Steady p r) : Steady p r' := by
  intro s
  obtain ⟨used, same⟩ := steady s
  constructor
  · rw [restated]
    exact used
  · rw [restated]
    intro spare k
    rw [restated, same spare k]

theorem Ending.restate (ending : Ending p r) : Ending p r' := by
  refine ⟨ending.steady.restate g l restated, fun s => ?_⟩
  obtain ⟨k, spare⟩ := ending.ends s
  refine ⟨k, ?_⟩
  rw [restated]
  exact spare

end

theorem Steady.attempt {p : Place (Lasting τ) σ} {r : Routine ω σ ε α} (steady : Steady p r) :
    Steady p (r.attempt : Routine ω σ ε' (Except ε α)) :=
  steady.restate .ok id fun _ => rfl

theorem Ending.attempt {p : Place (Lasting τ) σ} {r : Routine ω σ ε α} (ending : Ending p r) :
    Ending p (r.attempt : Routine ω σ ε' (Except ε α)) :=
  ending.restate .ok id fun _ => rfl

/-- What is left over at the end does not matter. -/
def steadiness (τ : Type) : Compositional (Lasting τ) where
  Holds L r := Steady L.toPlace r
  ofExcept := .ofExcept
  emit _ := .emit _
  bind first second s := (first s).bind fun a _ => second a _
  get_bind blind rest := .get_bind (fun _ _ => blind _ _) rest
  modify {σ ω ε L f} still commutes s := by
    have left : L.left (f s) = L.left s := congrArg Lasting.left (still s)
    refine ⟨Nat.le_of_eq left, fun _ k => ?_⟩
    show Outcome.mk (Except.ok ()) (f (L.more k s)) [] = ⟨.ok (), L.more k (f s), []⟩
    rw [Place.more, Place.more, commutes, still]
  attempt := .attempt
  mapError steady f := steady.restate (Except.mapError f) id fun _ => rfl
  mapLog steady place _ := place ▸ steady.restate id (List.map _) fun _ => rfl
  zoom {σ σ' ω ε α L L' get set r} steady part s := by
    obtain ⟨used, same⟩ := steady (get s)
    have before : L'.left s = L.left (get s) := congrArg Lasting.left (part.host_get s)
    have after : L'.left (set (r (get s)).state s) = L.left (r (get s)).state := part.left_set _ _
    constructor
    · show L'.left (set (r (get s)).state s) ≤ _
      rw [after, before]
      exact used
    · intro spare k
      have again := same (after ▸ spare) k
      rw [← part.get_more] at again
      show Outcome.mk (r (get (L'.more k s))).result
        (set (r (get (L'.more k s))).state (L'.more k s)) (r (get (L'.more k s))).log = _
      rw [again, part.set_more]
      rfl

/-- Something is left over at the end, if there is enough. -/
def finiteness (τ : Type) : Compositional (Lasting τ) where
  Holds L r := Ending L.toPlace r
  ofExcept := .ofExcept
  emit _ := .emit _
  bind first second :=
    ⟨(steadiness τ).bind first.steady fun a => (second a).steady,
      fun s => (first.ends s).bind first.steady fun _ a _ => (second a).ends _⟩
  get_bind blind rest := .get_bind (fun _ _ => blind _ _) rest
  modify {σ ω ε L f} still commutes := by
    refine ⟨(steadiness τ).modify still commutes, fun s => ⟨1, ?_⟩⟩
    have left : L.left (f (L.more 1 s)) = L.left (L.more 1 s) := congrArg Lasting.left (still _)
    show 0 < L.left (f (L.more 1 s))
    rw [left, Place.left_more]
    exact Nat.succ_pos _
  attempt := .attempt
  mapError ending f := ending.restate (Except.mapError f) id fun _ => rfl
  mapLog ending place _ := place ▸ ending.restate id (List.map _) fun _ => rfl
  zoom {σ σ' ω ε α L L' get set r} ending part := by
    refine ⟨(steadiness τ).zoom ending.steady part, fun s => ?_⟩
    obtain ⟨k, spare⟩ := ending.ends (get s)
    refine ⟨k, ?_⟩
    show 0 < L'.left (set (r (get (L'.more k s))).state (L'.more k s))
    rw [part.get_more, part.left_set]
    exact spare

/-! ## Steps on a bus that is cut off -/

/-- A step that takes nothing off what is left. -/
def Routine.kept (r : Routine ω τ ε α) : Routine ω (Lasting τ) ε α :=
  fun s => ⟨(r s.state).result, { s with state := (r s.state).state }, (r s.state).log⟩

/-- A step that takes one off what is left, and breaks down if there is nothing left. -/
def Routine.counted (down : ε) (log : List ω) (r : Routine ω τ ε α) :
    Routine ω (Lasting τ) ε α :=
  fun s =>
    if s.left = 0 then ⟨.error down, s, log⟩
    else ⟨(r s.state).result, ⟨(r s.state).state, s.left - 1⟩, (r s.state).log⟩

theorem Routine.counted_of_none {s : Lasting τ} (nothing : s.left = 0) (down : ε) (log : List ω)
    (r : Routine ω τ ε α) : r.counted down log s = ⟨.error down, s, log⟩ :=
  if_pos nothing

theorem Routine.counted_of_left {s : Lasting τ} (some_left : s.left ≠ 0) (down : ε)
    (log : List ω) (r : Routine ω τ ε α) : r.counted down log s
      = ⟨(r s.state).result, ⟨(r s.state).state, s.left - 1⟩, (r s.state).log⟩ :=
  if_neg some_left

theorem Ending.kept (r : Routine ω τ ε α) : Ending .whole r.kept where
  steady _ := ⟨Nat.le_refl _, fun _ _ => rfl⟩
  ends _ := ⟨1, Nat.succ_pos _⟩

theorem Ending.counted (down : ε) (log : List ω) (r : Routine ω τ ε α) :
    Ending .whole (r.counted down log) where
  steady s := by
    by_cases nothing : s.left = 0
    · have fails := Routine.counted_of_none nothing down log r
      constructor
      · exact Nat.le_of_eq (congrArg (fun o => o.state.left) fails)
      · rw [fails]
        intro spare
        exact absurd nothing (Nat.ne_of_gt spare)
    · constructor
      · rw [Routine.counted_of_left nothing]
        exact Nat.sub_le _ _
      · intro _ k
        have more_left : (Place.whole.more k s).left ≠ 0 := by
          show s.left + k ≠ 0
          omega
        have rest : s.left + k - 1 = s.left - 1 + k := by omega
        rw [Routine.counted_of_left nothing, Routine.counted_of_left more_left]
        exact congrArg (fun left => Outcome.mk (r s.state).result
          (Lasting.mk (r s.state).state left) (r s.state).log) rest
  ends s := by
    refine ⟨2, ?_⟩
    have some_left : (Place.whole.more 2 s).left ≠ 0 := Nat.succ_ne_zero _
    rw [Routine.counted_of_left some_left]
    exact Nat.succ_pos s.left

/-! ## Outcomes on a live bus -/

/-- What a routine leaves behind on a live bus: what it does on every bus that lasts long enough. -/
def Routine.Yields (r : Routine ω (Lasting τ) ε α) (s : τ) (o : Outcome ω τ ε α) : Prop :=
  ∃ n left, ∀ k, r ⟨s, n + k⟩ = ⟨o.result, ⟨o.state, left + k⟩, o.log⟩

section

variable {r : Routine ω (Lasting τ) ε α} {s : τ} {o o' : Outcome ω τ ε α}

theorem Routine.Yields.unique (yields : r.Yields s o) (yields' : r.Yields s o') : o' = o := by
  obtain ⟨n, left, same⟩ := yields
  obtain ⟨n', left', same'⟩ := yields'
  -- both are seen on a bus that lasts long enough for each
  have both : (⟨o'.result, ⟨o'.state, left' + n⟩, o'.log⟩ : Outcome ω (Lasting τ) ε α)
      = ⟨o.result, ⟨o.state, left + n'⟩, o.log⟩ := by
    rw [← same, ← same', Nat.add_comm]
  obtain ⟨result, state, log⟩ := o
  obtain ⟨result', state', log'⟩ := o'
  injection both with sameResult sameState sameLog
  injection sameState with sameState
  subst sameResult sameState sameLog
  rfl

/-- What leaves something over shows the outcome. -/
theorem Steady.yields {n : Nat} (steady : Steady .whole r) (spare : 0 < (r ⟨s, n⟩).state.left) :
    r.Yields s ⟨(r ⟨s, n⟩).result, (r ⟨s, n⟩).state.state, (r ⟨s, n⟩).log⟩ :=
  ⟨n, (r ⟨s, n⟩).state.left, fun k => (steady ⟨s, n⟩).same spare k⟩

/-- There is one outcome. -/
theorem Ending.exists_yields (ending : Ending .whole r) (s : τ) :
    ∃ o, r.Yields s o ∧ ∀ o', r.Yields s o' → o' = o := by
  obtain ⟨k, spare⟩ := ending.ends ⟨s, 0⟩
  have yields := ending.steady.yields spare
  exact ⟨_, yields, fun _ => yields.unique⟩

end

end CanDfu
