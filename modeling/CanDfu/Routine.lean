/-
  CanDfu.Routine

  Steps that touch a state, may fail, and leave a log behind.  What was logged before a failure
  stays logged, and so does what the state had become: a failed upload has still erased what it
  erased.  `Routine` is the state, error and writer monad with that order of precedence.
-/

namespace CanDfu

/-- What a routine leaves behind: a result or a failure, the final state, and the log. -/
structure Outcome (ω σ ε α : Type) where
  result : Except ε α
  state : σ
  log : List ω

/-- A step from a state to its outcome. -/
def Routine (ω σ ε α : Type) : Type :=
  σ → Outcome ω σ ε α

namespace Routine

variable {ω ω' σ τ ε ε' α β : Type}

/-- Two logs, one after the other.  Nothing is copied when there is nothing to add. -/
def joined (log more : List ω) : List ω :=
  if more.isEmpty then log else log ++ more

@[simp] theorem joined_eq (log more : List ω) : joined log more = log ++ more := by
  unfold joined
  split
  · next h => rw [List.isEmpty_iff.mp h, List.append_nil]
  · rfl

/-- Succeeds at once. -/
@[inline] protected def pure (a : α) : Routine ω σ ε α :=
  fun s => ⟨.ok a, s, []⟩

/-- Runs `r`, then `f` on its value; a failure of `r` is the failure of both. -/
@[inline] protected def bind (r : Routine ω σ ε α) (f : α → Routine ω σ ε β) : Routine ω σ ε β :=
  fun s =>
    match r s with
    | ⟨.error e, s', log⟩ => ⟨.error e, s', log⟩
    | ⟨.ok a, s', log⟩ =>
      match f a s' with
      | ⟨result, s'', more⟩ => ⟨result, s'', joined log more⟩

instance : Monad (Routine ω σ ε) where
  pure := Routine.pure
  bind := Routine.bind

/-- Fails with `e`. -/
@[inline] def fail (e : ε) : Routine ω σ ε α :=
  fun s => ⟨.error e, s, []⟩

/-- Logs one entry. -/
@[inline] def emit (w : ω) : Routine ω σ ε Unit :=
  fun s => ⟨.ok (), s, [w]⟩

/-- The value of a computation that touches nothing, or its failure. -/
@[inline] def ofExcept (x : Except ε α) : Routine ω σ ε α :=
  fun s => ⟨x, s, []⟩

/-- Never fails: hands the failure of `r` on as a value. -/
@[inline] def attempt (r : Routine ω σ ε α) : Routine ω σ ε' (Except ε α) :=
  fun s =>
    match r s with
    | ⟨result, s', log⟩ => ⟨.ok result, s', log⟩

/-- Restates failures. -/
@[inline] def mapError (f : ε → ε') (r : Routine ω σ ε α) : Routine ω σ ε' α :=
  fun s =>
    match r s with
    | ⟨result, s', log⟩ => ⟨result.mapError f, s', log⟩

/-- Restates log entries. -/
@[inline] def mapLog (f : ω → ω') (r : Routine ω σ ε α) : Routine ω' σ ε α :=
  fun s =>
    match r s with
    | ⟨result, s', log⟩ => ⟨result, s', log.map f⟩

/-- Runs a routine of a part of the state. -/
@[inline] def zoom (get : τ → σ) (set : σ → τ → τ) (r : Routine ω σ ε α) : Routine ω τ ε α :=
  fun s =>
    match r (get s) with
    | ⟨result, s', log⟩ => ⟨result, set s' s, log⟩

/-- The state as it is now. -/
@[inline] def get : Routine ω σ ε σ :=
  fun s => ⟨.ok s, s, []⟩

/-- Changes the state. -/
@[inline] def modify (f : σ → σ) : Routine ω σ ε Unit :=
  fun s => ⟨.ok (), f s, []⟩

/-! ## What running a step leaves behind -/

@[simp] theorem pure_apply (a : α) (s : σ) :
    (pure a : Routine ω σ ε α) s = ⟨.ok a, s, []⟩ := rfl

@[simp] theorem fail_apply (e : ε) (s : σ) :
    (fail e : Routine ω σ ε α) s = ⟨.error e, s, []⟩ := rfl

@[simp] theorem emit_apply (w : ω) (s : σ) :
    (emit w : Routine ω σ ε Unit) s = ⟨.ok (), s, [w]⟩ := rfl

@[simp] theorem ofExcept_apply (x : Except ε α) (s : σ) :
    (ofExcept x : Routine ω σ ε α) s = ⟨x, s, []⟩ := rfl

/-- Restating failures leaves a success as it is. -/
theorem mapError_of_ok {r : Routine ω σ ε α} {s s' : σ} {a : α} {log : List ω}
    (h : r s = ⟨.ok a, s', log⟩) (f : ε → ε') : r.mapError f s = ⟨.ok a, s', log⟩ := by
  rw [mapError, h]
  rfl

theorem mapError_of_error {r : Routine ω σ ε α} {s s' : σ} {e : ε} {log : List ω}
    (h : r s = ⟨.error e, s', log⟩) (f : ε → ε') : r.mapError f s = ⟨.error (f e), s', log⟩ := by
  rw [mapError, h]
  rfl

/-- After a failure nothing more is run. -/
theorem bind_of_error {r : Routine ω σ ε α} {s s' : σ} {e : ε} {log : List ω}
    (h : r s = ⟨.error e, s', log⟩) (f : α → Routine ω σ ε β) :
    (r >>= f) s = ⟨.error e, s', log⟩ := by
  show Routine.bind r f s = _
  rw [Routine.bind, h]

/-- After a success the rest runs from the state that was left, and its log follows. -/
theorem bind_of_ok {r : Routine ω σ ε α} {s s' : σ} {a : α} {log : List ω}
    (h : r s = ⟨.ok a, s', log⟩) (f : α → Routine ω σ ε β) :
    (r >>= f) s = ⟨(f a s').result, (f a s').state, log ++ (f a s').log⟩ := by
  show Routine.bind r f s = _
  rw [Routine.bind, h]
  simp

/-- A routine that reads the state goes on with it, from it. -/
theorem get_bind_apply (f : σ → Routine ω σ ε β) (s : σ) : (get >>= f) s = f s s :=
  bind_of_ok (r := get) rfl f

/-- A routine and its rest succeed only if both do. -/
theorem exists_of_bind_eq_ok {r : Routine ω σ ε α} {f : α → Routine ω σ ε β} {s : σ} {b : β}
    (h : ((r >>= f) s).result = .ok b) :
    ∃ a s', (r s).result = .ok a ∧ (f a s').result = .ok b := by
  cases run : r s with
  | mk outcome s' log =>
    cases outcome with
    | error e =>
      rw [bind_of_error run] at h
      cases h
    | ok a =>
      rw [bind_of_ok run] at h
      exact ⟨a, s', rfl, h⟩

end Routine

end CanDfu
