/-
  CanDfu.Proofs.Conformance

  Routines against a device that may answer anything.  `Conforms d r P` says that `r` leaves a
  trace described by `P`, or such a trace cut short at a call; and that the calls in its journal
  are the ones the device answered.  The rules follow the routine's own shape: one for each way
  of building it, and one for a single command.
-/
import CanDfu.Proofs.CallHistory

namespace CanDfu

/-- Every command can be answered. -/
instance (c : Command) : Inhabited c.Reply :=
  match c with
  | .read _ => ⟨(0 : UInt32)⟩
  | .scratch .. => ⟨()⟩
  | .commit .. => ⟨(0 : UInt32)⟩
  | .erase _ => ⟨(0 : UInt8)⟩
  | .reset => ⟨()⟩

variable {σ α β : Type} {d : Device σ}

/-- The outcome has a trace and a value that `P` describes, or is a failure with the trace of one
that has, cut short. -/
inductive Leaves (P : List Entry → α → Prop) : Outcome Entry σ DfuError α → Prop
  | complete {a : α} {s : σ} {log : List Entry} (h : P (trace log) a) : Leaves P ⟨.ok a, s, log⟩
  | cut {a : α} {e : DfuError} {s : σ} {full log : List Entry} (h : P full a)
      (short : Cut full e (trace log)) : Leaves P ⟨.error e, s, log⟩

/-- Whatever the device answers, the routine leaves what `P` describes, and its journal is true. -/
def Conforms (d : Device σ) (r : Routine Entry σ DfuError α) (P : List Entry → α → Prop) : Prop :=
  ∀ s, Leaves P (r s) ∧ d.Ran s (calls (r s).log) (r s).state

/-- Something can always be left. -/
theorem Leaves.exists {P : List Entry → α → Prop} {o : Outcome Entry σ DfuError α}
    (h : Leaves P o) : ∃ full a, P full a := by
  cases h with
  | complete h => exact ⟨_, _, h⟩
  | cut h _ => exact ⟨_, _, h⟩

theorem Conforms.mono {r : Routine Entry σ DfuError α} {P Q : List Entry → α → Prop}
    (h : Conforms d r P) (weaker : ∀ l a, P l a → Q l a) : Conforms d r Q := by
  intro s
  obtain ⟨left, ran⟩ := h s
  refine ⟨?_, ran⟩
  generalize r s = o at left
  cases left with
  | complete h => exact .complete (weaker _ _ h)
  | cut h short => exact .cut (weaker _ _ h) short

/-- On a device that lets no trace be cut short, the routine comes to its end. -/
theorem Conforms.complete {r : Routine Entry σ DfuError α} {P : List Entry → α → Prop} {s : σ}
    (h : Conforms d r P)
    (lasting : ∀ l a e made s', P l a → Halted (calls l) e made → ¬ d.Ran s made s') :
    ∃ l a, P l a ∧ (r s).result = .ok a ∧ d.Ran s (calls l) (r s).state := by
  obtain ⟨left, ran⟩ := h s
  generalize r s = o at left ran ⊢
  cases left with
  | complete whole =>
    rw [← calls_trace] at ran
    exact ⟨_, _, whole, rfl, ran⟩
  | cut whole short =>
    have halted := short.halted
    rw [calls_trace] at halted
    exact absurd ran (lasting _ _ _ _ _ whole halted)

theorem conforms_pure {P : List Entry → α → Prop} {a : α} (h : P [] a) : Conforms d (pure a) P :=
  fun s => ⟨.complete h, .nil s⟩

/-- One routine after another.  What the second is to leave may depend on the trace of the
first. -/
theorem conforms_bind {r : Routine Entry σ DfuError α} {f : α → Routine Entry σ DfuError β}
    {P : List Entry → α → Prop} {Q : List Entry → β → Prop} (first : Conforms d r P)
    (second : ∀ l a, P l a → Conforms d (f a) fun l' b => Q (l ++ l') b) :
    Conforms d (r >>= f) Q := by
  intro s
  obtain ⟨left, ran⟩ := first s
  generalize ho : r s = o at left ran
  cases left with
  | @complete a s' log h =>
    rw [Routine.bind_of_ok ho]
    obtain ⟨left', ran'⟩ := second _ _ h s'
    refine ⟨?_, calls_append ▸ ran.append ran'⟩
    generalize f a s' = o' at left'
    cases left' with
    | complete h' => exact .complete (trace_append ▸ h')
    | cut h' short => exact .cut h' (trace_append ▸ short.append_left (trace log))
  | @cut a e s' full log h short =>
    rw [Routine.bind_of_error ho]
    refine ⟨?_, ran⟩
    -- any way the rest could have gone completes the trace
    obtain ⟨full', b, h'⟩ := ((second _ _ h) s').1.exists
    exact .cut h' (short.append_right full')

theorem conforms_event {P : List Entry → Unit → Prop} {e : Event} (h : P [.event e] ()) :
    Conforms d (Routine.emit (.event e)) P :=
  fun s => ⟨.complete h, .nil s⟩

theorem conforms_record {P : List Entry → Unit → Prop} {level : Level} {message : String}
    {fields : List (String × String)} (h : P [] ()) :
    Conforms d (Routine.emit (.ofRecord level message fields)) P :=
  fun s => ⟨.complete h, .nil s⟩

theorem conforms_pause {P : List Entry → Unit → Prop} {micros : Nat} (h : P [] ()) :
    Conforms d (Routine.emit (.pause micros)) P :=
  fun s => ⟨.complete h, .nil s⟩

theorem conforms_event_bind {P : List Entry → α → Prop} {e : Event}
    {r : Unit → Routine Entry σ DfuError α}
    (h : Conforms d (r ()) fun l a => P (.event e :: l) a) :
    Conforms d (Routine.emit (.event e) >>= r) P := by
  refine conforms_bind (conforms_event (P := fun l _ => l = [.event e]) rfl) ?_
  rintro l _ rfl
  exact h

theorem conforms_record_bind {P : List Entry → α → Prop} {level : Level} {message : String}
    {fields : List (String × String)} {r : Unit → Routine Entry σ DfuError α}
    (h : Conforms d (r ()) P) :
    Conforms d (Routine.emit (.ofRecord level message fields) >>= r) P := by
  refine conforms_bind (conforms_record (P := fun l _ => l = []) rfl) ?_
  rintro l _ rfl
  exact h

/-! ## Single commands -/

/-- What issuing a command leaves behind. -/
theorem issue_apply (c : Command) (s : σ) :
    (d.issue c).mapError DfuError.session s
      = ⟨(d.call c s).result.mapError .session, (d.call c s).state,
          (d.call c s).log.map .note ++ [.call c (d.call c s).result]⟩ :=
  rfl

theorem ran_issue (c : Command) (s : σ) :
    d.Ran s [⟨c, (d.call c s).result⟩] (d.call c s).state :=
  .call c (.nil _)

/-- A command with any answer but a refusal. -/
theorem conforms_issue {c : Command} {P : List Entry → c.Reply → Prop}
    (h : ∀ v, P [.call c (.ok v)] v) : Conforms d ((d.issue c).mapError .session) P := by
  intro s
  have ran := ran_issue (d := d) c s
  rw [issue_apply]
  generalize d.call c s = o at ran ⊢
  obtain ⟨answer, s', notes⟩ := o
  refine ⟨?_, by simpa using ran⟩
  cases answer with
  | ok v => exact .complete (by simpa using h v)
  -- any answer but the refusal makes a trace that was cut short
  | error e =>
    exact .cut (h default) ⟨[], _, _, [], rfl, by simp [Call.entry], .refused c default e⟩

/-- A command with one answer that goes on, while every other one stops the routine. -/
theorem conforms_checked {c : Command} (good : c.Reply) {P : List Entry → α → Prop}
    {f : c.Reply → Routine Entry σ DfuError α}
    (accepted : Conforms d (f good) fun l a => P (.call c (.ok good) :: l) a)
    (rejected : ∀ v, v ≠ good →
      ∃ e, f v = Routine.fail e ∧ Stops ⟨c, .ok good⟩ ⟨c, .ok v⟩ e) :
    Conforms d ((d.issue c).mapError .session >>= f) P := by
  intro s
  -- there is a complete trace whatever is answered, since accepting leaves one
  obtain ⟨full, a, h⟩ := (accepted s).1.exists
  have ran := ran_issue (d := d) c s
  have issued := issue_apply (d := d) c s
  generalize d.call c s = o at ran issued
  obtain ⟨answer, s', notes⟩ := o
  have cut {e : DfuError} (stops : Stops ⟨c, .ok good⟩ ⟨c, answer⟩ e) :
      Cut (.call c (.ok good) :: full) e (trace (notes.map .note ++ [.call c answer])) :=
    ⟨[], _, _, full, rfl, by simp [Call.entry], stops⟩
  cases answer with
  | error e =>
    rw [Routine.bind_of_error issued]
    exact ⟨.cut h (cut (.refused c good e)), by simpa using ran⟩
  | ok v =>
    rw [Routine.bind_of_ok issued]
    by_cases hv : v = good
    · subst hv
      obtain ⟨left, ran'⟩ := accepted s'
      refine ⟨?_, by simpa using ran.append ran'⟩
      generalize f v s' = o' at left
      cases left with
      | complete h => exact .complete (by simpa using h)
      | cut h short => exact .cut h (by simpa using short.append_left [_])
    · obtain ⟨e, fails, stops⟩ := rejected v hv
      rw [fails]
      exact ⟨.cut h (by simpa using cut stops), by simpa using ran⟩

end CanDfu
