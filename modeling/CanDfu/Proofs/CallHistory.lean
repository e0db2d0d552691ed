/-
  CanDfu.Proofs.CallHistory

  What a journal says happened.  `calls` are the commands a device was given with their answers,
  `trace` keeps the events between them as well; notes of the layers below and pauses are dropped.

    * `Device.Ran` : a device, taken from one state to another, gives the answers of a list of
      calls.  It ties a journal to the device the journal was written about.
    * `Stops` : the answers that end an upload, beside the answer that would have let it go on.
    * `Cut` : a log that follows a complete one up to some call, and there ends with an answer
      that stops it.  Whatever a device does, a run leaves either a complete log or a cut one.
-/
import CanDfu.Device

namespace CanDfu

/-- A command with its answer. -/
structure Call where
  command : Command
  answer : Except SessionError command.Reply

namespace Entry

/-- The call of an entry that is one. -/
def call? : Entry → Option Call
  | call c answer => some ⟨c, answer⟩
  | _ => none

/-- Whether an entry is a call or an event. -/
def isStep : Entry → Bool
  | call .. | event _ => true
  | _ => false

end Entry

/-- The journal entry of a call. -/
def Call.entry (c : Call) : Entry := .call c.command c.answer

/-- The calls of a journal, in order. -/
def calls (log : List Entry) : List Call := log.filterMap Entry.call?

/-- The calls and events of a journal, in order. -/
def trace (log : List Entry) : List Entry := log.filter Entry.isStep

section Journal

variable {log more : List Entry} {c : Call} {e : Event}

@[simp] theorem call?_entry : c.entry.call? = some c := rfl

@[simp] theorem calls_nil : calls [] = [] := rfl

@[simp] theorem calls_append : calls (log ++ more) = calls log ++ calls more :=
  List.filterMap_append

@[simp] theorem calls_entry_cons : calls (c.entry :: log) = c :: calls log := rfl

@[simp] theorem calls_call_cons {k : Command} {answer : Except SessionError k.Reply} :
    calls (.call k answer :: log) = ⟨k, answer⟩ :: calls log := rfl

@[simp] theorem calls_event_cons : calls (.event e :: log) = calls log := rfl

@[simp] theorem calls_notes (notes : List Note) : calls (notes.map .note) = [] := by
  induction notes with
  | nil => rfl
  | cons n rest ih => exact ih

@[simp] theorem calls_map_entry (cs : List Call) : calls (cs.map Call.entry) = cs := by
  induction cs with
  | nil => rfl
  | cons c rest ih => rw [List.map_cons, calls_entry_cons, ih]

@[simp] theorem trace_nil : trace [] = [] := rfl

@[simp] theorem trace_append : trace (log ++ more) = trace log ++ trace more :=
  List.filter_append ..

@[simp] theorem trace_entry_cons : trace (c.entry :: log) = c.entry :: trace log := rfl

@[simp] theorem trace_call_cons {k : Command} {answer : Except SessionError k.Reply} :
    trace (.call k answer :: log) = .call k answer :: trace log := rfl

@[simp] theorem trace_event_cons : trace (.event e :: log) = .event e :: trace log := rfl

@[simp] theorem trace_pause_cons (micros : Nat) : trace (.pause micros :: log) = trace log := rfl

@[simp] theorem trace_ofRecord_cons (level : Level) (message : String)
    (fields : List (String × String)) :
    trace (.ofRecord level message fields :: log) = trace log := rfl

@[simp] theorem trace_notes (notes : List Note) : trace (notes.map .note) = [] := by
  induction notes with
  | nil => rfl
  | cons n rest ih => exact ih

/-- Dropping notes and pauses drops no call. -/
@[simp] theorem calls_trace (log : List Entry) : calls (trace log) = calls log := by
  induction log with
  | nil => rfl
  | cons entry rest ih =>
    cases entry with
    | call k answer => exact congrArg (_ :: ·) ih
    | event e => exact ih
    | note n => exact ih
    | prompt p => exact ih
    | pause micros => exact ih

end Journal

/-! ## Devices and the calls made to them -/

/-- The calls are answered by `d` on its way from one state to another. -/
inductive Device.Ran {σ : Type} (d : Device σ) : σ → List Call → σ → Prop
  | nil (s : σ) : Ran d s [] s
  | call {s s' : σ} {rest : List Call} (c : Command) (h : Ran d (d.call c s).state rest s') :
      Ran d s (⟨c, (d.call c s).result⟩ :: rest) s'

namespace Device

variable {σ : Type} {d : Device σ} {s s' : σ}

theorem Ran.append {s'' : σ} {cs more : List Call} (h : d.Ran s cs s') (h' : d.Ran s' more s'') :
    d.Ran s (cs ++ more) s'' := by
  induction h with
  | nil s => exact h'
  | call c _ ih => exact .call c (ih h')

theorem ran_append {s'' : σ} {cs more : List Call} :
    d.Ran s (cs ++ more) s'' ↔ ∃ s', d.Ran s cs s' ∧ d.Ran s' more s'' := by
  refine ⟨fun h => ?_, fun ⟨_, h, h'⟩ => h.append h'⟩
  -- the first calls decide in which state the others begin
  induction cs generalizing s with
  | nil => exact ⟨s, .nil s, h⟩
  | cons c rest ih =>
    cases h with
    | call k h =>
      obtain ⟨s', first, second⟩ := ih h
      exact ⟨s', .call k first, second⟩

theorem ran_cons {c : Call} {rest : List Call} :
    d.Ran s (c :: rest) s'
      ↔ c.answer = (d.call c.command s).result ∧ d.Ran (d.call c.command s).state rest s' := by
  obtain ⟨k, answer⟩ := c
  constructor
  · intro h
    cases h with
    | call k h => exact ⟨rfl, h⟩
  · rintro ⟨h, h'⟩
    have answered : answer = (d.call k s).result := h
    subst answered
    exact .call k h'

theorem ran_nil : d.Ran s [] s' ↔ s' = s := by
  constructor
  · rintro ⟨⟩
    rfl
  · rintro rfl
    exact .nil _

end Device

/-! ## Runs that are cut short -/

/-- The answer of the second call stops an upload with a failure, where the answer of the first,
to the same command, would have let it go on. -/
inductive Stops : Call → Call → DfuError → Prop
  | refused (c : Command) (good : c.Reply) (e : SessionError) :
      Stops ⟨c, .ok good⟩ ⟨c, .error e⟩ (.session e)
  | status (seed : Option UInt32) (v : UInt8) (h : v ≠ 0) :
      Stops ⟨.erase seed, .ok (0 : UInt8)⟩ ⟨.erase seed, .ok v⟩ (.eraseFailure v)
  | mismatch (address : UInt32) (seed : Option UInt32) (sum v : UInt32) (h : v ≠ sum) :
      Stops ⟨.commit address seed, .ok sum⟩ ⟨.commit address seed, .ok v⟩
        (.checksumMismatch address sum v)

theorem Stops.command_eq {good bad : Call} {e : DfuError} (h : Stops good bad e) :
    bad.command = good.command := by
  cases h <;> rfl

/-- An answer that stops an upload is not the one that lets it go on. -/
theorem Stops.ne {good bad : Call} {e : DfuError} (h : Stops good bad e) : good ≠ bad := by
  intro same
  cases h with
  | refused => cases same
  | status seed v nonzero =>
    cases same
    exact nonzero rfl
  | mismatch address seed sum v wrong =>
    cases same
    exact wrong rfl

/-- The second log is the first one up to a call, whose answer ends it. -/
def Cut (full : List Entry) (e : DfuError) (log : List Entry) : Prop :=
  ∃ before good bad after, full = before ++ good.entry :: after ∧ log = before ++ [bad.entry] ∧
    Stops good bad e

/-- `Cut` for calls alone. -/
def Halted (plan : List Call) (e : DfuError) (made : List Call) : Prop :=
  ∃ before good bad after, plan = before ++ good :: after ∧ made = before ++ [bad] ∧
    Stops good bad e

section Cut

variable {full log more : List Entry} {e : DfuError}

theorem Cut.append_right (h : Cut full e log) (more : List Entry) : Cut (full ++ more) e log := by
  obtain ⟨before, good, bad, after, rfl, rfl, stops⟩ := h
  exact ⟨before, good, bad, after ++ more, by simp, rfl, stops⟩

theorem Cut.append_left (h : Cut full e log) (before : List Entry) :
    Cut (before ++ full) e (before ++ log) := by
  obtain ⟨first, good, bad, after, rfl, rfl, stops⟩ := h
  exact ⟨before ++ first, good, bad, after, by simp, by simp, stops⟩

theorem not_cut_nil : ¬ Cut [] e log := by
  rintro ⟨before, good, bad, after, h, -⟩
  simp at h

/-- A cut log has a cut list of calls. -/
theorem Cut.halted (h : Cut full e log) : Halted (calls full) e (calls log) := by
  obtain ⟨before, good, bad, after, rfl, rfl, stops⟩ := h
  exact ⟨calls before, good, bad, calls after, by simp, by simp, stops⟩

end Cut

/-- Both of these at once, for a list whose entries `g` makes of calls, and others. -/
def Truncated {α : Type} (g : Call → α) (full : List α) (e : DfuError) (made : List α) : Prop :=
  ∃ before good bad after, full = before ++ g good :: after ∧ made = before ++ [g bad] ∧
    Stops good bad e

section Truncated

variable {α β : Type} {g : Call → α} {full more made : List α} {e : DfuError}

theorem not_truncated_nil : ¬ Truncated g [] e made := by
  rintro ⟨before, good, bad, after, h, -⟩
  simp at h

/-- What is cut short in two parts is cut short in one of them. -/
theorem truncated_append :
    Truncated g (full ++ more) e made
      ↔ Truncated g full e made ∨ ∃ rest, made = full ++ rest ∧ Truncated g more e rest := by
  constructor
  · rintro ⟨before, good, bad, after, h, rfl, stops⟩
    -- the call that stops lies in the first part or in the second
    rcases List.append_eq_append_iff.mp h with ⟨between, rfl, h'⟩ | ⟨between, rfl, h'⟩
    · exact .inr ⟨between ++ [g bad], by simp, between, good, bad, after, h', rfl, stops⟩
    · cases between with
      -- the first part ended right before it, so it is the head of the second
      | nil => exact .inr ⟨[g bad], by simp, [], good, bad, after, h'.symm, rfl, stops⟩
      | cons c between =>
        injection h' with h₁ h₂
        exact .inl ⟨before, good, bad, between, by rw [h₁], rfl, stops⟩
  · rintro (⟨before, good, bad, after, rfl, rfl, stops⟩ |
      ⟨rest, rfl, before, good, bad, after, rfl, rfl, stops⟩)
    · exact ⟨before, good, bad, after ++ more, by simp, rfl, stops⟩
    · exact ⟨full ++ before, good, bad, after, by simp, by simp, stops⟩

/-- What is cut short in a list of groups is cut short in one of the groups. -/
theorem truncated_flatMap {f : β → List α} {l : List β} :
    Truncated g (l.flatMap f) e made
      ↔ ∃ before x after rest, l = before ++ x :: after ∧ made = before.flatMap f ++ rest ∧
          Truncated g (f x) e rest := by
  constructor
  · intro h
    induction l generalizing made with
    | nil => exact absurd h not_truncated_nil
    | cons x l ih =>
      rw [List.flatMap_cons, truncated_append] at h
      rcases h with h | ⟨rest, rfl, h⟩
      · exact ⟨[], x, l, made, rfl, rfl, h⟩
      · obtain ⟨before, y, after, last, rfl, rfl, here⟩ := ih h
        exact ⟨x :: before, y, after, last, rfl, by simp, here⟩
  · rintro ⟨before, x, after, rest, rfl, rfl, h⟩
    rw [List.flatMap_append, List.flatMap_cons]
    exact truncated_append.mpr (.inr ⟨rest, rfl, truncated_append.mpr (.inl h)⟩)

/-- A log that is cut short in two parts is cut short in one of them. -/
theorem cut_append {full more log : List Entry} :
    Cut (full ++ more) e log ↔ Cut full e log ∨ ∃ rest, log = full ++ rest ∧ Cut more e rest :=
  truncated_append

/-- A log of groups is cut short in one of them. -/
theorem cut_flatMap {f : β → List Entry} {l : List β} {log : List Entry} :
    Cut (l.flatMap f) e log
      ↔ ∃ before x after rest, l = before ++ x :: after ∧ log = before.flatMap f ++ rest ∧
          Cut (f x) e rest :=
  truncated_flatMap

end Truncated

section Halted

variable {plan more made : List Call} {e : DfuError}

/-- Calls that are cut short in two parts are cut short in one of them. -/
theorem halted_append :
    Halted (plan ++ more) e made
      ↔ Halted plan e made ∨ ∃ rest, made = plan ++ rest ∧ Halted more e rest :=
  truncated_append (g := id)

theorem halted_cons {c : Call} :
    Halted (c :: plan) e made
      ↔ (∃ bad, made = [bad] ∧ Stops c bad e) ∨ ∃ rest, made = c :: rest ∧ Halted plan e rest := by
  rw [show c :: plan = [c] ++ plan from rfl, halted_append]
  refine or_congr ⟨?_, ?_⟩ Iff.rfl
  · rintro ⟨before, good, bad, after, h, rfl, stops⟩
    cases before with
    | nil =>
      injection h with h₁ h₂
      exact ⟨bad, rfl, h₁ ▸ stops⟩
    | cons c before => simp at h
  · rintro ⟨bad, rfl, stops⟩
    exact ⟨[], c, bad, [], rfl, rfl, stops⟩

theorem not_halted_nil : ¬ Halted [] e made :=
  not_truncated_nil (g := id)

/-- Calls that are cut short in a list of groups are cut short in one of the groups. -/
theorem halted_flatMap {α : Type} {f : α → List Call} {l : List α} :
    Halted (l.flatMap f) e made
      ↔ ∃ before x after rest, l = before ++ x :: after ∧ made = before.flatMap f ++ rest ∧
          Halted (f x) e rest :=
  truncated_flatMap (g := id)

/-- Up to the last one the commands are those that were planned. -/
theorem Halted.commands_prefix (h : Halted plan e made) :
    made.map Call.command <+: plan.map Call.command := by
  obtain ⟨before, good, bad, after, rfl, rfl, stops⟩ := h
  refine ⟨after.map Call.command, ?_⟩
  simp [stops.command_eq]

/-- Calls that were cut short do not begin with all that was planned. -/
theorem Halted.not_prefix (h : Halted plan e made) : ¬ plan <+: made := by
  rintro ⟨rest, same⟩
  obtain ⟨before, good, bad, after, rfl, rfl, stops⟩ := h
  rw [List.append_assoc] at same
  injection List.append_cancel_left same with same
  exact stops.ne same

end Halted

/-! ## One device, one history -/

namespace Device

variable {σ : Type} {d : Device σ} {s s' s'' : σ} {e : DfuError}

/-- The same calls lead a device to one state. -/
theorem Ran.state_unique {cs : List Call} (h : d.Ran s cs s') (h' : d.Ran s cs s'') : s' = s'' := by
  induction h with
  | nil s => exact (ran_nil.mp h').symm
  | call c _ ih => exact ih (ran_cons.mp h').2

/-- A command that comes first has one answer. -/
theorem Ran.answer_unique {k : Command} {x y : Except SessionError k.Reply} {cs cs' : List Call}
    (h : d.Ran s (⟨k, x⟩ :: cs) s') (h' : d.Ran s (⟨k, y⟩ :: cs') s'') : x = y :=
  (ran_cons.mp h).1.trans (ran_cons.mp h').1.symm

/-- One answer is given, not both. -/
theorem Ran.not_stops {good bad : Call} {rest : List Call} (h : d.Ran s (good :: rest) s')
    (stops : Stops good bad e) : ¬ d.Ran s [bad] s'' := by
  intro h'
  -- a stopping answer differs from the good one to the same command
  cases stops with
  | refused c good e => cases h.answer_unique h'
  | status seed v nonzero =>
    injection h.answer_unique h' with same
    exact nonzero same.symm
  | mismatch a seed sum v wrong =>
    injection h.answer_unique h' with same
    exact wrong same.symm

/-- A device that answers a plan does not stop it. -/
theorem Ran.not_halted {plan made : List Call} (h : d.Ran s plan s') (halted : Halted plan e made) :
    ¬ d.Ran s made s'' := by
  intro h'
  obtain ⟨before, good, bad, after, rfl, rfl, stops⟩ := halted
  obtain ⟨s₁, first, here⟩ := ran_append.mp h
  obtain ⟨s₂, first', here'⟩ := ran_append.mp h'
  -- up to the call that stops, both histories are the same and lead to one state
  rw [first'.state_unique first] at here'
  exact here.not_stops stops here'

end Device

end CanDfu
