/-
  CanDfu.Proofs.StageSteps

  What a journal says about the stages of an upload.

    * `steps` : the steps between stages that were reported, in order.
    * `Walk` : steps that follow one another, each of them allowed.
    * `stagedCalls` : the calls, each with the stage it was made in.

  Phases report one step each, on being entered.  So the steps of a run are those through its
  phases, and the stage of a call is that of the phase whose log it is in.
-/
import CanDfu.Proofs.UploadCourse

namespace CanDfu

/-- The step an event reports, if it is one. -/
def Event.step? : Event → Option (Stage × Stage)
  | stageChanged previous next => some (previous, next)
  | _ => none

/-- The events of a journal, in order. -/
def events (log : List Entry) : List Event := log.filterMap Entry.event?

/-- The steps between stages that a journal reports, in order. -/
def steps (log : List Entry) : List (Stage × Stage) := (events log).filterMap Event.step?

/-- The calls of a journal that begins in a stage, each with the stage it was made in. -/
def stagedCalls : Stage → List Entry → List (Stage × Call)
  | _, [] => []
  | st, .call c answer :: rest => (st, ⟨c, answer⟩) :: stagedCalls st rest
  | _, .event (.stageChanged _ next) :: rest => stagedCalls next rest
  | st, _ :: rest => stagedCalls st rest

/-- The calls that a journal says were made in a stage, in order. -/
def callsIn (st : Stage) (log : List Entry) : List Call :=
  ((stagedCalls .start log).filter fun c => c.1 = st).map Prod.snd

/-- Steps that lead from one stage to another, each of them allowed. -/
inductive Walk : Stage → List (Stage × Stage) → Stage → Prop
  | stay (st : Stage) : Walk st [] st
  | step {a b c : Stage} {rest : List (Stage × Stage)} (allowed : a.allows b = true)
      (h : Walk b rest c) : Walk a ((a, b) :: rest) c

section Journal

variable {log more : List Entry} {c : Call} {e : Event} {st : Stage}

@[simp] theorem events_nil : events [] = [] := rfl

@[simp] theorem events_append : events (log ++ more) = events log ++ events more :=
  List.filterMap_append

@[simp] theorem events_entry_cons : events (c.entry :: log) = events log := rfl

@[simp] theorem events_call_cons {k : Command} {answer : Except SessionError k.Reply} :
    events (.call k answer :: log) = events log := rfl

@[simp] theorem events_event_cons : events (.event e :: log) = e :: events log := rfl

@[simp] theorem events_map_entry (cs : List Call) : events (cs.map Call.entry) = [] := by
  induction cs with
  | nil => rfl
  | cons c rest ih => exact ih

/-- Dropping notes and pauses drops no event. -/
@[simp] theorem events_trace (log : List Entry) : events (trace log) = events log := by
  induction log with
  | nil => rfl
  | cons entry rest ih =>
    cases entry with
    | event e => exact congrArg (e :: ·) ih
    | call | note | prompt | pause => exact ih

@[simp] theorem steps_append : steps (log ++ more) = steps log ++ steps more := by
  rw [steps, events_append, List.filterMap_append]
  rfl

@[simp] theorem steps_trace (log : List Entry) : steps (trace log) = steps log := by
  rw [steps, events_trace]
  rfl

/-- Notes and pauses do not move an upload to another stage. -/
@[simp] theorem stagedCalls_trace (st : Stage) (log : List Entry) :
    stagedCalls st (trace log) = stagedCalls st log := by
  induction log generalizing st with
  | nil => rfl
  | cons entry rest ih =>
    cases entry with
    | call k answer => exact congrArg (_ :: ·) (ih st)
    | event e =>
      cases e with
      | stageChanged previous next => exact ih next
      | progress | chunkCommitted | log | attemptFailed | complete => exact ih st
    | note | prompt | pause => exact ih st

/-- A log without steps keeps its calls in the stage it begins in. -/
theorem stagedCalls_append (steady : steps log = []) :
    stagedCalls st (log ++ more) = (calls log).map (st, ·) ++ stagedCalls st more := by
  induction log with
  | nil => rfl
  | cons entry rest ih =>
    cases entry with
    | call k answer => exact congrArg (_ :: ·) (ih steady)
    | event e =>
      cases e with
      | stageChanged previous next => cases steady
      | progress | chunkCommitted | log | attemptFailed | complete => exact ih steady
    | note | prompt | pause => exact ih steady

end Journal

/-! ## Walks -/

theorem Walk.append {a b c : Stage} {walked more : List (Stage × Stage)} (h : Walk a walked b)
    (h' : Walk b more c) : Walk a (walked ++ more) c := by
  induction h with
  | stay => exact h'
  | step allowed _ ih => exact .step allowed (ih h')

theorem walk_append {a c : Stage} {walked more : List (Stage × Stage)} :
    Walk a (walked ++ more) c ↔ ∃ b, Walk a walked b ∧ Walk b more c := by
  refine ⟨fun h => ?_, fun ⟨_, h, h'⟩ => h.append h'⟩
  induction walked generalizing a with
  | nil => exact ⟨a, .stay a, h⟩
  | cons s rest ih =>
    cases h with
    | step allowed h =>
      obtain ⟨b, first, second⟩ := ih h
      exact ⟨b, .step allowed first, second⟩

/-- Walks go forward. -/
theorem Walk.rank_le {a b : Stage} {walked : List (Stage × Stage)} (h : Walk a walked b) :
    a.rank ≤ b.rank := by
  induction h with
  | stay => exact Nat.le_refl _
  | step allowed _ ih => exact Nat.le_trans (Nat.le_of_lt (Stage.rank_lt_of_allows allowed)) ih

/-- Stages are entered in their order, each of them behind the one a walk begins in. -/
theorem Walk.pairwise_entered {a b : Stage} {walked : List (Stage × Stage)}
    (h : Walk a walked b) :
    (∀ st ∈ walked.map Prod.snd, a.rank < st.rank) ∧
      (walked.map Prod.snd).Pairwise fun s t => s.rank < t.rank := by
  induction h with
  | stay => exact ⟨List.forall_mem_nil _, .nil⟩
  | step allowed _ ih =>
    have here := Stage.rank_lt_of_allows allowed
    obtain ⟨above, ordered⟩ := ih
    refine ⟨List.forall_mem_cons.mpr ⟨here, fun st hst => ?_⟩, .cons above ordered⟩
    exact Nat.lt_trans here (above st hst)

/-- A stage that is left comes before the one a walk ends in. -/
theorem Walk.rank_lt_of_mem {a b st next : Stage} {walked : List (Stage × Stage)}
    (h : Walk a walked b) (left : (st, next) ∈ walked) : st.rank < b.rank := by
  induction h with
  | stay => cases left
  | step allowed onward ih =>
    rcases List.mem_cons.mp left with same | later
    · cases same
      exact Nat.lt_of_lt_of_le (Stage.rank_lt_of_allows allowed) onward.rank_le
    · exact ih later

/-- A stage that is left was entered, unless the walk begins in it. -/
theorem Walk.exists_previous {a b st next : Stage} {walked : List (Stage × Stage)}
    (h : Walk a walked b) (left : (st, next) ∈ walked) (other : st ≠ a) :
    ∃ previous, previous.allows st = true ∧ (previous, st) ∈ walked := by
  induction h with
  | stay => cases left
  | @step a b _ _ allowed _ ih =>
    rcases List.mem_cons.mp left with same | later
    · exact absurd (Prod.mk.inj same).1 other
    by_cases here : st = b
    · subst here
      exact ⟨a, allowed, List.mem_cons_self ..⟩
    · obtain ⟨previous, allowed, mem⟩ := ih later here
      exact ⟨previous, allowed, List.mem_cons_of_mem _ mem⟩

/-! ## Steps through phases -/

/-- The steps that enter phases one after the other. -/
def stepsThrough : Stage → List Phase → List (Stage × Stage)
  | _, [] => []
  | previous, p :: rest => (previous, p.stage) :: stepsThrough p.stage rest

section Phases

variable {ps more : List Phase} {previous : Stage}

theorem stepsThrough_append :
    stepsThrough previous (ps ++ more)
      = stepsThrough previous ps ++ stepsThrough (lastStage previous ps) more := by
  induction ps generalizing previous with
  | nil => rfl
  | cons p rest ih => exact congrArg (_ :: ·) ih

/-- Only the stages of phases matter for the steps: here the last of them ends by aborting. -/
theorem stepsThrough_aborted (p : Phase) (l said : List Entry) :
    stepsThrough previous (ps ++ [⟨p.stage, l⟩, ⟨.aborted, said⟩])
      = stepsThrough previous (ps ++ [p]) ++ [(p.stage, .aborted)] := by
  rw [stepsThrough_append, stepsThrough_append, List.append_assoc]
  rfl

/-- Stepping through phases visits their stages. -/
theorem map_snd_stepsThrough : (stepsThrough previous ps).map Prod.snd = ps.map Phase.stage := by
  induction ps generalizing previous with
  | nil => rfl
  | cons p rest ih => exact congrArg (_ :: ·) ih

/-- Steps through phases end in the stage of the last one. -/
theorem Walk.eq_lastStage {last : Stage} (h : Walk previous (stepsThrough previous ps) last) :
    last = lastStage previous ps := by
  induction ps generalizing previous with
  | nil =>
    cases h
    rfl
  | cons p rest ih =>
    cases h with
    | step _ h => exact ih h

/-- Phases that are walked through come one after the other in the order of stages. -/
theorem Walk.pairwise {last : Stage} (h : Walk previous (stepsThrough previous ps) last) :
    (∀ p ∈ ps, previous.rank < p.stage.rank) ∧
      ps.Pairwise fun p q => p.stage.rank < q.stage.rank := by
  obtain ⟨above, ordered⟩ := h.pairwise_entered
  rw [map_snd_stepsThrough] at above ordered
  rw [List.pairwise_map] at ordered
  exact ⟨fun p hp => above p.stage (List.mem_map_of_mem hp), ordered⟩

/-- A stage that is stepped on from is not final. -/
theorem Walk.not_isFinal {p : Phase} {last : Stage}
    (h : Walk previous (stepsThrough previous (ps ++ [p])) last) :
    ∀ q ∈ ps, q.stage.isFinal = false := by
  induction ps generalizing previous with
  | nil => exact List.forall_mem_nil _
  | cons q rest ih =>
    cases h with
    | step _ onward =>
      refine List.forall_mem_cons.mpr ⟨?_, ih onward⟩
      obtain ⟨next, allowed⟩ : ∃ next, q.stage.allows next = true := by
        cases rest with
        | nil =>
          cases onward with
          | step allowed _ => exact ⟨_, allowed⟩
        | cons r rest =>
          cases onward with
          | step allowed _ => exact ⟨_, allowed⟩
      refine Bool.eq_false_iff.mpr fun final => ?_
      rw [Stage.allows_of_isFinal final] at allowed
      cases allowed

theorem steps_phasesLog (steady : ∀ p ∈ ps, steps p.log = []) :
    steps (phasesLog previous ps) = stepsThrough previous ps := by
  induction ps generalizing previous with
  | nil => rfl
  | cons p rest ih =>
    obtain ⟨here, later⟩ := List.forall_mem_cons.mp steady
    show (previous, p.stage) :: steps (p.log ++ phasesLog p.stage rest) = _
    rw [steps_append, here, List.nil_append, ih later]
    rfl

theorem stagedCalls_phasesLog (steady : ∀ p ∈ ps, steps p.log = []) :
    stagedCalls previous (phasesLog previous ps)
      = ps.flatMap fun p => (calls p.log).map (p.stage, ·) := by
  induction ps generalizing previous with
  | nil => rfl
  | cons p rest ih =>
    obtain ⟨here, later⟩ := List.forall_mem_cons.mp steady
    show stagedCalls p.stage (p.log ++ phasesLog p.stage rest) = _
    rw [stagedCalls_append here, ih later]
    rfl

theorem steps_eq_of_left {log : List Entry} (left : trace log = phasesLog previous ps)
    (steady : ∀ p ∈ ps, steps p.log = []) : steps log = stepsThrough previous ps := by
  rw [← steps_trace, left, steps_phasesLog steady]

theorem stagedCalls_eq_of_left {log : List Entry} (left : trace log = phasesLog previous ps)
    (steady : ∀ p ∈ ps, steps p.log = []) :
    stagedCalls previous log = ps.flatMap fun p => (calls p.log).map (p.stage, ·) := by
  rw [← stagedCalls_trace, left, stagedCalls_phasesLog steady]

/-- A stage that is stepped on from is one of the phases, unless the steps begin in it. -/
theorem exists_phase_of_mem {st next : Stage} (left : (st, next) ∈ stepsThrough previous ps)
    (other : st ≠ previous) : ∃ p ∈ ps, p.stage = st := by
  induction ps generalizing previous with
  | nil => cases left
  | cons p rest ih =>
    rcases List.mem_cons.mp left with same | later
    · exact absurd (Prod.mk.inj same).1 other
    by_cases here : p.stage = st
    · exact ⟨p, List.mem_cons_self .., here⟩
    · obtain ⟨q, hq, stage⟩ := ih later (Ne.symm here)
      exact ⟨q, List.mem_cons_of_mem _ hq, stage⟩

/-- The events of phases are those of their logs, and the steps between them. -/
theorem mem_events_phasesLog {e : Event} (he : e ∈ events (phasesLog previous ps)) :
    (∃ a b, e = .stageChanged a b) ∨ ∃ p ∈ ps, e ∈ events p.log := by
  induction ps generalizing previous with
  | nil => cases he
  | cons p rest ih =>
    rw [phasesLog, List.cons_append, events_event_cons, events_append, List.mem_cons,
      List.mem_append] at he
    rcases he with rfl | here | later
    · exact .inl ⟨previous, p.stage, rfl⟩
    · exact .inr ⟨p, List.mem_cons_self .., here⟩
    · refine (ih later).imp id ?_
      rintro ⟨q, hq, mem⟩
      exact ⟨q, List.mem_cons_of_mem _ hq, mem⟩

/-- What phases leave in a stage. -/
def stageLog (st : Stage) (ps : List Phase) : List Entry :=
  ps.flatMap fun p => if p.stage = st then p.log else []

theorem stageLog_eq_nil {st : Stage} (h : ∀ p ∈ ps, p.stage ≠ st) : stageLog st ps = [] := by
  refine List.flatMap_eq_nil_iff.mpr fun p hp => ?_
  rw [if_neg (h p hp)]

/-- A phase in a stage of its own leaves all there is. -/
theorem stageLog_eq_log {p : Phase} (ordered : ps.Pairwise fun p q => p.stage.rank < q.stage.rank)
    (hp : p ∈ ps) : stageLog p.stage ps = p.log := by
  obtain ⟨before, after, rfl⟩ := List.append_of_mem hp
  obtain ⟨-, later, earlier⟩ := List.pairwise_append.mp ordered
  have apart {q : Phase} (h : q.stage.rank ≠ p.stage.rank) : q.stage ≠ p.stage :=
    fun same => h (congrArg Stage.rank same)
  have before_nil : stageLog p.stage before = [] :=
    stageLog_eq_nil fun q hq => apart (Nat.ne_of_lt (earlier q hq p (List.mem_cons_self ..)))
  have after_nil : stageLog p.stage after = [] :=
    stageLog_eq_nil fun q hq => apart (Nat.ne_of_gt ((List.pairwise_cons.mp later).1 q hq))
  unfold stageLog at before_nil after_nil ⊢
  rw [List.flatMap_append, List.flatMap_cons, before_nil, after_nil, if_pos rfl, List.nil_append,
    List.append_nil]

theorem callsIn_eq_of_left {st : Stage} {log : List Entry} (left : trace log = phasesLog .start ps)
    (steady : ∀ p ∈ ps, steps p.log = []) : callsIn st log = calls (stageLog st ps) := by
  rw [callsIn, stagedCalls_eq_of_left left steady]
  clear left steady
  induction ps with
  | nil => rfl
  | cons p rest ih =>
    unfold stageLog at ih ⊢
    rw [List.flatMap_cons, List.filter_append, List.map_append, ih, List.flatMap_cons, calls_append]
    refine congrArg (· ++ _) ?_
    by_cases here : p.stage = st <;> simp [here, List.filter_map, Function.comp_def]

end Phases

end CanDfu
