/-
  CanDfu.Proofs.FirstRun

  First runs as a whole: of images that fit, and of images that do not.  Every one of them walks
  through stages to a final one.

    * `FirstRun` : how a first run goes.  An image that does not fit is aborted before the first
      stage; every other run goes as `run_course` says.
    * `Script.exists_init` : an upload that succeeds reports its end once, and as the last thing.
    * `Script.walk` : the stages of a script follow one another by allowed steps.
-/
import CanDfu.Proofs.StageSteps

namespace CanDfu

variable {σ : Type} {u : Uploader} {image : Image} {ps : List Phase} {result : UploadResult}

/-! ## What the phases report -/

/-- The events that report neither a step between stages nor the end. -/
def Event.isInStage : Event → Bool
  | stageChanged .. | complete => false
  | _ => true

/-- A log of a stage that an upload is still to leave. -/
def Ongoing (log : List Entry) : Prop := ∀ e ∈ events log, e.isInStage = true

section Ongoing

variable {log more : List Entry}

theorem Ongoing.append (h : Ongoing log) (h' : Ongoing more) : Ongoing (log ++ more) := by
  intro e he
  rw [events_append] at he
  exact (List.mem_append.mp he).elim (h e) (h' e)

theorem ongoing_event {e : Event} (h : e.isInStage = true) : Ongoing [.event e] :=
  fun _ he => List.mem_singleton.mp he ▸ h

theorem Ongoing.steps_eq_nil (h : Ongoing log) : steps log = [] := by
  refine List.filterMap_eq_nil_iff.mpr fun e he => ?_
  have inStage := h e he
  cases e with
  | stageChanged | complete => cases inStage
  | progress | chunkCommitted | log | attemptFailed => rfl

theorem steady_of_ongoing {ps : List Phase} (ongoing : ∀ p ∈ ps, Ongoing p.log) :
    ∀ p ∈ ps, steps p.log = [] :=
  fun p hp => (ongoing p hp).steps_eq_nil

theorem Ongoing.not_complete (h : Ongoing log) : Event.complete ∉ events log :=
  fun he => nomatch h _ he

/-- A log that is cut short reports nothing that the whole one does not. -/
theorem Cut.events_subset {full : List Entry} {e : DfuError} (h : Cut full e log) :
    events log ⊆ events full := by
  obtain ⟨before, good, bad, after, rfl, rfl, -⟩ := h
  rw [events_append, events_append, events_entry_cons, events_entry_cons, events_nil,
    List.append_nil]
  exact List.subset_append_left ..

theorem Ongoing.of_cut {full : List Entry} {e : DfuError} (h : Ongoing full)
    (short : Cut full e log) : Ongoing log :=
  fun _ he => h _ (short.events_subset he)

end Ongoing

theorem ComparesPieces.mem_events {activity : Activity} {total : Nat} {pieces : List Piece}
    {l : List Entry} {c : Comparison} (h : ComparesPieces activity total pieces l c) {e : Event}
    (he : e ∈ events l) : ∃ n, e = .progress activity n total := by
  induction h with
  | done => cases he
  | same _ _ ih =>
    rw [events_append, events_map_entry, List.nil_append, events_event_cons] at he
    rcases List.mem_cons.mp he with rfl | he
    · exact ⟨_, rfl⟩
    · exact ih he
  | differs _ =>
    rw [events_map_entry] at he
    cases he

theorem mem_events_regionTrace {base : UInt32} {total done : Nat} {qs : List Quad} {e : Event}
    (he : e ∈ events (regionTrace base total done qs)) : ∃ n, e = .progress .readNvm n total := by
  induction qs generalizing done with
  | nil => cases he
  | cons q rest ih =>
    rw [regionTrace, events_append, events_map_entry, List.nil_append, events_event_cons] at he
    rcases List.mem_cons.mp he with rfl | he
    · exact ⟨_, rfl⟩
    · exact ih he

/-- Whatever is called between chunks, the events are those that report them. -/
theorem events_flatMap_writes {α : Type} (w : Writer) (chunk : α → Chunk) (said : α → List Event)
    (l : List α) :
    events (l.flatMap fun x => (w.calls (chunk x)).map Call.entry ++ (said x).map Entry.event)
      = l.flatMap said := by
  have heard (reported : List Event) : events (reported.map Entry.event) = reported := by
    induction reported with
    | nil => rfl
    | cons e rest ih => exact congrArg (e :: ·) ih
  induction l with
  | nil => rfl
  | cons x rest ih =>
    rw [List.flatMap_cons, events_append, events_append, events_map_entry, List.nil_append, heard,
      ih, List.flatMap_cons]

theorem events_programTrace (w : Writer) (total : Nat) (pieces : List Piece) :
    events (programTrace w total pieces) = pieces.flatMap fun piece =>
      [.chunkCommitted piece.chunk.address piece.chunk.checksum,
        .progress .program piece.consumed total] :=
  events_flatMap_writes w Piece.chunk (fun piece =>
    [.chunkCommitted piece.chunk.address piece.chunk.checksum,
      .progress .program piece.consumed total]) pieces

theorem events_restoreTrace (w : Writer) (base : UInt32) (total : Nat) (cs : List Chunk) :
    events (restoreTrace w base total cs) = cs.flatMap fun c =>
      [.chunkCommitted c.address c.checksum,
        .progress .writeNvm (c.address - base + 16).toNat total] :=
  events_flatMap_writes w id (fun c =>
    [.chunkCommitted c.address c.checksum,
      .progress .writeNvm (c.address - base + 16).toNat total]) cs

theorem ComparesPieces.ongoing {activity : Activity} {total : Nat} {pieces : List Piece}
    {l : List Entry} {c : Comparison} (h : ComparesPieces activity total pieces l c) :
    Ongoing l := by
  intro e he
  obtain ⟨n, rfl⟩ := h.mem_events he
  rfl

theorem ongoing_regionTrace (base : UInt32) (total : Nat) (qs : List Quad) :
    Ongoing (regionTrace base total 0 qs) := by
  intro e he
  obtain ⟨n, rfl⟩ := mem_events_regionTrace he
  rfl

theorem ongoing_programTrace (w : Writer) (total : Nat) (pieces : List Piece) :
    Ongoing (programTrace w total pieces) := by
  intro e he
  rw [events_programTrace] at he
  obtain ⟨piece, -, he⟩ := List.mem_flatMap.mp he
  simp only [List.mem_cons, List.not_mem_nil, or_false] at he
  rcases he with rfl | rfl <;> rfl

theorem ongoing_restoreTrace (w : Writer) (base : UInt32) (total : Nat) (cs : List Chunk) :
    Ongoing (restoreTrace w base total cs) := by
  intro e he
  rw [events_restoreTrace] at he
  obtain ⟨c, -, he⟩ := List.mem_flatMap.mp he
  simp only [List.mem_cons, List.not_mem_nil, or_false] at he
  rcases he with rfl | rfl <;> rfl

/-- What the operator is warned of are messages. -/
theorem mem_events_warnings {st : Stage} {e : Event} (he : e ∈ events (warnings st)) :
    ∃ level text, e = .log level text := by
  cases st <;> simp only [warnings, events_nil, events_event_cons, List.not_mem_nil, List.mem_cons,
    or_false] at he
  · exact ⟨_, _, he⟩
  · rcases he with he | he <;> exact ⟨_, _, he⟩
  · exact ⟨_, _, he⟩

theorem ongoing_warnings (st : Stage) : Ongoing (warnings st) := by
  intro e he
  obtain ⟨level, text, rfl⟩ := mem_events_warnings he
  rfl

/-- What is said of the comparison after programming is a message. -/
theorem exists_verdict_eq (c : Comparison) : ∃ level text, verdict c = .log level text := by
  cases c <;> exact ⟨_, _, rfl⟩

/-! ## Operations -/

namespace Activity

/-- The stage in which an operation is carried out. -/
def stage : Activity → Stage
  | compare => .compare
  | verify => .verify
  | readNvm => .backup
  | writeNvm => .restore
  | program => .program

theorem stage_injective {a b : Activity} (h : a.stage = b.stage) : a = b := by
  cases a <;> cases b <;> first | rfl | cases h

end Activity

section Operations

variable {act other : Activity} {n total : Nat}

/-- A comparison reports its own progress, whatever message follows it. -/
theorem ComparesPieces.eq_of_mem_events {size : Nat} {pieces : List Piece} {l : List Entry}
    {c : Comparison} {said : Event} (h : ComparesPieces other size pieces l c)
    (message : ∃ level text, said = .log level text)
    (told : .progress act n total ∈ events (l ++ [.event said])) : other = act := by
  rw [events_append, events_event_cons, events_nil, List.mem_append, List.mem_singleton] at told
  rcases told with told | told
  · obtain ⟨_, same⟩ := h.mem_events told
    injection same with same
    exact same.symm
  · obtain ⟨level, text, rfl⟩ := message
    cases told

/-- So does a loop that writes chunks. -/
theorem eq_of_mem_reports {α : Type} (chunk : α → Chunk) {reached : α → Nat} {size : Nat}
    {xs : List α} (told : Event.progress act n total ∈ xs.flatMap fun x =>
      [.chunkCommitted (chunk x).address (chunk x).checksum, .progress other (reached x) size]) :
    other = act := by
  obtain ⟨x, -, told⟩ := List.mem_flatMap.mp told
  rcases List.mem_cons.mp told with same | told
  · cases same
  · injection List.mem_singleton.mp told with same
    exact same.symm

/-- The progress of an operation is reported in its stage, and in no other. -/
theorem ScriptPhase.stage_of_mem_events {p : Phase} (h : ScriptPhase u image p)
    (told : .progress act n total ∈ events p.log) : p.stage = act.stage := by
  cases h with
  | compare h => exact congrArg Activity.stage (h.eq_of_mem_events ⟨_, _, rfl⟩ told)
  | @verify _ c verifies =>
    exact congrArg Activity.stage (verifies.eq_of_mem_events (exists_verdict_eq c) told)
  | backup =>
    obtain ⟨_, same⟩ := mem_events_regionTrace told
    cases same
    rfl
  | program =>
    rw [events_programTrace] at told
    exact congrArg Activity.stage (eq_of_mem_reports Piece.chunk told)
  | restore =>
    rw [events_restoreTrace] at told
    exact congrArg Activity.stage (eq_of_mem_reports id told)
  | erase => cases told
  | reset | done => simp at told

end Operations

/-! ## Scripts -/

/-- Only the phase in which an upload ends reports the end. -/
theorem ScriptPhase.ongoing {p : Phase} (h : ScriptPhase u image p)
    (not_final : p.stage.isFinal = false) : Ongoing p.log := by
  cases h with
  | compare h => exact h.ongoing.append (ongoing_event rfl)
  | backup => exact ongoing_regionTrace _ _ _
  | erase => exact fun _ he => nomatch he
  | program => exact ongoing_programTrace _ _ _
  | restore => exact ongoing_restoreTrace _ _ _ _
  | @verify _ c verifies =>
    refine verifies.ongoing.append (ongoing_event ?_)
    cases c <;> rfl
  | reset => exact ongoing_event rfl
  | done => cases not_final

theorem ScriptPhase.eq_done {p : Phase} (h : ScriptPhase u image p) (done : p.stage = .done) :
    p = ⟨.done, [.event .complete]⟩ := by
  cases h with
  | done => rfl
  | compare | backup | erase | program | restore | verify | reset => cases done

theorem walk_reflash {previous : Stage} (allowed : previous.allows .backup = true) (u : Uploader)
    (image : Image) (qs : List Quad) (verified : List Entry) (c : Comparison) :
    Walk previous (stepsThrough previous (reflashPhases u image qs verified c)) .done := by
  rw [reflashPhases, stepsThrough_append]
  refine Walk.append
    (.step allowed (.step rfl (.step rfl (.step rfl (.step rfl (.stay .verify)))))) ?_
  -- the end is reached from the verification, or through the reset
  cases u.options.reset with
  | true => exact .step rfl (.step rfl (.stay _))
  | false => exact .step rfl (.stay _)

/-- The stages of a script follow one another by allowed steps. -/
theorem Script.walk (h : Script u image ps result) :
    Walk .start (stepsThrough .start ps) .done := by
  cases h with
  | upToDate => exact .step rfl (.step rfl (.stay _))
  | differing => exact .step rfl (walk_reflash rfl ..)
  | forced => exact walk_reflash rfl ..

/-- The end is reported in the last phase of a script, and nowhere else. -/
theorem Script.exists_init (h : Script u image ps result) :
    ∃ init, ps = init ++ [⟨.done, [.event .complete]⟩] ∧ ∀ p ∈ init, Ongoing p.log := by
  have walk := h.walk
  have scripted {p : Phase} (hp : p ∈ ps) : ScriptPhase u image p := h.scripted hp
  have ends := h.lastStage_eq
  rcases List.eq_nil_or_concat ps with rfl | ⟨init, last, rfl⟩
  · cases ends
  · rw [List.concat_eq_append] at walk scripted ends ⊢
    rw [lastStage_append] at ends
    have last_eq := (scripted (List.mem_append_right _ (List.mem_singleton.mpr rfl))).eq_done ends
    -- all stages but the last are stepped on from
    refine ⟨init, by rw [last_eq], fun p hp => ?_⟩
    exact (scripted (List.mem_append_left _ hp)).ongoing (walk.not_isFinal p hp)

/-- No phase of a script steps on by itself. -/
theorem Script.steady {ps : List Phase} {result : UploadResult} (h : Script u image ps result) :
    ∀ p ∈ ps, steps p.log = [] := by
  obtain ⟨init, rfl, ongoing⟩ := h.exists_init
  refine List.forall_mem_append.mpr ⟨steady_of_ongoing ongoing, ?_⟩
  exact List.forall_mem_singleton.mpr rfl

/-- What a script visits tells how it ends: only a reprogramming erases, and only one that is to
reset the device does so. -/
theorem Script.visits (h : Script u image ps result) :
    (.reset ∈ ps.map Phase.stage ↔ ∃ restored c, result = .flashed restored c true) ∧
      (.erase ∈ ps.map Phase.stage ↔ ∃ restored c reset, result = .flashed restored c reset) := by
  have reflash (qs : List Quad) (verified : List Entry) (c : Comparison) :
      (.reset ∈ (reflashPhases u image qs verified c).map Phase.stage
          ↔ ∃ restored c', reflashResult u qs c = .flashed restored c' true) ∧
        (.erase ∈ (reflashPhases u image qs verified c).map Phase.stage
          ↔ ∃ restored c' reset, reflashResult u qs c = .flashed restored c' reset) := by
    rw [reflashPhases, reflashResult]
    cases u.options.reset <;> simp
  cases h with
  | upToDate => simp
  | differing =>
    simp only [List.map_cons, List.mem_cons, reduceCtorEq, false_or]
    exact reflash ..
  | forced => exact reflash ..

/-! ## First runs -/

/-- How a first run goes, from the state of the device before it. -/
inductive FirstRun (u : Uploader) (image : Image) (s : σ) :
    Outcome Entry (Underway σ) DfuError UploadResult → Prop
  | unfit {log : List Entry}
      (size : u.layout.maxImageSize < Layout.paddedSize image.size)
      (left : trace log = phasesLog .start [⟨.aborted, []⟩]) :
      FirstRun u image s ⟨.error (.config
        (.imageTooLarge image.size u.layout.flashBase u.layout.maxImageSize)),
        ⟨⟨.aborted, some .start⟩, s⟩, log⟩
  | goes {o : Outcome Entry (Underway σ) DfuError UploadResult}
      (fits : u.layout.checkImageFits image.size = .ok ()) (h : Goes u image o) :
      FirstRun u image s o

/-- An image that does not fit is refused in whatever stage an upload is, and nothing is done. -/
theorem pipeline_unfit (d : Device σ) (w : Underway σ)
    (h : u.layout.maxImageSize < Layout.paddedSize image.size) :
    u.pipeline d image w = ⟨.error (.config
      (.imageTooLarge image.size u.layout.flashBase u.layout.maxImageSize)), w, []⟩ := by
  unfold Uploader.pipeline
  rw [Layout.checkImageFits_of_lt h]
  exact Routine.bind_of_error (Routine.mapError_of_error (Routine.ofExcept_apply _ w) _) _

/-- So a first run of it is aborted before the first stage. -/
theorem run_unfit (d : Device σ) (s : σ)
    (h : u.layout.maxImageSize < Layout.paddedSize image.size) :
    ∃ log, u.run d image ⟨{}, s⟩ = ⟨.error (.config
        (.imageTooLarge image.size u.layout.flashBase u.layout.maxImageSize)),
        ⟨⟨.aborted, some .start⟩, s⟩, log⟩ ∧
      trace log = phasesLog .start [⟨.aborted, []⟩] ∧ calls log = [] := by
  obtain ⟨log, aborted, left, silent⟩ := abort_apply (.config
    (.imageTooLarge image.size u.layout.flashBase u.layout.maxImageSize)) s
    (rfl : Stage.start.isFinal = false)
  exact ⟨log, run_of_error (pipeline_unfit d ⟨{}, s⟩ h) aborted, left, silent⟩

/-- Every first run on an accepted layout goes one of these ways, whatever the device does. -/
theorem first_run (u : Uploader) (d : Device σ) (s : σ) (image : Image) (usable : u.layout.Usable) :
    FirstRun u image s (u.run d image ⟨{}, s⟩) := by
  by_cases size : u.layout.maxImageSize < Layout.paddedSize image.size
  · obtain ⟨log, run, left, -⟩ := run_unfit d s size
    rw [run]
    exact .unfit size left
  · have fits := Layout.checkImageFits_of_le (Nat.le_of_not_lt size)
    exact .goes fits (run_course u d s image usable fits).1

/-- After a first run an uploader is done, or aborted in some stage. -/
theorem FirstRun.isFinal {s : σ} {o : Outcome Entry (Underway σ) DfuError UploadResult}
    (h : FirstRun u image s o) : o.state.tracker.stage.isFinal = true := by
  cases h with
  | unfit => rfl
  | goes _ h =>
    cases h with
    | finished | stopped => rfl

/-- What is left of phases that an upload was still to leave, when one of them is cut short. -/
theorem ongoing_of_cut {before : List Phase} {p : Phase} {e : DfuError} {l : List Entry}
    (short : Cut p.log e l) (ongoing : ∀ q ∈ before ++ [p], Ongoing q.log) :
    ∀ q ∈ before ++ [⟨p.stage, l⟩, ⟨.aborted, warnings p.stage⟩], Ongoing q.log := by
  have begun : ∀ q ∈ before, Ongoing q.log := fun q hq => ongoing q (List.mem_append_left _ hq)
  have here : Ongoing l :=
    (ongoing p (List.mem_append_right _ (List.mem_singleton.mpr rfl))).of_cut short
  refine List.forall_mem_append.mpr ⟨begun, ?_⟩
  exact List.forall_mem_cons.mpr ⟨here, List.forall_mem_singleton.mpr (ongoing_warnings _)⟩

/-- What comes before a phase that was cut short is a walk to its stage, with logs of stages that
were still to be left. -/
theorem Script.before_cut {before after : List Phase} {p : Phase} {e : DfuError} {l : List Entry}
    (h : Script u image ps result) (split : ps = before ++ p :: after) (short : Cut p.log e l) :
    Walk .start (stepsThrough .start (before ++ [p])) p.stage ∧
      ∀ q ∈ before ++ [p], Ongoing q.log := by
  have scripted {q : Phase} (hq : q ∈ before ++ p :: after) : ScriptPhase u image q :=
    h.scripted (split ▸ hq)
  have walk := h.walk
  rw [split, List.append_cons, stepsThrough_append] at walk
  obtain ⟨st, first, -⟩ := walk_append.mp walk
  obtain rfl : st = p.stage := first.eq_lastStage.trans (lastStage_append ..)
  refine ⟨first, List.forall_mem_append.mpr ⟨fun q hq => ?_, List.forall_mem_singleton.mpr ?_⟩⟩
  -- a stage that was stepped on from is not final, nor is one that was cut
  · exact (scripted (List.mem_append_left _ hq)).ongoing (first.not_isFinal q hq)
  · have cut := scripted (List.mem_append_right _ (List.mem_cons_self ..))
    exact cut.ongoing (cut.not_isFinal short)

/-- What a phase that is left of a first run has of a script: the warnings after it, a phase of
it, or one that was cut short, which no step but the one to the aborted stage follows. -/
inductive LeftOf (ps : List Phase) (log : List Entry) (q : Phase) : Prop
  | warned {st : Stage} (h : q = ⟨.aborted, warnings st⟩)
  | whole (h : q ∈ ps)
  | cut {p : Phase} {e : DfuError} (hp : p ∈ ps) (stage : p.stage = q.stage)
      (short : Cut p.log e q.log) (last : ∀ next, (q.stage, next) ∈ steps log → next = .aborted)

/-- What is left of a first run: the phases of a script, of which the last may be cut short, with the
aborted stage after it.  The stages follow one another by allowed steps. -/
theorem Goes.exists_left {o : Outcome Entry (Underway σ) DfuError UploadResult}
    (h : Goes u image o) :
    ∃ ps result left, Script u image ps result ∧ trace o.log = phasesLog .start left ∧
      (∀ q ∈ left, steps q.log = []) ∧
      (∃ last, Walk .start (stepsThrough .start left) last) ∧ ∀ q ∈ left, LeftOf ps o.log q := by
  cases h with
  | @finished ps result s log script left =>
    exact ⟨ps, result, ps, script, left, script.steady, ⟨_, script.walk⟩, fun q hq => .whole hq⟩
  | @stopped ps before after p result e l log s script split short left =>
    obtain ⟨walk, ongoing⟩ := script.before_cut split short
    have steady := steady_of_ongoing (ongoing_of_cut short ongoing)
    have stepped := (steps_eq_of_left left steady).trans (stepsThrough_aborted ..)
    have hp : p ∈ ps := split ▸ List.mem_append_right _ (List.mem_cons_self ..)
    have allowed : p.stage.allows .aborted = true := by
      rw [Stage.allows, (script.scripted hp).not_isFinal short]
      rfl
    have whole : Walk .start (stepsThrough .start (before ++ [⟨p.stage, l⟩,
        ⟨.aborted, warnings p.stage⟩])) .aborted := by
      rw [stepsThrough_aborted]
      exact walk.append (.step allowed (.stay _))
    refine ⟨ps, result, _, script, left, steady, ⟨_, whole⟩, fun q hq => ?_⟩
    simp only [List.mem_append, List.mem_cons, List.not_mem_nil, or_false] at hq
    rcases hq with hq | rfl | rfl
    · exact .whole (split ▸ List.mem_append_left _ hq)
    · refine .cut hp rfl short fun next step => ?_
      -- the steps before lead to this stage, and none of them leaves it
      rw [stepped] at step
      rcases List.mem_append.mp step with earlier | last
      · exact absurd (walk.rank_lt_of_mem earlier) (Nat.lt_irrefl _)
      · exact (Prod.mk.inj (List.mem_singleton.mp last)).2
    · exact .warned rfl

/-- Every phase that is left is one of a script, of which the last may be cut short, or warns. -/
theorem Goes.exists_phases {o : Outcome Entry (Underway σ) DfuError UploadResult}
    (h : Goes u image o) :
    ∃ left, trace o.log = phasesLog .start left ∧ (∀ q ∈ left, steps q.log = []) ∧
      ∀ q ∈ left, (∃ st, q = ⟨.aborted, warnings st⟩) ∨
        ∃ p, ScriptPhase u image p ∧ p.stage = q.stage ∧
          (q.log = p.log ∨ ∃ e, Cut p.log e q.log) := by
  obtain ⟨ps, result, left, script, log, steady, -, phases⟩ := h.exists_left
  refine ⟨left, log, steady, fun q hq => ?_⟩
  cases phases q hq with
  | warned h => exact .inl ⟨_, h⟩
  | whole h => exact .inr ⟨q, script.scripted h, rfl, .inl rfl⟩
  | cut hp stage short => exact .inr ⟨_, script.scripted hp, stage, .inr ⟨_, short⟩⟩

/-- Every command of a first run is one of a script, in its stage. -/
theorem Goes.mem_stagedCalls {o : Outcome Entry (Underway σ) DfuError UploadResult}
    (h : Goes u image o) {st : Stage} {c : Call} (hc : (st, c) ∈ stagedCalls .start o.log) :
    ∃ p, ScriptPhase u image p ∧ p.stage = st ∧
      ∃ planned ∈ calls p.log, planned.command = c.command := by
  obtain ⟨left, log, steady, phases⟩ := h.exists_phases
  rw [stagedCalls_eq_of_left log steady] at hc
  obtain ⟨q, hq, hc⟩ := List.mem_flatMap.mp hc
  obtain ⟨made, hmade, same⟩ := List.mem_map.mp hc
  obtain ⟨rfl, rfl⟩ := Prod.mk.inj same
  rcases phases q hq with ⟨st, rfl⟩ | ⟨p, scripted, stage, whole | ⟨e, short⟩⟩
  · rw [calls_warnings] at hmade
    cases hmade
  · exact ⟨p, scripted, stage, made, whole ▸ hmade, rfl⟩
  · refine ⟨p, scripted, stage, ?_⟩
    exact List.mem_map.mp (short.halted.commands_prefix.subset (List.mem_map_of_mem hmade))

/-- Every event of a first run is one of a script, a step, or a message. -/
theorem Goes.mem_events {o : Outcome Entry (Underway σ) DfuError UploadResult}
    (h : Goes u image o) {e : Event} (he : e ∈ events o.log) :
    (∃ a b, e = .stageChanged a b) ∨ (∃ level text, e = .log level text) ∨
      ∃ p, ScriptPhase u image p ∧ e ∈ events p.log := by
  obtain ⟨left, log, -, phases⟩ := h.exists_phases
  rw [← events_trace, log] at he
  rcases mem_events_phasesLog he with step | ⟨q, hq, he⟩
  · exact .inl step
  rcases phases q hq with ⟨st, rfl⟩ | ⟨p, scripted, -, whole | ⟨e, short⟩⟩
  · exact .inr (.inl (mem_events_warnings he))
  · exact .inr (.inr ⟨p, scripted, whole ▸ he⟩)
  · exact .inr (.inr ⟨p, scripted, short.events_subset he⟩)

end CanDfu
