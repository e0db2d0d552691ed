/-
  CanDfu.Proofs.UploadCourse

  The course of a first upload, against a device that may answer anything.  An upload enters one
  stage after another, and each stage leaves a log of its own (`Phase`).  `Script` lists the
  phases of the uploads that succeed; the main statement `run_course` says that every first run
  of an image that fits follows such a script to its end, or up to one call, whose answer stops
  it in the stage the call belongs to.

  `RunsIn` carries this through the pipeline: the routine is started inside a stage, and what it
  leaves is the rest of that stage's log and the phases after it.
-/
import CanDfu.Proofs.UploadParts
import CanDfu.Upload.Uploader

namespace CanDfu

variable {σ α β : Type} {d : Device σ}

/-! ## Phases -/

/-- A stage and what was logged in it. -/
structure Phase where
  stage : Stage
  log : List Entry

/-- The logs of phases entered one after the other from a stage, with the steps between them. -/
def phasesLog : Stage → List Phase → List Entry
  | _, [] => []
  | previous, p :: rest => .event (.stageChanged previous p.stage) :: p.log ++ phasesLog p.stage rest

/-- The stage after the last phase. -/
def lastStage : Stage → List Phase → Stage
  | previous, [] => previous
  | _, p :: rest => lastStage p.stage rest

theorem phasesLog_append (previous : Stage) (ps more : List Phase) :
    phasesLog previous (ps ++ more)
      = phasesLog previous ps ++ phasesLog (lastStage previous ps) more := by
  induction ps generalizing previous with
  | nil => rfl
  | cons p rest ih => simp [phasesLog, lastStage, ih]

theorem lastStage_append (previous : Stage) (ps : List Phase) (p : Phase) :
    lastStage previous (ps ++ [p]) = p.stage := by
  induction ps generalizing previous with
  | nil => rfl
  | cons q rest ih => exact ih q.stage

/-- The calls of the phases, in order. -/
def phaseCalls (ps : List Phase) : List Call := ps.flatMap fun p => calls p.log

@[simp] theorem phaseCalls_nil : phaseCalls [] = [] := rfl

@[simp] theorem phaseCalls_cons (p : Phase) (ps : List Phase) :
    phaseCalls (p :: ps) = calls p.log ++ phaseCalls ps := rfl

@[simp] theorem phaseCalls_append (ps more : List Phase) :
    phaseCalls (ps ++ more) = phaseCalls ps ++ phaseCalls more :=
  List.flatMap_append

theorem calls_phasesLog (previous : Stage) (ps : List Phase) :
    calls (phasesLog previous ps) = phaseCalls ps := by
  induction ps generalizing previous with
  | nil => rfl
  | cons p rest ih => simp [phasesLog, ih]

/-! ## Running inside a stage -/

/-- Stopping in `st` or in a later stage.  `P` describes the rest of the log of `st`, the phases
after it, and the value. -/
inductive Course (st : Stage) (P : List Entry → List Phase → α → Prop) :
    Outcome Entry (Underway σ) DfuError α → Prop
  | complete {a : α} {head : List Entry} {rest : List Phase} {s : σ} {log : List Entry}
      (h : P head rest a) (left : trace log = head ++ phasesLog st rest) :
      Course st P ⟨.ok a, ⟨⟨lastStage st rest, none⟩, s⟩, log⟩
  | cutHere {a : α} {e : DfuError} {head : List Entry} {rest : List Phase} {s : σ}
      {log : List Entry} (h : P head rest a) (short : Cut head e (trace log)) :
      Course st P ⟨.error e, ⟨⟨st, none⟩, s⟩, log⟩
  | cutLater {a : α} {e : DfuError} {head l : List Entry} {rest before after : List Phase}
      {p : Phase} {s : σ} {log : List Entry} (h : P head rest a) (split : rest = before ++ p :: after)
      (short : Cut p.log e l) (left : trace log = head ++ phasesLog st (before ++ [⟨p.stage, l⟩])) :
      Course st P ⟨.error e, ⟨⟨p.stage, none⟩, s⟩, log⟩

/-- Started in `st`, the routine takes a course that `P` describes, and its journal is true. -/
def RunsIn (d : Device σ) (st : Stage) (r : Routine Entry (Underway σ) DfuError α)
    (P : List Entry → List Phase → α → Prop) : Prop :=
  ∀ s, Course st P (r ⟨⟨st, none⟩, s⟩) ∧
    d.Ran s (calls (r ⟨⟨st, none⟩, s⟩).log) (r ⟨⟨st, none⟩, s⟩).state.device

variable {st : Stage}

/-- Some course can always be taken. -/
theorem Course.exists {P : List Entry → List Phase → α → Prop}
    {o : Outcome Entry (Underway σ) DfuError α} (h : Course st P o) :
    ∃ head rest a, P head rest a := by
  cases h with
  | complete h _ => exact ⟨_, _, _, h⟩
  | cutHere h _ => exact ⟨_, _, _, h⟩
  | cutLater h _ _ _ => exact ⟨_, _, _, h⟩

theorem RunsIn.mono {r : Routine Entry (Underway σ) DfuError α}
    {P Q : List Entry → List Phase → α → Prop} (h : RunsIn d st r P)
    (weaker : ∀ head rest a, P head rest a → Q head rest a) : RunsIn d st r Q := by
  intro s
  obtain ⟨course, ran⟩ := h s
  refine ⟨?_, ran⟩
  generalize r ⟨⟨st, none⟩, s⟩ = o at course
  cases course with
  | complete h left => exact .complete (weaker _ _ _ h) left
  | cutHere h short => exact .cutHere (weaker _ _ _ h) short
  | cutLater h split short left => exact .cutLater (weaker _ _ _ h) split short left

theorem runsIn_pure {P : List Entry → List Phase → α → Prop} {a : α} (h : P [] [] a) :
    RunsIn d st (pure a) P :=
  fun s => ⟨.complete h rfl, .nil s⟩

/-- A log that was there before moves in front of the course. -/
theorem Course.prepend {P Q : List Entry → List Phase → α → Prop} {a : Except DfuError α}
    {u : Underway σ} {before log more : List Entry} (h : Course st P ⟨a, u, more⟩)
    (same : trace log = before ++ trace more)
    (later : ∀ head rest a, P head rest a → Q (before ++ head) rest a) :
    Course st Q ⟨a, u, log⟩ := by
  cases h with
  | complete h left =>
    refine .complete (later _ _ _ h) ?_
    rw [same, left, List.append_assoc]
  | cutHere h short =>
    refine .cutHere (later _ _ _ h) ?_
    rw [same]
    exact short.append_left before
  | cutLater h split short left =>
    refine .cutLater (later _ _ _ h) split short ?_
    rw [same, left, List.append_assoc]

/-- A routine of the device runs inside the stage the upload is in. -/
theorem runsIn_onDevice_bind {r : Routine Entry σ DfuError α}
    {f : α → Routine Entry (Underway σ) DfuError β} {B : List Entry → α → Prop}
    {P : List Entry → List Phase → β → Prop} (first : Conforms d r B)
    (second : ∀ l a, B l a → RunsIn d st (f a) fun head rest b => P (l ++ head) rest b) :
    RunsIn d st (Uploader.onDevice r >>= f) P := by
  intro s
  obtain ⟨left, ran⟩ := first s
  have lifted : Uploader.onDevice r ⟨⟨st, none⟩, s⟩
      = ⟨(r s).result, ⟨⟨st, none⟩, (r s).state⟩, (r s).log⟩ := rfl
  generalize r s = o at left ran lifted
  cases left with
  | @complete a s' log h =>
    rw [Routine.bind_of_ok lifted]
    obtain ⟨course, ran'⟩ := second _ _ h s'
    exact ⟨course.prepend trace_append fun _ _ _ h => h, calls_append ▸ ran.append ran'⟩
  | @cut a e s' full log h short =>
    rw [Routine.bind_of_error lifted]
    -- the stage is cut here, whatever phases would have come after it
    obtain ⟨head, rest, b, h'⟩ := (second _ _ h s').1.exists
    exact ⟨.cutHere h' (short.append_right head), ran⟩

/-- An event is logged in the stage the upload is in. -/
theorem runsIn_event_bind {e : Event} {f : Unit → Routine Entry (Underway σ) DfuError β}
    {P : List Entry → List Phase → β → Prop}
    (h : RunsIn d st (f ()) fun head rest b => P (.event e :: head) rest b) :
    RunsIn d st (Routine.emit (.event e) >>= f) P := by
  intro s
  obtain ⟨course, ran⟩ := h s
  rw [Routine.bind_of_ok (Routine.emit_apply _ _)]
  exact ⟨course.prepend trace_append fun _ _ _ h => h,
    calls_append ▸ ran⟩

theorem runsIn_record_bind {level : Level} {message : String} {fields : List (String × String)}
    {f : Unit → Routine Entry (Underway σ) DfuError β} {P : List Entry → List Phase → β → Prop}
    (h : RunsIn d st (f ()) P) :
    RunsIn d st (Routine.emit (.ofRecord level message fields) >>= f) P := by
  intro s
  obtain ⟨course, ran⟩ := h s
  rw [Routine.bind_of_ok (Routine.emit_apply _ _)]
  exact ⟨course.prepend trace_append fun _ _ _ h => h, calls_append ▸ ran⟩

/-- A routine that only hands on a value leaves nothing behind. -/
theorem runsIn_silent_bind {r : Routine Entry (Underway σ) DfuError α} {a : α}
    {f : α → Routine Entry (Underway σ) DfuError β} {P : List Entry → List Phase → β → Prop}
    (silent : ∀ u, r u = ⟨.ok a, u, []⟩) (h : RunsIn d st (f a) P) :
    RunsIn d st (r >>= f) P := by
  intro s
  rw [Routine.bind_of_ok (silent _)]
  exact h s

/-- An allowed step, journaled. -/
theorem goto_apply {next : Stage} (u : Underway σ) (allowed : u.tracker.stage.allows next = true) :
    Uploader.goto next u
      = ⟨.ok (), ⟨⟨next, if next = .aborted then some u.tracker.stage else u.tracker.abortedIn⟩,
          u.device⟩,
        [.ofRecord .debug "State transition"
          [("from", u.tracker.stage.label), ("to", next.label)],
          .event (.stageChanged u.tracker.stage next)]⟩ := by
  unfold Uploader.goto
  have advanced : u.tracker.advance next
      = .ok ⟨next, if next = .aborted then some u.tracker.stage else u.tracker.abortedIn⟩ := by
    rw [Tracker.advance, if_pos allowed]
  rw [Routine.bind_of_ok (rfl : Routine.get u = _), advanced]
  rfl

/-- A step begins a phase; the stage it leaves logs nothing more. -/
theorem runsIn_goto_bind {next : Stage} {f : Unit → Routine Entry (Underway σ) DfuError β}
    {P : List Entry → List Phase → β → Prop} (allowed : st.allows next = true)
    (goes_on : next ≠ .aborted)
    (h : RunsIn d next (f ()) fun head rest b => P [] (⟨next, head⟩ :: rest) b) :
    RunsIn d st (Uploader.goto next >>= f) P := by
  intro s
  obtain ⟨course, ran⟩ := h s
  have stepped := goto_apply ⟨⟨st, none⟩, s⟩ allowed
  rw [if_neg goes_on] at stepped
  rw [Routine.bind_of_ok stepped]
  refine ⟨?_, calls_append ▸ ran⟩
  generalize f () ⟨⟨next, none⟩, s⟩ = o at course
  cases course with
  | complete h left =>
    refine .complete h ?_
    rw [trace_append, left]
    rfl
  -- a call that stops the new phase belongs to the first phase from here
  | cutHere h short =>
    refine .cutLater h (List.nil_append _).symm short ?_
    rw [trace_append]
    simp [phasesLog]
  | cutLater h split short left =>
    refine .cutLater h (split ▸ (List.cons_append ..).symm) short ?_
    rw [trace_append, left]
    rfl

/-! ## The script of an upload -/

/-- What is said about the comparison after programming. -/
def verdict : Comparison → Event
  | .identical => .log .info "Verification passed"
  | .differs address expected actual => .log .error
      s!"Verification failed at {Hex.address address}: expected {Hex.address expected}, read {Hex.address actual}"

/-- The phases of an upload that reprograms a device whose NVM region holds some quads. -/
def reflashPhases (u : Uploader) (image : Image) (qs : List Quad) (verified : List Entry)
    (c : Comparison) : List Phase :=
  [⟨.backup, regionTrace u.layout.nvmBase u.layout.nvmSize.toNat 0 qs⟩,
    ⟨.erase, [.call (.erase u.writer.form.seed) (.ok (0 : UInt8))]⟩,
    ⟨.program, programTrace u.writer image.size (image.pieces u.layout.flashBase)⟩,
    ⟨.restore, restoreTrace u.writer u.layout.nvmBase (chunkBytes * qs.length)
      (dirtyChunks u.layout.nvmBase qs)⟩,
    ⟨.verify, verified ++ [.event (verdict c)]⟩] ++
    ((if u.options.reset then
      [⟨.reset, [.call .reset (.ok ()), .event (.log .info "Device reset")]⟩] else []) ++
    [⟨.done, [.event .complete]⟩])

/-- The result of an upload that reprograms a device. -/
def reflashResult (u : Uploader) (qs : List Quad) (c : Comparison) : UploadResult :=
  .flashed ((dirtyChunks u.layout.nvmBase qs).length != 0) c u.options.reset

/-- The reads of the comparison after programming end with what it finds. -/
abbrev Verifies (u : Uploader) (image : Image) (verified : List Entry) (c : Comparison) : Prop :=
  ComparesPieces .verify image.size (image.pieces u.layout.flashBase) verified c

/-- The phases of an upload that succeeds, and its result. -/
inductive Script (u : Uploader) (image : Image) : List Phase → UploadResult → Prop
  | upToDate {l : List Entry} (compared : u.options.force = false)
      (h : ComparesPieces .compare image.size (image.pieces u.layout.flashBase) l .identical) :
      Script u image
        [⟨.compare, l ++ [.event (.log .info "Device firmware matches the image, nothing to do")]⟩,
          ⟨.done, [.event .complete]⟩] .upToDate
  | differing {l verified : List Entry} {a w v : UInt32} {qs : List Quad} {c : Comparison}
      (compared : u.options.force = false)
      (h : ComparesPieces .compare image.size (image.pieces u.layout.flashBase) l (.differs a w v))
      (read : qs.length = u.layout.nvmChunks) (verifies : Verifies u image verified c) :
      Script u image
        (⟨.compare, l ++ [.event (.log .info "Device firmware differs from the image")]⟩ ::
          reflashPhases u image qs verified c) (reflashResult u qs c)
  | forced {verified : List Entry} {qs : List Quad} {c : Comparison}
      (forced : u.options.force = true) (read : qs.length = u.layout.nvmChunks)
      (verifies : Verifies u image verified c) :
      Script u image (reflashPhases u image qs verified c) (reflashResult u qs c)

/-- The phases there are in scripts. -/
inductive ScriptPhase (u : Uploader) (image : Image) : Phase → Prop
  | compare {l : List Entry} {c : Comparison} {text : String}
      (h : ComparesPieces .compare image.size (image.pieces u.layout.flashBase) l c) :
      ScriptPhase u image ⟨.compare, l ++ [.event (.log .info text)]⟩
  | backup {qs : List Quad} (read : qs.length = u.layout.nvmChunks) :
      ScriptPhase u image ⟨.backup, regionTrace u.layout.nvmBase u.layout.nvmSize.toNat 0 qs⟩
  | erase : ScriptPhase u image ⟨.erase, [.call (.erase u.writer.form.seed) (.ok (0 : UInt8))]⟩
  | program : ScriptPhase u image
      ⟨.program, programTrace u.writer image.size (image.pieces u.layout.flashBase)⟩
  | restore {qs : List Quad} (read : qs.length = u.layout.nvmChunks) :
      ScriptPhase u image ⟨.restore, restoreTrace u.writer u.layout.nvmBase (chunkBytes * qs.length)
        (dirtyChunks u.layout.nvmBase qs)⟩
  | verify {verified : List Entry} {c : Comparison} (verifies : Verifies u image verified c) :
      ScriptPhase u image ⟨.verify, verified ++ [.event (verdict c)]⟩
  | reset : ScriptPhase u image
      ⟨.reset, [.call .reset (.ok ()), .event (.log .info "Device reset")]⟩
  | done : ScriptPhase u image ⟨.done, [.event .complete]⟩

theorem scripted_reflash {u : Uploader} {image : Image} {qs : List Quad} {verified : List Entry}
    {c : Comparison} (read : qs.length = u.layout.nvmChunks)
    (verifies : Verifies u image verified c) {p : Phase}
    (hp : p ∈ reflashPhases u image qs verified c) : ScriptPhase u image p := by
  simp only [reflashPhases, List.mem_append, List.mem_cons, List.not_mem_nil, or_false] at hp
  rcases hp with (rfl | rfl | rfl | rfl | rfl) | hp | rfl
  · exact .backup read
  · exact .erase
  · exact .program
  · exact .restore read
  · exact .verify verifies
  · split at hp
    · rw [List.mem_singleton.mp hp]
      exact .reset
    · cases hp
  · exact .done

/-- What holds of each of these phases holds of every phase of a script. -/
theorem Script.scripted {u : Uploader} {image : Image} {ps : List Phase} {result : UploadResult}
    (h : Script u image ps result) {p : Phase} (hp : p ∈ ps) : ScriptPhase u image p := by
  cases h with
  | upToDate compared h =>
    simp only [List.mem_cons, List.not_mem_nil, or_false] at hp
    rcases hp with rfl | rfl
    · exact .compare h
    · exact .done
  | differing compared h read verifies =>
    rcases List.mem_cons.mp hp with rfl | hp
    · exact .compare h
    · exact scripted_reflash read verifies hp
  | forced forced read verifies => exact scripted_reflash read verifies hp

theorem runsIn_reflash (u : Uploader) (image : Image) (usable : u.layout.Usable)
    (allowed : st.allows .backup = true) :
    RunsIn d st (u.reflash d image) fun head rest result =>
      ∃ qs verified c, qs.length = u.layout.nvmChunks ∧ Verifies u image verified c ∧
        head = [] ∧ rest = reflashPhases u image qs verified c ∧ result = reflashResult u qs c := by
  unfold Uploader.reflash
  -- backing up the NVM region
  refine runsIn_goto_bind allowed (by decide) ?_
  refine runsIn_onDevice_bind (conforms_backup usable) ?_
  rintro _ _ ⟨qs, read, rfl, rfl⟩
  refine runsIn_goto_bind rfl (by decide) ?_
  -- erasing, programming, and restoring
  refine runsIn_onDevice_bind (conforms_erase u.writer) ?_
  rintro _ _ rfl
  refine runsIn_goto_bind rfl (by decide) ?_
  refine runsIn_onDevice_bind (conforms_program u.writer _ image) ?_
  rintro _ _ rfl
  refine runsIn_goto_bind rfl (by decide) ?_
  refine runsIn_onDevice_bind (conforms_restore u.writer qs) ?_
  rintro _ _ ⟨rfl, rfl⟩
  refine runsIn_goto_bind rfl (by decide) ?_
  -- verifying, and saying what was found
  refine runsIn_onDevice_bind (conforms_ofImage _ image .verify) ?_
  intro verified c verifies
  have said : Uploader.reportVerification (σ := σ) c = Routine.emit (.event (verdict c)) := by
    cases c <;> rfl
  rw [said]
  refine runsIn_event_bind ?_
  -- the reset, and the end
  split
  · next reset =>
    refine runsIn_goto_bind rfl (by decide) ?_
    refine runsIn_onDevice_bind
      (conforms_issue (P := fun l _ => l = [.call .reset (.ok ())]) fun _ => rfl) ?_
    rintro _ _ rfl
    refine runsIn_event_bind (runsIn_goto_bind rfl (by decide) (runsIn_event_bind ?_))
    refine runsIn_pure ⟨qs, verified, c, read, verifies, rfl, ?_, rfl⟩
    simp [reflashPhases, reset]
  · next reset =>
    refine runsIn_goto_bind rfl (by decide) (runsIn_event_bind ?_)
    refine runsIn_pure ⟨qs, verified, c, read, verifies, rfl, ?_, rfl⟩
    simp [reflashPhases, reset]

/-- The stages of an upload of an image that fits. -/
theorem runsIn_pipeline (u : Uploader) (image : Image) (usable : u.layout.Usable)
    (fits : u.layout.checkImageFits image.size = .ok ()) :
    RunsIn d .start (u.pipeline d image) fun head rest result =>
      head = [] ∧ Script u image rest result := by
  unfold Uploader.pipeline
  rw [fits]
  refine runsIn_silent_bind (fun _ => rfl) ?_
  -- only an upload that is not forced compares first
  split
  · next forced =>
    refine runsIn_record_bind ((runsIn_reflash u image usable rfl).mono ?_)
    rintro _ _ _ ⟨qs, verified, c, read, verifies, rfl, rfl, rfl⟩
    exact ⟨rfl, .forced forced read verifies⟩
  · next compared =>
    have compared : u.options.force = false := Bool.eq_false_iff.mpr compared
    refine runsIn_goto_bind rfl (by decide) ?_
    refine runsIn_onDevice_bind (conforms_ofImage _ image .compare) ?_
    intro l c h
    cases c with
    | identical =>
      refine runsIn_event_bind (runsIn_goto_bind rfl (by decide) (runsIn_event_bind ?_))
      exact runsIn_pure ⟨rfl, .upToDate compared h⟩
    | differs a w v =>
      refine runsIn_event_bind ((runsIn_reflash u image usable rfl).mono ?_)
      rintro _ _ _ ⟨qs, verified, c, read, verifies, rfl, rfl, rfl⟩
      exact ⟨rfl, .differing compared h read verifies⟩

/-! ## Whole runs -/

/-- A session keeps to the command form its device asks for. -/
theorem seed_negotiate (d : Device σ) (s : σ) : (CommandForm.negotiate d s).seed = d.seed s := by
  unfold CommandForm.negotiate
  cases d.seed s <;> rfl

/-- What the operator is warned of when an upload stops in a stage. -/
def warnings : Stage → List Entry
  | .erase => [.event (.log .warn
      "Erase did not complete; firmware and NVM config may have been erased")]
  | .program => [.event (.log .warn "Device firmware is invalid until reflashed"),
      .event (.log .warn "NVM config was erased and has not been restored")]
  | .restore => [.event (.log .warn "NVM config was only partially restored")]
  | _ => []

theorem calls_warnings (st : Stage) : calls (warnings st) = [] := by
  cases st <;> rfl

/-- What a first run leaves: all phases of a script, or its phases up to a call that stops it,
the step to the aborted stage, and the warnings. -/
inductive Goes (u : Uploader) (image : Image) : Outcome Entry (Underway σ) DfuError UploadResult → Prop
  | finished {ps : List Phase} {result : UploadResult} {s : σ} {log : List Entry}
      (script : Script u image ps result) (left : trace log = phasesLog .start ps) :
      Goes u image ⟨.ok result, ⟨⟨.done, none⟩, s⟩, log⟩
  | stopped {ps before after : List Phase} {p : Phase} {result : UploadResult} {e : DfuError}
      {l log : List Entry} {s : σ} (script : Script u image ps result)
      (split : ps = before ++ p :: after) (short : Cut p.log e l)
      (left : trace log
        = phasesLog .start (before ++ [⟨p.stage, l⟩, ⟨.aborted, warnings p.stage⟩])) :
      Goes u image ⟨.error e, ⟨⟨.aborted, some p.stage⟩, s⟩, log⟩

/-- An upload that succeeds is done. -/
theorem Script.lastStage_eq {u : Uploader} {image : Image} {ps : List Phase}
    {result : UploadResult} (h : Script u image ps result) : lastStage .start ps = .done := by
  have reflash (previous : Stage) (qs : List Quad) (verified : List Entry) (c : Comparison) :
      lastStage previous (reflashPhases u image qs verified c) = .done := by
    rw [reflashPhases, ← List.append_assoc, lastStage_append]
  cases h with
  | upToDate => rfl
  | @differing l verified a w v qs c => exact reflash .compare qs verified c
  | @forced verified qs c => exact reflash .start qs verified c

/-- Nothing is called in a final stage, so no upload stops there. -/
theorem ScriptPhase.not_isFinal {u : Uploader} {image : Image} {p : Phase} {e : DfuError}
    {l : List Entry} (h : ScriptPhase u image p) (short : Cut p.log e l) :
    p.stage.isFinal = false := by
  cases h with
  | done => exact absurd short.halted not_halted_nil
  | compare | backup | erase | program | restore | verify | reset => rfl

/-- Aborting in a stage that is not final steps to the aborted stage and warns. -/
theorem abort_apply {last : Stage} (e : DfuError) (s : σ) (h : last.isFinal = false) :
    ∃ log, Uploader.abort e ⟨⟨last, none⟩, s⟩ = ⟨.ok (), ⟨⟨.aborted, some last⟩, s⟩, log⟩ ∧
      trace log = .event (.stageChanged last .aborted) :: warnings last ∧ calls log = [] := by
  have allowed : last.allows .aborted = true := by
    cases last <;> first | rfl | exact absurd h (by decide)
  have stepped := goto_apply (⟨⟨last, none⟩, s⟩ : Underway σ) allowed
  rw [if_pos rfl] at stepped
  unfold Uploader.abort
  rw [Routine.bind_of_ok (rfl : Routine.get _ = _)]
  simp only [h, Bool.not_false, if_true]
  rw [Routine.bind_of_ok stepped, Routine.bind_of_ok (rfl : Routine.get _ = _)]
  cases last <;> exact ⟨_, rfl, rfl, rfl⟩

/-- A pipeline that succeeds is the run. -/
theorem run_of_ok {u : Uploader} {d : Device σ} {image : Image} {w w' : Underway σ}
    {result : UploadResult} {log : List Entry}
    (succeeded : u.pipeline d image w = ⟨.ok result, w', log⟩) :
    u.run d image w = ⟨.ok result, w', log⟩ := by
  have attempted : (u.pipeline d image).attempt w
      = (⟨.ok (.ok result), w', log⟩ : Outcome Entry (Underway σ) DfuError _) := by
    show Routine.attempt _ _ = _
    rw [Routine.attempt, succeeded]
  unfold Uploader.run
  rw [Routine.bind_of_ok attempted]
  simp

/-- A pipeline that fails is aborted, and the run fails as it did. -/
theorem run_of_error {u : Uploader} {d : Device σ} {image : Image} {w w' w'' : Underway σ}
    {e : DfuError} {log more : List Entry}
    (failed : u.pipeline d image w = ⟨.error e, w', log⟩)
    (aborted : Uploader.abort e w' = ⟨.ok (), w'', more⟩) :
    u.run d image w = ⟨.error e, w'', log ++ more⟩ := by
  have attempted : (u.pipeline d image).attempt w
      = (⟨.ok (.error e), w', log⟩ : Outcome Entry (Underway σ) DfuError _) := by
    show Routine.attempt _ _ = _
    rw [Routine.attempt, failed]
  unfold Uploader.run
  rw [Routine.bind_of_ok attempted]
  simp only
  rw [Routine.bind_of_ok aborted]
  simp

/-- Every first run of an image that fits follows a script, to its end or to a call that stops
it, whatever the device does; and its journal is true. -/
theorem run_course (u : Uploader) (d : Device σ) (s : σ) (image : Image) (usable : u.layout.Usable)
    (fits : u.layout.checkImageFits image.size = .ok ()) :
    Goes u image (u.run d image ⟨{}, s⟩) ∧
      d.Ran s (calls (u.run d image ⟨{}, s⟩).log) (u.run d image ⟨{}, s⟩).state.device := by
  obtain ⟨course, ran⟩ := runsIn_pipeline u image usable fits s
  generalize ho : u.pipeline d image ⟨⟨.start, none⟩, s⟩ = o at course ran
  -- what the pipeline left decides whether the run aborts
  cases course with
  | complete h left =>
    obtain ⟨rfl, script⟩ := h
    rw [script.lastStage_eq] at ho ran
    rw [run_of_ok ho]
    exact ⟨.finished script left, ran⟩
  | cutHere h short =>
    obtain ⟨rfl, -⟩ := h
    -- before the first stage nothing is called
    exact absurd short not_cut_nil
  | cutLater h split short left =>
    obtain ⟨rfl, script⟩ := h
    have cut := script.scripted (split ▸ List.mem_append_right _ (List.mem_cons_self ..))
    have not_final := cut.not_isFinal short
    obtain ⟨more, aborted, left', silent⟩ := abort_apply _ _ not_final
    rw [run_of_error ho aborted]
    refine ⟨.stopped script split short ?_, ?_⟩
    · rw [trace_append, left, left', List.nil_append]
      simp [phasesLog_append, phasesLog]
    · simpa [silent] using ran

/-! ## The device's side of a run -/

/-- The device carries out phases up to a call whose answer stops one of them, in its stage. -/
inductive StopsIn (d : Device σ) (e : DfuError) (st : Stage) :
    σ → List Phase → List Call → σ → Prop
  | here {s s' : σ} {p : Phase} {rest : List Phase} {made : List Call} (stage : p.stage = st)
      (halted : Halted (calls p.log) e made) (ran : d.Ran s made s') :
      StopsIn d e st s (p :: rest) made s'
  | later {s s₁ s' : σ} {p : Phase} {rest : List Phase} {made : List Call}
      (ran : d.Ran s (calls p.log) s₁) (h : StopsIn d e st s₁ rest made s') :
      StopsIn d e st s (p :: rest) (calls p.log ++ made) s'

theorem StopsIn.of_append {s s' : σ} {before after : List Phase} {p : Phase} {e : DfuError}
    {made : List Call} (halted : Halted (calls p.log) e made)
    (ran : d.Ran s (phaseCalls before ++ made) s') :
    StopsIn d e p.stage s (before ++ p :: after) (phaseCalls before ++ made) s' := by
  induction before generalizing s with
  | nil => exact .here rfl halted ran
  | cons q rest ih =>
    rw [phaseCalls_cons, List.append_assoc] at ran ⊢
    obtain ⟨s₁, first, ran⟩ := Device.ran_append.mp ran
    exact .later first (ih ran)

/-- An upload of two lists of phases stops in the first, or goes through it and stops in the
second. -/
theorem StopsIn.cases_append {s s' : σ} {ps more : List Phase} {e : DfuError} {made : List Call}
    (h : StopsIn d e st s (ps ++ more) made s') :
    StopsIn d e st s ps made s' ∨
      ∃ s₁ rest, made = phaseCalls ps ++ rest ∧ StopsIn d e st s₁ more rest s' := by
  induction ps generalizing s made with
  | nil => exact .inr ⟨s, made, rfl, h⟩
  | cons p rest ih =>
    cases h with
    | here stage halted ran => exact .inl (.here stage halted ran)
    | later ran h =>
      rcases ih h with first | ⟨s₁, made', rfl, second⟩
      · exact .inl (.later ran first)
      · exact .inr ⟨s₁, made', (List.append_assoc ..).symm, second⟩

/-- Calls that stop an upload are those of its phases, cut short. -/
theorem StopsIn.halted {s s' : σ} {ps : List Phase} {e : DfuError} {made : List Call}
    (h : StopsIn d e st s ps made s') : Halted (phaseCalls ps) e made := by
  induction h with
  | here _ halted _ => exact halted_append.mpr (.inl halted)
  | later _ _ ih => exact halted_append.mpr (.inr ⟨_, rfl, ih⟩)

/-- How a first run ends, with what the device was asked and has become. -/
inductive Ends (u : Uploader) (d : Device σ) (s : σ) (image : Image) :
    Outcome Entry (Underway σ) DfuError UploadResult → Prop
  | finished {ps : List Phase} {result : UploadResult} {s' : σ} {log : List Entry}
      (script : Script u image ps result) (ran : d.Ran s (phaseCalls ps) s')
      (made : calls log = phaseCalls ps) : Ends u d s image ⟨.ok result, ⟨⟨.done, none⟩, s'⟩, log⟩
  | stopped {ps : List Phase} {result : UploadResult} {e : DfuError} {st : Stage} {s' : σ}
      {log : List Entry} (script : Script u image ps result)
      (stops : StopsIn d e st s ps (calls log) s') :
      Ends u d s image ⟨.error e, ⟨⟨.aborted, some st⟩, s'⟩, log⟩

theorem run_ends (u : Uploader) (d : Device σ) (s : σ) (image : Image) (usable : u.layout.Usable)
    (fits : u.layout.checkImageFits image.size = .ok ()) :
    Ends u d s image (u.run d image ⟨{}, s⟩) := by
  obtain ⟨goes, ran⟩ := run_course u d s image usable fits
  generalize u.run d image ⟨{}, s⟩ = o at goes ran
  cases goes with
  | @finished ps result s' log script left =>
    have made : calls log = phaseCalls ps := by rw [← calls_trace, left, calls_phasesLog]
    exact .finished script (made ▸ ran) made
  | @stopped ps before after p result e l log s' script split short left =>
    have made : calls log = phaseCalls before ++ calls l := by
      rw [← calls_trace, left, calls_phasesLog]
      simp [calls_warnings]
    refine .stopped script ?_
    rw [split, made]
    exact .of_append short.halted (made ▸ ran)

end CanDfu
