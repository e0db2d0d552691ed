/-
  CanDfu.Proofs.StageAgreement

  What a first run returns, what its tracker says and what it reported agree.

    success    the tracker is done, the end is reported once and last, and the stages that were
               reported tell what was done to the device
    failure    the tracker is aborted in the stage of the call or the check that failed, which is
               the stage the last reported step left, and no end is reported

  Either way the reported steps lead from the first stage to the one the tracker is in.
-/
import CanDfu.Proofs.CallDiscipline
import CanDfu.Proofs.FirstRun

namespace CanDfu

variable {σ : Type} {u : Uploader} {image : Image}

/-- The stages that were reported as entered, in order. -/
def visited (log : List Entry) : List Stage := (steps log).map Prod.snd

/-- Where a failure comes from: the check of the image, before the first stage, or the answer to
the last call, in the stage the call was made in. -/
inductive ArisesIn (u : Uploader) (image : Image) (log : List Entry) : Stage → DfuError → Prop
  | check {cause : ConfigError} (refused : u.layout.checkImageFits image.size = .error cause)
      (silent : calls log = []) : ArisesIn u image log .start (.config cause)
  | call {st : Stage} {good bad : Call} {e : DfuError}
      (last : (stagedCalls .start log).getLast? = some (st, bad)) (stops : Stops good bad e) :
      ArisesIn u image log st e

/-- What agrees with a success. -/
structure DoneWith (log : List Entry) (tracker : Tracker) (result : UploadResult) : Prop where
  tracker : tracker = ⟨.done, none⟩
  once : (events log).count .complete = 1
  last : (events log).getLast? = some .complete
  reset : .reset ∈ visited log ↔ ∃ restored c, result = .flashed restored c true
  erase : .erase ∈ visited log ↔ ∃ restored c reset, result = .flashed restored c reset

/-- What agrees with a failure in a stage. -/
structure AbortedIn (u : Uploader) (image : Image) (log : List Entry) (tracker : Tracker)
    (e : DfuError) (st : Stage) : Prop where
  tracker : tracker = ⟨.aborted, some st⟩
  last : (steps log).getLast? = some (st, .aborted)
  not_complete : .complete ∉ events log
  arises : ArisesIn u image log st e

/-- The reported steps lead to the stage the run ended in, and its result agrees with its tracker
and with all that was reported.  No failure is a step that was not allowed. -/
structure Agrees (u : Uploader) (image : Image)
    (o : Outcome Entry (Underway σ) DfuError UploadResult) : Prop where
  walk : Walk .start (steps o.log) o.state.tracker.stage
  done : ∀ result, o.result = .ok result → DoneWith o.log o.state.tracker result
  aborted : ∀ e, o.result = .error e → ∃ st, AbortedIn u image o.log o.state.tracker e st
  allowed : ∀ a b, o.result ≠ .error (.invalidTransition a b)

/-! ## Successes -/

/-- No end is reported in stages that are still to be left. -/
theorem not_complete_phasesLog {ps : List Phase} {previous : Stage}
    (ongoing : ∀ p ∈ ps, Ongoing p.log) : Event.complete ∉ events (phasesLog previous ps) := by
  intro he
  rcases mem_events_phasesLog he with ⟨a, b, h⟩ | ⟨p, hp, h⟩
  · cases h
  · exact (ongoing p hp).not_complete h

theorem Script.doneWith {ps : List Phase} {result : UploadResult} {log : List Entry}
    (h : Script u image ps result) (left : trace log = phasesLog .start ps) :
    DoneWith log ⟨.done, none⟩ result := by
  have stages : visited log = ps.map Phase.stage := by
    rw [visited, steps_eq_of_left left h.steady, map_snd_stepsThrough]
  obtain ⟨init, ends, ongoing⟩ := h.exists_init
  have before : Event.complete ∉ events (phasesLog .start init) := not_complete_phasesLog ongoing
  have reported : events log = events (phasesLog .start init) ++
      [.stageChanged (lastStage .start init) .done, .complete] := by
    rw [← events_trace, left, ends, phasesLog_append, events_append]
    rfl
  refine ⟨rfl, ?_, ?_, stages ▸ h.visits.1, stages ▸ h.visits.2⟩
  · rw [reported, List.count_append, List.count_eq_zero.mpr before]
    rfl
  · rw [reported, List.getLast?_append]
    rfl

/-! ## Failures -/

/-- Phases up to one that was cut, and the step to the aborted stage. -/
theorem abortedIn_of_cut (u : Uploader) (image : Image) {before : List Phase} {p : Phase}
    {l log : List Entry} {e : DfuError} (short : Cut p.log e l)
    (ongoing : ∀ q ∈ before ++ [p], Ongoing q.log)
    (left : trace log
      = phasesLog .start (before ++ [⟨p.stage, l⟩, ⟨.aborted, warnings p.stage⟩])) :
    steps log = stepsThrough .start (before ++ [p]) ++ [(p.stage, .aborted)] ∧
      AbortedIn u image log ⟨.aborted, some p.stage⟩ e p.stage := by
  have all := ongoing_of_cut short ongoing
  have stepped : steps log = stepsThrough .start (before ++ [p]) ++ [(p.stage, .aborted)] := by
    rw [steps_eq_of_left left (steady_of_ongoing all), stepsThrough_aborted]
  refine ⟨stepped, rfl, ?_, ?_, ?_⟩
  · rw [stepped, List.getLast?_append]
    rfl
  · rw [← events_trace, left]
    exact not_complete_phasesLog all
  -- the answer that cut the phase is to its last call, and nothing is called after it
  · obtain ⟨made, good, bad, -, -, called, stops⟩ := short.halted
    refine .call ?_ stops
    rw [stagedCalls_eq_of_left left (steady_of_ongoing all), List.flatMap_append, List.flatMap_cons,
      List.flatMap_singleton, calls_warnings, called]
    simp

/-! ## First runs -/

/-- An image that does not fit is refused before the first stage. -/
theorem abortedIn_of_unfit {log : List Entry}
    (size : u.layout.maxImageSize < Layout.paddedSize image.size)
    (left : trace log = phasesLog .start [⟨.aborted, []⟩]) :
    AbortedIn u image log ⟨.aborted, some .start⟩
      (.config (.imageTooLarge image.size u.layout.flashBase u.layout.maxImageSize)) .start where
  tracker := rfl
  last := by
    rw [← steps_trace, left]
    rfl
  not_complete := by
    rw [← events_trace, left]
    simp [phasesLog]
  arises := by
    refine .check (Layout.checkImageFits_of_lt size) ?_
    rw [← calls_trace, left]
    rfl

/-- The failures of a first run are those of its check and of its calls. -/
theorem ArisesIn.ne_invalidTransition {log : List Entry} {st a b : Stage} {e : DfuError}
    (h : ArisesIn u image log st e) : e ≠ .invalidTransition a b := by
  cases h with
  | check => exact nofun
  | call _ stops =>
    cases stops <;> exact nofun

theorem Agrees.of_done {result : UploadResult} {w : Underway σ} {log : List Entry}
    (walk : Walk .start (steps log) w.tracker.stage) (done : DoneWith log w.tracker result) :
    Agrees u image ⟨.ok result, w, log⟩ where
  walk := walk
  done := by
    rintro _ ⟨⟩
    exact done
  aborted := nofun
  allowed := nofun

theorem Agrees.of_aborted {e : DfuError} {st : Stage} {w : Underway σ} {log : List Entry}
    (walk : Walk .start (steps log) w.tracker.stage)
    (aborted : AbortedIn u image log w.tracker e st) : Agrees u image ⟨.error e, w, log⟩ where
  walk := walk
  done := nofun
  aborted := by
    rintro _ ⟨⟩
    exact ⟨st, aborted⟩
  allowed := by
    rintro a b ⟨⟩
    exact aborted.arises.ne_invalidTransition rfl

theorem FirstRun.agrees {s : σ} {o : Outcome Entry (Underway σ) DfuError UploadResult}
    (h : FirstRun u image s o) : Agrees u image o := by
  cases h with
  | unfit size left =>
    refine .of_aborted ?_ (abortedIn_of_unfit size left)
    rw [← steps_trace, left]
    exact .step rfl (.stay _)
  | goes fits h =>
    cases h with
    | finished script left =>
      refine .of_done ?_ (script.doneWith left)
      rw [steps_eq_of_left left script.steady]
      exact script.walk
    | stopped script split short left =>
      obtain ⟨walk, ongoing⟩ := script.before_cut split short
      obtain ⟨stepped, aborted⟩ := abortedIn_of_cut u image short ongoing left
      refine .of_aborted ?_ aborted
      -- the stage that was cut may be left by aborting, as no final one could
      have cut := script.scripted (split ▸ List.mem_append_right _ (List.mem_cons_self ..))
      have not_final := cut.not_isFinal short
      rw [stepped]
      exact walk.append (.step (by rw [Stage.allows, not_final]; rfl) (.stay _))

/-- After a first run on an accepted layout the tracker, the result and the events agree,
whatever the device does and whether or not the image fits. -/
theorem run_agrees (d : Device σ) (s : σ) (config : Config) (options : UploadOptions)
    (image : Image) (valid : config.layout.validate = .ok ()) :
    let u := Uploader.forDevice d s config options
    Agrees u image (u.run d image ⟨{}, s⟩) :=
  (first_run _ d s image (Layout.usable_of_validate valid)).agrees

/-- The forced upload of three bytes agrees with its tracker, which is done. -/
theorem run_agrees_three_bytes :
    Agrees threeByteUploader ⟨[1, 2, 3]⟩ threeByteRun ∧
      DoneWith threeByteRun.log threeByteRun.state.tracker (.flashed false .identical true) := by
  have agrees : Agrees threeByteUploader ⟨[1, 2, 3]⟩ threeByteRun := run_agrees threeByteDevice ()
    { layout := ⟨0x1000, 0x2000, 16⟩ } { force := true } ⟨[1, 2, 3]⟩ rfl
  exact ⟨agrees, agrees.done _ threeByteRun_flashed⟩

end CanDfu
