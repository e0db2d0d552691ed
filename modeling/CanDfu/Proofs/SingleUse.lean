/-
  CanDfu.Proofs.SingleUse

  An uploader is good for one upload.  A first run leaves its tracker in a final stage, no final
  stage is ever left, and so every later run is refused: at the check of its image, or at the
  first step it tries to take.  The device is not asked anything, the tracker does not move, and
  nothing is reported but messages.
-/
import CanDfu.Proofs.CallDiscipline
import CanDfu.Proofs.FirstRun
import Mathlib.Data.List.Forall2

namespace CanDfu

variable {σ : Type} {u : Uploader} {image : Image} {w : Underway σ}

/-- Uploads one after the other with one uploader, each from where the last one ended. -/
def Uploader.runs (u : Uploader) (d : Device σ) :
    List Image → Underway σ → List (Outcome Entry (Underway σ) DfuError UploadResult)
  | [], _ => []
  | image :: rest, w => u.run d image w :: u.runs d rest (u.run d image w).state

/-- The stage an upload that is not yet under way would enter first. -/
def Uploader.entry (u : Uploader) : Stage := if u.options.force then .backup else .compare

/-- Why a run in some stage is refused. -/
inductive Refusal (u : Uploader) (image : Image) (current : Stage) : DfuError → Prop
  | unfit (size : u.layout.maxImageSize < Layout.paddedSize image.size) :
      Refusal u image current
        (.config (.imageTooLarge image.size u.layout.flashBase u.layout.maxImageSize))
  | ended (fits : Layout.paddedSize image.size ≤ u.layout.maxImageSize) :
      Refusal u image current (.invalidTransition current u.entry)

/-- A run that is refused in the state it was tried in. -/
structure Refused (u : Uploader) (image : Image) (w : Underway σ)
    (o : Outcome Entry (Underway σ) DfuError UploadResult) : Prop where
  failed : ∃ e, o.result = .error e ∧ Refusal u image w.tracker.stage e
  unmoved : o.state = w
  silent : calls o.log = []
  messages : ∀ e ∈ events o.log, ∃ level text, e = .log level text

/-! ## Final stages -/

/-- A step that is not allowed is not taken, and not reported. -/
theorem goto_refused {next : Stage} (h : w.tracker.stage.allows next = false) :
    Uploader.goto next w = ⟨.error (.invalidTransition w.tracker.stage next), w, []⟩ := by
  have refused : w.tracker.advance next
      = .error (.invalidTransition w.tracker.stage next) := by
    rw [Tracker.advance, h]
    rfl
  unfold Uploader.goto
  rw [Routine.bind_of_ok (rfl : Routine.get w = _), refused]
  rfl

/-- In a final stage an image that fits gets no further than the first step. -/
theorem pipeline_final (d : Device σ) (final : w.tracker.stage.isFinal = true)
    (fits : u.layout.checkImageFits image.size = .ok ()) :
    ∃ log, u.pipeline d image w = ⟨.error (.invalidTransition w.tracker.stage u.entry), w, log⟩ ∧
      trace log = [] := by
  have stuck (next : Stage) := goto_refused (Stage.allows_of_isFinal final next)
  unfold Uploader.pipeline Uploader.entry
  rw [fits, Routine.bind_of_ok (Routine.mapError_of_ok (Routine.ofExcept_apply _ w) _)]
  -- the first step is that of the comparison, or of the backup when none is made
  cases u.options.force with
  | true =>
    rw [if_pos rfl, if_pos rfl]
    unfold Uploader.reflash
    rw [Routine.bind_of_ok (Routine.emit_apply _ w), Routine.bind_of_error (stuck .backup)]
    exact ⟨_, rfl, rfl⟩
  | false =>
    rw [if_neg Bool.false_ne_true, if_neg Bool.false_ne_true,
      Routine.bind_of_error (stuck .compare)]
    exact ⟨_, rfl, rfl⟩

theorem reportDamage_apply (st : Stage) (w : Underway σ) :
    Uploader.reportDamage st w = ⟨.ok (), w, warnings st⟩ := by
  cases st <;> rfl

/-- Aborting in a final stage only warns. -/
theorem abort_final (e : DfuError) (final : w.tracker.stage.isFinal = true) :
    ∃ log, Uploader.abort e w = ⟨.ok (), w, log⟩ ∧
      trace log = warnings (w.tracker.abortedIn.getD w.tracker.stage) := by
  have warned := reportDamage_apply (w.tracker.abortedIn.getD w.tracker.stage) w
  unfold Uploader.abort
  rw [Routine.bind_of_ok (rfl : Routine.get w = _)]
  simp only [final, Bool.not_true, Bool.false_eq_true, if_false]
  rw [Routine.bind_of_ok (rfl : Routine.get w = _), Routine.bind_of_ok warned]
  refine ⟨_, rfl, ?_⟩
  show trace ([] ++ (warnings _ ++ [.ofRecord ..])) = _
  rw [List.nil_append, trace_append, trace_ofRecord_cons, trace_nil, List.append_nil]
  cases w.tracker.abortedIn.getD w.tracker.stage <;> rfl

/-! ## Runs from a final stage -/

/-- A run that fails without having done anything is refused, in a final stage. -/
theorem refused_of_pipeline {d : Device σ} {e : DfuError} {log : List Entry}
    (final : w.tracker.stage.isFinal = true) (refusal : Refusal u image w.tracker.stage e)
    (failed : u.pipeline d image w = ⟨.error e, w, log⟩) (nothing : trace log = []) :
    Refused u image w (u.run d image w) := by
  obtain ⟨more, aborted, warned⟩ := abort_final e final
  have left : trace (log ++ more) = warnings (w.tracker.abortedIn.getD w.tracker.stage) := by
    rw [trace_append, nothing, warned, List.nil_append]
  rw [run_of_error failed aborted]
  refine ⟨⟨e, rfl, refusal⟩, rfl, ?_, ?_⟩
  · rw [← calls_trace, left, calls_warnings]
  · intro event reported
    rw [← events_trace, left] at reported
    exact mem_events_warnings reported

/-- Whatever the device would do, a run in a final stage is refused. -/
theorem run_refused (d : Device σ) (image : Image) (final : w.tracker.stage.isFinal = true) :
    Refused u image w (u.run d image w) := by
  by_cases size : u.layout.maxImageSize < Layout.paddedSize image.size
  · exact refused_of_pipeline final (.unfit size) (pipeline_unfit d w size) rfl
  · have fits := Nat.le_of_not_lt size
    obtain ⟨log, failed, nothing⟩ := pipeline_final d final (Layout.checkImageFits_of_le fits)
    exact refused_of_pipeline final (.ended fits) failed nothing

/-- So is every one of any number of runs, each of them in the state of the first. -/
theorem runs_refused (d : Device σ) (images : List Image)
    (final : w.tracker.stage.isFinal = true) :
    List.Forall₂ (fun image o => Refused u image w o) images (u.runs d images w) := by
  induction images with
  | nil => exact .nil
  | cons image rest ih =>
    have refused := run_refused (u := u) d image final
    refine .cons refused ?_
    rw [refused.unmoved]
    exact ih

/-! ## Uploaders -/

/-- After a first run, however it ended, every later one is refused: the image does not fit, or
the step to the first stage is not allowed from the final stage the first run ended in. -/
theorem later_runs_refused (d : Device σ) (s : σ) (config : Config) (options : UploadOptions)
    (image : Image) (later : List Image) (valid : config.layout.validate = .ok ()) :
    let u := Uploader.forDevice d s config options
    let first := (u.run d image ⟨{}, s⟩).state
    first.tracker.stage.isFinal = true ∧
      List.Forall₂ (fun next o => Refused u next first o) later (u.runs d later first) := by
  intro u first
  have usable : u.layout.Usable := Layout.usable_of_validate valid
  have final := (first_run u d s image usable).isFinal
  exact ⟨final, runs_refused d later final⟩

/-- After the forced upload of three bytes, which succeeded, the same image is refused, and so is
an empty one. -/
theorem later_runs_refused_three_bytes :
    threeByteRun.result = .ok (.flashed false .identical true) ∧
      List.Forall₂ (fun next o => Refused threeByteUploader next threeByteRun.state o)
        [⟨[1, 2, 3]⟩, ⟨[]⟩]
        (threeByteUploader.runs threeByteDevice [⟨[1, 2, 3]⟩, ⟨[]⟩] threeByteRun.state) := by
  have refused := later_runs_refused threeByteDevice () { layout := ⟨0x1000, 0x2000, 16⟩ }
    { force := true } ⟨[1, 2, 3]⟩ [⟨[1, 2, 3]⟩, ⟨[]⟩] rfl
  exact ⟨threeByteRun_flashed, refused.2⟩

end CanDfu
