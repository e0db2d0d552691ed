/-
  CanDfu.Upload.Uploader

  One upload from start to end: compare, back up NVM, erase, program, restore NVM, verify, reset.
  A failed upload is aborted, and the operator is told what state the device was left in.  Nothing
  is rolled back.
-/
import CanDfu.Config
import CanDfu.Upload.Comparison
import CanDfu.Upload.Preservation
import CanDfu.Upload.Programming
import CanDfu.Upload.Tracker

namespace CanDfu

/-- The caller's choices for an upload. -/
structure UploadOptions where
  /-- Program without comparing first. -/
  force : Bool := false
  /-- Reset the device at the end. -/
  reset : Bool := true
  deriving DecidableEq, Repr

/-- How an upload ended. -/
inductive UploadResult
  /-- Flash already held the image. -/
  | upToDate
  /-- The image was programmed; a difference found afterwards is reported, not raised. -/
  | flashed (nvmRestored : Bool) (verification : Comparison) (reset : Bool)
  deriving DecidableEq, Repr

/-- How uploads to a device are done. -/
structure Uploader where
  layout : Layout
  options : UploadOptions
  writer : Writer
  deriving DecidableEq, Repr

/-- An upload under way: its tracker, and the state of the device. -/
structure Underway (σ : Type) where
  tracker : Tracker := {}
  device : σ

namespace Uploader

variable {σ : Type}

/-- An uploader for a device, which is asked once for its command form. -/
def forDevice (d : Device σ) (s : σ) (config : Config) (options : UploadOptions) : Uploader where
  layout := config.layout
  options := options
  writer := ⟨.negotiate d s, config.scratchWriteDelay.toNat⟩

/-- Runs a routine of the device. -/
def onDevice {α : Type} (r : Routine Entry σ DfuError α) :
    Routine Entry (Underway σ) DfuError α :=
  r.zoom Underway.device fun s u => { u with device := s }

/-- Moves on to a stage and reports the step. -/
def goto (next : Stage) : Routine Entry (Underway σ) DfuError Unit := do
  let u ← Routine.get
  let tracker ← Routine.ofExcept (u.tracker.advance next)
  Routine.modify fun u => { u with tracker }
  Routine.emit (.ofRecord .debug "State transition"
    [("from", u.tracker.stage.label), ("to", next.label)])
  Routine.emit (.event (.stageChanged u.tracker.stage next))

/-- Reports a message. -/
def say (level : Level) (message : String) : Routine Entry (Underway σ) DfuError Unit :=
  Routine.emit (.event (.log level message))

/-- Tells the operator what an upload that failed in a stage has done to the device. -/
def reportDamage : Stage → Routine Entry (Underway σ) DfuError Unit
  | .erase => say .warn "Erase did not complete; firmware and NVM config may have been erased"
  | .program => do
    say .warn "Device firmware is invalid until reflashed"
    say .warn "NVM config was erased and has not been restored"
  | .restore => say .warn "NVM config was only partially restored"
  | _ => pure ()

/-- Compares the image with flash, in the activity's words. -/
def compare (u : Uploader) (d : Device σ) (image : Image) (activity : Activity) :
    Routine Entry (Underway σ) DfuError Comparison :=
  onDevice (Comparison.ofImage d u.layout.flashBase image activity)

/-- Reports the result of the comparison after programming. -/
def reportVerification : Comparison → Routine Entry (Underway σ) DfuError Unit
  | .identical => say .info "Verification passed"
  | .differs address expected actual =>
    say .error
      s!"Verification failed at {Hex.address address}: expected {Hex.address expected}, read {Hex.address actual}"

/-- Everything after the comparison: back up, erase, program, restore, verify, reset. -/
def reflash (u : Uploader) (d : Device σ) (image : Image) :
    Routine Entry (Underway σ) DfuError UploadResult := do
  goto .backup
  let backup ← onDevice (Preservation.backup d u.layout)
  goto .erase
  onDevice (Programming.erase u.writer d)
  goto .program
  let _ ← onDevice (Programming.program u.writer d u.layout.flashBase image)
  goto .restore
  let restored ← onDevice (Preservation.restore u.writer d u.layout backup)
  goto .verify
  let verification ← u.compare d image .verify
  reportVerification verification
  if u.options.reset then do
    goto .reset
    onDevice ((d.issue .reset).mapError .session)
    say .info "Device reset"
  goto .done
  Routine.emit (.event .complete)
  pure (.flashed (restored != 0) verification u.options.reset)

/-- The stages of an upload up to its end or its first failure. -/
def pipeline (u : Uploader) (d : Device σ) (image : Image) :
    Routine Entry (Underway σ) DfuError UploadResult := do
  (Routine.ofExcept (u.layout.checkImageFits image.size)).mapError .config
  if u.options.force then do
    Routine.emit (.ofRecord .info "Forced upload, skipping comparison" [])
    u.reflash d image
  else do
    goto .compare
    match ← u.compare d image .compare with
    | .identical => do
      say .info "Device firmware matches the image, nothing to do"
      goto .done
      Routine.emit (.event .complete)
      pure .upToDate
    | .differs .. => do
      say .info "Device firmware differs from the image"
      u.reflash d image

/-- Aborts an upload that failed and was not yet over, reports the damage and logs the failure. -/
def abort (e : DfuError) : Routine Entry (Underway σ) DfuError Unit := do
  let u ← Routine.get
  if !u.tracker.stage.isFinal then goto .aborted
  let u ← Routine.get
  let failedIn := u.tracker.abortedIn.getD u.tracker.stage
  reportDamage failedIn
  Routine.emit (.ofRecord .error "Upload failed"
    [("state", failedIn.label), ("error", e.message)])

/-- Uploads an image. -/
def run (u : Uploader) (d : Device σ) (image : Image) :
    Routine Entry (Underway σ) DfuError UploadResult := do
  match ← (u.pipeline d image).attempt with
  | .ok result => pure result
  | .error e => do
    abort e
    Routine.fail e

end Uploader

end CanDfu
