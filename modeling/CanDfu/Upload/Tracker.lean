/-
  CanDfu.Upload.Tracker

  The stage an upload is in, and the stage it was in when it was aborted.
-/
import CanDfu.Error

namespace CanDfu

/-- The stage of an upload so far. -/
structure Tracker where
  stage : Stage := .start
  /-- The stage that was left by aborting. -/
  abortedIn : Option Stage := none
  deriving DecidableEq, Repr

/-- Moves on to `next`, if the step is allowed. -/
def Tracker.advance (t : Tracker) (next : Stage) : Except DfuError Tracker :=
  if t.stage.allows next then
    .ok ⟨next, if next = .aborted then some t.stage else t.abortedIn⟩
  else .error (.invalidTransition t.stage next)

end CanDfu
