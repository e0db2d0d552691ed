/-
  CanDfu.Event

  What an upload or a recovery tells whoever watches it, and the log record each event becomes
  when nobody but the log is watching.
-/
import CanDfu.Record
import CanDfu.Stage
import CanDfu.Text.Hex

namespace CanDfu

/-- Long operations that report progress. -/
inductive Activity
  | compare
  | verify
  | readNvm
  | writeNvm
  | program
  deriving DecidableEq, Repr

/-- The operation in messages. -/
def Activity.label : Activity → String
  | compare => "Comparing"
  | verify => "Verifying"
  | readNvm => "Reading NVM"
  | writeNvm => "Writing NVM"
  | program => "Flashing"

/-- One event. -/
inductive Event
  | stageChanged (previous next : Stage)
  /-- Bytes done of all bytes of an operation. -/
  | progress (activity : Activity) (current total : Nat)
  /-- A chunk is programmed and its checksum confirmed. -/
  | chunkCommitted (address checksum : UInt32)
  | log (level : Level) (message : String)
  /-- The device did not answer recovery attempt number `attempt`. -/
  | attemptFailed (attempt : Nat)
  | complete
  deriving DecidableEq, Repr

/-- Whole percents done; an operation with nothing to do is complete. -/
def percent (current total : Nat) : Nat :=
  if total = 0 then 100 else current * 100 / total

/-- The log record of an event. -/
def Event.toRecord : Event → Record
  | stageChanged previous next =>
    ⟨.info, "State changed", [("from", previous.label), ("to", next.label)]⟩
  | progress activity current total =>
    ⟨.debug, "Progress",
      [("operation", activity.label), ("progress", s!"{percent current total}%")]⟩
  | chunkCommitted address checksum =>
    ⟨.trace, "Chunk committed",
      [("address", Hex.address address), ("checksum", Hex.address checksum)]⟩
  | log level message => ⟨level, message, []⟩
  | attemptFailed attempt => ⟨.debug, "No response, retrying", [("attempt", s!"{attempt}")]⟩
  | complete => ⟨.info, "Operation complete", []⟩

end CanDfu
