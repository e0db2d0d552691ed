/-
  CanDfu.Stage

  The stages of an upload and the steps allowed between them.  Stages only move forward; any
  stage that is not final may be left by aborting.
-/

namespace CanDfu

/-- Where an upload stands. -/
inductive Stage
  | start
  /-- Comparing the image with what the device holds. -/
  | compare
  | backup
  | erase
  | program
  | restore
  /-- Comparing again after programming. -/
  | verify
  | reset
  | done
  | aborted
  deriving DecidableEq, Repr

namespace Stage

/-- The stage in messages. -/
def label : Stage → String
  | start => "START"
  | compare => "COMPARE"
  | backup => "BACKUP_NVM"
  | erase => "ERASE"
  | program => "PROGRAM"
  | restore => "RESTORE_NVM"
  | verify => "VERIFY"
  | reset => "RESET"
  | done => "DONE"
  | aborted => "ABORTED"

/-- All stages in order. -/
def all : List Stage :=
  [start, compare, backup, erase, program, restore, verify, reset, done, aborted]

/-- The stage with a given label. -/
def ofLabel? (text : String) : Option Stage :=
  all.find? (·.label == text)

/-- The place of a stage in their order. -/
def rank : Stage → Nat
  | start => 0
  | compare => 1
  | backup => 2
  | erase => 3
  | program => 4
  | restore => 5
  | verify => 6
  | reset => 7
  | done => 8
  | aborted => 9

/-- Whether an upload has ended. -/
def isFinal : Stage → Bool
  | done | aborted => true
  | _ => false

/-- Whether a step from one stage to another is allowed. -/
def allows : Stage → Stage → Bool
  | s, aborted => !s.isFinal
  | start, compare | start, backup => true
  | compare, backup | compare, done => true
  | backup, erase | erase, program | program, restore | restore, verify => true
  | verify, reset | verify, done | reset, done => true
  | _, _ => false

/-- Steps go forward. -/
theorem rank_lt_of_allows {s t : Stage} (h : s.allows t = true) : s.rank < t.rank := by
  cases s <;> cases t <;> first | decide | exact absurd h (by decide)

/-- A final stage is never left. -/
theorem allows_of_isFinal {s : Stage} (h : s.isFinal = true) (t : Stage) : s.allows t = false := by
  cases s <;> cases t <;> first | rfl | exact absurd h (by decide)

end Stage

end CanDfu
