/-
  CanDfu.Recovery

  Reaching a device that no longer answers.  The bootloader listens only for a short while after
  power-up, so the operator switches the device off and on while addressing attempts run one after
  another; the first that is answered wins.  Silence is retried, any other failure is final.
-/
import CanDfu.Journal
import CanDfu.Routine

namespace CanDfu

/-- The person at the bench: does what is asked, or fails with a system error. -/
abbrev Operator : Type := Prompt → Except String Unit

/-- A recovery under way: attempts that went unanswered so far, and the state of the bus. -/
structure Recovering (κ : Type) where
  retries : Nat := 0
  bus : κ

namespace Recovery

variable {κ δ : Type}

/-- Asks the operator for something. -/
def ask (operator : Operator) (p : Prompt) : Routine Entry (Recovering κ) DfuError Unit := do
  Routine.emit (.prompt p)
  (Routine.ofExcept (operator p)).mapError .os

/-- One addressing attempt. -/
def attempt (connect : Routine Note κ SessionError δ) :
    Routine Entry (Recovering κ) DfuError (Except SessionError δ) :=
  ((connect.mapLog .note).attempt).zoom Recovering.bus fun bus r => { r with bus }

/-- Makes addressing attempts, at most `limit` of them, until one ends otherwise than in silence.
No device comes back if all of them do. -/
def attempts (connect : Routine Note κ SessionError δ) (retryDelay : Nat) :
    (limit : Nat) → Routine Entry (Recovering κ) DfuError (Option δ)
  | 0 => pure none
  | limit + 1 => do
    match ← attempt connect with
    | .ok device => do
      let r ← Routine.get
      Routine.emit (.ofRecord .info "Bootloader answered" [("retries", s!"{r.retries}")])
      pure (some device)
    | .error (.noResponse _) => do
      Routine.modify fun r => { r with retries := r.retries + 1 }
      let r ← Routine.get
      Routine.emit (.event (.attemptFailed r.retries))
      if retryDelay ≠ 0 then Routine.emit (.pause retryDelay)
      attempts connect retryDelay limit
    | .error e => Routine.fail (.session e)

/-- Walks the operator through a power cycle and addresses the device. -/
def run (operator : Operator) (connect : Routine Note κ SessionError δ) (retryDelay limit : Nat) :
    Routine Entry (Recovering κ) DfuError (Option δ) := do
  ask operator .powerOff
  ask operator .powerOn
  Routine.emit (.ofRecord .info "Waiting for bootloader..." [])
  attempts connect retryDelay limit

end Recovery

end CanDfu
