/-
  CanDfu.Usb.Host

  The USB of a machine.  A host keeps any state and may let anything succeed or fail.  It has a
  clock, in nanoseconds, and at any time holds finitely many completed reads: a read that brings
  data leaves fewer of them, and so does a cancelled one, unless it was cancelled because its time
  was up.
-/
import CanDfu.Usb.Access
import CanDfu.Usb.Descriptor

namespace CanDfu.Usb

/-- Why a transfer failed. -/
inductive Fault
  | cancelled
  | stalled
  | disconnected
  | hardware
  | invalidArgument
  | unknown (errno : Nat)
  deriving DecidableEq, Repr

/-- The failure in messages. -/
def Fault.message : Fault → String
  | cancelled => "transfer was cancelled"
  | stalled => "endpoint stalled"
  | disconnected => "device disconnected"
  | hardware => "hardware fault or protocol violation"
  | invalidArgument => "invalid or unsupported argument"
  | unknown errno => s!"unknown (errno {errno})"

/-- A USB host with state `υ`. -/
structure Host (υ : Type) where
  /-- The devices present, in order. -/
  list : υ → Except String (List Ids)
  /-- Opens the device at a position of the list; the answer is what it says about itself. -/
  openDevice : Nat → υ → Except String (List Configuration) × υ
  /-- Claims an interface; the answer is the endpoints of its active setting. -/
  claim : Nat → UInt8 → υ → Except String (List Endpoint) × υ
  /-- Carries out a transfer; the answer is what was read. -/
  transfer : Nat → Transfer → υ → Except Fault (List UInt8) × υ
  /-- Reads the clock. -/
  clock : υ → Nat × υ
  /-- A bound on the completed reads that the host still holds. -/
  backlog : υ → Nat
  backlog_clock : ∀ s, backlog (clock s).2 ≤ backlog s
  backlog_read : ∀ device endpoint length patience s data,
    (transfer device (.bulkIn endpoint length patience) s).1 = .ok data →
      backlog (transfer device (.bulkIn endpoint length patience) s).2 < backlog s
  backlog_cancelled : ∀ device endpoint length patience s,
    let now := clock s
    let after := transfer device (.bulkIn endpoint length patience) now.2
    after.1 = .error .cancelled →
      backlog after.2 < backlog s ∨
        (backlog after.2 ≤ backlog s ∧ now.1 + patience ≤ (clock after.2).1)

end CanDfu.Usb
