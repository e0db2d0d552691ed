/-
  CanDfu.Device.Faulty

  A device with faults put in front of it: chosen calls fail without reaching it, chosen words
  read back with flipped bits, and it may ask for another last argument than its own.
-/
import CanDfu.Device.Simulated

namespace CanDfu

/-- The commands without their arguments. -/
inductive CommandKind
  | read
  | scratch
  | commit
  | erase
  | reset
  deriving DecidableEq, Repr

/-- The kind of a command. -/
def Command.kind : Command → CommandKind
  | read _ => .read
  | scratch .. => .scratch
  | commit .. => .commit
  | erase _ => .erase
  | reset => .reset

/-- Bits that read back flipped at an address. -/
structure Flip where
  address : UInt32
  mask : UInt32
  /-- Whether they do so only once the device has been erased. -/
  afterErase : Bool
  deriving Repr

/-- The faults of a device. -/
structure FaultPlan where
  /-- Calls that fail: kind, position among the calls of that kind, and failure. -/
  failures : List (CommandKind × Nat × SessionError) := []
  flips : List Flip := []
  /-- The last argument asked for, where it is not the device's own. -/
  seed : Option (Option UInt32) := none

/-- Calls of each kind so far. -/
structure CallCounts where
  reads : Nat := 0
  scratches : Nat := 0
  commits : Nat := 0
  erases : Nat := 0
  resets : Nat := 0
  deriving DecidableEq, Repr

namespace CallCounts

/-- The count of one kind. -/
def get (n : CallCounts) : CommandKind → Nat
  | .read => n.reads
  | .scratch => n.scratches
  | .commit => n.commits
  | .erase => n.erases
  | .reset => n.resets

/-- Counts one more call. -/
def add (n : CallCounts) : CommandKind → CallCounts
  | .read => { n with reads := n.reads + 1 }
  | .scratch => { n with scratches := n.scratches + 1 }
  | .commit => { n with commits := n.commits + 1 }
  | .erase => { n with erases := n.erases + 1 }
  | .reset => { n with resets := n.resets + 1 }

end CallCounts

/-- A simulated device with faults, and how many calls of each kind it was given. -/
structure Faulty where
  plan : FaultPlan
  inner : Simulated
  counts : CallCounts := {}

namespace Faulty

/-- A word as it reads back, once the flips are applied. -/
def flipped (f : Faulty) (address word : UInt32) : UInt32 :=
  f.plan.flips.foldl
    (fun w flip =>
      if flip.address = address ∧ (flip.afterErase = false ∨ 0 < f.inner.erases) then
        w ^^^ flip.mask
      else w) word

/-- What comes back for an answer of the device behind the faults. -/
def passed (f : Faulty) : (c : Command) → c.Reply → c.Reply
  | .read address, word => f.flipped address word
  | .scratch .., r => r
  | .commit .., r => r
  | .erase _, r => r
  | .reset, r => r

/-- Carries out a command, unless its turn to fail has come. -/
def answer (f : Faulty) (c : Command) : Except SessionError c.Reply × Faulty :=
  let turn := f.counts.get c.kind
  let counts := f.counts.add c.kind
  match f.plan.failures.find? fun (kind, n, _) => kind = c.kind ∧ n = turn with
  | some (_, _, e) => (.error e, { f with counts })
  | none =>
    let (answer, inner) := f.inner.answer c
    let f' := { f with inner, counts }
    (answer.map (f'.passed c), f')

/-- The faulty device as a device. -/
def device : Device Faulty where
  call c f :=
    let (answer, f') := f.answer c
    ⟨answer, f', []⟩
  seed f := f.plan.seed.getD f.inner.seed

end Faulty

end CanDfu
