/-
  CanDfu.Bench

  A bench where adapters and a device are opened and closed one step at a time.  A device goes on
  using the adapter it was connected through after another adapter has been opened; an adapter is
  closed once neither the bench nor the device uses it.
-/
import CanDfu.Bus
import CanDfu.Node
import CanDfu.Recovery

namespace CanDfu

/-- An opened adapter, told apart from others by a serial number. -/
structure Handle where
  serial : Nat
  adapter : Adapter

/-- The bench: what is open, and the state of the USB host. -/
structure Bench (υ : Type) where
  host : υ
  current : Option Handle := none
  device : Option (Node × Handle) := none
  /-- The serial number of the next adapter. -/
  next : Nat := 0

namespace Bench

variable {υ ε α : Type}

/-- Runs a routine of the host. -/
def onHost {ω : Type} (r : Routine ω υ ε α) : Routine ω (Bench υ) ε α :=
  r.zoom Bench.host fun host b => { b with host }

/-- Whether an adapter is still in use. -/
def inUse (b : Bench υ) (handle : Handle) : Bool :=
  b.current.any (·.serial = handle.serial) || b.device.any (·.2.serial = handle.serial)

/-- Closes an adapter that is no longer in use. -/
def closeUnused (h : Usb.Host υ) : Option Handle → Routine Note (Bench υ) ε Unit
  | none => pure ()
  | some handle => do
    let b ← Routine.get
    if !b.inUse handle then onHost (handle.adapter.close h)

/-- Makes what `opening` opens the current adapter; the old one stays if that fails. -/
def openWith (h : Usb.Host υ) (opening : Routine Note υ OpenFailure Adapter) :
    Routine Note (Bench υ) OpenFailure Adapter := do
  let adapter ← onHost opening
  let b ← Routine.get
  Routine.modify fun b => { b with current := some ⟨b.next, adapter⟩, next := b.next + 1 }
  closeUnused h b.current
  pure adapter

/-- Makes a node that answered through an adapter the current device. -/
def setDevice (h : Usb.Host υ) (node : Node) (handle : Handle) :
    Routine Note (Bench υ) ε Unit := do
  let b ← Routine.get
  Routine.modify fun b => { b with device := some (node, handle) }
  closeUnused h (b.device.map (·.2))

/-- Closes the device, then the adapter. -/
def close (h : Usb.Host υ) : Routine Note (Bench υ) ε Unit := do
  let b ← Routine.get
  Routine.modify fun b => { b with device := none }
  closeUnused h (b.device.map (·.2))
  Routine.modify fun b => { b with current := none }
  closeUnused h b.current

end Bench

end CanDfu
