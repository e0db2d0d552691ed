/-
  CanDfu.Bus

  Opening the bus: the backends of a configuration are tried in order, and the first adapter that
  opens is used.
-/
import CanDfu.Adapter
import CanDfu.Config
import CanDfu.Text.Blank

namespace CanDfu.Bus

variable {υ : Type}

/-- The names that stand for adapters on USB. -/
def usbBackends : List String := ["gs_usb", "canine", "candlelight"]

/-- Tries backends in order; `tried` are the names tried so far. -/
def openFirst (h : Usb.Host υ) (index : Nat) (bitrate : UInt32) (tried : List String) :
    List String → Routine Note υ OpenFailure Adapter
  | [] => Routine.fail (.refused (.noAdapter (", ".intercalate tried)))
  | backend :: rest =>
    let name := Blank.trim backend
    if usbBackends.contains name then do
      match ← (Adapter.openAt h index bitrate).attempt with
      | .ok a => do
        Adapter.record .info "Bus opened" [("adapter", a.name)]
        pure a
      | .error .fatal => Routine.fail .fatal
      | .error (.refused e) => do
        Adapter.record .warn "Backend unavailable" [("backend", backend), ("error", e.message)]
        openFirst h index bitrate (tried ++ [backend]) rest
    else do
      Adapter.record .warn "Unknown bus backend, skipping" [("backend", name)]
      openFirst h index bitrate (tried ++ [name]) rest

/-- Opens the bus of a configuration. -/
def openBus (h : Usb.Host υ) (c : BusConfig) : Routine Note υ OpenFailure Adapter :=
  openFirst h (c.channel.getD 0).toNat c.bitrate [] c.backends

end CanDfu.Bus
