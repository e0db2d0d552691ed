/-
  CanDfu.Usb.Descriptor

  What a USB device says about itself, as far as an adapter needs it: its ids, and the endpoints
  of each interface setting of each configuration.
-/

namespace CanDfu.Usb

/-- Vendor and product id. -/
structure Ids where
  vendor : UInt16
  product : UInt16
  deriving DecidableEq, Repr

/-- Kinds of endpoints. -/
inductive EndpointKind
  | control
  | isochronous
  | bulk
  | interrupt
  deriving DecidableEq, Repr

/-- One endpoint. -/
structure Endpoint where
  address : UInt8
  kind : EndpointKind
  /-- The packet size field; its low eleven bits are the size in bytes. -/
  packetField : UInt16
  deriving DecidableEq, Repr

namespace Endpoint

/-- Whether the endpoint sends to the host. -/
def toHost (e : Endpoint) : Bool := e.address &&& 0x80 != 0

/-- Bytes in the largest packet. -/
def maxPacket (e : Endpoint) : Nat := (e.packetField &&& 0x7FF).toNat

end Endpoint

/-- One alternate setting of an interface. -/
structure Setting where
  interface : UInt8
  alternate : UInt8
  endpoints : List Endpoint
  deriving DecidableEq, Repr

/-- One configuration of a device. -/
structure Configuration where
  value : UInt8
  settings : List Setting
  deriving DecidableEq, Repr

/-- Endpoints of any setting of an interface, in any configuration. -/
def endpointsOf (configurations : List Configuration) (interface : UInt8) : List Endpoint :=
  configurations.flatMap fun c =>
    (c.settings.filter (·.interface = interface)).flatMap (·.endpoints)

/-- Endpoints of the first setting of an interface in one configuration. -/
def activeEndpoints (configurations : List Configuration) (value interface : UInt8) :
    List Endpoint :=
  match configurations.find? (·.value = value) with
  | none => []
  | some c =>
    match c.settings.find? fun s => s.interface = interface ∧ s.alternate = 0 with
    | none => []
    | some s => s.endpoints

end CanDfu.Usb
