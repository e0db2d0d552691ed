/-
  CanDfu.Usb.Access

  What a program does with a USB device, as a log of it shows: opening it, claiming an interface,
  transfers, and letting the interface go.
-/

namespace CanDfu.Usb

/-- One transfer of a claimed interface.  Control transfers are vendor requests to that interface. -/
inductive Transfer
  | controlOut (request : UInt8) (value interface : UInt16) (data : List UInt8)
  | controlIn (request : UInt8) (value interface : UInt16) (length : Nat)
  | bulkOut (endpoint : UInt8) (data : List UInt8)
  /-- A read that is given up after `patience` nanoseconds. -/
  | bulkIn (endpoint : UInt8) (length : Nat) (patience : Nat)
  deriving DecidableEq, Repr

/-- The request type of a vendor request to an interface: to the device, or from it. -/
def vendorRequestType (toHost : Bool) : UInt8 :=
  if toHost then 0xC1 else 0x41

/-- One access to a USB device. -/
inductive Access
  | opened
  | claimed (interface : UInt8)
  | transfer (t : Transfer)
  | released (interface : UInt8)
  deriving DecidableEq, Repr

end CanDfu.Usb
