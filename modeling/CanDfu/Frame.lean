/-
  CanDfu.Frame

  Frames of a classic CAN bus: an identifier, its width, and either up to eight data bytes or, in
  a remote frame, only the number of bytes that is asked for.
-/
import CanDfu.Text.Hex

namespace CanDfu

/-- The most data bytes a frame carries. -/
def maxFrameData : Nat := 8

/-- What a frame carries. -/
inductive Payload
  /-- Data bytes. -/
  | data (bytes : List UInt8) (fits : bytes.length ≤ maxFrameData)
  /-- A request for `length` bytes. -/
  | remote (length : Nat) (fits : length ≤ maxFrameData)
  deriving DecidableEq

/-- A frame on the bus. -/
structure Frame where
  id : UInt32
  extended : Bool
  payload : Payload
  deriving DecidableEq

namespace Frame

/-- A data frame; none if there is too much data. -/
def data? (id : UInt32) (extended : Bool) (bytes : List UInt8) : Option Frame :=
  if fits : bytes.length ≤ maxFrameData then some ⟨id, extended, .data bytes fits⟩ else none

/-- A remote frame; a length above eight asks for eight bytes. -/
def remote (id : UInt32) (extended : Bool) (length : Nat) : Frame :=
  ⟨id, extended, .remote (min length maxFrameData) (Nat.min_le_right ..)⟩

/-- Whether the frame asks for data instead of carrying it. -/
def isRemote (f : Frame) : Bool :=
  match f.payload with
  | .data .. => false
  | .remote .. => true

/-- The data bytes, none for a remote frame. -/
def bytes (f : Frame) : List UInt8 :=
  match f.payload with
  | .data bytes _ => bytes
  | .remote .. => []

/-- The data length code. -/
def dlc (f : Frame) : Nat :=
  match f.payload with
  | .data bytes _ => bytes.length
  | .remote length _ => length

theorem dlc_le (f : Frame) : f.dlc ≤ maxFrameData := by
  obtain ⟨id, extended, payload⟩ := f
  cases payload <;> assumption

/-- The frame in a trace: identifier, length code, and data bytes. -/
def text (f : Frame) : String :=
  let id := Hex.padded (if f.extended then 8 else 3) f.id.toNat
  match f.payload with
  | .data bytes _ =>
    bytes.foldl (fun t b => t ++ " " ++ Hex.padded 2 b.toNat) s!"{id} [{bytes.length}]"
  | .remote length _ => s!"{id} [R{length}]"

end Frame

end CanDfu
