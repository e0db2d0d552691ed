/-
  CanDfu.Adapter.HostFrame

  Frames as the adapter exchanges them with the host, in 20 bytes:

    0..4     echo id: all ones for a frame received from the bus
    4..8     identifier; bit 31 extended, bit 30 remote
    8        data length code
    9        channel
    10..12   flags, unused
    12..20   data, completed with zeros
-/
import CanDfu.Config.Profile
import CanDfu.LittleEndian
import CanDfu.Transport

namespace CanDfu.HostFrame

/-- Bytes of a host frame. -/
def size : Nat := 20

/-- The echo id of a received frame. -/
def receivedEcho : UInt32 := 0xFFFFFFFF

/-- The echo id of a frame to be sent, which the adapter repeats once it is sent. -/
def sentEcho : UInt32 := 0

/-- The mark of an extended identifier. -/
def extendedFlag : UInt32 := 0x80000000

/-- The mark of a remote frame. -/
def remoteFlag : UInt32 := 0x40000000

/-- The identifier of a frame with its marks. -/
def markedId (f : Frame) : UInt32 :=
  let id :=
    if f.extended then (f.id &&& extendedIdLimit) ||| extendedFlag else f.id &&& standardIdLimit
  if f.isRemote then id ||| remoteFlag else id

/-- A frame to be sent. -/
def encode (f : Frame) (channel : UInt8) : List UInt8 :=
  LittleEndian.bytes sentEcho ++ LittleEndian.bytes (markedId f)
    ++ [UInt8.ofNat f.dlc, channel, 0, 0]
    ++ f.bytes ++ List.replicate (maxFrameData - f.bytes.length) 0

/-- Reads a host frame; the echo of a sent frame is no frame.  Bytes past the twentieth are not
looked at. -/
def decode (bytes : List UInt8) : Except TransportError (Option Frame) :=
  if bytes.length < size then
    .error (.malformedFrame s!"host frame too short: {bytes.length} < {size}")
  else if LittleEndian.firstWord 0 bytes ≠ receivedEcho then .ok none
  else
    let marked := LittleEndian.firstWord 0 (bytes.drop 4)
    let extended := marked &&& extendedFlag != 0
    let id := marked &&& (if extended then extendedIdLimit else standardIdLimit)
    let dlc := min (bytes.getD 8 0).toNat maxFrameData
    if marked &&& remoteFlag != 0 then .ok (some (.remote id extended dlc))
    else (Frame.ofData id extended ((bytes.drop 12).take dlc)).map some

@[simp] theorem length_encode (f : Frame) (channel : UInt8) :
    (encode f channel).length = size := by
  obtain ⟨id, extended, payload⟩ := f
  cases payload with
  | data bytes fits =>
    simp only [maxFrameData] at fits
    simp only [encode, Frame.bytes, List.length_append, LittleEndian.length_bytes,
      List.length_cons, List.length_nil, List.length_replicate, maxFrameData, size]
    omega
  | remote length fits =>
    simp only [encode, Frame.bytes, List.length_append, LittleEndian.length_bytes,
      List.length_cons, List.length_nil, List.length_replicate, maxFrameData, size]

end CanDfu.HostFrame
