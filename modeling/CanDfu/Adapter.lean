/-
  CanDfu.Adapter

  Bus adapters on USB that speak the common vendor protocol of CAN dongles: four control requests
  set the channel up, and frames travel over two bulk endpoints.  An adapter that was started is
  always stopped again: when starting fails, and when it is closed.
-/
import CanDfu.Adapter.BitTiming
import CanDfu.Adapter.HostFrame
import CanDfu.Usb.Host

namespace CanDfu

/-- An opened adapter. -/
structure Adapter where
  /-- Its position in the host's list of devices. -/
  device : Nat
  ids : Usb.Ids
  /-- Endpoints of the interface in use. -/
  endpoints : List Usb.Endpoint
  input : UInt8
  output : UInt8
  deriving DecidableEq, Repr

/-- Why an adapter was not opened. -/
inductive OpenFailure
  | refused (cause : TransportError)
  /-- The adapter's timing limits make no sense, and the program stops at once. -/
  | fatal
  deriving DecidableEq, Repr

namespace Adapter

variable {υ : Type}

/-- The ids of supported adapters. -/
def supported : List Usb.Ids :=
  [⟨0x1D50, 0x606F⟩, ⟨0x1209, 0x2323⟩, ⟨0x1CD2, 0x606F⟩, ⟨0x16D0, 0x10B8⟩]

/-- The interface that is claimed. -/
def interface : UInt8 := 0

/-- The channel that is started. -/
def channel : UInt8 := 0

/-- The vendor requests. -/
inductive Request
  | hostFormat
  | bitTiming
  | mode
  | timingLimits
  deriving DecidableEq, Repr

/-- The number of a vendor request. -/
def Request.code : Request → UInt8
  | hostFormat => 0
  | bitTiming => 1
  | mode => 2
  | timingLimits => 4

/-- The adapter in messages. -/
def name (a : Adapter) : String :=
  s!"gs_usb {Hex.padded 4 a.ids.vendor.toNat}:{Hex.padded 4 a.ids.product.toNat}"

/-- Logs a record. -/
def record {ε : Type} (level : Level) (message : String) (fields : List (String × String)) :
    Routine Note υ ε Unit :=
  Routine.emit (.record ⟨level, message, fields⟩)

/-- Carries out a transfer and logs it. -/
def transfer (h : Usb.Host υ) (device : Nat) (t : Usb.Transfer) :
    Routine Note υ Usb.Fault (List UInt8) := fun s =>
  match h.transfer device t s with
  | (answer, s') => ⟨answer, s', [.usb device (.transfer t)]⟩

/-- Sends a vendor request. -/
def controlOut (h : Usb.Host υ) (a : Adapter) (r : Request) (value : UInt16)
    (data : List UInt8) : Routine Note υ TransportError Unit := do
  let _ ← (transfer h a.device (.controlOut r.code value interface.toUInt16 data)).mapError
    fun fault => .controlFailed r.code fault.message

/-- Sends a vendor request for an answer of up to `length` bytes. -/
def controlIn (h : Usb.Host υ) (a : Adapter) (r : Request) (value : UInt16) (length : Nat) :
    Routine Note υ TransportError (List UInt8) :=
  (transfer h a.device (.controlIn r.code value interface.toUInt16 length)).mapError
    fun fault => .controlFailed r.code fault.message

/-- Switches the channel on or off. -/
def setRunning (h : Usb.Host υ) (a : Adapter) (on : Bool) : Routine Note υ TransportError Unit :=
  controlOut h a .mode channel.toUInt16
    (LittleEndian.bytes (if on then 1 else 0) ++ LittleEndian.bytes 0)

/-- Lets the interface go. -/
def release {ε : Type} (device : Nat) : Routine Note υ ε Unit :=
  Routine.emit (.usb device (.released interface))

/-- Stops the channel and lets the interface go. -/
def close {ε : Type} (h : Usb.Host υ) (a : Adapter) : Routine Note υ ε Unit := do
  match ← (setRunning h a false).attempt with
  | .ok () => pure ()
  | .error e => record .warn "Failed to stop CAN channel" [("error", e.message)]
  release a.device

/-- The byte order that is asked for: the number reads `0xBEEF` when lowest bytes come first. -/
def byteOrderMark : UInt32 := 0xBEEF

/-- Sets the channel up for a bit rate and switches it on. -/
def start (h : Usb.Host υ) (a : Adapter) (bitrate : UInt32) :
    Routine Note υ OpenFailure Unit := do
  (controlOut h a .hostFormat 1 (LittleEndian.bytes byteOrderMark)).mapError .refused
  let answer ←
    (controlIn h a .timingLimits channel.toUInt16 TimingLimits.size).mapError .refused
  let limits ← (Routine.ofExcept (TimingLimits.ofBytes answer)).mapError .refused
  let timing ← (Routine.ofExcept (BitTiming.forBitrate limits bitrate)).mapError fun
    | .unreachable => .refused (.unsupportedBitrate bitrate limits.clock)
    | .contradictoryLimits => .fatal
    | .overflow => .fatal
  record .debug "Bit timing" [("limits", limits.text), ("timing", timing.text)]
  (controlOut h a .bitTiming channel.toUInt16 timing.toBytes).mapError .refused
  (setRunning h a true).mapError .refused

/-- The position and ids of the supported adapter at an index among the supported ones. -/
def find? (ids : List Usb.Ids) (index : Nat) : Option (Usb.Ids × Nat) :=
  (ids.zipIdx.filter fun (ids, _) => supported.contains ids)[index]?

/-- The last bulk endpoint of a direction, or zero. -/
def lastBulk (endpoints : List Usb.Endpoint) (toHost : Bool) : UInt8 :=
  (endpoints.filter fun e => e.kind = .bulk ∧ e.toHost = toHost).foldl (fun _ e => e.address) 0

/-- Opens the supported adapter at an index and starts it at a bit rate. -/
def openAt (h : Usb.Host υ) (index : Nat) (bitrate : UInt32) :
    Routine Note υ OpenFailure Adapter := do
  let s ← Routine.get
  let list ← (Routine.ofExcept (h.list s)).mapError fun text => .refused (.openFailed text)
  match find? list index with
  | none => Routine.fail (.refused (.deviceNotFound 0x1D50 0x606F))
  | some (ids, device) => do
    record .info "Found gs_usb adapter"
      [("vendor_id", Hex.padded 4 ids.vendor.toNat), ("product_id", Hex.padded 4 ids.product.toNat)]
    let configurations ← opened device
    let endpoints ← claimed device
    let found := Usb.endpointsOf configurations interface
    let a : Adapter := ⟨device, ids, endpoints, lastBulk found true, lastBulk found false⟩
    if a.input = 0 then do
      release device
      Routine.fail (.refused (.endpointNotFound "Bulk" "In"))
    else if a.output = 0 then do
      release device
      Routine.fail (.refused (.endpointNotFound "Bulk" "Out"))
    else do
      match ← (start h a bitrate).attempt with
      | .error e => do
        close h a
        Routine.fail e
      | .ok () => do
        record .info "CAN channel started"
          [("in_ep", "0x" ++ Hex.padded 2 a.input.toNat),
            ("out_ep", "0x" ++ Hex.padded 2 a.output.toNat), ("bitrate", s!"{bitrate}")]
        pure a
where
  /-- Opens the device and logs that. -/
  opened (device : Nat) : Routine Note υ OpenFailure (List Usb.Configuration) := fun s =>
    match h.openDevice device s with
    | (answer, s') =>
      ⟨answer.mapError fun text => .refused (.openFailed text), s', [.usb device .opened]⟩
  /-- Claims the interface and logs that. -/
  claimed (device : Nat) : Routine Note υ OpenFailure (List Usb.Endpoint) := fun s =>
    match h.claim device interface s with
    | (answer, s') =>
      ⟨answer.mapError fun text => .refused (.claimFailed interface text), s',
        [.usb device (.claimed interface)]⟩

/-- The endpoint with an address, which has to be a bulk endpoint of the interface. -/
def bulkEndpoint (a : Adapter) (address : UInt8) : Except String Usb.Endpoint :=
  match a.endpoints.find? (·.address = address) with
  | none => .error "specified endpoint does not exist on this interface"
  | some e => if e.kind = .bulk then .ok e else .error "incorrect endpoint type"

/-- Sends a frame. -/
def send (h : Usb.Host υ) (a : Adapter) (f : Frame) : Routine Note υ TransportError Unit := do
  let endpoint ← (Routine.ofExcept (a.bulkEndpoint a.output)).mapError .writeFailed
  let _ ← (transfer h a.device (.bulkOut endpoint.address (HostFrame.encode f channel))).mapError
    fun fault => .writeFailed fault.message

/-- Reads until a frame from the bus has come, or until `deadline`.  Cancelled reads and echoes of
sent frames are passed over.  A read has to be a whole number of packets. -/
def receiveUntil (h : Usb.Host υ) (a : Adapter) (e : Usb.Endpoint) (patience deadline : Nat)
    (s : υ) : Outcome Note υ TransportError Frame :=
  let length := max e.maxPacket HostFrame.size
  let remaining := deadline - (h.clock s).1
  if _timeLeft : remaining = 0 then
    ⟨.error (.timeout (wholeMillis patience)), (h.clock s).2, []⟩
  else if length % e.maxPacket ≠ 0 then
    ⟨.error (.readFailed Usb.Fault.invalidArgument.message), (h.clock s).2, []⟩
  else
    let note : Note := .usb a.device (.transfer (.bulkIn e.address length remaining))
    match _read : h.transfer a.device (.bulkIn e.address length remaining) (h.clock s).2 with
    | (.error .cancelled, s') =>
      match receiveUntil h a e patience deadline s' with
      | ⟨result, s'', log⟩ => ⟨result, s'', note :: log⟩
    | (.error fault, s') => ⟨.error (.readFailed fault.message), s', [note]⟩
    | (.ok data, s') =>
      match HostFrame.decode data with
      | .error failure => ⟨.error failure, s', [note]⟩
      | .ok (some f) => ⟨.ok f, s', [note, .record ⟨.trace, "RX", [("frame", f.text)]⟩]⟩
      | .ok none =>
        match receiveUntil h a e patience deadline s' with
        | ⟨result, s'', log⟩ =>
          ⟨result, s'', note :: .record ⟨.trace, "Dropped TX echo", []⟩ :: log⟩
termination_by if deadline ≤ (h.clock s).1 then 0 else h.backlog s + 1
decreasing_by
  · have progress := h.backlog_cancelled a.device e.address length remaining s
    simp only [_read, true_implies] at progress
    have : deadline - (h.clock s).1 = remaining := rfl
    split <;> split <;> omega
  · have fewer := h.backlog_read a.device e.address length remaining (h.clock s).2 data
    simp only [_read, true_implies] at fewer
    have same := h.backlog_clock s
    have : deadline - (h.clock s).1 = remaining := rfl
    split <;> split <;> omega

/-- A received frame leaves the host with fewer completed reads. -/
theorem backlog_receiveUntil (h : Usb.Host υ) (a : Adapter) (e : Usb.Endpoint)
    (patience deadline : Nat) (s : υ) (f : Frame)
    (ok : (receiveUntil h a e patience deadline s).result = .ok f) :
    h.backlog (receiveUntil h a e patience deadline s).state < h.backlog s := by
  fun_induction receiveUntil h a e patience deadline s with
  | case1 => simp at ok
  | case2 => simp at ok
  | case3 s length remaining _ _ _ s' read result s'' log rest ih =>
    have progress := h.backlog_cancelled a.device e.address length remaining s
    simp only [read, true_implies] at progress
    rw [rest] at ih
    have := ih ok
    simp only at this ⊢
    omega
  | case4 => simp at ok
  | case5 => simp at ok
  | case6 s length remaining _ _ _ data s' read =>
    have fewer := h.backlog_read a.device e.address length remaining (h.clock s).2 data
    simp only [read, true_implies] at fewer
    exact Nat.lt_of_lt_of_le fewer (h.backlog_clock s)
  | case7 s length remaining _ _ _ data s' read _ result s'' log rest ih =>
    have fewer := h.backlog_read a.device e.address length remaining (h.clock s).2 data
    simp only [read, true_implies] at fewer
    have same := h.backlog_clock s
    rw [rest] at ih
    have := ih ok
    simp only at this ⊢
    omega

/-- Waits for the next frame from the bus. -/
def receive (h : Usb.Host υ) (a : Adapter) (patience : Nat) :
    Routine Note υ TransportError Frame := fun s =>
  match a.bulkEndpoint a.input with
  | .error text => ⟨.error (.readFailed text), s, []⟩
  | .ok e => receiveUntil h a e patience ((h.clock s).1 + patience) (h.clock s).2

/-- The adapter as a transport. -/
def transport (h : Usb.Host υ) (a : Adapter) : Transport υ where
  name := a.name
  send := a.send h
  receive := a.receive h
  clock := h.clock
  backlog := h.backlog
  backlog_receive patience s f ok := by
    unfold receive at ok ⊢
    cases found : a.bulkEndpoint a.input with
    | error text => simp [found] at ok
    | ok e =>
      simp only [found] at ok ⊢
      exact Nat.lt_of_lt_of_le (backlog_receiveUntil h a e _ _ _ f ok) (h.backlog_clock s)
  backlog_clock := h.backlog_clock

end Adapter

end CanDfu
