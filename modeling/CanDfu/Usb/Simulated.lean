/-
  CanDfu.Usb.Simulated

  A USB host in memory, for the bench.  Each device has a list of what its reads complete with;
  chosen control transfers and writes fail.  Time passes only while a read waits in vain.
-/
import CanDfu.Usb.Host

namespace CanDfu.Usb

/-- What a bulk read completes with. -/
inductive Completion
  | data (bytes : List UInt8)
  | failed (errno : Nat)
  /-- Nothing arrives: the read waits until it is given up. -/
  | silence
  deriving DecidableEq, Repr

/-- The transfer failure of an error number. -/
def Fault.ofErrno (errno : Nat) : Fault :=
  if errno ∈ [19, 108] then .disconnected
  else if errno = 32 then .stalled
  else if errno ∈ [2, 104, 110] then .cancelled
  else if errno ∈ [71, 84, 75, 70, 62] then .hardware
  else if errno = 22 then .invalidArgument
  else .unknown errno

/-- A simulated device. -/
structure SimulatedDevice where
  ids : Ids
  configurations : List Configuration := []
  /-- The configuration in use; the first one if absent. -/
  active : Option UInt8 := none
  /-- Raw descriptors in place of the configurations. -/
  rawDescriptors : Option (List UInt8) := none
  openErrno : Option Nat := none
  claimErrno : Option Nat := none
  /-- The answer to control reads. -/
  controlAnswer : List UInt8 := []
  /-- Control transfers that fail, by position among all control transfers. -/
  controlErrors : List (Nat × Nat) := []
  /-- Writes that fail, by position among all writes. -/
  outErrors : List (Nat × Nat) := []
  /-- What reads complete with, in order. -/
  incoming : List Completion := []
  controls : Nat := 0
  outs : Nat := 0

namespace SimulatedDevice

/-- Whether raw descriptors start with a complete device descriptor. -/
def completeDescriptor (bytes : List UInt8) : Bool :=
  18 ≤ bytes.length && 18 ≤ bytes.headD 0 && bytes.getD 1 0 == 1

/-- What the device says about itself; raw descriptors name no configuration. -/
def described (d : SimulatedDevice) : Except String (List Configuration) :=
  match d.rawDescriptors with
  | none => .ok d.configurations
  | some bytes =>
    if completeDescriptor bytes then .ok [] else .error "invalid device descriptor"

/-- Opens the device. -/
def opened (d : SimulatedDevice) : Except String (List Configuration) :=
  match d.openErrno with
  | none => d.described
  | some errno =>
    .error <|
      if errno = 2 then s!"device not found (errno {errno})"
      else if errno ∈ [1, 13] then s!"permission denied (errno {errno})"
      else s!"failed to open device (errno {errno})"

/-- Claims an interface. -/
def claimed (d : SimulatedDevice) (interface : UInt8) : Except String (List Endpoint) :=
  match d.claimErrno with
  | some errno =>
    .error <|
      if errno ∈ [2, 22] then s!"interface not found (errno {errno})"
      else if errno = 16 then s!"interface is busy (errno {errno})"
      else if errno = 19 then s!"device disconnected (errno {errno})"
      else s!"failed to claim interface (errno {errno})"
  | none =>
    match d.described with
    | .error _ => .ok []
    | .ok configurations =>
      let first := (configurations.map (·.value)).headD 0
      .ok (activeEndpoints configurations (d.active.getD first) interface)

/-- Answers a control transfer. -/
def control (d : SimulatedDevice) (answer : List UInt8) :
    Except Fault (List UInt8) × SimulatedDevice :=
  let d' := { d with controls := d.controls + 1 }
  match d.controlErrors.find? (·.1 = d.controls) with
  | some (_, errno) => (.error (.ofErrno errno), d')
  | none => (.ok answer, d')

/-- Takes a write. -/
def write (d : SimulatedDevice) : Except Fault (List UInt8) × SimulatedDevice :=
  let d' := { d with outs := d.outs + 1 }
  match d.outErrors.find? (·.1 = d.outs) with
  | some (_, errno) => (.error (.ofErrno errno), d')
  | none => (.ok [], d')

/-- What a completion is for a read of a given length; nothing for silence. -/
def completed (length : Nat) : Completion → Option (Except Fault (List UInt8))
  | .data bytes => some (if length < bytes.length then .error (.ofErrno 75) else .ok bytes)
  | .failed errno => some (.error (.ofErrno errno))
  | .silence => none

/-- Answers a read at once, or not at all. -/
def read (d : SimulatedDevice) (length : Nat) :
    Option (Except Fault (List UInt8)) × SimulatedDevice :=
  match d.incoming with
  | [] => (none, d)
  | c :: rest => (completed length c, { d with incoming := rest })

end SimulatedDevice

/-- A simulated host: its devices, unless it has no USB at all, and its clock. -/
structure SimulatedHost where
  devices : Option (List SimulatedDevice) := none
  now : Nat := 0

namespace SimulatedHost

/-- The device at a position. -/
def device? (h : SimulatedHost) (position : Nat) : Option SimulatedDevice :=
  h.devices.bind (·[position]?)

/-- Replaces the device at a position. -/
def setDevice (h : SimulatedHost) (position : Nat) (d : SimulatedDevice) : SimulatedHost :=
  { h with devices := h.devices.map (·.set position d) }

/-- The devices present. -/
def list (h : SimulatedHost) : Except String (List Ids) :=
  match h.devices with
  | none => .error "/sys/bus/usb/devices/ not found (errno 2)"
  | some devices => .ok (devices.map (·.ids))

/-- Carries out a transfer. -/
def transfer (position : Nat) (t : Transfer) (h : SimulatedHost) :
    Except Fault (List UInt8) × SimulatedHost :=
  match h.device? position with
  | none => (.error .disconnected, h)
  | some d =>
    match t with
    | .controlOut .. =>
      let (answer, d) := d.control []
      (answer, h.setDevice position d)
    | .controlIn _ _ _ length =>
      let (answer, d) := d.control (d.controlAnswer.take length)
      (answer, h.setDevice position d)
    | .bulkOut .. =>
      let (answer, d) := d.write
      (answer, h.setDevice position d)
    | .bulkIn _ length patience =>
      match d.read length with
      | (some answer, d) => (answer, h.setDevice position d)
      | (none, d) =>
        (.error .cancelled, { h.setDevice position d with now := h.now + patience })

/-- The reads that some devices still hold. -/
def held : List SimulatedDevice → Nat
  | [] => 0
  | d :: rest => d.incoming.length + held rest

/-- The reads that all devices still hold. -/
def backlog (h : SimulatedHost) : Nat := held (h.devices.getD [])

/-- Replacing one device changes the number of reads held by the change of that device. -/
theorem held_set (l : List SimulatedDevice) (i : Nat) (d d' : SimulatedDevice)
    (present : l[i]? = some d) :
    held (l.set i d') + d.incoming.length = held l + d'.incoming.length := by
  induction l generalizing i with
  | nil => simp at present
  | cons c l ih =>
    cases i with
    | zero =>
      simp only [List.getElem?_cons_zero, Option.some.injEq] at present
      subst present
      simp only [List.set_cons_zero, held]
      omega
    | succ i =>
      have := ih i (by simpa using present)
      simp only [List.set_cons_succ, held]
      omega

/-- The reads a host holds after one device has been replaced. -/
theorem backlog_setDevice {h : SimulatedHost} {position : Nat} {d : SimulatedDevice}
    (present : h.device? position = some d) (d' : SimulatedDevice) :
    (h.setDevice position d').backlog + d.incoming.length
      = h.backlog + d'.incoming.length := by
  unfold device? at present
  cases hd : h.devices with
  | none => simp [hd] at present
  | some devices =>
    have := held_set devices position d d' (by simpa [hd] using present)
    simpa [backlog, setDevice, hd] using this

/-- A read that is answered leaves one fewer; one that is not leaves no more. -/
theorem length_incoming_read (d : SimulatedDevice) (length : Nat) :
    ((d.read length).1.isSome → (d.read length).2.incoming.length < d.incoming.length) ∧
      (d.read length).2.incoming.length ≤ d.incoming.length := by
  unfold SimulatedDevice.read
  cases h : d.incoming <;> simp [h]

/-- The simulated host as a host. -/
def host : Host SimulatedHost where
  list := list
  openDevice position h :=
    ((h.device? position).elim (.error "device not found (errno 2)") SimulatedDevice.opened, h)
  claim position interface h :=
    ((h.device? position).elim (.error "device disconnected (errno 19)") (·.claimed interface), h)
  transfer := transfer
  clock h := (h.now, h)
  backlog := backlog
  backlog_clock _ := Nat.le_refl _
  backlog_read position endpoint length patience h data ok := by
    unfold transfer at ok ⊢
    cases present : h.device? position with
    | none => simp [present] at ok
    | some d =>
      have fewer := length_incoming_read d length
      simp only [present] at ok ⊢
      cases hr : d.read length with
      | mk answer d' =>
        have moved := backlog_setDevice present d'
        rw [hr] at fewer
        cases answer with
        | none => simp [hr] at ok
        | some answer => simp_all; omega
  backlog_cancelled position endpoint length patience h := by
    intro now after cancelled
    simp only [after, now] at cancelled ⊢
    unfold transfer at cancelled ⊢
    cases present : h.device? position with
    | none => simp [present] at cancelled
    | some d =>
      have fewer := length_incoming_read d length
      simp only [present] at cancelled ⊢
      cases hr : d.read length with
      | mk answer d' =>
        have moved := backlog_setDevice present d'
        rw [hr] at fewer
        cases answer with
        | none =>
          right
          constructor
          · simp only [backlog, setDevice] at moved ⊢
            have := fewer.2
            simp only at this
            omega
          · simp
        | some answer =>
          left
          have := fewer.1 rfl
          simp only at this ⊢
          omega

end SimulatedHost

end CanDfu.Usb
