/-
  CanDfu.Config.Error

  What can be wrong with a configuration, and how it is told to the user.
-/
import CanDfu.Text.Hex

namespace CanDfu

/-- A configuration that cannot be used. -/
inductive ConfigError
  | misaligned (name : String) (address : UInt32)
  | invalidNvmSize (size : UInt32)
  | nvmOverlapsFlashBase (first last flashBase : UInt32)
  | nvmOutOfRange (first size : UInt32)
  | missingProfile
  | zeroBitrate
  | invalidNodeIdShift (shift : UInt8)
  | endpointOverflowsShift (name : String) (endpoint : UInt16) (shift : UInt8)
  | frameIdOutOfRange (node : UInt8) (endpoint : UInt16) (limit : UInt32)
  | imageTooLarge (size : Nat) (flashBase : UInt32) (limit : Nat)
  deriving DecidableEq, Repr

/-- The message of a configuration error. -/
def ConfigError.message : ConfigError → String
  | misaligned name address => s!"{name} {Hex.address address} is not aligned to 16 bytes"
  | invalidNvmSize size => s!"NVM size {size} is not a non-zero multiple of 16 bytes"
  | nvmOverlapsFlashBase first last flashBase =>
    s!"NVM region {Hex.address first}..{Hex.address last} overlaps the flash base {Hex.address flashBase}"
  | nvmOutOfRange first size =>
    s!"NVM region {Hex.address first} + {size} exceeds the 32-bit address space"
  | missingProfile => "No device profile configured; add a [profile] table to the config file"
  | zeroBitrate => "Bitrate must be non-zero"
  | invalidNodeIdShift shift =>
    s!"node_id_shift {shift} leaves no room for a node id (must be below 32)"
  | endpointOverflowsShift name endpoint shift =>
    s!"Endpoint {name} = {endpoint} does not fit below the node id shift of {shift} bits"
  | frameIdOutOfRange node endpoint limit =>
    s!"Node {node} endpoint {endpoint} needs a frame id above {Hex.address limit}"
  | imageTooLarge size flashBase limit =>
    s!"Image of {size} bytes at {Hex.address flashBase} exceeds the {limit} bytes available below NVM"

/-- A check passes when its condition does not hold and the checks after it pass. -/
theorem check_eq_ok_iff {p : Prop} [Decidable p] {e : ConfigError} {rest : Except ConfigError Unit} :
    (if p then .error e else rest) = .ok () ↔ ¬ p ∧ rest = .ok () := by
  by_cases hp : p <;> simp [hp]

end CanDfu
