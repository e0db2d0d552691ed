/-
  CanDfu.Error

  Failures by layer: of the bus adapter, of a session with a device, and of the whole job.  Each
  wraps the one below, `message` is what it says on its own, and `chain` repeats below it what its
  cause says, as the command line reports a failure.
-/
import CanDfu.Config.Error
import CanDfu.Stage

namespace CanDfu

/-- A failure of the bus adapter or of the frames it hands over. -/
inductive TransportError
  | deviceNotFound (vendor product : UInt16)
  | noAdapter (tried : String)
  | openFailed (text : String)
  | claimFailed (interface : UInt8) (text : String)
  | endpointNotFound (kind direction : String)
  | controlFailed (request : UInt8) (text : String)
  | unsupportedBitrate (bitrate clock : UInt32)
  | writeFailed (text : String)
  | readFailed (text : String)
  | malformedFrame (text : String)
  | timeout (millis : UInt64)
  | os (text : String)
  deriving DecidableEq, Repr

namespace TransportError

/-- The message of a transport failure. -/
def message : TransportError → String
  | deviceNotFound vendor product =>
    s!"Device not found: VID={Hex.padded 4 vendor.toNat} PID={Hex.padded 4 product.toNat}"
  | noAdapter tried => s!"No CAN adapter available (tried: {tried})"
  | openFailed text => s!"Failed to open device: {text}"
  | claimFailed interface text => s!"Failed to claim interface {interface}: {text}"
  | endpointNotFound kind direction => s!"Endpoint not found: type={kind}, direction={direction}"
  | controlFailed request text => s!"Control request {request} failed: {text}"
  | unsupportedBitrate bitrate clock =>
    s!"Unsupported bitrate {bitrate} for a {clock} Hz CAN clock"
  | writeFailed text => s!"Write failed: {text}"
  | readFailed text => s!"Read failed: {text}"
  | malformedFrame text => s!"Malformed frame: {text}"
  | timeout millis => s!"Timeout after {millis}ms"
  | os text => s!"IO error: {text}"

/-- The messages of a transport failure and of its cause. -/
def chain (e : TransportError) : String :=
  match e with
  | os text => e.message ++ ": " ++ text
  | _ => e.message

end TransportError

/-- A failed request to a device. -/
inductive SessionError
  | noResponse (millis : UInt64)
  | unsupportedArgument (command : String)
  | rejected (text : String)
  | unexpectedResponse (command : String) (size expected : Nat)
  | invalidScratchIndex (index : UInt8)
  | addressing (cause : ConfigError)
  | transport (cause : TransportError)
  /-- The end of a wait is beyond what the clock can tell, and the program stops at once. -/
  | fatal
  deriving DecidableEq, Repr

namespace SessionError

/-- The message of a failed request. -/
def message : SessionError → String
  | noResponse millis => s!"No response from device within {millis}ms"
  | unsupportedArgument command => "Device rejected the argument list of \x60" ++ command ++ "\x60"
  | rejected text => s!"Device rejected request: {text}"
  | unexpectedResponse command size expected =>
    "Unexpected response to \x60" ++ command ++ s!"\x60: {size} bytes, expected {expected}"
  | invalidScratchIndex index => s!"Scratch register index {index} out of range"
  | addressing cause => s!"Cannot address device: {cause.message}"
  | transport cause => s!"Transport error: {cause.message}"
  | fatal => "End of a wait out of range"

/-- The messages of a failed request and of its causes. -/
def chain (e : SessionError) : String :=
  match e with
  | addressing cause => e.message ++ ": " ++ cause.message
  | transport cause => e.message ++ ": " ++ cause.chain
  | _ => e.message

end SessionError

/-- A failed upload or recovery. -/
inductive DfuError
  | imageNotFound (path : String)
  | emptyImage (path : String)
  | eraseFailure (status : UInt8)
  | checksumMismatch (address expected actual : UInt32)
  | verifyMismatch (address expected actual : UInt32)
  | invalidTransition (current requested : Stage)
  | config (cause : ConfigError)
  | session (cause : SessionError)
  | os (text : String)
  deriving DecidableEq, Repr

namespace DfuError

/-- The message of a failed upload or recovery. -/
def message : DfuError → String
  | imageNotFound path => s!"Firmware image {path} not found"
  | emptyImage path => s!"Firmware image {path} is empty"
  | eraseFailure status => s!"Flash erase failed with status {status}"
  | checksumMismatch address expected actual =>
    s!"Checksum mismatch at address {Hex.address address}: expected {Hex.address expected}, device reported {Hex.address actual}"
  | verifyMismatch address expected actual =>
    s!"Verification failed at address {Hex.address address}: expected {Hex.address expected}, read {Hex.address actual}"
  | invalidTransition current requested =>
    s!"Invalid state transition {current.label} -> {requested.label}"
  | config cause => s!"Configuration error: {cause.message}"
  | session cause => s!"Device error: {cause.message}"
  | os text => s!"IO error: {text}"

/-- The messages of a failed upload or recovery and of its causes. -/
def chain (e : DfuError) : String :=
  match e with
  | config cause => e.message ++ ": " ++ cause.message
  | session cause => e.message ++ ": " ++ cause.chain
  | os text => e.message ++ ": " ++ text
  | _ => e.message

end DfuError

end CanDfu
