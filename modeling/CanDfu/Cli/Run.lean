/-
  CanDfu.Cli.Run

  What the program does with an accepted command line: load the configuration, check that the node
  can be addressed, load the image, open the bus, and upload or recover.  An adapter that was
  opened is closed before the run ends, however it ends.
-/
import CanDfu.Bus
import CanDfu.Cli.Args
import CanDfu.Files
import CanDfu.Node
import CanDfu.Recovery
import CanDfu.Upload.Uploader

namespace CanDfu.Cli

/-- Why a run failed. -/
inductive Failure
  | load (path : String) (cause : LoadError)
  | config (cause : ConfigError)
  | transport (cause : TransportError)
  | session (cause : SessionError)
  | dfu (cause : DfuError)
  /-- No image to upload. -/
  | noImage
  /-- The device stayed silent for as many attempts as a run makes. -/
  | noAnswer
  /-- The program cannot go on. -/
  | fatal
  deriving DecidableEq, Repr

namespace Failure

/-- The message of a configuration that was not loaded. -/
def loadMessage : LoadError → String
  | .os text => text
  | .malformed => "TOML parse error"
  | .invalid cause => cause.message

/-- Why a run failed whose bus did not open. -/
def ofOpening : OpenFailure → Failure
  | .refused cause => .transport cause
  | .fatal => .fatal

/-- The messages of a failure and of its causes. -/
def chain : Failure → String
  | load path cause => s!"Failed to load config {path}: {loadMessage cause}"
  | config cause => cause.message
  | transport cause => cause.chain
  | session cause => cause.chain
  | dfu cause => cause.chain
  | noImage => "No firmware image specified"
  | noAnswer => "No response from device"
  | fatal => "Adapter limits out of range"

end Failure

/-- What a run leaves behind, in order. -/
inductive Line
  | entry (e : Entry)
  /-- A record of the program itself. -/
  | report (r : Record)

namespace Line

/-- The record of a line, of the program or of the layers below it. -/
def record? : Line → Option Record
  | entry e => e.record?
  | report r => some r

/-- The record of a line, if it is one of the program itself. -/
def report? : Line → Option Record
  | entry _ => none
  | report r => some r

/-- The USB access of a line that is one. -/
def access? : Line → Option (Nat × Usb.Access)
  | entry (.note n) => n.access?
  | _ => none

/-- What a line writes to the terminal: the prompts of a recovery. -/
def printed : Line → String
  | entry (.prompt .powerOff) =>
    "Please power off the device and then press Enter to continue...\n"
  | entry (.prompt .powerOn) => "Now power on the device.\n"
  | _ => ""

end Line

/-- A configuration with the choices of the command line in place of its own. -/
def Args.override (a : Args) (c : Config) : Config :=
  { c with
    bus :=
      { backends := (a.bus.map Blank.names).getD c.bus.backends
        channel := a.channel <|> c.bus.channel
        bitrate := a.bitrate.getD c.bus.bitrate } }

/-- The configuration of a run. -/
def loadConfig (files : Files) (a : Args) : Except Failure Config := do
  let loaded ←
    match a.config with
    | some path => (Config.load (files path)).mapError (.load path)
    | none => .ok {}
  let c := a.override loaded
  c.validate.mapError .config
  return c

/-- The operator at a terminal, who always does what is asked. -/
def terminalOperator : Operator := fun _ => .ok ()

section

variable {υ : Type}

/-- Logs a record of the program itself. -/
def report {ε : Type} (level : Level) (message : String)
    (fields : List (String × String)) : Routine Line υ ε Unit :=
  Routine.emit (.report ⟨level, message, fields⟩)

/-- A step of the layers below, as a step of the program. -/
def lower {ε α : Type} (wrap : ε → Failure) (r : Routine Note υ ε α) :
    Routine Line υ Failure α :=
  (r.mapLog fun n => .entry (.note n)).mapError wrap

/-- Reaches a device that does not answer. -/
def recover (t : Transport υ) (operator : Operator) (profile : Profile) (a : Args)
    (patience limit : Nat) : Routine Line υ Failure Unit := do
  let recovery := Recovery.run operator (Node.connect t profile a.node patience) 0 limit
  let found ← ((recovery.zoom (fun s => ⟨0, s⟩) fun r _ => r.bus).mapLog .entry).mapError .dfu
  match found with
  | some n => report .info "The device is now in DFU mode" [("node_id", s!"{n.node}")]
  | none => Routine.fail .noAnswer

/-- Reports how an upload ended. -/
def reportResult {ε : Type} : UploadResult → Routine Line υ ε Unit
  | .upToDate => report .info "Device firmware matches the bin file, skipping flash" []
  | .flashed nvmRestored verification reset => do
    match verification with
    | .identical => pure ()
    | .differs address _ _ =>
      report .error "Device firmware does not match the bin file after flashing"
        [("address", Hex.address address)]
    if !reset then report .warn "Device left in bootloader (--no-reset)" []
    report .info "Upload finished" [("nvm_restored", s!"{nvmRestored}"), ("reset", s!"{reset}")]

/-- Uploads an image. -/
def upload (t : Transport υ) (config : Config) (profile : Profile) (a : Args) (patience : Nat)
    (image : Image) : Routine Line υ Failure Unit := do
  let n ← lower .session (Node.connect t profile a.node patience)
  let s ← Routine.get
  let uploader := Uploader.forDevice (n.device t) s config ⟨a.force, !a.noReset⟩
  let run := (uploader.run (n.device t) image).zoom (fun s => ⟨{}, s⟩) fun u _ => u.device
  reportResult (← (run.mapLog .entry).mapError .dfu)

/-- Uploads or recovers over an opened adapter. -/
def useBus (t : Transport υ) (operator : Operator) (config : Config) (profile : Profile) (a : Args)
    (limit : Nat) (image : Option Image) : Routine Line υ Failure Unit :=
  let patience := config.responseTimeout.toNat * nanosPerMilli
  if a.recovery then recover t operator profile a patience limit
  else
    match image with
    | some image => upload t config profile a patience image
    | none => Routine.fail .noImage

/-- Uses an opened adapter and closes it, however the use ended. -/
def closing (h : Usb.Host υ) (adapter : Adapter) (use : Routine Line υ Failure Unit) :
    Routine Line υ Failure Unit := do
  let ended ← use.attempt
  lower id (adapter.close h)
  Routine.ofExcept ended

/-- Opens a bus, uses its adapter, and closes it again. -/
def overBus (h : Usb.Host υ) (c : BusConfig) (use : Adapter → Routine Line υ Failure Unit) :
    Routine Line υ Failure Unit := do
  let adapter ← lower .ofOpening (Bus.openBus h c)
  closing h adapter (use adapter)

/-- Checks that every command of a node can be addressed. -/
def checkAddressable (profile : Profile) (node : UInt8) :
    List (String × UInt16) → Except ConfigError Unit
  | [] => .ok ()
  | (_, endpoint) :: rest =>
    match profile.frameId node endpoint with
    | .ok _ => checkAddressable profile node rest
    | .error e => .error e

/-- Loads the image of a command line that names one. -/
def loadImage (files : Files) (a : Args) : Routine Line υ Failure (Option Image) :=
  match a.bin with
  | some path => do
    let image ← lower .dfu (Image.load files path)
    pure (some image)
  | none => pure none

/-- One run of the program; a recovery makes at most `limit` attempts. -/
def run (h : Usb.Host υ) (files : Files) (a : Args) (limit : Nat) :
    Routine Line υ Failure Unit := do
  let config ← Routine.ofExcept (loadConfig files a)
  let profile ← (Routine.ofExcept config.requireProfile).mapError .config
  (Routine.ofExcept (checkAddressable profile a.node profile.endpoints.named)).mapError .config
  let image ← loadImage files a
  overBus h config.bus fun adapter =>
    useBus (adapter.transport h) terminalOperator config profile a limit image

end

/-- The end of the program: exit status, records and output, and what became of the host. -/
structure Finished (υ : Type) where
  status : UInt8
  lines : List Line
  host : υ

/-- The program: a first record, a run, and a last record if the run failed. -/
def program {υ : Type} (h : Usb.Host υ) (files : Files) (a : Args) (limit : Nat) (s : υ) :
    Finished υ :=
  let first : Line := .report ⟨.info, "Starting mcdfu", [("node_id", s!"{a.node}")]⟩
  match run h files a limit s with
  | ⟨.ok (), s', log⟩ => ⟨0, first :: log, s'⟩
  | ⟨.error .fatal, s', log⟩ => ⟨101, first :: log, s'⟩
  | ⟨.error e, s', log⟩ =>
    ⟨1, first :: log ++ [.report ⟨.error, "Error: " ++ e.chain, []⟩], s'⟩

end CanDfu.Cli
