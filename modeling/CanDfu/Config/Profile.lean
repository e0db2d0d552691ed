/-
  CanDfu.Config.Profile

  How a device maps its commands onto bus identifiers.  Each command has an endpoint; the
  identifier of a command is the node id, shifted left, joined with the endpoint.
-/
import CanDfu.Config.Error

namespace CanDfu

/-- The largest identifier of a standard frame: 11 bits. -/
def standardIdLimit : UInt32 := 0x7FF

/-- The largest identifier of an extended frame: 29 bits. -/
def extendedIdLimit : UInt32 := 0x1FFFFFFF

/-- The endpoint of each command. -/
structure Endpoints where
  protocolHash : UInt16
  read : UInt16
  scratch : UInt16
  commit : UInt16
  erase : UInt16
  reset : UInt16
  deriving DecidableEq, Repr

/-- Every endpoint with the name of its command. -/
def Endpoints.named (e : Endpoints) : List (String × UInt16) :=
  [("protocol_hash", e.protocolHash), ("read_flash_32", e.read), ("write_scratch_32", e.scratch),
    ("commit", e.commit), ("erase_all", e.erase), ("reset", e.reset)]

/-- The bus side of a device. -/
structure Profile where
  /-- Bits of the endpoint below the node id. -/
  nodeIdShift : UInt8
  /-- Whether identifiers have 29 bits. -/
  extendedId : Bool := false
  /-- Whether commit and erase carry the protocol hash as a last argument. -/
  seededCommands : Bool := false
  endpoints : Endpoints
  deriving DecidableEq, Repr

namespace Profile

/-- Refuses the first endpoint that reaches into the bits of the node id. -/
def validateEndpoints (shift : UInt8) : List (String × UInt16) → Except ConfigError Unit
  | [] => .ok ()
  | (name, endpoint) :: rest =>
    if endpoint.toNat >>> shift.toNat ≠ 0 then
      .error (.endpointOverflowsShift name endpoint shift)
    else validateEndpoints shift rest

/-- Accepts the profiles whose identifiers keep node and endpoint apart. -/
def validate (p : Profile) : Except ConfigError Unit :=
  if 32 ≤ p.nodeIdShift then .error (.invalidNodeIdShift p.nodeIdShift)
  else validateEndpoints p.nodeIdShift p.endpoints.named

/-- The largest identifier of the profile's width. -/
def maxFrameId (p : Profile) : UInt32 :=
  if p.extendedId then extendedIdLimit else standardIdLimit

/-- The identifier of an endpoint of a node.  It is computed in a 64-bit word: a shift that is too
wide for the word, or that loses bits of the node id, is out of range. -/
def frameId (p : Profile) (node : UInt8) (endpoint : UInt16) : Except ConfigError UInt32 :=
  let limit := p.maxFrameId
  let shift := p.nodeIdShift.toUInt64
  let base := node.toUInt64 <<< shift
  if 64 ≤ p.nodeIdShift ∨ base >>> shift ≠ node.toUInt64 then
    .error (.frameIdOutOfRange node endpoint limit)
  else
    let id := base ||| endpoint.toUInt64
    if limit.toUInt64 < id then .error (.frameIdOutOfRange node endpoint limit)
    else .ok id.toUInt32

end Profile

end CanDfu
