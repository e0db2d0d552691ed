/-
  CanDfu.Node

  A bootloader reached over the bus.  Each command is an endpoint of the node: a request is a data
  frame that packs the arguments, and a command with a result is answered by a frame with the same
  identifier.

    protocol hash   remote frame            answered by a word
    read            address                 answered by a word
    scratch         index, value            not answered
    commit          address [, seed]        answered by a word
    erase           [seed]                  answered by a byte
    reset           nothing                 not answered
-/
import CanDfu.Config.Profile
import CanDfu.Device
import CanDfu.LittleEndian
import CanDfu.Transport

namespace CanDfu

/-- The identifier of every command of one node. -/
structure FrameIds where
  protocolHash : UInt32
  read : UInt32
  scratch : UInt32
  commit : UInt32
  erase : UInt32
  reset : UInt32
  deriving DecidableEq, Repr

/-- The identifiers of a node; a profile that is not valid, or an identifier that does not fit,
is a failure. -/
def FrameIds.resolve (p : Profile) (node : UInt8) : Except ConfigError FrameIds := do
  p.validate
  return {
    protocolHash := ← p.frameId node p.endpoints.protocolHash
    read := ← p.frameId node p.endpoints.read
    scratch := ← p.frameId node p.endpoints.scratch
    commit := ← p.frameId node p.endpoints.commit
    erase := ← p.frameId node p.endpoints.erase
    reset := ← p.frameId node p.endpoints.reset }

/-- A node that has been addressed. -/
structure Node where
  profile : Profile
  ids : FrameIds
  node : UInt8
  /-- How long to wait for an answer, in nanoseconds. -/
  patience : Nat
  /-- The hash the node answered with. -/
  hash : UInt32
  deriving DecidableEq, Repr

/-- An answer that is being waited for. -/
structure Awaited where
  command : String
  id : UInt32
  extended : Bool
  /-- The least number of bytes of the answer, and what is kept of it. -/
  size : Nat
  deriving DecidableEq, Repr

namespace Awaited

/-- Whether a frame is the answer, and not other traffic. -/
def isAnswer (a : Awaited) (f : Frame) : Bool :=
  f.id = a.id && f.extended = a.extended && !f.isRemote

/-- The bytes of an answer, which may not be too short. -/
def accept (a : Awaited) (f : Frame) : Except SessionError (List UInt8) :=
  if f.bytes.length < a.size then .error (.unexpectedResponse a.command f.bytes.length a.size)
  else .ok (f.bytes.take a.size)

variable {τ : Type}

/-- Receives until the answer has come, or until `deadline`.  Other traffic is passed over, and at
most one frame is looked at once the deadline has been reached. -/
def receive (t : Transport τ) (a : Awaited) (patience deadline : Nat) (s : τ) :
    Outcome Note τ SessionError (List UInt8) :=
  let remaining := deadline - (t.clock s).1
  match _h : t.receive remaining (t.clock s).2 with
  | ⟨.error (.timeout _), s', log⟩ => ⟨.error (.noResponse (wholeMillis patience)), s', log⟩
  | ⟨.error e, s', log⟩ => ⟨.error (.transport e), s', log⟩
  | ⟨.ok f, s', log⟩ =>
    if a.isAnswer f then ⟨a.accept f, s', log⟩
    else
      let ignored : Note := .record ⟨.trace, "Ignoring unrelated frame", [("frame", f.text)]⟩
      if remaining = 0 then
        ⟨.error (.noResponse (wholeMillis patience)), s', log ++ [ignored]⟩
      else
        match receive t a patience deadline s' with
        | ⟨result, s'', more⟩ => ⟨result, s'', log ++ ignored :: more⟩
termination_by t.backlog s
decreasing_by
  have fewer := t.backlog_receive remaining (t.clock s).2 f (by rw [_h])
  have same := t.backlog_clock s
  rw [_h] at fewer
  exact Nat.lt_of_lt_of_le fewer same

/-- Waits for the answer.  A wait whose end the clock cannot tell is not begun. -/
def await (t : Transport τ) (a : Awaited) (patience : Nat) :
    Routine Note τ SessionError (List UInt8) := fun s =>
  let deadline := (t.clock s).1 + patience
  if t.tells deadline then a.receive t patience deadline (t.clock s).2
  else ⟨.error .fatal, (t.clock s).2, []⟩

end Awaited

namespace Command

/-- The command in messages about its answer. -/
def name : Command → String
  | read _ => "read_flash_32"
  | scratch .. => "write_scratch_32"
  | commit .. => "commit"
  | erase _ => "erase_all"
  | reset => "reset"

/-- The packed arguments of a command. -/
def arguments : Command → List UInt8
  | read address => LittleEndian.bytes address
  | scratch index value => index :: LittleEndian.bytes value
  | commit address seed => LittleEndian.bytes address ++ (seed.map LittleEndian.bytes).getD []
  | erase seed => (seed.map LittleEndian.bytes).getD []
  | reset => []

/-- The bytes of the answer to a command, if it is answered. -/
def answerSize : Command → Option Nat
  | read _ => some 4
  | scratch .. => none
  | commit .. => some 4
  | erase _ => some 1
  | reset => none

/-- What the bytes of an answer mean. -/
def ofAnswer : (c : Command) → List UInt8 → c.Reply
  | read _, bytes => LittleEndian.firstWord 0 bytes
  | scratch .., _ => ()
  | commit .., bytes => LittleEndian.firstWord 0 bytes
  | erase _, bytes => bytes.headD 0
  | reset, _ => ()

/-- Refuses to stage a word in a register that is not there. -/
def check : Command → Except SessionError Unit
  | scratch index _ => if 4 ≤ index then .error (.invalidScratchIndex index) else .ok ()
  | _ => .ok ()

end Command

/-- The identifier of a command. -/
def FrameIds.ofCommand (ids : FrameIds) : Command → UInt32
  | .read _ => ids.read
  | .scratch .. => ids.scratch
  | .commit .. => ids.commit
  | .erase _ => ids.erase
  | .reset => ids.reset

namespace Node

variable {τ : Type}

/-- The frame that carries a command to the node. -/
def frame (n : Node) (c : Command) : Except TransportError Frame :=
  Frame.ofData (n.ids.ofCommand c) n.profile.extendedId c.arguments

/-- Carries out a command on the node: sends its frame and waits for the answer, if there is to be
one. -/
def call (t : Transport τ) (n : Node) (c : Command) : Routine Note τ SessionError c.Reply := do
  Routine.ofExcept c.check
  let frame ← (Routine.ofExcept (n.frame c)).mapError .transport
  Routine.emit (.record ⟨.trace, "TX", [("frame", frame.text)]⟩)
  (t.send frame).mapError .transport
  match c.answerSize with
  | none => pure (c.ofAnswer [])
  | some size => do
    let answer ←
      Awaited.await t ⟨c.name, n.ids.ofCommand c, n.profile.extendedId, size⟩ n.patience
    pure (c.ofAnswer answer)

/-- The last argument of the node's commit and erase. -/
def seed (n : Node) : Option UInt32 :=
  if n.profile.seededCommands then some n.hash else none

/-- The node as a device. -/
def device (t : Transport τ) (n : Node) : Device τ where
  call := n.call t
  seed _ := n.seed

/-- The frame that asks a node for its protocol hash. -/
def hashProbe (ids : FrameIds) (profile : Profile) : Frame :=
  Frame.remote ids.protocolHash profile.extendedId 4

/-- Addresses a node by asking for its protocol hash.  A node the profile cannot address is
refused before anything is sent. -/
def connect (t : Transport τ) (profile : Profile) (node : UInt8) (patience : Nat) :
    Routine Note τ SessionError Node := do
  let ids ← (Routine.ofExcept (FrameIds.resolve profile node)).mapError .addressing
  (t.send (hashProbe ids profile)).mapError .transport
  let answer ←
    Awaited.await t ⟨"protocol_hash", ids.protocolHash, profile.extendedId, 4⟩ patience
  let hash := LittleEndian.firstWord 0 answer
  Routine.emit (.record ⟨.debug, "Device connected",
    [("node_id", s!"{node}"), ("adapter", t.name), ("hash", Hex.address hash)]⟩)
  pure ⟨profile, ids, node, patience, hash⟩

end Node

end CanDfu
