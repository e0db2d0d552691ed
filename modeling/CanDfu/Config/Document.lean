/-
  CanDfu.Config.Document

  A configuration as a TOML document.  What a document leaves out takes its default, where it has
  one; keys that mean nothing here are passed over.  A table may also be given as the array of its
  values in order.
-/
import CanDfu.Config
import CanDfu.Toml.Parser
import CanDfu.Toml.Printer

namespace CanDfu.Config.Document

open Toml (Value Table)

/-! ## Reading -/

/-- The fields of a record, as a table or an array gives them. -/
inductive Fields
  | named (entries : Table)
  | listed (items : List Value)

/-- The fields a value gives.  A date gives none by name. -/
def Fields.ofValue? : Value → Option Fields
  | .table entries => some (.named entries)
  | .array items => some (.listed items)
  | .datetime _ => some (.named [])
  | _ => none

/-- The value of the field with a name and a position, if it is given. -/
def Fields.get? (f : Fields) (name : String) (position : Nat) : Option Value :=
  match f with
  | .named entries => entries.get? name
  | .listed items => items[position]?

/-- Reads a field; one that is not given is a failure. -/
def required {α : Type} (read : Value → Option α) (f : Fields) (name : String) (position : Nat) :
    Option α := do
  read (← f.get? name position)

/-- Reads a field; one that is not given has a default. -/
def optional {α : Type} (read : Value → Option α) (default : α) (f : Fields) (name : String)
    (position : Nat) : Option α :=
  match f.get? name position with
  | some v => read v
  | none => some default

/-- An integer from zero to below a bound. -/
def natural (bound : Nat) : Value → Option Nat
  | .integer n => if 0 ≤ n ∧ n < bound then some n.toNat else none
  | _ => none

/-- An integer of 8 bits. -/
def word8 (v : Value) : Option UInt8 := (natural 0x100 v).map UInt8.ofNat

/-- An integer of 16 bits. -/
def word16 (v : Value) : Option UInt16 := (natural 0x10000 v).map UInt16.ofNat

/-- An integer of 32 bits. -/
def word32 (v : Value) : Option UInt32 := (natural 0x100000000 v).map UInt32.ofNat

/-- An integer of 64 bits. -/
def word64 (v : Value) : Option UInt64 := (natural 0x10000000000000000 v).map UInt64.ofNat

/-- A truth value. -/
def flag : Value → Option Bool
  | .boolean b => some b
  | _ => none

/-- A text. -/
def text : Value → Option String
  | .string s => some s
  | _ => none

/-- A list of texts. -/
def texts : Value → Option (List String)
  | .array items => items.mapM text
  | _ => none

/-- Reads a memory map. -/
def layout (v : Value) : Option Layout := do
  let f ← Fields.ofValue? v
  let default : Layout := {}
  let flashBase ← optional word32 default.flashBase f "flash_base" 0
  let nvmBase ← optional word32 default.nvmBase f "nvm_base" 1
  let nvmSize ← optional word32 default.nvmSize f "nvm_size" 2
  some ⟨flashBase, nvmBase, nvmSize⟩

/-- Reads a choice of bus. -/
def bus (v : Value) : Option BusConfig := do
  let f ← Fields.ofValue? v
  let default : BusConfig := {}
  let backends ← optional texts default.backends f "backends" 0
  let channel ← optional (fun v => (word32 v).map some) default.channel f "channel" 1
  let bitrate ← optional word32 default.bitrate f "bitrate" 2
  some ⟨backends, channel, bitrate⟩

/-- Reads the endpoints of a profile. -/
def endpoints (v : Value) : Option Endpoints := do
  let f ← Fields.ofValue? v
  let protocolHash ← required word16 f "protocol_hash" 0
  let read ← required word16 f "read_flash_32" 1
  let scratch ← required word16 f "write_scratch_32" 2
  let commit ← required word16 f "commit" 3
  let erase ← required word16 f "erase_all" 4
  let reset ← required word16 f "reset" 5
  some ⟨protocolHash, read, scratch, commit, erase, reset⟩

/-- Reads a device profile. -/
def profile (v : Value) : Option Profile := do
  let f ← Fields.ofValue? v
  let nodeIdShift ← required word8 f "node_id_shift" 0
  let extendedId ← optional flag false f "extended_id" 1
  let seededCommands ← optional flag false f "seeded_commands" 2
  let endpoints ← required endpoints f "endpoints" 3
  some ⟨nodeIdShift, extendedId, seededCommands, endpoints⟩

/-- Reads a configuration. -/
def ofTable? (t : Table) : Option Config := do
  let f : Fields := .named t
  let default : Config := {}
  let scratchWriteDelay ← optional word64 default.scratchWriteDelay f "scratch_write_delay_us" 0
  let responseTimeout ← optional word64 default.responseTimeout f "response_timeout_ms" 1
  let layout ← optional layout default.layout f "layout" 2
  let bus ← optional bus default.bus f "bus" 3
  let profile ← optional (fun v => (profile v).map some) default.profile f "profile" 4
  some ⟨scratchWriteDelay, responseTimeout, layout, bus, profile⟩

/-! ## Writing -/

/-- A number as a value. -/
def ofNat (n : Nat) : Value := .integer n

/-- A memory map as a table. -/
def ofLayout (l : Layout) : Table :=
  [("flash_base", ofNat l.flashBase.toNat), ("nvm_base", ofNat l.nvmBase.toNat),
    ("nvm_size", ofNat l.nvmSize.toNat)]

/-- A choice of bus as a table. -/
def ofBus (b : BusConfig) : Table :=
  [("backends", .array (b.backends.map .string))]
    ++ (b.channel.map fun c => ("channel", ofNat c.toNat)).toList
    ++ [("bitrate", ofNat b.bitrate.toNat)]

/-- The endpoints of a profile as a table. -/
def ofEndpoints (e : Endpoints) : Table :=
  e.named.map fun (name, endpoint) => (name, ofNat endpoint.toNat)

/-- A device profile as a table. -/
def ofProfile (p : Profile) : Table :=
  [("node_id_shift", ofNat p.nodeIdShift.toNat), ("extended_id", .boolean p.extendedId),
    ("seeded_commands", .boolean p.seededCommands),
    ("endpoints", .table (ofEndpoints p.endpoints))]

/-- A configuration as a table. -/
def toTable (c : Config) : Table :=
  [("scratch_write_delay_us", ofNat c.scratchWriteDelay.toNat),
    ("response_timeout_ms", ofNat c.responseTimeout.toNat),
    ("layout", .table (ofLayout c.layout)), ("bus", .table (ofBus c.bus))]
    ++ (c.profile.map fun p => ("profile", Value.table (ofProfile p))).toList

end CanDfu.Config.Document
