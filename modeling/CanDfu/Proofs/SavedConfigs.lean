/-
  CanDfu.Proofs.SavedConfigs

  A configuration that is saved and loaded again.  Its document is a plain table, so it is read back
  as it was written, and stays one when keys are deleted from it.  What then is loaded has the
  deleted fields at their defaults, if it is usable; a profile is not loaded without its shift and
  all of its endpoints, which have no default.
-/
import CanDfu.Files
import CanDfu.Proofs.TomlDocuments
import Mathlib.Tactic.ByContra

namespace CanDfu

namespace Toml

/-! ## Deleting keys -/

mutual

/-- A value without the keys whose paths are deleted. -/
def Value.without (deleted : List String → Bool) (path : List String) : Value → Value
  | .table entries => .table (Table.without deleted path entries)
  | v => v

/-- A table without the keys whose paths are deleted. -/
def Table.without (deleted : List String → Bool) (path : List String) : Table → Table
  | [] => []
  | (name, v) :: rest =>
    if deleted (path ++ [name]) then Table.without deleted path rest
    else (name, Value.without deleted (path ++ [name]) v) :: Table.without deleted path rest

end

variable (deleted : List String → Bool)

/-- A key that is deleted has no value, and any other the value it had, without what is deleted in
it. -/
theorem Table.get?_without (path : List String) (t : Table) (name : String) :
    (t.without deleted path).get? name
      = if deleted (path ++ [name]) then none
        else (t.get? name).map (Value.without deleted (path ++ [name])) := by
  induction t with
  | nil => simp [Table.without, Table.get?]
  | cons entry rest ih =>
    obtain ⟨k, v⟩ := entry
    simp only [Table.get?] at ih ⊢
    rw [Table.without]
    -- a deleted first entry hides nothing: later entries of its name are deleted with it
    by_cases hname : name = k
    · subst hname
      by_cases hdeleted : deleted (path ++ [name]) = true
      · simp only [hdeleted, if_true] at ih ⊢
        exact ih
      · simp [hdeleted]
    · have hne : (name == k) = false := by simpa using hname
      by_cases hdeleted : deleted (path ++ [k]) = true
      · rw [if_pos hdeleted, ih, List.lookup_cons, hne]
      · rw [if_neg hdeleted, List.lookup_cons, hne, ih, List.lookup_cons, hne]

/-- What is left of a table has no new names. -/
theorem Table.exists_of_mem_without {path : List String} {t : Table} {entry : String × Value}
    (h : entry ∈ t.without deleted path) :
    ∃ old ∈ t, old.1 = entry.1 ∧ Printer.isTable old.2 = Printer.isTable entry.2 := by
  induction t with
  | nil => simp [Table.without] at h
  | cons first rest ih =>
    obtain ⟨name, v⟩ := first
    have hlater : entry ∈ Table.without deleted path rest →
        ∃ old ∈ (name, v) :: rest,
          old.1 = entry.1 ∧ Printer.isTable old.2 = Printer.isTable entry.2 := by
      intro hmem
      obtain ⟨old, hold, heq⟩ := ih hmem
      exact ⟨old, List.mem_cons_of_mem _ hold, heq⟩
    rw [Table.without] at h
    split at h
    · exact hlater h
    · rcases List.mem_cons.mp h with rfl | hmem
      · refine ⟨(name, v), List.mem_cons_self, rfl, ?_⟩
        cases v <;> rfl
      · exact hlater hmem

/-- A plain table stays one when keys are deleted from it. -/
theorem Table.Plain.without {levels : Nat} {t : Table} (h : t.Plain levels) :
    ∀ path, (t.without deleted path).Plain levels := by
  induction h with
  | nil levels => exact fun path => by rw [Table.without]; exact .nil levels
  | @line levels depth name v rest bare fresh hdepth value more ih =>
    intro path
    -- only tables have keys, and an array in a plain table holds none
    have hsame : v.without deleted (path ++ [name]) = v := by
      cases value <;> rfl
    rw [Table.without, hsame]
    split
    · exact ih path
    · refine .line bare (fun entry hentry => ?_) hdepth value (ih path)
      obtain ⟨old, hold, heq, -⟩ := Table.exists_of_mem_without deleted hentry
      exact heq ▸ fresh old hold
  | @table levels name entries rest bare fresh last inside more ihInside ihMore =>
    intro path
    rw [Table.without]
    split
    · exact ihMore path
    · refine .table bare (fun entry hentry => ?_) (fun entry hentry => ?_) (ihInside _)
        (ihMore path)
      · obtain ⟨old, hold, heq, -⟩ := Table.exists_of_mem_without deleted hentry
        exact heq ▸ fresh old hold
      · obtain ⟨old, hold, -, heq⟩ := Table.exists_of_mem_without deleted hentry
        exact heq ▸ last old hold

/-- Nothing is left out where nothing is deleted. -/
theorem Table.Plain.without_none {levels : Nat} {t : Table} (h : t.Plain levels) :
    ∀ path, t.without (fun _ => false) path = t := by
  induction h with
  | nil levels => exact fun path => by rw [Table.without]
  | @line levels depth name v rest bare fresh hdepth value more ih =>
    intro path
    rw [Table.without, ih path]
    cases value <;> rfl
  | @table levels name entries rest bare fresh last inside more ihInside ihMore =>
    intro path
    rw [Table.without, ihMore path, Value.without, ihInside]
    rfl

/-- A number that is small enough is a line of a plain table. -/
theorem Table.Plain.number {levels n : Nat} {name : String} {rest : Table}
    (hn : n < 0x8000000000000000) (bare : Bare name) (fresh : ∀ entry ∈ rest, entry.1 ≠ name)
    (more : rest.Plain levels) :
    Table.Plain levels ((name, Config.Document.ofNat n) :: rest) :=
  .line bare fresh (by decide) (.integer 0 hn) more

end Toml

open Toml (Table Value)

namespace Config.Document

/-! ## The document of a configuration -/

theorem plain_ofLayout (l : Layout) (levels : Nat) : (ofLayout l).Plain levels := by
  have hsmall : ∀ w : UInt32, w.toNat < 0x8000000000000000 := fun w => by have := w.toNat_lt; omega
  refine .number (hsmall l.flashBase) (by decide) (by simp) ?_
  refine .number (hsmall l.nvmBase) (by decide) (by simp) ?_
  exact .number (hsmall l.nvmSize) (by decide) (by simp) (.nil levels)

theorem plain_ofBus (b : BusConfig) (levels : Nat) : (ofBus b).Plain levels := by
  have hsmall : ∀ w : UInt32, w.toNat < 0x8000000000000000 := fun w => by have := w.toNat_lt; omega
  have hbackends : (Value.array (b.backends.map .string)).Plain 1 := by
    refine .array fun v hv => ?_
    obtain ⟨text, -, rfl⟩ := List.mem_map.mp hv
    exact .string 0 text
  have hbitrate : Table.Plain levels [("bitrate", ofNat b.bitrate.toNat)] :=
    .number (hsmall b.bitrate) (by decide) (by simp) (.nil levels)
  unfold ofBus
  cases b.channel with
  | none => exact .line (by decide) (by simp) (by decide) hbackends hbitrate
  | some c =>
    refine .line (by decide) (by simp) (by decide) hbackends ?_
    exact .number (hsmall c) (by decide) (by simp) hbitrate

theorem plain_ofEndpoints (e : Endpoints) (levels : Nat) : (ofEndpoints e).Plain levels := by
  have hsmall : ∀ w : UInt16, w.toNat < 0x8000000000000000 := fun w => by have := w.toNat_lt; omega
  refine .number (hsmall e.protocolHash) (by decide) (by simp) ?_
  refine .number (hsmall e.read) (by decide) (by simp) ?_
  refine .number (hsmall e.scratch) (by decide) (by simp) ?_
  refine .number (hsmall e.commit) (by decide) (by simp) ?_
  refine .number (hsmall e.erase) (by decide) (by simp) ?_
  exact .number (hsmall e.reset) (by decide) (by simp) (.nil levels)

theorem plain_ofProfile (p : Profile) : (ofProfile p).Plain 1 := by
  have hshift : p.nodeIdShift.toNat < 0x8000000000000000 := by
    have := p.nodeIdShift.toNat_lt
    omega
  refine .number hshift (by decide) (by simp) ?_
  refine .line (by decide) (by simp) (by decide) (.boolean 0 p.extendedId) ?_
  refine .line (by decide) (by simp) (by decide) (.boolean 0 p.seededCommands) ?_
  exact .table (by decide) (by simp) (by simp) (plain_ofEndpoints p.endpoints 0) (.nil 1)

/-- The document of a configuration is plain, if its two numbers of 64 bits are small enough. -/
theorem plain_toTable {c : Config} (hdelay : c.scratchWriteDelay.toNat < 0x8000000000000000)
    (htimeout : c.responseTimeout.toNat < 0x8000000000000000) : (toTable c).Plain 2 := by
  have hlayout := plain_ofLayout c.layout 1
  have hbus := plain_ofBus c.bus 1
  unfold toTable
  cases c.profile with
  | none =>
    refine .number hdelay (by decide) (by simp) (.number htimeout (by decide) (by simp) ?_)
    refine .table (by decide) (by simp) (by simp [Toml.Printer.isTable]) hlayout ?_
    exact .table (by decide) (by simp) (by simp) hbus (.nil 2)
  | some p =>
    refine .number hdelay (by decide) (by simp) (.number htimeout (by decide) (by simp) ?_)
    refine .table (by decide) (by simp) (by simp [Toml.Printer.isTable]) hlayout ?_
    refine .table (by decide) (by simp) (by simp [Toml.Printer.isTable]) hbus ?_
    exact .table (by decide) (by simp) (by simp) (plain_ofProfile p) (.nil 2)

/-- Numbers from `2 ^ 63` are not written. -/
theorem value_ofNat_eq_none {n : Nat} (hn : 0x8000000000000000 ≤ n) :
    Toml.Printer.value (ofNat n) = none := by
  have hrange : Toml.Scan.inRange (n : Int) = none := by
    unfold Toml.Scan.inRange
    rw [if_neg]
    omega
  simp [Toml.Printer.value, ofNat, hrange]

/-- A line that is not written leaves a document unwritten. -/
theorem lines_eq_none {t : Table} {name : String} {v : Value} (h : (name, v) ∈ t)
    (hline : Toml.Printer.isTable v = false) (hnone : Toml.Printer.value v = none) :
    Toml.Printer.lines t = none := by
  induction t with
  | nil => exact absurd h (List.not_mem_nil)
  | cons entry rest ih =>
    obtain ⟨name', v'⟩ := entry
    rw [Toml.Printer.lines]
    rcases List.mem_cons.mp h with heq | hmem
    · obtain ⟨rfl, rfl⟩ := Prod.mk.inj heq
      simp [hline, hnone]
    · simp [ih hmem]

/-- A configuration has no document exactly when one of its two numbers of 64 bits is too large. -/
theorem toText?_eq_none_iff (c : Config) :
    c.toText? = none ↔ 0x8000000000000000 ≤ c.scratchWriteDelay.toNat ∨
      0x8000000000000000 ≤ c.responseTimeout.toNat := by
  constructor
  · intro hnone
    by_contra hsmall
    obtain ⟨text, htext, -⟩ := Toml.parse?_document
      (plain_toTable (c := c) (by omega) (by omega)) (by decide)
    rw [toText?, htext] at hnone
    exact absurd hnone (by simp)
  · intro hlarge
    have hlines : Toml.Printer.lines (toTable c) = none := by
      rcases hlarge with hlarge | hlarge
      · exact lines_eq_none (by simp [toTable]; exact .inl rfl) rfl (value_ofNat_eq_none hlarge)
      · exact lines_eq_none (by simp [toTable]; exact .inr (.inl rfl)) rfl
          (value_ofNat_eq_none hlarge)
    simp [toText?, Toml.Printer.document, hlines]

/-! ## Reading what is left -/

theorem natural_ofNat {bound n : Nat} (h : n < bound) : natural bound (ofNat n) = some n := by
  simp [natural, ofNat, h]

theorem word8_ofNat (w : UInt8) : word8 (ofNat w.toNat) = some w := by
  rw [word8, natural_ofNat w.toNat_lt, Option.map_some, UInt8.ofNat_toNat]

theorem word16_ofNat (w : UInt16) : word16 (ofNat w.toNat) = some w := by
  rw [word16, natural_ofNat w.toNat_lt, Option.map_some, UInt16.ofNat_toNat]

theorem word32_ofNat (w : UInt32) : word32 (ofNat w.toNat) = some w := by
  rw [word32, natural_ofNat w.toNat_lt, Option.map_some, UInt32.ofNat_toNat]

theorem word64_ofNat (w : UInt64) : word64 (ofNat w.toNat) = some w := by
  rw [word64, natural_ofNat w.toNat_lt, Option.map_some, UInt64.ofNat_toNat]

theorem texts_strings (l : List String) : texts (.array (l.map .string)) = some l := by
  induction l with
  | nil => rfl
  | cons text l ih =>
    rw [texts] at ih
    rw [texts, List.map_cons, List.mapM_cons, ih]
    rfl

variable (deleted : List String → Bool)

/-- A field that was written is read, or has its default where it is deleted. -/
theorem optional_without (path : List String) {α : Type} (read : Value → Option α) {t : Table}
    {name : String} {v : Value} {x : α} (hget : t.get? name = some v)
    (hread : read (v.without deleted (path ++ [name])) = some x) (default : α) (position : Nat) :
    optional read default (.named (t.without deleted path)) name position
      = some (if deleted (path ++ [name]) then default else x) := by
  simp only [optional, Fields.get?, Table.get?_without, hget]
  by_cases hdeleted : deleted (path ++ [name]) = true
  · simp [hdeleted]
  · simp [hdeleted, hread]

/-- A field that was not written has its default. -/
theorem optional_absent (path : List String) {α : Type} (read : Value → Option α) {t : Table}
    {name : String} (hget : t.get? name = none) (default : α) (position : Nat) :
    optional read default (.named (t.without deleted path)) name position = some default := by
  simp [optional, Fields.get?, Table.get?_without, hget]

/-- A field without a default is read where it is not deleted. -/
theorem required_without (path : List String) {α : Type} (read : Value → Option α) {t : Table}
    {name : String} {v : Value} {x : Option α} (hget : t.get? name = some v)
    (hread : read (v.without deleted (path ++ [name])) = x) (position : Nat) :
    required read (.named (t.without deleted path)) name position
      = if deleted (path ++ [name]) then none else x := by
  simp only [required, Fields.get?, Table.get?_without, hget]
  split <;> simp [hread]

end Config.Document

/-! ## What is left of a configuration -/

/-- A memory map whose deleted fields have their defaults. -/
def Layout.reset (deleted : List String → Bool) (l : Layout) : Layout :=
  let default : Layout := {}
  { flashBase := if deleted ["layout", "flash_base"] then default.flashBase else l.flashBase
    nvmBase := if deleted ["layout", "nvm_base"] then default.nvmBase else l.nvmBase
    nvmSize := if deleted ["layout", "nvm_size"] then default.nvmSize else l.nvmSize }

/-- A choice of bus whose deleted fields have their defaults. -/
def BusConfig.reset (deleted : List String → Bool) (b : BusConfig) : BusConfig :=
  let default : BusConfig := {}
  { backends := if deleted ["bus", "backends"] then default.backends else b.backends
    channel := if deleted ["bus", "channel"] then default.channel else b.channel
    bitrate := if deleted ["bus", "bitrate"] then default.bitrate else b.bitrate }

/-- A profile whose deleted fields have their defaults, where they have one. -/
def Profile.reset (deleted : List String → Bool) (p : Profile) : Profile :=
  { p with
    extendedId := if deleted ["profile", "extended_id"] then false else p.extendedId
    seededCommands := if deleted ["profile", "seeded_commands"] then false else p.seededCommands }

namespace Config

/-- A configuration whose deleted fields have their defaults, where they have one. -/
def reset (deleted : List String → Bool) (c : Config) : Config :=
  let default : Config := {}
  { scratchWriteDelay :=
      if deleted ["scratch_write_delay_us"] then default.scratchWriteDelay else c.scratchWriteDelay
    responseTimeout :=
      if deleted ["response_timeout_ms"] then default.responseTimeout else c.responseTimeout
    layout := if deleted ["layout"] then default.layout else c.layout.reset deleted
    bus := if deleted ["bus"] then default.bus else c.bus.reset deleted
    profile := if deleted ["profile"] then default.profile else c.profile.map (·.reset deleted) }

/-- The keys of a profile that have no default. -/
def requiredKeys : List (List String) :=
  [["profile", "node_id_shift"], ["profile", "endpoints"],
    ["profile", "endpoints", "protocol_hash"], ["profile", "endpoints", "read_flash_32"],
    ["profile", "endpoints", "write_scratch_32"], ["profile", "endpoints", "commit"],
    ["profile", "endpoints", "erase_all"], ["profile", "endpoints", "reset"]]

/-- Whether a profile is left, but without a key that has no default. -/
def lacks (deleted : List String → Bool) (c : Config) : Bool :=
  c.profile.isSome && !deleted ["profile"] && requiredKeys.any deleted

namespace Document

variable (deleted : List String → Bool)

theorem layout_without (l : Layout) :
    layout (.table ((ofLayout l).without deleted ["layout"])) = some (l.reset deleted) := by
  have hbase : (ofLayout l).get? "flash_base" = some (ofNat l.flashBase.toNat) := rfl
  have hnvm : (ofLayout l).get? "nvm_base" = some (ofNat l.nvmBase.toNat) := rfl
  have hsize : (ofLayout l).get? "nvm_size" = some (ofNat l.nvmSize.toNat) := rfl
  simp only [layout, Fields.ofValue?,
    optional_without deleted ["layout"] word32 hbase (word32_ofNat l.flashBase),
    optional_without deleted ["layout"] word32 hnvm (word32_ofNat l.nvmBase),
    optional_without deleted ["layout"] word32 hsize (word32_ofNat l.nvmSize),
    Option.bind_eq_bind, Option.bind_some, List.cons_append, List.nil_append]
  rfl

theorem bus_without (b : BusConfig) :
    bus (.table ((ofBus b).without deleted ["bus"])) = some (b.reset deleted) := by
  have hbackends : (ofBus b).get? "backends" = some (.array (b.backends.map .string)) := rfl
  have hbitrate : (ofBus b).get? "bitrate" = some (ofNat b.bitrate.toNat) := by
    unfold ofBus
    cases b.channel <;> rfl
  have hchannel : optional (fun v => (word32 v).map some) ({} : BusConfig).channel
      (.named ((ofBus b).without deleted ["bus"])) "channel" 1
        = some (if deleted ["bus", "channel"] then none else b.channel) := by
    cases h : b.channel with
    | none =>
      have hget : (ofBus b).get? "channel" = none := by
        unfold ofBus
        rw [h]
        rfl
      rw [optional_absent deleted ["bus"] _ hget, ite_self]
    | some c =>
      have hget : (ofBus b).get? "channel" = some (ofNat c.toNat) := by
        unfold ofBus
        rw [h]
        rfl
      have hread : (word32 (ofNat c.toNat)).map some = some (some c) := by
        rw [word32_ofNat, Option.map_some]
      exact optional_without deleted ["bus"] (fun v => (word32 v).map some) hget hread _ 1
  simp only [bus, Fields.ofValue?, hchannel,
    optional_without deleted ["bus"] texts hbackends (texts_strings b.backends),
    optional_without deleted ["bus"] word32 hbitrate (word32_ofNat b.bitrate), Option.bind_eq_bind,
    Option.bind_some, List.cons_append, List.nil_append]
  rfl

theorem endpoints_without (e : Endpoints) :
    endpoints (.table ((ofEndpoints e).without deleted ["profile", "endpoints"]))
      = if (requiredKeys.drop 2).any deleted then none else some e := by
  have hhash : (ofEndpoints e).get? "protocol_hash" = some (ofNat e.protocolHash.toNat) := rfl
  have hread : (ofEndpoints e).get? "read_flash_32" = some (ofNat e.read.toNat) := rfl
  have hscratch : (ofEndpoints e).get? "write_scratch_32" = some (ofNat e.scratch.toNat) := rfl
  have hcommit : (ofEndpoints e).get? "commit" = some (ofNat e.commit.toNat) := rfl
  have herase : (ofEndpoints e).get? "erase_all" = some (ofNat e.erase.toNat) := rfl
  have hreset : (ofEndpoints e).get? "reset" = some (ofNat e.reset.toNat) := rfl
  simp only [endpoints, Fields.ofValue?,
    required_without deleted ["profile", "endpoints"] word16 hhash (word16_ofNat e.protocolHash),
    required_without deleted ["profile", "endpoints"] word16 hread (word16_ofNat e.read),
    required_without deleted ["profile", "endpoints"] word16 hscratch (word16_ofNat e.scratch),
    required_without deleted ["profile", "endpoints"] word16 hcommit (word16_ofNat e.commit),
    required_without deleted ["profile", "endpoints"] word16 herase (word16_ofNat e.erase),
    required_without deleted ["profile", "endpoints"] word16 hreset (word16_ofNat e.reset),
    Option.bind_eq_bind, Option.bind_some, List.cons_append, List.nil_append]
  -- one endpoint that is missing is enough to make the whole table unreadable
  by_cases hany : (requiredKeys.drop 2).any deleted = true
  · rw [if_pos hany]
    simp only [requiredKeys, List.drop, List.any_cons, List.any_nil, Bool.or_eq_true,
      Bool.or_false] at hany
    rcases hany with h | h | h | h | h | h <;> simp [h]
  · rw [if_neg hany]
    simp only [requiredKeys, List.drop, List.any_cons, List.any_nil, Bool.or_eq_true,
      Bool.or_false, not_or] at hany
    simp [hany]

theorem profile_without (p : Profile) :
    profile (.table ((ofProfile p).without deleted ["profile"]))
      = if requiredKeys.any deleted then none else some (p.reset deleted) := by
  have hshift : (ofProfile p).get? "node_id_shift" = some (ofNat p.nodeIdShift.toNat) := rfl
  have hextended : (ofProfile p).get? "extended_id" = some (.boolean p.extendedId) := rfl
  have hseeded : (ofProfile p).get? "seeded_commands" = some (.boolean p.seededCommands) := rfl
  have hendpoints : (ofProfile p).get? "endpoints" = some (.table (ofEndpoints p.endpoints)) := rfl
  have hflag : ∀ path b, flag (Value.without deleted path (.boolean b)) = some b :=
    fun _ _ => rfl
  have hinside : endpoints (Value.without deleted ["profile", "endpoints"]
      (.table (ofEndpoints p.endpoints)))
        = if (requiredKeys.drop 2).any deleted then none else some p.endpoints := by
    simp only [Value.without]
    exact endpoints_without deleted p.endpoints
  simp only [profile, Fields.ofValue?,
    required_without deleted ["profile"] word8 hshift (word8_ofNat p.nodeIdShift),
    optional_without deleted ["profile"] flag hextended (hflag _ _),
    optional_without deleted ["profile"] flag hseeded (hflag _ _),
    required_without deleted ["profile"] endpoints hendpoints hinside,
    Option.bind_eq_bind, Option.bind_some, List.cons_append, List.nil_append]
  -- the shift is read before the endpoints, so the cases are split in that order
  have hany : requiredKeys.any deleted = (deleted ["profile", "node_id_shift"] ||
      (deleted ["profile", "endpoints"] || (requiredKeys.drop 2).any deleted)) := rfl
  rw [hany]
  by_cases hnoShift : deleted ["profile", "node_id_shift"] = true
  · simp [hnoShift]
  by_cases hnoEndpoints : deleted ["profile", "endpoints"] = true
  · simp [hnoShift, hnoEndpoints]
  by_cases hmissing : (requiredKeys.drop 2).any deleted = true
  · simp [hnoShift, hnoEndpoints, hmissing]
  · simp only [hnoShift, hnoEndpoints, hmissing, Bool.false_eq_true, if_false, Option.bind_some,
      Bool.or_self]
    rfl

/-- What is left of the document of a configuration reads as the configuration with its deleted
fields at their defaults, unless a profile is left without what it needs. -/
theorem ofTable?_without (c : Config) :
    ofTable? ((toTable c).without deleted [])
      = if c.lacks deleted then none else some (c.reset deleted) := by
  have hdelay : (toTable c).get? "scratch_write_delay_us"
      = some (ofNat c.scratchWriteDelay.toNat) := rfl
  have htimeout : (toTable c).get? "response_timeout_ms" = some (ofNat c.responseTimeout.toNat) :=
    rfl
  have hlayout : (toTable c).get? "layout" = some (.table (ofLayout c.layout)) := rfl
  have hbus : (toTable c).get? "bus" = some (.table (ofBus c.bus)) := rfl
  have hinLayout : layout (Value.without deleted ["layout"] (.table (ofLayout c.layout)))
      = some (c.layout.reset deleted) := by
    rw [Value.without]
    exact layout_without deleted c.layout
  have hinBus : bus (Value.without deleted ["bus"] (.table (ofBus c.bus)))
      = some (c.bus.reset deleted) := by
    rw [Value.without]
    exact bus_without deleted c.bus
  -- without a profile nothing is written, and nothing written reads as no profile
  have hprofile : optional (fun v => (profile v).map some) ({} : Config).profile
      (.named ((toTable c).without deleted [])) "profile" 4
        = if c.lacks deleted then none
          else some (if deleted ["profile"] then none else c.profile.map (·.reset deleted)) := by
    cases h : c.profile with
    | none =>
      have hget : (toTable c).get? "profile" = none := by
        unfold toTable
        rw [h]
        rfl
      rw [optional_absent deleted [] _ hget]
      simp [lacks, h]
    | some p =>
      have hget : (toTable c).get? "profile" = some (.table (ofProfile p)) := by
        unfold toTable
        rw [h]
        rfl
      have hinProfile : profile (Value.without deleted ["profile"] (.table (ofProfile p)))
          = if requiredKeys.any deleted then none else some (p.reset deleted) := by
        rw [Value.without]
        exact profile_without deleted p
      by_cases hdeleted : deleted ["profile"] = true
      · simp [optional, Fields.get?, Table.get?_without, hdeleted, lacks]
      · by_cases hmissing : requiredKeys.any deleted = true
        · simp [optional, Fields.get?, Table.get?_without, hget, hinProfile, hdeleted, lacks, h,
            hmissing]
        · simp [optional, Fields.get?, Table.get?_without, hget, hinProfile, hdeleted, lacks,
            hmissing]
  simp only [ofTable?, hprofile,
    optional_without deleted [] word64 hdelay (word64_ofNat c.scratchWriteDelay),
    optional_without deleted [] word64 htimeout (word64_ofNat c.responseTimeout),
    optional_without deleted [] layout hlayout hinLayout,
    optional_without deleted [] bus hbus hinBus, Option.bind_eq_bind, Option.bind_some,
    List.nil_append]
  by_cases hlacks : c.lacks deleted = true
  · simp [hlacks]
  · simp only [hlacks, Bool.false_eq_true, if_false, Option.bind_some]
    rfl

end Document

/-! ## Loading what was saved -/

/-- A text is read from the file that holds it. -/
theorem decodeText_ofText (text : String) :
    decodeText text.toUTF8.data.toList = .ok text := by
  have hbytes : ByteArray.mk text.toUTF8.data.toList.toArray = text.toUTF8 := by
    rw [Array.toArray_toList]
  have hdecode : String.fromUTF8? text.toUTF8 = some text := by
    unfold String.fromUTF8?
    rw [String.toUTF8_eq_toByteArray, dif_pos text.isValidUTF8]
    rfl
  rw [decodeText, hbytes, hdecode]

/-- A file is loaded as the text it encodes. -/
theorem load_file {bytes : List UInt8} {text : String} (hdecode : decodeText bytes = .ok text) :
    load (.file bytes) = ofText text := by
  have hbytes : (FileNode.file bytes).content.mapError LoadError.os = .ok bytes := rfl
  have htext : (decodeText bytes).mapError LoadError.os = .ok text := by
    rw [hdecode]
    rfl
  rw [load, hbytes]
  show ((decodeText bytes).mapError LoadError.os >>= ofText) = ofText text
  rw [htext]
  rfl

theorem load_ofText (text : String) : load (.ofText text) = ofText text :=
  load_file (decodeText_ofText text)

/-- Without deletions every field is kept. -/
theorem reset_none (c : Config) : c.reset (fun _ => false) = c := by
  obtain ⟨delay, timeout, l, b, p⟩ := c
  cases p <;> rfl

theorem lacks_none (c : Config) : c.lacks (fun _ => false) = false := by
  simp [lacks]

/-- Loading a text that reads as what is left of the document of a configuration. -/
theorem load_without (deleted : List String → Bool) {c : Config} {text : String}
    (htext : Toml.parse? text = some ((Document.toTable c).without deleted [])) :
    load (.ofText text) =
      if c.lacks deleted then .error .malformed
      else match (c.reset deleted).validate with
        | .ok () => .ok (c.reset deleted)
        | .error e => .error (.invalid e) := by
  rw [load_ofText, ofText, htext, Option.bind_some, Document.ofTable?_without]
  by_cases hlacks : c.lacks deleted = true
  · simp [hlacks]
  · cases hvalid : (c.reset deleted).validate with
    | ok _ => simp [hlacks, hvalid]
    | error e => simp [hlacks, hvalid]

/-- A configuration is saved unless it has no document. -/
theorem save?_eq_none_iff (c : Config) :
    c.save? = none ↔ 0x8000000000000000 ≤ c.scratchWriteDelay.toNat ∨
      0x8000000000000000 ≤ c.responseTimeout.toNat := by
  have hnone : c.save? = none ↔ c.toText? = none := Option.map_eq_none_iff
  exact hnone.trans (Document.toText?_eq_none_iff c)

/-- What is saved is a text that reads as the table of the configuration, and the table is plain. -/
theorem saved_reads {c : Config} {saved : FileNode} (hsaved : c.save? = some saved) :
    (Document.toTable c).Plain 2 ∧
      ∃ text, saved = .ofText text ∧ Toml.parse? text = some (Document.toTable c) := by
  have hsmall : ¬ (0x8000000000000000 ≤ c.scratchWriteDelay.toNat ∨
      0x8000000000000000 ≤ c.responseTimeout.toNat) := by
    intro hlarge
    rw [(save?_eq_none_iff c).mpr hlarge] at hsaved
    exact absurd hsaved (by simp)
  have hplain : (Document.toTable c).Plain 2 := Document.plain_toTable (by omega) (by omega)
  obtain ⟨text, htext, hparse⟩ := Toml.parse?_document hplain (by decide)
  have hsame : c.save? = some (.ofText text) := by rw [save?, toText?, htext, Option.map_some]
  exact ⟨hplain, text, Option.some.inj (hsaved.symm.trans hsame), hparse⟩

/-- What was saved is loaded again exactly if it is usable. -/
theorem load_saved_iff {c : Config} {saved : FileNode} (hsaved : c.save? = some saved) :
    load saved = .ok c ↔ c.validate = .ok () := by
  obtain ⟨hplain, text, hfile, hparse⟩ := saved_reads hsaved
  -- what was saved is what is left when nothing is deleted
  have hsame : Toml.parse? text = some ((Document.toTable c).without (fun _ => false) []) := by
    rw [hparse, hplain.without_none]
  have hload := load_without (fun _ => false) hsame
  rw [lacks_none, reset_none, if_neg (by decide)] at hload
  rw [hfile, hload]
  cases c.validate with
  | ok _ => simp
  | error e => simp

/-- A configuration is saved unless one of its two numbers of 64 bits is too large for a document.
The saved text reads as the table of the configuration.  Whatever keys are deleted from that table,
the rest can be written and read back, and from every text that reads as the rest the configuration
is loaded with its deleted fields at their defaults if it is usable, and refused if not; but where a
profile is left without a key that has no default, the document is malformed.  With nothing deleted,
the configuration itself is loaded exactly if it is usable. -/
theorem load_saved (c : Config) :
    (c.save? = none ↔ 0x8000000000000000 ≤ c.scratchWriteDelay.toNat ∨
      0x8000000000000000 ≤ c.responseTimeout.toNat) ∧
    ∀ saved, c.save? = some saved →
      (∃ text, saved = .ofText text ∧ Toml.parse? text = some (Document.toTable c)) ∧
      (∀ deleted : List String → Bool,
        let rest := (Document.toTable c).without deleted []
        (∃ text, Toml.Printer.document rest = some text ∧ Toml.parse? text = some rest) ∧
        ∀ text, Toml.parse? text = some rest →
          load (.ofText text) =
            if c.lacks deleted then .error .malformed
            else match (c.reset deleted).validate with
              | .ok () => .ok (c.reset deleted)
              | .error e => .error (.invalid e)) ∧
      (load saved = .ok c ↔ c.validate = .ok ()) := by
  refine ⟨save?_eq_none_iff c, fun saved hsaved => ?_⟩
  obtain ⟨hplain, hread⟩ := saved_reads hsaved
  refine ⟨hread, fun deleted => ⟨?_, fun text => load_without deleted⟩, load_saved_iff hsaved⟩
  exact Toml.parse?_document (hplain.without deleted []) (by decide)

end Config

end CanDfu
