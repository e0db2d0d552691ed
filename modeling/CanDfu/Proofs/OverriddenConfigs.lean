/-
  CanDfu.Proofs.OverriddenConfigs

  What a run takes from its configuration file and what from the command line.  Two files are
  compared that `Agree` but for what the command line chooses.

    backends, channel   what the file says of them has no influence, if the command line chooses
    bitrate             the same, unless the file says zero: a file is checked before anything in it
                        is replaced, so a bitrate of zero is refused that would not have been used

  `Config.validate_eq_zeroBitrate_iff` says when it comes to that, and `flags_replace_file_values`
  that it is the only difference two such files can make.
-/
import CanDfu.Cli.Run
import CanDfu.Proofs.SavedConfigs

namespace CanDfu

/-! ## Checks of a configuration -/

theorem Layout.validate_ne_zeroBitrate (l : Layout) : l.validate ≠ .error .zeroBitrate := by
  unfold validate
  repeat' split
  all_goals nofun

theorem Profile.validateEndpoints_ne_zeroBitrate (shift : UInt8)
    (named : List (String × UInt16)) : validateEndpoints shift named ≠ .error .zeroBitrate := by
  induction named with
  | nil => nofun
  | cons e rest ih =>
    unfold validateEndpoints
    split
    · nofun
    · exact ih

theorem Profile.validate_ne_zeroBitrate (p : Profile) : p.validate ≠ .error .zeroBitrate := by
  unfold validate
  split
  · nofun
  · exact validateEndpoints_ne_zeroBitrate _ _

namespace Config

variable {c c' : Config} {e : ConfigError}

/-- A memory map that is refused is the first thing to be refused. -/
theorem validate_of_layout_error (refused : c.layout.validate = .error e) :
    c.validate = .error e := by
  rw [validate, refused]
  rfl

/-- Past the memory map, a bitrate of zero is refused before the profile is looked at. -/
theorem validate_of_layout_ok (usable : c.layout.validate = .ok ()) :
    c.validate = if c.bus.bitrate = 0 then .error .zeroBitrate
      else match c.profile with
        | some profile => profile.validate
        | none => .ok () := by
  rw [validate, usable]
  cases c.profile with
  | some profile => rfl
  | none => rfl

/-- The bitrate is what is wrong with a configuration when it is zero and the memory map usable. -/
theorem validate_eq_zeroBitrate_iff :
    c.validate = .error .zeroBitrate ↔ c.layout.validate = .ok () ∧ c.bus.bitrate = 0 := by
  cases checked : c.layout.validate with
  | error e =>
    rw [validate_of_layout_error checked]
    exact ⟨fun same => absurd (checked.trans same) c.layout.validate_ne_zeroBitrate,
      fun usable => nomatch usable.1⟩
  | ok =>
    rw [validate_of_layout_ok checked]
    split
    · next zero => exact ⟨fun _ => ⟨rfl, zero⟩, fun _ => rfl⟩
    · next bitrate =>
      refine ⟨fun refused => ?_, fun zero => absurd zero.2 bitrate⟩
      split at refused
      · next p _ => exact absurd refused p.validate_ne_zeroBitrate
      · cases refused

/-- Of the choice of bus only a bitrate of zero makes a difference to the checks. -/
theorem validate_congr (layout : c.layout = c'.layout) (profile : c.profile = c'.profile)
    (zero : c.layout.validate = .ok () → (c.bus.bitrate = 0 ↔ c'.bus.bitrate = 0)) :
    c.validate = c'.validate := by
  cases checked : c.layout.validate with
  | error e => rw [validate_of_layout_error checked, validate_of_layout_error (layout ▸ checked)]
  | ok =>
    rw [validate_of_layout_ok checked, validate_of_layout_ok (layout ▸ checked), profile]
    exact if_congr (zero checked) rfl rfl

end Config

/-! ## Documents -/

/-- The file holds a document that is well formed and has the fields of a configuration, which need
not be usable. -/
def FileNode.Describes (node : FileNode) (c : Config) : Prop :=
  ∃ bytes text, node = .file bytes ∧ decodeText bytes = .ok text ∧
    (Toml.parse? text).bind Config.Document.ofTable? = some c

namespace Config

variable {c : Config} {node : FileNode}

/-- What a document describes is loaded if it is usable. -/
theorem load_of_describes (described : node.Describes c) :
    load node = (c.validate.mapError .invalid).map fun _ => c := by
  obtain ⟨bytes, text, rfl, decoded, read⟩ := described
  rw [load_file decoded, ofText, read]
  cases checked : c.validate with
  | ok => simp only [checked]; rfl
  | error e => simp only [checked]; rfl

/-- A saved configuration is described by its file. -/
theorem describes_of_save? (saved : c.save? = some node) : node.Describes c := by
  obtain ⟨plain, text, rfl, parsed⟩ := saved_reads saved
  refine ⟨_, text, rfl, decodeText_ofText text, ?_⟩
  -- the whole table is what is left of it when nothing is deleted
  have whole := Document.ofTable?_without (fun _ => false) c
  rw [plain.without_none, lacks_none, reset_none, if_neg (by decide)] at whole
  rw [parsed, Option.bind_some]
  exact whole

end Config

/-! ## The command line over a file -/

namespace Cli

variable {files files' : Files} {a : Args} {path : String} {c c' loaded : Config}

/-- The configurations differ at most in what the command line chooses. -/
structure Args.Agree (a : Args) (c c' : Config) : Prop where
  delay : c.scratchWriteDelay = c'.scratchWriteDelay
  timeout : c.responseTimeout = c'.responseTimeout
  layout : c.layout = c'.layout
  profile : c.profile = c'.profile
  backends : a.bus = none → c.bus.backends = c'.bus.backends
  channel : a.channel = none → c.bus.channel = c'.bus.channel
  bitrate : a.bitrate = none → c.bus.bitrate = c'.bus.bitrate

/-- The configuration has what the command line chooses; backends are the names in a list with
commas, trimmed, without those that are blank. -/
structure Args.Chosen (a : Args) (c : Config) : Prop where
  backends : ∀ text, a.bus = some text →
    c.bus.backends = ((text.splitOn ",").map Blank.trim).filter (· ≠ "")
  channel : ∀ n, a.channel = some n → c.bus.channel = some n
  bitrate : ∀ n, a.bitrate = some n → c.bus.bitrate = n

/-- What the command line is put over: the configuration its file describes, or the default one. -/
def Args.Source (a : Args) (files : Files) (c : Config) : Prop :=
  match a.config with
  | some path => (files path).Describes c
  | none => c = {}

/-- Over any configuration the command line is chosen. -/
theorem Args.chosen_override (a : Args) (c : Config) : a.Chosen (a.override c) where
  backends text given := by simp [override, given, Blank.names]
  channel n given := by simp [override, given]
  bitrate n given := by simp [override, given]

/-- What the command line does not choose is kept. -/
theorem Args.agree_override (a : Args) (c : Config) : a.Agree c (a.override c) where
  delay := rfl
  timeout := rfl
  layout := rfl
  profile := rfl
  backends unchosen := by simp [override, unchosen]
  channel unchosen := by simp [override, unchosen]
  bitrate unchosen := by simp [override, unchosen]

/-- Over configurations that agree the command line makes the same one. -/
theorem Args.Agree.override_eq (agree : a.Agree c c') : a.override c = a.override c' := by
  have backends : (a.bus.map Blank.names).getD c.bus.backends
      = (a.bus.map Blank.names).getD c'.bus.backends := by
    cases given : a.bus with
    | none => exact agree.backends given
    | some text => rfl
  have channel : (a.channel <|> c.bus.channel) = (a.channel <|> c'.bus.channel) := by
    cases given : a.channel with
    | none => exact agree.channel given
    | some n => rfl
  have bitrate : a.bitrate.getD c.bus.bitrate = a.bitrate.getD c'.bus.bitrate := by
    cases given : a.bitrate with
    | none => exact agree.bitrate given
    | some n => rfl
  simp only [override, Config.mk.injEq, BusConfig.mk.injEq]
  exact ⟨agree.delay, agree.timeout, agree.layout, ⟨backends, channel, bitrate⟩, agree.profile⟩

/-- The command line over a configuration, which has to be usable then. -/
def Args.overridden (a : Args) (c : Config) : Except Failure Config := do
  (a.override c).validate.mapError .config
  return a.override c

theorem Args.override_of_overridden (passed : a.overridden c = .ok loaded) :
    loaded = a.override c ∧ (a.override c).validate = .ok () := by
  unfold overridden at passed
  cases checked : (a.override c).validate with
  | error e =>
    rw [checked] at passed
    cases passed
  | ok =>
    rw [checked] at passed
    exact ⟨(Except.ok.inj passed).symm, rfl⟩

/-- What is wrong with the outcome is not said of the file. -/
theorem Args.overridden_ne_load (e : LoadError) : a.overridden c ≠ .error (.load path e) := by
  unfold overridden
  cases (a.override c).validate with
  | error e' => nofun
  | ok => nofun

/-- A file is checked before the command line is put over it. -/
theorem loadConfig_of_named (named : a.config = some path) (described : (files path).Describes c) :
    loadConfig files a = match c.validate with
      | .ok () => a.overridden c
      | .error e => .error (.load path (.invalid e)) := by
  unfold loadConfig
  rw [named]
  simp only [Config.load_of_describes described]
  cases c.validate with
  | error e => rfl
  | ok => rfl

theorem loadConfig_of_unnamed (unnamed : a.config = none) :
    loadConfig files a = a.overridden {} := by
  unfold loadConfig
  rw [unnamed]
  rfl

/-- A file is refused for its bitrate when that is zero and the memory map usable, whatever bitrate
the command line chooses. -/
theorem loadConfig_eq_zeroBitrate_iff (named : a.config = some path)
    (described : (files path).Describes c) :
    loadConfig files a = .error (.load path (.invalid .zeroBitrate))
      ↔ c.layout.validate = .ok () ∧ c.bus.bitrate = 0 := by
  rw [loadConfig_of_named named described, ← Config.validate_eq_zeroBitrate_iff]
  cases checked : c.validate with
  | error e => exact ⟨fun same => by cases same; rfl, fun same => by cases same; rfl⟩
  | ok => exact ⟨fun same => absurd same (Args.overridden_ne_load _), nofun⟩

/-- What is loaded is usable, has what the command line chooses, and is the file's in all else. -/
theorem loaded_of_source (source : a.Source files c) (load : loadConfig files a = .ok loaded) :
    loaded.validate = .ok () ∧ a.Chosen loaded ∧ a.Agree c loaded := by
  have passed : a.overridden c = .ok loaded := by
    unfold Args.Source at source
    cases named : a.config with
    | none =>
      rw [named] at source
      rw [loadConfig_of_unnamed named] at load
      exact source ▸ load
    | some path =>
      rw [named] at source
      rw [loadConfig_of_named named source] at load
      split at load
      · exact load
      · cases load
  obtain ⟨rfl, usable⟩ := Args.override_of_overridden passed
  exact ⟨usable, a.chosen_override c, a.agree_override c⟩

/-- Two files that agree but for what the command line chooses give the same, unless their memory
map is usable and just one of them has a bitrate of zero. -/
theorem flags_replace_file_values (source : a.Source files c) (source' : a.Source files' c')
    (agree : a.Agree c c') :
    (loadConfig files a = loadConfig files' a
      ↔ (c.layout.validate = .ok () → (c.bus.bitrate = 0 ↔ c'.bus.bitrate = 0))) ∧
    (∀ path, a.config = some path →
      (loadConfig files a = .error (.load path (.invalid .zeroBitrate))
        ↔ c.layout.validate = .ok () ∧ c.bus.bitrate = 0)) ∧
    ∀ loaded, loadConfig files a = .ok loaded →
      loaded.validate = .ok () ∧ a.Chosen loaded ∧ a.Agree c loaded := by
  refine ⟨?_, fun path named => ?_, fun loaded => loaded_of_source source⟩
  all_goals unfold Args.Source at source source'
  · cases named : a.config with
    | none =>
      rw [named] at source source'
      obtain rfl : c = c' := source.trans source'.symm
      exact ⟨fun _ _ => Iff.rfl, fun _ =>
        (loadConfig_of_unnamed named).trans (loadConfig_of_unnamed named).symm⟩
    | some path =>
      rw [named] at source source'
      constructor
      -- what one file is refused for, the other is refused for as well
      · intro same usable
        have usable' : c'.layout.validate = .ok () := agree.layout ▸ usable
        have zero := loadConfig_eq_zeroBitrate_iff named source
        have zero' := loadConfig_eq_zeroBitrate_iff named source'
        rw [same] at zero
        have both := zero.symm.trans zero'
        exact ⟨fun h => (both.mp ⟨usable, h⟩).2, fun h => (both.mpr ⟨usable', h⟩).2⟩
      -- the files pass the same checks and are overridden alike
      · intro zero
        have overridden : a.overridden c = a.overridden c' := by
          unfold Args.overridden
          rw [agree.override_eq]
        rw [loadConfig_of_named named source, loadConfig_of_named named source', overridden,
          Config.validate_congr agree.layout agree.profile zero]
  · rw [named] at source
    exact loadConfig_eq_zeroBitrate_iff named source

/-- A command line that chooses a bitrate. -/
def chosenBitrate : Args :=
  { node := 5, bin := some "fw.bin", config := some "c.toml", bitrate := some 500000 }

/-- The default configuration at another bitrate. -/
def atBitrate (bitrate : UInt32) : Config := { bus := { bitrate } }

theorem exists_describes_atBitrate (bitrate : UInt32) :
    ∃ node : FileNode, node.Describes (atBitrate bitrate) := by
  have small : ¬ (0x8000000000000000 ≤ (atBitrate bitrate).scratchWriteDelay.toNat ∨
      0x8000000000000000 ≤ (atBitrate bitrate).responseTimeout.toNat) := by
    show ¬ (0x8000000000000000 ≤ (10 : UInt64).toNat ∨ 0x8000000000000000 ≤ (1000 : UInt64).toNat)
    decide
  have written := mt (Config.save?_eq_none_iff (atBitrate bitrate)).mp small
  obtain ⟨node, saved⟩ := Option.ne_none_iff_exists'.mp written
  exact ⟨node, Config.describes_of_save? saved⟩

theorem agree_atBitrate (first second : UInt32) :
    chosenBitrate.Agree (atBitrate first) (atBitrate second) :=
  ⟨rfl, rfl, rfl, rfl, fun _ => rfl, fun _ => rfl, nofun⟩

/-- Two files that differ in the bitrate, which the command line chooses, give one configuration. -/
theorem flags_replace_file_values_atBitrate :
    ∃ first second : FileNode,
      chosenBitrate.Source (fun _ => first) (atBitrate 125000) ∧
      chosenBitrate.Source (fun _ => second) (atBitrate 250000) ∧
      chosenBitrate.Agree (atBitrate 125000) (atBitrate 250000) ∧
      loadConfig (fun _ => first) chosenBitrate = loadConfig (fun _ => second) chosenBitrate := by
  obtain ⟨first, described⟩ := exists_describes_atBitrate 125000
  obtain ⟨second, described'⟩ := exists_describes_atBitrate 250000
  have source : chosenBitrate.Source (fun _ => first) (atBitrate 125000) := described
  have source' : chosenBitrate.Source (fun _ => second) (atBitrate 250000) := described'
  have agree := agree_atBitrate 125000 250000
  have same := (flags_replace_file_values source source' agree).1.mpr fun _ => by decide
  exact ⟨first, second, source, source', agree, same⟩

/-- A bitrate of zero in a file is refused although the command line chooses another, with which the
file would be loaded. -/
theorem zero_bitrate_not_replaced :
    ∃ zero other : FileNode, zero.Describes (atBitrate 0) ∧ other.Describes (atBitrate 250000) ∧
      chosenBitrate.Agree (atBitrate 0) (atBitrate 250000) ∧
      loadConfig (fun _ => zero) chosenBitrate
        = .error (.load "c.toml" (.invalid .zeroBitrate)) ∧
      loadConfig (fun _ => other) chosenBitrate = .ok (atBitrate 500000) := by
  obtain ⟨zero, described⟩ := exists_describes_atBitrate 0
  obtain ⟨other, described'⟩ := exists_describes_atBitrate 250000
  refine ⟨zero, other, described, described', agree_atBitrate 0 250000, ?_, ?_⟩
  · exact (loadConfig_eq_zeroBitrate_iff rfl described).mpr ⟨rfl, rfl⟩
  · rw [loadConfig_of_named rfl described']
    rfl

end Cli

end CanDfu
