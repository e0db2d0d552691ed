/-
  CanDfu.Cli.Args

  The command line.  Options are read one after another; the value of an option is looked at when
  the next option, or the end, is reached, so the first of several faults depends on their order.
-/

namespace CanDfu.Cli

/-- The options of the program. -/
inductive Opt
  | nodeId
  | bin
  | recovery
  | noReset
  | force
  | bus
  | chan
  | bitrate
  | config
  | verbose
  | help
  | version
  deriving DecidableEq, Repr

/-- Why a command line was not accepted. -/
inductive UsageError
  | missingRequiredArgument
  | argumentConflict
  | valueValidation
  | unknownArgument
  | invalidValue
  | tooManyValues
  | displayHelp
  | displayVersion
  deriving DecidableEq, Repr

namespace UsageError

/-- The name of the refusal. -/
def label : UsageError → String
  | missingRequiredArgument => "MissingRequiredArgument"
  | argumentConflict => "ArgumentConflict"
  | valueValidation => "ValueValidation"
  | unknownArgument => "UnknownArgument"
  | invalidValue => "InvalidValue"
  | tooManyValues => "TooManyValues"
  | displayHelp => "DisplayHelp"
  | displayVersion => "DisplayVersion"

/-- The exit status of the program: asking for help is no mistake. -/
def exitStatus : UsageError → UInt8
  | displayHelp | displayVersion => 0
  | _ => 2

end UsageError

namespace Opt

/-- The long names of the options. -/
def longNames : List (String × Opt) :=
  [("node-id", nodeId), ("bin", bin), ("recovery", recovery), ("no-reset", noReset),
    ("force", force), ("bus", bus), ("chan", chan), ("bitrate", bitrate), ("config", config),
    ("verbose", verbose), ("help", help), ("version", version)]

/-- The short names of the options. -/
def shortNames : List (Char × Opt) := [('v', verbose), ('h', help), ('V', version)]

/-- Whether the option takes a value. -/
def takesValue : Opt → Bool
  | nodeId | bin | bus | chan | bitrate | config => true
  | _ => false

end Opt

/-- An accepted command line, but for what it must not lack. -/
structure Given where
  nodeId : Option UInt8 := none
  bin : Option String := none
  recovery : Bool := false
  noReset : Bool := false
  force : Bool := false
  bus : Option String := none
  channel : Option UInt32 := none
  bitrate : Option UInt32 := none
  config : Option String := none
  verbose : Bool := false
  deriving DecidableEq, Repr

/-- A complete command line. -/
structure Args extends Given where
  /-- The node that is addressed. -/
  node : UInt8
  deriving DecidableEq, Repr

/-- What has been read of a command line. -/
structure Reading where
  given : Given := {}
  seen : List Opt := []
  /-- The latest option that takes a value, with its value if that has come. -/
  pending : Option (Opt × Option String) := none

namespace Args

/-- A decimal number below a bound; a plus sign may stand before it. -/
def number (bound : Nat) (text : String) : Except UsageError Nat :=
  let ds :=
    match text.toList with
    | '+' :: ds => ds
    | '-' :: ds => if ds.all (· = '0') then ds else []
    | ds => ds
  if !ds.isEmpty && ds.all Char.isDigit then
    let n := ds.foldl (fun n c => 10 * n + (c.toNat - 48)) 0
    if n < bound then .ok n else .error .valueValidation
  else .error .valueValidation

/-- A path, which may not be empty. -/
def path (text : String) : Except UsageError String :=
  if text.isEmpty then .error .invalidValue else .ok text

/-- Takes an option and its value into what is given. -/
def set (g : Given) (o : Opt) (value : String) : Except UsageError Given := do
  match o with
  | .nodeId => return { g with nodeId := some (.ofNat (← number 0x100 value)) }
  | .bin => return { g with bin := some (← path value) }
  | .recovery => return { g with recovery := true }
  | .noReset => return { g with noReset := true }
  | .force => return { g with force := true }
  | .bus => return { g with bus := some value }
  | .chan => return { g with channel := some (.ofNat (← number 0x100000000 value)) }
  | .bitrate => return { g with bitrate := some (.ofNat (← number 0x100000000 value)) }
  | .config => return { g with config := some (← path value) }
  | .verbose => return { g with verbose := true }
  | .help => throw .displayHelp
  | .version => throw .displayVersion

/-- Takes an option in: it needs its value, and may not be given twice. -/
def accept (r : Reading) (o : Opt) (value : Option String) : Except UsageError Reading := do
  if o.takesValue && value.isNone then throw .invalidValue
  if r.seen.contains o then throw .argumentConflict
  let given ← set r.given o (value.getD "")
  return { r with given, seen := o :: r.seen }

/-- Takes in the option that was still waiting. -/
def settle (r : Reading) : Except UsageError Reading :=
  match r.pending with
  | none => .ok r
  | some (o, value) => accept { r with pending := none } o value

/-- Reads a long option, without its dashes. -/
def long (r : Reading) (text : String) : Except UsageError Reading := do
  let cs := text.toList
  let name := String.ofList (cs.takeWhile (· ≠ '='))
  let attached :=
    match cs.dropWhile (· ≠ '=') with
    | _ :: value => some (String.ofList value)
    | [] => none
  match Opt.longNames.lookup name with
  | none => throw .unknownArgument
  | some o =>
    if o.takesValue then
      let r ← settle r
      match attached with
      | some value => accept r o (some value)
      | none => return { r with pending := some (o, none) }
    else if attached.isSome then throw .tooManyValues
    else accept (← settle r) o none

/-- Reads the letters of short options. -/
def short : Reading → List Char → Except UsageError Reading
  | r, [] => .ok r
  | r, c :: cs =>
    match Opt.shortNames.lookup c with
    | none => .error .unknownArgument
    | some o => do short (← accept (← settle r) o none) cs

/-- Reads what does not look like an option: the value that is waited for. -/
def plain (r : Reading) (text : String) : Except UsageError Reading :=
  match r.pending with
  | some (o, none) => .ok { r with pending := some (o, some text) }
  | _ => .error .unknownArgument

/-- Reads a command line.  After two dashes nothing is an option, and nothing else is allowed. -/
def readAll : Reading → List String → Except UsageError Reading
  | r, [] => settle r
  | r, "--" :: rest => if rest.isEmpty then settle r else .error .unknownArgument
  | r, text :: rest => do
    let r ←
      match text.toList with
      | '-' :: '-' :: name => long r (String.ofList name)
      | '-' :: c :: cs => short r (c :: cs)
      | _ => plain r text
    readAll r rest

/-- Accepts a command line: an image or a recovery, and not both, for a node. -/
def parse (argv : List String) : Except UsageError Args := do
  let r ← readAll {} argv
  let g := r.given
  if g.bin.isSome && g.recovery then throw .argumentConflict
  match g.nodeId with
  | none => throw .missingRequiredArgument
  | some node =>
    if g.bin.isNone && !g.recovery then throw .missingRequiredArgument
    return { g with node }

end Args

end CanDfu.Cli
