/-
  CanDfu.Toml.Printer

  Writing a table as a TOML document in its roomy form: each nested table under a header of its
  own, and each item of an array of several on a line of its own.
-/
import CanDfu.Text.Hex
import CanDfu.Toml.Scan
import CanDfu.Toml.Value

namespace CanDfu.Toml.Printer

/-! ## Strings -/

/-- The length of the longest run of a character. -/
def longestRun (c : Char) (cs : List Char) : Nat :=
  (cs.foldl (fun (longest, run) d =>
    let run := if d = c then run + 1 else 0
    (max longest run, run)) (0, 0)).1

/-- Whether a character can only be written as an escape. -/
def needsEscape (c : Char) : Bool :=
  (c.toNat ≤ 0x1F && c ≠ '\t' && c ≠ '\n') || c.toNat = 0x7F

/-- How a string is written. -/
inductive Style
  | basic
  | literal
  | multilineBasic
  | multilineLiteral
  deriving DecidableEq, Repr

/-- The plainest way to write a string. -/
def style (cs : List Char) : Style :=
  let escapes := cs.any needsEscape
  let backslash := cs.contains '\\'
  let newline := cs.contains '\n'
  let double := longestRun '"' cs
  let single := longestRun '\'' cs
  if !escapes && !backslash && double = 0 && !newline then .basic
  else if !escapes && single = 0 && !newline then .literal
  else if !escapes && !backslash && double ≤ 2 then .multilineBasic
  else if !escapes && single ≤ 2 then .multilineLiteral
  else if newline then .multilineBasic
  else .basic

/-- The characters between the quotes of a string with escapes.  In one of several lines a line
feed stands for itself, and of quotes in a row only each third is escaped. -/
def escaped (multiline : Bool) : (quotes : Nat) → List Char → List Char
  | _, [] => []
  | quotes, c :: cs =>
    if c = '"' then
      if multiline && quotes + 1 < 3 then c :: escaped multiline (quotes + 1) cs
      else '\\' :: c :: escaped multiline 0 cs
    else
      let written : List Char :=
        match c with
        | '\x08' => ['\\', 'b']
        | '\t' => ['\\', 't']
        | '\n' => if multiline then ['\n'] else ['\\', 'n']
        | '\x0c' => ['\\', 'f']
        | '\r' => ['\\', 'r']
        | '\\' => ['\\', '\\']
        | c => if needsEscape c then '\\' :: 'u' :: (Hex.padded 4 c.toNat).toList else [c]
      written ++ escaped multiline 0 cs

/-- A string. -/
def string (text : String) : String :=
  let cs := text.toList
  let opening := if cs.contains '\n' then "\n" else ""
  match style cs with
  | .basic => "\"" ++ String.ofList (escaped false 0 cs) ++ "\""
  | .literal => "'" ++ text ++ "'"
  | .multilineBasic =>
    "\"\"\"" ++ opening ++ String.ofList (escaped true 0 cs) ++ "\"\"\""
  | .multilineLiteral => "'''" ++ opening ++ text ++ "'''"

/-- A key. -/
def key (text : String) : String :=
  if !text.isEmpty && text.toList.all Scan.isBare then text else string text

/-! ## Values -/

mutual

/-- A value on the right of a key; integers beyond 64 bits cannot be written. -/
def value : Value → Option String
  | .string text => some (string text)
  | .integer n => if (Scan.inRange n).isSome then some (toString n) else none
  | .float written => some written
  | .boolean b => some (if b then "true" else "false")
  | .datetime written => some written
  | .array [] => some "[]"
  | .array [v] => do some ("[" ++ (← value v) ++ "]")
  | .array (v :: w :: rest) => do
    some ("[\n" ++ (← itemLine v) ++ (← itemLine w) ++ (← itemLines rest) ++ "]")
  | .table [] => some "\x7b\x7d"
  | .table (entry :: rest) => do
    some ("\x7b " ++ (← inlineEntry entry) ++ (← inlineEntries rest) ++ " \x7d")

/-- An item of an array on its line. -/
def itemLine (v : Value) : Option String := do
  some ("    " ++ (← value v) ++ ",\n")

/-- The items of an array, each on its line. -/
def itemLines : List Value → Option String
  | [] => some ""
  | v :: rest => do some ((← itemLine v) ++ (← itemLines rest))

/-- An entry of a table on one line. -/
def inlineEntry : String × Value → Option String
  | (name, v) => do some (key name ++ " = " ++ (← value v))

/-- Further entries of a table on one line. -/
def inlineEntries : List (String × Value) → Option String
  | [] => some ""
  | entry :: rest => do some (", " ++ (← inlineEntry entry) ++ (← inlineEntries rest))

end

/-! ## Documents -/

/-- Whether a value is a table. -/
def isTable : Value → Bool
  | .table _ => true
  | _ => false

/-- The entries of a table that are no tables, each on its line. -/
def lines : Table → Option String
  | [] => some ""
  | (name, v) :: rest => do
    if isTable v then lines rest
    else some (key name ++ " = " ++ (← value v) ++ "\n" ++ (← lines rest))

/-- The tables inside a table at a path, each as a header and its lines.  A table that holds nothing
but tables needs no header. -/
def blocks (path : List String) : Table → Option (List String)
  | [] => some []
  | (name, .table entries) :: rest => do
    let here := path ++ [name]
    let own ← if entries.isEmpty || entries.any (fun (_, v) => !isTable v) then do
        some ["[" ++ ".".intercalate (here.map key) ++ "]\n" ++ (← lines entries)]
      else some []
    some (own ++ (← blocks here entries) ++ (← blocks path rest))
  | _ :: rest => blocks path rest

/-- A document, with a blank line above each header. -/
def document (t : Table) : Option String := do
  let top ← lines t
  let nested ← blocks [] t
  some ("\n".intercalate (if top.isEmpty then nested else top :: nested))

end CanDfu.Toml.Printer
