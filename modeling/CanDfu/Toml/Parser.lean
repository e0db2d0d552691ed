/-
  CanDfu.Toml.Parser

  Reading a TOML document: statements line by line, put together into one table.  Nested values are
  read with fuel, which the length of the text bounds, and a count of the nesting so far.
-/
import CanDfu.Toml.Scan
import CanDfu.Toml.Tree

namespace CanDfu.Toml

/-- One line of a document that says something. -/
inductive Statement
  /-- The header of a table. -/
  | table (path : List String) (key : String)
  /-- The header of one more table of a list. -/
  | nextTable (path : List String) (key : String)
  /-- A key and its value. -/
  | entry (path : List String) (key : String) (v : Value)

namespace Parser

open Scan

mutual

/-- A value. -/
def value : (fuel depth : Nat) → Scan Value
  | 0, _, _ => none
  | fuel + 1, depth, cs =>
    match cs with
    | '"' :: _ | '\'' :: _ => (string cs).map fun (text, rest) => (.string text, rest)
    | '[' :: rest =>
      if depthLimit ≤ depth + 1 then none else items fuel (depth + 1) [] rest
    | '{' :: rest =>
      if depthLimit ≤ depth + 1 then none
      else
        match skipBlanks rest with
        | '}' :: rest => some (.table [], rest)
        | rest => entries fuel (depth + 1) [] rest
    | 't' :: 'r' :: 'u' :: 'e' :: rest => some (.boolean true, rest)
    | 'f' :: 'a' :: 'l' :: 's' :: 'e' :: rest => some (.boolean false, rest)
    | _ =>
      let written := fun (rest : List Char) => String.ofList (cs.take (cs.length - rest.length))
      ((datetime cs).map fun ((), rest) => (.datetime (written rest), rest))
        <|> ((float cs).map fun ((), rest) => (.float (written rest), rest))
        <|> ((integer cs).map fun (n, rest) => (.integer n, rest))

/-- The rest of an array, where an item may stand. -/
def items : (fuel depth : Nat) → (seen : List Value) → Scan Value
  | 0, _, _, _ => none
  | fuel + 1, depth, seen, cs =>
    match skipLines fuel cs with
    | ']' :: rest => some (.array seen.reverse, rest)
    | cs => do
      let (v, rest) ← value fuel depth cs
      match skipLines fuel rest with
      | ',' :: rest => items fuel depth (v :: seen) rest
      | ']' :: rest => some (.array (v :: seen).reverse, rest)
      | _ => none

/-- The rest of an inline table, where an entry has to stand. -/
def entries : (fuel depth : Nat) → (seen : Tree) → Scan Value
  | 0, _, _, _ => none
  | fuel + 1, depth, seen, cs => do
    let ((path, last), rest) ← key cs
    let rest ← exactly '=' rest
    let (v, rest) ← value fuel depth (skipBlanks rest)
    let seen ← seen.insert path last v
    match skipBlanks rest with
    | ',' :: rest => entries fuel depth seen rest
    | '}' :: rest => some (.table seen.toTable, rest)
    | _ => none

end

/-- One statement, up to the end of its line. -/
def statement (cs : List Char) : Option (Statement × List Char) :=
  match cs with
  | '[' :: '[' :: rest => do
    let ((path, last), rest) ← key rest
    let rest ← endOfLine (← exactly ']' (← exactly ']' rest))
    some (.nextTable path last, rest)
  | '[' :: rest => do
    let ((path, last), rest) ← key rest
    let rest ← endOfLine (← exactly ']' rest)
    some (.table path last, rest)
  | _ => do
    let ((path, last), rest) ← key cs
    let rest ← exactly '=' rest
    let (v, rest) ← value (rest.length + 1) 0 (skipBlanks rest)
    some (.entry path last v, ← endOfLine rest)

/-- The statements of a text, which has no more lines than `fuel`. -/
def statements : (fuel : Nat) → List Char → Option (List Statement)
  | 0, _ => none
  | fuel + 1, cs =>
    match skipBlanks cs with
    | [] => some []
    | '#' :: _ | '\n' :: _ | '\r' :: _ => do statements fuel (← endOfLine cs)
    | cs => do
      let (s, rest) ← statement cs
      let more ← statements fuel rest
      some (s :: more)

/-- Adds statements to a document; `header` is the path of the latest header. -/
def assemble : (header : List String) → Tree → List Statement → Option Tree
  | _, t, [] => some t
  | _, t, .table path last :: rest => do
    assemble (path ++ [last]) (← t.openTable path last) rest
  | _, t, .nextTable path last :: rest => do
    assemble (path ++ [last]) (← t.openNext path last) rest
  | header, t, .entry path last v :: rest => do
    assemble header (← t.insertUnder header path last v) rest

end Parser

/-- Reads a document.  A byte order mark at its start is passed over. -/
def parse? (text : String) : Option Table := do
  let cs :=
    match text.toList with
    | '\uFEFF' :: cs => cs
    | cs => cs
  let t ← Parser.assemble [] [] (← Parser.statements (cs.length + 2) cs)
  some t.toTable

end CanDfu.Toml
