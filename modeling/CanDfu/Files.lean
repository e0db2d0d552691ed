/-
  CanDfu.Files

  The files a program may read, as a function from paths, and what reading them gives: file
  contents, text, a configuration, a firmware image.
-/
import CanDfu.Config.Document
import CanDfu.Error
import CanDfu.Image
import CanDfu.Journal
import CanDfu.Routine

namespace CanDfu

/-- What is at a path. -/
inductive FileNode
  | missing
  | directory
  /-- A path through something that is no directory. -/
  | notDirectory
  | file (bytes : List UInt8)
  deriving DecidableEq, Repr

/-- What is at each path. -/
abbrev Files : Type := String → FileNode

namespace Files

/-- The parts of a path.  A slash at its end asks for a directory, as a dot after it does. -/
def parts (path : String) : List String :=
  (path.splitOn "/").filter (· ≠ "") ++ if path.endsWith "/" then ["."] else []

/-- Follows a path from a directory of a collection of files.  Nothing is known of what lies above
the collection, but that it is there. -/
def walk (held : List (List String × List UInt8)) : (directory path : List String) → FileNode
  | _, [] => .directory
  | directory, "." :: rest => walk held directory rest
  | [], ".." :: rest => if rest.all fun part => part = "." ∨ part = ".." then .directory else .missing
  | directory, ".." :: rest => walk held directory.dropLast rest
  | directory, part :: rest =>
    let here := directory ++ [part]
    match held.lookup here with
    | some bytes => if rest.isEmpty then .file bytes else .notDirectory
    | none =>
      if held.any fun (name, _) => here.isPrefixOf name then walk held here rest else .missing

/-- Files held in memory, by their paths from the current directory.  The latest of a name is the
one that is there. -/
def ofList (held : List (String × List UInt8)) : Files :=
  let held := held.reverse.map fun (name, bytes) => ((parts name).filter (· ≠ "."), bytes)
  fun path =>
    if path.isEmpty then .missing
    else if path.startsWith "/" then if (parts path).all (· = ".") then .directory else .missing
    else walk held [] (parts path)

end Files

/-- Why a configuration was not loaded. -/
inductive LoadError
  | os (text : String)
  /-- The document is not well formed, or does not have the fields of a configuration. -/
  | malformed
  | invalid (cause : ConfigError)
  deriving DecidableEq, Repr

/-- The content of a file. -/
def FileNode.content : FileNode → Except String (List UInt8)
  | .missing => .error "No such file or directory (os error 2)"
  | .directory => .error "Is a directory (os error 21)"
  | .notDirectory => .error "Not a directory (os error 20)"
  | .file bytes => .ok bytes

/-- A file that holds a text. -/
def FileNode.ofText (text : String) : FileNode := .file text.toUTF8.data.toList

/-- The text that bytes encode. -/
def decodeText (bytes : List UInt8) : Except String String :=
  match String.fromUTF8? (ByteArray.mk bytes.toArray) with
  | some text => .ok text
  | none => .error "stream did not contain valid UTF-8"

namespace Config

/-- The configuration of a document, which has to be usable. -/
def ofText (text : String) : Except LoadError Config :=
  match (Toml.parse? text).bind Document.ofTable? with
  | none => .error .malformed
  | some c =>
    match c.validate with
    | .ok () => .ok c
    | .error e => .error (.invalid e)

/-- Loads a configuration. -/
def load (node : FileNode) : Except LoadError Config := do
  let bytes ← node.content.mapError .os
  let text ← (decodeText bytes).mapError .os
  ofText text

/-- The document of a configuration; none if a number in it is too large for one. -/
def toText? (c : Config) : Option String := Toml.Printer.document (Document.toTable c)

/-- The file a configuration is saved as; none if it has no document. -/
def save? (c : Config) : Option FileNode := c.toText?.map FileNode.ofText

end Config

/-- Loads a firmware image, which may not be empty. -/
def Image.load {σ : Type} (files : Files) (path : String) : Routine Note σ DfuError Image :=
  match files path with
  | .file [] => Routine.fail (.emptyImage path)
  | .file bytes => do
    Routine.emit (.record ⟨.info, "Loaded firmware image",
      [("path", path), ("size", s!"{bytes.length}")]⟩)
    pure ⟨bytes⟩
  | _ => Routine.fail (.imageNotFound path)

end CanDfu
