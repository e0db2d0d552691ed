/-
  CanDfu.Toml.Tree

  A document being put together.  Beside its entries a table remembers how it came about: an
  unstated table was only named on the way to another one, and a dotted table was made by a dotted
  key.  The rules against stating something twice are put in these terms.
-/
import CanDfu.Toml.Value

namespace CanDfu.Toml

/-- How a table came about. -/
structure Origin where
  unstated : Bool := false
  dotted : Bool := false
  deriving DecidableEq, Repr

/-- An item of a document being put together. -/
inductive Item
  | value (v : Value)
  | table (origin : Origin) (entries : List (String × Item))
  /-- A table for each of its headers, the latest first. -/
  | tables (latestFirst : List (List (String × Item)))
  deriving Inhabited

/-- The entries of a table being put together. -/
abbrev Tree : Type := List (String × Item)

mutual

/-- The finished value of an item. -/
def Item.toValue : Item → Value
  | .value v => v
  | .table _ entries => .table (entriesToTable entries)
  | .tables latestFirst => .array (tablesToValues latestFirst).reverse

/-- The finished entries of a table. -/
def entriesToTable : List (String × Item) → Table
  | [] => []
  | (key, item) :: rest => (key, item.toValue) :: entriesToTable rest

/-- The finished tables of a list of them. -/
def tablesToValues : List (List (String × Item)) → List Value
  | [] => []
  | entries :: rest => .table (entriesToTable entries) :: tablesToValues rest

end

namespace Tree

/-- The finished table. -/
def toTable (t : Tree) : Table := entriesToTable t

/-- Replaces the item of a key. -/
def replace (t : Tree) (key : String) (item : Item) : Tree :=
  t.map fun (k, old) => if k = key then (k, item) else (k, old)

/-- Changes the table at the end of a path, making unstated tables where there are none.  A list of
tables stands for its latest one.  A dotted key goes only through unstated tables. -/
def descend (dotted : Bool) (change : Origin → Tree → Option Tree) :
    List String → Origin → Tree → Option Tree
  | [], origin, t => change origin t
  | key :: path, _, t =>
    match t.lookup key with
    | none => do
      let made : Origin := ⟨true, dotted⟩
      some (t ++ [(key, .table made (← descend dotted change path made []))])
    | some (.table origin entries) =>
      if dotted && !origin.unstated then none
      else do some (t.replace key (.table origin (← descend dotted change path origin entries)))
    | some (.tables (latest :: earlier)) => do
      some (t.replace key (.tables ((← descend dotted change path {} latest) :: earlier)))
    | some _ => none

/-- Adds a value under a key.  Only dotted keys add to dotted tables, and they add to no other. -/
def insert (path : List String) (key : String) (v : Value) (t : Tree) : Option Tree :=
  descend true
    (fun origin t =>
      if origin.dotted == path.isEmpty then none
      else if (t.lookup key).isSome then none
      else some (t ++ [(key, .value v)]))
    path {} t

/-- Starts the table of a header, which may have been named before but not stated. -/
def openTable (path : List String) (key : String) (t : Tree) : Option Tree :=
  descend false
    (fun _ t =>
      match t.lookup key with
      | none => some (t ++ [(key, .table {} [])])
      | some (.table origin entries) =>
        if origin.unstated && !origin.dotted then some (t.replace key (.table {} entries)) else none
      | some _ => none)
    path {} t

/-- Starts one more table of a list of tables. -/
def openNext (path : List String) (key : String) (t : Tree) : Option Tree :=
  descend false
    (fun _ t =>
      match t.lookup key with
      | none => some (t ++ [(key, .tables [[]])])
      | some (.tables latestFirst) => some (t.replace key (.tables ([] :: latestFirst)))
      | some _ => none)
    path {} t

/-- Adds a value to the table of the latest header. -/
def insertUnder (header path : List String) (key : String) (v : Value) (t : Tree) : Option Tree :=
  descend false (fun _ t => insert path key v t) header {} t

end Tree

end CanDfu.Toml
