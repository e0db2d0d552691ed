/-
  CanDfu.Toml.Value

  Values of a TOML document.  A table keeps its entries in the order they were written, and no key
  twice.  Numbers with a fraction and dates are recognised as such, and kept as they were written.
-/

namespace CanDfu.Toml

/-- A TOML value. -/
inductive Value
  | string (text : String)
  | integer (n : Int)
  | float (written : String)
  | boolean (b : Bool)
  | datetime (written : String)
  | array (items : List Value)
  | table (entries : List (String × Value))
  deriving Repr, Inhabited

/-- A table: its entries in order. -/
abbrev Table : Type := List (String × Value)

/-- The value of a key. -/
def Table.get? (t : Table) (key : String) : Option Value := t.lookup key

end CanDfu.Toml
