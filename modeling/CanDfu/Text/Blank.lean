/-
  CanDfu.Text.Blank

  Blank characters as Unicode's White_Space property lists them, and trimming of texts by them.
-/

namespace CanDfu.Blank

/-- Whether a character is blank. -/
def isBlank (c : Char) : Bool :=
  let n := c.toNat
  (9 ≤ n && n ≤ 13) || n == 0x20 || n == 0x85 || n == 0xA0 || n == 0x1680
    || (0x2000 ≤ n && n ≤ 0x200A) || n == 0x2028 || n == 0x2029 || n == 0x202F || n == 0x205F
    || n == 0x3000

/-- A text without the blanks at its ends. -/
def trim (text : String) : String :=
  let front := text.toList.dropWhile isBlank
  String.ofList (front.reverse.dropWhile isBlank).reverse

/-- The trimmed parts of a comma-separated list that are not blank. -/
def names (text : String) : List String :=
  ((text.splitOn ",").map trim).filter (· ≠ "")

end CanDfu.Blank
