/-
  CanDfu.Text.Hex

  Upper-case hexadecimal numbers of a fixed least width, as addresses, checksums and identifiers
  are shown in messages.
-/

namespace CanDfu.Hex

/-- The upper-case digit of a value below 16. -/
def digit (n : Nat) : Char :=
  if n < 10 then Char.ofNat (48 + n) else Char.ofNat (55 + n)

/-- The digits of `n`, most significant first; no digit for zero. -/
def digits (n : Nat) : List Char :=
  if n = 0 then [] else digits (n / 16) ++ [digit (n % 16)]
termination_by n
decreasing_by omega

/-- `n` with at least `width` digits, padded with zeros on the left. -/
def padded (width n : Nat) : String :=
  let ds := digits n
  String.ofList (List.replicate (width - ds.length) '0' ++ ds)

/-- A word as an address: `0x` and eight digits. -/
def address (w : UInt32) : String :=
  "0x" ++ padded 8 w.toNat

end CanDfu.Hex
