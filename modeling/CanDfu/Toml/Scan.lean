/-
  CanDfu.Toml.Scan

  The words of a TOML document: blanks, line ends, comments, strings, keys, numbers and dates.  A
  scanner takes its word off the front of a text, or fails.
-/

namespace CanDfu.Toml

/-- Takes a word off the front of a text. -/
abbrev Scan (α : Type) : Type := List Char → Option (α × List Char)

namespace Scan

/-- Whether a character is a blank. -/
def isBlank (c : Char) : Bool := c = ' ' || c = '\t'

/-- Whether a character may stand in a comment: no control character but the tab. -/
def isPrintable (c : Char) : Bool := c = '\t' || (0x20 ≤ c.toNat && c.toNat ≠ 0x7F)

/-- The text after its blanks. -/
def skipBlanks (cs : List Char) : List Char := cs.dropWhile isBlank

/-- A line end. -/
def lineEnd : List Char → Option (List Char)
  | '\n' :: rest => some rest
  | '\r' :: '\n' :: rest => some rest
  | _ => none

/-- The text after a comment, if it starts with one. -/
def skipComment : List Char → List Char
  | '#' :: rest => rest.dropWhile isPrintable
  | cs => cs

/-- The end of a line or of the text, after blanks and a comment. -/
def endOfLine (cs : List Char) : Option (List Char) :=
  match skipComment (skipBlanks cs) with
  | [] => some []
  | rest => lineEnd rest

/-- The text after blanks, line ends and whole-line comments, looking at no more than `fuel` of
them. -/
def skipLines : (fuel : Nat) → List Char → List Char
  | 0, cs => cs
  | fuel + 1, cs =>
    match skipBlanks cs with
    | '#' :: rest =>
      match lineEnd (rest.dropWhile isPrintable) with
      | some rest => skipLines fuel rest
      | none => '#' :: rest
    | rest =>
      match lineEnd rest with
      | some rest => skipLines fuel rest
      | none => rest

/-! ## Strings -/

/-- The value of a hexadecimal digit. -/
def hexValue (c : Char) : Option Nat :=
  if '0' ≤ c ∧ c ≤ '9' then some (c.toNat - 48)
  else if 'a' ≤ c ∧ c ≤ 'f' then some (c.toNat - 87)
  else if 'A' ≤ c ∧ c ≤ 'F' then some (c.toNat - 55)
  else none

/-- A number of exactly `count` hexadecimal digits, added to `n`. -/
def hexDigits : (count n : Nat) → Scan Nat
  | 0, n, cs => some (n, cs)
  | count + 1, n, c :: cs => do hexDigits count (16 * n + (← hexValue c)) cs
  | _ + 1, _, [] => none

/-- The character with a number of exactly `count` digits. -/
def unicode (count : Nat) (cs : List Char) : Option (Char × List Char) := do
  let (n, rest) ← hexDigits count 0 cs
  if h : n.isValidChar then some (Char.ofNatAux n h, rest) else none

/-- The character an escape stands for, after its backslash. -/
def escape : Scan Char
  | 'b' :: cs => some ('\x08', cs)
  | 't' :: cs => some ('\t', cs)
  | 'n' :: cs => some ('\n', cs)
  | 'f' :: cs => some ('\x0c', cs)
  | 'r' :: cs => some ('\r', cs)
  | '"' :: cs => some ('"', cs)
  | '\\' :: cs => some ('\\', cs)
  | 'u' :: cs => unicode 4 cs
  | 'U' :: cs => unicode 8 cs
  | _ => none

/-- The rest of a one-line string with escapes, up to its closing quote. -/
def basicRest : (fuel : Nat) → (seen : List Char) → Scan String
  | 0, _, _ => none
  | fuel + 1, seen, cs =>
    match cs with
    | '"' :: rest => some (String.ofList seen.reverse, rest)
    | '\\' :: rest => do
      let (c, rest) ← escape rest
      basicRest fuel (c :: seen) rest
    | c :: rest => if isPrintable c then basicRest fuel (c :: seen) rest else none
    | [] => none

/-- The rest of a one-line string without escapes. -/
def literalRest (cs : List Char) : Option (String × List Char) :=
  match cs.dropWhile fun c => isPrintable c && c ≠ '\'' with
  | '\'' :: rest => some (String.ofList (cs.takeWhile fun c => isPrintable c && c ≠ '\''), rest)
  | _ => none

/-- The end of a string of several lines, at three or more of its quotes: up to two more belong to
the string. -/
def closing (quote : Char) (cs : List Char) : Option (List Char × List Char) :=
  let run := (cs.takeWhile (· = quote)).length
  if run < 3 then none
  else
    let kept := min (run - 3) 2
    some (List.replicate kept quote, cs.drop (kept + 3))

/-- The text after blanks and line ends, looking at no more than `fuel` lines. -/
def skipBlankLines : (fuel : Nat) → List Char → List Char
  | 0, cs => cs
  | fuel + 1, cs =>
    let rest := skipBlanks cs
    match lineEnd rest with
    | some rest => skipBlankLines fuel rest
    | none => rest

/-- The rest of a string of several lines.  A line end is one line feed however it is written; with
`escapes`, a backslash at the end of a line takes out the blanks and line ends that follow. -/
def multilineRest (quote : Char) (escapes : Bool) : (fuel : Nat) → (seen : List Char) → Scan String
  | 0, _, _ => none
  | fuel + 1, seen, cs =>
    match closing quote cs with
    | some (kept, rest) => some (String.ofList (kept ++ seen).reverse, rest)
    | none =>
      match lineEnd cs with
      | some rest => multilineRest quote escapes fuel ('\n' :: seen) rest
      | none =>
        match cs with
        | [] => none
        | c :: rest =>
          if escapes && c = '\\' then
            match lineEnd (skipBlanks rest) with
            | some rest => multilineRest quote escapes fuel seen (skipBlankLines fuel rest)
            | none => do
              let (c, rest) ← escape rest
              multilineRest quote escapes fuel (c :: seen) rest
          else if isPrintable c then multilineRest quote escapes fuel (c :: seen) rest
          else none

/-- The text after a line end right at its start, if there is one. -/
def skipLineEnd (cs : List Char) : List Char := (lineEnd cs).getD cs

/-- A string value. -/
def string : Scan String
  | '"' :: '"' :: '"' :: cs => multilineRest '"' true (cs.length + 1) [] (skipLineEnd cs)
  | '"' :: cs => basicRest (cs.length + 1) [] cs
  | '\'' :: '\'' :: '\'' :: cs => multilineRest '\'' false (cs.length + 1) [] (skipLineEnd cs)
  | '\'' :: cs => literalRest cs
  | _ => none

/-! ## Keys -/

/-- Whether a character may stand in a key without quotes. -/
def isBare (c : Char) : Bool := c.isAlphanum || c = '_' || c = '-'

/-- One part of a key. -/
def simpleKey (cs : List Char) : Option (String × List Char) :=
  match cs with
  | '"' :: rest => basicRest (rest.length + 1) [] rest
  | '\'' :: rest => literalRest rest
  | _ =>
    match cs.takeWhile isBare with
    | [] => none
    | bare => some (String.ofList bare, cs.dropWhile isBare)

/-- The parts of a key, with dots between them and blanks around each. -/
def keyParts : (fuel : Nat) → Scan (List String)
  | 0, _ => none
  | fuel + 1, cs => do
    let (part, rest) ← simpleKey (skipBlanks cs)
    match skipBlanks rest with
    | '.' :: rest => do
      let (parts, rest) ← keyParts fuel rest
      some (part :: parts, rest)
    | rest => some ([part], rest)

/-- How deep keys and values may be nested. -/
def depthLimit : Nat := 80

/-- A key: the path before its last part, and the last part. -/
def key (cs : List Char) : Option ((List String × String) × List Char) := do
  let (parts, rest) ← keyParts (cs.length + 1) cs
  if depthLimit ≤ parts.length then none
  else
    let last ← parts.getLast?
    some ((parts.dropLast, last), rest)

/-! ## Numbers -/

/-- Digits with single underscores between them, as the characters of the digits. -/
def digits (isDigit : Char → Bool) : (fuel : Nat) → Scan (List Char)
  | 0, _ => none
  | fuel + 1, cs =>
    match cs with
    | c :: rest =>
      if isDigit c then
        match rest with
        | '_' :: rest => do
          let (more, rest) ← digits isDigit fuel rest
          some (c :: more, rest)
        | d :: _ =>
          if isDigit d then do
            let (more, rest) ← digits isDigit fuel rest
            some (c :: more, rest)
          else some ([c], rest)
        | [] => some ([c], [])
      else none
    | [] => none

/-- The number of some digits in a base. -/
def number (base : Nat) (ds : List Char) : Nat :=
  ds.foldl (fun n c => base * n + (hexValue c).getD 0) 0

/-- A sign, as whether it is a minus. -/
def sign : List Char → Bool × List Char
  | '+' :: cs => (false, cs)
  | '-' :: cs => (true, cs)
  | cs => (false, cs)

/-- The digits of a decimal number without needless leading zeros. -/
def decimalDigits (cs : List Char) : Option (List Char × List Char) :=
  match cs with
  | '0' :: rest => some (['0'], rest)
  | _ => digits Char.isDigit (cs.length + 1) cs

/-- An integer within 64 bits. -/
def inRange (n : Int) : Option Int :=
  if -0x8000000000000000 ≤ n ∧ n < 0x8000000000000000 then some n else none

/-- An integer in a base, after what marks the base. -/
def based (base : Nat) (isDigit : Char → Bool) (cs : List Char) : Option (Int × List Char) := do
  let (ds, rest) ← digits isDigit (cs.length + 1) cs
  some (← inRange (number base ds), rest)

/-- An integer. -/
def integer (cs : List Char) : Option (Int × List Char) :=
  match cs with
  | '0' :: 'x' :: rest => based 16 (fun c => (hexValue c).isSome) rest
  | '0' :: 'o' :: rest => based 8 (fun c => '0' ≤ c ∧ c ≤ '7') rest
  | '0' :: 'b' :: rest => based 2 (fun c => c = '0' || c = '1') rest
  | _ => do
    let (minus, rest) := sign cs
    let (ds, rest) ← decimalDigits rest
    let n : Int := number 10 ds
    some (← inRange (if minus then -n else n), rest)

/-- The exponent of a number, after its `e`. -/
def exponent (cs : List Char) : Option (Int × List Char) := do
  let (minus, rest) := sign cs
  let (ds, rest) ← digits Char.isDigit (rest.length + 1) rest
  let n : Int := number 10 ds
  some (if minus then -n else n, rest)

/-- Whether `digits`, scaled by a power of ten, is beyond the largest 64-bit floating-point number:
it would be rounded to a power of two that has no such number. -/
def overflows (ds : List Char) (scale : Int) : Bool :=
  let ds := ds.dropWhile (· = '0')
  let magnitude := scale + ds.length
  if ds.isEmpty || magnitude < 300 then false
  else if 320 < magnitude then true
  else
    let limit := Nat.pow 2 1024 - Nat.pow 2 970
    if 0 ≤ scale then limit ≤ number 10 ds * Nat.pow 10 scale.toNat
    else limit * Nat.pow 10 (-scale).toNat ≤ number 10 ds

/-- A number with a fraction, an exponent or both, that is not too large, or one of the words for
infinity and not-a-number. -/
def float (cs : List Char) : Option (Unit × List Char) :=
  let (minus, unsigned) := sign cs
  match unsigned with
  | 'i' :: 'n' :: 'f' :: rest => some ((), rest)
  | 'n' :: 'a' :: 'n' :: rest => some ((), rest)
  | _ => do
    let (whole, rest) ← decimalDigits unsigned
    let (fraction, rest) ←
      match rest with
      | '.' :: rest => digits Char.isDigit (rest.length + 1) rest
      | 'e' :: _ | 'E' :: _ => some ([], rest)
      | _ => none
    let (scale, rest) ←
      match rest with
      | 'e' :: rest | 'E' :: rest => exponent rest
      | _ => some (0, rest)
    if !minus && overflows (whole ++ fraction) (scale - fraction.length) then none
    else some ((), rest)

/-! ## Dates -/

/-- A number of exactly two digits. -/
def twoDigits : Scan Nat
  | a :: b :: rest =>
    if a.isDigit && b.isDigit then some (number 10 [a, b], rest) else none
  | _ => none

/-- One particular character. -/
def exactly (c : Char) : List Char → Option (List Char)
  | d :: rest => if c = d then some rest else none
  | [] => none

/-- The days of a month. -/
def daysOfMonth (year month : Nat) : Nat :=
  if month = 2 then
    if year % 4 = 0 ∧ (year % 100 ≠ 0 ∨ year % 400 = 0) then 29 else 28
  else if month ∈ [4, 6, 9, 11] then 30
  else 31

/-- A date. -/
def date (cs : List Char) : Option (Unit × List Char) := do
  let (century, rest) ← twoDigits cs
  let (year, rest) ← twoDigits rest
  let (month, rest) ← twoDigits (← exactly '-' rest)
  let (day, rest) ← twoDigits (← exactly '-' rest)
  if month = 0 ∨ 12 < month ∨ day = 0 ∨ daysOfMonth (100 * century + year) month < day then none
  else some ((), rest)

/-- A time of day. -/
def time (cs : List Char) : Option (Unit × List Char) := do
  let (hour, rest) ← twoDigits cs
  let (minute, rest) ← twoDigits (← exactly ':' rest)
  let (second, rest) ← twoDigits (← exactly ':' rest)
  if 23 < hour ∨ 59 < minute ∨ 60 < second then none
  else
    match rest with
    | '.' :: fraction =>
      match fraction.takeWhile Char.isDigit with
      | [] => some ((), rest)
      | _ => some ((), fraction.dropWhile Char.isDigit)
    | _ => some ((), rest)

/-- The text after an offset from universal time, if it starts with one. -/
def skipOffset (cs : List Char) : Option (List Char) :=
  match cs with
  | 'Z' :: rest | 'z' :: rest => some rest
  | '+' :: rest | '-' :: rest => do
    let (hour, rest) ← twoDigits rest
    let (minute, rest) ← twoDigits (← exactly ':' rest)
    if 23 < hour ∨ 59 < minute then none else some rest
  | _ => some cs

/-- A date with or without a time, or a time. -/
def datetime (cs : List Char) : Option (Unit × List Char) :=
  match date cs with
  | some ((), rest) =>
    match rest with
    | c :: after =>
      if c = 'T' || c = 't' || c = ' ' then
        match time after with
        | some ((), rest) => (skipOffset rest).map ((), ·)
        | none => some ((), rest)
      else some ((), rest)
    | [] => some ((), rest)
  | none => time cs

end Scan

end CanDfu.Toml
