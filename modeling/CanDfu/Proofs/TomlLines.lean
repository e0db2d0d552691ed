/-
  CanDfu.Proofs.TomlLines

  Every line of a printed TOML document is read back: keys without quotes, values that are strings,
  truth values, numbers from zero or arrays of such values, and the headers of tables.  A number is
  told from a date, a time and a number with a fraction by what follows it: the end of its line, or
  of its place in an array.
-/
import CanDfu.Proofs.TomlStrings
import Mathlib.Data.List.Basic

namespace CanDfu.Toml

open Scan

/-! ## Numbers -/

/-- What follows a printed value: the end of its line, or of its place in an array. -/
def Ends (cs : List Char) : Prop := ∃ c rest, cs = c :: rest ∧ (c = '\n' ∨ c = ',' ∨ c = ']')

theorem Ends.head?_ne {cs : List Char} (h : Ends cs) {c : Char}
    (hc : c ≠ '\n' ∧ c ≠ ',' ∧ c ≠ ']') : cs.head? ≠ some c := by
  obtain ⟨d, rest, rfl, hd⟩ := h
  intro heq
  have hdc : d = c := Option.some.inj heq
  subst hdc
  rcases hd with hd | hd | hd
  · exact hc.1 hd
  · exact hc.2.1 hd
  · exact hc.2.2 hd

/-- Digits. -/
def Digits (ds : List Char) : Prop := ∀ d ∈ ds, d.isDigit = true

theorem Digits.tail {d : Char} {ds : List Char} (h : Digits (d :: ds)) : Digits ds :=
  fun e he => h e (List.mem_cons_of_mem d he)

/-- After digits that are the end of a value stands no other character than digits and the ends. -/
theorem exactly_eq_none {c : Char} (hdigit : c.isDigit = false)
    (hends : c ≠ '\n' ∧ c ≠ ',' ∧ c ≠ ']') {ds rest : List Char} (hds : Digits ds)
    (hrest : Ends rest) : exactly c (ds ++ rest) = none := by
  cases ds with
  | nil =>
    obtain ⟨d, more, rfl, -⟩ := id hrest
    have hne : c ≠ d := fun heq => hrest.head?_ne hends (by rw [List.head?_cons, heq])
    exact if_neg hne
  | cons d ds =>
    have hne : c ≠ d := by
      rintro rfl
      exact absurd (hds c List.mem_cons_self) (by simp [hdigit])
    exact if_neg hne

/-- Two digits taken off some digits leave digits. -/
theorem twoDigits_digits {ds rest : List Char} (hds : Digits ds) (hrest : Ends rest) :
    twoDigits (ds ++ rest) = none ∨
      ∃ n more, Digits more ∧ twoDigits (ds ++ rest) = some (n, more ++ rest) := by
  obtain ⟨e, rest, rfl, he⟩ := hrest
  have hend : e.isDigit = false := by
    rcases he with rfl | rfl | rfl <;> rfl
  match ds, hds with
  | [], _ =>
    refine .inl ?_
    cases rest <;> simp [twoDigits, hend]
  | [d], _ => exact .inl (by simp [twoDigits, hend])
  | d :: d' :: more, hds =>
    have hd := hds d List.mem_cons_self
    have hd' := hds d' (List.mem_cons_of_mem d List.mem_cons_self)
    exact .inr ⟨number 10 [d, d'], more, hds.tail.tail, by simp [twoDigits, hd, hd']⟩

/-- Digits are no date: a date has dashes. -/
theorem date_digits {ds rest : List Char} (hds : Digits ds) (hrest : Ends rest) :
    date (ds ++ rest) = none := by
  have hdash : ∀ more, Digits more → exactly '-' (more ++ rest) = none :=
    fun more hmore => exactly_eq_none (by decide) (by decide) hmore hrest
  rcases twoDigits_digits hds hrest with hnone | ⟨century, more, hmore, hcentury⟩
  · simp [date, hnone]
  rcases twoDigits_digits hmore hrest with hnone | ⟨year, more', hmore', hyear⟩
  · simp [date, hcentury, hnone]
  · simp [date, hcentury, hyear, hdash more' hmore']

/-- Digits are no time of day: a time has colons. -/
theorem time_digits {ds rest : List Char} (hds : Digits ds) (hrest : Ends rest) :
    time (ds ++ rest) = none := by
  have hcolon : ∀ more, Digits more → exactly ':' (more ++ rest) = none :=
    fun more hmore => exactly_eq_none (by decide) (by decide) hmore hrest
  rcases twoDigits_digits hds hrest with hnone | ⟨hour, more, hmore, hhour⟩
  · simp [time, hnone]
  · simp [time, hhour, hcolon more hmore]

/-- All of the digits of a number are taken. -/
theorem digits_digits {rest : List Char} (hrest : Ends rest) :
    ∀ (ds : List Char) (fuel : Nat), Digits ds → ds ≠ [] → ds.length ≤ fuel →
      digits Char.isDigit fuel (ds ++ rest) = some (ds, rest) := by
  obtain ⟨e, rest, rfl, he⟩ := hrest
  have hend : e.isDigit = false ∧ e ≠ '_' := by
    rcases he with rfl | rfl | rfl <;> decide
  intro ds
  induction ds with
  | nil =>
    intro fuel _ hne _
    exact absurd rfl hne
  | cons d ds ih =>
    intro fuel hds _ hfuel
    obtain ⟨fuel, rfl⟩ : ∃ f, fuel = f + 1 := ⟨fuel - 1, by simp at hfuel; omega⟩
    have hd := hds d List.mem_cons_self
    cases ds with
    | nil => simp [digits, hd, hend]
    | cons d' ds =>
      have hd' := hds d' (List.mem_cons_of_mem d List.mem_cons_self)
      have hne : d' ≠ '_' := by
        rintro rfl
        exact absurd hd' (by decide)
      have hmore := ih fuel hds.tail (by simp) (by simpa using hfuel)
      rw [List.cons_append] at hmore
      simp [digits, hd, hd', hmore]

/-- The digits of a positive number start with no zero. -/
theorem head_toDigits {n : Nat} (h : 0 < n) :
    ∃ d ds, Nat.toDigits 10 n = d :: ds ∧ d ≠ '0' := by
  induction n using Nat.strongRecOn with
  | ind n ih =>
    by_cases hn : n < 10
    · refine ⟨n.digitChar, [], Nat.toDigits_of_lt_base hn, ?_⟩
      have hall : ∀ m : Fin 10, 0 < m.val → m.val.digitChar ≠ '0' := by decide
      exact hall ⟨n, hn⟩ h
    · obtain ⟨d, ds, hds, hd⟩ := ih (n / 10) (by omega) (by omega)
      refine ⟨d, ds ++ [(n % 10).digitChar], ?_, hd⟩
      rw [Nat.toDigits_of_base_le (by decide) (by omega), hds, List.cons_append]

theorem digits_toDigits (n : Nat) : Digits (Nat.toDigits 10 n) :=
  fun _ hd => Nat.isDigit_of_mem_toDigits (by decide) (by decide) hd

theorem toDigits_eq_cons (n : Nat) :
    ∃ d ds, Nat.toDigits 10 n = d :: ds ∧ d.isDigit = true := by
  obtain ⟨d, ds, hds⟩ := List.exists_cons_of_ne_nil (Nat.toDigits_ne_nil (n := n) (b := 10))
  exact ⟨d, ds, hds, digits_toDigits n d (by simp [hds])⟩

/-- A printed number is taken whole. -/
theorem decimalDigits_toDigits (n : Nat) {rest : List Char} (hrest : Ends rest) :
    decimalDigits (Nat.toDigits 10 n ++ rest) = some (Nat.toDigits 10 n, rest) := by
  by_cases hn : n = 0
  · subst hn
    rfl
  · obtain ⟨d, ds, hds, hd⟩ := head_toDigits (by omega : 0 < n)
    have hall := digits_digits hrest (Nat.toDigits 10 n) ((Nat.toDigits 10 n ++ rest).length + 1)
      (digits_toDigits n) Nat.toDigits_ne_nil (by simp; omega)
    rw [hds] at hall ⊢
    unfold decimalDigits
    split
    · rename_i heq
      exact absurd (List.cons.inj heq).1 hd
    · exact hall

/-- The value of a digit is counted from that of zero. -/
theorem hexValue_of_isDigit {c : Char} (h : c.isDigit = true) :
    hexValue c = some (c.toNat - 48) := by
  have hc : '0' ≤ c ∧ c ≤ '9' := by simpa [Char.isDigit, Char.le_def] using h
  simp only [hexValue, if_pos hc]

/-- The number of some digits, as the library counts it. -/
theorem number_digits {ds : List Char} (hds : Digits ds) :
    number 10 ds = Nat.ofDigitChars 10 ds 0 := by
  rw [number, Nat.ofDigitChars_eq_foldl]
  refine List.foldl_ext _ _ _ fun n c hc => ?_
  rw [hexValue_of_isDigit (hds c hc)]
  rfl

theorem number_toDigits (n : Nat) : number 10 (Nat.toDigits 10 n) = n := by
  rw [number_digits (digits_toDigits n)]
  exact Nat.ofDigitChars_ten_toDigits

/-- A digit is none of the characters that start another kind of value, and no sign. -/
theorem ne_of_isDigit {d c : Char} (hd : d.isDigit = true) (hc : c.isDigit = false) : d ≠ c := by
  rintro rfl
  exact absurd hd (by simp [hc])

/-- A digit is no sign. -/
theorem sign_digit {d : Char} (hd : d.isDigit = true) (cs : List Char) :
    sign (d :: cs) = (false, d :: cs) := by
  rw [sign]
  · rintro cs heq
    exact ne_of_isDigit hd (by decide) (List.cons.inj heq).1
  · rintro cs heq
    exact ne_of_isDigit hd (by decide) (List.cons.inj heq).1

/-- A printed number is no number with a fraction. -/
theorem float_toDigits (n : Nat) {rest : List Char} (hrest : Ends rest) :
    float (Nat.toDigits 10 n ++ rest) = none := by
  have hwhole := decimalDigits_toDigits n hrest
  obtain ⟨d, ds, hds, hd⟩ := toDigits_eq_cons n
  obtain ⟨e, more, rfl, he⟩ := hrest
  have hsign : sign (Nat.toDigits 10 n ++ e :: more) = (false, Nat.toDigits 10 n ++ e :: more) := by
    rw [hds]
    exact sign_digit hd _
  simp only [float, hsign]
  split
  · rename_i heq
    rw [hds] at heq
    exact absurd (List.cons.inj heq).1 (ne_of_isDigit hd (by decide))
  · rename_i heq
    rw [hds] at heq
    exact absurd (List.cons.inj heq).1 (ne_of_isDigit hd (by decide))
  · rw [hwhole]
    rcases he with rfl | rfl | rfl <;> rfl

/-- What stands after some of the digits of a value is a digit or an end. -/
theorem digit_or_end {ds rest : List Char} (hds : Digits ds) (hrest : Ends rest) {c : Char}
    {more : List Char} (h : ds ++ rest = c :: more) :
    c.isDigit = true ∨ c = '\n' ∨ c = ',' ∨ c = ']' := by
  cases ds with
  | nil =>
    obtain ⟨e, after, rfl, he⟩ := hrest
    exact .inr ((List.cons.inj h).1 ▸ he)
  | cons d ds => exact .inl ((List.cons.inj h).1 ▸ hds d List.mem_cons_self)

/-- Numbers from zero below `2 ^ 63` are integers of 64 bits. -/
theorem inRange_natural {n : Nat} (hn : n < 0x8000000000000000) :
    inRange (n : Int) = some (n : Int) := by
  unfold inRange
  rw [if_pos]
  constructor
  · omega
  · omega

/-- A printed number is an integer. -/
theorem integer_toDigits {n : Nat} (hn : n < 0x8000000000000000) {rest : List Char}
    (hrest : Ends rest) :
    integer (Nat.toDigits 10 n ++ rest) = some ((n : Int), rest) := by
  have hwhole := decimalDigits_toDigits n hrest
  have hnumber := number_toDigits n
  have hdigits := digits_toDigits n
  obtain ⟨d, ds, hds, hd⟩ := toDigits_eq_cons n
  rw [hds] at hwhole hnumber hdigits ⊢
  rw [List.cons_append] at hwhole ⊢
  have hsign : sign (d :: (ds ++ rest)) = (false, d :: (ds ++ rest)) :=
    sign_digit hd _
  -- no letter follows the first digit, so this is no number of another base
  have hsecond : ∀ c, c.isDigit = false → c ≠ '\n' ∧ c ≠ ',' ∧ c ≠ ']' → ∀ a more,
      d :: (ds ++ rest) ≠ a :: c :: more := by
    intro c hdigit hend a more heq
    rcases digit_or_end hdigits.tail hrest (List.cons.inj heq).2 with hc | hc | hc | hc
    · exact absurd hc (by simp [hdigit])
    · exact hend.1 hc
    · exact hend.2.1 hc
    · exact hend.2.2 hc
  rw [integer]
  · simp only [hsign, hwhole]
    rw [Option.bind_eq_bind, Option.bind_some, if_neg (by decide)]
    dsimp only
    rw [hnumber, inRange_natural hn]
    rfl
  · exact fun more => hsecond 'x' (by decide) (by decide) '0' more
  · exact fun more => hsecond 'o' (by decide) (by decide) '0' more
  · exact fun more => hsecond 'b' (by decide) (by decide) '0' more

theorem value_toDigits {n : Nat} (hn : n < 0x8000000000000000) {rest : List Char}
    (hrest : Ends rest) (fuel depth : Nat) :
    Parser.value (fuel + 1) depth (Nat.toDigits 10 n ++ rest) = some (.integer n, rest) := by
  obtain ⟨d, ds, hds, hd⟩ := toDigits_eq_cons n
  have hdate : datetime (Nat.toDigits 10 n ++ rest) = none := by
    simp only [datetime, date_digits (digits_toDigits n) hrest,
      time_digits (digits_toDigits n) hrest]
  have hint := integer_toDigits hn hrest
  have hfloat := float_toDigits n hrest
  rw [hds, List.cons_append] at hdate hint hfloat ⊢
  have hne : ∀ c, c.isDigit = false → ∀ more, d :: (ds ++ rest) = c :: more → False :=
    fun c hc more heq => ne_of_isDigit hd hc (List.cons.inj heq).1
  rw [Parser.value]
  · simp [hdate, hfloat, hint]
  · exact hne '"' (by decide)
  · exact hne '\'' (by decide)
  · exact hne '[' (by decide)
  · exact hne '{' (by decide)
  · exact fun more => hne 't' (by decide) _
  · exact fun more => hne 'f' (by decide) _

/-! ## Values -/

/-- The values that are strings, truth values, numbers from zero below `2 ^ 63`, or arrays of such
values, arrays in arrays no deeper than `depth`. -/
inductive Value.Plain : (depth : Nat) → Value → Prop
  | string (depth : Nat) (text : String) : Plain depth (.string text)
  | integer (depth : Nat) {n : Nat} (h : n < 0x8000000000000000) : Plain depth (.integer n)
  | boolean (depth : Nat) (b : Bool) : Plain depth (.boolean b)
  | array {depth : Nat} {items : List Value} (h : ∀ v ∈ items, Plain depth v) :
      Plain (depth + 1) (.array items)

/-- A text reads as a value of some depth, wherever a value may stand.  It does not start as blanks,
comments and line ends do, nor as the end of an array. -/
structure ReadsAs (text : List Char) (depth : Nat) (v : Value) : Prop where
  starts : ∃ c cs, text = c :: cs ∧ c ∉ [' ', '\t', '#', '\n', '\r', ']']
  reads : ∀ fuel nested rest, nested + depth < depthLimit → text.length < fuel → Ends rest →
    Parser.value fuel nested (text ++ rest) = some (v, rest)

/-- Where no blank stands, none is passed over. -/
theorem skipBlanks_start {c : Char} (hspace : c ≠ ' ') (htab : c ≠ '\t') (cs : List Char) :
    skipBlanks (c :: cs) = c :: cs :=
  List.dropWhile_cons_of_neg (by simp [isBlank, hspace, htab])

/-- Where a value starts, no lines are passed over. -/
theorem skipLines_start {c : Char} (hc : c ∉ [' ', '\t', '#', '\n', '\r', ']']) (fuel : Nat)
    (cs : List Char) : skipLines fuel (c :: cs) = c :: cs := by
  simp only [List.mem_cons, List.not_mem_nil, or_false, not_or] at hc
  obtain ⟨hspace, htab, hcomment, hfeed, hreturn, -⟩ := hc
  have hblanks := skipBlanks_start hspace htab cs
  have hend : lineEnd (c :: cs) = none := by
    rw [lineEnd]
    · exact fun rest heq => hfeed (List.cons.inj heq).1
    · exact fun rest heq => hreturn (List.cons.inj heq).1
  cases fuel with
  | zero => rfl
  | succ fuel =>
    rw [skipLines, hblanks]
    split
    · rename_i heq
      exact absurd (List.cons.inj heq).1 hcomment
    · simp only [hend]

/-- A printed string starts with a quote. -/
theorem string_starts (text : String) :
    ∃ quote cs, (Printer.string text).toList = quote :: cs ∧ (quote = '"' ∨ quote = '\'') := by
  have hhead : (Printer.string text).toList.head? = some '"' ∨
      (Printer.string text).toList.head? = some '\'' := by
    simp only [Printer.string]
    cases Printer.style text.toList with
    | basic => exact .inl (by simp)
    | literal => exact .inr (by simp)
    | multilineBasic => exact .inl (by simp)
    | multilineLiteral => exact .inr (by simp)
  rcases hhead with hhead | hhead
  · obtain ⟨cs, hcs⟩ := List.head?_eq_some_iff.mp hhead
    exact ⟨'"', cs, hcs, .inl rfl⟩
  · obtain ⟨cs, hcs⟩ := List.head?_eq_some_iff.mp hhead
    exact ⟨'\'', cs, hcs, .inr rfl⟩

theorem readsAs_string (depth : Nat) (text : String) :
    ReadsAs (Printer.string text).toList depth (.string text) := by
  obtain ⟨quote, cs, hcs, hquote⟩ := string_starts text
  refine ⟨⟨quote, cs, hcs, ?_⟩, ?_⟩
  · rcases hquote with rfl | rfl <;> decide
  · intro fuel nested rest _ hfuel hrest
    obtain ⟨fuel, rfl⟩ : ∃ f, fuel = f + 1 := ⟨fuel - 1, by omega⟩
    have hread : Scan.string ((Printer.string text).toList ++ rest) = some (text, rest) :=
      string_printed text (hrest.head?_ne (by decide)) (hrest.head?_ne (by decide))
    rw [hcs, List.cons_append] at hread ⊢
    rcases hquote with rfl | rfl
    · rw [Parser.value, hread]
      rfl
    · rw [Parser.value, hread]
      rfl

theorem readsAs_integer (depth : Nat) {n : Nat} (hn : n < 0x8000000000000000) :
    ReadsAs (toString (n : Int)).toList depth (.integer n) := by
  have htext : (toString (n : Int)).toList = Nat.toDigits 10 n := by
    have hstring : toString (n : Int) = toString n := rfl
    rw [hstring, Nat.toString_eq_ofList_toDigits, String.toList_ofList]
  rw [htext]
  refine ⟨?_, ?_⟩
  · obtain ⟨d, ds, hds, hd⟩ := toDigits_eq_cons n
    refine ⟨d, ds, hds, ?_⟩
    intro hmem
    simp only [List.mem_cons, List.not_mem_nil, or_false] at hmem
    rcases hmem with rfl | rfl | rfl | rfl | rfl | rfl <;> exact absurd hd (by decide)
  · intro fuel nested rest _ hfuel hrest
    obtain ⟨fuel, rfl⟩ : ∃ f, fuel = f + 1 := ⟨fuel - 1, by omega⟩
    exact value_toDigits hn hrest fuel nested

theorem readsAs_boolean (depth : Nat) (b : Bool) :
    ReadsAs (if b then "true" else "false").toList depth (.boolean b) := by
  cases b with
  | true =>
    refine ⟨⟨'t', ['r', 'u', 'e'], rfl, by decide⟩, ?_⟩
    intro fuel nested rest _ hfuel _
    obtain ⟨fuel, rfl⟩ : ∃ f, fuel = f + 1 := ⟨fuel - 1, by omega⟩
    rfl
  | false =>
    refine ⟨⟨'f', ['a', 'l', 's', 'e'], rfl, by decide⟩, ?_⟩
    intro fuel nested rest _ hfuel _
    obtain ⟨fuel, rfl⟩ : ∃ f, fuel = f + 1 := ⟨fuel - 1, by omega⟩
    rfl

/-- An item of an array is read, and then what follows it. -/
theorem items_item {text : List Char} {depth : Nat} {v : Value} (h : ReadsAs text depth v)
    {fuel nested : Nat} (hroom : nested + depth < depthLimit) (hfuel : text.length < fuel)
    (seen : List Value) {cs rest : List Char} (hskip : skipLines fuel cs = text ++ rest)
    (hrest : Ends rest) :
    Parser.items (fuel + 1) nested seen cs =
      match skipLines fuel rest with
      | ',' :: rest => Parser.items fuel nested (v :: seen) rest
      | ']' :: rest => some (.array (v :: seen).reverse, rest)
      | _ => none := by
  obtain ⟨c, more, hcs, hc⟩ := h.starts
  have hread := h.reads fuel nested rest hroom hfuel hrest
  rw [Parser.items, hskip]
  rw [hcs, List.cons_append] at hread ⊢
  split
  · rename_i heq
    exact absurd (List.cons.inj heq).1 (fun heq => hc (by simp [heq]))
  · rw [hread]
    rfl

/-- An item on a line of its own is read, up to its comma. -/
theorem items_line {text : List Char} {depth : Nat} {v : Value} (h : ReadsAs text depth v)
    {fuel nested : Nat} (hroom : nested + depth < depthLimit) (hfuel : text.length < fuel)
    (seen : List Value) (rest : List Char) :
    Parser.items (fuel + 1) nested seen
        ('\n' :: ' ' :: ' ' :: ' ' :: ' ' :: (text ++ ',' :: rest))
      = Parser.items fuel nested (v :: seen) rest := by
  obtain ⟨c, cs, hcs, hc⟩ := h.starts
  have hskip : skipLines fuel ('\n' :: ' ' :: ' ' :: ' ' :: ' ' :: (text ++ ',' :: rest))
      = text ++ ',' :: rest := by
    obtain ⟨fuel, rfl⟩ : ∃ f, fuel = f + 2 := ⟨fuel - 2, by rw [hcs] at hfuel; simp at hfuel; omega⟩
    rw [hcs, List.cons_append]
    exact skipLines_start hc (fuel + 1) (cs ++ ',' :: rest)
  have hcomma : skipLines fuel (',' :: rest) = ',' :: rest :=
    skipLines_start (by decide) fuel rest
  rw [items_item h hroom hfuel seen hskip ⟨',', rest, rfl, .inr (.inl rfl)⟩, hcomma]
  rfl

/-- Where an array ends, no lines are passed over. -/
theorem skipLines_close (fuel : Nat) (rest : List Char) :
    skipLines fuel (']' :: rest) = ']' :: rest := by
  cases fuel with
  | zero => rfl
  | succ fuel => rfl

/-- The end of an array on a line of its own is read. -/
theorem items_close (fuel nested : Nat) (seen : List Value) (rest : List Char) :
    Parser.items (fuel + 2) nested seen ('\n' :: ']' :: rest)
      = some (.array seen.reverse, rest) := by
  have hskip : skipLines (fuel + 1) ('\n' :: ']' :: rest) = ']' :: rest :=
    skipLines_close fuel rest
  rw [Parser.items, hskip]
  rfl

/-- The items of an array are read, each from its line. -/
theorem items_lines {depth : Nat} : ∀ (vs : List Value),
    (∀ v ∈ vs, ∃ text, Printer.value v = some text ∧ ReadsAs text.toList depth v) →
    ∃ text, Printer.itemLines vs = some text ∧
      ∀ fuel nested seen rest, nested + depth < depthLimit → text.toList.length + 1 < fuel →
        Parser.items fuel nested seen ('\n' :: (text.toList ++ ']' :: rest))
          = some (.array (seen.reverse ++ vs), rest)
  | [], _ => by
    refine ⟨"", by rw [Printer.itemLines], ?_⟩
    intro fuel nested seen rest _ hfuel
    obtain ⟨fuel, rfl⟩ : ∃ f, fuel = f + 2 := ⟨fuel - 2, by omega⟩
    rw [List.append_nil]
    exact items_close fuel nested seen rest
  | v :: vs, h => by
    obtain ⟨text, htext, hreads⟩ := h v List.mem_cons_self
    obtain ⟨more, hmore, hitems⟩ := items_lines vs fun w hw => h w (List.mem_cons_of_mem v hw)
    refine ⟨"    " ++ text ++ ",\n" ++ more, by
      simp [Printer.itemLines, Printer.itemLine, htext, hmore], ?_⟩
    intro fuel nested seen rest hroom hfuel
    have hlength : text.toList.length + more.toList.length + 7 < fuel := by
      simp at hfuel ⊢
      omega
    obtain ⟨fuel, rfl⟩ : ∃ f, fuel = f + 1 := ⟨fuel - 1, by omega⟩
    have hlist : '\n' :: (("    " ++ text ++ ",\n" ++ more).toList ++ ']' :: rest)
        = '\n' :: ' ' :: ' ' :: ' ' :: ' ' ::
            (text.toList ++ ',' :: '\n' :: (more.toList ++ ']' :: rest)) := by simp
    rw [hlist, items_line hreads hroom (by omega),
      hitems fuel nested (v :: seen) rest hroom (by omega)]
    simp

/-- An array of several items is printed as the lines of its items. -/
theorem value_items (v w : Value) (vs : List Value) :
    Printer.value (.array (v :: w :: vs))
      = (Printer.itemLines (v :: w :: vs)).map fun text => "[\n" ++ text ++ "]" := by
  simp only [Printer.value, Printer.itemLines]
  cases Printer.itemLine v <;> cases Printer.itemLine w <;> cases Printer.itemLines vs <;>
    simp [String.append_assoc]

/-- An array opens one level of nesting, and its items are read within it. -/
theorem value_array {fuel nested depth : Nat} (hroom : nested + (depth + 1) < depthLimit)
    (rest : List Char) :
    Parser.value (fuel + 1) nested ('[' :: rest) = Parser.items fuel (nested + 1) [] rest := by
  rw [Parser.value, if_neg (by omega)]

/-- An array is printed, and what is printed reads as the array, if this holds of its items. -/
theorem array_printed {depth : Nat} : ∀ vs : List Value,
    (∀ v ∈ vs, ∃ text, Printer.value v = some text ∧ ReadsAs text.toList depth v) →
    ∃ text, Printer.value (.array vs) = some text ∧ ReadsAs text.toList (depth + 1) (.array vs)
  | [], _ => by
    refine ⟨"[]", by rw [Printer.value], ⟨⟨'[', [']'], rfl, by decide⟩, ?_⟩⟩
    intro fuel nested rest hroom hfuel _
    obtain ⟨fuel, rfl⟩ : ∃ f, fuel = f + 2 := ⟨fuel - 2, by simp at hfuel; omega⟩
    refine (value_array hroom (']' :: rest)).trans ?_
    rw [Parser.items, skipLines_close]
    rfl
  | [v], h => by
    obtain ⟨text, htext, hreads⟩ := h v List.mem_cons_self
    refine ⟨"[" ++ text ++ "]", by simp [Printer.value, htext],
      ⟨⟨'[', text.toList ++ [']'], by simp, by decide⟩, ?_⟩⟩
    intro fuel nested rest hroom hfuel _
    obtain ⟨fuel, rfl⟩ : ∃ f, fuel = f + 2 := ⟨fuel - 2, by simp at hfuel; omega⟩
    have hlist : ("[" ++ text ++ "]").toList ++ rest = '[' :: (text.toList ++ ']' :: rest) := by
      simp
    have hlength : text.toList.length < fuel := by
      simp at hfuel ⊢
      omega
    have hskip : skipLines fuel (text.toList ++ ']' :: rest) = text.toList ++ ']' :: rest := by
      obtain ⟨c, cs, hcs, hc⟩ := hreads.starts
      rw [hcs]
      exact skipLines_start hc fuel (cs ++ ']' :: rest)
    rw [hlist, value_array hroom,
      items_item hreads (by omega) hlength [] hskip ⟨']', rest, rfl, .inr (.inr rfl)⟩,
      skipLines_close]
    rfl
  | v :: w :: vs, h => by
    obtain ⟨text, htext, hitems⟩ := items_lines (v :: w :: vs) h
    have hprinted : Printer.value (.array (v :: w :: vs)) = some ("[\n" ++ text ++ "]") := by
      rw [value_items, htext, Option.map_some]
    refine ⟨"[\n" ++ text ++ "]", hprinted,
      ⟨⟨'[', '\n' :: (text.toList ++ [']']), by simp, by decide⟩, ?_⟩⟩
    intro fuel nested rest hroom hfuel _
    obtain ⟨fuel, rfl⟩ : ∃ f, fuel = f + 1 := ⟨fuel - 1, by omega⟩
    have hlength : text.toList.length + 1 < fuel := by
      simp at hfuel ⊢
      omega
    have hlist : ("[\n" ++ text ++ "]").toList ++ rest
        = '[' :: '\n' :: (text.toList ++ ']' :: rest) := by simp
    rw [hlist, value_array hroom, hitems fuel (nested + 1) [] rest (by omega) hlength]
    rfl

/-- A plain value is printed, and what is printed reads as the value. -/
theorem value_printed {depth : Nat} {v : Value} (h : v.Plain depth) :
    ∃ text, Printer.value v = some text ∧ ReadsAs text.toList depth v := by
  induction h with
  | string depth text => exact ⟨_, by rw [Printer.value], readsAs_string depth text⟩
  | @integer depth n hn =>
    exact ⟨_, by simp [Printer.value, inRange_natural hn], readsAs_integer depth hn⟩
  | boolean depth b => exact ⟨_, by rw [Printer.value], readsAs_boolean depth b⟩
  | @array depth items h ih => exact array_printed items ih

/-! ## Keys -/

/-- A name that is written as a key without quotes. -/
def Bare (name : String) : Prop :=
  name.toList.isEmpty = false ∧ name.toList.all isBare = true

instance (name : String) : Decidable (Bare name) :=
  inferInstanceAs (Decidable (name.toList.isEmpty = false ∧ name.toList.all isBare = true))

theorem Bare.isBare {name : String} (h : Bare name) : ∀ c ∈ name.toList, isBare c = true :=
  List.all_eq_true.mp h.2

theorem Bare.key_eq {name : String} (h : Bare name) : Printer.key name = name := by
  have hempty : name.isEmpty = false := by
    rw [Bool.eq_false_iff]
    intro hempty
    exact absurd h.1 (by rw [String.isEmpty_iff.mp hempty]; decide)
  simp [Printer.key, hempty, h.2]

/-- A bare name starts with a character that means nothing else where a key may stand. -/
theorem Bare.exists_cons {name : String} (h : Bare name) :
    ∃ c cs, name.toList = c :: cs ∧
      c ∉ [' ', '\t', '#', '\n', '\r', ']', '[', '"', '\'', '.', '\uFEFF'] := by
  have hne : name.toList ≠ [] := List.isEmpty_eq_false_iff.mp h.1
  obtain ⟨c, cs, hcs⟩ := List.exists_cons_of_ne_nil hne
  have hc := h.isBare c (by simp [hcs])
  refine ⟨c, cs, hcs, ?_⟩
  intro hmem
  simp only [List.mem_cons, List.not_mem_nil, or_false] at hmem
  rcases hmem with rfl | rfl | rfl | rfl | rfl | rfl | rfl | rfl | rfl | rfl | rfl <;>
    exact absurd hc (by decide)

/-- Where a key starts, no blanks are passed over. -/
theorem Bare.skipBlanks {name : String} (h : Bare name) (rest : List Char) :
    Scan.skipBlanks (name.toList ++ rest) = name.toList ++ rest := by
  obtain ⟨c, cs, hcs, hc⟩ := h.exists_cons
  simp only [List.mem_cons, List.not_mem_nil, or_false, not_or] at hc
  rw [hcs]
  exact skipBlanks_start hc.1 hc.2.1 (cs ++ rest)

/-- A bare name is read back as one part of a key. -/
theorem simpleKey_bare {name : String} (h : Bare name) {c : Char} (hc : isBare c = false)
    (rest : List Char) : simpleKey (name.toList ++ c :: rest) = some (name, c :: rest) := by
  have hstop : ¬ isBare c = true := by simp [hc]
  have htake : (name.toList ++ c :: rest).takeWhile isBare = name.toList := by
    rw [List.takeWhile_append_of_pos h.isBare, List.takeWhile_cons_of_neg hstop, List.append_nil]
  have hdrop : (name.toList ++ c :: rest).dropWhile isBare = c :: rest := by
    rw [List.dropWhile_append_of_pos h.isBare, List.dropWhile_cons_of_neg hstop]
  obtain ⟨d, ds, hds, hd⟩ := h.exists_cons
  have hname : String.ofList (d :: ds) = name := by rw [← hds, String.ofList_toList]
  rw [hds, List.cons_append] at htake hdrop ⊢
  rw [simpleKey, htake, hdrop]
  · simp only [hname]
  · exact fun more heq => hd (by simp [(List.cons.inj heq).1])
  · exact fun more heq => hd (by simp [(List.cons.inj heq).1])

/-- The parts of a key are read back, up to what follows the key: a blank or a bracket. -/
theorem keyParts_bare {c : Char} {rest : List Char} (hc : isBare c = false)
    (hdot : ∀ more, skipBlanks (c :: rest) ≠ '.' :: more) :
    ∀ (parts : List String) (fuel : Nat), parts ≠ [] → (∀ part ∈ parts, Bare part) →
      parts.length ≤ fuel →
      keyParts fuel ((".".intercalate parts).toList ++ c :: rest)
        = some (parts, skipBlanks (c :: rest))
  | [], _, hne, _, _ => absurd rfl hne
  | [part], fuel, _, hparts, hfuel => by
    obtain ⟨fuel, rfl⟩ : ∃ f, fuel = f + 1 := ⟨fuel - 1, by simp at hfuel; omega⟩
    have hpart := hparts part List.mem_cons_self
    rw [String.intercalate_singleton, keyParts, hpart.skipBlanks, simpleKey_bare hpart hc,
      Option.bind_eq_bind, Option.bind_some]
    dsimp only
    split
    · rename_i heq
      exact absurd heq (hdot _)
    · rfl
  | part :: next :: parts, fuel, _, hparts, hfuel => by
    obtain ⟨fuel, rfl⟩ : ∃ f, fuel = f + 1 := ⟨fuel - 1, by simp at hfuel; omega⟩
    have hpart := hparts part List.mem_cons_self
    have hmore := keyParts_bare hc hdot (next :: parts) fuel (by simp)
      (fun p hp => hparts p (List.mem_cons_of_mem part hp)) (by simpa using hfuel)
    have hlist : (".".intercalate (part :: next :: parts)).toList ++ c :: rest
        = part.toList ++ '.' :: ((".".intercalate (next :: parts)).toList ++ c :: rest) := by
      rw [String.intercalate_cons_cons]
      simp
    have hskip : ∀ cs, skipBlanks ('.' :: cs) = '.' :: cs := fun _ => rfl
    rw [hlist, keyParts, hpart.skipBlanks, simpleKey_bare hpart (by decide)]
    simp only [hskip, hmore, Option.bind_eq_bind, Option.bind_some]

/-- No text of several parts is shorter than their number. -/
theorem length_le_intercalate : ∀ parts : List String, (∀ part ∈ parts, Bare part) →
    parts.length ≤ (".".intercalate parts).toList.length
  | [], _ => Nat.zero_le _
  | [part], hparts => by
    obtain ⟨c, cs, hcs, -⟩ := (hparts part List.mem_cons_self).exists_cons
    rw [String.intercalate_singleton, hcs]
    simp
  | part :: next :: parts, hparts => by
    have hmore := length_le_intercalate (next :: parts)
      fun p hp => hparts p (List.mem_cons_of_mem part hp)
    rw [String.intercalate_cons_cons]
    simp at hmore ⊢
    omega

/-- A key is read back as its path and its last part. -/
theorem key_bare (path : List String) (last : String) {c : Char} {rest : List Char}
    (hc : isBare c = false) (hdot : ∀ more, skipBlanks (c :: rest) ≠ '.' :: more)
    (hparts : ∀ part ∈ path ++ [last], Bare part) (hdepth : path.length + 1 < depthLimit) :
    Scan.key ((".".intercalate (path ++ [last])).toList ++ c :: rest)
      = some ((path, last), skipBlanks (c :: rest)) := by
  have hfuel : (path ++ [last]).length
      ≤ ((".".intercalate (path ++ [last])).toList ++ c :: rest).length + 1 := by
    have := length_le_intercalate (path ++ [last]) hparts
    simp only [List.length_append] at this ⊢
    omega
  have hread := keyParts_bare hc hdot (path ++ [last]) _ (by simp) hparts hfuel
  have hshort : ¬ depthLimit ≤ (path ++ [last]).length := by
    simp
    omega
  rw [Scan.key, hread, Option.bind_eq_bind, Option.bind_some]
  dsimp only
  rw [if_neg hshort, List.getLast?_concat, List.dropLast_concat]
  rfl

/-! ## Statements -/

/-- A text says some statements, given enough fuel. -/
def Says (cs : List Char) (ss : List Statement) : Prop :=
  ∀ fuel, cs.length < fuel → Parser.statements fuel cs = some ss

theorem says_nil : Says [] [] := by
  intro fuel hfuel
  obtain ⟨fuel, rfl⟩ : ∃ f, fuel = f + 1 := ⟨fuel - 1, by omega⟩
  rfl

/-- A blank line says nothing. -/
theorem says_blank_iff (cs : List Char) (ss : List Statement) :
    Says ('\n' :: cs) ss ↔ Says cs ss := by
  have hstep : ∀ fuel, Parser.statements (fuel + 1) ('\n' :: cs) = Parser.statements fuel cs :=
    fun fuel => rfl
  constructor
  · intro h fuel hfuel
    rw [← hstep fuel]
    exact h (fuel + 1) (by simpa using hfuel)
  · intro h fuel hfuel
    obtain ⟨fuel, rfl⟩ : ∃ f, fuel = f + 1 := ⟨fuel - 1, by omega⟩
    rw [hstep fuel]
    exact h fuel (by simpa using hfuel)

/-- A line that reads as a statement says it. -/
theorem says_cons {c : Char} (hc : c ∉ [' ', '\t', '#', '\n', '\r']) {line cs : List Char}
    {s : Statement} {ss : List Statement}
    (hline : Parser.statement (c :: (line ++ cs)) = some (s, cs)) (h : Says cs ss) :
    Says (c :: (line ++ cs)) (s :: ss) := by
  intro fuel hfuel
  obtain ⟨fuel, rfl⟩ : ∃ f, fuel = f + 1 := ⟨fuel - 1, by omega⟩
  have hmore : Parser.statements fuel cs = some ss := by
    refine h fuel ?_
    simp at hfuel
    omega
  simp only [List.mem_cons, List.not_mem_nil, or_false, not_or] at hc
  have hskip := skipBlanks_start hc.1 hc.2.1 (line ++ cs)
  rw [Parser.statements, hskip]
  split
  · rename_i heq
    exact absurd heq (by simp)
  · rename_i heq
    exact absurd (List.cons.inj heq).1 hc.2.2.1
  · rename_i heq
    exact absurd (List.cons.inj heq).1 hc.2.2.2.1
  · rename_i heq
    exact absurd (List.cons.inj heq).1 hc.2.2.2.2
  · rw [hline, Option.bind_eq_bind, Option.bind_some]
    dsimp only
    rw [hmore]
    rfl

/-- A line with a key and a value is read back. -/
theorem says_entry {name : String} (hname : Bare name) {depth : Nat} (hdepth : depth < depthLimit)
    {text : String} {v : Value} (hv : ReadsAs text.toList depth v) {cs : List Char}
    {ss : List Statement} (h : Says cs ss) :
    Says ((Printer.key name ++ " = " ++ text ++ "\n").toList ++ cs) (.entry [] name v :: ss) := by
  obtain ⟨c, more, hmore, hc⟩ := hname.exists_cons
  obtain ⟨d, ds, hds, hd⟩ := hv.starts
  have hlist : (Printer.key name ++ " = " ++ text ++ "\n").toList ++ cs
      = c :: ((more ++ ' ' :: '=' :: ' ' :: (text.toList ++ ['\n'])) ++ cs) := by
    simp [hname.key_eq, hmore]
  have hkey : Scan.key (c :: ((more ++ ' ' :: '=' :: ' ' :: (text.toList ++ ['\n'])) ++ cs))
      = some (([], name), '=' :: ' ' :: (text.toList ++ '\n' :: cs)) := by
    have hdot : ∀ after, skipBlanks (' ' :: '=' :: ' ' :: (text.toList ++ '\n' :: cs))
        ≠ '.' :: after := fun after => by simp [skipBlanks, isBlank]
    have hread := key_bare [] name (by decide) hdot (by simpa using hname) (by decide)
    rw [List.nil_append, String.intercalate_singleton, hmore] at hread
    simpa [skipBlanks, isBlank] using hread
  have hskip : skipBlanks (' ' :: (text.toList ++ '\n' :: cs)) = text.toList ++ '\n' :: cs := by
    simp only [List.mem_cons, List.not_mem_nil, or_false, not_or] at hd
    rw [hds]
    exact skipBlanks_start hd.1 hd.2.1 (ds ++ '\n' :: cs)
  have hvalue := hv.reads ((' ' :: (text.toList ++ '\n' :: cs)).length + 1) 0 ('\n' :: cs)
    (by omega) (by simp; omega) ⟨'\n', cs, rfl, .inl rfl⟩
  have hnot : ∀ rest, c :: ((more ++ ' ' :: '=' :: ' ' :: (text.toList ++ ['\n'])) ++ cs)
      ≠ '[' :: rest := fun rest heq => hc (by simp [(List.cons.inj heq).1])
  have hend : endOfLine ('\n' :: cs) = some cs := rfl
  have hequals : exactly '=' ('=' :: ' ' :: (text.toList ++ '\n' :: cs))
      = some (' ' :: (text.toList ++ '\n' :: cs)) := rfl
  rw [hlist]
  -- no first character of a name starts a blank line or a comment
  refine says_cons (fun hmem => hc ?_) ?_ h
  · exact List.mem_append_left [']', '[', '"', '\'', '.', '\uFEFF'] hmem
  · rw [Parser.statement]
    · simp only [hkey, hequals, hskip, hvalue, hend, Option.bind_eq_bind, Option.bind_some]
    · exact fun rest heq => hnot _ heq
    · exact fun rest heq => hnot _ heq

/-- The header of a table is read back. -/
theorem says_header {path : List String} {last : String}
    (hparts : ∀ part ∈ path ++ [last], Bare part) (hdepth : path.length + 1 < depthLimit)
    {cs : List Char} {ss : List Statement} (h : Says cs ss) :
    Says (("[" ++ ".".intercalate ((path ++ [last]).map Printer.key) ++ "]\n").toList ++ cs)
      (.table path last :: ss) := by
  have hkeys : (path ++ [last]).map Printer.key = path ++ [last] :=
    (List.map_congr_left fun part hpart => (hparts part hpart).key_eq).trans (List.map_id _)
  have hlist : ("[" ++ ".".intercalate (path ++ [last]) ++ "]\n").toList ++ cs
      = '[' :: (((".".intercalate (path ++ [last])).toList ++ [']', '\n']) ++ cs) := by
    simp
  have hkey : Scan.key (((".".intercalate (path ++ [last])).toList ++ [']', '\n']) ++ cs)
      = some ((path, last), ']' :: '\n' :: cs) := by
    have hdot : ∀ after, skipBlanks (']' :: '\n' :: cs) ≠ '.' :: after :=
      fun after => by simp [skipBlanks, isBlank]
    have hread := key_bare path last (by decide) hdot hparts hdepth
    simpa [skipBlanks, isBlank] using hread
  -- a second bracket would open an array of tables, but it starts no key
  have hnot : ∀ rest, ((".".intercalate (path ++ [last])).toList ++ [']', '\n']) ++ cs
      ≠ '[' :: rest := by
    intro rest heq
    have hnone : Scan.key ('[' :: rest) = none := rfl
    rw [heq, hnone] at hkey
    exact absurd hkey (by simp)
  have hend : endOfLine ('\n' :: cs) = some cs := rfl
  have hbracket : exactly ']' (']' :: '\n' :: cs) = some ('\n' :: cs) := rfl
  rw [hkeys, hlist]
  refine says_cons (by decide) ?_ h
  rw [Parser.statement]
  · simp only [hkey, hbracket, hend, Option.bind_eq_bind, Option.bind_some]
  · exact hnot

/-- A text that says something starts with no byte order mark. -/
theorem Says.head?_ne {cs : List Char} {ss : List Statement} (h : Says cs ss) :
    cs.head? ≠ some '\uFEFF' := by
  intro hhead
  obtain ⟨more, rfl⟩ := List.head?_eq_some_iff.mp hhead
  have hnone : ∀ fuel, Parser.statements (fuel + 1) ('\uFEFF' :: more) = none := fun _ => rfl
  have hsome := h (more.length + 2) (by simp)
  rw [hnone] at hsome
  exact absurd hsome (by simp)

end CanDfu.Toml
