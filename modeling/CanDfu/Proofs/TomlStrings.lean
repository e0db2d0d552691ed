/-
  CanDfu.Proofs.TomlStrings

  Every text that is written as a TOML string is read back as it was, in whichever of the four
  styles the printer chooses.  What follows the string is left to be read, and must not start with
  a quote.  With escapes, each character is read back from its own spelling; only quotes depend on
  their neighbours, since three in a row would end a string of several lines.
-/
import CanDfu.Toml.Parser
import CanDfu.Toml.Printer
import Mathlib.Data.List.TakeWhile

namespace CanDfu.Toml

open Scan Printer

/-! ## Characters and their spellings -/

/-- A character that needs no escape is printable or a line feed. -/
theorem isPrintable_of_needsEscape {c : Char} (h : needsEscape c = false) (hc : c ≠ '\n') :
    isPrintable c = true := by
  simp only [needsEscape, Bool.or_eq_false_iff, Bool.and_eq_false_iff, decide_eq_false_iff_not,
    not_not] at h
  obtain ⟨h, hlast⟩ := h
  simp only [isPrintable, Bool.or_eq_true, Bool.and_eq_true, decide_eq_true_eq]
  by_cases htab : c = '\t'
  · exact .inl htab
  · refine .inr ⟨?_, hlast⟩
    rcases h with (h | h) | h
    · omega
    · exact absurd h htab
    · exact absurd h hc

/-- The hexadecimal digits are read back. -/
theorem hexValue_digit {n : Nat} (h : n < 16) : hexValue (Hex.digit n) = some n := by
  have hall : ∀ n : Fin 16, hexValue (Hex.digit n) = some n.val := by decide
  exact hall ⟨n, h⟩

/-- A number of one byte has four digits, the first two of them zeros. -/
theorem padded_four {n : Nat} (h : n < 256) :
    (Hex.padded 4 n).toList = ['0', '0', Hex.digit (n / 16), Hex.digit (n % 16)] := by
  have hzero : Hex.digits 0 = [] := by rw [Hex.digits, if_pos rfl]
  have hshort : ∀ m < 16, m ≠ 0 → Hex.digits m = [Hex.digit m] := by
    intro m hm hne
    rw [Hex.digits, if_neg hne, Nat.div_eq_of_lt hm, hzero, Nat.mod_eq_of_lt hm, List.nil_append]
  have hdigit : Hex.digit 0 = '0' := rfl
  by_cases hn : n = 0
  · subst hn
    simp [Hex.padded, hzero, hdigit, List.replicate]
  · by_cases hlow : n < 16
    · simp [Hex.padded, hshort n hlow hn, Nat.div_eq_of_lt hlow, Nat.mod_eq_of_lt hlow, hdigit,
        List.replicate]
    · have hhigh : Hex.digits n = [Hex.digit (n / 16), Hex.digit (n % 16)] := by
        rw [Hex.digits, if_neg hn, hshort (n / 16) (by omega) (by omega)]
        rfl
      simp [Hex.padded, hhigh, List.replicate]

/-- A character of one byte is read back from the four digits of its number. -/
theorem unicode_padded {c : Char} (h : c.toNat < 256) (rest : List Char) :
    unicode 4 ((Hex.padded 4 c.toNat).toList ++ rest) = some (c, rest) := by
  have hzero : hexValue '0' = some 0 := by decide
  have hdigits : hexDigits 4 0 ((Hex.padded 4 c.toNat).toList ++ rest) = some (c.toNat, rest) := by
    rw [padded_four h]
    simp only [List.cons_append, List.nil_append, hexDigits, hzero,
      hexValue_digit (n := c.toNat / 16) (by omega), hexValue_digit (n := c.toNat % 16) (by omega),
      Option.bind_eq_bind, Option.bind_some, Option.some.injEq, Prod.mk.injEq, and_true]
    omega
  have hvalid : c.toNat.isValidChar := c.valid
  rw [unicode, hdigits, Option.bind_eq_bind, Option.bind_some]
  exact dif_pos hvalid

/-- How one character other than a quote may stand in a string with escapes: for itself, or as an
escape, which does not start as a line end would. -/
inductive Spelled (multiline : Bool) (c : Char) : List Char → Prop
  | plain (shown : isPrintable c = true ∨ (multiline = true ∧ c = '\n')) (quote : c ≠ '"')
      (backslash : c ≠ '\\') : Spelled multiline c [c]
  | escape {written : List Char} (reads : ∀ rest, Scan.escape (written ++ rest) = some (c, rest))
      (here : ∀ rest, lineEnd (skipBlanks (written ++ rest)) = none) :
      Spelled multiline c ('\\' :: written)

/-- A quote may be spelled as an escape. -/
theorem spelled_quote (multiline : Bool) : Spelled multiline '"' ['\\', '"'] :=
  .escape (fun _ => rfl) (fun _ => rfl)

/-- Each character other than a quote is written as one of its spellings. -/
theorem escaped_cons (multiline : Bool) {c : Char} (hc : c ≠ '"') :
    ∃ written, Spelled multiline c written ∧
      ∀ quotes cs, escaped multiline quotes (c :: cs) = written ++ escaped multiline 0 cs := by
  simp only [escaped, if_neg hc]
  split
  · exact ⟨['\\', 'b'], .escape (fun _ => rfl) (fun _ => rfl), fun _ _ => rfl⟩
  · exact ⟨['\\', 't'], .escape (fun _ => rfl) (fun _ => rfl), fun _ _ => rfl⟩
  · by_cases hm : multiline = true
    · rw [if_pos hm]
      exact ⟨['\n'], .plain (.inr ⟨hm, rfl⟩) (by decide) (by decide), fun _ _ => rfl⟩
    · rw [if_neg hm]
      exact ⟨['\\', 'n'], .escape (fun _ => rfl) (fun _ => rfl), fun _ _ => rfl⟩
  · exact ⟨['\\', 'f'], .escape (fun _ => rfl) (fun _ => rfl), fun _ _ => rfl⟩
  · exact ⟨['\\', 'r'], .escape (fun _ => rfl) (fun _ => rfl), fun _ _ => rfl⟩
  · exact ⟨['\\', '\\'], .escape (fun _ => rfl) (fun _ => rfl), fun _ _ => rfl⟩
  · rename_i hnewline _ _ hbackslash
    by_cases hescape : needsEscape c = true
    · have hsmall : c.toNat < 256 := by
        simp only [needsEscape, Bool.or_eq_true, Bool.and_eq_true, decide_eq_true_eq] at hescape
        omega
      rw [if_pos hescape]
      exact ⟨'\\' :: 'u' :: (Hex.padded 4 c.toNat).toList,
        .escape (fun rest => unicode_padded hsmall rest) (fun _ => rfl), fun _ _ => rfl⟩
    · have hshown := isPrintable_of_needsEscape (Bool.eq_false_iff.mpr hescape) hnewline
      rw [if_neg hescape]
      exact ⟨[c], .plain (.inl hshown) hc hbackslash, fun _ _ => rfl⟩

/-- No spelling starts with a quote. -/
theorem Spelled.exists_cons {multiline : Bool} {c : Char} {written : List Char}
    (h : Spelled multiline c written) : ∃ d more, written = d :: more ∧ d ≠ '"' := by
  cases h with
  | plain shown quote backslash => exact ⟨c, [], rfl, quote⟩
  | escape reads here => exact ⟨'\\', _, rfl, by decide⟩

/-- On one line, quotes too are written as a spelling. -/
theorem escaped_false_cons (c : Char) (cs : List Char) :
    ∃ written, Spelled false c written ∧
      escaped false 0 (c :: cs) = written ++ escaped false 0 cs := by
  by_cases hc : c = '"'
  · exact ⟨['\\', '"'], hc ▸ spelled_quote false, by simp [escaped, hc]⟩
  · obtain ⟨written, hspelled, hwritten⟩ := escaped_cons false hc
    exact ⟨written, hspelled, hwritten 0 cs⟩

/-- A printable character starts no line end. -/
theorem lineEnd_cons_eq_none {c : Char} (h : isPrintable c = true) (rest : List Char) :
    lineEnd (c :: rest) = none := by
  have hfeed : c ≠ '\n' := by
    rintro rfl
    exact absurd h (by decide)
  have hreturn : c ≠ '\r' := by
    rintro rfl
    exact absurd h (by decide)
  unfold lineEnd
  split
  · rename_i heq
    exact absurd (List.cons.inj heq).1 hfeed
  · rename_i heq
    exact absurd (List.cons.inj heq).1 hreturn
  · rfl

/-! ## Strings of one line -/

/-- One spelled character of a one-line string with escapes is read. -/
theorem basicRest_spelled {c : Char} {written : List Char} (h : Spelled false c written)
    (fuel : Nat) (seen rest : List Char) :
    basicRest (fuel + 1) seen (written ++ rest) = basicRest fuel (c :: seen) rest := by
  cases h with
  | plain shown quote backslash =>
    have hc : isPrintable c = true := by simpa using shown
    simp only [List.singleton_append, basicRest]
    rw [if_pos hc]
  | escape reads here =>
    simp only [List.cons_append, basicRest, reads, Option.bind_eq_bind, Option.bind_some]

/-- A one-line string with escapes is read back. -/
theorem basicRest_escaped (rest : List Char) :
    ∀ (cs : List Char) (fuel : Nat) (seen : List Char), (escaped false 0 cs).length < fuel →
      basicRest fuel seen (escaped false 0 cs ++ '"' :: rest)
        = some (String.ofList (seen.reverse ++ cs), rest) := by
  intro cs
  induction cs with
  | nil =>
    intro fuel seen hfuel
    obtain ⟨fuel, rfl⟩ : ∃ f, fuel = f + 1 := ⟨fuel - 1, by omega⟩
    simp [escaped, basicRest]
  | cons c cs ih =>
    intro fuel seen hfuel
    obtain ⟨written, hspelled, hwritten⟩ := escaped_false_cons c cs
    obtain ⟨d, more, rfl, -⟩ := hspelled.exists_cons
    rw [hwritten, List.length_append, List.length_cons] at hfuel
    obtain ⟨fuel, rfl⟩ : ∃ f, fuel = f + 1 := ⟨fuel - 1, by omega⟩
    rw [hwritten, List.append_assoc, basicRest_spelled hspelled, ih fuel (c :: seen) (by omega)]
    simp

/-- A one-line string without escapes is read back, if it has no quote and is all printable. -/
theorem literalRest_plain {cs : List Char} (h : ∀ c ∈ cs, isPrintable c = true ∧ c ≠ '\'')
    (rest : List Char) :
    literalRest (cs ++ '\'' :: rest) = some (String.ofList cs, rest) := by
  have hpass : ∀ c ∈ cs, (isPrintable c && decide (c ≠ '\'')) = true := by
    intro c hc
    simpa using h c hc
  have hdrop : (cs ++ '\'' :: rest).dropWhile (fun c => isPrintable c && c ≠ '\'')
      = '\'' :: rest := by
    rw [List.dropWhile_append_of_pos hpass, List.dropWhile_cons_of_neg (by decide)]
  have htake : (cs ++ '\'' :: rest).takeWhile (fun c => isPrintable c && c ≠ '\'') = cs := by
    rw [List.takeWhile_append_of_pos hpass, List.takeWhile_cons_of_neg (by decide),
      List.append_nil]
  simp only [literalRest, hdrop, htake]

/-! ## Runs of quotes -/

/-- The length of the run of a character at the start of a text. -/
def leading (c : Char) (cs : List Char) : Nat := (cs.takeWhile (· = c)).length

theorem leading_cons_self (c : Char) (cs : List Char) : leading c (c :: cs) = leading c cs + 1 := by
  simp [leading]

theorem leading_cons_of_ne {c d : Char} (h : d ≠ c) (cs : List Char) : leading c (d :: cs) = 0 := by
  simp [leading, h]

theorem leading_replicate_append (c : Char) (k : Nat) (rest : List Char) :
    leading c (List.replicate k c ++ rest) = k + leading c rest := by
  induction k with
  | zero => simp
  | succ k ih =>
    rw [List.replicate_succ, List.cons_append, leading_cons_self, ih]
    omega

theorem leading_eq_zero {c : Char} {cs : List Char} (h : cs.head? ≠ some c) : leading c cs = 0 := by
  cases cs with
  | nil => rfl
  | cons d cs => exact leading_cons_of_ne (fun hd => h (by rw [List.head?_cons, hd])) cs

/-- A run that ends inside a text is the same whatever follows the text. -/
theorem all_or_leading_append (c : Char) (cs rest : List Char) :
    cs = List.replicate (leading c cs) c ∨ leading c (cs ++ rest) = leading c cs := by
  induction cs with
  | nil => exact .inl rfl
  | cons d cs ih =>
    by_cases hd : d = c
    · subst hd
      rw [leading_cons_self, List.cons_append, leading_cons_self]
      rcases ih with ih | ih
      · refine .inl ?_
        rw [List.replicate_succ, ← ih]
      · exact .inr (by rw [ih])
    · exact .inr (by rw [List.cons_append, leading_cons_of_ne hd, leading_cons_of_ne hd])

/-- Fewer than three quotes end no string. -/
theorem closing_eq_none {quote : Char} {cs : List Char} (h : leading quote cs < 3) :
    closing quote cs = none := by
  simp only [closing]
  exact if_pos h

/-- Three quotes end a string, and up to two before them belong to it. -/
theorem closing_eq_some {quote : Char} {k : Nat} (hk : k ≤ 2) {rest : List Char}
    (hrest : rest.head? ≠ some quote) :
    closing quote (List.replicate k quote ++ quote :: quote :: quote :: rest)
      = some (List.replicate k quote, rest) := by
  have hrun : leading quote (List.replicate k quote ++ quote :: quote :: quote :: rest)
      = k + 3 := by
    simp only [leading_replicate_append, leading_cons_self, leading_eq_zero hrest]
  have hdrop : (List.replicate k quote ++ quote :: quote :: quote :: rest).drop (k + 3) = rest := by
    have hlength : k + 3 = (List.replicate k quote ++ [quote, quote, quote]).length := by simp
    rw [hlength, show List.replicate k quote ++ quote :: quote :: quote :: rest
      = (List.replicate k quote ++ [quote, quote, quote]) ++ rest by simp]
    exact List.drop_left
  have hkept : min (k + 3 - 3) 2 = k := by omega
  simp only [leading] at hrun
  simp only [closing, hrun, hkept, hdrop]
  exact if_neg (by omega)

/-- The state of the longest run never gets smaller, and counts the run at the start of what is
left. -/
theorem longestRun_fold (c : Char) (cs : List Char) (longest run : Nat) (h : run ≤ longest) :
    let final := cs.foldl (fun (longest, run) d =>
      let run := if d = c then run + 1 else 0
      (max longest run, run)) (longest, run)
    longest ≤ final.1 ∧ run + leading c cs ≤ final.1 ∧ final.2 ≤ final.1 := by
  induction cs generalizing longest run with
  | nil => exact ⟨Nat.le_refl _, h, h⟩
  | cons d cs ih =>
    by_cases hd : d = c
    · subst hd
      obtain ⟨h₁, h₂, h₃⟩ := ih (max longest (run + 1)) (run + 1) (Nat.le_max_right _ _)
      simp only [List.foldl_cons, if_true, leading_cons_self] at h₁ h₂ h₃ ⊢
      exact ⟨by omega, by omega, h₃⟩
    · obtain ⟨h₁, h₂, h₃⟩ := ih (max longest 0) 0 (Nat.zero_le _)
      simp only [List.foldl_cons, if_neg hd, leading_cons_of_ne hd] at h₁ h₂ h₃ ⊢
      exact ⟨by omega, by omega, h₃⟩

/-- No run of a text is longer than its longest. -/
theorem leading_le_longestRun (c : Char) (before cs : List Char) :
    leading c cs ≤ longestRun c (before ++ cs) := by
  have hbefore := longestRun_fold c before 0 0 (Nat.le_refl _)
  have hcs := longestRun_fold c cs _ _ hbefore.2.2
  simp only [longestRun, List.foldl_append]
  exact Nat.le_trans (Nat.le_add_left _ _) hcs.2.1

/-- A character whose longest run is empty does not occur. -/
theorem ne_of_longestRun_eq_zero {c : Char} {cs : List Char} (h : longestRun c cs = 0) :
    ∀ d ∈ cs, d ≠ c := by
  rintro d hd rfl
  obtain ⟨before, after, rfl⟩ := List.append_of_mem hd
  have hrun := leading_le_longestRun d before (d :: after)
  rw [leading_cons_self, h] at hrun
  omega

/-! ## Strings of several lines -/

/-- The end of a string of several lines is read. -/
theorem multilineRest_closing {quote : Char} (escapes : Bool) {k : Nat} (hk : k ≤ 2)
    {rest : List Char} (hrest : rest.head? ≠ some quote) (fuel : Nat) (seen : List Char) :
    multilineRest quote escapes (fuel + 1) seen
        (List.replicate k quote ++ quote :: quote :: quote :: rest)
      = some (String.ofList (seen.reverse ++ List.replicate k quote), rest) := by
  simp only [multilineRest, closing_eq_some hk hrest, List.reverse_append, List.reverse_replicate]

/-- A character that stands for itself is read, where the string does not end. -/
theorem multilineRest_plain {quote c : Char} {escapes : Bool}
    (shown : isPrintable c = true ∨ c = '\n') (hplain : escapes = true → c ≠ '\\')
    {rest : List Char} (hopen : leading quote (c :: rest) < 3) (fuel : Nat) (seen : List Char) :
    multilineRest quote escapes (fuel + 1) seen (c :: rest)
      = multilineRest quote escapes fuel (c :: seen) rest := by
  rw [multilineRest, closing_eq_none hopen]
  by_cases hfeed : c = '\n'
  · subst hfeed
    rfl
  · have hc : isPrintable c = true := shown.resolve_right hfeed
    have hescape : ¬ ((escapes && decide (c = '\\')) = true) := by
      simpa using hplain
    simp only [lineEnd_cons_eq_none hc]
    rw [if_neg hescape, if_pos hc]

/-- One spelled character of a string of several lines is read. -/
theorem multilineRest_spelled {c : Char} {written : List Char} (h : Spelled true c written)
    (fuel : Nat) (seen rest : List Char) :
    multilineRest '"' true (fuel + 1) seen (written ++ rest)
      = multilineRest '"' true fuel (c :: seen) rest := by
  cases h with
  | plain shown quote backslash =>
    refine multilineRest_plain (by simpa using shown) (fun _ => backslash) ?_ fuel seen
    rw [leading_cons_of_ne quote]
    omega
  | @escape written reads here =>
    have hopen : leading '"' ('\\' :: (written ++ rest)) < 3 := by
      rw [leading_cons_of_ne (by decide)]
      omega
    have hend : lineEnd ('\\' :: (written ++ rest)) = none :=
      lineEnd_cons_eq_none (by decide) _
    rw [List.cons_append, multilineRest, closing_eq_none hopen, hend]
    simp only [decide_true, Bool.and_self, if_true, here, reads, Option.bind_eq_bind,
      Option.bind_some]

/-- After `n` quotes that stand for themselves, what is written starts with at most `2 - n` more,
unless it is nothing but these. -/
theorem escaped_run (cs : List Char) : ∀ n ≤ 2,
    (∃ k, n + k ≤ 2 ∧ cs = List.replicate k '"' ∧ escaped true n cs = List.replicate k '"') ∨
      ∀ rest, n + leading '"' (escaped true n cs ++ rest) ≤ 2 := by
  induction cs with
  | nil =>
    intro n hn
    exact .inl ⟨0, hn, rfl, rfl⟩
  | cons c cs ih =>
    intro n hn
    by_cases hc : c = '"'
    · subst hc
      by_cases hlast : n + 1 < 3
      · have hwritten : escaped true n ('"' :: cs) = '"' :: escaped true (n + 1) cs := by
          simp [escaped, hlast]
        rcases ih (n + 1) (by omega) with ⟨k, hk, hcs, htail⟩ | hrun
        · refine .inl ⟨k + 1, by omega, by rw [hcs, List.replicate_succ], ?_⟩
          rw [hwritten, htail, List.replicate_succ]
        · refine .inr fun rest => ?_
          rw [hwritten, List.cons_append, leading_cons_self]
          have := hrun rest
          omega
      · refine .inr fun rest => ?_
        have hwritten : escaped true n ('"' :: cs) = '\\' :: '"' :: escaped true 0 cs := by
          simp [escaped, hlast]
        rw [hwritten, List.cons_append, leading_cons_of_ne (by decide)]
        omega
    · refine .inr fun rest => ?_
      obtain ⟨written, hspelled, hwritten⟩ := escaped_cons true hc
      obtain ⟨d, more, rfl, hd⟩ := hspelled.exists_cons
      rw [hwritten, List.cons_append, List.cons_append, leading_cons_of_ne hd]
      omega

/-- A string of several lines with escapes is read back. -/
theorem multilineRest_escaped {rest : List Char} (hrest : rest.head? ≠ some '"') :
    ∀ (cs : List Char) (n fuel : Nat) (seen : List Char), n ≤ 2 →
      (escaped true n cs).length < fuel →
      multilineRest '"' true fuel seen (escaped true n cs ++ '"' :: '"' :: '"' :: rest)
        = some (String.ofList (seen.reverse ++ cs), rest) := by
  intro cs
  induction cs with
  | nil =>
    intro n fuel seen hn hfuel
    obtain ⟨fuel, rfl⟩ : ∃ f, fuel = f + 1 := ⟨fuel - 1, by omega⟩
    exact multilineRest_closing true (Nat.zero_le 2) hrest fuel seen
  | cons c cs ih =>
    intro n fuel seen hn hfuel
    obtain ⟨fuel, rfl⟩ : ∃ f, fuel = f + 1 := ⟨fuel - 1, by omega⟩
    rcases escaped_run (c :: cs) n hn with ⟨k, hk, hcs, hwritten⟩ | hrun
    · rw [hwritten, hcs]
      exact multilineRest_closing true (by omega) hrest fuel seen
    -- up to two quotes stand for themselves; a third is escaped, and the count starts again
    by_cases hquote : c = '"' ∧ n + 1 < 3
    · obtain ⟨rfl, hlast⟩ := hquote
      have hwritten : escaped true n ('"' :: cs) = '"' :: escaped true (n + 1) cs := by
        simp [escaped, hlast]
      have hopen := hrun ('"' :: '"' :: '"' :: rest)
      rw [hwritten, List.length_cons] at hfuel
      rw [hwritten, List.cons_append] at hopen ⊢
      rw [multilineRest_plain (.inl (by decide)) (fun _ => by decide) (by omega) fuel seen,
        ih (n + 1) fuel ('"' :: seen) (by omega) (by omega)]
      simp
    · obtain ⟨written, hspelled, hwritten⟩ : ∃ written, Spelled true c written ∧
          escaped true n (c :: cs) = written ++ escaped true 0 cs := by
        by_cases hc : c = '"'
        · refine ⟨['\\', '"'], hc ▸ spelled_quote true, ?_⟩
          have hlast : ¬ n + 1 < 3 := fun hlast => hquote ⟨hc, hlast⟩
          simp [escaped, hc, hlast]
        · obtain ⟨written, hspelled, hwritten⟩ := escaped_cons true hc
          exact ⟨written, hspelled, hwritten n cs⟩
      obtain ⟨d, more, rfl, -⟩ := hspelled.exists_cons
      rw [hwritten, List.length_append, List.length_cons] at hfuel
      rw [hwritten, List.append_assoc, multilineRest_spelled hspelled,
        ih 0 fuel (c :: seen) (by omega) (by omega)]
      simp

/-- A string of several lines without escapes is read back, if no run of quotes in it is longer
than two. -/
theorem multilineRest_literal {rest : List Char} (hrest : rest.head? ≠ some '\'') :
    ∀ (cs before : List Char) (fuel : Nat) (seen : List Char),
      (∀ c ∈ cs, isPrintable c = true ∨ c = '\n') → longestRun '\'' (before ++ cs) ≤ 2 →
      cs.length < fuel →
      multilineRest '\'' false fuel seen (cs ++ '\'' :: '\'' :: '\'' :: rest)
        = some (String.ofList (seen.reverse ++ cs), rest) := by
  intro cs
  induction cs with
  | nil =>
    intro before fuel seen _ _ hfuel
    obtain ⟨fuel, rfl⟩ : ∃ f, fuel = f + 1 := ⟨fuel - 1, by omega⟩
    exact multilineRest_closing false (Nat.zero_le 2) hrest fuel seen
  | cons c cs ih =>
    intro before fuel seen hshown hruns hfuel
    obtain ⟨fuel, rfl⟩ : ∃ f, fuel = f + 1 := ⟨fuel - 1, by omega⟩
    have hrun : leading '\'' (c :: cs) ≤ 2 :=
      Nat.le_trans (leading_le_longestRun '\'' before (c :: cs)) hruns
    -- quotes up to the end run into those that end the string, and are read with them
    rcases all_or_leading_append '\'' (c :: cs) ('\'' :: '\'' :: '\'' :: rest) with hall | hopen
    · rw [hall]
      exact multilineRest_closing false hrun hrest fuel seen
    · rw [List.cons_append] at hopen ⊢
      rw [multilineRest_plain (hshown c List.mem_cons_self) (fun h => absurd h (by decide))
          (by omega) fuel seen,
        ih (before ++ [c]) fuel (c :: seen) (fun d hd => hshown d (List.mem_cons_of_mem c hd))
          (by simpa using hruns) (by simpa using hfuel)]
      simp

/-! ## The choice of a style -/

/-- In a text that needs no escapes, every character is printable or a line feed. -/
theorem shown_of_any_needsEscape {cs : List Char} (h : cs.any needsEscape = false) :
    ∀ c ∈ cs, isPrintable c = true ∨ c = '\n' := by
  intro c hc
  have hescape : needsEscape c = false := by simpa using List.any_eq_false.mp h c hc
  by_cases hfeed : c = '\n'
  · exact .inr hfeed
  · exact .inl (isPrintable_of_needsEscape hescape hfeed)

/-- A one-line string without escapes is chosen only for printable texts without its quote. -/
theorem of_style_literal {cs : List Char} (h : style cs = .literal) :
    ∀ c ∈ cs, isPrintable c = true ∧ c ≠ '\'' := by
  obtain ⟨⟨hescape, hquote⟩, hfeed⟩ : (cs.any needsEscape = false ∧ longestRun '\'' cs = 0) ∧
      cs.contains '\n' = false := by
    simp only [style] at h
    split_ifs at h with _ hliteral
    simpa using hliteral
  intro c hc
  have hne : c ≠ '\n' := by
    rintro rfl
    rw [List.contains_iff_mem.mpr hc] at hfeed
    exact absurd hfeed (by decide)
  exact ⟨(shown_of_any_needsEscape hescape c hc).resolve_right hne,
    ne_of_longestRun_eq_zero hquote c hc⟩

/-- A string of several lines without escapes is chosen only where no run of its quotes is longer
than two and nothing needs an escape. -/
theorem of_style_multilineLiteral {cs : List Char} (h : style cs = .multilineLiteral) :
    (∀ c ∈ cs, isPrintable c = true ∨ c = '\n') ∧ longestRun '\'' cs ≤ 2 := by
  obtain ⟨hescape, hquotes⟩ : cs.any needsEscape = false ∧ longestRun '\'' cs ≤ 2 := by
    simp only [style] at h
    split_ifs at h with _ _ _ hliteral
    simpa using hliteral
  exact ⟨shown_of_any_needsEscape hescape, hquotes⟩

/-! ## Whole strings -/

/-- After the opening quotes of a string of several lines, a line feed is passed over where the
string has lines, and nothing where it has none. -/
theorem skipLineEnd_opening {cs written : List Char} (h : '\n' ∉ cs → lineEnd written = none) :
    skipLineEnd ((if cs.contains '\n' then "\n" else "").toList ++ written) = written := by
  by_cases hfeed : '\n' ∈ cs
  · rw [if_pos (List.contains_iff_mem.mpr hfeed)]
    rfl
  · rw [if_neg (fun hc => hfeed (List.contains_iff_mem.mp hc))]
    have hwritten : skipLineEnd written = written := by
      simp only [skipLineEnd, h hfeed, Option.getD_none]
    exact hwritten

/-- Without line feeds of its own, a text without escapes starts no line end. -/
theorem lineEnd_literal {cs : List Char} (hshown : ∀ c ∈ cs, isPrintable c = true ∨ c = '\n')
    (hfeed : '\n' ∉ cs) (rest : List Char) : lineEnd (cs ++ '\'' :: rest) = none := by
  cases cs with
  | nil => rfl
  | cons c cs =>
    have hc := hshown c List.mem_cons_self
    have hne : c ≠ '\n' := fun heq => hfeed (heq ▸ List.mem_cons_self)
    exact lineEnd_cons_eq_none (hc.resolve_right hne) _

/-- Without line feeds of its own, a text with escapes starts no line end. -/
theorem lineEnd_escaped {cs : List Char} (hfeed : '\n' ∉ cs) (rest : List Char) :
    lineEnd (escaped true 0 cs ++ '"' :: rest) = none := by
  cases cs with
  | nil => rfl
  | cons c cs =>
    by_cases hc : c = '"'
    · subst hc
      rfl
    · have hne : c ≠ '\n' := fun heq => hfeed (heq ▸ List.mem_cons_self)
      obtain ⟨written, hspelled, hwritten⟩ := escaped_cons true hc
      rw [hwritten]
      cases hspelled with
      | plain shown quote backslash =>
        exact lineEnd_cons_eq_none (shown.resolve_right fun h => hne h.2) _
      | escape reads here => exact lineEnd_cons_eq_none (by decide) _

/-- A string is read back, whatever follows that starts with no quote. -/
theorem string_printed (text : String) {rest : List Char} (hdouble : rest.head? ≠ some '"')
    (hsingle : rest.head? ≠ some '\'') :
    Scan.string ((Printer.string text).toList ++ rest) = some (text, rest) := by
  have htext : String.ofList text.toList = text := String.ofList_toList
  simp only [Printer.string]
  cases hstyle : style text.toList with
  | basic =>
    -- three quotes in a row would open a string of several lines
    have hopen : ∀ more, escaped false 0 text.toList ++ '"' :: rest ≠ '"' :: '"' :: more := by
      intro more heq
      cases hcs : text.toList with
      | nil =>
        rw [hcs] at heq
        exact hdouble (by rw [(List.cons.inj heq).2]; rfl)
      | cons c cs =>
        obtain ⟨written, hspelled, hwritten⟩ := escaped_false_cons c cs
        obtain ⟨d, written, rfl, hd⟩ := hspelled.exists_cons
        rw [hcs, hwritten] at heq
        exact hd (List.cons.inj heq).1
    have hread := basicRest_escaped rest text.toList
      ((escaped false 0 text.toList ++ '"' :: rest).length + 1) []
      (by rw [List.length_append]; omega)
    have hlist : ("\"" ++ String.ofList (escaped false 0 text.toList) ++ "\"").toList ++ rest
        = '"' :: (escaped false 0 text.toList ++ '"' :: rest) := by simp
    rw [hlist, Scan.string, hread]
    · simp [htext]
    · exact hopen
  | literal =>
    have hplain := of_style_literal hstyle
    have hopen : ∀ more, text.toList ++ '\'' :: rest ≠ '\'' :: '\'' :: more := by
      intro more heq
      cases hcs : text.toList with
      | nil =>
        rw [hcs] at heq
        exact hsingle (by rw [(List.cons.inj heq).2]; rfl)
      | cons c cs =>
        rw [hcs] at heq hplain
        exact (hplain c List.mem_cons_self).2 (List.cons.inj heq).1
    have hlist : ("'" ++ text ++ "'").toList ++ rest = '\'' :: (text.toList ++ '\'' :: rest) := by
      simp
    rw [hlist, Scan.string, literalRest_plain hplain, htext]
    exact hopen
  | multilineBasic =>
    have hlist : ("\"\"\"" ++ (if text.toList.contains '\n' then "\n" else "")
          ++ String.ofList (escaped true 0 text.toList) ++ "\"\"\"").toList ++ rest
        = '"' :: '"' :: '"' :: ((if text.toList.contains '\n' then "\n" else "").toList
            ++ (escaped true 0 text.toList ++ '"' :: '"' :: '"' :: rest)) := by simp
    rw [hlist, Scan.string, skipLineEnd_opening fun h => lineEnd_escaped h _,
      multilineRest_escaped hdouble text.toList 0 _ [] (by omega) (by simp; omega)]
    simp [htext]
  | multilineLiteral =>
    obtain ⟨hshown, hruns⟩ := of_style_multilineLiteral hstyle
    have hlist : ("'''" ++ (if text.toList.contains '\n' then "\n" else "") ++ text
          ++ "'''").toList ++ rest
        = '\'' :: '\'' :: '\'' :: ((if text.toList.contains '\n' then "\n" else "").toList
            ++ (text.toList ++ '\'' :: '\'' :: '\'' :: rest)) := by simp
    rw [hlist, Scan.string, skipLineEnd_opening fun h => lineEnd_literal hshown h _,
      multilineRest_literal hsingle text.toList [] _ [] hshown hruns (by simp; omega)]
    simp [htext]

end CanDfu.Toml
