/-
  CanDfu.Proofs.FlashHistory

  The simulated bootloader against the history of what was done to it.

    given      a load gives the words it covers their values, an erase that is carried out gives
               every word the erased one
    committed  a commit clears in the words it covers the bits that the staged words do not have
    neither    nothing happens to flash

  So a word is what it was last given, without the bits that were cleared since:

    * `Flash.word_load`, `Flash.word_program_placed` : what a load and a commit leave at an address.
    * `Simulated.flash_answer_cases` : what a command can do to flash.
    * `Simulated.answer_eq_error_iff` : which commands are refused.
    * `Simulated.word_run_of_ungiven` : a word to which operations give no value only loses bits.
    * `Simulated.sound_run` : no word is stored as erased, or off a word boundary.
    * `Simulated.acts_as_flash` : all of it, for any operations on a blank bootloader.
-/
import CanDfu.Proofs.SimulatedRun
import Mathlib.Data.List.Induction

namespace CanDfu

/-! ## Words of a byte string -/

namespace LittleEndian

/-- A fragment that is no whole word has one to three bytes. -/
theorem length_fragment {short : List UInt8} (nonempty : short ≠ [])
    (few : ∀ b0 b1 b2 b3 rest, short ≠ b0 :: b1 :: b2 :: b3 :: rest) :
    0 < short.length ∧ short.length < 4 := by
  match short, nonempty, few with
  | [], nonempty, _ => exact absurd rfl nonempty
  | [_], _, _ | [_, _], _, _ | [_, _, _], _, _ => simp
  | b0 :: b1 :: b2 :: b3 :: rest, _, few => exact absurd rfl (few b0 b1 b2 b3 rest)

/-- A byte string has the words that begin inside it. -/
theorem getElem?_words (fill : UInt8) (bs : List UInt8) (k : Nat) :
    (words fill bs)[k]?
      = if 4 * k < bs.length then some (firstWord fill (bs.drop (4 * k))) else none := by
  fun_induction words fill bs generalizing k with
  | case1 => rfl
  | case2 b0 b1 b2 b3 rest ih =>
    cases k with
    | zero => rfl
    | succ k =>
      have inside : 4 * (k + 1) < (b0 :: b1 :: b2 :: b3 :: rest).length ↔ 4 * k < rest.length := by
        simp only [List.length_cons]
        omega
      have dropped : (b0 :: b1 :: b2 :: b3 :: rest).drop (4 * (k + 1)) = rest.drop (4 * k) := rfl
      rw [List.getElem?_cons_succ, ih, dropped]
      exact (if_congr inside rfl rfl).symm
  | case3 short nonempty few =>
    have length := length_fragment nonempty few
    cases k with
    | zero =>
      rw [if_pos (by omega)]
      rfl
    | succ k =>
      rw [if_neg (by omega)]
      rfl

theorem length_words (fill : UInt8) (bs : List UInt8) :
    (words fill bs).length = (bs.length + 3) / 4 := by
  fun_induction words fill bs with
  | case1 => rfl
  | case2 b0 b1 b2 b3 rest ih =>
    simp only [List.length_cons, ih]
    omega
  | case3 short nonempty few =>
    have length := length_fragment nonempty few
    rw [List.length_singleton]
    omega

end LittleEndian

/-! ## Words that lie one behind the other -/

/-- A word lies at `x` when `x` is as far behind the base as the words before it reach. -/
theorem add_ofNat_mul_four_eq_iff {base x : UInt32} {i : Nat} (space : 4 * i < addressSpace) :
    base + UInt32.ofNat i * 4 = x ↔ (x - base).toNat = 4 * i := by
  have hbase := base.toNat_lt
  have hx := x.toNat_lt
  rw [addressSpace] at space
  rw [← UInt32.toNat_inj, UInt32.toNat_add, UInt32.toNat_mul, UInt32.toNat_ofNat', UInt32.toNat_sub]
  show (base.toNat + i % 2 ^ 32 * 4 % 2 ^ 32) % 2 ^ 32 = x.toNat ↔ _
  omega

namespace Chunk

variable {c : Chunk} {i : Nat}

theorem wordAddress_eq_iff {x : UInt32} (h : i < 4) :
    c.wordAddress i = x ↔ (x - c.address).toNat = 4 * i :=
  add_ofNat_mul_four_eq_iff (by rw [addressSpace]; omega)

theorem mem_placed (c : Chunk) (h : i < 4) : (c.wordAddress i, c.words.toList[i]) ∈ c.placed := by
  obtain rfl | rfl | rfl | rfl : i = 0 ∨ i = 1 ∨ i = 2 ∨ i = 3 := by omega
  all_goals simp [placed, Quad.toList]

/-- The four words of a chunk lie apart, even where its addresses wrap. -/
theorem pairwise_ne_placed (c : Chunk) : c.placed.Pairwise fun p q => p.1 ≠ q.1 := by
  have apart {i j : Nat} (hi : i < 4) (hj : j < 4) (differ : i ≠ j) :
      c.wordAddress i ≠ c.wordAddress j := by
    intro same
    have first := (wordAddress_eq_iff hi).mp same
    have second : (c.wordAddress j - c.address).toNat = 4 * j := (wordAddress_eq_iff hj).mp rfl
    omega
  simp [placed, apart]

end Chunk

namespace Flash

variable {f : Flash} {base x : UInt32}

/-- Words that are stored from a base on are read as far behind it as they are in their list. -/
theorem word_foldl_store (f : Flash) (base x : UInt32) (ws : List UInt32)
    (space : 4 * ws.length ≤ addressSpace) :
    (ws.zipIdx.foldl (fun f (value, i) => f.store (base + UInt32.ofNat i * 4) value) f).word x
      = if (x - base).toNat % 4 = 0 then (ws[(x - base).toNat / 4]?).getD (f.word x)
        else f.word x := by
  -- from the end, since the word that was stored last is the one that is read at its place
  induction ws using List.reverseRecOn with
  | nil => simp
  | append_singleton ws w ih =>
    rw [List.length_append, List.length_singleton] at space
    specialize ih (by omega)
    rw [List.zipIdx_append, List.foldl_append]
    simp only [List.zipIdx_singleton, List.foldl_cons, List.foldl_nil, word_store, Nat.zero_add, ih,
      add_ofNat_mul_four_eq_iff (show 4 * ws.length < addressSpace by omega)]
    by_cases aligned : (x - base).toNat % 4 = 0
    · rw [if_pos aligned, if_pos aligned]
      by_cases last : (x - base).toNat = 4 * ws.length
      · have index : (x - base).toNat / 4 = ws.length := by omega
        rw [if_pos last, index, List.getElem?_concat_length]
        rfl
      · rw [if_neg last]
        -- an index other than the last is one of the words before it, or of none
        have index : (x - base).toNat / 4 ≠ ws.length := by omega
        by_cases before : (x - base).toNat / 4 < ws.length
        · rw [List.getElem?_append_left before]
        · rw [List.getElem?_eq_none (by omega), List.getElem?_eq_none (by simp; omega)]
    · rw [if_neg aligned, if_neg aligned, if_neg (by omega)]

/-- What is read at `x` after a load: the word that begins there, or what was there if the load does
not cover it. -/
theorem word_load (f : Flash) (base x : UInt32) {bs : List UInt8}
    (space : bs.length ≤ addressSpace) :
    (f.load base bs).word x
      = if (x - base).toNat % 4 = 0 ∧ (x - base).toNat < bs.length
        then LittleEndian.firstWord erasedByte (bs.drop (x - base).toNat) else f.word x := by
  have words : 4 * (LittleEndian.words erasedByte bs).length ≤ addressSpace := by
    rw [addressSpace] at space ⊢
    rw [LittleEndian.length_words]
    omega
  rw [load, word_foldl_store f base x _ words, LittleEndian.getElem?_words]
  by_cases aligned : (x - base).toNat % 4 = 0
  · have whole : 4 * ((x - base).toNat / 4) = (x - base).toNat := by omega
    rw [if_pos aligned, whole]
    by_cases inside : (x - base).toNat < bs.length
    · rw [if_pos inside, if_pos ⟨aligned, inside⟩]
      rfl
    · rw [if_neg inside, if_neg fun both => inside both.2]
      rfl
  · rw [if_neg aligned, if_neg fun both => aligned both.1]

/-- What is read at `x` after four words are programmed: the one that lies there clears bits. -/
theorem word_program_placed (f : Flash) (base x : UInt32) (q : Quad) :
    (f.program (Chunk.placed ⟨base, q⟩)).word x
      = if (x - base).toNat % 4 = 0
        then ((q.toList[(x - base).toNat / 4]?).toList).foldl (· &&& ·) (f.word x)
        else f.word x := by
  -- one of the four words lies here and the others elsewhere, or all four do
  by_cases covered : (x - base).toNat % 4 = 0 ∧ (x - base).toNat < 16
  · obtain ⟨i, hi, here⟩ : ∃ i < 4, (x - base).toNat = 4 * i :=
      ⟨(x - base).toNat / 4, by omega, by omega⟩
    have index : (x - base).toNat / 4 = i := by omega
    have place : (⟨base, q⟩ : Chunk).wordAddress i = x := (Chunk.wordAddress_eq_iff hi).mpr here
    have among : (x, q.toList[i]) ∈ Chunk.placed ⟨base, q⟩ := by
      rw [← place]
      exact Chunk.mem_placed ⟨base, q⟩ hi
    rw [if_pos covered.1, index, List.getElem?_eq_getElem (show i < q.toList.length from hi)]
    exact word_program_of_mem (Chunk.pairwise_ne_placed ⟨base, q⟩) among
  · have elsewhere : ∀ p ∈ Chunk.placed ⟨base, q⟩, p.1 ≠ x := by
      have off {i : Nat} (hi : i < 4) : (⟨base, q⟩ : Chunk).wordAddress i ≠ x := by
        intro here
        have reached : (x - base).toNat = 4 * i := (Chunk.wordAddress_eq_iff hi).mp here
        omega
      simp [Chunk.placed, off]
    rw [word_program_of_not_mem elsewhere]
    split
    · next aligned =>
      have beyond : q.toList.length ≤ (x - base).toNat / 4 := by
        rw [Quad.length_toList]
        omega
      rw [List.getElem?_eq_none beyond]
      rfl
    · rfl

end Flash

/-! ## The map of flash -/

namespace Flash

variable {f g : Flash} {base : UInt32}

theorem Canonical.load (h : f.Canonical) (base : UInt32) (bs : List UInt8) :
    (f.load base bs).Canonical :=
  List.foldlRecOn _ _ h fun _ sofar _ _ => sofar.store _ _

/-- Flash as the operations leave it: no word is stored as erased, and none off a word boundary. -/
structure Sound (f : Flash) : Prop where
  canonical : f.Canonical
  boundary : ∀ a : UInt32, a.toNat % 4 ≠ 0 → f.word a = erasedWord

theorem sound_blank : blank.Sound where
  canonical := canonical_blank
  boundary a _ := word_blank a

/-- Behind a word boundary the word boundaries are whole words away. -/
theorem mod_offset (aligned : base.toNat % 4 = 0) (x : UInt32) :
    (x - base).toNat % 4 = x.toNat % 4 := by
  have hbase := base.toNat_lt
  have hx := x.toNat_lt
  rw [UInt32.toNat_sub]
  omega

theorem Sound.load (h : f.Sound) (aligned : base.toNat % 4 = 0) {bs : List UInt8}
    (space : bs.length ≤ addressSpace) : (f.load base bs).Sound where
  canonical := h.canonical.load base bs
  boundary a off := by
    rw [word_load f base a space, mod_offset aligned, if_neg fun both => off both.1]
    exact h.boundary a off

theorem Sound.program (h : f.Sound) (aligned : base.toNat % 4 = 0) (q : Quad) :
    (f.program (Chunk.placed ⟨base, q⟩)).Sound where
  canonical := h.canonical.program _
  boundary a off := by
    rw [word_program_placed, mod_offset aligned, if_neg off]
    exact h.boundary a off

/-- Sound flash is known from its words on word boundaries. -/
theorem Sound.eq_of_word (hf : f.Sound) (hg : g.Sound)
    (same : ∀ a : UInt32, a.toNat % 4 = 0 → f.word a = g.word a) : f = g := by
  apply hf.canonical.eq_of_word hg.canonical
  intro a
  by_cases aligned : a.toNat % 4 = 0
  · exact same a aligned
  · rw [hf.boundary a aligned, hg.boundary a aligned]

end Flash

namespace Simulated

variable {s : Simulated} {c : Command} {a x v : UInt32} {seed : Option UInt32}

/-! ## What is refused -/

/-- The commands that a bootloader refuses. -/
inductive Refused (s : Simulated) : Command → Prop
  | read {a : UInt32} (unaligned : a.toNat % 4 ≠ 0) : Refused s (.read a)
  | register {index : UInt8} {value : UInt32} (beyond : 4 ≤ index) :
      Refused s (.scratch index value)
  | commitAddress {a : UInt32} {seed : Option UInt32} (unaligned : a.toNat % 4 ≠ 0) :
      Refused s (.commit a seed)
  | commitSeed {a : UInt32} {seed : Option UInt32} (wrong : seed ≠ s.seed) :
      Refused s (.commit a seed)
  | eraseSeed {seed : Option UInt32} (wrong : seed ≠ s.seed) : Refused s (.erase seed)

/-- A last argument that is not the one asked for stops a command. -/
theorem exists_checkSeed_error (wrong : seed ≠ s.seed) (command : String) :
    ∃ e, s.checkSeed command seed = .error e := by
  cases checked : s.checkSeed command seed with
  | error e => exact ⟨e, rfl⟩
  | ok => exact absurd (checkSeed_eq_ok_iff.mp checked) wrong

/-- What is refused is answered by an error and leaves everything as it was. -/
theorem answer_of_refused (refused : s.Refused c) : ∃ e, s.answer c = (.error e, s) := by
  cases refused with
  | @read a unaligned =>
    show ∃ e, s.read a = _
    exact ⟨_, if_pos (mt (Layout.mod_eq_zero_iff a 4).mp unaligned)⟩
  | @register index value beyond =>
    refine ⟨.invalidScratchIndex index, ?_⟩
    show s.stage index value = _
    rw [stage, (s.scratch.set?_eq_none_iff index value).mpr beyond]
  | @commitAddress a seed unaligned =>
    show ∃ e, s.commit a seed = _
    unfold commit
    split
    · next e _ => exact ⟨e, rfl⟩
    · exact ⟨_, if_pos (mt (Layout.mod_eq_zero_iff a 4).mp unaligned)⟩
  | @commitSeed a seed wrong =>
    obtain ⟨e, checked⟩ := exists_checkSeed_error wrong "commit"
    refine ⟨e, ?_⟩
    show s.commit a seed = _
    rw [commit, checked]
  | @eraseSeed seed wrong =>
    obtain ⟨e, checked⟩ := exists_checkSeed_error wrong "erase_all"
    refine ⟨e, ?_⟩
    show s.erase seed = _
    rw [erase, checked]

/-- What is not refused is carried out. -/
theorem answer_of_not_refused (accepted : ¬ s.Refused c) : ∃ reply, (s.answer c).1 = .ok reply := by
  cases c with
  | read a =>
    have aligned : a.toNat % 4 = 0 := Decidable.not_not.mp fun h => accepted (.read h)
    exact ⟨_, congrArg Prod.fst (answer_read aligned s)⟩
  | scratch index value =>
    have there : s.scratch.set? index value ≠ none := fun none =>
      accepted (.register ((s.scratch.set?_eq_none_iff index value).mp none))
    obtain ⟨q, staged⟩ := Option.ne_none_iff_exists'.mp there
    refine ⟨(), ?_⟩
    show (s.stage index value).1 = _
    rw [stage, staged]
  | commit a seed =>
    have aligned : a.toNat % 4 = 0 := Decidable.not_not.mp fun h => accepted (.commitAddress h)
    obtain rfl : seed = s.seed := Decidable.not_not.mp fun h => accepted (.commitSeed h)
    exact ⟨_, congrArg Prod.fst (answer_commit_staged aligned s)⟩
  | erase seed =>
    obtain rfl : seed = s.seed := Decidable.not_not.mp fun h => accepted (.eraseSeed h)
    rw [answer_erase]
    split
    · exact ⟨_, rfl⟩
    · exact ⟨_, rfl⟩
  | reset => exact ⟨(), rfl⟩

/-- Errors are the answers to what is refused. -/
theorem answer_eq_error_iff : (∃ e, (s.answer c).1 = .error e) ↔ s.Refused c := by
  constructor
  · rintro ⟨e, answered⟩
    by_contra accepted
    obtain ⟨reply, carried⟩ := answer_of_not_refused accepted
    rw [carried] at answered
    cases answered
  · intro refused
    obtain ⟨e, answered⟩ := answer_of_refused refused
    exact ⟨e, congrArg Prod.fst answered⟩

/-- An erase blanks flash and says so, or leaves everything as it was. -/
theorem answer_erase_cases (s : Simulated) (seed : Option UInt32) :
    s.answer (.erase seed) = (.ok (0 : UInt8), s.erased) ∨
      (s.answer (.erase seed)).1 ≠ .ok (0 : UInt8) ∧ (s.answer (.erase seed)).2 = s := by
  by_cases right : seed = s.seed
  · subst right
    rw [answer_erase]
    split
    · next failed => exact .inr ⟨fun same => failed (Except.ok.inj same), rfl⟩
    · exact .inl rfl
  · obtain ⟨e, refused⟩ := answer_of_refused (.eraseSeed right)
    rw [refused]
    exact .inr ⟨nofun, rfl⟩

/-! ## Operations -/

/-- What can be done with a simulated bootloader. -/
inductive Operation
  | command (c : Command)
  /-- Flash is replaced behind its back. -/
  | load (address : UInt32) (bytes : List UInt8)
  /-- Erasing is set to end with a status. -/
  | failErase (status : UInt8)
  /-- Commits to an address are set to report a wrong checksum. -/
  | faultChecksum (address : UInt32)

/-- Loads begin on word boundaries and go round the address space at most once. -/
def Operation.Placed : Operation → Prop
  | load address bytes => address.toNat % 4 = 0 ∧ bytes.length ≤ addressSpace
  | command _ | failErase _ | faultChecksum _ => True

/-- The simulated bootloader after an operation. -/
def after (s : Simulated) : Operation → Simulated
  | .command c => (s.answer c).2
  | .load address bytes => s.load address bytes
  | .failErase status => { s with eraseStatus := status }
  | .faultChecksum address => { s with checksumFaults := address :: s.checksumFaults }

/-- The simulated bootloader after operations. -/
def run (s : Simulated) (ops : List Operation) : Simulated := ops.foldl after s

/-- The value an operation gives the word at `x`: what is loaded there, or erased. -/
def given? (s : Simulated) (x : UInt32) : Operation → Option UInt32
  | .load address bytes =>
    if (x - address).toNat < bytes.length
    then some (LittleEndian.firstWord erasedByte (bytes.drop (x - address).toNat)) else none
  | .command (.erase seed) => if (s.erase seed).1 = .ok 0 then some erasedWord else none
  | _ => none

/-- The staged word that an operation commits onto the word at `x`. -/
def committed? (s : Simulated) (x : UInt32) : Operation → Option UInt32
  | .command (.commit address seed) =>
    if (s.commit address seed).1.isOk then s.scratch.toList[(x - address).toNat / 4]? else none
  | _ => none

/-! ## What one operation does to a word -/

variable {o : Operation} {ops : List Operation}

theorem given?_load (s : Simulated) (x address : UInt32) (bytes : List UInt8) :
    s.given? x (.load address bytes)
      = if (x - address).toNat < bytes.length
        then some (LittleEndian.firstWord erasedByte (bytes.drop (x - address).toNat))
        else none :=
  rfl

theorem given?_erase (s : Simulated) (x : UInt32) (seed : Option UInt32) :
    s.given? x (.command (.erase seed))
      = if (s.answer (.erase seed)).1 = .ok (0 : UInt8) then some erasedWord else none :=
  rfl

theorem committed?_commit (s : Simulated) (x a : UInt32) (seed : Option UInt32) :
    s.committed? x (.command (.commit a seed))
      = if (s.answer (.commit a seed)).1.isOk then s.scratch.toList[(x - a).toNat / 4]?
        else none :=
  rfl

/-- A command leaves flash alone, or programs the staged words, or blanks it. -/
theorem flash_answer_cases (s : Simulated) (c : Command) :
    ((s.answer c).2.flash = s.flash ∧
      ∀ x, s.given? x (.command c) = none ∧ s.committed? x (.command c) = none) ∨
    (∃ a : UInt32, a.toNat % 4 = 0 ∧
      (s.answer c).2.flash = s.flash.program (Chunk.placed ⟨a, s.scratch⟩) ∧
      ∀ x, s.given? x (.command c) = none ∧
        s.committed? x (.command c) = s.scratch.toList[(x - a).toNat / 4]?) ∨
    ((s.answer c).2.flash = .blank ∧ ∀ x, s.given? x (.command c) = some erasedWord) := by
  cases c with
  | read a =>
    refine .inl ⟨?_, fun _ => ⟨rfl, rfl⟩⟩
    show (s.read a).2.flash = s.flash
    unfold read
    split <;> rfl
  | scratch index value =>
    refine .inl ⟨?_, fun _ => ⟨rfl, rfl⟩⟩
    show (s.stage index value).2.flash = s.flash
    unfold stage
    split <;> rfl
  | commit a seed =>
    simp only [committed?_commit]
    by_cases refused : s.Refused (.commit a seed)
    · obtain ⟨e, answered⟩ := answer_of_refused refused
      rw [answered]
      exact .inl ⟨rfl, fun _ => ⟨rfl, rfl⟩⟩
    · have boundary : a.toNat % 4 = 0 := Decidable.not_not.mp fun h => refused (.commitAddress h)
      obtain rfl : seed = s.seed := Decidable.not_not.mp fun h => refused (.commitSeed h)
      rw [answer_commit_staged boundary s]
      exact .inr (.inl ⟨a, boundary, rfl, fun _ => ⟨rfl, rfl⟩⟩)
  | erase seed =>
    simp only [given?_erase]
    rcases answer_erase_cases s seed with done | ⟨kept, unchanged⟩
    · rw [done]
      exact .inr (.inr ⟨rfl, fun _ => rfl⟩)
    · rw [unchanged]
      exact .inl ⟨rfl, fun _ => ⟨if_neg kept, rfl⟩⟩
  | reset => exact .inl ⟨rfl, fun _ => ⟨rfl, rfl⟩⟩

/-- An operation that gives a word a value leaves it with that value. -/
theorem word_after_of_given (aligned : x.toNat % 4 = 0) (placed : o.Placed)
    (given : s.given? x o = some v) : (s.after o).flash.word x = v := by
  cases o with
  | command c =>
    show (s.answer c).2.flash.word x = v
    rcases flash_answer_cases s c with ⟨-, none⟩ | ⟨a, -, -, none⟩ | ⟨blank, erased⟩
    · rw [(none x).1] at given
      cases given
    · rw [(none x).1] at given
      cases given
    · rw [erased x] at given
      injection given with given
      rw [blank, ← given]
      exact Flash.word_blank x
  | load address bytes =>
    have offset : (x - address).toNat % 4 = 0 := (Flash.mod_offset placed.1 x).trans aligned
    show (s.flash.load address bytes).word x = v
    rw [given?_load] at given
    split at given
    · next covered =>
      injection given with given
      rw [Flash.word_load _ _ _ placed.2, if_pos ⟨offset, covered⟩, given]
    · cases given
  | failErase | faultChecksum => cases given

/-- An operation that gives a word no value clears in it the bits of what it commits there. -/
theorem word_after_of_not_given (aligned : x.toNat % 4 = 0) (placed : o.Placed)
    (kept : s.given? x o = none) :
    (s.after o).flash.word x = (s.committed? x o).toList.foldl (· &&& ·) (s.flash.word x) := by
  cases o with
  | command c =>
    show (s.answer c).2.flash.word x = _
    rcases flash_answer_cases s c with ⟨same, none⟩ | ⟨a, boundary, programmed, some⟩ | ⟨-, erased⟩
    · rw [same, (none x).2]
      rfl
    · have offset : (x - a).toNat % 4 = 0 := (Flash.mod_offset boundary x).trans aligned
      rw [programmed, (some x).2, Flash.word_program_placed, if_pos offset]
    · rw [erased x] at kept
      cases kept
  | load address bytes =>
    show (s.flash.load address bytes).word x = s.flash.word x
    rw [given?_load] at kept
    split at kept
    · cases kept
    · next elsewhere => rw [Flash.word_load _ _ _ placed.2, if_neg fun both => elsewhere both.2]
  | failErase | faultChecksum => rfl

/-! ## What operations in a row do to a word -/

/-- None of the operations gives the word at `x` a value. -/
def Ungiven (x : UInt32) (s : Simulated) : List Operation → Prop
  | [] => True
  | o :: rest => s.given? x o = none ∧ Ungiven x (s.after o) rest

/-- The words that the operations commit onto the word at `x`, in order. -/
def clearing (x : UInt32) (s : Simulated) : List Operation → List UInt32
  | [] => []
  | o :: rest => (s.committed? x o).toList ++ clearing x (s.after o) rest

/-- A word that is given no value loses the bits that commits clear, and keeps the others. -/
theorem word_run_of_ungiven (aligned : x.toNat % 4 = 0) (placed : ∀ o ∈ ops, o.Placed)
    (ungiven : Ungiven x s ops) :
    (s.run ops).flash.word x = (clearing x s ops).foldl (· &&& ·) (s.flash.word x) := by
  induction ops generalizing s with
  | nil => rfl
  | cons o rest ih =>
    obtain ⟨here, later⟩ := List.forall_mem_cons.mp placed
    rw [clearing, List.foldl_append, ← word_after_of_not_given aligned here ungiven.1]
    exact ih later ungiven.2

/-- The value a word was last given, erased if it never was, and what was committed to it since. -/
inductive WordHistory (x : UInt32) (s : Simulated) : List Operation → UInt32 → List UInt32 → Prop
  | never {ops : List Operation} (none : Ungiven x s ops) :
      WordHistory x s ops erasedWord (clearing x s ops)
  | given (before : List Operation) {after : List Operation} {o : Operation} {v : UInt32}
      (last : (s.run before).given? x o = some v)
      (since : Ungiven x ((s.run before).after o) after) :
      WordHistory x s (before ++ o :: after) v (clearing x ((s.run before).after o) after)

/-- Every word has a history. -/
theorem exists_wordHistory (x : UInt32) (s : Simulated) (ops : List Operation) :
    ∃ v ws, WordHistory x s ops v ws := by
  induction ops generalizing s with
  | nil => exact ⟨erasedWord, [], .never trivial⟩
  | cons o rest ih =>
    obtain ⟨v, ws, history⟩ := ih (s.after o)
    cases history with
    -- nothing later gives the word a value, so it is up to the first operation
    | never none =>
      cases here : s.given? x o with
      | none => exact ⟨_, _, .never ⟨here, none⟩⟩
      | some v => exact ⟨v, _, .given [] here none⟩
    | given before last since =>
      exact ⟨v, _, .given (o :: before) last since⟩

/-- A word of flash that was blank is its last value without the bits that were cleared since. -/
theorem WordHistory.word_eq {ws : List UInt32} (history : WordHistory x s ops v ws)
    (aligned : x.toNat % 4 = 0) (placed : ∀ o ∈ ops, o.Placed)
    (blank : s.flash.word x = erasedWord) :
    (s.run ops).flash.word x = ws.foldl (· &&& ·) v := by
  cases history with
  | never none =>
    rw [word_run_of_ungiven aligned placed none, blank]
  | @given before after o _ last since =>
    obtain ⟨-, behind⟩ := List.forall_mem_append.mp placed
    obtain ⟨here, later⟩ := List.forall_mem_cons.mp behind
    -- whatever was before the last operation that gave a value does not show
    have split : s.run (before ++ o :: after) = ((s.run before).after o).run after :=
      List.foldl_append
    rw [split, word_run_of_ungiven aligned later since, word_after_of_given aligned here last]

/-! ## What operations in a row do to flash -/

/-- Every operation keeps flash sound. -/
theorem sound_after (sound : s.flash.Sound) (placed : o.Placed) : (s.after o).flash.Sound := by
  cases o with
  | command c =>
    show (s.answer c).2.flash.Sound
    rcases flash_answer_cases s c with ⟨same, -⟩ | ⟨a, boundary, programmed, -⟩ | ⟨blank, -⟩
    · rw [same]
      exact sound
    · rw [programmed]
      exact sound.program boundary s.scratch
    · rw [blank]
      exact Flash.sound_blank
  | load address bytes => exact sound.load placed.1 placed.2
  | failErase | faultChecksum => exact sound

theorem sound_run (sound : s.flash.Sound) (placed : ∀ o ∈ ops, o.Placed) :
    (s.run ops).flash.Sound := by
  induction ops generalizing s with
  | nil => exact sound
  | cons o rest ih =>
    obtain ⟨here, later⟩ := List.forall_mem_cons.mp placed
    exact ih (sound_after sound here) later

/-- Flash that reads alike on both devices is the same map. -/
theorem flash_eq_of_read {t : Simulated} (sound : s.flash.Sound) (sound' : t.flash.Sound)
    (alike : ∀ a, (t.read a).1 = (s.read a).1) : t.flash = s.flash := by
  refine sound'.eq_of_word sound fun a aligned => ?_
  have read (s : Simulated) : (s.read a).1 = .ok (s.flash.word a) :=
    congrArg Prod.fst (answer_read aligned s)
  have same := alike a
  rw [read, read] at same
  exact Except.ok.inj same

/-- What operations on a blank bootloader come to, on the bootloader `s` they leave. -/
structure ActsAsFlash (seed : Option UInt32) (ops : List Operation) (s : Simulated) : Prop where
  canonical : ∀ a : UInt32, s.flash.words[a]? ≠ some erasedWord
  /-- No other bootloader reads the same and holds another map. -/
  determined : ∀ (seed' : Option UInt32) (ops' : List Operation), (∀ o ∈ ops', o.Placed) →
    (∀ a, ((run { seed := seed' } ops').read a).1 = (s.read a).1) →
    (run { seed := seed' } ops').flash = s.flash
  has_history : ∀ x, ∃ v ws, WordHistory x { seed } ops v ws
  /-- A word reads as its history has it. -/
  read_eq : ∀ x : UInt32, x.toNat % 4 = 0 → ∀ v ws, WordHistory x { seed } ops v ws →
    (s.read x).1 = .ok (ws.foldl (· &&& ·) v)
  error_iff : ∀ c, (∃ e, (s.answer c).1 = .error e) ↔ s.Refused c
  unchanged_of_error : ∀ c e, (s.answer c).1 = .error e → (s.answer c).2 = s
  unchanged_of_status : ∀ (last : Option UInt32) (status : UInt8),
    (s.answer (.erase last)).1 = .ok status → status ≠ 0 → (s.answer (.erase last)).2 = s

/-- The simulated bootloader behaves as flash: what it holds is what it was given without what was
cleared since, and what it refuses or fails to erase leaves it as it was. -/
theorem acts_as_flash (seed : Option UInt32) (placed : ∀ o ∈ ops, o.Placed) :
    ActsAsFlash seed ops (run { seed } ops) where
  canonical := (sound_run Flash.sound_blank placed).canonical
  determined _ _ placed' alike :=
    flash_eq_of_read (sound_run Flash.sound_blank placed) (sound_run Flash.sound_blank placed')
      alike
  has_history x := exists_wordHistory x _ ops
  read_eq x aligned v ws history := by
    rw [← history.word_eq aligned placed (Flash.word_blank x)]
    exact congrArg Prod.fst (answer_read aligned _)
  error_iff _ := answer_eq_error_iff
  unchanged_of_error c e answered := by
    obtain ⟨e', refused⟩ := answer_of_refused (answer_eq_error_iff.mp ⟨e, answered⟩)
    rw [refused]
  unchanged_of_status last status answered failed := by
    rcases answer_erase_cases (run { seed } ops) last with done | ⟨-, unchanged⟩
    · rw [done] at answered
      exact absurd (Except.ok.inj answered).symm failed
    · exact unchanged

/-- A load, a commit onto it, and what is refused or fails. -/
def loadedAndCleared : List Operation :=
  [.load 0x1000 [0xF0, 0xFF, 0xFF], .command (.scratch 0 0x0F0F0F0F),
    .command (.commit 0x1000 (some 7)), .command (.commit 0x1002 (some 7)),
    .command (.erase none), .failErase 3, .command (.erase (some 7))]

/-- After that history, in which refused commands and a failed erase changed nothing, the word reads
as loaded, with the bits cleared that were committed. -/
theorem acts_as_flash_loadedAndCleared :
    (∀ o ∈ loadedAndCleared, o.Placed) ∧
      ((run { seed := some 7 } loadedAndCleared).read 0x1000).1 = .ok 0x0F0F0F00 := by
  have placed : ∀ o ∈ loadedAndCleared, o.Placed := by
    simp [loadedAndCleared, Operation.Placed, addressSpace]
  have history : WordHistory 0x1000 { seed := some 7 } loadedAndCleared 0xFFFFFFF0 [0x0F0F0F0F] :=
    .given [] rfl ⟨rfl, rfl, rfl, rfl, rfl, rfl, trivial⟩
  exact ⟨placed, (acts_as_flash (some 7) placed).read_eq 0x1000 rfl _ _ history⟩

end Simulated

end CanDfu
