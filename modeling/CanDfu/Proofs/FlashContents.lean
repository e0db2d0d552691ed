/-
  CanDfu.Proofs.FlashContents

  What simulated flash holds.  `Holds` says that words read back from their addresses, `HoldsOnly`
  that everything else is erased.  Programming clears bits and never sets one, so erased flash is
  the only state in which a word can be counted on to arrive:

    * `holdsOnly_program_blank` : words programmed into blank flash are held, and only they.
    * `holds_program` : words programmed into flash that has their bits set are held.
    * `word_program_dirty` : chunks that are erased throughout need not be programmed.
    * `Canonical.eq_of_word` : flash that reads the same everywhere is the same map.
    * `dump_eq_iff_holds` : a dump of whole chunks is their bytes exactly when they are held.
-/
import CanDfu.Device.Simulated
import CanDfu.Proofs.UploadParts

namespace CanDfu

namespace Flash

variable {f : Flash} {ws more : List (UInt32 × UInt32)} {a : UInt32}

/-- Every word reads back from its address. -/
def Holds (f : Flash) (ws : List (UInt32 × UInt32)) : Prop :=
  ∀ p ∈ ws, f.word p.1 = p.2

/-- The words read back from their addresses, and all else is erased. -/
structure HoldsOnly (f : Flash) (ws : List (UInt32 × UInt32)) : Prop where
  holds : f.Holds ws
  elsewhere : ∀ a, (∀ p ∈ ws, p.1 ≠ a) → f.word a = erasedWord

@[simp] theorem holds_append : f.Holds (ws ++ more) ↔ f.Holds ws ∧ f.Holds more :=
  List.forall_mem_append

@[simp] theorem holds_cons {p : UInt32 × UInt32} :
    f.Holds (p :: ws) ↔ f.word p.1 = p.2 ∧ f.Holds ws :=
  List.forall_mem_cons

@[simp] theorem holds_nil : f.Holds [] :=
  fun _ hp => absurd hp List.not_mem_nil

/-- What is held, with nothing else, says how flash reads. -/
theorem HoldsOnly.word_eq {g : Flash} (h : f.HoldsOnly ws) (h' : g.HoldsOnly ws) (a : UInt32) :
    f.word a = g.word a := by
  by_cases there : ∃ p ∈ ws, p.1 = a
  · obtain ⟨p, hp, rfl⟩ := there
    rw [h.holds p hp, h'.holds p hp]
  · have nowhere : ∀ p ∈ ws, p.1 ≠ a := fun p hp same => there ⟨p, hp, same⟩
    rw [h.elsewhere a nowhere, h'.elsewhere a nowhere]

/-! ## Programming -/

theorem program_append (f : Flash) (ws more : List (UInt32 × UInt32)) :
    f.program (ws ++ more) = (f.program ws).program more :=
  List.foldl_append

theorem program_cons (f : Flash) (p : UInt32 × UInt32) (ws : List (UInt32 × UInt32)) :
    f.program (p :: ws) = (f.programWord p.1 p.2).program ws :=
  rfl

/-- Programming leaves alone what it does not address. -/
theorem word_program_of_not_mem (h : ∀ p ∈ ws, p.1 ≠ a) : (f.program ws).word a = f.word a := by
  induction ws generalizing f with
  | nil => rfl
  | cons p rest ih =>
    obtain ⟨head, tail⟩ := List.forall_mem_cons.mp h
    rw [program_cons, ih tail, word_programWord, if_neg head]

/-- A word that is programmed once keeps the bits that are set in flash as well. -/
theorem word_program_of_mem {p : UInt32 × UInt32} (once : ws.Pairwise fun p q => p.1 ≠ q.1)
    (hp : p ∈ ws) : (f.program ws).word p.1 = f.word p.1 &&& p.2 := by
  induction ws generalizing f with
  | nil => cases hp
  | cons q rest ih =>
    obtain ⟨head, tail⟩ := List.pairwise_cons.mp once
    rw [program_cons]
    -- either the head programs the word and the rest leaves it alone, or the other way round
    rcases List.mem_cons.mp hp with rfl | hp
    · rw [word_program_of_not_mem fun r hr => (head r hr).symm, word_programWord, if_pos rfl]
    · rw [ih tail hp, word_programWord, if_neg (head p hp)]

theorem erasedWord_and (w : UInt32) : erasedWord &&& w = w :=
  UInt32.neg_one_and

theorem and_erasedWord (w : UInt32) : w &&& erasedWord = w :=
  UInt32.and_neg_one

/-- Words whose bits are all set in flash are held once they are programmed. -/
theorem holds_program (once : ws.Pairwise fun p q => p.1 ≠ q.1)
    (bits : ∀ p ∈ ws, f.word p.1 &&& p.2 = p.2) : (f.program ws).Holds ws := by
  intro p hp
  rw [word_program_of_mem once hp, bits p hp]

/-- Words programmed into blank flash are all it holds. -/
theorem holdsOnly_program_blank (once : ws.Pairwise fun p q => p.1 ≠ q.1) :
    (blank.program ws).HoldsOnly ws where
  holds := holds_program once fun p _ => by rw [word_blank, erasedWord_and]
  elsewhere a ha := by rw [word_program_of_not_mem ha, word_blank]

/-- What is read after programming depends on what was read before it, and on nothing else. -/
theorem word_program_congr {g : Flash} (same : ∀ a, f.word a = g.word a) (a : UInt32) :
    (f.program ws).word a = (g.program ws).word a := by
  induction ws generalizing f g with
  | nil => exact same a
  | cons p rest ih =>
    refine ih fun b => ?_
    rw [word_programWord, word_programWord, same p.1, same b]

/-- Erased words clear no bits. -/
theorem word_program_erased (erased : ∀ p ∈ ws, p.2 = erasedWord) (a : UInt32) :
    (f.program ws).word a = f.word a := by
  induction ws generalizing f with
  | nil => rfl
  | cons p rest ih =>
    obtain ⟨here, later⟩ := List.forall_mem_cons.mp erased
    rw [program_cons, ih later, word_programWord, here, and_erasedWord]
    split
    · next same => rw [same]
    · rfl

/-! ## Flash as a map -/

/-- No word is stored as erased: what is erased is left out of the map. -/
def Canonical (f : Flash) : Prop := ∀ a : UInt32, f.words[a]? ≠ some erasedWord

theorem canonical_blank : blank.Canonical := by
  intro a
  simp [blank]

/-- An erased word is not stored but left out. -/
theorem Canonical.store (h : f.Canonical) (a value : UInt32) : (f.store a value).Canonical := by
  intro b
  unfold Flash.store
  split
  · rw [Std.ExtTreeMap.getElem?_erase]
    split
    · exact nofun
    · exact h b
  · next kept =>
    rw [Std.ExtTreeMap.getElem?_insert]
    split
    · exact fun same => kept (Option.some.inj same)
    · exact h b

theorem Canonical.program (h : f.Canonical) (ws : List (UInt32 × UInt32)) :
    (f.program ws).Canonical := by
  induction ws generalizing f with
  | nil => exact h
  | cons p rest ih => exact ih (h.store p.1 _)

/-- Maps without erased words are the same if they read the same everywhere. -/
theorem Canonical.eq_of_word {g : Flash} (hf : f.Canonical) (hg : g.Canonical)
    (same : ∀ a, f.word a = g.word a) : f = g := by
  have words : f.words = g.words := by
    apply Std.ExtTreeMap.ext_getElem?
    intro a
    have here := same a
    simp only [word, Std.ExtTreeMap.getD_eq_getD_getElem?] at here
    -- a word that only one of the maps has would read as erased, and is not stored
    cases hf' : f.words[a]? with
    | none =>
      cases hg' : g.words[a]? with
      | none => rfl
      | some v =>
        rw [hf', hg'] at here
        exact absurd (hg'.trans (congrArg some here.symm)) (hg a)
    | some v =>
      cases hg' : g.words[a]? with
      | none =>
        rw [hf', hg'] at here
        exact absurd (hf'.trans (congrArg some here)) (hf a)
      | some u =>
        rw [hf', hg'] at here
        exact congrArg some here
  cases f
  cases g
  exact congrArg Flash.mk words

/-! ## Dumps -/

/-- A dump begins with the chunk at its address. -/
theorem dump_succ (f : Flash) (base : UInt32) (n : Nat) :
    f.dump base (chunkBytes * (n + 1))
      = Quad.toBytes ⟨f.word base, f.word (base + 4), f.word (base + 8), f.word (base + 12)⟩
          ++ f.dump (base + 16) (chunkBytes * n) := by
  have words (m : Nat) : (chunkBytes * m + 3) / 4 = 4 * m := by
    rw [chunkBytes]
    omega
  have first : UInt32.ofNat 0 * 4 = 0 := rfl
  have shifted (i : Nat) :
      base + UInt32.ofNat (4 + i) * 4 = base + 16 + UInt32.ofNat i * 4 := by
    rw [UInt32.ofNat_add, UInt32.add_mul, ← UInt32.add_assoc]
    rfl
  have front : (List.range 4).flatMap
        (fun i => LittleEndian.bytes (f.word (base + UInt32.ofNat i * 4)))
      = Quad.toBytes ⟨f.word base, f.word (base + 4), f.word (base + 8), f.word (base + 12)⟩ := by
    simp only [show List.range 4 = [0, 1, 2, 3] from rfl, List.flatMap_cons, List.flatMap_nil,
      first, UInt32.add_zero]
    rfl
  -- the words of the region, split behind the first four
  rw [dump, dump, words, words, Nat.mul_succ 4, Nat.add_comm (4 * n), List.range_add,
    List.flatMap_append, List.flatMap_map, front]
  simp only [shifted]
  rw [List.take_append, Quad.length_toBytes, Nat.mul_succ, Nat.add_sub_cancel,
    List.take_of_length_le (by rw [Quad.length_toBytes]; omega)]

/-- A dump of chunks is their bytes exactly when flash holds them. -/
theorem dump_eq_iff_holds (f : Flash) (base : UInt32) (qs : List Quad) :
    f.dump base (chunkBytes * qs.length) = qs.flatMap Quad.toBytes
      ↔ f.Holds ((chunksFrom base qs).flatMap Chunk.placed) := by
  induction qs generalizing base with
  | nil => exact ⟨fun _ => holds_nil, fun _ => rfl⟩
  | cons q rest ih =>
    rw [List.length_cons, dump_succ, List.flatMap_cons, chunksFrom, List.flatMap_cons, holds_append,
      ← ih]
    have head (r : Quad) : r.toBytes = q.toBytes ↔ r = q :=
      ⟨Quad.toBytes_injective, congrArg Quad.toBytes⟩
    have here : (⟨f.word base, f.word (base + 4), f.word (base + 8), f.word (base + 12)⟩ : Quad) = q
        ↔ f.Holds (Chunk.placed ⟨base, q⟩) := by
      rw [placed_eq_wordsFrom]
      simp only [Quad.toList, wordsFrom, holds_cons, holds_nil, and_true, UInt32.add_assoc]
      cases q
      simp only [Quad.mk.injEq]
      exact Iff.rfl
    rw [← here, ← head]
    -- both sides are a chunk of sixteen bytes and the rest
    constructor
    · exact fun h => List.append_inj h rfl
    · rintro ⟨first, others⟩
      rw [first, others]

/-- Every region of chunks holds some quads. -/
theorem exists_quads (f : Flash) (base : UInt32) (n : Nat) :
    ∃ qs : List Quad, qs.length = n ∧ f.Holds ((chunksFrom base qs).flatMap Chunk.placed) := by
  induction n generalizing base with
  | zero => exact ⟨[], rfl, holds_nil⟩
  | succ n ih =>
    obtain ⟨qs, length, held⟩ := ih (base + 16)
    refine ⟨⟨f.word base, f.word (base + 4), f.word (base + 8), f.word (base + 12)⟩ :: qs,
      congrArg (· + 1) length, ?_⟩
    rw [chunksFrom, List.flatMap_cons, holds_append, placed_eq_wordsFrom]
    refine ⟨?_, held⟩
    simp [Quad.toList, wordsFrom, UInt32.add_assoc]

end Flash

/-! ## Erased chunks -/

/-- Four erased words. -/
def Quad.erased : Quad := ⟨erasedWord, erasedWord, erasedWord, erasedWord⟩

theorem Quad.isErased_iff (q : Quad) : isErased q.toBytes = true ↔ q = .erased := by
  constructor
  · intro h
    refine toBytes_injective ((List.eq_replicate_iff.mpr ⟨q.length_toBytes, fun b hb => ?_⟩ :
      q.toBytes = List.replicate chunkBytes erasedByte))
    exact beq_iff_eq.mp (List.all_eq_true.mp h b hb)
  · rintro rfl
    rfl

/-- A chunk that holds nothing has erased words. -/
theorem Chunk.eq_erasedWord_of_not_isDirty {c : Chunk} (h : ¬ c.isDirty) {p : UInt32 × UInt32}
    (hp : p ∈ c.placed) : p.2 = erasedWord := by
  have erased : c.words = .erased := by
    rw [← Quad.isErased_iff]
    simpa [isDirty] using h
  simp only [placed, erased, List.mem_cons, List.not_mem_nil, or_false] at hp
  rcases hp with rfl | rfl | rfl | rfl <;> rfl

/-- Leaving out the chunks that hold nothing makes no difference to what is read afterwards. -/
theorem Flash.word_program_dirty (f : Flash) (cs : List Chunk) (a : UInt32) :
    (f.program ((cs.filter Chunk.isDirty).flatMap Chunk.placed)).word a
      = (f.program (cs.flatMap Chunk.placed)).word a := by
  induction cs generalizing f with
  | nil => rfl
  | cons c rest ih =>
    rw [List.flatMap_cons, program_append]
    by_cases dirty : c.isDirty
    · rw [List.filter_cons_of_pos dirty, List.flatMap_cons, program_append]
      exact ih _
    · rw [List.filter_cons_of_neg dirty, ih]
      have idle (b : UInt32) : (f.program c.placed).word b = f.word b :=
        word_program_erased (fun _ hp => c.eq_erasedWord_of_not_isDirty dirty hp) b
      exact word_program_congr (fun b => (idle b).symm) a

end CanDfu
