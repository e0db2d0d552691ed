/-
  CanDfu.LittleEndian

  Words of flash and of the bus as bytes, lowest byte first.  `word` joins four bytes, `bytes`
  takes a word apart again, and the readers below fill in what a short byte string leaves out.
-/

namespace CanDfu.LittleEndian

/-- The word whose bytes are `b0` (lowest) to `b3`. -/
def word (b0 b1 b2 b3 : UInt8) : UInt32 :=
  .ofNat (b0.toNat + 0x100 * b1.toNat + 0x10000 * b2.toNat + 0x1000000 * b3.toNat)

/-- The four bytes of a word. -/
def bytes (w : UInt32) : List UInt8 :=
  [.ofNat w.toNat, .ofNat (w.toNat / 0x100), .ofNat (w.toNat / 0x10000),
    .ofNat (w.toNat / 0x1000000)]

/-- The first word of a byte string; missing bytes read as `fill`. -/
def firstWord (fill : UInt8) (bs : List UInt8) : UInt32 :=
  word (bs.getD 0 fill) (bs.getD 1 fill) (bs.getD 2 fill) (bs.getD 3 fill)

/-- All words of a byte string; a trailing fragment is completed with `fill`. -/
def words (fill : UInt8) : List UInt8 → List UInt32
  | [] => []
  | b0 :: b1 :: b2 :: b3 :: rest => word b0 b1 b2 b3 :: words fill rest
  | short => [firstWord fill short]

/-! ## Words and bytes are each other's inverse -/

@[simp] theorem length_bytes (w : UInt32) : (bytes w).length = 4 := rfl

theorem toNat_word (b0 b1 b2 b3 : UInt8) :
    (word b0 b1 b2 b3).toNat
      = b0.toNat + 0x100 * b1.toNat + 0x10000 * b2.toNat + 0x1000000 * b3.toNat := by
  have h0 := b0.toNat_lt
  have h1 := b1.toNat_lt
  have h2 := b2.toNat_lt
  have h3 := b3.toNat_lt
  simp only [word, UInt32.toNat_ofNat']
  omega

theorem bytes_word (b0 b1 b2 b3 : UInt8) : bytes (word b0 b1 b2 b3) = [b0, b1, b2, b3] := by
  have h0 := b0.toNat_lt
  have h1 := b1.toNat_lt
  have h2 := b2.toNat_lt
  have h3 := b3.toNat_lt
  simp only [bytes, toNat_word, List.cons.injEq, and_true]
  refine ⟨?_, ?_, ?_, ?_⟩ <;> apply UInt8.toNat_inj.mp <;>
    simp only [UInt8.toNat_ofNat'] <;> omega

theorem firstWord_bytes_append (fill : UInt8) (w : UInt32) (rest : List UInt8) :
    firstWord fill (bytes w ++ rest) = w := by
  have h := w.toNat_lt
  apply UInt32.toNat_inj.mp
  simp only [firstWord, bytes, List.cons_append, List.nil_append, List.getD_cons_zero,
    List.getD_cons_succ, toNat_word, UInt8.toNat_ofNat']
  omega

theorem firstWord_bytes (fill : UInt8) (w : UInt32) : firstWord fill (bytes w) = w := by
  have := firstWord_bytes_append fill w []
  rwa [List.append_nil] at this

end CanDfu.LittleEndian
