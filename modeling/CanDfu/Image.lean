/-
  CanDfu.Image

  Firmware images: flat byte strings whose byte `n` belongs at the flash base plus `n`.  A
  `Cursor` hands an image out chunk by chunk; `pieces` is the whole run of it, each chunk with the
  number of image bytes handed out up to and including it.
-/
import CanDfu.Chunk

namespace CanDfu

/-- A firmware image. -/
structure Image where
  bytes : List UInt8
  deriving DecidableEq, Repr

/-- A chunk of an image, and how many bytes of the image are handed out once it is. -/
structure Piece where
  chunk : Chunk
  consumed : Nat
  deriving DecidableEq, Repr

/-- A position in an image that is being handed out from address `base`. -/
structure Cursor where
  base : UInt32
  /-- Bytes handed out so far. -/
  consumed : Nat
  /-- Bytes still to come. -/
  rest : List UInt8
  deriving DecidableEq, Repr

namespace Cursor

/-- The next chunk and the position after it; none at the end. -/
def next? (c : Cursor) : Option (Chunk × Cursor) :=
  if c.rest.isEmpty then none
  else
    let head := c.rest.take chunkBytes
    some (Chunk.ofBytes (c.base + UInt32.ofNat c.consumed) head,
      { c with consumed := c.consumed + head.length, rest := c.rest.drop chunkBytes })

/-- Chunks still to come. -/
def remaining (c : Cursor) : Nat := (c.rest.length + 15) / chunkBytes

theorem length_rest_next? {c d : Cursor} {k : Chunk} (h : c.next? = some (k, d)) :
    d.rest.length < c.rest.length := by
  unfold next? at h
  split at h
  · exact absurd h (by simp only [reduceCtorEq, not_false_eq_true])
  · next nonempty =>
    have := List.length_pos_iff.mpr fun empty => nonempty (List.isEmpty_iff.mpr empty)
    injection h with h
    injection h with _ h
    rw [← h, List.length_drop, chunkBytes]
    omega

/-- Everything that is still to come. -/
def pieces (c : Cursor) : List Piece :=
  match _h : c.next? with
  | none => []
  | some (k, d) => ⟨k, d.consumed⟩ :: pieces d
termination_by c.rest.length
decreasing_by exact length_rest_next? _h

end Cursor

namespace Image

/-- Size in bytes. -/
def size (i : Image) : Nat := i.bytes.length

/-- Number of commits that program the image. -/
def chunkCount (i : Image) : Nat := (i.size + 15) / chunkBytes

/-- The start of the image, laid out from `base`. -/
def cursor (i : Image) (base : UInt32) : Cursor := ⟨base, 0, i.bytes⟩

/-- The chunks of the image, laid out from `base`. -/
def pieces (i : Image) (base : UInt32) : List Piece := (i.cursor base).pieces

end Image

end CanDfu
