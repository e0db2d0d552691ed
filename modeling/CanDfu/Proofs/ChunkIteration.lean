/-
  CanDfu.Proofs.ChunkIteration

  An image is handed out by a cursor that is asked for one chunk after another.  Nothing of the
  image is lost, however often the cursor is asked:

    * `askTimes_eq` : what a cursor answers to any number of requests, and where it stands then.
    * `toNat_address_chunks` : the chunks follow one another from the base, and none of them wraps.
    * `flatMap_toBytes_chunks` : their bytes are the image, completed with zeros.

  A cursor at its end stays there, so the answers go on with `none` for as long as it is asked.
-/
import CanDfu.Proofs.ChunkLayout

namespace CanDfu

/-! ## Asking a cursor -/

namespace Cursor

/-- Asks for the next chunk: the answer, and where the cursor stands then.  At its end it stays. -/
def ask (c : Cursor) : Option Chunk × Cursor :=
  match c.next? with
  | some (k, d) => (some k, d)
  | none => (none, c)

/-- Asks for the next chunk again and again: the answers, and where the cursor stands then. -/
def askTimes : Nat → Cursor → List (Option Chunk) × Cursor
  | 0, c => ([], c)
  | n + 1, c =>
    let (answer, d) := c.ask
    let (answers, last) := askTimes n d
    (answer :: answers, last)

/-- The chunks that are still to come. -/
def chunks (c : Cursor) : List Chunk := c.pieces.map Piece.chunk

variable {c d : Cursor} {k : Chunk}

theorem chunks_of_next?_eq_none (h : c.next? = none) : c.chunks = [] := by
  rw [chunks, map_chunk_pieces, rest_of_next?_eq_none h, quads_nil]
  rfl

theorem chunks_of_next?_eq_some (h : c.next? = some (k, d)) : c.chunks = k :: d.chunks := by
  rw [chunks, pieces]
  split
  · next ended => cases ended.symm.trans h
  · next going =>
    cases going.symm.trans h
    rfl

theorem length_chunks (c : Cursor) : c.chunks.length = c.remaining := by
  rw [chunks, pieces_eq_map, List.map_map, List.length_map, List.length_range]

/-- Being asked, a cursor hands out its chunks in order, and `none` once they are used up.  It moves
on by sixteen bytes each time, as far as there are any. -/
theorem askTimes_eq (n : Nat) (c : Cursor) :
    c.askTimes n = ((c.chunks.take n).map some ++ List.replicate (n - c.remaining) none,
      ⟨c.base, c.consumed + min (16 * n) c.rest.length, c.rest.drop (16 * n)⟩) := by
  induction n generalizing c with
  | zero => simp [askTimes]
  | succ n ih =>
    rw [askTimes, ask]
    cases h : c.next? with
    | none =>
      have ended : c.rest = [] := rest_of_next?_eq_none h
      have nothing : c.remaining = 0 := by
        rw [← length_chunks, chunks_of_next?_eq_none h]
        rfl
      simp only [ih, chunks_of_next?_eq_none h, nothing, ended, List.take_nil, List.map_nil,
        List.nil_append, Nat.sub_zero, List.replicate_succ, List.length_nil, Nat.min_zero,
        List.drop_nil]
    | some next =>
      obtain ⟨k, d⟩ := next
      have left : c.remaining = d.remaining + 1 := by
        rw [← length_chunks, chunks_of_next?_eq_some h, List.length_cons, length_chunks]
      obtain ⟨-, -, rfl⟩ := of_next?_eq_some h
      -- sixteen bytes now and sixteen at each later request, or all there are
      have moved : c.consumed + min chunkBytes c.rest.length
          + min (16 * n) (c.rest.length - chunkBytes)
          = c.consumed + min (16 * (n + 1)) c.rest.length := by
        rw [chunkBytes]
        omega
      have dropped : chunkBytes + 16 * n = 16 * (n + 1) := by
        rw [chunkBytes]
        omega
      simp only [ih, chunks_of_next?_eq_some h, left, List.take_succ_cons, List.map_cons,
        List.cons_append, Nat.add_sub_add_right, List.length_drop, List.drop_drop, moved, dropped]

end Cursor

/-! ## The chunks of an image -/

theorem map_words_chunksFrom (base : UInt32) (qs : List Quad) :
    (chunksFrom base qs).map Chunk.words = qs := by
  induction qs generalizing base with
  | nil => rfl
  | cons q rest ih => exact congrArg (q :: ·) (ih (base + 16))

namespace Image

variable (i : Image) {base : UInt32}

theorem chunks_cursor (base : UInt32) : (i.cursor base).chunks = i.chunks base :=
  i.map_chunk_pieces base

/-- The chunks of an image are sixteen bytes apart, and do not wrap in an address space that has
room for them. -/
theorem toNat_address_chunks (space : base.toNat + Layout.paddedSize i.size ≤ addressSpace)
    {k : Nat} (h : k < (i.chunks base).length) :
    ((i.chunks base)[k]).address.toNat = base.toNat + 16 * k := by
  have count : k < i.chunkCount := by
    rw [← i.length_chunks base]
    exact h
  have inside : base.toNat + 16 * k < addressSpace := by
    have room : 16 * i.chunkCount = Layout.paddedSize i.size := Nat.mul_comm ..
    omega
  have placed : (i.chunks base)[k]
      = Chunk.ofBytes (base + UInt32.ofNat (16 * k)) ((i.bytes.drop (16 * k)).take chunkBytes) := by
    simp only [← i.map_chunk_pieces base, i.pieces_eq_map base, List.getElem_map,
      List.getElem_range]
  rw [placed]
  exact toNat_add_ofNat inside

/-- The bytes of the chunks are those of the image, and zeros up to the end of the last chunk. -/
theorem flatMap_toBytes_chunks (base : UInt32) :
    (i.chunks base).flatMap (fun c => c.words.toBytes)
      = i.bytes ++ List.replicate (Layout.paddedSize i.size - i.size) 0 := by
  rw [← List.flatMap_map Chunk.words Quad.toBytes, Image.chunks, map_words_chunksFrom]
  exact flatMap_toBytes_quads i.bytes

/-- Handing out an image loses nothing.  From a base that leaves room for its whole chunks, a cursor
answers with as many chunks as sixteen-byte steps cover the image, and with `none` ever after; at
each point it tells how much it has handed out and how much is to come.  The chunks lie sixteen
bytes apart, and their bytes are the image and fewer than sixteen zeros.  Sixteen bytes and four
words are the same thing written in two ways. -/
theorem handed_out_whole (space : base.toNat + Layout.paddedSize i.size ≤ addressSpace) :
    (i.size ≤ 16 * i.chunkCount ∧ 16 * i.chunkCount < i.size + 16) ∧
    (i.chunks base).length = i.chunkCount ∧
    (∀ n, let asked := (i.cursor base).askTimes n
      asked.1 = ((i.chunks base).take n).map some ++ List.replicate (n - i.chunkCount) none ∧
        asked.2.consumed = min (16 * n) i.size ∧ asked.2.remaining = i.chunkCount - n) ∧
    (∀ k (h : k < (i.chunks base).length),
      ((i.chunks base)[k]).address.toNat = base.toNat + 16 * k) ∧
    (∃ zeros < 16, (i.chunks base).flatMap (fun c => c.words.toBytes)
      = i.bytes ++ List.replicate zeros 0) ∧
    (∀ address bs, bs.length = 16 → (Chunk.ofBytes address bs).words.toBytes = bs) ∧
    ∀ address q, Chunk.ofBytes address q.toBytes = ⟨address, q⟩ := by
  have ceiling : i.size ≤ 16 * i.chunkCount ∧ 16 * i.chunkCount < i.size + 16 := by
    rw [chunkCount, chunkBytes]
    omega
  refine ⟨ceiling, i.length_chunks base, fun n => ?_, fun k => i.toNat_address_chunks space,
    ⟨Layout.paddedSize i.size - i.size, ?_, i.flatMap_toBytes_chunks base⟩, ?_, ?_⟩
  · have count : (i.cursor base).remaining = i.chunkCount := rfl
    rw [Cursor.askTimes_eq, chunks_cursor, count]
    refine ⟨rfl, Nat.zero_add _, ?_⟩
    -- sixteen bytes less are one chunk less, as long as there are any
    show ((i.bytes.drop (16 * n)).length + 15) / chunkBytes = (i.bytes.length + 15) / chunkBytes - n
    rw [List.length_drop, chunkBytes]
    omega
  · have padded : Layout.paddedSize i.size = 16 * i.chunkCount := Nat.mul_comm ..
    omega
  · intro address bs whole
    have back := Quad.toBytes_ofBytes bs (Nat.le_of_eq whole)
    rw [whole] at back
    exact back.trans (List.append_nil bs)
  · exact fun address q => congrArg (Chunk.mk address) q.ofBytes_toBytes

/-- Twenty bytes. -/
def twentyBytes : Image := ⟨List.replicate 20 0xAB⟩

theorem chunks_twentyBytes : twentyBytes.chunks 0xFFFFFFE0
    = [⟨0xFFFFFFE0, ⟨0xABABABAB, 0xABABABAB, 0xABABABAB, 0xABABABAB⟩⟩,
        ⟨0xFFFFFFF0, ⟨0xABABABAB, 0, 0, 0⟩⟩] := by
  rw [Image.chunks, quads_of_ne_nil (by decide), quads_of_ne_nil (by decide)]
  have last : (twentyBytes.bytes.drop chunkBytes).drop chunkBytes = [] := by decide
  rw [last, quads_nil]
  rfl

/-- Twenty bytes that end with the address space: two chunks, the second of them short. -/
theorem handed_out_whole_topmost :
    (0xFFFFFFE0 : UInt32).toNat + Layout.paddedSize twentyBytes.size = addressSpace ∧
    ((twentyBytes.cursor 0xFFFFFFE0).askTimes 3).1
      = [some ⟨0xFFFFFFE0, ⟨0xABABABAB, 0xABABABAB, 0xABABABAB, 0xABABABAB⟩⟩,
          some ⟨0xFFFFFFF0, ⟨0xABABABAB, 0, 0, 0⟩⟩, none] ∧
    ((twentyBytes.cursor 0xFFFFFFE0).askTimes 1).2.consumed = 16 ∧
    ((twentyBytes.cursor 0xFFFFFFE0).askTimes 3).2.consumed = 20 ∧
    ((twentyBytes.cursor 0xFFFFFFE0).askTimes 1).2.remaining = 1 := by
  have space : (0xFFFFFFE0 : UInt32).toNat + Layout.paddedSize twentyBytes.size = addressSpace := by
    decide
  have count : twentyBytes.chunkCount = 2 := by decide
  have size : twentyBytes.size = 20 := by decide
  obtain ⟨-, -, asked, -⟩ := twentyBytes.handed_out_whole (Nat.le_of_eq space)
  rw [count, size, chunks_twentyBytes] at asked
  exact ⟨space, (asked 3).1, (asked 1).2.1, (asked 3).2.1, (asked 1).2.2⟩

end Image

end CanDfu
