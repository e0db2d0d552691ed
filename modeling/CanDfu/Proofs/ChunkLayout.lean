/-
  CanDfu.Proofs.ChunkLayout

  Regions of flash as quads of words.  `chunksFrom` lays quads out from a base; the chunks an
  image hands out and the chunks an NVM backup is cut into are both such layouts, so what holds of
  their addresses is said once:

    * `map_chunk_pieces` : the chunks of an image, laid out from its base.
    * `pieces_eq_map` : the same by number, with how far into the image each of them reaches.
    * `dirtyChunks_eq` : the chunks of a backup that hold something.
    * `pairwise_chunksFrom`, `pairwise_placed` : addresses ascend, of chunks and of their words.
-/
import CanDfu.Image
import CanDfu.Proofs.LayoutBounds
import CanDfu.Upload.Preservation

namespace CanDfu

/-! ## Quads and bytes -/

/-- Behind a whole word the next one begins. -/
theorem LittleEndian.drop_bytes_append (w : UInt32) (n : Nat) (rest : List UInt8) :
    (bytes w ++ rest).drop (n + 4) = rest.drop n := by
  rw [List.drop_append, length_bytes, Nat.add_sub_cancel,
    List.drop_of_length_le (by rw [length_bytes]; omega), List.nil_append]

namespace Quad

/-- The first bytes of a string and zeros after its end. -/
theorem map_getD_range (bs : List UInt8) (n : Nat) (h : bs.length ≤ n) :
    (List.range n).map (fun i => bs.getD i 0) = bs ++ List.replicate (n - bs.length) 0 := by
  apply List.ext_getElem
  · simp
    omega
  · intro i hi hi'
    rw [List.getElem_map, List.getElem_range]
    by_cases inside : i < bs.length
    · rw [List.getElem_append_left inside, List.getD_eq_getElem?_getD,
        List.getElem?_eq_getElem inside, Option.getD_some]
    · rw [List.getElem_append_right (by omega), List.getElem_replicate, List.getD_eq_getElem?_getD,
        List.getElem?_eq_none (by omega), Option.getD_none]

theorem firstWord_drop (bs : List UInt8) (k : Nat) :
    LittleEndian.firstWord 0 (bs.drop k)
      = LittleEndian.word (bs.getD k 0) (bs.getD (k + 1) 0) (bs.getD (k + 2) 0)
          (bs.getD (k + 3) 0) := by
  simp [LittleEndian.firstWord, List.getD_eq_getElem?_getD, List.getElem?_drop]

/-- Up to sixteen bytes come back from their words, completed with zeros. -/
theorem toBytes_ofBytes (bs : List UInt8) (h : bs.length ≤ chunkBytes) :
    (ofBytes bs).toBytes = bs ++ List.replicate (chunkBytes - bs.length) 0 := by
  rw [← map_getD_range bs chunkBytes h]
  have first := firstWord_drop bs 0
  rw [List.drop_zero] at first
  simp only [toBytes, toList, ofBytes, first, firstWord_drop, List.flatMap_cons, List.flatMap_nil,
    LittleEndian.bytes_word]
  rfl

theorem ofBytes_toBytes (q : Quad) : ofBytes q.toBytes = q := by
  obtain ⟨w0, w1, w2, w3⟩ := q
  simp only [toBytes, toList, ofBytes, List.flatMap_cons, List.flatMap_nil]
  have next := LittleEndian.drop_bytes_append
  rw [LittleEndian.firstWord_bytes_append, next _ 0, next _ 4, next _ 0, next _ 8, next _ 4,
    next _ 0]
  simp only [List.drop_zero, LittleEndian.firstWord_bytes_append]

theorem toBytes_injective {q r : Quad} (h : q.toBytes = r.toBytes) : q = r := by
  rw [← ofBytes_toBytes q, h, ofBytes_toBytes]

end Quad

/-- A byte string, four words at a time; the last four are completed with zeros. -/
def quads (bytes : List UInt8) : List Quad :=
  if _h : bytes = [] then []
  else .ofBytes (bytes.take chunkBytes) :: quads (bytes.drop chunkBytes)
termination_by bytes.length
decreasing_by
  have := List.length_pos_iff.mpr _h
  rw [List.length_drop, chunkBytes]
  omega

@[simp] theorem quads_nil : quads [] = [] := by
  rw [quads, dif_pos rfl]

theorem quads_of_ne_nil {bytes : List UInt8} (h : bytes ≠ []) :
    quads bytes = .ofBytes (bytes.take chunkBytes) :: quads (bytes.drop chunkBytes) := by
  rw [quads, dif_neg h]

theorem length_quads (bytes : List UInt8) :
    (quads bytes).length * chunkBytes = Layout.paddedSize bytes.length := by
  unfold Layout.paddedSize
  congr 1
  fun_induction quads bytes with
  | case1 => rfl
  | case2 bytes h ih =>
    have := List.length_pos_iff.mpr h
    rw [List.length_cons, ih, List.length_drop, chunkBytes]
    omega

theorem length_quads_eq (bytes : List UInt8) :
    (quads bytes).length = (bytes.length + 15) / chunkBytes :=
  Nat.eq_of_mul_eq_mul_right (by decide) (length_quads bytes)

/-- The quads of a byte string hold it and nothing but zeros after it. -/
theorem flatMap_toBytes_quads (bytes : List UInt8) :
    (quads bytes).flatMap Quad.toBytes
      = bytes ++ List.replicate (Layout.paddedSize bytes.length - bytes.length) 0 := by
  fun_induction quads bytes with
  | case1 => rfl
  | case2 bytes h ih =>
    have := List.length_pos_iff.mpr h
    rw [List.flatMap_cons, ih, Quad.toBytes_ofBytes _ (List.length_take_le ..),
      List.length_take, List.length_drop]
    -- a whole quad leaves the zeros to the rest; the last one takes them all
    by_cases whole : chunkBytes ≤ bytes.length
    · have head : chunkBytes - min chunkBytes bytes.length = 0 := by omega
      have rest : Layout.paddedSize (bytes.length - chunkBytes) - (bytes.length - chunkBytes)
          = Layout.paddedSize bytes.length - bytes.length := by
        simp only [Layout.paddedSize, chunkBytes] at whole ⊢
        omega
      rw [head, rest, List.replicate_zero, List.append_nil, ← List.append_assoc,
        List.take_append_drop]
    · have short : bytes.length ≤ chunkBytes := by omega
      rw [List.take_of_length_le short, List.drop_of_length_le short]
      have last :
          Layout.paddedSize (bytes.length - chunkBytes) - (bytes.length - chunkBytes) = 0 := by
        simp only [Layout.paddedSize, chunkBytes] at whole ⊢
        omega
      have one : chunkBytes - min chunkBytes bytes.length
          = Layout.paddedSize bytes.length - bytes.length := by
        simp only [Layout.paddedSize, chunkBytes] at whole ⊢
        omega
      rw [last, one]
      simp

/-! ## Chunks laid out from a base -/

/-- Quads as chunks, one after the other from `base`. -/
def chunksFrom (base : UInt32) : List Quad → List Chunk
  | [] => []
  | q :: rest => ⟨base, q⟩ :: chunksFrom (base + 16) rest

/-- The chunks of an image, laid out from `base`. -/
def Image.chunks (i : Image) (base : UInt32) : List Chunk := chunksFrom base (quads i.bytes)

/-- There is one chunk for each quad. -/
theorem length_chunksFrom (base : UInt32) (qs : List Quad) :
    (chunksFrom base qs).length = qs.length := by
  induction qs generalizing base with
  | nil => rfl
  | cons q rest ih => exact congrArg (· + 1) (ih (base + 16))

theorem chunksFrom_append (base : UInt32) (qs more : List Quad) :
    chunksFrom base (qs ++ more)
      = chunksFrom base qs ++ chunksFrom (base + UInt32.ofNat (16 * qs.length)) more := by
  induction qs generalizing base with
  | nil => exact congrArg (chunksFrom · more) (UInt32.add_zero base).symm
  | cons q rest ih =>
    have next : base + 16 + UInt32.ofNat (16 * rest.length)
        = base + UInt32.ofNat (16 * (q :: rest).length) := by
      rw [List.length_cons, Nat.mul_succ, Nat.add_comm, UInt32.ofNat_add, UInt32.add_assoc]
      rfl
    rw [List.cons_append, chunksFrom, ih, next, chunksFrom, List.cons_append]

theorem Image.length_chunks (i : Image) (base : UInt32) :
    (i.chunks base).length = i.chunkCount := by
  rw [Image.chunks, length_chunksFrom, length_quads_eq]
  rfl

/-- At the end of its bytes a cursor has nothing to hand out. -/
theorem Cursor.rest_of_next?_eq_none {c : Cursor} (h : c.next? = none) : c.rest = [] := by
  unfold next? at h
  split at h
  · next empty => exact List.isEmpty_iff.mp empty
  · cases h

/-- What a cursor hands out, and where it stands then. -/
theorem Cursor.of_next?_eq_some {c d : Cursor} {k : Chunk} (h : c.next? = some (k, d)) :
    c.rest ≠ [] ∧
      k = Chunk.ofBytes (c.base + UInt32.ofNat c.consumed) (c.rest.take chunkBytes) ∧
      d = ⟨c.base, c.consumed + min chunkBytes c.rest.length, c.rest.drop chunkBytes⟩ := by
  unfold next? at h
  split at h
  · cases h
  · next nonempty =>
    refine ⟨fun empty => nonempty (List.isEmpty_iff.mpr empty), ?_⟩
    injection h with h
    injection h with chunk next
    rw [List.length_take] at next
    exact ⟨chunk.symm, next.symm⟩

/-- What a cursor hands out is the rest of its bytes, laid out from where it stands. -/
theorem Cursor.map_chunk_pieces (c : Cursor) :
    c.pieces.map Piece.chunk = chunksFrom (c.base + UInt32.ofNat c.consumed) (quads c.rest) := by
  fun_induction Cursor.pieces c with
  | case1 c h =>
    rw [rest_of_next?_eq_none h, quads_nil]
    rfl
  | case2 c k d h ih =>
    obtain ⟨rest, rfl, rfl⟩ := of_next?_eq_some h
    rw [List.map_cons, ih, quads_of_ne_nil rest, chunksFrom]
    refine congrArg (_ :: ·) ?_
    -- a head of fewer than sixteen bytes is the last, and nothing is laid out after it
    by_cases whole : chunkBytes ≤ c.rest.length
    · rw [Nat.min_eq_left whole, UInt32.ofNat_add, ← UInt32.add_assoc]
      rfl
    · rw [List.drop_of_length_le (by omega), quads_nil]
      rfl

/-- What a cursor hands out, by number: where in its bytes each chunk begins, and how many bytes
are handed out once it is. -/
theorem Cursor.pieces_eq_map (c : Cursor) :
    c.pieces = (List.range c.remaining).map fun k =>
      ⟨Chunk.ofBytes (c.base + UInt32.ofNat (c.consumed + 16 * k))
          ((c.rest.drop (16 * k)).take chunkBytes),
        c.consumed + min (16 * (k + 1)) c.rest.length⟩ := by
  fun_induction Cursor.pieces c with
  | case1 c h =>
    rw [remaining, rest_of_next?_eq_none h]
    rfl
  | case2 c k d h ih =>
    obtain ⟨rest, rfl, rfl⟩ := of_next?_eq_some h
    have pos := List.length_pos_iff.mpr rest
    have count : c.remaining = (c.rest.length - chunkBytes + 15) / chunkBytes + 1 := by
      rw [remaining, chunkBytes]
      omega
    rw [ih, remaining, List.length_drop, count, List.range_succ_eq_map, List.map_cons, List.map_map]
    congr 1
    apply List.map_congr_left
    intro k hk
    rw [List.mem_range, chunkBytes] at hk
    -- there is a next chunk only behind a whole one
    have whole : chunkBytes ≤ c.rest.length := by
      rw [chunkBytes]
      omega
    have before : c.consumed + chunkBytes + 16 * k = c.consumed + 16 * (k + 1) := by
      rw [chunkBytes]
      omega
    have after : chunkBytes + min (16 * (k + 1)) (c.rest.length - chunkBytes)
        = min (16 * (k + 1 + 1)) c.rest.length := by
      rw [chunkBytes] at whole ⊢
      omega
    simp only [Function.comp_apply, Nat.succ_eq_add_one, Nat.min_eq_left whole, before,
      List.drop_drop, Nat.add_assoc, after]
    rw [Nat.mul_succ, Nat.add_comm chunkBytes]
    rfl

theorem Image.map_chunk_pieces (i : Image) (base : UInt32) :
    (i.pieces base).map Piece.chunk = i.chunks base := by
  rw [Image.pieces, Cursor.map_chunk_pieces]
  show chunksFrom (base + 0) _ = _
  rw [UInt32.add_zero]
  rfl

/-- The pieces of an image by number. -/
theorem Image.pieces_eq_map (i : Image) (base : UInt32) :
    i.pieces base = (List.range i.chunkCount).map fun k =>
      ⟨Chunk.ofBytes (base + UInt32.ofNat (16 * k)) ((i.bytes.drop (16 * k)).take chunkBytes),
        min (16 * (k + 1)) i.size⟩ := by
  have handed := (i.cursor base).pieces_eq_map
  simp only [Image.cursor, Nat.zero_add] at handed
  exact handed

/-- Whether a chunk holds something, and is not erased throughout. -/
def Chunk.isDirty (c : Chunk) : Bool := !isErased c.words.toBytes

theorem chunkSlices_toBytes_append (base : UInt32) (q : Quad) (rest : List UInt8) :
    chunkSlices base (q.toBytes ++ rest) = (base, q.toBytes) :: chunkSlices (base + 16) rest := by
  have nonempty : q.toBytes ++ rest ≠ [] := fun empty => by
    have := congrArg List.length empty
    rw [List.length_append, Quad.length_toBytes, chunkBytes] at this
    simp at this
  rw [chunkSlices, dif_neg nonempty, List.take_left' (Quad.length_toBytes q),
    List.drop_left' (Quad.length_toBytes q)]

/-- The chunks a backup restores are those of the quads it holds, without the erased ones. -/
theorem dirtyChunks_eq (base : UInt32) (qs : List Quad) :
    (NvmBackup.mk (qs.flatMap Quad.toBytes)).dirtyChunks base
      = (chunksFrom base qs).filter Chunk.isDirty := by
  unfold NvmBackup.dirtyChunks
  induction qs generalizing base with
  | nil =>
    rw [List.flatMap_nil, chunkSlices, dif_pos rfl]
    rfl
  | cons q rest ih =>
    specialize ih (base + 16)
    simp only at ih
    simp only [List.flatMap_cons, chunkSlices_toBytes_append, chunksFrom, List.filter_cons,
      Chunk.isDirty]
    by_cases erased : isErased q.toBytes
    · simpa [erased] using ih
    · simpa [erased, Chunk.ofBytes, Quad.ofBytes_toBytes] using ih

/-! ## Addresses -/

/-- A sum that stays in the address space does not wrap. -/
theorem toNat_add_ofNat {base : UInt32} {n : Nat} (h : base.toNat + n < addressSpace) :
    (base + UInt32.ofNat n).toNat = base.toNat + n := by
  rw [addressSpace] at h
  rw [UInt32.toNat_add, UInt32.toNat_ofNat']
  omega

/-- The end of a layout does not wrap before its last chunk. -/
theorem toNat_add_sixteen {base : UInt32} {n : Nat}
    (h : base.toNat + 16 * (n + 1) ≤ addressSpace) (hn : 0 < n) :
    (base + 16).toNat = base.toNat + 16 := by
  have inside : base.toNat + 16 < addressSpace := by omega
  exact toNat_add_ofNat inside

/-- The chunks of an image do not wrap if its padded range does not. -/
theorem Image.length_in_space {base : UInt32} {image : Image}
    (space : base.toNat + Layout.paddedSize image.size ≤ addressSpace) :
    base.toNat + 16 * (quads image.bytes).length ≤ addressSpace := by
  rw [Image.size, ← length_quads, chunkBytes] at space
  omega

/-- Those of an image that has room do not. -/
theorem Layout.Room.length_image {l : Layout} {image : Image}
    (room : l.Room image.size) :
    l.flashBase.toNat + 16 * (quads image.bytes).length ≤ addressSpace :=
  Image.length_in_space room.in_space

/-- The NVM region is as long as the quads that are read from it. -/
theorem Layout.Usable.length_region {l : Layout} {qs : List Quad} (usable : l.Usable)
    (read : qs.length = l.nvmChunks) : 16 * qs.length = l.nvmSize.toNat := by
  rw [read, usable.sixteen_mul_nvmChunks]

/-- The chunks of the NVM region do not wrap. -/
theorem Layout.Usable.region_in_space {l : Layout} {qs : List Quad} (usable : l.Usable)
    (read : qs.length = l.nvmChunks) : l.nvmBase.toNat + 16 * qs.length ≤ addressSpace := by
  rw [usable.length_region read]
  exact Nat.le_of_lt usable.nvm_in_space

/-- A chunk of a layout is one of its sixteen-byte steps. -/
theorem mem_chunksFrom {base : UInt32} {qs : List Quad} {c : Chunk}
    (h : base.toNat + 16 * qs.length ≤ addressSpace) (hc : c ∈ chunksFrom base qs) :
    ∃ k < qs.length, c.address.toNat = base.toNat + 16 * k := by
  induction qs generalizing base with
  | nil => cases hc
  | cons q rest ih =>
    rcases List.mem_cons.mp hc with rfl | hc
    · exact ⟨0, Nat.succ_pos _, rfl⟩
    -- a chunk further on leaves room for the step to it, so that does not wrap
    · have more : 0 < rest.length := by
        cases rest with
        | nil => cases hc
        | cons _ _ => exact Nat.succ_pos _
      have step := toNat_add_sixteen h more
      rw [List.length_cons] at h
      obtain ⟨k, hk, address⟩ := ih (by omega) hc
      exact ⟨k + 1, Nat.succ_lt_succ hk, by omega⟩

/-- Chunks are laid out in ascending order. -/
theorem pairwise_chunksFrom {base : UInt32} {qs : List Quad}
    (h : base.toNat + 16 * qs.length ≤ addressSpace) :
    (chunksFrom base qs).Pairwise fun a b => a.address < b.address := by
  induction qs generalizing base with
  | nil => exact .nil
  | cons q rest ih =>
    cases rest with
    | nil => exact List.pairwise_singleton ..
    | cons r rest =>
      have step := toNat_add_sixteen h (Nat.succ_pos _)
      rw [List.length_cons] at h
      refine .cons (fun c hc => ?_) (ih (by omega))
      obtain ⟨k, -, address⟩ := mem_chunksFrom (by omega) hc
      rw [UInt32.lt_iff_toNat_lt]
      show base.toNat < c.address.toNat
      omega

/-- A chunk lies on a chunk boundary. -/
def Chunk.Aligned (c : Chunk) : Prop := c.address.toNat % 16 = 0

theorem aligned_of_mem_chunksFrom {base : UInt32} {qs : List Quad} {c : Chunk}
    (aligned : base.toNat % 16 = 0) (h : base.toNat + 16 * qs.length ≤ addressSpace)
    (hc : c ∈ chunksFrom base qs) : c.Aligned := by
  obtain ⟨k, -, address⟩ := mem_chunksFrom h hc
  show c.address.toNat % 16 = 0
  omega

/-- The words of an aligned chunk do not wrap. -/
theorem Chunk.Aligned.toNat_wordAddress {c : Chunk} (h : c.Aligned) {i : Nat} (hi : i < 4) :
    (c.wordAddress i).toNat = c.address.toNat + 4 * i := by
  have bound := c.address.toNat_lt
  unfold Chunk.Aligned at h
  rw [Chunk.wordAddress, UInt32.toNat_add, UInt32.toNat_mul, UInt32.toNat_ofNat']
  show (c.address.toNat + i % 2 ^ 32 * 4 % 2 ^ 32) % 2 ^ 32 = _
  omega

/-- Each word of an aligned chunk lies a multiple of four behind its address. -/
theorem Chunk.Aligned.toNat_of_mem_placed {c : Chunk} (h : c.Aligned) {p : UInt32 × UInt32}
    (hp : p ∈ c.placed) : ∃ i < 4, p.1.toNat = c.address.toNat + 4 * i := by
  simp only [Chunk.placed, List.mem_cons, List.not_mem_nil, or_false] at hp
  rcases hp with rfl | rfl | rfl | rfl
  · exact ⟨0, by omega, h.toNat_wordAddress (by omega)⟩
  · exact ⟨1, by omega, h.toNat_wordAddress (by omega)⟩
  · exact ⟨2, by omega, h.toNat_wordAddress (by omega)⟩
  · exact ⟨3, by omega, h.toNat_wordAddress (by omega)⟩

/-- The words of an aligned chunk are in ascending order. -/
theorem Chunk.Aligned.pairwise_placed {c : Chunk} (h : c.Aligned) :
    c.placed.Pairwise fun p q => p.1 < q.1 := by
  have ascending {i j : Nat} (hij : i < j) (hj : j < 4) : c.wordAddress i < c.wordAddress j := by
    rw [UInt32.lt_iff_toNat_lt, h.toNat_wordAddress (by omega), h.toNat_wordAddress hj]
    omega
  simp only [Chunk.placed, List.pairwise_cons, List.mem_cons, List.not_mem_nil, or_false,
    forall_eq_or_imp, forall_eq, List.Pairwise.nil, and_true, false_imp_iff, implies_true]
  exact ⟨⟨ascending (by omega) (by omega), ascending (by omega) (by omega),
    ascending (by omega) (by omega)⟩, ⟨ascending (by omega) (by omega),
    ascending (by omega) (by omega)⟩, ascending (by omega) (by omega)⟩

/-- The words of aligned chunks in ascending order ascend too. -/
theorem pairwise_placed {cs : List Chunk} (aligned : ∀ c ∈ cs, c.Aligned)
    (h : cs.Pairwise fun a b => a.address < b.address) :
    (cs.flatMap Chunk.placed).Pairwise fun p q => p.1 < q.1 := by
  refine List.pairwise_flatMap.mpr ⟨fun c hc => (aligned c hc).pairwise_placed, ?_⟩
  refine List.Pairwise.imp_of_mem (fun {a b} ha hb hab p hp q hq => ?_) h
  have haligned : a.address.toNat % 16 = 0 := aligned a ha
  have hbligned : b.address.toNat % 16 = 0 := aligned b hb
  obtain ⟨i, hi, hp⟩ := (aligned a ha).toNat_of_mem_placed hp
  obtain ⟨j, -, hq⟩ := (aligned b hb).toNat_of_mem_placed hq
  -- chunks are sixteen apart, and words at most twelve behind their chunk
  rw [UInt32.lt_iff_toNat_lt] at hab ⊢
  omega

/-- Words of aligned chunks with different addresses have different addresses. -/
theorem nodup_placed {cs : List Chunk} (aligned : ∀ c ∈ cs, c.Aligned)
    (h : cs.Pairwise fun a b => a.address ≠ b.address) :
    (cs.flatMap Chunk.placed).Pairwise fun p q => p.1 ≠ q.1 := by
  refine List.pairwise_flatMap.mpr ⟨fun c hc => ?_, ?_⟩
  · exact (aligned c hc).pairwise_placed.imp fun hlt heq => UInt32.ne_of_lt hlt heq
  · refine List.Pairwise.imp_of_mem (fun {a b} ha hb hab p hp q hq same => ?_) h
    have haligned : a.address.toNat % 16 = 0 := aligned a ha
    have hbligned : b.address.toNat % 16 = 0 := aligned b hb
    obtain ⟨i, hi, hp⟩ := (aligned a ha).toNat_of_mem_placed hp
    obtain ⟨j, hj, hq⟩ := (aligned b hb).toNat_of_mem_placed hq
    have toNat := congrArg UInt32.toNat same
    exact hab (UInt32.toNat_inj.mp (by omega))

end CanDfu
