/-
  CanDfu.Proofs.UploadRegions

  Where an upload writes: the chunks of the image, and beside them those of the NVM region.  All
  of them are aligned, and no two have the same address, so no word is programmed twice.
-/
import CanDfu.Proofs.FlashContents

namespace CanDfu

/-! ## Chunks and words -/

/-- The bytes of an image as flash holds them, completed with zeros to whole chunks. -/
def Image.padded (i : Image) : List UInt8 :=
  i.bytes ++ List.replicate (Layout.paddedSize i.size - i.size) 0

/-- The chunks an upload writes to a device with some flash contents. -/
def chunksToWrite (l : Layout) (image : Image) (f : Flash) : List Chunk :=
  image.chunks l.flashBase ++ (NvmBackup.mk (f.dump l.nvmBase l.nvmSize.toNat)).dirtyChunks l.nvmBase

/-- The words of the NVM region, when it holds some quads. -/
def nvmPlaced (l : Layout) (qs : List Quad) : List (UInt32 × UInt32) :=
  (chunksFrom l.nvmBase qs).flatMap Chunk.placed

/-- The words of an image in flash. -/
def imagePlaced (l : Layout) (image : Image) : List (UInt32 × UInt32) :=
  (image.chunks l.flashBase).flatMap Chunk.placed

variable {l : Layout} {image : Image} {qs : List Quad}

/-! ## Addresses -/

/-- A word of an aligned chunk lies on a word boundary inside the chunk. -/
theorem toNat_of_mem_flatMap_placed {cs : List Chunk} (aligned : ∀ c ∈ cs, c.Aligned)
    {p : UInt32 × UInt32} (hp : p ∈ cs.flatMap Chunk.placed) :
    ∃ c ∈ cs, p.1.toNat % 4 = 0 ∧ c.address.toNat ≤ p.1.toNat ∧
      p.1.toNat < c.address.toNat + 16 := by
  obtain ⟨c, hc, hp⟩ := List.mem_flatMap.mp hp
  have here : c.address.toNat % 16 = 0 := aligned c hc
  obtain ⟨i, hi, address⟩ := (aligned c hc).toNat_of_mem_placed hp
  exact ⟨c, hc, by omega, by omega, by omega⟩

section Laid

variable {base : UInt32} (aligned : base.toNat % 16 = 0)
  (space : base.toNat + Layout.paddedSize image.size ≤ addressSpace)

include space in
/-- No two chunks of an image have the same address. -/
theorem Image.chunks_pairwise : (image.chunks base).Pairwise fun a b => a.address ≠ b.address :=
  (pairwise_chunksFrom (Image.length_in_space space)).imp UInt32.ne_of_lt

include aligned space

/-- A chunk of an image lies inside it, wherever the image is laid out. -/
theorem Image.chunks_range {c : Chunk} (hc : c ∈ image.chunks base) :
    c.Aligned ∧ base.toNat ≤ c.address.toNat ∧
      c.address.toNat + 16 ≤ base.toNat + Layout.paddedSize image.size := by
  have inside := Image.length_in_space space
  obtain ⟨k, hk, address⟩ := mem_chunksFrom inside hc
  refine ⟨aligned_of_mem_chunksFrom aligned inside hc, by omega, ?_⟩
  rw [Image.size, ← length_quads, chunkBytes]
  omega

/-- A word of an image lies on a word boundary inside it. -/
theorem Image.words_range {p : UInt32 × UInt32}
    (hp : p ∈ (image.chunks base).flatMap Chunk.placed) :
    p.1.toNat % 4 = 0 ∧ base.toNat ≤ p.1.toNat ∧
      p.1.toNat < base.toNat + Layout.paddedSize image.size := by
  have whole : ∀ c ∈ image.chunks base, c.Aligned :=
    fun _ hc => (Image.chunks_range aligned space hc).1
  obtain ⟨c, hc, boundary, low, high⟩ := toNat_of_mem_flatMap_placed whole hp
  obtain ⟨-, first, last⟩ := Image.chunks_range aligned space hc
  exact ⟨boundary, by omega, by omega⟩

end Laid

/-- An image is dumped from flash exactly when flash holds its words. -/
theorem Image.dump_eq_padded_iff_holds (image : Image) (base : UInt32) (f : Flash) :
    f.dump base (Layout.paddedSize image.size) = image.padded
      ↔ f.Holds ((image.chunks base).flatMap Chunk.placed) := by
  have size : Layout.paddedSize image.size = chunkBytes * (quads image.bytes).length := by
    rw [Image.size, ← length_quads, Nat.mul_comm]
  have padded : image.padded = (quads image.bytes).flatMap Quad.toBytes :=
    (flatMap_toBytes_quads image.bytes).symm
  rw [size, padded]
  exact Flash.dump_eq_iff_holds f base (quads image.bytes)

/-- A chunk of the image lies inside it. -/
theorem Layout.Room.image_range (room : l.Room image.size) (usable : l.Usable) {c : Chunk}
    (hc : c ∈ image.chunks l.flashBase) :
    c.Aligned ∧ l.flashBase.toNat ≤ c.address.toNat ∧
      c.address.toNat + 16 ≤ l.flashBase.toNat + Layout.paddedSize image.size :=
  Image.chunks_range usable.flash_aligned room.in_space hc

section Region

variable (usable : l.Usable) (read : qs.length = l.nvmChunks)

include usable read

/-- A chunk of the NVM region lies inside it. -/
theorem Layout.Usable.region_range {c : Chunk} (hc : c ∈ chunksFrom l.nvmBase qs) :
    c.Aligned ∧ l.nvmBase.toNat ≤ c.address.toNat ∧ c.address.toNat + 16 ≤ l.nvmEnd := by
  obtain ⟨k, hk, address⟩ := mem_chunksFrom (usable.region_in_space read) hc
  refine ⟨aligned_of_mem_chunksFrom usable.nvm_aligned (usable.region_in_space read) hc,
    by omega, ?_⟩
  have := usable.length_region read
  rw [Layout.nvmEnd]
  omega

/-- No two chunks of the NVM region have the same address. -/
theorem Layout.Usable.region_pairwise :
    (chunksFrom l.nvmBase qs).Pairwise fun a b => a.address ≠ b.address :=
  (pairwise_chunksFrom (usable.region_in_space read)).imp UInt32.ne_of_lt

/-- The NVM region is dumped as the bytes of some quads exactly when it holds them. -/
theorem Layout.Usable.dump_region_iff (f : Flash) :
    f.dump l.nvmBase l.nvmSize.toNat = qs.flatMap Quad.toBytes ↔ f.Holds (nvmPlaced l qs) := by
  rw [← usable.length_region read]
  exact f.dump_eq_iff_holds l.nvmBase qs

end Region

/-- What is known of an upload: its layout is usable, its image has room, and its NVM region is
as long as some quads. -/
structure Fits (l : Layout) (image : Image) (qs : List Quad) : Prop where
  usable : l.Usable
  room : l.Room image.size
  read : qs.length = l.nvmChunks

theorem Fits.length_nvm (h : Fits l image qs) : 16 * qs.length = l.nvmSize.toNat :=
  h.usable.length_region h.read

theorem Fits.nvm_in_space (h : Fits l image qs) :
    l.nvmBase.toNat + 16 * qs.length ≤ addressSpace :=
  h.usable.region_in_space h.read

/-- A chunk of the NVM region lies inside it. -/
theorem Fits.nvm_range (h : Fits l image qs) {c : Chunk} (hc : c ∈ chunksFrom l.nvmBase qs) :
    c.Aligned ∧ l.nvmBase.toNat ≤ c.address.toNat ∧ c.address.toNat + 16 ≤ l.nvmEnd :=
  h.usable.region_range h.read hc

theorem Fits.aligned (h : Fits l image qs) {c : Chunk}
    (hc : c ∈ image.chunks l.flashBase ++ chunksFrom l.nvmBase qs) : c.Aligned := by
  rcases List.mem_append.mp hc with hc | hc
  · exact (h.room.image_range h.usable hc).1
  · exact (h.nvm_range hc).1

/-- No two chunks of the image and the NVM region have the same address. -/
theorem Fits.pairwise (h : Fits l image qs) :
    (image.chunks l.flashBase ++ chunksFrom l.nvmBase qs).Pairwise
      fun a b => a.address ≠ b.address := by
  refine List.pairwise_append.mpr ⟨?_, ?_, fun a ha b hb same => ?_⟩
  · exact Image.chunks_pairwise h.room.in_space
  · exact h.usable.region_pairwise h.read
  · have first := h.room.image_range h.usable ha
    have second := h.nvm_range hb
    have beside := h.room.beside
    rw [same] at first
    omega

theorem dirtyChunks_sublist (base : UInt32) (qs : List Quad) :
    (dirtyChunks base qs).Sublist (chunksFrom base qs) :=
  List.filter_sublist

/-- The chunks that are written are among those of the image and the region. -/
theorem writes_sublist (l : Layout) (image : Image) (qs : List Quad) :
    (image.chunks l.flashBase ++ dirtyChunks l.nvmBase qs).Sublist
      (image.chunks l.flashBase ++ chunksFrom l.nvmBase qs) :=
  (List.Sublist.refl _).append (dirtyChunks_sublist ..)

theorem Fits.writes_aligned (h : Fits l image qs) {c : Chunk}
    (hc : c ∈ image.chunks l.flashBase ++ dirtyChunks l.nvmBase qs) : c.Aligned :=
  h.aligned ((writes_sublist l image qs).subset hc)

theorem Fits.writes_pairwise (h : Fits l image qs) :
    (image.chunks l.flashBase ++ dirtyChunks l.nvmBase qs).Pairwise
      fun a b => a.address ≠ b.address :=
  h.pairwise.sublist (writes_sublist l image qs)

theorem chunksToWrite_eq {f : Flash} (h : Fits l image qs) (held : f.Holds (nvmPlaced l qs)) :
    chunksToWrite l image f = image.chunks l.flashBase ++ dirtyChunks l.nvmBase qs := by
  rw [chunksToWrite, (h.usable.dump_region_iff h.read f).mpr held, dirtyChunks_eq]
  rfl

theorem Layout.Room.image_words_aligned (room : l.Room image.size) (usable : l.Usable)
    {p : UInt32 × UInt32} (hp : p ∈ imagePlaced l image) : p.1.toNat % 4 = 0 :=
  (Image.words_range usable.flash_aligned room.in_space hp).1

/-- A word of the NVM region lies on a word boundary inside it. -/
theorem Layout.Usable.inNvm_of_mem (usable : l.Usable) (read : qs.length = l.nvmChunks)
    {p : UInt32 × UInt32} (hp : p ∈ nvmPlaced l qs) : l.InNvm p.1 ∧ p.1.toNat % 4 = 0 := by
  have aligned : ∀ c ∈ chunksFrom l.nvmBase qs, c.Aligned :=
    fun _ hc => (usable.region_range read hc).1
  obtain ⟨c, hc, whole, low, high⟩ := toNat_of_mem_flatMap_placed aligned hp
  have range := usable.region_range read hc
  exact ⟨⟨by omega, by omega⟩, whole⟩

end CanDfu
