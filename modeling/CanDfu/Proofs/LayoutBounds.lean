/-
  CanDfu.Proofs.LayoutBounds

  What an accepted memory map promises about addresses, in natural numbers: nothing wraps, and
  an image that fits, completed to whole chunks, lies beside the NVM region.  Both checks are
  exact, with one exception at the top of memory:

    * `validate_exact` : accepted are the well placed maps, but for those whose NVM region takes
      in the last byte of the address space.
    * `checkImageFits_exact` : on an accepted map, an image fits when it has room.
-/
import CanDfu.Config.Layout

namespace CanDfu.Layout

variable {l : Layout}

/-- The promises of an accepted layout. -/
structure Usable (l : Layout) : Prop where
  flash_aligned : l.flashBase.toNat % 16 = 0
  nvm_aligned : l.nvmBase.toNat % 16 = 0
  size_pos : 0 < l.nvmSize.toNat
  size_aligned : l.nvmSize.toNat % 16 = 0
  nvm_in_space : l.nvmEnd < addressSpace
  base_outside : l.flashBase.toNat < l.nvmBase.toNat ∨ l.nvmEnd ≤ l.flashBase.toNat

/-- A word is a multiple in its own arithmetic exactly when it is one as a number. -/
theorem mod_eq_zero_iff (a n : UInt32) : a % n = 0 ↔ a.toNat % n.toNat = 0 := by
  rw [← UInt32.toNat_inj, UInt32.toNat_mod]
  rfl

/-- A region inside the address space ends where its base and size say. -/
theorem toNat_nvmEnd (h : l.nvmEnd < addressSpace) : (l.nvmBase + l.nvmSize).toNat = l.nvmEnd := by
  rw [UInt32.toNat_add, nvmEnd]
  exact Nat.mod_eq_of_lt h

/-- The NVM region is made of whole chunks. -/
theorem Usable.sixteen_mul_nvmChunks (usable : l.Usable) : 16 * l.nvmChunks = l.nvmSize.toNat := by
  have whole := usable.size_aligned
  rw [nvmChunks, chunkBytes]
  omega

/-! ## Which maps are accepted -/

/-- The check of alignment, in natural numbers. -/
theorem not_misaligned_iff (a : UInt32) : ¬ a % 16 ≠ 0 ↔ a.toNat % 16 = 0 :=
  Decidable.not_not.trans (mod_eq_zero_iff a 16)

/-- The check of the region's size, in natural numbers. -/
theorem not_invalidSize_iff (size : UInt32) :
    ¬ (size = 0 ∨ size % 16 ≠ 0) ↔ 0 < size.toNat ∧ size.toNat % 16 = 0 := by
  rw [not_or, not_misaligned_iff, Nat.pos_iff_ne_zero, ← UInt32.toNat_inj]
  exact Iff.rfl

/-- The check of where images start, in natural numbers. -/
theorem not_overlapping_iff (space : l.nvmEnd < addressSpace) :
    ¬ (l.nvmBase ≤ l.flashBase ∧ l.flashBase < l.nvmBase + l.nvmSize)
      ↔ l.flashBase.toNat < l.nvmBase.toNat ∨ l.nvmEnd ≤ l.flashBase.toNat := by
  rw [UInt32.le_iff_toNat_le, UInt32.lt_iff_toNat_lt, toNat_nvmEnd space]
  omega

/-- A layout is accepted exactly when it is usable. -/
theorem validate_eq_ok_iff : l.validate = .ok () ↔ l.Usable := by
  simp only [validate, check_eq_ok_iff, not_misaligned_iff, not_invalidSize_iff, Nat.not_le]
  constructor
  · rintro ⟨flash_aligned, nvm_aligned, ⟨size_pos, size_aligned⟩, space, outside, -⟩
    exact ⟨flash_aligned, nvm_aligned, size_pos, size_aligned, space,
      (not_overlapping_iff space).mp outside⟩
  · intro usable
    exact ⟨usable.flash_aligned, usable.nvm_aligned, ⟨usable.size_pos, usable.size_aligned⟩,
      usable.nvm_in_space, (not_overlapping_iff usable.nvm_in_space).mpr usable.base_outside, trivial⟩

theorem usable_of_validate (h : l.validate = .ok ()) : l.Usable :=
  validate_eq_ok_iff.mp h

/-- A memory map that can be meant: everything on chunk boundaries, an NVM region of whole chunks
in a 32-bit address space, and an image that does not start inside the region. -/
structure WellPlaced (l : Layout) : Prop where
  flash_aligned : 16 ∣ l.flashBase.toNat
  nvm_aligned : 16 ∣ l.nvmBase.toNat
  size_pos : 0 < l.nvmSize.toNat
  size_aligned : 16 ∣ l.nvmSize.toNat
  last_in_space : l.nvmBase.toNat + l.nvmSize.toNat - 1 ≤ 0xFFFFFFFF
  base_outside : ¬ (l.nvmBase.toNat ≤ l.flashBase.toNat ∧
    l.flashBase.toNat < l.nvmBase.toNat + l.nvmSize.toNat)

/-- The usable layouts are the well placed ones whose region ends before the address space does. -/
theorem usable_iff_wellPlaced : l.Usable ↔ l.WellPlaced ∧ l.nvmEnd ≠ addressSpace := by
  rw [nvmEnd, addressSpace]
  constructor
  · intro usable
    have space := usable.nvm_in_space
    have outside := usable.base_outside
    rw [nvmEnd] at space outside
    rw [addressSpace] at space
    refine ⟨⟨Nat.dvd_of_mod_eq_zero usable.flash_aligned,
      Nat.dvd_of_mod_eq_zero usable.nvm_aligned, usable.size_pos,
      Nat.dvd_of_mod_eq_zero usable.size_aligned, by omega, by omega⟩, by omega⟩
  · rintro ⟨placed, top⟩
    have last := placed.last_in_space
    have outside := placed.base_outside
    refine ⟨Nat.mod_eq_zero_of_dvd placed.flash_aligned,
      Nat.mod_eq_zero_of_dvd placed.nvm_aligned, placed.size_pos,
      Nat.mod_eq_zero_of_dvd placed.size_aligned, ?_, ?_⟩
    · rw [nvmEnd, addressSpace]
      omega
    · rw [nvmEnd]
      omega

/-- Accepted are exactly the well placed layouts whose NVM region does not end at the very top of
the address space.  A well placed layout with such a region is refused as out of range. -/
theorem validate_exact (l : Layout) :
    (l.validate = .ok () ↔ l.WellPlaced ∧ l.nvmEnd ≠ addressSpace) ∧
    (l.WellPlaced → l.nvmEnd = addressSpace →
      l.validate = .error (.nvmOutOfRange l.nvmBase l.nvmSize)) := by
  refine ⟨validate_eq_ok_iff.trans usable_iff_wellPlaced, fun placed top => ?_⟩
  have flash_aligned := (not_misaligned_iff _).mpr (Nat.mod_eq_zero_of_dvd placed.flash_aligned)
  have nvm_aligned := (not_misaligned_iff _).mpr (Nat.mod_eq_zero_of_dvd placed.nvm_aligned)
  have size := (not_invalidSize_iff _).mpr
    ⟨placed.size_pos, Nat.mod_eq_zero_of_dvd placed.size_aligned⟩
  rw [validate, if_neg flash_aligned, if_neg nvm_aligned, if_neg size,
    if_pos (Nat.le_of_eq top.symm)]

/-- A region of one chunk may lie right below the topmost one; 64 KiB up to the top are refused. -/
theorem validate_exact_topmost :
    (⟨0x1000, 0xFFFFFFE0, 16⟩ : Layout).validate = .ok () ∧
    (⟨0x1000, 0xFFFF0000, 0x10000⟩ : Layout).validate
      = .error (.nvmOutOfRange 0xFFFF0000 0x10000) := by
  constructor
  · exact (validate_exact _).1.mpr ⟨⟨by decide, by decide, by decide, by decide, by decide,
      by decide⟩, by decide⟩
  · exact (validate_exact _).2 ⟨by decide, by decide, by decide, by decide, by decide, by decide⟩
      (by decide)

/-- The topmost chunk of the address space may hold an image, but not the NVM region. -/
theorem topmost_region_refused :
    (⟨0x1000, 0xFFFFFFF0, 16⟩ : Layout).WellPlaced ∧
    (⟨0x1000, 0xFFFFFFF0, 16⟩ : Layout).validate = .error (.nvmOutOfRange 0xFFFFFFF0 16) ∧
    (⟨0xFFFFFFF0, 0x1000, 16⟩ : Layout).validate = .ok () ∧
    (⟨0xFFFFFFF0, 0x1000, 16⟩ : Layout).checkImageFits 16 = .ok () :=
  ⟨⟨by decide, by decide, by decide, by decide, by decide, by decide⟩, rfl, rfl, rfl⟩

/-! ## Images on an accepted map -/

/-- The number of bytes an image of some size takes up in flash. -/
def paddedSize (size : Nat) : Nat := (size + 15) / chunkBytes * chunkBytes

/-- Images are refused for their size, and for nothing else. -/
theorem checkImageFits_of_lt {size : Nat} (h : l.maxImageSize < paddedSize size) :
    l.checkImageFits size = .error (.imageTooLarge size l.flashBase l.maxImageSize) :=
  if_pos h

theorem checkImageFits_of_le {size : Nat} (h : paddedSize size ≤ l.maxImageSize) :
    l.checkImageFits size = .ok () :=
  if_neg (Nat.not_lt_of_le h)

/-- Where an image of some size lies: in the address space, and beside the NVM region. -/
structure Room (l : Layout) (size : Nat) : Prop where
  in_space : l.flashBase.toNat + paddedSize size ≤ addressSpace
  beside : l.flashBase.toNat + paddedSize size ≤ l.nvmBase.toNat ∨ l.nvmEnd ≤ l.flashBase.toNat

theorem checkImageFits_eq_ok_iff {size : Nat} :
    l.checkImageFits size = .ok () ↔ paddedSize size ≤ l.maxImageSize := by
  refine ⟨fun h => Nat.le_of_not_lt fun large => ?_, checkImageFits_of_le⟩
  cases h.symm.trans (checkImageFits_of_lt large)

/-- On a usable layout an image has room exactly when its size is within the limit. -/
theorem Usable.le_maxImageSize_iff (usable : l.Usable) {size : Nat} :
    paddedSize size ≤ l.maxImageSize ↔ l.Room size := by
  have flash := l.flashBase.toNat_lt
  have space := usable.nvm_in_space
  have outside := usable.base_outside
  simp only [maxImageSize, UInt32.lt_iff_toNat_lt]
  rw [nvmEnd, addressSpace] at space
  rw [nvmEnd] at outside
  -- the limit is the NVM base for an image below the region, the end of all addresses above it
  split
  · constructor
    · intro enough
      exact ⟨by rw [addressSpace]; omega, .inl (by omega)⟩
    · rintro ⟨-, beside⟩
      rw [nvmEnd] at beside
      omega
  · constructor
    · intro enough
      rw [addressSpace] at enough
      exact ⟨by rw [addressSpace]; omega, .inr (by rw [nvmEnd]; omega)⟩
    · rintro ⟨in_space, -⟩
      omega

theorem room_of_fits {size : Nat} (usable : l.Usable) (h : l.checkImageFits size = .ok ()) :
    l.Room size :=
  usable.le_maxImageSize_iff.mp (checkImageFits_eq_ok_iff.mp h)

/-! ## Which images fit -/

/-- The size in flash is the least number of whole chunks that holds an image. -/
theorem paddedSize_least (size : Nat) :
    16 ∣ paddedSize size ∧ size ≤ paddedSize size ∧
      ∀ whole, 16 ∣ whole → size ≤ whole → paddedSize size ≤ whole := by
  rw [paddedSize, chunkBytes]
  refine ⟨Nat.dvd_mul_left .., by omega, ?_⟩
  rintro whole ⟨chunks, rfl⟩ holds
  omega

theorem paddedSize_mono {size larger : Nat} (h : size ≤ larger) :
    paddedSize size ≤ paddedSize larger :=
  (paddedSize_least size).2.2 _ (paddedSize_least larger).1
    (Nat.le_trans h (paddedSize_least larger).2.1)

/-- Whether an address lies in an image of some size, completed to whole chunks. -/
def InImage (l : Layout) (size : Nat) (a : UInt32) : Prop :=
  l.flashBase.toNat ≤ a.toNat ∧ a.toNat < l.flashBase.toNat + paddedSize size

/-- Whether an address lies in the NVM region. -/
def InNvm (l : Layout) (a : UInt32) : Prop :=
  l.nvmBase.toNat ≤ a.toNat ∧ a.toNat < l.nvmEnd

/-- On a usable layout an image lies beside the region exactly when the two share no address. -/
theorem Usable.room_iff_apart (usable : l.Usable) {size : Nat} :
    l.Room size ↔ l.flashBase.toNat + paddedSize size ≤ addressSpace ∧
      ∀ a, ¬ (l.InImage size a ∧ l.InNvm a) := by
  have region := usable.size_pos
  have outside := usable.base_outside
  rw [nvmEnd] at outside
  constructor
  · rintro ⟨in_space, beside⟩
    refine ⟨in_space, ?_⟩
    rintro a ⟨⟨from_flash, to_flash⟩, from_nvm, to_nvm⟩
    omega
  · rintro ⟨in_space, apart⟩
    refine ⟨in_space, ?_⟩
    -- an image from below that reaches into the region takes up its first address
    have first := apart l.nvmBase
    simp only [InImage, InNvm] at first
    rw [nvmEnd] at first ⊢
    omega

/-- On an accepted layout an image fits exactly when, completed to whole chunks, it ends within
the address space and shares no address with the NVM region.  What is smaller than an image that
fits does so too. -/
theorem checkImageFits_exact (l : Layout) (valid : l.validate = .ok ()) (size : Nat) :
    (l.checkImageFits size = .ok () ↔
      l.flashBase.toNat + paddedSize size ≤ addressSpace ∧
        ∀ a, ¬ (l.InImage size a ∧ l.InNvm a)) ∧
    (l.checkImageFits size = .ok () → ∀ smaller ≤ size, l.checkImageFits smaller = .ok ()) := by
  have usable := usable_of_validate valid
  refine ⟨?_, fun fits smaller le => ?_⟩
  · exact checkImageFits_eq_ok_iff.trans (usable.le_maxImageSize_iff.trans usable.room_iff_apart)
  · exact checkImageFits_eq_ok_iff.mpr
      (Nat.le_trans (paddedSize_mono le) (checkImageFits_eq_ok_iff.mp fits))

/-- The default layout takes an image up to the region, and no byte more; above a region that lies
low, an image may reach the end of the address space. -/
theorem checkImageFits_exact_edges :
    (∀ a, ¬ (InImage {} 0x1CFF1 a ∧ InNvm {} a)) ∧
    ({} : Layout).checkImageFits 0x1D001 ≠ .ok () ∧
    (⟨0xFFFFFFE0, 0x1000, 16⟩ : Layout).checkImageFits 17 = .ok () := by
  have low : (⟨0xFFFFFFE0, 0x1000, 16⟩ : Layout).validate = .ok () := rfl
  refine ⟨((checkImageFits_exact {} rfl 0x1CFF1).1.mp rfl).2, fun fits => ?_, ?_⟩
  · refine ((checkImageFits_exact {} rfl 0x1D001).1.mp fits).2 0x1E000 ⟨?_, ?_⟩
    · exact ⟨by decide, by decide⟩
    · exact ⟨by decide, by decide⟩
  · refine (checkImageFits_exact _ low 32).2 ?_ 17 (by decide)
    refine (checkImageFits_exact _ low 32).1.mpr ⟨by decide, ?_⟩
    rintro a ⟨⟨from_flash, -⟩, -, to_nvm⟩
    exact absurd (Nat.le_trans from_flash (Nat.le_of_lt to_nvm)) (by decide)

end CanDfu.Layout
