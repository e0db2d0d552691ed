/-
  CanDfu.Config.Layout

  The memory map of a device: where an image starts, and the NVM region that holds its settings.
  A layout is usable when both start on a chunk boundary, the region is a whole number of chunks
  inside the address space, and the image does not start inside the region.
-/
import CanDfu.Chunk
import CanDfu.Config.Error

namespace CanDfu

/-- Bytes of the address space. -/
def addressSpace : Nat := 0x100000000

/-- The memory map of a device. -/
structure Layout where
  /-- Address of the first byte of an image. -/
  flashBase : UInt32 := 0x1000
  /-- Address of the NVM region. -/
  nvmBase : UInt32 := 0x1E000
  /-- Size of the NVM region in bytes. -/
  nvmSize : UInt32 := 8192
  deriving DecidableEq, Repr

namespace Layout

/-- The end of the NVM region, one past its last byte. -/
def nvmEnd (l : Layout) : Nat := l.nvmBase.toNat + l.nvmSize.toNat

/-- Accepts the usable layouts. -/
def validate (l : Layout) : Except ConfigError Unit :=
  if l.flashBase % 16 ≠ 0 then .error (.misaligned "flash_base" l.flashBase)
  else if l.nvmBase % 16 ≠ 0 then .error (.misaligned "nvm_base" l.nvmBase)
  else if l.nvmSize = 0 ∨ l.nvmSize % 16 ≠ 0 then .error (.invalidNvmSize l.nvmSize)
  else if addressSpace ≤ l.nvmEnd then .error (.nvmOutOfRange l.nvmBase l.nvmSize)
  else if l.nvmBase ≤ l.flashBase ∧ l.flashBase < l.nvmBase + l.nvmSize then
    .error (.nvmOverlapsFlashBase l.nvmBase (l.nvmBase + l.nvmSize) l.flashBase)
  else .ok ()

/-- Number of chunks in the NVM region. -/
def nvmChunks (l : Layout) : Nat := l.nvmSize.toNat / chunkBytes

/-- Number of words in the NVM region. -/
def nvmWords (l : Layout) : Nat := l.nvmSize.toNat / 4

/-- Bytes between the flash base and the next thing above it: the NVM region, or the end of the
address space when the region lies below. -/
def maxImageSize (l : Layout) : Nat :=
  (if l.flashBase < l.nvmBase then l.nvmBase.toNat else addressSpace) - l.flashBase.toNat

/-- Accepts the image sizes that, completed to whole chunks, leave the NVM region alone. -/
def checkImageFits (l : Layout) (size : Nat) : Except ConfigError Unit :=
  if l.maxImageSize < (size + 15) / chunkBytes * chunkBytes then
    .error (.imageTooLarge size l.flashBase l.maxImageSize)
  else .ok ()

end Layout

end CanDfu
