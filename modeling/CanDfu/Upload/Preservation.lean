/-
  CanDfu.Upload.Preservation

  Keeping the NVM region across an erase: it is read beforehand and programmed back afterwards.
  Chunks that are erased throughout are left out, since they already hold what they should.
-/
import CanDfu.Config.Layout
import CanDfu.Upload.Writer

namespace CanDfu

/-- The bytes of an NVM region that held something. -/
structure NvmBackup where
  bytes : List UInt8
  deriving DecidableEq, Repr

/-- A byte string in slices of a chunk each, with the address of each slice. -/
def chunkSlices (base : UInt32) (bytes : List UInt8) : List (UInt32 × List UInt8) :=
  if _h : bytes = [] then []
  else (base, bytes.take chunkBytes) :: chunkSlices (base + 16) (bytes.drop chunkBytes)
termination_by bytes.length
decreasing_by
  have := List.length_pos_iff.mpr _h
  rw [List.length_drop, chunkBytes]
  omega

/-- The chunks of a backup that hold something, in address order. -/
def NvmBackup.dirtyChunks (b : NvmBackup) (base : UInt32) : List Chunk :=
  ((chunkSlices base b.bytes).filter fun (_, slice) => !isErased slice).map
    fun (address, slice) => Chunk.ofBytes address slice

namespace Preservation

variable {σ : Type}

/-- Reads `count` words from `address` on, as bytes. -/
def readWords (d : Device σ) (address : UInt32) : Nat → Routine Entry σ DfuError (List UInt8)
  | 0 => pure []
  | count + 1 => do
    let word ← (d.issue (.read address)).mapError .session
    let rest ← readWords d (address + 4) count
    pure (LittleEndian.bytes word ++ rest)

/-- Reads `count` words that follow the first `done` bytes of a region of `total` bytes, reporting
progress after each whole chunk. -/
def readRegion (d : Device σ) (base : UInt32) (total done count : Nat) :
    Routine Entry σ DfuError (List UInt8) :=
  if count = 0 then pure []
  else do
    let head ← readWords d (base + UInt32.ofNat done) (min 4 count)
    if 4 ≤ count then
      Routine.emit (.event (.progress .readNvm (done + chunkBytes) total))
    let rest ← readRegion d base total (done + chunkBytes) (count - 4)
    pure (head ++ rest)
termination_by count

/-- Reads the NVM region.  A blank region needs no backup. -/
def backup (d : Device σ) (l : Layout) : Routine Entry σ DfuError (Option NvmBackup) := do
  let bytes ← readRegion d l.nvmBase l.nvmSize.toNat 0 l.nvmWords
  if isErased bytes then do
    Routine.emit (.ofRecord .info "NVM region is blank, nothing to preserve" [])
    pure none
  else do
    Routine.emit (.ofRecord .debug "NVM region backed up" [("bytes", s!"{bytes.length}")])
    pure (some ⟨bytes⟩)

/-- Writes chunks in order, reporting for each where in the region it ends. -/
def writeChunks (w : Writer) (d : Device σ) (base : UInt32) (total : Nat) :
    List Chunk → Routine Entry σ DfuError Unit
  | [] => pure ()
  | chunk :: rest => do
    let checksum ← w.write d chunk
    Routine.emit (.event (.chunkCommitted chunk.address checksum))
    Routine.emit (.event (.progress .writeNvm (chunk.address - base + 16).toNat total))
    writeChunks w d base total rest

/-- Programs a backup into the NVM region and returns the number of chunks written. -/
def restore (w : Writer) (d : Device σ) (l : Layout) :
    Option NvmBackup → Routine Entry σ DfuError Nat
  | none => do
    Routine.emit (.ofRecord .debug "No NVM backup to restore" [])
    pure 0
  | some b => do
    let dirty := b.dirtyChunks l.nvmBase
    writeChunks w d l.nvmBase b.bytes.length dirty
    Routine.emit (.ofRecord .info "NVM region restored"
      [("chunks", s!"{dirty.length}"), ("region_chunks", s!"{l.nvmChunks}")])
    pure dirty.length

end Preservation

end CanDfu
