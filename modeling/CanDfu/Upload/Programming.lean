/-
  CanDfu.Upload.Programming

  Erasing the whole device and programming an image from the flash base on.
-/
import CanDfu.Image
import CanDfu.Upload.Writer

namespace CanDfu.Programming

variable {σ : Type}

/-- Erases everything, the NVM region too.  Any status but zero is a failure. -/
def erase (w : Writer) (d : Device σ) : Routine Entry σ DfuError Unit := do
  let status ← (d.issue (.erase w.form.seed)).mapError .session
  if status = 0 then Routine.emit (.ofRecord .info "Flash erased" [])
  else Routine.fail (.eraseFailure status)

/-- Writes pieces of an image of `total` bytes in order, reporting each one. -/
def writePieces (w : Writer) (d : Device σ) (total : Nat) :
    List Piece → Routine Entry σ DfuError Unit
  | [] => pure ()
  | piece :: rest => do
    let checksum ← w.write d piece.chunk
    Routine.emit (.event (.chunkCommitted piece.chunk.address checksum))
    Routine.emit (.event (.progress .program piece.consumed total))
    writePieces w d total rest

/-- Programs an image and returns the number of its chunks.  The first failure ends it. -/
def program (w : Writer) (d : Device σ) (base : UInt32) (image : Image) :
    Routine Entry σ DfuError Nat := do
  writePieces w d image.size (image.pieces base)
  Routine.emit (.ofRecord .info "Firmware programmed"
    [("chunks", s!"{image.chunkCount}"), ("base", Hex.address base)])
  pure image.chunkCount

end CanDfu.Programming
