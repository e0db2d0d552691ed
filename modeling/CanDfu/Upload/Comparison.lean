/-
  CanDfu.Upload.Comparison

  Comparing an image with flash, word by word, up to the first difference.
-/
import CanDfu.Device
import CanDfu.Image

namespace CanDfu

/-- How an image compares with flash. -/
inductive Comparison
  | identical
  /-- The first word that differs. -/
  | differs (address expected actual : UInt32)
  deriving DecidableEq, Repr

namespace Comparison

/-- Whether flash holds the image. -/
def isIdentical : Comparison → Bool
  | identical => true
  | differs .. => false

/-- A difference as a failure. -/
def verified : Comparison → Except DfuError Unit
  | identical => .ok ()
  | differs address expected actual => .error (.verifyMismatch address expected actual)

variable {σ : Type}

/-- Reads words until one differs from what is expected of it. -/
def compareWords (d : Device σ) :
    List (UInt32 × UInt32) → Routine Entry σ DfuError Comparison
  | [] => pure identical
  | (address, expected) :: rest => do
    let actual ← (d.issue (.read address)).mapError .session
    if actual = expected then compareWords d rest
    else do
      Routine.emit (.ofRecord .debug "Flash differs from image"
        [("address", Hex.address address), ("expected", Hex.address expected),
          ("actual", Hex.address actual)])
      pure (differs address expected actual)

/-- Compares pieces of an image of `total` bytes, reporting progress after each one. -/
def comparePieces (d : Device σ) (activity : Activity) (total : Nat) :
    List Piece → Routine Entry σ DfuError Comparison
  | [] => pure identical
  | piece :: rest => do
    match ← compareWords d piece.chunk.placed with
    | differs address expected actual => pure (differs address expected actual)
    | identical => do
      Routine.emit (.event (.progress activity piece.consumed total))
      comparePieces d activity total rest

/-- Compares an image with flash from `base` on.  It only reads. -/
def ofImage (d : Device σ) (base : UInt32) (image : Image) (activity : Activity) :
    Routine Entry σ DfuError Comparison :=
  comparePieces d activity image.size (image.pieces base)

end Comparison

end CanDfu
