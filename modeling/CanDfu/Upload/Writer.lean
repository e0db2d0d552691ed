/-
  CanDfu.Upload.Writer

  Writing one chunk: its words are staged in the scratch registers and committed, and the
  checksum that comes back is compared with the chunk's own.  Nothing is retried.
-/
import CanDfu.Chunk
import CanDfu.Device

namespace CanDfu

/-- How chunks are written to a device. -/
structure Writer where
  form : CommandForm
  /-- Pause after each scratch write, in microseconds. -/
  settle : Nat := 0
  deriving DecidableEq, Repr

namespace Writer

variable {σ : Type}

/-- Stages one word and lets it settle. -/
def stage (w : Writer) (d : Device σ) (index : UInt8) (value : UInt32) :
    Routine Entry σ DfuError Unit := do
  (d.issue (.scratch index value)).mapError .session
  if w.settle ≠ 0 then Routine.emit (.pause w.settle)

/-- Stages a chunk, commits it, and returns the confirmed checksum. -/
def write (w : Writer) (d : Device σ) (c : Chunk) : Routine Entry σ DfuError UInt32 := do
  w.stage d 0 c.words.w0
  w.stage d 1 c.words.w1
  w.stage d 2 c.words.w2
  w.stage d 3 c.words.w3
  let actual ← (d.issue (.commit c.address w.form.seed)).mapError .session
  if actual = c.checksum then pure actual
  else Routine.fail (.checksumMismatch c.address c.checksum actual)

end Writer

end CanDfu
