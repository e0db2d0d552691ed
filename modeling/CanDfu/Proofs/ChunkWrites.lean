/-
  CanDfu.Proofs.ChunkWrites

  Writing chunks one after the other, and nothing else.  Programming an image and restoring a
  backup both come to this loop once their reports are left aside: they end with the same failure,
  if any, and leave the device in the same state.

    * `Outcome.ending` : the result and the final state, whatever was logged.
    * `restore_endsAs`, `program_endsAs` : the two loops, each as `Writer.writeAll`.
    * `write_ends` : how writing one chunk ends, from the answers of the device alone.
-/
import CanDfu.Proofs.SimulatedRun

namespace CanDfu

/-! ## Routines up to their logs -/

section Ending

variable {ω σ ε α β : Type}

/-- How a routine ended: its result, and the state it left. -/
def Outcome.ending (o : Outcome ω σ ε α) : Except ε α × σ := (o.result, o.state)

namespace Routine

variable {r r' : Routine ω σ ε α} {f f' : α → Routine ω σ ε β} {s s' : σ}

/-- The two routines end alike from every state. -/
def EndsAs (r r' : Routine ω σ ε α) : Prop := ∀ s, (r s).ending = (r' s).ending

theorem EndsAs.refl (r : Routine ω σ ε α) : r.EndsAs r := fun _ => rfl

/-- After a success, a routine ends as its rest does from there. -/
theorem ending_of_ok {a : α} (h : (r s).ending = (.ok a, s')) :
    ((r >>= f) s).ending = (f a s').ending := by
  cases run : r s with
  | mk result left log =>
    rw [run] at h
    cases h
    rw [bind_of_ok run]
    rfl

/-- After a failure, it has ended. -/
theorem ending_of_error {e : ε} (h : (r s).ending = (.error e, s')) :
    ((r >>= f) s).ending = (.error e, s') := by
  cases run : r s with
  | mk result left log =>
    rw [run] at h
    cases h
    rw [bind_of_error run]
    rfl

theorem EndsAs.bind (first : r.EndsAs r') (rest : ∀ a, (f a).EndsAs (f' a)) :
    (r >>= f).EndsAs (r' >>= f') := by
  intro s
  have same := first s
  cases ended : (r s).ending with
  | mk result left =>
    rw [ended] at same
    cases result with
    | ok a =>
      rw [ending_of_ok ended, ending_of_ok same.symm]
      exact rest a left
    | error e => rw [ending_of_error ended, ending_of_error same.symm]

/-- What is logged first makes no difference. -/
theorem EndsAs.emit_bind {w : ω} {g : Unit → Routine ω σ ε α} (h : (g ()).EndsAs r) :
    (Routine.emit w >>= g).EndsAs r := by
  intro s
  rw [ending_of_ok (r := emit w) (s := s) (a := ()) rfl]
  exact h s

/-- A value put in place of the result of a routine. -/
theorem ending_bind_pure (b : β) (s : σ) :
    ((r >>= fun _ => pure b) s).ending = ((r s).result.map fun _ => b, (r s).state) := by
  cases run : r s with
  | mk result left log =>
    cases result with
    | ok a =>
      rw [bind_of_ok run]
      rfl
    | error e =>
      rw [bind_of_error run]
      rfl

end Routine

end Ending

/-! ## One chunk -/

namespace Writer

variable {σ : Type} {d : Device σ} {w : Writer} {s s' : σ} {c : Chunk}

/-- Staging a word ends as the scratch write that it makes. -/
theorem stage_ends {index : UInt8} {value : UInt32}
    (h : (d.call (.scratch index value) s).result = .ok ()) :
    (w.stage d index value s).ending = (.ok (), (d.call (.scratch index value) s).state) := by
  have issued := issue_apply (d := d) (.scratch index value) s
  rw [h] at issued
  unfold Writer.stage
  rw [Routine.bind_of_ok issued]
  -- a pause, if there is one, touches nothing
  split <;> rfl

/-- A chunk whose words were staged ends as its commit: with the checksum that is reported, or
with a mismatch if that is another than the chunk's own. -/
theorem write_ends {v : UInt32} (staged : d.Ran s c.stagings s')
    (committed : (d.call (.commit c.address w.form.seed) s').result = .ok v) :
    (w.write d c s).ending
      = (if v = c.checksum then .ok v else .error (.checksumMismatch c.address c.checksum v),
          (d.call (.commit c.address w.form.seed) s').state) := by
  simp only [Chunk.stagings, Device.ran_cons, Device.ran_nil] at staged
  obtain ⟨taken₀, taken₁, taken₂, taken₃, rfl⟩ := staged
  have issued := issue_apply (d := d) (.commit c.address w.form.seed)
    (d.call (.scratch 3 c.words.w3) (d.call (.scratch 2 c.words.w2)
      (d.call (.scratch 1 c.words.w1) (d.call (.scratch 0 c.words.w0) s).state).state).state).state
  rw [committed] at issued
  unfold Writer.write
  -- each staging succeeds, and the next one goes on from where it left the device
  rw [Routine.ending_of_ok (stage_ends taken₀.symm), Routine.ending_of_ok (stage_ends taken₁.symm),
    Routine.ending_of_ok (stage_ends taken₂.symm), Routine.ending_of_ok (stage_ends taken₃.symm),
    Routine.bind_of_ok issued]
  -- the commit has been answered, and its answer is compared with the checksum
  split <;> rfl

/-! ## One chunk after another -/

/-- Writes chunks in order, up to the first failure. -/
def writeAll (w : Writer) (d : Device σ) : List Chunk → Routine Entry σ DfuError Unit
  | [] => pure ()
  | c :: rest => do
    let _ ← w.write d c
    writeAll w d rest

variable {rest : List Chunk}

theorem writeAll_of_ok {v : UInt32} (h : (w.write d c s).ending = (.ok v, s')) :
    (w.writeAll d (c :: rest) s).ending = (w.writeAll d rest s').ending :=
  Routine.ending_of_ok h

theorem writeAll_of_error {e : DfuError} (h : (w.write d c s).ending = (.error e, s')) :
    (w.writeAll d (c :: rest) s).ending = (.error e, s') :=
  Routine.ending_of_error h

end Writer

variable {σ : Type} {d : Device σ}

theorem writeChunks_endsAs (w : Writer) (base : UInt32) (total : Nat) (cs : List Chunk) :
    (Preservation.writeChunks w d base total cs).EndsAs (w.writeAll d cs) := by
  induction cs with
  | nil => exact .refl _
  | cons c rest ih =>
    unfold Preservation.writeChunks Writer.writeAll
    apply Routine.EndsAs.bind (.refl _)
    intro checksum
    exact .emit_bind (.emit_bind ih)

theorem writePieces_endsAs (w : Writer) (total : Nat) (ps : List Piece) :
    (Programming.writePieces w d total ps).EndsAs (w.writeAll d (ps.map Piece.chunk)) := by
  induction ps with
  | nil => exact .refl _
  | cons piece rest ih =>
    unfold Programming.writePieces Writer.writeAll
    apply Routine.EndsAs.bind (.refl _)
    intro checksum
    exact .emit_bind (.emit_bind ih)

/-- Restoring a backup is writing its chunks that hold something, and counting them. -/
theorem restore_endsAs (w : Writer) (l : Layout) (b : NvmBackup) :
    (Preservation.restore w d l (some b)).EndsAs (do
      w.writeAll d (b.dirtyChunks l.nvmBase)
      pure (b.dirtyChunks l.nvmBase).length) := by
  unfold Preservation.restore
  apply Routine.EndsAs.bind (writeChunks_endsAs _ _ _ _)
  intro _
  exact .emit_bind (.refl _)

/-- Programming an image is writing its chunks, and counting them. -/
theorem program_endsAs (w : Writer) (base : UInt32) (image : Image) :
    (Programming.program w d base image).EndsAs (do
      w.writeAll d (image.chunks base)
      pure image.chunkCount) := by
  unfold Programming.program
  rw [← Image.map_chunk_pieces]
  apply Routine.EndsAs.bind (writePieces_endsAs _ _ _)
  intro _
  exact .emit_bind (.refl _)

/-- What writing chunks leaves was reached by calls to the device. -/
theorem ran_writeAll (w : Writer) (cs : List Chunk) (s : σ) :
    d.Ran s (calls (w.writeAll d cs s).log) (w.writeAll d cs s).state := by
  have conforms : Conforms d (w.writeAll d cs) fun _ _ => True := by
    induction cs with
    | nil => exact conforms_pure trivial
    | cons c rest ih =>
      apply conforms_bind ((conforms_write w c).mono fun _ _ _ => trivial)
      intro _ _ _
      exact ih
  exact (conforms s).2

end CanDfu
