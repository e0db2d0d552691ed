/-
  CanDfu.Proofs.SkippedChunks

  Restoring leaves out the chunks of a backup that are erased throughout.  On the simulated
  bootloader this does not show: the loop that writes every chunk ends the same way and leaves
  flash the same, whatever flash held before and wherever the two loops stop.  What they leave
  different is kept in `Alike`: the registers and the log of commits.

    loop over all chunks      loop over the others
    erased chunk              nothing: no bit is cleared, and the commit is confirmed
    any other chunk           the same chunk, confirmed on both sides or on neither
-/
import CanDfu.Proofs.ChunkWrites
import CanDfu.Proofs.UploadRegions

namespace CanDfu

/-! ## The chunks of a backup -/

/-- All the chunks of a backup, in address order. -/
def NvmBackup.chunks (b : NvmBackup) (base : UInt32) : List Chunk :=
  (chunkSlices base b.bytes).map fun (address, slice) => Chunk.ofBytes address slice

/-- The chunks of a backup are those of the quads it holds. -/
theorem chunks_eq (base : UInt32) (qs : List Quad) :
    (NvmBackup.mk (qs.flatMap Quad.toBytes)).chunks base = chunksFrom base qs := by
  unfold NvmBackup.chunks
  induction qs generalizing base with
  | nil =>
    rw [List.flatMap_nil, chunkSlices, dif_pos rfl]
    rfl
  | cons q rest ih =>
    have first : Chunk.ofBytes base q.toBytes = ⟨base, q⟩ :=
      congrArg (Chunk.mk base) (Quad.ofBytes_toBytes q)
    simp only [List.flatMap_cons, chunkSlices_toBytes_append, chunksFrom, List.map_cons, first]
    exact congrArg (_ :: ·) (ih (base + 16))

/-- The chunks of a backup of the NVM region are aligned, and those that are restored are the ones
among them that hold something. -/
theorem NvmBackup.chunks_of_region {l : Layout} {b : NvmBackup} (usable : l.Usable)
    (size : b.bytes.length = l.nvmSize.toNat) :
    b.dirtyChunks l.nvmBase = (b.chunks l.nvmBase).filter Chunk.isDirty ∧
      ∀ c ∈ b.chunks l.nvmBase, c.Aligned := by
  -- the region is made of whole chunks, so the backup is the bytes of some quads
  have whole := usable.size_aligned
  have padded : Layout.paddedSize b.bytes.length = b.bytes.length := by
    rw [Layout.paddedSize, chunkBytes]
    omega
  have bytes : (quads b.bytes).flatMap Quad.toBytes = b.bytes := by
    rw [flatMap_toBytes_quads, padded, Nat.sub_self, List.replicate_zero, List.append_nil]
  have read : (quads b.bytes).length = l.nvmChunks := by
    have length := length_quads b.bytes
    have chunks := usable.sixteen_mul_nvmChunks
    rw [padded, chunkBytes] at length
    omega
  have backup : b = ⟨(quads b.bytes).flatMap Quad.toBytes⟩ := by rw [bytes]
  have all : b.chunks l.nvmBase = chunksFrom l.nvmBase (quads b.bytes) :=
    (congrArg (·.chunks l.nvmBase) backup).trans (chunks_eq ..)
  have kept : b.dirtyChunks l.nvmBase
      = (chunksFrom l.nvmBase (quads b.bytes)).filter Chunk.isDirty :=
    (congrArg (·.dirtyChunks l.nvmBase) backup).trans (dirtyChunks_eq ..)
  rw [all]
  exact ⟨kept, fun _ hc => (usable.region_range read hc).1⟩

namespace Simulated

variable {w : Writer} {s t : Simulated} {c : Chunk}

/-! ## Writing one chunk -/

/-- Writing a chunk programs it; whether that is confirmed depends on the fault at its address. -/
theorem write_ends (seed : w.form.seed = s.seed) (aligned : c.Aligned) :
    (w.write device c s).ending
      = (if c.address ∈ s.checksumFaults then
            .error (.checksumMismatch c.address c.checksum (c.checksum + 1))
          else .ok c.checksum,
          s.written c) := by
  have answered : answer { s with scratch := c.words } (.commit c.address w.form.seed)
      = (.ok (if s.checksumFaults.contains c.address then c.checksum + 1 else c.checksum),
          s.written c) := by
    rw [seed]
    exact answer_commit aligned
  have left := congrArg Prod.snd answered
  rw [Writer.write_ends (ran_stagings c s) (congrArg Prod.fst answered)]
  apply Prod.ext
  · by_cases faulty : c.address ∈ s.checksumFaults
    -- the checksum that is reported is one too high, so it is another one
    · rw [if_pos (List.contains_iff_mem.mpr faulty), if_neg (add_one_ne _), if_pos faulty]
    · rw [if_neg (fun found => faulty (List.contains_iff_mem.mp found)), if_pos rfl, if_neg faulty]
  · exact left

theorem write_of_sound (seed : w.form.seed = s.seed) (aligned : c.Aligned)
    (sound : c.address ∉ s.checksumFaults) :
    (w.write device c s).ending = (.ok c.checksum, s.written c) := by
  rw [write_ends seed aligned, if_neg sound]

theorem write_of_faulty (seed : w.form.seed = s.seed) (aligned : c.Aligned)
    (faulty : c.address ∈ s.checksumFaults) :
    (w.write device c s).ending
      = (.error (.checksumMismatch c.address c.checksum (c.checksum + 1)), s.written c) := by
  rw [write_ends seed aligned, if_pos faulty]

/-! ## Devices that differ in nothing that shows -/

/-- The second device reads like the first one and is like it in all else, but for its registers
and its log of commits. -/
structure Alike (s t : Simulated) : Prop where
  words : ∀ a, t.flash.word a = s.flash.word a
  rest : t = { s with flash := t.flash, scratch := t.scratch, commits := t.commits }

theorem Alike.refl (s : Simulated) : s.Alike s := ⟨fun _ => rfl, rfl⟩

theorem Alike.seed (h : s.Alike t) : t.seed = s.seed := by
  rw [h.rest]

theorem Alike.checksumFaults (h : s.Alike t) : t.checksumFaults = s.checksumFaults := by
  rw [h.rest]

/-- Writing a chunk to both leaves them alike. -/
theorem Alike.written (h : s.Alike t) (c : Chunk) : (s.written c).Alike (t.written c) where
  words := Flash.word_program_congr h.words
  rest := by
    rw [h.rest]
    rfl

/-- So does writing a chunk that holds nothing to the second alone. -/
theorem Alike.written_erased (h : s.Alike t) (erased : ¬ c.isDirty) : s.Alike (t.written c) where
  words a :=
    (Flash.word_program_erased (fun _ => c.eq_erasedWord_of_not_isDirty erased) a).trans (h.words a)
  rest := by
    rw [h.rest]
    rfl

/-- Two alike devices, of which the first is spared the erased chunks, end with the same result
and alike: the two loops stop at the same chunk, or not at all. -/
theorem writeAll_alike {cs : List Chunk} (alike : s.Alike t) (seed : w.form.seed = s.seed)
    (aligned : ∀ c ∈ cs, c.Aligned)
    (sound : ∀ c ∈ cs, ¬ c.isDirty → c.address ∉ s.checksumFaults) :
    ∃ result s' t', (w.writeAll device (cs.filter Chunk.isDirty) s).ending = (result, s') ∧
      (w.writeAll device cs t).ending = (result, t') ∧ s'.Alike t' := by
  induction cs generalizing s t with
  | nil => exact ⟨.ok (), s, t, rfl, rfl, alike⟩
  | cons c rest ih =>
    obtain ⟨here, later⟩ := List.forall_mem_cons.mp aligned
    obtain ⟨sound_here, sound_later⟩ := List.forall_mem_cons.mp sound
    have seed' : w.form.seed = t.seed := seed.trans alike.seed.symm
    have faults := alike.checksumFaults
    by_cases dirty : c.isDirty
    · rw [List.filter_cons_of_pos dirty]
      by_cases faulty : c.address ∈ s.checksumFaults
      -- a fault stops both loops at this chunk
      · rw [Writer.writeAll_of_error (write_of_faulty seed here faulty),
          Writer.writeAll_of_error (write_of_faulty seed' here (faults ▸ faulty))]
        exact ⟨_, _, _, rfl, rfl, alike.written c⟩
      -- a chunk that is confirmed leaves both as alike as they were
      · rw [Writer.writeAll_of_ok (write_of_sound seed here faulty),
          Writer.writeAll_of_ok (write_of_sound seed' here (faults ▸ faulty))]
        exact ih (alike.written c) seed later sound_later
    -- only the second loop writes an erased chunk, and that is always confirmed
    · rw [List.filter_cons_of_neg dirty,
        Writer.writeAll_of_ok (write_of_sound seed' here (faults ▸ sound_here dirty))]
      exact ih (alike.written_erased dirty) seed later sound_later

/-! ## Restoring -/

/-- Restoring a backup of the NVM region ends as writing all its chunks in order does, erased ones
included: with the same failure or with none, and with flash the same.  Beside the number of
chunks only the registers and the log of commits are different. -/
theorem restore_as_writeAll (w : Writer) (l : Layout) (b : NvmBackup) (s : Simulated)
    (valid : l.validate = .ok ()) (size : b.bytes.length = l.nvmSize.toNat)
    (accepts : s.checkSeed "commit" w.form.seed = .ok ())
    (sound : ∀ c ∈ b.chunks l.nvmBase, isErased c.words.toBytes → c.address ∉ s.checksumFaults) :
    let sparing := Preservation.restore w device l (some b) s
    let plain := w.writeAll device (b.chunks l.nvmBase) s
    sparing.result = plain.result.map (fun _ => (b.dirtyChunks l.nvmBase).length) ∧
      (∀ a, plain.state.flash.word a = sparing.state.flash.word a) ∧
      (s.flash.Canonical → plain.state.flash = sparing.state.flash) ∧
      plain.state = { sparing.state with
        flash := plain.state.flash
        scratch := plain.state.scratch
        commits := plain.state.commits } := by
  intro sparing plain
  have seed : w.form.seed = s.seed := checkSeed_eq_ok_iff.mp accepts
  obtain ⟨kept, aligned⟩ := NvmBackup.chunks_of_region (Layout.usable_of_validate valid) size
  have sound' : ∀ c ∈ b.chunks l.nvmBase, ¬ c.isDirty → c.address ∉ s.checksumFaults := by
    intro c hc erased
    apply sound c hc
    simpa [Chunk.isDirty] using erased
  obtain ⟨result, s', t', spared, written, alike⟩ :=
    writeAll_alike (Alike.refl s) seed aligned sound'
  rw [← kept] at spared
  -- the two loops have ended with `result`, in `s'` and in `t'`
  have restored := restore_endsAs (d := device) w l b s
  rw [Routine.ending_bind_pure] at restored
  have sparing_result : sparing.result = result.map fun _ => _ :=
    (congrArg Prod.fst restored).trans (congrArg (Except.map _) (congrArg Prod.fst spared))
  have sparing_state : sparing.state = s' :=
    (congrArg Prod.snd restored).trans (congrArg Prod.snd spared)
  have plain_result : plain.result = result := congrArg Prod.fst written
  have plain_state : plain.state = t' := congrArg Prod.snd written
  have canonical : s.flash.Canonical → s'.flash.Canonical ∧ t'.flash.Canonical := by
    intro h
    have ran := ran_writeAll (d := device) w (b.dirtyChunks l.nvmBase) s
    have ran' := ran_writeAll (d := device) w (b.chunks l.nvmBase) s
    rw [show (w.writeAll device _ s).state = s' from congrArg Prod.snd spared] at ran
    rw [show (w.writeAll device _ s).state = t' from plain_state] at ran'
    exact ⟨canonical_of_ran ran h, canonical_of_ran ran' h⟩
  rw [sparing_result, sparing_state, plain_result, plain_state]
  refine ⟨rfl, alike.words, fun h => ?_, alike.rest⟩
  exact (canonical h).2.eq_of_word (canonical h).1 alike.words

/-- A backup whose first chunk is erased and whose second one meets a fault, restored over words
that are there already: both loops fail at the second chunk, and flash is the same. -/
theorem restore_as_writeAll_faulty :
    let l : Layout := ⟨0x1000, 0x2000, 32⟩
    let b : NvmBackup := ⟨[.erased, ⟨1, 2, 3, 4⟩].flatMap Quad.toBytes⟩
    let w : Writer := ⟨.seeded 7, 10⟩
    let s : Simulated :=
      { flash := Flash.blank.program [(0x2000, 0x55), (0x2018, 1)], scratch := ⟨9, 9, 9, 9⟩
        seed := some 7, checksumFaults := [0x2010] }
    let sparing := Preservation.restore w device l (some b) s
    let plain := w.writeAll device (b.chunks l.nvmBase) s
    sparing.result = .error (.checksumMismatch 0x2010 10 11) ∧
      plain.result = .error (.checksumMismatch 0x2010 10 11) ∧
      plain.state.flash = sparing.state.flash := by
  intro l b w s sparing plain
  have chunks : b.chunks l.nvmBase = [⟨0x2000, .erased⟩, ⟨0x2010, ⟨1, 2, 3, 4⟩⟩] := chunks_eq ..
  have sound : ∀ c ∈ b.chunks l.nvmBase, isErased c.words.toBytes →
      c.address ∉ s.checksumFaults := by
    rw [chunks]
    decide
  -- the erased chunk is confirmed, the one behind it is not
  have first := write_of_sound (w := w) (s := s) (c := ⟨0x2000, .erased⟩) rfl rfl (by decide)
  have second := write_of_faulty (w := w) (s := s.written ⟨0x2000, .erased⟩)
    (c := ⟨0x2010, ⟨1, 2, 3, 4⟩⟩) rfl rfl (List.mem_singleton.mpr rfl)
  have stopped : plain.result = .error (.checksumMismatch 0x2010 10 11) := by
    show (w.writeAll device (b.chunks l.nvmBase) s).ending.1 = _
    rw [chunks, Writer.writeAll_of_ok first, Writer.writeAll_of_error second]
    rfl
  have valid : (⟨0x1000, 0x2000, 32⟩ : Layout).validate = .ok () := rfl
  obtain ⟨result, -, same, -⟩ := restore_as_writeAll w l b s valid rfl rfl sound
  refine ⟨?_, stopped, same ?_⟩
  · exact result.trans (congrArg (Except.map _) stopped)
  · exact Flash.canonical_blank.program _

end Simulated

end CanDfu
