/-
  CanDfu.Proofs.SimulatedUpload

  Whole uploads to the simulated bootloader.  Its flash after the erase is blank, so the chunks
  written since are all it holds (`Rewritten`); a complete upload has written the chunks of the
  image and those of the NVM region that held something, and one that stops at a commit has
  written them up to that commit.
-/
import CanDfu.Proofs.SimulatedRun
import CanDfu.Proofs.UploadCourse
import CanDfu.Proofs.UploadRegions

namespace CanDfu.Simulated

/-- A device was erased, and the chunks were written to it. -/
structure Rewritten (s : Simulated) (cs : List Chunk) (s' : Simulated) : Prop where
  flash : s'.flash.HoldsOnly (cs.flatMap Chunk.placed)
  commits : s'.commits.toList = s.commits.toList ++ cs.map Chunk.address
  erases : s'.erases = s.erases + 1

theorem rewritten_erased {s : Simulated} {cs : List Chunk} (aligned : ∀ c ∈ cs, c.Aligned)
    (apart : cs.Pairwise fun a b => a.address ≠ b.address) :
    Rewritten s cs (s.erased.writtenAll cs) := by
  obtain ⟨scratch, written⟩ := writtenAll_eq s.erased cs
  rw [written]
  refine ⟨Flash.holdsOnly_program_blank (nodup_placed aligned apart), ?_, rfl⟩
  show (s.commits ++ (cs.map Chunk.address).toArray).toList = _
  simp

section Reflash

variable {u : Uploader} {image : Image} {qs : List Quad} {verified : List Entry} {c : Comparison}
  {s s' : Simulated} {e : DfuError} {st : Stage} {made : List Call}

/-- A backup only reads. -/
theorem reads_backup {l : Layout} (usable : l.Usable) (read : qs.length = l.nvmChunks) :
    Reads (calls (regionTrace l.nvmBase l.nvmSize.toNat 0 qs)) := by
  rw [calls_regionTrace_zero]
  exact reads_readCall fun _ hp => (usable.inNvm_of_mem read hp).2

/-- The backup reads what the NVM region holds. -/
theorem ran_backup {l : Layout} (usable : l.Usable) (read : qs.length = l.nvmChunks)
    (ran : device.Ran s (calls (regionTrace l.nvmBase l.nvmSize.toNat 0 qs)) s') :
    s.flash.Holds (nvmPlaced l qs) ∧ ∃ n, s' = { s with reads := n } := by
  have reads := (ran_reads (reads_backup usable read) ran).1
  rw [calls_regionTrace_zero] at ran
  exact ⟨holds_of_ran_readCall (fun _ hp => (usable.inNvm_of_mem read hp).2) ran, _, reads⟩

/-- A comparison with the image finds no difference exactly when flash holds it. -/
theorem ran_compare {activity : Activity} {l : List Entry} (usable : u.layout.Usable)
    (room : u.layout.Room image.size)
    (h : ComparesPieces activity image.size (image.pieces u.layout.flashBase) l c)
    (ran : device.Ran s (calls l) s') :
    (c = .identical ↔ s.flash.Holds (imagePlaced u.layout image)) ∧
      ∃ n, s' = { s with reads := n } := by
  have aligned : ∀ p ∈ imagePlaced u.layout image, p.1.toNat % 4 = 0 :=
    fun _ hp => room.image_words_aligned usable hp
  exact ⟨compares_identical_iff aligned h.compares_image ran,
    _, (ran_reads (reads_of_compares aligned h.compares_image) ran).1⟩

/-- Everything after the comparison, carried out to its end. -/
theorem ran_reflash (fits : Fits u.layout image qs) (seed : u.writer.form.seed = s.seed)
    (verifies : Verifies u image verified c)
    (ran : device.Ran s (phaseCalls (reflashPhases u image qs verified c)) s') :
    s.flash.Holds (nvmPlaced u.layout qs) ∧ s.eraseStatus = 0 ∧
      (∀ k ∈ chunksToWrite u.layout image s.flash, k.address ∉ s.checksumFaults) ∧
      Rewritten s (chunksToWrite u.layout image s.flash) s' ∧
      s'.resets = s.resets + (if u.options.reset then 1 else 0) ∧ c = .identical := by
  simp only [reflashPhases, List.cons_append, List.nil_append, phaseCalls_cons] at ran
  obtain ⟨s₁, backing, ran⟩ := Device.ran_append.mp ran
  obtain ⟨s₂, erasing, ran⟩ := Device.ran_append.mp ran
  obtain ⟨s₃, programming, ran⟩ := Device.ran_append.mp ran
  obtain ⟨s₄, restoring, ran⟩ := Device.ran_append.mp ran
  obtain ⟨s₅, verifying, ran⟩ := Device.ran_append.mp ran
  -- backup: the region is read as it is held, which says what will be written
  obtain ⟨held, n, rfl⟩ := ran_backup fits.usable fits.read backing
  have writes := chunksToWrite_eq fits held
  rw [writes]
  -- erase: flash is blank from here on
  rw [calls_call_cons, calls_nil, seed] at erasing
  obtain ⟨status, rfl⟩ := ran_erase erasing
  -- program and restore: both write chunks, and no fault was met
  rw [calls_programTrace_pieces] at programming
  obtain ⟨sound, rfl⟩ := ran_flatMap_calls programming seed
    fun k hk => (fits.room.image_range fits.usable hk).1
  rw [calls_restoreTrace] at restoring
  obtain ⟨sound', rfl⟩ := ran_flatMap_calls restoring (by rw [seed_writtenAll]; exact seed)
    fun k hk => (fits.nvm_range ((dirtyChunks_sublist ..).subset hk)).1
  rw [checksumFaults_writtenAll] at sound'
  rw [← writtenAll_append] at verifying
  have rewritten := rewritten_erased (s := { s with reads := n })
    (fun _ => fits.writes_aligned) fits.writes_pairwise
  -- flash now holds the image, so the second comparison cannot find a difference
  rw [calls_append, calls_event_cons, calls_nil, List.append_nil] at verifying
  obtain ⟨found, m, rfl⟩ := ran_compare fits.usable fits.room verifies verifying
  have identical : c = .identical := by
    refine found.mpr fun p hp => rewritten.flash.holds p ?_
    rw [List.flatMap_append]
    exact List.mem_append_left _ hp
  have resets := resets_writtenAll (erased { s with reads := n })
    (image.chunks u.layout.flashBase ++ dirtyChunks u.layout.nvmBase qs)
  refine ⟨held, status, List.forall_mem_append.mpr ⟨sound, sound'⟩, ?_⟩
  -- a reset is counted, and leaves everything else
  by_cases reset : u.options.reset
  · simp only [reset, if_true] at ran ⊢
    obtain rfl := ran_reset ran
    exact ⟨⟨rewritten.flash, rewritten.commits, rewritten.erases⟩, congrArg (· + 1) resets,
      identical⟩
  · simp only [reset] at ran ⊢
    obtain rfl := Device.ran_nil.mp ran
    exact ⟨⟨rewritten.flash, rewritten.commits, rewritten.erases⟩, resets, identical⟩

/-- Two phases that write chunks stop at the first faulty one of them, or not at all. -/
theorem stops_writing {w : Writer} {p q : Phase} {rest : List Phase} {cs more : List Chunk}
    (stops : StopsIn device e st s (p :: q :: rest) made s') (seed : w.form.seed = s.seed)
    (first : calls p.log = cs.flatMap w.calls) (second : calls q.log = more.flatMap w.calls)
    (aligned : ∀ k ∈ cs ++ more, k.Aligned) (apart : ∀ k ∈ more, k ∉ cs) :
    (∃ before k, FirstFault s (cs ++ more) before k ∧
        e = .checksumMismatch k.address k.checksum (k.checksum + 1) ∧
        st = (if k ∈ cs then p.stage else q.stage) ∧
        made.getLast? = some ⟨.commit k.address s.seed, .ok (k.checksum + 1)⟩ ∧
        s' = s.writtenAll (before ++ [k])) ∨
      ∃ made', StopsIn device e st (s.writtenAll (cs ++ more)) rest made' s' := by
  obtain ⟨aligned₁, aligned₂⟩ := List.forall_mem_append.mp aligned
  cases stops with
  -- stopped in the first phase
  | here stage halted ran =>
    rw [first] at halted
    obtain ⟨before, k, ⟨⟨after, rfl⟩, sound, faulty⟩, rfl, last, rfl⟩ :=
      halted_flatMap_calls halted ran seed aligned₁
    refine .inl ⟨before, k, ⟨⟨after ++ more, by simp⟩, sound, faulty⟩, rfl, ?_, last, rfl⟩
    rw [if_pos (List.mem_append_right _ (List.mem_cons_self ..))]
    exact stage.symm
  | later ran stops =>
    rw [first] at ran
    obtain ⟨sound₁, rfl⟩ := ran_flatMap_calls ran seed aligned₁
    have seed₁ : w.form.seed = (s.writtenAll cs).seed := by rw [seed_writtenAll, seed]
    cases stops with
    -- stopped in the second, when the first had met no fault
    | here stage halted ran =>
      rw [second] at halted
      obtain ⟨before, k, ⟨⟨after, rfl⟩, sound, faulty⟩, rfl, last, rfl⟩ :=
        halted_flatMap_calls halted ran seed₁ aligned₂
      rw [checksumFaults_writtenAll] at sound faulty
      rw [seed_writtenAll] at last
      refine .inl ⟨cs ++ before, k, ⟨⟨after, by simp⟩, List.forall_mem_append.mpr ⟨sound₁, sound⟩,
        faulty⟩, rfl, ?_, by simp [List.getLast?_append, last], ?_⟩
      · rw [if_neg (apart k (List.mem_append_right _ (List.mem_cons_self ..)))]
        exact stage.symm
      · rw [List.append_assoc, writtenAll_append s cs]
    -- stopped in neither, so both are written
    | later ran stops =>
      rw [second] at ran
      obtain ⟨-, rfl⟩ := ran_flatMap_calls ran seed₁ aligned₂
      exact .inr ⟨_, by rw [writtenAll_append]; exact stops⟩

/-- An upload that stopped because its last commit was not confirmed. -/
structure StoppedAt (l : Layout) (image : Image) (s : Simulated) (before : List Chunk) (k : Chunk)
    (e : DfuError) (st : Stage) (made : List Call) (s' : Simulated) : Prop where
  first : FirstFault s (chunksToWrite l image s.flash) before k
  failure : e = .checksumMismatch k.address k.checksum (k.checksum + 1)
  stage : st = if k ∈ image.chunks l.flashBase then .program else .restore
  rewritten : Rewritten s (before ++ [k]) s'
  resets : s'.resets = s.resets
  last : made.getLast? = some ⟨.commit k.address s.seed, .ok (k.checksum + 1)⟩

/-- Everything after the comparison, stopped: at the erase, or at the first faulty chunk. -/
theorem stops_reflash (fits : Fits u.layout image qs) (seed : u.writer.form.seed = s.seed)
    (verifies : Verifies u image verified c)
    (stops : StopsIn device e st s (reflashPhases u image qs verified c) made s') :
    (s.eraseStatus ≠ 0 ∧ e = .eraseFailure s.eraseStatus ∧ st = .erase ∧
        ∃ n, s' = { s with reads := n }) ∨
      (s.eraseStatus = 0 ∧ ∃ before k, StoppedAt u.layout image s before k e st made s') := by
  simp only [reflashPhases, List.cons_append, List.nil_append] at stops
  cases stops with
  | here stage halted ran =>
    exact absurd ran (not_halted_reads (reads_backup fits.usable fits.read) halted)
  | later backing stops =>
  obtain ⟨held, n, rfl⟩ := ran_backup fits.usable fits.read backing
  cases stops with
  | here stage halted ran =>
    rw [calls_call_cons, calls_nil, seed] at halted
    obtain ⟨status, rfl, rfl⟩ := halted_erase ran halted
    exact .inl ⟨status, rfl, stage.symm, n, rfl⟩
  | later erasing stops =>
  rw [calls_call_cons, calls_nil, seed] at erasing
  obtain ⟨status, rfl⟩ := ran_erase erasing
  have apart : ∀ k ∈ dirtyChunks u.layout.nvmBase qs, k ∉ image.chunks u.layout.flashBase :=
    fun k hk hk' => (List.pairwise_append.mp fits.writes_pairwise).2.2 k hk' k hk rfl
  rcases stops_writing stops seed (calls_programTrace_pieces ..) (calls_restoreTrace ..)
    (fun _ => fits.writes_aligned) apart with
    ⟨before, k, first, rfl, stage, last, rfl⟩ | ⟨made', stops⟩
  · refine .inr ⟨status, before, k, chunksToWrite_eq fits held ▸ first, rfl, stage, ?_,
      resets_writtenAll .., by rw [List.getLast?_append, List.getLast?_append, last]; rfl⟩
    -- the chunks written so far are the first ones of all that would have been
    obtain ⟨after, split⟩ := first.1
    have sublist : (before ++ [k]).Sublist
        (image.chunks u.layout.flashBase ++ dirtyChunks u.layout.nvmBase qs) := by
      rw [split, show before ++ k :: after = (before ++ [k]) ++ after by simp]
      exact List.sublist_append_left ..
    have rewritten := rewritten_erased (s := { s with reads := n })
      (fun _ hk => fits.writes_aligned (sublist.subset hk)) (fits.writes_pairwise.sublist sublist)
    exact ⟨rewritten.flash, rewritten.commits, rewritten.erases⟩
  -- behind the commits nothing can stop the upload
  · exfalso
    cases stops with
    | here stage halted ran =>
      rw [calls_append, calls_event_cons, calls_nil, List.append_nil] at halted
      refine not_halted_reads (reads_of_compares ?_ verifies.compares_image) halted ran
      exact fun _ hp => fits.room.image_words_aligned fits.usable hp
    | later verifying stops =>
    -- what is left is a reset, if there is one, and the last phase, in which nothing is called
    have no_calls_left {s s' : Simulated} {made : List Call} :
        ¬ StopsIn device e st s [⟨.done, [.event .complete]⟩] made s' := by
      intro stops
      cases stops with
      | here stage halted ran => exact not_halted_nil halted
      | later ran stops => cases stops
    split at stops
    · cases stops with
      | here stage halted ran => exact not_halted_reset halted ran
      | later ran stops => exact no_calls_left stops
    · exact no_calls_left stops

end Reflash

end CanDfu.Simulated
