/-
  CanDfu.Proofs.SimulatedRun

  What lists of calls make of the simulated bootloader.  Its answers are determined by its state,
  so a list of calls that it answered says what it held and what it has become: reads change
  nothing but their count, an erase leaves flash blank, and a chunk that is written clears bits in
  the four words at its address.  The converses say where it stops an upload: at an erase with a
  status, and at the first commit to a faulty address.
-/
import CanDfu.Proofs.FlashContents

namespace CanDfu.Simulated

variable {s s' : Simulated} {cs made : List Call} {e : DfuError}

/-- Being called is answering. -/
theorem ran_cons_iff {c : Call} :
    device.Ran s (c :: cs) s'
      ↔ c.answer = (s.answer c.command).1 ∧ device.Ran (s.answer c.command).2 cs s' :=
  Device.ran_cons

theorem ran_singleton_iff {c : Call} :
    device.Ran s [c] s' ↔ c.answer = (s.answer c.command).1 ∧ s' = (s.answer c.command).2 := by
  rw [ran_cons_iff, Device.ran_nil]

/-- The last argument that is accepted is the one the device asks for. -/
theorem checkSeed_eq_ok_iff {command : String} {given : Option UInt32} :
    s.checkSeed command given = .ok () ↔ given = s.seed := by
  unfold checkSeed
  split
  · next none_asked => exact ⟨fun _ => none_asked.symm, fun _ => rfl⟩
  · next none_asked =>
    rw [none_asked]
    exact ⟨nofun, nofun⟩
  · next expected given asked =>
    rw [asked]
    split
    · next same => exact ⟨fun _ => same, fun _ => rfl⟩
    · next differs => exact ⟨nofun, fun same => absurd same differs⟩

theorem checkSeed_self (s : Simulated) (command : String) :
    s.checkSeed command s.seed = .ok () :=
  checkSeed_eq_ok_iff.mpr rfl

/-! ## The map of flash -/

/-- No answer stores an erased word. -/
theorem canonical_answer (h : s.flash.Canonical) (c : Command) :
    (s.answer c).2.flash.Canonical := by
  cases c with
  | read a =>
    show (s.read a).2.flash.Canonical
    unfold read
    split <;> exact h
  | scratch index value =>
    show (s.stage index value).2.flash.Canonical
    unfold stage
    split <;> exact h
  | commit a seed =>
    show (s.commit a seed).2.flash.Canonical
    unfold commit
    split
    · exact h
    · split
      · exact h
      · exact h.program _
  | erase seed =>
    show (s.erase seed).2.flash.Canonical
    unfold erase
    split
    · exact h
    · split
      · exact h
      · exact Flash.canonical_blank
  | reset => exact h

/-- Whatever a device was asked, its flash stores no erased word. -/
theorem canonical_of_ran (ran : device.Ran s cs s') (h : s.flash.Canonical) :
    s'.flash.Canonical := by
  induction ran with
  | nil s => exact h
  | call c _ ih => exact ih (canonical_answer h c)

/-! ## Reading -/

/-- Reads of words that lie on word boundaries. -/
def Reads (cs : List Call) : Prop :=
  ∀ c ∈ cs, ∃ a : UInt32, a.toNat % 4 = 0 ∧ c.command = .read a

theorem answer_read {a : UInt32} (h : a.toNat % 4 = 0) (s : Simulated) :
    s.answer (.read a) = (.ok (s.flash.word a), { s with reads := s.reads + 1 }) := by
  have aligned : ¬ a % 4 ≠ 0 := Decidable.not_not.mpr ((Layout.mod_eq_zero_iff a 4).mpr h)
  show s.read a = _
  rw [read, if_neg aligned]

/-- Reading counts the reads and gives the words of flash. -/
theorem ran_reads (reads : Reads cs) (ran : device.Ran s cs s') :
    s' = { s with reads := s.reads + cs.length } ∧
      ∀ c ∈ cs, ∃ a, c = ⟨.read a, .ok (s.flash.word a)⟩ := by
  induction cs generalizing s with
  | nil => exact ⟨Device.ran_nil.mp ran, fun _ hc => absurd hc List.not_mem_nil⟩
  | cons c rest ih =>
    obtain ⟨answered, ran⟩ := ran_cons_iff.mp ran
    obtain ⟨here, later⟩ := List.forall_mem_cons.mp reads
    obtain ⟨a, aligned, command⟩ := here
    obtain ⟨k, answer⟩ := c
    subst command
    rw [answer_read aligned] at answered ran
    obtain ⟨rfl, held⟩ := ih later ran
    refine ⟨?_, List.forall_mem_cons.mpr ⟨⟨a, congrArg (Call.mk (.read a)) answered⟩, held⟩⟩
    rw [List.length_cons, Nat.add_comm rest.length, ← Nat.add_assoc]

/-- Reads do not stop an upload. -/
theorem not_halted_reads {plan : List Call} (reads : Reads plan) (halted : Halted plan e made) :
    ¬ device.Ran s made s' := by
  intro ran
  obtain ⟨before, good, bad, after, rfl, rfl, stops⟩ := halted
  obtain ⟨s₁, -, last⟩ := Device.ran_append.mp ran
  obtain ⟨a, aligned, command⟩ := reads good (by simp)
  have answered := (ran_singleton_iff.mp last).1
  -- an aligned read is answered by the word that is held, so it is never refused
  cases stops with
  | refused c good e =>
    cases command
    rw [answer_read aligned] at answered
    cases answered
  | status => cases command
  | mismatch => cases command

theorem reads_readCall {ws : List (UInt32 × UInt32)} (aligned : ∀ p ∈ ws, p.1.toNat % 4 = 0) :
    Reads (ws.map readCall) := by
  intro c hc
  obtain ⟨p, hp, rfl⟩ := List.mem_map.mp hc
  exact ⟨p.1, aligned p hp, rfl⟩

/-- Words that were read are held. -/
theorem holds_of_ran_readCall {ws : List (UInt32 × UInt32)}
    (aligned : ∀ p ∈ ws, p.1.toNat % 4 = 0) (ran : device.Ran s (ws.map readCall) s') :
    s.flash.Holds ws := by
  intro p hp
  obtain ⟨a, same⟩ := (ran_reads (reads_readCall aligned) ran).2 _ (List.mem_map_of_mem hp)
  unfold readCall at same
  injection same with h h'
  injection h with h
  subst h
  injection h' with h'
  exact h'.symm

theorem reads_of_compares {ws : List (UInt32 × UInt32)} {c : Comparison}
    (aligned : ∀ p ∈ ws, p.1.toNat % 4 = 0) (h : Compares ws cs c) : Reads cs := by
  induction h with
  | done => exact fun _ hc => absurd hc List.not_mem_nil
  | @same a w rest cs c h ih =>
    obtain ⟨here, later⟩ := List.forall_mem_cons.mp aligned
    exact List.forall_mem_cons.mpr ⟨⟨a, here, rfl⟩, ih later⟩
  | @differs a w v rest h =>
    obtain ⟨here, -⟩ := List.forall_mem_cons.mp aligned
    exact List.forall_mem_cons.mpr ⟨⟨a, here, rfl⟩, fun _ hc => absurd hc List.not_mem_nil⟩

/-- A comparison finds no difference exactly when all the words are held. -/
theorem compares_identical_iff {ws : List (UInt32 × UInt32)} {c : Comparison}
    (aligned : ∀ p ∈ ws, p.1.toNat % 4 = 0) (h : Compares ws cs c) (ran : device.Ran s cs s') :
    c = .identical ↔ s.flash.Holds ws := by
  induction h generalizing s with
  | done => exact ⟨fun _ => Flash.holds_nil, fun _ => rfl⟩
  | @same a w rest cs c h ih =>
    obtain ⟨here, later⟩ := List.forall_mem_cons.mp aligned
    obtain ⟨answered, ran⟩ := ran_cons_iff.mp ran
    rw [answer_read here] at answered ran
    injection answered with answered
    rw [ih later ran, Flash.holds_cons]
    exact ⟨fun h => ⟨answered.symm, h⟩, fun h => h.2⟩
  | @differs a w v rest h =>
    obtain ⟨here, -⟩ := List.forall_mem_cons.mp aligned
    obtain ⟨answered, -⟩ := ran_cons_iff.mp ran
    rw [answer_read here] at answered
    injection answered with answered
    refine ⟨(nomatch ·), fun held => absurd ?_ h⟩
    rw [answered]
    exact (Flash.holds_cons.mp held).1

/-! ## Erasing and resetting -/

/-- The simulated bootloader after an erase that succeeded. -/
def erased (s : Simulated) : Simulated := { s with flash := .blank, erases := s.erases + 1 }

theorem answer_erase (s : Simulated) :
    s.answer (.erase s.seed)
      = if s.eraseStatus ≠ 0 then (.ok s.eraseStatus, s)
        else (.ok 0, s.erased) := by
  show s.erase s.seed = _
  rw [erase, checkSeed_self]
  rfl

theorem ran_erase (ran : device.Ran s [⟨.erase s.seed, .ok (0 : UInt8)⟩] s') :
    s.eraseStatus = 0 ∧ s' = s.erased := by
  obtain ⟨answered, rfl⟩ := ran_singleton_iff.mp ran
  rw [answer_erase] at answered ⊢
  by_cases status : s.eraseStatus = 0
  · exact ⟨status, by simp [status, erased]⟩
  · rw [if_pos status] at answered
    injection answered with answered
    exact absurd answered.symm status

/-- An erase that fails changes nothing. -/
theorem halted_erase (ran : device.Ran s made s')
    (halted : Halted [⟨.erase s.seed, .ok (0 : UInt8)⟩] e made) :
    s.eraseStatus ≠ 0 ∧ e = .eraseFailure s.eraseStatus ∧ s' = s := by
  rcases halted_cons.mp halted with ⟨bad, rfl, stops⟩ | ⟨rest, -, h⟩
  · obtain ⟨answered, rfl⟩ := ran_singleton_iff.mp ran
    cases stops with
    | refused c good e =>
      rw [answer_erase] at answered
      split at answered <;> cases answered
    | status seed v h =>
      rw [answer_erase] at answered ⊢
      by_cases status : s.eraseStatus = 0
      · rw [if_neg (Decidable.not_not.mpr status)] at answered
        injection answered with answered
        exact absurd answered h
      · rw [if_pos status] at answered ⊢
        injection answered with answered
        exact ⟨status, congrArg DfuError.eraseFailure answered, rfl⟩
  · exact absurd h not_halted_nil

theorem ran_reset (ran : device.Ran s [⟨.reset, .ok ()⟩] s') :
    s' = { s with resets := s.resets + 1 } :=
  (ran_singleton_iff.mp ran).2

theorem not_halted_reset (halted : Halted [⟨.reset, .ok ()⟩] e made) : ¬ device.Ran s made s' :=
  (ran_singleton_iff.mpr ⟨rfl, rfl⟩ : device.Ran s _ _).not_halted halted

/-! ## Writing -/

/-- The simulated bootloader after a chunk was staged and committed. -/
def written (s : Simulated) (c : Chunk) : Simulated :=
  { s with
    flash := s.flash.program c.placed
    scratch := c.words
    commits := s.commits.push c.address }

/-- The four registers take the words of a chunk. -/
theorem ran_stagings (c : Chunk) (s : Simulated) :
    device.Ran s c.stagings { s with scratch := c.words } := by
  simp only [Chunk.stagings, ran_cons_iff, Device.ran_nil]
  exact ⟨rfl, rfl, rfl, rfl, rfl⟩

variable {w : Writer} {c : Chunk}

/-- At a word boundary the staged words are programmed; at a faulty address the checksum is one too
high. -/
theorem answer_commit_staged {a : UInt32} (aligned : a.toNat % 4 = 0) (s : Simulated) :
    s.answer (.commit a s.seed)
      = (.ok (if s.checksumFaults.contains a then s.scratch.checksum + 1 else s.scratch.checksum),
          { s with
            flash := s.flash.program (Chunk.placed ⟨a, s.scratch⟩)
            commits := s.commits.push a }) := by
  have accepted : ¬ a % 4 ≠ 0 := Decidable.not_not.mpr ((Layout.mod_eq_zero_iff a 4).mpr aligned)
  show s.commit a s.seed = _
  rw [commit, checkSeed_self]
  simp only [if_neg accepted]

/-- A staged chunk is programmed. -/
theorem answer_commit (aligned : c.Aligned) :
    answer { s with scratch := c.words } (.commit c.address s.seed)
      = (.ok (if s.checksumFaults.contains c.address then c.checksum + 1 else c.checksum),
          s.written c) := by
  have four : c.address.toNat % 4 = 0 := by
    unfold Chunk.Aligned at aligned
    omega
  exact answer_commit_staged four { s with scratch := c.words }

theorem add_one_ne (a : UInt32) : a + 1 ≠ a := by
  intro h
  have h := congrArg UInt32.toNat h
  have := a.toNat_lt
  rw [UInt32.toNat_add] at h
  change (a.toNat + 1) % 2 ^ 32 = a.toNat at h
  omega

/-- A chunk whose commit is confirmed was written, at an address without a fault. -/
theorem ran_calls (seed : w.form.seed = s.seed) (aligned : c.Aligned)
    (ran : device.Ran s (w.calls c) s') : c.address ∉ s.checksumFaults ∧ s' = s.written c := by
  rw [w.calls_eq, seed] at ran
  obtain ⟨s₁, staged, committed⟩ := Device.ran_append.mp ran
  obtain rfl := staged.state_unique (ran_stagings c s)
  obtain ⟨answered, rfl⟩ := ran_singleton_iff.mp committed
  rw [answer_commit aligned] at answered ⊢
  refine ⟨fun faulty => ?_, rfl⟩
  rw [if_pos (List.contains_iff_mem.mpr faulty)] at answered
  injection answered with answered
  exact add_one_ne _ answered.symm

/-- A chunk whose commit is not confirmed was written all the same, at a faulty address. -/
theorem halted_calls (seed : w.form.seed = s.seed) (aligned : c.Aligned)
    (halted : Halted (w.calls c) e made) (ran : device.Ran s made s') :
    c.address ∈ s.checksumFaults ∧
      e = .checksumMismatch c.address c.checksum (c.checksum + 1) ∧
      made = c.stagings ++ [⟨.commit c.address s.seed, .ok (c.checksum + 1)⟩] ∧
      s' = s.written c := by
  rw [w.calls_eq, seed] at halted
  -- the registers always take the words, so it is the commit that stopped
  rcases halted_append.mp halted with staging | ⟨rest, rfl, last⟩
  · exact absurd ran ((ran_stagings c s).not_halted staging)
  obtain ⟨s₁, staged, committed⟩ := Device.ran_append.mp ran
  obtain rfl := staged.state_unique (ran_stagings c s)
  rcases halted_cons.mp last with ⟨bad, rfl, stops⟩ | ⟨_, -, h⟩
  · obtain ⟨answered, rfl⟩ := ran_singleton_iff.mp committed
    cases stops with
    | refused k good e =>
      rw [answer_commit aligned] at answered
      cases answered
    | mismatch a seed sum v wrong =>
      rw [answer_commit aligned] at answered ⊢
      injection answered with answered
      by_cases faulty : s.checksumFaults.contains c.address
      · rw [if_pos faulty] at answered
        subst answered
        exact ⟨List.contains_iff_mem.mp faulty, rfl, rfl, rfl⟩
      · rw [if_neg faulty] at answered
        exact absurd answered wrong
  · exact absurd h not_halted_nil

/-! ## Writing one chunk after another -/

/-- The simulated bootloader after chunks were written in order. -/
def writtenAll (s : Simulated) (cs : List Chunk) : Simulated := cs.foldl written s

/-- Writing chunks programs their words, logs their commits, and leaves everything else. -/
theorem writtenAll_eq (s : Simulated) (cs : List Chunk) :
    ∃ scratch, s.writtenAll cs
      = { s with
          flash := s.flash.program (cs.flatMap Chunk.placed)
          scratch
          commits := s.commits ++ (cs.map Chunk.address).toArray } := by
  induction cs generalizing s with
  | nil => exact ⟨s.scratch, by simp [writtenAll, Flash.program]⟩
  | cons c rest ih =>
    obtain ⟨scratch, h⟩ := ih (s.written c)
    refine ⟨scratch, ?_⟩
    rw [List.flatMap_cons, Flash.program_append]
    simpa [writtenAll, written] using h

theorem writtenAll_append (s : Simulated) (cs more : List Chunk) :
    s.writtenAll (cs ++ more) = (s.writtenAll cs).writtenAll more :=
  List.foldl_append

theorem seed_writtenAll (s : Simulated) (cs : List Chunk) : (s.writtenAll cs).seed = s.seed := by
  obtain ⟨scratch, written⟩ := writtenAll_eq s cs
  rw [written]

theorem checksumFaults_writtenAll (s : Simulated) (cs : List Chunk) :
    (s.writtenAll cs).checksumFaults = s.checksumFaults := by
  obtain ⟨scratch, written⟩ := writtenAll_eq s cs
  rw [written]

theorem commits_writtenAll (s : Simulated) (cs : List Chunk) :
    (s.writtenAll cs).commits = s.commits ++ (cs.map Chunk.address).toArray := by
  obtain ⟨scratch, written⟩ := writtenAll_eq s cs
  rw [written]

theorem resets_writtenAll (s : Simulated) (cs : List Chunk) :
    (s.writtenAll cs).resets = s.resets := by
  obtain ⟨scratch, written⟩ := writtenAll_eq s cs
  rw [written]

variable {chunks : List Chunk}

/-- The first of some chunks at a faulty address, and the chunks before it. -/
def FirstFault (s : Simulated) (chunks before : List Chunk) (c : Chunk) : Prop :=
  (∃ after, chunks = before ++ c :: after) ∧ (∀ b ∈ before, b.address ∉ s.checksumFaults) ∧
    c.address ∈ s.checksumFaults

/-- Chunks whose commits are all confirmed were written, at addresses without faults. -/
theorem ran_flatMap_calls (ran : device.Ran s (chunks.flatMap w.calls) s')
    (seed : w.form.seed = s.seed) (aligned : ∀ c ∈ chunks, c.Aligned) :
    (∀ c ∈ chunks, c.address ∉ s.checksumFaults) ∧ s' = s.writtenAll chunks := by
  induction chunks generalizing s with
  | nil => exact ⟨fun _ hc => absurd hc List.not_mem_nil, Device.ran_nil.mp ran⟩
  | cons c rest ih =>
    obtain ⟨here, later⟩ := List.forall_mem_cons.mp aligned
    obtain ⟨s₁, first, ran⟩ := Device.ran_append.mp (List.flatMap_cons ▸ ran)
    obtain ⟨sound, rfl⟩ := ran_calls seed here first
    -- writing a chunk changes neither the last argument nor the faults
    obtain ⟨sounds, rfl⟩ := ih ran seed later
    exact ⟨List.forall_mem_cons.mpr ⟨sound, sounds⟩, rfl⟩

/-- Chunks that are not all confirmed were written up to the first faulty address, and with it. -/
theorem halted_flatMap_calls (halted : Halted (chunks.flatMap w.calls) e made)
    (ran : device.Ran s made s') (seed : w.form.seed = s.seed)
    (aligned : ∀ c ∈ chunks, c.Aligned) :
    ∃ before c, FirstFault s chunks before c ∧
      e = .checksumMismatch c.address c.checksum (c.checksum + 1) ∧
      made.getLast? = some ⟨.commit c.address s.seed, .ok (c.checksum + 1)⟩ ∧
      s' = s.writtenAll (before ++ [c]) := by
  obtain ⟨before, c, after, last, rfl, rfl, stopped⟩ := halted_flatMap.mp halted
  obtain ⟨s₁, first, ran⟩ := Device.ran_append.mp ran
  -- the chunks before the one that stopped were all confirmed
  obtain ⟨sound, rfl⟩ := ran_flatMap_calls first seed
    fun b hb => aligned b (List.mem_append_left _ hb)
  obtain ⟨faulty, rfl, rfl, rfl⟩ := halted_calls (seed.trans (seed_writtenAll s before).symm)
    (aligned c (by simp)) stopped ran
  rw [checksumFaults_writtenAll] at faulty
  refine ⟨before, c, ⟨⟨after, rfl⟩, sound, faulty⟩, rfl, ?_, ?_⟩
  · simp [seed_writtenAll]
  · rw [writtenAll_append]
    rfl

end CanDfu.Simulated
