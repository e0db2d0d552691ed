/-
  CanDfu.Proofs.NvmRoundTrip

  What is backed up from one simulated bootloader and restored into another.  Restoring leaves out
  the chunks that hold nothing and programs the others, which only clears bits; so the region comes
  back exactly where the second device still has the bits set that it has in the first (`Covers`).

    * `covers_self`, `covers_blank`, `Covers.program` : the device itself has them, one that was
      erased does, and so does every state that programming leads to from there.
    * `restore_backup` : the region comes back, whatever else the devices hold.
-/
import CanDfu.Proofs.SimulatedUpload

namespace CanDfu

variable {l : Layout} {qs : List Quad}

/-! ## Devices that a region can be restored into -/

namespace Flash

variable {f g : Flash} {ws : List (UInt32 × UInt32)}

/-- Every word of the NVM region has at least the bits set that it has in `g`. -/
def Covers (f : Flash) (l : Layout) (g : Flash) : Prop :=
  ∀ a, l.InNvm a → a.toNat % 4 = 0 → f.word a &&& g.word a = g.word a

theorem covers_self (f : Flash) (l : Layout) : f.Covers l f :=
  fun _ _ _ => UInt32.and_self

theorem covers_blank (l : Layout) (g : Flash) : blank.Covers l g := fun a _ _ => by
  rw [word_blank, erasedWord_and]

/-- Programming words that `g` holds clears no bit that is set in `g`. -/
theorem Covers.program (covers : f.Covers l g) (held : g.Holds ws) : (f.program ws).Covers l g := by
  induction ws generalizing f with
  | nil => exact covers
  | cons p rest ih =>
    obtain ⟨here, later⟩ := holds_cons.mp held
    refine ih (fun a inside aligned => ?_) later
    rw [word_programWord]
    split
    · next same =>
      subst same
      rw [← here, UInt32.and_assoc, UInt32.and_self]
      exact covers p.1 inside aligned
    · exact covers a inside aligned

end Flash

/-- The number of chunks of the NVM region that hold something. -/
def Layout.chunksInUse (l : Layout) (f : Flash) : Nat :=
  (List.range l.nvmChunks).countP fun i =>
    !isErased (f.dump (l.nvmBase + UInt32.ofNat (chunkBytes * i)) chunkBytes)

/-- The chunks that hold something, counted one chunk of flash after the other. -/
theorem length_dirtyChunks {f : Flash} {base : UInt32}
    (held : f.Holds ((chunksFrom base qs).flatMap Chunk.placed)) :
    (dirtyChunks base qs).length = (List.range qs.length).countP fun i =>
      !isErased (f.dump (base + UInt32.ofNat (chunkBytes * i)) chunkBytes) := by
  unfold dirtyChunks
  induction qs generalizing base with
  | nil => rfl
  | cons q rest ih =>
    have shifted (i : Nat) : base + UInt32.ofNat (chunkBytes * (i + 1))
        = base + 16 + UInt32.ofNat (chunkBytes * i) := by
      rw [Nat.mul_succ, Nat.add_comm, UInt32.ofNat_add, UInt32.add_assoc]
      rfl
    rw [chunksFrom, List.flatMap_cons, Flash.holds_append] at held
    have first : f.dump base chunkBytes = q.toBytes := by
      simpa using (Flash.dump_eq_iff_holds f base [q]).mpr (by simpa [chunksFrom] using held.1)
    rw [chunksFrom, List.length_cons, List.range_succ_eq_map, List.countP_cons, List.countP_map,
      Nat.mul_zero, show UInt32.ofNat 0 = 0 from rfl, UInt32.add_zero, first]
    simp only [Function.comp_def, shifted]
    rw [← ih held.2, List.filter_cons, Chunk.isDirty]
    by_cases erased : isErased q.toBytes <;> simp [erased]

namespace Simulated

variable {s t : Simulated} {w : Writer}

/-! ## Backing up -/

/-- A backup succeeds and keeps what the region holds. -/
theorem backup_eq (usable : l.Usable) (s : Simulated) :
    ∃ qs, qs.length = l.nvmChunks ∧ s.flash.Holds (nvmPlaced l qs) ∧
      (Preservation.backup device l s).result = .ok (backupOf qs) ∧
      ∃ n, (Preservation.backup device l s).state = { s with reads := n } := by
  have backs_up := conforms_backup (d := device) usable
  obtain ⟨_, _, ⟨qs, read, rfl, rfl⟩, result, ran⟩ := backs_up.complete (s := s) <| by
    rintro _ _ e made s' ⟨qs, read, rfl, -⟩ halted
    exact not_halted_reads (reads_backup usable read) halted
  obtain ⟨held, unchanged⟩ := ran_backup usable read ran
  exact ⟨qs, read, held, result, unchanged⟩

/-! ## Restoring -/

/-- A restore that meets no faulty address writes the chunks that hold something. -/
theorem restore_eq (usable : l.Usable) (read : qs.length = l.nvmChunks)
    (seed : w.form.seed = t.seed)
    (sound : ∀ c ∈ dirtyChunks l.nvmBase qs, c.address ∉ t.checksumFaults) :
    let o := Preservation.restore w device l (backupOf qs) t
    o.result = .ok (dirtyChunks l.nvmBase qs).length ∧
      o.state = t.writtenAll (dirtyChunks l.nvmBase qs) := by
  have aligned : ∀ c ∈ dirtyChunks l.nvmBase qs, c.Aligned :=
    fun _ hc => (usable.region_range read ((dirtyChunks_sublist ..).subset hc)).1
  have restores := conforms_restore (d := device) (l := l) w qs
  obtain ⟨_, _, ⟨rfl, rfl⟩, result, ran⟩ := restores.complete (s := t) <| by
    rintro _ _ e made t' ⟨rfl, -⟩ halted ran
    -- what stops a restore is a faulty address among those it writes to
    rw [calls_restoreTrace] at halted
    obtain ⟨before, c, ⟨⟨after, split⟩, -, faulty⟩, -⟩ :=
      halted_flatMap_calls halted ran seed aligned
    exact sound c (split ▸ by simp) faulty
  rw [calls_restoreTrace] at ran
  exact ⟨result, (ran_flatMap_calls ran seed aligned).2⟩

/-- Flash after a restore holds the region, and is as it was elsewhere. -/
theorem holds_writtenAll_dirtyChunks {g : Flash} (usable : l.Usable)
    (read : qs.length = l.nvmChunks) (held : g.Holds (nvmPlaced l qs))
    (covers : t.flash.Covers l g) :
    let f := (t.writtenAll (dirtyChunks l.nvmBase qs)).flash
    f.Holds (nvmPlaced l qs) ∧
      ∀ a, (a.toNat % 4 = 0 → ¬ l.InNvm a) → f.word a = t.flash.word a := by
  intro f
  -- leaving chunks out does not show, so it is as if the whole region were programmed
  have all (a : UInt32) : f.word a = (t.flash.program (nvmPlaced l qs)).word a := by
    obtain ⟨scratch, written⟩ := writtenAll_eq t (dirtyChunks l.nvmBase qs)
    show (t.writtenAll (dirtyChunks l.nvmBase qs)).flash.word a = _
    rw [written]
    exact Flash.word_program_dirty t.flash (chunksFrom l.nvmBase qs) a
  have once : (nvmPlaced l qs).Pairwise fun p q => p.1 ≠ q.1 :=
    nodup_placed (fun _ hc => (usable.region_range read hc).1) (usable.region_pairwise read)
  constructor
  · have programmed := Flash.holds_program (f := t.flash) once fun p hp => by
      obtain ⟨inside, aligned⟩ := usable.inNvm_of_mem read hp
      rw [← held p hp]
      exact covers p.1 inside aligned
    exact fun p hp => (all p.1).trans (programmed p hp)
  · intro a outside
    rw [all, Flash.word_program_of_not_mem fun p hp same => ?_]
    obtain ⟨inside, aligned⟩ := usable.inNvm_of_mem read hp
    exact outside (same ▸ aligned) (same ▸ inside)

/-! ## The round trip -/

/-- A backup changes nothing but the count of reads, and keeps the bytes of the NVM region unless
all of it is erased.  Restoring it into a device that takes the writer's commits, confirms them in
the region, and has at least the bits of the region set, succeeds: it writes as many chunks as hold
something, and makes the region the same, byte for byte, and no other word different. -/
theorem restore_backup (w : Writer) (l : Layout) (s t : Simulated) (valid : l.validate = .ok ())
    (accepts : t.checkSeed "commit" w.form.seed = .ok ())
    (confirms : ∀ a ∈ t.checksumFaults, ¬ l.InNvm a)
    (covers : t.flash.Covers l s.flash) :
    let region := s.flash.dump l.nvmBase l.nvmSize.toNat
    let backup := Preservation.backup device l s
    ∃ kept, backup.result = .ok kept ∧ (∃ n, backup.state = { s with reads := n }) ∧
      (kept = none ↔ ∀ b ∈ region, b = erasedByte) ∧ (∀ b ∈ kept, b.bytes = region) ∧
      let restore := Preservation.restore w device l kept t
      restore.result = .ok (l.chunksInUse s.flash) ∧
        restore.state.flash.dump l.nvmBase l.nvmSize.toNat = region ∧
        ∀ a, (a.toNat % 4 = 0 → ¬ l.InNvm a) →
          restore.state.flash.word a = t.flash.word a := by
  intro region backup
  have usable := Layout.usable_of_validate valid
  obtain ⟨qs, read, held, result, unchanged⟩ := backup_eq usable s
  have bytes : region = qs.flatMap Quad.toBytes := (usable.dump_region_iff read s.flash).mpr held
  refine ⟨backupOf qs, result, unchanged, ?_, ?_, ?_⟩
  · rw [bytes]
    exact backupOf_eq_none_iff qs
  · rw [bytes]
    exact fun _ => bytes_of_mem_backupOf
  · have seed : w.form.seed = t.seed := checkSeed_eq_ok_iff.mp accepts
    have sound : ∀ c ∈ dirtyChunks l.nvmBase qs, c.address ∉ t.checksumFaults := by
      intro c hc faulty
      have range := usable.region_range read ((dirtyChunks_sublist ..).subset hc)
      exact confirms c.address faulty ⟨by omega, by omega⟩
    obtain ⟨written, state⟩ := restore_eq usable read seed sound
    obtain ⟨restored, elsewhere⟩ := holds_writtenAll_dirtyChunks usable read held covers
    intro restore
    have after : restore.state = t.writtenAll (dirtyChunks l.nvmBase qs) := state
    refine ⟨written.trans (congrArg _ ?_), ?_, ?_⟩
    · rw [Layout.chunksInUse, ← read]
      exact length_dirtyChunks held
    · rw [after, bytes]
      exact (usable.dump_region_iff read _).mpr restored
    · rw [after]
      exact elsewhere

/-- A region of two chunks, of which the second holds something: it comes back in another device
that was erased, where one word of it is in place already. -/
theorem restore_backup_resumed :
    let l : Layout := ⟨0x1000, 0x2000, 32⟩
    let s : Simulated := { flash := Flash.blank.program [(0x2010, 0x55), (0x2018, 0xAA)] }
    let t : Simulated := { flash := Flash.blank.program [(0x2018, 0xAA)], seed := some 7 }
    let kept : NvmBackup := ⟨List.replicate 16 0xFF ++
      [0x55, 0, 0, 0, 0xFF, 0xFF, 0xFF, 0xFF, 0xAA, 0, 0, 0, 0xFF, 0xFF, 0xFF, 0xFF]⟩
    let restore := Preservation.restore ⟨.seeded 7, 0⟩ device l (some kept) t
    (Preservation.backup device l s).result = .ok (some kept) ∧ restore.result = .ok 1 ∧
      restore.state.flash.dump 0x2000 32 = kept.bytes := by
  intro l s t kept restore
  have held : s.flash.Holds [(0x2018, 0xAA)] := Flash.holds_cons.mpr ⟨rfl, Flash.holds_nil⟩
  have covers : t.flash.Covers l s.flash := (Flash.covers_blank l s.flash).program held
  have valid : (⟨0x1000, 0x2000, 32⟩ : Layout).validate = .ok () := rfl
  have confirms : ∀ a ∈ t.checksumFaults, ¬ l.InNvm a := fun a faulty => nomatch faulty
  obtain ⟨found, backup, -, blank, bytes, restored, same, -⟩ :=
    restore_backup ⟨.seeded 7, 0⟩ l s t valid rfl confirms covers
  have region : s.flash.dump l.nvmBase l.nvmSize.toNat = kept.bytes := by decide
  have one : l.chunksInUse s.flash = 1 := by decide
  -- the region is not blank, so its bytes were kept
  obtain rfl : found = some kept := by
    cases found with
    | none => exact absurd (blank.mp rfl) (by decide)
    | some b =>
      obtain ⟨content⟩ := b
      exact congrArg (some ∘ NvmBackup.mk) ((bytes _ rfl).trans region)
  exact ⟨backup, restored.trans (congrArg _ one), same.trans region⟩

end Simulated

end CanDfu
