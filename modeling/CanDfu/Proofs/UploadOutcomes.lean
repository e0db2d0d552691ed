/-
  CanDfu.Proofs.UploadOutcomes

  How a first upload to the simulated bootloader ends, from the state of the device alone.

    flash holds the image, and it is not forced      up to date, nothing was changed
    the erase ends with a status                     aborted there, nothing was changed
    an address to be written is faulty               aborted at the first such chunk
    otherwise                                        reprogrammed

  Which chunks are written is known beforehand: those of the image, then those of the NVM region
  that are not erased (`chunksToWrite`).
-/
import CanDfu.Proofs.SimulatedUpload

namespace CanDfu

open Simulated

/-- The image is there already, and is not to be programmed again. -/
def UpToDate (l : Layout) (options : UploadOptions) (image : Image) (f : Flash) : Prop :=
  options.force = false ∧ f.dump l.flashBase (Layout.paddedSize image.size) = image.padded

theorem dump_eq_padded_iff (l : Layout) (image : Image) (f : Flash) :
    f.dump l.flashBase (Layout.paddedSize image.size) = image.padded
      ↔ f.Holds (imagePlaced l image) :=
  image.dump_eq_padded_iff_holds l.flashBase f

/-- A device that was reprogrammed, and the result that is reported. -/
structure Reprogrammed (l : Layout) (options : UploadOptions) (image : Image) (s s' : Simulated)
    (result : UploadResult) : Prop where
  result : ∃ restored, result = .flashed restored .identical options.reset ∧
    (restored = true ↔ ∃ b ∈ s.flash.dump l.nvmBase l.nvmSize.toNat, b ≠ erasedByte)
  rewritten : Rewritten s (chunksToWrite l image s.flash) s'
  resets : s'.resets = s.resets + (if options.reset then 1 else 0)

/-- How an upload of an image that was not there yet ends. -/
inductive ReflashEnd (l : Layout) (options : UploadOptions) (image : Image) (s : Simulated) :
    Except DfuError UploadResult → Tracker → List Call → Simulated → Prop
  | reprogrammed {result : UploadResult} {made : List Call} {s' : Simulated}
      (status : s.eraseStatus = 0)
      (sound : ∀ k ∈ chunksToWrite l image s.flash, k.address ∉ s.checksumFaults)
      (h : Reprogrammed l options image s s' result) :
      ReflashEnd l options image s (.ok result) ⟨.done, none⟩ made s'
  | notErased {made : List Call} {n : Nat} (status : s.eraseStatus ≠ 0) :
      ReflashEnd l options image s (.error (.eraseFailure s.eraseStatus)) ⟨.aborted, some .erase⟩
        made { s with reads := n }
  | notConfirmed {before : List Chunk} {k : Chunk} {e : DfuError} {st : Stage} {made : List Call}
      {s' : Simulated} (status : s.eraseStatus = 0)
      (h : StoppedAt l image s before k e st made s') :
      ReflashEnd l options image s (.error e) ⟨.aborted, some st⟩ made s'

variable {u : Uploader} {image : Image} {qs : List Quad} {verified : List Entry} {c : Comparison}
  {s s' : Simulated} {e : DfuError} {st : Stage} {made : List Call}

/-- Having read before makes no difference to how an upload ends. -/
theorem ReflashEnd.of_reads {l : Layout} {options : UploadOptions} {n : Nat} {t : Tracker}
    {result : Except DfuError UploadResult} (before : List Call)
    (h : ReflashEnd l options image { s with reads := n } result t made s') :
    ReflashEnd l options image s result t (before ++ made) s' := by
  cases h with
  | reprogrammed status sound h =>
    have rewritten := h.rewritten
    exact .reprogrammed status sound ⟨h.result,
      ⟨rewritten.flash, rewritten.commits, rewritten.erases⟩, h.resets⟩
  | notErased status => exact .notErased status
  | notConfirmed status h =>
    have rewritten := h.rewritten
    refine .notConfirmed status ⟨h.first, h.failure, h.stage,
      ⟨rewritten.flash, rewritten.commits, rewritten.erases⟩, h.resets, ?_⟩
    rw [List.getLast?_append, h.last]
    rfl

section Inversion

variable {l : Layout} {options : UploadOptions} {result : Except DfuError UploadResult} {t : Tracker}

theorem ReflashEnd.of_sound (h : ReflashEnd l options image s result t made s')
    (status : s.eraseStatus = 0)
    (sound : ∀ k ∈ chunksToWrite l image s.flash, k.address ∉ s.checksumFaults) :
    ∃ r, result = .ok r ∧ t = ⟨.done, none⟩ ∧ Reprogrammed l options image s s' r := by
  cases h with
  | @reprogrammed r made s' _ _ h => exact ⟨r, rfl, rfl, h⟩
  | notErased nonzero => exact absurd status nonzero
  | notConfirmed _ h =>
    -- the faulty chunk would be one of those without faults
    obtain ⟨⟨after, split⟩, -, faulty⟩ := h.first
    exact absurd faulty (sound _ (split ▸ List.mem_append_right _ (List.mem_cons_self ..)))

end Inversion

/-- Something is restored exactly when the region held something. -/
theorem restored_iff (fits : Fits u.layout image qs)
    (held : s.flash.Holds (nvmPlaced u.layout qs)) :
    ((dirtyChunks u.layout.nvmBase qs).length != 0) = true
      ↔ ∃ b ∈ s.flash.dump u.layout.nvmBase u.layout.nvmSize.toNat, b ≠ erasedByte := by
  rw [(fits.usable.dump_region_iff fits.read s.flash).mpr held, bne_iff_ne, ne_eq, List.length_eq_zero_iff, ← isErased_iff_dirtyChunks_eq_nil]
  generalize qs.flatMap Quad.toBytes = bytes
  simp [isErased]

theorem reflashEnd_of_ran (ran : device.Ran s (phaseCalls (reflashPhases u image qs verified c)) s')
    (fits : Fits u.layout image qs) (seed : u.writer.form.seed = s.seed)
    (verifies : Verifies u image verified c) :
    ReflashEnd u.layout u.options image s (.ok (reflashResult u qs c)) ⟨.done, none⟩ made s' := by
  obtain ⟨held, status, sound, rewritten, resets, rfl⟩ := ran_reflash fits seed verifies ran
  exact .reprogrammed status sound ⟨⟨_, rfl, restored_iff fits held⟩, rewritten, resets⟩

theorem reflashEnd_of_stops
    (stops : StopsIn device e st s (reflashPhases u image qs verified c) made s')
    (fits : Fits u.layout image qs) (seed : u.writer.form.seed = s.seed)
    (verifies : Verifies u image verified c) :
    ReflashEnd u.layout u.options image s (.error e) ⟨.aborted, some st⟩ made s' := by
  rcases stops_reflash fits seed verifies stops with ⟨status, rfl, rfl, n, rfl⟩ | ⟨status, _, _, h⟩
  · exact .notErased status
  · exact .notConfirmed status h

/-- The first comparison finds no difference exactly when flash holds the image. -/
theorem ran_first_phase {l : List Entry} {e' : Event} (usable : u.layout.Usable)
    (room : u.layout.Room image.size)
    (h : ComparesPieces .compare image.size (image.pieces u.layout.flashBase) l c)
    (ran : device.Ran s (calls (l ++ [.event e'])) s') :
    (c = .identical
        ↔ s.flash.dump u.layout.flashBase (Layout.paddedSize image.size) = image.padded) ∧
      ∃ n, s' = { s with reads := n } := by
  rw [calls_append, calls_event_cons, calls_nil, List.append_nil] at ran
  rw [dump_eq_padded_iff]
  exact ran_compare usable room h ran

theorem reads_first_phase {l : List Entry} {e' : Event} (usable : u.layout.Usable)
    (room : u.layout.Room image.size)
    (h : ComparesPieces .compare image.size (image.pieces u.layout.flashBase) l c) :
    Reads (calls (l ++ [.event e'])) := by
  rw [calls_append, calls_event_cons, calls_nil, List.append_nil]
  exact reads_of_compares (fun _ hp => room.image_words_aligned usable hp) h.compares_image

/-- An upload of an image that is there already only reads; every other one reflashes. -/
theorem cases_of_ends {o : Outcome Entry (Underway Simulated) DfuError UploadResult}
    (usable : u.layout.Usable) (room : u.layout.Room image.size)
    (seed : u.writer.form.seed = s.seed) (ends : Ends u device s image o) :
    (UpToDate u.layout u.options image s.flash ∧ o.result = .ok .upToDate ∧ Reads (calls o.log) ∧
        ∃ n, o.state = ⟨⟨.done, none⟩, { s with reads := n }⟩) ∨
      (¬ UpToDate u.layout u.options image s.flash ∧
        ReflashEnd u.layout u.options image s o.result o.state.tracker (calls o.log)
          o.state.device) := by
  -- what the first comparison finds, and what being forced means for it
  have present {l : List Entry} {e' : Event} {s₁ : Simulated} (compared : u.options.force = false)
      (h : ComparesPieces .compare image.size (image.pieces u.layout.flashBase) l .identical)
      (ran : device.Ran s (calls (l ++ [.event e'])) s₁) :
      UpToDate u.layout u.options image s.flash :=
    ⟨compared, (ran_first_phase usable room h ran).1.mp rfl⟩
  have absent {l : List Entry} {e' : Event} {a w v : UInt32} {s₁ : Simulated}
      (h : ComparesPieces .compare image.size (image.pieces u.layout.flashBase) l (.differs a w v))
      (ran : device.Ran s (calls (l ++ [.event e'])) s₁) :
      ¬ UpToDate u.layout u.options image s.flash :=
    fun upToDate => nomatch (ran_first_phase usable room h ran).1.mpr upToDate.2
  have overridden (forced : u.options.force = true) :
      ¬ UpToDate u.layout u.options image s.flash := fun upToDate =>
    absurd (upToDate.1.symm.trans forced) (by decide)
  cases ends with
  | @finished ps result s' log script ran made =>
    cases script with
    | upToDate compared h =>
      obtain ⟨s₁, first, rest⟩ := Device.ran_append.mp ran
      obtain ⟨-, n, rfl⟩ := ran_first_phase usable room h first
      obtain rfl := Device.ran_nil.mp rest
      have made : calls log = calls _ := made.trans (List.append_nil _)
      exact .inl ⟨present compared h first, rfl, made ▸ reads_first_phase usable room h, n, rfl⟩
    | differing compared h read verifies =>
      obtain ⟨s₁, first, ran⟩ := Device.ran_append.mp ran
      obtain ⟨-, n, rfl⟩ := ran_first_phase usable room h first
      exact .inr ⟨absent h first,
        .of_reads [] (reflashEnd_of_ran ran ⟨usable, room, read⟩ seed verifies)⟩
    | forced forced read verifies =>
      exact .inr ⟨overridden forced, reflashEnd_of_ran ran ⟨usable, room, read⟩ seed verifies⟩
  | @stopped ps result e st s' log script stops =>
    refine .inr ?_
    show _ ∧ ReflashEnd _ _ _ s (.error e) ⟨.aborted, some st⟩ (calls log) s'
    generalize calls log = made at stops ⊢
    cases script with
    | upToDate compared h =>
      -- the comparison only reads, and nothing is called in the phase after it
      cases stops with
      | here stage halted ran =>
        exact absurd ran (not_halted_reads (reads_first_phase usable room h) halted)
      | later first stops =>
        cases stops with
        | here stage halted ran => exact absurd halted not_halted_nil
        | later ran stops => cases stops
    | differing compared h read verifies =>
      cases stops with
      | here stage halted ran =>
        exact absurd ran (not_halted_reads (reads_first_phase usable room h) halted)
      | later first stops =>
        obtain ⟨-, n, rfl⟩ := ran_first_phase usable room h first
        exact ⟨absent h first,
          .of_reads _ (reflashEnd_of_stops stops ⟨usable, room, read⟩ seed verifies)⟩
    | forced forced read verifies =>
      exact ⟨overridden forced, reflashEnd_of_stops stops ⟨usable, room, read⟩ seed verifies⟩

/-! ## Flash after an upload -/

/-- Flash that holds the image, the NVM region as it was, and nothing else. -/
structure Reflashed (l : Layout) (image : Image) (before after : Flash) : Prop where
  programmed : after.dump l.flashBase (Layout.paddedSize image.size) = image.padded
  preserved : after.dump l.nvmBase l.nvmSize.toNat = before.dump l.nvmBase l.nvmSize.toNat
  elsewhere : ∀ a, (a.toNat % 4 = 0 → ¬ l.InImage image.size a ∧ ¬ l.InNvm a) →
    after.word a = erasedWord

/-- Leaving out NVM chunks that are erased does not show, so the region is held as a whole. -/
theorem holds_nvm {l : Layout} {f : Flash} (fits : Fits l image qs)
    (h : f.HoldsOnly
      ((image.chunks l.flashBase ++ dirtyChunks l.nvmBase qs).flatMap Chunk.placed)) :
    f.Holds (nvmPlaced l qs) := by
  have written := Flash.holdsOnly_program_blank
    (nodup_placed (fun _ => fits.writes_aligned) fits.writes_pairwise)
  have whole := Flash.holdsOnly_program_blank (nodup_placed (fun _ => fits.aligned) fits.pairwise)
  rw [List.flatMap_append, Flash.program_append] at written whole
  intro p hp
  rw [h.word_eq (List.flatMap_append ▸ written), dirtyChunks, Flash.word_program_dirty]
  exact whole.holds p (List.mem_append_right _ hp)

/-- A device that was rewritten with the chunks of an upload is reflashed. -/
theorem Simulated.Rewritten.reflashed {l : Layout} (usable : l.Usable) (room : l.Room image.size)
    (h : Rewritten s (chunksToWrite l image s.flash) s') :
    Reflashed l image s.flash s'.flash := by
  obtain ⟨qs, read, held⟩ := s.flash.exists_quads l.nvmBase l.nvmChunks
  have fits : Fits l image qs := ⟨usable, room, read⟩
  have only := h.flash
  rw [chunksToWrite_eq fits held] at only
  refine ⟨(dump_eq_padded_iff ..).mpr fun p hp => only.holds p ?_, ?_, fun a outside => ?_⟩
  -- the chunks of the image were written
  · rw [List.flatMap_append]
    exact List.mem_append_left _ hp
  -- the region is held after the upload as it was before
  · rw [(usable.dump_region_iff read s.flash).mpr held,
      (usable.dump_region_iff read s'.flash).mpr (holds_nvm fits only)]
  -- a word outside of both is in no chunk that was written
  · refine only.elsewhere a fun p hp same => ?_
    obtain ⟨k, hk, aligned, low, high⟩ :=
      toNat_of_mem_flatMap_placed (fun _ => fits.writes_aligned) hp
    subst same
    obtain ⟨not_image, not_nvm⟩ := outside aligned
    rcases List.mem_append.mp ((writes_sublist ..).subset hk) with hk | hk
    · have range := room.image_range usable hk
      exact not_image ⟨by omega, by omega⟩
    · have range := fits.nvm_range hk
      exact not_nvm ⟨by omega, by omega⟩

/-! ## What an upload does -/

/-- An upload to a healthy device succeeds.  It leaves flash alone when the image is there and may
stay; otherwise flash then holds the image and the NVM region as it was, and nothing else. -/
theorem upload_healthy (s : Simulated) (config : Config) (options : UploadOptions) (image : Image)
    (healthy : s.eraseStatus = 0 ∧ s.checksumFaults = [])
    (valid : config.layout.validate = .ok ())
    (fits : config.layout.checkImageFits image.size = .ok ()) :
    let o := (Uploader.forDevice device s config options).run device image ⟨{}, s⟩
    let s' := o.state.device
    (UpToDate config.layout options image s.flash →
      o.result = .ok .upToDate ∧ Reads (calls o.log) ∧ ∃ n, s' = { s with reads := n }) ∧
    (¬ UpToDate config.layout options image s.flash →
      (∃ restored, o.result = .ok (.flashed restored .identical options.reset) ∧
        (restored = true ↔ ∃ b ∈ s.flash.dump config.layout.nvmBase config.layout.nvmSize.toNat,
          b ≠ erasedByte)) ∧
      Reflashed config.layout image s.flash s'.flash ∧
      s'.erases = s.erases + 1 ∧
      s'.resets = s.resets + (if options.reset then 1 else 0)) := by
  intro o s'
  have usable := Layout.usable_of_validate valid
  have room := Layout.room_of_fits usable fits
  rcases cases_of_ends usable room (seed_negotiate device s)
    (run_ends (Uploader.forDevice device s config options) device s image usable fits) with
    ⟨present, result, reads, n, state⟩ | ⟨different, ended⟩
  · exact ⟨fun _ => ⟨result, reads, n, congrArg Underway.device state⟩, fun h => absurd present h⟩
  · refine ⟨fun h => absurd h different, fun _ => ?_⟩
    have sound : ∀ k ∈ chunksToWrite config.layout image s.flash,
        k.address ∉ s.checksumFaults := by simp [healthy.2]
    obtain ⟨r, ok, -, done⟩ := ended.of_sound healthy.1 sound
    obtain ⟨restored, rfl, restored_iff⟩ := done.result
    exact ⟨⟨restored, ok, restored_iff⟩, done.rewritten.reflashed usable room,
      done.rewritten.erases, done.resets⟩

/-- Three bytes are uploaded to a blank device, which is erased and reset once. -/
theorem upload_healthy_blank :
    let o := (Uploader.forDevice device {} {} {}).run device ⟨[1, 2, 3]⟩ ⟨{}, {}⟩
    Reflashed {} ⟨[1, 2, 3]⟩ .blank o.state.device.flash ∧ o.state.device.erases = 1 ∧
      o.state.device.resets = 1 := by
  have different : ¬ UpToDate {} {} ⟨[1, 2, 3]⟩ .blank := by
    rintro ⟨-, held⟩
    exact absurd held (by decide)
  exact ((upload_healthy {} {} {} ⟨[1, 2, 3]⟩ ⟨rfl, rfl⟩ rfl rfl).2 different).2

end CanDfu
