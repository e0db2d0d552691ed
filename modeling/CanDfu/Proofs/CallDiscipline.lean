/-
  CanDfu.Proofs.CallDiscipline

  Every call of a first upload, in order, against a device that may answer anything.

    comparison     reads of the image's words up to the first difference, unless forced
    backup         reads of every word of the NVM region
    erase          once
    programming    every chunk of the image: four scratch writes and a commit
    restoring      every NVM chunk that was not read back erased, with the words read back
    verification   reads of the image's words up to the first difference
    reset          if asked for

  The first answer that is a failure, an erase status, or a wrong checksum is the last.
-/
import CanDfu.Proofs.UploadCourse

namespace CanDfu

variable {σ : Type}

/-! ## Plans -/

/-- The calls of a comparison that found a difference; a forced upload makes none. -/
inductive FoundDifferent (u : Uploader) (image : Image) : List Call → Prop
  | forced (forced : u.options.force = true) : FoundDifferent u image []
  | compared {cs : List Call} {a w v : UInt32} (compared : u.options.force = false)
      (h : Compares ((image.chunks u.layout.flashBase).flatMap Chunk.placed) cs (.differs a w v)) :
      FoundDifferent u image cs

/-- The calls of everything after the comparison, for an NVM region that is read back as quads. -/
def reflashCalls (u : Uploader) (image : Image) (qs : List Quad) (verified : List Call) :
    List Call :=
  ((chunksFrom u.layout.nvmBase qs).flatMap Chunk.placed).map readCall ++
    [⟨.erase u.writer.form.seed, .ok (0 : UInt8)⟩] ++
    (image.chunks u.layout.flashBase).flatMap u.writer.calls ++
    (dirtyChunks u.layout.nvmBase qs).flatMap u.writer.calls ++
    verified ++ (if u.options.reset then [⟨.reset, .ok ()⟩] else [])

/-- The calls of an upload that no answer stops, and its result. -/
inductive Plan (u : Uploader) (image : Image) : List Call → UploadResult → Prop
  | upToDate {cs : List Call} (compared : u.options.force = false)
      (h : Compares ((image.chunks u.layout.flashBase).flatMap Chunk.placed) cs .identical) :
      Plan u image cs .upToDate
  | flashed {first verified : List Call} {qs : List Quad} {c : Comparison}
      (different : FoundDifferent u image first) (read : qs.length = u.layout.nvmChunks)
      (verifies : Compares ((image.chunks u.layout.flashBase).flatMap Chunk.placed) verified c) :
      Plan u image (first ++ reflashCalls u image qs verified)
        (.flashed (!(dirtyChunks u.layout.nvmBase qs).isEmpty) c u.options.reset)

/-- What a first run may leave of its calls: a plan, or a plan up to the call whose answer is the
failure it ends with. -/
def Disciplined (u : Uploader) (image : Image) (made : List Call)
    (result : Except DfuError UploadResult) : Prop :=
  ∃ plan planned, Plan u image plan planned ∧
    made.map Call.command <+: plan.map Call.command ∧
    match result with
    | .ok result => made = plan ∧ result = planned
    | .error e => Halted plan e made

theorem reflashResult_eq (u : Uploader) (qs : List Quad) (c : Comparison) :
    reflashResult u qs c
      = .flashed (!(dirtyChunks u.layout.nvmBase qs).isEmpty) c u.options.reset := by
  unfold reflashResult
  cases dirtyChunks u.layout.nvmBase qs <;> rfl

theorem calls_reflashPhases (u : Uploader) (image : Image) (qs : List Quad) (verified : List Entry)
    (c : Comparison) :
    phaseCalls (reflashPhases u image qs verified c)
      = reflashCalls u image qs (calls verified) := by
  simp only [reflashPhases, reflashCalls, phaseCalls_append, phaseCalls_cons, phaseCalls_nil,
    calls_append, calls_call_cons, calls_event_cons, calls_nil, calls_regionTrace_zero,
    calls_programTrace_pieces, calls_restoreTrace, List.append_nil, List.append_assoc]
  split <;> rfl

theorem Script.plan {u : Uploader} {image : Image} {ps : List Phase} {result : UploadResult}
    (h : Script u image ps result) : Plan u image (phaseCalls ps) result := by
  cases h with
  | upToDate compared h => simpa using Plan.upToDate compared h.compares_image
  | differing compared h read verifies =>
    rw [phaseCalls_cons, calls_reflashPhases, reflashResult_eq]
    simpa using Plan.flashed (.compared compared h.compares_image) read verifies.compares_image
  | forced forced read verifies =>
    rw [calls_reflashPhases, reflashResult_eq]
    exact .flashed (.forced forced) read verifies.compares_image

/-- A run that ends as scripts end is disciplined. -/
theorem Ends.disciplined {u : Uploader} {d : Device σ} {s : σ} {image : Image}
    {o : Outcome Entry (Underway σ) DfuError UploadResult} (h : Ends u d s image o) :
    Disciplined u image (calls o.log) o.result := by
  cases h with
  | finished script ran made => exact ⟨_, _, script.plan, made ▸ List.prefix_rfl, made, rfl⟩
  | stopped script stops =>
    exact ⟨_, _, script.plan, stops.halted.commands_prefix, stops.halted⟩

/-! ## Order -/

/-- Chunks come in ascending order, and so do their words. -/
structure Ascending (cs : List Chunk) : Prop where
  chunks : cs.Pairwise fun a b => a.address < b.address
  words : (cs.flatMap Chunk.placed).Pairwise fun p q => p.1 < q.1

theorem ascending_chunksFrom {base : UInt32} {qs : List Quad} (aligned : base.toNat % 16 = 0)
    (h : base.toNat + 16 * qs.length ≤ addressSpace) : Ascending (chunksFrom base qs) where
  chunks := pairwise_chunksFrom h
  words := pairwise_placed (fun _ hc => aligned_of_mem_chunksFrom aligned h hc)
    (pairwise_chunksFrom h)

theorem ascending_image {l : Layout} {image : Image} (usable : l.Usable)
    (room : l.Room image.size) : Ascending (image.chunks l.flashBase) :=
  ascending_chunksFrom usable.flash_aligned room.length_image

theorem ascending_nvm {l : Layout} {qs : List Quad} (usable : l.Usable)
    (read : qs.length = l.nvmChunks) : Ascending (chunksFrom l.nvmBase qs) :=
  ascending_chunksFrom usable.nvm_aligned (usable.region_in_space read)

/-! ## The discipline of a run -/

/-- The calls of a first upload are those of a plan, each part of it in ascending order; they end
with the plan, or right behind the first answer that is a failure. -/
theorem run_disciplined (d : Device σ) (s : σ) (config : Config) (options : UploadOptions)
    (image : Image) (valid : config.layout.validate = .ok ())
    (fits : config.layout.checkImageFits image.size = .ok ()) :
    let u := Uploader.forDevice d s config options
    let o := u.run d image ⟨{}, s⟩
    Disciplined u image (calls o.log) o.result ∧
      d.Ran s (calls o.log) o.state.device ∧
      u.writer.form.seed = d.seed s ∧
      Ascending (image.chunks config.layout.flashBase) ∧
      ∀ qs : List Quad, qs.length = config.layout.nvmChunks →
        Ascending (chunksFrom config.layout.nvmBase qs) := by
  intro u o
  have usable : u.layout.Usable := Layout.usable_of_validate valid
  have ran := (run_course u d s image usable fits).2
  exact ⟨(run_ends u d s image usable fits).disciplined, ran, seed_negotiate d s,
    ascending_image usable (Layout.room_of_fits usable fits), fun qs => ascending_nvm usable⟩

/-- A device that holds three bytes at `0x1000` and nothing behind them, and answers every commit
with their checksum. -/
def threeByteDevice : Device Unit where
  seed _ := none
  call
    | .read a, s =>
      ⟨.ok (if a = 0x1000 then 0x030201 else if a < 0x1010 then 0 else 0xFFFFFFFF : UInt32), s, []⟩
    | .scratch .., s => ⟨.ok (), s, []⟩
    | .commit .., s => ⟨.ok (0x030201 : UInt32), s, []⟩
    | .erase _, s => ⟨.ok (0 : UInt8), s, []⟩
    | .reset, s => ⟨.ok (), s, []⟩

/-- A forced upload of these bytes to it, with an NVM region of one chunk. -/
def threeByteUploader : Uploader :=
  .forDevice threeByteDevice () { layout := ⟨0x1000, 0x2000, 16⟩ } { force := true }

/-- What becomes of it. -/
def threeByteRun : Outcome Entry (Underway Unit) DfuError UploadResult :=
  threeByteUploader.run threeByteDevice ⟨[1, 2, 3]⟩ ⟨{}, ()⟩

theorem threeByteRun_flashed : threeByteRun.result = .ok (.flashed false .identical true) := by
  with_unfolding_all rfl

/-- The forced upload of three bytes is disciplined over its fifteen calls, from the backup of the
region to the reset. -/
theorem run_disciplined_three_bytes :
    Disciplined threeByteUploader ⟨[1, 2, 3]⟩ (calls threeByteRun.log) threeByteRun.result ∧
      (calls threeByteRun.log).length = 15 ∧
      threeByteRun.result = .ok (.flashed false .identical true) := by
  have disciplined := run_disciplined threeByteDevice () { layout := ⟨0x1000, 0x2000, 16⟩ }
    { force := true } ⟨[1, 2, 3]⟩ rfl rfl
  have made : (calls threeByteRun.log).length = 15 := by
    with_unfolding_all rfl
  exact ⟨disciplined.1, made, threeByteRun_flashed⟩

end CanDfu
