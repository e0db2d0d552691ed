/-
  CanDfu.Proofs.TruthfulReports

  What the events of a first upload tell of its commits and its progress, whatever the device
  answers and wherever it fails.

    * `Follows` : progress of an operation that writes chunks comes right after the report of the
      chunk it has come to the end of.
    * `Goes.exists_stageLeft` : what is told of an operation is told by one phase, that of its
      stage, of which all or some is left.
    * `run_truthful` : all that is told is so.
-/
import CanDfu.Proofs.CommitReports
import CanDfu.Proofs.ProgressReports

namespace CanDfu

variable {σ : Type} {u : Uploader} {l : Layout} {image : Image}

/-! ## Chunks and their progress -/

namespace Activity

/-- Whether an operation writes chunks. -/
def writes : Activity → Bool
  | program | writeNvm => true
  | compare | verify | readNvm => false

/-- How far an operation that writes has come with the chunk at an address. -/
def endOf (l : Layout) (image : Image) : Activity → UInt32 → Nat
  | writeNvm, a => a.toNat - l.nvmBase.toNat + 16
  | _, a => min (a.toNat - l.flashBase.toNat + 16) image.size

end Activity

/-- The progress of an operation that writes comes right after the report of the chunk it has come
to the end of. -/
def Follows (l : Layout) (image : Image) (es : List Event) : Prop :=
  ∀ before act n total after, es = before ++ .progress act n total :: after → act.writes = true →
    ∃ earlier a v, before = earlier ++ [.chunkCommitted a v] ∧ n = act.endOf l image a

section Follows

variable {es more : List Event}

theorem follows_of_not_writes
    (h : ∀ act n total, .progress act n total ∈ es → act.writes = false) : Follows l image es := by
  rintro before act n total after rfl writes
  rw [h act n total (List.mem_append_right _ (List.mem_cons_self ..))] at writes
  cases writes

/-- What comes later does not matter. -/
theorem Follows.of_begun (h : Follows l image more) (begun : es <+: more) : Follows l image es := by
  obtain ⟨rest, rfl⟩ := begun
  rintro before act n total after rfl writes
  exact h before act n total (after ++ rest) (by simp) writes

theorem Follows.append (h : Follows l image es) (h' : Follows l image more) :
    Follows l image (es ++ more) := by
  intro before act n total after split writes
  rcases List.append_eq_append_iff.mp split with ⟨between, rfl, second⟩ | ⟨between, first, second⟩
  · obtain ⟨earlier, a, v, rfl, reached⟩ := h' _ _ _ _ _ second writes
    exact ⟨es ++ earlier, a, v, (List.append_assoc ..).symm, reached⟩
  · cases between with
    -- the second part cannot begin with progress, since a report comes before it
    | nil =>
      obtain ⟨earlier, a, v, empty, -⟩ := h' [] act n total after second.symm writes
      simp at empty
    | cons said between =>
      injection second with same _
      subst same
      exact h _ _ _ _ _ first writes

theorem follows_flatMap {α : Type} {f : α → List Event} {xs : List α}
    (h : ∀ x ∈ xs, Follows l image (f x)) : Follows l image (xs.flatMap f) := by
  induction xs with
  | nil => exact follows_of_not_writes nofun
  | cons x rest ih =>
    obtain ⟨here, later⟩ := List.forall_mem_cons.mp h
    exact here.append (ih later)

/-- A chunk is reported, and then how far the operation has come with it. -/
theorem follows_report {act : Activity} {a v : UInt32} {n total : Nat}
    (reached : n = act.endOf l image a) :
    Follows l image [.chunkCommitted a v, .progress act n total] := by
  intro before act' n' total' after split writes
  match before with
  | [] => cases split
  | [said] =>
    cases split
    exact ⟨[], a, v, rfl, reached⟩
  | _ :: _ :: before => simp at split

/-- The chunks of an image end where its pieces say. -/
theorem Layout.Room.consumed_eq (room : l.Room image.size) {piece : Piece}
    (h : piece ∈ image.pieces l.flashBase) :
    piece.consumed = Activity.program.endOf l image piece.chunk.address := by
  rw [Image.pieces_eq_map] at h
  obtain ⟨k, hk, rfl⟩ := List.mem_map.mp h
  rw [List.mem_range, Image.chunkCount, chunkBytes] at hk
  have space := room.in_space
  rw [Layout.paddedSize, chunkBytes] at space
  have address : (l.flashBase + UInt32.ofNat (16 * k)).toNat = l.flashBase.toNat + 16 * k := by
    apply toNat_add_ofNat
    omega
  show min (16 * (k + 1)) image.size
    = min ((l.flashBase + UInt32.ofNat (16 * k)).toNat - l.flashBase.toNat + 16) image.size
  rw [address]
  omega

theorem ScriptPhase.follows {p : Phase} (h : ScriptPhase u image p) (usable : u.layout.Usable)
    (room : u.layout.Room image.size) : Follows u.layout image (events p.log) := by
  have silent (other : p.stage ≠ .program ∧ p.stage ≠ .restore) :
      Follows u.layout image (events p.log) := by
    apply follows_of_not_writes
    intro act n total told
    have stage := h.stage_of_mem_events told
    cases act with
    | program => exact absurd stage other.1
    | writeNvm => exact absurd stage other.2
    | compare | verify | readNvm => rfl
  cases h with
  | program =>
    rw [events_programTrace]
    exact follows_flatMap fun piece hpiece => follows_report (room.consumed_eq hpiece)
  | restore read =>
    rw [events_restoreTrace]
    refine follows_flatMap fun c hc => follows_report ?_
    exact Fits.toNat_offset ⟨usable, room, read⟩ ((dirtyChunks_sublist ..).subset hc)
  | compare | backup | erase | verify | reset | done => exact silent ⟨nofun, nofun⟩

theorem follows_phasesLog {previous : Stage} {ps : List Phase}
    (h : ∀ p ∈ ps, Follows l image (events p.log)) :
    Follows l image (events (phasesLog previous ps)) := by
  induction ps generalizing previous with
  | nil => exact follows_of_not_writes nofun
  | cons p rest ih =>
    obtain ⟨here, later⟩ := List.forall_mem_cons.mp h
    have entered : Follows l image [.stageChanged previous p.stage] :=
      follows_of_not_writes fun _ _ _ told => nomatch List.mem_singleton.mp told
    rw [phasesLog, events_append, events_event_cons]
    exact (entered.append here).append (ih later)

end Follows

/-! ## Runs -/

/-- What a first run leaves in a stage of its script: nothing, the whole phase, or the phase cut
short, and then the stage is left by aborting. -/
inductive StageLeft (ps : List Phase) (log : List Entry) (st : Stage) : List Entry → Prop
  | unentered (h : ∀ next, (st, next) ∉ steps log) : StageLeft ps log st []
  | whole {p : Phase} (hp : p ∈ ps) (stage : p.stage = st) : StageLeft ps log st p.log
  | cut {p : Phase} {e : DfuError} {l : List Entry} (hp : p ∈ ps) (stage : p.stage = st)
      (short : Cut p.log e l) (last : ∀ next, (st, next) ∈ steps log → next = .aborted) :
      StageLeft ps log st l

/-- An operation came to its end: the upload went on from its stage, and a comparison was answered
with every word of the image. -/
structure Completed (l : Layout) (image : Image) (log : List Entry) (act : Activity) : Prop where
  left : ∃ next, next ≠ .aborted ∧ (act.stage, next) ∈ steps log
  same : act.compares = true → callsIn act.stage log = (imagePlaced l image).map readCall

section Runs

variable {act : Activity} {ps left : List Phase} {log : List Entry}

/-- A stage that was left, but not by aborting, was gone through. -/
theorem StageLeft.exists_whole {st next : Stage} {made : List Entry} (h : StageLeft ps log st made)
    (other : next ≠ .aborted) (step : (st, next) ∈ steps log) :
    ∃ p ∈ ps, p.stage = st ∧ made = p.log := by
  cases h with
  | unentered h => exact absurd step (h next)
  | whole hp stage => exact ⟨_, hp, stage, rfl⟩
  | cut _ _ _ last => exact absurd (last next step) other

/-- The progress of an operation is what is left in its stage tells. -/
theorem progress_eq_of_left (left_eq : trace log = phasesLog .start left)
    (own : ∀ q ∈ left, ∀ n total, .progress act n total ∈ events q.log → q.stage = act.stage) :
    progress act log = progress act (stageLog act.stage left) := by
  rw [← progress_trace, left_eq]
  generalize Stage.start = previous
  clear left_eq
  induction left generalizing previous with
  | nil => rfl
  | cons p rest ih =>
    obtain ⟨here, later⟩ := List.forall_mem_cons.mp own
    unfold stageLog at ih ⊢
    rw [phasesLog, List.cons_append, List.flatMap_cons, progress_append, ← ih later p.stage,
      ← progress_append]
    have entered (rest : List Entry) :
        progress act (.event (.stageChanged previous p.stage) :: rest) = progress act rest := rfl
    rw [entered, progress_append, progress_append]
    refine congrArg (· ++ _) ?_
    split
    · rfl
    · next other => exact progress_eq_nil fun n total told => other (here n total told)

/-- What is left in the stage of an operation has its calls and tells its progress. -/
theorem Goes.exists_stageLeft {o : Outcome Entry (Underway σ) DfuError UploadResult}
    (h : Goes u image o) :
    ∃ ps result, Script u image ps result ∧ (∃ last, Walk .start (steps o.log) last) ∧
      ∀ act : Activity, ∃ made, StageLeft ps o.log act.stage made ∧
        callsIn act.stage o.log = calls made ∧ progress act o.log = progress act made := by
  obtain ⟨ps, result, left, script, log, steady, ⟨last, walk⟩, phases⟩ := h.exists_left
  have ordered := walk.pairwise.2
  have stepped := steps_eq_of_left log steady
  refine ⟨ps, result, script, ⟨last, stepped ▸ walk⟩, fun act => ?_⟩
  have own : ∀ q ∈ left, ∀ n total, .progress act n total ∈ events q.log → q.stage = act.stage := by
    intro q hq n total told
    cases phases q hq with
    | warned h =>
      subst h
      obtain ⟨_, _, message⟩ := mem_events_warnings told
      cases message
    | whole h => exact (script.scripted h).stage_of_mem_events told
    | cut hp stage short =>
      exact stage ▸ (script.scripted hp).stage_of_mem_events (short.events_subset told)
  refine ⟨stageLog act.stage left, ?_, callsIn_eq_of_left log steady, progress_eq_of_left log own⟩
  by_cases entered : ∃ q ∈ left, q.stage = act.stage
  · obtain ⟨q, hq, stage⟩ := entered
    rw [← stage, stageLog_eq_log ordered hq]
    cases phases q hq with
    | warned h =>
      subst h
      cases act <;> cases stage
    | whole h => exact .whole h rfl
    | cut hp same short last => exact .cut hp same short last
  · have none_here : ∀ q ∈ left, q.stage ≠ act.stage := fun q hq stage => entered ⟨q, hq, stage⟩
    rw [stageLog_eq_nil none_here]
    refine .unentered fun next step => entered ?_
    rw [stepped] at step
    refine exists_phase_of_mem step ?_
    cases act <;> exact nofun

theorem Goes.follows {o : Outcome Entry (Underway σ) DfuError UploadResult} (h : Goes u image o)
    (usable : u.layout.Usable) (room : u.layout.Room image.size) :
    Follows u.layout image (events o.log) := by
  obtain ⟨left, log, -, phases⟩ := h.exists_phases
  rw [← events_trace, log]
  apply follows_phasesLog
  intro q hq
  rcases phases q hq with ⟨st, rfl⟩ | ⟨p, scripted, -, whole | ⟨e, short⟩⟩
  · refine follows_of_not_writes fun act n total told => ?_
    obtain ⟨_, _, message⟩ := mem_events_warnings told
    cases message
  · exact whole ▸ scripted.follows usable room
  · exact (scripted.follows usable room).of_begun short.events_prefix

/-- A stage that only one other may step to is left after that one. -/
theorem Walk.previous_left {a b st next : Stage} {walked : List (Stage × Stage)}
    (walk : Walk a walked b) (only : Stage) (sole : ∀ s : Stage, s.allows st = true → s = only)
    (left : (st, next) ∈ walked) (other : st ≠ a) : (only, st) ∈ walked := by
  obtain ⟨previous, allowed, entered⟩ := walk.exists_previous left other
  rw [← sole previous allowed]
  exact entered

/-- The NVM region is restored after it was read, so when that stage is left, so was this one. -/
theorem backup_left_of_restore_left {b next : Stage} {walked : List (Stage × Stage)}
    (walk : Walk .start walked b) (left : (.restore, next) ∈ walked) :
    (.backup, .erase) ∈ walked := by
  have programmed := walk.previous_left .program
    (fun s => by cases s <;> simp [Stage.allows]) left (by decide)
  have erased := walk.previous_left .erase
    (fun s => by cases s <;> simp [Stage.allows]) programmed (by decide)
  exact walk.previous_left .backup
    (fun s => by cases s <;> simp [Stage.allows]) erased (by decide)

/-- In the two stages that go through the NVM region, a phase does so for one that holds some
quads. -/
def Phase.Holds (u : Uploader) (qs : List Quad) (p : Phase) : Prop :=
  match p.stage with
  | .backup => p.log = regionTrace u.layout.nvmBase u.layout.nvmSize.toNat 0 qs
  | .restore => p.log = restoreTrace u.writer u.layout.nvmBase (chunkBytes * qs.length)
      (dirtyChunks u.layout.nvmBase qs)
  | _ => True

theorem Phase.Holds.backup {qs : List Quad} {p : Phase} (h : p.Holds u qs)
    (stage : p.stage = .backup) :
    p.log = regionTrace u.layout.nvmBase u.layout.nvmSize.toNat 0 qs := by
  rw [Phase.Holds, stage] at h
  exact h

theorem Phase.Holds.restore {qs : List Quad} {p : Phase} (h : p.Holds u qs)
    (stage : p.stage = .restore) :
    p.log = restoreTrace u.writer u.layout.nvmBase (chunkBytes * qs.length)
      (dirtyChunks u.layout.nvmBase qs) := by
  rw [Phase.Holds, stage] at h
  exact h

/-- Both ways through the NVM region are about the same contents. -/
theorem Script.exists_region {result : UploadResult} (h : Script u image ps result) :
    ∃ qs : List Quad, qs.length = u.layout.nvmChunks ∧ ∀ p ∈ ps, p.Holds u qs := by
  have reflash (qs : List Quad) (verified : List Entry) (c : Comparison) :
      ∀ p ∈ reflashPhases u image qs verified c, p.Holds u qs := by
    intro p hp
    simp only [reflashPhases, List.mem_append, List.mem_cons, List.not_mem_nil, or_false] at hp
    rcases hp with (rfl | rfl | rfl | rfl | rfl) | hp | rfl
    · rfl
    · trivial
    · trivial
    · rfl
    · trivial
    · split at hp
      · rw [List.mem_singleton.mp hp]
        trivial
      · cases hp
    · trivial
  cases h with
  | upToDate =>
    refine ⟨List.replicate u.layout.nvmChunks .zero, List.length_replicate, ?_⟩
    exact List.forall_mem_cons.mpr ⟨trivial, List.forall_mem_singleton.mpr trivial⟩
  | differing _ _ read => exact ⟨_, read, List.forall_mem_cons.mpr ⟨trivial, reflash _ _ _⟩⟩
  | forced _ read => exact ⟨_, read, reflash _ _ _⟩

/-- Restoring ends with the last chunk of the region that is not erased throughout. -/
theorem Fits.getLast?_restore {qs before after : List Quad} {q : Quad} (h : Fits l image qs)
    (w : Writer) (split : qs = before ++ q :: after) (held : isErased q.toBytes = false)
    (erased : ∀ r ∈ after, isErased r.toBytes = true) :
    (progress .writeNvm (restoreTrace w l.nvmBase (chunkBytes * qs.length)
      (dirtyChunks l.nvmBase qs))).getLast?
      = some (16 * (before.length + 1), l.nvmSize.toNat) := by
  have size : chunkBytes * qs.length = l.nvmSize.toNat := h.length_nvm
  have space := h.nvm_in_space
  have small : 16 * before.length + 16 < addressSpace := by
    have bound : l.nvmSize.toNat < addressSpace := l.nvmSize.toNat_lt
    have length := h.length_nvm
    rw [split, List.length_append, List.length_cons] at length
    omega
  rw [split, List.length_append, List.length_cons] at space
  -- nothing behind the last one is left
  have rest : dirtyChunks (l.nvmBase + UInt32.ofNat (16 * before.length) + 16) after = [] := by
    apply (isErased_iff_dirtyChunks_eq_nil _ after).mp
    simpa [isErased] using erased
  have dirty : dirtyChunks l.nvmBase qs = dirtyChunks l.nvmBase before
      ++ [⟨l.nvmBase + UInt32.ofNat (16 * before.length), q⟩] := by
    unfold dirtyChunks at rest ⊢
    rw [split, chunksFrom_append, List.filter_append, chunksFrom,
      List.filter_cons_of_pos (by simp [Chunk.isDirty, held]), rest]
  have address : (l.nvmBase + UInt32.ofNat (16 * before.length)).toNat
      = l.nvmBase.toNat + 16 * before.length := by
    apply toNat_add_ofNat
    omega
  rw [progress_restoreTrace, size, dirty, List.map_append, List.map_singleton,
    List.getLast?_concat, CanDfu.toNat_offset address small]
  rfl

end Runs

/-- What a journal tells of progress and commits is so. -/
structure Truthful (l : Layout) (image : Image) (log : List Entry) : Prop where
  /-- Reported as committed are the chunks whose commit was answered with their checksum. -/
  commits : Honest log
  ascending : ∀ act, ((progress act log).map Prod.fst).Pairwise (· < ·)
  bounded : ∀ act, ∀ told ∈ progress act log,
    0 < told.1 ∧ told.1 ≤ told.2 ∧ told.2 = act.total l image
  follows : Follows l image (events log)
  /-- An operation that is completed has reported all bytes there are. -/
  last : ∀ act, act ≠ .writeNvm → 0 < image.size → Completed l image log act →
    (progress act log).getLast? = some (act.total l image, act.total l image)
  /-- Or those up to the last chunk that held something, if only such chunks are written. -/
  lastWritten : Completed l image log .writeNvm → ∃ qs : List Quad,
    qs.length = l.nvmChunks ∧ callsIn .backup log = (nvmPlaced l qs).map readCall ∧
      ∀ before q after, qs = before ++ q :: after → isErased q.toBytes = false →
        (∀ r ∈ after, isErased r.toBytes = true) →
        (progress .writeNvm log).getLast? = some (16 * (before.length + 1), l.nvmSize.toNat)

theorem Goes.truthful {o : Outcome Entry (Underway σ) DfuError UploadResult} (h : Goes u image o)
    (usable : u.layout.Usable) (room : u.layout.Room image.size) :
    Truthful u.layout image o.log := by
  obtain ⟨ps, result, script, ⟨_, walk⟩, stages⟩ := h.exists_stageLeft
  have reached (act : Activity) : (progress act o.log).Sublist (act.marks u.layout image) := by
    obtain ⟨made, left, -, told⟩ := stages act
    rw [told]
    cases left with
    | unentered => exact List.nil_sublist _
    | whole hp stage => exact ((script.scripted hp).reaches usable room stage).sublist
    | cut hp stage short =>
      exact short.progress_prefix.sublist.trans
        ((script.scripted hp).reaches usable room stage).sublist
  constructor
  case commits => exact h.honest
  case follows => exact h.follows usable room
  case ascending =>
    intro act
    have first := (reached act).map Prod.fst
    rw [Activity.map_fst_marks] at first
    exact (pairwise_marks _).sublist first
  case bounded =>
    intro act told htold
    obtain ⟨n, hn, rfl⟩ := List.mem_map.mp ((reached act).subset htold)
    obtain ⟨positive, inside⟩ := mem_marks hn
    exact ⟨positive, inside, rfl⟩
  case last =>
    intro act other nonempty done
    obtain ⟨made, left, called, told⟩ := stages act
    obtain ⟨next, goes_on, step⟩ := done.left
    obtain ⟨p, hp, stage, rfl⟩ := left.exists_whole goes_on step
    have all := ((script.scripted hp).reaches usable room stage).all other
      fun compares => called.symm.trans (done.same compares)
    have positive : 0 < act.total u.layout image := by
      cases act with
      | readNvm | writeNvm => exact usable.size_pos
      | compare | verify | program => exact nonempty
    rw [told, all, Activity.getLast?_marks positive]
  case lastWritten =>
    intro done
    obtain ⟨qs, read, region⟩ := script.exists_region
    obtain ⟨next, goes_on, step⟩ := done.left
    refine ⟨qs, read, ?_, fun before q after split held erased => ?_⟩
    · obtain ⟨made, left, called, -⟩ := stages .readNvm
      have before : (Activity.readNvm.stage, .erase) ∈ steps o.log :=
        backup_left_of_restore_left walk step
      obtain ⟨p, hp, stage, rfl⟩ := left.exists_whole (by decide) before
      rw [(region p hp).backup stage, calls_regionTrace_zero] at called
      exact called
    · obtain ⟨made, left, -, told⟩ := stages .writeNvm
      obtain ⟨p, hp, stage, rfl⟩ := left.exists_whole goes_on step
      rw [told, (region p hp).restore stage]
      exact Fits.getLast?_restore ⟨usable, room, read⟩ u.writer split held erased

/-! ## Completed operations -/

section Completed

variable {ps : List Phase} {result : UploadResult} {log : List Entry}

/-- What is called in the stage of a phase of a script that is followed to its end. -/
theorem Script.callsIn_eq (script : Script u image ps result)
    (left : trace log = phasesLog .start ps) {p : Phase} (hp : p ∈ ps) :
    callsIn p.stage log = calls p.log := by
  rw [callsIn_eq_of_left left script.steady, stageLog_eq_log script.walk.pairwise.2 hp]

/-- A comparison that finds no difference is answered with every word. -/
theorem ComparesPieces.calls_eq {activity : Activity} {size : Nat} {text : Event}
    (h : ComparesPieces activity size (image.pieces l.flashBase) log .identical) :
    calls (log ++ [.event text]) = (imagePlaced l image).map readCall := by
  rw [calls_append, calls_event_cons, calls_nil, List.append_nil]
  exact h.compares_image.identical_iff.mp rfl

/-- When a device was reprogrammed, all operations but the first comparison were completed, the
last one if it found no difference. -/
theorem Script.completed_reflash (opening : List Phase) {qs : List Quad} {verified : List Entry}
    {c : Comparison} (script : Script u image (opening ++ reflashPhases u image qs verified c) result)
    (left : trace log = phasesLog .start (opening ++ reflashPhases u image qs verified c))
    (verifies : Verifies u image verified c) {act : Activity} (other : act ≠ .compare)
    (found : act = .verify → c = .identical) : Completed u.layout image log act where
  left := by
    rw [steps_eq_of_left left script.steady, stepsThrough_append]
    generalize lastStage .start opening = previous
    have onward : ∃ next, next ≠ .aborted ∧
        (act.stage, next) ∈ stepsThrough previous (reflashPhases u image qs verified c) := by
      cases act with
      | compare => exact absurd rfl other
      | readNvm => exact ⟨.erase, by decide, by simp [reflashPhases, stepsThrough, Activity.stage]⟩
      | program =>
        exact ⟨.restore, by decide, by simp [reflashPhases, stepsThrough, Activity.stage]⟩
      | writeNvm =>
        exact ⟨.verify, by decide, by simp [reflashPhases, stepsThrough, Activity.stage]⟩
      | verify =>
        -- the verification is followed by the reset, or by the end
        cases reset : u.options.reset with
        | true =>
          exact ⟨.reset, by decide, by simp [reflashPhases, stepsThrough, Activity.stage, reset]⟩
        | false =>
          exact ⟨.done, by decide, by simp [reflashPhases, stepsThrough, Activity.stage, reset]⟩
    obtain ⟨next, goes_on, step⟩ := onward
    exact ⟨next, goes_on, List.mem_append_right _ step⟩
  same := by
    intro compares
    obtain rfl : act = .verify := by
      cases act with
      | compare => exact absurd rfl other
      | verify => rfl
      | readNvm | writeNvm | program => cases compares
    obtain rfl := found rfl
    have here : ⟨.verify, verified ++ [.event (verdict .identical)]⟩
        ∈ opening ++ reflashPhases u image qs verified .identical :=
      List.mem_append_right _ (by simp [reflashPhases])
    exact (script.callsIn_eq left here).trans verifies.calls_eq

/-- An upload that succeeds has completed its operations: the first comparison, when it finds the
device up to date, and all the others when it does not. -/
theorem Goes.completed {o : Outcome Entry (Underway σ) DfuError UploadResult} (h : Goes u image o) :
    (o.result = .ok .upToDate → Completed u.layout image o.log .compare) ∧
      ∀ restored c reset, o.result = .ok (.flashed restored c reset) → ∀ act, act ≠ .compare →
        (act = .verify → c = .identical) → Completed u.layout image o.log act := by
  cases h with
  | stopped => exact ⟨nofun, nofun⟩
  | finished script left =>
    cases script with
    | upToDate compared h =>
      refine ⟨fun _ => ⟨⟨.done, nofun, ?_⟩, fun _ => ?_⟩, nofun⟩
      · rw [steps_eq_of_left left (Script.upToDate compared h).steady]
        simp [stepsThrough, Activity.stage]
      · exact ((Script.upToDate compared h).callsIn_eq left (List.mem_cons_self ..)).trans h.calls_eq
    | differing compared h read verifies =>
      refine ⟨nofun, ?_⟩
      rintro _ _ _ ⟨⟩ act other found
      exact Script.completed_reflash [⟨.compare, _⟩] (.differing compared h read verifies) left
        verifies other found
    | forced forced read verifies =>
      refine ⟨nofun, ?_⟩
      rintro _ _ _ ⟨⟩ act other found
      exact Script.completed_reflash [] (.forced forced read verifies) left verifies other found

end Completed

/-- The events of a first upload tell the truth about its commits and its progress, whatever the
device does and wherever it fails.  An upload that succeeds has completed its operations: the first
comparison, when the device was up to date, and otherwise all the others. -/
theorem run_truthful (d : Device σ) (s : σ) (config : Config) (options : UploadOptions)
    (image : Image) (valid : config.layout.validate = .ok ())
    (fits : config.layout.checkImageFits image.size = .ok ()) :
    let o := (Uploader.forDevice d s config options).run d image ⟨{}, s⟩
    Truthful config.layout image o.log ∧ d.Ran s (calls o.log) o.state.device ∧
      (o.result = .ok .upToDate → Completed config.layout image o.log .compare) ∧
      ∀ restored c reset, o.result = .ok (.flashed restored c reset) → ∀ act, act ≠ .compare →
        (act = .verify → c = .identical) → Completed config.layout image o.log act := by
  intro o
  have usable : config.layout.Usable := Layout.usable_of_validate valid
  obtain ⟨goes, ran⟩ := run_course (Uploader.forDevice d s config options) d s image usable fits
  exact ⟨goes.truthful usable (Layout.room_of_fits usable fits), ran, goes.completed⟩

/-- The forced upload of three bytes reports its one chunk, and every operation to its end. -/
theorem run_truthful_three_bytes :
    Truthful ⟨0x1000, 0x2000, 16⟩ ⟨[1, 2, 3]⟩ threeByteRun.log ∧
      committed (events threeByteRun.log) = [(0x1000, 0x030201)] ∧
      (progress .readNvm threeByteRun.log).getLast? = some (16, 16) ∧
      (progress .program threeByteRun.log).getLast? = some (3, 3) ∧
      (progress .verify threeByteRun.log).getLast? = some (3, 3) := by
  obtain ⟨truthful, -, -, completed⟩ := run_truthful threeByteDevice ()
    { layout := ⟨0x1000, 0x2000, 16⟩ } { force := true } ⟨[1, 2, 3]⟩ rfl rfl
  have reported : committed (events threeByteRun.log) = [(0x1000, 0x030201)] := by
    with_unfolding_all rfl
  have last (act : Activity) (other : act ≠ .compare ∧ act ≠ .writeNvm) :=
    truthful.last act other.2 (by decide) (completed _ _ _ threeByteRun_flashed act other.1 fun _ => rfl)
  exact ⟨truthful, reported, last .readNvm (by decide), last .program (by decide),
    last .verify (by decide)⟩

end CanDfu
