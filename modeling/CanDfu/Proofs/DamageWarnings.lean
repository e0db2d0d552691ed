/-
  CanDfu.Proofs.DamageWarnings

  When the operator is warned.  A failed upload warns by the stage it was aborted in; whether the
  device may be damaged is a matter of what it was asked.

    * `RestoreCompleted` : the calls begin with all that takes flash from its old contents to the
      image and the restored NVM region, each call answered well.
    * `StoppedWhere` : the calls of an upload that stopped in some stage, as far as the damage goes:
      nothing was erased yet, the erase was asked for and the restore not completed, or it was.

  Calls are read in one way only: reads and their answers tell what was compared and what the NVM
  region held (`FoundDifferent.append_inj`, `backupCalls_append_inj`).  So no upload that stopped
  on the way has calls that look like a completed restore.
-/
import CanDfu.Proofs.CallDiscipline
import CanDfu.Proofs.FirstRun

namespace CanDfu

variable {σ : Type} {u : Uploader} {image : Image} {log more : List Entry} {st previous : Stage}
  {ps : List Phase}

/-! ## Warnings -/

/-- The operator was warned. -/
def Warned (log : List Entry) : Prop := ∃ text, Event.log .warn text ∈ events log

/-- The stages in which a failure may leave the device without its firmware or NVM contents. -/
def Stage.endangers : Stage → Bool
  | erase | program | restore => true
  | _ => false

theorem warned_append : Warned (log ++ more) ↔ Warned log ∨ Warned more := by
  unfold Warned
  rw [← exists_or]
  refine exists_congr fun text => ?_
  rw [events_append, List.mem_append]

/-- An upload that stops warns in exactly these stages. -/
theorem warned_warnings_iff (st : Stage) : Warned (warnings st) ↔ st.endangers = true := by
  cases st <;> simp [Warned, warnings, Stage.endangers]

theorem warned_phasesLog_iff : Warned (phasesLog previous ps) ↔ ∃ p ∈ ps, Warned p.log := by
  induction ps generalizing previous with
  | nil => simp [Warned, phasesLog]
  | cons p rest ih =>
    have step : Warned (phasesLog previous (p :: rest))
        ↔ Warned (p.log ++ phasesLog p.stage rest) := by
      refine exists_congr fun text => ?_
      have no_step : Event.log .warn text ≠ .stageChanged previous p.stage := by
        intro same
        cases same
      rw [phasesLog, List.cons_append, events_event_cons, List.mem_cons]
      exact or_iff_right no_step
    rw [step, warned_append, ih]
    simp

/-- Nothing in a script warns. -/
theorem ScriptPhase.not_warned {p : Phase} (h : ScriptPhase u image p) : ¬ Warned p.log := by
  rintro ⟨text, he⟩
  cases h with
  | compare h =>
    rw [events_append, List.mem_append] at he
    rcases he with he | he
    · obtain ⟨n, same⟩ := h.mem_events he
      cases same
    · cases List.mem_singleton.mp he
  | backup =>
    obtain ⟨n, same⟩ := mem_events_regionTrace he
    cases same
  | erase => cases he
  | program =>
    rw [events_programTrace] at he
    obtain ⟨piece, -, he⟩ := List.mem_flatMap.mp he
    simp at he
  | restore =>
    rw [events_restoreTrace] at he
    obtain ⟨c, -, he⟩ := List.mem_flatMap.mp he
    simp at he
  | @verify _ c verifies =>
    rw [events_append, List.mem_append] at he
    rcases he with he | he
    · obtain ⟨n, same⟩ := verifies.mem_events he
      cases same
    · cases c <;> cases List.mem_singleton.mp he
  | reset => cases List.mem_singleton.mp he
  | done => cases List.mem_singleton.mp he

/-- A log that is cut short warns of nothing that the whole one does not. -/
theorem Cut.warned {full : List Entry} {e : DfuError} (h : Cut full e log) (warned : Warned log) :
    Warned full :=
  warned.imp fun _ he => h.events_subset he

/-- A first run warns exactly when it was aborted in a stage that endangers the device. -/
theorem FirstRun.warned_iff {s : σ} {o : Outcome Entry (Underway σ) DfuError UploadResult}
    (h : FirstRun u image s o) :
    Warned o.log ↔ ∃ st, o.state.tracker.abortedIn = some st ∧ st.endangers = true := by
  have traced : Warned (trace o.log) ↔ Warned o.log := by
    unfold Warned
    rw [events_trace]
  rw [← traced]
  cases h with
  | unfit size left =>
    simp only [left, warned_phasesLog_iff]
    simp [Warned, Stage.endangers]
  | goes fits h =>
    cases h with
    | finished script left =>
      simp only [left, warned_phasesLog_iff]
      constructor
      · rintro ⟨p, hp, warned⟩
        exact absurd warned (script.scripted hp).not_warned
      · rintro ⟨st, aborted, -⟩
        cases aborted
    | @stopped ps before after p result e l log s script split short left =>
      have scripted {q : Phase} (hq : q ∈ before ++ p :: after) : ScriptPhase u image q :=
        script.scripted (split ▸ hq)
      simp only [left, warned_phasesLog_iff]
      constructor
      · rintro ⟨q, hq, warned⟩
        simp only [List.mem_append, List.mem_cons, List.not_mem_nil, or_false] at hq
        rcases hq with hq | rfl | rfl
        · exact absurd warned (scripted (List.mem_append_left _ hq)).not_warned
        · have cut := scripted (List.mem_append_right _ (List.mem_cons_self ..))
          exact absurd (short.warned warned) cut.not_warned
        · exact ⟨p.stage, rfl, (warned_warnings_iff _).mp warned⟩
      · rintro ⟨st, aborted, danger⟩
        obtain rfl := Option.some.inj aborted
        exact ⟨⟨.aborted, warnings p.stage⟩, by simp, (warned_warnings_iff _).mpr danger⟩

/-! ## Calls that are read in one way -/

/-- The reads of an NVM region that holds some quads. -/
def backupCalls (u : Uploader) (qs : List Quad) : List Call :=
  ((chunksFrom u.layout.nvmBase qs).flatMap Chunk.placed).map readCall

/-- The calls that change flash: erasing, programming, and restoring an NVM region that held some
quads. -/
def changingCalls (u : Uploader) (image : Image) (qs : List Quad) : List Call :=
  [⟨.erase u.writer.form.seed, .ok (0 : UInt8)⟩] ++
    (image.chunks u.layout.flashBase).flatMap u.writer.calls ++
    (dirtyChunks u.layout.nvmBase qs).flatMap u.writer.calls

/-- The image was found to differ, or was not compared; the NVM region was read; and then flash was
erased, programmed with the image, and given back what the region held. -/
def RestoreCompleted (u : Uploader) (image : Image) (made : List Call) : Prop :=
  ∃ first qs, FoundDifferent u image first ∧ qs.length = u.layout.nvmChunks ∧
    first ++ backupCalls u qs ++ changingCalls u image qs <+: made

section Calls

variable {made rest : List Call} {e : DfuError}

/-- A comparison of the same words ends at the same read. -/
theorem Compares.append_inj {ws : List (UInt32 × UInt32)} {cs cs' rest' : List Call}
    {c c' : Comparison} (h : Compares ws cs c) (h' : Compares ws cs' c')
    (same : cs ++ rest = cs' ++ rest') : cs = cs' ∧ rest = rest' := by
  induction h generalizing cs' with
  | done =>
    cases h'
    exact ⟨rfl, same⟩
  | same _ ih =>
    cases h' with
    | same h' =>
      injection same with _ same
      obtain ⟨rfl, rfl⟩ := ih h' same
      exact ⟨rfl, rfl⟩
    | differs different =>
      injection same with here
      cases here
      exact absurd rfl different
  | differs different =>
    cases h' with
    | same =>
      injection same with here
      cases here
      exact absurd rfl different
    | differs =>
      injection same with here same
      exact ⟨congrArg ([·]) here, same⟩

theorem FoundDifferent.append_inj {first first' rest' : List Call}
    (h : FoundDifferent u image first) (h' : FoundDifferent u image first')
    (same : first ++ rest = first' ++ rest') : first = first' ∧ rest = rest' := by
  cases h with
  | forced forced =>
    cases h' with
    | forced => exact ⟨rfl, same⟩
    | compared compared => cases forced.symm.trans compared
  | compared compared h =>
    cases h' with
    | forced forced => cases forced.symm.trans compared
    | compared _ h' => exact h.append_inj h' same

/-- Reading a region tells what it held. -/
theorem backupCalls_append_inj {qs qs' : List Quad} {rest' : List Call}
    (size : qs.length = qs'.length)
    (same : backupCalls u qs ++ rest = backupCalls u qs' ++ rest') : qs = qs' ∧ rest = rest' := by
  unfold backupCalls at same
  generalize u.layout.nvmBase = base at same
  induction qs generalizing base qs' with
  | nil =>
    obtain rfl := List.length_eq_zero_iff.mp size.symm
    exact ⟨rfl, same⟩
  | cons q qs ih =>
    cases qs' with
    | nil => cases size
    | cons q' qs' =>
      simp only [chunksFrom, List.flatMap_cons, Chunk.placed, List.cons_append, List.nil_append,
        List.map_cons, List.cons.injEq, readCall, Call.mk.injEq, heq_eq_eq,
        Except.ok.injEq] at same
      obtain ⟨⟨-, w0⟩, ⟨-, w1⟩, ⟨-, w2⟩, ⟨-, w3⟩, same⟩ := same
      obtain ⟨rfl, rfl⟩ := ih (Nat.succ.inj size) _ same
      have word_by_word : q = q' := by
        cases q
        exact Quad.mk.injEq .. ▸ ⟨w0, w1, w2, w3⟩
      exact ⟨congrArg (· :: qs) word_by_word, rfl⟩

/-- Changes that were cut short are no completed restore. -/
theorem not_restoreCompleted_of_halted {first : List Call} {qs : List Quad}
    (different : FoundDifferent u image first) (read : qs.length = u.layout.nvmChunks)
    (halted : Halted (changingCalls u image qs) e rest) :
    ¬ RestoreCompleted u image (first ++ backupCalls u qs ++ rest) := by
  rintro ⟨first', qs', different', read', more, same⟩
  simp only [List.append_assoc] at same
  obtain ⟨rfl, behind⟩ := different'.append_inj different same
  obtain ⟨rfl, changes⟩ := backupCalls_append_inj (read'.trans read.symm) behind
  exact halted.not_prefix ⟨more, changes⟩

/-- The first change that is asked for is the erase. -/
theorem exists_erase_of_halted {qs : List Quad}
    (halted : Halted (changingCalls u image qs) e rest) :
    ∃ c ∈ rest, ∃ seed, c.command = .erase seed := by
  rw [changingCalls, List.append_assoc, List.singleton_append, halted_cons] at halted
  rcases halted with ⟨bad, rfl, stops⟩ | ⟨rest, rfl, -⟩
  · exact ⟨bad, List.mem_cons_self .., _, stops.command_eq⟩
  · exact ⟨_, List.mem_cons_self .., _, rfl⟩

/-- Calls that only read, whatever the answers. -/
def OnlyReads (cs : List Call) : Prop := ∀ c ∈ cs, ∃ a, c.command = .read a

theorem OnlyReads.append {cs cs' : List Call} (h : OnlyReads cs) (h' : OnlyReads cs') :
    OnlyReads (cs ++ cs') :=
  List.forall_mem_append.mpr ⟨h, h'⟩

/-- Cut short, reads are still reads. -/
theorem OnlyReads.of_halted {plan : List Call} (h : OnlyReads plan) (halted : Halted plan e made) :
    OnlyReads made := by
  intro c hc
  have planned := halted.commands_prefix.subset (List.mem_map_of_mem hc)
  obtain ⟨c', hc', same⟩ := List.mem_map.mp planned
  exact same ▸ h c' hc'

theorem Compares.onlyReads {ws : List (UInt32 × UInt32)} {cs : List Call} {c : Comparison}
    (h : Compares ws cs c) : OnlyReads cs := by
  intro call hc
  obtain ⟨p, -, read⟩ := h.mem hc
  exact ⟨p.1, read⟩

theorem onlyReads_backupCalls (u : Uploader) (qs : List Quad) : OnlyReads (backupCalls u qs) := by
  intro call hc
  obtain ⟨p, -, rfl⟩ := List.mem_map.mp hc
  exact ⟨p.1, rfl⟩

theorem FoundDifferent.onlyReads {first : List Call} (h : FoundDifferent u image first) :
    OnlyReads first := by
  cases h with
  | forced => exact fun _ hc => nomatch hc
  | compared _ h => exact h.onlyReads

end Calls

/-! ## The phases of a reprogramming -/

section Reprogramming

variable (u : Uploader) (image : Image) (qs : List Quad) (verified : List Entry) (c : Comparison)

/-- The phase that reads the NVM region. -/
def backupPhase : Phase :=
  ⟨.backup, regionTrace u.layout.nvmBase u.layout.nvmSize.toNat 0 qs⟩

/-- The phases that change flash. -/
def changingPhases : List Phase :=
  [⟨.erase, [.call (.erase u.writer.form.seed) (.ok (0 : UInt8))]⟩,
    ⟨.program, programTrace u.writer image.size (image.pieces u.layout.flashBase)⟩,
    ⟨.restore, restoreTrace u.writer u.layout.nvmBase (chunkBytes * qs.length)
      (dirtyChunks u.layout.nvmBase qs)⟩]

/-- The phases behind these, which leave flash as it is. -/
def closingPhases : List Phase :=
  ⟨.verify, verified ++ [.event (verdict c)]⟩ ::
    ((if u.options.reset then
      [⟨.reset, [.call .reset (.ok ()), .event (.log .info "Device reset")]⟩] else []) ++
    [⟨.done, [.event .complete]⟩])

theorem reflashPhases_eq :
    reflashPhases u image qs verified c
      = [backupPhase u qs] ++ (changingPhases u image qs ++ closingPhases u verified c) := rfl

theorem phaseCalls_backupPhase : phaseCalls [backupPhase u qs] = backupCalls u qs := by
  rw [phaseCalls_cons, phaseCalls_nil, List.append_nil, backupPhase, calls_regionTrace_zero,
    backupCalls]

theorem phaseCalls_changingPhases :
    phaseCalls (changingPhases u image qs) = changingCalls u image qs := by
  simp [changingPhases, changingCalls, calls_programTrace_pieces, calls_restoreTrace]

theorem endangers_changingPhases : ∀ p ∈ changingPhases u image qs, p.stage.endangers = true := by
  simp [changingPhases, Stage.endangers]

theorem endangers_closingPhases : ∀ p ∈ closingPhases u verified c, p.stage.endangers = false := by
  unfold closingPhases
  split <;> simp [Stage.endangers]

end Reprogramming

/-! ## Where an upload stops -/

section Stopping

variable {d : Device σ} {s s' : σ} {e : DfuError} {made : List Call}

/-- An upload stops in the stage of one of its phases. -/
theorem StopsIn.endangers_eq {b : Bool} (h : StopsIn d e st s ps made s')
    (all : ∀ p ∈ ps, p.stage.endangers = b) : st.endangers = b := by
  induction h with
  | here stage => exact stage ▸ all _ (List.mem_cons_self ..)
  | later _ _ ih => exact ih fun p hp => all p (List.mem_cons_of_mem _ hp)

/-- What an upload that stopped in a stage had done to flash. -/
inductive StoppedWhere (u : Uploader) (image : Image) : Stage → List Call → Prop
  | reading {st : Stage} {made : List Call} (safe : st.endangers = false)
      (reads : OnlyReads made) : StoppedWhere u image st made
  | changing {st : Stage} {first rest : List Call} {qs : List Quad} {e : DfuError}
      (danger : st.endangers = true) (different : FoundDifferent u image first)
      (read : qs.length = u.layout.nvmChunks) (halted : Halted (changingCalls u image qs) e rest) :
      StoppedWhere u image st (first ++ backupCalls u qs ++ rest)
  | changed {st : Stage} {made : List Call} (safe : st.endangers = false)
      (completed : RestoreCompleted u image made) : StoppedWhere u image st made

/-- The stage tells whether flash was being changed. -/
theorem StoppedWhere.endangers_iff (h : StoppedWhere u image st made) :
    st.endangers = true ↔
      (∃ c ∈ made, ∃ seed, c.command = .erase seed) ∧ ¬ RestoreCompleted u image made := by
  cases h with
  | reading safe reads =>
    rw [safe]
    refine ⟨nofun, ?_⟩
    rintro ⟨⟨c, hc, seed, erases⟩, -⟩
    obtain ⟨a, read⟩ := reads c hc
    cases read.symm.trans erases
  | changing danger different read halted =>
    obtain ⟨c, hc, erases⟩ := exists_erase_of_halted halted
    refine ⟨fun _ => ⟨⟨c, List.mem_append_right _ hc, erases⟩, ?_⟩, fun _ => danger⟩
    exact not_restoreCompleted_of_halted different read halted
  | changed safe completed =>
    rw [safe]
    exact ⟨nofun, fun h => absurd completed h.2⟩

/-- A reprogramming that stops, after phases that found the device to be different. -/
theorem stoppedWhere_reflash {opening : List Phase} {qs : List Quad} {verified : List Entry}
    {c : Comparison} (different : FoundDifferent u image (phaseCalls opening))
    (safe : ∀ p ∈ opening, p.stage.endangers = false) (read : qs.length = u.layout.nvmChunks)
    (stops : StopsIn d e st s (opening ++ reflashPhases u image qs verified c) made s') :
    StoppedWhere u image st made := by
  rw [reflashPhases_eq, ← List.append_assoc] at stops
  have reads : phaseCalls (opening ++ [backupPhase u qs])
      = phaseCalls opening ++ backupCalls u qs := by
    rw [phaseCalls_append, phaseCalls_backupPhase]
  rcases stops.cases_append with here | ⟨s₁, rest, rfl, later⟩
  -- stopped before the erase: nothing but reads was asked for
  · refine .reading (here.endangers_eq ?_) ?_
    · exact List.forall_mem_append.mpr ⟨safe, List.forall_mem_singleton.mpr rfl⟩
    · have only := different.onlyReads.append (onlyReads_backupCalls u qs)
      exact (reads ▸ only).of_halted here.halted
  rw [reads]
  rcases later.cases_append with here | ⟨s₂, rest, rfl, behind⟩
  -- stopped between the erase and the end of the restore
  · have halted := phaseCalls_changingPhases u image qs ▸ here.halted
    exact .changing (here.endangers_eq (endangers_changingPhases u image qs)) different read halted
  -- stopped behind the restore
  · refine .changed (behind.endangers_eq (endangers_closingPhases u verified c)) ?_
    refine ⟨_, qs, different, read, ?_⟩
    rw [phaseCalls_changingPhases, ← List.append_assoc]
    exact List.prefix_append ..

theorem Script.stoppedWhere {result : UploadResult} (script : Script u image ps result)
    (stops : StopsIn d e st s ps made s') : StoppedWhere u image st made := by
  have compared {l : List Entry} {c : Comparison} (said : Event)
      (h : ComparesPieces .compare image.size (image.pieces u.layout.flashBase) l c) :
      Compares ((image.chunks u.layout.flashBase).flatMap Chunk.placed)
        (phaseCalls [⟨.compare, l ++ [.event said]⟩]) c := by
    simpa using h.compares_image
  cases script with
  | @upToDate l _ h =>
    refine .reading (stops.endangers_eq ?_) ?_
    · simp [Stage.endangers]
    · refine OnlyReads.of_halted ?_ stops.halted
      show OnlyReads (phaseCalls ([_] ++ [⟨.done, [.event .complete]⟩]))
      rw [phaseCalls_append]
      exact (compared _ h).onlyReads.append fun _ hc => absurd hc List.not_mem_nil
  | @differing l verified a w v qs c unforced h read verifies =>
    change StopsIn d e st s ([_] ++ reflashPhases u image qs verified c) made s' at stops
    refine stoppedWhere_reflash ?_ (List.forall_mem_singleton.mpr rfl) read stops
    exact .compared unforced (compared _ h)
  | forced forced read verifies =>
    have different : FoundDifferent u image (phaseCalls []) := .forced forced
    exact stoppedWhere_reflash different (List.forall_mem_nil _) read stops

/-- An upload was aborted in a stage that endangers the device exactly when it failed with the
erase asked for and the restore not completed. -/
theorem Ends.endangers_iff {o : Outcome Entry (Underway σ) DfuError UploadResult}
    (h : Ends u d s image o) :
    (∃ st, o.state.tracker.abortedIn = some st ∧ st.endangers = true) ↔
      (∃ e, o.result = .error e) ∧ (∃ c ∈ calls o.log, ∃ seed, c.command = .erase seed) ∧
        ¬ RestoreCompleted u image (calls o.log) := by
  cases h with
  | finished =>
    refine ⟨?_, ?_⟩
    · rintro ⟨st, aborted, -⟩
      cases aborted
    · rintro ⟨⟨e, failed⟩, -⟩
      cases failed
  | @stopped ps result e st s' log script stops =>
    rw [← (script.stoppedWhere stops).endangers_iff]
    constructor
    · rintro ⟨st', aborted, danger⟩
      obtain rfl := Option.some.inj aborted
      exact ⟨⟨e, rfl⟩, danger⟩
    · rintro ⟨-, danger⟩
      exact ⟨st, rfl, danger⟩

end Stopping

/-! ## First runs -/

/-- The same for first runs of any image, whose journals are true: one that does not fit is refused
with nothing asked of the device. -/
theorem first_run_endangers_iff (u : Uploader) (d : Device σ) (s : σ) (image : Image)
    (usable : u.layout.Usable) :
    let o := u.run d image ⟨{}, s⟩
    ((∃ st, o.state.tracker.abortedIn = some st ∧ st.endangers = true) ↔
      (∃ e, o.result = .error e) ∧ (∃ c ∈ calls o.log, ∃ seed, c.command = .erase seed) ∧
        ¬ RestoreCompleted u image (calls o.log)) ∧
      d.Ran s (calls o.log) o.state.device := by
  by_cases size : u.layout.maxImageSize < Layout.paddedSize image.size
  -- nothing was asked of the device, and the check is no stage that endangers it
  · obtain ⟨log, run, -, silent⟩ := run_unfit d s size
    rw [run]
    simp only [silent]
    refine ⟨?_, .nil s⟩
    simp [Stage.endangers]
  · have fits := Layout.checkImageFits_of_le (Nat.le_of_not_lt size)
    have ran := (run_course u d s image usable fits).2
    exact ⟨(run_ends u d s image usable fits).endangers_iff, ran⟩

/-- On an accepted layout a first run warns exactly when it fails with the device asked to erase
and its NVM region not restored, whatever the device does and whether or not the image fits.
Those are the failures in the stages from the erase to the restore. -/
theorem run_warns_iff (d : Device σ) (s : σ) (config : Config) (options : UploadOptions)
    (image : Image) (valid : config.layout.validate = .ok ()) :
    let u := Uploader.forDevice d s config options
    let o := u.run d image ⟨{}, s⟩
    (Warned o.log ↔
      (∃ e, o.result = .error e) ∧ (∃ c ∈ calls o.log, ∃ seed, c.command = .erase seed) ∧
        ¬ RestoreCompleted u image (calls o.log)) ∧
      (Warned o.log ↔ ∃ st, o.state.tracker.abortedIn = some st ∧ st.endangers = true) ∧
      d.Ran s (calls o.log) o.state.device := by
  intro u o
  have usable : u.layout.Usable := Layout.usable_of_validate valid
  have warned := (first_run u d s image usable).warned_iff
  obtain ⟨endangers, ran⟩ := first_run_endangers_iff u d s image usable
  exact ⟨warned.trans endangers, warned, ran⟩

/-- A device that holds zeros and answers nothing but reads. -/
def lockedDevice : Device Unit where
  call
    | .read _ => pure 0
    | _ => Routine.fail (.noResponse 1000)
  seed _ := none

/-- A configuration whose NVM region is one chunk. -/
def oneChunkConfig : Config where
  layout := { nvmSize := 16 }

/-- All of that region is read as zeros. -/
theorem backup_lockedDevice :
    Preservation.backup lockedDevice oneChunkConfig.layout = fun _ =>
      ⟨.ok (some ⟨List.replicate 16 0⟩), (), regionTrace 0x1E000 16 0 [⟨0, 0, 0, 0⟩] ++
        [.ofRecord .debug "NVM region backed up" [("bytes", "16")]]⟩ := by
  have words : oneChunkConfig.layout.nvmWords = 4 := rfl
  have rest (base : UInt32) (total done : Nat) :
      Preservation.readRegion lockedDevice base total done (4 - 4) = pure [] := by
    unfold Preservation.readRegion
    rfl
  unfold Preservation.backup
  rw [words]
  unfold Preservation.readRegion
  rw [rest]
  rfl

/-- A forced upload to that device stops at the erase, and warns. -/
theorem run_warns_iff_locked :
    let u := Uploader.forDevice lockedDevice () oneChunkConfig { force := true }
    let o := u.run lockedDevice ⟨[1]⟩ ⟨{}, ()⟩
    Warned o.log ∧ (∃ c ∈ calls o.log, ∃ seed, c.command = .erase seed) ∧
      ¬ RestoreCompleted u ⟨[1]⟩ (calls o.log) := by
  intro u o
  have reported : events o.log = [.stageChanged .start .backup, .progress .readNvm 16 16,
      .stageChanged .backup .erase, .stageChanged .erase .aborted,
      .log .warn "Erase did not complete; firmware and NVM config may have been erased"] := by
    have layout : u.layout = oneChunkConfig.layout := rfl
    show events (u.run lockedDevice ⟨[1]⟩ ⟨{}, ()⟩).log = _
    unfold Uploader.run Uploader.pipeline Uploader.reflash
    rw [layout, backup_lockedDevice]
    rfl
  have warned : Warned o.log := by
    refine ⟨"Erase did not complete; firmware and NVM config may have been erased", ?_⟩
    rw [reported]
    exact List.mem_of_getLast? rfl
  exact ⟨warned, ((run_warns_iff lockedDevice () oneChunkConfig { force := true } ⟨[1]⟩ rfl).1.mp
    warned).2⟩

end CanDfu
