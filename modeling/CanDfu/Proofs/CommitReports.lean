/-
  CanDfu.Proofs.CommitReports

  The chunks an upload reports as committed are those the device has committed, as far as its own
  answers tell.

    * `confirmed` : follows the scratch registers through a list of calls, and keeps the commits
      that were answered with the checksum of what they held.
    * `Honest` : a journal that reports these commits, in order, and no others.

  A chunk is reported right after its commit is answered, so the journal stays honest through
  every phase, and through one that a failure cuts short.
-/
import CanDfu.Proofs.FirstRun

namespace CanDfu

/-! ## Commits and reports -/

/-- What the scratch registers hold after a call, if it was `q` before. -/
def Call.stages (q : Quad) : Call → Quad
  | ⟨.scratch index value, .ok _⟩ => (q.set? index value).getD q
  | _ => q

/-- The address and the answer of a commit, if the answer is the checksum of what was staged. -/
def Call.confirms? (staged : Quad) : Call → Option (UInt32 × UInt32)
  | ⟨.commit address _, .ok answer⟩ =>
    if answer = staged.checksum then some (address, answer) else none
  | _ => none

/-- The commits among some calls that were confirmed, when the registers hold `q` before them. -/
def confirmed : Quad → List Call → List (UInt32 × UInt32)
  | _, [] => []
  | q, c :: rest => (c.confirms? q).toList ++ confirmed (c.stages q) rest

/-- The address and the checksum of a chunk that an event reports as committed. -/
def Event.committed? : Event → Option (UInt32 × UInt32)
  | chunkCommitted address checksum => some (address, checksum)
  | _ => none

/-- The chunks that were reported as committed, in order. -/
def committed (es : List Event) : List (UInt32 × UInt32) := es.filterMap Event.committed?

/-- What is reported as committed is what was confirmed, whatever the registers held before. -/
def Honest (log : List Entry) : Prop := ∀ q, committed (events log) = confirmed q (calls log)

theorem committed_append (es more : List Event) :
    committed (es ++ more) = committed es ++ committed more :=
  List.filterMap_append

theorem confirmed_append (q : Quad) (cs more : List Call) :
    confirmed q (cs ++ more) = confirmed q cs ++ confirmed (cs.foldl Call.stages q) more := by
  induction cs generalizing q with
  | nil => rfl
  | cons c rest ih =>
    rw [List.cons_append, confirmed, confirmed, ih, List.append_assoc]
    rfl

section Honest

variable {log more full : List Entry} {e : DfuError}

/-- Nothing said, nothing committed. -/
theorem honest_nil : Honest [] := fun _ => rfl

/-- Since an honest log is so from whatever the registers hold, a later one does not depend on
what was staged before it. -/
theorem Honest.append (h : Honest log) (h' : Honest more) : Honest (log ++ more) := by
  intro q
  rw [events_append, calls_append, committed_append, confirmed_append, h q, h' _]

theorem honest_flatMap {α : Type} {f : α → List Entry} {l : List α} (h : ∀ x ∈ l, Honest (f x)) :
    Honest (l.flatMap f) := by
  induction l with
  | nil => exact honest_nil
  | cons x rest ih =>
    obtain ⟨here, later⟩ := List.forall_mem_cons.mp h
    exact here.append (ih later)

theorem honest_trace_iff : Honest (trace log) ↔ Honest log := by
  unfold Honest
  rw [events_trace, calls_trace]

/-! ## Logs without commits -/

/-- Calls of which none commits anything. -/
def NoCommit (cs : List Call) : Prop := ∀ c ∈ cs, ∀ a seed, c.command ≠ .commit a seed

theorem noCommit_nil : NoCommit [] := List.forall_mem_nil _

theorem NoCommit.confirmed_eq_nil {cs : List Call} (h : NoCommit cs) (q : Quad) :
    confirmed q cs = [] := by
  induction cs generalizing q with
  | nil => rfl
  | cons c rest ih =>
    obtain ⟨here, later⟩ := List.forall_mem_cons.mp h
    have unconfirmed : c.confirms? q = none := by
      obtain ⟨k, answer⟩ := c
      cases k with
      | commit a seed => exact absurd rfl (here a seed)
      | read | scratch | erase | reset => rfl
    rw [confirmed, unconfirmed, ih later]
    rfl

/-- Up to the one that stops them, calls have the commands that were planned. -/
theorem NoCommit.of_halted {plan made : List Call} (h : NoCommit plan)
    (halted : Halted plan e made) : NoCommit made := by
  intro c hc
  have planned := halted.commands_prefix.subset (List.mem_map_of_mem hc)
  obtain ⟨k, hk, same⟩ := List.mem_map.mp planned
  rw [← same]
  exact h k hk

/-- A log in which nothing is committed, and nothing reported as committed. -/
structure Idle (log : List Entry) : Prop where
  calls : NoCommit (calls log)
  events : ∀ e ∈ events log, e.committed? = none

theorem Idle.honest (h : Idle log) : Honest log := by
  intro q
  rw [h.calls.confirmed_eq_nil, committed, List.filterMap_eq_nil_iff.mpr h.events]

theorem Idle.append (h : Idle log) (h' : Idle more) : Idle (log ++ more) where
  calls := by
    rw [calls_append]
    exact List.forall_mem_append.mpr ⟨h.calls, h'.calls⟩
  events := by
    rw [events_append]
    exact List.forall_mem_append.mpr ⟨h.events, h'.events⟩

theorem idle_event {said : Event} (h : said.committed? = none) : Idle [.event said] where
  calls := noCommit_nil
  events := List.forall_mem_singleton.mpr h

theorem Idle.of_cut (h : Idle full) (short : Cut full e log) : Idle log where
  calls := h.calls.of_halted short.halted
  events := fun said hsaid => h.events said (short.events_subset hsaid)

end Honest

/-! ## Writing chunks -/

theorem noCommit_stagings (c : Chunk) : NoCommit c.stagings := by
  simp [NoCommit, Chunk.stagings]

/-- The registers hold a chunk once it is staged, whatever they held before. -/
theorem foldl_stagings (c : Chunk) (q : Quad) : c.stagings.foldl Call.stages q = c.words := rfl

section Writing

variable (w : Writer) {c : Chunk} {e : DfuError} {progress : Event}

/-- An answer confirms the commit of a chunk that is staged when it is the chunk's checksum. -/
theorem confirmed_commit (c : Chunk) (seed : Option UInt32) (v : UInt32) :
    confirmed c.words [⟨.commit c.address seed, .ok v⟩]
      = if v = c.checksum then [(c.address, v)] else [] := by
  show (if v = c.checksum then some (c.address, v) else none).toList ++ [] = _
  split <;> rfl

theorem confirmed_writes (c : Chunk) (q : Quad) :
    confirmed q (w.calls c) = [(c.address, c.checksum)] := by
  rw [w.calls_eq, confirmed_append, (noCommit_stagings c).confirmed_eq_nil, foldl_stagings,
    confirmed_commit, if_pos rfl, List.nil_append]

/-- No commit is confirmed when the writing of a chunk stops: it was not made, or not answered, or
answered with another checksum. -/
theorem confirmed_of_halted {made : List Call} (halted : Halted (w.calls c) e made) (q : Quad) :
    confirmed q made = [] := by
  rw [w.calls_eq, halted_append] at halted
  rcases halted with staging | ⟨rest, rfl, committing⟩
  · exact ((noCommit_stagings c).of_halted staging).confirmed_eq_nil q
  · rw [confirmed_append, (noCommit_stagings c).confirmed_eq_nil, foldl_stagings, List.nil_append]
    rcases halted_cons.mp committing with ⟨bad, rfl, stops⟩ | ⟨rest, rfl, later⟩
    · cases stops with
      | refused => rfl
      | mismatch _ _ _ v wrong => rw [confirmed_commit, if_neg wrong]
    · exact absurd later not_halted_nil

/-- The log of one chunk: it is written, reported, and progress is told. -/
def Writer.reported (c : Chunk) (progress : Event) : List Entry :=
  (w.calls c).map Call.entry ++ [.event (.chunkCommitted c.address c.checksum), .event progress]

theorem honest_reported (silent : progress.committed? = none) : Honest (w.reported c progress) := by
  intro q
  rw [Writer.reported, calls_append, events_append, calls_map_entry, events_map_entry,
    confirmed_append, confirmed_writes, events_event_cons, events_event_cons]
  show (c.address, c.checksum) :: [progress].filterMap Event.committed? = _
  rw [List.filterMap_cons_none silent]
  rfl

/-- A chunk that is not written to its end is not reported. -/
theorem honest_of_cut_reported {log : List Entry} (short : Cut (w.reported c progress) e log) :
    Honest log := by
  rcases cut_append.mp short with writing | ⟨rest, -, said⟩
  · have unreported : events log = [] := by
      have only := writing.events_subset
      rw [events_map_entry] at only
      exact List.subset_nil.mp only
    have halted := writing.halted
    rw [calls_map_entry] at halted
    intro q
    rw [unreported, confirmed_of_halted w halted]
    rfl
  -- the reports themselves cannot fail
  · exact absurd said.halted not_halted_nil

end Writing

/-- Chunk after chunk, written and reported, up to wherever a failure cuts it short. -/
theorem honest_writes {α : Type} (w : Writer) (chunk : α → Chunk) (progress : α → Event)
    (silent : ∀ x, (progress x).committed? = none) (l : List α) :
    Honest (l.flatMap fun x => w.reported (chunk x) (progress x)) ∧
      ∀ e log, Cut (l.flatMap fun x => w.reported (chunk x) (progress x)) e log → Honest log := by
  refine ⟨honest_flatMap fun x _ => honest_reported w (silent x), fun e log short => ?_⟩
  obtain ⟨before, x, after, rest, -, rfl, here⟩ := cut_flatMap.mp short
  exact (honest_flatMap fun y _ => honest_reported w (silent y)).append
    (honest_of_cut_reported w here)

/-! ## Phases and runs -/

section Runs

variable {σ : Type} {u : Uploader} {image : Image}

/-- Comparing an image only reads, and reports only how far it is. -/
theorem ComparesPieces.idle {activity : Activity} {total : Nat} {pieces : List Piece}
    {l : List Entry} {r : Comparison} (h : ComparesPieces activity total pieces l r) : Idle l where
  calls := by
    intro c hc a seed committing
    obtain ⟨p, -, read⟩ := h.compares.mem hc
    cases committing.symm.trans read
  events := by
    intro e he
    obtain ⟨n, rfl⟩ := h.mem_events he
    rfl

theorem idle_regionTrace (base : UInt32) (total : Nat) (qs : List Quad) :
    Idle (regionTrace base total 0 qs) where
  calls := by
    intro c hc a seed committing
    rw [calls_regionTrace_zero] at hc
    obtain ⟨p, -, rfl⟩ := List.mem_map.mp hc
    cases committing
  events := by
    intro e he
    obtain ⟨n, rfl⟩ := mem_events_regionTrace he
    rfl

theorem idle_warnings (st : Stage) : Idle (warnings st) where
  calls := by
    rw [calls_warnings]
    exact noCommit_nil
  events := by
    intro e he
    obtain ⟨level, text, rfl⟩ := mem_events_warnings he
    rfl

/-- Every phase of a script is honest, and stays so when it is cut short. -/
theorem ScriptPhase.honest {p : Phase} (h : ScriptPhase u image p) :
    Honest p.log ∧ ∀ e log, Cut p.log e log → Honest log := by
  have idle {log : List Entry} (h : Idle log) :
      Honest log ∧ ∀ e short, Cut log e short → Honest short :=
    ⟨h.honest, fun _ _ cut => (h.of_cut cut).honest⟩
  cases h with
  | compare h => exact idle (h.idle.append (idle_event rfl))
  | backup => exact idle (idle_regionTrace _ _ _)
  | erase => exact idle ⟨List.forall_mem_singleton.mpr nofun, List.forall_mem_nil _⟩
  | program =>
    exact honest_writes u.writer Piece.chunk (fun piece => .progress .program piece.consumed _)
      (fun _ => rfl) _
  | restore =>
    exact honest_writes u.writer id
      (fun c => .progress .writeNvm (c.address - u.layout.nvmBase + 16).toNat _) (fun _ => rfl) _
  | @verify _ r verifies =>
    refine idle (verifies.idle.append (idle_event ?_))
    cases r <;> rfl
  | reset => exact idle ⟨List.forall_mem_singleton.mpr nofun, List.forall_mem_singleton.mpr rfl⟩
  | done => exact idle (idle_event rfl)

theorem honest_phasesLog {previous : Stage} {ps : List Phase} (h : ∀ p ∈ ps, Honest p.log) :
    Honest (phasesLog previous ps) := by
  induction ps generalizing previous with
  | nil => exact honest_nil
  | cons p rest ih =>
    obtain ⟨here, later⟩ := List.forall_mem_cons.mp h
    have entered : Honest [.event (.stageChanged previous p.stage)] := (idle_event rfl).honest
    exact (entered.append here).append (ih later)

/-- A first run reports as committed what the device confirmed, however it goes. -/
theorem Goes.honest {o : Outcome Entry (Underway σ) DfuError UploadResult} (h : Goes u image o) :
    Honest o.log := by
  obtain ⟨left, log, -, phases⟩ := h.exists_phases
  rw [← honest_trace_iff, log]
  refine honest_phasesLog fun q hq => ?_
  rcases phases q hq with ⟨st, rfl⟩ | ⟨p, scripted, -, whole | ⟨e, short⟩⟩
  · exact (idle_warnings st).honest
  · exact whole ▸ scripted.honest.1
  · exact scripted.honest.2 e _ short

end Runs

end CanDfu
