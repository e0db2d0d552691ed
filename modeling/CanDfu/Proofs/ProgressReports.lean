/-
  CanDfu.Proofs.ProgressReports

  What the phases of a first upload tell of their progress.  Each operation has marks to reach, the
  ends of its chunks:

    comparing, programming, verifying   every chunk of the image, the last one at its size
    reading the NVM region              every chunk of the region
    writing the NVM region              the chunks of the region that hold something

  Marks are reached in order.  An operation that is cut short, or that finds a difference, has
  reached the first of them; one that is completed has reached them all (`ScriptPhase.reaches`).
-/
import CanDfu.Proofs.AddressSafety

namespace CanDfu

variable {u : Uploader} {l : Layout} {image : Image}

/-! ## Operations and their marks -/

namespace Activity

/-- The bytes there are for an operation. -/
def total (l : Layout) (image : Image) : Activity → Nat
  | readNvm | writeNvm => l.nvmSize.toNat
  | compare | verify | program => image.size

/-- Whether an operation looks for a difference. -/
def compares : Activity → Bool
  | compare | verify => true
  | readNvm | writeNvm | program => false

end Activity

/-- The ends of the chunks of some bytes; the last chunk may be short. -/
def marks (size : Nat) : List Nat :=
  (List.range ((size + 15) / chunkBytes)).map fun k => min (16 * (k + 1)) size

theorem mem_marks {size n : Nat} (h : n ∈ marks size) : 0 < n ∧ n ≤ size := by
  obtain ⟨k, hk, rfl⟩ := List.mem_map.mp h
  rw [List.mem_range, chunkBytes] at hk
  omega

theorem pairwise_marks (size : Nat) : (marks size).Pairwise (· < ·) := by
  refine List.pairwise_map.mpr (List.Pairwise.imp_of_mem ?_ List.pairwise_lt_range)
  intro j k _ hk before
  rw [List.mem_range, chunkBytes] at hk
  omega

theorem getLast?_marks {size : Nat} (h : 0 < size) : (marks size).getLast? = some size := by
  obtain ⟨n, count⟩ : ∃ n, (size + 15) / chunkBytes = n + 1 := by
    refine Nat.exists_eq_succ_of_ne_zero ?_
    rw [chunkBytes]
    omega
  rw [marks, count, List.range_succ, List.map_append, List.map_singleton, List.getLast?_concat]
  rw [chunkBytes] at count
  exact congrArg some (by omega)

/-- Whole chunks end at the multiples of their size. -/
theorem marks_chunks (n : Nat) : marks (16 * n) = (List.range n).map fun k => 16 * (k + 1) := by
  have count : (16 * n + 15) / chunkBytes = n := by
    rw [chunkBytes]
    omega
  rw [marks, count]
  apply List.map_congr_left
  intro k hk
  rw [List.mem_range] at hk
  omega

/-- What an operation has to report, if it leaves no chunk out: its marks, each of all bytes there
are. -/
def Activity.marks (l : Layout) (image : Image) (act : Activity) : List (Nat × Nat) :=
  (CanDfu.marks (act.total l image)).map (·, act.total l image)

namespace Activity

variable {act : Activity}

theorem map_fst_marks : (act.marks l image).map Prod.fst = CanDfu.marks (act.total l image) := by
  rw [marks, List.map_map]
  exact List.map_id _

theorem getLast?_marks (h : 0 < act.total l image) :
    (act.marks l image).getLast? = some (act.total l image, act.total l image) := by
  rw [marks, List.getLast?_map, CanDfu.getLast?_marks h]
  rfl

end Activity

/-! ## Progress in a journal -/

/-- What an event says of an operation: the bytes done, and the bytes there are. -/
def Event.progress? (act : Activity) : Event → Option (Nat × Nat)
  | progress a current total => if a = act then some (current, total) else none
  | _ => none

/-- The progress of an operation that a journal reports, in order. -/
def progress (act : Activity) (log : List Entry) : List (Nat × Nat) :=
  (events log).filterMap (Event.progress? act)

section Progress

variable {act : Activity} {log more full : List Entry} {e : DfuError}

theorem Event.progress?_self (n total : Nat) :
    (Event.progress act n total).progress? act = some (n, total) := if_pos rfl

theorem Event.progress?_eq_some {said : Event} {p : Nat × Nat} (h : said.progress? act = some p) :
    said = .progress act p.1 p.2 := by
  cases said with
  | progress a n total =>
    have h : (if a = act then some (n, total) else none) = some p := h
    split at h
    · next same =>
      cases h
      rw [same]
    · cases h
  | stageChanged | chunkCommitted | log | attemptFailed | complete => cases h

theorem progress_append : progress act (log ++ more) = progress act log ++ progress act more := by
  rw [progress, events_append, List.filterMap_append]
  rfl

@[simp] theorem progress_trace (log : List Entry) : progress act (trace log) = progress act log := by
  rw [progress, events_trace]
  rfl

theorem progress_eq_nil (h : ∀ n total, .progress act n total ∉ events log) :
    progress act log = [] := by
  refine List.filterMap_eq_nil_iff.mpr fun said hsaid => ?_
  cases told : said.progress? act with
  | none => rfl
  | some p => exact absurd (Event.progress?_eq_some told ▸ hsaid) (h p.1 p.2)

/-- What is cut short reports the first events of the whole. -/
theorem Cut.events_prefix (h : Cut full e log) : events log <+: events full := by
  obtain ⟨before, good, bad, after, rfl, rfl, -⟩ := h
  refine ⟨events after, ?_⟩
  rw [events_append, events_append, events_entry_cons, events_entry_cons, events_nil,
    List.append_nil]

theorem Cut.progress_prefix (h : Cut full e log) : progress act log <+: progress act full :=
  h.events_prefix.filterMap _

/-- Progress that is told after some calls comes before all later progress. -/
theorem progress_reached (cs : List Call) (n total : Nat) :
    progress act (cs.map Call.entry ++ .event (.progress act n total) :: log)
      = (n, total) :: progress act log := by
  rw [progress, events_append, events_map_entry, events_event_cons, List.nil_append,
    List.filterMap_cons_some (Event.progress?_self n total)]
  rfl

/-- A message is no progress. -/
theorem progress_append_message {level : Level} {text : String} :
    progress act (log ++ [.event (.log level text)]) = progress act log := by
  rw [progress_append]
  exact List.append_nil _

end Progress

/-! ## What each part of an upload reports -/

section Parts

variable {act other : Activity} {log : List Entry}

/-- The reads that find no difference are those of all words, each answered as expected. -/
theorem Compares.identical_iff {ws : List (UInt32 × UInt32)} {cs : List Call} {r : Comparison}
    (h : Compares ws cs r) : r = .identical ↔ cs = ws.map readCall := by
  induction h with
  | done => simp
  | same _ ih =>
    rw [ih, List.map_cons]
    exact ⟨congrArg _, fun h => (List.cons.inj h).2⟩
  | differs wrong =>
    refine ⟨nofun, fun h => ?_⟩
    cases (List.cons.inj h).1
    exact absurd rfl wrong

/-- Comparing reaches the first marks of the image, and all of them if there is no difference. -/
theorem ComparesPieces.progress {total : Nat} {pieces : List Piece} {r : Comparison}
    (h : ComparesPieces act total pieces log r) :
    CanDfu.progress act log <+: pieces.map (fun piece => (piece.consumed, total)) ∧
      (r = .identical →
        CanDfu.progress act log = pieces.map fun piece => (piece.consumed, total)) := by
  induction h with
  | done => exact ⟨List.prefix_rfl, fun _ => rfl⟩
  | same _ _ ih =>
    rw [progress_reached, List.map_cons]
    exact ⟨List.cons_prefix_cons.mpr ⟨rfl, ih.1⟩, fun same => congrArg _ (ih.2 same)⟩
  | differs _ =>
    rw [CanDfu.progress, events_map_entry]
    exact ⟨List.nil_prefix, nofun⟩

/-- The pieces of an image end at its marks. -/
theorem Image.marks_pieces (act : Activity) (size : act.total l image = image.size) (base : UInt32) :
    (image.pieces base).map (fun piece => (piece.consumed, image.size)) = act.marks l image := by
  rw [Activity.marks, size, Image.pieces_eq_map, marks, List.map_map, List.map_map]
  rfl

/-- Reading a region reaches all of its marks. -/
theorem progress_regionTrace (base : UInt32) (total done : Nat) (qs : List Quad) :
    progress .readNvm (regionTrace base total done qs)
      = (List.range qs.length).map fun k => (done + 16 * (k + 1), total) := by
  induction qs generalizing done with
  | nil => rfl
  | cons q rest ih =>
    rw [regionTrace, progress_reached, ih, List.length_cons, List.range_succ_eq_map, List.map_cons,
      List.map_map]
    refine congrArg (_ :: ·) (List.map_congr_left fun k _ => ?_)
    have further : done + chunkBytes + 16 * (k + 1) = done + 16 * (k + 1 + 1) := by
      rw [chunkBytes]
      omega
    exact congrArg (·, total) further

/-- Writing chunks reports how far it has come with each of them. -/
theorem filterMap_reports {α : Type} (chunk : α → Chunk) (reached : α → Nat) (total : Nat)
    (xs : List α) :
    (xs.flatMap fun x => [Event.chunkCommitted (chunk x).address (chunk x).checksum,
        .progress act (reached x) total]).filterMap (Event.progress? act)
      = xs.map fun x => (reached x, total) := by
  induction xs with
  | nil => rfl
  | cons x rest ih =>
    rw [List.flatMap_cons, List.filterMap_append, ih, List.map_cons,
      List.filterMap_cons_none rfl, List.filterMap_cons_some (Event.progress?_self _ _)]
    rfl

theorem progress_programTrace (w : Writer) (total : Nat) (pieces : List Piece) :
    progress .program (programTrace w total pieces)
      = pieces.map fun piece => (piece.consumed, total) := by
  rw [progress, events_programTrace]
  exact filterMap_reports Piece.chunk Piece.consumed total pieces

theorem progress_restoreTrace (w : Writer) (base : UInt32) (total : Nat) (cs : List Chunk) :
    progress .writeNvm (restoreTrace w base total cs)
      = cs.map fun c => ((c.address - base + 16).toNat, total) := by
  rw [progress, events_restoreTrace]
  exact filterMap_reports id (fun c => (c.address - base + 16).toNat) total cs

/-- Where in the NVM region a chunk of it ends. -/
theorem Fits.toNat_offset {qs : List Quad} (h : Fits l image qs) {c : Chunk}
    (hc : c ∈ chunksFrom l.nvmBase qs) :
    (c.address - l.nvmBase + 16).toNat = c.address.toNat - l.nvmBase.toNat + 16 := by
  obtain ⟨k, hk, address⟩ := mem_chunksFrom h.nvm_in_space hc
  have size := h.length_nvm
  have bound : l.nvmSize.toNat < addressSpace := l.nvmSize.toNat_lt
  rw [CanDfu.toNat_offset address (by omega)]
  omega

/-- The chunks of the NVM region end at its marks. -/
theorem Fits.map_offset {qs : List Quad} (h : Fits l image qs) :
    (chunksFrom l.nvmBase qs).map (fun c => (c.address - l.nvmBase + 16).toNat)
      = marks l.nvmSize.toNat := by
  have exact : (chunksFrom l.nvmBase qs).map (fun c => (c.address - l.nvmBase + 16).toNat)
      = ((chunksFrom l.nvmBase qs).map fun c => c.address.toNat).map
          (fun a => a - l.nvmBase.toNat + 16) := by
    rw [List.map_map]
    exact List.map_congr_left fun c hc => h.toNat_offset hc
  rw [exact, map_address_chunksFrom h.nvm_in_space, List.map_map, ← h.length_nvm, marks_chunks]
  apply List.map_congr_left
  intro k _
  show l.nvmBase.toNat + 16 * k - l.nvmBase.toNat + 16 = 16 * (k + 1)
  omega

end Parts

/-! ## What each phase reports -/

/-- How far a log tells that an operation has come: to some of its marks, in order; and to all of
them, if it is one that leaves no chunk out and has found no difference. -/
structure Reaches (l : Layout) (image : Image) (act : Activity) (log : List Entry) : Prop where
  sublist : (progress act log).Sublist (act.marks l image)
  all : act ≠ .writeNvm →
    (act.compares = true → calls log = (imagePlaced l image).map readCall) →
    progress act log = act.marks l image

section Phases

variable {act : Activity} {log : List Entry} {p : Phase}

theorem Reaches.of_eq (h : progress act log = act.marks l image) : Reaches l image act log where
  sublist := h ▸ List.Sublist.refl _
  all := fun _ _ => h

/-- Saying something reaches nothing more. -/
theorem Reaches.message {level : Level} {text : String} (h : Reaches l image act log) :
    Reaches l image act (log ++ [.event (.log level text)]) where
  sublist := by
    rw [progress_append_message]
    exact h.sublist
  all := by
    rw [progress_append_message, calls_append, calls_event_cons, calls_nil, List.append_nil]
    exact h.all

theorem ComparesPieces.reaches {r : Comparison} (compares : act.compares = true)
    (h : ComparesPieces act image.size (image.pieces l.flashBase) log r) :
    Reaches l image act log := by
  have size : act.total l image = image.size := by
    cases act with
    | compare | verify => rfl
    | readNvm | writeNvm | program => cases compares
  obtain ⟨begun, whole⟩ := h.progress
  rw [Image.marks_pieces act size] at begun whole
  refine ⟨begun.sublist, fun _ same => whole ?_⟩
  exact h.compares_image.identical_iff.mpr (same compares)

theorem Fits.reaches_region {qs : List Quad} (h : Fits l image qs) :
    Reaches l image .readNvm (regionTrace l.nvmBase l.nvmSize.toNat 0 qs) := by
  apply Reaches.of_eq
  rw [progress_regionTrace, Activity.marks, Activity.total, ← h.length_nvm, marks_chunks,
    List.map_map]
  simp only [Nat.zero_add, Function.comp_def]

theorem Fits.reaches_restore {qs : List Quad} (h : Fits l image qs) (w : Writer) :
    Reaches l image .writeNvm
      (restoreTrace w l.nvmBase (chunkBytes * qs.length) (dirtyChunks l.nvmBase qs)) where
  sublist := by
    have size : chunkBytes * qs.length = l.nvmSize.toNat := h.length_nvm
    have told := ((dirtyChunks_sublist l.nvmBase qs).map
      fun c => (c.address - l.nvmBase + 16).toNat).map (·, l.nvmSize.toNat)
    rw [h.map_offset, List.map_map] at told
    rw [progress_restoreTrace, size]
    exact told
  all := fun other => absurd rfl other

/-- In the stage of an operation its marks are reached. -/
theorem ScriptPhase.reaches (h : ScriptPhase u image p) (usable : u.layout.Usable)
    (room : u.layout.Room image.size) (stage : p.stage = act.stage) :
    Reaches u.layout image act p.log := by
  cases h with
  | compare h =>
    obtain rfl : Activity.compare = act := Activity.stage_injective stage
    exact (h.reaches rfl).message
  | @verify _ r verifies =>
    obtain rfl : Activity.verify = act := Activity.stage_injective stage
    obtain ⟨level, text, said⟩ := exists_verdict_eq r
    rw [said]
    exact (verifies.reaches rfl).message
  | backup read =>
    obtain rfl : Activity.readNvm = act := Activity.stage_injective stage
    exact Fits.reaches_region ⟨usable, room, read⟩
  | program =>
    obtain rfl : Activity.program = act := Activity.stage_injective stage
    apply Reaches.of_eq
    rw [progress_programTrace, Image.marks_pieces .program rfl]
  | restore read =>
    obtain rfl : Activity.writeNvm = act := Activity.stage_injective stage
    exact Fits.reaches_restore ⟨usable, room, read⟩ u.writer
  | erase | reset | done => cases act <;> cases stage

end Phases

end CanDfu
