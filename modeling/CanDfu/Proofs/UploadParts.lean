/-
  CanDfu.Proofs.UploadParts

  What each part of an upload asks of a device, and what it makes of the answers, against a
  device that may answer anything: the comparison, the backup, the erase, and the two loops that
  write chunks.  Every part leaves the trace written here, or that trace cut short.
-/
import CanDfu.Proofs.ChunkLayout
import CanDfu.Proofs.Conformance
import CanDfu.Upload.Comparison
import CanDfu.Upload.Programming

namespace CanDfu

variable {σ : Type} {d : Device σ}

/-! ## Comparing -/

/-- The reads that compare words with flash: up to the first one that differs, or all of them. -/
inductive Compares : List (UInt32 × UInt32) → List Call → Comparison → Prop
  | done : Compares [] [] .identical
  | same {a w : UInt32} {rest : List (UInt32 × UInt32)} {cs : List Call} {c : Comparison}
      (h : Compares rest cs c) : Compares ((a, w) :: rest) (⟨.read a, .ok w⟩ :: cs) c
  | differs {a w v : UInt32} {rest : List (UInt32 × UInt32)} (h : v ≠ w) :
      Compares ((a, w) :: rest) [⟨.read a, .ok v⟩] (.differs a w v)

/-- A comparison goes on behind words that are the same. -/
theorem Compares.append {ws more : List (UInt32 × UInt32)} {cs cs' : List Call} {c : Comparison}
    (h : Compares ws cs .identical) (h' : Compares more cs' c) :
    Compares (ws ++ more) (cs ++ cs') c := by
  -- only a comparison without a difference goes on
  generalize hi : Comparison.identical = i at h
  induction h with
  | done => exact h'
  | same _ ih => exact .same (ih hi)
  | differs _ => cases hi

/-- A comparison that has found a difference does not look at later words. -/
theorem Compares.append_of_differs {ws more : List (UInt32 × UInt32)} {cs : List Call}
    {a w v : UInt32} (h : Compares ws cs (.differs a w v)) :
    Compares (ws ++ more) cs (.differs a w v) := by
  generalize hi : Comparison.differs a w v = i at h
  induction h with
  | done => cases hi
  | same _ ih => exact .same (ih hi)
  | differs h => exact .differs h

/-- A comparison reads the words it is given. -/
theorem Compares.mem {ws : List (UInt32 × UInt32)} {cs : List Call} {r : Comparison}
    (h : Compares ws cs r) {c : Call} (hc : c ∈ cs) : ∃ p ∈ ws, c.command = .read p.1 := by
  induction h with
  | done => cases hc
  | same _ ih =>
    rcases List.mem_cons.mp hc with rfl | hc
    · exact ⟨_, List.mem_cons_self .., rfl⟩
    · obtain ⟨p, hp, read⟩ := ih hc
      exact ⟨p, List.mem_cons_of_mem _ hp, read⟩
  | differs => exact ⟨_, List.mem_cons_self .., List.mem_singleton.mp hc ▸ rfl⟩

theorem conforms_compareWords (ws : List (UInt32 × UInt32)) :
    Conforms d (Comparison.compareWords d ws) fun l c =>
      ∃ cs, Compares ws cs c ∧ l = cs.map Call.entry := by
  induction ws with
  | nil => exact conforms_pure ⟨[], .done, rfl⟩
  | cons p rest ih =>
    obtain ⟨a, w⟩ := p
    unfold Comparison.compareWords
    refine conforms_bind (conforms_issue (P := fun l v => l = [Entry.call (.read a) (.ok v)])
      fun v => rfl) ?_
    rintro l v rfl
    split
    · next same =>
      subst same
      refine ih.mono ?_
      rintro l c ⟨cs, h, rfl⟩
      exact ⟨_, .same h, rfl⟩
    · next differs =>
      refine conforms_record_bind ?_
      exact conforms_pure ⟨_, .differs differs, rfl⟩

/-- The trace of comparing the pieces of an image, with the progress that is reported. -/
inductive ComparesPieces (activity : Activity) (total : Nat) :
    List Piece → List Entry → Comparison → Prop
  | done : ComparesPieces activity total [] [] .identical
  | same {piece : Piece} {rest : List Piece} {cs : List Call} {l : List Entry} {c : Comparison}
      (h : Compares piece.chunk.placed cs .identical) (h' : ComparesPieces activity total rest l c) :
      ComparesPieces activity total (piece :: rest)
        (cs.map Call.entry ++ .event (.progress activity piece.consumed total) :: l) c
  | differs {piece : Piece} {rest : List Piece} {cs : List Call} {a w v : UInt32}
      (h : Compares piece.chunk.placed cs (.differs a w v)) :
      ComparesPieces activity total (piece :: rest) (cs.map Call.entry) (.differs a w v)

/-- The calls of comparing an image are those of comparing its words. -/
theorem ComparesPieces.compares {activity : Activity} {total : Nat} {ps : List Piece}
    {l : List Entry} {c : Comparison} (h : ComparesPieces activity total ps l c) :
    Compares ((ps.map Piece.chunk).flatMap Chunk.placed) (calls l) c := by
  induction h with
  | done => exact .done
  | same h _ ih =>
    rw [List.map_cons, List.flatMap_cons, calls_append, calls_map_entry, calls_event_cons]
    exact h.append ih
  | differs h =>
    rw [List.map_cons, List.flatMap_cons, calls_map_entry]
    exact h.append_of_differs

theorem ComparesPieces.compares_image {activity : Activity} {total : Nat} {base : UInt32}
    {image : Image} {l : List Entry} {c : Comparison}
    (h : ComparesPieces activity total (image.pieces base) l c) :
    Compares ((image.chunks base).flatMap Chunk.placed) (calls l) c := by
  rw [← Image.map_chunk_pieces]
  exact h.compares

theorem conforms_comparePieces (activity : Activity) (total : Nat) (ps : List Piece) :
    Conforms d (Comparison.comparePieces d activity total ps) fun l c =>
      ComparesPieces activity total ps l c := by
  induction ps with
  | nil => exact conforms_pure .done
  | cons piece rest ih =>
    unfold Comparison.comparePieces
    refine conforms_bind (conforms_compareWords _) ?_
    rintro l c ⟨cs, h, rfl⟩
    cases c with
    | differs a w v => exact conforms_pure (by simpa using .differs h)
    | identical =>
      refine conforms_event_bind ?_
      refine ih.mono fun l c h' => ?_
      simpa using ComparesPieces.same h h'

theorem conforms_ofImage (base : UInt32) (image : Image) (activity : Activity) :
    Conforms d (Comparison.ofImage d base image activity)
      (ComparesPieces activity image.size (image.pieces base)) :=
  conforms_comparePieces activity image.size (image.pieces base)

/-! ## Writing chunks -/

/-- The calls that write a chunk: its words are staged in order, and the commit that follows is
answered with their checksum. -/
def Writer.calls (w : Writer) (c : Chunk) : List Call :=
  [⟨.scratch 0 c.words.w0, .ok ()⟩, ⟨.scratch 1 c.words.w1, .ok ()⟩,
    ⟨.scratch 2 c.words.w2, .ok ()⟩, ⟨.scratch 3 c.words.w3, .ok ()⟩,
    ⟨.commit c.address w.form.seed, .ok c.checksum⟩]

/-- The calls that stage the words of a chunk. -/
def Chunk.stagings (c : Chunk) : List Call :=
  [⟨.scratch 0 c.words.w0, .ok ()⟩, ⟨.scratch 1 c.words.w1, .ok ()⟩,
    ⟨.scratch 2 c.words.w2, .ok ()⟩, ⟨.scratch 3 c.words.w3, .ok ()⟩]

theorem Writer.calls_eq (w : Writer) (c : Chunk) :
    w.calls c = c.stagings ++ [⟨.commit c.address w.form.seed, .ok c.checksum⟩] := rfl

theorem conforms_stage (w : Writer) (index : UInt8) (value : UInt32) :
    Conforms d (w.stage d index value) fun l _ => l = [.call (.scratch index value) (.ok ())] := by
  unfold Writer.stage
  refine conforms_bind
    (conforms_issue (P := fun l _ => l = [.call (.scratch index value) (.ok ())]) fun _ => rfl) ?_
  rintro l _ rfl
  split
  · exact conforms_pause rfl
  · exact conforms_pure rfl

theorem conforms_write (w : Writer) (c : Chunk) :
    Conforms d (w.write d c) fun l v => l = (w.calls c).map Call.entry ∧ v = c.checksum := by
  unfold Writer.write
  -- the registers may be answered anything, the commit only the checksum
  refine conforms_bind (conforms_stage w 0 _) ?_
  rintro l _ rfl
  refine conforms_bind (conforms_stage w 1 _) ?_
  rintro l _ rfl
  refine conforms_bind (conforms_stage w 2 _) ?_
  rintro l _ rfl
  refine conforms_bind (conforms_stage w 3 _) ?_
  rintro l _ rfl
  refine conforms_checked c.checksum ?_ fun v hv => ?_
  · rw [if_pos rfl]
    exact conforms_pure ⟨rfl, rfl⟩
  · rw [if_neg hv]
    exact ⟨_, rfl, .mismatch _ _ _ _ hv⟩

/-- The trace of programming the pieces of an image. -/
def programTrace (w : Writer) (total : Nat) (ps : List Piece) : List Entry :=
  ps.flatMap fun piece => (w.calls piece.chunk).map Call.entry ++
    [.event (.chunkCommitted piece.chunk.address piece.chunk.checksum),
      .event (.progress .program piece.consumed total)]

/-- The trace of restoring chunks of a region of `total` bytes. -/
def restoreTrace (w : Writer) (base : UInt32) (total : Nat) (cs : List Chunk) : List Entry :=
  cs.flatMap fun c => (w.calls c).map Call.entry ++
    [.event (.chunkCommitted c.address c.checksum),
      .event (.progress .writeNvm (c.address - base + 16).toNat total)]

/-- Whatever is reported between chunks, the calls are those that write them. -/
theorem calls_flatMap_writes {α : Type} (w : Writer) (chunk : α → Chunk) (said : α → List Event)
    (l : List α) :
    calls (l.flatMap fun x => (w.calls (chunk x)).map Call.entry ++ (said x).map Entry.event)
      = (l.map chunk).flatMap w.calls := by
  have silent (events : List Event) : calls (events.map Entry.event) = [] := by
    induction events with
    | nil => rfl
    | cons e rest ih => exact ih
  induction l with
  | nil => rfl
  | cons x rest ih =>
    rw [List.flatMap_cons, calls_append, calls_append, calls_map_entry, silent, List.append_nil, ih,
      List.map_cons, List.flatMap_cons]

theorem calls_programTrace (w : Writer) (total : Nat) (ps : List Piece) :
    calls (programTrace w total ps) = (ps.map Piece.chunk).flatMap w.calls :=
  calls_flatMap_writes w Piece.chunk (fun piece =>
    [.chunkCommitted piece.chunk.address piece.chunk.checksum,
      .progress .program piece.consumed total]) ps

theorem calls_programTrace_pieces (w : Writer) (total : Nat) (base : UInt32) (image : Image) :
    calls (programTrace w total (image.pieces base)) = (image.chunks base).flatMap w.calls := by
  rw [calls_programTrace, Image.map_chunk_pieces]

theorem calls_restoreTrace (w : Writer) (base : UInt32) (total : Nat) (cs : List Chunk) :
    calls (restoreTrace w base total cs) = cs.flatMap w.calls := by
  have written := calls_flatMap_writes w id (fun c =>
    [.chunkCommitted c.address c.checksum,
      .progress .writeNvm (c.address - base + 16).toNat total]) cs
  rw [List.map_id] at written
  exact written

theorem conforms_writePieces (w : Writer) (total : Nat) (ps : List Piece) :
    Conforms d (Programming.writePieces w d total ps) fun l _ => l = programTrace w total ps := by
  induction ps with
  | nil => exact conforms_pure rfl
  | cons piece rest ih =>
    unfold Programming.writePieces
    refine conforms_bind (conforms_write w piece.chunk) ?_
    rintro l _ ⟨rfl, rfl⟩
    refine conforms_event_bind ?_
    refine conforms_event_bind ?_
    refine ih.mono ?_
    rintro l _ rfl
    rfl

theorem conforms_writeChunks (w : Writer) (base : UInt32) (total : Nat) (cs : List Chunk) :
    Conforms d (Preservation.writeChunks w d base total cs) fun l _ =>
      l = restoreTrace w base total cs := by
  induction cs with
  | nil => exact conforms_pure rfl
  | cons c rest ih =>
    unfold Preservation.writeChunks
    refine conforms_bind (conforms_write w c) ?_
    rintro l _ ⟨rfl, rfl⟩
    refine conforms_event_bind ?_
    refine conforms_event_bind ?_
    refine ih.mono ?_
    rintro l _ rfl
    rfl

theorem conforms_program (w : Writer) (base : UInt32) (image : Image) :
    Conforms d (Programming.program w d base image) fun l _ =>
      l = programTrace w image.size (image.pieces base) := by
  unfold Programming.program
  refine conforms_bind (conforms_writePieces w _ _) ?_
  rintro l _ rfl
  refine conforms_record_bind ?_
  exact conforms_pure (by simp)

theorem conforms_erase (w : Writer) :
    Conforms d (Programming.erase w d) fun l _ =>
      l = [.call (.erase w.form.seed) (.ok (0 : UInt8))] := by
  unfold Programming.erase
  refine conforms_checked (0 : UInt8) ?_ fun v hv => ?_
  · rw [if_pos rfl]
    exact conforms_record rfl
  · rw [if_neg hv]
    exact ⟨_, rfl, .status _ _ hv⟩

/-! ## Backing up and restoring -/

/-- A word read. -/
def readCall (p : UInt32 × UInt32) : Call := ⟨.read p.1, .ok p.2⟩

/-- Words one after the other from `base`. -/
def wordsFrom (base : UInt32) : List UInt32 → List (UInt32 × UInt32)
  | [] => []
  | w :: rest => (base, w) :: wordsFrom (base + 4) rest

theorem placed_eq_wordsFrom (base : UInt32) (q : Quad) :
    Chunk.placed ⟨base, q⟩ = wordsFrom base q.toList := by
  simp only [Chunk.placed, Chunk.wordAddress, Quad.toList, wordsFrom, UInt32.add_assoc]
  rw [show UInt32.ofNat 0 * 4 = 0 from rfl, UInt32.add_zero]
  rfl

theorem conforms_readWords (base : UInt32) (n : Nat) :
    Conforms d (Preservation.readWords d base n) fun l bytes =>
      ∃ ws, ws.length = n ∧ l = ((wordsFrom base ws).map readCall).map Call.entry ∧
        bytes = ws.flatMap LittleEndian.bytes := by
  induction n generalizing base with
  | zero => exact conforms_pure ⟨[], rfl, rfl, rfl⟩
  | succ n ih =>
    unfold Preservation.readWords
    refine conforms_bind (conforms_issue (P := fun l v => l = [Entry.call (.read base) (.ok v)])
      fun v => rfl) ?_
    rintro l v rfl
    refine conforms_bind (ih (base + 4)) ?_
    rintro l _ ⟨ws, hlen, rfl, rfl⟩
    exact conforms_pure ⟨v :: ws, congrArg (· + 1) hlen, by rw [List.append_nil]; rfl, rfl⟩

/-- The trace of reading a region that holds some quads, from the first `done` bytes on. -/
def regionTrace (base : UInt32) (total : Nat) : Nat → List Quad → List Entry
  | _, [] => []
  | done, q :: rest =>
    ((Chunk.placed ⟨base + UInt32.ofNat done, q⟩).map readCall).map Call.entry ++
      .event (.progress .readNvm (done + chunkBytes) total) ::
        regionTrace base total (done + chunkBytes) rest

/-- The calls of reading a region are reads of its words in order. -/
theorem calls_regionTrace (base : UInt32) (total done : Nat) (qs : List Quad) :
    calls (regionTrace base total done qs)
      = ((chunksFrom (base + UInt32.ofNat done) qs).flatMap Chunk.placed).map readCall := by
  induction qs generalizing done with
  | nil => rfl
  | cons q rest ih =>
    have next : base + UInt32.ofNat (done + chunkBytes) = base + UInt32.ofNat done + 16 := by
      rw [UInt32.ofNat_add, UInt32.add_assoc]
      rfl
    rw [regionTrace, calls_append, calls_map_entry, calls_event_cons, ih, next, chunksFrom,
      List.flatMap_cons, List.map_append]

theorem calls_regionTrace_zero (base : UInt32) (total : Nat) (qs : List Quad) :
    calls (regionTrace base total 0 qs)
      = ((chunksFrom base qs).flatMap Chunk.placed).map readCall := by
  rw [calls_regionTrace, show UInt32.ofNat 0 = 0 from rfl, UInt32.add_zero]

theorem conforms_readRegion (base : UInt32) (total done n : Nat) :
    Conforms d (Preservation.readRegion d base total done (4 * n)) fun l bytes =>
      ∃ qs : List Quad, qs.length = n ∧ l = regionTrace base total done qs ∧
        bytes = qs.flatMap Quad.toBytes := by
  induction n generalizing done with
  | zero =>
    unfold Preservation.readRegion
    exact conforms_pure ⟨[], rfl, rfl, rfl⟩
  | succ n ih =>
    -- at least four words are left, so this round reads four of them
    have nonzero : 4 * (n + 1) ≠ 0 := by omega
    have four : min 4 (4 * (n + 1)) = 4 := by omega
    have whole : 4 ≤ 4 * (n + 1) := by omega
    have less : 4 * (n + 1) - 4 = 4 * n := by omega
    unfold Preservation.readRegion
    simp only [if_neg nonzero, four, if_pos whole, less]
    refine conforms_bind (conforms_readWords _ 4) ?_
    rintro l _ ⟨ws, hlen, rfl, rfl⟩
    obtain ⟨w0, w1, w2, w3, rfl⟩ : ∃ w0 w1 w2 w3, ws = [w0, w1, w2, w3] := by
      match ws, hlen with
      | [w0, w1, w2, w3], _ => exact ⟨w0, w1, w2, w3, rfl⟩
    refine conforms_event_bind ?_
    refine conforms_bind (ih (done + chunkBytes)) ?_
    rintro l _ ⟨qs, hqs, rfl, rfl⟩
    refine conforms_pure ⟨⟨w0, w1, w2, w3⟩ :: qs, congrArg (· + 1) hqs, ?_, rfl⟩
    rw [regionTrace, placed_eq_wordsFrom]
    simp [Quad.toList]

/-- What is kept of a region that holds some quads: nothing, when all of it is erased. -/
def backupOf (qs : List Quad) : Option NvmBackup :=
  if isErased (qs.flatMap Quad.toBytes) then none else some ⟨qs.flatMap Quad.toBytes⟩

/-- Nothing is kept exactly when every byte is erased. -/
theorem backupOf_eq_none_iff (qs : List Quad) :
    backupOf qs = none ↔ ∀ b ∈ qs.flatMap Quad.toBytes, b = erasedByte := by
  rw [backupOf]
  generalize qs.flatMap Quad.toBytes = bytes
  simp [isErased]

/-- What is kept is the whole region. -/
theorem bytes_of_mem_backupOf {qs : List Quad} {b : NvmBackup} (kept : b ∈ backupOf qs) :
    b.bytes = qs.flatMap Quad.toBytes := by
  rw [backupOf] at kept
  split at kept
  · cases kept
  · rw [← Option.some.inj kept]

/-- The chunks of a region that hold something. -/
def dirtyChunks (base : UInt32) (qs : List Quad) : List Chunk :=
  (chunksFrom base qs).filter Chunk.isDirty

/-- A region is erased throughout exactly when none of its chunks holds anything. -/
theorem isErased_iff_dirtyChunks_eq_nil (base : UInt32) (qs : List Quad) :
    isErased (qs.flatMap Quad.toBytes) = true ↔ dirtyChunks base qs = [] := by
  unfold dirtyChunks
  induction qs generalizing base with
  | nil => exact ⟨fun _ => rfl, fun _ => rfl⟩
  | cons q rest ih =>
    have split : isErased (q.toBytes ++ rest.flatMap Quad.toBytes)
        = (isErased q.toBytes && isErased (rest.flatMap Quad.toBytes)) := List.all_append
    rw [List.flatMap_cons, split, Bool.and_eq_true, ih (base + 16), chunksFrom, List.filter_cons]
    by_cases erased : isErased q.toBytes <;> simp [Chunk.isDirty, erased]

theorem conforms_backup {l : Layout} (usable : l.Usable) :
    Conforms d (Preservation.backup d l) fun log b =>
      ∃ qs : List Quad, qs.length = l.nvmChunks ∧
        log = regionTrace l.nvmBase l.nvmSize.toNat 0 qs ∧ b = backupOf qs := by
  have words : l.nvmWords = 4 * l.nvmChunks := by
    have := usable.size_aligned
    rw [Layout.nvmWords, Layout.nvmChunks, chunkBytes]
    omega
  unfold Preservation.backup
  rw [words]
  refine conforms_bind (conforms_readRegion _ _ _ _) ?_
  rintro log _ ⟨qs, hlen, rfl, rfl⟩
  split
  · next erased =>
    refine conforms_record_bind ?_
    exact conforms_pure ⟨qs, hlen, by simp, by rw [backupOf, if_pos erased]⟩
  · next held =>
    refine conforms_record_bind ?_
    exact conforms_pure ⟨qs, hlen, by simp, by rw [backupOf, if_neg held]⟩

/-- The quads of a region take up its size. -/
theorem length_flatMap_toBytes (qs : List Quad) :
    (qs.flatMap Quad.toBytes).length = chunkBytes * qs.length := by
  induction qs with
  | nil => rfl
  | cons q rest ih =>
    rw [List.flatMap_cons, List.length_append, ih, Quad.length_toBytes, List.length_cons,
      Nat.mul_succ, Nat.add_comm]

theorem conforms_restore {l : Layout} (w : Writer) (qs : List Quad) :
    Conforms d (Preservation.restore w d l (backupOf qs)) fun log n =>
      log = restoreTrace w l.nvmBase (chunkBytes * qs.length) (dirtyChunks l.nvmBase qs) ∧
        n = (dirtyChunks l.nvmBase qs).length := by
  unfold backupOf
  split
  · next erased =>
    -- nothing is kept of an erased region, and none of its chunks is dirty
    have none_dirty := (isErased_iff_dirtyChunks_eq_nil l.nvmBase qs).mp erased
    unfold Preservation.restore
    refine conforms_record_bind ?_
    rw [none_dirty]
    exact conforms_pure ⟨rfl, rfl⟩
  · unfold Preservation.restore
    simp only [dirtyChunks_eq, length_flatMap_toBytes]
    refine conforms_bind (conforms_writeChunks w _ _ _) ?_
    rintro _ _ rfl
    refine conforms_record_bind ?_
    exact conforms_pure ⟨by simp [dirtyChunks], rfl⟩

end CanDfu
