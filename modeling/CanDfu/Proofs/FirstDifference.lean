/-
  CanDfu.Proofs.FirstDifference

  Comparing an image goes chunk by chunk, and within a chunk word by word.  What comes of it is one
  flat scan of the image's words, each read from its address, and no other call is made:

    all words read and the same        identical, after all reads
    a word read and another one        the difference, after the reads up to it
    a read that fails                  its failure, after the reads up to it

  `Scans` is the scan, with all three ways to end.  A device gives one answer at a time, so a scan
  that it answers is the one that took place (`Scans.unique`).
-/
import CanDfu.Proofs.SimulatedRun
import CanDfu.Proofs.UploadRegions

namespace CanDfu

/-! ## The words of an image -/

/-- The address of word `k` behind `base`. -/
def wordAddress (base : UInt32) (k : Nat) : UInt32 := base + UInt32.ofNat (4 * k)

theorem wordAddress_zero (base : UInt32) : wordAddress base 0 = base :=
  UInt32.add_zero base

theorem wordAddress_succ (base : UInt32) (k : Nat) :
    wordAddress base (k + 1) = wordAddress (base + 4) k := by
  unfold wordAddress
  rw [Nat.mul_succ, UInt32.ofNat_add, UInt32.add_assoc, UInt32.add_comm (UInt32.ofNat (4 * k))]
  rfl

theorem toNat_wordAddress_mod {base : UInt32} (aligned : base.toNat % 4 = 0) (k : Nat) :
    (wordAddress base k).toNat % 4 = 0 := by
  rw [wordAddress, UInt32.toNat_add, UInt32.toNat_ofNat']
  omega

/-- Word `k` of an image, completed with zeros to whole chunks. -/
def Image.wordAt (i : Image) (k : Nat) : UInt32 :=
  LittleEndian.firstWord 0 (i.padded.drop (4 * k))

/-- Words one after the other, by number: where they lie in flash, and where in their bytes. -/
theorem wordsFrom_eq_map_range (base : UInt32) (ws : List UInt32) :
    wordsFrom base ws = (List.range ws.length).map fun k =>
      (wordAddress base k,
        LittleEndian.firstWord 0 ((ws.flatMap LittleEndian.bytes).drop (4 * k))) := by
  induction ws generalizing base with
  | nil => rfl
  | cons w rest ih =>
    rw [wordsFrom, ih, List.length_cons, List.range_succ_eq_map, List.map_cons, List.map_map]
    simp only [List.flatMap_cons, wordAddress_zero, wordAddress_succ, Function.comp_def,
      Nat.mul_zero, Nat.mul_succ, List.drop_zero, LittleEndian.firstWord_bytes_append,
      LittleEndian.drop_bytes_append]

theorem flatMap_placed_chunksFrom (base : UInt32) (qs : List Quad) :
    (chunksFrom base qs).flatMap Chunk.placed = wordsFrom base (qs.flatMap Quad.toList) := by
  induction qs generalizing base with
  | nil => rfl
  | cons q rest ih =>
    rw [chunksFrom, List.flatMap_cons, placed_eq_wordsFrom, ih, List.flatMap_cons]
    simp only [Quad.toList, wordsFrom, List.cons_append, List.nil_append, UInt32.add_assoc]
    rfl

/-- The words of an image by number, each with its address. -/
theorem Image.flatMap_placed (i : Image) (base : UInt32) :
    (i.chunks base).flatMap Chunk.placed
      = (List.range (4 * i.chunkCount)).map fun k => (wordAddress base k, i.wordAt k) := by
  have padded : i.padded = ((quads i.bytes).flatMap Quad.toList).flatMap LittleEndian.bytes := by
    rw [List.flatMap_assoc]
    exact (flatMap_toBytes_quads i.bytes).symm
  have count : ((quads i.bytes).flatMap Quad.toList).length = 4 * i.chunkCount := by
    rw [← i.length_chunks 0, Image.chunks, length_chunksFrom, List.length_flatMap]
    simp only [Quad.length_toList, List.map_const', List.sum_replicate_nat, Nat.mul_comm]
  unfold Image.wordAt
  rw [Image.chunks, flatMap_placed_chunksFrom, wordsFrom_eq_map_range, count, ← padded]

/-- The words of an image that ends in the address space do not wrap. -/
theorem Image.toNat_wordAddress {image : Image} {base : UInt32} {k : Nat}
    (space : base.toNat + Layout.paddedSize image.size ≤ addressSpace)
    (inside : k < 4 * image.chunkCount) :
    (wordAddress base k).toNat = base.toNat + 4 * k := by
  have size : Layout.paddedSize image.size = 16 * image.chunkCount := Nat.mul_comm ..
  apply toNat_add_ofNat
  omega

/-! ## One scan -/

section Scan

variable {ws rest : List (UInt32 × UInt32)} {cs made : List Call} {r : Except DfuError Comparison}

/-- The reads of a comparison and how it ends, be it with the failure of a read. -/
inductive Scans : List (UInt32 × UInt32) → List Call → Except DfuError Comparison → Prop
  | done : Scans [] [] (.ok .identical)
  | same {a w : UInt32} {rest : List (UInt32 × UInt32)} {cs : List Call}
      {r : Except DfuError Comparison} (h : Scans rest cs r) :
      Scans ((a, w) :: rest) (readCall (a, w) :: cs) r
  | differs {a w v : UInt32} {rest : List (UInt32 × UInt32)} (h : v ≠ w) :
      Scans ((a, w) :: rest) [readCall (a, v)] (.ok (.differs a w v))
  | failed {a w : UInt32} {rest : List (UInt32 × UInt32)} {e : SessionError} :
      Scans ((a, w) :: rest) [⟨.read a, .error e⟩] (.error (.session e))

/-- A comparison that is not cut short is a scan. -/
theorem Compares.scans {c : Comparison} (h : Compares ws cs c) : Scans ws cs (.ok c) := by
  induction h with
  | done => exact .done
  | same _ ih => exact .same ih
  | differs h => exact .differs h

/-- So is one that is: only a read that fails can stop it. -/
theorem Compares.scans_of_halted {c : Comparison} {e : DfuError} (h : Compares ws cs c)
    (halted : Halted cs e made) : Scans ws made (.error e) := by
  induction h generalizing made with
  | done => exact absurd halted not_halted_nil
  | same _ ih =>
    rcases halted_cons.mp halted with ⟨bad, rfl, stops⟩ | ⟨rest, rfl, later⟩
    · cases stops
      exact .failed
    · exact .same (ih later)
  | differs =>
    rcases halted_cons.mp halted with ⟨bad, rfl, stops⟩ | ⟨rest, rfl, later⟩
    · cases stops
      exact .failed
    · exact absurd later not_halted_nil

/-- A scan goes on behind words that are the same. -/
theorem Scans.append (before : List (UInt32 × UInt32)) (h : Scans rest cs r) :
    Scans (before ++ rest) (before.map readCall ++ cs) r := by
  induction before with
  | nil => exact h
  | cons p before ih => exact .same ih

variable {σ : Type} {d : Device σ}

/-- One device scans in one way, since each of its reads has one answer. -/
theorem Scans.unique {cs' : List Call} {r' : Except DfuError Comparison} {s t t' : σ}
    (h : Scans ws cs r) (h' : Scans ws cs' r') (ran : d.Ran s cs t) (ran' : d.Ran s cs' t') :
    cs = cs' ∧ r = r' := by
  induction h generalizing cs' s with
  | done =>
    cases h'
    exact ⟨rfl, rfl⟩
  | same h ih =>
    cases h' with
    | same h' =>
      obtain ⟨rfl, rfl⟩ := ih h' (Device.ran_cons.mp ran).2 (Device.ran_cons.mp ran').2
      exact ⟨rfl, rfl⟩
    | differs wrong =>
      injection ran.answer_unique ran' with same
      exact absurd same.symm wrong
    | failed => cases ran.answer_unique ran'
  | differs wrong =>
    cases h' with
    | same h' =>
      injection ran.answer_unique ran' with same
      exact absurd same wrong
    | differs =>
      injection ran.answer_unique ran' with same
      subst same
      exact ⟨rfl, rfl⟩
    | failed => cases ran.answer_unique ran'
  | failed =>
    cases h' with
    | same h' => cases ran.answer_unique ran'
    | differs => cases ran.answer_unique ran'
    | failed =>
      injection ran.answer_unique ran' with same
      subst same
      exact ⟨rfl, rfl⟩

/-- Comparing an image scans its words, whatever the device answers. -/
theorem scans_ofImage (d : Device σ) (base : UInt32) (image : Image) (activity : Activity) (s : σ) :
    let o := Comparison.ofImage d base image activity s
    Scans ((image.chunks base).flatMap Chunk.placed) (calls o.log) o.result ∧
      d.Ran s (calls o.log) o.state := by
  obtain ⟨left, ran⟩ := conforms_ofImage (d := d) base image activity s
  refine ⟨?_, ran⟩
  generalize Comparison.ofImage d base image activity s = o at left
  cases left with
  | complete h =>
    have compares := h.compares_image
    rw [calls_trace] at compares
    exact compares.scans
  | cut h short =>
    have halted := short.halted
    rw [calls_trace] at halted
    exact h.compares_image.scans_of_halted halted

end Scan

/-! ## A memory behind a device -/

/-- A device gives these answers to these commands, one after the other. -/
def Device.Answers {σ : Type} (d : Device σ) (s : σ) (cs : List Call) : Prop := ∃ s', d.Ran s cs s'

/-- As long as it is only read, a device has the words of a fixed memory.  A read may fail, but one
that is answered is answered from the memory. -/
def Device.ReadsFrom {σ : Type} (d : Device σ) (memory : UInt32 → UInt32) (s : σ) : Prop :=
  ∀ (cs : List Call) (s' : σ) (a v : UInt32), (∀ c ∈ cs, ∃ b, c.command = .read b) →
    d.Ran s cs s' → (d.call (.read a) s').result = .ok v → v = memory a

/-- The first `n` reads from `base` on, as a memory answers them. -/
def memoryReads (memory : UInt32 → UInt32) (base : UInt32) (n : Nat) : List Call :=
  (List.range n).map fun k => readCall (wordAddress base k, memory (wordAddress base k))

/-- The first `n` words of an image are in a memory from `base` on. -/
def Image.Agrees (image : Image) (memory : UInt32 → UInt32) (base : UInt32) (n : Nat) : Prop :=
  ∀ k < n, memory (wordAddress base k) = image.wordAt k

section Memory

variable {σ : Type} {d : Device σ} {memory : UInt32 → UInt32} {base : UInt32} {image : Image}
  {s : σ} {n : Nat}

theorem memoryReads_succ (memory : UInt32 → UInt32) (base : UInt32) (n : Nat) :
    memoryReads memory base (n + 1)
      = memoryReads memory base n
          ++ [readCall (wordAddress base n, memory (wordAddress base n))] := by
  rw [memoryReads, List.range_succ, List.map_append]
  rfl

theorem Image.Agrees.memoryReads_eq (agree : image.Agrees memory base n) :
    memoryReads memory base n
      = ((List.range n).map fun k => (wordAddress base k, image.wordAt k)).map readCall := by
  rw [memoryReads, List.map_map]
  apply List.map_congr_left
  intro k hk
  rw [agree k (List.mem_range.mp hk)]
  rfl

theorem Image.Agrees.mono {m : Nat} (agree : image.Agrees memory base n) (h : m ≤ n) :
    image.Agrees memory base m :=
  fun k hk => agree k (Nat.lt_of_lt_of_le hk h)

/-- A device that answers some reads answers the first ones of them. -/
theorem Device.Answers.mono {m : Nat} (answers : d.Answers s (memoryReads memory base n))
    (h : m ≤ n) : d.Answers s (memoryReads memory base m) := by
  obtain ⟨k, rfl⟩ := Nat.exists_eq_add_of_le h
  obtain ⟨s', ran⟩ := answers
  rw [memoryReads, List.range_add, List.map_append] at ran
  obtain ⟨t, first, -⟩ := Device.ran_append.mp ran
  exact ⟨t, first⟩

/-- Either all of the first words agree, or there is a first one that does not. -/
theorem Image.agrees_or_differs (image : Image) (memory : UInt32 → UInt32) (base : UInt32)
    (n : Nat) : image.Agrees memory base n ∨
      ∃ m < n, image.Agrees memory base m ∧ memory (wordAddress base m) ≠ image.wordAt m := by
  induction n with
  | zero => exact .inl fun k hk => absurd hk (Nat.not_lt_zero k)
  | succ n ih =>
    rcases ih with agree | ⟨m, hm, first⟩
    · by_cases same : memory (wordAddress base n) = image.wordAt n
      · left
        intro k hk
        rcases Nat.lt_succ_iff_lt_or_eq.mp hk with hk | rfl
        · exact agree k hk
        · exact same
      · exact .inr ⟨n, Nat.lt_succ_self n, agree, same⟩
    · exact .inr ⟨m, Nat.lt_succ_of_lt hm, first⟩

/-- Either the first reads are all answered from the memory, or there is a first one that fails. -/
theorem Device.ReadsFrom.answers_or_fails (fixed : d.ReadsFrom memory s) (base : UInt32) (n : Nat) :
    d.Answers s (memoryReads memory base n) ∨
      ∃ m < n, ∃ e,
        d.Answers s (memoryReads memory base m ++ [⟨.read (wordAddress base m), .error e⟩]) := by
  induction n with
  | zero => exact .inl ⟨s, .nil s⟩
  | succ n ih =>
    rcases ih with ⟨s', ran⟩ | ⟨m, hm, failed⟩
    · have issued := ran_issue (d := d) (.read (wordAddress base n)) s'
      cases answer : (d.call (.read (wordAddress base n)) s').result with
      | ok v =>
        have reads : ∀ c ∈ memoryReads memory base n, ∃ b, c.command = .read b := by
          intro c hc
          obtain ⟨k, -, rfl⟩ := List.mem_map.mp hc
          exact ⟨_, rfl⟩
        obtain rfl := fixed _ _ _ v reads ran answer
        left
        rw [memoryReads_succ]
        rw [answer] at issued
        exact ⟨_, ran.append issued⟩
      | error e =>
        rw [answer] at issued
        exact .inr ⟨n, Nat.lt_succ_self n, e, _, ran.append issued⟩
    · exact .inr ⟨m, Nat.lt_succ_of_lt hm, failed⟩

end Memory

namespace Simulated

variable {s s' : Simulated} {cs : List Call}

theorem flash_read (s : Simulated) (a : UInt32) : (s.answer (.read a)).2.flash = s.flash := by
  show (s.read a).2.flash = _
  unfold read
  split <;> rfl

theorem flash_of_reads (reads : ∀ c ∈ cs, ∃ a, c.command = .read a) (ran : device.Ran s cs s') :
    s'.flash = s.flash := by
  induction cs generalizing s with
  | nil => rw [Device.ran_nil.mp ran]
  | cons c rest ih =>
    obtain ⟨⟨a, read⟩, later⟩ := List.forall_mem_cons.mp reads
    obtain ⟨-, ran⟩ := ran_cons_iff.mp ran
    rw [read] at ran
    rw [ih later ran, flash_read]

/-- The simulated bootloader has the words of its flash. -/
theorem readsFrom_flash (s : Simulated) : device.ReadsFrom s.flash.word s := by
  intro cs s' a v reads ran answer
  rw [← flash_of_reads reads ran]
  have answer : (s'.read a).1 = .ok v := answer
  unfold read at answer
  split at answer
  · cases answer
  · exact (Except.ok.inj answer).symm

/-- On word boundaries no read of it fails. -/
theorem answers_memoryReads {base : UInt32} (aligned : base.toNat % 4 = 0) (s : Simulated)
    (n : Nat) : device.Answers s (memoryReads s.flash.word base n) := by
  rcases s.readsFrom_flash.answers_or_fails base n with answers | ⟨m, hm, e, s', failed⟩
  · exact answers
  · obtain ⟨t, -, last⟩ := Device.ran_append.mp failed
    have answered := (ran_singleton_iff.mp last).1
    rw [answer_read (toNat_wordAddress_mod aligned m)] at answered
    cases answered

end Simulated

/-! ## How comparisons end -/

section Ends

variable {σ : Type} {d : Device σ} {memory : UInt32 → UInt32} {base : UInt32} {image : Image}
  {s : σ} {n : Nat}

theorem scans_identical (agree : image.Agrees memory base (4 * image.chunkCount)) :
    Scans ((image.chunks base).flatMap Chunk.placed)
      (memoryReads memory base (4 * image.chunkCount)) (.ok .identical) := by
  have whole := Scans.append ((image.chunks base).flatMap Chunk.placed) .done
  rw [List.append_nil, List.append_nil, image.flatMap_placed, ← agree.memoryReads_eq] at whole
  rwa [image.flatMap_placed]

/-- The words of an image up to one of them, which the others follow. -/
theorem Image.exists_flatMap_placed (base : UInt32) (inside : n < 4 * image.chunkCount) :
    ∃ after, (image.chunks base).flatMap Chunk.placed
      = ((List.range n).map fun k => (wordAddress base k, image.wordAt k))
          ++ (wordAddress base n, image.wordAt n) :: after := by
  obtain ⟨m, count⟩ := Nat.exists_eq_add_of_lt inside
  rw [image.flatMap_placed, count, Nat.add_right_comm, List.range_add, List.range_succ,
    List.map_append, List.map_append, List.append_assoc]
  exact ⟨_, rfl⟩

theorem scans_differs (inside : n < 4 * image.chunkCount) (agree : image.Agrees memory base n)
    (wrong : memory (wordAddress base n) ≠ image.wordAt n) :
    Scans ((image.chunks base).flatMap Chunk.placed) (memoryReads memory base (n + 1))
      (.ok (.differs (wordAddress base n) (image.wordAt n) (memory (wordAddress base n)))) := by
  obtain ⟨after, words⟩ := Image.exists_flatMap_placed base inside
  rw [words, memoryReads_succ, agree.memoryReads_eq]
  exact (Scans.differs wrong).append _

theorem scans_failed (inside : n < 4 * image.chunkCount) (agree : image.Agrees memory base n)
    (e : SessionError) :
    Scans ((image.chunks base).flatMap Chunk.placed)
      (memoryReads memory base n ++ [⟨.read (wordAddress base n), .error e⟩])
      (.error (.session e)) := by
  obtain ⟨after, words⟩ := Image.exists_flatMap_placed base inside
  rw [words, agree.memoryReads_eq]
  exact Scans.failed.append _

/-- A scan that the device answers is the one that takes place. -/
theorem ofImage_of_scans {cs : List Call} {r : Except DfuError Comparison} (activity : Activity)
    (h : Scans ((image.chunks base).flatMap Chunk.placed) cs r) (answers : d.Answers s cs) :
    (Comparison.ofImage d base image activity s).result = r ∧
      calls (Comparison.ofImage d base image activity s).log = cs := by
  obtain ⟨s', ran'⟩ := answers
  obtain ⟨scans, ran⟩ := scans_ofImage d base image activity s
  obtain ⟨made, result⟩ := scans.unique h ran ran'
  exact ⟨result, made⟩

/-- Comparing an image with a memory.  Word `k` of the padded image is compared with the word at
`base + 4 * k`, in order.  If no read fails, the comparison finds no difference exactly if there is
none, and otherwise the first one; a read that fails before that ends it with the failure.  Nothing
but the reads up to there is asked of the device, and there is no other way to end. -/
theorem ofImage_finds_first_difference (d : Device σ) (memory : UInt32 → UInt32) (base : UInt32)
    (image : Image) (activity : Activity) (s : σ)
    (space : base.toNat + Layout.paddedSize image.size ≤ addressSpace)
    (fixed : d.ReadsFrom memory s) :
    let count := 4 * image.chunkCount
    let address := wordAddress base
    let reads := memoryReads memory base
    let failing := fun n e => reads n ++ [⟨.read (address n), .error e⟩]
    let agree := image.Agrees memory base
    let o := Comparison.ofImage d base image activity s
    (∀ k < count, (address k).toNat = base.toNat + 4 * k) ∧
      d.Ran s (calls o.log) o.state ∧
      (d.Answers s (reads count) → (o.result = .ok .identical ↔ agree count)) ∧
      (d.Answers s (reads count) → agree count → calls o.log = reads count) ∧
      (∀ n < count, agree n → memory (address n) ≠ image.wordAt n → d.Answers s (reads (n + 1)) →
        o.result = .ok (.differs (address n) (image.wordAt n) (memory (address n))) ∧
          calls o.log = reads (n + 1)) ∧
      (∀ n < count, ∀ e, agree n → d.Answers s (failing n e) →
        o.result = .error (.session e) ∧ calls o.log = failing n e) ∧
      ((agree count ∧ d.Answers s (reads count)) ∨
        ∃ n < count, agree n ∧
          (memory (address n) ≠ image.wordAt n ∧ d.Answers s (reads (n + 1)) ∨
            ∃ e, d.Answers s (failing n e))) := by
  intro count address reads failing agree o
  have differs : ∀ n < count, agree n → memory (address n) ≠ image.wordAt n →
      d.Answers s (reads (n + 1)) →
      o.result = .ok (.differs (address n) (image.wordAt n) (memory (address n))) ∧
        calls o.log = reads (n + 1) :=
    fun n hn same wrong => ofImage_of_scans activity (scans_differs hn same wrong)
  refine ⟨fun k => Image.toNat_wordAddress space, (scans_ofImage d base image activity s).2,
    fun answers => ⟨fun identical => ?_, fun same => ?_⟩, fun answers same => ?_, differs,
    fun n hn e same => ?_, ?_⟩
  -- a first difference would have been found
  · rcases image.agrees_or_differs memory base count with same | ⟨n, hn, same, wrong⟩
    · exact same
    · have found := (differs n hn same wrong (answers.mono hn)).1
      rw [identical] at found
      cases found
  · exact (ofImage_of_scans activity (scans_identical same) answers).1
  · exact (ofImage_of_scans activity (scans_identical same) answers).2
  · exact ofImage_of_scans activity (scans_failed hn same e)
  -- the reads go as far as the words agree, or the first failing read stops them on the way
  · rcases image.agrees_or_differs memory base count with same | ⟨n, hn, same, wrong⟩
    · rcases fixed.answers_or_fails base count with answers | ⟨m, hm, failed⟩
      · exact .inl ⟨same, answers⟩
      · exact .inr ⟨m, hm, same.mono (Nat.le_of_lt hm), .inr failed⟩
    · rcases fixed.answers_or_fails base (n + 1) with answers | ⟨m, hm, failed⟩
      · exact .inr ⟨n, hn, same, .inl ⟨wrong, answers⟩⟩
      · have before : m ≤ n := Nat.le_of_lt_succ hm
        exact .inr ⟨m, Nat.lt_of_le_of_lt before hn, same.mono before, .inr failed⟩

end Ends

/-- A tail of one byte, over flash that holds only the first word: the second word is completed
with zeros and differs from an erased one.  Two bytes further on the first read is refused. -/
theorem ofImage_finds_first_difference_tail :
    let image : Image := ⟨[1, 2, 3, 4, 5]⟩
    let s : Simulated := { flash := Flash.blank.program [(0x1000, 0x04030201)] }
    let compared := Comparison.ofImage Simulated.device 0x1000 image .compare s
    let misplaced := Comparison.ofImage Simulated.device 0x1002 image .compare s
    compared.result = .ok (.differs 0x1004 5 erasedWord) ∧
      calls compared.log = [⟨.read 0x1000, .ok 0x04030201⟩, ⟨.read 0x1004, .ok erasedWord⟩] ∧
      misplaced.result
        = .error (.session (.rejected s!"unaligned read at {Hex.address 0x1002}")) := by
  intro image s compared misplaced
  have word (a : UInt32) : s.flash.word a = if 0x1000 = a then 0x04030201 else erasedWord := by
    show (Flash.blank.programWord 0x1000 0x04030201).word a = _
    rw [Flash.word_programWord, Flash.word_blank, Flash.erasedWord_and, Flash.word_blank]
  have first : s.flash.word 0x1000 = 0x04030201 := by rw [word, if_pos rfl]
  have second : s.flash.word 0x1004 = erasedWord := by rw [word, if_neg (by decide)]
  have head : image.wordAt 0 = 0x04030201 := by decide
  have tail : image.wordAt 1 = 5 := by decide
  obtain ⟨-, -, -, -, differs, -, -⟩ := ofImage_finds_first_difference Simulated.device s.flash.word
    0x1000 image .compare s (by decide) s.readsFrom_flash
  obtain ⟨-, -, -, -, -, failed, -⟩ := ofImage_finds_first_difference Simulated.device s.flash.word
    0x1002 image .compare s (by decide) s.readsFrom_flash
  have agree : image.Agrees s.flash.word 0x1000 1 := by
    intro k hk
    obtain rfl : k = 0 := by omega
    exact first.trans head.symm
  have wrong : s.flash.word 0x1004 ≠ image.wordAt 1 := by
    rw [second, tail]
    decide
  obtain ⟨result, made⟩ := differs 1 (by decide) agree wrong (Simulated.answers_memoryReads rfl s 2)
  have refused : Simulated.device.Answers s [⟨.read 0x1002, .error _⟩] :=
    ⟨_, Simulated.ran_singleton_iff.mpr ⟨rfl, rfl⟩⟩
  have reads : memoryReads s.flash.word 0x1000 2
      = [⟨.read 0x1000, .ok (s.flash.word 0x1000)⟩,
          ⟨.read 0x1004, .ok (s.flash.word 0x1004)⟩] := rfl
  have found : Comparison.differs (wordAddress 0x1000 1) (image.wordAt 1) (s.flash.word 0x1004)
      = .differs 0x1004 5 erasedWord := by
    rw [second, tail]
    rfl
  rw [first, second] at reads
  refine ⟨result.trans (congrArg Except.ok found), made.trans reads, ?_⟩
  exact (failed 0 (by decide) _ (fun k hk => absurd hk (Nat.not_lt_zero k)) refused).1

end CanDfu
