/-
  CanDfu.Proofs.LostStagings

  A scratch write is not acknowledged, so one that is lost or altered on its way goes unnoticed
  until the commit.  The checksum that comes back then is a plain sum, which two faults could
  leave as it was; one fault cannot.  A `Lossy` device is the simulated bootloader behind a bus
  that may damage one of the four writes of each chunk, and programming an image on it ends in one
  of two ways:

    every chunk arrived as it was sent       the image is in flash
    some chunk did not                       a checksum mismatch at the first such chunk, which is
                                             the last one that is committed

  A register that missed its write holds a word of the chunk before, or what it held at first.
  The next chunk is staged over all four registers, so no damage outlives its chunk.
-/
import CanDfu.Proofs.ChunkWrites
import CanDfu.Proofs.UploadRegions

namespace CanDfu

/-! ## Damage on the way to the registers -/

namespace Quad

/-- The word in register `i`. -/
def word (q : Quad) : Fin 4 → UInt32
  | 0 => q.w0
  | 1 => q.w1
  | 2 => q.w2
  | 3 => q.w3

/-- Quads with the same sum do not differ in one word alone. -/
theorem eq_of_checksum_eq {q r : Quad} (i : Fin 4) (others : ∀ j, j ≠ i → q.word j = r.word j)
    (sums : q.checksum = r.checksum) : q = r := by
  obtain ⟨w0, w1, w2, w3⟩ := q
  obtain ⟨v0, v1, v2, v3⟩ := r
  have sums : 0 + w0 + w1 + w2 + w3 = 0 + v0 + v1 + v2 + v3 := sums
  have same0 : 0 ≠ i → w0 = v0 := others 0
  have same1 : 1 ≠ i → w1 = v1 := others 1
  have same2 : 2 ≠ i → w2 = v2 := others 2
  have same3 : 3 ≠ i → w3 = v3 := others 3
  -- three words are the same in both sums, and cancel
  simp only [Quad.mk.injEq]
  match i with
  | 0 => grind
  | 1 => grind
  | 2 => grind
  | 3 => grind

end Quad

/-- What becomes of a word on its way to a scratch register. -/
inductive StagingFault
  /-- It never arrives, and the register keeps what it holds. -/
  | lost
  /-- Another word arrives in its place. -/
  | altered (value : UInt32)
  deriving DecidableEq, Repr

namespace StagingFault

/-- What a register holds once a word was sent to it. -/
def received : Option StagingFault → (held sent : UInt32) → UInt32
  | none, _, sent => sent
  | some lost, held, _ => held
  | some (altered value), _, _ => value

/-- What the registers hold once four words were sent to them, where `faults n` is what becomes of
write number `n`, and the first of the four is number `n`. -/
def arrived (faults : Nat → Option StagingFault) (n : Nat) (held sent : Quad) : Quad :=
  ⟨received (faults n) held.w0 sent.w0, received (faults (n + 1)) held.w1 sent.w1,
    received (faults (n + 2)) held.w2 sent.w2, received (faults (n + 3)) held.w3 sent.w3⟩

/-- What the registers hold each time that four more words were sent to them. -/
def arrivals (faults : Nat → Option StagingFault) :
    (n : Nat) → (held : Quad) → List Quad → List Quad
  | _, _, [] => []
  | n, held, sent :: rest =>
    arrived faults n held sent :: arrivals faults (n + 4) (arrived faults n held sent) rest

/-- At most one of the four writes from number `n` on is damaged. -/
def Single (faults : Nat → Option StagingFault) (n : Nat) : Prop :=
  ∀ i j : Fin 4, faults (n + i) ≠ none → faults (n + j) ≠ none → i = j

variable {faults : Nat → Option StagingFault} {n : Nat} {held sent : Quad}

/-- A write that is not damaged puts into its register what was sent. -/
theorem word_arrived_of_none {i : Fin 4} (sound : faults (n + i) = none) :
    (arrived faults n held sent).word i = sent.word i := by
  have received_none {held sent : UInt32} : received (faults (n + i)) held sent = sent := by
    rw [sound]
    rfl
  match i with
  | 0 => exact received_none
  | 1 => exact received_none
  | 2 => exact received_none
  | 3 => exact received_none

/-- All writes of a chunk but one are sound. -/
theorem Single.exists_others_sound (single : Single faults n) :
    ∃ i : Fin 4, ∀ j : Fin 4, j ≠ i → faults (n + j) = none := by
  by_cases sound : ∀ j : Fin 4, faults (n + j) = none
  · exact ⟨0, fun j _ => sound j⟩
  · obtain ⟨i, damaged⟩ := Classical.not_forall.mp sound
    refine ⟨i, fun j apart => ?_⟩
    apply Decidable.not_not.mp
    intro other
    exact apart (single j i other damaged)

/-- A chunk that arrives with the right checksum arrives as it was sent. -/
theorem Single.arrived_eq (single : Single faults n)
    (sums : (arrived faults n held sent).checksum = sent.checksum) :
    arrived faults n held sent = sent := by
  obtain ⟨i, others⟩ := single.exists_others_sound
  exact Quad.eq_of_checksum_eq i (fun j apart => word_arrived_of_none (others j apart)) sums

end StagingFault

/-! ## An image in erased flash -/

/-- An image that was written to erased flash is there. -/
theorem Simulated.dump_writtenAll {base : UInt32} {image : Image} {s : Simulated}
    (aligned : base.toNat % 16 = 0)
    (space : base.toNat + Layout.paddedSize image.size ≤ addressSpace)
    (erased : ∀ a : UInt32, a.toNat % 4 = 0 → base.toNat ≤ a.toNat →
      a.toNat < base.toNat + Layout.paddedSize image.size → s.flash.word a = erasedWord) :
    (s.writtenAll (image.chunks base)).flash.dump base (Layout.paddedSize image.size)
      = image.padded := by
  obtain ⟨scratch, written⟩ := s.writtenAll_eq (image.chunks base)
  rw [written, Image.dump_eq_padded_iff_holds]
  apply Flash.holds_program
  · apply nodup_placed (fun _ hc => (Image.chunks_range aligned space hc).1)
    exact Image.chunks_pairwise space
  · intro p hp
    obtain ⟨boundary, low, high⟩ := Image.words_range aligned space hp
    rw [erased p.1 boundary low high, Flash.erasedWord_and]

open StagingFault

/-! ## A bootloader behind a bus that loses words -/

/-- The simulated bootloader, and what becomes of each scratch write that it is sent. -/
structure Lossy where
  inner : Simulated
  /-- What becomes of each scratch write, counted from the first one that was ever sent. -/
  faults : Nat → Option StagingFault
  /-- Scratch writes sent so far. -/
  sent : Nat := 0

namespace Lossy

/-- Carries out a command.  Of a scratch write that was damaged, what the register takes is what
arrived. -/
def answer (s : Lossy) : (c : Command) → Except SessionError c.Reply × Lossy
  | .scratch index value =>
    let held := s.inner.scratch.toList.getD index.toNat 0
    let (reply, inner) := s.inner.stage index (received (s.faults s.sent) held value)
    (reply, { s with inner, sent := s.sent + 1 })
  | c =>
    let (reply, inner) := s.inner.answer c
    (reply, { s with inner })

/-- The bootloader behind its bus, as a device. -/
def device : Device Lossy where
  call c s :=
    let (reply, s') := s.answer c
    ⟨reply, s', []⟩
  seed s := s.inner.seed

/-- What the registers hold once a chunk was staged. -/
def arrived (s : Lossy) (c : Chunk) : Quad :=
  StagingFault.arrived s.faults s.sent s.inner.scratch c.words

/-- The device once a chunk was staged and committed: it has programmed what arrived. -/
def written (s : Lossy) (c : Chunk) : Lossy :=
  { s with inner := s.inner.written ⟨c.address, s.arrived c⟩, sent := s.sent + 4 }

/-- What the registers hold at each commit, if some chunks are staged one after the other. -/
def arrivals (s : Lossy) (chunks : List Chunk) : List Quad :=
  StagingFault.arrivals s.faults s.sent s.inner.scratch (chunks.map Chunk.words)

/-- Of the writes of each of the next `chunks` chunks, at most one is damaged. -/
def SingleFaults (s : Lossy) (chunks : Nat) : Prop :=
  ∀ k < chunks, Single s.faults (s.sent + 4 * k)

variable {s : Lossy} {c : Chunk} {w : Writer} {chunks rest : List Chunk}

theorem arrivals_cons (s : Lossy) (c : Chunk) (rest : List Chunk) :
    s.arrivals (c :: rest) = s.arrived c :: (s.written c).arrivals rest :=
  rfl

theorem SingleFaults.head (single : s.SingleFaults (chunks.length + 1)) : Single s.faults s.sent :=
  single 0 (Nat.succ_pos _)

theorem SingleFaults.tail (single : s.SingleFaults (chunks.length + 1)) (c : Chunk) :
    (s.written c).SingleFaults chunks.length := by
  intro k hk
  have later := single (k + 1) (Nat.succ_lt_succ hk)
  rw [Nat.mul_succ, Nat.add_comm (4 * k), ← Nat.add_assoc] at later
  exact later

/-! ## Writing one chunk -/

/-- All four writes of a chunk are answered, whatever arrives. -/
theorem ran_stagings (c : Chunk) (s : Lossy) :
    device.Ran s c.stagings
      { s with inner := { s.inner with scratch := s.arrived c }, sent := s.sent + 4 } := by
  simp only [Chunk.stagings, Device.ran_cons, Device.ran_nil]
  exact ⟨rfl, rfl, rfl, rfl, rfl⟩

theorem write_ends (seed : w.form.seed = s.inner.seed) (sound : s.inner.checksumFaults = [])
    (aligned : c.Aligned) :
    (w.write device c s).ending
      = (if (s.arrived c).checksum = c.checksum then .ok (s.arrived c).checksum
          else .error (.checksumMismatch c.address c.checksum (s.arrived c).checksum),
          s.written c) := by
  -- to the bootloader this is the commit of a chunk of what arrived
  have answered : Simulated.answer { s.inner with scratch := s.arrived c }
      (.commit c.address w.form.seed)
      = (.ok (s.arrived c).checksum, s.inner.written ⟨c.address, s.arrived c⟩) := by
    rw [seed]
    apply (Simulated.answer_commit (c := ⟨c.address, s.arrived c⟩) aligned).trans
    rw [sound]
    rfl
  have left := congrArg Prod.snd answered
  rw [Writer.write_ends (ran_stagings c s) (congrArg Prod.fst answered)]
  exact congrArg (fun inner => (_, { s with inner, sent := s.sent + 4 })) left

theorem write_of_eq (seed : w.form.seed = s.inner.seed) (sound : s.inner.checksumFaults = [])
    (aligned : c.Aligned) (whole : s.arrived c = c.words) :
    (w.write device c s).ending = (.ok c.checksum, s.written c) := by
  have sums : (s.arrived c).checksum = c.checksum := congrArg Quad.checksum whole
  rw [write_ends seed sound aligned, if_pos sums, sums]

theorem write_of_ne (seed : w.form.seed = s.inner.seed) (sound : s.inner.checksumFaults = [])
    (aligned : c.Aligned) (damaged : (s.arrived c).checksum ≠ c.checksum) :
    (w.write device c s).ending
      = (.error (.checksumMismatch c.address c.checksum (s.arrived c).checksum), s.written c) := by
  rw [write_ends seed sound aligned, if_neg damaged]

/-! ## Writing one chunk after another -/

/-- The first of some chunks that did not arrive as it was sent, the chunks before it, and what
arrived in its place. -/
structure FirstDamaged (s : Lossy) (chunks before : List Chunk) (c : Chunk) (q : Quad) : Prop where
  sent : ∃ after, chunks = before ++ c :: after
  arrived : ∃ later, s.arrivals chunks = before.map Chunk.words ++ q :: later
  differs : q ≠ c.words

theorem FirstDamaged.cons {before : List Chunk} {d : Chunk} {q : Quad}
    (h : (s.written c).FirstDamaged rest before d q) (whole : s.arrived c = c.words) :
    s.FirstDamaged (c :: rest) (c :: before) d q := by
  obtain ⟨⟨after, rfl⟩, ⟨later, arrived⟩, differs⟩ := h
  refine ⟨⟨after, rfl⟩, ⟨later, ?_⟩, differs⟩
  rw [arrivals_cons, arrived, whole]
  rfl

/-- Chunks are written until one does not arrive as it was sent; that one is committed too, and
its checksum gives it away. -/
theorem writeAll_ends (seed : w.form.seed = s.inner.seed) (sound : s.inner.checksumFaults = [])
    (aligned : ∀ c ∈ chunks, c.Aligned) (single : s.SingleFaults chunks.length) :
    (s.arrivals chunks = chunks.map Chunk.words ∧
      ∃ t, (w.writeAll device chunks s).ending = (.ok (), t) ∧
        t.inner = s.inner.writtenAll chunks) ∨
    ∃ before c q, s.FirstDamaged chunks before c q ∧ q.checksum ≠ c.checksum ∧
      ∃ t, (w.writeAll device chunks s).ending
          = (.error (.checksumMismatch c.address c.checksum q.checksum), t) ∧
        t.inner = s.inner.writtenAll (before ++ [⟨c.address, q⟩]) := by
  induction chunks generalizing s with
  | nil => exact .inl ⟨rfl, s, rfl, rfl⟩
  | cons c rest ih =>
    obtain ⟨here, later⟩ := List.forall_mem_cons.mp aligned
    by_cases sums : (s.arrived c).checksum = c.checksum
    · have whole : s.arrived c = c.words := single.head.arrived_eq sums
      have programmed : (s.written c).inner = s.inner.written c := by
        show s.inner.written ⟨c.address, s.arrived c⟩ = _
        rw [whole]
      rw [Writer.writeAll_of_ok (write_of_eq seed sound here whole), arrivals_cons, whole]
      -- the chunk is in flash as it was sent, and the rest goes on from there
      rcases ih (s := s.written c) seed sound later (single.tail c) with
        ⟨arrived, t, ended, inner⟩ | ⟨before, d, q, first, wrong, t, ended, inner⟩
      · left
        rw [programmed] at inner
        exact ⟨congrArg _ arrived, t, ended, inner⟩
      · right
        rw [programmed] at inner
        exact ⟨c :: before, d, q, first.cons whole, wrong, t, ended, inner⟩
    · right
      rw [Writer.writeAll_of_error (write_of_ne seed sound here sums)]
      have differs : s.arrived c ≠ c.words := fun same => sums (congrArg Quad.checksum same)
      exact ⟨[], c, s.arrived c, ⟨⟨rest, rfl⟩, ⟨_, rfl⟩, differs⟩, sums, _, rfl, rfl⟩

/-- If one chunk did not arrive as it was sent, not all of them did. -/
theorem FirstDamaged.arrivals_ne {before : List Chunk} {q : Quad}
    (h : s.FirstDamaged chunks before c q) : s.arrivals chunks ≠ chunks.map Chunk.words := by
  obtain ⟨⟨after, rfl⟩, ⟨later, arrived⟩, differs⟩ := h
  intro same
  rw [arrived, List.map_append, List.map_cons] at same
  injection List.append_cancel_left same with head
  exact differs head

/-! ## Programming an image -/

/-- Programming an image over a bus that damages at most one scratch write of each chunk.  It
succeeds exactly if every chunk arrived as it was sent, and the image is in flash then.  If not, it
fails with the checksums of the first chunk that did not arrive so, and commits no later one. -/
theorem program_catches_damage (w : Writer) (base : UInt32) (image : Image) (s : Lossy)
    (aligned : base.toNat % 16 = 0)
    (space : base.toNat + Layout.paddedSize image.size ≤ addressSpace)
    (accepts : s.inner.checkSeed "commit" w.form.seed = .ok ())
    (sound : s.inner.checksumFaults = [])
    (erased : ∀ a : UInt32, a.toNat % 4 = 0 → base.toNat ≤ a.toNat →
      a.toNat < base.toNat + Layout.paddedSize image.size → s.inner.flash.word a = erasedWord)
    (single : s.SingleFaults image.chunkCount) :
    let chunks := image.chunks base
    let o := Programming.program w device base image s
    let committed := fun cs : List Chunk => s.inner.commits ++ (cs.map Chunk.address).toArray
    ((∃ n, o.result = .ok n) ↔ s.arrivals chunks = chunks.map Chunk.words) ∧
      (s.arrivals chunks = chunks.map Chunk.words →
        o.result = .ok image.chunkCount ∧ o.state.inner.commits = committed chunks ∧
          o.state.inner.flash.dump base (Layout.paddedSize image.size) = image.padded) ∧
      (s.arrivals chunks ≠ chunks.map Chunk.words →
        ∃ before c q, s.FirstDamaged chunks before c q ∧ q.checksum ≠ c.checksum ∧
          o.result = .error (.checksumMismatch c.address c.checksum q.checksum) ∧
          o.state.inner.commits = committed (before ++ [c])) := by
  intro chunks o committed
  have ended := program_endsAs (d := device) w base image s
  rw [Routine.ending_bind_pure] at ended
  have whole : ∀ c ∈ chunks, c.Aligned := fun _ hc => (Image.chunks_range aligned space hc).1
  have single : s.SingleFaults chunks.length := by
    rwa [image.length_chunks base]
  have seed : w.form.seed = s.inner.seed := Simulated.checkSeed_eq_ok_iff.mp accepts
  rcases writeAll_ends seed sound whole single with
    ⟨arrived, t, written, inner⟩ | ⟨before, c, q, first, wrong, t, written, inner⟩
  -- every chunk arrived as it was sent
  · have result : o.result = .ok image.chunkCount :=
      (congrArg Prod.fst ended).trans (congrArg (Except.map _) (congrArg Prod.fst written))
    have state : o.state = t := (congrArg Prod.snd ended).trans (congrArg Prod.snd written)
    refine ⟨⟨fun _ => arrived, fun _ => ⟨_, result⟩⟩, fun _ => ⟨result, ?_, ?_⟩, absurd arrived⟩
    · rw [state, inner, Simulated.commits_writtenAll]
    · rw [state, inner, Simulated.dump_writtenAll aligned space erased]
  -- one did not
  · have result : o.result = .error (.checksumMismatch c.address c.checksum q.checksum) :=
      (congrArg Prod.fst ended).trans (congrArg (Except.map _) (congrArg Prod.fst written))
    have state : o.state = t := (congrArg Prod.snd ended).trans (congrArg Prod.snd written)
    have damaged := first.arrivals_ne
    refine ⟨⟨?_, (absurd · damaged)⟩, (absurd · damaged), fun _ => ?_⟩
    · rintro ⟨n, succeeded⟩
      rw [result] at succeeded
      cases succeeded
    · refine ⟨before, c, q, first, wrong, result, ?_⟩
      rw [state, inner, Simulated.commits_writtenAll]
      -- what was committed in its place has its address
      simp only [committed, List.map_append, List.map_cons, List.map_nil]

/-- Two chunks, of which the second one loses its second word: the register keeps that of the first
chunk, the sums differ, and the mismatch is reported where the second chunk is committed. -/
theorem program_catches_damage_stale :
    let image : Image := ⟨Quad.toBytes ⟨1, 2, 3, 4⟩ ++ [5, 0, 0, 0, 6]⟩
    let s : Lossy :=
      { inner := { scratch := ⟨9, 9, 9, 9⟩, seed := some 7 }
        faults := fun n => if n = 5 then some .lost else none }
    let o := Programming.program ⟨.seeded 7, 0⟩ device 0x1000 image s
    o.result = .error (.checksumMismatch 0x1010 11 7) ∧
      o.state.inner.commits = #[0x1000, 0x1010] := by
  intro image s o
  have chunks : image.chunks 0x1000 = [⟨0x1000, ⟨1, 2, 3, 4⟩⟩, ⟨0x1010, ⟨5, 6, 0, 0⟩⟩] := by
    unfold Image.chunks
    rw [quads_of_ne_nil (by exact nofun), quads_of_ne_nil (by exact nofun)]
    have done : (image.bytes.drop chunkBytes).drop chunkBytes = [] := rfl
    rw [done, quads_nil]
    rfl
  have arrived : s.arrivals (image.chunks 0x1000) = [⟨1, 2, 3, 4⟩, ⟨5, 2, 0, 0⟩] := by
    rw [chunks]
    rfl
  have single : s.SingleFaults image.chunkCount := by
    intro k hk i j first second
    simp only [s, ne_eq, ite_eq_right_iff, reduceCtorEq, imp_false, Decidable.not_not]
      at first second
    omega
  obtain ⟨-, -, stopped⟩ := program_catches_damage ⟨.seeded 7, 0⟩ 0x1000 image s rfl (by decide) rfl
    rfl (fun a _ _ _ => Flash.word_blank a) single
  rw [chunks] at arrived stopped
  rw [arrived] at stopped
  obtain ⟨before, c, q, ⟨⟨after, sent⟩, ⟨later, came⟩, differs⟩, -, result, commits⟩ :=
    stopped (by decide)
  rw [arrived] at came
  -- the first chunk arrived as it was sent, so it is the second one that is reported
  match before with
  | [] =>
    injection sent with sent
    injection came with came
    exact absurd (by rw [← came, ← sent]) differs
  | [first] =>
    injection sent with first_sent sent
    injection sent with sent
    injection came with first_came came
    injection came with came
    subst first_sent sent came
    exact ⟨result, commits⟩
  | first :: second :: more =>
    have length := congrArg List.length sent
    simp at length

end Lossy

end CanDfu
