/-
  CanDfu.Proofs.AddressSafety

  Where a first upload reads and programs, on an accepted layout, in natural numbers.  Addresses
  are formed by additions that wrap; that none of them does is what the one check at the start,
  of the image's size, is there for.

    * `InBounds` : what a call may touch in each stage.  Programming stays out of the NVM region
      and restoring inside it.
    * `ExactAddresses` : the sums that addresses are formed by, each equal to the sum as a number.
-/
import CanDfu.Proofs.CallDiscipline
import CanDfu.Proofs.FirstRun
import CanDfu.Proofs.UploadRegions

namespace CanDfu

variable {σ : Type} {l : Layout} {image : Image}

/-- The sixteen bytes from an address on are in the address space, on a chunk boundary. -/
structure ChunkAt (a : UInt32) : Prop where
  aligned : a.toNat % 16 = 0
  in_space : a.toNat + 16 ≤ addressSpace

/-- What a call may touch in each stage, for an image of some size: a read is of a word of the
image or of the NVM region, and a commit is of a chunk wholly outside the region, or wholly inside
it when it is restored. -/
inductive InBounds (l : Layout) (size : Nat) : Stage → Command → Prop
  | image {st : Stage} {a : UInt32} {i : Nat} (stage : st = .compare ∨ st = .verify)
      (inside : 4 * i < Layout.paddedSize size) (sum : a.toNat = l.flashBase.toNat + 4 * i)
      (aligned : a.toNat % 4 = 0) : InBounds l size st (.read a)
  | nvm {a : UInt32} {i : Nat} (inside : i < l.nvmWords)
      (sum : a.toNat = l.nvmBase.toNat + 4 * i) (aligned : a.toNat % 4 = 0) :
      InBounds l size .backup (.read a)
  | erase {seed : Option UInt32} : InBounds l size .erase (.erase seed)
  | scratch {st : Stage} {index : UInt8} {value : UInt32} (stage : st = .program ∨ st = .restore) :
      InBounds l size st (.scratch index value)
  | program {a : UInt32} {seed : Option UInt32} {k : Nat} (chunk : ChunkAt a)
      (sum : a.toNat = l.flashBase.toNat + 16 * k)
      (outside : a.toNat + 16 ≤ l.nvmBase.toNat ∨ l.nvmEnd ≤ a.toNat) :
      InBounds l size .program (.commit a seed)
  | restore {a : UInt32} {seed : Option UInt32} {k : Nat} (chunk : ChunkAt a)
      (sum : a.toNat = l.nvmBase.toNat + 16 * k)
      (inside : l.nvmBase.toNat ≤ a.toNat ∧ a.toNat + 16 ≤ l.nvmEnd) :
      InBounds l size .restore (.commit a seed)
  | reset : InBounds l size .reset .reset

/-- The addresses and offsets an upload computes are exact. -/
structure ExactAddresses (l : Layout) (image : Image) : Prop where
  /-- The addresses at which the image is handed out. -/
  chunks : (image.pieces l.flashBase).map (fun p => p.chunk.address.toNat)
    = (List.range image.chunkCount).map (l.flashBase.toNat + 16 * ·)
  /-- The addresses of their words. -/
  words : ∀ p ∈ image.pieces l.flashBase, ∀ i < 4,
    (p.chunk.wordAddress i).toNat = p.chunk.address.toNat + 4 * i
  /-- The addresses at which the NVM region is read. -/
  nvmWords : ∀ i < l.nvmWords,
    (l.nvmBase + UInt32.ofNat i * 4).toNat = l.nvmBase.toNat + 4 * i
  /-- The addresses at which a backup of the NVM region is cut into chunks. -/
  nvmChunks : ∀ bytes : List UInt8, bytes.length = l.nvmSize.toNat →
    (chunkSlices l.nvmBase bytes).map (fun slice => slice.1.toNat)
      = (List.range l.nvmChunks).map (l.nvmBase.toNat + 16 * ·)
  /-- Where in the region such a chunk ends. -/
  offsets : ∀ bytes : List UInt8, bytes.length = l.nvmSize.toNat →
    (chunkSlices l.nvmBase bytes).map (fun slice => (slice.1 - l.nvmBase + 16).toNat)
      = (List.range l.nvmChunks).map (16 * · + 16)

/-! ## Exact sums -/

/-- The chunks of a layout that ends in the address space are sixteen apart. -/
theorem map_address_chunksFrom {base : UInt32} {qs : List Quad}
    (h : base.toNat + 16 * qs.length ≤ addressSpace) :
    (chunksFrom base qs).map (fun c => c.address.toNat)
      = (List.range qs.length).map (base.toNat + 16 * ·) := by
  induction qs generalizing base with
  | nil => rfl
  | cons q rest ih =>
    have shifted : (chunksFrom (base + 16) rest).map (fun c => c.address.toNat)
        = (List.range rest.length).map (fun k => base.toNat + 16 * (k + 1)) := by
      cases rest with
      | nil => rfl
      | cons r rest =>
        have step := toNat_add_sixteen h (Nat.succ_pos _)
        rw [List.length_cons] at h
        rw [ih (by omega), step]
        exact List.map_congr_left fun k _ => by omega
    rw [chunksFrom, List.map_cons, shifted, List.length_cons, List.range_succ_eq_map,
      List.map_cons, List.map_map]
    rfl

/-- A backup is cut into chunks where its quads are laid out. -/
theorem map_fst_chunkSlices (base : UInt32) (bytes : List UInt8) :
    (chunkSlices base bytes).map Prod.fst = (chunksFrom base (quads bytes)).map Chunk.address := by
  fun_induction chunkSlices base bytes with
  | case1 =>
    rw [quads_nil]
    rfl
  | case2 base bytes h ih => rw [List.map_cons, ih, quads_of_ne_nil h, chunksFrom, List.map_cons]

/-- The words of a layout that ends in the address space are four apart. -/
theorem toNat_of_mem_placed_chunksFrom {base : UInt32} {qs : List Quad} {p : UInt32 × UInt32}
    (aligned : base.toNat % 16 = 0) (h : base.toNat + 16 * qs.length ≤ addressSpace)
    (hp : p ∈ (chunksFrom base qs).flatMap Chunk.placed) :
    ∃ i < 4 * qs.length, p.1.toNat = base.toNat + 4 * i := by
  obtain ⟨c, hc, hp⟩ := List.mem_flatMap.mp hp
  obtain ⟨k, hk, address⟩ := mem_chunksFrom h hc
  obtain ⟨j, hj, word⟩ := (aligned_of_mem_chunksFrom aligned h hc).toNat_of_mem_placed hp
  exact ⟨4 * k + j, by omega, by omega⟩

/-- A region of whole chunks in the address space does not wrap. -/
theorem Layout.Usable.nvm_exact (usable : l.Usable) {bytes : List UInt8}
    (length : bytes.length = l.nvmSize.toNat) :
    (chunkSlices l.nvmBase bytes).map (fun slice => slice.1.toNat)
      = (List.range l.nvmChunks).map (l.nvmBase.toNat + 16 * ·) := by
  have whole := usable.sixteen_mul_nvmChunks
  have space := usable.nvm_in_space
  have count : (quads bytes).length = l.nvmChunks := by
    rw [length_quads_eq, length, chunkBytes]
    omega
  have cut := congrArg (List.map UInt32.toNat) (map_fst_chunkSlices l.nvmBase bytes)
  rw [List.map_map, List.map_map] at cut
  have laid : l.nvmBase.toNat + 16 * (quads bytes).length ≤ addressSpace := by
    rw [count, whole]
    exact Nat.le_of_lt space
  rw [← count, ← map_address_chunksFrom laid]
  exact cut

/-- Where in its region a chunk ends, when the region is smaller than the address space. -/
theorem toNat_offset {a base : UInt32} {k : Nat} (address : a.toNat = base.toNat + 16 * k)
    (h : 16 * k + 16 < addressSpace) : (a - base + 16).toNat = 16 * k + 16 := by
  have above : base ≤ a := UInt32.le_iff_toNat_le.mpr (by omega)
  rw [addressSpace] at h
  rw [UInt32.toNat_add, UInt32.toNat_sub_of_le _ _ above, address]
  show (_ + 16) % 2 ^ 32 = _
  omega

theorem exactAddresses_of_room (usable : l.Usable) (room : l.Room image.size) :
    ExactAddresses l image where
  chunks := by
    have laid := map_address_chunksFrom room.length_image
    rw [length_quads_eq] at laid
    have handed := congrArg (List.map fun c : Chunk => c.address.toNat)
      (image.map_chunk_pieces l.flashBase)
    rw [List.map_map] at handed
    exact handed.trans laid
  words := by
    intro p hp i hi
    have hc : p.chunk ∈ image.chunks l.flashBase := by
      rw [← Image.map_chunk_pieces]
      exact List.mem_map_of_mem hp
    exact (room.image_range usable hc).1.toNat_wordAddress hi
  nvmWords := by
    intro i hi
    have space := usable.nvm_in_space
    rw [Layout.nvmEnd, addressSpace] at space
    rw [Layout.nvmWords] at hi
    rw [UInt32.toNat_add, UInt32.toNat_mul, UInt32.toNat_ofNat']
    show (l.nvmBase.toNat + i % 2 ^ 32 * 4 % 2 ^ 32) % 2 ^ 32 = _
    omega
  nvmChunks := fun _ length => usable.nvm_exact length
  offsets := by
    intro bytes length
    have addresses := usable.nvm_exact length
    have whole := usable.sixteen_mul_nvmChunks
    have space := usable.nvm_in_space
    rw [Layout.nvmEnd] at space
    refine List.ext_getElem ?_ fun k hk hk' => ?_
    · simpa using congrArg List.length addresses
    · rw [List.length_map] at hk
      rw [List.length_map, List.length_range] at hk'
      have address := List.getElem_of_eq addresses (i := k) (by rwa [List.length_map])
      simp only [List.getElem_map, List.getElem_range] at address ⊢
      exact toNat_offset address (by omega)

/-! ## Calls -/

/-- Writing a chunk stages words and commits at its address. -/
theorem Writer.mem_calls {w : Writer} {k : Chunk} {c : Call} (hc : c ∈ w.calls k) :
    (∃ index value, c.command = .scratch index value) ∨
      c.command = .commit k.address w.form.seed := by
  simp only [Writer.calls, List.mem_cons, List.not_mem_nil, or_false] at hc
  rcases hc with rfl | rfl | rfl | rfl | rfl
  · exact .inl ⟨_, _, rfl⟩
  · exact .inl ⟨_, _, rfl⟩
  · exact .inl ⟨_, _, rfl⟩
  · exact .inl ⟨_, _, rfl⟩
  · exact .inr rfl

section Phases

variable {activity : Activity} {c : Call}

/-- Comparing reads words of the image, whatever is said of the outcome. -/
theorem ComparesPieces.inBounds (usable : l.Usable) (room : l.Room image.size) {st : Stage}
    (stage : st = .compare ∨ st = .verify) {log : List Entry} {r : Comparison} {said : Event}
    (h : ComparesPieces activity image.size (image.pieces l.flashBase) log r)
    (hc : c ∈ calls (log ++ [.event said])) : InBounds l image.size st c.command := by
  rw [calls_append, calls_event_cons, calls_nil, List.append_nil] at hc
  obtain ⟨p, hp, read⟩ := h.compares_image.mem hc
  obtain ⟨i, hi, sum⟩ :=
    toNat_of_mem_placed_chunksFrom usable.flash_aligned room.length_image hp
  have size := length_quads image.bytes
  have aligned := usable.flash_aligned
  rw [read]
  refine .image stage ?_ sum (by omega)
  rw [Image.size, ← size, chunkBytes]
  omega

/-- Backing up reads words of the NVM region. -/
theorem inBounds_region {qs : List Quad} (h : Fits l image qs)
    (hc : c ∈ calls (regionTrace l.nvmBase l.nvmSize.toNat 0 qs)) :
    InBounds l image.size .backup c.command := by
  rw [calls_regionTrace_zero] at hc
  obtain ⟨p, hp, rfl⟩ := List.mem_map.mp hc
  obtain ⟨i, hi, sum⟩ :=
    toNat_of_mem_placed_chunksFrom h.usable.nvm_aligned h.nvm_in_space hp
  have size := h.length_nvm
  have aligned := h.usable.nvm_aligned
  refine .nvm ?_ sum (by omega)
  rw [Layout.nvmWords]
  omega

/-- Programming commits chunks of the image, which lie beside the NVM region. -/
theorem inBounds_program (usable : l.Usable) (room : l.Room image.size) {w : Writer} {total : Nat}
    (hc : c ∈ calls (programTrace w total (image.pieces l.flashBase))) :
    InBounds l image.size .program c.command := by
  rw [calls_programTrace_pieces] at hc
  obtain ⟨k, hk, hc⟩ := List.mem_flatMap.mp hc
  rcases Writer.mem_calls hc with ⟨index, value, staged⟩ | committed
  · rw [staged]
    exact .scratch (.inl rfl)
  · obtain ⟨aligned, -, ends⟩ := room.image_range usable hk
    obtain ⟨i, -, sum⟩ := mem_chunksFrom room.length_image hk
    have space := room.in_space
    have beside := room.beside
    rw [committed]
    exact .program ⟨aligned, by omega⟩ sum (by omega)

/-- Restoring commits chunks of the NVM region. -/
theorem inBounds_restore {qs : List Quad} (h : Fits l image qs) {w : Writer} {total : Nat}
    (hc : c ∈ calls (restoreTrace w l.nvmBase total (dirtyChunks l.nvmBase qs))) :
    InBounds l image.size .restore c.command := by
  rw [calls_restoreTrace] at hc
  obtain ⟨k, hk, hc⟩ := List.mem_flatMap.mp hc
  rcases Writer.mem_calls hc with ⟨index, value, staged⟩ | committed
  · rw [staged]
    exact .scratch (.inr rfl)
  · have hk := (dirtyChunks_sublist l.nvmBase qs).subset hk
    obtain ⟨aligned, begins, ends⟩ := h.nvm_range hk
    obtain ⟨i, -, sum⟩ := mem_chunksFrom h.nvm_in_space hk
    have space := h.usable.nvm_in_space
    rw [committed]
    exact .restore ⟨aligned, by omega⟩ sum ⟨begins, ends⟩

end Phases

/-! ## Runs -/

section Runs

variable {u : Uploader}

/-- Every call of a script stays where its stage may reach. -/
theorem ScriptPhase.inBounds {p : Phase} (h : ScriptPhase u image p) (usable : u.layout.Usable)
    (room : u.layout.Room image.size) {c : Call} (hc : c ∈ calls p.log) :
    InBounds u.layout image.size p.stage c.command := by
  cases h with
  | compare h => exact h.inBounds usable room (.inl rfl) hc
  | verify verifies => exact verifies.inBounds usable room (.inr rfl) hc
  | backup read => exact inBounds_region ⟨usable, room, read⟩ hc
  | erase =>
    rw [List.mem_singleton.mp hc]
    exact .erase
  | program => exact inBounds_program usable room hc
  | restore read => exact inBounds_restore ⟨usable, room, read⟩ hc
  | reset =>
    rw [List.mem_singleton.mp hc]
    exact .reset
  | done => cases hc

/-- The offset of a chunk's end in its region is exact. -/
theorem Fits.exists_offset {qs : List Quad} (h : Fits l image qs) {c : Chunk}
    (hc : c ∈ chunksFrom l.nvmBase qs) :
    ∃ k < l.nvmChunks, (c.address - l.nvmBase + 16).toNat = 16 * k + 16 := by
  obtain ⟨k, hk, address⟩ := mem_chunksFrom h.nvm_in_space hc
  have size := h.length_nvm
  have bound : l.nvmSize.toNat < addressSpace := l.nvmSize.toNat_lt
  exact ⟨k, h.read ▸ hk, toNat_offset address (by omega)⟩

/-- The progress of restoring is that of whole chunks of the NVM region. -/
theorem mem_events_restore {qs : List Quad} (h : Fits l image qs) {w : Writer} {e : Event}
    (he : e ∈ events (restoreTrace w l.nvmBase (chunkBytes * qs.length) (dirtyChunks l.nvmBase qs)))
    {current total : Nat} (progress : e = .progress .writeNvm current total) :
    ∃ k < l.nvmChunks, current = 16 * k + 16 ∧ total = l.nvmSize.toNat := by
  rw [events_restoreTrace] at he
  obtain ⟨c, hc, he⟩ := List.mem_flatMap.mp he
  obtain ⟨k, hk, offset⟩ := h.exists_offset ((dirtyChunks_sublist l.nvmBase qs).subset hc)
  subst progress
  simp only [List.mem_cons, reduceCtorEq, List.not_mem_nil, or_false, false_or,
    Event.progress.injEq, true_and] at he
  obtain ⟨rfl, rfl⟩ := he
  exact ⟨k, hk, offset, h.length_nvm⟩

/-- The progress of the NVM region is reported when it is restored, and in no other phase. -/
theorem ScriptPhase.mem_events_writeNvm {p : Phase} (h : ScriptPhase u image p)
    (usable : u.layout.Usable) (room : u.layout.Room image.size) {current total : Nat}
    (he : .progress .writeNvm current total ∈ events p.log) :
    ∃ k < u.layout.nvmChunks, current = 16 * k + 16 ∧ total = u.layout.nvmSize.toNat := by
  have stage := h.stage_of_mem_events he
  cases h with
  | restore read => exact mem_events_restore ⟨usable, room, read⟩ he rfl
  | compare | backup | erase | program | verify | reset | done => cases stage

/-- What a run does with addresses: they are exact, every call stays in bounds, and so does what
is reported of the NVM region. -/
structure SafeAddresses (l : Layout) (image : Image) (log : List Entry) : Prop where
  computed : ExactAddresses l image
  calls : ∀ st c, (st, c) ∈ stagedCalls .start log → InBounds l image.size st c.command
  progress : ∀ current total, .progress .writeNvm current total ∈ events log →
    ∃ k < l.nvmChunks, current = 16 * k + 16 ∧ total = l.nvmSize.toNat

theorem Goes.addresses {o : Outcome Entry (Underway σ) DfuError UploadResult} (h : Goes u image o)
    (usable : u.layout.Usable) (room : u.layout.Room image.size) :
    SafeAddresses u.layout image o.log where
  computed := exactAddresses_of_room usable room
  calls := by
    intro st c hc
    obtain ⟨p, scripted, rfl, planned, hplanned, same⟩ := h.mem_stagedCalls hc
    exact same ▸ scripted.inBounds usable room hplanned
  progress := by
    intro current total he
    rcases h.mem_events he with ⟨a, b, step⟩ | ⟨level, text, message⟩ | ⟨p, scripted, he⟩
    · cases step
    · cases message
    · exact scripted.mem_events_writeNvm usable room he

end Runs

/-- On an accepted layout an image is refused before anything is asked of the device, or no
address of the upload wraps, and programming stays out of the NVM region. -/
theorem run_addresses (d : Device σ) (s : σ) (config : Config) (options : UploadOptions)
    (image : Image) (valid : config.layout.validate = .ok ()) :
    let u := Uploader.forDevice d s config options
    let o := u.run d image ⟨{}, s⟩
    (config.layout.maxImageSize < Layout.paddedSize image.size ∧
      o.result = .error (.config (.imageTooLarge image.size config.layout.flashBase
        config.layout.maxImageSize)) ∧ calls o.log = [] ∧ o.state.device = s) ∨
    (Layout.paddedSize image.size ≤ config.layout.maxImageSize ∧
      SafeAddresses config.layout image o.log) := by
  intro u o
  have usable : config.layout.Usable := Layout.usable_of_validate valid
  have first : FirstRun u image s o := first_run u d s image usable
  clear_value o
  cases first with
  | unfit size left =>
    refine .inl ⟨size, rfl, ?_, rfl⟩
    rw [← calls_trace, left]
    rfl
  | goes fits h =>
    have room := Layout.room_of_fits usable fits
    refine .inr ⟨Nat.le_of_not_lt fun size => ?_, h.addresses usable room⟩
    cases fits.symm.trans (Layout.checkImageFits_of_lt size)

/-- The forced upload of three bytes keeps to safe addresses, and it programs and verifies. -/
theorem run_addresses_three_bytes :
    SafeAddresses ⟨0x1000, 0x2000, 16⟩ ⟨[1, 2, 3]⟩ threeByteRun.log ∧
      ((stagedCalls .start threeByteRun.log).map Prod.fst).eraseDups
        = [.backup, .erase, .program, .verify, .reset] := by
  have either := run_addresses threeByteDevice () { layout := ⟨0x1000, 0x2000, 16⟩ }
    { force := true } ⟨[1, 2, 3]⟩ rfl
  have fits : ¬ Layout.maxImageSize ⟨0x1000, 0x2000, 16⟩ < Layout.paddedSize 3 := by decide
  refine ⟨(either.resolve_left fun unfit => fits unfit.1).2, ?_⟩
  with_unfolding_all rfl

end CanDfu
