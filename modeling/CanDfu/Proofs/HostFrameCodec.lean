/-
  CanDfu.Proofs.HostFrameCodec

  Host frames, written and read back.

    * `Frame.Fits` : the identifier has no more bits than the frame's width.  Of such a frame the
      masks of the encoding cut nothing, and no mark falls on a bit of the identifier.
    * `described` : the frame that the fields of a received host frame describe, whatever their
      bits are.  It always fits, and reading gives exactly that frame.

  So a frame that fits survives being written and read, on every channel, and so does every frame
  that was read once.  What is written carries the echo id of a frame to be sent, and is no frame
  to a reader until it is marked as received.
-/
import CanDfu.Adapter.HostFrame
import Mathlib.Algebra.Group.Nat.Defs

namespace CanDfu

/-- Bits of an identifier of the frame's width. -/
def Frame.idBits (f : Frame) : Nat := if f.extended then 29 else 11

/-- The largest identifier of the frame's width. -/
def Frame.idLimit (f : Frame) : UInt32 := if f.extended then extendedIdLimit else standardIdLimit

/-- The identifier has no more bits than the frame's width. -/
def Frame.Fits (f : Frame) : Prop := f.id.toNat < 2 ^ f.idBits

instance (f : Frame) : Decidable f.Fits := inferInstanceAs (Decidable (_ < _))

theorem Frame.toNat_idLimit (f : Frame) : f.idLimit.toNat = 2 ^ f.idBits - 1 := by
  unfold idLimit idBits
  split <;> rfl

namespace HostFrame

variable {f : Frame}

/-! ## Masks and marks -/

/-- Cutting an identifier to its width changes none that fits. -/
theorem masked_of_fits (fits : f.Fits) : f.id &&& f.idLimit = f.id := by
  rw [← UInt32.toNat_inj, UInt32.toNat_and, f.toNat_idLimit, Nat.and_two_pow_sub_one_eq_mod,
    Nat.mod_eq_of_lt fits]

/-- An identifier that fits has no bit where a mark may stand. -/
theorem and_mark_of_fits (fits : f.Fits) {mark : UInt32} (above : extendedIdLimit &&& mark = 0) :
    f.id &&& mark = 0 := by
  have within : f.idLimit &&& extendedIdLimit = f.idLimit := by
    unfold Frame.idLimit
    split <;> rfl
  rw [← masked_of_fits fits, ← within, UInt32.and_assoc, UInt32.and_assoc, above, UInt32.and_zero,
    UInt32.and_zero]

/-- The marks of a frame. -/
def marks (f : Frame) : UInt32 :=
  (if f.extended then extendedFlag else 0) ||| (if f.isRemote then remoteFlag else 0)

/-- Of a frame that fits the encoding cuts nothing: its identifier is joined with its marks. -/
theorem markedId_of_fits (fits : f.Fits) : markedId f = f.id ||| marks f := by
  have masked := masked_of_fits fits
  unfold Frame.idLimit at masked
  unfold markedId marks
  split at masked
  · next extended =>
    rw [if_pos extended, if_pos extended, masked]
    cases f.isRemote <;> simp [UInt32.or_assoc]
  · next standard =>
    rw [if_neg standard, if_neg standard, masked]
    cases f.isRemote <;> simp

/-- A mask goes over the identifier and the marks apart. -/
theorem joined_and (id marks mask : UInt32) :
    (id ||| marks) &&& mask = id &&& mask ||| marks &&& mask := by
  rw [← UInt32.toNat_inj]
  simp only [UInt32.toNat_and, UInt32.toNat_or, Nat.and_or_distrib_right]

/-- Each mark is found where it was set, and nowhere else. -/
theorem extendedFlag_of_fits (fits : f.Fits) :
    (markedId f &&& extendedFlag != 0) = f.extended := by
  rw [markedId_of_fits fits, joined_and, and_mark_of_fits fits (by decide), UInt32.zero_or, marks]
  cases f.extended <;> cases f.isRemote <;> rfl

theorem remoteFlag_of_fits (fits : f.Fits) : (markedId f &&& remoteFlag != 0) = f.isRemote := by
  rw [markedId_of_fits fits, joined_and, and_mark_of_fits fits (by decide), UInt32.zero_or, marks]
  cases f.extended <;> cases f.isRemote <;> rfl

/-- Below the marks the identifier is found as it was. -/
theorem id_of_fits (fits : f.Fits) : markedId f &&& f.idLimit = f.id := by
  have clear : marks f &&& f.idLimit = 0 := by
    unfold marks Frame.idLimit
    cases f.extended <;> cases f.isRemote <;> rfl
  rw [markedId_of_fits fits, joined_and, masked_of_fits fits, clear, UInt32.or_zero]

/-! ## Reading -/

/-- The four bytes that a received host frame begins with. -/
def receivedMark : List UInt8 := [0xFF, 0xFF, 0xFF, 0xFF]

/-- A host frame as it would be if the adapter had received it. -/
def asReceived (bytes : List UInt8) : List UInt8 := receivedMark ++ bytes.drop 4

/-- The frame that an identifier with marks, a length code and data bytes describe. -/
def described (marked : UInt32) (code : UInt8) (data : List UInt8) : Frame where
  id := marked &&& (if marked &&& extendedFlag != 0 then extendedIdLimit else standardIdLimit)
  extended := marked &&& extendedFlag != 0
  payload :=
    if marked &&& remoteFlag != 0 then
      .remote (min code.toNat maxFrameData) (Nat.min_le_right ..)
    else .data (data.take (min code.toNat maxFrameData))
      (Nat.le_trans (List.length_take_le ..) (Nat.min_le_right ..))

/-- Whatever the bits of the fields are, the identifier that is read fits. -/
theorem fits_described (marked : UInt32) (code : UInt8) (data : List UInt8) :
    (described marked code data).Fits := by
  have limit := (described marked code data).toNat_idLimit
  have cut : (described marked code data).id.toNat
      = marked.toNat &&& (described marked code data).idLimit.toNat := UInt32.toNat_and ..
  unfold Frame.Fits
  rw [cut, limit, Nat.and_two_pow_sub_one_eq_mod]
  exact Nat.mod_lt _ (Nat.two_pow_pos _)

/-- Reading a received host frame gives what its fields describe. -/
theorem decode_received (marked : UInt32) (code channel flags unused : UInt8) {data : List UInt8}
    (enough : maxFrameData ≤ data.length) :
    decode (receivedMark ++ (LittleEndian.bytes marked ++
        (code :: channel :: flags :: unused :: data)))
      = .ok (some (described marked code data)) := by
  generalize whole : receivedMark ++ (LittleEndian.bytes marked ++
    (code :: channel :: flags :: unused :: data)) = bytes
  have long : ¬ bytes.length < size := by
    simp only [maxFrameData] at enough
    simp only [← whole, receivedMark, List.length_append, LittleEndian.length_bytes,
      List.length_cons, List.length_nil, size]
    omega
  -- the fields, each at its place
  have echo : LittleEndian.firstWord 0 bytes = receivedEcho :=
    whole ▸ LittleEndian.firstWord_bytes_append 0 receivedEcho _
  have id : LittleEndian.firstWord 0 (bytes.drop 4) = marked :=
    whole ▸ LittleEndian.firstWord_bytes_append 0 marked _
  have length : bytes.getD 8 0 = code := whole ▸ rfl
  have rest : bytes.drop 12 = data := whole ▸ rfl
  have fits : (data.take (min code.toNat maxFrameData)).length ≤ maxFrameData :=
    Nat.le_trans (List.length_take_le ..) (Nat.min_le_right ..)
  unfold decode
  rw [if_neg long, if_neg (Decidable.not_not.mpr echo), id, length, rest]
  simp only [described]
  split
  · simp only [Frame.remote, Nat.min_assoc, Nat.min_self]
  · rw [Frame.ofData, Frame.data?, dif_pos fits]
    rfl

/-- Every long enough buffer that begins as received is made of such fields. -/
theorem exists_fields {bytes : List UInt8} (begins : receivedMark <+: bytes)
    (long : size ≤ bytes.length) :
    ∃ marked code channel flags unused data, maxFrameData ≤ data.length ∧
      bytes = receivedMark ++ (LittleEndian.bytes marked ++
        (code :: channel :: flags :: unused :: data)) := by
  obtain ⟨rest, rfl⟩ := begins
  match rest with
  | b0 :: b1 :: b2 :: b3 :: code :: channel :: flags :: unused :: data =>
    refine ⟨LittleEndian.word b0 b1 b2 b3, code, channel, flags, unused, data, ?_, ?_⟩
    · simp only [receivedMark, List.length_append, List.length_cons, List.length_nil, size] at long
      simp only [maxFrameData]
      omega
    · rw [LittleEndian.bytes_word]
      rfl
  | [] | [_] | [_, _] | [_, _, _] | [_, _, _, _] | [_, _, _, _, _] | [_, _, _, _, _, _]
  | [_, _, _, _, _, _, _] => simp [receivedMark, size] at long

/-! ## Writing -/

/-- What is written is the echo of a frame to be sent. -/
theorem decode_encode_echo (f : Frame) (channel : UInt8) :
    decode (encode f channel) = .ok none := by
  have long : ¬ (encode f channel).length < size := by
    rw [length_encode]
    exact Nat.lt_irrefl size
  have echo : LittleEndian.firstWord 0 (encode f channel) = sentEcho := by
    simp only [encode, List.append_assoc]
    exact LittleEndian.firstWord_bytes_append ..
  unfold decode
  rw [if_neg long, if_pos (echo ▸ (by decide : sentEcho ≠ receivedEcho))]

/-- The fields of a frame that fits describe it. -/
theorem described_of_fits (fits : f.Fits) (extra : List UInt8) :
    described (markedId f) (.ofNat f.dlc)
      (f.bytes ++ List.replicate (maxFrameData - f.bytes.length) 0 ++ extra) = f := by
  have code : min (UInt8.ofNat f.dlc).toNat maxFrameData = f.dlc := by
    have le := f.dlc_le
    simp only [maxFrameData] at le ⊢
    rw [UInt8.toNat_ofNat']
    omega
  have limit : (if f.extended then extendedIdLimit else standardIdLimit) = f.idLimit := rfl
  unfold described
  simp only [extendedFlag_of_fits fits, remoteFlag_of_fits fits, code, limit, id_of_fits fits]
  obtain ⟨id, extended, payload⟩ := f
  cases payload with
  | remote length bound => rfl
  | data bytes bound =>
    simp [Frame.isRemote, Frame.dlc, Frame.bytes]

/-- A frame that fits is read back, with whatever follows it, once it is marked as received. -/
theorem decode_encode_received (fits : f.Fits) (channel : UInt8) (extra : List UInt8) :
    decode (asReceived (encode f channel) ++ extra) = .ok (some f) := by
  have fields : asReceived (encode f channel) ++ extra
      = receivedMark ++ (LittleEndian.bytes (markedId f) ++
        (UInt8.ofNat f.dlc :: channel :: 0 :: 0 :: (f.bytes ++
          List.replicate (maxFrameData - f.bytes.length) 0 ++ extra))) := by
    simp only [asReceived, encode, List.append_assoc, List.drop_left' (LittleEndian.length_bytes _),
      List.cons_append, List.nil_append]
  have enough : maxFrameData
      ≤ (f.bytes ++ List.replicate (maxFrameData - f.bytes.length) 0 ++ extra).length := by
    simp only [List.length_append, List.length_replicate]
    omega
  rw [fields, decode_received _ _ _ _ _ enough, described_of_fits fits]

/-! ## Both directions -/

/-- A frame whose identifier fits its width is an echo as it is written, and is read back exactly
once it is marked as received, whatever bytes follow.  Every received buffer of a host frame's
size is read as a frame that fits, which from then on is read back as it is; only a shorter
buffer is refused. -/
theorem codec_lossless :
    (∀ (f : Frame) (channel : UInt8), f.Fits →
      decode (encode f channel) = .ok none ∧
        ∀ extra, decode (asReceived (encode f channel) ++ extra) = .ok (some f)) ∧
    (∀ bytes : List UInt8, receivedMark <+: bytes → size ≤ bytes.length →
      ∃ f, decode bytes = .ok (some f) ∧ f.Fits ∧ f.dlc ≤ 8 ∧
        ∀ channel, decode (asReceived (encode f channel)) = .ok (some f)) ∧
    ∀ bytes : List UInt8, bytes.length < size →
      decode bytes = .error (.malformedFrame s!"host frame too short: {bytes.length} < {size}") := by
  refine ⟨fun f channel fits => ⟨decode_encode_echo f channel, decode_encode_received fits channel⟩,
    fun bytes begins long => ?_, fun bytes short => if_pos short⟩
  obtain ⟨marked, code, channel, flags, unused, data, enough, rfl⟩ := exists_fields begins long
  have fits := fits_described marked code data
  refine ⟨_, decode_received marked code channel flags unused enough, fits, Frame.dlc_le _,
    fun channel => ?_⟩
  rw [← List.append_nil (asReceived _)]
  exact decode_encode_received fits channel []

/-- A remote frame with the largest identifier, and a buffer with every bit set. -/
theorem codec_lossless_widest :
    decode (asReceived (encode (.remote extendedIdLimit true 8) 3) ++ [1, 2])
        = .ok (some (.remote extendedIdLimit true 8)) ∧
      (∃ f, decode (List.replicate 20 0xFF) = .ok (some f) ∧ f.Fits) ∧
      decode [0xFF] = .error (.malformedFrame s!"host frame too short: {1} < {20}") := by
  obtain ⟨frames, received, short⟩ := codec_lossless
  refine ⟨(frames _ 3 (by decide)).2 [1, 2], ?_, short [0xFF] (by decide)⟩
  obtain ⟨f, read, fits, -⟩ := received (List.replicate 20 0xFF) (by decide) (by decide)
  exact ⟨f, read, fits⟩

end HostFrame

end CanDfu
