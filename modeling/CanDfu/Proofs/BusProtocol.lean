/-
  CanDfu.Proofs.BusProtocol

  The other end of the bus: a node that takes request frames apart, lets the simulated bootloader
  carry them out, and answers with a frame on the same identifier.

    remote frame, protocol hash    answered by the hash
    read      address              answered by the word
    scratch   index, value         not answered
    commit    address [, seed]     answered by the checksum
    erase     [seed]               answered by the status
    reset     nothing              not answered

  What the bootloader rejects is not answered, and no more is a frame that is no request.
-/
import CanDfu.Device.Simulated
import CanDfu.Proofs.FrameAddressing

namespace CanDfu

/-! ## Taking requests apart -/

/-- What a frame asks of a node. -/
inductive Request
  | hash
  | command (c : Command)
  deriving DecidableEq, Repr

namespace Request

/-- Four bytes as a word. -/
def word? : List UInt8 → Option UInt32
  | [b0, b1, b2, b3] => some (LittleEndian.word b0 b1 b2 b3)
  | _ => none

/-- An index and a word. -/
def scratch? : List UInt8 → Option Command
  | index :: rest => (word? rest).map (.scratch index)
  | [] => none

/-- An address, and then the last argument or nothing. -/
def commit? (bytes : List UInt8) : Option Command :=
  match word? (bytes.take 4), bytes.drop 4 with
  | some address, [] => some (.commit address none)
  | some address, rest => (word? rest).map fun seed => .commit address (some seed)
  | none, _ => none

/-- The last argument, or nothing. -/
def erase? : List UInt8 → Option Command
  | [] => some (.erase none)
  | rest => (word? rest).map fun seed => .erase (some seed)

/-- The command of a data frame, by its identifier and its bytes. -/
def ofData (ids : FrameIds) (id : UInt32) (bytes : List UInt8) : Option Command :=
  if id = ids.read then (word? bytes).map .read
  else if id = ids.scratch then scratch? bytes
  else if id = ids.commit then commit? bytes
  else if id = ids.erase then erase? bytes
  else if id = ids.reset ∧ bytes = [] then some .reset
  else none

/-- The request of a frame, if it is one. -/
def decode (p : Profile) (ids : FrameIds) (f : Frame) : Option Request :=
  if f.extended = p.extendedId then
    match f.payload with
    | .remote .. => if f.id = ids.protocolHash then some hash else none
    | .data bytes _ => (ofData ids f.id bytes).map command
  else none

theorem word?_bytes (w : UInt32) : word? (LittleEndian.bytes w) = some w :=
  congrArg some (LittleEndian.firstWord_bytes 0 w)

theorem commit?_arguments (address : UInt32) (seed : Option UInt32) :
    commit? (Command.commit address seed).arguments = some (.commit address seed) := by
  have take : (Command.commit address seed).arguments.take 4 = LittleEndian.bytes address :=
    List.take_left' (LittleEndian.length_bytes address)
  have drop : (Command.commit address seed).arguments.drop 4
      = (seed.map LittleEndian.bytes).getD [] :=
    List.drop_left' (LittleEndian.length_bytes address)
  rw [commit?, take, drop, word?_bytes]
  cases seed with
  | none => rfl
  | some seed =>
    show (word? (LittleEndian.bytes seed)).map _ = _
    rw [word?_bytes]
    rfl

theorem erase?_arguments (seed : Option UInt32) :
    erase? (Command.erase seed).arguments = some (.erase seed) := by
  cases seed with
  | none => rfl
  | some seed =>
    show (word? (LittleEndian.bytes seed)).map (fun seed => Command.erase (some seed)) = _
    rw [word?_bytes]
    rfl

/-- A command comes back from its identifier and its packed arguments. -/
theorem ofData_arguments {ids : FrameIds} (distinct : ids.toList.Nodup) (c : Command) :
    ofData ids (ids.ofCommand c) c.arguments = some c := by
  have tail := (List.nodup_cons.mp distinct).2
  simp only [List.nodup_cons, List.mem_cons, List.not_mem_nil, or_false, not_or] at tail
  obtain ⟨⟨read_scratch, read_commit, read_erase, read_reset⟩,
    ⟨scratch_commit, scratch_erase, scratch_reset⟩, ⟨commit_erase, commit_reset⟩, erase_reset, -⟩ :=
    tail
  -- a command is found behind those with other identifiers
  cases c with
  | read address =>
    rw [ofData, FrameIds.ofCommand, if_pos rfl]
    show (word? (LittleEndian.bytes address)).map _ = _
    rw [word?_bytes]
    rfl
  | scratch index value =>
    rw [ofData, FrameIds.ofCommand, if_neg (Ne.symm read_scratch), if_pos rfl]
    show (word? (LittleEndian.bytes value)).map _ = _
    rw [word?_bytes]
    rfl
  | commit address seed =>
    rw [ofData, FrameIds.ofCommand, if_neg (Ne.symm read_commit), if_neg (Ne.symm scratch_commit),
      if_pos rfl]
    exact commit?_arguments address seed
  | erase seed =>
    rw [ofData, FrameIds.ofCommand, if_neg (Ne.symm read_erase), if_neg (Ne.symm scratch_erase),
      if_neg (Ne.symm commit_erase), if_pos rfl]
    exact erase?_arguments seed
  | reset =>
    rw [ofData, FrameIds.ofCommand, if_neg (Ne.symm read_reset), if_neg (Ne.symm scratch_reset),
      if_neg (Ne.symm commit_reset), if_neg (Ne.symm erase_reset), if_pos ⟨rfl, rfl⟩]

end Request

/-- The arguments of a command fit into a frame. -/
theorem Command.length_arguments (c : Command) : c.arguments.length ≤ maxFrameData := by
  cases c with
  | read address => exact (by decide : 4 ≤ 8)
  | scratch index value => exact (by decide : 5 ≤ 8)
  | commit address seed =>
    cases seed with
    | none => exact (by decide : 4 ≤ 8)
    | some seed => exact (by decide : 8 ≤ 8)
  | erase seed =>
    cases seed with
    | none => exact (by decide : 0 ≤ 8)
    | some seed => exact (by decide : 4 ≤ 8)
  | reset => exact (by decide : 0 ≤ 8)

/-- The frame of a command. -/
theorem Node.frame_eq (n : Node) (c : Command) :
    n.frame c = .ok ⟨n.ids.ofCommand c, n.profile.extendedId,
      .data c.arguments c.length_arguments⟩ := by
  rw [Node.frame, Frame.ofData, Frame.data?, dif_pos c.length_arguments]

/-- Every command has a frame, and the node at the other end takes it for that command. -/
theorem Node.frame_eq_ok (n : Node) (distinct : n.ids.toList.Nodup) (c : Command) :
    ∃ f, n.frame c = .ok f ∧ Request.decode n.profile n.ids f = some (.command c) := by
  refine ⟨_, n.frame_eq c, ?_⟩
  rw [Request.decode, if_pos rfl]
  show (Request.ofData n.ids (n.ids.ofCommand c) c.arguments).map Request.command = _
  rw [Request.ofData_arguments distinct]
  rfl

theorem Node.decode_hashProbe (p : Profile) (ids : FrameIds) :
    Request.decode p ids (Node.hashProbe ids p) = some .hash := by
  have width : (Node.hashProbe ids p).extended = p.extendedId := rfl
  rw [Request.decode, if_pos width]
  exact if_pos rfl

/-! ## Answering -/

/-- The bytes that answer a command, if it is answered. -/
def Command.answerBytes : (c : Command) → c.Reply → Option (List UInt8)
  | .read _, word => some (LittleEndian.bytes word)
  | .scratch .., _ => none
  | .commit .., sum => some (LittleEndian.bytes sum)
  | .erase _, status => some [status]
  | .reset, _ => none

/-- Carries out the request of a frame on the bootloader, with the frame that answers it. -/
def serve (p : Profile) (ids : FrameIds) (hash : UInt32) (s : Simulated) (f : Frame) :
    Simulated × Option Frame :=
  match Request.decode p ids f with
  | none => (s, none)
  | some .hash => (s, Frame.data? ids.protocolHash p.extendedId (LittleEndian.bytes hash))
  | some (.command c) =>
    match s.answer c with
    | (.error _, s') => (s', none)
    | (.ok reply, s') =>
      (s', (c.answerBytes reply).bind (Frame.data? (ids.ofCommand c) p.extendedId))

section Serve

variable {p : Profile} {ids : FrameIds} {hash : UInt32} {s : Simulated} {f : Frame} {c : Command}

theorem serve_hash (h : Request.decode p ids f = some .hash) :
    serve p ids hash s f
      = (s, Frame.data? ids.protocolHash p.extendedId (LittleEndian.bytes hash)) := by
  rw [serve, h]

theorem serve_command (h : Request.decode p ids f = some (.command c)) :
    serve p ids hash s f = ((s.answer c).2,
      match (s.answer c).1 with
      | .ok reply => (c.answerBytes reply).bind (Frame.data? (ids.ofCommand c) p.extendedId)
      | .error _ => none) := by
  rw [serve, h]
  simp only
  rcases s.answer c with ⟨_ | _, s'⟩ <;> rfl

end Serve

/-! ## What a session sees -/

/-- What a session is to see of an answer: a bootloader that rejects does not answer at all. -/
def seenOver (patience : Nat) {α : Type} : Except SessionError α → Except SessionError α
  | .ok reply => .ok reply
  | .error (.invalidScratchIndex index) => .error (.invalidScratchIndex index)
  | .error _ => .error (.noResponse (wholeMillis patience))

theorem Command.check_scratch (index : UInt8) (value : UInt32) :
    (Command.scratch index value).check
      = if 4 ≤ index then .error (.invalidScratchIndex index) else .ok () := rfl

section Answers

variable {c : Command} {e : SessionError} {patience : Nat} {s : Simulated}

/-- A register that is not there is refused by the session as by the bootloader. -/
theorem Simulated.answer_of_check_error (s : Simulated) (patience : Nat) (h : c.check = .error e) :
    s.answer c = (.error e, s) ∧
      seenOver patience (.error e : Except SessionError c.Reply) = .error e := by
  cases c with
  | scratch index value =>
    rw [Command.check_scratch] at h
    split at h
    · next beyond =>
      injection h with h
      subst h
      have none := (s.scratch.set?_eq_none_iff index value).mpr beyond
      refine ⟨?_, rfl⟩
      show s.stage index value = _
      rw [stage, none]
    · cases h
  | read | commit | erase | reset => cases h

/-- Commands without an answer are never rejected. -/
theorem Simulated.answer_of_unanswered (s : Simulated) (h : c.check = .ok ())
    (unanswered : c.answerSize = none) : (s.answer c).1 = .ok (c.ofAnswer []) := by
  cases c with
  | scratch index value =>
    rw [Command.check_scratch] at h
    split at h
    · cases h
    · next below =>
      have there : s.scratch.set? index value ≠ none :=
        mt (s.scratch.set?_eq_none_iff index value).mp below
      show (s.stage index value).1 = _
      unfold stage
      cases staged : s.scratch.set? index value with
      | none => exact absurd staged there
      | some q => rfl
  | reset => rfl
  | read | commit | erase => cases unanswered

theorem Simulated.checkSeed_ne {command : String} {given : Option UInt32} {index : UInt8} :
    s.checkSeed command given ≠ .error (.invalidScratchIndex index) := by
  unfold checkSeed
  split
  · nofun
  · nofun
  · split <;> nofun

/-- Of all commands only scratch writes are refused for their register. -/
theorem Simulated.answer_ne_invalidScratchIndex (h : c.check = .ok ()) (index : UInt8) :
    (s.answer c).1 ≠ .error (.invalidScratchIndex index) := by
  intro rejected
  -- the rejections of each command, one by one: none is about a register
  cases c with
  | read address =>
    change (s.read address).1 = _ at rejected
    unfold read at rejected
    split at rejected <;> cases rejected
  | scratch index' value =>
    have accepted := Simulated.answer_of_unanswered s h rfl
    rw [accepted] at rejected
    cases rejected
  | commit address seed =>
    change (s.commit address seed).1 = _ at rejected
    unfold commit at rejected
    split at rejected
    · next e seedless =>
      injection rejected with same
      exact checkSeed_ne (same ▸ seedless)
    · split at rejected <;> cases rejected
  | erase seed =>
    change (s.erase seed).1 = _ at rejected
    unfold erase at rejected
    split at rejected
    · next e seedless =>
      injection rejected with same
      exact checkSeed_ne (same ▸ seedless)
    · split at rejected <;> cases rejected
  | reset => cases rejected

/-- A rejection shows as silence. -/
theorem Simulated.seenOver_of_rejected (h : c.check = .ok ())
    (rejected : (s.answer c).1 = .error e) :
    seenOver patience (.error e : Except SessionError c.Reply)
      = .error (.noResponse (wholeMillis patience)) := by
  cases e with
  | invalidScratchIndex index => exact absurd rejected (answer_ne_invalidScratchIndex h index)
  | _ => rfl

end Answers

/-! ## Answers on the bus -/

/-- Bytes of the right number, in a frame on the identifier that is waited for, are the answer. -/
theorem Awaited.exists_answer (a : Awaited) (bytes : List UInt8) (size : bytes.length = a.size)
    (fits : a.size ≤ maxFrameData) :
    ∃ f, Frame.data? a.id a.extended bytes = some f ∧ a.isAnswer f = true ∧
      a.accept f = .ok bytes := by
  refine ⟨⟨a.id, a.extended, .data bytes (size ▸ fits)⟩, dif_pos (size ▸ fits), ?_, ?_⟩
  · simp [isAnswer, Frame.isRemote]
  · have enough : ¬ bytes.length < a.size := Nat.not_lt_of_le (Nat.le_of_eq size.symm)
    show (if bytes.length < a.size then _ else Except.ok (bytes.take a.size)) = _
    rw [if_neg enough, ← size, List.take_length]

/-- What the session waits for after sending a command with an answer. -/
def Node.awaited (n : Node) (c : Command) (size : Nat) : Awaited :=
  ⟨c.name, n.ids.ofCommand c, n.profile.extendedId, size⟩

/-- The frame that answers a command is accepted as what the bootloader said. -/
theorem Node.exists_answer (n : Node) {c : Command} {size : Nat}
    (answered : c.answerSize = some size) (reply : c.Reply) :
    ∃ f bytes,
      (c.answerBytes reply).bind (Frame.data? (n.ids.ofCommand c) n.profile.extendedId) = some f ∧
      (n.awaited c size).isAnswer f = true ∧ (n.awaited c size).accept f = .ok bytes ∧
      c.ofAnswer bytes = reply := by
  cases c with
  | read address =>
    obtain rfl : 4 = size := Option.some.inj answered
    obtain ⟨f, h, isAnswer, accepted⟩ := (n.awaited (.read address) 4).exists_answer
      (LittleEndian.bytes reply) rfl (by decide : 4 ≤ 8)
    exact ⟨f, _, h, isAnswer, accepted, LittleEndian.firstWord_bytes 0 reply⟩
  | commit address seed =>
    obtain rfl : 4 = size := Option.some.inj answered
    obtain ⟨f, h, isAnswer, accepted⟩ := (n.awaited (.commit address seed) 4).exists_answer
      (LittleEndian.bytes reply) rfl (by decide : 4 ≤ 8)
    exact ⟨f, _, h, isAnswer, accepted, LittleEndian.firstWord_bytes 0 reply⟩
  | erase seed =>
    obtain rfl : 1 = size := Option.some.inj answered
    obtain ⟨f, h, isAnswer, accepted⟩ := (n.awaited (.erase seed) 1).exists_answer [reply] rfl
      (by decide : 1 ≤ 8)
    exact ⟨f, _, h, isAnswer, accepted, rfl⟩
  | scratch index value => cases answered
  | reset => cases answered

theorem Command.answerBytes_of_unanswered {c : Command} (unanswered : c.answerSize = none)
    (reply : c.Reply) : c.answerBytes reply = none := by
  cases c with
  | scratch | reset => rfl
  | read | commit | erase => cases unanswered

end CanDfu
