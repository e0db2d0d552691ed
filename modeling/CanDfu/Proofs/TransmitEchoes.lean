/-
  CanDfu.Proofs.TransmitEchoes

  An adapter repeats every frame it has sent.  Requests and answers share their identifiers, so
  such an echo could be taken for an answer; only its first word tells it apart.

    passed over     cancelled reads; a full host frame whose first word is not all ones
    taken           the first other completion: a frame, a fault, or too few bytes

  `PassesOver` is a run of completions that a wait passes over, on any host.  From it follows what
  an echo can change: nothing.  On a host that hands out a stream of completions, two sessions whose
  streams differ by echoes only do the same, as long as no deadline passes in either.
-/
import CanDfu.Adapter
import CanDfu.Proofs.SentFrames

namespace CanDfu

/-! ## One read -/

namespace Adapter

variable {υ : Type} {h : Usb.Host υ} {a : Adapter} {e : Usb.Endpoint} {deadline : Nat}

/-- What the next read of an endpoint completes with, and the host after it.  A read that is not
for a whole number of packets is refused. -/
def nextRead (h : Usb.Host υ) (a : Adapter) (e : Usb.Endpoint) (deadline : Nat) (s : υ) :
    Except Usb.Fault (List UInt8) × υ :=
  let length := max e.maxPacket HostFrame.size
  if length % e.maxPacket ≠ 0 then (.error .invalidArgument, (h.clock s).2)
  else h.transfer a.device (.bulkIn e.address length (deadline - (h.clock s).1)) (h.clock s).2

/-- A completion that is passed over: a cancelled read, or the echo of a sent frame. -/
def IsPassedOver : Except Usb.Fault (List UInt8) → Prop
  | .error fault => fault = .cancelled
  | .ok data =>
    HostFrame.size ≤ data.length ∧ LittleEndian.firstWord 0 data ≠ HostFrame.receivedEcho

/-- A completion that is taken, and what becomes of it. -/
inductive Taken : Except Usb.Fault (List UInt8) → Except TransportError Frame → Prop
  | failed {fault : Usb.Fault} (other : fault ≠ .cancelled) :
      Taken (.error fault) (.error (.readFailed fault.message))
  | short {data : List UInt8} (short : data.length < HostFrame.size) :
      Taken (.ok data) (.error (.malformedFrame
        s!"host frame too short: {data.length} < {HostFrame.size}"))
  | frame {data : List UInt8} {f : Frame} (full : HostFrame.size ≤ data.length)
      (received : LittleEndian.firstWord 0 data = HostFrame.receivedEcho)
      (decoded : HostFrame.decode data = .ok (some f)) : Taken (.ok data) (.ok f)

theorem Taken.not_isPassedOver {c : Except Usb.Fault (List UInt8)}
    {x : Except TransportError Frame} (taken : Taken c x) : ¬ IsPassedOver c := by
  intro passed
  cases taken with
  | failed other => exact other passed
  | short short => exact Nat.not_le_of_lt short passed.1
  | frame full received => exact passed.2 received

/-- A completion is taken in one way only. -/
theorem Taken.unique {c : Except Usb.Fault (List UInt8)} {x y : Except TransportError Frame}
    (first : Taken c x) (second : Taken c y) : x = y := by
  cases first with
  | failed => cases second; rfl
  | short short =>
    cases second with
    | short => rfl
    | frame full => exact absurd full (Nat.not_le_of_lt short)
  | frame full received decoded =>
    cases second with
    | short short => exact absurd full (Nat.not_le_of_lt short)
    | frame _ _ decoded' =>
      have same := decoded.symm.trans decoded'
      injection same with same
      injection same with same
      rw [same]

/-- A wait that reads until a deadline passes over completions, each of a read that was begun
before the deadline. -/
inductive PassesOver (h : Usb.Host υ) (a : Adapter) (e : Usb.Endpoint) (deadline : Nat) :
    List (Except Usb.Fault (List UInt8)) → υ → υ → Prop
  | nil (s : υ) : PassesOver h a e deadline [] s s
  | cons {s s' s'' : υ} {c : Except Usb.Fault (List UInt8)}
      {cs : List (Except Usb.Fault (List UInt8))} (early : (h.clock s).1 < deadline)
      (read : nextRead h a e deadline s = (c, s')) (passed : IsPassedOver c)
      (rest : PassesOver h a e deadline cs s' s'') : PassesOver h a e deadline (c :: cs) s s''

/-- A wait is over when the deadline has come, or with the first completion that is taken; what
completes later is left for the next wait. -/
inductive Awaits (h : Usb.Host υ) (a : Adapter) (e : Usb.Endpoint) (patience deadline : Nat)
    (s : υ) : Except TransportError Frame → υ → Prop
  | late (reached : deadline ≤ (h.clock s).1) :
      Awaits h a e patience deadline s (.error (.timeout (wholeMillis patience))) (h.clock s).2
  | taken {c : Except Usb.Fault (List UInt8)} {x : Except TransportError Frame} {s' : υ}
      (early : (h.clock s).1 < deadline) (read : nextRead h a e deadline s = (c, s'))
      (taken : Taken c x) : Awaits h a e patience deadline s x s'

/-- Reading a full host frame that was received gives a frame. -/
theorem exists_decoded {data : List UInt8} (full : HostFrame.size ≤ data.length)
    (received : LittleEndian.firstWord 0 data = HostFrame.receivedEcho) :
    ∃ f, HostFrame.decode data = .ok (some f) := by
  unfold HostFrame.decode
  rw [if_neg (Nat.not_lt_of_le full), if_neg (Decidable.not_not.mpr received)]
  dsimp only
  split
  · exact ⟨_, rfl⟩
  · have fits : ((data.drop 12).take (min (data.getD 8 0).toNat maxFrameData)).length
        ≤ maxFrameData := Nat.le_trans (List.length_take_le ..) (Nat.min_le_right ..)
    rw [Frame.ofData, Frame.data?, dif_pos fits]
    exact ⟨_, rfl⟩

/-- Exactly the echoes are read as no frame. -/
theorem isPassedOver_of_decode {data : List UInt8} (decoded : HostFrame.decode data = .ok none) :
    IsPassedOver (.ok data) := by
  have full : HostFrame.size ≤ data.length := by
    refine Nat.le_of_not_lt fun short => ?_
    rw [HostFrame.decode, if_pos short] at decoded
    cases decoded
  refine ⟨full, fun received => ?_⟩
  obtain ⟨f, framed⟩ := exists_decoded full received
  cases decoded.symm.trans framed

theorem taken_of_decode_error {data : List UInt8} {failure : TransportError}
    (decoded : HostFrame.decode data = .error failure) : Taken (.ok data) (.error failure) := by
  by_cases short : data.length < HostFrame.size
  · rw [HostFrame.decode, if_pos short] at decoded
    cases decoded
    exact .short short
  have full := Nat.le_of_not_lt short
  by_cases received : LittleEndian.firstWord 0 data = HostFrame.receivedEcho
  · obtain ⟨f, framed⟩ := exists_decoded full received
    cases decoded.symm.trans framed
  · rw [HostFrame.decode, if_neg short, if_pos received] at decoded
    cases decoded

theorem taken_of_decode {data : List UInt8} {f : Frame}
    (decoded : HostFrame.decode data = .ok (some f)) : Taken (.ok data) (.ok f) := by
  by_cases short : data.length < HostFrame.size
  · rw [HostFrame.decode, if_pos short] at decoded
    cases decoded
  by_cases received : LittleEndian.firstWord 0 data = HostFrame.receivedEcho
  · exact .frame (Nat.le_of_not_lt short) received decoded
  · rw [HostFrame.decode, if_neg short, if_pos received] at decoded
    cases decoded

/-- What a wait passes over, and how it ends. -/
theorem receiveUntil_awaits (h : Usb.Host υ) (a : Adapter) (e : Usb.Endpoint)
    (patience deadline : Nat) (s : υ) :
    ∃ cs s', PassesOver h a e deadline cs s s' ∧
      Awaits h a e patience deadline s' (receiveUntil h a e patience deadline s).result
        (receiveUntil h a e patience deadline s).state := by
  -- a read of whole packets is a transfer
  have begun {s s' : υ} {c : Except Usb.Fault (List UInt8)}
      (packets : ¬ max e.maxPacket HostFrame.size % e.maxPacket ≠ 0)
      (read : h.transfer a.device (.bulkIn e.address (max e.maxPacket HostFrame.size)
        (deadline - (h.clock s).1)) (h.clock s).2 = (c, s')) :
      nextRead h a e deadline s = (c, s') := (if_neg packets).trans read
  fun_induction receiveUntil h a e patience deadline s with
  | case1 s remaining timeUp => exact ⟨[], s, .nil s, .late (Nat.le_of_sub_eq_zero timeUp)⟩
  | case2 s length remaining timeLeft packets =>
    have early : (h.clock s).1 < deadline := Nat.lt_of_sub_ne_zero timeLeft
    have refused : nextRead h a e deadline s = (.error .invalidArgument, (h.clock s).2) :=
      if_pos packets
    exact ⟨[], s, .nil s, .taken early refused (.failed (by decide))⟩
  | case3 s length remaining timeLeft packets note s' read result s'' log rest ih =>
    have early : (h.clock s).1 < deadline := Nat.lt_of_sub_ne_zero timeLeft
    obtain ⟨cs, t, passed, ends⟩ := ih
    rw [rest] at ends
    exact ⟨_ :: cs, t, .cons early (begun packets read) rfl passed, ends⟩
  | case4 s length remaining timeLeft packets note fault s' other read =>
    have early : (h.clock s).1 < deadline := Nat.lt_of_sub_ne_zero timeLeft
    have failed : fault ≠ .cancelled := fun same => other (same ▸ rfl)
    exact ⟨[], s, .nil s, .taken early (begun packets read) (.failed failed)⟩
  | case5 s length remaining timeLeft packets note data s' read failure decoded =>
    have early : (h.clock s).1 < deadline := Nat.lt_of_sub_ne_zero timeLeft
    exact ⟨[], s, .nil s, .taken early (begun packets read) (taken_of_decode_error decoded)⟩
  | case6 s length remaining timeLeft packets note data s' read f decoded =>
    have early : (h.clock s).1 < deadline := Nat.lt_of_sub_ne_zero timeLeft
    exact ⟨[], s, .nil s, .taken early (begun packets read) (taken_of_decode decoded)⟩
  | case7 s length remaining timeLeft packets note data s' read decoded result s'' log rest ih =>
    have early : (h.clock s).1 < deadline := Nat.lt_of_sub_ne_zero timeLeft
    obtain ⟨cs, t, passed, ends⟩ := ih
    rw [rest] at ends
    exact ⟨_ :: cs, t, .cons early (begun packets read) (isPassedOver_of_decode decoded) passed,
      ends⟩

/-- The echo of a sent frame is passed over, whatever the adapter makes of the channel and of the
flags, and whatever follows the frame. -/
theorem isPassedOver_echo (f : Frame) (sent channel flags unused : UInt8) (rest : List UInt8) :
    IsPassedOver (.ok ((HostFrame.encode f sent).take 9 ++ channel :: flags :: unused ::
      (HostFrame.encode f sent).drop 12 ++ rest)) := by
  have length := HostFrame.length_encode f sent
  constructor
  · simp only [List.length_append, List.length_take, List.length_cons, List.length_drop, length,
      HostFrame.size]
    omega
  · have echo : LittleEndian.firstWord 0 ((HostFrame.encode f sent).take 9 ++ channel :: flags ::
        unused :: (HostFrame.encode f sent).drop 12 ++ rest) = HostFrame.sentEcho := by
      simp only [HostFrame.encode, List.append_assoc]
      exact LittleEndian.firstWord_bytes_append ..
    rw [echo]
    decide

end Adapter

/-! ## Streams of completions -/

namespace Usb

/-- A host as one opened adapter sees it. -/
structure Stream where
  /-- What the coming reads complete with, in order. -/
  coming : List (Except Fault (List UInt8))
  /-- What the coming writes are answered. -/
  answers : Nat → Except Fault (List UInt8)
  /-- How much time passes before each coming reading of the clock. -/
  ticks : Nat → Nat
  now : Nat := 0
  /-- Everything that was written, in order. -/
  written : List (List UInt8) := []

namespace Stream

/-- Carries out a transfer.  A read for which nothing is left waits until it is given up. -/
def transfer (t : Transfer) (s : Stream) : Except Fault (List UInt8) × Stream :=
  match t with
  | .bulkOut _ data =>
    (s.answers 0, { s with answers := fun n => s.answers (n + 1), written := s.written ++ [data] })
  | .bulkIn _ _ patience =>
    match s.coming with
    | [] => (.error .cancelled, { s with now := s.now + patience })
    | c :: rest => (c, { s with coming := rest })
  | _ => (.ok [], s)

/-- Reads the clock, which never goes back. -/
def clock (s : Stream) : Nat × Stream :=
  (s.now + s.ticks 0, { s with now := s.now + s.ticks 0, ticks := fun n => s.ticks (n + 1) })

/-- The stream as a host. -/
def host : Host Stream where
  list _ := .ok []
  openDevice _ s := (.ok [], s)
  claim _ _ s := (.ok [], s)
  transfer _ := transfer
  clock := clock
  backlog s := s.coming.length
  backlog_clock _ := Nat.le_refl _
  backlog_read _ endpoint length patience s data ok := by
    unfold transfer at ok ⊢
    cases held : s.coming with
    | nil =>
      rw [held] at ok
      cases ok
    | cons c rest => exact Nat.lt_succ_self _
  backlog_cancelled _ endpoint length patience s := by
    intro now after _
    have same : now.2.coming = s.coming := rfl
    have read : after = transfer (.bulkIn endpoint length patience) now.2 := rfl
    rw [transfer, same] at read
    cases held : s.coming with
    | nil =>
      rw [held] at read
      rw [read]
      exact .inr ⟨Nat.zero_le _, Nat.le_add_right _ _⟩
    | cons c rest =>
      rw [held] at read
      rw [read]
      exact .inl (Nat.lt_succ_self _)

/-- Two streams that differ by the echoes in the second, and by their clocks. -/
inductive WithEchoes : List (Except Fault (List UInt8)) → List (Except Fault (List UInt8)) → Prop
  | nil : WithEchoes [] []
  | keep {xs ys : List (Except Fault (List UInt8))} (c : Except Fault (List UInt8))
      (rest : WithEchoes xs ys) : WithEchoes (c :: xs) (c :: ys)
  | echo {xs ys : List (Except Fault (List UInt8))} {data : List UInt8}
      (full : HostFrame.size ≤ data.length)
      (echo : LittleEndian.firstWord 0 data ≠ HostFrame.receivedEcho) (rest : WithEchoes xs ys) :
      WithEchoes xs (.ok data :: ys)

/-- The first completion that is taken is the same with echoes, and so is what follows it, but for
echoes. -/
theorem WithEchoes.first_taken {pre pre' rest rest' : List (Except Fault (List UInt8))}
    {c c' : Except Fault (List UInt8)} {x x' : Except TransportError Frame}
    (both : WithEchoes (pre ++ c :: rest) (pre' ++ c' :: rest'))
    (passed : ∀ d ∈ pre, Adapter.IsPassedOver d) (passed' : ∀ d ∈ pre', Adapter.IsPassedOver d)
    (taken : Adapter.Taken c x) (taken' : Adapter.Taken c' x') :
    c = c' ∧ WithEchoes rest rest' := by
  generalize first : pre ++ c :: rest = xs at both
  generalize second : pre' ++ c' :: rest' = ys at both
  induction both generalizing pre pre' with
  | nil => cases pre <;> cases first
  | keep d both ih =>
    -- the completion is in both streams, so it is passed over in both or taken in both
    cases pre with
    | nil =>
      obtain ⟨rfl, rfl⟩ := List.cons.inj first
      cases pre' with
      | nil =>
        obtain ⟨rfl, rfl⟩ := List.cons.inj second
        exact ⟨rfl, both⟩
      | cons p pre' =>
        obtain ⟨rfl, -⟩ := List.cons.inj second
        exact absurd (passed' _ List.mem_cons_self) taken.not_isPassedOver
    | cons p pre =>
      obtain ⟨rfl, rfl⟩ := List.cons.inj first
      cases pre' with
      | nil =>
        obtain ⟨rfl, -⟩ := List.cons.inj second
        exact absurd (passed _ List.mem_cons_self) taken'.not_isPassedOver
      | cons p' pre' =>
        obtain ⟨-, rfl⟩ := List.cons.inj second
        exact ih (List.forall_mem_cons.mp passed).2 (List.forall_mem_cons.mp passed').2 rfl rfl
  | echo full echo both ih =>
    cases pre' with
    | nil =>
      obtain ⟨rfl, -⟩ := List.cons.inj second
      exact absurd ⟨full, echo⟩ taken'.not_isPassedOver
    | cons p' pre' =>
      obtain ⟨-, rfl⟩ := List.cons.inj second
      exact ih passed (List.forall_mem_cons.mp passed').2 first rfl

/-- A stream and the same with echoes: written to alike so far, and to be answered alike.  Their
clocks have nothing to do with each other. -/
structure Echoed (s s' : Stream) : Prop where
  coming : WithEchoes s.coming s'.coming
  answers : s'.answers = s.answers
  written : s'.written = s.written

variable {a : Adapter} {e : Endpoint} {deadline : Nat} {s s' : Stream}
  {c : Except Fault (List UInt8)}

/-- A wait changes neither what was written nor what writes will be answered. -/
structure SameWrites (s s' : Stream) : Prop where
  answers : s'.answers = s.answers
  written : s'.written = s.written

/-- What a read takes from a stream: nothing if it is refused or in vain, else the first
completion. -/
theorem nextRead_cases (read : Adapter.nextRead host a e deadline s = (c, s')) :
    SameWrites s s' ∧
      ((max e.maxPacket HostFrame.size % e.maxPacket ≠ 0 ∧ c = .error .invalidArgument ∧
          s'.coming = s.coming) ∨
        (max e.maxPacket HostFrame.size % e.maxPacket = 0 ∧
          (s.coming = c :: s'.coming ∨ c = .error .cancelled ∧ s'.coming = s.coming))) := by
  unfold Adapter.nextRead at read
  dsimp only at read
  split at read
  · next packets =>
    cases read
    exact ⟨⟨rfl, rfl⟩, .inl ⟨packets, rfl, rfl⟩⟩
  · next packets =>
    have whole := Decidable.not_not.mp packets
    have same : (host.clock s).2.coming = s.coming := rfl
    have read : transfer (.bulkIn e.address (max e.maxPacket HostFrame.size)
      (deadline - (host.clock s).1)) (host.clock s).2 = (c, s') := read
    rw [transfer, same] at read
    cases held : s.coming with
    | nil =>
      rw [held] at read
      cases read
      exact ⟨⟨rfl, rfl⟩, .inr ⟨whole, .inr ⟨rfl, rfl⟩⟩⟩
    | cons c rest =>
      rw [held] at read
      cases read
      exact ⟨⟨rfl, rfl⟩, .inr ⟨whole, .inl rfl⟩⟩

/-- What a wait passes over is taken from the stream. -/
theorem coming_of_passesOver {cs : List (Except Fault (List UInt8))}
    (passes : Adapter.PassesOver host a e deadline cs s s') :
    SameWrites s s' ∧ ∃ pre, s.coming = pre ++ s'.coming ∧ ∀ d ∈ pre, Adapter.IsPassedOver d := by
  induction passes with
  | nil s => exact ⟨⟨rfl, rfl⟩, [], rfl, List.forall_mem_nil _⟩
  | cons early read passed rest ih =>
    obtain ⟨same', pre, held, all⟩ := ih
    obtain ⟨same, ⟨-, rfl, -⟩ | ⟨-, taken | ⟨-, kept⟩⟩⟩ := nextRead_cases read
    · cases passed
    · refine ⟨⟨same'.1.trans same.1, same'.2.trans same.2⟩, _ :: pre, ?_,
        List.forall_mem_cons.mpr ⟨passed, all⟩⟩
      rw [taken, held]
      rfl
    · exact ⟨⟨same'.1.trans same.1, same'.2.trans same.2⟩, pre, kept ▸ held, all⟩

/-- How a wait on a stream ends.  In the first case the deadline passes; in the second nothing can
be read; in the third the first completion that is not passed over is taken. -/
theorem receiveUntil_cases (a : Adapter) (e : Endpoint) (patience deadline : Nat) (s : Stream) :
    let o := Adapter.receiveUntil host a e patience deadline s
    SameWrites s o.state ∧
      ((∃ millis, o.result = .error (.timeout millis)) ∨
        (max e.maxPacket HostFrame.size % e.maxPacket ≠ 0 ∧
          o.result = .error (.readFailed Fault.invalidArgument.message) ∧
          o.state.coming = s.coming) ∨
        (max e.maxPacket HostFrame.size % e.maxPacket = 0 ∧ ∃ pre c,
          s.coming = pre ++ c :: o.state.coming ∧ (∀ d ∈ pre, Adapter.IsPassedOver d) ∧
            Adapter.Taken c o.result)) := by
  intro o
  obtain ⟨cs, s', passes, awaits⟩ := Adapter.receiveUntil_awaits host a e patience deadline s
  have ended : Adapter.Awaits host a e patience deadline s' o.result o.state := awaits
  obtain ⟨same, pre, held, all⟩ := coming_of_passesOver passes
  generalize o.result = result at ended ⊢
  generalize o.state = left at ended ⊢
  cases ended with
  | late reached => exact ⟨⟨same.1, same.2⟩, .inl ⟨_, rfl⟩⟩
  | @taken c _ _ early read taken =>
    obtain ⟨same', refused | ⟨whole, first | ⟨rfl, -⟩⟩⟩ := nextRead_cases read
    · obtain ⟨packets, rfl, kept⟩ := refused
      have unread : s' = s := by
        cases passes with
        | nil => rfl
        | cons _ read' passed _ =>
          obtain ⟨-, ⟨-, rfl, -⟩ | ⟨whole, -⟩⟩ := nextRead_cases read'
          · cases passed
          · exact absurd whole packets
      subst unread
      refine ⟨same', .inr (.inl ⟨packets, ?_, kept⟩)⟩
      cases taken
      rfl
    · refine ⟨⟨same'.1.trans same.1, same'.2.trans same.2⟩, .inr (.inr ⟨whole, pre, c, ?_, all,
        taken⟩)⟩
      rw [held, first]
    · exact absurd rfl taken.not_isPassedOver

/-- Two waits whose streams differ by echoes, and in which no deadline passes, receive the same. -/
theorem receiveUntil_echoed (both : s.Echoed s') (a : Adapter) (e : Endpoint)
    (patience deadline patience' deadline' : Nat) :
    let o := Adapter.receiveUntil host a e patience deadline s
    let o' := Adapter.receiveUntil host a e patience' deadline' s'
    (∀ millis, o.result ≠ .error (.timeout millis)) →
      (∀ millis, o'.result ≠ .error (.timeout millis)) →
        o'.result = o.result ∧ o.state.Echoed o'.state := by
  intro o o' timely timely'
  obtain ⟨same, ends⟩ := receiveUntil_cases a e patience deadline s
  obtain ⟨same', ends'⟩ := receiveUntil_cases a e patience' deadline' s'
  have answers : o'.state.answers = o.state.answers := by
    rw [same.answers, same'.answers, both.answers]
  have written : o'.state.written = o.state.written := by
    rw [same.written, same'.written, both.written]
  obtain ⟨millis, late⟩ | ⟨packets, refused, kept⟩ | ⟨whole, pre, c, held, passed, taken⟩ := ends
  · exact absurd late (timely millis)
  · obtain ⟨millis, late⟩ | ⟨-, refused', kept'⟩ | ⟨whole, -⟩ := ends'
    · exact absurd late (timely' millis)
    · refine ⟨refused'.trans refused.symm, ⟨?_, answers, written⟩⟩
      rw [kept, kept']
      exact both.coming
    · exact absurd whole packets
  · obtain ⟨millis, late⟩ | ⟨packets, -⟩ | ⟨-, pre', c', held', passed', taken'⟩ := ends'
    · exact absurd late (timely' millis)
    · exact absurd whole packets
    · have coming := both.coming
      rw [held, held'] at coming
      obtain ⟨rfl, rest⟩ := coming.first_taken passed passed' taken taken'
      exact ⟨taken'.unique taken, ⟨rest, answers, written⟩⟩

theorem receive_echoed (both : s.Echoed s') (a : Adapter) (patience patience' : Nat)
    (timely : ∀ millis, (a.receive host patience s).result ≠ .error (.timeout millis))
    (timely' : ∀ millis, (a.receive host patience' s').result ≠ .error (.timeout millis)) :
    (a.receive host patience' s').result = (a.receive host patience s).result ∧
      (a.receive host patience s).state.Echoed (a.receive host patience' s').state := by
  cases found : a.bulkEndpoint a.input with
  | error text =>
    have run (patience : Nat) (s : Stream) :
        a.receive host patience s = ⟨.error (.readFailed text), s, []⟩ := by
      rw [Adapter.receive, found]
    rw [run, run]
    exact ⟨rfl, both⟩
  | ok e =>
    have run (patience : Nat) (s : Stream) : a.receive host patience s
        = Adapter.receiveUntil host a e patience ((host.clock s).1 + patience)
            (host.clock s).2 := by
      rw [Adapter.receive, found]
    have begun : (host.clock s).2.Echoed (host.clock s').2 :=
      ⟨both.coming, both.answers, both.written⟩
    rw [run] at timely timely' ⊢
    rw [run]
    exact receiveUntil_echoed begun a e _ _ _ _ timely timely'

end Stream

end Usb

/-! ## Sessions -/

open Usb (Stream)

/-- A wait whose deadline passed. -/
def SessionError.IsLate : SessionError → Prop
  | .noResponse _ => True
  | _ => False

/-- No deadline passed: the result is not the failure that says so. -/
def Timely {α : Type} (x : Except SessionError α) : Prop := ∀ e, x = .error e → ¬ e.IsLate

/-- Run on a stream and on the same with echoes, without a deadline passing in either, the routine
comes to the same result, writes the same, and leaves the second stream the first with echoes. -/
def Unmoved {α : Type} (r : Routine Note Stream SessionError α) : Prop :=
  ∀ s s', s.Echoed s' → Timely (r s).result → Timely (r s').result →
    (r s').result = (r s).result ∧ (r s).state.Echoed (r s').state

namespace Unmoved

variable {α β : Type} {r : Routine Note Stream SessionError α}

theorem pure (a : α) : Unmoved (Pure.pure a : Routine Note Stream SessionError α) :=
  fun _ _ both _ _ => ⟨rfl, both⟩

theorem ofExcept (x : Except SessionError α) :
    Unmoved (Routine.ofExcept x : Routine Note Stream SessionError α) :=
  fun _ _ both _ _ => ⟨rfl, both⟩

theorem restated {ε : Type} (x : Except ε α) (f : ε → SessionError) :
    Unmoved ((Routine.ofExcept x : Routine Note Stream ε α).mapError f) :=
  fun _ _ both _ _ => ⟨rfl, both⟩

theorem emit (note : Note) : Unmoved (Routine.emit note : Routine Note Stream SessionError Unit) :=
  fun _ _ both _ _ => ⟨rfl, both⟩

theorem bind {f : α → Routine Note Stream SessionError β} (first : Unmoved r)
    (second : ∀ a, Unmoved (f a)) : Unmoved (r >>= f) := by
  intro s s' both timely timely'
  -- a deadline that passes in the first routine passes in the whole
  have early {s : Stream} (timely : Timely ((r >>= f) s).result) : Timely (r s).result := by
    intro e failed late
    refine timely e ?_ late
    cases run : r s with
    | mk result t log =>
      rw [run] at failed
      have failed : result = .error e := failed
      rw [failed] at run
      rw [Routine.bind_of_error run]
  obtain ⟨same, left⟩ := first s s' both (early timely) (early timely')
  cases run : r s with
  | mk result t log =>
    cases run' : r s' with
    | mk result' t' log' =>
      rw [run, run'] at same left
      obtain rfl : result' = result := same
      cases result' with
      | error e =>
        rw [Routine.bind_of_error run, Routine.bind_of_error run']
        exact ⟨rfl, left⟩
      | ok a =>
        rw [Routine.bind_of_ok run] at timely ⊢
        rw [Routine.bind_of_ok run'] at timely' ⊢
        exact second a t t' left timely timely'

end Unmoved

/-- The first step of a wait in which no deadline passes: it ends with what was received, or goes on
after a frame that is not the answer. -/
inductive Awaited.Steps {τ : Type} (t : Transport τ) (w : Awaited) (patience deadline : Nat) (s : τ)
    (o : Outcome Note τ SessionError (List UInt8)) : Except TransportError Frame → τ → Prop
  | failed {e : TransportError} {s' : τ} (result : o.result = .error (.transport e))
      (state : o.state = s') : Steps t w patience deadline s o (.error e) s'
  | answered {f : Frame} {s' : τ} (answer : w.isAnswer f = true) (result : o.result = w.accept f)
      (state : o.state = s') : Steps t w patience deadline s o (.ok f) s'
  | ignored {f : Frame} {s' : τ} (other : ¬ w.isAnswer f = true)
      (result : o.result = (w.receive t patience deadline s').result)
      (state : o.state = (w.receive t patience deadline s').state)
      (fewer : t.backlog s' < t.backlog s) : Steps t w patience deadline s o (.ok f) s'

theorem Awaited.steps {τ : Type} {t : Transport τ} {w : Awaited} {patience deadline : Nat} {s : τ}
    (timely : Timely (w.receive t patience deadline s).result) :
    let r := t.receive (deadline - (t.clock s).1) (t.clock s).2
    (∀ millis, r.result ≠ .error (.timeout millis)) ∧
      Steps t w patience deadline s (w.receive t patience deadline s) r.result r.state := by
  intro r
  have fewer := t.backlog_receive (deadline - (t.clock s).1) (t.clock s).2
  have whole := Awaited.receive_eq t w patience deadline s
  cases run : t.receive (deadline - (t.clock s).1) (t.clock s).2 with
  | mk result s' log =>
    have known : r = ⟨result, s', log⟩ := run
    rw [run] at whole fewer
    rw [known]
    cases result with
    | error e =>
      have missed : (w.receive t patience deadline s).result = .error (missed patience e) := by
        rw [whole]
      have other (millis : UInt64) : e ≠ .timeout millis := by
        rintro rfl
        exact timely _ missed trivial
      refine ⟨fun millis late => other millis (Except.error.inj late), .failed ?_ ?_⟩
      · rw [missed]
        cases e with
        | timeout millis => exact absurd rfl (other millis)
        | _ => rfl
      · rw [whole]
    | ok f =>
      have found (millis : UInt64) :
          (.ok f : Except TransportError Frame) ≠ .error (.timeout millis) :=
        fun impossible => nomatch impossible
      refine ⟨found, ?_⟩
      dsimp only at whole
      split at whole
      · next answer => exact .answered answer (whole ▸ rfl) (whole ▸ rfl)
      next other =>
      split at whole
      · have late := congrArg Outcome.result whole
        exact absurd trivial (timely _ late)
      · refine .ignored other (whole ▸ rfl) (whole ▸ rfl) ?_
        exact Nat.lt_of_lt_of_le (fewer f rfl) (t.backlog_clock s)

section Session

variable (a : Adapter)

/-- Sending a frame writes it, or fails, without a look at the completions. -/
theorem unmoved_send (f : Frame) :
    Unmoved (((a.transport Stream.host).send f).mapError SessionError.transport) := by
  intro s s' both _ _
  have same : (a.send Stream.host f s').result = (a.send Stream.host f s).result ∧
      (a.send Stream.host f s).state.Echoed (a.send Stream.host f s').state := by
    cases found : a.bulkEndpoint a.output with
    | error text =>
      have refused (s : Stream) : a.send Stream.host f s = ⟨.error (.writeFailed text), s, []⟩ := by
        unfold Adapter.send
        rw [found]
        rfl
      rw [refused, refused]
      exact ⟨rfl, both⟩
    | ok e =>
      let after (s : Stream) : Stream :=
        { s with
          answers := fun n => s.answers (n + 1)
          written := s.written ++ [HostFrame.encode f Adapter.channel] }
      have handed (s : Stream) : (a.send Stream.host f s).result
            = ((s.answers 0).mapError fun fault => .writeFailed fault.message).map (fun _ => ()) ∧
          (a.send Stream.host f s).state = after s := by
        have written : Adapter.transfer Stream.host a.device
            (.bulkOut e.address (HostFrame.encode f Adapter.channel)) s
              = ⟨s.answers 0, after s, [.usb a.device (.transfer
                (.bulkOut e.address (HostFrame.encode f Adapter.channel)))]⟩ := rfl
        unfold Adapter.send
        rw [found, Routine.bind_of_ok (Routine.mapError_of_ok (Routine.ofExcept_apply _ s) _)]
        cases answered : s.answers 0 with
        | error fault =>
          rw [answered] at written
          rw [Routine.bind_of_error (Routine.mapError_of_error written _)]
          exact ⟨rfl, rfl⟩
        | ok data =>
          rw [answered] at written
          rw [Routine.bind_of_ok (Routine.mapError_of_ok written _)]
          exact ⟨rfl, rfl⟩
      rw [(handed s).1, (handed s).2, (handed s').1, (handed s').2, both.answers]
      refine ⟨rfl, ⟨both.coming, ?_, ?_⟩⟩
      · show (fun n => s'.answers (n + 1)) = fun n => s.answers (n + 1)
        rw [both.answers]
      · show s'.written ++ _ = s.written ++ _
        rw [both.written]
  exact ⟨congrArg (Except.mapError SessionError.transport) same.1, same.2⟩

theorem unmoved_receive (w : Awaited) (patience : Nat) {s s' : Stream} (both : s.Echoed s')
    (deadline deadline' : Nat)
    (timely : Timely (w.receive (a.transport Stream.host) patience deadline s).result)
    (timely' : Timely (w.receive (a.transport Stream.host) patience deadline' s').result) :
    (w.receive (a.transport Stream.host) patience deadline' s').result
        = (w.receive (a.transport Stream.host) patience deadline s).result ∧
      (w.receive (a.transport Stream.host) patience deadline s).state.Echoed
        (w.receive (a.transport Stream.host) patience deadline' s').state := by
  -- the induction is on what the first stream can still bring
  induction held : s.coming.length using Nat.strongRecOn generalizing s s' with
  | ind n ih =>
    have begun : (Stream.host.clock s).2.Echoed (Stream.host.clock s').2 :=
      ⟨both.coming, both.answers, both.written⟩
    obtain ⟨early, step⟩ := Awaited.steps timely
    obtain ⟨early', step'⟩ := Awaited.steps timely'
    obtain ⟨same, left⟩ := Stream.receive_echoed begun a _ _ early early'
    -- so both first steps are of one kind
    generalize received : (a.transport Stream.host).receive
      (deadline - ((a.transport Stream.host).clock s).1) ((a.transport Stream.host).clock s).2 = r
      at step
    generalize received' : (a.transport Stream.host).receive
      (deadline' - ((a.transport Stream.host).clock s').1) ((a.transport Stream.host).clock s').2
      = r' at step'
    have same : r'.result = r.result := received ▸ received' ▸ same
    have left : r.state.Echoed r'.state := received ▸ received' ▸ left
    rw [same] at step'
    generalize r.result = result at step step'
    generalize r.state = t at step left
    generalize r'.state = t' at step' left
    cases step with
    | failed result state =>
      cases step' with
      | failed result' state' =>
        rw [result, result', state, state']
        exact ⟨rfl, left⟩
    | answered answer result state =>
      cases step' with
      | answered _ result' state' =>
        rw [result, result', state, state']
        exact ⟨rfl, left⟩
      | ignored other => exact absurd answer other
    | ignored other result state fewer =>
      cases step' with
      | answered answer => exact absurd answer other
      | ignored _ result' state' _ =>
        rw [result] at timely
        rw [result'] at timely'
        rw [result, result', state, state']
        exact ih _ (held ▸ fewer) left timely timely' rfl

theorem unmoved_await (w : Awaited) (patience : Nat) :
    Unmoved (Awaited.await (a.transport Stream.host) w patience) := by
  intro s s' both timely timely'
  have begun : (Stream.host.clock s).2.Echoed (Stream.host.clock s').2 :=
    ⟨both.coming, both.answers, both.written⟩
  exact unmoved_receive a w patience begun _ _ timely timely'

theorem unmoved_call (n : Node) (c : Command) : Unmoved (n.call (a.transport Stream.host) c) := by
  unfold Node.call
  refine (Unmoved.ofExcept _).bind fun _ => (Unmoved.restated _ _).bind fun f => ?_
  refine (Unmoved.emit _).bind fun _ => (unmoved_send a f).bind fun _ => ?_
  cases c.answerSize with
  | none => exact .pure _
  | some size => exact (unmoved_await a _ _).bind fun _ => .pure _

theorem unmoved_connect (p : Profile) (node : UInt8) (patience : Nat) :
    Unmoved (Node.connect (a.transport Stream.host) p node patience) := by
  unfold Node.connect
  refine (Unmoved.restated _ _).bind fun ids => (unmoved_send a _).bind fun _ => ?_
  refine (unmoved_await a _ patience).bind fun answer => ?_
  exact (Unmoved.emit _).bind fun _ => .pure _

/-- Two sessions of the same commands, on a stream and on the same with echoes. -/
theorem unmoved_session (n : Node) (commands : List Command) {s s' : Stream}
    (both : s.Echoed s') :
    let run := (n.device (a.transport Stream.host)).session commands s
    let run' := (n.device (a.transport Stream.host)).session commands s'
    (∀ call ∈ run.1, Timely call.answer) → (∀ call ∈ run'.1, Timely call.answer) →
      run'.1 = run.1 ∧ run.2.Echoed run'.2 := by
  induction commands generalizing s s' with
  | nil => exact fun _ _ => ⟨rfl, both⟩
  | cons c rest ih =>
    intro run run' timely timely'
    obtain ⟨first, timely⟩ := List.forall_mem_cons.mp timely
    obtain ⟨first', timely'⟩ := List.forall_mem_cons.mp timely'
    obtain ⟨same, left⟩ := unmoved_call a n c s s' both first first'
    obtain ⟨made, left⟩ := ih left timely timely'
    refine ⟨?_, left⟩
    show Call.mk c (n.call (a.transport Stream.host) c s').result :: _
      = Call.mk c (n.call (a.transport Stream.host) c s).result :: _
    rw [same]
    exact congrArg _ made

end Session

/-! ## An adapter that repeats every request -/

/-- An adapter with one bulk endpoint in each direction. -/
def echoAdapter : Adapter where
  device := 0
  ids := ⟨0x1D50, 0x606F⟩
  endpoints := [⟨0x81, .bulk, 64⟩, ⟨0x02, .bulk, 64⟩]
  input := 0x81
  output := 0x02

/-- Node 1 behind that adapter. -/
def echoNode : Node := ⟨seededProfile, seededIds, 1, 100, 0x1234⟩

/-- A commit, whose answer has the identifier of its request. -/
def echoCommit : Command := .commit 0x1000 (some 0x1234)

/-- The frame that carries the commit. -/
def echoCommitFrame : Frame :=
  ⟨67, false, .data echoCommit.arguments (by decide)⟩

/-- The completion of a read with a frame of four bytes from the bus. -/
def receivedWord (id word : UInt32) : Except Usb.Fault (List UInt8) :=
  .ok (LittleEndian.bytes HostFrame.receivedEcho ++ LittleEndian.bytes id ++ [4, 0, 0, 0] ++
    LittleEndian.bytes word ++ [0, 0, 0, 0])

/-- The node's hash, and its answer to the commit. -/
def answersOnly : Stream where
  coming := [receivedWord 64 0x1234, receivedWord 67 0x9ABC]
  answers _ := .ok []
  ticks _ := 0

/-- The same behind an adapter that repeats the two requests, on a clock that moves. -/
def answersAndEchoes : Stream where
  coming := [.ok (HostFrame.encode (Node.hashProbe seededIds seededProfile) Adapter.channel),
    receivedWord 64 0x1234, .ok (HostFrame.encode echoCommitFrame Adapter.channel),
    receivedWord 67 0x9ABC]
  answers _ := .ok []
  ticks _ := 1

theorem answersOnly_echoed : answersOnly.Echoed answersAndEchoes where
  coming := .echo (by decide) (by decide) (.keep _ (.echo (by decide) (by decide) (.keep _ .nil)))
  answers := rfl
  written := rfl

theorem timely_of_toBool {α : Type} {x : Except SessionError α} (h : x.toBool = true) :
    Timely x := by
  rintro e rfl
  cases h

/-- Echoes are never taken for answers.

On any host, a wait passes over cancelled reads and over full host frames that are not marked as
received, each of a read begun before the deadline, and nothing else.  It ends with the first other
completion, or when the deadline has come, and leaves what completes later to the next wait.  What
an adapter repeats of a sent frame is passed over.

So of two sessions with a node over an adapter whose completions differ by such echoes, wherever
they come, and in which no deadline passes, whatever the clocks are, every result is the same, and
the same is written. -/
theorem echoes_never_received :
    (∀ (υ : Type) (h : Usb.Host υ) (a : Adapter) (patience : Nat) (s : υ),
      let deadline := (h.clock s).1 + patience
      let o := a.receive h patience s
      (∀ text, a.bulkEndpoint a.input = .error text → o = ⟨.error (.readFailed text), s, []⟩) ∧
      ∀ e, a.bulkEndpoint a.input = .ok e →
        ∃ cs s', Adapter.PassesOver h a e deadline cs (h.clock s).2 s' ∧
          Adapter.Awaits h a e patience deadline s' o.result o.state) ∧
    (∀ (f : Frame) (sent channel flags unused : UInt8) (rest : List UInt8),
      Adapter.IsPassedOver (.ok ((HostFrame.encode f sent).take 9 ++ channel :: flags :: unused ::
        (HostFrame.encode f sent).drop 12 ++ rest))) ∧
    ∀ (a : Adapter) (p : Profile) (node : UInt8) (patience : Nat) (s s' : Stream), s.Echoed s' →
      let opened := Node.connect (a.transport Stream.host) p node patience s
      let opened' := Node.connect (a.transport Stream.host) p node patience s'
      Timely opened.result → Timely opened'.result →
        opened'.result = opened.result ∧ opened'.state.written = opened.state.written ∧
        ∀ n, opened.result = .ok n → ∀ commands,
          let run := (n.device (a.transport Stream.host)).session commands opened.state
          let run' := (n.device (a.transport Stream.host)).session commands opened'.state
          (∀ call ∈ run.1, Timely call.answer) → (∀ call ∈ run'.1, Timely call.answer) →
            run'.1 = run.1 ∧ run'.2.written = run.2.written := by
  refine ⟨fun υ h a patience s => ⟨fun text found => ?_, fun e found => ?_⟩,
    Adapter.isPassedOver_echo, ?_⟩
  · rw [Adapter.receive, found]
  · have run : a.receive h patience s = Adapter.receiveUntil h a e patience
        ((h.clock s).1 + patience) (h.clock s).2 := by
      rw [Adapter.receive, found]
    rw [run]
    exact Adapter.receiveUntil_awaits h a e patience _ _
  · intro a p node patience s s' both opened opened' timely timely'
    obtain ⟨same, left⟩ := unmoved_connect a p node patience s s' both timely timely'
    refine ⟨same, left.written, ?_⟩
    intro n _ commands run run' answered answered'
    obtain ⟨made, left⟩ := unmoved_session a n commands left answered answered'
    exact ⟨made, left.written⟩

/-- Behind an adapter that repeats both requests, the node is addressed, and its answer to the
commit is found, just as without the echoes. -/
theorem echoes_never_received_commit :
    let t := echoAdapter.transport Stream.host
    let opened := Node.connect t seededProfile 1 100 answersOnly
    let opened' := Node.connect t seededProfile 1 100 answersAndEchoes
    opened'.result = .ok echoNode ∧ opened.result = .ok echoNode ∧
      ((echoNode.device t).session [echoCommit] opened'.state).1
        = [⟨echoCommit, .ok (0x9ABC : UInt32)⟩] := by
  intro t opened opened'
  have connected : opened.result = .ok echoNode := by with_unfolding_all rfl
  have connected' : opened'.result.toBool = true := by decide +kernel
  have answered : ((echoNode.device t).session [echoCommit] opened.state).1
      = [⟨echoCommit, .ok (0x9ABC : UInt32)⟩] := by with_unfolding_all rfl
  have answered' : (((echoNode.device t).session [echoCommit] opened'.state).1.all
      fun call => call.answer.toBool) = true := by decide +kernel
  obtain ⟨same, -, sessions⟩ := echoes_never_received.2.2 echoAdapter seededProfile 1 100
    answersOnly answersAndEchoes answersOnly_echoed (timely_of_toBool (connected ▸ rfl))
    (timely_of_toBool connected')
  have made := (sessions echoNode connected [echoCommit]
    (fun call hcall => timely_of_toBool ?_)
    (fun call hcall => timely_of_toBool (List.all_eq_true.mp answered' call hcall))).1
  · exact ⟨same.trans connected, connected, made.trans answered⟩
  · rw [answered] at hcall
    rw [List.mem_singleton.mp hcall]
    rfl

end CanDfu
