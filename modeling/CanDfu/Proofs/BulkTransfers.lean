/-
  CanDfu.Proofs.BulkTransfers

  What an opened adapter is used for: bulk transfers, and nothing else.  The adapter as a transport
  is confined to its bulk endpoints, and a wait at it to reading; so is, since being confined is
  compositional, all that uploads and recoveries do with it.
-/
import CanDfu.Proofs.HostExchanges
import CanDfu.Proofs.NodeOnBus

namespace CanDfu

variable {υ : Type} {h : Usb.Host υ} {allowed : Exchange → Prop}

/-! ## Waits that are confined -/

/-- Whenever a transport is listened to, its host exchanges only what is allowed. -/
structure Transport.ListensWithin (h : Usb.Host υ) (allowed : Exchange → Prop)
    (t : Transport υ) : Prop where
  receive : ∀ patience, Confined h .notes allowed (t.receive patience)
  clock : ∀ s, h.Went s [] (t.clock s).2

section Awaited

variable {t : Transport υ} (listens : t.ListensWithin h allowed)
include listens

theorem Awaited.confined_receive (a : Awaited) (patience deadline : Nat) :
    Confined h .notes allowed (a.receive t patience deadline) := by
  intro s
  -- the induction is on what can still be received; it ends the wait
  induction held : t.backlog s using Nat.strongRecOn generalizing s with
  | ind n ih =>
    have read := listens.clock s
    obtain ⟨xs, went, shown, inside⟩ :=
      listens.receive (deadline - (t.clock s).1) (t.clock s).2
    have fewer := t.backlog_receive (deadline - (t.clock s).1) (t.clock s).2
    have went' : h.Went s xs _ := read.append went
    rw [Awaited.receive_eq]
    split
    · next e s' log found =>
      rw [found] at went' shown
      exact ⟨xs, went', shown, inside⟩
    · next f s' log found =>
      rw [found] at went' shown fewer
      split
      · exact ⟨xs, went', shown, inside⟩
      · have ignored (rest : List Note) :
            (log ++ Note.record ⟨.trace, "Ignoring unrelated frame", [("frame", f.text)]⟩ ::
              rest).filterMap Note.access?
                = xs.map Exchange.access ++ rest.filterMap Note.access? := by
          rw [List.filterMap_append]
          exact congrArg (· ++ rest.filterMap Note.access?) shown
        split
        · refine ⟨xs, went', ?_, inside⟩
          exact (ignored []).trans (List.append_nil _)
        · have less : t.backlog s' < n :=
            Nat.lt_of_lt_of_le (fewer f rfl) (held ▸ t.backlog_clock s)
          obtain ⟨ys, went'', shown', inside'⟩ := ih _ less s' rfl
          refine ⟨xs ++ ys, went'.append went'', ?_, List.forall_mem_append.mpr ⟨inside, inside'⟩⟩
          rw [List.map_append]
          exact (ignored _).trans (congrArg (xs.map Exchange.access ++ ·) shown')

theorem Awaited.confined_await (a : Awaited) (patience : Nat) :
    Confined h .notes allowed (Awaited.await t a patience) := by
  intro s
  have read := listens.clock s
  by_cases told : t.tells ((t.clock s).1 + patience) = true
  · obtain ⟨xs, went, rest⟩ :=
      a.confined_receive listens patience ((t.clock s).1 + patience) (t.clock s).2
    rw [Awaited.await_of_told a told]
    exact ⟨xs, read.append went, rest⟩
  · rw [Awaited.await_of_untold a told]
    exact ⟨[], read, rfl, List.forall_mem_nil _⟩

end Awaited

/-! ## The adapter as a transport -/

namespace Exchange

/-- A bulk transfer of one device. -/
def IsBulk (device : Nat) : Exchange → Prop
  | transfer d (.bulkOut ..) _ => d = device
  | transfer d (.bulkIn ..) _ => d = device
  | _ => False

/-- A bulk transfer from one device. -/
def IsRead (device : Nat) : Exchange → Prop
  | transfer d (.bulkIn ..) _ => d = device
  | _ => False

theorem IsRead.isBulk {device : Nat} {x : Exchange} (read : x.IsRead device) :
    x.IsBulk device := by
  cases x with
  | opened | claimed | released => cases read
  | transfer d t answer =>
    cases t with
    | bulkIn => exact read
    | bulkOut | controlOut | controlIn => cases read

end Exchange

namespace Adapter

/-- One transfer is one exchange, and its answer the result. -/
theorem exchanging_transfer {device : Nat} {t : Usb.Transfer}
    {P : List Exchange → Except Usb.Fault (List UInt8) → Prop}
    (described : ∀ answer, P [.transfer device t answer] answer) :
    Exchanging h .notes (transfer h device t) P := by
  intro s
  refine ⟨[.transfer device t (h.transfer device t s).1], ?_, rfl, described _⟩
  exact .transfer rfl (.nil _)

theorem confined_send (a : Adapter) (f : Frame) :
    Confined h .notes (Exchange.IsBulk a.device) (a.send h f) := by
  have written (endpoint : Usb.Endpoint) : Confined h .notes (Exchange.IsBulk a.device)
      (transfer h a.device (.bulkOut endpoint.address (HostFrame.encode f channel))) :=
    exchanging_transfer fun _ => List.forall_mem_singleton.mpr rfl
  unfold send
  refine ((Confined.ofExcept _).mapError _).bind fun endpoint => ?_
  exact ((written endpoint).mapError _).bind fun _ => .pure _

/-- Every read goes to the input endpoint, as often as it is read. -/
theorem confined_receiveUntil (a : Adapter) (e : Usb.Endpoint) (patience deadline : Nat) :
    Confined h .notes (Exchange.IsRead a.device) (a.receiveUntil h e patience deadline) := by
  intro s
  have step (s s' : υ) (length remaining : Nat) (answer : Except Usb.Fault (List UInt8))
      (read : h.transfer a.device (.bulkIn e.address length remaining) (h.clock s).2
        = (answer, s')) :
      h.Went s [.transfer a.device (.bulkIn e.address length remaining) answer] s' :=
    .clock (.transfer read (.nil _))
  have isRead (length remaining : Nat) (answer : Except Usb.Fault (List UInt8)) :
      Exchange.IsRead a.device
        (.transfer a.device (.bulkIn e.address length remaining) answer) := rfl
  have one (length remaining : Nat) (answer : Except Usb.Fault (List UInt8)) :
      ∀ x ∈ [Exchange.transfer a.device (.bulkIn e.address length remaining) answer],
        x.IsRead a.device := List.forall_mem_singleton.mpr (isRead length remaining answer)
  -- a read that is passed over, before the rest of the wait
  have onward {s s' s'' : υ} {length remaining : Nat} {answer : Except Usb.Fault (List UInt8)}
      {log : List Note} (read : h.transfer a.device (.bulkIn e.address length remaining)
        (h.clock s).2 = (answer, s'))
      (rest : ∃ xs, h.Went s' xs s'' ∧ log.filterMap Note.access? = xs.map Exchange.access ∧
        ∀ x ∈ xs, x.IsRead a.device) :
      ∃ xs, h.Went s xs s'' ∧
        ((.usb a.device (.transfer (.bulkIn e.address length remaining))) :: log).filterMap
          Note.access? = xs.map Exchange.access ∧ ∀ x ∈ xs, x.IsRead a.device := by
    obtain ⟨xs, went, shown, inside⟩ := rest
    exact ⟨_ :: xs, (step s s' _ _ _ read).append went, congrArg (_ :: ·) shown,
      List.forall_mem_cons.mpr ⟨isRead _ _ _, inside⟩⟩
  fun_induction receiveUntil h a e patience deadline s with
  | case1 s => exact ⟨[], .clock (.nil _), rfl, List.forall_mem_nil _⟩
  | case2 s => exact ⟨[], .clock (.nil _), rfl, List.forall_mem_nil _⟩
  | case3 s length remaining _ _ note s' read result s'' log rest ih =>
    rw [rest] at ih
    exact onward read ih
  | case4 s length remaining _ _ note fault s' _ read =>
    exact ⟨_, step s s' _ _ _ read, rfl, one _ _ _⟩
  | case5 s length remaining _ _ note data s' read failure decoded =>
    exact ⟨_, step s s' _ _ _ read, rfl, one _ _ _⟩
  | case6 s length remaining _ _ note data s' read f decoded =>
    exact ⟨_, step s s' _ _ _ read, rfl, one _ _ _⟩
  | case7 s length remaining _ _ note data s' read decoded result s'' log rest ih =>
    rw [rest] at ih
    exact onward read ih

theorem confined_receive (a : Adapter) (patience : Nat) :
    Confined h .notes (Exchange.IsRead a.device) (a.receive h patience) := by
  intro s
  unfold receive
  split
  · exact ⟨[], .nil _, rfl, List.forall_mem_nil _⟩
  · next e _ =>
    obtain ⟨xs, went, rest⟩ :=
      a.confined_receiveUntil (h := h) e patience ((h.clock s).1 + patience) (h.clock s).2
    exact ⟨xs, .clock went, rest⟩

/-- An adapter is listened to by reads only. -/
theorem listensWithin_transport (a : Adapter) :
    (a.transport h).ListensWithin h (Exchange.IsRead a.device) where
  receive := a.confined_receive
  clock _ := .clock (.nil _)

/-- An adapter is used by bulk transfers only. -/
theorem supports_confinement (a : Adapter) :
    (a.transport h).Supports (confinement h (Exchange.IsBulk a.device)) where
  send := a.confined_send
  await awaited patience :=
    (awaited.confined_await a.listensWithin_transport patience).mono fun _ _ reads x member =>
      (reads x member).isBulk

end Adapter

end CanDfu
