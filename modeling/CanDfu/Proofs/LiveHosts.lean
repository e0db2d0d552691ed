/-
  CanDfu.Proofs.LiveHosts

  Runs of the program on a live host, which can always bring one more read.  It is cut off after
  some reads: then its devices are gone.

    * `run_yields`, `program_yields` : a run that leaves reads over does not see where, and if every
      read takes some time, each run has exactly one outcome.

  So what is proved of runs on any host holds of runs on live ones: it is seen on a host that is cut
  off late enough.
-/
import CanDfu.Proofs.LiveBuses

namespace CanDfu

variable {υ : Type}

/-! ## Live hosts -/

namespace Usb

/-- A USB host that can always bring one more read. -/
structure LiveHost (υ : Type) where
  list : υ → Except String (List Ids)
  openDevice : Nat → υ → Except String (List Configuration) × υ
  claim : Nat → UInt8 → υ → Except String (List Endpoint) × υ
  transfer : Nat → Transfer → υ → Except Fault (List UInt8) × υ
  clock : υ → Nat × υ

namespace LiveHost

/-- A transfer while so many reads last; without them, the device is gone. -/
def lastingTransfer (h : LiveHost υ) (device : Nat) (t : Transfer) (s : Lasting υ) :
    Except Fault (List UInt8) × Lasting υ :=
  match t with
  | .bulkIn .. =>
    if s.left = 0 then (.error .disconnected, s)
    else ((h.transfer device t s.state).1, ⟨(h.transfer device t s.state).2, s.left - 1⟩)
  | _ => ((h.transfer device t s.state).1, { s with state := (h.transfer device t s.state).2 })

theorem lastingTransfer_of_none (h : LiveHost υ) (device : Nat) (endpoint : UInt8)
    (length patience : Nat) {s : Lasting υ} (nothing : s.left = 0) :
    h.lastingTransfer device (.bulkIn endpoint length patience) s = (.error .disconnected, s) :=
  if_pos nothing

theorem lastingTransfer_of_left (h : LiveHost υ) (device : Nat) (endpoint : UInt8)
    (length patience : Nat) {s : Lasting υ} (some_left : s.left ≠ 0) :
    h.lastingTransfer device (.bulkIn endpoint length patience) s
      = ((h.transfer device (.bulkIn endpoint length patience) s.state).1,
        ⟨(h.transfer device (.bulkIn endpoint length patience) s.state).2, s.left - 1⟩) :=
  if_neg some_left

/-- For a read to be answered, or cancelled, there is to be some left. -/
theorem left_of_lastingTransfer (h : LiveHost υ) {device : Nat} {endpoint : UInt8}
    {length patience : Nat} {s : Lasting υ}
    (answered : (h.lastingTransfer device (.bulkIn endpoint length patience) s).1
      ≠ .error .disconnected) : s.left ≠ 0 := by
  intro nothing
  rw [h.lastingTransfer_of_none device endpoint length patience nothing] at answered
  exact answered rfl

theorem fewer_lastingTransfer (h : LiveHost υ) (device : Nat) (endpoint : UInt8)
    (length patience : Nat) (s : Lasting υ)
    (answered : (h.lastingTransfer device (.bulkIn endpoint length patience) s).1
      ≠ .error .disconnected) :
    (h.lastingTransfer device (.bulkIn endpoint length patience) s).2.left < s.left := by
  have some_left := h.left_of_lastingTransfer answered
  rw [h.lastingTransfer_of_left device endpoint length patience some_left]
  exact Nat.sub_one_lt some_left

/-- The host while so many reads last. -/
def lasting (h : LiveHost υ) : Host (Lasting υ) where
  list s := h.list s.state
  openDevice device s :=
    ((h.openDevice device s.state).1, { s with state := (h.openDevice device s.state).2 })
  claim device interface s :=
    ((h.claim device interface s.state).1, { s with state := (h.claim device interface s.state).2 })
  transfer := h.lastingTransfer
  clock s := ((h.clock s.state).1, { s with state := (h.clock s.state).2 })
  backlog := Lasting.left
  backlog_clock _ := Nat.le_refl _
  backlog_read device endpoint length patience s data ok :=
    h.fewer_lastingTransfer device endpoint length patience s
      fun gone => nomatch ok.symm.trans gone
  backlog_cancelled device endpoint length patience s := by
    intro now after cancelled
    exact .inl (h.fewer_lastingTransfer device endpoint length patience now.2
      fun gone => nomatch cancelled.symm.trans gone)

/-- A clock that moves on: it is not set back when it is read, and shows a later time when a read is
over. -/
structure MovesOn (h : LiveHost υ) : Prop where
  read : ∀ s, (h.clock s).1 ≤ (h.clock (h.clock s).2).1
  transferred : ∀ device endpoint length patience s, (h.clock s).1
    < (h.clock (h.transfer device (.bulkIn endpoint length patience) (h.clock s).2).2).1

end LiveHost

end Usb

/-! ## Reads, step by step -/

namespace Adapter

/-- A wait for a frame until a deadline, as a routine. -/
def listen (h : Usb.Host υ) (a : Adapter) (e : Usb.Endpoint) (patience deadline : Nat) :
    Routine Note υ TransportError Frame :=
  receiveUntil h a e patience deadline

/-- What a wait for a frame does with the data of a read. -/
def digest (h : Usb.Host υ) (a : Adapter) (e : Usb.Endpoint) (patience deadline : Nat) :
    Except TransportError (Option Frame) → Routine Note υ TransportError Frame
  | .error failure => Routine.fail failure
  | .ok (some f) => do
    Routine.emit (.record ⟨.trace, "RX", [("frame", f.text)]⟩)
    pure f
  | .ok none => do
    Routine.emit (.record ⟨.trace, "Dropped TX echo", []⟩)
    a.listen h e patience deadline

/-- What a wait for a frame does with what came of a read. -/
def conclude (h : Usb.Host υ) (a : Adapter) (e : Usb.Endpoint) (patience deadline : Nat) :
    Except Usb.Fault (List UInt8) → Routine Note υ TransportError Frame
  | .error .cancelled => a.listen h e patience deadline
  | .error fault => Routine.fail (.readFailed fault.message)
  | .ok data => a.digest h e patience deadline (HostFrame.decode data)

/-- A wait for a frame is a reading of the clock, a read, and the rest of the wait. -/
theorem listen_eq (h : Usb.Host υ) (a : Adapter) (e : Usb.Endpoint) (patience deadline : Nat) :
    a.listen h e patience deadline = (a.transport h).now >>= fun now =>
      let length := max e.maxPacket HostFrame.size
      if deadline - now = 0 then Routine.fail (.timeout (wholeMillis patience))
      else if length % e.maxPacket ≠ 0 then
        Routine.fail (.readFailed Usb.Fault.invalidArgument.message)
      else
        (transfer h a.device (.bulkIn e.address length (deadline - now))).attempt >>=
          a.conclude h e patience deadline := by
  funext s
  have asked (t : Usb.Transfer) {answer : Except Usb.Fault (List UInt8)} {s' : υ}
      (answered : h.transfer a.device t (h.clock s).2 = (answer, s')) :
      ((transfer h a.device t).attempt : Routine Note υ TransportError _) (h.clock s).2
        = ⟨.ok answer, s', [.usb a.device (.transfer t)]⟩ := by
    unfold Routine.attempt transfer
    rw [answered]
  have clock : (a.transport h).clock = h.clock := rfl
  rw [Transport.now_bind_apply, clock, listen, receiveUntil]
  dsimp only
  split
  · rfl
  split
  · rfl
  split
  · next s' answered =>
    rw [Routine.bind_of_ok (asked _ answered)]
    rfl
  · next fault s' other answered =>
    have concluded : a.conclude h e patience deadline (.error fault)
        = Routine.fail (.readFailed fault.message) := by
      cases fault with
      | cancelled => exact absurd rfl other
      | _ => rfl
    rw [Routine.bind_of_ok (asked _ answered), concluded]
    rfl
  · next data s' answered =>
    rw [Routine.bind_of_ok (asked _ answered)]
    dsimp only [conclude]
    cases HostFrame.decode data with
    | error failure => rfl
    | ok decoded =>
      cases decoded with
      | some f =>
        dsimp only [digest]
        rw [Routine.bind_of_ok (Routine.emit_apply _ s')]
        rfl
      | none =>
        dsimp only [digest]
        rw [Routine.bind_of_ok (Routine.emit_apply _ s')]
        rfl

/-! ## Adapters that are cut off -/

section

variable (h : Usb.LiveHost υ)

/-- A transfer of the live host, with its note. -/
def carried (device : Nat) (t : Usb.Transfer) : Routine Note υ Usb.Fault (List UInt8) :=
  fun s => ⟨(h.transfer device t s).1, (h.transfer device t s).2, [.usb device (.transfer t)]⟩

/-- Reads are counted. -/
theorem transfer_bulkIn (device : Nat) (endpoint : UInt8) (length patience : Nat) :
    transfer h.lasting device (.bulkIn endpoint length patience)
      = (carried h device (.bulkIn endpoint length patience)).counted .disconnected
        [.usb device (.transfer (.bulkIn endpoint length patience))] := by
  funext s
  by_cases nothing : s.left = 0
  · have gone : h.lasting.transfer device (.bulkIn endpoint length patience) s = _ :=
      h.lastingTransfer_of_none device endpoint length patience nothing
    rw [transfer, gone, Routine.counted_of_none nothing]
  · have taken : h.lasting.transfer device (.bulkIn endpoint length patience) s = _ :=
      h.lastingTransfer_of_left device endpoint length patience nothing
    rw [transfer, taken, Routine.counted_of_left nothing]
    rfl

theorem ending_transfer (device : Nat) (t : Usb.Transfer) :
    Ending .whole (transfer h.lasting device t) := by
  cases t with
  | bulkIn endpoint length patience =>
    rw [transfer_bulkIn]
    exact .counted _ _ _
  | controlOut request value interface data =>
    exact .kept (carried h device (.controlOut request value interface data))
  | controlIn request value interface length =>
    exact .kept (carried h device (.controlIn request value interface length))
  | bulkOut endpoint data => exact .kept (carried h device (.bulkOut endpoint data))

theorem ending_opened (device : Nat) : Ending .whole (openAt.opened h.lasting device) :=
  Ending.kept fun s => (⟨(h.openDevice device s).1.mapError fun text => .refused (.openFailed text),
    (h.openDevice device s).2, [.usb device .opened]⟩ : Outcome Note υ OpenFailure _)

theorem ending_claimed (device : Nat) : Ending .whole (openAt.claimed h.lasting device) :=
  Ending.kept fun s =>
    (⟨(h.claim device interface s).1.mapError fun text => .refused (.claimFailed interface text),
      (h.claim device interface s).2, [.usb device (.claimed interface)]⟩ :
        Outcome Note υ OpenFailure _)

theorem clocked_transport (a : Adapter) : (a.transport h.lasting).Clocked where
  clock _ _ := rfl
  left _ := rfl

theorem steady_listen (a : Adapter) (e : Usb.Endpoint) (patience deadline : Nat) :
    Steady .whole (a.listen h.lasting e patience deadline) := by
  intro s
  -- the induction is on the reads that are left; the last one breaks down
  induction held : s.left using Nat.strongRecOn generalizing s with
  | ind n ih =>
    rw [listen_eq]
    refine ((a.clocked_transport h).now.steady s).bind fun now read => ?_
    dsimp only
    split
    · exact Steady.ofExcept (.error _) _
    split
    · exact Steady.ofExcept (.error _) _
    refine ((ending_transfer h _ _).steady.attempt _).bind fun answer got => ?_
    have onward (present : answer ≠ .error .disconnected) := ih _ (held ▸
      h.fewer_lastingTransfer a.device e.address _ _ _ ((Except.ok.inj got) ▸ present)) _ rfl
    cases answer with
    | error fault =>
      cases fault with
      | cancelled => exact onward nofun
      | _ => exact Steady.ofExcept (.error _) _
    | ok data =>
      dsimp only [conclude]
      cases HostFrame.decode data with
      | error failure => exact Steady.ofExcept (.error _) _
      | ok decoded =>
        cases decoded with
        | some f => exact (Steady.emit _ _).bind fun _ _ => Steady.ofExcept (.ok _) _
        | none => exact (Steady.emit _ _).bind fun _ _ => onward nofun

variable {h} (time : h.MovesOn)
include time

/-- A read that is answered, or cancelled, takes some time. -/
theorem later_transfer {device : Nat} {endpoint : UInt8} {length patience : Nat}
    {s s' : Lasting υ} {answer : Except Usb.Fault (List UInt8)}
    (read : h.lasting.transfer device (.bulkIn endpoint length patience) (h.lasting.clock s).2
      = (answer, s')) (present : answer ≠ .error .disconnected) :
    (h.lasting.clock s).1 < (h.lasting.clock s').1 := by
  have some_left := h.left_of_lastingTransfer (s := (h.lasting.clock s).2) fun gone =>
    present ((congrArg Prod.fst read).symm.trans gone)
  have taken := h.lastingTransfer_of_left device endpoint length patience some_left
  obtain rfl : s' = _ := (congrArg Prod.snd (taken.symm.trans read)).symm
  exact time.transferred device endpoint length patience s.state

theorem ending_listen (a : Adapter) (e : Usb.Endpoint) (patience deadline : Nat) :
    Ending .whole (a.listen h.lasting e patience deadline) := by
  refine ⟨steady_listen h a e patience deadline, fun s => ?_⟩
  -- the induction is on the time that is left; with every read it gets less
  induction early : deadline - (h.lasting.clock s).1 using Nat.strongRecOn generalizing s with
  | ind n ih =>
    have clock := (a.clocked_transport h).now (ε := TransportError)
    rw [listen_eq]
    refine EndsAt.bind clock.steady (clock.ends s) fun k now read => ?_
    obtain rfl : (h.lasting.clock s).1 = now := Except.ok.inj read
    dsimp only
    by_cases reached : deadline - (h.lasting.clock s).1 = 0
    · rw [if_pos reached]
      exact (Ending.ofExcept (.error _)).ends _
    rw [if_neg reached]
    split
    · exact (Ending.ofExcept (.error _)).ends _
    have asked : Ending .whole ((transfer h.lasting a.device (.bulkIn e.address
        (max e.maxPacket HostFrame.size) (deadline - (h.lasting.clock s).1))).attempt :
          Routine Note (Lasting υ) TransportError (Except Usb.Fault (List UInt8))) :=
      (ending_transfer h _ _).attempt
    refine EndsAt.bind asked.steady (asked.ends _) fun j answer got => ?_
    have onward (present : answer ≠ .error .disconnected) (i : Nat) :
        EndsAt .whole (a.listen h.lasting e patience deadline) (Place.whole.more i
          (transfer h.lasting a.device (.bulkIn e.address (max e.maxPacket HostFrame.size)
            (deadline - (h.lasting.clock s).1))
            (h.lasting.clock ((s.more k).more j)).2).state) := by
      refine ih _ ?_ _ rfl
      have later : (h.lasting.clock s).1 < _ :=
        later_transfer time (s := (s.more k).more j) rfl ((Except.ok.inj got).symm ▸ present)
      exact early ▸ Nat.sub_lt_sub_left (Nat.lt_of_sub_ne_zero reached) later
    cases answer with
    | error fault =>
      cases fault with
      | cancelled => exact onward nofun 0
      | _ => exact (Ending.ofExcept (.error _)).ends _
    | ok data =>
      dsimp only [conclude]
      cases HostFrame.decode data with
      | error failure => exact (Ending.ofExcept (.error _)).ends _
      | ok decoded =>
        cases decoded with
        | some f =>
          exact EndsAt.bind (Steady.emit _) ((Ending.emit _).ends _) fun _ _ _ =>
            (Ending.ofExcept (.ok _)).ends _
        | none =>
          exact EndsAt.bind (Steady.emit _) ((Ending.emit _).ends _) fun i _ _ =>
            onward nofun i

/-- By the time a frame has come, some time has gone by. -/
theorem later_receiveUntil (a : Adapter) (e : Usb.Endpoint) (patience deadline : Nat)
    (s : Lasting υ) (f : Frame)
    (ok : (a.receiveUntil h.lasting e patience deadline s).result = .ok f) :
    (h.lasting.clock s).1
      < (h.lasting.clock (a.receiveUntil h.lasting e patience deadline s).state).1 := by
  fun_induction receiveUntil h.lasting a e patience deadline s with
  | case1 => cases ok
  | case2 => cases ok
  | case3 s length remaining _ _ note s' read result s'' log rest ih =>
    rw [rest] at ih
    exact Nat.lt_trans (later_transfer time read nofun) (ih ok)
  | case4 => cases ok
  | case5 => cases ok
  | case6 s length remaining _ _ note data s' read => exact later_transfer time read nofun
  | case7 s length remaining _ _ note data s' read decoded result s'' log rest ih =>
    rw [rest] at ih
    exact Nat.lt_trans (later_transfer time read nofun) (ih ok)

theorem later_receive (a : Adapter) (patience : Nat) (s : Lasting υ) (f : Frame)
    (ok : (a.receive h.lasting patience (h.lasting.clock s).2).result = .ok f) :
    (h.lasting.clock s).1
      < (h.lasting.clock (a.receive h.lasting patience (h.lasting.clock s).2).state).1 := by
  unfold receive at ok ⊢
  split at ok
  · cases ok
  · have later := later_receiveUntil time a _ _ _ _ f ok
    have once := time.read s.state
    have twice := time.read (h.clock s.state).2
    exact Nat.lt_of_le_of_lt (Nat.le_trans once twice) later

end

/-- A receive is a reading of the clock and a wait for a frame. -/
theorem receive_eq (h : Usb.Host υ) (a : Adapter) (patience : Nat) :
    a.receive h patience = match a.bulkEndpoint a.input with
      | .error text => Routine.fail (.readFailed text)
      | .ok e => (a.transport h).now >>= fun now => a.listen h e patience (now + patience) := by
  funext s
  unfold receive
  cases a.bulkEndpoint a.input with
  | error text => rfl
  | ok e =>
    dsimp only
    rw [Transport.now_bind_apply]
    rfl

theorem isSteady_transport (h : Usb.LiveHost υ) (a : Adapter) :
    (a.transport h.lasting).IsSteady where
  toClocked := a.clocked_transport h
  send := holds_send (P := steadiness υ) (fun _ _ => (ending_transfer h _ _).steady) a
  receive patience := by
    show Steady .whole (a.receive h.lasting patience)
    rw [receive_eq]
    cases a.bulkEndpoint a.input with
    | error text => exact Steady.ofExcept (.error _)
    | ok e =>
      exact (steadiness υ).bind (L := .notes) (a.clocked_transport h).now.steady fun now =>
        steady_listen h a e patience _

theorem isEnding_transport {h : Usb.LiveHost υ} (time : h.MovesOn) (a : Adapter) :
    (a.transport h.lasting).IsEnding where
  toIsSteady := a.isSteady_transport h
  ends_send f := (holds_send (P := finiteness υ) (ending_transfer h) a f).ends
  ends_receive patience := by
    show ∀ s, EndsAt .whole (a.receive h.lasting patience) s
    rw [receive_eq]
    cases a.bulkEndpoint a.input with
    | error text => exact (Ending.ofExcept (.error _)).ends
    | ok e =>
      have waits := (finiteness υ).bind (L := .notes) (a.clocked_transport h).now fun now =>
        ending_listen time a e patience (now + patience)
      exact waits.ends
  time := ⟨fun s => time.read s.state, later_receive time a⟩

end Adapter

/-! ## Runs of the program -/

namespace Usb.LiveHost

theorem supports_steadiness (h : LiveHost υ) : h.lasting.Supports (steadiness υ) where
  opened device := (Adapter.ending_opened h device).steady
  claimed device := (Adapter.ending_claimed h device).steady
  transfer device t := (Adapter.ending_transfer h device t).steady
  released _ := Steady.emit _
  listed same rest := Steady.get_bind (fun _ _ => same _ _ rfl) rest
  await a := (a.isSteady_transport h).supports.await

theorem supports_finiteness {h : LiveHost υ} (time : h.MovesOn) :
    h.lasting.Supports (finiteness υ) where
  opened device := Adapter.ending_opened h device
  claimed device := Adapter.ending_claimed h device
  transfer device t := Adapter.ending_transfer h device t
  released _ := Ending.emit _
  listed same rest := Ending.get_bind (fun _ _ => same _ _ rfl) rest
  await a := (Adapter.isEnding_transport time a).supports.await

/-- A run on a live host does not see where the host is cut off: if it leaves reads over, it does
the same with more of them.  If every read takes some time, it has exactly one outcome, whatever
the traffic and whatever the host answers. -/
theorem run_yields (h : LiveHost υ) (files : Files) (a : Cli.Args) (limit : Nat) (s : υ) :
    let run := Cli.run h.lasting files a limit
    (∀ n, let o := run ⟨s, n⟩
      0 < o.state.left → ∀ k, run ⟨s, n + k⟩ = ⟨o.result, o.state.more k, o.log⟩) ∧
    (h.MovesOn → ∃ o, run.Yields s o ∧ ∀ o', run.Yields s o' → o' = o) := by
  constructor
  · intro n o spare k
    have steady := Cli.holds_run h.supports_steadiness files a limit
    exact (steady ⟨s, n⟩).same spare k
  · intro time
    have ending := Cli.holds_run (supports_finiteness time) files a limit
    exact Ending.exists_yields ending s

/-- A host with one adapter that starts, on a bus where frames of another node come without end,
one in each millisecond.  The state is the time. -/
def busy : LiveHost Nat where
  list _ := .ok [⟨0x1D50, 0x606F⟩]
  openDevice _ now := (.ok [⟨1, [⟨0, 0, [⟨0x81, .bulk, 64⟩, ⟨2, .bulk, 64⟩]⟩]⟩], now)
  claim _ _ now := (.ok [⟨0x81, .bulk, 64⟩, ⟨2, .bulk, 64⟩], now)
  transfer _ t now :=
    match t with
    | .bulkIn .. => (.ok (LittleEndian.bytes HostFrame.receivedEcho
        ++ (HostFrame.encode otherFrame 0).drop 4), now + 1000000)
    | .controlIn .. => (.ok [0, 0, 0, 0, 0, 0x6C, 0xDC, 2, 1, 0, 0, 0, 0x10, 0, 0, 0, 1, 0, 0, 0,
        8, 0, 0, 0, 4, 0, 0, 0, 1, 0, 0, 0, 0, 4, 0, 0, 1, 0, 0, 0], now)
    | _ => (.ok [], now)
  clock now := (now, now)

/-- Frames of another node without end do not keep a run from its end, however many attempts a
recovery may make there. -/
theorem run_yields_busy (files : Files) (a : Cli.Args) (limit : Nat) :
    let run := Cli.run busy.lasting files a limit
    ∃ o, run.Yields 0 o ∧ ∀ o', run.Yields 0 o' → o' = o := by
  have time : busy.MovesOn := {
    read := fun now => Nat.le_refl now
    transferred := fun _ _ _ _ now => Nat.lt_add_of_pos_right (by decide) }
  exact (busy.run_yields files a limit 0).2 time

/-- Two runs with the same result and the same log end the program in the same way. -/
theorem program_eq {σ : Type} {h : Host σ} {files : Files} {a : Cli.Args} {limit : Nat} {s u : σ}
    (result : (Cli.run h files a limit u).result = (Cli.run h files a limit s).result)
    (log : (Cli.run h files a limit u).log = (Cli.run h files a limit s).log) :
    Cli.program h files a limit u = ⟨(Cli.program h files a limit s).status,
      (Cli.program h files a limit s).lines, (Cli.run h files a limit u).state⟩ := by
  unfold Cli.program
  cases ran : Cli.run h files a limit s with
  | mk x s' entries =>
    cases ran' : Cli.run h files a limit u with
    | mk x' u' entries' =>
      rw [ran, ran'] at result log
      obtain rfl : x' = x := result
      obtain rfl : entries' = entries := log
      cases x' with
      | ok _ => rfl
      | error e => cases e <;> rfl

/-- So is the end of the program, its status and all its lines, the same wherever the host is cut
off. -/
theorem program_yields (h : LiveHost υ) (files : Files) (a : Cli.Args) (limit : Nat) (s : υ) :
    let program := Cli.program h.lasting files a limit
    (∀ n, let ended := program ⟨s, n⟩
      0 < ended.host.left →
        ∀ k, program ⟨s, n + k⟩ = ⟨ended.status, ended.lines, ended.host.more k⟩) ∧
    (h.MovesOn → ∃ (n left : Nat) (ended : Cli.Finished υ), ∀ k,
      program ⟨s, n + k⟩ = ⟨ended.status, ended.lines, ⟨ended.host, left + k⟩⟩) := by
  obtain ⟨same, one⟩ := h.run_yields files a limit s
  constructor
  · intro n ended spare k
    have host : ended.host = (Cli.run h.lasting files a limit ⟨s, n⟩).state :=
      congrArg Cli.Finished.host (program_eq rfl rfl)
    rw [host] at spare
    have again := same n spare k
    have result : (Cli.run h.lasting files a limit ⟨s, n + k⟩).result
        = (Cli.run h.lasting files a limit ⟨s, n⟩).result := by rw [again]
    have log : (Cli.run h.lasting files a limit ⟨s, n + k⟩).log
        = (Cli.run h.lasting files a limit ⟨s, n⟩).log := by rw [again]
    rw [host, program_eq result log, again]
  · intro time
    obtain ⟨o, ⟨n, left, yields⟩, -⟩ := one time
    have result (k : Nat) : (Cli.run h.lasting files a limit ⟨s, n + k⟩).result = o.result :=
      congrArg Outcome.result (yields k)
    have log (k : Nat) : (Cli.run h.lasting files a limit ⟨s, n + k⟩).log = o.log :=
      congrArg Outcome.log (yields k)
    let ended := Cli.program h.lasting files a limit ⟨s, n + 0⟩
    refine ⟨n, left, ⟨ended.status, ended.lines, o.state⟩, fun k => ?_⟩
    rw [program_eq ((result k).trans (result 0).symm) ((log k).trans (log 0).symm), yields]

end Usb.LiveHost

end CanDfu
