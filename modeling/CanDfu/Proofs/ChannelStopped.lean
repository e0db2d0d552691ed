/-
  CanDfu.Proofs.ChannelStopped

  No adapter is left with its channel running.  What a run of the program exchanges with the host
  falls into attempts, one behind the other, and each attempt that asked an adapter for anything
  ends by stopping its channel:

    open, claim        nothing more if one of them fails, or if an endpoint is missing
    start up           byte order, timing limits, bit timing, channel on: up to the first failure
    use                bulk transfers; none unless the channel is on
    channel off        once
    release

  `StartsUp` and `Attempt` say this of exchanges with their answers, so what counts as a failure is
  what the host answered.  The vendor requests are spelled out, number and data.
-/
import CanDfu.Proofs.BulkTransfers

namespace CanDfu

/-! ## Vendor requests -/

namespace Exchange

/-- Request 0, for a byte order. -/
def byteOrder (device : Nat) (answer : Except Usb.Fault (List UInt8)) : Exchange :=
  .transfer device (.controlOut 0 1 0 [0xEF, 0xBE, 0, 0]) answer

/-- Request 4, for the timing limits. -/
def timingLimits (device : Nat) (answer : Except Usb.Fault (List UInt8)) : Exchange :=
  .transfer device (.controlIn 4 0 0 40) answer

/-- Request 1, for a bit timing. -/
def bitTiming (device : Nat) (timing : BitTiming) (answer : Except Usb.Fault (List UInt8)) :
    Exchange :=
  .transfer device (.controlOut 1 0 0 timing.toBytes) answer

/-- Request 2, to switch the channel on or off. -/
def switching (device : Nat) (on : Bool) (answer : Except Usb.Fault (List UInt8)) : Exchange :=
  .transfer device (.controlOut 2 0 0 [if on then 1 else 0, 0, 0, 0, 0, 0, 0, 0]) answer

/-- Whether an exchange is a control request. -/
def isControl : Exchange → Bool
  | transfer _ (.controlOut ..) _ | transfer _ (.controlIn ..) _ => true
  | _ => false

theorem not_isControl_of_isBulk {device : Nat} {x : Exchange} (bulk : x.IsBulk device) :
    x.isControl = false := by
  cases x with
  | opened | claimed | released => rfl
  | transfer d t answer =>
    cases t with
    | bulkOut | bulkIn => rfl
    | controlOut | controlIn => cases bulk

end Exchange

/-- The control requests among exchanges. -/
def controls (xs : List Exchange) : List Exchange := xs.filter Exchange.isControl

/-- The requests that start a channel at a bit rate, up to the first that fails, and whether all of
them were accepted.  The timing is one for the limits that were answered; without one it is not
sent. -/
inductive StartsUp (device : Nat) (bitrate : UInt32) : List Exchange → Bool → Prop
  | byteOrderRefused {fault : Usb.Fault} :
      StartsUp device bitrate [.byteOrder device (.error fault)] false
  | limitsRefused {done : List UInt8} {fault : Usb.Fault} :
      StartsUp device bitrate [.byteOrder device (.ok done), .timingLimits device (.error fault)]
        false
  | unreachable {done answer : List UInt8}
      (without : ∀ limits timing, TimingLimits.ofBytes answer = .ok limits →
        BitTiming.forBitrate limits bitrate ≠ .ok timing) :
      StartsUp device bitrate [.byteOrder device (.ok done), .timingLimits device (.ok answer)]
        false
  | timingRefused {done answer : List UInt8} {limits : TimingLimits} {timing : BitTiming}
      {fault : Usb.Fault} (read : TimingLimits.ofBytes answer = .ok limits)
      (found : BitTiming.forBitrate limits bitrate = .ok timing) :
      StartsUp device bitrate [.byteOrder device (.ok done), .timingLimits device (.ok answer),
        .bitTiming device timing (.error fault)] false
  | startRefused {done answer timed : List UInt8} {limits : TimingLimits} {timing : BitTiming}
      {fault : Usb.Fault} (read : TimingLimits.ofBytes answer = .ok limits)
      (found : BitTiming.forBitrate limits bitrate = .ok timing) :
      StartsUp device bitrate [.byteOrder device (.ok done), .timingLimits device (.ok answer),
        .bitTiming device timing (.ok timed), .switching device true (.error fault)] false
  | started {done answer timed switched : List UInt8} {limits : TimingLimits} {timing : BitTiming}
      (read : TimingLimits.ofBytes answer = .ok limits)
      (found : BitTiming.forBitrate limits bitrate = .ok timing) :
      StartsUp device bitrate [.byteOrder device (.ok done), .timingLimits device (.ok answer),
        .bitTiming device timing (.ok timed), .switching device true (.ok switched)] true

/-- Everything an attempt to open and use an adapter exchanges with the host. -/
inductive Attempt (bitrate : UInt32) : List Exchange → Prop
  | absent : Attempt bitrate []
  | unopened {device : Nat} {text : String} : Attempt bitrate [.opened device (.error text)]
  | unclaimed {device : Nat} {configurations : List Usb.Configuration} {text : String} :
      Attempt bitrate [.opened device (.ok configurations),
        .claimed device Adapter.interface (.error text)]
  | endpointMissing {device : Nat} {configurations : List Usb.Configuration}
      {endpoints : List Usb.Endpoint} :
      Attempt bitrate [.opened device (.ok configurations),
        .claimed device Adapter.interface (.ok endpoints), .released device Adapter.interface]
  | stopped {device : Nat} {configurations : List Usb.Configuration}
      {endpoints : List Usb.Endpoint} {startup used : List Exchange} {started : Bool}
      {answer : Except Usb.Fault (List UInt8)} (start : StartsUp device bitrate startup started)
      (bulk : ∀ x ∈ used, x.IsBulk device) (unused : started = false → used = []) :
      Attempt bitrate (.opened device (.ok configurations) ::
        .claimed device Adapter.interface (.ok endpoints) ::
          (startup ++ (used ++ [.switching device false answer,
            .released device Adapter.interface])))

theorem StartsUp.controls_eq {device : Nat} {bitrate : UInt32} {startup : List Exchange}
    {started : Bool} (start : StartsUp device bitrate startup started) :
    controls startup = startup := by
  cases start <;> rfl

theorem StartsUp.written_eq {device : Nat} {bitrate : UInt32} {startup : List Exchange}
    {started : Bool} (start : StartsUp device bitrate startup started) :
    Exchange.written startup = [] := by
  cases start <;> rfl

/-- An attempt that makes any control request starts up as far as it gets, and then stops the
channel once, as the last of its control requests. -/
theorem Attempt.controls_eq {bitrate : UInt32} {xs : List Exchange} (attempt : Attempt bitrate xs) :
    controls xs = [] ∨ ∃ device startup started answer,
      StartsUp device bitrate startup started ∧
        controls xs = startup ++ [.switching device false answer] := by
  cases attempt with
  | absent | unopened | unclaimed | endpointMissing => exact .inl rfl
  | @stopped device _ _ startup used started answer start bulk =>
    have none : controls used = [] := List.filter_eq_nil_iff.mpr fun x hx => by
      rw [Exchange.not_isControl_of_isBulk (bulk x hx)]
      exact Bool.false_ne_true
    refine .inr ⟨device, startup, started, answer, start, ?_⟩
    show controls (startup ++ (used ++ _)) = _
    unfold controls at none ⊢
    rw [List.filter_append, List.filter_append, none]
    exact congrArg (· ++ _) start.controls_eq

/-! ## Opening an adapter -/

/-- One request was made; a value is read from the answer to it, and a failure comes of none. -/
inductive Asked {φ β ε α : Type} (request : Except φ β → Exchange) (value : β → α) :
    List Exchange → Except ε α → Prop
  | refused (fault : φ) (e : ε) : Asked request value [request (.error fault)] (.error e)
  | answered (answer : β) : Asked request value [request (.ok answer)] (.ok (value answer))

namespace Adapter

variable {υ ε α : Type} {h : Usb.Host υ}

/-- A failure under another name is still one that comes of a refused request. -/
theorem exchanging_asked {ε' φ β : Type} {r : Routine Note υ ε α}
    {request : Except φ β → Exchange} {value : β → α}
    (asked : Exchanging h .notes r (Asked request value)) (f : ε → ε') :
    Exchanging h .notes (r.mapError f) (Asked request value) := by
  refine asked.mapError fun xs x described => ?_
  cases described with
  | refused fault e => exact .refused fault (f e)
  | answered bytes => exact .answered bytes

/-- A transfer is a request whose answer is the value. -/
theorem exchanging_transfer_asked (device : Nat) (t : Usb.Transfer) :
    Exchanging h .notes (transfer h device t)
      (Asked (fun answer => .transfer device t answer) fun bytes => bytes) := by
  refine exchanging_transfer fun answer => ?_
  cases answer with
  | error fault => exact .refused fault fault
  | ok bytes => exact .answered bytes

theorem exchanging_controlOut (a : Adapter) (r : Request) (value : UInt16) (data : List UInt8) :
    Exchanging h .notes (controlOut h a r value data)
      (Asked (fun answer =>
        .transfer a.device (.controlOut r.code value interface.toUInt16 data) answer)
        fun _ => ()) := by
  unfold controlOut
  refine (exchanging_asked (exchanging_transfer_asked a.device _) _).bind ?_ ?_
  · intro xs e described
    cases described with
    | refused fault e => exact .refused fault e
  · intro xs bytes described
    cases described with
    | answered bytes => exact .pure (.answered bytes)

theorem exchanging_controlIn (a : Adapter) (r : Request) (value : UInt16) (length : Nat) :
    Exchanging h .notes (controlIn h a r value length)
      (Asked (fun answer =>
        .transfer a.device (.controlIn r.code value interface.toUInt16 length) answer)
        fun bytes => bytes) :=
  exchanging_asked (exchanging_transfer_asked a.device _) _

/-- Starting a channel makes the requests in order, and ends at the first that fails. -/
theorem exchanging_start (a : Adapter) (bitrate : UInt32) :
    Exchanging h .notes (start h a bitrate)
      fun xs x => StartsUp a.device bitrate xs x.isOk := by
  unfold start
  refine (exchanging_asked (a.exchanging_controlOut .hostFormat 1 _) _).bind ?_ ?_
  · intro xs e described
    cases described with
    | refused => exact .byteOrderRefused
  intro _ _ described
  cases described with | answered done => ?_
  refine (exchanging_asked (a.exchanging_controlIn .timingLimits _ _) _).bind ?_ ?_
  · intro xs e described
    cases described with
    | refused => exact .limitsRefused
  intro _ answer described
  cases described with | answered => ?_
  -- the answer may be too short, or have no timing for the bit rate
  refine Exchanging.ofExcept_bind ?_ fun limits read => ?_
  · intro e failed
    refine .unreachable fun limits timing read => ?_
    rw [failed] at read
    cases read
  refine Exchanging.ofExcept_bind ?_ fun timing found => ?_
  · intro e failed
    refine .unreachable fun limits' timing read' found => ?_
    cases read.symm.trans read'
    rw [failed] at found
    cases found
  refine Exchanging.emit_bind rfl ?_
  refine (exchanging_asked (a.exchanging_controlOut .bitTiming _ _) _).bind ?_ ?_
  · intro xs e described
    cases described with
    | refused => exact .timingRefused read found
  intro _ _ described
  cases described with | answered timed => ?_
  refine (exchanging_asked (a.exchanging_controlOut .mode _ _) _).mono ?_
  intro xs x described
  cases described with
  | refused => exact .startRefused read found
  | answered => exact .started read found

theorem exchanging_release (device : Nat) :
    Exchanging h .notes (release device : Routine Note υ ε Unit) fun xs x =>
      xs = [.released device interface] ∧ x = .ok () :=
  fun s => ⟨_, .released (.nil s), rfl, rfl, rfl⟩

/-- Closing stops the channel and releases the interface. -/
theorem exchanging_close (a : Adapter) :
    Exchanging h .notes (close h a : Routine Note υ ε Unit) fun xs x =>
      x = .ok () ∧ ∃ answer, xs = [.switching a.device false answer, .released a.device interface]
    := by
  have rest (answer : Except Usb.Fault (List UInt8)) :
      Exchanging h .notes (release a.device : Routine Note υ ε Unit) fun xs x =>
        x = .ok () ∧ ∃ answer', [.switching a.device false answer] ++ xs
          = [.switching a.device false answer', .released a.device interface] := by
    refine (exchanging_release a.device).mono fun xs x described => ⟨described.2, answer, ?_⟩
    rw [described.1]
    rfl
  unfold close
  refine (a.exchanging_controlOut .mode _ _).attempt_bind fun xs x described => ?_
  cases described with
  | refused fault e => exact Exchanging.emit_bind rfl (rest (.error fault))
  | answered bytes => exact Exchanging.pure_bind (rest (.ok bytes))

/-- What the opening of an adapter exchanges: a failure is a whole attempt, and an adapter that was
opened is left with its channel on. -/
inductive Opening (bitrate : UInt32) : List Exchange → Except OpenFailure Adapter → Prop
  | failed {xs : List Exchange} {e : OpenFailure} (attempt : Attempt bitrate xs)
      (unused : Exchange.written xs = []) : Opening bitrate xs (.error e)
  | opened {a : Adapter} {configurations : List Usb.Configuration} {endpoints : List Usb.Endpoint}
      {startup : List Exchange} (start : StartsUp a.device bitrate startup true) :
      Opening bitrate (.opened a.device (.ok configurations) ::
        .claimed a.device interface (.ok endpoints) :: startup) (.ok a)

theorem exchanging_opened (device : Nat) :
    Exchanging h .notes (openAt.opened h device)
      (Asked (fun answer => .opened device answer) fun configurations => configurations) := by
  intro s
  refine ⟨[.opened device (h.openDevice device s).1], .opened rfl (.nil _), rfl, ?_⟩
  unfold openAt.opened
  cases h.openDevice device s with
  | mk answer s' =>
    cases answer with
    | error text => exact .refused _ _
    | ok configurations => exact .answered _

theorem exchanging_claimed (device : Nat) :
    Exchanging h .notes (openAt.claimed h device)
      (Asked (fun answer => .claimed device interface answer) fun endpoints => endpoints) := by
  intro s
  refine ⟨[.claimed device interface (h.claim device interface s).1], .claimed rfl (.nil _), rfl,
    ?_⟩
  unfold openAt.claimed
  cases h.claim device interface s with
  | mk answer s' =>
    cases answer with
    | error text => exact .refused _ _
    | ok configurations => exact .answered _

/-- An adapter whose interface is claimed is started, and stopped again if that fails. -/
theorem exchanging_starting (a : Adapter) (bitrate : UInt32) (fields : List (String × String))
    (configurations : List Usb.Configuration) (endpoints : List Usb.Endpoint) :
    Exchanging h .notes
      (do
        match ← (start h a bitrate).attempt with
        | .error e => do
          close h a
          Routine.fail e
        | .ok () => do
          record .info "CAN channel started" fields
          pure a)
      fun xs x => Opening bitrate (.opened a.device (.ok configurations) ::
        .claimed a.device interface (.ok endpoints) :: xs) x := by
  refine (a.exchanging_start bitrate).attempt_bind fun xs result start => ?_
  -- the stop belongs to the attempt only if starting failed; else it is owed when the use is over
  cases result with
  | ok =>
    refine Exchanging.emit_bind rfl (.pure ?_)
    rw [List.append_nil]
    exact .opened start
  | error e =>
    refine a.exchanging_close.bind ?_ ?_
    · rintro ys e' ⟨impossible, -⟩
      cases impossible
    · rintro _ _ ⟨-, answer, rfl⟩
      have unused : ∀ x ∈ ([] : List Exchange), x.IsBulk a.device := List.forall_mem_nil _
      refine .fail (.failed (.stopped start unused fun _ => rfl) ?_)
      have silent := start.written_eq
      show Exchange.written (xs ++ [_, _]) = []
      rw [Exchange.written_append, silent]
      rfl

/-- Opening an adapter ends with its channel on, or with a whole attempt. -/
theorem exchanging_openAt (index : Nat) (bitrate : UInt32) :
    Exchanging h .notes (openAt h index bitrate) (Opening bitrate) := by
  unfold openAt
  refine Exchanging.get_bind fun s => Exchanging.ofExcept_bind ?_ fun list listed => ?_
  · intro e failed
    exact .failed .absent rfl
  split
  · exact .fail (.failed .absent rfl)
  next ids device found =>
  refine Exchanging.emit_bind rfl ?_
  refine (exchanging_opened device).bind ?_ ?_
  · intro xs e described
    cases described with
    | refused => exact .failed .unopened rfl
  intro _ configurations described
  cases described with | answered => ?_
  refine (exchanging_claimed device).bind ?_ ?_
  · intro xs e described
    cases described with
    | refused => exact .failed .unclaimed rfl
  intro _ endpoints described
  cases described with | answered => ?_
  -- without both endpoints the channel was not touched, so there is nothing to stop
  have missing (e : OpenFailure) : Exchanging h .notes
      (release device >>= fun _ => (Routine.fail e : Routine Note υ OpenFailure Adapter))
      fun xs x => Opening bitrate ([.opened device (.ok configurations)] ++
        ([.claimed device interface (.ok endpoints)] ++ xs)) x := by
    refine (exchanging_release device).bind ?_ ?_
    · intro xs e' described
      cases described.2
    · intro xs _ described
      rw [described.1]
      exact .fail (.failed .endpointMissing rfl)
  dsimp only
  split
  · exact missing _
  split
  · exact missing _
  exact exchanging_starting ⟨device, ids, endpoints, _, _⟩ bitrate _ configurations endpoints

end Adapter

/-! ## Opening the bus -/

namespace Bus

variable {υ : Type} {h : Usb.Host υ}

/-- Every attempt that fails is a whole one; the last leaves an adapter with its channel on. -/
theorem exchanging_openFirst (index : Nat) (bitrate : UInt32) (tried backends : List String) :
    Exchanging h .notes (openFirst h index bitrate tried backends) fun xs x =>
      ∃ (attempts : List (List Exchange)) (last : List Exchange),
        xs = attempts.flatten ++ last ∧ (∀ ys ∈ attempts, Attempt bitrate ys) ∧
          Exchange.written attempts.flatten = [] ∧ Adapter.Opening bitrate last x := by
  -- the induction is on the backends left to try; each failed one adds a whole attempt in front
  induction backends generalizing tried with
  | nil => exact .fail ⟨[], [], rfl, List.forall_mem_nil _, rfl, .failed .absent rfl⟩
  | cons backend rest ih =>
    unfold openFirst
    dsimp only
    split
    · refine (Adapter.exchanging_openAt index bitrate).attempt_bind fun xs x opening => ?_
      cases opening with
      | opened start =>
        refine Exchanging.emit_bind rfl (.pure ?_)
        rw [List.append_nil]
        exact ⟨[], _, rfl, List.forall_mem_nil _, rfl, .opened start⟩
      | @failed _ e attempt unused =>
        cases e with
        | fatal =>
          -- the program stops, and no further backend is tried
          refine .fail ?_
          rw [List.append_nil]
          exact ⟨[], _, rfl, List.forall_mem_nil _, rfl, .failed attempt unused⟩
        | refused cause =>
          refine Exchanging.emit_bind rfl ((ih _).mono ?_)
          rintro ys x ⟨attempts, last, rfl, whole, silent, opening⟩
          refine ⟨xs :: attempts, last, ?_, List.forall_mem_cons.mpr ⟨attempt, whole⟩, ?_, opening⟩
          · rw [List.flatten_cons, List.append_assoc]
          · rw [List.flatten_cons, Exchange.written_append, unused, silent, List.append_nil]
    · exact Exchanging.emit_bind rfl (ih _)

end Bus

/-! ## Runs -/

namespace Cli

variable {υ : Type} {h : Usb.Host υ}

/-- A run of the layers below shows the same accesses in the program's log. -/
theorem exchanging_lower {ε α : Type} {r : Routine Note υ ε α}
    {P : List Exchange → Except ε α → Prop} (left : Exchanging h .notes r P) (wrap : ε → Failure) :
    Exchanging h .lines (lower wrap r) fun xs x => ∃ y, x = y.mapError wrap ∧ P xs y :=
  have restated : Exchanging h .lines (r.mapLog fun n => Line.entry (.note n)) P :=
    left.mapLog rfl fun _ => rfl
  restated.mapError fun _ y described => ⟨y, rfl, described⟩

/-- Whatever an opened adapter is used for, its channel is stopped when the use is over. -/
theorem exchanging_overBus (c : BusConfig) {use : Adapter → Routine Line υ Failure Unit}
    (bulk : ∀ a, Confined h .lines (Exchange.IsBulk a.device) (use a)) :
    Exchanging h .lines (overBus h c use) fun xs _ =>
      ∃ attempts : List (List Exchange), xs = attempts.flatten ∧
        ∀ ys ∈ attempts, Attempt c.bitrate ys := by
  unfold overBus
  refine (exchanging_lower (Bus.exchanging_openFirst _ _ _ _) _).bind ?_ ?_
  · rintro _ e ⟨y, failed, attempts, last, rfl, whole, -, opening⟩
    cases opening with
    | opened start => cases failed
    | failed attempt =>
      refine ⟨attempts ++ [last], ?_, ?_⟩
      · rw [List.flatten_append, List.flatten_singleton]
      · exact List.forall_mem_append.mpr ⟨whole, List.forall_mem_singleton.mpr attempt⟩
  rintro _ a ⟨y, found, attempts, last, rfl, whole, -, opening⟩
  cases opening with
  | failed => cases found
  | @opened _ configurations endpoints startup start =>
    cases found
    -- the use may end as it likes: `closing` stops the channel after a failure too
    unfold closing
    refine (bulk a).attempt_bind fun used ended bulk => ?_
    refine (exchanging_lower a.exchanging_close id).bind ?_ ?_
    · rintro _ e ⟨_, failed, rfl, -⟩
      cases failed
    rintro _ _ ⟨_, -, -, answer, rfl⟩
    have last := @Attempt.stopped _ _ configurations endpoints _ _ _ answer start bulk
      fun off => Bool.noConfusion off
    refine .ofExcept ⟨attempts ++ [_], ?_,
      List.forall_mem_append.mpr ⟨whole, List.forall_mem_singleton.mpr last⟩⟩
    rw [List.flatten_append, List.flatten_singleton, List.append_nil, List.append_assoc]
    rfl

/-- Loading an image exchanges nothing. -/
theorem exchanging_loadImage (files : Files) (a : Args) :
    Exchanging h .lines (loadImage files a) fun xs _ => xs = [] := by
  have loaded (path : String) :
      Exchanging h .notes (Image.load files path) fun xs _ => xs = [] := by
    unfold Image.load
    split
    · exact .fail rfl
    · exact Exchanging.emit_bind rfl (.pure rfl)
    · exact .fail rfl
  unfold loadImage
  split
  · next path _ =>
    refine (exchanging_lower (loaded path) _).bind ?_ ?_
    · rintro xs e ⟨_, -, none⟩
      exact none
    · rintro xs image ⟨_, -, rfl⟩
      exact .pure rfl
  · exact .pure rfl

/-- What a run exchanges is attempts at the bit rate of its configuration. -/
theorem exchanging_run (files : Files) (a : Args) (limit : Nat) :
    Exchanging h .lines (run h files a limit) fun xs _ =>
      ∃ attempts : List (List Exchange), xs = attempts.flatten ∧
        ∀ ys ∈ attempts, ∃ config, loadConfig files a = .ok config ∧
          Attempt config.bus.bitrate ys := by
  -- a run that ends before the bus is opened makes no attempt
  have silent : ∃ attempts : List (List Exchange), [] = attempts.flatten ∧
      ∀ ys ∈ attempts, ∃ config, loadConfig files a = .ok config ∧
        Attempt config.bus.bitrate ys := ⟨[], rfl, List.forall_mem_nil _⟩
  have configured : Exchanging h .lines (Routine.ofExcept (loadConfig files a)) fun xs x =>
      xs = [] ∧ x = loadConfig files a := .ofExcept ⟨rfl, rfl⟩
  unfold run
  refine configured.bind ?_ ?_
  · rintro _ e ⟨rfl, -⟩
    exact silent
  rintro _ config ⟨rfl, loaded⟩
  refine Exchanging.ofExcept_bind (fun _ _ => silent) fun profile _ => ?_
  refine Exchanging.ofExcept_bind (fun _ _ => silent) fun _ _ => ?_
  refine (exchanging_loadImage files a).bind ?_ ?_
  · rintro _ e rfl
    exact silent
  rintro _ image rfl
  refine (exchanging_overBus config.bus fun adapter => ?_).mono ?_
  · exact holds_useBus adapter.supports_confinement terminalOperator config profile a limit image
  · rintro _ x ⟨attempts, rfl, whole⟩
    exact ⟨attempts, rfl, fun ys member => ⟨config, loaded.symm, whole ys member⟩⟩

/-- The program shows the accesses of its run, and leaves the host as the run left it. -/
theorem program_run (h : Usb.Host υ) (files : Files) (a : Args) (limit : Nat) (s : υ) :
    (program h files a limit s).host = (run h files a limit s).state ∧
      (program h files a limit s).lines.filterMap Line.access?
        = (run h files a limit s).log.filterMap Line.access? := by
  unfold program
  split
  · next run => rw [run]; exact ⟨rfl, rfl⟩
  · next run => rw [run]; exact ⟨rfl, rfl⟩
  · next e s' log _ run =>
    rw [run]
    refine ⟨rfl, ?_⟩
    rw [List.filterMap_append]
    exact List.append_nil _

/-- No channel is left running.  Whatever the host answers, what a use of the bus exchanges, and
what a whole run of the program does, is attempts one behind the other.  An attempt that makes any
control request makes those that start the channel, up to the first that fails, and then exactly
one more, its last, which stops the channel. -/
theorem channel_stopped (h : Usb.Host υ) :
    (∀ (operator : Operator) (c : BusConfig) (config : Config) (profile : Profile) (a : Args)
      (limit : Nat) (image : Option Image) (s : υ),
      let ended := overBus h c (fun adapter =>
        useBus (adapter.transport h) operator config profile a limit image) s
      ∃ attempts : List (List Exchange), h.Went s attempts.flatten ended.state ∧
        ended.log.filterMap Line.access? = attempts.flatten.map Exchange.access ∧
        ∀ xs ∈ attempts, Attempt c.bitrate xs ∧
          (controls xs = [] ∨ ∃ device startup started answer,
            StartsUp device c.bitrate startup started ∧
              controls xs = startup ++ [.switching device false answer])) ∧
    ∀ (files : Files) (a : Args) (limit : Nat) (s : υ),
      let ended := program h files a limit s
      ∃ attempts : List (List Exchange), h.Went s attempts.flatten ended.host ∧
        ended.lines.filterMap Line.access? = attempts.flatten.map Exchange.access ∧
        ∀ xs ∈ attempts, ∃ config, loadConfig files a = .ok config ∧
          Attempt config.bus.bitrate xs ∧
          (controls xs = [] ∨ ∃ device startup started answer,
            StartsUp device config.bus.bitrate startup started ∧
              controls xs = startup ++ [.switching device false answer]) := by
  constructor
  · intro operator c config profile a limit image s
    have used (adapter : Adapter) := holds_useBus (adapter.supports_confinement (h := h))
      operator config profile a limit image
    obtain ⟨_, went, shown, attempts, rfl, whole⟩ := exchanging_overBus c used s
    exact ⟨attempts, went, shown, fun xs member =>
      ⟨whole xs member, (whole xs member).controls_eq⟩⟩
  · intro files a limit s
    obtain ⟨host, accesses⟩ := program_run h files a limit s
    obtain ⟨_, went, shown, attempts, rfl, whole⟩ := exchanging_run files a limit s
    refine ⟨attempts, host ▸ went, accesses.trans shown, fun xs member => ?_⟩
    obtain ⟨config, loaded, attempt⟩ := whole xs member
    exact ⟨config, loaded, attempt, attempt.controls_eq⟩

end Cli

end CanDfu
