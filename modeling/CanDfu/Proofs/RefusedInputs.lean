/-
  CanDfu.Proofs.RefusedInputs

  What becomes of bad inputs.  `written` is what a run hands to the adapter for the bus.

    configuration, profile,     refused before the host is asked for anything
    node, image file
    image that does not fit     refused by the uploader, so only after the node was addressed: one
                                frame has been sent by then, the one that asks for the protocol hash

  `BadInput` collects the first row.  For the second, an adapter that opens is followed up to where
  the uploader refuses.
-/
import CanDfu.Proofs.ChannelStopped
import CanDfu.Proofs.LayoutBounds
import CanDfu.Proofs.SavedConfigs
import CanDfu.Usb.Simulated

namespace CanDfu

variable {υ ε : Type} {h : Usb.Host υ}

/-! ## Checks -/

/-- Checks one after the other are passed one by one. -/
theorem exists_of_bind_ok {α β : Type} {x : Except ε α} {f : α → Except ε β} {b : β}
    (passed : (x >>= f) = .ok b) : ∃ a, x = .ok a ∧ f a = .ok b := by
  cases x with
  | error e => cases passed
  | ok a => exact ⟨a, rfl, passed⟩

theorem ok_of_mapError {α ε' : Type} {x : Except ε α} {f : ε → ε'} {a : α}
    (passed : x.mapError f = .ok a) : x = .ok a := by
  cases x with
  | error e => cases passed
  | ok a' => exact congrArg Except.ok (Except.ok.inj passed)

/-! ## What opening, closing and waiting write -/

/-- Opening a bus writes nothing to it. -/
theorem Bus.silent_openBus (c : BusConfig) :
    Exchanging h .notes (openBus h c) fun xs _ => Exchange.written xs = [] := by
  refine (exchanging_openFirst _ _ _ _).mono ?_
  rintro _ x ⟨attempts, last, rfl, -, silent, opening⟩
  rw [Exchange.written_append, silent, List.nil_append]
  cases opening with
  | failed _ unused => exact unused
  | opened start => exact start.written_eq

/-- Closing an adapter writes nothing to its bus. -/
theorem Adapter.silent_close (a : Adapter) :
    Exchanging h .notes (close h a : Routine Note υ ε Unit) fun xs x =>
      x = .ok () ∧ Exchange.written xs = [] := by
  refine a.exchanging_close.mono ?_
  rintro _ x ⟨done, answer, rfl⟩
  exact ⟨done, rfl⟩

/-- Reads write nothing. -/
theorem Exchange.written_reads {device : Nat} {xs : List Exchange}
    (reads : ∀ x ∈ xs, x.IsRead device) : written xs = [] := by
  refine List.filterMap_eq_nil_iff.mpr fun access member => ?_
  obtain ⟨x, among, rfl⟩ := List.mem_map.mp member
  have read := reads x among
  cases x with
  | opened | claimed | released => rfl
  | transfer d t answer =>
    cases t with
    | bulkIn => rfl
    | bulkOut | controlOut | controlIn => cases read

/-! ## Addressing a node -/

/-- What an adapter hands to the bus for a frame: the frame, if it has an endpoint for it. -/
def Adapter.writes (a : Adapter) (f : Frame) : List (List UInt8) :=
  match a.bulkEndpoint a.output with
  | .ok _ => [HostFrame.encode f channel]
  | .error _ => []

theorem Adapter.exchanging_send (a : Adapter) (f : Frame) :
    Exchanging h .notes (a.send h f) fun xs _ =>
      Exchange.written xs = a.writes f := by
  unfold send
  refine Exchanging.ofExcept_bind (fun e failed => ?_) fun endpoint found => ?_
  · unfold writes
    rw [failed]
    rfl
  · have handed : Exchanging h .notes (transfer h a.device
        (.bulkOut endpoint.address (HostFrame.encode f channel))) fun xs _ =>
          Exchange.written xs = [HostFrame.encode f channel] := exchanging_transfer fun _ => rfl
    unfold writes
    rw [found]
    refine (handed.mapError (Q := fun xs _ => Exchange.written xs = _)
      fun _ _ wrote => wrote).bind (fun _ _ wrote => wrote) fun xs _ wrote => .pure ?_
    rw [List.append_nil]
    exact wrote

/-- To address a node one frame is sent, the one that asks for its protocol hash. -/
theorem Node.exchanging_connect (a : Adapter) {p : Profile} {node : UInt8} {ids : FrameIds}
    (resolved : FrameIds.resolve p node = .ok ids) (patience : Nat) :
    Exchanging h .notes (connect (a.transport h) p node patience) fun xs _ =>
      Exchange.written xs = a.writes (hashProbe ids p) := by
  unfold connect
  refine Exchanging.ofExcept_bind (fun e failed => ?_) fun ids' found => ?_
  · rw [resolved] at failed
    cases failed
  obtain rfl : ids = ids' := Except.ok.inj (resolved.symm.trans found)
  have sent := a.exchanging_send (h := h) (hashProbe ids p)
  refine (sent.mapError (Q := fun xs _ => Exchange.written xs = _)
    fun _ _ wrote => wrote).bind (fun _ _ wrote => wrote) fun xs _ wrote => ?_
  have waiting := Awaited.confined_await a.listensWithin_transport (h := h)
    ⟨"protocol_hash", ids.protocolHash, p.extendedId, 4⟩ patience
  have silent {ys : List Exchange} (reads : ∀ y ∈ ys, y.IsRead a.device) :
      Exchange.written (xs ++ ys) = a.writes (hashProbe ids p) := by
    rw [Exchange.written_append, wrote, Exchange.written_reads reads, List.append_nil]
  refine Exchanging.bind waiting (fun ys _ reads => silent reads) fun ys _ reads => ?_
  refine Exchanging.emit_bind rfl (.pure ?_)
  rw [List.append_nil]
  exact silent reads

/-! ## An image that does not fit -/

/-- An uploader refuses an image that does not fit, and writes nothing. -/
theorem Uploader.exchanging_run_unfit (d : Device υ) (u : Uploader) (image : Image)
    (unfit : u.layout.checkImageFits image.size ≠ .ok ()) :
    Exchanging h .underway (u.run d image) fun xs x =>
      Exchange.written xs = [] ∧ ∃ e, x = .error e := by
  have refused : Exchanging h .underway (u.pipeline d image) fun xs x =>
      xs = [] ∧ ∃ e, x = .error e := by
    unfold pipeline
    exact Exchanging.ofExcept_bind (fun e _ => ⟨rfl, _, rfl⟩) fun _ fits => absurd fits unfit
  have aborted (e : DfuError) : Exchanging h .underway
      (abort e : Routine Entry (Underway υ) DfuError Unit) fun xs _ =>
        Exchange.written xs = [] := by
    have idle : Confined h .underway (Exchange.IsRead 0)
        (abort e : Routine Entry (Underway υ) DfuError Unit) :=
      holds_abort (P := confinement h (Exchange.IsRead 0)) e
    exact Exchanging.mono idle fun _ _ => Exchange.written_reads
  unfold run
  refine refused.attempt_bind ?_
  rintro _ _ ⟨rfl, e, rfl⟩
  refine (aborted e).bind (fun xs e' silent => ⟨silent, e', rfl⟩) fun xs _ silent => .fail ?_
  rw [List.append_nil]
  exact ⟨silent, e, rfl⟩

namespace Cli

/-- Uploading an image that does not fit addresses the node, and fails. -/
theorem exchanging_upload_unfit (adapter : Adapter) (config : Config) {profile : Profile}
    {a : Args} {ids : FrameIds} (resolved : FrameIds.resolve profile a.node = .ok ids)
    (patience : Nat) {image : Image}
    (unfit : config.layout.checkImageFits image.size ≠ .ok ()) :
    Exchanging h .lines (upload (adapter.transport h) config profile a patience image)
      fun xs x => Exchange.written xs = adapter.writes (Node.hashProbe ids profile) ∧
        ∃ e, x = .error e := by
  unfold upload
  refine (exchanging_lower (Node.exchanging_connect adapter resolved patience) _).bind ?_ ?_
  · rintro xs e ⟨_, -, wrote⟩
    exact ⟨wrote, e, rfl⟩
  rintro xs n ⟨_, -, wrote⟩
  refine Exchanging.get_bind fun s => ?_
  have refused (u : Uploader) (same : u.layout = config.layout) : Exchanging h .entries
      ((u.run (n.device (adapter.transport h)) image).zoom (fun s => (⟨{}, s⟩ : Underway υ))
        fun u _ => u.device) fun ys x => Exchange.written ys = [] ∧ ∃ e, x = .error e :=
    (Uploader.exchanging_run_unfit _ u image (same ▸ unfit)).zoom Layer.part_upload
  have lines (u : Uploader) (same : u.layout = config.layout) : Exchanging h .lines
      (((u.run (n.device (adapter.transport h)) image).zoom (fun s => (⟨{}, s⟩ : Underway υ))
        fun u _ => u.device).mapLog Line.entry)
      fun ys x => Exchange.written ys = [] ∧ ∃ e, x = .error e :=
    (refused u same).mapLog rfl fun e => by cases e <;> rfl
  refine ((lines _ rfl).mapError (f := Failure.dfu) (Q := fun ys x => Exchange.written ys = [] ∧
    ∃ e, x = .error e) ?_).bind ?_ ?_
  · rintro ys _ ⟨silent, e, rfl⟩
    exact ⟨silent, _, rfl⟩
  · rintro ys e ⟨silent, -⟩
    rw [Exchange.written_append, wrote, silent, List.append_nil]
    exact ⟨rfl, e, rfl⟩
  · rintro ys result ⟨-, e, impossible⟩
    cases impossible

/-- Closing an adapter adds nothing to what its use writes, and a use that fails is a failure. -/
theorem exchanging_closing (adapter : Adapter) {use : Routine Line υ Failure Unit}
    {wrote : List (List UInt8)}
    (fails : Exchanging h .lines use fun xs x => Exchange.written xs = wrote ∧ ∃ e, x = .error e) :
    Exchanging h .lines (closing h adapter use) fun xs x =>
      Exchange.written xs = wrote ∧ ∃ e, x = .error e := by
  unfold closing
  refine fails.attempt_bind ?_
  rintro xs _ ⟨wrote, e, rfl⟩
  refine (exchanging_lower adapter.silent_close id).bind ?_ ?_
  · rintro ys e' ⟨_, failed, rfl, -⟩
    cases failed
  · rintro ys _ ⟨_, -, -, silent⟩
    refine .ofExcept ⟨?_, e, rfl⟩
    rw [List.append_nil, Exchange.written_append, wrote, silent, List.append_nil]

/-- What is written over a bus: nothing if it does not open. -/
def overWrites (opened : Except OpenFailure Adapter) (writes : Adapter → List (List UInt8)) :
    List (List UInt8) :=
  match opened with
  | .ok a => writes a
  | .error _ => []

/-- A use of the bus that fails is a failure of the whole.  If the bus opens, what it writes is what
the whole writes. -/
theorem overBus_written (c : BusConfig) {use : Adapter → Routine Line υ Failure Unit}
    {writes : Adapter → List (List UInt8)}
    (fails : ∀ a, Exchanging h .lines (use a) fun xs x =>
      Exchange.written xs = writes a ∧ ∃ e, x = .error e) (s : υ) :
    (∃ e, (overBus h c use s).result = .error e) ∧
      written ((overBus h c use s).log.filterMap Line.access?)
        = overWrites (Bus.openBus h c s).result writes := by
  have opening : Exchanging h .lines (lower .ofOpening (Bus.openBus h c)) fun xs _ =>
      Exchange.written xs = [] := by
    refine (exchanging_lower (Bus.silent_openBus c) _).mono ?_
    rintro xs x ⟨_, -, silent⟩
    exact silent
  have same : (lower .ofOpening (Bus.openBus h c) s).result
      = (Bus.openBus h c s).result.mapError .ofOpening := rfl
  -- opening writes nothing, whether it fails or not; what is written comes from the use
  have unopened (xs : List Exchange) (e : Failure)
      (failed : (lower .ofOpening (Bus.openBus h c) s).result = .error e)
      (silent : Exchange.written xs = []) :
      Exchange.written xs = overWrites (Bus.openBus h c s).result writes ∧
        ∃ e', (.error e : Except Failure Unit) = .error e' := by
    rw [same] at failed
    cases opened : (Bus.openBus h c s).result with
    | error => exact ⟨silent, e, rfl⟩
    | ok a =>
      rw [opened] at failed
      cases failed
  have going (xs : List Exchange) (a : Adapter)
      (found : (lower .ofOpening (Bus.openBus h c) s).result = .ok a)
      (silent : Exchange.written xs = []) :
      Exchanging h .lines (closing h a (use a)) fun ys x =>
        Exchange.written (xs ++ ys) = overWrites (Bus.openBus h c s).result writes ∧
          ∃ e, x = .error e := by
    rw [same] at found
    rw [ok_of_mapError found]
    refine (exchanging_closing a (fails a)).mono fun ys x described => ?_
    rw [Exchange.written_append, silent]
    exact described
  obtain ⟨xs, -, shown, wrote, failed⟩ := opening.bind_at (fun xs x =>
    Exchange.written xs = overWrites (Bus.openBus h c s).result writes ∧ ∃ e, x = .error e) s
    unopened going
  exact ⟨failed, (congrArg written shown).trans wrote⟩

/-! ## Whole runs -/

/-- Inputs that a run can refuse before it asks the host for anything. -/
inductive BadInput (files : Files) (a : Args) : Prop
  /-- The configuration is not loaded, or what the command line makes of it is not valid. -/
  | config {e : Failure} (failed : loadConfig files a = .error e)
  | profile {c : Config} (loaded : loadConfig files a = .ok c) (absent : c.profile = none)
  | node {c : Config} {p : Profile} (loaded : loadConfig files a = .ok c)
      (given : c.profile = some p) (beyond : ¬ p.Addresses a.node)
  /-- The image is missing, is no file, or is empty. -/
  | image {path : String} (named : a.bin = some path)
      (unusable : ∀ bytes, files path = .file bytes → bytes = [])

/-- A configuration that is loaded is valid. -/
theorem validate_of_loadConfig {files : Files} {a : Args} {c : Config}
    (loaded : loadConfig files a = .ok c) : c.validate = .ok () := by
  unfold loadConfig at loaded
  dsimp only at loaded
  split at loaded
  all_goals
    obtain ⟨l, -, loaded⟩ := exists_of_bind_ok loaded
    obtain ⟨_, checked, same⟩ := exists_of_bind_ok loaded
    rw [← Except.ok.inj same]
    exact ok_of_mapError checked

theorem checkAddressable_eq_ok_iff {p : Profile} {node : UInt8} (named : List (String × UInt16)) :
    checkAddressable p node named = .ok () ↔ ∀ e ∈ named, ∃ id, p.frameId node e.2 = .ok id := by
  induction named with
  | nil => exact ⟨fun _ => List.forall_mem_nil _, fun _ => rfl⟩
  | cons e rest ih =>
    rw [List.forall_mem_cons, ← ih, checkAddressable]
    cases found : p.frameId node e.2 with
    | ok id => exact ⟨fun checked => ⟨⟨id, rfl⟩, checked⟩, fun both => both.2⟩
    | error e' =>
      constructor
      · intro failed
        cases failed
      · intro both
        obtain ⟨id, impossible⟩ := both.1
        cases impossible

/-- The check of a valid profile finds out whether it addresses the node. -/
theorem addresses_iff {p : Profile} {node : UInt8} (valid : p.validate = .ok ()) :
    p.Addresses node ↔ checkAddressable p node p.endpoints.named = .ok () := by
  rw [checkAddressable_eq_ok_iff]
  constructor
  · intro addresses e member
    obtain ⟨ids, resolved⟩ := FrameIds.exists_resolve_iff.mpr addresses
    have found := (FrameIds.frameIds_of_resolve resolved).2
    have here : p.frameId node e.2 ∈ ids.toList.map .ok := found ▸ List.mem_map_of_mem member
    obtain ⟨id, -, ok⟩ := List.mem_map.mp here
    exact ⟨id, ok.symm⟩
  · intro found
    refine ⟨valid, fun e member => ?_⟩
    obtain ⟨id, ok⟩ := found e member
    have small := (Profile.sound_of_validate valid).endpoint_lt e member
    -- valid endpoints do not reach into the node id, so the identifier is the sum of the two
    obtain ⟨exact, within⟩ := Profile.toNat_of_frameId small ok
    rw [← exact]
    exact within

theorem validate_profile {c : Config} {p : Profile} (valid : c.validate = .ok ())
    (given : c.profile = some p) : p.validate = .ok () := by
  unfold Config.validate at valid
  obtain ⟨_, -, valid⟩ := exists_of_bind_ok valid
  rw [given] at valid
  dsimp only at valid
  split at valid
  · cases valid
  · exact valid

/-- An accepted command line names an image or asks for a recovery, and not both. -/
theorem recovery_of_bin {argv : List String} {a : Args} (accepted : Args.parse argv = .ok a)
    {path : String} (named : a.bin = some path) : a.recovery = false := by
  unfold Args.parse at accepted
  obtain ⟨r, -, accepted⟩ := exists_of_bind_ok accepted
  dsimp only at accepted
  split at accepted
  · cases accepted
  next apart =>
  split at accepted
  · cases accepted
  split at accepted
  · cases accepted
  next node _ _ =>
  have same : Args.mk r.given node = a := Except.ok.inj accepted
  rw [← same] at named ⊢
  -- the two exclude each other, or the line would have been refused at the first split
  have given : r.given.bin.isSome = true := by
    rw [Option.isSome_iff_exists]
    exact ⟨path, named⟩
  rw [given, Bool.true_and] at apart
  exact Bool.eq_false_iff.mpr apart

/-- Configuration and profile pass the checks of a run that come before its image is loaded. -/
structure Passes (files : Files) (a : Args) (c : Config) (p : Profile) : Prop where
  loaded : loadConfig files a = .ok c
  given : c.profile = some p
  addresses : p.Addresses a.node

/-- A run ends at the first check that fails; after the checks it loads the image and uses the
bus. -/
theorem run_cases (h : Usb.Host υ) (files : Files) (a : Args) (limit : Nat) (s : υ) :
    (∃ e, run h files a limit s = ⟨.error e, s, []⟩ ∧ ∀ c p, ¬ Passes files a c p) ∨
    ∃ c p, Passes files a c p ∧
      run h files a limit s = (loadImage files a >>= fun image => overBus h c.bus fun adapter =>
        useBus (adapter.transport h) terminalOperator c p a limit image) s := by
  unfold run
  cases loaded : loadConfig files a with
  | error e =>
    refine .inl ⟨e, rfl, fun c p passes => ?_⟩
    cases loaded.symm.trans passes.loaded
  | ok c =>
    rw [Routine.bind_of_ok (Routine.ofExcept_apply _ s)]
    cases given : c.profile with
    | none =>
      have required : c.requireProfile = .error .missingProfile := by
        rw [Config.requireProfile, given]
      rw [required]
      refine .inl ⟨.config .missingProfile, rfl, fun c' p passes => ?_⟩
      cases loaded.symm.trans passes.loaded
      cases given.symm.trans passes.given
    | some p =>
      have required : c.requireProfile = .ok p := by
        rw [Config.requireProfile, given]
      have valid := validate_profile (validate_of_loadConfig loaded) given
      rw [required, Routine.bind_of_ok (Routine.mapError_of_ok (Routine.ofExcept_apply _ s) _)]
      cases checked : checkAddressable p a.node p.endpoints.named with
      | error e =>
        refine .inl ⟨.config e, rfl, fun c' p' passes => ?_⟩
        cases loaded.symm.trans passes.loaded
        cases given.symm.trans passes.given
        cases checked.symm.trans ((addresses_iff valid).mp passes.addresses)
      | ok =>
        rw [Routine.bind_of_ok (Routine.mapError_of_ok (Routine.ofExcept_apply _ s) _)]
        exact .inr ⟨c, p, ⟨loaded, given, (addresses_iff valid).mpr checked⟩, rfl⟩

theorem lower_apply {α : Type} (wrap : ε → Failure) {r : Routine Note υ ε α} {s s' : υ}
    {result : Except ε α} {log : List Note} (run : r s = ⟨result, s', log⟩) :
    lower wrap r s = ⟨result.mapError wrap, s', log.map fun n => Line.entry (.note n)⟩ := by
  unfold lower Routine.mapError Routine.mapLog
  rw [run]

theorem loadImage_bad {files : Files} {a : Args} {path : String} (named : a.bin = some path)
    (unusable : ∀ bytes, files path = .file bytes → bytes = []) (s : υ) :
    ∃ e, loadImage files a s = ⟨.error e, s, []⟩ := by
  have refused : ∃ e, Image.load files path s = ⟨.error e, s, []⟩ := by
    unfold Image.load
    cases found : files path with
    | file bytes =>
      rw [unusable bytes found]
      exact ⟨_, rfl⟩
    | missing | directory | notDirectory => exact ⟨_, rfl⟩
  obtain ⟨e, refused⟩ := refused
  unfold loadImage
  rw [named]
  exact ⟨.dfu e, Routine.bind_of_error (lower_apply Failure.dfu refused) _⟩

theorem loadImage_good {files : Files} {a : Args} {path : String} {bytes : List UInt8}
    (named : a.bin = some path) (found : files path = .file bytes) (nonempty : bytes ≠ [])
    (s : υ) : ∃ line, loadImage files a s = ⟨.ok (some ⟨bytes⟩), s, [line]⟩ ∧
      line.access? = none := by
  have loaded : ∃ r, Image.load files path s = ⟨.ok ⟨bytes⟩, s, [.record r]⟩ := by
    unfold Image.load
    rw [found]
    cases bytes with
    | nil => exact absurd rfl nonempty
    | cons => exact ⟨_, rfl⟩
  obtain ⟨r, loaded⟩ := loaded
  unfold loadImage
  rw [named]
  exact ⟨.entry (.note (.record r)), Routine.bind_of_ok (lower_apply Failure.dfu loaded) _, rfl⟩

/-- A run of bad inputs leaves the host as it was, and shows no access to it. -/
theorem run_bad (h : Usb.Host υ) {files : Files} {a : Args} (limit : Nat) (s : υ)
    (bad : BadInput files a) :
    ∃ e, run h files a limit s = ⟨.error e, s, []⟩ := by
  obtain ⟨e, failed, -⟩ | ⟨c, p, passes, run⟩ := run_cases h files a limit s
  · exact ⟨e, failed⟩
  -- the checks are passed, so it is the image that is bad
  rw [run]
  cases bad with
  | config failed => cases failed.symm.trans passes.loaded
  | profile loaded absent =>
    cases loaded.symm.trans passes.loaded
    cases absent.symm.trans passes.given
  | node loaded given beyond =>
    cases loaded.symm.trans passes.loaded
    cases given.symm.trans passes.given
    exact absurd passes.addresses beyond
  | image named unusable =>
    obtain ⟨e, refused⟩ := loadImage_bad named unusable s
    exact ⟨e, Routine.bind_of_error refused _⟩

/-- An image that does not fit is not empty. -/
theorem nonempty_of_unfit {l : Layout} {bytes : List UInt8}
    (unfit : l.checkImageFits bytes.length ≠ .ok ()) : bytes ≠ [] := by
  rintro rfl
  exact unfit (Layout.checkImageFits_of_le (Nat.zero_le _))

/-- A run that fails ends the program with a status that says so. -/
theorem program_of_error (h : Usb.Host υ) {files : Files} {a : Args} {limit : Nat} {s : υ}
    {e : Failure} (failed : (run h files a limit s).result = .error e) :
    (program h files a limit s).status ≠ 0 := by
  unfold program
  split
  · next succeeded =>
    rw [succeeded] at failed
    cases failed
  · show (101 : UInt8) ≠ 0
    decide
  · show (1 : UInt8) ≠ 0
    decide

/-- A program with bad inputs fails and asks the host for nothing. -/
theorem program_bad (h : Usb.Host υ) {files : Files} {a : Args} (limit : Nat) (s : υ)
    (bad : BadInput files a) :
    let ended := program h files a limit s
    ended.status ≠ 0 ∧ ended.host = s ∧ ended.lines.filterMap Line.access? = [] := by
  obtain ⟨host, accesses⟩ := program_run h files a limit s
  obtain ⟨e, failed⟩ := run_bad h limit s bad
  refine ⟨program_of_error h (congrArg Outcome.result failed), ?_, ?_⟩
  · rw [host, failed]
  · rw [accesses, failed]
    rfl

/-- A program with an image that does not fit fails, and asks the node for its protocol hash if
there is a bus to ask over. -/
theorem program_unfit {argv : List String} {a : Args} (accepted : Args.parse argv = .ok a)
    (h : Usb.Host υ) {files : Files} (limit : Nat) (s : υ) {config : Config} {profile : Profile}
    {ids : FrameIds} {path : String} {bytes : List UInt8} (passes : Passes files a config profile)
    (resolved : FrameIds.resolve profile a.node = .ok ids) (named : a.bin = some path)
    (found : files path = .file bytes)
    (unfit : config.layout.checkImageFits bytes.length ≠ .ok ()) :
    let ended := program h files a limit s
    ended.status ≠ 0 ∧ written (ended.lines.filterMap Line.access?)
      = overWrites (Bus.openBus h config.bus s).result fun adapter =>
          adapter.writes (Node.hashProbe ids profile) := by
  obtain ⟨-, accesses⟩ := program_run h files a limit s
  obtain ⟨e, -, blocked⟩ | ⟨c, p, passes', run⟩ := run_cases h files a limit s
  · exact absurd passes (blocked config profile)
  cases passes.loaded.symm.trans passes'.loaded
  cases passes.given.symm.trans passes'.given
  obtain ⟨line, loaded, silent⟩ := loadImage_good named found (nonempty_of_unfit unfit) s
  -- whatever adapter is opened, the upload asks for the hash and then refuses the image
  have fails (adapter : Adapter) : Exchanging h .lines
      (useBus (adapter.transport h) terminalOperator config profile a limit (some ⟨bytes⟩))
      fun xs x => Exchange.written xs = adapter.writes (Node.hashProbe ids profile) ∧
        ∃ e, x = .error e := by
    unfold useBus
    rw [recovery_of_bin accepted named]
    exact exchanging_upload_unfit adapter config resolved _ unfit
  obtain ⟨⟨e, failed⟩, wrote⟩ := overBus_written config.bus fails s
  rw [Routine.bind_of_ok loaded] at run
  refine ⟨program_of_error h ((congrArg Outcome.result run).trans failed), ?_⟩
  rw [accesses, run, ← wrote, List.singleton_append, List.filterMap_cons_none silent]

/-! ## A device with little room -/

/-- A profile of standard identifiers, six bits of each for the endpoint. -/
def plainProfile : Profile := ⟨6, false, true, ⟨0, 1, 2, 3, 4, 5⟩⟩

/-- A configuration with room for one chunk below its NVM region. -/
def crampedConfig : Config :=
  { layout := ⟨0x1000, 0x1010, 32⟩, profile := some plainProfile }

/-- A command line with a configuration and an image. -/
def uploadLine : List String := ["--node-id", "5", "--config", "c.toml", "--bin", "fw.bin"]

/-- What the command line asks for. -/
def uploadArgs : Args :=
  { nodeId := some 5, bin := some "fw.bin", config := some "c.toml", node := 5 }

/-- The configuration as it is saved, beside an image. -/
def crampedFiles (image : FileNode) : Files := fun path =>
  if path = "c.toml" then crampedConfig.save?.getD .missing else image

/-- An adapter that starts, on a bus where nothing answers. -/
def quietHost : Usb.SimulatedHost :=
  { devices := some [
      { ids := ⟨0x1D50, 0x606F⟩
        configurations := [⟨1, [⟨0, 0, [⟨0x81, .bulk, 64⟩, ⟨2, .bulk, 64⟩]⟩]⟩]
        controlAnswer := [0, 0, 0, 0, 0, 0x6C, 0xDC, 2, 1, 0, 0, 0, 0x10, 0, 0, 0, 1, 0, 0, 0,
          8, 0, 0, 0, 4, 0, 0, 0, 1, 0, 0, 0, 0, 4, 0, 0, 1, 0, 0, 0] }] }

/-- The program on that adapter, with an image. -/
def crampedRun (image : FileNode) : Finished Usb.SimulatedHost :=
  program Usb.SimulatedHost.host (crampedFiles image) uploadArgs 1 quietHost

/-- The identifiers of node 5: the node above six bits of endpoint. -/
def plainIds : FrameIds := ⟨0x140, 0x141, 0x142, 0x143, 0x144, 0x145⟩

theorem parse_uploadLine : Args.parse uploadLine = .ok uploadArgs := rfl

theorem passes_cramped (image : FileNode) :
    Passes (crampedFiles image) uploadArgs crampedConfig plainProfile := by
  have loads : Config.load (crampedFiles image "c.toml") = .ok crampedConfig := by
    have file : crampedFiles image "c.toml" = crampedConfig.save?.getD .missing := if_pos rfl
    cases saved : crampedConfig.save? with
    | none =>
      have large := (Config.save?_eq_none_iff crampedConfig).mp saved
      exact absurd large (by decide)
    | some node =>
      rw [file, saved]
      exact (Config.load_saved_iff saved).mpr rfl
  have loaded : loadConfig (crampedFiles image) uploadArgs = .ok crampedConfig := by
    show (((Config.load (crampedFiles image "c.toml")).mapError (Failure.load "c.toml")).bind
      fun c => _) = _
    rw [loads]
    rfl
  exact ⟨loaded, rfl, (addresses_iff rfl).mpr rfl⟩

/-- The frame that asks node 5 for its protocol hash, as it is handed to the adapter. -/
def probeBytes : List UInt8 :=
  [0, 0, 0, 0, 0x40, 0x01, 0x00, 0x40, 4, 0, 0, 0, 0, 0, 0, 0, 0, 0, 0, 0]

theorem overWrites_quietHost :
    overWrites (Bus.openBus Usb.SimulatedHost.host crampedConfig.bus quietHost).result
      (fun adapter => adapter.writes (Node.hashProbe plainIds plainProfile)) = [probeBytes] := rfl

/-! ## Bad inputs -/

/-- Bad inputs are refused.  If the configuration is bad, or there is no profile, or it does not
address the node, or the image file is bad, the program fails and has asked the host for nothing.
An image that does not fit the memory map is refused too, but only after the node was addressed:
one frame is sent, the one that asks for the protocol hash, if there is a bus to send it to. -/
theorem bad_inputs_refused {argv : List String} {a : Args} (accepted : Args.parse argv = .ok a)
    (h : Usb.Host υ) (files : Files) (limit : Nat) (s : υ) :
    let ended := program h files a limit s
    (BadInput files a →
      ended.status ≠ 0 ∧ ended.host = s ∧ ended.lines.filterMap Line.access? = []) ∧
    ∀ config profile ids path bytes, Passes files a config profile →
      FrameIds.resolve profile a.node = .ok ids → a.bin = some path → files path = .file bytes →
      config.layout.checkImageFits bytes.length ≠ .ok () →
        ended.status ≠ 0 ∧ written (ended.lines.filterMap Line.access?)
          = overWrites (Bus.openBus h config.bus s).result fun adapter =>
              adapter.writes (Node.hashProbe ids profile) := by
  constructor
  · exact program_bad h limit s
  · intro config profile ids path bytes passes resolved named found unfit
    exact program_unfit accepted h limit s passes resolved named found unfit

/-- With the image missing nothing is asked of the host; with an image of two chunks where one fits
the node has been asked for its protocol hash. -/
theorem bad_inputs_refused_cramped :
    ((crampedRun .missing).status ≠ 0 ∧ (crampedRun .missing).host = quietHost ∧
      (crampedRun .missing).lines.filterMap Line.access? = []) ∧
    ((crampedRun (.file (List.replicate 32 0xFF))).status ≠ 0 ∧
      written ((crampedRun (.file (List.replicate 32 0xFF))).lines.filterMap Line.access?)
        = [probeBytes]) := by
  have missing : ∀ bytes, crampedFiles .missing "fw.bin" = .file bytes → bytes = [] := by
    intro bytes found
    cases found
  have resolved : FrameIds.resolve plainProfile uploadArgs.node = .ok plainIds := rfl
  have unfit : crampedConfig.layout.checkImageFits (List.replicate 32 (0xFF : UInt8)).length
      ≠ .ok () := by decide
  constructor
  · exact (bad_inputs_refused parse_uploadLine Usb.SimulatedHost.host (crampedFiles .missing) 1
      quietHost).1 (.image rfl missing)
  · rw [← overWrites_quietHost]
    exact (bad_inputs_refused parse_uploadLine Usb.SimulatedHost.host
      (crampedFiles (.file (List.replicate 32 0xFF))) 1 quietHost).2 crampedConfig plainProfile
      plainIds "fw.bin" (List.replicate 32 0xFF) (passes_cramped _) resolved rfl rfl unfit

/-- An image that does not fit is not refused before a frame is sent. -/
theorem probe_before_image_check :
    Args.parse uploadLine = .ok uploadArgs ∧
    loadConfig (crampedFiles (.file (List.replicate 32 0xFF))) uploadArgs = .ok crampedConfig ∧
    crampedConfig.layout.checkImageFits 32 ≠ .ok () ∧
    written ((crampedRun (.file (List.replicate 32 0xFF))).lines.filterMap Line.access?)
      = [probeBytes] := by
  have passes := passes_cramped (.file (List.replicate 32 0xFF))
  have resolved : FrameIds.resolve plainProfile uploadArgs.node = .ok plainIds := rfl
  have found : crampedFiles (.file (List.replicate 32 0xFF)) "fw.bin"
      = .file (List.replicate 32 0xFF) := rfl
  have unfit : crampedConfig.layout.checkImageFits 32 ≠ .ok () := by decide
  have failed := program_unfit parse_uploadLine Usb.SimulatedHost.host 1 quietHost passes resolved
    rfl found unfit
  rw [overWrites_quietHost] at failed
  exact ⟨parse_uploadLine, passes.loaded, unfit, failed.2⟩

end Cli

end CanDfu
