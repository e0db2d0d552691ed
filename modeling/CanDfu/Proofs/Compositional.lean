/-
  CanDfu.Proofs.Compositional

  What the layers above a transport do with it.  A session, an upload, a recovery and the use of an
  opened bus reach the host of the transport by sending and waiting, and by nothing else; so what
  holds of sending and waiting, and is handed on by every way of building a routine, holds of them.
  In the same way a whole run of the program reaches its host by single accesses and by waits.

    * `Place`, `Layer` : where a layer of the program keeps the host, and how its log shows an
      access.  `Layer.Part` relates a routine of a part of the state to a routine of the whole.
    * `Compositional` : a property of routines with one rule for each way of building a routine.
    * `Transport.Supports`, `Device.Supports`, `Usb.Host.Supports` : the property holds of all that
      is done with a transport, a device or a host.  From there it is carried up, one lemma for
      each routine.

  The walk through the program is made here, once for all such properties.
-/
import CanDfu.Cli.Run

namespace CanDfu

variable {υ ε α : Type}

/-! ## Layers -/

/-- Where a state keeps the host. -/
structure Place (υ σ : Type) where
  host : σ → υ
  setHost : υ → σ → σ
  host_setHost : ∀ u s, host (setHost u s) = u
  setHost_setHost : ∀ u v s, setHost u (setHost v s) = setHost u s

namespace Place

/-- The state is the host. -/
def whole : Place υ υ where
  host := id
  setHost u _ := u
  host_setHost _ _ := rfl
  setHost_setHost _ _ _ := rfl

/-- The device of an upload under way. -/
def device : Place υ (Underway υ) where
  host := Underway.device
  setHost device u := { u with device }
  host_setHost _ _ := rfl
  setHost_setHost _ _ _ := rfl

/-- The bus of a recovery under way. -/
def bus : Place υ (Recovering υ) where
  host := Recovering.bus
  setHost bus r := { r with bus }
  host_setHost _ _ := rfl
  setHost_setHost _ _ _ := rfl

end Place

/-- Where a layer of the program keeps the host, and how its log shows an access. -/
structure Layer (υ σ ω : Type) extends Place υ σ where
  access? : ω → Option (Nat × Usb.Access)

namespace Layer

/-- The layers of adapter, transport and node. -/
def notes : Layer υ υ Note := ⟨.whole, Note.access?⟩

/-- The USB access of an entry that is one. -/
def ofEntry? (e : Entry) : Option (Nat × Usb.Access) := e.note?.bind Note.access?

/-- The parts of an upload that know only the device. -/
def entries : Layer υ υ Entry := ⟨.whole, ofEntry?⟩

/-- An upload under way. -/
def underway : Layer υ (Underway υ) Entry := ⟨.device, ofEntry?⟩

/-- A recovery under way. -/
def recovering : Layer υ (Recovering υ) Entry := ⟨.bus, ofEntry?⟩

/-- A run of the program. -/
def lines : Layer υ υ Cli.Line := ⟨.whole, Cli.Line.access?⟩

/-- The state of one layer as the part of the state of another that holds the host.  A new host may
be set before the part is taken or put back, or after it. -/
structure Part {σ τ ω : Type} (whole : Layer υ τ ω) (part : Layer υ σ ω) (get : τ → σ)
    (set : σ → τ → τ) : Prop where
  access : whole.access? = part.access?
  host_get : ∀ s, whole.host s = part.host (get s)
  host_set : ∀ t s, whole.host (set t s) = part.host t
  get_setHost : ∀ u s, get (whole.setHost u s) = part.setHost u (get s)
  set_setHost : ∀ u v t s, set (part.setHost u t) (whole.setHost v s) = whole.setHost u (set t s)

theorem part_underway : Part (υ := υ) underway entries Underway.device
    fun s u => { u with device := s } where
  access := rfl
  host_get _ := rfl
  host_set _ _ := rfl
  get_setHost _ _ := rfl
  set_setHost _ _ _ _ := rfl

theorem part_recovering : Part (υ := υ) recovering entries Recovering.bus
    fun bus r => { r with bus } where
  access := rfl
  host_get _ := rfl
  host_set _ _ := rfl
  get_setHost _ _ := rfl
  set_setHost _ _ _ _ := rfl

/-- A whole upload, which starts with a new tracker. -/
theorem part_upload : Part (υ := υ) entries underway (fun s => ⟨{}, s⟩)
    fun u _ => u.device where
  access := rfl
  host_get _ := rfl
  host_set _ _ := rfl
  get_setHost _ _ := rfl
  set_setHost _ _ _ _ := rfl

/-- A whole recovery, which starts without a retry. -/
theorem part_recovery : Part (υ := υ) entries recovering (fun s => ⟨0, s⟩) fun r _ => r.bus where
  access := rfl
  host_get _ := rfl
  host_set _ _ := rfl
  get_setHost _ _ := rfl
  set_setHost _ _ _ _ := rfl

end Layer

/-! ## Properties -/

/-- A property of routines that every way of building a routine hands on.  What is logged on the
way is no access, and what is read of the state does not depend on the host. -/
structure Compositional (υ : Type) where
  Holds : ∀ {σ ω ε α : Type}, Layer υ σ ω → Routine ω σ ε α → Prop
  ofExcept : ∀ {σ ω ε α : Type} {L : Layer υ σ ω} (x : Except ε α),
    Holds L (Routine.ofExcept x : Routine ω σ ε α)
  emit : ∀ {σ ω ε : Type} {L : Layer υ σ ω} {w : ω}, L.access? w = none →
    Holds L (Routine.emit w : Routine ω σ ε Unit)
  bind : ∀ {σ ω ε α β : Type} {L : Layer υ σ ω} {r : Routine ω σ ε α} {f : α → Routine ω σ ε β},
    Holds L r → (∀ a, Holds L (f a)) → Holds L (r >>= f)
  get_bind : ∀ {σ ω ε β : Type} {L : Layer υ σ ω} {f : σ → Routine ω σ ε β},
    (∀ u s, f (L.setHost u s) = f s) → (∀ s, Holds L (f s)) → Holds L (Routine.get >>= f)
  modify : ∀ {σ ω ε : Type} {L : Layer υ σ ω} {f : σ → σ},
    (∀ s, L.host (f s) = L.host s) → (∀ u s, f (L.setHost u s) = L.setHost u (f s)) →
      Holds L (Routine.modify f : Routine ω σ ε Unit)
  attempt : ∀ {σ ω ε ε' α : Type} {L : Layer υ σ ω} {r : Routine ω σ ε α},
    Holds L r → Holds L (r.attempt : Routine ω σ ε' (Except ε α))
  mapError : ∀ {σ ω ε ε' α : Type} {L : Layer υ σ ω} {r : Routine ω σ ε α},
    Holds L r → ∀ f : ε → ε', Holds L (r.mapError f)
  mapLog : ∀ {σ ω ω' ε α : Type} {L : Layer υ σ ω} {L' : Layer υ σ ω'} {r : Routine ω σ ε α}
    {f : ω → ω'}, Holds L r → L'.toPlace = L.toPlace → (∀ w, L'.access? (f w) = L.access? w) →
      Holds L' (r.mapLog f)
  zoom : ∀ {σ τ ω ε α : Type} {L : Layer υ σ ω} {L' : Layer υ τ ω} {get : τ → σ} {set : σ → τ → τ}
    {r : Routine ω σ ε α}, Holds L r → L'.Part L get set → Holds L' (r.zoom get set)

variable {P : Compositional υ}

namespace Compositional

variable {σ ω : Type} {L : Layer υ σ ω}

theorem pure (P : Compositional υ) (a : α) : P.Holds L (Pure.pure a : Routine ω σ ε α) :=
  P.ofExcept (.ok a)

theorem fail (P : Compositional υ) (e : ε) : P.Holds L (Routine.fail e : Routine ω σ ε α) :=
  P.ofExcept (.error e)

end Compositional

/-- The property holds of all that a transport is used for. -/
structure Transport.Supports (P : Compositional υ) (t : Transport υ) : Prop where
  send : ∀ f, P.Holds .notes (t.send f)
  await : ∀ (a : Awaited) (patience : Nat), P.Holds .notes (Awaited.await t a patience)

/-- The property holds of every command of a device. -/
def Device.Supports (P : Compositional υ) (d : Device υ) : Prop :=
  ∀ c, P.Holds .notes (d.call c)

/-! ## Sessions -/

section Node

variable {t : Transport υ} (supports : t.Supports P)
include supports

theorem Node.holds_connect (p : Profile) (node : UInt8) (patience : Nat) :
    P.Holds .notes (Node.connect t p node patience) := by
  unfold Node.connect
  refine P.bind (P.mapError (P.ofExcept _) _) fun ids => ?_
  refine P.bind (P.mapError (supports.send _) _) fun _ => ?_
  refine P.bind (supports.await _ patience) fun answer => ?_
  exact P.bind (P.emit rfl) fun _ => P.pure _

theorem Node.supports_device (n : Node) : (n.device t).Supports P := by
  intro c
  show P.Holds .notes (n.call t c)
  unfold Node.call
  refine P.bind (P.ofExcept _) fun _ => ?_
  refine P.bind (P.mapError (P.ofExcept _) _) fun f => ?_
  refine P.bind (P.emit rfl) fun _ => ?_
  refine P.bind (P.mapError (supports.send f) _) fun _ => ?_
  cases c.answerSize with
  | none => exact P.pure _
  | some size => exact P.bind (supports.await _ _) fun _ => P.pure _

end Node

/-- Issuing a command is calling the device and writing the answer down. -/
theorem Device.issue_eq {σ : Type} (d : Device σ) (c : Command) :
    d.issue c = ((d.call c).mapLog Entry.note).attempt >>= fun answer =>
      Routine.emit (.call c answer) >>= fun _ => Routine.ofExcept answer := by
  funext s
  have called : (((d.call c).mapLog Entry.note).attempt :
      Routine Entry σ SessionError (Except SessionError c.Reply)) s
        = ⟨.ok (d.call c s).result, (d.call c s).state, (d.call c s).log.map .note⟩ := rfl
  rw [Routine.bind_of_ok called, Routine.bind_of_ok (Routine.emit_apply _ _)]
  rfl

/-! ## The parts of an upload -/

section Upload

variable {d : Device υ} (supports : d.Supports P)
include supports

theorem Device.holds_issue (c : Command) :
    P.Holds .entries ((d.issue c).mapError DfuError.session) := by
  rw [Device.issue_eq]
  have called : P.Holds .entries ((d.call c).mapLog Entry.note) :=
    P.mapLog (supports c) rfl fun _ => rfl
  exact P.mapError (P.bind (P.attempt called) fun _ => P.bind (P.emit rfl) fun _ => P.ofExcept _) _

theorem Comparison.holds_compareWords (ws : List (UInt32 × UInt32)) :
    P.Holds .entries (compareWords d ws) := by
  induction ws with
  | nil => exact P.pure _
  | cons p rest ih =>
    unfold compareWords
    refine P.bind (Device.holds_issue supports _) fun actual => ?_
    split
    · exact ih
    · exact P.bind (P.emit rfl) fun _ => P.pure _

theorem Comparison.holds_comparePieces (activity : Activity) (total : Nat) (ps : List Piece) :
    P.Holds .entries (comparePieces d activity total ps) := by
  induction ps with
  | nil => exact P.pure _
  | cons piece rest ih =>
    unfold comparePieces
    refine P.bind (holds_compareWords supports _) fun c => ?_
    cases c with
    | identical => exact P.bind (P.emit rfl) fun _ => ih
    | differs => exact P.pure _

theorem Preservation.holds_readWords (base : UInt32) (count : Nat) :
    P.Holds .entries (readWords d base count) := by
  induction count generalizing base with
  | zero => exact P.pure _
  | succ count ih =>
    unfold readWords
    refine P.bind (Device.holds_issue supports _) fun word => ?_
    exact P.bind (ih _) fun _ => P.pure _

theorem Preservation.holds_readRegion (base : UInt32) (total done count : Nat) :
    P.Holds .entries (readRegion d base total done count) := by
  induction count using Nat.strongRecOn generalizing done with
  | ind count ih =>
    unfold readRegion
    split
    · exact P.pure _
    · refine P.bind (holds_readWords supports _ _) fun head => ?_
      have rest (done' : Nat) :
          P.Holds .entries (readRegion d base total done' (count - 4) >>= fun rest =>
            pure (head ++ rest)) :=
        P.bind (ih _ (by omega) done') fun _ => P.pure _
      split
      · exact P.bind (P.emit rfl) fun _ => rest _
      · exact rest _

theorem Preservation.holds_backup (l : Layout) : P.Holds .entries (backup d l) := by
  unfold backup
  refine P.bind (holds_readRegion supports _ _ _ _) fun bytes => ?_
  split
  · exact P.bind (P.emit rfl) fun _ => P.pure _
  · exact P.bind (P.emit rfl) fun _ => P.pure _

theorem Writer.holds_stage (w : Writer) (index : UInt8) (value : UInt32) :
    P.Holds .entries (w.stage d index value) := by
  unfold stage
  refine P.bind (Device.holds_issue supports _) fun _ => ?_
  split
  · exact P.emit rfl
  · exact P.pure _

theorem Writer.holds_write (w : Writer) (c : Chunk) : P.Holds .entries (w.write d c) := by
  have stages := w.holds_stage supports
  unfold write
  refine P.bind (stages _ _) fun _ => P.bind (stages _ _) fun _ => P.bind (stages _ _) fun _ =>
    P.bind (stages _ _) fun _ => ?_
  refine P.bind (Device.holds_issue supports _) fun actual => ?_
  split
  · exact P.pure _
  · exact P.fail _

theorem Preservation.holds_writeChunks (w : Writer) (base : UInt32) (total : Nat)
    (cs : List Chunk) : P.Holds .entries (writeChunks w d base total cs) := by
  induction cs with
  | nil => exact P.pure _
  | cons c rest ih =>
    unfold writeChunks
    refine P.bind (w.holds_write supports c) fun checksum => ?_
    exact P.bind (P.emit rfl) fun _ => P.bind (P.emit rfl) fun _ => ih

theorem Preservation.holds_restore (w : Writer) (l : Layout) (b : Option NvmBackup) :
    P.Holds .entries (restore w d l b) := by
  cases b with
  | none => exact P.bind (P.emit rfl) fun _ => P.pure _
  | some b =>
    refine P.bind (holds_writeChunks supports w _ _ _) fun _ => ?_
    exact P.bind (P.emit rfl) fun _ => P.pure _

theorem Programming.holds_erase (w : Writer) : P.Holds .entries (erase w d) := by
  unfold erase
  refine P.bind (Device.holds_issue supports _) fun status => ?_
  split
  · exact P.emit rfl
  · exact P.fail _

theorem Programming.holds_writePieces (w : Writer) (total : Nat) (ps : List Piece) :
    P.Holds .entries (writePieces w d total ps) := by
  induction ps with
  | nil => exact P.pure _
  | cons piece rest ih =>
    unfold writePieces
    refine P.bind (w.holds_write supports piece.chunk) fun checksum => ?_
    exact P.bind (P.emit rfl) fun _ => P.bind (P.emit rfl) fun _ => ih

theorem Programming.holds_program (w : Writer) (base : UInt32) (image : Image) :
    P.Holds .entries (program w d base image) := by
  unfold program
  refine P.bind (holds_writePieces supports w _ _) fun _ => ?_
  exact P.bind (P.emit rfl) fun _ => P.pure _

end Upload

/-! ## Whole uploads and recoveries -/

namespace Uploader

/-- A part of an upload that knows only the device, in the upload under way. -/
theorem holds_onDevice {r : Routine Entry υ DfuError α} (holds : P.Holds .entries r) :
    P.Holds .underway (onDevice r) :=
  P.zoom holds Layer.part_underway

theorem holds_say (level : Level) (message : String) :
    P.Holds .underway (say level message : Routine Entry (Underway υ) DfuError Unit) :=
  P.emit rfl

/-- A step between stages does not reach the device. -/
theorem holds_goto (next : Stage) :
    P.Holds .underway (goto next : Routine Entry (Underway υ) DfuError Unit) := by
  unfold goto
  refine P.get_bind (fun _ _ => rfl) fun u => P.bind (P.ofExcept _) fun tracker => ?_
  refine P.bind (P.modify (fun _ => rfl) fun _ _ => rfl) fun _ => ?_
  exact P.bind (P.emit rfl) fun _ => P.emit rfl

theorem holds_reportDamage (st : Stage) :
    P.Holds .underway (reportDamage st : Routine Entry (Underway υ) DfuError Unit) := by
  unfold reportDamage
  split
  · exact holds_say _ _
  · exact P.bind (holds_say _ _) fun _ => holds_say _ _
  · exact holds_say _ _
  · exact P.pure _

theorem holds_reportVerification (c : Comparison) :
    P.Holds .underway (reportVerification c : Routine Entry (Underway υ) DfuError Unit) := by
  cases c <;> exact holds_say _ _

theorem holds_abort (e : DfuError) :
    P.Holds .underway (abort e : Routine Entry (Underway υ) DfuError Unit) := by
  have reported : P.Holds .underway (Routine.get >>= fun u : Underway υ =>
      reportDamage (u.tracker.abortedIn.getD u.tracker.stage) >>= fun _ =>
        Routine.emit (.ofRecord .error "Upload failed"
          [("state", (u.tracker.abortedIn.getD u.tracker.stage).label), ("error", e.message)])) :=
    P.get_bind (fun _ _ => rfl) fun _ => P.bind (holds_reportDamage _) fun _ => P.emit rfl
  unfold abort
  refine P.get_bind (fun _ _ => rfl) fun u => ?_
  split
  · exact P.bind (holds_goto _) fun _ => reported
  · exact reported

section

variable {d : Device υ} (supports : d.Supports P)
include supports

theorem holds_compare (u : Uploader) (image : Image) (activity : Activity) :
    P.Holds .underway (u.compare d image activity) :=
  holds_onDevice (Comparison.holds_comparePieces supports _ _ _)

theorem holds_reflash (u : Uploader) (image : Image) :
    P.Holds .underway (u.reflash d image) := by
  have closing (result : UploadResult) : P.Holds .underway
      (goto .done >>= fun _ => Routine.emit (.event .complete) >>= fun _ =>
        (pure result : Routine Entry (Underway υ) DfuError UploadResult)) :=
    P.bind (holds_goto _) fun _ => P.bind (P.emit rfl) fun _ => P.pure _
  unfold reflash
  refine P.bind (holds_goto _) fun _ => ?_
  refine P.bind (holds_onDevice (Preservation.holds_backup supports _)) fun backup => ?_
  refine P.bind (holds_goto _) fun _ => ?_
  refine P.bind (holds_onDevice (Programming.holds_erase supports _)) fun _ => ?_
  refine P.bind (holds_goto _) fun _ => ?_
  refine P.bind (holds_onDevice (Programming.holds_program supports _ _ _)) fun _ => ?_
  refine P.bind (holds_goto _) fun _ => ?_
  refine P.bind (holds_onDevice (Preservation.holds_restore supports _ _ _)) fun restored => ?_
  refine P.bind (holds_goto _) fun _ => ?_
  refine P.bind (holds_compare supports u _ _) fun verification => ?_
  refine P.bind (holds_reportVerification _) fun _ => ?_
  split
  · refine P.bind (holds_goto _) fun _ => ?_
    refine P.bind (holds_onDevice (Device.holds_issue supports _)) fun _ => ?_
    exact P.bind (holds_say _ _) fun _ => closing _
  · exact closing _

theorem holds_pipeline (u : Uploader) (image : Image) :
    P.Holds .underway (u.pipeline d image) := by
  unfold pipeline
  refine P.bind (P.mapError (P.ofExcept _) _) fun _ => ?_
  split
  · exact P.bind (P.emit rfl) fun _ => holds_reflash supports u image
  · refine P.bind (holds_goto _) fun _ => ?_
    refine P.bind (holds_compare supports u _ _) fun c => ?_
    cases c with
    | identical =>
      refine P.bind (holds_say _ _) fun _ => P.bind (holds_goto _) fun _ => ?_
      exact P.bind (P.emit rfl) fun _ => P.pure _
    | differs => exact P.bind (holds_say _ _) fun _ => holds_reflash supports u image

theorem holds_run (u : Uploader) (image : Image) : P.Holds .underway (u.run d image) := by
  unfold run
  refine P.bind (P.attempt (holds_pipeline supports u image)) fun result => ?_
  cases result with
  | ok result => exact P.pure _
  | error e => exact P.bind (holds_abort e) fun _ => P.fail _

end

end Uploader

namespace Recovery

variable {connect : Routine Note υ SessionError α} (connecting : P.Holds .notes connect)
include connecting

theorem holds_attempts (retryDelay limit : Nat) :
    P.Holds .recovering (attempts connect retryDelay limit) := by
  induction limit with
  | zero => exact P.pure _
  | succ limit ih =>
    have entries : P.Holds .entries (connect.mapLog .note) :=
      P.mapLog connecting rfl fun _ => rfl
    have tried : P.Holds .recovering (attempt connect) :=
      P.zoom (P.attempt entries) Layer.part_recovering
    unfold attempts
    refine P.bind tried fun result => ?_
    split
    · exact P.get_bind (fun _ _ => rfl) fun _ => P.bind (P.emit rfl) fun _ => P.pure _
    · refine P.bind (P.modify (fun _ => rfl) fun _ _ => rfl) fun _ => ?_
      refine P.get_bind (fun _ _ => rfl) fun r => P.bind (P.emit rfl) fun _ => ?_
      split
      · exact P.bind (P.emit rfl) fun _ => ih
      · exact ih
    · exact P.fail _

theorem holds_run (operator : Operator) (retryDelay limit : Nat) :
    P.Holds .recovering (run operator connect retryDelay limit) := by
  have asked (p : Prompt) :
      P.Holds .recovering (ask operator p : Routine Entry (Recovering υ) _ Unit) :=
    P.bind (P.emit rfl) fun _ => P.mapError (P.ofExcept _) _
  unfold run
  refine P.bind (asked _) fun _ => P.bind (asked _) fun _ => ?_
  exact P.bind (P.emit rfl) fun _ => holds_attempts connecting retryDelay limit

end Recovery

/-! ## Using the bus -/

namespace Cli

/-- A routine of a device, as a step of the program. -/
theorem holds_entries {r : Routine Entry υ ε α} (holds : P.Holds .entries r) :
    P.Holds .lines (r.mapLog Line.entry) := by
  refine P.mapLog holds rfl fun e => ?_
  cases e <;> rfl

/-- A routine of an adapter or a node, as a step of the program. -/
theorem holds_lower {r : Routine Note υ ε α} (holds : P.Holds .notes r) (wrap : ε → Failure) :
    P.Holds .lines (lower wrap r) := by
  have noted : P.Holds .lines (r.mapLog fun n => Line.entry (.note n)) :=
    P.mapLog holds rfl fun _ => rfl
  exact P.mapError noted wrap

theorem holds_report (level : Level) (message : String) (fields : List (String × String)) :
    P.Holds .lines (report level message fields : Routine Line υ ε Unit) :=
  P.emit rfl

theorem holds_reportResult (result : UploadResult) :
    P.Holds .lines (reportResult result : Routine Line υ Failure Unit) := by
  have reported := @holds_report υ Failure P
  cases result with
  | upToDate => exact reported _ _ _
  | flashed restored verification reset =>
    cases verification with
    | identical =>
      cases reset with
      | true => exact reported _ _ _
      | false => exact P.bind (reported _ _ _) fun _ => reported _ _ _
    | differs =>
      refine P.bind (reported _ _ _) fun _ => ?_
      cases reset with
      | true => exact reported _ _ _
      | false => exact P.bind (reported _ _ _) fun _ => reported _ _ _

theorem holds_loadImage (P : Compositional υ) (files : Files) (a : Args) :
    P.Holds .lines (loadImage files a : Routine Line υ Failure (Option Image)) := by
  have loaded (path : String) : P.Holds .notes (Image.load files path) := by
    unfold Image.load
    split
    · exact P.fail _
    · exact P.bind (P.emit rfl) fun _ => P.pure _
    · exact P.fail _
  unfold loadImage
  split
  · exact P.bind (holds_lower (loaded _) _) fun _ => P.pure _
  · exact P.pure _

variable {t : Transport υ} (supports : t.Supports P)
include supports

theorem holds_recover (operator : Operator) (profile : Profile) (a : Args)
    (patience limit : Nat) :
    P.Holds .lines (recover t operator profile a patience limit) := by
  have connecting := Node.holds_connect supports profile a.node patience
  have recovery := P.zoom (Recovery.holds_run connecting operator 0 limit) Layer.part_recovery
  unfold recover
  refine P.bind (P.mapError (holds_entries recovery) _) fun found => ?_
  cases found with
  | some n => exact P.emit rfl
  | none => exact P.fail _

theorem holds_upload (config : Config) (profile : Profile) (a : Args) (patience : Nat)
    (image : Image) : P.Holds .lines (upload t config profile a patience image) := by
  have connecting := Node.holds_connect supports profile a.node patience
  have running (n : Node) (u : Uploader) :=
    P.zoom (Uploader.holds_run (n.supports_device supports) u image) Layer.part_upload
  unfold upload
  refine P.bind (holds_lower connecting _) fun n => P.get_bind (fun _ _ => rfl) fun s => ?_
  exact P.bind (P.mapError (holds_entries (running n _)) _) holds_reportResult

/-- What holds of sending and waiting holds of all that an opened bus is used for. -/
theorem holds_useBus (operator : Operator) (config : Config) (profile : Profile) (a : Args)
    (limit : Nat) (image : Option Image) :
    P.Holds .lines (useBus t operator config profile a limit image) := by
  unfold useBus
  split
  · exact holds_recover supports operator profile a _ limit
  · cases image with
    | some image => exact holds_upload supports config profile a _ image
    | none => exact P.fail _

end Cli

/-! ## Opening and closing a bus -/

/-- The property holds of all that a host is used for: of each access, of waits at its adapters, and
of whatever depends on the host by its list of devices only. -/
structure Usb.Host.Supports (P : Compositional υ) (h : Usb.Host υ) : Prop where
  opened : ∀ device, P.Holds .notes (Adapter.openAt.opened h device)
  claimed : ∀ device, P.Holds .notes (Adapter.openAt.claimed h device)
  transfer : ∀ device t, P.Holds .notes (Adapter.transfer h device t)
  released : ∀ {ε : Type} (device : Nat),
    P.Holds .notes (Adapter.release device : Routine Note υ ε Unit)
  listed : ∀ {ε α : Type} {f : υ → Routine Note υ ε α},
    (∀ s s', h.list s = h.list s' → f s = f s') → (∀ s, P.Holds .notes (f s)) →
      P.Holds .notes (Routine.get >>= f)
  await : ∀ (a : Adapter) (awaited : Awaited) (patience : Nat),
    P.Holds .notes (Awaited.await (a.transport h) awaited patience)

theorem Adapter.holds_send {h : Usb.Host υ}
    (transfers : ∀ device t, P.Holds .notes (transfer h device t)) (a : Adapter) (f : Frame) :
    P.Holds .notes (a.send h f) := by
  unfold send
  refine P.bind (P.mapError (P.ofExcept _) _) fun endpoint => ?_
  exact P.bind (P.mapError (transfers _ _) _) fun _ => P.pure _

section Adapter

variable {h : Usb.Host υ} (supports : h.Supports P)
include supports

namespace Adapter

theorem holds_controlOut (a : Adapter) (r : Request) (value : UInt16) (data : List UInt8) :
    P.Holds .notes (controlOut h a r value data) :=
  P.bind (P.mapError (supports.transfer _ _) _) fun _ => P.pure _

theorem holds_setRunning (a : Adapter) (on : Bool) : P.Holds .notes (setRunning h a on) :=
  holds_controlOut supports a .mode _ _

theorem holds_close (a : Adapter) : P.Holds .notes (close h a : Routine Note υ ε Unit) := by
  unfold close
  refine P.bind (P.attempt (holds_setRunning supports a false)) fun stopped => ?_
  cases stopped with
  | ok _ => exact P.bind (P.pure _) fun _ => supports.released _
  | error e => exact P.bind (P.emit rfl) fun _ => supports.released _

theorem holds_start (a : Adapter) (bitrate : UInt32) : P.Holds .notes (start h a bitrate) := by
  have asks := holds_controlOut supports a
  unfold start
  refine P.bind (P.mapError (asks _ _ _) _) fun _ => ?_
  refine P.bind (P.mapError (P.mapError (supports.transfer _ _) _) _) fun answer => ?_
  refine P.bind (P.mapError (P.ofExcept _) _) fun limits => ?_
  refine P.bind (P.mapError (P.ofExcept _) _) fun timing => ?_
  refine P.bind (P.emit rfl) fun _ => ?_
  refine P.bind (P.mapError (asks _ _ _) _) fun _ => ?_
  exact P.mapError (holds_setRunning supports a true) _

theorem holds_openAt (index : Nat) (bitrate : UInt32) :
    P.Holds .notes (openAt h index bitrate) := by
  unfold openAt
  refine supports.listed (fun s s' same => by rw [same]) fun s => ?_
  refine P.bind (P.mapError (P.ofExcept _) _) fun list => ?_
  split
  · exact P.fail _
  · refine P.bind (P.emit rfl) fun _ => P.bind (supports.opened _) fun configurations => ?_
    refine P.bind (supports.claimed _) fun endpoints => ?_
    dsimp only
    split
    · exact P.bind (supports.released _) fun _ => P.fail _
    split
    · exact P.bind (supports.released _) fun _ => P.fail _
    · refine P.bind (P.attempt (holds_start supports _ _)) fun started => ?_
      cases started with
      | error e => exact P.bind (holds_close supports _) fun _ => P.fail _
      | ok _ => exact P.bind (P.emit rfl) fun _ => P.pure _

theorem supports_transport (a : Adapter) : (a.transport h).Supports P where
  send := a.holds_send supports.transfer
  await := supports.await a

end Adapter

theorem Bus.holds_openFirst (index : Nat) (bitrate : UInt32) (tried backends : List String) :
    P.Holds .notes (openFirst h index bitrate tried backends) := by
  induction backends generalizing tried with
  | nil => exact P.fail _
  | cons backend rest ih =>
    unfold openFirst
    dsimp only
    split
    · refine P.bind (P.attempt (Adapter.holds_openAt supports index bitrate)) fun opened => ?_
      split
      · exact P.bind (P.emit rfl) fun _ => P.pure _
      · exact P.fail _
      · exact P.bind (P.emit rfl) fun _ => ih _
    · exact P.bind (P.emit rfl) fun _ => ih _

/-! ## Runs of the program -/

namespace Cli

/-- What holds of all that a host is used for holds of a run of the program. -/
theorem holds_run (files : Files) (a : Args) (limit : Nat) :
    P.Holds .lines (run h files a limit) := by
  have uses (config : Config) (profile : Profile) (image : Option Image) (adapter : Adapter) :=
    holds_useBus (adapter.supports_transport supports) terminalOperator config profile a limit image
  unfold run
  refine P.bind (P.ofExcept _) fun config => ?_
  refine P.bind (P.mapError (P.ofExcept _) _) fun profile => ?_
  refine P.bind (P.mapError (P.ofExcept _) _) fun _ => ?_
  refine P.bind (holds_loadImage P files a) fun image => ?_
  unfold overBus closing
  refine P.bind (holds_lower (Bus.holds_openFirst supports _ _ _ _) _) fun adapter => ?_
  refine P.bind (P.attempt (uses config profile image adapter)) fun ended => ?_
  exact P.bind (holds_lower (Adapter.holds_close supports adapter) _) fun _ => P.ofExcept _

end Cli

end Adapter

end CanDfu
