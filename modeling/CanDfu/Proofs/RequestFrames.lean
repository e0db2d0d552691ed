/-
  CanDfu.Proofs.RequestFrames

  Which requests look the same on the wire.  A frame gives away the node and the endpoint its
  request went to, since the endpoint lies below the bits of the node id.  Behind one endpoint a
  request is told by its payload:

    hash       remote
    read       4 bytes
    scratch    5 bytes
    commit     4 bytes, or 8 with a last argument
    erase      none, or 4 with a last argument
    reset      none

  So reads, commits and erases need endpoints of their own, and resets one apart from that of
  erases; all else may share endpoints.  A valid profile need not keep them apart.
-/
import CanDfu.Proofs.BusProtocol

namespace CanDfu

variable {p : Profile} {node node' : UInt8} {ids : FrameIds} {r r' : Request} {f : Frame}

/-- The frames that a session hands out for requests to a node: the probe that addresses it, and
the frames of commands that are not refused unsent. -/
inductive Sends (p : Profile) (node : UInt8) : Request → Frame → Prop
  | probe {ids : FrameIds} (resolved : FrameIds.resolve p node = .ok ids) :
      Sends p node .hash (Node.hashProbe ids p)
  | command {n : Node} {c : Command} {f : Frame} (profile : n.profile = p)
      (resolved : FrameIds.resolve p node = .ok n.ids) (checked : c.check = .ok ())
      (framed : n.frame c = .ok f) : Sends p node (.command c) f

/-- Endpoints that leave no request in doubt. -/
structure Endpoints.Separate (e : Endpoints) : Prop where
  read_commit : e.read ≠ e.commit
  read_erase : e.read ≠ e.erase
  commit_erase : e.commit ≠ e.erase
  erase_reset : e.erase ≠ e.reset

/-! ## The frame of a request -/

namespace Request

/-- The endpoint a request goes to. -/
def endpoint (e : Endpoints) : Request → UInt16
  | hash => e.protocolHash
  | command c => e.ofCommand c

/-- The frame of a request to the node with these identifiers. -/
def frame (p : Profile) (ids : FrameIds) : Request → Frame
  | hash => Node.hashProbe ids p
  | command c => ⟨ids.ofCommand c, p.extendedId, .data c.arguments c.length_arguments⟩

theorem endpoint_mem_named (e : Endpoints) (r : Request) :
    r.endpoint e ∈ e.named.map Prod.snd := by
  cases r with
  | hash => exact List.mem_cons_self ..
  | command c => cases c <;> simp [endpoint, Endpoints.ofCommand, Endpoints.named]

/-- The identifier of a request is that of its endpoint. -/
theorem frameId_frame (resolved : FrameIds.resolve p node = .ok ids) (r : Request) :
    p.frameId node (r.endpoint p.endpoints) = .ok (r.frame p ids).id := by
  obtain ⟨probe, commands⟩ := FrameIds.frameId_of_resolve resolved
  cases r with
  | hash => exact probe
  | command c => exact commands c

/-- The endpoint of a request to a node that can be addressed lies below the node id. -/
theorem endpoint_lt (resolved : FrameIds.resolve p node = .ok ids) (r : Request) :
    (r.endpoint p.endpoints).toNat < 2 ^ p.nodeIdShift.toNat := by
  have sound := Profile.sound_of_validate (FrameIds.frameIds_of_resolve resolved).1
  obtain ⟨e, named, same⟩ := List.mem_map.mp (r.endpoint_mem_named p.endpoints)
  exact same ▸ sound.endpoint_lt e named

/-- Frames are the same only if they go to one endpoint of one node. -/
theorem eq_of_frame_eq {ids' : FrameIds} (resolved : FrameIds.resolve p node = .ok ids)
    (resolved' : FrameIds.resolve p node' = .ok ids') (same : r.frame p ids = r'.frame p ids') :
    node = node' ∧ r.endpoint p.endpoints = r'.endpoint p.endpoints := by
  obtain ⟨above, below⟩ := Profile.div_mod_of_frameId (endpoint_lt resolved r)
    (frameId_frame resolved r)
  obtain ⟨above', below'⟩ := Profile.div_mod_of_frameId (endpoint_lt resolved' r')
    (frameId_frame resolved' r')
  rw [same] at above below
  exact ⟨UInt8.toNat_inj.mp (above.symm.trans above'),
    UInt16.toNat_inj.mp (below.symm.trans below')⟩

end Request

theorem Sends.exists_frame (h : Sends p node r f) :
    ∃ ids, FrameIds.resolve p node = .ok ids ∧ f = r.frame p ids := by
  cases h with
  | probe resolved => exact ⟨_, resolved, rfl⟩
  | @command n c f profile resolved checked framed =>
    rw [n.frame_eq c] at framed
    injection framed with framed
    exact ⟨n.ids, resolved, profile ▸ framed.symm⟩

/-- Every command that is not refused has its frame. -/
theorem sends_command (resolved : FrameIds.resolve p node = .ok ids) {c : Command}
    (checked : c.check = .ok ()) : Sends p node (.command c) ((Request.command c).frame p ids) :=
  .command (n := ⟨p, ids, node, 0, 0⟩) rfl resolved checked (Node.frame_eq _ c)

/-! ## Payloads -/

/-- The bytes that the arguments of a command take. -/
def Command.argumentSize : Command → Nat
  | read _ => 4
  | scratch .. => 5
  | commit _ none => 4
  | commit _ (some _) => 8
  | erase none => 0
  | erase (some _) => 4
  | reset => 0

theorem Command.length_arguments_eq (c : Command) : c.arguments.length = c.argumentSize := by
  cases c with
  | read | scratch | reset => rfl
  | commit address seed => cases seed <;> rfl
  | erase seed => cases seed <;> rfl

/-- Commands on one endpoint with the same arguments are the same, if the endpoints are
separate. -/
theorem Command.eq_of_arguments_eq {e : Endpoints} (separate : e.Separate) {c c' : Command}
    (endpoint : e.ofCommand c = e.ofCommand c') (same : c.arguments = c'.arguments) : c = c' := by
  have size : c.argumentSize = c'.argumentSize := by
    rw [← c.length_arguments_eq, ← c'.length_arguments_eq, same]
  -- two commands of one kind are read back from their arguments; of two kinds, they go to
  -- endpoints that are kept apart, or take different numbers of bytes
  cases c with
  | read address =>
    cases c' with
    | read address' =>
      have read := congrArg (LittleEndian.firstWord 0) same
      simp only [arguments, LittleEndian.firstWord_bytes] at read
      rw [read]
    | commit => exact absurd endpoint separate.read_commit
    | erase => exact absurd endpoint separate.read_erase
    | scratch | reset => cases size
  | scratch index value =>
    cases c' with
    | scratch index' value' =>
      injection same with index_eq rest
      have read := congrArg (LittleEndian.firstWord 0) rest
      rw [LittleEndian.firstWord_bytes, LittleEndian.firstWord_bytes] at read
      rw [index_eq, read]
    | read | reset => cases size
    | commit _ seed => cases seed <;> cases size
    | erase seed => cases seed <;> cases size
  | commit address seed =>
    cases c' with
    | commit address' seed' =>
      have read := congrArg Request.commit? same
      rw [Request.commit?_arguments, Request.commit?_arguments] at read
      exact Option.some.inj read
    | read => exact absurd endpoint.symm separate.read_commit
    | erase => exact absurd endpoint separate.commit_erase
    | scratch | reset => cases seed <;> cases size
  | erase seed =>
    cases c' with
    | erase seed' =>
      have read := congrArg Request.erase? same
      rw [Request.erase?_arguments, Request.erase?_arguments] at read
      exact Option.some.inj read
    | read => exact absurd endpoint.symm separate.read_erase
    | commit => exact absurd endpoint.symm separate.commit_erase
    | reset => exact absurd endpoint separate.erase_reset
    | scratch => cases seed <;> cases size
  | reset =>
    cases c' with
    | reset => rfl
    | erase => exact absurd endpoint.symm separate.erase_reset
    | read | scratch => cases size
    | commit _ seed => cases seed <;> cases size

/-- Requests with the same frame are the same, if the endpoints are separate. -/
theorem Request.eq_of_separate (separate : p.endpoints.Separate)
    (resolved : FrameIds.resolve p node = .ok ids) (same : r.frame p ids = r'.frame p ids) :
    r = r' := by
  have endpoint := (eq_of_frame_eq resolved resolved same).2
  have payload := congrArg Frame.payload same
  cases r with
  | hash =>
    cases r' with
    | hash => rfl
    | command => cases payload
  | command c =>
    cases r' with
    | hash => cases payload
    | command c' =>
      injection payload with arguments
      rw [Command.eq_of_arguments_eq separate endpoint arguments]

/-! ## Which requests are apart -/

/-- Two commands on one endpoint with the same arguments are sent as one frame. -/
theorem sends_both (resolved : FrameIds.resolve p node = .ok ids) {c c' : Command}
    (checked : c.check = .ok ()) (checked' : c'.check = .ok ())
    (endpoint : p.endpoints.ofCommand c = p.endpoints.ofCommand c')
    (arguments : c.arguments = c'.arguments) :
    ∃ f, Sends p node (.command c) f ∧ Sends p node (.command c') f := by
  have commands := (FrameIds.frameId_of_resolve resolved).2
  have ids_eq : ids.ofCommand c = ids.ofCommand c' := by
    have found := commands c
    rw [endpoint, commands c'] at found
    exact (Except.ok.inj found).symm
  refine ⟨_, sends_command resolved checked, ?_⟩
  have frame : (Request.command c).frame p ids = (Request.command c').frame p ids := by
    simp only [Request.frame, ids_eq, arguments]
  exact frame ▸ sends_command resolved checked'

/-- Under every valid profile a frame belongs to one endpoint of one node, so no node is sent what
is meant for another.  It belongs to one request exactly if reads, commits and erases have
endpoints of their own, and resets one apart from that of erases. -/
theorem sends_apart_iff (addressed : p.Addresses node) :
    (∀ a b r r' f, Sends p a r f → Sends p b r' f →
      a = b ∧ r.endpoint p.endpoints = r'.endpoint p.endpoints) ∧
    ((∀ a b r r' f, Sends p a r f → Sends p b r' f → a = b ∧ r = r')
      ↔ p.endpoints.Separate) := by
  obtain ⟨ids, resolved⟩ := FrameIds.exists_resolve_iff.mpr addressed
  refine ⟨fun a b r r' f h h' => ?_, fun apart => ?_, fun separate a b r r' f h h' => ?_⟩
  · obtain ⟨_, first, same⟩ := h.exists_frame
    obtain ⟨_, second, same'⟩ := h'.exists_frame
    exact Request.eq_of_frame_eq first second (same.symm.trans same')
  · -- requests that share an endpoint and a payload would be told apart
    have distinct (c c' : Command) (checked : c.check = .ok ()) (checked' : c'.check = .ok ())
        (arguments : c.arguments = c'.arguments) (different : c ≠ c') :
        p.endpoints.ofCommand c ≠ p.endpoints.ofCommand c' := by
      intro endpoint
      obtain ⟨f, h, h'⟩ := sends_both resolved checked checked' endpoint arguments
      exact different (Request.command.inj (apart _ _ _ _ f h h').2)
    exact {
      read_commit := distinct (.read 0) (.commit 0 none) rfl rfl rfl nofun
      read_erase := distinct (.read 0) (.erase (some 0)) rfl rfl rfl nofun
      commit_erase := distinct (.commit 0 none) (.erase (some 0)) rfl rfl rfl nofun
      erase_reset := distinct (.erase none) .reset rfl rfl rfl nofun }
  · obtain ⟨_, first, same⟩ := h.exists_frame
    obtain ⟨_, second, same'⟩ := h'.exists_frame
    obtain ⟨rfl, -⟩ := Request.eq_of_frame_eq first second (same.symm.trans same')
    obtain rfl := Except.ok.inj (first.symm.trans second)
    exact ⟨rfl, Request.eq_of_separate separate first (same.symm.trans same')⟩

/-- A profile with as few endpoints as keep all requests apart. -/
def sharingProfile : Profile where
  nodeIdShift := 6
  endpoints := ⟨1, 1, 1, 2, 3, 1⟩

/-- That profile keeps the requests to its thirty-two nodes apart. -/
theorem sends_apart_iff_sharing :
    sharingProfile.Addresses 31 ∧
      ∀ a b r r' f, Sends sharingProfile a r f → Sends sharingProfile b r' f → a = b ∧ r = r' := by
  have addressed : sharingProfile.Addresses 31 :=
    FrameIds.exists_resolve_iff.mp ⟨⟨1985, 1985, 1985, 1986, 1987, 1985⟩, rfl⟩
  exact ⟨addressed, (sends_apart_iff addressed).2.mpr (by constructor <;> decide)⟩

/-- A profile whose resets go where its erases go. -/
def crampedProfile : Profile where
  nodeIdShift := 6
  endpoints := ⟨0, 1, 2, 3, 4, 4⟩

/-- Under that profile, which is valid, a reset is sent as an erase. -/
theorem reset_sent_as_erase :
    crampedProfile.validate = .ok () ∧
      Sends crampedProfile 1 (.command (.erase none)) ⟨68, false, .data [] (by decide)⟩ ∧
      Sends crampedProfile 1 (.command .reset) ⟨68, false, .data [] (by decide)⟩ ∧
      ¬ ∀ a b r r' f, Sends crampedProfile a r f → Sends crampedProfile b r' f →
        a = b ∧ r = r' := by
  have resolved : FrameIds.resolve crampedProfile 1 = .ok ⟨64, 65, 66, 67, 68, 68⟩ := rfl
  have erase : Sends crampedProfile 1 (.command (.erase none)) ⟨68, false, .data [] _⟩ :=
    sends_command resolved rfl
  have reset : Sends crampedProfile 1 (.command .reset) ⟨68, false, .data [] _⟩ :=
    sends_command resolved rfl
  refine ⟨rfl, erase, reset, fun apart => ?_⟩
  cases (apart 1 1 _ _ _ erase reset).2

end CanDfu
