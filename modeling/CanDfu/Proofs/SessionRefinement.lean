/-
  CanDfu.Proofs.SessionRefinement

  Whole sessions over the bus against the bootloader in memory.  A session that addressed a node
  gets from it, command by command, what the bootloader answers to the same commands; what the
  bootloader rejects shows as silence.  `SimulatedBus` is a bus of this kind on which any other
  frames may come before and after every answer.
-/
import CanDfu.Proofs.CallHistory
import CanDfu.Proofs.NodeOnBus

namespace CanDfu

/-! ## Sessions -/

/-- Gives a device commands one after the other. -/
def Device.session {σ : Type} (d : Device σ) : List Command → σ → List Call × σ
  | [], s => ([], s)
  | c :: rest, s =>
    let o := d.call c s
    let (made, s') := d.session rest o.state
    (⟨c, o.result⟩ :: made, s')

/-- A call with its answer as a session is to see it. -/
def Call.seen (patience : Nat) (c : Call) : Call := ⟨c.command, seenOver patience c.answer⟩

theorem Simulated.seed_answer (s : Simulated) (c : Command) : (s.answer c).2.seed = s.seed := by
  cases c with
  | read address =>
    show (s.read address).2.seed = _
    unfold read
    split <;> rfl
  | scratch index value =>
    show (s.stage index value).2.seed = _
    unfold stage
    split <;> rfl
  | commit address seed =>
    show (s.commit address seed).2.seed = _
    unfold commit
    split
    · rfl
    · split <;> rfl
  | erase seed =>
    show (s.erase seed).2.seed = _
    unfold erase
    split
    · rfl
    · split <;> rfl
  | reset => rfl

/-- The last argument a bootloader asks for does not change. -/
theorem Simulated.seed_session (commands : List Command) (s : Simulated) :
    (Simulated.device.session commands s).2.seed = s.seed := by
  induction commands generalizing s with
  | nil => rfl
  | cons c rest ih => exact (ih _).trans (s.seed_answer c)

variable {τ : Type} {t : Transport τ} {v : BusView τ} {hash : UInt32} {n : Node} {s : τ}

/-- A session runs in step with the bootloader it talks to. -/
theorem Serves.session_eq (serves : Serves t v n.profile n.ids hash n.patience)
    (distinct : n.ids.toList.Nodup) (quiet : v.pending s = []) (commands : List Command) :
    ((n.device t).session commands s).1
        = (Simulated.device.session commands (v.node s)).1.map (Call.seen n.patience) ∧
      v.node ((n.device t).session commands s).2
        = (Simulated.device.session commands (v.node s)).2 ∧
      v.pending ((n.device t).session commands s).2 = [] ∧
      v.sent ((n.device t).session commands s).2 = v.sent s ++ commands.flatMap n.sends := by
  induction commands generalizing s with
  | nil => exact ⟨rfl, rfl, quiet, (List.append_nil _).symm⟩
  | cons c rest ih =>
    -- nothing is pending behind the first command, so the rest may begin there
    obtain ⟨s', log, called, node, nothing, sent⟩ := serves.call_eq distinct quiet c
    obtain ⟨made, node', nothing', sent'⟩ := ih nothing
    rw [node] at made node'
    have bus : (n.device t).session (c :: rest) s
        = (⟨c, seenOver n.patience ((v.node s).answer c).1⟩ :: ((n.device t).session rest s').1,
          ((n.device t).session rest s').2) := by
      have call : (n.device t).call c s = _ := called
      rw [Device.session, call]
    rw [bus, made, node', sent', sent, List.flatMap_cons, List.append_assoc]
    exact ⟨rfl, rfl, nothing', rfl⟩

/-! ## A bus with other traffic -/

instance (p : Profile) (ids : FrameIds) (f : Frame) : Decidable (IsRelated p ids f) :=
  inferInstanceAs (Decidable (_ ∧ _ ∧ _))

/-- A frame that is none of the node's. -/
abbrev OtherFrame (p : Profile) (ids : FrameIds) := { f : Frame // ¬ IsRelated p ids f }

/-- A bus with a simulated node on it, and the other frames that are still to come. -/
structure SimulatedBus (p : Profile) (ids : FrameIds) where
  node : Simulated
  /-- Frames to be received. -/
  queue : List Frame := []
  sent : List Frame := []
  /-- Frames queued at each send to come, before the answer and after it. -/
  traffic : List (List (OtherFrame p ids) × List (OtherFrame p ids)) := []

namespace SimulatedBus

variable {p : Profile} {ids : FrameIds}

/-- Takes a frame to the node and queues its answer among the frames that come at this time. -/
def send (hash : UInt32) (f : Frame) :
    Routine Note (SimulatedBus p ids) TransportError Unit := fun b =>
  let (node, answer) := serve p ids hash b.node f
  let (before, after) := b.traffic.headD ([], [])
  ⟨.ok (), {
    node
    queue := b.queue ++ before.map Subtype.val ++ answer.toList ++ after.map Subtype.val
    sent := b.sent ++ [f]
    traffic := b.traffic.tail }, []⟩

/-- Hands out the next frame of the queue. -/
def receive (patience : Nat) : Routine Note (SimulatedBus p ids) TransportError Frame := fun b =>
  match b.queue with
  | [] => ⟨.error (.timeout (wholeMillis patience)), b, []⟩
  | f :: rest => ⟨.ok f, { b with queue := rest }, []⟩

/-- The bus as a transport.  Its clock stands still. -/
def transport (hash : UInt32) : Transport (SimulatedBus p ids) where
  name := "bench"
  send := send hash
  receive := receive
  clock b := (0, b)
  backlog b := b.queue.length
  backlog_receive patience b f h := by
    unfold receive at h ⊢
    cases queue : b.queue with
    | nil => simp [queue] at h
    | cons g rest => simp
  backlog_clock b := Nat.le_refl _

/-- What there is behind the bus. -/
def view (p : Profile) (ids : FrameIds) : BusView (SimulatedBus p ids) where
  node := node
  pending b := b.queue.filter fun f => IsRelated p ids f
  sent := sent

/-- An answer is on the identifier of its request. -/
theorem isRelated_of_serve {hash : UInt32} {s : Simulated} {f g : Frame}
    (h : (serve p ids hash s f).2 = some g) : IsRelated p ids g := by
  have related {id : UInt32} {bytes : List UInt8} (known : id ∈ ids.toList)
      (framed : Frame.data? id p.extendedId bytes = some g) : IsRelated p ids g := by
    unfold Frame.data? at framed
    split at framed
    · injection framed with framed
      subst framed
      exact ⟨rfl, rfl, known⟩
    · cases framed
  unfold serve at h
  split at h
  · cases h
  · change Frame.data? ids.protocolHash p.extendedId (LittleEndian.bytes hash) = some g at h
    exact related (List.mem_cons_self ..) h
  · next c _ =>
    split at h
    · cases h
    · obtain ⟨bytes, -, framed⟩ := Option.bind_eq_some_iff.mp h
      exact related (ids.ofCommand_mem_toList c) framed

theorem filter_other (l : List (OtherFrame p ids)) :
    (l.map Subtype.val).filter (fun f => IsRelated p ids f) = [] := by
  rw [List.filter_eq_nil_iff]
  intro f hf
  obtain ⟨g, -, rfl⟩ := List.mem_map.mp hf
  simpa using g.property

theorem filter_answer (hash : UInt32) (s : Simulated) (f : Frame) :
    (serve p ids hash s f).2.toList.filter (fun f => IsRelated p ids f)
      = (serve p ids hash s f).2.toList := by
  cases answer : (serve p ids hash s f).2 with
  | none => rfl
  | some g =>
    have related : decide (IsRelated p ids g) = true := decide_eq_true (isRelated_of_serve answer)
    simp [related]

/-- Whatever other frames come, the bus carries requests to its node and answers back. -/
theorem serves (hash : UInt32) {patience : Nat} (patient : 0 < patience) :
    Serves (transport hash) (view p ids) p ids hash patience where
  send f b := by
    refine ⟨rfl, rfl, ?_, rfl⟩
    show (b.queue ++ (b.traffic.headD ([], [])).1.map Subtype.val
      ++ (serve p ids hash b.node f).2.toList
      ++ (b.traffic.headD ([], [])).2.map Subtype.val).filter (fun f => IsRelated p ids f) = _
    -- of all that is queued, only the answer is on the identifiers of the node
    rw [List.filter_append, List.filter_append, List.filter_append, filter_other, filter_other,
      filter_answer, List.append_nil, List.append_nil]
    rfl
  clock b := ⟨rfl, rfl, rfl⟩
  told _ := rfl
  receive remaining b := by
    show (view p ids).node (receive remaining b).state = _ ∧
      (view p ids).sent (receive remaining b).state = _
    unfold receive
    split <;> exact ⟨rfl, rfl⟩
  received remaining b f h := by
    change (receive remaining b).result = _ at h
    show _ ∧ _ = f :: (view p ids).pending (receive remaining b).state ∨
      _ ∧ (view p ids).pending (receive remaining b).state = _
    unfold receive at h ⊢
    split at h
    · cases h
    · next g rest queue =>
      injection h with h
      subst h
      show _ ∧ b.queue.filter _ = g :: rest.filter _ ∨ _ ∧ rest.filter _ = b.queue.filter _
      rw [queue, List.filter_cons]
      by_cases related : IsRelated p ids g
      · exact .inl ⟨related, by rw [if_pos (decide_eq_true related)]⟩
      · exact .inr ⟨related, by rw [if_neg (by simpa using related)]⟩
  timeout remaining b e h := by
    change (receive remaining b).result = _ at h
    show _ ∧ _ ∧ (view p ids).pending (receive remaining b).state = []
    unfold receive at h ⊢
    split at h
    · next queue =>
      injection h with h
      have none : b.queue.filter (fun f => IsRelated p ids f) = [] := by rw [queue]; rfl
      exact ⟨⟨_, h.symm⟩, none, none⟩
    · cases h
  on_time b₀ b _ _ := by
    show 0 < 0 + patience
    omega

end SimulatedBus

/-! ## Refinement -/

/-- A session with a node refines the bootloader of the node.  The node is addressed, and from
then on every session sees what the bootloader answers to the same commands, asks for the same
last argument at any point, leaves the bootloader in the same state, and leaves no answer behind.
It sends one frame for each command that it does not refuse, and nothing else. -/
theorem session_refines (t : Transport τ) (v : BusView τ) (p : Profile) (node : UInt8)
    (ids : FrameIds) (patience : Nat) (s : τ) (resolved : FrameIds.resolve p node = .ok ids)
    (distinct : (p.endpoints.named.map Prod.snd).Nodup)
    (serves : Serves t v p ids hash patience) (quiet : v.pending s = [])
    (seeded : (v.node s).seed = if p.seededCommands then some hash else none) :
    ∃ n s₁ log, Node.connect t p node patience s = ⟨.ok n, s₁, log⟩ ∧ n.hash = hash ∧
      v.node s₁ = v.node s ∧ v.sent s₁ = v.sent s ++ [Node.hashProbe ids p] ∧
      ∀ commands : List Command,
        let served := (n.device t).session commands s₁
        let direct := Simulated.device.session commands (v.node s)
        served.1 = direct.1.map (Call.seen patience) ∧
          (n.device t).seed served.2 = Simulated.device.seed direct.2 ∧
          v.node served.2 = direct.2 ∧ v.pending served.2 = [] ∧
          v.sent served.2 = v.sent s₁ ++ commands.flatMap n.sends := by
  obtain ⟨s₁, log, connected, same, nothing, sent⟩ := serves.connect_eq resolved quiet
  refine ⟨_, s₁, log, connected, rfl, same, sent, fun commands => ?_⟩
  have apart := FrameIds.nodup_of_resolve resolved distinct
  obtain ⟨made, bootloader, nothing', sent'⟩ := Serves.session_eq
    (n := ⟨p, ids, node, patience, hash⟩) serves apart nothing commands
  rw [same] at made bootloader
  refine ⟨made, ?_, bootloader, nothing', sent'⟩
  show (if p.seededCommands then some hash else none) = (Simulated.device.session commands _).2.seed
  rw [Simulated.seed_session, seeded]

/-- A profile whose commit and erase carry the hash. -/
def seededProfile : Profile where
  nodeIdShift := 6
  seededCommands := true
  endpoints := ⟨0, 1, 2, 3, 4, 5⟩

/-- The identifiers of node 1 under that profile. -/
def seededIds : FrameIds := ⟨64, 65, 66, 67, 68, 69⟩

/-- A remote frame on the identifier of reads, which no wait takes for an answer. -/
def strayFrame : OtherFrame seededProfile seededIds :=
  ⟨.remote 65 false 4, by decide⟩

/-- A seeded node, with stray frames before, between and after the first two answers. -/
def strayBus : SimulatedBus seededProfile seededIds where
  node := { seed := some 0x1234 }
  queue := [strayFrame.val]
  traffic := [([strayFrame], [strayFrame]), ([], [strayFrame, strayFrame])]

/-- Among strays, every session with node 1 sees what its bootloader answers. -/
theorem session_refines_among_strays :
    let t := SimulatedBus.transport 0x1234
    ∃ n s₁ log, Node.connect t seededProfile 1 5000000 strayBus = ⟨.ok n, s₁, log⟩ ∧
      n.hash = 0x1234 ∧
      ∀ commands : List Command, ((n.device t).session commands s₁).1
        = (Simulated.device.session commands strayBus.node).1.map (Call.seen 5000000) := by
  obtain ⟨n, s₁, log, connected, hash, -, -, refines⟩ := session_refines
    (SimulatedBus.transport 0x1234) (SimulatedBus.view seededProfile seededIds) seededProfile 1
    seededIds 5000000 strayBus rfl (by decide)
    (SimulatedBus.serves 0x1234 (by decide)) (by decide) (by decide)
  exact ⟨n, s₁, log, connected, hash, fun commands => (refines commands).1⟩

end CanDfu
