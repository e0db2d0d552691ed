/-
  CanDfu.Proofs.FrameAddressing

  Identifiers of a node that a profile can address.  An identifier is found exactly when its
  number, computed without bounds, is within the profile's width (`frameId_eq_ok_iff`).  An
  endpoint of a valid profile lies below the bits of the node id, so an identifier is node times a
  power of two plus endpoint.  Both are read back from it (`frameId_decodable`), and different
  endpoints of one node have different identifiers.
-/
import CanDfu.Node
import Mathlib.Algebra.Group.Nat.Defs

namespace CanDfu

variable {p : Profile} {node : UInt8} {ids : FrameIds}

namespace Profile

theorem validateEndpoints_eq_ok_iff (shift : UInt8) (named : List (String × UInt16)) :
    validateEndpoints shift named = .ok () ↔ ∀ e ∈ named, e.2.toNat < 2 ^ shift.toNat := by
  induction named with
  | nil => simp [validateEndpoints]
  | cons e rest ih =>
    obtain ⟨name, endpoint⟩ := e
    have small : endpoint.toNat >>> shift.toNat = 0 ↔ endpoint.toNat < 2 ^ shift.toNat := by
      rw [Nat.shiftRight_eq_div_pow, Nat.div_eq_zero_iff]
      have := Nat.two_pow_pos shift.toNat
      omega
    rw [validateEndpoints, List.forall_mem_cons, ← ih]
    by_cases zero : endpoint.toNat >>> shift.toNat = 0
    · rw [if_neg (Decidable.not_not.mpr zero)]
      exact ⟨fun h => ⟨small.mp zero, h⟩, fun h => h.2⟩
    · rw [if_pos zero]
      exact ⟨nofun, fun h => absurd (small.mpr h.1) zero⟩

/-- What a valid profile promises: an identifier has room for a node id above the endpoint. -/
structure Sound (p : Profile) : Prop where
  shift_lt : p.nodeIdShift.toNat < 32
  endpoint_lt : ∀ e ∈ p.endpoints.named, e.2.toNat < 2 ^ p.nodeIdShift.toNat

theorem sound_of_validate (h : p.validate = .ok ()) : p.Sound := by
  unfold validate at h
  split at h
  · cases h
  · next narrow =>
    rw [UInt8.le_iff_toNat_le] at narrow
    exact ⟨Nat.lt_of_not_le narrow, (validateEndpoints_eq_ok_iff ..).mp h⟩

theorem maxFrameId_lt (p : Profile) : p.maxFrameId.toNat < 2 ^ 29 := by
  unfold maxFrameId
  split <;> decide

/-- The identifier of an endpoint as a number that no word bounds. -/
def exactId (p : Profile) (node : UInt8) (endpoint : UInt16) : Nat :=
  node.toNat * 2 ^ p.nodeIdShift.toNat ||| endpoint.toNat

/-- Shifting a node id there and back loses none of its bits exactly when the shifted number fits
a 64-bit word. -/
theorem shifted_back_eq_iff {shift : UInt8} (narrow : shift.toNat < 64) :
    node.toUInt64 <<< shift.toUInt64 >>> shift.toUInt64 = node.toUInt64
      ↔ node.toNat * 2 ^ shift.toNat < 2 ^ 64 := by
  have amount : shift.toUInt64.toNat % 64 = shift.toNat := by
    rw [UInt8.toNat_toUInt64]
    omega
  rw [← UInt64.toNat_inj, UInt64.toNat_shiftRight, UInt64.toNat_shiftLeft, amount,
    UInt8.toNat_toUInt64, Nat.shiftLeft_eq, Nat.shiftRight_eq_div_pow]
  constructor
  · intro kept
    have le := Nat.div_mul_le_self (node.toNat * 2 ^ shift.toNat % 2 ^ 64) (2 ^ shift.toNat)
    rw [kept] at le
    exact Nat.lt_of_le_of_lt le (Nat.mod_lt _ (Nat.two_pow_pos 64))
  · intro fits
    rw [Nat.mod_eq_of_lt fits, Nat.mul_div_cancel _ (Nat.two_pow_pos _)]

/-- An identifier is found exactly when the shift is that of a 64-bit word and the exact number is
no larger than the profile's width allows; it is that number. -/
theorem frameId_eq_ok_iff {endpoint : UInt16} {id : UInt32} :
    p.frameId node endpoint = .ok id
      ↔ p.nodeIdShift.toNat < 64 ∧ p.exactId node endpoint ≤ p.maxFrameId.toNat ∧
        id.toNat = p.exactId node endpoint := by
  have limit := p.maxFrameId_lt
  unfold frameId
  simp only
  by_cases wide : 64 ≤ p.nodeIdShift
  · rw [if_pos (.inl wide)]
    rw [UInt8.le_iff_toNat_le] at wide
    exact ⟨nofun, fun h => absurd h.1 (Nat.not_lt_of_le wide)⟩
  have narrow : p.nodeIdShift.toNat < 64 := by
    rw [UInt8.le_iff_toNat_le] at wide
    exact Nat.lt_of_not_le wide
  by_cases fits : node.toNat * 2 ^ p.nodeIdShift.toNat < 2 ^ 64
  · have kept := (shifted_back_eq_iff narrow).mpr fits
    have joined : (node.toUInt64 <<< p.nodeIdShift.toUInt64 ||| endpoint.toUInt64).toNat
        = p.exactId node endpoint := by
      have amount : p.nodeIdShift.toUInt64.toNat % 64 = p.nodeIdShift.toNat := by
        rw [UInt8.toNat_toUInt64]
        omega
      rw [UInt64.toNat_or, UInt64.toNat_shiftLeft, amount, UInt8.toNat_toUInt64,
        UInt16.toNat_toUInt64, Nat.shiftLeft_eq, Nat.mod_eq_of_lt fits, exactId]
    have beyond_iff :
        p.maxFrameId.toUInt64 < node.toUInt64 <<< p.nodeIdShift.toUInt64 ||| endpoint.toUInt64
          ↔ p.maxFrameId.toNat < p.exactId node endpoint := by
      rw [UInt64.lt_iff_toNat_lt, joined, UInt32.toNat_toUInt64]
    rw [if_neg (not_or.mpr ⟨wide, Decidable.not_not.mpr kept⟩)]
    split
    · next beyond => exact ⟨nofun, fun h => absurd h.2.1 (Nat.not_le_of_lt (beyond_iff.mp beyond))⟩
    · next within =>
      have within := Nat.le_of_not_lt (mt beyond_iff.mpr within)
      have same : (node.toUInt64 <<< p.nodeIdShift.toUInt64 ||| endpoint.toUInt64).toUInt32.toNat
          = p.exactId node endpoint := by
        rw [UInt64.toNat_toUInt32, joined]
        omega
      rw [Except.ok.injEq, ← UInt32.toNat_inj, same]
      exact ⟨fun h => ⟨narrow, within, h.symm⟩, fun h => h.2.2.symm⟩
  -- bits of the node id are lost only where the exact number is beyond every width
  · have lost := mt (shifted_back_eq_iff narrow).mp fits
    rw [if_pos (.inr lost)]
    refine ⟨nofun, fun h => absurd h.2.1 (Nat.not_le_of_lt ?_)⟩
    have : node.toNat * 2 ^ p.nodeIdShift.toNat ≤ p.exactId node endpoint := Nat.left_le_or
    omega

/-- An endpoint below the bits of the node id is joined with it by adding. -/
theorem exactId_eq_add {endpoint : UInt16} (small : endpoint.toNat < 2 ^ p.nodeIdShift.toNat) :
    p.exactId node endpoint = node.toNat * 2 ^ p.nodeIdShift.toNat + endpoint.toNat := by
  rw [exactId, ← Nat.shiftLeft_eq, Nat.shiftLeft_add_eq_or_of_lt small]

/-- The identifier of an endpoint of a sound profile, as a number. -/
theorem toNat_of_frameId {endpoint : UInt16} {id : UInt32}
    (small : endpoint.toNat < 2 ^ p.nodeIdShift.toNat) (h : p.frameId node endpoint = .ok id) :
    id.toNat = node.toNat * 2 ^ p.nodeIdShift.toNat + endpoint.toNat ∧
      id.toNat ≤ p.maxFrameId.toNat := by
  obtain ⟨-, within, exact⟩ := frameId_eq_ok_iff.mp h
  exact ⟨exact.trans (exactId_eq_add small), exact ▸ within⟩

/-- Node and endpoint are found again in an identifier of a sound profile. -/
theorem div_mod_of_frameId {endpoint : UInt16} {id : UInt32}
    (small : endpoint.toNat < 2 ^ p.nodeIdShift.toNat) (h : p.frameId node endpoint = .ok id) :
    id.toNat / 2 ^ p.nodeIdShift.toNat = node.toNat ∧
      id.toNat % 2 ^ p.nodeIdShift.toNat = endpoint.toNat := by
  rw [(toNat_of_frameId small h).1, Nat.mul_comm, Nat.mul_add_div (Nat.two_pow_pos _),
    Nat.div_eq_of_lt small, Nat.mul_add_mod, Nat.mod_eq_of_lt small]
  exact ⟨rfl, rfl⟩

theorem exists_frameId_iff {endpoint : UInt16} :
    (∃ id, p.frameId node endpoint = .ok id)
      ↔ p.nodeIdShift.toNat < 64 ∧ p.exactId node endpoint ≤ p.maxFrameId.toNat := by
  constructor
  · rintro ⟨id, h⟩
    obtain ⟨narrow, within, -⟩ := frameId_eq_ok_iff.mp h
    exact ⟨narrow, within⟩
  · rintro ⟨narrow, within⟩
    have limit := p.maxFrameId_lt
    refine ⟨.ofNat (p.exactId node endpoint), frameId_eq_ok_iff.mpr ⟨narrow, within, ?_⟩⟩
    rw [UInt32.toNat_ofNat']
    omega

/-- An identifier that is not found is out of range, and is so in one way only. -/
theorem frameId_cases (p : Profile) (node : UInt8) (endpoint : UInt16) :
    (∃ id, p.frameId node endpoint = .ok id) ∨
      p.frameId node endpoint = .error (.frameIdOutOfRange node endpoint p.maxFrameId) := by
  unfold frameId
  simp only
  split
  · exact .inr rfl
  · split
    · exact .inr rfl
    · exact .inl ⟨_, rfl⟩

/-- Identifiers are exact and can be told apart.  With any profile an identifier is found exactly
when the shift is that of a 64-bit word and the exact number is within the profile's width, and it
is that number; otherwise it is refused as out of range.  In an identifier of a valid profile node
and endpoint are found again, so that it belongs to no other node and to no other endpoint. -/
theorem frameId_decodable (p : Profile) :
    (∀ node endpoint,
      ((∃ id, p.frameId node endpoint = .ok id)
        ↔ p.nodeIdShift.toNat < 64 ∧ p.exactId node endpoint ≤ p.maxFrameId.toNat) ∧
      (∀ id, p.frameId node endpoint = .ok id → id.toNat = p.exactId node endpoint) ∧
      ((∃ id, p.frameId node endpoint = .ok id) ∨
        p.frameId node endpoint = .error (.frameIdOutOfRange node endpoint p.maxFrameId))) ∧
    (p.validate = .ok () →
      (∀ node, ∀ e ∈ p.endpoints.named, ∀ id, p.frameId node e.2 = .ok id →
        id.toNat / 2 ^ p.nodeIdShift.toNat = node.toNat ∧
          id.toNat % 2 ^ p.nodeIdShift.toNat = e.2.toNat) ∧
      ∀ node node', ∀ e ∈ p.endpoints.named, ∀ e' ∈ p.endpoints.named, ∀ id,
        p.frameId node e.2 = .ok id → p.frameId node' e'.2 = .ok id →
          node = node' ∧ e.2 = e'.2) := by
  refine ⟨fun node endpoint => ⟨exists_frameId_iff, ?_, frameId_cases p node endpoint⟩, ?_⟩
  · intro id found
    exact (frameId_eq_ok_iff.mp found).2.2
  intro valid
  have sound := sound_of_validate valid
  have decodes (node : UInt8) (e : String × UInt16) (he : e ∈ p.endpoints.named) (id : UInt32)
      (found : p.frameId node e.2 = .ok id) :=
    div_mod_of_frameId (sound.endpoint_lt e he) found
  refine ⟨decodes, fun node node' e he e' he' id found found' => ?_⟩
  obtain ⟨high, low⟩ := decodes node e he id found
  obtain ⟨high', low'⟩ := decodes node' e' he' id found'
  constructor
  · apply UInt8.toNat_inj.mp
    rw [← high, ← high']
  · apply UInt16.toNat_inj.mp
    rw [← low, ← low']

/-- With six bits for the endpoint the identifier `0x44` erases node 1, and nothing else is sent
with it. -/
theorem frameId_decodable_erase :
    let p : Profile := { nodeIdShift := 6, endpoints := ⟨0, 1, 2, 3, 4, 5⟩ }
    p.frameId 1 p.endpoints.erase = .ok 0x44 ∧
      ∀ node, ∀ e ∈ p.endpoints.named, p.frameId node e.2 = .ok 0x44 → 1 = node ∧ 4 = e.2 := by
  intro p
  have found : p.frameId 1 4 = .ok 0x44 := by cbv
  obtain ⟨-, apart⟩ := (frameId_decodable p).2 (by cbv)
  refine ⟨found, fun node e he same => ?_⟩
  exact apart 1 node ("erase_all", 4) (by decide) e he 0x44 found same

/-- The profile is valid, and every identifier of the node fits its width. -/
structure Addresses (p : Profile) (node : UInt8) : Prop where
  valid : p.validate = .ok ()
  fits : ∀ e ∈ p.endpoints.named,
    node.toNat * 2 ^ p.nodeIdShift.toNat + e.2.toNat ≤ p.maxFrameId.toNat

end Profile

/-! ## The identifiers of a node -/

/-- The identifiers in the order of the endpoints. -/
def FrameIds.toList (ids : FrameIds) : List UInt32 :=
  [ids.protocolHash, ids.read, ids.scratch, ids.commit, ids.erase, ids.reset]

/-- A node that can be addressed has the identifiers of its endpoints, all of them found. -/
theorem FrameIds.frameIds_of_resolve (h : FrameIds.resolve p node = .ok ids) :
    p.validate = .ok () ∧
      p.endpoints.named.map (fun e => p.frameId node e.2) = ids.toList.map .ok := by
  unfold FrameIds.resolve at h
  simp only [bind, Except.bind] at h
  repeat' split at h
  all_goals try contradiction
  next valid _ _ hash _ _ read _ _ scratch _ _ commit _ _ erase _ _ reset =>
    injection h with h
    subst h
    refine ⟨valid, ?_⟩
    simp only [Endpoints.named, List.map_cons, List.map_nil, hash, read, scratch, commit, erase,
      reset, FrameIds.toList]

/-- The endpoint of a command. -/
def Endpoints.ofCommand (e : Endpoints) : Command → UInt16
  | .read _ => e.read
  | .scratch .. => e.scratch
  | .commit .. => e.commit
  | .erase _ => e.erase
  | .reset => e.reset

theorem FrameIds.frameId_of_resolve (h : FrameIds.resolve p node = .ok ids) :
    p.frameId node p.endpoints.protocolHash = .ok ids.protocolHash ∧
      ∀ c, p.frameId node (p.endpoints.ofCommand c) = .ok (ids.ofCommand c) := by
  have found := (FrameIds.frameIds_of_resolve h).2
  simp only [Endpoints.named, FrameIds.toList, List.map_cons, List.map_nil, List.cons.injEq,
    and_true] at found
  obtain ⟨hash, read, scratch, commit, erase, reset⟩ := found
  refine ⟨hash, fun c => ?_⟩
  cases c with
  | read => exact read
  | scratch => exact scratch
  | commit => exact commit
  | erase => exact erase
  | reset => exact reset

/-- A node has its identifiers exactly when the profile addresses it. -/
theorem FrameIds.exists_resolve_iff :
    (∃ ids, FrameIds.resolve p node = .ok ids) ↔ p.Addresses node := by
  constructor
  · rintro ⟨ids, h⟩
    obtain ⟨valid, found⟩ := FrameIds.frameIds_of_resolve h
    have sound := Profile.sound_of_validate valid
    refine ⟨valid, fun e he => ?_⟩
    have here : p.frameId node e.2 ∈ ids.toList.map .ok := found ▸ List.mem_map_of_mem he
    obtain ⟨id, -, ok⟩ := List.mem_map.mp here
    obtain ⟨exact, within⟩ := Profile.toNat_of_frameId (sound.endpoint_lt e he) ok.symm
    exact exact ▸ within
  · rintro ⟨valid, fits⟩
    have sound := Profile.sound_of_validate valid
    have found (e : String × UInt16) (he : e ∈ p.endpoints.named) :
        ∃ id, p.frameId node e.2 = .ok id := by
      apply Profile.exists_frameId_iff.mpr
      rw [Profile.exactId_eq_add (sound.endpoint_lt e he)]
      exact ⟨Nat.lt_trans sound.shift_lt (by decide), fits e he⟩
    simp only [Endpoints.named, List.forall_mem_cons] at found
    obtain ⟨⟨hash, h0⟩, ⟨read, h1⟩, ⟨scratch, h2⟩, ⟨commit, h3⟩, ⟨erase, h4⟩, ⟨reset, h5⟩, -⟩ :=
      found
    refine ⟨⟨hash, read, scratch, commit, erase, reset⟩, ?_⟩
    unfold FrameIds.resolve
    rw [valid, h0, h1, h2, h3, h4, h5]
    rfl

/-- Different endpoints of one node have different identifiers. -/
theorem FrameIds.nodup_of_resolve (h : FrameIds.resolve p node = .ok ids)
    (distinct : (p.endpoints.named.map Prod.snd).Nodup) : ids.toList.Nodup := by
  obtain ⟨valid, found⟩ := FrameIds.frameIds_of_resolve h
  have sound := Profile.sound_of_validate valid
  have apart : (p.endpoints.named.map fun e => p.frameId node e.2).Pairwise (· ≠ ·) := by
    rw [List.pairwise_map]
    refine List.Pairwise.imp_of_mem (fun {a b} ha hb hab same => hab ?_)
      (List.pairwise_map.mp distinct)
    -- an identifier has one endpoint, and both have the same identifier
    have here : p.frameId node a.2 ∈ ids.toList.map .ok := found ▸ List.mem_map_of_mem ha
    obtain ⟨id, -, ok⟩ := List.mem_map.mp here
    have first := (Profile.div_mod_of_frameId (sound.endpoint_lt a ha) ok.symm).2
    have second := (Profile.div_mod_of_frameId (sound.endpoint_lt b hb) (same ▸ ok.symm)).2
    exact UInt16.toNat_inj.mp (first.symm.trans second)
  rw [found, List.pairwise_map] at apart
  exact apart.imp fun different same => different (congrArg Except.ok same)

end CanDfu
