/-
  CanDfu.Proofs.BitTimingOverflow

  The search for a bit timing in words of 32 bits.  Three numbers have to fit such a word for each
  prescaler that is tried: what the sample point is rounded from, the quanta beside the first
  segment, and the next prescaler.  The product of rate and prescaler is made in 64 bits, is never
  zero and always fits.

    * `Loops` : the search as it goes on from prescaler to prescaler, without a count of them.  It
      comes to an end since prescalers only grow (`loops_search`), and to one end only.
    * `forBitrate_overflow_iff` : it stops for a number that does not fit exactly if it reaches a
      prescaler that has one (`Outgrows`).

  Neither the limits of an adapter nor the bit rate are checked for this, and so both can lead
  there (`step_overflows`).
-/
import Mathlib.Algebra.Group.Nat.Defs
import CanDfu.Config
import CanDfu.Proofs.BitTimingSearch

namespace CanDfu

/-- The bit rates of accepted configurations are all but zero. -/
theorem Config.exists_valid_iff {bitrate : UInt32} :
    (∃ c : Config, c.validate = .ok () ∧ c.bus.bitrate = bitrate) ↔ bitrate ≠ 0 := by
  constructor
  · rintro ⟨c, valid, rfl⟩ zero
    unfold Config.validate at valid
    cases layout : c.layout.validate with
    | error e =>
      rw [layout] at valid
      cases valid
    | ok _ =>
      rw [layout, zero] at valid
      cases valid
  · intro nonzero
    refine ⟨{ bus := { bitrate } }, ?_, rfl⟩
    unfold Config.validate
    simp only [if_neg nonzero]
    rfl

/-- An adapter that was read has no two prescalers that are the same. -/
theorem TimingLimits.prescalerStep_pos {bytes : List UInt8} {l : TimingLimits}
    (read : TimingLimits.ofBytes bytes = .ok l) : 0 < l.prescalerStep.toNat := by
  unfold ofBytes at read
  split at read
  · cases read
  · injection read with read
    subst read
    show 0 < (max (LittleEndian.firstWord 0 (bytes.drop (4 + 4 * 8))) (1 : UInt32)).toNat
    generalize LittleEndian.firstWord 0 (bytes.drop (4 + 4 * 8)) = step
    rw [show max step 1 = if step ≤ 1 then 1 else step from rfl]
    split
    · decide
    · next larger =>
      have larger := mt UInt32.le_iff_toNat_le.mpr larger
      omega

namespace BitTiming

variable {l : TimingLimits} {bitrate count first : Nat}

/-! ## The search without a count -/

/-- How the search goes on from a prescaler, and with what it ends.  The next prescaler is always a
greater one. -/
inductive Loops (l : TimingLimits) (bitrate : Nat) : Nat → Except TimingError BitTiming → Prop
  | past {b : Nat} (beyond : l.prescalerMax.toNat < b) : Loops l bitrate b (.error .unreachable)
  | found {b : Nat} {t : BitTiming} (within : b ≤ l.prescalerMax.toNat)
      (tried : withPrescaler? l bitrate b = .ok (some t)) : Loops l bitrate b (.ok t)
  | failed {b : Nat} {e : TimingError} (within : b ≤ l.prescalerMax.toNat)
      (tried : withPrescaler? l bitrate b = .error e) : Loops l bitrate b (.error e)
  | outgrown {b : Nat} (within : b ≤ l.prescalerMax.toNat)
      (tried : withPrescaler? l bitrate b = .ok none)
      (large : 0x100000000 ≤ b + l.prescalerStep.toNat) : Loops l bitrate b (.error .overflow)
  | next {b : Nat} {r : Except TimingError BitTiming} (within : b ≤ l.prescalerMax.toNat)
      (tried : withPrescaler? l bitrate b = .ok none)
      (fits : b + l.prescalerStep.toNat < 0x100000000) (greater : b < b + l.prescalerStep.toNat)
      (h : Loops l bitrate (b + l.prescalerStep.toNat) r) : Loops l bitrate b r

/-- The search goes on in one way only. -/
theorem Loops.unique {r r' : Except TimingError BitTiming} (h : Loops l bitrate first r)
    (h' : Loops l bitrate first r') : r = r' := by
  induction h with
  | past beyond =>
    cases h' with
    | past => rfl
    | found within | failed within | outgrown within | next within => omega
  | found within tried =>
    cases h' with
    | past beyond => omega
    | found _ tried' =>
      cases tried.symm.trans tried'
      rfl
    | failed _ tried' | outgrown _ tried' | next _ tried' => cases tried.symm.trans tried'
  | failed within tried =>
    cases h' with
    | past beyond => omega
    | failed _ tried' =>
      cases tried.symm.trans tried'
      rfl
    | found _ tried' | outgrown _ tried' | next _ tried' => cases tried.symm.trans tried'
  | outgrown within tried large =>
    cases h' with
    | past beyond => omega
    | found _ tried' | failed _ tried' => cases tried.symm.trans tried'
    | outgrown => rfl
    | next _ _ fits => omega
  | next within tried fits _ _ ih =>
    cases h' with
    | past beyond => omega
    | found _ tried' | failed _ tried' => cases tried.symm.trans tried'
    | outgrown _ _ large => omega
    | next _ _ _ _ h' => exact ih h'

/-- A search that counts the prescalers up to the greatest one goes on as long as there are any. -/
theorem loops_search (moves : 0 < l.prescalerStep.toNat) (bitrate : Nat)
    (counted : ∀ k, k < count ↔ first + k * l.prescalerStep.toNat ≤ l.prescalerMax.toNat) :
    Loops l bitrate first (search l bitrate count first) := by
  induction count generalizing first with
  | zero =>
    have none_left := mt (counted 0).mpr (Nat.not_lt_zero 0)
    exact .past (by omega)
  | succ count ih =>
    have within := (counted 0).mp (Nat.succ_pos count)
    rw [Nat.zero_mul, Nat.add_zero] at within
    cases tried : withPrescaler? l bitrate first with
    | error e =>
      rw [search_of_error tried]
      exact .failed within tried
    | ok found =>
      cases found with
      | some t =>
        rw [search_of_found tried]
        exact .found within tried
      | none =>
        rw [search_of_missed tried]
        split
        · next fits =>
          refine .next within tried fits (by omega) (ih fun k => ?_)
          rw [step_succ, ← counted, Nat.succ_lt_succ_iff]
        · next large => exact .outgrown within tried (Nat.le_of_not_lt large)

theorem lt_prescalerCount_iff (moves : 0 < l.prescalerStep.toNat) (k : Nat) :
    k < prescalerCount l
      ↔ firstPrescaler l + k * l.prescalerStep.toNat ≤ l.prescalerMax.toNat := by
  unfold prescalerCount
  split
  · omega
  · rw [Nat.lt_succ_iff, Nat.le_div_iff_mul_le moves]
    omega

/-! ## The result -/

/-- What a clock is divided by is neither zero nor too large for 64 bits. -/
theorem OnGrid.product_bounds {rate : UInt32} {b : Nat} (grid : OnGrid l b) (nonzero : rate ≠ 0) :
    0 < rate.toNat * b ∧ rate.toNat * b < 2 ^ 64 := by
  obtain ⟨⟨k, rfl⟩, inside⟩ := grid
  have positive : 0 < rate.toNat :=
    Nat.pos_of_ne_zero fun zero => nonzero (UInt32.toNat_inj.mp zero)
  have limit := Nat.lt_of_le_of_lt inside l.prescalerMax.toNat_lt
  constructor
  · apply Nat.mul_pos positive
    omega
  · calc rate.toNat * (max l.prescalerMin.toNat 1 + k * l.prescalerStep.toNat)
      _ < 2 ^ 32 * 2 ^ 32 := Nat.mul_lt_mul_of_lt_of_lt rate.toNat_lt limit
      _ = 2 ^ 64 := rfl

/-- The prescalers that the search tries before one are those of the grid below it. -/
theorem before_iff (moves : 0 < l.prescalerStep.toNat) {P : Nat → Prop} (k : Nat)
    (inside : k < prescalerCount l) :
    (∀ j < k, P (firstPrescaler l + j * l.prescalerStep.toNat))
      ↔ ∀ b, OnGrid l b → b < firstPrescaler l + k * l.prescalerStep.toNat → P b := by
  constructor
  · intro h b grid smaller
    obtain ⟨j, -, rfl⟩ := (onGrid_iff l b).mp grid
    exact h j (Nat.lt_of_mul_lt_mul_right (Nat.lt_of_add_lt_add_left smaller))
  · intro h j earlier
    apply h
    · exact (onGrid_iff l _).mpr ⟨j, Nat.lt_trans earlier inside, rfl⟩
    · exact Nat.add_lt_add_left (Nat.mul_lt_mul_of_pos_right earlier moves) _

/-- The search with an adapter that was read, for limits of the second segment that do not
contradict each other and a rate of an accepted configuration.  The clock is never divided by zero
and the prescalers that are tried only grow, so that the search ends.  It ends with a timing, with
none, or for a number that outgrows 32 bits; with the last exactly if the adapter has a prescaler
with such a number and none of its smaller prescalers meets the rate. -/
theorem forBitrate_overflow_iff {bytes : List UInt8} {l : TimingLimits} {bitrate : UInt32}
    (read : TimingLimits.ofBytes bytes = .ok l) (ordered : l.segment2Min ≤ l.segment2Max)
    (admitted : ∃ c : Config, c.validate = .ok () ∧ c.bus.bitrate = bitrate) :
    (∀ b, OnGrid l b → 0 < bitrate.toNat * b ∧ bitrate.toNat * b < 2 ^ 64) ∧
      (∀ r, Loops l bitrate.toNat (max l.prescalerMin.toNat 1) r ↔ r = forBitrate l bitrate) ∧
      ((∃ t, forBitrate l bitrate = .ok t) ∨ forBitrate l bitrate = .error .unreachable ∨
        forBitrate l bitrate = .error .overflow) ∧
      (forBitrate l bitrate = .error .overflow ↔
        ∃ b, OnGrid l b ∧ Outgrows l bitrate.toNat b ∧
          ∀ smaller, OnGrid l smaller → smaller < b → Missed l bitrate.toNat smaller) := by
  have nonzero := Config.exists_valid_iff.mp admitted
  have moves := TimingLimits.prescalerStep_pos read
  have searches : forBitrate l bitrate
      = search l bitrate.toNat (prescalerCount l) (firstPrescaler l) := if_neg nonzero
  have loops := loops_search moves bitrate.toNat (lt_prescalerCount_iff moves)
  refine ⟨fun b grid => grid.product_bounds nonzero, fun r => ?_, ?_, ?_⟩
  · rw [searches]
    constructor
    · exact fun h => h.unique loops
    · rintro rfl
      exact loops
  · rw [searches]
    rcases search_spec ordered bitrate.toNat (prescalerCount l) (firstPrescaler l) with
      spec | overflows
    · generalize search l bitrate.toNat (prescalerCount l) (firstPrescaler l) = r at spec
      cases spec with
      | found => exact .inl ⟨_, rfl⟩
      | exhausted => exact .inr (.inl rfl)
    · exact .inr (.inr overflows)
  · rw [searches, search_overflow_iff ordered]
    constructor
    · rintro ⟨k, inside, outgrows, before⟩
      exact ⟨_, (onGrid_iff l _).mpr ⟨k, inside, rfl⟩, outgrows,
        (before_iff moves k inside).mp before⟩
    · rintro ⟨b, grid, outgrows, before⟩
      obtain ⟨k, inside, rfl⟩ := (onGrid_iff l b).mp grid
      exact ⟨k, inside, outgrows, (before_iff moves k inside).mpr before⟩

/-- An ordinary adapter cannot be asked for one bit per second: with the smallest prescaler already
the sample point is rounded from a number of 36 bits. -/
theorem forBitrate_overflow_iff_one :
    let l : TimingLimits := ⟨48000000, 1, 16, 1, 8, 4, 1, 1024, 1⟩
    (∃ bytes, TimingLimits.ofBytes bytes = .ok l) ∧ OnGrid l 1 ∧ Outgrows l 1 1 ∧
      forBitrate l 1 = .error .overflow := by
  intro l
  have read : TimingLimits.ofBytes
      ([0, 48000000, 1, 16, 1, 8, 4, 1, 1024, 1].flatMap LittleEndian.bytes) = .ok l := rfl
  have grid : OnGrid l 1 := ⟨⟨0, rfl⟩, by decide⟩
  have outgrows : Outgrows l 1 1 := .sample (by decide) (by decide)
  have admitted : ∃ c : Config, c.validate = .ok () ∧ c.bus.bitrate = 1 :=
    Config.exists_valid_iff.mpr (by decide)
  have exact := forBitrate_overflow_iff read (by decide) admitted
  refine ⟨⟨_, read⟩, grid, outgrows, exact.2.2.2.mpr ⟨1, grid, outgrows, ?_⟩⟩
  -- there is no smaller prescaler
  rintro smaller ⟨⟨k, rfl⟩, -⟩ below
  have lowest : max l.prescalerMin.toNat 1 = 1 := rfl
  omega

/-- An adapter whose prescaler goes in steps of half the words there are.  The rate is missed with the
first one, and the next one is too large, so that the rate is not refused as unreachable. -/
theorem step_overflows :
    let l : TimingLimits := ⟨48000000, 1, 16, 1, 8, 4, 0x80000000, 0xFFFFFFFF, 0x80000000⟩
    (∃ bytes, TimingLimits.ofBytes bytes = .ok l) ∧ l.segment2Min ≤ l.segment2Max ∧
      (∃ c : Config, c.validate = .ok () ∧ c.bus.bitrate = 1000000) ∧
      0x100000000 ≤ l.prescalerMin.toNat + l.prescalerStep.toNat ∧
      forBitrate l 1000000 = .error .overflow := by
  intro l
  have read : TimingLimits.ofBytes ([0, 48000000, 1, 16, 1, 8, 4, 0x80000000, 0xFFFFFFFF,
      0x80000000].flatMap LittleEndian.bytes) = .ok l := rfl
  have searched : forBitrate ⟨48000000, 1, 16, 1, 8, 4, 0x80000000, 0xFFFFFFFF, 0x80000000⟩
      1000000 = .error .overflow := rfl
  exact ⟨⟨_, read⟩, by decide, Config.exists_valid_iff.mpr (by decide), by decide, searched⟩

end BitTiming

end CanDfu
