/-
  CanDfu.Proofs.BitTimingSearch

  The search for a bit timing against what it is a search for.  `Meets` says when a prescaler, with
  two segments, times a bit of some rate: exactly, with the second segment as near to an eighth of
  the bit as the limits let it be, and with the first segment within its limits.

    * `segment2_best` : rounding and clamping give the nearest second segment, the smaller one of
      two that are as near.
    * `withPrescaler?_spec` : one prescaler is accepted exactly if it meets the rate.
    * `search_spec` : the search ends at the first prescaler that does, or at the end of the grid.
    * `forBitrate_exact` : so the smallest prescaler is found, if there is one.

  Numbers that outgrow 32 bits end the search with a failure of its own; `search_overflow_iff`
  says when that happens.
-/
import CanDfu.Adapter.BitTiming

namespace CanDfu.BitTiming

/-! ## What is searched for -/

/-- How far the sample point of a bit of `quanta` is from 87.5 % of the bit, in thousandths of a
quantum, when `segment2` quanta follow it. -/
def sampleError (quanta segment2 : Nat) : Nat :=
  (1000 * ((quanta : Int) - segment2) - 875 * quanta).natAbs

/-- The second segment within its limits whose sample point is the nearest, and the smaller one of
two that are as near. -/
structure BestSegment2 (l : TimingLimits) (quanta segment2 : Nat) : Prop where
  low : l.segment2Min.toNat ≤ segment2
  high : segment2 ≤ l.segment2Max.toNat
  nearest : ∀ other, l.segment2Min.toNat ≤ other → other ≤ l.segment2Max.toNat →
    sampleError quanta segment2 ≤ sampleError quanta other
  smaller : ∀ other, l.segment2Min.toNat ≤ other → other ≤ l.segment2Max.toNat →
    sampleError quanta other = sampleError quanta segment2 → segment2 ≤ other

/-- The prescalers an adapter has: steps from the smallest one, which is at least one, up to the
greatest one. -/
def OnGrid (l : TimingLimits) (prescaler : Nat) : Prop :=
  (∃ k, prescaler = max l.prescalerMin.toNat 1 + k * l.prescalerStep.toNat) ∧
    prescaler ≤ l.prescalerMax.toNat

/-- A bit of `quanta` is made of the first quantum and of two segments within their limits, of
which the second one is the best. -/
structure Splits (l : TimingLimits) (quanta segment1 segment2 : Nat) : Prop where
  best : BestSegment2 l quanta segment2
  whole : 1 + segment1 + segment2 = quanta
  low : max l.segment1Min.toNat 2 ≤ segment1
  high : segment1 ≤ l.segment1Max.toNat

/-- With the prescaler a bit of exactly the rate is a number of quanta, which the segments split. -/
structure Meets (l : TimingLimits) (bitrate prescaler segment1 segment2 : Nat) : Prop where
  divides : bitrate * prescaler ∣ l.clock.toNat
  splits : Splits l (l.clock.toNat / (bitrate * prescaler)) segment1 segment2

/-- A prescaler of the adapter with which there is a timing. -/
def Admissible (l : TimingLimits) (bitrate prescaler : Nat) : Prop :=
  OnGrid l prescaler ∧ ∃ segment1 segment2, Meets l bitrate prescaler segment1 segment2

variable {l : TimingLimits} {bitrate prescaler quanta n m : Nat}

theorem BestSegment2.unique (h : BestSegment2 l quanta n) (h' : BestSegment2 l quanta m) :
    n = m := by
  have near := h.nearest m h'.low h'.high
  have near' := h'.nearest n h.low h.high
  have first := h.smaller m h'.low h'.high (by omega)
  have second := h'.smaller n h.low h.high (by omega)
  omega

/-- A bit that is timed takes up all of the clock. -/
theorem Meets.clock_eq {segment1 segment2 : Nat}
    (h : Meets l bitrate prescaler segment1 segment2) :
    bitrate * prescaler * (1 + segment1 + segment2) = l.clock.toNat := by
  rw [h.splits.whole]
  exact Nat.mul_div_cancel' h.divides

/-! ## The second segment -/

theorem fitting_of_lt (h : n < 0x100000000) : fitting n = .ok n :=
  if_pos h

theorem fitting_cases (n : Nat) : fitting n = .ok n ∨ fitting n = .error .overflow := by
  unfold fitting
  split
  · exact .inl rfl
  · exact .inr rfl

/-- Rounding to the nearest and clamping give the best segment within the limits. -/
theorem clamp_best (ordered : l.segment2Min ≤ l.segment2Max) (quanta : Nat) :
    BestSegment2 l quanta (max l.segment2Min.toNat
      (min (quanta - (quanta * 875 + 500) / 1000) l.segment2Max.toNat)) := by
  have ordered := UInt32.le_iff_toNat_le.mp ordered
  constructor
  case low => omega
  case high => omega
  -- the error is a distance on a line, which grows on both sides of the rounded eighth
  case nearest =>
    intro other low high
    unfold sampleError
    omega
  -- a half was rounded up before the sample point, so down behind it
  case smaller =>
    intro other low high same
    unfold sampleError at same
    omega

theorem samplePoint_cases (quanta : Nat) :
    samplePoint quanta = .ok ((quanta * 875 + 500) / 1000) ∨
      samplePoint quanta = .error .overflow := by
  unfold samplePoint
  rcases fitting_cases (quanta * 875 + 500) with fits | overflows
  · rw [fits]
    exact .inl rfl
  · rw [overflows]
    exact .inr rfl

/-- Unless a number overflows, the second segment is the best one. -/
theorem segment2_best (ordered : l.segment2Min ≤ l.segment2Max) (quanta : Nat) :
    (∃ n, segment2 l quanta = .ok n ∧ BestSegment2 l quanta n) ∨
      segment2 l quanta = .error .overflow := by
  unfold segment2
  rcases samplePoint_cases quanta with sample | overflows
  · left
    refine ⟨_, ?_, clamp_best ordered quanta⟩
    rw [sample]
    -- the limits do not contradict each other
    show ite _ _ _ = _
    rw [if_neg (UInt32.not_lt.mpr ordered)]
    rfl
  · right
    rw [overflows]
    rfl

/-! ## One prescaler -/

/-- The timing with two segments: the first one is split before its last quanta but one. -/
def ofSegments (prescaler segment1 segment2 : Nat) : BitTiming :=
  ⟨1, .ofNat (segment1 - 1), .ofNat segment2, 1, .ofNat prescaler⟩

/-- What is found with a prescaler when its segments are to be such that `P`. -/
inductive Finds (P : Nat → Nat → Prop) (prescaler : Nat) : Option BitTiming → Prop
  | found {segment1 segment2 : Nat} (h : P segment1 segment2) :
      Finds P prescaler (some (ofSegments prescaler segment1 segment2))
  | missed (h : ∀ segment1 segment2, ¬ P segment1 segment2) : Finds P prescaler none

theorem ofQuanta?_of_segment2 {second : Nat} (found : segment2 l quanta = .ok second)
    (fits : fitting (1 + second) = .ok (1 + second)) :
    ofQuanta? l prescaler quanta
      = .ok (if max l.segment1Min.toNat 2 ≤ quanta - (1 + second) ∧
            quanta - (1 + second) ≤ l.segment1Max.toNat then
          some (ofSegments prescaler (quanta - (1 + second)) second)
        else none) := by
  unfold ofQuanta?
  rw [found]
  show (fitting (1 + second) >>= _) = _
  rw [fits]
  show ite _ _ _ = _
  split <;> rfl

/-- Unless a number overflows, a bit is split as it should be, or cannot be. -/
theorem ofQuanta?_spec (ordered : l.segment2Min ≤ l.segment2Max) (prescaler quanta : Nat) :
    (∃ found, ofQuanta? l prescaler quanta = .ok found ∧ Finds (Splits l quanta) prescaler found) ∨
      ofQuanta? l prescaler quanta = .error .overflow := by
  rcases segment2_best ordered quanta with ⟨second, found, best⟩ | overflows
  · rcases fitting_cases (1 + second) with fits | overflows
    · left
      refine ⟨_, ofQuanta?_of_segment2 found fits, ?_⟩
      split
      · next within => exact .found ⟨best, by omega, within.1, within.2⟩
      · next without =>
        refine .missed fun segment1 segment2 h => without ?_
        -- there is no other second segment, and with this one no other first segment
        obtain rfl := best.unique h.best
        have whole := h.whole
        have low := h.low
        have high := h.high
        omega
    · right
      unfold ofQuanta?
      rw [found]
      show (fitting (1 + second) >>= _) = _
      rw [overflows]
      rfl
  · right
    unfold ofQuanta?
    rw [overflows]
    rfl

/-- Unless a number overflows, a prescaler is accepted exactly if it meets the rate. -/
theorem withPrescaler?_spec (ordered : l.segment2Min ≤ l.segment2Max) (bitrate prescaler : Nat) :
    (∃ found, withPrescaler? l bitrate prescaler = .ok found ∧
        Finds (Meets l bitrate prescaler) prescaler found) ∨
      withPrescaler? l bitrate prescaler = .error .overflow := by
  unfold withPrescaler?
  by_cases divides : l.clock.toNat % (bitrate * prescaler) = 0
  · rw [if_pos divides]
    rcases ofQuanta?_spec ordered prescaler (l.clock.toNat / (bitrate * prescaler)) with
      ⟨found, tried, finds⟩ | overflows
    · left
      refine ⟨found, tried, ?_⟩
      cases finds with
      | found h => exact .found ⟨Nat.dvd_of_mod_eq_zero divides, h⟩
      | missed h => exact .missed fun segment1 segment2 meets => h _ _ meets.splits
    · exact .inr overflows
  · left
    rw [if_neg divides]
    refine ⟨none, rfl, .missed fun segment1 segment2 h => ?_⟩
    exact divides (Nat.mod_eq_zero_of_dvd h.divides)

/-! ## The search -/

/-- No segments meet the rate with the prescaler. -/
def Missed (l : TimingLimits) (bitrate prescaler : Nat) : Prop :=
  ∀ segment1 segment2, ¬ Meets l bitrate prescaler segment1 segment2

/-- How a search of `count` prescalers from `first` on ends, unless a number overflows: at the first
one that meets the rate, or at the end when none does. -/
inductive Searched (l : TimingLimits) (bitrate count first : Nat) :
    Except TimingError BitTiming → Prop
  | found {k segment1 segment2 : Nat} (inside : k < count)
      (h : Meets l bitrate (first + k * l.prescalerStep.toNat) segment1 segment2)
      (before : ∀ j < k, Missed l bitrate (first + j * l.prescalerStep.toNat)) :
      Searched l bitrate count first
        (.ok (ofSegments (first + k * l.prescalerStep.toNat) segment1 segment2))
  | exhausted (h : ∀ k < count, Missed l bitrate (first + k * l.prescalerStep.toNat)) :
      Searched l bitrate count first (.error .unreachable)

theorem step_succ (first step k : Nat) : first + step + k * step = first + (k + 1) * step := by
  rw [Nat.succ_mul, Nat.add_assoc, Nat.add_comm step]

/-- One prescaler missed, and then some more of them. -/
theorem Missed.before_succ {first : Nat} (here : Missed l bitrate first)
    (later : ∀ j < n,
      Missed l bitrate (first + l.prescalerStep.toNat + j * l.prescalerStep.toNat)) :
    ∀ j < n + 1, Missed l bitrate (first + j * l.prescalerStep.toNat) := by
  intro j hj
  cases j with
  | zero => rwa [Nat.zero_mul, Nat.add_zero]
  | succ j =>
    rw [← step_succ]
    exact later j (Nat.lt_of_succ_lt_succ hj)

/-- A prescaler that does not meet the rate is passed over. -/
theorem Searched.next {count first : Nat} {r : Except TimingError BitTiming}
    (h : Searched l bitrate count (first + l.prescalerStep.toNat) r)
    (missed : Missed l bitrate first) : Searched l bitrate (count + 1) first r := by
  cases h with
  | found inside h before =>
    rw [step_succ] at h ⊢
    exact .found (Nat.succ_lt_succ inside) h (missed.before_succ before)
  | exhausted h => exact .exhausted (missed.before_succ h)

/-- One that meets it ends the search. -/
theorem Searched.here {count first segment1 segment2 : Nat}
    (h : Meets l bitrate first segment1 segment2) :
    Searched l bitrate (count + 1) first (.ok (ofSegments first segment1 segment2)) := by
  have start : first + 0 * l.prescalerStep.toNat = first := by rw [Nat.zero_mul, Nat.add_zero]
  have found : Searched l bitrate (count + 1) first
      (.ok (ofSegments (first + 0 * l.prescalerStep.toNat) segment1 segment2)) :=
    .found (Nat.succ_pos count) (by rwa [start]) fun j hj => absurd hj (Nat.not_lt_zero j)
  rwa [start] at found

theorem search_of_found {t : BitTiming} {count first : Nat}
    (tried : withPrescaler? l bitrate first = .ok (some t)) :
    search l bitrate (count + 1) first = .ok t := by
  unfold search
  rw [tried]
  rfl

theorem search_of_error {e : TimingError} {count first : Nat}
    (tried : withPrescaler? l bitrate first = .error e) :
    search l bitrate (count + 1) first = .error e := by
  unfold search
  rw [tried]
  rfl

/-- Behind a prescaler with which there is no timing the search goes on, if the next one fits. -/
theorem search_of_missed {count first : Nat} (tried : withPrescaler? l bitrate first = .ok none) :
    search l bitrate (count + 1) first
      = if first + l.prescalerStep.toNat < 0x100000000 then
          search l bitrate count (first + l.prescalerStep.toNat)
        else .error .overflow := by
  show (withPrescaler? l bitrate first >>= _) = _
  rw [tried]
  show (fitting (first + l.prescalerStep.toNat) >>= _) = _
  unfold fitting
  split <;> rfl

theorem search_spec (ordered : l.segment2Min ≤ l.segment2Max) (bitrate count first : Nat) :
    Searched l bitrate count first (search l bitrate count first) ∨
      search l bitrate count first = .error .overflow := by
  -- on the prescalers that are left; those that were tried are all behind `first`
  induction count generalizing first with
  | zero => exact .inl (.exhausted fun k hk => absurd hk (Nat.not_lt_zero k))
  | succ count ih =>
    rcases withPrescaler?_spec ordered bitrate first with ⟨found, tried, finds⟩ | overflows
    · cases finds with
      | found h =>
        rw [search_of_found tried]
        exact .inl (.here h)
      | missed h =>
        rw [search_of_missed tried]
        split
        · exact (ih _).imp (Searched.next · h) id
        · exact .inr rfl
    · exact .inr (search_of_error overflows)

/-- The prescalers that the search goes through are those on the grid. -/
theorem onGrid_iff (l : TimingLimits) (prescaler : Nat) :
    OnGrid l prescaler ↔
      ∃ k < prescalerCount l, prescaler = firstPrescaler l + k * l.prescalerStep.toNat := by
  constructor
  · rintro ⟨⟨k, rfl⟩, inside⟩
    have started : ¬ l.prescalerMax.toNat < firstPrescaler l := by
      unfold firstPrescaler
      omega
    rw [prescalerCount, if_neg started]
    rcases Nat.eq_zero_or_pos l.prescalerStep.toNat with still | moves
    -- without a step there is no other prescaler than the first one
    · exact ⟨0, Nat.succ_pos _, by rw [still]; rfl⟩
    · refine ⟨k, Nat.lt_succ_of_le ((Nat.le_div_iff_mul_le moves).mpr ?_), rfl⟩
      unfold firstPrescaler
      omega
  · rintro ⟨k, inside, rfl⟩
    refine ⟨⟨k, rfl⟩, ?_⟩
    unfold prescalerCount at inside
    split at inside
    · exact absurd inside (Nat.not_lt_zero k)
    · have room := Nat.div_mul_le_self (l.prescalerMax.toNat - firstPrescaler l)
        l.prescalerStep.toNat
      have steps := Nat.mul_le_mul_right l.prescalerStep.toNat (Nat.le_of_lt_succ inside)
      omega

/-- The numbers of a timing are those that were searched for. -/
theorem Meets.toNat_ofSegments {segment1 segment2 : Nat}
    (h : Meets l bitrate prescaler segment1 segment2) (grid : OnGrid l prescaler) :
    let t := ofSegments prescaler segment1 segment2
    t.prescaler.toNat = prescaler ∧ t.propagation.toNat = 1 ∧ t.phase1.toNat = segment1 - 1 ∧
      t.phase2.toNat = segment2 := by
  -- each number is within a limit, which is a word
  have fits {n : Nat} {limit : UInt32} (bound : n ≤ limit.toNat) : (UInt32.ofNat n).toNat = n := by
    rw [UInt32.toNat_ofNat']
    exact Nat.mod_eq_of_lt (Nat.lt_of_le_of_lt bound limit.toNat_lt)
  have shorter : segment1 - 1 ≤ l.segment1Max.toNat := Nat.le_trans (Nat.sub_le ..) h.splits.high
  exact ⟨fits grid.2, rfl, fits shorter, fits h.splits.best.high⟩

/-! ## Numbers that do not fit -/

/-- With a prescaler that is tried some number does not fit 32 bits: the one that the sample point
is rounded from, or the quanta beside the first segment, when a bit of the rate is a number of
quanta; or the next prescaler, when there is no timing with this one. -/
inductive Outgrows (l : TimingLimits) (bitrate prescaler : Nat) : Prop
  | sample (divides : bitrate * prescaler ∣ l.clock.toNat)
      (large : 0x100000000 ≤ l.clock.toNat / (bitrate * prescaler) * 875 + 500)
  | segment {segment2 : Nat} (divides : bitrate * prescaler ∣ l.clock.toNat)
      (best : BestSegment2 l (l.clock.toNat / (bitrate * prescaler)) segment2)
      (large : 0x100000000 ≤ 1 + segment2)
  | step (missed : Missed l bitrate prescaler)
      (large : 0x100000000 ≤ prescaler + l.prescalerStep.toNat)

theorem fitting_of_le (h : 0x100000000 ≤ n) : fitting n = .error .overflow :=
  if_neg (Nat.not_lt_of_le h)

/-- A bit of few enough quanta has a second segment. -/
theorem exists_segment2 (ordered : l.segment2Min ≤ l.segment2Max)
    (few : quanta * 875 + 500 < 0x100000000) :
    ∃ second, segment2 l quanta = .ok second ∧ BestSegment2 l quanta second := by
  refine (segment2_best ordered quanta).resolve_right fun overflows => ?_
  have sample : samplePoint quanta = .ok ((quanta * 875 + 500) / 1000) := by
    rw [samplePoint, fitting_of_lt few]
    rfl
  unfold segment2 at overflows
  rw [sample] at overflows
  change ite _ _ _ = _ at overflows
  split at overflows <;> cases overflows

theorem ofQuanta?_overflow_iff (ordered : l.segment2Min ≤ l.segment2Max) :
    ofQuanta? l prescaler quanta = .error .overflow
      ↔ 0x100000000 ≤ quanta * 875 + 500 ∨
        ∃ second, BestSegment2 l quanta second ∧ 0x100000000 ≤ 1 + second := by
  by_cases few : quanta * 875 + 500 < 0x100000000
  · obtain ⟨second, found, best⟩ := exists_segment2 ordered few
    by_cases short : 1 + second < 0x100000000
    · rw [ofQuanta?_of_segment2 found (fitting_of_lt short)]
      refine ⟨nofun, ?_⟩
      rintro (large | ⟨other, best', large⟩)
      · omega
      · rw [best'.unique best] at large
        omega
    · have large := Nat.le_of_not_lt short
      refine ⟨fun _ => .inr ⟨second, best, large⟩, fun _ => ?_⟩
      unfold ofQuanta?
      rw [found]
      show (fitting (1 + second) >>= _) = _
      rw [fitting_of_le large]
      rfl
  · have large := Nat.le_of_not_lt few
    refine ⟨fun _ => .inl large, fun _ => ?_⟩
    unfold ofQuanta? segment2 samplePoint
    rw [fitting_of_le large]
    rfl

theorem withPrescaler?_overflow_iff (ordered : l.segment2Min ≤ l.segment2Max) :
    withPrescaler? l bitrate prescaler = .error .overflow
      ↔ bitrate * prescaler ∣ l.clock.toNat ∧
        (0x100000000 ≤ l.clock.toNat / (bitrate * prescaler) * 875 + 500 ∨
          ∃ second, BestSegment2 l (l.clock.toNat / (bitrate * prescaler)) second ∧
            0x100000000 ≤ 1 + second) := by
  unfold withPrescaler?
  split
  · next divides =>
    rw [ofQuanta?_overflow_iff ordered]
    exact ⟨fun h => ⟨Nat.dvd_of_mod_eq_zero divides, h⟩, fun h => h.2⟩
  · next divides =>
    exact ⟨nofun, fun h => absurd (Nat.mod_eq_zero_of_dvd h.1) divides⟩

/-- Where a prescaler was tried without such a number, only the next one can be too large. -/
theorem outgrows_iff {found : Option BitTiming} (ordered : l.segment2Min ≤ l.segment2Max)
    (tried : withPrescaler? l bitrate prescaler = .ok found) :
    Outgrows l bitrate prescaler
      ↔ Missed l bitrate prescaler ∧ 0x100000000 ≤ prescaler + l.prescalerStep.toNat := by
  have fits : withPrescaler? l bitrate prescaler ≠ .error .overflow := by
    rw [tried]
    exact nofun
  rw [ne_eq, withPrescaler?_overflow_iff ordered] at fits
  constructor
  · intro h
    cases h with
    | sample divides large => exact absurd ⟨divides, .inl large⟩ fits
    | segment divides best large => exact absurd ⟨divides, .inr ⟨_, best, large⟩⟩ fits
    | step missed large => exact ⟨missed, large⟩
  · rintro ⟨missed, large⟩
    exact .step missed large

/-- A search stops for a number that does not fit at the first prescaler that has one, unless an
earlier one meets the rate. -/
theorem search_overflow_iff (ordered : l.segment2Min ≤ l.segment2Max) {count first : Nat} :
    search l bitrate count first = .error .overflow
      ↔ ∃ k < count, Outgrows l bitrate (first + k * l.prescalerStep.toNat) ∧
        ∀ j < k, Missed l bitrate (first + j * l.prescalerStep.toNat) := by
  -- on the prescalers that are left, as in `search_spec`
  induction count generalizing first with
  | zero => exact ⟨nofun, fun ⟨k, inside, _⟩ => absurd inside (Nat.not_lt_zero k)⟩
  | succ count ih =>
    have start : first + 0 * l.prescalerStep.toNat = first := by rw [Nat.zero_mul, Nat.add_zero]
    rcases withPrescaler?_spec ordered bitrate first with ⟨found, tried, finds⟩ | overflows
    · have outgrows := outgrows_iff ordered tried
      cases finds with
      | found meets =>
        rw [search_of_found tried]
        refine ⟨nofun, ?_⟩
        -- the first prescaler meets the rate, so it has no such number, nor is it passed over
        rintro ⟨k, -, large, before⟩
        cases k with
        | zero => exact absurd meets ((outgrows.mp (start ▸ large)).1 _ _)
        | succ k => exact absurd (start.symm ▸ meets) (before 0 (Nat.succ_pos k) _ _)
      | missed missed =>
        rw [search_of_missed tried]
        split
        · next fits =>
          rw [ih]
          constructor
          · rintro ⟨k, inside, large, before⟩
            rw [step_succ] at large
            exact ⟨k + 1, Nat.succ_lt_succ inside, large, Missed.before_succ missed before⟩
          · rintro ⟨k, inside, large, before⟩
            cases k with
            | zero =>
              have large := (outgrows.mp (start ▸ large)).2
              omega
            | succ k =>
              refine ⟨k, Nat.lt_of_succ_lt_succ inside, step_succ .. ▸ large, fun j hj => ?_⟩
              rw [step_succ]
              exact before (j + 1) (Nat.succ_lt_succ hj)
        · next large =>
          refine ⟨fun _ => ⟨0, Nat.succ_pos count, ?_, nofun⟩, fun _ => rfl⟩
          rw [start]
          exact .step missed (Nat.le_of_not_lt large)
    · rw [search_of_error overflows]
      refine ⟨fun _ => ⟨0, Nat.succ_pos count, ?_, nofun⟩, fun _ => rfl⟩
      obtain ⟨divides, large | ⟨second, best, large⟩⟩ :=
        (withPrescaler?_overflow_iff ordered).mp overflows
      · rw [start]
        exact .sample divides large
      · rw [start]
        exact .segment divides best large

/-- No number outgrows 32 bits if the longest bit has few enough quanta and the limits leave room
for one more step. -/
theorem forBitrate_ne_overflow {bitrate : UInt32} (ordered : l.segment2Min ≤ l.segment2Max)
    (few : l.clock.toNat / bitrate.toNat * 875 + 500 < 0x100000000)
    (short : 1 + l.segment2Max.toNat < 0x100000000)
    (room : l.prescalerMax.toNat + l.prescalerStep.toNat < 0x100000000) :
    forBitrate l bitrate ≠ .error .overflow := by
  unfold forBitrate
  split
  · exact nofun
  · rw [ne_eq, search_overflow_iff ordered]
    rintro ⟨k, inside, outgrows, -⟩
    cases outgrows with
    | sample divides large =>
      -- a prescaler makes a bit no longer
      have fewer := Nat.div_le_self (l.clock.toNat / bitrate.toNat)
        (firstPrescaler l + k * l.prescalerStep.toNat)
      rw [Nat.div_div_eq_div_mul] at fewer
      have := Nat.mul_le_mul_right 875 fewer
      omega
    | segment divides best large =>
      have high := best.high
      omega
    | step missed large =>
      have within := ((onGrid_iff l _).mpr ⟨k, inside, rfl⟩).2
      omega

/-! ## The result -/

theorem forBitrate_zero (l : TimingLimits) : forBitrate l 0 = .error .unreachable :=
  if_pos rfl

/-- A rate of zero has no prescaler: no bit is as long as that. -/
theorem not_admissible_zero (l : TimingLimits) (prescaler : Nat) : ¬ Admissible l 0 prescaler := by
  rintro ⟨-, segment1, segment2, h⟩
  have whole := h.splits.whole
  rw [Nat.zero_mul, Nat.div_zero] at whole
  omega

/-- The search for a timing is exact.  For limits of the second segment that do not contradict each
other, and unless a number on the way outgrows 32 bits, a timing is found exactly if some prescaler
of the adapter admits one.  It has the smallest of these prescalers and the best second segment,
leaves a quantum at least to both parts of the first one, and takes up all of the clock.  There is
no timing for a rate of zero. -/
theorem forBitrate_exact (l : TimingLimits) (bitrate : UInt32)
    (ordered : l.segment2Min ≤ l.segment2Max) (fits : forBitrate l bitrate ≠ .error .overflow) :
    forBitrate l 0 = .error .unreachable ∧
      ((∃ t, forBitrate l bitrate = .ok t) ↔ ∃ b, Admissible l bitrate.toNat b) ∧
      ∀ t, forBitrate l bitrate = .ok t →
        OnGrid l t.prescaler.toNat ∧
          Meets l bitrate.toNat t.prescaler.toNat (t.propagation.toNat + t.phase1.toNat)
            t.phase2.toNat ∧
          (∀ b, Admissible l bitrate.toNat b → t.prescaler.toNat ≤ b) ∧
          1 ≤ t.propagation.toNat ∧ 1 ≤ t.phase1.toNat ∧
          bitrate.toNat * t.prescaler.toNat
              * (1 + t.propagation.toNat + t.phase1.toNat + t.phase2.toNat) = l.clock.toNat := by
  refine ⟨forBitrate_zero l, ?_⟩
  by_cases zero : bitrate = 0
  · rw [zero, forBitrate_zero]
    refine ⟨⟨nofun, ?_⟩, nofun⟩
    rintro ⟨b, admissible⟩
    exact absurd admissible (not_admissible_zero l b)
  have searches : forBitrate l bitrate
      = search l bitrate.toNat (prescalerCount l) (firstPrescaler l) := if_neg zero
  rw [searches] at fits ⊢
  have spec := (search_spec ordered _ _ _).resolve_right fits
  clear fits
  generalize search l bitrate.toNat (prescalerCount l) (firstPrescaler l) = r at spec
  cases spec with
  | @found k segment1 segment2 inside h before =>
    have grid := (onGrid_iff l _).mpr ⟨k, inside, rfl⟩
    refine ⟨⟨fun _ => ⟨_, grid, _, _, h⟩, fun _ => ⟨_, rfl⟩⟩, ?_⟩
    rintro _ ⟨rfl⟩
    obtain ⟨prescaler, propagation, phase1, phase2⟩ := h.toNat_ofSegments grid
    have low := h.splits.low
    have first : 1 + (segment1 - 1) = segment1 := by omega
    have clock := h.clock_eq
    rw [prescaler, propagation, phase1, phase2, first]
    refine ⟨grid, h, ?_, Nat.le_refl 1, by omega, ?_⟩
    · rintro b ⟨other, _, _, meets⟩
      obtain ⟨j, -, rfl⟩ := (onGrid_iff l b).mp other
      -- an earlier prescaler of the grid was tried before, and did not meet the rate
      rcases Nat.lt_or_ge j k with earlier | later
      · exact absurd meets (before j earlier _ _)
      · exact Nat.add_le_add_left (Nat.mul_le_mul_right _ later) _
    · rwa [Nat.add_assoc 1 1, first]
  | exhausted missed =>
    refine ⟨⟨nofun, ?_⟩, nofun⟩
    rintro ⟨b, grid, segment1, segment2, h⟩
    obtain ⟨k, inside, rfl⟩ := (onGrid_iff l b).mp grid
    exact absurd h (missed k inside _ _)

/-- A megabit per second from a clock of 48 MHz: one and two clock periods make a bit too long for
the segments, three make it one of sixteen quanta. -/
theorem forBitrate_exact_megabit :
    let l : TimingLimits := ⟨48000000, 1, 16, 1, 8, 4, 1, 1024, 1⟩
    forBitrate l 1000000 = .ok ⟨1, 12, 2, 1, 3⟩ ∧ BestSegment2 l 16 2 ∧
      (∀ b, Admissible l 1000000 b → 3 ≤ b) ∧ 1000000 * 3 * (1 + 1 + 12 + 2) = 48000000 := by
  intro l
  have found : forBitrate l 1000000 = .ok ⟨1, 12, 2, 1, 3⟩ := by cbv
  have fits : forBitrate l 1000000 ≠ .error .overflow :=
    forBitrate_ne_overflow (by decide) (by decide) (by decide) (by decide)
  obtain ⟨-, -, exact⟩ := forBitrate_exact l 1000000 (by decide) fits
  obtain ⟨-, meets, least, -, -, clock⟩ := exact _ found
  have quanta : l.clock.toNat / (1000000 * 3) = 16 := by decide
  have best : BestSegment2 l (l.clock.toNat / (1000000 * 3)) 2 := meets.splits.best
  rw [quanta] at best
  exact ⟨found, best, least, clock⟩

end CanDfu.BitTiming
