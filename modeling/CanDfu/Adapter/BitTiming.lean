/-
  CanDfu.Adapter.BitTiming

  How a bit on the bus is timed.  A bit is a number of time quanta, each a number of clock periods
  (the prescaler): one quantum to synchronise, then `propagation + phase1` before the sample point
  and `phase2` after it.  For a bit rate, the smallest prescaler is taken that meets the rate
  exactly with a sample point near 87.5 %.
-/
import CanDfu.LittleEndian
import CanDfu.Transport

namespace CanDfu

/-- What an adapter can do: its clock in Hz, and the ranges of segments and prescaler. -/
structure TimingLimits where
  clock : UInt32
  segment1Min : UInt32
  segment1Max : UInt32
  segment2Min : UInt32
  segment2Max : UInt32
  jumpMax : UInt32
  prescalerMin : UInt32
  prescalerMax : UInt32
  prescalerStep : UInt32
  deriving DecidableEq, Repr

namespace TimingLimits

/-- Bytes of an adapter's answer. -/
def size : Nat := 40

/-- Reads an adapter's answer: a bitmap of features, which is not used, and the nine numbers.  A
prescaler steps by one at least. -/
def ofBytes (bytes : List UInt8) : Except TransportError TimingLimits :=
  if bytes.length < size then
    .error (.malformedFrame s!"BT_CONST response too short: {bytes.length} < {size}")
  else
    let field := fun i => LittleEndian.firstWord 0 (bytes.drop (4 + 4 * i))
    .ok ⟨field 0, field 1, field 2, field 3, field 4, field 5, field 6, field 7,
      max (field 8) 1⟩

/-- The limits in a log record. -/
def text (l : TimingLimits) : String :=
  s!"BitTimingConst \x7b fclk_can: {l.clock}, tseg1_min: {l.segment1Min}, tseg1_max: {l.segment1Max}, tseg2_min: {l.segment2Min}, tseg2_max: {l.segment2Max}, sjw_max: {l.jumpMax}, brp_min: {l.prescalerMin}, brp_max: {l.prescalerMax}, brp_inc: {l.prescalerStep} \x7d"

end TimingLimits

/-- The timing of a bit. -/
structure BitTiming where
  propagation : UInt32
  phase1 : UInt32
  phase2 : UInt32
  jump : UInt32
  prescaler : UInt32
  deriving DecidableEq, Repr

/-- Why there is no timing for a bit rate. -/
inductive TimingError
  /-- No prescaler meets the rate within the limits. -/
  | unreachable
  /-- The limits of the second segment contradict each other. -/
  | contradictoryLimits
  /-- A number on the way does not fit 32 bits. -/
  | overflow
  deriving DecidableEq, Repr

namespace BitTiming

/-- A number that has to fit 32 bits. -/
def fitting (n : Nat) : Except TimingError Nat :=
  if n < 0x100000000 then .ok n else .error .overflow

/-- Quanta before the sample point of a bit of `quanta`: 87.5 % of them, a half rounded up. -/
def samplePoint (quanta : Nat) : Except TimingError Nat := do
  return (← fitting (quanta * 875 + 500)) / 1000

/-- The second segment of a bit of `quanta`, moved into its limits. -/
def segment2 (l : TimingLimits) (quanta : Nat) : Except TimingError Nat := do
  let sample ← samplePoint quanta
  if l.segment2Max < l.segment2Min then throw .contradictoryLimits
  return max l.segment2Min.toNat (min (quanta - sample) l.segment2Max.toNat)

/-- The timing of a bit of `quanta`, if its first segment is within its limits. -/
def ofQuanta? (l : TimingLimits) (prescaler quanta : Nat) :
    Except TimingError (Option BitTiming) := do
  let segment2 ← segment2 l quanta
  let segment1 := quanta - (← fitting (1 + segment2))
  if max l.segment1Min.toNat 2 ≤ segment1 ∧ segment1 ≤ l.segment1Max.toNat then
    return some ⟨1, .ofNat (segment1 - 1), .ofNat segment2, 1, .ofNat prescaler⟩
  else return none

/-- The timing with one prescaler, if that meets the rate. -/
def withPrescaler? (l : TimingLimits) (bitrate prescaler : Nat) :
    Except TimingError (Option BitTiming) :=
  if l.clock.toNat % (bitrate * prescaler) = 0 then
    ofQuanta? l prescaler (l.clock.toNat / (bitrate * prescaler))
  else .ok none

/-- The first of `count` prescalers, from `prescaler` on, that meets the rate. -/
def search (l : TimingLimits) (bitrate : Nat) :
    (count prescaler : Nat) → Except TimingError BitTiming
  | 0, _ => .error .unreachable
  | count + 1, prescaler => do
    match ← withPrescaler? l bitrate prescaler with
    | some timing => return timing
    | none =>
      let next ← fitting (prescaler + l.prescalerStep.toNat)
      search l bitrate count next

/-- The smallest prescaler ever used. -/
def firstPrescaler (l : TimingLimits) : Nat := max l.prescalerMin.toNat 1

/-- The number of prescalers within the limits.  Limits that were read step by one at least.  Steps
of zero would try the first prescaler for ever; here they count as one prescaler. -/
def prescalerCount (l : TimingLimits) : Nat :=
  if l.prescalerMax.toNat < firstPrescaler l then 0
  else (l.prescalerMax.toNat - firstPrescaler l) / l.prescalerStep.toNat + 1

/-- The timing for a bit rate. -/
def forBitrate (l : TimingLimits) (bitrate : UInt32) : Except TimingError BitTiming :=
  if bitrate = 0 then .error .unreachable
  else search l bitrate.toNat (prescalerCount l) (firstPrescaler l)

/-- The timing as it is sent to an adapter. -/
def toBytes (t : BitTiming) : List UInt8 :=
  [t.propagation, t.phase1, t.phase2, t.jump, t.prescaler].flatMap LittleEndian.bytes

/-- The timing in a log record. -/
def text (t : BitTiming) : String :=
  s!"BitTiming \x7b prop_seg: {t.propagation}, phase_seg1: {t.phase1}, phase_seg2: {t.phase2}, sjw: {t.jump}, brp: {t.prescaler} \x7d"

end BitTiming

end CanDfu
