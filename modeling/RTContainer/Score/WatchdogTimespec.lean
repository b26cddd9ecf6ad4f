import RTContainer.Score.Timespec

/-! Times as expirations of watchdogs: the seconds are above the 30 bits of the nanoseconds. -/

set_option autoImplicit false

namespace RTContainer.Score

def watchdogBits : Nat := 30

def watchdogMaxSeconds : Int := 0x3ffffffff

def int64Max : Nat := 2 ^ 63 - 1

def watchdogIsValidTimespec (ts : Option Timespec) : Bool :=
  match ts with
  | none => false
  | some ts => decide (uint64 ts.tvNsec < 1000000000)

def watchdogIsValidIntervalTimespec (ts : Option Timespec) : Bool :=
  watchdogIsValidTimespec ts && ts.any fun ts => decide (0 ≤ ts.tvSec)

def watchdogFutureTimespec (now : Timespec) (delta : Option Timespec) : Option Timespec :=
  if !watchdogIsValidIntervalTimespec delta then none
  else
    delta.map fun delta =>
      let sec := (uint64 now.tvSec + uint64 delta.tvSec) % 2 ^ 64
      let tvNsec := now.tvNsec + delta.tvNsec
      let (tvNsec, sec) :=
        if 1000000000 ≤ tvNsec then (tvNsec - 1000000000, (sec + 1) % 2 ^ 64) else (tvNsec, sec)
      if sec ≤ int64Max then ⟨sec, tvNsec⟩ else ⟨int64Max, tvNsec⟩

def watchdogIsFarFutureTimespec (ts : Timespec) : Bool := decide (watchdogMaxSeconds < ts.tvSec)

def watchdogTicksFromTimespec (ts : Timespec) : Nat :=
  (uint64 ts.tvSec <<< watchdogBits) % 2 ^ 64 ||| uint32 ts.tvNsec

def watchdogTicksToTimespec (ticks : Nat) : Timespec :=
  ⟨(ticks >>> watchdogBits : Nat), (ticks &&& (1 <<< watchdogBits - 1) : Nat)⟩

/-- `_Watchdog_Ticks_from_sbintime`; the shift to the left is one of a signed integer. -/
def watchdogTicksFromSbintime (sbt : Int) : Nat :=
  uint64 ((sbt >>> (32 : Nat)) * 2 ^ watchdogBits) |||
    ((1000000000 * uint32 sbt % 2 ^ 64) >>> 32)

/-- What `_Watchdog_Ticks_from_timespec` asserts. -/
structure Timespec.Encodable (ts : Timespec) : Prop where
  valid : watchdogIsValidTimespec (some ts)
  nonNegative : 0 ≤ ts.tvSec
  notFarFuture : ¬ watchdogIsFarFutureTimespec ts
  inLong : -2 ^ 63 ≤ ts.tvNsec ∧ ts.tvNsec < 2 ^ 63

structure Timespec.InRange (ts : Timespec) : Prop where
  sec : -2 ^ 63 ≤ ts.tvSec ∧ ts.tvSec < 2 ^ 63
  nsec : -2 ^ 63 ≤ ts.tvNsec ∧ ts.tvNsec < 2 ^ 63

variable {ts earlier later now : Timespec}

theorem Timespec.Encodable.exists_nat (encodable : ts.Encodable) :
    ∃ seconds nanoseconds : Nat, ts = ⟨seconds, nanoseconds⟩ ∧ seconds < 2 ^ 34 ∧
      nanoseconds < 1000000000 := by
  obtain ⟨tvSec, tvNsec⟩ := ts
  obtain ⟨valid, nonNegative, notFarFuture, inLong⟩ := encodable
  have less : uint64 tvNsec < 1000000000 := of_decide_eq_true valid
  have near : ¬ 0x3ffffffff < tvSec := fun far => notFarFuture (decide_eq_true far)
  unfold uint64 at less
  dsimp only at nonNegative inLong
  refine ⟨tvSec.toNat, tvNsec.toNat, ?_, by omega, by omega⟩
  rw [Int.toNat_of_nonneg nonNegative, Int.toNat_of_nonneg (by omega)]

variable {seconds nanoseconds : Nat}

theorem watchdogTicksFromTimespec_eq (near : seconds < 2 ^ 34) (less : nanoseconds < 1000000000) :
    watchdogTicksFromTimespec ⟨seconds, nanoseconds⟩ = seconds * 2 ^ 30 + nanoseconds := by
  have shifted : seconds <<< 30 < 2 ^ 64 := by
    rw [Nat.shiftLeft_eq]
    omega
  have below : nanoseconds < 2 ^ 30 := by omega
  unfold watchdogTicksFromTimespec watchdogBits
  dsimp only
  rw [uint64_of_lt (by omega), uint32_of_lt (by omega), Nat.mod_eq_of_lt shifted,
    ← Nat.shiftLeft_add_eq_or_of_lt below, Nat.shiftLeft_eq]

theorem watchdogTicksFromTimespec_lt_iff (encodableEarlier : earlier.Encodable)
    (encodableLater : later.Encodable) :
    watchdogTicksFromTimespec earlier < watchdogTicksFromTimespec later ↔
      earlier.nanoseconds < later.nanoseconds := by
  obtain ⟨seconds, nanoseconds, rfl, near, less⟩ := encodableEarlier.exists_nat
  obtain ⟨secondsLater, nanosecondsLater, rfl, nearLater, lessLater⟩ := encodableLater.exists_nat
  rw [watchdogTicksFromTimespec_eq near less, watchdogTicksFromTimespec_eq nearLater lessLater]
  unfold Timespec.nanoseconds
  dsimp only
  omega

theorem watchdogTicksToTimespec_ticksFrom (encodable : ts.Encodable) :
    watchdogTicksToTimespec (watchdogTicksFromTimespec ts) = ts := by
  obtain ⟨seconds, nanoseconds, rfl, near, less⟩ := encodable.exists_nat
  rw [watchdogTicksFromTimespec_eq near less]
  have mask : (1 <<< watchdogBits - 1 : Nat) = 2 ^ 30 - 1 := rfl
  unfold watchdogTicksToTimespec
  rw [mask, Nat.and_two_pow_sub_one_eq_mod, Nat.shiftRight_eq_div_pow]
  unfold watchdogBits
  congr 1 <;> omega

structure IsFuture (now delta future : Timespec) : Prop where
  valid : watchdogIsValidTimespec (some future)
  notEarlier : now.nanoseconds ≤ future.nanoseconds
  sum : future.nanoseconds = now.nanoseconds + delta.nanoseconds ∨
    watchdogIsFarFutureTimespec future ∧ future.tvSec = int64Max ∧
      (int64Max + 1) * 1000000000 ≤ now.nanoseconds + delta.nanoseconds

private theorem watchdogIsValidTimespec_natCast {seconds : Int} (less : nanoseconds < 1000000000) :
    watchdogIsValidTimespec (some ⟨seconds, nanoseconds⟩) := by
  refine decide_eq_true ?_
  rw [uint64_of_lt (by omega)]
  exact less

theorem watchdogFutureTimespec_natCast {deltaSeconds deltaNanoseconds : Nat}
    (fits : seconds + deltaSeconds + 1 < 2 ^ 64)
    (carries : nanoseconds + deltaNanoseconds < 2 * 1000000000)
    (interval : watchdogIsValidIntervalTimespec (some ⟨deltaSeconds, deltaNanoseconds⟩)) :
    watchdogFutureTimespec ⟨seconds, nanoseconds⟩ (some ⟨deltaSeconds, deltaNanoseconds⟩) =
      some ⟨(min (seconds + deltaSeconds + (nanoseconds + deltaNanoseconds) / 1000000000)
        int64Max : Nat), ((nanoseconds + deltaNanoseconds) % 1000000000 : Nat)⟩ := by
  have sum : (uint64 seconds + uint64 deltaSeconds) % 2 ^ 64 = seconds + deltaSeconds := by
    rw [uint64_of_lt (by omega), uint64_of_lt (by omega)]
    exact Nat.mod_eq_of_lt (by omega)
  unfold watchdogFutureTimespec
  rw [interval, Option.map_some, Bool.not_true, if_neg Bool.false_ne_true]
  dsimp only
  rw [sum]
  rcases Nat.lt_or_ge (nanoseconds + deltaNanoseconds) 1000000000 with less | more
  · have stays : ¬ 1000000000 ≤ (nanoseconds : Int) + deltaNanoseconds := by omega
    rw [if_neg stays, Nat.div_eq_of_lt less, Nat.mod_eq_of_lt less, Nat.add_zero]
    dsimp only
    split
    next within => rw [Nat.min_eq_left within]; rfl
    next beyond => rw [Nat.min_eq_right (Nat.le_of_not_le beyond)]; rfl
  · have carry : (nanoseconds + deltaNanoseconds) / 1000000000 = 1 := by omega
    have rest : (nanoseconds : Int) + deltaNanoseconds - 1000000000 =
        ((nanoseconds + deltaNanoseconds) % 1000000000 : Nat) := by omega
    have overflows : 1000000000 ≤ (nanoseconds : Int) + deltaNanoseconds := by omega
    rw [if_pos overflows, carry, rest]
    dsimp only
    rw [Nat.mod_eq_of_lt fits]
    split
    next within => rw [Nat.min_eq_left within]
    next beyond => rw [Nat.min_eq_right (Nat.le_of_not_le beyond)]

theorem watchdogFutureTimespec_isFuture (encodable : now.Encodable) {delta : Timespec}
    (inRange : delta.InRange) (interval : watchdogIsValidIntervalTimespec (some delta)) :
    ∃ future, watchdogFutureTimespec now (some delta) = some future ∧
      IsFuture now delta future := by
  obtain ⟨seconds, nanoseconds, rfl, near, less⟩ := encodable.exists_nat
  obtain ⟨deltaSeconds, deltaNanoseconds⟩ := delta
  obtain ⟨valid, nonNegative⟩ := Bool.and_eq_true_iff.mp interval
  have nonNegative : 0 ≤ deltaSeconds := of_decide_eq_true nonNegative
  have small : uint64 deltaNanoseconds < 1000000000 := of_decide_eq_true valid
  obtain ⟨sec, nsec⟩ := inRange
  unfold uint64 at small
  dsimp only at sec nsec
  obtain ⟨deltaSeconds, rfl⟩ := Int.eq_ofNat_of_zero_le nonNegative
  obtain ⟨deltaNanoseconds, rfl⟩ : ∃ natural : Nat, deltaNanoseconds = natural :=
    ⟨deltaNanoseconds.toNat, by omega⟩
  have max : int64Max = 2 ^ 63 - 1 := rfl
  refine ⟨_, watchdogFutureTimespec_natCast (by omega) (by omega) interval,
    watchdogIsValidTimespec_natCast (by omega), ?_, ?_⟩
  · unfold Timespec.nanoseconds
    dsimp only
    omega
  · rcases le_or_gt (seconds + deltaSeconds + (nanoseconds + deltaNanoseconds) / 1000000000)
      int64Max with within | beyond
    · left
      rw [Nat.min_eq_left within]
      unfold Timespec.nanoseconds
      dsimp only
      omega
    · have farFuture : watchdogMaxSeconds < (int64Max : Int) := by decide
      rw [Nat.min_eq_right beyond.le]
      refine .inr ⟨decide_eq_true farFuture, rfl, ?_⟩
      unfold Timespec.nanoseconds
      dsimp only
      omega

theorem watchdogFutureTimespec_invalid {delta : Option Timespec}
    (invalid : ¬ watchdogIsValidIntervalTimespec delta) :
    watchdogFutureTimespec now delta = none := by
  unfold watchdogFutureTimespec
  rw [Bool.eq_false_iff.mpr invalid]
  rfl

/-- The seconds are above the fraction; a negative number of seconds is above all others. -/
theorem watchdogTicksFromSbintime_eq (sbt : Int) :
    watchdogTicksFromSbintime sbt =
      (sbt / 2 ^ 32 % 2 ^ 34).toNat * 2 ^ 30 + 1000000000 * (sbt % 2 ^ 32).toNat / 2 ^ 32 := by
  have seconds : uint64 ((sbt >>> (32 : Nat)) * 2 ^ watchdogBits) =
      (sbt / 2 ^ 32 % 2 ^ 34).toNat <<< 30 := by
    rw [Int.shiftRight_eq_div_pow, Nat.shiftLeft_eq]
    unfold uint64 watchdogBits
    omega
  have fraction : (1000000000 * uint32 sbt % 2 ^ 64) >>> 32 =
      1000000000 * (sbt % 2 ^ 32).toNat / 2 ^ 32 := by
    rw [Nat.shiftRight_eq_div_pow]
    unfold uint32
    omega
  have below : 1000000000 * (sbt % 2 ^ 32).toNat / 2 ^ 32 < 2 ^ 30 := by omega
  unfold watchdogTicksFromSbintime
  rw [seconds, fraction, ← Nat.shiftLeft_add_eq_or_of_lt below, Nat.shiftLeft_eq]

theorem watchdogTicksFromSbintime_le {earlier later : Int} (inRange : -2 ^ 63 ≤ earlier)
    (inRangeLater : later < 2 ^ 63) (ordered : earlier ≤ later)
    (sameSide : 0 ≤ earlier ∨ later < 0) :
    watchdogTicksFromSbintime earlier ≤ watchdogTicksFromSbintime later := by
  rw [watchdogTicksFromSbintime_eq, watchdogTicksFromSbintime_eq]
  rcases Int.lt_or_eq_of_le (Int.ediv_le_ediv (c := 2 ^ 32) (by decide) ordered) with less | same
  · have seconds : (earlier / 2 ^ 32 % 2 ^ 34).toNat + 1 ≤ (later / 2 ^ 32 % 2 ^ 34).toNat := by
      rcases sameSide with after | before <;> omega
    have fraction : 1000000000 * (earlier % 2 ^ 32).toNat / 2 ^ 32 < 2 ^ 30 := by omega
    have more := Nat.mul_le_mul_right (2 ^ 30) seconds
    omega
  · have rest : (earlier % 2 ^ 32).toNat ≤ (later % 2 ^ 32).toNat := by omega
    rw [same]
    exact Nat.add_le_add_left (Nat.div_le_div_right (Nat.mul_le_mul_left _ rest)) _

/-- For times that are not negative and not far in the future. -/
structure EncodesTimes (earlier later now : Timespec) (delta : Option Timespec)
    (sbt laterSbt : Int) : Prop where
  ordered : watchdogTicksFromTimespec earlier < watchdogTicksFromTimespec later ↔
    earlier.nanoseconds < later.nanoseconds
  inverts : watchdogTicksToTimespec (watchdogTicksFromTimespec earlier) = earlier
  future : match watchdogFutureTimespec now delta with
    | none => ¬ watchdogIsValidIntervalTimespec delta
    | some future => ∃ added ∈ delta, IsFuture now added future
  sbintime : sbt ≤ laterSbt → watchdogTicksFromSbintime sbt ≤ watchdogTicksFromSbintime laterSbt

theorem encodesTimes_of_encodable (encodableEarlier : earlier.Encodable)
    (encodableLater : later.Encodable) (encodableNow : now.Encodable) {delta : Option Timespec}
    (inRangeDelta : ∀ added ∈ delta, added.InRange) {sbt laterSbt : Int} (inRange : -2 ^ 63 ≤ sbt)
    (inRangeLater : laterSbt < 2 ^ 63) (sameSide : 0 ≤ sbt ∨ laterSbt < 0) :
    EncodesTimes earlier later now delta sbt laterSbt where
  ordered := watchdogTicksFromTimespec_lt_iff encodableEarlier encodableLater
  inverts := watchdogTicksToTimespec_ticksFrom encodableEarlier
  future := by
    by_cases interval : watchdogIsValidIntervalTimespec delta
    · cases delta with
      | none => cases interval
      | some added =>
        obtain ⟨future, is, isFuture⟩ :=
          watchdogFutureTimespec_isFuture encodableNow (inRangeDelta added rfl) interval
        rw [is]
        exact ⟨added, rfl, isFuture⟩
    · rw [watchdogFutureTimespec_invalid interval]
      exact interval
  sbintime ordered := watchdogTicksFromSbintime_le inRange inRangeLater ordered sameSide

theorem encodesTimes_example :
    EncodesTimes ⟨1, 999999999⟩ ⟨2, 0⟩ ⟨5, 600000000⟩ (some ⟨2 ^ 63 - 1, 600000000⟩) 1 2 := by
  refine encodesTimes_of_encodable ⟨by decide, by decide, by decide, by decide⟩
    ⟨by decide, by decide, by decide, by decide⟩ ⟨by decide, by decide, by decide, by decide⟩
    ?_ (by decide) (by decide) (by decide)
  rintro _ ⟨⟩
  exact ⟨by decide, by decide⟩

/-- A negative time is later than all others in ticks. -/
theorem encodesTimes_negative :
    (watchdogIsValidTimespec (some ⟨-1, 0⟩) ∧ ¬ watchdogIsFarFutureTimespec ⟨-1, 0⟩ ∧
      Timespec.nanoseconds ⟨-1, 0⟩ < Timespec.nanoseconds ⟨0, 0⟩ ∧
      watchdogTicksFromTimespec ⟨0, 0⟩ < watchdogTicksFromTimespec ⟨-1, 0⟩) ∧
    watchdogTicksFromSbintime 0 < watchdogTicksFromSbintime (-1) := by
  decide

end RTContainer.Score
