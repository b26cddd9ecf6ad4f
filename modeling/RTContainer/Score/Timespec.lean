import Mathlib.Algebra.Order.Floor.Div
import Mathlib.Tactic.Ring

/-! Times of seconds and nanoseconds, and the clock tick that the application configures. The
machine integers of the conversions are 32 and 64 bits wide. -/

set_option autoImplicit false

namespace RTContainer.Score

/-- `(uint32_t)` of an integer. -/
def uint32 (value : Int) : Nat := (value % 2 ^ 32).toNat

/-- `(uint64_t)` of an integer. -/
def uint64 (value : Int) : Nat := (value % 2 ^ 64).toNat

theorem uint32_of_lt {value : Nat} (fits : value < 2 ^ 32) : uint32 value = value := by
  unfold uint32
  omega

theorem uint64_of_lt {value : Nat} (fits : value < 2 ^ 64) : uint64 value = value := by
  unfold uint64
  omega

structure Timespec where
  tvSec : Int
  tvNsec : Int
  deriving DecidableEq

namespace Timespec

def isValid (time : Timespec) : Bool :=
  if time.tvSec < 0 then false
  else if time.tvNsec < 0 then false
  else if 1000000000 ≤ time.tvNsec then false
  else true

def nanoseconds (time : Timespec) : Int := time.tvSec * 1000000000 + time.tvNsec

theorem isValid_iff {time : Timespec} :
    time.isValid ↔ ∃ seconds nanoseconds : Nat, time = ⟨seconds, nanoseconds⟩ ∧
      nanoseconds < 1000000000 := by
  obtain ⟨tvSec, tvNsec⟩ := time
  constructor
  · intro valid
    have bounds : 0 ≤ tvSec ∧ 0 ≤ tvNsec ∧ tvNsec < 1000000000 := by
      unfold isValid at valid
      dsimp only at valid
      split at valid
      · cases valid
      split at valid
      · cases valid
      split at valid
      · cases valid
      omega
    refine ⟨tvSec.toNat, tvNsec.toNat, ?_, by omega⟩
    rw [Int.toNat_of_nonneg bounds.1, Int.toNat_of_nonneg bounds.2.1]
  · rintro ⟨seconds, nanoseconds, is, less⟩
    cases is
    unfold isValid
    dsimp only
    rw [if_neg (by omega), if_neg (by omega), if_neg (by omega)]

end Timespec

structure ClockTick where
  microseconds : Nat
  positive : 0 < microseconds
  fits : microseconds < 2 ^ 32

namespace ClockTick

def nanosecondsPerTick (tick : ClockTick) : Nat := 1000 * tick.microseconds % 2 ^ 32

def ticksPerSecond (tick : ClockTick) : Nat := 1000000 / tick.microseconds

/-- The nanoseconds that a tick really takes. -/
def length (tick : ClockTick) : Nat := 1000 * tick.microseconds

end ClockTick

/-- `_Timespec_To_ticks`; without a result it divides by zero. -/
def timespecToTicks (tick : ClockTick) (time : Timespec) : Option Nat :=
  if time.tvSec = 0 ∧ time.tvNsec = 0 then some 0
  else if tick.nanosecondsPerTick = 0 then none
  else
    let seconds := uint32 (time.tvSec * tick.ticksPerSecond)
    let ticks := (seconds + uint32 (time.tvNsec.tdiv tick.nanosecondsPerTick)) % 2 ^ 32
    some (if time.tvNsec.tmod tick.nanosecondsPerTick ≠ 0 then (ticks + 1) % 2 ^ 32 else ticks)

def timespecFromTicks (tick : ClockTick) (ticks : Nat) : Timespec :=
  let usecs := ticks * tick.microseconds % 2 ^ 32
  ⟨(usecs / 1000000 : Nat), (usecs % 1000000 * 1000 % 2 ^ 32 : Nat)⟩

end RTContainer.Score

/-! The conversions between times and ticks: the loss of the parts of a tick in a second, and the
wrap of the microseconds. -/

namespace RTContainer.Score

/-- The division that rounds up as `_Timespec_To_ticks` does. -/
theorem div_add_one_eq_ceilDiv {length : Nat} (positive : 0 < length) (value : Nat) :
    (if value % length ≠ 0 then value / length + 1 else value / length) = value ⌈/⌉ length := by
  have decomposed := Nat.div_add_mod value length
  have less := Nat.mod_lt value positive
  refine le_antisymm ?_ ((ceilDiv_le_iff_le_mul positive).mpr ?_)
  · split
    next inexact =>
      refine Nat.lt_iff_add_one_le.mp (Nat.lt_of_not_le fun fits => ?_)
      have within := (ceilDiv_le_iff_le_mul positive).mp fits
      omega
    next =>
      refine Nat.div_le_of_le_mul ?_
      exact (ceilDiv_le_iff_le_mul positive).mp le_rfl
  · split
    next => rw [Nat.mul_add, Nat.mul_one]; omega
    next exact => omega

theorem mul_add_ceilDiv {length : Nat} (positive : 0 < length) (full value : Nat) :
    (full * length + value) ⌈/⌉ length = full + value ⌈/⌉ length := by
  rw [Nat.ceilDiv_eq_add_pred_div, Nat.ceilDiv_eq_add_pred_div, Nat.add_assoc,
    Nat.add_sub_assoc (by omega), Nat.mul_comm, Nat.mul_add_div positive]

theorem ceilDiv_eq_succ_iff {length : Nat} (positive : 0 < length) (value full : Nat) :
    value ⌈/⌉ length = full + 1 ↔ full * length < value ∧ value ≤ (full + 1) * length := by
  have upper := ceilDiv_le_iff_le_mul (b := value) (c := full + 1) positive
  have lower := ceilDiv_le_iff_le_mul (b := value) (c := full) positive
  rw [Nat.mul_comm] at upper lower
  omega

theorem add_ceilDiv_eq_iff {length : Nat} (positive : 0 < length) (added value : Nat) :
    (added + value) ⌈/⌉ length = value ⌈/⌉ length ↔ added ≤ (length - value % length) % length := by
  have more : value ⌈/⌉ length ≤ (added + value) ⌈/⌉ length :=
    (ceilDiv_le_iff_le_mul positive).mpr <|
      (Nat.le_add_left ..).trans ((ceilDiv_le_iff_le_mul positive).mp le_rfl)
  have decomposed := Nat.div_add_mod value length
  have less := Nat.mod_lt value positive
  rw [← ge_iff_le.trans more.ge_iff_eq', ge_iff_le, ceilDiv_le_iff_le_mul positive,
    ← div_add_one_eq_ceilDiv positive]
  split
  next inexact =>
    rw [Nat.mod_eq_of_lt (by omega), Nat.mul_add, Nat.mul_one]
    omega
  next exact =>
    have exact := not_not.mp exact
    rw [exact, Nat.sub_zero, Nat.mod_self]
    omega

namespace ClockTick

variable (tick : ClockTick)

theorem length_pos : 0 < tick.length := Nat.mul_pos (by decide) tick.positive

private theorem nanosecondsPerTick_of_fits (fits : tick.length < 2 ^ 32) :
    tick.nanosecondsPerTick = tick.length := Nat.mod_eq_of_lt fits

theorem ticksPerSecond_eq : tick.ticksPerSecond = 1000000000 / tick.length := by
  have thousand : 0 < 1000 := by decide
  exact (Nat.mul_div_mul_left 1000000 tick.microseconds thousand).symm

theorem second_eq : 1000000000 = tick.ticksPerSecond * tick.length + 1000000000 % tick.length := by
  rw [ticksPerSecond_eq, Nat.mul_comm]
  exact (Nat.div_add_mod ..).symm

theorem ticksPerSecond_of_not_fits (long : 2 ^ 32 ≤ tick.length) : tick.ticksPerSecond = 0 := by
  rw [ticksPerSecond_eq]
  exact Nat.div_eq_of_lt (by omega)

end ClockTick

variable {tick : ClockTick} {time : Timespec}

/-- The least number of ticks that take at least the time. -/
structure IsTickCount (tick : ClockTick) (time : Timespec) (ticks : Nat) : Prop where
  covers : time.nanoseconds ≤ ticks * tick.length
  least : ∀ fewer : Nat, time.nanoseconds ≤ fewer * tick.length → ticks ≤ fewer

theorem isTickCount_iff {seconds nanoseconds ticks : Nat} :
    IsTickCount tick ⟨seconds, nanoseconds⟩ ticks ↔
      (seconds * 1000000000 + nanoseconds) ⌈/⌉ tick.length = ticks := by
  have covered : ∀ count : Nat, (⟨seconds, nanoseconds⟩ : Timespec).nanoseconds ≤
      count * tick.length ↔ (seconds * 1000000000 + nanoseconds) ⌈/⌉ tick.length ≤ count := by
    intro count
    rw [ceilDiv_le_iff_le_mul tick.length_pos, Nat.mul_comm tick.length]
    unfold Timespec.nanoseconds
    dsimp only
    norm_cast
  constructor
  · intro counts
    exact le_antisymm ((covered ticks).mp counts.covers) (counts.least _ ((covered _).mpr le_rfl))
  · rintro rfl
    exact ⟨(covered _).mpr le_rfl, fun fewer enough => (covered fewer).mp enough⟩

theorem uint32_natCast (value : Nat) : uint32 value = value % 2 ^ 32 := by
  unfold uint32
  omega

theorem timespecToTicks_of_pos {seconds nanoseconds : Nat}
    (nonzero : ¬ (seconds = 0 ∧ nanoseconds = 0)) (positive : 0 < tick.nanosecondsPerTick) :
    timespecToTicks tick ⟨seconds, nanoseconds⟩ =
      some ((seconds * tick.ticksPerSecond + nanoseconds ⌈/⌉ tick.nanosecondsPerTick) % 2 ^ 32) := by
  have notZero : ¬ ((seconds : Int) = 0 ∧ (nanoseconds : Int) = 0) := by omega
  unfold timespecToTicks
  dsimp only
  rw [if_neg notZero, if_neg (Nat.ne_of_gt positive), ← Int.natCast_mul, uint32_natCast,
    ← Int.ofNat_tdiv, uint32_natCast, ← Int.ofNat_tmod, ← div_add_one_eq_ceilDiv positive]
  have same : ((nanoseconds % tick.nanosecondsPerTick : Nat) : Int) ≠ 0 ↔
      nanoseconds % tick.nanosecondsPerTick ≠ 0 := by omega
  simp only [same]
  split <;> congr 1 <;> omega

def RoundsUp (tick : ClockTick) (time : Timespec) : Prop :=
  (time.tvSec = 0 ∧ time.tvNsec = 0) ∨
  (tick.length < 2 ^ 32 ∧ time.tvSec * (1000000000 % tick.length) ≤
    (tick.length - time.tvNsec % tick.length) % tick.length) ∨
  (2 ^ 32 ≤ tick.length ∧ ∃ full : Nat,
    (full * tick.nanosecondsPerTick < time.tvNsec ∧
      time.tvNsec ≤ (full + 1) * tick.nanosecondsPerTick) ∧
    (full * tick.length < time.nanoseconds ∧ time.nanoseconds ≤ (full + 1) * tick.length))

theorem timespecToTicks_fits {seconds nanoseconds : Nat}
    (nonzero : ¬ (seconds = 0 ∧ nanoseconds = 0)) (fits : tick.length < 2 ^ 32)
    (represents : (seconds * 1000000000 + nanoseconds) ⌈/⌉ tick.length < 2 ^ 32) :
    timespecToTicks tick ⟨seconds, nanoseconds⟩ =
        some ((seconds * 1000000000 + nanoseconds) ⌈/⌉ tick.length) ↔
      seconds * (1000000000 % tick.length) ≤
        (tick.length - nanoseconds % tick.length) % tick.length := by
  have length := tick.nanosecondsPerTick_of_fits fits
  have positive := tick.length_pos
  have split : seconds * 1000000000 + nanoseconds = seconds * tick.ticksPerSecond * tick.length +
      (seconds * (1000000000 % tick.length) + nanoseconds) := by
    conv_lhs => rw [tick.second_eq]
    ring
  have fewer : nanoseconds ⌈/⌉ tick.length ≤
      (seconds * (1000000000 % tick.length) + nanoseconds) ⌈/⌉ tick.length :=
    (ceilDiv_le_iff_le_mul positive).mpr <|
      (Nat.le_add_left ..).trans ((ceilDiv_le_iff_le_mul positive).mp le_rfl)
  rw [split, mul_add_ceilDiv positive] at represents ⊢
  rw [timespecToTicks_of_pos nonzero (length ▸ positive), length, Nat.mod_eq_of_lt (by omega),
    ← add_ceilDiv_eq_iff positive, Option.some.injEq]
  omega

theorem timespecToTicks_wraps {seconds nanoseconds : Nat}
    (nonzero : ¬ (seconds = 0 ∧ nanoseconds = 0)) (less : nanoseconds < 1000000000)
    (long : 2 ^ 32 ≤ tick.length) (ticks : Nat) :
    timespecToTicks tick ⟨seconds, nanoseconds⟩ = some ticks ↔
      0 < tick.nanosecondsPerTick ∧ nanoseconds ⌈/⌉ tick.nanosecondsPerTick = ticks := by
  rcases Nat.eq_zero_or_pos tick.nanosecondsPerTick with zero | positive
  · have notZero : ¬ ((seconds : Int) = 0 ∧ (nanoseconds : Int) = 0) := by omega
    unfold timespecToTicks
    dsimp only
    rw [if_neg notZero, if_pos zero]
    exact iff_of_false nofun fun both => Nat.ne_of_gt both.1 zero
  · have small : nanoseconds ⌈/⌉ tick.nanosecondsPerTick ≤ nanoseconds :=
      (ceilDiv_le_iff_le_mul positive).mpr (Nat.le_mul_of_pos_left _ positive)
    rw [timespecToTicks_of_pos nonzero positive, tick.ticksPerSecond_of_not_fits long,
      Nat.mul_zero, Nat.zero_add, Nat.mod_eq_of_lt (by omega), Option.some.injEq]
    exact (and_iff_right positive).symm

theorem timespecToTicks_isTickCount_iff (valid : time.isValid)
    (represents : ∃ ticks < 2 ^ 32, IsTickCount tick time ticks) :
    (∃ ticks, timespecToTicks tick time = some ticks ∧ IsTickCount tick time ticks) ↔
      RoundsUp tick time := by
  obtain ⟨seconds, nanoseconds, rfl, less⟩ := Timespec.isValid_iff.mp valid
  obtain ⟨count, fits, counts⟩ := represents
  have isCount := isTickCount_iff.mp counts
  have least : (∃ ticks, timespecToTicks tick ⟨seconds, nanoseconds⟩ = some ticks ∧
      IsTickCount tick ⟨seconds, nanoseconds⟩ ticks) ↔
        timespecToTicks tick ⟨seconds, nanoseconds⟩ = some count := by
    constructor
    · rintro ⟨ticks, is, counted⟩
      rw [is, ← isTickCount_iff.mp counted, isCount]
    · exact fun is => ⟨count, is, counts⟩
  rw [least]
  by_cases zero : seconds = 0 ∧ nanoseconds = 0
  · obtain ⟨rfl, rfl⟩ := zero
    refine iff_of_true ?_ (.inl ⟨rfl, rfl⟩)
    rw [← isCount]
    exact congrArg some (zero_ceilDiv _).symm
  · have notZero : ¬ ((seconds : Int) = 0 ∧ (nanoseconds : Int) = 0) := by omega
    unfold RoundsUp
    rw [or_iff_right notZero]
    rcases Nat.lt_or_ge tick.length (2 ^ 32) with short | long
    · have exactly := timespecToTicks_fits zero short (isCount ▸ fits)
      rw [isCount] at exactly
      rw [exactly, or_iff_left fun both => Nat.not_le_of_lt short both.1, and_iff_right short]
      have below := Nat.mod_lt nanoseconds tick.length_pos
      have slack : ((tick.length : Int) - (nanoseconds : Int) % tick.length) =
          ((tick.length - nanoseconds % tick.length : Nat) : Int) := by omega
      rw [slack]
      dsimp only
      norm_cast
    · rw [timespecToTicks_wraps zero less long, or_iff_right fun both =>
        Nat.not_le_of_lt both.1 long, and_iff_right long]
      have positiveCount : count ≠ 0 := by
        rintro rfl
        have covered := counts.covers
        unfold Timespec.nanoseconds at covered
        dsimp only at covered
        omega
      obtain ⟨full, rfl⟩ := Nat.exists_eq_succ_of_ne_zero positiveCount
      have whole := (ceilDiv_eq_succ_iff tick.length_pos _ _).mp isCount
      unfold Timespec.nanoseconds
      dsimp only
      constructor
      · rintro ⟨positive, same⟩
        have part := (ceilDiv_eq_succ_iff positive _ _).mp same
        refine ⟨full, ?_, ?_⟩
        · exact_mod_cast part
        · exact_mod_cast whole
      · rintro ⟨other, part, wholeOther⟩
        have part : other * tick.nanosecondsPerTick < nanoseconds ∧
            nanoseconds ≤ (other + 1) * tick.nanosecondsPerTick := by exact_mod_cast part
        have wholeOther : other * tick.length < seconds * 1000000000 + nanoseconds ∧
            seconds * 1000000000 + nanoseconds ≤ (other + 1) * tick.length := by
          exact_mod_cast wholeOther
        have positive : 0 < tick.nanosecondsPerTick := by
          refine Nat.pos_of_ne_zero fun none => ?_
          rw [none] at part
          omega
        have same := ((ceilDiv_eq_succ_iff tick.length_pos _ _).mpr wholeOther).symm.trans isCount
        exact ⟨positive, ((ceilDiv_eq_succ_iff positive _ _).mpr part).trans same⟩

theorem timespecFromTicks_eq (tick : ClockTick) (ticks : Nat) :
    timespecFromTicks tick ticks =
      ⟨(ticks * tick.microseconds % 2 ^ 32 / 1000000 : Nat),
        (ticks * tick.microseconds % 2 ^ 32 % 1000000 * 1000 : Nat)⟩ := by
  have small : ticks * tick.microseconds % 2 ^ 32 % 1000000 * 1000 < 2 ^ 32 := by omega
  unfold timespecFromTicks
  dsimp only
  rw [Nat.mod_eq_of_lt small]

theorem timespecFromTicks_isValid (tick : ClockTick) (ticks : Nat) :
    (timespecFromTicks tick ticks).isValid := by
  rw [timespecFromTicks_eq]
  exact Timespec.isValid_iff.mpr ⟨_, _, rfl, by omega⟩

theorem timespecFromTicks_exact_iff (ticks : Nat) :
    (timespecFromTicks tick ticks).nanoseconds = ticks * tick.length ↔
      ticks * tick.microseconds < 2 ^ 32 := by
  rw [timespecFromTicks_eq]
  unfold Timespec.nanoseconds ClockTick.length
  dsimp only
  have product : (ticks : Int) * (1000 * tick.microseconds : Nat) =
      1000 * (ticks * tick.microseconds : Nat) := by
    push_cast
    ring
  rw [product]
  generalize ticks * tick.microseconds = usecs
  omega

/-- The ticks come back from their duration. -/
def ReturnsTicks (tick : ClockTick) (ticks : Nat) : Prop :=
  ticks = 0 ∨
  (tick.length < 2 ^ 32 ∧ ticks * tick.microseconds < 2 ^ 32 ∧
    ticks * tick.microseconds / 1000000 * (1000000 % tick.microseconds) < tick.microseconds) ∨
  (2 ^ 32 ≤ tick.length ∧ ∃ full, ticks = full + 1 ∧
    full * tick.nanosecondsPerTick < ticks * tick.microseconds % 2 ^ 32 % 1000000 * 1000 ∧
    ticks * tick.microseconds % 2 ^ 32 % 1000000 * 1000 ≤ (full + 1) * tick.nanosecondsPerTick)

theorem lost_le_iff {length seconds rest lost : Nat} (positive : 0 < length)
    (whole : length ∣ seconds * 1000000 + rest) (is : lost = 1000000 % length) :
    seconds * lost ≤ (length - rest % length) % length ↔ seconds * lost < length := by
  subst is
  refine ⟨fun within => within.trans_lt (Nat.mod_lt _ positive), fun less => ?_⟩
  have divides : length ∣ seconds * (1000000 % length) + rest % length := by
    rw [Nat.dvd_iff_mod_eq_zero] at whole ⊢
    rw [← whole, Nat.add_mod, Nat.mul_mod, Nat.mod_mod, Nat.mod_mod, ← Nat.mul_mod, ← Nat.add_mod]
  have below := Nat.mod_lt rest positive
  obtain ⟨count, is⟩ := divides
  have few : count < 2 := by
    refine Nat.lt_of_not_le fun two => ?_
    have more := Nat.mul_le_mul_left length two
    omega
  rcases Nat.lt_or_ge count 1 with none | one
  · have zero : count = 0 := by omega
    subst zero
    omega
  · have same : count = 1 := by omega
    subst same
    rcases Nat.eq_zero_or_pos (rest % length) with exact | inexact
    · omega
    · have less : length - rest % length < length := by omega
      rw [Nat.mod_eq_of_lt less]
      omega

theorem timespecToTicks_fromTicks_zero :
    timespecToTicks tick (timespecFromTicks tick 0) = some 0 := by
  rw [timespecFromTicks_eq, Nat.zero_mul]
  rfl

variable {ticks : Nat}

theorem timespecToTicks_fromTicks_exact (nonzero : ticks ≠ 0) (inRange : ticks < 2 ^ 32)
    (short : tick.length < 2 ^ 32) (exactly : ticks * tick.microseconds < 2 ^ 32) :
    timespecToTicks tick (timespecFromTicks tick ticks) = some ticks ↔
      ticks * tick.microseconds / 1000000 * (1000000 % tick.microseconds) < tick.microseconds := by
  have positive := tick.positive
  have usecs : ticks * tick.microseconds ≠ 0 := Nat.mul_ne_zero nonzero (Nat.ne_of_gt positive)
  have decomposed := Nat.div_add_mod (ticks * tick.microseconds) 1000000
  have duration : (ticks * tick.microseconds / 1000000 * 1000000000 +
      ticks * tick.microseconds % 1000000 * 1000) ⌈/⌉ tick.length = ticks := by
    have total : ticks * tick.microseconds / 1000000 * 1000000000 +
        ticks * tick.microseconds % 1000000 * 1000 = ticks * tick.length + 0 := by
      have thousand : ticks * tick.length = 1000 * (ticks * tick.microseconds) :=
        Nat.mul_left_comm ..
      omega
    rw [total, mul_add_ceilDiv tick.length_pos, zero_ceilDiv, Nat.add_zero]
  have returns := @timespecToTicks_fits tick (ticks * tick.microseconds / 1000000)
    (ticks * tick.microseconds % 1000000 * 1000) (by omega) short (by rw [duration]; exact inRange)
  rw [duration] at returns
  have whole : tick.microseconds ∣
      ticks * tick.microseconds / 1000000 * 1000000 + ticks * tick.microseconds % 1000000 := by
    rw [Nat.mul_comm (_ / _), decomposed]
    exact Nat.dvd_mul_left ..
  rw [timespecFromTicks_eq, Nat.mod_eq_of_lt exactly, returns, ← lost_le_iff positive whole rfl]
  have lost : 1000000000 % tick.length = 1000 * (1000000 % tick.microseconds) :=
    Nat.mul_mod_mul_left 1000 1000000 tick.microseconds
  have rest : ticks * tick.microseconds % 1000000 * 1000 % tick.length =
      1000 * (ticks * tick.microseconds % 1000000 % tick.microseconds) := by
    rw [Nat.mul_comm]
    exact Nat.mul_mod_mul_left 1000 _ tick.microseconds
  rw [lost, rest]
  unfold ClockTick.length
  rw [← Nat.mul_sub, Nat.mul_mod_mul_left, Nat.mul_left_comm]
  exact Nat.mul_le_mul_left_iff (by decide)

theorem timespecToTicks_fromTicks_ne (short : tick.length < 2 ^ 32)
    (wraps : 2 ^ 32 ≤ ticks * tick.microseconds) :
    timespecToTicks tick (timespecFromTicks tick ticks) ≠ some ticks := by
  have nonzero : ticks ≠ 0 := by
    rintro rfl
    omega
  obtain ⟨fewer, rfl⟩ := Nat.exists_eq_succ_of_ne_zero nonzero
  have fits := tick.fits
  have less : (fewer + 1) * tick.microseconds % 2 ^ 32 ≤ fewer * tick.microseconds := by
    rw [Nat.succ_mul] at wraps ⊢
    omega
  rw [timespecFromTicks_eq]
  generalize (fewer + 1) * tick.microseconds % 2 ^ 32 = usecs at less
  by_cases zero : usecs / 1000000 = 0 ∧ usecs % 1000000 * 1000 = 0
  · rw [zero.1, zero.2]
    exact fun same => nomatch Option.some.inj same
  · have length := tick.nanosecondsPerTick_of_fits short
    have positive := tick.length_pos
    rw [timespecToTicks_of_pos zero (length ▸ positive), length]
    intro same
    have below : usecs / 1000000 * tick.ticksPerSecond + (usecs % 1000000 * 1000) ⌈/⌉ tick.length ≤
        fewer := by
      rw [← mul_add_ceilDiv positive, ceilDiv_le_iff_le_mul positive]
      have second : tick.ticksPerSecond * tick.length ≤ 1000000000 := by
        have split := tick.second_eq
        omega
      have seconds := Nat.mul_le_mul_left (usecs / 1000000) second
      have thousand : tick.length * fewer = 1000 * (fewer * tick.microseconds) := by
        unfold ClockTick.length
        ring
      rw [Nat.mul_assoc, thousand]
      omega
    have result := Option.some.inj same
    have atMost := Nat.mod_le (usecs / 1000000 * tick.ticksPerSecond +
      (usecs % 1000000 * 1000) ⌈/⌉ tick.length) (2 ^ 32)
    omega

theorem timespecToTicks_fromTicks_iff (inRange : ticks < 2 ^ 32) :
    timespecToTicks tick (timespecFromTicks tick ticks) = some ticks ↔ ReturnsTicks tick ticks := by
  unfold ReturnsTicks
  rcases Nat.eq_zero_or_pos ticks with rfl | positive
  · exact iff_of_true timespecToTicks_fromTicks_zero (.inl rfl)
  · have nonzero := Nat.ne_of_gt positive
    rw [or_iff_right nonzero]
    rcases Nat.lt_or_ge tick.length (2 ^ 32) with short | long
    · rw [or_iff_left fun both => Nat.not_le_of_lt short both.1, and_iff_right short]
      rcases Nat.lt_or_ge (ticks * tick.microseconds) (2 ^ 32) with exactly | wraps
      · rw [timespecToTicks_fromTicks_exact nonzero inRange short exactly, and_iff_right exactly]
      · exact iff_of_false (timespecToTicks_fromTicks_ne short wraps)
          fun both => Nat.not_le_of_lt both.1 wraps
    · rw [or_iff_right fun both => Nat.not_le_of_lt both.1 long, and_iff_right long,
        timespecFromTicks_eq]
      generalize ticks * tick.microseconds % 2 ^ 32 = usecs
      obtain ⟨fewer, rfl⟩ := Nat.exists_eq_succ_of_ne_zero nonzero
      by_cases zero : usecs / 1000000 = 0 ∧ usecs % 1000000 * 1000 = 0
      · rw [zero.1, zero.2]
        exact iff_of_false (fun same => nomatch Option.some.inj same) (by rintro ⟨_, _, _, _⟩; omega)
      · rw [timespecToTicks_wraps zero (by omega) long]
        constructor
        · rintro ⟨holds, same⟩
          exact ⟨fewer, rfl, (ceilDiv_eq_succ_iff holds _ _).mp same⟩
        · rintro ⟨full, same, part⟩
          cases same
          have holds : 0 < tick.nanosecondsPerTick := by
            refine Nat.pos_of_ne_zero fun none => ?_
            rw [none] at part
            omega
          exact ⟨holds, (ceilDiv_eq_succ_iff holds _ _).mpr part⟩

structure TickConversions (tick : ClockTick) (time : Timespec) (ticks : Nat) : Prop where
  toTicks : ∃ count, timespecToTicks tick time = some count ∧ IsTickCount tick time count
  fromTicks : (timespecFromTicks tick ticks).isValid ∧
    (timespecFromTicks tick ticks).nanoseconds = ticks * tick.length
  returns : timespecToTicks tick (timespecFromTicks tick ticks) = some ticks

/-- The conversions are right exactly if no fractions of a tick are lost in the seconds, and the
microseconds do not wrap. -/
theorem tickConversions_iff (tick : ClockTick) {time : Timespec} (valid : time.isValid)
    (represents : ∃ ticks < 2 ^ 32, IsTickCount tick time ticks) {ticks : Nat}
    (inRange : ticks < 2 ^ 32) :
    TickConversions tick time ticks ↔
      RoundsUp tick time ∧ ticks * tick.microseconds < 2 ^ 32 ∧ ReturnsTicks tick ticks := by
  rw [← timespecToTicks_isTickCount_iff valid represents, ← timespecFromTicks_exact_iff,
    ← timespecToTicks_fromTicks_iff inRange]
  constructor
  · exact fun right => ⟨right.toTicks, right.fromTicks.2, right.returns⟩
  · exact fun holds => ⟨holds.1, ⟨timespecFromTicks_isValid tick ticks, holds.2.1⟩, holds.2.2⟩

/-- The default length of a tick. -/
def tenMilliseconds : ClockTick := ⟨10000, by decide, by decide⟩

theorem tickConversions_default : TickConversions tenMilliseconds ⟨1, 1⟩ 101 := by
  have represents : ∃ ticks < 2 ^ 32, IsTickCount tenMilliseconds ⟨1, 1⟩ ticks :=
    ⟨101, by decide, (@isTickCount_iff tenMilliseconds 1 1 101).mpr (by decide)⟩
  refine (tickConversions_iff tenMilliseconds (by decide) represents (by decide)).mpr
    ⟨.inr (.inl ⟨by decide, by decide⟩), by decide, .inr (.inl ⟨by decide, by decide, by decide⟩)⟩

/-- More than an hour of ticks is converted to less than three milliseconds, and a second to less
than a second of ticks of three microseconds. -/
theorem tickConversions_wrong :
    (IsTickCount tenMilliseconds ⟨0, 0⟩ 0 ∧ ¬ TickConversions tenMilliseconds ⟨0, 0⟩ 429497) ∧
      IsTickCount ⟨3, by decide, by decide⟩ ⟨1, 0⟩ 333334 ∧
        ¬ TickConversions ⟨3, by decide, by decide⟩ ⟨1, 0⟩ 0 := by
  refine ⟨⟨(@isTickCount_iff tenMilliseconds 0 0 0).mpr (by decide), fun right => ?_⟩,
    (@isTickCount_iff _ 1 0 _).mpr (by decide), ?_⟩
  · exact absurd right.fromTicks.2 (by decide)
  · rintro ⟨⟨count, is, counts⟩, -, -⟩
    cases is
    exact absurd counts.covers (by decide)

end RTContainer.Score
