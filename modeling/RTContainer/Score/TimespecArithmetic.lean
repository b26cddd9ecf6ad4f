import RTContainer.Score.Timespec

/-! Sums, differences and quotients of times. A normalised time may be negative; its
nanoseconds are not. -/

set_option autoImplicit false

namespace RTContainer.Score

/-- A value of `time_t`, which is 64 bits wide; beyond it a sum has no result. -/
def timeT (value : Int) : Option Int :=
  if -2 ^ 63 ≤ value ∧ value < 2 ^ 63 then some value else none

/-- The loop of `_Timespec_Add_to`. -/
def carryNanoseconds (time : Timespec) (seconds : Int) : Option (Timespec × Int) :=
  if 1000000000 ≤ time.tvNsec then
    (timeT (time.tvSec + 1)).bind fun tvSec =>
      (timeT (seconds + 1)).bind fun seconds =>
        carryNanoseconds ⟨tvSec, time.tvNsec - 1000000000⟩ seconds
  else some (time, seconds)
termination_by time.tvNsec.toNat

def timespecAddTo (time add : Timespec) : Option (Timespec × Int) :=
  (timeT (time.tvSec + add.tvSec)).bind fun tvSec =>
    carryNanoseconds ⟨tvSec, time.tvNsec + add.tvNsec⟩ add.tvSec

def timespecSubtract (start last : Timespec) : Option Timespec :=
  if last.tvNsec < start.tvNsec then
    (timeT (last.tvSec - start.tvSec)).bind fun seconds =>
      (timeT (seconds - 1)).map fun tvSec =>
        ⟨tvSec, (1000000000 - start.tvNsec) + last.tvNsec⟩
  else
    (timeT (last.tvSec - start.tvSec)).map fun tvSec => ⟨tvSec, last.tvNsec - start.tvNsec⟩

/-- The integer percentage and its thousandths. -/
def timespecDivide (lhs rhs : Timespec) : Nat × Nat :=
  let left := uint64 (uint64 (lhs.tvSec * 1000000000) + lhs.tvNsec)
  let right := uint64 (uint64 (rhs.tvSec * 1000000000) + rhs.tvNsec)
  if right = 0 then (0, 0)
  else
    let answer := left * 100000 % 2 ^ 64 / right
    (answer / 1000 % 2 ^ 32, answer % 1000)

namespace Timespec

structure Normalised (time : Timespec) : Prop where
  seconds : -2 ^ 63 ≤ time.tvSec ∧ time.tvSec < 2 ^ 63
  nanoseconds : 0 ≤ time.tvNsec ∧ time.tvNsec < 1000000000

variable {time add start last lhs rhs : Timespec}

/-- The sum is exact and normalised, and the seconds returned are those by which it grew. -/
def Sums (time add : Timespec) : Prop :=
  ∃ sum, timespecAddTo time add = some (sum, sum.tvSec - time.tvSec) ∧ sum.Normalised ∧
    sum.nanoseconds = time.nanoseconds + add.nanoseconds

def carry (time add : Timespec) : Int := (time.tvNsec + add.tvNsec) / 1000000000

/-- The seconds on the way to the sum are all values of `time_t`. -/
structure SumFits (time add : Timespec) : Prop where
  seconds : -2 ^ 63 ≤ time.tvSec + add.tvSec
  sum : time.tvSec + add.tvSec + carry time add < 2 ^ 63
  returned : add.tvSec + carry time add < 2 ^ 63

theorem timeT_of_fits {value : Int} (low : -2 ^ 63 ≤ value) (high : value < 2 ^ 63) :
    timeT value = some value := if_pos ⟨low, high⟩

theorem timeT_eq_some_iff {value result : Int} :
    timeT value = some result ↔ (-2 ^ 63 ≤ value ∧ value < 2 ^ 63) ∧ value = result := by
  unfold timeT
  split
  next fits => rw [Option.some.injEq, and_iff_right fits]
  next beyond => exact iff_of_false nofun fun both => beyond both.1

private theorem carryNanoseconds_of_lt {tvSec tvNsec seconds : Int} (less : tvNsec < 1000000000) :
    carryNanoseconds ⟨tvSec, tvNsec⟩ seconds = some (⟨tvSec, tvNsec⟩, seconds) := by
  unfold carryNanoseconds
  exact if_neg (Int.not_le.mpr less)

theorem sums_iff (normal : time.Normalised) (normalAdd : add.Normalised) :
    Sums time add ↔ SumFits time add := by
  obtain ⟨seconds, low, high⟩ := normal
  obtain ⟨secondsAdd, lowAdd, highAdd⟩ := normalAdd
  unfold Sums timespecAddTo
  rcases lt_or_ge (time.tvNsec + add.tvNsec) 1000000000 with less | more
  · have none : carry time add = 0 := by
      unfold carry
      omega
    constructor
    · rintro ⟨sum, adds, -, -⟩
      obtain ⟨tvSec, fits, -⟩ := Option.bind_eq_some_iff.mp adds
      have range := (timeT_eq_some_iff.mp fits).1
      exact ⟨range.1, by omega, by omega⟩
    · intro fits
      have upper := fits.sum
      refine ⟨⟨time.tvSec + add.tvSec, time.tvNsec + add.tvNsec⟩, ?_,
        ⟨⟨fits.seconds, by dsimp only; omega⟩, by dsimp only; omega⟩, ?_⟩
      · rw [timeT_of_fits fits.seconds (by omega), Option.bind_some, carryNanoseconds_of_lt less]
        dsimp only
        rw [add_sub_cancel_left]
      · unfold Timespec.nanoseconds
        dsimp only
        omega
  · have one : carry time add = 1 := by
      unfold carry
      omega
    have less : time.tvNsec + add.tvNsec - 1000000000 < 1000000000 := by omega
    have step : ∀ tvSec, carryNanoseconds ⟨tvSec, time.tvNsec + add.tvNsec⟩ add.tvSec =
        (timeT (tvSec + 1)).bind fun tvSec => (timeT (add.tvSec + 1)).bind fun seconds =>
          some (⟨tvSec, time.tvNsec + add.tvNsec - 1000000000⟩, seconds) := by
      intro tvSec
      rw [carryNanoseconds, if_pos more]
      simp only [carryNanoseconds_of_lt less]
    simp only [step]
    constructor
    · rintro ⟨sum, adds, -, -⟩
      obtain ⟨tvSec, fits, carried⟩ := Option.bind_eq_some_iff.mp adds
      obtain ⟨next, fitsNext, returned⟩ := Option.bind_eq_some_iff.mp carried
      obtain ⟨more, fitsMore, -⟩ := Option.bind_eq_some_iff.mp returned
      obtain ⟨range, rfl⟩ := timeT_eq_some_iff.mp fits
      have rangeNext := (timeT_eq_some_iff.mp fitsNext).1
      have rangeMore := (timeT_eq_some_iff.mp fitsMore).1
      exact ⟨range.1, by omega, by omega⟩
    · intro fits
      have lower := fits.seconds
      have upper := fits.sum
      have returned := fits.returned
      refine ⟨⟨time.tvSec + add.tvSec + 1, time.tvNsec + add.tvNsec - 1000000000⟩, ?_,
        ⟨by dsimp only; omega, by dsimp only; omega⟩, ?_⟩
      · rw [timeT_of_fits lower (by omega), Option.bind_some,
          timeT_of_fits (by omega) (by omega), Option.bind_some,
          timeT_of_fits (by omega) (by omega), Option.bind_some]
        dsimp only
        rw [Int.add_assoc, add_sub_cancel_left]
      · unfold Timespec.nanoseconds
        dsimp only
        omega

/-- The difference is exact and normalised, and gives the end back when it is added. -/
def Differs (start last : Timespec) : Prop :=
  ∃ difference, timespecSubtract start last = some difference ∧ difference.Normalised ∧
    difference.nanoseconds = last.nanoseconds - start.nanoseconds ∧
    ∃ seconds, timespecAddTo start difference = some (last, seconds)

theorem nanoseconds_injective (normal : time.Normalised) (normalAdd : add.Normalised)
    (same : time.nanoseconds = add.nanoseconds) : time = add := by
  obtain ⟨tvSec, tvNsec⟩ := time
  obtain ⟨tvSecAdd, tvNsecAdd⟩ := add
  have bounds := normal.nanoseconds
  have boundsAdd := normalAdd.nanoseconds
  unfold Timespec.nanoseconds at same
  dsimp only at same bounds boundsAdd
  rw [mk.injEq]
  omega

theorem timespecSubtract_eq (normal : start.Normalised) (normalLast : last.Normalised)
    (ordered : start.nanoseconds ≤ last.nanoseconds) (fits : last.tvSec - start.tvSec < 2 ^ 63) :
    ∃ difference, timespecSubtract start last = some difference ∧ difference.Normalised ∧
      difference.nanoseconds = last.nanoseconds - start.nanoseconds := by
  have bounds := normal.nanoseconds
  have boundsLast := normalLast.nanoseconds
  unfold Timespec.nanoseconds at ordered ⊢
  unfold timespecSubtract
  split
  next borrows =>
    rw [timeT_of_fits (by omega) fits, Option.bind_some, timeT_of_fits (by omega) (by omega)]
    refine ⟨_, rfl, ⟨?_, ?_⟩, ?_⟩ <;> dsimp only <;> omega
  next =>
    rw [timeT_of_fits (by omega) fits]
    refine ⟨_, rfl, ⟨?_, ?_⟩, ?_⟩ <;> dsimp only <;> omega

theorem differs_iff (normal : start.Normalised) (normalLast : last.Normalised)
    (ordered : start.nanoseconds ≤ last.nanoseconds) :
    Differs start last ↔ last.tvSec - start.tvSec < 2 ^ 63 := by
  constructor
  · rintro ⟨difference, subtracts, -⟩
    unfold timespecSubtract at subtracts
    split at subtracts
    · obtain ⟨seconds, fits, -⟩ := Option.bind_eq_some_iff.mp subtracts
      exact (timeT_eq_some_iff.mp fits).1.2
    · obtain ⟨seconds, fits, -⟩ := Option.map_eq_some_iff.mp subtracts
      exact (timeT_eq_some_iff.mp fits).1.2
  · intro fits
    obtain ⟨difference, subtracts, normalDifference, exactly⟩ :=
      timespecSubtract_eq normal normalLast ordered fits
    have range := normalLast.seconds
    have rangeStart := normal.seconds
    have bounds := normal.nanoseconds
    have boundsLast := normalLast.nanoseconds
    have boundsDifference := normalDifference.nanoseconds
    have sumFits : SumFits start difference := by
      unfold Timespec.nanoseconds at exactly ordered
      refine ⟨by omega, ?_, ?_⟩
      · unfold carry
        omega
      · unfold carry
        omega
    obtain ⟨sum, adds, normalSum, total⟩ := (sums_iff normal normalDifference).mpr sumFits
    have back : sum = last := nanoseconds_injective normalSum normalLast (by omega)
    exact ⟨difference, subtracts, normalDifference, exactly, _, back ▸ adds⟩

/-- The percentage, rounded down, and its thousandths, rounded down. -/
def Divides (lhs rhs : Timespec) : Prop :=
  ((timespecDivide lhs rhs).1 : Int) = (100 * lhs.nanoseconds).fdiv rhs.nanoseconds ∧
    ((timespecDivide lhs rhs).2 : Int) = (100000 * lhs.nanoseconds).fdiv rhs.nanoseconds -
      1000 * (100 * lhs.nanoseconds).fdiv rhs.nanoseconds

theorem fdiv_thousandths (left right : Int) :
    (100 * left).fdiv right = (100000 * left).fdiv right / 1000 := by
  have positive : ∀ left right : Int, 0 ≤ right →
      (100 * left).fdiv right = (100000 * left).fdiv right / 1000 := by
    intro left right nonneg
    have scaled : 100000 * left = 1000 * (100 * left) := by omega
    rw [← Int.fdiv_eq_ediv_of_nonneg _ (by decide : (0 : Int) ≤ 1000),
      Int.fdiv_fdiv_eq_fdiv_mul _ nonneg (by decide), scaled, Int.mul_comm right,
      Int.mul_fdiv_mul_of_pos _ _ (by decide)]
  rcases Int.le_total 0 right with nonneg | nonpos
  · exact positive left right nonneg
  · have negated := positive (-left) (-right) (Int.neg_nonneg_of_nonpos nonpos)
    rw [Int.mul_neg, Int.mul_neg, Int.neg_fdiv_neg, Int.neg_fdiv_neg] at negated
    exact negated

theorem uint64_cast (value : Int) : (uint64 value : Int) = value % 2 ^ 64 :=
  Int.toNat_of_nonneg (Int.emod_nonneg _ (by decide))

theorem uint64_mul (factor : Nat) (value : Int) :
    uint64 value * factor % 2 ^ 64 = uint64 (factor * value) := by
  have modulus : ((2 ^ 64 : Nat) : Int) = 2 ^ 64 := rfl
  refine Int.natCast_inj.mp ?_
  rw [Int.natCast_emod, Int.natCast_mul, uint64_cast, uint64_cast, modulus, Int.mul_emod,
    Int.emod_emod, ← Int.mul_emod, Int.mul_comm]

theorem uint64_nanoseconds (time : Timespec) :
    uint64 (uint64 (time.tvSec * 1000000000) + time.tvNsec) = uint64 time.nanoseconds := by
  refine Int.natCast_inj.mp ?_
  rw [uint64_cast, uint64_cast, uint64_cast, Int.emod_add_emod]
  rfl

theorem timespecDivide_eq (lhs rhs : Timespec) :
    timespecDivide lhs rhs =
      (uint64 (100000 * lhs.nanoseconds) / uint64 rhs.nanoseconds / 1000 % 2 ^ 32,
        uint64 (100000 * lhs.nanoseconds) / uint64 rhs.nanoseconds % 1000) := by
  unfold timespecDivide
  dsimp only
  rw [uint64_nanoseconds, uint64_nanoseconds, uint64_mul 100000]
  split
  next zero => rw [zero, Nat.div_zero, Nat.zero_div, Nat.zero_mod, Nat.zero_mod]
  next => rfl

theorem wrapped_div_eq_iff {dividend divisor : Nat} (positive : 0 < divisor)
    (less : divisor < 2 ^ 64) (fits : dividend / divisor < 1000 * 2 ^ 32) :
    dividend % 2 ^ 64 / divisor % (1000 * 2 ^ 32) = dividend / divisor ↔ dividend < 2 ^ 64 := by
  constructor
  · intro same
    refine Nat.lt_of_not_le fun wraps => ?_
    have below : dividend % 2 ^ 64 + divisor ≤ dividend := by omega
    have smaller := Nat.div_le_div_right (c := divisor) below
    rw [Nat.add_div_right _ positive] at smaller
    have cut := Nat.mod_le (dividend % 2 ^ 64 / divisor) (1000 * 2 ^ 32)
    omega
  · intro short
    rw [Nat.mod_eq_of_lt short, Nat.mod_eq_of_lt fits]

theorem uint64_div_eq_iff {dividend divisor : Nat} (positive : 0 < divisor)
    (less : divisor < 2 ^ 64) (fits : (dividend : Int) / divisor / 1000 < 2 ^ 32) :
    ((uint64 dividend / uint64 divisor % (1000 * 2 ^ 32) : Nat) : Int) =
      (dividend : Int) / divisor ↔ (dividend : Int) < 2 ^ 64 := by
  have cut : uint64 dividend = dividend % 2 ^ 64 := by
    unfold uint64
    omega
  rw [← Int.natCast_ediv] at fits ⊢
  rw [cut, uint64_of_lt less, Int.natCast_inj, wrapped_div_eq_iff positive less (by omega)]
  omega

theorem divides_iff (fits : 0 ≤ (100 * lhs.nanoseconds).fdiv rhs.nanoseconds ∧
    (100 * lhs.nanoseconds).fdiv rhs.nanoseconds < 2 ^ 32) (positive : 0 < rhs.nanoseconds)
    (less : rhs.nanoseconds < 2 ^ 64) :
    Divides lhs rhs ↔ 100000 * lhs.nanoseconds < 2 ^ 64 := by
  unfold Divides
  rw [timespecDivide_eq]
  rw [fdiv_thousandths] at fits ⊢
  generalize lhs.nanoseconds = left at fits ⊢
  generalize rhs.nanoseconds = right at fits positive less ⊢
  have digits : ∀ answer : Nat, ((answer / 1000 % 2 ^ 32 : Nat) : Int) =
      (100000 * left).fdiv right / 1000 ∧ ((answer % 1000 : Nat) : Int) =
        (100000 * left).fdiv right - 1000 * ((100000 * left).fdiv right / 1000) ↔
      ((answer % (1000 * 2 ^ 32) : Nat) : Int) = (100000 * left).fdiv right := by
    intro answer
    generalize (100000 * left).fdiv right = quotient at fits
    omega
  rw [digits]
  rw [Int.fdiv_eq_ediv_of_nonneg _ positive.le] at fits ⊢
  have nonneg : 0 ≤ 100000 * left := by
    refine Int.not_lt.mp fun negative => ?_
    have below := Int.ediv_neg_of_neg_of_pos negative positive
    omega
  obtain ⟨dividend, isDividend⟩ := Int.eq_ofNat_of_zero_le nonneg
  obtain ⟨divisor, rfl⟩ := Int.eq_ofNat_of_zero_le positive.le
  rw [isDividend] at fits ⊢
  exact uint64_div_eq_iff (by omega) (by omega) fits.2

/-- Sums and differences are right exactly when they fit into their type, and a division by 1 to
`2 ^ 64 - 1` nanoseconds when the dividend in thousandths of a percent has 64 bits. -/
theorem arithmetic_iff (normal : time.Normalised) (normalAdd : add.Normalised)
    (normalStart : start.Normalised) (normalLast : last.Normalised)
    (ordered : start.nanoseconds ≤ last.nanoseconds)
    (fits : 0 ≤ (100 * lhs.nanoseconds).fdiv rhs.nanoseconds ∧
      (100 * lhs.nanoseconds).fdiv rhs.nanoseconds < 2 ^ 32) :
    (Sums time add ↔ SumFits time add) ∧
      (Differs start last ↔ last.tvSec - start.tvSec < 2 ^ 63) ∧
      (0 < rhs.nanoseconds → rhs.nanoseconds < 2 ^ 64 →
        (Divides lhs rhs ↔ 100000 * lhs.nanoseconds < 2 ^ 64)) :=
  ⟨sums_iff normal normalAdd, differs_iff normalStart normalLast ordered, divides_iff fits⟩

theorem halfOfFiveSeconds_arithmetic :
    Sums ⟨2, 500000000⟩ ⟨-1, 500000000⟩ ∧ Differs ⟨2, 500000000⟩ ⟨5, 0⟩ ∧
      Divides ⟨2, 500000000⟩ ⟨5, 0⟩ := by
  obtain ⟨sums, differs, divides⟩ := @arithmetic_iff ⟨2, 500000000⟩ ⟨-1, 500000000⟩
    ⟨2, 500000000⟩ ⟨5, 0⟩ ⟨2, 500000000⟩ ⟨5, 0⟩ ⟨by decide, by decide⟩ ⟨by decide, by decide⟩
    ⟨by decide, by decide⟩ ⟨by decide, by decide⟩ (by decide) (by decide)
  exact ⟨sums.mpr ⟨by decide, by decide, by decide⟩, differs.mpr (by decide),
    (divides (by decide) (by decide)).mpr (by decide)⟩

/-- An interval of more than two days is not the whole of itself. -/
theorem longInterval_notWhole :
    ¬ ∀ lhs rhs : Timespec, lhs.Normalised → rhs.Normalised → rhs.nanoseconds ≠ 0 →
      0 ≤ (100 * lhs.nanoseconds).fdiv rhs.nanoseconds ∧
        (100 * lhs.nanoseconds).fdiv rhs.nanoseconds < 2 ^ 32 → Divides lhs rhs := by
  intro claimed
  have whole := claimed ⟨184468, 0⟩ ⟨184468, 0⟩ ⟨by decide, by decide⟩ ⟨by decide, by decide⟩
    (by decide) (by decide)
  have percentage : (timespecDivide ⟨184468, 0⟩ ⟨184468, 0⟩).1 = 0 := by decide
  have expected : (100 * (⟨184468, 0⟩ : Timespec).nanoseconds).fdiv
      (⟨184468, 0⟩ : Timespec).nanoseconds = 100 := by decide
  rw [Divides, percentage, expected] at whole
  exact absurd whole.1 (by decide)

end Timespec

end RTContainer.Score
