import Mathlib.Order.Monotone.Basic

/-! The Gregorian calendar. Years and months of different lengths follow each other, and a day is
counted from the start of its year, which is counted from an epoch. -/

set_option autoImplicit false

namespace Calendar

/-- Every span starts where the one before it ends. -/
def Follow (start length : Nat → Nat) : Prop := ∀ span, start (span + 1) = start span + length span

variable {start length : Nat → Nat}

theorem Follow.monotone (follow : Follow start length) : Monotone start :=
  monotone_nat_of_le_succ fun span => (Nat.le_add_right ..).trans_eq (follow span).symm

theorem Follow.le_of_lt (follow : Follow start length) {span other offset otherOffset : Nat}
    (same : start span + offset = start other + otherOffset) (within : offset < length span) :
    other ≤ span := by
  refine Nat.le_of_not_lt fun later => ?_
  have after : start (span + 1) ≤ start other := follow.monotone later
  rw [follow span] at after
  omega

/-- An offset in consecutive spans names one span only. -/
theorem Follow.unique (follow : Follow start length) {span other offset otherOffset : Nat}
    (same : start span + offset = start other + otherOffset) (within : offset < length span)
    (withinOther : otherOffset < length other) : span = other ∧ offset = otherOffset := by
  have spans : span = other :=
    Nat.le_antisymm (follow.le_of_lt same.symm withinOther) (follow.le_of_lt same within)
  subst spans
  exact ⟨rfl, Nat.add_left_cancel same⟩

variable (year : Nat)

def IsLeap : Prop := year % 4 = 0 ∧ (year % 100 ≠ 0 ∨ year % 400 = 0)

instance (year : Nat) : Decidable (IsLeap year) :=
  inferInstanceAs (Decidable (year % 4 = 0 ∧ (year % 100 ≠ 0 ∨ year % 400 = 0)))

def daysInYear : Nat := if IsLeap year then 366 else 365

def daysInYears (epoch : Nat) : Nat → Nat
  | 0 => 0
  | years + 1 => daysInYears epoch years + daysInYear (epoch + years)

theorem daysInYears_follow (epoch : Nat) :
    Follow (daysInYears epoch) fun years => daysInYear (epoch + years) := fun _ => rfl

def leapYears : Nat := year / 4 - year / 100 + year / 400

theorem daysInYear_eq : daysInYear (year + 1) + leapYears year = 365 + leapYears (year + 1) := by
  unfold daysInYear
  split
  next leap =>
    obtain ⟨four, century⟩ := leap
    unfold leapYears
    omega
  next common =>
    unfold IsLeap at common
    unfold leapYears
    omega

theorem daysInYears_eq (epoch years : Nat) :
    daysInYears (epoch + 1) years + leapYears epoch = 365 * years + leapYears (epoch + years) := by
  induction years with
  | zero => rfl
  | succ years ih =>
    have year := daysInYear_eq (epoch + years)
    have next : daysInYears (epoch + 1) (years + 1) =
        daysInYears (epoch + 1) years + daysInYear (epoch + years + 1) := by
      rw [Nat.add_right_comm epoch years 1]
      rfl
    rw [next, ← Nat.add_assoc epoch years 1]
    omega

def daysInMonth : Nat → Nat
  | 2 => if IsLeap year then 29 else 28
  | 4 | 6 | 9 | 11 => 30
  | 1 | 3 | 5 | 7 | 8 | 10 | 12 => 31
  | _ => 0

def daysBeforeMonth (year : Nat) : Nat → Nat
  | 0 => 0
  | month + 1 => daysBeforeMonth year month + daysInMonth year month

private theorem daysBeforeMonth_follow : Follow (daysBeforeMonth year) (daysInMonth year) :=
  fun _ => rfl

theorem daysBeforeMonth_end : daysBeforeMonth year 13 = daysInYear year := by
  unfold daysInYear
  simp only [daysBeforeMonth, daysInMonth]
  split <;> rfl

structure Date where
  year : Nat
  month : Nat
  day : Nat
  deriving DecidableEq

structure Date.IsValid (date : Date) : Prop where
  month : 1 ≤ date.month ∧ date.month ≤ 12
  day : 1 ≤ date.day ∧ date.day ≤ daysInMonth date.year date.month

def Date.dayOfYear (date : Date) : Nat := daysBeforeMonth date.year date.month + (date.day - 1)

/-- The days from the start of an epoch. -/
def Date.dayNumber (epoch : Nat) (date : Date) : Nat :=
  daysInYears epoch (date.year - epoch) + date.dayOfYear

variable {date other : Date}

theorem Date.IsValid.dayOfYear_lt (valid : date.IsValid) :
    date.dayOfYear < daysInYear date.year := by
  have ends : daysBeforeMonth date.year (date.month + 1) ≤ daysBeforeMonth date.year 13 :=
    (daysBeforeMonth_follow date.year).monotone (Nat.succ_le_succ valid.month.2)
  rw [daysBeforeMonth_end] at ends
  have last := valid.day
  have next : daysBeforeMonth date.year (date.month + 1) =
      daysBeforeMonth date.year date.month + daysInMonth date.year date.month := rfl
  unfold dayOfYear
  omega

/-- Two valid dates do not share a day number. -/
theorem Date.dayNumber_inj {epoch : Nat} (valid : date.IsValid) (validOther : other.IsValid)
    (after : epoch ≤ date.year) (afterOther : epoch ≤ other.year)
    (same : date.dayNumber epoch = other.dayNumber epoch) : date = other := by
  have within : date.dayOfYear < daysInYear (epoch + (date.year - epoch)) := by
    rw [Nat.add_sub_of_le after]
    exact valid.dayOfYear_lt
  have withinOther : other.dayOfYear < daysInYear (epoch + (other.year - epoch)) := by
    rw [Nat.add_sub_of_le afterOther]
    exact validOther.dayOfYear_lt
  obtain ⟨years, days⟩ := (daysInYears_follow epoch).unique same within withinOther
  obtain ⟨year, month, day⟩ := date
  obtain ⟨otherYear, otherMonth, otherDay⟩ := other
  have sameYear : year = otherYear := by
    dsimp only at years after afterOther
    omega
  subst sameYear
  have dayWithin := valid.day
  have dayWithinOther := validOther.day
  dsimp only at dayWithin dayWithinOther
  obtain ⟨sameMonth, sameDay⟩ := (daysBeforeMonth_follow year).unique days
    (by dsimp only; omega) (by dsimp only; omega)
  dsimp only at sameMonth sameDay
  subst sameMonth
  have : day = otherDay := by omega
  rw [this]

end Calendar
