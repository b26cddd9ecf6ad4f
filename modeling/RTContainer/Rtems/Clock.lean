import Mathlib.Tactic.IntervalCases
import RTContainer.Lib.Calendar
import RTContainer.Rtems.Status
import RTContainer.Score.Timespec

/-! The time of day of the clock manager, in both directions. The members of a time of day and all
numbers on the way are `uint32_t`. -/

set_option autoImplicit false

namespace RTContainer.Rtems

open Score

structure TimeOfDay where
  year : Nat
  month : Nat
  day : Nat
  hour : Nat
  minute : Nat
  second : Nat
  ticks : Nat
  deriving DecidableEq

def todDaysToDate : List (List Nat) :=
  [[0, 0, 31, 60, 91, 121, 152, 182, 213, 244, 274, 305, 335],
    [0, 0, 31, 59, 90, 120, 151, 181, 212, 243, 273, 304, 334]]

def todDaysSinceLastLeapYear : List Nat := [0, 366, 731, 1096]

def todDaysPerMonth : List (List Nat) :=
  [[0, 31, 29, 31, 30, 31, 30, 31, 31, 30, 31, 30, 31],
    [0, 31, 28, 31, 30, 31, 30, 31, 31, 30, 31, 30, 31]]

def inTable (table : List (List Nat)) (leapYearIndex month : Nat) : Nat :=
  (table.getD leapYearIndex []).getD month 0

def todBaseYear : Nat := 1988

def todLatestYear : Nat := 2099

def todSeconds1970Through1988 : Nat := (1987 - 1970 + 1) * (365 * 86400) + 4 * 86400

def todGetLeapYearIndex (year : Nat) : Nat := (year % 4 + 3) / 4

def todToSeconds (tod : TimeOfDay) : Nat :=
  let time := (tod.day + 2 ^ 32 - 1) % 2 ^ 32
  let leapYearIndex := todGetLeapYearIndex tod.year
  let time := (time + inTable todDaysToDate leapYearIndex tod.month) % 2 ^ 32
  let years := (tod.year + 2 ^ 32 - todBaseYear) % 2 ^ 32
  let time := (time + years / 4 * (365 * 4 + 1)) % 2 ^ 32
  let time := (time + todDaysSinceLastLeapYear.getD (tod.year % 4) 0) % 2 ^ 32
  let time := time * 86400 % 2 ^ 32
  let time := (time + (tod.hour * 60 + tod.minute) * 60 % 2 ^ 32) % 2 ^ 32
  let time := (time + tod.second) % 2 ^ 32
  (time + todSeconds1970Through1988) % 2 ^ 32

/-- `TOD_Ticks_validation`. -/
inductive TodTicksValidation where
  | disable
  | enable
  deriving DecidableEq

/-- `(uint32_t)` of the validation. -/
def TodTicksValidation.mask : TodTicksValidation → Nat
  | .disable => 0
  | .enable => 2 ^ 32 - 1

def todValidate (tick : ClockTick) (theTod : Option TimeOfDay)
    (ticksValidation : TodTicksValidation) : StatusCode :=
  match theTod with
  | none => .invalidAddress
  | some tod =>
    if tick.ticksPerSecond ≤ tod.ticks &&& ticksValidation.mask then .invalidClock
    else if 60 ≤ tod.second then .invalidClock
    else if 60 ≤ tod.minute then .invalidClock
    else if 24 ≤ tod.hour then .invalidClock
    else if tod.month = 0 ∨ 12 < tod.month then .invalidClock
    else if tod.year < todBaseYear ∨ todLatestYear < tod.year then .invalidClock
    else if tod.day = 0 then .invalidClock
    else if inTable todDaysPerMonth (todGetLeapYearIndex tod.year) tod.month < tod.day then
      .invalidClock
    else .successful

def leapYear (year : Nat) : Bool :=
  (year % 4 = 0 && year % 100 ≠ 0) || year % 400 = 0

def leapYearsBefore (year : Nat) : Nat :=
  let year := (year + 2 ^ 32 - 1) % 2 ^ 32
  (year / 4 + 2 ^ 32 - year / 100 + year / 400) % 2 ^ 32

def leapYearsBetween (start stop : Nat) : Nat :=
  (leapYearsBefore stop + 2 ^ 32 - leapYearsBefore ((start + 1) % 2 ^ 32)) % 2 ^ 32

def monthOfDay (daysToDate : List Nat) (day month : Nat) : Nat :=
  if month < 11 then
    if day < daysToDate.getD (month + 2) 0 then month
    else monthOfDay daysToDate day (month + 1)
  else month
  termination_by 11 - month

def yearDayAsMonth (year day : Nat) : Nat × Nat :=
  let daysToDate := todDaysToDate.getD (if leapYear year then 0 else 1) []
  let month := monthOfDay daysToDate day 0
  (month, (day + 2 ^ 32 - daysToDate.getD (month + 1) 0) % 2 ^ 32)

/-- The year and the day of the year that `rtems_clock_get_tod` computes. -/
def yearAndDay (days : Nat) : Nat × Nat :=
  let year := (days / 365 + 1970) % 2 ^ 32
  let leapYears := leapYearsBetween 1970 year
  let yearDays := (days + 2 ^ 32 - leapYears) % 2 ^ 32 % 365
  if days % 365 < leapYears then
    (year - 1, if leapYear (year - 1) then yearDays + 1 else yearDays)
  else (year, yearDays)

structure Timeval where
  tvSec : Nat
  tvUsec : Nat

/-- The members that `rtems_clock_get_tod` sets, from the year and the day of the year. -/
def timeOfDay (tick : ClockTick) (now : Timeval) (year yearDays : Nat) : TimeOfDay :=
  let date := yearDayAsMonth year yearDays
  let daySecs := now.tvSec % 86400
  let minute := daySecs % 3600
  { year := year
    month := date.1 + 1
    day := date.2 + 1
    hour := daySecs / 3600
    minute := minute / 60
    second := minute % 60
    ticks := now.tvUsec / tick.microseconds }

def clockGetTod (tick : ClockTick) (given isSet : Bool) (now : Timeval) :
    Except StatusCode TimeOfDay :=
  if !given then .error .invalidAddress
  else if !isSet then .error .notDefined
  else
    let (year, yearDays) := yearAndDay (now.tvSec / 86400 % 2 ^ 32)
    .ok (timeOfDay tick now year yearDays)

end RTContainer.Rtems

/-! The time of day is that of the Gregorian calendar, in both directions. -/

namespace RTContainer.Rtems

open Score Calendar

def TimeOfDay.date (tod : TimeOfDay) : Date := ⟨tod.year, tod.month, tod.day⟩

/-- The seconds of the Gregorian calendar since 1970. -/
def TimeOfDay.seconds (tod : TimeOfDay) : Nat :=
  tod.date.dayNumber 1970 * 86400 + tod.hour * 3600 + tod.minute * 60 + tod.second

/-- A time of day in the years that the clock manager supports. -/
structure TimeOfDay.IsValid (tod : TimeOfDay) : Prop where
  date : tod.date.IsValid
  year : todBaseYear ≤ tod.year ∧ tod.year ≤ todLatestYear
  hour : tod.hour < 24
  minute : tod.minute < 60
  second : tod.second < 60

def leapIndex (year : Nat) : Nat := if IsLeap year then 0 else 1

variable {month year day : Nat} {tod : TimeOfDay} {now : Timeval}

theorem inTable_daysPerMonth (year : Nat) (first : 1 ≤ month) (last : month ≤ 12) :
    inTable todDaysPerMonth (leapIndex year) month = daysInMonth year month := by
  unfold leapIndex
  by_cases leap : IsLeap year
  · rw [if_pos leap]
    interval_cases month <;> simp [inTable, todDaysPerMonth, daysInMonth, leap]
  · rw [if_neg leap]
    interval_cases month <;> simp [inTable, todDaysPerMonth, daysInMonth, leap]

theorem inTable_daysToDate (year : Nat) (first : 1 ≤ month) (last : month ≤ 12) :
    inTable todDaysToDate (leapIndex year) month = daysBeforeMonth year month := by
  unfold leapIndex
  by_cases leap : IsLeap year
  · rw [if_pos leap]
    interval_cases month <;> simp [inTable, todDaysToDate, daysBeforeMonth, daysInMonth, leap]
  · rw [if_neg leap]
    interval_cases month <;> simp [inTable, todDaysToDate, daysBeforeMonth, daysInMonth, leap]

theorem todGetLeapYearIndex_eq (first : todBaseYear ≤ year) (last : year ≤ todLatestYear) :
    todGetLeapYearIndex year = leapIndex year := by
  unfold todBaseYear at first
  unfold todLatestYear at last
  unfold todGetLeapYearIndex leapIndex
  split
  next leap =>
    have four := leap.1
    omega
  next common =>
    unfold IsLeap at common
    omega

/-- `_TOD_Validate` accepts exactly the valid dates and times. -/
theorem todValidate_iff {tick : ClockTick} {validation : TodTicksValidation} :
    todValidate tick (some tod) validation = .successful ↔
      tod.ticks &&& validation.mask < tick.ticksPerSecond ∧ tod.IsValid := by
  have table : 1 ≤ tod.month → tod.month ≤ 12 →
      inTable todDaysPerMonth (leapIndex tod.year) tod.month = daysInMonth tod.year tod.month :=
    fun first last => inTable_daysPerMonth tod.year first last
  constructor
  · intro accepts
    unfold todValidate at accepts
    dsimp only at accepts
    split at accepts
    · cases accepts
    next ticks =>
    split at accepts
    · cases accepts
    next second =>
    split at accepts
    · cases accepts
    next minute =>
    split at accepts
    · cases accepts
    next hour =>
    split at accepts
    · cases accepts
    next month =>
    split at accepts
    · cases accepts
    next year =>
    split at accepts
    · cases accepts
    next day =>
    split at accepts
    · cases accepts
    next last =>
    rw [todGetLeapYearIndex_eq (by omega) (by omega), table (by omega) (by omega)] at last
    refine ⟨by omega, ⟨⟨?_, ?_⟩, ?_⟩, ⟨by omega, by omega⟩, by omega, by omega, by omega⟩
    · show 1 ≤ tod.month
      omega
    · show tod.month ≤ 12
      omega
    · exact ⟨Nat.pos_of_ne_zero day, Nat.le_of_not_lt last⟩
  · rintro ⟨ticks, ⟨⟨first, last⟩, firstDay, lastDay⟩, ⟨base, latest⟩, hour, minute, second⟩
    dsimp only [TimeOfDay.date] at first last firstDay lastDay
    unfold todValidate
    dsimp only
    rw [if_neg (Nat.not_le_of_lt ticks), if_neg (Nat.not_le_of_lt second),
      if_neg (Nat.not_le_of_lt minute), if_neg (Nat.not_le_of_lt hour),
      todGetLeapYearIndex_eq base latest, table first last]
    have month : ¬ (tod.month = 0 ∨ 12 < tod.month) := by omega
    have year : ¬ (tod.year < todBaseYear ∨ todLatestYear < tod.year) := by omega
    rw [if_neg month, if_neg year, if_neg (Nat.ne_of_gt firstDay),
      if_neg (Nat.not_lt_of_le lastDay)]

theorem daysInYears_supported (first : todBaseYear ≤ year) (last : year ≤ todLatestYear) :
    daysInYears 1970 (year - 1970) =
      (year - todBaseYear) / 4 * 1461 + todDaysSinceLastLeapYear.getD (year % 4) 0 + 6574 := by
  have exactly : daysInYears 1970 (year - 1970) + leapYears 1969 =
      365 * (year - 1970) + leapYears (1969 + (year - 1970)) := daysInYears_eq 1969 _
  unfold todBaseYear at *
  unfold todLatestYear at last
  have before : 1969 + (year - 1970) = year - 1 := by omega
  have centuries : (year - 1) / 100 = (year - 1) / 400 + 15 := by
    rcases Nat.lt_or_ge (year - 1) 2000 with early | late <;> omega
  have leap : leapYears (year - 1) = (year - 1) / 4 - 15 := by
    unfold leapYears
    omega
  have start : leapYears 1969 = 477 := rfl
  rw [before, leap, start] at exactly
  have rest : year % 4 < 4 := Nat.mod_lt _ (by decide)
  have decomposed : year = 1988 + (year - 1988) / 4 * 4 + year % 4 := by omega
  generalize (year - 1988) / 4 = olympiads at *
  generalize year % 4 = index at *
  have shown : (year - 1) / 4 = 496 + olympiads + (index + 3) / 4 := by omega
  have since : todDaysSinceLastLeapYear.getD index 0 = index * 365 + (index + 3) / 4 := by
    interval_cases index <;> rfl
  rw [since]
  omega

theorem TimeOfDay.IsValid.toSeconds (valid : tod.IsValid) :
    todToSeconds tod = tod.seconds ∧ tod.seconds < 2 ^ 32 := by
  obtain ⟨first, last⟩ := valid.year
  obtain ⟨date, -, hour, minute, second⟩ := valid
  have years := daysInYears_supported first last
  have dayOfYear := date.dayOfYear_lt
  have inYear : daysInYear tod.year ≤ 366 := by
    unfold daysInYear
    split <;> decide
  have day := date.day
  have table : inTable todDaysToDate (leapIndex tod.year) tod.month =
      daysBeforeMonth tod.year tod.month :=
    inTable_daysToDate tod.year date.month.1 date.month.2
  unfold TimeOfDay.seconds Date.dayNumber todToSeconds
  unfold Date.dayOfYear at dayOfYear ⊢
  dsimp only [TimeOfDay.date] at dayOfYear day ⊢
  rw [todGetLeapYearIndex_eq first last, table, years]
  have base : todBaseYear = 1988 := rfl
  have latest : todLatestYear = 2099 := rfl
  have origin : todSeconds1970Through1988 = 6574 * 86400 := rfl
  rw [base] at first ⊢
  rw [latest] at last
  rw [origin]
  have since : todDaysSinceLastLeapYear.getD (tod.year % 4) 0 ≤ 1096 := by
    have rest : tod.year % 4 < 4 := Nat.mod_lt _ (by decide)
    generalize tod.year % 4 = index at rest
    interval_cases index <;> decide
  generalize todDaysSinceLastLeapYear.getD (tod.year % 4) 0 = days at since ⊢
  generalize daysBeforeMonth tod.year tod.month = months at dayOfYear ⊢
  have wraps : (tod.year + 2 ^ 32 - 1988) % 2 ^ 32 = tod.year - 1988 := by omega
  have olympiads : (tod.year - 1988) / 4 ≤ 27 := by omega
  rw [wraps]
  generalize (tod.year - 1988) / 4 = count at olympiads ⊢
  omega

private theorem leapYear_iff (year : Nat) : leapYear year ↔ IsLeap year := by
  unfold leapYear IsLeap
  rw [Bool.or_eq_true, Bool.and_eq_true, decide_eq_true_iff, decide_eq_true_iff,
    decide_eq_true_iff]
  omega

theorem monthOfDay_spec (daysToDate : List Nat) (day month : Nat) (early : month ≤ 11)
    (after : daysToDate.getD (month + 1) 0 ≤ day) :
    monthOfDay daysToDate day month ≤ 11 ∧
      daysToDate.getD (monthOfDay daysToDate day month + 1) 0 ≤ day ∧
      (monthOfDay daysToDate day month < 11 →
        day < daysToDate.getD (monthOfDay daysToDate day month + 2) 0) := by
  fun_induction monthOfDay daysToDate day month with
  | case1 month early before => exact ⟨by omega, after, fun _ => before⟩
  | case2 month early notBefore ih => exact ih (by omega) (Nat.le_of_not_lt notBefore)
  | case3 month late => exact ⟨early, after, fun less => absurd less late⟩

theorem yearDayAsMonth_spec (inYear : day < daysInYear year) :
    ∃ month dayOfMonth, yearDayAsMonth year day = (month, dayOfMonth) ∧ month ≤ 11 ∧
      daysBeforeMonth year (month + 1) + dayOfMonth = day ∧
      dayOfMonth < daysInMonth year (month + 1) := by
  have index : (if leapYear year then 0 else 1) = leapIndex year :=
    if_congr (leapYear_iff year) rfl rfl
  have small : daysInYear year ≤ 366 := by
    unfold daysInYear
    split <;> decide
  have table : ∀ month, 1 ≤ month → month ≤ 12 →
      (todDaysToDate.getD (leapIndex year) []).getD month 0 = daysBeforeMonth year month :=
    fun month first last => inTable_daysToDate year first last
  unfold yearDayAsMonth
  dsimp only
  rw [index]
  obtain ⟨early, after, before⟩ :=
    monthOfDay_spec (todDaysToDate.getD (leapIndex year) []) day 0 (by decide)
      ((table 1 (by decide) (by decide)).trans_le (Nat.zero_le day))
  generalize monthOfDay (todDaysToDate.getD (leapIndex year) []) day 0 = month at *
  rw [table (month + 1) (by omega) (by omega)] at after ⊢
  have next : daysBeforeMonth year (month + 2) =
      daysBeforeMonth year (month + 1) + daysInMonth year (month + 1) := rfl
  have within : day < daysBeforeMonth year (month + 2) := by
    rcases Nat.lt_or_ge month 11 with less | more
    · rw [← table (month + 2) (by omega) (by omega)]
      exact before less
    · have last : month = 11 := by omega
      rw [last, daysBeforeMonth_end]
      exact inYear
  have rest : (day + 2 ^ 32 - daysBeforeMonth year (month + 1)) % 2 ^ 32 =
      day - daysBeforeMonth year (month + 1) := by omega
  rw [rest]
  exact ⟨_, _, rfl, early, by omega, by omega⟩

theorem leapYearsBefore_eq (later : 1 ≤ year) (near : year < 2 ^ 32) :
    leapYearsBefore year = leapYears (year - 1) := by
  have before : (year + 2 ^ 32 - 1) % 2 ^ 32 = year - 1 := by omega
  unfold leapYearsBefore leapYears
  dsimp only
  rw [before]
  omega

theorem leapYearsBetween_eq (later : 1971 ≤ year) (near : year < 2 ^ 32) :
    leapYearsBetween 1970 year = leapYears (year - 1) - 477 := by
  have start : leapYearsBefore ((1970 + 1) % 2 ^ 32) = 477 := by decide
  have more : 477 ≤ leapYears (year - 1) := by
    unfold leapYears
    omega
  have less : leapYears (year - 1) < 2 ^ 32 := by
    unfold leapYears
    omega
  unfold leapYearsBetween
  rw [start, leapYearsBefore_eq (by omega) near]
  omega

def SupportedDays (days : Nat) : Prop := 6574 ≤ days ∧ days < 47482

/-- The loop over the years ends in the year of the day. -/
theorem yearAndDay_spec {days : Nat} (supported : SupportedDays days) :
    ∃ year day, yearAndDay days = (year, day) ∧ 1970 ≤ year ∧
      daysInYears 1970 (year - 1970) + day = days ∧ day < daysInYear year := by
  obtain ⟨first, last⟩ := supported
  have decomposed := Nat.div_add_mod days 365
  have rest : days % 365 < 365 := Nat.mod_lt _ (by decide)
  have near : (days / 365 + 1970) % 2 ^ 32 = days / 365 + 1970 := by omega
  have between : leapYearsBetween 1970 (days / 365 + 1970) =
      leapYears (days / 365 + 1969) - 477 := leapYearsBetween_eq (by omega) (by omega)
  have before : days / 365 + 1970 - 1 = days / 365 + 1969 := rfl
  have exactly : ∀ years, daysInYears 1970 years + leapYears 1969 =
      365 * years + leapYears (1969 + years) := fun years => daysInYears_eq 1969 years
  have start : leapYears 1969 = 477 := rfl
  have few : 477 ≤ leapYears (days / 365 + 1969) ∧ leapYears (days / 365 + 1969) < 477 + 365 := by
    unfold leapYears
    omega
  have wraps : (days + 2 ^ 32 - (leapYears (days / 365 + 1969) - 477)) % 2 ^ 32 =
      days - (leapYears (days / 365 + 1969) - 477) := by omega
  unfold yearAndDay
  dsimp only
  rw [near, between, before, wraps]
  split
  next early =>
    have lastYear : daysInYear (days / 365 + 1969) + leapYears (days / 365 + 1968) =
        365 + leapYears (days / 365 + 1969) := daysInYear_eq _
    have total := exactly (days / 365 - 1)
    have sameYear : 1969 + (days / 365 - 1) = days / 365 + 1968 := by omega
    rw [sameYear, start] at total
    have years : days / 365 + 1969 - 1970 = days / 365 - 1 := by omega
    have inYear : (days - (leapYears (days / 365 + 1969) - 477)) % 365 =
        365 + days % 365 - (leapYears (days / 365 + 1969) - 477) := by omega
    have leap : (if leapYear (days / 365 + 1969) then
        (days - (leapYears (days / 365 + 1969) - 477)) % 365 + 1 else
        (days - (leapYears (days / 365 + 1969) - 477)) % 365) + 365 =
          (days - (leapYears (days / 365 + 1969) - 477)) % 365 +
            daysInYear (days / 365 + 1969) := by
      unfold daysInYear
      simp only [leapYear_iff]
      split <;> omega
    refine ⟨_, _, rfl, by omega, ?_, by omega⟩
    rw [years]
    omega
  next late =>
    have total := exactly (days / 365)
    rw [Nat.add_comm 1969, start] at total
    have years : days / 365 + 1970 - 1970 = days / 365 := by omega
    have inYear : (days - (leapYears (days / 365 + 1969) - 477)) % 365 =
        days % 365 - (leapYears (days / 365 + 1969) - 477) := by omega
    have common : 365 ≤ daysInYear (days / 365 + 1970) := by
      unfold daysInYear
      split <;> decide
    refine ⟨_, _, rfl, by omega, ?_, by omega⟩
    rw [years]
    omega

theorem daysInYears_base : daysInYears 1970 18 = 6574 := by decide

theorem daysInYears_latest : daysInYears 1970 130 = 47482 := by
  have exactly : ∀ years, daysInYears 1970 years + leapYears 1969 =
      365 * years + leapYears (1969 + years) := fun years => daysInYears_eq 1969 years
  have total := exactly 130
  have start : leapYears 1969 = 477 := rfl
  have stop : leapYears (1969 + 130) = 509 := rfl
  omega

theorem supported_year {days : Nat} (supported : SupportedDays days) (later : 1970 ≤ year)
    (number : daysInYears 1970 (year - 1970) + day = days) (within : day < daysInYear year) :
    todBaseYear ≤ year ∧ year ≤ todLatestYear := by
  have start := daysInYears_base
  have stop := daysInYears_latest
  have follow := daysInYears_follow 1970
  have same : daysInYear (1970 + (year - 1970)) = daysInYear year :=
    congrArg daysInYear (Nat.add_sub_of_le later)
  constructor
  · refine Nat.le_of_not_lt fun early => ?_
    unfold todBaseYear at early
    have ends : daysInYears 1970 (year - 1970 + 1) ≤ daysInYears 1970 18 :=
      follow.monotone (by omega)
    rw [follow] at ends
    dsimp only at ends
    rw [same] at ends
    have first := supported.1
    omega
  · refine Nat.le_of_not_lt fun late => ?_
    unfold todLatestYear at late
    have starts : daysInYears 1970 130 ≤ daysInYears 1970 (year - 1970) :=
      follow.monotone (by omega)
    have last := supported.2
    omega

variable {tick : ClockTick}

theorem timeOfDay_eq {dayOfMonth : Nat} (isMonth : yearDayAsMonth year day = (month, dayOfMonth)) :
    timeOfDay tick now year day =
      { year := year
        month := month + 1
        day := dayOfMonth + 1
        hour := now.tvSec % 86400 / 3600
        minute := now.tvSec % 86400 % 3600 / 60
        second := now.tvSec % 86400 % 3600 % 60
        ticks := now.tvUsec / tick.microseconds } := by
  unfold timeOfDay
  rw [isMonth]

theorem clockGetTod_eq (near : now.tvSec / 86400 < 2 ^ 32)
    (isYear : yearAndDay (now.tvSec / 86400) = (year, day)) :
    clockGetTod tick true true now = .ok (timeOfDay tick now year day) := by
  unfold clockGetTod
  rw [Nat.mod_eq_of_lt near, isYear]
  rfl

theorem clockGetTod_seconds {now : Timeval} (supported : SupportedDays (now.tvSec / 86400)) :
    ∃ tod, clockGetTod tick true true now = .ok tod ∧ tod.IsValid ∧ tod.seconds = now.tvSec ∧
      tod.ticks = now.tvUsec / tick.microseconds := by
  obtain ⟨year, day, isYear, later, number, within⟩ := yearAndDay_spec supported
  have inYears := supported_year supported later number within
  obtain ⟨month, dayOfMonth, isMonth, last, days, inMonth⟩ := yearDayAsMonth_spec within
  have near : now.tvSec / 86400 < 2 ^ 32 := by
    have last := supported.2
    omega
  rw [clockGetTod_eq near isYear, timeOfDay_eq isMonth]
  refine ⟨_, rfl, ⟨⟨⟨Nat.le_add_left .., Nat.succ_le_succ last⟩,
    Nat.le_add_left .., inMonth⟩, inYears, ?_, ?_, ?_⟩, ?_, rfl⟩
  · dsimp only
    omega
  · dsimp only
    omega
  · dsimp only
    omega
  · unfold TimeOfDay.seconds Date.dayNumber Date.dayOfYear TimeOfDay.date
    dsimp only
    rw [Nat.add_sub_cancel]
    omega

theorem TimeOfDay.IsValid.clock_eq {other : TimeOfDay} (valid : tod.IsValid)
    (validOther : other.IsValid) (same : tod.seconds = other.seconds) :
    tod.date = other.date ∧ tod.hour = other.hour ∧ tod.minute = other.minute ∧
      tod.second = other.second := by
  obtain ⟨date, year, hour, minute, second⟩ := valid
  obtain ⟨dateOther, yearOther, hourOther, minuteOther, secondOther⟩ := validOther
  unfold seconds at same
  have base : todBaseYear = 1988 := rfl
  refine ⟨@Date.dayNumber_inj _ _ 1970 date dateOther ?_ ?_ ?_, ?_, ?_, ?_⟩
  · exact (by omega : 1970 ≤ tod.year)
  · exact (by omega : 1970 ≤ other.year)
  all_goals omega

/-- The seconds from the start of `TOD_BASE_YEAR` to the end of `TOD_LATEST_YEAR`. -/
def SupportedSeconds (seconds : Nat) : Prop :=
  Date.dayNumber 1970 ⟨todBaseYear, 1, 1⟩ * 86400 ≤ seconds ∧
    seconds < Date.dayNumber 1970 ⟨todLatestYear + 1, 1, 1⟩ * 86400

theorem newYear_dayNumber (year : Nat) :
    Date.dayNumber 1970 ⟨year, 1, 1⟩ = daysInYears 1970 (year - 1970) := by
  have none : daysBeforeMonth year 1 + (1 - 1) = 0 := rfl
  unfold Date.dayNumber Date.dayOfYear
  dsimp only
  rw [none, Nat.add_zero]

theorem SupportedSeconds.days {seconds : Nat} (supported : SupportedSeconds seconds) :
    SupportedDays (seconds / 86400) := by
  have base : todBaseYear - 1970 = 18 := rfl
  have latest : todLatestYear + 1 - 1970 = 130 := rfl
  obtain ⟨first, last⟩ := supported
  rw [newYear_dayNumber, base, daysInYears_base] at first
  rw [newYear_dayNumber, latest, daysInYears_latest] at last
  exact ⟨by omega, by omega⟩

theorem TimeOfDay.IsValid.days (valid : tod.IsValid) : SupportedDays (tod.seconds / 86400) := by
  obtain ⟨first, last⟩ := valid.year
  have number : tod.seconds / 86400 = tod.date.dayNumber 1970 := by
    obtain ⟨-, -, hour, minute, second⟩ := valid
    unfold seconds
    omega
  have start := daysInYears_base
  have stop := daysInYears_latest
  have follow := daysInYears_follow 1970
  have dayOfYear := valid.date.dayOfYear_lt
  unfold todBaseYear at first
  unfold todLatestYear at last
  have starts : daysInYears 1970 18 ≤ daysInYears 1970 (tod.year - 1970) :=
    follow.monotone (by omega)
  have ends : daysInYears 1970 (tod.year - 1970 + 1) ≤ daysInYears 1970 130 :=
    follow.monotone (by omega)
  have same : 1970 + (tod.year - 1970) = tod.year := Nat.add_sub_of_le (by omega)
  rw [follow] at ends
  dsimp only at ends
  rw [same] at ends
  have inYear : tod.date.dayOfYear < daysInYear tod.year := dayOfYear
  rw [number]
  unfold Date.dayNumber TimeOfDay.date at *
  dsimp only at *
  exact ⟨by omega, by omega⟩

/-- A valid time of day is converted to its second in the calendar and back, and a supported second
to a valid time of day and back. -/
theorem clockTod_roundTrip (tick : ClockTick) :
    (∀ tod validation, todValidate tick (some tod) validation = .successful →
      todToSeconds tod = tod.seconds ∧ tod.seconds < 2 ^ 32 ∧
        ∀ usec, ∃ back, clockGetTod tick true true ⟨todToSeconds tod, usec⟩ = .ok back ∧
          back.date = tod.date ∧ back.hour = tod.hour ∧ back.minute = tod.minute ∧
          back.second = tod.second) ∧
    ∀ now : Timeval, SupportedSeconds now.tvSec →
      ∃ tod, clockGetTod tick true true now = .ok tod ∧ tod.IsValid ∧
        (∀ validation, tod.ticks &&& validation.mask < tick.ticksPerSecond →
          todValidate tick (some tod) validation = .successful) ∧
        todToSeconds tod = now.tvSec := by
  constructor
  · intro tod validation accepted
    obtain ⟨-, valid⟩ := todValidate_iff.mp accepted
    obtain ⟨exactly, fits⟩ := valid.toSeconds
    refine ⟨exactly, fits, fun usec => ?_⟩
    have supported : SupportedDays (todToSeconds tod / 86400) := exactly ▸ valid.days
    obtain ⟨back, is, validBack, seconds, -⟩ :=
      @clockGetTod_seconds tick ⟨todToSeconds tod, usec⟩ supported
    exact ⟨back, is, validBack.clock_eq valid (seconds.trans exactly)⟩
  · intro now supported
    obtain ⟨tod, is, valid, seconds, -⟩ := @clockGetTod_seconds tick now supported.days
    exact ⟨tod, is, valid, fun validation ticks => todValidate_iff.mpr ⟨ticks, valid⟩,
      valid.toSeconds.1.trans seconds⟩

example : todToSeconds ⟨2000, 2, 29, 12, 30, 59, 0⟩ = 951827459 := by decide

end RTContainer.Rtems
