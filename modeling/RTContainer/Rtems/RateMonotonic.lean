import RTContainer.Lib.Run
import RTContainer.Rtems.Status

/-! The rate-monotonic periods of `ratemonperiod.c`, `ratemontimeout.c` and `ratemoncancel.c` on one
processor: a period with its owner, the clock that drives its timer, and the clocks that its
statistics read. A timer expires in the clock interrupt, which the owner does not run in. -/

set_option autoImplicit false

namespace RTContainer.Rtems

/-- `rtems_rate_monotonic_period_states`. -/
inductive PeriodState where
  | inactive
  | active
  | expired
  deriving DecidableEq

/-- The `THREAD_WAIT_CLASS_` part of the wait flags of a thread. -/
inductive ThreadWaitClass where
  | none
  | event
  | systemEvent
  | object
  | period
  deriving DecidableEq

/-- The `THREAD_WAIT_STATE_` part of the wait flags of a thread. -/
inductive ThreadWaitState where
  | ready
  | intendToBlock
  | blocked
  deriving DecidableEq

structure ThreadWaitFlags where
  waitClass : ThreadWaitClass
  waitState : ThreadWaitState
  deriving DecidableEq

def threadWaitStateReady : ThreadWaitFlags := ⟨.none, .ready⟩

def rateMonotonicIntendToBlock : ThreadWaitFlags := ⟨.period, .intendToBlock⟩

def rateMonotonicBlocked : ThreadWaitFlags := ⟨.period, .blocked⟩

/-- What `Wait.return_argument` of the owner points to. -/
inductive ReturnArgument where
  | null
  | thePeriod
  | another
  deriving DecidableEq

/-- Where the owner is in `_Rate_monotonic_Block_while_active`: not in it, before `_Thread_Set_state`,
or before `_Thread_Wait_flags_try_change_acquire`. -/
inductive OwnerPlace where
  | outside
  | intends
  | marked
  deriving DecidableEq

structure PeriodStatistics where
  count : Nat
  missedCount : Nat
  minCpuTime : Nat
  maxCpuTime : Nat
  totalCpuTime : Nat
  minWallTime : Nat
  maxWallTime : Nat
  totalWallTime : Nat
  deriving DecidableEq

/-- `Rate_monotonic_Control` with what it reads of its owner and of the clocks. `timer` is the time
in ticks at which `Timer` expires when it is scheduled, and `jobs` are the deadlines of the jobs that
were released since the activation. -/
structure RateMonotonic where
  timer : Option Nat
  state : PeriodState
  nextLength : Nat
  postponedJobs : Nat
  latestDeadline : Nat
  timePeriodInitiated : Nat
  cpuUsagePeriodInitiated : Nat
  statistics : PeriodStatistics
  jobs : List Nat
  waitFlags : ThreadWaitFlags
  returnArgument : ReturnArgument
  isWaitingForPeriod : Bool
  ownerPlace : OwnerPlace
  ticks : Nat
  uptime : Nat
  cpuTimeUsed : Nat

def uint32Max : Nat := 2 ^ 32 - 1

namespace RateMonotonic

variable (period : RateMonotonic)

/-- `_Rate_monotonic_Get_status`: the wall time and the processor time since the start of the
period. -/
def getStatus : Nat × Nat :=
  (period.uptime - period.timePeriodInitiated, period.cpuTimeUsed - period.cpuUsagePeriodInitiated)

def releasePostponedJob : RateMonotonic :=
  { period with
    postponedJobs := (period.postponedJobs + 2 ^ 32 - 1) % 2 ^ 32
    jobs := period.jobs ++ [period.latestDeadline] }

def releaseJob (nextLength : Nat) : RateMonotonic :=
  let deadline := period.ticks + nextLength
  { period with timer := some deadline, jobs := period.jobs ++ [deadline] }

def restart : RateMonotonic :=
  releaseJob
    { period with
      timePeriodInitiated := period.uptime
      cpuUsagePeriodInitiated := period.cpuTimeUsed }
    period.nextLength

def updateStatistics : RateMonotonic :=
  let stats := period.statistics
  let (sinceLastPeriod, executed) := period.getStatus
  { period with
    statistics :=
      { count := (stats.count + 1) % 2 ^ 32
        missedCount :=
          if period.state = .expired then (stats.missedCount + 1) % 2 ^ 32
          else stats.missedCount
        totalCpuTime := stats.totalCpuTime + executed
        minCpuTime := if executed < stats.minCpuTime then executed else stats.minCpuTime
        maxCpuTime := if stats.maxCpuTime < executed then executed else stats.maxCpuTime
        totalWallTime := stats.totalWallTime + sinceLastPeriod
        minWallTime :=
          if sinceLastPeriod < stats.minWallTime then sinceLastPeriod else stats.minWallTime
        maxWallTime :=
          if stats.maxWallTime < sinceLastPeriod then sinceLastPeriod else stats.maxWallTime } }

def getStatusForState : PeriodState → StatusCode
  | .inactive => .notDefined
  | .expired => .timeout
  | .active => .successful

def activate (length : Nat) : RateMonotonic :=
  restart { period with state := .active, nextLength := length, jobs := [] }

def blockWhileActive (length : Nat) : RateMonotonic :=
  { period.updateStatistics with
    nextLength := length
    returnArgument := .thePeriod
    waitFlags := rateMonotonicIntendToBlock
    ownerPlace := .intends }

/-- The next step of the owner in `_Rate_monotonic_Block_while_active`. -/
def proceed : RateMonotonic :=
  match period.ownerPlace with
  | .outside => period
  | .intends => { period with isWaitingForPeriod := true, ownerPlace := .marked }
  | .marked =>
    if period.waitFlags = rateMonotonicIntendToBlock then
      { period with waitFlags := rateMonotonicBlocked, ownerPlace := .outside }
    else { period with isWaitingForPeriod := false, ownerPlace := .outside }

def blockWhileExpired (length : Nat) : RateMonotonic :=
  let updated := updateStatistics { period with state := .expired }
  releasePostponedJob { updated with state := .active, nextLength := length }

/-- `rtems_rate_monotonic_period`; the length 0 is `RTEMS_PERIOD_STATUS`. An owner that blocks gets
the status when it continues. -/
def rtemsRateMonotonicPeriod (executingIsOwner : Bool) (length : Nat) :
    StatusCode × RateMonotonic :=
  if !executingIsOwner then (.notOwnerOfResource, period)
  else if length = 0 then (getStatusForState period.state, period)
  else
    match period.state with
    | .active =>
      if 0 < period.postponedJobs then (.timeout, period.blockWhileExpired length)
      else (.successful, period.blockWhileActive length)
    | .inactive => (.successful, period.activate length)
    | .expired => (.timeout, period.blockWhileExpired length)

def rtemsRateMonotonicCancel (executingIsOwner : Bool) : StatusCode × RateMonotonic :=
  if !executingIsOwner then (.notOwnerOfResource, period)
  else (.successful, { period with timer := none, postponedJobs := 0, state := .inactive })

def renewDeadline : RateMonotonic :=
  let deadline := period.ticks + period.nextLength
  { period with
    postponedJobs :=
      if period.postponedJobs ≠ uint32Max then period.postponedJobs + 1
      else period.postponedJobs
    state := .expired
    timer := some deadline
    latestDeadline := deadline }

def ownerWaits : Bool :=
  period.waitFlags.waitClass = .period ∧ period.returnArgument = .thePeriod

def timeout : RateMonotonic :=
  if period.ownerWaits then
    let unblock := period.waitFlags ≠ rateMonotonicIntendToBlock
    let restarted := restart
      { period with returnArgument := .null, waitFlags := threadWaitStateReady }
    if unblock then { restarted with isWaitingForPeriod := false } else restarted
  else period.renewDeadline

def timerExpires : Bool :=
  match period.timer with
  | some expire => expire ≤ period.ticks + 1
  | none => false

/-- `_Watchdog_Tickle` as far as the timer goes. -/
def tick : RateMonotonic :=
  if period.timerExpires then
    timeout { period with ticks := period.ticks + 1, timer := none }
  else { period with ticks := period.ticks + 1 }

def ownerExecutes : Bool :=
  period.ownerPlace = .outside ∧ period.isWaitingForPeriod = false ∧
    period.waitFlags = threadWaitStateReady

def waitElsewhere (waitFlags : ThreadWaitFlags) (returnArgument : ReturnArgument) : RateMonotonic :=
  if period.ownerPlace = .outside ∧ period.isWaitingForPeriod = false ∧
      returnArgument ≠ .thePeriod then
    { period with waitFlags := waitFlags, returnArgument := returnArgument }
  else period

/-- The clocks go on. -/
def pass (wall cpu : Nat) : RateMonotonic :=
  { period with uptime := period.uptime + wall, cpuTimeUsed := period.cpuTimeUsed + cpu }

def created (ticks uptime cpuTimeUsed : Nat) : RateMonotonic where
  timer := none
  state := .inactive
  nextLength := 0
  postponedJobs := 0
  latestDeadline := 0
  timePeriodInitiated := 0
  cpuUsagePeriodInitiated := 0
  statistics :=
    { count := 0
      missedCount := 0
      minCpuTime := 0x7fffffff * 10 ^ 9 + 0x7fffffff
      maxCpuTime := 0
      totalCpuTime := 0
      minWallTime := 0x7fffffff * 10 ^ 9 + 0x7fffffff
      maxWallTime := 0
      totalWallTime := 0 }
  jobs := []
  waitFlags := threadWaitStateReady
  returnArgument := .null
  isWaitingForPeriod := false
  ownerPlace := .outside
  ticks := ticks
  uptime := uptime
  cpuTimeUsed := cpuTimeUsed

end RateMonotonic

/-- What happens to a period. Its owner calls it when it executes, other threads at any time. -/
inductive PeriodCall where
  | period (executingIsOwner : Bool) (length : Nat)
  | cancel (executingIsOwner : Bool)
  | proceed
  | tick
  | waitElsewhere (waitFlags : ThreadWaitFlags) (returnArgument : ReturnArgument)
  | pass (wall cpu : Nat)
  deriving DecidableEq

def PeriodCall.perform (period : RateMonotonic) : PeriodCall → RateMonotonic
  | .period executingIsOwner length =>
    if executingIsOwner && !period.ownerExecutes then period
    else (period.rtemsRateMonotonicPeriod executingIsOwner length).2
  | .cancel executingIsOwner =>
    if executingIsOwner && !period.ownerExecutes then period
    else (period.rtemsRateMonotonicCancel executingIsOwner).2
  | .proceed => period.proceed
  | .tick => period.tick
  | .waitElsewhere waitFlags returnArgument => period.waitElsewhere waitFlags returnArgument
  | .pass wall cpu => period.pass wall cpu

namespace RateMonotonic

variable {period : RateMonotonic}

theorem perform_period {length : Nat} (executes : period.ownerExecutes = true)
    (positive : length ≠ 0) :
    PeriodCall.perform period (.period true length) =
      match period.state with
      | .active =>
        if 0 < period.postponedJobs then period.blockWhileExpired length
        else period.blockWhileActive length
      | .inactive => period.activate length
      | .expired => period.blockWhileExpired length := by
  unfold PeriodCall.perform rtemsRateMonotonicPeriod
  rw [executes]
  simp only [Bool.not_true, Bool.and_false, Bool.false_eq_true, ↓reduceIte, if_neg positive]
  cases period.state with
  | inactive => rfl
  | expired => rfl
  | active =>
    dsimp only
    split
    next => rfl
    next => rfl

theorem perform_period_idle {executingIsOwner : Bool} {length : Nat}
    (idle : ¬ (executingIsOwner = true ∧ period.ownerExecutes = true ∧ length ≠ 0)) :
    PeriodCall.perform period (.period executingIsOwner length) = period := by
  unfold PeriodCall.perform rtemsRateMonotonicPeriod
  cases executingIsOwner with
  | false => rfl
  | true =>
    cases executes : period.ownerExecutes with
    | false => rfl
    | true =>
      have isStatus : length = 0 := by
        by_contra positive
        exact idle ⟨rfl, executes, positive⟩
      rw [isStatus]
      rfl

end RateMonotonic

end RTContainer.Rtems
