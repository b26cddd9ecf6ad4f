import RTContainer.Rtems.RateMonotonic

/-! The total times in the statistics of a rate-monotonic period, and the time since the
activation. -/

set_option autoImplicit false

namespace RTContainer.Rtems

open Machine

namespace RateMonotonic

variable {start period : RateMonotonic} {call : PeriodCall}

/-- What was added to the total times since the activation fits between the activation and now. -/
structure CountsOnce (start period : RateMonotonic) : Prop where
  wall : period.statistics.totalWallTime ≤
    start.statistics.totalWallTime + (period.uptime - start.uptime)
  cpu : period.statistics.totalCpuTime ≤
    start.statistics.totalCpuTime + (period.cpuTimeUsed - start.cpuTimeUsed)

def Concludes (period : RateMonotonic) (call : PeriodCall) : Prop :=
  ∃ length, call = .period true length ∧ length ≠ 0 ∧ period.ownerExecutes = true ∧
    period.state ≠ .inactive

/-- A conclusion finds the period active and no postponed job, so that the job which follows it
begins with the next expiration of the timer. -/
def OnTime (period : RateMonotonic) (call : PeriodCall) : Prop :=
  period.Concludes call → period.state = .active ∧ period.postponedJobs = 0

/-- What was added to the total times fits between the activation and the recorded start of the
period. -/
structure CountedBefore (start period : RateMonotonic) : Prop where
  wall : period.statistics.totalWallTime ≤
    start.statistics.totalWallTime + (period.timePeriodInitiated - start.uptime)
  cpu : period.statistics.totalCpuTime ≤
    start.statistics.totalCpuTime + (period.cpuUsagePeriodInitiated - start.cpuTimeUsed)

/-- The owner is on its way to wait for the period, or waits for it. -/
inductive Waits (period : RateMonotonic) : Prop where
  | intends (argument : period.returnArgument = .thePeriod)
      (flags : period.waitFlags = rateMonotonicIntendToBlock) (place : period.ownerPlace = .intends)
  | marked (argument : period.returnArgument = .thePeriod)
      (flags : period.waitFlags = rateMonotonicIntendToBlock) (place : period.ownerPlace = .marked)
      (waiting : period.isWaitingForPeriod = true)
  | blocked (argument : period.returnArgument = .thePeriod)
      (flags : period.waitFlags = rateMonotonicBlocked) (place : period.ownerPlace = .outside)
      (waiting : period.isWaitingForPeriod = true)

structure Since (start period : RateMonotonic) : Prop where
  wallStart : start.uptime ≤ period.timePeriodInitiated
  wallNow : period.timePeriodInitiated ≤ period.uptime
  cpuStart : start.cpuTimeUsed ≤ period.cpuUsagePeriodInitiated
  cpuNow : period.cpuUsagePeriodInitiated ≤ period.cpuTimeUsed

/-- The times since the recorded start are added to the total times. -/
structure AddsJob (period after : RateMonotonic) : Prop where
  totalWall : after.statistics.totalWallTime =
    period.statistics.totalWallTime + (period.uptime - period.timePeriodInitiated)
  totalCpu : after.statistics.totalCpuTime =
    period.statistics.totalCpuTime + (period.cpuTimeUsed - period.cpuUsagePeriodInitiated)
  uptime : after.uptime = period.uptime
  cpuTimeUsed : after.cpuTimeUsed = period.cpuTimeUsed
  wallStart : after.timePeriodInitiated = period.timePeriodInitiated
  cpuStart : after.cpuUsagePeriodInitiated = period.cpuUsagePeriodInitiated

structure StartsNow (after : RateMonotonic) : Prop where
  wall : after.timePeriodInitiated = after.uptime
  cpu : after.cpuUsagePeriodInitiated = after.cpuTimeUsed

structure SameStart (period after : RateMonotonic) : Prop where
  wall : after.timePeriodInitiated = period.timePeriodInitiated
  cpu : after.cpuUsagePeriodInitiated = period.cpuUsagePeriodInitiated

structure AddsNothing (period after : RateMonotonic) : Prop where
  statistics : after.statistics = period.statistics
  uptime : period.uptime ≤ after.uptime
  cpuTimeUsed : period.cpuTimeUsed ≤ after.cpuTimeUsed
  starts : period.SameStart after ∨ after.StartsNow

theorem AddsNothing.refl (period : RateMonotonic) : period.AddsNothing period :=
  ⟨rfl, Nat.le_refl _, Nat.le_refl _, .inl ⟨rfl, rfl⟩⟩

variable (length : Nat)

private theorem blockWhileActive_addsJob : period.AddsJob (period.blockWhileActive length) :=
  ⟨rfl, rfl, rfl, rfl, rfl, rfl⟩

theorem blockWhileExpired_addsJob : period.AddsJob (period.blockWhileExpired length) :=
  ⟨rfl, rfl, rfl, rfl, rfl, rfl⟩

theorem activate_addsNothing : period.AddsNothing (period.activate length) :=
  ⟨rfl, Nat.le_refl _, Nat.le_refl _, .inr ⟨rfl, rfl⟩⟩

theorem timeout_addsNothing : period.AddsNothing period.timeout := by
  unfold timeout
  split
  next =>
    dsimp only
    split
    next => exact ⟨rfl, Nat.le_refl _, Nat.le_refl _, .inr ⟨rfl, rfl⟩⟩
    next => exact ⟨rfl, Nat.le_refl _, Nat.le_refl _, .inr ⟨rfl, rfl⟩⟩
  next => exact ⟨rfl, Nat.le_refl _, Nat.le_refl _, .inl ⟨rfl, rfl⟩⟩

theorem tick_addsNothing : period.AddsNothing period.tick := by
  unfold tick
  split
  next =>
    have adds : AddsNothing { period with ticks := period.ticks + 1, timer := none } _ :=
      timeout_addsNothing
    exact ⟨adds.statistics, adds.uptime, adds.cpuTimeUsed,
      adds.starts.imp_left fun same => ⟨same.wall, same.cpu⟩⟩
  next => exact ⟨rfl, Nat.le_refl _, Nat.le_refl _, .inl ⟨rfl, rfl⟩⟩

theorem proceed_addsNothing : period.AddsNothing period.proceed := by
  unfold proceed
  split
  next => exact .refl period
  next => exact ⟨rfl, Nat.le_refl _, Nat.le_refl _, .inl ⟨rfl, rfl⟩⟩
  next =>
    split
    next => exact ⟨rfl, Nat.le_refl _, Nat.le_refl _, .inl ⟨rfl, rfl⟩⟩
    next => exact ⟨rfl, Nat.le_refl _, Nat.le_refl _, .inl ⟨rfl, rfl⟩⟩

theorem perform_addsJob (concludes : period.Concludes call) :
    period.AddsJob (call.perform period) := by
  obtain ⟨length, rfl, positive, executes, isRunning⟩ := concludes
  rw [perform_period executes positive]
  cases isState : period.state with
  | inactive => exact absurd isState isRunning
  | expired => exact blockWhileExpired_addsJob length
  | active =>
    dsimp only
    split
    next => exact blockWhileExpired_addsJob length
    next => exact blockWhileActive_addsJob length

theorem perform_addsNothing (goesOn : ¬ period.Concludes call) :
    period.AddsNothing (call.perform period) := by
  cases call with
  | period executingIsOwner length =>
    by_cases acts : executingIsOwner = true ∧ period.ownerExecutes = true ∧ length ≠ 0
    · obtain ⟨rfl, executes, positive⟩ := acts
      have isInactive : period.state = .inactive := by
        by_contra isRunning
        exact goesOn ⟨length, rfl, positive, executes, isRunning⟩
      rw [perform_period executes positive, isInactive]
      exact activate_addsNothing length
    · rw [perform_period_idle acts]
      exact .refl period
  | cancel executingIsOwner =>
    unfold PeriodCall.perform rtemsRateMonotonicCancel
    dsimp only
    split
    next => exact .refl period
    next =>
      split
      next => exact .refl period
      next => exact ⟨rfl, Nat.le_refl _, Nat.le_refl _, .inl ⟨rfl, rfl⟩⟩
  | proceed => exact proceed_addsNothing
  | tick => exact tick_addsNothing
  | waitElsewhere waitFlags returnArgument =>
    unfold PeriodCall.perform waitElsewhere
    dsimp only
    split
    next => exact ⟨rfl, Nat.le_refl _, Nat.le_refl _, .inl ⟨rfl, rfl⟩⟩
    next => exact .refl period
  | pass wall cpu => exact ⟨rfl, Nat.le_add_right _ _, Nat.le_add_right _ _, .inl ⟨rfl, rfl⟩⟩

theorem Since.perform (since : Since start period) (call : PeriodCall) :
    Since start (call.perform period) := by
  obtain ⟨wallStart, wallNow, cpuStart, cpuNow⟩ := since
  by_cases concludes : period.Concludes call
  · have adds := perform_addsJob concludes
    refine ⟨?_, ?_, ?_, ?_⟩
    · rw [adds.wallStart]
      exact wallStart
    · rw [adds.wallStart, adds.uptime]
      exact wallNow
    · rw [adds.cpuStart]
      exact cpuStart
    · rw [adds.cpuStart, adds.cpuTimeUsed]
      exact cpuNow
  · obtain ⟨-, uptime, cpuTimeUsed, starts⟩ := perform_addsNothing concludes
    rcases starts with ⟨wall, cpu⟩ | ⟨wall, cpu⟩
    · constructor <;> omega
    · constructor <;> omega

section

variable (waits : period.Waits)
include waits

theorem Waits.not_executes : period.ownerExecutes = false := by
  cases waits with
  | intends _ _ place => simp [ownerExecutes, place]
  | marked _ _ place _ => simp [ownerExecutes, place]
  | blocked _ _ _ waiting => simp [ownerExecutes, waiting]

theorem Waits.ownerWaits : period.ownerWaits = true := by
  cases waits with
  | intends argument flags _ | marked argument flags _ _ | blocked argument flags _ _ =>
    rw [RateMonotonic.ownerWaits, argument, flags]
    rfl

theorem Waits.congr {after : RateMonotonic}
    (argument : after.returnArgument = period.returnArgument)
    (flags : after.waitFlags = period.waitFlags) (place : after.ownerPlace = period.ownerPlace)
    (waiting : after.isWaitingForPeriod = period.isWaitingForPeriod) : after.Waits := by
  cases waits with
  | intends isThis intend inside =>
    exact .intends (argument.trans isThis) (flags.trans intend) (place.trans inside)
  | marked isThis intend inside waits =>
    exact .marked (argument.trans isThis) (flags.trans intend) (place.trans inside)
      (waiting.trans waits)
  | blocked isThis isBlocked outside waits =>
    exact .blocked (argument.trans isThis) (flags.trans isBlocked) (place.trans outside)
      (waiting.trans waits)

theorem Waits.proceed : period.proceed.Waits := by
  cases waits with
  | intends argument flags place =>
    rw [RateMonotonic.proceed, place]
    exact .marked argument flags rfl rfl
  | marked argument flags place waiting =>
    rw [RateMonotonic.proceed, place]
    dsimp only
    rw [if_pos flags]
    exact .blocked argument rfl rfl waiting
  | blocked argument flags place waiting =>
    rw [RateMonotonic.proceed, place]
    exact .blocked argument flags place waiting

theorem Waits.tick : period.tick.StartsNow ∨ period.tick.Waits := by
  unfold RateMonotonic.tick
  split
  next =>
    refine .inl ?_
    have still : RateMonotonic.ownerWaits
        { period with ticks := period.ticks + 1, timer := none } = true := waits.ownerWaits
    unfold timeout
    rw [if_pos still]
    dsimp only
    split
    next => exact ⟨rfl, rfl⟩
    next => exact ⟨rfl, rfl⟩
  next => exact .inr (waits.congr rfl rfl rfl rfl)

theorem Waits.waitElsewhere (waitFlags : ThreadWaitFlags)
    (returnArgument : ReturnArgument) : period.waitElsewhere waitFlags returnArgument = period := by
  refine if_neg fun elsewhere => ?_
  cases waits with
  | intends _ _ place | marked _ _ place _ => exact nomatch place.symm.trans elsewhere.1
  | blocked _ _ _ waiting => exact nomatch waiting.symm.trans elsewhere.2.1

/-- An owner waits until an expiration of the timer starts the next job. -/
theorem Waits.perform (call : PeriodCall) :
    (call.perform period).StartsNow ∨ (call.perform period).Waits := by
  have idle := waits.not_executes
  cases call with
  | period executingIsOwner length =>
    rw [perform_period_idle fun acts => by simp [acts.2.1] at idle]
    exact .inr waits
  | cancel executingIsOwner =>
    cases executingIsOwner with
    | false => exact .inr waits
    | true =>
      rw [PeriodCall.perform, idle]
      exact .inr waits
  | proceed => exact .inr waits.proceed
  | tick => exact waits.tick
  | waitElsewhere waitFlags returnArgument =>
    rw [PeriodCall.perform, waits.waitElsewhere]
    exact .inr waits
  | pass wall cpu => exact .inr (waits.congr rfl rfl rfl rfl)

end

/-- The total times are within the time since the activation, and there is room for the running
job in front of now, unless the owner waits for the next one. -/
structure Counted (start period : RateMonotonic) : Prop where
  since : Since start period
  counts : CountsOnce start period
  room : CountedBefore start period ∨ period.Waits

theorem Counted.conclude (counted : Counted start period) (concludes : period.Concludes call)
    (onTime : period.OnTime call) : Counted start (call.perform period) := by
  have adds := perform_addsJob concludes
  have since := counted.since
  obtain ⟨isActive, none⟩ := onTime concludes
  obtain ⟨length, rfl, positive, executes, -⟩ := concludes
  have before : CountedBefore start period :=
    counted.room.resolve_right fun waits => nomatch waits.not_executes.symm.trans executes
  refine ⟨since.perform _, ⟨?_, ?_⟩, .inr ?_⟩
  · have wall := before.wall
    have wallStart := since.wallStart
    have wallNow := since.wallNow
    rw [adds.totalWall, adds.uptime]
    omega
  · have cpu := before.cpu
    have cpuStart := since.cpuStart
    have cpuNow := since.cpuNow
    rw [adds.totalCpu, adds.cpuTimeUsed]
    omega
  · rw [perform_period executes positive, isActive]
    dsimp only
    rw [if_neg (by omega)]
    exact .intends rfl rfl rfl

theorem AddsNothing.counted {after : RateMonotonic} (adds : period.AddsNothing after)
    (counted : Counted start period) (since : Since start after)
    (waits : period.Waits → after.StartsNow ∨ after.Waits) : Counted start after := by
  obtain ⟨statistics, uptime, cpuTimeUsed, starts⟩ := adds
  obtain ⟨-, ⟨wall, cpu⟩, room⟩ := counted
  rw [← statistics] at wall cpu
  have fresh : after.StartsNow → CountedBefore start after := by
    rintro ⟨wallStart, cpuStart⟩
    constructor <;> omega
  refine ⟨since, ⟨by omega, by omega⟩, ?_⟩
  rcases starts with ⟨wallStart, cpuStart⟩ | now
  · rcases room with ⟨wallBefore, cpuBefore⟩ | isWaiting
    · refine .inl ⟨?_, ?_⟩
      · rw [statistics, wallStart]
        exact wallBefore
      · rw [statistics, cpuStart]
        exact cpuBefore
    · exact (waits isWaiting).imp_left fresh
  · exact .inl (fresh now)

theorem Counted.perform (counted : Counted start period) (onTime : period.OnTime call) :
    Counted start (call.perform period) := by
  by_cases concludes : period.Concludes call
  · exact counted.conclude concludes onTime
  · exact (perform_addsNothing concludes).counted counted (counted.since.perform call)
      fun waits => waits.perform call

theorem activate_since : Since start (start.activate length) :=
  ⟨Nat.le_refl _, Nat.le_refl _, Nat.le_refl _, Nat.le_refl _⟩

theorem activate_countsOnce : CountsOnce start (start.activate length) :=
  ⟨Nat.le_add_right _ _, Nat.le_add_right _ _⟩

theorem activate_countedBefore : CountedBefore start (start.activate length) :=
  ⟨Nat.le_add_right _ _, Nat.le_add_right _ _⟩

/-- In every run after an activation in which all jobs are concluded on time, the total times never
exceed the time since the activation. -/
theorem statisticsRun_countsOnce (start : RateMonotonic) (length : Nat) (calls : List PeriodCall)
    (onTime : Meets (fun period call => PeriodCall.perform period call) OnTime
      (start.activate length) calls) :
    Throughout (fun period call => PeriodCall.perform period call) (CountsOnce start)
      (start.activate length) calls := by
  have starts : Counted start (start.activate length) :=
    ⟨activate_since length, activate_countsOnce length, .inl (activate_countedBefore length)⟩
  exact (throughout_of_preserved starts (fun _ _ counted isOnTime => counted.perform isOnTime)
    onTime).imp fun _ counted => counted.counts

/-- Two jobs that end before their deadlines, with a wait between them. -/
theorem statisticsRun_twoOnTime :
    Throughout (fun period call => PeriodCall.perform period call) (CountsOnce (created 0 0 0))
      ((created 0 0 0).activate 2)
      [.pass 2 2, .period true 2, .proceed, .proceed, .tick, .pass 2 0, .tick, .pass 1 1,
        .period true 2] := by
  refine statisticsRun_countsOnce (created 0 0 0) 2 _ ⟨?_, ?_, ?_, ?_, ?_, ?_, ?_, ?_, ?_, trivial⟩
  all_goals exact fun _ => ⟨rfl, rfl⟩

/-- A job ends at 6 after its deadline at 4, and the postponed one at 7: 6 and 7 are counted. -/
theorem statisticsRun_overlap :
    ¬ Throughout (fun period call => PeriodCall.perform period call) (CountsOnce (created 0 0 0))
        ((created 0 0 0).activate 2)
        [.pass 2 2, .tick, .pass 2 2, .tick, .pass 2 2, .tick, .period true 2, .pass 1 1,
          .period true 2] := by
  intro always
  have counts := always.final
  exact absurd counts.wall (by decide)

end RateMonotonic

end RTContainer.Rtems
