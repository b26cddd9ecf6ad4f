import RTContainer.Rtems.RateMonotonic

/-! The states of a rate-monotonic period: its timer, its postponed jobs, and the jobs that were
released. -/

set_option autoImplicit false

namespace RTContainer.Rtems

open Machine

/-- A period with the number of expirations of its timer since the activation, and how many of them
found the counter of the postponed jobs at its end. -/
structure PeriodHistory where
  period : RateMonotonic
  expirations : Nat
  saturations : Nat

namespace PeriodHistory

def Activates (period : RateMonotonic) (call : PeriodCall) : Prop :=
  match call with
  | .period executingIsOwner length =>
    executingIsOwner = true ∧ period.ownerExecutes = true ∧ length ≠ 0 ∧ period.state = .inactive
  | _ => False

def Expires (period : RateMonotonic) (call : PeriodCall) : Prop :=
  call = .tick ∧ period.timerExpires = true

/-- An expiration cannot count the job that it postpones. -/
def Saturates (period : RateMonotonic) (call : PeriodCall) : Prop :=
  Expires period call ∧ period.ownerWaits = false ∧ period.postponedJobs = uint32Max

instance (period : RateMonotonic) (call : PeriodCall) : Decidable (Activates period call) :=
  match call with
  | .period _ _ => inferInstanceAs (Decidable (_ ∧ _))
  | .cancel _ | .proceed | .tick | .waitElsewhere _ _ | .pass _ _ => isFalse id

instance (period : RateMonotonic) (call : PeriodCall) : Decidable (Expires period call) :=
  inferInstanceAs (Decidable (_ ∧ _))

instance (period : RateMonotonic) (call : PeriodCall) : Decidable (Saturates period call) :=
  inferInstanceAs (Decidable (_ ∧ _))

def perform (history : PeriodHistory) (call : PeriodCall) : PeriodHistory where
  period := call.perform history.period
  expirations :=
    if Activates history.period call then 0
    else history.expirations + if Expires history.period call then 1 else 0
  saturations :=
    if Activates history.period call then 0
    else history.saturations + if Saturates history.period call then 1 else 0

def created (ticks uptime cpuTimeUsed : Nat) : PeriodHistory where
  period := .created ticks uptime cpuTimeUsed
  expirations := 0
  saturations := 0

end PeriodHistory

/-- An expired period has a postponed job, an inactive one has neither a timer nor a postponed job,
and every other one has a timer, and a job for the activation and for each expiration. -/
structure PeriodConsistent (history : PeriodHistory) : Prop where
  expired : history.period.state = .expired → 0 < history.period.postponedJobs
  inactive : history.period.state = .inactive →
    history.period.timer = none ∧ history.period.postponedJobs = 0
  scheduled : history.period.state ≠ .inactive → history.period.timer.isSome = true
  counted : history.period.state ≠ .inactive →
    history.period.jobs.length + history.period.postponedJobs + history.saturations =
      1 + history.expirations

def TakesPostponed (history : PeriodHistory) (call : PeriodCall) : Prop :=
  ∀ executingIsOwner length, call = .period executingIsOwner length →
    (call.perform history.period).postponedJobs ≠ history.period.postponedJobs →
      0 < history.period.postponedJobs ∧
        (call.perform history.period).postponedJobs + 1 = history.period.postponedJobs

structure PeriodKept (history : PeriodHistory) : Prop where
  consistent : PeriodConsistent history
  fits : history.period.postponedJobs ≤ uint32Max

variable {history : PeriodHistory} {call : PeriodCall}

theorem PeriodHistory.perform_uncounted (noActivation : ¬ Activates history.period call)
    (noExpiration : ¬ Expires history.period call) :
    (history.perform call).expirations = history.expirations ∧
      (history.perform call).saturations = history.saturations := by
  have noSaturation : ¬ Saturates history.period call := fun saturates => noExpiration saturates.1
  constructor
  · exact (if_neg noActivation).trans (congrArg (history.expirations + ·) (if_neg noExpiration))
  · exact (if_neg noActivation).trans (congrArg (history.saturations + ·) (if_neg noSaturation))

section

variable (kept : PeriodKept history)
include kept

theorem PeriodKept.same (noActivation : ¬ PeriodHistory.Activates history.period call)
    (noExpiration : ¬ PeriodHistory.Expires history.period call)
    (state : (call.perform history.period).state = history.period.state)
    (postponed : (call.perform history.period).postponedJobs = history.period.postponedJobs)
    (timer : (call.perform history.period).timer = history.period.timer)
    (jobs : (call.perform history.period).jobs = history.period.jobs) :
    PeriodKept (history.perform call) ∧ TakesPostponed history call := by
  obtain ⟨expirations, saturations⟩ :=
    PeriodHistory.perform_uncounted noActivation noExpiration
  have consistent := kept.consistent
  refine ⟨⟨⟨?_, ?_, ?_, ?_⟩, Nat.le_trans (Nat.le_of_eq postponed) kept.fits⟩, fun _ _ _ changes =>
    absurd postponed changes⟩
  · exact fun isExpired => postponed.symm ▸ consistent.expired (state.symm.trans isExpired)
  · intro isInactive
    have before := consistent.inactive (state.symm.trans isInactive)
    exact ⟨timer.trans before.1, postponed.trans before.2⟩
  · exact fun isRunning =>
      (congrArg Option.isSome timer).trans
        (consistent.scheduled fun isInactive => isRunning (state.trans isInactive))
  · intro isRunning
    have counted := consistent.counted fun isInactive => isRunning (state.trans isInactive)
    show (call.perform history.period).jobs.length + (call.perform history.period).postponedJobs +
      (history.perform call).saturations = 1 + (history.perform call).expirations
    rw [jobs, postponed, expirations, saturations]
    exact counted

theorem PeriodKept.activate {length : Nat} (positive : length ≠ 0)
    (executes : history.period.ownerExecutes = true)
    (isInactive : history.period.state = .inactive) :
    PeriodKept (history.perform (.period true length)) ∧
      TakesPostponed history (.period true length) := by
  have activates : PeriodHistory.Activates history.period (.period true length) :=
    ⟨rfl, executes, positive, isInactive⟩
  have performs : PeriodCall.perform history.period (.period true length) =
      history.period.activate length := by
    rw [RateMonotonic.perform_period executes positive, isInactive]
  have isAfter : history.perform (.period true length) =
      ⟨history.period.activate length, 0, 0⟩ := by
    unfold PeriodHistory.perform
    rw [performs, if_pos activates, if_pos activates]
  have none := (kept.consistent.inactive isInactive).2
  constructor
  · rw [isAfter]
    refine ⟨⟨nofun, nofun, fun _ => rfl, fun _ => ?_⟩, kept.fits⟩
    show 1 + history.period.postponedJobs + 0 = 1 + 0
    rw [none]
  · intro _ _ _ changes
    rw [performs] at changes
    exact absurd rfl changes

theorem PeriodKept.blockWhileExpired {length : Nat} (isRunning : history.period.state ≠ .inactive)
    (some : 0 < history.period.postponedJobs)
    (performs : PeriodCall.perform history.period (.period true length) =
      history.period.blockWhileExpired length) :
    PeriodKept (history.perform (.period true length)) ∧
      TakesPostponed history (.period true length) := by
  have noActivation : ¬ PeriodHistory.Activates history.period (.period true length) :=
    fun activates => isRunning activates.2.2.2
  have noExpiration : ¬ PeriodHistory.Expires history.period (.period true length) :=
    fun expires => nomatch expires.1
  obtain ⟨expirations, saturations⟩ :=
    PeriodHistory.perform_uncounted noActivation noExpiration
  have isAfter : history.perform (.period true length) =
      ⟨history.period.blockWhileExpired length, history.expirations, history.saturations⟩ := by
    rw [← performs, ← expirations, ← saturations]
    rfl
  have fits := kept.fits
  have isMax : uint32Max = 2 ^ 32 - 1 := rfl
  have taken : (history.period.blockWhileExpired length).postponedJobs + 1 =
      history.period.postponedJobs := by
    show (history.period.postponedJobs + 2 ^ 32 - 1) % 2 ^ 32 + 1 = history.period.postponedJobs
    omega
  have released : (history.period.blockWhileExpired length).jobs.length =
      history.period.jobs.length + 1 := List.length_append
  constructor
  · rw [isAfter]
    have scheduled := kept.consistent.scheduled isRunning
    have counted := kept.consistent.counted isRunning
    refine ⟨⟨nofun, nofun, fun _ => scheduled, fun _ => ?_⟩, ?_⟩
    · dsimp only
      omega
    · dsimp only
      omega
  · intro _ _ _ _
    rw [performs]
    exact ⟨some, taken⟩

theorem PeriodKept.period (executingIsOwner : Bool) (length : Nat) :
    PeriodKept (history.perform (.period executingIsOwner length)) ∧
      TakesPostponed history (.period executingIsOwner length) := by
  by_cases acts : executingIsOwner = true ∧ history.period.ownerExecutes = true ∧ length ≠ 0
  · obtain ⟨rfl, executes, positive⟩ := acts
    have performs := RateMonotonic.perform_period executes positive
    cases isState : history.period.state with
    | inactive => exact kept.activate positive executes isState
    | expired =>
      have isRunning : history.period.state ≠ .inactive := by
        rw [isState]
        exact nofun
      rw [isState] at performs
      exact kept.blockWhileExpired isRunning (kept.consistent.expired isState) performs
    | active =>
      have isRunning : history.period.state ≠ .inactive := by
        rw [isState]
        exact nofun
      rw [isState] at performs
      dsimp only at performs
      by_cases some : 0 < history.period.postponedJobs
      · rw [if_pos some] at performs
        exact kept.blockWhileExpired isRunning some performs
      · rw [if_neg some] at performs
        refine kept.same (fun activates => isRunning activates.2.2.2)
          (fun expires => nomatch expires.1) ?_ ?_ ?_ ?_
        all_goals
          rw [performs]
          rfl
  · have performs := RateMonotonic.perform_period_idle acts
    refine kept.same (fun activates => acts ⟨activates.1, activates.2.1, activates.2.2.1⟩)
      (fun expires => nomatch expires.1) ?_ ?_ ?_ ?_
    all_goals rw [performs]

theorem PeriodKept.cancel (executingIsOwner : Bool) :
    PeriodKept (history.perform (.cancel executingIsOwner)) ∧
      TakesPostponed history (.cancel executingIsOwner) := by
  by_cases acts : executingIsOwner = true ∧ history.period.ownerExecutes = true
  · obtain ⟨rfl, executes⟩ := acts
    have performs : PeriodCall.perform history.period (.cancel true) =
        { history.period with timer := none, postponedJobs := 0, state := .inactive } := by
      unfold PeriodCall.perform
      rw [executes]
      rfl
    have isPeriod : (history.perform (.cancel true)).period =
        { history.period with timer := none, postponedJobs := 0, state := .inactive } := performs
    refine ⟨⟨⟨?_, ?_, ?_, ?_⟩, ?_⟩, nofun⟩
    · rw [isPeriod]
      nofun
    · rw [isPeriod]
      exact fun _ => ⟨rfl, rfl⟩
    · rw [isPeriod]
      exact fun isRunning => absurd rfl isRunning
    · rw [isPeriod]
      exact fun isRunning => absurd rfl isRunning
    · rw [isPeriod]
      exact Nat.zero_le _
  · have performs : PeriodCall.perform history.period (.cancel executingIsOwner) =
        history.period := by
      unfold PeriodCall.perform RateMonotonic.rtemsRateMonotonicCancel
      cases executingIsOwner with
      | false => rfl
      | true =>
        have idle : history.period.ownerExecutes = false := by
          rw [← Bool.not_eq_true]
          exact fun executes => acts ⟨rfl, executes⟩
        rw [idle]
        rfl
    refine kept.same id (fun expires => nomatch expires.1) ?_ ?_ ?_ ?_
    all_goals rw [performs]

theorem PeriodKept.proceed :
    PeriodKept (history.perform .proceed) ∧ TakesPostponed history .proceed := by
  have keeps : history.period.proceed.state = history.period.state ∧
      history.period.proceed.postponedJobs = history.period.postponedJobs ∧
        history.period.proceed.timer = history.period.timer ∧
          history.period.proceed.jobs = history.period.jobs := by
    unfold RateMonotonic.proceed
    split
    next => exact ⟨rfl, rfl, rfl, rfl⟩
    next => exact ⟨rfl, rfl, rfl, rfl⟩
    next =>
      split
      next => exact ⟨rfl, rfl, rfl, rfl⟩
      next => exact ⟨rfl, rfl, rfl, rfl⟩
  exact kept.same id (fun expires => nomatch expires.1) keeps.1 keeps.2.1 keeps.2.2.1 keeps.2.2.2

theorem PeriodKept.waitElsewhere (waitFlags : ThreadWaitFlags) (returnArgument : ReturnArgument) :
    PeriodKept (history.perform (.waitElsewhere waitFlags returnArgument)) ∧
      TakesPostponed history (.waitElsewhere waitFlags returnArgument) := by
  have keeps : (history.period.waitElsewhere waitFlags returnArgument).state =
        history.period.state ∧
      (history.period.waitElsewhere waitFlags returnArgument).postponedJobs =
          history.period.postponedJobs ∧
        (history.period.waitElsewhere waitFlags returnArgument).timer = history.period.timer ∧
          (history.period.waitElsewhere waitFlags returnArgument).jobs = history.period.jobs := by
    unfold RateMonotonic.waitElsewhere
    split
    next => exact ⟨rfl, rfl, rfl, rfl⟩
    next => exact ⟨rfl, rfl, rfl, rfl⟩
  exact kept.same id (fun expires => nomatch expires.1) keeps.1 keeps.2.1 keeps.2.2.1 keeps.2.2.2

end

namespace RateMonotonic

theorem timeout_waiting {period : RateMonotonic} (waits : period.ownerWaits = true) :
    period.timeout.state = period.state ∧
      period.timeout.postponedJobs = period.postponedJobs ∧
        period.timeout.timer.isSome = true ∧
          period.timeout.jobs.length = period.jobs.length + 1 := by
  unfold timeout
  rw [if_pos waits]
  dsimp only
  split
  next => exact ⟨rfl, rfl, rfl, List.length_append⟩
  next => exact ⟨rfl, rfl, rfl, List.length_append⟩

private theorem timeout_busy {period : RateMonotonic} (waits : period.ownerWaits = false) :
    period.timeout = period.renewDeadline := by
  unfold timeout
  rw [waits]
  rfl

end RateMonotonic

theorem PeriodHistory.perform_expiring (expires : history.period.timerExpires = true) :
    (history.perform .tick).period =
        RateMonotonic.timeout { history.period with
          ticks := history.period.ticks + 1
          timer := none } ∧
      (history.perform .tick).expirations = history.expirations + 1 ∧
        (history.perform .tick).saturations = history.saturations +
          if history.period.ownerWaits = false ∧ history.period.postponedJobs = uint32Max then 1
          else 0 := by
  have isExpiration : Expires history.period .tick := ⟨rfl, expires⟩
  refine ⟨if_pos expires, congrArg (history.expirations + ·) (if_pos isExpiration), ?_⟩
  refine congrArg (history.saturations + ·) (if_congr ?_ rfl rfl)
  exact and_iff_right isExpiration

theorem PeriodKept.tick (kept : PeriodKept history) :
    PeriodKept (history.perform .tick) ∧ TakesPostponed history .tick := by
  refine ⟨?_, nofun⟩
  cases expires : history.period.timerExpires with
  | false =>
    have performs : PeriodCall.perform history.period .tick =
        { history.period with ticks := history.period.ticks + 1 } := by
      show history.period.tick = _
      unfold RateMonotonic.tick
      rw [expires]
      rfl
    refine (kept.same id (fun isExpiration => ?_) ?_ ?_ ?_ ?_).1
    · exact Bool.false_ne_true (expires.symm.trans isExpiration.2)
    all_goals rw [performs]
  | true =>
    obtain ⟨isPeriod, expirations, saturations⟩ := PeriodHistory.perform_expiring expires
    have isRunning : history.period.state ≠ .inactive := by
      intro isInactive
      unfold RateMonotonic.timerExpires at expires
      rw [(kept.consistent.inactive isInactive).1] at expires
      exact Bool.false_ne_true expires
    have counted := kept.consistent.counted isRunning
    have fits := kept.fits
    have isMax : uint32Max = 2 ^ 32 - 1 := rfl
    cases waits : history.period.ownerWaits with
    | true =>
      have restarted : (history.perform .tick).period.state = history.period.state ∧
          (history.perform .tick).period.postponedJobs = history.period.postponedJobs ∧
            (history.perform .tick).period.timer.isSome = true ∧
              (history.perform .tick).period.jobs.length = history.period.jobs.length + 1 := by
        rw [isPeriod]
        exact RateMonotonic.timeout_waiting waits
      obtain ⟨state, postponed, timer, jobs⟩ := restarted
      rw [waits, if_neg (fun both => Bool.noConfusion both.1)] at saturations
      refine ⟨⟨?_, ?_, fun _ => timer, fun _ => ?_⟩, Nat.le_trans (Nat.le_of_eq postponed) fits⟩
      · exact fun isExpired =>
          postponed.symm ▸ kept.consistent.expired (state.symm.trans isExpired)
      · exact fun isInactive => absurd (state.symm.trans isInactive) isRunning
      · rw [jobs, postponed, expirations, saturations]
        omega
    | false =>
      have renewed : (history.perform .tick).period.state = .expired ∧
          (history.perform .tick).period.postponedJobs =
              (if history.period.postponedJobs ≠ uint32Max then
                history.period.postponedJobs + 1 else history.period.postponedJobs) ∧
            (history.perform .tick).period.timer.isSome = true ∧
              (history.perform .tick).period.jobs = history.period.jobs := by
        rw [isPeriod, RateMonotonic.timeout_busy (show RateMonotonic.ownerWaits
          { history.period with ticks := history.period.ticks + 1, timer := none } = false
            from waits)]
        exact ⟨rfl, rfl, rfl, rfl⟩
      obtain ⟨state, postponed, timer, jobs⟩ := renewed
      by_cases full : history.period.postponedJobs = uint32Max
      · rw [if_pos ⟨waits, full⟩] at saturations
        rw [if_neg (not_not.mpr full)] at postponed
        refine ⟨⟨fun _ => ?_, ?_, fun _ => timer, fun _ => ?_⟩, Nat.le_trans (Nat.le_of_eq postponed) fits⟩
        · omega
        · exact fun isInactive => nomatch state.symm.trans isInactive
        · rw [jobs, postponed, expirations, saturations]
          omega
      · rw [if_neg fun both => full both.2] at saturations
        rw [if_pos full] at postponed
        refine ⟨⟨fun _ => ?_, ?_, fun _ => timer, fun _ => ?_⟩, ?_⟩
        · omega
        · exact fun isInactive => nomatch state.symm.trans isInactive
        · rw [jobs, postponed, expirations, saturations]
          omega
        · omega

theorem PeriodKept.perform (kept : PeriodKept history) (call : PeriodCall) :
    PeriodKept (history.perform call) ∧ TakesPostponed history call := by
  cases call with
  | period executingIsOwner length => exact kept.period executingIsOwner length
  | cancel executingIsOwner => exact kept.cancel executingIsOwner
  | proceed => exact kept.proceed
  | tick => exact kept.tick
  | waitElsewhere waitFlags returnArgument => exact kept.waitElsewhere waitFlags returnArgument
  | pass wall cpu => exact kept.same id (fun expires => nomatch expires.1) rfl rfl rfl rfl

theorem PeriodHistory.created_kept (ticks uptime cpuTimeUsed : Nat) :
    PeriodKept (created ticks uptime cpuTimeUsed) :=
  ⟨⟨nofun, fun _ => ⟨rfl, rfl⟩, fun isRunning => absurd rfl isRunning,
    fun isRunning => absurd rfl isRunning⟩, Nat.zero_le _⟩

/-- In every interleaving of the calls of the owner, of other threads and of the timer. -/
theorem periodRun_consistent (ticks uptime cpuTimeUsed : Nat) (calls : List PeriodCall) :
    Throughout PeriodHistory.perform PeriodConsistent
        (PeriodHistory.created ticks uptime cpuTimeUsed) calls ∧
      Meets PeriodHistory.perform TakesPostponed
        (PeriodHistory.created ticks uptime cpuTimeUsed) calls := by
  have start := PeriodHistory.created_kept ticks uptime cpuTimeUsed
  have free : Meets PeriodHistory.perform (fun _ _ => True)
      (PeriodHistory.created ticks uptime cpuTimeUsed) calls :=
    meets_of_forall (fun _ _ => trivial) _ _
  constructor
  · refine (throughout_of_preserved start ?_ free).imp fun _ kept => kept.consistent
    exact fun _ call kept _ => (kept.perform call).1
  · refine meets_of_preserved PeriodKept start ?_ ?_ free
    · exact fun _ call kept _ => (kept.perform call).1
    · exact fun _ call kept _ => (kept.perform call).2

end RTContainer.Rtems
