import RTContainer.Score.CgroupSuspension
import RTContainer.Score.ThreadDispatch

/-! The accounting of CPU time. A dispatch charges the executing thread's cgroup
with the ticks since the thread was started, and a period tick refills the
quota. Ticks are counted beside the code, for every cgroup whose chain has the
thread that runs. -/

set_option autoImplicit false

namespace RTContainer.Score

open RTContainer.Rtems Machine Function

variable {Thread : Type} [DecidableEq Thread]

def CgroupSystem.FieldsAgree (cgroups : CgroupSystem Thread) (thread : Thread) : Prop :=
  ∀ block, thread ∈ (cgroups.cgroups block).threads ↔
    cgroups.isAddedToCgroup thread = true ∧ cgroups.cgroup thread = some block

/-- The processor, with the quota that every cgroup had when its period began,
the ticks that its members have executed in the period, and those of them that
the last dispatch knew of. -/
structure CpuAccount (Thread : Type) where
  cpu : PerCpuControl Thread
  quota : ObjectsId → Nat
  executed : ObjectsId → Nat
  settled : ObjectsId → Nat

namespace CpuAccount

variable (account : CpuAccount Thread)

/-- The quota that a cgroup has left. -/
def available (block : ObjectsId) : Nat :=
  (account.cpu.cgroups.cgroups block).cpuQuotaAvailable

def Runs (block : ObjectsId) : Prop :=
  account.cpu.context ∈ (account.cpu.cgroups.cgroups block).threads

instance (account : CpuAccount Thread) (block : ObjectsId) : Decidable (account.Runs block) :=
  inferInstanceAs (Decidable (account.cpu.context ∈ (account.cpu.cgroups.cgroups block).threads))

def recorded (call : PerCpuCall Thread) (after : PerCpuControl Thread) : CpuAccount Thread :=
  match call with
  | .clockTick =>
    { account with
      cpu := after
      executed := fun block =>
        if account.Runs block then account.executed block + 1 else account.executed block }
  | .cpuResumeRoutine block =>
    { cpu := after
      quota := update account.quota block (after.cgroups.cgroups block).cpuQuotaAvailable
      executed := update account.executed block 0
      settled := update account.settled block 0 }
  | .dispatch _ => { account with cpu := after, settled := account.executed }
  | _ => { account with cpu := after }

/-- A run ends at a call that goes through a `NULL` or freed pointer. -/
def step (state : Option (CpuAccount Thread)) (call : PerCpuCall Thread) :
    Option (CpuAccount Thread) :=
  state.bind fun account => (call.perform account.cpu).map (account.recorded call)

/-- What has been consumed of a quota is the time that the members have executed,
up to the quota. Between dispatches the time since the last one is still out. -/
structure Exact (account : CpuAccount Thread) : Prop where
  within : ∀ block, account.available block ≤ account.quota block
  consumed : ∀ block, account.quota block - account.available block =
    min (account.quota block) (account.settled block)
  upToDate : account.cpu.point = .selecting → account.settled = account.executed

/-- No tick has passed since the running thread was started. -/
def JustStarted : Prop :=
  account.cpu.cgroups.lastCpuStartTimestamp account.cpu.context = account.cpu.watchdogTicks

/-- The calls that the accounting allows for. The running thread joins and leaves
a cgroup, and its period ends, when no tick has passed since the thread was
started; it is not taken off a chain without its fields being cleared. The heir
of a dispatch is on the chain that its fields name, and it is ready and not yet
suspended where its cgroup is out of quota. A dispatch that goes on behind a
context switch does so before a tick. -/
def Allows : PerCpuCall Thread → Prop
  | .addThread _ thread workspace =>
    workspace = true → thread = account.cpu.context →
      account.JustStarted ∧ ∀ block, ¬ account.Runs block
  | .removeThread block thread => thread = account.cpu.context → ¬ account.Runs block
  | .leaveThread block thread =>
    thread = account.cpu.context → account.cpu.cgroups.cgroup thread = some block →
      account.Runs block →
        account.JustStarted ∧ thread ∉ (account.cpu.cgroups.cgroups block).threads.erase thread
  | .cpuResumeRoutine block => account.Runs block → account.JustStarted
  | .selectHeir _ =>
    account.cpu.cgroups.FieldsAgree account.cpu.heir ∧
      ∀ block, account.cpu.heir ∈ (account.cpu.cgroups.cgroups block).threads →
        account.available block = 0 →
          statesIsReady (account.cpu.cgroups.currentState account.cpu.heir) = true ∧
            (account.cpu.cgroups.cgroups block).state &&& statesWaitingForCgroupCpuQuota = 0
  | .afterSwitch =>
    account.cpu.dispatchNecessary = true → ∀ block, account.Runs block → account.JustStarted
  | _ => True

/-- The ticks since the running thread was started. -/
def unsettled (block : ObjectsId) : Nat :=
  if account.Runs block then
    account.cpu.watchdogTicks - account.cpu.cgroups.lastCpuStartTimestamp account.cpu.context
  else 0

/-- The running thread is the executing one, its fields say on which chain it is,
and the ticks since it was started are those that are still out. -/
structure Running (account : CpuAccount Thread) : Prop where
  executing : account.cpu.executing = account.cpu.context
  fields : account.cpu.cgroups.FieldsAgree account.cpu.context
  started : ∀ block, account.Runs block →
    account.cpu.cgroups.lastCpuStartTimestamp account.cpu.context ≤ account.cpu.watchdogTicks
  out : ∀ block, account.executed block = account.settled block + account.unsettled block

/-- What every allowed call keeps. -/
structure Balanced (account : CpuAccount Thread) : Prop extends Exact account where
  localExecuting : account.cpu.localExecuting = account.cpu.context
  running : account.cpu.point ≠ .selecting → Running account

/-- A processor outside of a dispatch that runs a thread of no cgroup, at the
beginning of a period of every cgroup. -/
structure AtRest (account : CpuAccount Thread) : Prop where
  outside : account.cpu.point = .outside
  executing : account.cpu.executing = account.cpu.context
  localExecuting : account.cpu.localExecuting = account.cpu.context
  notAdded : account.cpu.cgroups.isAddedToCgroup account.cpu.context = false
  alone : ∀ block, ¬ account.Runs block
  full : ∀ block, account.available block = account.quota block
  executed : ∀ block, account.executed block = 0
  settled : ∀ block, account.settled block = 0

end CpuAccount

namespace CgroupSystem

structure SameAccounts (system after : CgroupSystem Thread) : Prop where
  threads : ∀ block, (after.cgroups block).threads = (system.cgroups block).threads
  available : ∀ block,
    (after.cgroups block).cpuQuotaAvailable = (system.cgroups block).cpuQuotaAvailable
  cgroup : after.cgroup = system.cgroup
  isAdded : after.isAddedToCgroup = system.isAddedToCgroup
  stamp : after.lastCpuStartTimestamp = system.lastCpuStartTimestamp

variable {system after : CgroupSystem Thread} {block : ObjectsId} {thread : Thread}

section

omit [DecidableEq Thread]

theorem SameAccounts.refl (system : CgroupSystem Thread) : system.SameAccounts system :=
  ⟨fun _ => rfl, fun _ => rfl, rfl, rfl, rfl⟩

theorem SameAccounts.trans {third : CgroupSystem Thread} (first : system.SameAccounts after)
    (second : after.SameAccounts third) : system.SameAccounts third where
  threads block := (second.threads block).trans (first.threads block)
  available block := (second.available block).trans (first.available block)
  cgroup := second.cgroup.trans first.cgroup
  isAdded := second.isAdded.trans first.isAdded
  stamp := second.stamp.trans first.stamp

theorem sameAccounts_store {control : CoreCgroupControl Thread}
    (threads : control.threads = (system.cgroups block).threads)
    (available : control.cpuQuotaAvailable = (system.cgroups block).cpuQuotaAvailable) :
    system.SameAccounts (system.store block control) where
  threads := by
    intro other
    by_cases same : other = block
    · subst other
      rw [store_cgroups_self, threads]
    · rw [store_cgroups_of_ne same]
  available := by
    intro other
    by_cases same : other = block
    · subst other
      rw [store_cgroups_self, available]
    · rw [store_cgroups_of_ne same]
  cgroup := rfl
  isAdded := rfl
  stamp := rfl

theorem SameAccounts.setCurrentState (same : system.SameAccounts after)
    (currentState : Thread → BitVec 32) :
    system.SameAccounts { after with currentState := currentState } :=
  ⟨same.threads, same.available, same.cgroup, same.isAdded, same.stamp⟩

end

theorem sameAccounts_suspend (theCgroup : Option ObjectsId) (waitState : BitVec 32) :
    system.SameAccounts (system.coreCgroupSuspend theCgroup waitState).1 := by
  unfold coreCgroupSuspend
  cases theCgroup with
  | none => exact .refl system
  | some block =>
    simp only
    split
    · exact .refl system
    · apply SameAccounts.setCurrentState
      exact sameAccounts_store rfl rfl

theorem sameAccounts_resume (theCgroup : Option ObjectsId) (waitState : BitVec 32) :
    system.SameAccounts (system.coreCgroupResume theCgroup waitState).1 := by
  unfold coreCgroupResume
  cases theCgroup with
  | none => exact .refl system
  | some block =>
    have stored : system.SameAccounts (system.store block { system.cgroups block with
        state := (system.cgroups block).state &&& ~~~waitState }) := sameAccounts_store rfl rfl
    simp only
    split
    · exact .refl system
    · split
      · exact .refl system
      · split
        · exact stored.setCurrentState _
        · exact stored

theorem sameAccounts_cpuSuspendRoutine (block : ObjectsId) :
    system.SameAccounts (system.cpuSuspendRoutine block) := by
  have cancelled : system.SameAccounts (system.cancelCpuSuspendWatchdog block) :=
    sameAccounts_store rfl rfl
  exact cancelled.trans (sameAccounts_suspend (some block) _)

theorem sameAccounts_pause (container : Option (RtemsContainer Thread)) :
    system.SameAccounts (rtemsUnifiedContainerPause system container).1 := by
  unfold rtemsUnifiedContainerPause
  cases container with
  | none => exact .refl system
  | some container =>
    simp only
    split
    · exact .refl system
    · exact sameAccounts_suspend _ _

theorem sameAccounts_unifiedResume (container : Option (RtemsContainer Thread)) :
    system.SameAccounts (rtemsUnifiedContainerResume system container).1 := by
  unfold rtemsUnifiedContainerResume
  cases container with
  | none => exact .refl system
  | some container =>
    simp only
    split
    · exact .refl system
    · exact sameAccounts_resume _ _

theorem consume_available (block other : ObjectsId) (delta : Nat) :
    ((system.coreCgroupConsumeCpuQuota block delta).cgroups other).cpuQuotaAvailable =
      if other = block then (system.cgroups block).cpuQuotaAvailable - delta
      else (system.cgroups other).cpuQuotaAvailable := by
  unfold coreCgroupConsumeCpuQuota
  simp only
  split
  · rename_i exhausted
    rw [(sameAccounts_suspend (some block) _).available]
    split
    · rename_i same
      subst other
      rw [store_cgroups_self]
      exact (Nat.sub_eq_zero_of_le exhausted).symm
    · rename_i different
      rw [store_cgroups_of_ne different]
  · split
    · rename_i same
      subst other
      rw [store_cgroups_self]
    · rename_i different
      rw [store_cgroups_of_ne different]

end CgroupSystem

namespace CpuAccount

variable {account : CpuAccount Thread} {after : PerCpuControl Thread} {block : ObjectsId}

structure Quiet (before after : PerCpuControl Thread) : Prop where
  point : after.point = before.point
  executing : after.executing = before.executing
  context : after.context = before.context
  localExecuting : after.localExecuting = before.localExecuting
  watchdogTicks : after.watchdogTicks = before.watchdogTicks
  available : ∀ block,
    (after.cgroups.cgroups block).cpuQuotaAvailable =
      (before.cgroups.cgroups block).cpuQuotaAvailable
  member : ∀ block, before.context ∈ (after.cgroups.cgroups block).threads ↔
    before.context ∈ (before.cgroups.cgroups block).threads
  cgroup : after.cgroups.cgroup before.context = before.cgroups.cgroup before.context
  isAdded : after.cgroups.isAddedToCgroup before.context =
    before.cgroups.isAddedToCgroup before.context
  stamp : after.cgroups.lastCpuStartTimestamp before.context =
    before.cgroups.lastCpuStartTimestamp before.context

omit [DecidableEq Thread] in
theorem quiet_of_sameAccounts {before : PerCpuControl Thread}
    (same : before.cgroups.SameAccounts after.cgroups) (point : after.point = before.point)
    (executing : after.executing = before.executing) (context : after.context = before.context)
    (localExecuting : after.localExecuting = before.localExecuting)
    (watchdogTicks : after.watchdogTicks = before.watchdogTicks) : Quiet before after where
  point := point
  executing := executing
  context := context
  localExecuting := localExecuting
  watchdogTicks := watchdogTicks
  available := same.available
  member block := by rw [same.threads]
  cgroup := by rw [same.cgroup]
  isAdded := by rw [same.isAdded]
  stamp := by rw [same.stamp]

theorem Balanced.quiet (balanced : account.Balanced) (quiet : Quiet account.cpu after) :
    ({ account with cpu := after } : CpuAccount Thread).Balanced := by
  have runs : ∀ block, ({ account with cpu := after } : CpuAccount Thread).Runs block ↔
      account.Runs block := by
    intro block
    unfold Runs
    rw [quiet.context]
    exact quiet.member block
  refine {
    within := ?within
    consumed := ?consumed
    upToDate := ?upToDate
    localExecuting := ?localExecuting
    running := ?running }
  case within =>
    intro block
    show (after.cgroups.cgroups block).cpuQuotaAvailable ≤ _
    rw [quiet.available]
    exact balanced.within block
  case consumed =>
    intro block
    show _ - (after.cgroups.cgroups block).cpuQuotaAvailable = _
    rw [quiet.available]
    exact balanced.consumed block
  case upToDate =>
    intro selecting
    exact balanced.upToDate (quiet.point ▸ selecting)
  case localExecuting =>
    show after.localExecuting = after.context
    rw [quiet.localExecuting, quiet.context, balanced.localExecuting]
  case running =>
    intro elsewhere
    have running := balanced.running (quiet.point ▸ elsewhere)
    constructor
    case executing =>
      show after.executing = after.context
      rw [quiet.executing, quiet.context, running.executing]
    case fields =>
      intro block
      show after.context ∈ _ ↔ _
      rw [quiet.context, quiet.member, running.fields block, quiet.isAdded, quiet.cgroup]
    case started =>
      intro block isRunning
      show after.cgroups.lastCpuStartTimestamp after.context ≤ after.watchdogTicks
      rw [quiet.context, quiet.stamp, quiet.watchdogTicks]
      exact running.started block ((runs block).mp isRunning)
    case out =>
      intro block
      have out := running.out block
      unfold unsettled at out ⊢
      simp only [runs block]
      rw [quiet.context, quiet.stamp, quiet.watchdogTicks]
      exact out

theorem Running.of_justStarted (executing : account.cpu.executing = account.cpu.context)
    (fields : account.cpu.cgroups.FieldsAgree account.cpu.context)
    (started : ∀ block, account.Runs block → account.JustStarted)
    (settled : ∀ block, account.executed block = account.settled block) : Running account where
  executing := executing
  fields := fields
  started := fun block runs => Nat.le_of_eq (started block runs)
  out := by
    intro block
    rw [settled block, unsettled]
    split
    · rename_i runs
      rw [started block runs, Nat.sub_self, Nat.add_zero]
    · rfl

theorem Running.settled_of_justStarted (running : Running account)
    (started : account.Runs block → account.JustStarted) :
    account.executed block = account.settled block := by
  have out := running.out block
  unfold unsettled at out
  split at out
  · rename_i runs
    rw [started runs, Nat.sub_self, Nat.add_zero] at out
    exact out
  · exact out

theorem Balanced.clockTick (balanced : account.Balanced)
    (elsewhere : account.cpu.point ≠ .selecting) :
    (account.recorded .clockTick
      { account.cpu with watchdogTicks := account.cpu.watchdogTicks + 1 }).Balanced := by
  have running := balanced.running elsewhere
  refine { balanced with
    upToDate := fun selecting => absurd selecting elsewhere
    running := fun _ => ?_ }
  refine { running with
    started := fun block isRunning => Nat.le_succ_of_le (running.started block isRunning)
    out := ?_ }
  intro block
  have out := running.out block
  by_cases runs : account.Runs block
  · have started := running.started block runs
    have runsAfter : (account.recorded .clockTick
        { account.cpu with watchdogTicks := account.cpu.watchdogTicks + 1 }).Runs block := runs
    rw [unsettled, if_pos runs] at out
    rw [unsettled, if_pos runsAfter]
    simp only [recorded, if_pos runs]
    omega
  · have stops : ¬ (account.recorded .clockTick
        { account.cpu with watchdogTicks := account.cpu.watchdogTicks + 1 }).Runs block := runs
    rw [unsettled, if_neg runs] at out
    rw [unsettled, if_neg stops]
    simp only [recorded, if_neg runs]
    exact out

theorem resumeRoutine_accounts (cgroups : CgroupSystem Thread)
    (block other : ObjectsId) :
    ((cgroups.cpuResumeRoutine block).cgroups other).threads = (cgroups.cgroups other).threads ∧
      (other ≠ block → ((cgroups.cpuResumeRoutine block).cgroups other).cpuQuotaAvailable =
        (cgroups.cgroups other).cpuQuotaAvailable) := by
  have resumed : cgroups.SameAccounts
      (cgroups.coreCgroupResume (some block) statesWaitingForCgroupCpuQuota).1 :=
    CgroupSystem.sameAccounts_resume (some block) _
  unfold CgroupSystem.cpuResumeRoutine CgroupSystem.setCpuResumeWatchdog
  by_cases same : other = block
  · subst other
    refine ⟨?_, fun different => absurd rfl different⟩
    rw [CgroupSystem.store_cgroups_self, resumed.threads]
  · rw [CgroupSystem.store_cgroups_of_ne same]
    exact ⟨resumed.threads other, fun _ => resumed.available other⟩

theorem Balanced.cpuResumeRoutine (balanced : account.Balanced)
    (elsewhere : account.cpu.point ≠ .selecting)
    (started : account.Runs block → account.JustStarted) :
    (account.recorded (.cpuResumeRoutine block)
      { account.cpu with cgroups := account.cpu.cgroups.cpuResumeRoutine block }).Balanced := by
  have running := balanced.running elsewhere
  have accounts := resumeRoutine_accounts account.cpu.cgroups block
  have resumed : account.cpu.cgroups.SameAccounts
      (account.cpu.cgroups.coreCgroupResume (some block) statesWaitingForCgroupCpuQuota).1 :=
    CgroupSystem.sameAccounts_resume (some block) _
  have quotas : ∀ other,
      ((account.cpu.cgroups.cpuResumeRoutine block).cgroups other).cpuQuotaAvailable ≤
          update account.quota block
            ((account.cpu.cgroups.cpuResumeRoutine block).cgroups block).cpuQuotaAvailable other ∧
        update account.quota block
            ((account.cpu.cgroups.cpuResumeRoutine block).cgroups block).cpuQuotaAvailable other -
          ((account.cpu.cgroups.cpuResumeRoutine block).cgroups other).cpuQuotaAvailable =
        min (update account.quota block
            ((account.cpu.cgroups.cpuResumeRoutine block).cgroups block).cpuQuotaAvailable other)
          (update account.settled block 0 other) := by
    intro other
    by_cases same : other = block
    · subst other
      simp
    · rw [update_of_ne same, update_of_ne same, (accounts other).2 same]
      exact ⟨balanced.within other, balanced.consumed other⟩
  refine {
    within := fun other => (quotas other).1
    consumed := fun other => (quotas other).2
    upToDate := fun selecting => absurd selecting elsewhere
    localExecuting := balanced.localExecuting
    running := fun _ => ?_ }
  have runs : ∀ other, (account.recorded (.cpuResumeRoutine block)
      { account.cpu with cgroups := account.cpu.cgroups.cpuResumeRoutine block }).Runs other ↔
        account.Runs other := by
    intro other
    show account.cpu.context ∈ ((account.cpu.cgroups.cpuResumeRoutine block).cgroups other).threads ↔
      account.Runs other
    rw [(accounts other).1]
    exact Iff.rfl
  have stamp : (account.cpu.cgroups.cpuResumeRoutine block).lastCpuStartTimestamp =
      account.cpu.cgroups.lastCpuStartTimestamp := resumed.stamp
  refine {
    executing := running.executing
    fields := ?_
    started := ?_
    out := ?_ }
  · intro other
    show account.cpu.context ∈ ((account.cpu.cgroups.cpuResumeRoutine block).cgroups other).threads ↔
      (account.cpu.cgroups.cpuResumeRoutine block).isAddedToCgroup account.cpu.context = true ∧
        (account.cpu.cgroups.cpuResumeRoutine block).cgroup account.cpu.context = some other
    rw [(accounts other).1]
    have isAdded : (account.cpu.cgroups.cpuResumeRoutine block).isAddedToCgroup =
        account.cpu.cgroups.isAddedToCgroup := resumed.isAdded
    have cgroup : (account.cpu.cgroups.cpuResumeRoutine block).cgroup =
        account.cpu.cgroups.cgroup := resumed.cgroup
    rw [isAdded, cgroup]
    exact running.fields other
  · intro other isRunning
    show (account.cpu.cgroups.cpuResumeRoutine block).lastCpuStartTimestamp account.cpu.context ≤ _
    rw [stamp]
    exact running.started other ((runs other).mp isRunning)
  · intro other
    have out := running.out other
    unfold unsettled at out ⊢
    simp only [runs other]
    show update account.executed block 0 other =
      update account.settled block 0 other + if account.Runs other then
        account.cpu.watchdogTicks -
          (account.cpu.cgroups.cpuResumeRoutine block).lastCpuStartTimestamp account.cpu.context
      else 0
    rw [stamp]
    by_cases same : other = block
    · subst other
      rw [update_self, update_self]
      split
      · rename_i isRunning
        have isStarted := started isRunning
        unfold JustStarted at isStarted
        omega
      · rfl
    · rw [update_of_ne same, update_of_ne same]
      exact out

theorem addThread_threads (cgroups : CgroupSystem Thread) (block other : ObjectsId)
    (thread : Thread) :
    ((cgroups.coreCgroupAddThread block thread).cgroups other).threads =
        (if other = block then (cgroups.cgroups other).threads ++ [thread]
          else (cgroups.cgroups other).threads) ∧
      ((cgroups.coreCgroupAddThread block thread).cgroups other).cpuQuotaAvailable =
        (cgroups.cgroups other).cpuQuotaAvailable := by
  unfold CgroupSystem.coreCgroupAddThread
  simp only
  by_cases same : other = block
  · subst other
    rw [CgroupSystem.store_cgroups_self, if_pos rfl]
    exact ⟨rfl, rfl⟩
  · rw [CgroupSystem.store_cgroups_of_ne same, if_neg same]
    exact ⟨rfl, rfl⟩

/-- The running thread may join a cgroup when its time has just started. -/
theorem Balanced.joinRunning (balanced : account.Balanced) (outside : account.cpu.point = .outside)
    (started : account.JustStarted) (alone : ∀ other, ¬ account.Runs other) :
    ({ account with cpu := { account.cpu with
        cgroups := account.cpu.cgroups.coreCgroupAddThread block account.cpu.context } } :
      CpuAccount Thread).Balanced := by
  have elsewhere : account.cpu.point ≠ .selecting := by simp [outside]
  have running := balanced.running elsewhere
  have accounts := fun other => addThread_threads account.cpu.cgroups block other account.cpu.context
  have runs : ∀ other, account.cpu.context ∈
      ((account.cpu.cgroups.coreCgroupAddThread block account.cpu.context).cgroups other).threads ↔
        other = block := by
    intro other
    rw [(accounts other).1]
    by_cases same : other = block
    · rw [if_pos same]
      simp [same]
    · rw [if_neg same]
      exact iff_of_false (alone other) same
  refine {
    within := ?_
    consumed := ?_
    upToDate := fun selecting => absurd selecting elsewhere
    localExecuting := balanced.localExecuting
    running := fun _ => ?_ }
  · intro other
    show ((account.cpu.cgroups.coreCgroupAddThread block account.cpu.context).cgroups
      other).cpuQuotaAvailable ≤ _
    rw [(accounts other).2]
    exact balanced.within other
  · intro other
    show _ - ((account.cpu.cgroups.coreCgroupAddThread block account.cpu.context).cgroups
      other).cpuQuotaAvailable = _
    rw [(accounts other).2]
    exact balanced.consumed other
  · apply Running.of_justStarted
    · exact running.executing
    · intro other
      refine (runs other).trans ?_
      simp only [CgroupSystem.coreCgroupAddThread, update_self, Option.some.injEq, true_and]
      exact eq_comm
    · exact fun _ _ => started
    · exact fun other => running.settled_of_justStarted fun runs => absurd runs (alone other)

variable {thread highestReady : Thread} {cpu : PerCpuControl Thread} {cgroups : CgroupSystem Thread}

theorem Balanced.addThread {workspace : Bool} (balanced : account.Balanced)
    (outside : account.cpu.point = .outside)
    (allows : account.Allows (.addThread block thread workspace)) :
    ({ account with cpu := { account.cpu with
        cgroups := if workspace then account.cpu.cgroups.coreCgroupAddThread block thread
          else account.cpu.cgroups } } : CpuAccount Thread).Balanced := by
  cases workspace with
  | false => exact balanced
  | true =>
    by_cases same : thread = account.cpu.context
    · subst thread
      obtain ⟨started, alone⟩ := allows rfl rfl
      exact balanced.joinRunning outside started alone
    · apply balanced.quiet
      have accounts := fun other => addThread_threads account.cpu.cgroups block other thread
      refine {
        point := rfl
        executing := rfl
        context := rfl
        localExecuting := rfl
        watchdogTicks := rfl
        available := fun other => (accounts other).2
        member := ?_
        cgroup := ?_
        isAdded := ?_
        stamp := rfl }
      · intro other
        show account.cpu.context ∈
          ((account.cpu.cgroups.coreCgroupAddThread block thread).cgroups other).threads ↔ _
        rw [(accounts other).1]
        split
        · simp [Ne.symm same]
        · rfl
      · exact update_of_ne (Ne.symm same) _ _
      · exact update_of_ne (Ne.symm same) _ _

theorem removeThread_accounts (cgroups : CgroupSystem Thread) (block : ObjectsId)
    (thread : Thread) :
    let removed := (cgroups.coreCgroupRemoveThread block thread).getD cgroups
    (∀ other, (removed.cgroups other).threads =
        if other = block then (cgroups.cgroups other).threads.erase thread
        else (cgroups.cgroups other).threads) ∧
      (∀ other, (removed.cgroups other).cpuQuotaAvailable =
        (cgroups.cgroups other).cpuQuotaAvailable) ∧
      removed.cgroup = cgroups.cgroup ∧ removed.isAddedToCgroup = cgroups.isAddedToCgroup ∧
      removed.lastCpuStartTimestamp = cgroups.lastCpuStartTimestamp := by
  intro removed
  by_cases onChain : thread ∈ (cgroups.cgroups block).threads
  · have isRemoved : removed = cgroups.store block { cgroups.cgroups block with
        threads := (cgroups.cgroups block).threads.erase thread
        threadCount := ((cgroups.cgroups block).threadCount + (2 ^ 32 - 1)) % 2 ^ 32 } := by
      simp [removed, CgroupSystem.coreCgroupRemoveThread, onChain]
    rw [isRemoved]
    refine ⟨?_, ?_, rfl, rfl, rfl⟩
    · intro other
      by_cases same : other = block
      · subst other
        rw [CgroupSystem.store_cgroups_self, if_pos rfl]
      · rw [CgroupSystem.store_cgroups_of_ne same, if_neg same]
    · intro other
      by_cases same : other = block
      · subst other
        rw [CgroupSystem.store_cgroups_self]
      · rw [CgroupSystem.store_cgroups_of_ne same]
  · have isRemoved : removed = cgroups := by
      simp [removed, CgroupSystem.coreCgroupRemoveThread, onChain]
    rw [isRemoved]
    refine ⟨?_, fun _ => rfl, rfl, rfl, rfl⟩
    intro other
    by_cases same : other = block
    · subst other
      rw [if_pos rfl, List.erase_of_not_mem onChain]
    · rw [if_neg same]

theorem Balanced.removeThread (balanced : account.Balanced)
    (allows : account.Allows (.removeThread block thread)) :
    ({ account with cpu := { account.cpu with
        cgroups := (account.cpu.cgroups.coreCgroupRemoveThread block thread).getD
          account.cpu.cgroups } } : CpuAccount Thread).Balanced := by
  obtain ⟨threads, available, cgroup, isAdded, stamp⟩ :=
    removeThread_accounts account.cpu.cgroups block thread
  apply balanced.quiet
  refine {
    point := rfl
    executing := rfl
    context := rfl
    localExecuting := rfl
    watchdogTicks := rfl
    available := available
    member := ?_
    cgroup := congrFun cgroup _
    isAdded := congrFun isAdded _
    stamp := congrFun stamp _ }
  intro other
  simp only [threads]
  split
  · rename_i isBlock
    subst other
    by_cases same : thread = account.cpu.context
    · have absent : account.cpu.context ∉ (account.cpu.cgroups.cgroups block).threads :=
        allows same
      exact iff_of_false (fun member => absent (List.mem_of_mem_erase member)) absent
    · exact List.mem_erase_of_ne (Ne.symm same)
  · rfl

/-- The running thread may leave when nothing of its time is uncharged. -/
theorem Balanced.leaveRunning (balanced : account.Balanced)
    (outside : account.cpu.point = .outside)
    (named : account.cpu.cgroups.cgroup account.cpu.context = some block)
    (allows : account.Runs block → account.JustStarted ∧
      account.cpu.context ∉ (account.cpu.cgroups.cgroups block).threads.erase account.cpu.context) :
    ({ account with cpu := { account.cpu with
        cgroups := ((account.cpu.cgroups.coreCgroupRemoveThread block account.cpu.context).getD
          account.cpu.cgroups).clearThread account.cpu.context } } : CpuAccount Thread).Balanced := by
  have elsewhere : account.cpu.point ≠ .selecting := by simp [outside]
  have running := balanced.running elsewhere
  obtain ⟨threads, available, -, -, -⟩ :=
    removeThread_accounts account.cpu.cgroups block account.cpu.context
  have gone : ∀ other, account.cpu.context ∉ ((((account.cpu.cgroups.coreCgroupRemoveThread block
      account.cpu.context).getD account.cpu.cgroups).clearThread account.cpu.context).cgroups
        other).threads := by
    intro other
    show account.cpu.context ∉ (((account.cpu.cgroups.coreCgroupRemoveThread block
      account.cpu.context).getD account.cpu.cgroups).cgroups other).threads
    rw [threads]
    by_cases same : other = block
    · subst other
      rw [if_pos rfl]
      by_cases runs : account.Runs block
      · exact (allows runs).2
      · exact fun member => runs (List.mem_of_mem_erase member)
    · rw [if_neg same]
      intro member
      have fields := (running.fields other).mp member
      exact same (Option.some.inj (fields.2.symm.trans named))
  have settledNow : ∀ other, account.executed other = account.settled other := by
    intro other
    apply running.settled_of_justStarted
    intro runs
    have fields := (running.fields other).mp runs
    have same : other = block := Option.some.inj (fields.2.symm.trans named)
    exact (allows (same ▸ runs)).1
  refine {
    within := ?_
    consumed := ?_
    upToDate := fun selecting => absurd selecting elsewhere
    localExecuting := balanced.localExecuting
    running := fun _ => ?_ }
  · intro other
    exact (available other).le.trans (balanced.within other)
  · intro other
    refine Eq.trans ?_ (balanced.consumed other)
    exact congrArg _ (available other)
  · apply Running.of_justStarted
    · exact running.executing
    · intro other
      refine iff_of_false (gone other) ?_
      simp [CgroupSystem.clearThread]
    · exact fun other isRunning => absurd isRunning (gone other)
    · exact settledNow

theorem Balanced.leaveThread (balanced : account.Balanced) (outside : account.cpu.point = .outside)
    (allows : account.Allows (.leaveThread block thread)) :
    ({ account with cpu := { account.cpu with
        cgroups := account.cpu.cgroups.leaveThread block thread } } :
      CpuAccount Thread).Balanced := by
  unfold CgroupSystem.leaveThread
  by_cases named : account.cpu.cgroups.cgroup thread = some block
  · rw [if_pos named]
    by_cases same : thread = account.cpu.context
    · subst thread
      exact balanced.leaveRunning outside named (allows rfl named)
    · obtain ⟨threads, available, cgroup, isAdded, stamp⟩ :=
        removeThread_accounts account.cpu.cgroups block thread
      apply balanced.quiet
      refine {
        point := rfl
        executing := rfl
        context := rfl
        localExecuting := rfl
        watchdogTicks := rfl
        available := available
        member := ?_
        cgroup := ?_
        isAdded := ?_
        stamp := congrFun stamp _ }
      · intro other
        show account.cpu.context ∈ (((account.cpu.cgroups.coreCgroupRemoveThread block
          thread).getD account.cpu.cgroups).cgroups other).threads ↔ _
        rw [threads]
        split
        · rename_i isBlock
          subst other
          exact List.mem_erase_of_ne (Ne.symm same)
        · rfl
      · refine (update_of_ne (Ne.symm same) _ _).trans ?_
        exact congrFun cgroup _
      · refine (update_of_ne (Ne.symm same) _ _).trans ?_
        exact congrFun isAdded _
  · rw [if_neg named]
    exact balanced

omit [DecidableEq Thread] in
private theorem charge_exact {available quota settled : Nat} (within : available ≤ quota)
    (consumed : quota - available = min quota settled) (delta : Nat) :
    available - delta ≤ quota ∧ quota - (available - delta) = min quota (settled + delta) := by
  omega

omit [DecidableEq Thread] in
theorem block_kept (cpu : PerCpuControl Thread) (cgroups : CgroupSystem Thread)
    (highestReady : Thread) :
    (cpu.block cgroups highestReady).cgroups = cgroups ∧
      (cpu.block cgroups highestReady).point = cpu.point ∧
      (cpu.block cgroups highestReady).executing = cpu.executing ∧
      (cpu.block cgroups highestReady).context = cpu.context ∧
      (cpu.block cgroups highestReady).localExecuting = cpu.localExecuting ∧
      (cpu.block cgroups highestReady).watchdogTicks = cpu.watchdogTicks := by
  unfold PerCpuControl.block
  split
  · exact ⟨rfl, rfl, rfl, rfl, rfl, rfl⟩
  · exact ⟨rfl, rfl, rfl, rfl, rfl, rfl⟩

theorem Balanced.settle (balanced : account.Balanced) (elsewhere : account.cpu.point ≠ .selecting)
    (selecting : after.point = .selecting) (isLocal : after.localExecuting = after.context)
    (charged : ∀ block, (after.cgroups.cgroups block).cpuQuotaAvailable =
      account.available block - account.unsettled block) :
    (account.recorded (.dispatch highestReady) after).Balanced := by
  have running := balanced.running elsewhere
  have charges := fun block =>
    charge_exact (balanced.within block) (balanced.consumed block) (account.unsettled block)
  refine {
    within := ?_
    consumed := ?_
    upToDate := fun _ => rfl
    localExecuting := isLocal
    running := fun elsewhere => absurd selecting elsewhere }
  · intro block
    exact (charged block).le.trans (charges block).1
  · intro block
    show account.quota block - (after.cgroups.cgroups block).cpuQuotaAvailable =
      min (account.quota block) (account.executed block)
    rw [charged block, running.out block]
    exact (charges block).2

theorem threadDoDispatch_cases (result : cpu.threadDoDispatch highestReady = some after) :
    after.point = .selecting ∧ after.localExecuting = cpu.executing ∧
      after.context = cpu.context ∧
      ((cpu.cgroups.isAddedToCgroup cpu.executing = false ∧ after.cgroups = cpu.cgroups) ∨
        ∃ cg, cpu.cgroups.isAddedToCgroup cpu.executing = true ∧
          cpu.cgroups.cgroup cpu.executing = some cg ∧
          after.cgroups = (cpu.cgroups.coreCgroupConsumeCpuQuota cg (cpu.watchdogTicks -
            cpu.cgroups.lastCpuStartTimestamp cpu.executing)).cancelCpuSuspendWatchdog cg) := by
  unfold PerCpuControl.threadDoDispatch at result
  simp only at result
  cases added : cpu.cgroups.isAddedToCgroup cpu.executing with
  | false =>
    rw [added] at result
    cases result
    exact ⟨rfl, rfl, rfl, .inl ⟨rfl, rfl⟩⟩
  | true =>
    rw [added, if_pos rfl] at result
    obtain ⟨cg, named, rfl⟩ := Option.map_eq_some_iff.mp result
    obtain ⟨cgroups, point, -, context, isLocal, -⟩ := block_kept { cpu with
      localExecuting := cpu.executing, point := .selecting } ((cpu.cgroups.coreCgroupConsumeCpuQuota
        cg (cpu.watchdogTicks -
          cpu.cgroups.lastCpuStartTimestamp cpu.executing)).cancelCpuSuspendWatchdog cg) highestReady
    exact ⟨point, isLocal, context, .inr ⟨cg, rfl, named, cgroups⟩⟩

theorem Balanced.dispatch (balanced : account.Balanced) (outside : account.cpu.point = .outside)
    (result : account.cpu.threadDoDispatch highestReady = some after) :
    (account.recorded (.dispatch highestReady) after).Balanced := by
  have elsewhere : account.cpu.point ≠ .selecting := by simp [outside]
  have running := balanced.running elsewhere
  obtain ⟨point, isLocal, context, charge⟩ := threadDoDispatch_cases result
  apply balanced.settle elsewhere point
  · rw [isLocal, context, running.executing]
  · intro block
    rw [running.executing] at charge
    cases charge with
    | inl free =>
      have stops : ¬ account.Runs block := by
        intro runs
        exact absurd ((running.fields block).mp runs).1 (by simp [free.1])
      rw [free.2, unsettled, if_neg stops]
      rfl
    | inr member =>
      obtain ⟨cg, added, named, charged⟩ := member
      have cancelled : ∀ system : CgroupSystem Thread,
          ((system.cancelCpuSuspendWatchdog cg).cgroups block).cpuQuotaAvailable =
            (system.cgroups block).cpuQuotaAvailable := by
        intro system
        have same : system.SameAccounts (system.cancelCpuSuspendWatchdog cg) :=
          CgroupSystem.sameAccounts_store rfl rfl
        exact same.available block
      rw [charged, cancelled, CgroupSystem.consume_available]
      by_cases same : block = cg
      · subst block
        have runs : account.Runs cg := (running.fields cg).mpr ⟨added, named⟩
        rw [if_pos rfl, unsettled, if_pos runs]
        rfl
      · have stops : ¬ account.Runs block := by
          intro runs
          have fields := (running.fields block).mp runs
          exact same (Option.some.inj (fields.2.symm.trans named))
        rw [if_neg same, unsettled, if_neg stops]
        rfl

theorem selectHeir_cases (result : cpu.selectHeir highestReady = some after) :
    (cpu.cgroups.isAddedToCgroup cpu.heir = false ∧
        after = cpu.threadGetHeirAndMakeItExecuting.contextSwitch cpu.heir) ∨
      ∃ cg, cpu.cgroups.isAddedToCgroup cpu.heir = true ∧
        cpu.cgroups.cgroup cpu.heir = some cg ∧
        (((cpu.cgroups.cgroups cg).cpuQuotaAvailable = 0 ∧
            after = (cpu.threadGetHeirAndMakeItExecuting.block (cpu.cgroups.coreCgroupSuspend
              (some cg) statesWaitingForCgroupCpuQuota).1 highestReady).whileDispatchNecessary) ∨
          ((cpu.cgroups.cgroups cg).cpuQuotaAvailable ≠ 0 ∧
            after = (cpu.threadGetHeirAndMakeItExecuting.startMember cg cpu.heir).contextSwitch
              cpu.heir)) := by
  unfold PerCpuControl.selectHeir at result
  simp only at result
  cases added : cpu.cgroups.isAddedToCgroup cpu.heir with
  | false =>
    rw [added] at result
    cases result
    exact .inl ⟨rfl, rfl⟩
  | true =>
    rw [added, if_pos rfl] at result
    obtain ⟨cg, named, rfl⟩ := Option.map_eq_some_iff.mp result
    refine .inr ⟨cg, rfl, named, ?_⟩
    split
    · rename_i empty
      exact .inl ⟨empty, rfl⟩
    · rename_i filled
      exact .inr ⟨filled, rfl⟩

theorem contextSwitch_kept (cpu : PerCpuControl Thread) (heir : Thread)
    (isLocal : cpu.localExecuting = cpu.context) :
    (cpu.contextSwitch heir).point ≠ .selecting ∧ (cpu.contextSwitch heir).context = heir ∧
      (cpu.contextSwitch heir).localExecuting = heir ∧
      (cpu.contextSwitch heir).executing = cpu.executing ∧
      (cpu.contextSwitch heir).cgroups = cpu.cgroups ∧
      (cpu.contextSwitch heir).watchdogTicks = cpu.watchdogTicks := by
  unfold PerCpuControl.contextSwitch
  split
  · rename_i same
    exact ⟨nofun, isLocal ▸ same.symm, same.symm, rfl, rfl, rfl⟩
  · exact ⟨nofun, rfl, rfl, rfl, rfl, rfl⟩

/-- The accounting goes over to the heir, whose time starts at the switch. -/
theorem Balanced.switch {heir : Thread} (balanced : account.Balanced)
    (selecting : account.cpu.point = .selecting) (isLocal : cpu.localExecuting = cpu.context)
    (executing : cpu.executing = heir) (fields : cpu.cgroups.FieldsAgree heir)
    (available : ∀ block, (cpu.cgroups.cgroups block).cpuQuotaAvailable = account.available block)
    (started : ∀ block, heir ∈ (cpu.cgroups.cgroups block).threads →
      cpu.cgroups.lastCpuStartTimestamp heir = cpu.watchdogTicks) :
    ({ account with cpu := cpu.contextSwitch heir } : CpuAccount Thread).Balanced := by
  obtain ⟨elsewhere, context, localExecuting, sameExecuting, cgroups, ticks⟩ :=
    contextSwitch_kept cpu heir isLocal
  have settled := balanced.upToDate selecting
  refine {
    within := ?within
    consumed := ?consumed
    upToDate := fun selecting => absurd selecting elsewhere
    localExecuting := localExecuting.trans context.symm
    running := fun _ => Running.of_justStarted ?executing ?fields ?started ?settled }
  case within =>
    intro block
    show ((cpu.contextSwitch heir).cgroups.cgroups block).cpuQuotaAvailable ≤ _
    rw [cgroups, available]
    exact balanced.within block
  case consumed =>
    intro block
    show _ - ((cpu.contextSwitch heir).cgroups.cgroups block).cpuQuotaAvailable = _
    rw [cgroups, available]
    exact balanced.consumed block
  case executing => exact (sameExecuting.trans executing).trans context.symm
  case fields =>
    show (cpu.contextSwitch heir).cgroups.FieldsAgree (cpu.contextSwitch heir).context
    rw [cgroups, context]
    exact fields
  case started =>
    intro block runs
    unfold Runs at runs
    unfold JustStarted
    simp only [cgroups, context, ticks] at runs ⊢
    exact started block runs
  case settled => exact fun block => (congrFun settled block).symm

theorem startMember_accounts (cpu : PerCpuControl Thread) (cg : ObjectsId) (heir : Thread) :
    let started := (cpu.startMember cg heir).cgroups
    (∀ block, (started.cgroups block).threads = (cpu.cgroups.cgroups block).threads ∧
      (started.cgroups block).cpuQuotaAvailable = (cpu.cgroups.cgroups block).cpuQuotaAvailable) ∧
      started.cgroup = cpu.cgroups.cgroup ∧
      started.isAddedToCgroup = cpu.cgroups.isAddedToCgroup ∧
      started.lastCpuStartTimestamp heir = cpu.watchdogTicks := by
  intro started
  have stamped : update cpu.cgroups.lastCpuStartTimestamp heir cpu.watchdogTicks heir =
      cpu.watchdogTicks := update_self ..
  unfold started PerCpuControl.startMember
  simp only
  split
  · exact ⟨fun _ => ⟨rfl, rfl⟩, rfl, rfl, stamped⟩
  · have same : CgroupSystem.SameAccounts { cpu.cgroups with
          lastCpuStartTimestamp :=
            update cpu.cgroups.lastCpuStartTimestamp heir cpu.watchdogTicks }
        (CgroupSystem.setCpuSuspendWatchdog { cpu.cgroups with
          lastCpuStartTimestamp :=
            update cpu.cgroups.lastCpuStartTimestamp heir cpu.watchdogTicks } cg) :=
      CgroupSystem.sameAccounts_store rfl rfl
    exact ⟨fun block => ⟨same.threads block, same.available block⟩, rfl, rfl, stamped⟩

theorem suspend_waits (free : (cgroups.cgroups block).state &&& statesWaitingForCgroupCpuQuota = 0)
    (member : thread ∈ (cgroups.cgroups block).threads) :
    CgroupWait.cpuQuota.In ((cgroups.coreCgroupSuspend (some block)
      statesWaitingForCgroupCpuQuota).1.currentState thread) := by
  cases cgroups.coreCgroupSuspend_cases (some block) statesWaitingForCgroupCpuQuota with
  | inl suspends =>
    obtain ⟨other, same, -, result⟩ := suspends
    cases same
    rw [result, CgroupSystem.suspended_currentState, if_pos member]
    exact CgroupWait.in_statesSet.mpr (.inr (by decide))
  | inr refused => exact absurd free (refused.1 block rfl)

omit [DecidableEq Thread] in
theorem block_selects (ready : statesIsReady (cpu.cgroups.currentState cpu.heir) = true)
    (blocked : CgroupWait.cpuQuota.In (cgroups.currentState cpu.heir)) :
    (cpu.block cgroups highestReady).dispatchNecessary = true := by
  have notReady : ¬ statesIsReady (cgroups.currentState cpu.heir) = true := by
    intro isReady
    have zero : cgroups.currentState cpu.heir = statesReady := by
      simpa [statesIsReady] using isReady
    exact CgroupWait.not_in_ready .cpuQuota (zero ▸ blocked)
  unfold PerCpuControl.block
  rw [if_pos ⟨ready, notReady⟩]

section

variable (balanced : account.Balanced)
include balanced

theorem Balanced.turn (selecting : account.cpu.point = .selecting)
    (same : account.cpu.cgroups.SameAccounts cgroups)
    (necessary : (account.cpu.threadGetHeirAndMakeItExecuting.block cgroups
      highestReady).dispatchNecessary = true) :
    ({ account with
        cpu := (account.cpu.threadGetHeirAndMakeItExecuting.block cgroups
          highestReady).whileDispatchNecessary } : CpuAccount Thread).Balanced := by
  obtain ⟨isCgroups, -, -, context, isLocal, -⟩ :=
    block_kept account.cpu.threadGetHeirAndMakeItExecuting cgroups highestReady
  have again : (account.cpu.threadGetHeirAndMakeItExecuting.block cgroups
      highestReady).whileDispatchNecessary.point = .selecting := if_pos necessary
  refine {
    within := ?_
    consumed := ?_
    upToDate := fun _ => balanced.upToDate selecting
    localExecuting := ?_
    running := fun elsewhere => absurd again elsewhere }
  · intro block
    show ((account.cpu.threadGetHeirAndMakeItExecuting.block cgroups
      highestReady).cgroups.cgroups block).cpuQuotaAvailable ≤ _
    rw [isCgroups, same.available]
    exact balanced.within block
  · intro block
    show _ - ((account.cpu.threadGetHeirAndMakeItExecuting.block cgroups
      highestReady).cgroups.cgroups block).cpuQuotaAvailable = _
    rw [isCgroups, same.available]
    exact balanced.consumed block
  · exact (isLocal.trans balanced.localExecuting).trans context.symm

theorem Balanced.selectHeir (selecting : account.cpu.point = .selecting)
    (allows : account.Allows (.selectHeir highestReady))
    (result : account.cpu.selectHeir highestReady = some after) :
    ({ account with cpu := after } : CpuAccount Thread).Balanced := by
  obtain ⟨fields, exhausted⟩ := allows
  cases selectHeir_cases result with
  | inl free =>
    obtain ⟨notAdded, rfl⟩ := free
    apply balanced.switch selecting
    · exact balanced.localExecuting
    · rfl
    · exact fields
    · exact fun _ => rfl
    · intro block member
      exact absurd ((fields block).mp member).1 (by simp [notAdded])
  | inr member =>
    obtain ⟨cg, added, named, turn⟩ := member
    have onChain : account.cpu.heir ∈ (account.cpu.cgroups.cgroups cg).threads :=
      (fields cg).mpr ⟨added, named⟩
    cases turn with
    | inl continues =>
      obtain ⟨empty, rfl⟩ := continues
      obtain ⟨ready, free⟩ := exhausted cg onChain empty
      have same : account.cpu.cgroups.SameAccounts (account.cpu.cgroups.coreCgroupSuspend
          (some cg) statesWaitingForCgroupCpuQuota).1 := CgroupSystem.sameAccounts_suspend ..
      have blocked : CgroupWait.cpuQuota.In ((account.cpu.cgroups.coreCgroupSuspend
          (some cg) statesWaitingForCgroupCpuQuota).1.currentState account.cpu.heir) :=
        suspend_waits free onChain
      apply balanced.turn selecting same
      exact block_selects ready blocked
    | inr starts =>
      obtain ⟨-, rfl⟩ := starts
      obtain ⟨accounts, cgroup, isAdded, stamp⟩ :=
        startMember_accounts account.cpu.threadGetHeirAndMakeItExecuting cg account.cpu.heir
      apply balanced.switch selecting
      · exact balanced.localExecuting
      · rfl
      · intro block
        rw [(accounts block).1, isAdded, cgroup]
        exact fields block
      · exact fun block => (accounts block).2
      · exact fun _ _ => stamp

theorem Balanced.afterSwitch (switched : account.cpu.point = .switched)
    (allows : account.Allows .afterSwitch) :
    ({ account with cpu := account.cpu.whileDispatchNecessary } : CpuAccount Thread).Balanced := by
  have running := balanced.running (by simp [switched])
  cases necessary : account.cpu.dispatchNecessary with
  | true =>
    have again : account.cpu.whileDispatchNecessary.point = .selecting := if_pos necessary
    refine { balanced with
      upToDate := fun _ => ?_
      running := fun elsewhere => absurd again elsewhere }
    funext block
    exact (running.settled_of_justStarted (allows necessary block)).symm
  | false =>
    have ends : account.cpu.whileDispatchNecessary.point = .outside :=
      if_neg (by simp [necessary])
    refine { balanced with
      upToDate := fun selecting => absurd (ends.symm.trans selecting) (by decide)
      running := fun _ => ?_ }
    exact ⟨running.executing, running.fields, running.started, running.out⟩

theorem Balanced.blockHeir (same : account.cpu.cgroups.SameAccounts cgroups) :
    ({ account with cpu := account.cpu.block cgroups highestReady } :
      CpuAccount Thread).Balanced := by
  obtain ⟨isCgroups, point, executing, context, isLocal, ticks⟩ :=
    block_kept account.cpu cgroups highestReady
  apply balanced.quiet
  apply quiet_of_sameAccounts
  · rw [isCgroups]
    exact same
  · exact point
  · exact executing
  · exact context
  · exact isLocal
  · exact ticks

theorem Balanced.perform (call : PerCpuCall Thread) (possible : call.Possible account.cpu)
    (allows : account.Allows call) (result : call.perform account.cpu = some after) :
    (account.recorded call after).Balanced := by
  cases call with
  | clockTick =>
    cases result
    exact balanced.clockTick possible
  | updateHeir newHeir =>
    cases result
    exact balanced.quiet (quiet_of_sameAccounts (.refl _) rfl rfl rfl rfl rfl)
  | cpuResumeRoutine block =>
    cases result
    exact balanced.cpuResumeRoutine possible allows
  | cpuSuspendRoutine block highestReady =>
    cases result
    exact balanced.blockHeir (CgroupSystem.sameAccounts_cpuSuspendRoutine block)
  | pause container highestReady =>
    obtain ⟨container, -, rfl⟩ := Option.map_eq_some_iff.mp result
    exact balanced.blockHeir (CgroupSystem.sameAccounts_pause container)
  | resume container =>
    obtain ⟨container, -, rfl⟩ := Option.map_eq_some_iff.mp result
    exact balanced.quiet (quiet_of_sameAccounts (CgroupSystem.sameAccounts_unifiedResume container)
      rfl rfl rfl rfl rfl)
  | addThread block thread workspace =>
    cases result
    exact balanced.addThread possible allows
  | removeThread block thread =>
    cases result
    exact balanced.removeThread allows
  | leaveThread block thread =>
    cases result
    exact balanced.leaveThread possible allows
  | setCpuQuota config cpuQuota cpuPeriod =>
    cases result
    exact balanced.quiet (quiet_of_sameAccounts ⟨fun _ => rfl, fun _ => rfl, rfl, rfl, rfl⟩
      rfl rfl rfl rfl rfl)
  | dispatch highestReady => exact balanced.dispatch possible result
  | selectHeir highestReady => exact balanced.selectHeir possible allows result
  | afterSwitch =>
    cases result
    exact balanced.afterSwitch possible allows

end

theorem AtRest.balanced (rest : account.AtRest) : account.Balanced where
  within block := (rest.full block).le
  consumed block := by rw [rest.full block, rest.settled block, Nat.sub_self, Nat.min_zero]
  upToDate _ := funext fun block => (rest.settled block).trans (rest.executed block).symm
  localExecuting := rest.localExecuting
  running _ := by
    apply Running.of_justStarted rest.executing
    · intro block
      exact iff_of_false (rest.alone block) (by simp [rest.notAdded])
    · exact fun block runs => absurd runs (rest.alone block)
    · exact fun block => (rest.executed block).trans (rest.settled block).symm

end CpuAccount

open CpuAccount

/-- In every run whose calls are allowed, what has been consumed of every quota
is the time that the members of the cgroup have executed in the period. -/
theorem accountRun_exact (account : CpuAccount Thread) (calls : List (PerCpuCall Thread))
    (rest : account.AtRest)
    (possible : Meets CpuAccount.step
      (fun state call => ∀ current, state = some current → call.Possible current.cpu)
      (some account) calls)
    (allowed : Meets CpuAccount.step
      (fun state call => ∀ current, state = some current → current.Allows call)
      (some account) calls) :
    Throughout CpuAccount.step (fun state => ∀ current, state = some current → current.Exact)
      (some account) calls := by
  have balanced : Throughout CpuAccount.step
      (fun state => ∀ current, state = some current → current.Balanced) (some account) calls := by
    refine throughout_of_preserved ?start ?preserved (possible.and allowed)
    case start =>
      intro current isCurrent
      cases isCurrent
      exact rest.balanced
    case preserved =>
      intro state call balanced allowed next isNext
      obtain ⟨current, rfl, performed⟩ := Option.bind_eq_some_iff.mp isNext
      obtain ⟨after, result, rfl⟩ := Option.map_eq_some_iff.mp performed
      exact (balanced current rfl).perform call (allowed.1 current rfl) (allowed.2 current rfl) result
  exact balanced.imp fun state holds current isCurrent => (holds current isCurrent).toExact

/-- A processor that runs task 0; cgroup 1 has a quota of five ticks. -/
def fiveTicks : CpuAccount (Fin 2) where
  cpu :=
    { cgroups := { idleCgroups with
        cgroups := fun _ => ⟨statesReady, 0, [], 0, 10, 5, false, true, 0, true⟩
        configs := fun _ => ⟨5, 10, 0, 0, 0⟩ }
      containers := fun _ => none
      watchdogTicks := 0
      executing := 0
      heir := 0
      dispatchNecessary := false
      context := 0
      localExecuting := 0
      point := .outside }
  quota := fun _ => 5
  executed := fun _ => 0
  settled := fun _ => 0

theorem fiveTicks_atRest : fiveTicks.AtRest where
  outside := rfl
  executing := rfl
  localExecuting := rfl
  notAdded := rfl
  alone block member := by cases member
  full _ := rfl
  executed _ := rfl
  settled _ := rfl

/-- Task 1 joins the cgroup, executes two ticks and gives way to task 0. -/
def twoTicks : List (PerCpuCall (Fin 2)) :=
  [.addThread 1 1 true, .updateHeir 1, .dispatch 1, .selectHeir 1, .afterSwitch, .clockTick,
    .clockTick, .updateHeir 0, .dispatch 0]

theorem twoTicks_possible : Meets CpuAccount.step
    (fun state call => ∀ current, state = some current → call.Possible current.cpu)
    (some fiveTicks) twoTicks := by
  refine ⟨?_, ?_, ?_, ?_, ?_, ?_, ?_, ?_, ?_, trivial⟩
  all_goals
    intro current isCurrent
    cases isCurrent
    decide

theorem joined_fieldsAgree : (fiveTicks.cpu.cgroups.coreCgroupAddThread 1 1).FieldsAgree 1 := by
  intro block
  rw [(addThread_threads fiveTicks.cpu.cgroups 1 block 1).1]
  by_cases same : block = 1
  · subst block
    decide
  · rw [if_neg same]
    refine iff_of_false (by simp [fiveTicks]) ?_
    intro fields
    exact same (Option.some.inj fields.2).symm

theorem twoTicks_allowed : Meets CpuAccount.step
    (fun state call => ∀ current, state = some current → current.Allows call)
    (some fiveTicks) twoTicks := by
  refine ⟨?join, ?_, ?_, ?select, ?ends, ?_, ?_, ?_, ?_, trivial⟩
  case join =>
    intro current isCurrent
    cases isCurrent
    exact fun _ same => absurd same (by decide)
  case select =>
    intro current isCurrent
    cases isCurrent
    refine ⟨joined_fieldsAgree, ?_⟩
    intro block member empty
    have full : ((fiveTicks.cpu.cgroups.coreCgroupAddThread 1 1).cgroups block).cpuQuotaAvailable =
        5 := (addThread_threads fiveTicks.cpu.cgroups 1 block 1).2
    exact absurd (full.symm.trans empty) (by decide)
  case ends =>
    intro current isCurrent
    cases isCurrent
    exact fun necessary => absurd necessary (by decide)
  all_goals exact fun _ _ => trivial

theorem twoTicks_exact : Throughout CpuAccount.step
    (fun state => ∀ current, state = some current → current.Exact) (some fiveTicks) twoTicks :=
  accountRun_exact fiveTicks twoTicks fiveTicks_atRest twoTicks_possible twoTicks_allowed

/-- Task 0 executes two ticks outside of the cgroup. It joins, and the next
dispatch charges the cgroup with them. -/
theorem joiner_charged : ¬ ∀ (account : CpuAccount (Fin 2)) (calls : List (PerCpuCall (Fin 2))),
    account.AtRest →
      Meets CpuAccount.step
        (fun state call => ∀ current, state = some current → call.Possible current.cpu)
        (some account) calls →
      Throughout CpuAccount.step (fun state => ∀ current, state = some current → current.Exact)
        (some account) calls := by
  intro claim
  have possible : Meets CpuAccount.step
      (fun state call => ∀ current, state = some current → call.Possible current.cpu)
      (some fiveTicks) [.clockTick, .clockTick, .addThread 1 0 true, .dispatch 0] := by
    refine ⟨?_, ?_, ?_, ?_, trivial⟩
    all_goals
      intro current isCurrent
      cases isCurrent
      decide
  have exact := (claim fiveTicks _ fiveTicks_atRest possible).final _ rfl
  exact absurd (exact.consumed 1) (by decide)

end RTContainer.Score
