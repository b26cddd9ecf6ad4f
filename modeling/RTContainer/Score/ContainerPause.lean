import RTContainer.Score.CgroupSuspension
import RTContainer.Score.ThreadDispatch

/-! Pausing unified containers. A pause and an exhausted quota share one state
of the cgroup, which the tick that ends a period clears. -/

set_option autoImplicit false

namespace RTContainer.Score

open RTContainer.Rtems Machine Function

variable {Thread : Type} [DecidableEq Thread]

namespace CgroupSystem

def Suspended (system : CgroupSystem Thread) (block : ObjectsId) : Prop :=
  CgroupWait.cpuQuota.In (system.cgroups block).state ∧
    ∀ thread ∈ (system.cgroups block).threads, CgroupWait.cpuQuota.In (system.currentState thread)

/-- Resuming a cgroup leaves another one suspended: it is not the same, and
where it reaches its threads it shares none of them. -/
def Spares (system : CgroupSystem Thread) (resumed block : ObjectsId) : Prop :=
  CgroupWait.cpuQuota.In (system.cgroups resumed).state →
    resumed ≠ block ∧
      (statesClear statesWaitingForCgroupCpuQuota (system.cgroups resumed).state &&&
          statesBlocked = 0 →
        ∀ thread ∈ (system.cgroups resumed).threads, thread ∉ (system.cgroups block).threads)

variable {system after : CgroupSystem Thread} {block other : ObjectsId} {thread : Thread}
variable {waitState : BitVec 32}

omit [DecidableEq Thread] in
theorem Suspended.mono (holds : system.Suspended block)
    (state : ∀ wait : CgroupWait, wait.In (system.cgroups block).state →
      wait.In (after.cgroups block).state)
    (threads : ∀ thread ∈ (after.cgroups block).threads, thread ∈ (system.cgroups block).threads)
    (states : ∀ thread, ∀ wait : CgroupWait, wait.In (system.currentState thread) →
      wait.In (after.currentState thread)) : after.Suspended block := by
  refine ⟨state .cpuQuota holds.1, ?_⟩
  intro thread member
  exact states thread .cpuQuota (holds.2 thread (threads thread member))

omit [DecidableEq Thread] in
theorem Suspended.store (holds : system.Suspended block) {control : CoreCgroupControl Thread}
    (state : control.state = (system.cgroups other).state)
    (threads : control.threads = (system.cgroups other).threads) :
    (system.store other control).Suspended block := by
  by_cases same : block = other
  · subst block
    apply holds.mono
    · simp [state]
    · simp [threads]
    · exact fun thread wait isIn => isIn
  · have frame : (system.store other control).cgroups block = system.cgroups block :=
      store_cgroups_of_ne same control
    apply holds.mono
    · simp [frame]
    · simp [frame]
    · exact fun thread wait isIn => isIn

theorem Suspended.suspend (holds : system.Suspended block) (theCgroup : Option ObjectsId)
    (waitState : BitVec 32) : (system.coreCgroupSuspend theCgroup waitState).1.Suspended block := by
  rcases system.coreCgroupSuspend_cases theCgroup waitState with
    ⟨other, -, -, result⟩ | ⟨-, -, same⟩
  · rw [result]
    apply holds.mono
    · intro wait isIn
      rw [changed_state]
      split
      next => exact CgroupWait.in_statesSet.mpr (.inl isIn)
      next => exact isIn
    · simp
    · intro thread wait isIn
      rw [suspended_currentState]
      split
      next => exact CgroupWait.in_statesSet.mpr (.inl isIn)
      next => exact isIn
  · rw [same]
    exact holds

theorem suspended_suspended : (system.suspended block statesWaitingForCgroupCpuQuota).Suspended
    block := by
  have quota : CgroupWait.cpuQuota.In statesWaitingForCgroupCpuQuota := by decide
  constructor
  · rw [changed_state, if_pos rfl]
    exact CgroupWait.in_statesSet.mpr (.inr quota)
  · intro thread member
    rw [changed_threads] at member
    rw [suspended_currentState, if_pos member]
    exact CgroupWait.in_statesSet.mpr (.inr quota)

section

variable (holds : system.Suspended block)
include holds

theorem Suspended.consume (other : ObjectsId) (delta : Nat) :
    (system.coreCgroupConsumeCpuQuota other delta).Suspended block := by
  unfold coreCgroupConsumeCpuQuota
  dsimp only
  split
  next =>
    apply Suspended.suspend
    exact holds.store rfl rfl
  next => exact holds.store rfl rfl

theorem Suspended.resume_iff (resumed : ObjectsId) :
    (system.coreCgroupResume (some resumed) statesWaitingForCgroupCpuQuota).1.Suspended block ↔
      system.Spares resumed block := by
  have quota : CgroupWait.cpuQuota.In statesWaitingForCgroupCpuQuota := by decide
  rcases system.coreCgroupResume_cases (some resumed) statesWaitingForCgroupCpuQuota with
    ⟨other, same, ⟨inState, -⟩, ⟨free, result⟩ | ⟨blocked, result⟩⟩ | ⟨refused, -, result⟩
  · cases same
    rw [result]
    constructor
    · intro after _
      have different : resumed ≠ block := by
        intro same
        subst resumed
        have cleared := after.1
        rw [changed_state, if_pos rfl, CgroupWait.in_statesClear] at cleared
        exact cleared.2 quota
      refine ⟨different, fun _ thread onResumed onBlock => ?_⟩
      have cleared := after.2 thread (by simpa using onBlock)
      rw [resumed_currentState, if_pos onResumed, CgroupWait.in_statesClear] at cleared
      exact cleared.2 quota
    · intro spares
      obtain ⟨different, apart⟩ := spares inState
      constructor
      · rw [changed_state, if_neg different.symm]
        exact holds.1
      · intro thread member
        rw [changed_threads] at member
        have offChain : thread ∉ (system.cgroups resumed).threads :=
          fun onResumed => apart free thread onResumed member
        rw [resumed_currentState, if_neg offChain]
        exact holds.2 thread member
  · cases same
    rw [result]
    constructor
    · intro after _
      refine ⟨?_, fun free => absurd free blocked⟩
      intro same
      subst resumed
      have cleared := after.1
      rw [setState_self, CgroupWait.in_statesClear] at cleared
      exact cleared.2 quota
    · intro spares
      have different := (spares inState).1
      constructor
      · rw [setState_other different.symm]
        exact holds.1
      · intro thread member
        rw [setState_threads] at member
        exact holds.2 thread member
  · rw [result]
    refine ⟨fun _ inState => ?_, fun _ => holds⟩
    cases refused resumed rfl with
    | inl apart => exact absurd apart inState
    | inr harmless => exact absurd harmless (by decide)

variable (cgroup : ObjectsId)

theorem Suspended.resumeRoutine_iff :
    (system.cpuResumeRoutine cgroup).Suspended block ↔ system.Spares cgroup block := by
  rw [← holds.resume_iff cgroup]
  unfold cpuResumeRoutine setCpuResumeWatchdog
  constructor
  · intro after
    let resumed := (system.coreCgroupResume (some cgroup) statesWaitingForCgroupCpuQuota).1
    have undone : ((resumed.setCpuResumeWatchdog cgroup).store cgroup
        (resumed.cgroups cgroup)).Suspended block := by
      apply after.store
      · simp [resumed]
      · simp [resumed]
    unfold setCpuResumeWatchdog at undone
    show resumed.Suspended block
    apply undone.mono
    · by_cases same : block = cgroup
      · subst block
        simp
      · simp [store_cgroups_of_ne same]
    · by_cases same : block = cgroup
      · subst block
        simp
      · simp [store_cgroups_of_ne same]
    · exact fun thread wait isIn => isIn
  · intro after
    exact after.store rfl rfl

theorem Suspended.addThread_iff : (system.coreCgroupAddThread cgroup thread).Suspended block ↔
      (block = cgroup → CgroupWait.cpuQuota.In (system.currentState thread)) := by
  by_cases same : block = cgroup
  · subst block
    constructor
    · intro after _
      exact after.2 thread (by simp [coreCgroupAddThread])
    · intro carries
      refine ⟨by simpa [coreCgroupAddThread] using holds.1, ?_⟩
      intro candidate member
      simp only [coreCgroupAddThread, store_cgroups_self, List.mem_append,
        List.mem_singleton] at member
      cases member with
      | inl before => exact holds.2 candidate before
      | inr added =>
        subst candidate
        exact carries rfl
  · refine ⟨fun _ isSame => absurd isSame same, fun _ => ?_⟩
    have frame : (system.coreCgroupAddThread cgroup thread).cgroups block =
        system.cgroups block := store_cgroups_of_ne same _
    apply holds.mono
    · simp [frame]
    · simp [frame]
    · exact fun candidate wait isIn => isIn

theorem Suspended.removeThread (thread : Thread) :
    ((system.coreCgroupRemoveThread cgroup thread).getD system).Suspended block := by
  cases success : system.coreCgroupRemoveThread cgroup thread with
  | none => exact holds
  | some removed =>
    obtain ⟨-, sameStates, chains⟩ := removeThread_threads success
    apply holds.mono
    · intro wait isIn
      rw [Option.getD_some, (chains block).1]
      exact isIn
    · intro candidate member
      rw [Option.getD_some, (chains block).2] at member
      split at member
      next => exact List.mem_of_mem_erase member
      next => exact member
    · intro candidate wait isIn
      rw [Option.getD_some, sameStates]
      exact isIn

theorem Suspended.leaveThread (thread : Thread) :
    (system.leaveThread cgroup thread).Suspended block := by
  unfold CgroupSystem.leaveThread
  split
  next => exact holds.removeThread cgroup thread
  next => exact holds

end

end CgroupSystem

namespace PerCpuControl

variable {cpu : PerCpuControl Thread} {cgroups : CgroupSystem Thread} {highestReady : Thread}

omit [DecidableEq Thread] in
@[simp] theorem block_cgroups : (cpu.block cgroups highestReady).cgroups = cgroups := by
  unfold block
  split <;> rfl

omit [DecidableEq Thread] in
@[simp] theorem block_containers : (cpu.block cgroups highestReady).containers = cpu.containers := by
  unfold block
  split <;> rfl

def pausedThrough (cpu : PerCpuControl Thread) (address : Nat) : Option ObjectsId :=
  (cpu.containers address).bind fun container =>
    if container.hasCgroup then container.coreCgroup else none

variable {heir : Thread} {block : ObjectsId} {after : PerCpuControl Thread}

theorem startMember_suspended {cg : ObjectsId} (holds : cpu.cgroups.Suspended block) :
    (cpu.startMember cg heir).cgroups.Suspended block := by
  have stamped : ({ cpu.cgroups with
      lastCpuStartTimestamp := update cpu.cgroups.lastCpuStartTimestamp heir
        cpu.watchdogTicks } : CgroupSystem Thread).Suspended block := holds
  unfold startMember
  dsimp only
  split
  next => exact stamped
  next => exact stamped.store rfl rfl

private theorem contextSwitch_cgroups : (cpu.contextSwitch heir).cgroups = cpu.cgroups := by
  unfold contextSwitch
  split <;> rfl

theorem contextSwitch_containers : (cpu.contextSwitch heir).containers = cpu.containers := by
  unfold contextSwitch
  split <;> rfl

theorem threadDoDispatch_suspended (holds : cpu.cgroups.Suspended block)
    (result : cpu.threadDoDispatch highestReady = some after) : after.cgroups.Suspended block := by
  unfold threadDoDispatch at result
  dsimp only at result
  split at result
  next =>
    obtain ⟨cg, -, rfl⟩ := Option.map_eq_some_iff.mp result
    rw [block_cgroups]
    exact (holds.consume cg _).store rfl rfl
  next =>
    cases result
    exact holds

theorem selectHeir_suspended (holds : cpu.cgroups.Suspended block)
    (result : cpu.selectHeir highestReady = some after) : after.cgroups.Suspended block := by
  unfold selectHeir at result
  dsimp only at result
  split at result
  next =>
    obtain ⟨cg, -, rfl⟩ := Option.map_eq_some_iff.mp result
    split
    next =>
      have kept := holds.suspend (some cg) statesWaitingForCgroupCpuQuota
      simpa [whileDispatchNecessary] using kept
    next =>
      rw [contextSwitch_cgroups]
      exact startMember_suspended holds
  next =>
    cases result
    rw [contextSwitch_cgroups]
    exact holds

end PerCpuControl

namespace PerCpuCall

variable {cpu after : PerCpuControl Thread} {call : PerCpuCall Thread}

theorem perform_containers (result : call.perform cpu = some after) :
    after.containers = cpu.containers := by
  cases call with
  | dispatch highestReady =>
    simp only [perform, PerCpuControl.threadDoDispatch] at result
    split at result
    next =>
      obtain ⟨cg, -, rfl⟩ := Option.map_eq_some_iff.mp result
      exact PerCpuControl.block_containers
    next =>
      cases result
      rfl
  | selectHeir highestReady =>
    simp only [perform, PerCpuControl.selectHeir] at result
    split at result
    next =>
      obtain ⟨cg, -, rfl⟩ := Option.map_eq_some_iff.mp result
      split
      next => exact PerCpuControl.block_containers
      next => exact PerCpuControl.contextSwitch_containers
    next =>
      cases result
      exact PerCpuControl.contextSwitch_containers
  | pause container highestReady =>
    obtain ⟨found, -, rfl⟩ := Option.map_eq_some_iff.mp result
    exact PerCpuControl.block_containers
  | resume container =>
    obtain ⟨found, -, rfl⟩ := Option.map_eq_some_iff.mp result
    rfl
  | cpuSuspendRoutine cgroup highestReady =>
    cases result
    exact PerCpuControl.block_containers
  | _ =>
    cases result
    rfl

end PerCpuCall

/-- The processor and the containers that have been paused and not resumed since. -/
structure PausedContainers (Thread : Type) where
  cpu : PerCpuControl Thread
  paused : Nat → Bool

namespace PausedContainers

variable (current : PausedContainers Thread)

def pausedAfter : PerCpuCall Thread → Nat → Bool
  | .pause (some address) _ =>
    if (rtemsUnifiedContainerPause current.cpu.cgroups (current.cpu.containers address)).2 =
        .successful then
      update current.paused address true
    else current.paused
  | .resume (some address) => update current.paused address false
  | _ => current.paused

def step (state : Option (PausedContainers Thread)) (call : PerCpuCall Thread) :
    Option (PausedContainers Thread) :=
  state.bind fun current => (call.perform current.cpu).map fun cpu =>
    ⟨cpu, current.pausedAfter call⟩

def StaysSuspended : Prop :=
  ∀ address, current.paused address = true → ∃ block,
    current.cpu.pausedThrough address = some block ∧ current.cpu.cgroups.Suspended block

/-- A tick that ends a period and lifts a suspension lifts no pause. -/
def LiftsExhaustion : PerCpuCall Thread → Prop
  | .cpuResumeRoutine cgroup =>
    CgroupWait.cpuQuota.In (current.cpu.cgroups.cgroups cgroup).state →
      ¬ CgroupWait.cpuQuota.In ((current.cpu.cgroups.cpuResumeRoutine cgroup).cgroups
        cgroup).state →
        ∀ address, current.paused address = true → current.cpu.pausedThrough address ≠ some cgroup
  | _ => True

/-- When a call leaves the paused containers suspended: the end of a period and
the resumption of another container spare their cgroups, and a thread that joins
one is suspended already. -/
def Respects : PerCpuCall Thread → Prop
  | .cpuResumeRoutine cgroup => ∀ address block, current.paused address = true →
      current.cpu.pausedThrough address = some block → current.cpu.cgroups.Spares cgroup block
  | .resume (some resumed) => ∀ cgroup, current.cpu.pausedThrough resumed = some cgroup →
      ∀ address block, address ≠ resumed → current.paused address = true →
        current.cpu.pausedThrough address = some block → current.cpu.cgroups.Spares cgroup block
  | .addThread cgroup thread workspace => workspace = true →
      ∀ address, current.paused address = true →
        current.cpu.pausedThrough address = some cgroup →
          CgroupWait.cpuQuota.In (current.cpu.cgroups.currentState thread)
  | _ => True

variable {current} {after : PerCpuControl Thread}

variable {cpu : PerCpuControl Thread} {cgroups : CgroupSystem Thread}
variable {container : RtemsContainer Thread} {block : ObjectsId} {call : PerCpuCall Thread}
variable {address : Nat}

omit [DecidableEq Thread] in
theorem pausedThrough_of_containers (same : after.containers = cpu.containers) (address : Nat) :
    after.pausedThrough address = cpu.pausedThrough address := by
  simp [PerCpuControl.pausedThrough, same]

theorem pause_suspends
    (success : (rtemsUnifiedContainerPause cgroups (some container)).2 = .successful) :
    ∃ block, container.hasCgroup = true ∧ container.coreCgroup = some block ∧
      (rtemsUnifiedContainerPause cgroups (some container)).1.Suspended block := by
  unfold rtemsUnifiedContainerPause at success ⊢
  dsimp only at success ⊢
  split at success
  next => cases success
  next configured =>
    rw [if_neg configured]
    rcases cgroups.coreCgroupSuspend_cases container.coreCgroup statesWaitingForCgroupCpuQuota with
      ⟨block, isBlock, -, result⟩ | ⟨-, refused, -⟩
    · refine ⟨block, by simpa using fun absent => configured (.inl absent), isBlock, ?_⟩
      rw [result]
      exact CgroupSystem.suspended_suspended
    · exact absurd success refused

theorem pause_keeps (holds : cgroups.Suspended block) (container : Option (RtemsContainer Thread)) :
    (rtemsUnifiedContainerPause cgroups container).1.Suspended block := by
  cases container with
  | none => exact holds
  | some container =>
    simp only [rtemsUnifiedContainerPause]
    split
    next => exact holds
    next => exact holds.suspend _ _

theorem resume_cases (cgroups : CgroupSystem Thread) (container : RtemsContainer Thread) :
    (∃ cgroup, container.hasCgroup = true ∧ container.coreCgroup = some cgroup ∧
        (rtemsUnifiedContainerResume cgroups (some container)).1 =
          (cgroups.coreCgroupResume (some cgroup) statesWaitingForCgroupCpuQuota).1) ∨
      ((∀ cgroup, ¬ (container.hasCgroup = true ∧ container.coreCgroup = some cgroup)) ∧
        (rtemsUnifiedContainerResume cgroups (some container)).1 = cgroups) := by
  unfold rtemsUnifiedContainerResume
  dsimp only
  split
  next missing =>
    refine .inr ⟨?_, rfl⟩
    rintro cgroup ⟨has, isCgroup⟩
    cases missing with
    | inl absent => simp [has] at absent
    | inr null => simp [isCgroup] at null
  next configured =>
    cases found : container.coreCgroup with
    | none => exact absurd (.inr found) configured
    | some cgroup =>
      exact .inl ⟨cgroup, by simpa using fun absent => configured (.inl absent), rfl, rfl⟩

theorem perform_keeps (holds : cpu.cgroups.Suspended block) (result : call.perform cpu = some after)
    (noResume : ∀ cgroup, call ≠ .cpuResumeRoutine cgroup)
    (noApi : ∀ container, call ≠ .resume container)
    (noJoin : ∀ cgroup thread, call ≠ .addThread cgroup thread true) :
    after.cgroups.Suspended block := by
  cases call with
  | clockTick | updateHeir | setCpuQuota | afterSwitch =>
    cases result
    exact holds
  | cpuResumeRoutine cgroup => exact absurd rfl (noResume cgroup)
  | cpuSuspendRoutine cgroup highestReady =>
    cases result
    rw [PerCpuControl.block_cgroups]
    apply CgroupSystem.Suspended.suspend
    exact holds.store rfl rfl
  | pause container highestReady =>
    obtain ⟨found, -, rfl⟩ := Option.map_eq_some_iff.mp result
    rw [PerCpuControl.block_cgroups]
    exact pause_keeps holds found
  | resume container => exact absurd rfl (noApi container)
  | addThread cgroup thread workspace =>
    cases workspace with
    | true => exact absurd rfl (noJoin cgroup thread)
    | false =>
      cases result
      exact holds
  | removeThread cgroup thread =>
    cases result
    exact holds.removeThread cgroup thread
  | leaveThread cgroup thread =>
    cases result
    exact holds.leaveThread cgroup thread
  | dispatch highestReady => exact PerCpuControl.threadDoDispatch_suspended holds result
  | selectHeir highestReady => exact PerCpuControl.selectHeir_suspended holds result

omit [DecidableEq Thread] in
theorem staysSuspended_iff (cpu after : PerCpuControl Thread) {paused : Nat → Bool}
    (same : after.containers = cpu.containers) (condition : ObjectsId → Prop)
    (suspended : ∀ address, paused address = true → ∃ block,
      cpu.pausedThrough address = some block ∧ cpu.cgroups.Suspended block)
    (agrees : ∀ block, cpu.cgroups.Suspended block →
      (after.cgroups.Suspended block ↔ condition block)) :
    (⟨after, paused⟩ : PausedContainers Thread).StaysSuspended ↔
      ∀ address block, paused address = true → cpu.pausedThrough address = some block →
        condition block := by
  constructor
  · intro stays address block isPaused through
    obtain ⟨other, throughOther, holds⟩ := stays address isPaused
    rw [pausedThrough_of_containers same, through] at throughOther
    cases throughOther
    obtain ⟨before, throughBefore, heldBefore⟩ := suspended address isPaused
    cases through.symm.trans throughBefore
    exact (agrees block heldBefore).mp holds
  · intro respects address isPaused
    obtain ⟨block, through, held⟩ := suspended address isPaused
    refine ⟨block, ?_, (agrees block held).mpr (respects address block isPaused through)⟩
    exact (pausedThrough_of_containers same address).trans through

theorem pause_staysSuspended {highestReady : Thread} (suspended : current.StaysSuspended)
    (found : current.cpu.containers address = some container) :
    (⟨current.cpu.block (rtemsUnifiedContainerPause current.cpu.cgroups (some container)).1
        highestReady, current.pausedAfter (.pause (some address) highestReady)⟩ :
      PausedContainers Thread).StaysSuspended := by
  intro other isPaused
  simp only [pausedAfter, found] at isPaused
  by_cases success :
      (rtemsUnifiedContainerPause current.cpu.cgroups (some container)).2 = .successful
  · rw [if_pos success] at isPaused
    by_cases same : other = address
    · subst other
      obtain ⟨block, has, isBlock, holds⟩ := pause_suspends success
      refine ⟨block, ?_, by simpa using holds⟩
      simp [PerCpuControl.pausedThrough, found, has, isBlock]
    · rw [update_of_ne same] at isPaused
      obtain ⟨block, through, held⟩ := suspended other isPaused
      refine ⟨block, ?_, by simpa using pause_keeps held (some container)⟩
      exact (pausedThrough_of_containers PerCpuControl.block_containers other).trans through
  · rw [if_neg success] at isPaused
    obtain ⟨block, through, held⟩ := suspended other isPaused
    refine ⟨block, ?_, by simpa using pause_keeps held (some container)⟩
    exact (pausedThrough_of_containers PerCpuControl.block_containers other).trans through

theorem resume_staysSuspended_iff (suspended : current.StaysSuspended)
    (found : current.cpu.containers address = some container) :
    (⟨{ current.cpu with
          cgroups := (rtemsUnifiedContainerResume current.cpu.cgroups (some container)).1 },
        current.pausedAfter (.resume (some address))⟩ : PausedContainers Thread).StaysSuspended ↔
      current.Respects (.resume (some address)) := by
  have others : ∀ other, update current.paused address false other = true →
      other ≠ address ∧ current.paused other = true := by
    intro other isPaused
    by_cases same : other = address
    · subst other
      simp at isPaused
    · exact ⟨same, by simpa [same] using isPaused⟩
  have through : ∀ cgroup, current.cpu.pausedThrough address = some cgroup ↔
      container.hasCgroup = true ∧ container.coreCgroup = some cgroup := by
    intro cgroup
    simp [PerCpuControl.pausedThrough, found]
  rcases resume_cases current.cpu.cgroups container with
    ⟨cgroup, has, isCgroup, result⟩ | ⟨missing, result⟩
  · have agrees : ∀ block, current.cpu.cgroups.Suspended block →
        ((rtemsUnifiedContainerResume current.cpu.cgroups (some container)).1.Suspended block ↔
          current.cpu.cgroups.Spares cgroup block) := by
      intro block held
      rw [result]
      exact held.resume_iff cgroup
    refine (staysSuspended_iff current.cpu { current.cpu with
      cgroups := (rtemsUnifiedContainerResume current.cpu.cgroups (some container)).1 } rfl _
        (fun other isPaused => suspended other (others other isPaused).2) agrees).trans ?_
    constructor
    · intro spares other throughOther victim block different isPaused throughVictim
      have sameCgroup := (through other).mp throughOther
      cases isCgroup.symm.trans sameCgroup.2
      exact spares victim block (by simpa [pausedAfter, different] using isPaused) throughVictim
    · intro respects victim block isPaused throughVictim
      obtain ⟨different, wasPaused⟩ := others victim isPaused
      exact respects cgroup ((through cgroup).mpr ⟨has, isCgroup⟩) victim block different wasPaused
        throughVictim
  · constructor
    · intro _ cgroup throughCgroup
      exact absurd ((through cgroup).mp throughCgroup) (missing cgroup)
    · intro _ victim isPaused
      rw [result]
      exact suspended victim (others victim isPaused).2

theorem respects_iff (suspended : current.StaysSuspended)
    (result : call.perform current.cpu = some after) :
    (⟨after, current.pausedAfter call⟩ : PausedContainers Thread).StaysSuspended ↔
      current.Respects call := by
  have same := PerCpuCall.perform_containers result
  have kept : current.pausedAfter call = current.paused →
      (∀ block, current.cpu.cgroups.Suspended block → after.cgroups.Suspended block) →
        (⟨after, current.pausedAfter call⟩ : PausedContainers Thread).StaysSuspended := by
    intro unchanged keeps
    rw [unchanged]
    refine (staysSuspended_iff current.cpu after same (fun _ => True) suspended ?_).mpr ?_
    · exact fun block held => ⟨fun _ => trivial, fun _ => keeps block held⟩
    · exact fun _ _ _ _ => trivial
  cases call with
  | cpuResumeRoutine cgroup =>
    cases result
    exact staysSuspended_iff current.cpu { current.cpu with
      cgroups := current.cpu.cgroups.cpuResumeRoutine cgroup } rfl _ suspended
        fun block held => held.resumeRoutine_iff cgroup
  | resume container =>
    cases container with
    | none =>
      cases result
      exact ⟨fun _ => trivial, fun _ => suspended⟩
    | some address =>
      obtain ⟨found, isFound, rfl⟩ := Option.map_eq_some_iff.mp result
      obtain ⟨container, exists_, rfl⟩ := Option.map_eq_some_iff.mp isFound
      exact resume_staysSuspended_iff suspended exists_
  | addThread cgroup thread workspace =>
    cases workspace with
    | false =>
      cases result
      exact ⟨fun _ allocated => absurd allocated (by decide), fun _ => suspended⟩
    | true =>
      cases result
      refine (staysSuspended_iff current.cpu { current.cpu with
        cgroups := current.cpu.cgroups.coreCgroupAddThread cgroup thread } rfl _ suspended
          fun block held => held.addThread_iff cgroup).trans ?_
      constructor
      · intro carries _ address isPaused through
        exact carries address cgroup isPaused through rfl
      · intro respects address block isPaused through isSame
        subst block
        exact respects rfl address isPaused through
  | pause container highestReady =>
    refine ⟨fun _ => trivial, fun _ => ?_⟩
    cases container with
    | none =>
      cases result
      refine kept rfl fun block held => ?_
      rw [PerCpuControl.block_cgroups]
      exact held
    | some address =>
      obtain ⟨found, isFound, rfl⟩ := Option.map_eq_some_iff.mp result
      obtain ⟨container, exists_, rfl⟩ := Option.map_eq_some_iff.mp isFound
      exact pause_staysSuspended suspended exists_
  | _ =>
    exact ⟨fun _ => trivial, fun _ => kept rfl fun block held =>
      perform_keeps held result (by simp) (by simp) (by simp)⟩

theorem respects_of_none (result : call.perform current.cpu = none) : current.Respects call := by
  cases call with
  | resume container =>
    cases container with
    | none => trivial
    | some address =>
      intro cgroup through
      have missing : current.cpu.containers address = none := by
        cases found : current.cpu.containers address with
        | none => rfl
        | some container => simp [PerCpuCall.perform, PerCpuControl.container, found] at result
      simp [PerCpuControl.pausedThrough, missing] at through
  | cpuResumeRoutine cgroup => cases result
  | addThread cgroup thread workspace => cases result
  | _ => trivial

theorem liftsExhaustion_of_respects (respects : current.Respects call) :
    current.LiftsExhaustion call := by
  cases call with
  | cpuResumeRoutine cgroup =>
    intro inState _ address isPaused through
    exact (respects address cgroup isPaused through inState).1 rfl
  | _ => trivial

end PausedContainers

open PausedContainers

/-- The paused containers stay suspended throughout a run, and the ends of
periods lift no pause, exactly when every call respects the containers that are
paused when it is made. -/
theorem pauseRun_sticky_iff (cpu : PerCpuControl Thread) (calls : List (PerCpuCall Thread)) :
    (Throughout PausedContainers.step
          (fun state => ∀ current, state = some current → current.StaysSuspended)
          (some ⟨cpu, fun _ => false⟩) calls ∧
        Meets PausedContainers.step
          (fun state call => ∀ current, state = some current → current.LiftsExhaustion call)
          (some ⟨cpu, fun _ => false⟩) calls) ↔
      Meets PausedContainers.step
        (fun state call => ∀ current, state = some current → current.Respects call)
        (some ⟨cpu, fun _ => false⟩) calls := by
  have steps : ∀ current call,
      (∀ next, PausedContainers.step (some current) call = some next → next.StaysSuspended) ↔
        ∀ after, call.perform current.cpu = some after →
          (⟨after, current.pausedAfter call⟩ : PausedContainers Thread).StaysSuspended := by
    intro current call
    simp [PausedContainers.step]
  have promises : Meets PausedContainers.step (fun _ _ => True) (some ⟨cpu, fun _ => false⟩) calls :=
    meets_of_forall (fun _ _ => trivial) _ calls
  have start : ∀ current : PausedContainers Thread, some ⟨cpu, fun _ => false⟩ = some current →
      current.StaysSuspended := by
    intro current isCurrent address isPaused
    cases isCurrent
    cases isPaused
  have sticky : Throughout PausedContainers.step
        (fun state => ∀ current, state = some current → current.StaysSuspended)
        (some ⟨cpu, fun _ => false⟩) calls ↔
      (∀ current : PausedContainers Thread, some ⟨cpu, fun _ => false⟩ = some current →
          current.StaysSuspended) ∧
        Meets PausedContainers.step
          (fun state call => ∀ current, state = some current → current.Respects call)
          (some ⟨cpu, fun _ => false⟩) calls := by
    apply throughout_iff_start_meets (fun _ => True) trivial promises (fun _ _ _ _ => trivial)
    intro state call _ _ stays
    cases state with
    | none => exact iff_of_true (fun _ isNext => nomatch isNext) fun _ isCurrent => nomatch isCurrent
    | some current =>
      constructor
      · intro after other isOther
        cases isOther
        cases result : call.perform current.cpu with
        | none => exact respects_of_none result
        | some next =>
          exact (respects_iff (stays current rfl) result).mp
            ((steps current call).mp after next result)
      · intro respects
        refine (steps current call).mpr fun after result => ?_
        exact (respects_iff (stays current rfl) result).mpr (respects current rfl)
  constructor
  · intro kept
    exact (sticky.mp kept.1).2
  · intro respects
    refine ⟨sticky.mpr ⟨start, respects⟩,
      respects.imp fun state call respected current isCurrent => ?_⟩
    exact liftsExhaustion_of_respects (respected current isCurrent)

/-- A processor that runs task 1, and a container whose cgroup task 0 is in. -/
def pausableCpu : PerCpuControl (Fin 2) where
  cgroups := idleCgroups.coreCgroupAddThread 1 0
  containers := fun address =>
    if address = 10 then some ⟨rtemsUnifiedContainerCpu, false, none, none, 1, some 1⟩ else none
  watchdogTicks := 0
  executing := 1
  heir := 1
  dispatchNecessary := false
  context := 1
  localExecuting := 1
  point := .outside

/-- The next end of a period resumes a container that has been paused. -/
theorem pausedContainer_resumed :
    ¬ Throughout PausedContainers.step
      (fun state => ∀ current, state = some current → current.StaysSuspended)
      (some ⟨pausableCpu, fun _ => false⟩) [.pause (some 10) 1, .cpuResumeRoutine 1] := by
  intro always
  obtain ⟨block, through, holds⟩ := always.final _ rfl 10 (by decide)
  have isBlock : block = 1 := by
    cases through
    rfl
  subst block
  have waits := holds.1
  revert waits
  decide

end RTContainer.Score
