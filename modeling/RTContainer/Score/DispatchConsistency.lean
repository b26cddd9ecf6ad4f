import RTContainer.Score.CpuAccounting

/-! Which thread `_Per_CPU_Control` names as executing when a dispatch ends, and
which one runs. -/

set_option autoImplicit false

namespace RTContainer.Score

open RTContainer.Rtems Machine

variable {Thread : Type} [DecidableEq Thread]

namespace PerCpuControl

open CpuAccount

variable {cpu after : PerCpuControl Thread} {cg : ObjectsId} {highestReady : Thread}

/-- Outside of a dispatch the executing thread is the one that runs. -/
def Consistent (cpu : PerCpuControl Thread) : Prop :=
  cpu.point = .outside → cpu.executing = cpu.context

def SuspendsHeir (cpu : PerCpuControl Thread) (cg : ObjectsId) : Prop :=
  statesIsReady (cpu.cgroups.currentState cpu.heir) = true ∧
    ¬ CgroupWait.cpuQuota.In (cpu.cgroups.cgroups cg).state ∧
    cpu.heir ∈ (cpu.cgroups.cgroups cg).threads

/-- A turn of the loop that finds the cgroup of the heir out of quota blocks the
heir, or the heir is the thread that runs. -/
def TurnsAgain (cpu : PerCpuControl Thread) : PerCpuCall Thread → Prop
  | .selectHeir _ => ∀ cg, cpu.cgroups.isAddedToCgroup cpu.heir = true →
      cpu.cgroups.cgroup cpu.heir = some cg → (cpu.cgroups.cgroups cg).cpuQuotaAvailable = 0 →
        cpu.heir = cpu.context ∨ cpu.SuspendsHeir cg
  | _ => True

/-- The loop keeps its own executing thread, which is the one that runs; only the
turns of the loop set another one in between. -/
structure Dispatching (cpu : PerCpuControl Thread) : Prop where
  localExecuting : cpu.point ≠ .outside → cpu.localExecuting = cpu.context
  executing : cpu.point ≠ .selecting → cpu.executing = cpu.context

omit [DecidableEq Thread] in
theorem Dispatching.consistent (dispatching : cpu.Dispatching) : cpu.Consistent := by
  intro outside
  apply dispatching.executing
  simp [outside]

private theorem suspend_blocks_iff (cpu : PerCpuControl Thread) (cg : ObjectsId) :
    (statesIsReady (cpu.cgroups.currentState cpu.heir) = true ∧
        ¬ statesIsReady ((cpu.cgroups.coreCgroupSuspend (some cg)
          statesWaitingForCgroupCpuQuota).1.currentState cpu.heir) = true) ↔
      cpu.SuspendsHeir cg := by
  unfold SuspendsHeir
  apply and_congr_right
  intro ready
  cases cpu.cgroups.coreCgroupSuspend_cases (some cg) statesWaitingForCgroupCpuQuota with
  | inl suspends =>
    obtain ⟨other, same, free, result⟩ := suspends
    cases same
    have outside : ¬ CgroupWait.cpuQuota.In (cpu.cgroups.cgroups cg).state :=
      fun isIn => isIn free
    rw [result, CgroupSystem.suspended_currentState]
    by_cases member : cpu.heir ∈ (cpu.cgroups.cgroups cg).threads
    · have waits : CgroupWait.cpuQuota.In (statesSet statesWaitingForCgroupCpuQuota
          (cpu.cgroups.currentState cpu.heir)) :=
        CgroupWait.in_statesSet.mpr (.inr (by decide))
      refine iff_of_true ?_ ⟨outside, member⟩
      rw [if_pos member]
      intro isReady
      have zero := of_decide_eq_true isReady
      rw [zero] at waits
      exact CgroupWait.not_in_ready .cpuQuota waits
    · refine iff_of_false ?_ fun both => member both.2
      rw [if_neg member]
      exact fun notReady => notReady ready
  | inr refused =>
    obtain ⟨pending, -, same⟩ := refused
    rw [same]
    exact iff_of_false (fun notReady => notReady ready) fun both => both.1 (pending cg rfl)

theorem continue_cases (cpu : PerCpuControl Thread) (cg : ObjectsId) (highestReady : Thread) :
    let turned := (cpu.threadGetHeirAndMakeItExecuting.block (cpu.cgroups.coreCgroupSuspend
      (some cg) statesWaitingForCgroupCpuQuota).1 highestReady).whileDispatchNecessary
    turned.executing = cpu.heir ∧ turned.context = cpu.context ∧
      turned.localExecuting = cpu.localExecuting ∧
      ((cpu.SuspendsHeir cg ∧ turned.point = .selecting) ∨
        (¬ cpu.SuspendsHeir cg ∧ turned.point = .outside)) := by
  have blocks := suspend_blocks_iff cpu cg
  unfold whileDispatchNecessary block threadGetHeirAndMakeItExecuting
  dsimp only
  by_cases suspends : cpu.SuspendsHeir cg
  · rw [if_pos (blocks.mpr suspends)]
    exact ⟨rfl, rfl, rfl, .inl ⟨suspends, rfl⟩⟩
  · rw [if_neg fun blocked => suspends (blocks.mp blocked)]
    exact ⟨rfl, rfl, rfl, .inr ⟨suspends, rfl⟩⟩

theorem Dispatching.selectHeir (dispatching : cpu.Dispatching) (selecting : cpu.point = .selecting)
    (result : cpu.selectHeir highestReady = some after) :
    (cpu.TurnsAgain (.selectHeir highestReady) → after.Dispatching) ∧
      (¬ cpu.TurnsAgain (.selectHeir highestReady) → ¬ after.Consistent) := by
  have isLocal : cpu.localExecuting = cpu.context :=
    dispatching.localExecuting (by simp [selecting])
  have switched : ∀ started : PerCpuControl Thread, started.localExecuting = started.context →
      started.executing = cpu.heir → (started.contextSwitch cpu.heir).Dispatching := by
    intro started sameLocal executing
    obtain ⟨-, context, localExecuting, sameExecuting, -, -⟩ :=
      contextSwitch_kept started cpu.heir sameLocal
    exact ⟨fun _ => localExecuting.trans context.symm,
      fun _ => (sameExecuting.trans executing).trans context.symm⟩
  cases selectHeir_cases result with
  | inl free =>
    obtain ⟨notAdded, isAfter⟩ := free
    have turns : cpu.TurnsAgain (.selectHeir highestReady) := by
      intro cg added
      rw [notAdded] at added
      cases added
    refine ⟨fun _ => ?_, fun stops => absurd turns stops⟩
    rw [isAfter]
    exact switched _ isLocal rfl
  | inr member =>
    obtain ⟨cg, added, named, turn⟩ := member
    cases turn with
    | inl empty =>
      obtain ⟨quota, isAfter⟩ := empty
      obtain ⟨executing, context, localExecuting, ends⟩ := continue_cases cpu cg highestReady
      rw [← isAfter] at executing context localExecuting ends
      constructor
      · intro turns
        refine ⟨fun _ => localExecuting.trans (isLocal.trans context.symm), ?_⟩
        intro elsewhere
        rw [executing, context]
        cases turns cg added named quota with
        | inl runs => exact runs
        | inr suspends =>
          cases ends with
          | inl again => exact absurd again.2 elsewhere
          | inr gaveUp => exact absurd suspends gaveUp.1
      · intro stops consistent
        apply stops
        intro other _ isOther _
        cases named.symm.trans isOther
        cases ends with
        | inl again => exact .inr again.1
        | inr gaveUp =>
          have same := consistent gaveUp.2
          rw [executing, context] at same
          exact .inl same
    | inr starts =>
      obtain ⟨filled, isAfter⟩ := starts
      have turns : cpu.TurnsAgain (.selectHeir highestReady) := by
        intro other _ isOther empty
        cases named.symm.trans isOther
        exact absurd empty filled
      refine ⟨fun _ => ?_, fun stops => absurd turns stops⟩
      rw [isAfter]
      exact switched _ isLocal rfl

theorem perform_executing {call : PerCpuCall Thread} (result : call.perform cpu = some after) :
    (∃ highestReady, call = .dispatch highestReady) ∨
      (∃ highestReady, call = .selectHeir highestReady) ∨ call = .afterSwitch ∨
      (after.point = cpu.point ∧ after.executing = cpu.executing ∧ after.context = cpu.context ∧
        after.localExecuting = cpu.localExecuting) := by
  have blocked : ∀ cgroups highestReady, (cpu.block cgroups highestReady).point = cpu.point ∧
      (cpu.block cgroups highestReady).executing = cpu.executing ∧
      (cpu.block cgroups highestReady).context = cpu.context ∧
      (cpu.block cgroups highestReady).localExecuting = cpu.localExecuting := by
    intro cgroups highestReady
    obtain ⟨-, point, executing, context, isLocal, -⟩ := block_kept cpu cgroups highestReady
    exact ⟨point, executing, context, isLocal⟩
  cases call with
  | dispatch highestReady => exact .inl ⟨highestReady, rfl⟩
  | selectHeir highestReady => exact .inr (.inl ⟨highestReady, rfl⟩)
  | afterSwitch => exact .inr (.inr (.inl rfl))
  | cpuSuspendRoutine cgroup highestReady =>
    cases result
    exact .inr (.inr (.inr (blocked _ _)))
  | pause container highestReady =>
    obtain ⟨_, -, rfl⟩ := Option.map_eq_some_iff.mp result
    exact .inr (.inr (.inr (blocked _ _)))
  | resume container =>
    obtain ⟨_, -, rfl⟩ := Option.map_eq_some_iff.mp result
    exact .inr (.inr (.inr ⟨rfl, rfl, rfl, rfl⟩))
  | _ =>
    cases result
    exact .inr (.inr (.inr ⟨rfl, rfl, rfl, rfl⟩))

theorem Dispatching.perform {call : PerCpuCall Thread} (dispatching : cpu.Dispatching)
    (possible : call.Possible cpu) (turns : cpu.TurnsAgain call)
    (result : call.perform cpu = some after) : after.Dispatching := by
  obtain ⟨highestReady, rfl⟩ | ⟨highestReady, rfl⟩ | rfl |
      ⟨point, executing, context, isLocal⟩ := perform_executing result
  · have outside : cpu.point = .outside := possible
    obtain ⟨selecting, isLocal, context, -⟩ := threadDoDispatch_cases result
    refine ⟨fun _ => ?_, fun elsewhere => absurd selecting elsewhere⟩
    rw [isLocal, context]
    exact dispatching.consistent outside
  · exact (dispatching.selectHeir possible result).1 turns
  · have behind : cpu.point = .switched := possible
    cases result
    exact ⟨fun _ => dispatching.localExecuting (by simp [behind]),
      fun _ => dispatching.executing (by simp [behind])⟩
  · constructor
    · rw [point, isLocal, context]
      exact dispatching.localExecuting
    · rw [point, executing, context]
      exact dispatching.executing

/-- A step of a run, which ends at a call through a `NULL` pointer. -/
def step (state : Option (PerCpuControl Thread)) (call : PerCpuCall Thread) :
    Option (PerCpuControl Thread) :=
  state.bind fun cpu => call.perform cpu

end PerCpuControl

open PerCpuControl

/-- Every dispatch of a run ends with the executing thread running exactly when
no turn of the loop gives up on a heir that does not run. -/
theorem dispatchRun_consistent_iff (cpu : PerCpuControl Thread) (calls : List (PerCpuCall Thread))
    (outside : cpu.point = .outside) (executing : cpu.executing = cpu.context)
    (possible : Meets PerCpuControl.step
      (fun state call => ∀ current, state = some current → call.Possible current) (some cpu) calls) :
    Throughout PerCpuControl.step (fun state => ∀ current, state = some current → current.Consistent)
        (some cpu) calls ↔
      Meets PerCpuControl.step
        (fun state call => ∀ current, state = some current → current.TurnsAgain call)
        (some cpu) calls := by
  have start : ∀ current, some cpu = some current → current.Dispatching := by
    intro current isCurrent
    cases isCurrent
    exact ⟨fun inside => absurd outside inside, fun _ => executing⟩
  apply throughout_iff_meets (fun state => ∀ current, state = some current → current.Dispatching)
    start possible
  case preserved =>
    intro state call dispatching possible turns next isNext
    obtain ⟨current, isCurrent, result⟩ := Option.bind_eq_some_iff.mp isNext
    exact (dispatching current isCurrent).perform (possible current isCurrent)
      (turns current isCurrent) result
  case sufficient => exact fun state dispatching current isCurrent =>
    (dispatching current isCurrent).consistent
  case necessary =>
    intro state call dispatching possible stops consistent
    apply stops
    intro current isCurrent
    subst state
    cases call with
    | selectHeir highestReady =>
      by_contra givesUp
      cases result : current.selectHeir highestReady with
      | none =>
        apply givesUp
        intro cg added named
        simp [PerCpuControl.selectHeir, added, named] at result
      | some next =>
        exact ((dispatching current rfl).selectHeir (possible current rfl) result).2 givesUp
          (consistent next result)
    | _ => trivial

/-- The switch to a task with quota and back ends with the running task. -/
theorem twoTicks_consistent : Throughout PerCpuControl.step
    (fun state => ∀ current, state = some current → current.Consistent) (some fiveTicks.cpu)
    twoTicks := by
  apply (dispatchRun_consistent_iff fiveTicks.cpu twoTicks rfl rfl ?possible).mpr
  case possible =>
    refine ⟨?_, ?_, ?_, ?_, ?_, ?_, ?_, ?_, ?_, trivial⟩
    all_goals
      intro current isCurrent
      cases isCurrent
      decide
  refine ⟨?_, ?_, ?_, ?select, ?_, ?_, ?_, ?_, ?_, trivial⟩
  case select =>
    intro current isCurrent cg _ named empty
    cases isCurrent
    cases named
    exact absurd empty (by decide)
  all_goals exact fun _ _ => trivial

/-- Task 0 runs; cgroup 1 is suspended, since it is out of quota. -/
def exhaustedCpu : PerCpuControl (Fin 2) :=
  { fiveTicks.cpu with
    cgroups := { idleCgroups with
      cgroups := fun _ => ⟨statesWaitingForCgroupCpuQuota, 0, [], 0, 10, 0, false, true, 0, true⟩ } }

/-- Task 1 joins the suspended cgroup and is selected. Its cgroup cannot be
suspended again, and the dispatch ends while task 0 goes on. -/
theorem exhaustedHeir_executing :
    ¬ ∀ (cpu : PerCpuControl (Fin 2)) (calls : List (PerCpuCall (Fin 2))),
    cpu.point = .outside → cpu.executing = cpu.context →
      Meets PerCpuControl.step
        (fun state call => ∀ current, state = some current → call.Possible current) (some cpu) calls →
      Throughout PerCpuControl.step
        (fun state => ∀ current, state = some current → current.Consistent) (some cpu) calls := by
  intro claim
  have possible : Meets PerCpuControl.step
      (fun state call => ∀ current, state = some current → call.Possible current) (some exhaustedCpu)
      [.addThread 1 1 true, .updateHeir 1, .dispatch 0, .selectHeir 0] := by
    refine ⟨?_, ?_, ?_, ?_, trivial⟩
    all_goals
      intro current isCurrent
      cases isCurrent
      decide
  have consistent := (claim exhaustedCpu _ rfl rfl possible).final _ rfl
  exact absurd (consistent (by decide)) (by decide)

end RTContainer.Score
