import RTContainer.Lib.Run
import RTContainer.Score.CgroupMemory

/-! Control blocks that are used again. `_CORE_cgroup_Initialize` sets the fields
of a control block but for the shrink callback and its argument, so that a cgroup
behaves as the callback has it that was last registered on its block. -/

set_option autoImplicit false

namespace RTContainer.Score

open RTContainer.Rtems Machine Function

variable {Thread Outside : Type} [DecidableEq Thread]

/-- Two callbacks with their arguments that nothing can tell apart: an argument
without a callback is not read. -/
def SameShrinker (first second : Option Nat × Nat) : Prop :=
  first.1 = second.1 ∧ (first.1 ≠ none → first.2 = second.2)

/-- The callback and the argument on a control block after a history: those that
were last registered on it, or those that it had. -/
def registered (block : ObjectsId) (start : Option Nat × Nat) (history : List CgroupHistoryCall) :
    Option Nat × Nat :=
  history.foldl
    (fun found call =>
      match call with
      | .setShrinkCallback other shrinkCallback shrinkArg =>
        if other = block then (shrinkCallback, shrinkArg) else found
      | _ => found)
    start

namespace MemorySystem

/-- The callback and the argument that a control block holds. -/
def shrinker (memory : MemorySystem Thread Outside) (block : ObjectsId) : Option Nat × Nat :=
  (memory.shrinkCallback block, memory.shrinkArg block)

/-- A cgroup in one system and a cgroup in another one that differ at most in the
address of their configurations, and in an argument without a callback. -/
structure Alike (memory : MemorySystem Thread Outside) (block : ObjectsId)
    (other : MemorySystem Thread Outside) (otherBlock : ObjectsId) : Prop where
  control : memory.cgroups block =
    { other.cgroups otherBlock with config := (memory.cgroups block).config }
  configuration : memory.configs (memory.cgroups block).config =
    other.configs (other.cgroups otherBlock).config
  shrinker : SameShrinker (memory.shrinker block) (other.shrinker otherBlock)
  currentState : memory.currentState = other.currentState
  outside : memory.outside = other.outside

variable {memory other : MemorySystem Thread Outside} {block otherBlock : ObjectsId}
variable {shrinkers : ShrinkCallbacks Outside}

section Fields

omit [DecidableEq Thread]

@[simp] theorem store_self (control : CoreCgroupControl Thread) :
    (memory.store block control).cgroups block = control := by
  simp [store, CgroupSystem.store]

@[simp] theorem store_configs (control : CoreCgroupControl Thread) :
    (memory.store block control).configs = memory.configs := rfl

section

variable (alike : memory.Alike block other otherBlock)
include alike

theorem Alike.field {Value : Type} (read : CoreCgroupControl Thread → Value)
    (blind : ∀ control config, read { control with config := config } = read control) :
    read (memory.cgroups block) = read (other.cgroups otherBlock) := by
  rw [alike.control, blind]

theorem Alike.change (change : CoreCgroupControl Thread → CoreCgroupControl Thread)
    (blind : ∀ control config,
      change { control with config := config } = { change control with config := config })
    (keeps : ∀ control, (change control).config = control.config) :
    (memory.store block (change (memory.cgroups block))).Alike block
      (other.store otherBlock (change (other.cgroups otherBlock))) otherBlock where
  __ := alike
  control := by
    rw [store_self, store_self, keeps, ← blind, ← alike.control]
  configuration := by
    simp only [store_self, store_configs, keeps]
    exact alike.configuration

theorem Alike.setStates (states : Thread → BitVec 32) :
    ({ memory with currentState := states } : MemorySystem Thread Outside).Alike block
      { other with currentState := states } otherBlock where
  __ := alike
  currentState := rfl

theorem Alike.heapFree (chargeSize : Nat) :
    (memory.heapFree block chargeSize).Alike block (other.heapFree otherBlock chargeSize)
      otherBlock := by
  have flag := alike.field CoreCgroupControl.shouldChargeNextFree fun _ _ => rfl
  simp only [MemorySystem.heapFree]
  by_cases charges : (other.cgroups otherBlock).shouldChargeNextFree = true
  · rw [if_pos (flag.trans charges), if_pos charges]
    exact alike.change
      (fun control =>
        { control with memQuotaAvailable := (control.memQuotaAvailable + chargeSize) % 2 ^ 64 })
      (fun _ _ => rfl) (fun _ => rfl)
  · rw [if_neg (flag ▸ charges), if_neg charges]
    exact alike.change (fun control => { control with shouldChargeNextFree := true })
      (fun _ _ => rfl) (fun _ => rfl)

theorem Alike.shrink (callback chargeSize : Nat)
    (isCallback : memory.shrinkCallback block = some callback) :
    (memory.shrink shrinkers block callback chargeSize).Alike block
      (other.shrink shrinkers otherBlock callback chargeSize) otherBlock := by
  have argument : memory.shrinkArg block = other.shrinkArg otherBlock :=
    alike.shrinker.2 (by simp [MemorySystem.shrinker, isCallback])
  simp only [MemorySystem.shrink, argument, alike.outside]
  generalize shrinkers callback (other.shrinkArg otherBlock) chargeSize other.outside = result
  have start : ({ memory with outside := result.1 } : MemorySystem Thread Outside).Alike block
      { other with outside := result.1 } otherBlock :=
    ⟨alike.control, alike.configuration, alike.shrinker, alike.currentState, rfl⟩
  generalize { memory with outside := result.1 } = first at start
  generalize { other with outside := result.1 } = second at start
  induction result.2 generalizing first second with
  | nil => exact start
  | cons size rest ih => exact ih _ _ (start.heapFree size)

theorem Alike.heapAllocate (chargeSize : Nat) :
    (memory.heapAllocate shrinkers block chargeSize).1.Alike block
        (other.heapAllocate shrinkers otherBlock chargeSize).1 otherBlock ∧
      (memory.heapAllocate shrinkers block chargeSize).2 =
        (other.heapAllocate shrinkers otherBlock chargeSize).2 := by
  have quota := alike.field CoreCgroupControl.memQuotaAvailable fun _ _ => rfl
  have callback : memory.shrinkCallback block = other.shrinkCallback otherBlock := alike.shrinker.1
  simp only [MemorySystem.heapAllocate, quota, callback]
  generalize isShrunk : (if chargeSize > (other.cgroups otherBlock).memQuotaAvailable then
    _ else memory) = shrunk
  generalize isOtherShrunk : (if chargeSize > (other.cgroups otherBlock).memQuotaAvailable then
    _ else other) = otherShrunk
  have shrinks : shrunk.Alike block otherShrunk otherBlock := by
    rw [← isShrunk, ← isOtherShrunk]
    split
    · cases isCallback : other.shrinkCallback otherBlock with
      | none => exact alike
      | some address => exact alike.shrink address chargeSize (callback.trans isCallback)
    · exact alike
  have quotaLeft := shrinks.field CoreCgroupControl.memQuotaAvailable fun _ _ => rfl
  by_cases refused : chargeSize > (otherShrunk.cgroups otherBlock).memQuotaAvailable
  · rw [if_pos (quotaLeft ▸ refused), if_pos refused]
    have marked := shrinks.change (fun control => { control with shouldChargeNextFree := false })
      (fun _ _ => rfl) (fun _ => rfl)
    exact ⟨marked.heapFree chargeSize, rfl⟩
  · rw [if_neg (quotaLeft ▸ refused), if_neg refused]
    have charged := shrinks.change
      (fun control => { control with memQuotaAvailable := control.memQuotaAvailable - chargeSize })
      (fun _ _ => rfl) (fun _ => rfl)
    exact ⟨charged, rfl⟩

theorem Alike.invoked (chargeSize : Nat) :
    memory.invoked block chargeSize = other.invoked otherBlock chargeSize := by
  have quota := alike.field CoreCgroupControl.memQuotaAvailable fun _ _ => rfl
  have callback : memory.shrinkCallback block = other.shrinkCallback otherBlock := alike.shrinker.1
  simp only [MemorySystem.invoked, quota, callback]
  cases isCallback : other.shrinkCallback otherBlock with
  | none => rfl
  | some address =>
    have argument : memory.shrinkArg block = other.shrinkArg otherBlock :=
      alike.shrinker.2 (by simp [MemorySystem.shrinker, callback, isCallback])
    rw [argument]

theorem Alike.setCpuResumeWatchdog :
    ({ memory with toCgroupSystem := memory.toCgroupSystem.setCpuResumeWatchdog block } :
          MemorySystem Thread Outside).Alike block
      { other with toCgroupSystem := other.toCgroupSystem.setCpuResumeWatchdog otherBlock }
      otherBlock := by
  simp only [CgroupSystem.setCpuResumeWatchdog, alike.configuration]
  exact alike.change
    (fun control =>
      { control with
        cpuQuotaAvailable := (other.configs (other.cgroups otherBlock).config).cpuQuota
        cpuResumeWatchdog := true })
    (fun _ _ => rfl) (fun _ => rfl)

theorem Alike.setConfig (change : CoreCgroupConfig → CoreCgroupConfig) :
    ({ memory with
        configs := update memory.configs (memory.cgroups block).config
          (change (memory.configs (memory.cgroups block).config)) } :
            MemorySystem Thread Outside).Alike block
      { other with
        configs := update other.configs (other.cgroups otherBlock).config
          (change (other.configs (other.cgroups otherBlock).config)) } otherBlock where
  __ := alike
  configuration := by simp only [update_self, alike.configuration]

theorem Alike.setMemoryLimit (memoryLimit : Nat) :
    (memory.setMemoryLimit block memoryLimit).Alike block
      (other.setMemoryLimit otherBlock memoryLimit) otherBlock := by
  have configured := alike.setConfig fun config => { config with memoryLimit := memoryLimit }
  exact configured.change (fun control => { control with memQuotaAvailable := memoryLimit })
    (fun _ _ => rfl) (fun _ => rfl)

theorem Alike.coreCgroupSetShrinkCallback (shrinkCallback : Option Nat) (shrinkArg : Nat) :
    (memory.coreCgroupSetShrinkCallback block shrinkCallback shrinkArg).Alike block
      (other.coreCgroupSetShrinkCallback otherBlock shrinkCallback shrinkArg) otherBlock where
  __ := alike
  shrinker := by
    simp [MemorySystem.shrinker, MemorySystem.coreCgroupSetShrinkCallback, SameShrinker]

end

end Fields

section

variable (alike : memory.Alike block other otherBlock)
include alike

theorem Alike.coreCgroupSuspend (waitState : BitVec 32) :
    ({ memory with
        toCgroupSystem := (memory.coreCgroupSuspend (some block) waitState).1 } :
          MemorySystem Thread Outside).Alike block
        { other with
          toCgroupSystem := (other.coreCgroupSuspend (some otherBlock) waitState).1 } otherBlock ∧
      (memory.coreCgroupSuspend (some block) waitState).2 =
        (other.coreCgroupSuspend (some otherBlock) waitState).2 := by
  have state := alike.field CoreCgroupControl.state fun _ _ => rfl
  have threads := alike.field CoreCgroupControl.threads fun _ _ => rfl
  simp only [CgroupSystem.coreCgroupSuspend, state, threads, alike.currentState]
  split
  · exact ⟨alike, rfl⟩
  · have changed := alike.change
      (fun control => { control with state := control.state ||| waitState })
      (fun _ _ => rfl) (fun _ => rfl)
    have result := changed.setStates (CgroupSystem.setStates waitState
      (other.cgroups otherBlock).threads other.currentState)
    rw [state, threads] at result
    exact ⟨result, rfl⟩

theorem Alike.coreCgroupResume (waitState : BitVec 32) :
    ({ memory with
        toCgroupSystem := (memory.coreCgroupResume (some block) waitState).1 } :
          MemorySystem Thread Outside).Alike block
        { other with
          toCgroupSystem := (other.coreCgroupResume (some otherBlock) waitState).1 } otherBlock ∧
      (memory.coreCgroupResume (some block) waitState).2 =
        (other.coreCgroupResume (some otherBlock) waitState).2 := by
  have state := alike.field CoreCgroupControl.state fun _ _ => rfl
  have threads := alike.field CoreCgroupControl.threads fun _ _ => rfl
  simp only [CgroupSystem.coreCgroupResume, state, threads, alike.currentState]
  have changed := alike.change
    (fun control => { control with state := control.state &&& ~~~waitState })
    (fun _ _ => rfl) (fun _ => rfl)
  have cleared := changed.setStates (CgroupSystem.clearStates waitState
    (other.cgroups otherBlock).threads other.currentState)
  rw [state, threads] at changed cleared
  split
  · exact ⟨alike, rfl⟩
  · split
    · exact ⟨alike, rfl⟩
    · split
      · exact ⟨cleared, rfl⟩
      · exact ⟨changed, rfl⟩

theorem Alike.coreCgroupConsumeCpuQuota (cpuTicksDelta : Nat) :
    ({ memory with
        toCgroupSystem := memory.coreCgroupConsumeCpuQuota block cpuTicksDelta } :
          MemorySystem Thread Outside).Alike block
      { other with
        toCgroupSystem := other.coreCgroupConsumeCpuQuota otherBlock cpuTicksDelta }
      otherBlock := by
  have quota := alike.field CoreCgroupControl.cpuQuotaAvailable fun _ _ => rfl
  simp only [CgroupSystem.coreCgroupConsumeCpuQuota, quota]
  split
  · have emptied := alike.change (fun control => { control with cpuQuotaAvailable := 0 })
      (fun _ _ => rfl) (fun _ => rfl)
    exact (emptied.coreCgroupSuspend statesWaitingForCgroupCpuQuota).1
  · have charged := alike.change
      (fun control =>
        { control with cpuQuotaAvailable := control.cpuQuotaAvailable - cpuTicksDelta })
      (fun _ _ => rfl) (fun _ => rfl)
    rw [quota] at charged
    exact charged

theorem Alike.cpuSuspendRoutine :
    ({ memory with toCgroupSystem := memory.toCgroupSystem.cpuSuspendRoutine block } :
          MemorySystem Thread Outside).Alike block
      { other with toCgroupSystem := other.toCgroupSystem.cpuSuspendRoutine otherBlock }
      otherBlock := by
  have cancelled := alike.change (fun control => { control with cpuSuspendWatchdog := false })
    (fun _ _ => rfl) (fun _ => rfl)
  exact (cancelled.coreCgroupSuspend statesWaitingForCgroupCpuQuota).1

theorem Alike.cpuResumeRoutine :
    ({ memory with toCgroupSystem := memory.toCgroupSystem.cpuResumeRoutine block } :
          MemorySystem Thread Outside).Alike block
      { other with toCgroupSystem := other.toCgroupSystem.cpuResumeRoutine otherBlock }
      otherBlock :=
  (alike.coreCgroupResume statesWaitingForCgroupCpuQuota).1.setCpuResumeWatchdog

theorem Alike.coreCgroupAddThread (thread : Thread) :
    ({ memory with toCgroupSystem := memory.coreCgroupAddThread block thread } :
          MemorySystem Thread Outside).Alike block
      { other with toCgroupSystem := other.coreCgroupAddThread otherBlock thread }
      otherBlock := by
  have added := alike.change
    (fun control =>
      { control with
        threads := control.threads ++ [thread]
        threadCount := (control.threadCount + 1) % 2 ^ 32 })
    (fun _ _ => rfl) (fun _ => rfl)
  exact ⟨added.control, added.configuration, added.shrinker, added.currentState, added.outside⟩

theorem Alike.coreCgroupRemoveThread (thread : Thread) :
    (memory.coreCgroupRemoveThread block thread = none ∧
        other.coreCgroupRemoveThread otherBlock thread = none) ∨
      ∃ removed otherRemoved, memory.coreCgroupRemoveThread block thread = some removed ∧
        other.coreCgroupRemoveThread otherBlock thread = some otherRemoved ∧
        ({ memory with toCgroupSystem := removed } : MemorySystem Thread Outside).Alike block
          { other with toCgroupSystem := otherRemoved } otherBlock := by
  have threads := alike.field CoreCgroupControl.threads fun _ _ => rfl
  by_cases onChain : thread ∈ (other.cgroups otherBlock).threads
  · have removed := alike.change
      (fun control =>
        { control with
          threads := control.threads.erase thread
          threadCount := (control.threadCount + (2 ^ 32 - 1)) % 2 ^ 32 })
      (fun _ _ => rfl) (fun _ => rfl)
    exact .inr ⟨_, _, if_pos (threads ▸ onChain), if_pos onChain, removed⟩
  · exact .inl ⟨if_neg (threads ▸ onChain), if_neg onChain⟩

theorem Alike.use (shrinkers : ShrinkCallbacks Outside) (cgroupUse : CgroupUse Thread) :
    (memory.use shrinkers block cgroupUse).1.Alike block
        (other.use shrinkers otherBlock cgroupUse).1 otherBlock ∧
      (memory.use shrinkers block cgroupUse).2 = (other.use shrinkers otherBlock cgroupUse).2 := by
  cases cgroupUse with
  | allocate size => exact alike.heapAllocate size
  | free size => exact ⟨alike.heapFree size, rfl⟩
  | consumeCpuQuota cpuTicksDelta => exact ⟨alike.coreCgroupConsumeCpuQuota cpuTicksDelta, rfl⟩
  | suspend waitState =>
    obtain ⟨suspended, status⟩ := alike.coreCgroupSuspend waitState
    exact ⟨suspended, by simp only [MemorySystem.use, status]⟩
  | resume waitState =>
    obtain ⟨resumed, status⟩ := alike.coreCgroupResume waitState
    exact ⟨resumed, by simp only [MemorySystem.use, status]⟩
  | cpuSuspendRoutine => exact ⟨alike.cpuSuspendRoutine, rfl⟩
  | cpuResumeRoutine => exact ⟨alike.cpuResumeRoutine, rfl⟩
  | addThread thread workspace =>
    cases workspace with
    | false => exact ⟨alike, rfl⟩
    | true => exact ⟨alike.coreCgroupAddThread thread, rfl⟩
  | removeThread thread =>
    cases alike.coreCgroupRemoveThread thread with
    | inl absent =>
      simp only [MemorySystem.use, absent.1, absent.2]
      exact ⟨alike, trivial⟩
    | inr onChain =>
      obtain ⟨removed, otherRemoved, result, otherResult, stillAlike⟩ := onChain
      simp only [MemorySystem.use, result, otherResult]
      exact ⟨stillAlike, trivial⟩
  | setCpuQuota cpuQuota cpuPeriod =>
    exact ⟨alike.setConfig fun config =>
      { config with cpuQuota := cpuQuota, cpuPeriod := cpuPeriod }, rfl⟩
  | setMemoryLimit memoryLimit => exact ⟨alike.setMemoryLimit memoryLimit, rfl⟩
  | setShrinkCallback shrinkCallback shrinkArg =>
    exact ⟨alike.coreCgroupSetShrinkCallback shrinkCallback shrinkArg, rfl⟩

theorem Alike.outcome (shrinkers : ShrinkCallbacks Outside) (cgroupUse : CgroupUse Thread) :
    memory.outcome shrinkers block cgroupUse = other.outcome shrinkers otherBlock cgroupUse := by
  obtain ⟨stillAlike, succeeded⟩ := alike.use shrinkers cgroupUse
  have state := stillAlike.field CoreCgroupControl.state fun _ _ => rfl
  have invoked : ∀ size, memory.invoked block size = other.invoked otherBlock size :=
    fun size => alike.invoked size
  simp only [MemorySystem.outcome, succeeded, state, stillAlike.currentState, invoked]

end

def behaviour (shrinkers : ShrinkCallbacks Outside) (block : ObjectsId)
    (memory : MemorySystem Thread Outside) (uses : List (CgroupUse Thread)) :
    List (CgroupOutcome Thread) :=
  observe (fun memory cgroupUse => (memory.use shrinkers block cgroupUse).1)
    (fun memory cgroupUse => memory.outcome shrinkers block cgroupUse) memory uses

theorem Alike.behaviour (alike : memory.Alike block other otherBlock)
    (uses : List (CgroupUse Thread)) :
    memory.behaviour shrinkers block uses = other.behaviour shrinkers otherBlock uses := by
  apply observe_eq_of_related fun memory other => memory.Alike block other otherBlock
  · intro state otherState cgroupUse stateAlike
    exact stateAlike.outcome shrinkers cgroupUse
  · intro state otherState cgroupUse stateAlike
    exact (stateAlike.use shrinkers cgroupUse).1
  · exact alike

structure Follows (start memory : MemorySystem Thread Outside) (history : List CgroupHistoryCall) :
    Prop where
  configs : memory.configs = start.configs
  currentState : memory.currentState = start.currentState
  outside : memory.outside = start.outside
  shrinker : ∀ block, memory.shrinker block = registered block (start.shrinker block) history

/-- The system after a cgroup has been created. -/
def created (memory : MemorySystem Thread Outside) (block : ObjectsId) (config : Nat) :
    MemorySystem Thread Outside :=
  { memory with
    toCgroupSystem :=
      { memory.coreCgroupInitialize block config with opened := block :: memory.opened } }

section Histories

omit [DecidableEq Thread]

theorem create_cases (memory : MemorySystem Thread Outside) (name : BitVec 32) (id : Bool)
    (config : Nat) (allocated : Option ObjectsId) :
    (∃ block, memory.rtemsCgroupCreate name id config allocated =
        (memory.created block config, .ok block)) ∨
      ∃ status, memory.rtemsCgroupCreate name id config allocated = (memory, .error status) := by
  simp only [rtemsCgroupCreate, Rtems.rtemsCgroupCreate]
  by_cases unnamed : name = 0
  · rw [if_pos unnamed]
    exact .inr ⟨.invalidName, rfl⟩
  · rw [if_neg unnamed]
    cases id with
    | false => exact .inr ⟨.invalidAddress, rfl⟩
    | true =>
      cases allocated with
      | none => exact .inr ⟨.tooMany, rfl⟩
      | some block => exact .inl ⟨block, rfl⟩

theorem eq_created {name : BitVec 32} {id : Bool} {config : Nat} {allocated : Option ObjectsId}
    {after : MemorySystem Thread Outside}
    (result : memory.rtemsCgroupCreate name id config allocated = (after, .ok block)) :
    after = memory.created block config := by
  cases memory.create_cases name id config allocated with
  | inl succeeds =>
    obtain ⟨found, succeeds⟩ := succeeds
    rw [succeeds] at result
    cases result
    rfl
  | inr refused =>
    obtain ⟨status, refused⟩ := refused
    rw [refused] at result
    cases result

theorem created_alike {config otherConfig : Nat}
    (sameConfig : memory.configs config = other.configs otherConfig)
    (currentState : memory.currentState = other.currentState)
    (outside : memory.outside = other.outside)
    (shrinker : SameShrinker (memory.shrinker block) (other.shrinker otherBlock)) :
    (memory.created block config).Alike block (other.created otherBlock otherConfig)
      otherBlock where
  control := by
    simp [created, CgroupSystem.coreCgroupInitialize, CgroupSystem.store, sameConfig]
  configuration := by
    simpa [created, CgroupSystem.coreCgroupInitialize, CgroupSystem.store] using sameConfig
  shrinker := shrinker
  currentState := currentState
  outside := outside

theorem historyStep_follows (memory : MemorySystem Thread Outside) (call : CgroupHistoryCall) :
    memory.Follows (memory.historyStep call) [call] := by
  cases call with
  | create name id config allocated =>
    simp only [historyStep]
    cases memory.create_cases name id config allocated with
    | inl created =>
      obtain ⟨block, result⟩ := created
      rw [result]
      exact ⟨rfl, rfl, rfl, fun _ => rfl⟩
    | inr refused =>
      obtain ⟨status, result⟩ := refused
      rw [result]
      exact ⟨rfl, rfl, rfl, fun _ => rfl⟩
  | setShrinkCallback registeredBlock shrinkCallback shrinkArg =>
    refine ⟨rfl, rfl, rfl, ?_⟩
    intro block
    by_cases same : registeredBlock = block
    · subst registeredBlock
      simp [historyStep, coreCgroupSetShrinkCallback, MemorySystem.shrinker, registered]
    · simp [historyStep, coreCgroupSetShrinkCallback, MemorySystem.shrinker, registered, same,
        Ne.symm same]
  | delete id =>
    simp only [historyStep, rtemsCgroupDelete, Rtems.rtemsCgroupDelete]
    cases cgroupGet memory.toCgroupSystem id with
    | none | some => exact ⟨rfl, rfl, rfl, fun _ => rfl⟩

theorem history_follows (start : MemorySystem Thread Outside) (history : List CgroupHistoryCall) :
    start.Follows (run historyStep start history) history := by
  induction history generalizing start with
  | nil => exact ⟨rfl, rfl, rfl, fun _ => rfl⟩
  | cons call rest ih =>
    have first := start.historyStep_follows call
    have later := ih (start.historyStep call)
    refine ⟨later.configs.trans first.configs, later.currentState.trans first.currentState,
      later.outside.trans first.outside, ?_⟩
    intro block
    rw [run_cons, later.shrinker, first.shrinker]
    rfl

end Histories

theorem sameShrinker_of_behaviour
    (same : ∀ uses : List (CgroupUse Thread),
      memory.behaviour shrinkers block uses = other.behaviour shrinkers otherBlock uses) :
    SameShrinker (memory.shrinker block) (other.shrinker otherBlock) := by
  have seen := same [.setMemoryLimit 0, .allocate 1]
  have limited : ∀ (system : MemorySystem Thread Outside) (found : ObjectsId),
      (system.setMemoryLimit found 0).invoked found 1 =
        (system.shrinkCallback found).map fun callback =>
          (callback, system.shrinkArg found, 1) := by
    intro system found
    simp [invoked, setMemoryLimit, store, CgroupSystem.store]
  simp only [behaviour, observe, List.cons.injEq, outcome, use, CgroupOutcome.mk.injEq,
    limited] at seen
  have callbacks := seen.2.1.1
  cases isCallback : memory.shrinkCallback block with
  | none =>
    rw [isCallback, Option.map_none, eq_comm, Option.map_eq_none_iff] at callbacks
    exact ⟨isCallback.trans callbacks.symm, fun named => absurd isCallback named⟩
  | some callback =>
    rw [isCallback, Option.map_some, eq_comm, Option.map_eq_some_iff] at callbacks
    obtain ⟨otherCallback, isOther, sameCall⟩ := callbacks
    rw [Prod.mk.injEq, Prod.mk.injEq] at sameCall
    refine ⟨?_, fun _ => sameCall.2.1.symm⟩
    rw [MemorySystem.shrinker, MemorySystem.shrinker, isCallback, isOther, sameCall.1]

end MemorySystem

open MemorySystem in
/-- Two cgroups that have been created with the same configuration after any
histories behave alike in every use exactly when the callbacks that the histories
left on their control blocks cannot be told apart. -/
theorem createdCgroups_behaveAlike_iff (shrinkers : ShrinkCallbacks Outside)
    (start : MemorySystem Thread Outside) (history otherHistory : List CgroupHistoryCall)
    (name otherName : BitVec 32) (config otherConfig : Nat)
    (allocated otherAllocated : Option ObjectsId) (memory other : MemorySystem Thread Outside)
    (block otherBlock : ObjectsId)
    (sameConfig : start.configs config = start.configs otherConfig)
    (created : (run historyStep start history).rtemsCgroupCreate name true config allocated =
      (memory, .ok block))
    (otherCreated : (run historyStep start otherHistory).rtemsCgroupCreate otherName true
      otherConfig otherAllocated = (other, .ok otherBlock)) :
    (∀ uses : List (CgroupUse Thread),
        memory.behaviour shrinkers block uses = other.behaviour shrinkers otherBlock uses) ↔
      SameShrinker (registered block (start.shrinker block) history)
        (registered otherBlock (start.shrinker otherBlock) otherHistory) := by
  have follows := start.history_follows history
  have otherFollows := start.history_follows otherHistory
  have isCreated := eq_created created
  have isOtherCreated := eq_created otherCreated
  subst memory other
  rw [← follows.shrinker, ← otherFollows.shrinker]
  constructor
  · exact sameShrinker_of_behaviour
  · intro shrinker uses
    apply Alike.behaviour
    apply created_alike
    · rw [follows.configs, otherFollows.configs]
      exact sameConfig
    · exact follows.currentState.trans otherFollows.currentState.symm
    · exact follows.outside.trans otherFollows.outside.symm
    · exact shrinker

/-- A system without cgroups, in which every configuration limits the memory to
eight bytes. -/
def unusedBlocks : MemorySystem (Fin 1) Unit where
  opened := []
  cgroups := fun _ => ⟨statesReady, 0, [], 0, 10, 0, false, false, 0, true⟩
  configs := fun _ => ⟨1, 1, 10, 8, 0⟩
  cgroup := fun _ => none
  isAddedToCgroup := fun _ => false
  currentState := fun _ => statesReady
  lastCpuStartTimestamp := fun _ => 0
  shrinkCallback := fun _ => none
  shrinkArg := fun _ => 0
  outside := ()

/-- Callbacks that free as much as they are asked for. -/
def obligingShrinkers : ShrinkCallbacks Unit := fun _ _ target outside => (outside, [target])

/-- A control block that has been used before without a callback. -/
theorem usedBlock_behavesAlike :
    (unusedBlocks.rtemsCgroupCreate 1 true 0 (some 4)).1.behaviour obligingShrinkers 4 =
      ((run MemorySystem.historyStep unusedBlocks
        [.create 2 true 0 (some 5), .delete 5]).rtemsCgroupCreate 1 true 0
          (some 5)).1.behaviour obligingShrinkers 5 :=
  funext <| (createdCgroups_behaveAlike_iff obligingShrinkers unusedBlocks []
    [.create 2 true 0 (some 5), .delete 5] 1 1 0 0 (some 4) (some 5) _ _ 4 5 rfl rfl rfl).mpr
    ⟨rfl, fun _ => rfl⟩

/-- A control block keeps the callback of the cgroup that used it before: it is
called for a new cgroup, and lets an allocation through that goes beyond the limit. -/
theorem recycledBlock_differs :
    ¬ ∀ uses : List (CgroupUse (Fin 1)),
      (unusedBlocks.rtemsCgroupCreate 1 true 0 (some 4)).1.behaviour obligingShrinkers 4 uses =
        ((run MemorySystem.historyStep unusedBlocks
          [.create 2 true 0 (some 4), .setShrinkCallback 4 (some 7) 3, .delete 4]).rtemsCgroupCreate
            1 true 0 (some 4)).1.behaviour obligingShrinkers 4 uses := by
  intro same
  have admitted := congrArg (List.map CgroupOutcome.succeeded) (same [.allocate 9])
  revert admitted
  decide +kernel

end RTContainer.Score
