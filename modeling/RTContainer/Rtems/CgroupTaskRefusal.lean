import RTContainer.Rtems.CgroupMembership

/-! What `rtems_cgroup_add_task` and `rtems_cgroup_remove_task` refuse. Neither
looks at the pointers that the two lookups return, and an addition looks at
neither the thread nor the number of threads. -/

set_option autoImplicit false

namespace RTContainer.Rtems

open RTContainer.Score

variable {Thread : Type} [DecidableEq Thread]

inductive CgroupTaskCall where
  | addTask (cgroupId taskId : ObjectsId) (workspace : Bool)
  | removeTask (cgroupId taskId : ObjectsId)

def ObjectNames.taskNamed (names : ObjectNames Thread) (executing : Thread) (id : ObjectsId) :
    ObjectsId :=
  if id = 0 then names.threadId executing else id

namespace CgroupTaskCall

variable (names : ObjectNames Thread) (executing : Thread) (system : CgroupSystem Thread)

/-- The result of a call, `none` when it goes through a `NULL` pointer. -/
def perform : CgroupTaskCall → Option (CgroupSystem Thread × StatusCode)
  | addTask cgroupId taskId workspace =>
    rtemsCgroupAddTask names system cgroupId (names.taskNamed executing taskId) workspace
  | removeTask cgroupId taskId =>
    rtemsCgroupRemoveTask names system cgroupId (names.taskNamed executing taskId)

def cgroupId : CgroupTaskCall → ObjectsId
  | addTask cgroupId _ _ => cgroupId
  | removeTask cgroupId _ => cgroupId

def taskId : CgroupTaskCall → ObjectsId
  | addTask _ taskId _ => taskId
  | removeTask _ taskId => taskId

variable (call : CgroupTaskCall)

def Unresolved : Prop :=
  cgroupGet system call.cgroupId = none ∨
    names.threadGet (names.taskNamed executing call.taskId) = none

def Belongs : Prop :=
  ∃ block ∈ system.opened, ∃ thread ∈ (system.cgroups block).threads,
    names.threadGet (names.taskNamed executing call.taskId) = some thread

def Full : Prop :=
  ∃ block, cgroupGet system call.cgroupId = some block ∧ ¬system.coreCgroupCanAddThread block

def ToRefuse : Prop :=
  match call with
  | addTask .. =>
    call.Unresolved names executing system ∨ call.Belongs names executing system ∨ call.Full system
  | removeTask .. => call.Unresolved names executing system

/-- The call returns an error and changes nothing. -/
def Refused : Prop :=
  ∃ status, status ≠ .successful ∧ call.perform names executing system = some (system, status)

/-- No node can be allocated for an addition, or there is nothing to refuse about
it; a removal is from a cgroup that exists. -/
def Noticed : Prop :=
  match call with
  | addTask cgroupId taskId workspace =>
    workspace = false ∨
      (∃ block thread, cgroupGet system cgroupId = some block ∧
        names.threadGet (names.taskNamed executing taskId) = some thread ∧
        system.coreCgroupCanAddThread block ∧
        ∀ other ∈ system.opened, thread ∉ (system.cgroups other).threads)
  | removeTask cgroupId _ => cgroupGet system cgroupId ≠ none

variable {names executing} {system}

theorem addTask_refused (cgroupId taskId : ObjectsId) :
    (addTask cgroupId taskId false).Refused names executing system :=
  ⟨.resourceInUse, by decide, rfl⟩

theorem addTask_not_refused (cgroupId taskId : ObjectsId) :
    ¬(addTask cgroupId taskId true).Refused names executing system := by
  rintro ⟨status, failed, result⟩
  rw [perform, rtemsCgroupAddTask, if_pos rfl] at result
  split at result
  next =>
    have same := congrArg Prod.snd (Option.some.inj result)
    exact failed same.symm
  next => cases result

omit [DecidableEq Thread] in
theorem addTask_toRefuse_iff (names : ObjectNames Thread) (executing : Thread)
    (system : CgroupSystem Thread) (cgroupId taskId : ObjectsId) (workspace : Bool) :
    ¬(addTask cgroupId taskId workspace).ToRefuse names executing system ↔
      ∃ block thread, cgroupGet system cgroupId = some block ∧
        names.threadGet (names.taskNamed executing taskId) = some thread ∧
        system.coreCgroupCanAddThread block ∧
        ∀ other ∈ system.opened, thread ∉ (system.cgroups other).threads := by
  constructor
  · intro accepted
    simp only [ToRefuse, Unresolved, not_or] at accepted
    obtain ⟨⟨hasBlock, hasThread⟩, apart, room⟩ := accepted
    obtain ⟨block, isBlock⟩ := Option.ne_none_iff_exists'.mp hasBlock
    obtain ⟨thread, isThread⟩ := Option.ne_none_iff_exists'.mp hasThread
    refine ⟨block, thread, isBlock, isThread, ?_, ?_⟩
    · by_contra full
      exact room ⟨block, isBlock, full⟩
    · intro other isOpen member
      exact apart ⟨other, isOpen, thread, member, isThread⟩
  · rintro ⟨block, thread, isBlock, isThread, room, apart⟩ (unresolved | belongs | full)
    · rcases unresolved with noBlock | noThread
      · exact absurd (isBlock.symm.trans noBlock) (Option.some_ne_none block)
      · exact absurd (isThread.symm.trans noThread) (Option.some_ne_none thread)
    · obtain ⟨other, isOpen, member, inside, isMember⟩ := belongs
      cases isThread.symm.trans isMember
      exact apart other isOpen inside
    · obtain ⟨other, isOther, full⟩ := full
      cases isBlock.symm.trans isOther
      exact full room

theorem removeTask_refused {cgroupId taskId : ObjectsId}
    (exists' : cgroupGet system cgroupId ≠ none)
    (unresolved : (removeTask cgroupId taskId).Unresolved names executing system) :
    (removeTask cgroupId taskId).Refused names executing system := by
  obtain ⟨block, isBlock⟩ := Option.ne_none_iff_exists'.mp exists'
  have noThread : names.threadGet (names.taskNamed executing taskId) = none := by
    rcases unresolved with noBlock | noThread
    · exact absurd noBlock exists'
    · exact noThread
  refine ⟨.resourceInUse, by decide, ?_⟩
  rw [perform, rtemsCgroupRemoveTask, isBlock]
  dsimp only
  rw [noThread]
  rfl

theorem removeTask_not_refused {cgroupId taskId : ObjectsId}
    (missing : cgroupGet system cgroupId = none) :
    ¬(removeTask cgroupId taskId).Refused names executing system := by
  rintro ⟨status, failed, result⟩
  rw [perform, rtemsCgroupRemoveTask, missing] at result
  cases result

/-- In every state a call refuses what it is to refuse exactly when its node cannot
be allocated or there is nothing to refuse, or, for a removal, when the cgroup
exists. -/
theorem refuses_iff (names : ObjectNames Thread) (executing : Thread)
    (system : CgroupSystem Thread) (call : CgroupTaskCall) :
    (call.ToRefuse names executing system → call.Refused names executing system) ↔
      call.Noticed names executing system := by
  cases call with
  | addTask cgroupId taskId workspace =>
    cases workspace with
    | false => exact iff_of_true (fun _ => addTask_refused cgroupId taskId) (.inl rfl)
    | true =>
      have accepts := addTask_toRefuse_iff names executing system cgroupId taskId true
      rw [Noticed, ← accepts]
      constructor
      · intro refuses
        exact .inr fun toRefuse => addTask_not_refused cgroupId taskId (refuses toRefuse)
      · rintro (noNode | accepted) toRefuse
        · cases noNode
        · exact absurd toRefuse accepted
  | removeTask cgroupId taskId =>
    constructor
    · intro refuses missing
      exact removeTask_not_refused missing (refuses (.inl missing))
    · intro exists' unresolved
      exact removeTask_refused exists' unresolved

end CgroupTaskCall

def oneTaskNames : ObjectNames Unit where
  threadId := fun _ => 0x0a010001#32
  threadGet := fun id => if id = 0x0a010001#32 then some () else none
  threadGet_eq_some := by
    intro id thread
    rcases Decidable.em (id = 0x0a010001#32) with same | different
    · simp [same]
    · simp [different, Ne.symm different]

/-- One cgroup, just created, with cleared control blocks besides. -/
def newCgroup : CgroupSystem Unit :=
  { opened := [0x5a010001#32]
    cgroups := fun _ =>
      { state := 0, config := 0, threads := [], threadCount := 0, maxThreads := 0,
        cpuQuotaAvailable := 0, cpuSuspendWatchdog := false, cpuResumeWatchdog := false,
        memQuotaAvailable := 0, shouldChargeNextFree := false }
    configs := fun _ =>
      { cpuShares := 0, cpuQuota := 0, cpuPeriod := 0, memoryLimit := 0, blkioLimit := 0 }
    cgroup := fun _ => none
    isAddedToCgroup := fun _ => false
    currentState := fun _ => 0
    lastCpuStartTimestamp := fun _ => 0 : CgroupSystem Unit }.coreCgroupInitialize 0x5a010001#32 0

/-- The task is added to the cgroup and then added again, which is not refused. -/
theorem secondAddition_accepted :
    let cgroupSystem := newCgroup.coreCgroupAddThread 0x5a010001#32 ()
    let call := CgroupTaskCall.addTask 0x5a010001#32 0x0a010001#32 true
    ¬(call.ToRefuse oneTaskNames () cgroupSystem → call.Refused oneTaskNames () cgroupSystem) := by
  intro cgroupSystem call refuses
  have onChain : () ∈ (cgroupSystem.cgroups 0x5a010001#32).threads := by
    rw [show (cgroupSystem.cgroups 0x5a010001#32).threads = [()] from rfl]
    exact List.mem_singleton_self ()
  have belongs : call.Belongs oneTaskNames () cgroupSystem :=
    ⟨0x5a010001#32, List.mem_singleton_self _, (), onChain, rfl⟩
  exact CgroupTaskCall.addTask_not_refused _ _ (refuses (.inr (.inl belongs)))

end RTContainer.Rtems
