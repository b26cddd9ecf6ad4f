import RTContainer.Score.ThreadDispatch

/-! The memory quota of the cgroups. An allocation charges the cgroup of the
executing thread, after it has called the shrink callback of a cgroup whose quota
is too small, and a free of a charged block gives the charge back. -/

set_option autoImplicit false

namespace RTContainer.Score

open RTContainer.Rtems Function

/-- The cgroups with their shrink callbacks, which are named by their addresses,
and what the callbacks act on. A control block keeps these fields as well while
its object is not open. -/
structure MemorySystem (Thread Outside : Type) extends CgroupSystem Thread where
  shrinkCallback : ObjectsId → Option Nat
  shrinkArg : ObjectsId → Nat
  outside : Outside

/-- What a shrink callback does, given its address, its argument and the target:
it changes the rest of the system and frees blocks that are charged to the cgroup,
here given by their requested sizes. -/
abbrev ShrinkCallbacks (Outside : Type) : Type :=
  Nat → Nat → Nat → Outside → Outside × List Nat

variable {Thread Outside : Type} [DecidableEq Thread]

namespace MemorySystem

def store (memory : MemorySystem Thread Outside) (block : ObjectsId)
    (control : CoreCgroupControl Thread) : MemorySystem Thread Outside :=
  { memory with toCgroupSystem := memory.toCgroupSystem.store block control }

variable (memory : MemorySystem Thread Outside) (block : ObjectsId)

def coreCgroupSetShrinkCallback
    (shrinkCallback : Option Nat) (shrinkArg : Nat) : MemorySystem Thread Outside :=
  { memory with
    shrinkCallback := update memory.shrinkCallback block shrinkCallback
    shrinkArg := update memory.shrinkArg block shrinkArg }

def heapFree (chargeSize : Nat) : MemorySystem Thread Outside :=
  let control := memory.cgroups block
  if control.shouldChargeNextFree then
    memory.store block
      { control with memQuotaAvailable := (control.memQuotaAvailable + chargeSize) % 2 ^ 64 }
  else memory.store block { control with shouldChargeNextFree := true }

def shrink (shrinkers : ShrinkCallbacks Outside) (memory : MemorySystem Thread Outside)
    (block : ObjectsId) (callback chargeSize : Nat) : MemorySystem Thread Outside :=
  let (outside, freed) := shrinkers callback (memory.shrinkArg block) chargeSize memory.outside
  freed.foldl (fun memory size => memory.heapFree block size) { memory with outside := outside }

/-- The part of `_Heap_Allocate_aligned_with_boundary` that charges the cgroup of
the executing thread for a block that has been found. -/
def heapAllocate (shrinkers : ShrinkCallbacks Outside) (memory : MemorySystem Thread Outside)
    (block : ObjectsId) (chargeSize : Nat) : MemorySystem Thread Outside × Bool :=
  let shrunk :=
    if chargeSize > (memory.cgroups block).memQuotaAvailable then
      match memory.shrinkCallback block with
      | none => memory
      | some callback => memory.shrink shrinkers block callback chargeSize
    else memory
  let control := shrunk.cgroups block
  if chargeSize > control.memQuotaAvailable then
    ((shrunk.store block { control with shouldChargeNextFree := false }).heapFree block chargeSize,
      false)
  else
    (shrunk.store block
      { control with memQuotaAvailable := control.memQuotaAvailable - chargeSize }, true)

def invoked (chargeSize : Nat) : Option (Nat × Nat × Nat) :=
  if chargeSize > (memory.cgroups block).memQuotaAvailable then
    (memory.shrinkCallback block).map fun callback =>
      (callback, memory.shrinkArg block, chargeSize)
  else none

/-- The `set` command of the memory control file, once it has found the cgroup. -/
def setMemoryLimit (memoryLimit : Nat) : MemorySystem Thread Outside :=
  let control := memory.cgroups block
  let limited := { memory with
    configs := update memory.configs control.config
      { memory.configs control.config with memoryLimit := memoryLimit } }
  limited.store block { control with memQuotaAvailable := memoryLimit }

def rtemsCgroupCreate (memory : MemorySystem Thread Outside) (name : BitVec 32) (id : Bool)
    (config : Nat) (allocated : Option ObjectsId) :
    MemorySystem Thread Outside × Except StatusCode ObjectsId :=
  let created := Rtems.rtemsCgroupCreate memory.toCgroupSystem name id config allocated
  ({ memory with toCgroupSystem := created.1 }, created.2)

def rtemsCgroupDelete (memory : MemorySystem Thread Outside) (id : ObjectsId) :
    MemorySystem Thread Outside × StatusCode :=
  let deleted := Rtems.rtemsCgroupDelete memory.toCgroupSystem id
  ({ memory with toCgroupSystem := deleted.1 }, deleted.2)

end MemorySystem

/-- What happens to cgroups before one of their control blocks is used again. -/
inductive CgroupHistoryCall where
  | create (name : BitVec 32) (id : Bool) (config : Nat) (allocated : Option ObjectsId)
  | setShrinkCallback (block : ObjectsId) (shrinkCallback : Option Nat) (shrinkArg : Nat)
  | delete (id : ObjectsId)

/-- What can be done with a cgroup. -/
inductive CgroupUse (Thread : Type) where
  | allocate (size : Nat)
  | free (size : Nat)
  | consumeCpuQuota (cpuTicksDelta : Nat)
  | suspend (waitState : BitVec 32)
  | resume (waitState : BitVec 32)
  | cpuSuspendRoutine
  | cpuResumeRoutine
  | addThread (thread : Thread) (workspace : Bool)
  | removeThread (thread : Thread)
  | setCpuQuota (cpuQuota cpuPeriod : Nat)
  | setMemoryLimit (memoryLimit : Nat)
  | setShrinkCallback (shrinkCallback : Option Nat) (shrinkArg : Nat)

structure CgroupOutcome (Thread : Type) where
  invoked : Option (Nat × Nat × Nat)
  succeeded : Bool
  state : BitVec 32
  currentState : Thread → BitVec 32

namespace MemorySystem

def historyStep (memory : MemorySystem Thread Outside) :
    CgroupHistoryCall → MemorySystem Thread Outside
  | .create name id config allocated => (memory.rtemsCgroupCreate name id config allocated).1
  | .setShrinkCallback block shrinkCallback shrinkArg =>
    memory.coreCgroupSetShrinkCallback block shrinkCallback shrinkArg
  | .delete id => (memory.rtemsCgroupDelete id).1

def use (shrinkers : ShrinkCallbacks Outside) (block : ObjectsId)
    (memory : MemorySystem Thread Outside) :
    CgroupUse Thread → MemorySystem Thread Outside × Bool
  | .allocate size => memory.heapAllocate shrinkers block size
  | .free size => (memory.heapFree block size, true)
  | .consumeCpuQuota cpuTicksDelta =>
    ({ memory with
      toCgroupSystem := memory.coreCgroupConsumeCpuQuota block cpuTicksDelta }, true)
  | .suspend waitState =>
    let suspended := memory.coreCgroupSuspend (some block) waitState
    ({ memory with toCgroupSystem := suspended.1 }, suspended.2 = .successful)
  | .resume waitState =>
    let resumed := memory.coreCgroupResume (some block) waitState
    ({ memory with toCgroupSystem := resumed.1 }, resumed.2 = .successful)
  | .cpuSuspendRoutine =>
    ({ memory with toCgroupSystem := memory.toCgroupSystem.cpuSuspendRoutine block }, true)
  | .cpuResumeRoutine =>
    ({ memory with toCgroupSystem := memory.toCgroupSystem.cpuResumeRoutine block }, true)
  | .addThread thread workspace =>
    if workspace then
      ({ memory with toCgroupSystem := memory.coreCgroupAddThread block thread }, true)
    else (memory, false)
  | .removeThread thread =>
    match memory.coreCgroupRemoveThread block thread with
    | some removed => ({ memory with toCgroupSystem := removed }, true)
    | none => (memory, false)
  | .setCpuQuota cpuQuota cpuPeriod =>
    ({ memory with
      toCgroupSystem :=
        memory.coreCgroupSetCpuQuota (memory.cgroups block).config cpuQuota cpuPeriod }, true)
  | .setMemoryLimit memoryLimit => (memory.setMemoryLimit block memoryLimit, true)
  | .setShrinkCallback shrinkCallback shrinkArg =>
    (memory.coreCgroupSetShrinkCallback block shrinkCallback shrinkArg, true)

def outcome (shrinkers : ShrinkCallbacks Outside) (block : ObjectsId)
    (memory : MemorySystem Thread Outside) (cgroupUse : CgroupUse Thread) :
    CgroupOutcome Thread where
  invoked :=
    match cgroupUse with
    | .allocate size => memory.invoked block size
    | _ => none
  succeeded := (memory.use shrinkers block cgroupUse).2
  state := ((memory.use shrinkers block cgroupUse).1.cgroups block).state
  currentState := (memory.use shrinkers block cgroupUse).1.currentState

end MemorySystem

end RTContainer.Score
