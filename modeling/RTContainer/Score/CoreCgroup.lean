import Mathlib.Data.List.Basic
import RTContainer.Rtems.Status
import RTContainer.Score.ObjectId
import RTContainer.Score.States

/-! The cgroups of `corecgroup.c`. The membership of a thread is kept in the
chain of the cgroup, in a counter and in two fields of the thread. A control
block has one object identifier for good and is named by it; it keeps its
contents while its object is not open. -/

set_option autoImplicit false

namespace RTContainer.Score

open RTContainer.Rtems Function

structure CoreCgroupConfig where
  cpuShares : Nat
  cpuQuota : Nat
  cpuPeriod : Nat
  memoryLimit : Nat
  blkioLimit : Nat

/-- `CORE_cgroup_Control`. The chain is given by the threads of its nodes, a
watchdog by whether it is scheduled, and `config` is an address. -/
structure CoreCgroupControl (Thread : Type) where
  state : BitVec 32
  config : Nat
  threads : List Thread
  threadCount : Nat
  maxThreads : Nat
  cpuQuotaAvailable : Nat
  cpuSuspendWatchdog : Bool
  cpuResumeWatchdog : Bool
  memQuotaAvailable : Nat
  shouldChargeNextFree : Bool

/-- The control blocks, those of them that are open, the configurations they
point to, and the fields of the threads that concern cgroups. -/
structure CgroupSystem (Thread : Type) where
  opened : List ObjectsId
  cgroups : ObjectsId → CoreCgroupControl Thread
  configs : Nat → CoreCgroupConfig
  cgroup : Thread → Option ObjectsId
  isAddedToCgroup : Thread → Bool
  currentState : Thread → BitVec 32
  lastCpuStartTimestamp : Thread → Nat

variable {Thread : Type} [DecidableEq Thread]

namespace CgroupSystem

variable (system : CgroupSystem Thread) (block : ObjectsId)

def store (control : CoreCgroupControl Thread) : CgroupSystem Thread :=
  { system with cgroups := update system.cgroups block control }

/-- `_CORE_cgroup_Initialize`, which always succeeds. The resume watchdog is
started and refills the CPU quota. -/
def coreCgroupInitialize (config : Nat) : CgroupSystem Thread :=
  system.store block
    { state := statesReady
      config := config
      threads := []
      threadCount := 0
      maxThreads := 10
      cpuQuotaAvailable := (system.configs config).cpuQuota
      cpuSuspendWatchdog := false
      cpuResumeWatchdog := true
      memQuotaAvailable := (system.configs config).memoryLimit
      shouldChargeNextFree := true }

def coreCgroupDestroy : CgroupSystem Thread :=
  system.store block
    { system.cgroups block with cpuSuspendWatchdog := false, cpuResumeWatchdog := false }

def coreCgroupCanAddThread : Bool :=
  (system.cgroups block).threadCount < (system.cgroups block).maxThreads

def coreCgroupAddThread (thread : Thread) : CgroupSystem Thread :=
  let control := system.cgroups block
  { system.store block
      { control with
        threads := control.threads ++ [thread]
        threadCount := (control.threadCount + 1) % 2 ^ 32 } with
    cgroup := update system.cgroup thread (some block)
    isAddedToCgroup := update system.isAddedToCgroup thread true }

/-- `_CORE_cgroup_Remove_thread`; `none` when the thread has no node. The fields
of the thread stay as they are. -/
def coreCgroupRemoveThread (thread : Thread) : Option (CgroupSystem Thread) :=
  let control := system.cgroups block
  if thread ∈ control.threads then
    some (system.store block
      { control with
        threads := control.threads.erase thread
        threadCount := (control.threadCount + (2 ^ 32 - 1)) % 2 ^ 32 })
  else none

def setStates (waitState : BitVec 32) (threads : List Thread) (currentState : Thread → BitVec 32) :
    Thread → BitVec 32 :=
  threads.foldl
    (fun states thread => update states thread (statesSet waitState (states thread)))
    currentState

def clearStates (waitState : BitVec 32) (threads : List Thread)
    (currentState : Thread → BitVec 32) : Thread → BitVec 32 :=
  threads.foldl
    (fun states thread => update states thread (statesClear waitState (states thread)))
    currentState

def coreCgroupSuspend (theCgroup : Option ObjectsId)
    (waitState : BitVec 32) : CgroupSystem Thread × StatusCode :=
  match theCgroup with
  | none => (system, .invalidAddress)
  | some block =>
    let control := system.cgroups block
    if control.state &&& waitState ≠ 0 then (system, .incorrectState)
    else
      ({ system.store block { control with state := control.state ||| waitState } with
        currentState := setStates waitState control.threads system.currentState }, .successful)

/-- `_CORE_cgroup_Resume`. The threads are resumed only once nothing else blocks
the cgroup. -/
def coreCgroupResume (theCgroup : Option ObjectsId)
    (waitState : BitVec 32) : CgroupSystem Thread × StatusCode :=
  match theCgroup with
  | none => (system, .invalidAddress)
  | some block =>
    let control := system.cgroups block
    if control.state &&& waitState = 0 then (system, .incorrectState)
    else if control.state ≠ 0 ∧ waitState &&& statesBlocked = 0 then (system, .incorrectState)
    else
      let resumed := system.store block { control with state := control.state &&& ~~~waitState }
      if control.state &&& ~~~waitState &&& statesBlocked = 0 then
        ({ resumed with
          currentState := clearStates waitState control.threads system.currentState }, .successful)
      else (resumed, .successful)

def coreCgroupConsumeCpuQuota (cpuTicksDelta : Nat) : CgroupSystem Thread :=
  let control := system.cgroups block
  if control.cpuQuotaAvailable ≤ cpuTicksDelta then
    ((system.store block { control with cpuQuotaAvailable := 0 }).coreCgroupSuspend (some block)
      statesWaitingForCgroupCpuQuota).1
  else
    system.store block
      { control with cpuQuotaAvailable := control.cpuQuotaAvailable - cpuTicksDelta }

def setCpuSuspendWatchdog : CgroupSystem Thread :=
  system.store block { system.cgroups block with cpuSuspendWatchdog := true }

def cancelCpuSuspendWatchdog : CgroupSystem Thread :=
  system.store block { system.cgroups block with cpuSuspendWatchdog := false }

def setCpuResumeWatchdog : CgroupSystem Thread :=
  system.store block
    { system.cgroups block with
      cpuQuotaAvailable := (system.configs (system.cgroups block).config).cpuQuota
      cpuResumeWatchdog := true }

/-- `cpu_suspend_routine`, called once its watchdog has been removed. -/
def cpuSuspendRoutine : CgroupSystem Thread :=
  ((system.cancelCpuSuspendWatchdog block).coreCgroupSuspend (some block)
    statesWaitingForCgroupCpuQuota).1

def cpuResumeRoutine : CgroupSystem Thread :=
  (system.coreCgroupResume (some block) statesWaitingForCgroupCpuQuota).1.setCpuResumeWatchdog block

end CgroupSystem

end RTContainer.Score
