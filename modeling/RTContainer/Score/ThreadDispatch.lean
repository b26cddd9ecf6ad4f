import RTContainer.Rtems.CgroupMembership
import RTContainer.Score.UnifiedContainer

/-! Thread dispatching with cgroups on one processor. `_Thread_Do_dispatch` is
divided at the points where the loop turns and where interrupts can happen. The
thread that a scheduler finds when the heir has been blocked is an argument; it
changes the heir for other reasons on its own. The registers of a thread are
taken to hold its own context, and the tick counter not to wrap. A call that
goes through a `NULL` or freed pointer has no result (`none`). -/

set_option autoImplicit false

namespace RTContainer.Score

open RTContainer.Rtems

/-- Where the processor is in `_Thread_Do_dispatch`: outside of it, at the top
of its loop, or behind a context switch. -/
inductive DispatchPoint where
  | outside
  | selecting
  | switched
  deriving DecidableEq

/-- `Per_CPU_Control`, with the cgroups and the unified containers, the thread
whose context runs, and the local variable `executing` of the dispatch that this
thread is in. -/
structure PerCpuControl (Thread : Type) where
  cgroups : CgroupSystem Thread
  containers : Nat → Option (RtemsContainer Thread)
  watchdogTicks : Nat
  executing : Thread
  heir : Thread
  dispatchNecessary : Bool
  context : Thread
  localExecuting : Thread
  point : DispatchPoint

variable {Thread : Type} [DecidableEq Thread] (cgroups : CgroupSystem Thread)

def rtemsUnifiedContainerPause
    (container : Option (RtemsContainer Thread)) : CgroupSystem Thread × StatusCode :=
  match container with
  | none => (cgroups, .invalidAddress)
  | some container =>
    if !container.hasCgroup ∨ container.coreCgroup = none then (cgroups, .notConfigured)
    else cgroups.coreCgroupSuspend container.coreCgroup statesWaitingForCgroupCpuQuota

def rtemsUnifiedContainerResume
    (container : Option (RtemsContainer Thread)) : CgroupSystem Thread × StatusCode :=
  match container with
  | none => (cgroups, .invalidAddress)
  | some container =>
    if !container.hasCgroup ∨ container.coreCgroup = none then (cgroups, .notConfigured)
    else cgroups.coreCgroupResume container.coreCgroup statesWaitingForCgroupCpuQuota

/-- The cgroup part of `rtems_unified_container_leave` of a container with this
cgroup. -/
def CgroupSystem.leaveThread (cgroup : ObjectsId) (thread : Thread) : CgroupSystem Thread :=
  if cgroups.cgroup thread = some cgroup then
    ((cgroups.coreCgroupRemoveThread cgroup thread).getD cgroups).clearThread thread
  else cgroups

def CgroupSystem.coreCgroupSetCpuQuota (config : Nat)
    (cpuQuota cpuPeriod : Nat) : CgroupSystem Thread :=
  { cgroups with
    configs := Function.update cgroups.configs config
      { cgroups.configs config with cpuQuota := cpuQuota, cpuPeriod := cpuPeriod } }

namespace PerCpuControl

variable (cpu : PerCpuControl Thread)

/-- A pointer to a unified container: `NULL`, or the container in the heap. -/
def container : Option Nat → Option (Option (RtemsContainer Thread))
  | none => some none
  | some address => (cpu.containers address).map some

/-- Thread states have been set. When the heir was ready and is blocked now, the
highest ready thread becomes the heir. -/
def block (cgroups : CgroupSystem Thread) (highestReady : Thread) : PerCpuControl Thread :=
  if statesIsReady (cpu.cgroups.currentState cpu.heir) ∧
      ¬ statesIsReady (cgroups.currentState cpu.heir) then
    { cpu with cgroups := cgroups, heir := highestReady, dispatchNecessary := true }
  else { cpu with cgroups := cgroups }

def whileDispatchNecessary : PerCpuControl Thread :=
  { cpu with point := if cpu.dispatchNecessary then .selecting else .outside }

/-- `_Thread_Do_dispatch` up to its loop: the executing thread is charged. -/
def threadDoDispatch (highestReady : Thread) : Option (PerCpuControl Thread) :=
  let entered := { cpu with localExecuting := cpu.executing, point := .selecting }
  if cpu.cgroups.isAddedToCgroup cpu.executing then
    (cpu.cgroups.cgroup cpu.executing).map fun cg =>
      let intervalTicks :=
        cpu.watchdogTicks - cpu.cgroups.lastCpuStartTimestamp cpu.executing
      entered.block
        ((cpu.cgroups.coreCgroupConsumeCpuQuota cg intervalTicks).cancelCpuSuspendWatchdog cg)
        highestReady
  else some entered

def threadGetHeirAndMakeItExecuting : PerCpuControl Thread :=
  { cpu with dispatchNecessary := false, executing := cpu.heir }

def contextSwitch (heir : Thread) : PerCpuControl Thread :=
  if heir = cpu.localExecuting then { cpu with point := .outside }
  else { cpu with context := heir, localExecuting := heir, point := .switched }

def startMember (cg : ObjectsId) (heir : Thread) : PerCpuControl Thread :=
  let stamped := { cpu.cgroups with
    lastCpuStartTimestamp :=
      Function.update cpu.cgroups.lastCpuStartTimestamp heir cpu.watchdogTicks }
  { cpu with
    cgroups :=
      if (stamped.cgroups cg).cpuSuspendWatchdog then stamped
      else stamped.setCpuSuspendWatchdog cg }

/-- A turn of the loop of `_Thread_Do_dispatch`, up to the context switch or
through the `continue` for a heir whose cgroup is out of quota. -/
def selectHeir (highestReady : Thread) : Option (PerCpuControl Thread) :=
  let heir := cpu.heir
  let selected := cpu.threadGetHeirAndMakeItExecuting
  if cpu.cgroups.isAddedToCgroup heir then
    (cpu.cgroups.cgroup heir).map fun cg =>
      if (cpu.cgroups.cgroups cg).cpuQuotaAvailable = 0 then
        (selected.block
          (cpu.cgroups.coreCgroupSuspend (some cg) statesWaitingForCgroupCpuQuota).1
          highestReady).whileDispatchNecessary
      else (selected.startMember cg heir).contextSwitch heir
  else some (selected.contextSwitch heir)

end PerCpuControl

/-- What can happen next: a clock tick, a new heir, the two watchdogs of a
cgroup, calls by the running thread, and the steps of a dispatch. -/
inductive PerCpuCall (Thread : Type) where
  | clockTick
  | updateHeir (newHeir : Thread)
  | cpuResumeRoutine (cgroup : ObjectsId)
  | cpuSuspendRoutine (cgroup : ObjectsId) (highestReady : Thread)
  | pause (container : Option Nat) (highestReady : Thread)
  | resume (container : Option Nat)
  | addThread (cgroup : ObjectsId) (thread : Thread) (workspace : Bool)
  | removeThread (cgroup : ObjectsId) (thread : Thread)
  | leaveThread (cgroup : ObjectsId) (thread : Thread)
  | setCpuQuota (config cpuQuota cpuPeriod : Nat)
  | dispatch (highestReady : Thread)
  | selectHeir (highestReady : Thread)
  | afterSwitch

namespace PerCpuCall

open PerCpuControl

def perform (cpu : PerCpuControl Thread) : PerCpuCall Thread → Option (PerCpuControl Thread)
  | .clockTick => some { cpu with watchdogTicks := cpu.watchdogTicks + 1 }
  | .updateHeir newHeir => some { cpu with heir := newHeir, dispatchNecessary := true }
  | .cpuResumeRoutine cgroup => some { cpu with cgroups := cpu.cgroups.cpuResumeRoutine cgroup }
  | .cpuSuspendRoutine cgroup highestReady =>
    some (cpu.block (cpu.cgroups.cpuSuspendRoutine cgroup) highestReady)
  | .pause container highestReady => (cpu.container container).map fun container =>
    cpu.block (rtemsUnifiedContainerPause cpu.cgroups container).1 highestReady
  | .resume container => (cpu.container container).map fun container =>
    { cpu with cgroups := (rtemsUnifiedContainerResume cpu.cgroups container).1 }
  | .addThread cgroup thread workspace => some { cpu with
      cgroups := if workspace then cpu.cgroups.coreCgroupAddThread cgroup thread else cpu.cgroups }
  | .removeThread cgroup thread => some { cpu with
      cgroups := (cpu.cgroups.coreCgroupRemoveThread cgroup thread).getD cpu.cgroups }
  | .leaveThread cgroup thread => some { cpu with cgroups := cpu.cgroups.leaveThread cgroup thread }
  | .setCpuQuota config cpuQuota cpuPeriod => some { cpu with
      cgroups := cpu.cgroups.coreCgroupSetCpuQuota config cpuQuota cpuPeriod }
  | .dispatch highestReady => cpu.threadDoDispatch highestReady
  | .selectHeir highestReady => cpu.selectHeir highestReady
  | .afterSwitch => some cpu.whileDispatchNecessary

/-- The points at which a call can happen. Interrupts are disabled from the
start of a dispatch up to its context switch. -/
def Possible (cpu : PerCpuControl Thread) : PerCpuCall Thread → Prop
  | .clockTick | .updateHeir _ | .cpuResumeRoutine _ | .cpuSuspendRoutine _ _ =>
    cpu.point ≠ .selecting
  | .selectHeir _ => cpu.point = .selecting
  | .afterSwitch => cpu.point = .switched
  | _ => cpu.point = .outside

instance (cpu : PerCpuControl Thread) : (call : PerCpuCall Thread) → Decidable (call.Possible cpu)
  | .clockTick | .updateHeir _ | .cpuResumeRoutine _ | .cpuSuspendRoutine _ _ =>
    inferInstanceAs (Decidable (cpu.point ≠ .selecting))
  | .selectHeir _ => inferInstanceAs (Decidable (cpu.point = .selecting))
  | .afterSwitch => inferInstanceAs (Decidable (cpu.point = .switched))
  | .pause _ _ | .resume _ | .addThread _ _ _ | .removeThread _ _ | .leaveThread _ _
  | .setCpuQuota _ _ _ | .dispatch _ => inferInstanceAs (Decidable (cpu.point = .outside))

end PerCpuCall

end RTContainer.Score
