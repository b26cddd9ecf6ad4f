import RTContainer.Rtems.TaskAtomicity
import RTContainer.Score.IoThreadWeights
import RTContainer.Score.UnifiedMembership
import RTContainer.Score.NamespaceRuns

/-! Runs that create and delete tasks, beside the calls of the containers and of
the cgroup directives. A state is `none` once a call has gone through a `NULL` or
freed pointer or has linked a node twice. -/

set_option autoImplicit false

namespace RTContainer.Rtems

open RTContainer.Score Machine

/-- The calls of a run. `containers` is a call of the namespaces or of the unified
containers, which are deleted by a call of its own. -/
inductive TaskCall (Thread : Type) where
  | create (platform : ThreadPlatform) (config : RtemsTaskConfig) (id : Bool)
      (prepareStack : PrepareStack) (outcomes : TaskOutcomes)
  | makeZombie (thread : Thread)
  | killZombies
  | containers (call : NamespaceCall Thread)
  | unifiedDelete (container : Option Nat) (tables : ThreadTables Thread)
      (leaveMalloc malloc : Nat → Bool)
  | pid (call : PidCall Thread)
  | io (call : IoCgroupCall)
  | cgroupCreate (name : BitVec 32) (id : Bool) (config : Nat) (allocated : Option ObjectsId)
  | cgroupAddTask (cgroupId taskId : ObjectsId) (workspace : Bool)
  | cgroupRemoveTask (cgroupId taskId : ObjectsId)
  | cgroupDelete (id : ObjectsId)

variable {Thread : Type} [DecidableEq Thread]

namespace TaskCall

def performContainers (names : ObjectNames Thread) (system : ContainerSystem Thread) :
    TaskCall Thread → Option (ContainerSystem Thread)
  | .containers call => call.perform names system
  | .unifiedDelete container tables leaveMalloc malloc =>
    (system.rtemsUnifiedContainerDelete names container tables leaveMalloc malloc).map Prod.fst
  | .pid call => some { system with pids := call.step names.threadId system.pids }
  | .io call => some { system with ioCgroups := call.perform system.ioCgroups }
  | .cgroupCreate name id config allocated =>
    some { system with
      cgroups := (rtemsCgroupCreate system.cgroups name id config allocated).1 }
  | .cgroupAddTask cgroupId taskId workspace =>
    (rtemsCgroupAddTask names system.cgroups cgroupId taskId workspace).map
      fun (cgroups, _) => { system with cgroups := cgroups }
  | .cgroupRemoveTask cgroupId taskId =>
    (rtemsCgroupRemoveTask names system.cgroups cgroupId taskId).map
      fun (cgroups, _) => { system with cgroups := cgroups }
  | .cgroupDelete id =>
    some { system with cgroups := (rtemsCgroupDelete system.cgroups id).1 }
  | .create .. | .makeZombie _ | .killZombies => some system

def perform (names : ObjectNames Thread) (system : TaskSystem Thread) :
    TaskCall Thread → Option (TaskSystem Thread)
  | .create platform config id prepareStack outcomes =>
    (rtemsTasksCreate names platform allContainers config id prepareStack outcomes system).map
      Prod.fst
  | .makeZombie thread => system.threadMakeZombie thread
  | .killZombies => system.threadKillZombies
  | call => (call.performContainers names system.toContainerSystem).map system.withContainers

def onContainers : TaskCall Thread → Bool
  | .create .. | .makeZombie _ | .killZombies => false
  | _ => true

theorem perform_onContainers {names : ObjectNames Thread} {system : TaskSystem Thread}
    {call : TaskCall Thread} (onContainers : call.onContainers = true) :
    call.perform names system =
      (call.performContainers names system.toContainerSystem).map system.withContainers := by
  cases call with
  | create | makeZombie | killZombies => cases onContainers
  | containers | unifiedDelete | pid | io | cgroupCreate | cgroupAddTask | cgroupRemoveTask
  | cgroupDelete => rfl

def step (names : ObjectNames Thread) (state : Option (TaskSystem Thread))
    (call : TaskCall Thread) : Option (TaskSystem Thread) :=
  state.bind fun system => call.perform names system

end TaskCall

end RTContainer.Rtems
