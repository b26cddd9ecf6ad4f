import RTContainer.Score.Container

/-! The control blocks of tasks from `threadinitialize.c` and `threadrestart.c`,
next to the containers they are members of. A control block is on the `Inactive`
chain of the static allocator, on the chain of zombies, or in use. Linking a node
that is still linked has no result (`none`). Stacks, scheduler nodes and thread
queues are left out. -/

set_option autoImplicit false

namespace RTContainer.Score

open RTContainer.Rtems Function

/-- `ContainerSystem` with the control blocks of the tasks; `opened` are those
that the object table finds. -/
structure TaskSystem (Thread : Type) extends ContainerSystem Thread where
  inactive : List Thread
  zombies : List Thread
  opened : Thread → Bool

/-- What the processor, the scheduler and the linker fix for every thread. -/
structure ThreadPlatform where
  smp : Bool
  robustThreadDispatch : Bool
  needsInterProcessorInterrupts : Bool
  nonPreemptModeSupported : Bool
  allTasksAreFp : Bool
  multiprocessing : Bool
  interruptMask : BitVec 32
  maximumPriority : BitVec 32

/-- The fields of `Thread_Configuration` that decide whether a thread is accepted. -/
structure ThreadConfiguration where
  isrLevel : BitVec 32
  isPreemptible : Bool

variable {Thread : Type} [DecidableEq Thread]

namespace TaskSystem

variable (system : TaskSystem Thread)

def withContainers (containers : ContainerSystem Thread) : TaskSystem Thread :=
  { system with toContainerSystem := containers }

/-- `_Objects_Get_inactive`: the first node of the chain is taken off. -/
def objectsGetInactive : Option Thread × TaskSystem Thread :=
  match system.inactive with
  | [] => (none, system)
  | thread :: rest => (some thread, { system with inactive := rest })

def linked : List Thread :=
  system.inactive ++ system.zombies

variable (thread : Thread)

/-- `_Objects_Free`: the node is appended to the chain. -/
def objectsFree : Option (TaskSystem Thread) :=
  if thread ∈ system.linked then none
  else some { system with inactive := system.inactive ++ [thread] }

def objectsOpen : TaskSystem Thread :=
  { system with opened := update system.opened thread true }

def objectsClose : TaskSystem Thread :=
  { system with opened := update system.opened thread false }

/-- `_Thread_Free`. No container hears of it. -/
def threadFree : Option (TaskSystem Thread) :=
  system.objectsFree thread

def threadMakeZombie : Option (TaskSystem Thread) :=
  if thread ∈ system.linked then none
  else
    let closed := system.objectsClose thread
    some { closed with
      cgroups := { closed.cgroups with
        currentState := update closed.cgroups.currentState thread
          (statesSet statesZombie (closed.cgroups.currentState thread)) }
      zombies := closed.zombies ++ [thread] }

def killZombies : List Thread → TaskSystem Thread → Option (TaskSystem Thread)
  | [], system => some { system with zombies := [] }
  | thread :: rest, system =>
    ({ system with zombies := rest }.threadFree thread).bind (killZombies rest)

def threadKillZombies : Option (TaskSystem Thread) :=
  killZombies system.zombies system

/-- The fields that `_Thread_Try_initialize` clears in a control block. -/
def clearControl : TaskSystem Thread :=
  { system with
    pids := { system.pids with
      pidContainer := update system.pids.pidContainer thread none }
    cgroups := { system.cgroups with
      cgroup := update system.cgroups.cgroup thread none
      isAddedToCgroup := update system.cgroups.isAddedToCgroup thread false
      currentState := update system.cgroups.currentState thread statesDormant
      lastCpuStartTimestamp := update system.cgroups.lastCpuStartTimestamp thread 0 }
    hasContainer := update system.hasContainer thread false
    namespaces := fun kind =>
      { system.namespaces kind with
        pointer := update (system.namespaces kind).pointer thread none } }

/-- The checks at the end of `_Thread_Try_initialize`; `userExtensions` tells
whether every extension accepts the thread. -/
def acceptsThread (platform : ThreadPlatform) (config : ThreadConfiguration)
    (userExtensions : Bool) : Bool :=
  if platform.smp ∧ !config.isPreemptible ∧ !platform.nonPreemptModeSupported then false
  else if (platform.smp ∨ platform.robustThreadDispatch) ∧ config.isrLevel ≠ 0 ∧
      (platform.robustThreadDispatch ∨ platform.needsInterProcessorInterrupts) then false
  else userExtensions

/-- `_Thread_Try_initialize`. The object is opened before anything is checked. -/
def threadTryInitialize (platform : ThreadPlatform)
    (config : ThreadConfiguration) (thread : Thread) (userExtensions : Bool) :
    TaskSystem Thread × Bool :=
  ((system.clearControl thread).objectsOpen thread, acceptsThread platform config userExtensions)

def threadInitialize (platform : ThreadPlatform)
    (config : ThreadConfiguration) (thread : Thread) (userExtensions : Bool) :
    Option (TaskSystem Thread × StatusCode) :=
  match system.threadTryInitialize platform config thread userExtensions with
  | (initialized, true) => some (initialized, .successful)
  | (initialized, false) =>
    ((initialized.objectsClose thread).threadFree thread).map fun freed => (freed, .unsatisfied)

end TaskSystem

end RTContainer.Score
