import RTContainer.Rtems.Semaphore
import RTContainer.Score.ThreadLife

/-! The creation of tasks from `taskconstruct.c` and `taskcreate.c`. A new task
gets a container object, with which it joins the root containers. -/

set_option autoImplicit false

namespace RTContainer.Rtems

open RTContainer.Score

def rtemsFloatingPoint : BitVec 32 := 0x1#32
def rtemsSystemTask : BitVec 32 := 0x8000#32
def rtemsPreemptMask : BitVec 32 := 0x100#32
def rtemsPreempt : BitVec 32 := 0#32
def priorityMinimum : BitVec 32 := 0

/-- `rtems_task_config` without the storage, which the preparation of the stack looks at. -/
structure RtemsTaskConfig where
  name : BitVec 32
  initialPriority : BitVec 32
  initialModes : BitVec 32
  attributes : BitVec 32

/-- The kinds of containers that are compiled in. -/
structure ContainerConfiguration where
  pid : Bool
  namespaces : NamespaceKind → Bool

/-- The outcomes of the allocations of a create, and of the user extensions. -/
structure TaskOutcomes where
  globalObject : Bool
  userExtensions : Bool
  container : Bool
  pidNode : Bool

namespace ContainerConfiguration

def kinds (configuration : ContainerConfiguration) : List NamespaceKind :=
  NamespaceKind.all.filter configuration.namespaces

/-- Some kind of container is compiled in. -/
def containers (configuration : ContainerConfiguration) : Bool :=
  configuration.pid || !configuration.kinds.isEmpty

end ContainerConfiguration

namespace RtemsTaskConfig

variable (config : RtemsTaskConfig) (platform : ThreadPlatform)

def requiredAttributes : BitVec 32 :=
  config.attributes ||| if platform.allTasksAreFp then rtemsFloatingPoint else 0

def isSystemTask : Bool :=
  config.requiredAttributes platform &&& rtemsSystemTask ≠ 0

def isGlobal : Bool :=
  platform.multiprocessing ∧ config.requiredAttributes platform &&& rtemsGlobal ≠ 0

def threadConfiguration : ThreadConfiguration where
  isrLevel := config.initialModes &&& platform.interruptMask
  isPreemptible := config.initialModes &&& rtemsPreemptMask = rtemsPreempt

/-- What `_RTEMS_tasks_Create` checks before it allocates anything. -/
def check (id : Bool) : StatusCode :=
  if config.name = 0 then .invalidName
  else if !id then .invalidAddress
  else if !config.isSystemTask platform ∧ config.initialPriority = priorityMinimum then
    .invalidPriority
  else if platform.maximumPriority < config.initialPriority then .invalidPriority
  else .successful

end RtemsTaskConfig

abbrev PrepareStack := ThreadConfiguration → RtemsTaskConfig → StatusCode

def rtemsTasksAllocateAndPrepareStack (stackArea : Bool) : PrepareStack :=
  fun _ _ => if stackArea then .successful else .unsatisfied

variable {Thread : Type} [DecidableEq Thread] (names : ObjectNames Thread)

def joinRootPid (configuration : ContainerConfiguration) (system : ContainerSystem Thread)
    (thread : Thread) (pidNode : Bool) : ContainerSystem Thread :=
  if configuration.pid then
    let added := { system with
      pids := system.pids.rtemsPidContainerAddTask names.threadId (some system.pids.root)
        (some thread) pidNode }
    added.withUnified (added.setPidContainer thread (some system.pids.root))
  else system

def joinRootContainers (configuration : ContainerConfiguration) (system : ContainerSystem Thread)
    (thread : Thread) (pidNode : Bool) : Option (ContainerSystem Thread) :=
  (ContainerSystem.joinRoots thread configuration.kinds
    (joinRootPid names configuration system thread pidNode)).map fun joined =>
      { joined with hasContainer := Function.update joined.hasContainer thread true }

/-- `_RTEMS_tasks_Create` after the stack has been prepared. The status of
`_Thread_Initialize` is looked at only once the container object is there. -/
def initializeTask (platform : ThreadPlatform) (configuration : ContainerConfiguration)
    (config : RtemsTaskConfig) (outcomes : TaskOutcomes) (system : TaskSystem Thread)
    (thread : Thread) : Option (TaskSystem Thread × Except StatusCode ObjectsId) :=
  (system.threadInitialize platform (config.threadConfiguration platform) thread
      outcomes.userExtensions).bind fun (initialized, status) =>
    if configuration.containers ∧ !outcomes.container then
      (initialized.objectsFree thread).map fun freed => (freed, .error .noMemory)
    else
      let joined :=
        if configuration.containers then
          (joinRootContainers names configuration initialized.toContainerSystem thread
            outcomes.pidNode).map initialized.withContainers
        else some initialized
      joined.map fun joined =>
        (joined, if status = .successful then .ok (names.threadId thread) else .error status)

/-- `_RTEMS_tasks_Create` on the control block that `_RTEMS_tasks_Allocate`
returned. -/
def constructTask (platform : ThreadPlatform) (configuration : ContainerConfiguration)
    (config : RtemsTaskConfig) (prepareStack : PrepareStack) (outcomes : TaskOutcomes)
    (system : TaskSystem Thread) (thread : Thread) :
    Option (TaskSystem Thread × Except StatusCode ObjectsId) :=
  if config.isGlobal platform ∧ !outcomes.globalObject then
    (system.objectsFree thread).map fun freed => (freed, .error .tooMany)
  else
    match prepareStack (config.threadConfiguration platform) config with
    | .successful => initializeTask names platform configuration config outcomes system thread
    | status => (system.objectsFree thread).map fun freed => (freed, .error status)

def rtemsTasksCreate (platform : ThreadPlatform) (configuration : ContainerConfiguration)
    (config : RtemsTaskConfig) (id : Bool) (prepareStack : PrepareStack) (outcomes : TaskOutcomes)
    (system : TaskSystem Thread) : Option (TaskSystem Thread × Except StatusCode ObjectsId) :=
  match config.check platform id with
  | .successful =>
    system.threadKillZombies.bind fun killed =>
      match killed.objectsGetInactive with
      | (none, taken) => some (taken, .error .tooMany)
      | (some thread, taken) =>
        constructTask names platform configuration config prepareStack outcomes taken thread
  | status => some (system, .error status)

end RTContainer.Rtems
