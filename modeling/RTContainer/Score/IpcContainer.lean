import RTContainer.Score.Objects

/-! The IPC containers of `ipcContainer.c`. Each container has private
information records for the classic message queues and semaphores; the records
`_Message_queue_Information` and `_Semaphore_Information` of the application
configuration exist beside them. -/

set_option autoImplicit false

namespace RTContainer.Score

open Function

inductive SemaphoreVariant where
  | mutexInheritPriority
  | mutexPriorityCeiling
  | mutexNoProtocol
  | simpleBinary
  | counting
  | mrsp
  deriving DecidableEq

/-- What `rtems_semaphore_delete` reads of a semaphore beside its object: the
variant in its flags and whether a mutex has an owner. -/
structure SemaphoreControl where
  variant : SemaphoreVariant
  locked : Bool
  deriving DecidableEq

/-- The two object classes that a container isolates. -/
inductive IpcKind where
  | messageQueue
  | semaphore
  deriving DecidableEq

namespace IpcKind

def cls : IpcKind → Nat
  | .messageQueue => objectsRtemsMessageQueues
  | .semaphore => objectsRtemsSemaphores

def allocator : IpcKind → ObjectsAllocator
  | .messageQueue => .static
  | .semaphore => .ipcSemaphore

end IpcKind

/-- `struct IpcContainer`. The POSIX message queue record is never initialized. -/
structure IpcContainer where
  rc : Int
  containerID : Nat
  rtemsMessageQueueInfo : ObjectsInformation
  semaphoreInfo : ObjectsInformation

/-- The containers in the heap, their registry and identifier counter, the two
global information records, and the memory of the control blocks. -/
structure IpcSystem where
  root : Nat
  containers : Nat → Option IpcContainer
  registry : List Nat
  ipcContainerIdCounter : Nat
  messageQueueInformation : ObjectsInformation
  semaphoreInformation : ObjectsInformation
  objects : ObjectsMemory
  semaphores : ObjectAddress → SemaphoreControl

/-- The outcomes of the allocations made for one information record. -/
structure InfoMemory where
  objects : Option Nat
  localTable : Bool

namespace IpcContainer

def info (container : IpcContainer) : IpcKind → ObjectsInformation
  | .messageQueue => container.rtemsMessageQueueInfo
  | .semaphore => container.semaphoreInfo

def setInfo (container : IpcContainer) (kind : IpcKind) (information : ObjectsInformation) :
    IpcContainer :=
  match kind with
  | .messageQueue => { container with rtemsMessageQueueInfo := information }
  | .semaphore => { container with semaphoreInfo := information }

/-- The common body of `_IPC_Container_Initialize_RTEMS_Message_Queue_Info` and
`_IPC_Container_Initialize_Semaphore_Info`. Only the root container goes through
`_Objects_Initialize_information`. -/
def initializeInfo (kind : IpcKind) (containerID maxObjects : Nat)
    (allocated : InfoMemory) (memory : ObjectsMemory) : ObjectsInformation × ObjectsMemory :=
  match allocated.objects, allocated.localTable with
  | some array, true =>
    let information : ObjectsInformation :=
      { maximumId := objectsBuildId objectsClassicApi kind.cls containerID maxObjects
        localTable := List.replicate (maxObjects + 1) none
        allocator := kind.allocator
        inactive := maxObjects
        initialObjects := some array
        inactiveChain := (List.range maxObjects).map (ObjectAddress.mk array) }
    let written : ObjectsMemory := fun object =>
      if object.array = array ∧ object.position < maxObjects then
        ⟨objectsBuildId objectsClassicApi kind.cls containerID
          (object.position + objectsIndexMinimum), 0⟩
      else memory object
    if containerID = 1 then information.objectsInitializeInformation written
    else (information, written)
  | _, _ => (.zeroed, memory)

def initializeRtemsMessageQueueInfo : Nat → Nat → InfoMemory → ObjectsMemory →
    ObjectsInformation × ObjectsMemory :=
  initializeInfo .messageQueue

def initializeSemaphoreInfo : Nat → Nat → InfoMemory → ObjectsMemory →
    ObjectsInformation × ObjectsMemory :=
  initializeInfo .semaphore

def initialRecords (rc : Int) (containerID maxQueues maxSemaphores : Nat)
    (queueMemory semaphoreMemory : InfoMemory) (memory : ObjectsMemory) :
    IpcContainer × ObjectsMemory :=
  let (queueInfo, written) :=
    initializeRtemsMessageQueueInfo containerID maxQueues queueMemory memory
  let (semaphoreInfo, writtenBoth) :=
    initializeSemaphoreInfo containerID maxSemaphores semaphoreMemory written
  (⟨rc, containerID, queueInfo, semaphoreInfo⟩, writtenBoth)

end IpcContainer

namespace IpcSystem

def rtemsIpcContainerInitializeRoot (root : Nat) (queueMemory semaphoreMemory : InfoMemory)
    (messageQueueInformation semaphoreInformation : ObjectsInformation) (objects : ObjectsMemory)
    (semaphores : ObjectAddress → SemaphoreControl) : IpcSystem :=
  let (container, written) :=
    IpcContainer.initialRecords 3 1 10 20 queueMemory semaphoreMemory objects
  { root := root
    containers := update (fun _ => none) root (some container)
    registry := []
    ipcContainerIdCounter := 1
    messageQueueInformation := messageQueueInformation
    semaphoreInformation := semaphoreInformation
    objects := written
    semaphores := semaphores }

variable (system : IpcSystem)

/-- `rtems_ipc_container_create`. `address` is what `malloc()` returned for the
container and `listNode` tells whether the registry node was allocated. -/
def rtemsIpcContainerCreate (address : Option Nat)
    (queueMemory semaphoreMemory : InfoMemory) (listNode : Bool) : IpcSystem :=
  match address with
  | none => system
  | some address =>
    let (container, written) :=
      IpcContainer.initialRecords 1 (system.ipcContainerIdCounter + 1) 5 10 queueMemory
        semaphoreMemory system.objects
    { system with
      containers := update system.containers address (some container)
      registry := if listNode then address :: system.registry else system.registry
      ipcContainerIdCounter := system.ipcContainerIdCounter + 1
      objects := written }

def rtemsIpcContainerDelete (container : Option Nat) : IpcSystem :=
  match container with
  | none => system
  | some address =>
    if address = system.root then system
    else
      { system with
        registry := system.registry.erase address
        containers := update system.containers address none }

/-- `_Message_queue_Get_information_from_container` and
`_Semaphore_Get_information_from_container` for a thread of the container at an
address. -/
def informationOf (kind : IpcKind) (container : Nat) : Option ObjectsInformation :=
  (system.containers container).map (·.info kind)

def setInfo (kind : IpcKind) (container : Nat) (information : ObjectsInformation) : IpcSystem :=
  { system with
    containers := update system.containers container
      ((system.containers container).map (·.setInfo kind information)) }

end IpcSystem

end RTContainer.Score
