import RTContainer.Rtems.Semaphore

/-! The classic message queue directives `rtems_message_queue_create`,
`construct`, `delete` and `ident` with `RTEMSCFG_IPC_CONTAINER` and without
`RTEMS_MULTIPROCESSING`. -/

set_option autoImplicit false

namespace RTContainer.Rtems

open RTContainer.Score

def sizeMax : Nat := 2 ^ 64 - 1
def sizeofUintptr : Nat := 8

def sizeofCoreMessageQueueBuffer : Nat := 24

def messageSizeLimit : Nat := sizeMax - sizeofUintptr + 1 - sizeofCoreMessageQueueBuffer

def rtemsAlignUp (value alignment : Nat) : Nat := (value + alignment - 1) / alignment * alignment

/-- `rtems_message_queue_config`; `storageArea` tells whether it is not `NULL`. -/
structure MessageQueueConfig where
  name : BitVec 32
  maximumPendingMessages : Nat
  maximumMessageSize : Nat
  storageArea : Bool
  storageSize : Nat

/-- `_CORE_message_queue_Initialize`. `allocateBuffers` tells for a size whether
the handler returns storage. -/
def coreMessageQueueInitialize (maximumPendingMessages maximumMessageSize : Nat)
    (allocateBuffers : Nat → Bool) : Except StatusCode Unit :=
  if maximumMessageSize > messageSizeLimit then .error .invalidSize
  else
    let bufferSize := rtemsAlignUp maximumMessageSize sizeofUintptr + sizeofCoreMessageQueueBuffer
    if maximumPendingMessages > sizeMax / bufferSize then .error .invalidNumber
    else if allocateBuffers (maximumPendingMessages * bufferSize) then .ok ()
    else .error .unsatisfied

/-- The checks of `_Message_queue_Create` before it allocates; `id` tells whether
the destination is not `NULL`. -/
def messageQueueCheck (config : MessageQueueConfig) (id : Bool) : Except StatusCode Unit :=
  if config.name = 0 then .error .invalidName
  else if !id then .error .invalidAddress
  else if config.maximumPendingMessages = 0 then .error .invalidNumber
  else if config.maximumMessageSize = 0 then .error .invalidSize
  else .ok ()

variable (system : IpcSystem) (executing : Executing)

/-- `_Message_queue_Create`: both the control block and the identifier are those
of the container. -/
def messageQueueCreate (config : MessageQueueConfig)
    (id : Bool) (allocateBuffers : Nat → Bool) : Option (IpcSystem × Except StatusCode ObjectsId) :=
  match messageQueueCheck config id with
  | .error status => some (system, .error status)
  | .ok () => do
      let information ← system.informationOf .messageQueue executing.ipcContainer
      match ← information.objectsAllocate system.objects with
      | (none, taken) =>
        return (system.setInfo .messageQueue executing.ipcContainer taken, .error .tooMany)
      | (some queue, taken) =>
        match coreMessageQueueInitialize config.maximumPendingMessages config.maximumMessageSize
            allocateBuffers with
        | .error status => do
            let freed ← taken.objectsFree system.objects queue
            return (system.setInfo .messageQueue executing.ipcContainer freed, .error status)
        | .ok () => do
            let (opened, objects) ← taken.objectsOpenU32 system.objects queue config.name
            return ({ system with objects := objects }.setInfo .messageQueue
              executing.ipcContainer opened, .ok (system.objects queue).id)

/-- `rtems_message_queue_create`; `workspace` is the outcome of
`_Workspace_Allocate` for a size. -/
def rtemsMessageQueueCreate (name : BitVec 32)
    (count maxMessageSize : Nat) (id : Bool) (workspace : Nat → Bool) :
    Option (IpcSystem × Except StatusCode ObjectsId) :=
  messageQueueCreate system executing ⟨name, count, maxMessageSize, false, 0⟩ id workspace

def messageQueueGetBuffers (config : MessageQueueConfig) (size : Nat) : Bool :=
  if config.storageSize ≠ size then false else config.storageArea

def rtemsMessageQueueConstruct (config : Option MessageQueueConfig) (id : Bool) :
    Option (IpcSystem × Except StatusCode ObjectsId) :=
  match config with
  | none => some (system, .error .invalidAddress)
  | some config =>
    messageQueueCreate system executing config id (messageQueueGetBuffers config)

def messageQueueGet (id : ObjectsId) : Option ObjectAddress :=
  (system.informationOf .messageQueue executing.ipcContainer).bind (·.objectsGet id)

/-- `rtems_message_queue_delete`. The identifier is closed in
`_Message_queue_Information`, the control block goes back to the container. -/
def rtemsMessageQueueDelete (id : ObjectsId) : Option (IpcSystem × StatusCode) :=
  match messageQueueGet system executing id with
  | none => some (system, .invalidId)
  | some queue => do
      let (closed, objects) ← system.messageQueueInformation.objectsClose system.objects queue
      let information ← system.informationOf .messageQueue executing.ipcContainer
      let freed ← information.objectsFree objects queue
      return ({ system with
        messageQueueInformation := closed, objects := objects }.setInfo
          .messageQueue executing.ipcContainer freed, .successful)

def rtemsMessageQueueIdent (name : BitVec 32) (node : Nat) : Option ObjectAddress :=
  (system.informationOf .messageQueue executing.ipcContainer).bind fun information =>
    information.objectsNameToIdU32 system.objects name node

end RTContainer.Rtems

/-! What the message queue directives do to a sound system. -/

namespace RTContainer.Rtems

open RTContainer.Score RTContainer.Score.ObjectsInformation

variable {system : IpcSystem} {executing : Executing} {container : IpcContainer}
variable {count array : Nat}

section Create

variable {config : MessageQueueConfig} {id : Bool} {allocateBuffers : Nat → Bool}

theorem messageQueueCreate_refused {status : StatusCode}
    (refused : messageQueueCheck config id = .error status) :
    messageQueueCreate system executing config id allocateBuffers =
      some (system, .error status) := by
  simp only [messageQueueCreate, refused]

section

variable (checked : messageQueueCheck config id = .ok ())
include checked

theorem messageQueueCreate_zeroed
    (found : system.containers executing.ipcContainer = some container)
    (cleared : container.info .messageQueue = .zeroed) :
    messageQueueCreate system executing config id allocateBuffers = none := by
  simp [messageQueueCreate, checked, IpcSystem.informationOf, found, cleared, zeroed,
    objectsAllocate]

section

variable (record : system.Record .messageQueue executing.ipcContainer container count array)
include record

theorem messageQueueCreate_exhausted (chain : (container.info .messageQueue).inactiveChain = []) :
    messageQueueCreate system executing config id allocateBuffers =
      some (system, .error .tooMany) := by
  have allocated := record.shaped.objectsAllocate_eq record.handlers
  simp only [chain] at allocated
  simp [messageQueueCreate, checked, IpcSystem.informationOf, record.found, allocated,
    IpcSystem.setInfo_eq_self record.found]

variable {queue : ObjectAddress} {rest : List ObjectAddress}

theorem messageQueueCreate_failed {status : StatusCode}
    (chain : (container.info .messageQueue).inactiveChain = queue :: rest)
    (failed : coreMessageQueueInitialize config.maximumPendingMessages config.maximumMessageSize
      allocateBuffers = .error status) :
    messageQueueCreate system executing config id allocateBuffers =
      some (system.setInfo .messageQueue executing.ipcContainer
        { container.info .messageQueue with inactiveChain := rest ++ [queue] },
        .error status) := by
  have allocated : (container.info .messageQueue).objectsAllocate system.objects =
      some (some queue, { container.info .messageQueue with inactiveChain := rest }) := by
    rw [record.shaped.objectsAllocate_eq record.handlers, chain]
  have nodup := record.shaped.chain_nodup
  rw [chain] at nodup
  have off : queue ∉ rest := (List.nodup_cons.mp nodup).1
  have freed : ({ container.info .messageQueue with inactiveChain := rest } :
      ObjectsInformation).objectsFree system.objects queue =
        some { container.info .messageQueue with inactiveChain := rest ++ [queue] } := by
    simp [objectsFree, record.handlers, IpcKind.allocator, chainAppend, off]
  simp [messageQueueCreate, checked, IpcSystem.informationOf, record.found, allocated, failed,
    freed]

theorem messageQueueCreate_opened
    (chain : (container.info .messageQueue).inactiveChain = queue :: rest)
    (initialized : coreMessageQueueInitialize config.maximumPendingMessages
      config.maximumMessageSize allocateBuffers = .ok ()) :
    messageQueueCreate system executing config id allocateBuffers =
      some ({ system with
        objects := Function.update system.objects queue
          { system.objects queue with name := config.name } }.setInfo .messageQueue
            executing.ipcContainer
            { container.info .messageQueue with
              inactiveChain := rest
              localTable := (container.info .messageQueue).localTable.set queue.position
                (some queue) }, .ok (system.objects queue).id) := by
  have allocated : (container.info .messageQueue).objectsAllocate system.objects =
      some (some queue, { container.info .messageQueue with inactiveChain := rest }) := by
    rw [record.shaped.objectsAllocate_eq record.handlers, chain]
  have own := record.shaped.chain_own queue (by rw [chain]; exact List.mem_cons_self)
  have nodup := record.shaped.chain_nodup
  rw [chain] at nodup
  have takenShaped : Shaped { container.info .messageQueue with inactiveChain := rest }
      system.objects objectsRtemsMessageQueues container.containerID count array := by
    refine record.shaped.replace rfl rfl rfl (List.nodup_cons.mp nodup).2 ?_ record.shaped.slots_own
    intro object member
    exact record.shaped.chain_own object (by rw [chain]; exact .tail _ member)
  have opened := takenShaped.objectsOpenU32_eq config.name own
  simp [messageQueueCreate, checked, IpcSystem.informationOf, record.found, allocated, initialized,
    opened]

end

end

end Create

section Delete

variable {id : ObjectsId}

theorem rtemsMessageQueueDelete_missed (missed : messageQueueGet system executing id = none) :
    rtemsMessageQueueDelete system executing id = some (system, .invalidId) := by
  simp only [rtemsMessageQueueDelete, missed]

theorem rtemsMessageQueueDelete_closed {queue : ObjectAddress}
    (record : system.Record .messageQueue executing.ipcContainer container count array)
    (got : messageQueueGet system executing id = some queue) :
    rtemsMessageQueueDelete system executing id =
      (system.messageQueueInformation.objectsClose system.objects queue).bind fun closed =>
        if queue ∈ (container.info .messageQueue).inactiveChain then none
        else some ({ system.setInfo .messageQueue executing.ipcContainer
            { container.info .messageQueue with
              inactiveChain := (container.info .messageQueue).inactiveChain ++ [queue] } with
            messageQueueInformation := closed.1
            objects := closed.2 }, .successful) := by
  simp only [rtemsMessageQueueDelete, got, IpcSystem.informationOf, record.found, Option.map_some,
    Option.bind_eq_bind, Option.bind_some]
  cases system.messageQueueInformation.objectsClose system.objects queue with
  | none => rfl
  | some closed =>
    simp only [Option.bind_some, objectsFree, record.handlers, IpcKind.allocator, chainAppend]
    split
    next => rfl
    next => simp [IpcSystem.setInfo]

end Delete

end RTContainer.Rtems
