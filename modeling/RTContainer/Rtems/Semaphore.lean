import RTContainer.Rtems.Status
import RTContainer.Score.IpcContainerProperties

/-! The classic semaphore directives `rtems_semaphore_create`, `delete` and
`ident` with `RTEMSCFG_IPC_CONTAINER` and without `RTEMS_MULTIPROCESSING`. -/

set_option autoImplicit false

namespace RTContainer.Rtems

open RTContainer.Score Function

def rtemsGlobal : BitVec 32 := 0x2#32
def rtemsPriority : BitVec 32 := 0x4#32
def rtemsCountingSemaphore : BitVec 32 := 0x0#32
def rtemsBinarySemaphore : BitVec 32 := 0x10#32
def rtemsSimpleBinarySemaphore : BitVec 32 := 0x20#32
def rtemsSemaphoreClass : BitVec 32 := 0x30#32
def rtemsInheritPriority : BitVec 32 := 0x40#32
def rtemsPriorityCeiling : BitVec 32 := 0x80#32
def rtemsMultiprocessorResourceSharing : BitVec 32 := 0x100#32

def semaphoreKindMask : BitVec 32 :=
  rtemsSemaphoreClass ||| rtemsInheritPriority ||| rtemsPriorityCeiling |||
    rtemsMultiprocessorResourceSharing

/-- What a directive reads of the executing thread: its IPC container, the
maximum priority and the priority map of its home scheduler, and its priority. -/
structure Executing where
  ipcContainer : Nat
  maximumPriority : Nat
  mapPriority : Nat → Nat
  priority : Nat

/-- The arguments of `rtems_semaphore_create`; `id` tells whether the
destination is not `NULL`. -/
structure SemaphoreArguments where
  name : BitVec 32
  count : Nat
  attributeSet : BitVec 32
  priorityCeiling : Nat
  id : Bool

/-- The variant that an attribute set selects; `smp` is `RTEMS_SMP`. -/
def semaphoreVariant (smp : Bool) (attributeSet : BitVec 32) : Option SemaphoreVariant :=
  let maybeGlobal := attributeSet &&& semaphoreKindMask
  let mutexWithProtocol := attributeSet &&& (semaphoreKindMask ||| rtemsGlobal ||| rtemsPriority)
  if maybeGlobal = rtemsCountingSemaphore then some .counting
  else if maybeGlobal = rtemsSimpleBinarySemaphore then some .simpleBinary
  else if maybeGlobal = rtemsBinarySemaphore then some .mutexNoProtocol
  else if mutexWithProtocol = rtemsBinarySemaphore ||| rtemsPriority ||| rtemsInheritPriority then
    some .mutexInheritPriority
  else if mutexWithProtocol = rtemsBinarySemaphore ||| rtemsPriority ||| rtemsPriorityCeiling then
    some .mutexPriorityCeiling
  else if mutexWithProtocol =
      rtemsBinarySemaphore ||| rtemsPriority ||| rtemsMultiprocessorResourceSharing then
    some (if smp then .mrsp else .mutexPriorityCeiling)
  else none

/-- The initialization of an allocated semaphore: the status, and the control
block that a successful one leaves. A mutex with a ceiling is refused when the
ceiling is no priority, or when it is created locked by a thread of a higher
priority. -/
def semaphoreInitialize (executing : Executing) (variant : SemaphoreVariant) (count ceiling : Nat) :
    Except StatusCode SemaphoreControl :=
  let withCeiling : Except StatusCode SemaphoreControl :=
    if ceiling ≤ executing.maximumPriority then
      if count = 0 then
        if executing.priority < executing.mapPriority ceiling then .error .invalidPriority
        else .ok ⟨variant, true⟩
      else .ok ⟨variant, false⟩
    else .error .invalidPriority
  match variant with
  | .mutexNoProtocol | .mutexInheritPriority => .ok ⟨variant, count = 0⟩
  | .mutexPriorityCeiling | .mrsp => withCeiling
  | .simpleBinary | .counting => .ok ⟨variant, false⟩

/-- A control block that is back on the chain. The flags share the link of its
node, so they read as the first variant; its mutex has no owner. -/
def freedSemaphore : SemaphoreControl := ⟨.mutexInheritPriority, false⟩

/-- The checks of `rtems_semaphore_create` before it allocates. -/
def semaphoreCheck (smp : Bool) (arguments : SemaphoreArguments) :
    Except StatusCode SemaphoreVariant :=
  if arguments.name = 0 then .error .invalidName
  else if !arguments.id then .error .invalidAddress
  else
    match semaphoreVariant smp arguments.attributeSet with
    | none => .error .notDefined
    | some variant =>
      if arguments.count > 1 ∧ variant ≠ .counting then .error .invalidNumber
      else .ok variant

/-- `rtems_semaphore_create`: the status, and the identifier of a success. The
control block comes from the container, the identifier is opened in
`_Semaphore_Information`. -/
def rtemsSemaphoreCreate (smp : Bool) (system : IpcSystem) (executing : Executing)
    (arguments : SemaphoreArguments) : Option (IpcSystem × Except StatusCode ObjectsId) :=
  match semaphoreCheck smp arguments with
  | .error status => some (system, .error status)
  | .ok variant => do
      let information ← system.informationOf .semaphore executing.ipcContainer
      match ← information.objectsAllocate system.objects with
      | (none, taken) =>
        return (system.setInfo .semaphore executing.ipcContainer taken, .error .tooMany)
      | (some semaphore, taken) =>
        let allocated := system.setInfo .semaphore executing.ipcContainer taken
        match semaphoreInitialize executing variant arguments.count arguments.priorityCeiling with
        | .error status => do
            let freed ← taken.objectsFree system.objects semaphore
            return ({ allocated.setInfo .semaphore executing.ipcContainer freed with
              semaphores := update system.semaphores semaphore freedSemaphore },
              .error status)
        | .ok control => do
            let (opened, objects) ←
              system.semaphoreInformation.objectsOpenU32 system.objects semaphore arguments.name
            return ({ allocated with
              semaphoreInformation := opened
              objects := objects
              semaphores := update system.semaphores semaphore control },
              .ok (system.objects semaphore).id)

def semaphoreGet (system : IpcSystem) (executing : Executing) (id : ObjectsId) :
    Option ObjectAddress :=
  (system.informationOf .semaphore executing.ipcContainer).bind (·.objectsGet id)

/-- Whether `rtems_semaphore_delete` refuses a semaphore: a mutex that has an
owner. Other semaphores are never locked. -/
def SemaphoreControl.inUse (control : SemaphoreControl) : Bool :=
  match control.variant with
  | .mutexInheritPriority | .mutexPriorityCeiling | .mutexNoProtocol | .mrsp => control.locked
  | .simpleBinary | .counting => false

/-- `rtems_semaphore_delete`. The identifier is closed in
`_Semaphore_Information`, the control block goes back to the container. -/
def rtemsSemaphoreDelete (system : IpcSystem) (executing : Executing) (id : ObjectsId) :
    Option (IpcSystem × StatusCode) :=
  match semaphoreGet system executing id with
  | none => some (system, .invalidId)
  | some semaphore =>
    if SemaphoreControl.inUse (system.semaphores semaphore) then some (system, .resourceInUse)
    else do
      let (closed, objects) ← system.semaphoreInformation.objectsClose system.objects semaphore
      let information ← system.informationOf .semaphore executing.ipcContainer
      let freed ← information.objectsFree objects semaphore
      return ({ system with
        semaphoreInformation := closed
        objects := objects
        semaphores := update system.semaphores semaphore freedSemaphore
        }.setInfo .semaphore executing.ipcContainer freed, .successful)

def rtemsSemaphoreIdent (system : IpcSystem) (name : BitVec 32) (node : Nat) :
    Option ObjectAddress :=
  system.semaphoreInformation.objectsNameToIdU32 system.objects name node

end RTContainer.Rtems

/-! What the semaphore directives do to a sound system. -/

namespace RTContainer.Rtems

open RTContainer.Score RTContainer.Score.ObjectsInformation Function

variable {smp : Bool} {system : IpcSystem} {executing : Executing}

section Record

variable {container : IpcContainer} {information : ObjectsInformation}
variable {cls node count array : Nat}

def semaphoreEntered (information : ObjectsInformation) (semaphore : ObjectAddress)
    (rest : List ObjectAddress) : ObjectsInformation :=
  { information with
    inactiveChain := rest
    localTable := information.localTable.set semaphore.position (some semaphore)
    inactive := information.inactive - 1 }

def semaphoreReleased (information : ObjectsInformation) (semaphore : ObjectAddress) :
    ObjectsInformation :=
  { information with
    localTable := information.localTable.set (semaphore.position + 1) none
    inactiveChain := information.inactiveChain ++ [semaphore]
    inactive := information.inactive + 1 }

variable {memory : ObjectsMemory} {semaphore : ObjectAddress}

theorem semaphoreEntered_shaped {rest : List ObjectAddress}
    (shaped : Shaped information memory cls node count array)
    (chain : information.inactiveChain = semaphore :: rest) :
    Shaped (semaphoreEntered information semaphore rest) memory cls node count array := by
  have nodup := shaped.chain_nodup
  rw [chain] at nodup
  have own := shaped.chain_own semaphore (by rw [chain]; exact List.mem_cons_self)
  refine shaped.replace rfl rfl (List.length_set ..) (List.nodup_cons.mp nodup).2 ?_
    (shaped.slots_set_some own)
  intro object member
  exact shaped.chain_own object (by rw [chain]; exact .tail _ member)

theorem semaphoreReleased_shaped (shaped : Shaped information memory cls node count array)
    (own : semaphore.array = array ∧ semaphore.position < count)
    (off : semaphore ∉ information.inactiveChain) :
    Shaped (semaphoreReleased information semaphore) memory cls node count array := by
  refine shaped.replace rfl rfl (List.length_set ..) ?_ ?_ (shaped.slots_set_none _)
  · exact (List.perm_append_singleton semaphore information.inactiveChain).nodup_iff.mpr
      (List.nodup_cons.mpr ⟨off, shaped.chain_nodup⟩)
  · intro object member
    rcases List.mem_append.mp member with member | member
    · exact shaped.chain_own object member
    · rw [List.mem_singleton.mp member]
      exact own

end Record

section Directives

variable {container : IpcContainer} {count array : Nat}

variable {arguments : SemaphoreArguments} {status : StatusCode} {variant : SemaphoreVariant}
variable {semaphore object : ObjectAddress} {rest : List ObjectAddress}
variable {memory objects : ObjectsMemory} {id : ObjectsId}

theorem rtemsSemaphoreCreate_refused (refused : semaphoreCheck smp arguments = .error status) :
    rtemsSemaphoreCreate smp system executing arguments = some (system, .error status) := by
  simp only [rtemsSemaphoreCreate, refused]

theorem rtemsSemaphoreCreate_zeroed (checked : semaphoreCheck smp arguments = .ok variant)
    (found : system.containers executing.ipcContainer = some container)
    (cleared : container.info .semaphore = .zeroed) :
    rtemsSemaphoreCreate smp system executing arguments = none := by
  simp [rtemsSemaphoreCreate, checked, IpcSystem.informationOf, found, cleared, zeroed,
    objectsAllocate]

theorem rtemsSemaphoreCreate_exhausted (checked : semaphoreCheck smp arguments = .ok variant)
    (record : system.Record .semaphore executing.ipcContainer container count array)
    (chain : (container.info .semaphore).inactiveChain = []) :
    rtemsSemaphoreCreate smp system executing arguments = some (system, .error .tooMany) := by
  have allocated := record.shaped.objectsAllocate_eq record.handlers
  simp only [chain] at allocated
  simp [rtemsSemaphoreCreate, checked, IpcSystem.informationOf, record.found, allocated,
    IpcSystem.setInfo_eq_self record.found]

def semaphoreCreateFailed (system : IpcSystem) (executing : Executing)
    (information : ObjectsInformation) (semaphore : ObjectAddress)
    (rest : List ObjectAddress) : IpcSystem :=
  { system.setInfo .semaphore executing.ipcContainer
      (semaphoreReleased (semaphoreEntered information semaphore rest) semaphore) with
    semaphores := update system.semaphores semaphore freedSemaphore }

/-- The status of a failed initialization is returned. -/
theorem rtemsSemaphoreCreate_failed (checked : semaphoreCheck smp arguments = .ok variant)
    (record : system.Record .semaphore executing.ipcContainer container count array)
    (chain : (container.info .semaphore).inactiveChain = semaphore :: rest)
    (failed : semaphoreInitialize executing variant arguments.count arguments.priorityCeiling =
      .error status) :
    rtemsSemaphoreCreate smp system executing arguments =
      some (semaphoreCreateFailed system executing (container.info .semaphore) semaphore rest,
        .error status) := by
  have allocated : (container.info .semaphore).objectsAllocate system.objects =
      some (some semaphore, semaphoreEntered (container.info .semaphore) semaphore rest) := by
    rw [record.shaped.objectsAllocate_eq record.handlers, chain]
    rfl
  have own := record.shaped.chain_own semaphore (by rw [chain]; exact List.mem_cons_self)
  have nodup := record.shaped.chain_nodup
  rw [chain] at nodup
  have off : semaphore ∉
      (semaphoreEntered (container.info .semaphore) semaphore rest).inactiveChain :=
    (List.nodup_cons.mp nodup).1
  have freed : (semaphoreEntered (container.info .semaphore) semaphore rest).objectsFree
      system.objects semaphore = some (semaphoreReleased
        (semaphoreEntered (container.info .semaphore) semaphore rest) semaphore) := by
    have enteredHandlers : (semaphoreEntered (container.info .semaphore) semaphore rest).allocator =
      IpcKind.semaphore.allocator := record.handlers
    rw [(semaphoreEntered_shaped record.shaped chain).objectsFree_eq enteredHandlers own,
      if_neg off]
    rfl
  simp [rtemsSemaphoreCreate, checked, IpcSystem.informationOf, record.found, allocated, failed,
    freed, semaphoreCreateFailed]

def semaphoreCreated (system : IpcSystem) (executing : Executing) (information : ObjectsInformation)
    (semaphore : ObjectAddress) (rest : List ObjectAddress) (control : SemaphoreControl)
    (opened : ObjectsInformation) (objects : ObjectsMemory) : IpcSystem :=
  { system.setInfo .semaphore executing.ipcContainer
      (semaphoreEntered information semaphore rest) with
    semaphoreInformation := opened
    objects := objects
    semaphores := update system.semaphores semaphore control }

theorem rtemsSemaphoreCreate_opened {control : SemaphoreControl}
    (checked : semaphoreCheck smp arguments = .ok variant)
    (record : system.Record .semaphore executing.ipcContainer container count array)
    (chain : (container.info .semaphore).inactiveChain = semaphore :: rest)
    (initialized : semaphoreInitialize executing variant arguments.count
      arguments.priorityCeiling = .ok control) :
    rtemsSemaphoreCreate smp system executing arguments =
      (system.semaphoreInformation.objectsOpenU32 system.objects semaphore arguments.name).map
        fun opened => (semaphoreCreated system executing (container.info .semaphore) semaphore rest
          control opened.1 opened.2, .ok (system.objects semaphore).id) := by
  have allocated : (container.info .semaphore).objectsAllocate system.objects =
      some (some semaphore, semaphoreEntered (container.info .semaphore) semaphore rest) := by
    rw [record.shaped.objectsAllocate_eq record.handlers, chain]
    rfl
  simp only [rtemsSemaphoreCreate, checked, IpcSystem.informationOf, record.found, Option.map_some,
    allocated, initialized, Option.bind_eq_bind, Option.bind_some, semaphoreCreated]
  cases system.semaphoreInformation.objectsOpenU32 system.objects semaphore arguments.name with
  | none => rfl
  | some opened => rfl

def semaphoreDeleted (system : IpcSystem) (executing : Executing) (information : ObjectsInformation)
    (semaphore : ObjectAddress) (closed : ObjectsInformation) (objects : ObjectsMemory) :
    IpcSystem :=
  { system.setInfo .semaphore executing.ipcContainer (semaphoreReleased information semaphore) with
    semaphoreInformation := closed
    objects := objects
    semaphores := update system.semaphores semaphore freedSemaphore }

theorem objectsClose_ids {information closed : ObjectsInformation}
    (closing : information.objectsClose memory object = some (closed, objects))
    (other : ObjectAddress) : (objects other).id = (memory other).id := by
  simp only [objectsClose, Option.bind_eq_bind, Option.bind_eq_some_iff, Option.pure_def,
    Option.some.injEq, Prod.mk.injEq] at closing
  obtain ⟨-, -, -, rfl⟩ := closing
  by_cases same : other = object
  · simp [same]
  · simp [same]

theorem objectsOpenU32_ids {information opened : ObjectsInformation} {name : BitVec 32}
    (opening : information.objectsOpenU32 memory object name = some (opened, objects))
    (other : ObjectAddress) : (objects other).id = (memory other).id := by
  simp only [objectsOpenU32, Option.bind_eq_bind, Option.bind_eq_some_iff, Option.pure_def,
    Option.some.injEq, Prod.mk.injEq] at opening
  obtain ⟨-, -, -, rfl⟩ := opening
  by_cases same : other = object
  · simp [same]
  · simp [same]

theorem rtemsSemaphoreDelete_closed
    (record : system.Record .semaphore executing.ipcContainer container count array)
    (got : semaphoreGet system executing id = some semaphore)
    (idle : SemaphoreControl.inUse (system.semaphores semaphore) = false) :
    rtemsSemaphoreDelete system executing id =
      (system.semaphoreInformation.objectsClose system.objects semaphore).bind fun closed =>
        if semaphore ∈ (container.info .semaphore).inactiveChain then none
        else some (semaphoreDeleted system executing (container.info .semaphore) semaphore closed.1
          closed.2, .successful) := by
  have own : semaphore.array = array ∧ semaphore.position < count := by
    simp only [semaphoreGet, IpcSystem.informationOf, record.found, Option.map_some,
      Option.bind_some] at got
    exact (record.shaped.objectsGet_eq_some.mp got).1
  simp only [rtemsSemaphoreDelete, got, idle, Bool.false_eq_true, ↓reduceIte,
    IpcSystem.informationOf, record.found, Option.map_some, Option.bind_eq_bind, Option.bind_some]
  cases closing : system.semaphoreInformation.objectsClose system.objects semaphore with
  | none => rfl
  | some result =>
    obtain ⟨closed, objects⟩ := result
    have keeps := record.shaped.of_ids
      (fun position (_ : position < count) => objectsClose_ids closing ⟨array, position⟩)
    have freed := keeps.objectsFree_eq record.handlers own
    simp only [Option.bind_some, freed]
    split
    next => rfl
    next => simp [semaphoreDeleted, semaphoreReleased, IpcSystem.setInfo]

theorem rtemsSemaphoreDelete_refused
    (refused : ∀ semaphore, semaphoreGet system executing id = some semaphore →
      SemaphoreControl.inUse (system.semaphores semaphore) = true) :
    ∃ status, status ≠ .successful ∧
      rtemsSemaphoreDelete system executing id = some (system, status) := by
  cases got : semaphoreGet system executing id with
  | none => exact ⟨.invalidId, by decide, by simp only [rtemsSemaphoreDelete, got]⟩
  | some semaphore =>
    exact ⟨.resourceInUse, by decide, by
      simp only [rtemsSemaphoreDelete, got, refused semaphore got, ↓reduceIte]⟩

end Directives

end RTContainer.Rtems
