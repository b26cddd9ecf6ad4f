import RTContainer.Rtems.IpcIsolation

/-! The object pools of the IPC containers. `rtems_ipc_container_create` should
return a container all of whose control blocks are on its `Inactive` chains, and
later creates should succeed as long as there are blocks that are not live. A run
records the identifiers that are live in every container. -/

set_option autoImplicit false

namespace RTContainer.Rtems

open RTContainer.Score RTContainer.Score.ObjectsInformation Machine Function

/-- `max_objects` of a class in a created container. -/
def poolSize : IpcKind → Nat
  | .messageQueue => 5
  | .semaphore => 10

def Complete (allocated : InfoMemory) : Prop :=
  allocated.objects.isSome ∧ allocated.localTable = true

/-- The system with the identifiers of the live objects of each class in the
container at each address. -/
structure IpcPools where
  system : IpcSystem
  live : Nat → IpcKind → List ObjectsId

namespace IpcPools

variable (smp : Bool)

def creates (system : IpcSystem) :
    IpcCall → Option (Executing × IpcKind × Option (IpcSystem × Except StatusCode ObjectsId))
  | .semaphoreCreate executing arguments =>
    some (executing, .semaphore, rtemsSemaphoreCreate smp system executing arguments)
  | .queueCreate executing name count maxMessageSize id workspace =>
    some (executing, .messageQueue,
      rtemsMessageQueueCreate system executing name count maxMessageSize id workspace)
  | .queueConstruct executing config id =>
    some (executing, .messageQueue, rtemsMessageQueueConstruct system executing config id)
  | _ => none

def deletes (system : IpcSystem) :
    IpcCall → Option (Executing × IpcKind × ObjectsId × Option (IpcSystem × StatusCode))
  | .semaphoreDelete executing id =>
    some (executing, .semaphore, id, rtemsSemaphoreDelete system executing id)
  | .queueDelete executing id =>
    some (executing, .messageQueue, id, rtemsMessageQueueDelete system executing id)
  | _ => none

def setLive (live : Nat → IpcKind → List ObjectsId) (address : Nat) (kind : IpcKind)
    (ids : List ObjectsId) : Nat → IpcKind → List ObjectsId :=
  update live address (update (live address) kind ids)

def enter (ids : List ObjectsId) : Option (IpcSystem × Except StatusCode ObjectsId) →
    List ObjectsId
  | some (_, .ok id) => id :: ids
  | _ => ids

/-- After a successful delete an object is live no more. -/
def leave (ids : List ObjectsId) (id : ObjectsId) :
    Option (IpcSystem × StatusCode) → List ObjectsId
  | some (_, .successful) => ids.erase id
  | _ => ids

/-- The live objects after a call; nothing is live in a new container. -/
def record (state : IpcPools) (call : IpcCall) : Nat → IpcKind → List ObjectsId :=
  match call with
  | .containerCreate (some address) _ _ _ => update state.live address fun _ => []
  | call =>
    match creates smp state.system call, deletes state.system call with
    | some (executing, kind, result), _ =>
      setLive state.live executing.ipcContainer kind
        (enter (state.live executing.ipcContainer kind) result)
    | none, some (executing, kind, id, result) =>
      setLive state.live executing.ipcContainer kind
        (leave (state.live executing.ipcContainer kind) id result)
    | none, none => state.live

def step (state : Option IpcPools) (call : IpcCall) : Option IpcPools :=
  state.bind fun current =>
    (call.perform smp current.system).map fun next => ⟨next, current.record smp call⟩

/-- The `Inactive` chain holds `max_objects` different control blocks with the
indexes from one on. -/
def FullPool (container : IpcContainer) (memory : ObjectsMemory) (kind : IpcKind) : Prop :=
  (container.info kind).inactiveChain.Nodup ∧
    ((container.info kind).inactiveChain.map fun object =>
      objectsGetIndex (memory object).id).Perm (List.range' 1 (poolSize kind))

/-- Nothing but the pool can be in the way of a create: its arguments pass the
checks, and the object can be initialized. -/
def Admissible : IpcCall → Prop
  | .semaphoreCreate executing arguments =>
    ∃ variant control, semaphoreCheck smp arguments = .ok variant ∧
      semaphoreInitialize executing variant arguments.count arguments.priorityCeiling = .ok control
  | .queueCreate _ name count maxMessageSize id workspace =>
    messageQueueCheck ⟨name, count, maxMessageSize, false, 0⟩ id = .ok () ∧
      coreMessageQueueInitialize count maxMessageSize workspace = .ok ()
  | .queueConstruct _ (some config) id =>
    messageQueueCheck config id = .ok () ∧
      coreMessageQueueInitialize config.maximumPendingMessages config.maximumMessageSize
        (messageQueueGetBuffers config) = .ok ()
  | _ => False

/-- A call has a result. A container is returned with full pools, or `NULL` is
returned and nothing has changed; a create of an object in such a container
succeeds exactly when fewer objects of the class are live than its pool has. -/
structure Works (smp : Bool) (state : IpcPools) (call : IpcCall) : Prop where
  performs : (call.perform smp state.system).isSome
  returned : ∀ address queueMemory semaphoreMemory listNode next,
    call = .containerCreate address queueMemory semaphoreMemory listNode →
      call.perform smp state.system = some next →
        (address = none ∧ next = state.system) ∨
          ∃ created container, address = some created ∧
            next.containers created = some container ∧
            ∀ kind, FullPool container next.objects kind
  succeeds : ∀ executing kind result,
    creates smp state.system call = some (executing, kind, result) →
      executing.ipcContainer ≠ state.system.root → Admissible smp call →
        ((∃ next id, result = some (next, .ok id)) ↔
          (state.live executing.ipcContainer kind).length < poolSize kind)

def Working : Option IpcPools → IpcCall → Prop
  | none, _ => False
  | some state, call => Works smp state call

/-- `IpcCall.WellFormed` in the state of a run; nothing is promised after an error. -/
def Promised (state : Option IpcPools) (call : IpcCall) : Prop :=
  ∀ current, state = some current → call.WellFormed current.system

/-- The calls that keep the pools. All allocations for a container succeed or
none is made; a create that gets as far as its allocation finds an allocated
record, and the index of a semaphore exists in the global record; a block that is
deleted is not inactive already, and its index exists in the global record. -/
def Keeps (smp : Bool) (system : IpcSystem) : IpcCall → Prop
  | .containerCreate address queueMemory semaphoreMemory _ =>
    address.isSome → Complete queueMemory ∧ Complete semaphoreMemory
  | .semaphoreCreate executing arguments =>
    ∀ variant container, semaphoreCheck smp arguments = .ok variant →
      system.containers executing.ipcContainer = some container →
        (container.info .semaphore).initialObjects.isSome ∧
          ∀ semaphore, semaphore ∈ (container.info .semaphore).inactiveChain.head? →
            (semaphoreInitialize executing variant arguments.count
              arguments.priorityCeiling).isOk →
              objectsGetIndex (system.objects semaphore).id ≤
                system.semaphoreInformation.objectsGetMaximumIndex
  | .semaphoreDelete executing id =>
    ∀ semaphore container, semaphoreGet system executing id = some semaphore →
      SemaphoreControl.inUse (system.semaphores semaphore) = false →
        system.containers executing.ipcContainer = some container →
          objectsGetIndex (system.objects semaphore).id ≤
              system.semaphoreInformation.objectsGetMaximumIndex ∧
            semaphore ∉ (container.info .semaphore).inactiveChain
  | call => IpcIsolation.Keeps smp system call

def Kept (state : Option IpcPools) (call : IpcCall) : Prop :=
  ∀ current, state = some current → Keeps smp current.system call

structure Pool (system : IpcSystem) (live : List ObjectsId) (kind : IpcKind) (address : Nat)
    (container : IpcContainer) (array : Nat) : Prop extends
    system.Record kind address container (poolSize kind) array where
  divided : (live ++ (container.info kind).inactiveChain.map fun object =>
    (system.objects object).id).Perm
      ((List.range (poolSize kind)).map fun position => (system.objects ⟨array, position⟩).id)

/-- The invariant of the runs that keep the pools. -/
structure Sound (state : IpcPools) : Prop where
  sound : state.system.Sound
  pools : ∀ address container kind, address ≠ state.system.root →
    state.system.containers address = some container →
      ∃ array, Pool state.system (state.live address kind) kind address container array

def Sounds : Option IpcPools → Prop
  | none => False
  | some state => state.Sound

structure Replaces (system next : IpcSystem) (kind : IpcKind) (address : Nat)
    (container : IpcContainer) (information : ObjectsInformation) : Prop where
  found : system.containers address = some container
  containersEq : next.containers =
    update system.containers address (some (container.setInfo kind information))
  root : next.root = system.root
  ids : ∀ object, (next.objects object).id = (system.objects object).id
  maximum : information.maximumId = (container.info kind).maximumId
  initial : information.initialObjects = (container.info kind).initialObjects

/-- The outcomes of a create in a container. -/
inductive Created (system : IpcSystem) (kind : IpcKind) (address : Nat)
    (container : IpcContainer) (admissible : Prop) :
    Option (IpcSystem × Except StatusCode ObjectsId) → Prop where
  | refused {status : StatusCode}
      (exhausted : admissible → (container.info kind).inactiveChain = []) :
      Created system kind address container admissible (some (system, .error status))
  | failed {object : ObjectAddress} {rest : List ObjectAddress} {next : IpcSystem}
      {information : ObjectsInformation} {status : StatusCode}
      (chain : (container.info kind).inactiveChain = object :: rest)
      (inadmissible : ¬ admissible)
      (replaces : Replaces system next kind address container information)
      (back : information.inactiveChain = rest ++ [object]) :
      Created system kind address container admissible (some (next, .error status))
  | opened {object : ObjectAddress} {rest : List ObjectAddress} {next : IpcSystem}
      {information : ObjectsInformation}
      (chain : (container.info kind).inactiveChain = object :: rest)
      (replaces : Replaces system next kind address container information)
      (taken : information.inactiveChain = rest) :
      Created system kind address container admissible (some (next, .ok (system.objects object).id))

/-- The outcomes of a delete in a container. -/
inductive Deleted (system : IpcSystem) (kind : IpcKind) (address : Nat)
    (container : IpcContainer) (id : ObjectsId) : Option (IpcSystem × StatusCode) → Prop where
  | refused {status : StatusCode} (failed : status ≠ .successful) :
      Deleted system kind address container id (some (system, status))
  | freed {object : ObjectAddress} {next : IpcSystem} {information : ObjectsInformation}
      (got : (container.info kind).objectsGet id = some object)
      (active : object ∉ (container.info kind).inactiveChain)
      (replaces : Replaces system next kind address container information)
      (back : information.inactiveChain = (container.info kind).inactiveChain ++ [object]) :
      Deleted system kind address container id (some (next, .successful))

section

variable {smp} {system next : IpcSystem} {state : IpcPools} {kind : IpcKind}
variable {address count array : Nat} {container : IpcContainer} {information : ObjectsInformation}
variable {executing : Executing} {live ids : List ObjectsId}

theorem Replaces.record (replaces : Replaces system next kind address container information)
    (soundNext : next.Sound) (record : system.Record kind address container count array) :
    next.Record kind address (container.setInfo kind information) count array := by
  have found : next.containers address = some (container.setInfo kind information) := by
    rw [replaces.containersEq, update_self]
  have initial : ((container.setInfo kind information).info kind).initialObjects = some array := by
    rw [IpcContainer.setInfo_same, replaces.initial, record.shaped.initial]
  rcases @sound_record next kind address _ soundNext found with
    cleared | ⟨otherCount, otherArray, other⟩
  · rw [cleared] at initial
    cases initial
  · have sameArray : otherArray = array :=
      Option.some.inj (other.shaped.initial.symm.trans initial)
    have sameCount : otherCount = count := by
      rw [← other.shaped.objectsGetMaximumIndex_eq, ← record.shaped.objectsGetMaximumIndex_eq]
      unfold objectsGetMaximumIndex
      rw [IpcContainer.setInfo_same, replaces.maximum]
    rw [← sameArray, ← sameCount]
    exact other

theorem Pool.of_ids (pool : Pool system live kind address container array)
    (record : next.Record kind address container (poolSize kind) array)
    (sameIds : ∀ object, object.array = array →
      (next.objects object).id = (system.objects object).id) :
    Pool next live kind address container array := by
  refine ⟨record, ?_⟩
  have chainIds : (container.info kind).inactiveChain.map (fun object => (next.objects object).id) =
      (container.info kind).inactiveChain.map fun object => (system.objects object).id :=
    List.map_congr_left fun object member =>
      sameIds object (pool.shaped.chain_own object member).1
  have allIds : ((List.range (poolSize kind)).map fun position => (next.objects ⟨array, position⟩).id) =
      (List.range (poolSize kind)).map fun position => (system.objects ⟨array, position⟩).id :=
    List.map_congr_left fun position _ => sameIds _ rfl
  rw [chainIds, allIds]
  exact pool.divided

theorem Sound.replaced (sound : state.Sound)
    (replaces : Replaces state.system next kind address container information)
    (soundNext : next.Sound)
    (moves : address ≠ state.system.root → ∀ array,
      Pool state.system (state.live address kind) kind address container array →
        (ids ++ information.inactiveChain.map fun object => (state.system.objects object).id).Perm
          (state.live address kind ++ (container.info kind).inactiveChain.map fun object =>
            (state.system.objects object).id)) :
    Sound ⟨next, setLive state.live address kind ids⟩ := by
  refine ⟨soundNext, ?_⟩
  intro other otherContainer otherKind away found
  rw [replaces.root] at away
  rw [replaces.containersEq] at found
  rcases Decidable.em (other = address) with rfl | different
  · rw [update_self, Option.some.injEq] at found
    subst otherContainer
    obtain ⟨array, pool⟩ := sound.pools other container otherKind away replaces.found
    rcases Decidable.em (otherKind = kind) with rfl | otherClass
    · have record := replaces.record soundNext pool.toRecord
      refine ⟨array, record, ?_⟩
      simp only [setLive, update_self, IpcContainer.setInfo_same, replaces.ids]
      exact (moves away array pool).trans pool.divided
    · have sameInfo := container.setInfo_other information otherClass
      have found : next.containers other = some (container.setInfo kind information) := by
        rw [replaces.containersEq, update_self]
      refine ⟨array, ⟨found, ?_, ?_⟩, ?_⟩
      · rw [sameInfo, IpcContainer.setInfo_containerID]
        exact pool.shaped.of_ids fun position _ => replaces.ids _
      · rw [sameInfo]
        exact pool.handlers
      · simp only [setLive, update_self, update_of_ne otherClass, sameInfo,
          replaces.ids]
        exact pool.divided
  · rw [update_of_ne different] at found
    obtain ⟨array, pool⟩ := sound.pools other otherContainer otherKind away found
    have nextFound : next.containers other = some otherContainer := by
      rw [replaces.containersEq, update_of_ne different, found]
    refine ⟨array, ?_⟩
    simp only [setLive, update_of_ne different]
    exact pool.of_ids ⟨nextFound, pool.shaped.of_ids fun position _ => replaces.ids _,
      pool.handlers⟩ fun object _ => replaces.ids object

theorem semaphoreCreate_created {arguments : SemaphoreArguments} (sound : system.Sound)
    (found : system.containers executing.ipcContainer = some container)
    (keeps : Keeps smp system (.semaphoreCreate executing arguments)) :
    Created system .semaphore executing.ipcContainer container
      (Admissible smp (.semaphoreCreate executing arguments))
      (rtemsSemaphoreCreate smp system executing arguments) := by
  cases check : semaphoreCheck smp arguments with
  | error status =>
    rw [rtemsSemaphoreCreate_refused check]
    refine .refused ?_
    rintro ⟨variant, control, checked, -⟩
    rw [check] at checked
    cases checked
  | ok variant =>
    obtain ⟨built, indexed⟩ := keeps variant container check found
    rcases @sound_record system .semaphore _ container sound found with
      cleared | ⟨count, array, record⟩
    · rw [cleared] at built
      cases built
    cases chain : (container.info .semaphore).inactiveChain with
    | nil =>
      rw [rtemsSemaphoreCreate_exhausted check record chain]
      exact .refused fun _ => chain
    | cons semaphore rest =>
      cases initialized : semaphoreInitialize executing variant arguments.count
          arguments.priorityCeiling with
      | error status =>
        rw [rtemsSemaphoreCreate_failed check record chain initialized]
        refine .failed chain ?_ ⟨found, IpcSystem.setInfo_containers found, rfl,
          fun _ => rfl, rfl, rfl⟩ rfl
        rintro ⟨other, control, checked, accepted⟩
        cases check.symm.trans checked
        rw [initialized] at accepted
        cases accepted
      | ok control =>
        have bound := indexed semaphore (by rw [chain]; rfl) (by rw [initialized]; rfl)
        have own := record.shaped.chain_own semaphore (by rw [chain]; exact .head _)
        obtain ⟨⟨opened, objects⟩, opening⟩ :=
          (IssuedIpc.index_le_iff_opens arguments.name record own).mp bound
        rw [rtemsSemaphoreCreate_opened check record chain initialized, opening]
        exact .opened chain ⟨found, IpcSystem.setInfo_containers found, rfl,
          objectsOpenU32_ids opening, rfl, rfl⟩ rfl

theorem messageQueueCreate_created {config : MessageQueueConfig} {id : Bool}
    {allocateBuffers : Nat → Bool} (sound : system.Sound)
    (found : system.containers executing.ipcContainer = some container)
    (allocated : messageQueueCheck config id = .ok () → QueueTable.Allocated system executing) :
    Created system .messageQueue executing.ipcContainer container
      (messageQueueCheck config id = .ok () ∧
        coreMessageQueueInitialize config.maximumPendingMessages config.maximumMessageSize
          allocateBuffers = .ok ())
      (messageQueueCreate system executing config id allocateBuffers) := by
  cases check : messageQueueCheck config id with
  | error status =>
    rw [messageQueueCreate_refused check]
    refine .refused ?_
    rintro ⟨checked, -⟩
    cases checked
  | ok done =>
    have built := allocated check container found
    rcases @sound_record system .messageQueue _ container sound found with
      cleared | ⟨count, array, record⟩
    · rw [cleared] at built
      cases built
    cases chain : (container.info .messageQueue).inactiveChain with
    | nil =>
      rw [messageQueueCreate_exhausted check record chain]
      exact .refused fun _ => chain
    | cons queue rest =>
      cases initialized : coreMessageQueueInitialize config.maximumPendingMessages
          config.maximumMessageSize allocateBuffers with
      | error status =>
        rw [messageQueueCreate_failed check record chain initialized]
        refine .failed chain ?_ ⟨found, IpcSystem.setInfo_containers found, rfl,
          fun _ => rfl, rfl, rfl⟩ rfl
        rintro ⟨-, accepted⟩
        cases accepted
      | ok done =>
        rw [messageQueueCreate_opened check record chain initialized]
        refine .opened chain ⟨found, IpcSystem.setInfo_containers found, rfl, ?_, rfl, rfl⟩
          rfl
        intro object
        rcases Decidable.em (object = queue) with rfl | different
        · simp [IpcSystem.setInfo]
        · simp [IpcSystem.setInfo, different]

variable {object : ObjectAddress} {id : ObjectsId}

theorem index_le_iff_closes {information : ObjectsInformation} {memory : ObjectsMemory}
    (minimum : objectsIndexMinimum ≤ objectsGetIndex (memory object).id) :
    objectsGetIndex (memory object).id ≤ information.objectsGetMaximumIndex ↔
      ∃ closed, information.objectsClose memory object = some closed := by
  simp only [objectsClose, objectsSetLocalObject, minimum, true_and]
  rcases Decidable.em (objectsGetIndex (memory object).id ≤ information.objectsGetMaximumIndex)
    with bound | beyond
  · simp [bound]
  · simp [beyond]

theorem record_index_minimum (record : system.Record kind address container count array)
    (own : object.array = array ∧ object.position < count) :
    objectsIndexMinimum ≤ objectsGetIndex (system.objects object).id := by
  rw [record.shaped.index_eq own, objectsIndexMinimum]
  omega

theorem semaphoreDelete_deleted (sound : system.Sound)
    (found : system.containers executing.ipcContainer = some container)
    (keeps : Keeps smp system (.semaphoreDelete executing id)) :
    Deleted system .semaphore executing.ipcContainer container id
      (rtemsSemaphoreDelete system executing id) := by
  rcases Classical.em (∀ semaphore, semaphoreGet system executing id = some semaphore →
    SemaphoreControl.inUse (system.semaphores semaphore) = true) with refused | accepted
  · obtain ⟨status, failed, performed⟩ := rtemsSemaphoreDelete_refused refused
    rw [performed]
    exact .refused failed
  · obtain ⟨semaphore, accepted⟩ := not_forall.mp accepted
    obtain ⟨got, idle⟩ := Classical.not_imp.mp accepted
    have unlocked : SemaphoreControl.inUse (system.semaphores semaphore) = false := by
      simpa using idle
    obtain ⟨bound, active⟩ := keeps semaphore container got unlocked found
    obtain ⟨reached, count, array, record, own⟩ := record_of_get sound found got
    obtain ⟨⟨closed, objects⟩, closing⟩ :=
      (index_le_iff_closes (record_index_minimum record own)).mp bound
    rw [rtemsSemaphoreDelete_closed record got unlocked, closing, Option.bind_some, if_neg active]
    exact .freed reached active ⟨found, IpcSystem.setInfo_containers found, rfl,
      objectsClose_ids closing, rfl, rfl⟩ rfl

theorem queueDelete_deleted (sound : system.Sound)
    (found : system.containers executing.ipcContainer = some container)
    (keeps : Keeps smp system (.queueDelete executing id)) :
    Deleted system .messageQueue executing.ipcContainer container id
      (rtemsMessageQueueDelete system executing id) := by
  cases got : messageQueueGet system executing id with
  | none =>
    rw [rtemsMessageQueueDelete_missed got]
    exact .refused (by decide)
  | some queue =>
    obtain ⟨bound, active⟩ := keeps queue container got found
    obtain ⟨reached, count, array, record, own⟩ := record_of_get sound found got
    obtain ⟨⟨closed, objects⟩, closing⟩ :=
      (index_le_iff_closes (record_index_minimum record own)).mp bound
    rw [rtemsMessageQueueDelete_closed record got, closing, Option.bind_some, if_neg active]
    exact .freed reached active ⟨found, IpcSystem.setInfo_containers found, rfl,
      objectsClose_ids closing, rfl, rfl⟩ rfl

end

section Container

variable {smp} {system : IpcSystem} {state : IpcPools} {kind : IpcKind} {created : Nat}
variable {queueMemory semaphoreMemory : InfoMemory} {listNode : Bool}

def given (queueMemory semaphoreMemory : InfoMemory) : IpcKind → InfoMemory
  | .messageQueue => queueMemory
  | .semaphore => semaphoreMemory

theorem initializeInfo_table (kind : IpcKind) (containerID maxObjects : Nat)
    (allocated : InfoMemory) (memory : ObjectsMemory) :
    (IpcContainer.initializeInfo kind containerID maxObjects allocated memory).1.localTable.length =
      maxObjects + 1 ↔ Complete allocated := by
  obtain ⟨objects, localTable⟩ := allocated
  cases objects with
  | none => simp [IpcContainer.initializeInfo, zeroed, Complete]
  | some array =>
    cases localTable with
    | false => simp [IpcContainer.initializeInfo, zeroed, Complete]
    | true =>
      simp only [IpcContainer.initializeInfo, objectsInitializeInformation, Complete]
      split
      · simp
      · simp

theorem containerCreate_records (created : Nat) (listNode : Bool)
    (memoryFresh : system.MemoryFresh queueMemory semaphoreMemory) :
    let next := system.rtemsIpcContainerCreate (some created) queueMemory semaphoreMemory listNode
    ∃ container, next.containers = update system.containers created (some container) ∧
      ∀ kind, container.RecordNew next.objects kind (given queueMemory semaphoreMemory kind) ∧
        ((container.info kind).localTable.length = poolSize kind + 1 ↔
          Complete (given queueMemory semaphoreMemory kind)) := by
  obtain ⟨-, queuesNew, semaphoresNew, -⟩ :=
    IpcContainer.initialRecords_new 1 (system.ipcContainerIdCounter + 1) 5 10 queueMemory
      semaphoreMemory system.objects ⟨by decide, by decide⟩ ⟨by decide, by decide⟩
      memoryFresh.apart
  refine ⟨_, rfl, ?_⟩
  intro kind
  cases kind with
  | messageQueue => exact ⟨queuesNew, initializeInfo_table ..⟩
  | semaphore => exact ⟨semaphoresNew, initializeInfo_table ..⟩

variable {container : IpcContainer} {memory : ObjectsMemory} {allocated : InfoMemory}

theorem recordNew_complete (new : container.RecordNew memory kind allocated)
    (table : (container.info kind).localTable.length = poolSize kind + 1) :
    ∃ array, Consistent (container.info kind) memory kind.cls container.containerID
        (poolSize kind) array ∧ (container.info kind).allocator = kind.allocator ∧
      (container.info kind).inactiveChain =
        (List.range (poolSize kind)).map (ObjectAddress.mk array) := by
  rcases new with cleared | ⟨count, array, -, consistent, handlers, chain⟩
  · rw [cleared] at table
    cases table
  · have sameCount : count = poolSize kind := by
      have length := consistent.table_length
      omega
    subst sameCount
    exact ⟨array, consistent, handlers, chain⟩

theorem recordNew_fullPool (new : container.RecordNew memory kind allocated)
    (table : (container.info kind).localTable.length = poolSize kind + 1) :
    FullPool container memory kind := by
  obtain ⟨array, consistent, -, chain⟩ := recordNew_complete new table
  refine ⟨consistent.chain_nodup, ?_⟩
  have indexes : ((container.info kind).inactiveChain.map fun object =>
      objectsGetIndex (memory object).id) = List.range' 1 (poolSize kind) := by
    rw [chain, List.map_map, List.range'_eq_map_range]
    refine List.map_congr_left ?_
    intro position inside
    rw [Function.comp_apply, consistent.toDescribes.index_eq (List.mem_range.mp inside),
      Nat.add_comm]
  rw [indexes]

theorem FullPool.table (full : FullPool container memory kind)
    (new : container.RecordNew memory kind allocated) :
    (container.info kind).localTable.length = poolSize kind + 1 := by
  have length := full.2.length_eq
  rw [List.length_map, List.length_range'] at length
  rcases new with cleared | ⟨count, array, -, consistent, -, chain⟩
  · rw [cleared] at length
    cases kind with
    | messageQueue => cases length
    | semaphore => cases length
  · rw [chain, List.length_map, List.length_range] at length
    rw [consistent.table_length, length]

theorem Sound.containerCreate (sound : state.Sound)
    (memoryFresh : state.system.MemoryFresh queueMemory semaphoreMemory)
    (complete : Complete queueMemory ∧ Complete semaphoreMemory) :
    Sound ⟨state.system.rtemsIpcContainerCreate (some created) queueMemory semaphoreMemory listNode,
      update state.live created fun _ => []⟩ := by
  obtain ⟨container, containersEq, records⟩ :=
    containerCreate_records created listNode memoryFresh
  obtain ⟨-, kept⟩ := IpcSystem.create_records created listNode memoryFresh
  have soundNext : (state.system.rtemsIpcContainerCreate (some created) queueMemory
      semaphoreMemory listNode).Sound := sound.sound.create memoryFresh
  refine ⟨soundNext, ?_⟩
  intro other otherContainer kind away found
  have place := found
  rw [containersEq] at found
  rcases Decidable.em (other = created) with rfl | different
  · rw [update_self, Option.some.injEq] at found
    subst otherContainer
    obtain ⟨new, table⟩ := records kind
    have isComplete : Complete (given queueMemory semaphoreMemory kind) := by
      cases kind with
      | messageQueue => exact complete.1
      | semaphore => exact complete.2
    obtain ⟨array, consistent, handlers, chain⟩ := recordNew_complete new (table.mpr isComplete)
    refine ⟨array, ⟨place, consistent.toShaped, handlers⟩, ?_⟩
    dsimp only
    rw [update_self, chain, List.map_map]
    exact .refl _
  · rw [update_of_ne different] at found
    obtain ⟨array, pool⟩ := sound.pools other otherContainer kind away found
    have same : ∀ object : ObjectAddress, object.array = array →
        (state.system.rtemsIpcContainerCreate (some created) queueMemory semaphoreMemory
          listNode).objects object = state.system.objects object := by
      rintro ⟨objectArray, position⟩ rfl
      exact kept other otherContainer kind _ position found pool.shaped.initial
    refine ⟨array, ?_⟩
    dsimp only
    rw [update_of_ne different]
    refine pool.of_ids ⟨place, pool.shaped.of_ids ?_, pool.handlers⟩ ?_
    · intro position _
      rw [same ⟨array, position⟩ rfl]
    · intro object own
      rw [same object own]

theorem containerDelete_root (deleted : Option Nat) :
    (system.rtemsIpcContainerDelete deleted).root = system.root := by
  cases deleted with
  | none => rfl
  | some address =>
    simp only [IpcSystem.rtemsIpcContainerDelete]
    split
    · rfl
    · rfl

theorem Sound.containerDelete (sound : state.Sound) (deleted : Option Nat) :
    Sound ⟨state.system.rtemsIpcContainerDelete deleted, state.live⟩ := by
  refine ⟨sound.sound.delete, ?_⟩
  intro other otherContainer kind away found
  rw [containerDelete_root] at away
  obtain ⟨array, pool⟩ := sound.pools other otherContainer kind away
    (IpcSystem.delete_containers_some found)
  refine ⟨array, pool.of_ids ⟨found, ?_, pool.handlers⟩ ?_⟩
  · rw [IpcSystem.delete_objects]
    exact pool.shaped
  · intro object _
    rw [IpcSystem.delete_objects]

end Container

section Step

variable {smp} {system : IpcSystem} {state : IpcPools} {kind : IpcKind} {call : IpcCall}
variable {executing : Executing} {id : ObjectsId}
variable {result : Option (IpcSystem × Except StatusCode ObjectsId)}
variable {ended : Option (IpcSystem × StatusCode)}

theorem creates_created (sound : system.Sound) (wellFormed : call.WellFormed system)
    (keeps : Keeps smp system call)
    (creating : creates smp system call = some (executing, kind, result)) :
    call.perform smp system = result.map Prod.fst ∧
      ∃ container, system.containers executing.ipcContainer = some container ∧
        Created system kind executing.ipcContainer container (Admissible smp call) result := by
  cases call with
  | semaphoreCreate caller arguments =>
    cases creating
    obtain ⟨container, found⟩ := Option.isSome_iff_exists.mp (wellFormed executing rfl)
    exact ⟨rfl, container, found, semaphoreCreate_created sound found keeps⟩
  | queueCreate caller name count maxMessageSize hasId workspace =>
    cases creating
    obtain ⟨container, found⟩ := Option.isSome_iff_exists.mp (wellFormed executing rfl)
    exact ⟨rfl, container, found, messageQueueCreate_created sound found keeps⟩
  | queueConstruct caller config hasId =>
    cases creating
    obtain ⟨container, found⟩ := Option.isSome_iff_exists.mp (wellFormed executing rfl)
    cases config with
    | none => exact ⟨rfl, container, found, .refused False.elim⟩
    | some config => exact ⟨rfl, container, found, messageQueueCreate_created sound found keeps⟩
  | _ => cases creating

theorem deletes_deleted (sound : system.Sound) (wellFormed : call.WellFormed system)
    (keeps : Keeps smp system call) (deleting : deletes system call = some (executing, kind, id, ended)) :
    call.perform smp system = ended.map Prod.fst ∧
      ∃ container, system.containers executing.ipcContainer = some container ∧
        Deleted system kind executing.ipcContainer container id ended := by
  cases call with
  | semaphoreDelete caller named =>
    cases deleting
    obtain ⟨container, found⟩ := Option.isSome_iff_exists.mp (wellFormed executing rfl)
    exact ⟨rfl, container, found, semaphoreDelete_deleted sound found keeps⟩
  | queueDelete caller named =>
    cases deleting
    obtain ⟨container, found⟩ := Option.isSome_iff_exists.mp (wellFormed executing rfl)
    exact ⟨rfl, container, found, queueDelete_deleted sound found keeps⟩
  | _ => cases deleting

theorem setLive_self (live : Nat → IpcKind → List ObjectsId) (address : Nat) :
    setLive live address kind (live address kind) = live := by
  simp [setLive]

private theorem enter_refused (ids : List ObjectsId) (status : StatusCode) :
    enter ids (some (system, .error status)) = ids := rfl

theorem leave_refused {status : StatusCode} (ids : List ObjectsId) (failed : status ≠ .successful) :
    leave ids id (some (system, status)) = ids := by
  cases status with
  | successful => exact absurd rfl failed
  | _ => rfl

theorem record_creates
    (creating : creates smp state.system call = some (executing, kind, result)) :
    state.record smp call = setLive state.live executing.ipcContainer kind
      (enter (state.live executing.ipcContainer kind) result) := by
  cases call with
  | semaphoreCreate | queueCreate | queueConstruct =>
    cases creating
    rfl
  | _ => cases creating

theorem record_deletes
    (deleting : deletes state.system call = some (executing, kind, id, ended)) :
    state.record smp call = setLive state.live executing.ipcContainer kind
      (leave (state.live executing.ipcContainer kind) id ended) := by
  cases call with
  | semaphoreDelete | queueDelete =>
    cases deleting
    rfl
  | _ => cases deleting

theorem Sound.create_step (sound : state.Sound) (wellFormed : call.WellFormed state.system)
    (keeps : Keeps smp state.system call)
    (creating : creates smp state.system call = some (executing, kind, result)) :
    ∃ next, call.perform smp state.system = some next ∧ Sound ⟨next, state.record smp call⟩ := by
  obtain ⟨performed, container, -, created⟩ :=
    creates_created sound.sound wellFormed keeps creating
  have soundNext : ∀ next, call.perform smp state.system = some next → next.Sound :=
    fun next => IpcCall.perform_sound sound.sound wellFormed
  rw [record_creates creating]
  cases created with
  | refused exhausted =>
    refine ⟨_, performed, ?_⟩
    rw [enter_refused, setLive_self]
    exact sound
  | @failed object rest next information status chain inadmissible replaces back =>
    refine ⟨next, performed, sound.replaced replaces (soundNext next performed) ?_⟩
    intro away array pool
    rw [back, chain]
    exact .append_left _ ((List.perm_append_singleton object rest).map _)
  | @opened object rest next information chain replaces taken =>
    refine ⟨next, performed, sound.replaced replaces (soundNext next performed) ?_⟩
    intro away array pool
    rw [taken, chain]
    exact List.perm_middle.symm

variable {live : List ObjectsId} {address array : Nat} {container : IpcContainer}
variable {before : Option IpcPools} {queueMemory semaphoreMemory : InfoMemory} {listNode : Bool}

theorem Pool.mem_live {object : ObjectAddress}
    (pool : Pool system live kind address container array)
    (got : (container.info kind).objectsGet id = some object)
    (active : object ∉ (container.info kind).inactiveChain) : id ∈ live := by
  obtain ⟨own, named, -⟩ := pool.shaped.objectsGet_eq_some.mp got
  obtain ⟨objectArray, position⟩ := object
  obtain ⟨rfl, inside⟩ := own
  have isBlock : id ∈ (List.range (poolSize kind)).map fun position =>
      (system.objects ⟨objectArray, position⟩).id :=
    List.mem_map.mpr ⟨position, List.mem_range.mpr inside, named.symm⟩
  rcases List.mem_append.mp (pool.divided.mem_iff.mpr isBlock) with isLive | isInactive
  · exact isLive
  · obtain ⟨⟨otherArray, other⟩, member, same⟩ := List.mem_map.mp isInactive
    obtain ⟨rfl, otherInside⟩ := pool.shaped.chain_own _ member
    have samePosition := pool.shaped.toDescribes.id_injective otherInside inside (same.trans named)
    subst samePosition
    exact absurd member active

theorem Sound.delete_step (sound : state.Sound) (wellFormed : call.WellFormed state.system)
    (keeps : Keeps smp state.system call)
    (deleting : deletes state.system call = some (executing, kind, id, ended)) :
    ∃ next, call.perform smp state.system = some next ∧ Sound ⟨next, state.record smp call⟩ := by
  obtain ⟨performed, container, found, deleted⟩ :=
    deletes_deleted sound.sound wellFormed keeps deleting
  rw [record_deletes deleting]
  cases deleted with
  | @refused status failed =>
    refine ⟨_, performed, ?_⟩
    rw [leave_refused _ failed, setLive_self]
    exact sound
  | @freed object next information got active replaces back =>
    refine ⟨next, performed, sound.replaced replaces
      (IpcCall.perform_sound sound.sound wellFormed performed) ?_⟩
    intro away array pool
    have isLive := pool.mem_live got active
    obtain ⟨own, named, -⟩ := pool.shaped.objectsGet_eq_some.mp got
    have regrouped := (List.perm_cons_erase isLive).symm.append_right
      ((container.info kind).inactiveChain.map fun object => (state.system.objects object).id)
    refine .trans ?_ regrouped
    rw [back, named, List.map_append, ← List.append_assoc]
    exact List.perm_append_singleton _ _

theorem Sound.performs (sound : state.Sound) (wellFormed : call.WellFormed state.system)
    (keeps : Keeps smp state.system call) :
    ∃ next, call.perform smp state.system = some next ∧ Sound ⟨next, state.record smp call⟩ := by
  cases call with
  | containerCreate address queueMemory semaphoreMemory listNode =>
    refine ⟨_, rfl, ?_⟩
    cases address with
    | none => exact sound
    | some created => exact sound.containerCreate wellFormed.2 (keeps rfl)
  | containerDelete deleted => exact ⟨_, rfl, sound.containerDelete deleted⟩
  | semaphoreCreate | queueCreate | queueConstruct =>
    exact sound.create_step wellFormed keeps rfl
  | semaphoreDelete | queueDelete => exact sound.delete_step wellFormed keeps rfl
  | semaphoreIdent | semaphoreGet | queueIdent | queueGet => exact ⟨_, rfl, sound⟩

theorem sounds_step (sounds : Sounds before) (promised : Promised before call)
    (kept : Kept smp before call) : Sounds (step smp before call) := by
  cases before with
  | none => exact sounds
  | some state =>
    obtain ⟨next, performed, sound⟩ :=
      Sound.performs sounds (promised state rfl) (kept state rfl)
    have stepped : step smp (some state) call = some ⟨next, state.record smp call⟩ := by
      simp [step, performed]
    rw [stepped]
    exact sound

theorem Pool.length (pool : Pool system live kind address container array) :
    live.length + (container.info kind).inactiveChain.length = poolSize kind := by
  have length := pool.divided.length_eq
  rw [List.length_append, List.length_map, List.length_map, List.length_range] at length
  exact length

theorem Sound.succeeds (sound : state.Sound) (wellFormed : call.WellFormed state.system)
    (keeps : Keeps smp state.system call)
    (creating : creates smp state.system call = some (executing, kind, result))
    (away : executing.ipcContainer ≠ state.system.root) (admissible : Admissible smp call) :
    (∃ next id, result = some (next, .ok id)) ↔
      (state.live executing.ipcContainer kind).length < poolSize kind := by
  obtain ⟨-, container, found, created⟩ :=
    creates_created sound.sound wellFormed keeps creating
  obtain ⟨array, pool⟩ := sound.pools executing.ipcContainer container kind away found
  have length := pool.length
  cases created with
  | refused exhausted =>
    rw [exhausted admissible, List.length_nil] at length
    refine iff_of_false ?_ (by omega)
    rintro ⟨next, issued, same⟩
    cases same
  | failed chain inadmissible replaces back => exact absurd admissible inadmissible
  | opened chain replaces taken =>
    rw [chain, List.length_cons] at length
    exact iff_of_true ⟨_, _, rfl⟩ (by omega)

theorem Sound.returned {address : Option Nat}
    (wellFormed : (IpcCall.containerCreate address queueMemory semaphoreMemory
      listNode).WellFormed system)
    (keeps : Keeps smp system (.containerCreate address queueMemory semaphoreMemory listNode)) :
    let next := system.rtemsIpcContainerCreate address queueMemory semaphoreMemory listNode
    (address = none ∧ next = system) ∨
      ∃ created container, address = some created ∧ next.containers created = some container ∧
        ∀ kind, FullPool container next.objects kind := by
  cases address with
  | none => exact .inl ⟨rfl, rfl⟩
  | some created =>
    obtain ⟨container, containersEq, records⟩ :=
      containerCreate_records created listNode wellFormed.2
    obtain ⟨queues, semaphores⟩ := keeps rfl
    refine .inr ⟨created, container, rfl, ?_, ?_⟩
    · rw [containersEq, update_self]
    · intro kind
      obtain ⟨new, table⟩ := records kind
      refine recordNew_fullPool new (table.mpr ?_)
      cases kind with
      | messageQueue => exact queues
      | semaphore => exact semaphores

theorem complete_of_fullPool {created : Nat}
    (memoryFresh : system.MemoryFresh queueMemory semaphoreMemory)
    (found : (system.rtemsIpcContainerCreate (some created) queueMemory semaphoreMemory
      listNode).containers created = some container)
    (full : ∀ kind, FullPool container (system.rtemsIpcContainerCreate (some created) queueMemory
      semaphoreMemory listNode).objects kind) :
    Complete queueMemory ∧ Complete semaphoreMemory := by
  obtain ⟨built, containersEq, records⟩ := containerCreate_records created listNode memoryFresh
  rw [containersEq, update_self, Option.some.injEq] at found
  subst built
  have complete : ∀ kind, Complete (given queueMemory semaphoreMemory kind) := by
    intro kind
    obtain ⟨new, table⟩ := records kind
    exact table.mp ((full kind).table new)
  exact ⟨complete .messageQueue, complete .semaphore⟩

/-- A create that misses what it needs has no result. -/
theorem semaphoreCreate_none {arguments : SemaphoreArguments} (sound : system.Sound)
    (missed : ¬ Keeps smp system (.semaphoreCreate executing arguments)) :
    rtemsSemaphoreCreate smp system executing arguments = none := by
  simp only [Keeps, not_forall] at missed
  obtain ⟨variant, container, check, found, missed⟩ := missed
  rcases @sound_record system .semaphore _ container sound found with
    cleared | ⟨count, array, record⟩
  · exact rtemsSemaphoreCreate_zeroed check found cleared
  have built : (container.info .semaphore).initialObjects.isSome := by
    rw [record.shaped.initial]
    rfl
  obtain ⟨semaphore, missed⟩ := not_forall.mp (not_and.mp missed built)
  obtain ⟨first, missed⟩ := Classical.not_imp.mp missed
  obtain ⟨accepted, beyond⟩ := Classical.not_imp.mp missed
  obtain ⟨rest, chain⟩ := List.head?_eq_some_iff.mp (Option.mem_def.mp first)
  obtain ⟨control, initialized⟩ := IssuedIpc.isOk_iff.mp accepted
  have own := record.shaped.chain_own semaphore (by rw [chain]; exact .head _)
  rw [rtemsSemaphoreCreate_opened check record chain initialized]
  cases opening : system.semaphoreInformation.objectsOpenU32 system.objects semaphore
      arguments.name with
  | none => rfl
  | some opened =>
    exact absurd ((IssuedIpc.index_le_iff_opens arguments.name record own).mpr ⟨_, opening⟩) beyond

theorem semaphoreDelete_none (sound : system.Sound)
    (missed : ¬ Keeps smp system (.semaphoreDelete executing id)) :
    rtemsSemaphoreDelete system executing id = none := by
  simp only [Keeps, not_forall] at missed
  obtain ⟨semaphore, container, got, unlocked, found, missed⟩ := missed
  obtain ⟨-, count, array, record, own⟩ := record_of_get sound found got
  rw [rtemsSemaphoreDelete_closed record got unlocked]
  cases closing : system.semaphoreInformation.objectsClose system.objects semaphore with
  | none => rfl
  | some closed =>
    have bound := (index_le_iff_closes (record_index_minimum record own)).mpr ⟨_, closing⟩
    have inactive := Classical.not_not.mp (not_and.mp missed bound)
    rw [Option.bind_some, if_pos inactive]

/-- A call works if and only if it finds what it needs in the pools. -/
theorem Sound.works_iff (sound : state.Sound) (wellFormed : call.WellFormed state.system) :
    Works smp state call ↔ Keeps smp state.system call := by
  constructor
  · intro works
    have performs := works.performs
    by_contra missed
    cases call with
    | containerCreate address queueMemory semaphoreMemory listNode =>
      obtain ⟨isCreated, incomplete⟩ := Classical.not_imp.mp missed
      rcases works.returned address queueMemory semaphoreMemory listNode _ rfl rfl with
        ⟨rfl, -⟩ | ⟨created, container, rfl, found, full⟩
      · cases isCreated
      · exact incomplete (complete_of_fullPool wellFormed.2 found full)
    | semaphoreCreate executing arguments =>
      rw [IpcCall.perform, semaphoreCreate_none sound.sound missed] at performs
      cases performs
    | semaphoreDelete executing id =>
      rw [IpcCall.perform, semaphoreDelete_none sound.sound missed] at performs
      cases performs
    | queueCreate executing name count maxMessageSize id workspace =>
      rw [IpcCall.perform, rtemsMessageQueueCreate,
        QueueTable.messageQueueCreate_missed sound.sound missed] at performs
      cases performs
    | queueConstruct executing config id =>
      cases config with
      | none => exact missed trivial
      | some config =>
        rw [IpcCall.perform, rtemsMessageQueueConstruct,
          QueueTable.messageQueueCreate_missed sound.sound missed] at performs
        cases performs
    | queueDelete executing id =>
      rw [IpcCall.perform, @IpcIsolation.queueDelete_none smp state.system executing id
        sound.sound missed] at performs
      cases performs
    | _ => exact missed trivial
  · intro keeps
    obtain ⟨next, performed, -⟩ := sound.performs wellFormed keeps
    refine ⟨by rw [performed]; rfl, ?_, ?_⟩
    · rintro address queueMemory semaphoreMemory listNode after rfl performed
      cases performed
      exact Sound.returned wellFormed keeps
    · intro executing kind result creating away admissible
      exact sound.succeeds wellFormed keeps creating away admissible

theorem working_iff (sounds : Sounds before) (promised : Promised before call) :
    Working smp before call ↔ Kept smp before call := by
  cases before with
  | none => exact sounds.elim
  | some state =>
    rw [Working, Sound.works_iff sounds (promised state rfl)]
    constructor
    · rintro keeps _ ⟨⟩
      exact keeps
    · intro kept
      exact kept state rfl

end Step

end IpcPools

open IpcPools

section

variable (smp : Bool) (root : Nat) {queueMemory semaphoreMemory : InfoMemory}
  (apart : ∀ array, queueMemory.objects = some array → semaphoreMemory.objects ≠ some array)
  (messageQueueInformation semaphoreInformation : ObjectsInformation) (objects : ObjectsMemory)
  (semaphores : ObjectAddress → SemaphoreControl)
include apart

theorem IpcPools.initial_sounds :
    Sounds (some ⟨IpcSystem.rtemsIpcContainerInitializeRoot root queueMemory semaphoreMemory
      messageQueueInformation semaphoreInformation objects semaphores, fun _ _ => []⟩) := by
  refine ⟨IpcSystem.initializeRoot_sound root messageQueueInformation semaphoreInformation objects
    semaphores apart, ?_⟩
  intro address container kind away found
  simp only [IpcSystem.rtemsIpcContainerInitializeRoot] at away found
  rw [update_of_ne away] at found
  cases found

/-- From any root container, every call of a run works if and only if all
allocations for every container succeed, creates find allocated records, and the
block of every object that is created as a semaphore or deleted is within the
global record and is not inactive when it is deleted. -/
theorem ipcRun_works_iff (calls : List IpcCall)
    (promised : Meets (step smp) Promised
      (some ⟨IpcSystem.rtemsIpcContainerInitializeRoot root queueMemory semaphoreMemory
        messageQueueInformation semaphoreInformation objects semaphores, fun _ _ => []⟩) calls) :
    Meets (step smp) (Working smp)
        (some ⟨IpcSystem.rtemsIpcContainerInitializeRoot root queueMemory semaphoreMemory
          messageQueueInformation semaphoreInformation objects semaphores, fun _ _ => []⟩) calls ↔
      Meets (step smp) (Kept smp)
        (some ⟨IpcSystem.rtemsIpcContainerInitializeRoot root queueMemory semaphoreMemory
          messageQueueInformation semaphoreInformation objects semaphores, fun _ _ => []⟩) calls :=
  meets_iff_meets Sounds
    (initial_sounds root apart messageQueueInformation semaphoreInformation objects semaphores)
    promised (fun _ _ sounds promised kept => sounds_step sounds promised kept)
    (fun _ _ sounds promised => working_iff sounds promised)

end

/-- A container beside the root, and objects of both classes in it. -/
def objectsOfSecond : List IpcCall :=
  [createSecond, .queueCreate secondThread 1 4 8 true fun _ => true,
    .semaphoreCreate secondThread ⟨1, 1, rtemsCountingSemaphore, 0, true⟩]

theorem objectsOfSecond_works :
    Meets (step false) (Working false) (some ⟨configuredIpcSystem, fun _ _ => []⟩)
      objectsOfSecond := by
  refine (ipcRun_works_iff false 0 configuredIpcSystem_apart _ _ _ _ _ ?_).mpr ?_
  · refine ⟨?_, ?_, ?_, trivial⟩
    · rintro _ ⟨⟩
      exact createSecond_promised _ rfl
    · rintro _ ⟨⟩ _ ⟨⟩
      rfl
    · rintro _ ⟨⟩ _ ⟨⟩
      rfl
  · refine ⟨?_, ?_, ?_, trivial⟩
    · rintro _ ⟨⟩ -
      exact ⟨⟨rfl, rfl⟩, rfl, rfl⟩
    · rintro _ ⟨⟩ - _ ⟨⟩
      rfl
    · rintro _ ⟨⟩ _ _ - ⟨⟩
      refine ⟨rfl, ?_⟩
      rintro _ ⟨⟩ -
      decide +kernel

/-- `malloc()` refuses the semaphores of a container, which is returned
nevertheless, with no semaphore on its chain. -/
theorem containerWithoutSemaphores_returned :
    let call : IpcCall := .containerCreate (some 1) ⟨some 3, true⟩ ⟨none, true⟩ true
    Promised (some ⟨configuredIpcSystem, fun _ _ => []⟩) call ∧
      ¬ Working false (some ⟨configuredIpcSystem, fun _ _ => []⟩) call := by
  refine ⟨?_, ?_⟩
  · rintro _ ⟨⟩
    refine ⟨?_, ?_, ?_, ?_⟩
    · rintro _ ⟨⟩
      rfl
    · rintro _ ⟨⟩
      exact configuredIpcSystem_arrayFree (by decide) (by decide)
    · rintro _ ⟨⟩
    · rintro _ ⟨⟩ ⟨⟩
  · intro works
    rcases works.returned _ _ _ _ _ rfl rfl with ⟨missing, -⟩ | ⟨created, container, same, found, full⟩
    · cases missing
    · cases same
      cases found
      have length := (full .semaphore).2.length_eq
      cases length

end RTContainer.Rtems
