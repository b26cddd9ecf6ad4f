import RTContainer.Lib.Run
import RTContainer.Rtems.MessageQueue

/-! Runs of the IPC containers: containers come and go, and threads of any of
them call the semaphore and message queue directives in any order. A state is
`none` once a call has written outside a table, linked a linked node or called
through a `NULL` pointer. -/

set_option autoImplicit false

namespace RTContainer.Rtems

open RTContainer.Score RTContainer.Score.ObjectsInformation Machine

inductive IpcCall where
  | containerCreate (address : Option Nat) (queueMemory semaphoreMemory : InfoMemory)
      (listNode : Bool)
  | containerDelete (container : Option Nat)
  | semaphoreCreate (executing : Executing) (arguments : SemaphoreArguments)
  | semaphoreDelete (executing : Executing) (id : ObjectsId)
  | semaphoreIdent (executing : Executing) (name : BitVec 32) (node : Nat)
  | semaphoreGet (executing : Executing) (id : ObjectsId)
  | queueCreate (executing : Executing) (name : BitVec 32) (count maxMessageSize : Nat) (id : Bool)
      (workspace : Nat → Bool)
  | queueConstruct (executing : Executing) (config : Option MessageQueueConfig) (id : Bool)
  | queueDelete (executing : Executing) (id : ObjectsId)
  | queueIdent (executing : Executing) (name : BitVec 32) (node : Nat)
  | queueGet (executing : Executing) (id : ObjectsId)

namespace IpcCall

def perform (smp : Bool) (system : IpcSystem) : IpcCall → Option IpcSystem
  | .containerCreate address queueMemory semaphoreMemory listNode =>
    some (system.rtemsIpcContainerCreate address queueMemory semaphoreMemory listNode)
  | .containerDelete container => some (system.rtemsIpcContainerDelete container)
  | .semaphoreCreate executing arguments =>
    (rtemsSemaphoreCreate smp system executing arguments).map Prod.fst
  | .semaphoreDelete executing id => (rtemsSemaphoreDelete system executing id).map Prod.fst
  | .queueCreate executing name count maxMessageSize id workspace =>
    (rtemsMessageQueueCreate system executing name count maxMessageSize id workspace).map Prod.fst
  | .queueConstruct executing config id =>
    (rtemsMessageQueueConstruct system executing config id).map Prod.fst
  | .queueDelete executing id => (rtemsMessageQueueDelete system executing id).map Prod.fst
  | .semaphoreIdent .. | .semaphoreGet .. | .queueIdent .. | .queueGet .. => some system

def step (smp : Bool) (state : Option IpcSystem) (call : IpcCall) : Option IpcSystem :=
  state.bind fun system => call.perform smp system

/-- The thread that makes a call. -/
def executing : IpcCall → Option Executing
  | .containerCreate .. | .containerDelete .. => none
  | .semaphoreCreate executing _ | .semaphoreDelete executing _ | .semaphoreIdent executing _ _
  | .semaphoreGet executing _ | .queueCreate executing _ _ _ _ _ | .queueConstruct executing _ _
  | .queueDelete executing _ | .queueIdent executing _ _ | .queueGet executing _ => some executing

/-- What the environment promises of a call: `malloc()` returns memory that is
not in use, a container that is deleted is live, and so is the container of the
executing thread. -/
def WellFormed (system : IpcSystem) : IpcCall → Prop
  | .containerCreate address queueMemory semaphoreMemory _ =>
    (∀ container, address = some container → system.containers container = none) ∧
      system.MemoryFresh queueMemory semaphoreMemory
  | .containerDelete container =>
    ∀ address, container = some address → (system.containers address).isSome
  | call => ∀ executing, call.executing = some executing →
      (system.containers executing.ipcContainer).isSome

/-- `WellFormed` in the state of a run; nothing is promised after an error. -/
def Promised (state : Option IpcSystem) (call : IpcCall) : Prop :=
  ∀ system, state = some system → call.WellFormed system

end IpcCall

section Sound

variable {smp : Bool} {system next : IpcSystem} {executing : Executing}

theorem sound_record {kind : IpcKind} {address : Nat} {container : IpcContainer}
    (sound : system.Sound) (found : system.containers address = some container) :
    container.info kind = .zeroed ∨
      ∃ count array, system.Record kind address container count array := by
  rcases sound.records address container kind found with
    cleared | ⟨count, array, shaped, handlers⟩
  · exact .inl cleared
  · exact .inr ⟨count, array, found, shaped, handlers⟩

theorem consistent_record {kind : IpcKind} {address : Nat} {container : IpcContainer}
    (sound : system.Sound) (consistent : system.KindConsistent kind)
    (found : system.containers address = some container) :
    container.info kind = .zeroed ∨
      ∃ count array, system.Record kind address container count array ∧
        Consistent (container.info kind) system.objects kind.cls container.containerID count
          array := by
  rcases consistent address container found with cleared | ⟨count, array, new⟩
  · exact .inl cleared
  · rcases sound.records address container kind found with cleared | ⟨-, -, -, handlers⟩
    · exact .inl cleared
    · exact .inr ⟨count, array, ⟨found, new.toShaped, handlers⟩, new⟩

theorem zeroed_objectsGet (id : ObjectsId) : zeroed.objectsGet id = none := by
  simp [objectsGet, zeroed, objectsGetIndex]

/-- An object that is found belongs to the record of its class. -/
theorem record_of_get {kind : IpcKind} {address : Nat} {container : IpcContainer} {id : ObjectsId}
    {object : ObjectAddress} (sound : system.Sound)
    (found : system.containers address = some container)
    (got : (system.informationOf kind address).bind (·.objectsGet id) = some object) :
    (container.info kind).objectsGet id = some object ∧
      ∃ count array, system.Record kind address container count array ∧
        object.array = array ∧ object.position < count := by
  have reached : (container.info kind).objectsGet id = some object := by
    simpa only [IpcSystem.informationOf, found, Option.map_some, Option.bind_some] using got
  refine ⟨reached, ?_⟩
  rcases sound_record sound found with cleared | ⟨count, array, record⟩
  · rw [cleared, zeroed_objectsGet] at reached
    cases reached
  · exact ⟨count, array, record, (record.shaped.objectsGet_eq_some.mp reached).1⟩

section

variable (sound : system.Sound)
include sound

section

variable (live : (system.containers executing.ipcContainer).isSome)
include live

variable {result : Except StatusCode ObjectsId} {id : ObjectsId} {status : StatusCode}

theorem semaphoreCreate_sound {arguments : SemaphoreArguments}
    (performed : rtemsSemaphoreCreate smp system executing arguments = some (next, result)) :
    next.Sound := by
  obtain ⟨container, found⟩ := Option.isSome_iff_exists.mp live
  cases check : semaphoreCheck smp arguments with
  | error status =>
    rw [rtemsSemaphoreCreate_refused check] at performed
    cases performed
    exact sound
  | ok variant =>
    rcases sound_record sound found with cleared | ⟨count, array, record⟩
    · rw [rtemsSemaphoreCreate_zeroed check found cleared] at performed
      cases performed
    cases chain : (container.info .semaphore).inactiveChain with
    | nil =>
      rw [rtemsSemaphoreCreate_exhausted check record chain] at performed
      cases performed
      exact sound
    | cons semaphore rest =>
      have enteredShaped := semaphoreEntered_shaped record.shaped chain
      have own := record.shaped.chain_own semaphore (by rw [chain]; exact List.mem_cons_self)
      have nodup := record.shaped.chain_nodup
      rw [chain] at nodup
      cases initialized : semaphoreInitialize executing variant arguments.count
          arguments.priorityCeiling with
      | error status =>
        rw [rtemsSemaphoreCreate_failed check record chain initialized] at performed
        cases performed
        have off : semaphore ∉ (semaphoreEntered (container.info .semaphore) semaphore
          rest).inactiveChain := (List.nodup_cons.mp nodup).1
        exact sound.replace found (IpcSystem.setInfo_containers found) (fun _ => rfl) rfl
          (.inr ⟨count, array, semaphoreReleased_shaped enteredShaped own off, record.handlers⟩)
      | ok control =>
        rw [rtemsSemaphoreCreate_opened check record chain initialized,
          Option.map_eq_some_iff] at performed
        obtain ⟨⟨opened, objects⟩, opening, same⟩ := performed
        cases same
        exact sound.replace found (IpcSystem.setInfo_containers found)
          (objectsOpenU32_ids opening) rfl
          (.inr ⟨count, array, enteredShaped, record.handlers⟩)

private theorem semaphoreDelete_sound
    (performed : rtemsSemaphoreDelete system executing id = some (next, status)) : next.Sound := by
  obtain ⟨container, found⟩ := Option.isSome_iff_exists.mp live
  by_cases refused : ∀ semaphore, semaphoreGet system executing id = some semaphore →
      SemaphoreControl.inUse (system.semaphores semaphore) = true
  · obtain ⟨code, -, same⟩ := rtemsSemaphoreDelete_refused refused
    rw [same] at performed
    cases performed
    exact sound
  · obtain ⟨semaphore, accepted⟩ := not_forall.mp refused
    obtain ⟨got, idle⟩ := Classical.not_imp.mp accepted
    obtain ⟨-, count, array, record, own⟩ := record_of_get sound found got
    rw [rtemsSemaphoreDelete_closed record got (by simpa using idle),
      Option.bind_eq_some_iff] at performed
    obtain ⟨⟨closed, objects⟩, closing, performed⟩ := performed
    split at performed
    · cases performed
    next off =>
      cases performed
      exact sound.replace found (IpcSystem.setInfo_containers found) (objectsClose_ids closing)
        rfl (.inr ⟨count, array, semaphoreReleased_shaped record.shaped own off, record.handlers⟩)

theorem messageQueueCreate_sound {config : MessageQueueConfig} {id : Bool}
    {allocateBuffers : Nat → Bool}
    (performed : messageQueueCreate system executing config id allocateBuffers =
      some (next, result)) : next.Sound := by
  obtain ⟨container, found⟩ := Option.isSome_iff_exists.mp live
  cases check : messageQueueCheck config id with
  | error status =>
    rw [messageQueueCreate_refused check] at performed
    cases performed
    exact sound
  | ok done =>
    rcases sound_record sound found with cleared | ⟨count, array, record⟩
    · rw [messageQueueCreate_zeroed check found cleared] at performed
      cases performed
    cases chain : (container.info .messageQueue).inactiveChain with
    | nil =>
      rw [messageQueueCreate_exhausted check record chain] at performed
      cases performed
      exact sound
    | cons queue rest =>
      have own := record.shaped.chain_own queue (by rw [chain]; exact List.mem_cons_self)
      have restOwn : ∀ object ∈ rest, object.array = array ∧ object.position < count :=
        fun object member =>
          record.shaped.chain_own object (by rw [chain]; exact .tail _ member)
      have nodup := record.shaped.chain_nodup
      rw [chain] at nodup
      cases initialized : coreMessageQueueInitialize config.maximumPendingMessages
          config.maximumMessageSize allocateBuffers with
      | error status =>
        rw [messageQueueCreate_failed check record chain initialized] at performed
        cases performed
        refine sound.replace found (IpcSystem.setInfo_containers found) (fun _ => rfl) rfl
          (.inr ⟨count, array, ?_, record.handlers⟩)
        refine record.shaped.replace rfl rfl rfl
          ((List.perm_append_singleton queue rest).nodup_iff.mpr nodup) ?_
          record.shaped.slots_own
        intro object member
        rcases List.mem_append.mp member with member | member
        · exact restOwn object member
        · rw [List.mem_singleton.mp member]
          exact own
      | ok done =>
        rw [messageQueueCreate_opened check record chain initialized] at performed
        cases performed
        refine sound.replace found (IpcSystem.setInfo_containers found) ?_ rfl
          (.inr ⟨count, array, ?_, record.handlers⟩)
        · intro object
          by_cases same : object = queue
          · simp [IpcSystem.setInfo, same]
          · simp [IpcSystem.setInfo, same]
        · exact record.shaped.replace rfl rfl (List.length_set ..) (List.nodup_cons.mp nodup).2
            restOwn (record.shaped.slots_set_some own)

theorem messageQueueDelete_sound
    (performed : rtemsMessageQueueDelete system executing id = some (next, status)) :
    next.Sound := by
  obtain ⟨container, found⟩ := Option.isSome_iff_exists.mp live
  cases got : messageQueueGet system executing id with
  | none =>
    rw [rtemsMessageQueueDelete_missed got] at performed
    cases performed
    exact sound
  | some queue =>
    obtain ⟨-, count, array, record, own⟩ := record_of_get sound found got
    rw [rtemsMessageQueueDelete_closed record got, Option.bind_eq_some_iff] at performed
    obtain ⟨⟨closed, objects⟩, closing, performed⟩ := performed
    split at performed
    · cases performed
    next off =>
      cases performed
      refine sound.replace found (IpcSystem.setInfo_containers found)
        (objectsClose_ids closing) rfl (.inr ⟨count, array, ?_, record.handlers⟩)
      refine record.shaped.replace rfl rfl rfl
        ((List.perm_append_singleton queue _).nodup_iff.mpr
          (List.nodup_cons.mpr ⟨off, record.shaped.chain_nodup⟩)) ?_ record.shaped.slots_own
      intro object member
      rcases List.mem_append.mp member with member | member
      · exact record.shaped.chain_own object member
      · rw [List.mem_singleton.mp member]
        exact own

end

theorem IpcCall.perform_sound {call : IpcCall} (wellFormed : call.WellFormed system)
    (performed : call.perform smp system = some next) : next.Sound := by
  cases call with
  | containerCreate address queueMemory semaphoreMemory listNode =>
    cases performed
    exact sound.create wellFormed.2
  | containerDelete container =>
    cases performed
    exact sound.delete
  | semaphoreCreate executing arguments =>
    obtain ⟨⟨after, result⟩, made, rfl⟩ := Option.map_eq_some_iff.mp performed
    exact semaphoreCreate_sound sound (wellFormed executing rfl) made
  | semaphoreDelete executing id =>
    obtain ⟨⟨after, result⟩, made, rfl⟩ := Option.map_eq_some_iff.mp performed
    exact semaphoreDelete_sound sound (wellFormed executing rfl) made
  | queueCreate executing name count maxMessageSize id workspace =>
    obtain ⟨⟨after, result⟩, made, rfl⟩ := Option.map_eq_some_iff.mp performed
    exact messageQueueCreate_sound sound (wellFormed executing rfl) made
  | queueConstruct executing config id =>
    obtain ⟨⟨after, result⟩, made, rfl⟩ := Option.map_eq_some_iff.mp performed
    cases config with
    | none =>
      cases made
      exact sound
    | some config => exact messageQueueCreate_sound sound (wellFormed executing rfl) made
  | queueDelete executing id =>
    obtain ⟨⟨after, result⟩, made, rfl⟩ := Option.map_eq_some_iff.mp performed
    exact messageQueueDelete_sound sound (wellFormed executing rfl) made
  | semaphoreIdent | semaphoreGet | queueIdent | queueGet =>
    cases performed
    exact sound

theorem run_sound {calls : List IpcCall}
    (promised : Meets (IpcCall.step smp) IpcCall.Promised (some system) calls)
    (reached : run (IpcCall.step smp) (some system) calls = some next) : next.Sound := by
  have always : Throughout (IpcCall.step smp)
      (fun state => ∀ reached, state = some reached → reached.Sound) (some system) calls := by
    refine throughout_of_preserved ?_ ?_ promised
    · rintro _ ⟨⟩
      exact sound
    · intro state call stateSound promised after performed
      obtain ⟨before, rfl, performed⟩ := Option.bind_eq_some_iff.mp performed
      exact IpcCall.perform_sound (stateSound before rfl) (promised before rfl) performed
  exact always.final next reached

end

end Sound

/-- The root container at address 0, with global records of 10 message queues
and 20 semaphores. -/
def configuredIpcSystem : IpcSystem :=
  IpcSystem.rtemsIpcContainerInitializeRoot 0 ⟨some 1, true⟩ ⟨some 2, true⟩
    { zeroed with
      maximumId := objectsBuildId objectsClassicApi objectsRtemsMessageQueues 1 10
      localTable := List.replicate 10 none }
    { zeroed with
      maximumId := objectsBuildId objectsClassicApi objectsRtemsSemaphores 1 20
      localTable := List.replicate 20 none } (fun _ => ⟨0, 0⟩) fun _ => freedSemaphore

theorem configuredIpcSystem_apart (array : Nat) (queues : (some 1 : Option Nat) = some array) :
    (some 2 : Option Nat) ≠ some array := by
  cases queues
  decide

theorem configuredIpcSystem_containers (address : Nat) (live : address ≠ 0) :
    configuredIpcSystem.containers address = none := by
  simp [configuredIpcSystem, IpcSystem.rtemsIpcContainerInitializeRoot, live]

theorem configuredIpcSystem_arrayFree {array : Nat} (notQueues : array ≠ 1)
    (notSemaphores : array ≠ 2) : configuredIpcSystem.ArrayFree array := by
  intro address container kind found initial
  by_cases isRoot : address = 0
  · subst isRoot
    cases found
    cases kind with
    | messageQueue =>
      cases initial
      exact notQueues rfl
    | semaphore =>
      cases initial
      exact notSemaphores rfl
  · rw [configuredIpcSystem_containers address isRoot] at found
    cases found

def rootThread : Executing := ⟨0, 255, fun priority => priority, 1⟩

end RTContainer.Rtems
