import RTContainer.Rtems.IpcRuns

/-! The message queue tables of the IPC containers. A control block is never
both on the `Inactive` chain of its record and in the table, and a successful
`rtems_message_queue_delete` takes its identifier out of the table of the
container and out of no other table. -/

set_option autoImplicit false

namespace RTContainer.Rtems

open RTContainer.Score RTContainer.Score.ObjectsInformation Machine

namespace QueueTable

/-- No block of a live container is both inactive and in the table. -/
def Exclusive : Option IpcSystem → Prop
  | none => False
  | some system => ∀ address container, system.containers address = some container →
      ∀ queue ∈ (container.info .messageQueue).inactiveChain,
        some queue ∉ (container.info .messageQueue).localTable

/-- A successful delete makes its identifier unresolvable in the container, and
every identifier that another table resolves stays resolvable there. -/
def DeletesCleanly (state : Option IpcSystem) : IpcCall → Prop
  | .queueDelete executing id =>
    ∀ system next, state = some system →
      rtemsMessageQueueDelete system executing id = some (next, .successful) →
        messageQueueGet next executing id = none ∧
        (∀ address container other queue, address ≠ executing.ipcContainer →
          system.containers address = some container →
            (container.info .messageQueue).objectsGet other = some queue →
              ∃ nextContainer, next.containers address = some nextContainer ∧
                (nextContainer.info .messageQueue).objectsGet other = some queue) ∧
        ∀ other queue, system.messageQueueInformation.objectsGet other = some queue →
          next.messageQueueInformation.objectsGet other = some queue
  | _ => True

def QueueCall : IpcCall → Prop
  | .containerCreate .. | .containerDelete .. | .queueCreate .. | .queueConstruct ..
  | .queueDelete .. => True
  | _ => False

/-- What is promised of a queue run. -/
def Promised (state : Option IpcSystem) (call : IpcCall) : Prop :=
  QueueCall call ∧ IpcCall.Promised state call

def Allocated (system : IpcSystem) (executing : Executing) : Prop :=
  ∀ container, system.containers executing.ipcContainer = some container →
    (container.info .messageQueue).initialObjects.isSome

/-- The calls that keep the tables: a create that passes its checks finds an
allocated record, and a delete does not find its identifier. -/
def Keeps (system : IpcSystem) : IpcCall → Prop
  | .queueCreate executing name count maxMessageSize id _ =>
    messageQueueCheck ⟨name, count, maxMessageSize, false, 0⟩ id = .ok () →
      Allocated system executing
  | .queueConstruct executing (some config) id =>
    messageQueueCheck config id = .ok () → Allocated system executing
  | .queueDelete executing id => messageQueueGet system executing id = none
  | _ => True

def Kept (state : Option IpcSystem) (call : IpcCall) : Prop :=
  ∀ system, state = some system → Keeps system call

/-- The invariant behind `Exclusive`. -/
structure Tidy (system : IpcSystem) : Prop where
  sound : system.Sound
  consistent : system.KindConsistent .messageQueue

def Tidied : Option IpcSystem → Prop
  | none => False
  | some system => Tidy system

section

variable {smp : Bool} {system next : IpcSystem} {executing : Executing} {container : IpcContainer}

private theorem consistent_exclusive {information : ObjectsInformation} {memory : ObjectsMemory}
    {cls node count array : Nat} {queue : ObjectAddress}
    (consistent : Consistent information memory cls node count array)
    (inactive : queue ∈ information.inactiveChain) : some queue ∉ information.localTable := by
  intro entered
  obtain ⟨position, slot⟩ := List.mem_iff_getElem?.mp entered
  obtain ⟨rfl, inside⟩ := consistent.slots_own position queue slot
  rw [(consistent.slots position inside).mpr inactive] at slot
  cases slot

variable {state : Option IpcSystem} {config : MessageQueueConfig} {id : Bool} {call : IpcCall}

theorem Tidied.exclusive (tidied : Tidied state) : Exclusive state := by
  cases state with
  | none => exact tidied
  | some system =>
    intro address container found queue inactive
    rcases tidied.consistent address container found with cleared | ⟨count, array, consistent⟩
    · rw [cleared] at inactive
      cases inactive
    · exact consistent_exclusive consistent inactive

theorem Tidy.created (allocateBuffers : Nat → Bool) (tidy : Tidy system)
    (live : (system.containers executing.ipcContainer).isSome)
    (allocated : messageQueueCheck config id = .ok () → Allocated system executing) :
    ∃ next result, messageQueueCreate system executing config id allocateBuffers =
      some (next, result) ∧ Tidy next := by
  obtain ⟨container, found⟩ := Option.isSome_iff_exists.mp live
  have tidied : ∀ next result, messageQueueCreate system executing config id allocateBuffers =
      some (next, result) → next.KindConsistent .messageQueue →
        ∃ next result, messageQueueCreate system executing config id allocateBuffers =
          some (next, result) ∧ Tidy next := by
    intro next result performed consistent
    exact ⟨next, result, performed, messageQueueCreate_sound tidy.sound live performed, consistent⟩
  cases check : messageQueueCheck config id with
  | error status => exact tidied _ _ (messageQueueCreate_refused check) tidy.consistent
  | ok done =>
    rcases consistent_record tidy.sound tidy.consistent found with
      cleared | ⟨count, array, record, consistent⟩
    · have built := allocated check container found
      rw [cleared] at built
      cases built
    cases chain : (container.info .messageQueue).inactiveChain with
    | nil => exact tidied _ _ (messageQueueCreate_exhausted check record chain) tidy.consistent
    | cons queue rest =>
      cases initialized : coreMessageQueueInitialize config.maximumPendingMessages
          config.maximumMessageSize allocateBuffers with
      | error status =>
        refine tidied _ _ (messageQueueCreate_failed check record chain initialized) ?_
        exact tidy.consistent.replace (IpcSystem.setInfo_containers found) (fun _ => rfl)
          (consistent.rotate chain rfl rfl rfl rfl)
      | ok done =>
        refine tidied _ _ (messageQueueCreate_opened check record chain initialized) ?_
        refine tidy.consistent.replace (IpcSystem.setInfo_containers found) ?_
          (consistent.activate chain rfl rfl rfl rfl)
        intro object
        by_cases same : object = queue
        · simp [IpcSystem.setInfo, same]
        · simp [IpcSystem.setInfo, same]

theorem tidied_step (tidied : Tidied state) (promised : Promised state call)
    (kept : Kept state call) : Tidied (IpcCall.step smp state call) := by
  cases state with
  | none => cases tidied
  | some system =>
    have wellFormed := promised.2 system rfl
    have keeps := kept system rfl
    cases call with
    | containerCreate address queueMemory semaphoreMemory listNode =>
      exact ⟨tidied.sound.create wellFormed.2, tidied.consistent.create wellFormed.2⟩
    | containerDelete deleted => exact ⟨tidied.sound.delete, tidied.consistent.delete⟩
    | queueCreate executing name count maxMessageSize id workspace =>
      obtain ⟨next, result, performed, tidy⟩ :=
        Tidy.created workspace tidied (wellFormed executing rfl) keeps
      have stepped : IpcCall.step smp (some system)
          (.queueCreate executing name count maxMessageSize id workspace) = some next := by
        simp [IpcCall.step, IpcCall.perform, rtemsMessageQueueCreate, performed]
      rw [stepped]
      exact tidy
    | queueConstruct executing config id =>
      cases config with
      | none => exact tidied
      | some config =>
        obtain ⟨next, result, performed, tidy⟩ :=
          Tidy.created (messageQueueGetBuffers config) tidied (wellFormed executing rfl) keeps
        have stepped : IpcCall.step smp (some system)
            (.queueConstruct executing (some config) id) = some next := by
          simp [IpcCall.step, IpcCall.perform, rtemsMessageQueueConstruct, performed]
        rw [stepped]
        exact tidy
    | queueDelete executing id =>
      have stepped : IpcCall.step smp (some system) (.queueDelete executing id) =
          some system := by
        simp [IpcCall.step, IpcCall.perform, rtemsMessageQueueDelete_missed keeps]
      rw [stepped]
      exact tidied
    | _ => exact promised.1.elim

theorem messageQueueCreate_missed {allocateBuffers : Nat → Bool} (sound : system.Sound)
    (missed : ¬ (messageQueueCheck config id = .ok () → Allocated system executing)) :
    messageQueueCreate system executing config id allocateBuffers = none := by
  obtain ⟨check, missed⟩ := Classical.not_imp.mp missed
  obtain ⟨container, missed⟩ := not_forall.mp missed
  obtain ⟨found, unbuilt⟩ := Classical.not_imp.mp missed
  rcases sound_record sound found with cleared | ⟨count, array, record⟩
  · exact messageQueueCreate_zeroed check found cleared
  · rw [record.shaped.initial] at unbuilt
    exact absurd rfl unbuilt

theorem queueDelete_missed {id : ObjectsId} (tidy : Tidy system)
    (live : (system.containers executing.ipcContainer).isSome)
    (missed : messageQueueGet system executing id ≠ none) :
    ¬ Exclusive (IpcCall.step smp (some system) (.queueDelete executing id)) := by
  obtain ⟨container, found⟩ := Option.isSome_iff_exists.mp live
  obtain ⟨queue, got⟩ := Option.ne_none_iff_exists'.mp missed
  have reached := got
  simp only [messageQueueGet, IpcSystem.informationOf, found, Option.map_some,
    Option.bind_some] at reached
  rcases consistent_record tidy.sound tidy.consistent found with
    cleared | ⟨count, array, record, consistent⟩
  · rw [cleared, zeroed_objectsGet] at reached
    cases reached
  obtain ⟨-, -, slot⟩ := record.shaped.objectsGet_eq_some.mp reached
  obtain ⟨-, -, off⟩ := consistent.objectsGet_eq_some.mp reached
  have performed := rtemsMessageQueueDelete_closed record got
  simp only [IpcCall.step, IpcCall.perform, Option.bind_some, performed]
  cases system.messageQueueInformation.objectsClose system.objects queue with
  | none => exact not_false
  | some closed =>
    rw [Option.bind_some, if_neg off]
    intro exclusive
    refine exclusive executing.ipcContainer (container.setInfo .messageQueue _)
      (by simp [IpcSystem.setInfo, found]; rfl) queue ?_ ?_
    · rw [IpcContainer.setInfo_same]
      exact List.mem_append_right _ List.mem_cons_self
    · rw [IpcContainer.setInfo_same]
      exact List.mem_of_getElem? slot

theorem exclusive_missed (tidied : Tidied state) (promised : Promised state call)
    (missed : ¬ Kept state call) : ¬ Exclusive (IpcCall.step smp state call) := by
  cases state with
  | none => exact tidied.elim
  | some system =>
    have missed : ¬ Keeps system call := by
      intro keeps
      exact missed fun other same => Option.some.inj same ▸ keeps
    have wellFormed := promised.2 system rfl
    cases call with
    | queueCreate executing name count maxMessageSize id workspace =>
      simp [IpcCall.step, IpcCall.perform, rtemsMessageQueueCreate,
        messageQueueCreate_missed tidied.sound missed, Exclusive]
    | queueConstruct executing config id =>
      cases config with
      | none => exact absurd trivial missed
      | some config =>
        simp [IpcCall.step, IpcCall.perform, rtemsMessageQueueConstruct,
          messageQueueCreate_missed tidied.sound missed, Exclusive]
    | queueDelete executing id =>
      exact queueDelete_missed tidied (wellFormed executing rfl) missed
    | _ => exact absurd trivial missed

theorem Kept.deletesCleanly (kept : Kept state call) : DeletesCleanly state call := by
  cases call with
  | queueDelete executing id =>
    intro system next found performed
    rw [rtemsMessageQueueDelete_missed (kept system found)] at performed
    cases performed
  | _ => trivial

end

end QueueTable

open QueueTable

section

variable (smp : Bool) (root : Nat) {queueMemory semaphoreMemory : InfoMemory}
  (apart : ∀ array, queueMemory.objects = some array → semaphoreMemory.objects ≠ some array)
  (messageQueueInformation semaphoreInformation : ObjectsInformation) (objects : ObjectsMemory)
  (semaphores : ObjectAddress → SemaphoreControl)
include apart

theorem QueueTable.initial_tidied :
    Tidied (some (IpcSystem.rtemsIpcContainerInitializeRoot root queueMemory semaphoreMemory
      messageQueueInformation semaphoreInformation objects semaphores)) :=
  ⟨IpcSystem.initializeRoot_sound root messageQueueInformation semaphoreInformation objects
    semaphores apart, IpcSystem.initializeRoot_consistent root messageQueueInformation
    semaphoreInformation objects semaphores apart .messageQueue⟩

/-- A queue run keeps every block out of the table while it is inactive, and all
its successful deletes are clean, if and only if every create that passes its
checks finds an allocated record and no delete finds its identifier. -/
theorem queueRun_exclusive_iff (calls : List IpcCall)
    (promised : Meets (IpcCall.step smp) QueueTable.Promised
      (some (IpcSystem.rtemsIpcContainerInitializeRoot root queueMemory semaphoreMemory
        messageQueueInformation semaphoreInformation objects semaphores)) calls) :
    (Throughout (IpcCall.step smp) Exclusive
        (some (IpcSystem.rtemsIpcContainerInitializeRoot root queueMemory semaphoreMemory
          messageQueueInformation semaphoreInformation objects semaphores)) calls ∧
      Meets (IpcCall.step smp) DeletesCleanly
        (some (IpcSystem.rtemsIpcContainerInitializeRoot root queueMemory semaphoreMemory
          messageQueueInformation semaphoreInformation objects semaphores)) calls) ↔
      Meets (IpcCall.step smp) QueueTable.Kept
        (some (IpcSystem.rtemsIpcContainerInitializeRoot root queueMemory semaphoreMemory
          messageQueueInformation semaphoreInformation objects semaphores)) calls := by
  have exclusive := throughout_iff_meets Tidied
    (initial_tidied root apart messageQueueInformation semaphoreInformation objects semaphores)
    promised (fun _ _ tidied promised kept => tidied_step tidied promised kept)
    (fun _ tidied => tidied.exclusive)
    (fun _ _ tidied promised missed => exclusive_missed tidied promised missed)
  constructor
  · rintro ⟨always, -⟩
    exact exclusive.mp always
  · intro kept
    exact ⟨exclusive.mpr kept, kept.imp fun _ _ kept => kept.deletesCleanly⟩

end

/-- `rtems_message_queue_create` of four messages of eight bytes by a thread of
the root container. -/
def createQueue (name : BitVec 32) : IpcCall :=
  .queueCreate rootThread name 4 8 true fun _ => true

/-- Two message queues of the root container that stay live. -/
theorem twoQueues_exclusive :
    Throughout (IpcCall.step false) Exclusive (some configuredIpcSystem)
        [createQueue 1, createQueue 2] ∧
      Meets (IpcCall.step false) DeletesCleanly (some configuredIpcSystem)
        [createQueue 1, createQueue 2] := by
  refine (queueRun_exclusive_iff false 0 configuredIpcSystem_apart _ _ _ _ _ ?_).mpr ?_
  · refine ⟨⟨trivial, ?_⟩, ⟨trivial, ?_⟩, trivial⟩
    · rintro _ ⟨⟩ _ ⟨⟩
      rfl
    · rintro _ ⟨⟩ _ ⟨⟩
      rfl
  · refine ⟨?_, ?_, trivial⟩
    · rintro _ ⟨⟩ - _ ⟨⟩
      rfl
    · rintro _ ⟨⟩ - _ ⟨⟩
      rfl

/-- The identifier of the first message queue of the root container. -/
def firstQueueId : ObjectsId :=
  objectsBuildId objectsClassicApi objectsRtemsMessageQueues 1 1

/-- A message queue that is deleted stays in the table of its container, and its
identifier still resolves. -/
theorem deletedQueue_resolves :
    Meets (IpcCall.step false) QueueTable.Promised (some configuredIpcSystem)
        [createQueue 1, .queueDelete rootThread firstQueueId] ∧
      ¬ Throughout (IpcCall.step false) Exclusive (some configuredIpcSystem)
        [createQueue 1, .queueDelete rootThread firstQueueId] ∧
      ¬ Meets (IpcCall.step false) DeletesCleanly (some configuredIpcSystem)
        [createQueue 1, .queueDelete rootThread firstQueueId] := by
  refine ⟨?_, ?_, ?_⟩
  · refine ⟨⟨trivial, ?_⟩, ⟨trivial, ?_⟩, trivial⟩
    · rintro _ ⟨⟩ _ ⟨⟩
      rfl
    · rintro _ ⟨⟩ _ ⟨⟩
      rfl
  · intro always
    have exclusive := always.final 0 _ rfl ⟨1, 0⟩
    revert exclusive
    decide +kernel
  · rintro ⟨-, cleanly, -⟩
    have unresolved := (cleanly _ _ rfl rfl).1
    revert unresolved
    decide +kernel

end RTContainer.Rtems
