import RTContainer.Rtems.QueueTable
import RTContainer.Rtems.SemaphoreTable

/-! Isolation of the IPC containers: whatever a thread of one container calls,
it changes only the records and the control blocks of that container, leaves the
two global records alone, and finds no block of another container. -/

set_option autoImplicit false

namespace RTContainer.Rtems

open RTContainer.Score RTContainer.Score.ObjectsInformation Machine Function

namespace IpcIsolation

/-- A block of an array that a record of the container at an address describes.
Only threads of that container are given such a block. -/
def Owns (system : IpcSystem) (address : Nat) (object : ObjectAddress) : Prop :=
  ∃ container kind, system.containers address = some container ∧
    (container.info kind).initialObjects = some object.array

structure Confined (system next : IpcSystem) (address : Nat) : Prop where
  containers : ∀ other, other ≠ address → next.containers other = system.containers other
  globalQueues : next.messageQueueInformation = system.messageQueueInformation
  globalSemaphores : next.semaphoreInformation = system.semaphoreInformation
  objects : ∀ object, ¬ Owns system address object → next.objects object = system.objects object
  semaphores : ∀ object, ¬ Owns system address object →
    next.semaphores object = system.semaphores object

def finds (system : IpcSystem) : IpcCall → Option ObjectAddress
  | .semaphoreDelete executing id | .semaphoreGet executing id => semaphoreGet system executing id
  | .queueDelete executing id | .queueGet executing id => messageQueueGet system executing id
  | .semaphoreIdent _ name node => rtemsSemaphoreIdent system name node
  | .queueIdent executing name node => rtemsMessageQueueIdent system executing name node
  | _ => none

/-- A call of a thread has a result, is confined to the container of the thread
and finds only its blocks. -/
def Isolated (smp : Bool) (state : Option IpcSystem) (call : IpcCall) : Prop :=
  ∀ system executing, state = some system → call.executing = some executing →
    (∃ next, call.perform smp system = some next ∧ Confined system next executing.ipcContainer) ∧
      ∀ object, finds system call = some object → Owns system executing.ipcContainer object

/-- A record as the application configuration defines it: one empty slot for
every index. -/
def Configured (information : ObjectsInformation) : Prop :=
  information.localTable = List.replicate information.objectsGetMaximumIndex none

/-- The calls that stay in their container. No semaphore is created and none is
deleted; message queues are created in allocated records, and deleted once, at
an index that exists in the global record. -/
def Keeps (smp : Bool) (system : IpcSystem) : IpcCall → Prop
  | .semaphoreCreate executing arguments =>
    ∀ variant container, semaphoreCheck smp arguments = .ok variant →
      system.containers executing.ipcContainer = some container →
        (container.info .semaphore).initialObjects.isSome ∧
          ((container.info .semaphore).inactiveChain ≠ [] →
            ¬ (semaphoreInitialize executing variant arguments.count
              arguments.priorityCeiling).isOk)
  | .semaphoreDelete executing id =>
    ∀ semaphore, semaphoreGet system executing id = some semaphore →
      SemaphoreControl.inUse (system.semaphores semaphore) = true
  | .queueDelete executing id =>
    ∀ queue container, messageQueueGet system executing id = some queue →
      system.containers executing.ipcContainer = some container →
        objectsGetIndex (system.objects queue).id ≤
            system.messageQueueInformation.objectsGetMaximumIndex ∧
          queue ∉ (container.info .messageQueue).inactiveChain
  | call => QueueTable.Keeps system call

def Kept (smp : Bool) (state : Option IpcSystem) (call : IpcCall) : Prop :=
  ∀ system, state = some system → Keeps smp system call

/-- The invariant of the runs that stay in their containers: the global tables
are empty, and a semaphore that is in the table of its container is inactive. -/
structure Separate (system : IpcSystem) : Prop where
  sound : system.Sound
  queues : Configured system.messageQueueInformation
  semaphores : Configured system.semaphoreInformation
  inactive : ∀ address container semaphore, system.containers address = some container →
    some semaphore ∈ (container.info .semaphore).localTable →
      semaphore ∈ (container.info .semaphore).inactiveChain

def Separated : Option IpcSystem → Prop
  | none => False
  | some system => Separate system

section

variable {smp : Bool} {system next : IpcSystem} {executing : Executing} {container : IpcContainer}
variable {address count array : Nat}

theorem Confined.refl (system : IpcSystem) (address : Nat) : Confined system system address :=
  ⟨fun _ _ => rfl, rfl, rfl, fun _ _ => rfl, fun _ _ => rfl⟩

variable {block object semaphore : ObjectAddress} {kind : IpcKind}
variable {information : ObjectsInformation} {memory : ObjectsMemory} {name : BitVec 32}
variable {id : ObjectsId} {node : Nat} {call : IpcCall} {arguments : SemaphoreArguments}
variable {state : Option IpcSystem}

theorem confined_of_block {changed : Option IpcContainer}
    (containersEq : next.containers = update system.containers address changed)
    (globalQueues : next.messageQueueInformation = system.messageQueueInformation)
    (globalSemaphores : next.semaphoreInformation = system.semaphoreInformation)
    (objects : ∀ object, object ≠ block → next.objects object = system.objects object)
    (semaphores : ∀ object, object ≠ block → next.semaphores object = system.semaphores object)
    (owned : Owns system address block) : Confined system next address := by
  have different : ∀ object, ¬ Owns system address object → object ≠ block := by
    rintro object unowned rfl
    exact unowned owned
  refine ⟨?_, globalQueues, globalSemaphores, ?_, ?_⟩
  · intro other away
    rw [containersEq, update_of_ne away]
  · intro object unowned
    exact objects object (different object unowned)
  · intro object unowned
    exact semaphores object (different object unowned)

theorem record_owns (record : system.Record kind address container count array)
    (own : object.array = array ∧ object.position < count) : Owns system address object :=
  ⟨container, kind, record.found, by rw [record.shaped.initial, own.1]⟩

section

variable (configured : Configured information)
include configured

private theorem configured_slot : some object ∉ information.localTable := by
  rw [configured]
  intro member
  cases List.eq_of_mem_replicate member

theorem configured_objectsClose
    (positive : objectsIndexMinimum ≤ objectsGetIndex (memory object).id)
    (bound : objectsGetIndex (memory object).id ≤ information.objectsGetMaximumIndex) :
    information.objectsClose memory object =
      some (information, update memory object { memory object with name := 0 }) := by
  have same : information.localTable.set
      (objectsGetIndex (memory object).id - objectsIndexMinimum) none = information.localTable := by
    rw [configured]
    exact List.set_replicate_self
  simp [objectsClose, objectsSetLocalObject, positive, bound, same]

theorem configured_objectsOpenU32 {opened : ObjectsInformation} {objects : ObjectsMemory}
    (opening : information.objectsOpenU32 memory object name = some (opened, objects)) :
    opened ≠ information := by
  rintro rfl
  simp only [objectsOpenU32, objectsSetLocalObject, Option.bind_eq_bind] at opening
  split at opening
  next bounds =>
    simp only [Option.bind_some, Option.pure_def, Option.some.injEq, Prod.mk.injEq] at opening
    have minimum : 0 < objectsIndexMinimum := by decide
    have inside : objectsGetIndex (memory object).id - objectsIndexMinimum <
        opened.localTable.length := by
      rw [configured, List.length_replicate]
      omega
    have entered : some object ∈ opened.localTable := by
      rw [← opening.1]
      exact List.mem_set inside _
    exact configured_slot configured entered
  next => cases opening

end

theorem objectsGet_owns (sound : system.Sound) (found : system.containers address = some container)
    (got : (container.info kind).objectsGet id = some object) : Owns system address object := by
  rcases @sound_record system kind address container sound found with cleared | ⟨count, array, record⟩
  · rw [cleared, zeroed_objectsGet] at got
    cases got
  · exact record_owns record (record.shaped.objectsGet_eq_some.mp got).1

theorem objectsNameToIdU32_mem
    (named : information.objectsNameToIdU32 memory name node = some object) :
    some object ∈ information.localTable := by
  simp only [objectsNameToIdU32] at named
  split at named
  · obtain ⟨slot, member, matched⟩ := List.exists_of_findSome?_eq_some named
    obtain ⟨rfl, -⟩ := Option.filter_eq_some_iff.mp matched
    exact List.mem_of_mem_take member
  · cases named

theorem objectsNameToIdU32_owns (sound : system.Sound)
    (found : system.containers address = some container)
    (named : (container.info kind).objectsNameToIdU32 system.objects name node = some object) :
    Owns system address object := by
  have member := objectsNameToIdU32_mem named
  rcases @sound_record system kind address container sound found with cleared | ⟨count, array, record⟩
  · rw [cleared] at member
    cases member
  · obtain ⟨position, slot⟩ := List.mem_iff_getElem?.mp member
    obtain ⟨rfl, inside⟩ := record.shaped.slots_own position object slot
    exact record_owns record ⟨rfl, inside⟩

/-- A lookup finds an object of the own container. -/
theorem Separate.finds_owns (separate : Separate system) (calling : call.executing = some executing)
    (found : system.containers executing.ipcContainer = some container)
    (finding : finds system call = some object) : Owns system executing.ipcContainer object := by
  cases call with
  | containerCreate | containerDelete | semaphoreCreate | queueCreate | queueConstruct =>
    cases finding
  | semaphoreDelete caller id | semaphoreGet caller id =>
    cases calling
    simp only [finds, semaphoreGet, IpcSystem.informationOf, found, Option.map_some,
      Option.bind_some] at finding
    exact objectsGet_owns separate.sound found finding
  | queueDelete caller id | queueGet caller id =>
    cases calling
    simp only [finds, messageQueueGet, IpcSystem.informationOf, found, Option.map_some,
      Option.bind_some] at finding
    exact objectsGet_owns separate.sound found finding
  | semaphoreIdent caller name node =>
    exact absurd (objectsNameToIdU32_mem finding) (configured_slot separate.semaphores)
  | queueIdent caller name node =>
    cases calling
    simp only [finds, rtemsMessageQueueIdent, IpcSystem.informationOf, found, Option.map_some,
      Option.bind_some] at finding
    exact objectsNameToIdU32_owns separate.sound found finding

def Stays (system : IpcSystem) (address : Nat) (next : IpcSystem) : Prop :=
  Confined system next address ∧ Separate next

section

variable (separate : Separate system)
include separate

theorem Separate.stays (soundNext : next.Sound) (confined : Confined system next address)
    (own : ∀ container semaphore, next.containers address = some container →
      some semaphore ∈ (container.info .semaphore).localTable →
        semaphore ∈ (container.info .semaphore).inactiveChain) : Stays system address next := by
  refine ⟨confined, soundNext, ?_, ?_, ?_⟩
  · rw [confined.globalQueues]
    exact separate.queues
  · rw [confined.globalSemaphores]
    exact separate.semaphores
  · intro other otherContainer semaphore found
    by_cases same : other = address
    · subst other
      exact own otherContainer semaphore found
    · rw [confined.containers other same] at found
      exact separate.inactive other otherContainer semaphore found

theorem Separate.queue_stays (soundNext : next.Sound)
    (found : system.containers address = some container)
    (containersEq : next.containers = update system.containers address
      (some (container.setInfo .messageQueue information)))
    (globalQueues : next.messageQueueInformation = system.messageQueueInformation)
    (globalSemaphores : next.semaphoreInformation = system.semaphoreInformation)
    (objects : ∀ object, object ≠ block → next.objects object = system.objects object)
    (semaphores : next.semaphores = system.semaphores) (owned : Owns system address block) :
    Stays system address next := by
  refine separate.stays soundNext (confined_of_block containersEq globalQueues globalSemaphores
    objects (fun _ _ => by rw [semaphores]) owned) ?_
  intro nextContainer semaphore nextFound
  rw [containersEq, update_self, Option.some.injEq] at nextFound
  subst nextContainer
  exact separate.inactive address container semaphore found

theorem Separate.refl_stays (address : Nat) : Stays system address system :=
  ⟨Confined.refl system address, separate⟩

/-- A create that fails changes its own container only. -/
theorem Separate.failed_stays {rest : List ObjectAddress}
    (record : system.Record .semaphore executing.ipcContainer container count array)
    (chain : (container.info .semaphore).inactiveChain = semaphore :: rest)
    (soundNext : (semaphoreCreateFailed system executing (container.info .semaphore) semaphore
      rest).Sound) :
    Stays system executing.ipcContainer
      (semaphoreCreateFailed system executing (container.info .semaphore) semaphore rest) := by
  have own := record.shaped.chain_own semaphore (by rw [chain]; exact List.mem_cons_self)
  have containersEq := @IpcSystem.setInfo_containers system .semaphore executing.ipcContainer
    container (semaphoreReleased (semaphoreEntered (container.info .semaphore) semaphore rest)
      semaphore) record.found
  refine separate.stays soundNext ?_ ?_
  · refine confined_of_block containersEq rfl rfl (fun _ _ => rfl) ?_ (record_owns record own)
    intro object different
    exact update_of_ne different _ _
  · intro nextContainer entered nextFound member
    change (system.setInfo .semaphore executing.ipcContainer _).containers _ = _ at nextFound
    rw [containersEq, update_self, Option.some.injEq] at nextFound
    subst nextContainer
    rw [IpcContainer.setInfo_same] at member ⊢
    change entered ∈ rest ++ [semaphore]
    rcases List.mem_or_eq_of_mem_set member with member | cleared
    · rcases List.mem_or_eq_of_mem_set member with member | same
      · have inactive := separate.inactive _ container entered record.found member
        rw [chain] at inactive
        exact List.mem_append.mpr ((List.mem_cons.mp inactive).symm.imp id (by simp))
      · cases same
        exact List.mem_append_right _ List.mem_cons_self
    · cases cleared

theorem Separate.semaphoreCreate (live : (system.containers executing.ipcContainer).isSome)
    (keeps : Keeps smp system (.semaphoreCreate executing arguments)) :
    ∃ next result, rtemsSemaphoreCreate smp system executing arguments = some (next, result) ∧
      Stays system executing.ipcContainer next := by
  obtain ⟨container, found⟩ := Option.isSome_iff_exists.mp live
  cases check : semaphoreCheck smp arguments with
  | error status =>
    exact ⟨system, _, rtemsSemaphoreCreate_refused check, separate.refl_stays _⟩
  | ok variant =>
    obtain ⟨built, fails⟩ := keeps variant container check found
    rcases @sound_record system .semaphore _ container separate.sound found with
      cleared | ⟨count, array, record⟩
    · rw [cleared] at built
      cases built
    cases chain : (container.info .semaphore).inactiveChain with
    | nil =>
      exact ⟨system, _, rtemsSemaphoreCreate_exhausted check record chain, separate.refl_stays _⟩
    | cons semaphore rest =>
      cases initialized : semaphoreInitialize executing variant arguments.count
          arguments.priorityCeiling with
      | error status =>
        have performed := rtemsSemaphoreCreate_failed check record chain initialized
        exact ⟨_, _, performed, separate.failed_stays record chain
          (semaphoreCreate_sound separate.sound live performed)⟩
      | ok control =>
        have refuted := fails (by simp [chain])
        rw [initialized] at refuted
        exact absurd rfl refuted

end

theorem Separate.messageQueueCreate {config : MessageQueueConfig} {id : Bool}
    (allocateBuffers : Nat → Bool) (separate : Separate system)
    (live : (system.containers executing.ipcContainer).isSome)
    (allocated : messageQueueCheck config id = .ok () → QueueTable.Allocated system executing) :
    ∃ next result, Rtems.messageQueueCreate system executing config id allocateBuffers =
      some (next, result) ∧ Stays system executing.ipcContainer next := by
  obtain ⟨container, found⟩ := Option.isSome_iff_exists.mp live
  cases check : messageQueueCheck config id with
  | error status => exact ⟨system, _, messageQueueCreate_refused check, separate.refl_stays _⟩
  | ok done =>
    rcases @sound_record system .messageQueue _ container separate.sound found with
      cleared | ⟨count, array, record⟩
    · have built := allocated check container found
      rw [cleared] at built
      cases built
    cases chain : (container.info .messageQueue).inactiveChain with
    | nil =>
      exact ⟨system, _, messageQueueCreate_exhausted check record chain, separate.refl_stays _⟩
    | cons queue rest =>
      have own := record.shaped.chain_own queue (by rw [chain]; exact List.mem_cons_self)
      cases initialized : coreMessageQueueInitialize config.maximumPendingMessages
          config.maximumMessageSize allocateBuffers with
      | error status =>
        have performed := messageQueueCreate_failed check record chain initialized
        exact ⟨_, _, performed, separate.queue_stays
          (messageQueueCreate_sound separate.sound live performed) found
          (IpcSystem.setInfo_containers found) rfl rfl (fun _ _ => rfl) rfl
          (record_owns record own)⟩
      | ok done =>
        have performed := messageQueueCreate_opened check record chain initialized
        refine ⟨_, _, performed, separate.queue_stays
          (messageQueueCreate_sound separate.sound live performed) found
          (IpcSystem.setInfo_containers found) rfl rfl ?_ rfl (record_owns record own)⟩
        intro object different
        exact update_of_ne different _ _

theorem Separate.queueDelete (separate : Separate system)
    (live : (system.containers executing.ipcContainer).isSome)
    (keeps : Keeps smp system (.queueDelete executing id)) :
    ∃ next status, rtemsMessageQueueDelete system executing id = some (next, status) ∧
      Stays system executing.ipcContainer next := by
  obtain ⟨container, found⟩ := Option.isSome_iff_exists.mp live
  cases got : messageQueueGet system executing id with
  | none => exact ⟨system, _, rtemsMessageQueueDelete_missed got, separate.refl_stays _⟩
  | some queue =>
    obtain ⟨bound, off⟩ := keeps queue container got found
    obtain ⟨-, count, array, record, own⟩ := record_of_get separate.sound found got
    have positive : objectsIndexMinimum ≤ objectsGetIndex (system.objects queue).id := by
      rw [record.shaped.index_eq own, objectsIndexMinimum]
      omega
    have performed := rtemsMessageQueueDelete_closed record got
    rw [configured_objectsClose separate.queues positive bound, Option.bind_some,
      if_neg off] at performed
    refine ⟨_, _, performed, separate.queue_stays
      (messageQueueDelete_sound separate.sound live performed) found
      (IpcSystem.setInfo_containers found) rfl rfl ?_ rfl (record_owns record own)⟩
    intro object different
    exact update_of_ne different _ _

theorem Separate.performs (separate : Separate system) (wellFormed : call.WellFormed system)
    (calling : call.executing = some executing) (keeps : Keeps smp system call) :
    ∃ next, call.perform smp system = some next ∧ Stays system executing.ipcContainer next := by
  cases call with
  | containerCreate | containerDelete => cases calling
  | semaphoreCreate caller arguments =>
    cases calling
    obtain ⟨next, result, performed, stays⟩ :=
      separate.semaphoreCreate (wellFormed executing rfl) keeps
    exact ⟨next, by simp [IpcCall.perform, performed], stays⟩
  | semaphoreDelete caller id =>
    cases calling
    obtain ⟨status, -, performed⟩ := rtemsSemaphoreDelete_refused keeps
    exact ⟨system, by simp [IpcCall.perform, performed], separate.refl_stays _⟩
  | queueCreate caller name count maxMessageSize id workspace =>
    cases calling
    obtain ⟨next, result, performed, stays⟩ :=
      separate.messageQueueCreate workspace (wellFormed executing rfl) keeps
    exact ⟨next, by simp [IpcCall.perform, rtemsMessageQueueCreate, performed], stays⟩
  | queueConstruct caller config id =>
    cases calling
    cases config with
    | none => exact ⟨system, rfl, separate.refl_stays _⟩
    | some config =>
      obtain ⟨next, result, performed, stays⟩ := separate.messageQueueCreate
        (messageQueueGetBuffers config) (wellFormed executing rfl) keeps
      exact ⟨next, by simp [IpcCall.perform, rtemsMessageQueueConstruct, performed], stays⟩
  | queueDelete caller id =>
    cases calling
    obtain ⟨next, status, performed, stays⟩ :=
      separate.queueDelete (wellFormed executing rfl) keeps
    exact ⟨next, by simp [IpcCall.perform, performed], stays⟩
  | semaphoreIdent | semaphoreGet | queueIdent | queueGet =>
    exact ⟨system, rfl, separate.refl_stays _⟩

theorem wellFormed_live (wellFormed : call.WellFormed system)
    (calling : call.executing = some executing) :
    (system.containers executing.ipcContainer).isSome := by
  cases call with
  | containerCreate | containerDelete => cases calling
  | _ => exact wellFormed executing calling

theorem new_inactive {allocated : InfoMemory}
    (new : container.RecordNew memory .semaphore allocated)
    (entered : some semaphore ∈ (container.info .semaphore).localTable) :
    semaphore ∈ (container.info .semaphore).inactiveChain := by
  rcases new with cleared | ⟨count, array, -, consistent, -, chain⟩
  · rw [cleared] at entered
    cases entered
  · obtain ⟨position, slot⟩ := List.mem_iff_getElem?.mp entered
    obtain ⟨rfl, inside⟩ := consistent.slots_own position semaphore slot
    rw [chain]
    exact List.mem_map.mpr ⟨position, List.mem_range.mpr inside, rfl⟩

theorem Separate.containerCreate {created : Option Nat} {queueMemory semaphoreMemory : InfoMemory}
    {listNode : Bool} (separate : Separate system)
    (memoryFresh : system.MemoryFresh queueMemory semaphoreMemory) :
    Separate (system.rtemsIpcContainerCreate created queueMemory semaphoreMemory listNode) := by
  cases created with
  | none => exact separate
  | some created =>
    obtain ⟨⟨container, containersEq, -, new⟩, -⟩ :=
      IpcSystem.create_records created listNode memoryFresh
    refine ⟨separate.sound.create memoryFresh, separate.queues, separate.semaphores, ?_⟩
    intro other otherContainer semaphore found entered
    rw [containersEq] at found
    by_cases same : other = created
    · rw [same, update_self, Option.some.injEq] at found
      subst otherContainer
      exact new_inactive new entered
    · rw [update_of_ne same] at found
      exact separate.inactive other otherContainer semaphore found entered

theorem Separate.containerDelete {deleted : Option Nat} (separate : Separate system) :
    Separate (system.rtemsIpcContainerDelete deleted) := by
  obtain ⟨sameQueues, sameSemaphores⟩ := @IpcSystem.delete_globals system deleted
  refine ⟨separate.sound.delete, ?_, ?_, ?_⟩
  · rw [sameQueues]
    exact separate.queues
  · rw [sameSemaphores]
    exact separate.semaphores
  · intro other container semaphore found
    exact separate.inactive other container semaphore (IpcSystem.delete_containers_some found)

theorem separated_step (separated : Separated state) (promised : IpcCall.Promised state call)
    (kept : Kept smp state call) : Separated (IpcCall.step smp state call) := by
  cases state with
  | none => exact separated
  | some system =>
    have wellFormed := promised system rfl
    cases calling : call.executing with
    | some executing =>
      obtain ⟨next, performed, -, separate⟩ :=
        Separate.performs separated wellFormed calling (kept system rfl)
      have stepped : IpcCall.step smp (some system) call = some next := performed
      rw [stepped]
      exact separate
    | none =>
      cases call with
      | containerCreate created queueMemory semaphoreMemory listNode =>
        exact Separate.containerCreate separated wellFormed.2
      | containerDelete deleted => exact Separate.containerDelete separated
      | _ => cases calling

theorem Separate.semaphoreCreate_leaves (separate : Separate system)
    (missed : ¬ Keeps smp system (.semaphoreCreate executing arguments)) {next : IpcSystem}
    {result : Except StatusCode ObjectsId}
    (performed : rtemsSemaphoreCreate smp system executing arguments = some (next, result)) :
    next.semaphoreInformation ≠ system.semaphoreInformation := by
  simp only [Keeps, not_forall] at missed
  obtain ⟨variant, container, check, found, missed⟩ := missed
  rcases @sound_record system .semaphore _ container separate.sound found with
    cleared | ⟨count, array, record⟩
  · rw [rtemsSemaphoreCreate_zeroed check found cleared] at performed
    cases performed
  have built : (container.info .semaphore).initialObjects.isSome := by
    rw [record.shaped.initial]
    rfl
  obtain ⟨available, initializes⟩ := Classical.not_imp.mp (not_and.mp missed built)
  obtain ⟨semaphore, rest, chain⟩ := List.exists_cons_of_ne_nil available
  cases initialized : semaphoreInitialize executing variant arguments.count
      arguments.priorityCeiling with
  | error status =>
    rw [initialized] at initializes
    exact absurd Bool.false_ne_true initializes
  | ok control =>
    rw [rtemsSemaphoreCreate_opened check record chain initialized,
      Option.map_eq_some_iff] at performed
    obtain ⟨⟨opened, objects⟩, opening, same⟩ := performed
    cases same
    exact configured_objectsOpenU32 separate.semaphores opening

theorem Separate.semaphoreDelete_leaves (separate : Separate system)
    (live : (system.containers executing.ipcContainer).isSome)
    (missed : ¬ Keeps smp system (.semaphoreDelete executing id)) :
    rtemsSemaphoreDelete system executing id = none := by
  obtain ⟨container, found⟩ := Option.isSome_iff_exists.mp live
  obtain ⟨semaphore, missed⟩ := not_forall.mp missed
  obtain ⟨got, idle⟩ := Classical.not_imp.mp missed
  obtain ⟨reached, count, array, record, -⟩ := record_of_get separate.sound found got
  obtain ⟨-, -, slot⟩ := record.shaped.objectsGet_eq_some.mp reached
  have inactive := separate.inactive _ container semaphore found (List.mem_of_getElem? slot)
  rw [rtemsSemaphoreDelete_closed record got (by simpa using idle)]
  cases system.semaphoreInformation.objectsClose system.objects semaphore with
  | none => rfl
  | some closed => rw [Option.bind_some, if_pos inactive]

theorem queueDelete_none {id : ObjectsId} (sound : system.Sound)
    (missed : ¬ Keeps smp system (.queueDelete executing id)) :
    rtemsMessageQueueDelete system executing id = none := by
  simp only [Keeps, not_forall] at missed
  obtain ⟨queue, container, got, found, missed⟩ := missed
  obtain ⟨-, count, array, record, -⟩ := record_of_get sound found got
  rw [rtemsMessageQueueDelete_closed record got]
  by_cases bound : objectsGetIndex (system.objects queue).id ≤
      system.messageQueueInformation.objectsGetMaximumIndex
  · have inactive := Classical.not_not.mp (not_and.mp missed bound)
    cases system.messageQueueInformation.objectsClose system.objects queue with
    | none => rfl
    | some closed => rw [Option.bind_some, if_pos inactive]
  · simp [objectsClose, objectsSetLocalObject, bound]

theorem isolated_iff (separated : Separated state) (promised : IpcCall.Promised state call) :
    Isolated smp state call ↔ Kept smp state call := by
  cases state with
  | none => exact separated.elim
  | some system =>
    have wellFormed := promised system rfl
    constructor
    · rintro isolated _ ⟨⟩
      by_contra missed
      cases call with
      | semaphoreCreate executing arguments =>
        obtain ⟨⟨next, performed, confined⟩, -⟩ := isolated system executing rfl rfl
        obtain ⟨⟨after, result⟩, made, rfl⟩ := Option.map_eq_some_iff.mp performed
        exact Separate.semaphoreCreate_leaves separated missed made confined.globalSemaphores
      | semaphoreDelete executing id =>
        obtain ⟨⟨next, performed, -⟩, -⟩ := isolated system executing rfl rfl
        rw [IpcCall.perform, Separate.semaphoreDelete_leaves separated
          (wellFormed executing rfl) missed] at performed
        cases performed
      | queueDelete executing id =>
        obtain ⟨⟨next, performed, -⟩, -⟩ := isolated system executing rfl rfl
        rw [IpcCall.perform, queueDelete_none separated.sound missed] at performed
        cases performed
      | queueCreate executing name count maxMessageSize id workspace =>
        obtain ⟨⟨next, performed, -⟩, -⟩ := isolated system executing rfl rfl
        rw [IpcCall.perform, rtemsMessageQueueCreate,
          QueueTable.messageQueueCreate_missed separated.sound missed] at performed
        cases performed
      | queueConstruct executing config id =>
        cases config with
        | none => exact missed trivial
        | some config =>
          obtain ⟨⟨next, performed, -⟩, -⟩ := isolated system executing rfl rfl
          rw [IpcCall.perform, rtemsMessageQueueConstruct,
            QueueTable.messageQueueCreate_missed separated.sound missed] at performed
          cases performed
      | _ => exact missed trivial
    · rintro kept _ executing ⟨⟩ calling
      obtain ⟨container, found⟩ :=
        Option.isSome_iff_exists.mp (wellFormed_live wellFormed calling)
      obtain ⟨next, performed, confined, -⟩ :=
        Separate.performs separated wellFormed calling (kept system rfl)
      refine ⟨⟨next, performed, confined⟩, ?_⟩
      intro object finding
      exact Separate.finds_owns separated calling found finding

end

end IpcIsolation

open IpcIsolation

section

variable (smp : Bool) (root : Nat) {queueMemory semaphoreMemory : InfoMemory}
  (apart : ∀ array, queueMemory.objects = some array → semaphoreMemory.objects ≠ some array)
  {messageQueueInformation semaphoreInformation : ObjectsInformation}
  (queuesConfigured : Configured messageQueueInformation)
  (semaphoresConfigured : Configured semaphoreInformation) (objects : ObjectsMemory)
  (semaphores : ObjectAddress → SemaphoreControl)
include apart queuesConfigured semaphoresConfigured

theorem IpcIsolation.initial_separated :
    Separated (some (IpcSystem.rtemsIpcContainerInitializeRoot root queueMemory semaphoreMemory
      messageQueueInformation semaphoreInformation objects semaphores)) := by
  refine ⟨IpcSystem.initializeRoot_sound root messageQueueInformation semaphoreInformation objects
    semaphores apart, queuesConfigured, semaphoresConfigured, ?_⟩
  intro address container semaphore found
  obtain ⟨memory, new⟩ := IpcSystem.initializeRoot_records root messageQueueInformation
    semaphoreInformation objects semaphores apart .semaphore found
  exact new_inactive new

/-- From empty global tables, every call of an interleaving is isolated if and
only if no semaphore create opens its block, no semaphore delete gets past its
checks, queues are created in allocated records, and a queue that is deleted is
active and has an index that exists in the global record. -/
theorem ipcRun_isolated_iff (calls : List IpcCall)
    (promised : Meets (IpcCall.step smp) IpcCall.Promised
      (some (IpcSystem.rtemsIpcContainerInitializeRoot root queueMemory semaphoreMemory
        messageQueueInformation semaphoreInformation objects semaphores)) calls) :
    Meets (IpcCall.step smp) (Isolated smp)
        (some (IpcSystem.rtemsIpcContainerInitializeRoot root queueMemory semaphoreMemory
          messageQueueInformation semaphoreInformation objects semaphores)) calls ↔
      Meets (IpcCall.step smp) (IpcIsolation.Kept smp)
        (some (IpcSystem.rtemsIpcContainerInitializeRoot root queueMemory semaphoreMemory
          messageQueueInformation semaphoreInformation objects semaphores)) calls :=
  meets_iff_meets Separated
    (initial_separated root apart queuesConfigured semaphoresConfigured objects semaphores)
    promised (fun _ _ separated promised kept => separated_step separated promised kept)
    (fun _ _ separated promised => isolated_iff separated promised)

end

/-- A container beside the root. -/
def createSecond : IpcCall := .containerCreate (some 1) ⟨some 3, true⟩ ⟨some 4, true⟩ true

def secondThread : Executing := ⟨1, 255, fun priority => priority, 1⟩

theorem createSecond_promised : IpcCall.Promised (some configuredIpcSystem) createSecond := by
  rintro _ ⟨⟩
  refine ⟨?_, ?_, ?_, ?_⟩
  · rintro _ ⟨⟩
    rfl
  · rintro _ ⟨⟩
    exact configuredIpcSystem_arrayFree (by decide) (by decide)
  · rintro _ ⟨⟩
    exact configuredIpcSystem_arrayFree (by decide) (by decide)
  · rintro _ ⟨⟩
    decide

/-- Threads of both containers create queues of the same name, one is searched
for and the other deleted. -/
def queuesOfBoth : List IpcCall :=
  [createSecond, createQueue 1, .queueCreate secondThread 1 4 8 true fun _ => true,
    .queueIdent secondThread 1 objectsSearchAllNodes, .queueDelete rootThread firstQueueId]

theorem queuesOfBoth_isolated :
    Meets (IpcCall.step false) (Isolated false) (some configuredIpcSystem) queuesOfBoth := by
  refine (ipcRun_isolated_iff false 0 configuredIpcSystem_apart (by rfl) (by rfl) _ _ _ ?_).mpr ?_
  · refine ⟨createSecond_promised, ?_, ?_, ?_, ?_, trivial⟩
    · rintro _ ⟨⟩ _ ⟨⟩
      rfl
    · rintro _ ⟨⟩ _ ⟨⟩
      rfl
    · rintro _ ⟨⟩ _ ⟨⟩
      rfl
    · rintro _ ⟨⟩ _ ⟨⟩
      rfl
  · refine ⟨?_, ?_, ?_, ?_, ?_, trivial⟩
    · rintro _ ⟨⟩
      trivial
    · rintro _ ⟨⟩ - _ ⟨⟩
      rfl
    · rintro _ ⟨⟩ - _ ⟨⟩
      rfl
    · rintro _ ⟨⟩
      trivial
    · rintro _ ⟨⟩ _ _ ⟨⟩ ⟨⟩
      decide +kernel

/-- A thread of the second container finds a semaphore of the root container by
its name. -/
theorem foreignSemaphore_found :
    Meets (IpcCall.step false) IpcCall.Promised (some configuredIpcSystem)
        [createSecond, createCounting 1, .semaphoreIdent secondThread 1 objectsSearchAllNodes] ∧
      ¬ Isolated false
        (run (IpcCall.step false) (some configuredIpcSystem) [createSecond, createCounting 1])
        (.semaphoreIdent secondThread 1 objectsSearchAllNodes) ∧
      ¬ Meets (IpcCall.step false) (Isolated false) (some configuredIpcSystem)
        [createSecond, createCounting 1, .semaphoreIdent secondThread 1 objectsSearchAllNodes] := by
  have found : ¬ Isolated false
      (run (IpcCall.step false) (some configuredIpcSystem) [createSecond, createCounting 1])
      (.semaphoreIdent secondThread 1 objectsSearchAllNodes) := by
    intro isolated
    obtain ⟨container, kind, isSecond, owned⟩ :=
      (isolated _ secondThread rfl rfl).2 ⟨2, 0⟩ (by decide +kernel)
    cases isSecond
    cases kind with
    | messageQueue => cases owned
    | semaphore => cases owned
  refine ⟨⟨createSecond_promised, ?_, ?_, trivial⟩, found, ?_⟩
  · rintro _ ⟨⟩ _ ⟨⟩
    rfl
  · rintro _ ⟨⟩ _ ⟨⟩
    rfl
  · rintro ⟨-, -, isolated, -⟩
    exact found isolated

end RTContainer.Rtems
