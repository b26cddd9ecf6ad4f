import RTContainer.Score.ObjectsProperties

/-! The IPC containers as a system: every live record describes an array of its
own, or has never been allocated. -/

set_option autoImplicit false

namespace RTContainer.Score

open ObjectsInformation Function

namespace IpcContainer

variable (container : IpcContainer)

@[simp] theorem setInfo_same (kind : IpcKind) (information : ObjectsInformation) :
    (container.setInfo kind information).info kind = information := by
  cases kind <;> rfl

theorem setInfo_other {kind other : IpcKind}
    (information : ObjectsInformation) (different : other ≠ kind) :
    (container.setInfo kind information).info other = container.info other := by
  cases kind <;> cases other <;> first | rfl | exact absurd rfl different

@[simp] theorem setInfo_containerID (kind : IpcKind) (information : ObjectsInformation) :
    (container.setInfo kind information).containerID = container.containerID := by
  cases kind <;> rfl

@[simp] theorem setInfo_self (kind : IpcKind) :
    container.setInfo kind (container.info kind) = container := by
  cases kind <;> rfl

private theorem initializeInfo_cases (kind : IpcKind) (containerID maxObjects : Nat)
    (allocated : InfoMemory) (memory : ObjectsMemory) (positive : 0 < maxObjects)
    (fits : maxObjects < 65535) :
    let built := initializeInfo kind containerID maxObjects allocated memory
    (built.1 = .zeroed ∧ built.2 = memory) ∨
      ∃ array, allocated.objects = some array ∧
        Consistent built.1 built.2 kind.cls containerID maxObjects array ∧
        built.1.allocator = kind.allocator ∧
        built.1.inactiveChain = (List.range maxObjects).map (ObjectAddress.mk array) ∧
        ∀ object, object.array ≠ array → built.2 object = memory object := by
  obtain ⟨objects, localTable⟩ := allocated
  cases objects with
  | none =>
    rw [initializeInfo_failed (.inl rfl)]
    exact .inl ⟨rfl, rfl⟩
  | some array =>
    cases localTable with
    | false =>
      rw [initializeInfo_failed (.inr rfl)]
      exact .inl ⟨rfl, rfl⟩
    | true => exact .inr ⟨array, rfl, initializeInfo_consistent positive fits⟩

def RecordNew (memory : ObjectsMemory) (kind : IpcKind) (allocated : InfoMemory) : Prop :=
  container.info kind = .zeroed ∨
    ∃ count array, allocated.objects = some array ∧
      Consistent (container.info kind) memory kind.cls container.containerID count array ∧
      (container.info kind).allocator = kind.allocator ∧
      (container.info kind).inactiveChain = (List.range count).map (ObjectAddress.mk array)

/-- The records of a new container are empty and of its own memory. -/
theorem initialRecords_new (rc : Int) (containerID maxQueues maxSemaphores : Nat)
    (queueMemory semaphoreMemory : InfoMemory) (memory : ObjectsMemory)
    (queuesFit : 0 < maxQueues ∧ maxQueues < 65535)
    (semaphoresFit : 0 < maxSemaphores ∧ maxSemaphores < 65535)
    (apart : ∀ array, queueMemory.objects = some array → semaphoreMemory.objects ≠ some array) :
    let built := initialRecords rc containerID maxQueues maxSemaphores queueMemory
      semaphoreMemory memory
    built.1.containerID = containerID ∧
      RecordNew built.1 built.2 .messageQueue queueMemory ∧
      RecordNew built.1 built.2 .semaphore semaphoreMemory ∧
      ∀ object, queueMemory.objects ≠ some object.array →
        semaphoreMemory.objects ≠ some object.array → built.2 object = memory object := by
  have queues := initializeInfo_cases .messageQueue containerID maxQueues queueMemory memory
    queuesFit.1 queuesFit.2
  obtain ⟨queueBuilt, isQueueBuilt⟩ : ∃ queueBuilt, queueBuilt =
    initializeInfo .messageQueue containerID maxQueues queueMemory memory := ⟨_, rfl⟩
  have semaphores := initializeInfo_cases .semaphore containerID maxSemaphores semaphoreMemory
    queueBuilt.2 semaphoresFit.1 semaphoresFit.2
  obtain ⟨semaphoreBuilt, isSemaphoreBuilt⟩ : ∃ semaphoreBuilt, semaphoreBuilt =
    initializeInfo .semaphore containerID maxSemaphores semaphoreMemory queueBuilt.2 := ⟨_, rfl⟩
  rw [← isQueueBuilt] at queues
  rw [← isSemaphoreBuilt] at semaphores
  have built : initialRecords rc containerID maxQueues maxSemaphores queueMemory semaphoreMemory
      memory = (⟨rc, containerID, queueBuilt.1, semaphoreBuilt.1⟩, semaphoreBuilt.2) := by
    rw [isSemaphoreBuilt, isQueueBuilt]
    rfl
  rw [built]
  refine ⟨rfl, ?_, ?_, ?_⟩
  · rcases queues with ⟨cleared, -⟩ | ⟨array, allocated, consistent, handlers, chain, -⟩
    · exact .inl cleared
    · refine .inr ⟨maxQueues, array, allocated, ?_, handlers, chain⟩
      refine consistent.of_ids ?_
      intro position _
      rcases semaphores with ⟨-, same⟩ | ⟨otherArray, otherAllocated, -, -, -, same⟩
      · rw [same]
      · rw [same]
        intro sameArray
        exact apart array allocated (by rw [otherAllocated, ← sameArray])
  · rcases semaphores with ⟨cleared, -⟩ | ⟨array, allocated, consistent, handlers, chain, -⟩
    · exact .inl cleared
    · exact .inr ⟨maxSemaphores, array, allocated, consistent, handlers, chain⟩
  · intro object queueOther semaphoreOther
    have queueSame : queueBuilt.2 object = memory object := by
      rcases queues with ⟨-, same⟩ | ⟨array, allocated, -, -, -, same⟩
      · rw [same]
      · exact same object fun sameArray => queueOther (by rw [allocated, sameArray])
    rcases semaphores with ⟨-, same⟩ | ⟨array, allocated, -, -, -, same⟩
    · rw [same, queueSame]
    · rw [← queueSame]
      exact same object fun sameArray => semaphoreOther (by rw [allocated, sameArray])

variable {container} in
theorem RecordNew.allocated {objects : ObjectsMemory} {kind : IpcKind} {memory : InfoMemory}
    {array : Nat} (new : container.RecordNew objects kind memory)
    (initial : (container.info kind).initialObjects = some array) :
    memory.objects = some array := by
  rcases new with cleared | ⟨count, own, allocated, consistent, -⟩
  · rw [cleared] at initial
    cases initial
  · rw [consistent.initial] at initial
    exact allocated.trans initial

end IpcContainer

namespace IpcSystem

theorem setInfo_containers {system : IpcSystem} {kind : IpcKind} {address : Nat}
    {container : IpcContainer} {information : ObjectsInformation}
    (found : system.containers address = some container) :
    (system.setInfo kind address information).containers =
      update system.containers address (some (container.setInfo kind information)) := by
  simp [setInfo, found]

theorem setInfo_eq_self {system : IpcSystem} {kind : IpcKind} {address : Nat}
    {container : IpcContainer} (found : system.containers address = some container) :
    system.setInfo kind address (container.info kind) = system := by
  simp only [setInfo, found, Option.map_some, IpcContainer.setInfo_self]
  rw [← found, update_eq_self]

@[simp] theorem setInfo_setInfo (system : IpcSystem) (kind : IpcKind) (address : Nat)
    (first second : ObjectsInformation) :
    (system.setInfo kind address first).setInfo kind address second =
      system.setInfo kind address second := by
  have twice : ∀ container : IpcContainer,
      (container.setInfo kind first).setInfo kind second = container.setInfo kind second := by
    intro container
    cases kind <;> rfl
  simp [setInfo, Function.comp_def, twice]

structure Record (system : IpcSystem) (kind : IpcKind) (address : Nat) (container : IpcContainer)
    (count array : Nat) : Prop where
  found : system.containers address = some container
  shaped : Shaped (container.info kind) system.objects kind.cls container.containerID count array
  handlers : (container.info kind).allocator = kind.allocator

def RecordSound (system : IpcSystem) (container : IpcContainer) (kind : IpcKind) : Prop :=
  container.info kind = .zeroed ∨
    ∃ count array, Shaped (container.info kind) system.objects kind.cls container.containerID
      count array ∧ (container.info kind).allocator = kind.allocator

/-- The invariant of every history: all records are sound, and no array of
control blocks belongs to two of them. -/
structure Sound (system : IpcSystem) : Prop where
  records : ∀ address container kind, system.containers address = some container →
    system.RecordSound container kind
  arrays : ∀ left right leftContainer rightContainer leftKind rightKind array,
    system.containers left = some leftContainer → system.containers right = some rightContainer →
      (leftContainer.info leftKind).initialObjects = some array →
        (rightContainer.info rightKind).initialObjects = some array →
          left = right ∧ leftKind = rightKind

section

variable {system : IpcSystem}

variable {next : IpcSystem} {address : Nat} {container : IpcContainer} {kind : IpcKind}
variable {information : ObjectsInformation} {queueMemory semaphoreMemory : InfoMemory}

theorem Sound.replace (sound : system.Sound) (found : system.containers address = some container)
    (containersEq : next.containers =
      update system.containers address (some (container.setInfo kind information)))
    (ids : ∀ object, (next.objects object).id = (system.objects object).id)
    (sameInitial : information.initialObjects = (container.info kind).initialObjects)
    (shaped : information = .zeroed ∨
      ∃ count array, Shaped information system.objects kind.cls container.containerID
        count array ∧ information.allocator = kind.allocator) : next.Sound := by
  have live : ∀ other otherContainer, next.containers other = some otherContainer →
      ∃ before, system.containers other = some before ∧
        otherContainer.containerID = before.containerID ∧
        (∀ otherKind, (otherContainer.info otherKind).initialObjects =
          (before.info otherKind).initialObjects) ∧
        ∀ otherKind, otherContainer.info otherKind = before.info otherKind ∨
          other = address ∧ otherKind = kind ∧ before = container ∧
            otherContainer.info otherKind = information := by
    intro other otherContainer otherFound
    rw [containersEq] at otherFound
    by_cases same : other = address
    · subst other
      rw [update_self, Option.some.injEq] at otherFound
      subst otherContainer
      refine ⟨container, found, IpcContainer.setInfo_containerID .., ?_, ?_⟩
      · intro otherKind
        by_cases sameKind : otherKind = kind
        · rw [sameKind, IpcContainer.setInfo_same, sameInitial]
        · rw [IpcContainer.setInfo_other _ _ sameKind]
      · intro otherKind
        by_cases sameKind : otherKind = kind
        · exact .inr ⟨rfl, sameKind, rfl, by rw [sameKind, IpcContainer.setInfo_same]⟩
        · exact .inl (IpcContainer.setInfo_other _ _ sameKind)
    · rw [update_of_ne same] at otherFound
      exact ⟨otherContainer, otherFound, rfl, fun _ => rfl, fun _ => .inl rfl⟩
  constructor
  · intro other otherContainer otherKind otherFound
    obtain ⟨before, beforeFound, sameId, -, infos⟩ := live other otherContainer otherFound
    rcases infos otherKind with same | ⟨-, sameKind, sameContainer, same⟩
    · rcases sound.records other before otherKind beforeFound with cleared | ⟨count, array, old, handlers⟩
      · exact .inl (same.trans cleared)
      · refine .inr ⟨count, array, ?_, same ▸ handlers⟩
        rw [same, sameId]
        exact old.of_ids fun position _ => ids _
    · subst sameKind sameContainer
      rcases shaped with cleared | ⟨count, array, new, handlers⟩
      · exact .inl (same.trans cleared)
      · refine .inr ⟨count, array, ?_, same ▸ handlers⟩
        rw [same, sameId]
        exact new.of_ids fun position _ => ids _
  · intro left right leftContainer rightContainer leftKind rightKind array leftFound rightFound
      leftArray rightArray
    obtain ⟨leftBefore, leftBeforeFound, -, leftInitial, -⟩ := live left leftContainer leftFound
    obtain ⟨rightBefore, rightBeforeFound, -, rightInitial, -⟩ :=
      live right rightContainer rightFound
    rw [leftInitial] at leftArray
    rw [rightInitial] at rightArray
    exact sound.arrays left right leftBefore rightBefore leftKind rightKind array leftBeforeFound
      rightBeforeFound leftArray rightArray

def ArrayFree (system : IpcSystem) (array : Nat) : Prop :=
  ∀ address container kind, system.containers address = some container →
    (container.info kind).initialObjects ≠ some array

structure MemoryFresh (system : IpcSystem) (queueMemory semaphoreMemory : InfoMemory) : Prop where
  queues : ∀ array, queueMemory.objects = some array → system.ArrayFree array
  semaphores : ∀ array, semaphoreMemory.objects = some array → system.ArrayFree array
  apart : ∀ array, queueMemory.objects = some array → semaphoreMemory.objects ≠ some array

theorem MemoryFresh.keeps {objects : ObjectsMemory} {other array position : Nat}
    (memoryFresh : system.MemoryFresh queueMemory semaphoreMemory)
    (kept : ∀ object, queueMemory.objects ≠ some object.array →
      semaphoreMemory.objects ≠ some object.array → objects object = system.objects object)
    (found : system.containers other = some container)
    (initial : (container.info kind).initialObjects = some array) :
    objects ⟨array, position⟩ = system.objects ⟨array, position⟩ :=
  kept ⟨array, position⟩
    (fun allocated => memoryFresh.queues array allocated other container kind found initial)
    fun allocated => memoryFresh.semaphores array allocated other container kind found initial

/-- A container with new records can be added. -/
theorem Sound.insert (sound : system.Sound)
    (memoryFresh : system.MemoryFresh queueMemory semaphoreMemory)
    (containersEq : next.containers = update system.containers address (some container))
    (queuesNew : container.RecordNew next.objects .messageQueue queueMemory)
    (semaphoresNew : container.RecordNew next.objects .semaphore semaphoreMemory)
    (kept : ∀ object, queueMemory.objects ≠ some object.array →
      semaphoreMemory.objects ≠ some object.array → next.objects object = system.objects object) :
    next.Sound := by
  have newArray : ∀ kind array, (container.info kind).initialObjects = some array →
      system.ArrayFree array ∧
        (kind = .messageQueue ∧ queueMemory.objects = some array ∨
          kind = .semaphore ∧ semaphoreMemory.objects = some array) := by
    intro kind array initial
    cases kind with
    | messageQueue =>
      have allocated := queuesNew.allocated initial
      exact ⟨memoryFresh.queues array allocated, .inl ⟨rfl, allocated⟩⟩
    | semaphore =>
      have allocated := semaphoresNew.allocated initial
      exact ⟨memoryFresh.semaphores array allocated, .inr ⟨rfl, allocated⟩⟩
  constructor
  · intro other otherContainer kind otherFound
    rw [containersEq] at otherFound
    by_cases same : other = address
    · rw [same, update_self, Option.some.injEq] at otherFound
      subst otherContainer
      have recordNew : ∃ memory, container.RecordNew next.objects kind memory := by
        cases kind with
        | messageQueue => exact ⟨_, queuesNew⟩
        | semaphore => exact ⟨_, semaphoresNew⟩
      obtain ⟨memory, cleared | ⟨count, array, -, consistent, handlers, -⟩⟩ := recordNew
      · exact .inl cleared
      · exact .inr ⟨count, array, consistent.toShaped, handlers⟩
    · rw [update_of_ne same] at otherFound
      rcases sound.records other otherContainer kind otherFound with
        cleared | ⟨count, array, shaped, handlers⟩
      · exact .inl cleared
      · refine .inr ⟨count, array, shaped.of_ids ?_, handlers⟩
        intro position _
        rw [memoryFresh.keeps kept otherFound shaped.initial]
  · intro left right leftContainer rightContainer leftKind rightKind array leftFound rightFound
      leftArray rightArray
    rw [containersEq] at leftFound rightFound
    by_cases leftSame : left = address
    · rw [leftSame, update_self, Option.some.injEq] at leftFound
      subst leftContainer
      obtain ⟨leftFree, leftMemory⟩ := newArray leftKind array leftArray
      by_cases rightSame : right = address
      · rw [rightSame, update_self, Option.some.injEq] at rightFound
        subst rightContainer
        obtain ⟨-, rightMemory⟩ := newArray rightKind array rightArray
        refine ⟨leftSame.trans rightSame.symm, ?_⟩
        rcases leftMemory with ⟨rfl, leftAllocated⟩ | ⟨rfl, leftAllocated⟩
        · rcases rightMemory with ⟨rfl, -⟩ | ⟨rfl, rightAllocated⟩
          · rfl
          · exact absurd rightAllocated (memoryFresh.apart array leftAllocated)
        · rcases rightMemory with ⟨rfl, rightAllocated⟩ | ⟨rfl, -⟩
          · exact absurd leftAllocated (memoryFresh.apart array rightAllocated)
          · rfl
      · rw [update_of_ne rightSame] at rightFound
        exact absurd rightArray (leftFree right rightContainer rightKind rightFound)
    · rw [update_of_ne leftSame] at leftFound
      by_cases rightSame : right = address
      · rw [rightSame, update_self, Option.some.injEq] at rightFound
        subst rightContainer
        obtain ⟨rightFree, -⟩ := newArray rightKind array rightArray
        exact absurd leftArray (rightFree left leftContainer leftKind leftFound)
      · rw [update_of_ne rightSame] at rightFound
        exact sound.arrays left right leftContainer rightContainer leftKind rightKind array
          leftFound rightFound leftArray rightArray

theorem Sound.create {address : Option Nat} {queueMemory semaphoreMemory : InfoMemory}
    {listNode : Bool} (sound : system.Sound)
    (memoryFresh : system.MemoryFresh queueMemory semaphoreMemory) :
    (system.rtemsIpcContainerCreate address queueMemory semaphoreMemory listNode).Sound := by
  cases address with
  | none => exact sound
  | some container =>
    obtain ⟨-, queuesNew, semaphoresNew, kept⟩ :=
      IpcContainer.initialRecords_new 1 (system.ipcContainerIdCounter + 1) 5 10 queueMemory
        semaphoreMemory system.objects ⟨by decide, by decide⟩ ⟨by decide, by decide⟩
        memoryFresh.apart
    exact sound.insert memoryFresh rfl queuesNew semaphoresNew kept

theorem delete_containers_some {container : Option Nat} {addressContainer : IpcContainer}
    (found : (system.rtemsIpcContainerDelete container).containers address =
      some addressContainer) : system.containers address = some addressContainer := by
  cases container with
  | none => exact found
  | some deleted =>
    by_cases isRoot : deleted = system.root
    · simpa only [rtemsIpcContainerDelete, isRoot, ↓reduceIte] using found
    · simp only [rtemsIpcContainerDelete, isRoot, ↓reduceIte] at found
      by_cases same : address = deleted
      · simp [same] at found
      · simpa [same] using found

theorem delete_objects (container : Option Nat) :
    (system.rtemsIpcContainerDelete container).objects = system.objects := by
  cases container with
  | none => rfl
  | some deleted =>
    by_cases isRoot : deleted = system.root
    · simp only [rtemsIpcContainerDelete, isRoot, ↓reduceIte]
    · simp only [rtemsIpcContainerDelete, isRoot, ↓reduceIte]

theorem delete_globals (container : Option Nat) :
    (system.rtemsIpcContainerDelete container).messageQueueInformation =
        system.messageQueueInformation ∧
      (system.rtemsIpcContainerDelete container).semaphoreInformation =
        system.semaphoreInformation := by
  cases container with
  | none => exact ⟨rfl, rfl⟩
  | some deleted =>
    by_cases isRoot : deleted = system.root
    · simp only [rtemsIpcContainerDelete, isRoot, ↓reduceIte, and_self]
    · simp only [rtemsIpcContainerDelete, isRoot, ↓reduceIte, and_self]

theorem Sound.delete {container : Option Nat} (sound : system.Sound) :
    (system.rtemsIpcContainerDelete container).Sound := by
  constructor
  · intro address addressContainer kind found
    rw [RecordSound, delete_objects]
    exact sound.records address addressContainer kind (delete_containers_some found)
  · intro left right leftContainer rightContainer leftKind rightKind array leftFound rightFound
    exact sound.arrays left right leftContainer rightContainer leftKind rightKind array
      (delete_containers_some leftFound) (delete_containers_some rightFound)

/-- In every live container the record of a kind is cleared, or each of its
blocks is either inactive or in its slot. -/
def KindConsistent (system : IpcSystem) (kind : IpcKind) : Prop :=
  ∀ address container, system.containers address = some container →
    container.info kind = .zeroed ∨
      ∃ count array, Consistent (container.info kind) system.objects kind.cls
        container.containerID count array

theorem KindConsistent.replace {count array : Nat} (consistent : system.KindConsistent kind)
    (containersEq : next.containers =
      update system.containers address (some (container.setInfo kind information)))
    (ids : ∀ object, (next.objects object).id = (system.objects object).id)
    (new : Consistent information system.objects kind.cls container.containerID count array) :
    next.KindConsistent kind := by
  intro other otherContainer otherFound
  rw [containersEq] at otherFound
  by_cases same : other = address
  · rw [same, update_self, Option.some.injEq] at otherFound
    subst otherContainer
    refine .inr ⟨count, array, ?_⟩
    rw [IpcContainer.setInfo_same, IpcContainer.setInfo_containerID]
    exact new.of_ids fun position _ => ids _
  · rw [update_of_ne same] at otherFound
    rcases consistent other otherContainer otherFound with cleared | ⟨otherCount, otherArray, old⟩
    · exact .inl cleared
    · exact .inr ⟨otherCount, otherArray, old.of_ids fun position _ => ids _⟩

theorem create_records (address : Nat) (listNode : Bool)
    (memoryFresh : system.MemoryFresh queueMemory semaphoreMemory) :
    let next := system.rtemsIpcContainerCreate (some address) queueMemory semaphoreMemory listNode
    (∃ container, next.containers = update system.containers address (some container) ∧
        container.RecordNew next.objects .messageQueue queueMemory ∧
        container.RecordNew next.objects .semaphore semaphoreMemory) ∧
      ∀ other otherContainer kind array position,
        system.containers other = some otherContainer →
          (otherContainer.info kind).initialObjects = some array →
            next.objects ⟨array, position⟩ = system.objects ⟨array, position⟩ := by
  obtain ⟨-, queuesNew, semaphoresNew, kept⟩ :=
    IpcContainer.initialRecords_new 1 (system.ipcContainerIdCounter + 1) 5 10 queueMemory
      semaphoreMemory system.objects ⟨by decide, by decide⟩ ⟨by decide, by decide⟩
      memoryFresh.apart
  refine ⟨⟨_, rfl, queuesNew, semaphoresNew⟩, ?_⟩
  exact fun _ _ _ _ _ found initial => memoryFresh.keeps kept found initial

theorem KindConsistent.create {kind : IpcKind} {address : Option Nat}
    {queueMemory semaphoreMemory : InfoMemory} {listNode : Bool}
    (consistent : system.KindConsistent kind)
    (memoryFresh : system.MemoryFresh queueMemory semaphoreMemory) :
    (system.rtemsIpcContainerCreate address queueMemory semaphoreMemory listNode).KindConsistent
      kind := by
  cases address with
  | none => exact consistent
  | some address =>
    obtain ⟨⟨container, containersEq, queuesNew, semaphoresNew⟩, kept⟩ :=
      create_records address listNode memoryFresh
    intro other otherContainer otherFound
    rw [containersEq] at otherFound
    by_cases same : other = address
    · rw [same, update_self, Option.some.injEq] at otherFound
      subst otherContainer
      have recordNew : ∃ memory, container.RecordNew
          (system.rtemsIpcContainerCreate (some address) queueMemory semaphoreMemory
            listNode).objects kind memory := by
        cases kind with
        | messageQueue => exact ⟨_, queuesNew⟩
        | semaphore => exact ⟨_, semaphoresNew⟩
      obtain ⟨memory, cleared | ⟨count, array, -, new, -⟩⟩ := recordNew
      · exact .inl cleared
      · exact .inr ⟨count, array, new⟩
    · rw [update_of_ne same] at otherFound
      rcases consistent other otherContainer otherFound with cleared | ⟨count, array, old⟩
      · exact .inl cleared
      · refine .inr ⟨count, array, old.of_ids fun position _ => ?_⟩
        rw [kept other otherContainer kind array position otherFound old.initial]

theorem KindConsistent.delete {container : Option Nat} (consistent : system.KindConsistent kind) :
    (system.rtemsIpcContainerDelete container).KindConsistent kind := by
  intro address addressContainer found
  rw [delete_objects]
  exact consistent address addressContainer (delete_containers_some found)

variable (root : Nat) (messageQueueInformation semaphoreInformation : ObjectsInformation)
  (objects : ObjectsMemory) (semaphores : ObjectAddress → SemaphoreControl)
  (apart : ∀ array, queueMemory.objects = some array → semaphoreMemory.objects ≠ some array)
include apart

theorem initializeRoot_sound :
    (rtemsIpcContainerInitializeRoot root queueMemory semaphoreMemory messageQueueInformation
      semaphoreInformation objects semaphores).Sound := by
  obtain ⟨empty, isEmpty⟩ : ∃ empty : IpcSystem, empty =
    ⟨root, fun _ => none, [], 0, messageQueueInformation, semaphoreInformation, objects,
      semaphores⟩ := ⟨_, rfl⟩
  have dead : ∀ address container, empty.containers address ≠ some container := by
    intro address container
    simp [isEmpty]
  have emptySound : empty.Sound := by
    constructor
    · intro address container kind found
      exact absurd found (dead address container)
    · intro left right leftContainer rightContainer leftKind rightKind array found
      exact absurd found (dead left leftContainer)
  have free : ∀ array, empty.ArrayFree array := by
    intro array address container kind found
    exact absurd found (dead address container)
  obtain ⟨-, queuesNew, semaphoresNew, kept⟩ :=
    IpcContainer.initialRecords_new 3 1 10 20 queueMemory semaphoreMemory objects
      ⟨by decide, by decide⟩ ⟨by decide, by decide⟩ apart
  have entered : (rtemsIpcContainerInitializeRoot root queueMemory semaphoreMemory
      messageQueueInformation semaphoreInformation objects semaphores).containers =
        update empty.containers root
          (some (IpcContainer.initialRecords 3 1 10 20 queueMemory semaphoreMemory objects).1) := by
    rw [isEmpty]
    rfl
  refine emptySound.insert ⟨fun array _ => free array, fun array _ => free array, apart⟩ entered
    queuesNew semaphoresNew ?_
  rw [isEmpty]
  exact kept

theorem initializeRoot_records (kind : IpcKind)
    (found : (rtemsIpcContainerInitializeRoot root queueMemory semaphoreMemory
      messageQueueInformation semaphoreInformation objects semaphores).containers address =
        some container) :
    ∃ memory, container.RecordNew (rtemsIpcContainerInitializeRoot root queueMemory
      semaphoreMemory messageQueueInformation semaphoreInformation objects semaphores).objects
        kind memory := by
  obtain ⟨-, queuesNew, semaphoresNew, -⟩ :=
    IpcContainer.initialRecords_new 3 1 10 20 queueMemory semaphoreMemory objects
      ⟨by decide, by decide⟩ ⟨by decide, by decide⟩ apart
  have onlyRoot : container =
      (IpcContainer.initialRecords 3 1 10 20 queueMemory semaphoreMemory objects).1 := by
    by_cases same : address = root
    · simpa [rtemsIpcContainerInitializeRoot, same, eq_comm] using found
    · simp [rtemsIpcContainerInitializeRoot, same] at found
  rw [onlyRoot]
  cases kind with
  | messageQueue => exact ⟨_, queuesNew⟩
  | semaphore => exact ⟨_, semaphoresNew⟩

theorem initializeRoot_consistent (kind : IpcKind) :
    (rtemsIpcContainerInitializeRoot root queueMemory semaphoreMemory messageQueueInformation
      semaphoreInformation objects semaphores).KindConsistent kind := by
  intro address container found
  obtain ⟨memory, new⟩ := initializeRoot_records root messageQueueInformation
    semaphoreInformation objects semaphores apart kind found
  rcases new with cleared | ⟨count, array, -, consistent, -⟩
  · exact .inl cleared
  · exact .inr ⟨count, array, consistent⟩

end

end IpcSystem

end RTContainer.Score
