import RTContainer.Rtems.IpcRuns

/-! The semaphore tables of the IPC containers. A run records which identifiers
`rtems_semaphore_create` has issued in every container and
`rtems_semaphore_delete` has not taken back; `_Semaphore_Get` should resolve
exactly these. -/

set_option autoImplicit false

namespace RTContainer.Rtems

open RTContainer.Score RTContainer.Score.ObjectsInformation Machine Function

/-- The system with the identifiers issued in the container at each address. -/
structure IssuedIpc where
  system : IpcSystem
  issued : Nat → ObjectsId → Option ObjectAddress

namespace IssuedIpc

/-- The control block that `_Semaphore_Allocate` returns to a thread. -/
def semaphoreAllocate (system : IpcSystem) (executing : Executing) : Option ObjectAddress :=
  (system.informationOf .semaphore executing.ipcContainer).bind fun information =>
    (information.objectsAllocate system.objects).bind Prod.fst

/-- A successful create issues its identifier, a successful delete takes one
back, and a new container has issued none. -/
def issue (smp : Bool) (state : IssuedIpc) : IpcCall → Nat → ObjectsId → Option ObjectAddress
  | .containerCreate (some address) _ _ _ => update state.issued address fun _ => none
  | .semaphoreCreate executing arguments =>
    match rtemsSemaphoreCreate smp state.system executing arguments with
    | some (_, .ok id) =>
      update state.issued executing.ipcContainer
        (update (state.issued executing.ipcContainer) id (semaphoreAllocate state.system executing))
    | _ => state.issued
  | .semaphoreDelete executing id =>
    match rtemsSemaphoreDelete state.system executing id with
    | some (_, .successful) =>
      update state.issued executing.ipcContainer
        (update (state.issued executing.ipcContainer) id none)
    | _ => state.issued
  | _ => state.issued

def step (smp : Bool) (state : Option IssuedIpc) (call : IpcCall) : Option IssuedIpc :=
  state.bind fun current =>
    (call.perform smp current.system).map fun next => ⟨next, current.issue smp call⟩

/-- `_Semaphore_Get` resolves an identifier in a container exactly when it is
issued there, and to the block it was issued for. -/
def Resolves : Option IssuedIpc → Prop
  | none => False
  | some state => ∀ executing : Executing,
      (state.system.containers executing.ipcContainer).isSome →
        ∀ id, semaphoreGet state.system executing id = state.issued executing.ipcContainer id

def SemaphoreCall : IpcCall → Prop
  | .containerCreate .. | .containerDelete .. | .semaphoreCreate .. | .semaphoreDelete .. => True
  | _ => False

/-- What is promised of a semaphore run. -/
def Promised (state : Option IssuedIpc) (call : IpcCall) : Prop :=
  SemaphoreCall call ∧ ∀ current, state = some current → call.WellFormed current.system

/-- The calls that keep the tables: a create that gets as far as its allocation
finds an allocated record and does not fail afterwards, and the index of its
block exists in the global record; a delete returns before it closes anything. -/
def Keeps (smp : Bool) (system : IpcSystem) : IpcCall → Prop
  | .semaphoreCreate executing arguments =>
    ∀ variant container, semaphoreCheck smp arguments = .ok variant →
      system.containers executing.ipcContainer = some container →
        (container.info .semaphore).initialObjects.isSome ∧
          ∀ semaphore, semaphore ∈ (container.info .semaphore).inactiveChain.head? →
            (semaphoreInitialize executing variant arguments.count arguments.priorityCeiling).isOk ∧
            objectsGetIndex (system.objects semaphore).id ≤
              system.semaphoreInformation.objectsGetMaximumIndex
  | .semaphoreDelete executing id =>
    ∀ semaphore, semaphoreGet system executing id = some semaphore →
      SemaphoreControl.inUse (system.semaphores semaphore) = true
  | _ => True

/-- `Keeps` in the state of a run. -/
def Kept (smp : Bool) (state : Option IssuedIpc) (call : IpcCall) : Prop :=
  ∀ current, state = some current → Keeps smp current.system call

/-- The invariant behind `Resolves`. -/
structure Tracks (state : IssuedIpc) : Prop where
  sound : state.system.Sound
  consistent : state.system.KindConsistent .semaphore
  resolves : Resolves (some state)

def Tracked : Option IssuedIpc → Prop
  | none => False
  | some state => state.Tracks

section

variable {smp : Bool} {system : IpcSystem} {executing : Executing} {container : IpcContainer}
variable {count array : Nat}

theorem semaphoreGet_eq (found : system.containers executing.ipcContainer = some container)
    (id : ObjectsId) :
    semaphoreGet system executing id = (container.info .semaphore).objectsGet id := by
  simp [semaphoreGet, IpcSystem.informationOf, found]

theorem resolves_iff {state : IssuedIpc} :
    Resolves (some state) ↔ ∀ address container, state.system.containers address = some container →
      ∀ id, (container.info .semaphore).objectsGet id = state.issued address id := by
  constructor
  · intro resolves address container found id
    have resolved := resolves ⟨address, 0, fun priority => priority, 0⟩ (by simp [found]) id
    rwa [semaphoreGet_eq found] at resolved
  · intro resolves executing live id
    obtain ⟨container, found⟩ := Option.isSome_iff_exists.mp live
    rw [semaphoreGet_eq found]
    exact resolves executing.ipcContainer container found id

variable {semaphore : ObjectAddress} {rest : List ObjectAddress} {information : ObjectsInformation}
variable {memory : ObjectsMemory} {cls node : Nat} {arguments : SemaphoreArguments} {id : ObjectsId}

private theorem semaphoreAllocate_eq
    (record : system.Record .semaphore executing.ipcContainer container count array)
    (chain : (container.info .semaphore).inactiveChain = semaphore :: rest) :
    semaphoreAllocate system executing = some semaphore := by
  have allocated := record.shaped.objectsAllocate_eq record.handlers
  simp only [chain] at allocated
  simp [semaphoreAllocate, IpcSystem.informationOf, record.found, allocated]

theorem semaphoreEntered_objectsGet
    (consistent : Consistent information memory cls node count array)
    (chain : information.inactiveChain = semaphore :: rest) (id : ObjectsId) :
    (semaphoreEntered information semaphore rest).objectsGet id =
      update information.objectsGet (memory semaphore).id (some semaphore) id := by
  have own := consistent.chain_own semaphore (by rw [chain]; exact List.mem_cons_self)
  have nodup := consistent.chain_nodup
  rw [chain] at nodup
  have new : Consistent (semaphoreEntered information semaphore rest) memory cls node count array :=
    consistent.activate chain rfl rfl rfl rfl
  by_cases same : id = (memory semaphore).id
  · subst same
    rw [update_self]
    exact new.objectsGet_eq_some.mpr ⟨own, rfl, (List.nodup_cons.mp nodup).1⟩
  · rw [update_of_ne same]
    ext object
    rw [new.objectsGet_eq_some, consistent.objectsGet_eq_some]
    refine and_congr_right fun _ => and_congr_right fun named => ?_
    have different : object ≠ semaphore := by
      rintro rfl
      exact same named
    change object ∉ rest ↔ _
    rw [chain, List.mem_cons, not_or]
    exact ⟨fun off => ⟨different, off⟩, And.right⟩

theorem index_le_iff_opens (name : BitVec 32)
    (record : system.Record .semaphore executing.ipcContainer container count array)
    (inside : semaphore.array = array ∧ semaphore.position < count) :
    objectsGetIndex (system.objects semaphore).id ≤
        system.semaphoreInformation.objectsGetMaximumIndex ↔
      ∃ opened, system.semaphoreInformation.objectsOpenU32 system.objects semaphore name =
        some opened := by
  have index := record.shaped.index_eq inside
  have minimum : objectsIndexMinimum ≤ semaphore.position + 1 := by
    rw [objectsIndexMinimum]
    omega
  simp only [objectsOpenU32, objectsSetLocalObject, index, minimum, true_and]
  by_cases bound : semaphore.position + 1 ≤ system.semaphoreInformation.objectsGetMaximumIndex
  · simp [bound]
  · simp [bound]

theorem isOk_iff {status : Except StatusCode SemaphoreControl} :
    status.isOk = true ↔ ∃ control, status = .ok control := by
  cases status with
  | error | ok => simp [Except.isOk, Except.toBool]

variable {state : IssuedIpc}

theorem Tracks.semaphoreCreate (tracks : state.Tracks)
    (live : (state.system.containers executing.ipcContainer).isSome)
    (keeps : Keeps smp state.system (.semaphoreCreate executing arguments)) :
    ∃ next, step smp (some state) (.semaphoreCreate executing arguments) = some next ∧
      next.Tracks := by
  obtain ⟨container, found⟩ := Option.isSome_iff_exists.mp live
  have unchanged : ∀ status, rtemsSemaphoreCreate smp state.system executing arguments =
      some (state.system, .error status) →
        step smp (some state) (.semaphoreCreate executing arguments) = some state := by
    intro status performed
    simp [step, IpcCall.perform, issue, performed]
  cases check : semaphoreCheck smp arguments with
  | error status =>
    exact ⟨state, unchanged status (rtemsSemaphoreCreate_refused check), tracks⟩
  | ok variant =>
    obtain ⟨built, head⟩ := keeps variant container check found
    rcases consistent_record tracks.sound tracks.consistent found with
      cleared | ⟨count, array, record, consistent⟩
    · rw [cleared] at built
      cases built
    cases chain : (container.info .semaphore).inactiveChain with
    | nil =>
      exact ⟨state, unchanged .tooMany (rtemsSemaphoreCreate_exhausted check record chain), tracks⟩
    | cons semaphore rest =>
      obtain ⟨initializes, indexed⟩ := head semaphore (by simp [chain])
      obtain ⟨control, initialized⟩ := isOk_iff.mp initializes
      have own := record.shaped.chain_own semaphore (by rw [chain]; exact List.mem_cons_self)
      obtain ⟨⟨opened, objects⟩, opening⟩ :=
        (index_le_iff_opens arguments.name record own).mp indexed
      have performed := rtemsSemaphoreCreate_opened check record chain initialized
      rw [opening, Option.map_some] at performed
      refine ⟨⟨semaphoreCreated state.system executing (container.info .semaphore) semaphore
        rest control opened objects, state.issue smp (.semaphoreCreate executing arguments)⟩,
        by simp [step, IpcCall.perform, performed], ?_, ?_, ?_⟩
      · exact semaphoreCreate_sound tracks.sound live performed
      · exact tracks.consistent.replace (IpcSystem.setInfo_containers found)
          (objectsOpenU32_ids opening) (consistent.activate chain rfl rfl rfl rfl)
      · rw [resolves_iff]
        intro address addressContainer addressFound id
        have resolved := resolves_iff.mp tracks.resolves
        simp only [issue, performed, semaphoreAllocate_eq record chain]
        have containersEq : (semaphoreCreated state.system executing
            (container.info .semaphore) semaphore rest control opened objects).containers =
            update state.system.containers executing.ipcContainer
              (some (container.setInfo .semaphore
                (semaphoreEntered (container.info .semaphore) semaphore rest))) :=
          IpcSystem.setInfo_containers found
        rw [containersEq] at addressFound
        by_cases same : address = executing.ipcContainer
        · rw [same, update_self, Option.some.injEq] at addressFound
          subst addressContainer
          rw [same, update_self, IpcContainer.setInfo_same,
            semaphoreEntered_objectsGet consistent chain]
          have old : (container.info .semaphore).objectsGet = state.issued executing.ipcContainer :=
            funext fun other => resolved executing.ipcContainer container found other
          rw [old]
        · rw [update_of_ne same] at addressFound ⊢
          exact resolved address addressContainer addressFound id

theorem Tracks.semaphoreDelete (tracks : state.Tracks)
    (keeps : Keeps smp state.system (.semaphoreDelete executing id)) :
    ∃ next, step smp (some state) (.semaphoreDelete executing id) = some next ∧ next.Tracks := by
  obtain ⟨status, unsuccessful, performed⟩ := rtemsSemaphoreDelete_refused keeps
  refine ⟨state, ?_, tracks⟩
  cases status with
  | successful => exact absurd rfl unsuccessful
  | _ => simp [step, IpcCall.perform, issue, performed]

theorem new_objectsGet {kind : IpcKind} {allocated : InfoMemory}
    (new : container.RecordNew memory kind allocated) (id : ObjectsId) :
    (container.info kind).objectsGet id = none := by
  rcases new with cleared | ⟨count, array, -, consistent, -, chain⟩
  · rw [cleared, zeroed_objectsGet]
  · cases resolved : (container.info kind).objectsGet id with
    | none => rfl
    | some object =>
      obtain ⟨⟨sameArray, inside⟩, -, off⟩ := consistent.objectsGet_eq_some.mp resolved
      refine absurd ?_ off
      rw [chain, List.mem_map]
      obtain ⟨objectArray, position⟩ := object
      subst sameArray
      exact ⟨position, List.mem_range.mpr inside, rfl⟩

theorem Tracks.containerCreate {address : Option Nat} {queueMemory semaphoreMemory : InfoMemory}
    {listNode : Bool} (tracks : state.Tracks)
    (memoryFresh : state.system.MemoryFresh queueMemory semaphoreMemory) :
    ∃ next, step smp (some state)
        (.containerCreate address queueMemory semaphoreMemory listNode) = some next ∧
      next.Tracks := by
  refine ⟨_, rfl, tracks.sound.create memoryFresh, tracks.consistent.create memoryFresh, ?_⟩
  rw [resolves_iff]
  have resolved := resolves_iff.mp tracks.resolves
  cases address with
  | none => exact resolved
  | some address =>
    obtain ⟨⟨container, containersEq, -, semaphoresNew⟩, -⟩ :=
      IpcSystem.create_records address listNode memoryFresh
    intro other otherContainer otherFound id
    rw [containersEq] at otherFound
    simp only [issue]
    by_cases same : other = address
    · rw [same, update_self, Option.some.injEq] at otherFound
      subst otherContainer
      rw [same, update_self]
      exact new_objectsGet semaphoresNew id
    · rw [update_of_ne same] at otherFound ⊢
      exact resolved other otherContainer otherFound id

theorem Tracks.containerDelete {deleted : Option Nat} (tracks : state.Tracks) :
    ∃ next, step smp (some state) (.containerDelete deleted) = some next ∧ next.Tracks := by
  refine ⟨_, rfl, tracks.sound.delete, tracks.consistent.delete, ?_⟩
  rw [resolves_iff]
  intro address addressContainer found id
  exact resolves_iff.mp tracks.resolves address addressContainer
    (IpcSystem.delete_containers_some found) id

theorem tracked_step {call : IpcCall} {before : Option IssuedIpc} (tracked : Tracked before)
    (promised : Promised before call) (kept : Kept smp before call) :
    Tracked (step smp before call) := by
  cases before with
  | none => cases tracked
  | some state =>
    have wellFormed := promised.2 state rfl
    have keeps := kept state rfl
    have next : ∃ next, step smp (some state) call = some next ∧ next.Tracks := by
      cases call with
      | containerCreate address queueMemory semaphoreMemory listNode =>
        exact Tracks.containerCreate tracked wellFormed.2
      | containerDelete deleted => exact Tracks.containerDelete tracked
      | semaphoreCreate executing arguments =>
        exact Tracks.semaphoreCreate tracked (wellFormed executing rfl) keeps
      | semaphoreDelete executing id => exact Tracks.semaphoreDelete tracked keeps
      | _ => exact promised.1.elim
    obtain ⟨next, reached, tracks⟩ := next
    rw [reached]
    exact tracks

theorem semaphoreReleased_objectsGet (shaped : Shaped information memory cls node count array)
    (own : semaphore.array = array ∧ semaphore.position < count)
    (off : semaphore ∉ information.inactiveChain)
    (slot : information.localTable[semaphore.position]? = some (some semaphore)) :
    (semaphoreReleased information semaphore).objectsGet (memory semaphore).id =
      some semaphore := by
  refine (semaphoreReleased_shaped shaped own off).objectsGet_eq_some.mpr ⟨own, rfl, ?_⟩
  change (information.localTable.set (semaphore.position + 1) none)[semaphore.position]? = _
  rw [List.getElem?_set_ne (by omega), slot]

theorem Tracks.semaphoreCreate_missed (tracks : state.Tracks)
    (missed : ¬ Keeps smp state.system (.semaphoreCreate executing arguments)) :
    ¬ Resolves (step smp (some state) (.semaphoreCreate executing arguments)) := by
  simp only [Keeps, not_forall] at missed
  obtain ⟨variant, container, check, found, missed⟩ := missed
  have faulty : rtemsSemaphoreCreate smp state.system executing arguments = none →
      ¬ Resolves (step smp (some state) (.semaphoreCreate executing arguments)) := by
    intro performed
    simp [step, IpcCall.perform, performed, Resolves]
  rcases consistent_record tracks.sound tracks.consistent found with
    cleared | ⟨count, array, record, consistent⟩
  · exact faulty (rtemsSemaphoreCreate_zeroed check found cleared)
  have built : (container.info .semaphore).initialObjects.isSome := by
    rw [consistent.initial]
    rfl
  obtain ⟨semaphore, missed⟩ := not_forall.mp (not_and.mp missed built)
  obtain ⟨isHead, missed⟩ := Classical.not_imp.mp missed
  obtain ⟨rest, chain⟩ : ∃ rest, (container.info .semaphore).inactiveChain = semaphore :: rest :=
    List.head?_eq_some_iff.mp isHead
  have own := record.shaped.chain_own semaphore (by rw [chain]; exact List.mem_cons_self)
  have nodup := record.shaped.chain_nodup
  rw [chain] at nodup
  cases initialized : semaphoreInitialize executing variant arguments.count
      arguments.priorityCeiling with
  | error status =>
    have performed := rtemsSemaphoreCreate_failed check record chain initialized
    simp only [step, IpcCall.perform, issue, performed, Option.map_some, Option.bind_some]
    intro resolves
    have stale := resolves_iff.mp resolves executing.ipcContainer
      (container.setInfo .semaphore (semaphoreReleased
        (semaphoreEntered (container.info .semaphore) semaphore rest) semaphore))
      (by simp [semaphoreCreateFailed, IpcSystem.setInfo, found])
      (state.system.objects semaphore).id
    have unissued : state.issued executing.ipcContainer (state.system.objects semaphore).id =
        none := by
      rw [← resolves_iff.mp tracks.resolves executing.ipcContainer container found]
      cases resolved : (container.info .semaphore).objectsGet
          (state.system.objects semaphore).id with
      | none => rfl
      | some object =>
        obtain ⟨objectOwn, named, active⟩ := consistent.objectsGet_eq_some.mp resolved
        obtain ⟨objectArray, position⟩ := object
        obtain ⟨semaphoreArray, semaphorePosition⟩ := semaphore
        obtain ⟨rfl, inside⟩ := objectOwn
        obtain ⟨rfl, semaphoreInside⟩ := own
        have same := consistent.toDescribes.id_injective semaphoreInside inside named
        simp only at same
        subst same
        exact absurd (by rw [chain]; exact List.mem_cons_self) active
    have slot : (semaphoreEntered (container.info .semaphore) semaphore
        rest).localTable[semaphore.position]? = some (some semaphore) := by
      refine List.getElem?_set_self ?_
      rw [record.shaped.table_length]
      omega
    rw [IpcContainer.setInfo_same, semaphoreReleased_objectsGet
      (semaphoreEntered_shaped record.shaped chain) own (List.nodup_cons.mp nodup).1 slot,
      unissued] at stale
    cases stale
  | ok control =>
    refine faulty ?_
    rw [rtemsSemaphoreCreate_opened check record chain initialized]
    have unopened : ¬ ∃ opened, state.system.semaphoreInformation.objectsOpenU32
        state.system.objects semaphore arguments.name = some opened := by
      rw [← index_le_iff_opens arguments.name record own]
      intro indexed
      exact missed ⟨by simp [initialized, Except.isOk, Except.toBool], indexed⟩
    rw [Option.eq_none_iff_forall_not_mem.mpr fun opened opens => unopened ⟨opened, opens⟩]
    rfl

theorem Tracks.semaphoreDelete_missed (tracks : state.Tracks)
    (live : (state.system.containers executing.ipcContainer).isSome)
    (missed : ¬ Keeps smp state.system (.semaphoreDelete executing id)) :
    ¬ Resolves (step smp (some state) (.semaphoreDelete executing id)) := by
  obtain ⟨container, found⟩ := Option.isSome_iff_exists.mp live
  obtain ⟨semaphore, missed⟩ := not_forall.mp missed
  obtain ⟨got, idle⟩ := Classical.not_imp.mp missed
  have reached := got
  rw [semaphoreGet_eq found] at reached
  rcases consistent_record tracks.sound tracks.consistent found with
    cleared | ⟨count, array, record, consistent⟩
  · rw [cleared, zeroed_objectsGet] at reached
    cases reached
  obtain ⟨own, named, off⟩ := consistent.objectsGet_eq_some.mp reached
  obtain ⟨-, -, slot⟩ := record.shaped.objectsGet_eq_some.mp reached
  have performed := rtemsSemaphoreDelete_closed record got (by simpa using idle)
  cases closing : state.system.semaphoreInformation.objectsClose state.system.objects semaphore with
  | none =>
    rw [closing] at performed
    simp [step, IpcCall.perform, performed, Resolves]
  | some closed =>
    rw [closing, Option.bind_some, if_neg off] at performed
    simp only [step, IpcCall.perform, issue, performed, Option.map_some, Option.bind_some]
    intro resolves
    have stale := resolves_iff.mp resolves executing.ipcContainer
      (container.setInfo .semaphore (semaphoreReleased (container.info .semaphore) semaphore))
      (by simp [semaphoreDeleted, IpcSystem.setInfo, found]) id
    rw [IpcContainer.setInfo_same, named,
      semaphoreReleased_objectsGet record.shaped own off slot] at stale
    simp at stale

end

end IssuedIpc

open IssuedIpc

section

variable (smp : Bool) (root : Nat) {queueMemory semaphoreMemory : InfoMemory}
  (apart : ∀ array, queueMemory.objects = some array → semaphoreMemory.objects ≠ some array)
  (messageQueueInformation semaphoreInformation : ObjectsInformation) (objects : ObjectsMemory)
  (semaphores : ObjectAddress → SemaphoreControl)
include apart

theorem IssuedIpc.initial_tracked :
    Tracked (some ⟨IpcSystem.rtemsIpcContainerInitializeRoot root queueMemory semaphoreMemory
      messageQueueInformation semaphoreInformation objects semaphores, fun _ _ => none⟩) := by
  refine ⟨IpcSystem.initializeRoot_sound root messageQueueInformation semaphoreInformation objects
    semaphores apart, IpcSystem.initializeRoot_consistent root messageQueueInformation
    semaphoreInformation objects semaphores apart .semaphore, ?_⟩
  rw [resolves_iff]
  intro address container found id
  obtain ⟨memory, new⟩ := IpcSystem.initializeRoot_records root messageQueueInformation
    semaphoreInformation objects semaphores apart .semaphore found
  exact new_objectsGet new id

/-- A semaphore run resolves exactly the issued identifiers throughout if and
only if no create fails once it has allocated its block, the global record has
the index of every block that is created, and no delete gets past its checks. -/
theorem semaphoreRun_resolves_iff (calls : List IpcCall)
    (promised : Meets (IssuedIpc.step smp) Promised
      (some ⟨IpcSystem.rtemsIpcContainerInitializeRoot root queueMemory semaphoreMemory
        messageQueueInformation semaphoreInformation objects semaphores, fun _ _ => none⟩) calls) :
    Throughout (IssuedIpc.step smp) Resolves
        (some ⟨IpcSystem.rtemsIpcContainerInitializeRoot root queueMemory semaphoreMemory
          messageQueueInformation semaphoreInformation objects semaphores, fun _ _ => none⟩)
        calls ↔
      Meets (IssuedIpc.step smp) (Kept smp)
        (some ⟨IpcSystem.rtemsIpcContainerInitializeRoot root queueMemory semaphoreMemory
          messageQueueInformation semaphoreInformation objects semaphores, fun _ _ => none⟩)
        calls := by
  refine throughout_iff_meets Tracked ?_ promised ?_ ?_ ?_
  · exact initial_tracked root apart messageQueueInformation semaphoreInformation objects semaphores
  · intro state call tracked promised kept
    exact tracked_step tracked promised kept
  · intro state tracked
    cases state with
    | none => exact tracked
    | some current => exact tracked.resolves
  · intro state call tracked promised missed
    cases state with
    | none => exact tracked.elim
    | some current =>
      have missed : ¬ Keeps smp current.system call := by
        intro keeps
        exact missed fun other same => Option.some.inj same ▸ keeps
      have wellFormed := promised.2 current rfl
      cases call with
      | semaphoreCreate executing arguments => exact Tracks.semaphoreCreate_missed tracked missed
      | semaphoreDelete executing id =>
        exact Tracks.semaphoreDelete_missed tracked (wellFormed executing rfl) missed
      | _ => exact absurd trivial missed

end

/-- `rtems_semaphore_create` of a counting semaphore by a thread of the root container. -/
def createCounting (name : BitVec 32) : IpcCall :=
  .semaphoreCreate rootThread ⟨name, 1, rtemsCountingSemaphore, 0, true⟩

/-- Two semaphores of the root container that stay live resolve. -/
theorem twoCreates_resolve :
    Throughout (IssuedIpc.step false) Resolves (some ⟨configuredIpcSystem, fun _ _ => none⟩)
      [createCounting 1, createCounting 2] := by
  refine (semaphoreRun_resolves_iff false 0 configuredIpcSystem_apart _ _ _ _ _ ?_).mpr ?_
  · refine ⟨⟨trivial, ?_⟩, ⟨trivial, ?_⟩, trivial⟩
    · rintro _ ⟨⟩ _ ⟨⟩
      rfl
    · rintro _ ⟨⟩ _ ⟨⟩
      rfl
  · refine ⟨?_, ?_, trivial⟩
    · rintro _ ⟨⟩ variant container check ⟨⟩
      refine ⟨rfl, ?_⟩
      rintro _ ⟨⟩
      cases check
      decide
    · rintro _ ⟨⟩ variant container check ⟨⟩
      refine ⟨rfl, ?_⟩
      rintro _ ⟨⟩
      cases check
      decide

/-- The identifier of the first semaphore of the root container. -/
def firstSemaphoreId : ObjectsId :=
  objectsBuildId objectsClassicApi objectsRtemsSemaphores 1 1

/-- A semaphore that is created and deleted again still resolves. -/
theorem createdAndDeleted_resolves :
    Meets (IssuedIpc.step false) Promised (some ⟨configuredIpcSystem, fun _ _ => none⟩)
        [createCounting 1, .semaphoreDelete rootThread firstSemaphoreId] ∧
      ¬ Throughout (IssuedIpc.step false) Resolves
        (some ⟨configuredIpcSystem, fun _ _ => none⟩)
        [createCounting 1, .semaphoreDelete rootThread firstSemaphoreId] := by
  constructor
  · refine ⟨⟨trivial, ?_⟩, ⟨trivial, ?_⟩, trivial⟩
    · rintro _ ⟨⟩ _ ⟨⟩
      rfl
    · rintro _ ⟨⟩ _ ⟨⟩
      rfl
  · intro always
    have resolved := always.final rootThread rfl firstSemaphoreId
    revert resolved
    decide +kernel

end RTContainer.Rtems
