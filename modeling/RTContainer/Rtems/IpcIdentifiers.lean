import RTContainer.Rtems.IpcRuns

/-! The identifiers of the objects in IPC containers. The container identifier
is or-ed into the node field, so identifiers of live containers stay apart only
as long as it fits and its low byte is not taken. -/

set_option autoImplicit false

namespace RTContainer.Rtems

open RTContainer.Score RTContainer.Score.ObjectsInformation Machine

def recordIds (system : IpcSystem) (information : ObjectsInformation) : List ObjectsId :=
  match information.initialObjects with
  | none => []
  | some array =>
    (List.range information.objectsGetMaximumIndex).map fun position =>
      (system.objects ⟨array, position⟩).id

/-- Every identifier decodes to its own API, class and index, and those of two
live containers differ: looking one up in a record of the other finds nothing. -/
structure Unambiguous (system : IpcSystem) : Prop where
  decodes : ∀ address container kind position id,
    system.containers address = some container →
      (recordIds system (container.info kind))[position]? = some id →
        objectsGetApi id = objectsClassicApi ∧ objectsGetClass id = kind.cls ∧
          objectsGetIndex id = position + 1
  apart : ∀ left right leftContainer rightContainer leftKind rightKind id, left ≠ right →
    system.containers left = some leftContainer → system.containers right = some rightContainer →
      id ∈ recordIds system (leftContainer.info leftKind) →
        id ∉ recordIds system (rightContainer.info rightKind) ∧
          (rightContainer.info rightKind).objectsGet id = none

/-- The container identifiers fit: in every live container that has a record of
a kind no bit above the node field changes API or class, and the low bytes of
two containers that both have one differ. -/
structure NodesDistinct (system : IpcSystem) : Prop where
  fits : ∀ address container kind, system.containers address = some container →
    (container.info kind).initialObjects.isSome → NodeFits kind.cls container.containerID
  distinct : ∀ left right leftContainer rightContainer kind, left ≠ right →
    system.containers left = some leftContainer → system.containers right = some rightContainer →
      (leftContainer.info kind).initialObjects.isSome →
        (rightContainer.info kind).initialObjects.isSome →
          leftContainer.containerID % 256 ≠ rightContainer.containerID % 256

theorem ipcKind_cls (kind : IpcKind) : IpcClass kind.cls := by
  cases kind with
  | messageQueue => exact .inr rfl
  | semaphore => exact .inl rfl

private theorem ipcKind_cls_injective {left right : IpcKind} (same : left.cls = right.cls) :
    left = right := by
  cases left <;> cases right <;> first | rfl | cases same

section

variable {system : IpcSystem}

variable {information : ObjectsInformation} {cls node count array : Nat} {id : ObjectsId}

theorem recordIds_getElem (describes : Describes information system.objects cls node count array)
    {position : Nat} :
    (recordIds system information)[position]? = some id ↔
      position < count ∧ id = objectsBuildId objectsClassicApi cls node (position + 1) := by
  simp only [recordIds, describes.initial, describes.objectsGetMaximumIndex_eq,
    List.getElem?_map, Option.map_eq_some_iff, List.getElem?_eq_some_iff,
    List.length_range, List.getElem_range]
  constructor
  · rintro ⟨other, ⟨inside, rfl⟩, rfl⟩
    exact ⟨inside, describes.ids position inside⟩
  · rintro ⟨inside, rfl⟩
    exact ⟨position, ⟨inside, rfl⟩, describes.ids position inside⟩

theorem mem_recordIds (describes : Describes information system.objects cls node count array) :
    id ∈ recordIds system information ↔
      ∃ position, position < count ∧
        id = objectsBuildId objectsClassicApi cls node (position + 1) := by
  rw [List.mem_iff_getElem?]
  exact exists_congr fun position => recordIds_getElem describes

theorem buildId_high {index otherCls otherNode otherIndex : Nat} (fits : index < 65536)
    (otherFits : otherIndex < 65536) (same : objectsBuildId objectsClassicApi cls node index =
      objectsBuildId objectsClassicApi otherCls otherNode otherIndex) :
    objectsIdHigh objectsClassicApi cls node =
      objectsIdHigh objectsClassicApi otherCls otherNode := by
  have values := congrArg BitVec.toNat same
  rw [objectsBuildId_toNat fits, objectsBuildId_toNat otherFits] at values
  omega

theorem unambiguous_iff_nodesDistinct (sound : system.Sound) :
    Unambiguous system ↔ NodesDistinct system := by
  have described : ∀ address container kind, system.containers address = some container →
      (container.info kind).initialObjects.isSome →
        ∃ count array, Describes (container.info kind) system.objects kind.cls
          container.containerID count array := by
    intro address container kind found built
    rcases sound.records address container kind found with cleared | ⟨count, array, shaped, -⟩
    · rw [cleared] at built
      cases built
    · exact ⟨count, array, shaped.toDescribes⟩
  have member : ∀ address container kind id, system.containers address = some container →
      id ∈ recordIds system (container.info kind) →
        (container.info kind).initialObjects.isSome := by
    intro address container kind id found listed
    cases initial : (container.info kind).initialObjects with
    | none => simp [recordIds, initial] at listed
    | some array => rfl
  constructor
  · intro unambiguous
    have fits : ∀ address container kind, system.containers address = some container →
        (container.info kind).initialObjects.isSome → NodeFits kind.cls container.containerID := by
      intro address container kind found built
      obtain ⟨count, array, describes⟩ := described address container kind found built
      have decoded := unambiguous.decodes address container kind 0 _ found
        ((recordIds_getElem describes).mpr ⟨describes.count_pos, rfl⟩)
      exact (objectsBuildId_decodes (ipcKind_cls kind) (by decide)).mp ⟨decoded.1, decoded.2.1⟩
    refine ⟨fits, ?_⟩
    intro left right leftContainer rightContainer kind different leftFound rightFound leftBuilt
      rightBuilt sameLow
    obtain ⟨leftCount, leftArray, leftDescribes⟩ :=
      described left leftContainer kind leftFound leftBuilt
    obtain ⟨rightCount, rightArray, rightDescribes⟩ :=
      described right rightContainer kind rightFound rightBuilt
    have leftFits := (nodeFits_iff (ipcKind_cls kind)).mp
      (fits left leftContainer kind leftFound leftBuilt)
    have rightFits := (nodeFits_iff (ipcKind_cls kind)).mp
      (fits right rightContainer kind rightFound rightBuilt)
    have leftLow := objectsIdHigh_mod objectsClassicApi kind.cls leftContainer.containerID
    have rightLow := objectsIdHigh_mod objectsClassicApi kind.cls rightContainer.containerID
    have sameId : objectsBuildId objectsClassicApi kind.cls leftContainer.containerID 1 =
        objectsBuildId objectsClassicApi kind.cls rightContainer.containerID 1 := by
      apply BitVec.eq_of_toNat_eq
      rw [objectsBuildId_toNat (by decide), objectsBuildId_toNat (by decide)]
      omega
    have apart := unambiguous.apart left right leftContainer rightContainer kind kind _ different
      leftFound rightFound ((mem_recordIds leftDescribes).mpr ⟨0, leftDescribes.count_pos, rfl⟩)
    exact apart.1 ((mem_recordIds rightDescribes).mpr ⟨0, rightDescribes.count_pos, sameId⟩)
  · intro distinct
    constructor
    · intro address container kind position id found listed
      have built := member address container kind id found (List.mem_of_getElem? listed)
      obtain ⟨count, array, describes⟩ := described address container kind found built
      obtain ⟨inside, rfl⟩ := (recordIds_getElem describes).mp listed
      have bound := describes.count_lt
      have decoded := (objectsBuildId_decodes (ipcKind_cls kind)
        (show position + 1 < 65536 by omega)).mpr (distinct.fits address container kind found built)
      exact ⟨decoded.1, decoded.2, objectsBuildId_index (by omega)⟩
    · intro left right leftContainer rightContainer leftKind rightKind id different leftFound
        rightFound listed
      have leftBuilt := member left leftContainer leftKind id leftFound listed
      obtain ⟨leftCount, leftArray, leftDescribes⟩ :=
        described left leftContainer leftKind leftFound leftBuilt
      obtain ⟨leftPosition, leftInside, leftId⟩ := (mem_recordIds leftDescribes).mp listed
      have leftBound := leftDescribes.count_lt
      have leftDecoded := (objectsBuildId_decodes (ipcKind_cls leftKind)
        (show leftPosition + 1 < 65536 by omega)).mpr
          (distinct.fits left leftContainer leftKind leftFound leftBuilt)
      have absent : id ∉ recordIds system (rightContainer.info rightKind) := by
        intro rightListed
        have rightBuilt := member right rightContainer rightKind id rightFound rightListed
        obtain ⟨rightCount, rightArray, rightDescribes⟩ :=
          described right rightContainer rightKind rightFound rightBuilt
        obtain ⟨rightPosition, rightInside, rightId⟩ :=
          (mem_recordIds rightDescribes).mp rightListed
        have rightBound := rightDescribes.count_lt
        have rightDecoded := (objectsBuildId_decodes (ipcKind_cls rightKind)
          (show rightPosition + 1 < 65536 by omega)).mpr
            (distinct.fits right rightContainer rightKind rightFound rightBuilt)
        have sameKind : leftKind = rightKind := by
          apply ipcKind_cls_injective
          rw [← leftDecoded.2, ← rightDecoded.2, ← leftId, ← rightId]
        subst sameKind
        have high := buildId_high (by omega) (by omega) (leftId.symm.trans rightId)
        have leftLow := objectsIdHigh_mod objectsClassicApi leftKind.cls leftContainer.containerID
        have rightLow :=
          objectsIdHigh_mod objectsClassicApi leftKind.cls rightContainer.containerID
        refine distinct.distinct left right leftContainer rightContainer leftKind different
          leftFound rightFound leftBuilt rightBuilt ?_
        rw [← leftLow, ← rightLow, high]
      refine ⟨absent, ?_⟩
      rcases sound.records right rightContainer rightKind rightFound with
        cleared | ⟨count, array, shaped, -⟩
      · rw [cleared, zeroed_objectsGet]
      · rcases shaped.toDescribes.objectsGet_eq id with ⟨position, inside, named, -⟩ | ⟨-, missed⟩
        · have listedThere : id ∈ recordIds system (rightContainer.info rightKind) := by
            rw [mem_recordIds shaped.toDescribes]
            exact ⟨position, inside, named.trans (shaped.ids position inside)⟩
          exact absurd listedThere absent
        · exact missed

end

/-- In every state that a history of calls reaches, the identifiers of the live
containers are unambiguous exactly when their container identifiers fit the node
field and have different low bytes. -/
theorem ipcRun_unambiguous_iff (smp : Bool) (root : Nat) {queueMemory semaphoreMemory : InfoMemory}
    (apart : ∀ array, queueMemory.objects = some array → semaphoreMemory.objects ≠ some array)
    (messageQueueInformation semaphoreInformation : ObjectsInformation) (objects : ObjectsMemory)
    (semaphores : ObjectAddress → SemaphoreControl) (calls : List IpcCall) {system : IpcSystem}
    (promised : Meets (IpcCall.step smp) IpcCall.Promised
      (some (IpcSystem.rtemsIpcContainerInitializeRoot root queueMemory semaphoreMemory
        messageQueueInformation semaphoreInformation objects semaphores)) calls)
    (reached : run (IpcCall.step smp)
      (some (IpcSystem.rtemsIpcContainerInitializeRoot root queueMemory semaphoreMemory
        messageQueueInformation semaphoreInformation objects semaphores)) calls = some system) :
    Unambiguous system ↔ NodesDistinct system :=
  unambiguous_iff_nodesDistinct (run_sound (IpcSystem.initializeRoot_sound root
    messageQueueInformation semaphoreInformation objects semaphores apart) promised reached)

/-- The first container that is created: identifier 2 fits. -/
theorem container2_unambiguous :
    ∃ system, run (IpcCall.step false) (some configuredIpcSystem)
        [.containerCreate (some 1) ⟨some 3, true⟩ ⟨some 4, true⟩ true] = some system ∧
      Unambiguous system := by
  refine ⟨_, rfl, ?_⟩
  refine (ipcRun_unambiguous_iff false 0 configuredIpcSystem_apart _ _ _ _
    [.containerCreate (some 1) ⟨some 3, true⟩ ⟨some 4, true⟩ true]
    ?_ rfl).mpr ?_
  · refine ⟨?_, trivial⟩
    rintro _ ⟨⟩
    refine ⟨?_, ?_, ?_, ?_⟩
    · rintro _ ⟨⟩
      rfl
    · rintro _ ⟨⟩
      exact configuredIpcSystem_arrayFree (by decide) (by decide)
    · rintro _ ⟨⟩
      exact configuredIpcSystem_arrayFree (by decide) (by decide)
    · rintro _ ⟨⟩
      decide
  · constructor
    · intro address container kind found _
      match address with
      | 0 | 1 => cases found; cases kind <;> decide
      | address + 2 => cases found
    · intro left right leftContainer rightContainer kind different leftFound rightFound _ _
      match left, right with
      | 0, 0 => exact absurd rfl different
      | 1, 1 => exact absurd rfl different
      | 0, 1 => cases leftFound; cases rightFound; decide
      | 1, 0 => cases leftFound; cases rightFound; decide
      | left + 2, _ => cases leftFound
      | _, right + 2 => cases rightFound

/-- One container that is created and deleted again; none of its records can be
allocated. -/
def churn : List IpcCall :=
  [.containerCreate (some 1) ⟨none, false⟩ ⟨none, false⟩ true, .containerDelete (some 1)]

theorem churn_run {smp : Bool} {system : IpcSystem} (away : system.root ≠ 1)
    (free : system.containers 1 = none) :
    Meets (IpcCall.step smp) IpcCall.Promised (some system) churn ∧
      run (IpcCall.step smp) (some system) churn =
        some { system with ipcContainerIdCounter := system.ipcContainerIdCounter + 1 } := by
  constructor
  · refine ⟨?_, ?_, trivial⟩
    · rintro _ ⟨⟩
      refine ⟨?_, ?_, ?_, ?_⟩
      · rintro _ ⟨⟩
        exact free
      · rintro _ ⟨⟩
      · rintro _ ⟨⟩
      · rintro _ ⟨⟩
    · rintro _ ⟨⟩ _ ⟨⟩
      simp [IpcSystem.rtemsIpcContainerCreate]
  · have same : Function.update system.containers 1 none = system.containers := by
      rw [← free, Function.update_eq_self]
    have away : ¬ 1 = system.root := Ne.symm away
    simp [churn, IpcCall.step, IpcCall.perform, IpcSystem.rtemsIpcContainerCreate,
      IpcSystem.rtemsIpcContainerDelete, away, IpcContainer.initialRecords,
      IpcContainer.initializeRtemsMessageQueueInfo, IpcContainer.initializeSemaphoreInfo,
      IpcContainer.initializeInfo, same]

theorem churns_run {smp : Bool} (rounds : Nat) {system : IpcSystem} (away : system.root ≠ 1)
    (free : system.containers 1 = none) :
    Meets (IpcCall.step smp) IpcCall.Promised (some system)
        (List.replicate rounds churn).flatten ∧
      run (IpcCall.step smp) (some system) (List.replicate rounds churn).flatten =
        some { system with ipcContainerIdCounter := system.ipcContainerIdCounter + rounds } := by
  induction rounds generalizing system with
  | zero => exact ⟨meets_nil _, rfl⟩
  | succ rounds ih =>
    obtain ⟨met, reached⟩ := churn_run away free
    obtain ⟨laterMet, laterReached⟩ := @ih
      { system with ipcContainerIdCounter := system.ipcContainerIdCounter + 1 } away free
    rw [List.replicate_succ, List.flatten_cons, meets_append, run_append, reached]
    refine ⟨⟨met, laterMet⟩, laterReached.trans ?_⟩
    rw [Nat.add_assoc, Nat.add_comm 1 rounds]

/-- The container that follows 254 others has identifier 256, which changes the
API of its identifiers. -/
theorem container256_ambiguous :
    ∃ system, Meets (IpcCall.step false) IpcCall.Promised (some configuredIpcSystem)
        ((List.replicate 254 churn).flatten ++
          [.containerCreate (some 1) ⟨some 3, true⟩ ⟨some 4, true⟩ true]) ∧
      run (IpcCall.step false) (some configuredIpcSystem)
        ((List.replicate 254 churn).flatten ++
          [.containerCreate (some 1) ⟨some 3, true⟩ ⟨some 4, true⟩ true]) = some system ∧
      ¬ Unambiguous system := by
  have away : configuredIpcSystem.root ≠ 1 := by decide
  obtain ⟨met, reached⟩ := @churns_run false 254 configuredIpcSystem away
    (configuredIpcSystem_containers 1 (by decide))
  refine ⟨{ configuredIpcSystem with ipcContainerIdCounter := 255 }.rtemsIpcContainerCreate (some 1)
    ⟨some 3, true⟩ ⟨some 4, true⟩ true, ?_, ?_, ?_⟩
  · rw [meets_append, reached]
    refine ⟨met, ?_, trivial⟩
    rintro _ ⟨⟩
    refine ⟨?_, ?_, ?_, ?_⟩
    · rintro _ ⟨⟩
      exact configuredIpcSystem_containers 1 (by decide)
    · rintro _ ⟨⟩
      exact configuredIpcSystem_arrayFree (by decide) (by decide)
    · rintro _ ⟨⟩
      exact configuredIpcSystem_arrayFree (by decide) (by decide)
    · rintro _ ⟨⟩
      decide
  · rw [run_append, reached]
    rfl
  · intro unambiguous
    have decoded := unambiguous.decodes 1 _ .semaphore 0 _ rfl rfl
    revert decoded
    decide +kernel

end RTContainer.Rtems
