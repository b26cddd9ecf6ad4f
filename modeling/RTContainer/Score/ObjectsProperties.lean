import Mathlib.Data.List.Nodup
import RTContainer.Score.IpcContainer

/-! Information records that describe an array of control blocks: every block
has the identifier of its position, and is either on the `Inactive` chain or in
its slot of the table. -/

set_option autoImplicit false

namespace RTContainer.Score

namespace ObjectsInformation

/-- The record and the memory that describe the identifiers of `count` control
blocks of a class and node in the array at `array`. -/
structure Describes (information : ObjectsInformation) (memory : ObjectsMemory)
    (cls node count array : Nat) : Prop where
  count_pos : 0 < count
  count_lt : count < 65535
  maximum : information.maximumId = objectsBuildId objectsClassicApi cls node count
  initial : information.initialObjects = some array
  ids : ∀ position, position < count →
    (memory ⟨array, position⟩).id = objectsBuildId objectsClassicApi cls node (position + 1)

/-- A described record whose chain and table hold blocks of its own array only,
in the table each in its slot. -/
structure Shaped (information : ObjectsInformation) (memory : ObjectsMemory)
    (cls node count array : Nat) : Prop extends
    Describes information memory cls node count array where
  table_length : information.localTable.length = count + 1
  chain_nodup : information.inactiveChain.Nodup
  chain_own : ∀ object ∈ information.inactiveChain, object.array = array ∧ object.position < count
  slots_own : ∀ position object, information.localTable[position]? = some (some object) →
    object = ⟨array, position⟩ ∧ position < count

/-- A record in which every block is either inactive or in its slot. -/
structure Consistent (information : ObjectsInformation) (memory : ObjectsMemory)
    (cls node count array : Nat) : Prop extends
    Shaped information memory cls node count array where
  slots : ∀ position, position < count →
    (information.localTable[position]? = some none ↔ ⟨array, position⟩ ∈ information.inactiveChain)

section

variable {information : ObjectsInformation} {memory : ObjectsMemory}
variable {cls node count array : Nat}

section

variable (describes : Describes information memory cls node count array)
include describes

theorem Describes.objectsGetMaximumIndex_eq : information.objectsGetMaximumIndex = count := by
  have bound := describes.count_lt
  rw [objectsGetMaximumIndex, describes.maximum, objectsBuildId_index (by omega)]

theorem Describes.index_eq {position : Nat} (inside : position < count) :
    objectsGetIndex (memory ⟨array, position⟩).id = position + 1 := by
  have bound := describes.count_lt
  rw [describes.ids position inside, objectsBuildId_index (by omega)]

theorem Describes.objectsGet_eq (id : ObjectsId) :
    (∃ position, position < count ∧ id = (memory ⟨array, position⟩).id ∧
      information.objectsGet id = (information.localTable[position]?).join) ∨
    ((∀ position, position < count → id ≠ (memory ⟨array, position⟩).id) ∧
      information.objectsGet id = none) := by
  have bound := describes.count_lt
  have last : objectsGetIndex information.maximumId = count := describes.objectsGetMaximumIndex_eq
  have maximumValue : information.maximumId.toNat =
      65536 * objectsIdHigh objectsClassicApi cls node + count := by
    rw [describes.maximum, objectsBuildId_toNat (by omega)]
  have highBound := objectsIdHigh_lt objectsClassicApi cls node
  have idBound : id.toNat < 4294967296 := id.isLt
  have idValue : ∀ position, position < count →
      (id = (memory ⟨array, position⟩).id ↔ id.toNat =
        65536 * objectsIdHigh objectsClassicApi cls node + (position + 1)) := by
    intro position inside
    rw [describes.ids position inside, ← BitVec.toNat_inj, objectsBuildId_toNat (by omega)]
  have deltaValue : (information.maximumId - id).toNat =
      (4294967296 - id.toNat + information.maximumId.toNat) % 4294967296 :=
    BitVec.toNat_sub ..
  by_cases inside : (information.maximumId - id).toNat < count
  · refine .inl ⟨count - 1 - (information.maximumId - id).toNat, by omega, ?_, ?_⟩
    · rw [idValue _ (by omega)]
      omega
    · simp only [objectsGet, last, inside, ↓reduceIte, objectsIndexMinimum]
  · refine .inr ⟨?_, ?_⟩
    · intro position positionInside same
      rw [idValue position positionInside] at same
      omega
    · simp only [objectsGet, last, inside, ↓reduceIte]

theorem Describes.of_ids {newMemory : ObjectsMemory} {newInformation : ObjectsInformation}
    (sameMaximum : newInformation.maximumId = information.maximumId)
    (sameInitial : newInformation.initialObjects = information.initialObjects)
    (sameIds : ∀ position, position < count →
      (newMemory ⟨array, position⟩).id = (memory ⟨array, position⟩).id) :
    Describes newInformation newMemory cls node count array :=
  ⟨describes.count_pos, describes.count_lt, sameMaximum.trans describes.maximum,
    sameInitial.trans describes.initial,
    fun position inside => (sameIds position inside).trans (describes.ids position inside)⟩

end

variable {newMemory : ObjectsMemory} {object : ObjectAddress} {id : ObjectsId}
variable {newInformation : ObjectsInformation} {rest : List ObjectAddress} {kind : IpcKind}

theorem Shaped.of_ids (shaped : Shaped information memory cls node count array)
    (sameIds : ∀ position, position < count →
      (newMemory ⟨array, position⟩).id = (memory ⟨array, position⟩).id) :
    Shaped information newMemory cls node count array :=
  { shaped with toDescribes := shaped.toDescribes.of_ids rfl rfl sameIds }

theorem Consistent.of_ids (consistent : Consistent information memory cls node count array)
    (sameIds : ∀ position, position < count →
      (newMemory ⟨array, position⟩).id = (memory ⟨array, position⟩).id) :
    Consistent information newMemory cls node count array :=
  { consistent with toShaped := consistent.toShaped.of_ids sameIds }

theorem Describes.id_injective (describes : Describes information memory cls node count array)
    {left right : Nat} (leftInside : left < count) (rightInside : right < count)
    (same : (memory ⟨array, left⟩).id = (memory ⟨array, right⟩).id) : left = right := by
  have indices := congrArg objectsGetIndex same
  rw [describes.index_eq leftInside, describes.index_eq rightInside] at indices
  omega

section

variable (shaped : Shaped information memory cls node count array)
include shaped

theorem Shaped.index_eq (own : object.array = array ∧ object.position < count) :
    objectsGetIndex (memory object).id = object.position + 1 := by
  obtain ⟨objectArray, position⟩ := object
  obtain ⟨rfl, inside⟩ := own
  exact shaped.toDescribes.index_eq inside

theorem Shaped.slot_cases {position : Nat} (inside : position < count) :
    information.localTable[position]? = some none ∨
      information.localTable[position]? = some (some ⟨array, position⟩) := by
  have bound : position < information.localTable.length := by
    rw [shaped.table_length]
    omega
  cases slot : information.localTable[position]? with
  | none => exact absurd (List.getElem?_eq_none_iff.mp slot) (Nat.not_le.mpr bound)
  | some content =>
    cases content with
    | none => exact .inl rfl
    | some object =>
      rw [(shaped.slots_own position object slot).1]
      exact .inr rfl

theorem Shaped.objectsGet_eq_some :
    information.objectsGet id = some object ↔
      (object.array = array ∧ object.position < count) ∧ id = (memory object).id ∧
        information.localTable[object.position]? = some (some object) := by
  rcases shaped.toDescribes.objectsGet_eq id with
    ⟨position, inside, named, found⟩ | ⟨unnamed, missed⟩
  · rw [found]
    constructor
    · intro joined
      have slot : information.localTable[position]? = some (some object) :=
        Option.join_eq_some_iff.mp joined
      obtain ⟨rfl, -⟩ := shaped.slots_own position object slot
      exact ⟨⟨rfl, inside⟩, named, slot⟩
    · rintro ⟨own, otherNamed, slot⟩
      obtain ⟨objectArray, objectPosition⟩ := object
      obtain ⟨rfl, otherInside⟩ := own
      have same : position = objectPosition := shaped.toDescribes.id_injective inside otherInside
        (named.symm.trans otherNamed)
      subst same
      exact Option.join_eq_some_iff.mpr slot
  · rw [missed]
    simp only [reduceCtorEq, false_iff]
    rintro ⟨own, named, -⟩
    obtain ⟨objectArray, objectPosition⟩ := object
    obtain ⟨rfl, inside⟩ := own
    exact unnamed objectPosition inside named

end

theorem Consistent.objectsGet_eq_some
    (consistent : Consistent information memory cls node count array) :
    information.objectsGet id = some object ↔
      (object.array = array ∧ object.position < count) ∧ id = (memory object).id ∧
        object ∉ information.inactiveChain := by
  rw [consistent.toShaped.objectsGet_eq_some]
  refine and_congr_right fun own => and_congr_right fun _ => ?_
  obtain ⟨objectArray, position⟩ := object
  obtain ⟨rfl, inside⟩ := own
  have slots := consistent.slots position inside
  rcases consistent.toShaped.slot_cases inside with empty | filled
  · simp [empty, slots.mp empty]
  · have active : ⟨objectArray, position⟩ ∉ information.inactiveChain := by
      intro idle
      rw [slots.mpr idle] at filled
      cases filled
    simp [filled, active]

section

variable (shaped : Shaped information memory cls node count array)
include shaped

theorem Shaped.replace (sameMaximum : newInformation.maximumId = information.maximumId)
    (sameInitial : newInformation.initialObjects = information.initialObjects)
    (tableLength : newInformation.localTable.length = information.localTable.length)
    (nodup : newInformation.inactiveChain.Nodup)
    (own : ∀ object ∈ newInformation.inactiveChain, object.array = array ∧ object.position < count)
    (slots : ∀ position object, newInformation.localTable[position]? = some (some object) →
      object = ⟨array, position⟩ ∧ position < count) :
    Shaped newInformation memory cls node count array :=
  { toDescribes := shaped.toDescribes.of_ids sameMaximum sameInitial fun _ _ => rfl
    table_length := tableLength.trans shaped.table_length
    chain_nodup := nodup
    chain_own := own
    slots_own := slots }

theorem Shaped.slots_set_none (index position : Nat) (object : ObjectAddress)
    (found : (information.localTable.set index none)[position]? = some (some object)) :
    object = ⟨array, position⟩ ∧ position < count := by
  by_cases same : index = position
  · rw [same, List.getElem?_set_self'] at found
    cases slot : information.localTable[position]? <;> simp [slot] at found
  · rw [List.getElem?_set_ne same] at found
    exact shaped.slots_own position object found

theorem Shaped.slots_set_some {entered : ObjectAddress}
    (own : entered.array = array ∧ entered.position < count) (position : Nat)
    (object : ObjectAddress)
    (found : (information.localTable.set entered.position (some entered))[position]? =
      some (some object)) : object = ⟨array, position⟩ ∧ position < count := by
  by_cases same : entered.position = position
  · rw [same, List.getElem?_set_self'] at found
    obtain ⟨enteredArray, enteredPosition⟩ := entered
    obtain ⟨rfl, inside⟩ := own
    cases slot : information.localTable[position]? with
    | none => simp [slot] at found
    | some content =>
      simp only [slot, Option.map_eq_map, Option.map_some, Function.const_apply,
        Option.some.injEq] at found
      exact ⟨by rw [← found, ← same], same ▸ inside⟩
  · rw [List.getElem?_set_ne same] at found
    exact shaped.slots_own position object found

end

section

variable (consistent : Consistent information memory cls node count array)
  (chain : information.inactiveChain = object :: rest)
  (sameMaximum : newInformation.maximumId = information.maximumId)
  (sameInitial : newInformation.initialObjects = information.initialObjects)
include consistent chain sameMaximum sameInitial

theorem Consistent.activate (newChain : newInformation.inactiveChain = rest)
    (newTable : newInformation.localTable =
      information.localTable.set object.position (some object)) :
    Consistent newInformation memory cls node count array := by
  have own := consistent.chain_own object (by rw [chain]; exact List.mem_cons_self)
  have nodup := consistent.chain_nodup
  rw [chain] at nodup
  obtain ⟨fresh, restNodup⟩ := List.nodup_cons.mp nodup
  have shaped : Shaped newInformation memory cls node count array := by
    refine consistent.toShaped.replace sameMaximum sameInitial ?_ ?_ ?_ ?_
    · rw [newTable, List.length_set]
    · rwa [newChain]
    · intro other member
      rw [newChain] at member
      exact consistent.chain_own other (by rw [chain]; exact .tail _ member)
    · rw [newTable]
      exact consistent.toShaped.slots_set_some own
  obtain ⟨objectArray, objectPosition⟩ := object
  obtain ⟨rfl, inside⟩ := own
  refine { toShaped := shaped, slots := ?_ }
  intro position positionInside
  rw [newTable, newChain]
  by_cases same : position = objectPosition
  · subst position
    have bound : objectPosition < information.localTable.length := by
      rw [consistent.table_length]
      omega
    rw [List.getElem?_set_self bound]
    simp [fresh]
  · have slot := consistent.slots position positionInside
    rw [chain] at slot
    rw [List.getElem?_set_ne (Ne.symm same), slot]
    simp [same]

theorem Consistent.rotate (newChain : newInformation.inactiveChain = rest ++ [object])
    (newTable : newInformation.localTable = information.localTable) :
    Consistent newInformation memory cls node count array := by
  have members : ∀ other, other ∈ newInformation.inactiveChain ↔
      other ∈ information.inactiveChain := by
    intro other
    rw [chain, newChain]
    simp [or_comm]
  have nodup := consistent.chain_nodup
  rw [chain] at nodup
  refine { toShaped := consistent.toShaped.replace sameMaximum sameInitial ?_ ?_ ?_ ?_,
           slots := ?_ }
  · rw [newTable]
  · rw [newChain]
    exact (List.perm_append_singleton object rest).nodup_iff.mpr nodup
  · intro other member
    exact consistent.chain_own other ((members other).mp member)
  · rw [newTable]
    exact consistent.slots_own
  · intro position inside
    rw [newTable, members]
    exact consistent.slots position inside

end

/-- `_Objects_Allocate` on a container record: the first inactive block, which
a semaphore record also enters into the table. -/
theorem Shaped.objectsAllocate_eq (shaped : Shaped information memory cls node count array)
    (handlers : information.allocator = kind.allocator) :
    information.objectsAllocate memory = some (
      match information.inactiveChain with
      | [] => (none, information)
      | object :: rest =>
        (some object,
          match kind with
          | .messageQueue => { information with inactiveChain := rest }
          | .semaphore =>
            { information with
              inactiveChain := rest
              localTable := information.localTable.set object.position (some object)
              inactive := information.inactive - 1 })) := by
  cases kind with
  | messageQueue =>
    cases chain : information.inactiveChain <;>
      simp only [objectsAllocate, handlers, IpcKind.allocator, objectsGetInactive, chain]
  | semaphore =>
    simp only [objectsAllocate, handlers, IpcKind.allocator, ipcSemaphoreAllocateStatic,
      objectsGetInactive]
    cases chain : information.inactiveChain with
    | nil => rfl
    | cons object rest =>
      have own := shaped.chain_own object (by rw [chain]; exact List.mem_cons_self)
      have last : objectsGetIndex information.maximumId = count :=
        shaped.toDescribes.objectsGetMaximumIndex_eq
      have bounds : objectsIndexMinimum ≤ object.position + 1 ∧ object.position + 1 ≤ count := by
        rw [objectsIndexMinimum]
        omega
      simp only [objectsSetLocalObject, objectsGetMaximumIndex, shaped.index_eq own, last,
        bounds, and_self, ↓reduceIte]
      rfl

/-- `_Objects_Free` on a container record for one of its blocks; the slot that a
semaphore record clears is the one after that of the block. -/
theorem Shaped.objectsFree_eq (shaped : Shaped information memory cls node count array)
    (handlers : information.allocator = kind.allocator)
    (own : object.array = array ∧ object.position < count) :
    information.objectsFree memory object =
      if object ∈ information.inactiveChain then none
      else some (
        match kind with
        | .messageQueue =>
          { information with inactiveChain := information.inactiveChain ++ [object] }
        | .semaphore =>
          { information with
            localTable := information.localTable.set (object.position + 1) none
            inactiveChain := information.inactiveChain ++ [object]
            inactive := information.inactive + 1 }) := by
  cases kind with
  | messageQueue => simp only [objectsFree, handlers, IpcKind.allocator, chainAppend]
  | semaphore =>
    have bound : object.position + 1 < information.localTable.length := by
      rw [shaped.table_length]
      omega
    simp only [objectsFree, handlers, IpcKind.allocator, ipcSemaphoreFreeStatic,
      shaped.index_eq own, bound, ↓reduceIte, chainAppend]
    split <;> rfl

theorem Shaped.objectsOpenU32_eq (name : BitVec 32)
    (shaped : Shaped information memory cls node count array)
    (own : object.array = array ∧ object.position < count) :
    information.objectsOpenU32 memory object name =
      some ({ information with
        localTable := information.localTable.set object.position (some object) },
        Function.update memory object { memory object with name := name }) := by
  have maximum := shaped.toDescribes.objectsGetMaximumIndex_eq
  have bounds : objectsIndexMinimum ≤ object.position + 1 ∧
      object.position + 1 ≤ information.objectsGetMaximumIndex := by
    rw [maximum, objectsIndexMinimum]
    omega
  simp only [objectsOpenU32, objectsSetLocalObject, shaped.index_eq own, bounds, and_self,
    ↓reduceIte]
  rfl

end

end ObjectsInformation

namespace IpcContainer

open ObjectsInformation

variable {kind : IpcKind} {containerID maxObjects array : Nat}
variable {memory : ObjectsMemory}

theorem initializeInfo_failed {allocated : InfoMemory}
    (failed : allocated.objects = none ∨ allocated.localTable = false) :
    initializeInfo kind containerID maxObjects allocated memory = (.zeroed, memory) := by
  obtain ⟨objects, localTable⟩ := allocated
  rcases failed with rfl | rfl
  · rfl
  · cases objects <;> rfl

theorem initializeInfo_consistent (positive : 0 < maxObjects) (fits : maxObjects < 65535) :
    let built := initializeInfo kind containerID maxObjects ⟨some array, true⟩ memory
    Consistent built.1 built.2 kind.cls containerID maxObjects array ∧
      built.1.allocator = kind.allocator ∧
      built.1.inactiveChain = (List.range maxObjects).map (ObjectAddress.mk array) ∧
      ∀ object, object.array ≠ array → built.2 object = memory object := by
  obtain ⟨information, isInformation⟩ : ∃ information : ObjectsInformation, information =
      { maximumId := objectsBuildId objectsClassicApi kind.cls containerID maxObjects
        localTable := List.replicate (maxObjects + 1) none
        allocator := kind.allocator
        inactive := maxObjects
        initialObjects := some array
        inactiveChain := (List.range maxObjects).map (ObjectAddress.mk array) } := ⟨_, rfl⟩
  obtain ⟨written, isWritten⟩ : ∃ written : ObjectsMemory, written = fun object =>
      if object.array = array ∧ object.position < maxObjects then
        ⟨objectsBuildId objectsClassicApi kind.cls containerID
          (object.position + objectsIndexMinimum), 0⟩
      else memory object := ⟨_, rfl⟩
  have consistent : Consistent information written kind.cls containerID maxObjects array := by
    refine { count_pos := positive, count_lt := fits, maximum := ?_, initial := ?_, ids := ?_,
             table_length := ?_, chain_nodup := ?_, chain_own := ?_, slots_own := ?_, slots := ?_ }
    · rw [isInformation]
    · rw [isInformation]
    · intro position inside
      simp [isWritten, inside, objectsIndexMinimum]
    · simp [isInformation]
    · rw [isInformation]
      refine List.Nodup.map ?_ List.nodup_range
      intro left right same
      exact congrArg ObjectAddress.position same
    · intro object member
      simp only [isInformation, List.mem_map, List.mem_range] at member
      obtain ⟨position, inside, rfl⟩ := member
      exact ⟨rfl, inside⟩
    · intro position object found
      rw [isInformation, List.getElem?_replicate] at found
      split at found <;> simp at found
    · intro position inside
      have member : ObjectAddress.mk array position ∈ information.inactiveChain := by
        simp only [isInformation, List.mem_map, List.mem_range]
        exact ⟨position, inside, rfl⟩
      have empty : information.localTable[position]? = some none := by
        rw [isInformation, List.getElem?_replicate, if_pos (by omega)]
      simp [member, empty]
  have kept : ∀ object, object.array ≠ array → written object = memory object := by
    intro object other
    simp [isWritten, other]
  have maximumIndex : information.objectsGetMaximumIndex = maxObjects :=
    consistent.toDescribes.objectsGetMaximumIndex_eq
  by_cases isRoot : containerID = 1
  · have second : information.objectsInitializeInformation written = (information, written) := by
      rw [objectsInitializeInformation, consistent.initial]
      simp only [maximumIndex, Prod.mk.injEq]
      refine ⟨by rw [isInformation], ?_⟩
      funext object
      split
      next own =>
        rw [consistent.maximum, objectsBuildId_reindex _ (by omega)]
        simp [isWritten, own]
      next => rfl
    have built : initializeInfo kind containerID maxObjects ⟨some array, true⟩ memory =
        (information, written) := by
      simp only [initializeInfo, isRoot, ↓reduceIte]
      rw [← second, isInformation, isWritten, isRoot]
    rw [built]
    exact ⟨consistent, by rw [isInformation], by rw [isInformation], kept⟩
  · have built : initializeInfo kind containerID maxObjects ⟨some array, true⟩ memory =
        (information, written) := by
      simp only [initializeInfo, isRoot, ↓reduceIte]
      rw [isInformation, isWritten]
    rw [built]
    exact ⟨consistent, by rw [isInformation], by rw [isInformation], kept⟩

end IpcContainer

end RTContainer.Score
