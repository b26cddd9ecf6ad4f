import RTContainer.Lib.Run
import RTContainer.Score.UnlimitedObjectsProperties

/-! The books of an unlimited class stay right over any run of its calls. -/

set_option autoImplicit false

namespace RTContainer.Score

open Machine UnlimitedInformation Function

namespace UnlimitedClass

/-- What the record of a class says of its objects. The initial objects, those of block 0, are not
counted by any counter. -/
structure Accounted (state : UnlimitedClass) : Prop where
  present : ∀ block array, state.information.blockArray block = some array →
    ∀ position < state.information.objectsPerBlock,
      objectIndex state.memory ⟨array, position⟩ =
        block * state.information.objectsPerBlock + position ∧
      state.information.inactiveChain.count ⟨array, position⟩ +
        state.inUse.count ⟨array, position⟩ = 1
  absent : ∀ block < state.information.blockCount, state.information.blockArray block = none →
    (∀ object ∈ state.information.inactiveChain ++ state.inUse,
      objectIndex state.memory object / state.information.objectsPerBlock ≠ block) ∧
    ∀ position < state.information.objectsPerBlock,
      state.information.localTable[block * state.information.objectsPerBlock + position]? =
        some none
  initial : ∃ array, state.information.blockArray 0 = some array
  inactive : state.information.inactive = state.information.inactiveChain.countP fun object =>
    objectsIsInAllocatedBlock (objectIndex state.memory object) state.information.objectsPerBlock
  perBlock : ∀ block < state.information.blockCount, 1 ≤ block →
    state.information.inactivePerBlock[block]? =
      some (state.information.inactiveChain.countP fun object =>
        objectIndex state.memory object / state.information.objectsPerBlock = block)
  uncounted : ∀ inactive, state.information.inactivePerBlock[0]? = some inactive → inactive = 0
  opened : ∀ id object, (id, object) ∈ state.opened →
    state.information.objectsGet id = some object ∧ (state.memory object).id = id
  width : state.information.inactiveChain.length < 65536

variable {state : UnlimitedClass} {api cls node count : Nat}

theorem Consistent.length_lt (consistent : Consistent state api cls node count) :
    state.information.inactiveChain.length < 65536 := by
  have within : state.information.inactiveChain.map (objectIndex state.memory) ⊆
      List.range (count * state.information.objectsPerBlock) := by
    intro index member
    obtain ⟨object, isInactive, rfl⟩ := List.mem_map.mp member
    exact List.mem_range.mpr (consistent.objectAt_lt
      (consistent.objectAt_index (List.mem_append_left state.inUse isInactive)))
  have short := (List.subperm_of_subset consistent.nodup_indices within).length_le
  rw [List.length_map, List.length_range] at short
  have fits := consistent.fits
  omega

theorem Consistent.accounted (consistent : Consistent state api cls node count) :
    state.Accounted where
  __ := consistent
  present block array isArray position small := by
    have isObject := objectAt_block consistent.size_pos isArray
      (show (ObjectAddress.mk array position).position < _ from small)
    refine ⟨consistent.objectIndex_eq isObject, ?_⟩
    rw [← List.count_append]
    exact List.count_eq_one_of_mem consistent.nodup ((consistent.held _).mpr ⟨_, isObject⟩)
  absent block bounded vacant := by
    rw [consistent.blockCount_eq] at bounded
    constructor
    · intro object member inside
      have array := (objectAt_eq_some.mp (consistent.objectAt_index member)).1
      rw [inside, vacant] at array
      cases array
    · intro position small
      have inside : (block * state.information.objectsPerBlock + position) /
          state.information.objectsPerBlock = block :=
        (BlockTally.inside_iff consistent.size_pos).mpr (by omega)
      have within : block * state.information.objectsPerBlock + position <
          state.information.localTable.length := by
        rw [consistent.table_length]
        refine (Nat.div_lt_iff_lt_mul consistent.size_pos).mp ?_
        rw [inside]
        exact bounded
      rw [List.getElem?_eq_getElem within]
      cases slot : state.information.localTable[block * state.information.objectsPerBlock +
          position] with
      | none => rfl
      | some object =>
        have present := ((consistent.slots _ object).mp
          ((List.getElem?_eq_getElem within).trans (congrArg some slot))).1
        have array := (objectAt_eq_some.mp present).1
        rw [inside, vacant] at array
        cases array
  inactive := by
    rw [consistent.tally.all, List.countP_map]
    rfl
  perBlock block bounded notFirst := by
    rw [consistent.blockCount_eq] at bounded
    obtain ⟨blocks, hasTables⟩ := consistent.hasTables (Nat.lt_of_le_of_lt notFirst bounded)
    have inside : block < state.information.inactivePerBlock.length := by
      rw [(consistent.tables_some hasTables).2.2]
      exact bounded
    have present := List.getElem?_eq_getElem inside
    rw [present, consistent.tally.each block _ notFirst present, List.countP_map]
    rfl
  opened id object isOpen :=
    ⟨consistent.objectsGet_opened isOpen, (consistent.opened id object isOpen).2⟩
  width := consistent.length_lt

theorem initial_eq (api cls : Nat) (extend : ObjectsExtend) (max : BitVec 16) (objects : Nat)
    (memory : ObjectsMemory) :
    let defined := objectsInformationDefine api cls extend max objects
    initial api cls extend max objects memory =
      { information := { defined with
          inactiveChain := (List.range max.toNat).map (ObjectAddress.mk objects) }
        memory := fun object =>
          if object.array = objects ∧ object.position < max.toNat then
            { memory object with
              id := objectsBuildId api cls 1 (object.position + objectsIndexMinimum) }
          else memory object
        inUse := []
        opened := [] } := by
  have maximum : (objectsInformationDefine api cls extend max
      objects).toObjectsInformation.objectsGetMaximumIndex = max.toNat :=
    objectsBuildId_index max.isLt
  have written : ∀ position, ((objectsInformationDefine api cls extend max objects).maximumId &&&
      ~~~objectsIndexMask) |||
        (BitVec.ofNat 32 (position + objectsIndexMinimum) <<< objectsIndexStartBit) =
          objectsBuildId api cls 1 (position + objectsIndexMinimum) := fun position =>
    objectsBuildId_reindex _ max.isLt
  simp only [initial, ObjectsInformation.objectsInitializeInformation, maximum, written]
  rfl

theorem initial_consistent (api cls : Nat) (extend : ObjectsExtend) {max : BitVec 16}
    (positive : 0 < max.toNat) (objects : Nat) (memory : ObjectsMemory) :
    Consistent (initial api cls extend max objects memory) api cls 1 1 := by
  rw [initial_eq]
  have isObject : ∀ index object,
      ({ objectsInformationDefine api cls extend max objects with
        inactiveChain := (List.range max.toNat).map (ObjectAddress.mk objects) } :
          UnlimitedInformation).objectAt index = some object ↔
        object = ⟨objects, index⟩ ∧ index < max.toNat := by
    rintro index ⟨array, position⟩
    simp only [objectAt_eq_some, blockArray, objectsInformationDefine, ObjectAddress.mk.injEq]
    rcases Nat.lt_or_ge index max.toNat with small | large
    · simp [Nat.div_eq_of_lt small, Nat.mod_eq_of_lt small, small, eq_comm]
    · have later : index / max.toNat ≠ 0 :=
        Nat.ne_of_gt ((Nat.one_le_div_iff positive).mpr large)
      simp [later, Nat.not_lt.mpr large]
  have shaped : Shaped
      { objectsInformationDefine api cls extend max objects with
        inactiveChain := (List.range max.toNat).map (ObjectAddress.mk objects) }
      (fun object =>
        if object.array = objects ∧ object.position < max.toNat then
          { memory object with
            id := objectsBuildId api cls 1 (object.position + objectsIndexMinimum) }
        else memory object) api cls 1 1 :=
    { size_pos := positive
      count_pos := Nat.one_pos
      fits := by
        rw [Nat.one_mul]
        exact max.isLt
      maximum := by
        rw [Nat.one_mul]
        rfl
      initial := ⟨objects, rfl⟩
      tables := ⟨rfl, rfl⟩
      uncounted := fun _ none => by cases none
      table_length := by
        rw [Nat.one_mul]
        exact List.length_replicate
      distinct := by
        intro first second array isFirst isSecond
        rcases Nat.eq_zero_or_pos first with rfl | later
        · rcases Nat.eq_zero_or_pos second with rfl | later
          · rfl
          · rw [blockArray, if_neg (Nat.ne_of_gt later)] at isSecond
            cases isSecond
        · rw [blockArray, if_neg (Nat.ne_of_gt later)] at isFirst
          cases isFirst
      ids := by
        intro index object present
        obtain ⟨rfl, small⟩ := (isObject index object).mp present
        rw [if_pos ⟨rfl, small⟩] }
  exact
    { toShaped := shaped
      held := by
        rintro object
        simp only [List.append_nil, List.mem_map, List.mem_range, isObject]
        constructor
        · rintro ⟨position, small, rfl⟩
          exact ⟨position, rfl, small⟩
        · rintro ⟨position, rfl, small⟩
          exact ⟨position, small, rfl⟩
      nodup := by
        rw [List.append_nil]
        refine List.Nodup.map (fun first second same => ?_) List.nodup_range
        exact (ObjectAddress.mk.inj same).2
      tally := by
        refine ⟨fun _ _ _ present => (by cases present), ?_⟩
        refine (List.countP_eq_zero.mpr fun index member => ?_).symm
        obtain ⟨object, isInactive, rfl⟩ := List.mem_map.mp member
        obtain ⟨position, small, rfl⟩ := List.mem_map.mp isInactive
        have bounded := List.mem_range.mp small
        rw [shaped.objectIndex_eq ((isObject position _).mpr ⟨rfl, bounded⟩), decide_eq_true_eq]
        exact Nat.not_le.mpr bounded
      slots := by
        intro index object
        constructor
        · intro inTable
          obtain ⟨_, isEmpty⟩ := List.getElem?_eq_some_iff.mp inTable
          simp [objectsInformationDefine] at isEmpty
        · rintro ⟨-, id, isOpen⟩
          cases isOpen
      opened := fun _ _ none => absurd none List.not_mem_nil }

end UnlimitedClass

namespace UnlimitedCall

/-- The workspace gives memory that no block uses. Objects are opened and closed while they are in
use, and freed once they are closed, as `_Objects_Free()` shows it. -/
def Promised (state : UnlimitedClass) : UnlimitedCall → Prop
  | .allocate allocations => ∀ array ∈ allocations.objects,
      state.information.initialObjects ≠ some array ∧
        ∀ blocks ∈ state.information.objectBlocks, some array ∉ blocks
  | .openU32 object _ => object ∈ state.inUse
  | .close object => object ∈ state.inUse
  | .free object => object ∈ state.inUse ∧ ∀ pair ∈ state.opened, pair.2 ≠ object

def PromisedIn (state : Option UnlimitedClass) (call : UnlimitedCall) : Prop :=
  ∀ before ∈ state, call.Promised before

instance (state : UnlimitedClass) (call : UnlimitedCall) : Decidable (call.Promised state) := by
  cases call <;> unfold Promised <;> infer_instance

instance (state : Option UnlimitedClass) (call : UnlimitedCall) :
    Decidable (call.PromisedIn state) := by
  unfold PromisedIn
  infer_instance

theorem unused {state : UnlimitedClass} {allocations : ExtendAllocations}
    (promised : (allocate allocations).Promised state) (array : Nat)
    (isObjects : allocations.objects = some array) (block : Nat) :
    state.information.blockArray block ≠ some array := by
  intro isArray
  obtain ⟨notInitial, unused⟩ := promised array isObjects
  rcases Nat.eq_zero_or_pos block with rfl | later
  · exact notInitial isArray
  · rw [blockArray, if_neg (Nat.ne_of_gt later)] at isArray
    obtain ⟨blocks, hasTables, isEntry⟩ :=
      Option.bind_eq_some_iff.mp (Option.join_eq_some_iff.mp isArray)
    exact unused blocks hasTables (List.mem_of_getElem? isEntry)

end UnlimitedCall

namespace UnlimitedClass

section Calls

variable {state : UnlimitedClass} {api cls node count : Nat} {object : ObjectAddress}

section

variable (consistent : Consistent state api cls node count)
include consistent

theorem Consistent.objectsOpenU32 (isHeld : object ∈ state.inUse) (name : BitVec 32) :
    ∃ entered written,
      state.information.objectsOpenU32 state.memory object name = some (entered, written) ∧
      Consistent
        { state with
          information := entered
          memory := written
          opened := ((state.memory object).id, object) :: state.opened } api cls node count := by
  have set := consistent.objectsSetLocalObject isHeld (some object)
  refine ⟨_, update state.memory object { state.memory object with name := name }, ?_,
    consistent.setSlot isHeld ?_ ?_ (.inl ⟨rfl, ?_⟩) ?_⟩
  · rw [UnlimitedInformation.objectsOpenU32, ObjectsInformation.objectsOpenU32, set]
    rfl
  · intro other
    rw [update_apply]
    split
    · next same => rw [same]
    · rfl
  · intro id other different
    simp [different]
  · exact ⟨_, List.mem_cons_self⟩
  · intro id other isOpen
    rcases List.mem_cons.mp isOpen with same | isOpen
    · cases same
      exact ⟨isHeld, rfl⟩
    · exact consistent.opened id other isOpen

theorem Consistent.objectsClose (isHeld : object ∈ state.inUse) :
    ∃ left written, state.information.objectsClose state.memory object = some (left, written) ∧
      Consistent
        { state with
          information := left
          memory := written
          opened := state.opened.filter fun pair => pair.2 ≠ object } api cls node count := by
  have set := consistent.objectsSetLocalObject isHeld none
  refine ⟨_, update state.memory object { state.memory object with name := 0 }, ?_,
    consistent.setSlot isHeld ?_ ?_ (.inr ⟨rfl, ?_⟩) ?_⟩
  · rw [UnlimitedInformation.objectsClose, ObjectsInformation.objectsClose, set]
    rfl
  · intro other
    rw [update_apply]
    split
    · next same => rw [same]
    · rfl
  · intro id other different
    simp [different]
  · intro id isOpen
    exact of_decide_eq_true (List.mem_filter.mp isOpen).2 rfl
  · intro id other isOpen
    exact consistent.opened id other (List.mem_filter.mp isOpen).1

theorem Consistent.perform {call : UnlimitedCall} (promised : call.Promised state) :
    ∃ performed after, state.perform call = some performed ∧
      Consistent performed api cls node after := by
  cases call with
  | allocate allocations =>
    obtain ⟨object, allocated, written, after, isAllocated, holds⟩ :=
      consistent.objectsAllocateWithExtend (UnlimitedCall.unused promised)
    exact ⟨_, after, by rw [UnlimitedClass.perform, isAllocated, Option.map_some], holds⟩
  | openU32 object name =>
    obtain ⟨entered, written, isEntered, holds⟩ := consistent.objectsOpenU32 promised name
    exact ⟨_, count, by rw [UnlimitedClass.perform, isEntered, Option.map_some], holds⟩
  | close object =>
    obtain ⟨left, written, isLeft, holds⟩ := consistent.objectsClose promised
    exact ⟨_, count, by rw [UnlimitedClass.perform, isLeft, Option.map_some], holds⟩
  | free object =>
    obtain ⟨isHeld, isClosed⟩ := promised
    obtain ⟨freed, isFreed, holds⟩ := consistent.objectsFreeUnlimited isHeld
      fun id isOpen => isClosed (id, object) isOpen rfl
    exact ⟨_, count, by rw [UnlimitedClass.perform, isFreed, Option.map_some], holds⟩

end

end Calls

end UnlimitedClass

/-- Every run of a class has a result, and the record says of the objects what it should in every
state reached. -/
theorem unlimitedRun_accounted (api cls : Nat) (extend : ObjectsExtend) (max : BitVec 16)
    (positive : 0 < max.toNat) (objects : Nat) (memory : ObjectsMemory)
    (calls : List UnlimitedCall)
    (promised : Meets UnlimitedClass.step (fun state call => call.PromisedIn state)
      (some (UnlimitedClass.initial api cls extend max objects memory)) calls) :
    Throughout UnlimitedClass.step (fun reached => ∃ state, reached = some state ∧ state.Accounted)
      (some (UnlimitedClass.initial api cls extend max objects memory)) calls := by
  let Reached (reached : Option UnlimitedClass) : Prop :=
    ∃ state count, reached = some state ∧ state.Consistent api cls 1 count
  have start : Reached (some (UnlimitedClass.initial api cls extend max objects memory)) :=
    ⟨_, 1, rfl, UnlimitedClass.initial_consistent api cls extend positive objects memory⟩
  have preserved : ∀ reached call, Reached reached → UnlimitedCall.PromisedIn reached call →
      Reached (UnlimitedClass.step reached call) := by
    rintro reached call ⟨state, count, rfl, consistent⟩ promised
    obtain ⟨performed, after, performs, holds⟩ := consistent.perform (promised state rfl)
    exact ⟨performed, after, performs, holds⟩
  refine (throughout_of_preserved start preserved promised).imp ?_
  rintro reached ⟨state, count, rfl, consistent⟩
  exact ⟨state, rfl, consistent.accounted⟩

/-- A class with blocks of one object grows, gives a block back and fills the gap again. -/
def growthCalls : List UnlimitedCall :=
  [.allocate ⟨none, true, true⟩, .allocate ⟨some 10, true, true⟩,
    .allocate ⟨some 11, true, true⟩, .allocate ⟨some 12, true, true⟩, .openU32 ⟨12, 0⟩ 7,
    .free ⟨10, 0⟩, .free ⟨11, 0⟩, .allocate ⟨none, true, true⟩, .allocate ⟨some 10, true, true⟩]

def clearMemory : ObjectsMemory := fun _ => ⟨0, 0⟩

theorem growthCalls_accounted :
    Throughout UnlimitedClass.step (fun reached => ∃ state, reached = some state ∧ state.Accounted)
      (some (UnlimitedClass.initial 2 5 .objects 1 1 clearMemory)) growthCalls :=
  unlimitedRun_accounted 2 5 .objects 1 (by decide) 1 clearMemory growthCalls (by decide)

/-- An initial object that is freed after the class has grown is inactive, but neither `inactive`
nor the counter of its block says so. -/
theorem initialObject_uncounted :
    ∃ calls state,
      Meets UnlimitedClass.step (fun state call => call.PromisedIn state)
        (some (UnlimitedClass.initial 2 5 .objects 1 1 clearMemory)) calls ∧
      run UnlimitedClass.step (some (UnlimitedClass.initial 2 5 .objects 1 1 clearMemory)) calls =
        some state ∧
      state.information.inactive ≠ state.information.inactiveChain.length ∧
      state.information.inactivePerBlock[0]? ≠
        some (state.information.inactiveChain.countP fun object =>
          objectIndex state.memory object / state.information.objectsPerBlock = 0) := by
  let calls : List UnlimitedCall :=
    [.allocate ⟨none, true, true⟩, .allocate ⟨some 10, true, true⟩, .free ⟨1, 0⟩]
  refine ⟨calls, _, ?_, rfl, ?_, ?_⟩ <;> decide

end RTContainer.Score
