import RTContainer.Lib.BlockTally
import RTContainer.Score.UnlimitedObjects

/-! The tables of an unlimited class: which block has which objects, and what changes when a block
is added or given back. -/

set_option autoImplicit false

namespace RTContainer.Score

namespace BlockSearch

/-- The walk ends at the first free block or behind the last block. -/
theorem walk_found (extendCount : Nat) (blocks : List (Option Nat)) (block indexBase : Nat) :
    let found := walk extendCount block indexBase blocks
    ∃ passed, found.block = block + passed ∧
      found.indexBase = indexBase + passed * extendCount ∧
      (found.doExtend = true ∧ passed = blocks.length ∨
        found.doExtend = false ∧ blocks[passed]? = some none) := by
  induction blocks generalizing block indexBase with
  | nil => exact ⟨0, rfl, by simp [walk], .inl ⟨rfl, rfl⟩⟩
  | cons first rest ih =>
    cases first with
    | none => exact ⟨0, rfl, by simp [walk], .inr ⟨rfl, rfl⟩⟩
    | some array =>
      obtain ⟨passed, isBlock, isBase, stopped⟩ := ih (block + 1) (indexBase + extendCount)
      refine ⟨passed + 1, isBlock.trans (by omega), isBase.trans ?_, ?_⟩
      · rw [Nat.add_mul]
        omega
      · rcases stopped with ⟨grows, isLength⟩ | ⟨keeps, isVacant⟩
        · exact .inl ⟨grows, congrArg (· + 1) isLength⟩
        · exact .inr ⟨keeps, isVacant⟩

end BlockSearch

namespace UnlimitedInformation

def blockArray (information : UnlimitedInformation) (block : Nat) : Option Nat :=
  if block = 0 then information.initialObjects
  else (information.objectBlocks.bind fun blocks => blocks[block]?).join

def objectAt (information : UnlimitedInformation) (index : Nat) : Option ObjectAddress :=
  (information.blockArray (index / information.objectsPerBlock)).map fun array =>
    ⟨array, index % information.objectsPerBlock⟩

/-- The tables of a class with `count` blocks; there are none with the initial block alone. -/
def TablesShaped (count counted : Nat) : Option (List (Option Nat)) → Prop
  | none => count = 1 ∧ counted = 0
  | some blocks => 1 < count ∧ blocks.length = count ∧ counted = count

/-- What the record, its tables and the identifiers say of each other. -/
structure Shaped (information : UnlimitedInformation) (memory : ObjectsMemory)
    (api cls node count : Nat) : Prop where
  size_pos : 0 < information.objectsPerBlock
  count_pos : 0 < count
  fits : count * information.objectsPerBlock < 65536
  maximum : information.maximumId =
    objectsBuildId api cls node (count * information.objectsPerBlock)
  initial : ∃ array, information.initialObjects = some array
  tables : TablesShaped count information.inactivePerBlock.length information.objectBlocks
  uncounted : ∀ inactive, information.inactivePerBlock[0]? = some inactive → inactive = 0
  table_length : information.localTable.length = count * information.objectsPerBlock
  distinct : ∀ first second array, information.blockArray first = some array →
    information.blockArray second = some array → first = second
  ids : ∀ index object, information.objectAt index = some object →
    (memory object).id = objectsBuildId api cls node (index + objectsIndexMinimum)

section Shape

variable {information : UnlimitedInformation} {memory : ObjectsMemory}
variable {api cls node count block index : Nat} {object : ObjectAddress}

theorem objectAt_eq_some :
    information.objectAt index = some object ↔
      information.blockArray (index / information.objectsPerBlock) = some object.array ∧
        object.position = index % information.objectsPerBlock := by
  rw [objectAt, Option.map_eq_some_iff]
  constructor
  · rintro ⟨array, present, rfl⟩
    exact ⟨present, rfl⟩
  · rintro ⟨present, isPosition⟩
    exact ⟨object.array, present, by rw [← isPosition]⟩

theorem objectAt_block (positive : 0 < information.objectsPerBlock)
    (present : information.blockArray block = some object.array)
    (inside : object.position < information.objectsPerBlock) :
    information.objectAt (block * information.objectsPerBlock + object.position) =
      some object := by
  have quotient : (block * information.objectsPerBlock + object.position) /
      information.objectsPerBlock = block := by
    rw [Nat.add_comm, Nat.add_mul_div_right _ _ positive, Nat.div_eq_of_lt inside, Nat.zero_add]
  have remainder : (block * information.objectsPerBlock + object.position) %
      information.objectsPerBlock = object.position := by
    rw [Nat.add_comm, Nat.add_mul_mod_self_right, Nat.mod_eq_of_lt inside]
  rw [objectAt_eq_some, quotient, remainder]
  exact ⟨present, rfl⟩

section

variable (shaped : Shaped information memory api cls node count)
include shaped

variable {array : Nat}

theorem Shaped.blockArray_lt (present : information.blockArray block = some array) :
    block < count := by
  rcases Nat.eq_zero_or_pos block with rfl | later
  · exact shaped.count_pos
  · rw [blockArray, if_neg (Nat.ne_of_gt later)] at present
    have tables := shaped.tables
    cases hasTables : information.objectBlocks with
    | none =>
      rw [hasTables] at present
      cases present
    | some blocks =>
      rw [hasTables] at present tables
      have inside := List.getElem?_eq_some_iff.mp (Option.join_eq_some_iff.mp present)
      obtain ⟨bounded, -⟩ := inside
      rw [tables.2.1] at bounded
      exact bounded

theorem Shaped.objectAt_lt (present : information.objectAt index = some object) :
    index < count * information.objectsPerBlock :=
  (Nat.div_lt_iff_lt_mul shaped.size_pos).mp (shaped.blockArray_lt (objectAt_eq_some.mp present).1)

theorem Shaped.objectIndex_eq (present : information.objectAt index = some object) :
    objectIndex memory object = index := by
  have bounded := shaped.objectAt_lt present
  have fits := shaped.fits
  rw [objectIndex, shaped.ids index object present, objectsIndexMinimum,
    objectsBuildId_index (by omega), Nat.add_sub_cancel]

theorem Shaped.objectsGetMaximumIndex_eq :
    information.objectsGetMaximumIndex = count * information.objectsPerBlock := by
  rw [ObjectsInformation.objectsGetMaximumIndex, shaped.maximum, objectsBuildId_index shaped.fits]

theorem Shaped.blockCount_eq : information.blockCount = count := by
  rw [blockCount, shaped.objectsGetMaximumIndex_eq, Nat.mul_div_cancel _ shaped.size_pos]

/-- A lookup reads the local table at the index of the identifier. -/
theorem Shaped.objectsGet_eq (inside : index < count * information.objectsPerBlock) :
    information.objectsGet (objectsBuildId api cls node (index + objectsIndexMinimum)) =
      (information.localTable[index]?).join := by
  have fits := shaped.fits
  have maximum : information.maximumId.toNat = 65536 * objectsIdHigh api cls node +
      count * information.objectsPerBlock := by
    rw [shaped.maximum, objectsBuildId_toNat fits]
  have value : (objectsBuildId api cls node (index + objectsIndexMinimum)).toNat =
      65536 * objectsIdHigh api cls node + (index + 1) :=
    objectsBuildId_toNat (by rw [objectsIndexMinimum]; omega)
  have last := shaped.objectsGetMaximumIndex_eq
  rw [ObjectsInformation.objectsGetMaximumIndex] at last
  have delta : (information.maximumId -
      objectsBuildId api cls node (index + objectsIndexMinimum)).toNat =
        count * information.objectsPerBlock - (index + 1) := by
    rw [BitVec.toNat_sub_of_le (by rw [BitVec.le_def, maximum, value]; omega), maximum, value]
    omega
  have below : count * information.objectsPerBlock - (index + 1) <
      count * information.objectsPerBlock := by omega
  have slot : count * information.objectsPerBlock - objectsIndexMinimum -
      (count * information.objectsPerBlock - (index + 1)) = index := by
    rw [objectsIndexMinimum]
    omega
  simp only [ObjectsInformation.objectsGet, last, delta, below, ↓reduceIte, slot]

theorem Shaped.tables_some {blocks : List (Option Nat)}
    (hasTables : information.objectBlocks = some blocks) :
    1 < count ∧ blocks.length = count ∧ information.inactivePerBlock.length = count := by
  have tables := shaped.tables
  rw [hasTables] at tables
  exact tables

theorem Shaped.counted_lt (present : information.blockArray block = some array)
    (later : 1 ≤ block) : block < information.inactivePerBlock.length := by
  have bounded := shaped.blockArray_lt present
  have tables := shaped.tables
  cases hasTables : information.objectBlocks with
  | none =>
    rw [hasTables] at tables
    have := tables.1
    omega
  | some blocks =>
    have counted := (shaped.tables_some hasTables).2.2
    omega

end

variable {after : UnlimitedInformation} {written : ObjectsMemory}

private theorem blockArray_congr (initial : after.initialObjects = information.initialObjects)
    (blocks : after.objectBlocks = information.objectBlocks) :
    after.blockArray = information.blockArray := by
  funext block
  rw [blockArray, blockArray, initial, blocks]

theorem objectAt_congr (size : after.objectsPerBlock = information.objectsPerBlock)
    (arrays : after.blockArray = information.blockArray) :
    after.objectAt = information.objectAt := by
  funext index
  rw [objectAt, objectAt, size, arrays]

theorem Shaped.replace (shaped : Shaped information memory api cls node count)
    (size : after.objectsPerBlock = information.objectsPerBlock)
    (blocks : after.objectBlocks = information.objectBlocks)
    (maximum : after.maximumId = information.maximumId)
    (initial : after.initialObjects = information.initialObjects)
    (counted : after.inactivePerBlock.length = information.inactivePerBlock.length)
    (uncounted : after.inactivePerBlock[0]? = information.inactivePerBlock[0]?)
    (table : after.localTable.length = information.localTable.length)
    (ids : ∀ object, (written object).id = (memory object).id) :
    Shaped after written api cls node count where
  size_pos := size ▸ shaped.size_pos
  count_pos := shaped.count_pos
  fits := size ▸ shaped.fits
  maximum := by rw [maximum, size, shaped.maximum]
  initial := initial ▸ shaped.initial
  tables := by
    rw [counted, blocks]
    exact shaped.tables
  uncounted := uncounted ▸ shaped.uncounted
  table_length := by rw [table, size, shaped.table_length]
  distinct := by
    rw [blockArray_congr initial blocks]
    exact shaped.distinct
  ids index object := by
    rw [objectAt_congr size (blockArray_congr initial blocks), ids]
    exact shaped.ids index object

theorem Shaped.hasTables (shaped : Shaped information memory api cls node count)
    (several : 1 < count) : ∃ blocks, information.objectBlocks = some blocks := by
  have tables := shaped.tables
  cases hasTables : information.objectBlocks with
  | none =>
    rw [hasTables] at tables
    have := tables.1
    omega
  | some blocks => exact ⟨blocks, rfl⟩

/-- The record without the objects of a block. -/
def withoutBlock (information : UnlimitedInformation) (memory : ObjectsMemory)
    (blocks : List (Option Nat)) (block : Nat) : UnlimitedInformation :=
  { information with
    inactiveChain := information.inactiveChain.filter fun object =>
      ¬ objectIndex memory object / information.objectsPerBlock = block
    objectBlocks := some (blocks.set block none)
    inactivePerBlock := information.inactivePerBlock.set block 0
    inactive := information.inactive - information.objectsPerBlock }

def withBlock (information : UnlimitedInformation) (blocks : List (Option Nat))
    (block array : Nat) : UnlimitedInformation :=
  { information with
    objectBlocks := some (blocks.set block (some array))
    inactivePerBlock := information.inactivePerBlock.set block information.objectsPerBlock
    inactive := information.inactive + information.objectsPerBlock
    inactiveChain := information.inactiveChain ++
      (List.range information.objectsPerBlock).map (ObjectAddress.mk array) }

variable {blocks : List (Option Nat)} {counts : List Nat}

theorem blockArray_set (after : UnlimitedInformation) {entry : Option Nat}
    (hasTables : information.objectBlocks = some blocks) (notFirst : 1 ≤ block)
    (inside : block < blocks.length) (initial : after.initialObjects = information.initialObjects)
    (tables : after.objectBlocks = some (blocks.set block entry)) (other : Nat) :
    after.blockArray other = if other = block then entry else information.blockArray other := by
  rw [blockArray, blockArray, hasTables, tables, initial]
  rcases Nat.eq_zero_or_pos other with rfl | later
  · simp [Nat.ne_of_lt notFirst]
  · simp only [Nat.ne_of_gt later, ↓reduceIte, Option.bind_some, List.getElem?_set]
    rcases eq_or_ne block other with rfl | different
    · simp [inside]
    · simp [different, different.symm]

section Block

variable {blocks : List (Option Nat)} (shaped : Shaped information memory api cls node count)
variable (hasTables : information.objectBlocks = some blocks)
variable (notFirst : 1 ≤ block) (bounded : block < count)

include shaped hasTables notFirst bounded

theorem Shaped.objectsFreeObjectsBlock_eq :
    information.objectsFreeObjectsBlock memory block =
      some (information.withoutBlock memory blocks block) := by
  simp only [objectsFreeObjectsBlock, hasTables, bind, Option.bind_some, notFirst,
    shaped.blockCount_eq, bounded, and_self, ↓reduceIte,
    ← BlockTally.inside_iff shaped.size_pos]
  rfl

theorem Shaped.withoutBlock_blockArray (other : Nat) :
    (information.withoutBlock memory blocks block).blockArray other =
      if other = block then none else information.blockArray other := by
  have inside : block < blocks.length := by
    rw [(shaped.tables_some hasTables).2.1]
    exact bounded
  exact blockArray_set (information.withoutBlock memory blocks block) hasTables notFirst inside
    rfl rfl other

theorem Shaped.withoutBlock_objectAt (index : Nat) (object : ObjectAddress) :
    (information.withoutBlock memory blocks block).objectAt index = some object ↔
      information.objectAt index = some object ∧ index / information.objectsPerBlock ≠ block := by
  have size : (information.withoutBlock memory blocks block).objectsPerBlock =
    information.objectsPerBlock := rfl
  rw [objectAt_eq_some, objectAt_eq_some, size,
    shaped.withoutBlock_blockArray hasTables notFirst bounded]
  rcases eq_or_ne (index / information.objectsPerBlock) block with same | different
  · simp [same]
  · simp [different]

theorem Shaped.withoutBlock :
    Shaped (information.withoutBlock memory blocks block) memory api cls node count where
  __ := shaped
  tables := by
    obtain ⟨several, length, counted⟩ := shaped.tables_some hasTables
    exact ⟨several, (List.length_set ..).trans length, (List.length_set ..).trans counted⟩
  uncounted := by
    intro inactive present
    refine shaped.uncounted inactive (Eq.trans ?_ present)
    exact (List.getElem?_set_ne (Nat.ne_of_gt notFirst)).symm
  distinct := by
    intro first second array isFirst isSecond
    rw [shaped.withoutBlock_blockArray hasTables notFirst bounded] at isFirst isSecond
    split at isFirst
    · cases isFirst
    · split at isSecond
      · cases isSecond
      · exact shaped.distinct first second array isFirst isSecond
  ids index object present :=
    shaped.ids index object
      ((shaped.withoutBlock_objectAt hasTables notFirst bounded index object).mp present).1

variable {array : Nat}

theorem Shaped.withBlock_objectAt (vacant : information.blockArray block = none) (index : Nat)
    (object : ObjectAddress) :
    (information.withBlock blocks block array).objectAt index = some object ↔
      information.objectAt index = some object ∨
        object.array = array ∧ object.position < information.objectsPerBlock ∧
          index = block * information.objectsPerBlock + object.position := by
  have positive := shaped.size_pos
  have size : (information.withBlock blocks block array).objectsPerBlock =
    information.objectsPerBlock := rfl
  have inside : block < blocks.length := by
    rw [(shaped.tables_some hasTables).2.1]
    exact bounded
  rw [objectAt_eq_some, objectAt_eq_some, size,
    blockArray_set (information.withBlock blocks block array) hasTables notFirst inside rfl rfl]
  have divided := Nat.div_add_mod' index information.objectsPerBlock
  rcases eq_or_ne (index / information.objectsPerBlock) block with same | different
  · rw [same] at divided
    simp only [same, ↓reduceIte, Option.some.injEq, vacant, reduceCtorEq, false_and, false_or]
    constructor
    · rintro ⟨isArray, isPosition⟩
      rw [isPosition]
      exact ⟨isArray.symm, Nat.mod_lt _ positive, divided.symm⟩
    · rintro ⟨isArray, -, isIndex⟩
      exact ⟨isArray.symm, by omega⟩
  · have outside : ¬ (object.array = array ∧ object.position < information.objectsPerBlock ∧
        index = block * information.objectsPerBlock + object.position) := by
      rintro ⟨-, small, isIndex⟩
      exact different ((BlockTally.inside_iff positive).mpr (by omega))
    simp [different, outside]

/-- The identifiers of the new objects; the other control blocks stay as they are. -/
def withBlockMemory (information : UnlimitedInformation) (memory : ObjectsMemory)
    (api cls node block array : Nat) : ObjectsMemory := fun object =>
  if object.array = array ∧ object.position < information.objectsPerBlock then
    { memory object with
      id := objectsBuildId api cls node
        (block * information.objectsPerBlock + object.position + objectsIndexMinimum) }
  else memory object

omit notFirst in
theorem Shaped.assignBlock_eq :
    information.assignBlock memory block (block * information.objectsPerBlock) array =
      some (information.withBlock blocks block array,
        information.withBlockMemory memory api cls node block array) := by
  obtain ⟨-, length, counted⟩ := shaped.tables_some hasTables
  have written : ∀ object : ObjectAddress,
      (information.maximumId &&& ~~~objectsIndexMask) |||
        (BitVec.ofNat 32 (block * information.objectsPerBlock + object.position +
          objectsIndexMinimum) <<< objectsIndexStartBit) =
        objectsBuildId api cls node
          (block * information.objectsPerBlock + object.position + objectsIndexMinimum) := by
    intro object
    rw [shaped.maximum, objectsBuildId_reindex _ shaped.fits]
  simp only [assignBlock, hasTables, bind, Option.bind_some, length, counted, bounded, and_self,
    ↓reduceIte, objectsExtendSize, written]
  rfl

theorem Shaped.withBlock (vacant : information.blockArray block = none)
    (fresh : ∀ other, information.blockArray other ≠ some array) :
    Shaped (information.withBlock blocks block array)
      (information.withBlockMemory memory api cls node block array) api cls node count where
  __ := shaped
  tables := by
    obtain ⟨several, length, counted⟩ := shaped.tables_some hasTables
    exact ⟨several, (List.length_set ..).trans length, (List.length_set ..).trans counted⟩
  uncounted := by
    intro inactive present
    refine shaped.uncounted inactive (Eq.trans ?_ present)
    exact (List.getElem?_set_ne (Nat.ne_of_gt notFirst)).symm
  distinct := by
    have inside : block < blocks.length := by
      rw [(shaped.tables_some hasTables).2.1]
      exact bounded
    intro first second other isFirst isSecond
    rw [blockArray_set (information.withBlock blocks block array) hasTables notFirst inside
      rfl rfl] at isFirst isSecond
    split at isFirst
    · next firstBlock =>
      split at isSecond
      · next secondBlock => exact firstBlock.trans secondBlock.symm
      · exact absurd (isSecond.trans isFirst.symm) (fresh second)
    · split at isSecond
      · exact absurd (isFirst.trans isSecond.symm) (fresh first)
      · exact shaped.distinct first second other isFirst isSecond
  ids index object present := by
    rcases (shaped.withBlock_objectAt hasTables notFirst bounded vacant index object).mp present
      with old | ⟨isArray, small, isIndex⟩
    · have other : ¬ (object.array = array ∧ object.position < information.objectsPerBlock) := by
        rintro ⟨isArray, -⟩
        exact fresh _ (isArray ▸ (objectAt_eq_some.mp old).1)
      rw [withBlockMemory, if_neg other]
      exact shaped.ids index object old
    · rw [withBlockMemory, if_pos ⟨isArray, small⟩, isIndex]

end Block

theorem Shaped.copiedTables_eq (shaped : Shaped information memory api cls node count) :
    ∃ blocks counts, information.copiedTables = some (blocks, counts) ∧
      blocks.length = count ∧ counts.length = count ∧
      (information.objectBlocks = some blocks ∧ counts = information.inactivePerBlock ∨
        information.objectBlocks = none ∧ blocks = [none] ∧ counts = [0] ∧ count = 1) := by
  have positive := shaped.size_pos
  rw [copiedTables, shaped.objectsGetMaximumIndex_eq, shaped.blockCount_eq, objectsExtendSize]
  cases hasTables : information.objectBlocks with
  | none =>
    have tables := shaped.tables
    rw [hasTables] at tables
    obtain ⟨rfl, -⟩ := tables
    refine ⟨[none], [0], ?_, rfl, rfl, .inr ⟨rfl, rfl, rfl, rfl⟩⟩
    simp
  | some blocks =>
    obtain ⟨several, length, counted⟩ := shaped.tables_some hasTables
    refine ⟨blocks, information.inactivePerBlock, ?_, length, counted, .inl ⟨rfl, rfl⟩⟩
    have larger : information.objectsPerBlock < count * information.objectsPerBlock :=
      (Nat.lt_mul_iff_one_lt_left positive).mpr several
    rw [if_pos larger, Option.map_some, List.take_of_length_le (Nat.le_of_eq length),
      List.take_of_length_le (Nat.le_of_eq counted)]

/-- The record after its tables have grown by a block without objects. -/
def withTables (information : UnlimitedInformation) (blocks : List (Option Nat))
    (counts : List Nat) (api cls node count : Nat) : UnlimitedInformation :=
  { information with
    objectBlocks := some (blocks ++ [none])
    inactivePerBlock := counts ++ [0]
    localTable := information.localTable ++ List.replicate information.objectsPerBlock none
    maximumId := objectsBuildId api cls node ((count + 1) * information.objectsPerBlock) }

theorem Shaped.growTables_eq (shaped : Shaped information memory api cls node count)
    (copied : information.copiedTables = some (blocks, counts)) :
    information.growTables (count * information.objectsPerBlock)
        (count * information.objectsPerBlock + information.objectsPerBlock) =
      some (information.withTables blocks counts api cls node count) := by
  have table : ((List.range (count * information.objectsPerBlock +
        information.objectsPerBlock)).map fun index =>
      if count * information.objectsPerBlock ≤ index ∧
          index < count * information.objectsPerBlock + information.objectsPerBlock then none
      else (information.localTable[index]?).join) =
        information.localTable ++ List.replicate information.objectsPerBlock none := by
    refine List.ext_getElem (by simp [shaped.table_length]) fun index inside _ => ?_
    rw [List.length_map, List.length_range] at inside
    rcases Nat.lt_or_ge index (count * information.objectsPerBlock) with old | new
    · have within : index < information.localTable.length := shaped.table_length ▸ old
      simp [Nat.not_le.mpr old, within]
    · have outside : ¬ index < information.localTable.length := by
        rw [shaped.table_length]
        omega
      simp [List.getElem_append, new, inside, outside]
  rw [growTables, copied, Option.map_some, objectsExtendSize, table, shaped.maximum,
    objectsBuildId_reindex _ shaped.fits, ← Nat.succ_mul]
  rfl

theorem Shaped.withTables_blockArray
    (copied : information.objectBlocks = some blocks ∧ counts = information.inactivePerBlock ∨
      information.objectBlocks = none ∧ blocks = [none] ∧ counts = [0] ∧ count = 1) :
    (information.withTables blocks counts api cls node count).blockArray =
      information.blockArray := by
  funext block
  rw [blockArray, blockArray]
  rcases Nat.eq_zero_or_pos block with rfl | later
  · rfl
  · simp only [withTables, Nat.ne_of_gt later, ↓reduceIte, Option.bind_some]
    rcases copied with ⟨hasTables, -⟩ | ⟨noTables, rfl, -⟩
    · rw [hasTables, Option.bind_some]
      rcases Nat.lt_trichotomy block blocks.length with inside | rfl | outside
      · rw [List.getElem?_append_left inside]
      · simp
      · rw [List.getElem?_eq_none (by simp; omega), List.getElem?_eq_none (by omega)]
    · rw [noTables]
      rcases Nat.lt_or_ge block 2 with isOne | beyond
      · obtain rfl : block = 1 := by omega
        rfl
      · rw [List.getElem?_eq_none (by simp; omega)]
        rfl

/-- The tables grow by one block and keep their entries. -/
theorem Shaped.withTables (shaped : Shaped information memory api cls node count)
    (fits : (count + 1) * information.objectsPerBlock < 65536) (length : blocks.length = count)
    (counted : counts.length = count)
    (copied : information.objectBlocks = some blocks ∧ counts = information.inactivePerBlock ∨
      information.objectBlocks = none ∧ blocks = [none] ∧ counts = [0] ∧ count = 1) :
    Shaped (information.withTables blocks counts api cls node count) memory api cls node
      (count + 1) := by
  have arrays : (information.withTables blocks counts api cls node count).blockArray =
      information.blockArray := Shaped.withTables_blockArray copied
  have objects : (information.withTables blocks counts api cls node count).objectAt =
      information.objectAt := objectAt_congr rfl arrays
  have positive := shaped.count_pos
  exact
    { size_pos := shaped.size_pos
      count_pos := Nat.succ_pos count
      fits := fits
      maximum := rfl
      initial := shaped.initial
      tables := ⟨by omega, by simp [length], by simp [UnlimitedInformation.withTables, counted]⟩
      uncounted := by
        intro inactive present
        have inOld : (counts ++ [0])[0]? = some inactive := present
        rw [List.getElem?_append_left (counted ▸ positive)] at inOld
        rcases copied with ⟨-, rfl⟩ | ⟨-, -, rfl, -⟩
        · exact shaped.uncounted inactive inOld
        · exact (Option.some.inj inOld).symm
      table_length := by
        simp [UnlimitedInformation.withTables, shaped.table_length, Nat.succ_mul]
      distinct := by
        rw [arrays]
        exact shaped.distinct
      ids := by
        intro index object
        rw [objects]
        exact shaped.ids index object }

end Shape

end UnlimitedInformation

end RTContainer.Score
