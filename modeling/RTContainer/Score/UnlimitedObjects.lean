import RTContainer.Score.Objects

/-! Classes of unlimited objects. When no object is inactive, the class grows by a block of
objects from the workspace; when enough objects are inactive, a block is given back. The counters
of the record are 16 bits wide in the source, which no run exceeds. -/

set_option autoImplicit false

namespace RTContainer.Score

def objectsIdFinalIndex : Nat := 0xffff

/-- The `extend` handler behind the `allocate` handler of a class: that of
`_Objects_Allocate_unlimited()` or that of `_Thread_Allocate_unlimited()`. -/
inductive ObjectsExtend where
  | objects
  | threads
  deriving DecidableEq

/-- `Objects_Information` of an unlimited class; the record underneath has no static handler.
`objectBlocks` is `NULL` until the class grows for the first time. -/
structure UnlimitedInformation extends ObjectsInformation where
  extend : ObjectsExtend
  objectsPerBlock : Nat
  objectBlocks : Option (List (Option Nat))
  inactivePerBlock : List Nat
  deriving DecidableEq

/-- What the workspace gives to an extension: the array of objects, the tables and, in the thread
class, the thread queue heads. -/
structure ExtendAllocations where
  objects : Option Nat
  tables : Bool
  heads : Bool
  deriving DecidableEq

/-- The position at which the search for a block without objects stops. -/
structure BlockSearch where
  doExtend : Bool
  block : Nat
  indexBase : Nat
  deriving DecidableEq

namespace BlockSearch

/-- The loop over `object_blocks`. -/
def walk (extendCount : Nat) (block indexBase : Nat) : List (Option Nat) → BlockSearch
  | [] => ⟨true, block, indexBase⟩
  | none :: _ => ⟨false, block, indexBase⟩
  | some _ :: rest => walk extendCount (block + 1) (indexBase + extendCount) rest

end BlockSearch

namespace UnlimitedInformation

def objectsInformationDefine (api cls : Nat) (extend : ObjectsExtend) (max : BitVec 16)
    (objects : Nat) : UnlimitedInformation where
  maximumId := objectsBuildId api cls 1 max.toNat
  localTable := List.replicate max.toNat none
  allocator := .null
  inactive := 0
  initialObjects := some objects
  inactiveChain := []
  extend := extend
  objectsPerBlock := max.toNat
  objectBlocks := none
  inactivePerBlock := []

variable (information : UnlimitedInformation)

def objectsExtendSize : Nat := information.objectsPerBlock

variable (memory : ObjectsMemory)

def objectIndex (object : ObjectAddress) : Nat :=
  objectsGetIndex (memory object).id - objectsIndexMinimum

def blockCount : Nat :=
  information.objectsGetMaximumIndex / information.objectsPerBlock

def searchBlock : BlockSearch :=
  BlockSearch.walk information.objectsExtendSize 1 information.objectsExtendSize
    (match information.objectBlocks with
    | none => []
    | some blocks => (blocks.take information.blockCount).drop 1)

/-- The entries of the old tables that are copied. There are none before the first extension. -/
def copiedTables : Option (List (Option Nat) × List Nat) :=
  if information.objectsExtendSize < information.objectsGetMaximumIndex then
    information.objectBlocks.map fun blocks =>
      (blocks.take information.blockCount, information.inactivePerBlock.take information.blockCount)
  else some ([none], [0])

/-- The tables grow by a block, whose entries are `NULL` at first. -/
def growTables (indexBase newMaximum : Nat) : Option UnlimitedInformation :=
  information.copiedTables.map fun (blocks, counts) =>
    { information with
      objectBlocks := some (blocks ++ [none])
      inactivePerBlock := counts ++ [0]
      localTable := (List.range newMaximum).map fun index =>
        if indexBase ≤ index ∧ index < indexBase + information.objectsExtendSize then none
        else (information.localTable[index]?).join
      maximumId := (information.maximumId &&& ~~~objectsIndexMask) |||
        (BitVec.ofNat 32 newMaximum <<< objectsIndexStartBit) }

def assignBlock (block indexBase array : Nat) : Option (UnlimitedInformation × ObjectsMemory) := do
  let blocks ← information.objectBlocks
  let apiClassAndNode := information.maximumId &&& ~~~objectsIndexMask
  if block < blocks.length ∧ block < information.inactivePerBlock.length then
    return ({ information with
        objectBlocks := some (blocks.set block (some array))
        inactivePerBlock := information.inactivePerBlock.set block information.objectsPerBlock
        inactive := information.inactive + information.objectsPerBlock
        inactiveChain := information.inactiveChain ++
          (List.range information.objectsExtendSize).map (ObjectAddress.mk array) },
      fun object =>
        if object.array = array ∧ object.position < information.objectsExtendSize then
          { memory object with
            id := apiClassAndNode |||
              (BitVec.ofNat 32 (indexBase + object.position + objectsIndexMinimum) <<<
                objectsIndexStartBit) }
        else memory object)
  else none

variable (allocations : ExtendAllocations)

/-- `_Objects_Extend_information`. The block is 0 when nothing has been done. -/
def objectsExtendInformation : Option (Nat × UnlimitedInformation × ObjectsMemory) :=
  let newMaximum := information.objectsGetMaximumIndex + information.objectsExtendSize
  let found := information.searchBlock
  if objectsIdFinalIndex < newMaximum then some (0, information, memory)
  else
    match allocations.objects with
    | none => some (0, information, memory)
    | some array =>
      if found.doExtend ∧ allocations.tables = false then some (0, information, memory)
      else do
        let grown ←
          if found.doExtend then information.growTables found.indexBase newMaximum
          else some information
        let assigned ← grown.assignBlock memory found.block found.indexBase array
        return (found.block, assigned)

/-- `_Objects_Free_objects_block`. The walk takes the objects of the block off the chain; the
assertions of the source bound the block. -/
def objectsFreeObjectsBlock (block : Nat) : Option UnlimitedInformation := do
  let indexBase := block * information.objectsPerBlock
  let indexEnd := indexBase + information.objectsPerBlock
  let blocks ← information.objectBlocks
  if 1 ≤ block ∧ block < information.blockCount then
    return { information with
      inactiveChain := information.inactiveChain.filter fun object =>
        ¬ (indexBase ≤ objectIndex memory object ∧ objectIndex memory object < indexEnd)
      objectBlocks := some (blocks.set block none)
      inactivePerBlock := information.inactivePerBlock.set block 0
      inactive := information.inactive - information.objectsPerBlock }
  else none

/-- `_Objects_Shrink_information`: the first block after the initial one that has only inactive
objects is freed. -/
def objectsShrinkInformation : Option UnlimitedInformation :=
  match (List.range' 1 (information.blockCount - 1)).find? fun block =>
    information.inactivePerBlock[block]? = some information.objectsPerBlock with
  | none => some information
  | some block => information.objectsFreeObjectsBlock memory block

/-- The `extend` handlers. Without new heads the thread class frees the new block at once. -/
def extendInformation : Option (UnlimitedInformation × ObjectsMemory) := do
  let (block, extended, written) ← information.objectsExtendInformation memory allocations
  match information.extend with
  | .objects => return (extended, written)
  | .threads =>
    if 0 < block ∧ allocations.heads = false then
      return (← extended.objectsFreeObjectsBlock written block, written)
    else return (extended, written)

def objectsIsInAllocatedBlock (index objectsPerBlock : Nat) : Bool := objectsPerBlock ≤ index

def objectsActivateUnlimited (object : ObjectAddress) : Option UnlimitedInformation :=
  let index := objectIndex memory object
  if objectsIsInAllocatedBlock index information.objectsPerBlock then
    let block := index / information.objectsPerBlock
    if block < information.inactivePerBlock.length then
      some { information with
        inactivePerBlock := information.inactivePerBlock.modify block (· - 1)
        inactive := information.inactive - 1 }
    else none
  else some information

def objectsGetInactive (information : UnlimitedInformation) :
    Option ObjectAddress × UnlimitedInformation :=
  let (object, taken) := information.toObjectsInformation.objectsGetInactive
  (object, { information with toObjectsInformation := taken })

def objectsAllocateWithExtend :
    Option (Option ObjectAddress × UnlimitedInformation × ObjectsMemory) :=
  match information.objectsGetInactive with
  | (some object, taken) => do
      return (some object, ← taken.objectsActivateUnlimited memory object, memory)
  | (none, _) => do
      let (extended, written) ← information.extendInformation memory allocations
      match extended.objectsGetInactive with
      | (some object, taken) =>
        return (some object, ← taken.objectsActivateUnlimited written object, written)
      | (none, taken) => return (none, taken, written)

def chainAppend (information : UnlimitedInformation) (object : ObjectAddress) :
    Option UnlimitedInformation :=
  (information.toObjectsInformation.chainAppend object).map fun appended =>
    { information with toObjectsInformation := appended }

/-- `_Objects_Free_unlimited`. A block is given back from one and a half blocks of inactive
objects on. -/
def objectsFreeUnlimited (object : ObjectAddress) : Option UnlimitedInformation := do
  let appended ← information.chainAppend object
  let index := objectIndex memory object
  if appended.objectsPerBlock ≠ 0 ∧
      objectsIsInAllocatedBlock index appended.objectsPerBlock then
    let block := index / appended.objectsPerBlock
    if block < appended.inactivePerBlock.length then
      let counted := { appended with
        inactivePerBlock := appended.inactivePerBlock.modify block (· + 1)
        inactive := appended.inactive + 1 }
      if counted.objectsPerBlock + counted.objectsPerBlock / 2 < counted.inactive then
        counted.objectsShrinkInformation memory
      else some counted
    else none
  else some appended

def objectsOpenU32 (information : UnlimitedInformation) (memory : ObjectsMemory)
    (object : ObjectAddress) (name : BitVec 32) :
    Option (UnlimitedInformation × ObjectsMemory) :=
  (information.toObjectsInformation.objectsOpenU32 memory object name).map
    fun (opened, written) => ({ information with toObjectsInformation := opened }, written)

def objectsClose (information : UnlimitedInformation) (memory : ObjectsMemory)
    (object : ObjectAddress) : Option (UnlimitedInformation × ObjectsMemory) :=
  (information.toObjectsInformation.objectsClose memory object).map
    fun (closed, written) => ({ information with toObjectsInformation := closed }, written)

end UnlimitedInformation

/-- A class in use. `inUse` holds the objects that have been allocated and not freed, and `opened`
those that have been opened and not closed, each with the identifier that it was opened under. -/
structure UnlimitedClass where
  information : UnlimitedInformation
  memory : ObjectsMemory
  inUse : List ObjectAddress
  opened : List (ObjectsId × ObjectAddress)

/-- The calls on a class; the object of an allocation is the first inactive one. -/
inductive UnlimitedCall where
  | allocate (allocations : ExtendAllocations)
  | openU32 (object : ObjectAddress) (name : BitVec 32)
  | close (object : ObjectAddress)
  | free (object : ObjectAddress)
  deriving DecidableEq

namespace UnlimitedClass

def initial (api cls : Nat) (extend : ObjectsExtend) (max : BitVec 16) (objects : Nat)
    (memory : ObjectsMemory) : UnlimitedClass :=
  let defined := UnlimitedInformation.objectsInformationDefine api cls extend max objects
  let (initialized, written) := defined.toObjectsInformation.objectsInitializeInformation memory
  { information := { defined with toObjectsInformation := initialized }
    memory := written
    inUse := []
    opened := [] }

def perform (state : UnlimitedClass) : UnlimitedCall → Option UnlimitedClass
  | .allocate allocations =>
    (state.information.objectsAllocateWithExtend state.memory allocations).map
      fun (object, allocated, written) =>
        { state with
          information := allocated
          memory := written
          inUse := object.toList ++ state.inUse }
  | .openU32 object name =>
    (state.information.objectsOpenU32 state.memory object name).map fun (opened, written) =>
      { state with
        information := opened
        memory := written
        opened := ((state.memory object).id, object) :: state.opened }
  | .close object =>
    (state.information.objectsClose state.memory object).map fun (closed, written) =>
      { state with
        information := closed
        memory := written
        opened := state.opened.filter fun pair => pair.2 ≠ object }
  | .free object =>
    (state.information.objectsFreeUnlimited state.memory object).map fun freed =>
      { state with information := freed, inUse := state.inUse.erase object }

/-- A run stops at a call that has no result. -/
def step (state : Option UnlimitedClass) (call : UnlimitedCall) : Option UnlimitedClass :=
  state.bind fun state => state.perform call

end UnlimitedClass

end RTContainer.Score
