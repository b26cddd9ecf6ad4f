import RTContainer.Score.ObjectId

/-! The object services of the score: lookup, opening and closing of
identifiers, and the static allocators. A step of the source that writes
outside a table, links a node that is still linked or calls through a `NULL`
pointer has no result here (`none`). -/

set_option autoImplicit false

namespace RTContainer.Score

/-- A control block: the array that `malloc()` returned for the objects of a
class, and the position in it. -/
structure ObjectAddress where
  array : Nat
  position : Nat
  deriving DecidableEq

/-- `Objects_Control` without its chain node. -/
structure ObjectsControl where
  id : ObjectsId
  name : BitVec 32
  deriving DecidableEq

/-- The `allocate` and `deallocate` handlers of an information record. -/
inductive ObjectsAllocator where
  | null
  | static
  | ipcSemaphore
  deriving DecidableEq

/-- `Objects_Information`; the `Inactive` chain is given by its nodes. -/
structure ObjectsInformation where
  maximumId : ObjectsId
  localTable : List (Option ObjectAddress)
  allocator : ObjectsAllocator
  inactive : Nat
  initialObjects : Option Nat
  inactiveChain : List ObjectAddress
  deriving DecidableEq

/-- The contents of the control blocks. -/
abbrev ObjectsMemory := ObjectAddress → ObjectsControl

namespace ObjectsInformation

def zeroed : ObjectsInformation where
  maximumId := 0
  localTable := []
  allocator := .null
  inactive := 0
  initialObjects := none
  inactiveChain := []

variable (information : ObjectsInformation)

def objectsGetMaximumIndex : Nat :=
  objectsGetIndex information.maximumId

def objectsGet (id : ObjectsId) : Option ObjectAddress :=
  let delta := information.maximumId - id
  let last := objectsGetIndex information.maximumId
  if delta.toNat < last then
    (information.localTable[last - objectsIndexMinimum - delta.toNat]?).join
  else none

/-- `_Objects_Set_local_object`. The two assertions of the source are the bounds
of the table. -/
def objectsSetLocalObject (index : Nat)
    (object : Option ObjectAddress) : Option ObjectsInformation :=
  if objectsIndexMinimum ≤ index ∧ index ≤ information.objectsGetMaximumIndex then
    some { information with
      localTable := information.localTable.set (index - objectsIndexMinimum) object }
  else none

variable (memory : ObjectsMemory) (object : ObjectAddress)

def objectsOpenU32 (name : BitVec 32) : Option (ObjectsInformation × ObjectsMemory) := do
  let opened ← information.objectsSetLocalObject (objectsGetIndex (memory object).id) (some object)
  return (opened, Function.update memory object { memory object with name := name })

def objectsClose : Option (ObjectsInformation × ObjectsMemory) := do
  let closed ← information.objectsSetLocalObject (objectsGetIndex (memory object).id) none
  return (closed, Function.update memory object { memory object with name := 0 })

/-- `_Objects_Get_inactive`: the first node of the chain is taken off. -/
def objectsGetInactive : Option ObjectAddress × ObjectsInformation :=
  match information.inactiveChain with
  | [] => (none, information)
  | object :: rest => (some object, { information with inactiveChain := rest })

def chainAppend : Option ObjectsInformation :=
  if object ∈ information.inactiveChain then none
  else some { information with inactiveChain := information.inactiveChain ++ [object] }

def ipcSemaphoreAllocateStatic : Option (Option ObjectAddress × ObjectsInformation) :=
  match information.objectsGetInactive with
  | (none, taken) => some (none, taken)
  | (some object, taken) => do
      let entered ← taken.objectsSetLocalObject (objectsGetIndex (memory object).id) (some object)
      return (some object, { entered with inactive := entered.inactive - 1 })

/-- `_IPC_Semaphore_Free_static`. The slot that is cleared is `local_table[index]`. -/
def ipcSemaphoreFreeStatic : Option ObjectsInformation :=
  let index := objectsGetIndex (memory object).id
  if index < information.localTable.length then do
    let appended ← { information with
      localTable := information.localTable.set index none }.chainAppend object
    return { appended with inactive := appended.inactive + 1 }
  else none

def objectsAllocate : Option (Option ObjectAddress × ObjectsInformation) :=
  match information.allocator with
  | .null => none
  | .static => some information.objectsGetInactive
  | .ipcSemaphore => information.ipcSemaphoreAllocateStatic memory

/-- `_Objects_Free`: a call of the `deallocate` handler. -/
def objectsFree : Option ObjectsInformation :=
  match information.allocator with
  | .null => none
  | .static => information.chainAppend object
  | .ipcSemaphore => information.ipcSemaphoreFreeStatic memory object

def objectsSearchAllNodes : Nat := 0
def objectsSearchLocalNode : Nat := 0x7fffffff
def objectsLocalNode : Nat := 1

def objectsIsLocalNodeSearch (node : Nat) : Bool :=
  node = objectsSearchLocalNode ∨ node = objectsLocalNode

/-- `_Objects_Name_to_id_u32` for a destination that is not `NULL`: the first
object of the table with the name. -/
def objectsNameToIdU32 (name : BitVec 32) (node : Nat) : Option ObjectAddress :=
  if node = objectsSearchAllNodes ∨ objectsIsLocalNodeSearch node then
    (information.localTable.take information.objectsGetMaximumIndex).findSome? fun slot =>
      slot.filter fun object => (memory object).name = name
  else none

/-- `_Objects_Initialize_information`: the identifiers are written once more
and the chain is linked in the order of the array. -/
def objectsInitializeInformation : ObjectsInformation × ObjectsMemory :=
  match information.initialObjects with
  | none => (information, memory)
  | some array =>
    let maximum := information.objectsGetMaximumIndex
    let apiClassAndNode := information.maximumId &&& ~~~objectsIndexMask
    ({ information with inactiveChain := (List.range maximum).map (ObjectAddress.mk array) },
      fun object =>
        if object.array = array ∧ object.position < maximum then
          { memory object with
            id := apiClassAndNode |||
              (BitVec.ofNat 32 (object.position + objectsIndexMinimum) <<< objectsIndexStartBit) }
        else memory object)

end ObjectsInformation

end RTContainer.Score
