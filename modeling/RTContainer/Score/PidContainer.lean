import Mathlib.Data.List.Sort
import RTContainer.Score.ObjectId

/-! The PID containers of `pidContainer.c`. A container keeps its members three
times: in `pidArray`, indexed by VID, in the list of recycled VIDs and in the
list of threads. The lists are linked through heap nodes, so every operation
takes the outcomes of the `malloc()` calls it makes; the addresses of the
containers themselves are naturals. -/

set_option autoImplicit false

namespace RTContainer.Score

open Function

def rtemsMaxProcessLimit : Nat := 1024

structure ProcessVid where
  vid : Nat
  id : ObjectsId
  deriving DecidableEq

/-- `struct PidContainer`. The two linked lists are given by their contents. -/
structure PidContainer (Thread : Type) where
  rc : Int
  containerID : Int
  freeVidList : List Nat
  pidArray : Nat → ProcessVid
  threadList : List Thread
  pidCount : Nat

/-- The containers in the heap, the registry hanging off the root container
object, the identifier counter, and `thread->container->pidContainer` of every
thread (`none` also when the thread has no container object). -/
structure PidSystem (Thread : Type) where
  root : Nat
  containers : Nat → Option (PidContainer Thread)
  registry : List Nat
  pidContainerId : Int
  pidContainer : Thread → Option Nat

variable {Thread : Type} [DecidableEq Thread] (objectId : Thread → ObjectsId)

namespace PidContainer

def initial (containerID : Int) : PidContainer Thread where
  rc := 0
  containerID := containerID
  freeVidList := []
  pidArray := fun _ => ⟨0, 0⟩
  threadList := []
  pidCount := 0

/-- The sorted insertion that `rtems_pid_container_remove_task` and
`rtems_pid_container_move_task` make into the list of recycled VIDs. -/
def insertFreeVid (vid : Nat) : List Nat → List Nat
  | [] => [vid]
  | head :: rest =>
    if head < vid then head :: insertFreeVid vid rest else vid :: head :: rest

variable (container : PidContainer Thread)

def takeVid : Nat × PidContainer Thread :=
  match container.freeVidList with
  | vid :: rest => (vid, { container with freeVidList := rest })
  | [] => (container.pidCount + 1, { container with pidCount := container.pidCount + 1 })

def setSlot (index : Nat) (slot : ProcessVid) : PidContainer Thread :=
  { container with pidArray := update container.pidArray index slot }

/-- `rtems_pid_container_add_task` on a container that is not `NULL`. The slot
is filled in before the list node is allocated. -/
def addTask (thread : Thread) (malloc : Bool) : PidContainer Thread :=
  if container.pidCount ≥ rtemsMaxProcessLimit - 1 then container
  else
    let (vid, taken) := container.takeVid
    let counted := { taken with rc := taken.rc + 1 }
    let filled := counted.setSlot vid ⟨vid, objectId thread⟩
    if malloc then { filled with threadList := thread :: filled.threadList } else filled

/-- The first slot holding an object identifier, as `remove_task` searches it. -/
def slotOf (id : ObjectsId) : Option Nat :=
  (List.range rtemsMaxProcessLimit).find? fun index => (container.pidArray index).id = id

/-- The search of `move_task`, which starts at VID 1 and skips empty slots. -/
def usedSlotOf (id : ObjectsId) : Option Nat :=
  (List.range' 1 (rtemsMaxProcessLimit - 1)).find? fun index =>
    (container.pidArray index).id = id ∧ (container.pidArray index).vid ≠ 0

def releaseSlot (index vid : Nat) : PidContainer Thread :=
  { container.setSlot index ⟨0, 0⟩ with
    freeVidList := insertFreeVid vid container.freeVidList }

/-- The changes `rtems_pid_container_remove_task` makes to the container
itself; `none` when it returns before changing anything. -/
def removeTask (thread : Thread) (malloc : Bool) : Option (PidContainer Thread) :=
  if container.rc ≤ 0 then none
  else
    let unlink := fun (current : PidContainer Thread) =>
      { current with threadList := current.threadList.erase thread, rc := current.rc - 1 }
    match container.slotOf (objectId thread) with
    | some index =>
      if malloc then some (unlink (container.releaseSlot index (container.pidArray index).vid))
      else none
    | none => some (unlink container)

end PidContainer

namespace PidSystem

variable (system : PidSystem Thread)

def store (address : Nat) (container : Option (PidContainer Thread)) : PidSystem Thread :=
  { system with containers := update system.containers address container }

variable (container : Option Nat)

/-- The functions below check their containers for `NULL`; on one that has been freed the
code has no meaning, and who may pass one asks `isLive` first. -/
def isLive : Bool :=
  container.all fun address => (system.containers address).isSome

def rtemsPidContainerInitializeRoot (root : Nat) : PidSystem Thread where
  root := root
  containers := update (fun _ => none) root (some (PidContainer.initial 1))
  registry := []
  pidContainerId := 1
  pidContainer := fun _ => none

/-- `rtems_pid_container_create`. `address` is what `malloc()` returned for the
container and `malloc` tells whether the registry node was allocated. -/
def rtemsPidContainerCreate (address : Option Nat) (malloc : Bool) : PidSystem Thread :=
  match address with
  | none => system
  | some container =>
    let created := { system with pidContainerId := system.pidContainerId + 1 }.store container
      (some (PidContainer.initial (system.pidContainerId + 1)))
    if malloc then { created with registry := container :: created.registry } else created

def rtemsPidContainerAddTask (thread : Option Thread) (malloc : Bool) : PidSystem Thread :=
  match container, thread with
  | some container, some thread =>
    match system.containers container with
    | some record => system.store container (some (record.addTask objectId thread malloc))
    | none => system
  | _, _ => system

def redirect (thread : Thread) (old new : Nat) : PidSystem Thread :=
  if system.pidContainer thread = some old then
    { system with pidContainer := update system.pidContainer thread (some new) }
  else system

/-- The loop of `rtems_pid_container_delete` over the members of the container
at `deleted`. The outcome of the next allocation is `malloc 0`. -/
def rehome (deleted : Nat) : (Nat → Bool) → PidSystem Thread → List Thread → PidSystem Thread
  | _, system, [] => system
  | malloc, system, thread :: rest =>
    let added := system.rtemsPidContainerAddTask objectId (some system.root) (some thread)
      (malloc 0)
    rehome deleted (fun index => malloc (index + 1)) (added.redirect thread deleted added.root) rest

def rtemsPidContainerDelete (malloc : Nat → Bool) : PidSystem Thread :=
  match container with
  | none => system
  | some deleted =>
    if deleted = system.root then system
    else
      match system.containers deleted with
      | none => system
      | some record =>
        let unlisted := { system with registry := system.registry.erase deleted }
        let emptied := unlisted.store deleted (some { record with rc := -1, threadList := [] })
        (rehome objectId deleted malloc emptied record.threadList).store deleted none

/-- `rtems_pid_container_remove_task`. `malloc 0` is the outcome for the VID
node; the others are those of a following `rtems_pid_container_delete`. -/
def rtemsPidContainerRemoveTask (thread : Option Thread) (malloc : Nat → Bool) : PidSystem Thread :=
  match container, thread with
  | some container, some thread =>
    match (system.containers container).bind (·.removeTask objectId thread (malloc 0)) with
    | none => system
    | some record =>
      let removed := system.store container (some record)
      if record.rc = 0 then
        removed.rtemsPidContainerDelete objectId (some container) fun index => malloc (index + 1)
      else removed
  | _, _ => system

variable (src dest : PidContainer Thread)

/-- The VID that `rtems_pid_container_move_task` takes from the destination:
a recycled one, or the next unused one when a node for it can be allocated. -/
def moveVid (malloc : Bool) : Option (Nat × PidContainer Thread) :=
  match dest.freeVidList with
  | _ :: _ => some dest.takeVid
  | [] =>
    if dest.pidCount ≥ rtemsMaxProcessLimit - 1 then none
    else if malloc then some dest.takeVid else none

def leaveSource (thread : Thread) (srcVid : Nat) : PidContainer Thread :=
  { src.releaseSlot srcVid srcVid with
    threadList := src.threadList.erase thread
    rc := src.rc - 1 }

def joinDest (thread : Thread) (destVid : Nat) : PidContainer Thread :=
  { dest.setSlot destVid ⟨destVid, objectId thread⟩ with
    threadList := thread :: dest.threadList
    rc := dest.rc + 1 }

/-- The checks of `rtems_pid_container_move_task` on two different containers,
and the two containers after the move; `none` when it returns early. -/
def moveRecords (thread : Thread) (malloc : Bool) :
    Option (PidContainer Thread × PidContainer Thread) :=
  if src.rc ≤ 0 then none
  else if thread ∉ src.threadList then none
  else
    match src.usedSlotOf (objectId thread) with
    | none => none
    | some srcVid =>
      if thread ∈ dest.threadList then none
      else
        (moveVid dest malloc).map fun (destVid, taken) =>
          (leaveSource src thread srcVid, joinDest objectId taken thread destVid)

/-- `rtems_pid_container_move_task`. `malloc 0` is the outcome for the VID
node; the others are those of a following `rtems_pid_container_delete`. -/
def rtemsPidContainerMoveTask (srcContainer destContainer : Option Nat)
    (thread : Option Thread) (malloc : Nat → Bool) : PidSystem Thread :=
  match srcContainer, destContainer, thread with
  | some srcContainer, some destContainer, some thread =>
    if srcContainer = destContainer then system
    else
      match system.containers srcContainer, system.containers destContainer with
      | some src, some dest =>
        match moveRecords objectId src dest thread (malloc 0) with
        | none => system
        | some (src, dest) =>
          let moved := (system.store srcContainer (some src)).store destContainer (some dest)
          let pointed := moved.redirect thread srcContainer destContainer
          if src.rc = 0 then
            pointed.rtemsPidContainerDelete objectId (some srcContainer)
              fun index => malloc (index + 1)
          else pointed
      | _, _ => system
  | _, _, _ => system

def rtemsPidContainerIncRc : PidSystem Thread :=
  match container with
  | none => system
  | some container =>
    match system.containers container with
    | some record => system.store container (some { record with rc := record.rc + 1 })
    | none => system

def onList (thread : Thread) (address : Nat) : Bool :=
  match system.containers address with
  | some record => decide (thread ∈ record.threadList)
  | none => false

def rtemsPidContainerFindByThread (thread : Option Thread) : Option Nat :=
  match thread with
  | none => none
  | some thread => (system.root :: system.registry).find? (system.onList thread)

end PidSystem

end RTContainer.Score
