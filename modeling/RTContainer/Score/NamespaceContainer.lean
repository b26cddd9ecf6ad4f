import Mathlib.Logic.Function.Basic

/-! The UTS, mount, network and IPC containers of `utsContainer.c`,
`mntContainer.c`, `netContainer.c` and `ipcContainer.c`, which handle references
in the same way but for a few differences. What a container holds besides its
reference count and its identifier is left out. A call that goes through a
`NULL` or freed pointer has no result (`none`). -/

set_option autoImplicit false

namespace RTContainer.Score

open Function

inductive NamespaceKind where
  | uts
  | mnt
  | net
  | ipc
  deriving DecidableEq

/-- What the kinds do differently: the reference counts of the root and of a new
container, whether `move_task` spares the container with identifier 1, takes a
thread of such a container for a member of the source and counts the destination
first, and whether `delete` moves threads to the root. -/
structure NamespaceRules where
  rootRc : Int
  initialRc : Int
  sparesIdOne : Bool
  comparesIds : Bool
  countsFirst : Bool
  rehomes : Bool

def NamespaceKind.rules : NamespaceKind → NamespaceRules
  | uts =>
    { rootRc := 0, initialRc := 0, sparesIdOne := false, comparesIds := false
      countsFirst := false, rehomes := true }
  | mnt =>
    { rootRc := 1, initialRc := 1, sparesIdOne := true, comparesIds := true
      countsFirst := false, rehomes := true }
  | net =>
    { rootRc := 3, initialRc := 1, sparesIdOne := true, comparesIds := false
      countsFirst := true, rehomes := true }
  | ipc =>
    { rootRc := 3, initialRc := 1, sparesIdOne := true, comparesIds := false
      countsFirst := false, rehomes := false }

/-- The fields of a container that `move_task` and `delete` look at. -/
structure NamespaceContainer where
  rc : Int
  id : Int
  deriving DecidableEq

/-- The containers of one kind in the heap, the list that hangs off the root
container object, the identifier counter, and the pointer of every thread that
has a container object. -/
structure NamespaceSystem (Thread : Type) where
  root : Nat
  containers : Nat → Option NamespaceContainer
  listHead : List Nat
  idCounter : Int
  pointer : Thread → Option Nat

structure ThreadTables (Thread : Type) where
  threads : List Thread
  executing : Thread

def threadIterate {Thread State : Type} (visitor : Thread → State → Option (State × Bool)) :
    List Thread → State → Option State
  | [], state => some state
  | thread :: rest, state =>
    (visitor thread state).bind fun (visited, done) =>
      if done then some visited else threadIterate visitor rest visited

variable {Thread : Type} [DecidableEq Thread]

namespace NamespaceSystem

/-- The `initialize_root` of a kind, run once before any thread exists. -/
def initializeRoot (rules : NamespaceRules) (root : Nat) : NamespaceSystem Thread where
  root := root
  containers := update (fun _ => none) root (some ⟨rules.rootRc, 1⟩)
  listHead := []
  idCounter := 1
  pointer := fun _ => none

variable (system : NamespaceSystem Thread)

def store (address : Nat) (container : Option NamespaceContainer) : NamespaceSystem Thread :=
  { system with containers := update system.containers address container }

def setPointer (thread : Thread) (address : Nat) : NamespaceSystem Thread :=
  { system with pointer := update system.pointer thread (some address) }

def addRc (address : Nat) (delta : Int) : Option (NamespaceSystem Thread) :=
  (system.containers address).map fun container =>
    system.store address (some { container with rc := container.rc + delta })

def addToList (address : Nat) (malloc : Bool) : NamespaceSystem Thread :=
  if malloc then { system with listHead := address :: system.listHead } else system

/-- The `create` of a kind once the container has been allocated. `malloc` tells
whether the container gets on the list. -/
def create (rules : NamespaceRules) (system : NamespaceSystem Thread) (address : Nat)
    (malloc : Bool) : NamespaceSystem Thread :=
  ({ system with idCounter := system.idCounter + 1 }.store address
    (some ⟨rules.initialRc, system.idCounter + 1⟩)).addToList address malloc

def switchToRoot (deleted : Nat) (thread : Thread) : Option (NamespaceSystem Thread) :=
  if system.pointer thread = some deleted then
    ((system.setPointer thread system.root).addRc system.root 1).bind fun counted =>
      counted.addRc deleted (-1)
  else some system

variable (tables : ThreadTables Thread)

/-- The threads that `delete` takes out of a container: those that
`rtems_task_iterate` visits with `switch_to_root`, which always returns `true`,
and the executing thread. -/
def rehome (deleted : Nat) : Option (NamespaceSystem Thread) :=
  (threadIterate
    (fun thread (state : NamespaceSystem Thread) =>
      (state.switchToRoot deleted thread).map fun visited => (visited, true))
    tables.threads system).bind fun iterated => iterated.switchToRoot deleted tables.executing

/-- The container is taken off the list and freed. -/
def free (address : Nat) : Option (NamespaceSystem Thread) :=
  (system.containers address).map fun _ =>
    { system with listHead := system.listHead.erase address }.store address none

variable (rules : NamespaceRules)

/-- The `delete` of a kind. The root is not deleted. -/
def delete (system : NamespaceSystem Thread)
    (tables : ThreadTables Thread) (container : Option Nat) : Option (NamespaceSystem Thread) :=
  match container with
  | none => some system
  | some deleted =>
    if deleted = system.root then some system
    else if rules.rehomes then
      (system.rehome tables deleted).bind fun rehomed => rehomed.free deleted
    else system.free deleted

/-- The test of `move_task` that a thread is in the source. -/
def isIn (system : NamespaceSystem Thread) (thread : Thread) (srcContainer : Nat) : Option Bool :=
  match system.pointer thread with
  | none => some false
  | some own =>
    if own = srcContainer then some true
    else if rules.comparesIds then
      (system.containers srcContainer).bind fun src =>
        if src.id = 1 then (system.containers own).map fun container => decide (container.id = 1)
        else some false
    else some false

def leaveSource (system : NamespaceSystem Thread)
    (tables : ThreadTables Thread) (srcContainer : Nat) : Option (NamespaceSystem Thread) :=
  (system.addRc srcContainer (-1)).bind fun left =>
    (left.containers srcContainer).bind fun src =>
      if src.rc ≤ 0 ∧ ¬ (rules.sparesIdOne ∧ src.id = 1) then
        left.delete rules tables (some srcContainer)
      else some left

def move (system : NamespaceSystem Thread) (tables : ThreadTables Thread)
    (srcContainer destContainer : Nat) (thread : Thread) : Option (NamespaceSystem Thread) :=
  let pointed := system.setPointer thread destContainer
  if rules.countsFirst then
    (pointed.addRc destContainer 1).bind fun counted =>
      counted.leaveSource rules tables srcContainer
  else
    (pointed.leaveSource rules tables srcContainer).bind fun left => left.addRc destContainer 1

def moveTask (system : NamespaceSystem Thread)
    (tables : ThreadTables Thread) (srcContainer destContainer : Option Nat)
    (thread : Option Thread) : Option (NamespaceSystem Thread) :=
  match srcContainer, destContainer, thread with
  | some srcContainer, some destContainer, some thread =>
    (system.isIn rules thread srcContainer).bind fun isIn =>
      if isIn then system.move rules tables srcContainer destContainer thread else some system
  | _, _, _ => some system

def joinRoot (thread : Thread) : Option (NamespaceSystem Thread) :=
  (system.addRc system.root 1).map fun counted => counted.setPointer thread system.root

/-- `rtems_uts_container_create`, and `NULL` when the container cannot be allocated. -/
def rtemsUtsContainerCreate (address : Option Nat) (malloc : Bool) : NamespaceSystem Thread :=
  match address with
  | none => system
  | some address => system.create NamespaceKind.uts.rules address malloc

def rtemsMntContainerCreate (address : Option Nat) : NamespaceSystem Thread :=
  match address with
  | none => system
  | some address => system.create NamespaceKind.mnt.rules address false

/-- `rtems_net_container_create`. The identifier is used up when the container
has been allocated, even if its group or its loopback interface fails. The moves of
the executing thread there and back, between which
`configure_loopback_ipv4_in_container` sets the addresses, are left out. -/
def rtemsNetContainerCreate (address : Option Nat) (group malloc : Bool) : NamespaceSystem Thread :=
  match address with
  | none => system
  | some address =>
    if group then system.create NamespaceKind.net.rules address malloc
    else { system with idCounter := system.idCounter + 1 }

def rtemsIpcContainerCreate (address : Option Nat) (malloc : Bool) : NamespaceSystem Thread :=
  match address with
  | none => system
  | some address => system.create NamespaceKind.ipc.rules address malloc

def rtemsUtsContainerDelete (utsContainer : Option Nat) : Option (NamespaceSystem Thread) :=
  system.delete NamespaceKind.uts.rules tables utsContainer

def rtemsMntContainerDelete (mntContainer : Option Nat) : Option (NamespaceSystem Thread) :=
  system.delete NamespaceKind.mnt.rules tables mntContainer

def rtemsNetContainerDelete (netContainer : Option Nat) : Option (NamespaceSystem Thread) :=
  system.delete NamespaceKind.net.rules tables netContainer

def rtemsIpcContainerDelete (ipcContainer : Option Nat) : Option (NamespaceSystem Thread) :=
  system.delete NamespaceKind.ipc.rules tables ipcContainer

variable (srcContainer destContainer : Option Nat) (thread : Option Thread)

def rtemsUtsContainerMoveTask : Option (NamespaceSystem Thread) :=
  system.moveTask NamespaceKind.uts.rules tables srcContainer destContainer thread

def rtemsMntContainerMoveTask : Option (NamespaceSystem Thread) :=
  system.moveTask NamespaceKind.mnt.rules tables srcContainer destContainer thread

def rtemsNetContainerMoveTask : Option (NamespaceSystem Thread) :=
  system.moveTask NamespaceKind.net.rules tables srcContainer destContainer thread

def rtemsIpcContainerMoveTask : Option (NamespaceSystem Thread) :=
  system.moveTask NamespaceKind.ipc.rules tables srcContainer destContainer thread

end NamespaceSystem

end RTContainer.Score
