import RTContainer.Score.IoCgroup
import RTContainer.Score.NamespaceContainer
import RTContainer.Score.UnifiedContainer

/-! The unified containers of `container.c` with all their parts. What concerns
the PID container and the cgroup is that of `UnifiedSystem`; the other namespaces
and the I/O cgroup, which are outcomes there, are modelled here. A call that goes
through a `NULL` or freed pointer has no result (`none`). -/

set_option autoImplicit false

namespace RTContainer.Score

open RTContainer.Rtems Function

def NamespaceKind.flag : NamespaceKind → BitVec 32
  | ipc => 0x2#32
  | mnt => 0x4#32
  | net => 0x8#32
  | uts => 0x10#32

def rtemsUnifiedContainerIo : BitVec 32 := 0x80#32

def rtemsUnifiedContainerAll : BitVec 32 := 0xff#32

/-- The kinds in the order in which `container.c` goes through them. -/
def NamespaceKind.all : List NamespaceKind := [uts, mnt, net, ipc]

/-- `RtemsContainerConfig` without the name of the UTS container; `cgroupConfig`
is the address of a configuration. -/
structure RtemsContainerConfig where
  flags : BitVec 32
  cgroupConfig : Nat
  ioSystemReadBps : BitVec 64
  ioSystemWriteBps : BitVec 64
  ioReadBpsLimit : BitVec 64
  ioWriteBpsLimit : BitVec 64
  ioWindowSizeMs : BitVec 32
  ioWeight : BitVec 16
  ioThreadWeight : BitVec 32

/-- The fields of `RtemsContainer` that the structure of that name leaves out. -/
structure ContainerParts where
  namespaces : NamespaceKind → Option Nat
  ioCgroup : Option Nat
  ioCgroupId : BitVec 32
  ioThreadWeight : BitVec 32

/-- `UnifiedSystem` with the other namespaces and the I/O cgroups. The unified
container at an address has the fields `parts` there. -/
structure ContainerSystem (Thread : Type) extends UnifiedSystem Thread where
  namespaces : NamespaceKind → NamespaceSystem Thread
  ioCgroups : IoCgroupSystem
  parts : Nat → ContainerParts

structure EnterAllocations where
  calloc : Bool
  pidNode : Bool
  move : Nat → Bool
  workspace : Bool
  ioNode : Bool

structure CreateAllocations where
  calloc : Option Nat
  pidContainer : Option Nat
  pidNode : Bool
  namespaceContainer : NamespaceKind → Option Nat
  netGroup : Bool
  listNode : NamespaceKind → Bool
  cgroup : Option ObjectsId
  ioManager : Bool
  ioControl : Option Nat
  ioBuffer : Bool
  ticksSinceBoot : BitVec 32
  deletion : Nat → Bool

def rtemsUnifiedContainerConfigInitialize (cgroupConfig : Nat) : RtemsContainerConfig where
  flags := rtemsUnifiedContainerAll
  cgroupConfig := cgroupConfig
  ioSystemReadBps := 1048576
  ioSystemWriteBps := 1048576
  ioReadBpsLimit := 1048576
  ioWriteBpsLimit := 1048576
  ioWindowSizeMs := 1000
  ioWeight := 100
  ioThreadWeight := 100

def RtemsContainer.hasNamespace {Thread : Type} (container : RtemsContainer Thread)
    (kind : NamespaceKind) : Bool :=
  container.flags &&& kind.flag ≠ 0

def RtemsContainer.hasIo {Thread : Type} (container : RtemsContainer Thread) : Bool :=
  container.flags &&& rtemsUnifiedContainerIo ≠ 0

variable {Thread : Type} [DecidableEq Thread] (names : ObjectNames Thread)

namespace NamespaceKind

variable (kind : NamespaceKind) (system : NamespaceSystem Thread)

def containerMoveTask (tables : ThreadTables Thread) (srcContainer destContainer : Option Nat)
    (thread : Option Thread) : Option (NamespaceSystem Thread) :=
  match kind with
  | uts => system.rtemsUtsContainerMoveTask tables srcContainer destContainer thread
  | mnt => system.rtemsMntContainerMoveTask tables srcContainer destContainer thread
  | net => system.rtemsNetContainerMoveTask tables srcContainer destContainer thread
  | ipc => system.rtemsIpcContainerMoveTask tables srcContainer destContainer thread

def containerDelete
    (tables : ThreadTables Thread) (container : Option Nat) : Option (NamespaceSystem Thread) :=
  match kind with
  | uts => system.rtemsUtsContainerDelete tables container
  | mnt => system.rtemsMntContainerDelete tables container
  | net => system.rtemsNetContainerDelete tables container
  | ipc => system.rtemsIpcContainerDelete tables container

def containerCreate
    (address : Option Nat) (group malloc : Bool) : NamespaceSystem Thread × Option Nat :=
  match kind with
  | uts => (system.rtemsUtsContainerCreate address malloc, address)
  | mnt => (system.rtemsMntContainerCreate address, address)
  | net => (system.rtemsNetContainerCreate address group malloc, if group then address else none)
  | ipc => (system.rtemsIpcContainerCreate address malloc, address)

/-- What `rtems_unified_container_create` does with a container it has created:
it counts its reference to a UTS container, and it adds a mount container to the
list. -/
def containerOwn (address : Nat) (malloc : Bool) : Option (NamespaceSystem Thread) :=
  match kind with
  | uts => system.addRc address 1
  | mnt => some (system.addToList address malloc)
  | net | ipc => some system

end NamespaceKind

def andThen {State : Type} (result : Option (State × StatusCode))
    (next : State → Option (State × StatusCode)) : Option (State × StatusCode) :=
  result.bind fun (state, status) =>
    if status = .successful then next state else some (state, status)

namespace ContainerSystem

open UnifiedSystem

variable (system : ContainerSystem Thread)

def setNamespace (kind : NamespaceKind)
    (namespaceSystem : NamespaceSystem Thread) : ContainerSystem Thread :=
  { system with namespaces := update system.namespaces kind namespaceSystem }

def withUnified (unified : UnifiedSystem Thread) : ContainerSystem Thread :=
  { system with toUnifiedSystem := unified }

def joinRoots (thread : Thread) :
    List NamespaceKind → ContainerSystem Thread → Option (ContainerSystem Thread)
  | [], system => some system
  | kind :: rest, system =>
    ((system.namespaces kind).joinRoot thread).bind fun joined =>
      joinRoots thread rest (system.setNamespace kind joined)

/-- `rtems_unified_container_ensure_thread_container` for a thread that is not
`NULL`. -/
def ensureContainer (thread : Thread)
    (allocations : EnterAllocations) : Option (ContainerSystem Thread × StatusCode) :=
  let (ensured, status) := system.ensureThreadContainer names thread allocations.calloc
    allocations.pidNode
  if system.hasContainer thread ∨ status ≠ .successful then
    some (system.withUnified ensured, status)
  else (joinRoots thread NamespaceKind.all (system.withUnified ensured)).map fun joined =>
    (joined, status)

variable (container : RtemsContainer Thread) (parts : ContainerParts) (thread : Thread)

def enterNamespace (tables : ThreadTables Thread)
    (kind : NamespaceKind) : Option (ContainerSystem Thread × StatusCode) :=
  if container.hasNamespace kind then
    let src := (system.namespaces kind).pointer thread
    let dst := parts.namespaces kind
    let moved :=
      if src ≠ dst then
        kind.containerMoveTask (system.namespaces kind) tables src dst (some thread)
      else some (system.namespaces kind)
    moved.map fun moved =>
      (system.setNamespace kind moved,
        if moved.pointer thread ≠ dst then .unsatisfied else .successful)
  else some (system, .successful)

def enterNamespaces (container : RtemsContainer Thread) (parts : ContainerParts) (thread : Thread)
    (tables : ThreadTables Thread) :
    List NamespaceKind → ContainerSystem Thread → Option (ContainerSystem Thread × StatusCode)
  | [], system => some (system, .successful)
  | kind :: rest, system =>
    andThen (system.enterNamespace container parts thread tables kind)
      (enterNamespaces container parts thread tables rest)

def enterCgroupPart (workspace : Bool) : Option (ContainerSystem Thread × StatusCode) :=
  (system.enterCgroup names container thread workspace).map fun (joined, status) =>
    (system.withUnified joined, status)

def enterIo (malloc : Bool) : Option (ContainerSystem Thread × StatusCode) :=
  if container.hasIo then
    match parts.ioCgroup with
    | none => some (system, .invalidAddress)
    | some block =>
      if block ∈ system.ioCgroups.allocated then
        let (ioCgroups, status) := system.ioCgroups.rtemsIoCgroupAddThread block
          (some (names.threadId thread)) parts.ioThreadWeight malloc
        some ({ system with ioCgroups := ioCgroups }, status)
      else none
  else some (system, .successful)

def enterAll (address : Nat) (container : RtemsContainer Thread)
    (thread : Thread) (tables : ThreadTables Thread) (allocations : EnterAllocations) :
    Option (ContainerSystem Thread × StatusCode) :=
  if container.attached ∧ container.attachedThread ≠ some thread then
    some (system, .resourceInUse)
  else if !system.entersLive container thread then none
  else
    let parts := system.parts address
    let moved := system.withUnified (system.enterPid names container thread allocations.move)
    andThen (enterNamespaces container parts thread tables NamespaceKind.all moved) fun entered =>
      andThen (entered.enterCgroupPart names container thread allocations.workspace) fun joined =>
        andThen (joined.enterIo names container parts thread allocations.ioNode) fun added =>
          some (added.withUnified (added.setHandle address
            (some { container with attached := true, attachedThread := some thread })),
            .successful)

/-- `rtems_unified_container_enter`; the executing thread is used when no thread
is given. -/
def rtemsUnifiedContainerEnter (address : Option Nat)
    (thread : Option Thread) (tables : ThreadTables Thread) (allocations : EnterAllocations) :
    Option (ContainerSystem Thread × StatusCode) :=
  match address with
  | none => some (system, .invalidAddress)
  | some address =>
    (system.handles address).bind fun container =>
      let thread := thread.getD tables.executing
      andThen (system.ensureContainer names thread allocations) fun ensured =>
        ensured.enterAll names address container thread tables allocations

def leaveNamespace (tables : ThreadTables Thread)
    (kind : NamespaceKind) : Option (ContainerSystem Thread) :=
  if container.hasNamespace kind ∧
      (system.namespaces kind).pointer thread = parts.namespaces kind then
    (kind.containerMoveTask (system.namespaces kind) tables (parts.namespaces kind)
      (some (system.namespaces kind).root) (some thread)).map fun moved =>
        system.setNamespace kind moved
  else some system

def leaveNamespaces (container : RtemsContainer Thread) (parts : ContainerParts) (thread : Thread)
    (tables : ThreadTables Thread) :
    List NamespaceKind → ContainerSystem Thread → Option (ContainerSystem Thread)
  | [], system => some system
  | kind :: rest, system =>
    (system.leaveNamespace container parts thread tables kind).bind fun left =>
      leaveNamespaces container parts thread tables rest left

/-- The I/O cgroup part of `rtems_unified_container_leave`. A thread that has no
weight is no error. -/
def leaveIo : Option (ContainerSystem Thread × StatusCode) :=
  if container.hasIo then
    match parts.ioCgroup with
    | none => some (system, .invalidAddress)
    | some block =>
      if block ∈ system.ioCgroups.allocated then
        let (ioCgroups, status) := system.ioCgroups.rtemsIoCgroupRemoveThread block
          (some (names.threadId thread))
        some ({ system with ioCgroups := ioCgroups },
          if status = .invalidId then .successful else status)
      else none
  else some (system, .successful)

def leaveAll (address : Nat) (container : RtemsContainer Thread)
    (thread : Thread) (tables : ThreadTables Thread) (malloc : Nat → Bool) :
    Option (ContainerSystem Thread × StatusCode) :=
  if !system.leavesLive container thread then none
  else
    let parts := system.parts address
    let moved := system.withUnified (system.leavePid names container thread malloc)
    (leaveNamespaces container parts thread tables NamespaceKind.all moved).bind fun left =>
      (left.leaveCgroup names container thread).bind fun (removed, cgroupStatus) =>
        ((left.withUnified removed).leaveIo names container parts thread).map
          fun (gone, ioStatus) =>
            (if container.attachedThread = some thread then
                gone.withUnified (gone.setHandle address
                  (some { container with attached := false, attachedThread := none }))
              else gone,
              firstError cgroupStatus ioStatus)

def rtemsUnifiedContainerLeave (address : Option Nat)
    (thread : Option Thread) (tables : ThreadTables Thread) (malloc : Nat → Bool) :
    Option (ContainerSystem Thread × StatusCode) :=
  match address with
  | none => some (system, .invalidAddress)
  | some address =>
    (system.handles address).bind fun container =>
      let thread := (thread.or container.attachedThread).getD tables.executing
      if !system.hasContainer thread then some (system, .invalidAddress)
      else system.leaveAll names address container thread tables malloc

/-- The I/O cgroup part of `rtems_unified_container_delete`. -/
def deleteIo : Option (ContainerSystem Thread) :=
  let ioCgroup :=
    if parts.ioCgroup = none ∧ parts.ioCgroupId ≠ 0 then
      system.ioCgroups.rtemsIoCgroupGetById parts.ioCgroupId
    else parts.ioCgroup
  match ioCgroup with
  | none => some system
  | some block =>
    if block ∈ system.ioCgroups.allocated then
      some { system with ioCgroups := system.ioCgroups.rtemsIoCgroupDelete block }
    else none

def deleteNamespaces (parts : ContainerParts) (tables : ThreadTables Thread) :
    List NamespaceKind → ContainerSystem Thread → Option (ContainerSystem Thread)
  | [], system => some system
  | kind :: rest, system =>
    (kind.containerDelete (system.namespaces kind) tables (parts.namespaces kind)).bind
      fun deleted => deleteNamespaces parts tables rest (system.setNamespace kind deleted)

/-- What `rtems_unified_container_delete` does after the attached thread has
left. -/
def releaseAll (address : Nat)
    (container : RtemsContainer Thread) (parts : ContainerParts) (first : StatusCode)
    (tables : ThreadTables Thread) (malloc : Nat → Bool) :
    Option (ContainerSystem Thread × StatusCode) :=
  (system.releaseLive names address container first malloc).bind fun (released, status) =>
    ((system.withUnified released).deleteIo parts).bind fun deleted =>
      (deleteNamespaces parts tables NamespaceKind.all deleted).map fun last => (last, status)

variable {names} in
theorem releaseAll_released {system after : ContainerSystem Thread} {address : Nat}
    {container : RtemsContainer Thread} {parts : ContainerParts} {first status : StatusCode}
    {tables : ThreadTables Thread} {malloc : Nat → Bool}
    (result : system.releaseAll names address container parts first tables malloc =
      some (after, status)) :
    (((system.withUnified (system.release names address container first malloc).1).deleteIo
      parts).bind fun deleted => (deleteNamespaces parts tables NamespaceKind.all deleted).map
        fun last => (last, (system.release names address container first malloc).2)) =
      some (after, status) := by
  obtain ⟨⟨released, _⟩, isReleased, result⟩ := Option.bind_eq_some_iff.mp result
  rw [releaseLive_some isReleased]
  exact result

/-- `rtems_unified_container_delete`; the attached thread leaves first. -/
def rtemsUnifiedContainerDelete (system : ContainerSystem Thread) (address : Option Nat)
    (tables : ThreadTables Thread) (leaveMalloc malloc : Nat → Bool) :
    Option (ContainerSystem Thread × StatusCode) :=
  match address with
  | none => some (system, .invalidAddress)
  | some address =>
    (system.handles address).bind fun container =>
      if container.attached ∧ container.attachedThread ≠ none then
        (system.rtemsUnifiedContainerLeave names (some address) container.attachedThread tables
          leaveMalloc).bind fun (left, first) =>
            left.releaseAll names address container (left.parts address) first tables malloc
      else
        system.releaseAll names address container (system.parts address) .successful tables malloc

end ContainerSystem

structure ContainerCreation (Thread : Type) where
  system : ContainerSystem Thread
  created : RtemsContainer Thread
  parts : ContainerParts

namespace ContainerCreation

/-- The outcomes that the PID part and the cgroup part look at. -/
def outcomes (allocations : CreateAllocations) (config : RtemsContainerConfig) : CreateOutcomes where
  calloc := allocations.calloc
  pidContainer := allocations.pidContainer
  pidNode := allocations.pidNode
  namespaces := .successful
  config := config.cgroupConfig
  cgroup := allocations.cgroup
  io := .successful
  deletion := allocations.deletion

def createPid (creation : ContainerCreation Thread) (config : RtemsContainerConfig)
    (allocations : CreateAllocations) : ContainerCreation Thread × StatusCode :=
  let (made, created, status) :=
    creation.system.createPid creation.created (outcomes allocations config)
  ({ creation with system := creation.system.withUnified made, created := created }, status)

def createNamespace (creation : ContainerCreation Thread) (allocations : CreateAllocations)
    (kind : NamespaceKind) : Option (ContainerCreation Thread × StatusCode) :=
  if creation.created.hasNamespace kind then
    let (made, container) := kind.containerCreate (creation.system.namespaces kind)
      (allocations.namespaceContainer kind) allocations.netGroup (allocations.listNode kind)
    match container with
    | none => some ({ creation with system := creation.system.setNamespace kind made }, .noMemory)
    | some address =>
      (kind.containerOwn made address (allocations.listNode kind)).map fun owned =>
        ({ creation with
          system := creation.system.setNamespace kind owned
          parts := { creation.parts with
            namespaces := update creation.parts.namespaces kind (some address) } },
          .successful)
  else some (creation, .successful)

def createNamespaces (allocations : CreateAllocations) :
    List NamespaceKind → ContainerCreation Thread → Option (ContainerCreation Thread × StatusCode)
  | [], creation => some (creation, .successful)
  | kind :: rest, creation =>
    andThen (creation.createNamespace allocations kind) (createNamespaces allocations rest)

def createCgroup (creation : ContainerCreation Thread) (config : RtemsContainerConfig)
    (allocations : CreateAllocations) : ContainerCreation Thread × StatusCode :=
  let (made, created, status) :=
    creation.system.createCgroup creation.created (outcomes allocations config)
  ({ creation with system := creation.system.withUnified made, created := created }, status)

/-- The I/O cgroup part of `rtems_unified_container_create`. -/
def createIo (creation : ContainerCreation Thread) (config : RtemsContainerConfig)
    (allocations : CreateAllocations) : ContainerCreation Thread × StatusCode :=
  if creation.created.hasIo then
    match creation.system.ioCgroups.rtemsIoCgroupManagerCreate config.ioSystemReadBps
        config.ioSystemWriteBps allocations.ioManager with
    | (managed, .successful) =>
      match managed.rtemsIoCgroupCreate config.ioWeight
          (some ⟨config.ioReadBpsLimit, config.ioWriteBpsLimit, config.ioWindowSizeMs⟩) true
          allocations.ioControl allocations.ioBuffer allocations.ticksSinceBoot with
      | (ioCgroups, .error status) =>
        ({ creation with system := { creation.system with ioCgroups := ioCgroups } }, status)
      | (ioCgroups, .ok id) =>
        match ioCgroups.rtemsIoCgroupGetById id with
        | none =>
          ({ creation with
            system := { creation.system with ioCgroups := ioCgroups }
            parts := { creation.parts with ioCgroupId := id } }, .unsatisfied)
        | some block =>
          ({ creation with
            system := { creation.system with ioCgroups := ioCgroups }
            parts := { creation.parts with
              ioCgroup := some block
              ioCgroupId := id
              ioThreadWeight := config.ioThreadWeight } }, .successful)
    | (managed, status) =>
      ({ creation with system := { creation.system with ioCgroups := managed } }, status)
  else (creation, .successful)

end ContainerCreation

namespace ContainerSystem

/-- The parts of `rtems_unified_container_create` up to the first one that fails. -/
def createAll (system : ContainerSystem Thread) (config : RtemsContainerConfig)
    (allocations : CreateAllocations) : Option (ContainerCreation Thread × StatusCode) :=
  let start : ContainerCreation Thread :=
    ⟨system, ⟨config.flags, false, none, none, 0, none⟩, ⟨fun _ => none, none, 0, 0⟩⟩
  andThen (some (start.createPid config allocations)) fun creation =>
    andThen (creation.createNamespaces allocations NamespaceKind.all) fun creation =>
      andThen (some (creation.createCgroup config allocations)) fun creation =>
        some (creation.createIo config allocations)

/-- `rtems_unified_container_create` with a destination that is not `NULL`. What
has been created is deleted again when a later part fails. -/
def rtemsUnifiedContainerCreate (system : ContainerSystem Thread)
    (config : Option RtemsContainerConfig) (defaultCgroupConfig : Nat)
    (tables : ThreadTables Thread) (allocations : CreateAllocations) :
    Option (ContainerSystem Thread × Except StatusCode Nat) :=
  match allocations.calloc with
  | none => some (system, .error .noMemory)
  | some address =>
    let config := config.getD (rtemsUnifiedContainerConfigInitialize defaultCgroupConfig)
    (system.createAll config allocations).bind fun (creation, status) =>
      if status = .successful then
        some
          ({ creation.system.withUnified
              (creation.system.setHandle address (some creation.created)) with
            parts := update creation.system.parts address creation.parts },
            .ok address)
      else
        (creation.system.releaseAll names address creation.created creation.parts .successful
          tables allocations.deletion).map fun (released, _) => (released, .error status)

end ContainerSystem

end RTContainer.Score
