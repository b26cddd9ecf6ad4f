import RTContainer.Rtems.Cgroup
import RTContainer.Score.PidContainer

/-! The unified containers of `container.c`, with every container kind
configured. The PID namespace and the cgroup of a container are modelled; what
the UTS, mount, network and IPC namespaces and the I/O cgroup do to a call is
given by the outcome of their part of it. A call that goes through a `NULL` or
freed pointer has no result (`none`). -/

set_option autoImplicit false

namespace RTContainer.Score

open RTContainer.Rtems Function

def rtemsUnifiedContainerPid : BitVec 32 := 0x1#32
def rtemsUnifiedContainerCpu : BitVec 32 := 0x20#32
def rtemsUnifiedContainerMem : BitVec 32 := 0x40#32

/-- `rtems_build_name('C', 'T', 'N', 'R')`. -/
def containerCgroupName : BitVec 32 := 0x43544e52#32

structure RtemsContainer (Thread : Type) where
  flags : BitVec 32
  attached : Bool
  attachedThread : Option Thread
  pidContainer : Option Nat
  cgroupId : ObjectsId
  coreCgroup : Option ObjectsId

/-- The PID containers, the cgroups, the threads that have a container object,
and the unified containers in the heap. -/
structure UnifiedSystem (Thread : Type) where
  pids : PidSystem Thread
  cgroups : CgroupSystem Thread
  hasContainer : Thread → Bool
  handles : Nat → Option (RtemsContainer Thread)

namespace RtemsContainer

variable {Thread : Type}

def hasPid (container : RtemsContainer Thread) : Bool :=
  container.flags &&& rtemsUnifiedContainerPid ≠ 0

def hasCgroup (container : RtemsContainer Thread) : Bool :=
  container.flags &&& (rtemsUnifiedContainerCpu ||| rtemsUnifiedContainerMem) ≠ 0

end RtemsContainer

structure CreateOutcomes where
  calloc : Option Nat
  pidContainer : Option Nat
  pidNode : Bool
  namespaces : StatusCode
  config : Nat
  cgroup : Option ObjectsId
  io : StatusCode
  deletion : Nat → Bool

structure EnterOutcomes where
  calloc : Bool
  pidNode : Bool
  move : Nat → Bool
  namespaces : StatusCode
  workspace : Bool
  io : StatusCode

variable {Thread : Type} [DecidableEq Thread] (names : ObjectNames Thread)

namespace UnifiedSystem

variable (system : UnifiedSystem Thread)

def setPidContainer (thread : Thread) (pidContainer : Option Nat) : UnifiedSystem Thread :=
  { system with
    pids := { system.pids with
      pidContainer := update system.pids.pidContainer thread pidContainer } }

def setHandle (address : Nat) (container : Option (RtemsContainer Thread)) : UnifiedSystem Thread :=
  { system with handles := update system.handles address container }

/-- `rtems_unified_container_ensure_thread_container` for a thread that is not
`NULL`. The thread points to the root container whether it could be added to it
or not. -/
def ensureThreadContainer (thread : Thread)
    (calloc pidNode : Bool) : UnifiedSystem Thread × StatusCode :=
  if system.hasContainer thread then (system, .successful)
  else if !calloc then (system, .noMemory)
  else
    let added := { system with
      pids := system.pids.rtemsPidContainerAddTask names.threadId (some system.pids.root)
        (some thread) pidNode }
    ({ added.setPidContainer thread (some system.pids.root) with
      hasContainer := update system.hasContainer thread true }, .successful)

variable (container : RtemsContainer Thread) (thread : Thread)

/-- The PID part of `rtems_unified_container_enter`. The thread points to the
destination whether it could be moved there or not. -/
def enterPid (malloc : Nat → Bool) : UnifiedSystem Thread :=
  if container.hasPid then
    let src := system.pids.pidContainer thread
    let moved :=
      if src = container.pidContainer then system
      else { system with
        pids := system.pids.rtemsPidContainerMoveTask names.threadId src container.pidContainer
          (some thread) malloc }
    moved.setPidContainer thread container.pidContainer
  else system

def enterCgroup (workspace : Bool) : Option (UnifiedSystem Thread × StatusCode) :=
  if container.hasCgroup then
    if system.cgroups.isAddedToCgroup thread ∧
        system.cgroups.cgroup thread ≠ container.coreCgroup then
      some (system, .resourceInUse)
    else if system.cgroups.cgroup thread ≠ container.coreCgroup then
      (rtemsCgroupAddTask names system.cgroups container.cgroupId (names.threadId thread)
        workspace).map fun (cgroups, status) => ({ system with cgroups := cgroups }, status)
    else some (system, .successful)
  else some (system, .successful)

/-- The PID containers that an enter moves a thread between are `NULL` or live. -/
def entersLive : Bool :=
  !container.hasPid || system.pids.pidContainer thread = container.pidContainer ||
    system.pids.isLive (system.pids.pidContainer thread) &&
      system.pids.isLive container.pidContainer

def enterParts (address : Nat) (container : RtemsContainer Thread)
    (thread : Thread) (outcomes : EnterOutcomes) : Option (UnifiedSystem Thread × StatusCode) :=
  if container.attached ∧ container.attachedThread ≠ some thread then
    some (system, .resourceInUse)
  else if !system.entersLive container thread then none
  else
    let moved := system.enterPid names container thread outcomes.move
    if outcomes.namespaces ≠ .successful then some (moved, outcomes.namespaces)
    else
      (moved.enterCgroup names container thread outcomes.workspace).map fun (joined, status) =>
        if status ≠ .successful then (joined, status)
        else if outcomes.io ≠ .successful then (joined, outcomes.io)
        else
          (joined.setHandle address
            (some { container with attached := true, attachedThread := some thread }),
            .successful)

/-- `rtems_unified_container_enter`; `executing` is used when no thread is given. -/
def rtemsUnifiedContainerEnter (address : Option Nat)
    (thread : Option Thread) (executing : Thread) (outcomes : EnterOutcomes) :
    Option (UnifiedSystem Thread × StatusCode) :=
  match address with
  | none => some (system, .invalidAddress)
  | some address =>
    (system.handles address).bind fun container =>
      let thread := thread.getD executing
      let (ensured, status) :=
        system.ensureThreadContainer names thread outcomes.calloc outcomes.pidNode
      if status ≠ .successful then some (ensured, status)
      else ensured.enterParts names address container thread outcomes

/-- The PID part of `rtems_unified_container_leave`. The thread points to the
root container whether it could be moved there or not. -/
def leavePid (malloc : Nat → Bool) : UnifiedSystem Thread :=
  if container.hasPid ∧ system.pids.pidContainer thread = container.pidContainer then
    { system with
      pids := system.pids.rtemsPidContainerMoveTask names.threadId container.pidContainer
        (some system.pids.root) (some thread) malloc }.setPidContainer thread
          (some system.pids.root)
  else system

/-- The cgroup part of `rtems_unified_container_leave`. The fields of the thread
are cleared whatever the removal returned. -/
def leaveCgroup : Option (UnifiedSystem Thread × StatusCode) :=
  if container.hasCgroup ∧ system.cgroups.cgroup thread = container.coreCgroup then
    (rtemsCgroupRemoveTask names system.cgroups container.cgroupId (names.threadId thread)).map
      fun (cgroups, status) =>
        ({ system with
          cgroups := { cgroups with
            cgroup := update cgroups.cgroup thread none
            isAddedToCgroup := update cgroups.isAddedToCgroup thread false } }, status)
  else some (system, .successful)

def firstError (first second : StatusCode) : StatusCode :=
  if first = .successful then second else first

/-- The PID container that a leave takes a thread out of is `NULL` or live. -/
def leavesLive : Bool :=
  !container.hasPid || system.pids.pidContainer thread ≠ container.pidContainer ||
    system.pids.isLive container.pidContainer

/-- The parts of `rtems_unified_container_leave`; `io` is the status of
`rtems_io_cgroup_remove_thread`. -/
def leaveParts (address : Nat) (container : RtemsContainer Thread)
    (thread : Thread) (malloc : Nat → Bool) (io : StatusCode) :
    Option (UnifiedSystem Thread × StatusCode) :=
  if !system.leavesLive container thread then none
  else ((system.leavePid names container thread malloc).leaveCgroup names container thread).map
    fun (left, status) =>
      (if container.attachedThread = some thread then
          left.setHandle address (some { container with attached := false, attachedThread := none })
        else left,
        firstError status (if io = .invalidId then .successful else io))

def rtemsUnifiedContainerLeave (address : Option Nat)
    (thread : Option Thread) (executing : Thread) (malloc : Nat → Bool) (io : StatusCode) :
    Option (UnifiedSystem Thread × StatusCode) :=
  match address with
  | none => some (system, .invalidAddress)
  | some address =>
    (system.handles address).bind fun container =>
      let thread := (thread.or container.attachedThread).getD executing
      if !system.hasContainer thread then some (system, .invalidAddress)
      else system.leaveParts names address container thread malloc io

def release (address : Nat) (container : RtemsContainer Thread)
    (first : StatusCode) (malloc : Nat → Bool) : UnifiedSystem Thread × StatusCode :=
  let (cgroups, status) :=
    if container.cgroupId ≠ 0 then rtemsCgroupDelete system.cgroups container.cgroupId
    else (system.cgroups, .successful)
  ({ system with
    cgroups := cgroups
    pids := system.pids.rtemsPidContainerDelete names.threadId container.pidContainer malloc
    }.setHandle address none, firstError first status)

/-- The leave of the attached thread may have freed the PID container. -/
def releaseLive (address : Nat) (container : RtemsContainer Thread)
    (first : StatusCode) (malloc : Nat → Bool) : Option (UnifiedSystem Thread × StatusCode) :=
  if system.pids.isLive container.pidContainer then
    some (system.release names address container first malloc)
  else none

variable {names} in
theorem releaseLive_some {system next : UnifiedSystem Thread} {address : Nat}
    {container : RtemsContainer Thread} {first status : StatusCode} {malloc : Nat → Bool}
    (released : system.releaseLive names address container first malloc = some (next, status)) :
    system.release names address container first malloc = (next, status) :=
  Option.some.inj (Option.ite_none_right_eq_some.mp released).2

/-- `rtems_unified_container_delete`; the attached thread leaves first. -/
def rtemsUnifiedContainerDelete (system : UnifiedSystem Thread) (address : Option Nat)
    (executing : Thread) (leaveMalloc : Nat → Bool) (io : StatusCode) (malloc : Nat → Bool) :
    Option (UnifiedSystem Thread × StatusCode) :=
  match address with
  | none => some (system, .invalidAddress)
  | some address =>
    (system.handles address).bind fun container =>
      if container.attached ∧ container.attachedThread ≠ none then
        (system.rtemsUnifiedContainerLeave names (some address) container.attachedThread executing
          leaveMalloc io).bind fun (left, first) =>
            left.releaseLive names address container first malloc
      else system.releaseLive names address container .successful malloc

def createCgroup (system : UnifiedSystem Thread) (created : RtemsContainer Thread)
    (outcomes : CreateOutcomes) : UnifiedSystem Thread × RtemsContainer Thread × StatusCode :=
  if created.hasCgroup then
    match rtemsCgroupCreate system.cgroups containerCgroupName true outcomes.config
        outcomes.cgroup with
    | (cgroups, .error status) => ({ system with cgroups := cgroups }, created, status)
    | (cgroups, .ok id) =>
      match cgroupGet cgroups id with
      | none => ({ system with cgroups := cgroups }, { created with cgroupId := id }, .unsatisfied)
      | some core =>
        ({ system with cgroups := cgroups },
          { created with cgroupId := id, coreCgroup := some core }, .successful)
  else (system, created, .successful)

def createPid (system : UnifiedSystem Thread) (created : RtemsContainer Thread)
    (outcomes : CreateOutcomes) : UnifiedSystem Thread × RtemsContainer Thread × StatusCode :=
  if created.hasPid then
    match outcomes.pidContainer with
    | none => (system, created, .noMemory)
    | some pidContainer =>
      ({ system with
        pids := (system.pids.rtemsPidContainerCreate (some pidContainer)
          outcomes.pidNode).rtemsPidContainerIncRc (some pidContainer) },
        { created with pidContainer := some pidContainer }, .successful)
  else (system, created, .successful)

/-- `rtems_unified_container_create` with a destination that is not `NULL`. What
has been created is deleted again when a later part fails. -/
def rtemsUnifiedContainerCreate (system : UnifiedSystem Thread) (flags : BitVec 32)
    (outcomes : CreateOutcomes) : UnifiedSystem Thread × Except StatusCode Nat :=
  match outcomes.calloc with
  | none => (system, .error .noMemory)
  | some address =>
    let (pidMade, made, pidStatus) :=
      system.createPid ⟨flags, false, none, none, 0, none⟩ outcomes
    let (created, container, status) :=
      match firstError pidStatus outcomes.namespaces with
      | .successful => pidMade.createCgroup made outcomes
      | status => (pidMade, made, status)
    match firstError status outcomes.io with
    | .successful => (created.setHandle address (some container), .ok address)
    | status =>
      ((created.release names address container .successful outcomes.deletion).1, .error status)

end UnifiedSystem

end RTContainer.Score
