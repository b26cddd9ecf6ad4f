import RTContainer.Lib.DoublyLinked
import RTContainer.Rtems.Status
import RTContainer.Score.ObjectId

/-! The I/O cgroups of `io_cgroup.c`. The manager keeps them in a doubly linked
list that runs through their control blocks; a control block keeps the weights
of its threads in a list of nodes, which is given by its contents. -/

set_option autoImplicit false

namespace RTContainer.Score

open RTContainer.Rtems

inductive IoCgroupRequestType where
  | read
  | write
  deriving DecidableEq

structure IoCgroupRequest where
  size : BitVec 64
  type : IoCgroupRequestType

structure IoCgroupCounts where
  bytes : BitVec 64
  throttled : BitVec 64

structure IoCgroupWindow where
  bytes : BitVec 64
  windowStart : BitVec 32

structure IoCgroupStats where
  read : IoCgroupCounts
  write : IoCgroupCounts
  currentWindow : IoCgroupWindow

structure IoCgroupLimit where
  readBpsLimit : BitVec 64
  writeBpsLimit : BitVec 64
  windowSizeMs : BitVec 32

def IoCgroupLimit.bpsLimit (limits : IoCgroupLimit) : IoCgroupRequestType → BitVec 64
  | .read => limits.readBpsLimit
  | .write => limits.writeBpsLimit

structure ThreadWeightNode where
  weight : BitVec 32
  threadId : ObjectsId
  deriving DecidableEq

/-- `IO_Cgroup_Control` without its buffer, which no operation looks into. -/
structure IoCgroupControl where
  id : BitVec 32
  limits : IoCgroupLimit
  stats : IoCgroupStats
  threadWeightsChain : List ThreadWeightNode
  totalWeight : BitVec 32
  weight : BitVec 32
  next : Option Nat
  prev : Option Nat

structure IoCgroupManager where
  ioCgroups : Option Nat
  ioCgroupCount : BitVec 32
  totalWeight : BitVec 32
  systemReadBps : BitVec 64
  systemWriteBps : BitVec 64

namespace IoCgroupControl

/-- The zeroed block of `rtems_io_cgroup_create` once its identifier, its limits
and its window have been filled in. -/
def initial (id : BitVec 32) (limits : IoCgroupLimit) (ticksSinceBoot : BitVec 32) :
    IoCgroupControl where
  id := id
  limits := { limits with windowSizeMs := 1000 }
  stats := ⟨⟨0, 0⟩, ⟨0, 0⟩, ⟨0, ticksSinceBoot⟩⟩
  threadWeightsChain := []
  totalWeight := 0
  weight := 0
  next := none
  prev := none

def findThread (chain : List ThreadWeightNode) (thread : ObjectsId) : Option ThreadWeightNode :=
  chain.find? fun node => node.threadId = thread

def setThreadWeight (thread : ObjectsId) (weight : BitVec 32) :
    List ThreadWeightNode → List ThreadWeightNode
  | [] => []
  | node :: rest =>
    if node.threadId = thread then { node with weight := weight } :: rest
    else node :: setThreadWeight thread weight rest

variable (control : IoCgroupControl)

/-- `rtems_io_cgroup_allocate_thread_weight` once its arguments have been
checked. The chain is searched first; `malloc` is only reached for a thread that
has no node. -/
def allocateThreadWeight (thread : ObjectsId) (weight : BitVec 32)
    (malloc : Bool) : IoCgroupControl × StatusCode :=
  match findThread control.threadWeightsChain thread with
  | some current =>
    if control.totalWeight - current.weight + weight > control.weight then
      (control, .resourceInUse)
    else
      ({ control with
        threadWeightsChain := setThreadWeight thread weight control.threadWeightsChain
        totalWeight := control.totalWeight - current.weight + weight }, .successful)
  | none =>
    if control.totalWeight + weight > control.weight then (control, .resourceInUse)
    else if !malloc then (control, .noMemory)
    else
      ({ control with
        threadWeightsChain := ⟨weight, thread⟩ :: control.threadWeightsChain
        totalWeight := control.totalWeight + weight }, .successful)

def removeThreadWeight (thread : ObjectsId) : IoCgroupControl × StatusCode :=
  match findThread control.threadWeightsChain thread with
  | some current =>
    ({ control with
      threadWeightsChain := control.threadWeightsChain.eraseP fun node => node.threadId = thread
      totalWeight := control.totalWeight - current.weight }, .successful)
  | none => (control, .invalidId)

/-- The share of a cgroup, computed in 64 bits. -/
def bpsLimit (weight : BitVec 32) (systemBps : BitVec 64) (totalWeight : BitVec 32) : BitVec 64 :=
  weight.setWidth 64 * systemBps / totalWeight.setWidth 64

def allocateBandwidth (manager : IoCgroupManager) (control : IoCgroupControl) : IoCgroupControl :=
  if control.weight > 0 then
    { control with
      limits := { control.limits with
        readBpsLimit := bpsLimit control.weight manager.systemReadBps manager.totalWeight
        writeBpsLimit := bpsLimit control.weight manager.systemWriteBps manager.totalWeight } }
  else control

def windowExpired (ticksPerSecond currentTime : BitVec 32) : Bool :=
  let elapsed := currentTime - control.stats.currentWindow.windowStart
  elapsed > ticksPerSecond * control.limits.windowSizeMs / 1000

def updateSlidingWindow (ticksPerSecond currentTime : BitVec 32) : IoCgroupControl :=
  if control.windowExpired ticksPerSecond currentTime then
    { control with stats := { control.stats with currentWindow := ⟨0, currentTime⟩ } }
  else control

def elapsed (control : IoCgroupControl) (currentTime : BitVec 32) : BitVec 32 :=
  let elapsed := currentTime - control.stats.currentWindow.windowStart
  if elapsed = 0 then 1 else elapsed

variable (request : IoCgroupRequest)

/-- The test of `rtems_io_cgroup_check_throttle`, on the updated window. -/
def exceeds (ticksPerSecond currentTime : BitVec 32) : Bool :=
  let elapsed := (control.elapsed currentTime).setWidth 64
  let currentRate := control.stats.currentWindow.bytes / elapsed
  let limit := control.limits.bpsLimit request.type / ticksPerSecond.setWidth 64
  currentRate + request.size / elapsed > limit

def checkThrottle (ticksPerSecond ticksSinceBoot : BitVec 32) : IoCgroupControl × Bool :=
  let updated := control.updateSlidingWindow ticksPerSecond ticksSinceBoot
  (updated, updated.exceeds request ticksPerSecond ticksSinceBoot)

def updateStats : IoCgroupControl :=
  let stats :=
    match request.type with
    | .read =>
      { control.stats with
        read := { control.stats.read with bytes := control.stats.read.bytes + request.size } }
    | .write =>
      { control.stats with
        write := { control.stats.write with bytes := control.stats.write.bytes + request.size } }
  { control with
    stats := { stats with
      currentWindow := { stats.currentWindow with
        bytes := stats.currentWindow.bytes + request.size } } }

def countThrottled : IoCgroupControl :=
  { control with
    stats :=
      match request.type with
      | .read =>
        { control.stats with
          read := { control.stats.read with throttled := control.stats.read.throttled + 1 } }
      | .write =>
        { control.stats with
          write := { control.stats.write with throttled := control.stats.write.throttled + 1 } } }

/-- `rtems_io_cgroup_handle_request` with arguments that are not `NULL`. -/
def handleRequest (ticksPerSecond ticksSinceBoot : BitVec 32) : IoCgroupControl × StatusCode :=
  let (checked, throttled) := control.checkThrottle request ticksPerSecond ticksSinceBoot
  if throttled then (checked.countThrottled request, .tooMany)
  else (checked.updateStats request, .successful)

end IoCgroupControl

/-- The manager, the allocated control blocks and their contents, and
`next_cgroup_id`. -/
structure IoCgroupSystem where
  globalIoCgroupManager : Option IoCgroupManager
  allocated : List Nat
  controls : Nat → IoCgroupControl
  nextCgroupId : BitVec 32

namespace IoCgroupSystem

open DoublyLinked

/-- Before `rtems_io_cgroup_manager_create`. -/
def initial : IoCgroupSystem where
  globalIoCgroupManager := none
  allocated := []
  controls := fun _ => IoCgroupControl.initial 0 ⟨0, 0, 0⟩ 0
  nextCgroupId := 1

variable (system : IoCgroupSystem) (block : Nat)

def store (control : IoCgroupControl) : IoCgroupSystem :=
  { system with controls := Function.update system.controls block control }

variable (manager : IoCgroupManager)

def links : Links Nat where
  head := manager.ioCgroups
  next := fun block => (system.controls block).next
  prev := fun block => (system.controls block).prev

def setLinks (links : Links Nat) (ioCgroupCount : BitVec 32) : IoCgroupSystem :=
  { system with
    globalIoCgroupManager :=
      some { manager with ioCgroups := links.head, ioCgroupCount := ioCgroupCount }
    controls := fun block =>
      { system.controls block with next := links.next block, prev := links.prev block } }

/-- The control blocks that a loop over the manager's list visits. The list goes
through allocated blocks only, so that no loop takes more steps than there are. -/
def traverse : List Nat :=
  walk (system.links manager).next system.allocated.length manager.ioCgroups

/-- The loop over all cgroups that shares out the bandwidth of the system. A
visit reads and writes its own control block only. -/
def allocateBandwidths : IoCgroupSystem :=
  if manager.totalWeight > 0 then
    { system with
      controls := fun block =>
        if block ∈ system.traverse manager then
          (system.controls block).allocateBandwidth manager
        else system.controls block }
  else system

def rtemsIoCgroupManagerCreate (systemReadBps systemWriteBps : BitVec 64)
    (malloc : Bool) : IoCgroupSystem × StatusCode :=
  let systemReadBps := if systemReadBps = 0 then 1048576 else systemReadBps
  let systemWriteBps := if systemWriteBps = 0 then 1048576 else systemWriteBps
  match system.globalIoCgroupManager with
  | some _ => (system, .successful)
  | none =>
    if !malloc then (system, .noMemory)
    else
      ({ system with
        globalIoCgroupManager := some ⟨none, 0, 0, systemReadBps, systemWriteBps⟩ }, .successful)

def rtemsIoCgroupManagerUpdateBandwidth
    (systemReadBps systemWriteBps : BitVec 64) : IoCgroupSystem × StatusCode :=
  match system.globalIoCgroupManager with
  | none => (system, .notConfigured)
  | some manager =>
    if systemReadBps = 0 ∨ systemWriteBps = 0 then (system, .invalidNumber)
    else
      let updated :=
        { manager with systemReadBps := systemReadBps, systemWriteBps := systemWriteBps }
      ({ system with globalIoCgroupManager := some updated }.allocateBandwidths updated,
        .successful)

def rtemsIoCgroupAddToManager : IoCgroupSystem × StatusCode :=
  match system.globalIoCgroupManager with
  | none => (system, .notConfigured)
  | some manager =>
    (system.setLinks manager ((system.links manager).pushFront block) (manager.ioCgroupCount + 1),
      .successful)

def rtemsIoCgroupRemoveFromManager : IoCgroupSystem × StatusCode :=
  match system.globalIoCgroupManager with
  | none => (system, .notConfigured)
  | some manager =>
    (system.setLinks manager ((system.links manager).remove block) (manager.ioCgroupCount - 1),
      .successful)

def reweigh (block : Nat) (weight totalWeight : BitVec 32) : IoCgroupSystem :=
  let updated := { manager with totalWeight := totalWeight }
  { system.store block { system.controls block with weight := weight } with
    globalIoCgroupManager := some updated }.allocateBandwidths updated

def rtemsIoCgroupAllocateWeight (weight : BitVec 32) : IoCgroupSystem × StatusCode :=
  if weight = 0 then (system, .invalidAddress)
  else
    match system.globalIoCgroupManager with
    | none => (system, .notConfigured)
    | some manager =>
      (system.reweigh manager block weight
        (manager.totalWeight - (system.controls block).weight + weight), .successful)

def rtemsIoCgroupRemoveWeight : IoCgroupSystem × StatusCode :=
  match system.globalIoCgroupManager with
  | none => (system, .notConfigured)
  | some manager =>
    (system.reweigh manager block 0 (manager.totalWeight - (system.controls block).weight),
      .successful)

def free : IoCgroupSystem :=
  { system with allocated := system.allocated.erase block }

def allocateControl (limits : IoCgroupLimit) (ticksSinceBoot : BitVec 32) : IoCgroupSystem :=
  { system with
    allocated := block :: system.allocated
    nextCgroupId := system.nextCgroupId + 1 }.store block
      (IoCgroupControl.initial system.nextCgroupId limits ticksSinceBoot)

/-- `rtems_io_cgroup_create`: the status, or the identifier of a success. `malloc`
is the control block, and `buffer` tells whether the buffer could be allocated. -/
def rtemsIoCgroupCreate (ioCgroupWeight : BitVec 16)
    (limits : Option IoCgroupLimit) (cgroupId : Bool) (malloc : Option Nat) (buffer : Bool)
    (ticksSinceBoot : BitVec 32) : IoCgroupSystem × Except StatusCode (BitVec 32) :=
  match limits, cgroupId with
  | some limits, true =>
    if system.globalIoCgroupManager.isNone then (system, .error .notConfigured)
    else
      match malloc with
      | none => (system, .error .noMemory)
      | some block =>
        let made := system.allocateControl block limits ticksSinceBoot
        if !buffer then (made.free block, .error .noMemory)
        else
          match made.rtemsIoCgroupAddToManager block with
          | (added, .successful) =>
            match added.rtemsIoCgroupAllocateWeight block (ioCgroupWeight.setWidth 32) with
            | (weighed, .successful) => (weighed, .ok (weighed.controls block).id)
            | (weighed, status) =>
              ((weighed.rtemsIoCgroupRemoveFromManager block).1.free block, .error status)
          | (added, status) => (added.free block, .error status)
  | _, _ => (system, .error .invalidAddress)

def rtemsIoCgroupFinalize : IoCgroupSystem :=
  system.store block
    { system.controls block with threadWeightsChain := [], totalWeight := 0 }

def rtemsIoCgroupDelete : IoCgroupSystem :=
  let removed := (system.rtemsIoCgroupRemoveFromManager block).1
  let weightless :=
    if (removed.controls block).weight > 0 then (removed.rtemsIoCgroupRemoveWeight block).1
    else removed
  (weightless.rtemsIoCgroupFinalize block).free block

def rtemsIoCgroupAddThread (thread : Option ObjectsId)
    (weight : BitVec 32) (malloc : Bool) : IoCgroupSystem × StatusCode :=
  match thread with
  | none => (system, .invalidAddress)
  | some thread =>
    if weight = 0 then (system, .invalidAddress)
    else
      let (control, status) := (system.controls block).allocateThreadWeight thread weight malloc
      (system.store block control, status)

def rtemsIoCgroupRemoveThread (thread : Option ObjectsId) : IoCgroupSystem × StatusCode :=
  match thread with
  | none => (system, .invalidAddress)
  | some thread =>
    let (control, status) := (system.controls block).removeThreadWeight thread
    (system.store block control, status)

def rtemsIoCgroupSetLimits (limits : Option IoCgroupLimit) : IoCgroupSystem × StatusCode :=
  match limits with
  | none => (system, .invalidAddress)
  | some limits =>
    (system.store block { system.controls block with limits := limits }, .successful)

def rtemsIoCgroupGetById (id : BitVec 32) : Option Nat :=
  system.globalIoCgroupManager.bind fun manager =>
    (system.traverse manager).find? fun block => (system.controls block).id = id

end IoCgroupSystem

/-- A call of the API of `io_cgroup.c`; a pointer to a cgroup may be `NULL`. -/
inductive IoCgroupCall where
  | managerCreate (systemReadBps systemWriteBps : BitVec 64) (malloc : Bool)
  | managerUpdateBandwidth (systemReadBps systemWriteBps : BitVec 64)
  | create (ioCgroupWeight : BitVec 16) (limits : Option IoCgroupLimit) (cgroupId : Bool)
      (malloc : Option Nat) (buffer : Bool) (ticksSinceBoot : BitVec 32)
  | delete (ioCgroup : Option Nat)
  | allocateWeight (ioCgroup : Option Nat) (weight : BitVec 32)
  | removeWeight (ioCgroup : Option Nat)
  | addThread (ioCgroup : Option Nat) (thread : Option ObjectsId) (weight : BitVec 32)
      (malloc : Bool)
  | removeThread (ioCgroup : Option Nat) (thread : Option ObjectsId)

namespace IoCgroupCall

def ioCgroup : IoCgroupCall → Option Nat
  | managerCreate .. | managerUpdateBandwidth .. | create .. => none
  | delete block | allocateWeight block _ | removeWeight block | addThread block ..
  | removeThread block _ => block

/-- What a call does to the system when the control block it is given is
allocated. -/
def perform (system : IoCgroupSystem) : IoCgroupCall → IoCgroupSystem
  | managerCreate systemReadBps systemWriteBps malloc =>
    (system.rtemsIoCgroupManagerCreate systemReadBps systemWriteBps malloc).1
  | managerUpdateBandwidth systemReadBps systemWriteBps =>
    (system.rtemsIoCgroupManagerUpdateBandwidth systemReadBps systemWriteBps).1
  | create ioCgroupWeight limits cgroupId malloc buffer ticksSinceBoot =>
    (system.rtemsIoCgroupCreate ioCgroupWeight limits cgroupId malloc buffer ticksSinceBoot).1
  | delete (some block) => system.rtemsIoCgroupDelete block
  | allocateWeight (some block) weight => (system.rtemsIoCgroupAllocateWeight block weight).1
  | removeWeight (some block) => (system.rtemsIoCgroupRemoveWeight block).1
  | addThread (some block) thread weight malloc =>
    (system.rtemsIoCgroupAddThread block thread weight malloc).1
  | removeThread (some block) thread => (system.rtemsIoCgroupRemoveThread block thread).1
  | delete none | allocateWeight none _ | removeWeight none | addThread none ..
  | removeThread none _ => system

/-- The calls the code can receive: a pointer is `NULL` or an allocated control
block, and `malloc` hands out no block that is allocated. -/
def Possible (system : IoCgroupSystem) (call : IoCgroupCall) : Prop :=
  (∀ block, call.ioCgroup = some block → block ∈ system.allocated) ∧
    match call with
    | create _ _ _ (some block) _ _ => block ∉ system.allocated
    | _ => True

instance (system : IoCgroupSystem) (call : IoCgroupCall) : Decidable (call.Possible system) := by
  unfold Possible
  cases call with
  | create _ _ _ malloc _ _ => cases malloc <;> exact inferInstance
  | _ => exact inferInstance

end IoCgroupCall

end RTContainer.Score
