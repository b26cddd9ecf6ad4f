import RTContainer.Lib.CString
import RTContainer.Score.CgroupLimits
import RTContainer.Score.IoCgroup

/-! The control files `/cpuctl`, `/memctl` and `/ioctl` of `containerfs.c`. What
they print is left out. -/

set_option autoImplicit false

/-! The commands of the control files of `containerfs.c`, as the handlers read
them from the bytes that are written. -/

namespace RTContainer.Score

open CString

/-- `containerfs_copy_command`: the string in the command buffer, `none` when it
returns 0. -/
def containerfsCopyCommand (cmdSize : Nat) (buffer : List UInt8) : Option (List UInt8) :=
  if buffer.length = 0 ∨ cmdSize = 0 then none
  else
    some ((buffer.take (cmdSize - 1)).takeWhile fun byte => byte ≠ 0 && byte ≠ 13 && byte ≠ 10)

def isBlank (byte : UInt8) : Bool := byte = 32 || byte = 9

def cpuctlCommand (cmd word : List UInt8) : Option (List UInt8) :=
  if word.isPrefixOf cmd then
    match cmd.drop word.length with
    | [] => some []
    | byte :: rest => if isBlank byte then some (rest.dropWhile isBlank) else none
  else none

inductive CpuctlCommand where
  | create (quota period shares : BitVec 32)
  | set (id : ObjectsId) (quota period : BitVec 32)
  | delete (id : ObjectsId)
  | pause (id : ObjectsId)
  | resume (id : ObjectsId)
  | list
  | refused
  deriving DecidableEq, Repr

inductive MemctlCommand where
  | create (memoryLimit : BitVec 64)
  | set (id : ObjectsId) (memoryLimit : BitVec 64)
  | delete (id : ObjectsId)
  | list
  | refused
  deriving DecidableEq, Repr

inductive IoctlCommand where
  | create (weight : BitVec 32)
  | set (id : BitVec 32) (readBps writeBps : BitVec 64) (windowMs : BitVec 32)
  | delete (id : BitVec 32)
  | list
  | refused
  deriving DecidableEq, Repr

variable (overflow : Overflow)

def scanId {Command : Type} (args : List UInt8) (command : ObjectsId → Command)
    (refused : Command) : Command :=
  match scanIntegers 1 args with
  | [id] => command (overflow.toUInt32 id)
  | _ => refused

/-- The command that `cpuctl_write` makes out of its command buffer. -/
def cpuctlParse (cmd : List UInt8) : CpuctlCommand :=
  match cpuctlCommand cmd (bytes "create") with
  | some args =>
    if args = [] then .create 100 1000 1
    else
      match scanIntegers 3 args with
      | [quota, period, shares] =>
        .create (overflow.toUInt32 quota) (overflow.toUInt32 period) (overflow.toUInt32 shares)
      | _ => .refused
  | none =>
  match cpuctlCommand cmd (bytes "set") with
  | some args =>
    match scanIntegers 3 args with
    | [id, quota, period] =>
      .set (overflow.toUInt32 id) (overflow.toUInt32 quota) (overflow.toUInt32 period)
    | _ => .refused
  | none =>
  match cpuctlCommand cmd (bytes "delete") with
  | some args => scanId overflow args .delete .refused
  | none =>
  match cpuctlCommand cmd (bytes "pause") with
  | some args => scanId overflow args .pause .refused
  | none =>
  match cpuctlCommand cmd (bytes "resume") with
  | some args => scanId overflow args .resume .refused
  | none => if cmd = bytes "list" then .list else .refused

/-- The command that `memctl_write` makes out of its command buffer. A limit that
cannot be read is the default. -/
def memctlParse (cmd : List UInt8) : MemctlCommand :=
  if (bytes "create").isPrefixOf cmd then
    match scanIntegers 1 (cmd.drop 6) with
    | [memoryLimit] => .create (overflow.toUInt64 memoryLimit)
    | _ => .create (1024 * 1024)
  else if (bytes "set").isPrefixOf cmd then
    match scanIntegers 2 (cmd.drop 3) with
    | [id, memoryLimit] => .set (overflow.toUInt32 id) (overflow.toUInt64 memoryLimit)
    | _ => .refused
  else if (bytes "delete").isPrefixOf cmd then scanId overflow (cmd.drop 6) .delete .refused
  else if cmd = bytes "list" then .list
  else .refused

/-- The command that `ioctl_write` makes out of its command buffer. A weight that
cannot be read is the default. -/
def ioctlParse (cmd : List UInt8) : IoctlCommand :=
  if (bytes "create").isPrefixOf cmd then
    match scanIntegers 1 (cmd.drop 6) with
    | [weight] => .create (overflow.toUInt32 weight)
    | _ => .create 50
  else if (bytes "set").isPrefixOf cmd then
    match scanIntegers 4 (cmd.drop 3) with
    | [id, readBps, writeBps, windowMs] =>
      .set (overflow.toUInt32 id) (overflow.toUInt64 readBps) (overflow.toUInt64 writeBps)
        (overflow.toUInt32 windowMs)
    | _ => .refused
  else if (bytes "delete").isPrefixOf cmd then scanId overflow (cmd.drop 6) .delete .refused
  else if cmd = bytes "list" then .list
  else .refused

end RTContainer.Score

namespace RTContainer.Score

open RTContainer.Rtems CString

def trackMax : Nat := 32

/-- The loops of `containerfs_cgroup_track_add` and its twin for I/O cgroups: an
identifier that is there already is not added, nor one for which there is no room. -/
def trackAdd (ids : List (BitVec 32)) (id : BitVec 32) : List (BitVec 32) :=
  if id ∈ ids then ids
  else if ids.length < trackMax then ids ++ [id]
  else ids

/-- The loops of `containerfs_cgroup_track_remove` and its twin for I/O cgroups. -/
def trackRemove (ids : List (BitVec 32)) (id : BitVec 32) : List (BitVec 32) := ids.erase id

structure ControlFiles (Thread : Type) where
  cgroups : CgroupSystem Thread
  ioCgroups : IoCgroupSystem
  containerfsCgroupIds : List ObjectsId
  containerfsCgroupNameIndex : BitVec 32
  containerfsIocgroupIds : List (BitVec 32)

inductive Errno where
  | einval
  | enomem
  | esrch
  deriving DecidableEq, Repr

/-- What a write finds: what `sscanf` stores for numbers that do not fit, the
address of its local configuration, the control block of a new cgroup, and the
outcomes of the allocations for a new I/O cgroup with the time. -/
structure FileCall where
  overflow : Overflow
  frame : Nat
  allocated : Option ObjectsId
  managerMalloc : Bool
  malloc : Option Nat
  buffer : Bool
  ticksSinceBoot : BitVec 32

variable {Thread : Type} [DecidableEq Thread]

namespace ControlFiles

variable (files : ControlFiles Thread)

def containerfsCgroupTrackAdd (id : ObjectsId) : ControlFiles Thread :=
  { files with containerfsCgroupIds := trackAdd files.containerfsCgroupIds id }

def containerfsCgroupTrackRemove (id : ObjectsId) : ControlFiles Thread :=
  { files with containerfsCgroupIds := trackRemove files.containerfsCgroupIds id }

def containerfsIocgroupTrackAdd (id : BitVec 32) : ControlFiles Thread :=
  { files with containerfsIocgroupIds := trackAdd files.containerfsIocgroupIds id }

def containerfsIocgroupTrackRemove (id : BitVec 32) : ControlFiles Thread :=
  { files with containerfsIocgroupIds := trackRemove files.containerfsIocgroupIds id }

variable (call : FileCall)

/-- The part of a `create` that the files of the cgroups share: the counter for
names goes on, and the identifier of a new cgroup is tracked. -/
def createCgroup (name : BitVec 32)
    (config : CoreCgroupConfig) : ControlFiles Thread × Option ObjectsId :=
  let counted := { files with containerfsCgroupNameIndex := files.containerfsCgroupNameIndex + 1 }
  match files.cgroups.createAt name call.frame config call.allocated with
  | (cgroups, some id) => ({ counted with cgroups := cgroups }.containerfsCgroupTrackAdd id, some id)
  | (cgroups, none) => ({ counted with cgroups := cgroups }, none)

def deleteCgroup (id : ObjectsId) : ControlFiles Thread × StatusCode :=
  match rtemsCgroupDelete files.cgroups id with
  | (cgroups, .successful) =>
    ({ files with cgroups := cgroups }.containerfsCgroupTrackRemove id, .successful)
  | (cgroups, status) => ({ files with cgroups := cgroups }, status)

def cpuctlPerform : CpuctlCommand → ControlFiles Thread × Option Errno
  | .create quota period shares =>
    match files.createCgroup call (cpuctlName files.containerfsCgroupNameIndex.toNat)
        ⟨shares.toNat, quota.toNat, period.toNat, 0, 0⟩ with
    | (created, some _) => (created, none)
    | (refused, none) => (refused, some .enomem)
  | .set id quota period =>
    match cgroupGet files.cgroups id with
    | some block =>
      ({ files with
        cgroups := files.cgroups.coreCgroupSetCpuQuota (files.cgroups.cgroups block).config
          quota.toNat period.toNat }, none)
    | none => (files, some .esrch)
  | .delete id =>
    match files.deleteCgroup id with
    | (deleted, .successful) => (deleted, none)
    | (refused, _) => (refused, some .esrch)
  | .pause id =>
    match cgroupGet files.cgroups id with
    | some block =>
      match files.cgroups.coreCgroupSuspend (some block) statesWaitingForCgroupCpuQuota with
      | (cgroups, .successful) => ({ files with cgroups := cgroups }, none)
      | (cgroups, _) => ({ files with cgroups := cgroups }, some .einval)
    | none => (files, some .esrch)
  | .resume id =>
    match cgroupGet files.cgroups id with
    | some block =>
      match files.cgroups.coreCgroupResume (some block) statesWaitingForCgroupCpuQuota with
      | (cgroups, .successful) => ({ files with cgroups := cgroups }, none)
      | (cgroups, _) => ({ files with cgroups := cgroups }, some .einval)
    | none => (files, some .esrch)
  | .list => (files, none)
  | .refused => (files, some .einval)

/-- `cpuctl_write`: the number of bytes, or the error. -/
def cpuctlWrite (buffer : List UInt8) : ControlFiles Thread × Except Errno Nat :=
  match containerfsCopyCommand 256 buffer with
  | none => (files, .error .einval)
  | some cmd =>
    match files.cpuctlPerform call (cpuctlParse call.overflow cmd) with
    | (written, none) => (written, .ok buffer.length)
    | (written, some errno) => (written, .error errno)

def memctlPerform : MemctlCommand → ControlFiles Thread
  | .create memoryLimit =>
    (files.createCgroup call (memctlName files.containerfsCgroupNameIndex.toNat)
      ⟨1, 0, 0, memoryLimit.toNat, 0⟩).1
  | .set id memoryLimit =>
    match cgroupGet files.cgroups id with
    | some block =>
      let limited := files.cgroups.setConfig (files.cgroups.cgroups block).config
        { files.cgroups.configuration block with memoryLimit := memoryLimit.toNat }
      { files with
        cgroups := limited.store block
          { limited.cgroups block with memQuotaAvailable := memoryLimit.toNat } }
    | none => files
  | .delete id => (files.deleteCgroup id).1
  | .list | .refused => files

/-- `memctl_write`, which always returns the number of bytes. -/
def memctlWrite (buffer : List UInt8) : ControlFiles Thread × Nat :=
  match containerfsCopyCommand 256 buffer with
  | none => (files, buffer.length)
  | some cmd => (files.memctlPerform call (memctlParse call.overflow cmd), buffer.length)

/-- What `ioctl_write` does for a command. The weight is cut to 16 bits. -/
def ioctlPerform : IoctlCommand → ControlFiles Thread
  | .create weight =>
    match files.ioCgroups.rtemsIoCgroupManagerCreate (1024 * 1024) (1024 * 1024)
        call.managerMalloc with
    | (managed, .successful) =>
      match managed.rtemsIoCgroupCreate (weight.setWidth 16) (some ⟨0, 0, 1000⟩) true
          call.malloc call.buffer call.ticksSinceBoot with
      | (created, .ok id) =>
        { files with ioCgroups := created }.containerfsIocgroupTrackAdd id
      | (refused, .error _) => { files with ioCgroups := refused }
    | (refused, _) => { files with ioCgroups := refused }
  | .set id readBps writeBps windowMs =>
    match files.ioCgroups.rtemsIoCgroupGetById id with
    | some block =>
      { files with
        ioCgroups := (files.ioCgroups.rtemsIoCgroupSetLimits block
          (some ⟨readBps, writeBps, windowMs⟩)).1 }
    | none => files
  | .delete id =>
    match files.ioCgroups.rtemsIoCgroupGetById id with
    | some block =>
      { files with
        ioCgroups := files.ioCgroups.rtemsIoCgroupDelete block }.containerfsIocgroupTrackRemove id
    | none => files
  | .list | .refused => files

/-- `ioctl_write`, which always returns the number of bytes. -/
def ioctlWrite (buffer : List UInt8) : ControlFiles Thread × Nat :=
  match containerfsCopyCommand 256 buffer with
  | none => (files, buffer.length)
  | some cmd => (files.ioctlPerform call (ioctlParse call.overflow cmd), buffer.length)

end ControlFiles

end RTContainer.Score
