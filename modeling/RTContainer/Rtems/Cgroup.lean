import RTContainer.Score.CoreCgroup

/-! The classic cgroup directives. `_Cgroup_Allocate` is given by the control
block it returns. A directive that goes through a `NULL` pointer has no result
(`none`). -/

set_option autoImplicit false

namespace RTContainer.Rtems

open RTContainer.Score

/-- What the object services know of the threads: `_Thread_Get` finds every
thread by its identifier. -/
structure ObjectNames (Thread : Type) where
  threadId : Thread → ObjectsId
  threadGet : ObjectsId → Option Thread
  threadGet_eq_some : ∀ id thread, threadGet id = some thread ↔ threadId thread = id

variable {Thread : Type} [DecidableEq Thread] (names : ObjectNames Thread)
  (system : CgroupSystem Thread)

/-- `_Cgroup_Get`: the open control block with an identifier. -/
def cgroupGet (id : ObjectsId) : Option ObjectsId :=
  system.opened.find? fun block => block = id

def rtemsCgroupCreate (name : BitVec 32) (id : Bool) (config : Nat)
    (allocated : Option ObjectsId) : CgroupSystem Thread × Except StatusCode ObjectsId :=
  if name = 0 then (system, .error .invalidName)
  else if !id then (system, .error .invalidAddress)
  else
    match allocated with
    | none => (system, .error .tooMany)
    | some block =>
      ({ system.coreCgroupInitialize block config with opened := block :: system.opened },
        .ok block)

/-- `rtems_cgroup_add_task`. Neither identifier is checked: only the node that
cannot be allocated is noticed before the pointers are used. -/
def rtemsCgroupAddTask (cgroupId taskId : ObjectsId)
    (workspace : Bool) : Option (CgroupSystem Thread × StatusCode) :=
  if workspace then
    match cgroupGet system cgroupId, names.threadGet taskId with
    | some block, some thread => some (system.coreCgroupAddThread block thread, .successful)
    | _, _ => none
  else some (system, .resourceInUse)

/-- `rtems_cgroup_remove_task`. A thread that does not exist has no node. -/
def rtemsCgroupRemoveTask (cgroupId taskId : ObjectsId) :
    Option (CgroupSystem Thread × StatusCode) :=
  match cgroupGet system cgroupId with
  | none => none
  | some block =>
    match (names.threadGet taskId).bind (system.coreCgroupRemoveThread block) with
    | some removed => some (removed, .successful)
    | none => some (system, .resourceInUse)

def rtemsCgroupDelete (id : ObjectsId) : CgroupSystem Thread × StatusCode :=
  match cgroupGet system id with
  | none => (system, .invalidId)
  | some block =>
    ({ system.coreCgroupDestroy block with opened := system.opened.erase block }, .successful)

end RTContainer.Rtems
