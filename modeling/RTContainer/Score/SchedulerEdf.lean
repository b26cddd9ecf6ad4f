import RTContainer.Lib.RedBlack
import RTContainer.Score.SchedulerPriority

/-! The earliest deadline first scheduler of `scheduleredfimpl.h` and `scheduleruniimpl.h` on one
processor. The rebalancing of the ready tree is left to the operations that are given. -/

set_option autoImplicit false

namespace RTContainer.Score

open RedBlack Function

def schedulerEdfPrioMsb : Nat := 2 ^ 63

def schedulerMapDeadline (deadline : Nat) : Nat := deadline * 2 % 2 ^ 64

def schedulerPriorityPurify (priority : Nat) : Nat := priority &&& (2 ^ 64 - 2)

def schedulerPriorityAppend (priority : Nat) : Nat := priority ||| PriorityGroupOrder.last.value

/-- What a thread is scheduled by: the deadline of a job, or a priority in the background. -/
inductive EdfPriority where
  | deadline (deadline : Nat)
  | background (priority : Nat)
  deriving DecidableEq

def EdfPriority.map : EdfPriority → Nat
  | .deadline ticks => schedulerMapDeadline ticks
  | .background priority => (schedulerEdfPrioMsb ||| schedulerPriorityMap priority) % 2 ^ 64

/-- `Scheduler_EDF_Context` with the scheduler nodes and states of the threads: `edfPriority` is
`priority` of a `Scheduler_EDF_Node`, `nodePriority` is `Priority.value` of its `Scheduler_Node`, and
`waitPriority` the priority of the aggregation of the thread. -/
structure SchedulerEdf (Thread : Type) where
  ready : RedBlack.Tree Thread
  edfPriority : Thread → Nat
  nodePriority : Thread → Nat
  waitPriority : Thread → Nat
  isReady : Thread → Bool
  isPreemptible : Thread → Bool
  threadHeir : Thread
  threadDispatchNecessary : Bool

namespace SchedulerEdf

variable {Thread : Type} [DecidableEq Thread] (tree : Rebalancing Thread)
  (scheduler : SchedulerEdf Thread)

def priorityLessEqual (left : Nat) (right : Thread) : Bool :=
  left ≤ scheduler.edfPriority right

variable (thread : Thread)

def enqueue (insertPriority : Nat) : SchedulerEdf Thread :=
  { scheduler with
    ready := tree.insertColor
      (scheduler.ready.insertLeaf (scheduler.priorityLessEqual insertPriority) thread) thread }

def extract (scheduler : SchedulerEdf Thread) (thread : Thread) : SchedulerEdf Thread :=
  { scheduler with ready := tree.extract scheduler.ready thread }

/-- `_Scheduler_EDF_Get_highest_ready`; `none` when the tree is empty. -/
def getHighestReady : Option Thread :=
  scheduler.ready.toList.head?

def updateHeir (newHeir : Thread) : SchedulerEdf Thread :=
  { scheduler with threadHeir := newHeir, threadDispatchNecessary := true }

def updateHeirIfNecessary (newHeir : Thread) : SchedulerEdf Thread :=
  if scheduler.threadHeir ≠ newHeir then scheduler.updateHeir newHeir else scheduler

def updateHeirIfPreemptible (heir newHeir : Thread) : SchedulerEdf Thread :=
  if heir ≠ newHeir ∧ scheduler.isPreemptible heir then scheduler.updateHeir newHeir
  else scheduler

def schedule : Option (SchedulerEdf Thread) :=
  scheduler.getHighestReady.map fun highestReady =>
    scheduler.updateHeirIfPreemptible scheduler.threadHeir highestReady

def block : Option (SchedulerEdf Thread) :=
  let extracted := scheduler.extract tree thread
  if extracted.threadHeir = thread then extracted.getHighestReady.map extracted.updateHeir
  else some extracted

def uniprocessorUnblock (priority : Nat) : SchedulerEdf Thread :=
  if priority < scheduler.waitPriority scheduler.threadHeir then
    scheduler.updateHeirIfPreemptible scheduler.threadHeir thread
  else scheduler

def unblock : SchedulerEdf Thread :=
  let priority := schedulerPriorityPurify (scheduler.nodePriority thread)
  let insertPriority := schedulerPriorityAppend priority
  let updated : SchedulerEdf Thread :=
    { scheduler with edfPriority := update scheduler.edfPriority thread priority }
  (updated.enqueue tree thread insertPriority).uniprocessorUnblock thread priority

def updatePriority : Option (SchedulerEdf Thread) :=
  if !scheduler.isReady thread then some scheduler
  else
    let insertPriority := scheduler.nodePriority thread
    let priority := schedulerPriorityPurify insertPriority
    if priority = scheduler.edfPriority thread then some scheduler
    else
      let updated : SchedulerEdf Thread :=
        { scheduler with edfPriority := update scheduler.edfPriority thread priority }
      ((updated.extract tree thread).enqueue tree thread insertPriority).schedule

def yield : Option (SchedulerEdf Thread) :=
  let turned :=
    (scheduler.extract tree thread).enqueue tree thread (scheduler.edfPriority thread)
  turned.getHighestReady.map turned.updateHeirIfNecessary

/-- `_Thread_Set_state` of a ready thread. -/
def threadBlock : Option (SchedulerEdf Thread) :=
  if scheduler.isReady thread then
    let changed : SchedulerEdf Thread :=
      { scheduler with isReady := update scheduler.isReady thread false }
    changed.block tree thread
  else some scheduler

/-- `_Thread_Clear_state` of the last state of a thread. -/
def threadUnblock : SchedulerEdf Thread :=
  if scheduler.isReady thread then scheduler
  else
    let changed : SchedulerEdf Thread :=
      { scheduler with isReady := update scheduler.isReady thread true }
    changed.unblock tree thread

def setNodePriority (priority : Nat) (order : PriorityGroupOrder) : SchedulerEdf Thread :=
  { scheduler with
    waitPriority := update scheduler.waitPriority thread priority
    nodePriority := update scheduler.nodePriority thread (priority ||| order.value) }

/-- `_Priority_Changed`, and the update of the scheduler behind it. -/
def setPriority (priority : EdfPriority)
    (order : PriorityGroupOrder) : Option (SchedulerEdf Thread) :=
  if priority.map = scheduler.waitPriority thread then some scheduler
  else (scheduler.setNodePriority thread priority.map order).updatePriority tree thread

def threadYield : Option (SchedulerEdf Thread) :=
  if scheduler.isReady thread then scheduler.yield tree thread else some scheduler

def initialized (priorities : Thread → EdfPriority) (isPreemptible : Thread → Bool)
    (idle : Thread) : SchedulerEdf Thread where
  ready := .leaf
  edfPriority := fun thread => (priorities thread).map
  nodePriority := fun thread => (priorities thread).map
  waitPriority := fun thread => (priorities thread).map
  isReady := fun _ => false
  isPreemptible := isPreemptible
  threadHeir := idle
  threadDispatchNecessary := false

def initial (priorities : Thread → EdfPriority) (isPreemptible : Thread → Bool) (idle : Thread) :
    SchedulerEdf Thread :=
  (initialized priorities isPreemptible idle).threadUnblock tree idle

end SchedulerEdf

/-- What is done to threads that makes the scheduler work. -/
inductive SchedulerEdfCall (Thread : Type) where
  | block (thread : Thread)
  | unblock (thread : Thread)
  | setPriority (thread : Thread) (priority : EdfPriority) (order : PriorityGroupOrder)
  | yield (thread : Thread)
  deriving DecidableEq

variable {Thread : Type} [DecidableEq Thread] (tree : Rebalancing Thread)

def SchedulerEdfCall.perform (scheduler : SchedulerEdf Thread) :
    SchedulerEdfCall Thread → Option (SchedulerEdf Thread)
  | .block thread => scheduler.threadBlock tree thread
  | .unblock thread => some (scheduler.threadUnblock tree thread)
  | .setPriority thread priority order => scheduler.setPriority tree thread priority order
  | .yield thread => scheduler.threadYield tree thread

def SchedulerEdfCall.Possible (idle : Thread) (call : SchedulerEdfCall Thread) : Prop :=
  call ≠ .block idle

instance (idle : Thread) (call : SchedulerEdfCall Thread) : Decidable (call.Possible idle) :=
  inferInstanceAs (Decidable (call ≠ .block idle))

end RTContainer.Score
