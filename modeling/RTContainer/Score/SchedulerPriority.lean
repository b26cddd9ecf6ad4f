import RTContainer.Lib.Run
import RTContainer.Score.PriorityBitMap
import RTContainer.Score.States

/-! The deterministic priority scheduler of `schedulerpriorityimpl.h` and
`scheduleruniimpl.h` on one processor, and the operations on threads that call it. A
ready chain is the list of its threads, from first to last. -/

set_option autoImplicit false

namespace RTContainer.Score

open Function

/-- `Priority_Group_order`. -/
inductive PriorityGroupOrder where
  | first
  | last
  deriving DecidableEq

def PriorityGroupOrder.value : PriorityGroupOrder → Nat
  | .first => 0
  | .last => 1

def schedulerPriorityMap (priority : Nat) : Nat := priority <<< 1

def schedulerPriorityUnmap (priority : Nat) : Nat := priority >>> 1

def schedulerPriorityIsAppend (priority : Nat) : Bool := priority &&& 1 ≠ 0

def unsignedOfPriority (priority : Nat) : Nat := priority % 2 ^ 32

/-- `Scheduler_priority_Ready_queue`; `readyChain` is the index of the chain that the
source points to. -/
structure SchedulerPriorityReadyQueue where
  currentPriority : Nat
  readyChain : Nat
  priorityMap : PriorityBitMapInformation

def schedulerPriorityReadyQueueUpdate (newPriority : Nat) : SchedulerPriorityReadyQueue where
  currentPriority := newPriority
  readyChain := newPriority
  priorityMap := .initializeInformation newPriority

/-- `Scheduler_priority_Context`, with the scheduler nodes and states of the threads:
`nodePriority` is `Priority.value` of a scheduler node, and `waitPriority` its
`Wait.Priority.Node.priority`. -/
structure SchedulerPriority (Thread : Type) where
  bitMap : PriorityBitMapControl
  ready : Nat → List Thread
  readyQueue : Thread → SchedulerPriorityReadyQueue
  nodePriority : Thread → Nat
  waitPriority : Thread → Nat
  currentState : Thread → BitVec 32
  isPreemptible : Thread → Bool
  threadHeir : Thread
  threadDispatchNecessary : Bool

namespace SchedulerPriority

variable {Thread : Type} [DecidableEq Thread] (scheduler : SchedulerPriority Thread)
  (thread : Thread)

def threadIsReady : Bool :=
  statesIsReady (scheduler.currentState thread)

def threadGetPriority : Nat :=
  scheduler.waitPriority thread

def chainExtract : SchedulerPriority Thread :=
  { scheduler with ready := fun chain => (scheduler.ready chain).erase thread }

def chainAppend (chain : Nat) (thread : Thread) : SchedulerPriority Thread :=
  { scheduler with
    ready := update scheduler.ready chain (scheduler.ready chain ++ [thread]) }

def chainPrepend (chain : Nat) (thread : Thread) : SchedulerPriority Thread :=
  { scheduler with
    ready := update scheduler.ready chain (thread :: scheduler.ready chain) }

def chainHasOnlyOneNode (chain : Nat) : Bool :=
  (scheduler.ready chain).length = 1

def setReadyQueue (readyQueue : SchedulerPriorityReadyQueue) : SchedulerPriority Thread :=
  { scheduler with readyQueue := update scheduler.readyQueue thread readyQueue }

def readyQueueEnqueue : SchedulerPriority Thread :=
  let readyQueue := scheduler.readyQueue thread
  { scheduler.chainAppend readyQueue.readyChain thread with
    bitMap := scheduler.bitMap.add readyQueue.priorityMap }

def readyQueueEnqueueFirst : SchedulerPriority Thread :=
  let readyQueue := scheduler.readyQueue thread
  { scheduler.chainPrepend readyQueue.readyChain thread with
    bitMap := scheduler.bitMap.add readyQueue.priorityMap }

def readyQueueExtract : SchedulerPriority Thread :=
  let readyQueue := scheduler.readyQueue thread
  if scheduler.chainHasOnlyOneNode readyQueue.readyChain then
    { scheduler with
      ready := update scheduler.ready readyQueue.readyChain []
      bitMap := scheduler.bitMap.remove readyQueue.priorityMap }
  else scheduler.chainExtract thread

/-- `_Scheduler_priority_Get_highest_ready`; `none` when the chain of the highest
priority is empty. -/
def getHighestReady : Option Thread :=
  (scheduler.ready scheduler.bitMap.getHighest).head?

def updateHeir (newHeir : Thread) : SchedulerPriority Thread :=
  { scheduler with threadHeir := newHeir, threadDispatchNecessary := true }

def updateHeirIfNecessary (newHeir : Thread) : SchedulerPriority Thread :=
  if scheduler.threadHeir ≠ newHeir then scheduler.updateHeir newHeir else scheduler

def updateHeirIfPreemptible (heir newHeir : Thread) : SchedulerPriority Thread :=
  if heir ≠ newHeir ∧ scheduler.isPreemptible heir then scheduler.updateHeir newHeir
  else scheduler

def schedule : Option (SchedulerPriority Thread) :=
  scheduler.getHighestReady.map fun highestReady =>
    scheduler.updateHeirIfPreemptible scheduler.threadHeir highestReady

def block : Option (SchedulerPriority Thread) :=
  let extracted := scheduler.readyQueueExtract thread
  if extracted.threadHeir = thread then extracted.getHighestReady.map extracted.updateHeir
  else some extracted

def unblock : SchedulerPriority Thread :=
  let priority := unsignedOfPriority (scheduler.nodePriority thread)
  let unmappedPriority := schedulerPriorityUnmap priority
  let updated :=
    if unmappedPriority ≠ (scheduler.readyQueue thread).currentPriority then
      scheduler.setReadyQueue thread (schedulerPriorityReadyQueueUpdate unmappedPriority)
    else scheduler
  let enqueued := updated.readyQueueEnqueue thread
  if priority < enqueued.threadGetPriority enqueued.threadHeir then
    enqueued.updateHeirIfPreemptible enqueued.threadHeir thread
  else enqueued

def updatePriority : Option (SchedulerPriority Thread) :=
  if !scheduler.threadIsReady thread then some scheduler
  else
    let newPriority := unsignedOfPriority (scheduler.nodePriority thread)
    let unmappedPriority := schedulerPriorityUnmap newPriority
    if unmappedPriority = (scheduler.readyQueue thread).currentPriority then some scheduler
    else
      let moved := (scheduler.readyQueueExtract thread).setReadyQueue thread
        (schedulerPriorityReadyQueueUpdate unmappedPriority)
      let enqueued :=
        if schedulerPriorityIsAppend newPriority then moved.readyQueueEnqueue thread
        else moved.readyQueueEnqueueFirst thread
      enqueued.schedule

def yield : Option (SchedulerPriority Thread) :=
  let readyChain := (scheduler.readyQueue thread).readyChain
  let turned :=
    if scheduler.chainHasOnlyOneNode readyChain then scheduler
    else (scheduler.chainExtract thread).chainAppend readyChain thread
  turned.getHighestReady.map turned.updateHeirIfNecessary

def setCurrentState (state : BitVec 32) : SchedulerPriority Thread :=
  { scheduler with currentState := update scheduler.currentState thread state }

def threadSetState (state : BitVec 32) : Option (SchedulerPriority Thread) :=
  let previousState := scheduler.currentState thread
  let changed := scheduler.setCurrentState thread (statesSet state previousState)
  if statesIsReady previousState then changed.block thread else some changed

def threadClearState (state : BitVec 32) : SchedulerPriority Thread :=
  let previousState := scheduler.currentState thread
  if previousState &&& state ≠ 0 then
    let nextState := statesClear state previousState
    let changed := scheduler.setCurrentState thread nextState
    if statesIsReady nextState then changed.unblock thread else changed
  else scheduler

def setNodePriority (priority : Nat) (order : PriorityGroupOrder) : SchedulerPriority Thread :=
  { scheduler with
    waitPriority :=
      update scheduler.waitPriority thread (schedulerPriorityMap priority)
    nodePriority :=
      update scheduler.nodePriority thread (schedulerPriorityMap priority ||| order.value) }

/-- A change of priority, and the update of the scheduler behind it. -/
def setPriority (priority : Nat) (order : PriorityGroupOrder) : Option (SchedulerPriority Thread) :=
  (scheduler.setNodePriority thread priority order).updatePriority thread

def threadYield : Option (SchedulerPriority Thread) :=
  if scheduler.threadIsReady thread then scheduler.yield thread else some scheduler

/-- The part of `rtems_task_mode` that sets whether a thread is preemptible. -/
def setPreemptible (isPreemptible : Bool) : Option (SchedulerPriority Thread) :=
  let changed : SchedulerPriority Thread :=
    { scheduler with
      isPreemptible := update scheduler.isPreemptible thread isPreemptible }
  if isPreemptible ∧ !scheduler.isPreemptible thread then changed.schedule else some changed

/-- The scheduler after `_Scheduler_priority_Initialize`, with the nodes of all threads
initialized, and the idle thread about to be started: it is the heir, and not on a
chain yet. -/
def initialized (priorities : Thread → Nat) (isPreemptible : Thread → Bool) (idle : Thread) :
    SchedulerPriority Thread where
  bitMap := .initialized
  ready := fun _ => []
  readyQueue := fun thread => schedulerPriorityReadyQueueUpdate (priorities thread)
  nodePriority := fun thread => schedulerPriorityMap (priorities thread)
  waitPriority := fun thread => schedulerPriorityMap (priorities thread)
  currentState := update (fun _ => statesDormant) idle statesReady
  isPreemptible := isPreemptible
  threadHeir := idle
  threadDispatchNecessary := false

def initial (priorities : Thread → Nat) (isPreemptible : Thread → Bool) (idle : Thread) :
    SchedulerPriority Thread :=
  (initialized priorities isPreemptible idle).unblock idle

end SchedulerPriority

/-- What is done to threads that makes the scheduler work. -/
inductive SchedulerPriorityCall (Thread : Type) where
  | setState (thread : Thread) (state : BitVec 32)
  | clearState (thread : Thread) (state : BitVec 32)
  | setPriority (thread : Thread) (priority : Nat) (order : PriorityGroupOrder)
  | yield (thread : Thread)
  | setPreemptible (thread : Thread) (isPreemptible : Bool)

variable {Thread : Type} [DecidableEq Thread]

def SchedulerPriorityCall.perform (scheduler : SchedulerPriority Thread) :
    SchedulerPriorityCall Thread → Option (SchedulerPriority Thread)
  | .setState thread state => scheduler.threadSetState thread state
  | .clearState thread state => some (scheduler.threadClearState thread state)
  | .setPriority thread priority order => scheduler.setPriority thread priority order
  | .yield thread => scheduler.threadYield thread
  | .setPreemptible thread isPreemptible => scheduler.setPreemptible thread isPreemptible

/-- Priorities are those of the bit map, a state that is set is one, and the idle thread
does not block. -/
def SchedulerPriorityCall.Possible (idle : Thread) : SchedulerPriorityCall Thread → Prop
  | .setState thread state => state ≠ 0 ∧ thread ≠ idle
  | .clearState _ _ => True
  | .setPriority _ priority _ => priority < 256
  | .yield _ => True
  | .setPreemptible _ _ => True

instance (idle : Thread) (call : SchedulerPriorityCall Thread) : Decidable (call.Possible idle) :=
  match call with
  | .setState thread state => inferInstanceAs (Decidable (state ≠ 0 ∧ thread ≠ idle))
  | .clearState _ _ => isTrue trivial
  | .setPriority _ priority _ => inferInstanceAs (Decidable (priority < 256))
  | .yield _ => isTrue trivial
  | .setPreemptible _ _ => isTrue trivial

end RTContainer.Score
