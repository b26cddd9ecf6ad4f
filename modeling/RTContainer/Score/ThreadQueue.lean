import RTContainer.Score.PriorityAggregation

/-! The thread queues of `threadqenqueue.c` and `threadqops.c` and the priority actions of
`threadchangepriority.c` on one processor, without `RTEMS_SMP` and
`RTEMS_MULTIPROCESSING`. A walk along the owners takes fuel: without an end it has no
result. -/

set_option autoImplicit false

namespace RTContainer.Score

open Function

/-- `Thread_queue_Operations`. -/
inductive ThreadQueueOperations where
  | default
  | fifo
  | priority
  | priorityInherit
  deriving DecidableEq

/-- A `Priority_Node` that contributes to a thread: one of the thread's own, or the node of
the priority queue of a thread queue that it owns. -/
inductive PriorityContributor (Queue Node : Type) where
  | node (node : Node)
  | queue (queue : Queue)
  deriving DecidableEq

inductive PriorityActionType where
  | add
  | remove
  | change
  deriving DecidableEq

structure PriorityAction (Thread Queue Node : Type) where
  aggregation : Thread
  node : PriorityContributor Queue Node
  type : PriorityActionType

inductive ThreadQueueDeadlockStatus where
  | noDeadlock
  | deadlockDetected
  deriving DecidableEq

/-- What `_Thread_queue_Enqueue` does: it blocks the thread, or calls
`deadlock_callout`. -/
inductive ThreadQueueEnqueued where
  | blocked
  | deadlock
  deriving DecidableEq

/-- The threads and the thread queues. `waitPriority` is `Wait.Priority` of the home
scheduler node of a thread and `schedulerPriority` the `Priority.value` of this node.
`freeChain` is the number of nodes on `Free_chain` of the heads of a queue, which are `NULL`
without one; `queuePriority` is `Heads.Priority.Queue`, or with `Heads.Fifo` as its
contributors. `operations` is what the users of a queue pass, `nodePriority` the priority of
a thread's own nodes, and `updates` is `Priority.update` of the context. -/
structure ThreadQueues (Thread Queue Node : Type) where
  waitQueue : Thread → Option Queue
  waitOperations : Thread → ThreadQueueOperations
  waitPriority : Thread → PriorityAggregation (PriorityContributor Queue Node)
  schedulerPriority : Thread → Nat
  nodePriority : Node → Nat
  owner : Queue → Option Thread
  freeChain : Queue → Nat
  queuePriority : Queue → PriorityAggregation Thread
  schedulerNode : Queue → Option Thread
  operations : Queue → ThreadQueueOperations
  updates : List Thread

namespace ThreadQueues

variable {Thread Queue Node : Type}

def initial (realPriority : Thread → Node) (nodePriority : Node → Nat)
    (operations : Queue → ThreadQueueOperations) : ThreadQueues Thread Queue Node where
  waitQueue := fun _ => none
  waitOperations := fun _ => .default
  waitPriority := fun thread =>
    ⟨nodePriority (realPriority thread), [.node (realPriority thread)]⟩
  schedulerPriority := fun thread => nodePriority (realPriority thread)
  nodePriority := nodePriority
  owner := fun _ => none
  freeChain := fun _ => 0
  queuePriority := fun _ => ⟨0, []⟩
  schedulerNode := fun _ => none
  operations := operations
  updates := []

def contribution (state : ThreadQueues Thread Queue Node) :
    PriorityContributor Queue Node → Nat
  | .node node => state.nodePriority node
  | .queue queue => (state.queuePriority queue).priority

def priority (state : ThreadQueues Thread Queue Node) (thread : Thread) : Nat :=
  (state.waitPriority thread).priority

section Fields

variable [DecidableEq Thread] [DecidableEq Queue] (state : ThreadQueues Thread Queue Node)
  (thread : Thread)

def setWaitPriority (aggregation : PriorityAggregation (PriorityContributor Queue Node)) :
    ThreadQueues Thread Queue Node :=
  { state with waitPriority := update state.waitPriority thread aggregation }

variable (queue : Queue)

def setQueuePriority (aggregation : PriorityAggregation Thread) : ThreadQueues Thread Queue Node :=
  { state with queuePriority := update state.queuePriority queue aggregation }

def setOwner (owner : Option Thread) : ThreadQueues Thread Queue Node :=
  { state with owner := update state.owner queue owner }

def setFreeChain (freeChain : Nat) : ThreadQueues Thread Queue Node :=
  { state with freeChain := update state.freeChain queue freeChain }

def setSchedulerNode (owner : Thread) : ThreadQueues Thread Queue Node :=
  { state with schedulerNode := update state.schedulerNode queue (some owner) }

def threadWaitClaim : ThreadQueues Thread Queue Node :=
  { state with waitQueue := update state.waitQueue thread (some queue) }

def threadWaitClaimFinalize (operations : ThreadQueueOperations) : ThreadQueues Thread Queue Node :=
  { state with waitOperations := update state.waitOperations thread operations }

def threadWaitRestoreDefault : ThreadQueues Thread Queue Node :=
  { state with
    waitQueue := update state.waitQueue thread none
    waitOperations := update state.waitOperations thread .default }

def clearPriorityUpdates : ThreadQueues Thread Queue Node :=
  { state with updates := [] }

def restorePriorityUpdates (updateCount : Nat) : ThreadQueues Thread Queue Node :=
  { state with updates := state.updates.take updateCount }

def addPriorityUpdate : ThreadQueues Thread Queue Node :=
  { state with updates := state.updates ++ [thread] }

def setSchedulerNodePriority (groupOrder : PriorityGroupOrder) : ThreadQueues Thread Queue Node :=
  { state with
    schedulerPriority :=
      update state.schedulerPriority thread (state.priority thread ||| groupOrder.value) }

end Fields

section Operations

variable [DecidableEq Thread] [DecidableEq Queue] [DecidableEq Node]
  (state : ThreadQueues Thread Queue Node)

/-- The `priority_actions` operation; there is no queue to read with the default
operations. The result is the action for the owner of the queue. -/
def priorityActions (operations : ThreadQueueOperations)
    (queue : Option Queue) (aggregation : Thread) :
    Option (ThreadQueues Thread Queue Node × Option (PriorityAction Thread Queue Node)) :=
  match operations with
  | .default | .fifo => some (state, none)
  | .priority =>
    queue.map fun queue =>
      (state.setQueuePriority queue
        ((state.queuePriority queue).plainChanged state.priority aggregation), none)
  | .priorityInherit =>
    queue.bind fun queue =>
      (state.owner queue).map fun owner =>
        let changed := (state.queuePriority queue).changed state.priority aggregation .last
        (state.setQueuePriority queue changed.1,
          changed.2.map fun _ => ⟨owner, .queue queue, .change⟩)

def actOn (action : PriorityAction Thread Queue Node) (groupOrder : PriorityGroupOrder) :
    Option (PriorityAggregation (PriorityContributor Queue Node) × Option PriorityGroupOrder) :=
  let aggregation := state.waitPriority action.aggregation
  match action.type with
  | .add => some (aggregation.nonEmptyInsert state.contribution action.node)
  | .remove => aggregation.extractNonEmpty state.contribution action.node
  | .change => some (aggregation.changed state.contribution action.node groupOrder)

def doPerformActions (thread : Thread)
    (queue : Option Queue) (operations : ThreadQueueOperations) (groupOrder : PriorityGroupOrder)
    (action : PriorityAction Thread Queue Node) :
    Option (ThreadQueues Thread Queue Node × Option (PriorityAction Thread Queue Node)) :=
  match state.actOn action groupOrder with
  | none => none
  | some (aggregation, none) => some (state.setWaitPriority action.aggregation aggregation, none)
  | some (aggregation, some order) =>
    (((state.setWaitPriority action.aggregation aggregation).setSchedulerNodePriority
      action.aggregation order).addPriorityUpdate thread).priorityActions operations queue
        action.aggregation

def performActions (updateCount : Nat) :
    Nat → ThreadQueues Thread Queue Node → Thread → PriorityAction Thread Queue Node →
      Option (ThreadQueues Thread Queue Node)
  | 0, _, _, _ => none
  | fuel + 1, state, thread, action =>
    match state.doPerformActions thread (state.waitQueue thread) (state.waitOperations thread)
        .last action with
    | none => none
    | some (performed, none) => some performed
    | some (performed, some next) =>
      match (state.waitQueue thread).bind performed.owner with
      | none => none
      | some owner =>
        performActions updateCount fuel (performed.restorePriorityUpdates updateCount) owner
          next

variable (fuel : Nat)

def threadPriorityPerformActions (state : ThreadQueues Thread Queue Node)
    (startOfPath : Thread) (action : PriorityAction Thread Queue Node) :
    Option (ThreadQueues Thread Queue Node) :=
  performActions state.updates.length fuel state startOfPath action

def threadPriorityApply (state : ThreadQueues Thread Queue Node) (thread : Thread)
    (node : PriorityContributor Queue Node) (groupOrder : PriorityGroupOrder)
    (type : PriorityActionType) : Option (ThreadQueues Thread Queue Node) :=
  match state.doPerformActions thread (state.waitQueue thread) (state.waitOperations thread)
      groupOrder ⟨thread, node, type⟩ with
  | none => none
  | some (performed, none) => some performed
  | some (performed, some next) =>
    match (state.waitQueue thread).bind performed.owner with
    | none => none
    | some owner => performed.threadPriorityPerformActions fuel owner next

def threadPriorityAdd (state : ThreadQueues Thread Queue Node) (thread : Thread)
    (node : Node) (priority : Nat) : Option (ThreadQueues Thread Queue Node) :=
  let prepared := { state with nodePriority := update state.nodePriority node priority }
  prepared.threadPriorityApply fuel thread (.node node) .last .add

def threadPriorityRemove (state : ThreadQueues Thread Queue Node) (thread : Thread)
    (node : Node) : Option (ThreadQueues Thread Queue Node) :=
  state.threadPriorityApply fuel thread (.node node) .first .remove

def threadPriorityChange (state : ThreadQueues Thread Queue Node) (thread : Thread)
    (node : Node) (newPriority : Nat) (groupOrder : PriorityGroupOrder) :
    Option (ThreadQueues Thread Queue Node) :=
  let changed := { state with nodePriority := update state.nodePriority node newPriority }
  if .node node ∈ (state.waitPriority thread).contributors then
    changed.threadPriorityApply fuel thread (.node node) groupOrder .change
  else some changed

def pathAcquire (state : ThreadQueues Thread Queue Node) (thread : Thread) :
    Nat → Queue → Option ThreadQueueDeadlockStatus
  | 0, _ => none
  | fuel + 1, queue =>
    match state.owner queue with
    | none => some .noDeadlock
    | some owner =>
      if owner = thread then some .deadlockDetected
      else
        match state.waitQueue owner with
        | none => some .noDeadlock
        | some next => state.pathAcquire thread fuel next

def doInitialize (state : ThreadQueues Thread Queue Node) (queue : Queue)
    (thread : Thread) : Option (ThreadQueues Thread Queue Node) :=
  match state.operations queue with
  | .default => none
  | .fifo =>
    some (state.setQueuePriority queue
      { state.queuePriority queue with contributors := [thread] })
  | .priority => some (state.setQueuePriority queue (.initializeOne state.priority thread))
  | .priorityInherit =>
    (state.owner queue).bind fun owner =>
      ((state.setSchedulerNode queue owner).setQueuePriority queue
        (.initializeOne state.priority thread)).threadPriorityPerformActions fuel owner
          ⟨owner, .queue queue, .add⟩

def doEnqueue (state : ThreadQueues Thread Queue Node) (queue : Queue)
    (thread : Thread) : Option (ThreadQueues Thread Queue Node) :=
  let aggregation := state.queuePriority queue
  match state.operations queue with
  | .default => none
  | .fifo =>
    some (state.setQueuePriority queue
      { aggregation with contributors := aggregation.contributors ++ [thread] })
  | .priority =>
    some (state.setQueuePriority queue (aggregation.plainInsert state.priority thread).1)
  | .priorityInherit =>
    match aggregation.nonEmptyInsert state.priority thread with
    | (inserted, none) => some (state.setQueuePriority queue inserted)
    | (inserted, some _) =>
      (state.owner queue).bind fun owner =>
        (state.setQueuePriority queue inserted).threadPriorityPerformActions fuel owner
          ⟨owner, .queue queue, .change⟩

def queueEnqueue (state : ThreadQueues Thread Queue Node) (queue : Queue)
    (thread : Thread) : Option (ThreadQueues Thread Queue Node) :=
  let prepended := state.setFreeChain queue (state.freeChain queue + 1)
  if state.freeChain queue = 0 then prepended.doInitialize fuel queue thread
  else prepended.doEnqueue fuel queue thread

def doExtract (state : ThreadQueues Thread Queue Node)
    (operations : ThreadQueueOperations) (queue : Queue) (thread : Thread) :
    Option (ThreadQueues Thread Queue Node) :=
  let aggregation := state.queuePriority queue
  let act := fun extracted type =>
    (state.owner queue).bind fun owner =>
      (state.setQueuePriority queue extracted).threadPriorityPerformActions fuel owner
        ⟨owner, .queue queue, type⟩
  match operations with
  | .default => none
  | .fifo | .priority => some (state.setQueuePriority queue (aggregation.plainExtract thread))
  | .priorityInherit =>
    match aggregation.extract state.priority thread with
    | (extracted, .nothing) => some (state.setQueuePriority queue extracted)
    | (extracted, .remove) => act extracted .remove
    | (extracted, .change _) => act extracted .change

def queueExtract (state : ThreadQueues Thread Queue Node)
    (operations : ThreadQueueOperations) (queue : Queue) (thread : Thread) :
    Option (ThreadQueues Thread Queue Node) :=
  (state.setFreeChain queue (state.freeChain queue - 1)).doExtract fuel operations queue thread

def threadQueueEnqueue (state : ThreadQueues Thread Queue Node) (queue : Queue)
    (thread : Thread) : Option (ThreadQueues Thread Queue Node × ThreadQueueEnqueued) :=
  let claimed := state.threadWaitClaim thread queue
  match claimed.pathAcquire thread fuel queue with
  | none => none
  | some .deadlockDetected => some (claimed.threadWaitRestoreDefault thread, .deadlock)
  | some .noDeadlock =>
    ((claimed.clearPriorityUpdates.threadWaitClaimFinalize thread
      (state.operations queue)).queueEnqueue fuel queue thread).map fun after => (after, .blocked)

def threadWaitCancel (state : ThreadQueues Thread Queue Node) (thread : Thread) :
    Option (ThreadQueues Thread Queue Node) :=
  match state.waitQueue thread with
  | none => some state
  | some queue =>
    (state.clearPriorityUpdates.queueExtract fuel (state.waitOperations thread) queue thread).map
      fun after => after.threadWaitRestoreDefault thread

def surrenderChange (aggregation updated : Thread) :
    Option PriorityGroupOrder → ThreadQueues Thread Queue Node
  | none => state
  | some groupOrder =>
    (state.addPriorityUpdate updated).setSchedulerNodePriority aggregation groupOrder

def priorityInheritDoSurrender (queue : Queue)
    (previousOwner thread : Thread) : Option (ThreadQueues Thread Queue Node) :=
  (state.schedulerNode queue).bind fun nodeOfOwner =>
    ((state.waitPriority nodeOfOwner).extractNonEmpty state.contribution (.queue queue)).map
      fun released =>
        let dropped := (state.setWaitPriority nodeOfOwner released.1).surrenderChange nodeOfOwner
          previousOwner released.2
        let remaining := ((dropped.queuePriority queue).extract dropped.priority thread).1
        let extracted := dropped.setQueuePriority queue remaining
        if remaining.isEmpty then extracted
        else
          let inherited := (extracted.waitPriority thread).nonEmptyInsert extracted.contribution
            (.queue queue)
          ((extracted.setSchedulerNode queue thread).setWaitPriority thread
            inherited.1).surrenderChange thread thread inherited.2

def queueSurrender (queue : Queue)
    (previousOwner : Thread) : Option (ThreadQueues Thread Queue Node × Thread) :=
  (state.queuePriority queue).getMinimumNode.bind fun first =>
    let taken := state.setFreeChain queue (state.freeChain queue - 1)
    match state.operations queue with
    | .default => none
    | .fifo | .priority =>
      some (taken.setQueuePriority queue ((taken.queuePriority queue).plainExtract first), first)
    | .priorityInherit =>
      (taken.priorityInheritDoSurrender queue previousOwner first).map fun after => (after, first)

def threadQueueSurrender (queue : Queue)
    (previousOwner : Thread) : Option (ThreadQueues Thread Queue Node) :=
  (state.clearPriorityUpdates.queueSurrender queue previousOwner).map fun (after, newOwner) =>
    (after.setOwner queue (some newOwner)).threadWaitRestoreDefault newOwner

def coreMutexSurrender (queue : Queue)
    (executing : Thread) : Option (ThreadQueues Thread Queue Node) :=
  if state.owner queue ≠ some executing then some state
  else
    let released := state.setOwner queue none
    if state.freeChain queue = 0 then some released
    else released.threadQueueSurrender queue executing

end Operations

end ThreadQueues

/-- The operations on the threads and queues; `seize` is the one of a queue without an
owner, and `extract` a timeout. -/
inductive ThreadQueuesCall (Thread Queue Node : Type) where
  | seize (thread : Thread) (queue : Queue)
  | enqueue (thread : Thread) (queue : Queue)
  | extract (thread : Thread)
  | surrender (executing : Thread) (queue : Queue)
  | priorityAdd (thread : Thread) (node : Node) (priority : Nat)
  | priorityRemove (thread : Thread) (node : Node)
  | priorityChange (thread : Thread) (node : Node) (newPriority : Nat)
      (groupOrder : PriorityGroupOrder)
  deriving DecidableEq

variable {Thread Queue Node : Type} [DecidableEq Thread] [DecidableEq Queue] [DecidableEq Node]

def ThreadQueuesCall.perform (fuel : Nat) (state : ThreadQueues Thread Queue Node) :
    ThreadQueuesCall Thread Queue Node → Option (ThreadQueues Thread Queue Node)
  | .seize thread queue => some (state.setOwner queue (some thread))
  | .enqueue thread queue => (state.threadQueueEnqueue fuel queue thread).map (·.1)
  | .extract thread => state.threadWaitCancel fuel thread
  | .surrender executing queue => state.coreMutexSurrender queue executing
  | .priorityAdd thread node priority => state.threadPriorityAdd fuel thread node priority
  | .priorityRemove thread node => state.threadPriorityRemove fuel thread node
  | .priorityChange thread node newPriority groupOrder =>
    state.threadPriorityChange fuel thread node newPriority groupOrder

def threadQueuesStep (fuel : Nat) (state : Option (ThreadQueues Thread Queue Node))
    (call : ThreadQueuesCall Thread Queue Node) : Option (ThreadQueues Thread Queue Node) :=
  state.bind (call.perform fuel)

end RTContainer.Score
