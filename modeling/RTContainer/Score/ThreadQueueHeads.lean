import RTContainer.Score.PriorityAggregation

/-! The heads of the thread queues: a thread that blocks lends its spare heads to the queue, and
a thread that leaves takes the heads that were lent last. These are the operations of
`threadqops.c` for the FIFO and the priority queues on one processor, with the heads as
structures at addresses. A step that uses a `NULL` pointer or takes a node from an empty chain
has no result. -/

set_option autoImplicit false

namespace RTContainer.Score

open Function

/-- What the users of a queue pass as operations. -/
inductive ThreadQueueDiscipline where
  | fifo
  | priority
  deriving DecidableEq

/-- `Thread_queue_Heads`. `freeChain` has the heads whose `Free_node` is on `Free_chain`;
`waiting` is `Heads.Priority.Queue`, or with `Heads.Fifo` as its contributors. -/
structure ThreadQueueHeads (Thread : Type) where
  freeChain : List Nat
  waiting : PriorityAggregation Thread

/-- The queues with the heads in use, and the threads with their spare heads and the priority of
their home scheduler nodes. `since` is the history: when a thread last began to wait. -/
structure HeadedQueues (Thread Queue : Type) where
  heads : Queue → Option Nat
  structures : Nat → ThreadQueueHeads Thread
  spareHeads : Thread → Option Nat
  waitQueue : Thread → Option Queue
  priority : Thread → Nat
  discipline : Queue → ThreadQueueDiscipline
  clock : Nat
  since : Thread → Nat

namespace HeadedQueues

variable {Thread Queue : Type}

def doInitialize (discipline : ThreadQueueDiscipline) (priority : Thread → Nat) (thread : Thread)
    (waiting : PriorityAggregation Thread) : PriorityAggregation Thread :=
  match discipline with
  | .fifo => { waiting with contributors := [thread] }
  | .priority => .initializeOne priority thread

def doEnqueue (discipline : ThreadQueueDiscipline) (priority : Thread → Nat) (thread : Thread)
    (waiting : PriorityAggregation Thread) : PriorityAggregation Thread :=
  match discipline with
  | .fifo => { waiting with contributors := waiting.contributors ++ [thread] }
  | .priority => (waiting.plainInsert priority thread).1

def first (state : HeadedQueues Thread Queue) (heads : Nat) : Option Thread :=
  (state.structures heads).waiting.getMinimumNode

variable [DecidableEq Thread] [DecidableEq Queue] (state : HeadedQueues Thread Queue)
  (queue : Queue) (thread : Thread)

def queueEnqueue : Option (HeadedQueues Thread Queue) :=
  (state.spareHeads thread).map fun spareHeads =>
    let cleared := { state with spareHeads := update state.spareHeads thread none }
    match state.heads queue with
    | none =>
      let own := state.structures spareHeads
      { cleared with
        heads := update state.heads queue (some spareHeads)
        structures := update state.structures spareHeads
          { freeChain := spareHeads :: own.freeChain
            waiting := doInitialize (state.discipline queue) state.priority thread own.waiting } }
    | some heads =>
      let used := state.structures heads
      { cleared with
        structures := update state.structures heads
          { freeChain := spareHeads :: used.freeChain
            waiting := doEnqueue (state.discipline queue) state.priority thread used.waiting } }

def queueExtract (heads : Nat) (thread : Thread) : Option (HeadedQueues Thread Queue) :=
  let used := state.structures heads
  match used.freeChain with
  | [] => none
  | free :: rest =>
    some { state with
      spareHeads := update state.spareHeads thread (some free)
      heads := if rest = [] then update state.heads queue none else state.heads
      structures := update state.structures heads
        { freeChain := rest, waiting := used.waiting.plainExtract thread } }

/-- `_Thread_queue_Enqueue` of the executing thread on a queue without owner. -/
def threadQueueEnqueue : Option (HeadedQueues Thread Queue) :=
  ({ state with
    waitQueue := update state.waitQueue thread (some queue)
    clock := state.clock + 1
    since := update state.since thread state.clock } :
      HeadedQueues Thread Queue).queueEnqueue queue thread

def threadWaitRestoreDefault : HeadedQueues Thread Queue :=
  { state with waitQueue := update state.waitQueue thread none }

def threadQueueExtract : Option (HeadedQueues Thread Queue) := do
  let heads ← state.heads queue
  let extracted ← state.queueExtract queue heads thread
  return extracted.threadWaitRestoreDefault thread

def threadWaitCancel : Option (HeadedQueues Thread Queue) :=
  match state.waitQueue thread with
  | none => some state
  | some queue => state.threadQueueExtract queue thread

def threadQueueSurrender : Option (Thread × HeadedQueues Thread Queue) := do
  let heads ← state.heads queue
  let first ← state.first heads
  let extracted ← state.queueExtract queue heads first
  return (first, extracted.threadWaitRestoreDefault first)

/-- The loop of `_Thread_queue_Flush_critical`; the filter sees how many threads have been
flushed. It has no result if it takes more turns than `fuel`. -/
def flushLoop (filter : Nat → Thread → Bool) (queue : Queue) :
    Nat → Nat → HeadedQueues Thread Queue → Option (Nat × HeadedQueues Thread Queue)
  | 0, _, _ => none
  | fuel + 1, flushed, state =>
    match state.heads queue with
    | none => some (flushed, state)
    | some heads =>
      (state.first heads).bind fun first =>
        if filter flushed first then
          (state.threadQueueExtract queue first).bind (flushLoop filter queue fuel (flushed + 1))
        else some (flushed, state)

def waiters : List Thread :=
  match state.heads queue with
  | none => []
  | some heads => (state.structures heads).waiting.contributors

def flushCritical (filter : Nat → Thread → Bool) : Option (Nat × HeadedQueues Thread Queue) :=
  flushLoop filter queue ((state.waiters queue).length + 1) 0 state

end HeadedQueues

/-- The calls on the queues; a thread that does not wait may get another priority. -/
inductive HeadedCall (Thread Queue : Type) where
  | enqueue (queue : Queue) (thread : Thread)
  | cancel (thread : Thread)
  | surrender (queue : Queue)
  | flush (queue : Queue) (filter : Nat → Thread → Bool)
  | setPriority (thread : Thread) (priority : Nat)

namespace HeadedQueues

variable {Thread Queue : Type} [DecidableEq Thread] [DecidableEq Queue]

/-- Every thread has its own spare heads, whose chain is empty, and no queue is in use. -/
def initial (ownHeads : Thread → Nat) (waiting : Nat → PriorityAggregation Thread)
    (priority : Thread → Nat) (discipline : Queue → ThreadQueueDiscipline) :
    HeadedQueues Thread Queue where
  heads := fun _ => none
  structures := fun heads => ⟨[], waiting heads⟩
  spareHeads := fun thread => some (ownHeads thread)
  waitQueue := fun _ => none
  priority := priority
  discipline := discipline
  clock := 0
  since := fun _ => 0

def perform (state : HeadedQueues Thread Queue) :
    HeadedCall Thread Queue → Option (HeadedQueues Thread Queue)
  | .enqueue queue thread => state.threadQueueEnqueue queue thread
  | .cancel thread => state.threadWaitCancel thread
  | .surrender queue =>
    if (state.heads queue).isNone then some state
    else (state.threadQueueSurrender queue).map Prod.snd
  | .flush queue filter => (state.flushCritical queue filter).map Prod.snd
  | .setPriority thread priority =>
    some { state with priority := update state.priority thread priority }

/-- A run stops at a call that has no result. -/
def step (state : Option (HeadedQueues Thread Queue)) (call : HeadedCall Thread Queue) :
    Option (HeadedQueues Thread Queue) :=
  state.bind fun state => state.perform call

end HeadedQueues

end RTContainer.Score
