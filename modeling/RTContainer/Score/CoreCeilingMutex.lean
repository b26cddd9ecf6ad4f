import RTContainer.Score.ThreadQueue

/-! The ceiling mutexes of `coremuteximpl.h` on one processor. A mutex is its thread queue with the
nest level; its `Priority_ceiling` is a node of its own among the priority nodes. -/

set_option autoImplicit false

namespace RTContainer.Score

open Function

/-- A priority node: one of a thread, or the `Priority_ceiling` of a mutex. -/
inductive MutexPriorityNode (Own Queue : Type) where
  | own (node : Own)
  | ceiling (mutex : Queue)
  deriving DecidableEq

inductive CoreMutexStatus where
  | successful
  | mutexCeilingViolated
  | unavailable
  | deadlock
  | notOwner
  deriving DecidableEq

structure CeilingMutexes (Thread Queue Own : Type) where
  threads : ThreadQueues Thread Queue (MutexPriorityNode Own Queue)
  nestLevel : Queue → Nat

namespace CeilingMutexes

variable {Thread Queue Own : Type}

def initial (realPriority : Thread → Own) (nodePriority : MutexPriorityNode Own Queue → Nat)
    (operations : Queue → ThreadQueueOperations) : CeilingMutexes Thread Queue Own where
  threads := .initial (fun thread => .own (realPriority thread)) nodePriority operations
  nestLevel _ := 0

def coreCeilingMutexGetPriority (state : CeilingMutexes Thread Queue Own) (mutex : Queue) : Nat :=
  state.threads.nodePriority (.ceiling mutex)

variable [DecidableEq Thread] [DecidableEq Queue] [DecidableEq Own] (fuel : Nat)
  (state : CeilingMutexes Thread Queue Own)

def coreCeilingMutexSetPriority
    (mutex : Queue) (priorityCeiling : Nat) : Option (CeilingMutexes Thread Queue Own) :=
  match state.threads.owner mutex with
  | some owner =>
    (state.threads.clearPriorityUpdates.threadPriorityChange fuel owner (.ceiling mutex)
      priorityCeiling .last).map fun threads => { state with threads := threads }
  | none =>
    some { state with
      threads := { state.threads with
        nodePriority :=
          update state.threads.nodePriority (.ceiling mutex) priorityCeiling } }

def priorityAddCeiling
    (threads : ThreadQueues Thread Queue (MutexPriorityNode Own Queue)) (thread : Thread)
    (mutex : Queue) : Option (ThreadQueues Thread Queue (MutexPriorityNode Own Queue)) :=
  threads.threadPriorityAdd fuel thread (.ceiling mutex) (threads.nodePriority (.ceiling mutex))

def coreCeilingMutexSetOwner
    (mutex : Queue) (owner : Thread) : Option (CeilingMutexes Thread Queue Own × CoreMutexStatus) :=
  if state.threads.priority owner < state.coreCeilingMutexGetPriority mutex then
    some (state, .mutexCeilingViolated)
  else
    (priorityAddCeiling fuel (state.threads.setOwner mutex (some owner)) owner mutex).map
      fun threads => ({ state with threads := threads }, .successful)

/-- `_CORE_ceiling_mutex_Seize`; there is no status as long as the thread waits. -/
def coreCeilingMutexSeize (mutex : Queue)
    (executing : Thread) (wait : Bool) (nested : Nat → Nat × CoreMutexStatus) :
    Option (CeilingMutexes Thread Queue Own × Option CoreMutexStatus) :=
  match state.threads.owner mutex with
  | none =>
    (coreCeilingMutexSetOwner fuel
      { state with threads := state.threads.clearPriorityUpdates } mutex executing).map
        fun (after, status) => (after, some status)
  | some owner =>
    if owner = executing then
      let (nestLevel, status) := nested (state.nestLevel mutex)
      some ({ state with nestLevel := update state.nestLevel mutex nestLevel }, some status)
    else if wait then
      (state.threads.threadQueueEnqueue fuel mutex executing).map fun (threads, enqueued) =>
        ({ state with threads := threads },
          match enqueued with
          | .blocked => none
          | .deadlock => some .deadlock)
    else some (state, some .unavailable)

def threadQueueSurrenderPriorityCeiling
    (threads : ThreadQueues Thread Queue (MutexPriorityNode Own Queue)) (queue : Queue)
    (executing : Thread) : Option (ThreadQueues Thread Queue (MutexPriorityNode Own Queue)) :=
  (threads.clearPriorityUpdates.threadPriorityRemove fuel executing (.ceiling queue)).bind
    fun removed =>
      let released := removed.setOwner queue none
      if released.freeChain queue = 0 then some released
      else
        (released.queueSurrender queue executing).bind fun (surrendered, newOwner) =>
          let readied :=
            (surrendered.setOwner queue (some newOwner)).threadWaitRestoreDefault newOwner
          priorityAddCeiling fuel readied newOwner queue

def coreCeilingMutexSurrender (mutex : Queue) (executing : Thread) :
    Option (CeilingMutexes Thread Queue Own × CoreMutexStatus) :=
  if state.threads.owner mutex ≠ some executing then some (state, .notOwner)
  else if 0 < state.nestLevel mutex then
    some ({ state with
      nestLevel := update state.nestLevel mutex (state.nestLevel mutex - 1) },
      .successful)
  else
    (threadQueueSurrenderPriorityCeiling fuel state.threads mutex executing).map fun threads =>
      ({ state with threads := threads }, .successful)

end CeilingMutexes

/-- The operations on the ceiling mutexes, and all others on the threads and their queues. -/
inductive CeilingMutexCall (Thread Queue Own : Type) where
  | seize (mutex : Queue) (executing : Thread) (wait : Bool)
      (nested : Nat → Nat × CoreMutexStatus)
  | surrender (mutex : Queue) (executing : Thread)
  | setPriority (mutex : Queue) (priorityCeiling : Nat)
  | other (call : ThreadQueuesCall Thread Queue (MutexPriorityNode Own Queue))

variable {Thread Queue Own : Type} [DecidableEq Thread] [DecidableEq Queue] [DecidableEq Own]

def CeilingMutexCall.perform (fuel : Nat) (state : CeilingMutexes Thread Queue Own) :
    CeilingMutexCall Thread Queue Own →
      Option (CeilingMutexes Thread Queue Own × Option CoreMutexStatus)
  | .seize mutex executing wait nested =>
    state.coreCeilingMutexSeize fuel mutex executing wait nested
  | .surrender mutex executing =>
    (state.coreCeilingMutexSurrender fuel mutex executing).map fun (after, status) =>
      (after, some status)
  | .setPriority mutex priorityCeiling =>
    (state.coreCeilingMutexSetPriority fuel mutex priorityCeiling).map fun after => (after, none)
  | .other call =>
    (call.perform fuel state.threads).map fun threads =>
      ({ state with threads := threads }, none)

def ceilingMutexStep (fuel : Nat) (state : Option (CeilingMutexes Thread Queue Own))
    (call : CeilingMutexCall Thread Queue Own) : Option (CeilingMutexes Thread Queue Own) :=
  state.bind fun reached => (call.perform fuel reached).map Prod.fst

end RTContainer.Score
