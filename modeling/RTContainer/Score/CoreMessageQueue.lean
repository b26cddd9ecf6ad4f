import RTContainer.Lib.Run
import Mathlib.Data.BitVec

/-! The message queue of `coremsgimpl.h`, `coremsgsubmit.c`, `coremsginsert.c`,
`coremsgseize.c`, `coremsgbroadcast.c` and `coremsgflush.c` with
`RTEMS_SCORE_COREMSG_ENABLE_NOTIFICATION`, `RTEMS_SCORE_COREMSG_ENABLE_MESSAGE_PRIORITY`
and `RTEMS_SCORE_COREMSG_ENABLE_BLOCKING_SEND`. A chain is the list of its nodes, from
first to last. -/

set_option autoImplicit false

namespace RTContainer.Score

open Function

/-- `CORE_message_queue_Submit_types`, an `int`. -/
abbrev CoreMessageQueueSubmitType := BitVec 32

def coreMessageQueueSendRequest : CoreMessageQueueSubmitType := 0x7fffffff

def coreMessageQueueUrgentRequest : CoreMessageQueueSubmitType := 0x80000000

inductive CoreMessageQueueDiscipline where
  | fifo
  | priority
  deriving DecidableEq

/-- The members of `Status_Control` that the operations return; `blocked` stands for the
call of `_Thread_queue_Enqueue`. -/
inductive CoreMessageQueueStatus where
  | successful
  | messageInvalidSize
  | tooMany
  | waitInIsr
  | unsatisfied
  | blocked
  deriving DecidableEq

structure CoreMessageQueueBuffer where
  size : Nat
  priority : CoreMessageQueueSubmitType
  buffer : List UInt8
  deriving DecidableEq

def coreMessageQueueCopyBuffer (source destination : List UInt8) (size : Nat) : List UInt8 :=
  source.take size ++ destination.drop size

/-- `Wait.return_argument_second`, `Wait.option` and `Wait.count` of a thread that waits
to send, and `Wait.return_argument_second` of one that waits to receive. -/
inductive CoreMessageQueueWait where
  | sending (immutableObject : List UInt8) (option : BitVec 32) (count : BitVec 32)
  | receiving (mutableObject : List UInt8)
  deriving DecidableEq

def CoreMessageQueueWait.isSending : CoreMessageQueueWait → Bool
  | .sending _ _ _ => true
  | .receiving _ => false

structure CoreMessageQueueWaiter (Thread : Type) where
  thread : Thread
  wait : CoreMessageQueueWait
  deriving DecidableEq

/-- `CORE_message_queue_Control`, with the priorities of the threads and what each of them
received last. -/
structure CoreMessageQueue (Thread : Type) where
  waitQueue : List (CoreMessageQueueWaiter Thread)
  operations : CoreMessageQueueDiscipline
  maximumPendingMessages : BitVec 32
  numberOfPendingMessages : BitVec 32
  maximumMessageSize : Nat
  pendingMessages : List CoreMessageQueueBuffer
  notifyHandler : Bool
  inactiveMessages : List CoreMessageQueueBuffer
  priority : Thread → Nat
  received : Thread → Option CoreMessageQueueBuffer

namespace CoreMessageQueue

variable {Thread : Type} [DecidableEq Thread]

def initial (operations : CoreMessageQueueDiscipline) (maximumPendingMessages : BitVec 32)
    (maximumMessageSize : Nat) (messageBuffers : Nat → CoreMessageQueueBuffer)
    (priority : Thread → Nat) : CoreMessageQueue Thread where
  waitQueue := []
  operations := operations
  maximumPendingMessages := maximumPendingMessages
  numberOfPendingMessages := 0
  maximumMessageSize := maximumMessageSize
  pendingMessages := []
  notifyHandler := false
  inactiveMessages := (List.range maximumPendingMessages.toNat).map messageBuffers
  priority := priority
  received := fun _ => none

variable (queue : CoreMessageQueue Thread)

def enqueueWaiter (waiter : CoreMessageQueueWaiter Thread)
    (waiters : List (CoreMessageQueueWaiter Thread)) : List (CoreMessageQueueWaiter Thread) :=
  match queue.operations with
  | .fifo => waiters ++ [waiter]
  | .priority =>
    let before := fun other : CoreMessageQueueWaiter Thread =>
      decide (queue.priority other.thread ≤ queue.priority waiter.thread)
    waiters.takeWhile before ++ waiter :: waiters.dropWhile before

def threadQueueEnqueue (waiter : CoreMessageQueueWaiter Thread) : CoreMessageQueue Thread :=
  { queue with waitQueue := queue.enqueueWaiter waiter queue.waitQueue }

def threadQueueExtract (thread : Thread) : CoreMessageQueue Thread :=
  { queue with waitQueue := queue.waitQueue.filter fun waiter => waiter.thread ≠ thread }

def setNotify (theHandler : Bool) : CoreMessageQueue Thread :=
  { queue with notifyHandler := theHandler }

/-- The change of the priority of a thread. In FIFO order a waiting thread keeps its
place. -/
def priorityChanged (thread : Thread) (priority : Nat) : CoreMessageQueue Thread :=
  let changed := { queue with priority := update queue.priority thread priority }
  match queue.operations with
  | .fifo => changed
  | .priority =>
    match queue.waitQueue.find? fun waiter => waiter.thread = thread with
    | none => changed
    | some waiter => (changed.threadQueueExtract thread).threadQueueEnqueue waiter

def insertOrdered (theMessage : CoreMessageQueueBuffer)
    (messages : List CoreMessageQueueBuffer) : List CoreMessageQueueBuffer :=
  let before := fun other : CoreMessageQueueBuffer => !theMessage.priority.slt other.priority
  messages.takeWhile before ++ theMessage :: messages.dropWhile before

def insertMessage (theMessage : CoreMessageQueueBuffer)
    (contentSource : List UInt8) (contentSize : Nat)
    (submitType : CoreMessageQueueSubmitType) : CoreMessageQueue Thread :=
  let filled : CoreMessageQueueBuffer :=
    ⟨contentSize, submitType,
      coreMessageQueueCopyBuffer contentSource theMessage.buffer contentSize⟩
  { queue with
    numberOfPendingMessages := queue.numberOfPendingMessages + 1
    pendingMessages :=
      if submitType = coreMessageQueueSendRequest then queue.pendingMessages ++ [filled]
      else if submitType ≠ coreMessageQueueUrgentRequest then
        insertOrdered filled queue.pendingMessages
      else filled :: queue.pendingMessages }

/-- `_CORE_message_queue_Dequeue_receiver` with the thread that it returns. The outer
`none` is a thread that waits to send: its `Wait` fields are not those of a receiver. -/
def dequeueReceiver (buffer : List UInt8) (size : Nat) (submitType : CoreMessageQueueSubmitType) :
    Option (CoreMessageQueue Thread × Option Thread) :=
  if queue.numberOfPendingMessages ≠ 0 then some (queue, none)
  else
    match queue.waitQueue with
    | [] => some (queue, none)
    | ⟨_, .sending _ _ _⟩ :: _ => none
    | ⟨thread, .receiving mutableObject⟩ :: waiters =>
      let message : CoreMessageQueueBuffer :=
        ⟨size, submitType, coreMessageQueueCopyBuffer buffer mutableObject size⟩
      some ({ queue with
        waitQueue := waiters
        received := update queue.received thread (some message) }, some thread)

/-- `_CORE_message_queue_Submit`; a notification handler resets itself. -/
def submit (executing : Thread) (buffer : List UInt8)
    (size : Nat) (submitType : CoreMessageQueueSubmitType) (wait isrIsInProgress : Bool) :
    Option (CoreMessageQueue Thread × CoreMessageQueueStatus) :=
  if size > queue.maximumMessageSize then some (queue, .messageInvalidSize)
  else
    match queue.dequeueReceiver buffer size submitType with
    | none => none
    | some (resumed, some _) => some (resumed, .successful)
    | some (_, none) =>
      match queue.inactiveMessages with
      | theMessage :: inactive =>
        let inserted := { queue with inactiveMessages := inactive }.insertMessage theMessage
          buffer size submitType
        if inserted.numberOfPendingMessages = 1 ∧ inserted.notifyHandler then
          some (inserted.setNotify false, .successful)
        else some (inserted, .successful)
      | [] =>
        if !wait then some (queue, .tooMany)
        else if isrIsInProgress then some (queue, .waitInIsr)
        else
          some (queue.threadQueueEnqueue
            ⟨executing, .sending buffer (BitVec.ofNat 32 size) submitType⟩, .blocked)

/-- `_CORE_message_queue_Seize`. The outer `none` is a thread that waits to receive: its
`Wait` fields are not those of a sender. -/
def seize (executing : Thread) (buffer : List UInt8)
    (wait : Bool) : Option (CoreMessageQueue Thread × CoreMessageQueueStatus) :=
  match queue.pendingMessages with
  | theMessage :: pending =>
    let message : CoreMessageQueueBuffer :=
      ⟨theMessage.size, theMessage.priority,
        coreMessageQueueCopyBuffer theMessage.buffer buffer theMessage.size⟩
    let seized : CoreMessageQueue Thread :=
      { queue with
        pendingMessages := pending
        numberOfPendingMessages := queue.numberOfPendingMessages - 1
        received := update queue.received executing (some message) }
    match queue.waitQueue with
    | [] =>
      some ({ seized with inactiveMessages := seized.inactiveMessages ++ [theMessage] },
        .successful)
    | ⟨_, .sending immutableObject option count⟩ :: waiters =>
      some ({ seized with waitQueue := waiters }.insertMessage theMessage immutableObject
        option.toNat count, .successful)
    | ⟨_, .receiving _⟩ :: _ => none
  | [] =>
    if !wait then some (queue, .unsatisfied)
    else some (queue.threadQueueEnqueue ⟨executing, .receiving buffer⟩, .blocked)

def broadcastReceivers (buffer : List UInt8) (size : Nat) :
    Nat → CoreMessageQueue Thread → Nat → Option (CoreMessageQueue Thread × Nat)
  | 0, _, _ => none
  | fuel + 1, queue, numberBroadcasted =>
    match queue.dequeueReceiver buffer size 0 with
    | none => none
    | some (queue, none) => some (queue, numberBroadcasted)
    | some (resumed, some _) =>
      broadcastReceivers buffer size fuel resumed (numberBroadcasted + 1)

/-- `_CORE_message_queue_Broadcast`. Every turn of the loop resumes a thread. -/
def broadcast (buffer : List UInt8) (size : Nat) :
    Option (CoreMessageQueue Thread × CoreMessageQueueStatus × Nat) :=
  if size > queue.maximumMessageSize then some (queue, .messageInvalidSize, 0)
  else
    (broadcastReceivers buffer size (queue.waitQueue.length + 1) queue 0).map
      fun (after, count) => (after, .successful, count)

def flush : CoreMessageQueue Thread × BitVec 32 :=
  let count := queue.numberOfPendingMessages
  if count ≠ 0 then
    ({ queue with
      numberOfPendingMessages := 0
      inactiveMessages := queue.pendingMessages ++ queue.inactiveMessages
      pendingMessages := [] }, count)
  else (queue, count)

end CoreMessageQueue

/-- The operations under the lock of the queue. `broadcastTurn` is one turn of the loop of
a broadcast, between whose turns other threads have the lock. -/
inductive CoreMessageQueueCall (Thread : Type) where
  | submit (executing : Thread) (buffer : List UInt8) (size : Nat)
      (submitType : CoreMessageQueueSubmitType) (wait isrIsInProgress : Bool)
  | seize (executing : Thread) (buffer : List UInt8) (wait : Bool)
  | broadcast (buffer : List UInt8) (size : Nat)
  | broadcastTurn (buffer : List UInt8) (size : Nat)
  | flush
  | setNotify (theHandler : Bool)
  | extract (thread : Thread)
  | priorityChanged (thread : Thread) (priority : Nat)
  deriving DecidableEq

variable {Thread : Type} [DecidableEq Thread]

def CoreMessageQueueCall.perform (queue : CoreMessageQueue Thread) :
    CoreMessageQueueCall Thread → Option (CoreMessageQueue Thread)
  | .submit executing buffer size submitType wait isrIsInProgress =>
    (queue.submit executing buffer size submitType wait isrIsInProgress).map (·.1)
  | .seize executing buffer wait => (queue.seize executing buffer wait).map (·.1)
  | .broadcast buffer size => (queue.broadcast buffer size).map (·.1)
  | .broadcastTurn buffer size => (queue.dequeueReceiver buffer size 0).map (·.1)
  | .flush => some queue.flush.1
  | .setNotify theHandler => some (queue.setNotify theHandler)
  | .extract thread => some (queue.threadQueueExtract thread)
  | .priorityChanged thread priority => some (queue.priorityChanged thread priority)

def coreMessageQueueStep (queue : Option (CoreMessageQueue Thread))
    (call : CoreMessageQueueCall Thread) : Option (CoreMessageQueue Thread) :=
  queue.bind call.perform

end RTContainer.Score
