import RTContainer.Lib.UrgentLine
import RTContainer.Score.CoreMessageQueueProperties

/-! What an observer of a message queue writes down: the messages that are accepted, in the
order in which they are to be received, and what the threads receive. Nothing of it is in
the control block. -/

set_option autoImplicit false

namespace RTContainer.Score

open Machine UrgentLine

/-- A call of `_CORE_message_queue_Submit`, with its number among those of the run. -/
structure CoreMessageSubmission where
  number : Nat
  buffer : List UInt8
  size : Nat
  submitType : CoreMessageQueueSubmitType

structure CoreMessageDelivery (Thread : Type) where
  submission : CoreMessageSubmission
  thread : Thread
  received : Option CoreMessageQueueBuffer

/-- The threads that wait are in the order of the wait queue, those that wait to send with
their submissions. -/
structure CoreMessageJournal (Thread : Type) where
  submitted : Nat
  entered : Nat
  pending : List (Member CoreMessageSubmission Int)
  waiting : List (Thread × Option CoreMessageSubmission)
  delivered : List (CoreMessageDelivery Thread)

variable {Thread : Type}

namespace CoreMessageJournal

def empty : CoreMessageJournal Thread := ⟨0, 0, [], [], []⟩

variable (journal : CoreMessageJournal Thread)

def enter (submission : CoreMessageSubmission) : CoreMessageJournal Thread :=
  { journal with
    entered := journal.entered + 1
    pending := arrive coreMessageQueueUrgentRequest.toInt
      ⟨submission, submission.submitType.toInt, journal.entered⟩ journal.pending }

def deliver (submission : CoreMessageSubmission)
    (thread : Thread) (received : Option CoreMessageQueueBuffer) : CoreMessageJournal Thread :=
  { journal with delivered := ⟨submission, thread, received⟩ :: journal.delivered }

def wait (queue : CoreMessageQueue Thread) (thread : Thread)
    (submission : Option CoreMessageSubmission) : CoreMessageJournal Thread :=
  { journal with
    waiting := insertBehind
      (fun other => queue.operations = .fifo ∨ queue.priority other.1 ≤ queue.priority thread)
      (thread, submission) journal.waiting }

variable [DecidableEq Thread]

def record (queue : CoreMessageQueue Thread) (journal : CoreMessageJournal Thread) :
    CoreMessageQueueCall Thread → CoreMessageJournal Thread
  | .submit executing buffer size submitType wait isrIsInProgress =>
    let submission : CoreMessageSubmission := ⟨journal.submitted, buffer, size, submitType⟩
    let counted := { journal with submitted := journal.submitted + 1 }
    match queue.submit executing buffer size submitType wait isrIsInProgress with
    | some (after, .successful) =>
      match journal.waiting with
      | (thread, none) :: waiting =>
        { counted with waiting := waiting }.deliver submission thread (after.received thread)
      | _ => counted.enter submission
    | some (_, .blocked) => counted.wait queue executing (some submission)
    | _ => counted
  | .seize executing buffer wait =>
    match queue.seize executing buffer wait with
    | some (after, .successful) =>
      match journal.pending, journal.waiting with
      | member :: pending, (_, some submission) :: waiting =>
        ({ journal with pending := pending, waiting := waiting }.deliver member.content
          executing (after.received executing)).enter submission
      | member :: pending, _ =>
        { journal with pending := pending }.deliver member.content executing
          (after.received executing)
      | [], _ => journal
    | some (_, .blocked) => journal.wait queue executing none
    | _ => journal
  | _ => journal

end CoreMessageJournal

variable [DecidableEq Thread]

def coreMessageJournalStep (state : Option (CoreMessageQueue Thread × CoreMessageJournal Thread))
    (call : CoreMessageQueueCall Thread) :
    Option (CoreMessageQueue Thread × CoreMessageJournal Thread) :=
  state.bind fun (queue, journal) =>
    (call.perform queue).map fun after => (after, journal.record queue call)

structure CoreMessageSubmission.IsIn (submission : CoreMessageSubmission)
    (message : CoreMessageQueueBuffer) : Prop where
  size : message.size = submission.size
  priority : message.priority = submission.submitType
  bytes : submission.buffer.take submission.size <+: message.buffer

structure CoreMessageSubmission.IsPending (member : Member CoreMessageSubmission Int)
    (message : CoreMessageQueueBuffer) : Prop where
  key : member.priority = member.content.submitType.toInt
  isIn : member.content.IsIn message

namespace CoreMessageJournal

/-- The threads received what was submitted, no submission twice, and what is pending is on
the chain in the order of its delivery. In FIFO order of the threads the messages became
pending as they were submitted. -/
structure Exact (queue : CoreMessageQueue Thread) (journal : CoreMessageJournal Thread) :
    Prop where
  received : ∀ delivery ∈ journal.delivered,
    ∃ message ∈ delivery.received, delivery.submission.IsIn message
  once : (journal.delivered.map (·.submission.number)).Nodup
  pending : List.Forall₂ CoreMessageSubmission.IsPending journal.pending queue.pendingMessages
  ordered : journal.pending.Pairwise (Precedes coreMessageQueueUrgentRequest.toInt)
  submissionOrder : queue.operations = .fifo → ∀ first ∈ journal.pending,
    ∀ second ∈ journal.pending,
      first.arrival < second.arrival → first.content.number < second.content.number

end CoreMessageJournal

end RTContainer.Score
