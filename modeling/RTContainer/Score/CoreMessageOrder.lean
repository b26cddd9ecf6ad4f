import RTContainer.Score.CoreMessageJournal

/-! The messages of a queue are received once, as they were submitted and in the order of
their priorities, as long as no thread waits with a message whose size does not fit in
`Wait.option`. -/

set_option autoImplicit false

namespace RTContainer.Score

open Machine UrgentLine

variable {Thread : Type}

namespace CoreMessageSubmission

variable {submission : CoreMessageSubmission} {message : CoreMessageQueueBuffer}

theorem isIn_filled (submission : CoreMessageSubmission) (destination : List UInt8) :
    submission.IsIn ⟨submission.size, submission.submitType,
      coreMessageQueueCopyBuffer submission.buffer destination submission.size⟩ :=
  ⟨rfl, rfl, List.prefix_append _ _⟩

theorem IsIn.copied (isIn : submission.IsIn message) (destination : List UInt8) :
    submission.IsIn ⟨message.size, message.priority,
      coreMessageQueueCopyBuffer message.buffer destination message.size⟩ where
  __ := isIn
  bytes := by
    have whole : submission.buffer.take submission.size <+: message.buffer.take message.size := by
      rw [isIn.size]
      refine List.prefix_take_iff.mpr ⟨isIn.bytes, ?_⟩
      rw [List.length_take]
      exact Nat.min_le_left _ _
    exact whole.trans (List.prefix_append _ _)

/-- The order of the journal is the test of the insertion. -/
theorem IsPending.precedes_iff {member added : Member CoreMessageSubmission Int}
    (isPending : IsPending member message) (key : added.priority = added.content.submitType.toInt)
    (earlier : member.arrival < added.arrival) :
    Precedes coreMessageQueueUrgentRequest.toInt member added ↔
      (!added.content.submitType.slt message.priority &&
        added.content.submitType ≠ coreMessageQueueUrgentRequest) = true := by
  have least : coreMessageQueueUrgentRequest.toInt ≤ member.content.submitType.toInt := by
    have bound := member.content.submitType.le_toInt
    exact bound
  rw [precedes_of_arrival_lt earlier, isPending.key, key, isPending.isIn.priority,
    Bool.and_eq_true, Bool.not_eq_true', decide_eq_true_iff, Bool.eq_false_iff]
  simp only [ne_eq, BitVec.slt_iff_toInt_lt, ← BitVec.toInt_inj]
  omega

end CoreMessageSubmission

namespace CoreMessageQueue

/-- A message goes behind those that are as urgent, an urgent one before all. -/
theorem insertMessage_pendingMessages (queue : CoreMessageQueue Thread)
    (theMessage : CoreMessageQueueBuffer) (contentSource : List UInt8) (contentSize : Nat)
    (submitType : CoreMessageQueueSubmitType) :
    (queue.insertMessage theMessage contentSource contentSize submitType).pendingMessages =
      insertBehind (fun other => !submitType.slt other.priority &&
        submitType ≠ coreMessageQueueUrgentRequest)
        ⟨contentSize, submitType,
          coreMessageQueueCopyBuffer contentSource theMessage.buffer contentSize⟩
        queue.pendingMessages := by
  unfold insertMessage
  dsimp only
  split
  next isSend =>
    rw [insertBehind_of_forall]
    intro other _
    have bound := BitVec.toInt_lt (x := other.priority)
    have greatest : coreMessageQueueSendRequest.toInt = 2 ^ 31 - 1 := rfl
    have notLess : submitType.slt other.priority = false := by
      rw [Bool.eq_false_iff, ne_eq, BitVec.slt_iff_toInt_lt, isSend, greatest]
      omega
    rw [notLess, isSend]
    rfl
  next =>
    split
    next notUrgent =>
      have same : (fun other : CoreMessageQueueBuffer => !submitType.slt other.priority &&
          submitType ≠ coreMessageQueueUrgentRequest) =
            fun other => !submitType.slt other.priority := by
        funext other
        rw [decide_eq_true notUrgent, Bool.and_true]
      rw [same]
      rfl
    next isUrgent =>
      rw [insertBehind_of_forall_not]
      intro other _
      rw [decide_eq_false isUrgent, Bool.and_false]

end CoreMessageQueue

namespace CoreMessageJournal

open CoreMessageSubmission

variable {journal : CoreMessageJournal Thread} {queue : CoreMessageQueue Thread}
variable {submission : CoreMessageSubmission}

structure Ordered (journal : CoreMessageJournal Thread) : Prop where
  ordered : journal.pending.Pairwise (Precedes coreMessageQueueUrgentRequest.toInt)
  latest : ∀ member ∈ journal.pending, member.arrival < journal.entered

variable {member : Member CoreMessageSubmission Int}
variable {pending : List (Member CoreMessageSubmission Int)}

theorem Ordered.rest (ordered : journal.Ordered) (waits : journal.pending = member :: pending) :
    { journal with pending := pending }.Ordered where
  ordered := by
    have all := ordered.ordered
    rw [waits] at all
    exact all.of_cons
  latest other inside := ordered.latest other (waits ▸ List.mem_cons_of_mem _ inside)

theorem Ordered.enter (ordered : journal.Ordered) (submission : CoreMessageSubmission) :
    (journal.enter submission).Ordered where
  ordered := arrive_pairwise ordered.ordered ordered.latest
  latest member inside := by
    rcases mem_arrive.mp inside with rfl | inside
    · exact Nat.lt_succ_self _
    · exact Nat.lt_succ_of_lt (ordered.latest member inside)

theorem Ordered.enter_isPending (ordered : journal.Ordered)
    (pending : List.Forall₂ IsPending journal.pending queue.pendingMessages)
    (submission : CoreMessageSubmission) (theMessage : CoreMessageQueueBuffer) :
    List.Forall₂ IsPending (journal.enter submission).pending
      (queue.insertMessage theMessage submission.buffer submission.size
        submission.submitType).pendingMessages := by
  rw [CoreMessageQueue.insertMessage_pendingMessages]
  refine insertBehind_forall₂ pending ?_ ⟨rfl, submission.isIn_filled _⟩
  intro member inside message isPending
  rw [Bool.eq_iff_iff, decide_eq_true_iff]
  exact isPending.precedes_iff rfl (ordered.latest member inside)

def senders (journal : CoreMessageJournal Thread) : List CoreMessageSubmission :=
  journal.waiting.filterMap Prod.snd

def numbers (journal : CoreMessageJournal Thread) : List Nat :=
  journal.delivered.map (·.submission.number) ++
    (journal.pending.map (·.content.number) ++ journal.senders.map (·.number))

theorem senders_wait_some (journal : CoreMessageJournal Thread) (queue : CoreMessageQueue Thread)
    (thread : Thread) (submission : CoreMessageSubmission) :
    (journal.wait queue thread (some submission)).senders.Perm (submission :: journal.senders) := by
  have moved : (journal.wait queue thread (some submission)).waiting.Perm
      ((thread, some submission) :: journal.waiting) := insertBehind_perm
  exact moved.filterMap Prod.snd

theorem senders_wait_none (journal : CoreMessageJournal Thread) (queue : CoreMessageQueue Thread)
    (thread : Thread) : (journal.wait queue thread none).senders.Perm journal.senders := by
  have moved : (journal.wait queue thread none).waiting.Perm
      ((thread, none) :: journal.waiting) := insertBehind_perm
  exact moved.filterMap Prod.snd

theorem numbers_enter (journal : CoreMessageJournal Thread) (submission : CoreMessageSubmission) :
    (journal.enter submission).numbers.Perm (submission.number :: journal.numbers) := by
  have moved : (journal.enter submission).pending.Perm (_ :: journal.pending) := arrive_perm
  have mapped := moved.map (·.content.number)
  exact ((mapped.append_right _).append_left _).trans List.perm_middle

theorem numbers_wait_some (journal : CoreMessageJournal Thread) (queue : CoreMessageQueue Thread)
    (thread : Thread) (submission : CoreMessageSubmission) :
    (journal.wait queue thread (some submission)).numbers.Perm
      (submission.number :: journal.numbers) := by
  have mapped := (journal.senders_wait_some queue thread submission).map (·.number)
  have moved := (mapped.append_left (journal.pending.map (·.content.number))).trans List.perm_middle
  exact (moved.append_left _).trans List.perm_middle

theorem numbers_wait_none (journal : CoreMessageJournal Thread) (queue : CoreMessageQueue Thread)
    (thread : Thread) : (journal.wait queue thread none).numbers.Perm journal.numbers :=
  (((journal.senders_wait_none queue thread).map _).append_left _).append_left _

theorem numbers_pending {member : Member CoreMessageSubmission Int}
    {pending : List (Member CoreMessageSubmission Int)}
    (waits : journal.pending = member :: pending) :
    journal.numbers.Perm
      (member.content.number :: { journal with pending := pending }.numbers) := by
  unfold numbers
  rw [waits]
  exact List.perm_middle

theorem numbers_waiting {thread : Thread} {waiting : List (Thread × Option CoreMessageSubmission)}
    (waits : journal.waiting = (thread, some submission) :: waiting) :
    journal.numbers.Perm (submission.number :: { journal with waiting := waiting }.numbers) := by
  unfold numbers senders
  rw [waits, ← List.append_assoc, ← List.append_assoc]
  exact List.perm_middle

structure Numbered (journal : CoreMessageJournal Thread) : Prop where
  distinct : journal.numbers.Nodup
  fresh : ∀ number ∈ journal.numbers, number < journal.submitted

theorem Numbered.moved {after : CoreMessageJournal Thread} (numbered : journal.Numbered)
    (same : after.numbers.Perm journal.numbers) (later : journal.submitted ≤ after.submitted) :
    after.Numbered where
  distinct := same.nodup_iff.mpr numbered.distinct
  fresh number inside := (numbered.fresh number (same.mem_iff.mp inside)).trans_le later

theorem Numbered.added {after : CoreMessageJournal Thread} (numbered : journal.Numbered)
    (one : after.numbers.Perm (journal.submitted :: journal.numbers))
    (next : after.submitted = journal.submitted + 1) : after.Numbered where
  distinct := one.nodup_iff.mpr (List.nodup_cons.mpr
    ⟨fun inside => Nat.lt_irrefl _ (numbered.fresh _ inside), numbered.distinct⟩)
  fresh number inside := by
    rw [next]
    rcases List.mem_cons.mp (one.mem_iff.mp inside) with rfl | inside
    · exact Nat.lt_succ_self _
    · exact Nat.lt_succ_of_lt (numbered.fresh number inside)

structure InLine (journal : CoreMessageJournal Thread) : Prop where
  arrivals : ∀ first ∈ journal.pending, ∀ second ∈ journal.pending,
    first.arrival < second.arrival → first.content.number < second.content.number
  behind : ∀ member ∈ journal.pending, ∀ sender ∈ journal.senders,
    member.content.number < sender.number
  line : journal.senders.Pairwise fun first second => first.number < second.number

theorem InLine.rest (inLine : journal.InLine) (waits : journal.pending = member :: pending) :
    { journal with pending := pending }.InLine := by
  have kept : ∀ other ∈ pending, other ∈ journal.pending :=
    fun other inside => waits ▸ List.mem_cons_of_mem _ inside
  exact
    { arrivals := fun first inside second insideToo =>
        inLine.arrivals first (kept first inside) second (kept second insideToo)
      behind := fun other inside => inLine.behind other (kept other inside)
      line := inLine.line }

theorem InLine.enter (inLine : journal.InLine) (ordered : journal.Ordered)
    (last : ∀ member ∈ journal.pending, member.content.number < submission.number)
    (first : ∀ sender ∈ journal.senders, submission.number < sender.number) :
    (journal.enter submission).InLine where
  arrivals one inside other insideToo earlier := by
    rcases mem_arrive.mp inside with rfl | inside <;>
      rcases mem_arrive.mp insideToo with rfl | insideToo
    · exact absurd earlier (Nat.lt_irrefl _)
    · exact absurd earlier (Nat.lt_asymm (ordered.latest other insideToo))
    · exact last one inside
    · exact inLine.arrivals one inside other insideToo earlier
  behind member inside sender waits := by
    rcases mem_arrive.mp inside with rfl | inside
    · exact first sender waits
    · exact inLine.behind member inside sender waits
  line := inLine.line

theorem InLine.wait (inLine : journal.InLine) (numbered : journal.Numbered) (thread : Thread)
    (fifo : queue.operations = .fifo) (number : submission.number = journal.submitted) :
    (journal.wait queue thread (some submission)).InLine := by
  have last : (journal.wait queue thread (some submission)).senders =
      journal.senders ++ [submission] := by
    have behind : (journal.wait queue thread (some submission)).waiting =
        journal.waiting ++ [(thread, some submission)] :=
      insertBehind_of_forall fun other _ => decide_eq_true (.inl fifo)
    unfold senders
    rw [behind, List.filterMap_append]
    rfl
  constructor
  · exact inLine.arrivals
  · intro member inside sender waits
    rw [last] at waits
    rcases List.mem_append.mp waits with waits | waits
    · exact inLine.behind member inside sender waits
    · rw [List.mem_singleton.mp waits, number]
      refine numbered.fresh _ (List.mem_append_right _ (List.mem_append_left _ ?_))
      exact List.mem_map_of_mem inside
  · rw [last]
    refine List.pairwise_append.mpr ⟨inLine.line, List.pairwise_singleton _ _, ?_⟩
    intro sender waits other isLast
    rw [List.mem_singleton.mp isLast, number]
    refine numbered.fresh _ (List.mem_append_right _ (List.mem_append_right _ ?_))
    exact List.mem_map_of_mem waits

theorem InLine.waitNone (inLine : journal.InLine) (thread : Thread)
    (fifo : queue.operations = .fifo) : (journal.wait queue thread none).InLine := by
  have same : (journal.wait queue thread none).senders = journal.senders := by
    have behind : (journal.wait queue thread none).waiting = journal.waiting ++ [(thread, none)] :=
      insertBehind_of_forall fun other _ => decide_eq_true (.inl fifo)
    unfold senders
    rw [behind, List.filterMap_append]
    exact List.append_nil _
  exact
    { arrivals := inLine.arrivals
      behind := by rw [same]; exact inLine.behind
      line := by rw [same]; exact inLine.line }

end CoreMessageJournal

def CoreMessageSubmission.Waits :
    Thread × Option CoreMessageSubmission → CoreMessageQueueWaiter Thread → Prop
  | (thread, some submission), ⟨waiter, .sending immutableObject option count⟩ =>
    thread = waiter ∧ immutableObject = submission.buffer ∧ option.toNat = submission.size ∧
      count = submission.submitType
  | (thread, none), ⟨waiter, .receiving _⟩ => thread = waiter
  | _, _ => False

theorem CoreMessageSubmission.Waits.thread {waiting : Thread × Option CoreMessageSubmission}
    {waiter : CoreMessageQueueWaiter Thread} (waits : Waits waiting waiter) :
    waiting.1 = waiter.thread := by
  rcases waiting with ⟨thread, _ | submission⟩ <;> rcases waiter with ⟨waiter, wait⟩ <;>
    cases wait with
    | sending immutableObject option count => first | exact waits.1 | exact waits.elim
    | receiving mutableObject => first | exact waits.elim | exact waits

namespace CoreMessageQueue

variable {queue : CoreMessageQueue Thread}

theorem enqueueWaiter_eq (queue : CoreMessageQueue Thread) (waiter : CoreMessageQueueWaiter Thread)
    (waiters : List (CoreMessageQueueWaiter Thread)) :
    queue.enqueueWaiter waiter waiters =
      insertBehind (fun other => queue.operations = .fifo ∨
        queue.priority other.thread ≤ queue.priority waiter.thread) waiter waiters := by
  unfold enqueueWaiter
  cases operations : queue.operations with
  | fifo => exact (insertBehind_of_forall fun _ _ => decide_eq_true (.inl rfl)).symm
  | priority =>
    simp only [reduceCtorEq, false_or]
    rfl

theorem enqueue_waits {journal : CoreMessageJournal Thread}
    {waiting : Option CoreMessageSubmission} {waiter : CoreMessageQueueWaiter Thread}
    (agree : List.Forall₂ CoreMessageSubmission.Waits journal.waiting queue.waitQueue)
    (added : CoreMessageSubmission.Waits (waiter.thread, waiting) waiter) :
    List.Forall₂ CoreMessageSubmission.Waits (journal.wait queue waiter.thread waiting).waiting
      (queue.threadQueueEnqueue waiter).waitQueue := by
  unfold threadQueueEnqueue
  rw [enqueueWaiter_eq]
  refine insertBehind_forall₂ agree ?_ added
  intro first _ second waits
  rw [waits.thread]

end CoreMessageQueue

end RTContainer.Score
