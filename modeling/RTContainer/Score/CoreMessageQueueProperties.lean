import RTContainer.Score.CoreMessageQueue

/-! The buffers, the count and the threads that wait on a message queue agree in every run
whose flushes find no thread that waits to send. -/

set_option autoImplicit false

namespace RTContainer.Score

open Machine

variable {Thread : Type}

namespace CoreMessageQueue

/-- The number of pending messages is the length of the chain, every buffer is pending or
inactive, threads wait to receive only while no message is pending, and to send only while
no buffer is inactive. -/
structure Consistent (queue : CoreMessageQueue Thread) : Prop where
  counted : queue.numberOfPendingMessages.toNat = queue.pendingMessages.length
  complete : queue.pendingMessages.length + queue.inactiveMessages.length =
    queue.maximumPendingMessages.toNat
  receivers : ∀ waiter ∈ queue.waitQueue, waiter.wait.isSending = false → queue.pendingMessages = []
  senders : ∀ waiter ∈ queue.waitQueue, waiter.wait.isSending = true → queue.inactiveMessages = []

structure Usable (queue : CoreMessageQueue Thread) : Prop where
  consistent : queue.Consistent
  positive : 0 < queue.maximumPendingMessages.toNat

theorem initial_usable (operations : CoreMessageQueueDiscipline)
    {maximumPendingMessages : BitVec 32} (maximumMessageSize : Nat)
    (messageBuffers : Nat → CoreMessageQueueBuffer) (priority : Thread → Nat)
    (positive : maximumPendingMessages ≠ 0) :
    (initial operations maximumPendingMessages maximumMessageSize messageBuffers
      priority).Usable where
  consistent :=
    { counted := rfl
      complete := by simp [initial]
      receivers := by simp [initial]
      senders := by simp [initial] }
  positive := by
    have apart : maximumPendingMessages.toNat ≠ (0 : BitVec 32).toNat :=
      fun same => positive (BitVec.eq_of_toNat_eq same)
    exact Nat.pos_of_ne_zero apart

variable {waiter added : CoreMessageQueueWaiter Thread} {queue : CoreMessageQueue Thread}

theorem mem_enqueueWaiter (queue : CoreMessageQueue Thread)
    {waiters : List (CoreMessageQueueWaiter Thread)} :
    waiter ∈ queue.enqueueWaiter added waiters ↔ waiter = added ∨ waiter ∈ waiters := by
  unfold enqueueWaiter
  cases queue.operations with
  | fifo => simp [or_comm]
  | priority =>
    simp only [List.mem_append, List.mem_cons]
    rw [or_left_comm, ← List.mem_append, List.takeWhile_append_dropWhile]

theorem mem_threadQueueEnqueue :
    waiter ∈ (queue.threadQueueEnqueue added).waitQueue ↔
      waiter = added ∨ waiter ∈ queue.waitQueue :=
  queue.mem_enqueueWaiter

section

variable (consistent : queue.Consistent)
include consistent

theorem Consistent.ofWaiters {after : CoreMessageQueue Thread}
    (number : after.numberOfPendingMessages = queue.numberOfPendingMessages)
    (maximum : after.maximumPendingMessages = queue.maximumPendingMessages)
    (pending : after.pendingMessages = queue.pendingMessages)
    (inactive : after.inactiveMessages = queue.inactiveMessages)
    (waited : ∀ waiter ∈ after.waitQueue, waiter ∈ queue.waitQueue) : after.Consistent where
  counted := by rw [number, pending]; exact consistent.counted
  complete := by rw [maximum, pending, inactive]; exact consistent.complete
  receivers waiter inside := by
    rw [pending]
    exact consistent.receivers waiter (waited waiter inside)
  senders waiter inside := by rw [inactive]; exact consistent.senders waiter (waited waiter inside)

theorem Consistent.extract [DecidableEq Thread] (thread : Thread) :
    (queue.threadQueueExtract thread).Consistent :=
  consistent.ofWaiters rfl rfl rfl rfl fun _ inside => List.mem_of_mem_filter inside

theorem Consistent.setNotify (theHandler : Bool) : (queue.setNotify theHandler).Consistent :=
  consistent.ofWaiters rfl rfl rfl rfl fun _ inside => inside

theorem Consistent.enqueueSender (full : queue.inactiveMessages = []) (executing : Thread)
    (immutableObject : List UInt8) (option count : BitVec 32) :
    (queue.threadQueueEnqueue ⟨executing, .sending immutableObject option count⟩).Consistent where
  __ := consistent
  receivers waiter inside receives := by
    rcases mem_threadQueueEnqueue.mp inside with rfl | waited
    · cases receives
    · exact consistent.receivers waiter waited receives
  senders _ _ _ := full

theorem Consistent.enqueueReceiver (empty : queue.pendingMessages = []) (executing : Thread)
    (mutableObject : List UInt8) :
    (queue.threadQueueEnqueue ⟨executing, .receiving mutableObject⟩).Consistent where
  __ := consistent
  receivers _ _ _ := empty
  senders waiter inside sends := by
    rcases mem_threadQueueEnqueue.mp inside with rfl | waited
    · cases sends
    · exact consistent.senders waiter waited sends

theorem Consistent.priorityChanged [DecidableEq Thread] (thread : Thread) (priority : Nat) :
    (queue.priorityChanged thread priority).Consistent := by
  unfold CoreMessageQueue.priorityChanged
  cases queue.operations with
  | fifo => exact consistent.ofWaiters rfl rfl rfl rfl fun _ inside => inside
  | priority =>
    dsimp only
    split
    next => exact consistent.ofWaiters rfl rfl rfl rfl fun _ inside => inside
    next waiter found =>
      refine consistent.ofWaiters rfl rfl rfl rfl fun other inside => ?_
      rcases mem_threadQueueEnqueue.mp inside with rfl | waited
      · exact List.mem_of_find?_eq_some found
      · exact List.mem_of_mem_filter waited

theorem Consistent.numberOfPendingMessages_eq_zero :
    queue.numberOfPendingMessages = 0 ↔ queue.pendingMessages = [] := by
  rw [← List.length_eq_zero_iff, ← consistent.counted]
  exact ⟨fun zero => by simp [zero], fun zero => BitVec.eq_of_toNat_eq zero⟩

end

theorem Usable.not_empty (usable : queue.Usable) (empty : queue.pendingMessages = []) :
    queue.inactiveMessages ≠ [] := by
  intro full
  have complete := usable.consistent.complete
  rw [empty, full] at complete
  exact absurd complete (Nat.ne_of_lt usable.positive)

theorem Usable.receives (usable : queue.Usable) (empty : queue.pendingMessages = [])
    (inside : waiter ∈ queue.waitQueue) : waiter.wait.isSending = false := by
  cases sends : waiter.wait.isSending with
  | false => rfl
  | true => exact absurd (usable.consistent.senders waiter inside sends) (usable.not_empty empty)

theorem Consistent.no_waiters (consistent : queue.Consistent) (pending : queue.pendingMessages ≠ [])
    (inactive : queue.inactiveMessages ≠ []) : queue.waitQueue = [] := by
  refine List.eq_nil_iff_forall_not_mem.mpr fun waiter inside => ?_
  cases sends : waiter.wait.isSending with
  | false => exact pending (consistent.receivers waiter inside sends)
  | true => exact inactive (consistent.senders waiter inside sends)

@[simp] theorem length_insertOrdered (theMessage : CoreMessageQueueBuffer)
    (messages : List CoreMessageQueueBuffer) :
    (insertOrdered theMessage messages).length = messages.length + 1 := by
  unfold insertOrdered
  rw [List.length_append, List.length_cons, ← Nat.add_assoc, ← List.length_append,
    List.takeWhile_append_dropWhile]

section Insert

variable (queue : CoreMessageQueue Thread) (theMessage : CoreMessageQueueBuffer)
  (contentSource : List UInt8) (contentSize : Nat) (submitType : CoreMessageQueueSubmitType)

private theorem length_insertMessage :
    (queue.insertMessage theMessage contentSource contentSize
      submitType).pendingMessages.length = queue.pendingMessages.length + 1 := by
  unfold insertMessage
  dsimp only
  split
  · simp
  · split <;> simp

theorem insertMessage_consistent
    (counted : queue.numberOfPendingMessages.toNat = queue.pendingMessages.length)
    (complete : queue.pendingMessages.length + 1 + queue.inactiveMessages.length =
      queue.maximumPendingMessages.toNat)
    (senders : ∀ waiter ∈ queue.waitQueue,
      waiter.wait.isSending = true ∧ queue.inactiveMessages = []) :
    (queue.insertMessage theMessage contentSource contentSize submitType).Consistent where
  counted := by
    have bounded := queue.maximumPendingMessages.isLt
    have counts : (queue.numberOfPendingMessages + 1).toNat =
        queue.numberOfPendingMessages.toNat + 1 := by
      refine BitVec.toNat_add_of_lt ?_
      show queue.numberOfPendingMessages.toNat + 1 < _
      omega
    rw [length_insertMessage, ← counted]
    exact counts
  complete := by
    rw [length_insertMessage]
    exact complete
  receivers waiter inside receives := by
    rw [(senders waiter inside).1] at receives
    cases receives
  senders waiter inside _ := (senders waiter inside).2

end Insert

section DequeueReceiver

variable [DecidableEq Thread] {queue : CoreMessageQueue Thread} (buffer : List UInt8)
  (size : Nat) (submitType : CoreMessageQueueSubmitType)

theorem Usable.dequeueReceiver_cases (usable : queue.Usable) :
    (queue.dequeueReceiver buffer size submitType = some (queue, none) ∧
      (queue.pendingMessages ≠ [] ∨ queue.waitQueue = [])) ∨
    ∃ resumed waiter waiters, queue.waitQueue = waiter :: waiters ∧
      queue.dequeueReceiver buffer size submitType = some (resumed, some waiter.thread) ∧
      resumed.waitQueue = waiters ∧ resumed.Usable := by
  by_cases zero : queue.numberOfPendingMessages = 0
  · have empty := usable.consistent.numberOfPendingMessages_eq_zero.mp zero
    unfold dequeueReceiver
    rw [if_neg (not_not_intro zero)]
    rcases waits : queue.waitQueue with _ | ⟨⟨thread, wait⟩, waiters⟩
    · exact .inl ⟨rfl, .inr rfl⟩
    · have receives := usable.receives empty (waits ▸ List.mem_cons_self)
      cases wait with
      | sending immutableObject option count => cases receives
      | receiving mutableObject =>
        refine .inr ⟨_, _, _, rfl, rfl, rfl, ?_, ?_⟩
        · exact usable.consistent.ofWaiters rfl rfl rfl rfl
            fun waiter inside => waits ▸ List.mem_cons_of_mem _ inside
        · exact usable.positive
  · refine .inl ⟨if_pos zero, .inl fun empty => zero ?_⟩
    exact usable.consistent.numberOfPendingMessages_eq_zero.mpr empty

end DequeueReceiver

theorem Usable.submit [DecidableEq Thread] (usable : queue.Usable) (executing : Thread)
    (buffer : List UInt8) (size : Nat) (submitType : CoreMessageQueueSubmitType)
    (wait isrIsInProgress : Bool) :
    ∃ after status, queue.submit executing buffer size submitType wait isrIsInProgress =
      some (after, status) ∧ after.Usable := by
  unfold CoreMessageQueue.submit
  split
  · exact ⟨queue, _, rfl, usable⟩
  rcases usable.dequeueReceiver_cases buffer size submitType with
    ⟨nobody, occupied⟩ | ⟨resumed, waiter, waiters, _, resumes, _, usableAfter⟩
  · rw [nobody]
    dsimp only
    rcases free : queue.inactiveMessages with _ | ⟨theMessage, inactive⟩
    · dsimp only
      split
      · exact ⟨queue, _, rfl, usable⟩
      · split
        · exact ⟨queue, _, rfl, usable⟩
        · refine ⟨_, _, rfl, usable.consistent.enqueueSender free _ _ _ _, usable.positive⟩
    · have waits : queue.waitQueue = [] := by
        rcases occupied with pending | waits
        · exact usable.consistent.no_waiters pending (by simp [free])
        · exact waits
      have inserted := insertMessage_consistent { queue with inactiveMessages := inactive }
        theMessage buffer size submitType usable.consistent.counted
        (by have complete := usable.consistent.complete
            rw [free, List.length_cons] at complete
            dsimp only
            omega)
        (by simp [waits])
      dsimp only
      split
      · exact ⟨_, _, rfl, inserted.setNotify false, usable.positive⟩
      · exact ⟨_, _, rfl, inserted, usable.positive⟩
  · rw [resumes]
    exact ⟨resumed, _, rfl, usableAfter⟩

theorem Usable.seize [DecidableEq Thread] (usable : queue.Usable) (executing : Thread)
    (buffer : List UInt8) (wait : Bool) :
    ∃ after status, queue.seize executing buffer wait = some (after, status) ∧ after.Usable := by
  unfold CoreMessageQueue.seize
  rcases filled : queue.pendingMessages with _ | ⟨theMessage, pending⟩
  · dsimp only
    split
    · exact ⟨queue, _, rfl, usable⟩
    · exact ⟨_, _, rfl, usable.consistent.enqueueReceiver filled _ _, usable.positive⟩
  · have counted := usable.consistent.counted
    have complete := usable.consistent.complete
    rw [filled, List.length_cons] at counted complete
    have counts : (queue.numberOfPendingMessages - 1).toNat = pending.length := by
      have one : (1 : BitVec 32) ≤ queue.numberOfPendingMessages := by
        show 1 ≤ queue.numberOfPendingMessages.toNat
        omega
      rw [BitVec.toNat_sub_of_le one]
      show queue.numberOfPendingMessages.toNat - 1 = _
      omega
    dsimp only
    rcases waits : queue.waitQueue with _ | ⟨⟨thread, role⟩, waiters⟩
    · refine ⟨_, _, rfl, ⟨counts, ?_, by simp, by simp⟩, usable.positive⟩
      simp only [List.length_append, List.length_singleton]
      omega
    · have full := usable.consistent.senders
      have sends : ∀ waiter ∈ queue.waitQueue, waiter.wait.isSending = true := by
        intro waiter inside
        cases receives : waiter.wait.isSending with
        | true => rfl
        | false =>
          have empty := usable.consistent.receivers waiter inside receives
          rw [filled] at empty
          cases empty
      cases role with
      | receiving mutableObject =>
        have receives := sends _ (waits ▸ List.mem_cons_self)
        cases receives
      | sending immutableObject option count =>
        refine ⟨_, _, rfl, insertMessage_consistent _ _ _ _ _ counts ?_ ?_, usable.positive⟩
        · exact complete
        · intro waiter inside
          have waited : waiter ∈ queue.waitQueue := waits ▸ List.mem_cons_of_mem _ inside
          exact ⟨sends waiter waited, full waiter waited (sends waiter waited)⟩

theorem Usable.broadcastReceivers [DecidableEq Thread] (buffer : List UInt8) (size fuel : Nat) :
    ∀ {queue : CoreMessageQueue Thread}, queue.Usable → queue.waitQueue.length < fuel →
      ∀ numberBroadcasted, ∃ after count,
        CoreMessageQueue.broadcastReceivers buffer size fuel queue numberBroadcasted =
          some (after, count) ∧ after.Usable := by
  induction fuel with
  | zero => exact fun _ bound => absurd bound (Nat.not_lt_zero _)
  | succ fuel ih =>
    intro queue usable bound numberBroadcasted
    unfold CoreMessageQueue.broadcastReceivers
    rcases usable.dequeueReceiver_cases buffer size 0 with
      ⟨nobody, _⟩ | ⟨resumed, waiter, waiters, waits, resumes, remain, usableAfter⟩
    · rw [nobody]
      exact ⟨queue, numberBroadcasted, rfl, usable⟩
    · rw [resumes]
      refine ih usableAfter ?_ (numberBroadcasted + 1)
      rw [waits, List.length_cons] at bound
      rw [remain]
      omega

theorem Usable.broadcast [DecidableEq Thread] (usable : queue.Usable) (buffer : List UInt8)
    (size : Nat) :
    ∃ after status, queue.broadcast buffer size = some (after, status) ∧ after.Usable := by
  unfold CoreMessageQueue.broadcast
  split
  · exact ⟨queue, _, rfl, usable⟩
  · obtain ⟨after, count, ends, usableAfter⟩ :=
      Usable.broadcastReceivers buffer size _ usable (Nat.lt_succ_self _) 0
    rw [ends]
    exact ⟨after, _, rfl, usableAfter⟩

def HasNoSender (queue : CoreMessageQueue Thread) : Prop :=
  ∀ waiter ∈ queue.waitQueue, waiter.wait.isSending = false

instance (queue : CoreMessageQueue Thread) : Decidable queue.HasNoSender :=
  inferInstanceAs (Decidable (∀ waiter ∈ queue.waitQueue, waiter.wait.isSending = false))

theorem Usable.flush_iff (usable : queue.Usable) :
    queue.flush.1.Consistent ↔ queue.HasNoSender := by
  unfold CoreMessageQueue.flush
  have emptied := usable.consistent.numberOfPendingMessages_eq_zero
  by_cases zero : queue.numberOfPendingMessages = 0
  · simp only [zero, ne_eq, not_true_eq_false, if_false]
    exact ⟨fun _ _ inside => usable.receives (emptied.mp zero) inside, fun _ => usable.consistent⟩
  · simp only [ne_eq, zero, not_false_eq_true, if_true]
    constructor
    · intro consistent waiter inside
      cases sends : waiter.wait.isSending with
      | false => rfl
      | true =>
        have freed := consistent.senders waiter inside sends
        exact absurd (emptied.mpr (List.append_eq_nil_iff.mp freed).1) zero
    · intro receives
      refine ⟨rfl, ?_, fun _ _ _ => rfl, fun waiter inside sends => ?_⟩
      · simp only [List.length_nil, List.length_append, Nat.zero_add]
        exact usable.consistent.complete
      · rw [receives waiter inside] at sends
        cases sends

end CoreMessageQueue

section Runs

variable [DecidableEq Thread]

/-- What the comment in `_CORE_message_queue_Flush` assumes. -/
def CoreMessageQueueCall.Assumed (state : Option (CoreMessageQueue Thread))
    (call : CoreMessageQueueCall Thread) : Prop :=
  call = .flush → ∀ queue ∈ state, queue.HasNoSender

instance (state : Option (CoreMessageQueue Thread)) (call : CoreMessageQueueCall Thread) :
    Decidable (call.Assumed state) :=
  inferInstanceAs (Decidable (call = .flush → ∀ queue ∈ state, queue.HasNoSender))

theorem CoreMessageQueue.Usable.perform {queue : CoreMessageQueue Thread} (usable : queue.Usable)
    {call : CoreMessageQueueCall Thread} (assumed : call.Assumed (some queue)) :
    ∃ after, call.perform queue = some after ∧ after.Usable := by
  unfold CoreMessageQueueCall.perform
  cases call with
  | submit executing buffer size submitType wait isrIsInProgress =>
    obtain ⟨after, status, returns, usableAfter⟩ :=
      usable.submit executing buffer size submitType wait isrIsInProgress
    exact ⟨after, by simp only [returns, Option.map_some], usableAfter⟩
  | seize executing buffer wait =>
    obtain ⟨after, status, returns, usableAfter⟩ := usable.seize executing buffer wait
    exact ⟨after, by simp only [returns, Option.map_some], usableAfter⟩
  | broadcast buffer size =>
    obtain ⟨after, status, returns, usableAfter⟩ := usable.broadcast buffer size
    exact ⟨after, by simp only [returns, Option.map_some], usableAfter⟩
  | broadcastTurn buffer size =>
    rcases usable.dequeueReceiver_cases buffer size 0 with
      ⟨nobody, _⟩ | ⟨resumed, waiter, waiters, _, resumes, _, usableAfter⟩
    · exact ⟨queue, by simp only [nobody, Option.map_some], usable⟩
    · exact ⟨resumed, by simp only [resumes, Option.map_some], usableAfter⟩
  | flush =>
    refine ⟨queue.flush.1, rfl, usable.flush_iff.mpr (assumed rfl queue rfl), ?_⟩
    unfold CoreMessageQueue.flush
    dsimp only
    split <;> exact usable.positive
  | setNotify theHandler => exact ⟨_, rfl, usable.consistent.setNotify theHandler, usable.positive⟩
  | extract thread => exact ⟨_, rfl, usable.consistent.extract thread, usable.positive⟩
  | priorityChanged thread priority =>
    refine ⟨_, rfl, usable.consistent.priorityChanged thread priority, ?_⟩
    unfold CoreMessageQueue.priorityChanged
    cases queue.operations with
    | fifo => exact usable.positive
    | priority =>
      dsimp only
      split <;> exact usable.positive

/-- A message queue stays consistent throughout a run exactly when no flush of the run finds
a thread that waits to send. -/
theorem coreMessageQueueRun_consistent_iff (operations : CoreMessageQueueDiscipline)
    {maximumPendingMessages : BitVec 32} (maximumMessageSize : Nat)
    (messageBuffers : Nat → CoreMessageQueueBuffer) (priority : Thread → Nat)
    (positive : maximumPendingMessages ≠ 0) (calls : List (CoreMessageQueueCall Thread)) :
    let start := CoreMessageQueue.initial operations maximumPendingMessages maximumMessageSize
      messageBuffers priority
    Throughout coreMessageQueueStep (fun state => ∃ queue, state = some queue ∧ queue.Consistent)
      (some start) calls ↔
    Meets coreMessageQueueStep (fun state call => call.Assumed state) (some start) calls := by
  have usable := CoreMessageQueue.initial_usable operations maximumMessageSize messageBuffers
    priority positive
  refine @throughout_iff_meets _ _ _ _ _
    (fun state => ∃ queue, state = some queue ∧ queue.Usable) (fun _ _ => True) _ calls
    ⟨_, rfl, usable⟩ (meets_of_forall (fun _ _ => trivial) _ calls) ?_ ?_ ?_
  · rintro _ call ⟨queue, rfl, usable⟩ _ assumed
    exact usable.perform assumed
  · rintro _ ⟨queue, rfl, usable⟩
    exact ⟨queue, rfl, usable.consistent⟩
  · rintro _ call ⟨queue, rfl, usable⟩ _ missed ⟨after, performed, consistent⟩
    refine missed fun flushes other same => ?_
    cases flushes
    cases same
    cases performed
    exact usable.flush_iff.mp consistent

/-- A message fills the queue, a second thread waits to send, a third one receives the
message and the flush empties the chain. -/
theorem coreMessageQueueRun_full_consistent :
    Throughout coreMessageQueueStep (fun state => ∃ queue, state = some queue ∧ queue.Consistent)
      (some (CoreMessageQueue.initial .fifo 1 8 (fun _ => ⟨0, 0, []⟩) fun _ : Nat => 0))
      [.submit 1 [7] 1 coreMessageQueueSendRequest false false,
        .submit 2 [8, 9] 2 coreMessageQueueUrgentRequest true false, .seize 3 [] true, .flush] :=
  (coreMessageQueueRun_consistent_iff .fifo 8 (fun _ => ⟨0, 0, []⟩) (fun _ => 0) (by decide) _).mpr
    (by decide)

/-- The flush of a queue with a thread that waits to send leaves a buffer that is not in
use. -/
theorem coreMessageQueueFlush_inconsistent :
    ¬ Throughout coreMessageQueueStep
      (fun state => ∃ queue, state = some queue ∧ queue.Consistent)
      (some (CoreMessageQueue.initial .fifo 1 8 (fun _ => ⟨0, 0, []⟩) fun _ : Nat => 0))
      [.submit 1 [7] 1 coreMessageQueueSendRequest false false,
        .submit 2 [8, 9] 2 coreMessageQueueUrgentRequest true false, .flush] := by
  rintro ⟨_, _, _, queue, reached, consistent⟩
  cases reached
  have free := consistent.senders _ List.mem_cons_self rfl
  cases free

end Runs

end RTContainer.Score
