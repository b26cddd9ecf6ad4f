import RTContainer.Score.CoreMessageOrder

/-! Runs of sends and receives on a message queue: every message comes through the hands of a
waiting thread, the chain or a waiting sender to the thread that receives it. -/

set_option autoImplicit false

namespace RTContainer.Score

open Machine UrgentLine CoreMessageSubmission Function

variable {Thread : Type} [DecidableEq Thread]

namespace CoreMessageQueue

variable {queue : CoreMessageQueue Thread}

theorem Usable.submit_cases (usable : queue.Usable) (executing : Thread) (buffer : List UInt8)
    (size : Nat) (submitType : CoreMessageQueueSubmitType) (wait isrIsInProgress : Bool) :
    (∃ status, status ≠ .successful ∧ status ≠ .blocked ∧
      queue.submit executing buffer size submitType wait isrIsInProgress =
        some (queue, status)) ∨
    (∃ thread mutableObject waiters,
      queue.waitQueue = ⟨thread, .receiving mutableObject⟩ :: waiters ∧
      queue.submit executing buffer size submitType wait isrIsInProgress =
        some ({ queue with
          waitQueue := waiters
          received := update queue.received thread (some ⟨size, submitType,
            coreMessageQueueCopyBuffer buffer mutableObject size⟩) }, .successful)) ∨
    (∃ theMessage after, queue.waitQueue = [] ∧
      queue.submit executing buffer size submitType wait isrIsInProgress =
        some (after, .successful) ∧
      after.pendingMessages =
        (queue.insertMessage theMessage buffer size submitType).pendingMessages ∧
      after.waitQueue = [] ∧ after.operations = queue.operations) ∨
    (wait = true ∧ isrIsInProgress = false ∧ size ≤ queue.maximumMessageSize ∧
      queue.inactiveMessages = [] ∧
      queue.submit executing buffer size submitType wait isrIsInProgress =
        some (queue.threadQueueEnqueue
          ⟨executing, .sending buffer (BitVec.ofNat 32 size) submitType⟩, .blocked)) := by
  unfold CoreMessageQueue.submit
  by_cases large : size > queue.maximumMessageSize
  · exact .inl ⟨.messageInvalidSize, nofun, nofun, if_pos large⟩
  rw [if_neg large]
  have emptied := usable.consistent.numberOfPendingMessages_eq_zero
  by_cases receiver : queue.numberOfPendingMessages = 0 ∧ queue.waitQueue ≠ []
  · obtain ⟨⟨thread, role⟩, waiters, waits⟩ := List.exists_cons_of_ne_nil receiver.2
    have receives := usable.receives (emptied.mp receiver.1) (waits ▸ List.mem_cons_self)
    cases role with
    | sending immutableObject option count => cases receives
    | receiving mutableObject =>
      refine .inr (.inl ⟨thread, mutableObject, waiters, waits, ?_⟩)
      unfold dequeueReceiver
      rw [if_neg (not_not_intro receiver.1), waits]
  · have nobody : queue.dequeueReceiver buffer size submitType = some (queue, none) := by
      unfold dequeueReceiver
      by_cases zero : queue.numberOfPendingMessages = 0
      · have waits : queue.waitQueue = [] := not_not.mp fun waits => receiver ⟨zero, waits⟩
        rw [if_neg (not_not_intro zero), waits]
      · exact if_pos zero
    rw [nobody]
    dsimp only
    rcases free : queue.inactiveMessages with _ | ⟨theMessage, inactive⟩
    · dsimp only
      cases wait with
      | false => exact .inl ⟨.tooMany, nofun, nofun, rfl⟩
      | true =>
        cases isrIsInProgress with
        | true => exact .inl ⟨.waitInIsr, nofun, nofun, rfl⟩
        | false => exact .inr (.inr (.inr ⟨rfl, rfl, Nat.le_of_not_lt large, rfl, rfl⟩))
    · have waits : queue.waitQueue = [] := by
        by_cases zero : queue.numberOfPendingMessages = 0
        · exact not_not.mp fun waits => receiver ⟨zero, waits⟩
        · exact usable.consistent.no_waiters (fun empty => zero (emptied.mpr empty))
            (by simp [free])
      refine .inr (.inr (.inl ⟨theMessage, ?_⟩))
      dsimp only
      split
      · exact ⟨_, waits, rfl, rfl, waits, rfl⟩
      · exact ⟨_, waits, rfl, rfl, waits, rfl⟩

theorem Usable.seize_cases (usable : queue.Usable) (executing : Thread) (buffer : List UInt8)
    (wait : Bool) :
    (queue.seize executing buffer wait = some (queue, .unsatisfied)) ∨
    (queue.seize executing buffer wait =
      some (queue.threadQueueEnqueue ⟨executing, .receiving buffer⟩, .blocked)) ∨
    ∃ theMessage pending after, queue.pendingMessages = theMessage :: pending ∧
      queue.seize executing buffer wait = some (after, .successful) ∧
      after.operations = queue.operations ∧
      after.received executing = some ⟨theMessage.size, theMessage.priority,
        coreMessageQueueCopyBuffer theMessage.buffer buffer theMessage.size⟩ ∧
      ((queue.waitQueue = [] ∧ after.pendingMessages = pending ∧ after.waitQueue = []) ∨
        ∃ thread immutableObject option count waiters,
          queue.waitQueue = ⟨thread, .sending immutableObject option count⟩ :: waiters ∧
          after.waitQueue = waiters ∧
          after.pendingMessages = ({ queue with pendingMessages := pending }.insertMessage
            theMessage immutableObject option.toNat count).pendingMessages) := by
  unfold CoreMessageQueue.seize
  rcases filled : queue.pendingMessages with _ | ⟨theMessage, pending⟩
  · cases wait with
    | false => exact .inl rfl
    | true => exact .inr (.inl rfl)
  · refine .inr (.inr ⟨theMessage, pending, ?_⟩)
    dsimp only
    rcases waits : queue.waitQueue with _ | ⟨⟨thread, role⟩, waiters⟩
    · exact ⟨_, rfl, rfl, rfl, update_self _ _ _, .inl ⟨rfl, rfl, rfl⟩⟩
    · cases role with
      | receiving mutableObject =>
        have empty := usable.consistent.receivers _ (waits ▸ List.mem_cons_self) rfl
        rw [filled] at empty
        cases empty
      | sending immutableObject option count =>
        exact ⟨_, rfl, rfl, rfl, update_self _ _ _,
          .inr ⟨thread, immutableObject, option, count, waiters, rfl, rfl, rfl⟩⟩

end CoreMessageQueue

/-- A send that has to wait fits in `Wait.option`; sends and receives are all there is. -/
def CoreMessageQueueCall.Fits (queue : CoreMessageQueue Thread) :
    CoreMessageQueueCall Thread → Prop
  | .submit _ _ size _ wait isrIsInProgress =>
    wait = true → isrIsInProgress = false → size ≤ queue.maximumMessageSize →
      queue.inactiveMessages = [] → size < 2 ^ 32
  | .seize _ _ _ => True
  | _ => False

namespace CoreMessageJournal

omit [DecidableEq Thread]

/-- What is written down agrees with the control block. -/
structure Follows (queue : CoreMessageQueue Thread) (journal : CoreMessageJournal Thread) :
    Prop where
  usable : queue.Usable
  pending : List.Forall₂ IsPending journal.pending queue.pendingMessages
  waiting : List.Forall₂ Waits journal.waiting queue.waitQueue
  received : ∀ delivery ∈ journal.delivered,
    ∃ message ∈ delivery.received, delivery.submission.IsIn message
  ordered : journal.Ordered
  numbered : journal.Numbered
  inLine : queue.operations = .fifo → journal.InLine

variable {queue after : CoreMessageQueue Thread} {journal : CoreMessageJournal Thread}
variable {submission : CoreMessageSubmission} {thread : Thread}

theorem Follows.exact (follows : journal.Follows queue) : journal.Exact queue where
  __ := follows
  once := by
    have distinct := follows.numbered.distinct
    unfold numbers at distinct
    exact distinct.of_append_left
  ordered := follows.ordered.ordered
  submissionOrder fifo := (follows.inLine fifo).arrivals

theorem follows_initial (operations : CoreMessageQueueDiscipline)
    {maximumPendingMessages : BitVec 32} (maximumMessageSize : Nat)
    (messageBuffers : Nat → CoreMessageQueueBuffer) (priority : Thread → Nat)
    (positive : maximumPendingMessages ≠ 0) :
    empty.Follows (CoreMessageQueue.initial operations maximumPendingMessages maximumMessageSize
      messageBuffers priority) where
  usable := CoreMessageQueue.initial_usable operations maximumMessageSize messageBuffers priority
    positive
  pending := .nil
  waiting := .nil
  received := nofun
  ordered := ⟨.nil, nofun⟩
  numbered := ⟨List.nodup_nil, nofun⟩
  inLine _ := ⟨nofun, nofun, .nil⟩

theorem received_deliver {message : CoreMessageQueueBuffer}
    {received : Option CoreMessageQueueBuffer}
    (before : ∀ delivery ∈ journal.delivered,
      ∃ message ∈ delivery.received, delivery.submission.IsIn message)
    (isIn : submission.IsIn message) (same : received = some message) :
    ∀ delivery ∈ (journal.deliver submission thread received).delivered,
      ∃ message ∈ delivery.received, delivery.submission.IsIn message := by
  intro delivery inside
  rcases List.mem_cons.mp inside with rfl | inside
  · exact ⟨message, same, isIn⟩
  · exact before delivery inside

theorem InLine.same {other : CoreMessageJournal Thread} (inLine : journal.InLine)
    (pending : other.pending = journal.pending) (senders : other.senders = journal.senders) :
    other.InLine where
  arrivals := by rw [pending]; exact inLine.arrivals
  behind := by rw [pending, senders]; exact inLine.behind
  line := by rw [senders]; exact inLine.line

section

variable (follows : journal.Follows queue)
include follows

theorem Follows.counted : { journal with submitted := journal.submitted + 1 }.Follows queue :=
  { follows with
    ordered := ⟨follows.ordered.ordered, follows.ordered.latest⟩
    numbered := follows.numbered.moved (List.Perm.refl _) (Nat.le_succ _)
    inLine := fun fifo => (follows.inLine fifo).same rfl rfl }

theorem Follows.handOver (usable : after.Usable) {mutableObject : List UInt8}
    {waiters : List (CoreMessageQueueWaiter Thread)}
    (waits : queue.waitQueue = ⟨thread, .receiving mutableObject⟩ :: waiters)
    (number : submission.number = journal.submitted)
    (chain : after.pendingMessages = queue.pendingMessages) (remain : after.waitQueue = waiters)
    (operations : after.operations = queue.operations)
    (received : after.received thread = some ⟨submission.size, submission.submitType,
      coreMessageQueueCopyBuffer submission.buffer mutableObject submission.size⟩) :
    ∃ waiting, journal.waiting = (thread, none) :: waiting ∧
      ({ journal with submitted := journal.submitted + 1, waiting := waiting }.deliver submission
        thread (after.received thread)).Follows after := by
  have agree := follows.waiting
  rw [waits] at agree
  rcases first : journal.waiting with _ | ⟨⟨waiter, role⟩, waiting⟩
  · rw [first] at agree
    cases agree
  rw [first] at agree
  obtain ⟨head, tail⟩ := List.forall₂_cons.mp agree
  cases role with
  | some sending => exact head.elim
  | none =>
    cases head
    have sameSenders : journal.senders = waiting.filterMap Prod.snd := by
      unfold senders
      rw [first]
      rfl
    refine ⟨waiting, rfl, ?_⟩
    exact
      { usable := usable
        pending := chain ▸ follows.pending
        waiting := remain ▸ tail
        received := received_deliver follows.received (submission.isIn_filled _) received
        ordered := ⟨follows.ordered.ordered, follows.ordered.latest⟩
        numbered := by
          refine follows.numbered.added ?_ rfl
          rw [← number]
          unfold numbers
          rw [sameSenders]
          exact List.Perm.refl _
        inLine := fun fifo => (follows.inLine (operations ▸ fifo)).same rfl sameSenders.symm }

theorem Follows.enter (usable : after.Usable) (nobody : queue.waitQueue = [])
    (number : submission.number = journal.submitted) (theMessage : CoreMessageQueueBuffer)
    (chain : after.pendingMessages = (queue.insertMessage theMessage submission.buffer
      submission.size submission.submitType).pendingMessages) (stillNobody : after.waitQueue = [])
    (operations : after.operations = queue.operations) :
    journal.waiting = [] ∧
      ({ journal with submitted := journal.submitted + 1 }.enter submission).Follows after := by
  have agree := follows.waiting
  rw [nobody, List.forall₂_nil_right_iff] at agree
  have noSenders : journal.senders = [] := by
    unfold senders
    rw [agree]
    rfl
  refine ⟨agree, ?_⟩
  exact
    { usable := usable
      pending := chain ▸ follows.counted.ordered.enter_isPending follows.pending submission
        theMessage
      waiting := by
        rw [stillNobody]
        exact List.forall₂_nil_right_iff.mpr agree
      received := follows.received
      ordered := follows.counted.ordered.enter submission
      numbered := by
        refine follows.numbered.added ?_ rfl
        rw [← number]
        exact numbers_enter _ submission
      inLine := fun fifo => by
        refine (follows.counted.inLine (operations ▸ fifo)).enter follows.counted.ordered ?_ ?_
        · intro member inside
          rw [number]
          refine follows.numbered.fresh _ (List.mem_append_right _ (List.mem_append_left _ ?_))
          exact List.mem_map_of_mem inside
        · intro sender waits
          have waits : sender ∈ journal.senders := waits
          rw [noSenders] at waits
          cases waits }

theorem Follows.block (thread : Thread) (number : submission.number = journal.submitted)
    (small : submission.size < 2 ^ 32)
    (usable : (queue.threadQueueEnqueue ⟨thread, .sending submission.buffer
      (BitVec.ofNat 32 submission.size) submission.submitType⟩).Usable) :
    ({ journal with submitted := journal.submitted + 1 }.wait queue thread
      (some submission)).Follows (queue.threadQueueEnqueue ⟨thread, .sending submission.buffer
        (BitVec.ofNat 32 submission.size) submission.submitType⟩) where
  __ := follows
  usable := usable
  waiting := by
    have size : (BitVec.ofNat 32 submission.size).toNat = submission.size := by
      rw [BitVec.toNat_ofNat]
      exact Nat.mod_eq_of_lt small
    exact @CoreMessageQueue.enqueue_waits Thread queue journal (some submission) ⟨thread, _⟩
      follows.waiting ⟨rfl, rfl, size, rfl⟩
  ordered := ⟨follows.ordered.ordered, follows.ordered.latest⟩
  numbered := by
    refine follows.numbered.added ?_ rfl
    rw [← number]
    exact numbers_wait_some _ queue thread submission
  inLine fifo := ((follows.inLine fifo).wait follows.numbered thread fifo number).same rfl rfl

variable {chain : List CoreMessageQueueBuffer} {member : Member CoreMessageSubmission Int}
variable {pending : List (Member CoreMessageSubmission Int)} {message : CoreMessageQueueBuffer}

theorem Follows.due {theMessage : CoreMessageQueueBuffer}
    (filled : queue.pendingMessages = theMessage :: chain) :
    ∃ member pending, journal.pending = member :: pending ∧ IsPending member theMessage ∧
      List.Forall₂ IsPending pending chain := by
  have agree := follows.pending
  rw [filled] at agree
  rcases first : journal.pending with _ | ⟨member, pending⟩
  · rw [first] at agree
    cases agree
  · rw [first] at agree
    obtain ⟨head, tail⟩ := List.forall₂_cons.mp agree
    exact ⟨member, pending, rfl, head, tail⟩

theorem Follows.take (usable : after.Usable) (first : journal.pending = member :: pending)
    (nobody : queue.waitQueue = []) (agree : List.Forall₂ IsPending pending after.pendingMessages)
    (stillNobody : after.waitQueue = []) (operations : after.operations = queue.operations)
    (isIn : member.content.IsIn message) (received : after.received thread = some message) :
    journal.waiting = [] ∧ ({ journal with pending := pending }.deliver member.content thread
      (after.received thread)).Follows after := by
  have waiting := follows.waiting
  rw [nobody, List.forall₂_nil_right_iff] at waiting
  refine ⟨waiting, ?_⟩
  exact
    { usable := usable
      pending := agree
      waiting := by
        rw [stillNobody]
        exact List.forall₂_nil_right_iff.mpr waiting
      received := received_deliver follows.received isIn received
      ordered := ⟨(follows.ordered.rest first).ordered, (follows.ordered.rest first).latest⟩
      numbered := follows.numbered.moved (numbers_pending first).symm (Nat.le_refl _)
      inLine := fun fifo =>
        ((follows.inLine (operations ▸ fifo)).rest first).same rfl rfl }

theorem Follows.takeAndEnter (usable : after.Usable) {sender : Thread}
    {immutableObject : List UInt8} {option count : BitVec 32}
    {waiters : List (CoreMessageQueueWaiter Thread)} (first : journal.pending = member :: pending)
    (agree : List.Forall₂ IsPending pending chain)
    (waits : queue.waitQueue = ⟨sender, .sending immutableObject option count⟩ :: waiters)
    (theMessage : CoreMessageQueueBuffer) (remain : after.waitQueue = waiters)
    (inserted : after.pendingMessages = ({ queue with pendingMessages := chain }.insertMessage
      theMessage immutableObject option.toNat count).pendingMessages)
    (operations : after.operations = queue.operations) (isIn : member.content.IsIn message)
    (received : after.received thread = some message) :
    ∃ submission waiting, journal.waiting = (sender, some submission) :: waiting ∧
      (({ journal with pending := pending, waiting := waiting }.deliver member.content thread
        (after.received thread)).enter submission).Follows after := by
  have waitsAgree := follows.waiting
  rw [waits] at waitsAgree
  rcases firstWaits : journal.waiting with _ | ⟨⟨waiter, role⟩, waiting⟩
  · rw [firstWaits] at waitsAgree
    cases waitsAgree
  rw [firstWaits] at waitsAgree
  obtain ⟨head, tail⟩ := List.forall₂_cons.mp waitsAgree
  cases role with
  | none => exact head.elim
  | some submission =>
    obtain ⟨rfl, rfl, size, rfl⟩ := head
    refine ⟨submission, waiting, rfl, ?_⟩
    have senders : journal.senders = submission :: waiting.filterMap Prod.snd := by
      unfold CoreMessageJournal.senders
      rw [firstWaits]
      rfl
    have ordered := follows.ordered.rest first
    have orderedAfter : ({ journal with pending := pending, waiting := waiting }.deliver
        member.content thread (after.received thread)).Ordered :=
      ⟨ordered.ordered, ordered.latest⟩
    exact
      { usable := usable
        pending := by
          rw [inserted, size]
          exact @Ordered.enter_isPending Thread _ { queue with pendingMessages := chain }
            orderedAfter agree submission theMessage
        waiting := remain ▸ tail
        received := received_deliver follows.received isIn received
        ordered := orderedAfter.enter submission
        numbered := by
          refine follows.numbered.moved ?_ (Nat.le_refl _)
          refine (numbers_enter _ submission).trans ?_
          refine .trans ?_ (numbers_waiting firstWaits).symm
          refine .cons _ (.trans ?_ (@numbers_pending Thread { journal with waiting := waiting }
            member pending first).symm)
          exact List.Perm.refl _
        inLine := fun fifo => by
          have inLine := follows.inLine (operations ▸ fifo)
          have line := inLine.line
          rw [senders, List.pairwise_cons] at line
          have rest := inLine.rest first
          refine InLine.enter ?_ orderedAfter ?_ line.1
          · exact
              { arrivals := rest.arrivals
                behind := fun other inside sender waits =>
                  rest.behind other inside sender (senders ▸ List.mem_cons_of_mem _ waits)
                line := line.2 }
          · exact fun other inside =>
              rest.behind other inside submission (senders ▸ List.mem_cons_self) }

theorem Follows.waitToReceive (thread : Thread) (mutableObject : List UInt8)
    (usable : (queue.threadQueueEnqueue ⟨thread, .receiving mutableObject⟩).Usable) :
    (journal.wait queue thread none).Follows
      (queue.threadQueueEnqueue ⟨thread, .receiving mutableObject⟩) where
  __ := follows
  usable := usable
  waiting := @CoreMessageQueue.enqueue_waits Thread queue journal none ⟨thread, _⟩
    follows.waiting rfl
  ordered := ⟨follows.ordered.ordered, follows.ordered.latest⟩
  numbered := follows.numbered.moved (numbers_wait_none _ queue thread) (Nat.le_refl _)
  inLine fifo := (follows.inLine fifo).waitNone thread fifo

end

variable [DecidableEq Thread]

theorem Follows.submit (follows : journal.Follows queue) {executing : Thread}
    {buffer : List UInt8} {size : Nat} {submitType : CoreMessageQueueSubmitType}
    {wait isrIsInProgress : Bool}
    (fits : (CoreMessageQueueCall.submit executing buffer size submitType wait
      isrIsInProgress).Fits queue) :
    ∃ after status, queue.submit executing buffer size submitType wait isrIsInProgress =
        some (after, status) ∧
      (journal.record queue (.submit executing buffer size submitType wait
        isrIsInProgress)).Follows after := by
  obtain ⟨after, status, returns, usable⟩ :=
    follows.usable.submit executing buffer size submitType wait isrIsInProgress
  refine ⟨after, status, returns, ?_⟩
  unfold record
  dsimp only
  rcases follows.usable.submit_cases executing buffer size submitType wait isrIsInProgress with
    ⟨refused, notSuccessful, notBlocked, same⟩ | ⟨thread, mutableObject, waiters, waits, same⟩ |
      ⟨theMessage, inserted, nobody, same, chain, stillNobody, operations⟩ |
      ⟨waiting, noIsr, small, full, same⟩
  · rw [same] at returns ⊢
    cases returns
    cases status with
    | successful => exact absurd rfl notSuccessful
    | blocked => exact absurd rfl notBlocked
    | messageInvalidSize | tooMany | waitInIsr | unsatisfied => exact follows.counted
  · rw [same] at returns ⊢
    cases returns
    obtain ⟨waiting, first, handedOver⟩ := @Follows.handOver _ _ _ _
      ⟨journal.submitted, buffer, size, submitType⟩ _ follows usable _ _ waits rfl rfl rfl rfl
      (update_self _ _ _)
    dsimp only
    rw [first]
    exact handedOver
  · rw [same] at returns ⊢
    cases returns
    obtain ⟨noWaiting, entered⟩ := @Follows.enter _ _ _ _
      ⟨journal.submitted, buffer, size, submitType⟩ follows usable nobody rfl theMessage chain
      stillNobody operations
    dsimp only
    rw [noWaiting]
    rw [noWaiting] at entered
    exact entered
  · rw [same] at returns ⊢
    cases returns
    exact @Follows.block _ _ _ ⟨journal.submitted, buffer, size, submitType⟩ follows executing rfl
      (fits waiting noIsr small full) usable

theorem Follows.seize (follows : journal.Follows queue) (executing : Thread)
    (buffer : List UInt8) (wait : Bool) :
    ∃ after status, queue.seize executing buffer wait = some (after, status) ∧
      (journal.record queue (.seize executing buffer wait)).Follows after := by
  obtain ⟨after, status, returns, usable⟩ := follows.usable.seize executing buffer wait
  refine ⟨after, status, returns, ?_⟩
  unfold record
  dsimp only
  rcases follows.usable.seize_cases executing buffer wait with
    same | same | ⟨theMessage, chain, seized, filled, same, operations, received, waiters⟩
  · rw [same] at returns ⊢
    cases returns
    exact follows
  · rw [same] at returns ⊢
    cases returns
    exact follows.waitToReceive executing buffer usable
  · rw [same] at returns ⊢
    cases returns
    obtain ⟨member, pending, first, isPending, agree⟩ := follows.due filled
    have isIn := isPending.isIn.copied buffer
    dsimp only
    rcases waiters with ⟨nobody, rest, stillNobody⟩ |
      ⟨sender, immutableObject, option, count, waiters, waits, remain, inserted⟩
    · obtain ⟨noWaiting, taken⟩ := follows.take usable first nobody (rest ▸ agree) stillNobody
        operations isIn received
      rw [first, noWaiting]
      rw [noWaiting] at taken
      exact taken
    · obtain ⟨submission, waiting, firstWaits, taken⟩ := follows.takeAndEnter usable first agree
        waits theMessage remain inserted operations isIn received
      rw [first, firstWaits]
      exact taken

end CoreMessageJournal

open CoreMessageJournal

theorem CoreMessageJournal.Follows.perform {queue : CoreMessageQueue Thread}
    {journal : CoreMessageJournal Thread} (follows : journal.Follows queue)
    {call : CoreMessageQueueCall Thread} (fits : call.Fits queue) :
    ∃ after, call.perform queue = some after ∧ (journal.record queue call).Follows after := by
  cases call with
  | submit executing buffer size submitType wait isrIsInProgress =>
    obtain ⟨after, status, returns, followsAfter⟩ := follows.submit fits
    exact ⟨after, by simp only [CoreMessageQueueCall.perform, returns, Option.map_some],
      followsAfter⟩
  | seize executing buffer wait =>
    obtain ⟨after, status, returns, followsAfter⟩ := follows.seize executing buffer wait
    exact ⟨after, by simp only [CoreMessageQueueCall.perform, returns, Option.map_some],
      followsAfter⟩
  | broadcast | broadcastTurn | flush | setNotify | extract | priorityChanged => exact fits.elim

/-- In every run of sends and receives whose waiting sends fit in 32 bits the messages are
received as they were submitted, at most once and in their order. -/
theorem coreMessageJournalRun_exact (operations : CoreMessageQueueDiscipline)
    {maximumPendingMessages : BitVec 32} (maximumMessageSize : Nat)
    (messageBuffers : Nat → CoreMessageQueueBuffer) (priority : Thread → Nat)
    (positive : maximumPendingMessages ≠ 0) (calls : List (CoreMessageQueueCall Thread)) :
    let start := some (CoreMessageQueue.initial operations maximumPendingMessages
      maximumMessageSize messageBuffers priority, CoreMessageJournal.empty)
    Meets coreMessageJournalStep (fun state call => ∀ both ∈ state, call.Fits both.1) start
        calls →
      Throughout coreMessageJournalStep
        (fun state => ∃ queue journal, state = some (queue, journal) ∧ journal.Exact queue) start
        calls := by
  intro start fits
  have follows := follows_initial operations maximumMessageSize messageBuffers priority positive
  have always := @throughout_of_preserved _ _ coreMessageJournalStep _
    (fun state => ∃ queue journal, state = some (queue, journal) ∧ journal.Follows queue) start
    calls ⟨_, _, rfl, follows⟩ ?_ fits
  · refine always.imp ?_
    rintro _ ⟨queue, journal, rfl, follows⟩
    exact ⟨queue, journal, rfl, follows.exact⟩
  · rintro _ call ⟨queue, journal, rfl, follows⟩ fits
    obtain ⟨after, performed, followsAfter⟩ := follows.perform (fits _ rfl)
    refine ⟨after, journal.record queue call, ?_, followsAfter⟩
    show (call.perform queue).map _ = _
    rw [performed]
    rfl

/-- Two threads wait to send, one of them an urgent message, and all is received. -/
theorem coreMessageJournalRun_waiting_exact :
    Throughout coreMessageJournalStep
      (fun state => ∃ queue journal, state = some (queue, journal) ∧ journal.Exact queue)
      (some (CoreMessageQueue.initial .priority 1 8 (fun _ => ⟨0, 0, []⟩)
        fun thread : Nat => thread, CoreMessageJournal.empty))
      [.submit 1 [7] 1 5 false false, .submit 3 [8, 9] 2 coreMessageQueueSendRequest true false,
        .submit 2 [6] 1 coreMessageQueueUrgentRequest true false, .seize 4 [] true,
        .seize 4 [] true, .seize 4 [] true, .seize 4 [] true] := by
  refine coreMessageJournalRun_exact .priority 8 (fun _ => ⟨0, 0, []⟩) (fun thread => thread)
    (by decide) _ ⟨?_, ?_, ?_, ?_, ?_, ?_, ?_, trivial⟩
  · intro _ _ never
    cases never
  · intro _ _ _ _ _ _
    decide
  · intro _ _ _ _ _ _
    decide
  · exact fun _ _ => trivial
  · exact fun _ _ => trivial
  · exact fun _ _ => trivial
  · exact fun _ _ => trivial

/-- A thread waits to send a message of `2 ^ 32` bytes, and the size that is received is
zero. -/
theorem coreMessageJournalRun_inexact :
    ¬ Throughout coreMessageJournalStep
      (fun state => ∃ queue journal, state = some (queue, journal) ∧ journal.Exact queue)
      (some (CoreMessageQueue.initial .fifo 1 (2 ^ 32) (fun _ => ⟨0, 0, []⟩) fun _ : Nat => 0,
        CoreMessageJournal.empty))
      [.submit 1 [7] 1 coreMessageQueueSendRequest true false,
        .submit 2 (List.replicate (2 ^ 32) 7) (2 ^ 32) coreMessageQueueSendRequest true false,
        .seize 3 [] true, .seize 3 [] true] := by
  generalize List.replicate (2 ^ 32) (7 : UInt8) = buffer
  intro always
  obtain ⟨queue, journal, reached, exact⟩ := always.final
  cases reached
  obtain ⟨message, same, isIn⟩ := exact.received _ List.mem_cons_self
  cases same
  have size : 0 = 2 ^ 32 := isIn.size
  cases size

end RTContainer.Score
