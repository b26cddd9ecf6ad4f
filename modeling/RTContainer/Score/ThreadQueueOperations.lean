import RTContainer.Score.ThreadQueueProperties

/-! Every operation on the threads and their queues comes to an end, and keeps the links
and the order of the aggregations. -/

set_option autoImplicit false

namespace RTContainer.Score

open Walk Function

namespace ThreadQueues

variable {Thread Queue Node : Type}

/-- Between the operations no thread is leaving, and everything is in order. -/
structure Settled (state : ThreadQueues Thread Queue Node) : Prop where
  linked : state.Linked fun _ => False
  ordered : state.Ordered

theorem initial_settled {realPriority : Thread → Node}
    (injective : Injective realPriority) (nodePriority : Node → Nat)
    {operations : Queue → ThreadQueueOperations} (used : ∀ queue, operations queue ≠ .default) :
    (initial realPriority nodePriority operations).Settled where
  linked :=
    { waiting := fun inside => nomatch inside
      present := fun waits => nomatch waits
      passed := fun _ => rfl
      used := used
      free := fun _ => rfl
      once := fun _ => List.nodup_nil
      owned := fun occupied => absurd rfl occupied
      contributes := fun thread queue =>
        { mp := fun inside => nomatch List.mem_singleton.mp inside
          mpr := fun inherits => absurd rfl inherits.2.2 }
      scheduler := fun inherits => absurd rfl inherits.2.2
      active := fun {node thread other} inside insideOther => by
        cases List.mem_singleton.mp inside
        have same := List.mem_singleton.mp insideOther
        exact injective (PriorityContributor.node.inj same)
      real := fun thread => ⟨realPriority thread, List.mem_singleton_self _⟩
      ends := ends_of_none fun place => by cases place <;> rfl }
  ordered :=
    { threads := fun thread =>
        PriorityAggregation.initializeOne_exact (PriorityContributor.node (realPriority thread))
      queues := fun queue =>
        { inherit := fun _ =>
            { nodup := List.nodup_nil
              sorted := List.Pairwise.nil
              minimum := fun _ isFirst => nomatch isFirst }
          sorted := fun _ => List.Pairwise.nil } }

variable [DecidableEq Thread] [DecidableEq Queue]

variable {thread : Thread} {queue : Queue} {after : ThreadQueues Thread Queue Node}
variable {aggregation : PriorityAggregation Thread}

omit [DecidableEq Queue] in
theorem waitsFor_update_waitQueue (state after : ThreadQueues Thread Queue Node)
    {queue : Option Queue} (waitQueue : after.waitQueue =
      update state.waitQueue thread queue) (owner : after.owner = state.owner)
    [DecidableEq (Thread ⊕ Queue)] :
    after.waitsFor = update state.waitsFor (.inl thread) (queue.map .inr) := by
  funext place
  cases place with
  | inl other =>
    by_cases same : other = thread
    · subst same
      rw [update_self]
      simp only [waitsFor, waitQueue, update_self]
    · rw [update_of_ne fun equal => same (Sum.inl.inj equal)]
      simp only [waitsFor, waitQueue, update_of_ne same]
  | inr queue =>
    rw [update_of_ne Sum.inr_ne_inl]
    simp only [waitsFor, owner]

omit [DecidableEq Thread] in
theorem waitsFor_update_owner (state after : ThreadQueues Thread Queue Node) {owner : Option Thread}
    (waitQueue : after.waitQueue = state.waitQueue)
    (owns : after.owner = update state.owner queue owner) [DecidableEq (Thread ⊕ Queue)] :
    after.waitsFor = update state.waitsFor (.inr queue) (owner.map .inl) := by
  funext place
  cases place with
  | inl thread =>
    rw [update_of_ne Sum.inl_ne_inr]
    simp only [waitsFor, waitQueue]
  | inr other =>
    by_cases same : other = queue
    · subst same
      rw [update_self]
      simp only [waitsFor, owns, update_self]
    · rw [update_of_ne fun equal => same (Sum.inr.inj equal)]
      simp only [waitsFor, owns, update_of_ne same]

variable {state : ThreadQueues Thread Queue Node}

section

omit [DecidableEq Thread]

theorem setOwner_of_ne {queue other : Queue} (apart : other ≠ queue) (owner : Option Thread) :
    (state.setOwner queue owner).owner other = state.owner other :=
  update_of_ne apart ..

theorem Linked.setOwner (linked : state.Linked fun _ => False) {queue : Queue}
    (empty : (state.queuePriority queue).contributors = []) {owner : Option Thread}
    (ends : Ends (state.setOwner queue owner).waitsFor) :
    (state.setOwner queue owner).Linked fun _ => False := by
  have inherits : ∀ thread other, (state.setOwner queue owner).Inherits thread other ↔
      state.Inherits thread other := by
    intro thread other
    by_cases same : other = queue
    · subst same
      exact ⟨fun inherits => absurd empty inherits.2.2, fun inherits => absurd empty inherits.2.2⟩
    · unfold Inherits
      rw [setOwner_of_ne same]
      rfl
  exact
    { linked with
      owned := fun {other} occupied => by
        have apart : other ≠ queue := by
          rintro rfl
          exact occupied empty
        rw [setOwner_of_ne apart]
        exact linked.owned occupied
      contributes := fun thread other => by
        rw [inherits]
        exact linked.contributes thread other
      scheduler := fun inherited => linked.scheduler ((inherits _ _).mp inherited)
      ends := ends }

theorem Ordered.setOwner (ordered : state.Ordered) (queue : Queue) (owner : Option Thread) :
    (state.setOwner queue owner).Ordered where
  threads := ordered.threads
  queues other := (ordered.queues other).congr rfl rfl fun _ _ => rfl

end

theorem Settled.seize (settled : state.Settled) (ready : state.waitQueue thread = none)
    (unowned : state.owner queue = none) : (state.setOwner queue (some thread)).Settled where
  linked := by
    have empty : (state.queuePriority queue).contributors = [] := by
      by_contra occupied
      exact settled.linked.owned occupied unowned
    refine settled.linked.setOwner empty ?_
    have edge := waitsFor_update_owner state (state.setOwner queue (some thread)) rfl rfl
    rw [edge]
    refine settled.linked.ends.update_some ?_
    rw [reaches_of_none (waitsFor_inl_none ready)]
    exact Sum.inl_ne_inr
  ordered := settled.ordered.setOwner queue (some thread)

omit [DecidableEq Queue] in
/-- The walk ends, and reports a deadlock if it meets the thread. -/
theorem pathAcquire_exact (ends : Ends state.waitsFor) (thread : Thread) (queue : Queue) :
    ∃ status enough, (∀ fuel ≥ enough, state.pathAcquire thread fuel queue = some status) ∧
      (status = .deadlockDetected ↔ Reaches state.waitsFor (.inr queue) (.inl thread)) := by
  generalize place : (Sum.inr queue : Thread ⊕ Queue) = node
  induction node using ends.induction generalizing queue with
  | step node ih =>
    subst place
    cases owns : state.owner queue with
    | none =>
      refine ⟨.noDeadlock, 1, fun fuel enough => ?_, ?_⟩
      · obtain ⟨fuel, rfl⟩ := Nat.exists_eq_add_of_le' enough
        simp only [pathAcquire, owns]
      · rw [reaches_of_none (waitsFor_inr_none owns)]
        exact ⟨fun found => (nomatch found), fun same => (nomatch same)⟩
    | some owner =>
      rw [reaches_of_some (waitsFor_inr owns)]
      by_cases same : owner = thread
      · subst same
        refine ⟨.deadlockDetected, 1, fun fuel enough => ?_, fun _ => .inr (Reaches.refl _),
          fun _ => rfl⟩
        obtain ⟨fuel, rfl⟩ := Nat.exists_eq_add_of_le' enough
        simp only [pathAcquire, owns, if_true]
      · cases waits : state.waitQueue owner with
        | none =>
          refine ⟨.noDeadlock, 1, fun fuel enough => ?_, ?_⟩
          · obtain ⟨fuel, rfl⟩ := Nat.exists_eq_add_of_le' enough
            simp only [pathAcquire, owns, if_neg same, waits]
          · rw [reaches_of_none (waitsFor_inl_none waits)]
            refine ⟨fun found => (nomatch found), fun comes => ?_⟩
            rcases comes with equal | equal
            · cases equal
            · exact absurd (Sum.inl.inj equal) same
        | some next =>
          have follows : Relation.TransGen (Step state.waitsFor) (.inr queue) (.inr next) :=
            .head (waitsFor_inr owns) (.single (waitsFor_inl waits))
          obtain ⟨status, enough, comes, found⟩ := ih (.inr next) follows next rfl
          refine ⟨status, enough + 1, fun fuel enough => ?_, ?_⟩
          · obtain ⟨fuel, rfl⟩ := Nat.exists_eq_add_of_le' (Nat.le_of_add_left_le enough)
            simp only [pathAcquire, owns, if_neg same, waits]
            exact comes fuel (by omega)
          · rw [found, reaches_of_some (waitsFor_inl waits)]
            refine ⟨fun reaches => .inr (.inr reaches), fun reaches => ?_⟩
            rcases reaches with equal | equal | reaches
            · cases equal
            · exact absurd (Sum.inl.inj equal) same
            · exact reaches

omit [DecidableEq Queue] in
theorem pathAcquire_threadWaitClaim (thread : Thread) (claimed queue : Queue) (fuel : Nat) :
    (state.threadWaitClaim thread claimed).pathAcquire thread fuel queue =
      state.pathAcquire thread fuel queue := by
  induction fuel generalizing queue with
  | zero => rfl
  | succ fuel ih =>
    unfold pathAcquire
    cases owns : state.owner queue with
    | none => simp only [threadWaitClaim, owns]
    | some owner =>
      by_cases same : owner = thread
      · simp only [threadWaitClaim, owns, if_pos same]
      · have kept : (state.threadWaitClaim thread claimed).waitQueue owner =
            state.waitQueue owner := update_of_ne same ..
        have owner? : (state.threadWaitClaim thread claimed).owner queue = some owner := owns
        rw [owner?]
        dsimp only
        rw [if_neg same, if_neg same, kept]
        cases state.waitQueue owner with
        | none => rfl
        | some next => exact ih next

def inserting (state : ThreadQueues Thread Queue Node) (thread : Thread) (queue : Queue) :
    ThreadQueues Thread Queue Node :=
  ((state.threadWaitClaim thread queue).clearPriorityUpdates.threadWaitClaimFinalize thread
    (state.operations queue)).setFreeChain queue (state.freeChain queue + 1)

structure Enqueued (state after : ThreadQueues Thread Queue Node) (thread : Thread)
    (queue : Queue) : Prop where
  waitQueue : after.waitQueue = update state.waitQueue thread (some queue)
  waitOperations : after.waitOperations =
    update state.waitOperations thread (state.operations queue)
  owner : after.owner = state.owner
  freeChain : after.freeChain = update state.freeChain queue (state.freeChain queue + 1)
  operations : after.operations = state.operations
  perm : (after.queuePriority queue).contributors.Perm
    (thread :: (state.queuePriority queue).contributors)
  others : ∀ other, other ≠ queue → after.queuePriority other = state.queuePriority other
  nodes : ∀ other node, .node node ∈ (after.waitPriority other).contributors ↔
    .node node ∈ (state.waitPriority other).contributors

theorem Enqueued.linked (enqueued : state.Enqueued after thread queue)
    (linked : state.Linked fun _ => False) (ready : state.waitQueue thread = none)
    (owns : state.owner queue ≠ none) (avoids : ¬ Reaches state.waitsFor (.inr queue) (.inl thread))
    (contributes : ∀ other queue,
      .queue queue ∈ (after.waitPriority other).contributors ↔ after.Inherits other queue)
    (scheduler : ∀ {other queue}, after.Inherits other queue →
      after.schedulerNode queue = some other) : after.Linked fun _ => False where
  waiting {other inner} inside := by
    rw [enqueued.waitQueue]
    by_cases same : inner = queue
    · subst same
      rcases List.mem_cons.mp (enqueued.perm.mem_iff.mp inside) with rfl | before
      · exact update_self ..
      · have apart : other ≠ thread := by
          rintro rfl
          cases ready.symm.trans (linked.waiting before)
        rw [update_of_ne apart]
        exact linked.waiting before
    · rw [enqueued.others inner same] at inside
      have apart : other ≠ thread := by
        rintro rfl
        cases ready.symm.trans (linked.waiting inside)
      rw [update_of_ne apart]
      exact linked.waiting inside
  present {other inner} waits stays := by
    rw [enqueued.waitQueue] at waits
    by_cases same : other = thread
    · subst same
      rw [update_self] at waits
      cases waits
      exact enqueued.perm.mem_iff.mpr List.mem_cons_self
    · rw [update_of_ne same] at waits
      have before := linked.present waits stays
      by_cases equal : inner = queue
      · subst equal
        exact enqueued.perm.mem_iff.mpr (List.mem_cons_of_mem thread before)
      · rw [enqueued.others inner equal]
        exact before
  passed other := by
    rw [enqueued.waitOperations, enqueued.waitQueue, enqueued.operations]
    by_cases same : other = thread
    · subst same
      rw [update_self, update_self]
      rfl
    · rw [update_of_ne same, update_of_ne same]
      exact linked.passed other
  used inner := by
    rw [enqueued.operations]
    exact linked.used inner
  free inner := by
    rw [enqueued.freeChain]
    by_cases same : inner = queue
    · subst same
      rw [update_self, enqueued.perm.length_eq, List.length_cons, linked.free inner]
    · rw [update_of_ne same, enqueued.others inner same]
      exact linked.free inner
  once inner := by
    by_cases same : inner = queue
    · subst same
      refine enqueued.perm.nodup_iff.mpr (List.nodup_cons.mpr ⟨fun inside => ?_, linked.once inner⟩)
      cases ready.symm.trans (linked.waiting inside)
    · rw [enqueued.others inner same]
      exact linked.once inner
  owned {inner} occupied := by
    rw [enqueued.owner]
    by_cases same : inner = queue
    · exact same ▸ owns
    · rw [enqueued.others inner same] at occupied
      exact linked.owned occupied
  contributes := contributes
  scheduler := scheduler
  active {node first second} inside insideOther :=
    linked.active ((enqueued.nodes first node).mp inside)
      ((enqueued.nodes second node).mp insideOther)
  real other := by
    obtain ⟨node, inside⟩ := linked.real other
    exact ⟨node, (enqueued.nodes other node).mpr inside⟩
  ends := by
    rw [waitsFor_update_waitQueue state after enqueued.waitQueue enqueued.owner]
    exact linked.ends.update_some avoids

private theorem enqueued_setQueuePriority (state : ThreadQueues Thread Queue Node)
    (perm : aggregation.contributors.Perm (thread :: (state.queuePriority queue).contributors)) :
    state.Enqueued ((state.inserting thread queue).setQueuePriority queue aggregation) thread
      queue where
  waitQueue := rfl
  waitOperations := rfl
  owner := rfl
  freeChain := rfl
  operations := rfl
  perm := by
    rw [setQueuePriority_self]
    exact perm
  others other apart := setQueuePriority_of_ne _ apart aggregation
  nodes _ _ := Iff.rfl

theorem Enqueued.inherits_iff (enqueued : state.Enqueued after thread queue)
    (kept : state.operations queue = .priorityInherit →
      (state.queuePriority queue).contributors ≠ []) (other : Thread) (inner : Queue) :
    after.Inherits other inner ↔ state.Inherits other inner := by
  unfold Inherits
  rw [enqueued.operations, enqueued.owner]
  by_cases same : inner = queue
  · subst same
    have occupied : (after.queuePriority inner).contributors ≠ [] :=
      List.ne_nil_of_mem (enqueued.perm.mem_iff.mpr List.mem_cons_self)
    exact ⟨fun inherits => ⟨inherits.1, inherits.2.1, kept inherits.1⟩,
      fun inherits => ⟨inherits.1, inherits.2.1, occupied⟩⟩
  · rw [enqueued.others inner same]

theorem QueueOrdered.inserting {inner : Queue} (ordered : state.QueueOrdered inner)
    (thread : Thread) (apart : inner ≠ queue) (aggregation : PriorityAggregation Thread) :
    ((state.inserting thread queue).setQueuePriority queue aggregation).QueueOrdered inner :=
  ordered.congr rfl (setQueuePriority_of_ne _ apart aggregation) fun _ _ => rfl

theorem Settled.insert (settled : state.Settled) (ready : state.waitQueue thread = none)
    (owns : state.owner queue ≠ none) (avoids : ¬ Reaches state.waitsFor (.inr queue) (.inl thread))
    (plain : state.operations queue ≠ .priorityInherit)
    (perm : aggregation.contributors.Perm (thread :: (state.queuePriority queue).contributors))
    (sorted : state.operations queue = .priority → aggregation.contributors.Pairwise
      fun left right => state.priority left ≤ state.priority right) :
    ((state.inserting thread queue).setQueuePriority queue aggregation).Settled := by
  have enqueued := state.enqueued_setQueuePriority perm
  have inherits := enqueued.inherits_iff fun inherit => absurd inherit plain
  refine ⟨enqueued.linked settled.linked ready owns avoids (fun other inner => ?_)
    fun {other inner} inherited => ?_, fun other => ?_, fun inner => ?_⟩
  · rw [inherits]
    exact settled.linked.contributes other inner
  · exact settled.linked.scheduler ((inherits other inner).mp inherited)
  · refine (settled.ordered.threads other).congr fun node inside => ?_
    refine setQueuePriority_contribution queue aggregation ?_
    rintro rfl
    exact plain ((settled.linked.contributes other queue).mp inside).1
  · by_cases same : inner = queue
    · subst same
      refine ⟨fun inherit => absurd inherit plain, fun byPriority => ?_⟩
      rw [setQueuePriority_self]
      exact sorted byPriority
    · exact (settled.ordered.queues inner).inserting thread same aggregation

variable [DecidableEq Node]

theorem Acts.settles {aggregation : PriorityAggregation (PriorityContributor Queue Node)}
    {changes : Option PriorityGroupOrder}
    (acts : state.Acts thread aggregation changes fun _ => False)
    {action : PriorityAction Thread Queue Node}
    (first : state.actOn action .last = some (aggregation, changes))
    (own : action.aggregation = thread) :
    ∃ after enough, (∀ fuel ≥ enough,
      state.threadPriorityPerformActions fuel thread action = some after) ∧ after.Settled := by
  obtain ⟨after, enough, ends, same, ordered⟩ :=
    acts.performActions state.updates.length first own fun _ left => left.elim
  exact ⟨after, enough, ends, acts.linked.ofSame same, ordered⟩

section Enqueueing

variable {thread owner : Thread} {queue : Queue} (settled : state.Settled)
  (ready : state.waitQueue thread = none) (owns : state.owner queue = some owner)
  (avoids : ¬ Reaches state.waitsFor (.inr queue) (.inl thread))
include settled ready owns avoids

theorem Settled.inheritInitialize (inherit : state.operations queue = .priorityInherit)
    (empty : (state.queuePriority queue).contributors = []) :
    ∃ after enough, (∀ fuel ≥ enough,
      (state.inserting thread queue).doInitialize fuel queue thread = some after) ∧
        after.Settled := by
  let prepared := ((state.inserting thread queue).setSchedulerNode queue owner).setQueuePriority
    queue (.initializeOne state.priority thread)
  have missing : ∀ other, .queue queue ∉ (state.waitPriority other).contributors := by
    intro other inside
    exact ((settled.linked.contributes other queue).mp inside).2.2 empty
  have contribution : ∀ other, ∀ node ∈ (state.waitPriority other).contributors,
      prepared.contribution node = state.contribution node := by
    intro other node inside
    refine setQueuePriority_contribution queue _ ?_
    rintro rfl
    exact missing other inside
  have exactOwner : (prepared.waitPriority owner).Exact prepared.contribution :=
    (settled.ordered.threads owner).congr (contribution owner)
  obtain ⟨node, isReal⟩ := settled.linked.real owner
  obtain ⟨exact, perm, kept⟩ :=
    exactOwner.nonEmptyInsert (List.ne_nil_of_mem isReal) (missing owner)
  generalize inserts : (prepared.waitPriority owner).nonEmptyInsert prepared.contribution
    (.queue queue) = result at exact perm kept
  obtain ⟨aggregation, changes⟩ := result
  have first : prepared.actOn ⟨owner, .queue queue, .add⟩ .last = some (aggregation, changes) :=
    congrArg some inserts
  have ofOwner : ((prepared.setWaitPriority owner aggregation).waitPriority owner).contributors.Perm
      (.queue queue :: (state.waitPriority owner).contributors) := by
    rw [setWaitPriority_self]
    exact perm
  have ofOther : ∀ other, other ≠ owner →
      (prepared.setWaitPriority owner aggregation).waitPriority other = state.waitPriority other :=
    fun other apart => setWaitPriority_of_ne prepared apart aggregation
  have enqueued : state.Enqueued (prepared.setWaitPriority owner aggregation) thread queue :=
    { waitQueue := rfl
      waitOperations := rfl
      owner := rfl
      freeChain := rfl
      operations := rfl
      perm := by
        have queued : (prepared.setWaitPriority owner aggregation).queuePriority queue =
            .initializeOne state.priority thread := setQueuePriority_self _ queue _
        rw [empty, queued]
        exact .rfl
      others := fun other apart => setQueuePriority_of_ne _ apart _
      nodes := fun other node => by
        by_cases same : other = owner
        · subst same
          rw [ofOwner.mem_iff]
          simp
        · rw [ofOther other same] }
  have inherits : ∀ other inner, (prepared.setWaitPriority owner aggregation).Inherits other inner ↔
      (other = owner ∧ inner = queue) ∨ state.Inherits other inner := by
    intro other inner
    unfold Inherits
    rw [enqueued.operations, enqueued.owner]
    by_cases same : inner = queue
    · subst same
      have occupied : ((prepared.setWaitPriority owner aggregation).queuePriority
          inner).contributors ≠ [] :=
        List.ne_nil_of_mem (enqueued.perm.mem_iff.mpr List.mem_cons_self)
      simp only [owns, Option.some.injEq, inherit, ne_eq, occupied, empty, not_true_eq_false,
        not_false_eq_true, and_true, true_and, and_false, or_false, eq_comm]
    · rw [enqueued.others inner same]
      simp only [same, and_false, false_or]
  have linked : (prepared.setWaitPriority owner aggregation).Linked fun _ => False := by
    refine enqueued.linked settled.linked ready (by simp [owns]) avoids (fun other inner => ?_)
      fun {other inner} inherited => ?_
    · rw [inherits]
      by_cases same : other = owner
      · subst same
        rw [ofOwner.mem_iff, List.mem_cons, settled.linked.contributes]
        simp
      · rw [ofOther other same, settled.linked.contributes]
        simp [same]
    · rcases (inherits other inner).mp inherited with ⟨rfl, rfl⟩ | before
      · exact update_self ..
      · have apart : inner ≠ queue := by
          rintro rfl
          exact before.2.2 empty
        exact (update_of_ne apart ..).trans (settled.linked.scheduler before)
  have queues : ∀ inner, prepared.QueueOrdered inner := by
    intro inner
    by_cases same : inner = queue
    · subst same
      refine ⟨fun _ => ?_, fun byPriority => (nomatch inherit.symm.trans byPriority)⟩
      rw [setQueuePriority_self]
      exact PriorityAggregation.initializeOne_exact thread
    · exact (settled.ordered.queues inner).congr rfl (setQueuePriority_of_ne _ same _)
        fun _ _ => rfl
  have acts : prepared.Acts owner aggregation changes fun _ => False :=
    { except :=
        { threads := fun {other} _ => (settled.ordered.threads other).congr (contribution other)
          queues := queues }
      exact := exact
      same := kept
      linked := linked
      stays := fun left => left }
  obtain ⟨after, enough, ends, settledAfter⟩ := acts.settles first rfl
  refine ⟨after, enough, fun fuel enough => ?_, settledAfter⟩
  have inherit' : (state.inserting thread queue).operations queue = .priorityInherit := inherit
  have owns' : (state.inserting thread queue).owner queue = some owner := owns
  simp only [doInitialize, inherit', owns', Option.bind_some]
  exact ends fuel enough

theorem Settled.inheritEnqueue (inherit : state.operations queue = .priorityInherit)
    (occupied : (state.queuePriority queue).contributors ≠ []) :
    ∃ after enough, (∀ fuel ≥ enough,
      (state.inserting thread queue).doEnqueue fuel queue thread = some after) ∧ after.Settled := by
  have fresh : thread ∉ (state.queuePriority queue).contributors := by
    intro inside
    cases ready.symm.trans (settled.linked.waiting inside)
  have exactQueue := (settled.ordered.queues queue).inherit inherit
  obtain ⟨exact, perm, kept⟩ := exactQueue.nonEmptyInsert occupied fresh
  generalize inserts : (state.queuePriority queue).nonEmptyInsert state.priority thread = result
    at exact perm kept
  obtain ⟨aggregation, changes⟩ := result
  have enqueued := state.enqueued_setQueuePriority perm
  have inherits := enqueued.inherits_iff fun _ => occupied
  have linked := enqueued.linked settled.linked ready (by simp [owns]) avoids
    (fun other inner => by
      rw [inherits]
      exact settled.linked.contributes other inner)
    fun {other inner} inherited => settled.linked.scheduler ((inherits other inner).mp inherited)
  have queues : ∀ inner,
      ((state.inserting thread queue).setQueuePriority queue aggregation).QueueOrdered inner := by
    intro inner
    by_cases same : inner = queue
    · subst same
      refine ⟨fun _ => ?_, fun byPriority => (nomatch inherit.symm.trans byPriority)⟩
      rw [setQueuePriority_self]
      exact exact
    · exact (settled.ordered.queues inner).inserting thread same aggregation
  have inserts' : ((state.inserting thread queue).queuePriority queue).nonEmptyInsert
      (state.inserting thread queue).priority thread = (aggregation, changes) := inserts
  have inherit' : (state.inserting thread queue).operations queue = .priorityInherit := inherit
  have owns' : (state.inserting thread queue).owner queue = some owner := owns
  cases changes with
  | none =>
    have contribution :
        ((state.inserting thread queue).setQueuePriority queue aggregation).contribution =
          (state.inserting thread queue).contribution :=
      setQueuePriority_contribution_same (kept rfl)
    refine ⟨_, 0, fun fuel _ => ?_, linked, fun other => ?_, queues⟩
    · simp only [doEnqueue, inherit', inserts']
    · rw [contribution]
      exact settled.ordered.threads other
  | some order =>
    have contributes : ∀ other inner,
        .queue inner ∈ ((state.inserting thread queue).waitPriority other).contributors ↔
          (state.inserting thread queue).Inherits other inner := settled.linked.contributes
    obtain ⟨except, opened⟩ := OrderedExcept.setQueuePriority contributes
      settled.ordered.threads ⟨inherit, owns, occupied⟩ queues
    have carries : ((state.inserting thread queue).setQueuePriority queue aggregation).Carries
        thread ⟨owner, .queue queue, .change⟩ :=
      ⟨⟨queue, update_self .., owns, rfl⟩, rfl, except, opened⟩
    obtain ⟨_, _, first, _, acts⟩ := carries.acts linked (fun left => left) .last
    obtain ⟨after, enough, ends, settledAfter⟩ := acts.settles first rfl
    refine ⟨after, enough, fun fuel enough => ?_, settledAfter⟩
    simp only [doEnqueue, inherit', inserts', owns', Option.bind_some]
    exact ends fuel enough

theorem Settled.doInitialize (empty : (state.queuePriority queue).contributors = []) :
    ∃ after enough, (∀ fuel ≥ enough,
      (state.inserting thread queue).doInitialize fuel queue thread = some after) ∧
        after.Settled := by
  have owned : state.owner queue ≠ none := by simp [owns]
  have alone : ∀ priority, (⟨priority, [thread]⟩ : PriorityAggregation Thread).contributors.Perm
      (thread :: (state.queuePriority queue).contributors) := by
    intro priority
    rw [empty]
  cases kind : state.operations queue with
  | default => exact absurd kind (settled.linked.used queue)
  | fifo =>
    have kept := settled.insert ready owned avoids (by simp [kind])
      (alone (state.queuePriority queue).priority) (by simp [kind])
    have kind' : (state.inserting thread queue).operations queue = .fifo := kind
    exact ⟨_, 0, fun fuel _ => by simp only [ThreadQueues.doInitialize, kind']; rfl, kept⟩
  | priority =>
    have kept := settled.insert ready owned avoids (by simp [kind])
      (alone (state.priority thread)) fun _ => List.pairwise_singleton _ thread
    have kind' : (state.inserting thread queue).operations queue = .priority := kind
    exact ⟨_, 0, fun fuel _ => by simp only [ThreadQueues.doInitialize, kind']; rfl, kept⟩
  | priorityInherit => exact settled.inheritInitialize ready owns avoids kind empty

theorem Settled.doEnqueue (occupied : (state.queuePriority queue).contributors ≠ []) :
    ∃ after enough, (∀ fuel ≥ enough,
      (state.inserting thread queue).doEnqueue fuel queue thread = some after) ∧ after.Settled := by
  have owned : state.owner queue ≠ none := by simp [owns]
  cases kind : state.operations queue with
  | default => exact absurd kind (settled.linked.used queue)
  | fifo =>
    have perm : (⟨(state.queuePriority queue).priority,
        (state.queuePriority queue).contributors ++ [thread]⟩ :
          PriorityAggregation Thread).contributors.Perm
        (thread :: (state.queuePriority queue).contributors) :=
      List.perm_append_singleton thread _
    have kept := settled.insert ready owned avoids (by simp [kind]) perm (by simp [kind])
    have kind' : (state.inserting thread queue).operations queue = .fifo := kind
    exact ⟨_, 0, fun fuel _ => by simp only [ThreadQueues.doEnqueue, kind']; rfl, kept⟩
  | priority =>
    have kept := settled.insert ready owned avoids (by simp [kind])
      (PriorityAggregation.plainInsert_perm (state.queuePriority queue) thread)
      fun byPriority => PriorityAggregation.pairwise_orderedInsert
        ((settled.ordered.queues queue).sorted byPriority) thread
    have kind' : (state.inserting thread queue).operations queue = .priority := kind
    exact ⟨_, 0, fun fuel _ => by simp only [ThreadQueues.doEnqueue, kind']; rfl, kept⟩
  | priorityInherit => exact settled.inheritEnqueue ready owns avoids kind occupied

theorem Settled.queueEnqueue :
    ∃ after enough, (∀ fuel ≥ enough,
      ((state.threadWaitClaim thread queue).clearPriorityUpdates.threadWaitClaimFinalize thread
        (state.operations queue)).queueEnqueue fuel queue thread = some after) ∧
      after.Settled := by
  have free := settled.linked.free queue
  by_cases first : state.freeChain queue = 0
  · have empty : (state.queuePriority queue).contributors = [] :=
      List.length_eq_zero_iff.mp (free.symm.trans first)
    obtain ⟨after, enough, ends, kept⟩ := settled.doInitialize ready owns avoids empty
    exact ⟨after, enough, fun fuel enough => (if_pos first).trans (ends fuel enough), kept⟩
  · have occupied : (state.queuePriority queue).contributors ≠ [] :=
      fun empty => first (free.trans (List.length_eq_zero_iff.mpr empty))
    obtain ⟨after, enough, ends, kept⟩ := settled.doEnqueue ready owns avoids occupied
    exact ⟨after, enough, fun fuel enough => (if_neg first).trans (ends fuel enough), kept⟩

end Enqueueing

omit [DecidableEq Queue] [DecidableEq Node] in
theorem Linked.restore_claim (linked : state.Linked fun _ => False)
    (ready : state.waitQueue thread = none) (queue : Queue) :
    (state.threadWaitClaim thread queue).threadWaitRestoreDefault thread = state := by
  have operations := linked.passed thread
  rw [ready, Option.elim_none] at operations
  unfold threadWaitClaim threadWaitRestoreDefault
  simp only [update_idem]
  rw [← ready, ← operations, update_eq_self, update_eq_self]

/-- A thread waits, or is refused for a deadlock and nothing changes. -/
theorem Settled.threadQueueEnqueue (settled : state.Settled) {owner : Thread}
    (ready : state.waitQueue thread = none) (owns : state.owner queue = some owner) :
    ∃ after outcome enough, (∀ fuel ≥ enough,
        state.threadQueueEnqueue fuel queue thread = some (after, outcome)) ∧ after.Settled ∧
      (outcome = .deadlock ↔ Reaches state.waitsFor (.inr queue) (.inl thread)) ∧
      (outcome = .deadlock → after = state) := by
  obtain ⟨status, enough, walks, found⟩ := pathAcquire_exact settled.linked.ends thread queue
  have claimed : ∀ fuel ≥ enough,
      (state.threadWaitClaim thread queue).pathAcquire thread fuel queue = some status := by
    intro fuel enough
    rw [pathAcquire_threadWaitClaim]
    exact walks fuel enough
  cases status with
  | deadlockDetected =>
    have restored := settled.linked.restore_claim ready queue
    refine ⟨state, .deadlock, enough, fun fuel enough => ?_, settled,
      ⟨fun _ => found.mp rfl, fun _ => rfl⟩, fun _ => rfl⟩
    simp only [ThreadQueues.threadQueueEnqueue, claimed fuel enough, restored]
  | noDeadlock =>
    have avoids : ¬ Reaches state.waitsFor (.inr queue) (.inl thread) :=
      fun reaches => nomatch found.mpr reaches
    obtain ⟨after, enoughAfter, ends, kept⟩ := settled.queueEnqueue ready owns avoids
    refine ⟨after, .blocked, max enough enoughAfter, fun fuel large => ?_, kept,
      ⟨fun same => (nomatch same), fun reaches => absurd reaches avoids⟩,
      fun same => (nomatch same)⟩
    have walked := claimed fuel ((Nat.le_max_left ..).trans large)
    have inserted := ends fuel ((Nat.le_max_right ..).trans large)
    simp only [ThreadQueues.threadQueueEnqueue, walked, inserted, Option.map_some]

end ThreadQueues

end RTContainer.Score
