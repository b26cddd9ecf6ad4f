import RTContainer.Lib.Walk
import RTContainer.Score.ThreadQueue

/-! What the priority actions leave behind: the aggregations along the chain of owners are
exact again, and nothing else changes. -/

set_option autoImplicit false

namespace RTContainer.Score

open Walk Function

namespace ThreadQueues

variable {Thread Queue Node : Type}

def waitsFor (state : ThreadQueues Thread Queue Node) : Thread ⊕ Queue → Option (Thread ⊕ Queue)
  | .inl thread => (state.waitQueue thread).map .inr
  | .inr queue => (state.owner queue).map .inl

variable {state after : ThreadQueues Thread Queue Node} {thread owner : Thread} {queue : Queue}

theorem waitsFor_inl (waits : state.waitQueue thread = some queue) :
    state.waitsFor (.inl thread) = some (.inr queue) := by
  simp [waitsFor, waits]

theorem waitsFor_inl_none (ready : state.waitQueue thread = none) :
    state.waitsFor (.inl thread) = none := by
  simp [waitsFor, ready]

theorem waitsFor_inr (owns : state.owner queue = some owner) :
    state.waitsFor (.inr queue) = some (.inl owner) := by
  simp [waitsFor, owns]

theorem waitsFor_inr_none (free : state.owner queue = none) : state.waitsFor (.inr queue) = none := by
  simp [waitsFor, free]

theorem follows_owner (waits : state.waitQueue thread = some queue)
    (owns : state.owner queue = some owner) :
    Relation.TransGen (Step state.waitsFor) (.inl thread) (.inl owner) :=
  .head (waitsFor_inl waits) (.single (waitsFor_inr owns))

def Inherits (state : ThreadQueues Thread Queue Node) (thread : Thread) (queue : Queue) : Prop :=
  state.operations queue = .priorityInherit ∧ state.owner queue = some thread ∧
    (state.queuePriority queue).contributors ≠ []

/-- The links between the threads and the queues. A thread that is leaving its queue is no
longer on it. -/
structure Linked (state : ThreadQueues Thread Queue Node) (leaving : Thread → Prop) : Prop where
  waiting : ∀ {thread queue}, thread ∈ (state.queuePriority queue).contributors →
    state.waitQueue thread = some queue
  present : ∀ {thread queue}, state.waitQueue thread = some queue → ¬ leaving thread →
    thread ∈ (state.queuePriority queue).contributors
  passed : ∀ thread, state.waitOperations thread =
    (state.waitQueue thread).elim .default state.operations
  used : ∀ queue, state.operations queue ≠ .default
  free : ∀ queue, state.freeChain queue = (state.queuePriority queue).contributors.length
  once : ∀ queue, (state.queuePriority queue).contributors.Nodup
  owned : ∀ {queue}, (state.queuePriority queue).contributors ≠ [] → state.owner queue ≠ none
  contributes : ∀ thread queue,
    .queue queue ∈ (state.waitPriority thread).contributors ↔ state.Inherits thread queue
  scheduler : ∀ {thread queue}, state.Inherits thread queue →
    state.schedulerNode queue = some thread
  active : ∀ {node thread other}, .node node ∈ (state.waitPriority thread).contributors →
    .node node ∈ (state.waitPriority other).contributors → thread = other
  real : ∀ thread, ∃ node, .node node ∈ (state.waitPriority thread).contributors
  ends : Ends state.waitsFor

structure QueueOrdered (state : ThreadQueues Thread Queue Node) (queue : Queue) : Prop where
  inherit : state.operations queue = .priorityInherit →
    (state.queuePriority queue).Exact state.priority
  sorted : state.operations queue = .priority →
    (state.queuePriority queue).contributors.Pairwise fun left right =>
      state.priority left ≤ state.priority right

structure Ordered (state : ThreadQueues Thread Queue Node) : Prop where
  threads : ∀ thread, (state.waitPriority thread).Exact state.contribution
  queues : ∀ queue, state.QueueOrdered queue

structure OrderedExcept (state : ThreadQueues Thread Queue Node) (open_ : Thread) : Prop where
  threads : ∀ {thread}, thread ≠ open_ → (state.waitPriority thread).Exact state.contribution
  queues : ∀ queue, state.QueueOrdered queue

structure SameLinks (state after : ThreadQueues Thread Queue Node) : Prop where
  waitQueue : after.waitQueue = state.waitQueue
  waitOperations : after.waitOperations = state.waitOperations
  nodePriority : after.nodePriority = state.nodePriority
  owner : after.owner = state.owner
  freeChain : after.freeChain = state.freeChain
  schedulerNode : after.schedulerNode = state.schedulerNode
  operations : after.operations = state.operations
  threads : ∀ thread, (after.waitPriority thread).contributors.Perm
    (state.waitPriority thread).contributors
  queues : ∀ queue, (after.queuePriority queue).contributors.Perm
    (state.queuePriority queue).contributors

theorem SameLinks.refl (state : ThreadQueues Thread Queue Node) : state.SameLinks state where
  waitQueue := rfl
  waitOperations := rfl
  nodePriority := rfl
  owner := rfl
  freeChain := rfl
  schedulerNode := rfl
  operations := rfl
  threads _ := .rfl
  queues _ := .rfl

theorem SameLinks.trans {middle : ThreadQueues Thread Queue Node} (first : state.SameLinks middle)
    (second : middle.SameLinks after) : state.SameLinks after where
  waitQueue := second.waitQueue.trans first.waitQueue
  waitOperations := second.waitOperations.trans first.waitOperations
  nodePriority := second.nodePriority.trans first.nodePriority
  owner := second.owner.trans first.owner
  freeChain := second.freeChain.trans first.freeChain
  schedulerNode := second.schedulerNode.trans first.schedulerNode
  operations := second.operations.trans first.operations
  threads thread := (second.threads thread).trans (first.threads thread)
  queues queue := (second.queues queue).trans (first.queues queue)

theorem SameLinks.waitsFor_eq (same : state.SameLinks after) : after.waitsFor = state.waitsFor := by
  funext place
  cases place with
  | inl thread => simp only [waitsFor, same.waitQueue]
  | inr queue => simp only [waitsFor, same.owner]

theorem SameLinks.occupied_iff (same : state.SameLinks after) (queue : Queue) :
    (after.queuePriority queue).contributors ≠ [] ↔
      (state.queuePriority queue).contributors ≠ [] := by
  rw [ne_eq, ne_eq, ← List.length_eq_zero_iff, ← List.length_eq_zero_iff,
    (same.queues queue).length_eq]

theorem SameLinks.inherits_iff (same : state.SameLinks after) (thread : Thread) (queue : Queue) :
    after.Inherits thread queue ↔ state.Inherits thread queue := by
  unfold Inherits
  rw [same.operations, same.owner, same.occupied_iff]

/-- Links stay when priorities change. -/
theorem Linked.ofSame {leaving : Thread → Prop} (linked : state.Linked leaving)
    (same : state.SameLinks after) : after.Linked leaving where
  waiting {thread queue} inside := by
    rw [same.waitQueue]
    exact linked.waiting ((same.queues queue).mem_iff.mp inside)
  present {thread queue} waits stays := by
    rw [same.waitQueue] at waits
    exact (same.queues queue).mem_iff.mpr (linked.present waits stays)
  passed thread := by
    rw [same.waitOperations, same.waitQueue, same.operations]
    exact linked.passed thread
  used queue := by
    rw [same.operations]
    exact linked.used queue
  free queue := by
    rw [same.freeChain, (same.queues queue).length_eq]
    exact linked.free queue
  once queue := (same.queues queue).nodup_iff.mpr (linked.once queue)
  owned {queue} occupied := by
    rw [same.owner]
    exact linked.owned ((same.occupied_iff queue).mp occupied)
  contributes thread queue := by
    rw [same.inherits_iff, (same.threads thread).mem_iff]
    exact linked.contributes thread queue
  scheduler {thread queue} inherits := by
    rw [same.schedulerNode]
    exact linked.scheduler ((same.inherits_iff thread queue).mp inherits)
  active {node thread other} inside insideOther :=
    linked.active ((same.threads thread).mem_iff.mp inside)
      ((same.threads other).mem_iff.mp insideOther)
  real thread := by
    obtain ⟨node, inside⟩ := linked.real thread
    exact ⟨node, (same.threads thread).mem_iff.mpr inside⟩
  ends := by
    rw [same.waitsFor_eq]
    exact linked.ends

section Threads

variable [DecidableEq Thread]

@[simp] theorem setWaitPriority_self (state : ThreadQueues Thread Queue Node) (thread : Thread)
    (aggregation : PriorityAggregation (PriorityContributor Queue Node)) :
    (state.setWaitPriority thread aggregation).waitPriority thread = aggregation :=
  update_self ..

variable {thread other : Thread}

theorem setWaitPriority_of_ne (state : ThreadQueues Thread Queue Node) (apart : other ≠ thread)
    (aggregation : PriorityAggregation (PriorityContributor Queue Node)) :
    (state.setWaitPriority thread aggregation).waitPriority other = state.waitPriority other :=
  update_of_ne apart ..

theorem setWaitPriority_priority_of_ne (state : ThreadQueues Thread Queue Node)
    (apart : other ≠ thread) (aggregation : PriorityAggregation (PriorityContributor Queue Node)) :
    (state.setWaitPriority thread aggregation).priority other = state.priority other :=
  congrArg (·.priority) (state.setWaitPriority_of_ne apart aggregation)

theorem SameLinks.setWaitPriority (state : ThreadQueues Thread Queue Node)
    {aggregation : PriorityAggregation (PriorityContributor Queue Node)}
    (perm : aggregation.contributors.Perm (state.waitPriority thread).contributors) :
    state.SameLinks (state.setWaitPriority thread aggregation) where
  waitQueue := rfl
  waitOperations := rfl
  nodePriority := rfl
  owner := rfl
  freeChain := rfl
  schedulerNode := rfl
  operations := rfl
  threads other := by
    by_cases same : other = thread
    · subst same
      rw [setWaitPriority_self]
      exact perm
    · rw [setWaitPriority_of_ne state same]
  queues _ := .rfl

end Threads

section Queues

variable [DecidableEq Queue]

@[simp] theorem setQueuePriority_self (state : ThreadQueues Thread Queue Node) (queue : Queue)
    (aggregation : PriorityAggregation Thread) :
    (state.setQueuePriority queue aggregation).queuePriority queue = aggregation :=
  update_self ..

theorem setQueuePriority_of_ne (state : ThreadQueues Thread Queue Node) {queue other : Queue}
    (apart : other ≠ queue) (aggregation : PriorityAggregation Thread) :
    (state.setQueuePriority queue aggregation).queuePriority other = state.queuePriority other :=
  update_of_ne apart ..

theorem SameLinks.setQueuePriority (state : ThreadQueues Thread Queue Node) {queue : Queue}
    {aggregation : PriorityAggregation Thread}
    (perm : aggregation.contributors.Perm (state.queuePriority queue).contributors) :
    state.SameLinks (state.setQueuePriority queue aggregation) where
  waitQueue := rfl
  waitOperations := rfl
  nodePriority := rfl
  owner := rfl
  freeChain := rfl
  schedulerNode := rfl
  operations := rfl
  threads _ := .rfl
  queues other := by
    by_cases same : other = queue
    · subst same
      rw [setQueuePriority_self]
      exact perm
    · rw [setQueuePriority_of_ne state same]

end Queues

theorem QueueOrdered.congr (ordered : state.QueueOrdered queue)
    (operations : after.operations = state.operations)
    (aggregation : after.queuePriority queue = state.queuePriority queue)
    (priority : ∀ thread ∈ (state.queuePriority queue).contributors,
      after.priority thread = state.priority thread) : after.QueueOrdered queue where
  inherit inherits := by
    rw [operations] at inherits
    rw [aggregation]
    exact (ordered.inherit inherits).congr priority
  sorted byPriority := by
    rw [operations] at byPriority
    rw [aggregation]
    refine (ordered.sorted byPriority).imp_of_mem fun insideLeft insideRight le => ?_
    rw [priority _ insideLeft, priority _ insideRight]
    exact le

section Actions

variable [DecidableEq Thread] {state : ThreadQueues Thread Queue Node} {leaving : Thread → Prop}

theorem SameLinks.updated (state : ThreadQueues Thread Queue Node) (thread updated : Thread)
    (groupOrder : PriorityGroupOrder) :
    state.SameLinks
      ((state.setSchedulerNodePriority thread groupOrder).addPriorityUpdate updated) where
  waitQueue := rfl
  waitOperations := rfl
  nodePriority := rfl
  owner := rfl
  freeChain := rfl
  schedulerNode := rfl
  operations := rfl
  threads _ := .rfl
  queues _ := .rfl

/-- A thread has an exact aggregation, and is in its queue with a priority that may have
changed. -/
structure Moved (state : ThreadQueues Thread Queue Node) (thread : Thread) : Prop where
  threads : ∀ other, (state.waitPriority other).Exact state.contribution
  queues : ∀ queue, state.waitQueue thread ≠ some queue → state.QueueOrdered queue
  own : ∀ queue, state.waitQueue thread = some queue → state.operations queue ≠ .fifo →
    (state.queuePriority queue).ExactExcept state.priority thread

variable {thread : Thread}

theorem Moved.updated (moved : state.Moved thread) (updated : Thread)
    (groupOrder : PriorityGroupOrder) :
    ((state.setSchedulerNodePriority thread groupOrder).addPriorityUpdate updated).Moved thread where
  __ := moved
  queues queue apart := (moved.queues queue apart).congr rfl rfl fun _ _ => rfl

theorem OrderedExcept.ordered (except : state.OrderedExcept thread)
    {aggregation : PriorityAggregation (PriorityContributor Queue Node)}
    (exact : aggregation.Exact state.contribution)
    (priority : aggregation.priority = state.priority thread) :
    (state.setWaitPriority thread aggregation).Ordered where
  threads other := by
    by_cases same : other = thread
    · subst same
      rw [setWaitPriority_self]
      exact exact
    · rw [setWaitPriority_of_ne state same]
      exact except.threads same
  queues queue := by
    refine (except.queues queue).congr rfl rfl fun other _ => ?_
    by_cases same : other = thread
    · subst same
      have updated := congrArg (·.priority) (state.setWaitPriority_self other aggregation)
      exact updated.trans priority
    · exact state.setWaitPriority_priority_of_ne same aggregation

theorem OrderedExcept.moved {thread : Thread} (except : state.OrderedExcept thread)
    {aggregation : PriorityAggregation (PriorityContributor Queue Node)}
    (linked : (state.setWaitPriority thread aggregation).Linked leaving)
    (stays : ¬ leaving thread) (exact : aggregation.Exact state.contribution) :
    (state.setWaitPriority thread aggregation).Moved thread where
  threads other := by
    by_cases same : other = thread
    · subst same
      rw [setWaitPriority_self]
      exact exact
    · rw [setWaitPriority_of_ne state same]
      exact except.threads same
  queues queue apart := by
    refine (except.queues queue).congr rfl rfl fun other inside => ?_
    refine state.setWaitPriority_priority_of_ne ?_ aggregation
    rintro rfl
    exact apart (linked.waiting inside)
  own queue waits notFifo := by
    have kept : ∀ other ∈ (state.queuePriority queue).contributors.erase thread,
        (state.setWaitPriority thread aggregation).priority other = state.priority other := by
      intro other inside
      refine state.setWaitPriority_priority_of_ne ?_ aggregation
      rintro rfl
      exact (linked.once queue).not_mem_erase inside
    have sorted : (state.queuePriority queue).contributors.Pairwise fun left right =>
        state.priority left ≤ state.priority right := by
      cases kind : state.operations queue with
      | default => exact absurd kind (linked.used queue)
      | fifo => exact absurd kind notFifo
      | priority => exact (except.queues queue).sorted kind
      | priorityInherit => exact ((except.queues queue).inherit kind).sorted
    refine ⟨linked.present waits stays, linked.once queue, ?_⟩
    refine (sorted.sublist List.erase_sublist).imp_of_mem fun insideLeft insideRight le => ?_
    rw [kept _ insideLeft, kept _ insideRight]
    exact le

end Actions

section Perform

variable [DecidableEq Thread] [DecidableEq Queue]
variable {state : ThreadQueues Thread Queue Node} {leaving : Thread → Prop}

section

omit [DecidableEq Thread]

theorem setQueuePriority_contribution (queue : Queue) (aggregation : PriorityAggregation Thread)
    {node : PriorityContributor Queue Node} (apart : node ≠ .queue queue) :
    (state.setQueuePriority queue aggregation).contribution node = state.contribution node := by
  cases node with
  | node node => rfl
  | queue other =>
    have distinct : other ≠ queue := fun same => apart (congrArg _ same)
    exact congrArg (·.priority) (state.setQueuePriority_of_ne distinct aggregation)

theorem setQueuePriority_contribution_same {queue : Queue}
    {aggregation : PriorityAggregation Thread}
    (priority : aggregation.priority = (state.queuePriority queue).priority) :
    (state.setQueuePriority queue aggregation).contribution = state.contribution := by
  funext node
  cases node with
  | node node => rfl
  | queue other =>
    by_cases same : other = queue
    · subst same
      have updated := congrArg (·.priority) (state.setQueuePriority_self other aggregation)
      exact updated.trans priority
    · exact congrArg (·.priority) (state.setQueuePriority_of_ne same aggregation)

theorem QueueOrdered.setQueuePriority {queue other : Queue} (apart : other ≠ queue)
    (ordered : state.QueueOrdered other) (aggregation : PriorityAggregation Thread) :
    (state.setQueuePriority queue aggregation).QueueOrdered other :=
  ordered.congr rfl (state.setQueuePriority_of_ne apart aggregation) fun _ _ => rfl

end

variable [DecidableEq Node]

structure Carries (state : ThreadQueues Thread Queue Node) (thread : Thread)
    (action : PriorityAction Thread Queue Node) : Prop where
  owner : ∃ queue, state.waitQueue thread = some queue ∧
    state.owner queue = some action.aggregation ∧ action.node = .queue queue
  change : action.type = .change
  except : state.OrderedExcept action.aggregation
  changed : (state.waitPriority action.aggregation).ExactExcept state.contribution action.node

omit [DecidableEq Thread] in
theorem OrderedExcept.setQueuePriority
    (contributes : ∀ thread queue,
      .queue queue ∈ (state.waitPriority thread).contributors ↔ state.Inherits thread queue)
    (threads : ∀ thread, (state.waitPriority thread).Exact state.contribution)
    {queue : Queue} {owner : Thread} (inherits : state.Inherits owner queue)
    {aggregation : PriorityAggregation Thread}
    (queues : ∀ other, (state.setQueuePriority queue aggregation).QueueOrdered other) :
    (state.setQueuePriority queue aggregation).OrderedExcept owner ∧
    (state.waitPriority owner).ExactExcept
      (state.setQueuePriority queue aggregation).contribution (.queue queue) := by
  have inside := (contributes owner queue).mpr inherits
  refine ⟨⟨fun {thread} apart => (threads thread).congr fun node isInside => ?_, queues⟩,
    inside, (threads owner).nodup, ?_⟩
  · refine setQueuePriority_contribution queue aggregation ?_
    rintro rfl
    have owns := ((contributes thread queue).mp isInside).2.1
    exact apart (Option.some.inj (owns.symm.trans inherits.2.1))
  · have kept : ∀ node ∈ (state.waitPriority owner).contributors.erase (.queue queue),
        (state.setQueuePriority queue aggregation).contribution node = state.contribution node := by
      intro node isInside
      refine setQueuePriority_contribution queue aggregation ?_
      rintro rfl
      exact (threads owner).nodup.not_mem_erase isInside
    refine ((threads owner).sorted.sublist List.erase_sublist).imp_of_mem
      fun insideLeft insideRight le => ?_
    rw [kept _ insideLeft, kept _ insideRight]
    exact le

variable {thread : Thread} {aggregation : PriorityAggregation (PriorityContributor Queue Node)}
variable {changes : Option PriorityGroupOrder} {action : PriorityAction Thread Queue Node}

/-- One step up the waits: the order is restored, or an action carries on. -/
theorem Moved.priorityActions (linked : state.Linked leaving) (moved : state.Moved thread) :
    ∃ after next, state.priorityActions (state.waitOperations thread) (state.waitQueue thread)
        thread = some (after, next) ∧ state.SameLinks after ∧ (next = none → after.Ordered) ∧
      ∀ action, next = some action → after.Carries thread action := by
  rw [linked.passed]
  cases waits : state.waitQueue thread with
  | none =>
    refine ⟨state, none, rfl, .refl state, fun _ => ⟨moved.threads, fun queue => ?_⟩,
      fun _ none => nomatch none⟩
    exact moved.queues queue (by simp [waits])
  | some queue =>
    rw [Option.elim_some]
    have elsewhere : ∀ other, other ≠ queue → state.QueueOrdered other := by
      intro other apart
      refine moved.queues other fun same => apart ?_
      exact (Option.some.inj (waits.symm.trans same)).symm
    cases kind : state.operations queue with
    | default => exact absurd kind (linked.used queue)
    | fifo =>
      refine ⟨state, none, rfl, .refl state, fun _ => ⟨moved.threads, fun other => ?_⟩,
        fun _ none => nomatch none⟩
      by_cases same : other = queue
      · subst same
        exact ⟨fun inherits => (nomatch kind.symm.trans inherits),
          fun byPriority => (nomatch kind.symm.trans byPriority)⟩
      · exact elsewhere other same
    | priority =>
      have own := moved.own queue waits (by simp [kind])
      refine ⟨_, none, rfl, .setQueuePriority state
        (PriorityAggregation.plainChanged_perm own.inside),
        fun _ => ⟨fun other => ?_, fun other => ?_⟩, fun _ none => nomatch none⟩
      · rw [setQueuePriority_contribution_same (PriorityAggregation.plainChanged_priority _ _)]
        exact moved.threads other
      · by_cases same : other = queue
        · subst same
          refine ⟨fun inherits => (nomatch kind.symm.trans inherits), fun _ => ?_⟩
          rw [setQueuePriority_self]
          exact own.plainChanged.2
        · exact (elsewhere other same).setQueuePriority same _
    | priorityInherit =>
      have own := moved.own queue waits (by simp [kind])
      have occupied := List.ne_nil_of_mem own.inside
      obtain ⟨owner, owns⟩ := Option.ne_none_iff_exists'.mp (linked.owned occupied)
      obtain ⟨exact, perm, kept⟩ := own.changed .last
      generalize moves : (state.queuePriority queue).changed state.priority thread .last =
        result at exact perm kept
      obtain ⟨aggregation, changes⟩ := result
      have queues : ∀ other, (state.setQueuePriority queue aggregation).QueueOrdered other := by
        intro other
        by_cases same : other = queue
        · subst same
          refine ⟨fun _ => ?_, fun byPriority => (nomatch kind.symm.trans byPriority)⟩
          rw [setQueuePriority_self]
          exact exact
        · exact (elsewhere other same).setQueuePriority same aggregation
      refine ⟨state.setQueuePriority queue aggregation,
        changes.map fun _ => ⟨owner, .queue queue, .change⟩, ?_,
        .setQueuePriority state perm, ?_, ?_⟩
      · simp only [ThreadQueues.priorityActions, Option.bind_some, owns, Option.map_some, moves]
      · intro unchanged
        refine ⟨fun other => ?_, queues⟩
        rw [setQueuePriority_contribution_same (kept (Option.map_eq_none_iff.mp unchanged))]
        exact moved.threads other
      · intro action changed
        obtain ⟨order, _, rfl⟩ := Option.map_eq_some_iff.mp changed
        obtain ⟨except, opened⟩ := OrderedExcept.setQueuePriority linked.contributes
          moved.threads
          ⟨kind, owns, occupied⟩ queues
        exact ⟨⟨queue, waits, owns, rfl⟩, rfl, except, opened⟩

structure Acts (state : ThreadQueues Thread Queue Node) (thread : Thread)
    (aggregation : PriorityAggregation (PriorityContributor Queue Node))
    (changes : Option PriorityGroupOrder) (leaving : Thread → Prop) : Prop where
  except : state.OrderedExcept thread
  exact : aggregation.Exact state.contribution
  same : changes = none → aggregation.priority = state.priority thread
  linked : (state.setWaitPriority thread aggregation).Linked leaving
  stays : ¬ leaving thread

theorem Acts.doPerformActions (acts : state.Acts thread aggregation changes leaving)
    {groupOrder : PriorityGroupOrder}
    (first : state.actOn action groupOrder = some (aggregation, changes))
    (own : action.aggregation = thread) :
    ∃ after next, state.doPerformActions thread (state.waitQueue thread)
        (state.waitOperations thread) groupOrder action = some (after, next) ∧
      (state.setWaitPriority thread aggregation).SameLinks after ∧
      (next = none → after.Ordered) ∧ ∀ action, next = some action → after.Carries thread action := by
  subst own
  unfold ThreadQueues.doPerformActions
  rw [first]
  cases changes with
  | none =>
    exact ⟨_, none, rfl, .refl _, fun _ => acts.except.ordered acts.exact (acts.same rfl),
      fun _ none => nomatch none⟩
  | some order =>
    have moved := (acts.except.moved acts.linked acts.stays acts.exact).updated
      action.aggregation order
    have same := SameLinks.updated (state.setWaitPriority action.aggregation aggregation)
      action.aggregation action.aggregation order
    obtain ⟨after, next, performs, sameAfter, ordered, carries⟩ :=
      moved.priorityActions (acts.linked.ofSame same)
    exact ⟨after, next, performs, same.trans sameAfter, ordered, carries⟩

omit [DecidableEq Thread] [DecidableEq Queue] [DecidableEq Node] in
theorem SameLinks.restored (state : ThreadQueues Thread Queue Node) (updateCount : Nat) :
    state.SameLinks (state.restorePriorityUpdates updateCount) where
  waitQueue := rfl
  waitOperations := rfl
  nodePriority := rfl
  owner := rfl
  freeChain := rfl
  schedulerNode := rfl
  operations := rfl
  threads _ := .rfl
  queues _ := .rfl

omit [DecidableEq Thread] in
theorem Carries.restored (carries : state.Carries thread action) (updateCount : Nat) :
    (state.restorePriorityUpdates updateCount).Carries thread action where
  __ := carries
  except :=
    { threads := carries.except.threads
      queues := fun queue => (carries.except.queues queue).congr rfl rfl fun _ _ => rfl }

theorem Carries.acts (linked : state.Linked leaving) (carries : state.Carries thread action)
    (stays : ¬ leaving action.aggregation) (groupOrder : PriorityGroupOrder) :
    ∃ aggregation changes, state.actOn action groupOrder = some (aggregation, changes) ∧
      state.SameLinks (state.setWaitPriority action.aggregation aggregation) ∧
      state.Acts action.aggregation aggregation changes leaving := by
  obtain ⟨exact, perm, kept⟩ := carries.changed.changed groupOrder
  have same := SameLinks.setWaitPriority state perm
  refine ⟨_, _, ?_, same, carries.except, exact, kept, linked.ofSame same, stays⟩
  unfold ThreadQueues.actOn
  rw [carries.change]

/-- The walk up the waits ends, and the priorities are exact. -/
theorem Acts.performActions (updateCount : Nat)
    (acts : state.Acts thread aggregation changes leaving)
    (first : state.actOn action .last = some (aggregation, changes))
    (own : action.aggregation = thread)
    (avoids : ∀ left, leaving left → ¬ Reaches state.waitsFor (.inl thread) (.inl left)) :
    ∃ after enough, (∀ fuel ≥ enough,
        performActions updateCount fuel state thread action = some after) ∧
      (state.setWaitPriority thread aggregation).SameLinks after ∧ after.Ordered := by
  generalize graph : state.waitsFor = next at avoids
  have ends : Ends next := graph ▸ acts.linked.ends
  generalize place : (Sum.inl thread : Thread ⊕ Queue) = node at avoids
  induction node using ends.induction generalizing state thread aggregation changes action with
  | step node ih =>
    subst place
    obtain ⟨performed, next?, performs, same, ordered, carries⟩ := acts.doPerformActions first own
    cases next? with
    | none =>
      refine ⟨performed, 1, fun fuel enough => ?_, same, ordered rfl⟩
      obtain ⟨fuel, rfl⟩ := Nat.exists_eq_add_of_le' enough
      simp only [ThreadQueues.performActions, performs]
    | some nextAction =>
      have restored := SameLinks.restored performed updateCount
      have sameRestored := same.trans restored
      have carriesOn := (carries nextAction rfl).restored updateCount
      obtain ⟨queue, waits, owns, isQueue⟩ := carriesOn.owner
      have graphAfter : (performed.restorePriorityUpdates updateCount).waitsFor = next :=
        sameRestored.waitsFor_eq.trans graph
      have follows := graphAfter ▸ follows_owner waits owns
      have stays : ¬ leaving nextAction.aggregation :=
        fun left => avoids _ left follows.to_reflTransGen
      obtain ⟨aggregation, changes, second, sameSecond, actsSecond⟩ :=
        carriesOn.acts (acts.linked.ofSame sameRestored) stays .last
      obtain ⟨after, enough, ends, sameAfter, orderedAfter⟩ := ih _ follows actsSecond second rfl
        graphAfter rfl fun left leaves reaches => avoids left leaves
          (follows.to_reflTransGen.trans reaches)
      refine ⟨after, enough + 1, fun fuel enough => ?_,
        (sameRestored.trans sameSecond).trans sameAfter, orderedAfter⟩
      obtain ⟨fuel, rfl⟩ := Nat.exists_eq_add_of_le' (Nat.le_of_add_left_le enough)
      have leads : (state.waitQueue thread).bind performed.owner = some nextAction.aggregation := by
        have waited : (performed.restorePriorityUpdates updateCount).waitQueue thread =
            state.waitQueue thread := congrFun sameRestored.waitQueue thread
        rw [← waited, waits]
        exact owns
      simp only [ThreadQueues.performActions, performs, leads]
      exact ends fuel (by omega)

end Perform

end ThreadQueues

end RTContainer.Score
