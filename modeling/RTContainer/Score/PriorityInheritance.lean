import RTContainer.Score.ThreadQueueRuns

/-! Priority inheritance. Between the operations every thread has the least priority of its
own nodes and of the threads that it holds up, and the threads of a queue are in the order
of these priorities. -/

set_option autoImplicit false

namespace RTContainer.Score

open Machine

namespace ThreadQueues

variable {Thread Queue Node : Type}

def WaitsOn (state : ThreadQueues Thread Queue Node) (waiter owner : Thread) : Prop :=
  ∃ queue, state.waitQueue waiter = some queue ∧ state.operations queue = .priorityInherit ∧
    state.owner queue = some owner

def ownPriorities (state : ThreadQueues Thread Queue Node) (thread : Thread) : Set Nat :=
  {priority | ∃ node, .node node ∈ (state.waitPriority thread).contributors ∧
    priority = state.nodePriority node}

/-- The aggregated priority of a thread is the least one of its own priorities and of the
threads that wait on queues that it owns, also of all that do so transitively, and a queue
that is not a FIFO has exactly its waiting threads, by their aggregated priorities. -/
structure InheritsExactly (state : ThreadQueues Thread Queue Node) : Prop where
  direct : ∀ thread, IsLeast (state.ownPriorities thread ∪
    {priority | ∃ waiter, state.WaitsOn waiter thread ∧ priority = state.priority waiter})
      (state.priority thread)
  transitive : ∀ thread, IsLeast (state.ownPriorities thread ∪
    {priority | ∃ waiter, Relation.TransGen state.WaitsOn waiter thread ∧
      priority = state.priority waiter}) (state.priority thread)
  waiting : ∀ queue thread, thread ∈ (state.queuePriority queue).contributors ↔
    state.waitQueue thread = some queue
  once : ∀ queue, (state.queuePriority queue).contributors.Nodup
  keyed : ∀ queue, state.operations queue ≠ .fifo →
    (state.queuePriority queue).contributors.Pairwise fun left right =>
      state.priority left ≤ state.priority right

variable {state : ThreadQueues Thread Queue Node}

section

variable (settled : state.Settled)
include settled

variable {thread waiter owner : Thread}

theorem Settled.contribution_queue {queue : Queue}
    (inside : .queue queue ∈ (state.waitPriority thread).contributors) :
    ∃ waiter, state.WaitsOn waiter thread ∧
      state.contribution (.queue queue) = state.priority waiter := by
  obtain ⟨inherit, owns, occupied⟩ := (settled.linked.contributes thread queue).mp inside
  have exact := (settled.ordered.queues queue).inherit inherit
  obtain ⟨waiter, isWaiter, equal⟩ := (exact.isLeast occupied).1
  exact ⟨waiter, ⟨queue, settled.linked.waiting isWaiter, inherit, owns⟩, equal⟩

theorem Settled.priority_le (waits : state.WaitsOn waiter owner) :
    state.priority owner ≤ state.priority waiter := by
  obtain ⟨queue, waits, inherit, owns⟩ := waits
  have isWaiter := settled.linked.present waits (fun leaving => leaving)
  have inside := (settled.linked.contributes owner queue).mpr
    ⟨inherit, owns, List.ne_nil_of_mem isWaiter⟩
  calc state.priority owner
      ≤ state.contribution (.queue queue) := (settled.ordered.threads owner).le inside
    _ ≤ state.priority waiter := ((settled.ordered.queues queue).inherit inherit).le isWaiter

theorem Settled.priority_le_trans (waits : Relation.TransGen state.WaitsOn waiter owner) :
    state.priority owner ≤ state.priority waiter := by
  induction waits with
  | single first => exact settled.priority_le first
  | tail _ last ih => exact (settled.priority_le last).trans ih

theorem Settled.ownPriorities_le {priority : Nat} (own : priority ∈ state.ownPriorities thread) :
    state.priority thread ≤ priority := by
  obtain ⟨node, inside, rfl⟩ := own
  exact (settled.ordered.threads thread).le inside

theorem Settled.priority_mem (thread : Thread) :
    state.priority thread ∈ state.ownPriorities thread ∪
      {priority | ∃ waiter, state.WaitsOn waiter thread ∧ priority = state.priority waiter} := by
  obtain ⟨real, isReal⟩ := settled.linked.real thread
  obtain ⟨contributor, inside, equal⟩ :=
    ((settled.ordered.threads thread).isLeast (List.ne_nil_of_mem isReal)).1
  cases contributor with
  | node node => exact .inl ⟨node, inside, equal⟩
  | queue queue =>
    obtain ⟨waiter, waits, brings⟩ := settled.contribution_queue inside
    exact .inr ⟨waiter, waits, equal.trans brings⟩

theorem Settled.inheritsExactly : state.InheritsExactly where
  direct thread := by
    refine ⟨settled.priority_mem thread, ?_⟩
    rintro priority (own | ⟨waiter, waits, rfl⟩)
    · exact settled.ownPriorities_le own
    · exact settled.priority_le waits
  transitive thread := by
    constructor
    · rcases settled.priority_mem thread with own | ⟨waiter, waits, equal⟩
      · exact .inl own
      · exact .inr ⟨waiter, .single waits, equal⟩
    · rintro priority (own | ⟨waiter, waits, rfl⟩)
      · exact settled.ownPriorities_le own
      · exact settled.priority_le_trans waits
  waiting queue thread :=
    { mp := settled.linked.waiting
      mpr := fun waits => settled.linked.present waits fun leaving => leaving }
  once := settled.linked.once
  keyed queue apart := by
    cases kind : state.operations queue with
    | default => exact absurd kind (settled.linked.used queue)
    | fifo => exact absurd kind apart
    | priority => exact (settled.ordered.queues queue).sorted kind
    | priorityInherit => exact ((settled.ordered.queues queue).inherit kind).sorted

end

end ThreadQueues

variable {Thread Queue Node : Type} [DecidableEq Thread] [DecidableEq Queue] [DecidableEq Node]

/-- From the start with their real priorities, and with enough fuel for the walks, the
threads inherit exactly the priorities of the threads that wait for them. -/
theorem threadQueuesRun_inheritsExactly {realPriority : Thread → Node}
    (injective : Function.Injective realPriority) (nodePriority : Node → Nat)
    {operations : Queue → ThreadQueueOperations} (used : ∀ queue, operations queue ≠ .default)
    (calls : List (ThreadQueuesCall Thread Queue Node)) :
    ∃ enough, ∀ fuel ≥ enough,
      Meets (threadQueuesStep fuel) (fun state call => ∀ reached ∈ state, call.Possible reached)
        (some (.initial realPriority nodePriority operations)) calls →
      Throughout (threadQueuesStep fuel) (fun state => ∃ reached ∈ state, reached.InheritsExactly)
        (some (.initial realPriority nodePriority operations)) calls := by
  have settled := ThreadQueues.initial_settled injective nodePriority used
  obtain ⟨enough, always⟩ := settled.run calls
  refine ⟨enough, fun fuel large met => (always fuel large met).imp ?_⟩
  rintro _ ⟨reached, is, kept⟩
  exact ⟨reached, is, kept.inheritsExactly⟩

theorem threadQueuesRun_chain_inherits : ∃ fuel,
    Throughout (threadQueuesStep fuel) (fun state => ∃ reached ∈ state, reached.InheritsExactly)
      (some (.initial (fun thread : Nat => thread) (fun node => 9 - node)
        fun _ : Nat => .priorityInherit))
      [.seize 0 0, .seize 1 1, .priorityChange 2 2 1 .last, .enqueue 1 0, .enqueue 2 1,
        .surrender 0 0, .extract 2] := by
  have used : ∀ queue : Nat, (fun _ => .priorityInherit : Nat → ThreadQueueOperations) queue ≠
      .default := fun _ same => nomatch same
  obtain ⟨enough, always⟩ := threadQueuesRun_inheritsExactly (fun _ _ same => same)
    (fun node => 9 - node) used
    [.seize 0 0, .seize 1 1, .priorityChange 2 2 1 .last, .enqueue 1 0, .enqueue 2 1,
      .surrender 0 0, .extract 2]
  -- with ten more the walks of these calls compute, whatever is enough
  refine ⟨enough + 10, always (enough + 10) (Nat.le_add_right ..) ?_⟩
  refine ⟨?_, ?_, ?_, ?_, ?_, ?_, ?_, trivial⟩
  · rintro _ ⟨⟩
    exact ⟨rfl, rfl⟩
  · rintro _ ⟨⟩
    exact ⟨rfl, rfl⟩
  · rintro _ ⟨⟩ other inside
    exact (PriorityContributor.node.inj (List.mem_singleton.mp inside)).symm
  · rintro _ ⟨⟩
    exact ⟨rfl, Option.some_ne_none 0⟩
  · rintro _ ⟨⟩
    exact ⟨rfl, Option.some_ne_none 1⟩
  · rintro _ ⟨⟩
    exact rfl
  · rintro _ ⟨⟩
    trivial

end RTContainer.Score
