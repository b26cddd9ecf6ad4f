import RTContainer.Score.ThreadQueueRuns

/-! Deadlock detection. No run of the operations on the threads and their queues closes a
cycle, so the walk along the owners comes to an end, and it refuses exactly the threads
that would close one. -/

set_option autoImplicit false

namespace RTContainer.Score

open Walk Machine

variable {Thread Queue Node : Type} [DecidableEq Thread] [DecidableEq Queue] [DecidableEq Node]

/-- The graph from the threads to the queues that they wait on and from the queues to their
owners has no cycle, every walk of `_Thread_queue_Path_acquire` ends, and
`_Thread_queue_Enqueue` reports a deadlock exactly for a thread that would close a cycle. -/
structure ThreadQueues.DetectsDeadlocks (state : ThreadQueues Thread Queue Node) : Prop where
  acyclic : Acyclic state.waitsFor
  ends : ∀ thread queue, ∃ status enough, ∀ fuel ≥ enough,
    state.pathAcquire thread fuel queue = some status
  detects : ∀ thread queue, state.waitQueue thread = none → state.owner queue ≠ none →
    ∃ after outcome enough,
      (∀ fuel ≥ enough, state.threadQueueEnqueue fuel queue thread = some (after, outcome)) ∧
      (outcome = .deadlock ↔
        ¬ Acyclic (Function.update state.waitsFor (.inl thread) (some (.inr queue)))) ∧
      (outcome = .deadlock → after = state)

theorem ThreadQueues.Settled.detectsDeadlocks {state : ThreadQueues Thread Queue Node}
    (settled : state.Settled) : state.DetectsDeadlocks where
  acyclic := settled.linked.ends.acyclic
  ends thread queue := by
    obtain ⟨status, enough, walks, _⟩ := pathAcquire_exact settled.linked.ends thread queue
    exact ⟨status, enough, walks⟩
  detects thread queue ready owned := by
    obtain ⟨owner, owns⟩ := Option.ne_none_iff_exists'.mp owned
    obtain ⟨after, outcome, enough, ends, _, found, kept⟩ := settled.threadQueueEnqueue ready owns
    refine ⟨after, outcome, enough, ends, ?_, kept⟩
    rw [found, settled.linked.ends.acyclic_update_some_iff, not_not]

/-- From the start with their real priorities, and with enough fuel for the walks, the
threads and their queues never come to a cycle. -/
theorem threadQueuesRun_detectsDeadlocks {realPriority : Thread → Node}
    (injective : Function.Injective realPriority) (nodePriority : Node → Nat)
    {operations : Queue → ThreadQueueOperations} (used : ∀ queue, operations queue ≠ .default)
    (calls : List (ThreadQueuesCall Thread Queue Node)) :
    ∃ enough, ∀ fuel ≥ enough,
      Meets (threadQueuesStep fuel) (fun state call => ∀ reached ∈ state, call.Possible reached)
        (some (.initial realPriority nodePriority operations)) calls →
      Throughout (threadQueuesStep fuel) (fun state => ∃ reached ∈ state, reached.DetectsDeadlocks)
        (some (.initial realPriority nodePriority operations)) calls := by
  have settled := ThreadQueues.initial_settled injective nodePriority used
  obtain ⟨enough, always⟩ := settled.run calls
  refine ⟨enough, fun fuel large met => (always fuel large met).imp ?_⟩
  rintro _ ⟨reached, is, kept⟩
  exact ⟨reached, is, kept.detectsDeadlocks⟩

theorem threadQueuesRun_two_mutexes : ∃ fuel,
    Throughout (threadQueuesStep fuel) (fun state => ∃ reached ∈ state, reached.DetectsDeadlocks)
      (some (.initial (fun thread : Nat => thread) (fun node => node)
        fun _ : Nat => .priorityInherit))
      [.seize 0 0, .seize 1 1, .enqueue 1 0, .enqueue 0 1, .surrender 0 0] := by
  have used : ∀ queue : Nat, (fun _ => .priorityInherit : Nat → ThreadQueueOperations) queue ≠
      .default := fun _ same => nomatch same
  obtain ⟨enough, always⟩ := threadQueuesRun_detectsDeadlocks (fun _ _ same => same)
    (fun node => node) used
    [.seize 0 0, .seize 1 1, .enqueue 1 0, .enqueue 0 1, .surrender 0 0]
  -- with ten more the walks of these calls compute, whatever is enough
  refine ⟨enough + 10, always (enough + 10) (Nat.le_add_right ..) ?_⟩
  refine ⟨?_, ?_, ?_, ?_, ?_, trivial⟩
  · rintro _ ⟨⟩
    exact ⟨rfl, rfl⟩
  · rintro _ ⟨⟩
    exact ⟨rfl, rfl⟩
  · rintro _ ⟨⟩
    exact ⟨rfl, Option.some_ne_none 0⟩
  · rintro _ ⟨⟩
    exact ⟨rfl, Option.some_ne_none 1⟩
  · rintro _ ⟨⟩
    exact rfl

end RTContainer.Score
