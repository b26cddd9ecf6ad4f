import RTContainer.Score.CoreCeilingMutex
import RTContainer.Score.ThreadQueueNodes
import RTContainer.Score.ThreadQueueRuns

/-! A ceiling mutex tests the ceiling when it is seized, and not when it is handed over. -/

set_option autoImplicit false

namespace RTContainer.Score

open Machine Function

namespace ThreadQueues

variable {Thread Queue Node : Type} [DecidableEq Thread] [DecidableEq Queue] [DecidableEq Node]
variable {state after : ThreadQueues Thread Queue Node}

omit [DecidableEq Thread] [DecidableEq Queue] [DecidableEq Node] in
theorem Settled.clearPriorityUpdates (settled : state.Settled) :
    state.clearPriorityUpdates.Settled where
  linked := settled.linked.ofSame ⟨rfl, rfl, rfl, rfl, rfl, rfl, rfl, fun _ => .rfl, fun _ => .rfl⟩
  ordered :=
    { threads := settled.ordered.threads
      queues := fun queue => (settled.ordered.queues queue).congr rfl rfl fun _ _ => rfl }

theorem threadPriorityApply_queues {fuel : Nat} {thread : Thread}
    {node : PriorityContributor Queue Node} {groupOrder : PriorityGroupOrder}
    {type : PriorityActionType} (ready : state.waitOperations thread = .default)
    (performs : state.threadPriorityApply fuel thread node groupOrder type = some after) :
    after.queuePriority = state.queuePriority ∧ after.freeChain = state.freeChain ∧
      after.waitQueue = state.waitQueue ∧ after.nodePriority = state.nodePriority := by
  unfold threadPriorityApply doPerformActions at performs
  rw [ready] at performs
  cases acts : state.actOn ⟨thread, node, type⟩ groupOrder with
  | none =>
    rw [acts] at performs
    cases performs
  | some result =>
    obtain ⟨aggregation, changes⟩ := result
    rw [acts] at performs
    cases changes with
    | none | some => exact Option.some.inj performs ▸ ⟨rfl, rfl, rfl, rfl⟩

omit [DecidableEq Thread] [DecidableEq Node] in
private theorem setOwner_self (state : ThreadQueues Thread Queue Node) (queue : Queue)
    (owner : Option Thread) : (state.setOwner queue owner).owner queue = owner :=
  update_self ..

variable {queue : Queue}

omit [DecidableEq Node] in
theorem Settled.disown (settled : state.Settled)
    (empty : (state.queuePriority queue).contributors = []) :
    (state.setOwner queue none).Settled where
  linked := by
    refine settled.linked.setOwner empty ?_
    rw [waitsFor_update_owner state (state.setOwner queue none) rfl rfl]
    exact settled.linked.ends.update_none _
  ordered := settled.ordered.setOwner queue none

def handOver (state : ThreadQueues Thread Queue Node) (queue : Queue) (first : Thread) :
    ThreadQueues Thread Queue Node :=
  let taken := (state.setOwner queue none).setFreeChain queue (state.freeChain queue - 1)
  ((taken.setQueuePriority queue ((state.queuePriority queue).plainExtract first)).setOwner queue
    (some first)).threadWaitRestoreDefault first

omit [DecidableEq Node] in
theorem Settled.handOver (settled : state.Settled) {queue : Queue} {first : Thread}
    (byPriority : state.operations queue = .priority)
    (isFirst : (state.queuePriority queue).getMinimumNode = some first) :
    (state.handOver queue first).Settled := by
  have inside : first ∈ (state.queuePriority queue).contributors := List.mem_of_mem_head? isFirst
  have waits := settled.linked.waiting inside
  have apart : state.operations queue ≠ .priorityInherit := by simp [byPriority]
  have surrendered : state.Surrendered (state.handOver queue first) first queue := by
    unfold ThreadQueues.handOver
    exact surrendered_of rfl rfl rfl rfl rfl rfl rfl fun _ _ => Iff.rfl
  exact surrendered.settled_plain settled waits apart rfl rfl rfl

theorem queueSurrender_of_priority {first : Thread}
    (byPriority : state.operations queue = .priority)
    (isFirst : (state.queuePriority queue).getMinimumNode = some first) (previousOwner : Thread) :
    (state.setOwner queue none).queueSurrender queue previousOwner =
      some (((state.setOwner queue none).setFreeChain queue
        (state.freeChain queue - 1)).setQueuePriority queue
          ((state.queuePriority queue).plainExtract first), first) := by
  have operations : (state.setOwner queue none).operations queue = .priority := byPriority
  have same : ((state.setOwner queue none).queuePriority queue).getMinimumNode = some first :=
    isFirst
  unfold queueSurrender
  rw [same, Option.bind_some]
  dsimp only
  rw [operations]
  rfl

end ThreadQueues

variable {Thread Queue Own : Type}

/-- The calls on other queues than the ceiling mutexes, and on other nodes than their ceilings. A
thread keeps one of its own nodes. -/
def ThreadQueuesCall.SparesCeilings (isCeiling : Queue → Prop)
    (threads : ThreadQueues Thread Queue (MutexPriorityNode Own Queue)) :
    ThreadQueuesCall Thread Queue (MutexPriorityNode Own Queue) → Prop
  | .seize _ queue | .enqueue _ queue | .surrender _ queue => ¬ isCeiling queue
  | .extract _ => True
  | .priorityAdd _ node _ | .priorityChange _ node _ _ => ∃ own, node = .own own
  | .priorityRemove thread node => ∃ own kept, node = .own own ∧ kept ≠ own ∧
      .node (.own kept) ∈ (threads.waitPriority thread).contributors

/-- What the callers keep to: a thread that seizes or surrenders is executing. -/
def CeilingMutexCall.Possible (isCeiling : Queue → Prop)
    (state : CeilingMutexes Thread Queue Own) : CeilingMutexCall Thread Queue Own → Prop
  | .seize mutex executing _ _ | .surrender mutex executing =>
    isCeiling mutex ∧ state.threads.waitQueue executing = none
  | .setPriority mutex _ => isCeiling mutex
  | .other call => call.Possible state.threads ∧ call.SparesCeilings isCeiling state.threads

namespace CeilingMutexes

structure ContainsCeilings (isCeiling : Queue → Prop) (state : CeilingMutexes Thread Queue Own) :
    Prop where
  contributes : ∀ mutex, isCeiling mutex → ∀ thread,
    .node (.ceiling mutex) ∈ (state.threads.waitPriority thread).contributors ↔
      state.threads.owner mutex = some thread
  bounded : ∀ mutex, isCeiling mutex → ∀ thread, state.threads.owner mutex = some thread →
    state.threads.priority thread ≤ state.coreCeilingMutexGetPriority mutex

/-- A thread that becomes the owner is not more important than the ceiling. A more important one
that seizes a free mutex is told so and does not own it. -/
structure CeilingRule (isCeiling : Queue → Prop) (state : CeilingMutexes Thread Queue Own)
    (call : CeilingMutexCall Thread Queue Own) (after : CeilingMutexes Thread Queue Own)
    (status : Option CoreMutexStatus) : Prop where
  gains : ∀ mutex, isCeiling mutex → ∀ thread, after.threads.owner mutex = some thread →
    state.threads.owner mutex ≠ some thread →
      state.coreCeilingMutexGetPriority mutex ≤ state.threads.priority thread
  violated : ∀ mutex executing wait nested, call = .seize mutex executing wait nested →
    state.threads.owner mutex = none →
    state.threads.priority executing < state.coreCeilingMutexGetPriority mutex →
      status = some .mutexCeilingViolated ∧ after.threads.owner mutex = none

/-- A mutex that is surrendered while threads wait goes to a thread that is not more important than
its ceiling. -/
def HandsOverWithinCeiling (state : CeilingMutexes Thread Queue Own) :
    CeilingMutexCall Thread Queue Own → Prop
  | .surrender mutex executing => state.threads.owner mutex = some executing →
      state.nestLevel mutex = 0 →
        ∀ first ∈ (state.threads.queuePriority mutex).getMinimumNode,
          state.coreCeilingMutexGetPriority mutex ≤ state.threads.priority first
  | _ => True

structure Marked (isCeiling : Queue → Prop)
    (threads : ThreadQueues Thread Queue (MutexPriorityNode Own Queue)) : Prop where
  contributes : ∀ mutex, isCeiling mutex → ∀ thread,
    .node (.ceiling mutex) ∈ (threads.waitPriority thread).contributors ↔
      threads.owner mutex = some thread
  own : ∀ thread, ∃ node, .node (.own node) ∈ (threads.waitPriority thread).contributors
  kind : ∀ mutex, isCeiling mutex → threads.operations mutex = .priority

/-- What every call keeps. -/
structure Kept (isCeiling : Queue → Prop) (state : CeilingMutexes Thread Queue Own) : Prop where
  settled : state.threads.Settled
  marked : Marked isCeiling state.threads

variable {isCeiling : Queue → Prop} {state after : CeilingMutexes Thread Queue Own}
variable {call : CeilingMutexCall Thread Queue Own} {status : Option CoreMutexStatus}

theorem Kept.containsCeilings (kept : state.Kept isCeiling) : state.ContainsCeilings isCeiling where
  contributes := kept.marked.contributes
  bounded mutex ceiling thread owns :=
    (kept.settled.ordered.threads thread).le ((kept.marked.contributes mutex ceiling thread).mpr owns)

theorem ceilingRule_of_same
    (same : ∀ mutex, isCeiling mutex → after.threads.owner mutex = state.threads.owner mutex)
    (notFree : ∀ mutex executing wait nested, call = .seize mutex executing wait nested →
      state.threads.owner mutex ≠ none) : state.CeilingRule isCeiling call after status where
  gains mutex ceiling thread owns apart := by
    rw [same mutex ceiling] at owns
    exact absurd owns apart
  violated mutex executing wait nested is free :=
    absurd free (notFree mutex executing wait nested is)

variable {threads changed : ThreadQueues Thread Queue (MutexPriorityNode Own Queue)}

theorem Marked.ofNodes (marked : Marked isCeiling threads) (nodes : threads.KeepsNodes changed) :
    Marked isCeiling changed where
  contributes mutex ceiling thread := by
    rw [nodes.nodes, nodes.owner]
    exact marked.contributes mutex ceiling thread
  own thread := by
    obtain ⟨node, inside⟩ := marked.own thread
    exact ⟨node, (nodes.nodes thread _).mpr inside⟩
  kind mutex ceiling := by
    rw [nodes.operations]
    exact marked.kind mutex ceiling

/-- A call with enough fuel keeps the invariant, and keeps the rule under a condition. -/
def Answers [DecidableEq Thread] [DecidableEq Queue] [DecidableEq Own] (isCeiling : Queue → Prop)
    (state : CeilingMutexes Thread Queue Own) (call : CeilingMutexCall Thread Queue Own) : Prop :=
  ∃ after status enough, (∀ fuel ≥ enough, call.perform fuel state = some (after, status)) ∧
    after.Kept isCeiling ∧
    (state.CeilingRule isCeiling call after status ↔ state.HandsOverWithinCeiling call)

variable [DecidableEq Thread] [DecidableEq Queue] [DecidableEq Own]

variable {mutex : Queue} {owner executing : Thread}
variable {call : ThreadQueuesCall Thread Queue (MutexPriorityNode Own Queue)}

theorem Kept.setPriority (kept : state.Kept isCeiling) (ceiling : isCeiling mutex)
    (priorityCeiling : Nat) : state.Answers isCeiling (.setPriority mutex priorityCeiling) := by
  have notSeize : ∀ inner executing wait nested,
      (.setPriority mutex priorityCeiling : CeilingMutexCall Thread Queue Own) =
        .seize inner executing wait nested → state.threads.owner inner ≠ none :=
    fun _ _ _ _ is => nomatch is
  cases owned : state.threads.owner mutex with
  | none =>
    have inactive : ∀ thread,
        .node (.ceiling mutex) ∉ (state.threads.waitPriority thread).contributors := by
      intro thread inside
      cases owned.symm.trans ((kept.marked.contributes mutex ceiling thread).mp inside)
    have settled := kept.settled.setNodePriority inactive priorityCeiling
    have same : state.threads.KeepsNodes
        (state.threads.setNodePriority (.ceiling mutex) priorityCeiling) :=
      ThreadQueues.keepsNodes_of_eq rfl rfl rfl
    refine ⟨⟨state.threads.setNodePriority (.ceiling mutex) priorityCeiling, state.nestLevel⟩,
      none, 0, fun fuel _ => ?_, ⟨settled, kept.marked.ofNodes same⟩,
      iff_of_true (ceilingRule_of_same (fun _ _ => rfl) notSeize) trivial⟩
    simp only [CeilingMutexCall.perform, coreCeilingMutexSetPriority, owned]
    rfl
  | some owner =>
    have holder : ∀ other,
        .node (.ceiling mutex) ∈ (state.threads.waitPriority other).contributors →
          other = owner := by
      intro other inside
      exact Option.some.inj
        (((kept.marked.contributes mutex ceiling other).mp inside).symm.trans owned)
    obtain ⟨threads, enough, ends, settled⟩ :=
      kept.settled.clearPriorityUpdates.threadPriorityChange holder priorityCeiling .last
    have changed := ThreadQueues.threadPriorityChange_keepsNodes (ends enough (Nat.le_refl _))
    have same : state.threads.KeepsNodes threads :=
      ⟨changed.owner, changed.operations, changed.nodes⟩
    refine ⟨⟨threads, state.nestLevel⟩, none, enough, fun fuel large => ?_,
      ⟨settled, kept.marked.ofNodes same⟩,
      iff_of_true (ceilingRule_of_same (fun inner _ => congrFun same.owner inner) notSeize)
        trivial⟩
    simp only [CeilingMutexCall.perform, coreCeilingMutexSetPriority, owned, ends fuel large,
      Option.map_some]

omit [DecidableEq Own] in
/-- A mutex that is seized gives its owner the ceiling. -/
theorem Marked.gained (marked : Marked isCeiling threads) (unowned : threads.owner mutex = none)
    (ceiling : isCeiling mutex) {taken : ThreadQueues Thread Queue (MutexPriorityNode Own Queue)}
    (operations : taken.operations = threads.operations)
    (owners : taken.owner = update threads.owner mutex (some owner))
    (nodes : ∀ thread node, .node node ∈ (taken.waitPriority thread).contributors ↔
      .node node ∈ (threads.waitPriority thread).contributors)
    (changes : taken.ChangesNode changed owner (.ceiling mutex) True) :
    Marked isCeiling changed where
  contributes inner isInner thread := by
    rw [changes.owner, owners]
    by_cases isMutex : inner = mutex
    · subst isMutex
      rw [update_self]
      by_cases isOwner : thread = owner
      · subst isOwner
        exact iff_of_true (changes.own.mpr trivial) rfl
      · rw [changes.others thread _ fun same => isOwner same.1, nodes,
          marked.contributes inner isInner, unowned]
        exact iff_of_false nofun fun same => isOwner (Option.some.inj same).symm
    · rw [update_of_ne isMutex, changes.others thread _
        fun same => isMutex (MutexPriorityNode.ceiling.inj same.2), nodes]
      exact marked.contributes inner isInner thread
  own thread := by
    obtain ⟨node, inside⟩ := marked.own thread
    have apart : ¬ (thread = owner ∧ MutexPriorityNode.own node = .ceiling mutex) :=
      fun same => nomatch same.2
    exact ⟨node, (changes.others thread _ apart).mpr ((nodes thread _).mpr inside)⟩
  kind inner isInner := by
    rw [changes.operations, operations]
    exact marked.kind inner isInner

omit [DecidableEq Own] in
/-- A mutex that is surrendered takes the ceiling back. -/
theorem Marked.lost (marked : Marked isCeiling threads) (owns : threads.owner mutex = some owner)
    (ceiling : isCeiling mutex)
    (changes : threads.ChangesNode changed owner (.ceiling mutex) False) :
    Marked isCeiling (changed.setOwner mutex none) where
  contributes inner isInner thread := by
    show _ ↔ update changed.owner mutex none inner = some thread
    by_cases isMutex : inner = mutex
    · subst isMutex
      rw [update_self]
      by_cases isOwner : thread = owner
      · subst isOwner
        exact iff_of_false changes.own.mp nofun
      · refine iff_of_false (fun inside => isOwner ?_) nofun
        have before := (changes.others thread _ fun same => isOwner same.1).mp inside
        exact Option.some.inj (((marked.contributes inner isInner thread).mp before).symm.trans owns)
    · rw [update_of_ne isMutex, changes.owner]
      exact (changes.others thread _ fun same =>
        isMutex (MutexPriorityNode.ceiling.inj same.2)).trans
          (marked.contributes inner isInner thread)
  own thread := by
    obtain ⟨node, inside⟩ := marked.own thread
    have apart : ¬ (thread = owner ∧ MutexPriorityNode.own node = .ceiling mutex) :=
      fun same => nomatch same.2
    exact ⟨node, (changes.others thread _ apart).mpr inside⟩
  kind inner isInner := by
    show changed.operations inner = .priority
    rw [changes.operations]
    exact marked.kind inner isInner

section

variable (kept : state.Kept isCeiling)
include kept

theorem Kept.setOwner (ceiling : isCeiling mutex) (ready : state.threads.waitQueue executing = none)
    (unowned : state.threads.owner mutex = none) (wait : Bool)
    (nested : Nat → Nat × CoreMutexStatus) :
    state.Answers isCeiling (.seize mutex executing wait nested) := by
  have cleared := kept.settled.clearPriorityUpdates
  have inactive : ∀ thread,
      .node (.ceiling mutex) ∉ (state.threads.waitPriority thread).contributors := by
    intro thread inside
    cases unowned.symm.trans ((kept.marked.contributes mutex ceiling thread).mp inside)
  rcases Nat.lt_or_ge (state.threads.priority executing) (state.coreCeilingMutexGetPriority mutex)
    with important | within
  · refine ⟨⟨state.threads.clearPriorityUpdates, state.nestLevel⟩, some .mutexCeilingViolated, 0,
      fun fuel _ => ?_, ⟨cleared, kept.marked.ofNodes (ThreadQueues.keepsNodes_of_eq rfl rfl rfl)⟩,
      iff_of_true ⟨fun inner _ thread owns apart => absurd owns apart, ?_⟩ trivial⟩
    · have violates : state.threads.clearPriorityUpdates.priority executing <
          (⟨state.threads.clearPriorityUpdates, state.nestLevel⟩ :
            CeilingMutexes Thread Queue Own).coreCeilingMutexGetPriority mutex := important
      simp only [CeilingMutexCall.perform, coreCeilingMutexSeize, unowned,
        coreCeilingMutexSetOwner, violates, ↓reduceIte, Option.map_some]
    · intro inner other wait nested is free _
      cases is
      exact ⟨rfl, free⟩
  · obtain ⟨threads, enough, ends, settled⟩ :=
      (cleared.seize ready unowned).threadPriorityAdd executing inactive
        (state.threads.nodePriority (.ceiling mutex))
    have changes := ThreadQueues.threadPriorityAdd_changesNode (ends enough (Nat.le_refl _))
    have marked : Marked isCeiling threads := by
      refine kept.marked.gained unowned ceiling ?_ ?_ (fun _ _ => ?_) changes
      all_goals rfl
    refine ⟨⟨threads, state.nestLevel⟩, some .successful, enough, fun fuel large => ?_,
      ⟨settled, marked⟩, iff_of_true ⟨?_, ?_⟩ trivial⟩
    · have notViolated : ¬ state.threads.clearPriorityUpdates.priority executing <
          (⟨state.threads.clearPriorityUpdates, state.nestLevel⟩ :
            CeilingMutexes Thread Queue Own).coreCeilingMutexGetPriority mutex :=
        Nat.not_lt.mpr within
      have adds : priorityAddCeiling fuel
          (state.threads.clearPriorityUpdates.setOwner mutex (some executing)) executing mutex =
            some threads := ends fuel large
      simp only [CeilingMutexCall.perform, coreCeilingMutexSeize, unowned,
        coreCeilingMutexSetOwner, notViolated, ↓reduceIte, adds, Option.map_some]
    · intro inner isInner thread owns apart
      have owners : threads.owner = update state.threads.owner mutex (some executing) :=
        changes.owner
      rw [owners] at owns
      by_cases isMutex : inner = mutex
      · subst isMutex
        rw [update_self] at owns
        exact Option.some.inj owns ▸ within
      · rw [update_of_ne isMutex] at owns
        exact absurd owns apart
    · intro inner other wait nested is free important
      cases is
      exact absurd important (Nat.not_lt.mpr within)

theorem Kept.seizeOwned (ready : state.threads.waitQueue executing = none)
    (owned : state.threads.owner mutex = some owner) (wait : Bool)
    (nested : Nat → Nat × CoreMutexStatus) :
    state.Answers isCeiling (.seize mutex executing wait nested) := by
  have notFree : ∀ inner other wait' nested',
      (.seize mutex executing wait nested : CeilingMutexCall Thread Queue Own) =
        .seize inner other wait' nested' → state.threads.owner inner ≠ none := by
    intro inner other wait' nested' is free
    cases is
    cases owned.symm.trans free
  by_cases again : owner = executing
  · refine ⟨⟨state.threads, update state.nestLevel mutex
        (nested (state.nestLevel mutex)).1⟩, some (nested (state.nestLevel mutex)).2, 0,
      fun fuel _ => ?_, ⟨kept.settled, kept.marked⟩,
      iff_of_true (ceilingRule_of_same (fun _ _ => rfl) notFree) trivial⟩
    simp only [CeilingMutexCall.perform, coreCeilingMutexSeize, owned, again, ↓reduceIte]
  · cases wait with
    | false =>
      refine ⟨state, some .unavailable, 0, fun fuel _ => ?_, kept,
        iff_of_true (ceilingRule_of_same (fun _ _ => rfl) notFree) trivial⟩
      simp only [CeilingMutexCall.perform, coreCeilingMutexSeize, owned, again, ↓reduceIte,
        Bool.false_eq_true]
    | true =>
      obtain ⟨threads, outcome, enough, ends, settled, -⟩ :=
        kept.settled.threadQueueEnqueue ready owned
      have nodes := ThreadQueues.threadQueueEnqueue_keepsNodes (ends enough (Nat.le_refl _))
      refine ⟨⟨threads, state.nestLevel⟩,
        (match outcome with | .blocked => none | .deadlock => some .deadlock), enough,
        fun fuel large => ?_, ⟨settled, kept.marked.ofNodes nodes⟩,
        iff_of_true (ceilingRule_of_same (fun inner _ => congrFun nodes.owner inner) notFree)
          trivial⟩
      simp only [CeilingMutexCall.perform, coreCeilingMutexSeize, owned, again, ↓reduceIte,
        ends fuel large, Option.map_some]
      cases outcome <;> rfl

section

variable (ceiling : isCeiling mutex) (ready : state.threads.waitQueue executing = none)
include ceiling ready

section

variable (owned : state.threads.owner mutex = some executing)
include owned

theorem Kept.removeCeiling :
    ∃ removed enough, (∀ fuel ≥ enough, state.threads.clearPriorityUpdates.threadPriorityRemove
        fuel executing (.ceiling mutex) = some removed) ∧
      removed.Settled ∧ Marked isCeiling (removed.setOwner mutex none) ∧
      removed.owner = state.threads.owner ∧
      removed.queuePriority = state.threads.queuePriority := by
  have cleared := kept.settled.clearPriorityUpdates
  have inside := (kept.marked.contributes mutex ceiling executing).mpr owned
  obtain ⟨node, isOwn⟩ := kept.marked.own executing
  obtain ⟨removed, enough, ends, settled⟩ := cleared.threadPriorityRemove inside
    ⟨.own node, fun same => (nomatch same), isOwn⟩
  have once : (state.threads.clearPriorityUpdates.waitPriority executing).contributors.Nodup :=
    (kept.settled.ordered.threads executing).nodup
  have lost := ThreadQueues.threadPriorityRemove_changesNode once (ends enough (Nat.le_refl _))
  have default : state.threads.clearPriorityUpdates.waitOperations executing = .default := by
    refine (kept.settled.linked.passed executing).trans ?_
    rw [ready]
    rfl
  obtain ⟨queues, -⟩ := ThreadQueues.threadPriorityApply_queues default
    (ends enough (Nat.le_refl _))
  refine ⟨removed, enough, ends, settled, kept.marked.lost owned ceiling ?_, lost.owner, queues⟩
  exact ⟨lost.owner, lost.operations, lost.others, lost.own⟩

theorem Kept.surrenderFree (last : state.nestLevel mutex = 0)
    (isFirst : (state.threads.queuePriority mutex).getMinimumNode = none) :
    state.Answers isCeiling (.surrender mutex executing) := by
  obtain ⟨removed, enough, ends, settled, marked, owners, queues⟩ :=
    kept.removeCeiling ceiling ready owned
  have notMore : ¬ 0 < state.nestLevel mutex := by omega
  have empty : (removed.queuePriority mutex).contributors = [] := by
    rw [queues]
    exact List.head?_eq_none_iff.mp isFirst
  have free : (removed.setOwner mutex none).freeChain mutex = 0 :=
    (settled.linked.free mutex).trans (List.length_eq_zero_iff.mpr empty)
  refine ⟨⟨removed.setOwner mutex none, state.nestLevel⟩, some .successful, enough,
    fun fuel large => ?_, ⟨settled.disown empty, marked⟩, iff_of_true ⟨?_, fun _ _ _ _ is => ?_⟩ ?_⟩
  · simp only [CeilingMutexCall.perform, coreCeilingMutexSurrender, owned, ne_eq,
      not_true_eq_false, ↓reduceIte, notMore, threadQueueSurrenderPriorityCeiling,
      ends fuel large, Option.bind_some, free, Option.map_some]
  · intro inner _ thread owns apart
    by_cases isMutex : inner = mutex
    · subst isMutex
      cases (removed.setOwner_self inner none).symm.trans owns
    · have before := (ThreadQueues.setOwner_of_ne isMutex none).symm.trans owns
      rw [owners] at before
      exact absurd before apart
  · cases is
  · intro _ _ first isMinimum
    rw [isFirst] at isMinimum
    cases isMinimum

theorem Kept.surrenderTo {first : Thread} (last : state.nestLevel mutex = 0)
    (isFirst : (state.threads.queuePriority mutex).getMinimumNode = some first) :
    state.Answers isCeiling (.surrender mutex executing) := by
  obtain ⟨removed, enoughRemove, ends, settled, marked, owners, queues⟩ :=
    kept.removeCeiling ceiling ready owned
  have notMore : ¬ 0 < state.nestLevel mutex := by omega
  have apartFirst : executing ≠ first := by
    rintro rfl
    have waits := kept.settled.linked.waiting (List.mem_of_mem_head? isFirst)
    cases ready.symm.trans waits
  have isFirstRemoved : (removed.queuePriority mutex).getMinimumNode = some first := by
    rw [queues]
    exact isFirst
  have waiting : (removed.setOwner mutex none).freeChain mutex ≠ 0 := by
    intro free
    have empty := List.length_eq_zero_iff.mp ((settled.linked.free mutex).symm.trans free)
    cases (List.head?_eq_none_iff.mpr empty).symm.trans isFirstRemoved
  have byPriority : removed.operations mutex = .priority := marked.kind mutex ceiling
  have inactive : ∀ thread, .node (.ceiling mutex) ∉
      ((removed.handOver mutex first).waitPriority thread).contributors := by
    intro thread inside
    cases (removed.setOwner_self mutex none).symm.trans
      ((marked.contributes mutex ceiling thread).mp inside)
  obtain ⟨threads, enoughAdd, adds, settledAfter⟩ :=
    (settled.handOver byPriority isFirstRemoved).threadPriorityAdd first inactive
      ((removed.handOver mutex first).nodePriority (.ceiling mutex))
  have changes := ThreadQueues.threadPriorityAdd_changesNode (adds enoughAdd (Nat.le_refl _))
  have ownersAfter : threads.owner = update state.threads.owner mutex (some first) := by
    refine changes.owner.trans ((update_idem ..).trans ?_)
    rw [owners]
  have markedAfter : Marked isCeiling threads := by
    refine marked.gained (update_self ..) ceiling ?_ ?_ (fun _ _ => ?_) changes
    all_goals rfl
  refine ⟨⟨threads, state.nestLevel⟩, some .successful, max enoughRemove enoughAdd,
    fun fuel large => ?_, ⟨settledAfter, markedAfter⟩, ?_⟩
  · have added : priorityAddCeiling fuel (removed.handOver mutex first) first mutex = some threads :=
      adds fuel ((Nat.le_max_right ..).trans large)
    unfold CeilingMutexCall.perform coreCeilingMutexSurrender threadQueueSurrenderPriorityCeiling
    dsimp only
    rw [if_neg (not_not.mpr owned), if_neg notMore, ends fuel ((Nat.le_max_left ..).trans large),
      Option.bind_some, if_neg waiting,
      ThreadQueues.queueSurrender_of_priority byPriority isFirstRemoved, Option.bind_some]
    exact congrArg (Option.map _ ∘ Option.map _) added
  · refine ⟨fun rule _ _ minimum isMinimum => ?_, fun within => ⟨?_, fun _ _ _ _ is => ?_⟩⟩
    · cases isFirst.symm.trans isMinimum
      refine rule.gains mutex ceiling first ?_ fun owns => ?_
      · rw [ownersAfter, update_self]
      · exact apartFirst (Option.some.inj (owned.symm.trans owns))
    · intro inner _ thread owns apart
      rw [ownersAfter] at owns
      by_cases isMutex : inner = mutex
      · subst isMutex
        rw [update_self] at owns
        cases owns
        exact within owned last first isFirst
      · rw [update_of_ne isMutex] at owns
        exact absurd owns apart
    · cases is

end

theorem Kept.surrender : state.Answers isCeiling (.surrender mutex executing) := by
  have notSeize : ∀ inner other wait nested,
      (.surrender mutex executing : CeilingMutexCall Thread Queue Own) =
        .seize inner other wait nested → state.threads.owner inner ≠ none :=
    fun _ _ _ _ is => nomatch is
  by_cases owned : state.threads.owner mutex = some executing
  · rcases Nat.eq_zero_or_pos (state.nestLevel mutex) with last | nested
    · cases isFirst : (state.threads.queuePriority mutex).getMinimumNode with
      | none => exact kept.surrenderFree ceiling ready owned last isFirst
      | some first => exact kept.surrenderTo ceiling ready owned last isFirst
    · refine ⟨⟨state.threads, update state.nestLevel mutex (state.nestLevel mutex - 1)⟩,
        some .successful, 0, fun fuel _ => ?_, ⟨kept.settled, kept.marked⟩,
        iff_of_true (ceilingRule_of_same (fun _ _ => rfl) notSeize) fun _ last => ?_⟩
      · simp only [CeilingMutexCall.perform, coreCeilingMutexSurrender, owned, ne_eq,
          not_true_eq_false, ↓reduceIte, nested, Option.map_some]
      · exact absurd last (Nat.ne_of_gt nested)
  · refine ⟨state, some .notOwner, 0, fun fuel _ => ?_, kept,
      iff_of_true (ceilingRule_of_same (fun _ _ => rfl) notSeize) fun owns => absurd owns owned⟩
    simp only [CeilingMutexCall.perform, coreCeilingMutexSurrender, ne_eq, owned,
      not_false_eq_true, ↓reduceIte, Option.map_some]

end

end

omit [DecidableEq Thread] [DecidableEq Queue] [DecidableEq Own] in
theorem Marked.spares (marked : Marked isCeiling threads)
    (operations : changed.operations = threads.operations)
    (owner : ∀ mutex, isCeiling mutex → changed.owner mutex = threads.owner mutex)
    (ceilings : ∀ mutex thread, .node (.ceiling mutex) ∈ (changed.waitPriority thread).contributors ↔
      .node (.ceiling mutex) ∈ (threads.waitPriority thread).contributors)
    (own : ∀ thread node, .node (.own node) ∈ (threads.waitPriority thread).contributors →
      ∃ kept, .node (.own kept) ∈ (changed.waitPriority thread).contributors) :
    Marked isCeiling changed where
  contributes mutex ceiling thread := by
    rw [ceilings, owner mutex ceiling]
    exact marked.contributes mutex ceiling thread
  own thread := by
    obtain ⟨node, inside⟩ := marked.own thread
    exact own thread node inside
  kind mutex ceiling := by
    rw [operations]
    exact marked.kind mutex ceiling

omit [DecidableEq Queue] [DecidableEq Own] in
theorem Marked.ofOwn (marked : Marked isCeiling threads) {thread : Thread} {node : Own}
    {present : Prop} (changes : threads.ChangesNode changed thread (.own node) present)
    (kept : ∃ own, .node (.own own) ∈ (changed.waitPriority thread).contributors) :
    Marked isCeiling changed ∧
      ∀ mutex, isCeiling mutex → changed.owner mutex = threads.owner mutex := by
  have owners : ∀ mutex, isCeiling mutex → changed.owner mutex = threads.owner mutex :=
    fun mutex _ => congrFun changes.owner mutex
  refine ⟨marked.spares changes.operations owners
    (fun _ other => changes.others other _ fun same => nomatch same.2)
    fun other node inside => ?_, owners⟩
  by_cases isThread : other = thread
  · exact isThread ▸ kept
  · exact ⟨node, (changes.others other _ fun same => isThread same.1).mpr inside⟩

theorem Marked.perform (marked : Marked isCeiling threads) (settled : threads.Settled)
    (spares : call.SparesCeilings isCeiling threads) {fuel : Nat}
    (performs : call.perform fuel threads = some changed) :
    Marked isCeiling changed ∧
      ∀ mutex, isCeiling mutex → changed.owner mutex = threads.owner mutex := by
  have apart : ∀ {mutex queue}, isCeiling mutex → ¬ isCeiling queue → mutex ≠ queue :=
    fun ceiling spared same => spared (same ▸ ceiling)
  cases call with
  | seize thread queue =>
    cases Option.some.inj performs
    have owners : ∀ mutex, isCeiling mutex →
        (threads.setOwner queue (some thread)).owner mutex = threads.owner mutex :=
      fun mutex ceiling => ThreadQueues.setOwner_of_ne (apart ceiling spares) _
    exact ⟨marked.spares rfl owners (fun _ _ => Iff.rfl) fun _ node inside => ⟨node, inside⟩,
      owners⟩
  | enqueue thread queue =>
    obtain ⟨⟨after, outcome⟩, enqueues, rfl⟩ := Option.map_eq_some_iff.mp performs
    have nodes := ThreadQueues.threadQueueEnqueue_keepsNodes enqueues
    exact ⟨marked.ofNodes nodes, fun mutex _ => congrFun nodes.owner mutex⟩
  | extract thread =>
    have nodes := ThreadQueues.threadWaitCancel_keepsNodes performs
    exact ⟨marked.ofNodes nodes, fun mutex _ => congrFun nodes.owner mutex⟩
  | surrender executing queue =>
    obtain ⟨operations, owner, nodes⟩ := ThreadQueues.coreMutexSurrender_nodes performs
    have owners : ∀ mutex, isCeiling mutex → changed.owner mutex = threads.owner mutex :=
      fun mutex ceiling => owner mutex (apart ceiling spares)
    exact ⟨marked.spares operations owners (fun _ thread => nodes thread _)
      fun thread node inside => ⟨node, (nodes thread _).mpr inside⟩, owners⟩
  | priorityAdd thread node priority =>
    obtain ⟨own, rfl⟩ := spares
    have changes := ThreadQueues.threadPriorityAdd_changesNode performs
    exact marked.ofOwn changes ⟨own, changes.own.mpr trivial⟩
  | priorityRemove thread node =>
    obtain ⟨own, kept, rfl, distinct, remains⟩ := spares
    have changes := ThreadQueues.threadPriorityRemove_changesNode
      (settled.ordered.threads thread).nodup performs
    exact marked.ofOwn changes ⟨kept, (changes.others thread _ fun same =>
      distinct (MutexPriorityNode.own.inj same.2)).mpr remains⟩
  | priorityChange thread node newPriority groupOrder =>
    have changes := ThreadQueues.threadPriorityChange_keepsNodes performs
    exact ⟨marked.ofNodes changes, fun mutex _ => congrFun changes.owner mutex⟩

theorem Kept.other (kept : state.Kept isCeiling) (possible : call.Possible state.threads)
    (spares : call.SparesCeilings isCeiling state.threads) :
    state.Answers isCeiling (.other call) := by
  obtain ⟨threads, enough, ends, settled⟩ := kept.settled.perform possible
  obtain ⟨marked, owners⟩ := kept.marked.perform kept.settled spares (ends enough (Nat.le_refl _))
  refine ⟨⟨threads, state.nestLevel⟩, none, enough, fun fuel large => ?_, ⟨settled, marked⟩,
    iff_of_true (ceilingRule_of_same owners fun _ _ _ _ is => nomatch is) trivial⟩
  exact congrArg (Option.map _) (ends fuel large)

theorem Kept.answers (kept : state.Kept isCeiling) (call : CeilingMutexCall Thread Queue Own)
    (possible : call.Possible isCeiling state) : state.Answers isCeiling call := by
  cases call with
  | seize mutex executing wait nested =>
    cases owned : state.threads.owner mutex with
    | none => exact kept.setOwner possible.1 possible.2 owned wait nested
    | some owner => exact kept.seizeOwned possible.2 owned wait nested
  | surrender mutex executing => exact kept.surrender possible.1 possible.2
  | setPriority mutex priorityCeiling => exact kept.setPriority possible priorityCeiling
  | other call => exact kept.other possible.1 possible.2

end CeilingMutexes

end RTContainer.Score

/-! Whole runs of the ceiling mutexes: the rule holds in exactly those that hand no mutex to a
thread that is more important than its ceiling. -/

namespace RTContainer.Score

open Machine Function

namespace CeilingMutexes

variable {Thread Queue Own : Type}
variable {isCeiling : Queue → Prop} {operations : Queue → ThreadQueueOperations}

theorem initial_kept {realPriority : Thread → Own} (injective : Injective realPriority)
    (nodePriority : MutexPriorityNode Own Queue → Nat)
    (used : ∀ queue, operations queue ≠ .default)
    (byPriority : ∀ mutex, isCeiling mutex → operations mutex = .priority) :
    (initial realPriority nodePriority operations).Kept isCeiling where
  settled := ThreadQueues.initial_settled
    (fun _ _ same => injective (MutexPriorityNode.own.inj same)) nodePriority used
  marked :=
    { contributes := fun _ _ _ =>
        iff_of_false (fun inside => nomatch List.mem_singleton.mp inside) nofun
      own := fun thread => ⟨realPriority thread, List.mem_singleton_self _⟩
      kind := byPriority }

variable [DecidableEq Thread] [DecidableEq Queue] [DecidableEq Own]

/-- The rule holds of a call that returns. -/
def Follows (isCeiling : Queue → Prop) (fuel : Nat)
    (state : Option (CeilingMutexes Thread Queue Own))
    (call : CeilingMutexCall Thread Queue Own) : Prop :=
  ∃ reached ∈ state, ∃ after status, call.perform fuel reached = some (after, status) ∧
    reached.CeilingRule isCeiling call after status

variable {state : CeilingMutexes Thread Queue Own}

theorem Kept.run (kept : state.Kept isCeiling) (calls : List (CeilingMutexCall Thread Queue Own)) :
    ∃ enough, ∀ fuel ≥ enough,
      Meets (ceilingMutexStep fuel)
        (fun state call => ∀ reached ∈ state, call.Possible isCeiling reached) (some state) calls →
      Throughout (ceilingMutexStep fuel)
        (fun state => ∃ reached ∈ state, reached.ContainsCeilings isCeiling) (some state) calls ∧
      (Meets (ceilingMutexStep fuel) (Follows isCeiling fuel) (some state) calls ↔
        Meets (ceilingMutexStep fuel)
          (fun state call => ∀ reached ∈ state, reached.HandsOverWithinCeiling call)
          (some state) calls) := by
  induction calls generalizing state with
  | nil => exact ⟨0, fun _ _ _ => ⟨⟨state, rfl, kept.containsCeilings⟩, Iff.rfl⟩⟩
  | cons call rest ih =>
    by_cases possible : call.Possible isCeiling state
    · obtain ⟨after, status, enough, ends, keptAfter, rule⟩ := kept.answers call possible
      obtain ⟨enoughRest, always⟩ := ih keptAfter
      refine ⟨max enough enoughRest, fun fuel large met => ?_⟩
      have performs := ends fuel ((Nat.le_max_left ..).trans large)
      have leads : ceilingMutexStep fuel (some state) call = some after :=
        congrArg (Option.map Prod.fst) performs
      have metRest := met.2
      rw [leads] at metRest
      obtain ⟨contains, follows⟩ := always fuel ((Nat.le_max_right ..).trans large) metRest
      have first : Follows isCeiling fuel (some state) call ↔
          ∀ reached ∈ some state, reached.HandsOverWithinCeiling call := by
        constructor
        · rintro ⟨_, ⟨⟩, _, _, is, holds⟩ _ ⟨⟩
          cases performs.symm.trans is
          exact rule.mp holds
        · intro within
          exact ⟨state, rfl, after, status, performs, rule.mpr (within state rfl)⟩
      rw [meets_cons, meets_cons, first, leads]
      refine ⟨⟨⟨state, rfl, kept.containsCeilings⟩, ?_⟩, and_congr_right fun _ => follows⟩
      rw [leads]
      exact contains
    · exact ⟨0, fun _ _ met => absurd (met.1 state rfl) possible⟩

end CeilingMutexes

open CeilingMutexes

variable {Thread Queue Own : Type} [DecidableEq Thread] [DecidableEq Queue] [DecidableEq Own]

/-- With enough fuel for the walks, the owners and no other threads have the ceilings of their
mutexes in every run. A thread that is more important than the ceiling becomes the owner of no
mutex in exactly the runs that hand none over to such a thread. -/
theorem ceilingMutexesRun_ceilingRule_iff {isCeiling : Queue → Prop}
    {operations : Queue → ThreadQueueOperations} {realPriority : Thread → Own}
    (injective : Injective realPriority)
    (nodePriority : MutexPriorityNode Own Queue → Nat)
    (used : ∀ queue, operations queue ≠ .default)
    (byPriority : ∀ mutex, isCeiling mutex → operations mutex = .priority)
    (calls : List (CeilingMutexCall Thread Queue Own)) :
    ∃ enough, ∀ fuel ≥ enough,
      Meets (ceilingMutexStep fuel)
        (fun state call => ∀ reached ∈ state, call.Possible isCeiling reached)
        (some (.initial realPriority nodePriority operations)) calls →
      (Throughout (ceilingMutexStep fuel)
          (fun state => ∃ reached ∈ state, reached.ContainsCeilings isCeiling)
          (some (.initial realPriority nodePriority operations)) calls ∧
        Meets (ceilingMutexStep fuel) (Follows isCeiling fuel)
          (some (.initial realPriority nodePriority operations)) calls ↔
        Meets (ceilingMutexStep fuel)
          (fun state call => ∀ reached ∈ state, reached.HandsOverWithinCeiling call)
          (some (.initial realPriority nodePriority operations)) calls) := by
  obtain ⟨enough, always⟩ :=
    (initial_kept injective nodePriority used byPriority).run calls
  refine ⟨enough, fun fuel large met => ?_⟩
  obtain ⟨contains, follows⟩ := always fuel large met
  rw [← follows]
  exact and_iff_right contains

/-- The ceiling is above threads 0 and 2, and thread 1 is more important. -/
def realPriorities : MutexPriorityNode Nat Unit → Nat
  | .own 0 => 9
  | .own 2 => 7
  | .own _ => 3
  | .ceiling _ => 5

def ceilingThreads : CeilingMutexes Nat Unit Nat := .initial id realPriorities fun _ => .priority

/-- A thread waits while thread 0 owns the mutex, and gets it. -/
def waitFor (waiting : Nat) : List (CeilingMutexCall Nat Unit Nat) :=
  [.seize () 0 true fun level => (level + 1, .successful),
    .seize () waiting true fun level => (level + 1, .successful), .surrender () 0]

/-- Thread 1 becomes the owner, and is more important than the ceiling. -/
theorem ceilingMutexesRun_waitAboveCeiling : ¬ ∃ enough, ∀ fuel ≥ enough,
    Meets (ceilingMutexStep fuel)
      (fun state call => ∀ reached ∈ state, call.Possible (fun _ => True) reached)
      (some ceilingThreads) (waitFor 1) →
    Meets (ceilingMutexStep fuel) (Follows (fun _ => True) fuel)
      (some ceilingThreads) (waitFor 1) := by
  rintro ⟨enough, always⟩
  obtain ⟨-, -, ⟨_, ⟨⟩, _, _, ⟨⟩, rule⟩, -⟩ :=
    always (enough + 10) (Nat.le_add_right ..) ⟨by
      rintro _ ⟨⟩
      exact ⟨trivial, rfl⟩, by
      rintro _ ⟨⟩
      exact ⟨trivial, rfl⟩, by
      rintro _ ⟨⟩
      exact ⟨trivial, rfl⟩, trivial⟩
  exact absurd (rule.gains () trivial 1 rfl nofun) (by decide)

theorem ceilingMutexesRun_seizeSurrender : ∃ fuel,
    Throughout (ceilingMutexStep fuel)
        (fun state => ∃ reached ∈ state, reached.ContainsCeilings fun _ => True)
        (some ceilingThreads) (waitFor 2) ∧
      Meets (ceilingMutexStep fuel) (Follows (fun _ => True) fuel) (some ceilingThreads)
        (waitFor 2) := by
  have used : ∀ queue : Unit,
      (fun _ => .priority : Unit → ThreadQueueOperations) queue ≠ .default :=
    fun _ same => nomatch same
  obtain ⟨enough, always⟩ := ceilingMutexesRun_ceilingRule_iff Function.injective_id
    realPriorities used (fun _ (_ : True) => rfl) (waitFor 2)
  refine ⟨enough + 10, (always (enough + 10) (Nat.le_add_right ..) ⟨?_, ?_, ?_, trivial⟩).mpr
    ⟨fun _ _ => trivial, fun _ _ => trivial, ?_, trivial⟩⟩
  · rintro _ ⟨⟩
    exact ⟨trivial, rfl⟩
  · rintro _ ⟨⟩
    exact ⟨trivial, rfl⟩
  · rintro _ ⟨⟩
    exact ⟨trivial, rfl⟩
  · rintro _ ⟨⟩ _ _ first isFirst
    cases isFirst
    decide

end RTContainer.Score
