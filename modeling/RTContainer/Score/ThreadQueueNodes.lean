import RTContainer.Score.ThreadQueueRelease

/-! The own nodes of the threads. The operations on the queues change which queues contribute to a
thread and leave its own nodes alone. -/

set_option autoImplicit false

namespace RTContainer.Score

open Function

namespace PriorityAggregation

variable {Contributor : Type} {key : Contributor → Nat}
variable {aggregation : PriorityAggregation Contributor} {node other : Contributor}

theorem mem_plainInsert :
    other ∈ (aggregation.plainInsert key node).1.contributors ↔
      other = node ∨ other ∈ aggregation.contributors :=
  (plainInsert_perm aggregation node).mem_iff.trans List.mem_cons

theorem nonEmptyInsert_contributors :
    (aggregation.nonEmptyInsert key node).1.contributors =
      (aggregation.plainInsert key node).1.contributors := by
  unfold nonEmptyInsert
  dsimp only
  split <;> rfl

variable [DecidableEq Contributor]

theorem extractNonEmpty_contributors {extracted : PriorityAggregation Contributor}
    {changes : Option PriorityGroupOrder}
    (extracts : aggregation.extractNonEmpty key node = some (extracted, changes)) :
    extracted.contributors = aggregation.contributors.erase node := by
  obtain ⟨min, -, is⟩ := Option.map_eq_some_iff.mp extracts
  split at is
  all_goals
    rw [← (Prod.mk.inj is).1]
    rfl

theorem changed_contributors {groupOrder : PriorityGroupOrder} :
    (aggregation.changed key node groupOrder).1.contributors =
      (aggregation.plainChanged key node).contributors := by
  unfold changed
  dsimp only
  split
  next => rfl
  next => split <;> rfl

theorem mem_plainChanged (apart : other ≠ node) :
    other ∈ (aggregation.plainChanged key node).contributors ↔
      other ∈ aggregation.contributors := by
  unfold plainChanged
  rw [mem_plainInsert, or_iff_right apart]
  exact List.mem_erase_of_ne apart

end PriorityAggregation

namespace ThreadQueues

variable {Thread Queue Node : Type}
variable {state middle after : ThreadQueues Thread Queue Node}

structure KeepsNodes (state after : ThreadQueues Thread Queue Node) : Prop where
  owner : after.owner = state.owner
  operations : after.operations = state.operations
  nodes : ∀ thread node, .node node ∈ (after.waitPriority thread).contributors ↔
    .node node ∈ (state.waitPriority thread).contributors

theorem KeepsNodes.refl (state : ThreadQueues Thread Queue Node) : state.KeepsNodes state :=
  ⟨rfl, rfl, fun _ _ => Iff.rfl⟩

theorem KeepsNodes.trans (first : state.KeepsNodes middle) (second : middle.KeepsNodes after) :
    state.KeepsNodes after where
  owner := second.owner.trans first.owner
  operations := second.operations.trans first.operations
  nodes thread node := (second.nodes thread node).trans (first.nodes thread node)

theorem keepsNodes_of_eq (owner : after.owner = state.owner)
    (operations : after.operations = state.operations)
    (waitPriority : after.waitPriority = state.waitPriority) : state.KeepsNodes after where
  owner := owner
  operations := operations
  nodes thread node := by rw [waitPriority]

variable [DecidableEq Thread] [DecidableEq Queue] [DecidableEq Node]

variable {action : PriorityAction Thread Queue Node} {groupOrder : PriorityGroupOrder}
variable {aggregation : PriorityAggregation (PriorityContributor Queue Node)}
variable {changes : Option PriorityGroupOrder} {operations : ThreadQueueOperations}
variable {next : Option (PriorityAction Thread Queue Node)} {thread previousOwner : Thread}
variable {queue : Queue} {fuel : Nat} {node : Node}

omit [DecidableEq Thread] in
/-- An action concerns its own node only. -/
theorem mem_of_actOn (acts : state.actOn action groupOrder = some (aggregation, changes))
    {contributor : PriorityContributor Queue Node} (apart : contributor ≠ action.node) :
    contributor ∈ aggregation.contributors ↔
      contributor ∈ (state.waitPriority action.aggregation).contributors := by
  unfold actOn at acts
  dsimp only at acts
  split at acts
  next =>
    have inserted : ((state.waitPriority action.aggregation).nonEmptyInsert state.contribution
        action.node).1 = aggregation := congrArg Prod.fst (Option.some.inj acts)
    rw [← inserted, PriorityAggregation.nonEmptyInsert_contributors,
      PriorityAggregation.mem_plainInsert, or_iff_right apart]
  next =>
    rw [PriorityAggregation.extractNonEmpty_contributors acts]
    exact List.mem_erase_of_ne apart
  next =>
    have moved : ((state.waitPriority action.aggregation).changed state.contribution action.node
        groupOrder).1 = aggregation := congrArg Prod.fst (Option.some.inj acts)
    rw [← moved, PriorityAggregation.changed_contributors]
    exact PriorityAggregation.mem_plainChanged apart

section Own

variable {thread : Thread} {node : PriorityContributor Queue Node} {groupOrder : PriorityGroupOrder}
variable {aggregation : PriorityAggregation (PriorityContributor Queue Node)}
variable {changes : Option PriorityGroupOrder}

section

omit [DecidableEq Thread]

theorem mem_of_actOn_add
    (acts : state.actOn ⟨thread, node, .add⟩ groupOrder = some (aggregation, changes)) :
    node ∈ aggregation.contributors := by
  have inserted : ((state.waitPriority thread).nonEmptyInsert state.contribution node).1 =
      aggregation := congrArg Prod.fst (Option.some.inj acts)
  rw [← inserted, PriorityAggregation.nonEmptyInsert_contributors,
    PriorityAggregation.mem_plainInsert]
  exact .inl rfl

theorem mem_of_actOn_change
    (acts : state.actOn ⟨thread, node, .change⟩ groupOrder = some (aggregation, changes)) :
    node ∈ aggregation.contributors := by
  have moved : ((state.waitPriority thread).changed state.contribution node groupOrder).1 =
      aggregation := congrArg Prod.fst (Option.some.inj acts)
  rw [← moved, PriorityAggregation.changed_contributors]
  exact PriorityAggregation.mem_plainInsert.mpr (.inl rfl)

theorem not_mem_of_actOn_remove (once : (state.waitPriority thread).contributors.Nodup)
    (acts : state.actOn ⟨thread, node, .remove⟩ groupOrder = some (aggregation, changes)) :
    node ∉ aggregation.contributors := by
  have erased := PriorityAggregation.extractNonEmpty_contributors acts
  rw [erased]
  exact once.not_mem_erase

end

end Own

omit [DecidableEq Node] in
theorem priorityActions_waitPriority {queue : Option Queue} {aggregation : Thread}
    (performs : state.priorityActions operations queue aggregation = some (after, next)) :
    after.waitPriority = state.waitPriority ∧ after.owner = state.owner ∧
      after.operations = state.operations ∧
      ∀ action ∈ next, ∃ queue, action.node = .queue queue := by
  unfold priorityActions at performs
  split at performs
  · obtain ⟨rfl, rfl⟩ := Prod.mk.inj (Option.some.inj performs)
    exact ⟨rfl, rfl, rfl, nofun⟩
  · obtain ⟨rfl, rfl⟩ := Prod.mk.inj (Option.some.inj performs)
    exact ⟨rfl, rfl, rfl, nofun⟩
  · obtain ⟨inner, -, is⟩ := Option.map_eq_some_iff.mp performs
    obtain ⟨rfl, rfl⟩ := Prod.mk.inj is
    exact ⟨rfl, rfl, rfl, nofun⟩
  · obtain ⟨inner, -, leads⟩ := Option.bind_eq_some_iff.mp performs
    obtain ⟨owner, -, is⟩ := Option.map_eq_some_iff.mp leads
    obtain ⟨rfl, rfl⟩ := Prod.mk.inj is
    refine ⟨rfl, rfl, rfl, ?_⟩
    intro action isNext
    obtain ⟨-, -, rfl⟩ := Option.map_eq_some_iff.mp isNext
    exact ⟨inner, rfl⟩

theorem doPerformActions_waitPriority {queue : Option Queue}
    (performs : state.doPerformActions thread queue operations groupOrder action =
      some (after, next)) :
    ∃ aggregation changes, state.actOn action groupOrder = some (aggregation, changes) ∧
      after.waitPriority = update state.waitPriority action.aggregation aggregation ∧
      after.owner = state.owner ∧ after.operations = state.operations ∧
      ∀ action ∈ next, ∃ queue, action.node = .queue queue := by
  unfold doPerformActions at performs
  split at performs
  next => cases performs
  next aggregation acts =>
    obtain ⟨rfl, rfl⟩ := Prod.mk.inj (Option.some.inj performs)
    exact ⟨aggregation, none, acts, rfl, rfl, rfl, nofun⟩
  next aggregation order acts =>
    obtain ⟨waitPriority, owner, operations, leads⟩ := priorityActions_waitPriority performs
    exact ⟨aggregation, some order, acts, waitPriority, owner, operations, leads⟩

theorem mem_of_actOn_queue (isQueue : action.node = .queue queue)
    (acts : state.actOn action groupOrder = some (aggregation, changes)) (thread : Thread)
    (node : Node) :
    .node node ∈ (update state.waitPriority action.aggregation aggregation
        thread).contributors ↔ .node node ∈ (state.waitPriority thread).contributors := by
  by_cases same : thread = action.aggregation
  · subst same
    rw [update_self]
    exact mem_of_actOn acts (isQueue ▸ nofun)
  · rw [update_of_ne same]

theorem doPerformActions_keepsNodes {queue : Option Queue}
    (isQueue : ∃ queue, action.node = .queue queue)
    (performs : state.doPerformActions thread queue operations groupOrder action =
      some (after, next)) :
    state.KeepsNodes after ∧ ∀ action ∈ next, ∃ queue, action.node = .queue queue := by
  obtain ⟨aggregation, changes, acts, waitPriority, owner, operations, leads⟩ :=
    doPerformActions_waitPriority performs
  obtain ⟨inner, isInner⟩ := isQueue
  refine ⟨⟨owner, operations, fun thread node => ?_⟩, leads⟩
  rw [waitPriority]
  exact mem_of_actOn_queue isInner acts thread node

/-- Actions on queues move no node of a thread. -/
theorem performActions_keepsNodes {updateCount : Nat}
    (isQueue : ∃ queue, action.node = .queue queue)
    (performs : performActions updateCount fuel state thread action = some after) :
    state.KeepsNodes after := by
  induction fuel generalizing state thread action with
  | zero => cases performs
  | succ fuel ih =>
    unfold performActions at performs
    split at performs
    next => cases performs
    next performed first =>
      obtain rfl := Option.some.inj performs
      exact (doPerformActions_keepsNodes isQueue first).1
    next performed next first =>
      obtain ⟨kept, leads⟩ := doPerformActions_keepsNodes isQueue first
      split at performs
      next => cases performs
      next owner found =>
        have restored : performed.KeepsNodes (performed.restorePriorityUpdates updateCount) :=
          keepsNodes_of_eq rfl rfl rfl
        exact (kept.trans restored).trans (ih (leads next rfl) performs)

omit [DecidableEq Queue] [DecidableEq Node] in
theorem keepsNodes_setWaitPriority (same : ∀ node, .node node ∈ aggregation.contributors ↔
      .node node ∈ (state.waitPriority thread).contributors) :
    state.KeepsNodes (state.setWaitPriority thread aggregation) where
  owner := rfl
  operations := rfl
  nodes other node := by
    by_cases isThread : other = thread
    · subst isThread
      rw [setWaitPriority_self]
      exact same node
    · rw [setWaitPriority_of_ne state isThread]

omit [DecidableEq Queue] [DecidableEq Node] in
private theorem keepsNodes_of_update (owner : after.owner = state.owner)
    (operations : after.operations = state.operations)
    (waitPriority : after.waitPriority = update state.waitPriority thread aggregation) :
    (state.setWaitPriority thread aggregation).KeepsNodes after :=
  keepsNodes_of_eq owner operations waitPriority

theorem threadPriorityApply_waitPriority {node : PriorityContributor Queue Node}
    {type : PriorityActionType}
    (performs : state.threadPriorityApply fuel thread node groupOrder type = some after) :
    ∃ aggregation changes,
      state.actOn ⟨thread, node, type⟩ groupOrder = some (aggregation, changes) ∧
        (state.setWaitPriority thread aggregation).KeepsNodes after := by
  unfold threadPriorityApply at performs
  split at performs
  next => cases performs
  next performed first =>
    obtain rfl := Option.some.inj performs
    obtain ⟨aggregation, changes, acts, waitPriority, owner, operations, -⟩ :=
      doPerformActions_waitPriority first
    exact ⟨aggregation, changes, acts, keepsNodes_of_update owner operations waitPriority⟩
  next performed next first =>
    obtain ⟨aggregation, changes, acts, waitPriority, owner, operations, leads⟩ :=
      doPerformActions_waitPriority first
    refine ⟨aggregation, changes, acts,
      (keepsNodes_of_update owner operations waitPriority).trans ?_⟩
    split at performs
    next => cases performs
    next => exact performActions_keepsNodes (leads next rfl) performs

/-- One own node of one thread is there afterwards or not; all others stay. -/
structure ChangesNode (state after : ThreadQueues Thread Queue Node) (thread : Thread)
    (node : Node) (present : Prop) : Prop where
  owner : after.owner = state.owner
  operations : after.operations = state.operations
  others : ∀ other held, ¬ (other = thread ∧ held = node) →
    (.node held ∈ (after.waitPriority other).contributors ↔
      .node held ∈ (state.waitPriority other).contributors)
  own : .node node ∈ (after.waitPriority thread).contributors ↔ present

omit [DecidableEq Queue] [DecidableEq Node] in
theorem changesNode_of {present : Prop}
    (same : ∀ held, held ≠ node → (.node held ∈ aggregation.contributors ↔
      .node held ∈ (state.waitPriority thread).contributors))
    (own : .node node ∈ aggregation.contributors ↔ present)
    (kept : (state.setWaitPriority thread aggregation).KeepsNodes after) :
    state.ChangesNode after thread node present where
  __ := kept
  others other held apart := by
    rw [kept.nodes]
    by_cases isThread : other = thread
    · subst isThread
      rw [setWaitPriority_self]
      exact same held fun isNode => apart ⟨rfl, isNode⟩
    · rw [setWaitPriority_of_ne state isThread]
  own := by
    rw [kept.nodes, setWaitPriority_self]
    exact own

theorem threadPriorityAdd_changesNode {priority : Nat}
    (performs : state.threadPriorityAdd fuel thread node priority = some after) :
    state.ChangesNode after thread node True := by
  obtain ⟨aggregation, changes, acts, kept⟩ := threadPriorityApply_waitPriority performs
  refine changesNode_of (fun held apart => ?_) ?_ ⟨kept.owner, kept.operations, kept.nodes⟩
  · exact mem_of_actOn acts fun same => apart (PriorityContributor.node.inj same)
  · exact iff_true_intro (mem_of_actOn_add acts)

theorem threadPriorityRemove_changesNode (once : (state.waitPriority thread).contributors.Nodup)
    (performs : state.threadPriorityRemove fuel thread node = some after) :
    state.ChangesNode after thread node False := by
  obtain ⟨aggregation, changes, acts, kept⟩ := threadPriorityApply_waitPriority performs
  refine changesNode_of (fun held apart => ?_) ?_ kept
  · exact mem_of_actOn acts fun same => apart (PriorityContributor.node.inj same)
  · exact iff_false_intro (not_mem_of_actOn_remove once acts)

theorem threadPriorityChange_keepsNodes {newPriority : Nat}
    (performs : state.threadPriorityChange fuel thread node newPriority groupOrder = some after) :
    state.KeepsNodes after := by
  unfold threadPriorityChange at performs
  dsimp only at performs
  split at performs
  next inside =>
    obtain ⟨aggregation, changes, acts, kept⟩ := threadPriorityApply_waitPriority performs
    have changed : ∀ held, .node held ∈ aggregation.contributors ↔
        .node held ∈ (state.waitPriority thread).contributors := by
      intro held
      by_cases same : held = node
      · subst same
        exact iff_of_true (mem_of_actOn_change acts) inside
      · exact mem_of_actOn acts fun isNode => same (PriorityContributor.node.inj isNode)
    exact (keepsNodes_setWaitPriority changed).trans ⟨kept.owner, kept.operations, kept.nodes⟩
  next => exact Option.some.inj performs ▸ keepsNodes_of_eq rfl rfl rfl

/-- The actions that a change of a queue has its owner perform. -/
theorem ownerActions_keepsNodes {inherited : PriorityAggregation Thread} {type : PriorityActionType}
    (performs : ((state.owner queue).bind fun owner =>
      (state.setQueuePriority queue inherited).threadPriorityPerformActions fuel owner
        ⟨owner, .queue queue, type⟩) = some after) : state.KeepsNodes after := by
  obtain ⟨owner, -, leads⟩ := Option.bind_eq_some_iff.mp performs
  have kept := performActions_keepsNodes ⟨queue, rfl⟩ leads
  exact ⟨kept.owner, kept.operations, kept.nodes⟩

theorem doInitialize_keepsNodes (performs : state.doInitialize fuel queue thread = some after) :
    state.KeepsNodes after := by
  unfold doInitialize at performs
  split at performs
  next => cases performs
  next => exact Option.some.inj performs ▸ keepsNodes_of_eq rfl rfl rfl
  next => exact Option.some.inj performs ▸ keepsNodes_of_eq rfl rfl rfl
  next =>
    obtain ⟨owner, -, leads⟩ := Option.bind_eq_some_iff.mp performs
    have kept := performActions_keepsNodes ⟨queue, rfl⟩ leads
    exact ⟨kept.owner, kept.operations, kept.nodes⟩

theorem doEnqueue_keepsNodes (performs : state.doEnqueue fuel queue thread = some after) :
    state.KeepsNodes after := by
  unfold doEnqueue at performs
  dsimp only at performs
  split at performs
  next => cases performs
  next => exact Option.some.inj performs ▸ keepsNodes_of_eq rfl rfl rfl
  next => exact Option.some.inj performs ▸ keepsNodes_of_eq rfl rfl rfl
  next =>
    split at performs
    next => exact Option.some.inj performs ▸ keepsNodes_of_eq rfl rfl rfl
    next => exact ownerActions_keepsNodes performs

theorem threadQueueEnqueue_keepsNodes {enqueued : ThreadQueueEnqueued}
    (performs : state.threadQueueEnqueue fuel queue thread = some (after, enqueued)) :
    state.KeepsNodes after := by
  unfold threadQueueEnqueue at performs
  dsimp only at performs
  split at performs
  next => cases performs
  next =>
    obtain ⟨rfl, -⟩ := Prod.mk.inj (Option.some.inj performs)
    exact keepsNodes_of_eq rfl rfl rfl
  next =>
    obtain ⟨queued, enqueues, is⟩ := Option.map_eq_some_iff.mp performs
    obtain ⟨rfl, -⟩ := Prod.mk.inj is
    unfold queueEnqueue at enqueues
    dsimp only at enqueues
    split at enqueues
    next =>
      have kept := doInitialize_keepsNodes enqueues
      exact ⟨kept.owner, kept.operations, kept.nodes⟩
    next =>
      have kept := doEnqueue_keepsNodes enqueues
      exact ⟨kept.owner, kept.operations, kept.nodes⟩

theorem doExtract_keepsNodes
    (performs : state.doExtract fuel operations queue thread = some after) :
    state.KeepsNodes after := by
  unfold doExtract at performs
  dsimp only at performs
  split at performs
  next => cases performs
  next => exact Option.some.inj performs ▸ keepsNodes_of_eq rfl rfl rfl
  next => exact Option.some.inj performs ▸ keepsNodes_of_eq rfl rfl rfl
  next =>
    split at performs
    next => exact Option.some.inj performs ▸ keepsNodes_of_eq rfl rfl rfl
    next => exact ownerActions_keepsNodes performs
    next => exact ownerActions_keepsNodes performs

theorem threadWaitCancel_keepsNodes (performs : state.threadWaitCancel fuel thread = some after) :
    state.KeepsNodes after := by
  unfold threadWaitCancel at performs
  split at performs
  next => exact Option.some.inj performs ▸ .refl state
  next queue waits =>
    obtain ⟨extracted, extracts, rfl⟩ := Option.map_eq_some_iff.mp performs
    have kept := doExtract_keepsNodes extracts
    exact ⟨kept.owner, kept.operations, kept.nodes⟩

omit [DecidableEq Queue] [DecidableEq Node] in
theorem surrenderChange_keepsNodes (aggregation updated : Thread)
    (changes : Option PriorityGroupOrder) :
    state.KeepsNodes (state.surrenderChange aggregation updated changes) := by
  obtain ⟨schedulerPriority, updates, is⟩ := state.surrenderChange_eq aggregation updated changes
  rw [is]
  exact keepsNodes_of_eq rfl rfl rfl

theorem priorityInheritDoSurrender_keepsNodes
    (performs : state.priorityInheritDoSurrender queue previousOwner thread = some after) :
    state.KeepsNodes after := by
  obtain ⟨nodeOfOwner, -, releases⟩ := Option.bind_eq_some_iff.mp performs
  obtain ⟨⟨released, changes⟩, extracts, is⟩ := Option.map_eq_some_iff.mp releases
  have erased := PriorityAggregation.extractNonEmpty_contributors extracts
  have dropped : state.KeepsNodes (state.setWaitPriority nodeOfOwner released) := by
    refine keepsNodes_setWaitPriority fun node => ?_
    rw [erased]
    exact List.mem_erase_of_ne nofun
  have changed := dropped.trans (surrenderChange_keepsNodes nodeOfOwner previousOwner changes)
  dsimp only at is
  generalize (state.setWaitPriority nodeOfOwner released).surrenderChange nodeOfOwner
    previousOwner changes = settled at is changed
  generalize ((settled.queuePriority queue).extract settled.priority thread).1 = remaining at is
  have taken : state.KeepsNodes (settled.setQueuePriority queue remaining) :=
    ⟨changed.owner, changed.operations, changed.nodes⟩
  generalize settled.setQueuePriority queue remaining = extracted at is taken
  split at is
  next => exact is ▸ taken
  next =>
    rw [← is]
    have scheduled : state.KeepsNodes (extracted.setSchedulerNode queue thread) :=
      ⟨taken.owner, taken.operations, taken.nodes⟩
    refine (scheduled.trans (keepsNodes_setWaitPriority fun node => ?_)).trans
      (surrenderChange_keepsNodes _ _ _)
    rw [PriorityAggregation.nonEmptyInsert_contributors, PriorityAggregation.mem_plainInsert]
    exact or_iff_right nofun

theorem queueSurrender_keepsNodes
    (performs : state.queueSurrender queue previousOwner = some (after, thread)) :
    state.KeepsNodes after := by
  obtain ⟨first, -, surrenders⟩ := Option.bind_eq_some_iff.mp performs
  dsimp only at surrenders
  split at surrenders
  next => cases surrenders
  next =>
    obtain ⟨rfl, -⟩ := Prod.mk.inj (Option.some.inj surrenders)
    exact keepsNodes_of_eq rfl rfl rfl
  next =>
    obtain ⟨rfl, -⟩ := Prod.mk.inj (Option.some.inj surrenders)
    exact keepsNodes_of_eq rfl rfl rfl
  next =>
    obtain ⟨handed, hands, is⟩ := Option.map_eq_some_iff.mp surrenders
    obtain ⟨rfl, -⟩ := Prod.mk.inj is
    have kept := priorityInheritDoSurrender_keepsNodes hands
    exact ⟨kept.owner, kept.operations, kept.nodes⟩

/-- A surrender keeps the scheduler nodes of the threads. -/
theorem coreMutexSurrender_nodes {executing : Thread}
    (performs : state.coreMutexSurrender queue executing = some after) :
    after.operations = state.operations ∧
      (∀ other, other ≠ queue → after.owner other = state.owner other) ∧
      ∀ thread node, .node node ∈ (after.waitPriority thread).contributors ↔
        .node node ∈ (state.waitPriority thread).contributors := by
  unfold coreMutexSurrender at performs
  split at performs
  next => exact Option.some.inj performs ▸ ⟨rfl, fun _ _ => rfl, fun _ _ => Iff.rfl⟩
  next =>
    dsimp only at performs
    split at performs
    next =>
      exact Option.some.inj performs ▸
        ⟨rfl, fun other apart => update_of_ne apart _ _, fun _ _ => Iff.rfl⟩
    next =>
      obtain ⟨⟨handed, newOwner⟩, surrenders, rfl⟩ := Option.map_eq_some_iff.mp performs
      have kept := queueSurrender_keepsNodes surrenders
      refine ⟨kept.operations, fun other apart => ?_, kept.nodes⟩
      refine (update_of_ne apart _ _).trans ((congrFun kept.owner other).trans ?_)
      exact update_of_ne apart _ _

end ThreadQueues

end RTContainer.Score
