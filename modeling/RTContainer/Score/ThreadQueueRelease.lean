import RTContainer.Score.ThreadQueueOperations

/-! A thread leaves its queue, by a timeout or as the new owner. -/

set_option autoImplicit false

namespace RTContainer.Score

open Walk Function

namespace ThreadQueues

variable {Thread Queue Node : Type} [DecidableEq Thread] [DecidableEq Queue]
variable {state : ThreadQueues Thread Queue Node}

/-- A thread is taken off the chain of a queue. -/
structure Shortened (state after : ThreadQueues Thread Queue Node) (thread : Thread)
    (queue : Queue) : Prop where
  freeChain : after.freeChain = update state.freeChain queue (state.freeChain queue - 1)
  operations : after.operations = state.operations
  erased : (after.queuePriority queue).contributors =
    (state.queuePriority queue).contributors.erase thread
  others : ∀ other, other ≠ queue → after.queuePriority other = state.queuePriority other
  nodes : ∀ other node, .node node ∈ (after.waitPriority other).contributors ↔
    .node node ∈ (state.waitPriority other).contributors

structure Extracted (state after : ThreadQueues Thread Queue Node) (thread : Thread)
    (queue : Queue) : Prop extends state.Shortened after thread queue where
  waitQueue : after.waitQueue = state.waitQueue
  waitOperations : after.waitOperations = state.waitOperations
  owner : after.owner = state.owner
  schedulerNode : after.schedulerNode = state.schedulerNode

variable {thread owner previous : Thread} {queue inner : Queue}
variable {after : ThreadQueues Thread Queue Node} {aggregation : PriorityAggregation Thread}

omit [DecidableEq Thread] [DecidableEq Queue] in
theorem Linked.ne_nil (linked : state.Linked fun _ => False)
    (waits : state.waitQueue thread = some queue) :
    (state.queuePriority queue).contributors ≠ [] :=
  List.ne_nil_of_mem (linked.present waits fun left => left)

section

variable (shortened : state.Shortened after thread queue) (linked : state.Linked fun _ => False)
include shortened

theorem Shortened.subset {other : Thread}
    (inside : other ∈ (after.queuePriority inner).contributors) :
    other ∈ (state.queuePriority inner).contributors := by
  by_cases same : inner = queue
  · subst same
    rw [shortened.erased] at inside
    exact List.mem_of_mem_erase inside
  · rw [shortened.others inner same] at inside
    exact inside

include linked

theorem Shortened.free (waits : state.waitQueue thread = some queue) (inner : Queue) :
    after.freeChain inner = (after.queuePriority inner).contributors.length := by
  rw [shortened.freeChain]
  by_cases same : inner = queue
  · subst same
    rw [update_self, shortened.erased, linked.free,
      List.length_erase_of_mem (linked.present waits fun left => left)]
  · rw [update_of_ne same, shortened.others inner same]
    exact linked.free inner

theorem Shortened.once (inner : Queue) : (after.queuePriority inner).contributors.Nodup := by
  by_cases same : inner = queue
  · subst same
    rw [shortened.erased]
    exact (linked.once inner).erase thread
  · rw [shortened.others inner same]
    exact linked.once inner

theorem Shortened.real (other : Thread) :
    ∃ node, .node node ∈ (after.waitPriority other).contributors := by
  obtain ⟨node, inside⟩ := linked.real other
  exact ⟨node, (shortened.nodes other node).mpr inside⟩

end

theorem Extracted.linked (extracted : state.Extracted after thread queue)
    (linked : state.Linked fun _ => False) (waits : state.waitQueue thread = some queue)
    (contributes : ∀ other inner,
      .queue inner ∈ (after.waitPriority other).contributors ↔ after.Inherits other inner) :
    after.Linked fun other => other = thread where
  waiting {other inner} inside := by
    rw [extracted.waitQueue]
    exact linked.waiting (extracted.subset inside)
  present {other inner} waitsOther stays := by
    rw [extracted.waitQueue] at waitsOther
    have before := linked.present waitsOther fun left => left
    by_cases same : inner = queue
    · subst same
      rw [extracted.erased]
      exact (List.mem_erase_of_ne stays).mpr before
    · rw [extracted.others inner same]
      exact before
  passed other := by
    rw [extracted.waitOperations, extracted.waitQueue, extracted.operations]
    exact linked.passed other
  used inner := by
    rw [extracted.operations]
    exact linked.used inner
  free := extracted.free linked waits
  once := extracted.once linked
  owned {inner} occupied := by
    rw [extracted.owner]
    obtain ⟨other, inside⟩ := List.exists_mem_of_ne_nil _ occupied
    exact linked.owned (List.ne_nil_of_mem (extracted.subset inside))
  contributes := contributes
  scheduler {other inner} inherits := by
    rw [extracted.schedulerNode]
    obtain ⟨first, inside⟩ := List.exists_mem_of_ne_nil _ inherits.2.2
    refine linked.scheduler ⟨extracted.operations ▸ inherits.1, extracted.owner ▸ inherits.2.1, ?_⟩
    exact List.ne_nil_of_mem (extracted.subset inside)
  active {node first second} inside insideOther :=
    linked.active ((extracted.nodes first node).mp inside)
      ((extracted.nodes second node).mp insideOther)
  real := extracted.real linked
  ends := by
    have same : after.waitsFor = state.waitsFor := by
      funext place
      cases place with
      | inl other => simp only [waitsFor, extracted.waitQueue]
      | inr inner => simp only [waitsFor, extracted.owner]
    rw [same]
    exact linked.ends

section

omit [DecidableEq Queue]

@[simp] theorem threadWaitRestoreDefault_self (thread : Thread) :
    (state.threadWaitRestoreDefault thread).waitQueue thread = none :=
  update_self ..

private theorem threadWaitRestoreDefault_of_ne {thread other : Thread} (apart : other ≠ thread) :
    (state.threadWaitRestoreDefault thread).waitQueue other = state.waitQueue other :=
  update_of_ne apart ..

theorem Linked.restore_ends {leaving : Thread → Prop} (linked : state.Linked leaving)
    (thread : Thread) : Ends (state.threadWaitRestoreDefault thread).waitsFor := by
  classical
  rw [waitsFor_update_waitQueue state (state.threadWaitRestoreDefault thread) rfl rfl]
  exact linked.ends.update_none _

theorem Linked.restore {thread : Thread} (linked : state.Linked fun other => other = thread)
    (gone : ∀ queue, thread ∉ (state.queuePriority queue).contributors) :
    (state.threadWaitRestoreDefault thread).Linked fun _ => False where
  __ := linked
  waiting {other queue} inside := by
    have apart : other ≠ thread := by
      rintro rfl
      exact gone queue inside
    exact (threadWaitRestoreDefault_of_ne apart).trans (linked.waiting inside)
  present {other queue} waits _ := by
    have apart : other ≠ thread := by
      rintro rfl
      cases (threadWaitRestoreDefault_self other).symm.trans waits
    exact linked.present ((threadWaitRestoreDefault_of_ne apart).symm.trans waits) apart
  passed other := by
    unfold threadWaitRestoreDefault
    dsimp only
    by_cases same : other = thread
    · subst same
      rw [update_self, update_self]
      rfl
    · rw [update_of_ne same, update_of_ne same]
      exact linked.passed other
  ends := linked.restore_ends thread

theorem Ordered.restore (ordered : state.Ordered) (thread : Thread) :
    (state.threadWaitRestoreDefault thread).Ordered where
  threads := ordered.threads
  queues queue := (ordered.queues queue).congr rfl rfl fun _ _ => rfl

end

def extracting (state : ThreadQueues Thread Queue Node) (queue : Queue) :
    ThreadQueues Thread Queue Node :=
  state.clearPriorityUpdates.setFreeChain queue (state.freeChain queue - 1)

omit [DecidableEq Thread] in
theorem QueueOrdered.extracting (ordered : state.QueueOrdered inner) (apart : inner ≠ queue)
    (aggregation : PriorityAggregation Thread) :
    ((state.extracting queue).setQueuePriority queue aggregation).QueueOrdered inner :=
  ordered.congr rfl (setQueuePriority_of_ne _ apart aggregation) fun _ _ => rfl

theorem extracted_setQueuePriority (state : ThreadQueues Thread Queue Node)
    (erased : aggregation.contributors = (state.queuePriority queue).contributors.erase thread) :
    state.Extracted ((state.extracting queue).setQueuePriority queue aggregation) thread queue where
  waitQueue := rfl
  waitOperations := rfl
  owner := rfl
  freeChain := rfl
  schedulerNode := rfl
  operations := rfl
  erased := by
    rw [setQueuePriority_self]
    exact erased
  others other apart := setQueuePriority_of_ne _ apart aggregation
  nodes _ _ := Iff.rfl

theorem Extracted.contributes (extracted : state.Extracted after thread queue)
    (linked : state.Linked fun _ => False) (waits : state.waitQueue thread = some queue)
    (threads : after.waitPriority = state.waitPriority)
    (remains : state.operations queue = .priorityInherit →
      (after.queuePriority queue).contributors ≠ []) (other : Thread) (inner : Queue) :
    .queue inner ∈ (after.waitPriority other).contributors ↔ after.Inherits other inner := by
  rw [threads, linked.contributes]
  unfold Inherits
  rw [extracted.operations, extracted.owner]
  by_cases same : inner = queue
  · subst same
    have occupied := linked.ne_nil waits
    exact ⟨fun inherits => ⟨inherits.1, inherits.2.1, remains inherits.1⟩,
      fun inherits => ⟨inherits.1, inherits.2.1, occupied⟩⟩
  · rw [extracted.others inner same]

theorem Extracted.settled {final : ThreadQueues Thread Queue Node}
    (extracted : state.Extracted after thread queue) (linked : state.Linked fun _ => False)
    (waits : state.waitQueue thread = some queue)
    (linkedAfter : after.Linked fun other => other = thread) (same : after.SameLinks final)
    (ordered : final.Ordered) : (final.threadWaitRestoreDefault thread).Settled := by
  refine ⟨(linkedAfter.ofSame same).restore fun inner inside => ?_, ordered.restore thread⟩
  have before := (same.queues inner).mem_iff.mp inside
  have equal := Option.some.inj (waits.symm.trans (linked.waiting (extracted.subset before)))
  subst equal
  rw [extracted.erased] at before
  exact (linked.once queue).not_mem_erase before

theorem Settled.plainExtract (settled : state.Settled) (waits : state.waitQueue thread = some queue)
    (plain : state.operations queue ≠ .priorityInherit) :
    (((state.extracting queue).setQueuePriority queue
      ((state.queuePriority queue).plainExtract thread)).threadWaitRestoreDefault
        thread).Settled := by
  have extracted := state.extracted_setQueuePriority
    (show ((state.queuePriority queue).plainExtract thread).contributors = _ from rfl)
  have linked := extracted.linked settled.linked waits
    (extracted.contributes settled.linked waits rfl fun inherit => absurd inherit plain)
  refine extracted.settled settled.linked waits linked (.refl _) ⟨fun other => ?_, fun inner => ?_⟩
  · refine (settled.ordered.threads other).congr fun node inside => ?_
    refine setQueuePriority_contribution queue _ ?_
    rintro rfl
    exact plain ((settled.linked.contributes other queue).mp inside).1
  · by_cases same : inner = queue
    · subst same
      refine ⟨fun inherit => absurd inherit plain, fun byPriority => ?_⟩
      rw [setQueuePriority_self]
      exact ((settled.ordered.queues inner).sorted byPriority).sublist List.erase_sublist
    · exact (settled.ordered.queues inner).extracting same _

variable [DecidableEq Node]

theorem Acts.settles_leaving {aggregation : PriorityAggregation (PriorityContributor Queue Node)}
    {changes : Option PriorityGroupOrder}
    (acts : after.Acts owner aggregation changes fun other => other = thread)
    (waits : after.waitQueue thread = some queue) (owns : after.owner queue = some owner)
    {action : PriorityAction Thread Queue Node}
    (first : after.actOn action .last = some (aggregation, changes))
    (own : action.aggregation = owner) :
    ∃ final enough, (∀ fuel ≥ enough,
      after.threadPriorityPerformActions fuel owner action = some final) ∧
        (after.setWaitPriority owner aggregation).SameLinks final ∧ final.Ordered := by
  refine acts.performActions after.updates.length first own fun left same reaches => ?_
  subst same
  have cycle := (follows_owner waits owns).trans_left reaches
  exact acts.linked.ends.acyclic _ cycle

theorem Settled.inheritRemove (settled : state.Settled)
    (waits : state.waitQueue thread = some queue) (owns : state.owner queue = some owner)
    (inherit : state.operations queue = .priorityInherit)
    (erased : aggregation.contributors = (state.queuePriority queue).contributors.erase thread)
    (priority : aggregation.priority = (state.queuePriority queue).priority) (queues : ∀ inner,
      ((state.extracting queue).setQueuePriority queue aggregation).QueueOrdered inner)
    (empty : aggregation.contributors = []) (stays : owner ≠ thread) :
    ∃ after enough, (∀ fuel ≥ enough,
      ((state.extracting queue).setQueuePriority queue aggregation).threadPriorityPerformActions
        fuel owner ⟨owner, .queue queue, .remove⟩ = some after) ∧
      (after.threadWaitRestoreDefault thread).Settled := by
  have contribution : ((state.extracting queue).setQueuePriority queue aggregation).contribution =
      state.contribution :=
    (setQueuePriority_contribution_same priority).trans rfl
  have inside := (settled.linked.contributes owner queue).mpr
    ⟨inherit, owns, settled.linked.ne_nil waits⟩
  obtain ⟨node, isReal⟩ := settled.linked.real owner
  have remains : (state.waitPriority owner).contributors.erase (.queue queue) ≠ [] :=
    List.ne_nil_of_mem ((List.mem_erase_of_ne (by simp)).mpr isReal)
  obtain ⟨released, changes, releases, exact, erasedOwner, kept⟩ :=
    (settled.ordered.threads owner).extractNonEmpty inside remains
  have first : ((state.extracting queue).setQueuePriority queue aggregation).actOn
      ⟨owner, .queue queue, .remove⟩ .last = some (released, changes) := by
    unfold actOn
    rw [contribution]
    exact releases
  have ofOther : ∀ other, other ≠ owner →
      (((state.extracting queue).setQueuePriority queue aggregation).setWaitPriority owner
        released).waitPriority other = state.waitPriority other :=
    fun other apart => setWaitPriority_of_ne _ apart released
  have member : ∀ node, node ∈ (((state.extracting queue).setQueuePriority queue
      aggregation).setWaitPriority owner released |>.waitPriority owner).contributors ↔
        node ≠ .queue queue ∧ node ∈ (state.waitPriority owner).contributors := by
    intro node
    rw [setWaitPriority_self, erasedOwner]
    exact (settled.ordered.threads owner).nodup.mem_erase_iff
  have extracted : state.Extracted (((state.extracting queue).setQueuePriority queue
      aggregation).setWaitPriority owner released) thread queue :=
    { state.extracted_setQueuePriority erased with
      nodes := fun other node => by
        by_cases same : other = owner
        · subst same
          rw [member]
          simp
        · rw [ofOther other same] }
  have inherits : ∀ other inner, (((state.extracting queue).setQueuePriority queue
      aggregation).setWaitPriority owner released).Inherits other inner ↔
        inner ≠ queue ∧ state.Inherits other inner := by
    intro other inner
    unfold Inherits
    rw [extracted.operations, extracted.owner]
    by_cases same : inner = queue
    · subst same
      have none : (((state.extracting inner).setQueuePriority inner aggregation).setWaitPriority
          owner released |>.queuePriority inner).contributors = [] :=
        extracted.erased.trans (erased.symm.trans empty)
      simp [none]
    · rw [extracted.others inner same]
      simp [same]
  have linked := extracted.linked settled.linked waits fun other inner => by
    rw [inherits, ← settled.linked.contributes]
    by_cases same : other = owner
    · subst same
      rw [member]
      simp
    · rw [ofOther other same]
      refine ⟨fun isInside => ⟨?_, isInside⟩, fun isInside => isInside.2⟩
      rintro rfl
      have ownsOther := ((settled.linked.contributes other inner).mp isInside).2.1
      exact same (Option.some.inj (ownsOther.symm.trans owns))
  have acts : ((state.extracting queue).setQueuePriority queue aggregation).Acts owner released
      changes fun other => other = thread :=
    { except :=
        { threads := fun {other} _ => by
            rw [contribution]
            exact settled.ordered.threads other
          queues := queues }
      exact := by
        rw [contribution]
        exact exact
      same := kept
      linked := linked
      stays := stays }
  obtain ⟨final, enough, ends, same, ordered⟩ := acts.settles_leaving waits owns first rfl
  exact ⟨final, enough, ends, extracted.settled settled.linked waits linked same ordered⟩

theorem Settled.inheritExtract (settled : state.Settled)
    (waits : state.waitQueue thread = some queue)
    (inherit : state.operations queue = .priorityInherit) :
    ∃ after enough, (∀ fuel ≥ enough, (state.extracting queue).doExtract fuel .priorityInherit queue
      thread = some after) ∧ (after.threadWaitRestoreDefault thread).Settled := by
  have inside := settled.linked.present waits fun left => left
  have occupied := List.ne_nil_of_mem inside
  obtain ⟨owner, owns⟩ := Option.ne_none_iff_exists'.mp (settled.linked.owned occupied)
  have stays : owner ≠ thread := by
    rintro rfl
    exact settled.linked.ends.acyclic _ (follows_owner waits owns)
  obtain ⟨exact, erased, kept, empties⟩ :=
    ((settled.ordered.queues queue).inherit inherit).extract inside
  generalize extracts : (state.queuePriority queue).extract state.priority thread = result
    at exact erased kept empties
  obtain ⟨aggregation, outcome⟩ := result
  have extracted := state.extracted_setQueuePriority erased
  have queues : ∀ inner,
      ((state.extracting queue).setQueuePriority queue aggregation).QueueOrdered inner := by
    intro inner
    by_cases same : inner = queue
    · subst same
      refine ⟨fun _ => ?_, fun byPriority => (nomatch inherit.symm.trans byPriority)⟩
      rw [setQueuePriority_self]
      exact exact
    · exact (settled.ordered.queues inner).extracting same aggregation
  have linked := fun remains : outcome ≠ .remove =>
    extracted.linked settled.linked waits (extracted.contributes settled.linked waits rfl
      fun _ empty => remains (empties.mpr (extracted.erased.symm.trans empty)))
  have extracts' : ((state.extracting queue).queuePriority queue).extract
      (state.extracting queue).priority thread = (aggregation, outcome) := extracts
  have owns' : (state.extracting queue).owner queue = some owner := owns
  cases outcome with
  | nothing =>
    have contribution : ((state.extracting queue).setQueuePriority queue aggregation).contribution =
        (state.extracting queue).contribution :=
      setQueuePriority_contribution_same (kept fun _ same => nomatch same)
    refine ⟨_, 0, fun fuel _ => by simp only [doExtract, extracts'], extracted.settled
      settled.linked waits (linked (by simp)) (.refl _) ⟨fun other => ?_, queues⟩⟩
    rw [contribution]
    exact settled.ordered.threads other
  | remove =>
    obtain ⟨after, enough, ends, settledAfter⟩ := settled.inheritRemove waits owns inherit erased
      (kept fun _ same => nomatch same) queues (erased.trans (empties.mp rfl)) stays
    refine ⟨after, enough, fun fuel enough => ?_, settledAfter⟩
    simp only [doExtract, extracts', owns', Option.bind_some]
    exact ends fuel enough
  | change order =>
    have contributes : ∀ other inner,
        .queue inner ∈ ((state.extracting queue).waitPriority other).contributors ↔
          (state.extracting queue).Inherits other inner := settled.linked.contributes
    obtain ⟨except, opened⟩ := OrderedExcept.setQueuePriority contributes
      settled.ordered.threads ⟨inherit, owns, occupied⟩ queues
    have carries : ((state.extracting queue).setQueuePriority queue aggregation).Carries
        thread ⟨owner, .queue queue, .change⟩ := ⟨⟨queue, waits, owns, rfl⟩, rfl, except, opened⟩
    obtain ⟨_, _, first, sameFirst, acts⟩ := carries.acts (linked (by simp)) stays .last
    obtain ⟨final, enough, ends, same, ordered⟩ := acts.settles_leaving waits owns first rfl
    refine ⟨final, enough, fun fuel enough => ?_, extracted.settled settled.linked waits
      (linked (by simp)) (sameFirst.trans same) ordered⟩
    simp only [doExtract, extracts', owns', Option.bind_some]
    exact ends fuel enough

/-- A timeout takes a thread off its queue, and the priorities settle. -/
theorem Settled.threadWaitCancel (settled : state.Settled) (thread : Thread) :
    ∃ after enough, (∀ fuel ≥ enough, state.threadWaitCancel fuel thread = some after) ∧
      after.Settled := by
  cases waits : state.waitQueue thread with
  | none => exact ⟨state, 0, fun fuel _ => by simp only [ThreadQueues.threadWaitCancel, waits], settled⟩
  | some queue =>
    have passed : state.waitOperations thread = state.operations queue := by
      rw [settled.linked.passed, waits]
      rfl
    have extracting : ∀ fuel, state.clearPriorityUpdates.queueExtract fuel
        (state.waitOperations thread) queue thread =
          (state.extracting queue).doExtract fuel (state.operations queue) queue thread :=
      fun fuel => passed ▸ rfl
    have plain : state.operations queue ≠ .priorityInherit → ∀ fuel,
        (state.extracting queue).doExtract fuel (state.operations queue) queue thread =
          some ((state.extracting queue).setQueuePriority queue
            ((state.queuePriority queue).plainExtract thread)) := by
      intro apart fuel
      cases kind : state.operations queue with
      | default => exact absurd kind (settled.linked.used queue)
      | fifo => rfl
      | priority => rfl
      | priorityInherit => exact absurd kind apart
    by_cases inherit : state.operations queue = .priorityInherit
    · obtain ⟨after, enough, ends, settledAfter⟩ := settled.inheritExtract waits inherit
      refine ⟨after.threadWaitRestoreDefault thread, enough, fun fuel enough => ?_, settledAfter⟩
      simp only [ThreadQueues.threadWaitCancel, waits, extracting, inherit, ends fuel enough,
        Option.map_some]
    · refine ⟨_, 0, fun fuel _ => ?_, settled.plainExtract waits inherit⟩
      simp only [ThreadQueues.threadWaitCancel, waits, extracting, plain inherit, Option.map_some]

structure Surrendered (state after : ThreadQueues Thread Queue Node) (thread : Thread)
    (queue : Queue) : Prop extends state.Shortened after thread queue where
  waitQueue : after.waitQueue = update state.waitQueue thread none
  waitOperations : after.waitOperations = update state.waitOperations thread .default
  owner : after.owner = update state.owner queue (some thread)

section

omit [DecidableEq Node]

variable {after : ThreadQueues Thread Queue Node} {thread other : Thread} {queue inner : Queue}

section

variable (surrendered : state.Surrendered after thread queue)
include surrendered

theorem Surrendered.mem_iff (linked : state.Linked fun _ => False)
    (waits : state.waitQueue thread = some queue) :
    other ∈ (after.queuePriority inner).contributors ↔
      other ≠ thread ∧ other ∈ (state.queuePriority inner).contributors := by
  by_cases same : inner = queue
  · subst same
    rw [surrendered.erased]
    exact (linked.once inner).mem_erase_iff
  · rw [surrendered.others inner same]
    refine ⟨fun inside => ⟨?_, inside⟩, fun inside => inside.2⟩
    rintro rfl
    exact same (Option.some.inj ((linked.waiting inside).symm.trans waits))

theorem Surrendered.linked (linked : state.Linked fun _ => False)
    (waits : state.waitQueue thread = some queue) (contributes : ∀ other inner,
      .queue inner ∈ (after.waitPriority other).contributors ↔ after.Inherits other inner)
    (scheduler : ∀ {other inner}, after.Inherits other inner →
      after.schedulerNode inner = some other) : after.Linked fun _ => False where
  waiting {other inner} inside := by
    obtain ⟨apart, before⟩ := (surrendered.mem_iff linked waits).mp inside
    rw [surrendered.waitQueue, update_of_ne apart]
    exact linked.waiting before
  present {other inner} waitsOther stays := by
    rw [surrendered.waitQueue] at waitsOther
    have apart : other ≠ thread := by
      rintro rfl
      rw [update_self] at waitsOther
      cases waitsOther
    rw [update_of_ne apart] at waitsOther
    exact (surrendered.mem_iff linked waits).mpr ⟨apart, linked.present waitsOther stays⟩
  passed other := by
    rw [surrendered.waitOperations, surrendered.waitQueue, surrendered.operations]
    by_cases same : other = thread
    · subst same
      rw [update_self, update_self]
      rfl
    · rw [update_of_ne same, update_of_ne same]
      exact linked.passed other
  used inner := by
    rw [surrendered.operations]
    exact linked.used inner
  free := surrendered.free linked waits
  once := surrendered.once linked
  owned {inner} occupied := by
    rw [surrendered.owner]
    by_cases same : inner = queue
    · subst same
      rw [update_self]
      exact Option.some_ne_none thread
    · rw [update_of_ne same]
      rw [surrendered.others inner same] at occupied
      exact linked.owned occupied
  contributes := contributes
  scheduler := scheduler
  active {node first second} inside insideOther :=
    linked.active ((surrendered.nodes first node).mp inside)
      ((surrendered.nodes second node).mp insideOther)
  real := surrendered.real linked
  ends := by
    have left := linked.restore_ends thread
    have edge := waitsFor_update_owner (state.threadWaitRestoreDefault thread) after
      surrendered.waitQueue surrendered.owner
    rw [edge]
    refine left.update_some ?_
    rw [reaches_of_none (waitsFor_inl_none (threadWaitRestoreDefault_self thread))]
    exact Sum.inl_ne_inr

theorem Surrendered.inherits_of_ne (apart : inner ≠ queue) :
    after.Inherits other inner ↔ state.Inherits other inner := by
  unfold Inherits
  rw [surrendered.operations, surrendered.owner, surrendered.others inner apart, update_of_ne apart]

theorem Surrendered.contribution (nodePriority : after.nodePriority = state.nodePriority)
    {node : PriorityContributor Queue Node} (apart : node ≠ .queue queue) :
    after.contribution node = state.contribution node := by
  cases node with
  | node node => exact congrFun nodePriority node
  | queue inner =>
    have distinct : inner ≠ queue := fun same => apart (congrArg _ same)
    exact congrArg (·.priority) (surrendered.others inner distinct)

theorem Surrendered.settled_plain (settled : state.Settled)
    (waits : state.waitQueue thread = some queue)
    (plain : state.operations queue ≠ .priorityInherit)
    (threads : after.waitPriority = state.waitPriority)
    (nodePriority : after.nodePriority = state.nodePriority)
    (schedulerNode : after.schedulerNode = state.schedulerNode) : after.Settled := by
  have inherits : ∀ other inner, after.Inherits other inner ↔ state.Inherits other inner := by
    intro other inner
    by_cases same : inner = queue
    · subst same
      exact ⟨fun inherited => absurd (surrendered.operations ▸ inherited.1) plain,
        fun inherited => absurd inherited.1 plain⟩
    · exact surrendered.inherits_of_ne same
  have priority : ∀ other, after.priority other = state.priority other := by
    intro other
    unfold ThreadQueues.priority
    rw [threads]
  refine ⟨surrendered.linked settled.linked waits (fun other inner => ?_)
    fun {other inner} inherited => ?_, fun other => ?_, fun inner => ?_⟩
  · rw [threads, inherits]
    exact settled.linked.contributes other inner
  · rw [schedulerNode]
    exact settled.linked.scheduler ((inherits other inner).mp inherited)
  · rw [threads]
    refine (settled.ordered.threads other).congr fun node inside => ?_
    refine surrendered.contribution nodePriority ?_
    rintro rfl
    exact plain ((settled.linked.contributes other queue).mp inside).1
  · by_cases same : inner = queue
    · subst same
      refine ⟨fun inherit => absurd (surrendered.operations ▸ inherit) plain, fun byPriority => ?_⟩
      rw [surrendered.operations] at byPriority
      rw [surrendered.erased]
      refine (((settled.ordered.queues inner).sorted byPriority).sublist
        List.erase_sublist).imp fun le => ?_
      rw [priority, priority]
      exact le
    · exact (settled.ordered.queues inner).congr surrendered.operations
        (surrendered.others inner same) fun other _ => priority other

end

end

structure Inherited (state after : ThreadQueues Thread Queue Node) (previous thread : Thread)
    (queue : Queue) : Prop where
  nodePriority : after.nodePriority = state.nodePriority
  others : ∀ other, other ≠ previous → other ≠ thread →
    after.waitPriority other = state.waitPriority other
  released : (after.waitPriority previous).Exact state.contribution
  given : (after.waitPriority previous).contributors =
    (state.waitPriority previous).contributors.erase (.queue queue)
  exactQueue : (after.queuePriority queue).Exact after.priority
  alone : (after.queuePriority queue).contributors = [] →
    after.waitPriority thread = state.waitPriority thread
  exactThread : (after.queuePriority queue).contributors ≠ [] →
    (after.waitPriority thread).Exact after.contribution
  taken : (after.queuePriority queue).contributors ≠ [] →
    (after.waitPriority thread).contributors.Perm
      (.queue queue :: (state.waitPriority thread).contributors)
  schedulerNode : (after.queuePriority queue).contributors ≠ [] →
    after.schedulerNode queue = some thread
  schedulerOthers : ∀ inner, inner ≠ queue → after.schedulerNode inner = state.schedulerNode inner

theorem Surrendered.settled_inherit (surrendered : state.Surrendered after thread queue)
    (inherited : state.Inherited after previous thread queue) (settled : state.Settled)
    (waits : state.waitQueue thread = some queue) (owns : state.owner queue = some previous)
    (ready : state.waitQueue previous = none)
    (inherit : state.operations queue = .priorityInherit) : after.Settled := by
  have apart : previous ≠ thread := by
    rintro rfl
    cases ready.symm.trans waits
  have missing : ∀ other, other ≠ previous →
      .queue queue ∉ (state.waitPriority other).contributors := by
    intro other distinct inside
    have ownsOther := ((settled.linked.contributes other queue).mp inside).2.1
    exact distinct (Option.some.inj (ownsOther.symm.trans owns))
  have remains : ∀ other, after.Inherits other queue ↔
      other = thread ∧ (after.queuePriority queue).contributors ≠ [] := by
    intro other
    unfold Inherits
    rw [surrendered.operations, surrendered.owner, update_self]
    simp only [inherit, Option.some.injEq, true_and, eq_comm]
  have ofThread : ∀ node, node ≠ .queue queue →
      (node ∈ (after.waitPriority thread).contributors ↔
        node ∈ (state.waitPriority thread).contributors) := by
    intro node distinct
    by_cases empty : (after.queuePriority queue).contributors = []
    · rw [inherited.alone empty]
    · rw [(inherited.taken empty).mem_iff, List.mem_cons]
      simp [distinct]
  have ofPrevious : ∀ node, node ∈ (after.waitPriority previous).contributors ↔
      node ≠ .queue queue ∧ node ∈ (state.waitPriority previous).contributors := by
    intro node
    rw [inherited.given]
    exact (settled.ordered.threads previous).nodup.mem_erase_iff
  refine ⟨surrendered.linked settled.linked waits (fun other inner => ?_)
    fun {other inner} inherits => ?_, fun other => ?_, fun inner => ?_⟩
  · by_cases same : inner = queue
    · subst same
      rw [remains]
      by_cases isThread : other = thread
      · subst isThread
        by_cases empty : (after.queuePriority inner).contributors = []
        · rw [inherited.alone empty]
          exact ⟨fun inside => absurd inside (missing other apart.symm),
            fun occupied => absurd empty occupied.2⟩
        · rw [(inherited.taken empty).mem_iff]
          exact ⟨fun _ => ⟨rfl, empty⟩, fun _ => List.mem_cons_self⟩
      · refine ⟨fun inside => ?_, fun occupied => absurd occupied.1 isThread⟩
        by_cases isPrevious : other = previous
        · subst isPrevious
          exact absurd rfl ((ofPrevious _).mp inside).1
        · rw [inherited.others other isPrevious isThread] at inside
          exact absurd inside (missing other isPrevious)
    · have distinct : PriorityContributor.queue inner ≠ (.queue queue : PriorityContributor Queue Node) :=
        fun equal => same (PriorityContributor.queue.inj equal)
      rw [surrendered.inherits_of_ne same, ← settled.linked.contributes]
      by_cases isThread : other = thread
      · subst isThread
        exact ofThread _ distinct
      · by_cases isPrevious : other = previous
        · subst isPrevious
          rw [ofPrevious]
          exact ⟨fun inside => inside.2, fun inside => ⟨distinct, inside⟩⟩
        · rw [inherited.others other isPrevious isThread]
  · by_cases same : inner = queue
    · subst same
      obtain ⟨rfl, occupied⟩ := (remains other).mp inherits
      exact inherited.schedulerNode occupied
    · rw [inherited.schedulerOthers inner same]
      exact settled.linked.scheduler ((surrendered.inherits_of_ne same).mp inherits)
  · have kept : ∀ node ∈ (state.waitPriority other).contributors, other ≠ previous →
        after.contribution node = state.contribution node := by
      intro node inside distinct
      refine surrendered.contribution inherited.nodePriority ?_
      rintro rfl
      exact missing other distinct inside
    by_cases isPrevious : other = previous
    · subst isPrevious
      exact inherited.released.congr fun node inside =>
        surrendered.contribution inherited.nodePriority ((ofPrevious node).mp inside).1
    · by_cases isThread : other = thread
      · subst isThread
        by_cases empty : (after.queuePriority queue).contributors = []
        · rw [inherited.alone empty]
          exact (settled.ordered.threads other).congr fun node inside => kept node inside isPrevious
        · exact inherited.exactThread empty
      · rw [inherited.others other isPrevious isThread]
        exact (settled.ordered.threads other).congr fun node inside => kept node inside isPrevious
  · by_cases same : inner = queue
    · subst same
      have kind : after.operations inner = .priorityInherit := by
        rw [surrendered.operations, inherit]
      exact ⟨fun _ => inherited.exactQueue, fun byPriority => nomatch kind.symm.trans byPriority⟩
    · refine (settled.ordered.queues inner).congr surrendered.operations
        (surrendered.others inner same) fun other inside => ?_
      have waitsOther := settled.linked.waiting inside
      have notPrevious : other ≠ previous := by
        rintro rfl
        cases ready.symm.trans waitsOther
      have notThread : other ≠ thread := by
        rintro rfl
        exact same (Option.some.inj (waitsOther.symm.trans waits))
      exact congrArg (·.priority) (inherited.others other notPrevious notThread)

def surrendering (state : ThreadQueues Thread Queue Node) (queue : Queue) :
    ThreadQueues Thread Queue Node :=
  ((state.setOwner queue none).clearPriorityUpdates).setFreeChain queue (state.freeChain queue - 1)

omit [DecidableEq Node] in
theorem surrendered_of (waitQueue : after.waitQueue = state.waitQueue)
    (waitOperations : after.waitOperations = state.waitOperations)
    (owner : after.owner = (state.surrendering queue).owner)
    (freeChain : after.freeChain = (state.surrendering queue).freeChain)
    (operations : after.operations = state.operations) (queuePriority : after.queuePriority =
      update state.queuePriority queue aggregation)
    (erased : aggregation.contributors = (state.queuePriority queue).contributors.erase thread)
    (nodes : ∀ other node, .node node ∈ (after.waitPriority other).contributors ↔
      .node node ∈ (state.waitPriority other).contributors) :
    state.Surrendered ((after.setOwner queue (some thread)).threadWaitRestoreDefault thread) thread
      queue where
  waitQueue := by
    rw [← waitQueue]
    rfl
  waitOperations := by
    rw [← waitOperations]
    rfl
  owner := by
    show update after.owner queue (some thread) = _
    rw [owner]
    exact update_idem ..
  freeChain := freeChain
  operations := operations
  erased := by
    have queued := congrFun queuePriority queue
    rw [update_self] at queued
    exact (congrArg (·.contributors) queued).trans erased
  others other apart := by
    have kept := congrFun queuePriority other
    rw [update_of_ne apart] at kept
    exact kept
  nodes := nodes

omit [DecidableEq Queue] [DecidableEq Node] in
theorem surrenderChange_eq (state : ThreadQueues Thread Queue Node) (aggregation updated : Thread)
    (changes : Option PriorityGroupOrder) :
    ∃ schedulerPriority updates, state.surrenderChange aggregation updated changes =
      { state with schedulerPriority := schedulerPriority, updates := updates } := by
  cases changes with
  | none => exact ⟨state.schedulerPriority, state.updates, rfl⟩
  | some groupOrder => exact ⟨_, _, rfl⟩

/-- The fields that the surrender of an inheriting queue leaves to `_Thread_queue_Surrender`;
`inherited` is the aggregation of the new owner when a thread remains. -/
structure HandedOver (state after : ThreadQueues Thread Queue Node) (previous thread : Thread)
    (queue : Queue) (released inherited : PriorityAggregation (PriorityContributor Queue Node))
    (remaining : PriorityAggregation Thread) : Prop where
  waitQueue : after.waitQueue = state.waitQueue
  waitOperations : after.waitOperations = state.waitOperations
  owner : after.owner = (state.surrendering queue).owner
  freeChain : after.freeChain = (state.surrendering queue).freeChain
  operations : after.operations = state.operations
  nodePriority : after.nodePriority = state.nodePriority
  queuePriority : after.queuePriority = update state.queuePriority queue remaining
  waitPriority : after.waitPriority =
    if remaining.isEmpty then update state.waitPriority previous released
    else update (update state.waitPriority previous released) thread inherited
  schedulerNode : after.schedulerNode =
    if remaining.isEmpty then state.schedulerNode
    else update state.schedulerNode queue (some thread)

theorem HandedOver.settled
    {released inherited : PriorityAggregation (PriorityContributor Queue Node)}
    {remaining : PriorityAggregation Thread}
    (handed : state.HandedOver after previous thread queue released inherited remaining)
    (settled : state.Settled) (waits : state.waitQueue thread = some queue)
    (owns : state.owner queue = some previous) (ready : state.waitQueue previous = none)
    (inherit : state.operations queue = .priorityInherit)
    (exactReleased : released.Exact state.contribution)
    (given : released.contributors = (state.waitPriority previous).contributors.erase (.queue queue))
    (exactRemaining : ∀ priority : Thread → Nat,
      (∀ other, other ≠ previous → other ≠ thread → priority other = state.priority other) →
        remaining.Exact priority)
    (erased : remaining.contributors = (state.queuePriority queue).contributors.erase thread)
    (exactInherited : inherited.Exact after.contribution)

    (taken : inherited.contributors.Perm (.queue queue :: (state.waitPriority thread).contributors)) :
    ((after.setOwner queue (some thread)).threadWaitRestoreDefault thread).Settled := by
  have apart : thread ≠ previous := by
    rintro rfl
    cases ready.symm.trans waits
  have ofPrevious : after.waitPriority previous = released := by
    rw [handed.waitPriority]
    split
    · exact update_self ..
    · exact (update_of_ne apart.symm ..).trans (update_self ..)
  have ofOther : ∀ other, other ≠ previous → other ≠ thread →
      after.waitPriority other = state.waitPriority other := by
    intro other notPrevious notThread
    rw [handed.waitPriority]
    split
    · exact update_of_ne notPrevious ..
    · exact (update_of_ne notThread ..).trans (update_of_ne notPrevious ..)
  have queued : after.queuePriority queue = remaining := by
    rw [handed.queuePriority, update_self]
  have alone : remaining.contributors = [] →
      after.waitPriority thread = state.waitPriority thread := by
    intro empty
    rw [handed.waitPriority, if_pos (PriorityAggregation.isEmpty_iff.mpr empty)]
    exact update_of_ne apart ..
  have takes : remaining.contributors ≠ [] → after.waitPriority thread = inherited := by
    intro occupied
    rw [handed.waitPriority, if_neg fun empty => occupied (PriorityAggregation.isEmpty_iff.mp empty),
      update_self]
  have surrendered := surrendered_of handed.waitQueue handed.waitOperations handed.owner
    handed.freeChain handed.operations handed.queuePriority erased fun other node => by
      by_cases isPrevious : other = previous
      · subst isPrevious
        rw [ofPrevious, given]
        exact List.mem_erase_of_ne (by simp)
      · by_cases isThread : other = thread
        · subst isThread
          by_cases empty : remaining.contributors = []
          · rw [alone empty]
          · rw [takes empty, taken.mem_iff]
            simp
        · rw [ofOther other isPrevious isThread]
  refine surrendered.settled_inherit ?_ settled waits owns ready inherit
  exact
    { nodePriority := handed.nodePriority
      others := ofOther
      released := ofPrevious.symm ▸ exactReleased
      given := ofPrevious.symm ▸ given
      exactQueue := by
        show (after.queuePriority queue).Exact after.priority
        rw [queued]
        exact exactRemaining _ fun other notPrevious notThread =>
          congrArg (·.priority) (ofOther other notPrevious notThread)
      alone := fun empty => alone (queued ▸ empty)
      exactThread := fun occupied => by
        show (after.waitPriority thread).Exact after.contribution
        rw [takes (queued ▸ occupied)]
        exact exactInherited
      taken := fun occupied => by
        show (after.waitPriority thread).contributors.Perm _
        rw [takes (queued ▸ occupied)]
        exact taken
      schedulerNode := fun occupied => by
        have remains : remaining.contributors ≠ [] := queued ▸ occupied
        show after.schedulerNode queue = some thread
        rw [handed.schedulerNode, if_neg fun empty => remains (PriorityAggregation.isEmpty_iff.mp empty),
          update_self]
      schedulerOthers := fun inner distinct => by
        show after.schedulerNode inner = state.schedulerNode inner
        rw [handed.schedulerNode]
        split
        · rfl
        · exact update_of_ne distinct .. }

/-- The new owner inherits from the threads that go on waiting. -/
theorem Settled.inheritSurrender (settled : state.Settled)
    (waits : state.waitQueue thread = some queue) (owns : state.owner queue = some previous)
    (ready : state.waitQueue previous = none)
    (inherit : state.operations queue = .priorityInherit) :
    ∃ after, (state.surrendering queue).priorityInheritDoSurrender queue previous thread =
        some after ∧
      ((after.setOwner queue (some thread)).threadWaitRestoreDefault thread).Settled := by
  have inside := settled.linked.present waits fun left => left
  have inherits : state.Inherits previous queue := ⟨inherit, owns, List.ne_nil_of_mem inside⟩
  have apart : thread ≠ previous := by
    rintro rfl
    cases ready.symm.trans waits
  have ownsNode : (state.surrendering queue).schedulerNode queue = some previous :=
    settled.linked.scheduler inherits
  have missing : .queue queue ∉ (state.waitPriority thread).contributors := by
    intro isInside
    have ownsOther := ((settled.linked.contributes thread queue).mp isInside).2.1
    exact apart (Option.some.inj (ownsOther.symm.trans owns))
  obtain ⟨node, isReal⟩ := settled.linked.real previous
  have remains : (state.waitPriority previous).contributors.erase (.queue queue) ≠ [] :=
    List.ne_nil_of_mem ((List.mem_erase_of_ne (by simp)).mpr isReal)
  obtain ⟨released, changes, releases, exactReleased, given, _⟩ :=
    (settled.ordered.threads previous).extractNonEmpty
      ((settled.linked.contributes previous queue).mpr inherits) remains
  have releases' : ((state.surrendering queue).waitPriority previous).extractNonEmpty
      (state.surrendering queue).contribution (.queue queue) = some (released, changes) := releases
  obtain ⟨scheduled, updates, drops⟩ := ((state.surrendering queue).setWaitPriority previous
    released).surrenderChange_eq previous previous changes
  let dropped : ThreadQueues Thread Queue Node :=
    { (state.surrendering queue).setWaitPriority previous released with
      schedulerPriority := scheduled, updates := updates }
  have exactBefore : (dropped.queuePriority queue).Exact dropped.priority := by
    refine ((settled.ordered.queues queue).inherit inherit).congr fun other isInside => ?_
    refine setWaitPriority_priority_of_ne _ ?_ released
    rintro rfl
    cases ready.symm.trans (settled.linked.waiting isInside)
  obtain ⟨exact, erased, _, _⟩ := exactBefore.extract inside
  let remaining := ((dropped.queuePriority queue).extract dropped.priority thread).1
  have exactRemaining : ∀ priority : Thread → Nat,
      (∀ other, other ≠ previous → other ≠ thread → priority other = state.priority other) →
        remaining.Exact priority := by
    intro priority same
    refine exact.congr fun other isInside => ?_
    rw [erased] at isInside
    have notThread : other ≠ thread := by
      rintro rfl
      exact (settled.linked.once queue).not_mem_erase isInside
    have notPrevious : other ≠ previous := by
      rintro rfl
      cases ready.symm.trans (settled.linked.waiting (List.mem_of_mem_erase isInside))
    rw [same other notPrevious notThread]
    exact (setWaitPriority_priority_of_ne _ notPrevious released).symm
  let extracted := dropped.setQueuePriority queue remaining
  have ofThread : extracted.waitPriority thread = state.waitPriority thread :=
    setWaitPriority_of_ne _ apart released
  have exactThread : (extracted.waitPriority thread).Exact extracted.contribution := by
    rw [ofThread]
    refine (settled.ordered.threads thread).congr fun node isInside => ?_
    refine setQueuePriority_contribution queue remaining ?_
    rintro rfl
    exact missing isInside
  obtain ⟨own, isOwn⟩ := settled.linked.real thread
  obtain ⟨exactInherited, taken, _⟩ := exactThread.nonEmptyInsert
    (List.ne_nil_of_mem (ofThread.symm ▸ isOwn)) (ofThread.symm ▸ missing)
  have takenThread := taken.trans (List.Perm.of_eq (congrArg
    (fun aggregation => PriorityContributor.queue queue :: aggregation.contributors) ofThread))
  unfold priorityInheritDoSurrender
  rw [ownsNode, Option.bind_some, releases', Option.map_some]
  dsimp only
  rw [drops]
  by_cases empty : remaining.isEmpty = true
  · have handed : state.HandedOver extracted previous thread queue released
        ((extracted.waitPriority thread).nonEmptyInsert extracted.contribution
          (.queue queue)).1 remaining :=
      { waitQueue := rfl
        waitOperations := rfl
        owner := rfl
        freeChain := rfl
        operations := rfl
        nodePriority := rfl
        queuePriority := rfl
        waitPriority := (if_pos empty).symm
        schedulerNode := (if_pos empty).symm }
    refine ⟨extracted, congrArg some (if_pos empty), ?_⟩
    exact handed.settled settled waits owns ready inherit exactReleased given exactRemaining erased
      exactInherited takenThread
  · let inserted := (extracted.waitPriority thread).nonEmptyInsert extracted.contribution
      (.queue queue)
    obtain ⟨scheduledThread, updatesThread, takes⟩ := ((extracted.setSchedulerNode queue
      thread).setWaitPriority thread inserted.1).surrenderChange_eq thread thread inserted.2
    let final : ThreadQueues Thread Queue Node :=
      { (extracted.setSchedulerNode queue thread).setWaitPriority thread inserted.1 with
        schedulerPriority := scheduledThread, updates := updatesThread }
    have handed : state.HandedOver final previous thread queue released inserted.1 remaining :=
      { waitQueue := rfl
        waitOperations := rfl
        owner := rfl
        freeChain := rfl
        operations := rfl
        nodePriority := rfl
        queuePriority := rfl
        waitPriority := (if_neg empty).symm
        schedulerNode := (if_neg empty).symm }
    refine ⟨final, congrArg some ((if_neg empty).trans takes), ?_⟩
    exact handed.settled settled waits owns ready inherit exactReleased given exactRemaining erased
      exactInherited takenThread

theorem Settled.coreMutexSurrender (settled : state.Settled) {executing : Thread}
    (ready : state.waitQueue executing = none) (queue : Queue) :
    ∃ after, state.coreMutexSurrender queue executing = some after ∧ after.Settled := by
  unfold ThreadQueues.coreMutexSurrender
  split
  · exact ⟨state, rfl, settled⟩
  next owns =>
    have owns := not_not.mp owns
    dsimp only
    split
    next free =>
      have empty : (state.queuePriority queue).contributors = [] :=
        List.length_eq_zero_iff.mp ((settled.linked.free queue).symm.trans free)
      refine ⟨_, rfl, settled.linked.setOwner empty ?_, settled.ordered.setOwner queue none⟩
      rw [waitsFor_update_owner state (state.setOwner queue none) rfl rfl]
      exact settled.linked.ends.update_none _
    next waiting =>
      have occupied : (state.queuePriority queue).contributors ≠ [] := fun empty =>
        waiting ((settled.linked.free queue).trans (List.length_eq_zero_iff.mpr empty))
      obtain ⟨first, rest, shape⟩ := List.exists_cons_of_ne_nil occupied
      have waits : state.waitQueue first = some queue :=
        settled.linked.waiting (shape ▸ List.mem_cons_self)
      have isFirst : ((state.setOwner queue none).clearPriorityUpdates.queuePriority
          queue).getMinimumNode = some first := congrArg List.head? shape
      have plain : state.operations queue ≠ .priorityInherit →
          ((((state.surrendering queue).setQueuePriority queue
            ((state.queuePriority queue).plainExtract first)).setOwner queue
              (some first)).threadWaitRestoreDefault first).Settled := by
        intro apart
        have surrendered : state.Surrendered ((((state.surrendering queue).setQueuePriority queue
            ((state.queuePriority queue).plainExtract first)).setOwner queue
              (some first)).threadWaitRestoreDefault first) first queue :=
          surrendered_of rfl rfl rfl rfl rfl rfl rfl fun _ _ => Iff.rfl
        exact surrendered.settled_plain settled waits apart rfl rfl rfl
      unfold ThreadQueues.threadQueueSurrender ThreadQueues.queueSurrender
      rw [isFirst, Option.bind_some]
      dsimp only
      have operations : (state.setOwner queue none).clearPriorityUpdates.operations queue =
          state.operations queue := rfl
      rw [operations]
      cases kind : state.operations queue with
      | default => exact absurd kind (settled.linked.used queue)
      | fifo | priority => exact ⟨_, rfl, plain (by simp [kind])⟩
      | priorityInherit =>
        obtain ⟨after, hands, settledAfter⟩ := settled.inheritSurrender waits owns ready kind
        refine ⟨_, ?_, settledAfter⟩
        exact congrArg (Option.map _ ∘ Option.map _) hands

end ThreadQueues

end RTContainer.Score
