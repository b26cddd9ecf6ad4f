import RTContainer.Score.RBTree
import RTContainer.Score.SchedulerEdf

/-! The order of the ready tree of the earliest deadline first scheduler, and the places that the
threads take in it. -/

set_option autoImplicit false

namespace RTContainer.Score

open Machine RedBlack Function

variable {priority : Nat}

theorem schedulerPriorityPurify_add (fits : priority < 2 ^ 64) :
    schedulerPriorityPurify priority + priority % 2 = priority := by
  have half : schedulerPriorityPurify priority / 2 = priority / 2 := by
    have upper : priority / 2 < 2 ^ 63 := by omega
    unfold schedulerPriorityPurify
    rw [Nat.and_div_two]
    exact Nat.and_two_pow_sub_one_of_lt_two_pow upper
  have even : schedulerPriorityPurify priority % 2 ≠ 1 := by
    unfold schedulerPriorityPurify
    rw [Ne, Nat.and_mod_two_eq_one]
    exact fun odd => absurd odd.2 (by decide)
  omega

theorem priority_or_order (even : priority % 2 = 0) (order : PriorityGroupOrder) :
    priority ||| order.value = priority + order.value := by
  cases order with
  | first => exact Nat.or_zero priority
  | last =>
    have half : 2 ^ 1 * (priority / 2) + 1 = 2 ^ 1 * (priority / 2) ||| 1 :=
      Nat.two_pow_add_eq_or_of_lt (by decide) (priority / 2)
    have whole : 2 ^ 1 * (priority / 2) = priority := by omega
    rw [whole] at half
    exact half.symm

theorem EdfPriority.map_lt (priority : EdfPriority) : priority.map < 2 ^ 64 := by
  cases priority with
  | deadline | background => exact Nat.mod_lt _ (Nat.two_pow_pos 64)

theorem EdfPriority.map_even (priority : EdfPriority) : priority.map % 2 = 0 := by
  have within : ∀ value : Nat, value % 2 ≠ 1 → value % 2 ^ 64 % 2 = 0 := by omega
  cases priority with
  | deadline ticks => exact within _ (by omega)
  | background priority =>
    refine within _ ?_
    rw [Ne, Nat.or_mod_two_eq_one, schedulerPriorityMap, Nat.shiftLeft_eq]
    unfold schedulerEdfPrioMsb
    omega

theorem EdfPriority.purify_map (priority : EdfPriority) (order : PriorityGroupOrder) :
    priority.map ||| order.value < 2 ^ 64 ∧
      schedulerPriorityPurify (priority.map ||| order.value) = priority.map := by
  have even := priority.map_even
  have bounded := priority.map_lt
  have fits : priority.map ||| order.value < 2 ^ 64 := by
    rw [priority_or_order even]
    cases order <;> simp only [PriorityGroupOrder.value] <;> omega
  refine ⟨fits, ?_⟩
  have parts := schedulerPriorityPurify_add fits
  rw [priority_or_order even] at parts ⊢
  cases order <;> simp only [PriorityGroupOrder.value] at parts ⊢ <;> omega

namespace SchedulerEdf

variable {Thread : Type} {scheduler : SchedulerEdf Thread} {thread : Thread}

/-- The priority of a thread without the bit of its group. -/
def purified (scheduler : SchedulerEdf Thread) (thread : Thread) : Nat :=
  schedulerPriorityPurify (scheduler.nodePriority thread)

/-- The ready tree in the order of the priorities. -/
def Sorted (scheduler : SchedulerEdf Thread) : Prop :=
  scheduler.ready.toList.Pairwise fun earlier later =>
    scheduler.purified earlier ≤ scheduler.purified later

def ComesLast (scheduler : SchedulerEdf Thread) (thread : Thread) : Prop :=
  ∃ before after, scheduler.ready.toList = before ++ thread :: after ∧
    ∀ other ∈ after, scheduler.purified other ≠ scheduler.purified thread

def ComesFirst (scheduler : SchedulerEdf Thread) (thread : Thread) : Prop :=
  ∃ before after, scheduler.ready.toList = before ++ thread :: after ∧
    ∀ other ∈ before, scheduler.purified other ≠ scheduler.purified thread

def HasEqual (scheduler : SchedulerEdf Thread) (thread : Thread) : Prop :=
  ∃ other, other ≠ thread ∧ scheduler.isReady other = true ∧
    scheduler.purified other = scheduler.purified thread

/-- The tree is a sorted red-black tree, and the keys of the threads are their priorities. -/
structure Keyed (scheduler : SchedulerEdf Thread) : Prop where
  valid : scheduler.ready.Valid
  once : scheduler.ready.toList.Nodup
  sorted : scheduler.ready.toList.Pairwise fun earlier later =>
    scheduler.edfPriority earlier ≤ scheduler.edfPriority later
  current : ∀ thread, scheduler.isReady thread = true →
    scheduler.edfPriority thread = scheduler.purified thread
  waits : ∀ thread, scheduler.waitPriority thread = scheduler.purified thread
  fits : ∀ thread, scheduler.nodePriority thread < 2 ^ 64

structure Ordered (scheduler : SchedulerEdf Thread) : Prop extends scheduler.Keyed where
  members : ∀ thread, thread ∈ scheduler.ready.toList ↔ scheduler.isReady thread = true

structure Unplaced (scheduler : SchedulerEdf Thread) (thread : Thread) : Prop
    extends scheduler.Keyed where
  members : ∀ other, other ∈ scheduler.ready.toList ↔
    scheduler.isReady other = true ∧ other ≠ thread
  isReady : scheduler.isReady thread = true

theorem Ordered.isSorted (ordered : scheduler.Ordered) : scheduler.Sorted := by
  refine ordered.sorted.imp_of_mem ?_
  intro earlier later earlierInside laterInside before
  rw [ordered.current earlier ((ordered.members earlier).mp earlierInside),
    ordered.current later ((ordered.members later).mp laterInside)] at before
  exact before

theorem Ordered.withHeir (ordered : scheduler.Ordered) (heir : Thread) (necessary : Bool) :
    Ordered { scheduler with threadHeir := heir, threadDispatchNecessary := necessary } :=
  ⟨⟨ordered.valid, ordered.once, ordered.sorted, ordered.current, ordered.waits, ordered.fits⟩,
    ordered.members⟩

variable {before after : List Thread}

theorem Ordered.not_comesLast (ordered : scheduler.Ordered) {other : Thread}
    (nodes : scheduler.ready.toList = before ++ thread :: after) (behind : other ∈ after)
    (equal : scheduler.purified other = scheduler.purified thread) :
    ¬ scheduler.ComesLast thread := by
  rintro ⟨front, rest, again, apart⟩
  have distinct := List.nodup_append.mp (nodes ▸ ordered.once)
  have notBefore : thread ∉ before :=
    fun inside => distinct.2.2 thread inside thread List.mem_cons_self rfl
  have notAfter : thread ∉ after := (List.nodup_cons.mp distinct.2.1).1
  obtain ⟨-, -, rfl⟩ := (List.append_cons_inj_of_notMem notBefore notAfter).mp
    (nodes.symm.trans again)
  exact apart other behind equal

theorem Ordered.readyOfSplit (ordered : scheduler.Ordered)
    (nodes : scheduler.ready.toList = before ++ thread :: after) (other : Thread)
    (inside : other ∈ before ∨ other ∈ after) :
    scheduler.edfPriority other = scheduler.purified other := by
  refine ordered.current other ((ordered.members other).mp ?_)
  rw [nodes, List.mem_append, List.mem_cons]
  exact inside.imp_right .inr

theorem Ordered.comesLast_iff_of_comesFirst (ordered : scheduler.Ordered)
    (first : scheduler.ComesFirst thread) :
    scheduler.ComesLast thread ↔ ¬ scheduler.HasEqual thread := by
  obtain ⟨before, after, nodes, apart⟩ := first
  constructor
  · rintro last ⟨other, different, isReady, equal⟩
    have inside := (ordered.members other).mpr isReady
    rw [nodes, List.mem_append, List.mem_cons] at inside
    rcases inside with inBefore | rfl | inAfter
    · exact apart other inBefore equal
    · exact different rfl
    · exact ordered.not_comesLast nodes inAfter equal last
  · intro alone
    refine ⟨before, after, nodes, fun other inside equal => alone ⟨other, ?_, ?_, equal⟩⟩
    · rintro rfl
      have distinct := (List.nodup_append.mp (nodes ▸ ordered.once)).2.1
      exact (List.nodup_cons.mp distinct).1 inside
    · refine (ordered.members other).mp ?_
      rw [nodes, List.mem_append, List.mem_cons]
      exact .inr (.inr inside)

variable [DecidableEq Thread] (tree : Rebalancing Thread)

theorem Unplaced.enqueue (unplaced : scheduler.Unplaced thread) {insertPriority : Nat}
    (least : scheduler.edfPriority thread ≤ insertPriority)
    (most : insertPriority ≤ scheduler.edfPriority thread + 1) :
    (scheduler.enqueue tree thread insertPriority).Ordered ∧ ∃ before after,
      (scheduler.enqueue tree thread insertPriority).ready.toList = before ++ thread :: after ∧
        (∀ other ∈ before, scheduler.edfPriority other < insertPriority) ∧
          ∀ other ∈ after, insertPriority ≤ scheduler.edfPriority other := by
  have monotone : scheduler.ready.toList.Pairwise fun earlier later =>
      scheduler.priorityLessEqual insertPriority earlier →
        scheduler.priorityLessEqual insertPriority later := by
    refine unplaced.sorted.imp ?_
    intro earlier later before passes
    exact decide_eq_true ((of_decide_eq_true passes).trans before)
  obtain ⟨before, after, nodes, grown, fails, passing⟩ :=
    @RedBlack.Tree.insertLeaf_toList _ _ thread _ monotone
  have adds := RedBlack.Tree.insertLeaf_addsLeaf (scheduler.priorityLessEqual insertPriority) thread
    scheduler.ready
  have isList : (scheduler.enqueue tree thread insertPriority).ready.toList =
      before ++ thread :: after :=
    (tree.insertColor_toList _ _ _ unplaced.valid adds).trans grown
  have lower : ∀ other ∈ before, scheduler.edfPriority other < insertPriority :=
    fun other inside => Nat.lt_of_not_le fun passes => fails other inside (decide_eq_true passes)
  have upper : ∀ other ∈ after, insertPriority ≤ scheduler.edfPriority other :=
    fun other inside => of_decide_eq_true (passing other inside)
  have absent : thread ∉ before ++ after :=
    fun inside => ((unplaced.members thread).mp (nodes ▸ inside)).2 rfl
  refine ⟨⟨⟨?_, ?_, ?_, unplaced.current, unplaced.waits, unplaced.fits⟩, ?_⟩, before, after,
    isList, lower, upper⟩
  · exact tree.insertColor_valid _ _ _ unplaced.valid adds
  · rw [isList]
    exact List.nodup_middle.mpr (List.nodup_cons.mpr ⟨absent, nodes ▸ unplaced.once⟩)
  · have sorted := List.pairwise_append.mp (nodes ▸ unplaced.sorted)
    rw [isList]
    refine List.pairwise_append.mpr ⟨sorted.1, List.pairwise_cons.mpr ⟨?_, sorted.2.1⟩, ?_⟩
    · exact fun other inside => least.trans (upper other inside)
    · intro other inside later laterInside
      rcases List.mem_cons.mp laterInside with rfl | inAfter
      · exact Nat.le_of_lt_succ ((lower other inside).trans_le most)
      · exact sorted.2.2 other inside later inAfter
  · intro other
    have inTree := unplaced.members other
    rw [nodes] at inTree
    rw [isList, List.mem_append, List.mem_cons, or_left_comm, ← List.mem_append, inTree]
    by_cases same : other = thread
    · subst same
      exact iff_of_true (.inl rfl) unplaced.isReady
    · simp only [same, false_or, ne_eq, not_false_eq_true, and_true]
      rfl

theorem Unplaced.enqueueLast (unplaced : scheduler.Unplaced thread) :
    (scheduler.enqueue tree thread (scheduler.edfPriority thread + 1)).Ordered ∧
      (scheduler.enqueue tree thread (scheduler.edfPriority thread + 1)).ComesLast thread := by
  obtain ⟨ordered, before, after, nodes, -, upper⟩ :=
    unplaced.enqueue tree (Nat.le_succ _) (Nat.le_refl _)
  refine ⟨ordered, before, after, nodes, fun other inside equal => ?_⟩
  have isOther := ordered.readyOfSplit nodes other (.inr inside)
  have isThread := unplaced.current thread unplaced.isReady
  have behind := upper other inside
  have same : scheduler.edfPriority other = scheduler.edfPriority thread :=
    isOther.trans (equal.trans isThread.symm)
  omega

theorem Unplaced.enqueueFirst (unplaced : scheduler.Unplaced thread) :
    (scheduler.enqueue tree thread (scheduler.edfPriority thread)).Ordered ∧
      (scheduler.enqueue tree thread (scheduler.edfPriority thread)).ComesFirst thread := by
  obtain ⟨ordered, before, after, nodes, lower, -⟩ :=
    unplaced.enqueue tree (Nat.le_refl _) (Nat.le_succ _)
  refine ⟨ordered, before, after, nodes, fun other inside equal => ?_⟩
  have isOther := ordered.readyOfSplit nodes other (.inl inside)
  have isThread := unplaced.current thread unplaced.isReady
  have front := lower other inside
  have same : scheduler.edfPriority other = scheduler.edfPriority thread :=
    isOther.trans (equal.trans isThread.symm)
  omega

omit [DecidableEq Thread] in
theorem Ordered.getHighestReady (ordered : scheduler.Ordered)
    (isReady : scheduler.isReady thread = true) :
    ∃ first, scheduler.getHighestReady = some first ∧ scheduler.isReady first = true := by
  have inside := (ordered.members thread).mpr isReady
  obtain ⟨first, rest, nodes⟩ := List.exists_cons_of_ne_nil (List.ne_nil_of_mem inside)
  refine ⟨first, ?_, (ordered.members first).mp ?_⟩
  · unfold SchedulerEdf.getHighestReady
    rw [nodes]
    rfl
  · rw [nodes]
    exact List.mem_cons_self

def SameOrder (scheduler after : SchedulerEdf Thread) : Prop :=
  ∃ heir necessary,
    after = { scheduler with threadHeir := heir, threadDispatchNecessary := necessary }

section

omit [DecidableEq Thread]

variable {after : SchedulerEdf Thread}

theorem SameOrder.ordered (same : scheduler.SameOrder after) (ordered : scheduler.Ordered) :
    after.Ordered := by
  obtain ⟨heir, necessary, rfl⟩ := same
  exact ordered.withHeir heir necessary

theorem SameOrder.isReady (same : scheduler.SameOrder after) :
    after.isReady = scheduler.isReady := by
  obtain ⟨heir, necessary, rfl⟩ := same
  rfl

theorem SameOrder.comesLast (same : scheduler.SameOrder after) (last : scheduler.ComesLast thread) :
    after.ComesLast thread := by
  obtain ⟨heir, necessary, rfl⟩ := same
  exact last

theorem SameOrder.comesFirst (same : scheduler.SameOrder after)
    (first : scheduler.ComesFirst thread) : after.ComesFirst thread := by
  obtain ⟨heir, necessary, rfl⟩ := same
  exact first

end

private theorem updateHeirIfPreemptible_same (heir newHeir : Thread) :
    scheduler.SameOrder (scheduler.updateHeirIfPreemptible heir newHeir) := by
  unfold updateHeirIfPreemptible
  split
  next => exact ⟨_, _, rfl⟩
  next => exact ⟨_, _, rfl⟩

theorem uniprocessorUnblock_same (scheduler : SchedulerEdf Thread) (thread : Thread)
    (priority : Nat) :
    scheduler.SameOrder (scheduler.uniprocessorUnblock thread priority) := by
  unfold uniprocessorUnblock
  split
  next => exact updateHeirIfPreemptible_same ..
  next => exact ⟨_, _, rfl⟩

theorem Ordered.schedule (ordered : scheduler.Ordered)
    (isReady : scheduler.isReady thread = true) :
    ∃ after, scheduler.schedule = some after ∧ scheduler.SameOrder after := by
  obtain ⟨first, isFirst, -⟩ := ordered.getHighestReady isReady
  unfold SchedulerEdf.schedule
  rw [isFirst]
  exact ⟨_, rfl, updateHeirIfPreemptible_same ..⟩

theorem Ordered.extract (ordered : scheduler.Ordered) (isReady : scheduler.isReady thread = true) :
    (scheduler.extract tree thread).Unplaced thread := by
  have inside := (ordered.members thread).mpr isReady
  have isList : (scheduler.extract tree thread).ready.toList =
      scheduler.ready.toList.erase thread :=
    tree.extract_toList _ _ ordered.valid inside
  refine ⟨⟨tree.extract_valid _ _ ordered.valid inside, ?_, ?_, ordered.current, ordered.waits,
    ordered.fits⟩, fun other => ?_, isReady⟩
  · rw [isList]
    exact ordered.once.erase thread
  · rw [isList]
    exact ordered.sorted.sublist List.erase_sublist
  · rw [isList, ordered.once.mem_erase_iff, ordered.members, and_comm]
    rfl

theorem Ordered.threadBlock (ordered : scheduler.Ordered) {idle : Thread}
    (idleReady : scheduler.isReady idle = true) (different : thread ≠ idle) :
    ∃ after, scheduler.threadBlock tree thread = some after ∧ after.Ordered ∧
      after.isReady idle = true := by
  unfold SchedulerEdf.threadBlock
  split
  next isReady =>
    have unplaced := ordered.extract tree isReady
    have ready : ∀ other, update scheduler.isReady thread false other = true ↔
        scheduler.isReady other = true ∧ other ≠ thread := by
      intro other
      by_cases same : other = thread
      · subst same
        simp
      · simp [same]
    have extracted : ({ scheduler with
        isReady := update scheduler.isReady thread false
        ready := tree.extract scheduler.ready thread } : SchedulerEdf Thread).Ordered :=
      ⟨⟨unplaced.valid, unplaced.once, unplaced.sorted, fun other isOther =>
        unplaced.current other ((ready other).mp isOther).1, unplaced.waits, unplaced.fits⟩,
        fun other => (unplaced.members other).trans (ready other).symm⟩
    have stays := (ready idle).mpr ⟨idleReady, different.symm⟩
    unfold SchedulerEdf.block
    dsimp only
    split
    next =>
      obtain ⟨first, isFirst, -⟩ := extracted.getHighestReady stays
      refine ⟨_, congrArg (Option.map _) isFirst, ?_, stays⟩
      exact extracted.withHeir first true
    next => exact ⟨_, rfl, extracted, stays⟩
  next => exact ⟨scheduler, rfl, ordered, idleReady⟩

theorem Ordered.unblock (ordered : scheduler.Ordered) (notReady : scheduler.isReady thread = false) :
    (scheduler.threadUnblock tree thread).Ordered ∧
      (scheduler.threadUnblock tree thread).ComesLast thread ∧
        (scheduler.threadUnblock tree thread).isReady = update scheduler.isReady thread true := by
  have absent : thread ∉ scheduler.ready.toList := by
    rw [ordered.members, notReady]
    exact Bool.false_ne_true
  have unplaced : ({ scheduler with
      isReady := update scheduler.isReady thread true
      edfPriority := update scheduler.edfPriority thread (scheduler.purified thread) } :
        SchedulerEdf Thread).Unplaced thread := by
    refine ⟨⟨ordered.valid, ordered.once, ?_, ?_, ordered.waits, ordered.fits⟩, fun other => ?_,
      update_self ..⟩
    · refine ordered.sorted.imp_of_mem ?_
      intro earlier later earlierInside laterInside before
      have earlierOther : earlier ≠ thread := fun same => absent (same ▸ earlierInside)
      have laterOther : later ≠ thread := fun same => absent (same ▸ laterInside)
      dsimp only
      rw [update_of_ne earlierOther, update_of_ne laterOther]
      exact before
    · intro other isReady
      dsimp only at isReady ⊢
      by_cases same : other = thread
      · subst same
        exact update_self ..
      · rw [update_of_ne same] at isReady ⊢
        exact ordered.current other isReady
    · dsimp only
      rw [ordered.members]
      by_cases same : other = thread
      · subst same
        simp [notReady]
      · simp [same]
  have enqueued := unplaced.enqueueLast tree
  have isKey : schedulerPriorityAppend (schedulerPriorityPurify (scheduler.nodePriority thread)) =
      update scheduler.edfPriority thread (scheduler.purified thread) thread + 1 := by
    have parts := schedulerPriorityPurify_add (ordered.fits thread)
    rw [update_self]
    exact priority_or_order (by omega) .last
  unfold SchedulerEdf.threadUnblock
  rw [notReady]
  have same := uniprocessorUnblock_same (SchedulerEdf.enqueue tree { scheduler with
      isReady := update scheduler.isReady thread true
      edfPriority := update scheduler.edfPriority thread (scheduler.purified thread) }
        thread (update scheduler.edfPriority thread (scheduler.purified thread) thread + 1))
    thread (scheduler.purified thread)
  rw [← isKey] at same enqueued
  exact ⟨same.ordered enqueued.1, same.comesLast enqueued.2, same.isReady⟩

section SetPriority

variable {priority : EdfPriority} {order : PriorityGroupOrder}

theorem purified_setNodePriority (other : Thread) :
    (scheduler.setNodePriority thread priority.map order).purified other =
      update scheduler.purified thread priority.map other := by
  unfold purified setNodePriority
  by_cases same : other = thread
  · subst same
    simp only [update_self]
    exact (priority.purify_map order).2
  · simp only [update_of_ne same]

theorem fits_setNodePriority (ordered : scheduler.Ordered) (other : Thread) :
    (scheduler.setNodePriority thread priority.map order).nodePriority other < 2 ^ 64 := by
  unfold setNodePriority
  by_cases same : other = thread
  · subst same
    simp only [update_self]
    exact (priority.purify_map order).1
  · simp only [update_of_ne same]
    exact ordered.fits other

theorem waits_setNodePriority (ordered : scheduler.Ordered) (other : Thread) :
    (scheduler.setNodePriority thread priority.map order).waitPriority other =
      (scheduler.setNodePriority thread priority.map order).purified other := by
  rw [purified_setNodePriority]
  unfold setNodePriority
  by_cases same : other = thread
  · subst same
    simp only [update_self]
  · simp only [update_of_ne same]
    exact ordered.waits other

theorem Ordered.setNodePriority (ordered : scheduler.Ordered)
    (notReady : scheduler.isReady thread = false) :
    (scheduler.setNodePriority thread priority.map order).Ordered := by
  refine ⟨⟨ordered.valid, ordered.once, ordered.sorted, fun other isReady => ?_,
    waits_setNodePriority ordered, fits_setNodePriority ordered⟩, ordered.members⟩
  have different : other ≠ thread := by
    rintro rfl
    exact Bool.false_ne_true (notReady.symm.trans isReady)
  rw [purified_setNodePriority, update_of_ne different]
  exact ordered.current other isReady

theorem Ordered.moved (ordered : scheduler.Ordered) (isReady : scheduler.isReady thread = true) :
    (SchedulerEdf.extract tree { scheduler.setNodePriority thread priority.map order with
      edfPriority := update scheduler.edfPriority thread priority.map } thread).Unplaced
        thread := by
  have unplaced := ordered.extract tree isReady
  refine ⟨⟨unplaced.valid, unplaced.once, ?_, ?_, waits_setNodePriority ordered,
    fits_setNodePriority ordered⟩, unplaced.members, unplaced.isReady⟩
  · refine unplaced.sorted.imp_of_mem ?_
    intro earlier later earlierInside laterInside before
    have earlierOther := ((unplaced.members earlier).mp earlierInside).2
    have laterOther := ((unplaced.members later).mp laterInside).2
    dsimp only [SchedulerEdf.extract]
    rw [update_of_ne earlierOther, update_of_ne laterOther]
    exact before
  · intro other isOther
    have isPurified : (SchedulerEdf.extract tree
        { scheduler.setNodePriority thread priority.map order with
          edfPriority := update scheduler.edfPriority thread priority.map }
            thread).purified other = update scheduler.purified thread priority.map other :=
      purified_setNodePriority other
    rw [isPurified]
    dsimp only [SchedulerEdf.extract]
    by_cases same : other = thread
    · subst same
      simp only [update_self]
    · simp only [update_of_ne same]
      exact ordered.current other isOther

def ComesBy (scheduler : SchedulerEdf Thread) (thread : Thread) : PriorityGroupOrder → Prop
  | .first => scheduler.ComesFirst thread
  | .last => scheduler.ComesLast thread

omit [DecidableEq Thread] in
theorem SameOrder.comesBy {after : SchedulerEdf Thread} (same : scheduler.SameOrder after)
    (comes : scheduler.ComesBy thread order) : after.ComesBy thread order := by
  cases order with
  | first => exact same.comesFirst comes
  | last => exact same.comesLast comes

theorem Unplaced.enqueueBy (unplaced : scheduler.Unplaced thread) (order : PriorityGroupOrder) :
    (scheduler.enqueue tree thread (scheduler.edfPriority thread + order.value)).Ordered ∧
      (scheduler.enqueue tree thread (scheduler.edfPriority thread + order.value)).ComesBy thread
        order := by
  cases order with
  | first => exact unplaced.enqueueFirst tree
  | last => exact unplaced.enqueueLast tree

theorem Ordered.setPriority (ordered : scheduler.Ordered) (thread : Thread)
    (priority : EdfPriority) (order : PriorityGroupOrder) :
    ∃ after, scheduler.setPriority tree thread priority order = some after ∧ after.Ordered ∧
      after.isReady = scheduler.isReady ∧
        (scheduler.isReady thread = true → priority.map ≠ scheduler.waitPriority thread →
          after.ComesBy thread order) := by
  unfold SchedulerEdf.setPriority updatePriority
  split
  next same => exact ⟨scheduler, rfl, ordered, rfl, fun _ changed => absurd same changed⟩
  next changed =>
    cases isReady : scheduler.isReady thread with
    | false =>
      have blocked : (!(scheduler.setNodePriority thread priority.map order).isReady thread) =
          true := congrArg not isReady
      rw [if_pos blocked]
      exact ⟨_, rfl, ordered.setNodePriority isReady, rfl, nofun⟩
    | true =>
      have notBlocked : ¬ (!(scheduler.setNodePriority thread priority.map order).isReady
          thread) = true := by
        rw [Bool.not_eq_true']
        exact fun notReady => Bool.false_ne_true (notReady.symm.trans isReady)
      have isNode : (scheduler.setNodePriority thread priority.map order).nodePriority thread =
          priority.map + order.value :=
        (update_self ..).trans (priority_or_order priority.map_even order)
      have isPurified : schedulerPriorityPurify (priority.map + order.value) = priority.map := by
        rw [← priority_or_order priority.map_even order]
        exact (priority.purify_map order).2
      have differs : priority.map ≠
          (scheduler.setNodePriority thread priority.map order).edfPriority thread := by
        intro same
        refine changed (same.trans ?_)
        exact (ordered.current thread isReady).trans (ordered.waits thread).symm
      rw [if_neg notBlocked, isNode]
      dsimp only
      rw [isPurified, if_neg differs]
      have unplaced := @Ordered.moved _ scheduler thread _ tree priority order ordered isReady
      have enqueued := unplaced.enqueueBy tree order
      have key : (SchedulerEdf.extract tree
          { scheduler.setNodePriority thread priority.map order with
            edfPriority := update scheduler.edfPriority thread priority.map }
              thread).edfPriority thread = priority.map := update_self ..
      rw [key] at enqueued
      have stillReady : (SchedulerEdf.enqueue tree (SchedulerEdf.extract tree
          { scheduler.setNodePriority thread priority.map order with
            edfPriority := update scheduler.edfPriority thread priority.map } thread)
              thread (priority.map + order.value)).isReady thread = true := isReady
      obtain ⟨after, scheduled, same⟩ := enqueued.1.schedule stillReady
      exact ⟨after, scheduled, same.ordered enqueued.1, same.isReady,
        fun _ _ => same.comesBy enqueued.2⟩

end SetPriority

theorem Ordered.yield (ordered : scheduler.Ordered) (isReady : scheduler.isReady thread = true) :
    ∃ after, scheduler.yield tree thread = some after ∧ after.Ordered ∧
      after.isReady = scheduler.isReady ∧ after.purified = scheduler.purified ∧
        after.ComesFirst thread := by
  have unplaced := ordered.extract tree isReady
  have enqueued := unplaced.enqueueFirst tree
  obtain ⟨first, isFirst, -⟩ := enqueued.1.getHighestReady isReady
  have same : SameOrder ((scheduler.extract tree thread).enqueue tree thread
      (scheduler.edfPriority thread)) (updateHeirIfNecessary ((scheduler.extract tree
        thread).enqueue tree thread (scheduler.edfPriority thread)) first) := by
    unfold updateHeirIfNecessary
    split
    next => exact ⟨_, _, rfl⟩
    next => exact ⟨_, _, rfl⟩
  refine ⟨_, congrArg (Option.map _) isFirst, same.ordered enqueued.1, same.isReady, ?_,
    same.comesFirst enqueued.2⟩
  obtain ⟨heir, necessary, is⟩ := same
  rw [is]
  rfl

def Places (before : SchedulerEdf Thread) (after : SchedulerEdf Thread) :
    SchedulerEdfCall Thread → Prop
  | .block _ => True
  | .unblock thread => before.isReady thread = false → after.ComesLast thread
  | .setPriority thread priority order =>
    before.isReady thread = true → priority.map ≠ before.waitPriority thread →
      after.ComesBy thread order
  | .yield thread =>
    before.isReady thread = true → after.ComesLast thread ∧
      (before.HasEqual thread → after.threadHeir ≠ thread ∧ after.isReady after.threadHeir = true)

def YieldsAlone (scheduler : SchedulerEdf Thread) (call : SchedulerEdfCall Thread) : Prop :=
  ∀ thread, call = .yield thread → scheduler.isReady thread = true → ¬ scheduler.HasEqual thread

end SchedulerEdf

variable {Thread : Type} [DecidableEq Thread] (tree : Rebalancing Thread)

open SchedulerEdf

/-- A call in a run; a call that finds no ready thread ends the run. -/
def schedulerEdfStep (scheduler : Option (SchedulerEdf Thread)) (call : SchedulerEdfCall Thread) :
    Option (SchedulerEdf Thread) :=
  scheduler.bind fun reached => call.perform tree reached

theorem SchedulerEdf.Ordered.perform {scheduler : SchedulerEdf Thread} {idle : Thread}
    {call : SchedulerEdfCall Thread} (ordered : scheduler.Ordered)
    (idleReady : scheduler.isReady idle = true) (possible : call.Possible idle) :
    ∃ after, call.perform tree scheduler = some after ∧ after.Ordered ∧
      after.isReady idle = true ∧ (scheduler.Places after call ↔ scheduler.YieldsAlone call) := by
  have others : ∀ {after : SchedulerEdf Thread}, (∀ thread, call ≠ .yield thread) →
      scheduler.Places after call → (scheduler.Places after call ↔ scheduler.YieldsAlone call) :=
    fun noYield places => iff_of_true places fun thread isYield => absurd isYield (noYield thread)
  cases call with
  | block thread =>
    have different : thread ≠ idle := fun same => possible (same ▸ rfl)
    obtain ⟨after, performs, orderedAfter, stays⟩ :=
      ordered.threadBlock tree idleReady different
    exact ⟨after, performs, orderedAfter, stays, others nofun trivial⟩
  | unblock thread =>
    cases isReady : scheduler.isReady thread with
    | true =>
      have same : scheduler.threadUnblock tree thread = scheduler := if_pos isReady
      refine ⟨_, rfl, ?_, ?_, others nofun fun notReady => ?_⟩
      · rw [same]
        exact ordered
      · rw [same]
        exact idleReady
      · exact absurd (notReady.symm.trans isReady) Bool.false_ne_true
    | false =>
      obtain ⟨orderedAfter, last, ready⟩ := ordered.unblock tree isReady
      refine ⟨_, rfl, orderedAfter, ?_, others nofun fun _ => last⟩
      rw [ready]
      by_cases same : idle = thread
      · rw [same, update_self]
      · rw [update_of_ne same]
        exact idleReady
  | setPriority thread priority order =>
    obtain ⟨after, performs, orderedAfter, ready, places⟩ :=
      ordered.setPriority tree thread priority order
    exact ⟨after, performs, orderedAfter, ready ▸ idleReady, others nofun places⟩
  | yield thread =>
    cases isReady : scheduler.isReady thread with
    | false =>
      have notReady : ¬ scheduler.isReady thread = true := by
        rw [isReady]
        exact Bool.false_ne_true
      refine ⟨scheduler, if_neg notReady, ordered, idleReady, ?_⟩
      refine iff_of_true (fun ready => absurd ready notReady) ?_
      rintro _ ⟨⟩ ready
      exact absurd ready notReady
    | true =>
      obtain ⟨after, yields, orderedAfter, ready, purified, first⟩ := ordered.yield tree isReady
      have equal : after.HasEqual thread ↔ scheduler.HasEqual thread := by
        unfold HasEqual
        rw [ready, purified]
      have last := orderedAfter.comesLast_iff_of_comesFirst first
      rw [equal] at last
      refine ⟨after, (if_pos isReady).trans yields, orderedAfter, ready ▸ idleReady, ?_⟩
      constructor
      · rintro places _ ⟨⟩ _
        exact last.mp (places isReady).1
      · intro alone _
        have isAlone := alone thread rfl isReady
        exact ⟨last.mpr isAlone, fun hasEqual => absurd hasEqual isAlone⟩

def SchedulerEdf.Running (idle : Thread) (state : Option (SchedulerEdf Thread)) : Prop :=
  ∃ scheduler, state = some scheduler ∧ scheduler.Ordered ∧ scheduler.isReady idle = true

theorem SchedulerEdf.initial_running (priorities : Thread → EdfPriority)
    (isPreemptible : Thread → Bool) (idle : Thread) :
    Running idle (some (initial tree priorities isPreemptible idle)) := by
  have purifies : ∀ thread, (priorities thread).map < 2 ^ 64 ∧
      schedulerPriorityPurify (priorities thread).map = (priorities thread).map := by
    intro thread
    have purified := (priorities thread).purify_map .first
    rw [PriorityGroupOrder.value, Nat.or_zero] at purified
    exact purified
  have empty : (initialized priorities isPreemptible idle).Ordered :=
    ⟨⟨⟨0, .leaf⟩, List.nodup_nil, List.Pairwise.nil, nofun, fun thread => (purifies thread).2.symm,
      fun thread => (purifies thread).1⟩,
      fun _ => iff_of_false List.not_mem_nil Bool.false_ne_true⟩
  obtain ⟨ordered, -, ready⟩ := @Ordered.unblock _ _ idle _ tree empty rfl
  exact ⟨_, rfl, ordered, ready ▸ update_self ..⟩

/-- In every run the ready tree is sorted, and the threads take the places that the calls promise
exactly if no thread yields to another of its priority. -/
theorem schedulerEdfRun_iff (priorities : Thread → EdfPriority) (isPreemptible : Thread → Bool)
    {idle : Thread} {calls : List (SchedulerEdfCall Thread)}
    (possible : ∀ call ∈ calls, call.Possible idle) :
    Throughout (schedulerEdfStep tree) (fun state => ∃ reached, state = some reached ∧
            reached.Sorted) (some (initial tree priorities isPreemptible idle)) calls ∧
        Meets (schedulerEdfStep tree) (fun state call => ∃ before after, state = some before ∧
            call.perform tree before = some after ∧ before.Places after call)
          (some (initial tree priorities isPreemptible idle)) calls ↔
      Meets (schedulerEdfStep tree) (fun state call => ∃ before, state = some before ∧
          before.YieldsAlone call) (some (initial tree priorities isPreemptible idle)) calls := by
  have start := initial_running tree priorities isPreemptible idle
  generalize some (initial tree priorities isPreemptible idle) = state at start
  induction calls generalizing state with
  | nil =>
    obtain ⟨scheduler, isState, ordered, -⟩ := start
    exact iff_of_true ⟨⟨scheduler, isState, ordered.isSorted⟩, trivial⟩ trivial
  | cons call rest ih =>
    obtain ⟨scheduler, rfl, ordered, idleReady⟩ := start
    obtain ⟨after, performs, orderedAfter, stays, places⟩ :=
      ordered.perform tree idleReady (possible call List.mem_cons_self)
    have later := ih (fun other inside => possible other (List.mem_cons_of_mem call inside))
      (some after) ⟨after, rfl, orderedAfter, stays⟩
    have step : schedulerEdfStep tree (some scheduler) call = some after := performs
    constructor
    · rintro ⟨⟨-, sorted⟩, ⟨before, next, ⟨⟩, nexts, placed⟩, placesLater⟩
      rw [step] at sorted placesLater
      cases performs.symm.trans nexts
      refine ⟨⟨scheduler, rfl, places.mp placed⟩, ?_⟩
      rw [step]
      exact later.mp ⟨sorted, placesLater⟩
    · rintro ⟨⟨before, ⟨⟩, alone⟩, aloneLater⟩
      rw [step] at aloneLater
      obtain ⟨sorted, placesLater⟩ := later.mpr aloneLater
      refine ⟨⟨⟨scheduler, rfl, ordered.isSorted⟩, ?_⟩, ⟨scheduler, after, rfl, performs,
        places.mpr alone⟩, ?_⟩
      · rw [step]
        exact sorted
      · rw [step]
        exact placesLater

/-- Three threads in the background; thread 0 is the idle thread. -/
def threeThreads (first second : Nat) (thread : Fin 3) : EdfPriority :=
  .background (if thread = 0 then 255 else if thread = 1 then first else second)

/-- Thread 1 yields to nobody. -/
theorem schedulerEdfRun_alone :
    Throughout (schedulerEdfStep (RBTree.rebalancing (Fin 3)))
          (fun state => ∃ reached, state = some reached ∧ reached.Sorted)
          (some (initial (RBTree.rebalancing (Fin 3)) (threeThreads 5 7) (fun _ => true) 0))
          [.unblock 1, .unblock 2, .yield 1] ∧
        Meets (schedulerEdfStep (RBTree.rebalancing (Fin 3)))
          (fun state call => ∃ before after, state = some before ∧
            call.perform (RBTree.rebalancing (Fin 3)) before = some after ∧
              before.Places after call)
          (some (initial (RBTree.rebalancing (Fin 3)) (threeThreads 5 7) (fun _ => true) 0))
          [.unblock 1, .unblock 2, .yield 1] := by
  refine (schedulerEdfRun_iff _ _ _ (by decide)).mpr ⟨⟨_, rfl, nofun⟩, ⟨_, rfl, nofun⟩, ⟨_, rfl, ?_⟩,
    trivial⟩
  rintro _ ⟨⟩ -
  unfold HasEqual
  decide +kernel

/-- Thread 1 yields to thread 2 of the same priority, and stays the first thread and the heir. -/
theorem schedulerEdfRun_yieldToEqual :
    (run (schedulerEdfStep (RBTree.rebalancing (Fin 3)))
          (some (initial (RBTree.rebalancing (Fin 3)) (threeThreads 5 5) (fun _ => true) 0))
          [.unblock 1, .unblock 2, .yield 1]).map
        (fun reached => (reached.ready.toList, reached.threadHeir)) = some ([1, 2, 0], 1) ∧
      ¬ Meets (schedulerEdfStep (RBTree.rebalancing (Fin 3)))
          (fun state call => ∃ before after, state = some before ∧
            call.perform (RBTree.rebalancing (Fin 3)) before = some after ∧
              before.Places after call)
          (some (initial (RBTree.rebalancing (Fin 3)) (threeThreads 5 5) (fun _ => true) 0))
          [.unblock 1, .unblock 2, .yield 1] := by
  have reaches : (run (schedulerEdfStep (RBTree.rebalancing (Fin 3)))
        (some (initial (RBTree.rebalancing (Fin 3)) (threeThreads 5 5) (fun _ => true) 0))
        [.unblock 1, .unblock 2, .yield 1]).map
      (fun reached => (reached.ready.toList, reached.threadHeir)) = some ([1, 2, 0], 1) := by
    decide +kernel
  refine ⟨reaches, ?_⟩
  rintro ⟨-, -, ⟨before, after, isBefore, yields, places⟩, -⟩
  cases isBefore
  have hasEqual : HasEqual ((threadUnblock (RBTree.rebalancing (Fin 3)) (threadUnblock
      (RBTree.rebalancing (Fin 3)) (initial (RBTree.rebalancing (Fin 3)) (threeThreads 5 5)
        (fun _ => true) 0) 1) 2)) 1 := ⟨2, by decide, by decide +kernel, by decide +kernel⟩
  have moves := (places (by decide +kernel)).2 hasEqual
  have isRun : (run (schedulerEdfStep (RBTree.rebalancing (Fin 3)))
      (some (initial (RBTree.rebalancing (Fin 3)) (threeThreads 5 5) (fun _ => true) 0))
      [.unblock 1, .unblock 2, .yield 1]) = some after := yields
  rw [isRun] at reaches
  exact moves.1 (congrArg Prod.snd (Option.some.inj reaches))

end RTContainer.Score
