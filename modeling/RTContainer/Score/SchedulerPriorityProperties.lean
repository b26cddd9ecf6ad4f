import RTContainer.Score.SchedulerPriority

/-! The ready chains, the bit map and the heir of the priority scheduler agree with the
states and priorities of the threads. -/

set_option autoImplicit false

namespace RTContainer.Score

open Machine Function

theorem schedulerPriorityUnmap_map (priority : Nat) (order : PriorityGroupOrder) :
    schedulerPriorityUnmap (schedulerPriorityMap priority ||| order.value) = priority := by
  unfold schedulerPriorityUnmap schedulerPriorityMap
  rw [Nat.shiftRight_or_distrib, Nat.shiftLeft_shiftRight]
  cases order <;> simp [PriorityGroupOrder.value]

theorem schedulerPriorityMap_or (priority : Nat) (order : PriorityGroupOrder) :
    schedulerPriorityMap priority ||| order.value = 2 * priority + order.value := by
  unfold schedulerPriorityMap
  rw [Nat.shiftLeft_eq, Nat.mul_comm, Nat.pow_one]
  cases order with
  | first => simp [PriorityGroupOrder.value]
  | last =>
    have half := Nat.two_pow_add_eq_or_of_lt (i := 1) (b := 1) (by decide) priority
    simpa [PriorityGroupOrder.value] using half.symm

variable {Thread : Type}

/-- Every thread that has a position is on the chain of this position, once, and no other
thread is on a chain; the bit map describes the chains that are not empty. -/
structure ReadyChains (ready : Nat → List Thread) (bitMap : PriorityBitMapControl)
    (position : Thread → Option Nat) : Prop where
  onChain : ∀ thread chain, thread ∈ ready chain ↔ position thread = some chain
  once : ∀ chain, (ready chain).Nodup
  described : bitMap.Describes fun chain => ready chain ≠ []

def IsFirst (ready : Nat → List Thread) (thread : Thread) : Prop :=
  ∃ chain rest, ready chain = thread :: rest ∧ ∀ lower, lower < chain → ready lower = []

namespace ReadyChains

variable {ready : Nat → List Thread} {bitMap : PriorityBitMapControl}
  {position : Thread → Option Nat} {thread : Thread} {priority : Nat}

section

variable (chains : ReadyChains ready bitMap position)
include chains

theorem congr {other : Thread → Option Nat} (same : ∀ thread, other thread = position thread) :
    ReadyChains ready bitMap other := by
  have equal : other = position := funext same
  rw [equal]
  exact chains

theorem absent {chain : Nat} (elsewhere : position thread ≠ some chain) : thread ∉ ready chain := by
  rw [chains.onChain]
  exact elsewhere

theorem bounded (placed : position thread = some priority) : priority < 256 := by
  have member := (chains.onChain thread priority).mpr placed
  exact chains.described.bounded priority (List.ne_nil_of_mem member)

theorem head_getHighest : (ready bitMap.getHighest).head? = some thread ↔ IsFirst ready thread := by
  constructor
  · intro found
    obtain ⟨rest, isChain⟩ := List.head?_eq_some_iff.mp found
    have nonempty : ready bitMap.getHighest ≠ [] := by
      rw [isChain]
      exact List.cons_ne_nil thread rest
    have highest := (chains.described.getHighest_spec ⟨_, nonempty⟩).2
    exact ⟨_, rest, isChain, fun lower before => not_not.mp (highest lower before)⟩
  · rintro ⟨chain, rest, isChain, lowest⟩
    have nonempty : ready chain ≠ [] := by
      rw [isChain]
      exact List.cons_ne_nil thread rest
    obtain ⟨highestUsed, highest⟩ := chains.described.getHighest_spec ⟨chain, nonempty⟩
    have notAfter : ¬ chain < bitMap.getHighest := fun before => highest chain before nonempty
    have notBefore : ¬ bitMap.getHighest < chain := fun before => highestUsed (lowest _ before)
    have same : bitMap.getHighest = chain := by omega
    rw [same, isChain]
    rfl

theorem exists_first (placed : position thread = some priority) : ∃ first, IsFirst ready first := by
  have member := (chains.onChain thread priority).mpr placed
  obtain ⟨used, highest⟩ := chains.described.getHighest_spec ⟨priority, List.ne_nil_of_mem member⟩
  obtain ⟨first, rest, isChain⟩ := List.exists_cons_of_ne_nil used
  exact ⟨first, _, rest, isChain, fun lower before => not_not.mp (highest lower before)⟩

theorem position_first (first : IsFirst ready thread) :
    ∃ chain, position thread = some chain ∧ ∀ lower, lower < chain → ready lower = [] := by
  obtain ⟨chain, rest, isChain, lowest⟩ := first
  refine ⟨chain, (chains.onChain thread chain).mp ?_, lowest⟩
  rw [isChain]
  exact List.mem_cons_self

end

variable [DecidableEq Thread]

section

variable (chains : ReadyChains ready bitMap position)
include chains

theorem place {chain : List Thread} (nowhere : position thread = none) (inMap : priority < 256)
    (isChain : chain.Perm (thread :: ready priority)) :
    ReadyChains (update ready priority chain)
      (bitMap.add (.initializeInformation priority))
      (update position thread (some priority)) where
  onChain candidate place := by
    have away : thread ∉ ready place := chains.absent (by rw [nowhere]; exact nofun)
    have members := chains.onChain candidate place
    by_cases same : candidate = thread
    · subst same
      by_cases isPlace : place = priority
      · simp [isPlace, isChain.mem_iff]
      · simp [isPlace, away, Ne.symm isPlace]
    · by_cases isPlace : place = priority
      · subst isPlace
        simp [isChain.mem_iff, same, members]
      · simp [isPlace, same, members]
  once place := by
    by_cases isPlace : place = priority
    · subst isPlace
      rw [update_self]
      refine isChain.nodup_iff.mpr (List.nodup_cons.mpr ⟨?_, chains.once place⟩)
      exact chains.absent (by rw [nowhere]; exact nofun)
    · rw [update_of_ne isPlace]
      exact chains.once place
  described := by
    apply (chains.described.add inMap).congr
    intro place
    by_cases isPlace : place = priority
    · subst isPlace
      simp only [update_self, true_or, iff_true]
      intro empty
      rw [empty] at isChain
      exact absurd isChain.length_eq (by simp)
    · simp [isPlace]

section

variable (placed : position thread = some priority)
include placed

theorem erase_alone (alone : (ready priority).length = 1) :
    update ready priority [] = fun chain => (ready chain).erase thread := by
  obtain ⟨only, isOnly⟩ := List.length_eq_one_iff.mp alone
  have member := (chains.onChain thread priority).mpr placed
  rw [isOnly, List.mem_singleton] at member
  funext place
  by_cases isPlace : place = priority
  · subst isPlace
    simp [isOnly, member]
  · rw [update_of_ne isPlace, List.erase_of_not_mem]
    apply chains.absent
    rw [placed]
    exact fun same => isPlace (Option.some.inj same).symm

theorem erase {map : PriorityBitMapControl} (isMap : map = if (ready priority).length = 1 then
      bitMap.remove (.initializeInformation priority) else bitMap) :
    ReadyChains (fun chain => (ready chain).erase thread) map (update position thread none) where
  onChain candidate place := by
    rw [(chains.once place).mem_erase_iff, chains.onChain]
    by_cases same : candidate = thread
    · simp [same]
    · simp [same]
  once place := (chains.once place).erase thread
  described := by
    have member := (chains.onChain thread priority).mpr placed
    rw [isMap]
    split
    next alone =>
      apply (chains.described.remove (chains.bounded placed)).congr
      intro place
      rw [← congrFun (chains.erase_alone placed alone) place]
      by_cases isPlace : place = priority
      · simp [isPlace]
      · simp [isPlace]
    next several =>
      apply chains.described.congr
      intro place
      by_cases isPlace : place = priority
      · subst isPlace
        have length := List.length_erase_of_mem member
        have positive := List.length_pos_of_mem member
        have stays : (ready place).erase thread ≠ [] := by
          intro empty
          rw [empty, List.length_nil] at length
          omega
        simp [stays, List.ne_nil_of_mem member]
      · rw [List.erase_of_not_mem]
        apply chains.absent
        rw [placed]
        exact fun same => isPlace (Option.some.inj same).symm

/-- A yield puts the thread behind those of its priority. -/
theorem rotate :
    ReadyChains
      (update (fun chain => (ready chain).erase thread) priority
        ((ready priority).erase thread ++ [thread])) bitMap position := by
  have member := (chains.onChain thread priority).mpr placed
  have isChain : ((ready priority).erase thread ++ [thread]).Perm (ready priority) :=
    (List.perm_append_singleton thread _).trans (List.perm_cons_erase member).symm
  have elsewhere : ∀ place, place ≠ priority → (ready place).erase thread = ready place := by
    intro place isPlace
    rw [List.erase_of_not_mem]
    apply chains.absent
    rw [placed]
    exact fun same => isPlace (Option.some.inj same).symm
  have perms : ∀ place, (update (fun chain => (ready chain).erase thread) priority
      ((ready priority).erase thread ++ [thread]) place).Perm (ready place) := by
    intro place
    by_cases isPlace : place = priority
    · subst isPlace
      rw [update_self]
      exact isChain
    · rw [update_of_ne isPlace, elsewhere place isPlace]
  refine ⟨?_, ?_, ?_⟩
  · intro candidate place
    rw [(perms place).mem_iff]
    exact chains.onChain candidate place
  · intro place
    exact (perms place).nodup_iff.mpr (chains.once place)
  · apply chains.described.congr
    intro place
    rw [← List.length_pos_iff, (perms place).length_eq, List.length_pos_iff]

end

end

end ReadyChains

namespace SchedulerPriority

variable {scheduler : SchedulerPriority Thread} {thread idle : Thread}

/-- The chain on which a thread belongs. -/
def place (scheduler : SchedulerPriority Thread) (thread : Thread) : Option Nat :=
  if scheduler.threadIsReady thread then
    some (schedulerPriorityUnmap (scheduler.nodePriority thread))
  else none

/-- The ready queue data of the threads follow their priorities. -/
structure Keyed (scheduler : SchedulerPriority Thread) (idle : Thread) : Prop where
  cached : ∀ thread, scheduler.readyQueue thread =
    schedulerPriorityReadyQueueUpdate (scheduler.readyQueue thread).currentPriority
  current : ∀ thread, scheduler.threadIsReady thread = true →
    (scheduler.readyQueue thread).currentPriority =
      schedulerPriorityUnmap (scheduler.nodePriority thread)
  priorities : ∀ thread, ∃ priority, priority < 256 ∧
    scheduler.waitPriority thread = schedulerPriorityMap priority ∧
      ∃ order : PriorityGroupOrder,
        scheduler.nodePriority thread = schedulerPriorityMap priority ||| order.value
  idleReady : scheduler.threadIsReady idle = true

structure Ordered (scheduler : SchedulerPriority Thread) (idle : Thread) : Prop
    extends scheduler.Keyed idle where
  chains : ReadyChains scheduler.ready scheduler.bitMap scheduler.place

/-- The heir is ready, and the first thread unless it cannot be preempted. -/
structure Settled (scheduler : SchedulerPriority Thread) (idle : Thread) : Prop where
  ordered : scheduler.Ordered idle
  heirReady : scheduler.threadIsReady scheduler.threadHeir = true
  heirFirst : scheduler.isPreemptible scheduler.threadHeir = true →
    IsFirst scheduler.ready scheduler.threadHeir

theorem place_of_ready (isReady : scheduler.threadIsReady thread = true) :
    scheduler.place thread = some (schedulerPriorityUnmap (scheduler.nodePriority thread)) :=
  if_pos isReady

theorem place_of_not_ready (notReady : scheduler.threadIsReady thread = false) :
    scheduler.place thread = none := by
  simp [place, notReady]

theorem place_eq_some {chain : Nat} (placed : scheduler.place thread = some chain) :
    scheduler.threadIsReady thread = true ∧
      chain = schedulerPriorityUnmap (scheduler.nodePriority thread) := by
  unfold place at placed
  split at placed
  next isReady => exact ⟨isReady, (Option.some.inj placed).symm⟩
  next => cases placed

theorem Keyed.readyQueue_eq (keyed : scheduler.Keyed idle)
    (isReady : scheduler.threadIsReady thread = true) :
    scheduler.readyQueue thread =
      schedulerPriorityReadyQueueUpdate
        (schedulerPriorityUnmap (scheduler.nodePriority thread)) := by
  have cached := keyed.cached thread
  rw [keyed.current thread isReady] at cached
  exact cached

section

variable (ordered : scheduler.Ordered idle)
include ordered

theorem Ordered.unsigned_eq (thread : Thread) :
    unsignedOfPriority (scheduler.nodePriority thread) = scheduler.nodePriority thread := by
  obtain ⟨priority, bounded, -, order, isNode⟩ := ordered.priorities thread
  unfold unsignedOfPriority
  apply Nat.mod_eq_of_lt
  rw [isNode, schedulerPriorityMap_or]
  cases order <;> simp only [PriorityGroupOrder.value] <;> omega

theorem Ordered.lt_getPriority_iff (thread other : Thread) :
    scheduler.nodePriority thread < scheduler.threadGetPriority other ↔
      schedulerPriorityUnmap (scheduler.nodePriority thread) <
        schedulerPriorityUnmap (scheduler.nodePriority other) := by
  obtain ⟨priority, -, -, order, isNode⟩ := ordered.priorities thread
  obtain ⟨otherPriority, -, isWait, otherOrder, isOther⟩ := ordered.priorities other
  have isMapped : schedulerPriorityMap otherPriority = 2 * otherPriority :=
    (Nat.or_zero _).symm.trans (schedulerPriorityMap_or otherPriority .first)
  rw [isNode, isOther, schedulerPriorityUnmap_map, schedulerPriorityUnmap_map,
    threadGetPriority, isWait, isMapped, schedulerPriorityMap_or]
  cases order <;> simp only [PriorityGroupOrder.value] <;> omega

theorem Ordered.withHeir (heir : Thread) (necessary : Bool) :
    Ordered { scheduler with threadHeir := heir, threadDispatchNecessary := necessary } idle :=
  ⟨⟨ordered.cached, ordered.current, ordered.priorities, ordered.idleReady⟩, ordered.chains⟩

theorem Ordered.exists_highest :
    ∃ first, scheduler.getHighestReady = some first ∧ IsFirst scheduler.ready first ∧
      scheduler.threadIsReady first = true := by
  obtain ⟨first, isFirst⟩ := ordered.chains.exists_first (place_of_ready ordered.idleReady)
  obtain ⟨chain, placed, -⟩ := ordered.chains.position_first isFirst
  exact ⟨first, ordered.chains.head_getHighest.mpr isFirst, isFirst, (place_eq_some placed).1⟩

theorem Ordered.updateHeir (isFirst : IsFirst scheduler.ready thread) :
    (scheduler.updateHeir thread).Settled idle := by
  obtain ⟨chain, placed, -⟩ := ordered.chains.position_first isFirst
  exact ⟨ordered.withHeir thread true, (place_eq_some placed).1, fun _ => isFirst⟩

theorem Ordered.select :
    ∃ after, scheduler.getHighestReady.map scheduler.updateHeir = some after ∧
      after.Settled idle := by
  obtain ⟨first, highest, isFirst, -⟩ := ordered.exists_highest
  refine ⟨_, ?_, ordered.updateHeir isFirst⟩
  rw [highest]
  rfl

end

/-- What the ready chains, the bit map and the heir are to be. -/
structure Correct (scheduler : SchedulerPriority Thread) : Prop where
  onChain : ∀ thread chain, thread ∈ scheduler.ready chain ↔
    scheduler.threadIsReady thread = true ∧
      chain = schedulerPriorityUnmap (scheduler.nodePriority thread)
  once : ∀ chain, (scheduler.ready chain).Nodup
  minorBits : ∀ priority, priority < 256 →
    (scheduler.bitMap.Marks priority ↔ scheduler.ready priority ≠ [])
  majorBits : ∀ major, major < 16 → (scheduler.bitMap.MarksMajor major ↔
    ∃ priority, scheduler.ready priority ≠ [] ∧ priorityMajor priority = major)
  highest : ∃ first, scheduler.getHighestReady = some first ∧ IsFirst scheduler.ready first
  heir : (∀ thread, scheduler.isPreemptible thread = true) →
    scheduler.getHighestReady = some scheduler.threadHeir

theorem Settled.correct (settled : scheduler.Settled idle) : scheduler.Correct := by
  obtain ⟨ordered, heirReady, heirFirst⟩ := settled
  obtain ⟨first, isHighest, isFirst, -⟩ := ordered.exists_highest
  refine ⟨?_, ordered.chains.once, ordered.chains.described.minor,
    ordered.chains.described.major, ⟨first, isHighest, isFirst⟩, ?_⟩
  · intro thread chain
    rw [ordered.chains.onChain]
    constructor
    · exact place_eq_some
    · rintro ⟨isReady, rfl⟩
      exact place_of_ready isReady
  · intro preemptible
    exact ordered.chains.head_getHighest.mpr (heirFirst (preemptible _))

variable [DecidableEq Thread]

section

variable (ordered : scheduler.Ordered idle)
include ordered

theorem Ordered.updateHeirIfPreemptible (isFirst : IsFirst scheduler.ready thread)
    (heirReady : scheduler.threadIsReady scheduler.threadHeir = true) :
    (scheduler.updateHeirIfPreemptible scheduler.threadHeir thread).Settled idle := by
  unfold SchedulerPriority.updateHeirIfPreemptible
  split
  next changes => exact ordered.updateHeir isFirst
  next stays =>
    refine ⟨ordered, heirReady, fun preemptible => ?_⟩
    have same : scheduler.threadHeir = thread := by
      by_contra different
      exact stays ⟨different, preemptible⟩
    rw [same]
    exact isFirst

theorem Ordered.schedule (heirReady : scheduler.threadIsReady scheduler.threadHeir = true) :
    ∃ after, scheduler.schedule = some after ∧ after.Settled idle := by
  obtain ⟨first, highest, isFirst, -⟩ := ordered.exists_highest
  refine ⟨_, ?_, ordered.updateHeirIfPreemptible isFirst heirReady⟩
  rw [SchedulerPriority.schedule, highest]
  rfl

theorem Ordered.turn :
    ∃ after, scheduler.getHighestReady.map scheduler.updateHeirIfNecessary = some after ∧
      after.Settled idle := by
  obtain ⟨first, highest, isFirst, -⟩ := ordered.exists_highest
  refine ⟨scheduler.updateHeirIfNecessary first, ?_, ?_⟩
  · rw [highest]
    rfl
  · unfold updateHeirIfNecessary
    split
    next changes => exact ordered.updateHeir isFirst
    next same =>
      have isHeir : scheduler.threadHeir = first := not_not.mp same
      refine ⟨ordered, ?_, fun _ => ?_⟩
      · obtain ⟨chain, placed, -⟩ := ordered.chains.position_first isFirst
        rw [isHeir]
        exact (place_eq_some placed).1
      · rw [isHeir]
        exact isFirst

end

theorem readyQueueExtract_eq {position : Thread → Option Nat} {priority : Nat}
    (chains : ReadyChains scheduler.ready scheduler.bitMap position)
    (placed : position thread = some priority)
    (cached : scheduler.readyQueue thread = schedulerPriorityReadyQueueUpdate priority) :
    scheduler.readyQueueExtract thread =
      { scheduler with
        ready := fun chain => (scheduler.ready chain).erase thread
        bitMap := if (scheduler.ready priority).length = 1 then
          scheduler.bitMap.remove (.initializeInformation priority) else scheduler.bitMap } := by
  unfold readyQueueExtract chainHasOnlyOneNode chainExtract
  rw [cached]
  by_cases alone : (scheduler.ready priority).length = 1
  · simp [schedulerPriorityReadyQueueUpdate, alone, chains.erase_alone placed alone]
  · simp [schedulerPriorityReadyQueueUpdate, alone]

@[simp] theorem readyQueueExtract_threadHeir :
    (scheduler.readyQueueExtract thread).threadHeir = scheduler.threadHeir := by
  unfold readyQueueExtract
  dsimp only
  split <;> rfl

@[simp] theorem readyQueueExtract_currentState :
    (scheduler.readyQueueExtract thread).currentState = scheduler.currentState := by
  unfold readyQueueExtract
  dsimp only
  split <;> rfl

@[simp] theorem readyQueueExtract_isPreemptible :
    (scheduler.readyQueueExtract thread).isPreemptible = scheduler.isPreemptible := by
  unfold readyQueueExtract
  dsimp only
  split <;> rfl

end SchedulerPriority

variable {ready : Nat → List Thread} {first thread : Thread} {priority : Nat}

theorem IsFirst.erase [DecidableEq Thread] (isFirst : IsFirst ready first)
    (different : first ≠ thread) : IsFirst (fun chain => (ready chain).erase thread) first := by
  obtain ⟨chain, rest, isChain, lowest⟩ := isFirst
  refine ⟨chain, rest.erase thread, ?_, ?_⟩
  · show (ready chain).erase thread = first :: rest.erase thread
    rw [isChain, List.erase_cons_tail (by simpa using different)]
  · intro lower before
    show (ready lower).erase thread = []
    rw [lowest lower before, List.erase_nil]

theorem IsFirst.append (isFirst : IsFirst ready first)
    (behind : ∀ chain, first ∈ ready chain → chain ≤ priority) :
    IsFirst (update ready priority (ready priority ++ [thread])) first := by
  obtain ⟨chain, rest, isChain, lowest⟩ := isFirst
  have notAfter := behind chain (by rw [isChain]; exact List.mem_cons_self)
  have others : ∀ lower, lower < chain →
      update ready priority (ready priority ++ [thread]) lower = [] := by
    intro lower before
    rw [update_of_ne (by omega), lowest lower before]
  by_cases isPriority : chain = priority
  · subst isPriority
    refine ⟨chain, rest ++ [thread], ?_, others⟩
    rw [update_self, isChain, List.cons_append]
  · refine ⟨chain, rest, ?_, others⟩
    rw [update_of_ne isPriority, isChain]

theorem isFirst_append (lowest : ∀ lower, lower ≤ priority → ready lower = []) :
    IsFirst (update ready priority (ready priority ++ [thread])) thread := by
  refine ⟨priority, [], ?_, ?_⟩
  · rw [update_self, lowest priority (Nat.le_refl priority), List.nil_append]
  · intro lower before
    rw [update_of_ne (by omega), lowest lower (by omega)]

namespace SchedulerPriority

variable [DecidableEq Thread] {scheduler : SchedulerPriority Thread} {thread idle : Thread}

theorem statesSet_not_ready {state previous : BitVec 32} (isState : state ≠ 0) :
    statesIsReady (statesSet state previous) = false := by
  unfold statesIsReady statesSet statesReady
  apply decide_eq_false
  intro isZero
  exact isState (BitVec.or_eq_zero_iff.mp isZero).2

@[simp] theorem threadIsReady_setCurrentState_self (state : BitVec 32) :
    (scheduler.setCurrentState thread state).threadIsReady thread = statesIsReady state := by
  simp [threadIsReady, setCurrentState]

theorem threadIsReady_setCurrentState_other {other : Thread} (different : other ≠ thread)
    (state : BitVec 32) :
    (scheduler.setCurrentState thread state).threadIsReady other =
      scheduler.threadIsReady other := by
  simp [threadIsReady, setCurrentState, different]

variable {state : BitVec 32}

theorem place_setCurrentState (notReady : statesIsReady state = false) :
    (scheduler.setCurrentState thread state).place = update scheduler.place thread none := by
  funext other
  by_cases same : other = thread
  · subst same
    rw [update_self, place_of_not_ready]
    rw [threadIsReady_setCurrentState_self, notReady]
  · rw [update_of_ne same, place, threadIsReady_setCurrentState_other same]
    rfl

theorem Ordered.current_setCurrentState (ordered : scheduler.Ordered idle)
    (notReady : statesIsReady state = false) (other : Thread)
    (isReady : (scheduler.setCurrentState thread state).threadIsReady other = true) :
    (scheduler.readyQueue other).currentPriority =
      schedulerPriorityUnmap (scheduler.nodePriority other) := by
  apply ordered.current
  by_cases same : other = thread
  · subst same
    rw [threadIsReady_setCurrentState_self, notReady] at isReady
    cases isReady
  · rw [threadIsReady_setCurrentState_other same] at isReady
    exact isReady

theorem Ordered.extract (ordered : scheduler.Ordered idle) (notReady : statesIsReady state = false)
    (notIdle : thread ≠ idle) (isReady : scheduler.threadIsReady thread = true) :
    ((scheduler.setCurrentState thread state).readyQueueExtract thread).Ordered idle ∧
      ((scheduler.setCurrentState thread state).readyQueueExtract thread).ready =
        fun chain => (scheduler.ready chain).erase thread := by
  have placed := place_of_ready isReady
  have extracts := @readyQueueExtract_eq _ (scheduler.setCurrentState thread state) thread _ _ _
    ordered.chains placed (ordered.readyQueue_eq isReady)
  rw [extracts]
  refine ⟨⟨⟨ordered.cached, ordered.current_setCurrentState notReady, ordered.priorities, ?_⟩, ?_⟩,
    rfl⟩
  · exact (threadIsReady_setCurrentState_other (Ne.symm notIdle) state).trans ordered.idleReady
  · have erased := ordered.chains.erase placed rfl
    rw [← place_setCurrentState notReady] at erased
    exact erased

theorem Settled.stillBlocked (settled : scheduler.Settled idle)
    (blocked : scheduler.threadIsReady thread = false) (notReady : statesIsReady state = false) :
    (scheduler.setCurrentState thread state).Settled idle := by
  have ordered := settled.ordered
  have different : ∀ other, scheduler.threadIsReady other = true → other ≠ thread := by
    rintro other isReady rfl
    rw [blocked] at isReady
    cases isReady
  have stays : ∀ other, scheduler.threadIsReady other = true →
      (scheduler.setCurrentState thread state).threadIsReady other = true := by
    intro other isReady
    rw [threadIsReady_setCurrentState_other (different other isReady), isReady]
  refine ⟨⟨⟨ordered.cached, ordered.current_setCurrentState notReady, ordered.priorities,
    stays idle ordered.idleReady⟩, ?_⟩, stays _ settled.heirReady, settled.heirFirst⟩
  rw [place_setCurrentState notReady, ← place_of_not_ready blocked, update_eq_self]
  exact ordered.chains

theorem Settled.threadSetState (settled : scheduler.Settled idle) (isState : state ≠ 0)
    (notIdle : thread ≠ idle) :
    ∃ after, scheduler.threadSetState thread state = some after ∧ after.Settled idle := by
  have notReady := @statesSet_not_ready _ (scheduler.currentState thread) isState
  unfold SchedulerPriority.threadSetState
  dsimp only
  split
  next wasReady =>
    obtain ⟨extracted, isReadyChains⟩ := settled.ordered.extract notReady notIdle wasReady
    unfold block
    dsimp only
    split
    next blocksHeir => exact extracted.select
    next blocksOther =>
      rw [readyQueueExtract_threadHeir] at blocksOther
      refine ⟨_, rfl, extracted, ?_, ?_⟩
      · rw [threadIsReady, readyQueueExtract_currentState, readyQueueExtract_threadHeir]
        exact (threadIsReady_setCurrentState_other blocksOther _).trans settled.heirReady
      · rw [readyQueueExtract_threadHeir, readyQueueExtract_isPreemptible, isReadyChains]
        exact fun preemptible => (settled.heirFirst preemptible).erase blocksOther
  next wasBlocked =>
    have blocked : scheduler.threadIsReady thread = false := by
      simpa [threadIsReady] using wasBlocked
    exact ⟨_, rfl, settled.stillBlocked blocked notReady⟩

/-- A thread is ready, and its ready queue data is right, but it is on no chain yet. -/
structure Unplaced (scheduler : SchedulerPriority Thread) (thread idle : Thread) : Prop
    extends scheduler.Keyed idle where
  chains : ReadyChains scheduler.ready scheduler.bitMap (update scheduler.place thread none)
  isReady : scheduler.threadIsReady thread = true

section

variable (unplaced : scheduler.Unplaced thread idle)
include unplaced

theorem Unplaced.placed {chain : List Thread} (isChain : chain.Perm (thread ::
      scheduler.ready (schedulerPriorityUnmap (scheduler.nodePriority thread)))) :
    ReadyChains
      (update scheduler.ready (schedulerPriorityUnmap (scheduler.nodePriority thread)) chain)
      (scheduler.bitMap.add
        (.initializeInformation (schedulerPriorityUnmap (scheduler.nodePriority thread))))
      scheduler.place := by
  obtain ⟨priority, bounded, -, order, isNode⟩ := unplaced.priorities thread
  have inMap : schedulerPriorityUnmap (scheduler.nodePriority thread) < 256 := by
    rw [isNode, schedulerPriorityUnmap_map]
    exact bounded
  have placed := unplaced.chains.place (update_self _ _ _) inMap isChain
  rw [update_idem, ← place_of_ready unplaced.isReady, update_eq_self] at placed
  exact placed

theorem Unplaced.enqueue : (scheduler.readyQueueEnqueue thread).Ordered idle := by
  unfold readyQueueEnqueue chainAppend
  rw [unplaced.readyQueue_eq unplaced.isReady]
  exact ⟨⟨unplaced.cached, unplaced.current, unplaced.priorities, unplaced.idleReady⟩,
    unplaced.placed (List.perm_append_singleton thread _)⟩

theorem Unplaced.enqueueFirst : (scheduler.readyQueueEnqueueFirst thread).Ordered idle := by
  unfold readyQueueEnqueueFirst chainPrepend
  rw [unplaced.readyQueue_eq unplaced.isReady]
  exact ⟨⟨unplaced.cached, unplaced.current, unplaced.priorities, unplaced.idleReady⟩,
    unplaced.placed (List.Perm.refl _)⟩

end

theorem setReadyQueue_eq {priority : Nat}
    (cached : scheduler.readyQueue thread =
      schedulerPriorityReadyQueueUpdate (scheduler.readyQueue thread).currentPriority) :
    (if priority ≠ (scheduler.readyQueue thread).currentPriority then
      scheduler.setReadyQueue thread (schedulerPriorityReadyQueueUpdate priority)
    else scheduler) =
      scheduler.setReadyQueue thread (schedulerPriorityReadyQueueUpdate priority) := by
  split
  next => rfl
  next same =>
    have isQueue : schedulerPriorityReadyQueueUpdate priority = scheduler.readyQueue thread := by
      rw [cached, not_not.mp same]
    simp [setReadyQueue, isQueue]

theorem cached_setReadyQueue {priority : Nat}
    (cached : ∀ other, scheduler.readyQueue other =
      schedulerPriorityReadyQueueUpdate (scheduler.readyQueue other).currentPriority)
    (other : Thread) :
    (scheduler.setReadyQueue thread (schedulerPriorityReadyQueueUpdate priority)).readyQueue other =
      schedulerPriorityReadyQueueUpdate ((scheduler.setReadyQueue thread
        (schedulerPriorityReadyQueueUpdate priority)).readyQueue other).currentPriority := by
  by_cases same : other = thread
  · subst same
    simp [setReadyQueue, schedulerPriorityReadyQueueUpdate]
  · simp only [setReadyQueue, update_of_ne same]
    exact cached other

theorem current_setReadyQueue {priority : Nat}
    (isPriority : priority = schedulerPriorityUnmap (scheduler.nodePriority thread))
    (current : ∀ other, other ≠ thread → scheduler.threadIsReady other = true →
      (scheduler.readyQueue other).currentPriority =
        schedulerPriorityUnmap (scheduler.nodePriority other))
    (other : Thread) (isReady : scheduler.threadIsReady other = true) :
    ((scheduler.setReadyQueue thread
        (schedulerPriorityReadyQueueUpdate priority)).readyQueue other).currentPriority =
      schedulerPriorityUnmap (scheduler.nodePriority other) := by
  by_cases same : other = thread
  · subst same
    simp [setReadyQueue, schedulerPriorityReadyQueueUpdate, isPriority]
  · simp only [setReadyQueue, update_of_ne same]
    exact current other same isReady

/-- A thread that becomes ready is on no ready queue yet. -/
theorem Ordered.unplaced (ordered : scheduler.Ordered idle)
    (blocked : scheduler.threadIsReady thread = false) (nowReady : statesIsReady state = true) :
    ((scheduler.setCurrentState thread state).setReadyQueue thread
      (schedulerPriorityReadyQueueUpdate
        (schedulerPriorityUnmap (scheduler.nodePriority thread)))).Unplaced thread idle := by
  have isReady : (scheduler.setCurrentState thread state).threadIsReady thread = true := by
    rw [threadIsReady_setCurrentState_self, nowReady]
  have others : ∀ other, other ≠ thread →
      (scheduler.setCurrentState thread state).threadIsReady other =
        scheduler.threadIsReady other :=
    fun other different => threadIsReady_setCurrentState_other different state
  refine ⟨⟨cached_setReadyQueue ordered.cached, ?_, ordered.priorities, ?_⟩, ?_, isReady⟩
  · have current : ∀ other, other ≠ thread →
        (scheduler.setCurrentState thread state).threadIsReady other = true →
          (scheduler.readyQueue other).currentPriority =
            schedulerPriorityUnmap (scheduler.nodePriority other) := by
      intro other different readyOther
      rw [others other different] at readyOther
      exact ordered.current other readyOther
    exact @current_setReadyQueue _ _ (scheduler.setCurrentState thread state) thread _ rfl current
  · by_cases same : idle = thread
    · rw [same]
      exact isReady
    · exact (others idle same).trans ordered.idleReady
  · have places : update (scheduler.setCurrentState thread state).place thread none =
        scheduler.place := by
      funext other
      by_cases same : other = thread
      · subst same
        rw [update_self, place_of_not_ready blocked]
      · rw [update_of_ne same, place, others other same]
        rfl
    have chains := ordered.chains
    rw [← places] at chains
    exact chains

section

variable (settled : scheduler.Settled idle)
include settled

/-- An unblocked thread is inserted, and becomes the heir if it is of higher priority. -/
theorem Settled.unblock {state : BitVec 32} (blocked : scheduler.threadIsReady thread = false)
    (nowReady : statesIsReady state = true) :
    ((scheduler.setCurrentState thread state).unblock thread).Settled idle := by
  have ordered := settled.ordered
  have enqueued := (ordered.unplaced blocked nowReady).enqueue
  have heirOther : scheduler.threadHeir ≠ thread := by
    intro same
    have isReady := settled.heirReady
    rw [same, blocked] at isReady
    cases isReady
  have heirReady : (scheduler.setCurrentState thread state).threadIsReady scheduler.threadHeir =
      true := by
    rw [threadIsReady_setCurrentState_other heirOther]
    exact settled.heirReady
  have isQueue : ((scheduler.setCurrentState thread state).setReadyQueue thread
      (schedulerPriorityReadyQueueUpdate
        (schedulerPriorityUnmap (scheduler.nodePriority thread)))).readyQueue thread =
      schedulerPriorityReadyQueueUpdate (schedulerPriorityUnmap (scheduler.nodePriority thread)) :=
    update_self _ _ _
  have unsigned := ordered.unsigned_eq thread
  have isUpdated := @setReadyQueue_eq _ _ (scheduler.setCurrentState thread state) thread
    (schedulerPriorityUnmap (scheduler.nodePriority thread)) (ordered.cached thread)
  unfold SchedulerPriority.unblock
  dsimp only
  rw [show (scheduler.setCurrentState thread state).nodePriority = scheduler.nodePriority from rfl,
    unsigned, isUpdated]
  split
  next important =>
    have before := (enqueued.lt_getPriority_iff thread _).mp important
    unfold SchedulerPriority.updateHeirIfPreemptible
    split
    next preempts =>
      apply enqueued.updateHeir
      obtain ⟨chain, placed, lowest⟩ :=
        ordered.chains.position_first (settled.heirFirst preempts.2)
      obtain ⟨-, isChain⟩ := place_eq_some placed
      unfold readyQueueEnqueue chainAppend
      rw [isQueue]
      apply isFirst_append
      intro lower notAfter
      apply lowest
      rw [isChain]
      exact notAfter.trans_lt before
    next stays =>
      refine ⟨enqueued, heirReady, fun preemptible => ?_⟩
      exact absurd ⟨heirOther, preemptible⟩ stays
  next unimportant =>
    have notBefore : ¬ _ := fun before =>
      unimportant ((enqueued.lt_getPriority_iff thread _).mpr before)
    refine ⟨enqueued, heirReady, fun preemptible => ?_⟩
    have isFirst := settled.heirFirst preemptible
    unfold readyQueueEnqueue chainAppend
    rw [isQueue]
    apply isFirst.append
    intro chain member
    obtain ⟨-, isChain⟩ := place_eq_some ((ordered.chains.onChain _ chain).mp member)
    rw [isChain]
    exact Nat.le_of_not_lt notBefore

theorem Settled.threadClearState (state : BitVec 32) :
    (scheduler.threadClearState thread state).Settled idle := by
  unfold SchedulerPriority.threadClearState
  dsimp only
  split
  next waits =>
    have blocked : scheduler.threadIsReady thread = false := by
      apply decide_eq_false
      intro isZero
      exact waits (by rw [isZero]; exact BitVec.zero_and)
    split
    next nowReady => exact settled.unblock blocked nowReady
    next notReady => exact settled.stillBlocked blocked (by simpa using notReady)
  next => exact settled

theorem Settled.threadYield :
    ∃ after, scheduler.threadYield thread = some after ∧ after.Settled idle := by
  have ordered := settled.ordered
  unfold SchedulerPriority.threadYield
  split
  next isReady =>
    have placed := place_of_ready isReady
    unfold SchedulerPriority.yield
    rw [ordered.readyQueue_eq isReady]
    have turned : Ordered (if scheduler.chainHasOnlyOneNode
        (schedulerPriorityUnmap (scheduler.nodePriority thread)) = true then scheduler
      else (scheduler.chainExtract thread).chainAppend
        (schedulerPriorityUnmap (scheduler.nodePriority thread)) thread) idle := by
      split
      next => exact ordered
      next several =>
        exact ⟨⟨ordered.cached, ordered.current, ordered.priorities, ordered.idleReady⟩,
          ordered.chains.rotate placed⟩
    exact turned.turn
  next => exact ⟨scheduler, rfl, settled⟩

end

section SetPriority

variable {priority : Nat} {order : PriorityGroupOrder}

private theorem setNodePriority_self :
    (scheduler.setNodePriority thread priority order).nodePriority thread =
      schedulerPriorityMap priority ||| order.value := by
  simp [setNodePriority]

theorem unmap_setNodePriority_self :
    schedulerPriorityUnmap ((scheduler.setNodePriority thread priority order).nodePriority thread) =
      priority := by
  rw [setNodePriority_self, schedulerPriorityUnmap_map]

theorem setNodePriority_other {other : Thread} (different : other ≠ thread) :
    (scheduler.setNodePriority thread priority order).nodePriority other =
      scheduler.nodePriority other := by
  simp [setNodePriority, different]

theorem Ordered.priorities_setNodePriority (ordered : scheduler.Ordered idle)
    (bounded : priority < 256) (other : Thread) :
    ∃ value, value < 256 ∧
      (scheduler.setNodePriority thread priority order).waitPriority other =
        schedulerPriorityMap value ∧
      ∃ valueOrder : PriorityGroupOrder,
        (scheduler.setNodePriority thread priority order).nodePriority other =
          schedulerPriorityMap value ||| valueOrder.value := by
  by_cases same : other = thread
  · subst same
    exact ⟨priority, bounded, update_self _ _ _, order, update_self _ _ _⟩
  · rw [setNodePriority_other same]
    simp only [setNodePriority, update_of_ne same]
    exact ordered.priorities other

theorem Settled.setNodePriority (settled : scheduler.Settled idle) (bounded : priority < 256)
    (stays : scheduler.threadIsReady thread = true →
      priority = (scheduler.readyQueue thread).currentPriority) :
    (scheduler.setNodePriority thread priority order).Settled idle := by
  have ordered := settled.ordered
  have unmaps : ∀ other, scheduler.threadIsReady other = true →
      schedulerPriorityUnmap
          ((scheduler.setNodePriority thread priority order).nodePriority other) =
        schedulerPriorityUnmap (scheduler.nodePriority other) := by
    intro other isReady
    by_cases same : other = thread
    · subst same
      rw [unmap_setNodePriority_self, stays isReady, ordered.current other isReady]
    · rw [setNodePriority_other same]
  refine ⟨⟨⟨ordered.cached, ?_, ordered.priorities_setNodePriority bounded,
    ordered.idleReady⟩, ?_⟩, settled.heirReady, settled.heirFirst⟩
  · intro other isReady
    rw [unmaps other isReady]
    exact ordered.current other isReady
  · apply ordered.chains.congr
    intro other
    cases isReady : scheduler.threadIsReady other with
    | false =>
      have nowhere : scheduler.place other = none := place_of_not_ready isReady
      rw [nowhere]
      exact place_of_not_ready isReady
    | true =>
      rw [place_of_ready isReady, ← unmaps other isReady]
      exact place_of_ready isReady

/-- A thread that changes its priority is taken off its ready queue first. -/
theorem Ordered.moved (ordered : scheduler.Ordered idle) (order : PriorityGroupOrder)
    (bounded : priority < 256) (isReady : scheduler.threadIsReady thread = true) :
    (((scheduler.setNodePriority thread priority order).readyQueueExtract thread).setReadyQueue
      thread (schedulerPriorityReadyQueueUpdate priority)).Unplaced thread idle := by
  have placed := place_of_ready isReady
  have extracts := @readyQueueExtract_eq _ (scheduler.setNodePriority thread priority order)
    thread _ _ _ ordered.chains placed (ordered.readyQueue_eq isReady)
  have current : ∀ other, other ≠ thread → scheduler.threadIsReady other = true →
      (scheduler.readyQueue other).currentPriority = schedulerPriorityUnmap
        ((scheduler.setNodePriority thread priority order).nodePriority other) := by
    intro other different readyOther
    rw [setNodePriority_other different]
    exact ordered.current other readyOther
  rw [extracts]
  refine ⟨⟨cached_setReadyQueue ordered.cached, ?_,
    ordered.priorities_setNodePriority bounded, ordered.idleReady⟩, ?_, isReady⟩
  · exact @current_setReadyQueue _ _ (scheduler.setNodePriority thread priority order) thread _
      unmap_setNodePriority_self.symm current
  · have places : update (scheduler.setNodePriority thread priority order).place thread
        none = update scheduler.place thread none := by
      funext other
      by_cases same : other = thread
      · subst same
        rw [update_self, update_self]
      · rw [update_of_ne same, update_of_ne same, place, setNodePriority_other same]
        rfl
    have erased := ordered.chains.erase placed rfl
    rw [← places] at erased
    exact erased

theorem Settled.setPriority (settled : scheduler.Settled idle) (bounded : priority < 256) :
    ∃ after, scheduler.setPriority thread priority order = some after ∧ after.Settled idle := by
  have unsigned : unsignedOfPriority
      ((scheduler.setNodePriority thread priority order).nodePriority thread) =
        schedulerPriorityMap priority ||| order.value := by
    rw [setNodePriority_self, unsignedOfPriority, schedulerPriorityMap_or]
    apply Nat.mod_eq_of_lt
    cases order <;> simp only [PriorityGroupOrder.value] <;> omega
  unfold SchedulerPriority.setPriority updatePriority
  dsimp only
  rw [unsigned, schedulerPriorityUnmap_map]
  split
  next blocked =>
    refine ⟨_, rfl, settled.setNodePriority bounded fun isReady => ?_⟩
    rw [Bool.not_eq_true'] at blocked
    exact absurd (isReady.symm.trans blocked) (by decide)
  next notBlocked =>
    have isReady : (scheduler.setNodePriority thread priority order).threadIsReady thread = true :=
      by simpa using notBlocked
    split
    next same => exact ⟨_, rfl, settled.setNodePriority bounded fun _ => same⟩
    next =>
      have unplaced : Unplaced _ thread idle := settled.ordered.moved order bounded isReady
      have heirReady : ((scheduler.setNodePriority thread priority order).readyQueueExtract
          thread).threadIsReady ((scheduler.setNodePriority thread priority
            order).readyQueueExtract thread).threadHeir = true := by
        rw [threadIsReady, readyQueueExtract_currentState, readyQueueExtract_threadHeir]
        exact settled.heirReady
      split
      next => exact unplaced.enqueue.schedule heirReady
      next => exact unplaced.enqueueFirst.schedule heirReady

end SetPriority

theorem Settled.setPreemptible (settled : scheduler.Settled idle) (isPreemptible : Bool) :
    ∃ after, scheduler.setPreemptible thread isPreemptible = some after ∧ after.Settled idle := by
  have ordered : Ordered { scheduler with
      isPreemptible := update scheduler.isPreemptible thread isPreemptible } idle :=
    ⟨⟨settled.ordered.cached, settled.ordered.current, settled.ordered.priorities,
      settled.ordered.idleReady⟩, settled.ordered.chains⟩
  unfold SchedulerPriority.setPreemptible
  dsimp only
  split
  next becomes => exact ordered.schedule settled.heirReady
  next stays =>
    refine ⟨_, rfl, ordered, settled.heirReady, fun preemptible => settled.heirFirst ?_⟩
    by_cases isThread : scheduler.threadHeir = thread
    · rw [isThread] at preemptible ⊢
      simp only [update_self] at preemptible
      simpa [preemptible] using stays
    · simpa [isThread] using preemptible

theorem initial_settled {priorities : Thread → Nat} (bounded : ∀ thread, priorities thread < 256)
    (isPreemptible : Thread → Bool) (idle : Thread) :
    (initial priorities isPreemptible idle).Settled idle := by
  have isMapped : ∀ thread, schedulerPriorityMap (priorities thread) =
      schedulerPriorityMap (priorities thread) ||| PriorityGroupOrder.first.value :=
    fun thread => (Nat.or_zero _).symm
  have unmaps : ∀ thread,
      schedulerPriorityUnmap (schedulerPriorityMap (priorities thread)) = priorities thread := by
    intro thread
    rw [isMapped, schedulerPriorityUnmap_map]
  have idleReady : (initialized priorities isPreemptible idle).threadIsReady idle = true := by
    simp [threadIsReady, initialized, statesIsReady]
  have nowhere : update (initialized priorities isPreemptible idle).place idle none =
      fun _ => none := by
    funext thread
    by_cases same : thread = idle
    · rw [same, update_self]
    · rw [update_of_ne same, place_of_not_ready]
      simp [threadIsReady, initialized, same, statesIsReady, statesDormant, statesReady]
  have unplaced : (initialized priorities isPreemptible idle).Unplaced idle idle := by
    refine ⟨⟨fun _ => rfl, fun thread _ => (unmaps thread).symm, ?_, idleReady⟩, ?_, idleReady⟩
    · exact fun thread => ⟨priorities thread, bounded thread, rfl, .first, isMapped thread⟩
    · rw [nowhere]
      refine ⟨by simp [initialized], by simp [initialized], ?_⟩
      exact PriorityBitMapControl.initialized_describes.congr (by simp [initialized])
  have unsigned : unsignedOfPriority (schedulerPriorityMap (priorities idle)) =
      schedulerPriorityMap (priorities idle) := by
    have small := bounded idle
    rw [isMapped, schedulerPriorityMap_or]
    apply Nat.mod_eq_of_lt
    simp only [PriorityGroupOrder.value]
    omega
  have started : initial priorities isPreemptible idle =
      (initialized priorities isPreemptible idle).readyQueueEnqueue idle := by
    unfold initial SchedulerPriority.unblock
    rw [show (initialized priorities isPreemptible idle).nodePriority idle =
      schedulerPriorityMap (priorities idle) from rfl, unsigned]
    dsimp only
    rw [unmaps]
    have cached : ((initialized priorities isPreemptible idle).readyQueue idle).currentPriority =
        priorities idle := rfl
    simp only [cached, ne_eq, not_true_eq_false, ↓reduceIte]
    exact if_neg (Nat.lt_irrefl _)
  rw [started]
  refine ⟨unplaced.enqueue, idleReady, fun _ => ?_⟩
  exact isFirst_append fun _ _ => rfl

end SchedulerPriority

/-- A call in a run; a call that finds no ready thread ends the run. -/
def schedulerStep [DecidableEq Thread] (scheduler : Option (SchedulerPriority Thread))
    (call : SchedulerPriorityCall Thread) : Option (SchedulerPriority Thread) :=
  scheduler.bind call.perform

theorem SchedulerPriority.Settled.perform [DecidableEq Thread]
    {scheduler : SchedulerPriority Thread} {idle : Thread} {call : SchedulerPriorityCall Thread}
    (settled : scheduler.Settled idle) (possible : call.Possible idle) :
    ∃ after, call.perform scheduler = some after ∧ after.Settled idle := by
  cases call with
  | setState thread state => exact settled.threadSetState possible.1 possible.2
  | clearState thread state => exact ⟨_, rfl, settled.threadClearState state⟩
  | setPriority thread priority order => exact settled.setPriority possible
  | yield thread => exact settled.threadYield
  | setPreemptible thread isPreemptible => exact settled.setPreemptible isPreemptible

/-- In every run the scheduler finds a ready thread, the chains and the bit map are as the
states and priorities of the threads say, and the heir is the highest ready thread. -/
theorem schedulerRun_correct [DecidableEq Thread] {priorities : Thread → Nat}
    (isPreemptible : Thread → Bool) {idle : Thread} {calls : List (SchedulerPriorityCall Thread)}
    (bounded : ∀ thread, priorities thread < 256) (possible : ∀ call ∈ calls, call.Possible idle) :
    Throughout schedulerStep
      (fun scheduler => ∃ reached, scheduler = some reached ∧ reached.Correct)
      (some (SchedulerPriority.initial priorities isPreemptible idle)) calls := by
  have settled := SchedulerPriority.initial_settled bounded isPreemptible idle
  generalize SchedulerPriority.initial priorities isPreemptible idle = scheduler at settled
  induction calls generalizing scheduler with
  | nil => exact ⟨scheduler, rfl, settled.correct⟩
  | cons call rest ih =>
    refine ⟨⟨scheduler, rfl, settled.correct⟩, ?_⟩
    obtain ⟨after, performs, settledAfter⟩ := settled.perform (possible call List.mem_cons_self)
    show Throughout schedulerStep _ (call.perform scheduler) rest
    rw [performs]
    exact ih (fun later inside => possible later (List.mem_cons_of_mem call inside)) after
      settledAfter

/-- Thread 1 becomes ready above the idle thread, yields and waits; the idle thread is the
heir again. -/
theorem wokenThread_correct :
    Throughout schedulerStep
      (fun scheduler => ∃ reached, scheduler = some reached ∧ reached.Correct)
      (some (SchedulerPriority.initial (fun thread : Nat => 255 - thread) (fun _ => true) 0))
      [.clearState 1 statesDormant, .setPriority 1 7 .last, .yield 1,
        .setState 1 statesWaitingForMutex] :=
  schedulerRun_correct (fun _ => true) (by omega) (by decide)

end RTContainer.Score
