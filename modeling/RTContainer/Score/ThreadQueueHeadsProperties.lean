import RTContainer.Lib.Lending
import RTContainer.Score.ThreadQueueHeads

/-! What one operation does to the heads and to the order of the waiting threads. -/

set_option autoImplicit false

namespace RTContainer.Score

open Function

namespace HeadedQueues

variable {Thread Queue : Type}

def read {Item : Type} (state : HeadedQueues Thread Queue)
    (items : ThreadQueueHeads Thread → List Item) (queue : Queue) : List Item :=
  match state.heads queue with
  | none => []
  | some heads => items (state.structures heads)

/-- The heads as tokens: those on the `Free_chain` of the heads in use lie on the pile of the
queue. -/
def lending (state : HeadedQueues Thread Queue) : Lending Thread Queue Nat where
  spare := state.spareHeads
  pile := state.read ThreadQueueHeads.freeChain

structure Lent (state : HeadedQueues Thread Queue) : Prop where
  distinct : state.lending.Distinct
  base : ∀ {queue : Queue} {heads : Nat}, state.heads queue = some heads →
    (state.structures heads).freeChain.getLast? = some heads
  clean : ∀ {heads : Nat}, state.lending.Has heads →
    (∀ queue, state.heads queue ≠ some heads) → (state.structures heads).freeChain = []

def Precedes (discipline : ThreadQueueDiscipline) (priority since : Thread → Nat)
    (left right : Thread) : Prop :=
  match discipline with
  | .fifo => since left < since right
  | .priority =>
    priority left < priority right ∨ priority left = priority right ∧ since left < since right

def Before (state : HeadedQueues Thread Queue) (queue : Queue) : Thread → Thread → Prop :=
  Precedes (state.discipline queue) state.priority state.since

structure Conserved (state : HeadedQueues Thread Queue) : Prop extends Lent state where
  count : ∀ queue, (state.lending.pile queue).length = (state.waiters queue).length
  spare : ∀ thread, (state.spareHeads thread).isSome ↔ state.waitQueue thread = none
  waiting : ∀ thread queue, thread ∈ state.waiters queue ↔ state.waitQueue thread = some queue
  ordered : ∀ queue, (state.waiters queue).Pairwise (state.Before queue)
  past : ∀ thread, state.waitQueue thread ≠ none → state.since thread < state.clock

variable {state : HeadedQueues Thread Queue} {queue other : Queue} {thread : Thread}
variable {heads spare : Nat}

theorem waiters_eq (state : HeadedQueues Thread Queue) :
    state.waiters = state.read fun heads => heads.waiting.contributors := rfl

section Read

variable {Item : Type} (items : ThreadQueueHeads Thread → List Item)

theorem read_of_heads (used : state.heads queue = some heads) :
    state.read items queue = items (state.structures heads) := by
  simp only [read, used]

theorem read_of_none (unused : state.heads queue = none) : state.read items queue = [] := by
  simp only [read, unused]

end Read

theorem Lent.mem_pile (lent : state.Lent) (used : state.heads queue = some heads) :
    heads ∈ state.lending.pile queue := by
  refine List.mem_of_getLast? (?_ : (state.read ThreadQueueHeads.freeChain queue).getLast? = _)
  rw [read_of_heads _ used]
  exact lent.base used

theorem Lent.heads_ne (lent : state.Lent) (used : state.heads queue = some heads)
    (different : other ≠ queue) : state.heads other ≠ some heads := fun same =>
  different (lent.distinct.disjoint (lent.mem_pile same) (lent.mem_pile used))

theorem Lent.spare_ne (lent : state.Lent) (has : state.spareHeads thread = some spare)
    (queue : Queue) : state.heads queue ≠ some spare := fun used =>
  lent.distinct.apart has (lent.mem_pile used)

variable [DecidableEq Queue]

section Write

variable {headsOf : Queue → Option Nat} {spareOf : Thread → Option Nat}
variable {written : ThreadQueueHeads Thread}

/-- The structure of one queue is written, which may give the queue other heads or leave it
without. -/
structure Writes (state : HeadedQueues Thread Queue) (queue : Queue) (heads : Nat)
    (headsOf : Queue → Option Nat) (written : ThreadQueueHeads Thread) : Prop where
  here : headsOf queue = some heads ∧ written.freeChain.getLast? = some heads ∨
    headsOf queue = none ∧ written.freeChain = [] ∧ written.waiting.contributors = []
  before : ∀ {used : Nat}, state.heads queue = some used → used = heads
  elsewhere : ∀ other, other ≠ queue →
    headsOf other = state.heads other ∧ state.heads other ≠ some heads

def write (state : HeadedQueues Thread Queue) (heads : Nat) (headsOf : Queue → Option Nat)
    (written : ThreadQueueHeads Thread) (spareOf : Thread → Option Nat) :
    HeadedQueues Thread Queue :=
  { state with
    heads := headsOf
    structures := update state.structures heads written
    spareHeads := spareOf }

section

variable (writes : Writes state queue heads headsOf written)
include writes

theorem Writes.read {Item : Type} (items : ThreadQueueHeads Thread → List Item)
    (empty : headsOf queue = none → items written = []) :
    (state.write heads headsOf written spareOf).read items =
      update (state.read items) queue (items written) := by
  funext other
  rcases eq_or_ne other queue with rfl | different
  · rw [update_self]
    rcases writes.here with ⟨used, -⟩ | ⟨unused, -⟩
    · have usedAfter : (state.write heads headsOf written spareOf).heads other = some heads := used
      rw [read_of_heads items usedAfter]
      exact congrArg items (update_self ..)
    · have unusedAfter : (state.write heads headsOf written spareOf).heads other = none := unused
      rw [read_of_none items unusedAfter, empty unused]
  · rw [update_of_ne different]
    obtain ⟨same, apart⟩ := writes.elsewhere other different
    cases found : state.heads other with
    | none =>
      have unusedAfter : (state.write heads headsOf written spareOf).heads other = none :=
        same.trans found
      rw [read_of_none items found, read_of_none items unusedAfter]
    | some others =>
      have usedAfter : (state.write heads headsOf written spareOf).heads other = some others :=
        same.trans found
      rw [read_of_heads items found, read_of_heads items usedAfter]
      refine congrArg items (update_of_ne ?_ ..)
      rintro rfl
      exact apart found

theorem Writes.pile (spareOf : Thread → Option Nat) :
    (state.write heads headsOf written spareOf).lending.pile =
      update state.lending.pile queue written.freeChain := by
  refine writes.read ThreadQueueHeads.freeChain fun unused => ?_
  rcases writes.here with ⟨used, -⟩ | ⟨-, empty, -⟩
  · exact nomatch unused.symm.trans used
  · exact empty

theorem Writes.waiters (spareOf : Thread → Option Nat) :
    (state.write heads headsOf written spareOf).waiters =
      update state.waiters queue written.waiting.contributors := by
  refine writes.read (fun heads => heads.waiting.contributors) fun unused => ?_
  rcases writes.here with ⟨used, -⟩ | ⟨-, -, empty⟩
  · exact nomatch unused.symm.trans used
  · exact empty

omit [DecidableEq Queue] in
theorem Writes.lent (lent : state.Lent)
    (distinct : (state.write heads headsOf written spareOf).lending.Distinct)
    (has : ∀ token, (state.write heads headsOf written spareOf).lending.Has token →
      state.lending.Has token) : (state.write heads headsOf written spareOf).Lent where
  distinct := distinct
  base {other others} used := by
    show (update state.structures heads written others).freeChain.getLast? = some others
    rcases eq_or_ne other queue with rfl | different
    · rcases writes.here with ⟨usedHere, last⟩ | ⟨unused, -⟩
      · cases Option.some.inj (usedHere.symm.trans used)
        rw [update_self]
        exact last
      · exact nomatch unused.symm.trans used
    · obtain ⟨same, apart⟩ := writes.elsewhere other different
      have usedBefore := same.symm.trans used
      rw [update_of_ne]
      · exact lent.base usedBefore
      · rintro rfl
        exact apart usedBefore
  clean {token} hasToken unused := by
    show (update state.structures heads written token).freeChain = []
    rcases eq_or_ne token heads with rfl | different
    · rw [update_self]
      rcases writes.here with ⟨used, -⟩ | ⟨-, empty, -⟩
      · exact absurd used (unused queue)
      · exact empty
    · rw [update_of_ne different]
      refine lent.clean (has token hasToken) fun other used => ?_
      rcases eq_or_ne other queue with rfl | elsewhere
      · exact different (writes.before used)
      · exact unused other ((writes.elsewhere other elsewhere).1.trans used)

end

end Write

def placed (discipline : ThreadQueueDiscipline) (priority : Thread → Nat) (thread : Thread)
    (waiting : List Thread) : List Thread :=
  match discipline with
  | .fifo => waiting ++ [thread]
  | .priority => waiting.orderedInsert (fun left right => priority left < priority right) thread

section Placed

variable {discipline : ThreadQueueDiscipline} {priority since : Thread → Nat}
variable {waiting : List Thread}

theorem Precedes.ne {left right : Thread} (precedes : Precedes discipline priority since left right) :
    left ≠ right := by
  rintro rfl
  cases discipline with
  | fifo => exact Nat.lt_irrefl _ precedes
  | priority =>
    rcases precedes with higher | ⟨-, longer⟩
    · exact Nat.lt_irrefl _ higher
    · exact Nat.lt_irrefl _ longer

theorem placed_perm (discipline : ThreadQueueDiscipline) (priority : Thread → Nat)
    (thread : Thread) (waiting : List Thread) :
    (placed discipline priority thread waiting).Perm (thread :: waiting) := by
  cases discipline with
  | fifo => exact List.perm_append_singleton thread waiting
  | priority => exact List.perm_orderedInsert _ thread waiting

/-- A newcomer is placed in the order of the discipline. -/
theorem placed_pairwise (ordered : waiting.Pairwise (Precedes discipline priority since))
    (later : ∀ other ∈ waiting, since other < since thread) :
    (placed discipline priority thread waiting).Pairwise (Precedes discipline priority since) := by
  cases discipline with
  | fifo =>
    refine List.pairwise_append.mpr ⟨ordered, List.pairwise_singleton .., ?_⟩
    intro other member last isLast
    rw [List.mem_singleton.mp isLast]
    exact later other member
  | priority =>
    induction waiting with
    | nil => exact List.pairwise_singleton ..
    | cons first rest ih =>
      obtain ⟨firstBefore, orderedRest⟩ := List.pairwise_cons.mp ordered
      have placedRest := ih (fun other member =>
        later other (List.mem_cons_of_mem first member)) orderedRest
      dsimp only [placed] at placedRest ⊢
      rw [List.orderedInsert_cons]
      split
      · next higher =>
          refine List.pairwise_cons.mpr ⟨fun other member => .inl ?_, ordered⟩
          rcases List.mem_cons.mp member with rfl | behind
          · exact higher
          · rcases firstBefore other behind with lower | ⟨same, -⟩
            · exact higher.trans lower
            · exact same ▸ higher
      · next notHigher =>
          refine List.pairwise_cons.mpr ⟨fun other member => ?_, placedRest⟩
          rcases List.mem_cons.mp ((List.perm_orderedInsert ..).mem_iff.mp member) with
            rfl | behind
          · have longer := later first List.mem_cons_self
            rcases Nat.lt_or_eq_of_le (Nat.not_lt.mp notHigher) with lower | same
            · exact .inl lower
            · exact .inr ⟨same, longer⟩
          · exact firstBefore other behind

end Placed

theorem doInitialize_contributors (discipline : ThreadQueueDiscipline) (priority : Thread → Nat)
    (thread : Thread) (waiting : PriorityAggregation Thread) :
    (doInitialize discipline priority thread waiting).contributors =
      placed discipline priority thread [] := by
  cases discipline <;> rfl

theorem doEnqueue_contributors (discipline : ThreadQueueDiscipline) (priority : Thread → Nat)
    (thread : Thread) (waiting : PriorityAggregation Thread) :
    (doEnqueue discipline priority thread waiting).contributors =
      placed discipline priority thread waiting.contributors := by
  cases discipline <;> rfl

variable [DecidableEq Thread]

theorem Lent.queueEnqueue (lent : state.Lent) (has : state.spareHeads thread = some spare)
    (queue : Queue) :
    ∃ heads headsOf written,
      state.queueEnqueue queue thread = some (state.write heads headsOf written
        (update state.spareHeads thread none)) ∧
      Writes state queue heads headsOf written ∧
      written.freeChain = spare :: state.lending.pile queue ∧
      written.waiting.contributors =
        placed (state.discipline queue) state.priority thread (state.waiters queue) := by
  have empty := lent.clean (.inl ⟨thread, has⟩) (lent.spare_ne has)
  cases used : state.heads queue with
  | none =>
    refine ⟨spare, update state.heads queue (some spare),
      ⟨spare :: (state.structures spare).freeChain, doInitialize (state.discipline queue)
        state.priority thread (state.structures spare).waiting⟩, ?_, ⟨.inl ⟨?_, ?_⟩, ?_, ?_⟩, ?_, ?_⟩
    · simp only [HeadedQueues.queueEnqueue, has, used, Option.map_some]
      rfl
    · exact update_self ..
    · rw [empty]
      rfl
    · exact fun usedBefore => nomatch used.symm.trans usedBefore
    · exact fun other different => ⟨update_of_ne different .., lent.spare_ne has other⟩
    · rw [empty]
      exact congrArg (spare :: ·) (read_of_none ThreadQueueHeads.freeChain used).symm
    · rw [doInitialize_contributors, waiters_eq, read_of_none _ used]
  | some heads =>
    refine ⟨heads, state.heads,
      ⟨spare :: (state.structures heads).freeChain, doEnqueue (state.discipline queue)
        state.priority thread (state.structures heads).waiting⟩, ?_, ⟨.inl ⟨used, ?_⟩, ?_, ?_⟩, ?_, ?_⟩
    · simp only [HeadedQueues.queueEnqueue, has, used, Option.map_some]
      rfl
    · have last := lent.base used
      rw [List.getLast?_cons, last]
      rfl
    · exact fun usedBefore => Option.some.inj (usedBefore.symm.trans used)
    · exact fun other different => ⟨rfl, lent.heads_ne used different⟩
    · exact congrArg (spare :: ·) (read_of_heads ThreadQueueHeads.freeChain used).symm
    · rw [doEnqueue_contributors, waiters_eq, read_of_heads _ used]

theorem Lent.queueExtract {free : Nat} {rest : List Nat} (lent : state.Lent)
    (used : state.heads queue = some heads)
    (chain : (state.structures heads).freeChain = free :: rest)
    (last : rest = [] → (state.waiters queue).erase thread = []) :
    ∃ headsOf written,
      state.queueExtract queue heads thread = some (state.write heads headsOf written
        (update state.spareHeads thread (some free))) ∧
      Writes state queue heads headsOf written ∧ written.freeChain = rest ∧
      written.waiting.contributors = (state.waiters queue).erase thread := by
  rw [waiters_eq, read_of_heads _ used] at last ⊢
  refine ⟨if rest = [] then update state.heads queue none else state.heads,
    ⟨rest, (state.structures heads).waiting.plainExtract thread⟩, ?_, ⟨?_, ?_, ?_⟩, rfl, rfl⟩
  · simp only [HeadedQueues.queueExtract, chain]
    rfl
  · by_cases empty : rest = []
    · rw [if_pos empty]
      exact .inr ⟨update_self .., empty, last empty⟩
    · rw [if_neg empty]
      refine .inl ⟨used, ?_⟩
      have base := lent.base used
      rwa [chain, List.getLast?_cons_of_ne_nil empty] at base
  · exact fun usedBefore => Option.some.inj (usedBefore.symm.trans used)
  · intro other different
    refine ⟨?_, lent.heads_ne used different⟩
    split
    · exact update_of_ne different ..
    · rfl

end HeadedQueues

end RTContainer.Score

/-! Whole runs on the queues: the heads are conserved, and a surrender returns the thread whose
turn it is. -/

namespace RTContainer.Score

open Machine Function

namespace HeadedQueues

variable {Thread Queue : Type} [DecidableEq Thread] [DecidableEq Queue]
variable {state after : HeadedQueues Thread Queue} {queue : Queue} {thread : Thread}

section

variable (conserved : state.Conserved)
include conserved

omit [DecidableEq Thread] [DecidableEq Queue] in
theorem Conserved.nodup (queue : Queue) : (state.waiters queue).Nodup :=
  (conserved.ordered queue).imp Precedes.ne

theorem Conserved.threadQueueEnqueue (ready : state.waitQueue thread = none) (queue : Queue) :
    ∃ after, state.threadQueueEnqueue queue thread = some after ∧ after.Conserved ∧
      ∀ token, after.lending.Has token ↔ state.lending.Has token := by
  obtain ⟨spare, has⟩ := Option.isSome_iff_exists.mp ((conserved.spare thread).mpr ready)
  let claimed : HeadedQueues Thread Queue :=
    { state with
      waitQueue := update state.waitQueue thread (some queue)
      clock := state.clock + 1
      since := update state.since thread state.clock }
  have lent : claimed.Lent := ⟨conserved.distinct, conserved.base, conserved.clean⟩
  obtain ⟨heads, headsOf, written, enqueues, writes, chain, contributors⟩ :=
    lent.queueEnqueue has queue
  have lends : (claimed.write heads headsOf written
      (update claimed.spareHeads thread none)).lending = state.lending.lend thread queue spare := by
    have piles := writes.pile (update claimed.spareHeads thread none)
    rw [chain] at piles
    exact congrArg (Lending.mk _) piles
  have hasIff : ∀ token, (state.lending.lend thread queue spare).Has token ↔
      state.lending.Has token := fun token => Lending.has_lend has queue
  have distinct := conserved.distinct.lend has queue
  rw [← lends] at distinct hasIff
  have waiters := writes.waiters (update claimed.spareHeads thread none)
  have since : ∀ other, other ≠ thread → claimed.since other = state.since other :=
    fun other different => update_of_ne different ..
  have notWaiting : ∀ other, thread ∉ state.waiters other := by
    intro other member
    exact nomatch ready.symm.trans ((conserved.waiting thread other).mp member)
  refine ⟨_, enqueues,
    { toLent := writes.lent lent distinct fun token => (hasIff token).mp
      count := fun other => ?_
      spare := fun other => ?_
      waiting := fun other place => ?_
      ordered := fun other => ?_
      past := fun other waits => ?_ }, hasIff⟩
  · rw [lends, waiters]
    rcases eq_or_ne other queue with rfl | different
    · have pile : (state.lending.lend thread other spare).pile other =
          spare :: state.lending.pile other := update_self ..
      rw [update_self, contributors, (placed_perm ..).length_eq, pile]
      exact congrArg (· + 1) (conserved.count other)
    · have pile : (state.lending.lend thread queue spare).pile other =
          state.lending.pile other := update_of_ne different ..
      rw [update_of_ne different, pile]
      exact conserved.count other
  · show (update state.spareHeads thread none other).isSome ↔
      update state.waitQueue thread (some queue) other = none
    rcases eq_or_ne other thread with rfl | different
    · rw [update_self, update_self]
      exact ⟨fun isSome => (nomatch isSome), fun isNone => (nomatch isNone)⟩
    · rw [update_of_ne different, update_of_ne different]
      exact conserved.spare other
  · rw [waiters]
    show _ ↔ update state.waitQueue thread (some queue) other = some place
    have before : other ∈ claimed.waiters place ↔ _ := conserved.waiting other place
    rcases eq_or_ne other thread with rfl | different
    · rw [update_self]
      rcases eq_or_ne place queue with rfl | elsewhere
      · rw [update_self, contributors, (placed_perm ..).mem_iff]
        exact iff_of_true List.mem_cons_self rfl
      · rw [update_of_ne elsewhere]
        refine iff_of_false (notWaiting place) fun same => ?_
        exact elsewhere (Option.some.inj same).symm
    · rw [update_of_ne different, ← before]
      rcases eq_or_ne place queue with rfl | elsewhere
      · rw [update_self, contributors, (placed_perm ..).mem_iff, List.mem_cons]
        exact or_iff_right different
      · rw [update_of_ne elsewhere]
  · rw [waiters]
    have ordered : (claimed.waiters other).Pairwise (claimed.Before other) := by
      refine (conserved.ordered other).imp_of_mem fun {left right} isLeft isRight before => ?_
      have leftSame := since left fun same => notWaiting other (same ▸ isLeft)
      have rightSame := since right fun same => notWaiting other (same ▸ isRight)
      unfold Before Precedes at before ⊢
      rw [leftSame, rightSame]
      exact before
    rcases eq_or_ne other queue with rfl | elsewhere
    · rw [update_self, contributors]
      refine placed_pairwise ordered fun earlier member => ?_
      have waits := (conserved.waiting earlier other).mp member
      have past := conserved.past earlier fun isNone => nomatch waits.symm.trans isNone
      show claimed.since earlier < claimed.since thread
      rw [since earlier fun same => notWaiting other (same ▸ member),
        show claimed.since thread = state.clock from update_self ..]
      exact past
    · rw [update_of_ne elsewhere]
      exact ordered
  · show claimed.since other < state.clock + 1
    rcases eq_or_ne other thread with rfl | different
    · rw [show claimed.since other = state.clock from update_self ..]
      exact Nat.lt_succ_self _
    · rw [since other different]
      refine Nat.lt_succ_of_lt (conserved.past other fun isNone => waits ?_)
      exact (update_of_ne different ..).trans isNone

section

variable (waits : state.waitQueue thread = some queue)
include waits

omit [DecidableEq Thread] [DecidableEq Queue] in
theorem Conserved.used :
    ∃ heads free rest, state.heads queue = some heads ∧
      (state.structures heads).freeChain = free :: rest ∧
      (state.waiters queue).length = rest.length + 1 := by
  have member := (conserved.waiting thread queue).mpr waits
  have count := conserved.count queue
  cases used : state.heads queue with
  | none =>
    rw [waiters_eq, read_of_none _ used] at member
    nomatch member
  | some heads =>
    have pile : state.lending.pile queue = (state.structures heads).freeChain :=
      read_of_heads _ used
    rw [pile] at count
    cases chain : (state.structures heads).freeChain with
    | nil =>
      rw [chain, List.length_nil] at count
      rw [List.eq_nil_of_length_eq_zero count.symm] at member
      nomatch member
    | cons free rest =>
      rw [chain, List.length_cons] at count
      exact ⟨heads, free, rest, rfl, chain, count.symm⟩

theorem Conserved.leave :
    ∃ heads extracted, state.heads queue = some heads ∧
      state.queueExtract queue heads thread = some extracted ∧
      (extracted.threadWaitRestoreDefault thread).Conserved ∧
      (∀ token, (extracted.threadWaitRestoreDefault thread).lending.Has token ↔
        state.lending.Has token) ∧
      (extracted.threadWaitRestoreDefault thread).waiters =
        update state.waiters queue ((state.waiters queue).erase thread) := by
  obtain ⟨heads, free, rest, used, chain, count⟩ := conserved.used waits
  have member := (conserved.waiting thread queue).mpr waits
  have erased := List.length_erase_of_mem member
  have top : state.lending.pile queue = free :: rest :=
    (read_of_heads ThreadQueueHeads.freeChain used).trans chain
  have none : state.lending.spare thread = none := by
    refine Option.not_isSome_iff_eq_none.mp fun isSome => ?_
    exact nomatch waits.symm.trans ((conserved.spare thread).mp isSome)
  have last : rest = [] → (state.waiters queue).erase thread = [] := by
    rintro rfl
    refine List.eq_nil_of_length_eq_zero ?_
    rw [erased, count]
    rfl
  obtain ⟨headsOf, written, extracts, writes, freeChain, contributors⟩ :=
    conserved.queueExtract used chain last
  have takes : (state.write heads headsOf written
      (update state.spareHeads thread (some free))).lending =
        state.lending.take thread queue free rest := by
    have piles := writes.pile (update state.spareHeads thread (some free))
    rw [freeChain] at piles
    exact congrArg (Lending.mk _) piles
  have hasIff : ∀ token, (state.lending.take thread queue free rest).Has token ↔
      state.lending.Has token := fun token => Lending.has_take conserved.distinct none top
  have distinct := conserved.distinct.take none top
  rw [← takes] at distinct hasIff
  have waiters := writes.waiters (update state.spareHeads thread (some free))
  rw [contributors] at waiters
  have lent := writes.lent conserved.toLent distinct fun token => (hasIff token).mp
  refine ⟨heads, _, used, extracts,
    { toLent := ⟨lent.distinct, lent.base, lent.clean⟩
      count := fun other => ?_
      spare := fun other => ?_
      waiting := fun other place => ?_
      ordered := fun other => ?_
      past := fun other waits => ?_ }, hasIff, waiters⟩
  · refine (congrArg List.length (congrFun (congrArg Lending.pile takes) other)).trans
      (Eq.trans ?_ (congrArg List.length (congrFun waiters other)).symm)
    rcases eq_or_ne other queue with rfl | different
    · have pile : (state.lending.take thread other free rest).pile other = rest :=
        update_self ..
      rw [update_self, pile, erased, count]
      rfl
    · have pile : (state.lending.take thread queue free rest).pile other =
          state.lending.pile other := update_of_ne different ..
      rw [update_of_ne different, pile]
      exact conserved.count other
  · show (update state.spareHeads thread (some free) other).isSome ↔
      update state.waitQueue thread Option.none other = Option.none
    rcases eq_or_ne other thread with rfl | different
    · rw [update_self, update_self]
      exact iff_of_true rfl rfl
    · rw [update_of_ne different, update_of_ne different]
      exact conserved.spare other
  · refine (Iff.of_eq (congrArg (other ∈ ·) (congrFun waiters place))).trans ?_
    show _ ↔ update state.waitQueue thread Option.none other = some place
    have before := conserved.waiting other place
    rcases eq_or_ne place queue with rfl | elsewhere
    · rw [update_self, (conserved.nodup place).mem_erase_iff, before]
      rcases eq_or_ne other thread with rfl | different
      · rw [update_self]
        exact iff_of_false (fun given => given.1 rfl) nofun
      · rw [update_of_ne different]
        exact and_iff_right different
    · rw [update_of_ne elsewhere, before]
      rcases eq_or_ne other thread with rfl | different
      · rw [update_self, waits]
        exact iff_of_false (fun same => elsewhere (Option.some.inj same).symm) nofun
      · rw [update_of_ne different]
  · refine (congrArg (List.Pairwise (state.Before other)) (congrFun waiters other)).mpr ?_
    rcases eq_or_ne other queue with rfl | elsewhere
    · rw [update_self]
      exact (conserved.ordered other).sublist List.erase_sublist
    · rw [update_of_ne elsewhere]
      exact conserved.ordered other
  · refine conserved.past other fun isNone => waits ?_
    show update state.waitQueue thread Option.none other = Option.none
    rcases eq_or_ne other thread with rfl | different
    · exact update_self ..
    · rw [update_of_ne different]
      exact isNone

theorem Conserved.threadQueueExtract :
    ∃ after, state.threadQueueExtract queue thread = some after ∧ after.Conserved ∧
      (∀ token, after.lending.Has token ↔ state.lending.Has token) ∧
      after.waiters = update state.waiters queue ((state.waiters queue).erase thread) := by
  obtain ⟨heads, extracted, used, extracts, conservedAfter, hasIff, waiters⟩ :=
    conserved.leave waits
  refine ⟨_, ?_, conservedAfter, hasIff, waiters⟩
  simp only [HeadedQueues.threadQueueExtract, used, extracts, bind, Option.bind_some, pure]

end

omit [DecidableEq Thread] [DecidableEq Queue] in
theorem Conserved.first {heads : Nat} (used : state.heads queue = some heads) :
    ∃ first rest, state.first heads = some first ∧ state.waiters queue = first :: rest := by
  have inUse : state.waiters queue = (state.structures heads).waiting.contributors :=
    read_of_heads (fun heads => heads.waiting.contributors) used
  cases contributors : (state.structures heads).waiting.contributors with
  | nil =>
    have count := conserved.count queue
    have member := conserved.mem_pile used
    rw [inUse, contributors, List.length_nil] at count
    rw [List.eq_nil_of_length_eq_zero count] at member
    nomatch member
  | cons first rest =>
    refine ⟨first, rest, ?_, inUse.trans contributors⟩
    unfold HeadedQueues.first PriorityAggregation.getMinimumNode
    rw [contributors]
    rfl

theorem Conserved.threadQueueSurrender {heads : Nat} (used : state.heads queue = some heads) :
    ∃ first after, state.threadQueueSurrender queue = some (first, after) ∧ after.Conserved ∧
      (∀ token, after.lending.Has token ↔ state.lending.Has token) ∧
      state.waitQueue first = some queue ∧
      ∀ other, state.waitQueue other = some queue → other ≠ first →
        state.Before queue first other := by
  obtain ⟨first, rest, isFirst, inUse⟩ := conserved.first used
  have waits := (conserved.waiting first queue).mp (inUse ▸ List.mem_cons_self)
  obtain ⟨others, extracted, usedToo, extracts, conservedAfter, hasIff, -⟩ := conserved.leave waits
  cases Option.some.inj (used.symm.trans usedToo)
  refine ⟨first, _, ?_, conservedAfter, hasIff, waits, fun other waitsToo different => ?_⟩
  · simp only [HeadedQueues.threadQueueSurrender, used, isFirst, extracts, bind,
      Option.bind_some, pure]
  · have ordered := conserved.ordered queue
    have member := (conserved.waiting other queue).mpr waitsToo
    rw [inUse] at ordered member
    rcases List.mem_cons.mp member with same | behind
    · exact absurd same different
    · exact (List.pairwise_cons.mp ordered).1 other behind

theorem Conserved.flushLoop (filter : Nat → Thread → Bool) {fuel : Nat} (flushed : Nat)
    (enough : (state.waiters queue).length < fuel) :
    ∃ count after, HeadedQueues.flushLoop filter queue fuel flushed state = some (count, after) ∧
      after.Conserved ∧ ∀ token, after.lending.Has token ↔ state.lending.Has token := by
  induction fuel generalizing state flushed with
  | zero => exact absurd enough (Nat.not_lt_zero _)
  | succ fuel ih =>
    unfold HeadedQueues.flushLoop
    cases used : state.heads queue with
    | none => exact ⟨flushed, state, rfl, conserved, fun _ => Iff.rfl⟩
    | some heads =>
      obtain ⟨first, rest, isFirst, inUse⟩ := conserved.first used
      simp only [isFirst, Option.bind_some]
      split
      · have waits := (conserved.waiting first queue).mp (inUse ▸ List.mem_cons_self)
        obtain ⟨middle, extracts, conservedMiddle, hasMiddle, waiters⟩ :=
          conserved.threadQueueExtract waits
        have fewer : (middle.waiters queue).length < fuel := by
          rw [waiters, update_self, inUse, List.erase_cons_head]
          rw [inUse, List.length_cons] at enough
          omega
        obtain ⟨count, after, flushes, conservedAfter, hasAfter⟩ := ih conservedMiddle (flushed + 1) fewer
        refine ⟨count, after, ?_, conservedAfter, fun token =>
          (hasAfter token).trans (hasMiddle token)⟩
        rw [extracts, Option.bind_some]
        exact flushes
      · exact ⟨flushed, state, rfl, conserved, fun _ => Iff.rfl⟩

omit [DecidableEq Queue] in
theorem Conserved.setPriority (ready : state.waitQueue thread = none) (priority : Nat) :
    Conserved { state with priority := update state.priority thread priority } := by
  have notWaiting : ∀ queue, thread ∉ state.waiters queue := by
    intro queue member
    exact nomatch ready.symm.trans ((conserved.waiting thread queue).mp member)
  exact
    { conserved with
      ordered := fun queue => by
        refine (conserved.ordered queue).imp_of_mem fun {left right} isLeft isRight before => ?_
        have leftSame : update state.priority thread priority left = state.priority left :=
          update_of_ne (fun same : left = thread => notWaiting queue (same ▸ isLeft)) ..
        have rightSame : update state.priority thread priority right = state.priority right :=
          update_of_ne (fun same : right = thread => notWaiting queue (same ▸ isRight)) ..
        unfold Before Precedes at before ⊢
        dsimp only
        rw [leftSame, rightSame]
        exact before }

end

end HeadedQueues

namespace HeadedCall

variable {Thread Queue : Type}

/-- The executing thread does not wait already, and the priority of a thread is set while it
does not wait. -/
def Promised (state : HeadedQueues Thread Queue) : HeadedCall Thread Queue → Prop
  | .enqueue _ thread => state.waitQueue thread = none
  | .setPriority thread _ => state.waitQueue thread = none
  | _ => True

def PromisedIn (state : Option (HeadedQueues Thread Queue)) (call : HeadedCall Thread Queue) :
    Prop :=
  ∀ before ∈ state, call.Promised before

end HeadedCall

namespace HeadedQueues

variable {Thread Queue : Type} [DecidableEq Thread] [DecidableEq Queue]
variable {state after : HeadedQueues Thread Queue} {call : HeadedCall Thread Queue}

theorem Conserved.perform (conserved : state.Conserved) (promised : call.Promised state) :
    ∃ after, state.perform call = some after ∧ after.Conserved ∧
      ∀ token, after.lending.Has token ↔ state.lending.Has token := by
  cases call with
  | enqueue queue thread => exact conserved.threadQueueEnqueue promised queue
  | cancel thread =>
    unfold HeadedQueues.perform threadWaitCancel
    cases waits : state.waitQueue thread with
    | none => exact ⟨state, by simp only [waits], conserved, fun _ => Iff.rfl⟩
    | some queue =>
      obtain ⟨after, extracts, conservedAfter, hasIff, -⟩ :=
        conserved.threadQueueExtract waits
      exact ⟨after, by simp only [waits, extracts], conservedAfter, hasIff⟩
  | surrender queue =>
    unfold HeadedQueues.perform
    cases used : state.heads queue with
    | none => exact ⟨state, by simp only [used, Option.isNone_none, if_true], conserved,
        fun _ => Iff.rfl⟩
    | some heads =>
      obtain ⟨first, after, surrenders, conservedAfter, hasIff, -⟩ :=
        conserved.threadQueueSurrender used
      refine ⟨after, ?_, conservedAfter, hasIff⟩
      simp only [used, surrenders, Option.isNone_some, Bool.false_eq_true, if_false,
        Option.map_some]
  | flush queue filter =>
    obtain ⟨count, after, flushes, conservedAfter, hasIff⟩ :=
      conserved.flushLoop filter 0 (Nat.lt_succ_self (state.waiters queue).length)
    refine ⟨after, ?_, conservedAfter, hasIff⟩
    unfold HeadedQueues.perform flushCritical
    simp only [flushes, Option.map_some]
  | setPriority thread priority =>
    exact ⟨_, rfl, conserved.setPriority promised priority, fun _ => Iff.rfl⟩

/-- What holds of the heads in every state; at first each thread has its own. -/
structure HeadsKept (ownHeads : Thread → Nat) (state : HeadedQueues Thread Queue) : Prop where
  /-- A queue has no heads exactly when no thread waits on it. -/
  empty : ∀ queue, state.heads queue = none ↔ ∀ thread, state.waitQueue thread ≠ some queue
  /-- The chain has as many different heads as threads wait. -/
  chain : ∀ queue heads, state.heads queue = some heads → ∃ waiting : List Thread,
    waiting.Nodup ∧ (∀ thread, thread ∈ waiting ↔ state.waitQueue thread = some queue) ∧
      (state.structures heads).freeChain.Nodup ∧
      (state.structures heads).freeChain.length = waiting.length
  /-- A thread has spare heads exactly when it does not wait, and they are its alone. -/
  spare : ∀ thread, state.waitQueue thread = none ↔ ∃ heads, state.spareHeads thread = some heads
  alone : ∀ first second heads, state.spareHeads first = some heads →
    state.spareHeads second = some heads → first = second
  /-- The heads in use have not been handed to a thread. -/
  used : ∀ queue heads thread, state.heads queue = some heads → state.spareHeads thread ≠ some heads
  /-- All heads are spare heads or on the chain of some queue. -/
  kept : ∀ heads, state.lending.Has heads ↔ ∃ thread, ownHeads thread = heads

omit [DecidableEq Thread] [DecidableEq Queue] in
theorem Conserved.headsKept {ownHeads : Thread → Nat} (conserved : state.Conserved)
    (kept : ∀ heads, state.lending.Has heads ↔ ∃ thread, ownHeads thread = heads) :
    state.HeadsKept ownHeads where
  empty queue := by
    constructor
    · intro unused thread waits
      obtain ⟨heads, -, -, used, -⟩ := conserved.used waits
      exact nomatch unused.symm.trans used
    · intro nobody
      refine Option.eq_none_iff_forall_ne_some.mpr fun heads used => ?_
      obtain ⟨first, rest, -, inUse⟩ := conserved.first used
      exact nobody first ((conserved.waiting first queue).mp (inUse ▸ List.mem_cons_self))
  chain queue heads used := by
    have pile : state.lending.pile queue = (state.structures heads).freeChain :=
      read_of_heads _ used
    refine ⟨state.waiters queue, conserved.nodup queue, fun thread => conserved.waiting thread queue,
      pile ▸ conserved.distinct.nodup queue, ?_⟩
    rw [← pile]
    exact conserved.count queue
  spare thread := (conserved.spare thread).symm.trans Option.isSome_iff_exists
  alone _ _ _ first second := conserved.distinct.spare first second
  used queue _ _ used has := conserved.spare_ne has queue used
  kept := kept

/-- A surrender of a queue on which threads wait returns the one that leaves before all others. -/
def SurrendersFirst (state : HeadedQueues Thread Queue) : HeadedCall Thread Queue → Prop
  | .surrender queue => (∃ thread, state.waitQueue thread = some queue) →
      ∃ first after, state.threadQueueSurrender queue = some (first, after) ∧
        state.waitQueue first = some queue ∧
        ∀ other, state.waitQueue other = some queue → other ≠ first → state.Before queue first other
  | _ => True

omit [DecidableEq Thread] [DecidableEq Queue] in
theorem initial_conserved {ownHeads : Thread → Nat} (own : Injective ownHeads)
    (waiting : Nat → PriorityAggregation Thread) (priority : Thread → Nat)
    (discipline : Queue → ThreadQueueDiscipline) :
    (initial ownHeads waiting priority discipline).Conserved := by
  refine
    { distinct := ⟨?_, fun _ => List.not_mem_nil, fun _ => List.nodup_nil, ?_⟩
      base := nofun
      clean := fun _ _ => rfl
      count := fun _ => rfl
      spare := fun _ => iff_of_true rfl rfl
      waiting := fun _ _ => iff_of_false List.not_mem_nil nofun
      ordered := fun _ => List.Pairwise.nil
      past := fun _ waits => absurd rfl waits }
  · intro first second token isFirst isSecond
    exact own ((Option.some.inj isFirst).trans (Option.some.inj isSecond).symm)
  · intro first second token member
    nomatch member

end HeadedQueues

/-- Over every run the heads are conserved, and every surrender returns the thread whose turn it
is. -/
theorem headedRun_conserved {Thread Queue : Type} [DecidableEq Thread] [DecidableEq Queue]
    {ownHeads : Thread → Nat} (own : Injective ownHeads)
    (waiting : Nat → PriorityAggregation Thread) (priority : Thread → Nat)
    (discipline : Queue → ThreadQueueDiscipline) (calls : List (HeadedCall Thread Queue))
    (promised : Meets HeadedQueues.step HeadedCall.PromisedIn
      (some (HeadedQueues.initial ownHeads waiting priority discipline)) calls) :
    Throughout HeadedQueues.step
        (fun reached => ∃ state, reached = some state ∧ state.HeadsKept ownHeads)
        (some (HeadedQueues.initial ownHeads waiting priority discipline)) calls ∧
      Meets HeadedQueues.step
        (fun reached call => ∀ state ∈ reached, state.SurrendersFirst call)
        (some (HeadedQueues.initial ownHeads waiting priority discipline)) calls := by
  let Reached (reached : Option (HeadedQueues Thread Queue)) : Prop :=
    ∃ state, reached = some state ∧ state.Conserved ∧
      ∀ heads, state.lending.Has heads ↔ ∃ thread, ownHeads thread = heads
  have start : Reached (some (HeadedQueues.initial ownHeads waiting priority discipline)) := by
    refine ⟨_, rfl, HeadedQueues.initial_conserved own waiting priority discipline, fun heads => ?_⟩
    constructor
    · rintro (⟨thread, has⟩ | ⟨queue, member⟩)
      · exact ⟨thread, Option.some.inj has⟩
      · nomatch member
    · rintro ⟨thread, rfl⟩
      exact .inl ⟨thread, rfl⟩
  have preserved : ∀ reached call, Reached reached → HeadedCall.PromisedIn reached call →
      Reached (HeadedQueues.step reached call) := by
    rintro reached call ⟨state, rfl, conserved, kept⟩ promised
    obtain ⟨after, performs, conservedAfter, hasIff⟩ := conserved.perform (promised state rfl)
    exact ⟨after, performs, conservedAfter, fun heads => (hasIff heads).trans (kept heads)⟩
  constructor
  · refine (throughout_of_preserved start preserved promised).imp ?_
    rintro reached ⟨state, rfl, conserved, kept⟩
    exact ⟨state, rfl, conserved.headsKept kept⟩
  · refine meets_of_preserved Reached start preserved ?_ promised
    rintro reached call ⟨state, rfl, conserved, kept⟩ - given same
    cases same
    unfold HeadedQueues.SurrendersFirst
    split
    · rintro ⟨thread, waits⟩
      obtain ⟨heads, -, -, used, -⟩ := conserved.used waits
      obtain ⟨first, after, surrenders, -, -, waitsFirst, turn⟩ :=
        conserved.threadQueueSurrender used
      exact ⟨first, after, surrenders, waitsFirst, turn⟩
    · trivial

/-- Two threads wait on a priority queue, and the one that has come first times out. -/
theorem headedRun_timeout :
    let start : HeadedQueues Nat Nat :=
      .initial (fun thread => thread + 100) (fun _ => ⟨0, []⟩) (fun thread => 10 - thread)
        fun _ => .priority
    let calls := [.enqueue 0 1, .enqueue 0 2, .cancel 1, .surrender 0]
    Throughout HeadedQueues.step
        (fun reached => ∃ state, reached = some state ∧ state.HeadsKept fun thread => thread + 100)
        (some start) calls ∧
      Meets HeadedQueues.step
        (fun reached call => ∀ state ∈ reached, state.SurrendersFirst call) (some start) calls := by
  refine headedRun_conserved (fun first second same => Nat.add_right_cancel same) _ _ _ _ ?_
  refine ⟨?_, ?_, ?_, ?_, trivial⟩
  · intro state same
    cases Option.some.inj same
    rfl
  · intro state same
    cases Option.some.inj same
    rfl
  · exact fun _ _ => trivial
  · exact fun _ _ => trivial

end RTContainer.Score
