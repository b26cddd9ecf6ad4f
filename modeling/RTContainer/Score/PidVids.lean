import Mathlib.Algebra.Order.BigOperators.Group.Finset
import Mathlib.Order.Interval.Finset.Nat
import RTContainer.Score.PidSystemProperties

/-! The VIDs of a PID container in any state, also one in which a list node
could not be allocated or a thread was added twice. The VIDs given out so far
split into the used slots and the recycled ones, and no thread is on the list
more often than it has slots; so the list never outgrows the VIDs in use. -/

set_option autoImplicit false

namespace RTContainer.Score

open Function

variable {Thread : Type}

namespace PidContainer

/-- The VIDs `1..pidCount` split into the used slots and the ascending list of
recycled VIDs; all other slots are blank. -/
structure Numbered (container : PidContainer Thread) : Prop where
  count_lt : container.pidCount < rtemsMaxProcessLimit
  free_sorted : container.freeVidList.Pairwise (· < ·)
  covered : ∀ vid, 1 ≤ vid ∧ vid ≤ container.pidCount ↔
    container.Used vid ∨ vid ∈ container.freeVidList
  disjoint : ∀ vid, container.Used vid → vid ∉ container.freeVidList
  blank : ∀ vid, ¬ container.Used vid → container.pidArray vid = ⟨0, 0⟩

variable {container : PidContainer Thread}

theorem Valid.numbered {objectId : Thread → ObjectsId} (valid : container.Valid objectId) :
    container.Numbered :=
  ⟨valid.count_lt, valid.free_sorted, valid.covered, valid.disjoint, valid.blank⟩

def slots (container : PidContainer Thread) (id : ObjectsId) : Finset Nat :=
  (Finset.range rtemsMaxProcessLimit).filter fun vid => (container.pidArray vid).id = id

theorem mem_slots {id : ObjectsId} {vid : Nat} :
    vid ∈ container.slots id ↔ vid < rtemsMaxProcessLimit ∧ (container.pidArray vid).id = id := by
  simp [slots]

section Numbered

variable {container : PidContainer Thread}

section

variable (numbered : container.Numbered)
include numbered

theorem Numbered.congr {other : PidContainer Thread} (count : other.pidCount = container.pidCount)
    (free : other.freeVidList = container.freeVidList)
    (array : other.pidArray = container.pidArray) :
    other.Numbered := by
  constructor
  · rw [count]
    exact numbered.count_lt
  · rw [free]
    exact numbered.free_sorted
  · simp only [Used, count, free, array]
    exact numbered.covered
  · simp only [Used, free, array]
    exact numbered.disjoint
  · simp only [Used, array]
    exact numbered.blank

variable {vid : Nat} {id : ObjectsId}

theorem Numbered.used_le (used : container.Used vid) : vid ≤ container.pidCount :=
  ((numbered.covered vid).mpr (.inl used)).2

theorem Numbered.used_of_id (named : (container.pidArray vid).id ≠ 0) : container.Used vid := by
  by_contra unused
  rw [numbered.blank vid unused] at named
  exact named rfl

/-- A container gives out its least free VID. -/
theorem Numbered.takeVid_least :
    IsLeast {vid | 1 ≤ vid ∧ ¬ container.Used vid} container.takeVid.1 := by
  have covered := numbered.covered
  cases free : container.freeVidList with
  | nil =>
    simp only [free, List.not_mem_nil, or_false] at covered
    simp only [takeVid, free]
    refine ⟨⟨by omega, ?_⟩, ?_⟩
    · intro used
      have := (covered _).mpr used
      omega
    · rintro vid ⟨positive, unused⟩
      by_contra below
      exact unused ((covered vid).mp ⟨positive, by omega⟩)
  | cons first rest =>
    have sorted := numbered.free_sorted
    rw [free] at sorted
    obtain ⟨above, -⟩ := List.pairwise_cons.mp sorted
    have member : first ∈ container.freeVidList := by rw [free]; exact List.mem_cons_self
    have bounds := (covered first).mpr (.inr member)
    simp only [takeVid, free]
    refine ⟨⟨bounds.1, fun used => numbered.disjoint first used member⟩, ?_⟩
    rintro vid ⟨positive, unused⟩
    by_contra below
    have inside : vid ≤ container.pidCount := by omega
    rcases (covered vid).mp ⟨positive, inside⟩ with used | recycled
    · exact unused used
    · rw [free] at recycled
      rcases List.mem_cons.mp recycled with rfl | later
      · exact below (Nat.le_refl _)
      · exact below (Nat.le_of_lt (above vid later))

theorem Numbered.takeVid_unused : ¬ container.Used container.takeVid.1 :=
  numbered.takeVid_least.1.2

theorem Numbered.takeVid_lt
    (room : container.freeVidList ≠ [] ∨ container.pidCount < rtemsMaxProcessLimit - 1) :
    container.takeVid.1 < rtemsMaxProcessLimit := by
  have limit : rtemsMaxProcessLimit = 1024 := rfl
  have countLt := numbered.count_lt
  cases free : container.freeVidList with
  | nil =>
    have below := room.resolve_left (not_not.mpr free)
    simp only [takeVid, free]
    omega
  | cons first rest =>
    have bounds := (numbered.covered first).mpr (.inr (by rw [free]; exact List.mem_cons_self))
    simp only [takeVid, free]
    omega

theorem Numbered.fill
    (room : container.freeVidList ≠ [] ∨ container.pidCount < rtemsMaxProcessLimit - 1) :
    (container.takeVid.2.setSlot container.takeVid.1 ⟨container.takeVid.1, id⟩).Numbered := by
  have limit : rtemsMaxProcessLimit = 1024 := rfl
  have positive : 1 ≤ container.takeVid.1 := numbered.takeVid_least.1.1
  have below := numbered.takeVid_lt room
  have usedIff : ∀ other, (container.takeVid.2.setSlot container.takeVid.1
      ⟨container.takeVid.1, id⟩).Used other ↔
        container.Used other ∨ other = container.takeVid.1 := by
    intro other
    by_cases same : other = container.takeVid.1
    · simp [Used, setSlot, same, positive]
    · simp [Used, setSlot, same]
  have blank : ∀ other, ¬ (container.takeVid.2.setSlot container.takeVid.1
      ⟨container.takeVid.1, id⟩).Used other →
        (container.takeVid.2.setSlot container.takeVid.1
          ⟨container.takeVid.1, id⟩).pidArray other = ⟨0, 0⟩ := by
    intro other unused
    have different : other ≠ container.takeVid.1 :=
      fun same => unused ((usedIff other).mpr (.inr same))
    simp only [setSlot, update_of_ne different, takeVid_pidArray]
    exact numbered.blank other fun used => unused ((usedIff other).mpr (.inl used))
  have sorted := numbered.free_sorted
  have countLt := numbered.count_lt
  have covered := numbered.covered
  cases free : container.freeVidList with
  | nil =>
    have spare := room.resolve_left (not_not.mpr free)
    have taken : container.takeVid =
        (container.pidCount + 1, { container with pidCount := container.pidCount + 1 }) := by
      simp [takeVid, free]
    simp only [free, List.not_mem_nil, or_false] at covered
    refine ⟨?_, ?_, ?_, ?_, blank⟩
    · simp only [taken, setSlot]
      omega
    · simp [taken, setSlot, free]
    · intro other
      rw [usedIff, ← covered other]
      simp only [taken, setSlot, free, List.not_mem_nil, or_false]
      omega
    · simp [taken, setSlot, free]
  | cons first rest =>
    have taken : container.takeVid = (first, { container with freeVidList := rest }) := by
      simp [takeVid, free]
    rw [free] at sorted
    obtain ⟨above, restSorted⟩ := List.pairwise_cons.mp sorted
    refine ⟨?_, ?_, ?_, ?_, blank⟩
    · simp only [taken, setSlot]
      exact countLt
    · simp only [taken, setSlot]
      exact restSorted
    · intro other
      rw [usedIff]
      simp only [taken, setSlot]
      rw [covered other, free, List.mem_cons]
      tauto
    · intro other used member
      simp only [taken, setSlot] at member
      rcases (usedIff other).mp used with used | same
      · exact numbered.disjoint other used (by rw [free]; exact .tail _ member)
      · rw [same, taken] at member
        exact Nat.lt_irrefl _ (above first member)

theorem Numbered.release {vid : Nat} (used : container.Used vid) :
    (container.releaseSlot vid vid).Numbered := by
  have positive : 1 ≤ vid := used.1
  have usedIff : ∀ other, (container.releaseSlot vid vid).Used other ↔
      container.Used other ∧ other ≠ vid := by
    intro other
    by_cases same : other = vid
    · simp only [Used, releaseSlot, setSlot, same, update_self]
      omega
    · simp [Used, releaseSlot, setSlot, same]
  have freeIff : ∀ other, other ∈ (container.releaseSlot vid vid).freeVidList ↔
      other = vid ∨ other ∈ container.freeVidList := fun other => mem_insertFreeVid
  constructor
  · exact numbered.count_lt
  · exact insertFreeVid_sorted numbered.free_sorted (numbered.disjoint vid used)
  · intro other
    change 1 ≤ other ∧ other ≤ container.pidCount ↔ _
    rw [numbered.covered other, usedIff, freeIff]
    by_cases same : other = vid
    · simp [same, used]
    · simp [same]
  · intro other otherUsed member
    obtain ⟨stillUsed, different⟩ := (usedIff other).mp otherUsed
    rcases (freeIff other).mp member with same | free
    · exact different same
    · exact numbered.disjoint other stillUsed free
  · intro other unused
    by_cases same : other = vid
    · simp [releaseSlot, setSlot, same]
    · simp only [releaseSlot, setSlot, update_of_ne same]
      exact numbered.blank other fun stillUsed => unused ((usedIff other).mpr ⟨stillUsed, same⟩)

theorem Numbered.slots_fill {other : ObjectsId}
    (room : container.freeVidList ≠ [] ∨ container.pidCount < rtemsMaxProcessLimit - 1)
    (nonzero : other ≠ 0) :
    (container.takeVid.2.setSlot container.takeVid.1 ⟨container.takeVid.1, id⟩).slots other =
      if other = id then insert container.takeVid.1 (container.slots other)
      else container.slots other := by
  have blank := numbered.blank _ numbered.takeVid_unused
  have below := numbered.takeVid_lt room
  have apart : ¬ 0#32 = other := fun same => nonzero same.symm
  ext vid
  by_cases same : vid = container.takeVid.1
  · subst vid
    by_cases named : other = id
    · simp [mem_slots, setSlot, below, named]
    · have unnamed : ¬ id = other := fun reversed => named reversed.symm
      simp [mem_slots, setSlot, blank, named, unnamed, apart]
  · by_cases named : other = id
    · simp [mem_slots, setSlot, same, named]
    · simp [mem_slots, setSlot, same, named]

theorem Numbered.takeVid_not_mem_slots (nonzero : id ≠ 0) :
    container.takeVid.1 ∉ container.slots id := by
  intro member
  have named := (mem_slots.mp member).2
  exact numbered.takeVid_unused (numbered.used_of_id (named ▸ nonzero))

end

private theorem slots_release {vid : Nat} {id : ObjectsId} (nonzero : id ≠ 0) :
    (container.releaseSlot vid vid).slots id = (container.slots id).erase vid := by
  have apart : ¬ 0#32 = id := fun same => nonzero same.symm
  ext other
  by_cases same : other = vid
  · simp [mem_slots, releaseSlot, setSlot, same, apart]
  · simp [mem_slots, releaseSlot, setSlot, same]

end Numbered

section Tallied

variable [DecidableEq Thread] {objectId : Thread → ObjectsId} {container : PidContainer Thread}

structure Tallied (objectId : Thread → ObjectsId) (container : PidContainer Thread) : Prop where
  numbered : container.Numbered
  tally : ∀ thread, container.threadList.count thread ≤ (container.slots (objectId thread)).card

theorem initial_tallied (objectId : Thread → ObjectsId) (containerID : Int) :
    (initial containerID : PidContainer Thread).Tallied objectId :=
  ⟨(initial_valid objectId containerID).numbered, fun _ => Nat.zero_le _⟩

theorem Tallied.congr {other : PidContainer Thread} (tallied : container.Tallied objectId)
    (count : other.pidCount = container.pidCount)
    (free : other.freeVidList = container.freeVidList)
    (array : other.pidArray = container.pidArray)
    (threads : other.threadList = container.threadList) : other.Tallied objectId := by
  refine ⟨tallied.numbered.congr count free array, ?_⟩
  intro thread
  have tally := tallied.tally thread
  rw [threads]
  simpa only [slots, array] using tally

theorem Tallied.fill {filled : PidContainer Thread} (thread : Thread)
    (nonzero : ∀ thread, objectId thread ≠ 0) (tallied : container.Tallied objectId)
    (room : container.freeVidList ≠ [] ∨ container.pidCount < rtemsMaxProcessLimit - 1)
    (count : filled.pidCount = container.takeVid.2.pidCount)
    (free : filled.freeVidList = container.takeVid.2.freeVidList)
    (array : filled.pidArray = update container.pidArray container.takeVid.1
      ⟨container.takeVid.1, objectId thread⟩)
    (threads : filled.threadList = container.threadList ∨
      filled.threadList = thread :: container.threadList) : filled.Tallied objectId := by
  have numbered := tallied.numbered
  have arrayEq : filled.pidArray = (container.takeVid.2.setSlot container.takeVid.1
      ⟨container.takeVid.1, objectId thread⟩).pidArray := by
    rw [array, setSlot, takeVid_pidArray]
  refine ⟨(numbered.fill room).congr count free arrayEq, ?_⟩
  intro other
  have tally := tallied.tally other
  have slotsEq : filled.slots (objectId other) =
      if objectId other = objectId thread then
        insert container.takeVid.1 (container.slots (objectId other))
      else container.slots (objectId other) := by
    rw [← numbered.slots_fill room (nonzero other)]
    simp only [slots, arrayEq]
  have grown : (container.slots (objectId other)).card ≤ (filled.slots (objectId other)).card := by
    rw [slotsEq]
    split
    · exact Finset.card_le_card (Finset.subset_insert ..)
    · exact Nat.le_refl _
  rcases threads with threads | threads
  · rw [threads]
    omega
  · rw [threads, List.count_cons]
    split
    next same =>
      have same : thread = other := by simpa using same
      subst other
      rw [slotsEq, if_pos rfl,
        Finset.card_insert_of_notMem (numbered.takeVid_not_mem_slots (nonzero thread))]
      omega
    next => omega

variable {thread : Thread} {malloc : Bool}

omit [DecidableEq Thread] in
theorem addTask_admitted (room : container.pidCount < rtemsMaxProcessLimit - 1) :
    container.addTask objectId thread malloc =
      { container.takeVid.2.setSlot container.takeVid.1
          ⟨container.takeVid.1, objectId thread⟩ with
        rc := container.rc + 1
        threadList :=
          if malloc then thread :: container.threadList else container.threadList } := by
  cases malloc <;> simp [addTask, Nat.not_le.mpr room, setSlot]

section

variable (tallied : container.Tallied objectId)
include tallied

theorem Tallied.addTask (nonzero : ∀ thread, objectId thread ≠ 0) :
    (container.addTask objectId thread malloc).Tallied objectId := by
  by_cases room : container.pidCount < rtemsMaxProcessLimit - 1
  · rw [addTask_admitted room]
    refine tallied.fill thread nonzero (.inr room) rfl rfl ?_ ?_
    · simp [setSlot]
    · cases malloc <;> simp
  · rw [addTask_refused (Nat.not_lt.mp room)]
    exact tallied

theorem joinDest_tallied (nonzero : ∀ thread, objectId thread ≠ 0)
    (room : container.freeVidList ≠ [] ∨ container.pidCount < rtemsMaxProcessLimit - 1) :
    (PidSystem.joinDest objectId container.takeVid.2 thread container.takeVid.1).Tallied
      objectId := by
  refine tallied.fill thread nonzero room rfl rfl ?_ (.inr ?_)
  · simp [PidSystem.joinDest, setSlot]
  · simp [PidSystem.joinDest, setSlot]

theorem leaveSource_tallied {vid : Nat} (injective : Injective objectId)
    (nonzero : ∀ thread, objectId thread ≠ 0)
    (named : (container.pidArray vid).id = objectId thread) :
    (PidSystem.leaveSource container thread vid).Tallied objectId := by
  have limit : rtemsMaxProcessLimit = 1024 := rfl
  have numbered := tallied.numbered
  have used := numbered.used_of_id (named ▸ nonzero thread)
  have below := numbered.used_le used
  have countLt := numbered.count_lt
  refine ⟨(numbered.release used).congr rfl rfl rfl, ?_⟩
  intro other
  have tally := tallied.tally other
  have slotsEq : (PidSystem.leaveSource container thread vid).slots (objectId other) =
      (container.slots (objectId other)).erase vid := slots_release (nonzero other)
  rw [slotsEq]
  change (container.threadList.erase thread).count other ≤ _
  by_cases same : other = thread
  · subst other
    have member : vid ∈ container.slots (objectId thread) := mem_slots.mpr ⟨by omega, named⟩
    rw [List.count_erase_self, Finset.card_erase_of_mem member]
    omega
  · have away : vid ∉ container.slots (objectId other) := by
      intro member
      exact same (injective ((mem_slots.mp member).2.symm.trans named))
    rw [List.count_erase_of_ne same, Finset.erase_eq_of_notMem away]
    exact tally

theorem Tallied.not_mem_of_no_slot
    (none : ∀ vid, vid < rtemsMaxProcessLimit →
      (container.pidArray vid).id ≠ objectId thread) : thread ∉ container.threadList := by
  have empty : container.slots (objectId thread) = ∅ := by
    ext vid
    simp only [mem_slots, Finset.notMem_empty, iff_false]
    rintro ⟨below, named⟩
    exact none vid below named
  have tally := tallied.tally thread
  rw [empty, Finset.card_empty] at tally
  exact List.count_eq_zero.mp (Nat.le_zero.mp tally)

theorem Tallied.slotOf_isSome
    (listed : thread ∈ container.threadList) : (container.slotOf (objectId thread)).isSome := by
  cases found : container.slotOf (objectId thread) with
  | some vid => rfl
  | none =>
    refine absurd listed (tallied.not_mem_of_no_slot fun vid below named => ?_)
    exact List.find?_eq_none.mp found vid (List.mem_range.mpr below) (decide_eq_true named)

theorem Tallied.removeTask {left : PidContainer Thread} (injective : Injective objectId)
    (nonzero : ∀ thread, objectId thread ≠ 0)
    (removed : container.removeTask objectId thread malloc = some left) :
    left.Tallied objectId := by
  by_cases exhausted : container.rc ≤ 0
  · simp [PidContainer.removeTask, exhausted] at removed
  simp only [PidContainer.removeTask, exhausted, ↓reduceIte] at removed
  split at removed
  next index found =>
    have named : (container.pidArray index).id = objectId thread := by
      simpa using List.find?_some found
    have used := tallied.numbered.used_of_id (named ▸ nonzero thread)
    cases malloc with
    | false => simp at removed
    | true =>
      simp only [↓reduceIte, used.2, Option.some.injEq] at removed
      rw [← removed]
      exact (leaveSource_tallied tallied injective nonzero named).congr rfl rfl rfl rfl
  next missed =>
    have absent : thread ∉ container.threadList := by
      refine tallied.not_mem_of_no_slot fun vid below named => ?_
      have passed := List.find?_eq_none.mp missed vid (List.mem_range.mpr below)
      exact passed (decide_eq_true named)
    simp only [Option.some.injEq, List.erase_of_not_mem absent] at removed
    rw [← removed]
    exact tallied.congr rfl rfl rfl rfl

theorem Tallied.usedSlotOf_isSome (nonzero : ∀ thread, objectId thread ≠ 0)
    (listed : thread ∈ container.threadList) :
    (container.usedSlotOf (objectId thread)).isSome := by
  have limit : rtemsMaxProcessLimit = 1024 := rfl
  cases found : container.usedSlotOf (objectId thread) with
  | some vid => rfl
  | none =>
    refine absurd listed (tallied.not_mem_of_no_slot fun vid below named => ?_)
    have used := tallied.numbered.used_of_id (named ▸ nonzero thread)
    have positive : 1 ≤ vid := used.1
    have member : vid ∈ List.range' 1 (rtemsMaxProcessLimit - 1) := by
      rw [List.mem_range'_1]
      omega
    have filled : (container.pidArray vid).vid ≠ 0 := by
      rw [used.2]
      omega
    exact List.find?_eq_none.mp found vid member (decide_eq_true ⟨named, filled⟩)

end

omit [DecidableEq Thread] in
theorem Numbered.card_used [DecidablePred container.Used] (numbered : container.Numbered) :
    ((Finset.range rtemsMaxProcessLimit).filter container.Used).card +
      container.freeVidList.length = container.pidCount := by
  have limit : rtemsMaxProcessLimit = 1024 := rfl
  have countLt := numbered.count_lt
  have recycled : container.freeVidList.toFinset.card = container.freeVidList.length :=
    List.toFinset_card_of_nodup (numbered.free_sorted.imp Nat.ne_of_lt)
  have apart : Disjoint ((Finset.range rtemsMaxProcessLimit).filter container.Used)
      container.freeVidList.toFinset := by
    refine Finset.disjoint_left.mpr fun vid used free => ?_
    exact numbered.disjoint vid (Finset.mem_filter.mp used).2 (List.mem_toFinset.mp free)
  have whole : (Finset.range rtemsMaxProcessLimit).filter container.Used ∪
      container.freeVidList.toFinset = Finset.Icc 1 container.pidCount := by
    ext vid
    have covered := numbered.covered vid
    simp only [Finset.mem_union, Finset.mem_filter, Finset.mem_range, List.mem_toFinset,
      Finset.mem_Icc]
    constructor
    · rintro (⟨-, used⟩ | free)
      · exact covered.mpr (.inl used)
      · exact covered.mpr (.inr free)
    · rintro ⟨positive, below⟩
      rcases covered.mp ⟨positive, below⟩ with used | free
      · exact .inl ⟨by omega, used⟩
      · exact .inr free
  rw [← recycled, ← Finset.card_union_of_disjoint apart, whole, Nat.card_Icc]
  omega

/-- The members and the free VIDs share the VIDs given out. -/
theorem Tallied.length_le (injective : Injective objectId)
    (nonzero : ∀ thread, objectId thread ≠ 0) (tallied : container.Tallied objectId) :
    container.threadList.length + container.freeVidList.length ≤ container.pidCount := by
  classical
  have numbered := tallied.numbered
  have apart : ((container.threadList.toFinset : Finset Thread) : Set Thread).PairwiseDisjoint
      fun thread => container.slots (objectId thread) := by
    intro left _ right _ different
    refine Finset.disjoint_left.mpr fun vid leftSlot rightSlot => different (injective ?_)
    exact (mem_slots.mp leftSlot).2.symm.trans (mem_slots.mp rightSlot).2
  have inside : container.threadList.toFinset.biUnion
      (fun thread => container.slots (objectId thread)) ⊆
        (Finset.range rtemsMaxProcessLimit).filter container.Used := by
    intro vid member
    obtain ⟨thread, -, slot⟩ := Finset.mem_biUnion.mp member
    obtain ⟨below, named⟩ := mem_slots.mp slot
    exact Finset.mem_filter.mpr ⟨Finset.mem_range.mpr below,
      numbered.used_of_id (named ▸ nonzero thread)⟩
  have counted : container.threadList.length ≤
      ((Finset.range rtemsMaxProcessLimit).filter container.Used).card := by
    calc container.threadList.length
        = ∑ thread ∈ container.threadList.toFinset, container.threadList.count thread :=
          (List.sum_toFinset_count_eq_length container.threadList).symm
      _ ≤ ∑ thread ∈ container.threadList.toFinset, (container.slots (objectId thread)).card :=
          Finset.sum_le_sum fun thread _ => tallied.tally thread
      _ = (container.threadList.toFinset.biUnion
            fun thread => container.slots (objectId thread)).card :=
          (Finset.card_biUnion apart).symm
      _ ≤ _ := Finset.card_le_card inside
  have total := numbered.card_used
  omega

end Tallied

end PidContainer

end RTContainer.Score
