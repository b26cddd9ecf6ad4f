import RTContainer.Score.PidContainer

/-! The representation invariant of a single PID container, and what joining,
leaving and re-homing do to it. -/

set_option autoImplicit false

namespace RTContainer.Score

open Function

variable {Thread : Type}

namespace PidContainer

/-- A VID in use: its slot holds the VID itself. Slot 0 is never given out. -/
def Used (container : PidContainer Thread) (vid : Nat) : Prop :=
  1 ≤ vid ∧ (container.pidArray vid).vid = vid

/-- The three records of the members agree. The VIDs `1..pidCount` split into
the used slots and the ascending list of recycled VIDs, and the used slots
correspond one-to-one to the thread list through the object identifiers. -/
structure Valid (objectId : Thread → ObjectsId) (container : PidContainer Thread) : Prop where
  count_lt : container.pidCount < rtemsMaxProcessLimit
  free_sorted : container.freeVidList.Pairwise (· < ·)
  covered : ∀ vid, 1 ≤ vid ∧ vid ≤ container.pidCount ↔
    container.Used vid ∨ vid ∈ container.freeVidList
  disjoint : ∀ vid, container.Used vid → vid ∉ container.freeVidList
  blank : ∀ vid, ¬ container.Used vid → container.pidArray vid = ⟨0, 0⟩
  threads_nodup : container.threadList.Nodup
  listed : ∀ vid, container.Used vid →
    ∃ thread ∈ container.threadList, objectId thread = (container.pidArray vid).id
  slotted : ∀ thread ∈ container.threadList,
    ∃ vid, container.Used vid ∧ (container.pidArray vid).id = objectId thread
  slot_unique : ∀ left right, container.Used left → container.Used right →
    (container.pidArray left).id = (container.pidArray right).id → left = right

theorem initial_valid (objectId : Thread → ObjectsId) (containerID : Int) :
    (initial containerID : PidContainer Thread).Valid objectId := by
  constructor <;> simp [initial, Used, rtemsMaxProcessLimit] <;> omega

private theorem insertFreeVid_eq (vid : Nat) (vids : List Nat) :
    insertFreeVid vid vids = vids.orderedInsert (· ≤ ·) vid := by
  induction vids with
  | nil => rfl
  | cons head rest ih =>
    by_cases below : head < vid
    · simp [insertFreeVid, below, ih, Nat.not_le.mpr below]
    · simp [insertFreeVid, below, Nat.not_lt.mp below]

variable {vid : Nat} {vids : List Nat}

theorem mem_insertFreeVid {other : Nat} :
    other ∈ insertFreeVid vid vids ↔ other = vid ∨ other ∈ vids := by
  rw [insertFreeVid_eq, List.mem_orderedInsert]

theorem insertFreeVid_sorted (sorted : vids.Pairwise (· < ·)) (fresh : vid ∉ vids) :
    (insertFreeVid vid vids).Pairwise (· < ·) := by
  induction vids with
  | nil => simp [insertFreeVid]
  | cons head rest ih =>
    obtain ⟨above, tailSorted⟩ := List.pairwise_cons.mp sorted
    by_cases below : head < vid
    · simp only [insertFreeVid, below, ↓reduceIte]
      refine List.pairwise_cons.mpr ⟨?_, ih tailSorted (fun member => fresh (.tail _ member))⟩
      intro other member
      rcases mem_insertFreeVid.mp member with rfl | member
      · exact below
      · exact above other member
    · simp only [insertFreeVid, below, ↓reduceIte]
      have different : vid ≠ head := fun same => fresh (same ▸ List.mem_cons_self)
      refine List.pairwise_cons.mpr ⟨?_, sorted⟩
      intro other member
      rcases List.mem_cons.mp member with rfl | member
      · omega
      · have := above other member
        omega

section Join

variable {objectId : Thread → ObjectsId} {container : PidContainer Thread}

@[simp] theorem takeVid_rc (container : PidContainer Thread) :
    container.takeVid.2.rc = container.rc := by
  unfold takeVid
  split <;> rfl

@[simp] theorem takeVid_pidArray (container : PidContainer Thread) :
    container.takeVid.2.pidArray = container.pidArray := by
  unfold takeVid
  split <;> rfl

@[simp] theorem takeVid_threadList (container : PidContainer Thread) :
    container.takeVid.2.threadList = container.threadList := by
  unfold takeVid
  split <;> rfl

/-- What `takeVid` promises: a VID that was not in use, removed from the free
ones. -/
structure TakenFrom (container taken : PidContainer Thread) (vid : Nat) : Prop where
  rc_eq : taken.rc = container.rc
  array_eq : taken.pidArray = container.pidArray
  threads_eq : taken.threadList = container.threadList
  count_lt : taken.pidCount < rtemsMaxProcessLimit
  unused : ¬ container.Used vid
  positive : 1 ≤ vid
  free_sorted : taken.freeVidList.Pairwise (· < ·)
  free_ne : vid ∉ taken.freeVidList
  free_subset : ∀ other ∈ taken.freeVidList, other ∈ container.freeVidList
  covered : ∀ other, 1 ≤ other ∧ other ≤ taken.pidCount ↔
    container.Used other ∨ other ∈ taken.freeVidList ∨ other = vid

/-- The VID that is taken was free. -/
theorem Valid.takeVid_spec (valid : container.Valid objectId)
    (room : container.freeVidList ≠ [] ∨ container.pidCount < rtemsMaxProcessLimit - 1) :
    TakenFrom container container.takeVid.2 container.takeVid.1 := by
  have countLt := valid.count_lt
  cases free : container.freeVidList with
  | nil =>
    have below : container.pidCount < rtemsMaxProcessLimit - 1 := by
      rcases room with nonempty | below
      · exact absurd free nonempty
      · exact below
    have limit : rtemsMaxProcessLimit = 1024 := rfl
    have covered := valid.covered
    simp only [free, List.not_mem_nil, or_false] at covered
    have unused : ¬ container.Used (container.pidCount + 1) := by
      intro used
      have := (covered _).mpr used
      omega
    simp only [takeVid, free]
    refine ⟨rfl, rfl, rfl, by simp only; omega, unused, by omega, ?_, ?_, ?_, ?_⟩
    · exact .nil
    · exact List.not_mem_nil
    · simp
    · intro other
      simp only [List.not_mem_nil, false_or, ← covered other]
      omega
  | cons vid rest =>
    have sorted := valid.free_sorted
    rw [free] at sorted
    obtain ⟨above, restSorted⟩ := List.pairwise_cons.mp sorted
    have member : vid ∈ container.freeVidList := by rw [free]; exact List.mem_cons_self
    simp only [takeVid, free]
    refine ⟨rfl, rfl, rfl, countLt, fun used => valid.disjoint vid used member,
      ((valid.covered vid).mpr (.inr member)).1, restSorted, ?_, ?_, ?_⟩
    · intro again
      exact Nat.lt_irrefl _ (above vid again)
    · intro other later
      rw [free]
      exact .tail _ later
    · intro other
      rw [valid.covered other, free, List.mem_cons]
      tauto

variable {thread : Thread} {malloc : Bool}

/-- A thread that joins gets an unused VID. -/
theorem joinDest_valid {taken : PidContainer Thread} {vid : Nat}
    (injective : Injective objectId) (valid : container.Valid objectId)
    (spec : TakenFrom container taken vid) (absent : thread ∉ container.threadList) :
    (PidSystem.joinDest objectId taken thread vid).Valid objectId := by
  have usedIff : ∀ other, (PidSystem.joinDest objectId taken thread vid).Used other ↔
      container.Used other ∨ other = vid := by
    intro other
    by_cases same : other = vid
    · subst other
      simp [PidSystem.joinDest, setSlot, Used, spec.positive]
    · simp [PidSystem.joinDest, setSlot, Used, same, spec.array_eq]
  have slotAt : ∀ other, other ≠ vid →
      (PidSystem.joinDest objectId taken thread vid).pidArray other = container.pidArray other := by
    intro other different
    simp [PidSystem.joinDest, setSlot, different, spec.array_eq]
  have slotNew : (PidSystem.joinDest objectId taken thread vid).pidArray vid =
      ⟨vid, objectId thread⟩ := by
    simp [PidSystem.joinDest, setSlot]
  have usedNe : ∀ other, container.Used other → other ≠ vid := by
    intro other used same
    exact spec.unused (same ▸ used)
  have idNe : ∀ other, container.Used other → (container.pidArray other).id ≠ objectId thread := by
    intro other used same
    obtain ⟨member, listed, named⟩ := valid.listed other used
    exact absent (injective (named.trans same) ▸ listed)
  have threads : (PidSystem.joinDest objectId taken thread vid).threadList =
      thread :: container.threadList := by
    simp [PidSystem.joinDest, setSlot, spec.threads_eq]
  have free : (PidSystem.joinDest objectId taken thread vid).freeVidList = taken.freeVidList := rfl
  have count : (PidSystem.joinDest objectId taken thread vid).pidCount = taken.pidCount := rfl
  constructor
  · rw [count]; exact spec.count_lt
  · rw [free]; exact spec.free_sorted
  · intro other
    rw [count, spec.covered other, usedIff, free]
    tauto
  · intro other used
    rw [free]
    rcases (usedIff other).mp used with used | rfl
    · exact fun member => valid.disjoint other used (spec.free_subset other member)
    · exact spec.free_ne
  · intro other unused
    have different : other ≠ vid := fun same => unused ((usedIff other).mpr (.inr same))
    rw [slotAt other different]
    exact valid.blank other fun used => unused ((usedIff other).mpr (.inl used))
  · rw [threads]
    exact List.nodup_cons.mpr ⟨absent, valid.threads_nodup⟩
  · intro other used
    rcases (usedIff other).mp used with used | rfl
    · obtain ⟨member, listed, named⟩ := valid.listed other used
      rw [slotAt other (usedNe other used), threads]
      exact ⟨member, .tail _ listed, named⟩
    · rw [slotNew, threads]
      exact ⟨thread, List.mem_cons_self, rfl⟩
  · intro member listed
    rw [threads] at listed
    rcases List.mem_cons.mp listed with rfl | listed
    · exact ⟨vid, (usedIff vid).mpr (.inr rfl), by rw [slotNew]⟩
    · obtain ⟨other, used, named⟩ := valid.slotted member listed
      exact ⟨other, (usedIff other).mpr (.inl used),
        by rw [slotAt other (usedNe other used)]; exact named⟩
  · intro left right leftUsed rightUsed same
    rcases (usedIff left).mp leftUsed with leftOld | leftNew
    · rw [slotAt left (usedNe left leftOld)] at same
      rcases (usedIff right).mp rightUsed with rightOld | rightNew
      · rw [slotAt right (usedNe right rightOld)] at same
        exact valid.slot_unique left right leftOld rightOld same
      · rw [rightNew, slotNew] at same
        exact absurd same (idNe left leftOld)
    · rcases (usedIff right).mp rightUsed with rightOld | rightNew
      · rw [leftNew, slotNew, slotAt right (usedNe right rightOld)] at same
        exact absurd same.symm (idNe right rightOld)
      · exact leftNew.trans rightNew.symm

theorem addTask_eq_joinDest (room : container.pidCount < rtemsMaxProcessLimit - 1) :
    container.addTask objectId thread true =
      PidSystem.joinDest objectId container.takeVid.2 thread container.takeVid.1 := by
  simp [addTask, PidSystem.joinDest, setSlot, Nat.not_le.mpr room]

theorem addTask_refused (full : rtemsMaxProcessLimit - 1 ≤ container.pidCount) :
    container.addTask objectId thread malloc = container := by
  simp [addTask, full]

theorem Valid.addTask (injective : Injective objectId) (valid : container.Valid objectId)
    (orderly : container.pidCount < rtemsMaxProcessLimit - 1 →
      malloc = true ∧ thread ∉ container.threadList) :
    (container.addTask objectId thread malloc).Valid objectId := by
  by_cases room : container.pidCount < rtemsMaxProcessLimit - 1
  · obtain ⟨rfl, absent⟩ := orderly room
    rw [addTask_eq_joinDest room]
    exact joinDest_valid injective valid (valid.takeVid_spec (.inr room)) absent
  · rw [addTask_refused (Nat.not_lt.mp room)]
    exact valid

end Join

section Leave

variable {objectId : Thread → ObjectsId} {container : PidContainer Thread}

variable {thread : Thread} {vid : Nat} {malloc : Bool} {left : PidContainer Thread}

section

variable (valid : container.Valid objectId)
include valid

theorem Valid.used_of_id (nonzero : ∀ thread, objectId thread ≠ 0)
    (named : (container.pidArray vid).id = objectId thread) :
    container.Used vid := by
  by_contra unused
  rw [valid.blank vid unused] at named
  exact nonzero thread named.symm

theorem Valid.used_bounds (used : container.Used vid) :
    1 ≤ vid ∧ vid < rtemsMaxProcessLimit := by
  have bounds := (valid.covered vid).mpr (.inl used)
  exact ⟨bounds.1, Nat.lt_of_le_of_lt bounds.2 valid.count_lt⟩

theorem Valid.mem_of_used (injective : Injective objectId)
    (used : container.Used vid)
    (named : (container.pidArray vid).id = objectId thread) : thread ∈ container.threadList := by
  obtain ⟨member, listed, same⟩ := valid.listed vid used
  exact injective (same.trans named) ▸ listed

theorem Valid.slotOf_eq (nonzero : ∀ thread, objectId thread ≠ 0)
    (used : container.Used vid) (named : (container.pidArray vid).id = objectId thread) :
    container.slotOf (objectId thread) = some vid := by
  cases found : container.slotOf (objectId thread) with
  | none =>
    have missed := List.find?_eq_none.mp found vid (List.mem_range.mpr (valid.used_bounds used).2)
    simp [named] at missed
  | some index =>
    have hit : (container.pidArray index).id = objectId thread := by
      simpa using List.find?_some found
    exact congrArg some (valid.slot_unique index vid (valid.used_of_id nonzero hit) used
      (hit.trans named.symm))

theorem Valid.slotOf_eq_none (injective : Injective objectId)
    (nonzero : ∀ thread, objectId thread ≠ 0)
    (absent : thread ∉ container.threadList) : container.slotOf (objectId thread) = none := by
  refine List.find?_eq_none.mpr ?_
  intro index _ hit
  have named : (container.pidArray index).id = objectId thread := by simpa using hit
  exact absent (valid.mem_of_used injective (valid.used_of_id nonzero named) named)

theorem Valid.usedSlotOf_eq
    (nonzero : ∀ thread, objectId thread ≠ 0) (used : container.Used vid)
    (named : (container.pidArray vid).id = objectId thread) :
    container.usedSlotOf (objectId thread) = some vid := by
  have bounds := valid.used_bounds used
  cases found : container.usedSlotOf (objectId thread) with
  | none =>
    have member : vid ∈ List.range' 1 (rtemsMaxProcessLimit - 1) := by
      rw [List.mem_range'_1]
      have limit : rtemsMaxProcessLimit = 1024 := rfl
      omega
    have missed := List.find?_eq_none.mp found vid member
    have filled : (container.pidArray vid).vid ≠ 0 := by
      rw [used.2]
      omega
    simp [named, filled] at missed
  | some index =>
    have hit := List.find?_some found
    simp only [decide_eq_true_eq] at hit
    exact congrArg some (valid.slot_unique index vid (valid.used_of_id nonzero hit.1) used
      (hit.1.trans named.symm))

theorem Valid.of_rc {rc : Int} :
    ({ container with rc := rc } : PidContainer Thread).Valid objectId :=
  ⟨valid.count_lt, valid.free_sorted, valid.covered, valid.disjoint, valid.blank,
    valid.threads_nodup, valid.listed, valid.slotted, valid.slot_unique⟩

end

variable [DecidableEq Thread]

section

variable (injective : Injective objectId)
include injective

/-- The VID of a thread that leaves can be used again. -/
theorem leaveSource_valid (valid : container.Valid objectId) (used : container.Used vid)
    (named : (container.pidArray vid).id = objectId thread) :
    (PidSystem.leaveSource container thread vid).Valid objectId := by
  have positive : 1 ≤ vid := used.1
  have slotAt : ∀ other, other ≠ vid →
      (PidSystem.leaveSource container thread vid).pidArray other = container.pidArray other := by
    intro other different
    simp [PidSystem.leaveSource, releaseSlot, setSlot, different]
  have slotOld : (PidSystem.leaveSource container thread vid).pidArray vid = ⟨0, 0⟩ := by
    simp [PidSystem.leaveSource, releaseSlot, setSlot]
  have usedIff : ∀ other, (PidSystem.leaveSource container thread vid).Used other ↔
      container.Used other ∧ other ≠ vid := by
    intro other
    by_cases same : other = vid
    · subst other
      simp only [Used, slotOld]
      omega
    · simp [Used, slotAt other same, same]
  have freeIff : ∀ other, other ∈ (PidSystem.leaveSource container thread vid).freeVidList ↔
      other = vid ∨ other ∈ container.freeVidList := fun other => mem_insertFreeVid
  have threadsIff : ∀ member,
      member ∈ (PidSystem.leaveSource container thread vid).threadList ↔
        member ≠ thread ∧ member ∈ container.threadList :=
    fun member => valid.threads_nodup.mem_erase_iff
  constructor
  · exact valid.count_lt
  · exact insertFreeVid_sorted valid.free_sorted (valid.disjoint vid used)
  · intro other
    have covered := valid.covered other
    change 1 ≤ other ∧ other ≤ container.pidCount ↔ _
    rw [covered, usedIff, freeIff]
    by_cases same : other = vid
    · simp [same, used]
    · simp [same]
  · intro other otherUsed member
    obtain ⟨stillUsed, different⟩ := (usedIff other).mp otherUsed
    rcases (freeIff other).mp member with same | free
    · exact different same
    · exact valid.disjoint other stillUsed free
  · intro other unused
    by_cases same : other = vid
    · rw [same, slotOld]
    · rw [slotAt other same]
      exact valid.blank other fun stillUsed => unused ((usedIff other).mpr ⟨stillUsed, same⟩)
  · exact valid.threads_nodup.erase thread
  · intro other otherUsed
    obtain ⟨stillUsed, different⟩ := (usedIff other).mp otherUsed
    obtain ⟨member, listed, memberNamed⟩ := valid.listed other stillUsed
    rw [slotAt other different]
    refine ⟨member, (threadsIff member).mpr ⟨?_, listed⟩, memberNamed⟩
    intro same
    subst member
    exact different (valid.slot_unique other vid stillUsed used (memberNamed.symm.trans named.symm))
  · intro member listed
    obtain ⟨different, stillListed⟩ := (threadsIff member).mp listed
    obtain ⟨other, stillUsed, memberNamed⟩ := valid.slotted member stillListed
    have away : other ≠ vid := by
      intro same
      subst other
      exact different (injective (memberNamed.symm.trans named))
    exact ⟨other, (usedIff other).mpr ⟨stillUsed, away⟩, by rw [slotAt other away, memberNamed]⟩
  · intro left right leftUsed rightUsed same
    obtain ⟨leftStill, leftNe⟩ := (usedIff left).mp leftUsed
    obtain ⟨rightStill, rightNe⟩ := (usedIff right).mp rightUsed
    rw [slotAt left leftNe, slotAt right rightNe] at same
    exact valid.slot_unique left right leftStill rightStill same

theorem Valid.removeTask_cases (nonzero : ∀ thread, objectId thread ≠ 0)
    (valid : container.Valid objectId)
    (removed : container.removeTask objectId thread malloc = some left) :
    0 < container.rc ∧
      ((thread ∈ container.threadList ∧ malloc = true ∧ ∃ vid, container.Used vid ∧
          (container.pidArray vid).id = objectId thread ∧
          left = PidSystem.leaveSource container thread vid) ∨
        (thread ∉ container.threadList ∧ left = { container with rc := container.rc - 1 })) := by
  by_cases exhausted : container.rc ≤ 0
  · simp [removeTask, exhausted] at removed
  · refine ⟨Int.not_le.mp exhausted, ?_⟩
    by_cases listed : thread ∈ container.threadList
    · obtain ⟨vid, used, named⟩ := valid.slotted thread listed
      have slot := valid.slotOf_eq nonzero used named
      cases malloc with
      | false => simp [removeTask, exhausted, slot] at removed
      | true =>
        refine .inl ⟨listed, rfl, vid, used, named, ?_⟩
        simp only [removeTask, exhausted, ↓reduceIte, slot, used.2, Option.some.injEq] at removed
        exact removed.symm
    · have slot := valid.slotOf_eq_none injective nonzero listed
      refine .inr ⟨listed, ?_⟩
      simp only [removeTask, exhausted, ↓reduceIte, slot, Option.some.injEq,
        List.erase_of_not_mem listed] at removed
      exact removed.symm

theorem Valid.removeTask (nonzero : ∀ thread, objectId thread ≠ 0)
    (valid : container.Valid objectId)
    (removed : container.removeTask objectId thread malloc = some left) : left.Valid objectId := by
  obtain ⟨-, ⟨-, -, vid, used, named, rfl⟩ | ⟨-, rfl⟩⟩ :=
    valid.removeTask_cases injective nonzero removed
  · exact leaveSource_valid injective valid used named
  · exact valid.of_rc

end

end Leave

section Move

variable [DecidableEq Thread]
variable {objectId : Thread → ObjectsId} {src dest : PidContainer Thread}

/-- The destination has a VID for one more member: a recycled one, or an unused
one together with the node that `rtems_pid_container_move_task` allocates. -/
def CanTake (dest : PidContainer Thread) (malloc : Bool) : Prop :=
  dest.freeVidList ≠ [] ∨ dest.pidCount < rtemsMaxProcessLimit - 1 ∧ malloc = true

variable {malloc : Bool}

omit [DecidableEq Thread] in
theorem CanTake.room (can : dest.CanTake malloc) :
    dest.freeVidList ≠ [] ∨ dest.pidCount < rtemsMaxProcessLimit - 1 :=
  can.imp_right And.left

omit [DecidableEq Thread] in
theorem moveVid_eq_some {taken : Nat × PidContainer Thread} :
    PidSystem.moveVid dest malloc = some taken ↔ dest.CanTake malloc ∧ taken = dest.takeVid := by
  cases free : dest.freeVidList with
  | nil =>
    by_cases full : dest.pidCount ≥ rtemsMaxProcessLimit - 1
    · simp [PidSystem.moveVid, CanTake, free, full, Nat.not_lt.mpr full]
    · cases malloc with
      | false => simp [PidSystem.moveVid, CanTake, free, full]
      | true => simp [PidSystem.moveVid, CanTake, free, full, Nat.not_le.mp full, eq_comm]
  | cons vid rest => simp [PidSystem.moveVid, CanTake, free, eq_comm]

theorem moveRecords_eq_some {thread : Thread} {moved : PidContainer Thread × PidContainer Thread}
    (nonzero : ∀ thread, objectId thread ≠ 0) (valid : src.Valid objectId) :
    PidSystem.moveRecords objectId src dest thread malloc = some moved ↔
      0 < src.rc ∧ thread ∈ src.threadList ∧ thread ∉ dest.threadList ∧ dest.CanTake malloc ∧
        ∃ vid, src.Used vid ∧ (src.pidArray vid).id = objectId thread ∧
          moved = (PidSystem.leaveSource src thread vid,
            PidSystem.joinDest objectId dest.takeVid.2 thread dest.takeVid.1) := by
  by_cases referenced : 0 < src.rc
  swap
  · simp [PidSystem.moveRecords, referenced, Int.not_lt.mp referenced]
  by_cases listed : thread ∈ src.threadList
  swap
  · simp [PidSystem.moveRecords, listed]
  obtain ⟨vid, used, named⟩ := valid.slotted thread listed
  have slot := valid.usedSlotOf_eq nonzero used named
  have unique : ∀ other, src.Used other → (src.pidArray other).id = objectId thread →
      other = vid := fun other otherUsed otherNamed =>
    valid.slot_unique other vid otherUsed used (otherNamed.trans named.symm)
  by_cases present : thread ∈ dest.threadList
  · simp [PidSystem.moveRecords, slot, listed, present]
  simp only [PidSystem.moveRecords, Int.not_le.mpr referenced, ↓reduceIte, listed,
    not_true_eq_false, slot, present, Option.map_eq_some_iff, moveVid_eq_some, referenced,
    not_false_eq_true, true_and]
  constructor
  · rintro ⟨taken, ⟨can, rfl⟩, rfl⟩
    exact ⟨can, vid, used, named, rfl⟩
  · rintro ⟨can, other, otherUsed, otherNamed, rfl⟩
    rw [unique other otherUsed otherNamed]
    exact ⟨dest.takeVid, ⟨can, rfl⟩, rfl⟩

end Move

end PidContainer

end RTContainer.Score
