import RTContainer.Score.PidCapacity

/-! What becomes of the members of a deleted PID container. They are added to
the root one by one, and `rtems_pid_container_add_task` refuses without telling
when the root has given out its last VID or a list node is not allocated. -/

set_option autoImplicit false

namespace RTContainer.Score

open Function

variable {Thread : Type} [DecidableEq Thread] {objectId : Thread → ObjectsId}

namespace PidContainer

/-- Each of the next `count` additions to the root is admitted and gets its
list node. -/
def AdmitsAll (root : PidContainer Thread) (malloc : Nat → Bool) (count : Nat) : Prop :=
  ∀ index, index < count →
    root.pidCount + (index - root.freeVidList.length) < rtemsMaxProcessLimit - 1 ∧
      malloc index = true

section AdmitsAll

variable {root : PidContainer Thread} {malloc : Nat → Bool} {thread : Thread} {count : Nat}

section

omit [DecidableEq Thread]

theorem AdmitsAll.nodesAllocated (admits : root.AdmitsAll malloc count) :
    root.NodesAllocated 0 malloc count :=
  fun index inside _ => (admits index inside).2

theorem admitsAll_succ :
    root.AdmitsAll malloc (count + 1) ↔
      (root.pidCount < rtemsMaxProcessLimit - 1 ∧ malloc 0 = true) ∧
        (root.addTask objectId thread (malloc 0)).AdmitsAll (fun index => malloc (index + 1))
          count := by
  by_cases room : root.pidCount < rtemsMaxProcessLimit - 1
  · have later : ∀ index,
        (root.addTask objectId thread (malloc 0)).pidCount +
            (index - (root.addTask objectId thread (malloc 0)).freeVidList.length) =
          root.pidCount + (index + 1 - root.freeVidList.length) := by
      intro index
      rw [addTask_admitted room]
      cases free : root.freeVidList with
      | nil =>
        simp only [takeVid, free, setSlot, List.length_nil]
        omega
      | cons vid rest =>
        simp only [takeVid, free, setSlot, List.length_cons]
        omega
    constructor
    · intro admits
      refine ⟨⟨room, (admits 0 (Nat.succ_pos count)).2⟩, fun index inside => ?_⟩
      rw [later]
      exact admits (index + 1) (Nat.succ_lt_succ inside)
    · rintro ⟨⟨-, allocated⟩, admits⟩ index inside
      cases index with
      | zero => exact ⟨by simpa using room, allocated⟩
      | succ index =>
        rw [← later]
        exact admits index (Nat.lt_of_succ_lt_succ inside)
  · constructor
    · intro admits
      exact absurd (by simpa using (admits 0 (Nat.succ_pos count)).1) room
    · rintro ⟨⟨below, -⟩, -⟩
      exact absurd below room

private theorem mem_addTask_self_iff (absent : thread ∉ root.threadList) {allocated : Bool} :
    thread ∈ (root.addTask objectId thread allocated).threadList ↔
      root.pidCount < rtemsMaxProcessLimit - 1 ∧ allocated = true := by
  by_cases room : root.pidCount < rtemsMaxProcessLimit - 1
  · rw [addTask_admitted room]
    cases allocated
    · simp [absent]
    · simp [room]
  · rw [addTask_refused (Nat.not_lt.mp room)]
    simp [absent, room]

theorem subset_rehomed_iff {members : List Thread} (nodup : members.Nodup)
    (apart : ∀ thread ∈ members, thread ∉ root.threadList) :
    members ⊆ (rehomed objectId malloc root members).threadList ↔
      root.AdmitsAll malloc members.length := by
  induction members generalizing malloc root with
  | nil => simp [AdmitsAll]
  | cons first rest ih =>
    obtain ⟨fresh, restNodup⟩ := List.nodup_cons.mp nodup
    have absent := apart first List.mem_cons_self
    have restApart : ∀ thread ∈ rest,
        thread ∉ (root.addTask objectId first (malloc 0)).threadList := by
      intro thread later listed
      rcases mem_addTask listed with rfl | listed
      · exact fresh later
      · exact apart thread (.tail _ later) listed
    have arrives : first ∈ (rehomed objectId malloc root (first :: rest)).threadList ↔
        root.pidCount < rtemsMaxProcessLimit - 1 ∧ malloc 0 = true := by
      rw [← @mem_addTask_self_iff _ objectId _ _ absent]
      change first ∈ (rehomed objectId _ (root.addTask objectId first (malloc 0)) rest).threadList
        ↔ _
      constructor
      · exact fun listed => (mem_rehomed listed).resolve_right fresh
      · exact fun listed => subset_rehomed listed
    rw [List.cons_subset, arrives, List.length_cons, admitsAll_succ]
    exact and_congr_right fun _ => ih restNodup restApart

end

end AdmitsAll

end PidContainer

namespace PidSystem

variable {system : PidSystem Thread}

structure LosesNone (objectId : Thread → ObjectsId) (before after : PidSystem Thread)
    (deleted : Nat) (record : PidContainer Thread) : Prop where
  /-- Each former member is on the list of the root with a VID of its own. -/
  rehomed : ∀ thread ∈ record.threadList,
    ∃ vid, after.Assigned objectId thread before.root vid ∧
      ∀ other, after.Assigned objectId other before.root vid → other = thread
  pointed : ∀ thread ∈ record.threadList, after.pidContainer thread = some before.root
  /-- The members that the root had keep their VIDs. -/
  kept : ∀ thread vid, before.Assigned objectId thread before.root vid →
    after.Assigned objectId thread before.root vid
  /-- No other container changes. -/
  elsewhere : ∀ address, address ≠ before.root → address ≠ deleted →
    after.containers address = before.containers address

/-- A deletion loses no member exactly when the root admits them all, with a
list node for each, and their pointers named the deleted container or already
the root. -/
theorem delete_losesNone_iff {deleted : Nat} {malloc : Nat → Bool}
    {root record : PidContainer Thread} (injective : Injective objectId)
    (valid : system.Valid objectId) (different : deleted ≠ system.root)
    (live : system.containers system.root = some root)
    (found : system.containers deleted = some record) :
    LosesNone objectId system (system.rtemsPidContainerDelete objectId (some deleted) malloc)
        deleted record ↔
      root.AdmitsAll malloc record.threadList.length ∧
        ∀ thread ∈ record.threadList, system.pidContainer thread = some deleted ∨
          system.pidContainer thread = some system.root := by
  have rootValid := valid.container_valid system.root root live
  have nodup := (valid.container_valid deleted record found).threads_nodup
  have apart : ∀ thread ∈ record.threadList, thread ∉ root.threadList := by
    intro thread listed rootListed
    exact different (valid.member_unique deleted system.root record root thread found live
      listed rootListed)
  have arrive : record.threadList ⊆
      (PidContainer.rehomed objectId malloc root record.threadList).threadList ↔
        root.AdmitsAll malloc record.threadList.length :=
    PidContainer.subset_rehomed_iff nodup apart
  rw [rtemsPidContainerDelete_eq different live found]
  constructor
  · rintro ⟨rehomed, pointed, -, -⟩
    refine ⟨arrive.mp ?_, ?_⟩
    · intro thread listed
      obtain ⟨vid, ⟨arrived, arrivedFound, arrivedListed, -⟩, -⟩ := rehomed thread listed
      obtain rfl := Option.some.inj ((store_same ..).symm.trans arrivedFound)
      exact arrivedListed
    · intro thread listed
      have pointed := pointed thread listed
      by_cases old : system.pidContainer thread = some deleted
      · exact .inl old
      · simp only [old, and_false, ↓reduceIte] at pointed
        exact .inr pointed
  · rintro ⟨admits, pointers⟩
    have rehomedValid := rootValid.rehomed injective nodup apart admits.nodesAllocated
    have arrives := arrive.mpr admits
    constructor
    · intro thread listed
      obtain ⟨vid, used, named⟩ := rehomedValid.slotted thread (arrives listed)
      refine ⟨vid, ⟨_, store_same .., arrives listed, used, named⟩, ?_⟩
      rintro other ⟨arrived, arrivedFound, -, -, otherNamed⟩
      obtain rfl := Option.some.inj ((store_same ..).symm.trans arrivedFound)
      exact injective (otherNamed.symm.trans named)
    · intro thread listed
      rcases pointers thread listed with old | already
      · simp [listed, old]
      · simp [already]
    · rintro thread vid ⟨before, beforeFound, listed, used, named⟩
      obtain rfl : root = before := Option.some.inj (live.symm.trans beforeFound)
      have kept : (PidContainer.rehomed objectId malloc root record.threadList).pidArray vid =
          root.pidArray vid := rootValid.numbered.rehomed_pidArray used
      refine ⟨_, store_same .., PidContainer.subset_rehomed listed, ?_, ?_⟩
      · rw [PidContainer.Used, kept]
        exact used
      · rw [kept]
        exact named
    · intro address awayRoot awayDeleted
      exact (store_other _ _ awayRoot).trans (store_other _ _ awayDeleted)

/-- A task in a container of its own. -/
def oneContained : PidSystem (Fin 2) :=
  { ((rtemsPidContainerInitializeRoot 0).rtemsPidContainerCreate (some 1)
      true).rtemsPidContainerAddTask twoTaskIds (some 1) (some 0) true with
    pidContainer := fun _ => some 1 }

theorem oneContained_losesNone :
    LosesNone twoTaskIds oneContained
      (oneContained.rtemsPidContainerDelete twoTaskIds (some 1) fun _ => true) 1
      ((PidContainer.initial 2).addTask twoTaskIds 0 true) := by
  have created : ((rtemsPidContainerInitializeRoot 0 :
      PidSystem (Fin 2)).rtemsPidContainerCreate (some 1) true).Valid twoTaskIds :=
    (initializeRoot_valid twoTaskIds 0).create
  have added : (((rtemsPidContainerInitializeRoot 0 : PidSystem (Fin 2)).rtemsPidContainerCreate
      (some 1) true).rtemsPidContainerAddTask twoTaskIds (some 1) (some 0) true).Valid
        twoTaskIds := by
    refine created.addTask twoTaskIds_injective fun record found room => ⟨rfl, ?_⟩
    intro other otherRecord otherFound
    match other with
    | 0 | 1 => cases otherFound; exact List.not_mem_nil
    | other + 2 => cases otherFound
  have valid : oneContained.Valid twoTaskIds := added.of_containers rfl rfl
  refine (delete_losesNone_iff twoTaskIds_injective valid (by decide) rfl rfl).mpr ⟨?_, ?_⟩
  · intro index inside
    obtain rfl : index = 0 := Nat.lt_one_iff.mp inside
    exact ⟨by decide, rfl⟩
  · exact fun _ _ => .inl rfl

/-- All VIDs of the root are given out, then one task moves to a new container. -/
def fullRoot (tasks : List (Fin 1023)) : PidSystem (Fin 1023) :=
  { Machine.run (PidCall.step fullTaskIds) (rtemsPidContainerInitializeRoot 0)
      ((tasks.map fun task => .addTask (some 0) (some task) true) ++
        [.create (some 1) true, .moveTask (some 0) (some 1) (some 0) fun _ => true]) with
    pidContainer := fun task => if task = 0 then some 1 else some 0 }

theorem memberOfFullRoot_lost {tasks : List (Fin 1023)} (full : tasks.length = 1023)
    (nodup : tasks.Nodup) (member : 0 ∈ tasks) :
    ∃ record, (fullRoot tasks).containers 1 = some record ∧ record.threadList = [0] ∧
      ¬ LosesNone fullTaskIds (fullRoot tasks)
        ((fullRoot tasks).rtemsPidContainerDelete fullTaskIds (some 1) fun _ => true) 1 record := by
  obtain ⟨rootEq, filled, found, tallied, rcEq, countEq, listEq, listed⟩ :=
    run_fill_root full member
  obtain ⟨filledRun, isFilled⟩ : ∃ filledRun, filledRun =
      Machine.run (PidCall.step fullTaskIds) (rtemsPidContainerInitializeRoot 0)
        (tasks.map fun task => .addTask (some 0) (some task) true) := ⟨_, rfl⟩
  obtain ⟨vid, slot⟩ := Option.isSome_iff_exists.mp
    (tallied.usedSlotOf_isSome fullTaskIds_nonzero listed)
  have referenced : ¬ filled.rc ≤ 0 := by omega
  rw [← isFilled] at rootEq found
  obtain ⟨created, isCreated⟩ : ∃ created, created =
      filledRun.rtemsPidContainerCreate (some 1) true := ⟨_, rfl⟩
  have createdRoot : created.root = 0 := by rw [isCreated]; exact rootEq
  have apart : (0 : Nat) ≠ 1 := by decide
  have createdEq : created.containers = update filledRun.containers 1
      (some (PidContainer.initial (filledRun.pidContainerId + 1))) := by rw [isCreated]; rfl
  have createdZero : created.containers 0 = some filled := by
    rw [createdEq, update_of_ne apart]
    exact found
  have createdOne : created.containers 1 =
      some (PidContainer.initial (filledRun.pidContainerId + 1)) := by
    rw [createdEq, update_self]
  have records : moveRecords fullTaskIds filled
      (PidContainer.initial (filledRun.pidContainerId + 1)) 0 true =
        some (leaveSource filled 0 vid, joinDest fullTaskIds
          (PidContainer.initial (filledRun.pidContainerId + 1)).takeVid.2 0 1) := by
    simp [moveRecords, referenced, listed, slot, moveVid, PidContainer.initial,
      PidContainer.takeVid, rtemsMaxProcessLimit]
  obtain ⟨left, isLeft⟩ : ∃ left, left = leaveSource filled 0 vid := ⟨_, rfl⟩
  obtain ⟨joined, isJoined⟩ : ∃ joined, joined = joinDest fullTaskIds
      (PidContainer.initial (filledRun.pidContainerId + 1)).takeVid.2 0 1 := ⟨_, rfl⟩
  have remains : ¬ left.rc = 0 := by
    rw [isLeft]
    change ¬ filled.rc - 1 = 0
    omega
  have moved : Machine.run (PidCall.step fullTaskIds) (rtemsPidContainerInitializeRoot 0)
      ((tasks.map fun task => .addTask (some 0) (some task) true) ++
        [.create (some 1) true, .moveTask (some 0) (some 1) (some 0) fun _ => true]) =
          ((created.store 0 (some left)).store 1 (some joined)).redirect 0 0 1 := by
    rw [Machine.run_append, ← isFilled]
    simp only [Machine.run_cons, Machine.run_nil, PidCall.step, ← isCreated,
      rtemsPidContainerMoveTask, apart, ↓reduceIte, createdZero, createdOne, records, ← isLeft,
      ← isJoined, remains]
  have rootEq : (fullRoot tasks).root = 0 := by
    simp only [fullRoot, moved, redirect_root, store_root, createdRoot]
  have rootFound : (fullRoot tasks).containers 0 = some left := by
    simp only [fullRoot, moved, redirect_containers]
    rw [store_other _ _ apart, store_same]
  have oneFound : (fullRoot tasks).containers 1 = some joined := by
    simp only [fullRoot, moved, redirect_containers, store_same]
  have onlyMember : joined.threadList = [0] := by
    rw [isJoined]
    rfl
  refine ⟨joined, oneFound, onlyMember, ?_⟩
  rintro ⟨rehomed, -, -, -⟩
  obtain ⟨given, ⟨arrived, arrivedFound, arrivedListed, -⟩, -⟩ :=
    rehomed 0 (by rw [onlyMember]; exact List.mem_singleton_self 0)
  have fullAgain : rtemsMaxProcessLimit - 1 ≤ left.pidCount := by
    rw [isLeft]
    change 1023 ≤ filled.pidCount
    omega
  have refused : PidContainer.rehomed fullTaskIds (fun _ => true) left [0] = left := by
    simp only [PidContainer.rehomed, PidContainer.addTask_refused fullAgain]
  rw [rtemsPidContainerDelete_eq (by rw [rootEq]; decide) (rootEq ▸ rootFound) oneFound,
    onlyMember, refused] at arrivedFound
  obtain rfl : left = arrived := Option.some.inj ((store_same ..).symm.trans arrivedFound)
  have gone : (0 : Fin 1023) ∉ left.threadList := by
    rw [isLeft]
    change 0 ∉ filled.threadList.erase 0
    rw [listEq]
    exact (List.nodup_reverse.mpr nodup).not_mem_erase
  exact gone arrivedListed

/-- Deleting the new container loses its only task. -/
theorem fullRoot_loses :
    ∃ record, (fullRoot (List.finRange 1023)).containers 1 = some record ∧
      ¬ LosesNone fullTaskIds (fullRoot (List.finRange 1023))
        ((fullRoot (List.finRange 1023)).rtemsPidContainerDelete fullTaskIds (some 1)
          fun _ => true) 1 record :=
  (memberOfFullRoot_lost List.length_finRange (List.nodup_finRange 1023)
    (List.mem_finRange 0)).imp fun _ loses => ⟨loses.1, loses.2.2⟩

end PidSystem

end RTContainer.Score
