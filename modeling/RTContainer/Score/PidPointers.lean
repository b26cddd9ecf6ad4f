import RTContainer.Score.PidReferenceCount

/-! The pointers `thread->container->pidContainer` beside the thread lists. A
pointer and a list agree when the pointer of a thread is a container exactly
while the thread is on the list of that container. -/

set_option autoImplicit false

namespace RTContainer.Score

open Function

variable {Thread : Type} [DecidableEq Thread] {objectId : Thread → ObjectsId}

namespace PidContainer

/-- The root has room and list nodes for `count` members that are re-homed one
after the other. -/
def RoomFor (root : PidContainer Thread) (malloc : Nat → Bool) (count : Nat) : Prop :=
  ∀ index, index < count →
    root.pidCount + (index - root.freeVidList.length) < rtemsMaxProcessLimit - 1 ∧
      malloc index = true

/-- `rtems_pid_container_move_task` goes through. -/
def Moves (objectId : Thread → ObjectsId) (src dest : PidContainer Thread) (thread : Thread)
    (malloc : Bool) : Prop :=
  0 < src.rc ∧ thread ∈ src.threadList ∧ (src.usedSlotOf (objectId thread)).isSome ∧
    thread ∉ dest.threadList ∧ dest.CanTake malloc

section

omit [DecidableEq Thread]

variable {root : PidContainer Thread} {thread : Thread} {malloc : Nat → Bool}

theorem addTask_threadList (room : root.pidCount < rtemsMaxProcessLimit - 1) :
    (root.addTask objectId thread true).threadList = thread :: root.threadList := by
  simp [addTask, Nat.not_le.mpr room, setSlot]

theorem addTask_roomFor {count : Nat} (room : root.RoomFor malloc (count + 1)) :
    (root.addTask objectId thread true).RoomFor (fun index => malloc (index + 1)) count := by
  have vacant : root.pidCount < rtemsMaxProcessLimit - 1 := by
    have first := (room 0 (Nat.succ_pos count)).1
    omega
  have taken : (root.addTask objectId thread true).pidCount = root.takeVid.2.pidCount ∧
      (root.addTask objectId thread true).freeVidList = root.takeVid.2.freeVidList := by
    simp [addTask, setSlot, Nat.not_le.mpr vacant]
  intro index inside
  obtain ⟨later, allocated⟩ := room (index + 1) (by omega)
  refine ⟨?_, allocated⟩
  rw [taken.1, taken.2]
  cases free : root.freeVidList with
  | nil =>
    simp only [free, List.length_nil] at later
    simp only [takeVid, free, List.length_nil]
    omega
  | cons vid rest =>
    simp only [free, List.length_cons] at later
    simp only [takeVid, free]
    omega

theorem rehomed_threadList {members : List Thread} (room : root.RoomFor malloc members.length) :
    (rehomed objectId malloc root members).threadList = members.reverse ++ root.threadList := by
  induction members generalizing malloc root with
  | nil => rfl
  | cons first rest ih =>
    obtain ⟨vacant, allocated⟩ := room 0 (Nat.succ_pos rest.length)
    have vacant : root.pidCount < rtemsMaxProcessLimit - 1 := by omega
    simp only [rehomed, allocated]
    rw [ih (addTask_roomFor room), addTask_threadList vacant]
    simp

end

variable {src dest : PidContainer Thread} {thread : Thread} {malloc : Bool}

private theorem moveRecords_of_moves (moves : Moves objectId src dest thread malloc) :
    ∃ left joined, PidSystem.moveRecords objectId src dest thread malloc = some (left, joined) := by
  obtain ⟨referenced, listed, slotted, absent, can⟩ := moves
  obtain ⟨vid, slot⟩ := Option.isSome_iff_exists.mp slotted
  have taken := moveVid_eq_some.mpr ⟨can, rfl⟩
  refine ⟨PidSystem.leaveSource src thread vid,
    PidSystem.joinDest objectId dest.takeVid.2 thread dest.takeVid.1, ?_⟩
  simp [PidSystem.moveRecords, Int.not_le.mpr referenced, listed, slot, absent, taken]

theorem removeTask_slot {container left : PidContainer Thread}
    (removed : container.removeTask objectId thread malloc = some left) :
    container.slotOf (objectId thread) = none ∨ malloc = true := by
  cases slot : container.slotOf (objectId thread) with
  | none => exact .inl rfl
  | some index =>
    cases malloc with
    | true => exact .inr rfl
    | false => simp [removeTask, slot] at removed

theorem moves_of_moveRecords {moved : PidContainer Thread × PidContainer Thread}
    (goes : PidSystem.moveRecords objectId src dest thread malloc = some moved) :
    Moves objectId src dest thread malloc := by
  unfold PidSystem.moveRecords at goes
  split at goes
  · contradiction
  next referenced =>
    split at goes
    · contradiction
    next listed =>
      split at goes
      · contradiction
      next vid slot =>
        split at goes
        · contradiction
        next absent =>
          obtain ⟨taken, takenEq, -⟩ := Option.map_eq_some_iff.mp goes
          exact ⟨Int.not_le.mp referenced, not_not.mp listed, by simp [slot], absent,
            (moveVid_eq_some.mp takenEq).1⟩

end PidContainer

namespace PidSystem

/-- A thread points to a container exactly when it is on its list, and
`rtems_pid_container_find_by_thread` returns what it points to. -/
structure PointersAgree (system : PidSystem Thread) : Prop where
  listed : ∀ thread address,
    system.pidContainer thread = some address ↔ system.onList thread address = true
  found : ∀ thread, system.rtemsPidContainerFindByThread (some thread) = system.pidContainer thread

/-- The invariant behind `PointersAgree`: every container with a member is the
root or registered. -/
structure Agreement (system : PidSystem Thread) : Prop where
  root_live : ∃ root, system.containers system.root = some root
  nodup : ∀ address record, system.containers address = some record → record.threadList.Nodup
  listed : ∀ thread address,
    system.pidContainer thread = some address ↔ system.onList thread address = true
  registered : ∀ thread address, system.onList thread address = true →
    address = system.root ∨ address ∈ system.registry

section

variable {system : PidSystem Thread}

variable {thread : Thread} {address srcContainer destContainer container : Nat}
variable {record src dest : PidContainer Thread} {malloc : Nat → Bool}

theorem onList_iff :
    system.onList thread address = true ↔
      ∃ record, system.containers address = some record ∧ thread ∈ record.threadList := by
  unfold onList
  cases found : system.containers address with
  | none => simp
  | some record => simp

section

variable (agreement : system.Agreement)
include agreement

theorem Agreement.pointersAgree : system.PointersAgree := by
  refine ⟨agreement.listed, ?_⟩
  intro thread
  cases pointed : system.pidContainer thread with
  | none =>
    refine List.find?_eq_none.mpr ?_
    intro address _ listed
    have same := (agreement.listed thread address).mpr listed
    rw [pointed] at same
    cases same
  | some address =>
    have listed := (agreement.listed thread address).mp pointed
    have searched : address ∈ system.root :: system.registry :=
      List.mem_cons.mpr (agreement.registered thread address listed)
    obtain ⟨found, search⟩ := Option.isSome_iff_exists.mp
      (List.find?_isSome.mpr ⟨address, searched, listed⟩)
    have foundListed := List.find?_some search
    rw [← agreement.listed, pointed, Option.some.injEq] at foundListed
    rw [foundListed]
    exact search

theorem Agreement.pointer
    (found : system.containers address = some record) (listed : thread ∈ record.threadList) :
    system.pidContainer thread = some address :=
  (agreement.listed thread address).mpr (onList_iff.mpr ⟨record, found, listed⟩)

/-- What changes neither lists nor pointers keeps the agreement. -/
theorem Agreement.of_lists {next : PidSystem Thread} (sameRoot : next.root = system.root)
    (lists : ∀ address, (next.containers address).map (·.threadList) =
      (system.containers address).map (·.threadList) ∨
        system.containers address = none ∧ (next.containers address).map (·.threadList) = some [])
    (pointers : next.pidContainer = system.pidContainer)
    (registry : ∀ address, address ∈ system.registry → address ∈ next.registry) :
    next.Agreement := by
  have onListEq : ∀ thread address, next.onList thread address = true ↔
      system.onList thread address = true := by
    intro thread address
    rw [onList_iff, onList_iff]
    rcases lists address with same | ⟨absent, empty⟩
    · cases found : system.containers address with
      | none =>
        rw [found, Option.map_none, Option.map_eq_none_iff] at same
        simp [same]
      | some record =>
        rw [found, Option.map_some, Option.map_eq_some_iff] at same
        obtain ⟨nextRecord, nextFound, sameList⟩ := same
        simp [nextFound, sameList]
    · obtain ⟨nextRecord, nextFound, emptyList⟩ := Option.map_eq_some_iff.mp empty
      simp [nextFound, absent, emptyList]
  constructor
  · obtain ⟨root, live⟩ := agreement.root_live
    rw [sameRoot]
    rcases lists system.root with same | ⟨absent, -⟩
    · rw [live, Option.map_some, Option.map_eq_some_iff] at same
      exact ⟨same.choose, same.choose_spec.1⟩
    · rw [live] at absent
      cases absent
  · intro address record found
    rcases lists address with same | ⟨-, empty⟩
    · rw [found, Option.map_some, eq_comm, Option.map_eq_some_iff] at same
      obtain ⟨before, beforeFound, sameList⟩ := same
      rw [← sameList]
      exact agreement.nodup address before beforeFound
    · rw [found, Option.map_some, Option.some.injEq] at empty
      rw [empty]
      exact List.nodup_nil
  · intro thread address
    rw [pointers, onListEq]
    exact agreement.listed thread address
  · intro thread address listed
    rw [sameRoot]
    exact (agreement.registered thread address ((onListEq thread address).mp listed)).imp_right
      (registry address)

theorem Agreement.store_list {changed : PidContainer Thread}
    (found : system.containers address = some record)
    (sameList : changed.threadList = record.threadList) :
    (system.store address (some changed)).Agreement := by
  refine agreement.of_lists rfl ?_ rfl fun _ => id
  intro other
  by_cases same : other = address
  · left
    rw [same, store_same, found, Option.map_some, Option.map_some, sameList]
  · left
    rw [store_other _ _ same]

theorem Agreement.create {address : Option Nat} {malloc : Bool}
    (fresh : ∀ container, address = some container → system.containers container = none) :
    (system.rtemsPidContainerCreate address malloc).Agreement := by
  cases address with
  | none => exact agreement
  | some address =>
    have lists : ∀ other, ((system.store address
        (some (PidContainer.initial (system.pidContainerId + 1)))).containers other).map
          (·.threadList) = (system.containers other).map (·.threadList) ∨
        system.containers other = none ∧ ((system.store address
          (some (PidContainer.initial (system.pidContainerId + 1)))).containers other).map
            (·.threadList) = some [] := by
      intro other
      by_cases same : other = address
      · right
        rw [same, store_same]
        exact ⟨fresh address rfl, rfl⟩
      · left
        rw [store_other _ _ same]
    cases malloc with
    | false => exact agreement.of_lists rfl lists rfl fun _ => id
    | true => exact agreement.of_lists rfl lists rfl fun _ => List.mem_cons_of_mem address

theorem Agreement.incRc {container : Option Nat} :
    (system.rtemsPidContainerIncRc container).Agreement := by
  cases container with
  | none => exact agreement
  | some address =>
    cases found : system.containers address with
    | none =>
      simp only [rtemsPidContainerIncRc, found]
      exact agreement
    | some record =>
      simp only [rtemsPidContainerIncRc, found]
      exact agreement.store_list found rfl

theorem Agreement.join {joined : PidContainer Thread}
    (found : system.containers address = some record)
    (unpointed : system.pidContainer thread = none)
    (joins : joined.threadList = thread :: record.threadList)
    (registered : address = system.root ∨ address ∈ system.registry) :
    ({ system.store address (some joined) with
      pidContainer := update system.pidContainer thread (some address) } :
        PidSystem Thread).Agreement := by
  have absent : ∀ other, system.onList thread other ≠ true := by
    intro other listed
    rw [← agreement.listed, unpointed] at listed
    cases listed
  have onListEq : ∀ other container, ({ system.store address (some joined) with
      pidContainer := update system.pidContainer thread (some address) } :
        PidSystem Thread).onList other container = true ↔
          container = address ∧ other = thread ∨ system.onList other container = true := by
    intro other container
    rw [onList_iff, onList_iff]
    by_cases same : container = address
    · simp [same, found, joins]
    · simp [store_other _ _ same, same]
  constructor
  · obtain ⟨root, live⟩ := agreement.root_live
    by_cases same : system.root = address
    · exact ⟨joined, by simp [same]⟩
    · exact ⟨root, by simpa [store_other _ _ same] using live⟩
  · intro container changed changedFound
    by_cases same : container = address
    · rw [same] at changedFound
      simp only [store_same, Option.some.injEq] at changedFound
      rw [← changedFound, joins, List.nodup_cons]
      exact ⟨fun listed => absent address (onList_iff.mpr ⟨record, found, listed⟩),
        agreement.nodup address record found⟩
    · simp only [store_other _ _ same] at changedFound
      exact agreement.nodup container changed changedFound
  · intro other container
    rw [onListEq]
    by_cases same : other = thread
    · subst other
      simp [update_self, absent, eq_comm]
    · simp only [update_of_ne same, same, and_false, false_or]
      exact agreement.listed other container
  · intro other container listed
    rcases (onListEq other container).mp listed with ⟨rfl, -⟩ | listed
    · exact registered
    · exact agreement.registered other container listed

theorem Agreement.delete {deleted : Nat}
    (room : ∀ root record, deleted ≠ system.root → system.containers system.root = some root →
      system.containers deleted = some record → root.RoomFor malloc record.threadList.length) :
    (system.rtemsPidContainerDelete objectId (some deleted) malloc).Agreement := by
  refine delete_induction agreement agreement.root_live fun root record isRoot live found => ?_
  have rehomes : (PidContainer.rehomed objectId malloc root record.threadList).threadList =
      record.threadList.reverse ++ root.threadList :=
    PidContainer.rehomed_threadList (room root record isRoot live found)
  have pointed : ∀ thread ∈ record.threadList, system.pidContainer thread = some deleted :=
    fun thread listed => agreement.pointer found listed
  have rootPointed : ∀ thread ∈ root.threadList, system.pidContainer thread = some system.root :=
    fun thread listed => agreement.pointer live listed
  rw [rtemsPidContainerDelete_eq isRoot live found]
  constructor
  · exact ⟨_, store_same _ _ _⟩
  · intro address changed changedFound
    by_cases sameRoot : address = system.root
    · rw [sameRoot] at changedFound
      simp only [store_same, Option.some.injEq] at changedFound
      rw [← changedFound, rehomes, List.nodup_append']
      refine ⟨List.nodup_reverse.mpr (agreement.nodup deleted record found),
        agreement.nodup system.root root live, ?_⟩
      intro thread rehomed listed
      have same := pointed thread (List.mem_reverse.mp rehomed)
      rw [rootPointed thread listed, Option.some.injEq] at same
      exact isRoot same.symm
    · simp only [store_other _ _ sameRoot] at changedFound
      by_cases same : address = deleted
      · rw [same, store_same] at changedFound
        cases changedFound
      · rw [store_other _ _ same] at changedFound
        exact agreement.nodup address changed changedFound
  · intro thread address
    rw [onList_iff]
    by_cases sameRoot : address = system.root
    · subst address
      simp only [store_same, Option.some.injEq, exists_eq_left', rehomes, List.mem_append,
        List.mem_reverse]
      by_cases listed : thread ∈ record.threadList
      · simp [listed, pointed thread listed]
      · simp only [listed, false_and, ↓reduceIte, false_or]
        rw [agreement.listed, onList_iff]
        simp [live]
    · simp only [store_other _ _ sameRoot]
      by_cases same : address = deleted
      · subst address
        by_cases listed : thread ∈ record.threadList
        · simp [listed, pointed thread listed, Ne.symm isRoot]
        · simp only [listed, false_and, ↓reduceIte, store_same, reduceCtorEq, exists_false,
            iff_false]
          intro other
          exact listed (by simpa [onList_iff, found] using
            (agreement.listed thread deleted).mp other)
      · rw [store_other _ _ same, ← onList_iff, ← agreement.listed]
        by_cases listed : thread ∈ record.threadList
        · simp [listed, pointed thread listed, Ne.symm sameRoot, Ne.symm same]
        · simp [listed]
  · intro thread address listed
    obtain ⟨changed, changedFound, member⟩ := onList_iff.mp listed
    by_cases sameRoot : address = system.root
    · exact .inl sameRoot
    · simp only [store_other _ _ sameRoot] at changedFound
      by_cases same : address = deleted
      · rw [same, store_same] at changedFound
        cases changedFound
      · rw [store_other _ _ same] at changedFound
        right
        refine (List.mem_erase_of_ne same).mpr ?_
        exact (agreement.registered thread address
          (onList_iff.mpr ⟨changed, changedFound, member⟩)).resolve_left sameRoot

/-- A move that goes through redirects the pointer with the list. -/
theorem Agreement.moved {srcContainer destContainer : Nat}
    {src dest left joined : PidContainer Thread} {thread : Thread}
    (different : srcContainer ≠ destContainer)
    (srcFound : system.containers srcContainer = some src)
    (destFound : system.containers destContainer = some dest)
    (listed : thread ∈ src.threadList) (leaves : left.threadList = src.threadList.erase thread)
    (joins : joined.threadList = thread :: dest.threadList)
    (registered : destContainer = system.root ∨ destContainer ∈ system.registry) :
    (((system.store srcContainer (some left)).store destContainer (some joined)).redirect thread
      srcContainer destContainer).Agreement := by
  have pointed := agreement.pointer srcFound listed
  have absent : ∀ other, other ≠ srcContainer → system.onList thread other ≠ true := by
    intro other away present
    rw [← agreement.listed, pointed, Option.some.injEq] at present
    exact away present.symm
  have srcNodup := agreement.nodup srcContainer src srcFound
  have onListEq : ∀ other address,
      (((system.store srcContainer (some left)).store destContainer (some joined)).redirect thread
        srcContainer destContainer).onList other address = true ↔
          if other = thread then address = destContainer
          else system.onList other address = true := by
    intro other address
    rw [onList_iff, onList_iff, redirect_containers]
    by_cases isDest : address = destContainer
    · subst address
      simp only [store_same, Option.some.injEq, exists_eq_left', joins, List.mem_cons, destFound]
      by_cases same : other = thread
      · simp [same]
      · simp [same]
    · rw [store_other _ _ isDest]
      by_cases isSrc : address = srcContainer
      · subst address
        simp only [store_same, Option.some.injEq, exists_eq_left', leaves, srcFound]
        by_cases same : other = thread
        · simp [same, srcNodup.not_mem_erase, isDest]
        · simp [same]
      · rw [store_other _ _ isSrc]
        by_cases same : other = thread
        · simp only [same, ↓reduceIte, isDest, iff_false]
          rw [← onList_iff]
          exact absent address isSrc
        · simp [same]
  have pointers : ∀ other,
      (((system.store srcContainer (some left)).store destContainer (some joined)).redirect thread
        srcContainer destContainer).pidContainer other =
          if other = thread then some destContainer else system.pidContainer other := by
    intro other
    rw [redirect_eq]
    by_cases same : other = thread
    · simp [same, pointed]
    · simp [same]
  constructor
  · rw [redirect_root, redirect_containers]
    obtain ⟨root, live⟩ := agreement.root_live
    by_cases isDest : system.root = destContainer
    · exact ⟨joined, by simp [isDest]⟩
    · by_cases isSrc : system.root = srcContainer
      · exact ⟨left, by simp [store_other _ _ different, isSrc]⟩
      · exact ⟨root, by simpa [store_other _ _ isDest, store_other _ _ isSrc] using live⟩
  · intro address record found
    rw [redirect_containers] at found
    by_cases isDest : address = destContainer
    · rw [isDest, store_same, Option.some.injEq] at found
      rw [← found, joins, List.nodup_cons]
      exact ⟨fun present => absent destContainer (Ne.symm different)
        (onList_iff.mpr ⟨dest, destFound, present⟩), agreement.nodup destContainer dest destFound⟩
    · rw [store_other _ _ isDest] at found
      by_cases isSrc : address = srcContainer
      · rw [isSrc, store_same, Option.some.injEq] at found
        rw [← found, leaves]
        exact srcNodup.erase thread
      · rw [store_other _ _ isSrc] at found
        exact agreement.nodup address record found
  · intro other address
    rw [onListEq, pointers]
    by_cases same : other = thread
    · simp [same, eq_comm]
    · simp only [same, ↓reduceIte]
      exact agreement.listed other address
  · intro other address present
    have sameRegistry : (((system.store srcContainer (some left)).store destContainer
        (some joined)).redirect thread srcContainer destContainer).registry = system.registry := by
      rw [redirect_eq]
      rfl
    rw [redirect_root, sameRegistry]
    rw [onListEq] at present
    by_cases same : other = thread
    · simp only [same, ↓reduceIte] at present
      rw [present]
      exact registered
    · simp only [same, ↓reduceIte] at present
      exact agreement.registered other address present

end

/-- What a move that goes through asks of the state: the destination can be
found, and a source that loses its last reference has no other member. -/
def MoveKeeps (system : PidSystem Thread) (srcContainer destContainer : Nat)
    (src : PidContainer Thread) (thread : Thread) : Prop :=
  (destContainer = system.root ∨ destContainer ∈ system.registry) ∧
    (srcContainer ≠ system.root → src.rc = 1 → src.threadList.erase thread = [])

theorem Agreement.moveTask_moves (agreement : system.Agreement)
    (different : srcContainer ≠ destContainer)
    (srcFound : system.containers srcContainer = some src)
    (destFound : system.containers destContainer = some dest)
    (moves : PidContainer.Moves objectId src dest thread (malloc 0))
    (keeps : system.MoveKeeps srcContainer destContainer src thread) :
    let next := system.rtemsPidContainerMoveTask objectId (some srcContainer)
      (some destContainer) (some thread) malloc
    next.Agreement ∧ next.pidContainer thread = some destContainer ∧ next.root = system.root := by
  obtain ⟨left, joined, moved⟩ := PidContainer.moveRecords_of_moves moves
  obtain ⟨listed, -, leftRc, leaves, -, joins⟩ := PidContainer.moveRecords_some moved
  have movedAgreement := agreement.moved different srcFound destFound listed leaves joins keeps.1
  have pointed := agreement.pointer srcFound listed
  have redirected : (((system.store srcContainer (some left)).store destContainer
      (some joined)).redirect thread srcContainer destContainer).pidContainer thread =
        some destContainer := by
    rw [redirect_eq]
    simp [pointed]
  simp only [rtemsPidContainerMoveTask, different, ↓reduceIte, srcFound, destFound, moved]
  split
  next released =>
    by_cases isRoot : srcContainer = system.root
    · have kept : rtemsPidContainerDelete objectId (((system.store srcContainer (some left)).store
          destContainer (some joined)).redirect thread srcContainer destContainer)
            (some srcContainer) (fun index => malloc (index + 1)) =
          ((system.store srcContainer (some left)).store destContainer (some joined)).redirect
            thread srcContainer destContainer := by
        simp [rtemsPidContainerDelete, isRoot]
      rw [kept]
      exact ⟨movedAgreement, redirected, redirect_root ..⟩
    · have alone : left.threadList = [] := by
        rw [leaves]
        exact keeps.2 isRoot (by omega)
      have leftFound : (((system.store srcContainer (some left)).store destContainer
          (some joined)).redirect thread srcContainer destContainer).containers srcContainer =
            some left := by
        rw [redirect_containers, store_other _ _ different, store_same]
      obtain ⟨root, live⟩ := movedAgreement.root_live
      have deletion := @rtemsPidContainerDelete_eq Thread _ objectId srcContainer
        (fun index => malloc (index + 1)) _ root left (by simpa using isRoot) live leftFound
      refine ⟨movedAgreement.delete ?_, ?_, ?_⟩
      · intro otherRoot record _ _ found index inside
        rw [leftFound, Option.some.injEq] at found
        rw [← found, alone] at inside
        cases inside
      · rw [deletion]
        simp [alone, redirected]
      · rw [deletion]
        simp
  next => exact ⟨movedAgreement, redirected, redirect_root ..⟩

theorem moveTask_refused (srcFound : system.containers srcContainer = some src)
    (destFound : system.containers destContainer = some dest)
    (refused : ¬ PidContainer.Moves objectId src dest thread (malloc 0)) :
    system.rtemsPidContainerMoveTask objectId (some srcContainer) (some destContainer)
      (some thread) malloc = system := by
  have stays : moveRecords objectId src dest thread (malloc 0) = none := by
    cases moved : moveRecords objectId src dest thread (malloc 0) with
    | none => rfl
    | some pair => exact absurd (PidContainer.moves_of_moveRecords moved) refused
  simp [rtemsPidContainerMoveTask, srcFound, destFound, stays]

theorem Agreement.moveTask (agreement : system.Agreement)
    (keeps : ∀ src dest, srcContainer ≠ destContainer →
      system.containers srcContainer = some src → system.containers destContainer = some dest →
        PidContainer.Moves objectId src dest thread (malloc 0) →
          system.MoveKeeps srcContainer destContainer src thread) :
    (system.rtemsPidContainerMoveTask objectId (some srcContainer) (some destContainer)
      (some thread) malloc).Agreement := by
  by_cases same : srcContainer = destContainer
  · simp only [rtemsPidContainerMoveTask, same, ↓reduceIte]
    exact agreement
  cases srcFound : system.containers srcContainer with
  | none =>
    simp only [rtemsPidContainerMoveTask, same, ↓reduceIte, srcFound]
    exact agreement
  | some src =>
    cases destFound : system.containers destContainer with
    | none =>
      simp only [rtemsPidContainerMoveTask, same, ↓reduceIte, srcFound, destFound]
      exact agreement
    | some dest =>
      by_cases moves : PidContainer.Moves objectId src dest thread (malloc 0)
      · exact (agreement.moveTask_moves same srcFound destFound moves
          (keeps src dest same srcFound destFound moves)).1
      · rw [moveTask_refused srcFound destFound moves]
        exact agreement

/-- An addition that is refused, or whose node is not allocated, changes no list. -/
theorem Agreement.addTask {malloc : Bool} (agreement : system.Agreement)
    (keeps : ∀ record, system.containers container = some record →
      record.pidCount < rtemsMaxProcessLimit - 1 → malloc = false) :
    (system.rtemsPidContainerAddTask objectId (some container) (some thread) malloc).Agreement := by
  cases found : system.containers container with
  | none =>
    simp only [rtemsPidContainerAddTask, found]
    exact agreement
  | some record =>
    simp only [rtemsPidContainerAddTask, found]
    refine agreement.store_list found ?_
    by_cases room : record.pidCount < rtemsMaxProcessLimit - 1
    · rw [keeps record found room]
      simp [PidContainer.addTask, Nat.not_le.mpr room, PidContainer.setSlot]
    · rw [PidContainer.addTask_refused (Nat.not_lt.mp room)]

/-- A removal that goes through keeps the agreement if the thread is no member. -/
theorem Agreement.removeTask (agreement : system.Agreement)
    (keeps : ∀ root record, system.containers system.root = some root →
      system.containers container = some record → 0 < record.rc →
        (record.slotOf (objectId thread) = none ∨ malloc 0 = true) →
          thread ∉ record.threadList ∧
            (container ≠ system.root → record.rc = 1 →
              root.RoomFor (fun index => malloc (index + 1)) record.threadList.length)) :
    (system.rtemsPidContainerRemoveTask objectId (some container) (some thread)
      malloc).Agreement := by
  cases found : system.containers container with
  | none =>
    simp only [rtemsPidContainerRemoveTask, found, Option.bind_none]
    exact agreement
  | some record =>
    cases removed : record.removeTask objectId thread (malloc 0) with
    | none =>
      simp only [rtemsPidContainerRemoveTask, found, Option.bind_some, removed]
      exact agreement
    | some left =>
      obtain ⟨root, live⟩ := agreement.root_live
      obtain ⟨referenced, leftRc, leftList⟩ := PidContainer.removeTask_some removed
      obtain ⟨absent, room⟩ := keeps root record live found referenced
        (PidContainer.removeTask_slot removed)
      rw [List.erase_of_not_mem absent] at leftList
      have stored := agreement.store_list found leftList
      simp only [rtemsPidContainerRemoveTask, found, Option.bind_some, removed]
      split
      next released =>
        refine stored.delete ?_
        intro otherRoot otherRecord away otherLive otherFound
        rw [store_same, Option.some.injEq] at otherFound
        subst otherRecord
        have away : container ≠ system.root := away
        rw [store_root, store_other _ _ (Ne.symm away), live, Option.some.injEq] at otherLive
        subst otherRoot
        rw [leftList]
        exact room away (by omega)
      next => exact stored

theorem redirect_isSome (thread other : Thread) (old new : Nat) :
    ((system.redirect thread old new).pidContainer other).isSome =
      (system.pidContainer other).isSome := by
  rw [redirect_eq]
  dsimp only
  split
  next pointed => simp [pointed.2]
  next => rfl

section

omit [DecidableEq Thread]

theorem addTask_pointers (container : Option Nat) (thread : Option Thread) (malloc : Bool) :
    (system.rtemsPidContainerAddTask objectId container thread malloc).pidContainer =
      system.pidContainer := by
  unfold rtemsPidContainerAddTask
  split
  · split
    · rfl
    · rfl
  · rfl

theorem create_pointers (address : Option Nat) (malloc : Bool) :
    (system.rtemsPidContainerCreate address malloc).pidContainer = system.pidContainer := by
  cases address with
  | none => rfl
  | some address => cases malloc <;> rfl

theorem incRc_pointers (container : Option Nat) :
    (system.rtemsPidContainerIncRc container).pidContainer = system.pidContainer := by
  unfold rtemsPidContainerIncRc
  split
  · rfl
  · split
    · rfl
    · rfl

end

theorem rehome_isSome (deleted : Nat) (malloc : Nat → Bool) (members : List Thread)
    (thread : Thread) :
    ((rehome objectId deleted malloc system members).pidContainer thread).isSome =
      (system.pidContainer thread).isSome := by
  induction members generalizing malloc system with
  | nil => rfl
  | cons first rest ih =>
    rw [rehome, ih, redirect_isSome, addTask_pointers]

/-- No operation clears the pointer of a thread or gives it a first one. -/
theorem delete_isSome (container : Option Nat) (malloc : Nat → Bool) (thread : Thread) :
    ((system.rtemsPidContainerDelete objectId container malloc).pidContainer thread).isSome =
      (system.pidContainer thread).isSome := by
  unfold rtemsPidContainerDelete
  split
  · rfl
  · split
    · rfl
    · split
      · rfl
      · simp only [store_pidContainer]
        rw [rehome_isSome]
        rfl

theorem removeTask_isSome (container : Option Nat) (removed : Option Thread)
    (malloc : Nat → Bool) (thread : Thread) :
    ((system.rtemsPidContainerRemoveTask objectId container removed malloc).pidContainer
      thread).isSome = (system.pidContainer thread).isSome := by
  unfold rtemsPidContainerRemoveTask
  split
  · split
    · rfl
    · dsimp only
      split
      · rw [delete_isSome]
        rfl
      · rfl
  · rfl

theorem moveTask_isSome (srcContainer destContainer : Option Nat) (moved : Option Thread)
    (malloc : Nat → Bool) (thread : Thread) :
    ((system.rtemsPidContainerMoveTask objectId srcContainer destContainer moved
      malloc).pidContainer thread).isSome = (system.pidContainer thread).isSome := by
  unfold rtemsPidContainerMoveTask
  split
  · split
    · rfl
    · split
      · split
        · rfl
        · dsimp only
          split
          · rw [delete_isSome, redirect_isSome]
            rfl
          · rw [redirect_isSome]
            rfl
      · rfl
  · rfl

end

end PidSystem

namespace PidCall

variable {system : PidSystem Thread}

/-- The direct calls that leave pointers and lists in agreement. An addition is
refused or gets no node; a removal is not given a member; a move that goes
through meets `MoveKeeps`; and the root has room for whoever is re-homed. -/
def KeepsPointers (objectId : Thread → ObjectsId) (system : PidSystem Thread) :
    PidCall Thread → Prop
  | .addTask (some container) (some _) malloc =>
    ∀ record, system.containers container = some record →
      record.pidCount < rtemsMaxProcessLimit - 1 → malloc = false
  | .removeTask (some container) (some thread) malloc =>
    ∀ root record, system.containers system.root = some root →
      system.containers container = some record → 0 < record.rc →
        (record.slotOf (objectId thread) = none ∨ malloc 0 = true) →
          thread ∉ record.threadList ∧
            (container ≠ system.root → record.rc = 1 →
              root.RoomFor (fun index => malloc (index + 1)) record.threadList.length)
  | .moveTask (some srcContainer) (some destContainer) (some thread) malloc =>
    ∀ src dest, srcContainer ≠ destContainer →
      system.containers srcContainer = some src → system.containers destContainer = some dest →
        PidContainer.Moves objectId src dest thread (malloc 0) →
          system.MoveKeeps srcContainer destContainer src thread
  | .delete (some container) malloc =>
    ∀ root record, container ≠ system.root → system.containers system.root = some root →
      system.containers container = some record → root.RoomFor malloc record.threadList.length
  | _ => True

theorem step_agreement {call : PidCall Thread} (agreement : system.Agreement)
    (wellFormed : call.WellFormed system) (keeps : call.KeepsPointers objectId system) :
    (call.step objectId system).Agreement := by
  cases call with
  | create address malloc => exact agreement.create wellFormed
  | addTask container thread malloc =>
    rcases container with _ | container
    · exact agreement
    rcases thread with _ | thread
    · exact agreement
    exact agreement.addTask keeps
  | removeTask container thread malloc =>
    rcases container with _ | container
    · exact agreement
    rcases thread with _ | thread
    · exact agreement
    exact agreement.removeTask keeps
  | moveTask src dest thread malloc =>
    rcases src with _ | src
    · exact agreement
    rcases dest with _ | dest
    · exact agreement
    rcases thread with _ | thread
    · exact agreement
    exact agreement.moveTask keeps
  | delete container malloc =>
    rcases container with _ | container
    · exact agreement
    exact agreement.delete keeps
  | incRc container => exact agreement.incRc

theorem step_isSome (call : PidCall Thread) (thread : Thread) :
    ((call.step objectId system).pidContainer thread).isSome =
      (system.pidContainer thread).isSome := by
  cases call with
  | create address malloc => rw [step, PidSystem.create_pointers]
  | addTask container added malloc => rw [step, PidSystem.addTask_pointers]
  | removeTask container removed malloc => exact PidSystem.removeTask_isSome ..
  | moveTask src dest moved malloc => exact PidSystem.moveTask_isSome ..
  | delete container malloc => exact PidSystem.delete_isSome ..
  | incRc container => rw [step, PidSystem.incRc_pointers]

end PidCall

omit [DecidableEq Thread] in
theorem PidSystem.initializeRoot_containers (root address : Nat) {record : PidContainer Thread}
    (found : (rtemsPidContainerInitializeRoot root : PidSystem Thread).containers address =
      some record) : record = PidContainer.initial 1 := by
  by_cases same : address = root
  · simpa [rtemsPidContainerInitializeRoot, same, eq_comm] using found
  · simp [rtemsPidContainerInitializeRoot, same] at found

theorem PidSystem.initializeRoot_agreement (root : Nat) :
    (rtemsPidContainerInitializeRoot root : PidSystem Thread).Agreement := by
  have unlisted : ∀ thread address,
      (rtemsPidContainerInitializeRoot root : PidSystem Thread).onList thread address ≠ true := by
    intro thread address listed
    obtain ⟨record, found, member⟩ := onList_iff.mp listed
    rw [initializeRoot_containers root address found] at member
    cases member
  constructor
  · exact ⟨PidContainer.initial 1, by simp [rtemsPidContainerInitializeRoot]⟩
  · intro address record found
    rw [initializeRoot_containers root address found]
    exact List.nodup_nil
  · intro thread address
    constructor
    · intro pointed
      cases pointed
    · intro listed
      exact absurd listed (unlisted thread address)
  · intro thread address listed
    exact absurd listed (unlisted thread address)

end RTContainer.Score
