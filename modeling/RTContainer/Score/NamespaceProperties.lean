import Mathlib.Data.Option.Basic
import RTContainer.Score.NamespaceContainer

/-! What the operations on the containers of one kind do: to the reference
counts, to the pointers of the threads, and to the containers in the heap. -/

set_option autoImplicit false

namespace RTContainer.Score

open Function

/-- The threads that the `delete` of a kind moves to the root: the first of the
object tables and the executing one. -/
def ThreadTables.Rehomes {Thread : Type} (tables : ThreadTables Thread) (rules : NamespaceRules)
    (thread : Thread) : Prop :=
  rules.rehomes = true ∧ (tables.threads.head? = some thread ∨ tables.executing = thread)

instance {Thread : Type} [DecidableEq Thread] (tables : ThreadTables Thread)
    (rules : NamespaceRules) (thread : Thread) : Decidable (tables.Rehomes rules thread) :=
  inferInstanceAs (Decidable (_ ∧ _))

theorem threadIterate_done {Thread State : Type} (visitor : Thread → State → Option State)
    (threads : List Thread) (state : State) :
    threadIterate (fun thread state => (visitor thread state).map fun visited => (visited, true))
        threads state =
      match threads.head? with
      | none => some state
      | some thread => visitor thread state := by
  cases threads with
  | nil => rfl
  | cons thread rest =>
    cases visits : visitor thread state with
    | none | some => simp [threadIterate, visits]

namespace NamespaceSystem

variable {Thread : Type} [DecidableEq Thread] {rules : NamespaceRules}
variable {system after : NamespaceSystem Thread} {tables : ThreadTables Thread}
variable {address deleted : Nat} {delta : Int} {thread : Thread}

structure Identified (system : NamespaceSystem Thread) : Prop where
  root : ∃ container, system.containers system.root = some container ∧ container.id = 1
  others : ∀ address container, system.containers address = some container →
    address ≠ system.root → container.id ≠ 1
  counter : 1 ≤ system.idCounter

section

omit [DecidableEq Thread]

theorem addRc_eq_some : system.addRc address delta = some after ↔
    ∃ container, system.containers address = some container ∧
      after = system.store address (some { container with rc := container.rc + delta }) := by
  simp [addRc, eq_comm]

@[simp] theorem store_self (container : Option NamespaceContainer) :
    (system.store address container).containers address = container := by
  simp [store]

theorem store_of_ne {other : Nat} (different : other ≠ address)
    (container : Option NamespaceContainer) :
    (system.store address container).containers other = system.containers other := by
  simp [store, different]

theorem addRc_kept (result : system.addRc address delta = some after) :
    after.root = system.root ∧ after.idCounter = system.idCounter ∧
      after.pointer = system.pointer ∧
      (∀ other, (after.containers other).map (·.id) = (system.containers other).map (·.id)) ∧
      ∀ other, other ≠ address → after.containers other = system.containers other := by
  obtain ⟨container, found, rfl⟩ := addRc_eq_some.mp result
  refine ⟨rfl, rfl, rfl, ?_, fun other different => store_of_ne different _⟩
  intro other
  by_cases same : other = address
  · subst other
    rw [store_self, found]
    rfl
  · rw [store_of_ne same]

end

structure Switched (system : NamespaceSystem Thread) (deleted : Nat) (chosen : Thread → Prop)
    (after : NamespaceSystem Thread) : Prop where
  root : after.root = system.root
  idCounter : after.idCounter = system.idCounter
  ids : ∀ address, (after.containers address).map (·.id) = (system.containers address).map (·.id)
  others : ∀ address, address ≠ deleted → address ≠ system.root →
    after.containers address = system.containers address
  moved : ∀ thread, system.pointer thread = some deleted → chosen thread →
    after.pointer thread = some system.root
  stays : ∀ thread, ¬ (system.pointer thread = some deleted ∧ chosen thread) →
    after.pointer thread = system.pointer thread

variable {chosen : Thread → Prop} {src dest : Nat}
variable {srcContainer destContainer container : Option Nat} {task : Option Thread} {other : Thread}

omit [DecidableEq Thread] in
theorem Switched.refl (system : NamespaceSystem Thread) (deleted : Nat)
    (noneChosen : ∀ thread, system.pointer thread = some deleted → ¬ chosen thread) :
    system.Switched deleted chosen system where
  root := rfl
  idCounter := rfl
  ids _ := rfl
  others _ _ _ := rfl
  moved thread points isChosen := absurd isChosen (noneChosen thread points)
  stays _ _ := rfl

omit [DecidableEq Thread] in
theorem Switched.trans {first second : Thread → Prop} {last : NamespaceSystem Thread}
    (notRoot : deleted ≠ system.root) (switched : system.Switched deleted first after)
    (again : after.Switched deleted second last) :
    system.Switched deleted (fun thread => first thread ∨ second thread) last := by
  have different : system.root ≠ deleted := notRoot.symm
  refine {
    root := again.root.trans switched.root
    idCounter := again.idCounter.trans switched.idCounter
    ids := fun address => (again.ids address).trans (switched.ids address)
    others := ?others
    moved := ?moved
    stays := ?stays }
  case others =>
    intro address notDeleted apart
    exact (again.others address notDeleted (switched.root ▸ apart)).trans
      (switched.others address notDeleted apart)
  case moved =>
    intro thread points chosen
    by_cases isFirst : first thread
    · have atRoot := switched.moved thread points isFirst
      refine (again.stays thread ?_).trans atRoot
      intro both
      exact different (Option.some.inj (atRoot.symm.trans both.1))
    · have still := switched.stays thread fun both => isFirst both.2
      have moved := again.moved thread (still.trans points) (chosen.resolve_left isFirst)
      exact moved.trans (congrArg some switched.root)
  case stays =>
    intro thread free
    have still := switched.stays thread fun both => free ⟨both.1, .inl both.2⟩
    refine (again.stays thread fun both => ?_).trans still
    exact free ⟨still.symm.trans both.1, .inr both.2⟩

/-- A thread that points to the deleted container goes to the root. -/
theorem switchToRoot_switched (result : system.switchToRoot deleted thread = some after) :
    system.Switched deleted (fun other => thread = other) after := by
  unfold switchToRoot at result
  split at result
  · rename_i points
    obtain ⟨counted, first, second⟩ := Option.bind_eq_some_iff.mp result
    obtain ⟨root, idCounter, pointer, ids, others⟩ := addRc_kept first
    obtain ⟨rootAfter, idCounterAfter, pointerAfter, idsAfter, othersAfter⟩ := addRc_kept second
    refine {
      root := rootAfter.trans root
      idCounter := idCounterAfter.trans idCounter
      ids := fun address => (idsAfter address).trans (ids address)
      others := ?others
      moved := ?moved
      stays := ?stays }
    case others =>
      intro address notDeleted notRoot
      exact (othersAfter address notDeleted).trans (others address notRoot)
    case moved =>
      intro other _ same
      subst other
      rw [pointerAfter, pointer]
      exact update_self ..
    case stays =>
      intro other free
      rw [pointerAfter, pointer]
      refine update_of_ne ?_ ..
      intro same
      subst other
      exact free ⟨points, rfl⟩
  · rename_i elsewhere
    cases result
    apply Switched.refl
    intro other points same
    exact elsewhere (same ▸ points)

theorem rehome_eq_some : system.rehome tables deleted = some after ↔
    ∃ iterated, (match tables.threads.head? with
        | none => some system
        | some thread => system.switchToRoot deleted thread) = some iterated ∧
      iterated.switchToRoot deleted tables.executing = some after := by
  unfold rehome
  rw [threadIterate_done (fun thread (state : NamespaceSystem Thread) =>
    state.switchToRoot deleted thread), Option.bind_eq_some_iff]

theorem rehome_switched (notRoot : deleted ≠ system.root)
    (result : system.rehome tables deleted = some after) :
    system.Switched deleted
      (fun thread => tables.threads.head? = some thread ∨ tables.executing = thread) after := by
  obtain ⟨iterated, first, second⟩ := rehome_eq_some.mp result
  have visited : system.Switched deleted (fun thread => tables.threads.head? = some thread)
      iterated := by
    cases head : tables.threads.head? with
    | none =>
      rw [head] at first
      cases first
      exact Switched.refl system deleted fun _ _ isHead => nomatch isHead
    | some thread =>
      rw [head] at first
      simpa using switchToRoot_switched first
  exact visited.trans notRoot (switchToRoot_switched second)

/-- What `delete` does to a container that is not the root. -/
structure Deleted (rules : NamespaceRules) (tables : ThreadTables Thread)
    (system : NamespaceSystem Thread) (deleted : Nat) (after : NamespaceSystem Thread) : Prop where
  root : after.root = system.root
  idCounter : after.idCounter = system.idCounter
  gone : after.containers deleted = none
  wasLive : system.containers deleted ≠ none
  ids : ∀ address, address ≠ deleted →
    (after.containers address).map (·.id) = (system.containers address).map (·.id)
  others : ∀ address, address ≠ deleted → address ≠ system.root →
    after.containers address = system.containers address
  moved : ∀ thread, system.pointer thread = some deleted → tables.Rehomes rules thread →
    after.pointer thread = some system.root
  stays : ∀ thread, ¬ (system.pointer thread = some deleted ∧ tables.Rehomes rules thread) →
    after.pointer thread = system.pointer thread

omit [DecidableEq Thread] in
theorem Deleted.of_free {switched : NamespaceSystem Thread}
    (moves : system.Switched deleted chosen switched)
    (isChosen : ∀ thread, tables.Rehomes rules thread ↔ chosen thread)
    (freed : switched.free deleted = some after) : Deleted rules tables system deleted after := by
  obtain ⟨container, found, rfl⟩ := Option.map_eq_some_iff.mp freed
  refine {
    root := moves.root
    idCounter := moves.idCounter
    gone := store_self none
    wasLive := ?wasLive
    ids := ?ids
    others := ?others
    moved := fun thread points rehomes => moves.moved thread points ((isChosen thread).mp rehomes)
    stays := fun thread free =>
      moves.stays thread fun both => free ⟨both.1, (isChosen thread).mpr both.2⟩ }
  case wasLive =>
    intro dead
    have same := moves.ids deleted
    rw [dead, found] at same
    cases same
  case ids =>
    intro address different
    rw [store_of_ne different]
    exact moves.ids address
  case others =>
    intro address different notRoot
    rw [store_of_ne different]
    exact moves.others address different notRoot

theorem delete_cases (result : system.delete rules tables (some deleted) = some after) :
    (deleted = system.root ∧ after = system) ∨
      (deleted ≠ system.root ∧ Deleted rules tables system deleted after) := by
  unfold delete at result
  simp only at result
  split at result
  · rename_i isRoot
    cases result
    exact .inl ⟨isRoot, rfl⟩
  · rename_i notRoot
    refine .inr ⟨notRoot, ?_⟩
    split at result
    · rename_i rehomes
      obtain ⟨rehomed, moves, freed⟩ := Option.bind_eq_some_iff.mp result
      apply Deleted.of_free (rehome_switched notRoot moves) _ freed
      intro thread
      simp [ThreadTables.Rehomes, rehomes]
    · rename_i leaves
      apply Deleted.of_free (Switched.refl system deleted (fun _ _ isChosen => isChosen)) _ result
      intro thread
      simp [ThreadTables.Rehomes, leaves]

/-- The source of a move stays, or goes with its last reference. -/
theorem leaveSource_cases (result : system.leaveSource rules tables src = some after) :
    ∃ container left, system.containers src = some container ∧
      system.addRc src (-1) = some left ∧
      ((after = left ∧ (src = system.root ∨ 1 < container.rc ∨
          rules.sparesIdOne = true ∧ container.id = 1)) ∨
        (src ≠ system.root ∧ container.rc ≤ 1 ∧ Deleted rules tables left src after)) := by
  unfold leaveSource at result
  obtain ⟨left, leaves, result⟩ := Option.bind_eq_some_iff.mp result
  obtain ⟨lessened, isLessened, result⟩ := Option.bind_eq_some_iff.mp result
  obtain ⟨container, found, isLeft⟩ := addRc_eq_some.mp leaves
  refine ⟨container, left, found, leaves, ?_⟩
  have isContainer : lessened = { container with rc := container.rc + -1 } := by
    rw [isLeft, store_self] at isLessened
    exact (Option.some.inj isLessened).symm
  have root : left.root = system.root := (addRc_kept leaves).1
  split at result
  · rename_i last
    cases delete_cases result with
    | inl refused => exact .inl ⟨refused.2, .inl (refused.1.trans root)⟩
    | inr deleted =>
      rw [isContainer] at last
      refine .inr ⟨root ▸ deleted.1, ?_, deleted.2⟩
      have none : container.rc + -1 ≤ 0 := last.1
      omega
  · rename_i kept
    cases result
    refine .inl ⟨rfl, .inr ?_⟩
    rw [isContainer] at kept
    by_cases more : 1 < container.rc
    · exact .inl more
    · refine .inr ?_
      by_contra notSpared
      refine kept ⟨?_, fun spared => notSpared ⟨spared.1, spared.2⟩⟩
      show container.rc + -1 ≤ 0
      omega

omit [DecidableEq Thread] in
theorem Deleted.rootLive (gone : Deleted rules tables system deleted after)
    (notRoot : deleted ≠ system.root) (live : system.containers system.root ≠ none) :
    after.containers system.root ≠ none := by
  intro dead
  have same := gone.ids system.root notRoot.symm
  rw [dead] at same
  exact live (Option.map_eq_none_iff.mp same.symm)

/-- An operation that makes no container, keeps the root and changes no
identifier. -/
structure Shrinks (system after : NamespaceSystem Thread) : Prop where
  root : after.root = system.root
  idCounter : after.idCounter = system.idCounter
  ids : ∀ address container, after.containers address = some container →
    ∃ before, system.containers address = some before ∧ container.id = before.id
  rootKept : system.containers system.root ≠ none → after.containers system.root ≠ none

section

omit [DecidableEq Thread]

theorem Shrinks.refl (system : NamespaceSystem Thread) : system.Shrinks system :=
  ⟨rfl, rfl, fun _ container found => ⟨container, found, rfl⟩, fun live => live⟩

theorem Shrinks.trans {last : NamespaceSystem Thread} (first : system.Shrinks after)
    (second : after.Shrinks last) : system.Shrinks last where
  root := second.root.trans first.root
  idCounter := second.idCounter.trans first.idCounter
  ids := by
    intro address container found
    obtain ⟨middle, isMiddle, sameMiddle⟩ := second.ids address container found
    obtain ⟨before, isBefore, sameBefore⟩ := first.ids address middle isMiddle
    exact ⟨before, isBefore, sameMiddle.trans sameBefore⟩
  rootKept live := first.root ▸ second.rootKept (first.root.symm ▸ first.rootKept live)

theorem Shrinks.of_ids (root : after.root = system.root) (idCounter : after.idCounter = system.idCounter)
    (ids : ∀ address, after.containers address ≠ none →
      (after.containers address).map (·.id) = (system.containers address).map (·.id))
    (rootKept : system.containers system.root ≠ none → after.containers system.root ≠ none) :
    system.Shrinks after where
  root := root
  idCounter := idCounter
  ids := by
    intro address container found
    have same := ids address (by simp [found])
    rw [found] at same
    obtain ⟨before, isBefore, sameId⟩ := Option.map_eq_some_iff.mp same.symm
    exact ⟨before, isBefore, sameId.symm⟩
  rootKept := rootKept

theorem addRc_shrinks (result : system.addRc address delta = some after) :
    system.Shrinks after := by
  obtain ⟨root, idCounter, -, ids, -⟩ := addRc_kept result
  apply Shrinks.of_ids root idCounter (fun other _ => ids other)
  intro live dead
  have same := ids system.root
  rw [dead] at same
  exact live (Option.map_eq_none_iff.mp same.symm)

end

theorem setPointer_shrinks (thread : Thread) (address : Nat) :
    system.Shrinks (system.setPointer thread address) :=
  ⟨rfl, rfl, fun _ container found => ⟨container, found, rfl⟩, fun live => live⟩

omit [DecidableEq Thread] in
theorem Deleted.shrinks (gone : Deleted rules tables system deleted after)
    (notRoot : deleted ≠ system.root) : system.Shrinks after := by
  apply Shrinks.of_ids gone.root gone.idCounter
  · intro address live
    apply gone.ids
    intro isDeleted
    exact live (isDeleted ▸ gone.gone)
  · exact gone.rootLive notRoot

omit [DecidableEq Thread] in
theorem Identified.shrinks (identified : system.Identified) (shrinks : system.Shrinks after) :
    after.Identified where
  root := by
    obtain ⟨root, isRoot, one⟩ := identified.root
    obtain ⟨container, found⟩ := Option.ne_none_iff_exists'.mp (shrinks.rootKept (by simp [isRoot]))
    obtain ⟨before, isBefore, same⟩ := shrinks.ids system.root container found
    refine ⟨container, shrinks.root ▸ found, ?_⟩
    rw [isRoot] at isBefore
    cases isBefore
    exact same.trans one
  others := by
    intro address container found notRoot
    obtain ⟨before, isBefore, same⟩ := shrinks.ids address container found
    rw [same]
    exact identified.others address before isBefore (shrinks.root ▸ notRoot)
  counter := shrinks.idCounter.symm ▸ identified.counter

theorem leaveSource_shrinks (result : system.leaveSource rules tables src = some after) :
    system.Shrinks after := by
  obtain ⟨container, left, -, leaves, stays | deleted⟩ := leaveSource_cases result
  · rw [stays.1]
    exact addRc_shrinks leaves
  · have root := (addRc_kept leaves).1
    exact (addRc_shrinks leaves).trans (deleted.2.2.shrinks (root.symm ▸ deleted.1))

theorem move_shrinks (result : system.move rules tables src dest thread = some after) :
    system.Shrinks after := by
  have pointed : system.Shrinks (system.setPointer thread dest) := setPointer_shrinks thread dest
  unfold move at result
  simp only at result
  split at result
  · obtain ⟨counted, counts, leaves⟩ := Option.bind_eq_some_iff.mp result
    exact (pointed.trans (addRc_shrinks counts)).trans (leaveSource_shrinks leaves)
  · obtain ⟨left, leaves, counts⟩ := Option.bind_eq_some_iff.mp result
    exact (pointed.trans (leaveSource_shrinks leaves)).trans (addRc_shrinks counts)

section

omit [DecidableEq Thread]

variable {src : Nat}

theorem points_of_isIn (identified : system.Identified)
    (passes : system.isIn rules thread src = some true) : system.pointer thread = some src := by
  unfold isIn at passes
  split at passes
  · cases passes
  · rename_i own points
    rw [points]
    split at passes
    · rename_i same
      rw [same]
    · rename_i different
      split at passes
      · obtain ⟨srcRecord, isSrc, passes⟩ := Option.bind_eq_some_iff.mp passes
        split at passes
        · rename_i srcOne
          obtain ⟨ownRecord, isOwn, ownOne⟩ := Option.map_eq_some_iff.mp passes
          have srcRoot : src = system.root := by
            by_contra notRoot
            exact identified.others src srcRecord isSrc notRoot srcOne
          have ownRoot : own = system.root := by
            by_contra notRoot
            exact identified.others own ownRecord isOwn notRoot (of_decide_eq_true ownOne)
          rw [srcRoot, ownRoot]
        · cases passes
      · cases passes

theorem isIn_of_points (points : system.pointer thread = some src) :
    system.isIn rules thread src = some true := by
  simp [isIn, points]

theorem isIn_of_not_points (rules : NamespaceRules) (identified : system.Identified)
    (srcLive : system.containers src ≠ none)
    (live : ∀ own, system.pointer thread = some own → system.containers own ≠ none)
    (elsewhere : system.pointer thread ≠ some src) : system.isIn rules thread src = some false := by
  have never : system.isIn rules thread src ≠ some true :=
    fun passes => elsewhere (points_of_isIn identified passes)
  obtain ⟨srcRecord, isSrc⟩ := Option.ne_none_iff_exists'.mp srcLive
  cases points : system.pointer thread with
  | none => simp [isIn, points]
  | some own =>
    obtain ⟨ownRecord, isOwn⟩ := Option.ne_none_iff_exists'.mp (live own points)
    have someTest : ∃ passes, system.isIn rules thread src = some passes := by
      simp only [isIn, points, isSrc, isOwn, Option.bind_some, Option.map_some]
      split
      · exact ⟨_, rfl⟩
      · split
        · split
          · exact ⟨_, rfl⟩
          · exact ⟨_, rfl⟩
        · exact ⟨_, rfl⟩
    obtain ⟨passes, isPasses⟩ := someTest
    cases passes with
    | true => exact absurd isPasses never
    | false => exact isPasses

end

theorem moveTask_cases (identified : system.Identified)
    (result : system.moveTask rules tables srcContainer destContainer task = some after) :
    after = system ∨ ∃ src dest thread, srcContainer = some src ∧ destContainer = some dest ∧
      task = some thread ∧ system.pointer thread = some src ∧
      system.move rules tables src dest thread = some after := by
  unfold moveTask at result
  split at result
  · rename_i src dest thread
    obtain ⟨isIn, passes, result⟩ := Option.bind_eq_some_iff.mp result
    cases isIn with
    | true => exact .inr ⟨src, dest, thread, rfl, rfl, rfl, points_of_isIn identified passes, result⟩
    | false =>
      cases result
      exact .inl rfl
  · cases result
    exact .inl rfl

section

omit [DecidableEq Thread]

theorem exists_addRc (system : NamespaceSystem Thread) (address : Nat)
    (live : system.containers address ≠ none) (delta : Int) :
    ∃ after, system.addRc address delta = some after := by
  obtain ⟨container, found⟩ := Option.ne_none_iff_exists'.mp live
  exact ⟨_, addRc_eq_some.mpr ⟨container, found, rfl⟩⟩

theorem addRc_live_iff (result : system.addRc address delta = some after) (other : Nat) :
    after.containers other = none ↔ system.containers other = none := by
  have same := (addRc_kept result).2.2.2.1 other
  rw [← Option.map_eq_none_iff, same, Option.map_eq_none_iff]

theorem Switched.live_iff {chosen : Thread → Prop} (switched : system.Switched deleted chosen after)
    (other : Nat) : after.containers other = none ↔ system.containers other = none := by
  rw [← Option.map_eq_none_iff, switched.ids other, Option.map_eq_none_iff]

end

theorem exists_switchToRoot (system : NamespaceSystem Thread) (deleted : Nat)
    (rootLive : system.containers system.root ≠ none)
    (live : system.containers deleted ≠ none) (thread : Thread) :
    ∃ after, system.switchToRoot deleted thread = some after := by
  unfold switchToRoot
  split
  · obtain ⟨counted, counts⟩ := exists_addRc (system.setPointer thread system.root)
      system.root rootLive 1
    have deletedLive : counted.containers deleted ≠ none := by
      intro dead
      exact live ((addRc_live_iff counts deleted).mp dead)
    obtain ⟨after, leaves⟩ := exists_addRc counted deleted deletedLive (-1)
    exact ⟨after, Option.bind_eq_some_iff.mpr ⟨counted, counts, leaves⟩⟩
  · exact ⟨system, rfl⟩

theorem exists_rehome (rootLive : system.containers system.root ≠ none)
    (live : system.containers deleted ≠ none) (tables : ThreadTables Thread) :
    ∃ after, system.rehome tables deleted = some after := by
  cases head : tables.threads.head? with
  | none =>
    obtain ⟨after, switches⟩ := exists_switchToRoot system deleted rootLive live tables.executing
    exact ⟨after, rehome_eq_some.mpr ⟨system, by rw [head], switches⟩⟩
  | some thread =>
    obtain ⟨iterated, visits⟩ := exists_switchToRoot system deleted rootLive live thread
    have switched := switchToRoot_switched visits
    obtain ⟨after, switches⟩ := exists_switchToRoot iterated deleted
      (fun dead => rootLive ((switched.live_iff _).mp (switched.root ▸ dead)))
      (fun dead => live ((switched.live_iff deleted).mp dead)) tables.executing
    exact ⟨after, rehome_eq_some.mpr ⟨iterated, by rw [head]; exact visits, switches⟩⟩

omit [DecidableEq Thread] in
private theorem exists_free (system : NamespaceSystem Thread) (address : Nat)
    (live : system.containers address ≠ none) :
    ∃ after, system.free address = some after := by
  obtain ⟨container, found⟩ := Option.ne_none_iff_exists'.mp live
  exact ⟨_, Option.map_eq_some_iff.mpr ⟨container, found, rfl⟩⟩

theorem exists_delete (rootLive : system.containers system.root ≠ none)
    (live : system.containers deleted ≠ none) (rules : NamespaceRules)
    (tables : ThreadTables Thread) :
    ∃ after, system.delete rules tables (some deleted) = some after := by
  unfold delete
  simp only
  split
  · exact ⟨system, rfl⟩
  · rename_i notRoot
    split
    · obtain ⟨rehomed, moves⟩ := exists_rehome rootLive live tables
      have switched := rehome_switched notRoot moves
      obtain ⟨after, frees⟩ := exists_free rehomed deleted
        fun dead => live ((switched.live_iff deleted).mp dead)
      exact ⟨after, Option.bind_eq_some_iff.mpr ⟨rehomed, moves, frees⟩⟩
    · exact exists_free system deleted live

theorem exists_leaveSource (system : NamespaceSystem Thread) (src : Nat)
    (rootLive : system.containers system.root ≠ none)
    (live : system.containers src ≠ none) (rules : NamespaceRules) (tables : ThreadTables Thread) :
    ∃ after, system.leaveSource rules tables src = some after := by
  obtain ⟨left, leaves⟩ := exists_addRc system src live (-1)
  have srcLive : left.containers src ≠ none := fun dead => live ((addRc_live_iff leaves src).mp dead)
  have root := (addRc_kept leaves).1
  obtain ⟨lessened, found⟩ := Option.ne_none_iff_exists'.mp srcLive
  unfold leaveSource
  rw [leaves, Option.bind_some, found, Option.bind_some]
  split
  · apply exists_delete
    · intro dead
      exact rootLive ((addRc_live_iff leaves _).mp (root ▸ dead))
    · exact srcLive
  · exact ⟨left, rfl⟩

theorem leaveSource_frees (identified : system.Identified)
    (result : system.leaveSource rules tables src = some after) :
    ∃ container, system.containers src = some container ∧
      (after.containers src = none ↔ src ≠ system.root ∧ container.rc ≤ 1) ∧
      ∀ other, other ≠ src → (after.containers other = none ↔ system.containers other = none) := by
  obtain ⟨container, left, found, leaves, stays | deleted⟩ := leaveSource_cases result
  · refine ⟨container, found, ?_, ?_⟩
    · rw [stays.1]
      refine iff_of_false ?_ ?_
      · intro dead
        have srcDead := (addRc_live_iff leaves src).mp dead
        rw [found] at srcDead
        cases srcDead
      · intro last
        obtain isRoot | more | spared := stays.2
        · exact last.1 isRoot
        · omega
        · exact identified.others src container found last.1 spared.2
    · intro other _
      rw [stays.1]
      exact addRc_live_iff leaves other
  · obtain ⟨notRoot, last, gone⟩ := deleted
    refine ⟨container, found, iff_of_true gone.gone ⟨notRoot, last⟩, ?_⟩
    intro other different
    rw [← Option.map_eq_none_iff, gone.ids other different, Option.map_eq_none_iff]
    exact addRc_live_iff leaves other

theorem leaveSource_stays (result : system.leaveSource rules tables src = some after)
    (elsewhere : system.pointer thread ≠ some src) :
    after.pointer thread = system.pointer thread := by
  obtain ⟨container, left, -, leaves, stays | deleted⟩ := leaveSource_cases result
  · rw [stays.1, (addRc_kept leaves).2.2.1]
  · have pointer := (addRc_kept leaves).2.2.1
    rw [deleted.2.2.stays thread fun both => elsewhere (pointer ▸ both.1), pointer]

/-- A move redirects its thread; beside that only pointers to the source change. -/
theorem move_stays (result : system.move rules tables src dest thread = some after)
    (elsewhere : (system.setPointer thread dest).pointer other ≠ some src) :
    after.pointer other = (system.setPointer thread dest).pointer other := by
  unfold move at result
  simp only at result
  split at result
  · obtain ⟨counted, counts, leaves⟩ := Option.bind_eq_some_iff.mp result
    have pointer := (addRc_kept counts).2.2.1
    rw [leaveSource_stays leaves (by rw [pointer]; exact elsewhere), pointer]
  · obtain ⟨left, leaves, counts⟩ := Option.bind_eq_some_iff.mp result
    rw [(addRc_kept counts).2.2.1, leaveSource_stays leaves elsewhere]

/-- A move changes the pointer of its thread only. -/
theorem move_pointer (apart : src ≠ dest)
    (result : system.move rules tables src dest thread = some after) :
    after.pointer thread = some dest ∧
      ∀ other, other ≠ thread → system.pointer other ≠ some src →
        after.pointer other = system.pointer other := by
  have pointed : ∀ other, other ≠ thread →
      (system.setPointer thread dest).pointer other = system.pointer other :=
    fun other different => update_of_ne different _ _
  have arrives : (system.setPointer thread dest).pointer thread = some dest :=
    update_self ..
  have notSrc : (some dest : Option Nat) ≠ some src :=
    fun same => apart (Option.some.inj same).symm
  refine ⟨?_, ?_⟩
  · rw [move_stays result (by rw [arrives]; exact notSrc), arrives]
  · intro other different elsewhere
    have stays := pointed other different
    rw [move_stays result (by rw [stays]; exact elsewhere), stays]

theorem move_outside (points : system.pointer thread = some src)
    (result : system.move rules tables src dest thread = some after)
    (outside : system.pointer other = none) : after.pointer other = none := by
  have different : other ≠ thread := by
    intro same
    rw [same, points] at outside
    cases outside
  have stays : (system.setPointer thread dest).pointer other = none :=
    (update_of_ne different _ _).trans outside
  rw [move_stays result (by rw [stays]; exact nofun), stays]

theorem moveTask_outside (identified : system.Identified)
    (result : system.moveTask rules tables srcContainer destContainer task = some after)
    (outside : system.pointer other = none) : after.pointer other = none := by
  obtain rfl | ⟨src, dest, thread, -, -, -, points, moves⟩ := moveTask_cases identified result
  · exact outside
  · exact move_outside points moves outside

theorem moveTask_shrinks (identified : system.Identified)
    (result : system.moveTask rules tables srcContainer destContainer task = some after) :
    system.Shrinks after := by
  obtain rfl | ⟨src, dest, thread, -, -, -, -, moves⟩ := moveTask_cases identified result
  · exact .refl _
  · exact move_shrinks moves

theorem delete_shrinks (result : system.delete rules tables container = some after) :
    system.Shrinks after := by
  cases container with
  | none =>
    cases result
    exact .refl system
  | some deleted =>
    obtain ⟨-, rfl⟩ | ⟨notRoot, gone⟩ := delete_cases result
    · exact .refl _
    · exact gone.shrinks notRoot

theorem delete_outside (result : system.delete rules tables container = some after)
    (outside : system.pointer thread = none) : after.pointer thread = none := by
  cases container with
  | none =>
    cases result
    exact outside
  | some deleted =>
    obtain ⟨-, rfl⟩ | ⟨-, gone⟩ := delete_cases result
    · exact outside
    · exact (gone.stays thread fun both => nomatch outside.symm.trans both.1).trans outside

theorem joinRoot_pointer {joining : Thread} (result : system.joinRoot joining = some after)
    (different : thread ≠ joining) : after.pointer thread = system.pointer thread := by
  obtain ⟨counted, counts, rfl⟩ := Option.map_eq_some_iff.mp result
  rw [← (addRc_kept counts).2.2.1]
  exact update_of_ne different _ _

/-- What `create` does to the containers of its kind. -/
structure Created (system : NamespaceSystem Thread) (address : Nat) (rc : Int)
    (after : NamespaceSystem Thread) : Prop where
  root : after.root = system.root
  idCounter : after.idCounter = system.idCounter + 1
  pointer : after.pointer = system.pointer
  made : after.containers address = some ⟨rc, system.idCounter + 1⟩
  others : ∀ other, other ≠ address → after.containers other = system.containers other
  listHead : after.listHead = system.listHead ∨ after.listHead = address :: system.listHead

section

omit [DecidableEq Thread]

variable {rc : Int}

theorem Created.addToList (created : system.Created address rc after)
    (unlisted : after.listHead = system.listHead) (malloc : Bool) :
    system.Created address rc (after.addToList address malloc) := by
  cases malloc with
  | false => exact created
  | true =>
    have listed : (after.addToList address true).listHead = address :: system.listHead :=
      congrArg (address :: ·) unlisted
    exact ⟨created.root, created.idCounter, created.pointer, created.made, created.others,
      .inr listed⟩

theorem create_created (rules : NamespaceRules) (system : NamespaceSystem Thread) (address : Nat)
    (malloc : Bool) :
    system.Created address rules.initialRc (system.create rules address malloc) := by
  have made : system.Created address rules.initialRc
      ({ system with idCounter := system.idCounter + 1 }.store address
        (some ⟨rules.initialRc, system.idCounter + 1⟩)) :=
    ⟨rfl, rfl, rfl, store_self _, fun other different => store_of_ne different _, .inl rfl⟩
  exact made.addToList rfl malloc

theorem Created.addRc {last : NamespaceSystem Thread} (created : system.Created address rc after)
    (result : after.addRc address delta = some last) :
    system.Created address (rc + delta) last := by
  obtain ⟨root, idCounter, pointer, -, others⟩ := addRc_kept result
  obtain ⟨container, found, isLast⟩ := addRc_eq_some.mp result
  rw [created.made] at found
  cases found
  refine {
    root := root.trans created.root
    idCounter := idCounter.trans created.idCounter
    pointer := pointer.trans created.pointer
    made := ?_
    others := fun other different =>
      (others other different).trans (created.others other different)
    listHead := isLast ▸ created.listHead }
  rw [isLast, store_self]

theorem Identified.created (identified : system.Identified)
    (fresh : system.containers address = none) (created : system.Created address rc after) :
    after.Identified where
  root := by
    obtain ⟨container, found, one⟩ := identified.root
    have different : system.root ≠ address := by
      intro same
      rw [same, fresh] at found
      cases found
    rw [created.root, created.others _ different]
    exact ⟨container, found, one⟩
  others := by
    intro other container found notRoot
    have positive := identified.counter
    by_cases same : other = address
    · subst other
      rw [created.made] at found
      cases found
      show system.idCounter + 1 ≠ 1
      omega
    · rw [created.others other same] at found
      exact identified.others other container found (created.root ▸ notRoot)
  counter := by
    have positive := identified.counter
    rw [created.idCounter]
    omega

end

end NamespaceSystem

end RTContainer.Score
