import RTContainer.Lib.References
import RTContainer.Score.NamespaceProperties

/-! The references to the containers of one kind: those that are owned, and the
pointers of the threads. -/

set_option autoImplicit false

namespace RTContainer.Score.NamespaceSystem

open References Function

variable {Thread : Type} [Fintype Thread]

/-- The reference count of every container but the root is what is owned of it
and the number of threads that point to it, and no thread points to a container
that is not in the heap. -/
structure Counted (system : NamespaceSystem Thread) (owners : Nat → Int) :
    Prop where
  counted : ∀ address container, system.containers address = some container →
    address ≠ system.root → container.rc = owners address + count system.pointer address
  live : ∀ thread address, system.pointer thread = some address → system.containers address ≠ none

variable [DecidableEq Thread] {rules : NamespaceRules}
variable {system after : NamespaceSystem Thread} {tables : ThreadTables Thread}
variable {address deleted : Nat} {delta : Int} {thread : Thread} {owners : Nat → Int}

section

variable (counted : system.Counted owners)
include counted

omit [DecidableEq Thread] in
theorem Counted.congr {others : Nat → Int}
    (same : ∀ address, address ≠ system.root → system.containers address ≠ none →
      owners address = others address) : system.Counted others where
  counted address container found notRoot := by
    rw [counted.counted address container found notRoot, same address notRoot (by simp [found])]
  live := counted.live

omit [DecidableEq Thread] in
theorem Counted.addRc (result : system.addRc address delta = some after) :
    after.Counted fun other => owners other + if other = address then delta else 0 := by
  obtain ⟨root, -, pointer, ids, others⟩ := addRc_kept result
  obtain ⟨container, found, isAfter⟩ := addRc_eq_some.mp result
  constructor
  case counted =>
    intro other record isRecord notRoot
    rw [root] at notRoot
    rw [pointer]
    by_cases same : other = address
    · subst other
      have before := counted.counted address container found notRoot
      rw [isAfter, store_self] at isRecord
      cases isRecord
      rw [if_pos rfl]
      show container.rc + delta = _
      omega
    · rw [others other same] at isRecord
      rw [if_neg same, Int.add_zero]
      exact counted.counted other record isRecord notRoot
  case live =>
    intro thread other points dead
    rw [pointer] at points
    have alive := counted.live thread other points
    have same := ids other
    rw [dead] at same
    exact alive (Option.map_eq_none_iff.mp same.symm)

theorem Counted.setPointer (thread : Thread) (live : system.containers address ≠ none) :
    (system.setPointer thread address).Counted fun other =>
      owners other + (if system.pointer thread = some other then 1 else 0) -
        if address = other then 1 else 0 := by
  constructor
  case counted =>
    intro other container found notRoot
    have before := counted.counted other container found notRoot
    have moved := count_update system.pointer thread (some address) other
    simp only [Option.some.injEq] at moved
    show container.rc = _ + ((count (update system.pointer thread (some address))
      other : Nat) : Int)
    split at moved
    · rename_i points
      rw [if_pos points]
      split at moved
      · rename_i same
        rw [if_pos same]
        omega
      · rename_i different
        rw [if_neg different]
        omega
    · rename_i elsewhere
      rw [if_neg elsewhere]
      split at moved
      · rename_i same
        rw [if_pos same]
        omega
      · rename_i different
        rw [if_neg different]
        omega
  case live =>
    intro other target points
    change update system.pointer thread (some address) other = some target at points
    by_cases same : other = thread
    · subst other
      rw [update_self] at points
      cases points
      exact live
    · rw [update_of_ne same] at points
      exact counted.live other target points

omit [DecidableEq Thread] in
/-- A deletion keeps the counts if it rehomes every member. -/
theorem Counted.deleted_iff (gone : Deleted rules tables system deleted after)
    (notRoot : deleted ≠ system.root) (rootLive : system.containers system.root ≠ none) :
    after.Counted owners ↔
      ∀ thread, system.pointer thread = some deleted → tables.Rehomes rules thread := by
  constructor
  · intro still thread points
    by_contra stays
    have pointsAfter := (gone.stays thread fun both => stays both.2).trans points
    exact still.live thread deleted pointsAfter gone.gone
  · intro leaves
    have same : ∀ thread address, address ≠ system.root → address ≠ deleted →
        (after.pointer thread = some address ↔ system.pointer thread = some address) := by
      intro thread address notTheRoot notDeleted
      by_cases inside : system.pointer thread = some deleted
      · rw [gone.moved thread inside (leaves thread inside), inside]
        constructor
        · intro isRoot
          exact absurd (Option.some.inj isRoot).symm notTheRoot
        · intro isDeleted
          exact absurd (Option.some.inj isDeleted).symm notDeleted
      · rw [gone.stays thread fun both => inside both.1]
    constructor
    case counted =>
      intro address container found notTheRoot
      rw [gone.root] at notTheRoot
      have notDeleted : address ≠ deleted := by
        intro isDeleted
        rw [isDeleted, gone.gone] at found
        cases found
      rw [gone.others address notDeleted notTheRoot] at found
      have sameCount : count after.pointer address = count system.pointer address := by
        unfold count
        congr 1
        ext thread
        simp [same thread address notTheRoot notDeleted]
      rw [sameCount]
      exact counted.counted address container found notTheRoot
    case live =>
      intro thread address points dead
      by_cases isRoot : address = system.root
      · subst address
        exact gone.rootLive notRoot rootLive dead
      · by_cases isDeleted : address = deleted
        · subst address
          by_cases inside : system.pointer thread = some deleted
          · rw [gone.moved thread inside (leaves thread inside)] at points
            exact isRoot (Option.some.inj points).symm
          · rw [gone.stays thread fun both => inside both.1] at points
            exact inside points
        · rw [gone.others address isDeleted isRoot] at dead
          exact counted.live thread address ((same thread address isRoot isDeleted).mp points) dead

section

variable (identified : system.Identified)
include identified

theorem Counted.leaveSource {src : Nat}
    (owned : src ≠ system.root → 1 ≤ owners src ∨ after.containers src ≠ none)
    (result : system.leaveSource rules tables src = some after) :
    after.Counted fun other => owners other + if other = src then -1 else 0 := by
  obtain ⟨container, left, found, leaves, stays | deleted⟩ := leaveSource_cases result
  · rw [stays.1]
    exact counted.addRc leaves
  · obtain ⟨notRoot, last, gone⟩ := deleted
    obtain ⟨root, -, pointer, -, -⟩ := addRc_kept leaves
    have rootLive : left.containers left.root ≠ none := by
      obtain ⟨container, found, -⟩ := (identified.shrinks (addRc_shrinks leaves)).root
      simp [found]
    refine ((counted.addRc leaves).deleted_iff gone (root.symm ▸ notRoot) rootLive).mpr ?_
    intro thread points
    rw [pointer] at points
    have positive := count_pos points
    have exact := counted.counted src container found notRoot
    cases owned notRoot with
    | inl isOwned => omega
    | inr live => exact absurd gone.gone live

theorem Counted.move {src dest : Nat} (nonneg : ∀ address, 0 ≤ owners address)
    (points : system.pointer thread = some src)
    (result : system.move rules tables src dest thread = some after) : after.Counted owners := by
  unfold NamespaceSystem.move at result
  simp only at result
  have pointedIdentified := identified.shrinks (setPointer_shrinks thread dest)
  have srcOwned := nonneg src
  split at result
  · obtain ⟨ahead, counts, leaves⟩ := Option.bind_eq_some_iff.mp result
    obtain ⟨container, found, -⟩ := addRc_eq_some.mp counts
    have live : system.containers dest ≠ none := by
      rw [show system.containers dest = some container from found]
      simp
    have aheadCounted := (counted.setPointer thread live).addRc counts
    refine (aheadCounted.leaveSource (pointedIdentified.shrinks (addRc_shrinks counts)) ?_
      leaves).congr ?_
    · intro _
      refine .inl ?_
      simp only [points, if_true]
      by_cases same : src = dest
      · subst dest
        simp only [if_true]
        omega
      · simp only [if_neg same, if_neg (Ne.symm same)]
        omega
    · intro address _ _
      simp only [points, Option.some.injEq, eq_comm]
      split <;> split <;> omega
  · obtain ⟨left, leaves, counts⟩ := Option.bind_eq_some_iff.mp result
    obtain ⟨container, found, -⟩ := addRc_eq_some.mp counts
    obtain ⟨before, isBefore, -⟩ := (leaveSource_shrinks leaves).ids dest container found
    have live : system.containers dest ≠ none := by
      rw [show system.containers dest = some before from isBefore]
      simp
    have pointedCounted := counted.setPointer thread live
    refine ((pointedCounted.leaveSource pointedIdentified ?_ leaves).addRc counts).congr ?_
    · intro _
      by_cases same : src = dest
      · subst dest
        exact .inr (by simp [found])
      · refine .inl ?_
        simp only [points, if_true, if_neg (Ne.symm same)]
        omega
    · intro address _ _
      simp only [points, Option.some.injEq, eq_comm]
      split <;> split <;> omega

theorem Counted.moveTask {srcContainer destContainer : Option Nat} {task : Option Thread}
    (nonneg : ∀ address, 0 ≤ owners address)
    (result : system.moveTask rules tables srcContainer destContainer task = some after) :
    after.Counted owners := by
  cases moveTask_cases identified result with
  | inl same => exact same ▸ counted
  | inr moves =>
    obtain ⟨src, dest, thread, -, -, -, points, moves⟩ := moves
    exact counted.move identified nonneg points moves

theorem Counted.joinRoot (outside : system.pointer thread = none)
    (result : system.joinRoot thread = some after) : after.Counted owners := by
  obtain ⟨ahead, counts, rfl⟩ := Option.map_eq_some_iff.mp result
  have root := (addRc_kept counts).1
  have pointer := (addRc_kept counts).2.2.1
  have live : ahead.containers system.root ≠ none := by
    obtain ⟨container, found, -⟩ := (identified.shrinks (addRc_shrinks counts)).root
    rw [root] at found
    simp [found]
  apply ((counted.addRc counts).setPointer thread live).congr
  intro address notRoot _
  have different : address ≠ system.root := root ▸ notRoot
  simp [pointer, outside, different, Ne.symm different]

end

end

/-- A move has a result, and it frees the source exactly when it takes away the
only reference to it. -/
def FreesLast (system : NamespaceSystem Thread) (owners : Nat → Int) (src dest : Nat)
    (thread : Thread) (result : Option (NamespaceSystem Thread)) : Prop :=
  ∃ after, result = some after ∧
    ∀ address, address ≠ system.root → system.containers address ≠ none →
      (after.containers address = none ↔ address = src ∧ src ≠ dest ∧
        system.pointer thread = some src ∧ owners src + count system.pointer src = 1)

def DropsItself (rules : NamespaceRules) (system : NamespaceSystem Thread) (owners : Nat → Int)
    (src dest : Nat) (thread : Thread) : Prop :=
  rules.countsFirst = false ∧ src = dest ∧ src ≠ system.root ∧
    system.pointer thread = some src ∧ owners src + count system.pointer src = 1

section

variable (counted : system.Counted owners)
include counted

omit [DecidableEq Thread] in
theorem Counted.rc_pos {src : Nat} {container : NamespaceContainer}
    (nonneg : ∀ address, 0 ≤ owners address) (points : system.pointer thread = some src)
    (found : system.containers src = some container) (notRoot : src ≠ system.root) :
    container.rc = owners src + count system.pointer src ∧ 1 ≤ container.rc := by
  have exact := counted.counted src container found notRoot
  have positive := count_pos points
  have owned := nonneg src
  exact ⟨exact, by omega⟩

section

variable (identified : system.Identified) (nonneg : ∀ address, 0 ≤ owners address)
include identified nonneg

theorem Counted.moveFirst_frees {src dest : Nat} (points : system.pointer thread = some src)
    (srcLive : system.containers src ≠ none) (destLive : system.containers dest ≠ none)
    (first : rules.countsFirst = true) :
    system.FreesLast owners src dest thread (system.move rules tables src dest thread) := by
  obtain ⟨ahead, counts⟩ := exists_addRc (system.setPointer thread dest) dest destLive 1
  have aheadIdentified := (identified.shrinks (setPointer_shrinks thread dest)).shrinks
    (addRc_shrinks counts)
  have root : ahead.root = system.root := (addRc_kept counts).1
  have live : ∀ other, ahead.containers other = none ↔ system.containers other = none := by
    intro other
    have same := addRc_live_iff counts other
    exact same
  have rootLive : ahead.containers ahead.root ≠ none := by
    obtain ⟨container, found, -⟩ := aheadIdentified.root
    simp [found]
  obtain ⟨after, leaves⟩ := exists_leaveSource ahead src rootLive
    (fun dead => srcLive ((live src).mp dead)) rules tables
  obtain ⟨container, found, frees, others⟩ := leaveSource_frees aheadIdentified leaves
  have moves : system.move rules tables src dest thread = some after := by
    simp [NamespaceSystem.move, first, counts, leaves]
  refine ⟨after, moves, ?_⟩
  intro address notRoot isLive
  by_cases same : address = src
  · subst address
    obtain ⟨before, isBefore, isAhead⟩ := addRc_eq_some.mp counts
    rw [frees, root]
    by_cases self : src = dest
    · subst dest
      rw [isAhead, store_self] at found
      cases found
      have exact := counted.rc_pos nonneg points isBefore notRoot
      refine iff_of_false (fun last => ?_) (fun last => last.2.1 rfl)
      have none : before.rc + 1 ≤ 1 := last.2
      omega
    · rw [isAhead, store_of_ne self] at found
      have exact := counted.rc_pos nonneg points found notRoot
      constructor
      · intro last
        exact ⟨rfl, self, points, by omega⟩
      · intro last
        exact ⟨notRoot, by omega⟩
  · rw [others address same, live]
    exact iff_of_false isLive fun last => same last.1

theorem Counted.moveLast_frees {src dest : Nat} (points : system.pointer thread = some src)
    (srcLive : system.containers src ≠ none) (destLive : system.containers dest ≠ none)
    (last : rules.countsFirst = false) :
    system.FreesLast owners src dest thread (system.move rules tables src dest thread) ↔
      ¬ system.DropsItself rules owners src dest thread := by
  have pointedIdentified := identified.shrinks (setPointer_shrinks thread dest)
  have rootLive : (system.setPointer thread dest).containers
      (system.setPointer thread dest).root ≠ none := by
    obtain ⟨container, found, -⟩ := pointedIdentified.root
    simp [found]
  obtain ⟨left, leaves⟩ := exists_leaveSource (system.setPointer thread dest) src
    rootLive srcLive rules tables
  obtain ⟨container, found, frees, others⟩ := leaveSource_frees pointedIdentified leaves
  have isContainer : system.containers src = some container := found
  have moves : system.move rules tables src dest thread = left.addRc dest 1 := by
    simp [NamespaceSystem.move, last, leaves]
  have drops : left.containers dest = none ↔ system.DropsItself rules owners src dest thread := by
    by_cases self : dest = src
    · subst dest
      rw [frees]
      constructor
      · intro freed
        have exact := counted.rc_pos nonneg points isContainer freed.1
        have atMost := freed.2
        exact ⟨last, rfl, freed.1, points, by omega⟩
      · intro drops
        have exact := counted.rc_pos nonneg points isContainer drops.2.2.1
        have one := drops.2.2.2.2
        exact ⟨drops.2.2.1, by omega⟩
    · rw [others dest self]
      exact iff_of_false destLive fun drops => self drops.2.1.symm
  rw [moves]
  constructor
  · intro freesLast isDropped
    obtain ⟨after, counts, -⟩ := freesLast
    obtain ⟨record, isRecord, -⟩ := addRc_eq_some.mp counts
    rw [drops.mpr isDropped] at isRecord
    cases isRecord
  · intro keeps
    obtain ⟨after, counts⟩ := exists_addRc left dest (fun dead => keeps (drops.mp dead)) 1
    refine ⟨after, counts, ?_⟩
    intro address notRoot isLive
    rw [addRc_live_iff counts]
    by_cases same : address = src
    · subst address
      have exact := counted.rc_pos nonneg points isContainer notRoot
      rw [frees]
      constructor
      · intro freed
        have atMost := freed.2
        refine ⟨rfl, ?_, points, by omega⟩
        intro self
        exact keeps ⟨last, self, notRoot, points, by omega⟩
      · intro only
        exact ⟨notRoot, by omega⟩
    · rw [others address same]
      exact iff_of_false isLive fun only => same only.1

/-- A move frees the source with its last owner unless it drops itself. -/
theorem Counted.moveTask_frees_iff {src dest : Nat} (rules : NamespaceRules)
    (tables : ThreadTables Thread) (thread : Thread) (srcLive : system.containers src ≠ none)
    (destLive : system.containers dest ≠ none) :
    system.FreesLast owners src dest thread
        (system.moveTask rules tables (some src) (some dest) (some thread)) ↔
      ¬ system.DropsItself rules owners src dest thread := by
  by_cases points : system.pointer thread = some src
  · have moves : system.moveTask rules tables (some src) (some dest) (some thread) =
        system.move rules tables src dest thread := by
      simp [NamespaceSystem.moveTask, isIn_of_points points]
    rw [moves]
    cases first : rules.countsFirst with
    | true =>
      refine iff_of_true
        (counted.moveFirst_frees identified nonneg points srcLive destLive first) ?_
      intro drops
      rw [drops.1] at first
      cases first
    | false => exact counted.moveLast_frees identified nonneg points srcLive destLive first
  · refine iff_of_true ⟨system, ?_, ?_⟩ fun drops => points drops.2.2.2.1
    · have outside := isIn_of_not_points rules identified srcLive (counted.live thread) points
      simp [NamespaceSystem.moveTask, outside]
    · intro address _ isLive
      exact iff_of_false isLive fun only => points only.2.2.1

end

omit [DecidableEq Thread] in
theorem Counted.created {rc : Int} {others : Nat → Int} (fresh : system.containers address = none)
    (created : system.Created address rc after) (owned : others address = rc)
    (same : ∀ other, other ≠ address → others other = owners other) : after.Counted others := by
  have unpointed : ∀ thread, system.pointer thread ≠ some address :=
    fun thread points => counted.live thread address points fresh
  constructor
  case counted =>
    intro other container found notRoot
    rw [created.pointer]
    by_cases isNew : other = address
    · subst other
      rw [created.made] at found
      cases found
      rw [owned, count_eq_zero.mpr unpointed]
      simp
    · rw [created.others other isNew] at found
      rw [same other isNew]
      exact counted.counted other container found (created.root ▸ notRoot)
  case live =>
    intro thread other points
    rw [created.pointer] at points
    have different : other ≠ address := fun isNew => unpointed thread (isNew ▸ points)
    rw [created.others other different]
    exact counted.live thread other points

omit [DecidableEq Thread] in
theorem Counted.deletedAgain (identified : system.Identified)
    (unpointed : ∀ thread, system.pointer thread ≠ some deleted)
    (gone : Deleted rules tables system deleted after) (notRoot : deleted ≠ system.root) :
    after.Counted owners := by
  obtain ⟨root, isRoot, -⟩ := identified.root
  refine (counted.deleted_iff gone notRoot (by simp [isRoot])).mpr ?_
  intro thread points
  exact absurd points (unpointed thread)

end

end RTContainer.Score.NamespaceSystem
