import RTContainer.Score.ContainerProperties
import RTContainer.Score.NamespaceReferences

/-! The threads that the `delete` of a kind moves to the root, and the reference
count of the root. -/

set_option autoImplicit false

namespace RTContainer.Score

open RTContainer.Rtems References Function

variable {Thread : Type} [DecidableEq Thread]

namespace NamespaceSystem

variable {rules : NamespaceRules} {system after : NamespaceSystem Thread}
variable {tables : ThreadTables Thread} {deleted : Nat} {thread : Thread}

def rootRc (system : NamespaceSystem Thread) : Option Int :=
  (system.containers system.root).map (·.rc)

theorem delete_redirects (notRoot : deleted ≠ system.root)
    (result : system.delete rules tables (some deleted) = some after) :
    system.containers deleted ≠ none ∧
      Redirects system.pointer after.pointer deleted system.root (tables.Rehomes rules) := by
  obtain ⟨isRoot, -⟩ | ⟨-, gone⟩ := delete_cases result
  · exact absurd isRoot notRoot
  · exact ⟨gone.wasLive, gone.moved, gone.stays⟩

variable [Fintype Thread]

/-- Every thread of the deleted container has been moved to the root, which has
been given a reference for each. -/
structure Rehomed (system : NamespaceSystem Thread) (deleted : Nat)
    (after : NamespaceSystem Thread) : Prop where
  moved : ∀ thread, after.pointer thread ≠ some deleted ∧
    (system.pointer thread = some deleted → after.pointer thread = some system.root)
  counted : after.rootRc = system.rootRc.map (· + (count system.pointer deleted : Int))

theorem switchToRoot_rootRc (notRoot : deleted ≠ system.root)
    (result : system.switchToRoot deleted thread = some after) :
    after.rootRc.map (· + (count after.pointer deleted : Int)) =
      system.rootRc.map (· + (count system.pointer deleted : Int)) := by
  unfold switchToRoot at result
  split at result
  · rename_i points
    obtain ⟨counted, first, second⟩ := Option.bind_eq_some_iff.mp result
    obtain ⟨root, found, isCounted⟩ := addRc_eq_some.mp first
    obtain ⟨sameRoot, -, pointer, -, others⟩ := addRc_kept second
    have before : system.rootRc = some root.rc :=
      congrArg (Option.map NamespaceContainer.rc) found
    have isRoot : counted.root = system.root := by
      rw [isCounted]
      rfl
    have later : after.rootRc = some (root.rc + 1) := by
      unfold rootRc
      rw [sameRoot, isRoot, others system.root notRoot.symm, isCounted]
      exact congrArg (Option.map NamespaceContainer.rc) (store_self _)
    have redirected : after.pointer = update system.pointer thread (some system.root) := by
      rw [pointer, isCounted]
      rfl
    have counts := count_update system.pointer thread (some system.root) deleted
    have elsewhere : some system.root ≠ some deleted := fun same =>
      notRoot (Option.some.inj same).symm
    rw [if_pos points, if_neg elsewhere] at counts
    rw [later, before, redirected]
    simp only [Option.map_some, Option.some.injEq]
    omega
  · cases result
    rfl

private theorem rehome_rootRc (notRoot : deleted ≠ system.root)
    (result : system.rehome tables deleted = some after) :
    after.rootRc.map (· + (count after.pointer deleted : Int)) =
      system.rootRc.map (· + (count system.pointer deleted : Int)) := by
  obtain ⟨iterated, first, second⟩ := rehome_eq_some.mp result
  cases head : tables.threads.head? with
  | none =>
    rw [head] at first
    cases first
    exact switchToRoot_rootRc notRoot second
  | some thread =>
    rw [head] at first
    have root := (switchToRoot_switched first).root
    exact (switchToRoot_rootRc (root ▸ notRoot) second).trans (switchToRoot_rootRc notRoot first)

theorem delete_rootRc (notRoot : deleted ≠ system.root)
    (result : system.delete rules tables (some deleted) = some after) :
    after.rootRc.map (· + (count after.pointer deleted : Int)) =
      system.rootRc.map (· + (count system.pointer deleted : Int)) := by
  have freed : ∀ before : NamespaceSystem Thread, deleted ≠ before.root →
      before.free deleted = some after → after.rootRc = before.rootRc ∧
        after.pointer = before.pointer := by
    intro before apart frees
    obtain ⟨_, -, rfl⟩ := Option.map_eq_some_iff.mp frees
    exact ⟨congrArg (Option.map NamespaceContainer.rc) (store_of_ne apart.symm _), rfl⟩
  simp only [delete, if_neg notRoot] at result
  split at result
  · obtain ⟨rehomed, moves, frees⟩ := Option.bind_eq_some_iff.mp result
    have root := (rehome_switched notRoot moves).root
    obtain ⟨rootRc, pointer⟩ := freed rehomed (root ▸ notRoot) frees
    rw [rootRc, pointer]
    exact rehome_rootRc notRoot moves
  · obtain ⟨rootRc, pointer⟩ := freed system notRoot result
    rw [rootRc, pointer]

end NamespaceSystem

open NamespaceSystem

/-- The `delete` of a kind takes every thread out of the container exactly when
they are the first thread of the object tables and the executing one, and it is
not the `delete` of the IPC containers. -/
theorem containerDelete_rehomed_iff [Fintype Thread] (kind : NamespaceKind)
    (system : NamespaceSystem Thread) (tables : ThreadTables Thread) (deleted : Nat)
    (notRoot : deleted ≠ system.root) (rootLive : system.containers system.root ≠ none)
    (live : system.containers deleted ≠ none) :
    ∃ after, kind.containerDelete system tables (some deleted) = some after ∧
      (system.Rehomed deleted after ↔
        ∀ thread, system.pointer thread = some deleted → tables.Rehomes kind.rules thread) := by
  obtain ⟨after, deletes⟩ := exists_delete rootLive live kind.rules tables
  refine ⟨after, (NamespaceKind.containerDelete_eq ..).trans deletes, ?_⟩
  have released := (delete_redirects notRoot deletes).2.released_iff notRoot
  constructor
  · intro rehomed
    exact released.mp rehomed.moved
  · intro rehomes
    have moved := released.mpr rehomes
    refine ⟨moved, ?_⟩
    have empty : count after.pointer deleted = 0 := count_eq_zero.mpr fun thread => (moved thread).1
    have rootRc := delete_rootRc notRoot deletes
    rw [empty] at rootRc
    rw [← rootRc]
    simp

/-- Task 0, which is the first of the tables, and the executing task 2 are in a UTS
container. -/
def twoOfThree : NamespaceSystem (Fin 3) where
  root := 0
  containers := update (update (fun _ => none) 0 (some ⟨1, 1⟩)) 5 (some ⟨2, 2⟩)
  listHead := [5]
  idCounter := 2
  pointer := fun task => if task = 1 then some 0 else some 5

theorem twoOfThree_rehomed : ∃ after,
    NamespaceKind.uts.containerDelete twoOfThree ⟨[0, 1, 2], 2⟩ (some 5) = some after ∧
      twoOfThree.Rehomed 5 after := by
  obtain ⟨after, deletes, rehomed⟩ := containerDelete_rehomed_iff .uts twoOfThree ⟨[0, 1, 2], 2⟩ 5
    (by decide) (by decide) (by decide)
  exact ⟨after, deletes, rehomed.mpr (by decide)⟩

/-- Task 1 executes: task 2 is behind the first task of the tables and keeps its
pointer. -/
theorem secondTask_dangles : ¬ ∀ (kind : NamespaceKind) (system : NamespaceSystem (Fin 3))
    (tables : ThreadTables (Fin 3)) (deleted : Nat), deleted ≠ system.root →
      system.containers system.root ≠ none → system.containers deleted ≠ none →
        (∀ thread, system.pointer thread = some deleted → thread ∈ tables.threads) →
          ∃ after, kind.containerDelete system tables (some deleted) = some after ∧
            system.Rehomed deleted after := by
  intro claim
  obtain ⟨after, deletes, rehomed⟩ := claim .uts twoOfThree ⟨[0, 1, 2], 1⟩ 5 (by decide) (by decide)
    (by decide) (by decide)
  have stays : (NamespaceKind.uts.containerDelete twoOfThree ⟨[0, 1, 2], 1⟩ (some 5)).map
      (fun deleted => deleted.pointer 2) = some (some 5) := by
    decide
  rw [deletes] at stays
  exact (rehomed.moved 2).1 (Option.some.inj stays)

end RTContainer.Score
