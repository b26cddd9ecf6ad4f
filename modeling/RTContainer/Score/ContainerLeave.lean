import RTContainer.Score.ContainerProperties
import RTContainer.Score.UnifiedMembership

/-! What `rtems_unified_container_leave` does to each part of the system. -/

set_option autoImplicit false

namespace RTContainer.Score

open RTContainer.Rtems Function

variable {Thread : Type} [DecidableEq Thread] {names : ObjectNames Thread}

namespace NamespaceSystem

variable {rules : NamespaceRules} {system after : NamespaceSystem Thread}
variable {tables : ThreadTables Thread} {thread other : Thread} {src dest : Nat}

private theorem leaveSource_live (result : system.leaveSource rules tables src = some after)
    (live : after.containers src ≠ none) : system.addRc src (-1) = some after := by
  obtain ⟨container, left, -, leaves, stays | deleted⟩ := leaveSource_cases result
  · rw [leaves, stays.1]
  · exact absurd deleted.2.2.gone live

theorem move_others (result : system.move rules tables src dest thread = some after)
    (live : after.containers src ≠ none) (different : other ≠ thread) :
    after.pointer other = system.pointer other := by
  have pointed : (system.setPointer thread dest).pointer other = system.pointer other :=
    update_of_ne different ..
  unfold move at result
  simp only at result
  split at result
  · obtain ⟨counted, counts, leaves⟩ := Option.bind_eq_some_iff.mp result
    have left := leaveSource_live leaves live
    rw [(addRc_kept left).2.2.1, (addRc_kept counts).2.2.1, pointed]
  · obtain ⟨counted, leaves, counts⟩ := Option.bind_eq_some_iff.mp result
    have stillLive : counted.containers src ≠ none :=
      fun dead => live ((addRc_live_iff counts src).mpr dead)
    have left := leaveSource_live leaves stillLive
    rw [(addRc_kept counts).2.2.1, (addRc_kept left).2.2.1, pointed]

end NamespaceSystem

namespace ContainerSystem

variable {system after : ContainerSystem Thread} {container : RtemsContainer Thread}
variable {parts : ContainerParts} {thread other : Thread} {tables : ThreadTables Thread}
variable {kind : NamespaceKind} {status : StatusCode}

structure Left (names : ObjectNames Thread) (system : ContainerSystem Thread) (address : Nat)
    (container : RtemsContainer Thread) (thread : Thread) (tables : ThreadTables Thread)
    (malloc : Nat → Bool) (after : ContainerSystem Thread) : Prop where
  pids : after.pids = (system.leavePid names container thread malloc).pids
  namespaces : ∀ kind, leaveStep container (system.parts address) thread tables kind
    (system.namespaces kind) = some (after.namespaces kind)
  cgroups : ∃ before removed status, before.cgroups = system.cgroups ∧
    UnifiedSystem.leaveCgroup names before container thread = some (removed, status) ∧
    after.cgroups = removed.cgroups
  ioCgroups : ∃ before gone status, before.ioCgroups = system.ioCgroups ∧
    leaveIo names before container (system.parts address) thread = some (gone, status) ∧
    after.ioCgroups = gone.ioCgroups
  parts : after.parts = system.parts
  handles : after.handles = if container.attachedThread = some thread then
      update system.handles address
        (some { container with attached := false, attachedThread := none })
    else system.handles

theorem leaveStep_cases {namespaces moved : NamespaceSystem Thread} {own : Nat}
    (isOwn : parts.namespaces kind = some own)
    (result : leaveStep container parts thread tables kind namespaces = some moved) :
    (container.hasNamespace kind = true ∧ namespaces.pointer thread = some own ∧
        namespaces.move kind.rules tables own namespaces.root thread = some moved) ∨
      (¬ (container.hasNamespace kind = true ∧ namespaces.pointer thread = some own) ∧
        moved = namespaces) := by
  unfold leaveStep at result
  rw [isOwn] at result
  split at result
  · rename_i inside
    simp only [NamespaceSystem.moveTask, NamespaceSystem.isIn_of_points inside.2,
      Option.bind_some, if_true] at result
    exact .inl ⟨inside.1, inside.2, result⟩
  · rename_i outside
    cases result
    exact .inr ⟨outside, rfl⟩

theorem leaveAll_left {address : Nat} {malloc : Nat → Bool}
    (result : system.leaveAll names address container thread tables malloc =
      some (after, status)) : system.Left names address container thread tables malloc after := by
  obtain ⟨-, result⟩ := Option.ite_none_left_eq_some.mp result
  obtain ⟨left, leaves, result⟩ := Option.bind_eq_some_iff.mp result
  obtain ⟨⟨removed, cgroupStatus⟩, removes, result⟩ := Option.bind_eq_some_iff.mp result
  obtain ⟨⟨gone, ioStatus⟩, goes, same⟩ := Option.map_eq_some_iff.mp result
  obtain ⟨pidCgroups, pidHandles⟩ :=
    UnifiedSystem.leavePid_cgroups names system.toUnifiedSystem container thread malloc
  have each := fun kind => by
    rw [leaveNamespaces_eq] at leaves
    exact (eachNamespace_each NamespaceKind.all_nodup leaves kind).1 kind.mem_all
  obtain ⟨namespaces, rfl⟩ := leaveNamespaces_only leaves
  obtain ⟨sameNamespaces, sameUnified, sameParts⟩ := leaveIo_frame goes
  have removedSame := UnifiedSystem.leaveCgroup_same removes
  have pids : gone.pids = (system.leavePid names container thread malloc).pids :=
    (congrArg UnifiedSystem.pids sameUnified).trans removedSame.pids
  have handles : gone.handles = system.handles :=
    ((congrArg UnifiedSystem.handles sameUnified).trans removedSame.handles).trans pidHandles
  have cgroups : gone.cgroups = removed.cgroups := congrArg UnifiedSystem.cgroups sameUnified
  have gives : ∀ handles', after = gone.withUnified { gone.toUnifiedSystem with
      handles := handles' } → handles' = (if container.attachedThread = some thread then
        update system.handles address
          (some { container with attached := false, attachedThread := none })
      else system.handles) → system.Left names address container thread tables malloc after := by
    intro handles' isAfter isHandles
    subst isAfter
    exact {
      pids := pids
      namespaces := fun kind => sameNamespaces ▸ each kind
      cgroups := ⟨_, removed, cgroupStatus, pidCgroups, removes, cgroups⟩
      ioCgroups := by
        refine ⟨_, gone, ioStatus, ?_, goes, rfl⟩
        rfl
      parts := sameParts
      handles := isHandles }
  cases same
  by_cases attached : container.attachedThread = some thread
  · simp only [if_pos attached] at gives ⊢
    refine gives _ rfl ?_
    rw [handles]
  · simp only [if_neg attached] at gives ⊢
    exact gives gone.handles rfl handles

end ContainerSystem

end RTContainer.Score
