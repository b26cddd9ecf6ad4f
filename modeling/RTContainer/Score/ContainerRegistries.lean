import RTContainer.Lib.Registry
import RTContainer.Score.ContainerProperties
import RTContainer.Score.IoLimits

/-! The lists in which the kinds keep their containers. A list holds containers from the heap
only, each one once, and the root is never freed. -/

set_option autoImplicit false

namespace RTContainer.Score

open RTContainer.Rtems

variable {Thread : Type}

namespace NamespaceSystem

/-- The list of a kind and its root. -/
abbrev Registered (system : NamespaceSystem Thread) : Prop :=
  Registry.Rooted system.containers system.root system.listHead

variable {rules : NamespaceRules} {system after : NamespaceSystem Thread}
variable {tables : ThreadTables Thread} {address deleted : Nat} {delta : Int} {thread : Thread}

theorem Registered.addRc (registered : system.Registered)
    (result : system.addRc address delta = some after) : after.Registered := by
  have live := addRc_live_iff result
  obtain ⟨container, -, rfl⟩ := addRc_eq_some.mp result
  exact registered.imp fun other found => (live other).not.mpr found

theorem Registered.created {rc : Int} (registered : system.Registered)
    (fresh : system.containers address = none) (created : system.Created address rc after) :
    after.Registered := by
  have made : after.containers address ≠ none := by
    rw [created.made]
    exact Option.some_ne_none _
  have entered := Registry.Rooted.enter registered fresh made created.others created.listHead
  rw [← created.root] at entered
  exact entered

variable [DecidableEq Thread]

section

variable (registered : system.Registered)
include registered

theorem Registered.setPointer (thread : Thread) (address : Nat) :
    (system.setPointer thread address).Registered := registered

theorem Registered.joinRoot (result : system.joinRoot thread = some after) : after.Registered := by
  obtain ⟨counted, counts, rfl⟩ := Option.map_eq_some_iff.mp result
  exact (registered.addRc counts).setPointer thread system.root

theorem Registered.switchToRoot (result : system.switchToRoot deleted thread = some after) :
    after.Registered := by
  unfold NamespaceSystem.switchToRoot at result
  split at result
  · obtain ⟨counted, first, second⟩ := Option.bind_eq_some_iff.mp result
    exact ((registered.setPointer thread system.root).addRc first).addRc second
  · cases result
    exact registered

theorem Registered.rehome (result : system.rehome tables deleted = some after) :
    after.Registered := by
  obtain ⟨iterated, first, second⟩ := rehome_eq_some.mp result
  suffices visited : iterated.Registered from visited.switchToRoot second
  split at first
  · cases first
    exact registered
  · exact registered.switchToRoot first

theorem Registered.delete {container : Option Nat}
    (result : system.delete rules tables container = some after) : after.Registered := by
  have frees : ∀ {before : NamespaceSystem Thread} {deleted : Nat}, before.Registered →
      deleted ≠ before.root → before.free deleted = some after → after.Registered := by
    intro before deleted kept notRoot freed
    obtain ⟨container, -, rfl⟩ := Option.map_eq_some_iff.mp freed
    apply Registry.Rooted.free kept notRoot
    intro other different live
    rw [store_of_ne different]
    exact live
  unfold NamespaceSystem.delete at result
  split at result
  · cases result
    exact registered
  · rename_i deleted
    split at result
    · cases result
      exact registered
    · rename_i notRoot
      split at result
      · obtain ⟨rehomed, moves, freed⟩ := Option.bind_eq_some_iff.mp result
        have root := (rehome_switched notRoot moves).root
        exact frees (registered.rehome moves) (root ▸ notRoot) freed
      · exact frees registered notRoot result

theorem Registered.leaveSource {src : Nat}
    (result : system.leaveSource rules tables src = some after) : after.Registered := by
  obtain ⟨left, leaves, result⟩ := Option.bind_eq_some_iff.mp result
  obtain ⟨container, -, result⟩ := Option.bind_eq_some_iff.mp result
  split at result
  · exact (registered.addRc leaves).delete result
  · cases result
    exact registered.addRc leaves

theorem Registered.moveTask {src dest : Option Nat} {task : Option Thread}
    (result : system.moveTask rules tables src dest task = some after) : after.Registered := by
  unfold NamespaceSystem.moveTask at result
  split at result
  · rename_i src dest thread
    obtain ⟨isIn, -, result⟩ := Option.bind_eq_some_iff.mp result
    have pointed := registered.setPointer thread dest
    cases isIn with
    | false =>
      cases result
      exact registered
    | true =>
      rw [if_pos rfl, move] at result
      split at result
      · obtain ⟨counted, counts, left⟩ := Option.bind_eq_some_iff.mp result
        exact (pointed.addRc counts).leaveSource left
      · obtain ⟨left, leaves, counted⟩ := Option.bind_eq_some_iff.mp result
        exact (pointed.leaveSource leaves).addRc counted
  · cases result
    exact registered

end

/-- A deleted container leaves the list. -/
theorem delete_listHead (notRoot : deleted ≠ system.root)
    (result : system.delete rules tables (some deleted) = some after) :
    after.listHead = system.listHead.erase deleted := by
  have frees : ∀ {before : NamespaceSystem Thread}, before.listHead = system.listHead →
      before.free deleted = some after → after.listHead = system.listHead.erase deleted := by
    intro before same freed
    obtain ⟨container, -, rfl⟩ := Option.map_eq_some_iff.mp freed
    exact congrArg (List.erase · deleted) same
  have switches : ∀ {before switched : NamespaceSystem Thread} {thread : Thread},
      before.switchToRoot deleted thread = some switched → switched.listHead = before.listHead := by
    intro before switched thread switching
    unfold NamespaceSystem.switchToRoot at switching
    split at switching
    · obtain ⟨counted, first, second⟩ := Option.bind_eq_some_iff.mp switching
      obtain ⟨_, -, rfl⟩ := addRc_eq_some.mp first
      obtain ⟨_, -, rfl⟩ := addRc_eq_some.mp second
      rfl
    · cases switching
      rfl
  simp only [NamespaceSystem.delete, if_neg notRoot] at result
  split at result
  · obtain ⟨rehomed, moves, freed⟩ := Option.bind_eq_some_iff.mp result
    obtain ⟨iterated, first, second⟩ := rehome_eq_some.mp moves
    refine frees ?_ freed
    rw [switches second]
    split at first
    · cases first
      rfl
    · exact switches first
  · exact frees rfl result

end NamespaceSystem

namespace PidSystem

/-- The registry of the PID containers and their root. -/
abbrev Registered (system : PidSystem Thread) : Prop :=
  Registry.Rooted system.containers system.root system.registry

variable {objectId : Thread → ObjectsId} {system : PidSystem Thread} {address : Nat}

section

variable (registered : system.Registered)
include registered

theorem Registered.store (record : PidContainer Thread) :
    (system.store address (some record)).Registered := by
  apply registered.imp
  intro other live
  rcases eq_or_ne other address with rfl | different
  · rw [store_same]
    exact Option.some_ne_none _
  · rw [store_other _ _ different]
    exact live

theorem Registered.create (fresh : system.containers address = none) (malloc : Bool) :
    (system.rtemsPidContainerCreate (some address) malloc).Registered := by
  let record : PidContainer Thread := PidContainer.initial (system.pidContainerId + 1)
  have made : (system.store address (some record)).containers address ≠ none := by
    rw [store_same]
    exact Option.some_ne_none _
  have others : ∀ other, other ≠ address →
      (system.store address (some record)).containers other = system.containers other :=
    fun other different => store_other system _ different
  cases malloc with
  | false => exact registered.enter fresh made others (.inl rfl)
  | true => exact registered.enter fresh made others (.inr rfl)

theorem Registered.addTask (container : Option Nat) (thread : Option Thread) (malloc : Bool) :
    (system.rtemsPidContainerAddTask objectId container thread malloc).Registered := by
  unfold rtemsPidContainerAddTask
  split
  · split
    · exact registered.store _
    · exact registered
  · exact registered

theorem Registered.incRc (container : Option Nat) :
    (system.rtemsPidContainerIncRc container).Registered := by
  unfold rtemsPidContainerIncRc
  split
  · exact registered
  · split
    · exact registered.store _
    · exact registered

end

variable [DecidableEq Thread]

section

variable (registered : system.Registered)
include registered

theorem Registered.redirect (thread : Thread) (old new : Nat) :
    (system.redirect thread old new).Registered := by
  rw [redirect_eq]
  exact registered

theorem Registered.delete (container : Option Nat) (malloc : Nat → Bool) :
    (system.rtemsPidContainerDelete objectId container malloc).Registered := by
  rcases container with _ | deleted
  · exact registered
  have live := Option.ne_none_iff_exists'.mp registered.rootLive
  refine delete_induction registered live fun root record notRoot rootLive found => ?_
  rw [rtemsPidContainerDelete_eq notRoot rootLive found]
  apply Registry.Rooted.free registered notRoot
  intro other different live
  show ((system.store deleted none).store system.root _).containers other ≠ none
  rcases eq_or_ne other system.root with rfl | apart
  · rw [store_same]
    exact Option.some_ne_none _
  · rw [store_other _ _ apart, store_other _ _ different]
    exact live

theorem Registered.removeTask (container : Option Nat) (thread : Option Thread)
    (malloc : Nat → Bool) :
    (system.rtemsPidContainerRemoveTask objectId container thread malloc).Registered := by
  unfold rtemsPidContainerRemoveTask
  split
  · split
    · exact registered
    · split
      · exact (registered.store _).delete _ _
      · exact registered.store _
  · exact registered

theorem Registered.moveTask (src dest : Option Nat) (thread : Option Thread) (malloc : Nat → Bool) :
    (system.rtemsPidContainerMoveTask objectId src dest thread malloc).Registered := by
  unfold rtemsPidContainerMoveTask
  split
  · split
    · exact registered
    · split
      · split
        · exact registered
        · split
          · exact (((registered.store _).store _).redirect _ _ _).delete _ _
          · exact ((registered.store _).store _).redirect _ _ _
      · exact registered
  · exact registered

end

end PidSystem

theorem PidCall.step_registered {objectId : Thread → ObjectsId} [DecidableEq Thread]
    {system : PidSystem Thread} {call : PidCall Thread} (registered : system.Registered)
    (wellFormed : call.WellFormed system) : (call.step objectId system).Registered := by
  cases call with
  | create address malloc =>
    cases address with
    | none => exact registered
    | some container => exact registered.create (wellFormed container rfl) malloc
  | addTask container thread malloc => exact registered.addTask container thread malloc
  | removeTask container thread malloc => exact registered.removeTask container thread malloc
  | moveTask src dest thread malloc => exact registered.moveTask src dest thread malloc
  | delete container malloc => exact registered.delete container malloc
  | incRc container => exact registered.incRc container

/-- What a create relies on of `malloc` and of the allocators of the objects: what they return
is not in use, and an object identifier is not 0. -/
structure CreateAllocations.Fresh (allocations : CreateAllocations)
    (system : ContainerSystem Thread) : Prop where
  pidContainer : ∀ address, allocations.pidContainer = some address →
    system.pids.containers address = none
  namespaceContainer : ∀ kind address, allocations.namespaceContainer kind = some address →
    (system.namespaces kind).containers address = none
  cgroup : ∀ id, allocations.cgroup = some id → id ≠ 0
  ioControl : ∀ block, allocations.ioControl = some block → block ∉ system.ioCgroups.allocated

namespace ContainerSystem

structure Listed (system : ContainerSystem Thread) : Prop where
  pids : system.pids.Registered
  ioCgroups : system.ioCgroups.Enlisted

structure Registered (system : ContainerSystem Thread) : Prop extends Listed system where
  namespaces : ∀ kind, (system.namespaces kind).Registered

variable {system after : ContainerSystem Thread} {names : ObjectNames Thread}
variable {thread : Thread} {container : RtemsContainer Thread} {parts : ContainerParts}
variable {status : StatusCode} {tables : ThreadTables Thread}

section

variable (listed : system.Listed)
include listed

theorem Listed.only (only : system.OnlyNamespaces after) : after.Listed := by
  obtain ⟨namespaces, rfl⟩ := only
  exact ⟨listed.pids, listed.ioCgroups⟩

theorem Listed.withUnified {unified : UnifiedSystem Thread} (pids : unified.pids.Registered) :
    (system.withUnified unified).Listed :=
  ⟨pids, listed.ioCgroups⟩

theorem Listed.withIo {ioCgroups : IoCgroupSystem} (enlisted : ioCgroups.Enlisted) :
    ({ system with ioCgroups := ioCgroups } : ContainerSystem Thread).Listed :=
  ⟨listed.pids, enlisted⟩

theorem Listed.leaveIo
    (result : system.leaveIo names container parts thread = some (after, status)) :
    after.Listed := by
  unfold ContainerSystem.leaveIo at result
  split at result
  · split at result
    · cases result
      exact listed
    · rename_i block _
      have removes : (IoCgroupCall.removeThread (some block)
          (some (names.threadId thread))).Effect system.ioCgroups :=
        IoCgroupCall.removeThread_effect listed.ioCgroups _
      split at result
      · cases result
        exact listed.withIo removes.enlisted
      · cases result
  · cases result
    exact listed

theorem Listed.deleteIo (result : system.deleteIo parts = some after) : after.Listed := by
  unfold ContainerSystem.deleteIo at result
  simp only at result
  generalize (if parts.ioCgroup = none ∧ parts.ioCgroupId ≠ 0 then
    system.ioCgroups.rtemsIoCgroupGetById parts.ioCgroupId else parts.ioCgroup) = ioCgroup at result
  cases ioCgroup with
  | none =>
    cases result
    exact listed
  | some block =>
    simp only at result
    split at result
    · rename_i allocated
      cases result
      exact listed.withIo (IoCgroupCall.delete_effect listed.ioCgroups allocated).enlisted
    · cases result

end

variable [DecidableEq Thread]

theorem ensureThreadContainer_registered (registered : system.pids.Registered)
    (thread : Thread) (calloc pidNode : Bool) :
    (system.ensureThreadContainer names thread calloc pidNode).1.pids.Registered := by
  unfold UnifiedSystem.ensureThreadContainer
  split
  · exact registered
  · split
    · exact registered
    · exact registered.addTask (some system.pids.root) (some thread) pidNode

theorem enterPid_registered (registered : system.pids.Registered) (malloc : Nat → Bool) :
    (system.enterPid names container thread malloc).pids.Registered := by
  unfold UnifiedSystem.enterPid
  split
  · simp only
    split
    · exact registered
    · exact registered.moveTask _ _ (some thread) malloc
  · exact registered

private theorem leavePid_registered (registered : system.pids.Registered) (malloc : Nat → Bool) :
    (system.leavePid names container thread malloc).pids.Registered := by
  unfold UnifiedSystem.leavePid
  split
  · exact registered.moveTask _ _ (some thread) malloc
  · exact registered

section

variable (listed : system.Listed)
include listed

/-- An enter loses no registered container. -/
theorem Listed.enter {address : Option Nat} {task : Option Thread} {allocations : EnterAllocations}
    (result : system.rtemsUnifiedContainerEnter names address task tables allocations =
      some (after, status)) : after.Listed := by
  unfold rtemsUnifiedContainerEnter at result
  rcases address with _ | address
  · cases result
    exact listed
  obtain ⟨container, -, result⟩ := Option.bind_eq_some_iff.mp result
  have ensured : ∀ middle first, system.ensureContainer names (task.getD tables.executing)
      allocations = some (middle, first) → middle.Listed := by
    intro middle first ensures
    have registered : (system.toUnifiedSystem.ensureThreadContainer names
        (task.getD tables.executing) allocations.calloc allocations.pidNode).1.pids.Registered :=
      ensureThreadContainer_registered listed.pids _ _ _
    have pids := listed.withUnified registered
    unfold ContainerSystem.ensureContainer at ensures
    simp only at ensures
    split at ensures
    · cases ensures
      exact pids
    · obtain ⟨joined, joins, same⟩ := Option.map_eq_some_iff.mp ensures
      cases same
      exact pids.only (joinRoots_only joins)
  obtain ⟨ensures, -⟩ | ⟨middle, ensures, result⟩ := andThen_eq_some.mp result
  · exact ensured after status ensures
  have ready := ensured middle _ ensures
  refine enterAll_invariant Listed (fun _ => ready) ?entered ?joined ?added
    (fun _ kept => ⟨kept.pids, kept.ioCgroups⟩) result
  case entered =>
    intro inside first enters
    exact (ready.withUnified (enterPid_registered ready.pids _)).only (enterNamespaces_only enters)
  case joined =>
    intro before unified first kept joins
    apply kept.withUnified
    rw [(UnifiedSystem.enterCgroup_same joins).pids]
    exact kept.pids
  case added =>
    intro before block kept
    exact kept.withIo (IoCgroupCall.addThread_effect kept.ioCgroups _ _ _).enlisted

variable {address : Option Nat} {malloc : Nat → Bool}

theorem Listed.leave {task : Option Thread}
    (result : system.rtemsUnifiedContainerLeave names address task tables malloc =
      some (after, status)) : after.Listed := by
  unfold rtemsUnifiedContainerLeave at result
  rcases address with _ | address
  · cases result
    exact listed
  obtain ⟨container, -, result⟩ := Option.bind_eq_some_iff.mp result
  simp only at result
  split at result
  · cases result
    exact listed
  obtain ⟨-, result⟩ := Option.ite_none_left_eq_some.mp result
  obtain ⟨left, leaves, result⟩ := Option.bind_eq_some_iff.mp result
  obtain ⟨⟨removed, cgroupStatus⟩, removes, result⟩ := Option.bind_eq_some_iff.mp result
  obtain ⟨⟨gone, ioStatus⟩, goes, same⟩ := Option.map_eq_some_iff.mp result
  have inside := (listed.withUnified (leavePid_registered listed.pids malloc)).only
    (leaveNamespaces_only leaves)
  have outside : (left.withUnified removed).Listed := by
    apply inside.withUnified
    rw [(UnifiedSystem.leaveCgroup_same removes).pids]
    exact inside.pids
  have last := outside.leaveIo goes
  cases same
  split
  · exact ⟨last.pids, last.ioCgroups⟩
  · exact last

theorem Listed.releaseAll {address : Nat} {first : StatusCode}
    (result : system.releaseAll names address container parts first tables malloc =
      some (after, status)) : after.Listed := by
  have released : (system.withUnified
      (system.release names address container first malloc).1).Listed :=
    listed.withUnified (listed.pids.delete container.pidContainer malloc)
  obtain ⟨deleted, isDeleted, result⟩ :=
    Option.bind_eq_some_iff.mp (releaseAll_released result)
  obtain ⟨last, isLast, same⟩ := Option.map_eq_some_iff.mp result
  cases same
  exact (released.deleteIo isDeleted).only (deleteNamespaces_only isLast)

theorem Listed.delete {leaveMalloc : Nat → Bool}
    (result : system.rtemsUnifiedContainerDelete names address tables leaveMalloc malloc =
      some (after, status)) : after.Listed := by
  unfold rtemsUnifiedContainerDelete at result
  rcases address with _ | address
  · cases result
    exact listed
  obtain ⟨container, -, result⟩ := Option.bind_eq_some_iff.mp result
  split at result
  · obtain ⟨⟨left, first⟩, leaves, result⟩ := Option.bind_eq_some_iff.mp result
    exact (listed.leave leaves).releaseAll result
  · exact listed.releaseAll result

end

end ContainerSystem

end RTContainer.Score
