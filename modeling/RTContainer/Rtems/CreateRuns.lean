import RTContainer.Rtems.TaskRuns
import RTContainer.Score.ContainerCreate

/-! Whatever the tasks and the containers have been through, a create of a unified container
that fails changes no registry. -/

set_option autoImplicit false

namespace RTContainer.Rtems

open RTContainer.Score Machine

variable {Thread : Type} [DecidableEq Thread] {names : ObjectNames Thread}
variable {system after : TaskSystem Thread} {thread : Thread}

section Tasks

theorem objectsFree_containers
    (result : system.objectsFree thread = some after) :
    after.toContainerSystem = system.toContainerSystem := by
  unfold TaskSystem.objectsFree at result
  split at result
  · cases result
  · cases result
    rfl

theorem killZombies_containers {zombies : List Thread}
    (result : TaskSystem.killZombies zombies system = some after) :
    after.toContainerSystem = system.toContainerSystem := by
  induction zombies generalizing system with
  | nil =>
    cases result
    rfl
  | cons thread rest ih =>
    obtain ⟨freed, frees, result⟩ := Option.bind_eq_some_iff.mp result
    have kept := objectsFree_containers (frees : TaskSystem.objectsFree _ thread = some freed)
    exact (ih result).trans kept

variable {platform : ThreadPlatform} {configuration : ContainerConfiguration}
variable {config : RtemsTaskConfig} {prepareStack : PrepareStack} {outcomes : TaskOutcomes}
variable {outcome : Except StatusCode ObjectsId}

theorem threadInitialize_registered {config : ThreadConfiguration} {userExtensions : Bool}
    {status : StatusCode} (registered : system.toContainerSystem.Registered)
    (result : system.threadInitialize platform config thread userExtensions =
      some (after, status)) : after.toContainerSystem.Registered := by
  have cleared : ((system.clearControl thread).objectsOpen thread).toContainerSystem.Registered :=
    ⟨⟨registered.pids, registered.ioCgroups⟩, registered.namespaces⟩
  cases accepts : TaskSystem.acceptsThread platform config userExtensions with
  | true =>
    rw [TaskSystem.threadInitialize_accepted accepts] at result
    cases result
    exact cleared
  | false =>
    simp only [TaskSystem.threadInitialize, TaskSystem.threadTryInitialize, accepts] at result
    obtain ⟨freed, frees, same⟩ := Option.map_eq_some_iff.mp result
    cases same
    rw [objectsFree_containers (frees : TaskSystem.objectsFree _ thread = some _)]
    exact cleared

theorem joinRootContainers_registered {pidNode : Bool} {containers joined : ContainerSystem Thread}
    (registered : containers.Registered)
    (result : joinRootContainers names configuration containers thread pidNode = some joined) :
    joined.Registered := by
  have pids : (joinRootPid names configuration containers thread pidNode).Listed := by
    unfold joinRootPid
    split
    · exact registered.toListed.withUnified (registered.pids.addTask _ (some thread) pidNode)
    · exact registered.toListed
  obtain ⟨middle, joins, rfl⟩ := Option.map_eq_some_iff.mp result
  have listed := pids.only (ContainerSystem.joinRoots_only joins)
  rw [ContainerSystem.joinRoots_eq] at joins
  have namespaces : ∀ kind, (middle.namespaces kind).Registered := by
    refine ContainerSystem.eachNamespace_holds ?_ (fun _ _ _ kept joining => kept.joinRoot joining)
      joins
    rw [joinRootPid_namespaces]
    exact registered.namespaces
  exact ⟨⟨listed.pids, listed.ioCgroups⟩, namespaces⟩

theorem constructTask_registered (registered : system.toContainerSystem.Registered)
    (result : constructTask names platform configuration config prepareStack outcomes system thread =
      some (after, outcome)) : after.toContainerSystem.Registered := by
  have frees : ∀ {before : TaskSystem Thread} {error : StatusCode},
      before.toContainerSystem.Registered →
        ((before.objectsFree thread).map fun freed => (freed, Except.error error)) =
          some (after, outcome) → after.toContainerSystem.Registered := by
    intro before error kept freed
    obtain ⟨_, isFreed, same⟩ := Option.map_eq_some_iff.mp freed
    cases same
    rw [objectsFree_containers isFreed]
    exact kept
  unfold constructTask at result
  split at result
  · exact frees registered result
  · split at result
    · obtain ⟨⟨initialized, status⟩, initializes, result⟩ := Option.bind_eq_some_iff.mp result
      have ready := threadInitialize_registered registered initializes
      simp only at result
      split at result
      · exact frees ready result
      · obtain ⟨joined, joins, same⟩ := Option.map_eq_some_iff.mp result
        cases same
        split at joins
        · obtain ⟨containers, isJoined, rfl⟩ := Option.map_eq_some_iff.mp joins
          exact joinRootContainers_registered ready isJoined
        · cases joins
          exact ready
    · exact frees registered result

theorem rtemsTasksCreate_registered {id : Bool} (registered : system.toContainerSystem.Registered)
    (result : rtemsTasksCreate names platform configuration config id prepareStack outcomes system =
      some (after, outcome)) : after.toContainerSystem.Registered := by
  unfold rtemsTasksCreate at result
  split at result
  · obtain ⟨killed, kills, result⟩ := Option.bind_eq_some_iff.mp result
    have remains := killZombies_containers kills
    cases chain : killed.inactive with
    | nil =>
      simp only [TaskSystem.objectsGetInactive, chain] at result
      cases result
      rw [remains]
      exact registered
    | cons thread rest =>
      simp only [TaskSystem.objectsGetInactive, chain] at result
      have taken : ({ killed with inactive := rest } :
          TaskSystem Thread).toContainerSystem.Registered := by
        show killed.toContainerSystem.Registered
        rw [remains]
        exact registered
      exact constructTask_registered taken result
  · cases result
    exact registered

end Tasks

namespace TaskCall

/-- The memory and the objects that a call is given are not in use, and the pointers that it
passes are `NULL` or live. -/
def Fresh (system : ContainerSystem Thread) : TaskCall Thread → Prop
  | .containers call =>
    call.Possible system ∧
      match call with
      | .unifiedCreate _ _ _ allocations => allocations.Fresh system
      | _ => True
  | .pid call => call.WellFormed system.pids
  | .io call => call.Possible system.ioCgroups
  | _ => True

def FreshIn (state : Option (TaskSystem Thread)) (call : TaskCall Thread) : Prop :=
  ∀ system, state = some system → call.Fresh system.toContainerSystem

variable {containers : ContainerSystem Thread} {call : TaskCall Thread}

theorem performContainers_registered {performed : ContainerSystem Thread}
    (registered : containers.Registered) (fresh : call.Fresh containers)
    (result : call.performContainers names containers = some performed) :
    performed.Registered := by
  cases call with
  | containers call =>
    have namespaces := NamespaceLedger.perform_holds (fun _ => NamespaceSystem.Registered) fresh.1
      registered.namespaces registered.namespaces
      (fun kind _ _ _ unused created => (registered.namespaces kind).created unused created)
      (fun _ _ _ _ _ _ kind _ joins => (registered.namespaces kind).joinRoot joins)
      (fun _ _ _ _ _ _ _ kept moves => kept.moveTask moves)
      (fun _ _ _ _ _ kept deletes => kept.delete deletes) result
    refine ⟨?_, namespaces⟩
    cases call with
    | create kind address group malloc =>
      cases result
      exact ⟨registered.pids, registered.ioCgroups⟩
    | moveTask kind tables src dest thread =>
      obtain ⟨moved, -, rfl⟩ := Option.map_eq_some_iff.mp result
      exact ⟨registered.pids, registered.ioCgroups⟩
    | delete kind tables container =>
      obtain ⟨deleted, -, rfl⟩ := Option.map_eq_some_iff.mp result
      exact ⟨registered.pids, registered.ioCgroups⟩
    | unifiedCreate config defaultCgroupConfig tables allocations =>
      obtain ⟨⟨created, outcome⟩, creates, rfl⟩ := Option.map_eq_some_iff.mp result
      exact (registered.create fresh.2 creates).toListed
    | unifiedEnter container thread tables allocations =>
      obtain ⟨⟨entered, status⟩, enters, rfl⟩ := Option.map_eq_some_iff.mp result
      exact registered.toListed.enter enters
    | unifiedLeave container thread tables malloc =>
      obtain ⟨⟨left, status⟩, leaves, rfl⟩ := Option.map_eq_some_iff.mp result
      exact registered.toListed.leave leaves
  | unifiedDelete container tables leaveMalloc malloc =>
    obtain ⟨⟨deleted, status⟩, deletes, rfl⟩ := Option.map_eq_some_iff.mp result
    exact ⟨registered.toListed.delete deletes,
      ContainerSystem.delete_holds (fun _ => NamespaceSystem.Registered) registered.namespaces
        (fun _ _ _ _ _ _ kept moves => kept.moveTask moves)
        (fun _ _ _ _ kept gone => kept.delete gone) deletes⟩
  | pid call =>
    cases result
    exact ⟨⟨PidCall.step_registered registered.pids fresh, registered.ioCgroups⟩,
      registered.namespaces⟩
  | io call =>
    cases result
    exact ⟨⟨registered.pids, (fresh.effect registered.ioCgroups).enlisted⟩, registered.namespaces⟩
  | cgroupAddTask | cgroupRemoveTask =>
    obtain ⟨⟨cgroups, status⟩, -, rfl⟩ := Option.map_eq_some_iff.mp result
    exact ⟨⟨registered.pids, registered.ioCgroups⟩, registered.namespaces⟩
  | cgroupCreate | cgroupDelete | create | makeZombie | killZombies =>
    cases result
    exact ⟨⟨registered.pids, registered.ioCgroups⟩, registered.namespaces⟩

theorem perform_registered (registered : system.toContainerSystem.Registered)
    (fresh : call.Fresh system.toContainerSystem)
    (result : call.perform names system = some after) : after.toContainerSystem.Registered := by
  cases call with
  | create platform config id prepareStack outcomes =>
    obtain ⟨⟨created, outcome⟩, creates, rfl⟩ := Option.map_eq_some_iff.mp result
    exact rtemsTasksCreate_registered registered creates
  | makeZombie thread =>
    rw [perform, TaskSystem.threadMakeZombie] at result
    split at result
    · cases result
    · cases result
      exact ⟨⟨registered.pids, registered.ioCgroups⟩, registered.namespaces⟩
  | killZombies =>
    rw [killZombies_containers result]
    exact registered
  | containers | unifiedDelete | pid | io | cgroupCreate | cgroupAddTask | cgroupRemoveTask
  | cgroupDelete =>
    rw [perform_onContainers rfl] at result
    obtain ⟨performed, performs, rfl⟩ := Option.map_eq_some_iff.mp result
    exact performContainers_registered registered fresh performs

omit [DecidableEq Thread] in
theorem initial_registered (root : Nat) (cgroups : ObjectsId → CoreCgroupControl Thread)
    (configs : Nat → CoreCgroupConfig) (blocks : List Thread) :
    (TaskSystem.initial root cgroups configs blocks).toContainerSystem.Registered where
  pids := ⟨by simp [TaskSystem.initial, UnifiedSystem.initial,
    PidSystem.rtemsPidContainerInitializeRoot], .empty _⟩
  ioCgroups := rfl
  namespaces kind := ⟨by simp [TaskSystem.initial, NamespaceSystem.initializeRoot], .empty _⟩

end TaskCall

/-- The I/O cgroup of a container without a weight cannot be created. -/
def weightlessConfig : RtemsContainerConfig where
  flags := rtemsUnifiedContainerAll
  cgroupConfig := 0
  ioSystemReadBps := 0
  ioSystemWriteBps := 0
  ioReadBpsLimit := 100
  ioWriteBpsLimit := 100
  ioWindowSizeMs := 1000
  ioWeight := 0
  ioThreadWeight := 1

def roomToCreate : CreateAllocations where
  calloc := some 9
  pidContainer := some 10
  pidNode := true
  namespaceContainer := fun _ => some 10
  netGroup := true
  listNode := fun _ => true
  cgroup := some 1
  ioManager := true
  ioControl := some 11
  ioBuffer := true
  ticksSinceBoot := 0
  deletion := fun _ => true

end RTContainer.Rtems
