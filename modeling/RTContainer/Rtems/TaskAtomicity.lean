import RTContainer.Rtems.TaskConstruct
import RTContainer.Score.ContainerProperties

/-! A task that cannot be created has left no trace, except for what the
container object of a new task adds to the root containers: the status of
`_Thread_Initialize` is looked at too late. -/

set_option autoImplicit false

namespace RTContainer.Score

open RTContainer.Rtems

variable {Thread : Type} [DecidableEq Thread]

namespace PidContainer

omit [DecidableEq Thread] in
theorem addTask_eq_self_iff {objectId : Thread → ObjectsId} {container : PidContainer Thread}
    {thread : Thread} {malloc : Bool} :
    container.addTask objectId thread malloc = container ↔
      ¬ container.pidCount < rtemsMaxProcessLimit - 1 := by
  constructor
  · intro same room
    have counted : (container.addTask objectId thread malloc).rc = container.rc + 1 := by
      cases malloc <;> cases free : container.freeVidList <;>
        simp [addTask, takeVid, setSlot, Nat.not_le.mpr room, free]
    rw [same] at counted
    omega
  · intro full
    exact addTask_refused (Nat.not_lt.mp full)

end PidContainer

namespace NamespaceSystem

theorem joinRoot_of_live {system : NamespaceSystem Thread}
    {container : NamespaceContainer} (live : system.containers system.root = some container)
    (thread : Thread) :
    ∃ joined, system.joinRoot thread = some joined ∧ joined.root = system.root ∧
      joined.containers system.root = some { container with rc := container.rc + 1 } := by
  simp [joinRoot, addRc, live, store, setPointer]

end NamespaceSystem

namespace TaskSystem

variable {system after : TaskSystem Thread} {thread : Thread}

/-- The control blocks that are not in use are linked once and are not found by
their identifiers, and the root containers exist. -/
structure Orderly (system : TaskSystem Thread) : Prop where
  nodup : system.linked.Nodup
  closed : ∀ thread ∈ system.linked, system.opened thread = false
  pidRoot : ∃ record, system.pids.containers system.pids.root = some record
  roots : ∀ kind, ∃ container,
    (system.namespaces kind).containers (system.namespaces kind).root = some container

theorem objectsFree_of_unlinked (unlinked : thread ∉ system.linked) :
    system.objectsFree thread = some { system with inactive := system.inactive ++ [thread] } :=
  if_neg unlinked

theorem count_of_unlinked (unlinked : thread ∉ system.linked) :
    (system.inactive ++ [thread]).count thread = 1 := by
  have absent : thread ∉ system.inactive := fun isInactive =>
    unlinked (List.mem_append_left _ isInactive)
  simp [List.count_eq_zero_of_not_mem absent]

theorem objectsFree_of_linked (linked : thread ∈ system.linked) :
    system.objectsFree thread = none :=
  if_pos linked

theorem killZombies_eq {zombies : List Thread} (nodup : (system.inactive ++ zombies).Nodup) :
    killZombies zombies system =
      some { system with inactive := system.inactive ++ zombies, zombies := [] } := by
  induction zombies generalizing system with
  | nil => simp [killZombies]
  | cons thread rest ih =>
    have unlinked : thread ∉ ({ system with zombies := rest } : TaskSystem Thread).linked := by
      have first := (List.nodup_cons.mp (List.nodup_middle.mp nodup)).1
      exact first
    have freed : { system with zombies := rest }.threadFree thread =
        some { system with inactive := system.inactive ++ [thread], zombies := rest } :=
      objectsFree_of_unlinked unlinked
    have later : killZombies rest { system with
        inactive := system.inactive ++ [thread], zombies := rest } =
          some { system with inactive := system.inactive ++ [thread] ++ rest, zombies := [] } :=
      ih (by simpa using nodup)
    simp [killZombies, freed, later]

theorem threadKillZombies_eq (nodup : system.linked.Nodup) :
    system.threadKillZombies = some { system with inactive := system.linked, zombies := [] } :=
  killZombies_eq nodup

/-- The system before any task has been created. -/
def initial (root : Nat) (cgroups : ObjectsId → CoreCgroupControl Thread)
    (configs : Nat → CoreCgroupConfig) (blocks : List Thread) : TaskSystem Thread where
  toUnifiedSystem := UnifiedSystem.initial root cgroups configs
  namespaces := fun kind => NamespaceSystem.initializeRoot kind.rules root
  ioCgroups := IoCgroupSystem.initial
  parts := fun _ => ⟨fun _ => none, none, 0, 0⟩
  inactive := blocks
  zombies := []
  opened := fun _ => false

omit [DecidableEq Thread] in
theorem initial_orderly (root : Nat) (cgroups : ObjectsId → CoreCgroupControl Thread)
    (configs : Nat → CoreCgroupConfig) {blocks : List Thread} (nodup : blocks.Nodup) :
    (initial root cgroups configs blocks).Orderly where
  nodup := by simpa [initial, linked] using nodup
  closed _ _ := rfl
  pidRoot := ⟨PidContainer.initial 1, by
    simp [initial, UnifiedSystem.initial, PidSystem.rtemsPidContainerInitializeRoot]⟩
  roots kind := ⟨⟨kind.rules.rootRc, 1⟩, by simp [initial, NamespaceSystem.initializeRoot]⟩

/-- The state in which `_Thread_Initialize` hands a control block on. -/
def refused (system : TaskSystem Thread) (thread : Thread) : TaskSystem Thread :=
  { (((system.clearControl thread).objectsOpen thread).objectsClose thread) with
    inactive := system.inactive ++ [thread] }

variable {platform : ThreadPlatform} {config : ThreadConfiguration} {userExtensions : Bool}

theorem threadInitialize_accepted (accepts : acceptsThread platform config userExtensions = true) :
    system.threadInitialize platform config thread userExtensions =
      some ((system.clearControl thread).objectsOpen thread, .successful) := by
  simp [threadInitialize, threadTryInitialize, accepts]

theorem threadInitialize_refused (refuses : acceptsThread platform config userExtensions = false)
    (unlinked : thread ∉ system.linked) :
    system.threadInitialize platform config thread userExtensions =
      some (system.refused thread, .unsatisfied) := by
  have freed : (((system.clearControl thread).objectsOpen thread).objectsClose thread).threadFree
      thread = some (system.refused thread) := objectsFree_of_unlinked unlinked
  simp [threadInitialize, threadTryInitialize, refuses, freed]

end TaskSystem

end RTContainer.Score

namespace RTContainer.Rtems

open RTContainer.Score

variable {Thread : Type} [DecidableEq Thread] {names : ObjectNames Thread}
variable {configuration : ContainerConfiguration} {thread : Thread} {pidNode : Bool}

theorem ContainerConfiguration.kinds_nodup (configuration : ContainerConfiguration) :
    configuration.kinds.Nodup :=
  NamespaceKind.all_nodup.filter _

def JoinsRoots (configuration : ContainerConfiguration) (system : ContainerSystem Thread) : Prop :=
  configuration.kinds ≠ [] ∨ configuration.pid = true ∧
    ∃ record, system.pids.containers system.pids.root = some record ∧
      record.pidCount < rtemsMaxProcessLimit - 1

structure SameRoots (before after : ContainerSystem Thread) : Prop where
  pid : after.pids.containers after.pids.root = before.pids.containers before.pids.root
  namespaces : ∀ kind, (after.namespaces kind).containers (after.namespaces kind).root =
    (before.namespaces kind).containers (before.namespaces kind).root

theorem joinRoots_exists (thread : Thread) (kinds : List NamespaceKind)
    (system : ContainerSystem Thread)
    (roots : ∀ kind, ∃ container,
      (system.namespaces kind).containers (system.namespaces kind).root = some container) :
    ∃ joined, ContainerSystem.joinRoots thread kinds system = some joined := by
  rw [ContainerSystem.joinRoots_eq]
  induction kinds generalizing system with
  | nil => exact ⟨system, rfl⟩
  | cons kind rest ih =>
    obtain ⟨container, live⟩ := roots kind
    obtain ⟨next, isNext, sameRoot, counted⟩ := NamespaceSystem.joinRoot_of_live live thread
    have rootsNext : ∀ other, ∃ container,
        ((system.setNamespace kind next).namespaces other).containers
          ((system.setNamespace kind next).namespaces other).root = some container := by
      apply ContainerSystem.setNamespace_holds fun _ namespaces => ∃ container,
        namespaces.containers namespaces.root = some container
      · rw [sameRoot, counted]
        exact ⟨_, rfl⟩
      · exact fun other _ => roots other
    obtain ⟨joined, rests⟩ := ih _ rootsNext
    exact ⟨joined, by simp [ContainerSystem.eachNamespace, isNext, rests]⟩

variable {system joined : ContainerSystem Thread} {before : TaskSystem Thread}

theorem joinRoots_root {kind : NamespaceKind} {container : NamespaceContainer}
    (result : ContainerSystem.joinRoots thread configuration.kinds system = some joined)
    (live : (system.namespaces kind).containers (system.namespaces kind).root = some container) :
    (joined.namespaces kind).containers (joined.namespaces kind).root =
      some (if kind ∈ configuration.kinds then { container with rc := container.rc + 1 }
        else container) := by
  rw [ContainerSystem.joinRoots_eq] at result
  have each := ContainerSystem.eachNamespace_each configuration.kinds_nodup result kind
  by_cases compiled : kind ∈ configuration.kinds
  · obtain ⟨next, isNext, sameRoot, counted⟩ := NamespaceSystem.joinRoot_of_live live thread
    have same := (each.1 compiled).symm.trans isNext
    rw [Option.some.inj same, sameRoot, counted, if_pos compiled]
  · rw [each.2 compiled, live, if_neg compiled]

@[simp] theorem joinRootPid_namespaces {system : ContainerSystem Thread} :
    (joinRootPid names configuration system thread pidNode).namespaces = system.namespaces := by
  cases pid : configuration.pid <;>
    simp [joinRootPid, pid, ContainerSystem.withUnified]

theorem joinRootPid_root {record : PidContainer Thread}
    (live : system.pids.containers system.pids.root = some record) :
    (joinRootPid names configuration system thread pidNode).pids.containers
        (joinRootPid names configuration system thread pidNode).pids.root =
      some (if configuration.pid then record.addTask names.threadId thread pidNode
        else record) := by
  cases pid : configuration.pid <;>
    simp [joinRootPid, pid, ContainerSystem.withUnified, UnifiedSystem.setPidContainer,
      PidSystem.rtemsPidContainerAddTask, live, PidSystem.store]

theorem joinRootContainers_sameRoots_iff
    (pidRoot : ∃ record, system.pids.containers system.pids.root = some record)
    (roots : ∀ kind, ∃ container,
      (system.namespaces kind).containers (system.namespaces kind).root = some container)
    (result : joinRootContainers names configuration system thread pidNode = some joined) :
    SameRoots system joined ↔ ¬ JoinsRoots configuration system := by
  obtain ⟨record, live⟩ := pidRoot
  obtain ⟨middle, joins, isJoined⟩ := Option.map_eq_some_iff.mp result
  subst joined
  have pids : middle.pids = (joinRootPid names configuration system thread pidNode).pids := by
    obtain ⟨namespaces, rfl⟩ := ContainerSystem.joinRoots_only joins
    rfl
  have counts : ∀ kind container,
      (system.namespaces kind).containers (system.namespaces kind).root = some container →
        (middle.namespaces kind).containers (middle.namespaces kind).root =
          some (if kind ∈ configuration.kinds then { container with rc := container.rc + 1 }
            else container) := by
    intro kind container isContainer
    exact joinRoots_root joins (by simpa using isContainer)
  constructor
  · intro same joinsRoots
    obtain compiled | ⟨pid, rootRecord, isRecord, room⟩ := joinsRoots
    · obtain ⟨kind, isKind⟩ := List.exists_mem_of_ne_nil _ compiled
      obtain ⟨container, isContainer⟩ := roots kind
      have counted := (same.namespaces kind).symm.trans (counts kind container isContainer)
      simp only [isContainer, isKind, if_true, Option.some.injEq] at counted
      have counts := congrArg NamespaceContainer.rc counted
      simp at counts
    · have recorded := same.pid
      simp only [pids, joinRootPid_root live, live, pid, if_true, Option.some.injEq] at recorded
      rw [live, Option.some.injEq] at isRecord
      subst rootRecord
      exact PidContainer.addTask_eq_self_iff.mp recorded room
  · intro joinsNothing
    simp only [JoinsRoots, not_or, not_and, not_exists, ne_eq, Decidable.not_not] at joinsNothing
    obtain ⟨noKinds, full⟩ := joinsNothing
    constructor
    · simp only [pids, joinRootPid_root live, live]
      cases pid : configuration.pid with
      | false => rfl
      | true =>
        simp [PidContainer.addTask_refused (Nat.not_lt.mp (full pid record live))]
    · intro kind
      obtain ⟨container, isContainer⟩ := roots kind
      rw [counts kind container isContainer, isContainer, noKinds]
      simp

theorem joinRootContainers_exists (names : ObjectNames Thread)
    (configuration : ContainerConfiguration) (system : ContainerSystem Thread) (thread : Thread)
    (pidNode : Bool)
    (roots : ∀ kind, ∃ container,
      (system.namespaces kind).containers (system.namespaces kind).root = some container) :
    ∃ joined, joinRootContainers names configuration system thread pidNode = some joined := by
  obtain ⟨joined, joins⟩ := joinRoots_exists thread configuration.kinds
    (joinRootPid names configuration system thread pidNode) (by simpa using roots)
  exact ⟨_, Option.map_eq_some_iff.mpr ⟨joined, joins, rfl⟩⟩

/-- A failed create has not changed a root container or the identifiers that are
found, and its control block is linked once. A create that breaks the chain has
no result. -/
def Atomic (before : TaskSystem Thread) (controlBlock : Option Thread) :
    Option (TaskSystem Thread × Except StatusCode ObjectsId) → Prop
  | none => False
  | some (_, .ok _) => True
  | some (after, .error _) =>
    SameRoots before.toContainerSystem after.toContainerSystem ∧
      after.opened = before.opened ∧
      ∀ thread, controlBlock = some thread → after.inactive.count thread = 1

variable {platform : ThreadPlatform} {config : RtemsTaskConfig} {outcomes : TaskOutcomes}
variable {prepareStack : PrepareStack} {system : TaskSystem Thread}

/-- The container object is allocated, and a thread that is not accepted has
been counted by no root container. -/
def ContainersFollow (platform : ThreadPlatform) (configuration : ContainerConfiguration)
    (config : RtemsTaskConfig) (outcomes : TaskOutcomes) (system : ContainerSystem Thread) : Prop :=
  configuration.containers = true → outcomes.container = true ∧
    (TaskSystem.acceptsThread platform (config.threadConfiguration platform)
        outcomes.userExtensions = true ∨ ¬ JoinsRoots configuration system)

section

variable (unlinked : thread ∉ system.linked)
include unlinked

theorem objectsFree_atomic {code : StatusCode}
    (containers : system.toContainerSystem = before.toContainerSystem)
    (opened : system.opened = before.opened) :
    Atomic before (some thread)
      ((system.objectsFree thread).map fun freed => (freed, .error code)) := by
  rw [TaskSystem.objectsFree_of_unlinked unlinked]
  refine ⟨?_, opened, ?_⟩
  · rw [containers]
    exact ⟨rfl, fun _ => rfl⟩
  · intro other isThread
    cases isThread
    exact TaskSystem.count_of_unlinked unlinked

variable (closed : system.opened thread = false)
  (pidRoot : ∃ record, system.pids.containers system.pids.root = some record)
  (roots : ∀ kind, ∃ container,
    (system.namespaces kind).containers (system.namespaces kind).root = some container)
  (containers : system.toContainerSystem = before.toContainerSystem)
  (opened : system.opened = before.opened)
include closed pidRoot roots containers opened

theorem initializeTask_atomic_iff :
    Atomic before (some thread)
        (initializeTask names platform configuration config outcomes system thread) ↔
      ContainersFollow platform configuration config outcomes before.toContainerSystem := by
  rw [← containers]
  unfold ContainersFollow
  cases accepts : TaskSystem.acceptsThread platform (config.threadConfiguration platform)
      outcomes.userExtensions with
  | true =>
    simp only [initializeTask, TaskSystem.threadInitialize_accepted accepts, Option.bind_some]
    by_cases missing : configuration.containers = true ∧ outcomes.container = false
    · -- The identifier of the control block that is given back stays open.
      have linked : ((system.clearControl thread).objectsOpen thread).objectsFree thread =
          some { (system.clearControl thread).objectsOpen thread with
            inactive := system.inactive ++ [thread] } :=
        TaskSystem.objectsFree_of_unlinked unlinked
      simp only [missing, linked, Bool.not_false, and_self, if_true, Option.map_some]
      constructor
      · intro atomic
        have found := congrFun (atomic.2.1.trans opened.symm) thread
        simp [TaskSystem.objectsOpen, closed] at found
      · intro follows
        exact absurd (follows trivial).1 (by simp)
    · have present : configuration.containers = true → outcomes.container = true := by
        simpa using missing
      simp only [Bool.not_eq_true', missing, if_false]
      constructor
      · exact fun _ compiled => ⟨present compiled, .inl trivial⟩
      · intro _
        cases compiled : configuration.containers with
        | false => trivial
        | true =>
          obtain ⟨joined, joins⟩ := joinRootContainers_exists names configuration
            ((system.clearControl thread).objectsOpen thread).toContainerSystem thread
            outcomes.pidNode roots
          simp [joins, Atomic]
  | false =>
    simp only [initializeTask, TaskSystem.threadInitialize_refused accepts unlinked,
      Option.bind_some]
    by_cases missing : configuration.containers = true ∧ outcomes.container = false
    · -- The control block is given back twice.
      have linked : thread ∈ (system.refused thread).linked := by
        simp [TaskSystem.refused, TaskSystem.linked]
      simp only [missing, TaskSystem.objectsFree_of_linked linked, Bool.not_false, and_self,
        if_true, Option.map_none]
      constructor
      · exact False.elim
      · intro follows
        exact absurd (follows trivial).1 (by simp)
    · have present : configuration.containers = true → outcomes.container = true := by
        simpa using missing
      have reopened : (system.refused thread).opened = system.opened := by
        simp [TaskSystem.refused, TaskSystem.objectsOpen, TaskSystem.objectsClose,
          ← closed, TaskSystem.clearControl]
      have counted : (system.refused thread).inactive.count thread = 1 :=
        TaskSystem.count_of_unlinked unlinked
      simp only [Bool.not_eq_true', missing, if_false]
      cases compiled : configuration.containers with
      | false =>
        simp only [Bool.false_eq_true, if_false, Option.map_some, false_imp_iff, iff_true]
        refine ⟨?_, reopened.trans opened, ?_⟩
        · rw [← containers]
          exact ⟨rfl, fun _ => rfl⟩
        · intro other isThread
          cases isThread
          exact counted
      | true =>
        obtain ⟨joined, joins⟩ := joinRootContainers_exists names configuration
          (system.refused thread).toContainerSystem thread outcomes.pidNode roots
        have agrees : SameRoots (system.refused thread).toContainerSystem joined ↔
            ¬ JoinsRoots configuration system.toContainerSystem :=
          joinRootContainers_sameRoots_iff pidRoot roots joins
        simp only [if_true, joins, Option.map_some, present compiled, true_imp_iff,
          Bool.false_eq_true, false_or, true_and, reduceCtorEq, if_false]
        constructor
        · intro atomic
          apply agrees.mp
          have kept := atomic.1
          rw [← containers] at kept
          exact ⟨kept.pid, kept.namespaces⟩
        · intro joinsNothing
          have kept := agrees.mpr joinsNothing
          refine ⟨?_, reopened.trans opened, ?_⟩
          · rw [← containers]
            exact ⟨kept.pid, kept.namespaces⟩
          · intro other isThread
            cases isThread
            exact counted

theorem constructTask_atomic_iff :
    Atomic before (some thread)
        (constructTask names platform configuration config prepareStack outcomes system thread) ↔
      ((config.isGlobal platform = true → outcomes.globalObject = true) →
        prepareStack (config.threadConfiguration platform) config = .successful →
        ContainersFollow platform configuration config outcomes before.toContainerSystem) := by
  unfold constructTask
  split
  · rename_i noObject
    refine ⟨fun _ global => ?_, fun _ => objectsFree_atomic unlinked containers opened⟩
    simp [global noObject.1] at noObject
  · rename_i object
    have global : config.isGlobal platform = true → outcomes.globalObject = true := by
      simpa using object
    split
    · rename_i prepared
      rw [initializeTask_atomic_iff unlinked closed pidRoot roots containers opened]
      exact ⟨fun follows _ _ => follows, fun follows => follows global prepared⟩
    · rename_i failed
      exact ⟨fun _ _ prepared => absurd prepared failed,
        fun _ => objectsFree_atomic unlinked containers opened⟩

end

/-- The control block that a create takes when its arguments are valid: the first
one that is inactive once the zombies are. -/
def controlBlock (platform : ThreadPlatform) (config : RtemsTaskConfig) (id : Bool)
    (system : TaskSystem Thread) : Option Thread :=
  if config.check platform id = .successful then system.linked.head?
  else none

/-- The create gets as far as `_Thread_Initialize`. -/
structure Initializes (platform : ThreadPlatform) (config : RtemsTaskConfig) (id : Bool)
    (prepareStack : PrepareStack) (outcomes : TaskOutcomes) (system : TaskSystem Thread) :
    Prop where
  valid : config.check platform id = .successful
  available : system.linked ≠ []
  globalObject : config.isGlobal platform = true → outcomes.globalObject = true
  stack : prepareStack (config.threadConfiguration platform) config = .successful

/-- The create of a task is atomic exactly when it does not get as far as
`_Thread_Initialize`, or a container object is allocated, where one is compiled
in, and the thread is accepted or counted nowhere. -/
theorem rtemsTasksCreate_atomic_iff (names : ObjectNames Thread) (platform : ThreadPlatform)
    (configuration : ContainerConfiguration) (config : RtemsTaskConfig) (id : Bool)
    (prepareStack : PrepareStack) (outcomes : TaskOutcomes) (system : TaskSystem Thread)
    (orderly : system.Orderly) :
    Atomic system (controlBlock platform config id system)
        (rtemsTasksCreate names platform configuration config id prepareStack outcomes system) ↔
      (Initializes platform config id prepareStack outcomes system →
        ContainersFollow platform configuration config outcomes system.toContainerSystem) := by
  by_cases valid : config.check platform id = .successful
  · simp only [rtemsTasksCreate, controlBlock, valid,
      TaskSystem.threadKillZombies_eq orderly.nodup, Option.bind_some, if_true]
    cases chain : system.linked with
    | nil =>
      have nothing : Atomic system none (some ({ system with inactive := [], zombies := [] },
          .error .tooMany) : Option (TaskSystem Thread × Except StatusCode ObjectsId)) :=
        ⟨⟨rfl, fun _ => rfl⟩, rfl, nofun⟩
      exact ⟨fun _ initializes => absurd chain initializes.available, fun _ => nothing⟩
    | cons thread rest =>
      let taken : TaskSystem Thread := { system with inactive := rest, zombies := [] }
      have unlinked : thread ∉ taken.linked := by
        have nodup := orderly.nodup
        rw [chain] at nodup
        simpa [taken, TaskSystem.linked] using (List.nodup_cons.mp nodup).1
      have closed : system.opened thread = false := orderly.closed thread (by simp [chain])
      have constructs : Atomic system (some thread)
          (constructTask names platform configuration config prepareStack outcomes taken
            thread) ↔ _ :=
        constructTask_atomic_iff unlinked closed orderly.pidRoot orderly.roots rfl rfl
      apply constructs.trans
      constructor
      · exact fun follows initializes => follows initializes.globalObject initializes.stack
      · exact fun follows global prepared =>
          follows ⟨valid, by simp [chain], global, prepared⟩
  · have unchanged : rtemsTasksCreate names platform configuration config id prepareStack outcomes
        system = some (system, .error (config.check platform id)) := by
      unfold rtemsTasksCreate
      split
      · contradiction
      · rfl
    rw [unchanged, controlBlock, if_neg valid]
    exact ⟨fun _ initializes => absurd initializes.valid valid,
      fun _ => ⟨⟨rfl, fun _ => rfl⟩, rfl, nofun⟩⟩

/-- A uniprocessor without floating point registers. -/
def smallPlatform : ThreadPlatform where
  smp := false
  robustThreadDispatch := false
  needsInterProcessorInterrupts := false
  nonPreemptModeSupported := true
  allTasksAreFp := false
  multiprocessing := false
  interruptMask := 0x1#32
  maximumPriority := 255

def allContainers : ContainerConfiguration := ⟨true, fun _ => true⟩

/-- Two control blocks that have not been used yet. -/
def twoBlocks : TaskSystem (Fin 2) :=
  TaskSystem.initial 0 (fun _ => ⟨0, 0, [], 0, 0, 0, false, false, 0, false⟩)
    (fun _ => ⟨0, 0, 0, 0, 0⟩) [0, 1]

def workerConfig : RtemsTaskConfig := ⟨0x574f524b#32, 10, 0, 0⟩

theorem twoBlocks_orderly : twoBlocks.Orderly :=
  TaskSystem.initial_orderly 0 _ _ (by decide)

/-- A task for which there is no stack. -/
theorem stackMissing_atomic :
    Atomic twoBlocks (controlBlock smallPlatform workerConfig true twoBlocks)
      (rtemsTasksCreate twoTaskNames smallPlatform allContainers workerConfig true
        (rtemsTasksAllocateAndPrepareStack false) ⟨true, true, true, true⟩ twoBlocks) := by
  apply (rtemsTasksCreate_atomic_iff twoTaskNames smallPlatform allContainers workerConfig true
    (rtemsTasksAllocateAndPrepareStack false) ⟨true, true, true, true⟩ twoBlocks
    twoBlocks_orderly).mpr
  intro initializes
  exact nomatch initializes.stack

/-- A user extension refuses a task, which the root containers count all the same. -/
theorem refusedTask_counted : ¬ ∀ (names : ObjectNames (Fin 2)) (platform : ThreadPlatform)
    (configuration : ContainerConfiguration) (config : RtemsTaskConfig) (id : Bool)
    (prepareStack : PrepareStack) (outcomes : TaskOutcomes) (system : TaskSystem (Fin 2)),
    system.Orderly → Atomic system (controlBlock platform config id system)
      (rtemsTasksCreate names platform configuration config id prepareStack outcomes system) := by
  intro claim
  have atomic := claim twoTaskNames smallPlatform allContainers workerConfig true
    (rtemsTasksAllocateAndPrepareStack true) ⟨true, false, true, true⟩ twoBlocks twoBlocks_orderly
  have members := congrArg (Option.map PidContainer.threadList) atomic.1.pid
  exact absurd members (by decide)

end RTContainer.Rtems
