import RTContainer.Score.ContainerProperties
import RTContainer.Score.IoCgroupProperties
import RTContainer.Score.UnifiedMembership

/-! A call of `rtems_unified_container_enter` that fails. The parts that come
before the failing one are not undone. -/

set_option autoImplicit false

namespace RTContainer.Score

open RTContainer.Rtems

variable {Thread : Type} [DecidableEq Thread] {names : ObjectNames Thread}

namespace ContainerSystem

variable (system : ContainerSystem Thread)

def threadNamespaces (thread : Thread) : Option (Option Nat × (NamespaceKind → Option Nat)) :=
  if system.hasContainer thread then
    some (system.pids.pidContainer thread, fun kind => (system.namespaces kind).pointer thread)
  else none

/-- What an enter of a thread must leave as it was when it fails. -/
structure Unchanged (system : ContainerSystem Thread) (address : Option Nat) (thread : Thread)
    (after : ContainerSystem Thread) : Prop where
  namespaces : after.threadNamespaces thread = system.threadNamespaces thread
  pids : ∀ container, (after.pids.containers container).map (fun record =>
      (record.rc, record.threadList, record.pidArray)) =
    (system.pids.containers container).map (fun record =>
      (record.rc, record.threadList, record.pidArray))
  references : ∀ kind container, ((after.namespaces kind).containers container).map (·.rc) =
    ((system.namespaces kind).containers container).map (·.rc)
  cgroup : after.cgroups.cgroup = system.cgroups.cgroup ∧
    after.cgroups.isAddedToCgroup = system.cgroups.isAddedToCgroup
  members : ∀ block, (after.cgroups.cgroups block).threads =
      (system.cgroups.cgroups block).threads ∧
    (after.cgroups.cgroups block).threadCount = (system.cgroups.cgroups block).threadCount
  weights : ∀ block, (after.ioCgroups.controls block).threadWeightsChain =
      (system.ioCgroups.controls block).threadWeightsChain ∧
    (after.ioCgroups.controls block).totalWeight = (system.ioCgroups.controls block).totalWeight
  attached : (address.bind after.handles).map (fun handle =>
      (handle.attached, handle.attachedThread)) =
    (address.bind system.handles).map (fun handle => (handle.attached, handle.attachedThread))

def Inside (container : RtemsContainer Thread)
    (parts : ContainerParts) (thread : Thread) (kind : NamespaceKind) : Prop :=
  container.hasNamespace kind = true →
    (system.namespaces kind).pointer thread = parts.namespaces kind

def Unmovable (container : RtemsContainer Thread)
    (parts : ContainerParts) (thread : Thread) (kind : NamespaceKind) : Prop :=
  container.hasNamespace kind = true ∧
    (system.namespaces kind).pointer thread ≠ parts.namespaces kind ∧
    ((system.namespaces kind).pointer thread = none ∨ parts.namespaces kind = none)

/-- Up to the first namespace that the thread cannot be moved to, it is in all of
them; if there is none, `rest` holds. -/
def StaysInside (system : ContainerSystem Thread) (container : RtemsContainer Thread)
    (parts : ContainerParts) (thread : Thread) (rest : Prop) : List NamespaceKind → Prop
  | [] => rest
  | kind :: kinds =>
    system.Unmovable container parts thread kind ∨
      system.Inside container parts thread kind ∧
        system.StaysInside container parts thread rest kinds

/-- An enter is refused, or none of its parts has anything to do before one of
them fails. -/
def Undisturbed (address : Nat)
    (container : RtemsContainer Thread) (thread : Thread) (workspace : Bool) : Prop :=
  container.attached = true ∧ container.attachedThread ≠ some thread ∨
    (container.hasPid = true → system.pids.pidContainer thread = container.pidContainer) ∧
      system.StaysInside container (system.parts address) thread
        (¬ UnifiedSystem.Appends system.cgroups container thread workspace) NamespaceKind.all

/-- A thread that has no container object gets none, and any other thread is left
where it is. -/
def NothingToUndo (address : Option Nat) (thread : Thread)
    (allocations : EnterAllocations) : Prop :=
  ∀ block container, address = some block → system.handles block = some container →
    if system.hasContainer thread then
      system.Undisturbed block container thread allocations.workspace
    else allocations.calloc = false

def enterRest (names : ObjectNames Thread) (system : ContainerSystem Thread) (address : Nat)
    (container : RtemsContainer Thread) (parts : ContainerParts) (thread : Thread)
    (allocations : EnterAllocations) : Option (ContainerSystem Thread × StatusCode) :=
  andThen (system.enterCgroupPart names container thread allocations.workspace) fun joined =>
    andThen (joined.enterIo names container parts thread allocations.ioNode) fun added =>
      some (added.withUnified (added.setHandle address
        (some { container with attached := true, attachedThread := some thread })),
        .successful)

variable {system} {after : ContainerSystem Thread} {container : RtemsContainer Thread}
variable {parts : ContainerParts} {thread : Thread} {tables : ThreadTables Thread}
variable {kinds : List NamespaceKind} {kind : NamespaceKind} {status : StatusCode}

omit [DecidableEq Thread] in
theorem Unchanged.refl (system : ContainerSystem Thread) (address : Option Nat) (thread : Thread) :
    system.Unchanged address thread system where
  namespaces := rfl
  pids _ := rfl
  references _ _ := rfl
  cgroup := ⟨rfl, rfl⟩
  members _ := ⟨rfl, rfl⟩
  weights _ := ⟨rfl, rfl⟩
  attached := rfl

theorem enterNamespaces_others (outside : kind ∉ kinds)
    (result : enterNamespaces container parts thread tables kinds system = some (after, status)) :
    after.namespaces kind = system.namespaces kind := by
  induction kinds generalizing system with
  | nil =>
    cases result
    rfl
  | cons first rest ih =>
    have different : kind ≠ first := fun same => outside (by simp [same])
    have entered : ∀ middle firstStatus,
        system.enterNamespace container parts thread tables first = some (middle, firstStatus) →
          middle.namespaces kind = system.namespaces kind := by
      intro middle firstStatus enters
      obtain ⟨-, rfl, -⟩ | ⟨-, -, moved, -, rfl, -⟩ := enterNamespace_cases enters
      · rw [setNamespace_self]
      · simp [setNamespace, different]
    obtain ⟨enters, -⟩ | ⟨middle, enters, result⟩ := andThen_eq_some.mp result
    · exact entered after status enters
    · have later := ih (fun inside => outside (List.mem_cons_of_mem first inside)) result
      exact later.trans (entered middle _ enters)

theorem enterNamespace_moves
    (result : system.enterNamespace container parts thread tables kind = some (after, status)) :
    (system.Inside container parts thread kind ∧ after = system ∧ status = .successful) ∨
      (system.Unmovable container parts thread kind ∧ after = system ∧ status ≠ .successful) ∨
      (¬ system.Inside container parts thread kind ∧
        ¬ system.Unmovable container parts thread kind ∧
        (after.namespaces kind).pointer thread ≠ (system.namespaces kind).pointer thread) := by
  obtain ⟨inside, rfl, rfl⟩ | ⟨flagged, outside, moved, moves, rfl, rfl⟩ :=
    enterNamespace_cases result
  · exact .inl ⟨inside, setNamespace_self system kind, rfl⟩
  · refine .inr ?_
    cases source : (system.namespaces kind).pointer thread with
    | none =>
      rw [source] at moves
      cases moves
      refine .inl ⟨⟨flagged, outside, .inl source⟩, setNamespace_self system kind, ?_⟩
      simp [outside]
    | some src =>
      cases destination : parts.namespaces kind with
      | none =>
        rw [source, destination] at moves
        cases moves
        refine .inl ⟨⟨flagged, outside, .inr destination⟩, setNamespace_self system kind, ?_⟩
        simp [source]
      | some dest =>
        rw [source, destination] at moves outside
        have apart : src ≠ dest := fun same => outside (congrArg some same)
        simp only [NamespaceSystem.moveTask, NamespaceSystem.isIn_of_points source,
          Option.bind_some, if_true] at moves
        have arrives := (NamespaceSystem.move_pointer apart moves).1
        refine .inr ⟨?_, ?_, ?_⟩
        · intro inside
          have same := inside flagged
          rw [source, destination] at same
          exact outside same
        · intro unmovable
          have missing := unmovable.2.2
          simp [source, destination] at missing
        · simp only [setNamespace, Function.update_self, arrives]
          exact fun same => apart (Option.some.inj same).symm

omit [DecidableEq Thread] in
theorem Inside.not_unmovable (inside : system.Inside container parts thread kind) :
    ¬ system.Unmovable container parts thread kind :=
  fun unmovable => unmovable.2.1 (inside unmovable.1)

theorem enterNamespaces_moves (rest : Prop) (nodup : kinds.Nodup)
    (result : enterNamespaces container parts thread tables kinds system = some (after, status)) :
    (after = system ∧ (system.StaysInside container parts thread rest kinds ↔
        status ≠ .successful ∨ rest)) ∨
      (¬ system.StaysInside container parts thread rest kinds ∧
        ∃ kind, (after.namespaces kind).pointer thread ≠
          (system.namespaces kind).pointer thread) := by
  induction kinds generalizing system with
  | nil =>
    cases result
    exact .inl ⟨rfl, by simp [StaysInside]⟩
  | cons kind kinds ih =>
    obtain ⟨absent, nodupRest⟩ := List.nodup_cons.mp nodup
    obtain ⟨enters, failed⟩ | ⟨middle, enters, rests⟩ := andThen_eq_some.mp result
    · obtain ⟨-, -, succeeded⟩ | ⟨unmovable, same, -⟩ | ⟨outside, movable, moved⟩ :=
        enterNamespace_moves enters
      · exact absurd succeeded failed
      · exact .inl ⟨same, iff_of_true (.inl unmovable) (.inl failed)⟩
      · refine .inr ⟨?_, kind, moved⟩
        simp [StaysInside, outside, movable]
    · obtain ⟨inside, same, -⟩ | ⟨-, -, failed⟩ | ⟨outside, movable, moved⟩ :=
        enterNamespace_moves enters
      · subst same
        have passes : middle.StaysInside container parts thread rest (kind :: kinds) ↔
            middle.StaysInside container parts thread rest kinds := by
          simp [StaysInside, inside, inside.not_unmovable]
        rw [passes]
        exact ih nodupRest rests
      · exact absurd rfl failed
      · refine .inr ⟨?_, kind, ?_⟩
        · simp [StaysInside, outside, movable]
        · rw [enterNamespaces_others absent rests]
          exact moved

variable {allocations : EnterAllocations} {address : Nat}

theorem enterRest_failed
    (result : system.enterRest names address container parts thread allocations =
      some (after, status)) (failed : status ≠ .successful) :
    (after = system ∧
        ¬ UnifiedSystem.Appends system.cgroups container thread allocations.workspace) ∨
      (UnifiedSystem.Appends system.cgroups container thread allocations.workspace ∧
        after.cgroups.isAddedToCgroup thread ≠ system.cgroups.isAddedToCgroup thread) := by
  have joins : ∀ middle first,
      system.enterCgroupPart names container thread allocations.workspace = some (middle, first) →
        (middle = system ∧
            ¬ UnifiedSystem.Appends system.cgroups container thread allocations.workspace) ∨
          (UnifiedSystem.Appends system.cgroups container thread allocations.workspace ∧
            middle.cgroups.isAddedToCgroup thread ≠ system.cgroups.isAddedToCgroup thread) := by
    intro middle first enters
    obtain ⟨⟨unified, _⟩, isUnified, same⟩ := Option.map_eq_some_iff.mp enters
    cases same
    obtain ⟨-, ⟨appends, joined⟩ | ⟨refused, unjoined⟩⟩ := UnifiedSystem.enterCgroup_cases isUnified
    · refine .inr ⟨appends, ?_⟩
      have notAdded := appends.2.1
      simp [withUnified, joined, CgroupSystem.coreCgroupAddThread, notAdded]
    · refine .inl ⟨?_, refused⟩
      obtain ⟨pids, hasContainer, handles⟩ := UnifiedSystem.enterCgroup_same isUnified
      cases unified
      cases pids
      cases hasContainer
      cases handles
      cases unjoined
      rfl
  obtain ⟨enters, -⟩ | ⟨middle, enters, result⟩ := andThen_eq_some.mp result
  · exact joins after status enters
  · obtain ⟨adds, -⟩ | ⟨added, -, result⟩ := andThen_eq_some.mp result
    · have same : after = { middle with ioCgroups := after.ioCgroups } ∧
          after.ioCgroups = middle.ioCgroups := by
        obtain ⟨rfl, -⟩ | ⟨block, -, -, -, rfl, rfl⟩ := enterIo_cases adds
        · exact ⟨rfl, rfl⟩
        · exact ⟨rfl, IoCgroupSystem.addThread_failed failed⟩
      have unchanged : after = middle := by
        rw [same.1, same.2]
      rw [unchanged]
      exact joins middle _ enters
    · cases result
      exact absurd rfl failed

private theorem enterRest_namespaces
    (result : system.enterRest names address container parts thread allocations =
      some (after, status)) : after.namespaces = system.namespaces := by
  obtain ⟨joins, -⟩ | ⟨joined, joins, result⟩ := andThen_eq_some.mp result
  · exact enterCgroupPart_namespaces joins
  · rw [← enterCgroupPart_namespaces joins]
    obtain ⟨adds, -⟩ | ⟨added, adds, result⟩ := andThen_eq_some.mp result
    · exact enterIo_namespaces adds
    · have kept := enterIo_namespaces adds
      cases result
      exact kept

theorem enterAll_failed
    (result : system.enterAll names address container thread tables allocations =
      some (after, status)) (failed : status ≠ .successful) :
    (system.Undisturbed address container thread allocations.workspace ∧ after = system) ∨
      (¬ system.Undisturbed address container thread allocations.workspace ∧
        (after.pids.pidContainer thread ≠ system.pids.pidContainer thread ∨
          (∃ kind, (after.namespaces kind).pointer thread ≠
            (system.namespaces kind).pointer thread) ∨
          after.cgroups.isAddedToCgroup thread ≠ system.cgroups.isAddedToCgroup thread)) := by
  by_cases inUse : container.attached = true ∧ container.attachedThread ≠ some thread
  · refine .inl ⟨.inl inUse, ?_⟩
    simp only [enterAll, if_pos inUse] at result
    cases result
    rfl
  · by_cases inPid : container.hasPid = true →
        system.pids.pidContainer thread = container.pidContainer
    · have pidStays : system.withUnified
          (system.enterPid names container thread allocations.move) = system := by
        unfold UnifiedSystem.enterPid
        split
        · rename_i flagged
          simp [inPid flagged, UnifiedSystem.setPidContainer_self, withUnified]
        · rfl
      have undisturbed : system.Undisturbed address container thread allocations.workspace ↔
          system.StaysInside container (system.parts address) thread
            (¬ UnifiedSystem.Appends system.cgroups container thread allocations.workspace)
            NamespaceKind.all := by
        unfold Undisturbed
        rw [or_iff_right inUse, and_iff_right inPid]
      simp only [enterAll, if_neg inUse, pidStays] at result
      obtain ⟨-, result⟩ := Option.ite_none_left_eq_some.mp result
      rw [undisturbed]
      obtain ⟨enters, -⟩ | ⟨middle, enters, rests⟩ := andThen_eq_some.mp result
      · obtain ⟨same, inside⟩ | ⟨outside, moved⟩ := enterNamespaces_moves
          (¬ UnifiedSystem.Appends system.cgroups container thread allocations.workspace)
          NamespaceKind.all_nodup enters
        · exact .inl ⟨inside.mpr (.inl failed), same⟩
        · exact .inr ⟨outside, .inr (.inl moved)⟩
      · obtain ⟨rfl, inside⟩ | ⟨outside, kind, moved⟩ := enterNamespaces_moves
          (¬ UnifiedSystem.Appends system.cgroups container thread allocations.workspace)
          NamespaceKind.all_nodup enters
        · have inside := inside.trans (or_iff_right fun refused => refused rfl)
          obtain ⟨same, unjoined⟩ | ⟨appends, joined⟩ := enterRest_failed rests failed
          · exact .inl ⟨inside.mpr unjoined, same⟩
          · exact .inr ⟨fun stays => inside.mp stays appends, .inr (.inr joined)⟩
        · refine .inr ⟨outside, .inr (.inl ⟨kind, ?_⟩)⟩
          rw [enterRest_namespaces rests]
          exact moved
    · refine .inr ⟨?_, .inl ?_⟩
      · intro either
        obtain refused | inside := either
        · exact inUse refused
        · exact inPid inside.1
      · obtain ⟨flagged, outside⟩ := Classical.not_imp.mp inPid
        have arrives : after.pids.pidContainer thread = container.pidContainer := by
          refine enterAll_invariant
            (fun state => state.pids.pidContainer thread = container.pidContainer)
            (fun refused => absurd refused inUse) ?entered ?joined (fun _ _ kept => kept)
            (fun _ kept => kept) result
          case entered =>
            intro middle first enters
            obtain ⟨_, rfl⟩ := enterNamespaces_only enters
            simp [withUnified, UnifiedSystem.enterPid, flagged, UnifiedSystem.setPidContainer]
          case joined =>
            intro before unified first kept joins
            rw [← kept]
            exact congrArg (fun pids => pids.pidContainer thread)
              (UnifiedSystem.enterCgroup_same joins).pids
        rw [arrives]
        exact fun same => outside same.symm

/-- An enter that fails leaves everything as it was exactly when there is nothing
to undo. -/
theorem enter_unchanged_iff (names : ObjectNames Thread) (system after : ContainerSystem Thread)
    (address : Option Nat) (task : Option Thread) (tables : ThreadTables Thread)
    (allocations : EnterAllocations) (status : StatusCode)
    (result : system.rtemsUnifiedContainerEnter names address task tables allocations =
      some (after, status)) (failed : status ≠ .successful) :
    system.Unchanged address (task.getD tables.executing) after ↔
      system.NothingToUndo address (task.getD tables.executing) allocations := by
  cases address with
  | none =>
    cases result
    exact iff_of_true (.refl system none _) nofun
  | some block =>
    obtain ⟨container, isContainer, result⟩ := Option.bind_eq_some_iff.mp result
    generalize task.getD tables.executing = thread at result ⊢
    have nothing : system.NothingToUndo (some block) thread allocations ↔
        if system.hasContainer thread then
          system.Undisturbed block container thread allocations.workspace
        else allocations.calloc = false := by
      constructor
      · intro undo
        exact undo block container rfl isContainer
      · intro undo other handle isOther isHandle
        cases isOther
        rw [isContainer] at isHandle
        cases isHandle
        exact undo
    rw [nothing]
    cases has : system.hasContainer thread with
    | true =>
      have ensured : ∀ middle first,
          system.ensureContainer names thread allocations = some (middle, first) →
            middle = system ∧ first = .successful := by
        intro middle first ensures
        obtain ⟨same, ⟨-, succeeded⟩ | ⟨isNew, -⟩⟩ | ⟨isNew, -⟩ := ensureContainer_cases ensures
        · exact ⟨same, succeeded⟩
        · exact nomatch has.symm.trans isNew
        · exact nomatch has.symm.trans isNew
      obtain ⟨ensures, refused⟩ | ⟨middle, ensures, result⟩ := andThen_eq_some.mp result
      · exact absurd (ensured after status ensures).2 refused
      · rw [(ensured middle _ ensures).1] at result
        obtain ⟨undisturbed, rfl⟩ | ⟨disturbed, changed⟩ := enterAll_failed result failed
        · exact iff_of_true (.refl _ _ thread) undisturbed
        · refine iff_of_false ?_ disturbed
          intro unchanged
          have stays := unchanged.namespaces
          simp only [threadNamespaces, enterAll_hasContainer result, has, if_true,
            Option.some.injEq, Prod.mk.injEq] at stays
          obtain moved | ⟨kind, moved⟩ | joined := changed
          · exact moved stays.1
          · exact moved (congrFun stays.2 kind)
          · exact joined (congrFun unchanged.cgroup.2 thread)
    | false =>
      obtain ⟨ensures, refused⟩ | ⟨middle, ensures, result⟩ := andThen_eq_some.mp result
      · obtain ⟨rfl, ⟨has', -⟩ | ⟨-, calloc, -⟩⟩ | ⟨-, -, succeeded, -⟩ :=
          ensureContainer_cases ensures
        · exact nomatch has.symm.trans has'
        · exact iff_of_true (.refl _ _ thread) (by simp [calloc])
        · exact absurd succeeded refused
      · obtain ⟨-, ⟨has', -⟩ | ⟨-, -, refused⟩⟩ | ⟨-, calloc, -, ensured, hasContainer, -, -, joins⟩ :=
          ensureContainer_cases ensures
        · exact nomatch has.symm.trans has'
        · cases refused
        · refine iff_of_false ?_ (by simp [calloc])
          intro unchanged
          have given : after.hasContainer thread = true := by
            rw [enterAll_hasContainer result, (joinRoots_only joins).hasContainer]
            exact (congrFun hasContainer thread).trans (Function.update_self ..)
          have stays := unchanged.namespaces
          simp [threadNamespaces, has, given] at stays

end ContainerSystem

/-- The system after `rtems_container_initialize_root`, before any task has a
container object. -/
def rootNamespaces : ContainerSystem (Fin 2) where
  toUnifiedSystem := bootedSystem
  namespaces := fun kind => NamespaceSystem.initializeRoot kind.rules 0
  ioCgroups := IoCgroupSystem.initial
  parts := fun _ => ⟨fun _ => none, none, 0, 0⟩

/-- Memory for the unified container at address 10 and all its parts. -/
def roomToCreate : CreateAllocations where
  calloc := some 10
  pidContainer := some 11
  pidNode := true
  namespaceContainer := fun kind =>
    match kind with
    | .uts => some 12
    | .mnt => some 13
    | .net => some 14
    | .ipc => some 15
  netGroup := true
  listNode := fun _ => true
  cgroup := some firstCgroupId
  ioManager := true
  ioControl := some 20
  ioBuffer := true
  ticksSinceBoot := 0
  deletion := fun _ => true

def roomToEnter : EnterAllocations := ⟨true, true, fun _ => true, true, true⟩

/-- A unified container with a UTS namespace and an I/O cgroup is created, and
task 0 enters it and leaves it again. -/
def visitedByTask : Option (ContainerSystem (Fin 2)) :=
  (rootNamespaces.rtemsUnifiedContainerCreate twoTaskNames
    (some { rtemsUnifiedContainerConfigInitialize 0 with
      flags := NamespaceKind.uts.flag ||| rtemsUnifiedContainerIo }) 0 ⟨[1, 0], 0⟩
    roomToCreate).bind fun (created, _) =>
      (created.rtemsUnifiedContainerEnter twoTaskNames (some 10) (some 0) ⟨[1, 0], 0⟩
        roomToEnter).bind fun (entered, _) =>
          (entered.rtemsUnifiedContainerLeave twoTaskNames (some 10) (some 0) ⟨[1, 0], 0⟩
            fun _ => true).map Prod.fst

/-- Task 1 is in the container: task 0 is refused and left as it is. -/
theorem refusedEnter_unchanged : ∃ system after : ContainerSystem (Fin 2),
    (visitedByTask.bind fun visited => (visited.rtemsUnifiedContainerEnter twoTaskNames (some 10)
      (some 1) ⟨[1, 0], 0⟩ roomToEnter).map Prod.fst) = some system ∧
    system.rtemsUnifiedContainerEnter twoTaskNames (some 10) (some 0) ⟨[1, 0], 0⟩ roomToEnter =
      some (after, .resourceInUse) ∧
    system.Unchanged (some 10) 0 after := by
  have refused : ((visitedByTask.bind fun visited => (visited.rtemsUnifiedContainerEnter
      twoTaskNames (some 10) (some 1) ⟨[1, 0], 0⟩ roomToEnter).map Prod.fst).bind fun system =>
        (system.rtemsUnifiedContainerEnter twoTaskNames (some 10) (some 0) ⟨[1, 0], 0⟩
          roomToEnter).map fun result => (result.2, system.hasContainer 0,
            (system.handles 10).map fun handle => (handle.attached, handle.attachedThread))) =
      some (.resourceInUse, true, some (true, some 1)) := by
    decide +kernel
  obtain ⟨system, isSystem, result⟩ := Option.bind_eq_some_iff.mp refused
  obtain ⟨⟨after, status⟩, isAfter, same⟩ := Option.map_eq_some_iff.mp result
  simp only [Prod.mk.injEq] at same
  obtain ⟨rfl, has, attached⟩ := same
  refine ⟨system, after, isSystem, isAfter, ?_⟩
  apply (system.enter_unchanged_iff twoTaskNames after (some 10) (some 0) ⟨[1, 0], 0⟩ roomToEnter
    .resourceInUse isAfter (by decide)).mpr
  intro block container isBlock isContainer
  cases isBlock
  rw [isContainer] at attached
  simp only [Option.map_some, Option.some.injEq, Prod.mk.injEq] at attached
  simp only [Option.getD_some, has, if_true]
  exact .inl ⟨attached.1, by simp [attached.2]⟩

/-- There is no memory for the weight of task 0: it has got the UTS namespace of
a container that it is not in. -/
theorem failedEnter_moves :
    ¬ ∀ (names : ObjectNames (Fin 2)) (system after : ContainerSystem (Fin 2))
    (address : Option Nat) (task : Option (Fin 2)) (tables : ThreadTables (Fin 2))
    (allocations : EnterAllocations) (status : StatusCode),
    system.rtemsUnifiedContainerEnter names address task tables allocations =
        some (after, status) →
      status ≠ .successful → system.Unchanged address (task.getD tables.executing) after := by
  intro claim
  have moved : (visitedByTask.bind fun system => (system.rtemsUnifiedContainerEnter twoTaskNames
      (some 10) (some 0) ⟨[1, 0], 0⟩ { roomToEnter with ioNode := false }).map fun result =>
        (result.2, (system.threadNamespaces 0).map fun own => own.2 .uts,
          (result.1.threadNamespaces 0).map fun own => own.2 .uts)) =
      some (.noMemory, some (some 0), some (some 12)) := by
    decide +kernel
  obtain ⟨system, -, result⟩ := Option.bind_eq_some_iff.mp moved
  obtain ⟨⟨after, status⟩, isAfter, same⟩ := Option.map_eq_some_iff.mp result
  simp only [Prod.mk.injEq] at same
  obtain ⟨rfl, before, later⟩ := same
  have unchanged := claim twoTaskNames system after _ _ _ _ _ isAfter (by decide)
  have stays : after.threadNamespaces 0 = system.threadNamespaces 0 := unchanged.namespaces
  rw [stays, before] at later
  cases later

end RTContainer.Score
