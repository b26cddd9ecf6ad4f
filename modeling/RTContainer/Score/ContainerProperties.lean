import RTContainer.Score.Container
import RTContainer.Score.NamespaceProperties
import RTContainer.Score.UnifiedPointers

/-! What the operations on unified containers do to the namespaces: rules for
what every `move_task` and every `delete` of a kind preserves. -/

set_option autoImplicit false

namespace RTContainer.Score

open RTContainer.Rtems Function

variable {State : Type} {result : Option (State × StatusCode)}
variable {next : State → Option (State × StatusCode)}

theorem andThen_eq_some {after : State} {status : StatusCode} :
    andThen result next = some (after, status) ↔
      (result = some (after, status) ∧ status ≠ .successful) ∨
        ∃ middle, result = some (middle, .successful) ∧ next middle = some (after, status) := by
  constructor
  · intro done
    obtain ⟨⟨middle, first⟩, isMiddle, rest⟩ := Option.bind_eq_some_iff.mp done
    by_cases succeeded : first = .successful
    · subst first
      exact .inr ⟨middle, isMiddle, by simpa using rest⟩
    · simp only [if_neg succeeded] at rest
      cases rest
      exact .inl ⟨isMiddle, succeeded⟩
  · intro done
    obtain ⟨isResult, failed⟩ | ⟨middle, isMiddle, rest⟩ := done
    · simp [andThen, isResult, failed]
    · simp [andThen, isMiddle, rest]

theorem exists_andThen (first : ∃ ended, result = some ended)
    (rest : ∀ middle, ∃ ended, next middle = some ended) :
    ∃ ended, andThen result next = some ended := by
  obtain ⟨⟨middle, status⟩, isMiddle⟩ := first
  rcases eq_or_ne status .successful with rfl | failed
  · obtain ⟨⟨last, final⟩, isLast⟩ := rest middle
    exact ⟨_, andThen_eq_some.mpr (.inr ⟨middle, isMiddle, isLast⟩)⟩
  · exact ⟨_, andThen_eq_some.mpr (.inl ⟨isMiddle, failed⟩)⟩

variable {Thread : Type} [DecidableEq Thread] {names : ObjectNames Thread}

namespace NamespaceKind

@[simp] theorem containerMoveTask_eq (kind : NamespaceKind) (system : NamespaceSystem Thread)
    (tables : ThreadTables Thread) (srcContainer destContainer : Option Nat)
    (thread : Option Thread) :
    kind.containerMoveTask system tables srcContainer destContainer thread =
      system.moveTask kind.rules tables srcContainer destContainer thread := by
  cases kind <;> rfl

@[simp] theorem containerDelete_eq (kind : NamespaceKind) (system : NamespaceSystem Thread)
    (tables : ThreadTables Thread) (container : Option Nat) :
    kind.containerDelete system tables container = system.delete kind.rules tables container := by
  cases kind <;> rfl

theorem mem_all (kind : NamespaceKind) : kind ∈ all := by
  cases kind <;> decide

theorem all_nodup : all.Nodup := by decide

variable {system made : NamespaceSystem Thread} {address : Option Nat} {group malloc : Bool}

omit [DecidableEq Thread] in
theorem containerCreate_none (kind : NamespaceKind)
    (result : kind.containerCreate system address group malloc = (made, none)) :
    made = system ∨ made = { system with idCounter := system.idCounter + 1 } := by
  cases kind with
  | net =>
    cases address with
    | none => exact .inl (congrArg Prod.fst result).symm
    | some address =>
      cases group with
      | true => exact nomatch congrArg Prod.snd result
      | false => exact .inr (congrArg Prod.fst result).symm
  | uts | mnt | ipc =>
    cases result
    exact .inl rfl

omit [DecidableEq Thread] in
theorem containerOwn_created {owned : NamespaceSystem Thread} {container : Nat}
    (kind : NamespaceKind)
    (creates : kind.containerCreate system address group malloc = (made, some container))
    (owns : kind.containerOwn made container malloc = some owned) :
    address = some container ∧ system.Created container 1 owned := by
  have created := fun rules => NamespaceSystem.create_created rules system container
  cases kind with
  | uts =>
    cases creates
    exact ⟨rfl, (created NamespaceKind.uts.rules malloc).addRc owns⟩
  | mnt =>
    cases creates
    cases owns
    exact ⟨rfl, (created NamespaceKind.mnt.rules false).addToList rfl malloc⟩
  | net =>
    cases group with
    | false => cases creates
    | true =>
      cases creates
      cases owns
      exact ⟨rfl, created NamespaceKind.net.rules malloc⟩
  | ipc =>
    cases creates
    cases owns
    exact ⟨rfl, created NamespaceKind.ipc.rules malloc⟩

end NamespaceKind

namespace ContainerSystem

variable {system after : ContainerSystem Thread} {container : RtemsContainer Thread}
variable {parts : ContainerParts} {thread : Thread} {tables : ThreadTables Thread}
variable {kinds : List NamespaceKind} {kind : NamespaceKind} {status : StatusCode}
variable {property : NamespaceKind → NamespaceSystem Thread → Prop}

def OnlyNamespaces (system after : ContainerSystem Thread) : Prop :=
  ∃ namespaces, after = { system with namespaces := namespaces }

section

omit [DecidableEq Thread]

theorem OnlyNamespaces.refl (system : ContainerSystem Thread) : system.OnlyNamespaces system :=
  ⟨system.namespaces, rfl⟩

theorem OnlyNamespaces.trans {last : ContainerSystem Thread} (first : system.OnlyNamespaces after)
    (second : after.OnlyNamespaces last) : system.OnlyNamespaces last := by
  obtain ⟨_, rfl⟩ := first
  obtain ⟨namespaces, rfl⟩ := second
  exact ⟨namespaces, rfl⟩

theorem setNamespace_only (moved : NamespaceSystem Thread) :
    system.OnlyNamespaces (system.setNamespace kind moved) :=
  ⟨_, rfl⟩

theorem setNamespace_holds (property : NamespaceKind → NamespaceSystem Thread → Prop)
    {moved : NamespaceSystem Thread} (holds : property kind moved)
    (others : ∀ other, other ≠ kind → property other (system.namespaces other)) :
    ∀ other, property other ((system.setNamespace kind moved).namespaces other) := by
  intro other
  by_cases same : other = kind
  · subst other
    simpa [setNamespace] using holds
  · simpa [setNamespace, same] using others other same

theorem setNamespace_self (system : ContainerSystem Thread) (kind : NamespaceKind) :
    system.setNamespace kind (system.namespaces kind) = system := by
  simp [setNamespace]

end

def eachNamespace
    (step : NamespaceKind → NamespaceSystem Thread → Option (NamespaceSystem Thread)) :
    List NamespaceKind → ContainerSystem Thread → Option (ContainerSystem Thread)
  | [], system => some system
  | kind :: rest, system =>
    (step kind (system.namespaces kind)).bind fun next =>
      eachNamespace step rest (system.setNamespace kind next)

section

variable {step : NamespaceKind → NamespaceSystem Thread → Option (NamespaceSystem Thread)}

section

omit [DecidableEq Thread]

theorem eachNamespace_each (nodup : kinds.Nodup)
    (result : eachNamespace step kinds system = some after) (kind : NamespaceKind) :
    (kind ∈ kinds → step kind (system.namespaces kind) = some (after.namespaces kind)) ∧
      (kind ∉ kinds → after.namespaces kind = system.namespaces kind) := by
  induction kinds generalizing system with
  | nil =>
    cases result
    exact ⟨nofun, fun _ => rfl⟩
  | cons first rest ih =>
    obtain ⟨absent, nodupRest⟩ := List.nodup_cons.mp nodup
    obtain ⟨next, isNext, rests⟩ := Option.bind_eq_some_iff.mp result
    have later := ih nodupRest rests
    by_cases same : kind = first
    · subst kind
      have stays := later.2 absent
      refine ⟨fun _ => ?_, fun outside => absurd (by simp) outside⟩
      rw [stays, isNext]
      simp [setNamespace]
    · have unchanged : (system.setNamespace first next).namespaces kind =
          system.namespaces kind := by
        simp [setNamespace, same]
      rw [unchanged] at later
      refine ⟨fun inside => later.1 ?_, fun outside => later.2 ?_⟩
      · simpa [same] using inside
      · exact fun inside => outside (List.mem_cons_of_mem first inside)

theorem exists_eachNamespace (nodup : kinds.Nodup)
    (steps : ∀ kind ∈ kinds, ∃ next, step kind (system.namespaces kind) = some next) :
    ∃ after, eachNamespace step kinds system = some after := by
  induction kinds generalizing system with
  | nil => exact ⟨system, rfl⟩
  | cons first rest ih =>
    obtain ⟨absent, nodupRest⟩ := List.nodup_cons.mp nodup
    obtain ⟨next, isNext⟩ := steps first List.mem_cons_self
    obtain ⟨after, rests⟩ : ∃ after,
        eachNamespace step rest (system.setNamespace first next) = some after := by
      apply ih nodupRest
      intro kind member
      have different : kind ≠ first := ne_of_mem_of_not_mem member absent
      simpa [setNamespace, different] using steps kind (List.mem_cons_of_mem first member)
    exact ⟨after, Option.bind_eq_some_iff.mpr ⟨next, isNext, rests⟩⟩

theorem eachNamespace_holds (holds : ∀ kind, property kind (system.namespaces kind))
    (steps : ∀ kind before next, property kind before → step kind before = some next →
      property kind next)
    (result : eachNamespace step kinds system = some after) :
    ∀ kind, property kind (after.namespaces kind) := by
  induction kinds generalizing system with
  | nil =>
    cases result
    exact holds
  | cons kind rest ih =>
    obtain ⟨next, isNext, rests⟩ := Option.bind_eq_some_iff.mp result
    apply ih _ rests
    exact setNamespace_holds property (steps kind _ next (holds kind) isNext)
      fun other _ => holds other

theorem eachNamespace_only (result : eachNamespace step kinds system = some after) :
    system.OnlyNamespaces after := by
  induction kinds generalizing system with
  | nil =>
    cases result
    exact .refl _
  | cons kind rest ih =>
    obtain ⟨next, -, rests⟩ := Option.bind_eq_some_iff.mp result
    exact (setNamespace_only next).trans (ih rests)

end

end

theorem joinRoots_eq (thread : Thread) (kinds : List NamespaceKind)
    (system : ContainerSystem Thread) :
    joinRoots thread kinds system =
      eachNamespace (fun _ namespaces => namespaces.joinRoot thread) kinds system := by
  induction kinds generalizing system with
  | nil => rfl
  | cons kind rest ih => simp only [joinRoots, eachNamespace, ih]

private theorem joinRoots_all (result : joinRoots thread NamespaceKind.all system = some after)
    (kind : NamespaceKind) :
    (system.namespaces kind).joinRoot thread = some (after.namespaces kind) := by
  rw [joinRoots_eq] at result
  exact (eachNamespace_each NamespaceKind.all_nodup result kind).1 kind.mem_all

theorem joinRoots_only (result : joinRoots thread kinds system = some after) :
    system.OnlyNamespaces after := by
  rw [joinRoots_eq] at result
  exact eachNamespace_only result

/-- A thread stays in its namespace, or moves to that of the container. -/
theorem enterNamespace_cases
    (result : system.enterNamespace container parts thread tables kind = some (after, status)) :
    ((container.hasNamespace kind = true →
          (system.namespaces kind).pointer thread = parts.namespaces kind) ∧
        after = system.setNamespace kind (system.namespaces kind) ∧ status = .successful) ∨
      (container.hasNamespace kind = true ∧
        (system.namespaces kind).pointer thread ≠ parts.namespaces kind ∧
        ∃ moved, (system.namespaces kind).moveTask kind.rules tables
            ((system.namespaces kind).pointer thread) (parts.namespaces kind) (some thread) =
              some moved ∧
          after = system.setNamespace kind moved ∧
          status = if moved.pointer thread ≠ parts.namespaces kind then .unsatisfied
            else .successful) := by
  unfold enterNamespace at result
  split at result
  · rename_i flagged
    obtain ⟨moved, isMoved, result⟩ := Option.map_eq_some_iff.mp result
    cases result
    split at isMoved
    · rename_i different
      rw [NamespaceKind.containerMoveTask_eq] at isMoved
      exact .inr ⟨flagged, different, moved, isMoved, rfl, rfl⟩
    · rename_i same
      cases isMoved
      have inside := not_not.mp same
      exact .inl ⟨fun _ => inside, rfl, if_neg same⟩
  · rename_i unflagged
    cases result
    refine .inl ⟨fun flagged => absurd flagged unflagged, ?_, rfl⟩
    simp [setNamespace]

theorem enterNamespaces_holds (holds : ∀ kind, property kind (system.namespaces kind))
    (moves : ∀ kind before moved src dest, property kind before →
      before.moveTask kind.rules tables src dest (some thread) = some moved → property kind moved)
    (result : enterNamespaces container parts thread tables kinds system = some (after, status)) :
    ∀ kind, property kind (after.namespaces kind) := by
  induction kinds generalizing system with
  | nil =>
    cases result
    exact holds
  | cons kind rest ih =>
    have entered : ∀ {middle : ContainerSystem Thread} {first : StatusCode},
        system.enterNamespace container parts thread tables kind = some (middle, first) →
          ∀ other, property other (middle.namespaces other) := by
      intro middle first enters
      obtain ⟨-, rfl, -⟩ | ⟨-, -, moved, isMoved, rfl, -⟩ := enterNamespace_cases enters
      · exact setNamespace_holds property (holds kind) fun other _ => holds other
      · exact setNamespace_holds property (moves kind _ moved _ _ (holds kind) isMoved)
          fun other _ => holds other
    obtain ⟨enters, -⟩ | ⟨middle, enters, result⟩ := andThen_eq_some.mp result
    · exact entered enters
    · exact ih (entered enters) result

def leaveStep (container : RtemsContainer Thread) (parts : ContainerParts) (thread : Thread)
    (tables : ThreadTables Thread) (kind : NamespaceKind) (namespaces : NamespaceSystem Thread) :
    Option (NamespaceSystem Thread) :=
  if container.hasNamespace kind ∧ namespaces.pointer thread = parts.namespaces kind then
    namespaces.moveTask kind.rules tables (parts.namespaces kind) (some namespaces.root)
      (some thread)
  else some namespaces

theorem leaveNamespaces_eq (container : RtemsContainer Thread) (parts : ContainerParts)
    (thread : Thread) (tables : ThreadTables Thread) (kinds : List NamespaceKind)
    (system : ContainerSystem Thread) :
    leaveNamespaces container parts thread tables kinds system =
      eachNamespace (leaveStep container parts thread tables) kinds system := by
  induction kinds generalizing system with
  | nil => rfl
  | cons kind rest ih =>
    simp only [leaveNamespaces, eachNamespace, leaveNamespace, leaveStep,
      NamespaceKind.containerMoveTask_eq]
    split
    · rw [Option.bind_map]
      exact congrArg _ (funext fun moved => ih (system.setNamespace kind moved))
    · rw [Option.bind_some, Option.bind_some, ih, setNamespace_self]

theorem leaveNamespaces_holds (holds : ∀ kind, property kind (system.namespaces kind))
    (moves : ∀ kind before moved src dest, property kind before →
      before.moveTask kind.rules tables src dest (some thread) = some moved → property kind moved)
    (result : leaveNamespaces container parts thread tables kinds system = some after) :
    ∀ kind, property kind (after.namespaces kind) := by
  rw [leaveNamespaces_eq] at result
  refine eachNamespace_holds holds ?_ result
  intro kind before next kept leaves
  unfold leaveStep at leaves
  split at leaves
  · exact moves kind before next _ _ kept leaves
  · cases leaves
    exact kept

theorem leaveNamespaces_only
    (result : leaveNamespaces container parts thread tables kinds system = some after) :
    system.OnlyNamespaces after := by
  rw [leaveNamespaces_eq] at result
  exact eachNamespace_only result

theorem deleteNamespaces_eq (parts : ContainerParts) (tables : ThreadTables Thread)
    (kinds : List NamespaceKind) (system : ContainerSystem Thread) :
    deleteNamespaces parts tables kinds system =
      eachNamespace (fun kind namespaces =>
        namespaces.delete kind.rules tables (parts.namespaces kind)) kinds system := by
  induction kinds generalizing system with
  | nil => rfl
  | cons kind rest ih =>
    simp only [deleteNamespaces, eachNamespace, NamespaceKind.containerDelete_eq, ih]

theorem deleteNamespaces_only
    (result : deleteNamespaces parts tables kinds system = some after) :
    system.OnlyNamespaces after := by
  rw [deleteNamespaces_eq] at result
  exact eachNamespace_only result

theorem enterNamespaces_only
    (result : enterNamespaces container parts thread tables kinds system = some (after, status)) :
    system.OnlyNamespaces after := by
  induction kinds generalizing system with
  | nil =>
    cases result
    exact .refl _
  | cons kind rest ih =>
    have entered : ∀ middle first,
        system.enterNamespace container parts thread tables kind = some (middle, first) →
          system.OnlyNamespaces middle := by
      intro middle first enters
      obtain ⟨-, rfl, -⟩ | ⟨-, -, moved, -, rfl, -⟩ := enterNamespace_cases enters
      · exact setNamespace_only _
      · exact setNamespace_only moved
    obtain ⟨enters, -⟩ | ⟨middle, enters, result⟩ := andThen_eq_some.mp result
    · exact entered after status enters
    · exact (entered middle _ enters).trans (ih result)

theorem ensureThreadContainer_new (names : ObjectNames Thread) (unified : UnifiedSystem Thread)
    (thread : Thread) (pidNode : Bool)
    (isNew : unified.hasContainer thread = false) :
    (unified.ensureThreadContainer names thread true pidNode).2 = .successful ∧
      (unified.ensureThreadContainer names thread true pidNode).1.hasContainer =
        update unified.hasContainer thread true ∧
      (unified.ensureThreadContainer names thread true pidNode).1.handles = unified.handles ∧
      (unified.ensureThreadContainer names thread true pidNode).1.cgroups = unified.cgroups := by
  unfold UnifiedSystem.ensureThreadContainer
  rw [isNew]
  exact ⟨rfl, rfl, rfl, rfl⟩

variable {allocations : EnterAllocations} {malloc : Bool} {address : Option Nat}
variable {task : Option Thread}

/-- A thread without a container gets one, if there is memory. -/
theorem ensureContainer_cases
    (result : system.ensureContainer names thread allocations = some (after, status)) :
    (after = system ∧ (system.hasContainer thread = true ∧ status = .successful ∨
        system.hasContainer thread = false ∧ allocations.calloc = false ∧ status = .noMemory)) ∨
      (system.hasContainer thread = false ∧ allocations.calloc = true ∧ status = .successful ∧
        ∃ ensured : UnifiedSystem Thread, ensured.hasContainer =
            update system.hasContainer thread true ∧
          ensured.handles = system.handles ∧ ensured.cgroups = system.cgroups ∧
          joinRoots thread NamespaceKind.all (system.withUnified ensured) = some after) := by
  unfold ensureContainer at result
  cases has : system.hasContainer thread with
  | true =>
    simp only [UnifiedSystem.ensureThreadContainer, has, if_true, true_or] at result
    cases result
    exact .inl ⟨rfl, .inl ⟨rfl, rfl⟩⟩
  | false =>
    cases calloc : allocations.calloc with
    | false =>
      have ensures : system.ensureThreadContainer names thread false allocations.pidNode =
          (system.toUnifiedSystem, .noMemory) := by
        simp [UnifiedSystem.ensureThreadContainer, has]
      rw [calloc, ensures] at result
      simp at result
      exact .inl ⟨result.1.symm, .inr ⟨rfl, rfl, result.2.symm⟩⟩
    | true =>
      obtain ⟨succeeds, hasContainer, handles, cgroups⟩ := ensureThreadContainer_new
        names system.toUnifiedSystem thread allocations.pidNode has
      rw [calloc] at result
      simp only [has, succeeds] at result
      obtain ⟨joined, isJoined, same⟩ := Option.map_eq_some_iff.mp result
      cases same
      exact .inr ⟨rfl, rfl, rfl, _, hasContainer, handles, cgroups, isJoined⟩

theorem enterCgroupPart_namespaces {workspace : Bool}
    (result : system.enterCgroupPart names container thread workspace = some (after, status)) :
    after.namespaces = system.namespaces := by
  obtain ⟨joined, -, same⟩ := Option.map_eq_some_iff.mp result
  cases same
  rfl

omit [DecidableEq Thread] in
theorem enterIo_cases
    (result : system.enterIo names container parts thread malloc = some (after, status)) :
    (after = system ∧ (status = .successful ↔ container.hasIo = false)) ∨
      ∃ block, container.hasIo = true ∧ parts.ioCgroup = some block ∧
        block ∈ system.ioCgroups.allocated ∧
        after = { system with ioCgroups := (system.ioCgroups.rtemsIoCgroupAddThread block
          (some (names.threadId thread)) parts.ioThreadWeight malloc).1 } ∧
        status = (system.ioCgroups.rtemsIoCgroupAddThread block (some (names.threadId thread))
          parts.ioThreadWeight malloc).2 := by
  unfold enterIo at result
  split at result
  · rename_i flagged
    split at result
    · cases result
      exact .inl ⟨rfl, by simp [flagged]⟩
    · rename_i block isBlock
      split at result
      · rename_i allocated
        cases result
        exact .inr ⟨block, flagged, isBlock, allocated, rfl, rfl⟩
      · cases result
  · rename_i unflagged
    cases result
    exact .inl ⟨rfl, by simpa using unflagged⟩

omit [DecidableEq Thread] in
theorem enterIo_namespaces
    (result : system.enterIo names container parts thread malloc = some (after, status)) :
    after.namespaces = system.namespaces := by
  obtain ⟨rfl, -⟩ | ⟨_, -, -, -, rfl, -⟩ := enterIo_cases result
  · rfl
  · rfl

/-- What each step of an enter keeps, the whole enter keeps. -/
theorem enterAll_invariant (invariant : ContainerSystem Thread → Prop) {address : Nat}
    (refused : container.attached = true ∧ container.attachedThread ≠ some thread →
      invariant system)
    (entered : ∀ middle first, enterNamespaces container (system.parts address) thread tables
      NamespaceKind.all (system.withUnified
        (system.enterPid names container thread allocations.move)) = some (middle, first) →
          invariant middle) (joined : ∀ before unified first, invariant before →
      before.enterCgroup names container thread allocations.workspace = some (unified, first) →
        invariant (before.withUnified unified)) (added : ∀ before block, invariant before →
      invariant { before with ioCgroups := (before.ioCgroups.rtemsIoCgroupAddThread block
        (some (names.threadId thread)) (system.parts address).ioThreadWeight
          allocations.ioNode).1 }) (attached : ∀ before, invariant before →
      invariant (before.withUnified (before.setHandle address
        (some { container with attached := true, attachedThread := some thread }))))
    (result : system.enterAll names address container thread tables allocations =
      some (after, status)) : invariant after := by
  have joins : ∀ before middle first, invariant before →
      before.enterCgroupPart names container thread allocations.workspace = some (middle, first) →
        invariant middle := by
    intro before middle first holds enters
    obtain ⟨⟨unified, _⟩, isUnified, same⟩ := Option.map_eq_some_iff.mp enters
    cases same
    exact joined before unified first holds isUnified
  have adds : ∀ before middle first, invariant before →
      before.enterIo names container (system.parts address) thread allocations.ioNode =
        some (middle, first) → invariant middle := by
    intro before middle first holds enters
    obtain ⟨rfl, -⟩ | ⟨block, -, -, -, rfl, -⟩ := enterIo_cases enters
    · exact holds
    · exact added before block holds
  unfold enterAll at result
  split at result
  · rename_i inUse
    cases result
    exact refused inUse
  · obtain ⟨-, result⟩ := Option.ite_none_left_eq_some.mp result
    obtain ⟨enters, -⟩ | ⟨inside, enters, result⟩ := andThen_eq_some.mp result
    · exact entered after status enters
    · have first := entered inside _ enters
      obtain ⟨enters, -⟩ | ⟨member, enters, result⟩ := andThen_eq_some.mp result
      · exact joins inside after status first enters
      · have second := joins inside member _ first enters
        obtain ⟨enters, -⟩ | ⟨weighed, enters, result⟩ := andThen_eq_some.mp result
        · exact adds member after status second enters
        · cases result
          exact attached weighed (adds member weighed _ second enters)

theorem enterAll_holds {address : Nat} (holds : ∀ kind, property kind (system.namespaces kind))
    (moves : ∀ kind before moved src dest, property kind before →
      before.moveTask kind.rules tables src dest (some thread) = some moved → property kind moved)
    (result : system.enterAll names address container thread tables allocations =
      some (after, status)) : ∀ kind, property kind (after.namespaces kind) := by
  refine enterAll_invariant (fun state => ∀ kind, property kind (state.namespaces kind))
    (fun _ => holds) ?entered (fun _ _ _ kept _ => kept) (fun _ _ kept => kept)
    (fun _ kept => kept) result
  intro middle first enters
  refine enterNamespaces_holds ?_ moves enters
  exact holds

/-- A property of namespaces that joins and moves keep holds behind an enter. -/
theorem enter_holds (property : NamespaceKind → NamespaceSystem Thread → Prop)
    (holds : ∀ kind, property kind (system.namespaces kind))
    (joins : system.hasContainer (task.getD tables.executing) = false →
      ∀ kind joined, (system.namespaces kind).joinRoot (task.getD tables.executing) =
        some joined → property kind joined)
    (moves : ∀ kind before moved src dest, property kind before →
      before.moveTask kind.rules tables src dest (some (task.getD tables.executing)) =
        some moved → property kind moved)
    (result : system.rtemsUnifiedContainerEnter names address task tables allocations =
      some (after, status)) : ∀ kind, property kind (after.namespaces kind) := by
  unfold rtemsUnifiedContainerEnter at result
  cases address with
  | none =>
    cases result
    exact holds
  | some address =>
    obtain ⟨container, -, result⟩ := Option.bind_eq_some_iff.mp result
    have ensured : ∀ middle first, system.ensureContainer names (task.getD tables.executing)
        allocations = some (middle, first) → ∀ kind, property kind (middle.namespaces kind) := by
      intro middle first ensures
      obtain ⟨rfl, -⟩ | ⟨isNew, -, -, ensured, -, -, -, joined⟩ := ensureContainer_cases ensures
      · exact holds
      · exact fun kind => joins isNew kind _ (joinRoots_all joined kind)
    obtain ⟨ensures, -⟩ | ⟨middle, ensures, result⟩ := andThen_eq_some.mp result
    · exact ensured after status ensures
    · exact enterAll_holds (ensured middle _ ensures) moves result

omit [DecidableEq Thread] in
theorem leaveIo_frame
    (result : system.leaveIo names container parts thread = some (after, status)) :
    after.namespaces = system.namespaces ∧ after.toUnifiedSystem = system.toUnifiedSystem ∧
      after.parts = system.parts := by
  unfold leaveIo at result
  split at result
  · split at result
    · cases result
      exact ⟨rfl, rfl, rfl⟩
    · split at result
      · cases result
        exact ⟨rfl, rfl, rfl⟩
      · cases result
  · cases result
    exact ⟨rfl, rfl, rfl⟩

theorem leave_holds (property : NamespaceKind → NamespaceSystem Thread → Prop) {malloc : Nat → Bool}
    (holds : ∀ kind, property kind (system.namespaces kind))
    (moves : ∀ thread kind before moved src dest, property kind before →
      before.moveTask kind.rules tables src dest (some thread) = some moved → property kind moved)
    (result : system.rtemsUnifiedContainerLeave names address task tables malloc =
      some (after, status)) : ∀ kind, property kind (after.namespaces kind) := by
  unfold rtemsUnifiedContainerLeave at result
  cases address with
  | none =>
    cases result
    exact holds
  | some address =>
    obtain ⟨container, -, result⟩ := Option.bind_eq_some_iff.mp result
    simp only at result
    split at result
    · cases result
      exact holds
    · obtain ⟨-, result⟩ := Option.ite_none_left_eq_some.mp result
      obtain ⟨left, leaves, result⟩ := Option.bind_eq_some_iff.mp result
      obtain ⟨⟨removed, cgroupStatus⟩, removes, result⟩ := Option.bind_eq_some_iff.mp result
      obtain ⟨⟨gone, ioStatus⟩, goes, same⟩ := Option.map_eq_some_iff.mp result
      have inside : ∀ kind, property kind (left.namespaces kind) := by
        refine leaveNamespaces_holds ?_ (moves _) leaves
        exact holds
      have unchanged := (leaveIo_frame goes).1
      cases same
      have same : ∀ kind, gone.namespaces kind = left.namespaces kind :=
        fun kind => congrFun unchanged kind
      split
      · intro kind
        exact same kind ▸ inside kind
      · intro kind
        exact same kind ▸ inside kind

theorem enterPid_hasContainer (unified : UnifiedSystem Thread) (malloc : Nat → Bool) :
    (unified.enterPid names container thread malloc).hasContainer = unified.hasContainer := by
  unfold UnifiedSystem.enterPid
  simp only
  split
  · split
    · rfl
    · rfl
  · rfl

theorem leavePid_hasContainer (unified : UnifiedSystem Thread) (malloc : Nat → Bool) :
    (unified.leavePid names container thread malloc).hasContainer = unified.hasContainer := by
  unfold UnifiedSystem.leavePid
  split
  · rfl
  · rfl

omit [DecidableEq Thread] in
theorem OnlyNamespaces.hasContainer (only : system.OnlyNamespaces after) :
    after.hasContainer = system.hasContainer := by
  obtain ⟨_, rfl⟩ := only
  rfl

theorem enterAll_hasContainer {address : Nat}
    (result : system.enterAll names address container thread tables allocations =
      some (after, status)) : after.hasContainer = system.hasContainer := by
  refine enterAll_invariant (fun state => state.hasContainer = system.hasContainer)
    (fun _ => rfl) ?entered ?joined (fun _ _ kept => kept) (fun _ kept => kept) result
  case entered =>
    intro middle first enters
    exact (enterNamespaces_only enters).hasContainer.trans (enterPid_hasContainer _ _)
  case joined =>
    intro before unified first kept joins
    exact (UnifiedSystem.enterCgroup_same joins).hasContainer.trans kept

theorem enter_hasContainer
    (result : system.rtemsUnifiedContainerEnter names address task tables allocations =
      some (after, status)) :
    after = system ∨ ∀ other, after.hasContainer other = false →
      other ≠ task.getD tables.executing ∧ system.hasContainer other = false := by
  unfold rtemsUnifiedContainerEnter at result
  cases address with
  | none =>
    cases result
    exact .inl rfl
  | some address =>
    obtain ⟨container, -, result⟩ := Option.bind_eq_some_iff.mp result
    have ensured : ∀ middle, system.ensureContainer names (task.getD tables.executing)
        allocations = some (middle, .successful) → ∀ other, middle.hasContainer other = false →
          other ≠ task.getD tables.executing ∧ system.hasContainer other = false := by
      intro middle ensures other isNew
      obtain ⟨rfl, ⟨has, -⟩ | ⟨-, -, failed⟩⟩ | ⟨-, -, -, ensured, hasContainer, -, -, joined⟩ :=
        ensureContainer_cases ensures
      · refine ⟨?_, isNew⟩
        intro same
        rw [same, has] at isNew
        cases isNew
      · cases failed
      · have same := (joinRoots_only joined).hasContainer
        have updated : middle.hasContainer = _ := same.trans hasContainer
        rw [updated] at isNew
        by_cases isTask : other = task.getD tables.executing
        · rw [isTask, update_self] at isNew
          cases isNew
        · rw [update_of_ne isTask] at isNew
          exact ⟨isTask, isNew⟩
    obtain ⟨ensures, failed⟩ | ⟨middle, ensures, result⟩ := andThen_eq_some.mp result
    · obtain ⟨same, -⟩ | ⟨-, -, succeeded, -⟩ := ensureContainer_cases ensures
      · exact .inl same
      · exact absurd succeeded failed
    · refine .inr ?_
      intro other isNew
      rw [enterAll_hasContainer result] at isNew
      exact ensured middle ensures other isNew

theorem leave_hasContainer {malloc : Nat → Bool}
    (result : system.rtemsUnifiedContainerLeave names address task tables malloc =
      some (after, status)) : after.hasContainer = system.hasContainer := by
  unfold rtemsUnifiedContainerLeave at result
  cases address with
  | none =>
    cases result
    rfl
  | some address =>
    obtain ⟨container, -, result⟩ := Option.bind_eq_some_iff.mp result
    simp only at result
    split at result
    · cases result
      rfl
    · obtain ⟨-, result⟩ := Option.ite_none_left_eq_some.mp result
      obtain ⟨left, leaves, result⟩ := Option.bind_eq_some_iff.mp result
      obtain ⟨⟨removed, cgroupStatus⟩, removes, result⟩ := Option.bind_eq_some_iff.mp result
      obtain ⟨⟨gone, ioStatus⟩, goes, same⟩ := Option.map_eq_some_iff.mp result
      have first := (leaveNamespaces_only leaves).hasContainer.trans (leavePid_hasContainer _ _)
      have second := (UnifiedSystem.leaveCgroup_same removes).hasContainer.trans first
      have third : gone.hasContainer = removed.hasContainer :=
        congrArg UnifiedSystem.hasContainer (leaveIo_frame goes).2.1
      cases same
      split
      · exact third.trans second
      · exact third.trans second

end ContainerSystem

namespace ContainerCreation

def Makes (allocations : CreateAllocations) (kind : NamespaceKind)
    (before after : ContainerCreation Thread) : Prop :=
  (after.parts.namespaces kind = before.parts.namespaces kind ∧
      (after.system.namespaces kind = before.system.namespaces kind ∨
        after.system.namespaces kind = { before.system.namespaces kind with
          idCounter := (before.system.namespaces kind).idCounter + 1 })) ∨
    ∃ address, before.created.hasNamespace kind = true ∧
      allocations.namespaceContainer kind = some address ∧
      after.parts.namespaces kind = some address ∧
      (before.system.namespaces kind).Created address 1 (after.system.namespaces kind)

variable {creation after : ContainerCreation Thread} {allocations : CreateAllocations}
variable {kind : NamespaceKind} {kinds : List NamespaceKind} {status : StatusCode}

section

omit [DecidableEq Thread]

theorem createNamespace_makes
    (result : creation.createNamespace allocations kind = some (after, status)) :
    after.created = creation.created ∧ Makes allocations kind creation after ∧
      ∀ other, other ≠ kind →
        after.system.namespaces other = creation.system.namespaces other ∧
          after.parts.namespaces other = creation.parts.namespaces other := by
  unfold createNamespace at result
  split at result
  · rename_i flagged
    split at result
    rename_i made container creates
    cases container with
    | none =>
      cases result
      refine ⟨rfl, .inl ⟨rfl, ?_⟩, ?_⟩
      · simpa [ContainerSystem.setNamespace] using NamespaceKind.containerCreate_none kind creates
      · intro other different
        simp [ContainerSystem.setNamespace, different]
    | some address =>
      obtain ⟨owned, owns, same⟩ := Option.map_eq_some_iff.mp result
      cases same
      obtain ⟨isAddress, created⟩ := NamespaceKind.containerOwn_created kind creates owns
      refine ⟨rfl, .inr ⟨address, flagged, isAddress, by simp, ?_⟩, ?_⟩
      · simpa [ContainerSystem.setNamespace] using created
      · intro other different
        simp [ContainerSystem.setNamespace, different]
  · cases result
    exact ⟨rfl, .inl ⟨rfl, .inl rfl⟩, fun _ _ => ⟨rfl, rfl⟩⟩

theorem createNamespaces_makes (nodup : kinds.Nodup)
    (result : createNamespaces allocations kinds creation = some (after, status)) :
    ∀ kind, Makes allocations kind creation after ∧
      (kind ∉ kinds → after.system.namespaces kind = creation.system.namespaces kind ∧
        after.parts.namespaces kind = creation.parts.namespaces kind) := by
  induction kinds generalizing creation with
  | nil =>
    cases result
    exact fun kind => ⟨.inl ⟨rfl, .inl rfl⟩, fun _ => ⟨rfl, rfl⟩⟩
  | cons first rest ih =>
    obtain ⟨absent, nodupRest⟩ := List.nodup_cons.mp nodup
    have single : ∀ {middle : ContainerCreation Thread} {firstStatus : StatusCode},
        creation.createNamespace allocations first = some (middle, firstStatus) →
          ∀ kind, Makes allocations kind creation middle ∧
            (kind ≠ first → middle.system.namespaces kind = creation.system.namespaces kind ∧
              middle.parts.namespaces kind = creation.parts.namespaces kind) := by
      intro middle firstStatus creates kind
      obtain ⟨-, makes, others⟩ := createNamespace_makes creates
      by_cases same : kind = first
      · subst kind
        exact ⟨makes, fun different => absurd rfl different⟩
      · obtain ⟨sameSystem, sameParts⟩ := others kind same
        exact ⟨.inl ⟨sameParts, .inl sameSystem⟩, fun _ => ⟨sameSystem, sameParts⟩⟩
    obtain ⟨creates, -⟩ | ⟨middle, creates, result⟩ := andThen_eq_some.mp result
    · intro kind
      have makes := single creates kind
      exact ⟨makes.1, fun outside => makes.2 fun same => outside (by simp [same])⟩
    · intro kind
      obtain ⟨sameCreated, -, -⟩ := createNamespace_makes creates
      have makes := single creates kind
      have later := ih nodupRest result kind
      by_cases same : kind = first
      · subst kind
        obtain ⟨sameSystem, sameParts⟩ := later.2 absent
        refine ⟨?_, fun outside => absurd (by simp) outside⟩
        unfold Makes
        rw [sameSystem, sameParts]
        exact makes.1
      · obtain ⟨sameSystem, sameParts⟩ := makes.2 same
        refine ⟨?_, ?_⟩
        · have laterMakes := later.1
          unfold Makes at laterMakes ⊢
          rw [sameSystem, sameParts, sameCreated] at laterMakes
          exact laterMakes
        · intro outside
          obtain ⟨laterSystem, laterParts⟩ := later.2 fun inside => outside (by simp [inside])
          exact ⟨laterSystem.trans sameSystem, laterParts.trans sameParts⟩

theorem createNamespaces_created
    (result : createNamespaces allocations kinds creation = some (after, status)) :
    after.created = creation.created := by
  induction kinds generalizing creation with
  | nil =>
    cases result
    rfl
  | cons kind rest ih =>
    obtain ⟨creates, -⟩ | ⟨middle, creates, result⟩ := andThen_eq_some.mp result
    · exact (createNamespace_makes creates).1
    · exact (ih result).trans (createNamespace_makes creates).1

theorem createNamespaces_only
    (result : createNamespaces allocations kinds creation = some (after, status)) :
    creation.system.OnlyNamespaces after.system := by
  induction kinds generalizing creation with
  | nil =>
    cases result
    exact .refl _
  | cons kind rest ih =>
    have single : ∀ middle firstStatus,
        creation.createNamespace allocations kind = some (middle, firstStatus) →
          creation.system.OnlyNamespaces middle.system := by
      intro middle firstStatus creates
      unfold createNamespace at creates
      split at creates
      · split at creates
        rename_i made container isMade
        cases container with
        | none =>
          cases creates
          exact ContainerSystem.setNamespace_only made
        | some address =>
          obtain ⟨owned, -, same⟩ := Option.map_eq_some_iff.mp creates
          cases same
          exact ContainerSystem.setNamespace_only owned
      · cases creates
        exact .refl _
    obtain ⟨creates, -⟩ | ⟨middle, creates, result⟩ := andThen_eq_some.mp result
    · exact single after status creates
    · exact (single middle _ creates).trans (ih result)

theorem createPid_frame (creation : ContainerCreation Thread) (config : RtemsContainerConfig)
    (allocations : CreateAllocations) :
    (creation.createPid config allocations).1.system.namespaces = creation.system.namespaces ∧
      (creation.createPid config allocations).1.parts = creation.parts ∧
      (creation.createPid config allocations).1.system.hasContainer =
        creation.system.hasContainer := by
  refine ⟨rfl, rfl, ?_⟩
  show (creation.system.createPid creation.created (outcomes allocations config)).1.hasContainer = _
  unfold UnifiedSystem.createPid
  split
  · split
    · rfl
    · rfl
  · rfl

theorem createIo_frame (creation : ContainerCreation Thread) (config : RtemsContainerConfig)
    (allocations : CreateAllocations) :
    (creation.createIo config allocations).1.system.namespaces = creation.system.namespaces ∧
      (creation.createIo config allocations).1.parts.namespaces = creation.parts.namespaces ∧
      (creation.createIo config allocations).1.system.toUnifiedSystem =
        creation.system.toUnifiedSystem := by
  unfold createIo
  split
  · split
    · split
      · exact ⟨rfl, rfl, rfl⟩
      · split
        · exact ⟨rfl, rfl, rfl⟩
        · exact ⟨rfl, rfl, rfl⟩
    · exact ⟨rfl, rfl, rfl⟩
  · exact ⟨rfl, rfl, rfl⟩

end

end ContainerCreation

namespace ContainerSystem

variable {system after : ContainerSystem Thread} {tables : ThreadTables Thread}
variable {property : NamespaceKind → NamespaceSystem Thread → Prop}

variable {allocations : CreateAllocations} {status : StatusCode} {parts : ContainerParts}
variable {names : ObjectNames Thread} {malloc : Nat → Bool}

omit [DecidableEq Thread] in
/-- Each namespace of a creation is new or left out. -/
theorem createAll_makes {config : RtemsContainerConfig} {creation : ContainerCreation Thread}
    (result : system.createAll config allocations = some (creation, status)) :
    creation.system.hasContainer = system.hasContainer ∧
      ∀ kind, (creation.parts.namespaces kind = none ∧
          (creation.system.namespaces kind = system.namespaces kind ∨
            creation.system.namespaces kind = { system.namespaces kind with
              idCounter := (system.namespaces kind).idCounter + 1 })) ∨
        ∃ address, allocations.namespaceContainer kind = some address ∧
          creation.parts.namespaces kind = some address ∧
          (system.namespaces kind).Created address 1 (creation.system.namespaces kind) := by
  unfold createAll at result
  obtain ⟨first, -⟩ | ⟨pid, first, result⟩ := andThen_eq_some.mp result
  · cases first
    exact ⟨(ContainerCreation.createPid_frame _ config allocations).2.2,
      fun kind => .inl ⟨rfl, .inl rfl⟩⟩
  · obtain ⟨pidNamespaces, pidParts, pidObjects⟩ := ContainerCreation.createPid_frame
      ⟨system, ⟨config.flags, false, none, none, 0, none⟩, ⟨fun _ => none, none, 0, 0⟩⟩
      config allocations
    rw [congrArg Prod.fst (Option.some.inj first)] at pidNamespaces pidParts pidObjects
    have namespaces : ∀ made madeStatus, pid.createNamespaces allocations NamespaceKind.all =
        some (made, madeStatus) → made.system.hasContainer = system.hasContainer ∧
          ∀ kind, (made.parts.namespaces kind = none ∧
              (made.system.namespaces kind = system.namespaces kind ∨
                made.system.namespaces kind = { system.namespaces kind with
                  idCounter := (system.namespaces kind).idCounter + 1 })) ∨
            ∃ address, allocations.namespaceContainer kind = some address ∧
              made.parts.namespaces kind = some address ∧
              (system.namespaces kind).Created address 1 (made.system.namespaces kind) := by
      intro made madeStatus creates
      refine ⟨(ContainerCreation.createNamespaces_only creates).hasContainer.trans pidObjects, ?_⟩
      intro kind
      have makes := (ContainerCreation.createNamespaces_makes NamespaceKind.all_nodup creates
        kind).1
      unfold ContainerCreation.Makes at makes
      rw [pidNamespaces, pidParts] at makes
      obtain none | ⟨address, -, created⟩ := makes
      · exact .inl none
      · exact .inr ⟨address, created⟩
    obtain ⟨second, -⟩ | ⟨made, second, result⟩ := andThen_eq_some.mp result
    · exact namespaces creation status second
    · have atNamespaces := namespaces made _ second
      have cgroupObjects : (made.createCgroup config allocations).1.system.hasContainer =
          made.system.hasContainer := UnifiedSystem.createCgroup_same.1.hasContainer
      obtain ⟨third, -⟩ | ⟨grouped, third, result⟩ := andThen_eq_some.mp result
      · have same := congrArg Prod.fst (Option.some.inj third)
        simp only at same
        rw [← same, cgroupObjects]
        exact atNamespaces
      · have same := congrArg Prod.fst (Option.some.inj third)
        simp only at same
        obtain ⟨ioNamespaces, ioParts, ioUnified⟩ :=
          ContainerCreation.createIo_frame grouped config allocations
        have last := congrArg Prod.fst (Option.some.inj result)
        simp only at last
        rw [← last, ioNamespaces, ioParts, ioUnified, ← same, cgroupObjects]
        exact atNamespaces

omit [DecidableEq Thread] in
theorem deleteIo_frame (result : system.deleteIo parts = some after) :
    after.namespaces = system.namespaces ∧ after.toUnifiedSystem = system.toUnifiedSystem ∧
      after.parts = system.parts := by
  unfold deleteIo at result
  simp only at result
  generalize (if parts.ioCgroup = none ∧ parts.ioCgroupId ≠ 0 then
    system.ioCgroups.rtemsIoCgroupGetById parts.ioCgroupId else parts.ioCgroup) = ioCgroup at result
  cases ioCgroup with
  | none =>
    cases result
    exact ⟨rfl, rfl, rfl⟩
  | some block =>
    simp only at result
    split at result
    · cases result
      exact ⟨rfl, rfl, rfl⟩
    · cases result

theorem releaseAll_holds (property : NamespaceKind → NamespaceSystem Thread → Prop) {address : Nat}
    {container : RtemsContainer Thread} {first : StatusCode}
    (holds : ∀ kind, property kind (system.namespaces kind))
    (deletes : ∀ kind before deleted, property kind before →
      before.delete kind.rules tables (parts.namespaces kind) = some deleted →
        property kind deleted)
    (result : system.releaseAll names address container parts first tables malloc =
      some (after, status)) :
    after.hasContainer = system.hasContainer ∧ ∀ kind, property kind (after.namespaces kind) := by
  obtain ⟨deleted, isDeleted, releases⟩ :=
    Option.bind_eq_some_iff.mp (releaseAll_released result)
  obtain ⟨last, isLast, same⟩ := Option.map_eq_some_iff.mp releases
  cases same
  obtain ⟨ioNamespaces, ioUnified, -⟩ := deleteIo_frame isDeleted
  constructor
  · rw [(deleteNamespaces_only isLast).hasContainer, ioUnified]
    rfl
  · rw [deleteNamespaces_eq] at isLast
    refine eachNamespace_holds ?_ deletes isLast
    intro kind
    rw [ioNamespaces]
    exact holds kind

theorem delete_holds (property : NamespaceKind → NamespaceSystem Thread → Prop)
    {address : Option Nat} {leaveMalloc : Nat → Bool}
    (holds : ∀ kind, property kind (system.namespaces kind))
    (moves : ∀ thread kind before moved src dest, property kind before →
      before.moveTask kind.rules tables src dest (some thread) = some moved →
        property kind moved) (deletes : ∀ kind before deleted container, property kind before →
      before.delete kind.rules tables container = some deleted → property kind deleted)
    (result : system.rtemsUnifiedContainerDelete names address tables leaveMalloc malloc =
      some (after, status)) : ∀ kind, property kind (after.namespaces kind) := by
  unfold rtemsUnifiedContainerDelete at result
  cases address with
  | none =>
    cases result
    exact holds
  | some address =>
    obtain ⟨container, -, result⟩ := Option.bind_eq_some_iff.mp result
    have releases : ∀ (before : ContainerSystem Thread) parts first,
        (∀ kind, property kind (before.namespaces kind)) →
          before.releaseAll names address container parts first tables malloc =
            some (after, status) → ∀ kind, property kind (after.namespaces kind) := by
      intro before parts first kept releases
      exact (releaseAll_holds property kept
        (fun kind middle deleted inside gone => deletes kind middle deleted _ inside gone)
        releases).2
    split at result
    · obtain ⟨⟨left, first⟩, leaves, result⟩ := Option.bind_eq_some_iff.mp result
      exact releases left _ first (leave_holds property holds moves leaves) result
    · exact releases system _ _ holds result

theorem create_holds (property : NamespaceKind → NamespaceSystem Thread → Prop)
    {config : Option RtemsContainerConfig} {defaultCgroupConfig : Nat}
    {outcome : Except StatusCode Nat} (unmade : ∀ kind, property kind (system.namespaces kind))
    (used : ∀ kind, property kind { system.namespaces kind with
      idCounter := (system.namespaces kind).idCounter + 1 })
    (made : ∀ kind address created, allocations.namespaceContainer kind = some address →
      (system.namespaces kind).Created address 1 created → property kind created)
    (deletes : ∀ kind before deleted address,
      allocations.namespaceContainer kind = some address → property kind before →
        before.delete kind.rules tables (some address) = some deleted → property kind deleted)
    (result : system.rtemsUnifiedContainerCreate names config defaultCgroupConfig tables
      allocations = some (after, outcome)) :
    after.hasContainer = system.hasContainer ∧ ∀ kind, property kind (after.namespaces kind) := by
  unfold rtemsUnifiedContainerCreate at result
  cases calloc : allocations.calloc with
  | none =>
    rw [calloc] at result
    cases result
    exact ⟨rfl, unmade⟩
  | some address =>
    rw [calloc] at result
    obtain ⟨⟨creation, status⟩, creates, result⟩ := Option.bind_eq_some_iff.mp result
    obtain ⟨hasContainer, makes⟩ := createAll_makes creates
    have created : ∀ kind, property kind (creation.system.namespaces kind) := by
      intro kind
      obtain ⟨-, same | bumped⟩ | ⟨address, allocated, -, created⟩ := makes kind
      · rw [same]
        exact unmade kind
      · rw [bumped]
        exact used kind
      · exact made kind address _ allocated created
    simp only at result
    split at result
    · cases result
      exact ⟨hasContainer, created⟩
    · obtain ⟨⟨released, _⟩, releases, same⟩ := Option.map_eq_some_iff.mp result
      cases same
      obtain ⟨objects, kept⟩ := releaseAll_holds property created (by
        intro kind before gone holds removes
        cases owned : creation.parts.namespaces kind with
        | none =>
          rw [owned] at removes
          cases removes
          exact holds
        | some address =>
          obtain ⟨none, -⟩ | ⟨other, allocated, isOther, -⟩ := makes kind
          · rw [owned] at none
            cases none
          · rw [owned] at isOther removes
            cases isOther
            exact deletes kind before gone address allocated holds removes) releases
      exact ⟨objects.trans hasContainer, kept⟩

end ContainerSystem

end RTContainer.Score
