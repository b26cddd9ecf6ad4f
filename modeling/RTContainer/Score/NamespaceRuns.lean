import RTContainer.Score.ContainerProperties
import RTContainer.Score.NamespaceReferences

/-! The reference counts of the namespaces over runs. What is owned of a
container is counted beside the code: the reference that it is created with, and
that of the unified container that it is created for. -/

set_option autoImplicit false

namespace RTContainer.Score

open RTContainer.Rtems Machine References Function

variable {Thread : Type} [DecidableEq Thread]

inductive NamespaceCall (Thread : Type) where
  | create (kind : NamespaceKind) (address : Option Nat) (group malloc : Bool)
  | moveTask (kind : NamespaceKind) (tables : ThreadTables Thread)
      (srcContainer destContainer : Option Nat) (thread : Option Thread)
  | delete (kind : NamespaceKind) (tables : ThreadTables Thread) (container : Option Nat)
  | unifiedCreate (config : Option RtemsContainerConfig) (defaultCgroupConfig : Nat)
      (tables : ThreadTables Thread) (allocations : CreateAllocations)
  | unifiedEnter (container : Option Nat) (thread : Option Thread) (tables : ThreadTables Thread)
      (allocations : EnterAllocations)
  | unifiedLeave (container : Option Nat) (thread : Option Thread) (tables : ThreadTables Thread)
      (malloc : Nat → Bool)

/-- The system, with the references to every container that no thread holds. -/
structure NamespaceLedger (Thread : Type) where
  system : ContainerSystem Thread
  owners : NamespaceKind → Nat → Int

namespace NamespaceCall

def perform (names : ObjectNames Thread) (system : ContainerSystem Thread) :
    NamespaceCall Thread → Option (ContainerSystem Thread)
  | .create kind address group malloc =>
    some (system.setNamespace kind
      (kind.containerCreate (system.namespaces kind) address group malloc).1)
  | .moveTask kind tables srcContainer destContainer thread =>
    (kind.containerMoveTask (system.namespaces kind) tables srcContainer destContainer
      thread).map fun moved => system.setNamespace kind moved
  | .delete kind tables container =>
    (kind.containerDelete (system.namespaces kind) tables container).map fun deleted =>
      system.setNamespace kind deleted
  | .unifiedCreate config defaultCgroupConfig tables allocations =>
    (system.rtemsUnifiedContainerCreate names config defaultCgroupConfig tables allocations).map
      Prod.fst
  | .unifiedEnter container thread tables allocations =>
    (system.rtemsUnifiedContainerEnter names container thread tables allocations).map Prod.fst
  | .unifiedLeave container thread tables malloc =>
    (system.rtemsUnifiedContainerLeave names container thread tables malloc).map Prod.fst

/-- `malloc` returns memory that is not in use. -/
def Possible (system : ContainerSystem Thread) : NamespaceCall Thread → Prop
  | .create kind address _ _ =>
    ∀ container, address = some container → (system.namespaces kind).containers container = none
  | .unifiedCreate _ _ _ allocations =>
    ∀ kind container, allocations.namespaceContainer kind = some container →
      (system.namespaces kind).containers container = none
  | _ => True

end NamespaceCall

namespace NamespaceLedger

def ownersAfter (ledger : NamespaceLedger Thread) :
    NamespaceCall Thread → NamespaceKind → Nat → Int
  | .create kind (some address) _ _ =>
    update ledger.owners kind (update (ledger.owners kind) address kind.rules.initialRc)
  | .unifiedCreate _ _ _ allocations => fun kind address =>
    if allocations.namespaceContainer kind = some address then 1 else ledger.owners kind address
  | _ => ledger.owners

/-- A run ends at a call that goes through a `NULL` or freed pointer. -/
def step (names : ObjectNames Thread) (state : Option (NamespaceLedger Thread))
    (call : NamespaceCall Thread) : Option (NamespaceLedger Thread) :=
  state.bind fun ledger => (call.perform names ledger.system).map fun after =>
    ⟨after, ledger.ownersAfter call⟩

variable [Fintype Thread] (ledger : NamespaceLedger Thread)

/-- The reference counts of all kinds are exact, and no thread points to a
container that has been freed. -/
def Counted : Prop :=
  ∀ kind, (ledger.system.namespaces kind).Counted (ledger.owners kind)

/-- A `move_task` between containers frees the source exactly when it takes away
the last reference. -/
def FreesLast : NamespaceCall Thread → Prop
  | .moveTask kind tables (some src) (some dest) (some thread) =>
    (ledger.system.namespaces kind).containers src ≠ none →
      (ledger.system.namespaces kind).containers dest ≠ none →
        (ledger.system.namespaces kind).FreesLast (ledger.owners kind) src dest thread
          (kind.containerMoveTask (ledger.system.namespaces kind) tables (some src) (some dest)
            (some thread))
  | _ => True

/-- The calls that keep the references: a `delete` moves all threads of the
container to the root, and a `move_task` does not take the last reference from
the container that it moves the thread to. -/
def Keeps : NamespaceCall Thread → Prop
  | .delete kind tables (some deleted) =>
    deleted ≠ (ledger.system.namespaces kind).root →
      (ledger.system.namespaces kind).containers deleted ≠ none →
        ∀ thread, (ledger.system.namespaces kind).pointer thread = some deleted →
          tables.Rehomes kind.rules thread
  | .moveTask kind _ (some src) (some dest) (some thread) =>
    ¬ (ledger.system.namespaces kind).DropsItself kind.rules (ledger.owners kind) src dest thread
  | _ => True

/-- Every thread without a container object has no pointer. -/
structure Sound (ledger : NamespaceLedger Thread) : Prop where
  identified : ∀ kind, (ledger.system.namespaces kind).Identified
  outside : ∀ thread, ledger.system.hasContainer thread = false →
    ∀ kind, (ledger.system.namespaces kind).pointer thread = none
  nonneg : ∀ kind address, 0 ≤ ledger.owners kind address

variable {names : ObjectNames Thread} {ledger}
variable {after : ContainerSystem Thread}

omit [Fintype Thread] [DecidableEq Thread] in
/-- A `create` of its own makes a container or uses up an identifier. -/
theorem containerCreate_holds (property : NamespaceSystem Thread → Prop) (kind : NamespaceKind)
    (system : NamespaceSystem Thread) (address : Option Nat) (group malloc : Bool)
    (unmade : property system)
    (used : property { system with idCounter := system.idCounter + 1 })
    (made : ∀ container created, address = some container →
      system.Created container kind.rules.initialRc created → property created) :
    property (kind.containerCreate system address group malloc).1 := by
  have creates : ∀ container listed, address = some container →
      property (system.create kind.rules container listed) := by
    intro container listed isContainer
    exact made container _ isContainer
      (NamespaceSystem.create_created kind.rules system container listed)
  cases address with
  | none =>
    cases kind with
    | uts | mnt | net | ipc => exact unmade
  | some container =>
    cases kind with
    | uts | ipc => exact creates container malloc rfl
    | mnt => exact creates container false rfl
    | net =>
      cases group with
      | true => exact creates container malloc rfl
      | false => exact used

/-- What every operation keeps of the containers of a kind: the identifiers, and
that the threads without a container object have no pointer. -/
def Intact (isOutside : Thread → Prop) (system : NamespaceSystem Thread) : Prop :=
  system.Identified ∧ ∀ thread, isOutside thread → system.pointer thread = none

variable {isOutside : Thread → Prop} {system : NamespaceSystem Thread}

omit [Fintype Thread] [DecidableEq Thread] in
theorem Intact.used (intact : Intact isOutside system) :
    Intact isOutside { system with idCounter := system.idCounter + 1 } := by
  have positive := intact.1.counter
  refine ⟨⟨intact.1.root, intact.1.others, ?_⟩, intact.2⟩
  show 1 ≤ system.idCounter + 1
  omega

omit [Fintype Thread] [DecidableEq Thread] in
theorem Intact.created {created : NamespaceSystem Thread} {address : Nat} {rc : Int}
    (intact : Intact isOutside system) (fresh : system.containers address = none)
    (makes : system.Created address rc created) : Intact isOutside created := by
  refine ⟨intact.1.created fresh makes, ?_⟩
  intro thread outside
  rw [makes.pointer]
  exact intact.2 thread outside

section

omit [Fintype Thread]

variable {isOutside : Thread → Prop} {rules : NamespaceRules} {tables : ThreadTables Thread}

theorem Intact.moveTask {system moved : NamespaceSystem Thread}
    {srcContainer destContainer : Option Nat} {thread : Option Thread}
    (intact : Intact isOutside system)
    (result : system.moveTask rules tables srcContainer destContainer thread = some moved) :
    Intact isOutside moved := by
  refine ⟨intact.1.shrinks (NamespaceSystem.moveTask_shrinks intact.1 result), ?_⟩
  intro other outside
  exact NamespaceSystem.moveTask_outside intact.1 result (intact.2 other outside)

theorem Intact.delete {system deleted : NamespaceSystem Thread} {container : Option Nat}
    (intact : Intact isOutside system)
    (result : system.delete rules tables container = some deleted) : Intact isOutside deleted := by
  refine ⟨intact.1.shrinks (NamespaceSystem.delete_shrinks result), ?_⟩
  intro other outside
  exact NamespaceSystem.delete_outside result (intact.2 other outside)

theorem Intact.joinRoot {system joined : NamespaceSystem Thread} {thread : Thread}
    (intact : Intact isOutside system) (inside : ¬ isOutside thread)
    (result : system.joinRoot thread = some joined) : Intact isOutside joined := by
  have pointers : ∀ other, isOutside other → joined.pointer other = none := by
    intro other outside
    have different : other ≠ thread := fun same => inside (same ▸ outside)
    exact (NamespaceSystem.joinRoot_pointer result different).trans (intact.2 other outside)
  obtain ⟨counted, counts, rfl⟩ := Option.map_eq_some_iff.mp result
  exact ⟨(intact.1.shrinks (NamespaceSystem.addRc_shrinks counts)).shrinks
    (NamespaceSystem.setPointer_shrinks thread system.root), pointers⟩

end

omit [Fintype Thread] [DecidableEq Thread] in
theorem ownersAfter_nonneg (nonneg : ∀ kind address, 0 ≤ ledger.owners kind address)
    (call : NamespaceCall Thread) (kind : NamespaceKind) (address : Nat) :
    0 ≤ ledger.ownersAfter call kind address := by
  cases call with
  | create made container group malloc =>
    cases container with
    | none => exact nonneg kind address
    | some container =>
      have initial : 0 ≤ made.rules.initialRc := by
        cases made <;> decide
      by_cases same : kind = made
      · subst kind
        simp only [ownersAfter, update_self]
        by_cases isNew : address = container
        · rw [isNew, update_self]
          exact initial
        · rw [update_of_ne isNew]
          exact nonneg made address
      · simp only [ownersAfter, update_of_ne same]
        exact nonneg kind address
  | unifiedCreate config defaultCgroupConfig tables allocations =>
    simp only [ownersAfter]
    split
    · decide
    · exact nonneg kind address
  | moveTask | delete | unifiedEnter | unifiedLeave => exact nonneg kind address

section

omit [Fintype Thread]

variable {system : ContainerSystem Thread} {call : NamespaceCall Thread}

theorem perform_holds (property : NamespaceKind → NamespaceSystem Thread → Prop)
    (possible : call.Possible system) (holds : ∀ kind, property kind (system.namespaces kind))
    (used : ∀ kind, property kind { system.namespaces kind with
      idCounter := (system.namespaces kind).idCounter + 1 })
    (made : ∀ kind address rc created, (system.namespaces kind).containers address = none →
      (system.namespaces kind).Created address rc created → property kind created)
    (joins : ∀ container thread tables allocations,
      call = .unifiedEnter container thread tables allocations →
        system.hasContainer (thread.getD tables.executing) = false → ∀ kind joined,
          (system.namespaces kind).joinRoot (thread.getD tables.executing) = some joined →
            property kind joined)
    (moves : ∀ kind before moved tables src dest thread, property kind before →
      before.moveTask kind.rules tables src dest thread = some moved → property kind moved)
    (deletes : ∀ kind before deleted tables container, property kind before →
      before.delete kind.rules tables container = some deleted → property kind deleted)
    (result : call.perform names system = some after) :
    ∀ kind, property kind (after.namespaces kind) := by
  cases call with
  | create kind address group malloc =>
    cases result
    apply ContainerSystem.setNamespace_holds property
    · apply containerCreate_holds (property kind) kind _ address group malloc (holds kind)
        (used kind)
      intro container created isContainer makes
      exact made kind container _ created (possible container isContainer) makes
    · exact fun other _ => holds other
  | moveTask kind tables srcContainer destContainer thread =>
    obtain ⟨moved, isMoved, rfl⟩ := Option.map_eq_some_iff.mp result
    rw [NamespaceKind.containerMoveTask_eq] at isMoved
    apply ContainerSystem.setNamespace_holds property
    · exact moves kind _ moved tables _ _ _ (holds kind) isMoved
    · exact fun other _ => holds other
  | delete kind tables container =>
    obtain ⟨deleted, isDeleted, rfl⟩ := Option.map_eq_some_iff.mp result
    rw [NamespaceKind.containerDelete_eq] at isDeleted
    apply ContainerSystem.setNamespace_holds property
    · exact deletes kind _ deleted tables _ (holds kind) isDeleted
    · exact fun other _ => holds other
  | unifiedCreate config defaultCgroupConfig tables allocations =>
    obtain ⟨⟨created, outcome⟩, creates, rfl⟩ := Option.map_eq_some_iff.mp result
    exact (ContainerSystem.create_holds property holds used
      (fun kind address created allocated makes =>
        made kind address 1 created (possible kind address allocated) makes)
      (fun kind before deleted address _ kept removes =>
        deletes kind before deleted tables _ kept removes) creates).2
  | unifiedEnter container thread tables allocations =>
    obtain ⟨⟨entered, status⟩, enters, rfl⟩ := Option.map_eq_some_iff.mp result
    exact ContainerSystem.enter_holds property holds
      (joins container thread tables allocations rfl)
      (fun kind before moved src dest kept isMoved =>
        moves kind before moved tables src dest _ kept isMoved) enters
  | unifiedLeave container thread tables malloc =>
    obtain ⟨⟨left, status⟩, leaves, rfl⟩ := Option.map_eq_some_iff.mp result
    exact ContainerSystem.leave_holds property holds
      (fun _ kind before moved src dest kept isMoved =>
        moves kind before moved tables src dest _ kept isMoved) leaves

theorem perform_hasContainer (result : call.perform names system = some after) :
    after = system ∨ ∀ other, after.hasContainer other = false →
      system.hasContainer other = false ∧ ∀ container thread tables allocations,
        call = .unifiedEnter container thread tables allocations →
          other ≠ thread.getD tables.executing := by
  cases call with
  | create kind address group malloc =>
    cases result
    exact .inr fun other isNew => ⟨isNew, nofun⟩
  | moveTask kind tables srcContainer destContainer thread =>
    obtain ⟨moved, -, rfl⟩ := Option.map_eq_some_iff.mp result
    exact .inr fun other isNew => ⟨isNew, nofun⟩
  | delete kind tables container =>
    obtain ⟨deleted, -, rfl⟩ := Option.map_eq_some_iff.mp result
    exact .inr fun other isNew => ⟨isNew, nofun⟩
  | unifiedCreate config defaultCgroupConfig tables allocations =>
    obtain ⟨⟨created, outcome⟩, creates, rfl⟩ := Option.map_eq_some_iff.mp result
    have same : created.hasContainer = system.hasContainer :=
      (ContainerSystem.create_holds (fun _ _ => True) (fun _ => trivial) (fun _ => trivial)
        (fun _ _ _ _ _ => trivial) (fun _ _ _ _ _ _ _ => trivial) creates).1
    refine .inr fun other isNew => ⟨?_, nofun⟩
    rw [← same]
    exact isNew
  | unifiedEnter container thread tables allocations =>
    obtain ⟨⟨entered, status⟩, enters, rfl⟩ := Option.map_eq_some_iff.mp result
    obtain same | fewer := ContainerSystem.enter_hasContainer enters
    · exact .inl same
    · refine .inr fun other isNew => ⟨(fewer other isNew).2, ?_⟩
      intro _ _ _ _ isCall
      cases isCall
      exact (fewer other isNew).1
  | unifiedLeave container thread tables malloc =>
    obtain ⟨⟨left, status⟩, leaves, rfl⟩ := Option.map_eq_some_iff.mp result
    refine .inr fun other isNew => ⟨?_, nofun⟩
    rw [← ContainerSystem.leave_hasContainer leaves]
    exact isNew

theorem Sound.perform (sound : ledger.Sound) (call : NamespaceCall Thread)
    (possible : call.Possible ledger.system)
    (result : call.perform names ledger.system = some after) :
    (⟨after, ledger.ownersAfter call⟩ : NamespaceLedger Thread).Sound := by
  have intact : ∀ kind, Intact (fun thread => ledger.system.hasContainer thread = false)
      (ledger.system.namespaces kind) :=
    fun kind => ⟨sound.identified kind, fun thread isNew => sound.outside thread isNew kind⟩
  suffices holds : ∀ kind, Intact (fun thread => after.hasContainer thread = false)
      (after.namespaces kind) from
    ⟨fun kind => (holds kind).1, fun thread isNew kind => (holds kind).2 thread isNew,
      ownersAfter_nonneg sound.nonneg call⟩
  obtain same | fewer := perform_hasContainer result
  · rw [same]
    exact intact
  · have kept : ∀ kind, Intact (fun thread => after.hasContainer thread = false)
        (ledger.system.namespaces kind) :=
      fun kind => ⟨(intact kind).1, fun other isNew => (intact kind).2 other (fewer other isNew).1⟩
    apply perform_holds _ possible kept (fun kind => (kept kind).used)
      (fun kind _ _ _ fresh makes => (kept kind).created fresh makes) ?joins
      (fun _ _ _ _ _ _ _ holds moves => holds.moveTask moves)
      (fun _ _ _ _ _ holds removes => holds.delete removes) result
    intro container thread tables allocations isCall _ kind joined joins
    apply (kept kind).joinRoot _ joins
    exact fun isNew => (fewer _ isNew).2 container thread tables allocations isCall rfl

end

theorem Counted.moveTask_agrees (counted : ledger.Counted) (sound : ledger.Sound)
    (kind : NamespaceKind) (tables : ThreadTables Thread) (src dest : Option Nat)
    (thread : Option Thread) :
    ledger.FreesLast (.moveTask kind tables src dest thread) ↔
      ledger.Keeps (.moveTask kind tables src dest thread) := by
  cases src with
  | none => exact iff_of_true trivial trivial
  | some src =>
    cases dest with
    | none => exact iff_of_true trivial trivial
    | some dest =>
      cases thread with
      | none => exact iff_of_true trivial trivial
      | some thread =>
        constructor
        · intro freesLast drops
          have srcLive := (counted kind).live thread src drops.2.2.2.1
          have destLive := srcLive
          rw [drops.2.1] at destLive
          have moves := freesLast srcLive destLive
          rw [NamespaceKind.containerMoveTask_eq] at moves
          exact ((counted kind).moveTask_frees_iff (sound.identified kind)
            (sound.nonneg kind) kind.rules tables thread srcLive destLive).mp moves drops
        · intro keeps srcLive destLive
          rw [NamespaceKind.containerMoveTask_eq]
          exact ((counted kind).moveTask_frees_iff (sound.identified kind)
            (sound.nonneg kind) kind.rules tables thread srcLive destLive).mpr keeps

omit [DecidableEq Thread] in
theorem counted_of_fresh {owners others : Nat → Int} (counted : system.Counted owners)
    (same : ∀ address, owners address ≠ others address → system.containers address = none) :
    system.Counted others := by
  apply counted.congr
  intro address _ live
  by_contra differ
  exact live (same address differ)

section

variable (counted : ledger.Counted)
include counted

omit [DecidableEq Thread] in
theorem Counted.create (kind : NamespaceKind) (address : Option Nat) (group malloc : Bool)
    (possible : (NamespaceCall.create kind address group malloc :
      NamespaceCall Thread).Possible ledger.system) :
    (⟨ledger.system.setNamespace kind
        (kind.containerCreate (ledger.system.namespaces kind) address group malloc).1,
      ledger.ownersAfter (.create kind address group malloc)⟩ : NamespaceLedger Thread).Counted := by
  cases address with
  | none =>
    apply ContainerSystem.setNamespace_holds fun other system =>
      system.Counted (ledger.owners other)
    · apply containerCreate_holds (fun system => system.Counted (ledger.owners kind))
        kind _ none group malloc (counted kind)
      · exact ⟨(counted kind).counted, (counted kind).live⟩
      · exact nofun
    · exact fun other _ => counted other
  | some address =>
    have fresh := possible address rfl
    have owned : ∀ other, other ≠ kind →
        ledger.ownersAfter (.create kind (some address) group malloc) other =
          ledger.owners other := fun other different => update_of_ne different _ _
    have ownedHere : ledger.ownersAfter (.create kind (some address) group malloc) kind =
        update (ledger.owners kind) address kind.rules.initialRc :=
      update_self ..
    have unmade : (ledger.system.namespaces kind).Counted
        (update (ledger.owners kind) address kind.rules.initialRc) := by
      apply counted_of_fresh (counted kind)
      intro other differ
      by_cases same : other = address
      · exact same ▸ fresh
      · exact absurd (update_of_ne same _ _).symm differ
    apply ContainerSystem.setNamespace_holds fun other system =>
      system.Counted (ledger.ownersAfter (.create kind (some address) group malloc) other)
    · simp only [ownedHere]
      apply containerCreate_holds (fun system => system.Counted
        (update (ledger.owners kind) address kind.rules.initialRc))
        kind _ (some address) group malloc unmade
      · exact ⟨unmade.counted, unmade.live⟩
      · intro container created isContainer makes
        cases isContainer
        apply (counted kind).created fresh makes
        · exact update_self ..
        · exact fun other different => update_of_ne different _ _
    · intro other different
      rw [owned other different]
      exact counted other

variable {tables : ThreadTables Thread} {container : Option Nat} {thread : Option Thread}
variable {status : StatusCode}

theorem Counted.unifiedCreate (sound : ledger.Sound) {config : Option RtemsContainerConfig}
    {defaultCgroupConfig : Nat} {allocations : CreateAllocations} {outcome : Except StatusCode Nat}
    (possible : (NamespaceCall.unifiedCreate config defaultCgroupConfig tables
      allocations).Possible ledger.system)
    (result : ledger.system.rtemsUnifiedContainerCreate names config defaultCgroupConfig tables
      allocations = some (after, outcome)) :
    (⟨after, ledger.ownersAfter (.unifiedCreate config defaultCgroupConfig tables allocations)⟩ :
      NamespaceLedger Thread).Counted := by
  have owned : ∀ kind address, allocations.namespaceContainer kind = some address →
      ledger.ownersAfter (.unifiedCreate config defaultCgroupConfig tables allocations) kind
        address = 1 := fun kind address allocated => if_pos allocated
  have others : ∀ kind address, allocations.namespaceContainer kind ≠ some address →
      ledger.ownersAfter (.unifiedCreate config defaultCgroupConfig tables allocations) kind
        address = ledger.owners kind address := fun kind address different => if_neg different
  have unpointed : ∀ kind address, allocations.namespaceContainer kind = some address →
      ∀ thread, (ledger.system.namespaces kind).pointer thread ≠ some address := by
    intro kind address allocated thread points
    exact (counted kind).live thread address points (possible kind address allocated)
  have unmade : ∀ kind, (ledger.system.namespaces kind).Counted
      (ledger.ownersAfter (.unifiedCreate config defaultCgroupConfig tables allocations) kind) := by
    intro kind
    apply counted_of_fresh (counted kind)
    intro address differ
    by_cases allocated : allocations.namespaceContainer kind = some address
    · exact possible kind address allocated
    · exact absurd (others kind address allocated).symm differ
  have holds : ∀ kind, (after.namespaces kind).Identified ∧
      (after.namespaces kind).Counted (ledger.ownersAfter
        (.unifiedCreate config defaultCgroupConfig tables allocations) kind) ∧
      ∀ address, allocations.namespaceContainer kind = some address →
        ∀ thread, (after.namespaces kind).pointer thread ≠ some address := by
    refine (ContainerSystem.create_holds
      (fun kind (system : NamespaceSystem Thread) => system.Identified ∧
        system.Counted (ledger.ownersAfter (.unifiedCreate config defaultCgroupConfig tables
          allocations) kind) ∧
        ∀ address, allocations.namespaceContainer kind = some address →
          ∀ thread, system.pointer thread ≠ some address)
      (fun kind => ⟨sound.identified kind, unmade kind, unpointed kind⟩)
      ?used ?made ?deletes result).2
    case used =>
      intro kind
      have positive := (sound.identified kind).counter
      refine ⟨⟨(sound.identified kind).root, (sound.identified kind).others, ?_⟩,
        ⟨(unmade kind).counted, (unmade kind).live⟩, unpointed kind⟩
      show 1 ≤ (ledger.system.namespaces kind).idCounter + 1
      omega
    case made =>
      intro kind address created allocated makes
      have fresh := possible kind address allocated
      refine ⟨(sound.identified kind).created fresh makes, ?_, ?_⟩
      · apply (counted kind).created fresh makes
        · exact owned kind address allocated
        · intro other different
          apply others kind other
          intro same
          exact different (Option.some.inj (same.symm.trans allocated))
      · intro other otherAllocated thread
        rw [makes.pointer]
        exact unpointed kind other otherAllocated thread
    case deletes =>
      intro kind before deleted address allocated holds removes
      obtain ⟨identified, exact, free⟩ := holds
      obtain ⟨-, rfl⟩ | ⟨notRoot, gone⟩ := NamespaceSystem.delete_cases removes
      · exact ⟨identified, exact, free⟩
      · refine ⟨identified.shrinks (gone.shrinks notRoot),
          exact.deletedAgain identified (free address allocated) gone notRoot, ?_⟩
        intro other otherAllocated thread
        rw [gone.stays thread fun both => free address allocated thread both.1]
        exact free other otherAllocated thread
  exact fun kind => (holds kind).2.1

theorem Counted.unifiedEnter (sound : ledger.Sound) {allocations : EnterAllocations}
    (result : ledger.system.rtemsUnifiedContainerEnter names container thread tables allocations =
      some (after, status)) : (⟨after, ledger.owners⟩ : NamespaceLedger Thread).Counted := by
  have holds := ContainerSystem.enter_holds
    (fun kind (system : NamespaceSystem Thread) => system.Identified ∧
      system.Counted (ledger.owners kind))
    (fun kind => ⟨sound.identified kind, counted kind⟩) ?joins
    (fun kind before moved src dest holds moves =>
      ⟨holds.1.shrinks (NamespaceSystem.moveTask_shrinks holds.1 moves),
        holds.2.moveTask holds.1 (sound.nonneg kind) moves⟩) result
  case joins =>
    intro isNew kind joined joins
    refine ⟨?_, (counted kind).joinRoot (sound.identified kind) (sound.outside _ isNew kind) joins⟩
    obtain ⟨ahead, counts, rfl⟩ := Option.map_eq_some_iff.mp joins
    exact ((sound.identified kind).shrinks (NamespaceSystem.addRc_shrinks counts)).shrinks
      (NamespaceSystem.setPointer_shrinks _ _)
  exact fun kind => (holds kind).2

theorem Counted.unifiedLeave (sound : ledger.Sound) {malloc : Nat → Bool}
    (result : ledger.system.rtemsUnifiedContainerLeave names container thread tables malloc =
      some (after, status)) : (⟨after, ledger.owners⟩ : NamespaceLedger Thread).Counted := by
  have holds := ContainerSystem.leave_holds
    (fun kind (system : NamespaceSystem Thread) => system.Identified ∧
      system.Counted (ledger.owners kind))
    (fun kind => ⟨sound.identified kind, counted kind⟩)
    (fun _ kind before moved src dest holds moves =>
      ⟨holds.1.shrinks (NamespaceSystem.moveTask_shrinks holds.1 moves),
        holds.2.moveTask holds.1 (sound.nonneg kind) moves⟩) result
  exact fun kind => (holds kind).2

theorem Counted.delete_iff (sound : ledger.Sound) {kind : NamespaceKind}
    {deleted : NamespaceSystem Thread}
    (result : (ledger.system.namespaces kind).delete kind.rules tables container = some deleted) :
    (⟨ledger.system.setNamespace kind deleted, ledger.owners⟩ : NamespaceLedger Thread).Counted ↔
      ledger.Keeps (.delete kind tables container) := by
  have onlyKind : (⟨ledger.system.setNamespace kind deleted, ledger.owners⟩ :
      NamespaceLedger Thread).Counted ↔ deleted.Counted (ledger.owners kind) := by
    constructor
    · intro holds
      have here := holds kind
      simpa [ContainerSystem.setNamespace] using here
    · intro holds
      exact ContainerSystem.setNamespace_holds
        (fun other system => system.Counted (ledger.owners other)) holds fun other _ => counted other
  rw [onlyKind]
  cases container with
  | none =>
    cases result
    exact iff_of_true (counted kind) trivial
  | some address =>
    obtain ⟨isRoot, rfl⟩ | ⟨notRoot, gone⟩ := NamespaceSystem.delete_cases result
    · exact iff_of_true (counted kind) fun notRoot => absurd isRoot notRoot
    · obtain ⟨root, isRoot, -⟩ := (sound.identified kind).root
      rw [(counted kind).deleted_iff gone notRoot (by simp [isRoot])]
      exact ⟨fun leaves _ _ => leaves, fun keeps => keeps notRoot gone.wasLive⟩

theorem Counted.step_iff (names : ObjectNames Thread) (sound : ledger.Sound)
    (call : NamespaceCall Thread) (possible : call.Possible ledger.system) :
    (∀ next, step names (some ledger) call = some next → next.Counted) ∧ ledger.FreesLast call ↔
      ledger.Keeps call := by
  have steps : (∀ next, step names (some ledger) call = some next → next.Counted) ↔
      ∀ after, call.perform names ledger.system = some after →
        (⟨after, ledger.ownersAfter call⟩ : NamespaceLedger Thread).Counted := by
    simp [step]
  rw [steps]
  cases call with
  | create kind address group malloc =>
    refine iff_of_true ⟨?_, trivial⟩ trivial
    intro after result
    cases result
    exact counted.create kind address group malloc possible
  | moveTask kind tables srcContainer destContainer thread =>
    rw [← counted.moveTask_agrees sound kind tables srcContainer destContainer thread,
      and_iff_right_iff_imp]
    intro _ after result
    obtain ⟨moved, isMoved, rfl⟩ := Option.map_eq_some_iff.mp result
    rw [NamespaceKind.containerMoveTask_eq] at isMoved
    exact ContainerSystem.setNamespace_holds
      (fun other system => system.Counted (ledger.owners other))
      ((counted kind).moveTask (sound.identified kind) (sound.nonneg kind) isMoved)
      fun other _ => counted other
  | delete kind tables container =>
    have observed : ledger.FreesLast (.delete kind tables container) := trivial
    rw [and_iff_left observed]
    cases result : (ledger.system.namespaces kind).delete kind.rules tables container with
    | none =>
      refine iff_of_true ?_ ?_
      · intro after performed
        obtain ⟨deleted, isDeleted, -⟩ := Option.map_eq_some_iff.mp performed
        rw [NamespaceKind.containerDelete_eq, result] at isDeleted
        cases isDeleted
      · cases container with
        | none => trivial
        | some address =>
          intro _ live
          obtain ⟨root, isRoot, -⟩ := (sound.identified kind).root
          obtain ⟨deleted, isDeleted⟩ := NamespaceSystem.exists_delete
            (by simp [isRoot]) live kind.rules tables
          rw [result] at isDeleted
          cases isDeleted
    | some deleted =>
      rw [← counted.delete_iff sound result]
      constructor
      · intro holds
        apply holds
        simp [NamespaceCall.perform, result]
      · intro holds after performed
        obtain ⟨other, isOther, rfl⟩ := Option.map_eq_some_iff.mp performed
        rw [NamespaceKind.containerDelete_eq, result] at isOther
        cases isOther
        exact holds
  | unifiedCreate config defaultCgroupConfig tables allocations =>
    refine iff_of_true ⟨?_, trivial⟩ trivial
    intro after result
    obtain ⟨⟨created, outcome⟩, creates, rfl⟩ := Option.map_eq_some_iff.mp result
    exact counted.unifiedCreate sound possible creates
  | unifiedEnter container thread tables allocations =>
    refine iff_of_true ⟨?_, trivial⟩ trivial
    intro after result
    obtain ⟨⟨entered, status⟩, enters, rfl⟩ := Option.map_eq_some_iff.mp result
    exact counted.unifiedEnter sound enters
  | unifiedLeave container thread tables malloc =>
    refine iff_of_true ⟨?_, trivial⟩ trivial
    intro after result
    obtain ⟨⟨left, status⟩, leaves, rfl⟩ := Option.map_eq_some_iff.mp result
    exact counted.unifiedLeave sound leaves

end

end NamespaceLedger

/-- The namespaces as `rtems_container_initialize_root` leaves them, with threads
that have been given the roots since. -/
structure ContainerSystem.AtRoots (system : ContainerSystem Thread) : Prop where
  identified : ∀ kind, (system.namespaces kind).Identified
  rootsOnly : ∀ kind address, (system.namespaces kind).containers address ≠ none →
    address = (system.namespaces kind).root
  outside : ∀ thread, system.hasContainer thread = false →
    ∀ kind, (system.namespaces kind).pointer thread = none
  inside : ∀ thread kind address, (system.namespaces kind).pointer thread = some address →
    address = (system.namespaces kind).root

open NamespaceLedger

variable [Fintype Thread]

/-- In every run the reference counts stay exact, and every `move_task` frees its
source with the last reference to it, exactly when every call keeps the
references. -/
theorem namespaceRun_counted_iff (names : ObjectNames Thread) (system : ContainerSystem Thread)
    (calls : List (NamespaceCall Thread)) (roots : system.AtRoots)
    (possible : Meets (NamespaceLedger.step names)
      (fun state call => ∀ ledger, state = some ledger → call.Possible ledger.system)
      (some ⟨system, fun _ _ => 0⟩) calls) :
    (Throughout (NamespaceLedger.step names)
          (fun state => ∀ ledger, state = some ledger → ledger.Counted)
          (some ⟨system, fun _ _ => 0⟩) calls ∧
        Meets (NamespaceLedger.step names)
          (fun state call => ∀ ledger, state = some ledger → ledger.FreesLast call)
          (some ⟨system, fun _ _ => 0⟩) calls) ↔
      Meets (NamespaceLedger.step names)
        (fun state call => ∀ ledger, state = some ledger → ledger.Keeps call)
        (some ⟨system, fun _ _ => 0⟩) calls := by
  have sound : ∀ ledger : NamespaceLedger Thread, some ⟨system, fun _ _ => 0⟩ = some ledger →
      ledger.Sound := by
    intro ledger isLedger
    cases isLedger
    exact ⟨roots.identified, roots.outside, fun _ _ => le_rfl⟩
  have counted : ∀ ledger : NamespaceLedger Thread, some ⟨system, fun _ _ => 0⟩ = some ledger →
      ledger.Counted := by
    intro ledger isLedger kind
    cases isLedger
    constructor
    · intro address container found notRoot
      change (system.namespaces kind).containers address = some container at found
      exact absurd (roots.rootsOnly kind address (by simp [found])) notRoot
    · intro thread address points
      obtain ⟨root, isRoot, -⟩ := (roots.identified kind).root
      rw [roots.inside thread kind address points, isRoot]
      simp
  rw [throughout_and_meets_iff (fun state => ∀ ledger, state = some ledger → ledger.Sound) sound
    possible ?preserved ?agrees, and_iff_right counted]
  case preserved =>
    intro state call sound possible next isNext
    obtain ⟨ledger, rfl, performed⟩ := Option.bind_eq_some_iff.mp isNext
    obtain ⟨after, result, rfl⟩ := Option.map_eq_some_iff.mp performed
    exact (sound ledger rfl).perform call (possible ledger rfl) result
  case agrees =>
    intro state call sound possible counted
    cases state with
    | none => exact iff_of_true ⟨nofun, nofun⟩ nofun
    | some ledger =>
      have agrees := (counted ledger rfl).step_iff names (sound ledger rfl) call
        (possible ledger rfl)
      simpa using agrees

def twoInRoot (rules : NamespaceRules) : NamespaceSystem (Fin 2) where
  root := 0
  containers := (NamespaceSystem.initializeRoot rules 0 : NamespaceSystem (Fin 2)).containers
  listHead := []
  idCounter := 1
  pointer := fun _ => some 0

def rootedTasks : ContainerSystem (Fin 2) where
  toUnifiedSystem := { bootedSystem with hasContainer := fun _ => true }
  namespaces := fun kind => twoInRoot kind.rules
  ioCgroups := IoCgroupSystem.initial
  parts := fun _ => ⟨fun _ => none, none, 0, 0⟩

private theorem twoInRoot_dead (rules : NamespaceRules) {address : Nat} (notRoot : address ≠ 0) :
    (twoInRoot rules).containers address = none := by
  simp [twoInRoot, NamespaceSystem.initializeRoot, notRoot]

theorem rootedTasks_atRoots : rootedTasks.AtRoots where
  identified kind := by
    refine ⟨⟨⟨kind.rules.rootRc, 1⟩, rfl, rfl⟩, ?_, Int.le_refl 1⟩
    intro address container found notRoot
    have absent := twoInRoot_dead kind.rules notRoot
    exact nomatch absent.symm.trans found
  rootsOnly kind address live := by
    by_contra notRoot
    exact live (twoInRoot_dead kind.rules notRoot)
  outside thread isNew := nomatch (isNew : true = false)
  inside thread kind address points := by
    have root : some 0 = some address := points
    exact (Option.some.inj root).symm

/-- Task 0 is moved into an IPC container and back before the container is
deleted. -/
def ipcVisit : List (NamespaceCall (Fin 2)) :=
  [.create .ipc (some 5) true true, .moveTask .ipc ⟨[1], 0⟩ (some 0) (some 5) (some 0),
    .moveTask .ipc ⟨[1], 0⟩ (some 5) (some 0) (some 0), .delete .ipc ⟨[1], 0⟩ (some 5)]

theorem ipcVisit_possible : Meets (NamespaceLedger.step twoTaskNames)
    (fun state call => ∀ ledger, state = some ledger → call.Possible ledger.system)
    (some ⟨rootedTasks, fun _ _ => 0⟩) ipcVisit := by
  refine ⟨?_, fun _ _ => trivial, fun _ _ => trivial, fun _ _ => trivial, trivial⟩
  intro ledger isLedger container isContainer
  cases isLedger
  cases isContainer
  decide

theorem ipcVisit_counted :
    Throughout (NamespaceLedger.step twoTaskNames)
        (fun state => ∀ ledger, state = some ledger → ledger.Counted)
        (some ⟨rootedTasks, fun _ _ => 0⟩) ipcVisit ∧
      Meets (NamespaceLedger.step twoTaskNames)
        (fun state call => ∀ ledger, state = some ledger → ledger.FreesLast call)
        (some ⟨rootedTasks, fun _ _ => 0⟩) ipcVisit := by
  apply (namespaceRun_counted_iff twoTaskNames rootedTasks ipcVisit rootedTasks_atRoots
    ipcVisit_possible).mpr
  refine ⟨?create, ?enter, ?leave, ?delete, trivial⟩
  case create => exact fun _ _ => trivial
  case enter =>
    intro ledger isLedger drops
    cases isLedger
    exact absurd drops.2.1 (by decide)
  case leave =>
    intro ledger isLedger drops
    cases isLedger
    exact absurd drops.2.1 (by decide)
  case delete =>
    intro ledger isLedger _ _
    cases isLedger
    decide

/-- Task 0 is moved into an IPC container, which is deleted: the task points to a
freed container. -/
theorem ipcDeleted_dangles : ¬ ∀ (names : ObjectNames (Fin 2)) (system : ContainerSystem (Fin 2))
    (calls : List (NamespaceCall (Fin 2))), system.AtRoots →
      Meets (NamespaceLedger.step names)
        (fun state call => ∀ ledger, state = some ledger → call.Possible ledger.system)
        (some ⟨system, fun _ _ => 0⟩) calls →
      Throughout (NamespaceLedger.step names)
          (fun state => ∀ ledger, state = some ledger → ledger.Counted)
          (some ⟨system, fun _ _ => 0⟩) calls ∧
        Meets (NamespaceLedger.step names)
          (fun state call => ∀ ledger, state = some ledger → ledger.FreesLast call)
          (some ⟨system, fun _ _ => 0⟩) calls := by
  intro claim
  have possible : Meets (NamespaceLedger.step twoTaskNames)
      (fun state call => ∀ ledger, state = some ledger → call.Possible ledger.system)
      (some ⟨rootedTasks, fun _ _ => 0⟩)
      [.create .ipc (some 5) true true, .moveTask .ipc ⟨[1], 0⟩ (some 0) (some 5) (some 0),
        .delete .ipc ⟨[1], 0⟩ (some 5)] :=
    ⟨ipcVisit_possible.1, fun _ _ => trivial, fun _ _ => trivial, trivial⟩
  have counted := (claim twoTaskNames rootedTasks _ rootedTasks_atRoots possible).1.final _ rfl
  exact (counted .ipc).live 0 5 (by decide) (by decide)

end RTContainer.Score
