import RTContainer.Score.ContainerRegistries
import RTContainer.Score.IoThreadWeights
import RTContainer.Score.UnifiedMembership

/-! The creation of unified containers is all or nothing. The parts are created one after the
other, each in a registry of its own; what a part that fails leaves behind is taken back by
`rtems_unified_container_delete`, which goes by what has been filled in so far. -/

set_option autoImplicit false

namespace RTContainer.Score

open RTContainer.Rtems

namespace IoCgroupSystem

/-- The cgroups on the manager's list. A manager that has not been created has none. -/
def members (system : IoCgroupSystem) : List Nat :=
  match system.globalIoCgroupManager with
  | none => []
  | some manager => system.traverse manager

def memberCount (system : IoCgroupSystem) : BitVec 32 :=
  match system.globalIoCgroupManager with
  | none => 0
  | some manager => manager.ioCgroupCount

def memberWeight (system : IoCgroupSystem) : BitVec 32 :=
  match system.globalIoCgroupManager with
  | none => 0
  | some manager => manager.totalWeight

structure SameMembers (system after : IoCgroupSystem) : Prop where
  members : after.members = system.members
  count : after.memberCount = system.memberCount
  weight : after.memberWeight = system.memberWeight
  limits : ∀ block ∈ system.members, (after.controls block).limits = (system.controls block).limits

variable {system middle after : IoCgroupSystem} {manager next : IoCgroupManager}
variable {linked : List Nat} {block : Nat}

theorem SameMembers.refl (system : IoCgroupSystem) : system.SameMembers system :=
  ⟨rfl, rfl, rfl, fun _ _ => rfl⟩

theorem SameMembers.trans (first : system.SameMembers middle)
    (second : middle.SameMembers after) : system.SameMembers after where
  members := second.members.trans first.members
  count := second.count.trans first.count
  weight := second.weight.trans first.weight
  limits block member :=
    (second.limits block (first.members ▸ member)).trans (first.limits block member)

theorem members_of_totals (configured : system.globalIoCgroupManager = some manager)
    (totals : system.Totals manager linked) : system.members = linked := by
  simp only [members, configured, totals.traverse_eq]

theorem SameMembers.of_totals (configured : system.globalIoCgroupManager = some manager)
    (isNext : after.globalIoCgroupManager = some next) (totals : system.Totals manager linked)
    (kept : after.Totals next linked) (weight : next.totalWeight = manager.totalWeight)
    (limits : ∀ block ∈ linked, (after.controls block).limits = (system.controls block).limits) :
    system.SameMembers after where
  members := by rw [members_of_totals configured totals, members_of_totals isNext kept]
  count := by
    simp only [memberCount, configured, isNext]
    exact kept.count.trans totals.count.symm
  weight := by
    simp only [memberWeight, configured, isNext]
    exact weight
  limits := by
    rw [members_of_totals configured totals]
    exact limits

theorem managerCreate_sameMembers (system : IoCgroupSystem)
    (systemReadBps systemWriteBps : BitVec 64) (malloc : Bool) :
    system.SameMembers
      (system.rtemsIoCgroupManagerCreate systemReadBps systemWriteBps malloc).1 := by
  cases configured : system.globalIoCgroupManager with
  | some manager =>
    simp only [rtemsIoCgroupManagerCreate, configured]
    exact .refl system
  | none =>
    have empty : system.members = [] := by simp only [members, configured]
    cases malloc with
    | false =>
      simp only [rtemsIoCgroupManagerCreate, configured, Bool.not_false, if_true]
      exact .refl system
    | true =>
      simp only [rtemsIoCgroupManagerCreate, configured, Bool.not_true, Bool.false_eq_true,
        if_false]
      refine ⟨?_, ?_, ?_, fun block member =>
        absurd (empty ▸ member : block ∈ []) List.not_mem_nil⟩
      · rw [empty]
        simp only [members, traverse]
        cases system.allocated.length with
        | zero => rfl
        | succ length => rfl
      · simp only [memberCount, configured]
      · simp only [memberWeight, configured]

theorem freed_sameMembers (enlisted : system.Enlisted) (fresh : block ∉ system.allocated)
    (given : IoCgroupLimit) (ticksSinceBoot : BitVec 32) :
    system.SameMembers ((system.allocateControl block given ticksSinceBoot).free block) := by
  have allocated : ((system.allocateControl block given ticksSinceBoot).free block).allocated =
      system.allocated := List.erase_cons_head ..
  have kept : ∀ other ∈ system.allocated,
      ((system.allocateControl block given ticksSinceBoot).free block).controls other =
        system.controls other :=
    fun other member => store_other (ne_of_mem_of_not_mem member fresh)
  cases configured : system.globalIoCgroupManager with
  | none =>
    have unmanaged : ((system.allocateControl block given ticksSinceBoot).free
        block).globalIoCgroupManager = none := configured
    have empty : system.members = [] := by simp only [members, configured]
    refine ⟨?_, ?_, ?_, fun other member => nomatch (empty ▸ member : other ∈ [])⟩
    · simp only [members, configured, unmanaged]
    · simp only [memberCount, configured, unmanaged]
    · simp only [memberWeight, configured, unmanaged]
  | some manager =>
    obtain ⟨linked, listed⟩ := enlisted.listed configured
    have same : ∀ other ∈ linked, ((system.allocateControl block given ticksSinceBoot).free
        block).controls other = system.controls other :=
      fun other member => kept other (listed.allocated.mem_iff.mp member)
    refine .of_totals configured configured listed.toTotals ?_ rfl ?_
    · apply listed.toTotals.congr (allocated ▸ listed.visited)
      all_goals
        intro other member
        rw [same other member]
    · intro other member
      rw [same other member]

theorem unlinked_sameMembers (configured : system.globalIoCgroupManager = some manager)
    (listed : system.Listed manager linked) (fresh : block ∉ system.allocated)
    (given : IoCgroupLimit) (ticksSinceBoot : BitVec 32) :
    system.SameMembers (((system.enrol manager block given
      ticksSinceBoot).rtemsIoCgroupRemoveFromManager block).1.free block) := by
  have added := listed.enrol fresh given ticksSinceBoot
  have totals := added.toTotals.unlinkWeightless List.mem_cons_self
    (enrol_weight_self given ticksSinceBoot)
  have rolledBack := totals.free (added.allocated.erase block)
  rw [List.erase_cons_head] at rolledBack
  rw [removeFromManager_eq (enrol_globalIoCgroupManager ..)]
  refine .of_totals configured rfl listed.toTotals rolledBack.toTotals rfl ?_
  intro other member
  have different := ne_of_mem_of_not_mem (listed.allocated.mem_iff.mp member) fresh
  show ((system.allocateControl block given ticksSinceBoot).controls other).limits = _
  rw [allocateControl_other given ticksSinceBoot different]

variable {ioCgroupWeight : BitVec 16} {limits : Option IoCgroupLimit} {cgroupId buffer : Bool}
variable {malloc : Option Nat} {ticksSinceBoot : BitVec 32}

theorem create_sameMembers (enlisted : system.Enlisted)
    (fresh : ∀ block, malloc = some block → block ∉ system.allocated)
    (failed : (system.rtemsIoCgroupCreate ioCgroupWeight limits cgroupId malloc buffer
      ticksSinceBoot).2.isOk = false) :
    system.SameMembers (system.rtemsIoCgroupCreate ioCgroupWeight limits cgroupId malloc buffer
      ticksSinceBoot).1 := by
  by_cases enrols : ∃ manager block given,
      system.Enrols limits cgroupId malloc buffer manager block given
  · obtain ⟨manager, block, given, enrols⟩ := enrols
    obtain ⟨linked, listed⟩ := enlisted.listed enrols.configured
    rw [IoCgroupCall.create_isOk enrols] at failed
    have weightless : ioCgroupWeight = 0 := not_not.mp (of_decide_eq_false failed)
    rw [enrols.create_eq_enrol, if_pos weightless]
    exact unlinked_sameMembers enrols.configured listed (fresh block enrols.malloc) given _
  · obtain unchanged | ⟨block, given, isBlock, freed⟩ := create_eq_of_not_enrols enrols
    · rw [unchanged]
      exact .refl system
    · rw [freed]
      exact freed_sameMembers enlisted (fresh block isBlock) given _

theorem Enrols.create_id {given : IoCgroupLimit}
    (enrols : system.Enrols limits cgroupId malloc buffer manager block given)
    (weighs : ioCgroupWeight ≠ 0) (ticksSinceBoot : BitVec 32) :
    (system.rtemsIoCgroupCreate ioCgroupWeight limits cgroupId malloc buffer ticksSinceBoot).2 =
      .ok ((system.rtemsIoCgroupCreate ioCgroupWeight limits cgroupId malloc buffer
        ticksSinceBoot).1.controls block).id := by
  rw [enrols.create_result]
  simp only [if_neg weighs]

theorem getById_created {id : BitVec 32} (enlisted : system.Enlisted)
    (fresh : ∀ block, malloc = some block → block ∉ system.allocated)
    (created : system.rtemsIoCgroupCreate ioCgroupWeight limits cgroupId malloc buffer
      ticksSinceBoot = (after, .ok id)) : ∃ block, after.rtemsIoCgroupGetById id = some block := by
  have isAfter := congrArg Prod.fst created
  have isId := congrArg Prod.snd created
  by_cases enrols : ∃ manager block given,
      system.Enrols limits cgroupId malloc buffer manager block given
  · obtain ⟨manager, block, given, enrols⟩ := enrols
    obtain ⟨linked, listed⟩ := enlisted.listed enrols.configured
    have weighs : ioCgroupWeight ≠ 0 := by
      have succeeds := IoCgroupCall.create_isOk enrols ioCgroupWeight ticksSinceBoot
      rw [isId] at succeeds
      exact of_decide_eq_true succeeds.symm
    have named : (after.controls block).id = id := by
      rw [enrols.create_id weighs, isAfter] at isId
      exact Except.ok.inj isId
    have reweighed := (listed.enrol (fresh block enrols.malloc) given ticksSinceBoot).reweigh
      (ioCgroupWeight.setWidth 32) List.mem_cons_self
    rw [enrols.create_eq_enrol, if_neg weighs, allocateWeight_eq (enrol_globalIoCgroupManager ..)
      (widened_ne_zero weighs)] at isAfter
    dsimp only at isAfter
    refine ⟨block, ?_⟩
    rw [rtemsIoCgroupGetById, ← isAfter, reweigh_globalIoCgroupManager, Option.bind_some,
      reweighed.toTotals.traverse_eq, isAfter]
    exact List.find?_cons_of_pos (decide_eq_true named)
  · have fails : (system.rtemsIoCgroupCreate ioCgroupWeight limits cgroupId malloc buffer
        ticksSinceBoot).2.isOk = false := IoCgroupCall.create_failed enrols
    rw [isId] at fails
    cases fails

end IoCgroupSystem

variable {Thread : Type}

/-- What `rtems_pid_container_create` and the reference of the unified container do to the PID
containers. -/
structure PidSystem.Created (system : PidSystem Thread) (address : Nat)
    (after : PidSystem Thread) : Prop where
  fresh : system.containers address = none
  root : after.root = system.root
  made : after.containers address ≠ none
  others : ∀ other, other ≠ address → after.containers other = system.containers other
  registry : after.registry = system.registry ∨ after.registry = address :: system.registry

namespace PidSystem

variable {system after : PidSystem Thread} {address : Nat}

theorem create_created (fresh : system.containers address = none) (malloc : Bool) :
    system.Created address
      ((system.rtemsPidContainerCreate (some address) malloc).rtemsPidContainerIncRc
        (some address)) := by
  let record : PidContainer Thread := PidContainer.initial (system.pidContainerId + 1)
  have found : (system.rtemsPidContainerCreate (some address) malloc).containers address =
      some record := by
    cases malloc with
    | false | true => exact store_same ..
  simp only [rtemsPidContainerIncRc, found]
  have others : ∀ other, other ≠ address →
      (system.rtemsPidContainerCreate (some address) malloc).containers other =
        system.containers other := by
    intro other different
    cases malloc with
    | false | true => exact store_other _ _ different
  refine {
    fresh := fresh
    root := ?_
    made := ?_
    others := fun other different => (store_other _ _ different).trans (others other different)
    registry := ?_ }
  · cases malloc with
    | false => rfl
    | true => rfl
  · rw [store_same]
    exact Option.some_ne_none _
  · cases malloc with
    | false => exact .inl rfl
    | true => exact .inr rfl

theorem Created.registered (created : system.Created address after)
    (registered : system.Registered) : after.Registered := by
  have entered := Registry.Rooted.enter registered created.fresh created.made created.others
    created.registry
  rw [← created.root] at entered
  exact entered

variable [DecidableEq Thread]

theorem Created.delete {objectId : Thread → ObjectsId} (created : system.Created address after)
    (registered : system.Registered) (malloc : Nat → Bool) :
    (after.rtemsPidContainerDelete objectId (some address) malloc).registry = system.registry := by
  have notRoot : address ≠ after.root := created.root ▸ registered.ne_root created.fresh
  obtain ⟨root, rootLive⟩ :=
    Option.ne_none_iff_exists'.mp (created.registered registered).rootLive
  obtain ⟨record, found⟩ := Option.ne_none_iff_exists'.mp created.made
  rw [rtemsPidContainerDelete_eq notRoot rootLive found]
  exact registered.registry.erase_entered (not_not_intro created.fresh) created.registry

end PidSystem

/-- The registries of the namespaces, the live cgroups and the members of the I/O manager are
what they were. -/
structure ContainerSystem.SameRegistries (system after : ContainerSystem Thread) : Prop where
  pids : after.pids.registry = system.pids.registry
  namespaces : ∀ kind, (after.namespaces kind).listHead = (system.namespaces kind).listHead
  cgroups : after.cgroups.opened = system.cgroups.opened
  ioCgroups : system.ioCgroups.SameMembers after.ioCgroups

namespace ContainerCreation

def PidFilled (system : ContainerSystem Thread) (creation : ContainerCreation Thread) : Prop :=
  match creation.created.pidContainer with
  | none => creation.system.pids = system.pids
  | some address => system.pids.Created address creation.system.pids

def CgroupFilled (system : ContainerSystem Thread) (creation : ContainerCreation Thread) : Prop :=
  if creation.created.cgroupId = 0 then
    creation.system.cgroups.opened = system.cgroups.opened
  else
    creation.system.cgroups.opened = creation.created.cgroupId :: system.cgroups.opened

structure Filled (system : ContainerSystem Thread) (creation : ContainerCreation Thread) :
    Prop where
  pids : PidFilled system creation
  cgroups : CgroupFilled system creation
  ioCgroup : creation.parts.ioCgroup = none
  ioCgroupId : creation.parts.ioCgroupId = 0
  members : system.ioCgroups.SameMembers creation.system.ioCgroups

variable {system : ContainerSystem Thread} {creation after : ContainerCreation Thread}
variable {config : RtemsContainerConfig} {allocations : CreateAllocations}
variable {kind : NamespaceKind} {kinds : List NamespaceKind} {status : StatusCode}

theorem PidFilled.delete [DecidableEq Thread] {objectId : Thread → ObjectsId}
    (filled : PidFilled system creation) (registered : system.pids.Registered)
    (malloc : Nat → Bool) :
    (creation.system.pids.rtemsPidContainerDelete objectId creation.created.pidContainer
      malloc).registry = system.pids.registry := by
  unfold PidFilled at filled
  split at filled
  · rename_i none
    rw [none, filled]
    rfl
  · rename_i address isAddress
    rw [isAddress]
    exact filled.delete registered malloc

theorem PidFilled.registered (filled : PidFilled system creation)
    (registered : system.pids.Registered) : creation.system.pids.Registered := by
  unfold PidFilled at filled
  split at filled
  · rw [filled]
    exact registered
  · exact filled.registered registered

theorem PidFilled.isLive (filled : PidFilled system creation) :
    creation.system.pids.isLive creation.created.pidContainer = true := by
  unfold PidFilled at filled
  split at filled
  · rename_i none
    rw [none]
    rfl
  · rename_i address isAddress
    rw [isAddress]
    exact Option.isSome_iff_ne_none.mpr filled.made

theorem CgroupFilled.delete (filled : CgroupFilled system creation) :
    (if creation.created.cgroupId ≠ 0 then
        rtemsCgroupDelete creation.system.cgroups creation.created.cgroupId
      else (creation.system.cgroups, .successful)).1.opened = system.cgroups.opened := by
  unfold CgroupFilled at filled
  split at filled
  · rename_i none
    rw [if_neg (not_not_intro none)]
    exact filled
  · rename_i named
    have found : cgroupGet creation.system.cgroups creation.created.cgroupId =
        some creation.created.cgroupId := by
      rw [cgroupGet, filled]
      exact List.find?_cons_of_pos (decide_eq_true rfl)
    rw [if_pos named, rtemsCgroupDelete, found]
    show creation.system.cgroups.opened.erase creation.created.cgroupId = _
    rw [filled]
    exact List.erase_cons_head ..

theorem createNamespace_kept
    (result : creation.createNamespace allocations kind = some (after, status)) :
    after.created = creation.created ∧ after.parts.ioCgroup = creation.parts.ioCgroup ∧
      after.parts.ioCgroupId = creation.parts.ioCgroupId ∧
        creation.system.OnlyNamespaces after.system := by
  unfold createNamespace at result
  split at result
  · split at result
    split at result
    · cases result
      exact ⟨rfl, rfl, rfl, ContainerSystem.setNamespace_only _⟩
    · obtain ⟨owned, -, same⟩ := Option.map_eq_some_iff.mp result
      cases same
      exact ⟨rfl, rfl, rfl, ContainerSystem.setNamespace_only owned⟩
  · cases result
    exact ⟨rfl, rfl, rfl, .refl _⟩

theorem Filled.createNamespace (filled : creation.Filled system)
    (result : creation.createNamespace allocations kind = some (after, status)) :
    after.Filled system := by
  obtain ⟨created, ioCgroup, ioCgroupId, namespaces, only⟩ := createNamespace_kept result
  refine {
    pids := ?_
    cgroups := ?_
    ioCgroup := ioCgroup.trans filled.ioCgroup
    ioCgroupId := ioCgroupId.trans filled.ioCgroupId
    members := ?_ }
  · rw [PidFilled, created, only]
    exact filled.pids
  · rw [CgroupFilled, created, only]
    exact filled.cgroups
  · rw [only]
    exact filled.members

theorem Filled.createNamespaces (filled : creation.Filled system)
    (result : createNamespaces allocations kinds creation = some (after, status)) :
    after.Filled system := by
  induction kinds generalizing creation with
  | nil =>
    cases result
    exact filled
  | cons kind rest ih =>
    obtain ⟨creates, -⟩ | ⟨middle, creates, result⟩ := andThen_eq_some.mp result
    · exact filled.createNamespace creates
    · exact ih (filled.createNamespace creates) result

theorem createPid_filled (config : RtemsContainerConfig) (fresh : allocations.Fresh system) :
    (createPid ⟨system, ⟨config.flags, false, none, none, 0, none⟩, ⟨fun _ => none, none, 0, 0⟩⟩
      config allocations).1.Filled system := by
  have start : Filled system
      ⟨system, ⟨config.flags, false, none, none, 0, none⟩, ⟨fun _ => none, none, 0, 0⟩⟩ :=
    ⟨rfl, rfl, rfl, rfl, .refl _⟩
  let part := system.toUnifiedSystem.createPid ⟨config.flags, false, none, none, 0, none⟩
    (outcomes allocations config)
  show Filled system ⟨system.withUnified part.1, part.2.1, ⟨fun _ => none, none, 0, 0⟩⟩
  simp only [part, UnifiedSystem.createPid]
  split
  · cases allocated : allocations.pidContainer with
    | none =>
      simp only [outcomes, allocated]
      exact start
    | some address =>
      simp only [outcomes, allocated]
      exact {
        pids := PidSystem.create_created (fresh.pidContainer address allocated) _
        cgroups := rfl
        ioCgroup := rfl
        ioCgroupId := rfl
        members := .refl _ }
  · exact start

theorem Filled.createCgroup (filled : creation.Filled system)
    (unnamed : creation.created.cgroupId = 0) (config : RtemsContainerConfig)
    (fresh : allocations.Fresh system) :
    (creation.createCgroup config allocations).1.Filled system := by
  have opened : creation.system.cgroups.opened = system.cgroups.opened := by
    have cgroups := filled.cgroups
    rwa [CgroupFilled, if_pos unnamed] at cgroups
  unfold ContainerCreation.createCgroup
  obtain ⟨block, -, isBlock, made⟩ | ⟨-, sameSystem, sameCreated, -⟩ :=
    UnifiedSystem.createCgroup_cases creation.system.toUnifiedSystem creation.created
      (outcomes allocations config)
  · rw [made]
    refine ⟨filled.pids, ?_, filled.ioCgroup, filled.ioCgroupId, filled.members⟩
    rw [CgroupFilled, if_neg (fresh.cgroup block isBlock)]
    exact congrArg (block :: ·) opened
  · simp only [sameSystem, sameCreated]
    exact filled

theorem Filled.createIo (filled : creation.Filled system) (registered : system.Registered)
    (fresh : allocations.Fresh system)
    (unchanged : creation.system.ioCgroups = system.ioCgroups)
    (failed : (creation.createIo config allocations).2 ≠ .successful) :
    (creation.createIo config allocations).1.Filled system := by
  have enlisted : (system.ioCgroups.rtemsIoCgroupManagerCreate config.ioSystemReadBps
      config.ioSystemWriteBps allocations.ioManager).1.Enlisted :=
    (IoCgroupCall.managerCreate_effect registered.ioCgroups _ _ _).enlisted
  have managed := system.ioCgroups.managerCreate_sameMembers config.ioSystemReadBps
    config.ioSystemWriteBps allocations.ioManager
  have allocated := system.ioCgroups.managerCreate_allocated config.ioSystemReadBps
    config.ioSystemWriteBps allocations.ioManager
  have freshControl : ∀ block, allocations.ioControl = some block →
      block ∉ (system.ioCgroups.rtemsIoCgroupManagerCreate config.ioSystemReadBps
        config.ioSystemWriteBps allocations.ioManager).1.allocated := by
    rw [allocated]
    exact fresh.ioControl
  have keeps : ∀ ioCgroups, system.ioCgroups.SameMembers ioCgroups →
      Filled system { creation with system := { creation.system with ioCgroups := ioCgroups } } :=
    fun ioCgroups same =>
      ⟨filled.pids, filled.cgroups, filled.ioCgroup, filled.ioCgroupId, same⟩
  unfold ContainerCreation.createIo at failed ⊢
  rw [unchanged] at failed ⊢
  split
  · rename_i flagged
    rw [if_pos flagged] at failed
    split
    · rename_i manager isManager
      rw [isManager] at failed enlisted managed freshControl
      dsimp only at failed
      split
      · rename_i ioCgroups error creates
        have same := IoCgroupSystem.create_sameMembers enlisted freshControl
          (congrArg (fun made => made.2.isOk) creates)
        rw [creates] at same
        exact keeps ioCgroups (managed.trans same)
      · rename_i ioCgroups id creates
        -- a cgroup that has been created is found
        obtain ⟨block, found⟩ := IoCgroupSystem.getById_created enlisted freshControl creates
        rw [creates] at failed
        dsimp only at failed
        rw [found] at failed
        exact absurd rfl failed
    · rename_i manager error _ manages
      rw [manages] at managed
      exact keeps manager managed
  · exact filled

theorem createIo_listed (listed : creation.system.Listed)
    (fresh : ∀ block, allocations.ioControl = some block →
      block ∉ creation.system.ioCgroups.allocated) :
    (creation.createIo config allocations).1.system.Listed := by
  have enlisted : (creation.system.ioCgroups.rtemsIoCgroupManagerCreate config.ioSystemReadBps
      config.ioSystemWriteBps allocations.ioManager).1.Enlisted :=
    (IoCgroupCall.managerCreate_effect listed.ioCgroups _ _ _).enlisted
  rw [← creation.system.ioCgroups.managerCreate_allocated config.ioSystemReadBps
    config.ioSystemWriteBps allocations.ioManager] at fresh
  unfold createIo
  split
  · split
    · rename_i manager isManager
      rw [isManager] at enlisted fresh
      have made : (manager.rtemsIoCgroupCreate config.ioWeight
          (some ⟨config.ioReadBpsLimit, config.ioWriteBpsLimit, config.ioWindowSizeMs⟩) true
          allocations.ioControl allocations.ioBuffer allocations.ticksSinceBoot).1.Enlisted :=
        (IoCgroupCall.create_effect enlisted fresh).enlisted
      split
      · rename_i creates
        rw [creates] at made
        exact listed.withIo made
      · rename_i creates
        rw [creates] at made
        split
        · exact listed.withIo made
        · exact listed.withIo made
    · rename_i manages
      rw [manages] at enlisted
      exact listed.withIo enlisted
  · exact listed

theorem exists_containerOwn {namespaces made : NamespaceSystem Thread} {container : Option Nat}
    {address : Nat} {group malloc : Bool}
    (creates : kind.containerCreate namespaces container group malloc = (made, some address)) :
    ∃ owned, kind.containerOwn made address malloc = some owned := by
  cases kind with
  | uts =>
    cases creates
    have created := NamespaceSystem.create_created NamespaceKind.uts.rules namespaces address malloc
    exact NamespaceSystem.exists_addRc _ address (created.made ▸ Option.some_ne_none _) 1
  | mnt | net | ipc => exact ⟨_, rfl⟩

theorem exists_createNamespaces (allocations : CreateAllocations) (kinds : List NamespaceKind)
    (creation : ContainerCreation Thread) :
    ∃ ended, createNamespaces allocations kinds creation = some ended := by
  have single : ∀ (creation : ContainerCreation Thread) kind,
      ∃ ended, creation.createNamespace allocations kind = some ended := by
    intro creation kind
    unfold createNamespace
    split
    · split
      rename_i made container creates
      cases container with
      | none => exact ⟨_, rfl⟩
      | some address =>
        obtain ⟨owned, owns⟩ := exists_containerOwn creates
        exact ⟨_, Option.map_eq_some_iff.mpr ⟨owned, owns, rfl⟩⟩
    · exact ⟨_, rfl⟩
  induction kinds generalizing creation with
  | nil => exact ⟨_, rfl⟩
  | cons kind rest ih => exact exists_andThen (single creation kind) ih

end ContainerCreation

namespace ContainerSystem

variable {system after : ContainerSystem Thread} {creation : ContainerCreation Thread}
variable {config : RtemsContainerConfig} {allocations : CreateAllocations} {status : StatusCode}

private theorem exists_createAll (system : ContainerSystem Thread) (config : RtemsContainerConfig)
    (allocations : CreateAllocations) :
    ∃ ended, system.createAll config allocations = some ended := by
  unfold createAll
  apply exists_andThen ⟨_, rfl⟩
  intro pid
  apply exists_andThen (ContainerCreation.exists_createNamespaces allocations _ pid)
  intro made
  apply exists_andThen ⟨_, rfl⟩
  exact fun grouped => ⟨_, rfl⟩

/-- What a failed creation has made is new, and its I/O cgroup is gone. -/
theorem createAll_filled (registered : system.Registered) (fresh : allocations.Fresh system)
    (result : system.createAll config allocations = some (creation, status))
    (failed : status ≠ .successful) : creation.Filled system := by
  let start : ContainerCreation Thread :=
    ⟨system, ⟨config.flags, false, none, none, 0, none⟩, ⟨fun _ => none, none, 0, 0⟩⟩
  have first := ContainerCreation.createPid_filled config fresh
  have unnamed : (start.createPid config allocations).1.created.cgroupId = 0 :=
    (UnifiedSystem.createPid_cases system.toUnifiedSystem start.created
      (ContainerCreation.outcomes allocations config)).2.2.2.1
  have sameIo : (start.createPid config allocations).1.system.ioCgroups = system.ioCgroups := rfl
  unfold createAll at result
  obtain ⟨ends, -⟩ | ⟨pid, creates, result⟩ := andThen_eq_some.mp result
  · rw [Option.some.inj ends] at first
    exact first
  rw [Option.some.inj creates] at first unnamed sameIo
  obtain ⟨ends, -⟩ | ⟨made, makes, result⟩ := andThen_eq_some.mp result
  · exact first.createNamespaces ends
  have second := first.createNamespaces makes
  have third := second.createCgroup
    ((congrArg RtemsContainer.cgroupId (ContainerCreation.createNamespaces_created makes)).trans
      unnamed) config fresh
  have unchanged : (made.createCgroup config allocations).1.system.ioCgroups =
      system.ioCgroups := by
    obtain ⟨namespaces, only⟩ := ContainerCreation.createNamespaces_only makes
    exact (congrArg ioCgroups only).trans sameIo
  obtain ⟨ends, -⟩ | ⟨grouped, groups, result⟩ := andThen_eq_some.mp result
  · rw [Option.some.inj ends] at third
    exact third
  rw [Option.some.inj groups] at third unchanged
  have isLast := Option.some.inj result
  have stops : (grouped.createIo config allocations).2 ≠ .successful := by
    rw [isLast]
    exact failed
  have last := third.createIo registered fresh unchanged stops
  rw [isLast] at last
  exact last

theorem createAll_namespaces (registered : system.Registered) (fresh : allocations.Fresh system)
    (result : system.createAll config allocations = some (creation, status))
    (kind : NamespaceKind) :
    (creation.system.namespaces kind).Registered ∧
      match creation.parts.namespaces kind with
      | none => (creation.system.namespaces kind).listHead = (system.namespaces kind).listHead
      | some address => (system.namespaces kind).containers address = none ∧
          (system.namespaces kind).Created address 1 (creation.system.namespaces kind) := by
  obtain ⟨none, same | used⟩ | ⟨address, allocated, isAddress, created⟩ :=
    (createAll_makes result).2 kind
  · rw [none, same]
    exact ⟨registered.namespaces kind, rfl⟩
  · rw [none, used]
    exact ⟨registered.namespaces kind, rfl⟩
  · have unused := fresh.namespaceContainer kind address allocated
    rw [isAddress]
    exact ⟨(registered.namespaces kind).created unused created, unused, created⟩

variable [DecidableEq Thread] {names : ObjectNames Thread}

/-- The release of a failed creation restores the registries. -/
theorem releaseAll_sameRegistries (registered : system.Registered)
    (fresh : allocations.Fresh system)
    (result : system.createAll config allocations = some (creation, status))
    (filled : creation.Filled system) (address : Nat) (tables : ThreadTables Thread)
    (malloc : Nat → Bool) :
    ∃ after first, creation.system.releaseAll names address creation.created creation.parts
      .successful tables malloc = some (after, first) ∧ system.SameRegistries after := by
  have namespaces := createAll_namespaces registered fresh result
  let released := creation.system.withUnified (creation.system.release names address
    creation.created .successful malloc).1
  have keepsIo : released.deleteIo creation.parts = some released := by
    simp only [deleteIo, filled.ioCgroup, filled.ioCgroupId, ne_eq, not_true_eq_false, and_false,
      if_false]
  -- every kind deletes what has been created of it
  obtain ⟨after, deletes⟩ : ∃ after,
      deleteNamespaces creation.parts tables NamespaceKind.all released = some after := by
    rw [deleteNamespaces_eq]
    apply exists_eachNamespace NamespaceKind.all_nodup
    intro kind _
    obtain ⟨kindRegistered, made⟩ := namespaces kind
    split at made
    · rename_i none
      rw [none]
      exact ⟨_, rfl⟩
    · rename_i container isContainer
      rw [isContainer]
      exact NamespaceSystem.exists_delete kindRegistered.rootLive
        (made.2.made ▸ Option.some_ne_none _) kind.rules tables
  have each := deleteNamespaces_eq creation.parts tables NamespaceKind.all released ▸ deletes
  obtain ⟨lists, only⟩ := deleteNamespaces_only deletes
  refine ⟨after, (creation.system.release names address creation.created .successful malloc).2,
    ?_, ?_⟩
  · unfold ContainerSystem.releaseAll
    simp only [UnifiedSystem.releaseLive, filled.pids.isLive, if_true, Option.bind_some]
    rw [keepsIo, Option.bind_some, deletes, Option.map_some]
  · refine {
      pids := ?pids
      namespaces := ?lists
      cgroups := ?cgroups
      ioCgroups := ?ioCgroups }
    case pids =>
      rw [only]
      exact filled.pids.delete registered.pids malloc
    case lists =>
      intro kind
      have steps := (eachNamespace_each NamespaceKind.all_nodup each kind).1 kind.mem_all
      obtain ⟨kindRegistered, made⟩ := namespaces kind
      split at made
      · rename_i none
        rw [none] at steps
        rw [← Option.some.inj steps]
        exact made
      · rename_i container isContainer
        rw [isContainer] at steps
        have notRoot : container ≠ (creation.system.namespaces kind).root := by
          rw [made.2.root]
          exact (registered.namespaces kind).ne_root made.1
        rw [NamespaceSystem.delete_listHead notRoot steps]
        exact (registered.namespaces kind).registry.erase_entered (not_not_intro made.1)
          made.2.listHead
    case cgroups =>
      rw [only]
      exact filled.cgroups.delete
    case ioCgroups =>
      rw [only]
      exact filled.members

omit [DecidableEq Thread] in
theorem Listed.createAll (listed : system.Listed) (fresh : allocations.Fresh system)
    (result : system.createAll config allocations = some (creation, status)) :
    creation.system.Listed := by
  have first : (ContainerCreation.createPid ⟨system, ⟨config.flags, false, none, none, 0, none⟩,
      ⟨fun _ => none, none, 0, 0⟩⟩ config allocations).1.system.Listed :=
    listed.withUnified ((ContainerCreation.createPid_filled config fresh).pids.registered
      listed.pids)
  have sameIo : (ContainerCreation.createPid ⟨system, ⟨config.flags, false, none, none, 0, none⟩,
      ⟨fun _ => none, none, 0, 0⟩⟩ config allocations).1.system.ioCgroups = system.ioCgroups := rfl
  unfold ContainerSystem.createAll at result
  obtain ⟨ends, -⟩ | ⟨pid, creates, result⟩ := andThen_eq_some.mp result
  · rw [Option.some.inj ends] at first
    exact first
  rw [Option.some.inj creates] at first sameIo
  obtain ⟨ends, -⟩ | ⟨made, makes, result⟩ := andThen_eq_some.mp result
  · exact first.only (ContainerCreation.createNamespaces_only ends)
  have second := first.only (ContainerCreation.createNamespaces_only makes)
  have same : UnifiedSystem.SameNamespaces made.system.toUnifiedSystem
      (made.system.toUnifiedSystem.createCgroup made.created
        (ContainerCreation.outcomes allocations config)).1 := UnifiedSystem.createCgroup_same.1
  have pids : (made.system.toUnifiedSystem.createCgroup made.created
      (ContainerCreation.outcomes allocations config)).1.pids.Registered := by
    rw [same.pids]
    exact second.pids
  have third : (made.createCgroup config allocations).1.system.Listed := second.withUnified pids
  have unchanged : (made.createCgroup config allocations).1.system.ioCgroups =
      system.ioCgroups := by
    obtain ⟨namespaces, only⟩ := ContainerCreation.createNamespaces_only makes
    exact (congrArg ContainerSystem.ioCgroups only).trans sameIo
  obtain ⟨ends, -⟩ | ⟨grouped, groups, result⟩ := andThen_eq_some.mp result
  · rw [Option.some.inj ends] at third
    exact third
  rw [Option.some.inj groups] at third unchanged
  have last : (grouped.createIo config allocations).1.system.Listed :=
    ContainerCreation.createIo_listed third (unchanged ▸ fresh.ioControl)
  rw [Option.some.inj result] at last
  exact last

theorem Registered.create {config : Option RtemsContainerConfig} {defaultCgroupConfig : Nat}
    {tables : ThreadTables Thread} {outcome : Except StatusCode Nat}
    (registered : system.Registered) (fresh : allocations.Fresh system)
    (result : system.rtemsUnifiedContainerCreate names config defaultCgroupConfig tables
      allocations = some (after, outcome)) : after.Registered where
  toListed := by
    unfold rtemsUnifiedContainerCreate at result
    cases calloc : allocations.calloc with
    | none =>
      rw [calloc] at result
      cases result
      exact registered.toListed
    | some address =>
      rw [calloc] at result
      obtain ⟨⟨creation, status⟩, creates, result⟩ := Option.bind_eq_some_iff.mp result
      have made := registered.toListed.createAll fresh creates
      simp only at result
      split at result
      · cases result
        exact ⟨made.pids, made.ioCgroups⟩
      · obtain ⟨⟨released, _⟩, releases, same⟩ := Option.map_eq_some_iff.mp result
        cases same
        exact made.releaseAll releases
  namespaces := (create_holds (fun _ => NamespaceSystem.Registered) registered.namespaces
    registered.namespaces
    (fun kind address _ allocated created =>
      (registered.namespaces kind).created (fresh.namespaceContainer kind address allocated) created)
    (fun _ _ _ _ _ kept deletes => kept.delete deletes) result).2

/-- `rtems_unified_container_create`, with the value that `*container` has afterwards; `none` is
a `container` that is `NULL`. The flags of the kinds that are not compiled in are refused. -/
def rtemsUnifiedContainerCreateInto (names : ObjectNames Thread) (notConfigured : BitVec 32)
    (system : ContainerSystem Thread) (config : Option RtemsContainerConfig)
    (defaultCgroupConfig : Nat) (container : Option (Option Nat)) (tables : ThreadTables Thread)
    (allocations : CreateAllocations) :
    Option (ContainerSystem Thread × StatusCode × Option (Option Nat)) :=
  match container with
  | none => some (system, .invalidAddress, none)
  | some _ =>
    let flags := (config.getD (rtemsUnifiedContainerConfigInitialize defaultCgroupConfig)).flags
    if flags &&& notConfigured ≠ 0 then some (system, .notConfigured, some none)
    else
      (system.rtemsUnifiedContainerCreate names config defaultCgroupConfig tables
        allocations).map fun (after, outcome) =>
          match outcome with
          | .ok created => (after, .successful, some (some created))
          | .error status => (after, status, some none)

variable {system : ContainerSystem Thread} {allocations : CreateAllocations}
variable {names : ObjectNames Thread}

omit [DecidableEq Thread] in
theorem SameRegistries.refl (system : ContainerSystem Thread) : system.SameRegistries system :=
  ⟨rfl, fun _ => rfl, rfl, .refl _⟩

/-- A failed create call leaves the registries as they were. -/
theorem createInto_failed (registered : system.Registered) (fresh : allocations.Fresh system)
    (notConfigured : BitVec 32) (config : Option RtemsContainerConfig) (defaultCgroupConfig : Nat)
    (container : Option (Option Nat)) (tables : ThreadTables Thread) :
    ∃ after status created,
      system.rtemsUnifiedContainerCreateInto names notConfigured config defaultCgroupConfig
        container tables allocations = some (after, status, created) ∧
        (status ≠ .successful →
          (created = container.map fun _ => none) ∧ system.SameRegistries after) := by
  rcases container with _ | old
  · exact ⟨system, .invalidAddress, none, rfl, fun _ => ⟨rfl, .refl system⟩⟩
  by_cases refused : (config.getD (rtemsUnifiedContainerConfigInitialize
      defaultCgroupConfig)).flags &&& notConfigured ≠ 0
  · refine ⟨system, .notConfigured, some none, ?_, fun _ => ⟨rfl, .refl system⟩⟩
    simp only [rtemsUnifiedContainerCreateInto, if_pos refused]
  simp only [rtemsUnifiedContainerCreateInto, if_neg refused]
  cases calloc : allocations.calloc with
  | none =>
    simp only [rtemsUnifiedContainerCreate, calloc, Option.map_some]
    exact ⟨_, _, _, rfl, fun _ => ⟨rfl, .refl system⟩⟩
  | some address =>
    obtain ⟨⟨creation, status⟩, creates⟩ := exists_createAll system
      (config.getD (rtemsUnifiedContainerConfigInitialize defaultCgroupConfig)) allocations
    simp only [rtemsUnifiedContainerCreate, calloc, creates, Option.bind_some]
    by_cases succeeds : status = .successful
    · rw [if_pos succeeds]
      exact ⟨_, _, _, rfl, fun failed => absurd rfl failed⟩
    · have filled := createAll_filled registered fresh creates succeeds
      obtain ⟨after, first, releases, same⟩ := @releaseAll_sameRegistries _ system creation _ _ _ _
        names registered fresh creates filled address tables allocations.deletion
      rw [if_neg succeeds, releases]
      exact ⟨_, _, _, rfl, fun _ => ⟨rfl, same⟩⟩

end ContainerSystem

end RTContainer.Score
