import RTContainer.Score.CgroupConfigs
import RTContainer.Score.ThreadDispatch

/-! The limits of the cgroups over time. A control block points to the
configuration that its creator has passed: a field of the unified container, or a
local variable of the function that carries out a command of a control file. The
limits that were given are kept beside the code. -/

set_option autoImplicit false

namespace RTContainer.Score

open RTContainer.Rtems Machine Function

structure CgroupLimits where
  cpuQuota : Nat
  cpuPeriod : Nat
  memoryLimit : Nat
deriving DecidableEq

def CoreCgroupConfig.limits (config : CoreCgroupConfig) : CgroupLimits :=
  ⟨config.cpuQuota, config.cpuPeriod, config.memoryLimit⟩

/-- A `Watchdog_Interval` has 32 bits, the period of a configuration has 64. -/
def CoreCgroupConfig.limitsInForce (config : CoreCgroupConfig) : CgroupLimits :=
  ⟨config.cpuQuota, config.cpuPeriod % 2 ^ 32, config.memoryLimit⟩

/-- The cgroups; the unified containers with a cgroup, by the address of their
configuration; the counter for the names of the control files; and the limits
that every cgroup was given at its creation or by the last successful `set`. -/
structure LimitAccount (Thread : Type) where
  system : CgroupSystem Thread
  containers : Nat → Option ObjectsId
  nameIndex : Nat
  limits : ObjectsId → CgroupLimits

/-- A local configuration of a command has the address `frame`, which other code
uses when the command has returned. -/
inductive LimitCall (Thread : Type) where
  | cpuctlCreate (quota period shares : Nat) (frame : Nat) (allocated : Option ObjectsId)
  | memctlCreate (memoryLimit : Nat) (frame : Nat) (allocated : Option ObjectsId)
  | containerCreate (address : Nat) (config : CoreCgroupConfig) (allocated : Option ObjectsId)
      (io : StatusCode)
  | containerDelete (address : Nat)
  | cpuctlSet (id : ObjectsId) (quota period : Nat)
  | memctlSet (id : ObjectsId) (memoryLimit : Nat)
  | cgroupDelete (id : ObjectsId)
  | suspend (block : ObjectsId) (waitState : BitVec 32)
  | resume (block : ObjectsId) (waitState : BitVec 32)
  | consumeCpuQuota (block : ObjectsId) (cpuTicksDelta : Nat)
  | cpuSuspendRoutine (block : ObjectsId)
  | cpuResumeRoutine (block : ObjectsId)
  | addThread (block : ObjectsId) (thread : Thread)
  | removeThread (block : ObjectsId) (thread : Thread)
  | overwrite (address : Nat) (config : CoreCgroupConfig)

/-- `rtems_build_name('C', 'P', 'U', '0' + (containerfs_cgroup_name_index++ % 10))`. -/
def cpuctlName (nameIndex : Nat) : BitVec 32 := 0x43505530#32 + BitVec.ofNat 32 (nameIndex % 10)

/-- `rtems_build_name('M', 'E', 'M', '0' + (containerfs_cgroup_name_index++ % 10))`. -/
def memctlName (nameIndex : Nat) : BitVec 32 := 0x4d454d30#32 + BitVec.ofNat 32 (nameIndex % 10)

variable {Thread : Type} [DecidableEq Thread]

namespace CgroupSystem

variable (system : CgroupSystem Thread)

def setConfig (address : Nat) (config : CoreCgroupConfig) : CgroupSystem Thread :=
  { system with configs := update system.configs address config }

def configuration (block : ObjectsId) : CoreCgroupConfig :=
  system.configs (system.cgroups block).config

/-- What the next refresh and the control files take for the limits of a cgroup:
the quota that `cpu_resume_routine` gives, the interval for which it schedules its
watchdog again, which is the period cut to 32 bits, and the reported memory limit. -/
def inForce (block : ObjectsId) : CgroupLimits where
  cpuQuota := ((system.cpuResumeRoutine block).cgroups block).cpuQuotaAvailable
  cpuPeriod := ((system.cpuResumeRoutine block).configuration block).cpuPeriod % 2 ^ 32
  memoryLimit := (system.configuration block).memoryLimit

/-- The store and the call of `rtems_cgroup_create`, with the new cgroup. -/
def createAt (name : BitVec 32) (address : Nat)
    (config : CoreCgroupConfig) (allocated : Option ObjectsId) :
    CgroupSystem Thread × Option ObjectsId :=
  let created := rtemsCgroupCreate (system.setConfig address config) name true address allocated
  (created.1, created.2.toOption)

end CgroupSystem

namespace LimitAccount

variable (account : LimitAccount Thread)

def create (name : BitVec 32) (address : Nat)
    (config : CoreCgroupConfig) (allocated : Option ObjectsId) :
    LimitAccount Thread × Option ObjectsId :=
  let (system, made) := account.system.createAt name address config allocated
  match made with
  | some block =>
    ({ account with
      system := system, limits := update account.limits block config.limits },
      some block)
  | none => ({ account with system := system }, none)

/-- The release of the cgroup of a unified container that is freed then. -/
def release (address : Nat) (cgroupId : ObjectsId) : LimitAccount Thread :=
  { account with
    system :=
      if cgroupId ≠ 0 then (rtemsCgroupDelete account.system cgroupId).1 else account.system
    containers := update account.containers address none }

def step : LimitCall Thread → LimitAccount Thread
  | .cpuctlCreate quota period shares frame allocated =>
    ({ account with nameIndex := account.nameIndex + 1 }.create (cpuctlName account.nameIndex)
      frame ⟨shares, quota, period, 0, 0⟩ allocated).1
  | .memctlCreate memoryLimit frame allocated =>
    ({ account with nameIndex := account.nameIndex + 1 }.create (memctlName account.nameIndex)
      frame ⟨1, 0, 0, memoryLimit, 0⟩ allocated).1
  | .containerCreate address config allocated io =>
    match account.create containerCgroupName address config allocated with
    | (made, some block) =>
      if io = .successful then
        { made with containers := update made.containers address (some block) }
      else made.release address block
    | (refused, none) => refused
  | .containerDelete address =>
    match account.containers address with
    | none => account
    | some cgroupId => account.release address cgroupId
  | .cpuctlSet id quota period =>
    match cgroupGet account.system id with
    | none => account
    | some block =>
      { account with
        system := account.system.coreCgroupSetCpuQuota (account.system.cgroups block).config
          quota period
        limits := update account.limits block
          { account.limits block with cpuQuota := quota, cpuPeriod := period } }
  | .memctlSet id memoryLimit =>
    match cgroupGet account.system id with
    | none => account
    | some block =>
      let limited := account.system.setConfig (account.system.cgroups block).config
        { account.system.configuration block with memoryLimit := memoryLimit }
      { account with
        system := limited.store block
          { limited.cgroups block with memQuotaAvailable := memoryLimit }
        limits := update account.limits block
          { account.limits block with memoryLimit := memoryLimit } }
  | .cgroupDelete id => { account with system := (rtemsCgroupDelete account.system id).1 }
  | .suspend block waitState =>
    { account with system := (account.system.coreCgroupSuspend (some block) waitState).1 }
  | .resume block waitState =>
    { account with system := (account.system.coreCgroupResume (some block) waitState).1 }
  | .consumeCpuQuota block cpuTicksDelta =>
    { account with system := account.system.coreCgroupConsumeCpuQuota block cpuTicksDelta }
  | .cpuSuspendRoutine block =>
    { account with system := account.system.cpuSuspendRoutine block }
  | .cpuResumeRoutine block => { account with system := account.system.cpuResumeRoutine block }
  | .addThread block thread =>
    { account with system := account.system.coreCgroupAddThread block thread }
  | .removeThread block thread =>
    { account with
      system := (account.system.coreCgroupRemoveThread block thread).getD account.system }
  | .overwrite address config =>
    { account with system := account.system.setConfig address config }

/-- The limits in force are those that were given. -/
def Persists : Prop :=
  ∀ block ∈ account.system.opened, account.system.inForce block = account.limits block

def stored : LimitCall Thread → Option (Nat × CoreCgroupConfig)
  | .cpuctlCreate quota period shares frame _ => some (frame, ⟨shares, quota, period, 0, 0⟩)
  | .memctlCreate memoryLimit frame _ => some (frame, ⟨1, 0, 0, memoryLimit, 0⟩)
  | .containerCreate address config _ _ => some (address, config)
  | .cpuctlSet id quota period => (cgroupGet account.system id).map fun block =>
    ((account.system.cgroups block).config,
      { account.system.configuration block with cpuQuota := quota, cpuPeriod := period })
  | .memctlSet id memoryLimit => (cgroupGet account.system id).map fun block =>
    ((account.system.cgroups block).config,
      { account.system.configuration block with memoryLimit := memoryLimit })
  | .overwrite address config => some (address, config)
  | _ => none

def target : LimitCall Thread → Option ObjectsId
  | .cpuctlSet id _ _ | .memctlSet id _ => cgroupGet account.system id
  | _ => none

/-- The period that a call gives to a cgroup which is open after it. -/
def givenPeriod : LimitCall Thread → Option Nat
  | .cpuctlCreate _ period _ _ allocated => allocated.map fun _ => period
  | .containerCreate _ config allocated .successful => allocated.map fun _ => config.cpuPeriod
  | .cpuctlSet id _ period => (cgroupGet account.system id).map fun _ => period
  | _ => none

/-- A call gives no period that is longer than a watchdog can wait, and stores nothing
where an open cgroup has its configuration, unless it is to set the limits of that cgroup
or stores what has the limits of the cgroup in force. -/
def Spares (call : LimitCall Thread) : Prop :=
  (∀ period ∈ account.givenPeriod call, period < 2 ^ 32) ∧
    ∀ entry ∈ account.stored call, ∀ block ∈ account.system.opened,
      account.target call ≠ some block → (account.system.cgroups block).config = entry.1 →
        entry.2.limitsInForce = account.limits block

instance (account : LimitAccount Thread) (call : LimitCall Thread) :
    Decidable (account.Spares call) :=
  @instDecidableAnd _ _ (Option.decidableForallMem (account.givenPeriod call))
    (@Option.decidableForallMem _ _ (fun _ => List.decidableBAll _ account.system.opened)
      (account.stored call))

/-- The object allocator gives out identifiers of blocks that are not open. -/
def Fresh : LimitCall Thread → Prop
  | .cpuctlCreate _ _ _ _ allocated | .memctlCreate _ _ allocated
  | .containerCreate _ _ allocated _ =>
    ∀ block ∈ allocated, block ≠ 0 ∧ block ∉ account.system.opened
  | _ => True

instance (account : LimitAccount Thread) :
    (call : LimitCall Thread) → Decidable (account.Fresh call)
  | .cpuctlCreate _ _ _ _ allocated | .memctlCreate _ _ allocated
  | .containerCreate _ _ allocated _ =>
    Option.decidableForallMem allocated
  | .containerDelete _ | .cpuctlSet _ _ _ | .memctlSet _ _ | .cgroupDelete _ | .suspend _ _
  | .resume _ _ | .consumeCpuQuota _ _ | .cpuSuspendRoutine _ | .cpuResumeRoutine _
  | .addThread _ _ | .removeThread _ _ | .overwrite _ _ => isTrue trivial

end LimitAccount

theorem CgroupSystem.inForce_eq (system : CgroupSystem Thread) (block : ObjectsId) :
    system.inForce block = (system.configuration block).limitsInForce := by
  have same := system.cpuResumeRoutine_sameConfigs block
  simp only [inForce, cpuResumeRoutine_quota, configuration, same.config, same.configs,
    CoreCgroupConfig.limitsInForce]

namespace LimitAccount

variable {account after : LimitAccount Thread} {address : Nat} {config : CoreCgroupConfig}
variable {exempt : Option ObjectsId}

theorem persists_iff : account.Persists ↔ ∀ block ∈ account.system.opened,
    (account.system.configuration block).limitsInForce = account.limits block := by
  simp only [Persists, CgroupSystem.inForce_eq]

/-- A call that leaves the configurations and the limits of what stays open. -/
structure Keeps (account after : LimitAccount Thread) : Prop where
  opened : ∀ block ∈ after.system.opened, block ∈ account.system.opened
  points : ∀ block, (after.system.cgroups block).config = (account.system.cgroups block).config
  configs : after.system.configs = account.system.configs
  limits : after.limits = account.limits

omit [DecidableEq Thread] in
theorem Keeps.of_sameConfigs {system : CgroupSystem Thread}
    (same : account.system.SameConfigs system) :
    account.Keeps { account with system := system } where
  opened := fun _ isOpen => same.opened ▸ isOpen
  points := same.config
  configs := same.configs
  limits := rfl

theorem Keeps.persists (keeps : account.Keeps after) (persists : account.Persists) :
    after.Persists := by
  rw [persists_iff] at persists ⊢
  intro block isOpen
  simp only [CgroupSystem.configuration, keeps.points, keeps.configs, keeps.limits]
  exact persists block (keeps.opened block isOpen)

structure Stores (account after : LimitAccount Thread) (address : Nat) (config : CoreCgroupConfig)
    (exempt : Option ObjectsId) : Prop where
  opened : ∀ block, exempt ≠ some block →
    (block ∈ after.system.opened ↔ block ∈ account.system.opened)
  points : ∀ block, exempt ≠ some block →
    (after.system.cgroups block).config = (account.system.cgroups block).config
  configs : after.system.configs = update account.system.configs address config
  limits : ∀ block, exempt ≠ some block → after.limits block = account.limits block
  exempted : ∀ block, exempt = some block → after.system.configuration block = config

/-- The cgroup that a call is about has what was given in force. -/
def Schedules (after : LimitAccount Thread) (config : CoreCgroupConfig)
    (exempt : Option ObjectsId) : Prop :=
  ∀ block ∈ after.system.opened, exempt = some block → config.limitsInForce = after.limits block

theorem Stores.persists_iff (stores : account.Stores after address config exempt)
    (persists : account.Persists) :
    after.Persists ↔ after.Schedules config exempt ∧
      ∀ block ∈ account.system.opened, exempt ≠ some block →
        (account.system.cgroups block).config = address →
          config.limitsInForce = account.limits block := by
  rw [LimitAccount.persists_iff] at persists ⊢
  constructor
  · intro persistsAfter
    refine ⟨?_, ?_⟩
    · intro block isOpen isExempt
      rw [← stores.exempted block isExempt]
      exact persistsAfter block isOpen
    · intro block isOpen other isThere
      have inForce := persistsAfter block ((stores.opened block other).mpr isOpen)
      rw [stores.limits block other] at inForce
      simpa [CgroupSystem.configuration, stores.points block other, stores.configs, isThere]
        using inForce
  · rintro ⟨schedules, spared⟩ block isOpen
    by_cases isExempt : exempt = some block
    · rw [stores.exempted block isExempt]
      exact schedules block isOpen isExempt
    · have wasOpen := (stores.opened block isExempt).mp isOpen
      have before := persists block wasOpen
      rw [stores.limits block isExempt]
      simp only [CgroupSystem.configuration, stores.points block isExempt, stores.configs]
      by_cases isThere : (account.system.cgroups block).config = address
      · rw [isThere, update_self]
        exact spared block wasOpen isExempt isThere
      · rw [update_of_ne isThere]
        exact before

omit [DecidableEq Thread] in
private theorem createAt_cases (system : CgroupSystem Thread) (name : BitVec 32) (address : Nat)
    (config : CoreCgroupConfig) (allocated : Option ObjectsId) :
    (∃ block, allocated = some block ∧ system.createAt name address config allocated =
        (publish (system.setConfig address config) block address, some block)) ∨
      (name = 0 ∨ allocated = none) ∧
        system.createAt name address config allocated = (system.setConfig address config, none) := by
  simp only [CgroupSystem.createAt, rtemsCgroupCreate]
  by_cases unnamed : name = 0
  · rw [if_pos unnamed]
    exact .inr ⟨.inl unnamed, rfl⟩
  · rw [if_neg unnamed]
    cases allocated with
    | none => exact .inr ⟨.inr rfl, rfl⟩
    | some block => exact .inl ⟨block, rfl, rfl⟩

omit [DecidableEq Thread] in
theorem create_stores (account : LimitAccount Thread) (name : BitVec 32) (address : Nat)
    (config : CoreCgroupConfig) (allocated : Option ObjectsId) :
    account.Stores (account.create name address config allocated).1 address config
        (account.create name address config allocated).2 ∧
      (name ≠ 0 → (account.create name address config allocated).2 = allocated) ∧
      ∀ block ∈ (account.create name address config allocated).2, block ∈ allocated ∧
        (account.create name address config allocated).1.limits block = config.limits ∧
        (account.create name address config allocated).1.system.opened =
          block :: account.system.opened := by
  simp only [create]
  cases createAt_cases account.system name address config allocated with
  | inl made =>
    obtain ⟨block, isAllocated, result⟩ := made
    rw [result]
    refine ⟨⟨?_, ?_, rfl, ?_, ?_⟩, fun _ => isAllocated.symm, ?_⟩
    · intro other different
      have apart : other ≠ block := fun same => different (congrArg some same.symm)
      simp [publish, CgroupSystem.coreCgroupInitialize, CgroupSystem.store,
        CgroupSystem.setConfig, apart]
    · intro other different
      have apart : other ≠ block := fun same => different (congrArg some same.symm)
      simp [publish, CgroupSystem.coreCgroupInitialize, CgroupSystem.store,
        CgroupSystem.setConfig, apart]
    · intro other different
      have apart : other ≠ block := fun same => different (congrArg some same.symm)
      exact update_of_ne apart _ _
    · intro other same
      cases same
      simp [publish, CgroupSystem.coreCgroupInitialize, CgroupSystem.store,
        CgroupSystem.setConfig, CgroupSystem.configuration]
    · intro other same
      cases same
      exact ⟨isAllocated, update_self .., rfl⟩
  | inr refused =>
    rw [refused.2]
    exact ⟨⟨fun _ _ => Iff.rfl, fun _ _ => rfl, rfl, fun _ _ => rfl, fun _ none => by cases none⟩,
      fun named => (refused.1.resolve_left named).symm, fun _ none => by cases none⟩

structure Closes (system after : CgroupSystem Thread) (id : ObjectsId) : Prop where
  opened : ∀ block, block ≠ id → (block ∈ after.opened ↔ block ∈ system.opened)
  within : ∀ block ∈ after.opened, block ∈ system.opened
  points : ∀ block, (after.cgroups block).config = (system.cgroups block).config
  configs : after.configs = system.configs

section

omit [DecidableEq Thread]

theorem rtemsCgroupDelete_closes (system : CgroupSystem Thread) (id : ObjectsId) :
    Closes system (rtemsCgroupDelete system id).1 id := by
  simp only [rtemsCgroupDelete]
  cases found : cgroupGet system id with
  | none => exact ⟨fun _ _ => Iff.rfl, fun _ isOpen => isOpen, fun _ => rfl, rfl⟩
  | some block =>
    have isId := (cgroupGet_eq_some found).1
    subst isId
    refine ⟨?_, ?_, ?_, rfl⟩
    · intro other apart
      exact List.mem_erase_of_ne apart
    · intro other isOpen
      exact List.mem_of_mem_erase isOpen
    · intro other
      exact CgroupSystem.store_config rfl

theorem release_closes (account : LimitAccount Thread) (address : Nat) (cgroupId : ObjectsId) :
    Closes account.system (account.release address cgroupId).system cgroupId := by
  simp only [release]
  split
  · exact rtemsCgroupDelete_closes account.system cgroupId
  · exact ⟨fun _ _ => Iff.rfl, fun _ isOpen => isOpen, fun _ => rfl, rfl⟩

theorem Stores.close {last : LimitAccount Thread} {block : ObjectsId}
    (stores : account.Stores after address config (some block))
    (closes : Closes after.system last.system block) (limits : last.limits = after.limits) :
    account.Stores last address config (some block) where
  opened := by
    intro other different
    have apart : other ≠ block := fun same => different (congrArg some same.symm)
    rw [closes.opened other apart]
    exact stores.opened other different
  points := by
    intro other different
    rw [closes.points]
    exact stores.points other different
  configs := closes.configs.trans stores.configs
  limits := by
    intro other different
    rw [limits]
    exact stores.limits other different
  exempted := by
    intro other same
    rw [CgroupSystem.configuration, closes.points, closes.configs]
    exact stores.exempted other same

theorem Closes.keeps {id : ObjectsId} (closes : Closes account.system after.system id)
    (limits : after.limits = account.limits) : account.Keeps after :=
  ⟨closes.within, closes.points, closes.configs, limits⟩

theorem not_open_of_fresh {made allocated : Option ObjectsId}
    (fresh : ∀ block ∈ allocated, block ≠ 0 ∧ block ∉ account.system.opened)
    (within : ∀ block ∈ made, block ∈ allocated) :
    ∀ block ∈ account.system.opened,
      made ≠ some block ↔ (none : Option ObjectsId) ≠ some block := by
  intro block isOpen
  simp only [ne_eq, reduceCtorEq, not_false_eq_true, iff_true]
  intro isMade
  exact (fresh block (within block isMade)).2 isOpen

theorem Stores.of_set {block : ObjectsId} {given : CgroupLimits}
    (opened : after.system.opened = account.system.opened)
    (points : ∀ other, (after.system.cgroups other).config = (account.system.cgroups other).config)
    (configs : after.system.configs =
      update account.system.configs (account.system.cgroups block).config config)
    (limits : after.limits = update account.limits block given) :
    account.Stores after (account.system.cgroups block).config config (some block) where
  opened := fun _ _ => by rw [opened]
  points := fun other _ => points other
  configs := configs
  limits := by
    intro other different
    rw [limits, update_of_ne fun same => different (congrArg some same.symm)]
  exempted := by
    intro other same
    cases same
    rw [CgroupSystem.configuration, points, configs, update_self]

theorem cpuctlName_ne_zero (nameIndex : Nat) : cpuctlName nameIndex ≠ 0 := by
  have few := Nat.mod_lt nameIndex (show 10 > 0 by decide)
  rw [cpuctlName]
  bv_omega

theorem schedules_none : after.Schedules config none :=
  fun _ _ none => by cases none

/-- What is given to a cgroup is in force if and only if its watchdog can wait as long as
the period. -/
theorem schedules_iff {made : Option ObjectsId}
    (given : ∀ block ∈ made, after.limits block = config.limits ∧
      after.system.opened = block :: account.system.opened) :
    after.Schedules config made ↔
      ∀ period ∈ made.map fun _ => config.cpuPeriod, period < 2 ^ 32 := by
  cases made with
  | none => simp [schedules_none]
  | some block =>
    obtain ⟨limits, opened⟩ := given block rfl
    have cut : config.limitsInForce = config.limits ↔ config.cpuPeriod < 2 ^ 32 := by
      rw [CoreCgroupConfig.limitsInForce, CoreCgroupConfig.limits, CgroupLimits.mk.injEq,
        Nat.mod_eq_iff_lt (by decide)]
      simp
    constructor
    · rintro schedules _ ⟨⟩
      rw [← cut, ← limits]
      exact schedules block (opened ▸ List.mem_cons_self) rfl
    · intro short other _ same
      cases same
      rw [limits, cut]
      exact short _ rfl

end

/-- A call stores a configuration, and what it gives to its own cgroup is in force exactly
when the period is short enough; or it leaves the configurations alone. -/
theorem step_cases (account : LimitAccount Thread) (call : LimitCall Thread)
    (fresh : account.Fresh call) (persists : account.Persists) :
    (∃ address config exempt, account.stored call = some (address, config) ∧
        account.Stores (account.step call) address config exempt ∧
        ((account.step call).Schedules config exempt ↔
          ∀ period ∈ account.givenPeriod call, period < 2 ^ 32) ∧
        ∀ block ∈ account.system.opened, exempt ≠ some block ↔ account.target call ≠ some block) ∨
      account.stored call = none ∧ account.givenPeriod call = none ∧
        account.Keeps (account.step call) := by
  rw [persists_iff] at persists
  cases call with
  | cpuctlCreate quota period shares frame allocated =>
    obtain ⟨made, all, given⟩ := create_stores { account with nameIndex := account.nameIndex + 1 }
      (cpuctlName account.nameIndex) frame ⟨shares, quota, period, 0, 0⟩ allocated
    refine .inl ⟨_, _, _, rfl, ⟨made.opened, made.points, made.configs, made.limits,
      made.exempted⟩, ?_, not_open_of_fresh fresh fun block isMade => (given block isMade).1⟩
    rw [all (cpuctlName_ne_zero _)] at given ⊢
    exact schedules_iff fun block isMade => (given block isMade).2
  | memctlCreate memoryLimit frame allocated =>
    obtain ⟨made, -, given⟩ := create_stores { account with nameIndex := account.nameIndex + 1 }
      (memctlName account.nameIndex) frame ⟨1, 0, 0, memoryLimit, 0⟩ allocated
    refine .inl ⟨_, _, _, rfl, ⟨made.opened, made.points, made.configs, made.limits,
      made.exempted⟩, iff_of_true ?_ (fun _ none => by cases none),
      not_open_of_fresh fresh fun block isMade => (given block isMade).1⟩
    intro block _ isMade
    exact (given block isMade).2.1.symm
  | containerCreate address config allocated io =>
    obtain ⟨made, all, given⟩ :=
      account.create_stores containerCgroupName address config allocated
    have all := all (by decide)
    have within := not_open_of_fresh fresh fun block isMade => (given block isMade).1
    refine .inl ⟨_, _, allocated, rfl, ?_⟩
    cases result : account.create containerCgroupName address config allocated with
    | mk created isMade =>
      rw [result] at made all given within
      dsimp only at all
      subst all
      cases isMade with
      | none =>
        simp only [step, result]
        exact ⟨made, iff_of_true schedules_none (by cases io <;> simp [givenPeriod]), within⟩
      | some block =>
        obtain ⟨-, limits, opened⟩ := given block rfl
        simp only [step, result]
        split
        next success =>
          subst io
          exact ⟨⟨made.opened, made.points, made.configs, made.limits, made.exempted⟩,
            schedules_iff fun other isMade => (given other isMade).2, within⟩
        next failure =>
          refine ⟨made.close (created.release_closes address block) rfl, iff_of_true ?_ ?_, within⟩
          · intro other stillOpen same
            cases same
            have closed : (created.release address block).system.opened =
                account.system.opened := by
              have found : cgroupGet created.system block = some block :=
                cgroupGet_of_mem (opened ▸ List.mem_cons_self)
              simp only [release, (fresh block rfl).1, ne_eq, not_false_eq_true, if_true,
                rtemsCgroupDelete, found]
              exact (congrArg (List.erase · block) opened).trans (List.erase_cons_head ..)
            rw [closed] at stillOpen
            exact absurd stillOpen (fresh block rfl).2
          · cases io <;> first | exact absurd rfl failure | exact fun _ none => by cases none
  | containerDelete address =>
    refine .inr ⟨rfl, rfl, ?_⟩
    cases found : account.containers address with
    | none =>
      simp only [step, found]
      exact .of_sameConfigs (.refl account.system)
    | some cgroupId =>
      simp only [step, found]
      exact (release_closes account address cgroupId).keeps rfl
  | cpuctlSet id quota period =>
    cases found : cgroupGet account.system id with
    | none =>
      refine .inr ⟨by simp only [stored, found, Option.map_none],
        by simp only [givenPeriod, found, Option.map_none], ?_⟩
      simp only [step, found]
      exact .of_sameConfigs (.refl account.system)
    | some block =>
      have isOpen := (cgroupGet_eq_some found).1 ▸ (cgroupGet_eq_some found).2
      refine .inl ⟨_, _, some block, congrArg (Option.map _) found, ?_, ?_, ?_⟩
      · apply Stores.of_set
        · simp only [step, found, CgroupSystem.coreCgroupSetCpuQuota]
        · simp only [step, found, CgroupSystem.coreCgroupSetCpuQuota, implies_true]
        · simp only [step, found, CgroupSystem.coreCgroupSetCpuQuota, CgroupSystem.configuration]
        · simp only [step, found]
          rfl
      · have before := persists block isOpen
        simp only [Schedules, step, found, givenPeriod, CgroupSystem.coreCgroupSetCpuQuota,
          CoreCgroupConfig.limitsInForce, ← before]
        constructor
        · rintro schedules _ ⟨⟩
          have same := schedules block isOpen rfl
          rw [update_self, CgroupLimits.mk.injEq, Nat.mod_eq_iff_lt (by decide)] at same
          exact same.2.1
        · intro short other _ same
          cases same
          rw [update_self, Nat.mod_eq_of_lt (short period rfl)]
      · intro other _
        simp only [target, found]
  | memctlSet id memoryLimit =>
    cases found : cgroupGet account.system id with
    | none =>
      refine .inr ⟨by simp only [stored, found, Option.map_none], rfl, ?_⟩
      simp only [step, found]
      exact .of_sameConfigs (.refl account.system)
    | some block =>
      have isOpen := (cgroupGet_eq_some found).1 ▸ (cgroupGet_eq_some found).2
      refine .inl ⟨_, _, some block, congrArg (Option.map _) found, ?_,
        iff_of_true ?_ (fun _ none => by cases none), ?_⟩
      · apply Stores.of_set
        · simp only [step, found, CgroupSystem.store, CgroupSystem.setConfig]
        · intro other
          simp only [step, found]
          exact CgroupSystem.store_config rfl
        · simp only [step, found, CgroupSystem.store, CgroupSystem.setConfig]
        · simp only [step, found]
          rfl
      · intro other _ same
        cases same
        simp only [step, found, update_self, ← persists block isOpen,
          CoreCgroupConfig.limitsInForce]
      · intro other _
        simp only [target, found]
  | cgroupDelete id =>
    exact .inr ⟨rfl, rfl, (rtemsCgroupDelete_closes account.system id).keeps rfl⟩
  | suspend block waitState =>
    exact .inr ⟨rfl, rfl, .of_sameConfigs
      (account.system.coreCgroupSuspend_sameConfigs _ waitState)⟩
  | resume block waitState =>
    exact .inr ⟨rfl, rfl, .of_sameConfigs (account.system.coreCgroupResume_sameConfigs _ waitState)⟩
  | consumeCpuQuota block cpuTicksDelta =>
    exact .inr ⟨rfl, rfl, .of_sameConfigs
      (account.system.coreCgroupConsumeCpuQuota_sameConfigs block cpuTicksDelta)⟩
  | cpuSuspendRoutine block =>
    exact .inr ⟨rfl, rfl, .of_sameConfigs (account.system.cpuSuspendRoutine_sameConfigs block)⟩
  | cpuResumeRoutine block =>
    exact .inr ⟨rfl, rfl, .of_sameConfigs (account.system.cpuResumeRoutine_sameConfigs block)⟩
  | addThread block thread =>
    exact .inr ⟨rfl, rfl, .of_sameConfigs
      (account.system.coreCgroupAddThread_sameConfigs block thread)⟩
  | removeThread block thread =>
    exact .inr ⟨rfl, rfl, .of_sameConfigs
      (account.system.coreCgroupRemoveThread_sameConfigs block thread)⟩
  | overwrite address config =>
    exact .inl ⟨address, config, none, rfl, ⟨fun _ _ => Iff.rfl, fun _ _ => rfl, rfl,
      fun _ _ => rfl, fun _ none => by cases none⟩,
      iff_of_true schedules_none (fun _ none => by cases none), fun _ _ => Iff.rfl⟩

theorem step_persists_iff (account : LimitAccount Thread) (call : LimitCall Thread)
    (fresh : account.Fresh call) (persists : account.Persists) :
    (account.step call).Persists ↔ account.Spares call := by
  cases account.step_cases call fresh persists with
  | inl storing =>
    obtain ⟨address, config, exempt, isStored, stores, schedules, agrees⟩ := storing
    rw [stores.persists_iff persists, Spares, isStored, schedules]
    refine and_congr_right fun _ => ⟨?_, ?_⟩
    · intro spared entry same block isOpen different isThere
      cases same
      exact spared block isOpen ((agrees block isOpen).mpr different) isThere
    · intro spares block isOpen different isThere
      exact spares (address, config) rfl block isOpen ((agrees block isOpen).mp different) isThere
  | inr keeping =>
    obtain ⟨noStore, nothing, keeps⟩ := keeping
    refine iff_of_true (keeps.persists persists) ⟨?_, ?_⟩
    · intro period isGiven
      rw [nothing] at isGiven
      cases isGiven
    · intro entry isStored
      rw [noStore] at isStored
      cases isStored

end LimitAccount

open LimitAccount in
/-- The limits in force are those that were given in every state of a run exactly
when they are at its start and no call of the run stores something else where an
open cgroup has its configuration. -/
theorem limitRun_persists_iff (account : LimitAccount Thread) (calls : List (LimitCall Thread))
    (fresh : Meets step Fresh account calls) :
    Throughout step Persists account calls ↔
      account.Persists ∧ Meets step Spares account calls := by
  apply throughout_iff_start_meets (fun _ => True) trivial fresh (fun _ _ _ _ => trivial)
  intro state call _ isFresh persists
  exact state.step_persists_iff call isFresh persists

/-- A system without cgroups. -/
def noLimits : LimitAccount (Fin 1) where
  system :=
    { opened := []
      cgroups := fun _ => ⟨statesReady, 0, [], 0, 10, 0, false, false, 0, true⟩
      configs := fun _ => ⟨0, 0, 0, 0, 0⟩
      cgroup := fun _ => none
      isAddedToCgroup := fun _ => false
      currentState := fun _ => statesReady
      lastCpuStartTimestamp := fun _ => 0 }
  containers := fun _ => none
  nameIndex := 0
  limits := fun _ => ⟨0, 0, 0⟩

/-- A cgroup of a unified container keeps what a control file has set, as does one
of a control file as long as its stack is not used again. -/
theorem separateStorage_persists :
    Throughout LimitAccount.step LimitAccount.Persists noLimits
      [.containerCreate 7 ⟨1, 100, 1000, 4096, 0⟩ (some 1) .successful,
        .cpuctlCreate 20 50 1 8 (some 2), .cpuctlSet 1 30 60, .cpuResumeRoutine 2,
        .overwrite 9 ⟨0, 0, 0, 0, 0⟩] := by
  apply (limitRun_persists_iff noLimits _ (by decide +kernel)).mpr
  refine ⟨?_, by decide +kernel⟩
  intro block isOpen
  cases isOpen

/-- The second `create` command has its configuration where the first one had it:
the quota of the first cgroup is now that of the second. -/
theorem secondCommand_replacesLimits :
    ¬ Throughout LimitAccount.step LimitAccount.Persists noLimits
      [.cpuctlCreate 100 1000 1 8 (some 1), .cpuctlCreate 50 1000 1 8 (some 2)] := by
  intro always
  have persists := always.final 1 (by decide +kernel)
  revert persists
  decide +kernel

end RTContainer.Score
