import RTContainer.Lib.Run
import RTContainer.Score.IoLedger

/-! The limits of the I/O cgroups. The limits that are set explicitly and the shares of the
bandwidth are kept in the same fields, so the last one to write them counts: a share-out
replaces the limits of every cgroup with a weight. -/

set_option autoImplicit false

namespace RTContainer.Score

open RTContainer.Rtems Machine Function

def IoCgroupManager.systemBps (manager : IoCgroupManager) : IoCgroupRequestType → BitVec 64
  | .read => manager.systemReadBps
  | .write => manager.systemWriteBps

def IoCgroupManager.share (manager : IoCgroupManager) (control : IoCgroupControl)
    (type : IoCgroupRequestType) : BitVec 64 :=
  IoCgroupControl.bpsLimit control.weight (manager.systemBps type) manager.totalWeight

namespace IoCgroupCall

/-- The control block of a new cgroup with the limits that it is given. -/
def created : IoCgroupCall → Option (Nat × IoCgroupLimit)
  | create _ (some limits) _ (some block) _ _ => some (block, limits)
  | _ => none

def configure (call : IoCgroupCall) (configured : Nat → IoCgroupLimit) : Nat → IoCgroupLimit :=
  match call.created with
  | some (block, limits) => update configured block limits
  | none => configured

def changesShares (system : IoCgroupSystem) : IoCgroupCall → Bool
  | managerUpdateBandwidth systemReadBps systemWriteBps =>
    system.globalIoCgroupManager.isSome && systemReadBps ≠ 0 && systemWriteBps ≠ 0
  | create ioCgroupWeight limits cgroupId malloc buffer ticksSinceBoot =>
    (system.rtemsIoCgroupCreate ioCgroupWeight limits cgroupId malloc buffer ticksSinceBoot).2.isOk
  | delete (some block) => (system.controls block).weight ≠ 0
  | allocateWeight (some _) weight => weight ≠ 0
  | removeWeight (some _) => true
  | _ => false

/-- The call shares out the bandwidth; without a total weight nothing is shared out. -/
def sharesOut (system : IoCgroupSystem) (call : IoCgroupCall) : Bool :=
  call.changesShares system &&
    (call.perform system).globalIoCgroupManager.any fun manager => manager.totalWeight ≠ 0

end IoCgroupCall

/-- The calls of `io_cgroup.c` with those of `rtems_io_cgroup_set_limits`. -/
inductive IoLimitsCall where
  | other (call : IoCgroupCall)
  | setLimits (ioCgroup : Option Nat) (limits : Option IoCgroupLimit)

/-- The cgroups with the limits that were last set for each one, by its creation or
explicitly, and whether the bandwidth has been shared out to it since. -/
structure ConfiguredCgroups where
  system : IoCgroupSystem
  configured : Nat → IoCgroupLimit
  sharedOut : Nat → Bool

namespace ConfiguredCgroups

def initial : ConfiguredCgroups where
  system := .initial
  configured := fun _ => ⟨0, 0, 0⟩
  sharedOut := fun _ => false

def perform (state : ConfiguredCgroups) : IoLimitsCall → ConfiguredCgroups
  | .other call =>
    let next := call.perform state.system
    { system := next
      configured := call.configure state.configured
      sharedOut := fun block =>
        (call.sharesOut state.system && (next.controls block).weight ≠ 0) ||
          (call.created.all (fun new => new.1 ≠ block) && state.sharedOut block) }
  | .setLimits (some block) (some limits) =>
    { system := (state.system.rtemsIoCgroupSetLimits block (some limits)).1
      configured := update state.configured block limits
      sharedOut := update state.sharedOut block false }
  | .setLimits _ _ => state

/-- The calls the code can receive. -/
def Possible (state : ConfiguredCgroups) : IoLimitsCall → Prop
  | .other call => call.Possible state.system
  | .setLimits ioCgroup _ => ∀ block, ioCgroup = some block → block ∈ state.system.allocated

instance (state : ConfiguredCgroups) (call : IoLimitsCall) : Decidable (state.Possible call) := by
  cases call with
  | other call => exact inferInstanceAs (Decidable (call.Possible state.system))
  | setLimits ioCgroup limits =>
    exact inferInstanceAs
      (Decidable (∀ block, ioCgroup = some block → block ∈ state.system.allocated))

/-- Every cgroup keeps to the limits last set for it, capped by its share. -/
def EnforcesConfigured (state : ConfiguredCgroups) : Prop :=
  ∀ manager, state.system.globalIoCgroupManager = some manager →
    ∀ block ∈ state.system.allocated, ∀ type,
      ((state.system.controls block).limits.bpsLimit type).toNat =
        min ((state.configured block).bpsLimit type).toNat
          (manager.share (state.system.controls block) type).toNat

/-- Every cgroup keeps to the limits last set for it as they are, until the bandwidth is
shared out, and to its share from then on. -/
def EnforcesLast (state : ConfiguredCgroups) : Prop :=
  ∀ block ∈ state.system.allocated, ∀ type,
    let control := state.system.controls block
    (state.sharedOut block = false →
      control.limits.bpsLimit type = (state.configured block).bpsLimit type) ∧
    (state.sharedOut block = true → control.weight ≠ 0 → ∀ manager,
      state.system.globalIoCgroupManager = some manager → manager.totalWeight ≠ 0 →
        control.limits.bpsLimit type = manager.share control type)

end ConfiguredCgroups

namespace IoCgroupSystem

/-- No cgroup without a manager, and a manager with its totals in order. -/
def Enlisted (system : IoCgroupSystem) : Prop :=
  match system.globalIoCgroupManager with
  | none => system.allocated = []
  | some manager => ∃ linked, system.Listed manager linked

variable {system next : IoCgroupSystem} {manager after : IoCgroupManager} {linked : List Nat}
variable {block : Nat}

theorem enlisted_iff (configured : next.globalIoCgroupManager = some after) :
    next.Enlisted ↔ ∃ linked, next.Listed after linked := by
  simp only [Enlisted, configured]

theorem Enlisted.empty (enlisted : system.Enlisted)
    (unmanaged : system.globalIoCgroupManager = none) : system.allocated = [] := by
  simpa only [Enlisted, unmanaged] using enlisted

theorem Enlisted.listed (enlisted : system.Enlisted)
    (configured : system.globalIoCgroupManager = some manager) :
    ∃ linked, system.Listed manager linked := (enlisted_iff configured).mp enlisted

theorem allocateBandwidths_idle
    (idle : manager.totalWeight = 0 ∨ (system.controls block).weight = 0) :
    ((system.allocateBandwidths manager).controls block).limits =
      (system.controls block).limits := by
  rw [allocateBandwidths_controls]
  split
  next visited =>
    rcases idle with zero | weightless
    · exact absurd zero (gt_zero_iff.mp visited.1)
    · rw [IoCgroupControl.allocateBandwidth, if_neg fun weighs => gt_zero_iff.mp weighs weightless]
  · rfl

theorem reweigh_idle {weight totalWeight : BitVec 32} {other : Nat}
    (idle : totalWeight = 0 ∨
      ((system.reweigh manager block weight totalWeight).controls other).weight = 0) :
    ((system.reweigh manager block weight totalWeight).controls other).limits =
      (system.controls other).limits := by
  rw [reweigh, allocateBandwidths_weight] at idle
  refine (allocateBandwidths_idle idle).trans ?_
  show ((system.store block _).controls other).limits = _
  rcases eq_or_ne other block with rfl | different
  · rw [store_self]
  · rw [store_other different]

theorem Enlisted.store {control : IoCgroupControl} (enlisted : system.Enlisted)
    (sameNext : control.next = (system.controls block).next)
    (samePrev : control.prev = (system.controls block).prev)
    (sameWeight : control.weight = (system.controls block).weight) :
    (system.store block control).Enlisted := by
  cases configured : system.globalIoCgroupManager with
  | none =>
    have unmanaged : (system.store block control).globalIoCgroupManager = none := configured
    simp only [Enlisted, unmanaged]
    exact enlisted.empty configured
  | some manager =>
    obtain ⟨linked, listed⟩ := enlisted.listed configured
    have managed : (system.store block control).globalIoCgroupManager = some manager := configured
    refine (enlisted_iff managed).mpr ⟨linked, ?_, listed.allocated⟩
    have visited : linked.length ≤ (system.store block control).allocated.length := listed.visited
    apply listed.toTotals.congr visited
    all_goals
      intro other _
      rcases eq_or_ne other block with rfl | different
      · rw [store_self]
        assumption
      · rw [store_other different]

end IoCgroupSystem

/-- What a call does to the limits. A share-out gives every cgroup with a weight its share;
otherwise, and without a weight, the limits stay what they are, or what a new cgroup is
given. -/
structure IoCgroupCall.Effect (system : IoCgroupSystem) (call : IoCgroupCall) : Prop where
  enlisted : (call.perform system).Enlisted
  allocated : ∀ block ∈ (call.perform system).allocated,
    call.created.all (fun new => new.1 ≠ block) = true → block ∈ system.allocated
  shares : call.sharesOut system = true → ∀ manager,
    (call.perform system).globalIoCgroupManager = some manager →
      ∀ block ∈ (call.perform system).allocated,
        IoCgroupSystem.HasShare manager ((call.perform system).controls block)
  limits : ∀ block ∈ (call.perform system).allocated,
    call.sharesOut system = false ∨ ((call.perform system).controls block).weight = 0 →
      ∀ type, ((call.perform system).controls block).limits.bpsLimit type =
        (call.configure (fun block => (system.controls block).limits) block).bpsLimit type
  keeps : call.sharesOut system = false → ∀ manager,
    (call.perform system).globalIoCgroupManager = some manager → manager.totalWeight ≠ 0 →
      ∀ block ∈ (call.perform system).allocated,
        block ∈ system.allocated ∧ ∃ before, system.globalIoCgroupManager = some before ∧
          before.totalWeight ≠ 0 ∧
            ((call.perform system).controls block).weight = (system.controls block).weight ∧
              ∀ type, manager.share ((call.perform system).controls block) type =
                before.share (system.controls block) type

namespace IoCgroupCall

open IoCgroupSystem

variable {system : IoCgroupSystem} {call : IoCgroupCall} {manager : IoCgroupManager}
variable {linked : List Nat} {block : Nat}

theorem configure_of_created {limits : IoCgroupLimit} (made : call.created = some (block, limits))
    (configured : Nat → IoCgroupLimit) :
    call.configure configured = update configured block limits := by
  simp only [configure, made]

theorem configure_of_ne (fresh : ∀ new, call.created = some new → new.1 ≠ block)
    (configured : Nat → IoCgroupLimit) : call.configure configured block = configured block := by
  unfold configure
  cases made : call.created with
  | none => rfl
  | some new => exact update_of_ne (fresh new made).symm ..

theorem Effect.of_kept (enlisted : (call.perform system).Enlisted)
    (fresh : ∀ new, call.created = some new → new.1 ∉ system.allocated)
    (idle : call.changesShares system = false)
    (kept : ∀ block ∈ (call.perform system).allocated, block ∈ system.allocated ∧
      ((call.perform system).controls block).limits = (system.controls block).limits ∧
        ((call.perform system).controls block).weight = (system.controls block).weight)
    (same : ∀ manager, (call.perform system).globalIoCgroupManager = some manager →
      ∀ block ∈ (call.perform system).allocated, ∃ before,
        system.globalIoCgroupManager = some before ∧ before.totalWeight = manager.totalWeight ∧
          before.systemReadBps = manager.systemReadBps ∧
            before.systemWriteBps = manager.systemWriteBps) :
    call.Effect system where
  enlisted := enlisted
  allocated block member _ := (kept block member).1
  shares shared := by
    rw [sharesOut, idle] at shared
    exact absurd shared Bool.false_ne_true
  limits block member _ type := by
    obtain ⟨old, limits, _⟩ := kept block member
    rw [limits, configure_of_ne fun new made isNew => fresh new made (isNew ▸ old)]
  keeps _ manager configured weighs block member := by
    obtain ⟨old, _, weight⟩ := kept block member
    obtain ⟨before, was, total, read, write⟩ := same manager configured block member
    refine ⟨old, before, was, total ▸ weighs, weight, fun type => ?_⟩
    unfold IoCgroupManager.share
    rw [weight, total]
    cases type with
    | read => exact congrArg (IoCgroupControl.bpsLimit _ · _) read.symm
    | write => exact congrArg (IoCgroupControl.bpsLimit _ · _) write.symm

theorem Effect.of_unchanged (enlisted : system.Enlisted)
    (fresh : ∀ new, call.created = some new → new.1 ∉ system.allocated)
    (idle : call.changesShares system = false) (unchanged : call.perform system = system) :
    call.Effect system := by
  refine .of_kept ?_ fresh idle ?_ ?_
  · rw [unchanged]
    exact enlisted
  · rw [unchanged]
    exact fun block member => ⟨member, rfl, rfl⟩
  · rw [unchanged]
    exact fun manager configured _ _ => ⟨manager, configured, rfl, rfl, rfl⟩

theorem Effect.of_ledger (configured : (call.perform system).globalIoCgroupManager = some manager)
    (ledger : (call.perform system).Ledger manager linked)
    (changes : call.changesShares system = true)
    (allocated : ∀ block ∈ (call.perform system).allocated,
      call.created.all (fun new => new.1 ≠ block) = true → block ∈ system.allocated)
    (idle : ∀ block ∈ (call.perform system).allocated,
      manager.totalWeight = 0 ∨ ((call.perform system).controls block).weight = 0 →
        ∀ type, ((call.perform system).controls block).limits.bpsLimit type =
          (call.configure (fun block => (system.controls block).limits) block).bpsLimit type) :
    call.Effect system := by
  have shared : call.sharesOut system = true ↔ manager.totalWeight ≠ 0 := by
    rw [sharesOut, changes, configured, Bool.true_and, Option.any_some, decide_eq_true_iff]
  have unshared : call.sharesOut system = false → manager.totalWeight = 0 := by
    intro nothing
    by_contra weighs
    exact Bool.false_ne_true (nothing.symm.trans (shared.mpr weighs))
  refine {
    enlisted := (enlisted_iff configured).mpr ⟨linked, ledger.listed⟩
    allocated := allocated
    shares := ?_
    limits := fun block member quiet => idle block member (quiet.imp_left unshared)
    keeps := ?_ }
  · intro sharing after isManager block member
    cases configured.symm.trans isManager
    exact ledger.shares (shared.mp sharing) block (ledger.allocated.mem_iff.mpr member)
  · intro nothing after isManager weighs
    cases configured.symm.trans isManager
    exact absurd (unshared nothing) weighs

theorem managerCreate_effect (enlisted : system.Enlisted)
    (systemReadBps systemWriteBps : BitVec 64) (malloc : Bool) :
    (managerCreate systemReadBps systemWriteBps malloc).Effect system := by
  have fresh : ∀ new, (managerCreate systemReadBps systemWriteBps malloc).created = some new →
      new.1 ∉ system.allocated := fun _ made => nomatch made
  cases configured : system.globalIoCgroupManager with
  | some manager =>
    refine .of_unchanged enlisted fresh rfl ?_
    simp only [perform, rtemsIoCgroupManagerCreate, configured]
  | none =>
    cases malloc with
    | false =>
      refine .of_unchanged enlisted fresh rfl ?_
      simp [perform, rtemsIoCgroupManagerCreate, configured]
    | true =>
      have empty := enlisted.empty configured
      obtain ⟨made, isMade, lists⟩ : ∃ manager, (perform system
          (managerCreate systemReadBps systemWriteBps true)) =
            { system with globalIoCgroupManager := some manager } ∧
          manager.ioCgroups = none ∧ manager.ioCgroupCount = 0 ∧ manager.totalWeight = 0 := by
        simp only [perform, rtemsIoCgroupManagerCreate, configured]
        exact ⟨_, rfl, rfl, rfl, rfl⟩
      refine .of_kept ?_ fresh rfl ?_ ?_
      · rw [isMade]
        refine (enlisted_iff rfl).mpr ⟨[], ?_⟩
        exact {
          lists := lists.1
          visited := Nat.zero_le _
          count := lists.2.1
          total := lists.2.2
          allocated := by
            show [].Perm system.allocated
            rw [empty] }
      · rw [isMade]
        exact fun block member => ⟨member, rfl, rfl⟩
      · rw [isMade]
        intro _ _ block member
        exact nomatch (empty ▸ member : block ∈ [])

theorem managerUpdateBandwidth_effect (enlisted : system.Enlisted)
    (systemReadBps systemWriteBps : BitVec 64) :
    (managerUpdateBandwidth systemReadBps systemWriteBps).Effect system := by
  have fresh : ∀ new, (managerUpdateBandwidth systemReadBps systemWriteBps).created = some new →
      new.1 ∉ system.allocated := fun _ made => nomatch made
  cases configured : system.globalIoCgroupManager with
  | none =>
    refine .of_unchanged enlisted fresh ?_ ?_
    · simp [changesShares, configured]
    · simp only [perform, rtemsIoCgroupManagerUpdateBandwidth, configured]
  | some manager =>
    by_cases invalid : systemReadBps = 0 ∨ systemWriteBps = 0
    · refine .of_unchanged enlisted fresh ?_ ?_
      · rcases invalid with zero | zero
        · simp [changesShares, zero]
        · simp [changesShares, zero]
      · simp only [perform, rtemsIoCgroupManagerUpdateBandwidth, configured, if_pos invalid]
    · obtain ⟨linked, listed⟩ := enlisted.listed configured
      let updated :=
        { manager with systemReadBps := systemReadBps, systemWriteBps := systemWriteBps }
      have performed : perform system (managerUpdateBandwidth systemReadBps systemWriteBps) =
          { system with globalIoCgroupManager := some updated }.allocateBandwidths updated := by
        simp only [perform, rtemsIoCgroupManagerUpdateBandwidth, configured, if_neg invalid,
          updated]
      rw [not_or] at invalid
      have ledger : (perform system
          (managerUpdateBandwidth systemReadBps systemWriteBps)).Ledger updated linked := by
        rw [performed]
        exact listed.setBandwidth rfl rfl rfl
      refine .of_ledger ?_ ledger ?_ ?_ ?_
      · rw [performed]
        exact allocateBandwidths_globalIoCgroupManager
      · simp only [changesShares, configured, Option.isSome_some, Bool.true_and,
          Bool.and_eq_true, decide_eq_true_eq]
        exact invalid
      · rw [performed, allocateBandwidths_allocated]
        exact fun block member _ => member
      · rw [performed]
        intro block _ idle type
        rw [allocateBandwidths_weight] at idle
        rw [allocateBandwidths_idle idle]
        rfl

theorem reweigh_effect (weight : BitVec 32) (enlisted : system.Enlisted)
    (member : block ∈ system.allocated) (unmade : call.created = none)
    (changes : call.changesShares system = true)
    (performed : ∀ manager, system.globalIoCgroupManager = some manager →
      call.perform system = system.reweigh manager block weight
        (manager.totalWeight - (system.controls block).weight + weight)) :
    call.Effect system := by
  cases configured : system.globalIoCgroupManager with
  | none => exact nomatch (enlisted.empty configured ▸ member : block ∈ [])
  | some manager =>
    obtain ⟨linked, listed⟩ := enlisted.listed configured
    have performed := performed manager configured
    have reweighed := listed.reweigh weight (listed.allocated.mem_iff.mpr member)
    refine .of_ledger ?_ (performed ▸ reweighed) changes ?_ ?_
    · rw [performed]
      exact reweigh_globalIoCgroupManager
    · rw [performed, reweigh_allocated]
      exact fun other isAllocated _ => isAllocated
    · rw [performed]
      intro other _ idle type
      rw [reweigh_idle idle, configure, unmade]

section

variable (enlisted : system.Enlisted) (member : block ∈ system.allocated)
include enlisted member

theorem allocateWeight_effect (weight : BitVec 32) :
    (allocateWeight (some block) weight).Effect system := by
  by_cases zero : weight = 0
  · refine .of_unchanged enlisted (fun _ made => nomatch made) ?_ ?_
    · simp [changesShares, zero]
    · simp only [perform, rtemsIoCgroupAllocateWeight, if_pos zero]
  · refine reweigh_effect weight enlisted member rfl ?_ fun manager configured => ?_
    · exact decide_eq_true zero
    · simp only [perform, allocateWeight_eq configured zero]

theorem removeWeight_effect : (removeWeight (some block)).Effect system := by
  refine reweigh_effect 0 enlisted member rfl rfl fun manager configured => ?_
  have total : manager.totalWeight - (system.controls block).weight + 0 =
      manager.totalWeight - (system.controls block).weight := BitVec.add_zero ..
  rw [total]
  simp only [perform, rtemsIoCgroupRemoveWeight, configured]

theorem delete_effect : (delete (some block)).Effect system := by
  cases configured : system.globalIoCgroupManager with
  | none => exact nomatch (enlisted.empty configured ▸ member : block ∈ [])
  | some manager =>
    obtain ⟨linked, listed⟩ := enlisted.listed configured
    have isLinked := listed.allocated.mem_iff.mpr member
    have distinct := listed.allocated.nodup_iff.mp listed.lists.nodup
    have allocated : ∀ other ∈ (perform system (delete (some block))).allocated,
        other ∈ system.allocated ∧ other ≠ block := by
      intro other remains
      rw [perform, delete_allocated, distinct.mem_erase_iff] at remains
      exact remains.symm
    by_cases weightless : (system.controls block).weight = 0
    · have performed : perform system (delete (some block)) =
          ((system.unlink manager block).rtemsIoCgroupFinalize block).free block :=
        delete_of_weightless configured weightless
      have notErased : block ∉ linked.erase block :=
        List.Nodup.not_mem_erase listed.lists.nodup
      have totals := listed.toTotals.unlinkWeightless isLinked weightless
      refine .of_kept ?_ (fun _ made => nomatch made) ?_ ?_ ?_
      · rw [performed]
        exact (enlisted_iff rfl).mpr
          ⟨_, (totals.finalize notErased).free (listed.allocated.erase block)⟩
      · simp [changesShares, weightless]
      · intro other remains
        obtain ⟨old, different⟩ := allocated other remains
        rw [performed]
        have kept : (((system.unlink manager block).rtemsIoCgroupFinalize block).free
            block).controls other = (system.unlink manager block).controls other :=
          store_other different
        rw [kept]
        exact ⟨old, rfl, rfl⟩
      · rw [performed]
        intro after isManager _ _
        cases isManager
        exact ⟨manager, configured, rfl, rfl, rfl⟩
    · refine .of_ledger (delete_weighed_manager configured weightless)
        (listed.deleteWeighed configured isLinked weightless) ?_ ?_ ?_
      · exact decide_eq_true weightless
      · exact fun other remains _ => (allocated other remains).1
      · intro other remains idle type
        obtain ⟨_, different⟩ := allocated other remains
        have performed : (perform system (delete (some block))).controls other =
            (((system.unlink manager block).reweigh (unlinkedManager system manager block) block 0
              (manager.totalWeight - (system.controls block).weight))).controls other := by
          rw [perform, delete_of_weighs configured weightless]
          exact store_other different
        rw [performed] at idle ⊢
        rw [reweigh_idle idle]
        rfl

end

theorem store_effect (block : Nat) (control : IoCgroupControl) (enlisted : system.Enlisted)
    (unmade : call.created = none) (quiet : call.changesShares system = false)
    (performed : call.perform system = system.store block control)
    (same : SameShare (system.controls block) control) : call.Effect system := by
  refine .of_kept ?_ (fun _ made => nomatch unmade.symm.trans made) quiet ?_ ?_
  · rw [performed]
    exact enlisted.store same.next same.prev same.weight
  · rw [performed]
    intro other member
    rcases eq_or_ne other block with rfl | different
    · rw [store_self]
      exact ⟨member, same.limits, same.weight⟩
    · rw [store_other different]
      exact ⟨member, rfl, rfl⟩
  · rw [performed]
    exact fun manager configured _ _ => ⟨manager, configured, rfl, rfl, rfl⟩

theorem addThread_effect (enlisted : system.Enlisted) (thread : Option ObjectsId)
    (weight : BitVec 32) (malloc : Bool) :
    (addThread (some block) thread weight malloc).Effect system := by
  have unchanged (same : perform system (addThread (some block) thread weight malloc) = system) :
      (addThread (some block) thread weight malloc).Effect system :=
    .of_unchanged enlisted (fun _ made => nomatch made) rfl same
  cases thread with
  | none => exact unchanged rfl
  | some thread =>
    by_cases zero : weight = 0
    · apply unchanged
      simp only [perform, rtemsIoCgroupAddThread, if_pos zero]
    · refine store_effect block
        ((system.controls block).allocateThreadWeight thread weight malloc).1 enlisted rfl rfl
        ?_ ?_
      · simp only [perform, rtemsIoCgroupAddThread, if_neg zero]
      · unfold IoCgroupControl.allocateThreadWeight
        split
        · split
          · exact ⟨rfl, rfl, rfl, rfl⟩
          · exact ⟨rfl, rfl, rfl, rfl⟩
        · split
          · exact ⟨rfl, rfl, rfl, rfl⟩
          · split
            · exact ⟨rfl, rfl, rfl, rfl⟩
            · exact ⟨rfl, rfl, rfl, rfl⟩

theorem removeThread_effect (enlisted : system.Enlisted) (thread : Option ObjectsId) :
    (removeThread (some block) thread).Effect system := by
  cases thread with
  | none => exact .of_unchanged enlisted (fun _ made => nomatch made) rfl rfl
  | some thread =>
    refine store_effect block ((system.controls block).removeThreadWeight thread).1 enlisted rfl
      rfl rfl ?_
    unfold IoCgroupControl.removeThreadWeight
    split
    · exact ⟨rfl, rfl, rfl, rfl⟩
    · exact ⟨rfl, rfl, rfl, rfl⟩

variable {cgroupId buffer : Bool} {ioCgroupWeight : BitVec 16} {ticksSinceBoot : BitVec 32}
  {limits : Option IoCgroupLimit}

theorem create_isOk {malloc : Option Nat} {given : IoCgroupLimit}
    (enrols : system.Enrols limits cgroupId malloc buffer manager block given)
    (ioCgroupWeight : BitVec 16) (ticksSinceBoot : BitVec 32) :
    (system.rtemsIoCgroupCreate ioCgroupWeight limits cgroupId malloc buffer
      ticksSinceBoot).2.isOk = decide (ioCgroupWeight ≠ 0) := by
  rw [enrols.create_result]
  by_cases zero : ioCgroupWeight = 0
  · simp only [zero]
    rfl
  · simp only [if_neg zero]
    exact (decide_eq_true zero).symm

theorem create_failed {malloc : Option Nat} (stops : ¬ ∃ manager block given,
      system.Enrols limits cgroupId malloc buffer manager block given) :
    (system.rtemsIoCgroupCreate ioCgroupWeight limits cgroupId malloc buffer
      ticksSinceBoot).2.isOk = false := by
  obtain ⟨status, failed⟩ := create_error_of_not_enrols stops
  rw [failed]
  rfl

theorem freed_effect (enlisted : system.Enlisted)
    (unallocated : block ∉ system.allocated) {given : IoCgroupLimit}
    (fresh : ∀ new, (create ioCgroupWeight limits cgroupId (some block) buffer
      ticksSinceBoot).created = some new → new.1 ∉ system.allocated)
    (idle : (create ioCgroupWeight limits cgroupId (some block) buffer
      ticksSinceBoot).changesShares system = false)
    (performed : perform system (create ioCgroupWeight limits cgroupId (some block) buffer
      ticksSinceBoot) = (system.allocateControl block given ticksSinceBoot).free block) :
    (create ioCgroupWeight limits cgroupId (some block) buffer ticksSinceBoot).Effect system := by
  have allocated : ((system.allocateControl block given ticksSinceBoot).free block).allocated =
      system.allocated := List.erase_cons_head ..
  have kept : ∀ other ∈ system.allocated,
      ((system.allocateControl block given ticksSinceBoot).free block).controls other =
        system.controls other := by
    intro other member
    exact store_other (ne_of_mem_of_not_mem member unallocated)
  refine .of_kept ?_ fresh idle ?_ ?_
  · rw [performed]
    cases configured : system.globalIoCgroupManager with
    | none =>
      have unmanaged : ((system.allocateControl block given ticksSinceBoot).free
          block).globalIoCgroupManager = none := configured
      simp only [Enlisted, unmanaged]
      exact allocated.trans (enlisted.empty configured)
    | some manager =>
      obtain ⟨linked, listed⟩ := enlisted.listed configured
      have managed : ((system.allocateControl block given ticksSinceBoot).free
          block).globalIoCgroupManager = some manager := configured
      refine (enlisted_iff managed).mpr ⟨linked, ?_, allocated ▸ listed.allocated⟩
      have same : ∀ other ∈ linked, ((system.allocateControl block given ticksSinceBoot).free
          block).controls other = system.controls other :=
        fun other member => kept other (listed.allocated.mem_iff.mp member)
      apply listed.toTotals.congr (allocated ▸ listed.visited)
      all_goals
        intro other member
        rw [same other member]
  · rw [performed]
    intro other member
    rw [allocated] at member
    rw [kept other member]
    exact ⟨member, rfl, rfl⟩
  · rw [performed]
    exact fun manager configured _ _ => ⟨manager, configured, rfl, rfl, rfl⟩

/-- A create shares out anew, or is undone and leaves the limits as they are. -/
theorem create_effect {malloc : Option Nat} (enlisted : system.Enlisted)
    (unallocated : ∀ block, malloc = some block → block ∉ system.allocated) :
    (create ioCgroupWeight limits cgroupId malloc buffer ticksSinceBoot).Effect system := by
  have fresh : ∀ new, (create ioCgroupWeight limits cgroupId malloc buffer
      ticksSinceBoot).created = some new → new.1 ∉ system.allocated := by
    intro new made
    cases limits with
    | none => cases made
    | some given =>
      cases malloc with
      | none => cases made
      | some block =>
        cases made
        exact unallocated block rfl
  by_cases enrols : ∃ manager block given,
      system.Enrols limits cgroupId malloc buffer manager block given
  · obtain ⟨manager, block, given, enrols⟩ := enrols
    have unallocated := unallocated block enrols.malloc
    obtain ⟨linked, listed⟩ := enlisted.listed enrols.configured
    have added := listed.enrol unallocated given ticksSinceBoot
    have changes : (create ioCgroupWeight limits cgroupId malloc buffer
        ticksSinceBoot).changesShares system = decide (ioCgroupWeight ≠ 0) :=
      create_isOk enrols ..
    have performed : perform system (create ioCgroupWeight limits cgroupId malloc buffer
        ticksSinceBoot) = _ := enrols.create_eq_enrol ..
    have old : ∀ other, other ≠ block →
        ((system.enrol manager block given ticksSinceBoot).controls other).limits =
          (system.controls other).limits := by
      intro other different
      show ((system.allocateControl block given ticksSinceBoot).controls other).limits = _
      rw [allocateControl_other given ticksSinceBoot different]
    by_cases zero : ioCgroupWeight = 0
    · rw [if_pos zero, removeFromManager_eq (enrol_globalIoCgroupManager ..)] at performed
      have allocated : (perform system (create ioCgroupWeight limits cgroupId malloc buffer
          ticksSinceBoot)).allocated = system.allocated := by
        rw [performed]
        exact List.erase_cons_head ..
      have totals := added.toTotals.unlinkWeightless List.mem_cons_self
        (enrol_weight_self given ticksSinceBoot)
      have rolledBack := totals.free (added.allocated.erase block)
      refine .of_kept ?_ fresh ?_ ?_ ?_
      · rw [performed]
        exact (enlisted_iff rfl).mpr ⟨_, rolledBack⟩
      · rw [changes, zero]
        rfl
      · intro other member
        rw [allocated] at member
        have different := ne_of_mem_of_not_mem member unallocated
        have weight : ((system.enrol manager block given ticksSinceBoot).controls other).weight =
            (system.controls other).weight := enrol_weight_other given ticksSinceBoot different
        rw [performed]
        exact ⟨member, old other different, weight⟩
      · rw [performed]
        intro after isManager _ _
        cases isManager
        exact ⟨manager, enrols.configured, rfl, rfl, rfl⟩
    · rw [if_neg zero, allocateWeight_eq (enrol_globalIoCgroupManager ..)
        (widened_ne_zero zero)] at performed
      dsimp only at performed
      have reweighed := added.reweigh (ioCgroupWeight.setWidth 32) List.mem_cons_self
      have made : (create ioCgroupWeight limits cgroupId malloc buffer ticksSinceBoot).created =
          some (block, given) := by
        rw [enrols.limits, enrols.malloc]
        rfl
      refine .of_ledger ?_ (performed ▸ reweighed) ?_ ?_ ?_
      · rw [performed]
        exact reweigh_globalIoCgroupManager
      · rw [changes, decide_eq_true zero]
      · rw [performed, reweigh_allocated, enrol_allocated, made]
        intro other member different
        rcases List.mem_cons.mp member with rfl | old
        · exact absurd rfl (of_decide_eq_true different)
        · exact old
      · rw [performed, configure_of_created made]
        intro other _ idle type
        rw [reweigh_idle idle]
        rcases eq_or_ne other block with rfl | different
        · rw [update_self]
          show ((system.allocateControl other given ticksSinceBoot).controls other).limits.bpsLimit
            type = _
          rw [allocateControl, store_self]
          cases type with
          | read => rfl
          | write => rfl
        · rw [old other different, update_of_ne different]
  · have idle : (create ioCgroupWeight limits cgroupId malloc buffer
        ticksSinceBoot).changesShares system = false := create_failed enrols
    rcases create_eq_of_not_enrols enrols with unchanged | ⟨block, given, rfl, freed⟩
    · exact .of_unchanged enlisted fresh idle unchanged
    · exact freed_effect enlisted (unallocated block rfl) fresh idle freed

theorem Possible.effect (possible : call.Possible system) (enlisted : system.Enlisted) :
    call.Effect system := by
  have pointed : ∀ block, call.ioCgroup = some block → block ∈ system.allocated := possible.1
  cases call with
  | managerCreate systemReadBps systemWriteBps malloc =>
    exact managerCreate_effect enlisted systemReadBps systemWriteBps malloc
  | managerUpdateBandwidth systemReadBps systemWriteBps =>
    exact managerUpdateBandwidth_effect enlisted systemReadBps systemWriteBps
  | create ioCgroupWeight limits cgroupId malloc buffer ticksSinceBoot =>
    refine create_effect enlisted fun block isMalloc => ?_
    subst isMalloc
    exact possible.2
  | delete ioCgroup =>
    cases ioCgroup with
    | none => exact .of_unchanged enlisted (fun _ made => nomatch made) rfl rfl
    | some block => exact delete_effect enlisted (pointed block rfl)
  | allocateWeight ioCgroup weight =>
    cases ioCgroup with
    | none => exact .of_unchanged enlisted (fun _ made => nomatch made) rfl rfl
    | some block => exact allocateWeight_effect enlisted (pointed block rfl) weight
  | removeWeight ioCgroup =>
    cases ioCgroup with
    | none => exact .of_unchanged enlisted (fun _ made => nomatch made) rfl rfl
    | some block => exact removeWeight_effect enlisted (pointed block rfl)
  | addThread ioCgroup thread weight malloc =>
    cases ioCgroup with
    | none => exact .of_unchanged enlisted (fun _ made => nomatch made) rfl rfl
    | some block => exact addThread_effect enlisted thread weight malloc
  | removeThread ioCgroup thread =>
    cases ioCgroup with
    | none => exact .of_unchanged enlisted (fun _ made => nomatch made) rfl rfl
    | some block => exact removeThread_effect enlisted thread

end IoCgroupCall

namespace ConfiguredCgroups

open IoCgroupSystem

variable {state : ConfiguredCgroups}

theorem share_of_hasShare {manager : IoCgroupManager} {control : IoCgroupControl}
    (shares : HasShare manager control) (weighs : control.weight ≠ 0)
    (type : IoCgroupRequestType) : control.limits.bpsLimit type = manager.share control type := by
  cases type with
  | read => exact (shares weighs).1
  | write => exact (shares weighs).2

/-- The other calls keep the limits that are enforced. -/
theorem EnforcesLast.other (last : state.EnforcesLast) (enlisted : state.system.Enlisted)
    {call : IoCgroupCall} (possible : call.Possible state.system) :
    (state.perform (.other call)).EnforcesLast := by
  have effect := possible.effect enlisted
  intro block member type
  dsimp only [perform] at member ⊢
  cases new : call.created.all (fun new => new.1 ≠ block) with
  | true =>
    have old := effect.allocated block member new
    have fresh : ∀ made, call.created = some made → made.1 ≠ block := by
      intro made isMade
      rw [isMade] at new
      exact of_decide_eq_true new
    rw [Bool.true_and]
    constructor
    · intro unshared
      rw [Bool.or_eq_false_iff, Bool.and_eq_false_iff, decide_eq_false_iff_not, not_not] at unshared
      rw [effect.limits block member unshared.1 type, IoCgroupCall.configure_of_ne fresh,
        IoCgroupCall.configure_of_ne fresh]
      exact (last block old type).1 unshared.2
    · intro shared weighs manager configured total
      cases sharing : call.sharesOut state.system with
      | true =>
        have shares := effect.shares sharing manager configured block member
        exact share_of_hasShare shares weighs type
      | false =>
        rw [sharing, Bool.false_and, Bool.false_or] at shared
        obtain ⟨_, before, was, totalBefore, weight, same⟩ :=
          effect.keeps sharing manager configured total block member
        rw [effect.limits block member (.inl sharing) type, IoCgroupCall.configure_of_ne fresh,
          same type]
        exact (last block old type).2 shared (weight ▸ weighs) before was totalBefore
  | false =>
    obtain ⟨made, isMade, isBlock⟩ : ∃ made, call.created = some made ∧ made.1 = block := by
      cases isMade : call.created with
      | none =>
        rw [isMade] at new
        cases new
      | some made =>
        rw [isMade] at new
        exact ⟨made, rfl, not_not.mp (of_decide_eq_false new)⟩
    subst isBlock
    rw [Bool.false_and, Bool.or_false]
    constructor
    · intro unshared
      rw [Bool.and_eq_false_iff, decide_eq_false_iff_not, not_not] at unshared
      rw [effect.limits made.1 member unshared type, IoCgroupCall.configure_of_created isMade,
        IoCgroupCall.configure_of_created isMade, update_self, update_self]
    · intro shared weighs manager configured total
      have sharing := (Bool.and_eq_true_iff.mp shared).1
      have shares := effect.shares sharing manager configured made.1 member
      exact share_of_hasShare shares weighs type

theorem EnforcesLast.setLimits (last : state.EnforcesLast) (block : Nat)
    (limits : IoCgroupLimit) :
    (state.perform (.setLimits (some block) (some limits))).EnforcesLast := by
  intro other member type
  dsimp only [perform, rtemsIoCgroupSetLimits]
  rcases eq_or_ne other block with rfl | different
  · rw [store_self, update_self, update_self]
    exact ⟨fun _ => rfl, fun shared => absurd shared Bool.false_ne_true⟩
  · rw [store_other different, update_of_ne different, update_of_ne different]
    exact last other member type

end ConfiguredCgroups

/-- In every run from the start every cgroup keeps to the limits that were last set for it,
explicitly or by a share-out of the bandwidth. -/
theorem limitsRun_enforcesLast (calls : List IoLimitsCall)
    (possible : Meets ConfiguredCgroups.perform ConfiguredCgroups.Possible .initial calls) :
    Throughout ConfiguredCgroups.perform ConfiguredCgroups.EnforcesLast .initial calls := by
  have kept : Throughout ConfiguredCgroups.perform
      (fun state => state.system.Enlisted ∧ state.EnforcesLast) .initial calls := by
    refine throughout_of_preserved ⟨rfl, fun _ member => absurd member List.not_mem_nil⟩ ?_ possible
    rintro state call ⟨enlisted, last⟩ possible
    cases call with
    | other call => exact ⟨(possible.effect enlisted).enlisted, last.other enlisted possible⟩
    | setLimits ioCgroup limits =>
      cases ioCgroup with
      | none => exact ⟨enlisted, last⟩
      | some block =>
        cases limits with
        | none => exact ⟨enlisted, last⟩
        | some limits => exact ⟨enlisted.store rfl rfl rfl, last.setLimits block limits⟩
  exact kept.imp fun state both => both.2

/-- Explicit limits of 10 bytes a second, before a second cgroup of the same weight is
created. -/
def limitBeforeCreate : List IoLimitsCall :=
  [.other (.managerCreate 1000 1000 true),
    .other (.create 1 (some ⟨10, 10, 0⟩) true (some 0) true 0),
    .setLimits (some 0) (some ⟨10, 10, 1000⟩),
    .other (.create 1 (some ⟨0, 0, 0⟩) true (some 1) true 0)]

theorem limitBeforeCreate_possible :
    Meets ConfiguredCgroups.perform ConfiguredCgroups.Possible .initial limitBeforeCreate :=
  ⟨by decide, by decide, by decide, by decide, trivial⟩

theorem limitBeforeCreate_enforcesLast :
    Throughout ConfiguredCgroups.perform ConfiguredCgroups.EnforcesLast .initial
      limitBeforeCreate :=
  limitsRun_enforcesLast _ limitBeforeCreate_possible

/-- The second cgroup raises the limit of the first one from 10 to 500. -/
theorem secondCgroup_raises : ¬ ∀ calls : List IoLimitsCall,
    Meets ConfiguredCgroups.perform ConfiguredCgroups.Possible .initial calls →
      Throughout ConfiguredCgroups.perform ConfiguredCgroups.EnforcesConfigured .initial
        calls := by
  intro claim
  have final := (claim _ limitBeforeCreate_possible).final _ rfl 0 (by decide) .read
  exact absurd final (by decide)

end RTContainer.Score
