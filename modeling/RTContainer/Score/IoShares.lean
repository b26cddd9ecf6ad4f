import RTContainer.Lib.Run
import RTContainer.Lib.Shares
import RTContainer.Score.IoLedger

/-! The bandwidth shares of the I/O cgroups. The books of the manager are exact,
and the bandwidth is shared out by weight, as long as the count, the total weight
and the products of weights and bandwidths fit into their words. -/

set_option autoImplicit false

namespace RTContainer.Score

open RTContainer.Rtems Machine DoublyLinked Shares

namespace IoCgroupSystem

variable (system : IoCgroupSystem)

def weighed (blocks : List Nat) : List Nat :=
  blocks.filter fun block => 0 < (system.controls block).weight.toNat

def readLimit (block : Nat) : Nat :=
  (system.controls block).limits.readBpsLimit.toNat

def writeLimit (block : Nat) : Nat :=
  (system.controls block).limits.writeBpsLimit.toNat

structure SharesExact (system : IoCgroupSystem) (manager : IoCgroupManager) (linked : List Nat) :
    Prop where
  lists : (system.links manager).Lists linked
  allocated : linked.Perm system.allocated
  count : manager.ioCgroupCount.toNat = linked.length
  total : manager.totalWeight.toNat = system.weightSum linked
  readShare : ∀ block ∈ system.weighed linked, system.readLimit block =
    share manager.systemReadBps.toNat (system.weightSum linked) (system.controls block).weight.toNat
  writeShare : ∀ block ∈ system.weighed linked, system.writeLimit block =
    share manager.systemWriteBps.toNat (system.weightSum linked)
      (system.controls block).weight.toNat
  readSum : ((system.weighed linked).map system.readLimit).sum ≤ manager.systemReadBps.toNat
  writeSum : ((system.weighed linked).map system.writeLimit).sum ≤ manager.systemWriteBps.toNat

/-- The bandwidth is shared out exactly over a well-formed list. -/
def BandwidthShared : Prop :=
  ∀ manager, system.globalIoCgroupManager = some manager →
    ∃ linked, system.SharesExact manager linked

def Multiplies (weight : Nat) (systemReadBps systemWriteBps : BitVec 64) : Prop :=
  weight * systemReadBps.toNat < 2 ^ 64 ∧ weight * systemWriteBps.toNat < 2 ^ 64

/-- The count, the total weight and the products fit into their words. -/
structure InRange (system : IoCgroupSystem) (manager : IoCgroupManager) : Prop where
  count : system.allocated.length < 2 ^ 32
  total : system.weightSum system.allocated < 2 ^ 32
  products : ∀ block ∈ system.allocated,
    Multiplies (system.controls block).weight.toNat manager.systemReadBps manager.systemWriteBps

def Fitting : Prop :=
  ∀ manager, system.globalIoCgroupManager = some manager → system.InRange manager

end IoCgroupSystem

/-- A call keeps the count, the total weight and the products in their words. -/
def IoCgroupCall.FitsShares (system : IoCgroupSystem) : IoCgroupCall → Prop
  | managerUpdateBandwidth systemReadBps systemWriteBps =>
    system.globalIoCgroupManager ≠ none → systemReadBps ≠ 0 → systemWriteBps ≠ 0 →
      ∀ block ∈ system.allocated, IoCgroupSystem.Multiplies
        (system.controls block).weight.toNat systemReadBps systemWriteBps
  | create ioCgroupWeight limits cgroupId malloc buffer _ =>
    ∀ manager block given, system.Enrols limits cgroupId malloc buffer manager block given →
      ioCgroupWeight ≠ 0 →
        system.allocated.length + 1 < 2 ^ 32 ∧
          system.weightSum system.allocated + ioCgroupWeight.toNat < 2 ^ 32 ∧
            IoCgroupSystem.Multiplies ioCgroupWeight.toNat manager.systemReadBps
              manager.systemWriteBps
  | allocateWeight (some block) weight =>
    ∀ manager, system.globalIoCgroupManager = some manager → weight ≠ 0 →
      system.weightSum system.allocated - (system.controls block).weight.toNat + weight.toNat <
          2 ^ 32 ∧
        IoCgroupSystem.Multiplies weight.toNat manager.systemReadBps manager.systemWriteBps
  | _ => True

namespace IoCgroupSystem

variable {system next : IoCgroupSystem} {manager after : IoCgroupManager} {linked : List Nat}
variable {block : Nat}

theorem weightSum_weighed (system : IoCgroupSystem) (linked : List Nat) :
    system.weightSum (system.weighed linked) = system.weightSum linked := by
  induction linked with
  | nil => rfl
  | cons block rest ih =>
    unfold weighed at ih ⊢
    by_cases weighs : 0 < (system.controls block).weight.toNat
    · simp only [weighs, List.filter_cons_of_pos, decide_true, weightSum_cons, ih]
    · simp only [weighs, List.filter_cons_of_neg, decide_false, Bool.false_eq_true,
        not_false_eq_true, weightSum_cons, ih]
      omega

variable {weight total : BitVec 32} {bps systemReadBps systemWriteBps : BitVec 64}
variable {malloc cgroupId buffer : Bool} {thread : Option ObjectsId} {limits : Option IoCgroupLimit}

theorem bpsLimit_toNat (fits : weight.toNat * bps.toNat < 2 ^ 64) :
    (IoCgroupControl.bpsLimit weight bps total).toNat = share bps.toNat total.toNat weight.toNat := by
  have weightBound := weight.isLt
  have totalBound := total.isLt
  simp only [IoCgroupControl.bpsLimit, share, BitVec.toNat_udiv, BitVec.toNat_mul,
    BitVec.toNat_setWidth]
  rw [Nat.mod_eq_of_lt (by omega : weight.toNat < 2 ^ 64),
    Nat.mod_eq_of_lt (by omega : total.toNat < 2 ^ 64), Nat.mod_eq_of_lt fits]

theorem fits_of_bpsLimit (positive : 0 < total.toNat)
    (same : (IoCgroupControl.bpsLimit weight bps total).toNat =
      share bps.toNat total.toNat weight.toNat) : weight.toNat * bps.toNat < 2 ^ 64 := by
  have weightBound := weight.isLt
  have totalBound := total.isLt
  simp only [IoCgroupControl.bpsLimit, share, BitVec.toNat_udiv, BitVec.toNat_mul,
    BitVec.toNat_setWidth] at same
  rw [Nat.mod_eq_of_lt (by omega : weight.toNat < 2 ^ 64),
    Nat.mod_eq_of_lt (by omega : total.toNat < 2 ^ 64)] at same
  exact lt_of_mod_div_eq positive (by omega) same

private theorem mem_weighed : block ∈ system.weighed linked ↔
    block ∈ linked ∧ 0 < (system.controls block).weight.toNat := by
  simp [weighed]

theorem shareSum_le {limit : Nat → Nat} {amount : Nat}
    (shares : ∀ block ∈ system.weighed linked, limit block =
      share amount (system.weightSum linked) (system.controls block).weight.toNat) :
    ((system.weighed linked).map limit).sum ≤ amount := by
  have eachShare : (system.weighed linked).map limit =
      ((system.weighed linked).map fun block => (system.controls block).weight.toNat).map
        (share amount (system.weightSum linked)) := by
    rw [List.map_map]
    exact List.map_congr_left shares
  rw [eachShare]
  apply sum_share_le
  exact (weightSum_weighed system linked).le

theorem Ledger.sharesExact (ledger : system.Ledger manager linked)
    (range : system.InRange manager) : system.SharesExact manager linked := by
  have sum : system.weightSum linked = system.weightSum system.allocated :=
    weightSum_perm ledger.allocated
  have total : manager.totalWeight.toNat = system.weightSum linked := by
    rw [ledger.total, BitVec.toNat_ofNat]
    exact Nat.mod_eq_of_lt (sum ▸ range.total)
  have limits : ∀ block ∈ system.weighed linked,
      HasShare manager (system.controls block) ∧ (system.controls block).weight ≠ 0 ∧
        Multiplies (system.controls block).weight.toNat manager.systemReadBps
          manager.systemWriteBps := by
    intro block member
    obtain ⟨isLinked, weighs⟩ := mem_weighed.mp member
    have part := weight_le_weightSum system isLinked
    have nonzero : manager.totalWeight ≠ 0 := toNat_pos.mp (by omega)
    exact ⟨ledger.shares nonzero block isLinked, toNat_pos.mp weighs,
      range.products block (ledger.allocated.mem_iff.mp isLinked)⟩
  have readShare : ∀ block ∈ system.weighed linked, system.readLimit block =
      share manager.systemReadBps.toNat (system.weightSum linked)
        (system.controls block).weight.toNat := by
    intro block member
    obtain ⟨shares, weighs, products⟩ := limits block member
    rw [readLimit, (shares weighs).1, bpsLimit_toNat products.1, total]
  have writeShare : ∀ block ∈ system.weighed linked, system.writeLimit block =
      share manager.systemWriteBps.toNat (system.weightSum linked)
        (system.controls block).weight.toNat := by
    intro block member
    obtain ⟨shares, weighs, products⟩ := limits block member
    rw [writeLimit, (shares weighs).2, bpsLimit_toNat products.2, total]
  exact {
    lists := ledger.lists
    allocated := ledger.allocated
    count := by
      rw [ledger.count, BitVec.toNat_ofNat]
      exact Nat.mod_eq_of_lt (ledger.allocated.length_eq ▸ range.count)
    total := total
    readShare := readShare
    writeShare := writeShare
    readSum := shareSum_le readShare
    writeSum := shareSum_le writeShare }

theorem Ledger.inRange {others : List Nat} (ledger : system.Ledger manager linked)
    (exact : system.SharesExact manager others) : system.InRange manager := by
  have same : others = linked := exact.lists.unique ledger.lists
  subst others
  have sum : system.weightSum linked = system.weightSum system.allocated :=
    weightSum_perm ledger.allocated
  have total := exact.total
  exact {
    count := by
      rw [← ledger.allocated.length_eq, ← exact.count]
      exact manager.ioCgroupCount.isLt
    total := by
      rw [← sum, ← total]
      exact manager.totalWeight.isLt
    products := by
      intro block member
      have isLinked := ledger.allocated.mem_iff.mpr member
      by_cases weighs : 0 < (system.controls block).weight.toNat
      · have part := weight_le_weightSum system isLinked
        have positive : 0 < manager.totalWeight.toNat := by omega
        have shares := ledger.shares (toNat_pos.mp positive) block isLinked (toNat_pos.mp weighs)
        have inWeighed := mem_weighed.mpr ⟨isLinked, weighs⟩
        have read := exact.readShare block inWeighed
        have write := exact.writeShare block inWeighed
        rw [readLimit, shares.1, ← total] at read
        rw [writeLimit, shares.2, ← total] at write
        exact ⟨fits_of_bpsLimit positive read, fits_of_bpsLimit positive write⟩
      · have none : (system.controls block).weight.toNat = 0 := by omega
        simp [Multiplies, none] }

/-! What the calls make of the ranges of the words. -/

section

variable (read : after.systemReadBps = manager.systemReadBps)
variable (write : after.systemWriteBps = manager.systemWriteBps)
include read write

theorem InRange.congr (range : system.InRange manager)
    (allocated : next.allocated = system.allocated)
    (weights : ∀ block ∈ system.allocated,
      (next.controls block).weight = (system.controls block).weight) : next.InRange after where
  count := allocated ▸ range.count
  total := by
    rw [allocated, weightSum_congr weights]
    exact range.total
  products := by
    intro block member
    rw [allocated] at member
    rw [weights block member, read, write]
    exact range.products block member

theorem InRange.erase (range : system.InRange manager) (isMember : block ∈ system.allocated)
    (allocated : next.allocated = system.allocated.erase block)
    (weights : ∀ other ∈ system.allocated.erase block,
      (next.controls other).weight = (system.controls other).weight) : next.InRange after where
  count := allocated ▸ List.length_erase_le.trans_lt range.count
  total := by
    have split := weightSum_erase system isMember
    have total := range.total
    rw [allocated, weightSum_congr weights]
    omega
  products := by
    intro other member
    rw [allocated] at member
    rw [weights other member, read, write]
    exact range.products other (List.mem_of_mem_erase member)

theorem InRange.replace_iff (range : system.InRange manager) (distinct : system.allocated.Nodup)
    (member : block ∈ system.allocated) (allocated : next.allocated = system.allocated)
    (self : (next.controls block).weight = weight) (others : ∀ other, other ≠ block →
      (next.controls other).weight = (system.controls other).weight) :
    next.InRange after ↔
      system.weightSum system.allocated - (system.controls block).weight.toNat + weight.toNat <
          2 ^ 32 ∧
        Multiplies weight.toNat manager.systemReadBps manager.systemWriteBps := by
  have sum := weightSum_replace distinct member self others
  constructor
  · intro fits
    have total := fits.total
    have products := fits.products block (allocated ▸ member)
    rw [allocated, sum] at total
    rw [self, read, write] at products
    exact ⟨total, products⟩
  · intro fits
    exact {
      count := allocated ▸ range.count
      total := by
        rw [allocated, sum]
        exact fits.1
      products := by
        intro other isMember
        rw [allocated] at isMember
        rw [read, write]
        by_cases same : other = block
        · subst other
          rw [self]
          exact fits.2
        · rw [others other same]
          exact range.products other isMember }

theorem InRange.enrol_iff (range : system.InRange manager)
    (allocated : next.allocated = block :: system.allocated)
    (weightless : (next.controls block).weight = 0)
    (weights : ∀ other ∈ system.allocated,
      (next.controls other).weight = (system.controls other).weight) :
    next.InRange after ↔ system.allocated.length + 1 < 2 ^ 32 := by
  constructor
  · intro fits
    have count := fits.count
    rw [allocated, List.length_cons] at count
    exact count
  · intro fits
    exact {
      count := by
        rw [allocated, List.length_cons]
        exact fits
      total := by
        rw [allocated, weightSum_cons, weightless, weightSum_congr weights]
        show 0 + _ < _
        have total := range.total
        omega
      products := by
        intro other member
        rw [allocated] at member
        rw [read, write]
        cases member with
        | head =>
          rw [weightless]
          simp [Multiplies]
        | tail _ member =>
          rw [weights other member]
          exact range.products other member }

end

theorem fitting_iff (configured : next.globalIoCgroupManager = some after) :
    next.Fitting ↔ next.InRange after := by
  constructor
  · intro fitting
    exact fitting after configured
  · intro range other isManager
    have same : after = other := Option.some.inj (configured.symm.trans isManager)
    exact same ▸ range

theorem fitting_of_none (unmanaged : next.globalIoCgroupManager = none) : next.Fitting := by
  intro manager configured
  exact absurd (unmanaged.symm.trans configured) (by simp)

section

variable (managed : system.Managed)
include managed

theorem shared_iff_fitting :
    system.BandwidthShared ↔ system.Fitting := by
  constructor
  · intro shared manager configured
    obtain ⟨linked, ledger⟩ := managed.ledger configured
    obtain ⟨others, exact⟩ := shared manager configured
    exact ledger.inRange exact
  · intro fitting manager configured
    obtain ⟨linked, ledger⟩ := managed.ledger configured
    exact ⟨linked, ledger.sharesExact (fitting manager configured)⟩

section

variable (fitting : system.Fitting)
include fitting

theorem managerCreate_fits :
    (system.rtemsIoCgroupManagerCreate systemReadBps systemWriteBps malloc).1.Managed ∧
      (system.rtemsIoCgroupManagerCreate systemReadBps systemWriteBps malloc).1.Fitting := by
  unfold rtemsIoCgroupManagerCreate
  cases configured : system.globalIoCgroupManager with
  | some manager => exact ⟨managed, fitting⟩
  | none =>
    have empty := managed.empty configured
    cases malloc with
    | false => exact ⟨managed, fitting⟩
    | true =>
      constructor
      · refine (managed_iff rfl).mpr ⟨[], ?_⟩
        exact {
          lists := rfl
          visited := Nat.zero_le _
          count := rfl
          total := rfl
          shares := fun _ _ member => nomatch member
          allocated := by
            show [].Perm system.allocated
            rw [empty] }
      · refine (fitting_iff rfl).mpr ?_
        refine {
          count := ?_
          total := ?_
          products := ?_ }
        · show system.allocated.length < _
          rw [empty]
          decide
        · show system.weightSum system.allocated < _
          rw [empty, weightSum_nil]
          decide
        · intro block member
          exact absurd (empty ▸ member : block ∈ []) List.not_mem_nil

theorem managerUpdateBandwidth_fits :
    (system.rtemsIoCgroupManagerUpdateBandwidth systemReadBps systemWriteBps).1.Managed ∧
      ((system.rtemsIoCgroupManagerUpdateBandwidth systemReadBps systemWriteBps).1.Fitting ↔
        (IoCgroupCall.managerUpdateBandwidth systemReadBps systemWriteBps).FitsShares system) := by
  unfold rtemsIoCgroupManagerUpdateBandwidth
  cases configured : system.globalIoCgroupManager with
  | none => exact ⟨managed, iff_of_true fitting fun isManaged => absurd configured isManaged⟩
  | some manager =>
    obtain ⟨linked, ledger⟩ := managed.ledger configured
    have range := fitting manager configured
    by_cases invalid : systemReadBps = 0 ∨ systemWriteBps = 0
    · simp only [if_pos invalid]
      refine ⟨managed, iff_of_true fitting ?_⟩
      intro _ read write
      cases invalid with
      | inl zero => exact absurd zero read
      | inr zero => exact absurd zero write
    · simp only [if_neg invalid]
      constructor
      · apply (managed_iff allocateBandwidths_globalIoCgroupManager).mpr
        exact ⟨linked, ledger.listed.setBandwidth rfl rfl rfl⟩
      · rw [fitting_iff allocateBandwidths_globalIoCgroupManager]
        constructor
        · intro fits _ _ _ block member
          have products := fits.products block (by simpa using member)
          rw [allocateBandwidths_weight] at products
          exact products
        · intro fits
          refine {
            count := by simpa using range.count
            total := ?_
            products := ?_ }
          · rw [allocateBandwidths_allocated,
              weightSum_congr fun block _ => allocateBandwidths_weight _ _ block]
            exact range.total
          · intro block member
            rw [allocateBandwidths_weight]
            exact fits (by simp [configured]) (fun zero => invalid (.inl zero))
              (fun zero => invalid (.inr zero)) block (by simpa using member)

theorem reweigh_fits (weight : BitVec 32)
    (configured : system.globalIoCgroupManager = some manager) (member : block ∈ system.allocated) :
    let next := system.reweigh manager block weight
      (manager.totalWeight - (system.controls block).weight + weight)
    next.Managed ∧
      (next.Fitting ↔
        system.weightSum system.allocated - (system.controls block).weight.toNat + weight.toNat <
            2 ^ 32 ∧
          Multiplies weight.toNat manager.systemReadBps manager.systemWriteBps) := by
  intro next
  obtain ⟨linked, ledger⟩ := managed.ledger configured
  have isLinked := ledger.allocated.mem_iff.mpr member
  constructor
  · exact (managed_iff reweigh_globalIoCgroupManager).mpr ⟨linked,
      ledger.listed.reweigh weight isLinked⟩
  · rw [fitting_iff reweigh_globalIoCgroupManager]
    apply (fitting manager configured).replace_iff ?_ ?_
      (ledger.allocated.nodup_iff.mp ledger.lists.nodup) member reweigh_allocated
    · obtain ⟨limits, reweighed⟩ := reweigh_self system manager block weight
        (manager.totalWeight - (system.controls block).weight + weight)
      rw [reweighed]
    · intro other different
      obtain ⟨limits, kept⟩ := reweigh_other different
      rw [kept]
    · rfl
    · rfl

theorem allocateWeight_fits (member : block ∈ system.allocated) :
    (system.rtemsIoCgroupAllocateWeight block weight).1.Managed ∧
      ((system.rtemsIoCgroupAllocateWeight block weight).1.Fitting ↔
        (IoCgroupCall.allocateWeight (some block) weight).FitsShares system) := by
  by_cases zero : weight = 0
  · subst zero
    rw [allocateWeight_zero]
    exact ⟨managed, iff_of_true fitting fun _ _ weighs => absurd rfl weighs⟩
  · cases configured : system.globalIoCgroupManager with
    | none =>
      simp only [rtemsIoCgroupAllocateWeight, if_neg zero, configured]
      exact ⟨managed, iff_of_true fitting fun _ isManager =>
        absurd (configured.symm.trans isManager) (by simp)⟩
    | some manager =>
      rw [allocateWeight_eq configured zero]
      obtain ⟨kept, fits⟩ := reweigh_fits managed fitting weight configured member
      refine ⟨kept, fits.trans ?_⟩
      constructor
      · intro given other isManager _
        have same : manager = other := Option.some.inj (configured.symm.trans isManager)
        exact same ▸ given
      · intro given
        exact given manager configured zero

theorem removeWeight_fits (member : block ∈ system.allocated) :
    (system.rtemsIoCgroupRemoveWeight block).1.Managed ∧
      (system.rtemsIoCgroupRemoveWeight block).1.Fitting := by
  unfold rtemsIoCgroupRemoveWeight
  cases configured : system.globalIoCgroupManager with
  | none => exact ⟨managed, fitting⟩
  | some manager =>
    obtain ⟨kept, fits⟩ := reweigh_fits managed fitting 0 configured member
    have given : manager.totalWeight - (system.controls block).weight + 0 =
        manager.totalWeight - (system.controls block).weight := BitVec.add_zero _
    rw [given] at kept fits
    have total := (fitting manager configured).total
    refine ⟨kept, fits.mpr ⟨?_, ?_⟩⟩
    · show _ - _ + 0 < _
      omega
    · simp [Multiplies]

theorem delete_fits (member : block ∈ system.allocated) :
    (system.rtemsIoCgroupDelete block).Managed ∧ (system.rtemsIoCgroupDelete block).Fitting := by
  cases configured : system.globalIoCgroupManager with
  | none => exact absurd (managed.empty configured ▸ member : block ∈ []) List.not_mem_nil
  | some manager =>
    obtain ⟨linked, ledger⟩ := managed.ledger configured
    have isLinked := ledger.allocated.mem_iff.mpr member
    obtain ⟨after, isManager, read, write, left⟩ := ledger.delete configured isLinked
    have distinct := ledger.allocated.nodup_iff.mp ledger.lists.nodup
    refine ⟨(managed_iff isManager).mpr ⟨_, left⟩, (fitting_iff isManager).mpr ?_⟩
    apply (fitting manager configured).erase read write member (delete_allocated _)
    intro other isMember
    apply delete_weight
    exact ne_of_mem_of_not_mem isMember (List.Nodup.not_mem_erase distinct)

theorem unseen_fits
    (sameManager : next.globalIoCgroupManager = system.globalIoCgroupManager)
    (allocated : next.allocated = system.allocated)
    (same : ∀ block ∈ system.allocated, SameShare (system.controls block) (next.controls block)) :
    next.Managed ∧ next.Fitting := by
  cases configured : system.globalIoCgroupManager with
  | none =>
    rw [configured] at sameManager
    refine ⟨?_, fitting_of_none sameManager⟩
    simp only [Managed, sameManager, allocated]
    exact managed.empty configured
  | some manager =>
    rw [configured] at sameManager
    obtain ⟨linked, ledger⟩ := managed.ledger configured
    constructor
    · refine (managed_iff sameManager).mpr ⟨linked, ledger.congr (allocated ▸ ledger.allocated) ?_⟩
      intro block member
      exact same block (ledger.allocated.mem_iff.mp member)
    · apply (fitting_iff sameManager).mpr
      exact (fitting manager configured).congr rfl rfl allocated
        fun block member => (same block member).weight

theorem store_fits {control : IoCgroupControl}
    (same : SameShare (system.controls block) control) :
    (system.store block control).Managed ∧ (system.store block control).Fitting := by
  have each : ∀ other ∈ system.allocated,
      SameShare (system.controls other) ((system.store block control).controls other) := by
    intro other _
    by_cases isBlock : other = block
    · subst other
      rw [store_self]
      exact same
    · rw [store_other isBlock]
      exact ⟨rfl, rfl, rfl, rfl⟩
  have allocated : (system.store block control).allocated = system.allocated := rfl
  exact unseen_fits managed fitting rfl allocated each

theorem addThread_fits :
    (system.rtemsIoCgroupAddThread block thread weight malloc).1.Managed ∧
      (system.rtemsIoCgroupAddThread block thread weight malloc).1.Fitting := by
  unfold rtemsIoCgroupAddThread
  cases thread with
  | none => exact ⟨managed, fitting⟩
  | some thread =>
    by_cases zero : weight = 0
    · simp only [if_pos zero]
      exact ⟨managed, fitting⟩
    · simp only [if_neg zero]
      apply store_fits managed fitting
      unfold IoCgroupControl.allocateThreadWeight
      split
      · split <;> exact ⟨rfl, rfl, rfl, rfl⟩
      · split
        · exact ⟨rfl, rfl, rfl, rfl⟩
        · split <;> exact ⟨rfl, rfl, rfl, rfl⟩

theorem removeThread_fits :
    (system.rtemsIoCgroupRemoveThread block thread).1.Managed ∧
      (system.rtemsIoCgroupRemoveThread block thread).1.Fitting := by
  cases thread with
  | none => exact ⟨managed, fitting⟩
  | some thread =>
    simp only [rtemsIoCgroupRemoveThread]
    apply store_fits managed fitting
    unfold IoCgroupControl.removeThreadWeight
    split <;> exact ⟨rfl, rfl, rfl, rfl⟩

theorem allocateControl_free_fits
    (fresh : block ∉ system.allocated) (given : IoCgroupLimit) (ticksSinceBoot : BitVec 32) :
    ((system.allocateControl block given ticksSinceBoot).free block).Managed ∧
      ((system.allocateControl block given ticksSinceBoot).free block).Fitting := by
  have allocated : ((system.allocateControl block given ticksSinceBoot).free block).allocated =
      system.allocated := List.erase_cons_head ..
  have sameManager : ((system.allocateControl block given
      ticksSinceBoot).free block).globalIoCgroupManager = system.globalIoCgroupManager := rfl
  apply unseen_fits managed fitting sameManager allocated
  intro other member
  have kept : ((system.allocateControl block given ticksSinceBoot).free block).controls other =
      system.controls other := store_other (ne_of_mem_of_not_mem member fresh)
  rw [kept]
  exact ⟨rfl, rfl, rfl, rfl⟩

end

end

theorem create_fits_of_enrols {malloc : Option Nat} {given : IoCgroupLimit}
    (ioCgroupWeight : BitVec 16) (ticksSinceBoot : BitVec 32) (managed : system.Managed)
    (fitting : system.Fitting)
    (enrols : system.Enrols limits cgroupId malloc buffer manager block given)
    (fresh : block ∉ system.allocated) :
    (system.rtemsIoCgroupCreate ioCgroupWeight limits cgroupId malloc buffer
        ticksSinceBoot).1.Managed ∧
      ((system.rtemsIoCgroupCreate ioCgroupWeight limits cgroupId malloc buffer
          ticksSinceBoot).1.Fitting ↔
        (ioCgroupWeight ≠ 0 →
          system.allocated.length + 1 < 2 ^ 32 ∧
            system.weightSum system.allocated + ioCgroupWeight.toNat < 2 ^ 32 ∧
              Multiplies ioCgroupWeight.toNat manager.systemReadBps manager.systemWriteBps)) := by
  obtain ⟨linked, ledger⟩ := managed.ledger enrols.configured
  have range := fitting manager enrols.configured
  have added := ledger.enrol fresh given ticksSinceBoot
  rw [enrols.create_eq_enrol]
  generalize enrolledEq : system.enrol manager block given ticksSinceBoot = enrolled at added ⊢
  have isManager : enrolled.globalIoCgroupManager = some (linkedManager manager block) :=
    enrolledEq ▸ enrol_globalIoCgroupManager given ticksSinceBoot
  have allocated : enrolled.allocated = block :: system.allocated :=
    enrolledEq ▸ enrol_allocated given ticksSinceBoot
  have weightless : (enrolled.controls block).weight = 0 :=
    enrolledEq ▸ enrol_weight_self given ticksSinceBoot
  have weights : ∀ other ∈ system.allocated,
      (enrolled.controls other).weight = (system.controls other).weight := by
    intro other member
    rw [← enrolledEq, enrol_weight_other]
    exact ne_of_mem_of_not_mem member fresh
  by_cases zero : ioCgroupWeight = 0
  · rw [if_pos zero]
    have left := added.rollBack isManager List.mem_cons_self weightless
    rw [List.erase_cons_head] at left
    have rolledBack : ((enrolled.rtemsIoCgroupRemoveFromManager block).1.free
        block).globalIoCgroupManager =
          some (unlinkedManager enrolled (linkedManager manager block) block) := by
      simp only [rtemsIoCgroupRemoveFromManager, isManager]
      rfl
    refine ⟨(managed_iff rolledBack).mpr ⟨linked, left⟩, ?_⟩
    refine iff_of_true ((fitting_iff rolledBack).mpr ?_) fun weighs => absurd zero weighs
    apply range.congr
    · rfl
    · rfl
    · simp only [free, removeFromManager_allocated, allocated, List.erase_cons_head]
    · intro other member
      rw [← weights other member]
      simp only [rtemsIoCgroupRemoveFromManager, isManager]
      rfl
  · rw [if_neg zero, allocateWeight_eq isManager (widened_ne_zero zero)]
    have managedNow : enrolled.Managed := (managed_iff isManager).mpr ⟨_, added⟩
    have sum : enrolled.weightSum enrolled.allocated = system.weightSum system.allocated := by
      rw [allocated, weightSum_cons, weightless, weightSum_congr weights]
      exact Nat.zero_add _
    have reweighed := added.listed.reweigh (ioCgroupWeight.setWidth 32) List.mem_cons_self
    refine ⟨(managed_iff reweigh_globalIoCgroupManager).mpr ⟨_, reweighed⟩, ?_⟩
    have enrolledRange : enrolled.InRange (linkedManager manager block) ↔
        system.allocated.length + 1 < 2 ^ 32 :=
      range.enrol_iff (by rfl) (by rfl) allocated weightless weights
    by_cases count : system.allocated.length + 1 < 2 ^ 32
    · have fittingNow := (fitting_iff isManager).mpr (enrolledRange.mpr count)
      have fits := (reweigh_fits managedNow fittingNow (ioCgroupWeight.setWidth 32) isManager
        (allocated ▸ List.mem_cons_self)).2
      have noWeight : (enrolled.controls block).weight.toNat = 0 := by rw [weightless]; rfl
      rw [sum, noWeight, widened_toNat] at fits
      apply fits.trans
      constructor
      · intro both _
        exact ⟨count, both⟩
      · intro fits
        exact (fits zero).2
    · apply iff_of_false
      · intro fits
        have range := (fitting_iff reweigh_globalIoCgroupManager).mp fits
        have large := range.count
        rw [reweigh_allocated, allocated] at large
        exact count large
      · intro fits
        exact count (fits zero).1

theorem create_fits {ioCgroupWeight : BitVec 16} {malloc : Option Nat} {ticksSinceBoot : BitVec 32}
    (managed : system.Managed) (fitting : system.Fitting)
    (fresh : ∀ block, malloc = some block → block ∉ system.allocated) :
    (system.rtemsIoCgroupCreate ioCgroupWeight limits cgroupId malloc buffer
        ticksSinceBoot).1.Managed ∧
      ((system.rtemsIoCgroupCreate ioCgroupWeight limits cgroupId malloc buffer
          ticksSinceBoot).1.Fitting ↔
        (IoCgroupCall.create ioCgroupWeight limits cgroupId malloc buffer
          ticksSinceBoot).FitsShares system) := by
  by_cases enrols : ∃ manager block given,
      system.Enrols limits cgroupId malloc buffer manager block given
  · obtain ⟨manager, block, given, enrols⟩ := enrols
    obtain ⟨kept, fits⟩ := create_fits_of_enrols ioCgroupWeight ticksSinceBoot managed fitting enrols
      (fresh block enrols.malloc)
    refine ⟨kept, fits.trans ?_⟩
    constructor
    · intro within other otherBlock otherGiven enrols' weighs
      have same : manager = other :=
        Option.some.inj (enrols.configured.symm.trans enrols'.configured)
      exact same ▸ within weighs
    · intro within
      exact within manager block given enrols
  · have vacuous : (IoCgroupCall.create ioCgroupWeight limits cgroupId malloc buffer
        ticksSinceBoot).FitsShares system := by
      intro manager block given enrols'
      exact absurd ⟨manager, block, given, enrols'⟩ enrols
    cases create_eq_of_not_enrols enrols with
    | inl unchanged =>
      rw [unchanged]
      exact ⟨managed, iff_of_true fitting vacuous⟩
    | inr freed =>
      obtain ⟨block, given, isMalloc, freed⟩ := freed
      obtain ⟨kept, fits⟩ := allocateControl_free_fits managed fitting (fresh block isMalloc)
        given ticksSinceBoot
      rw [freed]
      exact ⟨kept, iff_of_true fits vacuous⟩

end IoCgroupSystem

theorem IoCgroupCall.managed_fits {system : IoCgroupSystem} {call : IoCgroupCall}
    (managed : system.Managed) (fitting : system.Fitting) (possible : call.Possible system) :
    (call.perform system).Managed ∧ ((call.perform system).Fitting ↔ call.FitsShares system) := by
  have pointed : ∀ block, call.ioCgroup = some block → block ∈ system.allocated := possible.1
  have always : ∀ {next : IoCgroupSystem}, next.Managed ∧ next.Fitting →
      next.Managed ∧ (next.Fitting ↔ True) := fun kept => ⟨kept.1, iff_true_intro kept.2⟩
  cases call with
  | managerCreate systemReadBps systemWriteBps malloc =>
    exact always (IoCgroupSystem.managerCreate_fits managed fitting)
  | managerUpdateBandwidth systemReadBps systemWriteBps =>
    exact IoCgroupSystem.managerUpdateBandwidth_fits managed fitting
  | create ioCgroupWeight limits cgroupId malloc buffer ticksSinceBoot =>
    apply IoCgroupSystem.create_fits managed fitting
    intro block isMalloc
    subst isMalloc
    exact possible.2
  | delete ioCgroup =>
    cases ioCgroup with
    | none => exact always ⟨managed, fitting⟩
    | some block => exact always (IoCgroupSystem.delete_fits managed fitting (pointed block rfl))
  | allocateWeight ioCgroup weight =>
    cases ioCgroup with
    | none => exact always ⟨managed, fitting⟩
    | some block =>
      exact IoCgroupSystem.allocateWeight_fits managed fitting (pointed block rfl)
  | removeWeight ioCgroup =>
    cases ioCgroup with
    | none => exact always ⟨managed, fitting⟩
    | some block =>
      exact always (IoCgroupSystem.removeWeight_fits managed fitting (pointed block rfl))
  | addThread ioCgroup thread weight malloc =>
    cases ioCgroup with
    | none => exact always ⟨managed, fitting⟩
    | some block => exact always (IoCgroupSystem.addThread_fits managed fitting)
  | removeThread ioCgroup thread =>
    cases ioCgroup with
    | none => exact always ⟨managed, fitting⟩
    | some block => exact always (IoCgroupSystem.removeThread_fits managed fitting)

/-- In every run from the start the bandwidth is shared out exactly up to the
first call whose numbers do not fit. -/
theorem ioRun_bandwidthShared_iff (calls : List IoCgroupCall)
    (possible : Meets IoCgroupCall.perform IoCgroupCall.Possible IoCgroupSystem.initial calls) :
    Throughout IoCgroupCall.perform IoCgroupSystem.BandwidthShared IoCgroupSystem.initial calls ↔
      Meets IoCgroupCall.perform IoCgroupCall.FitsShares IoCgroupSystem.initial calls := by
  apply throughout_iff_meets (fun system => system.Managed ∧ system.Fitting) _ possible
  · intro state call invariant possible fits
    obtain ⟨kept, agrees⟩ := IoCgroupCall.managed_fits invariant.1 invariant.2 possible
    exact ⟨kept, agrees.mpr fits⟩
  · intro state invariant
    exact (IoCgroupSystem.shared_iff_fitting invariant.1).mpr invariant.2
  · intro state call invariant possible misfits shared
    obtain ⟨kept, agrees⟩ := IoCgroupCall.managed_fits invariant.1 invariant.2 possible
    exact misfits (agrees.mp ((IoCgroupSystem.shared_iff_fitting kept).mp shared))
  · exact ⟨rfl, IoCgroupSystem.fitting_of_none rfl⟩

/-- Two cgroups of weight 1 share the default bandwidth. -/
def twoCgroups : List IoCgroupCall :=
  [.managerCreate 0 0 true, .create 1 (some ⟨0, 0, 0⟩) true (some 0) true 0,
    .create 1 (some ⟨0, 0, 0⟩) true (some 1) true 0]

theorem twoCgroups_possible :
    Meets IoCgroupCall.perform IoCgroupCall.Possible IoCgroupSystem.initial twoCgroups :=
  ⟨by decide, by decide, by decide, trivial⟩

theorem twoCgroups_bandwidthShared :
    Throughout IoCgroupCall.perform IoCgroupSystem.BandwidthShared IoCgroupSystem.initial
      twoCgroups := by
  apply (ioRun_bandwidthShared_iff _ twoCgroups_possible).mpr
  refine ⟨trivial, ?_, ?_, trivial⟩
  · intro manager block given enrols _
    obtain rfl := Option.some.inj enrols.configured
    exact ⟨by decide, by decide, by decide, by decide⟩
  · intro manager block given enrols _
    obtain rfl := Option.some.inj enrols.configured
    exact ⟨by decide, by decide, by decide, by decide⟩

/-- The total wraps to 0 when the second cgroup is given a weight of 2^32 - 1. -/
theorem secondCgroup_wraps : ¬ ∀ calls : List IoCgroupCall,
    Meets IoCgroupCall.perform IoCgroupCall.Possible IoCgroupSystem.initial calls →
      Throughout IoCgroupCall.perform IoCgroupSystem.BandwidthShared IoCgroupSystem.initial
        calls := by
  intro claim
  have possible : Meets IoCgroupCall.perform IoCgroupCall.Possible IoCgroupSystem.initial
      (twoCgroups ++ [.allocateWeight (some 1) 0xffffffff]) :=
    meets_append.mpr ⟨twoCgroups_possible, by decide, trivial⟩
  obtain ⟨linked, exact⟩ := (claim _ possible).final _ rfl
  have total := exact.total
  rw [IoCgroupSystem.weightSum_perm exact.allocated] at total
  exact absurd total (by decide)

end RTContainer.Score
