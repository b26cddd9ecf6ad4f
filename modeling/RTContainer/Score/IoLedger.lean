import Mathlib.Algebra.BigOperators.Group.List.Basic
import RTContainer.Score.IoCgroupProperties

/-! The books of the manager of the I/O cgroups: its list, its count, its total
weight and the limits of the cgroups follow each other, up to the width of the
words that hold them. -/

set_option autoImplicit false

namespace RTContainer.Score

open RTContainer.Rtems DoublyLinked

namespace IoCgroupSystem

def weightSum (system : IoCgroupSystem) (blocks : List Nat) : Nat :=
  (blocks.map fun block => (system.controls block).weight.toNat).sum

def HasShare (manager : IoCgroupManager) (control : IoCgroupControl) : Prop :=
  control.weight ≠ 0 →
    control.limits.readBpsLimit =
        IoCgroupControl.bpsLimit control.weight manager.systemReadBps manager.totalWeight ∧
      control.limits.writeBpsLimit =
        IoCgroupControl.bpsLimit control.weight manager.systemWriteBps manager.totalWeight

structure Totals (system : IoCgroupSystem) (manager : IoCgroupManager) (linked : List Nat) :
    Prop where
  lists : (system.links manager).Lists linked
  visited : linked.length ≤ system.allocated.length
  count : manager.ioCgroupCount = BitVec.ofNat 32 linked.length
  total : manager.totalWeight = BitVec.ofNat 32 (system.weightSum linked)

structure Books (system : IoCgroupSystem) (manager : IoCgroupManager) (linked : List Nat) : Prop
    extends Totals system manager linked where
  shares : manager.totalWeight ≠ 0 → ∀ block ∈ linked, HasShare manager (system.controls block)

structure Ledger (system : IoCgroupSystem) (manager : IoCgroupManager) (linked : List Nat) : Prop
    extends Books system manager linked where
  allocated : linked.Perm system.allocated

structure Listed (system : IoCgroupSystem) (manager : IoCgroupManager) (linked : List Nat) : Prop
    extends Totals system manager linked where
  allocated : linked.Perm system.allocated

theorem Ledger.listed {system : IoCgroupSystem} {manager : IoCgroupManager} {linked : List Nat}
    (ledger : system.Ledger manager linked) : system.Listed manager linked :=
  ⟨ledger.toTotals, ledger.allocated⟩

/-- No cgroup without a manager, and a manager with its books in order. -/
def Managed (system : IoCgroupSystem) : Prop :=
  match system.globalIoCgroupManager with
  | none => system.allocated = []
  | some manager => ∃ linked, system.Ledger manager linked

variable {system next : IoCgroupSystem} {manager after : IoCgroupManager} {linked : List Nat}
variable {block : Nat}

@[simp] theorem weightSum_nil : system.weightSum [] = 0 := rfl

@[simp] theorem weightSum_cons : system.weightSum (block :: linked) =
    (system.controls block).weight.toNat + system.weightSum linked := rfl

theorem weightSum_perm {other : List Nat} (same : linked.Perm other) :
    system.weightSum linked = system.weightSum other := (same.map _).sum_eq

theorem weightSum_congr {next : IoCgroupSystem} (same : ∀ block ∈ linked,
    (next.controls block).weight = (system.controls block).weight) :
    next.weightSum linked = system.weightSum linked := by
  unfold weightSum
  congr 1
  apply List.map_congr_left
  intro block member
  rw [same block member]

theorem weightSum_erase (system : IoCgroupSystem) (member : block ∈ linked) :
    (system.controls block).weight.toNat + system.weightSum (linked.erase block) =
      system.weightSum linked :=
  (weightSum_perm (List.perm_cons_erase member)).symm

theorem weight_le_weightSum (system : IoCgroupSystem) (member : block ∈ linked) :
    (system.controls block).weight.toNat ≤ system.weightSum linked := by
  have erased := weightSum_erase system member
  omega

variable {weight : BitVec 32}

theorem toNat_pos : 0 < weight.toNat ↔ weight ≠ 0 := by
  rw [Nat.pos_iff_ne_zero]
  constructor
  · intro positive isZero
    exact positive (by rw [isZero]; rfl)
  · intro weighs isZero
    exact weighs (BitVec.eq_of_toNat_eq isZero)

structure SameShare (control other : IoCgroupControl) : Prop where
  weight : other.weight = control.weight
  limits : other.limits = control.limits
  next : other.next = control.next
  prev : other.prev = control.prev

theorem Totals.congr (totals : system.Totals manager linked)
    (visited : linked.length ≤ next.allocated.length)
    (sameNext : ∀ block ∈ linked, (next.controls block).next = (system.controls block).next)
    (samePrev : ∀ block ∈ linked, (next.controls block).prev = (system.controls block).prev)
    (sameWeight : ∀ block ∈ linked, (next.controls block).weight = (system.controls block).weight) :
    next.Totals manager linked where
  lists := Segment.congr totals.lists sameNext samePrev
  visited := visited
  count := totals.count
  total := by rw [weightSum_congr sameWeight]; exact totals.total

theorem Books.congr (books : system.Books manager linked)
    (visited : linked.length ≤ next.allocated.length)
    (same : ∀ block ∈ linked, SameShare (system.controls block) (next.controls block)) :
    next.Books manager linked where
  toTotals := books.toTotals.congr visited
    (fun block member => (same block member).next) (fun block member => (same block member).prev)
    fun block member => (same block member).weight
  shares := by
    intro nonzero block member
    have kept := same block member
    rw [HasShare, kept.weight, kept.limits]
    exact books.shares nonzero block member

theorem Ledger.congr (ledger : system.Ledger manager linked)
    (allocated : linked.Perm next.allocated)
    (same : ∀ block ∈ linked, SameShare (system.controls block) (next.controls block)) :
    next.Ledger manager linked where
  toBooks := ledger.toBooks.congr allocated.length_eq.le same
  allocated := allocated

theorem Totals.traverse_eq (totals : system.Totals manager linked) :
    system.traverse manager = linked := totals.lists.walk_eq totals.visited

theorem gt_zero_iff : weight > 0 ↔ weight ≠ 0 := by
  rw [← toNat_pos]
  exact BitVec.lt_def

theorem hasShare_allocateBandwidth (manager : IoCgroupManager) (control : IoCgroupControl) :
    HasShare manager (control.allocateBandwidth manager) := by
  unfold IoCgroupControl.allocateBandwidth
  by_cases weighs : control.weight > 0
  · rw [if_pos weighs]
    intro _
    exact ⟨rfl, rfl⟩
  · rw [if_neg weighs]
    intro nonzero
    exact absurd (gt_zero_iff.mpr nonzero) weighs

theorem Totals.allocateBandwidths (totals : system.Totals manager linked) :
    (system.allocateBandwidths manager).Books manager linked where
  toTotals := by
    apply totals.congr
    · simpa using totals.visited
    all_goals
      intro block _
      obtain ⟨limits, shared⟩ := allocateBandwidths_limits manager (system.controls block) rfl
      rw [shared]
  shares := by
    intro nonzero block member
    rw [allocateBandwidths_controls, totals.traverse_eq, if_pos ⟨gt_zero_iff.mpr nonzero, member⟩]
    exact hasShare_allocateBandwidth manager _

theorem books_reweigh {totalWeight : BitVec 32} (lists : (system.links manager).Lists linked)
    (visited : linked.length ≤ system.allocated.length)
    (count : manager.ioCgroupCount = BitVec.ofNat 32 linked.length)
    (total : totalWeight = BitVec.ofNat 32
      ((system.store block { system.controls block with weight := weight }).weightSum linked)) :
    (system.reweigh manager block weight totalWeight).Books
      { manager with totalWeight := totalWeight } linked := by
  apply Totals.allocateBandwidths
  have keepsPointers : ∀ other,
      ((system.store block { system.controls block with weight := weight }).controls other).next =
          (system.controls other).next ∧
        ((system.store block { system.controls block with weight := weight }).controls other).prev =
          (system.controls other).prev := by
    intro other
    by_cases same : other = block
    · subst other
      rw [store_self]
      exact ⟨rfl, rfl⟩
    · rw [store_other same]
      exact ⟨rfl, rfl⟩
  exact {
    lists := Segment.congr lists (fun other _ => (keepsPointers other).1)
      fun other _ => (keepsPointers other).2
    visited := visited
    count := count
    total := total }

private theorem weightSum_store_other (unlisted : block ∉ linked) :
    (system.store block { system.controls block with weight := weight }).weightSum linked =
      system.weightSum linked := by
  apply weightSum_congr
  intro other member
  rw [store_other (ne_of_mem_of_not_mem member unlisted)]

theorem weightSum_replace (distinct : linked.Nodup) (member : block ∈ linked)
    (self : (next.controls block).weight = weight) (others : ∀ other, other ≠ block →
      (next.controls other).weight = (system.controls other).weight) :
    next.weightSum linked =
      system.weightSum linked - (system.controls block).weight.toNat + weight.toNat := by
  have notErased : block ∉ linked.erase block := List.Nodup.not_mem_erase distinct
  have rest : next.weightSum (linked.erase block) = system.weightSum (linked.erase block) :=
    weightSum_congr fun other isLinked => others other (ne_of_mem_of_not_mem isLinked notErased)
  have before := weightSum_erase system member
  have after := weightSum_erase next member
  rw [self, rest] at after
  omega

theorem Listed.reweigh (listed : system.Listed manager linked) (weight : BitVec 32)
    (member : block ∈ linked) :
    (system.reweigh manager block weight
      (manager.totalWeight - (system.controls block).weight + weight)).Ledger
        { manager with
          totalWeight := manager.totalWeight - (system.controls block).weight + weight } linked where
  toBooks := by
    apply books_reweigh listed.lists listed.visited listed.count
    have part := weight_le_weightSum system member
    have bound := (system.controls block).weight.isLt
    rw [weightSum_replace listed.lists.nodup member (congrArg IoCgroupControl.weight store_self)
      fun other different => congrArg IoCgroupControl.weight (store_other different), listed.total]
    apply BitVec.eq_of_toNat_eq
    simp
    omega
  allocated := by simpa using listed.allocated

def linkedManager (manager : IoCgroupManager) (block : Nat) : IoCgroupManager :=
  { manager with ioCgroups := some block, ioCgroupCount := manager.ioCgroupCount + 1 }

def unlinkedManager (system : IoCgroupSystem) (manager : IoCgroupManager) (block : Nat) :
    IoCgroupManager :=
  { manager with
    ioCgroups := ((system.links manager).remove block).head
    ioCgroupCount := manager.ioCgroupCount - 1 }

def unlink (system : IoCgroupSystem) (manager : IoCgroupManager) (block : Nat) : IoCgroupSystem :=
  system.setLinks manager ((system.links manager).remove block) (manager.ioCgroupCount - 1)

def enrol (system : IoCgroupSystem) (manager : IoCgroupManager) (block : Nat)
    (given : IoCgroupLimit) (ticksSinceBoot : BitVec 32) : IoCgroupSystem :=
  let made := system.allocateControl block given ticksSinceBoot
  made.setLinks manager ((made.links manager).pushFront block) (manager.ioCgroupCount + 1)

theorem Enrols.create_eq_enrol {limits : Option IoCgroupLimit} {cgroupId buffer : Bool}
    {malloc : Option Nat} {given : IoCgroupLimit}
    (enrols : system.Enrols limits cgroupId malloc buffer manager block given)
    (ioCgroupWeight : BitVec 16) (ticksSinceBoot : BitVec 32) :
    (system.rtemsIoCgroupCreate ioCgroupWeight limits cgroupId malloc buffer ticksSinceBoot).1 =
      if ioCgroupWeight = 0 then
        ((system.enrol manager block given ticksSinceBoot).rtemsIoCgroupRemoveFromManager
          block).1.free block
      else ((system.enrol manager block given ticksSinceBoot).rtemsIoCgroupAllocateWeight block
        (ioCgroupWeight.setWidth 32)).1 := by
  have made : (system.allocateControl block given ticksSinceBoot).globalIoCgroupManager =
      some manager := enrols.configured
  rw [enrols.create_eq, addToManager_eq made]
  rfl

section

variable (given : IoCgroupLimit) (ticksSinceBoot : BitVec 32)
include given ticksSinceBoot

theorem enrol_globalIoCgroupManager :
    (system.enrol manager block given ticksSinceBoot).globalIoCgroupManager =
      some (linkedManager manager block) := rfl

theorem enrol_allocated :
    (system.enrol manager block given ticksSinceBoot).allocated = block :: system.allocated := rfl

theorem enrol_weight_self :
    ((system.enrol manager block given ticksSinceBoot).controls block).weight = 0 := by
  show ((system.allocateControl block given ticksSinceBoot).controls block).weight = 0
  rw [allocateControl, store_self]
  rfl

variable {other : Nat}

theorem enrol_weight_other (different : other ≠ block) :
    ((system.enrol manager block given ticksSinceBoot).controls other).weight =
      (system.controls other).weight := by
  show ((system.allocateControl block given ticksSinceBoot).controls other).weight = _
  rw [allocateControl, store_other different]

theorem allocateControl_other (different : other ≠ block) :
    ((system.allocateControl block given ticksSinceBoot).controls other) = system.controls other :=
  store_other different

end

/-- A new cgroup is at the head of the list. -/
theorem Listed.enrol (listed : system.Listed manager linked) (fresh : block ∉ system.allocated)
    (given : IoCgroupLimit) (ticksSinceBoot : BitVec 32) :
    (system.enrol manager block given ticksSinceBoot).Listed (linkedManager manager block)
      (block :: linked) := by
  let made := system.allocateControl block given ticksSinceBoot
  have unlisted : block ∉ linked := fun member => fresh (listed.allocated.mem_iff.mp member)
  have kept : ∀ other ∈ linked, made.controls other = system.controls other := by
    intro other member
    exact allocateControl_other given ticksSinceBoot (ne_of_mem_of_not_mem member unlisted)
  have madeLists : (made.links manager).Lists linked :=
    Segment.congr listed.lists (fun other member => congrArg IoCgroupControl.next (kept other member))
      fun other member => congrArg IoCgroupControl.prev (kept other member)
  have weightless : (made.controls block).weight = 0 :=
    congrArg IoCgroupControl.weight (store_self)
  have sum : made.weightSum (block :: linked) = system.weightSum linked := by
    rw [weightSum_cons, weightless,
      weightSum_congr fun other member => congrArg IoCgroupControl.weight (kept other member)]
    exact Nat.zero_add _
  exact {
    lists := madeLists.pushFront unlisted
    visited := by
      have visited := listed.visited
      simpa [IoCgroupSystem.enrol, setLinks] using visited
    count := by
      show manager.ioCgroupCount + 1 = _
      rw [listed.count, List.length_cons]
      apply BitVec.eq_of_toNat_eq
      simp
    total := by
      show manager.totalWeight = BitVec.ofNat 32 (made.weightSum (block :: linked))
      rw [sum]
      exact listed.total
    allocated := listed.allocated.cons block }

theorem Ledger.enrol (ledger : system.Ledger manager linked) (fresh : block ∉ system.allocated)
    (given : IoCgroupLimit) (ticksSinceBoot : BitVec 32) :
    (system.enrol manager block given ticksSinceBoot).Ledger (linkedManager manager block)
      (block :: linked) where
  toTotals := (ledger.listed.enrol fresh given ticksSinceBoot).toTotals
  shares := by
    have unlisted : block ∉ linked := fun member => fresh (ledger.allocated.mem_iff.mp member)
    intro nonzero other member
    cases member with
    | head => exact fun weighs => absurd (enrol_weight_self given ticksSinceBoot) weighs
    | tail _ member =>
      have different := ne_of_mem_of_not_mem member unlisted
      show HasShare manager ((system.allocateControl block given ticksSinceBoot).controls other)
      rw [allocateControl_other given ticksSinceBoot different]
      exact ledger.shares nonzero other member
  allocated := ledger.allocated.cons block

theorem Totals.unlink (totals : system.Totals manager linked) (member : block ∈ linked) :
    ((system.unlink manager block).links (unlinkedManager system manager block)).Lists
        (linked.erase block) ∧
      (unlinkedManager system manager block).ioCgroupCount =
        BitVec.ofNat 32 (linked.erase block).length := by
  have lists := totals.lists.remove member
  have positive := List.length_pos_of_mem member
  refine ⟨lists, ?_⟩
  show manager.ioCgroupCount - 1 = _
  rw [totals.count, List.length_erase_of_mem member]
  apply BitVec.eq_of_toNat_eq
  simp
  omega

theorem Totals.unlinkWeightless (totals : system.Totals manager linked) (member : block ∈ linked)
    (weightless : (system.controls block).weight = 0) :
    (system.unlink manager block).Totals (unlinkedManager system manager block)
      (linked.erase block) := by
  obtain ⟨lists, count⟩ := totals.unlink member
  have sum := weightSum_erase system member
  rw [weightless] at sum
  exact {
    lists := lists
    visited := List.length_erase_le.trans totals.visited
    count := count
    total := by
      show manager.totalWeight = BitVec.ofNat 32 (system.weightSum (linked.erase block))
      rw [totals.total, ← sum]
      congr 1
      exact Nat.zero_add _ }

theorem Ledger.unlinkWeightless (ledger : system.Ledger manager linked) (member : block ∈ linked)
    (weightless : (system.controls block).weight = 0) :
    (system.unlink manager block).Books (unlinkedManager system manager block)
      (linked.erase block) where
  toTotals := ledger.toTotals.unlinkWeightless member weightless
  shares := by
    intro nonzero other isLinked
    exact ledger.shares nonzero other (List.mem_of_mem_erase isLinked)

theorem Totals.unlinkWeighed (totals : system.Totals manager linked) (member : block ∈ linked) :
    let unlinked := system.unlink manager block
    let left := unlinkedManager system manager block
    (unlinked.reweigh left block 0 (left.totalWeight - (unlinked.controls block).weight)).Books
      { left with totalWeight := left.totalWeight - (unlinked.controls block).weight }
      (linked.erase block) := by
  intro unlinked left
  obtain ⟨lists, count⟩ := totals.unlink member
  have notErased : block ∉ linked.erase block := List.Nodup.not_mem_erase totals.lists.nodup
  apply books_reweigh lists
  · exact List.length_erase_le.trans totals.visited
  · exact count
  · rw [weightSum_store_other notErased]
    show manager.totalWeight - (system.controls block).weight =
      BitVec.ofNat 32 (system.weightSum (linked.erase block))
    rw [totals.total, ← weightSum_erase system member]
    apply BitVec.eq_of_toNat_eq
    simp
    omega

theorem Books.free (books : system.Books manager linked)
    (allocated : linked.Perm (system.allocated.erase block)) :
    (system.free block).Ledger manager linked where
  toBooks := by
    apply books.congr allocated.length_eq.le
    intro other _
    exact ⟨rfl, rfl, rfl, rfl⟩
  allocated := allocated

theorem Totals.finalize (totals : system.Totals manager linked) (unlisted : block ∉ linked) :
    (system.rtemsIoCgroupFinalize block).Totals manager linked := by
  have visited : linked.length ≤ (system.rtemsIoCgroupFinalize block).allocated.length :=
    totals.visited
  have kept : ∀ other ∈ linked, (system.rtemsIoCgroupFinalize block).controls other =
      system.controls other := by
    intro other isLinked
    exact store_other (ne_of_mem_of_not_mem isLinked unlisted)
  apply totals.congr visited
  all_goals
    intro other isLinked
    rw [kept other isLinked]

theorem Totals.free (totals : system.Totals manager linked)
    (allocated : linked.Perm (system.allocated.erase block)) :
    (system.free block).Listed manager linked where
  toTotals := by
    apply totals.congr allocated.length_eq.le
    all_goals
      intro other _
      rfl
  allocated := allocated

theorem Books.finalize (books : system.Books manager linked) (unlisted : block ∉ linked) :
    (system.rtemsIoCgroupFinalize block).Books manager linked := by
  have visited : linked.length ≤ (system.rtemsIoCgroupFinalize block).allocated.length :=
    books.visited
  apply books.congr visited
  intro other isLinked
  rw [rtemsIoCgroupFinalize, store_other (ne_of_mem_of_not_mem isLinked unlisted)]
  exact ⟨rfl, rfl, rfl, rfl⟩

/-- A cgroup without a weight can be taken off the books. -/
theorem Ledger.rollBack (ledger : system.Ledger manager linked)
    (configured : system.globalIoCgroupManager = some manager) (member : block ∈ linked)
    (weightless : (system.controls block).weight = 0) :
    ((system.rtemsIoCgroupRemoveFromManager block).1.free block).Ledger
      (unlinkedManager system manager block) (linked.erase block) := by
  simp only [rtemsIoCgroupRemoveFromManager, configured]
  apply (ledger.unlinkWeightless member weightless).free
  exact ledger.allocated.erase block

section

variable (configured : system.globalIoCgroupManager = some manager)
include configured

theorem removeFromManager_eq (block : Nat) :
    (system.rtemsIoCgroupRemoveFromManager block).1 = system.unlink manager block := by
  simp only [rtemsIoCgroupRemoveFromManager, configured]
  rfl

theorem delete_of_weighs (weighs : (system.controls block).weight ≠ 0) :
    let unlinked := system.unlink manager block
    let left := unlinkedManager system manager block
    system.rtemsIoCgroupDelete block = ((unlinked.reweigh left block 0
      (left.totalWeight - (unlinked.controls block).weight)).rtemsIoCgroupFinalize block).free
        block := by
  intro unlinked left
  have sameManager : unlinked.globalIoCgroupManager = some left := rfl
  have weighs : (unlinked.controls block).weight > 0 := gt_zero_iff.mpr weighs
  unfold rtemsIoCgroupDelete
  rw [removeFromManager_eq configured]
  simp only [unlinked, left] at weighs sameManager ⊢
  simp only [if_pos weighs, rtemsIoCgroupRemoveWeight, sameManager]

theorem delete_weighed_manager (weighs : (system.controls block).weight ≠ 0) :
    (system.rtemsIoCgroupDelete block).globalIoCgroupManager =
      some { unlinkedManager system manager block with
        totalWeight := manager.totalWeight - (system.controls block).weight } := by
  rw [delete_of_weighs configured weighs]
  exact reweigh_globalIoCgroupManager

theorem delete_of_weightless (weightless : (system.controls block).weight = 0) :
    system.rtemsIoCgroupDelete block =
      ((system.unlink manager block).rtemsIoCgroupFinalize block).free block := by
  have idle : ¬ ((system.unlink manager block).controls block).weight > 0 :=
    fun weighs => gt_zero_iff.mp weighs weightless
  unfold rtemsIoCgroupDelete
  rw [removeFromManager_eq configured]
  simp only [if_neg idle]

end

theorem Listed.deleteWeighed (listed : system.Listed manager linked)
    (configured : system.globalIoCgroupManager = some manager) (member : block ∈ linked)
    (weighs : (system.controls block).weight ≠ 0) :
    (system.rtemsIoCgroupDelete block).Ledger
      { unlinkedManager system manager block with
        totalWeight := manager.totalWeight - (system.controls block).weight }
      (linked.erase block) := by
  have notErased : block ∉ linked.erase block := List.Nodup.not_mem_erase listed.lists.nodup
  have allocated := listed.allocated.erase block
  rw [delete_of_weighs configured weighs]
  apply ((listed.toTotals.unlinkWeighed member).finalize notErased).free
  simpa [rtemsIoCgroupFinalize, unlink, setLinks] using allocated

/-- A deletion keeps the books and the bandwidth of the system. -/
theorem Ledger.delete (ledger : system.Ledger manager linked)
    (configured : system.globalIoCgroupManager = some manager) (member : block ∈ linked) :
    ∃ after, (system.rtemsIoCgroupDelete block).globalIoCgroupManager = some after ∧
      after.systemReadBps = manager.systemReadBps ∧
      after.systemWriteBps = manager.systemWriteBps ∧
      (system.rtemsIoCgroupDelete block).Ledger after (linked.erase block) := by
  by_cases weightless : (system.controls block).weight = 0
  · have notErased : block ∉ linked.erase block := List.Nodup.not_mem_erase ledger.lists.nodup
    rw [delete_of_weightless configured weightless]
    refine ⟨unlinkedManager system manager block, rfl, rfl, rfl, ?_⟩
    exact ((ledger.unlinkWeightless member weightless).finalize notErased).free
      (ledger.allocated.erase block)
  · exact ⟨_, delete_weighed_manager configured weightless, rfl, rfl,
      ledger.listed.deleteWeighed configured member weightless⟩

theorem Listed.setBandwidth (listed : system.Listed manager linked)
    (head : after.ioCgroups = manager.ioCgroups)
    (count : after.ioCgroupCount = manager.ioCgroupCount)
    (total : after.totalWeight = manager.totalWeight) :
    (allocateBandwidths { system with globalIoCgroupManager := some after } after).Ledger after
      linked where
  toBooks := by
    apply Totals.allocateBandwidths
    exact {
      lists := by
        show Segment _ _ none after.ioCgroups linked
        rw [head]
        exact listed.lists
      visited := listed.visited
      count := count.trans listed.count
      total := total.trans listed.total }
  allocated := by simpa using listed.allocated

theorem allocateBandwidths_weight (system : IoCgroupSystem) (manager : IoCgroupManager)
    (block : Nat) :
    ((system.allocateBandwidths manager).controls block).weight =
      (system.controls block).weight := by
  obtain ⟨limits, shared⟩ := allocateBandwidths_limits manager (system.controls block) rfl
  rw [shared]

theorem managed_iff (configured : next.globalIoCgroupManager = some after) :
    next.Managed ↔ ∃ linked, next.Ledger after linked := by
  simp only [Managed, configured]

theorem Managed.empty (managed : system.Managed)
    (unmanaged : system.globalIoCgroupManager = none) : system.allocated = [] := by
  simpa only [Managed, unmanaged] using managed

theorem Managed.ledger (managed : system.Managed)
    (configured : system.globalIoCgroupManager = some manager) :
    ∃ linked, system.Ledger manager linked := (managed_iff configured).mp managed

theorem delete_weight {other : Nat} (different : other ≠ block) :
    ((system.rtemsIoCgroupDelete block).controls other).weight =
      (system.controls other).weight := by
  have unlinked : ((system.rtemsIoCgroupRemoveFromManager block).1.controls other).weight =
      (system.controls other).weight := by
    unfold rtemsIoCgroupRemoveFromManager
    split <;> rfl
  unfold rtemsIoCgroupDelete
  simp only [free, rtemsIoCgroupFinalize, store_other different]
  split
  · rw [← unlinked]
    unfold rtemsIoCgroupRemoveWeight
    split
    · rfl
    · obtain ⟨limits, kept⟩ := reweigh_other different
      rw [kept]
  · exact unlinked

end IoCgroupSystem

end RTContainer.Score
