import RTContainer.Lib.Run
import RTContainer.Score.IoCgroupProperties

/-! The weights of the threads of an I/O cgroup. A cgroup hands its weight out
to its threads: every thread has one node, the total is the sum of the nodes,
and no more is handed out than the cgroup has. -/

set_option autoImplicit false

namespace RTContainer.Score

open RTContainer.Rtems Machine

def chainWeight (chain : List ThreadWeightNode) : Nat :=
  (chain.map fun node => node.weight.toNat).sum

namespace IoCgroupControl

/-- Every thread has one node, and the total is exact and within the weight of
the cgroup. -/
structure WeightsExact (control : IoCgroupControl) : Prop where
  distinct : (control.threadWeightsChain.map ThreadWeightNode.threadId).Nodup
  total : control.totalWeight.toNat = chainWeight control.threadWeightsChain
  within : chainWeight control.threadWeightsChain ≤ control.weight.toNat

def weightOf (control : IoCgroupControl) (thread : ObjectsId) : Nat :=
  match findThread control.threadWeightsChain thread with
  | some node => node.weight.toNat
  | none => 0

def wanted (control : IoCgroupControl) (thread : ObjectsId) (weight : BitVec 32) : Nat :=
  chainWeight control.threadWeightsChain - control.weightOf thread + weight.toNat

/-- The sum fits into 32 bits, or what is left of it is refused all the same, or
there is no memory for a node. -/
def Fits (control : IoCgroupControl) (thread : ObjectsId) (weight : BitVec 32) (malloc : Bool) :
    Prop :=
  control.wanted thread weight < 2 ^ 32 ∨
    control.weight.toNat < control.wanted thread weight % 2 ^ 32 ∨
    (findThread control.threadWeightsChain thread = none ∧ malloc = false)

end IoCgroupControl

def IoCgroupSystem.WeightsExact (system : IoCgroupSystem) : Prop :=
  ∀ block ∈ system.allocated, (system.controls block).WeightsExact

/-- A thread is given a weight that fits into the total, and a cgroup keeps the
weight that it has handed out. -/
def IoCgroupCall.FitsWeights (system : IoCgroupSystem) : IoCgroupCall → Prop
  | addThread (some block) (some thread) weight malloc =>
    (system.controls block).Fits thread weight malloc
  | allocateWeight (some block) weight =>
    weight = 0 ∨ system.globalIoCgroupManager = none ∨
      chainWeight (system.controls block).threadWeightsChain ≤ weight.toNat
  | removeWeight (some block) =>
    system.globalIoCgroupManager = none ∨ chainWeight (system.controls block).threadWeightsChain = 0
  | _ => True

section Chain

variable {chain : List ThreadWeightNode} {thread : ObjectsId} {weight : BitVec 32}
variable {node : ThreadWeightNode}

namespace IoCgroupControl

@[simp] theorem chainWeight_nil : chainWeight [] = 0 := rfl

@[simp] theorem chainWeight_cons (node : ThreadWeightNode) (chain : List ThreadWeightNode) :
    chainWeight (node :: chain) = node.weight.toNat + chainWeight chain := rfl

theorem setThreadWeight_threadIds :
    (setThreadWeight thread weight chain).map ThreadWeightNode.threadId =
      chain.map ThreadWeightNode.threadId := by
  induction chain with
  | nil => rfl
  | cons head rest ih =>
    simp only [setThreadWeight]
    split
    · rfl
    · simp [ih]

theorem chainWeight_setThreadWeight (weight : BitVec 32)
    (found : findThread chain thread = some node) :
    chainWeight (setThreadWeight thread weight chain) + node.weight.toNat =
      chainWeight chain + weight.toNat := by
  induction chain with
  | nil => cases found
  | cons head rest ih =>
    by_cases same : head.threadId = thread
    · have isHead : head = node := by simpa [findThread, same] using found
      subst node
      simp only [setThreadWeight, if_pos same, chainWeight_cons]
      omega
    · have foundRest : findThread rest thread = some node := by
        simpa [findThread, same] using found
      have restSum := ih foundRest
      simp only [setThreadWeight, if_neg same, chainWeight_cons]
      omega

theorem chainWeight_eraseThread (found : findThread chain thread = some node) :
    chainWeight (chain.eraseP fun node => node.threadId = thread) + node.weight.toNat =
      chainWeight chain := by
  induction chain with
  | nil => cases found
  | cons head rest ih =>
    by_cases same : head.threadId = thread
    · have isHead : head = node := by simpa [findThread, same] using found
      subst node
      simp only [same, decide_true, List.eraseP_cons_of_pos, chainWeight_cons]
      omega
    · have foundRest : findThread rest thread = some node := by
        simpa [findThread, same] using found
      have restSum := ih foundRest
      simp only [same, decide_false, Bool.false_eq_true, not_false_eq_true,
        List.eraseP_cons_of_neg, chainWeight_cons]
      omega

theorem weight_le_chainWeight (found : findThread chain thread = some node) :
    node.weight.toNat ≤ chainWeight chain := by
  have erased := chainWeight_eraseThread found
  omega

theorem not_mem_of_findThread_none (missing : findThread chain thread = none) :
    thread ∉ chain.map ThreadWeightNode.threadId := by
  intro listed
  obtain ⟨node, member, same⟩ := List.mem_map.mp listed
  exact absurd same (by simpa using List.find?_eq_none.mp missing node member)

end IoCgroupControl

end Chain

namespace IoCgroupControl

variable {control : IoCgroupControl} {thread : ObjectsId} {weight : BitVec 32} {malloc : Bool}

theorem WeightsExact.total_lt (exact : control.WeightsExact) :
    chainWeight control.threadWeightsChain < 2 ^ 32 := by
  have bound := control.weight.isLt
  have within := exact.within
  omega

theorem WeightsExact.sum_toNat (exact : control.WeightsExact) (weight : BitVec 32)
    {node : ThreadWeightNode}
    (found : findThread control.threadWeightsChain thread = some node) :
    (control.totalWeight - node.weight + weight).toNat = control.wanted thread weight % 2 ^ 32 := by
  have total := exact.total
  have part := weight_le_chainWeight found
  have bound := node.weight.isLt
  simp only [wanted, weightOf, found, BitVec.toNat_add, BitVec.toNat_sub, total]
  omega

theorem WeightsExact.add_toNat (exact : control.WeightsExact) (weight : BitVec 32)
    (missing : findThread control.threadWeightsChain thread = none) :
    (control.totalWeight + weight).toNat = control.wanted thread weight % 2 ^ 32 := by
  simp only [wanted, weightOf, missing, BitVec.toNat_add, exact.total, Nat.sub_zero]

theorem weightsExact_iff_of_accepted {exactSum : Nat}
    (distinct : (control.threadWeightsChain.map ThreadWeightNode.threadId).Nodup)
    (sum : chainWeight control.threadWeightsChain = exactSum)
    (total : control.totalWeight.toNat = exactSum % 2 ^ 32)
    (accepted : exactSum % 2 ^ 32 ≤ control.weight.toNat) :
    control.WeightsExact ↔ exactSum < 2 ^ 32 := by
  constructor
  · intro exact
    have isTotal : exactSum % 2 ^ 32 = exactSum := by rw [← total, exact.total, sum]
    exact isTotal ▸ Nat.mod_lt exactSum (by decide)
  · intro small
    rw [Nat.mod_eq_of_lt small] at total accepted
    exact {
      distinct := distinct
      total := by rw [total, sum]
      within := by rw [sum]; exact accepted }

theorem fits_iff_of_accepted (accepted : control.wanted thread weight % 2 ^ 32 ≤ control.weight.toNat)
    (allocated : findThread control.threadWeightsChain thread = none → malloc = true) :
    control.Fits thread weight malloc ↔ control.wanted thread weight < 2 ^ 32 := by
  constructor
  · intro fits
    cases fits with
    | inl small => exact small
    | inr other =>
      cases other with
      | inl exceeds => exact absurd exceeds (by omega)
      | inr failed => exact absurd (allocated failed.1) (by simp [failed.2])
  · exact Or.inl

/-- The total stays exact if and only if it fits. -/
theorem WeightsExact.allocateThreadWeight_iff (exact : control.WeightsExact) :
    (control.allocateThreadWeight thread weight malloc).1.WeightsExact ↔
      control.Fits thread weight malloc := by
  unfold allocateThreadWeight
  cases found : findThread control.threadWeightsChain thread with
  | some node =>
    have sum := exact.sum_toNat weight found
    by_cases refused : control.totalWeight - node.weight + weight > control.weight
    · have exceeds : control.weight.toNat < control.wanted thread weight % 2 ^ 32 :=
        sum ▸ refused
      simp only [if_pos refused]
      exact iff_of_true exact (.inr (.inl exceeds))
    · have accepted : control.wanted thread weight % 2 ^ 32 ≤ control.weight.toNat :=
        sum ▸ BitVec.not_lt.mp refused
      have replaced := chainWeight_setThreadWeight weight found
      have part := weight_le_chainWeight found
      simp only [if_neg refused]
      rw [fits_iff_of_accepted accepted (by simp [found])]
      apply weightsExact_iff_of_accepted
      · simp only [setThreadWeight_threadIds]
        exact exact.distinct
      · simp only [wanted, weightOf, found]
        omega
      · exact sum
      · exact accepted
  | none =>
    have sum := exact.add_toNat weight found
    by_cases refused : control.totalWeight + weight > control.weight
    · have exceeds : control.weight.toNat < control.wanted thread weight % 2 ^ 32 :=
        sum ▸ refused
      simp only [if_pos refused]
      exact iff_of_true exact (.inr (.inl exceeds))
    · have accepted : control.wanted thread weight % 2 ^ 32 ≤ control.weight.toNat :=
        sum ▸ BitVec.not_lt.mp refused
      simp only [if_neg refused]
      cases malloc with
      | false => exact iff_of_true exact (.inr (.inr ⟨found, rfl⟩))
      | true =>
        simp only [Bool.not_true, Bool.false_eq_true, if_false]
        rw [fits_iff_of_accepted accepted (by simp)]
        apply weightsExact_iff_of_accepted
        · exact List.nodup_cons.mpr ⟨not_mem_of_findThread_none found, exact.distinct⟩
        · simp only [wanted, weightOf, found, chainWeight_cons]
          omega
        · exact sum
        · exact accepted

theorem WeightsExact.removeThreadWeight (exact : control.WeightsExact) :
    (control.removeThreadWeight thread).1.WeightsExact := by
  unfold IoCgroupControl.removeThreadWeight
  cases found : findThread control.threadWeightsChain thread with
  | none => exact exact
  | some node =>
    have erased := chainWeight_eraseThread found
    have total := exact.total
    have within := exact.within
    have small := exact.total_lt
    exact {
      distinct := by
        apply List.Nodup.sublist _ exact.distinct
        exact List.eraseP_sublist.map _
      total := by
        simp only [BitVec.toNat_sub, total]
        have bound := node.weight.isLt
        omega
      within := by
        simp only
        omega }

theorem weightsExact_of_empty (empty : control.threadWeightsChain = [])
    (none : control.totalWeight = 0) : control.WeightsExact where
  distinct := by rw [empty]; exact List.nodup_nil
  total := by rw [empty, none]; rfl
  within := by rw [empty]; exact Nat.zero_le _

structure SameWeights (control other : IoCgroupControl) : Prop where
  chain : other.threadWeightsChain = control.threadWeightsChain
  total : other.totalWeight = control.totalWeight
  weight : other.weight = control.weight

theorem SameWeights.refl (control : IoCgroupControl) :
    control.SameWeights control := ⟨rfl, rfl, rfl⟩

theorem WeightsExact.congr {other : IoCgroupControl} (exact : control.WeightsExact)
    (same : control.SameWeights other) : other.WeightsExact where
  distinct := same.chain ▸ exact.distinct
  total := by rw [same.chain, same.total, exact.total]
  within := by rw [same.chain, same.weight]; exact exact.within

end IoCgroupControl

namespace IoCgroupSystem

open IoCgroupControl

variable {system next : IoCgroupSystem} {manager : IoCgroupManager} {block : Nat}

section

variable (exact : system.WeightsExact)
include exact

theorem WeightsExact.congr (allocated : ∀ block ∈ next.allocated, block ∈ system.allocated)
    (same : ∀ block, (system.controls block).SameWeights (next.controls block)) :
    next.WeightsExact := by
  intro block member
  exact (exact block (allocated block member)).congr (same block)

theorem WeightsExact.store {control : IoCgroupControl} (stored : control.WeightsExact) :
    (system.store block control).WeightsExact := by
  intro other member
  by_cases same : other = block
  · subst other
    simpa using stored
  · rw [store_other same]
    exact exact other member

theorem WeightsExact.free : (system.free block).WeightsExact :=
  exact.congr (fun _ member => List.mem_of_mem_erase member) fun _ => .refl _

theorem WeightsExact.allocateBandwidths (manager : IoCgroupManager) :
    (system.allocateBandwidths manager).WeightsExact := by
  apply exact.congr
  · intro block member
    simpa using member
  · intro block
    obtain ⟨limits, shared⟩ := allocateBandwidths_limits manager (system.controls block) rfl
    rw [shared]
    exact ⟨rfl, rfl, rfl⟩

end

theorem addToManager_same (system : IoCgroupSystem) (block other : Nat) :
    (system.controls other).SameWeights
      ((system.rtemsIoCgroupAddToManager block).1.controls other) := by
  unfold rtemsIoCgroupAddToManager
  split
  · exact .refl _
  · exact ⟨rfl, rfl, rfl⟩

theorem removeFromManager_same (block other : Nat) :
    (system.controls other).SameWeights
      ((system.rtemsIoCgroupRemoveFromManager block).1.controls other) := by
  unfold rtemsIoCgroupRemoveFromManager
  split
  · exact .refl _
  · exact ⟨rfl, rfl, rfl⟩

theorem removeWeight_same {other : Nat} (different : other ≠ block) :
    (system.controls other).SameWeights
      ((system.rtemsIoCgroupRemoveWeight block).1.controls other) := by
  unfold rtemsIoCgroupRemoveWeight
  split
  · exact .refl _
  · obtain ⟨limits, reweighed⟩ := reweigh_other different
    rw [reweighed]
    exact ⟨rfl, rfl, rfl⟩

section

variable (exact : system.WeightsExact)
include exact

variable {weight : BitVec 32} {malloc : Bool} {systemReadBps systemWriteBps : BitVec 64}

theorem WeightsExact.reweigh_iff {totalWeight : BitVec 32} (member : block ∈ system.allocated) :
    (system.reweigh manager block weight totalWeight).WeightsExact ↔
      chainWeight (system.controls block).threadWeightsChain ≤ weight.toNat := by
  obtain ⟨limits, reweighed⟩ := reweigh_self system manager block weight totalWeight
  constructor
  · intro after
    have within := (after block (by simpa using member)).within
    rw [reweighed] at within
    exact within
  · intro covers other isMember
    by_cases same : other = block
    · subst other
      rw [reweighed]
      exact {
        distinct := (exact block member).distinct
        total := (exact block member).total
        within := covers }
    · obtain ⟨limits, kept⟩ := reweigh_other same
      rw [kept]
      exact (exact other (by simpa using isMember)).congr ⟨rfl, rfl, rfl⟩

theorem WeightsExact.allocateWeight_iff (member : block ∈ system.allocated) :
    (system.rtemsIoCgroupAllocateWeight block weight).1.WeightsExact ↔
      weight = 0 ∨ system.globalIoCgroupManager = none ∨
        chainWeight (system.controls block).threadWeightsChain ≤ weight.toNat := by
  unfold rtemsIoCgroupAllocateWeight
  by_cases zero : weight = 0
  · rw [if_pos zero]
    exact iff_of_true exact (.inl zero)
  · rw [if_neg zero]
    cases configured : system.globalIoCgroupManager with
    | none => exact iff_of_true exact (.inr (.inl rfl))
    | some manager =>
      simp only [zero, reduceCtorEq, false_or]
      exact exact.reweigh_iff member

theorem WeightsExact.removeWeight_iff (member : block ∈ system.allocated) :
    (system.rtemsIoCgroupRemoveWeight block).1.WeightsExact ↔
      system.globalIoCgroupManager = none ∨
        chainWeight (system.controls block).threadWeightsChain = 0 := by
  unfold rtemsIoCgroupRemoveWeight
  cases configured : system.globalIoCgroupManager with
  | none => exact iff_of_true exact (.inl rfl)
  | some manager =>
    simp only [reduceCtorEq, false_or, ← Nat.le_zero]
    exact exact.reweigh_iff member

theorem WeightsExact.addToManager (block : Nat) :
    (system.rtemsIoCgroupAddToManager block).1.WeightsExact := by
  apply exact.congr
  · intro other member
    simpa using member
  · exact addToManager_same system block

theorem WeightsExact.removeFromManager (block : Nat) :
    (system.rtemsIoCgroupRemoveFromManager block).1.WeightsExact := by
  apply exact.congr
  · intro other member
    simpa using member
  · exact removeFromManager_same block

theorem WeightsExact.allocateControl (block : Nat) (limits : IoCgroupLimit)
    (ticksSinceBoot : BitVec 32) :
    (system.allocateControl block limits ticksSinceBoot).WeightsExact := by
  intro other member
  by_cases same : other = block
  · subst other
    rw [IoCgroupSystem.allocateControl, store_self]
    exact weightsExact_of_empty rfl rfl
  · rw [IoCgroupSystem.allocateControl, store_other same]
    exact exact other ((List.mem_cons.mp member).resolve_left same)

theorem WeightsExact.create {ioCgroupWeight : BitVec 16} {limits : Option IoCgroupLimit}
    {cgroupId : Bool} {malloc : Option Nat} {buffer : Bool} {ticksSinceBoot : BitVec 32} :
    (system.rtemsIoCgroupCreate ioCgroupWeight limits cgroupId malloc buffer
      ticksSinceBoot).1.WeightsExact := by
  by_cases enrols : ∃ manager block given,
      system.Enrols limits cgroupId malloc buffer manager block given
  · obtain ⟨manager, block, given, enrols⟩ := enrols
    rw [enrols.create_eq]
    have made := exact.allocateControl block given ticksSinceBoot
    have added := made.addToManager block
    simp only
    split
    · exact (added.removeFromManager block).free
    · apply (added.allocateWeight_iff (by simp)).mpr
      -- the new cgroup has no threads yet
      have same := addToManager_same (system.allocateControl block given ticksSinceBoot) block block
      have empty : ((system.allocateControl block given ticksSinceBoot).controls
          block).threadWeightsChain = [] := by
        rw [IoCgroupSystem.allocateControl, store_self]
        rfl
      rw [same.chain, empty]
      exact .inr (.inr (Nat.zero_le _))
  · cases create_eq_of_not_enrols enrols with
    | inl unchanged =>
      rw [unchanged]
      exact exact
    | inr freed =>
      obtain ⟨block, given, _, freed⟩ := freed
      rw [freed]
      exact (exact.allocateControl block given ticksSinceBoot).free

theorem WeightsExact.delete : (system.rtemsIoCgroupDelete block).WeightsExact := by
  have removed := exact.removeFromManager block
  unfold rtemsIoCgroupDelete
  generalize (system.rtemsIoCgroupRemoveFromManager block).1 = unlinked at removed ⊢
  apply WeightsExact.free
  intro other member
  by_cases same : other = block
  · subst other
    rw [rtemsIoCgroupFinalize, store_self]
    exact weightsExact_of_empty rfl rfl
  · rw [rtemsIoCgroupFinalize, store_other same]
    by_cases weighs : (unlinked.controls block).weight > 0
    · simp only [weighs, if_true, rtemsIoCgroupFinalize, store_allocated,
        removeWeight_allocated] at member ⊢
      exact (removed other member).congr (removeWeight_same same)
    · simp only [weighs, if_false] at member ⊢
      exact removed other member

theorem WeightsExact.addThread_iff {thread : ObjectsId} (member : block ∈ system.allocated) :
    (system.rtemsIoCgroupAddThread block (some thread) weight malloc).1.WeightsExact ↔
      (system.controls block).Fits thread weight malloc := by
  unfold rtemsIoCgroupAddThread
  by_cases zero : weight = 0
  · have small := (exact block member).total_lt
    simp only [if_pos zero]
    refine iff_of_true exact (.inl ?_)
    rw [wanted, zero]
    show _ - _ + 0 < _
    omega
  · simp only [if_neg zero]
    rw [← (exact block member).allocateThreadWeight_iff]
    constructor
    · intro after
      simpa using after block member
    · exact exact.store

theorem WeightsExact.removeThread {thread : Option ObjectsId} (member : block ∈ system.allocated) :
    (system.rtemsIoCgroupRemoveThread block thread).1.WeightsExact := by
  cases thread with
  | none => exact exact
  | some thread => exact exact.store (exact block member).removeThreadWeight

theorem WeightsExact.managerCreate :
    (system.rtemsIoCgroupManagerCreate systemReadBps systemWriteBps malloc).1.WeightsExact := by
  unfold rtemsIoCgroupManagerCreate
  cases configured : system.globalIoCgroupManager with
  | some manager => exact exact
  | none =>
    cases malloc with
    | false => exact exact
    | true => exact exact.congr (fun _ member => member) fun _ => .refl _

theorem WeightsExact.managerUpdateBandwidth :
    (system.rtemsIoCgroupManagerUpdateBandwidth systemReadBps systemWriteBps).1.WeightsExact := by
  unfold rtemsIoCgroupManagerUpdateBandwidth
  split
  · exact exact
  · split
    · exact exact
    · apply WeightsExact.allocateBandwidths
      exact exact

end

end IoCgroupSystem

theorem IoCgroupCall.weightsExact_iff {system : IoCgroupSystem} {call : IoCgroupCall}
    (exact : system.WeightsExact) (possible : call.Possible system) :
    (call.perform system).WeightsExact ↔ call.FitsWeights system := by
  have pointed : ∀ block, call.ioCgroup = some block → block ∈ system.allocated := possible.1
  cases call with
  | managerCreate systemReadBps systemWriteBps malloc => exact iff_of_true exact.managerCreate trivial
  | managerUpdateBandwidth systemReadBps systemWriteBps =>
    exact iff_of_true exact.managerUpdateBandwidth trivial
  | create ioCgroupWeight limits cgroupId malloc buffer ticksSinceBoot =>
    exact iff_of_true exact.create trivial
  | delete ioCgroup =>
    cases ioCgroup with
    | none => exact iff_of_true exact trivial
    | some block => exact iff_of_true exact.delete trivial
  | allocateWeight ioCgroup weight =>
    cases ioCgroup with
    | none => exact iff_of_true exact trivial
    | some block => exact exact.allocateWeight_iff (pointed block rfl)
  | removeWeight ioCgroup =>
    cases ioCgroup with
    | none => exact iff_of_true exact trivial
    | some block => exact exact.removeWeight_iff (pointed block rfl)
  | addThread ioCgroup thread weight malloc =>
    cases ioCgroup with
    | none => exact iff_of_true exact trivial
    | some block =>
      cases thread with
      | none => exact iff_of_true exact trivial
      | some thread => exact exact.addThread_iff (pointed block rfl)
  | removeThread ioCgroup thread =>
    cases ioCgroup with
    | none => exact iff_of_true exact trivial
    | some block => exact iff_of_true (exact.removeThread (pointed block rfl)) trivial

/-- In every run the thread weights stay exact up to the first call whose weights
do not fit. -/
theorem ioRun_weightsExact_iff (system : IoCgroupSystem) (calls : List IoCgroupCall)
    (possible : Meets IoCgroupCall.perform IoCgroupCall.Possible system calls) :
    Throughout IoCgroupCall.perform IoCgroupSystem.WeightsExact system calls ↔
      system.WeightsExact ∧ Meets IoCgroupCall.perform IoCgroupCall.FitsWeights system calls := by
  apply throughout_iff_start_meets (fun _ => True) trivial possible (fun _ _ _ _ => trivial)
  intro state call _ possible exact
  exact call.weightsExact_iff exact possible

def oneThread : List IoCgroupCall :=
  [.managerCreate 0 0 true, .create 10 (some ⟨0, 0, 0⟩) true (some 0) true 0,
    .addThread (some 0) (some 1) 5 true]

theorem oneThread_possible :
    Meets IoCgroupCall.perform IoCgroupCall.Possible IoCgroupSystem.initial oneThread :=
  ⟨by decide, by decide, by decide, trivial⟩

theorem oneThread_weightsExact :
    Throughout IoCgroupCall.perform IoCgroupSystem.WeightsExact IoCgroupSystem.initial
      oneThread := by
  apply (ioRun_weightsExact_iff _ _ oneThread_possible).mpr
  refine ⟨?_, trivial, trivial, .inl (by decide), trivial⟩
  intro block member
  cases member

/-- The total wraps when a second thread is given a weight of 2^32 - 1. -/
theorem secondThread_wraps : ¬ ∀ calls : List IoCgroupCall,
    Meets IoCgroupCall.perform IoCgroupCall.Possible IoCgroupSystem.initial calls →
      Throughout IoCgroupCall.perform IoCgroupSystem.WeightsExact IoCgroupSystem.initial
        calls := by
  intro claim
  have possible : Meets IoCgroupCall.perform IoCgroupCall.Possible IoCgroupSystem.initial
      (oneThread ++ [.addThread (some 0) (some 2) 0xffffffff true]) :=
    meets_append.mpr ⟨oneThread_possible, by decide, trivial⟩
  have exact := (claim _ possible).final 0 (by decide)
  exact absurd exact.total (by decide)

end RTContainer.Score
