import RTContainer.Score.IoCgroup

/-! What the operations on I/O cgroups leave alone. The loop that shares out the
bandwidth writes limits only, the list of the manager is changed in its pointers
only, and a new weight changes one cgroup. -/

set_option autoImplicit false

namespace RTContainer.Score

open RTContainer.Rtems DoublyLinked Function

namespace IoCgroupSystem

variable {system : IoCgroupSystem} {manager : IoCgroupManager} {block other : Nat}
variable {control : IoCgroupControl} {pointers : Links Nat} {count totalWeight weight : BitVec 32}

@[simp] theorem store_allocated : (system.store block control).allocated = system.allocated := rfl

@[simp] theorem store_self : (system.store block control).controls block = control :=
  update_self ..

theorem store_other (different : other ≠ block) :
    (system.store block control).controls other = system.controls other :=
  update_of_ne different ..

@[simp] theorem allocateBandwidths_allocated :
    (system.allocateBandwidths manager).allocated = system.allocated := by
  unfold allocateBandwidths
  split <;> rfl

@[simp] theorem allocateBandwidths_globalIoCgroupManager :
    (system.allocateBandwidths manager).globalIoCgroupManager = system.globalIoCgroupManager := by
  unfold allocateBandwidths
  split <;> rfl

theorem allocateBandwidths_controls (block : Nat) :
    (system.allocateBandwidths manager).controls block =
      if manager.totalWeight > 0 ∧ block ∈ system.traverse manager then
        (system.controls block).allocateBandwidth manager
      else system.controls block := by
  unfold allocateBandwidths
  by_cases weighs : manager.totalWeight > 0
  · simp only [weighs, true_and, if_true]
  · simp only [weighs, false_and, if_false]

theorem allocateBandwidths_limits (manager : IoCgroupManager) (control : IoCgroupControl)
    (same : system.controls block = control) : ∃ limits,
    (system.allocateBandwidths manager).controls block = { control with limits := limits } := by
  rw [allocateBandwidths_controls, same]
  split
  · unfold IoCgroupControl.allocateBandwidth
    split
    · exact ⟨_, rfl⟩
    · exact ⟨_, rfl⟩
  · exact ⟨_, rfl⟩

@[simp] theorem allocateControl_allocated (block : Nat) (limits : IoCgroupLimit)
    (ticksSinceBoot : BitVec 32) :
    (system.allocateControl block limits ticksSinceBoot).allocated = block :: system.allocated := rfl

@[simp] theorem reweigh_allocated :
    (system.reweigh manager block weight totalWeight).allocated = system.allocated := by
  simp [reweigh, store]

@[simp] theorem reweigh_globalIoCgroupManager :
    (system.reweigh manager block weight totalWeight).globalIoCgroupManager =
      some { manager with totalWeight := totalWeight } := by
  simp [reweigh]

theorem reweigh_self (system : IoCgroupSystem) (manager : IoCgroupManager) (block : Nat)
    (weight totalWeight : BitVec 32) : ∃ limits,
    (system.reweigh manager block weight totalWeight).controls block =
      { system.controls block with limits := limits, weight := weight } := by
  apply allocateBandwidths_limits _ { system.controls block with weight := weight }
  exact store_self

theorem reweigh_other (different : other ≠ block) : ∃ limits,
    (system.reweigh manager block weight totalWeight).controls other =
      { system.controls other with limits := limits } := by
  apply allocateBandwidths_limits _ (system.controls other)
  exact store_other different

@[simp] theorem addToManager_allocated (block : Nat) :
    (system.rtemsIoCgroupAddToManager block).1.allocated = system.allocated := by
  unfold rtemsIoCgroupAddToManager
  split <;> rfl

@[simp] theorem removeFromManager_allocated (block : Nat) :
    (system.rtemsIoCgroupRemoveFromManager block).1.allocated = system.allocated := by
  unfold rtemsIoCgroupRemoveFromManager
  split <;> rfl

@[simp] theorem removeWeight_allocated (block : Nat) :
    (system.rtemsIoCgroupRemoveWeight block).1.allocated = system.allocated := by
  unfold rtemsIoCgroupRemoveWeight
  split
  · rfl
  · exact reweigh_allocated

@[simp] theorem managerCreate_allocated (systemReadBps systemWriteBps : BitVec 64) (malloc : Bool) :
    (system.rtemsIoCgroupManagerCreate systemReadBps systemWriteBps malloc).1.allocated =
      system.allocated := by
  unfold rtemsIoCgroupManagerCreate
  dsimp only
  split
  · rfl
  · cases malloc <;> rfl

@[simp] theorem delete_allocated (block : Nat) :
    (system.rtemsIoCgroupDelete block).allocated = system.allocated.erase block := by
  unfold rtemsIoCgroupDelete
  dsimp only
  split <;> simp [free, rtemsIoCgroupFinalize]

theorem addToManager_eq (configured : system.globalIoCgroupManager = some manager) (block : Nat) :
    system.rtemsIoCgroupAddToManager block =
      (system.setLinks manager ((system.links manager).pushFront block) (manager.ioCgroupCount + 1),
        .successful) := by
  simp only [rtemsIoCgroupAddToManager, configured]

theorem allocateWeight_zero (block : Nat) :
    system.rtemsIoCgroupAllocateWeight block 0 = (system, .invalidAddress) := by
  simp only [rtemsIoCgroupAllocateWeight, if_true]

theorem allocateWeight_eq (configured : system.globalIoCgroupManager = some manager)
    (weighs : weight ≠ 0) (block : Nat) :
    system.rtemsIoCgroupAllocateWeight block weight =
      (system.reweigh manager block weight
        (manager.totalWeight - (system.controls block).weight + weight), .successful) := by
  simp only [rtemsIoCgroupAllocateWeight, configured, if_neg weighs]

private theorem allocateThreadWeight_failed {thread : ObjectsId} {malloc : Bool}
    (failed : (control.allocateThreadWeight thread weight malloc).2 ≠ .successful) :
    (control.allocateThreadWeight thread weight malloc).1 = control := by
  unfold IoCgroupControl.allocateThreadWeight at failed ⊢
  split
  · rename_i current found
    simp only [found] at failed
    split
    · rfl
    · rename_i fits
      simp [fits] at failed
  · rename_i missing
    simp only [missing] at failed
    split
    · rfl
    · rename_i fits
      cases malloc with
      | false => rfl
      | true => simp [fits] at failed

theorem addThread_failed {thread : Option ObjectsId} {malloc : Bool}
    (failed : (system.rtemsIoCgroupAddThread block thread weight malloc).2 ≠ .successful) :
    (system.rtemsIoCgroupAddThread block thread weight malloc).1 = system := by
  cases thread with
  | none => rfl
  | some thread =>
    by_cases zero : weight = 0
    · simp [rtemsIoCgroupAddThread, zero]
    · simp only [rtemsIoCgroupAddThread, if_neg zero] at failed ⊢
      rw [allocateThreadWeight_failed failed, store, update_eq_self]

/-- A call of `rtems_io_cgroup_create` gets as far as the list of the manager. -/
structure Enrols (system : IoCgroupSystem) (limits : Option IoCgroupLimit) (cgroupId : Bool)
    (malloc : Option Nat) (buffer : Bool) (manager : IoCgroupManager) (block : Nat)
    (given : IoCgroupLimit) : Prop where
  configured : system.globalIoCgroupManager = some manager
  limits : limits = some given
  cgroupId : cgroupId = true
  malloc : malloc = some block
  buffer : buffer = true

variable {ioCgroupWeight : BitVec 16} {limits : Option IoCgroupLimit} {cgroupId buffer : Bool}
variable {malloc : Option Nat} {ticksSinceBoot : BitVec 32} {given : IoCgroupLimit}

theorem widened_toNat (weight : BitVec 16) : (weight.setWidth 32).toNat = weight.toNat := by
  have bound := weight.isLt
  rw [BitVec.toNat_setWidth]
  omega

theorem widened_ne_zero {weight : BitVec 16} (weighs : weight ≠ 0) : weight.setWidth 32 ≠ 0 := by
  intro isZero
  apply weighs
  apply BitVec.eq_of_toNat_eq
  rw [← widened_toNat, isZero]
  rfl

theorem Enrols.create_result
    (enrols : system.Enrols limits cgroupId malloc buffer manager block given) :
    system.rtemsIoCgroupCreate ioCgroupWeight limits cgroupId malloc buffer ticksSinceBoot =
      let added :=
        ((system.allocateControl block given ticksSinceBoot).rtemsIoCgroupAddToManager block).1
      let weighed := (added.rtemsIoCgroupAllocateWeight block (ioCgroupWeight.setWidth 32)).1
      if ioCgroupWeight = 0 then
        ((added.rtemsIoCgroupRemoveFromManager block).1.free block, .error .invalidAddress)
      else (weighed, .ok (weighed.controls block).id) := by
  obtain ⟨configured, rfl, rfl, rfl, rfl⟩ := enrols
  have made : (system.allocateControl block given ticksSinceBoot).globalIoCgroupManager =
      some manager := configured
  simp only [rtemsIoCgroupCreate, configured, addToManager_eq made, Option.isNone_some,
    Bool.false_eq_true, Bool.not_true, if_false]
  by_cases zero : ioCgroupWeight = 0
  · have widened : (0 : BitVec 16).setWidth 32 = 0 := rfl
    subst zero
    rw [widened, allocateWeight_zero, if_pos rfl]
  · rw [allocateWeight_eq rfl (widened_ne_zero zero), if_neg zero]

theorem Enrols.create_eq (enrols : system.Enrols limits cgroupId malloc buffer manager block given) :
    (system.rtemsIoCgroupCreate ioCgroupWeight limits cgroupId malloc buffer ticksSinceBoot).1 =
      let added :=
        ((system.allocateControl block given ticksSinceBoot).rtemsIoCgroupAddToManager block).1
      if ioCgroupWeight = 0 then (added.rtemsIoCgroupRemoveFromManager block).1.free block
      else (added.rtemsIoCgroupAllocateWeight block (ioCgroupWeight.setWidth 32)).1 := by
  rw [enrols.create_result]
  exact apply_ite Prod.fst ..

/-- A create that enrols no cgroup leaves none behind. -/
theorem create_eq_of_not_enrols
    (stops : ¬ ∃ manager block given,
      system.Enrols limits cgroupId malloc buffer manager block given) :
    (system.rtemsIoCgroupCreate ioCgroupWeight limits cgroupId malloc buffer ticksSinceBoot).1 =
        system ∨
      ∃ block given, malloc = some block ∧
        (system.rtemsIoCgroupCreate ioCgroupWeight limits cgroupId malloc buffer
          ticksSinceBoot).1 = (system.allocateControl block given ticksSinceBoot).free block := by
  unfold rtemsIoCgroupCreate
  cases limits with
  | none => exact .inl rfl
  | some given =>
    cases cgroupId with
    | false => exact .inl rfl
    | true =>
      cases configured : system.globalIoCgroupManager with
      | none => exact .inl (by simp)
      | some manager =>
        cases malloc with
        | none => exact .inl (by simp)
        | some block =>
          cases buffer with
          | false => exact .inr ⟨block, given, rfl, by simp⟩
          | true => exact absurd ⟨manager, block, given, configured, rfl, rfl, rfl, rfl⟩ stops

/-- A creation that enrols no cgroup says so. -/
theorem create_error_of_not_enrols
    (stops : ¬ ∃ manager block given,
      system.Enrols limits cgroupId malloc buffer manager block given) :
    ∃ status, (system.rtemsIoCgroupCreate ioCgroupWeight limits cgroupId malloc buffer
      ticksSinceBoot).2 = .error status := by
  unfold rtemsIoCgroupCreate
  cases limits with
  | none => exact ⟨_, rfl⟩
  | some given =>
    cases cgroupId with
    | false => exact ⟨_, rfl⟩
    | true =>
      cases configured : system.globalIoCgroupManager with
      | none => exact ⟨_, rfl⟩
      | some manager =>
        cases malloc with
        | none => exact ⟨_, rfl⟩
        | some block =>
          cases buffer with
          | false => exact ⟨_, rfl⟩
          | true =>
            exact absurd ⟨manager, block, given, configured, rfl, rfl, rfl, rfl⟩ stops

end IoCgroupSystem

end RTContainer.Score
