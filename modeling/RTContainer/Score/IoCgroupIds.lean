import RTContainer.Score.IoCgroupProperties

/-! The allocated I/O cgroups and their identifiers under the operations of
`io_cgroup.c`. A cgroup keeps its identifier as long as it is allocated. -/

set_option autoImplicit false

namespace RTContainer.Score

open RTContainer.Rtems DoublyLinked

namespace IoCgroupSystem

variable {system : IoCgroupSystem} {manager : IoCgroupManager} {block other : Nat}

def idOf (system : IoCgroupSystem) (block : Nat) : BitVec 32 := (system.controls block).id

theorem store_idOf {control : IoCgroupControl} (same : control.id = system.idOf block)
    (other : Nat) : (system.store block control).idOf other = system.idOf other := by
  by_cases isBlock : other = block
  · subst isBlock
    rw [idOf, store_self, same]
  · rw [idOf, store_other isBlock, idOf]

@[simp] theorem allocateBandwidths_idOf (other : Nat) :
    (system.allocateBandwidths manager).idOf other = system.idOf other := by
  obtain ⟨limits, shared⟩ := allocateBandwidths_limits manager (system.controls other) rfl
  rw [idOf, shared, idOf]

@[simp] theorem reweigh_idOf (weight totalWeight : BitVec 32) (block other : Nat) :
    (system.reweigh manager block weight totalWeight).idOf other = system.idOf other := by
  by_cases isBlock : other = block
  · subst isBlock
    obtain ⟨limits, same⟩ := system.reweigh_self manager other weight totalWeight
    rw [idOf, same, idOf]
  · obtain ⟨limits, same⟩ := system.reweigh_other isBlock
    rw [idOf, same, idOf]

@[simp] theorem free_idOf (block other : Nat) :
    (system.free block).idOf other = system.idOf other := rfl

@[simp] theorem removeFromManager_idOf (block other : Nat) :
    (system.rtemsIoCgroupRemoveFromManager block).1.idOf other = system.idOf other := by
  unfold rtemsIoCgroupRemoveFromManager
  split <;> rfl

@[simp] theorem removeWeight_idOf (block other : Nat) :
    (system.rtemsIoCgroupRemoveWeight block).1.idOf other = system.idOf other := by
  unfold rtemsIoCgroupRemoveWeight
  split
  · rfl
  · exact reweigh_idOf _ _ block other

@[simp] theorem allocateWeight_idOf (block other : Nat) (weight : BitVec 32) :
    (system.rtemsIoCgroupAllocateWeight block weight).1.idOf other = system.idOf other := by
  unfold rtemsIoCgroupAllocateWeight
  split
  · rfl
  · split
    · rfl
    · exact reweigh_idOf _ _ block other

@[simp] theorem allocateWeight_allocated (block : Nat) (weight : BitVec 32) :
    (system.rtemsIoCgroupAllocateWeight block weight).1.allocated = system.allocated := by
  unfold rtemsIoCgroupAllocateWeight
  split
  · rfl
  · split
    · rfl
    · exact reweigh_allocated

@[simp] theorem managerCreate_idOf (systemReadBps systemWriteBps : BitVec 64) (malloc : Bool)
    (other : Nat) :
    (system.rtemsIoCgroupManagerCreate systemReadBps systemWriteBps malloc).1.idOf other =
      system.idOf other := by
  unfold rtemsIoCgroupManagerCreate
  dsimp only
  split
  · rfl
  · cases malloc <;> rfl

theorem updateBandwidth_kept (system : IoCgroupSystem) (systemReadBps systemWriteBps : BitVec 64) :
    (system.rtemsIoCgroupManagerUpdateBandwidth systemReadBps systemWriteBps).1.allocated =
        system.allocated ∧
      ∀ other, (system.rtemsIoCgroupManagerUpdateBandwidth systemReadBps
        systemWriteBps).1.idOf other = system.idOf other := by
  unfold rtemsIoCgroupManagerUpdateBandwidth
  split
  · exact ⟨rfl, fun _ => rfl⟩
  · split
    · exact ⟨rfl, fun _ => rfl⟩
    · exact ⟨allocateBandwidths_allocated, allocateBandwidths_idOf⟩

private theorem finalize_idOf (block other : Nat) :
    (system.rtemsIoCgroupFinalize block).idOf other = system.idOf other := by
  unfold rtemsIoCgroupFinalize
  refine store_idOf ?_ other
  rfl

@[simp] theorem delete_idOf (block other : Nat) :
    (system.rtemsIoCgroupDelete block).idOf other = system.idOf other := by
  unfold rtemsIoCgroupDelete
  dsimp only
  rw [free_idOf, finalize_idOf]
  split <;> simp

theorem addThread_kept (system : IoCgroupSystem) (block : Nat) (thread : Option ObjectsId)
    (weight : BitVec 32) (malloc : Bool) :
    (system.rtemsIoCgroupAddThread block thread weight malloc).1.allocated = system.allocated ∧
      ∀ other, (system.rtemsIoCgroupAddThread block thread weight malloc).1.idOf other =
        system.idOf other := by
  cases thread with
  | none => exact ⟨rfl, fun _ => rfl⟩
  | some thread =>
    unfold rtemsIoCgroupAddThread
    dsimp only
    split
    · exact ⟨rfl, fun _ => rfl⟩
    · refine ⟨rfl, store_idOf ?_⟩
      unfold IoCgroupControl.allocateThreadWeight
      split
      · split <;> rfl
      · split
        · rfl
        · split <;> rfl

theorem removeThread_kept (system : IoCgroupSystem) (block : Nat) (thread : Option ObjectsId) :
    (system.rtemsIoCgroupRemoveThread block thread).1.allocated = system.allocated ∧
      ∀ other, (system.rtemsIoCgroupRemoveThread block thread).1.idOf other =
        system.idOf other := by
  cases thread with
  | none => exact ⟨rfl, fun _ => rfl⟩
  | some thread =>
    unfold rtemsIoCgroupRemoveThread IoCgroupControl.removeThreadWeight
    dsimp only
    refine ⟨rfl, store_idOf ?_⟩
    split <;> rfl

theorem setLimits_kept (system : IoCgroupSystem) (block : Nat) (limits : Option IoCgroupLimit) :
    (system.rtemsIoCgroupSetLimits block limits).1.allocated = system.allocated ∧
      ∀ other, (system.rtemsIoCgroupSetLimits block limits).1.idOf other = system.idOf other := by
  cases limits with
  | none => exact ⟨rfl, fun _ => rfl⟩
  | some limits => exact ⟨rfl, store_idOf rfl⟩

structure Creates (system : IoCgroupSystem) (ioCgroupWeight : BitVec 16)
    (limits : Option IoCgroupLimit) (cgroupId : Bool) (malloc : Option Nat) (buffer : Bool) :
    Prop where
  enrols : ∃ manager block given, system.Enrols limits cgroupId malloc buffer manager block given
  weighs : ioCgroupWeight ≠ 0

variable {ioCgroupWeight : BitVec 16} {limits : Option IoCgroupLimit} {cgroupId buffer : Bool}
variable {malloc : Option Nat} {ticksSinceBoot : BitVec 32}

@[simp] theorem addToManager_idOf (block other : Nat) :
    (system.rtemsIoCgroupAddToManager block).1.idOf other = system.idOf other := by
  unfold rtemsIoCgroupAddToManager
  split <;> rfl

theorem allocateControl_idOf_self (block : Nat) (given : IoCgroupLimit)
    (ticksSinceBoot : BitVec 32) :
    (system.allocateControl block given ticksSinceBoot).idOf block = system.nextCgroupId := by
  rw [idOf, allocateControl, store_self]
  rfl

theorem allocateControl_idOf_other (given : IoCgroupLimit) (ticksSinceBoot : BitVec 32)
    (different : other ≠ block) :
    (system.allocateControl block given ticksSinceBoot).idOf other = system.idOf other := by
  rw [idOf, allocateControl, store_other different]
  rfl

/-- A create hands out the next identifier. -/
theorem Creates.created
    (creates : system.Creates ioCgroupWeight limits cgroupId malloc buffer)
    (fresh : ∀ block, malloc = some block → block ∉ system.allocated) (ticksSinceBoot : BitVec 32) :
    ∃ block, malloc = some block ∧ block ∉ system.allocated ∧
      (system.rtemsIoCgroupCreate ioCgroupWeight limits cgroupId malloc buffer
        ticksSinceBoot).1.allocated = block :: system.allocated ∧
      (system.rtemsIoCgroupCreate ioCgroupWeight limits cgroupId malloc buffer
        ticksSinceBoot).1.idOf block = system.nextCgroupId ∧
      (system.rtemsIoCgroupCreate ioCgroupWeight limits cgroupId malloc buffer
        ticksSinceBoot).2 = .ok system.nextCgroupId ∧
      ∀ other ∈ system.allocated, (system.rtemsIoCgroupCreate ioCgroupWeight limits cgroupId
        malloc buffer ticksSinceBoot).1.idOf other = system.idOf other := by
  obtain ⟨manager, block, given, enrols⟩ := creates.enrols
  have isFresh := fresh block enrols.malloc
  refine ⟨block, enrols.malloc, isFresh, ?_⟩
  have isId (after : IoCgroupSystem) : (after.controls block).id = after.idOf block := rfl
  rw [enrols.create_result]
  simp only [isId, if_neg creates.weighs, allocateWeight_allocated, addToManager_allocated,
    allocateControl_allocated, allocateWeight_idOf, addToManager_idOf, allocateControl_idOf_self,
    true_and]
  intro other member
  exact allocateControl_idOf_other given ticksSinceBoot (ne_of_mem_of_not_mem member isFresh)

/-- A refused create changes neither the cgroups nor their identifiers. -/
theorem create_refused
    (refused : ¬system.Creates ioCgroupWeight limits cgroupId malloc buffer)
    (fresh : ∀ block, malloc = some block → block ∉ system.allocated) (ticksSinceBoot : BitVec 32) :
    (system.rtemsIoCgroupCreate ioCgroupWeight limits cgroupId malloc buffer
        ticksSinceBoot).1.allocated = system.allocated ∧
      ∀ other ∈ system.allocated, (system.rtemsIoCgroupCreate ioCgroupWeight limits cgroupId
        malloc buffer ticksSinceBoot).1.idOf other = system.idOf other := by
  by_cases enrols : ∃ manager block given,
      system.Enrols limits cgroupId malloc buffer manager block given
  · have weightless : ioCgroupWeight = 0 := by
      by_contra weighs
      exact refused ⟨enrols, weighs⟩
    obtain ⟨manager, block, given, enrols⟩ := enrols
    have isFresh := fresh block enrols.malloc
    rw [enrols.create_result]
    simp only [if_pos weightless, free, removeFromManager_allocated, addToManager_allocated,
      allocateControl_allocated, List.erase_cons_head, true_and]
    intro other member
    have kept : (system.allocateControl block given ticksSinceBoot).idOf other = system.idOf other :=
      allocateControl_idOf_other given ticksSinceBoot (ne_of_mem_of_not_mem member isFresh)
    rw [← kept]
    exact (free_idOf block other).trans (by simp)
  · rcases create_eq_of_not_enrols enrols with unchanged | ⟨block, given, isBlock, freed⟩
    · rw [unchanged]
      exact ⟨rfl, fun _ _ => rfl⟩
    · rw [freed]
      refine ⟨by simp [free], ?_⟩
      intro other member
      rw [free_idOf]
      exact allocateControl_idOf_other given ticksSinceBoot
        (ne_of_mem_of_not_mem member (fresh block isBlock))

theorem create_refused_error
    (refused : ¬system.Creates ioCgroupWeight limits cgroupId malloc buffer)
    (ticksSinceBoot : BitVec 32) :
    ∃ status, (system.rtemsIoCgroupCreate ioCgroupWeight limits cgroupId malloc buffer
      ticksSinceBoot).2 = .error status := by
  by_cases enrols : ∃ manager block given,
      system.Enrols limits cgroupId malloc buffer manager block given
  · have weightless : ioCgroupWeight = 0 := by
      by_contra weighs
      exact refused ⟨enrols, weighs⟩
    obtain ⟨manager, block, given, enrols⟩ := enrols
    rw [enrols.create_result]
    simp only [if_pos weightless]
    exact ⟨_, rfl⟩
  · exact create_error_of_not_enrols enrols

theorem getById_idOf {id : BitVec 32} (found : system.rtemsIoCgroupGetById id = some block) :
    system.idOf block = id := by
  obtain ⟨manager, _, isFound⟩ := Option.bind_eq_some_iff.mp found
  have same := List.find?_some isFound
  rw [decide_eq_true_eq] at same
  exact same

@[simp] theorem managerCreate_nextCgroupId (systemReadBps systemWriteBps : BitVec 64)
    (malloc : Bool) :
    (system.rtemsIoCgroupManagerCreate systemReadBps systemWriteBps malloc).1.nextCgroupId =
      system.nextCgroupId := by
  unfold rtemsIoCgroupManagerCreate
  dsimp only
  split
  · rfl
  · cases malloc <;> rfl

theorem managerCreate_refused {systemReadBps systemWriteBps : BitVec 64} {malloc : Bool}
    (refused : (system.rtemsIoCgroupManagerCreate systemReadBps systemWriteBps malloc).2 ≠
      .successful) :
    (system.rtemsIoCgroupManagerCreate systemReadBps systemWriteBps malloc).1 = system ∧
      system.globalIoCgroupManager = none := by
  unfold rtemsIoCgroupManagerCreate at refused ⊢
  dsimp only at refused ⊢
  split
  next found =>
    rw [found] at refused
    exact absurd rfl refused
  next found =>
    rw [found] at refused
    cases malloc with
    | true => exact absurd rfl refused
    | false => exact ⟨rfl, found⟩

end IoCgroupSystem

namespace IoCgroupCall

/-- A call that neither creates a cgroup nor deletes one. -/
def Keeps : IoCgroupCall → Prop
  | create .. | delete (some _) => False
  | _ => True

/-- A call that keeps the cgroups keeps their ids. -/
theorem perform_kept {call : IoCgroupCall} (keeps : call.Keeps) (system : IoCgroupSystem) :
    (call.perform system).allocated = system.allocated ∧
      ∀ other, (call.perform system).idOf other = system.idOf other := by
  have same : system.allocated = system.allocated ∧
      ∀ other, system.idOf other = system.idOf other := ⟨rfl, fun _ => rfl⟩
  cases call with
  | managerCreate systemReadBps systemWriteBps malloc =>
    exact ⟨IoCgroupSystem.managerCreate_allocated .., IoCgroupSystem.managerCreate_idOf _ _ _⟩
  | managerUpdateBandwidth systemReadBps systemWriteBps =>
    exact system.updateBandwidth_kept systemReadBps systemWriteBps
  | create => exact keeps.elim
  | delete ioCgroup =>
    cases ioCgroup with
    | none => exact same
    | some block => exact keeps.elim
  | allocateWeight ioCgroup weight =>
    cases ioCgroup with
    | none => exact same
    | some block =>
      exact ⟨IoCgroupSystem.allocateWeight_allocated block weight,
        fun other => IoCgroupSystem.allocateWeight_idOf block other weight⟩
  | removeWeight ioCgroup =>
    cases ioCgroup with
    | none => exact same
    | some block =>
      exact ⟨IoCgroupSystem.removeWeight_allocated block, IoCgroupSystem.removeWeight_idOf block⟩
  | addThread ioCgroup thread weight malloc =>
    cases ioCgroup with
    | none => exact same
    | some block => exact system.addThread_kept block thread weight malloc
  | removeThread ioCgroup thread =>
    cases ioCgroup with
    | none => exact same
    | some block => exact system.removeThread_kept block thread

end IoCgroupCall

end RTContainer.Score
