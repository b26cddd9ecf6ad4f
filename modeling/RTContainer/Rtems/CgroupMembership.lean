import Mathlib.Data.List.Nodup
import RTContainer.Rtems.Cgroup

/-! The membership of threads in cgroups. It is stored three times: as a node
on the chain of the cgroup, as the counter of the cgroup and in the fields of
the thread. -/

set_option autoImplicit false

namespace RTContainer.Score.CgroupSystem

open RTContainer.Rtems Function

variable {Thread : Type}

structure MembershipAgrees [DecidableEq Thread] (system : CgroupSystem Thread) : Prop where
  listed : ∀ block ∈ system.opened, ∀ thread,
    (system.cgroups block).threads.count thread = 1 ↔
      system.cgroup thread = some block ∧ system.isAddedToCgroup thread = true
  apart : ∀ block ∈ system.opened, ∀ other ∈ system.opened, ∀ thread,
    thread ∈ (system.cgroups block).threads → thread ∈ (system.cgroups other).threads →
      block = other
  counted : ∀ block ∈ system.opened,
    (system.cgroups block).threadCount = (system.cgroups block).threads.length
  limited : ∀ block ∈ system.opened,
    (system.cgroups block).threadCount ≤ (system.cgroups block).maxThreads

structure ChainAgrees (system : CgroupSystem Thread) (block : ObjectsId) : Prop where
  nodup : (system.cgroups block).threads.Nodup
  members : ∀ thread, thread ∈ (system.cgroups block).threads ↔
    system.cgroup thread = some block ∧ system.isAddedToCgroup thread = true
  counted : (system.cgroups block).threadCount = (system.cgroups block).threads.length
  limit : (system.cgroups block).maxThreads = 10
  room : (system.cgroups block).threadCount ≤ 10

def Membership (system : CgroupSystem Thread) : Prop :=
  ∀ block ∈ system.opened, system.ChainAgrees block

variable {system : CgroupSystem Thread} {block other : ObjectsId} {thread : Thread}

/-- The membership that the calls keep is what the fields say. -/
theorem Membership.agrees [DecidableEq Thread] (membership : system.Membership) :
    system.MembershipAgrees where
  listed := by
    intro block isOpen thread
    rw [(membership block isOpen).nodup.count, ← (membership block isOpen).members thread]
    split <;> simp_all
  apart := by
    intro block isOpen other otherOpen thread onBlock onOther
    have inBlock := ((membership block isOpen).members thread).mp onBlock
    have inOther := ((membership other otherOpen).members thread).mp onOther
    exact Option.some.inj (inBlock.1.symm.trans inOther.1)
  counted := by
    intro block isOpen
    exact (membership block isOpen).counted
  limited := by
    intro block isOpen
    rw [(membership block isOpen).limit]
    exact (membership block isOpen).room

@[simp] theorem store_cgroups_self (control : CoreCgroupControl Thread) :
    (system.store block control).cgroups block = control := by
  simp [store]

theorem store_cgroups_of_ne (different : other ≠ block) (control : CoreCgroupControl Thread) :
    (system.store block control).cgroups other = system.cgroups other := by
  simp [store, different]

theorem ChainAgrees.transfer {after : CgroupSystem Thread} (agrees : system.ChainAgrees block)
    (sameBlock : after.cgroups block = system.cgroups block)
    (sameThreads : ∀ thread,
      (after.cgroup thread = some block ∧ after.isAddedToCgroup thread = true) ↔
        (system.cgroup thread = some block ∧ system.isAddedToCgroup thread = true)) :
    after.ChainAgrees block where
  nodup := by
    rw [sameBlock]
    exact agrees.nodup
  members := by
    intro thread
    rw [sameBlock, sameThreads thread]
    exact agrees.members thread
  counted := by
    rw [sameBlock]
    exact agrees.counted
  limit := by
    rw [sameBlock]
    exact agrees.limit
  room := by
    rw [sameBlock]
    exact agrees.room

variable [DecidableEq Thread]

theorem addThread_chain (agrees : system.ChainAgrees block)
    (absent : thread ∉ (system.cgroups block).threads)
    (canAdd : system.coreCgroupCanAddThread block = true) :
    (system.coreCgroupAddThread block thread).ChainAgrees block := by
  have small : (system.cgroups block).threadCount < 10 := by
    simpa [coreCgroupCanAddThread, agrees.limit] using canAdd
  have counted : ((system.cgroups block).threadCount + 1) % 2 ^ 32 =
      (system.cgroups block).threadCount + 1 := Nat.mod_eq_of_lt (by omega)
  constructor
  case nodup =>
    simp only [coreCgroupAddThread, store_cgroups_self]
    exact List.nodup_append.mpr ⟨agrees.nodup, List.nodup_singleton thread, by
      intro first firstIn second secondIn same
      rw [List.mem_singleton.mp secondIn] at same
      exact absent (same ▸ firstIn)⟩
  case members =>
    intro candidate
    by_cases same : candidate = thread
    · subst candidate
      simp [coreCgroupAddThread]
    · have frame := agrees.members candidate
      simpa [coreCgroupAddThread, same] using frame
  case counted =>
    simp only [coreCgroupAddThread, store_cgroups_self, counted, List.length_append,
      List.length_singleton]
    rw [agrees.counted]
  case limit => simpa [coreCgroupAddThread] using agrees.limit
  case room =>
    simp only [coreCgroupAddThread, store_cgroups_self, counted]
    omega

section

variable (membership : system.Membership) (isOpen : block ∈ system.opened)
include membership isOpen

theorem Membership.addThread
    (absent : ∀ other ∈ system.opened, thread ∉ (system.cgroups other).threads)
    (canAdd : system.coreCgroupCanAddThread block = true) :
    (system.coreCgroupAddThread block thread).Membership := by
  intro other otherOpen
  by_cases same : other = block
  · subst other
    exact addThread_chain (membership block isOpen) (absent block isOpen) canAdd
  · have agrees := membership other otherOpen
    refine agrees.transfer ?_ ?_
    · exact store_cgroups_of_ne same _
    · intro candidate
      by_cases moved : candidate = thread
      · subst candidate
        have away := absent other otherOpen
        rw [agrees.members thread] at away
        simp only [coreCgroupAddThread, update_self, Option.some.injEq, and_true]
        exact ⟨fun isBlock => absurd isBlock.symm same, fun fields => absurd fields away⟩
      · simp [coreCgroupAddThread, moved]

/-- An addition that the cgroup should refuse breaks the agreement. -/
theorem not_agrees_addThread
    (refused : ¬ ((∀ other ∈ system.opened, thread ∉ (system.cgroups other).threads) ∧
      system.coreCgroupCanAddThread block = true)) :
    ¬ (system.coreCgroupAddThread block thread).MembershipAgrees := by
  intro agrees
  have added : (system.coreCgroupAddThread block thread).cgroups block =
      { system.cgroups block with
        threads := (system.cgroups block).threads ++ [thread]
        threadCount := ((system.cgroups block).threadCount + 1) % 2 ^ 32 } :=
    store_cgroups_self _
  apply refused
  constructor
  · intro other otherOpen onOther
    by_cases same : other = block
    · subst other
      have once := (agrees.listed block isOpen thread).mpr (by simp [coreCgroupAddThread])
      have positive := List.count_pos_iff.mpr onOther
      rw [added, List.count_append, List.count_singleton_self] at once
      omega
    · have unchanged : (system.coreCgroupAddThread block thread).cgroups other =
          system.cgroups other := store_cgroups_of_ne same _
      refine same (agrees.apart other otherOpen block isOpen thread ?_ ?_)
      · rw [unchanged]
        exact onOther
      · rw [added]
        exact List.mem_append_right _ (List.mem_singleton_self thread)
  · have room := (membership block isOpen).room
    have within := agrees.limited block isOpen
    rw [added] at within
    have small : ((system.cgroups block).threadCount + 1) % 2 ^ 32 =
        (system.cgroups block).threadCount + 1 := Nat.mod_eq_of_lt (by omega)
    simp only [small] at within
    exact decide_eq_true within

/-- A direct removal leaves the fields of the thread behind. -/
theorem not_agrees_removeThread {removed : CgroupSystem Thread}
    (success : system.coreCgroupRemoveThread block thread = some removed) :
    ¬ removed.MembershipAgrees := by
  intro agrees
  obtain ⟨onChain, same⟩ := Option.ite_none_right_eq_some.mp success
  cases same
  have fields := ((membership block isOpen).members thread).mp onChain
  have once := (agrees.listed block isOpen thread).mpr fields
  rw [store_cgroups_self, List.count_erase_self, (membership block isOpen).nodup.count,
    if_pos onChain] at once
  omega

end

/-- The fields of a thread after `rtems_unified_container_leave`. -/
def clearThread (system : CgroupSystem Thread) (thread : Thread) : CgroupSystem Thread :=
  { system with
    cgroup := update system.cgroup thread none
    isAddedToCgroup := update system.isAddedToCgroup thread false }

/-- A removal with its fields cleared keeps the chain of the cgroup. -/
theorem removeThread_chain {removed : CgroupSystem Thread} (agrees : system.ChainAgrees block)
    (success : system.coreCgroupRemoveThread block thread = some removed) :
    (removed.clearThread thread).ChainAgrees block := by
  obtain ⟨onChain, same⟩ := Option.ite_none_right_eq_some.mp success
  cases same
  have positive : 0 < (system.cgroups block).threads.length := List.length_pos_of_mem onChain
  have room := agrees.room
  have lowered : ((system.cgroups block).threadCount + (2 ^ 32 - 1)) % 2 ^ 32 =
      (system.cgroups block).threads.length - 1 := by
    rw [agrees.counted] at room ⊢
    omega
  constructor
  case nodup =>
    simp only [clearThread, store_cgroups_self]
    exact agrees.nodup.erase thread
  case members =>
    intro candidate
    simp only [clearThread, store_cgroups_self, agrees.nodup.mem_erase_iff]
    by_cases same : candidate = thread
    · subst candidate
      simp
    · have frame := agrees.members candidate
      simpa [same, store] using frame
  case counted =>
    simp only [clearThread, store_cgroups_self, lowered, List.length_erase_of_mem onChain]
  case limit => simpa [clearThread] using agrees.limit
  case room =>
    simp only [clearThread, store_cgroups_self, lowered]
    rw [agrees.counted] at room
    omega

theorem Membership.removeThread {removed : CgroupSystem Thread} (membership : system.Membership)
    (isOpen : block ∈ system.opened) (named : system.cgroup thread = some block)
    (success : system.coreCgroupRemoveThread block thread = some removed) :
    (removed.clearThread thread).Membership := by
  intro other otherOpen
  by_cases same : other = block
  · subst other
    exact removeThread_chain (membership block isOpen) success
  · obtain ⟨onChain, same⟩ := Option.ite_none_right_eq_some.mp success
    cases same
    refine (membership other otherOpen).transfer ?_ ?_
    · exact store_cgroups_of_ne same _
    · intro candidate
      by_cases moved : candidate = thread
      · subst candidate
        simp only [clearThread, update_self, named, Option.some.injEq]
        simp [Ne.symm same]
      · simp [clearThread, moved, store]

theorem Membership.clearThread (membership : system.Membership)
    (absent : ∀ other ∈ system.opened, thread ∉ (system.cgroups other).threads) :
    (system.clearThread thread).Membership := by
  intro other otherOpen
  have agrees := membership other otherOpen
  refine agrees.transfer rfl ?_
  intro candidate
  by_cases same : candidate = thread
  · subst candidate
    have away := absent other otherOpen
    rw [agrees.members thread] at away
    simp only [CgroupSystem.clearThread, update_self, reduceCtorEq, Bool.false_eq_true,
      and_self, false_iff]
    exact away
  · simp [CgroupSystem.clearThread, same]

end RTContainer.Score.CgroupSystem

namespace RTContainer.Rtems

open RTContainer.Score RTContainer.Score.CgroupSystem

variable {Thread : Type} {system : CgroupSystem Thread} {block id : ObjectsId}

theorem cgroupGet_of_mem (isOpen : id ∈ system.opened) : cgroupGet system id = some id := by
  unfold cgroupGet
  cases found : system.opened.find? fun block => block = id with
  | none => simpa using List.find?_eq_none.mp found id isOpen
  | some block =>
    have same := List.find?_some found
    simp only [decide_eq_true_eq] at same
    rw [same]

theorem cgroupGet_eq_some (found : cgroupGet system id = some block) :
    block = id ∧ id ∈ system.opened := by
  unfold cgroupGet at found
  have same := List.find?_some found
  simp only [decide_eq_true_eq] at same
  subst same
  exact ⟨rfl, List.mem_of_find?_eq_some found⟩

theorem cgroupGet_eq_none (missing : cgroupGet system id = none) : id ∉ system.opened := by
  intro isOpen
  rw [cgroupGet_of_mem isOpen] at missing
  cases missing

def publish (system : CgroupSystem Thread) (block : ObjectsId) (config : Nat) :
    CgroupSystem Thread :=
  { system.coreCgroupInitialize block config with opened := block :: system.opened }

theorem rtemsCgroupCreate_cases (system : CgroupSystem Thread) (name : BitVec 32) (id : Bool)
    (config : Nat) (allocated : Option ObjectsId) :
    (∃ block, (name ≠ 0 ∧ id = true ∧ allocated = some block) ∧
        (rtemsCgroupCreate system name id config allocated).1 = publish system block config) ∨
      ((∀ block, ¬ (name ≠ 0 ∧ id = true ∧ allocated = some block)) ∧
        (rtemsCgroupCreate system name id config allocated).1 = system) := by
  unfold rtemsCgroupCreate
  by_cases invalid : name = 0
  · simp [invalid]
  · rw [if_neg invalid]
    cases id with
    | false => simp
    | true =>
      cases allocated with
      | none => simp
      | some block => exact .inl ⟨block, ⟨invalid, rfl, rfl⟩, rfl⟩

private theorem initialize_chain (config : Nat)
    (unnamed : ∀ thread, ¬ (system.cgroup thread = some block ∧
      system.isAddedToCgroup thread = true)) : (publish system block config).ChainAgrees block := by
  constructor
  case nodup =>
    simp [publish, coreCgroupInitialize]
  case members =>
    intro thread
    have away := unnamed thread
    simpa [publish, coreCgroupInitialize, store] using away
  case counted => simp [publish, coreCgroupInitialize]
  case limit => simp [publish, coreCgroupInitialize]
  case room => simp [publish, coreCgroupInitialize]

theorem publish_membership (config : Nat) (membership : system.Membership)
    (unnamed : ∀ thread, ¬ (system.cgroup thread = some block ∧
      system.isAddedToCgroup thread = true)) : (publish system block config).Membership := by
  intro other otherOpen
  by_cases same : other = block
  · subst other
    exact initialize_chain config unnamed
  · cases otherOpen with
    | head => exact absurd rfl same
    | tail _ otherOpen =>
      exact (membership other otherOpen).transfer (store_cgroups_of_ne same _) fun _ => Iff.rfl

theorem not_agrees_publish [DecidableEq Thread] {thread : Thread} (config : Nat)
    (named : system.cgroup thread = some block ∧ system.isAddedToCgroup thread = true) :
    ¬ (publish system block config).MembershipAgrees := by
  intro agrees
  have once := (agrees.listed block List.mem_cons_self thread).mpr named
  simp [publish, coreCgroupInitialize] at once

theorem delete_membership (membership : system.Membership) (id : ObjectsId) :
    (rtemsCgroupDelete system id).1.Membership := by
  unfold rtemsCgroupDelete
  cases found : cgroupGet system id with
  | none => exact membership
  | some block =>
    intro other otherOpen
    have agrees := membership other (List.mem_of_mem_erase otherOpen)
    by_cases same : other = block
    · subst other
      constructor
      case nodup => simpa [coreCgroupDestroy] using agrees.nodup
      case members =>
        intro thread
        have members := agrees.members thread
        simpa [coreCgroupDestroy, store] using members
      case counted => simpa [coreCgroupDestroy] using agrees.counted
      case limit => simpa [coreCgroupDestroy] using agrees.limit
      case room => simpa [coreCgroupDestroy] using agrees.room
    · exact agrees.transfer (store_cgroups_of_ne same _) fun _ => Iff.rfl

theorem discard_membership (config : Nat) (membership : system.Membership)
    (unopened : block ∉ system.opened) :
    (rtemsCgroupDelete (publish system block config) block).1.Membership := by
  have found : cgroupGet (publish system block config) block = some block :=
    cgroupGet_of_mem List.mem_cons_self
  unfold rtemsCgroupDelete
  rw [found]
  intro other otherOpen
  have isOpen : other ∈ system.opened := by
    simpa [publish] using otherOpen
  have different : other ≠ block := by
    intro same
    exact unopened (same ▸ isOpen)
  refine (membership other isOpen).transfer ?_ fun _ => Iff.rfl
  rw [show ({ (publish system block config).coreCgroupDestroy block with
      opened := (publish system block config).opened.erase block } :
        CgroupSystem Thread).cgroups other = (publish system block config).cgroups other from
    store_cgroups_of_ne different _]
  exact store_cgroups_of_ne different _

end RTContainer.Rtems
