import RTContainer.Score.ContainerFs
import RTContainer.Score.IoCgroupIds

/-! The identifiers that the control files track, beside the live objects that
were created through a control file. -/

set_option autoImplicit false

namespace RTContainer.Score

open RTContainer.Rtems CString

variable {Key : Type} [DecidableEq Key]

def survivors (write : Bool) (before after created : List Key) : List Key :=
  (if write then after.filter (· ∉ before) else []) ++ created.filter (· ∈ after)

structure Tracked (ids : List (BitVec 32)) (idOf : Key → BitVec 32) (created : List Key) : Prop where
  nodup : ids.Nodup
  mem_iff : ∀ id, id ∈ ids ↔ ∃ key ∈ created, idOf key = id

variable {ids : List (BitVec 32)} {idOf next : Key → BitVec 32} {live after created : List Key}
variable {key : Key} {write : Bool}

theorem mem_trackAdd {ids : List (BitVec 32)} {id other : BitVec 32} :
    other ∈ trackAdd ids id ↔ other ∈ ids ∨ other = id ∧ (id ∈ ids ∨ ids.length < trackMax) := by
  unfold trackAdd
  split
  next present =>
    constructor
    · exact .inl
    · rintro (member | ⟨rfl, _⟩)
      · exact member
      · exact present
  next absent =>
    split
    next room => simp [room]
    next full =>
      constructor
      · exact .inl
      · rintro (member | ⟨_, present | room⟩)
        · exact member
        · exact absurd present absent
        · exact absurd room full

theorem nodup_trackAdd {id : BitVec 32} (nodup : ids.Nodup) : (trackAdd ids id).Nodup := by
  unfold trackAdd
  split
  · exact nodup
  · split
    · exact List.nodup_append.mpr ⟨nodup, List.nodup_singleton id, by simp; grind⟩
    · exact nodup

theorem mem_survivors : key ∈ survivors write live after created ↔
    write = true ∧ key ∈ after ∧ key ∉ live ∨ key ∈ created ∧ key ∈ after := by
  unfold survivors
  cases write <;> simp

section

variable (alive : ∀ key ∈ created, key ∈ live)
include alive

private theorem mem_survivors_kept : key ∈ survivors write live live created ↔ key ∈ created := by
  rw [mem_survivors]
  have := alive key
  tauto

variable {added removed : Key}

theorem mem_survivors_added (fresh : added ∉ live) :
    key ∈ survivors write live (added :: live) created ↔
      write = true ∧ key = added ∨ key ∈ created := by
  rw [mem_survivors, List.mem_cons]
  have := alive key
  constructor
  · rintro (⟨isWrite, isAdded | inside, absent⟩ | ⟨isCreated, _⟩)
    · exact .inl ⟨isWrite, isAdded⟩
    · exact absurd inside absent
    · exact .inr isCreated
  · rintro (⟨isWrite, rfl⟩ | isCreated)
    · exact .inl ⟨isWrite, .inl rfl, fresh⟩
    · exact .inr ⟨isCreated, .inr (this isCreated)⟩

theorem mem_survivors_removed (nodup : live.Nodup) :
    key ∈ survivors write live (live.erase removed) created ↔ key ≠ removed ∧ key ∈ created := by
  rw [mem_survivors, nodup.mem_erase_iff]
  have := alive key
  tauto

theorem tracked_kept (same : ∀ key ∈ live, next key = idOf key) :
    Tracked ids next (survivors write live live created) ↔ Tracked ids idOf created := by
  have ids_iff : ∀ id, (∃ key ∈ survivors write live live created, next key = id) ↔
      ∃ key ∈ created, idOf key = id := by
    intro id
    simp only [mem_survivors_kept alive]
    constructor
    · rintro ⟨key, isCreated, isId⟩
      exact ⟨key, isCreated, (same key (alive key isCreated)) ▸ isId⟩
    · rintro ⟨key, isCreated, isId⟩
      exact ⟨key, isCreated, (same key (alive key isCreated)).trans isId⟩
  constructor
  · rintro ⟨nodup, mem_iff⟩
    exact ⟨nodup, fun id => (mem_iff id).trans (ids_iff id)⟩
  · rintro ⟨nodup, mem_iff⟩
    exact ⟨nodup, fun id => (mem_iff id).trans (ids_iff id).symm⟩

theorem tracked_unseen (fresh : added ∉ live) (same : ∀ key ∈ live, next key = idOf key)
    (tracked : Tracked ids idOf created) :
    Tracked ids next (survivors false live (added :: live) created) := by
  refine ⟨tracked.nodup, ?_⟩
  intro id
  rw [tracked.mem_iff]
  simp only [mem_survivors_added alive fresh, Bool.false_eq_true, false_and, false_or]
  constructor
  · rintro ⟨key, isCreated, isId⟩
    exact ⟨key, isCreated, (same key (alive key isCreated)).trans isId⟩
  · rintro ⟨key, isCreated, isId⟩
    exact ⟨key, isCreated, (same key (alive key isCreated)) ▸ isId⟩

/-- An identifier is tracked if it is there already or a slot is free. -/
theorem tracked_added_iff (fresh : added ∉ live) (same : ∀ key ∈ live, next key = idOf key)
    (tracked : Tracked ids idOf created) :
    Tracked (trackAdd ids (next added)) next (survivors true live (added :: live) created) ↔
      next added ∈ ids ∨ ids.length < trackMax := by
  have inherited : ∀ id, (∃ key ∈ created, next key = id) ↔ id ∈ ids := by
    intro id
    rw [tracked.mem_iff]
    constructor
    · rintro ⟨key, isCreated, isId⟩
      exact ⟨key, isCreated, (same key (alive key isCreated)) ▸ isId⟩
    · rintro ⟨key, isCreated, isId⟩
      exact ⟨key, isCreated, (same key (alive key isCreated)).trans isId⟩
  have wanted : ∀ id, (∃ key ∈ survivors true live (added :: live) created, next key = id) ↔
      id ∈ ids ∨ id = next added := by
    intro id
    rw [← inherited]
    simp only [mem_survivors_added alive fresh, true_and]
    constructor
    · rintro ⟨key, rfl | isCreated, isId⟩
      · exact .inr isId.symm
      · exact .inl ⟨key, isCreated, isId⟩
    · rintro (⟨key, isCreated, isId⟩ | rfl)
      · exact ⟨key, .inr isCreated, isId⟩
      · exact ⟨added, .inl rfl, rfl⟩
  constructor
  · intro exact
    have member := (exact.mem_iff (next added)).mpr ((wanted _).mpr (.inr rfl))
    rw [mem_trackAdd] at member
    rcases member with present | ⟨_, room⟩
    · exact .inl present
    · exact room
  · intro room
    refine ⟨nodup_trackAdd tracked.nodup, ?_⟩
    intro id
    rw [wanted, mem_trackAdd, and_iff_left room]

theorem ids_removed (nodup : live.Nodup) (same : ∀ key ∈ live, next key = idOf key)
    (id : BitVec 32) :
    (∃ key ∈ survivors write live (live.erase removed) created, next key = id) ↔
      ∃ key ∈ created, key ≠ removed ∧ idOf key = id := by
  simp only [mem_survivors_removed alive nodup]
  constructor
  · rintro ⟨key, ⟨different, isCreated⟩, isId⟩
    exact ⟨key, isCreated, different, (same key (alive key isCreated)) ▸ isId⟩
  · rintro ⟨key, isCreated, different, isId⟩
    exact ⟨key, ⟨different, isCreated⟩, (same key (alive key isCreated)).trans isId⟩

end

/-- A removal tracks exactly if no other object has the identifier. -/
theorem tracked_removed_iff (removed : Key) (alive : ∀ key ∈ created, key ∈ live)
    (nodup : live.Nodup) (same : ∀ key ∈ live, next key = idOf key)
    (tracked : Tracked ids idOf created) :
    Tracked (trackRemove ids (idOf removed)) next
        (survivors true live (live.erase removed) created) ↔
      ∀ other ∈ created, other ≠ removed → idOf other ≠ idOf removed := by
  constructor
  · intro exact other isCreated different isId
    have member := (exact.mem_iff (idOf other)).mpr
      ((ids_removed alive nodup same _).mpr ⟨other, isCreated, different, rfl⟩)
    rw [isId] at member
    exact tracked.nodup.not_mem_erase member
  · intro alone
    refine ⟨tracked.nodup.erase _, ?_⟩
    intro id
    rw [ids_removed alive nodup same, trackRemove, tracked.nodup.mem_erase_iff, tracked.mem_iff]
    constructor
    · rintro ⟨different, key, isCreated, isId⟩
      refine ⟨key, isCreated, ?_, isId⟩
      rintro rfl
      exact different isId.symm
    · rintro ⟨key, isCreated, different, isId⟩
      exact ⟨isId ▸ alone key isCreated different, key, isCreated, isId⟩

/-- A deletion behind the files leaves the identifier in the list. -/
theorem tracked_deleted_iff (removed : Key) (alive : ∀ key ∈ created, key ∈ live)
    (nodup : live.Nodup) (same : ∀ key ∈ live, next key = idOf key)
    (tracked : Tracked ids idOf created) :
    Tracked ids next (survivors false live (live.erase removed) created) ↔
      (removed ∈ created → ∃ other ∈ created, other ≠ removed ∧ idOf other = idOf removed) := by
  constructor
  · intro exact isCreated
    have member := (tracked.mem_iff (idOf removed)).mpr ⟨removed, isCreated, rfl⟩
    exact (ids_removed alive nodup same _).mp ((exact.mem_iff _).mp member)
  · intro shared
    refine ⟨tracked.nodup, ?_⟩
    intro id
    rw [ids_removed alive nodup same, tracked.mem_iff]
    constructor
    · rintro ⟨key, isCreated, isId⟩
      by_cases isRemoved : key = removed
      · subst isRemoved
        obtain ⟨other, otherCreated, different, sameId⟩ := shared isCreated
        exact ⟨other, otherCreated, different, sameId.trans isId⟩
      · exact ⟨key, isCreated, isRemoved, isId⟩
    · rintro ⟨key, isCreated, _, isId⟩
      exact ⟨key, isCreated, isId⟩

/-- The live objects of one kind after a step: as before, one more, or one less. -/
inductive Turnover (live : List Key) : List Key → Prop where
  | kept : Turnover live live
  | added {key : Key} (fresh : key ∉ live) : Turnover live (key :: live)
  | removed (key : Key) : Turnover live (live.erase key)

theorem Turnover.nodup {live after : List Key} (turnover : Turnover live after)
    (nodup : live.Nodup) : after.Nodup := by
  cases turnover with
  | kept => exact nodup
  | added fresh => exact List.nodup_cons.mpr ⟨fresh, nodup⟩
  | removed key => exact nodup.erase key

variable {Thread : Type}

/-! The effects of the control files on the cgroups and on what is tracked. -/

namespace ControlFiles

variable {files : ControlFiles Thread} {call : FileCall}

theorem cpuctlName_ne_zero (index : Nat) : cpuctlName index ≠ 0 := by
  have names : ∀ digit < 10, 0x43505530#32 + BitVec.ofNat 32 digit ≠ 0 := by decide
  exact names (index % 10) (Nat.mod_lt index (by decide))

theorem memctlName_ne_zero (index : Nat) : memctlName index ≠ 0 := by
  have names : ∀ digit < 10, 0x4d454d30#32 + BitVec.ofNat 32 digit ≠ 0 := by decide
  exact names (index % 10) (Nat.mod_lt index (by decide))

variable {name : BitVec 32}

theorem createAt_effect (system : CgroupSystem Thread) (named : name ≠ 0) (address : Nat)
    (config : CoreCgroupConfig) (allocated : Option ObjectsId) :
    ∃ cgroups, system.createAt name address config allocated = (cgroups, allocated) ∧
      cgroups.opened = allocated.toList ++ system.opened := by
  unfold CgroupSystem.createAt rtemsCgroupCreate
  rw [if_neg named]
  cases allocated with
  | none | some => exact ⟨_, rfl, rfl⟩

theorem createCgroup_effect (files : ControlFiles Thread) (call : FileCall) (named : name ≠ 0)
    (config : CoreCgroupConfig) :
    (files.createCgroup call name config).1.ioCgroups = files.ioCgroups ∧
      (files.createCgroup call name config).1.containerfsIocgroupIds =
        files.containerfsIocgroupIds ∧
      (files.createCgroup call name config).1.cgroups.opened =
        call.allocated.toList ++ files.cgroups.opened ∧
      (files.createCgroup call name config).1.containerfsCgroupIds =
        call.allocated.toList.foldl trackAdd files.containerfsCgroupIds := by
  obtain ⟨cgroups, made, opened⟩ :=
    createAt_effect files.cgroups named call.frame config call.allocated
  unfold createCgroup
  rw [made]
  cases isAllocated : call.allocated with
  | none | some =>
    rw [isAllocated] at opened
    exact ⟨rfl, rfl, opened, rfl⟩

theorem rtemsCgroupDelete_effect (cgroups : CgroupSystem Thread) (id : ObjectsId) :
    (rtemsCgroupDelete cgroups id).1.opened = cgroups.opened.erase id ∧
      ((rtemsCgroupDelete cgroups id).2 = .successful ↔ id ∈ cgroups.opened) := by
  unfold rtemsCgroupDelete
  cases found : cgroupGet cgroups id with
  | none =>
    have absent := cgroupGet_eq_none found
    exact ⟨(List.erase_of_not_mem absent).symm, by simp [absent]⟩
  | some block =>
    obtain ⟨rfl, member⟩ := cgroupGet_eq_some found
    exact ⟨rfl, by simp [member]⟩

theorem deleteCgroup_effect (files : ControlFiles Thread) (id : ObjectsId) :
    (files.deleteCgroup id).1.ioCgroups = files.ioCgroups ∧
      (files.deleteCgroup id).1.containerfsIocgroupIds = files.containerfsIocgroupIds ∧
      (files.deleteCgroup id).1.cgroups.opened = files.cgroups.opened.erase id ∧
      (files.deleteCgroup id).1.containerfsCgroupIds =
        if id ∈ files.cgroups.opened then trackRemove files.containerfsCgroupIds id
        else files.containerfsCgroupIds := by
  obtain ⟨opened, successful⟩ := rtemsCgroupDelete_effect files.cgroups id
  unfold deleteCgroup
  split
  next cgroups deleted =>
    rw [deleted] at opened successful
    rw [if_pos (successful.mp rfl)]
    exact ⟨rfl, rfl, opened, rfl⟩
  next cgroups status failed deleted =>
    rw [deleted] at opened successful
    rw [if_neg (fun member => failed (successful.mpr member))]
    exact ⟨rfl, rfl, opened, rfl⟩

def SameCgroups (files after : ControlFiles Thread) : Prop :=
  after.cgroups.opened = files.cgroups.opened ∧
    after.containerfsCgroupIds = files.containerfsCgroupIds

def SameIoCgroups (files after : ControlFiles Thread) : Prop :=
  after.ioCgroups = files.ioCgroups ∧ after.containerfsIocgroupIds = files.containerfsIocgroupIds

theorem memctlPerform_same {command : MemctlCommand}
    (noCreate : ∀ memoryLimit, command ≠ .create memoryLimit)
    (noDelete : ∀ id, command ≠ .delete id) :
    SameCgroups files (files.memctlPerform call command) ∧
      SameIoCgroups files (files.memctlPerform call command) := by
  cases command with
  | create memoryLimit => exact absurd rfl (noCreate memoryLimit)
  | delete id => exact absurd rfl (noDelete id)
  | set id memoryLimit =>
    rw [memctlPerform]
    split <;> exact ⟨⟨rfl, rfl⟩, rfl, rfl⟩
  | list | refused => exact ⟨⟨rfl, rfl⟩, rfl, rfl⟩

theorem createCgroup_turnover (files : ControlFiles Thread) {call : FileCall} (named : name ≠ 0)
    (config : CoreCgroupConfig)
    (fresh : ∀ id, call.allocated = some id → id ∉ files.cgroups.opened) :
    Turnover files.cgroups.opened (files.createCgroup call name config).1.cgroups.opened := by
  rw [(createCgroup_effect files call named config).2.2.1]
  cases isAllocated : call.allocated with
  | none => exact .kept
  | some id => exact .added (fresh id isAllocated)

theorem deleteCgroup_turnover (files : ControlFiles Thread) (id : ObjectsId) :
    Turnover files.cgroups.opened (files.deleteCgroup id).1.cgroups.opened := by
  rw [(deleteCgroup_effect files id).2.2.1]
  exact .removed id

theorem same_turnover {files after : ControlFiles Thread}
    (same : SameCgroups files after) :
    Turnover files.cgroups.opened after.cgroups.opened := by
  rw [same.1]
  exact .kept

theorem ioctl_opened (files : ControlFiles Thread) (call : FileCall) (command : IoctlCommand) :
    (files.ioctlPerform call command).cgroups = files.cgroups := by
  cases command with
  | create weight =>
    rw [ioctlPerform]
    split
    next => split <;> rfl
    next => rfl
  | set | delete =>
    rw [ioctlPerform]
    split <;> rfl
  | list => rfl
  | refused => rfl

theorem memctlPerform_io (files : ControlFiles Thread) (call : FileCall) (command : MemctlCommand) :
    (files.memctlPerform call command).ioCgroups = files.ioCgroups := by
  cases command with
  | create memoryLimit => exact (createCgroup_effect files call (memctlName_ne_zero _) _).1
  | delete id => exact (deleteCgroup_effect files id).1
  | set id memoryLimit => exact (memctlPerform_same (by simp) (by simp)).2.1
  | list => rfl
  | refused => rfl

variable [DecidableEq Thread]

theorem suspend_opened (cgroups : CgroupSystem Thread) (block : ObjectsId)
    (waitState : BitVec 32) :
    (cgroups.coreCgroupSuspend (some block) waitState).1.opened = cgroups.opened := by
  unfold CgroupSystem.coreCgroupSuspend
  dsimp only
  split <;> rfl

theorem resume_opened (cgroups : CgroupSystem Thread) (block : ObjectsId)
    (waitState : BitVec 32) :
    (cgroups.coreCgroupResume (some block) waitState).1.opened = cgroups.opened := by
  unfold CgroupSystem.coreCgroupResume
  dsimp only
  split
  · rfl
  · split
    · rfl
    · split <;> rfl

/-- The effect of a command of `/cpuctl`, apart from the status. -/
theorem cpuctlPerform_create (quota period shares : BitVec 32) :
    (files.cpuctlPerform call (.create quota period shares)).1 =
      (files.createCgroup call (cpuctlName files.containerfsCgroupNameIndex.toNat)
        ⟨shares.toNat, quota.toNat, period.toNat, 0, 0⟩).1 := by
  rw [cpuctlPerform]
  split
  next made => rw [made]
  next refused => rw [refused]

theorem cpuctlPerform_delete (id : ObjectsId) :
    (files.cpuctlPerform call (.delete id)).1 = (files.deleteCgroup id).1 := by
  rw [cpuctlPerform]
  split
  next deleted => rw [deleted]
  next refused => rw [refused]

theorem cpuctlPerform_same {command : CpuctlCommand}
    (noCreate : ∀ quota period shares, command ≠ .create quota period shares)
    (noDelete : ∀ id, command ≠ .delete id) :
    SameCgroups files (files.cpuctlPerform call command).1 ∧
      SameIoCgroups files (files.cpuctlPerform call command).1 := by
  cases command with
  | create quota period shares => exact absurd rfl (noCreate quota period shares)
  | delete id => exact absurd rfl (noDelete id)
  | set id quota period =>
    rw [cpuctlPerform]
    split <;> exact ⟨⟨rfl, rfl⟩, rfl, rfl⟩
  | pause id =>
    rw [cpuctlPerform]
    split
    next block _ =>
      have same := suspend_opened files.cgroups block statesWaitingForCgroupCpuQuota
      split
      next suspended =>
        rw [suspended] at same
        exact ⟨⟨same, rfl⟩, rfl, rfl⟩
      next suspended =>
        rw [suspended] at same
        exact ⟨⟨same, rfl⟩, rfl, rfl⟩
    next => exact ⟨⟨rfl, rfl⟩, rfl, rfl⟩
  | resume id =>
    rw [cpuctlPerform]
    split
    next block _ =>
      have same := resume_opened files.cgroups block statesWaitingForCgroupCpuQuota
      split
      next resumed =>
        rw [resumed] at same
        exact ⟨⟨same, rfl⟩, rfl, rfl⟩
      next resumed =>
        rw [resumed] at same
        exact ⟨⟨same, rfl⟩, rfl, rfl⟩
    next => exact ⟨⟨rfl, rfl⟩, rfl, rfl⟩
  | list | refused => exact ⟨⟨rfl, rfl⟩, rfl, rfl⟩

theorem cpuctlPerform_io (files : ControlFiles Thread) (call : FileCall) (command : CpuctlCommand) :
    (files.cpuctlPerform call command).1.ioCgroups = files.ioCgroups := by
  by_cases creates : ∃ quota period shares, command = .create quota period shares
  · obtain ⟨quota, period, shares, rfl⟩ := creates
    rw [cpuctlPerform_create]
    exact (createCgroup_effect files call (cpuctlName_ne_zero _) _).1
  · by_cases deletes : ∃ id, command = .delete id
    · obtain ⟨id, rfl⟩ := deletes
      rw [cpuctlPerform_delete]
      exact (deleteCgroup_effect files id).1
    · push Not at creates deletes
      exact (cpuctlPerform_same creates deletes).2.1

end ControlFiles

end RTContainer.Score
