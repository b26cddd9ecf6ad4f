import RTContainer.Score.PidAssignment

/-! The capacity of the PID containers. `rtems_pid_container_add_task` tests the
highest VID ever given out before it looks for a recycled VID,
`rtems_pid_container_move_task` looks for a recycled VID first; so the two differ
once a container has been full and a thread has left it. -/

set_option autoImplicit false

namespace RTContainer.Score

open Machine Function

variable {Thread : Type} [DecidableEq Thread] {objectId : Thread → ObjectsId}

namespace PidContainer

theorem moveRecords_tallied {src dest left joined : PidContainer Thread} {thread : Thread}
    {malloc : Bool} (injective : Injective objectId)
    (nonzero : ∀ thread, objectId thread ≠ 0) (srcTallied : src.Tallied objectId)
    (destTallied : dest.Tallied objectId)
    (moved : PidSystem.moveRecords objectId src dest thread malloc = some (left, joined)) :
    left.Tallied objectId ∧ joined.Tallied objectId := by
  unfold PidSystem.moveRecords at moved
  split at moved
  · contradiction
  split at moved
  · contradiction
  split at moved
  · contradiction
  next vid found =>
    split at moved
    · contradiction
    obtain ⟨taken, takenEq, same⟩ := Option.map_eq_some_iff.mp moved
    obtain ⟨can, rfl⟩ := moveVid_eq_some.mp takenEq
    obtain ⟨rfl, rfl⟩ := Prod.mk.inj same
    have hit := List.find?_some found
    simp only [decide_eq_true_eq] at hit
    exact ⟨leaveSource_tallied srcTallied injective nonzero hit.1,
      joinDest_tallied destTallied nonzero can.room⟩

omit [DecidableEq Thread] in
theorem canTake_iff {container : PidContainer Thread} :
    container.CanTake true ↔
      container.freeVidList ≠ [] ∨ container.pidCount < rtemsMaxProcessLimit - 1 := by
  simp [CanTake]

end PidContainer

namespace PidSystem

def Tallied (objectId : Thread → ObjectsId) (system : PidSystem Thread) : Prop :=
  ∀ address record, system.containers address = some record → record.Tallied objectId

section Tallied

variable {system : PidSystem Thread}

theorem Tallied.of_containers {other : PidSystem Thread} (tallied : system.Tallied objectId)
    (same : other.containers = system.containers) : other.Tallied objectId := by
  intro address record found
  rw [same] at found
  exact tallied address record found

variable {address deleted : Nat} {container : Option Nat} {thread : Option Thread}
variable {malloc : Nat → Bool} {members : List Thread}

section

variable (tallied : system.Tallied objectId)
include tallied

theorem Tallied.store {stored : Option (PidContainer Thread)}
    (storedTallied : ∀ record, stored = some record → record.Tallied objectId) :
    (system.store address stored).Tallied objectId := by
  intro other record found
  by_cases same : other = address
  · rw [same, store_same] at found
    exact storedTallied record found
  · rw [store_other _ _ same] at found
    exact tallied other record found

theorem Tallied.store_some {stored : PidContainer Thread}
    (storedTallied : stored.Tallied objectId) :
    (system.store address (some stored)).Tallied objectId :=
  tallied.store fun _ same => Option.some.inj same ▸ storedTallied

theorem Tallied.create {address : Option Nat} {malloc : Bool} :
    (system.rtemsPidContainerCreate address malloc).Tallied objectId := by
  cases address with
  | none => exact tallied
  | some container =>
    have created : (system.store container (some
        (PidContainer.initial (system.pidContainerId + 1)))).Tallied objectId :=
      tallied.store_some (PidContainer.initial_tallied objectId _)
    cases malloc
    · exact created.of_containers rfl
    · exact created.of_containers rfl

theorem Tallied.addTask {malloc : Bool} (nonzero : ∀ thread, objectId thread ≠ 0) :
    (system.rtemsPidContainerAddTask objectId container thread malloc).Tallied objectId := by
  unfold rtemsPidContainerAddTask
  split
  next address thread =>
    split
    next record found =>
      exact tallied.store_some ((tallied address record found).addTask nonzero)
    next => exact tallied
  next => exact tallied

theorem Tallied.redirect {thread : Thread} {old new : Nat} :
    (system.redirect thread old new).Tallied objectId :=
  tallied.of_containers (redirect_containers ..)

theorem Tallied.rehome (nonzero : ∀ thread, objectId thread ≠ 0) :
    (PidSystem.rehome objectId deleted malloc system members).Tallied objectId := by
  induction members generalizing malloc system with
  | nil => exact tallied
  | cons first rest ih => exact ih (tallied.addTask nonzero).redirect

theorem Tallied.emptied {deleted : Nat} {record : PidContainer Thread}
    (found : system.containers deleted = some record) :
    (({ system with registry := system.registry.erase deleted } : PidSystem Thread).store deleted
      (some { record with rc := -1, threadList := [] })).Tallied objectId := by
  have emptied : ({ record with rc := -1, threadList := [] } :
      PidContainer Thread).Tallied objectId :=
    ⟨(tallied deleted record found).numbered.congr rfl rfl rfl, fun _ => Nat.zero_le _⟩
  exact Tallied.store_some (tallied.of_containers rfl) emptied

theorem Tallied.delete (nonzero : ∀ thread, objectId thread ≠ 0) :
    (system.rtemsPidContainerDelete objectId container malloc).Tallied objectId := by
  unfold rtemsPidContainerDelete
  split
  next => exact tallied
  next deleted =>
    split
    next => exact tallied
    next =>
      split
      next => exact tallied
      next record found =>
        exact ((tallied.emptied found).rehome nonzero).store nofun

theorem Tallied.removeTask (injective : Injective objectId)
    (nonzero : ∀ thread, objectId thread ≠ 0) :
    (system.rtemsPidContainerRemoveTask objectId container thread malloc).Tallied objectId := by
  unfold rtemsPidContainerRemoveTask
  split
  next address thread =>
    split
    next => exact tallied
    next left removed =>
      obtain ⟨record, found, removed⟩ := Option.bind_eq_some_iff.mp removed
      have leftTallied := (tallied address record found).removeTask injective nonzero removed
      dsimp only
      split
      next => exact (tallied.store_some leftTallied).delete nonzero
      next => exact tallied.store_some leftTallied
  next => exact tallied

theorem Tallied.moveTask {src dest : Option Nat} (injective : Injective objectId)
    (nonzero : ∀ thread, objectId thread ≠ 0) :
    (system.rtemsPidContainerMoveTask objectId src dest thread malloc).Tallied objectId := by
  unfold rtemsPidContainerMoveTask
  split
  next srcContainer destContainer thread =>
    split
    next => exact tallied
    next =>
      split
      next src dest srcFound destFound =>
        split
        next => exact tallied
        next left joined moved =>
          obtain ⟨leftTallied, joinedTallied⟩ :=
            PidContainer.moveRecords_tallied injective nonzero
              (tallied srcContainer src srcFound) (tallied destContainer dest destFound) moved
          have stored : ((system.store srcContainer (some left)).store destContainer
              (some joined)).Tallied objectId :=
            (tallied.store_some leftTallied).store_some joinedTallied
          dsimp only
          split
          next => exact stored.redirect.delete nonzero
          next => exact stored.redirect
      next => exact tallied
  next => exact tallied

theorem Tallied.incRc {container : Option Nat} :
    (system.rtemsPidContainerIncRc container).Tallied objectId := by
  unfold rtemsPidContainerIncRc
  split
  next => exact tallied
  next address =>
    split
    next record found =>
      exact tallied.store_some ((tallied address record found).congr rfl rfl rfl rfl)
    next => exact tallied

theorem Tallied.step {call : PidCall Thread} (injective : Injective objectId)
    (nonzero : ∀ thread, objectId thread ≠ 0) :
    (call.step objectId system).Tallied objectId := by
  cases call with
  | create address malloc => exact tallied.create
  | addTask container thread malloc => exact tallied.addTask nonzero
  | removeTask container thread malloc => exact tallied.removeTask injective nonzero
  | moveTask src dest thread malloc => exact tallied.moveTask injective nonzero
  | delete container malloc => exact tallied.delete nonzero
  | incRc container => exact tallied.incRc

end

theorem initializeRoot_tallied (objectId : Thread → ObjectsId) (root : Nat) :
    (rtemsPidContainerInitializeRoot root : PidSystem Thread).Tallied objectId := by
  intro address record found
  by_cases same : address = root
  · simp only [rtemsPidContainerInitializeRoot, same, update_self, Option.some.injEq] at found
    exact found ▸ PidContainer.initial_tallied objectId 1
  · simp [rtemsPidContainerInitializeRoot, same] at found

/-- The members and the slots in use of a container survive. -/
def Keeps (before after : PidSystem Thread) (address : Nat) : Prop :=
  ∀ record, before.containers address = some record →
    ∃ kept, after.containers address = some kept ∧ record.threadList ⊆ kept.threadList ∧
      ∀ vid, record.Used vid → kept.pidArray vid = record.pidArray vid

section

omit [DecidableEq Thread]

variable {before after : PidSystem Thread} {address : Nat}

theorem Keeps.of_eq (same : after.containers address = before.containers address) :
    Keeps before after address :=
  fun record found => ⟨record, same.trans found, List.Subset.refl _, fun _ _ => rfl⟩

theorem Keeps.trans {first second third : PidSystem Thread} (left : Keeps first second address)
    (right : Keeps second third address) : Keeps first third address := by
  intro record found
  obtain ⟨kept, keptFound, keptListed, keptSlots⟩ := left record found
  obtain ⟨last, lastFound, lastListed, lastSlots⟩ := right kept keptFound
  refine ⟨last, lastFound, List.Subset.trans keptListed lastListed, ?_⟩
  intro vid used
  have stillUsed : kept.Used vid := by
    simpa only [PidContainer.Used, keptSlots vid used] using used
  exact (lastSlots vid stillUsed).trans (keptSlots vid used)

theorem Keeps.assigned {vid : Nat} {thread : Thread} (keeps : Keeps before after address)
    (assigned : before.Assigned objectId thread address vid) :
    after.Assigned objectId thread address vid := by
  obtain ⟨record, found, listed, used, named⟩ := assigned
  obtain ⟨kept, keptFound, keptListed, keptSlots⟩ := keeps record found
  refine ⟨kept, keptFound, keptListed listed, ?_, ?_⟩
  · simpa only [PidContainer.Used, keptSlots vid used] using used
  · rw [keptSlots vid used]
    exact named

end

theorem addTask_keeps {malloc : Bool} (tallied : system.Tallied objectId) :
    Keeps system (system.rtemsPidContainerAddTask objectId container thread malloc) address := by
  unfold rtemsPidContainerAddTask
  split
  next target thread =>
    split
    next record found =>
      by_cases same : address = target
      · intro old oldFound
        obtain rfl : record = old := by
          rw [same, found] at oldFound
          exact Option.some.inj oldFound
        refine ⟨_, by rw [same]; exact store_same .., PidContainer.subset_addTask, ?_⟩
        exact fun vid used => (tallied target record found).numbered.addTask_pidArray used
      · exact .of_eq (store_other _ _ same)
    next => exact .of_eq rfl
  next => exact .of_eq rfl

theorem rehome_keeps (nonzero : ∀ thread, objectId thread ≠ 0) (tallied : system.Tallied objectId) :
    Keeps system (rehome objectId deleted malloc system members) address := by
  induction members generalizing malloc system with
  | nil => exact .of_eq rfl
  | cons first rest ih =>
    have added : Keeps system (system.rtemsPidContainerAddTask objectId (some system.root)
      (some first) (malloc 0)) address := addTask_keeps tallied
    refine added.trans (.trans (.of_eq ?_) (ih (tallied.addTask nonzero).redirect))
    rw [redirect_containers]

theorem delete_keeps (nonzero : ∀ thread, objectId thread ≠ 0) (tallied : system.Tallied objectId)
    (different : address ≠ deleted) :
    Keeps system (system.rtemsPidContainerDelete objectId (some deleted) malloc) address := by
  simp only [rtemsPidContainerDelete]
  split
  next => exact .of_eq rfl
  next =>
    split
    next => exact .of_eq rfl
    next record found =>
      obtain ⟨emptied, isEmptied⟩ : ∃ emptied, emptied =
          { system with registry := system.registry.erase deleted }.store deleted
            (some { record with rc := -1, threadList := [] }) := ⟨_, rfl⟩
      have emptiedTallied : emptied.Tallied objectId := isEmptied ▸ tallied.emptied found
      have before : Keeps system emptied address := by
        rw [isEmptied]
        exact .of_eq (store_other _ _ different)
      rw [← isEmptied]
      exact (before.trans (rehome_keeps nonzero emptiedTallied)).trans
        (.of_eq (store_other _ _ different))

end Tallied

section Admission

/-- After a call `thread` is in the container at `address` exactly if the
record before it had fewer members than there are VIDs, and it has the smallest
VID that was not in use. -/
def Admits (objectId : Thread → ObjectsId) (after : PidSystem Thread) (address : Nat)
    (record : PidContainer Thread) (thread : Thread) : Prop :=
  (after.onList thread address = true ↔
      record.threadList.length < rtemsMaxProcessLimit - 1) ∧
    (after.onList thread address = true →
      ∃ vid, IsLeast {vid | 1 ≤ vid ∧ ¬ record.Used vid} vid ∧
        after.Assigned objectId thread address vid)

/-- Both operations admit a new thread, offered directly or by a source that
can give it up, by the number of members alone. -/
structure AdmitsUniformly (objectId : Thread → ObjectsId) (system : PidSystem Thread)
    (address : Nat) (record : PidContainer Thread) (thread : Thread) : Prop where
  added : Admits objectId
    (system.rtemsPidContainerAddTask objectId (some address) (some thread) true) address record
      thread
  moved : ∀ srcContainer src, srcContainer ≠ address →
    system.containers srcContainer = some src → 0 < src.rc → thread ∈ src.threadList →
      Admits objectId
        (system.rtemsPidContainerMoveTask objectId (some srcContainer) (some address)
          (some thread) fun _ => true) address record thread

variable {system : PidSystem Thread} {address : Nat} {record : PidContainer Thread}
  {thread : Thread}

theorem onList_of_assigned {vid : Nat} (assigned : system.Assigned objectId thread address vid) :
    system.onList thread address = true := by
  obtain ⟨record, found, listed, -⟩ := assigned
  simp [onList, found, listed]

private theorem onList_of_found (found : system.containers address = some record) :
    system.onList thread address = true ↔ thread ∈ record.threadList := by
  simp [onList, found]

theorem admits_of_assigned (room : record.threadList.length < rtemsMaxProcessLimit - 1)
    (assigned : ∃ vid, IsLeast {vid | 1 ≤ vid ∧ ¬ record.Used vid} vid ∧
      system.Assigned objectId thread address vid) :
    Admits objectId system address record thread := by
  obtain ⟨vid, least, given⟩ := assigned
  exact ⟨iff_of_true (onList_of_assigned given) room, fun _ => ⟨vid, least, given⟩⟩

theorem admits_of_refused (full : rtemsMaxProcessLimit - 1 ≤ record.threadList.length)
    (refused : ¬ system.onList thread address = true) :
    Admits objectId system address record thread :=
  ⟨iff_of_false refused (Nat.not_lt.mpr full), fun admitted => absurd admitted refused⟩

theorem addTask_assigned (tallied : record.Tallied objectId)
    (found : system.containers address = some record)
    (room : record.pidCount < rtemsMaxProcessLimit - 1) :
    ∃ vid, IsLeast {vid | 1 ≤ vid ∧ ¬ record.Used vid} vid ∧
      (system.rtemsPidContainerAddTask objectId (some address) (some thread) true).Assigned
        objectId thread address vid := by
  have least := tallied.numbered.takeVid_least
  have stored : (system.rtemsPidContainerAddTask objectId (some address) (some thread)
      true).containers address = some (record.addTask objectId thread true) := by
    simp only [rtemsPidContainerAddTask, found]
    exact store_same ..
  refine ⟨record.takeVid.1, least, _, stored, ?_, ⟨least.1.1, ?_⟩, ?_⟩
  · simp [PidContainer.addTask_admitted room]
  · simp [PidContainer.addTask_admitted room, PidContainer.setSlot]
  · simp [PidContainer.addTask_admitted room, PidContainer.setSlot]

theorem addTask_not_onList (found : system.containers address = some record)
    (full : rtemsMaxProcessLimit - 1 ≤ record.pidCount) (absent : thread ∉ record.threadList) :
    ¬ (system.rtemsPidContainerAddTask objectId (some address) (some thread) true).onList
      thread address = true := by
  have stored : (system.rtemsPidContainerAddTask objectId (some address) (some thread)
      true).containers address = some record := by
    simp only [rtemsPidContainerAddTask, found, PidContainer.addTask_refused full]
    exact store_same ..
  rw [onList_of_found stored]
  exact absent

variable {srcContainer : Nat} {src : PidContainer Thread}

theorem moveTask_assigned (injective : Injective objectId)
    (nonzero : ∀ thread, objectId thread ≠ 0) (tallied : system.Tallied objectId)
    (found : system.containers address = some record) (different : srcContainer ≠ address)
    (srcFound : system.containers srcContainer = some src) (referenced : 0 < src.rc)
    (listed : thread ∈ src.threadList) (absent : thread ∉ record.threadList)
    (room : record.freeVidList ≠ [] ∨ record.pidCount < rtemsMaxProcessLimit - 1) :
    ∃ vid, IsLeast {vid | 1 ≤ vid ∧ ¬ record.Used vid} vid ∧
      (system.rtemsPidContainerMoveTask objectId (some srcContainer) (some address) (some thread)
        fun _ => true).Assigned objectId thread address vid := by
  have srcTallied := tallied srcContainer src srcFound
  have least := (tallied address record found).numbered.takeVid_least
  obtain ⟨vid, slot⟩ := Option.isSome_iff_exists.mp (srcTallied.usedSlotOf_isSome nonzero listed)
  have records : moveRecords objectId src record thread true =
      some (leaveSource src thread vid,
        joinDest objectId record.takeVid.2 thread record.takeVid.1) := by
    have taken : moveVid record true = some record.takeVid :=
      PidContainer.moveVid_eq_some.mpr ⟨PidContainer.canTake_iff.mpr room, rfl⟩
    simp [moveRecords, Int.not_le.mpr referenced, listed, slot, absent, taken]
  obtain ⟨leftTallied, joinedTallied⟩ := PidContainer.moveRecords_tallied injective nonzero
    srcTallied (tallied address record found) records
  obtain ⟨pointed, isPointed⟩ : ∃ pointed, pointed =
      ((system.store srcContainer (some (leaveSource src thread vid))).store address
        (some (joinDest objectId record.takeVid.2 thread record.takeVid.1))).redirect thread
          srcContainer address := ⟨_, rfl⟩
  have pointedTallied : pointed.Tallied objectId := by
    rw [isPointed]
    exact ((tallied.store_some leftTallied).store_some joinedTallied).redirect
  have given : pointed.Assigned objectId thread address record.takeVid.1 := by
    refine ⟨joinDest objectId record.takeVid.2 thread record.takeVid.1, ?_, ?_, ⟨least.1.1, ?_⟩, ?_⟩
    · rw [isPointed, redirect_containers, store_same]
    · rw [PidContainer.joinDest_threadList]
      exact List.mem_cons_self
    · rw [PidContainer.joinDest_pidArray_self]
    · rw [PidContainer.joinDest_pidArray_self]
  refine ⟨record.takeVid.1, least, ?_⟩
  simp only [rtemsPidContainerMoveTask, different, ↓reduceIte, srcFound, found, records,
    ← isPointed]
  split
  next => exact (delete_keeps nonzero pointedTallied (Ne.symm different)).assigned given
  next => exact given

theorem moveTask_not_onList (found : system.containers address = some record)
    (full : ¬ (record.freeVidList ≠ [] ∨ record.pidCount < rtemsMaxProcessLimit - 1))
    (different : srcContainer ≠ address) (absent : thread ∉ record.threadList) :
    ¬ (system.rtemsPidContainerMoveTask objectId (some srcContainer) (some address)
      (some thread) fun _ => true).onList thread address = true := by
  have none : ∀ src, moveRecords objectId src record thread true = none := by
    intro src
    refine Option.eq_none_iff_forall_ne_some.mpr fun moved made => full ?_
    unfold moveRecords at made
    split at made
    · contradiction
    split at made
    · contradiction
    split at made
    · contradiction
    obtain ⟨taken, takenEq, -⟩ := Option.map_eq_some_iff.mp made
    exact (PidContainer.moveVid_eq_some.mp takenEq).1.room
  have unchanged : system.rtemsPidContainerMoveTask objectId (some srcContainer) (some address)
      (some thread) (fun _ => true) = system := by
    simp only [rtemsPidContainerMoveTask, different, ↓reduceIte, found]
    cases system.containers srcContainer with
    | none => rfl
    | some src => simp only [none src]
  rw [unchanged, onList_of_found found]
  exact absent

/-- The two operations agree on a new thread exactly when the highest VID has
never been given out, or all VIDs belong to members. -/
theorem admitsUniformly_iff (injective : Injective objectId)
    (nonzero : ∀ thread, objectId thread ≠ 0) (tallied : system.Tallied objectId)
    (found : system.containers address = some record) (absent : thread ∉ record.threadList) :
    AdmitsUniformly objectId system address record thread ↔
      record.pidCount < rtemsMaxProcessLimit - 1 ∨
        record.threadList.length = rtemsMaxProcessLimit - 1 := by
  have recordTallied := tallied address record found
  have listLe := recordTallied.length_le injective nonzero
  have countLt := recordTallied.numbered.count_lt
  constructor
  · intro uniform
    by_cases room : record.pidCount < rtemsMaxProcessLimit - 1
    · exact .inl room
    · have full : ¬ record.threadList.length < rtemsMaxProcessLimit - 1 :=
        fun few => addTask_not_onList found (Nat.not_lt.mp room) absent (uniform.added.1.mpr few)
      exact .inr (by omega)
  · rintro (room | full)
    · have few : record.threadList.length < rtemsMaxProcessLimit - 1 := by omega
      constructor
      · exact admits_of_assigned few (addTask_assigned recordTallied found room)
      · intro srcContainer src different srcFound referenced listed
        exact admits_of_assigned few (moveTask_assigned injective nonzero tallied found different
          srcFound referenced listed absent (.inr room))
    · have noFree : record.freeVidList = [] := List.length_eq_zero_iff.mp (by omega)
      have counted : ¬ record.pidCount < rtemsMaxProcessLimit - 1 := by omega
      constructor
      · exact admits_of_refused (Nat.le_of_eq full.symm)
          (addTask_not_onList found (Nat.not_lt.mp counted) absent)
      · intro srcContainer src different srcFound referenced listed
        refine admits_of_refused (Nat.le_of_eq full.symm)
          (moveTask_not_onList found ?_ different absent)
        rintro (free | room)
        · exact free noFree
        · exact counted room

end Admission

end PidSystem

theorem pidRun_tallied (injective : Injective objectId)
    (nonzero : ∀ thread, objectId thread ≠ 0) (root : Nat) (calls : List (PidCall Thread)) :
    Throughout (PidCall.step objectId) (PidSystem.Tallied objectId)
      (PidSystem.rtemsPidContainerInitializeRoot root) calls := by
  have anyCall : Meets (PidCall.step objectId) (fun _ _ => True)
      (PidSystem.rtemsPidContainerInitializeRoot root) calls :=
    meets_of_forall (fun _ _ => trivial) _ calls
  exact throughout_of_preserved (PidSystem.initializeRoot_tallied objectId root)
    (fun _ _ tallied _ => tallied.step injective nonzero) anyCall

/-- In every state that any run reaches, whatever it calls and whichever
allocations fail, the two operations admit a new thread by the number of
members, under the smallest VID not in use, exactly when the highest VID of the
container has never been given out or all its VIDs belong to members. -/
theorem pidRun_admitsUniformly_iff (injective : Injective objectId)
    (nonzero : ∀ thread, objectId thread ≠ 0) (root : Nat) (calls : List (PidCall Thread)) :
    Throughout (PidCall.step objectId)
      (fun system => ∀ address record thread, system.containers address = some record →
        thread ∉ record.threadList →
          (system.AdmitsUniformly objectId address record thread ↔
            record.pidCount < rtemsMaxProcessLimit - 1 ∨
              record.threadList.length = rtemsMaxProcessLimit - 1))
      (PidSystem.rtemsPidContainerInitializeRoot root) calls :=
  (pidRun_tallied injective nonzero root calls).imp
    fun _ tallied _ _ _ found absent =>
      PidSystem.admitsUniformly_iff injective nonzero tallied found absent

/-- One of two tasks is in the root; the other would be admitted both ways. -/
theorem oneInRoot_admitsUniformly :
    (run (PidCall.step twoTaskIds) (PidSystem.rtemsPidContainerInitializeRoot 0)
      [.addTask (some 0) (some 0) true]).AdmitsUniformly twoTaskIds 0
        ((PidContainer.initial 1).addTask twoTaskIds 0 true) 1 :=
  ((pidRun_admitsUniformly_iff twoTaskIds_injective twoTaskIds_nonzero 0
    [.addTask (some 0) (some 0) true]).final 0 _ 1 rfl (by decide)).mpr (.inl (by decide))

instance (priority := high) neZero_vids : NeZero 1023 := ⟨by decide⟩

/-- The object identifiers of as many tasks as a container has VIDs. -/
def fullTaskIds (task : Fin 1023) : ObjectsId := BitVec.ofNat 32 (0x0a010001 + task)

theorem fullTaskIds_toNat (task : Fin 1023) : (fullTaskIds task).toNat = 0x0a010001 + task := by
  have below := task.isLt
  simp only [fullTaskIds, BitVec.toNat_ofNat]
  omega

theorem fullTaskIds_injective : Injective fullTaskIds := by
  intro left right same
  have natSame := congrArg BitVec.toNat same
  rw [fullTaskIds_toNat, fullTaskIds_toNat] at natSame
  exact Fin.ext (by omega)

theorem fullTaskIds_nonzero (task : Fin 1023) : fullTaskIds task ≠ 0 := by
  intro zero
  have natZero := congrArg BitVec.toNat zero
  rw [fullTaskIds_toNat] at natZero
  simp at natZero

variable {tasks : List (Fin 1023)}

theorem run_addTask_filled {system : PidSystem (Fin 1023)} {record : PidContainer (Fin 1023)}
    {address : Nat} (found : system.containers address = some record)
    (counted : record.rc = record.pidCount ∧ record.freeVidList = [])
    (room : record.pidCount + tasks.length ≤ rtemsMaxProcessLimit - 1) :
    let after := run (PidCall.step fullTaskIds) system
      (tasks.map fun task => .addTask (some address) (some task) true)
    after.root = system.root ∧ ∃ filled, after.containers address = some filled ∧
      filled.rc = filled.pidCount ∧ filled.pidCount = record.pidCount + tasks.length ∧
      filled.threadList = tasks.reverse ++ record.threadList := by
  induction tasks generalizing system record with
  | nil => exact ⟨rfl, record, found, counted.1, rfl, rfl⟩
  | cons task rest ih =>
    obtain ⟨rcEq, noFree⟩ := counted
    rw [List.length_cons] at room
    have below : record.pidCount < rtemsMaxProcessLimit - 1 := by omega
    have taken : record.takeVid =
        (record.pidCount + 1, { record with pidCount := record.pidCount + 1 }) := by
      simp [PidContainer.takeVid, noFree]
    have stepped : PidCall.step fullTaskIds system
        (.addTask (some address) (some task) true) =
          system.store address (some (record.addTask fullTaskIds task true)) := by
      simp only [PidCall.step, PidSystem.rtemsPidContainerAddTask, found]
    obtain ⟨added, isAdded⟩ : ∃ added, added = record.addTask fullTaskIds task true := ⟨_, rfl⟩
    have addedEq := isAdded.trans (PidContainer.addTask_admitted below)
    rw [taken] at addedEq
    have addedRc : added.rc = added.pidCount := by
      rw [addedEq]
      simp [PidContainer.setSlot, rcEq]
    have addedFree : added.freeVidList = [] := by
      rw [addedEq]
      exact noFree
    have addedCount : added.pidCount = record.pidCount + 1 := by rw [addedEq]; rfl
    have addedList : added.threadList = task :: record.threadList := by rw [addedEq]; rfl
    obtain ⟨rootEq, filled, filledFound, filledRc, filledCount, filledList⟩ :=
      ih (PidSystem.store_same system address (some added)) ⟨addedRc, addedFree⟩ (by omega)
    rw [List.map_cons, run_cons, stepped, ← isAdded]
    refine ⟨rootEq, filled, filledFound, filledRc, ?_, ?_⟩
    · rw [filledCount, addedCount, List.length_cons]
      omega
    · rw [filledList, addedList]
      simp

theorem run_fill_root (full : tasks.length = 1023) (member : 0 ∈ tasks) :
    let after := run (PidCall.step fullTaskIds) (PidSystem.rtemsPidContainerInitializeRoot 0)
      (tasks.map fun task => .addTask (some 0) (some task) true)
    after.root = 0 ∧ ∃ filled, after.containers 0 = some filled ∧
      filled.Tallied fullTaskIds ∧ filled.rc = 1023 ∧ filled.pidCount = 1023 ∧
      filled.threadList = tasks.reverse ∧ 0 ∈ filled.threadList := by
  have limit : rtemsMaxProcessLimit = 1024 := rfl
  have initialFound : (PidSystem.rtemsPidContainerInitializeRoot 0 :
      PidSystem (Fin 1023)).containers 0 = some (PidContainer.initial 1) := rfl
  have room : (PidContainer.initial 1 : PidContainer (Fin 1023)).pidCount + tasks.length ≤
      rtemsMaxProcessLimit - 1 := by
    simp only [PidContainer.initial]
    omega
  obtain ⟨rootEq, filled, found, rcEq, countEq, listEq⟩ :=
    run_addTask_filled initialFound ⟨rfl, rfl⟩ room
  simp only [PidContainer.initial, List.append_nil, Nat.zero_add] at countEq listEq
  have tallied := (pidRun_tallied fullTaskIds_injective fullTaskIds_nonzero 0
    (tasks.map fun task => .addTask (some 0) (some task) true)).final 0 filled found
  refine ⟨rootEq, filled, found, tallied, by omega, by omega, listEq, ?_⟩
  rw [listEq]
  exact List.mem_reverse.mpr member

/-- All tasks join the root, then one of them leaves. -/
def fillAndLeave (tasks : List (Fin 1023)) : List (PidCall (Fin 1023)) :=
  (tasks.map fun task => .addTask (some 0) (some task) true) ++
    [.removeTask (some 0) (some 0) fun _ => true]

theorem not_admitsUniformly_of_full (full : tasks.length = 1023) (nodup : tasks.Nodup)
    (member : 0 ∈ tasks) :
    ¬ ∀ address record thread,
      (run (PidCall.step fullTaskIds) (PidSystem.rtemsPidContainerInitializeRoot 0)
        (fillAndLeave tasks)).containers address = some record →
      thread ∉ record.threadList →
        (run (PidCall.step fullTaskIds) (PidSystem.rtemsPidContainerInitializeRoot 0)
          (fillAndLeave tasks)).AdmitsUniformly fullTaskIds address record thread := by
  intro always
  have limit : rtemsMaxProcessLimit = 1024 := rfl
  obtain ⟨-, filled, found, tallied, rcEq, countEq, listEq, listed⟩ := run_fill_root full member
  obtain ⟨index, slot⟩ := Option.isSome_iff_exists.mp (tallied.slotOf_isSome listed)
  have referenced : ¬ filled.rc ≤ 0 := by omega
  have still : ¬ filled.rc - 1 = 0 := by omega
  have removed : filled.removeTask fullTaskIds 0 true =
      some { filled.releaseSlot index (filled.pidArray index).vid with
        threadList := filled.threadList.erase 0, rc := filled.rc - 1 } := by
    simp [PidContainer.removeTask, referenced, slot, PidContainer.releaseSlot, PidContainer.setSlot]
  have final : (run (PidCall.step fullTaskIds) (PidSystem.rtemsPidContainerInitializeRoot 0)
      (fillAndLeave tasks)).containers 0 =
        some { filled.releaseSlot index (filled.pidArray index).vid with
          threadList := filled.threadList.erase 0, rc := filled.rc - 1 } := by
    rw [fillAndLeave, run_append]
    simp only [run_cons, run_nil, PidCall.step, PidSystem.rtemsPidContainerRemoveTask, found,
      Option.bind_some, removed, still, ↓reduceIte]
    exact PidSystem.store_same ..
  have gone : (0 : Fin 1023) ∉ filled.threadList.erase 0 := by
    rw [listEq]
    exact (List.nodup_reverse.mpr nodup).not_mem_erase
  have left : (filled.threadList.erase 0).length = 1022 := by
    rw [List.length_erase_of_mem listed, listEq, List.length_reverse, full]
  have finalTallied := (pidRun_tallied fullTaskIds_injective fullTaskIds_nonzero 0
    (fillAndLeave tasks)).final
  rcases (PidSystem.admitsUniformly_iff fullTaskIds_injective fullTaskIds_nonzero finalTallied
    final gone).mp (always 0 _ 0 final gone) with below | again
  · have below : filled.pidCount < rtemsMaxProcessLimit - 1 := below
    omega
  · have again : (filled.threadList.erase 0).length = rtemsMaxProcessLimit - 1 := again
    omega

theorem fillAndLeave_refuses :
    ¬ Throughout (PidCall.step fullTaskIds)
      (fun system => ∀ address record thread, system.containers address = some record →
        thread ∉ record.threadList → system.AdmitsUniformly fullTaskIds address record thread)
      (PidSystem.rtemsPidContainerInitializeRoot 0) (fillAndLeave (List.finRange 1023)) :=
  mt Throughout.final (not_admitsUniformly_of_full List.length_finRange
    (List.nodup_finRange 1023) (List.mem_finRange 0))

end RTContainer.Score
