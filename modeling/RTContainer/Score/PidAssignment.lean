import RTContainer.Score.PidRuns
import RTContainer.Score.PidVids

/-! Which thread has which VID in which PID container, read off the records of
the containers, and what a move changes in it. -/

set_option autoImplicit false

namespace RTContainer.Score

open Function

variable {Thread : Type} {objectId : Thread → ObjectsId}

def PidSystem.Assigned (objectId : Thread → ObjectsId) (system : PidSystem Thread)
    (thread : Thread) (address vid : Nat) : Prop :=
  ∃ record, system.containers address = some record ∧ thread ∈ record.threadList ∧
    record.Used vid ∧ (record.pidArray vid).id = objectId thread

namespace PidContainer

/-- The representation invariant with the reference count: the count covers the
members, and what it exceeds them by are the handles. -/
structure Represented (objectId : Thread → ObjectsId) (container : PidContainer Thread) :
    Prop where
  valid : container.Valid objectId
  counted : ∃ handles : Nat, container.rc = container.threadList.length + handles

section Keep

variable {container : PidContainer Thread}

variable {thread : Thread} {malloc : Bool} {vid : Nat} {root : PidContainer Thread}
variable {members : List Thread}

theorem Numbered.addTask (numbered : container.Numbered) :
    (container.addTask objectId thread malloc).Numbered := by
  by_cases room : container.pidCount < rtemsMaxProcessLimit - 1
  · rw [addTask_admitted room]
    exact (numbered.fill (.inr room)).congr rfl rfl rfl
  · rw [addTask_refused (Nat.not_lt.mp room)]
    exact numbered

theorem Numbered.addTask_pidArray (numbered : container.Numbered) (used : container.Used vid) :
    (container.addTask objectId thread malloc).pidArray vid = container.pidArray vid := by
  by_cases room : container.pidCount < rtemsMaxProcessLimit - 1
  · have different : vid ≠ container.takeVid.1 :=
      fun same => numbered.takeVid_unused (same ▸ used)
    rw [addTask_admitted room]
    simp [setSlot, different]
  · rw [addTask_refused (Nat.not_lt.mp room)]

theorem subset_addTask :
    container.threadList ⊆ (container.addTask objectId thread malloc).threadList := by
  intro member listed
  by_cases room : container.pidCount < rtemsMaxProcessLimit - 1
  · rw [addTask_admitted room]
    cases malloc
    · exact listed
    · exact .tail _ listed
  · rw [addTask_refused (Nat.not_lt.mp room)]
    exact listed

theorem Numbered.rehomed_pidArray {malloc : Nat → Bool} (numbered : root.Numbered)
    (used : root.Used vid) :
    (PidContainer.rehomed objectId malloc root members).pidArray vid = root.pidArray vid := by
  induction members generalizing malloc root with
  | nil => rfl
  | cons first rest ih =>
    have kept : (root.addTask objectId first (malloc 0)).pidArray vid = root.pidArray vid :=
      numbered.addTask_pidArray used
    have stillUsed : (root.addTask objectId first (malloc 0)).Used vid := by
      simpa only [Used, kept] using used
    exact (ih numbered.addTask stillUsed).trans kept

theorem subset_rehomed {malloc : Nat → Bool} :
    root.threadList ⊆ (PidContainer.rehomed objectId malloc root members).threadList := by
  induction members generalizing malloc root with
  | nil => exact List.Subset.refl _
  | cons first rest ih => exact List.Subset.trans subset_addTask ih

end Keep

section Records

variable [DecidableEq Thread] {container : PidContainer Thread} {thread : Thread} {vid other : Nat}

theorem leaveSource_pidArray (different : other ≠ vid) :
    (PidSystem.leaveSource container thread vid).pidArray other = container.pidArray other := by
  simp [PidSystem.leaveSource, releaseSlot, setSlot, different]

theorem leaveSource_used (positive : 1 ≤ vid) :
    (PidSystem.leaveSource container thread vid).Used other ↔
      container.Used other ∧ other ≠ vid := by
  by_cases same : other = vid
  · simp only [Used, PidSystem.leaveSource, releaseSlot, setSlot, same, update_self]
    omega
  · simp [Used, leaveSource_pidArray same, same]

section

omit [DecidableEq Thread]

theorem joinDest_pidArray_other (different : other ≠ container.takeVid.1) :
    (PidSystem.joinDest objectId container.takeVid.2 thread container.takeVid.1).pidArray other =
      container.pidArray other := by
  simp [PidSystem.joinDest, setSlot, different]

theorem joinDest_pidArray_self :
    (PidSystem.joinDest objectId container.takeVid.2 thread container.takeVid.1).pidArray
      container.takeVid.1 = ⟨container.takeVid.1, objectId thread⟩ := by
  simp [PidSystem.joinDest, setSlot]

theorem joinDest_threadList :
    (PidSystem.joinDest objectId container.takeVid.2 thread container.takeVid.1).threadList =
      thread :: container.threadList := by
  simp [PidSystem.joinDest, setSlot]

end

end Records

end PidContainer

namespace PidSystem

variable [DecidableEq Thread] {system : PidSystem Thread}

variable {malloc : Nat → Bool} {srcContainer destContainer : Nat} {src dest : PidContainer Thread}
variable {thread : Thread}

private theorem rtemsPidContainerDelete_of_empty {deleted : Nat} {record : PidContainer Thread}
    (different : deleted ≠ system.root) (found : system.containers deleted = some record)
    (empty : record.threadList = []) :
    system.rtemsPidContainerDelete objectId (some deleted) malloc =
      { system.store deleted none with registry := system.registry.erase deleted } := by
  simp [rtemsPidContainerDelete, different, found, empty, rehome, store]

/-- The effect of a move that goes through. Only the records of the two
containers and the pointer of the thread change. -/
structure Moved (objectId : Thread → ObjectsId) (before after : PidSystem Thread)
    (srcContainer destContainer : Nat) (src dest : PidContainer Thread) (thread : Thread) :
    Prop where
  /-- The VID of the thread, and no other, is given back and is free in the source. -/
  vacated : ∃ vid, before.Assigned objectId thread srcContainer vid ∧
    ∀ left, after.containers srcContainer = some left →
      vid ∈ left.freeVidList ∧ left.threadList = src.threadList.erase thread ∧
        ∀ other, left.Used other ↔ src.Used other ∧ other ≠ vid
  /-- The thread is gone from the source. -/
  gone : ∀ vid, ¬ after.Assigned objectId thread srcContainer vid
  /-- The source is given up only with its last reference. -/
  released : after.containers srcContainer = none →
    src.rc = 1 ∧ src.threadList = [thread] ∧ srcContainer ≠ before.root
  /-- The thread has joined the destination under the smallest VID not in use. -/
  joined : ∃ vid, IsLeast {vid | 1 ≤ vid ∧ ¬ dest.Used vid} vid ∧
    ∀ other, after.Assigned objectId thread destContainer other ↔ other = vid
  /-- All other threads keep their containers, VIDs and pointers. -/
  others : ∀ other, other ≠ thread → ∀ address vid,
    after.Assigned objectId other address vid ↔ before.Assigned objectId other address vid
  elsewhere : ∀ address, address ≠ srcContainer → address ≠ destContainer →
    after.containers address = before.containers address
  pointers : ∀ other, after.pidContainer other =
    if other = thread ∧ before.pidContainer other = some srcContainer then some destContainer
    else before.pidContainer other

theorem Moved.of_records {after : PidSystem Thread} {vid : Nat}
    (injective : Injective objectId) (srcValid : src.Valid objectId)
    (destValid : dest.Valid objectId) (srcFound : system.containers srcContainer = some src)
    (destFound : system.containers destContainer = some dest) (listed : thread ∈ src.threadList)
    (absent : thread ∉ dest.threadList) (used : src.Used vid)
    (named : (src.pidArray vid).id = objectId thread)
    (srcAfter : after.containers srcContainer = some (leaveSource src thread vid) ∨
      after.containers srcContainer = none ∧ src.rc = 1 ∧ src.threadList = [thread] ∧
        srcContainer ≠ system.root) (destAfter : after.containers destContainer =
      some (joinDest objectId dest.takeVid.2 thread dest.takeVid.1))
    (elsewhere : ∀ address, address ≠ srcContainer → address ≠ destContainer →
      after.containers address = system.containers address)
    (pointers : ∀ other, after.pidContainer other =
      if other = thread ∧ system.pidContainer other = some srcContainer then some destContainer
      else system.pidContainer other) :
    Moved objectId system after srcContainer destContainer src dest thread := by
  have positive : 1 ≤ vid := used.1
  have least := destValid.numbered.takeVid_least
  have mem_left : ∀ member, member ∈ (leaveSource src thread vid).threadList ↔
      member ≠ thread ∧ member ∈ src.threadList :=
    fun member => srcValid.threads_nodup.mem_erase_iff
  constructor
  case vacated =>
    refine ⟨vid, ⟨src, srcFound, listed, used, named⟩, ?_⟩
    intro left leftFound
    rcases srcAfter with kept | ⟨freed, -⟩
    · obtain rfl : leaveSource src thread vid = left :=
        Option.some.inj (kept.symm.trans leftFound)
      exact ⟨PidContainer.mem_insertFreeVid.mpr (.inl rfl), rfl,
        fun other => PidContainer.leaveSource_used positive⟩
    · rw [freed] at leftFound
      contradiction
  case gone =>
    rintro other ⟨left, leftFound, still, -⟩
    rcases srcAfter with kept | ⟨freed, -⟩
    · obtain rfl : leaveSource src thread vid = left :=
        Option.some.inj (kept.symm.trans leftFound)
      exact ((mem_left thread).mp still).1 rfl
    · rw [freed] at leftFound
      contradiction
  case released =>
    intro freed
    rcases srcAfter with kept | ⟨-, released⟩
    · rw [kept] at freed
      contradiction
    · exact released
  case joined =>
    refine ⟨dest.takeVid.1, least, ?_⟩
    intro other
    constructor
    · rintro ⟨joined, joinedFound, -, otherUsed, otherNamed⟩
      obtain rfl := Option.some.inj (destAfter.symm.trans joinedFound)
      by_contra different
      rw [PidContainer.Used, PidContainer.joinDest_pidArray_other different] at otherUsed
      rw [PidContainer.joinDest_pidArray_other different] at otherNamed
      exact absent (destValid.mem_of_used injective otherUsed otherNamed)
    · rintro rfl
      refine ⟨_, destAfter, ?_, ⟨least.1.1, ?_⟩, ?_⟩
      · rw [PidContainer.joinDest_threadList]
        exact List.mem_cons_self
      · rw [PidContainer.joinDest_pidArray_self]
      · rw [PidContainer.joinDest_pidArray_self]
  case others =>
    intro other different address otherVid
    by_cases isSrc : address = srcContainer
    · subst address
      have away : src.Used otherVid → (src.pidArray otherVid).id = objectId other →
          otherVid ≠ vid := by
        rintro - otherNamed rfl
        exact different (injective (otherNamed.symm.trans named))
      constructor
      · rintro ⟨left, leftFound, still, leftUsed, leftNamed⟩
        rcases srcAfter with kept | ⟨freed, -⟩
        · obtain rfl : leaveSource src thread vid = left :=
            Option.some.inj (kept.symm.trans leftFound)
          obtain ⟨srcUsed, otherNe⟩ := (PidContainer.leaveSource_used positive).mp leftUsed
          rw [PidContainer.leaveSource_pidArray otherNe] at leftNamed
          exact ⟨src, srcFound, ((mem_left other).mp still).2, srcUsed, leftNamed⟩
        · rw [freed] at leftFound
          contradiction
      · rintro ⟨record, recordFound, otherListed, otherUsed, otherNamed⟩
        obtain rfl : src = record := Option.some.inj (srcFound.symm.trans recordFound)
        have otherNe := away otherUsed otherNamed
        rcases srcAfter with kept | ⟨-, -, only, -⟩
        · refine ⟨_, kept, (mem_left other).mpr ⟨different, otherListed⟩,
            (PidContainer.leaveSource_used positive).mpr ⟨otherUsed, otherNe⟩, ?_⟩
          rw [PidContainer.leaveSource_pidArray otherNe]
          exact otherNamed
        · rw [only] at otherListed
          exact absurd (List.mem_singleton.mp otherListed) different
    · by_cases isDest : address = destContainer
      · subst address
        constructor
        · rintro ⟨joined, joinedFound, joinedListed, joinedUsed, joinedNamed⟩
          obtain rfl := Option.some.inj (destAfter.symm.trans joinedFound)
          rw [PidContainer.joinDest_threadList] at joinedListed
          have otherNe : otherVid ≠ dest.takeVid.1 := by
            rintro rfl
            rw [PidContainer.joinDest_pidArray_self] at joinedNamed
            exact different (injective joinedNamed.symm)
          rw [PidContainer.Used, PidContainer.joinDest_pidArray_other otherNe] at joinedUsed
          rw [PidContainer.joinDest_pidArray_other otherNe] at joinedNamed
          exact ⟨dest, destFound, (List.mem_cons.mp joinedListed).resolve_left different,
            joinedUsed, joinedNamed⟩
        · rintro ⟨record, recordFound, otherListed, otherUsed, otherNamed⟩
          obtain rfl : dest = record := Option.some.inj (destFound.symm.trans recordFound)
          have otherNe : otherVid ≠ dest.takeVid.1 := by
            rintro rfl
            exact destValid.numbered.takeVid_unused otherUsed
          refine ⟨_, destAfter, ?_, ?_, ?_⟩
          · rw [PidContainer.joinDest_threadList]
            exact .tail _ otherListed
          · rw [PidContainer.Used, PidContainer.joinDest_pidArray_other otherNe]
            exact otherUsed
          · rw [PidContainer.joinDest_pidArray_other otherNe]
            exact otherNamed
      · simp only [Assigned, elsewhere address isSrc isDest]
  case elsewhere => exact elsewhere
  case pointers => exact pointers

/-- A move whose destination can take the thread does all that `Moved` says. -/
theorem Moved.of_move (injective : Injective objectId)
    (nonzero : ∀ thread, objectId thread ≠ 0) (different : srcContainer ≠ destContainer)
    (srcFound : system.containers srcContainer = some src)
    (destFound : system.containers destContainer = some dest)
    (srcRepresented : src.Represented objectId) (destValid : dest.Valid objectId)
    (listed : thread ∈ src.threadList) (absent : thread ∉ dest.threadList)
    (can : dest.CanTake (malloc 0)) :
    Moved objectId system
      (system.rtemsPidContainerMoveTask objectId (some srcContainer) (some destContainer)
        (some thread) malloc) srcContainer destContainer src dest thread := by
  obtain ⟨srcValid, handles, counted⟩ := srcRepresented
  obtain ⟨vid, used, named⟩ := srcValid.slotted thread listed
  have occupied := List.length_pos_of_mem listed
  have records : moveRecords objectId src dest thread (malloc 0) =
      some (leaveSource src thread vid, joinDest objectId dest.takeVid.2 thread dest.takeVid.1) :=
    (PidContainer.moveRecords_eq_some nonzero srcValid).mpr
      ⟨by omega, listed, absent, can, vid, used, named, rfl⟩
  obtain ⟨pointed, isPointed⟩ : ∃ pointed, pointed =
      ((system.store srcContainer (some (leaveSource src thread vid))).store destContainer
        (some (joinDest objectId dest.takeVid.2 thread dest.takeVid.1))).redirect thread
          srcContainer destContainer := ⟨_, rfl⟩
  have pointedRoot : pointed.root = system.root := by rw [isPointed, redirect_root]; rfl
  have pointedSrc : pointed.containers srcContainer = some (leaveSource src thread vid) := by
    rw [isPointed, redirect_containers, store_other _ _ different, store_same]
  have pointedDest : pointed.containers destContainer =
      some (joinDest objectId dest.takeVid.2 thread dest.takeVid.1) := by
    rw [isPointed, redirect_containers, store_same]
  have pointedElsewhere : ∀ address, address ≠ srcContainer → address ≠ destContainer →
      pointed.containers address = system.containers address := by
    intro address awaySrc awayDest
    rw [isPointed, redirect_containers, store_other _ _ awayDest, store_other _ _ awaySrc]
  have pointedPointers : ∀ other, pointed.pidContainer other =
      if other = thread ∧ system.pidContainer other = some srcContainer then some destContainer
      else system.pidContainer other := by
    intro other
    rw [isPointed, redirect_eq]
    rfl
  simp only [rtemsPidContainerMoveTask, different, ↓reduceIte, srcFound, destFound, records,
    ← isPointed]
  split
  next last =>
    -- Only this thread referenced the source, so its list is empty now.
    have only : src.rc = 1 := by
      have : src.rc - 1 = 0 := last
      omega
    have single : src.threadList = [thread] := by
      have counted : src.threadList.length = 1 := by omega
      obtain ⟨member, isMember⟩ := List.length_eq_one_iff.mp counted
      rw [isMember] at listed ⊢
      rw [List.mem_singleton.mp listed]
    by_cases isRoot : srcContainer = system.root
    · simp only [rtemsPidContainerDelete, pointedRoot, isRoot, ↓reduceIte]
      rw [← isRoot]
      exact .of_records injective srcValid destValid srcFound destFound listed absent used named
        (.inl pointedSrc) pointedDest pointedElsewhere pointedPointers
    · have empty : (leaveSource src thread vid).threadList = [] := by
        change src.threadList.erase thread = []
        rw [single, List.erase_cons_head]
      rw [rtemsPidContainerDelete_of_empty (pointedRoot ▸ isRoot) pointedSrc empty]
      refine .of_records injective srcValid destValid srcFound destFound listed absent used named
        (.inr ⟨store_same .., only, single, isRoot⟩) ?_ ?_ pointedPointers
      · exact (store_other _ _ (Ne.symm different)).trans pointedDest
      · intro address awaySrc awayDest
        exact (store_other _ _ awaySrc).trans (pointedElsewhere address awaySrc awayDest)
  next =>
    exact .of_records injective srcValid destValid srcFound destFound listed absent used named
      (.inl pointedSrc) pointedDest pointedElsewhere pointedPointers

/-- A move between two live containers either changes nothing or takes the
thread with its VID from the source to the destination. It is made exactly when
the thread is on the list of the source only and the destination can take it. -/
theorem moveTask_all_or_nothing {srcContainer destContainer : Nat} {src dest : PidContainer Thread}
    {thread : Thread} {malloc : Nat → Bool} (injective : Injective objectId)
    (nonzero : ∀ thread, objectId thread ≠ 0) (different : srcContainer ≠ destContainer)
    (srcFound : system.containers srcContainer = some src)
    (destFound : system.containers destContainer = some dest)
    (srcRepresented : src.Represented objectId) (destRepresented : dest.Represented objectId) :
    let after := system.rtemsPidContainerMoveTask objectId (some srcContainer)
      (some destContainer) (some thread) malloc
    let taken := thread ∈ src.threadList ∧ thread ∉ dest.threadList ∧ dest.CanTake (malloc 0)
    (taken → Moved objectId system after srcContainer destContainer src dest thread) ∧
      (¬ taken → after = system) := by
  intro after taken
  constructor
  · rintro ⟨listed, absent, can⟩
    exact .of_move injective nonzero different srcFound destFound srcRepresented
      destRepresented.valid listed absent can
  · intro refused
    have records : moveRecords objectId src dest thread (malloc 0) = none := by
      refine Option.eq_none_iff_forall_ne_some.mpr fun moved made => refused ?_
      obtain ⟨-, listed, absent, can, -⟩ :=
        (PidContainer.moveRecords_eq_some nonzero srcRepresented.valid).mp made
      exact ⟨listed, absent, can⟩
    simp only [after, rtemsPidContainerMoveTask, different, ↓reduceIte, srcFound, destFound,
      records]

/-- Two tasks in the root and a new container. -/
def twoInRoot : PidSystem (Fin 2) :=
  Machine.run (PidCall.step twoTaskIds) (rtemsPidContainerInitializeRoot 0)
    [.create (some 1) true, .addTask (some 0) (some 0) true, .addTask (some 0) (some 1) true]

theorem twoInRoot_moved :
    Moved twoTaskIds twoInRoot
      (twoInRoot.rtemsPidContainerMoveTask twoTaskIds (some 0) (some 1) (some 0) fun _ => true) 0 1
      (((PidContainer.initial 1).addTask twoTaskIds 0 true).addTask twoTaskIds 1 true)
      (PidContainer.initial 2) 0 := by
  have one : ((PidContainer.initial 1).addTask twoTaskIds 0 true).Valid twoTaskIds :=
    (PidContainer.initial_valid _ 1).addTask twoTaskIds_injective fun _ => ⟨rfl, List.not_mem_nil⟩
  have two : (((PidContainer.initial 1).addTask twoTaskIds 0 true).addTask twoTaskIds 1
      true).Valid twoTaskIds :=
    one.addTask twoTaskIds_injective fun _ => ⟨rfl, by decide⟩
  exact (moveTask_all_or_nothing twoTaskIds_injective twoTaskIds_nonzero (by decide) rfl rfl
    ⟨two, 0, rfl⟩ ⟨PidContainer.initial_valid _ 2, 0, rfl⟩).1
      ⟨by decide, List.not_mem_nil, .inr ⟨by decide, rfl⟩⟩

end PidSystem

end RTContainer.Score
