import RTContainer.Score.ContainerEnter
import RTContainer.Score.ContainerLeave

/-! An enter of a thread that is in the root namespaces, and the leave that
follows it. -/

set_option autoImplicit false

namespace RTContainer.Score

open RTContainer.Rtems Function

variable {Thread : Type} [DecidableEq Thread] {names : ObjectNames Thread}

namespace NamespaceSystem

variable {rules : NamespaceRules} {system after : NamespaceSystem Thread}
variable {tables : ThreadTables Thread} {thread : Thread} {src dest own : Nat}
variable {srcRecord destRecord record : NamespaceContainer}

omit [DecidableEq Thread] in
theorem addRc_found {address : Nat} {delta : Int} (found : system.containers address = some record) :
    system.addRc address delta =
      some (system.store address (some { record with rc := record.rc + delta })) := by
  simp [addRc, found]

theorem leaveSource_kept (found : system.containers src = some record)
    (kept : src = system.root ∨ 1 < record.rc) :
    system.leaveSource rules tables src = system.addRc src (-1) := by
  simp only [leaveSource, addRc_found found, Option.bind_some, store_self]
  obtain rfl | more := kept
  · split
    · simp only [delete]
      exact if_pos rfl
    · rfl
  · have positive : ¬ record.rc + -1 ≤ 0 := by omega
    simp [positive]

theorem move_kept (apart : src ≠ dest) (isSrc : system.containers src = some srcRecord)
    (isDest : system.containers dest = some destRecord)
    (kept : src = system.root ∨ 1 < srcRecord.rc) :
    system.move rules tables src dest thread = some { system with
      containers := update (update system.containers src
        (some { srcRecord with rc := srcRecord.rc - 1 })) dest
        (some { destRecord with rc := destRecord.rc + 1 })
      pointer := update system.pointer thread (some dest) } := by
  have found : (system.setPointer thread dest).containers src = some srcRecord := isSrc
  unfold move
  simp only
  split
  · have counted : (system.setPointer thread dest).addRc dest 1 = some
        ((system.setPointer thread dest).store dest
          (some { destRecord with rc := destRecord.rc + 1 })) := addRc_found isDest
    have still : ((system.setPointer thread dest).store dest
        (some { destRecord with rc := destRecord.rc + 1 })).containers src = some srcRecord :=
      (store_of_ne apart _).trans found
    rw [counted, Option.bind_some, leaveSource_kept still kept, addRc_found still]
    simp [store, setPointer, update_comm apart, Int.sub_eq_add_neg]
  · have left : ((system.setPointer thread dest).store src
        (some { srcRecord with rc := srcRecord.rc + -1 })).containers dest = some destRecord :=
      (store_of_ne apart.symm _).trans isDest
    rw [leaveSource_kept found kept, addRc_found found, Option.bind_some, addRc_found left]
    simp [store, setPointer, Int.sub_eq_add_neg]

theorem move_back (apart : own ≠ system.root) (points : system.pointer thread = some system.root)
    (isRoot : system.containers system.root = some srcRecord)
    (isOwn : system.containers own = some record) (owned : 1 ≤ record.rc)
    (result : system.move rules tables system.root own thread = some after)
    (leaveTables : ThreadTables Thread) :
    after.move rules leaveTables own after.root thread = some system := by
  rw [move_kept apart.symm isRoot isOwn (.inl rfl)] at result
  cases result
  rw [move_kept apart (update_self ..)
    ((update_of_ne apart.symm ..).trans (update_self ..)) (.inr ?_)]
  · have containers : update (update (update (update
        system.containers system.root (some { srcRecord with rc := srcRecord.rc - 1 })) own
        (some { record with rc := record.rc + 1 })) own
        (some { record with rc := record.rc + 1 - 1 })) system.root
        (some { srcRecord with rc := srcRecord.rc - 1 + 1 }) = system.containers := by
      rw [update_idem, update_comm apart, update_idem,
        Int.add_sub_cancel, Int.sub_add_cancel, ← isRoot, ← isOwn, update_eq_self,
        update_eq_self]
    have pointers : update (update system.pointer thread (some own)) thread
        (some system.root) = system.pointer := by
      rw [update_idem, ← points, update_eq_self]
    simp only [containers, pointers]
  · show 1 < record.rc + 1
    omega

theorem move_root (points : system.pointer thread = some system.root)
    (isRoot : system.containers system.root = some record) :
    system.move rules tables system.root system.root thread = some system := by
  have same : system.setPointer thread system.root = system := by
    rw [setPointer, ← points, update_eq_self]
  have stored : ∀ first second : Int, first + second = 0 →
      (system.store system.root (some { record with rc := record.rc + first })).store system.root
        (some { record with rc := record.rc + first + second }) = system := by
    intro first second cancels
    have unchanged : record.rc + first + second = record.rc := by omega
    rw [unchanged, store, store, update_idem, ← isRoot, update_eq_self]
  unfold move
  simp only [same]
  split
  · rw [addRc_found isRoot, Option.bind_some, leaveSource_kept (store_self _) (.inl rfl),
      addRc_found (store_self _)]
    exact congrArg some (stored 1 (-1) rfl)
  · rw [leaveSource_kept isRoot (.inl rfl), addRc_found isRoot, Option.bind_some,
      addRc_found (store_self _)]
    exact congrArg some (stored (-1) 1 rfl)

end NamespaceSystem

namespace PidContainer

variable {objectId : Thread → ObjectsId} {src dest left joined : PidContainer Thread}
variable {thread : Thread}

/-- The VIDs that a container gives to its next members, in their order: the
recycled ones and then those never used. -/
def openVids (container : PidContainer Thread) : List Nat :=
  container.freeVidList ++
    List.range' (container.pidCount + 1) (rtemsMaxProcessLimit - 1 - container.pidCount)

structure Reseated (objectId : Thread → ObjectsId) (thread : Thread)
    (before after : PidContainer Thread) : Prop where
  rc : after.rc = before.rc
  pidCount : after.pidCount = before.pidCount
  vids : ∃ old new, before.pidArray old = ⟨old, objectId thread⟩ ∧
    after.pidArray = update (update before.pidArray old ⟨0, 0⟩) new ⟨new, objectId thread⟩ ∧
    insertFreeVid new after.freeVidList = insertFreeVid old before.freeVidList

section

omit [DecidableEq Thread]

variable {vid : Nat}

theorem insertFreeVid_front {rest : List Nat} (sorted : (vid :: rest).Pairwise (· < ·)) :
    insertFreeVid vid rest = vid :: rest := by
  cases rest with
  | nil => rfl
  | cons head tail =>
    have above : vid < head := (List.pairwise_cons.mp sorted).1 head List.mem_cons_self
    simp [insertFreeVid, Nat.lt_asymm above]

theorem Valid.slot_eq {container : PidContainer Thread} (used : container.Used vid)
    (named : (container.pidArray vid).id = objectId thread) :
    container.pidArray vid = ⟨vid, objectId thread⟩ := by
  cases slot : container.pidArray vid with
  | mk slotVid id =>
    have same := used.2
    rw [slot] at same named
    cases same
    cases named
    rfl

theorem Valid.reseated (valid : src.Valid objectId) (listed : thread ∈ src.threadList) :
    Reseated objectId thread src src := by
  obtain ⟨vid, used, named⟩ := valid.slotted thread listed
  have slot := Valid.slot_eq used named
  refine ⟨rfl, rfl, vid, vid, slot, ?_, rfl⟩
  rw [update_idem, ← slot, update_eq_self]

theorem Valid.openVids_restored (valid : dest.Valid objectId)
    (room : dest.freeVidList ≠ [] ∨ dest.pidCount < rtemsMaxProcessLimit - 1) :
    insertFreeVid dest.takeVid.1 dest.takeVid.2.freeVidList ++
        List.range' (dest.takeVid.2.pidCount + 1)
          (rtemsMaxProcessLimit - 1 - dest.takeVid.2.pidCount) = dest.openVids := by
  unfold openVids
  cases free : dest.freeVidList with
  | nil =>
    have below := room.resolve_left fun nonempty => nonempty free
    have more : rtemsMaxProcessLimit - 1 - dest.pidCount =
        rtemsMaxProcessLimit - 1 - (dest.pidCount + 1) + 1 := by omega
    simp only [takeVid, free, insertFreeVid, more, List.range'_succ]
    rfl
  | cons vid rest =>
    have sorted := valid.free_sorted
    rw [free] at sorted
    simp only [takeVid, free, insertFreeVid_front sorted]

end

theorem moveRecords_back {malloc : Bool} (again : Bool) (injective : Injective objectId)
    (nonzero : ∀ thread, objectId thread ≠ 0) (validSrc : src.Valid objectId)
    (validDest : dest.Valid objectId) (owned : 1 ≤ dest.rc)
    (moved : PidSystem.moveRecords objectId src dest thread malloc = some (left, joined)) :
    ∃ back home, PidSystem.moveRecords objectId joined left thread again = some (back, home) ∧
      back.rc = dest.rc ∧ back.pidArray = dest.pidArray ∧ back.openVids = dest.openVids ∧
      Reseated objectId thread src home := by
  obtain ⟨-, listed, absent, can, vid, used, named, same⟩ :=
    (moveRecords_eq_some nonzero validSrc).mp moved
  have taken := validDest.takeVid_spec can.room
  have joins : joined = PidSystem.joinDest objectId dest.takeVid.2 thread dest.takeVid.1 :=
    congrArg Prod.snd same
  have leaves : left = PidSystem.leaveSource src thread vid := congrArg Prod.fst same
  have validJoined : joined.Valid objectId := joins ▸ joinDest_valid injective validDest taken absent
  have validLeft : left.Valid objectId := leaves ▸ leaveSource_valid injective validSrc used named
  have free : left.freeVidList = insertFreeVid vid src.freeVidList := leaves ▸ rfl
  obtain ⟨first, rest, isFree⟩ : ∃ first rest, left.freeVidList = first :: rest := by
    cases empty : left.freeVidList with
    | nil =>
      have member : vid ∈ left.freeVidList := free ▸ mem_insertFreeVid.mpr (.inl rfl)
      rw [empty] at member
      cases member
    | cons first rest => exact ⟨first, rest, rfl⟩
  have slot : joined.pidArray dest.takeVid.1 = ⟨dest.takeVid.1, objectId thread⟩ := by
    rw [joins]
    exact update_self ..
  refine ⟨PidSystem.leaveSource joined thread dest.takeVid.1,
    PidSystem.joinDest objectId left.takeVid.2 thread left.takeVid.1, ?moved, ?rc, ?array, ?vids,
    ?seat⟩
  case moved =>
    refine (moveRecords_eq_some nonzero validJoined).mpr ⟨?_, ?_, ?_, ?_, dest.takeVid.1, ?_, ?_, rfl⟩
    · rw [joins]
      show 0 < dest.takeVid.2.rc + 1
      rw [taken.rc_eq]
      omega
    · rw [joins]
      exact List.mem_cons_self
    · rw [leaves]
      exact fun member => (validSrc.threads_nodup.mem_erase_iff.mp member).1 rfl
    · exact .inl (by simp [isFree])
    · exact ⟨taken.positive, by rw [slot]⟩
    · rw [slot]
  case rc =>
    rw [joins]
    show dest.takeVid.2.rc + 1 - 1 = dest.rc
    rw [taken.rc_eq]
    omega
  case array =>
    rw [joins]
    show update (update dest.takeVid.2.pidArray _ _) _ _ = _
    rw [update_idem, taken.array_eq, ← validDest.blank _ taken.unused, update_eq_self]
  case vids =>
    rw [joins]
    exact validDest.openVids_restored can.room
  case seat =>
    have sorted := validLeft.free_sorted
    rw [isFree] at sorted
    simp only [takeVid, isFree]
    refine ⟨?_, ?_, vid, first, Valid.slot_eq used named, ?_, ?_⟩
    · rw [leaves]
      show src.rc - 1 + 1 = src.rc
      omega
    · rw [leaves]
      rfl
    · rw [leaves]
      rfl
    · show insertFreeVid first rest = _
      rw [insertFreeVid_front sorted, ← isFree, free]

end PidContainer

namespace PidSystem

variable {objectId : Thread → ObjectsId} {system : PidSystem Thread} {src dest own : Nat}
variable {srcRecord destRecord left joined : PidContainer Thread} {malloc : Nat → Bool}
variable {thread : Thread}

/-- What `vids` tells of every container but the root, and the reference counts,
are as before; the root is so but for the VID of a thread. -/
structure VidsRestored {Vids : Type} (vids : PidContainer Thread → Vids)
    (objectId : Thread → ObjectsId) (thread : Thread) (system after : PidSystem Thread) : Prop where
  others : ∀ address, address ≠ system.root →
    (after.containers address).map (fun record => (record.rc, vids record)) =
      (system.containers address).map fun record => (record.rc, vids record)
  root : ∀ record, system.containers system.root = some record →
    ∃ later, after.containers system.root = some later ∧
      PidContainer.Reseated objectId thread record later

theorem VidsRestored.of_same {Vids : Type} {vids : PidContainer Thread → Vids}
    {after : PidSystem Thread} (valid : system.Valid objectId)
    (listed : system.onList thread system.root = true)
    (same : after.containers = system.containers) :
    VidsRestored vids objectId thread system after where
  others address _ := by rw [same]
  root record found := by
    refine ⟨record, by rw [same, found], (valid.container_valid _ _ found).reseated ?_⟩
    simpa [onList, found] using listed

theorem moveTask_kept (apart : src ≠ dest) (isSrc : system.containers src = some srcRecord)
    (isDest : system.containers dest = some destRecord)
    (moved : moveRecords objectId srcRecord destRecord thread (malloc 0) = some (left, joined))
    (kept : src = system.root ∨ left.rc ≠ 0) :
    ∃ pointers, system.rtemsPidContainerMoveTask objectId (some src) (some dest) (some thread)
      malloc = { system with
        containers := update (update system.containers src (some left)) dest (some joined)
        pidContainer := pointers } := by
  have pointed : ∃ pointers, ((system.store src (some left)).store dest (some joined)).redirect
      thread src dest = { system with
        containers := update (update system.containers src (some left)) dest (some joined)
        pidContainer := pointers } := by
    rw [redirect_eq]
    exact ⟨_, rfl⟩
  obtain ⟨pointers, isPointed⟩ := pointed
  refine ⟨pointers, ?_⟩
  simp only [rtemsPidContainerMoveTask, apart, ↓reduceIte, isSrc, isDest, moved, isPointed]
  obtain isRoot | more := kept
  · simp [rtemsPidContainerDelete, isRoot]
  · simp [more]

theorem moveTask_stays (system : PidSystem Thread) (isSrc : system.containers src = some srcRecord)
    (absent : thread ∉ srcRecord.threadList) (dest : Option Nat) :
    system.rtemsPidContainerMoveTask objectId (some src) dest (some thread) malloc = system := by
  cases dest with
  | none => rfl
  | some dest =>
    cases isDest : system.containers dest with
    | none => simp [rtemsPidContainerMoveTask, isSrc, isDest]
    | some destRecord => simp [rtemsPidContainerMoveTask, isSrc, isDest, moveRecords, absent]

/-- A move from the root deletes no container. -/
theorem moveTask_live (live : system.isLive (some own) = true) :
    (system.rtemsPidContainerMoveTask objectId (some system.root) (some own) (some thread)
      malloc).isLive (some own) = true := by
  simp only [rtemsPidContainerMoveTask]
  split
  · exact live
  · split
    · split
      · exact live
      · simp [rtemsPidContainerDelete, isLive]
    · exact live

theorem visit_restored {entered : PidSystem Thread} {pointers : Thread → Option Nat}
    (again : Nat → Bool) (injective : Injective objectId)
    (nonzero : ∀ thread, objectId thread ≠ 0) (valid : system.Valid objectId)
    (apart : own ≠ system.root) (listed : system.onList thread system.root = true)
    (owned : ∀ record, system.containers own = some record → 1 ≤ record.rc)
    (isEntered : entered = { system.rtemsPidContainerMoveTask objectId (some system.root) (some own)
      (some thread) malloc with pidContainer := pointers }) :
    entered.root = system.root ∧
      VidsRestored (fun record => (record.pidArray, record.openVids)) objectId thread system
        (entered.rtemsPidContainerMoveTask objectId (some own) (some system.root) (some thread)
          again) := by
  obtain ⟨root, isRoot⟩ := valid.root_live
  have inRoot : thread ∈ root.threadList := by simpa [onList, isRoot] using listed
  by_cases same : entered = { system with pidContainer := pointers }
  · have stays : entered.rtemsPidContainerMoveTask objectId (some own) (some system.root)
        (some thread) again = entered := by
      cases isOwn : entered.containers own with
      | none => simp [rtemsPidContainerMoveTask, apart, isOwn]
      | some record =>
        apply moveTask_stays entered isOwn
        intro member
        rw [same] at isOwn
        exact apart (valid.member_unique own system.root record root thread isOwn isRoot member
          inRoot)
    rw [stays, same]
    exact ⟨rfl, .of_same valid listed rfl⟩
  cases isOwn : system.containers own with
  | none =>
    refine absurd ?_ same
    simp [isEntered, rtemsPidContainerMoveTask, apart.symm, isRoot, isOwn]
  | some record =>
    cases goes : moveRecords objectId root record thread (malloc 0) with
    | none =>
      refine absurd ?_ same
      simp [isEntered, rtemsPidContainerMoveTask, apart.symm, isRoot, isOwn, goes]
    | some records =>
      obtain ⟨left, joined⟩ := records
      obtain ⟨backRecord, home, returns, rc, array, vids, seat⟩ :=
        PidContainer.moveRecords_back (again 0) injective nonzero
          (valid.container_valid _ _ isRoot) (valid.container_valid _ _ isOwn)
          (owned record isOwn) goes
      obtain ⟨_, isMoved⟩ := moveTask_kept apart.symm isRoot isOwn goes (.inl rfl)
      rw [isMoved] at isEntered
      have enteredOwn : entered.containers own = some joined := by
        simp [isEntered]
      have enteredRoot : entered.containers system.root = some left := by
        simp [isEntered, apart.symm]
      have referenced := owned record isOwn
      obtain ⟨_, isBack⟩ := moveTask_kept apart enteredOwn enteredRoot returns (.inr (by omega))
      rw [isBack, isEntered]
      refine ⟨rfl, ?_, ?_⟩
      · intro address notRoot
        by_cases same : address = own
        · subst address
          simp [notRoot, isOwn, rc, array, vids]
        · simp [notRoot, same]
      · intro before isBefore
        rw [isRoot] at isBefore
        cases isBefore
        exact ⟨home, by simp, seat⟩

end PidSystem

namespace IoCgroupControl

variable {control : IoCgroupControl} {thread : ObjectsId} {weight : BitVec 32} {malloc : Bool}

theorem removeThreadWeight_back
    (missing : findThread control.threadWeightsChain thread = none)
    (added : (control.allocateThreadWeight thread weight malloc).2 = .successful) :
    (control.allocateThreadWeight thread weight malloc).1.removeThreadWeight thread =
      (control, .successful) := by
  simp only [allocateThreadWeight, missing] at added ⊢
  by_cases exceeds : control.totalWeight + weight > control.weight
  · simp [exceeds] at added
  · cases malloc with
    | false => simp [exceeds] at added
    | true =>
      have total : control.totalWeight + weight - weight = control.totalWeight :=
        BitVec.add_sub_cancel _ _
      simp [exceeds, removeThreadWeight, findThread, total]

end IoCgroupControl

namespace ContainerSystem

variable {system left after : ContainerSystem Thread} {container : RtemsContainer Thread}
variable {parts : ContainerParts} {thread : Thread} {tables : ThreadTables Thread}
variable {status : StatusCode}

variable {malloc workspace : Bool} {before joined : UnifiedSystem Thread} {kind : NamespaceKind}

omit [DecidableEq Thread] in
theorem leaveIo_back
    (missing : ∀ block, IoCgroupControl.findThread (system.ioCgroups.controls block).threadWeightsChain
      (names.threadId thread) = none)
    (entered : system.enterIo names container parts thread malloc = some (after, .successful))
    (same : left.ioCgroups = after.ioCgroups) :
    ∃ gone, left.leaveIo names container parts thread = some (gone, .successful) ∧
      gone.ioCgroups = system.ioCgroups := by
  obtain ⟨rfl, succeeds⟩ | ⟨block, flagged, isBlock, allocated, isAfter, succeeds⟩ :=
    enterIo_cases entered
  · have unflagged := succeeds.mp rfl
    exact ⟨left, by simp [leaveIo, unflagged], same⟩
  · have weighs : parts.ioThreadWeight ≠ 0 := by
      intro zero
      simp [IoCgroupSystem.rtemsIoCgroupAddThread, zero] at succeeds
    have adds : (system.ioCgroups.rtemsIoCgroupAddThread block (some (names.threadId thread))
        parts.ioThreadWeight malloc) =
        (system.ioCgroups.store block ((system.ioCgroups.controls block).allocateThreadWeight
          (names.threadId thread) parts.ioThreadWeight malloc).1,
          ((system.ioCgroups.controls block).allocateThreadWeight
            (names.threadId thread) parts.ioThreadWeight malloc).2) := by
      simp only [IoCgroupSystem.rtemsIoCgroupAddThread, if_neg weighs]
    rw [adds] at succeeds isAfter
    have back := IoCgroupControl.removeThreadWeight_back (missing block) succeeds.symm
    have leftIo : left.ioCgroups = system.ioCgroups.store block
        ((system.ioCgroups.controls block).allocateThreadWeight (names.threadId thread)
          parts.ioThreadWeight malloc).1 := same.trans (isAfter ▸ rfl)
    have restored : (system.ioCgroups.store block
        ((system.ioCgroups.controls block).allocateThreadWeight (names.threadId thread)
          parts.ioThreadWeight malloc).1).store block (system.ioCgroups.controls block) =
        system.ioCgroups := by
      simp only [IoCgroupSystem.store, update_idem, update_eq_self]
    refine ⟨{ left with ioCgroups := system.ioCgroups }, ?_, rfl⟩
    simp only [leaveIo, flagged, if_true, isBlock, IoCgroupSystem.rtemsIoCgroupRemoveThread, leftIo,
      IoCgroupSystem.store_allocated, allocated, IoCgroupSystem.store_self, back, restored,
      reduceCtorEq, if_false]

theorem enterCgroup_joins (named : container.Named) (outside : before.cgroups.cgroup thread = none)
    (notAdded : before.cgroups.isAddedToCgroup thread = false)
    (entered : before.enterCgroup names container thread workspace = some (joined, .successful)) :
    (container.hasCgroup = false ∧ joined.cgroups = before.cgroups) ∨
      (container.hasCgroup = true ∧ container.cgroupId ∈ before.cgroups.opened ∧
        joined.cgroups = before.cgroups.coreCgroupAddThread container.cgroupId thread) := by
  cases has : container.hasCgroup with
  | false =>
    simp only [UnifiedSystem.enterCgroup, has, Bool.false_eq_true, if_false] at entered
    cases entered
    exact .inl ⟨rfl, rfl⟩
  | true =>
    have elsewhere : before.cgroups.cgroup thread ≠ container.coreCgroup := by
      rw [outside, named has]
      exact nofun
    simp only [UnifiedSystem.enterCgroup, has, if_true, notAdded, Bool.false_eq_true, false_and,
      if_false, elsewhere, ne_eq, not_false_eq_true] at entered
    obtain ⟨⟨cgroups, made⟩, adds, same⟩ := Option.map_eq_some_iff.mp entered
    cases same
    refine .inr ⟨rfl, ?_⟩
    unfold rtemsCgroupAddTask at adds
    split at adds
    · split at adds
      · rename_i block member isBlock isMember
        obtain ⟨rfl, isOpen⟩ := cgroupGet_eq_some isBlock
        rw [threadGet_threadId] at isMember
        cases isMember
        cases adds
        exact ⟨isOpen, rfl⟩
      · cases adds
    · cases adds

theorem leaveCgroup_back {left : UnifiedSystem Thread} (named : container.Named)
    (outside : before.cgroups.cgroup thread = none)
    (notAdded : before.cgroups.isAddedToCgroup thread = false)
    (counts : ∀ block, (before.cgroups.cgroups block).threadCount < 2 ^ 32)
    (entered : before.enterCgroup names container thread workspace = some (joined, .successful))
    (same : left.cgroups = joined.cgroups) :
    ∃ removed, left.leaveCgroup names container thread = some (removed, .successful) ∧
      ∀ block, (removed.cgroups.cgroups block).threadCount =
        (before.cgroups.cgroups block).threadCount := by
  obtain ⟨has, unjoined⟩ | ⟨has, isOpen, joins⟩ :=
    enterCgroup_joins named outside notAdded entered
  · refine ⟨left, by simp [UnifiedSystem.leaveCgroup, has], ?_⟩
    intro block
    rw [same, unjoined]
  · have member : thread ∈ (left.cgroups.cgroups container.cgroupId).threads := by
      rw [same, joins]
      simp [CgroupSystem.coreCgroupAddThread]
    have stillOpen : container.cgroupId ∈ left.cgroups.opened := by
      rw [same, joins]
      exact isOpen
    have inside : left.cgroups.cgroup thread = container.coreCgroup := by
      rw [same, joins, named has]
      exact update_self ..
    obtain ⟨control, isControl⟩ : ∃ control, control = { left.cgroups.cgroups container.cgroupId with
        threads := (left.cgroups.cgroups container.cgroupId).threads.erase thread
        threadCount := ((left.cgroups.cgroups container.cgroupId).threadCount + (2 ^ 32 - 1)) %
          2 ^ 32 } := ⟨_, rfl⟩
    have removes : rtemsCgroupRemoveTask names left.cgroups container.cgroupId
        (names.threadId thread) =
          some (left.cgroups.store container.cgroupId control, .successful) := by
      simp [rtemsCgroupRemoveTask, cgroupGet_of_mem stillOpen, threadGet_threadId,
        CgroupSystem.coreCgroupRemoveThread, member, isControl]
    refine ⟨_, by rw [UnifiedSystem.leaveCgroup, if_pos ⟨has, inside⟩, removes]; rfl, ?_⟩
    intro block
    show ((left.cgroups.store container.cgroupId control).cgroups block).threadCount = _
    by_cases isBlock : block = container.cgroupId
    · subst block
      have bound := counts container.cgroupId
      rw [CgroupSystem.store_cgroups_self, isControl, same, joins]
      simp only [CgroupSystem.coreCgroupAddThread, CgroupSystem.store_cgroups_self]
      omega
    · rw [CgroupSystem.store_cgroups_of_ne isBlock, same, joins]
      exact congrArg CoreCgroupControl.threadCount (CgroupSystem.store_cgroups_of_ne isBlock _)

def enterStep (container : RtemsContainer Thread) (parts : ContainerParts) (thread : Thread)
    (tables : ThreadTables Thread) (kind : NamespaceKind) (namespaces : NamespaceSystem Thread) :
    Option (NamespaceSystem Thread) :=
  if container.hasNamespace kind then
    (if namespaces.pointer thread ≠ parts.namespaces kind then
      namespaces.moveTask kind.rules tables (namespaces.pointer thread) (parts.namespaces kind)
        (some thread)
    else some namespaces).filter fun moved => moved.pointer thread = parts.namespaces kind
  else some namespaces

theorem enterNamespace_step (result : system.enterNamespace container parts thread tables kind =
      some (after, .successful)) :
    ∃ moved, enterStep container parts thread tables kind (system.namespaces kind) = some moved ∧
      after = system.setNamespace kind moved := by
  unfold enterStep
  obtain ⟨inside, isAfter, -⟩ | ⟨flagged, outside, moved, moves, isAfter, status⟩ :=
    enterNamespace_cases result
  · refine ⟨system.namespaces kind, ?_, isAfter⟩
    split
    · rename_i flagged
      simp [inside flagged]
    · rfl
  · have arrived : moved.pointer thread = parts.namespaces kind := by
      by_contra elsewhere
      rw [if_pos elsewhere] at status
      cases status
    refine ⟨moved, ?_, isAfter⟩
    simp [flagged, outside, moves, arrived]

theorem enterNamespaces_eq {kinds : List NamespaceKind}
    (result : enterNamespaces container parts thread tables kinds system =
      some (after, .successful)) :
    eachNamespace (enterStep container parts thread tables) kinds system = some after := by
  induction kinds generalizing system with
  | nil =>
    cases result
    rfl
  | cons kind rest ih =>
    obtain ⟨-, failed⟩ | ⟨middle, enters, rests⟩ := andThen_eq_some.mp result
    · exact absurd rfl failed
    · obtain ⟨moved, steps, isMiddle⟩ := enterNamespace_step enters
      rw [isMiddle] at rests
      rw [eachNamespace, steps, Option.bind_some]
      exact ih rests

theorem leaveStep_back {namespaces moved : NamespaceSystem Thread}
    {leaveTables : ThreadTables Thread} (home : namespaces.pointer thread = some namespaces.root)
    (rootLive : namespaces.containers namespaces.root ≠ none)
    (owned : ∀ own, parts.namespaces kind = some own → own ≠ namespaces.root →
      ∃ record, namespaces.containers own = some record ∧ 1 ≤ record.rc)
    (result : enterStep container parts thread tables kind namespaces = some moved) :
    leaveStep container parts thread leaveTables kind moved = some namespaces := by
  obtain ⟨root, isRoot⟩ := Option.ne_none_iff_exists'.mp rootLive
  unfold enterStep at result
  split at result
  · rename_i flagged
    obtain ⟨moves, arrived⟩ := Option.filter_eq_some_iff.mp result
    rw [decide_eq_true_eq] at arrived
    rw [home] at moves
    cases isOwn : parts.namespaces kind with
    | none =>
      rw [isOwn] at moves arrived
      cases moves
      exact nomatch home.symm.trans arrived
    | some own =>
      rw [isOwn] at moves arrived
      by_cases isHome : own = namespaces.root
      · subst own
        simp only [ne_eq, not_true_eq_false, if_false] at moves
        cases moves
        simp only [leaveStep, flagged, isOwn, home, and_self, if_true,
          NamespaceSystem.moveTask, NamespaceSystem.isIn_of_points home, Option.bind_some]
        exact NamespaceSystem.move_root home isRoot
      · have apart : some namespaces.root ≠ some own :=
          fun same => isHome (Option.some.inj same).symm
        obtain ⟨record, isRecord, references⟩ := owned own isOwn isHome
        simp only [ne_eq, apart, not_false_eq_true, if_true, NamespaceSystem.moveTask,
          NamespaceSystem.isIn_of_points home, Option.bind_some] at moves
        simp only [leaveStep, flagged, isOwn, arrived, and_self, if_true,
          NamespaceSystem.moveTask, NamespaceSystem.isIn_of_points arrived, Option.bind_some]
        exact NamespaceSystem.move_back isHome home isRoot isRecord references moves leaveTables
  · rename_i unflagged
    cases result
    simp [leaveStep, unflagged]

structure Entered (names : ObjectNames Thread) (system : ContainerSystem Thread) (address : Nat)
    (container : RtemsContainer Thread) (thread : Thread) (tables : ThreadTables Thread)
    (allocations : EnterAllocations) (after : ContainerSystem Thread) : Prop where
  live : system.entersLive container thread = true
  pids : after.pids = (system.enterPid names container thread allocations.move).pids
  namespaces : ∀ kind, enterStep container (system.parts address) thread tables kind
    (system.namespaces kind) = some (after.namespaces kind)
  cgroups : ∃ before joined, before.cgroups = system.cgroups ∧
    UnifiedSystem.enterCgroup names before container thread allocations.workspace =
      some (joined, .successful) ∧ after.cgroups = joined.cgroups
  ioCgroups : ∃ before added, before.ioCgroups = system.ioCgroups ∧
    enterIo names before container (system.parts address) thread allocations.ioNode =
      some (added, .successful) ∧ after.ioCgroups = added.ioCgroups
  hasContainer : after.hasContainer = system.hasContainer
  parts : after.parts = system.parts
  handle : after.handles address =
    some { container with attached := true, attachedThread := some thread }

omit [DecidableEq Thread] in
private theorem enterIo_frame
    (result : system.enterIo names container parts thread malloc = some (after, status)) :
    after = { system with ioCgroups := after.ioCgroups } := by
  obtain ⟨rfl, -⟩ | ⟨_, -, -, -, rfl, -⟩ := enterIo_cases result
  · rfl
  · rfl

theorem enterAll_entered {address : Nat} {allocations : EnterAllocations}
    (result : system.enterAll names address container thread tables allocations =
      some (after, .successful)) :
    system.Entered names address container thread tables allocations after := by
  have hasContainer := enterAll_hasContainer result
  unfold enterAll at result
  split at result
  · cases result
  · obtain ⟨live, result⟩ := Option.ite_none_left_eq_some.mp result
    obtain ⟨-, failed⟩ | ⟨inside, enters, rest⟩ := andThen_eq_some.mp result
    · exact absurd rfl failed
    obtain ⟨-, failed⟩ | ⟨member, joins, last⟩ := andThen_eq_some.mp rest
    · exact absurd rfl failed
    obtain ⟨-, failed⟩ | ⟨weighed, adds, ended⟩ := andThen_eq_some.mp last
    · exact absurd rfl failed
    obtain ⟨⟨joined, made⟩, joins, same⟩ := Option.map_eq_some_iff.mp joins
    cases same
    have each := fun kind =>
      (eachNamespace_each NamespaceKind.all_nodup (enterNamespaces_eq enters) kind).1 kind.mem_all
    obtain ⟨namespaces, rfl⟩ := enterNamespaces_only enters
    obtain ⟨ioCgroups, isIo⟩ : ∃ ioCgroups, ioCgroups = weighed.ioCgroups := ⟨_, rfl⟩
    have frame := enterIo_frame adds
    have joinedSame := UnifiedSystem.enterCgroup_same joins
    have pidCgroups := (UnifiedSystem.enterPid_cgroups names system.toUnifiedSystem container
      thread allocations.move).1
    cases ended
    refine {
      live := by simpa using live
      pids := ?pids
      namespaces := ?namespaces
      cgroups := ⟨_, joined, pidCgroups, joins, ?cgroups⟩
      ioCgroups := ⟨_, weighed, ?io, adds, rfl⟩
      hasContainer := hasContainer
      parts := ?parts
      handle := update_self .. }
    case pids => exact (congrArg (fun state => state.pids) frame).trans joinedSame.pids
    case namespaces =>
      intro kind
      exact (each kind).trans (congrArg (fun state => some (state.namespaces kind)) frame.symm)
    case cgroups => exact congrArg (fun state => state.cgroups) frame
    case io => rfl
    case parts => exact congrArg (fun state => state.parts) frame

/-- A thread that is in the root namespaces, on the list of the root PID container
and in no cgroup. -/
structure AtHome (names : ObjectNames Thread) (system : ContainerSystem Thread)
    (thread : Thread) : Prop where
  hasContainer : system.hasContainer thread = true
  pid : system.pids.pidContainer thread = some system.pids.root
  listed : system.pids.onList thread system.pids.root = true
  namespaces : ∀ kind, (system.namespaces kind).pointer thread =
    some (system.namespaces kind).root
  cgroup : system.cgroups.cgroup thread = none
  isAddedToCgroup : system.cgroups.isAddedToCgroup thread = false
  weights : ∀ block, IoCgroupControl.findThread
    (system.ioCgroups.controls block).threadWeightsChain (names.threadId thread) = none

/-- The PID containers are valid, the roots are in the heap, the counts of the
cgroups are those of a 32-bit field, and the namespaces of a container have a
reference of the container. -/
structure Owning (names : ObjectNames Thread) (system : ContainerSystem Thread)
    (container : RtemsContainer Thread) (parts : ContainerParts) : Prop where
  pids : system.pids.Valid names.threadId
  rootLive : ∀ kind, (system.namespaces kind).containers (system.namespaces kind).root ≠ none
  pidReferences : ∀ own record, container.pidContainer = some own → own ≠ system.pids.root →
    system.pids.containers own = some record → 1 ≤ record.rc
  references : ∀ kind own, parts.namespaces kind = some own →
    own ≠ (system.namespaces kind).root →
      ∃ record, (system.namespaces kind).containers own = some record ∧ 1 ≤ record.rc
  named : container.Named
  counts : ∀ block, (system.cgroups.cgroups block).threadCount < 2 ^ 32

/-- The thread is in the root namespaces, and the reference counts, what `vids`
tells of the PID containers but for the VID of the thread in the root, and the
counts and weights of the cgroups are as before. -/
structure Restored {Vids : Type} (vids : PidContainer Thread → Vids) (names : ObjectNames Thread)
    (system : ContainerSystem Thread) (thread : Thread) (after : ContainerSystem Thread) : Prop where
  pid : after.pids.pidContainer thread = some system.pids.root
  namespaces : ∀ kind, (after.namespaces kind).pointer thread =
    some (system.namespaces kind).root
  references : ∀ kind own, ((after.namespaces kind).containers own).map (·.rc) =
    ((system.namespaces kind).containers own).map (·.rc)
  vids : PidSystem.VidsRestored vids names.threadId thread system.pids after.pids
  threadCount : ∀ block, (after.cgroups.cgroups block).threadCount =
    (system.cgroups.cgroups block).threadCount
  totalWeight : ∀ block, (after.ioCgroups.controls block).totalWeight =
    (system.ioCgroups.controls block).totalWeight

/-- The container that a thread has entered from the root is there for its leave. -/
theorem leavesLive_back {unified : UnifiedSystem Thread} {malloc : Nat → Bool}
    (home : system.AtHome names thread) (live : system.entersLive container thread = true)
    (same : unified.pids = (system.enterPid names container thread malloc).pids) :
    unified.leavesLive container thread = true := by
  cases flagged : container.hasPid with
  | false => simp [UnifiedSystem.leavesLive, flagged]
  | true =>
    refine Bool.or_eq_true_iff.mpr (.inr ?_)
    have rootLive : system.pids.isLive (some system.pids.root) = true := by
      obtain ⟨root, found, -⟩ := PidSystem.onList_iff.mp home.listed
      simp [PidSystem.isLive, found]
    simp only [same, UnifiedSystem.enterPid, flagged, if_true, home.pid]
    by_cases isHome : some system.pids.root = container.pidContainer
    · rw [if_pos isHome, ← isHome]
      exact rootLive
    · simp only [UnifiedSystem.entersLive, flagged, home.pid, isHome, rootLive] at live
      rw [if_neg isHome]
      cases isOwn : container.pidContainer with
      | none => rfl
      | some own =>
        rw [isOwn] at live
        exact PidSystem.moveTask_live (by simpa using live)

theorem leavePid_back {unified : UnifiedSystem Thread} {malloc : Nat → Bool} (again : Nat → Bool)
    (injective : Injective names.threadId) (nonzero : ∀ thread, names.threadId thread ≠ 0)
    (home : system.AtHome names thread) (owning : system.Owning names container parts)
    (same : unified.pids = (system.enterPid names container thread malloc).pids) :
    (unified.leavePid names container thread again).pids.pidContainer thread =
        some system.pids.root ∧
      PidSystem.VidsRestored (fun record => (record.pidArray, record.openVids)) names.threadId
        thread system.pids (unified.leavePid names container thread again).pids := by
  cases flagged : container.hasPid with
  | false =>
    have entered : unified.pids = system.pids := by
      rw [same, UnifiedSystem.enterPid, flagged]
      rfl
    have stays : unified.leavePid names container thread again = unified := by
      simp [UnifiedSystem.leavePid, flagged]
    rw [stays, entered]
    exact ⟨home.pid, .of_same owning.pids home.listed rfl⟩
  | true =>
    have arrived : unified.pids.pidContainer thread = container.pidContainer := by
      rw [same, UnifiedSystem.enterPid, flagged]
      exact update_self ..
    have leaves : (unified.leavePid names container thread again).pids =
        { unified.pids.rtemsPidContainerMoveTask names.threadId container.pidContainer
          (some unified.pids.root) (some thread) again with
          pidContainer := update (unified.pids.rtemsPidContainerMoveTask names.threadId
            container.pidContainer (some unified.pids.root) (some thread) again).pidContainer
            thread (some unified.pids.root) } := by
      rw [UnifiedSystem.leavePid, if_pos ⟨flagged, arrived⟩]
      rfl
    have unmoved : unified.pids.root = system.pids.root →
        (unified.pids.rtemsPidContainerMoveTask names.threadId container.pidContainer
          (some unified.pids.root) (some thread) again).containers = system.pids.containers →
        (unified.leavePid names container thread again).pids.pidContainer thread =
            some system.pids.root ∧
          PidSystem.VidsRestored (fun record => (record.pidArray, record.openVids))
            names.threadId thread system.pids (unified.leavePid names container thread again).pids := by
      intro root containers
      rw [leaves]
      refine ⟨?_, .of_same owning.pids home.listed containers⟩
      rw [root]
      exact update_self ..
    cases isOwn : container.pidContainer with
    | none =>
      have entered : unified.pids = { system.pids with
          pidContainer := update system.pids.pidContainer thread none } := by
        simp [same, UnifiedSystem.enterPid, flagged, isOwn, home.pid,
          UnifiedSystem.setPidContainer, PidSystem.rtemsPidContainerMoveTask]
      apply unmoved
      · rw [entered]
      · rw [entered, isOwn]
        rfl
    | some own =>
      by_cases isHome : own = system.pids.root
      · have entered : unified.pids = system.pids := by
          simp only [same, UnifiedSystem.enterPid, flagged, if_true, isOwn, isHome, home.pid]
          exact congrArg UnifiedSystem.pids (UnifiedSystem.setPidContainer_self home.pid)
        apply unmoved
        · rw [entered]
        · rw [entered, isOwn, isHome]
          simp [PidSystem.rtemsPidContainerMoveTask]
      · have entered : unified.pids = { system.pids.rtemsPidContainerMoveTask names.threadId
            (some system.pids.root) (some own) (some thread) malloc with
            pidContainer := update (system.pids.rtemsPidContainerMoveTask names.threadId
              (some system.pids.root) (some own) (some thread) malloc).pidContainer thread
                (some own) } := by
          have apart : some system.pids.root ≠ some own :=
            fun same => isHome (Option.some.inj same).symm
          simp only [same, UnifiedSystem.enterPid, flagged, if_true, isOwn, home.pid, if_neg apart]
          rfl
        obtain ⟨root, restored⟩ := PidSystem.visit_restored again injective nonzero
          owning.pids isHome home.listed
          (fun record found => owning.pidReferences own record isOwn isHome found) entered
        rw [leaves, isOwn, root]
        exact ⟨update_self .., restored.others, restored.root⟩

/-- A thread at home that has entered a container can leave it, and that undoes
the enter. -/
theorem visit_restores (names : ObjectNames Thread) (nonzero : ∀ thread, names.threadId thread ≠ 0)
    (system entered : ContainerSystem Thread) (address : Nat) (container : RtemsContainer Thread)
    (thread : Thread) (tables leaveTables : ThreadTables Thread) (allocations : EnterAllocations)
    (malloc : Nat → Bool) (found : system.handles address = some container)
    (home : system.AtHome names thread)
    (owning : system.Owning names container (system.parts address))
    (enters : system.rtemsUnifiedContainerEnter names (some address) (some thread) tables
      allocations = some (entered, .successful)) :
    ∃ left, entered.rtemsUnifiedContainerLeave names (some address) (some thread) leaveTables
        malloc = some (left, .successful) ∧
      system.Restored (fun record => (record.pidArray, record.openVids)) names thread left ∧
      (left.handles address).map (fun handle => (handle.attached, handle.attachedThread)) =
        some (false, none) := by
  have isEntered : system.Entered names address container thread tables allocations entered := by
    simp only [rtemsUnifiedContainerEnter, found, Option.bind_some, Option.getD_some] at enters
    obtain ⟨-, failed⟩ | ⟨ensured, ensures, rest⟩ := andThen_eq_some.mp enters
    · exact absurd rfl failed
    · obtain ⟨rfl, -⟩ | ⟨isNew, -⟩ := ensureContainer_cases ensures
      · exact enterAll_entered rest
      · exact nomatch home.hasContainer.symm.trans isNew
  obtain ⟨cgroupBefore, joined, sameBefore, joins, sameJoined⟩ := isEntered.cgroups
  obtain ⟨ioBefore, added, sameIo, adds, sameAdded⟩ := isEntered.ioCgroups
  obtain ⟨attached, isAttached⟩ : ∃ attached : RtemsContainer Thread, attached =
    { container with attached := true, attachedThread := some thread } := ⟨_, rfl⟩
  have handle : entered.handles address = some attached := isAttached ▸ isEntered.handle
  have steps : ∀ kind, leaveStep attached (entered.parts address) thread leaveTables kind
      (entered.namespaces kind) = some (system.namespaces kind) := by
    intro kind
    rw [isEntered.parts, isAttached]
    exact leaveStep_back (home.namespaces kind) (owning.rootLive kind) (owning.references kind)
      (isEntered.namespaces kind)
  obtain ⟨out, leaves⟩ : ∃ out, leaveNamespaces attached (entered.parts address) thread leaveTables
      NamespaceKind.all (entered.withUnified (entered.leavePid names attached thread malloc)) =
        some out := by
    rw [leaveNamespaces_eq]
    exact exists_eachNamespace NamespaceKind.all_nodup fun kind _ => ⟨_, steps kind⟩
  have namespaces : ∀ kind, out.namespaces kind = system.namespaces kind := by
    intro kind
    have eachStep := leaves
    rw [leaveNamespaces_eq] at eachStep
    have step := (eachNamespace_each NamespaceKind.all_nodup eachStep kind).1 kind.mem_all
    exact Option.some.inj (step.symm.trans (steps kind))
  have only := leaveNamespaces_only leaves
  have outPids : out.pids = (entered.leavePid names attached thread malloc).pids := by
    obtain ⟨_, rfl⟩ := only
    rfl
  have outCgroups : out.cgroups = joined.cgroups := by
    obtain ⟨_, rfl⟩ := only
    exact (UnifiedSystem.leavePid_cgroups names entered.toUnifiedSystem attached thread
      malloc).1.trans sameJoined
  have outIo : out.ioCgroups = added.ioCgroups := by
    obtain ⟨_, rfl⟩ := only
    exact sameAdded
  obtain ⟨removed, removes, counts⟩ : ∃ removed, out.leaveCgroup names attached thread =
      some (removed, .successful) ∧ ∀ block, (removed.cgroups.cgroups block).threadCount =
        (cgroupBefore.cgroups.cgroups block).threadCount := by
    rw [isAttached]
    refine leaveCgroup_back owning.named ?_ ?_ ?_ joins outCgroups
    · rw [sameBefore]
      exact home.cgroup
    · rw [sameBefore]
      exact home.isAddedToCgroup
    · rw [sameBefore]
      exact owning.counts
  obtain ⟨gone, goes, weights⟩ : ∃ gone, (out.withUnified removed).leaveIo names attached
      (entered.parts address) thread = some (gone, .successful) ∧
        gone.ioCgroups = ioBefore.ioCgroups := by
    rw [isAttached, isEntered.parts]
    refine leaveIo_back ?_ adds outIo
    intro block
    rw [sameIo]
    exact home.weights block
  have frame := leaveIo_frame goes
  have removedSame := UnifiedSystem.leaveCgroup_same removes
  have pids := leavePid_back malloc (threadId_injective names) nonzero home owning isEntered.pids
  have samePids : gone.pids = (entered.leavePid names container thread malloc).pids := by
    refine (congrArg UnifiedSystem.pids frame.2.1).trans (removedSame.pids.trans (outPids.trans ?_))
    rw [isAttached]
    rfl
  have sameNamespaces : ∀ kind, gone.namespaces kind = system.namespaces kind :=
    fun kind => (congrFun frame.1 kind).trans (namespaces kind)
  have sameCgroups : gone.cgroups = removed.cgroups := congrArg UnifiedSystem.cgroups frame.2.1
  refine ⟨gone.withUnified (gone.setHandle address
    (some { attached with attached := false, attachedThread := none })), ?leave, ?restored, ?handle⟩
  case leave =>
    have has : entered.hasContainer thread = true :=
      isEntered.hasContainer ▸ home.hasContainer
    have live : entered.leavesLive attached thread = true := by
      rw [isAttached]
      exact leavesLive_back home isEntered.live isEntered.pids
    simp only [rtemsUnifiedContainerLeave, handle, Option.bind_some, Option.some_or,
      Option.getD_some, has, live, Bool.not_true, Bool.false_eq_true, if_false, leaveAll, leaves,
      removes, goes, Option.map_some]
    have isThread : attached.attachedThread = some thread := by rw [isAttached]
    simp only [isThread, if_true]
    rfl
  case restored =>
    refine {
      pid := samePids ▸ pids.1
      namespaces := fun kind => (sameNamespaces kind).symm ▸ home.namespaces kind
      references := ?references
      vids := ?vids
      threadCount := ?threadCount
      totalWeight := ?totalWeight }
    case references =>
      intro kind own
      exact congrArg (fun namespaces => (namespaces.containers own).map (·.rc)) (sameNamespaces kind)
    case vids =>
      rw [← samePids] at pids
      exact ⟨pids.2.others, pids.2.root⟩
    case threadCount =>
      intro block
      show (gone.cgroups.cgroups block).threadCount = _
      rw [sameCgroups, counts, sameBefore]
    case totalWeight =>
      intro block
      show (gone.ioCgroups.controls block).totalWeight = _
      rw [weights, sameIo]
  case handle =>
    show (update gone.handles address _ address).map _ = _
    rw [update_self]
    rfl

end ContainerSystem

def homePids : PidSystem (Fin 2) :=
  (((PidSystem.rtemsPidContainerInitializeRoot 0).rtemsPidContainerAddTask twoTaskIds (some 0)
    (some 0) true).rtemsPidContainerCreate (some 11) true).rtemsPidContainerIncRc (some 11)

theorem homePids_valid : homePids.Valid twoTaskIds := by
  apply PidSystem.Valid.incRc
  apply PidSystem.Valid.create
  apply (PidSystem.initializeRoot_valid twoTaskIds 0).addTask twoTaskIds_injective
  intro _ _ _
  refine ⟨rfl, ?_⟩
  intro other record found
  rw [PidSystem.initializeRoot_containers 0 other found]
  exact List.not_mem_nil

/-- A unified container without a cgroup; `attachedThread` is the task that it is
attached to. -/
def homeContainer (flags : BitVec 32) (attachedThread : Option (Fin 2)) : RtemsContainer (Fin 2) :=
  ⟨flags, attachedThread.isSome, attachedThread, some 11, 0, none⟩

/-- Task 0 is in the root namespaces, and `container` is at address 10. -/
def homeTask (container : RtemsContainer (Fin 2)) : ContainerSystem (Fin 2) where
  pids := { homePids with pidContainer := fun task => if task = 0 then some 0 else none }
  cgroups := bootedSystem.cgroups
  hasContainer := fun task => task = 0
  handles := update (fun _ => none) 10 (some container)
  namespaces := fun kind =>
    { root := 0
      containers := update (update (fun _ => none) 0
        (some ⟨kind.rules.rootRc + 1, 1⟩)) 12 (some ⟨1, 2⟩)
      listHead := [12]
      idCounter := 2
      pointer := fun task => if task = 0 then some 0 else none }
  ioCgroups := IoCgroupSystem.initial
  parts := fun _ => ⟨fun _ => some 12, none, 0, 0⟩

theorem homeTask_atHome (container : RtemsContainer (Fin 2)) :
    (homeTask container).AtHome twoTaskNames 0 where
  hasContainer := rfl
  pid := rfl
  listed := (by decide +kernel : homePids.onList 0 homePids.root = true)
  namespaces _ := rfl
  cgroup := rfl
  isAddedToCgroup := rfl
  weights _ := rfl

/-- The container has a namespace of every kind. -/
def namespacesOnly : BitVec 32 := 0x1f#32

theorem homeTask_owning : (homeTask (homeContainer namespacesOnly none)).Owning twoTaskNames
    (homeContainer namespacesOnly none) ⟨fun _ => some 12, none, 0, 0⟩ where
  pids := homePids_valid.of_containers rfl rfl
  rootLive _ := nofun
  pidReferences := by
    intro own record isOwn _ found
    cases isOwn
    cases found
    decide
  references := by
    intro kind own isOwn _
    cases isOwn
    exact ⟨⟨1, 2⟩, rfl, Int.le_refl 1⟩
  named has := absurd has (by decide)
  counts _ := Nat.two_pow_pos 32

/-- Task 0 enters the container and leaves it again. -/
theorem homeVisit_restored : ∃ entered left : ContainerSystem (Fin 2),
    (homeTask (homeContainer namespacesOnly none)).rtemsUnifiedContainerEnter twoTaskNames (some 10)
      (some 0) ⟨[1, 0], 0⟩ roomToEnter = some (entered, .successful) ∧
    entered.rtemsUnifiedContainerLeave twoTaskNames (some 10) (some 0) ⟨[1, 0], 0⟩
      (fun _ => true) = some (left, .successful) ∧
    (homeTask (homeContainer namespacesOnly none)).Restored
      (fun record => (record.pidArray, record.openVids)) twoTaskNames 0 left ∧
    (left.handles 10).map (fun handle => (handle.attached, handle.attachedThread)) =
      some (false, none) := by
  have succeeds : ((homeTask (homeContainer namespacesOnly none)).rtemsUnifiedContainerEnter
      twoTaskNames (some 10) (some 0) ⟨[1, 0], 0⟩ roomToEnter).map Prod.snd = some .successful := by
    decide +kernel
  obtain ⟨⟨entered, status⟩, enters, same⟩ := Option.map_eq_some_iff.mp succeeds
  cases same
  obtain ⟨left, leaves, restored⟩ := ContainerSystem.visit_restores twoTaskNames twoTaskIds_nonzero
    (homeTask (homeContainer namespacesOnly none)) entered 10 _ 0 ⟨[1, 0], 0⟩ ⟨[1, 0], 0⟩ roomToEnter
    (fun _ => true) rfl (homeTask_atHome _) homeTask_owning enters
  exact ⟨entered, left, enters, leaves, restored⟩

/-- Task 0 enters the container at address 10 of `homeTask` and leaves it. -/
def homeVisit (container : RtemsContainer (Fin 2)) :
    Option (ContainerSystem (Fin 2) × ContainerSystem (Fin 2)) :=
  ((homeTask container).rtemsUnifiedContainerEnter twoTaskNames (some 10) (some 0) ⟨[1, 0], 0⟩
    roomToEnter).bind fun (entered, status) =>
      if status = .successful then
        (entered.rtemsUnifiedContainerLeave twoTaskNames (some 10) (some 0) ⟨[1, 0], 0⟩
          fun _ => true).map fun (left, _) => (entered, left)
      else none

theorem homeVisit_runs {container : RtemsContainer (Fin 2)}
    {entered left : ContainerSystem (Fin 2)} (visit : homeVisit container = some (entered, left)) :
    (homeTask container).rtemsUnifiedContainerEnter twoTaskNames (some 10) (some 0) ⟨[1, 0], 0⟩
        roomToEnter = some (entered, .successful) ∧
      ∃ status, entered.rtemsUnifiedContainerLeave twoTaskNames (some 10) (some 0) ⟨[1, 0], 0⟩
        (fun _ => true) = some (left, status) := by
  obtain ⟨⟨inside, status⟩, enters, rest⟩ := Option.bind_eq_some_iff.mp visit
  dsimp only at rest
  split at rest
  · rename_i succeeds
    obtain ⟨⟨outside, last⟩, leaves, same⟩ := Option.map_eq_some_iff.mp rest
    cases same
    exact ⟨succeeds ▸ enters, last, leaves⟩
  · cases rest

/-- The VID of a visitor stays on the list of recycled ones, and a container that
was attached to the thread already, such as one without flags that it has entered
before, is attached no longer. -/
theorem homeVisit_differs :
    (¬ ∀ (names : ObjectNames (Fin 2)) (system entered left : ContainerSystem (Fin 2))
        (address : Nat) (task : Fin 2) (tables leaveTables : ThreadTables (Fin 2))
        (allocations : EnterAllocations) (malloc : Nat → Bool) (status : StatusCode),
      system.handles address ≠ none → system.AtHome names task →
        system.rtemsUnifiedContainerEnter names (some address) (some task) tables allocations =
          some (entered, .successful) →
        entered.rtemsUnifiedContainerLeave names (some address) (some task) leaveTables malloc =
          some (left, status) →
        system.Restored (fun record => (record.pidArray, record.freeVidList, record.pidCount))
          names task left) ∧
    ¬ ∀ (names : ObjectNames (Fin 2)) (system entered left : ContainerSystem (Fin 2))
        (address : Nat) (task : Fin 2) (tables leaveTables : ThreadTables (Fin 2))
        (allocations : EnterAllocations) (malloc : Nat → Bool) (status : StatusCode),
      system.handles address ≠ none → system.AtHome names task →
        system.rtemsUnifiedContainerEnter names (some address) (some task) tables allocations =
          some (entered, .successful) →
        entered.rtemsUnifiedContainerLeave names (some address) (some task) leaveTables malloc =
          some (left, status) →
        (left.handles address).map (fun handle => (handle.attached, handle.attachedThread)) =
          (system.handles address).map fun handle => (handle.attached, handle.attachedThread) := by
  constructor
  · intro claim
    have recycled : (homeVisit (homeContainer namespacesOnly none)).map (fun visit =>
        (visit.2.pids.containers 11).map PidContainer.freeVidList) = some (some [1]) := by
      decide +kernel
    obtain ⟨⟨entered, left⟩, visit, list⟩ := Option.map_eq_some_iff.mp recycled
    obtain ⟨enters, status, leaves⟩ := homeVisit_runs visit
    have restored := claim _ (homeTask _) entered left 10 0 _ _ _ _ status
      (Option.some_ne_none _) (homeTask_atHome _) enters leaves
    have same := congrArg (Option.map fun vids => vids.2.2.1) (restored.vids.others 11 (by decide))
    rw [Option.map_map, Option.map_map] at same
    cases list.symm.trans same
  · intro claim
    have cleared : (homeVisit (homeContainer 0 (some 0))).map (fun visit =>
        (visit.2.handles 10).map RtemsContainer.attached) = some (some false) := by
      decide +kernel
    obtain ⟨⟨entered, left⟩, visit, attached⟩ := Option.map_eq_some_iff.mp cleared
    obtain ⟨enters, status, leaves⟩ := homeVisit_runs visit
    have same := congrArg (Option.map Prod.fst) (claim _ (homeTask _) entered left 10 0 _ _ _ _
      status (Option.some_ne_none _) (homeTask_atHome _) enters leaves)
    rw [Option.map_map, Option.map_map] at same
    cases attached.symm.trans same

end RTContainer.Score
