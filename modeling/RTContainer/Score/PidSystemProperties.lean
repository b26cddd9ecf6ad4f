import RTContainer.Score.PidContainerProperties

/-! The PID containers as a system: every live container is valid and no thread
is listed twice. Re-homing, deletion and the member operations are described by
the container records they replace. -/

set_option autoImplicit false

namespace RTContainer.Score

open Function

variable {Thread : Type} [DecidableEq Thread] {objectId : Thread → ObjectsId}

namespace PidContainer

def rehomed (objectId : Thread → ObjectsId) :
    (Nat → Bool) → PidContainer Thread → List Thread → PidContainer Thread
  | _, root, [] => root
  | malloc, root, thread :: rest =>
    rehomed objectId (fun index => malloc (index + 1)) (root.addTask objectId thread (malloc 0))
      rest

/-- Every list node asked for while `count` members are re-homed is allocated;
`taken` VIDs have already been taken from the root since the state it is given
in. A member beyond the capacity of the root asks for none. -/
def NodesAllocated (root : PidContainer Thread) (taken : Nat) (malloc : Nat → Bool) (count : Nat) :
    Prop :=
  ∀ index, index < count →
    root.pidCount + (taken + index - root.freeVidList.length) < rtemsMaxProcessLimit - 1 →
      malloc index = true

section

omit [DecidableEq Thread]

variable {root : PidContainer Thread} {malloc : Nat → Bool} {count : Nat} {thread : Thread}
variable {members : List Thread}

private theorem takeVid_nodesAllocated {taken : Nat}
    (allocated : root.NodesAllocated (taken + 1) malloc count) :
    root.takeVid.2.NodesAllocated taken malloc count := by
  intro index inside room
  apply allocated index inside
  cases free : root.freeVidList with
  | nil =>
    simp only [takeVid, free, List.length_nil] at room ⊢
    omega
  | cons vid rest =>
    simp only [takeVid, free, List.length_cons] at room ⊢
    omega

theorem addTask_nodesAllocated (allocated : root.NodesAllocated 0 malloc (count + 1)) :
    (root.addTask objectId thread (malloc 0)).NodesAllocated 0
      (fun index => malloc (index + 1)) count := by
  by_cases room : root.pidCount < rtemsMaxProcessLimit - 1
  · have shifted : root.NodesAllocated 1 (fun index => malloc (index + 1)) count := by
      intro index inside roomLater
      apply allocated (index + 1) (by omega)
      omega
    have taken := takeVid_nodesAllocated shifted
    have sameCount : (root.addTask objectId thread (malloc 0)).pidCount =
        root.takeVid.2.pidCount := by
      cases malloc 0 <;> simp [addTask, setSlot, Nat.not_le.mpr room]
    have sameFree : (root.addTask objectId thread (malloc 0)).freeVidList =
        root.takeVid.2.freeVidList := by
      cases malloc 0 <;> simp [addTask, setSlot, Nat.not_le.mpr room]
    intro index inside roomLater
    rw [sameCount, sameFree] at roomLater
    exact taken index inside roomLater
  · rw [addTask_refused (Nat.not_lt.mp room)]
    intro index inside roomLater
    omega

theorem mem_addTask {container : PidContainer Thread} {member : Thread} {malloc : Bool}
    (listed : member ∈ (container.addTask objectId thread malloc).threadList) :
    member = thread ∨ member ∈ container.threadList := by
  have kept : container.takeVid.2.threadList = container.threadList := by
    unfold takeVid
    split <;> rfl
  by_cases room : container.pidCount < rtemsMaxProcessLimit - 1
  · cases malloc with
    | false =>
      simp only [addTask, Nat.not_le.mpr room, setSlot, ↓reduceIte, Bool.false_eq_true,
        kept] at listed
      exact .inr listed
    | true =>
      simp only [addTask, Nat.not_le.mpr room, setSlot, ↓reduceIte, kept, List.mem_cons] at listed
      exact listed
  · rw [addTask_refused (Nat.not_lt.mp room)] at listed
    exact .inr listed

theorem mem_rehomed (listed : thread ∈ (rehomed objectId malloc root members).threadList) :
    thread ∈ root.threadList ∨ thread ∈ members := by
  induction members generalizing malloc root with
  | nil => exact .inl listed
  | cons first rest ih =>
    rcases ih listed with listed | listed
    · rcases mem_addTask listed with rfl | listed
      · exact .inr List.mem_cons_self
      · exact .inl listed
    · exact .inr (.tail _ listed)

theorem Valid.rehomed (injective : Injective objectId) (valid : root.Valid objectId)
    (nodup : members.Nodup) (apart : ∀ thread ∈ members, thread ∉ root.threadList)
    (allocated : root.NodesAllocated 0 malloc members.length) :
    (PidContainer.rehomed objectId malloc root members).Valid objectId := by
  induction members generalizing malloc root with
  | nil => exact valid
  | cons first rest ih =>
    obtain ⟨fresh, restNodup⟩ := List.nodup_cons.mp nodup
    have added : (root.addTask objectId first (malloc 0)).Valid objectId := by
      refine valid.addTask injective fun room => ⟨?_, apart first List.mem_cons_self⟩
      exact allocated 0 (by simp) (by omega)
    refine ih added restNodup ?_ (addTask_nodesAllocated allocated)
    intro thread later listed
    rcases mem_addTask listed with rfl | listed
    · exact fresh later
    · exact apart thread (.tail _ later) listed

end

end PidContainer

namespace PidSystem

section Store

omit [DecidableEq Thread]

variable (system : PidSystem Thread)

@[simp] theorem store_root (address : Nat) (container : Option (PidContainer Thread)) :
    (system.store address container).root = system.root := rfl

@[simp] theorem store_pidContainer (address : Nat) (container : Option (PidContainer Thread)) :
    (system.store address container).pidContainer = system.pidContainer := rfl

@[simp] theorem store_same (address : Nat) (container : Option (PidContainer Thread)) :
    (system.store address container).containers address = container :=
  update_self ..

theorem store_other {address other : Nat}
    (container : Option (PidContainer Thread)) (different : other ≠ address) :
    (system.store address container).containers other = system.containers other :=
  update_of_ne different ..

end Store

theorem redirect_eq (system : PidSystem Thread) (thread : Thread) (old new : Nat) :
    system.redirect thread old new =
      { system with
        pidContainer := fun other =>
          if other = thread ∧ system.pidContainer other = some old then some new
          else system.pidContainer other } := by
  unfold redirect
  split
  next pointed =>
    congr 1
    funext other
    by_cases same : other = thread
    · simp [same, pointed]
    · simp [same]
  next unpointed =>
    have unchanged : ∀ other, ¬ (other = thread ∧ system.pidContainer other = some old) := by
      rintro other ⟨rfl, pointed⟩
      exact unpointed pointed
    simp [unchanged]

@[simp] theorem redirect_root (system : PidSystem Thread) (thread : Thread) (old new : Nat) :
    (system.redirect thread old new).root = system.root := by
  rw [redirect_eq]

@[simp] theorem redirect_containers (system : PidSystem Thread) (thread : Thread)
    (old new : Nat) :
    (system.redirect thread old new).containers = system.containers := by
  rw [redirect_eq]

theorem rehome_eq {deleted : Nat} {malloc : Nat → Bool} {system : PidSystem Thread}
    {root : PidContainer Thread} {members : List Thread} (different : deleted ≠ system.root)
    (live : system.containers system.root = some root) :
    rehome objectId deleted malloc system members =
      { system.store system.root (some (PidContainer.rehomed objectId malloc root members)) with
        pidContainer := fun thread =>
          if thread ∈ members ∧ system.pidContainer thread = some deleted then some system.root
          else system.pidContainer thread } := by
  induction members generalizing malloc system root with
  | nil => simp [rehome, store, PidContainer.rehomed, ← live]
  | cons first rest ih =>
    obtain ⟨added, isAdded⟩ : ∃ added, added =
        (system.store system.root (some (root.addTask objectId first (malloc 0)))).redirect
          first deleted system.root := ⟨_, rfl⟩
    have next : rehome objectId deleted malloc system (first :: rest) =
        rehome objectId deleted (fun index => malloc (index + 1)) added rest := by
      simp only [rehome, rtemsPidContainerAddTask, live, store_root, isAdded]
    rw [redirect_eq] at isAdded
    have addedRoot : added.root = system.root := by rw [isAdded]; rfl
    have addedLive : added.containers added.root =
        some (root.addTask objectId first (malloc 0)) := by
      rw [addedRoot, isAdded]
      exact store_same ..
    rw [next, ih (addedRoot ▸ different) addedLive, isAdded]
    simp only [store, update_idem, PidContainer.rehomed, mk.injEq, true_and]
    funext thread
    by_cases same : thread = first
    · by_cases pointed : system.pidContainer first = some deleted
      · simp [same, pointed, Ne.symm different]
      · simp [same, pointed]
    · simp [same]

theorem rtemsPidContainerDelete_eq {deleted : Nat} {malloc : Nat → Bool}
    {system : PidSystem Thread} {root record : PidContainer Thread}
    (different : deleted ≠ system.root) (live : system.containers system.root = some root)
    (found : system.containers deleted = some record) :
    system.rtemsPidContainerDelete objectId (some deleted) malloc =
      { (system.store deleted none).store system.root
          (some (PidContainer.rehomed objectId malloc root record.threadList)) with
        registry := system.registry.erase deleted
        pidContainer := fun thread =>
          if thread ∈ record.threadList ∧ system.pidContainer thread = some deleted then
            some system.root
          else system.pidContainer thread } := by
  simp only [rtemsPidContainerDelete, different, ↓reduceIte, found]
  obtain ⟨emptied, isEmptied⟩ : ∃ emptied, emptied =
      { system with registry := system.registry.erase deleted }.store deleted
        (some { record with rc := -1, threadList := [] }) := ⟨_, rfl⟩
  have emptiedRoot : emptied.root = system.root := by rw [isEmptied]; rfl
  have emptiedLive : emptied.containers emptied.root = some root := by
    rw [emptiedRoot, isEmptied, store_other _ _ (Ne.symm different)]
    exact live
  rw [← isEmptied, rehome_eq (emptiedRoot ▸ different) emptiedLive, isEmptied]
  simp only [store, mk.injEq, true_and]
  rw [update_comm (Ne.symm different), update_idem]
  exact ⟨rfl, rfl⟩

/-- A deletion does nothing, or it frees a live container that is not the root. -/
theorem delete_induction {deleted : Nat} {malloc : Nat → Bool} {system : PidSystem Thread}
    {property : PidSystem Thread → Prop} (same : property system)
    (rootLive : ∃ root, system.containers system.root = some root)
    (frees : ∀ root record, deleted ≠ system.root → system.containers system.root = some root →
      system.containers deleted = some record →
        property (system.rtemsPidContainerDelete objectId (some deleted) malloc)) :
    property (system.rtemsPidContainerDelete objectId (some deleted) malloc) := by
  obtain ⟨root, live⟩ := rootLive
  by_cases isRoot : deleted = system.root
  · simp only [rtemsPidContainerDelete, isRoot, ↓reduceIte]
    exact same
  cases found : system.containers deleted with
  | none =>
    simp only [rtemsPidContainerDelete, isRoot, ↓reduceIte, found]
    exact same
  | some record => exact frees root record isRoot live found

/-- Every live container is valid, the root is live, and every thread is a
member of at most one container. -/
structure Valid (objectId : Thread → ObjectsId) (system : PidSystem Thread) : Prop where
  root_live : ∃ root, system.containers system.root = some root
  container_valid : ∀ address record, system.containers address = some record →
    record.Valid objectId
  member_unique : ∀ left right leftRecord rightRecord thread,
    system.containers left = some leftRecord → system.containers right = some rightRecord →
      thread ∈ leftRecord.threadList → thread ∈ rightRecord.threadList → left = right

section Valid

variable {system : PidSystem Thread}

section

omit [DecidableEq Thread]

theorem Valid.of_containers {other : PidSystem Thread} (valid : system.Valid objectId)
    (rootEq : other.root = system.root) (containersEq : other.containers = system.containers) :
    other.Valid objectId := by
  constructor
  · rw [rootEq, containersEq]
    exact valid.root_live
  · rw [containersEq]
    exact valid.container_valid
  · rw [containersEq]
    exact valid.member_unique

variable {address : Nat} {record : PidContainer Thread}

theorem Valid.store (valid : system.Valid objectId) (recordValid : record.Valid objectId)
    (apart : ∀ other otherRecord, other ≠ address → system.containers other = some otherRecord →
      ∀ thread ∈ record.threadList, thread ∉ otherRecord.threadList) :
    (system.store address (some record)).Valid objectId := by
  constructor
  · by_cases isRoot : system.root = address
    · exact ⟨record, by rw [store_root, isRoot, store_same]⟩
    · rw [store_root, store_other _ _ isRoot]
      exact valid.root_live
  · intro other otherRecord found
    by_cases same : other = address
    · rw [same, store_same, Option.some.injEq] at found
      exact found ▸ recordValid
    · rw [store_other _ _ same] at found
      exact valid.container_valid other otherRecord found
  · intro left right leftRecord rightRecord thread leftFound rightFound leftListed rightListed
    by_cases leftSame : left = address
    · by_cases rightSame : right = address
      · exact leftSame.trans rightSame.symm
      · rw [leftSame, store_same, Option.some.injEq] at leftFound
        rw [store_other _ _ rightSame] at rightFound
        exact absurd rightListed
          (apart right rightRecord rightSame rightFound thread (leftFound ▸ leftListed))
    · rw [store_other _ _ leftSame] at leftFound
      by_cases rightSame : right = address
      · rw [rightSame, store_same, Option.some.injEq] at rightFound
        exact absurd leftListed
          (apart left leftRecord leftSame leftFound thread (rightFound ▸ rightListed))
      · rw [store_other _ _ rightSame] at rightFound
        exact valid.member_unique left right leftRecord rightRecord thread leftFound rightFound
          leftListed rightListed

theorem Valid.store_none (valid : system.Valid objectId) (different : address ≠ system.root) :
    (system.store address none).Valid objectId := by
  have found : ∀ other otherRecord,
      (system.store address none).containers other = some otherRecord →
        system.containers other = some otherRecord := by
    intro other otherRecord found
    by_cases same : other = address
    · rw [same, store_same] at found
      contradiction
    · rwa [store_other _ _ same] at found
  constructor
  · rw [store_root, store_other _ _ (Ne.symm different)]
    exact valid.root_live
  · intro other otherRecord live
    exact valid.container_valid other otherRecord (found other otherRecord live)
  · intro left right leftRecord rightRecord thread leftFound rightFound
    exact valid.member_unique left right leftRecord rightRecord thread
      (found left leftRecord leftFound) (found right rightRecord rightFound)

theorem Valid.store_shrunk {shrunk : PidContainer Thread} (valid : system.Valid objectId)
    (found : system.containers address = some record) (shrunkValid : shrunk.Valid objectId)
    (fewer : ∀ thread ∈ shrunk.threadList, thread ∈ record.threadList) :
    (system.store address (some shrunk)).Valid objectId := by
  refine valid.store shrunkValid ?_
  intro other otherRecord different otherFound thread listed otherListed
  exact different (valid.member_unique other address otherRecord record thread otherFound found
    otherListed (fewer thread listed))

end

variable {malloc : Nat → Bool} {thread : Thread} {srcContainer destContainer : Nat}

/-- A deletion keeps the containers valid if the root gets its nodes. -/
theorem Valid.delete {deleted : Nat} (injective : Injective objectId)
    (valid : system.Valid objectId) (allocated : ∀ root record, deleted ≠ system.root →
      system.containers system.root = some root → system.containers deleted = some record →
        root.NodesAllocated 0 malloc record.threadList.length) :
    (system.rtemsPidContainerDelete objectId (some deleted) malloc).Valid objectId := by
  refine delete_induction valid valid.root_live fun root record isRoot live found => ?_
  have recordValid := valid.container_valid deleted record found
  have rootValid := valid.container_valid system.root root live
  have apart : ∀ thread ∈ record.threadList, thread ∉ root.threadList := by
    intro thread listed rootListed
    exact isRoot (valid.member_unique deleted system.root record root thread found live
      listed rootListed)
  have rehomedValid := rootValid.rehomed injective recordValid.threads_nodup apart
    (allocated root record isRoot live found)
  have stored : ((system.store deleted none).store system.root (some
      (PidContainer.rehomed objectId malloc root record.threadList))).Valid objectId := by
    refine (valid.store_none isRoot).store rehomedValid ?_
    intro other otherRecord different otherFound thread listed otherListed
    have alive : other ≠ deleted := by
      rintro rfl
      rw [store_same] at otherFound
      contradiction
    rw [store_other _ _ alive] at otherFound
    rcases PidContainer.mem_rehomed listed with rootListed | recordListed
    · exact different (valid.member_unique other system.root otherRecord root thread otherFound
        live otherListed rootListed)
    · exact alive (valid.member_unique other deleted otherRecord record thread otherFound
        found otherListed recordListed)
  rw [rtemsPidContainerDelete_eq isRoot live found]
  exact stored.of_containers rfl rfl

theorem Valid.redirect (valid : system.Valid objectId) (thread : Thread) (old new : Nat) :
    (system.redirect thread old new).Valid objectId :=
  valid.of_containers (redirect_root ..) (redirect_containers ..)

section

omit [DecidableEq Thread]

theorem Valid.create {address : Option Nat} {malloc : Bool} (valid : system.Valid objectId) :
    (system.rtemsPidContainerCreate address malloc).Valid objectId := by
  cases address with
  | none => exact valid
  | some container =>
    have created : (system.store container
        (some (PidContainer.initial (system.pidContainerId + 1)))).Valid objectId :=
      valid.store (PidContainer.initial_valid objectId _) (by simp [PidContainer.initial])
    cases malloc with
    | false | true => exact created.of_containers rfl rfl

theorem Valid.incRc {container : Option Nat} (valid : system.Valid objectId) :
    (system.rtemsPidContainerIncRc container).Valid objectId := by
  cases container with
  | none => exact valid
  | some address =>
    simp only [rtemsPidContainerIncRc]
    split
    next record found =>
      exact valid.store_shrunk found (valid.container_valid address record found).of_rc
        fun thread listed => listed
    next => exact valid

theorem Valid.addTask {address : Nat} {thread : Thread} {malloc : Bool}
    (injective : Injective objectId) (valid : system.Valid objectId)
    (orderly : ∀ record, system.containers address = some record →
      record.pidCount < rtemsMaxProcessLimit - 1 → malloc = true ∧
        ∀ other otherRecord, system.containers other = some otherRecord →
          thread ∉ otherRecord.threadList) :
    (system.rtemsPidContainerAddTask objectId (some address) (some thread) malloc).Valid
      objectId := by
  simp only [rtemsPidContainerAddTask]
  split
  next record found =>
    have recordValid := valid.container_valid address record found
    by_cases room : record.pidCount < rtemsMaxProcessLimit - 1
    · obtain ⟨allocated, nowhere⟩ := orderly record found room
      refine valid.store
        (recordValid.addTask injective fun _ => ⟨allocated, nowhere address record found⟩) ?_
      intro other otherRecord different otherFound member listed otherListed
      rcases PidContainer.mem_addTask listed with rfl | listed
      · exact nowhere other otherRecord otherFound otherListed
      · exact different (valid.member_unique other address otherRecord record member otherFound
          found otherListed listed)
    · rw [PidContainer.addTask_refused (Nat.not_lt.mp room)]
      exact valid.store_shrunk found recordValid fun member listed => listed
  next => exact valid

end

section

variable (injective : Injective objectId)
include injective

theorem Valid.removeTask {address : Nat} (nonzero : ∀ thread, objectId thread ≠ 0)
    (valid : system.Valid objectId) (allocated : ∀ root record, address ≠ system.root →
      system.containers system.root = some root → system.containers address = some record →
        record.rc = 1 → (thread ∈ record.threadList → malloc 0 = true) →
          root.NodesAllocated 0 (fun index => malloc (index + 1))
            (record.threadList.erase thread).length) :
    (system.rtemsPidContainerRemoveTask objectId (some address) (some thread) malloc).Valid
      objectId := by
  simp only [rtemsPidContainerRemoveTask]
  split
  next => exact valid
  next left removed =>
    obtain ⟨record, found, removed⟩ := Option.bind_eq_some_iff.mp removed
    have recordValid := valid.container_valid address record found
    have leftThreads : left.threadList = record.threadList.erase thread ∧
        left.rc = record.rc - 1 ∧ (thread ∈ record.threadList → malloc 0 = true) := by
      obtain ⟨-, ⟨-, mallocked, vid, -, -, rfl⟩ | ⟨absent, rfl⟩⟩ :=
        recordValid.removeTask_cases injective nonzero removed
      · exact ⟨rfl, rfl, fun _ => mallocked⟩
      · exact ⟨(List.erase_of_not_mem absent).symm, rfl, fun listed => absurd listed absent⟩
    obtain ⟨threads, rcEq, mallocked⟩ := leftThreads
    have removedValid : (system.store address (some left)).Valid objectId := by
      refine valid.store_shrunk found (recordValid.removeTask injective nonzero removed) ?_
      intro member listed
      rw [threads] at listed
      exact List.mem_of_mem_erase listed
    split
    next emptied =>
      refine removedValid.delete injective ?_
      intro root leftAgain different live leftFound
      have different : address ≠ system.root := different
      rw [store_same, Option.some.injEq] at leftFound
      rw [store_root, store_other _ _ (Ne.symm different)] at live
      rw [← leftFound, threads]
      exact allocated root record different live found (by omega) mallocked
    next => exact removedValid

theorem Valid.store_moved {src dest : PidContainer Thread} {vid : Nat}
    (valid : system.Valid objectId) (different : srcContainer ≠ destContainer)
    (srcFound : system.containers srcContainer = some src)
    (destFound : system.containers destContainer = some dest) (listed : thread ∈ src.threadList)
    (absent : thread ∉ dest.threadList)
    (room : dest.freeVidList ≠ [] ∨ dest.pidCount < rtemsMaxProcessLimit - 1) (used : src.Used vid)
    (named : (src.pidArray vid).id = objectId thread) :
    ((system.store srcContainer (some (leaveSource src thread vid))).store destContainer
      (some (joinDest objectId dest.takeVid.2 thread dest.takeVid.1))).Valid objectId := by
  have srcValid := valid.container_valid srcContainer src srcFound
  have destValid := valid.container_valid destContainer dest destFound
  have spec := destValid.takeVid_spec room
  have leftValid := PidContainer.leaveSource_valid injective srcValid used named
  have joinedValid := PidContainer.joinDest_valid injective destValid spec absent
  refine (valid.store_shrunk srcFound leftValid
    fun member still => List.mem_of_mem_erase still).store joinedValid ?_
  intro other otherRecord away otherFound member joinedListed otherListed
  have joinedMember : member = thread ∨ member ∈ dest.threadList := by
    have := List.mem_cons.mp joinedListed
    rwa [spec.threads_eq] at this
  by_cases isSrc : other = srcContainer
  · rw [isSrc, store_same, Option.some.injEq] at otherFound
    subst otherRecord
    obtain ⟨still, srcListed⟩ := srcValid.threads_nodup.mem_erase_iff.mp otherListed
    rcases joinedMember with rfl | destListed
    · exact still rfl
    · exact different (valid.member_unique srcContainer destContainer src dest member
        srcFound destFound srcListed destListed)
  · rw [store_other _ _ isSrc] at otherFound
    rcases joinedMember with rfl | destListed
    · exact isSrc (valid.member_unique other srcContainer otherRecord src member otherFound
        srcFound otherListed listed)
    · exact away (valid.member_unique other destContainer otherRecord dest member otherFound
        destFound otherListed destListed)

/-- A move keeps both containers and the pointers valid. -/
theorem Valid.moveTask (nonzero : ∀ thread, objectId thread ≠ 0) (valid : system.Valid objectId)
    (allocated : ∀ root src dest, srcContainer ≠ destContainer → srcContainer ≠ system.root →
      system.containers system.root = some root → system.containers srcContainer = some src →
        system.containers destContainer = some dest → src.rc = 1 → thread ∈ src.threadList →
          dest.CanTake (malloc 0) →
            root.NodesAllocated (if destContainer = system.root then 1 else 0)
              (fun index => malloc (index + 1)) (src.threadList.erase thread).length) :
    (system.rtemsPidContainerMoveTask objectId (some srcContainer) (some destContainer)
      (some thread) malloc).Valid objectId := by
  simp only [rtemsPidContainerMoveTask]
  split
  next => exact valid
  next different =>
    split
    next src dest srcFound destFound =>
      have srcValid := valid.container_valid srcContainer src srcFound
      split
      next => exact valid
      next left joined moved =>
        obtain ⟨-, listed, absent, can, vid, used, named, same⟩ :=
          (PidContainer.moveRecords_eq_some nonzero srcValid).mp moved
        obtain ⟨rfl, rfl⟩ := Prod.mk.inj same
        have movedValid := valid.store_moved injective different srcFound destFound listed absent
          can.room used named
        have pointedValid := movedValid.redirect thread srcContainer destContainer
        split
        next emptied =>
          refine pointedValid.delete injective ?_
          intro root left away live leftFound
          rw [redirect_root, store_root, store_root] at away live
          rw [redirect_containers] at live leftFound
          rw [store_other _ _ different, store_same, Option.some.injEq] at leftFound
          have counted : src.rc = 1 := by
            have : src.rc - 1 = 0 := emptied
            omega
          rw [← leftFound]
          by_cases isRoot : destContainer = system.root
          · subst isRoot
            rw [store_same, Option.some.injEq] at live
            have allocated := allocated dest src dest different away destFound srcFound destFound
              counted listed can
            rw [if_pos rfl] at allocated
            rw [← live]
            exact PidContainer.takeVid_nodesAllocated allocated
          · rw [store_other _ _ (Ne.symm isRoot), store_other _ _ (Ne.symm away)] at live
            have allocated := allocated root src dest different away live srcFound destFound
              counted listed can
            rwa [if_neg isRoot] at allocated
        next => exact pointedValid
    next => exact valid

end

end Valid

end PidSystem

end RTContainer.Score
