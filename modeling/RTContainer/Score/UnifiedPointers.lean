import RTContainer.Score.PidPointers
import RTContainer.Score.UnifiedRuns

/-! The PID namespace of the threads over runs of the unified containers: where
a thread points to and which list it is on. -/

set_option autoImplicit false

namespace RTContainer.Score

open RTContainer.Rtems Machine Function

variable {Thread : Type} [DecidableEq Thread] {names : ObjectNames Thread}

namespace UnifiedSystem

structure Agreement (system : UnifiedSystem Thread) : Prop where
  pids : system.pids.Agreement
  objects : ∀ thread, system.hasContainer thread = (system.pids.pidContainer thread).isSome
  handles : ∀ address container, system.handles address = some container →
    container.hasPid = true → container.pidContainer.isSome

/-- The first container object of a thread is made in a root with room for it. -/
def EnsureKeeps (system : UnifiedSystem Thread) (thread : Thread) (calloc pidNode : Bool) : Prop :=
  system.hasContainer thread = false → calloc = true →
    ∀ root, system.pids.containers system.pids.root = some root →
      root.pidCount < rtemsMaxProcessLimit - 1 ∧ pidNode = true

def MoveSucceeds (names : ObjectNames Thread) (pids : PidSystem Thread)
    (srcContainer destContainer : Option Nat) (thread : Thread) (malloc : Nat → Bool) : Prop :=
  ∀ srcAddress destAddress src dest, srcContainer = some srcAddress →
    destContainer = some destAddress → srcAddress ≠ destAddress →
      pids.containers srcAddress = some src → pids.containers destAddress = some dest →
        PidContainer.Moves names.threadId src dest thread (malloc 0) ∧
          pids.MoveKeeps srcAddress destAddress src thread

def EnterKeeps (names : ObjectNames Thread) (system : UnifiedSystem Thread)
    (container : RtemsContainer Thread) (thread : Thread) (malloc : Nat → Bool) : Prop :=
  (container.attached = true → container.attachedThread = some thread) →
    container.hasPid = true →
      MoveSucceeds names system.pids (system.pids.pidContainer thread) container.pidContainer thread
        malloc

def LeaveKeeps (names : ObjectNames Thread) (system : UnifiedSystem Thread)
    (container : RtemsContainer Thread) (thread : Thread) (malloc : Nat → Bool) : Prop :=
  container.hasPid = true → system.pids.pidContainer thread = container.pidContainer →
    MoveSucceeds names system.pids container.pidContainer (some system.pids.root) thread malloc

/-- The root has room for the members of the PID container that is deleted. -/
def ReleaseKeeps (system : UnifiedSystem Thread) (container : RtemsContainer Thread)
    (malloc : Nat → Bool) : Prop :=
  ∀ deleted root record, container.pidContainer = some deleted → deleted ≠ system.pids.root →
    system.pids.containers system.pids.root = some root →
      system.pids.containers deleted = some record → root.RoomFor malloc record.threadList.length

section

variable {system next : UnifiedSystem Thread} {container : RtemsContainer Thread} {thread : Thread}
variable {status : StatusCode}

theorem setPidContainer_self {pidContainer : Option Nat}
    (same : system.pids.pidContainer thread = pidContainer) :
    system.setPidContainer thread pidContainer = system := by
  subst same
  simp [setPidContainer]

variable {address : Nat} {malloc : Nat → Bool}

section

variable (agreement : system.Agreement)
include agreement

theorem Agreement.setHandle
    (own : container.hasPid = true → container.pidContainer.isSome) :
    (system.setHandle address (some container)).Agreement := by
  refine ⟨agreement.pids, agreement.objects, ?_⟩
  intro other otherContainer found
  by_cases same : other = address
  · simp only [UnifiedSystem.setHandle, same, update_self, Option.some.injEq] at found
    subst otherContainer
    exact own
  · simp only [UnifiedSystem.setHandle, update_of_ne same] at found
    exact agreement.handles other otherContainer found

theorem Agreement.clearHandle :
    (system.setHandle address none).Agreement := by
  refine ⟨agreement.pids, agreement.objects, ?_⟩
  intro other otherContainer found
  by_cases same : other = address
  · simp [UnifiedSystem.setHandle, same] at found
  · simp only [UnifiedSystem.setHandle, update_of_ne same] at found
    exact agreement.handles other otherContainer found

theorem Agreement.withPids {pids : PidSystem Thread}
    (pidAgreement : pids.Agreement)
    (pointers : ∀ thread, (pids.pidContainer thread).isSome =
      (system.pids.pidContainer thread).isSome) :
    ({ system with pids := pids } : UnifiedSystem Thread).Agreement := by
  refine ⟨pidAgreement, ?_, agreement.handles⟩
  intro thread
  rw [pointers]
  exact agreement.objects thread

theorem Agreement.ensure {calloc pidNode : Bool}
    (keeps : system.EnsureKeeps thread calloc pidNode) :
    (system.ensureThreadContainer names thread calloc pidNode).1.Agreement ∧
      (system.ensureThreadContainer names thread calloc pidNode).1.handles = system.handles ∧
      ((system.ensureThreadContainer names thread calloc pidNode).2 = .successful →
        (system.ensureThreadContainer names thread calloc pidNode).1.hasContainer thread =
          true) := by
  unfold ensureThreadContainer
  cases has : system.hasContainer thread with
  | true => exact ⟨agreement, rfl, fun _ => has⟩
  | false =>
    cases calloc with
    | false =>
      refine ⟨agreement, rfl, ?_⟩
      intro successful
      cases successful
    | true =>
      obtain ⟨root, live⟩ := agreement.pids.root_live
      obtain ⟨room, rfl⟩ := keeps has rfl root live
      have unpointed : system.pids.pidContainer thread = none := by
        have object := agreement.objects thread
        rw [has] at object
        exact Option.not_isSome_iff_eq_none.mp (by simp [← object])
      have joins : (root.addTask names.threadId thread true).threadList =
          thread :: root.threadList := PidContainer.addTask_threadList room
      have joined := agreement.pids.join live unpointed joins (.inl rfl)
      simp only [Bool.false_eq_true, ↓reduceIte, Bool.not_true, setPidContainer,
        PidSystem.rtemsPidContainerAddTask, live, update_self, implies_true, and_true]
      refine ⟨joined, ?_, agreement.handles⟩
      intro other
      by_cases same : other = thread
      · simp [same]
      · simp only [update_of_ne same]
        exact agreement.objects other

theorem Agreement.move {srcContainer destContainer : Option Nat}
    (pointed : system.pids.pidContainer thread = srcContainer) (srcSome : srcContainer.isSome)
    (destSome : destContainer.isSome) (destLive : PidCall.Points system.pids destContainer)
    (different : srcContainer ≠ destContainer)
    (succeeds : MoveSucceeds names system.pids srcContainer destContainer thread malloc) :
    let moved : UnifiedSystem Thread :=
      { system with
        pids := system.pids.rtemsPidContainerMoveTask names.threadId srcContainer destContainer
          (some thread) malloc }
    moved.Agreement ∧ moved.pids.pidContainer thread = destContainer ∧
      moved.pids.root = system.pids.root := by
  obtain ⟨srcAddress, rfl⟩ := Option.isSome_iff_exists.mp srcSome
  obtain ⟨destAddress, rfl⟩ := Option.isSome_iff_exists.mp destSome
  have different : srcAddress ≠ destAddress := fun same => different (congrArg some same)
  obtain ⟨src, srcFound, -⟩ :=
    PidSystem.onList_iff.mp ((agreement.pids.listed thread srcAddress).mp pointed)
  obtain ⟨dest, destFound⟩ := Option.isSome_iff_exists.mp (destLive destAddress rfl)
  obtain ⟨moves, keeps⟩ :=
    succeeds srcAddress destAddress src dest rfl rfl different srcFound destFound
  obtain ⟨movedAgreement, arrived, sameRoot⟩ :=
    agreement.pids.moveTask_moves different srcFound destFound moves keeps
  exact ⟨agreement.withPids movedAgreement fun other => PidSystem.moveTask_isSome .., arrived,
    sameRoot⟩

theorem Agreement.enterPid (has : system.hasContainer thread = true)
    (own : container.hasPid = true → container.pidContainer.isSome)
    (live : PidCall.Points system.pids container.pidContainer)
    (succeeds : container.hasPid = true → MoveSucceeds names system.pids
      (system.pids.pidContainer thread) container.pidContainer thread malloc) :
    (system.enterPid names container thread malloc).Agreement ∧
      (system.enterPid names container thread malloc).handles = system.handles ∧
      (container.hasPid = true →
        (system.enterPid names container thread malloc).pids.pidContainer thread =
          container.pidContainer) := by
  cases withPid : container.hasPid with
  | false =>
    simp only [UnifiedSystem.enterPid, withPid, Bool.false_eq_true, ↓reduceIte,
      IsEmpty.forall_iff, and_true]
    exact agreement
  | true =>
    simp only [UnifiedSystem.enterPid, withPid, ↓reduceIte, forall_const]
    by_cases same : system.pids.pidContainer thread = container.pidContainer
    · simp only [same, ↓reduceIte]
      rw [setPidContainer_self same]
      exact ⟨agreement, rfl, same⟩
    · simp only [same, ↓reduceIte]
      have srcSome : (system.pids.pidContainer thread).isSome := by
        rw [← agreement.objects thread, has]
      obtain ⟨moved, arrived, -⟩ := agreement.move rfl srcSome (own withPid) live same
        (succeeds withPid)
      rw [setPidContainer_self arrived]
      exact ⟨moved, rfl, arrived⟩

theorem Agreement.leavePid
    (own : container.hasPid = true → container.pidContainer.isSome)
    (keeps : system.LeaveKeeps names container thread malloc) :
    (system.leavePid names container thread malloc).Agreement ∧
      (system.leavePid names container thread malloc).handles = system.handles ∧
      (container.hasPid = true → system.pids.pidContainer thread = container.pidContainer →
        (system.leavePid names container thread malloc).pids.pidContainer thread =
          some (system.leavePid names container thread malloc).pids.root) := by
  by_cases inside : container.hasPid = true ∧
      system.pids.pidContainer thread = container.pidContainer
  · obtain ⟨withPid, pointed⟩ := inside
    simp only [UnifiedSystem.leavePid, withPid, pointed, and_self, ↓reduceIte, forall_const]
    by_cases same : container.pidContainer = some system.pids.root
    · have stays : system.pids.rtemsPidContainerMoveTask names.threadId (some system.pids.root)
          (some system.pids.root) (some thread) malloc = system.pids := by
        simp [PidSystem.rtemsPidContainerMoveTask]
      rw [same, stays, setPidContainer_self (pointed.trans same)]
      exact ⟨agreement, rfl, pointed.trans same⟩
    · have rootLive : PidCall.Points system.pids (some system.pids.root) := by
        intro address isRoot
        cases isRoot
        obtain ⟨root, live⟩ := agreement.pids.root_live
        rw [live]
        rfl
      obtain ⟨moved, arrived, sameRoot⟩ := agreement.move pointed (own withPid) rfl rootLive same
        (keeps withPid pointed)
      rw [setPidContainer_self arrived]
      exact ⟨moved, rfl, arrived.trans (congrArg some sameRoot.symm)⟩
  · have stays : system.leavePid names container thread malloc = system := by
      simp only [UnifiedSystem.leavePid, inside, ↓reduceIte]
    rw [stays]
    exact ⟨agreement, rfl, fun withPid pointed => absurd ⟨withPid, pointed⟩ inside⟩

end

structure SameNamespaces (system next : UnifiedSystem Thread) : Prop where
  pids : next.pids = system.pids
  hasContainer : next.hasContainer = system.hasContainer
  handles : next.handles = system.handles

theorem Agreement.of_same (agreement : system.Agreement) (same : SameNamespaces system next) :
    next.Agreement := by
  refine ⟨?_, ?_, ?_⟩
  · rw [same.pids]
    exact agreement.pids
  · rw [same.hasContainer, same.pids]
    exact agreement.objects
  · rw [same.handles]
    exact agreement.handles

theorem enterCgroup_same {workspace : Bool}
    (joined : system.enterCgroup names container thread workspace = some (next, status)) :
    SameNamespaces system next := by
  unfold enterCgroup at joined
  split at joined
  · split at joined
    · cases joined
      exact ⟨rfl, rfl, rfl⟩
    · split at joined
      · obtain ⟨⟨cgroups, code⟩, -, made⟩ := Option.map_eq_some_iff.mp joined
        cases made
        exact ⟨rfl, rfl, rfl⟩
      · cases joined
        exact ⟨rfl, rfl, rfl⟩
  · cases joined
    exact ⟨rfl, rfl, rfl⟩

theorem leaveCgroup_same
    (left : system.leaveCgroup names container thread = some (next, status)) :
    SameNamespaces system next := by
  unfold leaveCgroup at left
  split at left
  · obtain ⟨⟨cgroups, code⟩, -, made⟩ := Option.map_eq_some_iff.mp left
    cases made
    exact ⟨rfl, rfl, rfl⟩
  · cases left
    exact ⟨rfl, rfl, rfl⟩

theorem Agreement.enterParts {outcomes : EnterOutcomes} (agreement : system.Agreement)
    (found : system.handles address = some container) (has : system.hasContainer thread = true)
    (live : PidCall.Points system.pids container.pidContainer)
    (keeps : system.EnterKeeps names container thread outcomes.move)
    (performed : system.enterParts names address container thread outcomes =
      some (next, status)) :
    next.Agreement ∧ (status = .successful → container.hasPid = true →
      next.pids.pidContainer thread = container.pidContainer) := by
  have own := agreement.handles address container found
  unfold UnifiedSystem.enterParts at performed
  split at performed
  next =>
    cases performed
    refine ⟨agreement, ?_⟩
    intro successful
    cases successful
  next admitted =>
    have admitted : container.attached = true → container.attachedThread = some thread := by
      intro attached
      by_contra other
      exact admitted ⟨attached, other⟩
    obtain ⟨moved, -, arrived⟩ := agreement.enterPid has own live (keeps admitted)
    obtain ⟨-, performed⟩ := Option.ite_none_left_eq_some.mp performed
    dsimp only at performed
    split at performed
    next failed =>
      cases performed
      exact ⟨moved, fun _ => arrived⟩
    next =>
      obtain ⟨⟨joined, code⟩, joining, ended⟩ := Option.map_eq_some_iff.mp performed
      have same := enterCgroup_same joining
      have joinedAgreement := moved.of_same same
      have joinedArrived : container.hasPid = true →
          joined.pids.pidContainer thread = container.pidContainer := by
        rw [same.pids]
        exact arrived
      dsimp only at ended
      split at ended
      · cases ended
        exact ⟨joinedAgreement, fun _ => joinedArrived⟩
      · split at ended
        · cases ended
          exact ⟨joinedAgreement, fun _ => joinedArrived⟩
        · cases ended
          exact ⟨joinedAgreement.setHandle own, fun _ => joinedArrived⟩

theorem Agreement.leaveParts {io : StatusCode} (agreement : system.Agreement)
    (found : system.handles address = some container)
    (keeps : system.LeaveKeeps names container thread malloc)
    (performed : system.leaveParts names address container thread malloc io =
      some (next, status)) :
    next.Agreement ∧
      (container.hasPid = true → system.pids.pidContainer thread = container.pidContainer →
        next.pids.pidContainer thread = some next.pids.root) := by
  have own := agreement.handles address container found
  obtain ⟨left, -, returned⟩ := agreement.leavePid own keeps
  obtain ⟨-, performed⟩ := Option.ite_none_left_eq_some.mp performed
  obtain ⟨⟨severed, code⟩, severing, ended⟩ := Option.map_eq_some_iff.mp performed
  have same := leaveCgroup_same severing
  have severedAgreement := left.of_same same
  rw [← same.pids] at returned
  cases ended
  split
  · exact ⟨severedAgreement.setHandle own, returned⟩
  · exact ⟨severedAgreement, returned⟩

theorem Agreement.release {address : Nat} {first : StatusCode} {malloc : Nat → Bool}
    (agreement : system.Agreement) (keeps : system.ReleaseKeeps container malloc) :
    (system.release names address container first malloc).1.Agreement := by
  have deleted : (system.pids.rtemsPidContainerDelete names.threadId container.pidContainer
      malloc).Agreement := by
    cases deleting : container.pidContainer with
    | none => exact agreement.pids
    | some deleted =>
      refine agreement.pids.delete ?_
      intro root record away live found
      exact keeps deleted root record deleting away live found
  have withPids := agreement.withPids deleted fun thread =>
    PidSystem.delete_isSome container.pidContainer malloc thread
  exact Agreement.clearHandle ⟨withPids.pids, withPids.objects, withPids.handles⟩

theorem ensure_points {calloc pidNode : Bool} {pidContainer : Option Nat}
    (live : PidCall.Points system.pids pidContainer) :
    PidCall.Points (system.ensureThreadContainer names thread calloc pidNode).1.pids
      pidContainer := by
  intro address isContainer
  have before := live address isContainer
  unfold ensureThreadContainer
  split
  · exact before
  · split
    · exact before
    · simp only [setPidContainer, PidSystem.rtemsPidContainerAddTask]
      split
      next root _ =>
        by_cases same : address = system.pids.root
        · simp [same]
        · simpa [PidSystem.store_other _ _ same] using before
      next => exact before

/-- What a create has made of the PID namespace: a new container without
members. -/
structure CreatedPid (made : UnifiedSystem Thread) (container : RtemsContainer Thread) : Prop where
  agreement : made.Agreement
  empty : ∀ deleted record, container.pidContainer = some deleted →
    made.pids.containers deleted = some record → record.threadList = []

theorem Agreement.createPid {created : RtemsContainer Thread} {outcomes : CreateOutcomes}
    (agreement : system.Agreement) (without : created.pidContainer = none)
    (fresh : ∀ address, outcomes.pidContainer = some address →
      system.pids.containers address = none) :
    CreatedPid (system.createPid created outcomes).1 (system.createPid created outcomes).2.1 ∧
      ((system.createPid created outcomes).2.2 = .successful →
        (system.createPid created outcomes).2.1.hasPid = true →
          (system.createPid created outcomes).2.1.pidContainer.isSome) := by
  unfold UnifiedSystem.createPid
  split
  next withPid =>
    cases allocated : outcomes.pidContainer with
    | none =>
      dsimp only
      refine ⟨⟨agreement, ?_⟩, ?_⟩
      · intro deleted record isDeleted
        rw [without] at isDeleted
        cases isDeleted
      · intro successful
        cases successful
    | some address =>
      dsimp only
      rw [allocated] at fresh
      have created := @PidSystem.Agreement.create Thread _ system.pids agreement.pids
        (some address) outcomes.pidNode fresh
      have made := @PidSystem.Agreement.incRc Thread _ _ created (some address)
      refine ⟨⟨agreement.withPids made ?_, ?_⟩, fun _ _ => rfl⟩
      · intro thread
        rw [PidSystem.incRc_pointers, PidSystem.create_pointers]
      · intro deleted record isDeleted found
        cases isDeleted
        have stored : (system.pids.rtemsPidContainerCreate (some address)
            outcomes.pidNode).containers address =
              some (PidContainer.initial (system.pids.pidContainerId + 1)) := by
          cases outcomes.pidNode <;> simp [PidSystem.rtemsPidContainerCreate]
        simp only [PidSystem.rtemsPidContainerIncRc, stored, PidSystem.store_same,
          Option.some.injEq] at found
        rw [← found]
        rfl
  next withoutPid =>
    refine ⟨⟨agreement, ?_⟩, ?_⟩
    · intro deleted record isDeleted
      rw [without] at isDeleted
      cases isDeleted
    · intro _ withPid
      exact absurd withPid withoutPid

omit [DecidableEq Thread] in
theorem createCgroup_same {created : RtemsContainer Thread} {outcomes : CreateOutcomes} :
    SameNamespaces system (system.createCgroup created outcomes).1 ∧
      (system.createCgroup created outcomes).2.1.flags = created.flags ∧
      (system.createCgroup created outcomes).2.1.pidContainer = created.pidContainer := by
  unfold createCgroup
  split
  · split
    · exact ⟨⟨rfl, rfl, rfl⟩, rfl, rfl⟩
    · split
      · exact ⟨⟨rfl, rfl, rfl⟩, rfl, rfl⟩
      · exact ⟨⟨rfl, rfl, rfl⟩, rfl, rfl⟩
  · exact ⟨⟨rfl, rfl, rfl⟩, rfl, rfl⟩

theorem Agreement.create {flags : BitVec 32} {outcomes : CreateOutcomes}
    (agreement : system.Agreement)
    (fresh : ∀ address, outcomes.pidContainer = some address →
      system.pids.containers address = none) :
    (system.rtemsUnifiedContainerCreate names flags outcomes).1.Agreement := by
  unfold rtemsUnifiedContainerCreate
  cases outcomes.calloc with
  | none => exact agreement
  | some address =>
    obtain ⟨pidCreated, own⟩ := @Agreement.createPid Thread _ system
      ⟨flags, false, none, none, 0, none⟩ outcomes agreement rfl fresh
    rcases pidResult : system.createPid ⟨flags, false, none, none, 0, none⟩ outcomes with
      ⟨pidMade, made, pidStatus⟩
    rw [pidResult] at pidCreated own
    dsimp only at pidCreated own ⊢
    have released : ∀ (state : UnifiedSystem Thread) (container : RtemsContainer Thread),
        SameNamespaces pidMade state → container.pidContainer = made.pidContainer →
          (state.release names address container .successful outcomes.deletion).1.Agreement := by
      intro state container same samePid
      refine (pidCreated.agreement.of_same same).release ?_
      intro deleted root record isDeleted _ _ found index inside
      rw [samePid] at isDeleted
      rw [same.pids] at found
      rw [pidCreated.empty deleted record isDeleted found] at inside
      cases inside
    cases parts : firstError pidStatus outcomes.namespaces with
    | successful =>
      have pidSuccess : pidStatus = .successful := by
        unfold firstError at parts
        split at parts
        next success => exact success
        next => exact parts
      obtain ⟨same, sameFlags, samePid⟩ :=
        @createCgroup_same Thread pidMade made outcomes
      rcases cgroupResult : pidMade.createCgroup made outcomes with
        ⟨created, container, status⟩
      rw [cgroupResult] at same sameFlags samePid
      dsimp only at same sameFlags samePid ⊢
      split
      · refine (pidCreated.agreement.of_same same).setHandle ?_
        intro withPid
        rw [samePid]
        exact own pidSuccess (by rwa [RtemsContainer.hasPid, sameFlags] at withPid)
      · exact released created container same samePid
    | _ =>
      dsimp only
      split
      next impossible => simp [firstError] at impossible
      next => exact released pidMade made ⟨rfl, rfl, rfl⟩ rfl

end

end UnifiedSystem

open UnifiedSystem

namespace UnifiedCall

def KeepsPointers (names : ObjectNames Thread) (system : UnifiedSystem Thread) :
    UnifiedCall Thread → Prop
  | .enter (some address) thread executing outcomes =>
    ∀ container, system.handles address = some container →
      system.EnsureKeeps (thread.getD executing) outcomes.calloc outcomes.pidNode ∧
        EnterKeeps names
          (system.ensureThreadContainer names (thread.getD executing) outcomes.calloc
            outcomes.pidNode).1 container (thread.getD executing) outcomes.move
  | .leave (some address) thread executing malloc _ =>
    ∀ container, system.handles address = some container →
      system.LeaveKeeps names container ((thread.or container.attachedThread).getD executing) malloc
  | .delete (some address) executing leaveMalloc io malloc =>
    ∀ container, system.handles address = some container →
      if container.attached ∧ container.attachedThread ≠ none then
        system.LeaveKeeps names container (container.attachedThread.getD executing) leaveMalloc ∧
        ∀ left status, system.rtemsUnifiedContainerLeave names (some address)
            container.attachedThread executing leaveMalloc io = some (left, status) →
          left.ReleaseKeeps container malloc
      else system.ReleaseKeeps container malloc
  | .pid call => call.KeepsPointers names.threadId system.pids
  | _ => True

section

variable {system next : UnifiedSystem Thread}

variable {address : Nat} {thread : Option Thread} {executing : Thread} {status io : StatusCode}
variable {container : RtemsContainer Thread} {malloc : Nat → Bool} {call : UnifiedCall Thread}

theorem enter_agreement {outcomes : EnterOutcomes} (agreement : system.Agreement)
    (found : system.handles address = some container)
    (live : PidCall.Points system.pids container.pidContainer)
    (keeps : KeepsPointers names system (.enter (some address) thread executing outcomes))
    (performed : system.rtemsUnifiedContainerEnter names (some address) thread executing outcomes =
      some (next, status)) :
    next.Agreement ∧ (status = .successful → container.hasPid = true →
      next.pids.pidContainer (thread.getD executing) = container.pidContainer) := by
  obtain ⟨ensureKeeps, enterKeeps⟩ := keeps container found
  obtain ⟨ensured, sameHandles, has⟩ := @Agreement.ensure Thread _ names system
    (thread.getD executing) agreement outcomes.calloc outcomes.pidNode ensureKeeps
  have ensuredLive := @ensure_points Thread _ names system (thread.getD executing) outcomes.calloc
    outcomes.pidNode container.pidContainer live
  simp only [rtemsUnifiedContainerEnter, found, Option.bind_some] at performed
  split at performed
  next failed =>
    cases performed
    exact ⟨ensured, fun successful => absurd successful failed⟩
  next succeeded =>
    exact ensured.enterParts (sameHandles ▸ found) (has (not_not.mp succeeded)) ensuredLive
      enterKeeps performed

theorem leave_agreement (agreement : system.Agreement)
    (found : system.handles address = some container) (keeps : system.LeaveKeeps names container
      ((thread.or container.attachedThread).getD executing) malloc)
    (performed : system.rtemsUnifiedContainerLeave names (some address) thread executing malloc
      io = some (next, status)) :
    next.Agreement ∧ (status = .successful → container.hasPid = true →
      system.pids.pidContainer ((thread.or container.attachedThread).getD executing) =
        container.pidContainer →
      next.pids.pidContainer ((thread.or container.attachedThread).getD executing) =
        some next.pids.root) := by
  simp only [rtemsUnifiedContainerLeave, found, Option.bind_some] at performed
  split at performed
  next =>
    cases performed
    refine ⟨agreement, ?_⟩
    intro successful
    cases successful
  next =>
    obtain ⟨left, returned⟩ := agreement.leaveParts found keeps performed
    exact ⟨left, fun _ => returned⟩

theorem delete_agreement {leaveMalloc : Nat → Bool} (agreement : system.Agreement)
    (found : system.handles address = some container)
    (keeps : KeepsPointers names system (.delete (some address) executing leaveMalloc io malloc))
    (performed : system.rtemsUnifiedContainerDelete names (some address) executing leaveMalloc io
      malloc = some (next, status)) : next.Agreement := by
  have keeps := keeps container found
  simp only [rtemsUnifiedContainerDelete, found, Option.bind_some] at performed
  split at performed
  next attached =>
    rw [if_pos attached] at keeps
    obtain ⟨leaveKeeps, releaseKeeps⟩ := keeps
    obtain ⟨⟨left, first⟩, leaving, ended⟩ := Option.bind_eq_some_iff.mp performed
    have sameThread : (container.attachedThread.or container.attachedThread) =
        container.attachedThread := by simp
    have leftAgreement := (leave_agreement agreement found (by rwa [sameThread]) leaving).1
    have released := @Agreement.release Thread _ names left container address first malloc
      leftAgreement (releaseKeeps left first leaving)
    rw [releaseLive_some ended] at released
    exact released
  next unattached =>
    rw [if_neg unattached] at keeps
    have released := @Agreement.release Thread _ names system container address .successful malloc
      agreement keeps
    rw [releaseLive_some performed] at released
    exact released

theorem perform_agreement (agreement : system.Agreement) (wellFormed : call.WellFormed system)
    (keeps : call.KeepsPointers names system) (performed : call.perform names system = some next) :
    next.Agreement := by
  have cgroupsOnly : ∀ cgroups : CgroupSystem Thread,
      ({ system with cgroups := cgroups } : UnifiedSystem Thread).Agreement :=
    fun _ => ⟨agreement.pids, agreement.objects, agreement.handles⟩
  cases call with
  | create flags outcomes =>
    cases performed
    exact agreement.create wellFormed.2.1
  | enter container thread executing outcomes =>
    obtain ⟨⟨after, status⟩, made, rfl⟩ := Option.map_eq_some_iff.mp performed
    cases container with
    | none =>
      cases made
      exact agreement
    | some address =>
      obtain ⟨handle, found, live⟩ := wellFormed address rfl
      exact (enter_agreement agreement found live keeps made).1
  | leave container thread executing malloc io =>
    obtain ⟨⟨after, status⟩, made, rfl⟩ := Option.map_eq_some_iff.mp performed
    cases container with
    | none =>
      cases made
      exact agreement
    | some address =>
      obtain ⟨handle, found, -⟩ := wellFormed address rfl
      exact (leave_agreement agreement found (keeps handle found) made).1
  | delete container executing leaveMalloc io malloc =>
    obtain ⟨⟨after, status⟩, made, rfl⟩ := Option.map_eq_some_iff.mp performed
    cases container with
    | none =>
      cases made
      exact agreement
    | some address =>
      obtain ⟨handle, found, -⟩ := wellFormed address rfl
      exact delete_agreement agreement found keeps made
  | pid call =>
    cases performed
    exact agreement.withPids (PidCall.step_agreement agreement.pids wellFormed keeps)
      fun thread => PidCall.step_isSome call thread
  | cgroupCreate | cgroupDelete =>
    cases performed
    exact cgroupsOnly _
  | cgroupAddTask | cgroupRemoveTask =>
    obtain ⟨⟨cgroups, status⟩, -, rfl⟩ := Option.map_eq_some_iff.mp performed
    exact cgroupsOnly cgroups

/-- A successful enter leaves the thread on the list of the container, and a
successful leave of a thread of the container on that of the root. -/
def Arrives (names : ObjectNames Thread) (state : Option (UnifiedSystem Thread)) :
    UnifiedCall Thread → Prop
  | .enter (some address) thread executing outcomes =>
    ∀ system next container, state = some system → system.handles address = some container →
      container.hasPid = true →
        system.rtemsUnifiedContainerEnter names (some address) thread executing outcomes =
            some (next, .successful) →
          next.pids.rtemsPidContainerFindByThread (some (thread.getD executing)) =
            container.pidContainer
  | .leave (some address) thread executing malloc io =>
    ∀ system next container left, state = some system →
      system.handles address = some container →
        left = (thread.or container.attachedThread).getD executing →
          container.hasPid = true → system.pids.pidContainer left = container.pidContainer →
            system.rtemsUnifiedContainerLeave names (some address) thread executing malloc io =
                some (next, .successful) →
              next.pids.rtemsPidContainerFindByThread (some left) = some next.pids.root
  | _ => True

theorem arrives_of_agreement {state : Option (UnifiedSystem Thread)}
    (agreement : ∀ system, state = some system → system.Agreement)
    (kept : ∀ system, state = some system →
      call.WellFormed system ∧ call.KeepsPointers names system) : Arrives names state call := by
  cases call with
  | enter container thread executing outcomes =>
    cases container with
    | none => trivial
    | some address =>
      intro system next handle reached found withPid performed
      obtain ⟨wellFormed, keeps⟩ := kept system reached
      obtain ⟨container, isHandle, live⟩ := wellFormed address rfl
      rw [found, Option.some.injEq] at isHandle
      subst container
      obtain ⟨after, arrived⟩ :=
        enter_agreement (agreement system reached) found live keeps performed
      rw [after.pids.pointersAgree.found]
      exact arrived rfl withPid
  | leave container thread executing malloc io =>
    cases container with
    | none => trivial
    | some address =>
      intro system next handle left reached found isLeft withPid pointed performed
      subst left
      obtain ⟨after, returned⟩ := leave_agreement (agreement system reached) found
        ((kept system reached).2 handle found) performed
      rw [after.pids.pointersAgree.found]
      exact returned rfl withPid pointed
  | _ => trivial

theorem initial_agreement (root : Nat) (cgroups : ObjectsId → CoreCgroupControl Thread)
    (configs : Nat → CoreCgroupConfig) :
    (UnifiedSystem.initial root cgroups configs).Agreement := by
  refine ⟨PidSystem.initializeRoot_agreement root, ?_, ?_⟩
  · intro thread
    rfl
  · intro address container found
    cases found

end

end UnifiedCall

open UnifiedCall

/-- In every run of well-formed calls that keep the pointers, a thread points to
a PID container exactly while it is on its list, and every successful enter and
leave ends on the list it is for. -/
theorem unifiedRun_pointersAgree (names : ObjectNames Thread) (root : Nat)
    (cgroups : ObjectsId → CoreCgroupControl Thread) (configs : Nat → CoreCgroupConfig)
    (calls : List (UnifiedCall Thread))
    (met : Meets (UnifiedCall.step names)
      (fun state call => ∀ system, state = some system →
        call.WellFormed system ∧ call.KeepsPointers names system)
      (some (UnifiedSystem.initial root cgroups configs)) calls) :
    Throughout (UnifiedCall.step names)
        (fun state => ∀ system, state = some system → system.pids.PointersAgree)
        (some (UnifiedSystem.initial root cgroups configs)) calls ∧
      Meets (UnifiedCall.step names) (Arrives names)
        (some (UnifiedSystem.initial root cgroups configs)) calls := by
  have start : ∀ system, some (UnifiedSystem.initial root cgroups configs) = some system →
      system.Agreement := by
    intro system isInitial
    cases isInitial
    exact initial_agreement root cgroups configs
  have preserved : ∀ (state : Option (UnifiedSystem Thread)) (call : UnifiedCall Thread),
      (∀ system, state = some system → system.Agreement) →
        (∀ system, state = some system →
          call.WellFormed system ∧ call.KeepsPointers names system) →
          ∀ next, UnifiedCall.step names state call = some next → next.Agreement := by
    intro state call agreement kept next stepped
    obtain ⟨system, reached, performed⟩ := Option.bind_eq_some_iff.mp stepped
    exact perform_agreement (agreement system reached) (kept system reached).1
      (kept system reached).2 performed
  constructor
  · refine (throughout_of_preserved start preserved met).imp ?_
    intro state agreement system reached
    exact (agreement system reached).pids.pointersAgree
  · refine meets_of_preserved (fun state => ∀ system, state = some system → system.Agreement)
      start preserved ?_ met
    intro state call agreement kept
    exact arrives_of_agreement agreement kept

/-- A unified container at address 10 with the PID container at address 1 only. -/
def createPidOnly : UnifiedCall (Fin 2) :=
  .create rtemsUnifiedContainerPid
    ⟨some 10, some 1, true, .successful, 0, none, .successful, fun _ => true⟩

/-- Task 0 enters it; `memory` is the outcome of the allocation for its VID. -/
def enterPidOnly (memory : Bool) : UnifiedCall (Fin 2) :=
  .enter (some 10) (some 0) 0 ⟨true, true, fun _ => memory, .successful, true, .successful⟩

theorem createPidOnly_wellFormed : createPidOnly.WellFormed bootedSystem := by
  refine ⟨?_, ?_, ?_⟩
  · intro address allocated
    rfl
  · intro address allocated
    cases allocated
    rfl
  · intro block allocated
    cases allocated

/-- Task 0 enters the container and leaves it again. -/
theorem enterAndLeave_pointersAgree :
    Throughout (UnifiedCall.step twoTaskNames)
        (fun state => ∀ system, state = some system → system.pids.PointersAgree)
        (some bootedSystem)
        [createPidOnly, enterPidOnly true, .leave (some 10) none 1 (fun _ => true) .successful] ∧
      Meets (UnifiedCall.step twoTaskNames) (Arrives twoTaskNames) (some bootedSystem)
        [createPidOnly, enterPidOnly true,
          .leave (some 10) none 1 (fun _ => true) .successful] := by
  refine unifiedRun_pointersAgree twoTaskNames 0 _ _ _ ⟨?_, ?_, ?_, trivial⟩
  · rintro _ ⟨⟩
    exact ⟨createPidOnly_wellFormed, trivial⟩
  · rintro _ ⟨⟩
    refine ⟨?_, ?_⟩
    · rintro _ ⟨⟩
      refine ⟨_, rfl, ?_⟩
      rintro _ ⟨⟩
      rfl
    · rintro _ ⟨⟩
      refine ⟨?_, ?_⟩
      · rintro - - _ ⟨⟩
        decide
      · intro _ _ srcAddress destAddress src dest isSrc isDest _ srcFound destFound
        cases isSrc
        cases isDest
        cases srcFound
        cases destFound
        refine ⟨⟨by decide, by decide, by decide +kernel, by decide, .inr ⟨by decide, rfl⟩⟩, ?_, ?_⟩
        · decide
        · intro away
          exact absurd rfl away
  · rintro _ ⟨⟩
    refine ⟨?_, ?_⟩
    · rintro _ ⟨⟩
      refine ⟨_, rfl, ?_⟩
      rintro _ ⟨⟩
      rfl
    · rintro _ ⟨⟩ _ _ srcAddress destAddress src dest isSrc isDest _ srcFound destFound
      cases isSrc
      cases isDest
      cases srcFound
      cases destFound
      refine ⟨⟨by decide, by decide, by decide +kernel, by decide,
        .inr ⟨by decide, rfl⟩⟩, .inl rfl, ?_⟩
      intro _ _
      decide

/-- Task 0 enters the container, but no memory is left for its VID: it points to
the container and is on the list of the root. -/
theorem failedMove_disagrees :
    Meets (UnifiedCall.step twoTaskNames) UnifiedCall.Promised (some bootedSystem)
        [createPidOnly, enterPidOnly false] ∧
      ¬ Throughout (UnifiedCall.step twoTaskNames)
        (fun state => ∀ system, state = some system → system.pids.PointersAgree)
        (some bootedSystem) [createPidOnly, enterPidOnly false] := by
  refine ⟨⟨?_, ?_, trivial⟩, ?_⟩
  · rintro _ ⟨⟩
    exact createPidOnly_wellFormed
  · rintro _ ⟨⟩ _ ⟨⟩
    refine ⟨_, rfl, ?_⟩
    rintro _ ⟨⟩
    rfl
  · intro always
    have listed := ((always.final _ rfl).listed 0 1).mp rfl
    revert listed
    decide +kernel

end RTContainer.Score
