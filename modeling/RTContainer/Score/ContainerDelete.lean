import RTContainer.Score.ContainerEnter
import RTContainer.Score.ContainerLeave
import RTContainer.Score.NamespaceDelete

/-! The threads that `rtems_unified_container_delete` takes out of the container
that it deletes. -/

set_option autoImplicit false

namespace RTContainer.Score

open RTContainer.Rtems References Function

variable {Thread : Type} [DecidableEq Thread] {names : ObjectNames Thread}

namespace PidSystem

variable (objectId : Thread → ObjectsId) {system : PidSystem Thread} {deleted src : Nat}

omit [DecidableEq Thread] in
theorem addTask_root (container : Option Nat) (thread : Option Thread) (malloc : Bool) :
    (system.rtemsPidContainerAddTask objectId container thread malloc).root = system.root := by
  unfold rtemsPidContainerAddTask
  split
  · split
    · rfl
    · rfl
  · rfl

theorem rehome_pointers (malloc : Nat → Bool) (members : List Thread)
    (different : deleted ≠ system.root) :
    (rehome objectId deleted malloc system members).root = system.root ∧
      ∀ thread, (rehome objectId deleted malloc system members).pidContainer thread =
        if thread ∈ members ∧ system.pidContainer thread = some deleted then some system.root
        else system.pidContainer thread := by
  induction members generalizing malloc system with
  | nil => exact ⟨rfl, fun _ => by simp [rehome]⟩
  | cons first rest ih =>
    obtain ⟨added, isAdded⟩ : ∃ added, added = system.rtemsPidContainerAddTask objectId
        (some system.root) (some first) (malloc 0) := ⟨_, rfl⟩
    have addedRoot : added.root = system.root := isAdded ▸ addTask_root ..
    have pointers : added.pidContainer = system.pidContainer := isAdded ▸ addTask_pointers ..
    have root : (added.redirect first deleted added.root).root = system.root :=
      (redirect_root ..).trans addedRoot
    obtain ⟨sameRoot, later⟩ := ih (fun index => malloc (index + 1)) (root ▸ different)
    have next : rehome objectId deleted malloc system (first :: rest) =
        rehome objectId deleted (fun index => malloc (index + 1))
          (added.redirect first deleted added.root) rest := by
      simp only [rehome, ← isAdded]
    rw [next]
    refine ⟨sameRoot.trans root, ?_⟩
    intro thread
    rw [later, root, redirect_eq, addedRoot, pointers]
    by_cases same : thread = first
    · subst first
      by_cases points : system.pidContainer thread = some deleted
      · simp [points, different.symm]
      · simp [points]
    · simp [same]

theorem delete_pointers (malloc : Nat → Bool) (different : deleted ≠ system.root) :
    let after := system.rtemsPidContainerDelete objectId (some deleted) malloc
    after.root = system.root ∧ after.containers deleted = none ∧
      ∀ thread, after.pidContainer thread =
        if system.onList thread deleted = true ∧ system.pidContainer thread = some deleted then
          some system.root
        else system.pidContainer thread := by
  cases found : system.containers deleted with
  | none =>
    simp only [rtemsPidContainerDelete, different, ↓reduceIte, found, true_and]
    simp [onList, found]
  | some record =>
    simp only [rtemsPidContainerDelete, different, ↓reduceIte, found]
    obtain ⟨emptied, isEmptied⟩ : ∃ emptied, emptied =
        { system with registry := system.registry.erase deleted }.store deleted
          (some { record with rc := -1, threadList := [] }) := ⟨_, rfl⟩
    have root : emptied.root = system.root := isEmptied ▸ rfl
    have pointers : emptied.pidContainer = system.pidContainer := isEmptied ▸ rfl
    obtain ⟨sameRoot, rehomed⟩ := rehome_pointers objectId malloc record.threadList
      (root ▸ different)
    rw [← isEmptied]
    refine ⟨sameRoot.trans root, store_same .., ?_⟩
    intro thread
    rw [store_pidContainer, rehomed, root, pointers]
    simp [onList, found]

theorem moveTask_others (thread : Thread) (malloc : Nat → Bool) (apart : src ≠ system.root) :
    let after := system.rtemsPidContainerMoveTask objectId (some src) (some system.root)
      (some thread) malloc
    after.root = system.root ∧ ∀ other, other ≠ thread →
      (after.pidContainer other = system.pidContainer other ∧
          (system.pidContainer other = some src →
            after.onList other src = system.onList other src)) ∨
        (system.pidContainer other = some src ∧ system.onList other src = true ∧
          after.pidContainer other = some system.root) := by
  intro after
  by_cases same : after = system
  · rw [same]
    exact ⟨rfl, fun _ _ => .inl ⟨rfl, fun _ => rfl⟩⟩
  cases srcFound : system.containers src with
  | none => exact absurd (by simp [after, rtemsPidContainerMoveTask, apart, srcFound]) same
  | some srcRecord =>
    cases rootFound : system.containers system.root with
    | none =>
      exact absurd (by simp [after, rtemsPidContainerMoveTask, apart, srcFound, rootFound]) same
    | some rootRecord =>
      cases moved : moveRecords objectId srcRecord rootRecord thread (malloc 0) with
      | none =>
        refine absurd ?_ same
        simp [after, rtemsPidContainerMoveTask, apart, srcFound, rootFound, moved]
      | some records =>
        obtain ⟨left, joined⟩ := records
        obtain ⟨-, -, -, leaves, -, -⟩ := PidContainer.moveRecords_some moved
        obtain ⟨pointed, isPointed⟩ : ∃ pointed, pointed =
            ((system.store src (some left)).store system.root (some joined)).redirect thread
              src system.root := ⟨_, rfl⟩
        have root : pointed.root = system.root := isPointed ▸ redirect_root ..
        have pointer : ∀ other, other ≠ thread →
            pointed.pidContainer other = system.pidContainer other := by
          intro other different
          rw [isPointed, redirect_eq]
          simp [different]
        have listed : ∀ other, other ≠ thread →
            pointed.onList other src = system.onList other src := by
          intro other different
          have record : pointed.containers src = some left := by
            rw [isPointed, redirect_containers, store_other _ _ apart, store_same]
          simp [onList, record, srcFound, leaves, List.mem_erase_of_ne different]
        simp only [after, rtemsPidContainerMoveTask, apart, ↓reduceIte, srcFound, rootFound,
          moved, ← isPointed]
        split
        · obtain ⟨sameRoot, gone, pointers⟩ := delete_pointers objectId
            (fun index => malloc (index + 1)) (root ▸ apart)
          refine ⟨sameRoot.trans root, ?_⟩
          intro other different
          rw [pointers, listed other different, pointer other different, root]
          by_cases member : system.onList other src = true ∧ system.pidContainer other = some src
          · rw [if_pos member]
            exact .inr ⟨member.2, member.1, rfl⟩
          · rw [if_neg member]
            refine .inl ⟨rfl, ?_⟩
            intro points
            have absent : system.onList other src = false := by
              simpa [points] using member
            rw [absent]
            simp [onList, gone]
        · exact ⟨root, fun other different =>
            .inl ⟨pointer other different, fun _ => listed other different⟩⟩

theorem delete_redirects (malloc : Nat → Bool) (different : deleted ≠ system.root) :
    Redirects system.pidContainer
      (system.rtemsPidContainerDelete objectId (some deleted) malloc).pidContainer deleted
      system.root fun thread => system.onList thread deleted = true where
  moved := by
    intro thread points listed
    rw [(delete_pointers objectId malloc different).2.2]
    exact if_pos ⟨listed, points⟩
  stays := by
    intro thread free
    rw [(delete_pointers objectId malloc different).2.2]
    exact if_neg fun both => free ⟨both.2, both.1⟩

end PidSystem

namespace ContainerSystem

variable {system left after : ContainerSystem Thread} {container : RtemsContainer Thread}
variable {parts : ContainerParts} {thread : Thread} {tables : ThreadTables Thread}
variable {kind : NamespaceKind} {own : Nat}

def Leaves (system : ContainerSystem Thread) (container : RtemsContainer Thread)
    (thread : Thread) : Prop :=
  container.attached = true ∧ container.attachedThread = some thread ∧
    system.hasContainer thread = true

/-- No thread refers to a namespace or a cgroup of the deleted container, and the
threads that did point to the root. The root is nobody's own namespace. -/
structure Released (system : ContainerSystem Thread) (container : RtemsContainer Thread)
    (parts : ContainerParts) (after : ContainerSystem Thread) : Prop where
  pids : ∀ own, container.pidContainer = some own → own ≠ system.pids.root → ∀ thread,
    after.pids.pidContainer thread ≠ some own ∧
      (system.pids.pidContainer thread = some own →
        after.pids.pidContainer thread = some system.pids.root)
  namespaces : ∀ kind own, parts.namespaces kind = some own →
    own ≠ (system.namespaces kind).root → ∀ thread,
      (after.namespaces kind).pointer thread ≠ some own ∧
        ((system.namespaces kind).pointer thread = some own →
          (after.namespaces kind).pointer thread = some (system.namespaces kind).root)
  cgroup : ∀ block, container.coreCgroup = some block → ∀ thread,
    after.cgroups.cgroup thread ≠ some block
  weights : ∀ block, parts.ioCgroup = some block →
    (after.ioCgroups.controls block).threadWeightsChain = []

/-- Every thread that refers to a part of the container is the one that leaves, or
the part takes it out when it is deleted: a PID container takes out the threads on
its list, the other namespaces those that they rehome, and a cgroup none. -/
structure TakenOut (system : ContainerSystem Thread) (container : RtemsContainer Thread)
    (parts : ContainerParts) (tables : ThreadTables Thread) : Prop where
  pids : ∀ own, container.pidContainer = some own → own ≠ system.pids.root → ∀ thread,
    system.pids.pidContainer thread = some own →
      (system.Leaves container thread ∧ container.hasPid = true) ∨
        system.pids.onList thread own = true
  namespaces : ∀ kind own, parts.namespaces kind = some own →
    own ≠ (system.namespaces kind).root → ∀ thread,
      (system.namespaces kind).pointer thread = some own →
        (system.Leaves container thread ∧ container.hasNamespace kind = true) ∨
          tables.Rehomes kind.rules thread
  cgroup : ∀ block, container.coreCgroup = some block → ∀ thread,
    system.cgroups.cgroup thread = some block →
      system.Leaves container thread ∧ container.hasCgroup = true

variable {namespaces moved : NamespaceSystem Thread} {leaveMalloc malloc : Nat → Bool}
variable {address : Nat} {status : StatusCode}

theorem leaveStep_redirects (isOwn : parts.namespaces kind = some own)
    (notRoot : own ≠ namespaces.root)
    (result : leaveStep container parts thread tables kind namespaces = some moved) :
    moved.root = namespaces.root ∧ (moved.containers own ≠ none →
      Redirects namespaces.pointer moved.pointer own namespaces.root
        fun other => other = thread ∧ container.hasNamespace kind = true) := by
  obtain ⟨flagged, points, moves⟩ | ⟨outside, rfl⟩ := leaveStep_cases isOwn result
  · refine ⟨(NamespaceSystem.move_shrinks moves).root, fun live => ⟨?moved, ?stays⟩⟩
    case moved =>
      intro other _ chosen
      rw [chosen.1]
      exact (NamespaceSystem.move_pointer notRoot moves).1
    case stays =>
      intro other free
      apply NamespaceSystem.move_others moves live
      intro same
      subst other
      exact free ⟨points, rfl, flagged⟩
  · refine ⟨rfl, fun _ => ⟨?moved, fun _ _ => rfl⟩⟩
    intro other points chosen
    rw [chosen.1] at points
    exact absurd ⟨chosen.2, points⟩ outside

theorem leaveAndDelete_redirects {deleted : NamespaceSystem Thread}
    (isOwn : parts.namespaces kind = some own) (notRoot : own ≠ namespaces.root)
    (leaves : leaveStep container parts thread tables kind namespaces = some moved)
    (deletes : moved.delete kind.rules tables (parts.namespaces kind) = some deleted) :
    Redirects namespaces.pointer deleted.pointer own namespaces.root fun other =>
      (other = thread ∧ container.hasNamespace kind = true) ∨ tables.Rehomes kind.rules other := by
  rw [isOwn] at deletes
  obtain ⟨root, redirects⟩ := leaveStep_redirects isOwn notRoot leaves
  obtain ⟨live, second⟩ := NamespaceSystem.delete_redirects (root ▸ notRoot) deletes
  exact (redirects live).trans notRoot (root ▸ second)

theorem leaveAndDeletePid_redirects (isOwn : container.pidContainer = some own)
    (notRoot : own ≠ system.pids.root) :
    Redirects system.pids.pidContainer
      ((system.leavePid names container thread leaveMalloc).pids.rtemsPidContainerDelete
        names.threadId (some own) malloc).pidContainer own system.pids.root fun other =>
      (other = thread ∧ container.hasPid = true) ∨ system.pids.onList other own = true := by
  by_cases inside : container.hasPid = true ∧
      system.pids.pidContainer thread = container.pidContainer
  · obtain ⟨moved, isMoved⟩ : ∃ moved, moved = system.pids.rtemsPidContainerMoveTask names.threadId
        (some own) (some system.pids.root) (some thread) leaveMalloc := ⟨_, rfl⟩
    obtain ⟨root, others⟩ := PidSystem.moveTask_others names.threadId thread leaveMalloc notRoot
    rw [← isMoved] at root others
    obtain ⟨left, isLeft⟩ : ∃ left, left = { moved with
        pidContainer := update moved.pidContainer thread (some system.pids.root) } :=
      ⟨_, rfl⟩
    have leaves : (system.leavePid names container thread leaveMalloc).pids = left := by
      rw [isLeft, isMoved, UnifiedSystem.leavePid, if_pos inside, isOwn]
      rfl
    have leftRoot : left.root = system.pids.root := isLeft ▸ root
    have listed : ∀ other, left.onList other own = moved.onList other own := by
      intro other
      rw [isLeft]
      rfl
    have arrived : left.pidContainer thread = some system.pids.root := by
      rw [isLeft]
      exact update_self ..
    have pointers : ∀ other, other ≠ thread →
        left.pidContainer other = moved.pidContainer other := by
      intro other different
      rw [isLeft]
      exact update_of_ne different ..
    have first : Redirects system.pids.pidContainer left.pidContainer own system.pids.root
        fun other => other = thread ∨ left.pidContainer other = some system.pids.root := by
      constructor
      · intro other _ either
        obtain rfl | atRoot := either
        · exact arrived
        · exact atRoot
      · intro other free
        have different : other ≠ thread := by
          intro same
          subst other
          exact free ⟨inside.2.trans isOwn, .inl rfl⟩
        obtain ⟨same, -⟩ | ⟨points, -, atRoot⟩ := others other different
        · exact (pointers other different).trans same
        · exact absurd ⟨points, .inr ((pointers other different).trans atRoot)⟩ free
    have second := PidSystem.delete_redirects names.threadId malloc (leftRoot ▸ notRoot)
    rw [leaves]
    refine (first.trans notRoot (leftRoot ▸ second)).congr ?_
    intro other points
    by_cases same : other = thread
    · simp [same, inside.1]
    · rw [listed, pointers other same]
      obtain ⟨stays, list⟩ | ⟨-, onList, atRoot⟩ := others other same
      · rw [stays, points, list points]
        simp [same, notRoot]
      · simp [atRoot, onList]
  · have stays : system.leavePid names container thread leaveMalloc = system.toUnifiedSystem := by
      rw [UnifiedSystem.leavePid, if_neg inside]
    rw [stays]
    refine (PidSystem.delete_redirects names.threadId malloc notRoot).congr ?_
    intro other points
    refine (or_iff_right ?_).symm
    intro leaving
    rw [leaving.1] at points
    exact inside ⟨leaving.2, points.trans isOwn.symm⟩

structure Freed (names : ObjectNames Thread) (system : ContainerSystem Thread)
    (container : RtemsContainer Thread) (parts : ContainerParts) (tables : ThreadTables Thread)
    (malloc : Nat → Bool) (after : ContainerSystem Thread) : Prop where
  pids : after.pids =
    system.pids.rtemsPidContainerDelete names.threadId container.pidContainer malloc
  namespaces : ∀ kind, (system.namespaces kind).delete kind.rules tables (parts.namespaces kind) =
    some (after.namespaces kind)
  cgroup : after.cgroups.cgroup = system.cgroups.cgroup
  weights : ∀ block, parts.ioCgroup = some block →
    (after.ioCgroups.controls block).threadWeightsChain = []

omit [DecidableEq Thread] in
private theorem cgroupDelete_cgroup (cgroups : CgroupSystem Thread) (id : ObjectsId) :
    (rtemsCgroupDelete cgroups id).1.cgroup = cgroups.cgroup := by
  unfold rtemsCgroupDelete
  split
  · rfl
  · rfl

omit [DecidableEq Thread] in
theorem deleteIo_weights {deleted : ContainerSystem Thread}
    (result : system.deleteIo parts = some deleted) {block : Nat}
    (isBlock : parts.ioCgroup = some block) :
    (deleted.ioCgroups.controls block).threadWeightsChain = [] := by
  simp only [deleteIo, isBlock, reduceCtorEq, false_and, if_false] at result
  split at result
  · cases result
    simp [IoCgroupSystem.rtemsIoCgroupDelete, IoCgroupSystem.rtemsIoCgroupFinalize,
      IoCgroupSystem.free]
  · cases result

theorem releaseAll_freed {first : StatusCode}
    (result : system.releaseAll names address container parts first tables malloc =
      some (after, status)) : system.Freed names container parts tables malloc after := by
  obtain ⟨deleted, deletesIo, result⟩ :=
    Option.bind_eq_some_iff.mp (releaseAll_released result)
  obtain ⟨last, deletes, same⟩ := Option.map_eq_some_iff.mp result
  cases same
  obtain ⟨sameNamespaces, sameUnified, -⟩ := deleteIo_frame deletesIo
  have each := fun kind => by
    rw [deleteNamespaces_eq] at deletes
    exact (eachNamespace_each NamespaceKind.all_nodup deletes kind).1 kind.mem_all
  obtain ⟨namespaces, rfl⟩ := deleteNamespaces_only deletes
  refine ⟨?pids, ?namespaces, ?cgroup, fun block isBlock => deleteIo_weights deletesIo isBlock⟩
  case pids => exact congrArg UnifiedSystem.pids sameUnified
  case namespaces =>
    intro kind
    rw [← each kind, sameNamespaces]
    rfl
  case cgroup =>
    have released := (UnifiedSystem.release_cgroups names system.toUnifiedSystem address container
      first malloc).1
    refine (congrArg (fun unified => unified.cgroups.cgroup) sameUnified).trans ?_
    refine (congrArg CgroupSystem.cgroup released).trans ?_
    split
    · exact cgroupDelete_cgroup system.cgroups container.cgroupId
    · rfl

theorem delete_steps (found : system.handles address = some container)
    (result : system.rtemsUnifiedContainerDelete names (some address) tables leaveMalloc malloc =
      some (after, status)) :
    ∃ left, ((∃ thread, system.Leaves container thread ∧
          system.Left names address container thread tables leaveMalloc left) ∨
        ((∀ thread, ¬ system.Leaves container thread) ∧ left = system)) ∧
      left.Freed names container (system.parts address) tables malloc after := by
  simp only [rtemsUnifiedContainerDelete, found, Option.bind_some] at result
  split at result
  · rename_i attached
    obtain ⟨thread, isThread⟩ := Option.ne_none_iff_exists'.mp attached.2
    obtain ⟨⟨left, first⟩, leaves, releases⟩ := Option.bind_eq_some_iff.mp result
    simp only [rtemsUnifiedContainerLeave, found, Option.bind_some, isThread, Option.some_or,
      Option.getD_some] at leaves
    cases has : system.hasContainer thread with
    | true =>
      simp only [has, Bool.not_true, Bool.false_eq_true, if_false] at leaves
      have isLeft := leaveAll_left leaves
      refine ⟨left, .inl ⟨thread, ⟨attached.1, isThread, has⟩, isLeft⟩, ?_⟩
      rw [← isLeft.parts]
      exact releaseAll_freed releases
    | false =>
      simp only [has, Bool.not_false, if_true] at leaves
      cases leaves
      refine ⟨system, .inr ⟨?_, rfl⟩, releaseAll_freed releases⟩
      intro other leaving
      have same := isThread.symm.trans leaving.2.1
      cases same
      exact nomatch has.symm.trans leaving.2.2
  · rename_i unattached
    refine ⟨system, .inr ⟨?_, rfl⟩, releaseAll_freed result⟩
    intro thread leaving
    exact unattached ⟨leaving.1, by simp [leaving.2.1]⟩

theorem removeTask_cgroup {cgroups removed : CgroupSystem Thread} {id task : ObjectsId}
    (result : rtemsCgroupRemoveTask names cgroups id task = some (removed, status)) :
    removed.cgroup = cgroups.cgroup := by
  obtain ⟨-, ⟨thread, -, removes⟩ | ⟨-, same⟩⟩ := removeTask_cases result
  · unfold CgroupSystem.coreCgroupRemoveThread at removes
    simp only at removes
    split at removes
    · cases removes
      rfl
    · cases removes
  · rw [same]

omit [DecidableEq Thread] in
theorem Leaves.eq_iff (leaving : system.Leaves container thread) (other : Thread) :
    other = thread ↔ system.Leaves container other := by
  constructor
  · intro same
    exact same ▸ leaving
  · intro alsoLeaving
    exact Option.some.inj (alsoLeaving.2.1.symm.trans leaving.2.1)

theorem leaveCgroup_iff {before removed : UnifiedSystem Thread} {block : ObjectsId} {other : Thread}
    (isBlock : container.coreCgroup = some block)
    (result : before.leaveCgroup names container thread = some (removed, status)) :
    removed.cgroups.cgroup other = some block ↔
      before.cgroups.cgroup other = some block ∧
        ¬ (other = thread ∧ container.hasCgroup = true) := by
  unfold UnifiedSystem.leaveCgroup at result
  split at result
  · rename_i inside
    obtain ⟨⟨cgroups, _⟩, removes, same⟩ := Option.map_eq_some_iff.mp result
    cases same
    by_cases isThread : other = thread
    · simp [isThread, inside.1]
    · simp [isThread, removeTask_cgroup removes]
  · rename_i outside
    cases result
    refine (and_iff_left_of_imp ?_).symm
    intro points leaving
    rw [leaving.1, ← isBlock] at points
    exact outside ⟨leaving.2, points⟩

/-- After a delete nothing refers to the container exactly when every thread that
did has been taken out of it. -/
theorem delete_released_iff (names : ObjectNames Thread) (system after : ContainerSystem Thread)
    (address : Nat) (container : RtemsContainer Thread) (tables : ThreadTables Thread)
    (leaveMalloc malloc : Nat → Bool) (status : StatusCode)
    (found : system.handles address = some container)
    (result : system.rtemsUnifiedContainerDelete names (some address) tables leaveMalloc malloc =
      some (after, status)) :
    system.Released container (system.parts address) after ↔
      system.TakenOut container (system.parts address) tables := by
  obtain ⟨left, leaves, freed⟩ := delete_steps found result
  have pids : ∀ own, container.pidContainer = some own → own ≠ system.pids.root →
      Redirects system.pids.pidContainer after.pids.pidContainer own system.pids.root
        fun other => (system.Leaves container other ∧ container.hasPid = true) ∨
          system.pids.onList other own = true := by
    intro own isOwn notRoot
    rw [freed.pids, isOwn]
    obtain ⟨thread, leaving, isLeft⟩ | ⟨nobody, rfl⟩ := leaves
    · rw [isLeft.pids]
      refine (leaveAndDeletePid_redirects isOwn notRoot).congr ?_
      intro other _
      rw [leaving.eq_iff]
    · refine (PidSystem.delete_redirects names.threadId malloc notRoot).congr ?_
      intro other _
      exact (or_iff_right fun leaving => nobody other leaving.1).symm
  have namespaces : ∀ kind own, (system.parts address).namespaces kind = some own →
      own ≠ (system.namespaces kind).root →
        Redirects (system.namespaces kind).pointer (after.namespaces kind).pointer own
          (system.namespaces kind).root fun other =>
            (system.Leaves container other ∧ container.hasNamespace kind = true) ∨
              tables.Rehomes kind.rules other := by
    intro kind own isOwn notRoot
    have deletes := freed.namespaces kind
    obtain ⟨thread, leaving, isLeft⟩ | ⟨nobody, rfl⟩ := leaves
    · refine (leaveAndDelete_redirects isOwn notRoot (isLeft.namespaces kind) deletes).congr ?_
      intro other _
      rw [leaving.eq_iff]
    · rw [isOwn] at deletes
      refine (NamespaceSystem.delete_redirects notRoot deletes).2.congr ?_
      intro other _
      exact (or_iff_right fun leaving => nobody other leaving.1).symm
  have cgroup : ∀ block, container.coreCgroup = some block → ∀ other,
      after.cgroups.cgroup other = some block ↔ system.cgroups.cgroup other = some block ∧
        ¬ (system.Leaves container other ∧ container.hasCgroup = true) := by
    intro block isBlock other
    rw [freed.cgroup]
    obtain ⟨thread, leaving, isLeft⟩ | ⟨nobody, rfl⟩ := leaves
    · obtain ⟨before, removed, _, sameBefore, removes, sameAfter⟩ := isLeft.cgroups
      rw [sameAfter, leaveCgroup_iff isBlock removes, sameBefore, leaving.eq_iff]
    · exact (and_iff_left fun leaving => nobody other leaving.1).symm
  constructor
  · intro released
    refine ⟨?pids, ?namespaces, ?cgroup⟩
    case pids =>
      intro own isOwn notRoot
      exact ((pids own isOwn notRoot).released_iff notRoot).mp (released.pids own isOwn notRoot)
    case namespaces =>
      intro kind own isOwn notRoot
      exact ((namespaces kind own isOwn notRoot).released_iff notRoot).mp
        (released.namespaces kind own isOwn notRoot)
    case cgroup =>
      intro block isBlock thread member
      by_contra stays
      exact released.cgroup block isBlock thread ((cgroup block isBlock thread).mpr ⟨member, stays⟩)
  · intro taken
    refine ⟨?pids, ?namespaces, ?cgroup, freed.weights⟩
    case pids =>
      intro own isOwn notRoot
      exact ((pids own isOwn notRoot).released_iff notRoot).mpr (taken.pids own isOwn notRoot)
    case namespaces =>
      intro kind own isOwn notRoot
      exact ((namespaces kind own isOwn notRoot).released_iff notRoot).mpr
        (taken.namespaces kind own isOwn notRoot)
    case cgroup =>
      intro block isBlock thread still
      obtain ⟨member, stays⟩ := (cgroup block isBlock thread).mp still
      exact stays (taken.cgroup block isBlock thread member)

end ContainerSystem

/-- A unified container with a namespace of one kind. Task 1 has visited it, task 0
is in it, and task 1 is moved to its namespace directly. -/
def twoInside (kind : NamespaceKind) : Option (ContainerSystem (Fin 2)) :=
  (rootNamespaces.rtemsUnifiedContainerCreate twoTaskNames
    (some { rtemsUnifiedContainerConfigInitialize 0 with flags := kind.flag }) 0 ⟨[1, 0], 0⟩
    roomToCreate).bind fun (created, _) =>
      (created.rtemsUnifiedContainerEnter twoTaskNames (some 10) (some 1) ⟨[1, 0], 0⟩
        roomToEnter).bind fun (visited, _) =>
          (visited.rtemsUnifiedContainerLeave twoTaskNames (some 10) (some 1) ⟨[1, 0], 0⟩
            fun _ => true).bind fun (left, _) =>
              (left.rtemsUnifiedContainerEnter twoTaskNames (some 10) (some 0) ⟨[1, 0], 0⟩
                roomToEnter).bind fun (entered, _) =>
                  (kind.containerMoveTask (entered.namespaces kind) ⟨[1, 0], 0⟩ (some 0)
                    ((entered.parts 10).namespaces kind) (some 1)).map (entered.setNamespace kind)

/-- Task 0 leaves, and task 1 is the first task that the UTS container visits. -/
theorem utsDeleted_released : ∃ system after : ContainerSystem (Fin 2), ∃ container status,
    twoInside .uts = some system ∧ system.handles 10 = some container ∧
      system.rtemsUnifiedContainerDelete twoTaskNames (some 10) ⟨[1, 0], 0⟩ (fun _ => true)
        (fun _ => true) = some (after, status) ∧
      system.Released container (system.parts 10) after := by
  have deletes : (twoInside .uts).any fun system =>
      (system.rtemsUnifiedContainerDelete twoTaskNames (some 10) ⟨[1, 0], 0⟩ (fun _ => true)
        fun _ => true).isSome ∧ system.hasContainer 0 ∧
        (system.handles 10).any (fun handle => handle.flags = 0x10#32 ∧ handle.attached ∧
          handle.attachedThread = some 0 ∧ handle.pidContainer = none ∧
          handle.coreCgroup = none) ∧
        ∀ kind ∈ [NamespaceKind.mnt, .net, .ipc], (system.parts 10).namespaces kind = none := by
    decide +kernel
  obtain ⟨system, isSystem, facts⟩ := (Option.any_eq_true ..).mp deletes
  obtain ⟨returns, has, handle, none⟩ := of_decide_eq_true facts
  obtain ⟨⟨after, status⟩, isAfter⟩ := Option.isSome_iff_exists.mp returns
  obtain ⟨container, found, fields⟩ := (Option.any_eq_true ..).mp handle
  obtain ⟨flags, attached, attachedThread, noPid, noCgroup⟩ := of_decide_eq_true fields
  refine ⟨system, after, container, status, isSystem, found, isAfter, ?_⟩
  apply (ContainerSystem.delete_released_iff twoTaskNames system after 10 container ⟨[1, 0], 0⟩
    (fun _ => true) (fun _ => true) status found isAfter).mpr
  refine ⟨?pids, ?namespaces, ?cgroup⟩
  case pids => exact fun own isOwn => nomatch noPid.symm.trans isOwn
  case cgroup => exact fun block isBlock => nomatch noCgroup.symm.trans isBlock
  case namespaces =>
    intro kind own isOwn _ thread _
    have flagged : container.hasNamespace .uts = true := by
      simp only [RtemsContainer.hasNamespace, flags]
      decide
    cases kind with
    | uts =>
      by_cases first : thread = 0
      · subst thread
        exact .inl ⟨⟨attached, attachedThread, has⟩, flagged⟩
      · have second : thread = 1 := by omega
        subst thread
        exact .inr (by decide)
    | mnt | net | ipc => exact nomatch (none _ (by decide)).symm.trans isOwn

/-- The IPC container visits no task: task 1 still points to it. -/
theorem ipcDeleted_refers :
    ¬ ∀ (names : ObjectNames (Fin 2)) (system after : ContainerSystem (Fin 2))
    (address : Nat) (container : RtemsContainer (Fin 2)) (tables : ThreadTables (Fin 2))
    (leaveMalloc malloc : Nat → Bool) (status : StatusCode),
    system.handles address = some container →
      system.rtemsUnifiedContainerDelete names (some address) tables leaveMalloc malloc =
          some (after, status) →
        system.Released container (system.parts address) after := by
  intro claim
  have stays : ((twoInside .ipc).bind fun system =>
      (system.rtemsUnifiedContainerDelete twoTaskNames (some 10) ⟨[1, 0], 0⟩ (fun _ => true)
        fun _ => true).map fun result =>
          ((system.parts 10).namespaces .ipc, (system.namespaces .ipc).root,
            (result.1.namespaces .ipc).pointer 1)) = some (some 15, 0, some 15) := by
    decide +kernel
  obtain ⟨system, -, result⟩ := Option.bind_eq_some_iff.mp stays
  obtain ⟨⟨after, status⟩, isAfter, same⟩ := Option.map_eq_some_iff.mp result
  simp only [Prod.mk.injEq] at same
  obtain ⟨isOwn, root, points⟩ := same
  cases found : system.handles 10 with
  | none => simp [ContainerSystem.rtemsUnifiedContainerDelete, found] at isAfter
  | some container =>
    have released := claim twoTaskNames system after 10 container _ _ _ status found isAfter
    exact (released.namespaces .ipc 15 isOwn (by simp [root]) 1).1 points

end RTContainer.Score
