import RTContainer.Rtems.CgroupMembership
import RTContainer.Score.UnifiedRuns

/-! Cgroup membership over runs of the cgroup directives and of the unified
containers. The runs in which the chains, the counters and the fields of the
threads agree are those in which no call appends a thread without looking,
removes a node and keeps the fields, or opens a block that threads still name. -/

set_option autoImplicit false

namespace RTContainer.Score

open RTContainer.Rtems Machine Function

variable {Thread : Type}

namespace CgroupSystem

def Admits (system : CgroupSystem Thread) (block : ObjectsId) (thread : Thread) : Prop :=
  (∀ other ∈ system.opened, thread ∉ (system.cgroups other).threads) ∧
    system.coreCgroupCanAddThread block = true

def Unnamed (system : CgroupSystem Thread) (block : ObjectsId) : Prop :=
  ∀ thread, ¬ (system.cgroup thread = some block ∧ system.isAddedToCgroup thread = true)

theorem Membership.absent {system : CgroupSystem Thread} {thread : Thread}
    (membership : system.Membership) (notAdded : system.isAddedToCgroup thread = false) :
    ∀ other ∈ system.opened, thread ∉ (system.cgroups other).threads := by
  intro other isOpen onChain
  have added := ((membership other isOpen).members thread).mp onChain
  rw [notAdded] at added
  cases added.2

end CgroupSystem

def RtemsContainer.Named (container : RtemsContainer Thread) : Prop :=
  container.hasCgroup = true → container.coreCgroup = some container.cgroupId

theorem threadGet_threadId (names : ObjectNames Thread) (thread : Thread) :
    names.threadGet (names.threadId thread) = some thread :=
  (names.threadGet_eq_some _ thread).mpr rfl

theorem threadId_injective (names : ObjectNames Thread) : Injective names.threadId := by
  intro first second same
  have isFirst := threadGet_threadId names first
  rw [same, threadGet_threadId] at isFirst
  exact (Option.some.inj isFirst).symm

section Directives

variable [DecidableEq Thread] {names : ObjectNames Thread} {system next : CgroupSystem Thread}
variable {cgroupId taskId : ObjectsId} {status : StatusCode}

theorem addTask_cases {workspace : Bool}
    (performed : rtemsCgroupAddTask names system cgroupId taskId workspace = some (next, status)) :
    (∃ thread, workspace = true ∧ cgroupId ∈ system.opened ∧ names.threadGet taskId = some thread ∧
        next = system.coreCgroupAddThread cgroupId thread) ∨
      (workspace = false ∧ next = system) := by
  unfold rtemsCgroupAddTask at performed
  cases workspace with
  | false =>
    cases performed
    exact .inr ⟨rfl, rfl⟩
  | true =>
    simp only [↓reduceIte] at performed
    split at performed
    next block thread foundBlock foundThread =>
      obtain ⟨rfl, isOpen⟩ := cgroupGet_eq_some foundBlock
      cases performed
      exact .inl ⟨thread, rfl, isOpen, foundThread, rfl⟩
    next => cases performed

private theorem addTask_of_open {thread : Thread} (isOpen : cgroupId ∈ system.opened)
    (found : names.threadGet taskId = some thread) :
    rtemsCgroupAddTask names system cgroupId taskId true =
      some (system.coreCgroupAddThread cgroupId thread, .successful) := by
  simp [rtemsCgroupAddTask, cgroupGet_of_mem isOpen, found]

theorem removeTask_cases
    (performed : rtemsCgroupRemoveTask names system cgroupId taskId = some (next, status)) :
    cgroupId ∈ system.opened ∧
      ((∃ thread, names.threadGet taskId = some thread ∧
          system.coreCgroupRemoveThread cgroupId thread = some next) ∨
        ((∀ thread, names.threadGet taskId = some thread →
            thread ∉ (system.cgroups cgroupId).threads) ∧ next = system)) := by
  unfold rtemsCgroupRemoveTask at performed
  cases foundBlock : cgroupGet system cgroupId with
  | none => simp [foundBlock] at performed
  | some block =>
    obtain ⟨rfl, isOpen⟩ := cgroupGet_eq_some foundBlock
    refine ⟨isOpen, ?_⟩
    rw [foundBlock] at performed
    cases foundThread : names.threadGet taskId with
    | none =>
      simp only [foundThread, Option.bind_none, Option.some.injEq, Prod.mk.injEq] at performed
      refine .inr ⟨?_, performed.1.symm⟩
      intro thread isThread
      cases isThread
    | some thread =>
      simp only [foundThread, Option.bind_some] at performed
      cases removal : system.coreCgroupRemoveThread block thread with
      | some removed =>
        simp only [removal, Option.some.injEq, Prod.mk.injEq] at performed
        exact .inl ⟨thread, rfl, performed.1 ▸ removal⟩
      | none =>
        simp only [removal, Option.some.injEq, Prod.mk.injEq] at performed
        refine .inr ⟨?_, performed.1.symm⟩
        intro candidate isCandidate onChain
        cases isCandidate
        simp [CgroupSystem.coreCgroupRemoveThread, onChain] at removal

end Directives

namespace UnifiedSystem

structure Membership (system : UnifiedSystem Thread) : Prop where
  cgroups : system.cgroups.Membership
  named : ∀ address container, system.handles address = some container → container.Named

def Appends (cgroups : CgroupSystem Thread) (container : RtemsContainer Thread) (thread : Thread)
    (workspace : Bool) : Prop :=
  container.hasCgroup = true ∧ cgroups.isAddedToCgroup thread = false ∧
    cgroups.cgroup thread ≠ container.coreCgroup ∧ workspace = true ∧
      container.cgroupId ∈ cgroups.opened

/-- An enter gets as far as the cgroup, and appends the thread there. -/
def Joins [DecidableEq Thread] (names : ObjectNames Thread) (system : UnifiedSystem Thread)
    (container : RtemsContainer Thread) (thread : Thread) (outcomes : EnterOutcomes) : Prop :=
  (system.hasContainer thread = true ∨ outcomes.calloc = true) ∧
    (container.attached = true → container.attachedThread = some thread) ∧
      (system.ensureThreadContainer names thread outcomes.calloc outcomes.pidNode).1.entersLive
          container thread = true ∧
        outcomes.namespaces = .successful ∧
          Appends system.cgroups container thread outcomes.workspace

variable {names : ObjectNames Thread} {system next : UnifiedSystem Thread}
variable {container : RtemsContainer Thread} {thread : Thread} {status : StatusCode}

variable {address : Nat} {workspace : Bool} {target : Option Thread} {executing : Thread}
variable {outcomes : EnterOutcomes} {malloc : Nat → Bool} {io : StatusCode}

theorem named_setHandle {container : Option (RtemsContainer Thread)}
    (named : ∀ address container, system.handles address = some container → container.Named)
    (own : ∀ stored, container = some stored → stored.Named) :
    ∀ other stored, (system.setHandle address container).handles other = some stored →
      stored.Named := by
  intro other stored found
  by_cases same : other = address
  · subst other
    simp only [setHandle, update_self] at found
    exact own stored found
  · simp only [setHandle, update_of_ne same] at found
    exact named other stored found

theorem createPid_cases (system : UnifiedSystem Thread) (created : RtemsContainer Thread)
    (outcomes : CreateOutcomes) :
    (system.createPid created outcomes).1.cgroups = system.cgroups ∧
      (system.createPid created outcomes).1.handles = system.handles ∧
      (system.createPid created outcomes).2.1.flags = created.flags ∧
      (system.createPid created outcomes).2.1.cgroupId = created.cgroupId ∧
      ((system.createPid created outcomes).2.2 = .successful ↔
        (created.hasPid = true → outcomes.pidContainer ≠ none)) := by
  unfold createPid
  cases has : created.hasPid with
  | false => simp
  | true => cases outcomes.pidContainer <;> simp

theorem createCgroup_cases (system : UnifiedSystem Thread) (created : RtemsContainer Thread)
    (outcomes : CreateOutcomes) :
    (∃ block, created.hasCgroup = true ∧ outcomes.cgroup = some block ∧
        system.createCgroup created outcomes =
          ({ system with cgroups := publish system.cgroups block outcomes.config },
            { created with cgroupId := block, coreCgroup := some block }, .successful)) ∨
      ((created.hasCgroup = true → outcomes.cgroup = none) ∧
        (system.createCgroup created outcomes).1 = system ∧
        (system.createCgroup created outcomes).2.1 = created ∧
        ((system.createCgroup created outcomes).2.2 = .successful →
          created.hasCgroup = false)) := by
  unfold createCgroup
  cases has : created.hasCgroup with
  | false => simp
  | true =>
    cases allocated : outcomes.cgroup with
    | none => simp [rtemsCgroupCreate, containerCgroupName]
    | some block =>
      refine .inl ⟨block, rfl, rfl, ?_⟩
      have created : rtemsCgroupCreate system.cgroups containerCgroupName true outcomes.config
          (some block) = (publish system.cgroups block outcomes.config, .ok block) := rfl
      have found : cgroupGet (publish system.cgroups block outcomes.config) block =
          some block := cgroupGet_of_mem List.mem_cons_self
      simp only [↓reduceIte, created, found]

variable [DecidableEq Thread]

theorem ensure_cgroups (names : ObjectNames Thread) (system : UnifiedSystem Thread)
    (thread : Thread) (calloc pidNode : Bool) :
    (system.ensureThreadContainer names thread calloc pidNode).1.cgroups = system.cgroups ∧
      (system.ensureThreadContainer names thread calloc pidNode).1.handles = system.handles ∧
      ((system.ensureThreadContainer names thread calloc pidNode).2 = .successful ↔
        (system.hasContainer thread = true ∨ calloc = true)) := by
  unfold ensureThreadContainer
  by_cases has : system.hasContainer thread = true
  · simp [has]
  · cases calloc with
    | false => simp [has]
    | true => simp [has, setPidContainer]

theorem enterPid_cgroups (names : ObjectNames Thread) (system : UnifiedSystem Thread)
    (container : RtemsContainer Thread) (thread : Thread) (malloc : Nat → Bool) :
    (system.enterPid names container thread malloc).cgroups = system.cgroups ∧
      (system.enterPid names container thread malloc).handles = system.handles := by
  unfold enterPid
  split
  · dsimp only
    split <;> exact ⟨rfl, rfl⟩
  · exact ⟨rfl, rfl⟩

theorem leavePid_cgroups (names : ObjectNames Thread) (system : UnifiedSystem Thread)
    (container : RtemsContainer Thread) (thread : Thread) (malloc : Nat → Bool) :
    (system.leavePid names container thread malloc).cgroups = system.cgroups ∧
      (system.leavePid names container thread malloc).handles = system.handles := by
  unfold leavePid
  split <;> exact ⟨rfl, rfl⟩

theorem enterCgroup_cases
    (performed : system.enterCgroup names container thread workspace = some (next, status)) :
    next.handles = system.handles ∧
      ((Appends system.cgroups container thread workspace ∧
          next.cgroups = system.cgroups.coreCgroupAddThread container.cgroupId thread) ∨
        (¬ Appends system.cgroups container thread workspace ∧ next.cgroups = system.cgroups)) := by
  unfold enterCgroup at performed
  by_cases has : container.hasCgroup = true
  · rw [if_pos has] at performed
    by_cases elsewhere : system.cgroups.isAddedToCgroup thread = true ∧
        system.cgroups.cgroup thread ≠ container.coreCgroup
    · rw [if_pos elsewhere] at performed
      cases performed
      refine ⟨rfl, .inr ⟨?_, rfl⟩⟩
      intro appends
      have notAdded := appends.2.1
      rw [elsewhere.1] at notAdded
      cases notAdded
    · rw [if_neg elsewhere] at performed
      by_cases outside : system.cgroups.cgroup thread ≠ container.coreCgroup
      · rw [if_pos outside] at performed
        have notAdded : system.cgroups.isAddedToCgroup thread = false := by
          by_contra added
          exact elsewhere ⟨by simpa using added, outside⟩
        obtain ⟨⟨cgroups, made⟩, directive, ended⟩ := Option.map_eq_some_iff.mp performed
        cases ended
        refine ⟨rfl, ?_⟩
        cases addTask_cases directive with
        | inl success =>
          obtain ⟨added, memory, isOpen, found, after⟩ := success
          rw [threadGet_threadId, Option.some.injEq] at found
          subst added
          exact .inl ⟨⟨has, notAdded, outside, memory, isOpen⟩, after⟩
        | inr failure =>
          refine .inr ⟨?_, failure.2⟩
          intro appends
          have memory := appends.2.2.2.1
          rw [failure.1] at memory
          cases memory
      · rw [if_neg outside] at performed
        cases performed
        exact ⟨rfl, .inr ⟨fun appends => outside appends.2.2.1, rfl⟩⟩
  · rw [if_neg has] at performed
    cases performed
    exact ⟨rfl, .inr ⟨fun appends => has appends.1, rfl⟩⟩

theorem enterCgroup_of_appends (names : ObjectNames Thread)
    (appends : Appends system.cgroups container thread workspace) :
    ∃ next, system.enterCgroup names container thread workspace = some (next, .successful) := by
  obtain ⟨has, notAdded, outside, memory, isOpen⟩ := appends
  subst memory
  unfold enterCgroup
  rw [if_pos has, if_neg (by simp [notAdded]), if_pos outside,
    addTask_of_open isOpen (threadGet_threadId names thread)]
  exact ⟨_, rfl⟩

theorem enter_cases (found : system.handles address = some container)
    (named : ∀ address container, system.handles address = some container → container.Named)
    (performed : system.rtemsUnifiedContainerEnter names (some address) target executing outcomes =
      some (next, status)) :
    (∀ address container, next.handles address = some container → container.Named) ∧
      ((system.Joins names container (target.getD executing) outcomes ∧
          next.cgroups =
            system.cgroups.coreCgroupAddThread container.cgroupId (target.getD executing)) ∨
        (¬ system.Joins names container (target.getD executing) outcomes ∧
          next.cgroups = system.cgroups)) := by
  obtain ⟨sameCgroups, sameHandles, ensures⟩ :=
    ensure_cgroups names system (target.getD executing) outcomes.calloc outcomes.pidNode
  have own : container.Named := named address container found
  simp only [rtemsUnifiedContainerEnter, found, Option.bind_some] at performed
  generalize isEnsured : system.ensureThreadContainer names (target.getD executing)
    outcomes.calloc outcomes.pidNode = ensured at performed sameCgroups sameHandles ensures
  by_cases success : ensured.2 = .successful
  · rw [if_neg (by simp [success])] at performed
    unfold enterParts at performed
    by_cases refused : container.attached = true ∧
        container.attachedThread ≠ some (target.getD executing)
    · rw [if_pos refused] at performed
      obtain ⟨isNext, -⟩ := Prod.mk.inj (Option.some.inj performed)
      rw [← isNext, sameHandles]
      exact ⟨named, .inr ⟨fun joins => refused.2 (joins.2.1 refused.1), sameCgroups⟩⟩
    · rw [if_neg refused] at performed
      have live : ensured.1.entersLive container (target.getD executing) = true := by
        by_contra freed
        simp [freed] at performed
      rw [if_neg (by simp [live])] at performed
      have allowed : container.attached = true →
          container.attachedThread = some (target.getD executing) := by
        intro attached
        by_contra other
        exact refused ⟨attached, other⟩
      obtain ⟨pidCgroups, pidHandles⟩ :=
        enterPid_cgroups names ensured.1 container (target.getD executing) outcomes.move
      simp only at performed
      generalize ensured.1.enterPid names container (target.getD executing) outcomes.move = moved
        at performed pidCgroups pidHandles
      by_cases failed : outcomes.namespaces ≠ .successful
      · rw [if_pos failed] at performed
        obtain ⟨isNext, -⟩ := Prod.mk.inj (Option.some.inj performed)
        rw [← isNext, pidHandles, sameHandles]
        exact ⟨named, .inr ⟨fun joins => failed joins.2.2.2.1, pidCgroups.trans sameCgroups⟩⟩
      · rw [if_neg failed] at performed
        obtain ⟨⟨joined, made⟩, cgroupPart, ended⟩ := Option.map_eq_some_iff.mp performed
        obtain ⟨joinedHandles, joinedCgroups⟩ := enterCgroup_cases cgroupPart
        rw [pidHandles, sameHandles] at joinedHandles
        rw [pidCgroups, sameCgroups] at joinedCgroups
        have nextCgroups : next.cgroups = joined.cgroups := by
          dsimp only at ended
          split at ended
          · cases ended
            rfl
          · split at ended <;> cases ended <;> rfl
        have nextNamed : ∀ address container, next.handles address = some container →
            container.Named := by
          rw [← joinedHandles] at named
          dsimp only at ended
          split at ended
          · cases ended
            exact named
          · split at ended
            · cases ended
              exact named
            · cases ended
              refine named_setHandle named ?_
              intro stored isStored
              cases isStored
              exact own
        refine ⟨nextNamed, ?_⟩
        rw [nextCgroups]
        cases joinedCgroups with
        | inl appended =>
          exact .inl ⟨⟨ensures.mp success, allowed, isEnsured ▸ live, not_not.mp failed, appended.1⟩,
            appended.2⟩
        | inr kept => exact .inr ⟨fun joins => kept.1 joins.2.2.2.2, kept.2⟩
  · rw [if_pos success] at performed
    obtain ⟨isNext, -⟩ := Prod.mk.inj (Option.some.inj performed)
    rw [← isNext, sameHandles]
    exact ⟨named, .inr ⟨fun joins => success (ensures.mpr joins.1), sameCgroups⟩⟩

theorem enter_of_joins (names : ObjectNames Thread)
    (found : system.handles address = some container)
    (joins : system.Joins names container (target.getD executing) outcomes) :
    ∃ next status, system.rtemsUnifiedContainerEnter names (some address) target executing
      outcomes = some (next, status) := by
  obtain ⟨has, allowed, live, reached, appends⟩ := joins
  obtain ⟨sameCgroups, -, ensures⟩ :=
    ensure_cgroups names system (target.getD executing) outcomes.calloc outcomes.pidNode
  simp only [rtemsUnifiedContainerEnter, found, Option.bind_some]
  generalize system.ensureThreadContainer names (target.getD executing) outcomes.calloc
    outcomes.pidNode = ensured at sameCgroups ensures live
  obtain ⟨pidCgroups, -⟩ :=
    enterPid_cgroups names ensured.1 container (target.getD executing) outcomes.move
  rw [sameCgroups] at pidCgroups
  rw [← pidCgroups] at appends
  obtain ⟨joined, performed⟩ := enterCgroup_of_appends names appends
  have notRefused : ¬ (container.attached = true ∧
      container.attachedThread ≠ some (target.getD executing)) :=
    fun refused => refused.2 (allowed refused.1)
  rw [if_neg (by simp [ensures.mpr has])]
  simp only [enterParts, if_neg notRefused, live, Bool.not_true, Bool.false_eq_true, reached,
    ne_eq, not_true_eq_false, ↓reduceIte, performed, Option.map_some, Option.some.injEq]
  exact ⟨_, _, rfl⟩

theorem leaveCgroup_cases (membership : system.Membership) (own : container.Named)
    (performed : system.leaveCgroup names container thread = some (next, status)) :
    next.Membership := by
  unfold leaveCgroup at performed
  split at performed
  next leaves =>
    obtain ⟨⟨cgroups, made⟩, directive, ended⟩ := Option.map_eq_some_iff.mp performed
    cases ended
    have inCgroup : system.cgroups.cgroup thread = some container.cgroupId :=
      leaves.2.trans (own leaves.1)
    obtain ⟨isOpen, removal⟩ := removeTask_cases directive
    refine ⟨?_, membership.named⟩
    cases removal with
    | inl success =>
      obtain ⟨removed, found, removal⟩ := success
      rw [threadGet_threadId, Option.some.injEq] at found
      subst removed
      exact membership.cgroups.removeThread isOpen inCgroup removal
    | inr failure =>
      obtain ⟨notThere, same⟩ := failure
      subst same
      refine membership.cgroups.clearThread ?_
      intro other otherOpen onOther
      have inOther := ((membership.cgroups other otherOpen).members thread).mp onOther
      have same : container.cgroupId = other :=
        Option.some.inj (inCgroup.symm.trans inOther.1)
      exact notThere thread (threadGet_threadId names thread) (same ▸ onOther)
  next =>
    cases performed
    exact membership

theorem Membership.leave (membership : system.Membership)
    (performed : system.rtemsUnifiedContainerLeave names (some address) target executing malloc
      io = some (next, status)) : next.Membership := by
  unfold rtemsUnifiedContainerLeave at performed
  obtain ⟨container, found, performed⟩ := Option.bind_eq_some_iff.mp performed
  dsimp only at performed
  split at performed
  next =>
    cases performed
    exact membership
  next =>
    unfold leaveParts at performed
    obtain ⟨-, performed⟩ := Option.ite_none_left_eq_some.mp performed
    obtain ⟨⟨left, made⟩, cgroupPart, ended⟩ := Option.map_eq_some_iff.mp performed
    have own := membership.named address container found
    obtain ⟨pidCgroups, pidHandles⟩ := leavePid_cgroups names system container
      ((target.or container.attachedThread).getD executing) malloc
    have moved : (system.leavePid names container
        ((target.or container.attachedThread).getD executing) malloc).Membership := by
      refine ⟨?_, ?_⟩
      · rw [pidCgroups]
        exact membership.cgroups
      · rw [pidHandles]
        exact membership.named
    have leftMembership := leaveCgroup_cases moved own cgroupPart
    dsimp only at ended
    split at ended
    next =>
      cases ended
      refine ⟨leftMembership.cgroups, named_setHandle leftMembership.named ?_⟩
      intro stored isStored
      cases isStored
      exact own
    next =>
      cases ended
      exact leftMembership

theorem release_cgroups (names : ObjectNames Thread) (system : UnifiedSystem Thread) (address : Nat)
    (container : RtemsContainer Thread) (first : StatusCode) (malloc : Nat → Bool) :
    (system.release names address container first malloc).1.cgroups =
        (if container.cgroupId ≠ 0 then
          (rtemsCgroupDelete system.cgroups container.cgroupId).1 else system.cgroups) ∧
      (system.release names address container first malloc).1.handles =
        update system.handles address none := by
  unfold release
  dsimp only [setHandle]
  by_cases without : container.cgroupId ≠ 0
  · rw [if_pos without, if_pos without]
    exact ⟨rfl, rfl⟩
  · rw [if_neg without, if_neg without]
    exact ⟨rfl, rfl⟩

theorem Membership.release (names : ObjectNames Thread) (container : RtemsContainer Thread)
    (address : Nat) (first : StatusCode) (malloc : Nat → Bool) (membership : system.Membership) :
    (system.release names address container first malloc).1.Membership := by
  obtain ⟨cgroups, handles⟩ := release_cgroups names system address container first malloc
  refine ⟨?_, ?_⟩
  · rw [cgroups]
    split
    · exact delete_membership membership.cgroups container.cgroupId
    · exact membership.cgroups
  · rw [handles]
    refine named_setHandle membership.named ?_
    intro stored isStored
    cases isStored

theorem Membership.delete {leaveMalloc : Nat → Bool} (membership : system.Membership)
    (performed : system.rtemsUnifiedContainerDelete names (some address) executing leaveMalloc io
      malloc = some (next, status)) : next.Membership := by
  unfold rtemsUnifiedContainerDelete at performed
  obtain ⟨container, found, performed⟩ := Option.bind_eq_some_iff.mp performed
  split at performed
  next =>
    obtain ⟨⟨left, first⟩, leaving, ended⟩ := Option.bind_eq_some_iff.mp performed
    have released := Membership.release names container address first malloc
      (membership.leave leaving)
    rw [releaseLive_some ended] at released
    exact released
  next =>
    have released := Membership.release names container address .successful malloc membership
    rw [releaseLive_some performed] at released
    exact released

def Publishes (flags : BitVec 32) (outcomes : CreateOutcomes) (block : ObjectsId) : Prop :=
  outcomes.calloc ≠ none ∧
    (flags &&& rtemsUnifiedContainerPid ≠ 0 → outcomes.pidContainer ≠ none) ∧
      outcomes.namespaces = .successful ∧
        flags &&& (rtemsUnifiedContainerCpu ||| rtemsUnifiedContainerMem) ≠ 0 ∧
          outcomes.cgroup = some block ∧ outcomes.io = .successful

theorem firstError_eq_successful {first second : StatusCode}
    (success : firstError first second = .successful) :
    first = .successful ∧ second = .successful := by
  unfold firstError at success
  split at success
  next ok => exact ⟨ok, success⟩
  next failed => exact absurd success failed

theorem create_cases {flags : BitVec 32} {outcomes : CreateOutcomes}
    (nonzero : ∀ block, outcomes.cgroup = some block → block ≠ 0)
    (named : ∀ address container, system.handles address = some container → container.Named)
    (performed : (system.rtemsUnifiedContainerCreate names flags outcomes).1 = next) :
    (∀ address container, next.handles address = some container → container.Named) ∧
      ((∃ block, Publishes flags outcomes block ∧
          next.cgroups = publish system.cgroups block outcomes.config) ∨
        ((∀ block, ¬ Publishes flags outcomes block) ∧
          (next.cgroups = system.cgroups ∨
            ∃ block, outcomes.cgroup = some block ∧ next.cgroups =
              (rtemsCgroupDelete (publish system.cgroups block outcomes.config) block).1))) := by
  unfold rtemsUnifiedContainerCreate at performed
  cases allocated : outcomes.calloc with
  | none =>
    simp only [allocated] at performed
    subst next
    exact ⟨named, .inr ⟨fun block publishes => publishes.1 allocated, .inl rfl⟩⟩
  | some address =>
    simp only [allocated] at performed
    obtain ⟨pidCgroups, pidHandles, pidFlags, pidCgroup, pidStatus⟩ :=
      createPid_cases system ⟨flags, false, none, none, 0, none⟩ outcomes
    generalize system.createPid ⟨flags, false, none, none, 0, none⟩ outcomes = pidPart
      at performed pidCgroups pidHandles pidFlags pidCgroup pidStatus
    obtain ⟨pidMade, made, pidResult⟩ := pidPart
    simp only at performed pidCgroups pidHandles pidFlags pidCgroup pidStatus
    have cgroupFlags : made.hasCgroup = true ↔
        flags &&& (rtemsUnifiedContainerCpu ||| rtemsUnifiedContainerMem) ≠ 0 := by
      simp [RtemsContainer.hasCgroup, pidFlags]
    have pidFailed : pidResult ≠ .successful → ∀ block, ¬ Publishes flags outcomes block := by
      intro failed block publishes
      refine failed (pidStatus.mpr ?_)
      intro has
      exact publishes.2.1 (by simpa [RtemsContainer.hasPid] using has)
    rw [← pidHandles] at named
    rw [← pidCgroups]
    have discarded : (∀ block, ¬ Publishes flags outcomes block) →
        (pidMade.release names address made .successful outcomes.deletion).1 = next →
        (∀ address container, next.handles address = some container → container.Named) ∧
          ((∀ block, ¬ Publishes flags outcomes block) ∧ next.cgroups = pidMade.cgroups) := by
      intro unpublished released
      obtain ⟨cgroups, handles⟩ := release_cgroups names pidMade address made .successful
        outcomes.deletion
      rw [released] at cgroups handles
      rw [if_neg (by simp [pidCgroup])] at cgroups
      refine ⟨?_, unpublished, cgroups⟩
      rw [handles]
      exact named_setHandle named (by simp)
    cases parts : firstError pidResult outcomes.namespaces with
    | successful =>
      obtain ⟨pidOk, namespacesOk⟩ := firstError_eq_successful parts
      simp only [parts] at performed
      cases createCgroup_cases pidMade made outcomes with
      | inl created =>
        obtain ⟨block, has, isBlock, created⟩ := created
        simp only [created] at performed
        split at performed
        next ioOk =>
          subst next
          refine ⟨named_setHandle named ?_, .inl ⟨block, ⟨by simp [allocated], ?_,
            namespacesOk, cgroupFlags.mp has, isBlock, ioOk⟩, rfl⟩⟩
          · intro stored isStored
            cases isStored
            exact fun _ => rfl
          · intro hasPid
            exact pidStatus.mp pidOk (by simpa [RtemsContainer.hasPid] using hasPid)
        next ioFailed =>
          subst next
          obtain ⟨cgroups, handles⟩ := release_cgroups names
            { pidMade with cgroups := publish pidMade.cgroups block outcomes.config } address
            { made with cgroupId := block, coreCgroup := some block } .successful
            outcomes.deletion
          rw [if_pos (nonzero block isBlock)] at cgroups
          refine ⟨?_, .inr ⟨?_, .inr ⟨block, isBlock, cgroups⟩⟩⟩
          · rw [handles]
            exact named_setHandle named (by simp)
          · intro other publishes
            exact ioFailed publishes.2.2.2.2.2
      | inr skipped =>
        obtain ⟨without, sameState, sameContainer, unflagged⟩ := skipped
        have unpublished : ∀ block, ¬ Publishes flags outcomes block := by
          intro block publishes
          have missing := without (cgroupFlags.mpr publishes.2.2.2.1)
          rw [publishes.2.2.2.2.1] at missing
          cases missing
        rw [sameState, sameContainer] at performed
        split at performed
        next success =>
          subst next
          refine ⟨named_setHandle named ?_, .inr ⟨unpublished, .inl rfl⟩⟩
          intro stored isStored has
          cases isStored
          rw [unflagged (firstError_eq_successful success).1] at has
          cases has
        next =>
          obtain ⟨keptNamed, unpublished, cgroups⟩ := discarded unpublished performed
          exact ⟨keptNamed, .inr ⟨unpublished, .inl cgroups⟩⟩
    | _ =>
      have unpublished : ∀ block, ¬ Publishes flags outcomes block := by
        intro block publishes
        have pidOk : pidResult = .successful := by
          by_contra pidError
          exact pidFailed pidError block publishes
        rw [pidOk, publishes.2.2.1] at parts
        cases parts
      simp only [parts] at performed
      split at performed
      next impossible => simp [firstError] at impossible
      next =>
        obtain ⟨keptNamed, unpublished, cgroups⟩ := discarded unpublished performed
        exact ⟨keptNamed, .inr ⟨unpublished, .inl cgroups⟩⟩

end UnifiedSystem

open UnifiedSystem

namespace UnifiedCall

theorem initial_membership (root : Nat) (cgroups : ObjectsId → CoreCgroupControl Thread)
    (configs : Nat → CoreCgroupConfig) :
    (UnifiedSystem.initial root cgroups configs).Membership := by
  refine ⟨?_, ?_⟩
  · intro block isOpen
    cases isOpen
  · intro address container found
    cases found

variable [DecidableEq Thread]

/-- The state in which a call leaves membership in agreement: what is appended
is admitted, what is removed directly has no node, and a block is opened after
every thread has left it. -/
def KeepsMembership (names : ObjectNames Thread) (system : UnifiedSystem Thread) :
    UnifiedCall Thread → Prop
  | .create flags outcomes =>
    ∀ block, Publishes flags outcomes block → system.cgroups.Unnamed block
  | .enter (some address) thread executing outcomes =>
    ∀ container, system.handles address = some container →
      system.Joins names container (thread.getD executing) outcomes →
        system.cgroups.coreCgroupCanAddThread container.cgroupId = true
  | .cgroupCreate name id _ allocated =>
    ∀ block, name ≠ 0 → id = true → allocated = some block → system.cgroups.Unnamed block
  | .cgroupAddTask cgroupId taskId workspace =>
    ∀ thread, workspace = true → cgroupId ∈ system.cgroups.opened →
      names.threadGet taskId = some thread → system.cgroups.Admits cgroupId thread
  | .cgroupRemoveTask cgroupId taskId =>
    ∀ thread, cgroupId ∈ system.cgroups.opened → names.threadGet taskId = some thread →
      thread ∉ (system.cgroups.cgroups cgroupId).threads
  | _ => True

variable {names : ObjectNames Thread} {system next : UnifiedSystem Thread}

variable {call : UnifiedCall Thread}

theorem perform_membership (membership : system.Membership) (wellFormed : call.WellFormed system)
    (keeps : call.KeepsMembership names system)
    (performed : call.perform names system = some next) : next.Membership := by
  cases call with
  | create flags outcomes =>
    obtain ⟨named, published⟩ := create_cases
      (fun block isBlock => (wellFormed.2.2 block isBlock).1) membership.named
      (Option.some.inj performed)
    refine ⟨?_, named⟩
    cases published with
    | inl success =>
      obtain ⟨block, publishes, isNext⟩ := success
      rw [isNext]
      exact publish_membership outcomes.config membership.cgroups (keeps block publishes)
    | inr failure =>
      cases failure.2 with
      | inl same =>
        rw [same]
        exact membership.cgroups
      | inr discarded =>
        obtain ⟨block, isBlock, isNext⟩ := discarded
        rw [isNext]
        exact discard_membership outcomes.config membership.cgroups (wellFormed.2.2 block isBlock).2
  | enter container thread executing outcomes =>
    obtain ⟨⟨after, status⟩, made, ended⟩ := Option.map_eq_some_iff.mp performed
    cases ended
    cases container with
    | none =>
      cases made
      exact membership
    | some address =>
      obtain ⟨container, found, -⟩ := wellFormed address rfl
      obtain ⟨named, joined⟩ := enter_cases found membership.named made
      refine ⟨?_, named⟩
      cases joined with
      | inl success =>
        obtain ⟨joins, isNext⟩ := success
        rw [isNext]
        exact membership.cgroups.addThread joins.2.2.2.2.2.2.2.2
          (membership.cgroups.absent joins.2.2.2.2.2.1) (keeps container found joins)
      | inr failure =>
        rw [failure.2]
        exact membership.cgroups
  | leave container thread executing malloc io =>
    obtain ⟨⟨after, status⟩, made, ended⟩ := Option.map_eq_some_iff.mp performed
    cases ended
    cases container with
    | none =>
      cases made
      exact membership
    | some address => exact membership.leave made
  | delete container executing leaveMalloc io malloc =>
    obtain ⟨⟨after, status⟩, made, ended⟩ := Option.map_eq_some_iff.mp performed
    cases ended
    cases container with
    | none =>
      cases made
      exact membership
    | some address => exact membership.delete made
  | pid call =>
    cases performed
    exact ⟨membership.cgroups, membership.named⟩
  | cgroupCreate name id config allocated =>
    cases performed
    refine ⟨?_, membership.named⟩
    cases rtemsCgroupCreate_cases system.cgroups name id config allocated with
    | inl success =>
      obtain ⟨block, ⟨valid, hasId, isBlock⟩, isNext⟩ := success
      rw [isNext]
      exact publish_membership config membership.cgroups (keeps block valid hasId isBlock)
    | inr failure =>
      rw [failure.2]
      exact membership.cgroups
  | cgroupAddTask cgroupId taskId workspace =>
    obtain ⟨⟨cgroups, status⟩, directive, ended⟩ := Option.map_eq_some_iff.mp performed
    cases ended
    refine ⟨?_, membership.named⟩
    cases addTask_cases directive with
    | inl success =>
      obtain ⟨thread, memory, isOpen, found, isNext⟩ := success
      obtain ⟨absent, canAdd⟩ := keeps thread memory isOpen found
      rw [isNext]
      exact membership.cgroups.addThread isOpen absent canAdd
    | inr failure =>
      rw [failure.2]
      exact membership.cgroups
  | cgroupRemoveTask cgroupId taskId =>
    obtain ⟨⟨cgroups, status⟩, directive, ended⟩ := Option.map_eq_some_iff.mp performed
    cases ended
    refine ⟨?_, membership.named⟩
    obtain ⟨isOpen, removal⟩ := removeTask_cases directive
    cases removal with
    | inl success =>
      obtain ⟨thread, found, removal⟩ := success
      have absent := keeps thread isOpen found
      simp [CgroupSystem.coreCgroupRemoveThread, absent] at removal
    | inr failure =>
      rw [failure.2]
      exact membership.cgroups
  | cgroupDelete id =>
    cases performed
    exact ⟨delete_membership membership.cgroups id, membership.named⟩

theorem perform_disagrees (membership : system.Membership) (wellFormed : call.WellFormed system)
    (misses : ¬ call.KeepsMembership names system) :
    ∃ next, call.perform names system = some next ∧ ¬ next.cgroups.MembershipAgrees := by
  cases call with
  | create flags outcomes =>
    simp only [KeepsMembership, CgroupSystem.Unnamed, not_forall, not_not] at misses
    obtain ⟨block, publishes, thread, named⟩ := misses
    refine ⟨_, rfl, ?_⟩
    cases (create_cases (fun block isBlock => (wellFormed.2.2 block isBlock).1)
      membership.named rfl).2 with
    | inl success =>
      obtain ⟨other, otherPublishes, isNext⟩ := success
      have same : block = other :=
        Option.some.inj (publishes.2.2.2.2.1.symm.trans otherPublishes.2.2.2.2.1)
      subst other
      rw [isNext]
      exact not_agrees_publish outcomes.config named
    | inr failure => exact absurd publishes (failure.1 block)
  | enter container thread executing outcomes =>
    cases container with
    | none => exact absurd trivial misses
    | some address =>
      simp only [KeepsMembership, not_forall] at misses
      obtain ⟨container, found, joins, full⟩ := misses
      obtain ⟨after, status, made⟩ := enter_of_joins names found joins
      refine ⟨after, by simp [perform, made], ?_⟩
      cases (enter_cases found membership.named made).2 with
      | inl success =>
        rw [success.2]
        exact CgroupSystem.not_agrees_addThread membership.cgroups
          joins.2.2.2.2.2.2.2.2 fun admits => full admits.2
      | inr failure => exact absurd joins failure.1
  | cgroupCreate name id config allocated =>
    simp only [KeepsMembership, CgroupSystem.Unnamed, not_forall, not_not] at misses
    obtain ⟨block, valid, hasId, isBlock, thread, named⟩ := misses
    refine ⟨_, rfl, ?_⟩
    cases rtemsCgroupCreate_cases system.cgroups name id config allocated with
    | inl success =>
      obtain ⟨other, others, isNext⟩ := success
      have same : block = other := Option.some.inj (isBlock.symm.trans others.2.2)
      subst other
      rw [isNext]
      exact not_agrees_publish config named
    | inr failure => exact absurd ⟨valid, hasId, isBlock⟩ (failure.1 block)
  | cgroupAddTask cgroupId taskId workspace =>
    simp only [KeepsMembership, not_forall] at misses
    obtain ⟨thread, memory, isOpen, found, refused⟩ := misses
    subst memory
    refine ⟨{ system with cgroups := system.cgroups.coreCgroupAddThread cgroupId thread },
      by simp [perform, addTask_of_open isOpen found], ?_⟩
    exact CgroupSystem.not_agrees_addThread membership.cgroups isOpen refused
  | cgroupRemoveTask cgroupId taskId =>
    simp only [KeepsMembership, not_forall, not_not] at misses
    obtain ⟨thread, isOpen, found, onChain⟩ := misses
    have removal : ∃ removed,
        system.cgroups.coreCgroupRemoveThread cgroupId thread = some removed := by
      simp [CgroupSystem.coreCgroupRemoveThread, onChain]
    obtain ⟨removed, removal⟩ := removal
    refine ⟨{ system with cgroups := removed }, ?_, ?_⟩
    · simp [perform, rtemsCgroupRemoveTask, cgroupGet_of_mem isOpen, found, removal]
    · exact CgroupSystem.not_agrees_removeThread membership.cgroups isOpen removal
  | _ => exact absurd trivial misses

end UnifiedCall

open UnifiedCall

variable [DecidableEq Thread]

/-- In a run of well-formed calls the chains, the counters and the fields of the
threads agree in every state reached if and only if every call keeps them so in
the state in which it is made. -/
theorem unifiedRun_membershipAgrees_iff (names : ObjectNames Thread) (root : Nat)
    (cgroups : ObjectsId → CoreCgroupControl Thread) (configs : Nat → CoreCgroupConfig)
    (calls : List (UnifiedCall Thread))
    (promised : Meets (UnifiedCall.step names) UnifiedCall.Promised
      (some (UnifiedSystem.initial root cgroups configs)) calls) :
    Throughout (UnifiedCall.step names)
        (fun state => ∀ system, state = some system → system.cgroups.MembershipAgrees)
        (some (UnifiedSystem.initial root cgroups configs)) calls ↔
      Meets (UnifiedCall.step names)
        (fun state call => ∀ system, state = some system → call.KeepsMembership names system)
        (some (UnifiedSystem.initial root cgroups configs)) calls := by
  refine throughout_iff_meets
    (fun state => ∀ system, state = some system → system.Membership) ?_ promised ?_ ?_ ?_
  · intro system isInitial
    cases isInitial
    exact initial_membership root cgroups configs
  · intro state call membership promises keeps next stepped
    obtain ⟨system, reached, performed⟩ := Option.bind_eq_some_iff.mp stepped
    exact perform_membership (membership system reached) (promises system reached)
      (keeps system reached) performed
  · intro state membership system reached
    exact (membership system reached).cgroups.agrees
  · intro state call membership promises misses agrees
    simp only [not_forall] at misses
    obtain ⟨system, reached, misses⟩ := misses
    obtain ⟨next, performed, disagrees⟩ :=
      perform_disagrees (membership system reached) (promises system reached) misses
    exact disagrees (agrees next (by simp [UnifiedCall.step, reached, performed]))

/-- The identifier of the first cgroup: class 11 of the classic API. -/
def firstCgroupId : ObjectsId := objectsBuildId objectsClassicApi 11 1 1

/-- A unified container at address 10 with a cgroup only. -/
def createCpuOnly : UnifiedCall (Fin 2) :=
  .create rtemsUnifiedContainerCpu
    ⟨some 10, none, true, .successful, 0, some firstCgroupId, .successful, fun _ => true⟩

def enterCpuOnly : UnifiedCall (Fin 2) :=
  .enter (some 10) (some 0) 0 ⟨true, true, fun _ => true, .successful, true, .successful⟩

/-- Task 0 enters a container with a cgroup and leaves it again. -/
theorem enterAndLeave_membershipAgrees :
    Throughout (UnifiedCall.step twoTaskNames)
      (fun state => ∀ system, state = some system → system.cgroups.MembershipAgrees)
      (some bootedSystem)
      [createCpuOnly, enterCpuOnly, .leave (some 10) none 1 (fun _ => true) .successful] := by
  refine (unifiedRun_membershipAgrees_iff twoTaskNames 0 _ _ _ ?_).mpr ?_
  · refine ⟨?_, ?_, ?_, trivial⟩
    · intro system isSystem
      cases isSystem
      refine ⟨fun _ _ => rfl, ?_, ?_⟩
      · intro address allocated
        cases allocated
      · intro block allocated
        cases allocated
        exact ⟨by decide, List.not_mem_nil⟩
    · intro system isSystem address isAddress
      cases isSystem
      cases isAddress
      refine ⟨_, rfl, ?_⟩
      intro pidContainer isContainer
      cases isContainer
    · intro system isSystem address isAddress
      cases isSystem
      cases isAddress
      refine ⟨_, rfl, ?_⟩
      intro pidContainer isContainer
      cases isContainer
  · refine ⟨?_, ?_, ?_, trivial⟩
    · intro system isSystem block publishes thread named
      cases isSystem
      cases named.1
    · intro system isSystem container found joins
      cases isSystem
      cases found
      decide
    · intro system isSystem
      trivial

/-- A task that was added and removed again still has the fields of a member. -/
theorem removedTask_disagrees :
    Meets (UnifiedCall.step twoTaskNames) UnifiedCall.Promised (some bootedSystem)
        [.cgroupCreate containerCgroupName true 0 (some firstCgroupId),
          .cgroupAddTask firstCgroupId (twoTaskIds 0) true,
          .cgroupRemoveTask firstCgroupId (twoTaskIds 0)] ∧
      ¬ Throughout (UnifiedCall.step twoTaskNames)
        (fun state => ∀ system, state = some system → system.cgroups.MembershipAgrees)
        (some bootedSystem)
        [.cgroupCreate containerCgroupName true 0 (some firstCgroupId),
          .cgroupAddTask firstCgroupId (twoTaskIds 0) true,
          .cgroupRemoveTask firstCgroupId (twoTaskIds 0)] := by
  refine ⟨⟨?_, ?_, ?_, trivial⟩, ?_⟩
  · intro system isSystem block allocated
    cases isSystem
    cases allocated
    exact ⟨by decide, List.not_mem_nil⟩
  · intro system isSystem
    trivial
  · intro system isSystem
    trivial
  · intro always
    have agrees := (always.final _ rfl).listed firstCgroupId (by decide) 0
    revert agrees
    decide

end RTContainer.Score
