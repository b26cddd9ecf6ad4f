import RTContainer.Lib.Run
import RTContainer.Rtems.CgroupMembership

/-! The suspension of cgroups. A wait state is kept in the cgroup and in every
thread on its chain; suspending and resuming a cgroup, and adding and removing
threads, have to keep the two in agreement. -/

set_option autoImplicit false

namespace RTContainer.Score

open RTContainer.Rtems Machine

variable {Thread : Type}

namespace CgroupSystem

structure SuspensionAgrees (system : CgroupSystem Thread) : Prop where
  members : ∀ block, ∀ thread ∈ (system.cgroups block).threads, ∀ wait : CgroupWait,
    wait.In (system.currentState thread) ↔ wait.In (system.cgroups block).state
  strangers : ∀ thread, (∀ block, thread ∉ (system.cgroups block).threads) →
    ∀ wait : CgroupWait, ¬ wait.In (system.currentState thread)
  released : ∀ block, (∀ wait : CgroupWait, ¬ wait.In (system.cgroups block).state) →
    ∀ thread ∈ (system.cgroups block).threads, ∀ wait : CgroupWait,
      ¬ wait.In (system.currentState thread)

def Unshared (system : CgroupSystem Thread) (block : ObjectsId) : Prop :=
  ∀ thread ∈ (system.cgroups block).threads, ∀ other, other ≠ block →
    thread ∉ (system.cgroups other).threads

variable {system : CgroupSystem Thread} {block : ObjectsId} {thread : Thread}
variable {waitState : BitVec 32}

@[simp] theorem store_currentState (control : CoreCgroupControl Thread) :
    (system.store block control).currentState = system.currentState := rfl

theorem SuspensionAgrees.of_members
    (members : ∀ block, ∀ thread ∈ (system.cgroups block).threads, ∀ wait : CgroupWait,
      wait.In (system.currentState thread) ↔ wait.In (system.cgroups block).state)
    (strangers : ∀ thread, (∀ block, thread ∉ (system.cgroups block).threads) →
      ∀ wait : CgroupWait, ¬ wait.In (system.currentState thread)) : system.SuspensionAgrees where
  members := members
  strangers := strangers
  released := by
    intro block free thread member wait isIn
    exact free wait ((members block thread member wait).mp isIn)

def setState (system : CgroupSystem Thread) (block : ObjectsId) (state : BitVec 32) :
    CgroupSystem Thread :=
  system.store block { system.cgroups block with state := state }

@[simp] theorem setState_threads (state : BitVec 32) (other : ObjectsId) :
    ((system.setState block state).cgroups other).threads = (system.cgroups other).threads := by
  by_cases same : other = block
  · subst other
    simp [setState]
  · rw [setState, store_cgroups_of_ne same]

@[simp] theorem setState_self (state : BitVec 32) :
    ((system.setState block state).cgroups block).state = state := by
  simp [setState]

theorem setState_other {state : BitVec 32} {other : ObjectsId} (different : other ≠ block) :
    ((system.setState block state).cgroups other).state = (system.cgroups other).state := by
  rw [setState, store_cgroups_of_ne different]

@[simp] theorem setState_currentState (state : BitVec 32) :
    (system.setState block state).currentState = system.currentState := rfl

theorem SuspensionAgrees.setState (agrees : system.SuspensionAgrees)
    (untouched : (system.cgroups block).threads ≠ [] → ∀ wait : CgroupWait,
      ¬ (wait.In (system.cgroups block).state ∧ wait.In waitState)) :
    (system.setState block (statesClear waitState (system.cgroups block).state)).SuspensionAgrees := by
  apply SuspensionAgrees.of_members
  · intro other thread member wait
    rw [setState_threads] at member
    have before := agrees.members other thread member wait
    by_cases same : other = block
    · subst other
      have absent := untouched (List.ne_nil_of_mem member) wait
      rw [setState_self, CgroupWait.in_statesClear, setState_currentState, before]
      exact ⟨fun held => ⟨held, fun isIn => absent ⟨held, isIn⟩⟩, And.left⟩
    · rw [setState_other same]
      exact before
  · intro thread stranger wait
    simp only [setState_threads] at stranger
    exact agrees.strangers thread stranger wait

variable {wait : CgroupWait} {removed : CgroupSystem Thread}

theorem not_agrees_setState (agrees : system.SuspensionAgrees)
    (inState : wait.In (system.cgroups block).state) (isIn : wait.In waitState)
    (onChain : thread ∈ (system.cgroups block).threads) :
    ¬ (system.setState block
      (statesClear waitState (system.cgroups block).state)).SuspensionAgrees := by
  intro after
  have held := (agrees.members block thread onChain wait).mpr inState
  have now := after.members block thread (by rwa [setState_threads]) wait
  rw [setState_self, CgroupWait.in_statesClear] at now
  exact (now.mp held).2 isIn

variable [DecidableEq Thread]

/-- The state of a cgroup changes, and those of its threads alike. -/
def changed (system : CgroupSystem Thread) (block : ObjectsId) (change : BitVec 32 → BitVec 32) :
    CgroupSystem Thread :=
  { system.setState block (change (system.cgroups block).state) with
    currentState := (system.cgroups block).threads.foldl
      (fun states thread => Function.update states thread (change (states thread)))
      system.currentState }

abbrev suspended (system : CgroupSystem Thread) (block : ObjectsId) (waitState : BitVec 32) :
    CgroupSystem Thread :=
  system.changed block (statesSet waitState)

abbrev resumed (system : CgroupSystem Thread) (block : ObjectsId) (waitState : BitVec 32) :
    CgroupSystem Thread :=
  system.changed block (statesClear waitState)

section

variable {change : BitVec 32 → BitVec 32} (other : ObjectsId)

@[simp] theorem changed_threads :
    ((system.changed block change).cgroups other).threads = (system.cgroups other).threads :=
  setState_threads _ other

theorem changed_state : ((system.changed block change).cgroups other).state =
      if other = block then change (system.cgroups other).state
      else (system.cgroups other).state := by
  split
  next same =>
    subst other
    exact setState_self _
  next different => exact setState_other different

variable (idempotent : ∀ state, change (change state) = change state)
include idempotent

theorem foldl_change (threads : List Thread) (currentState : Thread → BitVec 32) (thread : Thread) :
    threads.foldl (fun states thread => Function.update states thread (change (states thread)))
        currentState thread =
      if thread ∈ threads then change (currentState thread) else currentState thread := by
  induction threads generalizing currentState with
  | nil => simp
  | cons first rest ih =>
    rw [List.foldl_cons, ih]
    by_cases same : thread = first
    · subst first
      simp [idempotent]
    · simp [same]

theorem changed_currentState (thread : Thread) :
    (system.changed block change).currentState thread =
      if thread ∈ (system.cgroups block).threads then change (system.currentState thread)
      else system.currentState thread :=
  foldl_change idempotent _ _ thread

/-- If the change is one for the cgroup, its threads are on no other chain. -/
theorem SuspensionAgrees.changed (agrees : system.SuspensionAgrees)
    (uniform : ∀ (wait : CgroupWait) {first second : BitVec 32},
      (wait.In first ↔ wait.In second) → (wait.In (change first) ↔ wait.In (change second)))
    (unshared : (∃ wait : CgroupWait, ¬ (wait.In (change (system.cgroups block).state) ↔
      wait.In (system.cgroups block).state)) → system.Unshared block) :
    (system.changed block change).SuspensionAgrees := by
  apply SuspensionAgrees.of_members
  · intro other thread member wait
    rw [changed_threads] at member
    have before := agrees.members other thread member wait
    rw [changed_state, changed_currentState idempotent]
    by_cases same : other = block
    · subst other
      rw [if_pos rfl, if_pos member]
      exact uniform wait before
    · rw [if_neg same]
      split
      next onChain =>
        have owner := agrees.members block thread onChain wait
        have kept : wait.In (change (system.cgroups block).state) ↔
            wait.In (system.cgroups block).state := by
          by_contra differs
          exact unshared ⟨wait, differs⟩ thread onChain other same member
        exact (uniform wait owner).trans (kept.trans (owner.symm.trans before))
      next => exact before
  · intro thread stranger wait
    simp only [changed_threads] at stranger
    rw [changed_currentState idempotent, if_neg (stranger block)]
    exact agrees.strangers thread stranger wait

end

theorem suspended_currentState (thread : Thread) :
    (system.suspended block waitState).currentState thread =
      if thread ∈ (system.cgroups block).threads then statesSet waitState (system.currentState thread)
      else system.currentState thread :=
  changed_currentState (fun _ => by simp [statesSet, BitVec.or_assoc]) thread

theorem resumed_currentState (thread : Thread) :
    (system.resumed block waitState).currentState thread =
      if thread ∈ (system.cgroups block).threads then
        statesClear waitState (system.currentState thread)
      else system.currentState thread :=
  changed_currentState (fun _ => by simp [statesClear, BitVec.and_assoc]) thread

theorem coreCgroupSuspend_cases (system : CgroupSystem Thread) (theCgroup : Option ObjectsId)
    (waitState : BitVec 32) :
    (∃ block, theCgroup = some block ∧ (system.cgroups block).state &&& waitState = 0 ∧
        system.coreCgroupSuspend theCgroup waitState =
          (system.suspended block waitState, .successful)) ∨
      ((∀ block, theCgroup = some block → (system.cgroups block).state &&& waitState ≠ 0) ∧
        (system.coreCgroupSuspend theCgroup waitState).2 ≠ .successful ∧
        (system.coreCgroupSuspend theCgroup waitState).1 = system) := by
  cases theCgroup with
  | none => exact .inr ⟨by simp, by simp [coreCgroupSuspend], rfl⟩
  | some block =>
    by_cases apart : (system.cgroups block).state &&& waitState = 0
    · refine .inl ⟨block, rfl, apart, ?_⟩
      simp only [coreCgroupSuspend, apart, ne_eq, not_true_eq_false, ↓reduceIte]
      rfl
    · have refused : system.coreCgroupSuspend (some block) waitState =
          (system, .incorrectState) := by
        simp only [coreCgroupSuspend, ne_eq, apart, not_false_eq_true, ↓reduceIte]
      exact .inr ⟨by simpa using apart, by simp [refused], by rw [refused]⟩

theorem coreCgroupResume_cases (system : CgroupSystem Thread) (theCgroup : Option ObjectsId)
    (waitState : BitVec 32) :
    (∃ block, theCgroup = some block ∧
        ((system.cgroups block).state &&& waitState ≠ 0 ∧ waitState &&& statesBlocked ≠ 0) ∧
        (statesClear waitState (system.cgroups block).state &&& statesBlocked = 0 ∧
            system.coreCgroupResume theCgroup waitState =
              (system.resumed block waitState, .successful) ∨
          statesClear waitState (system.cgroups block).state &&& statesBlocked ≠ 0 ∧
            system.coreCgroupResume theCgroup waitState =
              (system.setState block (statesClear waitState (system.cgroups block).state),
                .successful))) ∨
      ((∀ block, theCgroup = some block →
          (system.cgroups block).state &&& waitState = 0 ∨ waitState &&& statesBlocked = 0) ∧
        (system.coreCgroupResume theCgroup waitState).2 ≠ .successful ∧
        (system.coreCgroupResume theCgroup waitState).1 = system) := by
  cases theCgroup with
  | none => exact .inr ⟨by simp, by simp [coreCgroupResume], rfl⟩
  | some block =>
    by_cases apart : (system.cgroups block).state &&& waitState = 0
    · have refused : system.coreCgroupResume (some block) waitState =
          (system, .incorrectState) := by
        simp only [coreCgroupResume, apart, ↓reduceIte]
      exact .inr ⟨by simp [apart], by simp [refused], by rw [refused]⟩
    · have nonzero : (system.cgroups block).state ≠ 0 := by
        intro zero
        exact apart (by simp [zero])
      by_cases harmless : waitState &&& statesBlocked = 0
      · have refused : system.coreCgroupResume (some block) waitState =
            (system, .incorrectState) := by
          simp only [coreCgroupResume, apart, nonzero, harmless, ne_eq, not_false_eq_true,
            and_self, ↓reduceIte]
        exact .inr ⟨by simp [harmless], by simp [refused], by rw [refused]⟩
      · refine .inl ⟨block, rfl, ⟨apart, harmless⟩, ?_⟩
        by_cases free : statesClear waitState (system.cgroups block).state &&& statesBlocked = 0
        · refine .inl ⟨free, ?_⟩
          unfold statesClear at free
          simp only [coreCgroupResume, apart, harmless, free, nonzero, ↓reduceIte, ne_eq,
            not_false_eq_true, and_false]
          rfl
        · refine .inr ⟨free, ?_⟩
          unfold statesClear at free
          simp only [coreCgroupResume, apart, harmless, free, nonzero, ↓reduceIte, ne_eq,
            not_false_eq_true, and_false]
          rfl

theorem SuspensionAgrees.suspended (agrees : system.SuspensionAgrees)
    (unshared : (∃ wait : CgroupWait, wait.In waitState) → system.Unshared block) :
    (system.suspended block waitState).SuspensionAgrees := by
  refine agrees.changed (fun _ => by simp [statesSet, BitVec.or_assoc])
    (fun wait _ _ same => by simp [same]) ?_
  rintro ⟨wait, differs⟩
  refine unshared ⟨wait, ?_⟩
  by_contra absent
  simp [absent] at differs

theorem SuspensionAgrees.resumed (agrees : system.SuspensionAgrees)
    (unshared : (∃ wait : CgroupWait, wait.In (system.cgroups block).state ∧ wait.In waitState) →
      system.Unshared block) : (system.resumed block waitState).SuspensionAgrees := by
  refine agrees.changed (fun _ => by simp [statesClear, BitVec.and_assoc])
    (fun wait _ _ same => by simp [same]) ?_
  rintro ⟨wait, differs⟩
  refine unshared ⟨wait, ?_⟩
  simpa using differs

theorem SuspensionAgrees.addThread (agrees : system.SuspensionAgrees)
    (pending : ∀ wait : CgroupWait,
      wait.In (system.currentState thread) ↔ wait.In (system.cgroups block).state) :
    (system.coreCgroupAddThread block thread).SuspensionAgrees := by
  apply SuspensionAgrees.of_members
  · intro other candidate member wait
    by_cases same : other = block
    · subst other
      simp only [coreCgroupAddThread, store_cgroups_self, List.mem_append,
        List.mem_singleton] at member ⊢
      cases member with
      | inl before => exact agrees.members block candidate before wait
      | inr added =>
        subst candidate
        exact pending wait
    · have frame : (system.coreCgroupAddThread block thread).cgroups other =
          system.cgroups other := store_cgroups_of_ne same _
      rw [frame] at member ⊢
      exact agrees.members other candidate member wait
  · intro candidate stranger wait
    apply agrees.strangers candidate
    intro other member
    apply stranger other
    by_cases same : other = block
    · subst other
      simp only [coreCgroupAddThread, store_cgroups_self]
      exact List.mem_append_left _ member
    · have frame : (system.coreCgroupAddThread block thread).cgroups other =
          system.cgroups other := store_cgroups_of_ne same _
      rw [frame]
      exact member

theorem removeThread_threads (success : system.coreCgroupRemoveThread block thread = some removed) :
    thread ∈ (system.cgroups block).threads ∧ removed.currentState = system.currentState ∧
      ∀ other, (removed.cgroups other).state = (system.cgroups other).state ∧
        (removed.cgroups other).threads =
          if other = block then (system.cgroups other).threads.erase thread
          else (system.cgroups other).threads := by
  obtain ⟨onChain, same⟩ := Option.ite_none_right_eq_some.mp success
  cases same
  refine ⟨onChain, rfl, ?_⟩
  intro other
  by_cases same : other = block
  · subst other
    simp
  · rw [store_cgroups_of_ne same]
    simp [same]

def StaysMember (system : CgroupSystem Thread) (block : ObjectsId) (thread : Thread) : Prop :=
  thread ∈ (system.cgroups block).threads.erase thread ∨
    ∃ other, other ≠ block ∧ thread ∈ (system.cgroups other).threads

theorem SuspensionAgrees.removeThread (agrees : system.SuspensionAgrees)
    (success : system.coreCgroupRemoveThread block thread = some removed)
    (lifted : (∀ wait : CgroupWait, ¬ wait.In (system.cgroups block).state) ∨
      system.StaysMember block thread) : removed.SuspensionAgrees := by
  obtain ⟨onChain, sameStates, chains⟩ := removeThread_threads success
  have kept : ∀ other candidate, candidate ∈ (removed.cgroups other).threads →
      candidate ∈ (system.cgroups other).threads := by
    intro other candidate member
    rw [(chains other).2] at member
    split at member
    next => exact List.mem_of_mem_erase member
    next => exact member
  apply SuspensionAgrees.of_members
  · intro other candidate member wait
    rw [sameStates, (chains other).1]
    exact agrees.members other candidate (kept other candidate member) wait
  · intro candidate stranger wait
    rw [sameStates]
    by_cases same : candidate = thread
    · subst candidate
      cases lifted with
      | inl free =>
        rw [agrees.members block thread onChain wait]
        exact free wait
      | inr stays =>
        exfalso
        cases stays with
        | inl again =>
          apply stranger block
          rw [(chains block).2, if_pos rfl]
          exact again
        | inr elsewhere =>
          obtain ⟨other, different, member⟩ := elsewhere
          apply stranger other
          rw [(chains other).2, if_neg different]
          exact member
    · apply agrees.strangers candidate
      intro other member
      apply stranger other
      rw [(chains other).2]
      split
      next => exact (List.mem_erase_of_ne same).mpr member
      next => exact member

theorem not_agrees_suspended (agrees : system.SuspensionAgrees)
    (apart : (system.cgroups block).state &&& waitState = 0) (isIn : wait.In waitState)
    (shared : ¬ system.Unshared block) : ¬ (system.suspended block waitState).SuspensionAgrees := by
  intro after
  apply shared
  intro thread onChain other different member
  have before := agrees.members other thread member wait
  have owner := agrees.members block thread onChain wait
  have now := after.members other thread (by rwa [changed_threads]) wait
  rw [changed_state, if_neg different, suspended_currentState, if_pos onChain,
    CgroupWait.in_statesSet] at now
  have inOther := now.mp (.inr isIn)
  exact CgroupWait.not_in_of_and_eq_zero apart isIn (owner.mp (before.mpr inOther))

theorem not_agrees_resumed (agrees : system.SuspensionAgrees)
    (inState : wait.In (system.cgroups block).state) (isIn : wait.In waitState)
    (shared : ¬ system.Unshared block) : ¬ (system.resumed block waitState).SuspensionAgrees := by
  intro after
  apply shared
  intro thread onChain other different member
  have held := (agrees.members block thread onChain wait).mpr inState
  have inOther := (agrees.members other thread member wait).mp held
  have now := after.members other thread (by rwa [changed_threads]) wait
  rw [changed_state, if_neg different, resumed_currentState, if_pos onChain,
    CgroupWait.in_statesClear] at now
  exact (now.mpr inOther).2 isIn

theorem not_agrees_added
    (pending : ¬ (wait.In (system.currentState thread) ↔ wait.In (system.cgroups block).state)) :
    ¬ (system.coreCgroupAddThread block thread).SuspensionAgrees := by
  intro after
  apply pending
  have now := after.members block thread (by simp [coreCgroupAddThread]) wait
  simpa [coreCgroupAddThread] using now

theorem not_agrees_removed (agrees : system.SuspensionAgrees)
    (success : system.coreCgroupRemoveThread block thread = some removed)
    (inState : wait.In (system.cgroups block).state) (leaves : ¬ system.StaysMember block thread) :
    ¬ removed.SuspensionAgrees := by
  intro after
  obtain ⟨onChain, sameStates, chains⟩ := removeThread_threads success
  have held := (agrees.members block thread onChain wait).mpr inState
  rw [← sameStates] at held
  refine after.strangers thread ?_ wait held
  intro other member
  rw [(chains other).2] at member
  apply leaves
  split at member
  next same =>
    subst other
    exact .inl member
  next different => exact .inr ⟨other, different, member⟩

end CgroupSystem

inductive SuspensionCall (Thread : Type) where
  | suspend (theCgroup : Option ObjectsId) (waitState : BitVec 32)
  | resume (theCgroup : Option ObjectsId) (waitState : BitVec 32)
  | addThread (cgroup : ObjectsId) (thread : Thread) (workspace : Bool)
  | removeThread (cgroup : ObjectsId) (thread : Thread)

namespace SuspensionCall

open CgroupSystem

variable [DecidableEq Thread]

def step (system : CgroupSystem Thread) : SuspensionCall Thread → CgroupSystem Thread
  | .suspend theCgroup waitState => (system.coreCgroupSuspend theCgroup waitState).1
  | .resume theCgroup waitState => (system.coreCgroupResume theCgroup waitState).1
  | .addThread cgroup thread workspace =>
    if workspace then system.coreCgroupAddThread cgroup thread else system
  | .removeThread cgroup thread => (system.coreCgroupRemoveThread cgroup thread).getD system

/-- When a call keeps the wait states in agreement. A suspension or resumption
that is refused and a removal without a node change nothing. -/
def Agreeable (system : CgroupSystem Thread) : SuspensionCall Thread → Prop
  | .suspend theCgroup waitState => ∀ block, theCgroup = some block →
      (system.cgroups block).state &&& waitState = 0 →
        (∃ wait : CgroupWait, wait.In waitState) → system.Unshared block
  | .resume theCgroup waitState => ∀ block, theCgroup = some block →
      (∃ wait : CgroupWait, wait.In (system.cgroups block).state ∧ wait.In waitState) →
        (system.cgroups block).threads = [] ∨
          statesClear waitState (system.cgroups block).state &&& statesBlocked = 0 ∧
            system.Unshared block
  | .addThread cgroup thread workspace => workspace = true → ∀ wait : CgroupWait,
      wait.In (system.currentState thread) ↔ wait.In (system.cgroups cgroup).state
  | .removeThread cgroup thread => thread ∈ (system.cgroups cgroup).threads →
      (∀ wait : CgroupWait, ¬ wait.In (system.cgroups cgroup).state) ∨
        system.StaysMember cgroup thread

variable {system : CgroupSystem Thread}

theorem step_agrees (call : SuspensionCall Thread) (agrees : system.SuspensionAgrees)
    (agreeable : call.Agreeable system) : (call.step system).SuspensionAgrees := by
  cases call with
  | suspend theCgroup waitState =>
    rcases system.coreCgroupSuspend_cases theCgroup waitState with
      ⟨block, isBlock, apart, result⟩ | ⟨-, -, same⟩
    · simp only [step, result]
      exact agrees.suspended (agreeable block isBlock apart)
    · simp only [step, same]
      exact agrees
  | resume theCgroup waitState =>
    rcases system.coreCgroupResume_cases theCgroup waitState with
      ⟨block, isBlock, -, ⟨-, result⟩ | ⟨blocked, result⟩⟩ | ⟨-, -, same⟩
    · simp only [step, result]
      apply agrees.resumed
      intro touched thread onChain
      cases agreeable block isBlock touched with
      | inl empty => simp [empty] at onChain
      | inr reached => exact reached.2 thread onChain
    · simp only [step, result]
      apply agrees.setState
      intro nonempty wait touched
      cases agreeable block isBlock ⟨wait, touched⟩ with
      | inl empty => exact nonempty empty
      | inr reached => exact blocked reached.1
    · simp only [step, same]
      exact agrees
  | addThread cgroup thread workspace =>
    cases workspace with
    | false => exact agrees
    | true => exact agrees.addThread (agreeable rfl)
  | removeThread cgroup thread =>
    cases success : system.coreCgroupRemoveThread cgroup thread with
    | none =>
      simp only [step, success, Option.getD_none]
      exact agrees
    | some removed =>
      simp only [step, success, Option.getD_some]
      exact agrees.removeThread success (agreeable (removeThread_threads success).1)

theorem step_disagrees (call : SuspensionCall Thread) (agrees : system.SuspensionAgrees)
    (missed : ¬ call.Agreeable system) : ¬ (call.step system).SuspensionAgrees := by
  cases call with
  | suspend theCgroup waitState =>
    rcases system.coreCgroupSuspend_cases theCgroup waitState with
      ⟨block, isBlock, apart, result⟩ | ⟨refused, -, -⟩
    · simp only [step, result]
      intro after
      apply missed
      intro other isOther _ ⟨wait, isIn⟩
      cases isBlock.symm.trans isOther
      by_contra shared
      exact not_agrees_suspended agrees apart isIn shared after
    · exact absurd (fun block isBlock apart _ => absurd apart (refused block isBlock)) missed
  | resume theCgroup waitState =>
    have blocking : ∀ wait : CgroupWait, wait.In waitState → waitState &&& statesBlocked ≠ 0 :=
      fun wait isIn harmless => CgroupWait.not_in_of_not_blocked harmless isIn
    rcases system.coreCgroupResume_cases theCgroup waitState with
      ⟨block, isBlock, -, ⟨free, result⟩ | ⟨blocked, result⟩⟩ | ⟨refused, -, -⟩
    · simp only [step, result]
      intro after
      apply missed
      rintro other isOther ⟨wait, inState, isIn⟩
      cases isBlock.symm.trans isOther
      refine .inr ⟨free, ?_⟩
      by_contra shared
      exact not_agrees_resumed agrees inState isIn shared after
    · simp only [step, result]
      intro after
      apply missed
      rintro other isOther ⟨wait, inState, isIn⟩
      cases isBlock.symm.trans isOther
      cases chain : (system.cgroups block).threads with
      | nil => exact .inl rfl
      | cons thread rest =>
        have onChain : thread ∈ (system.cgroups block).threads := by simp [chain]
        exact absurd after (not_agrees_setState agrees inState isIn onChain)
    · exfalso
      apply missed
      rintro block isBlock ⟨wait, inState, isIn⟩
      cases refused block isBlock with
      | inl apart => exact absurd inState (CgroupWait.not_in_of_and_eq_zero apart isIn)
      | inr harmless => exact absurd harmless (blocking wait isIn)
  | addThread cgroup thread workspace =>
    cases workspace with
    | false => exact absurd (fun isTrue => absurd isTrue (by decide)) missed
    | true =>
      intro after
      apply missed
      intro _ wait
      by_contra pending
      exact not_agrees_added pending after
  | removeThread cgroup thread =>
    cases success : system.coreCgroupRemoveThread cgroup thread with
    | none =>
      have absent : thread ∉ (system.cgroups cgroup).threads := by
        intro onChain
        simp [coreCgroupRemoveThread, onChain] at success
      exact absurd (fun onChain => absurd onChain absent) missed
    | some removed =>
      simp only [step, success, Option.getD_some]
      intro after
      apply missed
      intro _
      by_cases stays : system.StaysMember cgroup thread
      · exact .inr stays
      · refine .inl fun wait inState => ?_
        exact not_agrees_removed agrees success inState stays after

end SuspensionCall

variable [DecidableEq Thread]

/-- The wait states agree in every state of a run exactly when they agree at its
start and every call of it keeps them in agreement. -/
theorem suspensionRun_agrees_iff (system : CgroupSystem Thread)
    (calls : List (SuspensionCall Thread)) :
    Throughout SuspensionCall.step CgroupSystem.SuspensionAgrees system calls ↔
      system.SuspensionAgrees ∧ Meets SuspensionCall.step SuspensionCall.Agreeable system calls := by
  have promises : Meets SuspensionCall.step (fun _ _ => True) system calls :=
    meets_of_forall (fun _ _ => trivial) system calls
  apply throughout_iff_start_meets (fun _ => True) trivial promises (fun _ _ _ _ => trivial)
  intro state call _ _ agrees
  constructor
  · intro after
    by_contra missed
    exact call.step_disagrees agrees missed after
  · intro agreeable
    exact call.step_agrees agrees agreeable

/-- A cgroup without threads and a task that is in no cgroup. -/
def idleCgroups : CgroupSystem (Fin 2) where
  opened := []
  cgroups := fun _ => ⟨statesReady, 0, [], 0, 10, 0, false, false, 0, true⟩
  configs := fun _ => ⟨0, 0, 0, 0, 0⟩
  cgroup := fun _ => none
  isAddedToCgroup := fun _ => false
  currentState := fun _ => statesReady
  lastCpuStartTimestamp := fun _ => 0

theorem idleCgroups_agrees : idleCgroups.SuspensionAgrees := by
  apply CgroupSystem.SuspensionAgrees.of_members
  · intro block thread member
    cases member
  · intro thread _ wait
    exact CgroupWait.not_in_ready wait

/-- A cgroup that is suspended for two resources and resumed for both leaves its
thread waiting for the one that was resumed first. -/
theorem resumedTwice_disagrees :
    idleCgroups.SuspensionAgrees ∧
      ¬ Throughout SuspensionCall.step CgroupSystem.SuspensionAgrees idleCgroups
        [.addThread 0 0 true, .suspend (some 0) statesWaitingForCgroupCpuQuota,
          .suspend (some 0) statesWaitingForCgroupMemory,
          .resume (some 0) statesWaitingForCgroupCpuQuota,
          .resume (some 0) statesWaitingForCgroupMemory] := by
  refine ⟨idleCgroups_agrees, fun always => ?_⟩
  have waits := always.final.members 0 0 (by decide) .cpuQuota
  revert waits
  decide

end RTContainer.Score
