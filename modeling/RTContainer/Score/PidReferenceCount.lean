import Mathlib.Data.List.Dedup
import RTContainer.Score.PidRuns

/-! The reference counts of the PID containers. Beside its members a container
is referenced by the unified containers that called `rtems_pid_container_inc_rc`
on it; a run counts these handles itself. -/

set_option autoImplicit false

namespace RTContainer.Score

open Machine Function

variable {Thread : Type} [DecidableEq Thread] {objectId : Thread → ObjectsId}

namespace PidContainer

variable {thread : Thread} {malloc : Bool}

theorem removeTask_some {container left : PidContainer Thread}
    (removed : container.removeTask objectId thread malloc = some left) :
    0 < container.rc ∧ left.rc = container.rc - 1 ∧
      left.threadList = container.threadList.erase thread := by
  by_cases exhausted : container.rc ≤ 0
  · simp [removeTask, exhausted] at removed
  · simp only [removeTask, exhausted, ↓reduceIte] at removed
    refine ⟨Int.not_le.mp exhausted, ?_⟩
    split at removed
    next index _ =>
      cases malloc with
      | false => simp at removed
      | true =>
        simp only [↓reduceIte, Option.some.injEq] at removed
        subst left
        exact ⟨rfl, rfl⟩
    next =>
      simp only [Option.some.injEq] at removed
      subst left
      exact ⟨rfl, rfl⟩

theorem moveRecords_some {src dest left joined : PidContainer Thread}
    (moved : PidSystem.moveRecords objectId src dest thread malloc = some (left, joined)) :
    thread ∈ src.threadList ∧ thread ∉ dest.threadList ∧
      left.rc = src.rc - 1 ∧ left.threadList = src.threadList.erase thread ∧
      joined.rc = dest.rc + 1 ∧ joined.threadList = thread :: dest.threadList := by
  unfold PidSystem.moveRecords at moved
  split at moved
  · contradiction
  split at moved
  · contradiction
  next listed =>
    split at moved
    · contradiction
    next vid _ =>
      split at moved
      · contradiction
      next absent =>
        obtain ⟨taken, takenEq, same⟩ := Option.map_eq_some_iff.mp moved
        obtain ⟨-, rfl⟩ := moveVid_eq_some.mp takenEq
        have leftEq : left = PidSystem.leaveSource src thread vid := (Prod.mk.inj same).1.symm
        have joinedEq : joined = PidSystem.joinDest objectId dest.takeVid.2 thread dest.takeVid.1 :=
          (Prod.mk.inj same).2.symm
        rw [leftEq, joinedEq]
        refine ⟨not_not.mp listed, absent, rfl, rfl, ?_, ?_⟩
        · simp [PidSystem.joinDest, setSlot]
        · simp [PidSystem.joinDest, setSlot]

end PidContainer

/-- The PID containers with the number of handles that hold each. -/
structure HeldPidSystem (Thread : Type) where
  system : PidSystem Thread
  handles : Nat → Nat

namespace HeldPidSystem

/-- `rtems_pid_container_initialize_root`; no handle exists yet. -/
def initial (root : Nat) : HeldPidSystem Thread :=
  ⟨PidSystem.rtemsPidContainerInitializeRoot root, fun _ => 0⟩

/-- A new container is held by no handle; `rtems_pid_container_inc_rc` adds one. -/
def countHandles (handles : Nat → Nat) : PidCall Thread → Nat → Nat
  | .create (some address) _ => update handles address 0
  | .incRc (some address) => update handles address (handles address + 1)
  | _ => handles

def step (objectId : Thread → ObjectsId) (state : HeldPidSystem Thread) (call : PidCall Thread) :
    HeldPidSystem Thread :=
  ⟨call.step objectId state.system, countHandles state.handles call⟩

def RefCounted (state : HeldPidSystem Thread) : Prop :=
  ∀ address record, address ≠ state.system.root →
    state.system.containers address = some record →
      record.rc = record.threadList.dedup.length + state.handles address

/-- What the counts are for: a removal or a move deletes a container, other
than the root, exactly when the last member leaves it and no handle holds it,
and a removal of a thread that is not a member changes nothing. -/
def ReleasedExactly (objectId : Thread → ObjectsId) (state : HeldPidSystem Thread) :
    PidCall Thread → Prop
  | .removeTask (some container) (some thread) malloc =>
    ∀ record, state.system.containers container = some record →
      (∀ address addressRecord, address ≠ state.system.root →
        state.system.containers address = some addressRecord →
          ((state.step objectId
              (.removeTask (some container) (some thread) malloc)).system.containers address =
              none ↔
            address = container ∧ record.threadList = [thread] ∧ state.handles container = 0 ∧
              (record.removeTask objectId thread (malloc 0)).isSome)) ∧
      (thread ∉ record.threadList →
        state.step objectId (.removeTask (some container) (some thread) malloc) = state)
  | .moveTask (some srcContainer) (some destContainer) (some thread) malloc =>
    ∀ src dest, srcContainer ≠ destContainer →
      state.system.containers srcContainer = some src →
      state.system.containers destContainer = some dest →
        ∀ address addressRecord, address ≠ state.system.root →
          state.system.containers address = some addressRecord →
            ((state.step objectId (.moveTask (some srcContainer) (some destContainer)
                (some thread) malloc)).system.containers address = none ↔
              address = srcContainer ∧ src.threadList = [thread] ∧
                state.handles srcContainer = 0 ∧
                (PidSystem.moveRecords objectId src dest thread (malloc 0)).isSome)
  | _ => True

/-- The calls that keep the counts. An admitted addition to a container other
than the root gets its list node and is given a thread that is not a member
yet; a removal is given a member, or a container that nothing references. -/
def Balanced (state : HeldPidSystem Thread) : PidCall Thread → Prop
  | .addTask (some container) (some thread) malloc =>
    ∀ record, container ≠ state.system.root → state.system.containers container = some record →
      record.pidCount < rtemsMaxProcessLimit - 1 → malloc = true ∧ thread ∉ record.threadList
  | .removeTask (some container) (some thread) _ =>
    ∀ record, state.system.containers container = some record →
      thread ∈ record.threadList ∨ record.rc ≤ 0
  | _ => True

/-- The invariant behind `RefCounted`: outside the root, the member lists have
no duplicates and the counts match them. -/
structure Counted (system : PidSystem Thread) (handles : Nat → Nat) : Prop where
  root_live : system.containers system.root ≠ none
  nodup : ∀ address record, address ≠ system.root → system.containers address = some record →
    record.threadList.Nodup
  count : ∀ address record, address ≠ system.root → system.containers address = some record →
    record.rc = record.threadList.length + handles address

section Counted

variable {system : PidSystem Thread} {handles : Nat → Nat}

theorem Counted.refCounted (counted : Counted system handles) : RefCounted ⟨system, handles⟩ := by
  intro address record different found
  rw [(counted.nodup address record different found).dedup]
  exact counted.count address record different found

section

omit [DecidableEq Thread]

theorem Counted.of_containers {other : PidSystem Thread} (counted : Counted system handles)
    (rootEq : other.root = system.root) (containersEq : other.containers = system.containers) :
    Counted other handles := by
  obtain ⟨live, nodup, count⟩ := counted
  constructor
  · rw [rootEq, containersEq]
    exact live
  · rw [rootEq, containersEq]
    exact nodup
  · rw [rootEq, containersEq]
    exact count

variable {address : Nat} {record : PidContainer Thread}

theorem store_ne_none {container : Nat} (stays : system.containers address ≠ none) :
    (system.store container (some record)).containers address ≠ none := by
  by_cases same : address = container
  · simp [same]
  · rwa [PidSystem.store_other _ _ same]

theorem Counted.store {newHandles : Nat → Nat} (counted : Counted system handles)
    (same : ∀ other, other ≠ address → newHandles other = handles other)
    (matched : address ≠ system.root → record.threadList.Nodup ∧
      record.rc = record.threadList.length + newHandles address) :
    Counted (system.store address (some record)) newHandles := by
  constructor
  · exact store_ne_none counted.root_live
  · intro other otherRecord different found
    by_cases isAddress : other = address
    · subst other
      rw [PidSystem.store_same, Option.some.injEq] at found
      exact found ▸ (matched different).1
    · rw [PidSystem.store_other _ _ isAddress] at found
      exact counted.nodup other otherRecord different found
  · intro other otherRecord different found
    by_cases isAddress : other = address
    · subst other
      rw [PidSystem.store_same, Option.some.injEq] at found
      exact found ▸ (matched different).2
    · rw [PidSystem.store_other _ _ isAddress] at found
      rw [same other isAddress]
      exact counted.count other otherRecord different found

end

variable {address container srcContainer destContainer : Nat} {malloc : Nat → Bool}
variable {record left : PidContainer Thread} {thread : Thread}

theorem delete_containers {deleted : Nat} (rootLive : system.containers system.root ≠ none)
    (away : address ≠ system.root) :
    (system.rtemsPidContainerDelete objectId (some deleted) malloc).containers address =
      if address = deleted then none else system.containers address := by
  obtain ⟨root, live⟩ := Option.ne_none_iff_exists'.mp rootLive
  by_cases isRoot : deleted = system.root
  · simp [PidSystem.rtemsPidContainerDelete, isRoot, away]
  cases found : system.containers deleted with
  | none =>
    simp only [PidSystem.rtemsPidContainerDelete, isRoot, ↓reduceIte, found]
    split
    next same => rw [same, found]
    next => rfl
  | some record =>
    rw [PidSystem.rtemsPidContainerDelete_eq isRoot live found]
    simp only [PidSystem.store_other _ _ away]
    split
    next same => rw [same, PidSystem.store_same]
    next different => rw [PidSystem.store_other _ _ different]

theorem delete_root (objectId : Thread → ObjectsId) (deleted : Nat) (malloc : Nat → Bool)
    (counted : Counted system handles) :
    let after := system.rtemsPidContainerDelete objectId (some deleted) malloc
    after.root = system.root ∧ after.containers after.root ≠ none := by
  obtain ⟨root, live⟩ := Option.ne_none_iff_exists'.mp counted.root_live
  by_cases isRoot : deleted = system.root
  · simp only [PidSystem.rtemsPidContainerDelete, isRoot, ↓reduceIte, true_and]
    exact counted.root_live
  cases found : system.containers deleted with
  | none =>
    simp only [PidSystem.rtemsPidContainerDelete, isRoot, ↓reduceIte, found, true_and]
    exact counted.root_live
  | some record =>
    rw [PidSystem.rtemsPidContainerDelete_eq isRoot live found]
    refine ⟨rfl, ?_⟩
    simp only [PidSystem.store_root, PidSystem.store_same]
    exact Option.some_ne_none _

theorem Counted.delete {container : Option Nat} (counted : Counted system handles) :
    Counted (system.rtemsPidContainerDelete objectId container malloc) handles := by
  cases container with
  | none => exact counted
  | some deleted =>
    obtain ⟨rootEq, live⟩ := delete_root objectId deleted malloc counted
    have found : ∀ address record, address ≠ system.root →
        (system.rtemsPidContainerDelete objectId (some deleted) malloc).containers address =
          some record → system.containers address = some record := by
      intro address record away found
      rw [delete_containers counted.root_live away] at found
      split at found
      · contradiction
      · exact found
    constructor
    · exact live
    · intro address record away stored
      rw [rootEq] at away
      exact counted.nodup address record away (found address record away stored)
    · intro address record away stored
      rw [rootEq] at away
      exact counted.count address record away (found address record away stored)

section

omit [DecidableEq Thread]

theorem Counted.create {address : Option Nat} {malloc : Bool} (counted : Counted system handles) :
    Counted (system.rtemsPidContainerCreate address malloc)
      (countHandles handles (.create address malloc : PidCall Thread)) := by
  cases address with
  | none => exact counted
  | some container =>
    have created : Counted (system.store container
        (some (PidContainer.initial (system.pidContainerId + 1))))
        (update handles container 0) :=
      counted.store (fun other different => update_of_ne different ..)
        fun _ => by simp [PidContainer.initial]
    cases malloc with
    | false | true => exact created.of_containers rfl rfl

theorem Counted.incRc {container : Option Nat} (counted : Counted system handles)
    (points : PidCall.Points system container) :
    Counted (system.rtemsPidContainerIncRc container)
      (countHandles handles (.incRc container : PidCall Thread)) := by
  cases container with
  | none => exact counted
  | some address =>
    obtain ⟨record, found⟩ := Option.isSome_iff_exists.mp (points address rfl)
    simp only [PidSystem.rtemsPidContainerIncRc, found, countHandles]
    refine counted.store (fun other different => update_of_ne different ..) ?_
    intro different
    refine ⟨counted.nodup address record different found, ?_⟩
    have count := counted.count address record different found
    simp only [update_self]
    omega

theorem Counted.addTask {container : Nat} {thread : Thread} {malloc : Bool}
    (counted : Counted system handles)
    (balanced : ∀ record, container ≠ system.root → system.containers container = some record →
      record.pidCount < rtemsMaxProcessLimit - 1 → malloc = true ∧ thread ∉ record.threadList) :
    Counted (system.rtemsPidContainerAddTask objectId (some container) (some thread) malloc)
      handles := by
  simp only [PidSystem.rtemsPidContainerAddTask]
  split
  next record found =>
    refine counted.store (fun _ _ => rfl) ?_
    intro different
    have nodup := counted.nodup container record different found
    have count := counted.count container record different found
    by_cases room : record.pidCount < rtemsMaxProcessLimit - 1
    · obtain ⟨rfl, absent⟩ := balanced record different found room
      rw [PidContainer.addTask_eq_joinDest room]
      simp only [PidSystem.joinDest, PidContainer.setSlot, PidContainer.takeVid_threadList,
        PidContainer.takeVid_rc, List.nodup_cons, List.length_cons]
      exact ⟨⟨absent, nodup⟩, by omega⟩
    · rw [PidContainer.addTask_refused (Nat.not_lt.mp room)]
      exact ⟨nodup, count⟩
  next => exact counted

end

section

variable (counted : Counted system handles)
include counted

theorem Counted.erased (different : container ≠ system.root)
    (found : system.containers container = some record) (listed : thread ∈ record.threadList)
    (rcEq : left.rc = record.rc - 1) (threads : left.threadList = record.threadList.erase thread) :
    left.threadList.Nodup ∧ left.rc = left.threadList.length + handles container := by
  have nodup := counted.nodup container record different found
  have count := counted.count container record different found
  have length := List.length_erase_of_mem listed
  have positive := List.length_pos_of_mem listed
  rw [threads, rcEq]
  exact ⟨nodup.erase thread, by omega⟩

omit [DecidableEq Thread] in
theorem Counted.rc_eq_zero_iff (different : container ≠ system.root)
    (found : system.containers container = some record) (listed : thread ∈ record.threadList)
    (rcEq : left.rc = record.rc - 1) :
    left.rc = 0 ↔ record.threadList = [thread] ∧ handles container = 0 := by
  have count := counted.count container record different found
  constructor
  · intro zero
    have positive := List.length_pos_of_mem listed
    have single : record.threadList.length = 1 := by omega
    obtain ⟨only, alone⟩ := List.length_eq_one_iff.mp single
    rw [alone, List.mem_singleton] at listed
    exact ⟨listed ▸ alone, by omega⟩
  · rintro ⟨alone, unheld⟩
    rw [alone] at count
    simp only [List.length_singleton] at count
    omega

theorem Counted.removeTask (balanced : ∀ record, system.containers container = some record →
      thread ∈ record.threadList ∨ record.rc ≤ 0) :
    Counted (system.rtemsPidContainerRemoveTask objectId (some container) (some thread) malloc)
      handles := by
  simp only [PidSystem.rtemsPidContainerRemoveTask]
  split
  next => exact counted
  next left removed =>
    obtain ⟨record, found, removed⟩ := Option.bind_eq_some_iff.mp removed
    obtain ⟨positive, rcEq, threads⟩ := PidContainer.removeTask_some removed
    have listed : thread ∈ record.threadList :=
      (balanced record found).resolve_right (Int.not_le.mpr positive)
    have stored : Counted (system.store container (some left)) handles :=
      counted.store (fun _ _ => rfl)
        fun different => counted.erased different found listed rcEq threads
    split
    next => exact stored.delete
    next => exact stored

theorem Counted.moveTask :
    Counted (system.rtemsPidContainerMoveTask objectId (some srcContainer) (some destContainer)
      (some thread) malloc) handles := by
  simp only [PidSystem.rtemsPidContainerMoveTask]
  split
  next => exact counted
  next different =>
    split
    next src dest srcFound destFound =>
      split
      next => exact counted
      next left joined moved =>
        obtain ⟨listed, absent, leftRc, leftThreads, joinedRc, joinedThreads⟩ :=
          PidContainer.moveRecords_some moved
        have leftCounted : Counted (system.store srcContainer (some left)) handles :=
          counted.store (fun _ _ => rfl)
            fun away => counted.erased away srcFound listed leftRc leftThreads
        have movedCounted : Counted ((system.store srcContainer (some left)).store destContainer
            (some joined)) handles := by
          refine leftCounted.store (fun _ _ => rfl) ?_
          intro away
          have nodup := counted.nodup destContainer dest away destFound
          have count := counted.count destContainer dest away destFound
          rw [joinedThreads, joinedRc, List.nodup_cons, List.length_cons]
          exact ⟨⟨absent, nodup⟩, by omega⟩
        have pointedCounted := movedCounted.of_containers
          (PidSystem.redirect_root _ thread srcContainer destContainer)
          (PidSystem.redirect_containers _ thread srcContainer destContainer)
        split
        next => exact pointedCounted.delete
        next => exact pointedCounted
    next => exact counted

end

private theorem containers_eq_none_iff {rc : Int} (rootLive : system.containers system.root ≠ none)
    (away : address ≠ system.root) (stays : system.containers address ≠ none) :
    (if rc = 0 then system.rtemsPidContainerDelete objectId (some container) malloc
      else system).containers address = none ↔ address = container ∧ rc = 0 := by
  split
  next zero => simp [delete_containers rootLive away, stays, zero]
  next nonzero => simp [stays, nonzero]

theorem Counted.removeTask_released (counted : Counted system handles)
    (balanced : ∀ record, system.containers container = some record →
      thread ∈ record.threadList ∨ record.rc ≤ 0) :
    ReleasedExactly objectId ⟨system, handles⟩
      (.removeTask (some container) (some thread) malloc) := by
  intro record found
  have found : system.containers container = some record := found
  simp only [step, PidCall.step, PidSystem.rtemsPidContainerRemoveTask, found, Option.bind_some,
    countHandles]
  cases removed : record.removeTask objectId thread (malloc 0) with
  | none =>
    constructor
    · intro address addressRecord _ live
      simp [live]
    · intro _
      rfl
  | some left =>
    obtain ⟨positive, rcEq, -⟩ := PidContainer.removeTask_some removed
    have listed : thread ∈ record.threadList :=
      (balanced record found).resolve_right (Int.not_le.mpr positive)
    refine ⟨?_, fun absent => absurd listed absent⟩
    intro address addressRecord away live
    have stays : system.containers address ≠ none := by simp [live]
    rw [containers_eq_none_iff (store_ne_none counted.root_live) away (store_ne_none stays)]
    simp only [Option.isSome_some, and_true]
    refine and_congr_right ?_
    rintro rfl
    exact counted.rc_eq_zero_iff away found listed rcEq

theorem Counted.moveTask_released (counted : Counted system handles) :
    ReleasedExactly objectId ⟨system, handles⟩
      (.moveTask (some srcContainer) (some destContainer) (some thread) malloc) := by
  intro src dest different srcFound destFound address addressRecord away live
  have srcFound : system.containers srcContainer = some src := srcFound
  have destFound : system.containers destContainer = some dest := destFound
  have stays : system.containers address ≠ none := by
    rw [show system.containers address = some addressRecord from live]
    exact Option.some_ne_none _
  simp only [step, PidCall.step, PidSystem.rtemsPidContainerMoveTask, different, ↓reduceIte,
    srcFound, destFound]
  cases moved : PidSystem.moveRecords objectId src dest thread (malloc 0) with
  | none => simp [stays]
  | some records =>
    obtain ⟨left, joined⟩ := records
    obtain ⟨listed, -, leftRc, -, -, -⟩ := PidContainer.moveRecords_some moved
    rw [containers_eq_none_iff]
    · simp only [Option.isSome_some, and_true]
      refine and_congr_right ?_
      rintro rfl
      exact counted.rc_eq_zero_iff away srcFound listed leftRc
    · rw [PidSystem.redirect_containers, PidSystem.redirect_root]
      exact store_ne_none (store_ne_none counted.root_live)
    · rwa [PidSystem.redirect_root]
    · rw [PidSystem.redirect_containers]
      exact store_ne_none (store_ne_none stays)

end Counted

variable {state : HeldPidSystem Thread} {call : PidCall Thread}

theorem Counted.step (counted : Counted state.system state.handles)
    (wellFormed : call.WellFormed state.system) (balanced : state.Balanced call) :
    Counted (state.step objectId call).system (state.step objectId call).handles := by
  cases call with
  | create address malloc => exact counted.create
  | addTask container thread malloc =>
    rcases container with _ | container
    · exact counted
    rcases thread with _ | thread
    · exact counted
    exact counted.addTask balanced
  | removeTask container thread malloc =>
    rcases container with _ | container
    · exact counted
    rcases thread with _ | thread
    · exact counted
    exact counted.removeTask balanced
  | moveTask src dest thread malloc =>
    rcases src with _ | src
    · exact counted
    rcases dest with _ | dest
    · exact counted
    rcases thread with _ | thread
    · exact counted
    exact counted.moveTask
  | delete container malloc => exact counted.delete
  | incRc container => exact counted.incRc wellFormed

theorem Counted.released (counted : Counted state.system state.handles)
    (balanced : state.Balanced call) : state.ReleasedExactly objectId call := by
  cases call with
  | removeTask container thread malloc =>
    rcases container with _ | container
    · trivial
    rcases thread with _ | thread
    · trivial
    exact counted.removeTask_released balanced
  | moveTask src dest thread malloc =>
    rcases src with _ | src
    · trivial
    rcases dest with _ | dest
    · trivial
    rcases thread with _ | thread
    · trivial
    exact counted.moveTask_released
  | _ => trivial

omit [DecidableEq Thread] in
theorem initial_counted (root : Nat) :
    Counted (initial root : HeldPidSystem Thread).system
      (initial root : HeldPidSystem Thread).handles := by
  have none : ∀ address, address ≠ root →
      (initial root : HeldPidSystem Thread).system.containers address = none := by
    intro address away
    simp [initial, PidSystem.rtemsPidContainerInitializeRoot, away]
  constructor
  · simp [initial, PidSystem.rtemsPidContainerInitializeRoot]
  · intro address record away found
    rw [none address away] at found
    contradiction
  · intro address record away found
    rw [none address away] at found
    contradiction

/-- The counts are right in every state of a run, and every removal and move
releases exactly what it should. -/
def CountsReferences (objectId : Thread → ObjectsId) (root : Nat)
    (calls : List (PidCall Thread)) : Prop :=
  Throughout (step objectId) RefCounted (initial root) calls ∧
    ∀ before call after, calls = before ++ call :: after →
      (run (step objectId) (initial root) before).ReleasedExactly objectId call

end HeldPidSystem

open HeldPidSystem

/-- In every run of well-formed and balanced calls the reference count of a
container is the number of its members and handles. -/
theorem pidRun_countsReferences (objectId : Thread → ObjectsId) (root : Nat)
    (calls : List (PidCall Thread))
    (met : Meets (step objectId)
      (fun state call => call.WellFormed state.system ∧ state.Balanced call) (initial root)
      calls) :
    CountsReferences objectId root calls := by
  have always : ∀ calls, Meets (step objectId)
      (fun state call => call.WellFormed state.system ∧ state.Balanced call)
      (initial root : HeldPidSystem Thread) calls →
        Throughout (step objectId) (fun state => Counted state.system state.handles)
          (initial root) calls := fun _ =>
    throughout_of_preserved (initial_counted root) (fun _ _ counted met => counted.step met.1 met.2)
  refine ⟨(always calls met).imp fun state counted => counted.refCounted, ?_⟩
  rintro before call after rfl
  obtain ⟨metBefore, metAfter⟩ := meets_append.mp met
  exact (always before metBefore).final.released metAfter.1.2

/-- A held container gains a member and loses it again. -/
theorem heldContainer_countsReferences :
    CountsReferences twoTaskIds 0
      [.create (some 1) true, .incRc (some 1), .addTask (some 1) (some 0) true,
        .removeTask (some 1) (some 0) fun _ => true] := by
  refine pidRun_countsReferences twoTaskIds 0 _ ?_
  refine ⟨⟨?_, trivial⟩, ⟨?_, trivial⟩, ⟨?_, ?_⟩, ⟨?_, ?_⟩, trivial⟩
  · rintro container ⟨⟩
    rfl
  · rintro address ⟨⟩
    rfl
  · rintro address ⟨⟩
    rfl
  · rintro record - ⟨⟩ -
    exact ⟨rfl, List.not_mem_nil⟩
  · rintro address ⟨⟩
    rfl
  · rintro record ⟨⟩
    exact .inl List.mem_cons_self

/-- Removing a thread that is not a member takes the reference of the handle,
and the container is deleted under it. -/
theorem strangerRemoval_releases :
    Meets (HeldPidSystem.step twoTaskIds) (fun state call => call.WellFormed state.system)
        (initial 0) [.create (some 1) true, .incRc (some 1),
          .removeTask (some 1) (some 0) fun _ => true] ∧
      ¬ CountsReferences twoTaskIds 0 [.create (some 1) true, .incRc (some 1),
        .removeTask (some 1) (some 0) fun _ => true] := by
  refine ⟨⟨?_, ?_, ?_, trivial⟩, ?_⟩
  · rintro container ⟨⟩
    rfl
  · rintro address ⟨⟩
    rfl
  · rintro address ⟨⟩
    rfl
  · intro counts
    have released := counts.2 [.create (some 1) true, .incRc (some 1)] _ [] rfl
    have unchanged := (released _ rfl).2 List.not_mem_nil
    have gone : ((run (HeldPidSystem.step twoTaskIds) (initial 0)
        [.create (some 1) true, .incRc (some 1)]).step twoTaskIds
          (.removeTask (some 1) (some 0) fun _ => true)).system.containers 1 |>.isNone := by
      decide +kernel
    rw [unchanged] at gone
    contradiction

end RTContainer.Score
