import RTContainer.Lib.Run
import RTContainer.Score.PidSystemProperties

/-! Runs of the PID container operations. A run starts from the state that
`rtems_pid_container_initialize_root` leaves and makes any calls in any order,
with any outcome of every allocation. -/

set_option autoImplicit false

namespace RTContainer.Score

open Machine Function

inductive PidCall (Thread : Type) where
  | create (address : Option Nat) (malloc : Bool)
  | addTask (container : Option Nat) (thread : Option Thread) (malloc : Bool)
  | removeTask (container : Option Nat) (thread : Option Thread) (malloc : Nat → Bool)
  | moveTask (src dest : Option Nat) (thread : Option Thread) (malloc : Nat → Bool)
  | delete (container : Option Nat) (malloc : Nat → Bool)
  | incRc (container : Option Nat)

variable {Thread : Type} [DecidableEq Thread]

namespace PidCall

def step (objectId : Thread → ObjectsId) (system : PidSystem Thread) :
    PidCall Thread → PidSystem Thread
  | .create address malloc => system.rtemsPidContainerCreate address malloc
  | .addTask container thread malloc =>
    system.rtemsPidContainerAddTask objectId container thread malloc
  | .removeTask container thread malloc =>
    system.rtemsPidContainerRemoveTask objectId container thread malloc
  | .moveTask src dest thread malloc =>
    system.rtemsPidContainerMoveTask objectId src dest thread malloc
  | .delete container malloc => system.rtemsPidContainerDelete objectId container malloc
  | .incRc container => system.rtemsPidContainerIncRc container

/-- A pointer argument: `NULL` or the address of a live container. -/
def Points (system : PidSystem Thread) (container : Option Nat) : Prop :=
  ∀ address, container = some address → (system.containers address).isSome

/-- What the C language asks of a call: pointer arguments are `NULL` or live,
and `malloc()` returns memory that is not in use. -/
def WellFormed (system : PidSystem Thread) : PidCall Thread → Prop
  | .create address _ => ∀ container, address = some container → system.containers container = none
  | .addTask container _ _ => Points system container
  | .removeTask container _ _ => Points system container
  | .moveTask src dest _ _ => Points system src ∧ Points system dest
  | .delete container _ => Points system container
  | .incRc container => Points system container

/-- The calls that keep the representation. An admitted addition gets its list
node and is given a thread that is on no list; a deletion, also the one that
follows the loss of the last reference, gets the node of every member it
re-homes. -/
def Orderly (system : PidSystem Thread) : PidCall Thread → Prop
  | .addTask (some container) (some thread) malloc =>
    ∀ record, system.containers container = some record →
      record.pidCount < rtemsMaxProcessLimit - 1 → malloc = true ∧
        ∀ other otherRecord, system.containers other = some otherRecord →
          thread ∉ otherRecord.threadList
  | .removeTask (some container) (some thread) malloc =>
    ∀ root record, container ≠ system.root → system.containers system.root = some root →
      system.containers container = some record → record.rc = 1 →
        (thread ∈ record.threadList → malloc 0 = true) →
          root.NodesAllocated 0 (fun index => malloc (index + 1))
            (record.threadList.erase thread).length
  | .moveTask (some srcContainer) (some destContainer) (some thread) malloc =>
    ∀ root src dest, srcContainer ≠ destContainer → srcContainer ≠ system.root →
      system.containers system.root = some root → system.containers srcContainer = some src →
        system.containers destContainer = some dest → src.rc = 1 → thread ∈ src.threadList →
          dest.CanTake (malloc 0) →
            root.NodesAllocated (if destContainer = system.root then 1 else 0)
              (fun index => malloc (index + 1)) (src.threadList.erase thread).length
  | .delete (some container) malloc =>
    ∀ root record, container ≠ system.root → system.containers system.root = some root →
      system.containers container = some record →
        root.NodesAllocated 0 malloc record.threadList.length
  | _ => True

theorem step_valid {objectId : Thread → ObjectsId} {system : PidSystem Thread}
    {call : PidCall Thread} (injective : Injective objectId)
    (nonzero : ∀ thread, objectId thread ≠ 0) (valid : system.Valid objectId)
    (orderly : call.Orderly system) : (call.step objectId system).Valid objectId := by
  cases call with
  | create address malloc => exact valid.create
  | addTask container thread malloc =>
    rcases container with _ | container
    · exact valid
    rcases thread with _ | thread
    · exact valid
    exact valid.addTask injective orderly
  | removeTask container thread malloc =>
    rcases container with _ | container
    · exact valid
    rcases thread with _ | thread
    · exact valid
    exact valid.removeTask injective nonzero orderly
  | moveTask src dest thread malloc =>
    rcases src with _ | src
    · exact valid
    rcases dest with _ | dest
    · exact valid
    rcases thread with _ | thread
    · exact valid
    exact valid.moveTask injective nonzero orderly
  | delete container malloc =>
    rcases container with _ | container
    · exact valid
    exact valid.delete injective orderly
  | incRc container => exact valid.incRc

end PidCall

omit [DecidableEq Thread] in
theorem PidSystem.initializeRoot_valid (objectId : Thread → ObjectsId) (root : Nat) :
    (rtemsPidContainerInitializeRoot root : PidSystem Thread).Valid objectId := by
  have found : ∀ address record,
      (rtemsPidContainerInitializeRoot root : PidSystem Thread).containers address =
        some record → address = root ∧ record = PidContainer.initial 1 := by
    intro address record live
    by_cases same : address = root
    · simp only [rtemsPidContainerInitializeRoot, same, update_self, Option.some.injEq] at live
      exact ⟨same, live.symm⟩
    · simp [rtemsPidContainerInitializeRoot, same] at live
  constructor
  · exact ⟨PidContainer.initial 1, by simp [rtemsPidContainerInitializeRoot]⟩
  · intro address record live
    rw [(found address record live).2]
    exact PidContainer.initial_valid objectId 1
  · intro left right leftRecord rightRecord thread leftFound rightFound _ _
    exact (found left leftRecord leftFound).1.trans (found right rightRecord rightFound).1.symm

/-- In every run of well-formed and orderly calls the three records of the
members agree in every live container, and no thread has two containers. -/
theorem pidRun_valid {objectId : Thread → ObjectsId} (injective : Injective objectId)
    (nonzero : ∀ thread, objectId thread ≠ 0) (root : Nat) (calls : List (PidCall Thread))
    (met : Meets (PidCall.step objectId)
      (fun system call => call.WellFormed system ∧ call.Orderly system)
      (PidSystem.rtemsPidContainerInitializeRoot root) calls) :
    Throughout (PidCall.step objectId) (PidSystem.Valid objectId)
      (PidSystem.rtemsPidContainerInitializeRoot root) calls :=
  throughout_of_preserved (PidSystem.initializeRoot_valid objectId root)
    (fun _ _ valid orderly => PidCall.step_valid injective nonzero valid orderly.2) met

def twoTaskIds (task : Fin 2) : ObjectsId := BitVec.ofNat 32 (0x0a010001 + task)

theorem twoTaskIds_injective : Injective twoTaskIds := by
  intro left right
  revert left right
  decide

theorem twoTaskIds_nonzero : ∀ task, twoTaskIds task ≠ 0 := by decide

/-- A task joins the root, moves to a new container and is re-homed by its
deletion. -/
def moveAndDelete : List (PidCall (Fin 2)) :=
  [.create (some 1) true, .addTask (some 0) (some 0) true,
    .moveTask (some 0) (some 1) (some 0) fun _ => true, .delete (some 1) fun _ => true]

theorem moveAndDelete_valid :
    Throughout (PidCall.step twoTaskIds) (PidSystem.Valid twoTaskIds)
      (PidSystem.rtemsPidContainerInitializeRoot 0) moveAndDelete := by
  refine pidRun_valid twoTaskIds_injective twoTaskIds_nonzero 0 moveAndDelete ?_
  refine ⟨⟨?_, trivial⟩, ⟨?_, ?_⟩, ⟨⟨?_, ?_⟩, ?_⟩, ⟨?_, ?_⟩, trivial⟩
  · rintro container ⟨⟩
    rfl
  · rintro address ⟨⟩
    rfl
  · intro record found room
    refine ⟨rfl, ?_⟩
    intro other otherRecord otherFound
    match other with
    | 0 | 1 => cases otherFound; exact List.not_mem_nil
    | other + 2 => cases otherFound
  · rintro address ⟨⟩
    rfl
  · rintro address ⟨⟩
    rfl
  · intro root src dest different away live srcFound destFound counted listed can index inside room
    rfl
  · rintro address ⟨⟩
    decide +kernel
  · intro root record different live found index inside room
    rfl

/-- The list node of an addition is not allocated: VID 1 is in use and no
member has it. -/
theorem failedAddition_invalid :
    Meets (PidCall.step twoTaskIds) (fun system call => call.WellFormed system)
        (PidSystem.rtemsPidContainerInitializeRoot 0) [.addTask (some 0) (some 0) false] ∧
      ¬ Throughout (PidCall.step twoTaskIds) (PidSystem.Valid twoTaskIds)
        (PidSystem.rtemsPidContainerInitializeRoot 0) [.addTask (some 0) (some 0) false] := by
  refine ⟨⟨?_, trivial⟩, ?_⟩
  · rintro address ⟨⟩
    rfl
  · intro always
    have valid := always.final.container_valid 0 _ rfl
    obtain ⟨thread, listed, -⟩ := valid.listed 1 ⟨Nat.le_refl 1, rfl⟩
    exact List.not_mem_nil listed

end RTContainer.Score
