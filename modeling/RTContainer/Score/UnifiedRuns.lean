import RTContainer.Score.PidRuns
import RTContainer.Score.UnifiedContainer

/-! Runs of the unified containers, beside direct calls of the PID containers
and of the cgroup directives. A state is `none` once a call has gone through a
`NULL` or freed pointer. -/

set_option autoImplicit false

namespace RTContainer.Score

open RTContainer.Rtems Machine

inductive UnifiedCall (Thread : Type) where
  | create (flags : BitVec 32) (outcomes : CreateOutcomes)
  | enter (container : Option Nat) (thread : Option Thread) (executing : Thread)
      (outcomes : EnterOutcomes)
  | leave (container : Option Nat) (thread : Option Thread) (executing : Thread)
      (malloc : Nat → Bool) (io : StatusCode)
  | delete (container : Option Nat) (executing : Thread) (leaveMalloc : Nat → Bool)
      (io : StatusCode) (malloc : Nat → Bool)
  | pid (call : PidCall Thread)
  | cgroupCreate (name : BitVec 32) (id : Bool) (config : Nat) (allocated : Option ObjectsId)
  | cgroupAddTask (cgroupId taskId : ObjectsId) (workspace : Bool)
  | cgroupRemoveTask (cgroupId taskId : ObjectsId)
  | cgroupDelete (id : ObjectsId)

variable {Thread : Type} [DecidableEq Thread]

namespace UnifiedSystem

def initial (root : Nat) (cgroups : ObjectsId → CoreCgroupControl Thread)
    (configs : Nat → CoreCgroupConfig) : UnifiedSystem Thread where
  pids := PidSystem.rtemsPidContainerInitializeRoot root
  cgroups :=
    { opened := []
      cgroups := cgroups
      configs := configs
      cgroup := fun _ => none
      isAddedToCgroup := fun _ => false
      currentState := fun _ => statesReady
      lastCpuStartTimestamp := fun _ => 0 }
  hasContainer := fun _ => false
  handles := fun _ => none

end UnifiedSystem

namespace UnifiedCall

def perform (names : ObjectNames Thread) (system : UnifiedSystem Thread) :
    UnifiedCall Thread → Option (UnifiedSystem Thread)
  | .create flags outcomes => some (system.rtemsUnifiedContainerCreate names flags outcomes).1
  | .enter container thread executing outcomes =>
    (system.rtemsUnifiedContainerEnter names container thread executing outcomes).map Prod.fst
  | .leave container thread executing malloc io =>
    (system.rtemsUnifiedContainerLeave names container thread executing malloc io).map Prod.fst
  | .delete container executing leaveMalloc io malloc =>
    (system.rtemsUnifiedContainerDelete names container executing leaveMalloc io malloc).map
      Prod.fst
  | .pid call => some { system with pids := call.step names.threadId system.pids }
  | .cgroupCreate name id config allocated =>
    some { system with
      cgroups := (rtemsCgroupCreate system.cgroups name id config allocated).1 }
  | .cgroupAddTask cgroupId taskId workspace =>
    (rtemsCgroupAddTask names system.cgroups cgroupId taskId workspace).map
      fun (cgroups, _) => { system with cgroups := cgroups }
  | .cgroupRemoveTask cgroupId taskId =>
    (rtemsCgroupRemoveTask names system.cgroups cgroupId taskId).map
      fun (cgroups, _) => { system with cgroups := cgroups }
  | .cgroupDelete id =>
    some { system with cgroups := (rtemsCgroupDelete system.cgroups id).1 }

def step (names : ObjectNames Thread) (state : Option (UnifiedSystem Thread))
    (call : UnifiedCall Thread) : Option (UnifiedSystem Thread) :=
  state.bind fun system => call.perform names system

/-- A unified container argument: `NULL`, or live together with its PID
container. -/
def Live (system : UnifiedSystem Thread) (container : Option Nat) : Prop :=
  ∀ address, container = some address → ∃ handle, system.handles address = some handle ∧
    PidCall.Points system.pids handle.pidContainer

/-- What the C language asks of a call: pointers are `NULL` or live, and
allocators return memory that is not in use. -/
def WellFormed (system : UnifiedSystem Thread) : UnifiedCall Thread → Prop
  | .create _ outcomes =>
    (∀ address, outcomes.calloc = some address → system.handles address = none) ∧
      (∀ address, outcomes.pidContainer = some address → system.pids.containers address = none) ∧
      ∀ block, outcomes.cgroup = some block → block ≠ 0 ∧ block ∉ system.cgroups.opened
  | .enter container .. | .leave container .. | .delete container .. => Live system container
  | .pid call => call.WellFormed system.pids
  | .cgroupCreate _ _ _ allocated =>
    ∀ block, allocated = some block → block ≠ 0 ∧ block ∉ system.cgroups.opened
  | _ => True

def Promised (state : Option (UnifiedSystem Thread)) (call : UnifiedCall Thread) : Prop :=
  ∀ system, state = some system → call.WellFormed system

end UnifiedCall

def twoTaskNames : ObjectNames (Fin 2) where
  threadId := twoTaskIds
  threadGet := fun id =>
    if id = twoTaskIds 0 then some 0 else if id = twoTaskIds 1 then some 1 else none
  threadGet_eq_some := by
    intro id thread
    by_cases first : id = twoTaskIds 0
    · subst id
      revert thread
      decide
    · by_cases second : id = twoTaskIds 1
      · subst id
        revert thread
        decide
      · simp only [first, second, ↓reduceIte, reduceCtorEq, false_iff]
        intro named
        match thread with
        | 0 => exact first named.symm
        | 1 => exact second named.symm

/-- The system at its start, with cleared control blocks. -/
def bootedSystem : UnifiedSystem (Fin 2) :=
  UnifiedSystem.initial 0 (fun _ => ⟨0, 0, [], 0, 0, 0, false, false, 0, false⟩)
    fun _ => ⟨0, 0, 0, 0, 0⟩

end RTContainer.Score
