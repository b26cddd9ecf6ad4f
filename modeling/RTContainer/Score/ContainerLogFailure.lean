import RTContainer.Lib.Run
import RTContainer.Score.ContainerLog

/-! An initialization of the log that fails. Only the failure of the memory
mutex is undone: the paths for the log file leave it to the destruction, which
does nothing before the log is initialized. -/

set_option autoImplicit false

namespace RTContainer.Score

open RTContainer.Rtems

/-- Nothing is left of a failed initialization: the state is all-zero and so holds
nothing, nothing else was acquired, and a later initialization does what it would
have done before. -/
structure ReleasesEverything (before after : LogSystem) : Prop where
  zero : after.state = .zero
  resources : after.resources = before.resources
  later : ∀ sizeMax call steps config,
    containerLogInitialize sizeMax call steps after (some config) =
      containerLogInitialize sizeMax call steps before (some config)

def MemoryMutexFails (sizeMax : Nat) (steps : LogSubsteps) (config : ContainerLogConfig) : Prop :=
  config.targets &&& containerLogTargetMemory ≠ 0 ∧
    calloc sizeMax config.maxMemoryEntries.toNat containerLogEntrySize steps.malloc ≠ none ∧
      ∃ status failed, steps.memoryMutex = .refused status failed

variable {sizeMax : Nat} {call : LogCall} {steps : LogSubsteps} {system buffered after : LogSystem}
variable {config : ContainerLogConfig} {status : StatusCode}

private theorem containerLogDestroy_unused (unused : system.state.initialized = false) :
    containerLogDestroy call system = system := by
  simp [containerLogDestroy, unused]

theorem target_ne_zero {target : UInt32} (selected : config.targets &&& target ≠ 0) :
    config ≠ .zero := by
  intro isZero
  rw [isZero] at selected
  exact selected (UInt32.zero_and)

theorem initializeMemory_ok_kept (ok : initializeMemory sizeMax steps system = .ok buffered) :
    buffered.state.config = system.state.config ∧
      buffered.state.initialized = system.state.initialized := by
  unfold initializeMemory at ok
  split at ok
  next =>
    split at ok
    next => cases ok
    next =>
      split at ok
      next => cases ok
      next =>
        cases ok
        exact ⟨rfl, rfl⟩
  next =>
    cases ok
    exact ⟨rfl, rfl⟩

theorem initializeMemory_error_cases
    (error : initializeMemory sizeMax steps system = .error (status, after)) :
    system.state.config.targets &&& containerLogTargetMemory ≠ 0 ∧
      (calloc sizeMax system.state.config.maxMemoryEntries.toNat containerLogEntrySize
          steps.malloc = none ∧ after = system ∨
        MemoryMutexFails sizeMax steps system.state.config ∧
          after = { system with state := .zero }) := by
  unfold initializeMemory at error
  split at error
  next memory =>
    refine ⟨memory, ?_⟩
    split at error
    next exhausted =>
      cases error
      exact .inl ⟨exhausted, rfl⟩
    next address allocated =>
      split at error
      next refused isRefused =>
        cases error
        refine .inr ⟨⟨memory, ?_, _, refused, isRefused⟩, rfl⟩
        rw [allocated]
        exact Option.some_ne_none address
      next => cases error
  next => cases error

theorem initializeFile_error_kept (unused : buffered.state.initialized = false)
    (error : initializeFile call steps buffered = .error (status, after)) :
    buffered.state.config.targets &&& containerLogTargetFile ≠ 0 ∧
      after.state.config = buffered.state.config := by
  unfold initializeFile at error
  split at error
  next file =>
    refine ⟨file, ?_⟩
    split at error
    next =>
      rw [containerLogDestroy_unused unused] at error
      cases error
      rfl
    next =>
      dsimp only at error
      split at error
      next =>
        rw [containerLogDestroy_unused (by exact unused)] at error
        cases error
        rfl
      next => cases error
  next => cases error

theorem initializeMemory_refused (fails : MemoryMutexFails sizeMax steps system.state.config) :
    ∃ status, initializeMemory sizeMax steps system =
      .error (status, { system with state := .zero }) := by
  obtain ⟨memory, allocated, status, failed, isRefused⟩ := fails
  obtain ⟨address, isSome⟩ := Option.ne_none_iff_exists'.mp allocated
  refine ⟨status, ?_⟩
  rw [initializeMemory, if_pos memory, isSome]
  dsimp only
  rw [isRefused]

theorem containerLogInitialize_failed (unused : system.state.initialized = false)
    (failed : (containerLogInitialize sizeMax call steps system (some config)).1 ≠ .successful) :
    MemoryMutexFails sizeMax steps config ∨
      config ≠ .zero ∧
        (containerLogInitialize sizeMax call steps system (some config)).2.state.config =
          config := by
  unfold containerLogInitialize at failed ⊢
  rw [unused] at failed ⊢
  simp only [Bool.false_eq_true, if_false] at failed ⊢
  cases inMemory : initializeMemory sizeMax steps
      { system with state := { ContainerLogState.zero with config } } with
  | error result =>
    obtain ⟨status, after⟩ := result
    obtain ⟨memory, cases⟩ := initializeMemory_error_cases inMemory
    rcases cases with ⟨_, isStarted⟩ | ⟨fails, _⟩
    · refine .inr ⟨target_ne_zero memory, ?_⟩
      rw [isStarted]
    · exact .inl fails
  | ok buffered =>
    obtain ⟨sameConfig, notYet⟩ := initializeMemory_ok_kept inMemory
    rw [inMemory] at failed
    dsimp only at failed ⊢
    cases inFile : initializeFile call steps buffered with
    | error result =>
      obtain ⟨status, after⟩ := result
      obtain ⟨file, kept⟩ := initializeFile_error_kept notYet inFile
      rw [sameConfig] at file kept
      exact .inr ⟨target_ne_zero file, kept⟩
    | ok opened =>
      rw [inFile] at failed
      exact absurd rfl failed

/-- A failed initialization of the unused log releases everything exactly when
the sub-step that failed is the creation of the memory mutex. -/
theorem releasesEverything_iff (unused : system.state.initialized = false)
    (failed : (containerLogInitialize sizeMax call steps system (some config)).1 ≠ .successful) :
    ReleasesEverything system (containerLogInitialize sizeMax call steps system (some config)).2 ↔
      MemoryMutexFails sizeMax steps config := by
  constructor
  · intro releases
    rcases containerLogInitialize_failed unused failed with fails | ⟨nonzero, kept⟩
    · exact fails
    · rw [releases.zero] at kept
      exact absurd kept.symm nonzero
  · intro fails
    have result : (containerLogInitialize sizeMax call steps system (some config)).2 =
        { system with state := .zero } := by
      have refused : ∃ status, initializeMemory sizeMax steps
          { system with state := { ContainerLogState.zero with config } } =
            .error (status, { system with state := .zero }) := initializeMemory_refused fails
      obtain ⟨status, inMemory⟩ := refused
      simp [containerLogInitialize, unused, inMemory]
    rw [result]
    exact ⟨rfl, rfl, fun _ _ _ _ => by
      simp [containerLogInitialize, unused, ContainerLogState.zero]⟩

/-- Every attempt to open a log file that cannot be opened leaves one more block
and one more semaphore behind, for every number of attempts. -/
theorem run_unopenable (unused : system.state.initialized = false)
    (memory : config.targets &&& containerLogTargetMemory ≠ 0)
    (file : config.targets &&& containerLogTargetFile ≠ 0) (attempts : List LogSubsteps)
    (fails : ∀ steps ∈ attempts, steps.fopen = none ∧
      calloc sizeMax config.maxMemoryEntries.toNat containerLogEntrySize steps.malloc ≠ none ∧
        ∃ id valid, steps.memoryMutex = .created id valid) :
    let after := Machine.run
      (fun system steps => (containerLogInitialize sizeMax call steps system (some config)).2)
      system attempts
    after.resources.blocks.length = system.resources.blocks.length + attempts.length ∧
      after.resources.semaphores.length = system.resources.semaphores.length + attempts.length := by
  induction attempts generalizing system with
  | nil => exact ⟨rfl, rfl⟩
  | cons steps rest ih =>
    obtain ⟨noFile, allocated, id, valid, isCreated⟩ := fails steps List.mem_cons_self
    obtain ⟨address, isSome⟩ := Option.ne_none_iff_exists'.mp allocated
    have attempt : ∃ next : LogSystem, next.state.initialized = false ∧
        next.resources.blocks = address :: system.resources.blocks ∧
        next.resources.semaphores = id :: system.resources.semaphores ∧
        (containerLogInitialize sizeMax call steps system (some config)).2 = next := by
      simp [containerLogInitialize, unused, initializeMemory, memory, isSome, isCreated,
        initializeFile, file, noFile, containerLogDestroy, ContainerLogState.zero]
    obtain ⟨next, notYet, blocks, semaphores, result⟩ := attempt
    have further := ih notYet (fun other member => fails other (List.mem_cons_of_mem steps member))
    rw [blocks, semaphores] at further
    rw [Machine.run_cons, result]
    simp only [List.length_cons] at further ⊢
    omega

/-! Two failures of an initialization with a buffer of eight entries and a file. -/

def bothTargets : ContainerLogConfig where
  minLevel := .info
  targets := containerLogTargetMemory ||| containerLogTargetFile
  logFilePath := CString.bytes "/no-such-directory/container.log"
  maxFileSize := 0
  maxMemoryEntries := 8
  enableTimestamp := false
  enableThreadId := false
  enableFunctionName := false

def bootCall : LogCall where
  seconds := 0
  microseconds := 0
  self := 0x0a010001
  mutexFree := true

def emptyLog : LogSystem where
  state := .zero
  resources := ⟨[], [], []⟩

/-- The initialization with what the creation of the memory mutex and the opening
of the file return. -/
def attemptBoth (memoryMutex : SemaphoreCreation) (fopen : Option Nat) : StatusCode × LogSystem :=
  containerLogInitialize (2 ^ 32 - 1) bootCall
    ⟨some 0x80000000, memoryMutex, fopen, .created 0x1a010002 (by decide)⟩ emptyLog
    (some bothTargets)

theorem run_unopenable_two :
    let steps (block : Nat) (mutex : SemaphoreCreation) : LogSubsteps :=
      ⟨some block, mutex, none, .created 0x1a010009 (by decide)⟩
    let after := Machine.run
      (fun system steps =>
        (containerLogInitialize (2 ^ 32 - 1) bootCall steps system (some bothTargets)).2)
      emptyLog [steps 0x80000000 (.created 0x1a010001 (by decide)),
        steps 0x80001000 (.created 0x1a010002 (by decide))]
    after.resources.blocks.length = 2 ∧ after.resources.semaphores.length = 2 :=
  run_unopenable rfl (by decide) (by decide) _ (by simp [calloc, bothTargets, containerLogEntrySize])

theorem refusedMutex_releasesEverything :
    ReleasesEverything emptyLog (attemptBoth (.refused .tooMany (by decide)) none).2 := by
  have failed : (attemptBoth (.refused .tooMany (by decide)) none).1 ≠ .successful := by decide
  refine (releasesEverything_iff rfl failed).mpr ⟨by decide, by decide, ?_⟩
  exact ⟨.tooMany, by decide, rfl⟩

/-- The buffer and its mutex are still held after the file could not be opened. -/
theorem unopenedFile_holds :
    (attemptBoth (.created 0x1a010001 (by decide)) none).1 = .ioError ∧
      (attemptBoth (.created 0x1a010001 (by decide)) none).2.resources.blocks = [0x80000000] ∧
      (attemptBoth (.created 0x1a010001 (by decide)) none).2.state.buffer.mutexId = 0x1a010001 ∧
      ¬ReleasesEverything emptyLog (attemptBoth (.created 0x1a010001 (by decide)) none).2 := by
  refine ⟨by decide, by decide, by decide, ?_⟩
  intro releases
  have unheld := congrArg LogResources.blocks releases.resources
  exact absurd unheld (by decide)

end RTContainer.Score
