import RTContainer.Lib.CircularBuffer
import RTContainer.Lib.Run
import RTContainer.Score.ContainerLog

/-! The buffer of the log over every sequence of entries and clears. The history
is what the buffer is for: the entries logged since the last clear, without a
bound. -/

set_option autoImplicit false

namespace RTContainer.Score

open RTContainer.Rtems CircularBuffer

inductive LogOperation where
  | insert (call : LogCall) (level : ContainerLogLevel) (functionName : Option (List UInt8))
      (message : List UInt8)
  | clear (call : LogCall)
  | setLevel (level : ContainerLogLevel)

def logStep (state : ContainerLogState) : LogOperation → ContainerLogState
  | .insert call level functionName message =>
    containerLogInsert call state level functionName message
  | .clear call => containerLogClearBuffer call state
  | .setLevel level => containerLogSetLevel state level

structure LogHistory where
  config : ContainerLogConfig
  entries : List ContainerLogEntry

/-- An entry is logged to memory when its level is enabled and the buffer is not
in use by another task. -/
def LogHistory.step (history : LogHistory) : LogOperation → LogHistory
  | .insert call level functionName message =>
    if call.mutexFree ∧ level.value ≤ history.config.minLevel.value then
      { history with
        entries := history.entries ++ [logEntry call history.config level functionName message] }
    else history
  | .clear call => if call.mutexFree then { history with entries := [] } else history
  | .setLevel level => { history with config := { history.config with minLevel := level } }

/-- The history begins with the entry that the initialization logs. -/
def LogHistory.start (call : LogCall) (config : ContainerLogConfig) : LogHistory :=
  LogHistory.step ⟨config, []⟩
    (.insert call .info (some (CString.bytes "container_log_initialize"))
      (CString.bytes "Container log subsystem initialized"))

def ReadsRecent (capacity : UInt32) (history : List ContainerLogEntry) (maxEntries : UInt32)
    (result : UInt32 × List ContainerLogEntry) : Prop :=
  let stored := min history.length capacity.toNat
  result.1.toNat = min maxEntries.toNat stored ∧
    result.2 = history.rtake (min maxEntries.toNat stored)

structure Represents (state : ContainerLogState) (capacity : UInt32) (history : LogHistory) :
    Prop where
  initialized : state.initialized = true
  config : state.config = history.config
  memory : history.config.targets &&& containerLogTargetMemory ≠ 0
  mutexId : state.buffer.mutexId ≠ 0
  maxEntries : state.buffer.maxEntries = capacity
  positive : 0 < capacity.toNat
  window : ∃ array, state.buffer.entries = some array ∧
    Window array.cells capacity.toNat history.entries
  writeIndex : state.buffer.writeIndex.toNat = history.entries.length % capacity.toNat
  currentCount : state.buffer.currentCount.toNat = min history.entries.length capacity.toNat

variable {state : ContainerLogState} {capacity : UInt32} {history : LogHistory}

theorem toNat_succ_mod {index : UInt32} (inside : index.toNat < capacity.toNat) :
    ((index + 1) % capacity).toNat = (index.toNat + 1) % capacity.toNat := by
  have bound : capacity.toNat < 2 ^ 32 := capacity.toNat_lt
  have fits : index.toNat + 1 < 2 ^ 32 := by omega
  rw [UInt32.toNat_mod, UInt32.toNat_add, UInt32.toNat_one, Nat.mod_eq_of_lt fits]

section

variable (represents : Represents state capacity history)
include represents

theorem Represents.toMemory {call : LogCall} (free : call.mutexFree = true)
    (entry : ContainerLogEntry) :
    Represents (containerLogToMemory call state entry) capacity
      { history with entries := history.entries ++ [entry] } := by
  obtain ⟨array, hasArray, window⟩ := represents.window
  have bound : capacity.toNat < 2 ^ 32 := capacity.toNat_lt
  have inside : state.buffer.writeIndex.toNat < capacity.toNat := by
    rw [represents.writeIndex]
    exact Nat.mod_lt _ represents.positive
  have stored : containerLogToMemory call state entry =
      { state with
        buffer :=
          { state.buffer with
            entries := some { array with
              cells := Function.update array.cells state.buffer.writeIndex.toNat entry }
            writeIndex := (state.buffer.writeIndex + 1) % capacity
            currentCount :=
              if state.buffer.currentCount < capacity then state.buffer.currentCount + 1
              else state.buffer.currentCount } } := by
    simp only [containerLogToMemory, hasArray, represents.mutexId, free, represents.maxEntries,
      Bool.not_true, Bool.false_eq_true, if_false]
  rw [stored]
  refine ⟨represents.initialized, represents.config, represents.memory, represents.mutexId,
    represents.maxEntries, represents.positive, ⟨_, rfl, ?_⟩, ?_, ?_⟩
  · dsimp only
    rw [represents.writeIndex]
    exact window.store entry
  · dsimp only
    rw [toNat_succ_mod inside, represents.writeIndex, Nat.mod_add_mod, List.length_append,
      List.length_singleton]
  · dsimp only
    have count := represents.currentCount
    rw [List.length_append, List.length_singleton]
    split
    next below =>
      rw [UInt32.lt_iff_toNat_lt] at below
      rw [UInt32.toNat_add, UInt32.toNat_one, Nat.mod_eq_of_lt (by omega)]
      omega
    next full =>
      rw [UInt32.lt_iff_toNat_lt] at full
      omega

theorem Represents.insert (call : LogCall) (level : ContainerLogLevel)
    (functionName : Option (List UInt8)) (message : List UInt8) :
    Represents (containerLogInsert call state level functionName message) capacity
      (history.step (.insert call level functionName message)) := by
  have inserted : containerLogInsert call state level functionName message =
      if history.config.minLevel.value < level.value then state
      else containerLogToMemory call state
        (logEntry call history.config level functionName message) := by
    simp [containerLogInsert, represents.initialized, represents.config, represents.memory]
  rw [inserted, LogHistory.step]
  split
  next disabled =>
    rw [if_neg (by omega)]
    exact represents
  next enabled =>
    cases free : call.mutexFree with
    | true =>
      rw [if_pos ⟨rfl, by omega⟩]
      exact represents.toMemory free _
    | false =>
      obtain ⟨array, hasArray, _⟩ := represents.window
      have dropped : containerLogToMemory call state
          (logEntry call history.config level functionName message) = state := by
        simp [containerLogToMemory, hasArray, free]
      rw [dropped, if_neg (by simp)]
      exact represents

theorem Represents.clear (call : LogCall) :
    Represents (containerLogClearBuffer call state) capacity (history.step (.clear call)) := by
  obtain ⟨array, hasArray, window⟩ := represents.window
  rw [LogHistory.step]
  cases free : call.mutexFree with
  | false =>
    have unchanged : containerLogClearBuffer call state = state := by
      simp [containerLogClearBuffer, hasArray, free]
    rw [unchanged]
    exact represents
  | true =>
    simp only [containerLogClearBuffer, hasArray, represents.initialized, represents.mutexId,
      free, Bool.not_true, Bool.or_self, decide_false, Bool.false_eq_true, if_false, if_true]
    refine ⟨rfl, represents.config, represents.memory, represents.mutexId,
      represents.maxEntries, represents.positive, ⟨_, rfl, Window.nil _ _⟩, ?_, ?_⟩
    · simp
    · simp

theorem Represents.setLevel (level : ContainerLogLevel) :
    Represents (containerLogSetLevel state level) capacity (history.step (.setLevel level)) := by
  rw [containerLogSetLevel, if_pos represents.initialized, LogHistory.step]
  exact { represents with config := by rw [represents.config] }

theorem Represents.step (operation : LogOperation) :
    Represents (logStep state operation) capacity (history.step operation) := by
  cases operation with
  | insert call level functionName message =>
    exact represents.insert call level functionName message
  | clear call => exact represents.clear call
  | setLevel level => exact represents.setLevel level

theorem Represents.run (operations : List LogOperation) :
    Represents (Machine.run logStep state operations) capacity
      (Machine.run LogHistory.step history operations) := by
  induction operations generalizing state history with
  | nil => exact represents
  | cons operation rest ih => exact ih (represents.step operation)

end

/-! The reader. -/

variable {reader : LogCall} {maxEntries : UInt32}

def readStart (capacity writeIndex count : UInt32) : UInt32 :=
  (writeIndex + capacity - count) % capacity

theorem Represents.getEntries (represents : Represents state capacity history)
    {array : EntryArray} (hasArray : state.buffer.entries = some array)
    (free : reader.mutexFree = true) (asked : maxEntries ≠ 0) :
    containerLogGetEntries reader state true maxEntries =
      let count := if maxEntries < state.buffer.currentCount then maxEntries
        else state.buffer.currentCount
      (count, (List.range count.toNat).map fun index =>
        array.cells ((readStart capacity state.buffer.writeIndex count + UInt32.ofNat index) %
          capacity).toNat) := by
  simp [containerLogGetEntries, hasArray, represents.initialized, represents.mutexId, asked, free,
    represents.maxEntries, readStart]

/-- Below `2 ^ 31` entries neither sum of the reader leaves the 32 bits. -/
theorem toNat_readStart {writeIndex count : UInt32} (small : capacity.toNat ≤ 2 ^ 31)
    (inside : writeIndex.toNat < capacity.toNat) (fits : count.toNat ≤ capacity.toNat) :
    (readStart capacity writeIndex count).toNat =
      (writeIndex.toNat + capacity.toNat - count.toNat) % capacity.toNat := by
  have sum : (writeIndex + capacity).toNat = writeIndex.toNat + capacity.toNat := by
    rw [UInt32.toNat_add, Nat.mod_eq_of_lt (by omega)]
  have below : count ≤ writeIndex + capacity := by
    rw [UInt32.le_iff_toNat_le, sum]
    omega
  rw [readStart, UInt32.toNat_mod, UInt32.toNat_sub_of_le _ _ below, sum]

theorem toNat_readIndex {start : UInt32} {index : Nat} (small : capacity.toNat ≤ 2 ^ 31)
    (inside : start.toNat < capacity.toNat) (bound : index < capacity.toNat) :
    ((start + UInt32.ofNat index) % capacity).toNat = (start.toNat + index) % capacity.toNat := by
  have offset : (UInt32.ofNat index).toNat = index := UInt32.toNat_ofNat_of_lt' (by
    have := capacity.toNat_lt
    exact lt_trans bound this)
  have fits : start.toNat + index < 2 ^ 32 := by omega
  rw [UInt32.toNat_mod, UInt32.toNat_add, offset, Nat.mod_eq_of_lt fits]

theorem Represents.readsRecent (represents : Represents state capacity history)
    (small : capacity.toNat ≤ 2 ^ 31) (free : reader.mutexFree = true) :
    ReadsRecent capacity history.entries maxEntries
      (containerLogGetEntries reader state true maxEntries) := by
  obtain ⟨array, hasArray, window⟩ := represents.window
  by_cases asked : maxEntries = 0
  · subst asked
    simp [ReadsRecent, containerLogGetEntries, hasArray]
  · rw [represents.getEntries hasArray free asked]
    dsimp only
    have stored := represents.currentCount
    generalize isCount : (if maxEntries < state.buffer.currentCount then maxEntries
      else state.buffer.currentCount) = count
    have counted : count.toNat =
        min maxEntries.toNat (min history.entries.length capacity.toNat) := by
      rw [← isCount, ← stored]
      split
      next less =>
        rw [UInt32.lt_iff_toNat_lt] at less
        omega
      next more =>
        rw [UInt32.lt_iff_toNat_lt] at more
        omega
    refine ⟨counted, ?_⟩
    dsimp only
    rw [← counted]
    have inside : state.buffer.writeIndex.toNat < capacity.toNat := by
      rw [represents.writeIndex]
      exact Nat.mod_lt _ represents.positive
    have fits : count.toNat ≤ capacity.toNat := by omega
    have start := toNat_readStart small inside fits
    rw [represents.writeIndex, start_mod (by omega) fits] at start
    rw [← window.cellsFrom (by omega) fits, ← cellsFrom_mod, CircularBuffer.cellsFrom]
    refine List.map_congr_left ?_
    intro index member
    rw [List.mem_range] at member
    have startInside :
        (readStart capacity state.buffer.writeIndex count).toNat < capacity.toNat := by
      rw [start]
      exact Nat.mod_lt _ represents.positive
    rw [toNat_readIndex small startInside (by omega), start]

theorem Represents.reads_oldest (represents : Represents state capacity history)
    (free : reader.mutexFree = true) (large : 2 ^ 31 < capacity.toNat)
    (wraps : history.entries.length + capacity.toNat = 2 ^ 32 + 1) :
    (containerLogGetEntries reader state true 1).2 = history.entries.take 1 := by
  obtain ⟨array, hasArray, window⟩ := represents.window
  have bound : capacity.toNat < 2 ^ 32 := capacity.toNat_lt
  have several : 1 < history.entries.length := by omega
  have one : (if (1 : UInt32) < state.buffer.currentCount then 1
      else state.buffer.currentCount) = 1 := by
    have stored := represents.currentCount
    rw [if_pos]
    rw [UInt32.lt_iff_toNat_lt, stored, UInt32.toNat_one]
    omega
  have start : readStart capacity state.buffer.writeIndex 1 = 0 := by
    have index := represents.writeIndex
    rw [Nat.mod_eq_of_lt (by omega)] at index
    have sum : state.buffer.writeIndex + capacity = 1 := by
      rw [← UInt32.toNat_inj, UInt32.toNat_add, UInt32.toNat_one, index]
      omega
    rw [readStart, sum, UInt32.sub_self, UInt32.zero_mod]
  rw [represents.getEntries hasArray free (by decide)]
  dsimp only
  rw [one, start]
  have oldest := window 0 (by omega) (by omega)
  rw [Nat.zero_mod] at oldest
  rw [List.take_one, List.head?_eq_getElem?, List.getElem?_eq_getElem (by omega)]
  simp [List.range_succ, oldest]

def twoTexts (call : LogCall) (repeated : Nat) : List LogOperation :=
  .clear call :: .insert call .error none [65] ::
    List.replicate repeated (.insert call .error none [66])

theorem run_twoTexts {call : LogCall} (free : call.mutexFree = true) (history : LogHistory)
    (repeated : Nat) :
    Machine.run LogHistory.step history (twoTexts call repeated) =
      { history with
        entries := logEntry call history.config .error none [65] ::
          List.replicate repeated (logEntry call history.config .error none [66]) } := by
  have inserts (entries : List ContainerLogEntry) :
      Machine.run LogHistory.step { history with entries }
          (List.replicate repeated (.insert call .error none [66])) =
        { history with
          entries := entries ++
            List.replicate repeated (logEntry call history.config .error none [66]) } := by
    induction repeated generalizing entries with
    | zero => simp
    | succ repeated ih =>
      rw [List.replicate_succ, Machine.run_cons]
      simp only [LogHistory.step, free, ContainerLogLevel.value, Nat.zero_le, and_self, if_true]
      rw [ih, List.append_assoc, List.replicate_succ, List.singleton_append]
  simp only [twoTexts, Machine.run_cons, LogHistory.step, free, ContainerLogLevel.value,
    Nat.zero_le, and_self, if_true, List.nil_append]
  exact inserts [logEntry call history.config .error none [65]]

theorem rtake_one_repeated {Item : Type} (first last : Item) (repeated : Nat) :
    (first :: List.replicate (repeated + 1) last).rtake 1 = [last] := by
  rw [List.replicate_succ', ← List.cons_append, List.rtake_concat_succ, List.rtake_zero,
    List.nil_append]

/-! The initialization. -/

variable {sizeMax : Nat} {call : LogCall} {steps : LogSubsteps} {system buffered opened : LogSystem}
variable {config : ContainerLogConfig}

theorem calloc_eq_some {nelem elsize address : Nat} {malloc : Option Nat}
    (allocated : calloc sizeMax nelem elsize malloc = some address) :
    nelem ≠ 0 ∧ elsize ≤ sizeMax / nelem ∧ malloc = some address := by
  unfold calloc at allocated
  split at allocated
  next => cases allocated
  next positive =>
    split at allocated
    next => cases allocated
    next fits => exact ⟨positive, Nat.le_of_not_lt fits, allocated⟩

theorem initializeMemory_ok (memory : system.state.config.targets &&& containerLogTargetMemory ≠ 0)
    (ok : initializeMemory sizeMax steps system = .ok buffered) :
    ∃ address id, id ≠ 0 ∧ system.state.config.maxMemoryEntries.toNat ≠ 0 ∧
      containerLogEntrySize ≤ sizeMax / system.state.config.maxMemoryEntries.toNat ∧
      buffered.state = { system.state with
        buffer := { system.state.buffer with
          entries := some ⟨address, fun _ => .zero⟩
          maxEntries := system.state.config.maxMemoryEntries
          mutexId := id } } := by
  rw [initializeMemory, if_pos memory] at ok
  split at ok
  next => cases ok
  next address allocated =>
    obtain ⟨positive, fits, _⟩ := calloc_eq_some allocated
    split at ok
    next => cases ok
    next id valid _ =>
      cases ok
      exact ⟨address, id, valid, positive, fits, rfl⟩

theorem initializeFile_ok (ok : initializeFile call steps buffered = .ok opened) :
    opened.state.config = buffered.state.config ∧ opened.state.buffer = buffered.state.buffer := by
  unfold initializeFile at ok
  split at ok
  next =>
    split at ok
    next => cases ok
    next =>
      dsimp only at ok
      split at ok
      next => cases ok
      next =>
        cases ok
        exact ⟨rfl, rfl⟩
  next =>
    cases ok
    exact ⟨rfl, rfl⟩

variable {status : StatusCode} {failed : LogSystem}

theorem initializeMemory_error
    (error : initializeMemory sizeMax steps system = .error (status, failed)) :
    status ≠ .successful := by
  unfold initializeMemory at error
  split at error
  next =>
    split at error
    next =>
      cases error
      decide
    next =>
      split at error
      next refused _ =>
        cases error
        exact refused
      next => cases error
  next => cases error

theorem initializeFile_error
    (error : initializeFile call steps buffered = .error (status, failed)) :
    status ≠ .successful := by
  unfold initializeFile at error
  split at error
  next =>
    split at error
    next =>
      cases error
      decide
    next =>
      dsimp only at error
      split at error
      next refused _ =>
        cases error
        exact refused
      next => cases error
  next => cases error

theorem containerLogInitialize_successful
    (accepted : (containerLogInitialize sizeMax call steps system (some config)).1 = .successful) :
    ∃ buffered opened,
      initializeMemory sizeMax steps
        { system with state := { ContainerLogState.zero with config } } = .ok buffered ∧
      initializeFile call steps buffered = .ok opened ∧
      (containerLogInitialize sizeMax call steps system (some config)).2.state =
        containerLogInsert call { opened.state with initialized := true } .info
          (some (CString.bytes "container_log_initialize"))
          (CString.bytes "Container log subsystem initialized") := by
  unfold containerLogInitialize at accepted ⊢
  split at accepted
  next => cases accepted
  next free =>
    rw [if_neg free]
    dsimp only at accepted ⊢
    cases inMemory : initializeMemory sizeMax steps
        { system with state := { ContainerLogState.zero with config } } with
    | error failed =>
      rw [inMemory] at accepted
      exact absurd accepted (initializeMemory_error inMemory)
    | ok buffered =>
      rw [inMemory] at accepted
      dsimp only at accepted ⊢
      cases inFile : initializeFile call steps buffered with
      | error failed =>
        rw [inFile] at accepted
        exact absurd accepted (initializeFile_error inFile)
      | ok opened => exact ⟨buffered, opened, rfl, inFile, rfl⟩

theorem containerLogInitialize_represents
    (memory : config.targets &&& containerLogTargetMemory ≠ 0)
    (accepted : (containerLogInitialize sizeMax call steps system (some config)).1 = .successful) :
    Represents (containerLogInitialize sizeMax call steps system (some config)).2.state
      config.maxMemoryEntries (LogHistory.start call config) := by
  obtain ⟨buffered, opened, inMemory, inFile, result⟩ := containerLogInitialize_successful accepted
  obtain ⟨address, id, valid, positive, _, isBuffered⟩ := initializeMemory_ok memory inMemory
  obtain ⟨sameConfig, sameBuffer⟩ := initializeFile_ok inFile
  rw [isBuffered] at sameConfig sameBuffer
  rw [result]
  refine Represents.insert ?_ call .info _ _
  exact
    { initialized := rfl
      config := sameConfig
      memory := memory
      mutexId := by
        rw [sameBuffer]
        exact valid
      maxEntries := by rw [sameBuffer]
      positive := Nat.pos_of_ne_zero positive
      window := ⟨_, by rw [sameBuffer], Window.nil _ _⟩
      writeIndex := by
        rw [sameBuffer]
        rfl
      currentCount := by
        rw [sameBuffer]
        simp [ContainerLogState.zero, ContainerLogBuffer.zero] }

/-- In every run after an accepted initialization, every reader gets the most
recent entries since the last clear exactly when the capacity is at most
`2 ^ 31`. -/
theorem readsRecent_iff (memory : config.targets &&& containerLogTargetMemory ≠ 0)
    (accepted : (containerLogInitialize sizeMax call steps system (some config)).1 = .successful) :
    (∀ operations reader maxEntries, reader.mutexFree = true →
      ReadsRecent config.maxMemoryEntries
        (Machine.run LogHistory.step (LogHistory.start call config) operations).entries maxEntries
        (containerLogGetEntries reader
          (Machine.run logStep
            (containerLogInitialize sizeMax call steps system (some config)).2.state operations)
          true maxEntries)) ↔
      config.maxMemoryEntries.toNat ≤ 2 ^ 31 := by
  have start := containerLogInitialize_represents memory accepted
  constructor
  · intro recent
    rcases Nat.lt_or_ge (2 ^ 31) config.maxMemoryEntries.toNat with large | small
    · exfalso
      have bound : config.maxMemoryEntries.toNat < 2 ^ 32 := config.maxMemoryEntries.toNat_lt
      have free : ({ call with mutexFree := true } : LogCall).mutexFree = true := rfl
      generalize { call with mutexFree := true } = reader at free
      have read := (recent (twoTexts reader (2 ^ 32 - config.maxMemoryEntries.toNat)) reader 1
        free).2
      have reached := start.run (twoTexts reader (2 ^ 32 - config.maxMemoryEntries.toNat))
      rw [run_twoTexts free] at reached read
      have oldest := reached.reads_oldest free large (by simp; omega)
      obtain ⟨repeated, isSucc⟩ : ∃ repeated, 2 ^ 32 - config.maxMemoryEntries.toNat =
          repeated + 1 := ⟨2 ^ 32 - config.maxMemoryEntries.toNat - 1, by omega⟩
      rw [oldest, isSucc, List.length_cons, List.length_replicate, UInt32.toNat_one,
        Nat.min_eq_left (by omega), rtake_one_repeated] at read
      have texts := congrArg (List.map ContainerLogEntry.message) read
      simp [logEntry] at texts
    · exact small
  · intro small operations reader maxEntries free
    exact (start.run operations).readsRecent small free

/-! A task that logs two entries and reads the newest one. -/

def onlyTask : LogCall where
  seconds := 0
  microseconds := 0
  self := 0x0a010001
  mutexFree := true

def memoryConfig (maxMemoryEntries : UInt32) : ContainerLogConfig where
  minLevel := .error
  targets := containerLogTargetMemory
  logFilePath := []
  maxFileSize := 0
  maxMemoryEntries := maxMemoryEntries
  enableTimestamp := false
  enableThreadId := true
  enableFunctionName := false

def memorySteps : LogSubsteps where
  malloc := some 0x80000000
  memoryMutex := .created 0x1a010001 (by decide)
  fopen := none
  fileMutex := .refused .tooMany (by decide)

def unusedLog : LogSystem where
  state := .zero
  resources := ⟨[], [], []⟩

/-- What the task reads with a capacity. -/
def readNewest (maxMemoryEntries : UInt32) : UInt32 × List ContainerLogEntry :=
  containerLogGetEntries onlyTask
    (Machine.run logStep
      (containerLogInitialize (2 ^ 64 - 1) onlyTask memorySteps unusedLog
        (some (memoryConfig maxMemoryEntries))).2.state (twoTexts onlyTask 1)) true 1

def loggedTexts (maxMemoryEntries : UInt32) : List ContainerLogEntry :=
  (Machine.run LogHistory.step (LogHistory.start onlyTask (memoryConfig maxMemoryEntries))
    (twoTexts onlyTask 1)).entries

theorem defaultCapacity_readsRecent : ReadsRecent 256 (loggedTexts 256) 1 (readNewest 256) := by
  have memory : (memoryConfig 256).targets &&& containerLogTargetMemory ≠ 0 := by decide
  have accepted : (containerLogInitialize (2 ^ 64 - 1) onlyTask memorySteps unusedLog
      (some (memoryConfig 256))).1 = .successful := by decide +kernel
  exact (readsRecent_iff memory accepted).mpr (by decide) (twoTexts onlyTask 1) onlyTask 1 rfl

/-- With `2 ^ 32 - 1` entries the older of the two texts is returned. -/
theorem hugeCapacity_misread :
    (containerLogInitialize (2 ^ 64 - 1) onlyTask memorySteps unusedLog
      (some (memoryConfig 0xffffffff))).1 = .successful ∧
    ¬ReadsRecent 0xffffffff (loggedTexts 0xffffffff) 1 (readNewest 0xffffffff) := by
  unfold ReadsRecent
  decide +kernel

end RTContainer.Score
