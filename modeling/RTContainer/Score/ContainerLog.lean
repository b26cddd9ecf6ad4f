import RTContainer.Lib.CString
import RTContainer.Rtems.Status

/-! The log of the containers. What is printed on the console or into the log
file only reads the entry and the configuration, so it is left out. A sub-step
of the initialization (an allocation, a semaphore, a file) is given by what it
returns. -/

set_option autoImplicit false

namespace RTContainer.Score

open RTContainer.Rtems

inductive ContainerLogLevel where
  | error
  | warn
  | info
  | debug
  | trace
  deriving DecidableEq, Repr

def ContainerLogLevel.value : ContainerLogLevel → Nat
  | .error => 0
  | .warn => 1
  | .info => 2
  | .debug => 3
  | .trace => 4

def containerLogTargetFile : UInt32 := 2

def containerLogTargetMemory : UInt32 := 4

structure ContainerLogConfig where
  minLevel : ContainerLogLevel
  targets : UInt32
  logFilePath : List UInt8
  maxFileSize : Nat
  maxMemoryEntries : UInt32
  enableTimestamp : Bool
  enableThreadId : Bool
  enableFunctionName : Bool
  deriving DecidableEq, Repr

def ContainerLogConfig.zero : ContainerLogConfig where
  minLevel := .error
  targets := 0
  logFilePath := []
  maxFileSize := 0
  maxMemoryEntries := 0
  enableTimestamp := false
  enableThreadId := false
  enableFunctionName := false

structure ContainerLogEntry where
  level : ContainerLogLevel
  timestampSec : UInt32
  timestampUsec : UInt32
  threadId : UInt32
  functionName : List UInt8
  message : List UInt8
  deriving DecidableEq, Repr

def ContainerLogEntry.zero : ContainerLogEntry where
  level := .error
  timestampSec := 0
  timestampUsec := 0
  threadId := 0
  functionName := []
  message := []

def containerLogEntrySize : Nat := 592

structure EntryArray where
  address : Nat
  cells : Nat → ContainerLogEntry

structure ContainerLogBuffer where
  entries : Option EntryArray
  maxEntries : UInt32
  currentCount : UInt32
  writeIndex : UInt32
  mutexId : UInt32

structure ContainerLogState where
  config : ContainerLogConfig
  buffer : ContainerLogBuffer
  logFile : Option Nat
  initialized : Bool
  fileMutexId : UInt32

def ContainerLogBuffer.zero : ContainerLogBuffer where
  entries := none
  maxEntries := 0
  currentCount := 0
  writeIndex := 0
  mutexId := 0

def ContainerLogState.zero : ContainerLogState where
  config := .zero
  buffer := .zero
  logFile := none
  initialized := false
  fileMutexId := 0

/-- What a call finds: the time of the clock, the calling task, and whether the
semaphore of the buffer can be obtained without waiting. -/
structure LogCall where
  seconds : UInt32
  microseconds : UInt32
  self : UInt32
  mutexFree : Bool

variable (call : LogCall) (state : ContainerLogState)

def containerLogToMemory (entry : ContainerLogEntry) : ContainerLogState :=
  match state.buffer.entries with
  | none => state
  | some array =>
    if state.buffer.mutexId = 0 then state
    else if !call.mutexFree then state
    else
      { state with
        buffer :=
          { state.buffer with
            entries := some { array with
              cells := Function.update array.cells state.buffer.writeIndex.toNat entry }
            writeIndex := (state.buffer.writeIndex + 1) % state.buffer.maxEntries
            currentCount :=
              if state.buffer.currentCount < state.buffer.maxEntries then
                state.buffer.currentCount + 1
              else state.buffer.currentCount } }

/-- The entry that `container_log_insert_va` fills in. `functionName` is `none`
for `NULL`; `message` is the formatted text before it is cut to the field. -/
def logEntry (config : ContainerLogConfig) (level : ContainerLogLevel)
    (functionName : Option (List UInt8)) (message : List UInt8) : ContainerLogEntry where
  level := level
  timestampSec := if config.enableTimestamp then call.seconds else 0
  timestampUsec := if config.enableTimestamp then call.microseconds else 0
  threadId := if config.enableThreadId then call.self else 0
  functionName := if config.enableFunctionName then (functionName.getD []).take 63 else []
  message := message.take 511

def containerLogInsert (level : ContainerLogLevel)
    (functionName : Option (List UInt8)) (message : List UInt8) : ContainerLogState :=
  if !state.initialized || state.config.minLevel.value < level.value then state
  else if state.config.targets &&& containerLogTargetMemory ≠ 0 then
    containerLogToMemory call state (logEntry call state.config level functionName message)
  else state

def containerLogSetLevel (level : ContainerLogLevel) : ContainerLogState :=
  if state.initialized then { state with config := { state.config with minLevel := level } }
  else state

/-- `container_log_get_entries`: the number it returns and the entries it copies.
`entries` is false for `NULL`. -/
def containerLogGetEntries (entries : Bool)
    (maxEntries : UInt32) : UInt32 × List ContainerLogEntry :=
  match state.buffer.entries with
  | none => (0, [])
  | some array =>
    if !state.initialized || !entries || maxEntries = 0 || state.buffer.mutexId = 0 then (0, [])
    else if !call.mutexFree then (0, [])
    else
      let count :=
        if maxEntries < state.buffer.currentCount then maxEntries
        else state.buffer.currentCount
      let start :=
        (state.buffer.writeIndex + state.buffer.maxEntries - count) % state.buffer.maxEntries
      (count, (List.range count.toNat).map fun index =>
        array.cells ((start + UInt32.ofNat index) % state.buffer.maxEntries).toNat)

def containerLogClearBuffer : ContainerLogState :=
  match state.buffer.entries with
  | none => state
  | some array =>
    if !state.initialized || state.buffer.mutexId = 0 then state
    else if !call.mutexFree then state
    else
      { state with
        buffer :=
          { state.buffer with
            entries := some { array with
              cells := fun index =>
                if index < state.buffer.maxEntries.toNat then .zero else array.cells index }
            currentCount := 0
            writeIndex := 0 } }

structure LogResources where
  blocks : List Nat
  semaphores : List UInt32
  files : List Nat
  deriving DecidableEq, Repr

structure LogSystem where
  state : ContainerLogState
  resources : LogResources

/-- The result of `rtems_semaphore_create`. -/
inductive SemaphoreCreation where
  | created (id : UInt32) (valid : id ≠ 0)
  | refused (status : StatusCode) (failed : status ≠ .successful)

structure LogSubsteps where
  malloc : Option Nat
  memoryMutex : SemaphoreCreation
  fopen : Option Nat
  fileMutex : SemaphoreCreation

/-- `calloc`, with the largest value of `size_t`. -/
def calloc (sizeMax nelem elsize : Nat) (malloc : Option Nat) : Option Nat :=
  if nelem = 0 then none
  else if sizeMax / nelem < elsize then none
  else malloc

def containerLogDestroy (system : LogSystem) : LogSystem :=
  if !system.state.initialized then system
  else
    let state := containerLogInsert call system.state .info (some (CString.bytes "container_log_destroy"))
      (CString.bytes "Container log subsystem destroying")
    { state := .zero
      resources :=
        { blocks := system.resources.blocks.filter fun block =>
            some block ≠ state.buffer.entries.map EntryArray.address
          semaphores := system.resources.semaphores.filter fun id =>
            id ≠ state.fileMutexId ∧ id ≠ state.buffer.mutexId
          files := system.resources.files.filter fun file => some file ≠ state.logFile } }

/-- The part of `container_log_initialize` for the memory target. An error is a
return of the function. -/
def initializeMemory (sizeMax : Nat) (steps : LogSubsteps) (system : LogSystem) :
    Except (StatusCode × LogSystem) LogSystem :=
  if system.state.config.targets &&& containerLogTargetMemory ≠ 0 then
    match calloc sizeMax system.state.config.maxMemoryEntries.toNat containerLogEntrySize
        steps.malloc with
    | none => .error (.noMemory, system)
    | some address =>
      match steps.memoryMutex with
      | .refused status _ => .error (status, { system with state := .zero })
      | .created id _ =>
        .ok
          { state :=
              { system.state with
                buffer :=
                  { system.state.buffer with
                    entries := some ⟨address, fun _ => .zero⟩
                    maxEntries := system.state.config.maxMemoryEntries
                    mutexId := id } }
            resources :=
              { system.resources with
                blocks := address :: system.resources.blocks
                semaphores := id :: system.resources.semaphores } }
  else .ok system

def initializeFile (steps : LogSubsteps) (system : LogSystem) :
    Except (StatusCode × LogSystem) LogSystem :=
  if system.state.config.targets &&& containerLogTargetFile ≠ 0 then
    match steps.fopen with
    | none => .error (.ioError, containerLogDestroy call system)
    | some file =>
      let opened : LogSystem :=
        { state := { system.state with logFile := some file }
          resources := { system.resources with files := file :: system.resources.files } }
      match steps.fileMutex with
      | .refused status _ => .error (status, containerLogDestroy call opened)
      | .created id _ =>
        .ok
          { state := { opened.state with fileMutexId := id }
            resources :=
              { opened.resources with semaphores := id :: opened.resources.semaphores } }
  else .ok system

/-- `container_log_initialize`. `config` is `none` for `NULL`. -/
def containerLogInitialize (sizeMax : Nat) (call : LogCall) (steps : LogSubsteps)
    (system : LogSystem) (config : Option ContainerLogConfig) : StatusCode × LogSystem :=
  if system.state.initialized then (.resourceInUse, system)
  else
    match config with
    | none => (.invalidAddress, system)
    | some config =>
      let started : LogSystem := { system with state := { ContainerLogState.zero with config } }
      match initializeMemory sizeMax steps started with
      | .error failed => failed
      | .ok buffered =>
        match initializeFile call steps buffered with
        | .error failed => failed
        | .ok opened =>
          let ready := { opened.state with initialized := true }
          (.successful,
            { opened with
              state :=
                containerLogInsert call ready .info
                  (some (CString.bytes "container_log_initialize"))
                  (CString.bytes "Container log subsystem initialized") })

end RTContainer.Score
