import RTContainer.Lib.BigEndian
import RTContainer.Lib.Reassembly

/-! The record client, `record-client.c`. A division by zero and an access outside of an
array have no result, `none`. -/

set_option autoImplicit false

namespace RTContainer.Libtrace

open Function

inductive ClientStatus where
  | success
  | invalidMagic
  | unknownFormat
  | unsupportedVersion
  | unsupportedCpu
  | unsupportedCpuMax
  | doubleCpuMax
  | doublePerCpuCount
  | noCpuMax
  | noMemory
  | perCpuItemsOverflow
  deriving DecidableEq

/-- The events for which `visit` has a case. -/
inductive EventKind where
  | version
  | frequency
  | perCpuCount
  | perCpuOverflow
  | processor
  | processorMaximum
  | uptimeHigh
  | uptimeLow
  | other
  deriving DecidableEq

def eventKind (event : UInt32) : EventKind :=
  if event = 1 then .version
  else if event = 4 then .frequency
  else if event = 6 then .perCpuCount
  else if event = 8 then .perCpuOverflow
  else if event = 9 then .processor
  else if event = 10 then .processorMaximum
  else if event = 322 then .uptimeHigh
  else if event = 323 then .uptimeLow
  else .other

def timeAdjustment : UInt32 := 13
def unreliableTime : UInt32 := 15
def noTimeLast : UInt32 := 16
def theVersion : UInt64 := 10
def maximumCpuCount : Nat := 32
def holdBackReallocationLimit : Nat := 0x100000
def timeMask : UInt32 := ((1 : UInt32) <<< 22) - 1

/-- `sizeof( rtems_record_item_64 )`, which is packed. -/
def itemSize : Nat := 12

def getTime (timeEvent : UInt32) : UInt32 := timeEvent >>> 10
def getEvent (timeEvent : UInt32) : UInt32 := timeEvent &&& 0x3ff
def hasTime (event : UInt32) : Bool := noTimeLast < event

structure Item where
  event : UInt32
  data : UInt64
  deriving DecidableEq

structure Uptime where
  uptimeBt : UInt64
  timeLast : UInt32
  timeAccumulated : UInt64

/-- `rtems_record_client_per_cpu`. `allocated` is the number of items for which the memory
at `items` has room, 0 for the null pointer. -/
structure PerCpu where
  uptime : Uptime
  lastBt : UInt64
  uptimeLow : UInt32
  uptimeLowValid : Bool
  holdBack : Bool
  items : Nat → Item
  allocated : Nat
  itemCapacity : Nat
  itemIndex : Nat

/-- A call of the handler. -/
structure Invocation where
  bt : UInt64
  cpu : Nat
  event : UInt32
  data : UInt64
  deriving DecidableEq

/-- The client between items. `failed` is what `consume_error` returns, once `error` has put
it in the place of the consumer. The calls of the handler and the number of calls of
`realloc` are recorded. -/
structure Records where
  toBtScaler : UInt64
  perCpu : Nat → PerCpu
  cpu : Nat
  cpuCount : Nat
  perCpuItems : UInt32
  failed : Option ClientStatus
  calls : List Invocation
  requests : Nat

/-- The status of a call of the handler may depend on the calls before it. -/
abbrev Handler := List Invocation → Invocation → ClientStatus

inductive ByteOrder where
  | little
  | big
  deriving DecidableEq

/-- The machine on which the client runs: its byte order, the bits of a `size_t`, and whether
`realloc` grants the given number of bytes at its n-th call. -/
structure Platform where
  order : ByteOrder
  sizeBits : Nat
  granted : Nat → Nat → Bool

namespace Records

variable (records : Records)

def current : PerCpu := records.perCpu records.cpu

def setCurrent (perCpu : PerCpu) : Records :=
  { records with perCpu := update records.perCpu records.cpu perCpu }

def error (status : ClientStatus) : ClientStatus × Records :=
  (status, { records with failed := some status })

section Handling

variable (handler : Handler)

def invoke (records : Records) (call : Invocation) : ClientStatus × Records :=
  (handler records.calls call, { records with calls := records.calls ++ [call] })

/-- `time_bt`. -/
def timeBt (records : Records) (time event : UInt32) : UInt64 × Records :=
  let perCpu := records.current
  let uptime :=
    if hasTime event then
      { perCpu.uptime with
        timeLast := time
        timeAccumulated := perCpu.uptime.timeAccumulated +
          ((time - perCpu.uptime.timeLast) &&& timeMask).toUInt64 }
    else perCpu.uptime
  let bt := uptime.uptimeBt + ((uptime.timeAccumulated * records.toBtScaler) >>> 31)
  if perCpu.lastBt ≤ bt then
    (bt, records.setCurrent { perCpu with uptime := uptime, lastBt := bt })
  else
    let records := records.setCurrent { perCpu with uptime := uptime }
    (perCpu.lastBt, (records.invoke handler
      ⟨perCpu.lastBt, records.cpu, timeAdjustment, perCpu.lastBt - bt⟩).2)

def callHandler (records : Records) (time event : UInt32) (data : UInt64) :
    ClientStatus × Records :=
  let stamped := records.timeBt handler time event
  stamped.2.invoke handler ⟨stamped.1, records.cpu, event, data⟩

def heldItems (perCpu : PerCpu) : Option (List Item) :=
  if perCpu.itemIndex ≤ perCpu.allocated then
    some ((List.range perCpu.itemIndex).map perCpu.items)
  else none

def elapsedBackward (last : UInt32) (items : List Item) : UInt32 × UInt64 :=
  items.foldr (fun item (last, accumulated) =>
    if hasTime (getEvent item.event) then
      (getTime item.event, accumulated + ((last - getTime item.event) &&& timeMask).toUInt64)
    else (last, accumulated)) (last, 0)

def callHeld : Records → List Item → ClientStatus × Records
  | records, [] => (.success, records)
  | records, item :: rest =>
    let called :=
      records.callHandler handler (getTime item.event) (getEvent item.event) item.data
    if called.1 = .success then callHeld called.2 rest else called

/-- `resolve_hold_back`. -/
def resolveHoldBack (records : Records) : Option (ClientStatus × Records) :=
  match heldItems records.current with
  | none => none
  | some items =>
    let perCpu := records.current
    let elapsed := elapsedBackward perCpu.uptime.timeLast items
    let uptime :=
      { uptimeBt := perCpu.uptime.uptimeBt - ((elapsed.2 * records.toBtScaler) >>> 31)
        timeLast := elapsed.1
        timeAccumulated := 0 }
    let called := (records.setCurrent { perCpu with uptime := uptime }).callHeld handler items
    if called.1 = .success then
      some (.success, called.2.setCurrent
        { called.2.current with uptime := perCpu.uptime, holdBack := false, itemIndex := 0 })
    else some called

end Handling

section Storing

variable (platform : Platform)

/-- The size of the storage in bytes is a `size_t`. -/
def storageBytes (capacity : Nat) : Nat := capacity * itemSize % 2 ^ platform.sizeBits

/-- `realloc` of the items of a processor, and whether it grants them. -/
def reallocItems (records : Records) (cpu capacity : Nat) : Bool × Records :=
  let bytes := storageBytes platform capacity
  let given := platform.granted records.requests bytes
  (given, { records with
    perCpu := update records.perCpu cpu
      { records.perCpu cpu with allocated := if given then bytes / itemSize else 0 }
    requests := records.requests + 1 })

def storeItem (records : Records) (item : Item) : Option (ClientStatus × Records) :=
  let perCpu := records.current
  if perCpu.itemIndex < perCpu.allocated then
    some (.success, records.setCurrent
      { perCpu with
        items := update perCpu.items perCpu.itemIndex item
        itemIndex := perCpu.itemIndex + 1 })
  else none

/-- `hold_back`. -/
def holdBack (records : Records) (item : Item) : Option (ClientStatus × Records) :=
  let perCpu := records.current
  if perCpu.itemCapacity ≤ perCpu.itemIndex then
    if holdBackReallocationLimit ≤ perCpu.itemIndex then some (records.error .perCpuItemsOverflow)
    else
      let capacity := 2 * perCpu.itemIndex
      let records := records.setCurrent { perCpu with itemCapacity := capacity }
      let grown := records.reallocItems platform records.cpu capacity
      if grown.1 then grown.2.storeItem item else some (grown.2.error .noMemory)
  else records.storeItem item

/-- The loop of `process_per_cpu_count`. -/
def reallocAll (capacity : Nat) : Records → List Nat → Option (ClientStatus × Records)
  | records, [] => some (.success, records)
  | records, cpu :: rest =>
    if cpu < maximumCpuCount then
      let grown := records.reallocItems platform cpu capacity
      if grown.1 then
        reallocAll capacity { grown.2 with
          perCpu := update grown.2.perCpu cpu
            { grown.2.perCpu cpu with itemCapacity := capacity } } rest
      else some (grown.2.error .noMemory)
    else none

def perCpuCapacity (data : UInt64) : Nat := (2 * data.toUInt32).toNat

def processPerCpuCount (records : Records) (data : UInt64) : Option (ClientStatus × Records) :=
  if records.perCpuItems ≠ 0 then some (records.error .doublePerCpuCount)
  else if records.cpuCount = 0 then some (records.error .noCpuMax)
  else
    reallocAll platform (perCpuCapacity data) { records with perCpuItems := data.toUInt32 }
      (List.range records.cpuCount)

end Storing

/-- `set_to_bt_scaler`. -/
def setToBtScaler (frequency : UInt32) : Option Records :=
  if frequency = 0 then none
  else some { records with
    toBtScaler := ((((1 : UInt64) <<< 32) <<< 31) + (frequency / 2).toUInt64) / frequency.toUInt64 }

variable (platform : Platform) (handler : Handler)

/-- The switch of `visit`: it returns a status, `Except.error`, or goes on with
`do_hold_back`. -/
def switchEvent (records : Records) (item : Item) :
    Option (Except (ClientStatus × Records) (Records × Bool)) :=
  let perCpu := records.current
  let time := getTime item.event
  let data := item.data
  match eventKind (getEvent item.event) with
  | .processor =>
    if records.cpuCount ≤ data.toNat then some (.error (records.error .unsupportedCpu))
    else if data.toNat < maximumCpuCount then
      some (.ok ({ records with cpu := data.toNat }, perCpu.holdBack))
    else none
  | .uptimeLow =>
    some (.ok (records.setCurrent
      { perCpu with uptimeLow := data.toUInt32, uptimeLowValid := true }, perCpu.holdBack))
  | .uptimeHigh =>
    if perCpu.uptimeLowValid then
      let records := records.setCurrent
        { perCpu with
          uptimeLowValid := false
          uptime := ⟨(data <<< 32) ||| perCpu.uptimeLow.toUInt64, time, 0⟩ }
      if perCpu.holdBack then
        (records.resolveHoldBack handler).map fun resolved =>
          if resolved.1 = .success then .ok (resolved.2, false) else .error resolved
      else some (.ok (records, false))
    else some (.ok (records, perCpu.holdBack))
  | .processorMaximum =>
    if maximumCpuCount ≤ data.toNat then some (.error (records.error .unsupportedCpuMax))
    else if records.cpuCount ≠ 0 then some (.error (records.error .doubleCpuMax))
    else some (.ok ({ records with cpuCount := data.toNat + 1 }, false))
  | .perCpuCount =>
    (records.processPerCpuCount platform data).map fun processed =>
      if processed.1 = .success then .ok (processed.2, perCpu.holdBack) else .error processed
  | .perCpuOverflow => some (.ok (records.setCurrent { perCpu with holdBack := true }, true))
  | .frequency =>
    (records.setToBtScaler data.toUInt32).map fun records => .ok (records, perCpu.holdBack)
  | .version =>
    if data ≠ theVersion then some (.error (records.error .unsupportedVersion))
    else some (.ok (records, false))
  | .other => some (.ok (records, perCpu.holdBack))

def visit (records : Records) (item : Item) : Option (ClientStatus × Records) :=
  if records.cpu < maximumCpuCount then
    (records.switchEvent platform handler item).bind fun switched =>
      match switched with
      | .error returned => some returned
      | .ok (records, doHoldBack) =>
        if doHoldBack then records.holdBack platform item
        else some (records.callHandler handler (getTime item.event) (getEvent item.event) item.data)
  else none

end Records

namespace ByteOrder

def load (order : ByteOrder) (bytes : List UInt8) : Nat :=
  match order with
  | .little => BigEndian.read bytes.reverse
  | .big => BigEndian.read bytes

def store (order : ByteOrder) (width value : Nat) : List UInt8 :=
  match order with
  | .little => (BigEndian.write width value).reverse
  | .big => BigEndian.write width value

end ByteOrder

/-- `__builtin_bswap32` and `__builtin_bswap64`. -/
def bswap (width value : Nat) : Nat := BigEndian.read (BigEndian.write width value).reverse

/-- The functions to which `consume` points. -/
inductive Consumer where
  | consumeInit
  | consume32
  | consume64
  | consumeSwap32
  | consumeSwap64
  deriving DecidableEq

/-- What the consumer expects: the header or an item. -/
def Consumer.size : Consumer → Nat
  | .consumeInit => 8
  | .consume32 | .consumeSwap32 => 8
  | .consume64 | .consumeSwap64 => 12

structure Client where
  records : Records
  consume : Consumer

def formatLe32 : Nat := 0x11111111
def formatLe64 : Nat := 0x22222222
def formatBe32 : Nat := 0x33333333
def formatBe64 : Nat := 0x44444444
def recordMagic : Nat := 0x82e14ec1

def selectConsumer (order : ByteOrder) (format : Nat) : Option (Consumer × Bool) :=
  match order with
  | .little =>
    if format = formatLe32 then some (.consume32, false)
    else if format = formatLe64 then some (.consume64, false)
    else if format = formatBe32 then some (.consumeSwap32, true)
    else if format = formatBe64 then some (.consumeSwap64, true)
    else none
  | .big =>
    if format = formatLe32 then some (.consumeSwap32, true)
    else if format = formatLe64 then some (.consumeSwap64, true)
    else if format = formatBe32 then some (.consume32, false)
    else if format = formatBe64 then some (.consume64, false)
    else none

namespace Client

variable (platform : Platform) (handler : Handler)

def error (client : Client) (status : ClientStatus) : ClientStatus × Client :=
  (status, { client with records := (client.records.error status).2 })

/-- The header which `consume_init` has got. -/
def readHeader (client : Client) (header : List UInt8) : ClientStatus × Client :=
  let magic := platform.order.load (header.drop 4)
  match selectConsumer platform.order (platform.order.load (header.take 4)) with
  | none => client.error .unknownFormat
  | some (consumer, swapped) =>
    let client := { client with consume := consumer }
    if (if swapped then bswap 4 magic else magic) ≠ recordMagic then
      client.error .invalidMagic
    else (.success, client)

def visit (client : Client) (event data : Nat) : Option (ClientStatus × Client) :=
  (client.records.visit platform handler ⟨UInt32.ofNat event, UInt64.ofNat data⟩).map
    fun visited => (visited.1, { client with records := visited.2 })

def deliver (client : Client) (unit : List UInt8) : Option (ClientStatus × Client) :=
  let event := platform.order.load (unit.take 4)
  let data := platform.order.load (unit.drop 4)
  match client.consume with
  | .consumeInit => some (client.readHeader platform unit)
  | .consume32 => client.visit platform handler event data
  | .consume64 => client.visit platform handler event data
  | .consumeSwap32 => client.visit platform handler (bswap 4 event) (bswap 4 data)
  | .consumeSwap64 => client.visit platform handler (bswap 4 event) (bswap 8 data)

end Client

variable (platform : Platform) (handler : Handler)

/-- The loop which the five consumers share: `todo` and `pos` are those of the pending unit. -/
def recordReader : Reassembly.Reader Client ClientStatus UInt8 where
  size client := client.consume.size
  positive client := by cases client.consume <;> decide
  success := .success
  stopped client := client.records.failed
  deliver client := client.deliver platform handler

/-- The client and the bytes of the header or item which it has got so far. -/
abbrev ClientContext := Reassembly.Pending (recordReader platform handler)

/-- `rtems_record_client_init`. -/
def initialPerCpu : PerCpu where
  uptime := ⟨0, 0, 0⟩
  lastBt := 0
  uptimeLow := 0
  uptimeLowValid := false
  holdBack := true
  items _ := ⟨0, 0⟩
  allocated := 0
  itemCapacity := 0
  itemIndex := 0

def initialRecords : Records where
  toBtScaler := (1 : UInt64) <<< 31
  perCpu _ := initialPerCpu
  cpu := 0
  cpuCount := 0
  perCpuItems := 0
  failed := none
  calls := []
  requests := 0

def clientInit : ClientContext platform handler :=
  Reassembly.fresh _ ⟨initialRecords, .consumeInit⟩

variable {platform handler}

/-- `rtems_record_client_run`. -/
def clientRun (context : ClientContext platform handler) (buffer : List UInt8) :
    Option (ClientStatus × ClientContext platform handler) :=
  Reassembly.run context buffer

variable (platform handler)

/-- One call of `rtems_record_client_run` for each piece of the stream. -/
def clientRuns (pieces : List (List UInt8)) :
    Option (ClientStatus × ClientContext platform handler) :=
  Reassembly.runs (clientInit platform handler) pieces

namespace Records

/-- `calculate_best_effort_uptime`. -/
def bestEffortUptime (records : Records) : Option Records :=
  let perCpu := records.current
  (heldItems perCpu).map fun items =>
    let last :=
      if perCpu.uptime.uptimeBt ≠ 0 then perCpu.uptime.timeLast
      else getTime (perCpu.items 0).event
    let elapsed := items.foldl (fun (last, accumulated) item =>
      if hasTime (getEvent item.event) then
        (getTime item.event, accumulated + ((getTime item.event - last) &&& timeMask).toUInt64)
      else (last, accumulated)) (last, (0 : UInt64))
    records.setCurrent
      { perCpu with
        uptime := ⟨perCpu.uptime.uptimeBt + ((elapsed.2 * records.toBtScaler) >>> 31),
          elapsed.1, 0⟩ }

def destroyCpu (records : Records) (cpu : Nat) : Option Records :=
  if cpu < maximumCpuCount then
    let records := { records with cpu := cpu }
    if records.current.holdBack ∧ 0 < records.current.itemIndex then
      let called := records.callHandler handler 0 unreliableTime 0
      called.2.bestEffortUptime.bind fun records =>
        (records.resolveHoldBack handler).map Prod.snd
    else some records
  else none

def destroy (records : Records) : Option Records :=
  (List.range records.cpuCount).foldlM (destroyCpu handler) records

end Records

end RTContainer.Libtrace
