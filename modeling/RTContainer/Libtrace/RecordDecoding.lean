import RTContainer.Libtrace.RecordClient

/-! Decoding of a record stream: it does not depend on how the stream is cut, nor on the
byte order in which the items are encoded. -/

set_option autoImplicit false

namespace RTContainer.Libtrace

variable {platform : Platform} {handler : Handler}

namespace Records

def Settled (result : ClientStatus × Records) : Prop :=
  result.2.failed = if result.1 = .success then none else some result.1

theorem settled_error (records : Records) {status : ClientStatus} (failed : status ≠ .success) :
    Settled (records.error status) :=
  (if_neg failed).symm

/-- Calls of the handler change nothing but the times of processors. -/
structure Kept (before after : Records) : Prop where
  cpu : after.cpu = before.cpu
  cpuCount : after.cpuCount = before.cpuCount
  perCpuItems : after.perCpuItems = before.perCpuItems
  failed : after.failed = before.failed
  requests : after.requests = before.requests
  perCpu : ∀ cpu, ∃ uptime lastBt, after.perCpu cpu =
    { before.perCpu cpu with uptime := uptime, lastBt := lastBt }

theorem Kept.trans {first second third : Records} (front : Kept first second)
    (back : Kept second third) : Kept first third where
  cpu := back.cpu.trans front.cpu
  cpuCount := back.cpuCount.trans front.cpuCount
  perCpuItems := back.perCpuItems.trans front.perCpuItems
  failed := back.failed.trans front.failed
  requests := back.requests.trans front.requests
  perCpu cpu := by
    obtain ⟨uptime, lastBt, same⟩ := front.perCpu cpu
    obtain ⟨uptime', lastBt', same'⟩ := back.perCpu cpu
    exact ⟨uptime', lastBt', by rw [same', same]⟩

theorem setCurrent_kept (records : Records) (uptime : Uptime) (lastBt : UInt64) :
    Kept records (records.setCurrent
      { records.current with uptime := uptime, lastBt := lastBt }) where
  cpu := rfl
  cpuCount := rfl
  perCpuItems := rfl
  failed := rfl
  requests := rfl
  perCpu cpu := by
    rcases eq_or_ne cpu records.cpu with rfl | other
    · exact ⟨uptime, lastBt, Function.update_self ..⟩
    · exact ⟨_, _, Function.update_of_ne other ..⟩

section Keeping

variable (handler)

section

variable (records : Records)
include records

theorem invoke_kept (call : Invocation) : Kept records (records.invoke handler call).2 where
  cpu := rfl
  cpuCount := rfl
  perCpuItems := rfl
  failed := rfl
  requests := rfl
  perCpu _ := ⟨_, _, rfl⟩

theorem timeBt_kept (time event : UInt32) : Kept records (records.timeBt handler time event).2 := by
  simp only [timeBt]
  generalize (if hasTime event then _ else _ : Uptime) = uptime
  split
  · exact setCurrent_kept records uptime _
  · exact (setCurrent_kept records uptime records.current.lastBt).trans (invoke_kept handler _ _)

theorem callHandler_kept (time event : UInt32) (data : UInt64) :
    Kept records (records.callHandler handler time event data).2 :=
  (timeBt_kept handler records time event).trans (invoke_kept handler _ _)

theorem callHeld_kept (items : List Item) : Kept records (records.callHeld handler items).2 := by
  induction items generalizing records with
  | nil => exact ⟨rfl, rfl, rfl, rfl, rfl, fun _ => ⟨_, _, rfl⟩⟩
  | cons item rest ih =>
    have first := callHandler_kept handler records (getTime item.event)
      (getEvent item.event) item.data
    rw [callHeld]
    split
    · exact first.trans (ih _)
    · exact first

end

end Keeping

/-- The handler always succeeds. -/
def Accepting (handler : Handler) : Prop := ∀ calls call, handler calls call = .success

section Accepting

variable (accepting : Accepting handler)
include accepting

theorem callHandler_success (records : Records) (time event : UInt32) (data : UInt64) :
    (records.callHandler handler time event data).1 = .success :=
  accepting _ _

theorem callHeld_success (records : Records) (items : List Item) :
    (records.callHeld handler items).1 = .success := by
  induction items generalizing records with
  | nil => rfl
  | cons item rest ih =>
    rw [callHeld, if_pos (callHandler_success accepting records _ _ _)]
    exact ih _

theorem resolveHoldBack_success {records : Records} {result : ClientStatus × Records}
    (resolved : records.resolveHoldBack handler = some result) :
    result.1 = .success ∧ result.2.failed = records.failed := by
  rw [resolveHoldBack] at resolved
  split at resolved
  next => exact nomatch resolved
  next items _ =>
    simp only [callHeld_success accepting, if_true, Option.some.injEq] at resolved
    rw [← resolved]
    exact ⟨rfl, (callHeld_kept handler _ items).failed⟩

end Accepting

variable {records : Records} {item : Item} {result : ClientStatus × Records}

section

variable (going : records.failed = none)
include going

theorem settled_storeItem (stored : records.storeItem item = some result) : Settled result := by
  rw [storeItem] at stored
  split at stored
  · rw [← Option.some.inj stored]
    exact going
  · exact nomatch stored

theorem settled_holdBack (held : records.holdBack platform item = some result) : Settled result := by
  simp only [holdBack] at held
  split at held
  · split at held
    · rw [← Option.some.inj held]
      exact settled_error _ nofun
    · split at held
      · exact settled_storeItem (by exact going) held
      · rw [← Option.some.inj held]
        exact settled_error _ nofun
  · exact settled_storeItem going held

theorem settled_reallocAll {capacity : Nat} {cpus : List Nat}
    (grown : reallocAll platform capacity records cpus = some result) : Settled result := by
  induction cpus generalizing records with
  | nil =>
    rw [← Option.some.inj grown]
    exact going
  | cons cpu rest ih =>
    rw [reallocAll] at grown
    split at grown
    · simp only at grown
      split at grown
      · exact ih (by exact going) grown
      · rw [← Option.some.inj grown]
        exact settled_error _ nofun
    · exact nomatch grown

theorem settled_processPerCpuCount {data : UInt64}
    (processed : records.processPerCpuCount platform data = some result) : Settled result := by
  rw [processPerCpuCount] at processed
  split at processed
  · rw [← Option.some.inj processed]
    exact settled_error _ nofun
  · split at processed
    · rw [← Option.some.inj processed]
      exact settled_error _ nofun
    · exact settled_reallocAll (by exact going) processed

end

/-- What the switch leaves: a status which the client keeps, or a client without one. -/
def SwitchSettled : Except (ClientStatus × Records) (Records × Bool) → Prop
  | .error result => Settled result
  | .ok (records, _) => records.failed = none

theorem settled_switchEvent (accepting : Accepting handler) (going : records.failed = none)
    {switched : Except (ClientStatus × Records) (Records × Bool)}
    (switches : records.switchEvent platform handler item = some switched) :
    SwitchSettled switched := by
  rw [switchEvent] at switches
  split at switches
  next =>
    split at switches
    · rw [← Option.some.inj switches]
      exact settled_error _ nofun
    · split at switches
      · rw [← Option.some.inj switches]
        exact going
      · exact nomatch switches
  next =>
    rw [← Option.some.inj switches]
    exact going
  next =>
    split at switches
    · simp only at switches
      split at switches
      · rw [Option.map_eq_some_iff] at switches
        obtain ⟨result, resolved, rfl⟩ := switches
        have success := resolveHoldBack_success accepting resolved
        rw [if_pos success.1]
        exact success.2.trans going
      · rw [← Option.some.inj switches]
        exact going
    · rw [← Option.some.inj switches]
      exact going
  next =>
    split at switches
    · rw [← Option.some.inj switches]
      exact settled_error _ nofun
    · split at switches
      · rw [← Option.some.inj switches]
        exact settled_error _ nofun
      · rw [← Option.some.inj switches]
        exact going
  next =>
    rw [Option.map_eq_some_iff] at switches
    obtain ⟨result, processed, rfl⟩ := switches
    have settled := settled_processPerCpuCount going processed
    split
    next success =>
      rw [Settled, if_pos success] at settled
      exact settled
    next => exact settled
  next =>
    rw [← Option.some.inj switches]
    exact going
  next =>
    rw [Option.map_eq_some_iff] at switches
    obtain ⟨scaled, scales, rfl⟩ := switches
    rw [setToBtScaler] at scales
    split at scales
    · exact nomatch scales
    · rw [← Option.some.inj scales]
      exact going
  next =>
    split at switches
    · rw [← Option.some.inj switches]
      exact settled_error _ nofun
    · rw [← Option.some.inj switches]
      exact going
  next =>
    rw [← Option.some.inj switches]
    exact going

theorem settled_visit (accepting : Accepting handler) (going : records.failed = none)
    (visited : records.visit platform handler item = some result) : Settled result := by
  rw [visit] at visited
  split at visited
  · rw [Option.bind_eq_some_iff] at visited
    obtain ⟨switched, switches, goes⟩ := visited
    have settled := settled_switchEvent accepting going switches
    match switched, settled with
    | .error returned, settled =>
      rw [← Option.some.inj goes]
      exact settled
    | .ok (records, doHoldBack), settled =>
      simp only at goes
      split at goes
      · exact settled_holdBack settled goes
      · rw [← Option.some.inj goes, Settled, callHandler_success accepting, if_pos rfl]
        exact (callHandler_kept ..).failed.trans settled
  · exact nomatch visited

end Records

/-- The reader stops at the first item that is refused, and only there. -/
theorem recordReader_settles (accepting : Records.Accepting handler) :
    Reassembly.Settles (recordReader platform handler) := by
  intro client unit status after going delivered
  have visited {event data : Nat}
      (visits : client.visit platform handler event data = some (status, after)) :
      after.records.failed = if status = .success then none else some status := by
    rw [Client.visit, Option.map_eq_some_iff] at visits
    obtain ⟨result, visits, same⟩ := visits
    have settled := Records.settled_visit accepting going visits
    obtain ⟨rfl, rfl⟩ := Prod.mk.inj same
    exact settled
  change client.deliver platform handler unit = some (status, after) at delivered
  rw [Client.deliver] at delivered
  split at delivered
  next =>
    have header := Option.some.inj delivered
    rw [Client.readHeader] at header
    have failing {status' : ClientStatus} {client' : Client}
        (result : client'.error status' = (status, after)) (failed : status' ≠ .success) :
        after.records.failed = if status = .success then none else some status := by
      obtain ⟨rfl, rfl⟩ := Prod.mk.inj result
      exact Records.settled_error _ failed
    split at header
    next => exact failing header nofun
    next consumer swapped _ =>
      simp only at header
      generalize (if swapped then _ else _ : Nat) = magic at header
      split at header
      · exact failing header nofun
      · obtain ⟨rfl, rfl⟩ := Prod.mk.inj header
        exact going
  all_goals exact visited delivered

structure Format where
  order : ByteOrder
  wide : Bool

namespace Format

def code : Format → Nat
  | ⟨.little, false⟩ => formatLe32
  | ⟨.little, true⟩ => formatLe64
  | ⟨.big, false⟩ => formatBe32
  | ⟨.big, true⟩ => formatBe64

def dataWidth (format : Format) : Nat := if format.wide then 8 else 4

def encodeItem (format : Format) (item : Item) : List UInt8 :=
  format.order.store 4 item.event.toNat ++ format.order.store format.dataWidth item.data.toNat

/-- The header and the items. -/
def encode (format : Format) (items : List Item) : List UInt8 :=
  format.order.store 4 format.code ++ format.order.store 4 recordMagic ++
    items.flatMap format.encodeItem

/-- The data of the item has a place in the format. -/
def Holds (format : Format) (item : Item) : Prop := item.data.toNat < 256 ^ format.dataWidth

instance (format : Format) : DecidablePred format.Holds := fun item =>
  inferInstanceAs (Decidable (item.data.toNat < 256 ^ format.dataWidth))

def consumer (host : ByteOrder) (format : Format) : Consumer :=
  match format.wide, decide (format.order = host) with
  | false, true => .consume32
  | true, true => .consume64
  | false, false => .consumeSwap32
  | true, false => .consumeSwap64

end Format

@[simp] theorem ByteOrder.length_store (order : ByteOrder) (width value : Nat) :
    (order.store width value).length = width := by
  cases order <;> simp [ByteOrder.store]

private theorem bswap_read_reverse (bytes : List UInt8) :
    bswap bytes.length (BigEndian.read bytes.reverse) = BigEndian.read bytes := by
  have written := BigEndian.write_read bytes.reverse
  rw [List.length_reverse] at written
  rw [bswap, written, List.reverse_reverse]

theorem load_store (host order : ByteOrder) {width value : Nat} (fits : value < 256 ^ width) :
    (if order = host then host.load (order.store width value)
      else bswap width (host.load (order.store width value))) = value := by
  have read := BigEndian.read_write fits
  have swapped := bswap_read_reverse (BigEndian.write width value)
  rw [BigEndian.length_write, read] at swapped
  cases host <;> cases order
  · simpa [ByteOrder.load, ByteOrder.store] using read
  · simpa [ByteOrder.load, ByteOrder.store] using swapped
  · simpa [ByteOrder.load, ByteOrder.store] using swapped
  · simpa [ByteOrder.load, ByteOrder.store] using read

theorem length_encodeItem (host : ByteOrder) (format : Format) (item : Item) :
    (format.encodeItem item).length = (format.consumer host).size := by
  obtain ⟨order, wide⟩ := format
  rw [Format.encodeItem, List.length_append, ByteOrder.length_store, ByteOrder.length_store]
  cases wide <;> by_cases same : order = host <;>
    simp [Format.dataWidth, Format.consumer, same, Consumer.size]

variable {format : Format} {items : List Item}

theorem deliver_encodeItem {item : Item} (holds : format.Holds item) (records : Records) :
    Client.deliver platform handler ⟨records, format.consumer platform.order⟩
        (format.encodeItem item) =
      (records.visit platform handler item).map fun visited =>
        (visited.1, ⟨visited.2, format.consumer platform.order⟩) := by
  have event := load_store platform.order format.order
    (show item.event.toNat < 256 ^ 4 from item.event.toNat_lt)
  have data := load_store platform.order format.order holds
  have taken : (format.encodeItem item).take 4 = format.order.store 4 item.event.toNat :=
    List.take_left' (ByteOrder.length_store ..)
  have dropped : (format.encodeItem item).drop 4 =
      format.order.store format.dataWidth item.data.toNat :=
    List.drop_left' (ByteOrder.length_store ..)
  have visits : Client.visit platform handler ⟨records, format.consumer platform.order⟩
      item.event.toNat item.data.toNat = (records.visit platform handler item).map
        fun visited => (visited.1, ⟨visited.2, format.consumer platform.order⟩) := by
    rw [Client.visit, UInt32.ofNat_toNat, UInt64.ofNat_toNat]
  obtain ⟨order, wide⟩ := format
  rw [Client.deliver, taken, dropped, ← visits]
  by_cases same : order = platform.order
  · subst same
    rw [if_pos rfl] at event data
    rw [event, data]
    cases wide <;> simp [Format.consumer]
  · rw [if_neg same] at event data
    cases wide <;> simp only [Format.dataWidth, Bool.false_eq_true, if_false, if_true] at data ⊢ <;>
      simp only [Format.consumer, same, decide_false, event, data]

/-- The items are visited one by one until one stops the client. -/
def visitAll (platform : Platform) (handler : Handler) :
    Records → List Item → Option (ClientStatus × Records)
  | records, [] => some (.success, records)
  | records, item :: rest =>
    (records.visit platform handler item).bind fun visited =>
      if visited.1 = .success then visitAll platform handler visited.2 rest else some visited

/-- The bytes of items are taken as the items, one by one. -/
theorem consume_items (holds : ∀ item ∈ items, format.Holds item) (records : Records) :
    (Reassembly.consume
        (Reassembly.fresh (recordReader platform handler) ⟨records, format.consumer platform.order⟩)
        (items.flatMap format.encodeItem)).map (fun result => (result.1, result.2.state.records)) =
      visitAll platform handler records items := by
  induction items generalizing records with
  | nil => rw [List.flatMap_nil, Reassembly.consume_nil]; rfl
  | cons item rest ih =>
    rw [List.forall_mem_cons] at holds
    have sized : (format.encodeItem item).length = (recordReader platform handler).size
        ⟨records, format.consumer platform.order⟩ :=
      length_encodeItem platform.order format item
    have delivered : (recordReader platform handler).deliver
        ⟨records, format.consumer platform.order⟩ (format.encodeItem item) = _ :=
      deliver_encodeItem holds.1 records
    rw [List.flatMap_cons, Reassembly.consume_unit sized, delivered, visitAll]
    cases records.visit platform handler item with
    | none => rfl
    | some visited =>
      simp only [Option.map_some, Option.bind_some]
      by_cases success : visited.1 = (recordReader platform handler).success
      · rw [if_pos success]
        exact (ih holds.2 visited.2).trans (if_pos success).symm
      · rw [if_neg success]
        exact (if_neg success).symm

/-- What a run has done, without the consumer which it has chosen. -/
def outcome (result : ClientStatus × ClientContext platform handler) : ClientStatus × Records :=
  (result.1, result.2.state.records)

theorem deliver_header (format : Format) (records : Records) :
    Client.deliver platform handler ⟨records, .consumeInit⟩
        (format.order.store 4 format.code ++ format.order.store 4 recordMagic) =
      some (.success, ⟨records, format.consumer platform.order⟩) := by
  have selected : ∀ host order wide,
      selectConsumer host (host.load (order.store 4 (Format.code ⟨order, wide⟩))) =
        some (Format.consumer host ⟨order, wide⟩, decide (order ≠ host)) := by
    intro host order wide
    cases host <;> cases order <;> cases wide <;> decide +kernel
  have magic := load_store platform.order format.order (show recordMagic < 256 ^ 4 by decide)
  have taken : (format.order.store 4 format.code ++ format.order.store 4 recordMagic).take 4 =
      format.order.store 4 format.code := List.take_left' (ByteOrder.length_store ..)
  have dropped : (format.order.store 4 format.code ++ format.order.store 4 recordMagic).drop 4 =
      format.order.store 4 recordMagic := List.drop_left' (ByteOrder.length_store ..)
  obtain ⟨order, wide⟩ := format
  rw [Client.deliver, Client.readHeader, taken, dropped, selected]
  by_cases same : order = platform.order
  · subst same
    rw [if_pos rfl] at magic
    simp [magic]
  · rw [if_neg same] at magic
    simp [same, magic]

/-- A client that is fed an encoded stream visits its items. -/
theorem clientRun_encode (holds : ∀ item ∈ items, format.Holds item) :
    (clientRun (clientInit platform handler) (format.encode items)).map outcome =
      visitAll platform handler initialRecords items := by
  have going : (recordReader platform handler).stopped
    (clientInit platform handler).state = none := rfl
  have success : ClientStatus.success = (recordReader platform handler).success := rfl
  have sized : (format.order.store 4 format.code ++ format.order.store 4 recordMagic).length =
      (recordReader platform handler).size ⟨initialRecords, .consumeInit⟩ := by
    rw [List.length_append, ByteOrder.length_store, ByteOrder.length_store]
    rfl
  have delivered : (recordReader platform handler).deliver ⟨initialRecords, .consumeInit⟩
      (format.order.store 4 format.code ++ format.order.store 4 recordMagic) = _ :=
    @deliver_header platform handler format initialRecords
  rw [clientRun, Reassembly.run_of_open going, clientInit, Format.encode,
    Reassembly.consume_unit sized, delivered, Option.bind_some, if_pos success]
  exact consume_items holds initialRecords

/-- Decoding depends neither on the cuts of the stream nor on the byte order of its items. -/
theorem recordStream_decoding (accepting : Records.Accepting handler) :
    (∀ pieces : List (List UInt8), clientRuns platform handler pieces =
      clientRun (clientInit platform handler) pieces.flatten) ∧
    ∀ (wide : Bool) (items : List Item), (∀ item ∈ items, Format.Holds ⟨.little, wide⟩ item) →
      (clientRun (clientInit platform handler) (Format.encode ⟨.little, wide⟩ items)).map outcome =
        (clientRun (clientInit platform handler) (Format.encode ⟨.big, wide⟩ items)).map
          outcome := by
  constructor
  · intro pieces
    exact Reassembly.runs_flatten (recordReader_settles accepting) rfl pieces
  · intro wide items holds
    have big : ∀ item ∈ items, Format.Holds ⟨.big, wide⟩ item := holds
    rw [clientRun_encode holds, clientRun_encode big]

section Example

def smallMachine : Platform := ⟨.little, 64, fun _ _ => true⟩

def acceptAll : Handler := fun _ _ => .success

/-- One processor, room for four items, the uptime and an event of the user. -/
def smallItems : List Item :=
  [⟨1, 10⟩, ⟨10, 0⟩, ⟨6, 2⟩, ⟨4, 1000⟩, ⟨0x400 + 323, 5⟩, ⟨0x800 + 322, 7⟩, ⟨0xc00 + 600, 3⟩]

theorem smallItems_decoding :
    clientRuns smallMachine acceptAll
        [(Format.encode ⟨.big, true⟩ smallItems).take 29,
          (Format.encode ⟨.big, true⟩ smallItems).drop 29] =
      clientRun (clientInit smallMachine acceptAll) (Format.encode ⟨.big, true⟩ smallItems) ∧
    (clientRun (clientInit smallMachine acceptAll)
        (Format.encode ⟨.little, true⟩ smallItems)).map outcome =
      (clientRun (clientInit smallMachine acceptAll)
        (Format.encode ⟨.big, true⟩ smallItems)).map outcome ∧
    (clientRun (clientInit smallMachine acceptAll)
        (Format.encode ⟨.big, true⟩ smallItems)).map
          (fun result => (result.1, result.2.state.records.calls.map Invocation.event)) =
      some (.success, [1, 10, 6, 4, 323, 322, 600]) := by
  have decoding := @recordStream_decoding smallMachine acceptAll (fun _ _ => rfl)
  refine ⟨(decoding.1 _).trans ?_, decoding.2 true smallItems (by decide), by decide +kernel⟩
  rw [List.flatten_cons, List.flatten_singleton, List.take_append_drop]

end Example

end RTContainer.Libtrace
