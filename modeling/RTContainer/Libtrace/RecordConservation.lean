import Mathlib.Data.List.Perm.Basic
import RTContainer.Lib.Run
import RTContainer.Libtrace.RecordSafety

/-! When the items of a record stream reach the handler, each once and in order. -/

set_option autoImplicit false

namespace RTContainer.Libtrace

open Function

variable {platform : Platform} {handler : Handler}

/-- The event and the data which the handler gets for an item. -/
abbrev Entry := UInt32 × UInt64

def Item.entry (item : Item) : Entry := (getEvent item.event, item.data)

/-- The processor to which an item belongs: `PROCESSOR` is the first of its own. -/
def Item.processor (item : Item) (current : Nat) : Nat :=
  if eventKind (getEvent item.event) = .processor then item.data.toNat else current

def genuine (entry : Entry) : Bool := entry.1 ≠ timeAdjustment ∧ entry.1 ≠ unreliableTime

/-- `VERSION` and `PROCESSOR_MAXIMUM` are never held back. -/
def ordered (entry : Entry) : Bool :=
  eventKind entry.1 ≠ .version ∧ eventKind entry.1 ≠ .processorMaximum

def delivered (calls : List Invocation) (cpu : Nat) : List Entry :=
  ((calls.filter (·.cpu = cpu)).map fun call => (call.event, call.data)).filter genuine

def times (calls : List Invocation) (cpu : Nat) : List UInt64 :=
  (calls.filter (·.cpu = cpu)).map Invocation.bt

def arrivals (cpu : Nat) : Nat → List Item → List Entry
  | _, [] => []
  | current, item :: rest =>
    (if item.processor current = cpu then [item.entry] else []) ++
      arrivals cpu (item.processor current) rest

structure Conserves (items : List Item) (calls : List Invocation) (cpu : Nat) : Prop where
  once : (delivered calls cpu).Perm (arrivals cpu 0 items)
  order : (delivered calls cpu).filter ordered = (arrivals cpu 0 items).filter ordered
  times : (times calls cpu).Pairwise (· ≤ ·)

namespace Phase

variable (phase : Phase)

/-- An item waits if its processor has no uptime when it comes, but for the header items and an
uptime which is complete with it. -/
def holds (item : Item) : Bool :=
  match eventKind (getEvent item.event) with
  | .version => false
  | .processorMaximum => false
  | .perCpuOverflow => true
  | .uptimeHigh => !phase.lowValid phase.current && phase.holding phase.current
  | _ => phase.holding phase.current

def target (item : Item) : Nat := phase.waiting (item.processor phase.current)

/-- The header items come once, in their order and with values which the client supports. -/
def Accepted (item : Item) : Prop :=
  match eventKind (getEvent item.event) with
  | .version => item.data = theVersion
  | .processorMaximum => item.data.toNat < maximumCpuCount ∧ phase.cpus = 0
  | .processor => item.data.toNat < phase.cpus
  | .perCpuCount => phase.perCpuItems = 0 ∧ phase.cpus ≠ 0
  | _ => phase.cpus ≠ 0

/-- The item is one of a recorder and there are not too many which wait. -/
structure WellFormed (platform : Platform) (phase : Phase) (item : Item) : Prop where
  proper : phase.toAnnounced.Proper platform item
  accepted : phase.Accepted item
  genuine : genuine item.entry = true
  fits : phase.holds item = true → phase.target item < (2 * phase.perCpuItems).toNat ∨
    phase.target item < holdBackReallocationLimit

/-- From a processor without an uptime the stream goes to another one without, and from one
which has an uptime to one of which nothing waits. -/
def InPhase (item : Item) : Prop :=
  eventKind (getEvent item.event) = .processor →
    if phase.holding phase.current then phase.holding item.data.toNat = true
    else phase.waiting item.data.toNat = 0

instance (phase : Phase) (item : Item) : Decidable (phase.Accepted item) := by
  unfold Accepted
  exact match eventKind (getEvent item.event) with
  | .version | .frequency | .perCpuCount | .perCpuOverflow | .processor | .processorMaximum
  | .uptimeHigh | .uptimeLow | .other => inferInstance

instance (platform : Platform) [∀ cpus, Decidable (platform.Grows cpus)] (phase : Phase)
    (item : Item) : Decidable (phase.WellFormed platform item) :=
  decidable_of_iff (phase.toAnnounced.Proper platform item ∧ phase.Accepted item ∧
      Libtrace.genuine item.entry = true ∧ (phase.holds item = true →
        phase.target item < (2 * phase.perCpuItems).toNat ∨
          phase.target item < holdBackReallocationLimit))
    ⟨fun ⟨proper, accepted, genuine, fits⟩ => ⟨proper, accepted, genuine, fits⟩,
      fun formed => ⟨formed.proper, formed.accepted, formed.genuine, formed.fits⟩⟩

instance (phase : Phase) (item : Item) : Decidable (phase.InPhase item) := by
  unfold InPhase
  infer_instance

/-- Only items of processors without an uptime wait. -/
def Drained : Prop :=
  ∀ cpu, phase.holding cpu = false → phase.waiting cpu = 0

variable {phase} {item : Item}

theorem Drained.wait (drained : phase.Drained) {holds : Bool}
    (held : holds = true → phase.holding phase.current = true) : (phase.wait holds).Drained := by
  rw [Phase.wait]
  split
  next holds =>
    intro cpu idle
    rcases eq_or_ne cpu phase.current with rfl | other
    · exact (Bool.false_ne_true (idle.symm.trans (held holds))).elim
    · simp only [update_of_ne other]
      exact drained cpu idle
  next => exact drained

/-- Only the processors that hold back have items that wait. -/
theorem Drained.next (drained : phase.Drained) (inPhase : phase.InPhase item) :
    (phase.next item).Drained := by
  have still (announced : Announced) (current : Nat) (lowValid : Nat → Bool) :
      Drained ⟨announced, current, lowValid, phase.holding, phase.waiting⟩ :=
    drained
  rw [Phase.next]
  cases kind : eventKind (getEvent item.event) with
  | version | processorMaximum => exact drained
  | frequency | perCpuCount | uptimeLow | other => exact (still _ _ _).wait id
  | perCpuOverflow =>
    refine Drained.wait (fun cpu idle => ?_) fun _ => update_self ..
    change update phase.holding phase.current true cpu = false at idle
    rcases eq_or_ne cpu phase.current with rfl | other
    · rw [update_self] at idle
      cases idle
    · rw [update_of_ne other] at idle
      exact drained cpu idle
  | processor =>
    refine (still _ _ _).wait fun holds => ?_
    have same := inPhase kind
    rwa [if_pos holds] at same
  | uptimeHigh =>
    simp only
    split
    next =>
      intro cpu idle
      rcases eq_or_ne cpu phase.current with rfl | other
      · simp only
        split
        next => exact update_self ..
        next free => exact drained _ (eq_false_of_ne_true free)
      · simp only [update_of_ne other] at idle ⊢
        split
        next =>
          rw [update_of_ne other]
          exact drained cpu idle
        next => exact drained cpu idle
    next => exact (still _ _ _).wait id

/-- No item is passed on while items of its processor wait, unless it resolves these first. -/
def InOrder (phase : Phase) (item : Item) : Prop :=
  phase.holds item = false → ordered item.entry = true → phase.target item = 0 ∨
    (eventKind (getEvent item.event) = .uptimeHigh ∧ phase.holding phase.current = true)

theorem InPhase.inOrder (inPhase : phase.InPhase item) (drained : phase.Drained) :
    phase.InOrder item := by
  intro passed keeps
  rw [ordered, Item.entry] at keeps
  rw [target, Item.processor]
  rw [holds] at passed
  cases kind : eventKind (getEvent item.event) with
  | version | processorMaximum => simp [kind] at keeps
  | perCpuOverflow => simp [kind] at passed
  | processor =>
    have apart := inPhase kind
    simp only [kind] at passed
    rw [if_neg (ne_true_of_eq_false passed)] at apart
    exact .inl apart
  | uptimeHigh =>
    cases holding : phase.holding phase.current with
    | true => exact .inr ⟨rfl, rfl⟩
    | false => exact .inl (drained _ holding)
  | frequency | perCpuCount | uptimeLow | other =>
    simp only [kind] at passed
    exact .inl (drained _ passed)

end Phase

namespace Records

/-- Memory is available. -/
def Available (platform : Platform) : Prop :=
  ∀ request bytes, platform.granted request bytes = true

/-- The client goes on with what it is after the item. -/
def step (platform : Platform) (handler : Handler) (records : Records) (item : Item) : Records :=
  ((records.visit platform handler item).map Prod.snd).getD records

/-- What the client has and has not yet passed on of a processor. -/
def waiting (perCpu : PerCpu) : List Entry :=
  (((List.range perCpu.itemIndex).map perCpu.items).map Item.entry).filter genuine

def queue (records : Records) (cpu : Nat) : List Entry :=
  delivered records.calls cpu ++ waiting (records.perCpu cpu)

theorem setCurrent_self (records : Records) (perCpu : PerCpu) :
    (records.setCurrent perCpu).perCpu records.cpu = perCpu := update_self ..

theorem delivered_concat (calls : List Invocation) (call : Invocation) (cpu : Nat) :
    delivered (calls ++ [call]) cpu = delivered calls cpu ++
      if call.cpu = cpu then [(call.event, call.data)].filter genuine else [] := by
  by_cases same : call.cpu = cpu <;> simp [delivered, List.filter_cons, same]

theorem times_concat (calls : List Invocation) (call : Invocation) (cpu : Nat) :
    times (calls ++ [call]) cpu = times calls cpu ++ if call.cpu = cpu then [call.bt] else [] := by
  by_cases same : call.cpu = cpu <;> simp [times, same]

structure Timed (records : Records) : Prop where
  sorted : ∀ cpu, (times records.calls cpu).Pairwise (· ≤ ·)
  last : ∀ cpu, ∀ bt ∈ times records.calls cpu, bt ≤ (records.perCpu cpu).lastBt

theorem Timed.later {before after : Records} (timed : Timed before)
    (calls : after.calls = before.calls)
    (lastBt : ∀ cpu, (before.perCpu cpu).lastBt ≤ (after.perCpu cpu).lastBt) : Timed after where
  sorted cpu := calls ▸ timed.sorted cpu
  last cpu bt listed :=
    UInt64.le_trans (timed.last cpu bt (calls ▸ listed)) (lastBt cpu)

variable {records after : Records} {perCpu : PerCpu} {result : ClientStatus × Records} {item : Item}
variable {cpus : List Nat}

theorem Timed.setCurrent (timed : Timed records) (lastBt : records.current.lastBt ≤ perCpu.lastBt) :
    Timed (records.setCurrent perCpu) := by
  refine timed.later rfl fun cpu => ?_
  rcases eq_or_ne cpu records.cpu with rfl | other
  · rw [setCurrent_self]
    exact lastBt
  · rw [setCurrent_of_ne other]
    exact UInt64.le_refl _

theorem Timed.invoke (handler : Handler) (timed : Timed records) {call : Invocation}
    (bt : call.bt = (records.perCpu call.cpu).lastBt) : Timed (records.invoke handler call).2 := by
  refine ⟨fun cpu => ?_, fun cpu time listed => ?_⟩
  · change (times (records.calls ++ [call]) cpu).Pairwise _
    rw [times_concat]
    split
    next same =>
      refine List.pairwise_append.2 ⟨timed.sorted cpu, List.pairwise_singleton .., ?_⟩
      intro time listed last isLast
      rw [List.mem_singleton.1 isLast, bt, same]
      exact timed.last cpu time listed
    next =>
      rw [List.append_nil]
      exact timed.sorted cpu
  · change time ∈ times (records.calls ++ [call]) cpu at listed
    rw [times_concat, List.mem_append] at listed
    rcases listed with before | isNew
    · exact timed.last cpu time before
    · split at isNew
      next same =>
        rw [List.mem_singleton.1 isNew, bt, same]
        exact UInt64.le_refl _
      next => exact nomatch isNew

section Handling

variable (handler)

variable {records : Records}

theorem timeBt_timed (timed : Timed records) (time event : UInt32) :
    Timed (records.timeBt handler time event).2 ∧
      (records.timeBt handler time event).1 = (records.timeBt handler time event).2.current.lastBt ∧
      ∀ cpu, delivered (records.timeBt handler time event).2.calls cpu =
        delivered records.calls cpu := by
  simp only [timeBt]
  generalize (if hasTime event then _ else _ : Uptime) = uptime
  split
  next later =>
    refine ⟨timed.setCurrent later, ?_, fun _ => rfl⟩
    rw [setCurrent_current]
  next =>
    have adjusted : Timed (records.setCurrent { records.current with uptime := uptime }) :=
      timed.setCurrent (UInt64.le_refl _)
    have current := setCurrent_current records { records.current with uptime := uptime }
    refine ⟨adjusted.invoke handler ?_, ?_, fun cpu => ?_⟩
    · exact (congrArg PerCpu.lastBt current).symm
    · exact (congrArg PerCpu.lastBt current).symm
    · change delivered (records.calls ++ [_]) cpu = _
      rw [delivered_concat]
      simp [genuine]

theorem callHandler_timed (timed : Timed records) (time event : UInt32) (data : UInt64) :
    Timed (records.callHandler handler time event data).2 ∧
      ∀ cpu, delivered (records.callHandler handler time event data).2.calls cpu =
        delivered records.calls cpu ++
          if records.cpu = cpu then [(event, data)].filter genuine else [] := by
  obtain ⟨stamped, bt, own⟩ := timeBt_timed handler timed time event
  have cpu := (timeBt_kept handler records time event).cpu
  refine ⟨stamped.invoke handler ?_, fun other => ?_⟩
  · change (records.timeBt handler time event).1 = _
    rw [bt, current, cpu]
  · change delivered ((records.timeBt handler time event).2.calls ++ [_]) other = _
    rw [delivered_concat, own]

theorem callHeld_timed (accepting : Accepting handler) (timed : Timed records) (items : List Item) :
    Timed (records.callHeld handler items).2 ∧
      ∀ cpu, delivered (records.callHeld handler items).2.calls cpu =
        delivered records.calls cpu ++
          if records.cpu = cpu then (items.map Item.entry).filter genuine else [] := by
  induction items generalizing records with
  | nil => exact ⟨timed, fun cpu => by simp [callHeld]⟩
  | cons item rest ih =>
    obtain ⟨called, first⟩ := callHandler_timed handler timed (getTime item.event)
      (getEvent item.event) item.data
    have cpu := (callHandler_kept handler records (getTime item.event) (getEvent item.event)
      item.data).cpu
    obtain ⟨timed, others⟩ := ih called
    rw [callHeld, if_pos (callHandler_success accepting ..)]
    refine ⟨timed, fun other => ?_⟩
    rw [others, first, cpu, List.append_assoc]
    split
    · rw [← List.filter_append]
      rfl
    · rfl

end Handling

theorem waiting_empty (empty : perCpu.itemIndex = 0) : waiting perCpu = [] := by
  rw [waiting, empty]
  rfl

structure Rearranged (before after : Records) : Prop where
  queue : ∀ cpu, after.queue cpu = before.queue cpu
  timed : Timed after

theorem Rearranged.trans {first second third : Records} (front : Rearranged first second)
    (back : Rearranged second third) : Rearranged first third :=
  ⟨fun cpu => (back.queue cpu).trans (front.queue cpu), back.timed⟩

structure SameItems (before after : PerCpu) : Prop where
  items : after.items = before.items
  itemIndex : after.itemIndex = before.itemIndex
  lastBt : after.lastBt = before.lastBt
  itemCapacity : before.itemCapacity ≤ after.itemCapacity

theorem SameItems.refl (perCpu : PerCpu) : SameItems perCpu perCpu :=
  ⟨rfl, rfl, rfl, Nat.le_refl _⟩

theorem SameItems.setCurrent (same : SameItems records.current perCpu) (cpu : Nat) :
    SameItems (records.perCpu cpu) ((records.setCurrent perCpu).perCpu cpu) := by
  rcases eq_or_ne cpu records.cpu with rfl | other
  · rw [setCurrent_self]
    exact same
  · rw [setCurrent_of_ne other]
    exact .refl _

theorem Timed.rearranged {before : Records} (timed : Timed before)
    (same : ∀ cpu, SameItems (before.perCpu cpu) (after.perCpu cpu))
    (calls : after.calls = before.calls) : Rearranged before after where
  queue cpu := by
    rw [queue, waiting, calls, (same cpu).items, (same cpu).itemIndex, ← waiting, ← queue]
  timed := timed.later calls fun cpu => (same cpu).lastBt ▸ UInt64.le_refl _

structure Resolved (before after : Records) : Prop extends Rearranged before after where
  cpu : after.cpu = before.cpu
  cpuCount : after.cpuCount = before.cpuCount
  empty : (after.perCpu before.cpu).itemIndex = 0
  others : ∀ cpu ≠ before.cpu, (after.perCpu cpu).itemIndex = (before.perCpu cpu).itemIndex ∧
    (after.perCpu cpu).holdBack = (before.perCpu cpu).holdBack

theorem resolveHoldBack_resolved (accepting : Accepting handler) (timed : Timed records)
    (resolved : records.resolveHoldBack handler = some result) : Resolved records result.2 := by
  rw [resolveHoldBack] at resolved
  split at resolved
  next => cases resolved
  next items held =>
    rw [heldItems] at held
    split at held
    next =>
      simp only [callHeld_success accepting, if_true, Option.some.injEq] at resolved
      generalize (⟨_, _, 0⟩ : Uptime) = uptime at resolved
      have restarted : Timed (records.setCurrent { records.current with uptime := uptime }) :=
        timed.setCurrent (UInt64.le_refl _)
      obtain ⟨called, delivers⟩ := callHeld_timed handler accepting restarted items
      have kept := (setCurrent_kept records uptime records.current.lastBt).trans
        (callHeld_kept handler _ items)
      generalize callHeld handler (records.setCurrent _) items = after at *
      replace delivers : ∀ cpu, delivered after.2.calls cpu = delivered records.calls cpu ++
          if records.cpu = cpu then (items.map Item.entry).filter genuine else [] := delivers
      have cpu : after.2.cpu = records.cpu := kept.cpu
      subst resolved
      have emptied (perCpu : PerCpu) : (after.2.setCurrent perCpu).perCpu records.cpu = perCpu := by
        rw [← cpu]
        exact setCurrent_self after.2 perCpu
      have others (perCpu : PerCpu) : ∀ other ≠ records.cpu,
          (after.2.setCurrent perCpu).perCpu other = after.2.perCpu other :=
        fun other different => setCurrent_of_ne (cpu ▸ different) _
      refine ⟨⟨fun other => ?_, called.setCurrent (UInt64.le_refl _)⟩, cpu,
        kept.cpuCount, ?_, fun other different => ?_⟩
      · change delivered after.2.calls other ++ waiting _ = _
        rw [delivers]
        rcases eq_or_ne records.cpu other with rfl | different
        · rw [emptied, if_pos rfl, waiting_empty rfl, List.append_nil, ← Option.some.inj held]
          rfl
        · obtain ⟨_, _, same⟩ := kept.perCpu other
          rw [others _ _ different.symm, if_neg different, List.append_nil, same]
          rfl
      · rw [emptied]
      · obtain ⟨_, _, same⟩ := kept.perCpu other
        rw [others _ other different, same]
        exact ⟨rfl, rfl⟩
    next => cases held

/-- `added` comes last, but that some of its entries need not keep their place. -/
structure Follows (before after added : List Entry) : Prop where
  perm : after.Perm (before ++ added)
  order : after.filter ordered = (before ++ added).filter ordered

theorem follows_of_eq {before after added : List Entry} (same : after = before ++ added) :
    Follows before after added :=
  ⟨same ▸ List.Perm.refl _, congrArg (List.filter ordered) same⟩

theorem Follows.trans {first second third front back : List Entry}
    (one : Follows first second front) (two : Follows second third back) :
    Follows first third (front ++ back) where
  perm := by
    rw [← List.append_assoc]
    exact two.perm.trans (one.perm.append_right back)
  order := by
    rw [two.order, List.filter_append, one.order, ← List.filter_append, List.append_assoc]

/-- The times do not decrease, and processors which the stream does not have are not used. -/
structure Ready (records : Records) : Prop where
  timed : Timed records
  idle : ∀ cpu, records.cpuCount ≤ cpu → (records.perCpu cpu).itemIndex = 0

structure Gains (item : Item) (before after : Records) : Prop where
  follows : ∀ cpu, Follows (before.queue cpu) (after.queue cpu)
    (if before.cpu = cpu then [item.entry] else [])
  ready : Ready after
  cpu : after.cpu = before.cpu

theorem waiting_store (perCpu : PerCpu) (own : genuine item.entry = true) :
    waiting { perCpu with
        items := update perCpu.items perCpu.itemIndex item
        itemIndex := perCpu.itemIndex + 1 } = waiting perCpu ++ [item.entry] := by
  have front : (List.range perCpu.itemIndex).map
      (update perCpu.items perCpu.itemIndex item) =
        (List.range perCpu.itemIndex).map perCpu.items :=
    List.map_congr_left fun index listed =>
      update_of_ne (Nat.ne_of_lt (List.mem_range.1 listed)) ..
  simp only [waiting, List.range_succ, List.map_append, front, List.filter_append,
    List.map_singleton, update_self, List.filter_cons_of_pos own, List.filter_nil]

theorem storeItem_gains (ready : Ready records) (own : genuine item.entry = true)
    (used : records.cpu < records.cpuCount) (stored : records.storeItem item = some result) :
    result.1 = .success ∧ Gains item records result.2 := by
  rw [storeItem] at stored
  split at stored
  next =>
    rw [← Option.some.inj stored]
    refine ⟨rfl, fun cpu => follows_of_eq ?_, ⟨ready.timed.setCurrent (UInt64.le_refl _), ?_⟩, rfl⟩
    · rw [queue, queue, List.append_assoc]
      refine congrArg (delivered records.calls cpu ++ ·) ?_
      rcases eq_or_ne records.cpu cpu with rfl | other
      · rw [if_pos rfl, setCurrent_self]
        exact waiting_store _ own
      · rw [if_neg other, setCurrent_of_ne other.symm, List.append_nil]
    · intro cpu unused
      rw [setCurrent_of_ne (Nat.ne_of_gt (Nat.lt_of_lt_of_le used unused))]
      exact ready.idle cpu unused
  next => cases stored

theorem holdBack_gains (memory : Available platform) (ready : Ready records)
    (own : genuine item.entry = true) (used : records.cpu < records.cpuCount)
    (fits : records.current.itemIndex < records.current.itemCapacity ∨
      records.current.itemIndex < holdBackReallocationLimit)
    (held : records.holdBack platform item = some result) :
    result.1 = .success ∧ Gains item records result.2 := by
  rw [holdBack] at held
  simp only at held
  split at held
  next full =>
    rw [if_neg (Nat.not_le_of_lt (fits.resolve_left (Nat.not_lt_of_le full))),
      reallocItems_setCurrent, if_pos (memory ..), if_pos (memory ..)] at held
    generalize shape : ({ records.setCurrent _ with requests := _ } : Records) = grown at held
    have cpu : grown.cpu = records.cpu := by rw [← shape]; rfl
    have cpuCount : grown.cpuCount = records.cpuCount := by rw [← shape]; rfl
    have same : ∀ cpu, SameItems (records.perCpu cpu) (grown.perCpu cpu) := by
      rw [← shape]
      exact SameItems.setCurrent ⟨rfl, rfl, rfl, show _ ≤ 2 * records.current.itemIndex by omega⟩
    have rearranged := ready.timed.rearranged same (by rw [← shape]; rfl)
    obtain ⟨success, gains⟩ := storeItem_gains ⟨rearranged.timed, fun cpu unused =>
      (same cpu).itemIndex.trans (ready.idle cpu (cpuCount ▸ unused))⟩ own
        (cpu ▸ cpuCount ▸ used) held
    refine ⟨success, fun other => ?_, gains.ready, gains.cpu.trans cpu⟩
    rw [← rearranged.queue, ← cpu]
    exact gains.follows other
  next => exact storeItem_gains ready own used held

theorem callHandler_gains (handler : Handler) (ready : Ready records)
    (own : genuine item.entry = true)
    (first : ordered item.entry = true → records.current.itemIndex = 0) :
    Gains item records (records.callHandler handler (getTime item.event)
      (getEvent item.event) item.data).2 := by
  obtain ⟨timed, delivers⟩ := callHandler_timed handler ready.timed (getTime item.event)
    (getEvent item.event) item.data
  have kept := callHandler_kept handler records (getTime item.event) (getEvent item.event) item.data
  generalize callHandler handler records _ _ _ = called at *
  refine ⟨fun cpu => ?_, ⟨timed, fun cpu unused => ?_⟩, kept.cpu⟩
  · obtain ⟨_, _, same⟩ := kept.perCpu cpu
    have waits : waiting (called.2.perCpu cpu) = waiting (records.perCpu cpu) := by
      rw [same]
      rfl
    rw [queue, queue, delivers, waits]
    rcases eq_or_ne records.cpu cpu with rfl | other
    · rw [if_pos rfl, if_pos rfl]
      change Follows _ (_ ++ [item.entry].filter genuine ++ _) _
      rw [List.filter_cons_of_pos own, List.filter_nil, List.append_assoc]
      refine ⟨?_, ?_⟩
      · rw [List.append_assoc]
        exact List.perm_append_comm.append_left _
      · by_cases keeps : ordered item.entry = true
        · have empty : waiting (records.perCpu records.cpu) = [] := waiting_empty (first keeps)
          rw [empty, List.append_nil, List.append_nil]
        · simp [keeps]
    · rw [if_neg other, if_neg other, List.append_nil]
      exact follows_of_eq (List.append_nil _).symm
  · obtain ⟨_, _, same⟩ := kept.perCpu cpu
    rw [same]
    exact ready.idle cpu (kept.cpuCount ▸ unused)

theorem reallocAll_success (memory : Available platform) {capacity : Nat}
    (grown : reallocAll platform capacity records cpus = some result) : result.1 = .success := by
  induction cpus generalizing records with
  | nil => rw [← Option.some.inj grown]
  | cons cpu rest ih =>
    rw [reallocAll] at grown
    split at grown
    next =>
      simp only [reallocItems, memory _ _, if_true] at grown
      exact ih grown
    next => cases grown

/-- The switch of `visit`, before the item is held back or passed on. -/
structure Switches (records : Records) (item : Item) (after : Records) : Prop where
  queue : ∀ cpu, after.queue cpu = records.queue cpu
  ready : Ready after
  cpu : after.cpu = item.processor records.cpu
  held : records.phase.holds item = true → after.cpuCount ≠ 0 ∧
    (after.current.itemIndex < after.current.itemCapacity ∨
      after.current.itemIndex < holdBackReallocationLimit)
  passed : records.phase.holds item = false → ordered item.entry = true → after.current.itemIndex = 0

/-- The storage of the processor has a place for the item, or may grow. -/
def Fits (records : Records) (item : Item) : Prop :=
  records.phase.holds item = true → records.phase.target item <
      (records.perCpu (item.processor records.cpu)).itemCapacity ∨
    records.phase.target item < holdBackReallocationLimit

theorem fits_of_formed (bounded : Bounded records) (tracked : Tracked platform records)
    (formed : records.phase.WellFormed platform item) : Fits records item := by
  intro held
  refine (formed.fits held).imp_left fun room => ?_
  rw [Tracked] at tracked
  split at tracked
  next unset =>
    change _ < (2 * records.perCpuItems).toNat at room
    rw [unset] at room
    cases room
  next =>
    refine Nat.lt_of_lt_of_le room (tracked.stored _ ?_).1
    have accepted := formed.accepted
    rw [Phase.Accepted] at accepted
    rw [Item.processor]
    split
    next kind =>
      simp only [kind] at accepted
      exact accepted
    next =>
      exact bounded.cpu.elim (fun zero => zero ▸ Nat.pos_of_ne_zero tracked.counted) id

theorem switches_of_same (ready : Ready records) (fits : Fits records item)
    (calls : after.calls = records.calls) (cpu : after.cpu = item.processor records.cpu)
    (cpuCount : records.cpuCount ≤ after.cpuCount)
    (same : ∀ cpu, SameItems (records.perCpu cpu) (after.perCpu cpu))
    (used : records.phase.holds item = true → after.cpuCount ≠ 0)
    (first : records.phase.holds item = false → ordered item.entry = true →
      records.phase.target item = 0) : Switches records item after := by
  have rearranged := ready.timed.rearranged same calls
  have target : SameItems (records.perCpu (item.processor records.cpu)) after.current := by
    rw [current, cpu]
    exact same _
  refine ⟨rearranged.queue, ⟨rearranged.timed, fun other unused => ?_⟩, cpu,
    fun held => ⟨used held, ?_⟩, fun passed keeps => ?_⟩
  · rw [(same other).itemIndex]
    exact ready.idle other (Nat.le_trans cpuCount unused)
  · rw [target.itemIndex]
    exact (fits held).imp_left fun room => Nat.lt_of_lt_of_le room target.itemCapacity
  · rw [target.itemIndex]
    exact first passed keeps

section

variable (accepting : Accepting handler) (memory : Available platform)
include accepting memory

variable {records : Records} {item : Item}

section

variable (bounded : Bounded records)
include bounded

/-- What an item does before it is passed on or held back. -/
theorem switchEvent_switches (ready : Ready records) (accepted : records.phase.Accepted item)
    (fits : Fits records item) (inOrder : records.phase.InOrder item)
    {switched : Except (ClientStatus × Records) (Records × Bool)}
    (switches : records.switchEvent platform handler item = some switched) :
    ∃ after, switched = .ok (after, records.phase.holds item) ∧ Switches records item after := by
  have same : ∀ cpu, SameItems (records.perCpu cpu) (records.perCpu cpu) := fun _ => .refl _
  have stays : eventKind (getEvent item.event) ≠ .processor →
      records.cpu = item.processor records.cpu := fun other => (if_neg other).symm
  have first : eventKind (getEvent item.event) ≠ .uptimeHigh → records.phase.holds item = false →
      ordered item.entry = true → records.phase.target item = 0 :=
    fun other passed keeps => (inOrder passed keeps).resolve_right fun high => other high.1
  rw [switchEvent] at switches
  rw [Phase.Accepted] at accepted
  cases kind : eventKind (getEvent item.event) with
  | version =>
    simp only [kind] at switches accepted stays first
    rw [if_neg (not_not.2 accepted)] at switches
    refine ⟨records, ?_, switches_of_same ready fits rfl (stays (by decide)) le_rfl same ?_
      (first (by decide))⟩
    · rw [← Option.some.inj switches, Phase.holds, kind]
    · simp [Phase.holds, kind]
  | frequency =>
    simp only [kind, setToBtScaler] at switches accepted stays first
    rw [Option.map_eq_some_iff] at switches
    obtain ⟨scaled, scales, rfl⟩ := switches
    split at scales
    · cases scales
    · rw [← Option.some.inj scales, Phase.holds, kind]
      exact ⟨_, rfl, switches_of_same ready fits rfl (stays (by decide)) le_rfl same
        (fun _ => accepted) (first (by decide))⟩
  | perCpuCount =>
    simp only [kind, phase] at switches accepted stays first
    rw [Option.map_eq_some_iff] at switches
    obtain ⟨processed, processes, rfl⟩ := switches
    obtain ⟨status, after, runs, -, grown, -⟩ :=
      processPerCpuCount_bounded platform bounded item.data
    rw [runs] at processes
    cases processes
    have success : status = .success := by
      rw [processPerCpuCount, if_neg (not_not.2 accepted.1), if_neg accepted.2] at runs
      exact reallocAll_success memory runs
    obtain ⟨-, grown, -⟩ := grown success
    have grownSame : ∀ cpu, SameItems (records.perCpu cpu) (after.perCpu cpu) := fun cpu => by
      rw [grown.perCpu]
      split
      · refine ⟨rfl, rfl, rfl, ?_⟩
        rw [(bounded.perCpu cpu).unsized accepted.1]
        exact Nat.zero_le _
      · exact .refl _
    have cpuCount : after.cpuCount = records.cpuCount := by rw [grown.others]
    have cpu : after.cpu = records.cpu := by rw [grown.others]
    rw [if_pos success, Phase.holds, kind]
    exact ⟨_, rfl, switches_of_same ready fits (by rw [grown.others])
      (cpu.trans (stays (by decide))) (Nat.le_of_eq cpuCount.symm) grownSame
      (fun _ => cpuCount ▸ accepted.2) (first (by decide))⟩
  | perCpuOverflow | uptimeLow =>
    simp only [kind, Option.some.injEq] at switches accepted stays first
    rw [← switches, Phase.holds, kind]
    exact ⟨_, rfl, switches_of_same ready fits rfl (stays (by decide)) le_rfl
      (.setCurrent ⟨rfl, rfl, rfl, le_rfl⟩) (fun _ => accepted) (first (by decide))⟩
  | processor =>
    simp only [kind, phase] at switches accepted first
    rw [if_neg (Nat.not_le_of_lt accepted),
      if_pos (Nat.lt_of_lt_of_le accepted bounded.cpuCount)] at switches
    rw [← Option.some.inj switches, Phase.holds, kind]
    exact ⟨_, rfl, switches_of_same ready fits rfl (if_pos kind).symm le_rfl same
      (fun _ => Nat.ne_zero_of_lt accepted) (first (by decide))⟩
  | processorMaximum =>
    simp only [kind, phase] at switches accepted stays first
    rw [if_neg (Nat.not_le_of_lt accepted.1), if_neg (not_not.2 accepted.2)] at switches
    rw [← Option.some.inj switches, Phase.holds, kind]
    exact ⟨_, rfl, switches_of_same ready fits rfl (stays (by decide))
      (accepted.2 ▸ Nat.zero_le _) same (fun _ => Nat.succ_ne_zero _) (first (by decide))⟩
  | uptimeHigh =>
    simp only [kind] at switches accepted stays
    have notResolving (idle : records.current.holdBack = false) :
        records.phase.holds item = false → ordered item.entry = true →
          records.phase.target item = 0 := fun passed keeps =>
      (inOrder passed keeps).resolve_right fun high =>
        Bool.false_ne_true (idle.symm.trans high.2)
    have phased (valid : Bool) (same : records.current.uptimeLowValid = valid) :
        records.phase.holds item = (!valid && records.current.holdBack) := by
      rw [Phase.holds, kind, ← same]
      rfl
    split at switches
    next valid =>
      generalize (⟨_, _, 0⟩ : Uptime) = uptime at switches
      have timed : ∀ cpu, SameItems (records.perCpu cpu) ((records.setCurrent
          { records.current with uptime := uptime, uptimeLowValid := false }).perCpu cpu) :=
        .setCurrent ⟨rfl, rfl, rfl, le_rfl⟩
      split at switches
      next holding =>
        rw [Option.map_eq_some_iff] at switches
        obtain ⟨result, resolves, rfl⟩ := switches
        have rearranged := ready.timed.rearranged timed rfl
        have resolved := resolveHoldBack_resolved accepting rearranged.timed resolves
        rw [if_pos (resolveHoldBack_success accepting resolves).1, phased true valid]
        have cpu : result.2.cpu = records.cpu := resolved.cpu
        refine ⟨_, rfl, (rearranged.trans resolved.toRearranged).queue, ⟨resolved.timed, ?_⟩,
          cpu.trans (stays (by decide)), ?_, fun _ _ => ?_⟩
        · intro other unused
          rcases eq_or_ne other records.cpu with rfl | different
          · exact resolved.empty
          · rw [(resolved.others other different).1, (timed other).itemIndex]
            exact ready.idle other (resolved.cpuCount ▸ unused)
        · simp [phased true valid]
        · rw [current, cpu]
          exact resolved.empty
      next idle =>
        rw [← Option.some.inj switches, phased true valid]
        exact ⟨_, rfl, switches_of_same ready fits rfl (stays (by decide)) le_rfl timed
          (fun _ => accepted) (notResolving (eq_false_of_ne_true idle))⟩
    next invalid =>
      rw [← Option.some.inj switches, phased false (eq_false_of_ne_true invalid)]
      refine ⟨_, rfl, switches_of_same ready fits rfl (stays (by decide)) le_rfl same
        (fun _ => accepted) fun passed => notResolving ?_ passed⟩
      rwa [phased false (eq_false_of_ne_true invalid)] at passed
  | other =>
    simp only [kind, Option.some.injEq] at switches accepted stays first
    rw [← switches, Phase.holds, kind]
    exact ⟨_, rfl, switches_of_same ready fits rfl (stays (by decide)) le_rfl same
      (fun _ => accepted) (first (by decide))⟩

/-- An item joins the line of its processor, and nothing else does. -/
theorem visit_gains (going : records.failed = none) (ready : Ready records)
    (tracked : Tracked platform records) (formed : records.phase.WellFormed platform item)
    (inOrder : records.phase.InOrder item) :
    ∃ after, records.visit platform handler item = some (.success, after) ∧ Bounded after ∧
      after.failed = none ∧ Tracked platform after ∧ after.phase = records.phase.next item ∧
      Ready after ∧ after.cpu = item.processor records.cpu ∧
      ∀ cpu, Follows (records.queue cpu) (after.queue cpu)
        (if item.processor records.cpu = cpu then [item.entry] else []) := by
  obtain ⟨status, after, visits, visited⟩ :=
    visit_visited handler bounded going tracked formed.proper
  obtain ⟨_, switched, switchBounded⟩ :=
    switchEvent_switched handler bounded going tracked formed.proper
  obtain ⟨middle, rfl, switches⟩ := switchEvent_switches accepting memory bounded ready
    formed.accepted (fits_of_formed bounded tracked formed) inOrder switched
  have gains : status = .success ∧ Gains item middle after := by
    have goes := visits
    rw [visit, if_pos bounded.cpu_lt, switched, Option.bind_some] at goes
    cases held : records.phase.holds item with
    | false =>
      simp only [held, Bool.false_eq_true, if_false] at goes
      rw [Option.some.injEq] at goes
      have passed := callHandler_gains handler switches.ready formed.genuine (switches.passed held)
      rw [goes] at passed
      exact ⟨(congrArg Prod.fst goes).symm.trans (callHandler_success accepting ..), passed⟩
    | true =>
      simp only [held, if_true] at goes
      obtain ⟨counted, fits⟩ := switches.held held
      have used : middle.cpu < middle.cpuCount := switchBounded.1.cpu.elim
        (fun zero => zero ▸ Nat.pos_of_ne_zero counted) id
      exact holdBack_gains memory switches.ready formed.genuine used fits goes
  obtain ⟨rfl, gains⟩ := gains
  obtain ⟨afterGoing, -, phase⟩ := visited.success rfl
  refine ⟨after, visits, visited.bounded, afterGoing, (visited.going afterGoing).1, phase,
    gains.ready,
    gains.cpu.trans switches.cpu, fun cpu => ?_⟩
  rw [← switches.queue, ← switches.cpu]
  exact gains.follows cpu

/-- The lines of the processors after a run are the items that arrived for them. -/
theorem run_follows {items : List Item} (going : records.failed = none) (ready : Ready records)
    (tracked : Tracked platform records) (drained : records.phase.Drained)
    (formed : Machine.Meets Phase.next (Phase.WellFormed platform) records.phase items)
    (inPhase : Machine.Meets Phase.next Phase.InPhase records.phase items) :
    ∃ final, Machine.run (step platform handler) records items = final ∧
      visitAll platform handler records items = some (.success, final) ∧ Bounded final ∧
      Ready final ∧ final.phase.Drained ∧
      ∀ cpu, Follows (records.queue cpu) (final.queue cpu) (arrivals cpu records.cpu items) := by
  induction items generalizing records with
  | nil =>
    exact ⟨records, rfl, rfl, bounded, ready, drained,
      fun cpu => follows_of_eq (List.append_nil _).symm⟩
  | cons item rest ih =>
    obtain ⟨after, visits, afterBounded, afterGoing, afterTracked, phase, afterReady, cpu,
      follows⟩ := visit_gains accepting memory bounded going ready tracked formed.1
        (inPhase.1.inOrder drained)
    have stepped : step platform handler records item = after := by
      rw [step, visits]
      rfl
    have next := phase ▸ drained.next inPhase.1
    rw [Machine.meets_cons, ← phase] at formed inPhase
    obtain ⟨final, runs, all, finalBounded, finalReady, finalDrained, more⟩ :=
      ih afterBounded afterGoing afterReady afterTracked next formed.2 inPhase.2
    refine ⟨final, ?_, ?_, finalBounded, finalReady, finalDrained, fun other => ?_⟩
    · rw [Machine.run_cons, stepped, runs]
    · rw [visitAll, visits, Option.bind_some, if_pos rfl, all]
    · rw [arrivals, ← cpu]
      exact (cpu ▸ follows other).trans (more other)

end

end

theorem destroyCpu_resolved (accepting : Accepting handler) (bounded : Bounded records)
    (timed : Timed records) {cpu : Nat} (small : cpu < records.cpuCount)
    (drained : (records.perCpu cpu).holdBack = false → (records.perCpu cpu).itemIndex = 0) :
    ∃ after, records.destroyCpu handler cpu = some after ∧ Bounded after ∧
      Resolved { records with cpu := cpu } after := by
  obtain ⟨after, destroys, afterBounded, -⟩ := destroyCpu_bounded handler bounded small
  refine ⟨after, destroys, afterBounded, ?_⟩
  generalize shape : ({ records with cpu := cpu } : Records) = selected
  have selectedTimed : Timed selected := by
    rw [← shape]
    exact ⟨timed.sorted, timed.last⟩
  rw [destroyCpu, if_pos (Nat.lt_of_lt_of_le small bounded.cpuCount), shape] at destroys
  simp only at destroys
  split at destroys
  next =>
    obtain ⟨calledTimed, delivers⟩ := callHandler_timed handler selectedTimed 0 unreliableTime 0
    have called := callHandler_kept handler selected 0 unreliableTime 0
    rw [Option.bind_eq_some_iff] at destroys
    obtain ⟨estimated, estimates, resolves⟩ := destroys
    rw [bestEffortUptime, Option.map_eq_some_iff] at estimates
    obtain ⟨items, -, estimates⟩ := estimates
    simp only at estimates
    generalize callHandler handler selected 0 unreliableTime 0 = told at *
    generalize (⟨_, _, 0⟩ : Uptime) = uptime at estimates
    have kept : Kept selected estimated :=
      called.trans (estimates ▸ setCurrent_kept told.2 uptime told.2.current.lastBt)
    have reported : Rearranged selected estimated := by
      refine ⟨fun other => ?_, estimates ▸ calledTimed.setCurrent (UInt64.le_refl _)⟩
      obtain ⟨_, _, same⟩ := kept.perCpu other
      rw [queue, same, ← estimates]
      change delivered told.2.calls other ++ waiting (selected.perCpu other) = _
      rw [delivers]
      simp [genuine, queue]
    rw [Option.map_eq_some_iff] at resolves
    obtain ⟨result, resolves, rfl⟩ := resolves
    have resolved := resolveHoldBack_resolved accepting reported.timed resolves
    refine ⟨reported.trans resolved.toRearranged, resolved.cpu.trans kept.cpu,
      resolved.cpuCount.trans kept.cpuCount, kept.cpu ▸ resolved.empty, fun other different => ?_⟩
    have others := resolved.others other (kept.cpu ▸ different)
    obtain ⟨_, _, same⟩ := kept.perCpu other
    rw [same] at others
    exact others
  next empty =>
    rw [← Option.some.inj destroys]
    refine ⟨⟨fun _ => rfl, selectedTimed⟩, rfl, rfl, ?_, fun _ _ => ⟨rfl, rfl⟩⟩
    rw [← shape] at empty ⊢
    cases holding : (records.perCpu cpu).holdBack with
    | false => exact drained holding
    | true => exact Nat.eq_zero_of_not_pos fun some => empty ⟨holding, some⟩

/-- The destruction passes on all items that still wait. -/
theorem destroyAll_delivers (accepting : Accepting handler) (bounded : Bounded records)
    (timed : Timed records) (drained : records.phase.Drained)
    (small : ∀ cpu ∈ cpus, cpu < records.cpuCount) :
    ∃ final, cpus.foldlM (destroyCpu handler) records = some final ∧ Rearranged records final ∧
      ∀ cpu, cpu ∈ cpus ∨ (records.perCpu cpu).itemIndex = 0 →
        (final.perCpu cpu).itemIndex = 0 := by
  induction cpus generalizing records with
  | nil =>
    exact ⟨records, rfl, ⟨fun _ => rfl, timed⟩, fun cpu empty => empty.resolve_left nofun⟩
  | cons cpu rest ih =>
    rw [List.forall_mem_cons] at small
    obtain ⟨after, destroys, afterBounded, resolved⟩ :=
      destroyCpu_resolved accepting bounded timed small.1 (drained cpu)
    have cpuCount : after.cpuCount = records.cpuCount := resolved.cpuCount
    have stillDrained : after.phase.Drained := by
      intro other idle
      rcases eq_or_ne other cpu with rfl | different
      · exact resolved.empty
      · obtain ⟨index, holdBack⟩ := resolved.others other different
        exact index.trans (drained other (holdBack.symm.trans idle))
    obtain ⟨final, destroysAll, rearranged, empty⟩ := ih afterBounded resolved.timed
      stillDrained fun other listed => cpuCount ▸ small.2 other listed
    refine ⟨final, ?_, ⟨fun other => ?_, rearranged.timed⟩, fun other cleared => empty other ?_⟩
    · rw [List.foldlM_cons, destroys]
      exact destroysAll
    · exact (rearranged.queue other).trans (resolved.queue other)
    · rcases eq_or_ne other cpu with rfl | different
      · exact .inr resolved.empty
      · rw [(resolved.others other different).1]
        exact cleared.imp_left fun listed => (List.mem_cons.1 listed).resolve_left different

theorem initialRecords_ready : Ready initialRecords :=
  ⟨⟨fun _ => List.Pairwise.nil, fun _ => nofun⟩, fun _ _ => rfl⟩

/-- If no item waits for another processor than its own and none overtakes those which wait,
every item is passed on once. -/
theorem recordRun_conserves (accepting : Accepting handler) (memory : Available platform)
    {items : List Item}
    (formed : Machine.Meets Phase.next (Phase.WellFormed platform) .start items)
    (inPhase : Machine.Meets Phase.next Phase.InPhase .start items) :
    visitAll platform handler initialRecords items =
        some (.success, Machine.run (step platform handler) initialRecords items) ∧
      ∃ final, (Machine.run (step platform handler) initialRecords items).destroy handler =
        some final ∧ ∀ cpu, Conserves items final.calls cpu := by
  obtain ⟨reached, runs, all, bounded, ready, drained, follows⟩ := run_follows accepting memory
    initialRecords_bounded rfl initialRecords_ready rfl (fun _ => nofun) formed inPhase
  rw [runs]
  obtain ⟨final, destroys, rearranged, empty⟩ := destroyAll_delivers accepting bounded
    ready.timed drained fun cpu listed => List.mem_range.1 listed
  refine ⟨all, final, destroys, fun cpu => ?_⟩
  have cleared : (final.perCpu cpu).itemIndex = 0 := by
    refine empty cpu ?_
    rw [List.mem_range]
    exact (Nat.lt_or_ge cpu reached.cpuCount).imp_right (ready.idle cpu)
  have passed : reached.queue cpu = delivered final.calls cpu := by
    rw [← rearranged.queue, queue, waiting_empty cleared, List.append_nil]
  have follows := follows cpu
  rw [passed] at follows
  exact ⟨follows.perm, follows.order, rearranged.timed.sorted cpu⟩

section Example

def headerItems : List Item := [⟨1, 10⟩, ⟨10, 1⟩, ⟨6, 2⟩]

/-- Items of both processors wait when the uptime of the first is known, and the first
overflows before that of the second is. -/
def twoProcessors : List Item :=
  headerItems ++ [⟨9, 1⟩, ⟨0x400 + 600, 7⟩, ⟨9, 0⟩, ⟨0x400 + 323, 0⟩, ⟨0x800 + 322, 1⟩,
    ⟨0xc00 + 601, 8⟩, ⟨8, 3⟩, ⟨0x1000 + 602, 9⟩, ⟨9, 1⟩, ⟨0x1400 + 323, 5⟩, ⟨0x1800 + 322, 2⟩]

theorem twoProcessors_conserved :
    ∃ final, (Machine.run (step smallMachine acceptAll) initialRecords twoProcessors).destroy
      acceptAll = some final ∧ ∀ cpu, Conserves twoProcessors final.calls cpu :=
  (recordRun_conserves (fun _ _ => rfl) (fun _ _ => rfl) (by decide +kernel) (by decide +kernel)).2

/-- The first processor knows its uptime, the second holds back: the item which returns to the
first is put where nobody looks for it. -/
def returningItems : List Item :=
  headerItems ++ [⟨0x400 + 323, 0⟩, ⟨0x800 + 322, 1⟩, ⟨9, 1⟩, ⟨9, 0⟩]

theorem returningItems_lost :
    ¬ ∀ items : List Item,
      Machine.Meets Phase.next (Phase.WellFormed smallMachine) .start items →
      ∃ final, (Machine.run (step smallMachine acceptAll) initialRecords items).destroy acceptAll =
        some final ∧ ∀ cpu, Conserves items final.calls cpu := by
  intro all
  obtain ⟨final, destroys, conserves⟩ := all returningItems (by decide +kernel)
  have calls : ((Machine.run (step smallMachine acceptAll) initialRecords returningItems).destroy
      acceptAll).map (fun final => (delivered final.calls 0).length) = some 5 := by
    decide +kernel
  rw [destroys, Option.map_some, Option.some.injEq, (conserves 0).once.length_eq] at calls
  revert calls
  decide +kernel

end Example

end Records

end RTContainer.Libtrace
