import RTContainer.Libtrace.RecordPhase

/-! When the record client stays within its arrays and divides by no zero, whatever the
stream. -/

set_option autoImplicit false

namespace RTContainer.Libtrace

open Function

variable {platform : Platform} {handler : Handler}

namespace Records

/-- The items which are held back on a processor are in its memory. After a failure this
matters only if they are still to be resolved. -/
structure InMemory (records : Records) (perCpu : PerCpu) : Prop where
  index : perCpu.itemIndex ≤ perCpu.itemCapacity
  memory : records.failed = none ∨ perCpu.holdBack = true → perCpu.itemIndex ≤ perCpu.allocated
  unsized : records.perCpuItems = 0 → perCpu.itemCapacity = 0

structure Bounded (records : Records) : Prop where
  cpuCount : records.cpuCount ≤ maximumCpuCount
  cpu : records.cpu = 0 ∨ records.cpu < records.cpuCount
  perCpu : ∀ cpu, InMemory records (records.perCpu cpu)

variable {records before after : Records} {cpu : Nat} {perCpu : PerCpu}

theorem Bounded.cpu_lt (bounded : Bounded records) : records.cpu < maximumCpuCount := by
  rcases bounded.cpu with zero | small
  · rw [zero]
    decide
  · exact Nat.lt_of_lt_of_le small bounded.cpuCount

theorem Bounded.current (bounded : Bounded records) : InMemory records records.current :=
  bounded.perCpu records.cpu

theorem Bounded.change (bounded : Bounded before) (cpuCount : after.cpuCount = before.cpuCount)
    (cpu : after.cpu = before.cpu) (perCpuItems : after.perCpuItems = before.perCpuItems)
    (failed : after.failed = none → before.failed = none)
    (perCpu : ∀ cpu, after.perCpu cpu = before.perCpu cpu ∨
      InMemory after (after.perCpu cpu)) : Bounded after where
  cpuCount := cpuCount ▸ bounded.cpuCount
  cpu := by
    rw [cpu, cpuCount]
    exact bounded.cpu
  perCpu cpu := by
    rcases perCpu cpu with same | stored
    · have stored := bounded.perCpu cpu
      rw [same]
      exact ⟨stored.index, fun open' => stored.memory (open'.imp_left failed),
        perCpuItems ▸ stored.unsized⟩
    · exact stored

theorem Bounded.setCurrent (bounded : Bounded records) (inMemory : InMemory records perCpu) :
    Bounded (records.setCurrent perCpu) := by
  refine bounded.change rfl rfl rfl id fun cpu => ?_
  rcases eq_or_ne cpu records.cpu with rfl | other
  · right
    rw [← setCurrent_current records perCpu] at inMemory
    exact ⟨inMemory.index, inMemory.memory, inMemory.unsized⟩
  · exact .inl (setCurrent_of_ne other perCpu)

theorem Bounded.kept (bounded : Bounded before) (kept : Kept before after) : Bounded after where
  cpuCount := kept.cpuCount ▸ bounded.cpuCount
  cpu := by
    rw [kept.cpu, kept.cpuCount]
    exact bounded.cpu
  perCpu cpu := by
    have stored := bounded.perCpu cpu
    obtain ⟨uptime, lastBt, same⟩ := kept.perCpu cpu
    rw [same]
    exact ⟨stored.index, kept.failed ▸ stored.memory, kept.perCpuItems ▸ stored.unsized⟩

theorem Bounded.error (bounded : Bounded records) (status : ClientStatus) :
    Bounded (records.error status).2 :=
  bounded.change rfl rfl rfl nofun fun _ => .inl rfl

/-- Every processor has got the storage which was announced. -/
structure Stocked (platform : Platform) (records : Records) : Prop where
  positive : 0 < (2 * records.perCpuItems).toNat
  counted : records.cpuCount ≠ 0
  grows : platform.Grows records.cpuCount
  requests : records.cpuCount ≤ records.requests
  stored : ∀ cpu < records.cpuCount,
    (2 * records.perCpuItems).toNat ≤ (records.perCpu cpu).itemCapacity ∧
      (records.perCpu cpu).itemCapacity ≤ (records.perCpu cpu).allocated

def Tracked (platform : Platform) (records : Records) : Prop :=
  if records.perCpuItems = 0 then records.requests = 0 else Stocked platform records

theorem Tracked.change (tracked : Tracked platform before)
    (cpuCount : after.cpuCount = before.cpuCount)
    (perCpuItems : after.perCpuItems = before.perCpuItems)
    (requests : after.requests = before.requests)
    (perCpu : ∀ cpu, (after.perCpu cpu).itemCapacity = (before.perCpu cpu).itemCapacity ∧
      (after.perCpu cpu).allocated = (before.perCpu cpu).allocated) : Tracked platform after := by
  unfold Tracked at *
  rw [perCpuItems, requests]
  split at tracked
  next => rwa [if_pos ‹_›]
  next sized =>
    rw [if_neg sized]
    refine ⟨perCpuItems ▸ tracked.positive, cpuCount ▸ tracked.counted, cpuCount ▸ tracked.grows,
      cpuCount ▸ requests ▸ tracked.requests, fun cpu small => ?_⟩
    rw [(perCpu cpu).1, (perCpu cpu).2, perCpuItems]
    exact tracked.stored cpu (cpuCount ▸ small)

theorem Tracked.kept (tracked : Tracked platform before) (kept : Kept before after) :
    Tracked platform after :=
  tracked.change kept.cpuCount kept.perCpuItems kept.requests fun cpu => by
    obtain ⟨_, _, same⟩ := kept.perCpu cpu
    rw [same]
    exact ⟨rfl, rfl⟩

theorem Tracked.setCurrent (tracked : Tracked platform records)
    (capacity : perCpu.itemCapacity = records.current.itemCapacity)
    (allocated : perCpu.allocated = records.current.allocated) :
    Tracked platform (records.setCurrent perCpu) :=
  tracked.change rfl rfl rfl fun cpu => by
    rcases eq_or_ne cpu records.cpu with rfl | other
    · rw [show (records.setCurrent perCpu).perCpu records.cpu = perCpu from update_self ..]
      exact ⟨capacity, allocated⟩
    · rw [setCurrent_of_ne other]
      exact ⟨rfl, rfl⟩

/-- While the client goes on it has what the items have announced. -/
structure Keeps (platform : Platform) (announced : Announced) (records : Records) : Prop where
  bounded : Bounded records
  going : records.failed = none → Tracked platform records ∧ records.phase.toAnnounced = announced

theorem Bounded.refuses (bounded : Bounded records) (announced : Announced)
    (status : ClientStatus) : Keeps platform announced (records.error status).2 :=
  ⟨bounded.error status, nofun⟩

theorem heldItems_inMemory (inMemory : InMemory records perCpu) (holding : perCpu.holdBack = true) :
    heldItems perCpu = some ((List.range perCpu.itemIndex).map perCpu.items) :=
  if_pos (inMemory.memory (.inr holding))

theorem resolveHoldBack_bounded (platform : Platform) (handler : Handler)
    (bounded : Bounded records) (holding : records.current.holdBack = true) :
    ∃ status after, records.resolveHoldBack handler = some (status, after) ∧ Bounded after ∧
      after.failed = records.failed ∧ after.phase.toAnnounced = records.phase.toAnnounced ∧
      (Tracked platform records → Tracked platform after) ∧
      (status = .success → after.phase = { records.phase with
        holding := update records.phase.holding records.cpu false
        waiting := update records.phase.waiting records.cpu 0 }) := by
  rw [resolveHoldBack, heldItems_inMemory bounded.current holding]
  simp only
  generalize (List.range records.current.itemIndex).map records.current.items = items
  generalize (⟨_, _, 0⟩ : Uptime) = uptime
  have kept := (setCurrent_kept records uptime records.current.lastBt).trans
    (callHeld_kept handler _ items)
  have called := bounded.kept kept
  generalize callHeld handler (records.setCurrent _) items = result at *
  have phase := kept.phase
  have announced : result.2.phase.toAnnounced = records.phase.toAnnounced := by rw [phase]
  have lowValid : result.2.current.uptimeLowValid = records.phase.lowValid records.cpu := by
    rw [← phase, ← kept.cpu]
    rfl
  split
  · refine ⟨_, _, rfl, called.setCurrent ?_, kept.failed, announced,
      fun tracked => (tracked.kept kept).setCurrent rfl rfl, fun _ => ?_⟩
    · exact ⟨Nat.zero_le _, fun _ => Nat.zero_le _, called.current.unsized⟩
    · rw [setCurrent_phase, phase, kept.cpu]
      simp only [lowValid, update_eq_self]
  next failed =>
    exact ⟨_, _, rfl, called, kept.failed, announced, fun tracked => tracked.kept kept,
      fun success => absurd success failed⟩

theorem bestEffortUptime_bounded (bounded : Bounded records)
    (holding : records.current.holdBack = true) :
    ∃ after, records.bestEffortUptime = some after ∧ Bounded after ∧
      after.current.holdBack = true ∧ after.cpuCount = records.cpuCount := by
  rw [bestEffortUptime, heldItems_inMemory bounded.current holding, Option.map_some]
  refine ⟨_, rfl, bounded.kept (setCurrent_kept records _ records.current.lastBt), ?_, rfl⟩
  rw [setCurrent_current]
  exact holding

theorem destroyCpu_bounded (handler : Handler) (bounded : Bounded records)
    (small : cpu < records.cpuCount) :
    ∃ after, records.destroyCpu handler cpu = some after ∧ Bounded after ∧
      after.cpuCount = records.cpuCount := by
  have selected : Bounded { records with cpu := cpu } :=
    ⟨bounded.cpuCount, .inr small, fun other =>
      have stored := bounded.perCpu other
      ⟨stored.index, stored.memory, stored.unsized⟩⟩
  rw [destroyCpu, if_pos (Nat.lt_of_lt_of_le small bounded.cpuCount)]
  simp only
  split
  next holding =>
    have kept := callHandler_kept handler { records with cpu := cpu } 0 unreliableTime 0
    have stillHolding : (callHandler handler { records with cpu := cpu } 0 unreliableTime
        0).2.current.holdBack = true := by
      obtain ⟨uptime, lastBt, same⟩ := kept.perCpu cpu
      rw [current, kept.cpu, same]
      exact holding.1
    obtain ⟨timed, times, timedBounded, timedHolding, timedCount⟩ :=
      bestEffortUptime_bounded (selected.kept kept) stillHolding
    obtain ⟨status, after, resolves, afterBounded, -, announced, -⟩ :=
      resolveHoldBack_bounded ⟨.little, 0, fun _ _ => true⟩ handler timedBounded timedHolding
    have afterCount : after.cpuCount = timed.cpuCount := congrArg Announced.cpus announced
    refine ⟨after, ?_, afterBounded, afterCount.trans (timedCount.trans kept.cpuCount)⟩
    rw [times, Option.bind_some, resolves, Option.map_some]
  next => exact ⟨_, rfl, selected, rfl⟩

theorem destroy_bounded (handler : Handler) (bounded : Bounded records) :
    (records.destroy handler).isSome := by
  have steps : ∀ cpus : List Nat, ∀ current : Records, Bounded current →
      (∀ cpu ∈ cpus, cpu < current.cpuCount) →
      (cpus.foldlM (destroyCpu handler) current).isSome := by
    intro cpus
    induction cpus with
    | nil => exact fun _ _ _ => rfl
    | cons cpu rest ih =>
      intro current bounded small
      rw [List.forall_mem_cons] at small
      obtain ⟨after, destroys, afterBounded, afterCount⟩ :=
        destroyCpu_bounded handler bounded small.1
      rw [List.foldlM_cons, destroys]
      exact ih after afterBounded fun cpu listed => afterCount ▸ small.2 cpu listed
  exact steps _ records bounded fun cpu listed => List.mem_range.1 listed

def Processed (item : Item) (after : Records) : Prop :=
  (∃ bt, after.calls.getLast? = some ⟨bt, after.cpu, getEvent item.event, item.data⟩) ∨
    (0 < after.current.itemIndex ∧ after.current.items (after.current.itemIndex - 1) = item)

theorem processed_callHandler (handler : Handler) (records : Records) (item : Item) :
    Processed item (records.callHandler handler (getTime item.event) (getEvent item.event)
      item.data).2 := by
  have kept := callHandler_kept handler records (getTime item.event) (getEvent item.event) item.data
  rw [Processed, kept.cpu]
  exact .inl ⟨_, List.getLast?_concat ..⟩

/-- The item waits with those of the current processor. -/
structure Stores (platform : Platform) (item : Item) (before after : Records) : Prop where
  bounded : Bounded after
  going : after.failed = none
  processed : Processed item after
  tracked : Tracked platform after
  phase : after.phase = before.phase.wait true

theorem storeItem_stores (bounded : Bounded records) (going : records.failed = none)
    (tracked : Tracked platform records)
    (room : records.current.itemIndex < records.current.allocated)
    (place : records.current.itemIndex < records.current.itemCapacity) (item : Item) :
    ∃ after, records.storeItem item = some (.success, after) ∧
      Stores platform item records after := by
  rw [storeItem, if_pos room]
  refine ⟨_, rfl, bounded.setCurrent ⟨place, fun _ => room, bounded.current.unsized⟩, going,
    .inr ?_, tracked.setCurrent rfl rfl, ?_⟩
  · rw [setCurrent_current]
    exact ⟨Nat.succ_pos _, update_self ..⟩
  · rw [setCurrent_phase]
    simp only [phase, current, update_eq_self, Phase.wait, if_true]

theorem reallocItems_setCurrent (platform : Platform) (records : Records) (perCpu : PerCpu)
    (capacity : Nat) :
    (records.setCurrent perCpu).reallocItems platform (records.setCurrent perCpu).cpu capacity =
      (platform.granted records.requests (storageBytes platform capacity),
        { records.setCurrent { perCpu with
            allocated := if platform.granted records.requests (storageBytes platform capacity)
              then storageBytes platform capacity / itemSize else 0 } with
          requests := records.requests + 1 }) := by
  have updated : (records.setCurrent perCpu).perCpu (records.setCurrent perCpu).cpu = perCpu :=
    setCurrent_current records perCpu
  rw [reallocItems, updated]
  simp only [setCurrent, update_idem]
  rfl

theorem Stocked.current (stocked : Stocked platform records) (bounded : Bounded records) :
    (2 * records.perCpuItems).toNat ≤ records.current.itemCapacity ∧
      records.current.itemCapacity ≤ records.current.allocated :=
  stocked.stored records.cpu <|
    bounded.cpu.elim (fun zero => zero ▸ Nat.pos_of_ne_zero stocked.counted) id

/-- The storage is full and grows. -/
theorem grow_stores (bounded : Bounded records) (going : records.failed = none)
    (stocked : Stocked platform records)
    (full : records.current.itemCapacity ≤ records.current.itemIndex)
    (below : records.current.itemIndex < holdBackReallocationLimit) (item : Item) :
    ∃ after, ({ records.setCurrent { records.current with
        itemCapacity := 2 * records.current.itemIndex
        allocated := storageBytes platform (2 * records.current.itemIndex) / itemSize } with
          requests := records.requests + 1 } : Records).storeItem item = some (.success, after) ∧
      Stores platform item records after := by
  have index := Nat.le_antisymm bounded.current.index full
  have announced := stocked.current bounded
  have positive := stocked.positive
  have sized : records.perCpuItems ≠ 0 := fun zero => by
    rw [zero] at positive
    cases positive
  have wide : 2 * records.current.itemIndex * itemSize < 2 ^ platform.sizeBits :=
    Nat.lt_of_lt_of_le (by unfold itemSize; omega) stocked.grows.wide
  rw [storageBytes, Nat.mod_eq_of_lt wide, Nat.mul_div_cancel _ (by decide)]
  obtain ⟨perCpu, shape⟩ : ∃ perCpu : PerCpu, perCpu = { records.current with
    itemCapacity := 2 * records.current.itemIndex
    allocated := 2 * records.current.itemIndex } := ⟨_, rfl⟩
  have phase : (records.setCurrent perCpu).phase = records.phase := by
    rw [shape]
    exact setCurrent_samePhase rfl rfl rfl
  have place : perCpu.itemIndex < 2 * records.current.itemIndex := by
    rw [shape]
    change records.current.itemIndex < _
    omega
  have capacity : perCpu.itemCapacity = 2 * records.current.itemIndex := by rw [shape]
  have allocated : perCpu.allocated = 2 * records.current.itemIndex := by rw [shape]
  rw [← shape]
  obtain ⟨grown, grows⟩ : ∃ grown : Records, grown = { records.setCurrent perCpu with
    requests := records.requests + 1 } := ⟨_, rfl⟩
  have current : grown.current = perCpu := by
    rw [grows]
    exact setCurrent_current records perCpu
  have perCpus (cpu : Nat) : grown.perCpu cpu =
      if cpu = records.cpu then perCpu else records.perCpu cpu := by
    rw [grows]
    exact update_apply ..
  have grownBounded : Bounded grown := by
    refine bounded.change (by rw [grows]; rfl) (by rw [grows]; rfl) (by rw [grows]; rfl)
      (fun _ => going) fun cpu => ?_
    rw [perCpus]
    split
    · exact .inr ⟨capacity ▸ Nat.le_of_lt place, fun _ => allocated ▸ Nat.le_of_lt place,
        fun zero => absurd (by rwa [grows] at zero) sized⟩
    · exact .inl rfl
  have tracked : Tracked platform grown := by
    rw [Tracked, if_neg (by rw [grows]; exact sized)]
    refine ⟨by rw [grows]; exact positive, by rw [grows]; exact stocked.counted,
      by rw [grows]; exact stocked.grows, ?_, fun cpu small => ?_⟩
    · rw [grows]
      exact Nat.le_succ_of_le stocked.requests
    · rw [grows] at small
      have before := stocked.stored cpu small
      rw [perCpus, show grown.perCpuItems = records.perCpuItems by rw [grows]; rfl]
      split
      · rw [capacity, allocated]
        omega
      · exact before
  rw [← grows]
  obtain ⟨after, stores, stored⟩ := storeItem_stores grownBounded (by rw [grows]; exact going)
    tracked (by rw [current, allocated]; exact place) (by rw [current, capacity]; exact place) item
  refine ⟨after, stores, stored.bounded, stored.going, stored.processed, stored.tracked,
    stored.phase.trans (congrArg (Phase.wait · true) ?_)⟩
  rw [grows]
  exact phase

theorem holdBack_stores (bounded : Bounded records) (going : records.failed = none)
    (tracked : Tracked platform records)
    (stores : records.perCpuItems = 0 → platform.granted 0 0 = false) (item : Item) :
    ∃ status after, records.holdBack platform item = some (status, after) ∧ Bounded after ∧
      (after.failed = none → status = .success ∧ Stores platform item records after) ∧
      (status = .success → after.failed = none) := by
  have stored := bounded.current
  rw [holdBack]
  rw [Tracked] at tracked
  simp only
  split at tracked
  next unset =>
    have capacity := stored.unsized unset
    have empty : records.current.itemIndex = 0 := Nat.le_zero.1 (capacity ▸ stored.index)
    rw [if_pos (capacity ▸ Nat.zero_le _), empty, if_neg (by decide), reallocItems_setCurrent]
    simp only [storageBytes, tracked, Nat.mul_zero, Nat.zero_mul, Nat.zero_mod, stores unset]
    exact ⟨_, _, rfl, (bounded.setCurrent ⟨le_rfl, fun _ => Nat.zero_le _, fun _ => rfl⟩).change
      rfl rfl rfl (by simp) fun _ => .inl rfl, by simp, by simp⟩
  next sized =>
    have announced := tracked.current bounded
    rcases Nat.lt_or_ge records.current.itemIndex records.current.itemCapacity with place | full
    · rw [if_neg (Nat.not_le_of_lt place)]
      obtain ⟨after, stores, stored⟩ := storeItem_stores bounded going
        (by rwa [Tracked, if_neg sized]) (Nat.lt_of_lt_of_le place announced.2) place item
      exact ⟨_, after, stores, stored.bounded, fun _ => ⟨rfl, stored⟩, fun _ => stored.going⟩
    · rw [if_pos full]
      split
      · exact ⟨_, _, rfl, bounded.error _, by simp, by simp⟩
      next below =>
        obtain ⟨after, stores, stored⟩ :=
          grow_stores bounded going tracked full (Nat.lt_of_not_le below) item
        have granted := tracked.grows.granted records.requests
          (storageBytes platform (2 * records.current.itemIndex)) tracked.requests
        rw [reallocItems_setCurrent]
        simp only [granted, if_true]
        exact ⟨_, after, stores, stored.bounded, fun _ => ⟨rfl, stored⟩, fun _ => stored.going⟩

/-- Every processor of the list has got storage for `capacity` items. -/
structure AllGrown (platform : Platform) (capacity : Nat) (cpus : List Nat)
    (before after : Records) : Prop where
  others : after = { before with perCpu := after.perCpu, requests := after.requests }
  requests : after.requests = before.requests + cpus.length
  granted : ∀ count < cpus.length,
    platform.granted (before.requests + count) (storageBytes platform capacity) = true
  perCpu : ∀ cpu, after.perCpu cpu = if cpu ∈ cpus then
      { before.perCpu cpu with
        allocated := storageBytes platform capacity / itemSize
        itemCapacity := capacity }
    else before.perCpu cpu

theorem reallocAll_bounded {capacity : Nat} {cpus : List Nat} (bounded : Bounded records)
    (empty : ∀ cpu, (records.perCpu cpu).itemIndex = 0)
    (sized : records.perCpuItems = 0 → capacity = 0)
    (small : ∀ cpu ∈ cpus, cpu < records.cpuCount) :
    ∃ status after, reallocAll platform capacity records cpus = some (status, after) ∧
      Bounded after ∧ (status = .success → AllGrown platform capacity cpus records after) ∧
      (after.failed = none → status = .success) := by
  induction cpus generalizing records with
  | nil =>
    exact ⟨_, records, rfl, bounded, fun _ => ⟨rfl, rfl, by simp, fun _ => rfl⟩, fun _ => rfl⟩
  | cons cpu rest ih =>
    rw [List.forall_mem_cons] at small
    rw [reallocAll, if_pos (Nat.lt_of_lt_of_le small.1 bounded.cpuCount)]
    simp only [reallocItems, update_self, update_idem]
    split
    next granted =>
      generalize shape : ({ records with perCpu := _, requests := _ } : Records) = grown
      have perCpu : ∀ other, grown.perCpu other = if other = cpu then
          { records.perCpu cpu with
            allocated := storageBytes platform capacity / itemSize
            itemCapacity := capacity }
          else records.perCpu other := by
        intro other
        rw [← shape]
        exact (update_apply ..)
      have cpuCount : grown.cpuCount = records.cpuCount := by rw [← shape]
      have perCpuItems : grown.perCpuItems = records.perCpuItems := by rw [← shape]
      have stillEmpty : ∀ other, (grown.perCpu other).itemIndex = 0 := by
        intro other
        rw [perCpu]
        split
        · exact empty cpu
        · exact empty other
      have grownBounded : Bounded grown := by
        refine bounded.change cpuCount (by rw [← shape]) perCpuItems
          (fun open' => by rw [← shape] at open'; exact open') fun other => ?_
        by_cases same : other = cpu
        · refine .inr ⟨?_, fun _ => ?_, fun zero => ?_⟩
          · rw [stillEmpty]
            exact Nat.zero_le _
          · rw [stillEmpty]
            exact Nat.zero_le _
          · rw [perCpu, if_pos same]
            exact sized (perCpuItems ▸ zero)
        · exact .inl (by rw [perCpu, if_neg same])
      obtain ⟨status, after, runs, afterBounded, success, halts⟩ := ih grownBounded stillEmpty
        (perCpuItems ▸ sized) (fun other listed => cpuCount ▸ small.2 other listed)
      refine ⟨status, after, runs, afterBounded, fun succeeded => ?_, halts⟩
      have all := success succeeded
      have requests : grown.requests = records.requests + 1 := by rw [← shape]
      refine ⟨all.others.trans (by rw [← shape]), ?_, ?_, ?_⟩
      · rw [all.requests, requests, List.length_cons]
        omega
      · intro count listed
        rcases count with _ | count
        · exact granted
        · have next := all.granted count (Nat.lt_of_succ_lt_succ listed)
          rw [requests, Nat.add_right_comm] at next
          exact next
      · intro other
        rw [all.perCpu, perCpu]
        by_cases same : other = cpu
        · rw [if_pos same, if_pos (List.mem_cons.2 (.inl same)), same]
          split <;> rfl
        · rw [if_neg same]
          simp only [List.mem_cons, same, false_or]
    next refused =>
      refine ⟨_, _, rfl, bounded.change rfl rfl rfl (by simp) fun other => ?_, by simp, by simp⟩
      rcases eq_or_ne other cpu with rfl | different
      · right
        simp only [update_self]
        have stored := bounded.perCpu other
        exact ⟨stored.index, fun _ => Nat.le_of_eq (empty other), stored.unsized⟩
      · exact .inl (update_of_ne different ..)

theorem processPerCpuCount_bounded (platform : Platform) (bounded : Bounded records)
    (data : UInt64) :
    ∃ status after, records.processPerCpuCount platform data = some (status, after) ∧
      Bounded after ∧ (status = .success → records.perCpuItems = 0 ∧
        AllGrown platform (perCpuCapacity data) (List.range records.cpuCount)
          { records with perCpuItems := data.toUInt32 } after ∧ records.cpuCount ≠ 0) ∧
      (after.failed = none → status = .success) := by
  rw [processPerCpuCount]
  split
  · exact ⟨_, _, rfl, bounded.error _, by simp, by simp⟩
  next unset =>
    rw [not_not] at unset
    split
    · exact ⟨_, _, rfl, bounded.error _, by simp, by simp⟩
    next counted =>
      have capacity : ∀ cpu, (records.perCpu cpu).itemCapacity = 0 :=
        fun cpu => (bounded.perCpu cpu).unsized unset
      have empty : ∀ cpu, (records.perCpu cpu).itemIndex = 0 := fun cpu =>
        Nat.le_zero.1 (capacity cpu ▸ (bounded.perCpu cpu).index)
      have started : Bounded { records with perCpuItems := data.toUInt32 } :=
        ⟨bounded.cpuCount, bounded.cpu, fun cpu =>
          ⟨(bounded.perCpu cpu).index, (bounded.perCpu cpu).memory, fun _ => capacity cpu⟩⟩
      have sized : data.toUInt32 = 0 → perCpuCapacity data = 0 := by
        intro zero
        rw [perCpuCapacity, zero]
        rfl
      obtain ⟨status, after, runs, afterBounded, success, halts⟩ :=
        reallocAll_bounded started empty sized fun cpu listed => List.mem_range.1 listed
      exact ⟨status, after, runs, afterBounded, fun succeeded =>
        ⟨unset, success succeeded, counted⟩, halts⟩

theorem reallocAll_phase {capacity : Nat} {cpus : List Nat}
    (grown : AllGrown platform capacity cpus records after) : after.phase = records.phase := by
  rw [grown.others, phase, phase, Phase.mk.injEq]
  refine ⟨rfl, rfl, funext fun cpu => ?_, funext fun cpu => ?_, funext fun cpu => ?_⟩ <;>
  · simp only [grown.perCpu]
    split <;> rfl

theorem processPerCpuCount_tracked {data : UInt64} (fresh : records.requests = 0)
    (counted : records.cpuCount ≠ 0)
    (grown : AllGrown platform (perCpuCapacity data) (List.range records.cpuCount)
      { records with perCpuItems := data.toUInt32 } after)
    (proper : (∃ cpu < records.cpuCount,
      platform.granted cpu (storageBytes platform (perCpuCapacity data)) = false) ∨
      0 < perCpuCapacity data ∧ perCpuCapacity data * itemSize < 2 ^ platform.sizeBits ∧
        platform.Grows records.cpuCount) : Tracked platform after := by
  rcases proper with ⟨cpu, small, refused⟩ | ⟨positive, sized, grows⟩
  · have granted := grown.granted cpu (by rwa [List.length_range])
    simp only [fresh, Nat.zero_add, refused] at granted
    cases granted
  · have perCpuItems : after.perCpuItems = data.toUInt32 := by rw [grown.others]
    have cpuCount : after.cpuCount = records.cpuCount := by rw [grown.others]
    have announced : data.toUInt32 ≠ 0 := fun zero => by
      rw [perCpuCapacity, zero] at positive
      cases positive
    rw [Tracked, if_neg (perCpuItems ▸ announced)]
    refine ⟨perCpuItems ▸ positive, cpuCount ▸ counted, cpuCount ▸ grows, ?_, fun cpu small => ?_⟩
    · rw [grown.requests, cpuCount, List.length_range]
      exact Nat.le_add_left ..
    · rw [grown.perCpu, if_pos (List.mem_range.2 (cpuCount ▸ small)), perCpuItems, storageBytes,
        Nat.mod_eq_of_lt sized, Nat.mul_div_cancel _ (by decide)]
      exact ⟨le_rfl, le_rfl⟩

/-- The switch returns, or goes on with a client which has what the item says. -/
def Switched (platform : Platform) (records : Records) (item : Item) :
    Except (ClientStatus × Records) (Records × Bool) → Prop
  | .error (status, after) =>
    status ≠ .success ∧ Keeps platform (records.phase.toAnnounced.next item) after
  | .ok (after, holds) => Bounded after ∧ after.failed = none ∧ Tracked platform after ∧
      after.phase.wait holds = records.phase.next item ∧
      (holds = true → after.perCpuItems = 0 → platform.granted 0 0 = false)

theorem switchEvent_switched (handler : Handler) (bounded : Bounded records)
    (going : records.failed = none) (tracked : Tracked platform records) {item : Item}
    (proper : records.phase.toAnnounced.Proper platform item) :
    ∃ switched, records.switchEvent platform handler item = some switched ∧
      Switched platform records item switched := by
  have stored := bounded.current
  rw [switchEvent]
  rw [Announced.Proper] at proper
  cases kind : eventKind (getEvent item.event) with
  | version =>
    simp only
    split
    · exact ⟨_, rfl, by decide, bounded.refuses _ _⟩
    · refine ⟨_, rfl, bounded, going, tracked, ?_, by simp⟩
      simp [Phase.next, Announced.next, kind, Phase.wait]
  | frequency =>
    simp only [kind] at proper ⊢
    rw [setToBtScaler, if_neg proper.1, Option.map_some]
    refine ⟨_, rfl, bounded.change rfl rfl rfl id fun _ => .inl rfl, going,
      tracked.change rfl rfl rfl fun _ => ⟨rfl, rfl⟩, ?_, fun _ => proper.2⟩
    simp only [Phase.next, Announced.next, kind]
    rfl
  | perCpuCount =>
    simp only [kind] at proper ⊢
    obtain ⟨status, after, processed, afterBounded, success, halts⟩ :=
      processPerCpuCount_bounded platform bounded item.data
    rw [processed, Option.map_some]
    by_cases succeeded : status = .success
    · obtain ⟨unset, grown, counted⟩ := success succeeded
      rw [Tracked, if_pos unset] at tracked
      have afterTracked :=
        processPerCpuCount_tracked tracked counted grown (proper unset counted)
      simp only [succeeded, if_true]
      refine ⟨_, rfl, afterBounded, (congrArg failed grown.others).trans going, afterTracked, ?_,
        fun _ zero => ?_⟩
      · rw [reallocAll_phase grown]
        simp only [Phase.next, Announced.next, kind]
        rfl
      · rw [Tracked, if_pos zero] at afterTracked
        rw [grown.requests, List.length_range] at afterTracked
        exact absurd (Nat.le_zero.1 (afterTracked ▸ Nat.le_add_left ..)) counted
    · simp only [succeeded, if_false]
      exact ⟨_, rfl, succeeded, afterBounded, fun still => absurd (halts still) succeeded⟩
  | perCpuOverflow =>
    simp only [kind] at proper ⊢
    refine ⟨_, rfl, bounded.setCurrent ⟨stored.index, fun _ => stored.memory (.inl going),
      stored.unsized⟩, going, tracked.setCurrent rfl rfl, ?_, fun _ => proper⟩
    rw [setCurrent_phase]
    simp only [Phase.next, Announced.next, kind, phase, current, update_eq_self]
  | processor =>
    simp only [kind] at proper ⊢
    split
    · exact ⟨_, rfl, by decide, bounded.refuses _ _⟩
    next supported =>
      have small := Nat.lt_of_not_le supported
      rw [if_pos (Nat.lt_of_lt_of_le small bounded.cpuCount)]
      refine ⟨_, rfl, ⟨bounded.cpuCount, .inr small, fun cpu => ?_⟩, going,
        tracked.change rfl rfl rfl fun _ => ⟨rfl, rfl⟩, ?_, fun _ => proper small⟩
      · have other := bounded.perCpu cpu
        exact ⟨other.index, other.memory, other.unsized⟩
      · simp only [Phase.next, Announced.next, kind]
        rfl
  | processorMaximum =>
    simp only
    split
    · exact ⟨_, rfl, by decide, bounded.refuses _ _⟩
    next supported =>
      split
      · exact ⟨_, rfl, by decide, bounded.refuses _ _⟩
      next unset =>
        rw [not_not] at unset
        have cpu : records.cpu = 0 := bounded.cpu.elim id fun small => by omega
        refine ⟨_, rfl, ⟨Nat.lt_of_not_le supported, .inl cpu, fun cpu => ?_⟩, going, ?_, ?_,
          by simp⟩
        · have other := bounded.perCpu cpu
          exact ⟨other.index, other.memory, other.unsized⟩
        · unfold Tracked at *
          split at tracked
          next fresh => rwa [if_pos fresh]
          next => exact absurd unset tracked.counted
        · simp [Phase.next, Announced.next, kind, Phase.wait, phase]
  | uptimeHigh =>
    simp only [kind] at proper ⊢
    split
    next valid =>
      generalize (⟨_, _, 0⟩ : Uptime) = uptime
      have timed : Bounded (records.setCurrent
          { records.current with uptime := uptime, uptimeLowValid := false }) :=
        bounded.setCurrent ⟨stored.index, stored.memory, stored.unsized⟩
      have timedTracked : Tracked platform (records.setCurrent
          { records.current with uptime := uptime, uptimeLowValid := false }) :=
        tracked.setCurrent rfl rfl
      have phased : (records.setCurrent
          { records.current with uptime := uptime, uptimeLowValid := false }).phase =
          { records.phase with lowValid := update records.phase.lowValid records.cpu false } := by
        rw [setCurrent_phase]
        simp only [phase, current, update_eq_self]
      have next : records.phase.next item = { records.phase with
          lowValid := update records.phase.lowValid records.cpu false
          holding := update records.phase.holding records.cpu false
          waiting := if records.current.holdBack = true then
            update records.phase.waiting records.cpu 0 else records.phase.waiting } := by
        simp only [Phase.next, Announced.next, kind]
        exact if_pos valid
      split
      next holding =>
        obtain ⟨status, after, resolves, afterBounded, failed, announced, keeps, resolved⟩ :=
          resolveHoldBack_bounded platform handler timed (by rwa [setCurrent_current])
        rw [resolves, Option.map_some]
        by_cases succeeded : status = .success
        · simp only [succeeded, if_true]
          refine ⟨_, rfl, afterBounded, failed.trans going, keeps timedTracked, ?_, by simp⟩
          rw [resolved succeeded, phased, next, if_pos holding]
          rfl
        · simp only [succeeded, if_false]
          refine ⟨_, rfl, succeeded, afterBounded, fun _ => ⟨keeps timedTracked, ?_⟩⟩
          rw [announced, Announced.next, kind]
          rfl
      next idle =>
        have same : update records.phase.holding records.cpu false = records.phase.holding :=
          update_eq_self_iff.2 (eq_false_of_ne_true idle).symm
        refine ⟨_, rfl, timed, going, timedTracked, ?_, by simp⟩
        rw [next, if_neg idle, same]
        exact phased
    next invalid =>
      refine ⟨_, rfl, bounded, going, tracked, ?_, fun _ => proper⟩
      simp only [Phase.next, Announced.next, kind]
      exact (if_neg invalid).symm
  | uptimeLow =>
    simp only [kind] at proper ⊢
    refine ⟨_, rfl, bounded.setCurrent ⟨stored.index, stored.memory, stored.unsized⟩, going,
      tracked.setCurrent rfl rfl, ?_, fun _ => proper⟩
    rw [setCurrent_phase]
    simp only [Phase.next, Announced.next, kind, phase, current, update_eq_self]
  | other =>
    simp only [kind] at proper ⊢
    refine ⟨_, rfl, bounded, going, tracked, ?_, fun _ => proper⟩
    simp only [Phase.next, Announced.next, kind]
    rfl

structure Visited (platform : Platform) (item : Item) (before : Records) (status : ClientStatus)
    (after : Records) : Prop extends
    Keeps platform (before.phase.toAnnounced.next item) after where
  success : status = .success → after.failed = none ∧ Processed item after ∧
    after.phase = before.phase.next item

theorem visit_visited (handler : Handler) (bounded : Bounded records)
    (going : records.failed = none) (tracked : Tracked platform records) {item : Item}
    (proper : records.phase.toAnnounced.Proper platform item) :
    ∃ status after, records.visit platform handler item = some (status, after) ∧
      Visited platform item records status after := by
  obtain ⟨switched, switches, safe⟩ := switchEvent_switched handler bounded going tracked proper
  rw [visit, if_pos bounded.cpu_lt, switches, Option.bind_some]
  rcases switched with ⟨status, after⟩ | ⟨middle, holds⟩
  · exact ⟨status, after, rfl, safe.2, fun success => absurd success safe.1⟩
  · obtain ⟨middleBounded, middleGoing, middleTracked, phase, stores⟩ := safe
    simp only
    split
    next held =>
      obtain ⟨status, after, stored, afterBounded, still, success⟩ :=
        holdBack_stores middleBounded middleGoing middleTracked (stores held) item
      have wait (stored : Stores platform item middle after) :
          after.phase = records.phase.next item := by
        rw [stored.phase, ← phase, held]
      refine ⟨status, after, stored, ⟨afterBounded, fun open' => ?_⟩, fun succeeded => ?_⟩
      · have stored := (still open').2
        exact ⟨stored.tracked, by rw [wait stored, Phase.next_announced]⟩
      · have stored := (still (success succeeded)).2
        exact ⟨stored.going, stored.processed, wait stored⟩
    next passed =>
      have kept := callHandler_kept handler middle (getTime item.event) (getEvent item.event)
        item.data
      rw [eq_false_of_ne_true passed] at phase
      have phase := kept.phase.trans phase
      refine ⟨_, _, rfl, ⟨middleBounded.kept kept, fun _ => ⟨middleTracked.kept kept, ?_⟩⟩,
        fun _ => ⟨kept.failed.trans middleGoing, processed_callHandler handler middle item, phase⟩⟩
      exact (congrArg Phase.toAnnounced phase).trans (Phase.next_announced ..)

end Records

/-- The item which a consumer finds in a unit, unless it expects the header. -/
def Client.item (platform : Platform) (client : Client) (unit : List UInt8) : Option Item :=
  let event := platform.order.load (unit.take 4)
  let data := platform.order.load (unit.drop 4)
  match client.consume with
  | .consumeInit => none
  | .consume32 => some ⟨UInt32.ofNat event, UInt64.ofNat data⟩
  | .consume64 => some ⟨UInt32.ofNat event, UInt64.ofNat data⟩
  | .consumeSwap32 => some ⟨UInt32.ofNat (bswap 4 event), UInt64.ofNat (bswap 4 data)⟩
  | .consumeSwap64 => some ⟨UInt32.ofNat (bswap 4 event), UInt64.ofNat (bswap 8 data)⟩

theorem Client.deliver_item (client : Client) (unit : List UInt8) :
    client.deliver platform handler unit =
      match client.item platform unit with
      | none => some (client.readHeader platform unit)
      | some item => (client.records.visit platform handler item).map fun visited =>
        (visited.1, { client with records := visited.2 }) := by
  obtain ⟨records, consumer⟩ := client
  cases consumer <;> rfl

theorem Client.readHeader_records (platform : Platform) (client : Client) (header : List UInt8) :
    ((client.readHeader platform header).2.records = client.records ∧
      (client.readHeader platform header).1 = .success) ∨
      ∃ status ≠ .success, (client.readHeader platform header).1 = status ∧
        (client.readHeader platform header).2.records = (client.records.error status).2 := by
  rw [Client.readHeader]
  split
  · exact .inr ⟨.unknownFormat, by decide, rfl, rfl⟩
  next consumer swapped _ =>
    simp only
    generalize (if swapped then _ else _ : Nat) = magic
    split
    · exact .inr ⟨.invalidMagic, by decide, rfl, rfl⟩
    · exact .inl ⟨rfl, rfl⟩

theorem Records.Keeps.visit {announced : Announced} {records : Records} {item : Item}
    (holds : Records.Keeps platform announced records) (going : records.failed = none)
    (proper : announced.Proper platform item) (handler : Handler) :
    ∃ status after, records.visit platform handler item = some (status, after) ∧
      Records.Visited platform item records status after := by
  obtain ⟨tracked, rfl⟩ := holds.going going
  exact Records.visit_visited handler holds.bounded going tracked proper

theorem recordReader_preserves : Reassembly.Preserves (recordReader platform handler)
    (fun announced visit => (visit.1.item platform visit.2).elim announced announced.next)
    (fun announced client => Records.Keeps platform announced client.records)
    (fun announced visit => ∀ item, visit.1.item platform visit.2 = some item →
      announced.Proper platform item) := by
  intro announced client unit going holds proper
  change ∃ status after, client.deliver platform handler unit = some (status, after) ∧ _
  rw [Client.deliver_item]
  cases found : client.item platform unit with
  | none =>
    refine ⟨(client.readHeader platform unit).1, (client.readHeader platform unit).2, rfl, ?_⟩
    change Records.Keeps platform ((client.item platform unit).elim announced announced.next)
      (client.readHeader platform unit).2.records ∧ _
    rcases client.readHeader_records platform unit with same | ⟨status, failed, returned, halted⟩
    · rw [found, same.1]
      exact ⟨holds, fun _ => (congrArg Records.failed same.1).trans going⟩
    · rw [found, halted]
      exact ⟨holds.bounded.refuses _ _, fun success => absurd (returned.symm.trans success) failed⟩
  | some item =>
    obtain ⟨status, after, visits, visited⟩ := holds.visit going (proper item found) handler
    simp only [visits, Option.map_some]
    refine ⟨_, _, rfl, ?_, fun succeeded => (visited.success succeeded).1⟩
    rw [found]
    exact (holds.going going).2 ▸ visited.toKeeps

theorem initialRecords_bounded : initialRecords.Bounded where
  cpuCount := Nat.zero_le _
  cpu := .inl rfl
  perCpu _ := ⟨Nat.le_refl _, fun _ => Nat.le_refl _, fun _ => rfl⟩

/-- The items of a stream up to the first which ends it. -/
def visitedItems (platform : Platform) (handler : Handler) (pieces : List (List UInt8)) :
    List Item :=
  (Reassembly.visitsAll (clientInit platform handler) pieces).filterMap fun visit =>
    visit.1.item platform visit.2

/-- When the items announce what they use, whatever is run or destroyed stays in the arrays,
and every item is processed or refused. -/
theorem clientRuns_bounded (pieces : List (List UInt8))
    (proper : Machine.Meets Announced.next (Announced.Proper platform) ⟨0, 0⟩
      (visitedItems platform handler pieces)) :
    (∃ status after, clientRuns platform handler pieces = some (status, after) ∧
      after.state.records.Bounded ∧ (after.state.records.destroy handler).isSome) ∧
    ∀ visit ∈ Reassembly.visitsAll (clientInit platform handler) pieces, ∀ item,
      visit.1.item platform visit.2 = some item → visit.1.records.Bounded ∧
        ∃ status after, visit.1.records.visit platform handler item = some (status, after) ∧
          (status = .success → Records.Processed item after) := by
  have runs := Reassembly.runs_preserves recordReader_preserves pieces ⟨0, 0⟩
    (clientInit platform handler) ⟨initialRecords_bounded, fun _ => ⟨rfl, rfl⟩⟩
    (Machine.meets_filterMap.1 proper) .success
  obtain ⟨⟨status, after, ends, holds⟩, visited⟩ := runs
  refine ⟨⟨status, after, ends, holds.bounded, Records.destroy_bounded handler holds.bounded⟩, ?_⟩
  intro visit listed item found
  obtain ⟨going, announced, holds, proper⟩ := visited visit listed
  obtain ⟨status, after, visits, processed⟩ := holds.visit going (proper item found) handler
  exact ⟨holds.bounded, status, after, visits, fun succeeded => (processed.success succeeded).2.1⟩

private theorem smallMachine_grows (cpus : Nat) : smallMachine.Grows cpus :=
  ⟨by decide, fun _ _ _ => rfl⟩

instance (cpus : Nat) : Decidable (smallMachine.Grows cpus) := .isTrue (smallMachine_grows cpus)

/-- The stream of `smallItems`, cut in the middle of an item. -/
theorem smallItems_bounded :
    ∃ status after, clientRuns smallMachine acceptAll
        [(Format.encode ⟨.big, true⟩ smallItems).take 29,
          (Format.encode ⟨.big, true⟩ smallItems).drop 29] = some (status, after) ∧
      after.state.records.Bounded ∧ (after.state.records.destroy acceptAll).isSome :=
  (clientRuns_bounded _ (by decide +kernel)).1

def zeroFrequency : List UInt8 :=
  Format.encode ⟨.little, true⟩ [⟨1, 10⟩, ⟨10, 0⟩, ⟨6, 2⟩, ⟨4, 0⟩]

theorem clientRuns_goWrong :
    ¬ ∀ pieces : List (List UInt8), (clientRuns smallMachine acceptAll pieces).isSome := by
  intro total
  have runs := total [zeroFrequency]
  revert runs
  decide +kernel

/-- An item which comes before the storage is announced. -/
example : (clientRuns smallMachine acceptAll
    [Format.encode ⟨.little, true⟩ [⟨1, 10⟩, ⟨600, 0⟩]]).isSome = false := by decide +kernel

end RTContainer.Libtrace
