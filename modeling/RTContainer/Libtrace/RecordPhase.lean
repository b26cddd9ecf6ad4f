import RTContainer.Libtrace.RecordDecoding

/-! What the items of a record stream announce, and which of them have to wait. -/

set_option autoImplicit false

namespace RTContainer.Libtrace

open Function

/-- What the items of a stream announce. -/
structure Announced where
  cpus : Nat
  perCpuItems : UInt32

def Announced.next (announced : Announced) (item : Item) : Announced :=
  match eventKind (getEvent item.event) with
  | .processorMaximum => { announced with cpus := item.data.toNat + 1 }
  | .perCpuCount => { announced with perCpuItems := item.data.toUInt32 }
  | _ => announced

/-- The storage of a processor may always grow once each of them has one, and a `size_t` has
its size. -/
structure Platform.Grows (platform : Platform) (cpus : Nat) : Prop where
  wide : 2 * holdBackReallocationLimit * itemSize ≤ 2 ^ platform.sizeBits
  granted : ∀ request bytes, cpus ≤ request → platform.granted request bytes = true

/-- No frequency is zero, and no item has to wait before a storage is announced which is not
empty and has a size, unless `realloc` refuses one of no size. -/
def Announced.Proper (platform : Platform) (announced : Announced) (item : Item) : Prop :=
  let stores := announced.perCpuItems = 0 → platform.granted 0 0 = false
  match eventKind (getEvent item.event) with
  | .version => True
  | .processorMaximum => True
  | .perCpuCount => announced.perCpuItems = 0 → announced.cpus ≠ 0 →
    (∃ cpu < announced.cpus, platform.granted cpu
      (Records.storageBytes platform (Records.perCpuCapacity item.data)) = false) ∨
    0 < Records.perCpuCapacity item.data ∧
      Records.perCpuCapacity item.data * itemSize < 2 ^ platform.sizeBits ∧
      platform.Grows announced.cpus
  | .processor => item.data.toNat < announced.cpus → stores
  | .frequency => item.data.toUInt32 ≠ 0 ∧ stores
  | _ => stores

instance (platform : Platform) [∀ cpus, Decidable (platform.Grows cpus)] (announced : Announced)
    (item : Item) : Decidable (announced.Proper platform item) := by
  unfold Announced.Proper
  exact match eventKind (getEvent item.event) with
  | .version | .frequency | .perCpuCount | .perCpuOverflow | .processor | .processorMaximum
  | .uptimeHigh | .uptimeLow | .other => inferInstance

/-- Which processors have no uptime yet: all of them at first, and one after an overflow, until
both parts of an uptime come. The items of such a processor wait. -/
structure Phase extends Announced where
  current : Nat
  lowValid : Nat → Bool
  holding : Nat → Bool
  waiting : Nat → Nat

namespace Phase

def start : Phase := ⟨⟨0, 0⟩, 0, fun _ => false, fun _ => true, fun _ => 0⟩

def wait (phase : Phase) (holds : Bool) : Phase :=
  if holds then { phase with
    waiting := update phase.waiting phase.current (phase.waiting phase.current + 1) }
  else phase

def next (phase : Phase) (item : Item) : Phase :=
  let cpu := phase.current
  let holds := phase.holding cpu
  let phase := { phase with toAnnounced := phase.toAnnounced.next item }
  match eventKind (getEvent item.event) with
  | .version => phase
  | .processorMaximum => phase
  | .perCpuOverflow => { phase with holding := update phase.holding cpu true }.wait true
  | .processor => { phase with current := item.data.toNat }.wait holds
  | .uptimeLow => { phase with lowValid := update phase.lowValid cpu true }.wait holds
  | .uptimeHigh =>
    if phase.lowValid cpu then
      { phase with
        lowValid := update phase.lowValid cpu false
        holding := update phase.holding cpu false
        waiting := if holds then update phase.waiting cpu 0 else phase.waiting }
    else phase.wait holds
  | _ => phase.wait holds

private theorem wait_announced (phase : Phase) (holds : Bool) :
    (phase.wait holds).toAnnounced = phase.toAnnounced := by
  rw [wait]
  split <;> rfl

theorem next_announced (phase : Phase) (item : Item) :
    (phase.next item).toAnnounced = phase.toAnnounced.next item := by
  rw [next]
  cases kind : eventKind (getEvent item.event) with
  | version | processorMaximum => rfl
  | uptimeHigh =>
    simp only
    split
    · rfl
    · rw [wait_announced]
  | frequency | perCpuCount | perCpuOverflow | processor | uptimeLow | other =>
    simp only
    rw [wait_announced]

end Phase

namespace Records

def phase (records : Records) : Phase where
  cpus := records.cpuCount
  perCpuItems := records.perCpuItems
  current := records.cpu
  lowValid cpu := (records.perCpu cpu).uptimeLowValid
  holding cpu := (records.perCpu cpu).holdBack
  waiting cpu := (records.perCpu cpu).itemIndex

variable {records before after : Records} {perCpu : PerCpu} {cpu : Nat}

@[simp] theorem setCurrent_current (records : Records) (perCpu : PerCpu) :
    (records.setCurrent perCpu).current = perCpu := update_self ..

theorem setCurrent_of_ne (other : cpu ≠ records.cpu) (perCpu : PerCpu) :
    (records.setCurrent perCpu).perCpu cpu = records.perCpu cpu :=
  update_of_ne other ..

theorem Kept.phase (kept : Kept before after) : after.phase = before.phase := by
  rw [Records.phase, Records.phase, kept.cpuCount, kept.perCpuItems, kept.cpu, Phase.mk.injEq]
  refine ⟨rfl, rfl, funext fun cpu => ?_, funext fun cpu => ?_, funext fun cpu => ?_⟩ <;>
  · obtain ⟨_, _, same⟩ := kept.perCpu cpu
    rw [same]

theorem setCurrent_phase (records : Records) (perCpu : PerCpu) :
    (records.setCurrent perCpu).phase = { records.phase with
      lowValid := update records.phase.lowValid records.cpu perCpu.uptimeLowValid
      holding := update records.phase.holding records.cpu perCpu.holdBack
      waiting := update records.phase.waiting records.cpu perCpu.itemIndex } := by
  rw [phase, Phase.mk.injEq]
  refine ⟨rfl, rfl, funext fun cpu => ?_, funext fun cpu => ?_, funext fun cpu => ?_⟩ <;>
  · rcases eq_or_ne cpu records.cpu with rfl | other
    · simp [setCurrent]
    · simp [setCurrent, other, phase]

theorem setCurrent_samePhase (lowValid : perCpu.uptimeLowValid = records.current.uptimeLowValid)
    (holdBack : perCpu.holdBack = records.current.holdBack)
    (itemIndex : perCpu.itemIndex = records.current.itemIndex) :
    (records.setCurrent perCpu).phase = records.phase := by
  rw [setCurrent_phase, lowValid, holdBack, itemIndex]
  simp only [phase, current, update_eq_self]

end Records

end RTContainer.Libtrace
