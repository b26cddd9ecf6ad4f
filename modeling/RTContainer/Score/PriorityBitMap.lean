import Mathlib.Data.Nat.Bitwise

/-! The priority bit map of `prioritybitmapimpl.h`, with the generic bitfield code. A
word of the map has a bit for each of sixteen priorities, and the major word a bit for
each word of the map. Bits are numbered from the most significant one. -/

set_option autoImplicit false

namespace RTContainer.Score

open Function

def bitfieldFindFirstBit (value : BitVec 16) : Nat := (value.setWidth 32).clz.toNat + 16 - 32

def priorityMask (bitNumber : Nat) : BitVec 16 := 0x8000#16 >>> bitNumber

def priorityMajor (priority : Nat) : Nat := priority / 16

def priorityMinor (priority : Nat) : Nat := priority % 16

structure PriorityBitMapControl where
  majorBitMap : BitVec 16
  bitMap : Nat → BitVec 16

/-- `Priority_bit_map_Information`; `minor` is the index of the word that the source
points to. -/
structure PriorityBitMapInformation where
  minor : Nat
  readyMajor : BitVec 16
  readyMinor : BitVec 16
  blockMajor : BitVec 16
  blockMinor : BitVec 16

def PriorityBitMapControl.initialized : PriorityBitMapControl where
  majorBitMap := 0
  bitMap := fun _ => 0

def PriorityBitMapInformation.initializeInformation (newPriority : Nat) :
    PriorityBitMapInformation where
  minor := priorityMajor newPriority
  readyMajor := priorityMask (priorityMajor newPriority)
  blockMajor := ~~~ priorityMask (priorityMajor newPriority)
  readyMinor := priorityMask (priorityMinor newPriority)
  blockMinor := ~~~ priorityMask (priorityMinor newPriority)

namespace PriorityBitMapControl

variable (control : PriorityBitMapControl)

def add (information : PriorityBitMapInformation) : PriorityBitMapControl where
  majorBitMap := control.majorBitMap ||| information.readyMajor
  bitMap := update control.bitMap information.minor
    (control.bitMap information.minor ||| information.readyMinor)

def remove (information : PriorityBitMapInformation) : PriorityBitMapControl :=
  let word := control.bitMap information.minor &&& information.blockMinor
  { majorBitMap :=
      if word = 0 then control.majorBitMap &&& information.blockMajor else control.majorBitMap
    bitMap := update control.bitMap information.minor word }

def getHighest : Nat :=
  let major := bitfieldFindFirstBit control.majorBitMap
  let minor := bitfieldFindFirstBit (control.bitMap major)
  major <<< 4 + minor

def Marks (priority : Nat) : Prop :=
  (control.bitMap (priorityMajor priority)).getMsbD (priorityMinor priority) = true

def MarksMajor (major : Nat) : Prop :=
  control.majorBitMap.getMsbD major = true

structure Describes (control : PriorityBitMapControl) (used : Nat → Prop) : Prop where
  minor : ∀ priority, priority < 256 → (control.Marks priority ↔ used priority)
  major : ∀ major, major < 16 →
    (control.MarksMajor major ↔ ∃ priority, used priority ∧ priorityMajor priority = major)
  bounded : ∀ priority, used priority → priority < 256

end PriorityBitMapControl

theorem getMsbD_priorityMask {bitNumber index : Nat} (inWord : bitNumber < 16) :
    (priorityMask bitNumber).getMsbD index = decide (index = bitNumber) := by
  have leading : 0x8000#16 = BitVec.twoPow 16 15 := rfl
  unfold priorityMask
  rw [leading, BitVec.getMsbD_ushiftRight, BitVec.getMsbD_twoPow]
  by_cases same : index = bitNumber
  · simp [same, inWord]
  · by_cases before : index < bitNumber
    · simp [before, same]
    · simp [same, show index - bitNumber ≠ 0 by omega]

/-- The bit found is the first one that is set. -/
theorem bitfieldFindFirstBit_spec {value : BitVec 16} (nonzero : value ≠ 0) :
    value.getMsbD (bitfieldFindFirstBit value) = true ∧
      ∀ index, index < bitfieldFindFirstBit value → value.getMsbD index = false := by
  have wide : value.setWidth 32 ≠ 0 := by
    intro isZero
    apply nonzero
    apply BitVec.eq_of_toNat_eq
    have asNat := congrArg BitVec.toNat isZero
    rw [BitVec.toNat_setWidth_of_le (by decide)] at asNat
    exact asNat
  have low := BitVec.two_pow_sub_clz_le_toNat_of_ne_zero (by decide) wide
  have high := BitVec.toNat_lt_two_pow_sub_clz (x := value.setWidth 32)
  rw [BitVec.toNat_setWidth_of_le (by decide)] at low high
  have small : value.toNat < 2 ^ 16 := value.isLt
  unfold bitfieldFindFirstBit
  generalize (value.setWidth 32).clz.toNat = zeros at low high
  have inWord : 16 ≤ zeros ∧ zeros < 32 := by
    constructor
    · have fewer := (Nat.pow_lt_pow_iff_right (by decide)).mp (low.trans_lt small)
      omega
    · have some : 32 - zeros ≠ 0 := by
        intro none
        rw [none] at high
        have positive : 0 < value.toNat := Nat.pos_of_ne_zero fun isZero =>
          nonzero (BitVec.eq_of_toNat_eq isZero)
        omega
      omega
  have place : 16 - 1 - (zeros + 16 - 32) = 32 - 1 - zeros := by omega
  constructor
  · have inRange : zeros + 16 - 32 < 16 := by omega
    simp only [BitVec.getMsbD, inRange, decide_true, Bool.true_and, place, BitVec.getLsbD]
    have width : 32 - zeros = 32 - 1 - zeros + 1 := by omega
    rw [width] at high
    exact Nat.testBit_of_two_pow_le_and_two_pow_add_one_gt low high
  · intro index before
    have bound : value.toNat < 2 ^ (16 - 1 - index) :=
      high.trans_le (Nat.pow_le_pow_right (by decide) (by omega))
    simp [BitVec.getMsbD, BitVec.getLsbD, Nat.testBit_lt_two_pow bound]

private theorem priority_eq_iff {priority other : Nat} :
    priority = other ↔ priorityMajor priority = priorityMajor other ∧
      priorityMinor priority = priorityMinor other := by
  unfold priorityMajor priorityMinor
  omega

theorem priorityMajor_lt {priority : Nat} (bounded : priority < 256) :
    priorityMajor priority < 16 := by
  unfold priorityMajor
  omega

theorem priorityMinor_lt (priority : Nat) : priorityMinor priority < 16 :=
  Nat.mod_lt priority (by decide)

namespace PriorityBitMapControl

variable {control : PriorityBitMapControl} {used : Nat → Prop} {priority : Nat}

theorem Describes.congr {other : Nat → Prop} (describes : control.Describes used)
    (same : ∀ priority, other priority ↔ used priority) : control.Describes other := by
  have equal : other = used := funext fun priority => propext (same priority)
  rw [equal]
  exact describes

theorem initialized_describes : initialized.Describes fun _ => False where
  minor := by simp [Marks, initialized]
  major := by simp [MarksMajor, initialized]
  bounded := nofun

theorem Describes.word_eq_zero_iff (describes : control.Describes used) {major : Nat}
    (inMap : major < 16) :
    control.bitMap major = 0 ↔ ¬ ∃ priority, used priority ∧ priorityMajor priority = major := by
  constructor
  · rintro isZero ⟨priority, isUsed, rfl⟩
    have marked := (describes.minor priority (describes.bounded priority isUsed)).mpr isUsed
    simp [Marks, isZero] at marked
  · intro unused
    apply BitVec.eq_of_getMsbD_eq
    intro index inWord
    have bounded : major * 16 + index < 256 := by omega
    have isMajor : priorityMajor (major * 16 + index) = major := by
      unfold priorityMajor
      omega
    have isMinor : priorityMinor (major * 16 + index) = index := by
      unfold priorityMinor
      omega
    have notMarked : ¬ control.Marks (major * 16 + index) := by
      intro marked
      exact unused ⟨_, (describes.minor _ bounded).mp marked, isMajor⟩
    simpa [Marks, isMajor, isMinor] using notMarked

theorem marks_add {other : Nat} :
    (control.add (.initializeInformation priority)).Marks other ↔
      other = priority ∨ control.Marks other := by
  unfold Marks add PriorityBitMapInformation.initializeInformation
  rw [priority_eq_iff]
  by_cases sameWord : priorityMajor other = priorityMajor priority
  · simp [sameWord, getMsbD_priorityMask (priorityMinor_lt priority), or_comm]
  · simp [sameWord]

theorem Describes.add (describes : control.Describes used) (bounded : priority < 256) :
    (control.add (.initializeInformation priority)).Describes
      fun other => other = priority ∨ used other where
  minor other inMap := by rw [marks_add, describes.minor other inMap]
  major major inMap := by
    have marked := describes.major major inMap
    unfold MarksMajor PriorityBitMapControl.add PriorityBitMapInformation.initializeInformation at *
    rw [BitVec.getMsbD_or, getMsbD_priorityMask (priorityMajor_lt bounded), Bool.or_eq_true,
      decide_eq_true_eq, marked]
    constructor
    · rintro (⟨other, isUsed, isMajor⟩ | same)
      · exact ⟨other, .inr isUsed, isMajor⟩
      · exact ⟨priority, .inl rfl, same.symm⟩
    · rintro ⟨other, rfl | isUsed, isMajor⟩
      · exact .inr isMajor.symm
      · exact .inl ⟨other, isUsed, isMajor⟩
  bounded other := by
    rintro (rfl | isUsed)
    · exact bounded
    · exact describes.bounded other isUsed

theorem marks_remove {other : Nat} :
    (control.remove (.initializeInformation priority)).Marks other ↔
      other ≠ priority ∧ control.Marks other := by
  unfold Marks remove PriorityBitMapInformation.initializeInformation
  rw [Ne, priority_eq_iff]
  by_cases sameWord : priorityMajor other = priorityMajor priority
  · simp [sameWord, getMsbD_priorityMask (priorityMinor_lt priority), priorityMinor_lt, and_comm]
  · simp [sameWord]

theorem Describes.remove (describes : control.Describes used) (bounded : priority < 256) :
    (control.remove (.initializeInformation priority)).Describes
      fun other => other ≠ priority ∧ used other := by
  have minors : ∀ other, other < 256 →
      ((control.remove (.initializeInformation priority)).Marks other ↔
        other ≠ priority ∧ used other) := by
    intro other inMap
    rw [marks_remove, describes.minor other inMap]
  refine ⟨minors, ?_, fun other isUsed => describes.bounded other isUsed.2⟩
  intro major inMap
  have marked := describes.major major inMap
  unfold MarksMajor at *
  by_cases sameWord : major = priorityMajor priority
  · -- The bit of this word goes when the last bit in the word does.
    subst sameWord
    have word : (control.remove (.initializeInformation priority)).bitMap (priorityMajor priority) =
        control.bitMap (priorityMajor priority) &&& ~~~ priorityMask (priorityMinor priority) :=
      update_self _ _ _
    by_cases empties : control.bitMap (priorityMajor priority) &&&
        ~~~ priorityMask (priorityMinor priority) = 0
    · have cleared : (control.remove (.initializeInformation priority)).majorBitMap.getMsbD
          (priorityMajor priority) = false := by
        simp [PriorityBitMapControl.remove, PriorityBitMapInformation.initializeInformation,
          empties, getMsbD_priorityMask inMap]
      simp only [cleared, Bool.false_eq_true, false_iff]
      rintro ⟨other, isUsed, isMajor⟩
      have stays := (minors other (describes.bounded other isUsed.2)).mpr isUsed
      rw [Marks, isMajor, word, empties] at stays
      simp at stays
    · have kept : (control.remove (.initializeInformation priority)).majorBitMap =
          control.majorBitMap :=
        if_neg empties
      obtain ⟨index, inWord, bit⟩ : ∃ index, index < 16 ∧
          (control.bitMap (priorityMajor priority) &&&
            ~~~ priorityMask (priorityMinor priority)).getMsbD index = true := by
        by_contra none
        apply empties
        apply BitVec.eq_of_getMsbD_eq
        intro index inWord
        have noBit : ¬ (control.bitMap (priorityMajor priority) &&&
            ~~~ priorityMask (priorityMinor priority)).getMsbD index = true :=
          fun bit => none ⟨index, inWord, bit⟩
        simpa using noBit
      have isMajor : priorityMajor (priorityMajor priority * 16 + index) =
          priorityMajor priority := by
        unfold priorityMajor
        omega
      have isMinor : priorityMinor (priorityMajor priority * 16 + index) = index := by
        unfold priorityMinor
        omega
      have inRange : priorityMajor priority * 16 + index < 256 := by omega
      have stays : (control.remove (.initializeInformation priority)).Marks
          (priorityMajor priority * 16 + index) := by
        rw [Marks, isMajor, isMinor, word]
        exact bit
      have isUsed := (minors _ inRange).mp stays
      rw [kept, marked]
      constructor
      · intro _
        exact ⟨_, isUsed, isMajor⟩
      · intro _
        exact ⟨_, isUsed.2, isMajor⟩
  · have kept : (control.remove (.initializeInformation priority)).majorBitMap.getMsbD major =
        control.majorBitMap.getMsbD major := by
      unfold PriorityBitMapControl.remove PriorityBitMapInformation.initializeInformation
      dsimp only
      split
      · simp [getMsbD_priorityMask (priorityMajor_lt bounded), sameWord, inMap]
      · rfl
    rw [kept, marked]
    constructor
    · rintro ⟨other, isUsed, rfl⟩
      exact ⟨other, ⟨fun same => sameWord (by rw [same]), isUsed⟩, rfl⟩
    · rintro ⟨other, isUsed, isMajor⟩
      exact ⟨other, isUsed.2, isMajor⟩

/-- The bit map answers the highest priority in use. -/
theorem Describes.getHighest_spec (describes : control.Describes used)
    (some : ∃ priority, used priority) :
    used control.getHighest ∧ ∀ priority, priority < control.getHighest → ¬ used priority := by
  obtain ⟨member, memberUsed⟩ := some
  have memberBounded := describes.bounded member memberUsed
  have majorNonzero : control.majorBitMap ≠ 0 := by
    intro isZero
    have marked := (describes.major (priorityMajor member) (priorityMajor_lt memberBounded)).mpr
      ⟨member, memberUsed, rfl⟩
    simp [MarksMajor, isZero] at marked
  obtain ⟨majorSet, majorFirst⟩ := bitfieldFindFirstBit_spec majorNonzero
  generalize majorIs : bitfieldFindFirstBit control.majorBitMap = major at majorSet majorFirst
  have inMap : major < 16 := by
    by_contra outside
    simp [BitVec.getMsbD, outside] at majorSet
  have minorNonzero : control.bitMap major ≠ 0 := by
    rw [Ne, describes.word_eq_zero_iff inMap, not_not]
    exact (describes.major major inMap).mp majorSet
  obtain ⟨minorSet, minorFirst⟩ := bitfieldFindFirstBit_spec minorNonzero
  have highestIs : control.getHighest =
      major * 16 + bitfieldFindFirstBit (control.bitMap major) := by
    simp only [getHighest, majorIs, Nat.shiftLeft_eq, Nat.reducePow]
  generalize bitfieldFindFirstBit (control.bitMap major) = minor at minorSet minorFirst highestIs
  have inWord : minor < 16 := by
    by_contra outside
    simp [BitVec.getMsbD, outside] at minorSet
  rw [highestIs]
  have highestMajor : priorityMajor (major * 16 + minor) = major := by
    unfold priorityMajor
    omega
  have highestMinor : priorityMinor (major * 16 + minor) = minor := by
    unfold priorityMinor
    omega
  constructor
  · apply (describes.minor _ (by omega)).mp
    rw [Marks, highestMajor, highestMinor]
    exact minorSet
  · intro priority lower isUsed
    have bounded := describes.bounded priority isUsed
    have marked := (describes.minor priority bounded).mpr isUsed
    have majorMarked := (describes.major _ (priorityMajor_lt bounded)).mpr ⟨priority, isUsed, rfl⟩
    have notBefore : ¬ priorityMajor priority < major := by
      intro before
      rw [MarksMajor, majorFirst _ before] at majorMarked
      cases majorMarked
    have sameMajor : priorityMajor priority = major := by
      unfold priorityMajor at *
      omega
    have minorBefore : priorityMinor priority < minor := by
      unfold priorityMajor priorityMinor at *
      omega
    rw [Marks, sameMajor, minorFirst _ minorBefore] at marked
    cases marked

end PriorityBitMapControl

end RTContainer.Score
