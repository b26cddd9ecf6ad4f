import Mathlib.Data.Nat.Bitwise

/-! Object identifiers. An identifier is a 32-bit word with the index in bits
0..15, the node in bits 16..23, the API in bits 24..26 and the class in bits
27..31. -/

set_option autoImplicit false

namespace RTContainer.Score

abbrev ObjectsId := BitVec 32

def objectsIndexStartBit : Nat := 0
def objectsNodeStartBit : Nat := 16
def objectsApiStartBit : Nat := 24
def objectsClassStartBit : Nat := 27

def objectsIndexMask : ObjectsId := 0x0000ffff#32
def objectsIndexValidBits : ObjectsId := 0x0000ffff#32
def objectsApiValidBits : ObjectsId := 0x00000007#32
def objectsClassValidBits : ObjectsId := 0x0000001f#32

def objectsIndexMinimum : Nat := 1

def objectsClassicApi : Nat := 2

def objectsRtemsSemaphores : Nat := 3

def objectsRtemsMessageQueues : Nat := 4

def objectsGetApi (id : ObjectsId) : Nat :=
  ((id >>> objectsApiStartBit) &&& objectsApiValidBits).toNat

def objectsGetClass (id : ObjectsId) : Nat :=
  ((id >>> objectsClassStartBit) &&& objectsClassValidBits).toNat

def objectsGetIndex (id : ObjectsId) : Nat :=
  ((id >>> objectsIndexStartBit) &&& objectsIndexValidBits).toNat

/-- `_Objects_Build_id`: the four parts are cast to `Objects_Id`, shifted and
or-ed. No part is masked, so a part that is too wide spills into its
neighbours. -/
def objectsBuildId (api cls node index : Nat) : ObjectsId :=
  (BitVec.ofNat 32 api <<< objectsApiStartBit) |||
    (BitVec.ofNat 32 cls <<< objectsClassStartBit) |||
    (BitVec.ofNat 32 node <<< objectsNodeStartBit) |||
    (BitVec.ofNat 32 index <<< objectsIndexStartBit)

end RTContainer.Score

/-! Identifiers as numbers. The low half of an identifier is its index; the
high half or-s API, class and node. -/

namespace RTContainer.Score

def objectsIdHigh (api cls node : Nat) : Nat :=
  (api * 256 ||| cls * 2048 ||| node) % 65536

variable {api cls node index : Nat}

theorem objectsBuildId_toNat (fits : index < 65536) :
    (objectsBuildId api cls node index).toNat = 65536 * objectsIdHigh api cls node + index := by
  have joined : objectsBuildId api cls node index =
      BitVec.ofNat 32 (2 ^ 16 * objectsIdHigh api cls node ||| index) := by
    apply BitVec.eq_of_getLsbD_eq
    intro bit inside
    have apiBit : (api * 256).testBit (bit - 16) =
        (decide (8 ≤ bit - 16) && api.testBit (bit - 16 - 8)) := by
      rw [show 256 = 2 ^ 8 from rfl, Nat.testBit_mul_two_pow]
    have clsBit : (cls * 2048).testBit (bit - 16) =
        (decide (11 ≤ bit - 16) && cls.testBit (bit - 16 - 11)) := by
      rw [show 2048 = 2 ^ 11 from rfl, Nat.testBit_mul_two_pow]
    have highBit : (objectsIdHigh api cls node).testBit (bit - 16) =
        (decide (bit - 16 < 16) && ((api * 256).testBit (bit - 16) ||
          (cls * 2048).testBit (bit - 16) || node.testBit (bit - 16))) := by
      rw [objectsIdHigh, show 65536 = 2 ^ 16 from rfl, Nat.testBit_mod_two_pow, Nat.testBit_or,
        Nat.testBit_or]
    simp only [objectsBuildId, objectsApiStartBit, objectsClassStartBit, objectsNodeStartBit,
      objectsIndexStartBit, BitVec.getLsbD_or, BitVec.getLsbD_shiftLeft, BitVec.getLsbD_ofNat,
      Nat.testBit_or, Nat.testBit_two_pow_mul, highBit, apiBit, clsBit]
    by_cases low : bit < 16
    · have outside : ¬ bit ≥ 16 := Nat.not_le.mpr low
      have below : bit < 24 := by omega
      have belowClass : bit < 27 := by omega
      simp [inside, low, outside, below, belowClass]
    · have zero : index.testBit bit = false :=
        Nat.testBit_lt_two_pow (Nat.lt_of_lt_of_le fits
          (Nat.pow_le_pow_right Nat.zero_lt_two (Nat.not_lt.mp low)))
      have high : bit - 16 < 16 := by omega
      have apiShift : bit - 16 - 8 = bit - 24 := by omega
      have clsShift : bit - 16 - 11 = bit - 27 := by omega
      have apiRange : decide (8 ≤ bit - 16) = !decide (bit < 24) := by
        by_cases below : bit < 24 <;> simp [below] <;> omega
      have clsRange : decide (11 ≤ bit - 16) = !decide (bit < 27) := by
        by_cases below : bit < 27 <;> simp [below] <;> omega
      have apiInside : bit - 24 < 32 := by omega
      have clsInside : bit - 27 < 32 := by omega
      have nodeInside : bit - 16 < 32 := by omega
      simp [inside, low, zero, high, apiShift, clsShift, apiRange, clsRange, apiInside, clsInside,
        nodeInside, Nat.not_lt.mp low]
  have below : objectsIdHigh api cls node < 65536 := Nat.mod_lt _ (by decide)
  rw [joined, ← Nat.two_pow_add_eq_or_of_lt (show index < 2 ^ 16 from fits), BitVec.toNat_ofNat,
    Nat.mod_eq_of_lt]
  omega

theorem objectsGetIndex_eq (id : ObjectsId) : objectsGetIndex id = id.toNat % 65536 := by
  simp only [objectsGetIndex, objectsIndexStartBit, objectsIndexValidBits, BitVec.toNat_and,
    BitVec.toNat_ushiftRight, Nat.shiftRight_zero, BitVec.toNat_ofNat]
  exact Nat.and_two_pow_sub_one_eq_mod id.toNat 16

theorem objectsGetApi_eq (id : ObjectsId) : objectsGetApi id = id.toNat / 16777216 % 8 := by
  simp only [objectsGetApi, objectsApiStartBit, objectsApiValidBits, BitVec.toNat_and,
    BitVec.toNat_ushiftRight, Nat.shiftRight_eq_div_pow, BitVec.toNat_ofNat]
  exact Nat.and_two_pow_sub_one_eq_mod _ 3

theorem objectsGetClass_eq (id : ObjectsId) : objectsGetClass id = id.toNat / 134217728 % 32 := by
  simp only [objectsGetClass, objectsClassStartBit, objectsClassValidBits, BitVec.toNat_and,
    BitVec.toNat_ushiftRight, Nat.shiftRight_eq_div_pow, BitVec.toNat_ofNat]
  exact Nat.and_two_pow_sub_one_eq_mod _ 5

theorem objectsIdHigh_lt (api cls node : Nat) : objectsIdHigh api cls node < 65536 :=
  Nat.mod_lt _ (by decide)

theorem objectsIdHigh_mod (api cls node : Nat) : objectsIdHigh api cls node % 256 = node % 256 := by
  have apiLow : api * 256 % 2 ^ 8 = 0 := Nat.mul_mod_left api 256
  have clsLow : cls * 2048 % 2 ^ 8 = 0 := by
    rw [show cls * 2048 = cls * 8 * 256 from (Nat.mul_assoc cls 8 256).symm]
    exact Nat.mul_mod_left (cls * 8) 256
  have low : (api * 256 ||| cls * 2048 ||| node) % 2 ^ 8 = node % 2 ^ 8 := by
    rw [Nat.or_mod_two_pow, Nat.or_mod_two_pow, apiLow, clsLow, Nat.zero_or, Nat.zero_or]
  rw [objectsIdHigh]
  omega

theorem objectsIdHigh_div (api cls node : Nat) :
    objectsIdHigh api cls node / 256 = (api ||| cls * 8 ||| node / 256) % 256 := by
  have shifted : (api * 256 ||| cls * 2048 ||| node) / 256 = api ||| cls * 8 ||| node / 256 := by
    have apiHigh : api * 256 / 2 ^ 8 = api := Nat.mul_div_cancel api (by decide)
    have clsHigh : cls * 2048 / 2 ^ 8 = cls * 8 := by
      rw [show cls * 2048 = cls * 8 * 256 from (Nat.mul_assoc cls 8 256).symm]
      exact Nat.mul_div_cancel (cls * 8) (by decide)
    have split : (api * 256 ||| cls * 2048 ||| node) / 2 ^ 8 =
        api * 256 / 2 ^ 8 ||| cls * 2048 / 2 ^ 8 ||| node / 2 ^ 8 := by
      rw [Nat.or_div_two_pow, Nat.or_div_two_pow]
    rw [apiHigh, clsHigh] at split
    exact split
  rw [objectsIdHigh, ← shifted]
  omega

/-- The bits of a container identifier that would change the API or the class
of the identifiers built from it: those above the node field that API and class
do not already set. -/
def foreignBits (cls : Nat) : Nat :=
  if cls = objectsRtemsSemaphores then 0xe5 else 0xdd

def NodeFits (cls node : Nat) : Prop := node / 256 &&& foreignBits cls = 0

instance (cls node : Nat) : Decidable (NodeFits cls node) := by
  unfold NodeFits
  infer_instance

def IpcClass (cls : Nat) : Prop := cls = objectsRtemsSemaphores ∨ cls = objectsRtemsMessageQueues

theorem nodeFits_iff (ipc : IpcClass cls) :
    NodeFits cls node ↔
      objectsIdHigh objectsClassicApi cls node / 256 = objectsClassicApi + cls * 8 := by
  have reduced : node / 256 &&& foreignBits cls = node / 256 % 256 &&& foreignBits cls := by
    have small : foreignBits cls < 256 := by unfold foreignBits; split <;> decide
    have cut := Nat.and_mod_two_pow (a := node / 256) (b := foreignBits cls) (n := 8)
    rw [Nat.mod_eq_of_lt (show foreignBits cls < 2 ^ 8 from small),
      Nat.mod_eq_of_lt (Nat.lt_of_le_of_lt Nat.and_le_right small)] at cut
    exact cut
  have cut : (objectsClassicApi ||| cls * 8 ||| node / 256) % 256 =
      (objectsClassicApi ||| cls * 8 ||| node / 256 % 256) % 256 := by
    have := Nat.or_mod_two_pow (a := objectsClassicApi ||| cls * 8) (b := node / 256) (n := 8)
    have again := Nat.or_mod_two_pow (a := objectsClassicApi ||| cls * 8)
      (b := node / 256 % 256) (n := 8)
    rw [show (node / 256 % 256) % 2 ^ 8 = node / 256 % 2 ^ 8 from Nat.mod_mod _ _] at again
    exact this.trans again.symm
  rw [NodeFits, reduced, objectsIdHigh_div, cut]
  have bounded : node / 256 % 256 < 256 := Nat.mod_lt _ (by decide)
  generalize node / 256 % 256 = upper at bounded
  rcases ipc with rfl | rfl
  · revert upper
    decide +kernel
  · revert upper
    decide +kernel

/-- An id decodes exactly if the node fits beside the class. -/
theorem objectsBuildId_decodes (ipc : IpcClass cls) (fits : index < 65536) :
    (objectsGetApi (objectsBuildId objectsClassicApi cls node index) = objectsClassicApi ∧
      objectsGetClass (objectsBuildId objectsClassicApi cls node index) = cls) ↔
        NodeFits cls node := by
  have value : (objectsBuildId objectsClassicApi cls node index).toNat =
      65536 * objectsIdHigh objectsClassicApi cls node + index := objectsBuildId_toNat fits
  have bounded := objectsIdHigh_lt objectsClassicApi cls node
  have clsSmall : cls < 32 := by rcases ipc with rfl | rfl <;> decide
  rw [nodeFits_iff ipc, objectsGetApi_eq, objectsGetClass_eq, value]
  have apiTwo : objectsClassicApi = 2 := rfl
  omega

theorem objectsBuildId_index (fits : index < 65536) :
    objectsGetIndex (objectsBuildId api cls node index) = index := by
  rw [objectsGetIndex_eq, objectsBuildId_toNat fits]
  omega

theorem objectsIndexMask_getLsbD {bit : Nat} (inside : bit < 32) :
    objectsIndexMask.getLsbD bit = decide (bit < 16) := by
  have ones : (65535 : Nat).testBit bit = decide (bit < 16) := Nat.testBit_two_pow_sub_one 16 bit
  rw [objectsIndexMask, BitVec.getLsbD_ofNat, ones]
  simp [inside]

theorem objectsBuildId_reindex (other : Nat) (fits : index < 65536) :
    (objectsBuildId api cls node index &&& ~~~objectsIndexMask) |||
      (BitVec.ofNat 32 other <<< objectsIndexStartBit) = objectsBuildId api cls node other := by
  apply BitVec.eq_of_getLsbD_eq
  intro bit inside
  simp only [objectsBuildId, objectsApiStartBit, objectsClassStartBit, objectsNodeStartBit,
    objectsIndexStartBit, BitVec.getLsbD_or, BitVec.getLsbD_and, BitVec.getLsbD_not,
    objectsIndexMask_getLsbD inside, BitVec.getLsbD_shiftLeft, BitVec.getLsbD_ofNat]
  rcases Nat.lt_or_ge bit 16 with low | high
  · have below : bit < 24 := by omega
    have belowClass : bit < 27 := by omega
    simp [low, below, belowClass]
  · have zero : index.testBit bit = false :=
      Nat.testBit_lt_two_pow (Nat.lt_of_lt_of_le (show index < 2 ^ 16 from fits)
        (Nat.pow_le_pow_right Nat.zero_lt_two high))
    simp [Nat.not_lt.mpr high, inside, zero]

end RTContainer.Score
