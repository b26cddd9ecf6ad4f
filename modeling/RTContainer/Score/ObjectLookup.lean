import RTContainer.Score.ObjectIteration

/-! The lookup of an object by its identifier: one subtraction from the maximum identifier
decides the API, the class, the node and the range of the index. -/

set_option autoImplicit false

namespace RTContainer.Score

def objectsNodeValidBits : ObjectsId := 0x000000ff#32

def objectsGetNode (id : ObjectsId) : Nat :=
  ((id >>> objectsNodeStartBit) &&& objectsNodeValidBits).toNat

theorem objectsGetNode_eq (id : ObjectsId) : objectsGetNode id = id.toNat / 65536 % 256 := by
  simp only [objectsGetNode, objectsNodeStartBit, objectsNodeValidBits, BitVec.toNat_and,
    BitVec.toNat_ushiftRight, Nat.shiftRight_eq_div_pow, BitVec.toNat_ofNat]
  exact Nat.and_two_pow_sub_one_eq_mod _ 8

def SameClass (id other : ObjectsId) : Prop :=
  objectsGetApi id = objectsGetApi other ∧ objectsGetClass id = objectsGetClass other ∧
    objectsGetNode id = objectsGetNode other

theorem sameClass_iff {id other : ObjectsId} :
    SameClass id other ↔ id.toNat / 65536 = other.toNat / 65536 := by
  have small := id.isLt
  have smallOther := other.isLt
  unfold SameClass
  simp only [objectsGetApi_eq, objectsGetClass_eq, objectsGetNode_eq]
  omega

theorem objectsIdHigh_of_fits {api cls node : Nat} (apiFits : api < 8) (clsFits : cls < 32)
    (nodeFits : node < 256) : objectsIdHigh api cls node = cls * 2048 + api * 256 + node := by
  have low := objectsIdHigh_mod api cls node
  have high := objectsIdHigh_div api cls node
  have joined : cls * 8 + api = api ||| cls * 8 := by
    have disjoint := Nat.two_pow_add_eq_or_of_lt (i := 3) apiFits cls
    rw [Nat.or_comm, Nat.mul_comm cls 8]
    exact disjoint
  rw [Nat.div_eq_of_lt nodeFits, Nat.or_zero, ← joined] at high
  omega

variable {api cls node index : Nat}

theorem objectsBuildId_of_fits (apiFits : api < 8) (clsFits : cls < 32) (nodeFits : node < 256)
    (indexFits : index < 65536) : (objectsBuildId api cls node index).toNat =
      cls * 134217728 + api * 16777216 + node * 65536 + index := by
  rw [objectsBuildId_toNat indexFits, objectsIdHigh_of_fits apiFits clsFits nodeFits]
  omega

/-- The accessors give the parts back, and the parts give the identifier back. -/
structure RoundTrips (api cls node index : Nat) : Prop where
  getApi : objectsGetApi (objectsBuildId api cls node index) = api
  getClass : objectsGetClass (objectsBuildId api cls node index) = cls
  getNode : objectsGetNode (objectsBuildId api cls node index) = node
  getIndex : objectsGetIndex (objectsBuildId api cls node index) = index
  only : ∀ id, objectsGetApi id = api → objectsGetClass id = cls → objectsGetNode id = node →
    objectsGetIndex id = index → id = objectsBuildId api cls node index

theorem objectsBuildId_roundTrips (apiFits : api < 8) (clsFits : cls < 32)
    (nodeFits : node < 256) (indexFits : index < 65536) : RoundTrips api cls node index := by
  have value := objectsBuildId_of_fits apiFits clsFits nodeFits indexFits
  refine ⟨?_, ?_, ?_, ?_, fun id isApi isClass isNode isIndex => ?_⟩
  · rw [objectsGetApi_eq, value]
    omega
  · rw [objectsGetClass_eq, value]
    omega
  · rw [objectsGetNode_eq, value]
    omega
  · rw [objectsGetIndex_eq, value]
    omega
  · have bounded := id.isLt
    rw [objectsGetApi_eq] at isApi
    rw [objectsGetClass_eq] at isClass
    rw [objectsGetNode_eq] at isNode
    rw [objectsGetIndex_eq] at isIndex
    refine BitVec.eq_of_toNat_eq ?_
    rw [value]
    omega

namespace ObjectsInformation

/-- The identifier is one of the class and its slot of the table holds the object. -/
structure Names (information : ObjectsInformation) (id : ObjectsId) (object : ObjectAddress) :
    Prop where
  sameClass : SameClass id information.maximumId
  positive : 1 ≤ objectsGetIndex id
  bounded : objectsGetIndex id ≤ information.objectsGetMaximumIndex
  slot : information.localTable[objectsGetIndex id - 1]? = some (some object)

variable {information : ObjectsInformation} {id : ObjectsId} {object : ObjectAddress}

theorem delta_lt_iff (maximum id : ObjectsId) :
    (maximum - id).toNat < objectsGetIndex maximum ↔
      SameClass id maximum ∧ 1 ≤ objectsGetIndex id ∧
        objectsGetIndex id ≤ objectsGetIndex maximum := by
  have small := id.isLt
  have smallMaximum := maximum.isLt
  rw [sameClass_iff, objectsGetIndex_eq, objectsGetIndex_eq, BitVec.toNat_sub]
  omega

theorem delta_eq {maximum : ObjectsId} (sameClass : SameClass id maximum)
    (bounded : objectsGetIndex id ≤ objectsGetIndex maximum) :
    objectsGetIndex maximum - objectsIndexMinimum - (maximum - id).toNat =
      objectsGetIndex id - 1 := by
  have small := id.isLt
  have smallMaximum := maximum.isLt
  rw [sameClass_iff] at sameClass
  rw [objectsGetIndex_eq, objectsGetIndex_eq] at bounded ⊢
  rw [BitVec.toNat_sub]
  unfold objectsIndexMinimum
  omega

theorem objectsGet_eq_some_iff :
    information.objectsGet id = some object ↔ information.Names id object := by
  unfold objectsGet
  dsimp only
  split
  next within =>
    obtain ⟨sameClass, positive, bounded⟩ := (delta_lt_iff _ _).mp within
    rw [delta_eq sameClass bounded, Option.join_eq_some_iff]
    exact ⟨fun slot => ⟨sameClass, positive, bounded, slot⟩, fun names => names.slot⟩
  next outside =>
    refine iff_of_false nofun fun names => outside ?_
    exact (delta_lt_iff _ _).mpr ⟨names.sameClass, names.positive, names.bounded⟩

theorem objectsGetNoProtection_eq (information : ObjectsInformation) (id : ObjectsId) :
    information.objectsGetNoProtection id = information.objectsGet id := rfl

/-- A lookup answers exactly for the identifiers of the class whose slot is in use, and the
parts of an identifier come back. -/
theorem objectLookup_exact :
    (∀ (information : ObjectsInformation) (id : ObjectsId) (object : ObjectAddress),
      (information.objectsGet id = some object ↔ information.Names id object) ∧
        (information.objectsGetNoProtection id = some object ↔ information.Names id object)) ∧
    ∀ api cls node index : Nat, api < 8 → cls < 32 → node < 256 → index < 65536 →
      RoundTrips api cls node index := by
  refine ⟨fun information id object => ⟨objectsGet_eq_some_iff, ?_⟩, fun api cls node index => ?_⟩
  · rw [objectsGetNoProtection_eq]
    exact objectsGet_eq_some_iff
  · exact objectsBuildId_roundTrips

theorem semaphoreId_roundTrips : RoundTrips objectsClassicApi objectsRtemsSemaphores 1 5 :=
  objectLookup_exact.2 _ _ _ _ (by decide) (by decide) (by decide) (by decide)

end ObjectsInformation

end RTContainer.Score
