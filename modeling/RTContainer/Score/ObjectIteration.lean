import RTContainer.Score.UnlimitedObjects

/-! Iteration over the open objects of a class with `_Objects_Get_next`. The identifier
that a call returns is where the next call goes on; the identifiers run from the one
with index 1 to the maximum identifier and one step beyond it. -/

set_option autoImplicit false

namespace RTContainer.Score

def objectsIdInitialIndex : Nat := 0

def objectsIdFinal : ObjectsId := ~~~0#32

def objectsGetMinimumId (id : ObjectsId) : ObjectsId :=
  (id &&& ~~~objectsIndexMask) + BitVec.ofNat 32 objectsIndexMinimum <<< objectsIndexStartBit

namespace ObjectsInformation

variable (information : ObjectsInformation)

def objectsGetNoProtection (id : ObjectsId) : Option ObjectAddress :=
  let delta := information.maximumId - id
  let last := objectsGetIndex information.maximumId
  if delta.toNat < last then
    (information.localTable[last - objectsIndexMinimum - delta.toNat]?).join
  else none

/-- The loop of `_Objects_Get_next`. It has no result if it takes more turns than
`fuel`. -/
def objectsGetNextLoop (information : ObjectsInformation) :
    Nat → ObjectsId → Option (Option ObjectAddress × ObjectsId)
  | 0, _ => none
  | fuel + 1, nextId =>
    if information.objectsGetMaximumIndex < objectsGetIndex nextId then
      some (none, objectsIdFinal)
    else
      match information.objectsGetNoProtection nextId with
      | some object => some (some object, nextId + 1)
      | none => information.objectsGetNextLoop fuel (nextId + 1)

/-- `_Objects_Get_next` for pointers that are not `NULL`. -/
def objectsGetNext (fuel : Nat) (id : ObjectsId) : Option (Option ObjectAddress × ObjectsId) :=
  information.objectsGetNextLoop fuel
    (if objectsGetIndex id = objectsIdInitialIndex then
      objectsGetMinimumId information.maximumId
    else id)

/-- The objects that one call after the other returns up to the `NULL`, and the last
identifier. -/
def objectsIterate (information : ObjectsInformation) (fuel : Nat) :
    Nat → ObjectsId → Option (List ObjectAddress × ObjectsId)
  | 0, _ => none
  | turns + 1, id =>
    match information.objectsGetNext fuel id with
    | none => none
    | some (none, nextId) => some ([], nextId)
    | some (some object, nextId) =>
      (information.objectsIterate fuel turns nextId).map fun (visited, last) =>
        (object :: visited, last)

def openObjects : List ObjectAddress :=
  information.localTable.reduceOption

/-- The iteration comes to its end and has visited the open objects, each once and in
their order. -/
def VisitsAll (id : ObjectsId) : Prop :=
  ∃ fuel turns, information.objectsIterate fuel turns id =
    some (information.openObjects, objectsIdFinal)

/-- The table has a slot for every index. -/
def Tabled : Prop :=
  information.localTable.length = information.objectsGetMaximumIndex

def CursorAt (slots : List (Option ObjectAddress)) (id : ObjectsId) : Prop :=
  ∃ before, information.localTable = before ++ slots ∧
    id.toNat + information.objectsGetMaximumIndex = information.maximumId.toNat + before.length + 1

variable {information} {slots rest : List (Option ObjectAddress)}
variable {slot : Option ObjectAddress} {id : ObjectsId} {fuel turns : Nat}

section

variable (tabled : information.Tabled)
include tabled

theorem CursorAt.index (small : information.objectsGetMaximumIndex < objectsIdFinalIndex)
    (cursor : information.CursorAt slots id) :
    objectsGetIndex id + slots.length = information.objectsGetMaximumIndex + 1 := by
  obtain ⟨before, table, position⟩ := cursor
  have lengths : before.length + slots.length = information.objectsGetMaximumIndex := by
    rw [← tabled, table, List.length_append]
  have maximum : information.objectsGetMaximumIndex = information.maximumId.toNat % 65536 :=
    objectsGetIndex_eq _
  rw [objectsGetIndex_eq]
  unfold objectsIdFinalIndex at small
  omega

theorem CursorAt.next (small : information.objectsGetMaximumIndex < objectsIdFinalIndex)
    (cursor : information.CursorAt (slot :: rest) id) : information.CursorAt rest (id + 1) := by
  obtain ⟨before, table, position⟩ := cursor
  refine ⟨before ++ [slot], ?_, ?_⟩
  · rw [table, List.append_assoc]
    rfl
  · have lengths : before.length + (rest.length + 1) = information.objectsGetMaximumIndex := by
      rw [← tabled, table, List.length_append, List.length_cons]
    have maximum : information.objectsGetMaximumIndex = information.maximumId.toNat % 65536 :=
      objectsGetIndex_eq _
    have bounded := information.maximumId.isLt
    unfold objectsIdFinalIndex at small
    have step : (id + 1).toNat = id.toNat + 1 := by
      rw [BitVec.toNat_add]
      exact Nat.mod_eq_of_lt (by
        show id.toNat + 1 < 2 ^ 32
        omega)
    rw [step, List.length_append, List.length_singleton]
    omega

theorem CursorAt.objectsGetNoProtection (cursor : information.CursorAt (slot :: rest) id) :
    information.objectsGetNoProtection id = slot := by
  obtain ⟨before, table, position⟩ := cursor
  have lengths : before.length + (rest.length + 1) = information.objectsGetMaximumIndex := by
    rw [← tabled, table, List.length_append, List.length_cons]
  have delta : (information.maximumId - id).toNat = rest.length := by
    have bounded := information.maximumId.isLt
    rw [BitVec.toNat_sub_of_le (by
      rw [BitVec.le_def]
      omega)]
    omega
  have last : objectsGetIndex information.maximumId = before.length + (rest.length + 1) :=
    lengths.symm
  unfold ObjectsInformation.objectsGetNoProtection
  simp only [delta, last, objectsIndexMinimum]
  rw [if_pos (by omega)]
  have place : before.length + (rest.length + 1) - 1 - rest.length = before.length := by omega
  rw [place, table, List.getElem?_append_right (Nat.le_refl _), Nat.sub_self]
  rfl

theorem objectsGetNextLoop_spec (small : information.objectsGetMaximumIndex < objectsIdFinalIndex)
    (cursor : information.CursorAt slots id) (enough : slots.length < fuel) :
    (slots.reduceOption = [] ∧
        information.objectsGetNextLoop fuel id = some (none, objectsIdFinal)) ∨
      ∃ object rest nextId, slots.reduceOption = object :: rest.reduceOption ∧
        rest.length < slots.length ∧ information.CursorAt rest nextId ∧
        information.objectsGetNextLoop fuel id = some (some object, nextId) := by
  induction slots generalizing id fuel with
  | nil =>
    obtain ⟨fuel, rfl⟩ := Nat.exists_eq_succ_of_ne_zero (Nat.ne_zero_of_lt enough)
    have index := cursor.index tabled small
    rw [List.length_nil] at index
    refine .inl ⟨rfl, ?_⟩
    unfold objectsGetNextLoop
    rw [if_pos (by omega)]
  | cons slot slots ih =>
    obtain ⟨fuel, rfl⟩ := Nat.exists_eq_succ_of_ne_zero (Nat.ne_zero_of_lt enough)
    have index := cursor.index tabled small
    rw [List.length_cons] at index enough
    unfold objectsGetNextLoop
    rw [if_neg (by omega), cursor.objectsGetNoProtection tabled]
    have next := cursor.next tabled small
    cases slot with
    | some object =>
      exact .inr ⟨object, slots, id + 1, rfl, Nat.lt_succ_self _, next, rfl⟩
    | none =>
      rcases ih next (Nat.lt_of_succ_lt_succ enough) with ended | found
      · exact .inl ended
      · obtain ⟨object, rest, nextId, reduces, shorter, at_rest, runs⟩ := found
        exact .inr ⟨object, rest, nextId, reduces, Nat.lt_succ_of_lt shorter, at_rest, runs⟩

end

/-- The identifier with index 1 of the class of `maximum`. -/
theorem objectsGetMinimumId_toNat (maximum : ObjectsId) :
    (objectsGetMinimumId maximum).toNat = maximum.toNat - maximum.toNat % 65536 + 1 := by
  have bounded := maximum.isLt
  have shifted : maximum &&& ~~~objectsIndexMask = maximum >>> 16 <<< 16 := by
    apply BitVec.eq_of_getLsbD_eq
    intro bit inside
    simp only [BitVec.getLsbD_and, BitVec.getLsbD_not, objectsIndexMask_getLsbD inside,
      BitVec.getLsbD_shiftLeft, BitVec.getLsbD_ushiftRight]
    rcases Nat.lt_or_ge bit 16 with low | high
    · simp [low]
    · simp [Nat.not_lt.mpr high, inside, Nat.add_sub_cancel' high]
  have cleared : (maximum &&& ~~~objectsIndexMask).toNat =
      maximum.toNat - maximum.toNat % 65536 := by
    rw [shifted, BitVec.toNat_shiftLeft, BitVec.toNat_ushiftRight, Nat.shiftRight_eq_div_pow,
      Nat.shiftLeft_eq, Nat.mod_eq_of_lt (by omega)]
    omega
  rw [objectsGetMinimumId, BitVec.toNat_add, cleared]
  show (maximum.toNat - maximum.toNat % 65536 + 1) % 2 ^ 32 = _
  exact Nat.mod_eq_of_lt (by omega)

theorem cursorAt_minimumId (information : ObjectsInformation) :
    information.CursorAt information.localTable (objectsGetMinimumId information.maximumId) := by
  refine ⟨[], rfl, ?_⟩
  rw [objectsGetMinimumId_toNat]
  unfold objectsGetMaximumIndex
  rw [objectsGetIndex_eq, List.length_nil]
  have low := Nat.mod_le information.maximumId.toNat 65536
  omega

theorem objectsIterate_spec (tabled : information.Tabled)
    (small : information.objectsGetMaximumIndex < objectsIdFinalIndex)
    (cursor : information.CursorAt slots id) (positive : objectsGetIndex id ≠ objectsIdInitialIndex)
    (enough : slots.length < turns) (fuelEnough : slots.length < fuel) :
    information.objectsIterate fuel turns id = some (slots.reduceOption, objectsIdFinal) := by
  induction turns generalizing slots id with
  | zero => exact absurd enough (Nat.not_lt_zero _)
  | succ turns ih =>
    have entered : information.objectsGetNext fuel id = information.objectsGetNextLoop fuel id := by
      unfold objectsGetNext
      rw [if_neg positive]
    unfold objectsIterate
    rw [entered]
    rcases objectsGetNextLoop_spec tabled small cursor fuelEnough with ended | found
    · rw [ended.2, ended.1]
    · obtain ⟨object, rest, nextId, reduces, shorter, atRest, runs⟩ := found
      rw [runs, reduces]
      have index := atRest.index tabled small
      have bounded := cursor.index tabled small
      have rested := ih atRest (by
        show objectsGetIndex nextId ≠ 0
        omega) (by omega) (by omega)
      simp only [rested, Option.map_some]

theorem objectsGetNextLoop_unended (full : objectsIdFinalIndex ≤ information.objectsGetMaximumIndex)
    (fuel : Nat) (id nextId : ObjectsId) :
    information.objectsGetNextLoop fuel id ≠ some (none, nextId) := by
  induction fuel generalizing id with
  | zero => exact fun ended => nomatch ended
  | succ fuel ih =>
    have inside : objectsGetIndex id ≤ information.objectsGetMaximumIndex := by
      refine Nat.le_trans ?_ full
      rw [objectsGetIndex_eq]
      exact Nat.le_of_lt_succ (Nat.mod_lt _ (by decide))
    unfold objectsGetNextLoop
    rw [if_neg (Nat.not_lt.mpr inside)]
    split
    · intro ended
      injection ended with pair
      injection pair with object
      nomatch object
    · exact ih (id + 1)

theorem objectsIterate_unended (full : objectsIdFinalIndex ≤ information.objectsGetMaximumIndex)
    (fuel turns : Nat) (id : ObjectsId) : information.objectsIterate fuel turns id = none := by
  induction turns generalizing id with
  | zero => rfl
  | succ turns ih =>
    unfold objectsIterate
    split
    · rfl
    · next nextId ended => exact (objectsGetNextLoop_unended full _ _ _ ended).elim
    · next object nextId found =>
        rw [ih nextId]
        rfl

/-- An iteration from the initial identifier visits the open objects and ends if and
only if the maximum index leaves an index that is beyond it. -/
theorem visitsAll_iff (tabled : information.Tabled)
    (initial : objectsGetIndex id = objectsIdInitialIndex) :
    information.VisitsAll id ↔ information.objectsGetMaximumIndex < objectsIdFinalIndex := by
  constructor
  · rintro ⟨fuel, turns, visits⟩
    refine Nat.lt_of_not_le fun full => ?_
    rw [objectsIterate_unended full] at visits
    nomatch visits
  · intro small
    have cursor := cursorAt_minimumId information
    have index := cursor.index tabled small
    rw [tabled] at index
    have first : objectsGetIndex (objectsGetMinimumId information.maximumId) = 1 := by omega
    refine ⟨information.localTable.length + 1, information.localTable.length + 1, ?_⟩
    have enough := Nat.lt_succ_self information.localTable.length
    have visits := objectsIterate_spec tabled small cursor (first ▸ Nat.one_ne_zero) enough enough
    have restarts : information.objectsGetNext (information.localTable.length + 1) id =
        information.objectsGetNext (information.localTable.length + 1)
          (objectsGetMinimumId information.maximumId) := by
      unfold objectsGetNext
      rw [if_pos initial, if_neg (first ▸ Nat.one_ne_zero)]
    unfold objectsIterate at visits ⊢
    rw [restarts]
    exact visits

/-- A class with an open object, an empty slot and an open object. -/
theorem visitsAll_small :
    let information : ObjectsInformation :=
      { maximumId := objectsBuildId objectsClassicApi objectsRtemsSemaphores 1 3
        localTable := [some ⟨1, 0⟩, none, some ⟨1, 2⟩]
        allocator := .null
        inactive := 1
        initialObjects := none
        inactiveChain := [⟨1, 1⟩] }
    information.VisitsAll (objectsBuildId objectsClassicApi objectsRtemsSemaphores 1 0) :=
  (visitsAll_iff (by unfold Tabled; decide) rfl).mpr (by decide)

/-- A class with an object at each of the 65535 indices. -/
theorem visitsAll_full :
    let information : ObjectsInformation :=
      { maximumId := objectsBuildId objectsClassicApi objectsRtemsSemaphores 1 65535
        localTable := (List.range 65535).map fun position => some ⟨1, position⟩
        allocator := .null
        inactive := 0
        initialObjects := none
        inactiveChain := [] }
    let id := objectsBuildId objectsClassicApi objectsRtemsSemaphores 1 0
    information.Tabled ∧ objectsGetIndex id = objectsIdInitialIndex ∧
      ¬ information.VisitsAll id := by
  refine ⟨?_, rfl, ?_⟩
  · unfold Tabled
    rw [List.length_map, List.length_range]
    rfl
  · rintro ⟨fuel, turns, visits⟩
    rw [objectsIterate_unended (by decide)] at visits
    nomatch visits

end ObjectsInformation

end RTContainer.Score
