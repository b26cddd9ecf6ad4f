import Mathlib.Tactic.Common

/-! Bitmaps, `rtems-rfs-bitmaps.c`. A bit that is clear is a one in its element. The
search bits are those of the elements of the map that are known to have no clear bit. -/

set_option autoImplicit false

namespace RTContainer.Rfs

open Function

def einval : Nat := 22
def elementBits : Nat := 32
def searchWindow : Nat := elementBits * 64

def elementSet : BitVec 32 := 0
def bitmapTest (target : BitVec 32) (bit : Nat) : Bool := !target.getLsbD bit
def bitmapSet (target bits : BitVec 32) : BitVec 32 := target &&& ~~~bits
def bitmapClear (target bits : BitVec 32) : BitVec 32 := target ||| bits

/-- `rtems_rfs_bitmap_control`. The index of an element is any integer, as nothing
keeps that of a search element inside of the memory for them. -/
structure Bitmap where
  size : Nat
  free : Nat
  map : Int → BitVec 32
  searchBits : Int → BitVec 32

namespace Bitmap

/-- `rtems_rfs_bitmap_map_test`, of a bit below the size. -/
def isSet (bitmap : Bitmap) (bit : Nat) : Bool :=
  bitmapTest (bitmap.map (bit / elementBits : Nat)) (bit % elementBits)

def mapClear (bitmap : Bitmap) (bit : Nat) : Bitmap × Nat :=
  if bitmap.size ≤ bit then (bitmap, einval)
  else
    let index := bit / elementBits
    let element := bitmap.map index
    let cleared := bitmapClear element (1#32 <<< (bit % elementBits))
    let bitmap := { bitmap with map := update bitmap.map index cleared }
    if element = cleared then (bitmap, 0)
    else
      let searchIndex : Int := (index / elementBits : Nat)
      let search := bitmapClear (bitmap.searchBits searchIndex) (1#32 <<< (index % elementBits))
      ({ bitmap with
          searchBits := update bitmap.searchBits searchIndex search
          free := bitmap.free + 1 }, 0)

/-- The bit that a search has found is set, and the search bit when no other bit of
the element is clear. -/
def take (bitmap : Bitmap) (mapIndex : Int) (mapOffset : Nat) (searchIndex : Int)
    (searchOffset : Nat) : Bitmap :=
  let element := bitmapSet (bitmap.map mapIndex) (1#32 <<< mapOffset)
  let search := bitmapSet (bitmap.searchBits searchIndex) (1#32 <<< searchOffset)
  { bitmap with
    map := update bitmap.map mapIndex element
    searchBits :=
      if element = elementSet then update bitmap.searchBits searchIndex search
      else bitmap.searchBits
    free := bitmap.free - 1 }

end Bitmap

def direction (up : Bool) : Int := if up then 1 else -1

def Before (up : Bool) (first second : Int) : Prop :=
  if up then first ≤ second else second ≤ first

instance (up : Bool) (first second : Int) : Decidable (Before up first second) :=
  inferInstanceAs (Decidable (if up then first ≤ second else second ≤ first))

def offsetOf (up : Bool) (left : Nat) : Nat := if up then elementBits - left else left - 1

def leftOf (up : Bool) (offset : Nat) : Nat := if up then elementBits - offset else offset + 1

/-- Where a search is in the map: the element, the offsets of it that are left, and the
bit to test. -/
structure MapPlace where
  index : Int
  left : Nat
  testBit : Int

def MapPlace.next (place : MapPlace) (up : Bool) : MapPlace where
  index := place.index + direction up
  left := elementBits
  testBit := (place.index + direction up) * elementBits + if up then 0 else elementBits - 1

def MapPlace.skip (place : MapPlace) (up : Bool) (skipped : Nat) : MapPlace where
  index := place.index + direction up * skipped
  left := elementBits
  testBit :=
    let aligned := place.testBit / elementBits * elementBits
    if up then aligned + skipped * elementBits else aligned - ((skipped - 1) * elementBits + 1)

def searchElement (element : BitVec 32) (up : Bool) (endBit : Int) : Nat → Int → Option (Nat × Int)
  | 0, _ => none
  | left + 1, testBit =>
    let offset := offsetOf up (left + 1)
    if bitmapTest element offset then
      if testBit = endBit then none
      else searchElement element up endBit left (testBit + direction up)
    else some (offset, testBit)

def searchElements (bitmap : Bitmap) (up : Bool) (endBit searchIndex : Int) :
    Nat → MapPlace → Except MapPlace (Bitmap × Int)
  | 0, place => .error place
  | left + 1, place =>
    let offset := offsetOf up (left + 1)
    let found :=
      if bitmapTest (bitmap.searchBits searchIndex) offset then none
      else searchElement (bitmap.map place.index) up endBit place.left place.testBit
    match found with
    | some (mapOffset, testBit) =>
      .ok (bitmap.take place.index mapOffset searchIndex offset, testBit)
    | none =>
      if Before up endBit (place.next up).testBit then .error (place.next up)
      else searchElements bitmap up endBit searchIndex left (place.next up)

def searchLoop (bitmap : Bitmap) (up : Bool) (endBit : Int) :
    Nat → Int → Nat → MapPlace → Option (Bitmap × Int)
  | 0, _, _, _ => none
  | rounds + 1, searchIndex, searchLeft, place =>
    let searched :=
      if bitmap.searchBits searchIndex = elementSet then .error (place.skip up searchLeft)
      else searchElements bitmap up endBit searchIndex searchLeft place
    match searched with
    | .ok found => some found
    | .error place =>
      if Before up place.testBit endBit then
        searchLoop bitmap up endBit rounds (searchIndex + direction up) elementBits place
      else none

/-- `rtems_rfs_search_map_for_clear_bit`. A round of its loop passes an element of the
map at least. -/
def searchMapForClearBit (bitmap : Bitmap) (bit : Nat) (up : Bool) : Option (Bitmap × Int) :=
  let endBit := (bit : Int) + searchWindow * direction up
  let endBit :=
    if endBit < 0 then 0 else if bitmap.size ≤ endBit then (bitmap.size : Int) - 1 else endBit
  let mapIndex := bit / elementBits
  searchLoop bitmap up endBit (searchWindow / elementBits + 1) (mapIndex / elementBits : Nat)
    (leftOf up (mapIndex % elementBits)) ⟨mapIndex, leftOf up (bit % elementBits), bit⟩

/-- The loop of `rtems_rfs_bitmap_map_alloc`: a window above the seed and one below it,
which move away from the seed. -/
def mapAllocLoop (bitmap : Bitmap) : Nat → Int → Int → Option (Bitmap × Int)
  | 0, _, _ => none
  | rounds + 1, upper, lower =>
    let above :=
      if upper < bitmap.size then searchMapForClearBit bitmap upper.toNat true else none
    let below := if 0 ≤ lower then searchMapForClearBit bitmap lower.toNat false else none
    if 0 ≤ upper ∧ upper < bitmap.size ∨ 0 ≤ lower ∧ lower < bitmap.size then
      above <|> below <|> mapAllocLoop bitmap rounds
        (if upper < bitmap.size then upper + searchWindow else upper)
        (if 0 ≤ lower then lower - searchWindow else lower)
    else none

def Bitmap.mapAlloc (bitmap : Bitmap) (seed : Nat) : Option (Bitmap × Nat) :=
  (mapAllocLoop bitmap (bitmap.size / searchWindow + 1) seed seed).map
    fun (bitmap, bit) => (bitmap, bit.toNat)

end RTContainer.Rfs

/-! A bit that is allocated was clear, and is the only bit of the map that changes.
What the search bits say does not matter for this. -/

namespace RTContainer.Rfs

open Function

variable {bitmap after : Bitmap} {up : Bool} {endBit : Int} {place : MapPlace}

variable {bit left rounds : Nat} {element : BitVec 32} {found start middle searchIndex : Int}

theorem bitmapTest_set (target : BitVec 32) (inside : bit < elementBits) (other : Nat) :
    bitmapTest (bitmapSet target (1#32 <<< bit)) other =
      (bitmapTest target other || decide (other = bit)) := by
  rw [elementBits] at inside
  simp only [bitmapTest, bitmapSet, BitVec.getLsbD_and, BitVec.getLsbD_not,
    BitVec.getLsbD_shiftLeft, BitVec.getLsbD_one]
  rcases Nat.lt_trichotomy other bit with below | rfl | above
  · have : other < 32 := Nat.lt_trans below inside
    simp [this, below, Nat.ne_of_lt below]
  · simp [inside]
  · rcases Nat.lt_or_ge other 32 with small | large
    · have : ¬ other - bit = 0 := by omega
      simp [small, this, Nat.not_lt_of_gt above, Nat.ne_of_gt above]
    · simp [BitVec.getLsbD_of_ge target other large, Nat.ne_of_gt above]

theorem bitmapTest_clear (target : BitVec 32) (inside : bit < elementBits) (other : Nat) :
    bitmapTest (bitmapClear target (1#32 <<< bit)) other =
      (bitmapTest target other && !decide (other = bit)) := by
  rw [elementBits] at inside
  simp only [bitmapTest, bitmapClear, BitVec.getLsbD_or,
    BitVec.getLsbD_shiftLeft, BitVec.getLsbD_one]
  rcases Nat.lt_trichotomy other bit with below | rfl | above
  · simp [below, Nat.ne_of_lt below]
  · simp [inside]
  · have : ¬ other - bit = 0 := by omega
    simp [this, Nat.ne_of_gt above]

structure Bitmap.Sets (bitmap : Bitmap) (bit : Nat) (value : Bool) (after : Bitmap) : Prop where
  size : after.size = bitmap.size
  isSet : ∀ other, after.isSet other = if other = bit then value else bitmap.isSet other

theorem Bitmap.Sets.update {value : Bool} (size : after.size = bitmap.size) (map : after.map =
      update bitmap.map ((bit / elementBits : Nat) : Int) element)
    (sets : ∀ offset, bitmapTest element offset =
      if offset = bit % elementBits then value
      else bitmapTest (bitmap.map ((bit / elementBits : Nat) : Int)) offset) :
    bitmap.Sets bit value after where
  size := size
  isSet other := by
    rw [Bitmap.isSet, map]
    rcases eq_or_ne (other / elementBits) (bit / elementBits) with same | different
    · rw [same, update_self, sets, Bitmap.isSet, same]
      have split : other % elementBits = bit % elementBits ↔ other = bit := by
        have left := Nat.div_add_mod other elementBits
        have right := Nat.div_add_mod bit elementBits
        rw [same] at left
        omega
      simp only [split]
    · have : other ≠ bit := fun equal => different (by rw [equal])
      rw [update_of_ne (by exact_mod_cast different), if_neg this, Bitmap.isSet]

theorem Bitmap.mapClear_sets (inside : bit < bitmap.size) :
    ∃ after, bitmap.mapClear bit = (after, 0) ∧ bitmap.Sets bit false after := by
  have offset : bit % elementBits < elementBits := Nat.mod_lt _ (by decide)
  have cleared : ∀ other, bitmapTest (bitmapClear (bitmap.map ((bit / elementBits : Nat) : Int))
      (1#32 <<< (bit % elementBits))) other =
      if other = bit % elementBits then false
      else bitmapTest (bitmap.map ((bit / elementBits : Nat) : Int)) other := by
    intro other
    rw [bitmapTest_clear _ offset]
    split <;> simp_all
  rw [mapClear, if_neg (Nat.not_le_of_lt inside)]
  dsimp only
  split
  · exact ⟨_, rfl, .update rfl rfl cleared⟩
  · exact ⟨_, rfl, .update rfl rfl cleared⟩

theorem Before.trans {first second third : Int} (early : Before up first second)
    (late : Before up second third) : Before up first third := by
  cases up <;> simp only [Before, Bool.false_eq_true, if_true, if_false] at * <;> omega

structure MapPlace.Aligned (place : MapPlace) (up : Bool) : Prop where
  some_left : 1 ≤ place.left
  inside : place.left ≤ elementBits
  testBit : place.testBit = place.index * elementBits + offsetOf up place.left

theorem offsetOf_lt {left : Nat} (some_left : 1 ≤ left) (inside : left ≤ elementBits) :
    offsetOf up left < elementBits := by
  rw [offsetOf]
  split <;> omega

theorem leftOf_mod (up : Bool) (bit : Nat) :
    1 ≤ leftOf up (bit % elementBits) ∧ leftOf up (bit % elementBits) ≤ elementBits ∧
      offsetOf up (leftOf up (bit % elementBits)) = bit % elementBits := by
  have inside : bit % elementBits < elementBits := Nat.mod_lt _ (by decide)
  rw [leftOf, offsetOf]
  split <;> omega

theorem MapPlace.next_aligned (place : MapPlace) (up : Bool) : (place.next up).Aligned up := by
  refine ⟨Nat.le_add_left 1 31, Nat.le_refl _, ?_⟩
  cases up <;> rfl

theorem MapPlace.next_before (aligned : place.Aligned up) :
    Before up place.testBit (place.next up).testBit := by
  have some_left := aligned.some_left
  have inside := aligned.inside
  have isBit := aligned.testBit
  simp only [MapPlace.next, Before, direction, offsetOf, elementBits] at *
  cases up <;> simp at * <;> omega

theorem MapPlace.skip_aligned (aligned : place.Aligned up) (skipped : Nat) :
    (place.skip up skipped).Aligned up := by
  refine ⟨Nat.le_add_left 1 31, Nat.le_refl _, ?_⟩
  have some_left := aligned.some_left
  have inside := aligned.inside
  have isBit := aligned.testBit
  simp only [MapPlace.skip, direction, offsetOf, elementBits] at *
  cases up <;> simp at * <;> omega

theorem MapPlace.skip_before (aligned : place.Aligned up) {skipped : Nat} (some_skipped : 1 ≤ skipped) :
    Before up place.testBit (place.skip up skipped).testBit := by
  have some_left := aligned.some_left
  have inside := aligned.inside
  have isBit := aligned.testBit
  simp only [MapPlace.skip, Before, direction, offsetOf, elementBits] at *
  cases up <;> simp at * <;> omega

theorem searchElement_some {offset : Nat} {testBit index : Int} (inside : left ≤ elementBits)
    (aligned : testBit = index * elementBits + offsetOf up left) (before : Before up testBit endBit)
    (searched : searchElement element up endBit left testBit = some (offset, found)) :
    bitmapTest element offset = false ∧ offset < elementBits ∧
      found = index * elementBits + offset ∧ Before up testBit found ∧ Before up found endBit := by
  fun_induction searchElement element up endBit left testBit with
  | case1 | case2 => exact nomatch searched
  | case3 left testBit isOffset isSet different ih =>
    have step : Before up testBit (testBit + direction up) ∧
        Before up (testBit + direction up) endBit := by
      simp only [Before, direction] at *
      cases up <;> simp at * <;> omega
    cases left with
    | zero => rw [searchElement] at searched; exact nomatch searched
    | succ left =>
      have next : testBit + direction up = index * elementBits + offsetOf up (left + 1) := by
        rw [aligned]
        simp only [offsetOf, direction, elementBits] at *
        cases up <;> simp at * <;> omega
      obtain ⟨isClear, offsetInside, isFound, early, late⟩ :=
        ih (Nat.le_of_succ_le inside) next step.2 searched
      exact ⟨isClear, offsetInside, isFound, step.1.trans early, late⟩
  | case4 left testBit isOffset isClear =>
    obtain ⟨rfl, rfl⟩ : _ ∧ _ := by simpa using searched
    refine ⟨Bool.eq_false_iff.mpr isClear, offsetOf_lt (Nat.succ_pos left) inside, aligned, ?_, before⟩
    cases up <;> simp [Before]

structure Found (bitmap : Bitmap) (up : Bool) (start endBit : Int) (after : Bitmap) (bit : Int) :
    Prop where
  early : Before up start bit
  late : Before up bit endBit
  taken : ∃ (index : Int) (offset : Nat), bit = index * elementBits + offset ∧ offset < elementBits ∧
    bitmapTest (bitmap.map index) offset = false ∧
      after.size = bitmap.size ∧ after.map =
        update bitmap.map index (bitmapSet (bitmap.map index) (1#32 <<< offset))

theorem Found.earlier {bit : Int} (found : Found bitmap up middle endBit after bit)
    (before : Before up start middle) : Found bitmap up start endBit after bit :=
  ⟨before.trans found.early, found.late, found.taken⟩

def Searched (bitmap : Bitmap) (up : Bool) (start endBit : Int) :
    Except MapPlace (Bitmap × Int) → Prop
  | .ok (after, bit) => Found bitmap up start endBit after bit
  | .error place => place.Aligned up ∧ Before up start place.testBit

theorem Searched.earlier {result : Except MapPlace (Bitmap × Int)}
    (searched : Searched bitmap up middle endBit result) (before : Before up start middle) :
    Searched bitmap up start endBit result := by
  cases result with
  | ok found => exact Found.earlier searched before
  | error place => exact ⟨searched.1, before.trans searched.2⟩

/-- A search finds the next clear bit, if there is one. -/
theorem searchElements_searched (aligned : place.Aligned up)
    (before : Before up place.testBit endBit) :
    Searched bitmap up place.testBit endBit
      (searchElements bitmap up endBit searchIndex left place) := by
  fun_induction searchElements bitmap up endBit searchIndex left place with
  | case1 place => exact ⟨aligned, by cases up <;> simp [Before]⟩
  | case2 left place offset search mapOffset testBit found =>
    have searched : searchElement (bitmap.map place.index) up endBit place.left place.testBit =
        some (mapOffset, testBit) := by
      exact (Option.ite_none_left_eq_some.mp found).2
    obtain ⟨isClear, inside, isFound, early, late⟩ :=
      searchElement_some aligned.inside aligned.testBit before searched
    exact ⟨early, late, place.index, mapOffset, isFound, inside, isClear, rfl, rfl⟩
  | case3 left place offset search absent passed =>
    exact ⟨place.next_aligned up, place.next_before aligned⟩
  | case4 left place offset search absent notPassed ih =>
    have next : Before up (place.next up).testBit endBit := by
      revert notPassed
      cases up <;> simp only [Before, Bool.false_eq_true, if_true, if_false] <;> omega
    exact (ih (place.next_aligned up) next).earlier (place.next_before aligned)

theorem searchLoop_found {searchLeft : Nat} {bit : Int} (aligned : place.Aligned up)
    (before : Before up place.testBit endBit) (some_left : 1 ≤ searchLeft)
    (searched : searchLoop bitmap up endBit rounds searchIndex searchLeft place =
      some (after, bit)) : Found bitmap up place.testBit endBit after bit := by
  have round : ∀ (searchIndex : Int) (searchLeft : Nat) (place : MapPlace), 1 ≤ searchLeft →
      place.Aligned up → Before up place.testBit endBit →
      Searched bitmap up place.testBit endBit
        (if bitmap.searchBits searchIndex = elementSet then .error (place.skip up searchLeft)
        else searchElements bitmap up endBit searchIndex searchLeft place) := by
    intro searchIndex searchLeft place some_left aligned before
    split
    · exact ⟨place.skip_aligned aligned searchLeft, place.skip_before aligned some_left⟩
    · exact searchElements_searched aligned before
  fun_induction searchLoop bitmap up endBit rounds searchIndex searchLeft place with
  | case1 | case4 => exact nomatch searched
  | case2 rounds searchIndex searchLeft place result found isFound =>
    have outcome := round searchIndex searchLeft place some_left aligned before
    obtain rfl : found = (after, bit) := by simpa using searched
    change Searched bitmap up place.testBit endBit result at outcome
    rw [isFound] at outcome
    exact outcome
  | case3 rounds searchIndex searchLeft place result next isNext within ih =>
    have outcome := round searchIndex searchLeft place some_left aligned before
    change Searched bitmap up place.testBit endBit result at outcome
    rw [isNext] at outcome
    exact (ih outcome.1 within (by decide) searched).earlier outcome.2

structure Bitmap.Allocates (bitmap : Bitmap) (bit : Nat) (after : Bitmap) : Prop where
  inside : bit < bitmap.size
  clear : bitmap.isSet bit = false
  sets : bitmap.Sets bit true after

theorem Found.allocates {bit : Int} (found : Found bitmap up start endBit after bit)
    (start_range : 0 ≤ start ∧ start < bitmap.size)
    (end_range : 0 ≤ endBit ∧ endBit < bitmap.size) :
    bitmap.Allocates bit.toNat after := by
  obtain ⟨index, offset, isBit, offsetInside, isClear, size, map⟩ := found.taken
  have early := found.early
  have late := found.late
  have range : 0 ≤ bit ∧ bit < bitmap.size := by
    simp only [Before] at early late
    cases up <;> simp at early late <;> omega
  have isIndex : ((bit.toNat / elementBits : Nat) : Int) = index := by
    simp only [elementBits] at *
    omega
  have isOffset : bit.toNat % elementBits = offset := by
    simp only [elementBits] at *
    omega
  refine ⟨by omega, ?_, .update size (by rw [isIndex]; exact map) ?_⟩
  · rw [Bitmap.isSet, isIndex, isOffset, isClear]
  · intro other
    rw [isIndex, isOffset, bitmapTest_set _ offsetInside]
    split <;> simp_all

private theorem searchMapForClearBit_allocates (inside : bit < bitmap.size)
    (searched : searchMapForClearBit bitmap bit up = some (after, found)) :
    bitmap.Allocates found.toNat after := by
  have offset := leftOf_mod up bit
  have search := leftOf_mod up (bit / elementBits)
  refine (searchLoop_found ⟨offset.1, offset.2.1, ?_⟩ ?_ search.1 searched).allocates ⟨?_, ?_⟩ ?_
  · dsimp only
    rw [offset.2.2]
    simp only [elementBits]
    omega
  · simp only [Before, direction, searchWindow, elementBits]
    cases up <;> simp <;> split <;> omega
  · exact Int.natCast_nonneg bit
  · exact Int.ofNat_lt.mpr inside
  · split
    · omega
    · split <;> omega

/-- The bit of a successful round was clear. -/
theorem mapAllocLoop_allocates {upper lower bit : Int} (upper_nonneg : 0 ≤ upper)
    (lower_inside : lower < bitmap.size)
    (allocated : mapAllocLoop bitmap rounds upper lower = some (after, bit)) :
    bitmap.Allocates bit.toNat after := by
  fun_induction mapAllocLoop bitmap rounds upper lower with
  | case1 | case3 => exact nomatch allocated
  | case2 upper lower rounds above below within ih =>
    simp only [Option.orElse_eq_orElse, Option.orElse_eq_or, Option.or_eq_some_iff] at allocated
    rcases allocated with isAbove | ⟨-, isBelow | ⟨-, further⟩⟩
    · obtain ⟨inside, searched⟩ := Option.ite_none_right_eq_some.mp isAbove
      exact searchMapForClearBit_allocates (by omega) searched
    · obtain ⟨inside, searched⟩ := Option.ite_none_right_eq_some.mp isBelow
      exact searchMapForClearBit_allocates (by omega) searched
    · refine ih ?_ ?_ further
      · split
        · simp only [searchWindow, elementBits]
          omega
        · exact upper_nonneg
      · split
        · simp only [searchWindow, elementBits]
          omega
        · exact lower_inside

theorem Bitmap.mapAlloc_allocates {seed : Nat} (inside : seed < bitmap.size)
    (allocated : bitmap.mapAlloc seed = some (after, bit)) : bitmap.Allocates bit after := by
  obtain ⟨⟨found, foundBit⟩, looped, result⟩ := Option.map_eq_some_iff.mp allocated
  obtain ⟨rfl, rfl⟩ : _ ∧ _ := by simpa using result
  exact mapAllocLoop_allocates (Int.natCast_nonneg seed) (by exact_mod_cast inside) looped

end RTContainer.Rfs
