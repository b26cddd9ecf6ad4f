import Mathlib.Data.Nat.Count
import RTContainer.Lib.Run
import RTContainer.Rfs.Bitmap

/-! The search bits of a bitmap, and what a search that finds nothing has looked at. A
search bit that is set hides its element from every search. -/

set_option autoImplicit false

namespace RTContainer.Rfs

open Function

def elementClear : BitVec 32 := BitVec.allOnes 32

/-- `rtems_rfs_bitmap_mask`, of one bit at least. -/
def bitmapMask (size : Nat) : BitVec 32 := BitVec.allOnes 32 >>> (elementBits - size)

def bitmapMerge (bits1 bits2 mask : BitVec 32) : BitVec 32 := bits1 &&& mask ||| bits2 &&& ~~~mask

def bitmapElements (bits : Nat) : Nat := (bits - 1) / elementBits + 1

def fillElements (elements : Int → BitVec 32) (count : Nat) (value : BitVec 32) (index : Int) :
    BitVec 32 :=
  if 0 ≤ index ∧ index < count then value else elements index

namespace Bitmap

variable (bitmap : Bitmap)

def mapSet (bit : Nat) : Bitmap × Nat :=
  if bitmap.size ≤ bit then (bitmap, einval)
  else
    let index := bit / elementBits
    let element := bitmap.map index
    let set := bitmapSet element (1#32 <<< (bit % elementBits))
    let bitmap := { bitmap with map := update bitmap.map index set }
    if element = set then (bitmap, 0)
    else
      let bitmap := { bitmap with free := bitmap.free - 1 }
      if set = elementSet then
        let searchIndex : Int := (index / elementBits : Nat)
        let search := bitmapSet (bitmap.searchBits searchIndex) (1#32 <<< (index % elementBits))
        ({ bitmap with searchBits := update bitmap.searchBits searchIndex search }, 0)
      else (bitmap, 0)

def mapSetAll : Bitmap :=
  let elements := bitmapElements bitmap.size
  { bitmap with
    free := 0
    map := fillElements bitmap.map elements elementSet
    searchBits := fillElements bitmap.searchBits (bitmapElements elements) elementSet }

def mapClearAll : Bitmap :=
  let elements := bitmapElements bitmap.size
  let lastSearchBit := if elements % elementBits = 0 then elementBits else elements % elementBits
  let searchElements := bitmapElements elements
  { bitmap with
    free := bitmap.size
    map := fillElements bitmap.map elements elementClear
    searchBits :=
      update (fillElements bitmap.searchBits (searchElements - 1) elementClear)
        ((searchElements - 1 : Nat) : Int)
        (bitmapMerge elementClear elementSet (bitmapMask lastSearchBit)) }

/-- The loop of `rtems_rfs_bitmap_create_search`. It drops the result of
`rtems_rfs_bitmap_set`, so that no search bit is set. -/
def createSearchLoop (bitmap : Bitmap) (size searchIndex bit index : Nat) : Bitmap :=
  if _isEmpty : size = 0 then bitmap
  else
    let available := min size elementBits
    let bits :=
      if size < elementBits then bitmapMerge (bitmap.map index) elementSet (bitmapMask size)
      else bitmap.map index
    let bitmap :=
      if bits = elementSet then bitmap
      else { bitmap with
        free := bitmap.free + Nat.count (fun offset => bitmapTest bits offset = false) available }
    let size := size - available
    if bit = elementBits - 1 then
      let bitmap :=
        if 0 < size then
          { bitmap with
            searchBits :=
              update bitmap.searchBits ((searchIndex + 1 : Nat) : Int) elementClear }
        else bitmap
      bitmap.createSearchLoop size (searchIndex + 1) 0 (index + 1)
    else bitmap.createSearchLoop size searchIndex (bit + 1) (index + 1)
termination_by size
decreasing_by all_goals rw [elementBits]; omega

def createSearch : Bitmap :=
  createSearchLoop
    { bitmap with free := 0, searchBits := update bitmap.searchBits 0 elementClear }
    bitmap.size 0 0 0

def bitAt (bit : Int) : Bool :=
  bitmapTest (bitmap.map (bit / elementBits)) (bit % elementBits).toNat

def searchAt (element : Int) : Bool :=
  bitmapTest (bitmap.searchBits (element / elementBits)) (element % elementBits).toNat

/-- What the bitmap says about itself is right. -/
structure Consistent (bitmap : Bitmap) : Prop where
  free : bitmap.free = Nat.count (fun bit => bitmap.isSet bit = false) bitmap.size
  full : ∀ bit : Int, 0 ≤ bit → bit < bitmap.size → bitmap.searchAt (bit / elementBits) = true →
    bitmap.bitAt bit = true

def takeBit (bit : Int) : Bitmap :=
  bitmap.take (bit / elementBits) (bit % elementBits).toNat (bit / elementBits / elementBits)
    (bit / elementBits % elementBits).toNat

end Bitmap

namespace Bitmap

variable {bitmap after : Bitmap}

theorem isSet_eq_bitAt (bitmap : Bitmap) (bit : Nat) : bitmap.isSet bit = bitmap.bitAt bit := rfl

variable {bit size offset index : Nat}

theorem Sets.count_set (sets : bitmap.Sets bit true after) (inside : bit < bitmap.size)
    (clear : bitmap.isSet bit = false) :
    Nat.count (fun bit => after.isSet bit = false) after.size =
      Nat.count (fun bit => bitmap.isSet bit = false) bitmap.size - 1 := by
  rw [sets.size, Nat.count_eq_card_filter_range, Nat.count_eq_card_filter_range,
    ← Finset.card_erase_of_mem (Finset.mem_filter.mpr ⟨Finset.mem_range.mpr inside, clear⟩)]
  congr 1
  ext other
  simp only [Finset.mem_filter, Finset.mem_erase, sets.isSet]
  by_cases same : other = bit <;> simp [same]

theorem Sets.count_clear (sets : bitmap.Sets bit false after) (inside : bit < bitmap.size)
    (isSet : bitmap.isSet bit = true) :
    Nat.count (fun bit => after.isSet bit = false) after.size =
      Nat.count (fun bit => bitmap.isSet bit = false) bitmap.size + 1 := by
  have absent : bit ∉ (Finset.range bitmap.size).filter fun bit => bitmap.isSet bit = false := by
    simp [isSet]
  rw [sets.size, Nat.count_eq_card_filter_range, Nat.count_eq_card_filter_range,
    ← Finset.card_insert_of_notMem absent]
  congr 1
  ext other
  simp only [Finset.mem_filter, Finset.mem_insert, sets.isSet]
  by_cases same : other = bit <;> simp [same, inside]

theorem bitmapTest_elementSet (offset : Nat) : bitmapTest elementSet offset = true := by
  simp [bitmapTest, elementSet]

theorem takeBit_sets : bitmap.Sets bit true (bitmap.takeBit bit) := by
  refine .update rfl rfl fun offset => ?_
  have offsetInside : bit % elementBits < elementBits := Nat.mod_lt _ (by decide)
  rw [show ((bit : Int) % (elementBits : Nat)).toNat = bit % elementBits from rfl,
    bitmapTest_set _ offsetInside]
  split <;> simp_all

theorem takeBit_searchAt {element : Int} (bit : Nat)
    (isSet : (bitmap.takeBit bit).searchAt element = true) :
    bitmap.searchAt element = true ∨
      element = (bit / elementBits : Nat) ∧ (bitmap.takeBit bit).map element = elementSet := by
  have offsetInside : bit / elementBits % elementBits < elementBits := Nat.mod_lt _ (by decide)
  by_cases becomesFull : bitmapSet (bitmap.map ((bit / elementBits : Nat) : Int))
      (1#32 <<< (bit % elementBits)) = elementSet
  · have search : (bitmap.takeBit bit).searchBits =
        update bitmap.searchBits ((bit / elementBits / elementBits : Nat) : Int)
          (bitmapSet (bitmap.searchBits ((bit / elementBits / elementBits : Nat) : Int))
            (1#32 <<< (bit / elementBits % elementBits))) := if_pos becomesFull
    have map : (bitmap.takeBit bit).map ((bit / elementBits : Nat) : Int) = elementSet :=
      (update_self ..).trans becomesFull
    rw [searchAt, search] at isSet
    by_cases sameWord : element / elementBits = ((bit / elementBits / elementBits : Nat) : Int)
    · rw [sameWord, update_self, bitmapTest_set _ offsetInside, Bool.or_eq_true,
        decide_eq_true_iff] at isSet
      rcases isSet with old | same
      · left
        rw [searchAt, sameWord]
        exact old
      · have isElement : element = (bit / elementBits : Nat) := by
          simp only [elementBits] at *
          omega
        exact .inr ⟨isElement, isElement ▸ map⟩
    · rw [update_of_ne sameWord] at isSet
      exact .inl isSet
  · have search : (bitmap.takeBit bit).searchBits = bitmap.searchBits := if_neg becomesFull
    left
    rw [searchAt, search] at isSet
    exact isSet

theorem Consistent.takeBit (consistent : bitmap.Consistent) (inside : bit < bitmap.size)
    (clear : bitmap.isSet bit = false) : (bitmap.takeBit bit).Consistent := by
  have sets : bitmap.Sets bit true (bitmap.takeBit bit) := takeBit_sets
  refine ⟨?_, fun other nonneg below isSet => ?_⟩
  · rw [sets.count_set inside clear, ← consistent.free]
    rfl
  · rcases takeBit_searchAt bit isSet with old | ⟨-, isFull⟩
    · obtain ⟨other, rfl⟩ := Int.eq_ofNat_of_zero_le nonneg
      have kept := sets.isSet other
      rw [isSet_eq_bitAt] at kept
      rw [kept]
      split
      · rfl
      · exact consistent.full other nonneg below old
    · rw [bitAt, isFull, bitmapTest_elementSet]

theorem mapSet_eq (bitmap : Bitmap) (inside : bit < bitmap.size) :
    bitmap.mapSet bit = (if bitmap.isSet bit then bitmap else bitmap.takeBit bit, 0) := by
  have offset : bit % elementBits < elementBits := Nat.mod_lt _ (by decide)
  rw [mapSet, if_neg (Nat.not_le_of_lt inside)]
  dsimp only
  by_cases isSet : bitmap.isSet bit = true
  · have same : bitmap.map ((bit / elementBits : Nat) : Int) =
        bitmapSet (bitmap.map ((bit / elementBits : Nat) : Int))
          (1#32 <<< (bit % elementBits)) := by
      refine BitVec.eq_of_getLsbD_eq fun other _ => ?_
      have tested := bitmapTest_set (bitmap.map ((bit / elementBits : Nat) : Int)) offset other
      have kept : (bitmapTest (bitmap.map ((bit / elementBits : Nat) : Int)) other ||
          decide (other = bit % elementBits)) =
          bitmapTest (bitmap.map ((bit / elementBits : Nat) : Int)) other := by
        by_cases isOffset : other = bit % elementBits
        · rw [isOffset, show bitmapTest _ _ = true from isSet, Bool.true_or]
        · simp [isOffset]
      rw [kept] at tested
      simpa [bitmapTest] using tested.symm
    rw [if_pos same, if_pos isSet, ← same, update_eq_self]
  · have different : bitmap.map ((bit / elementBits : Nat) : Int) ≠
        bitmapSet (bitmap.map ((bit / elementBits : Nat) : Int))
          (1#32 <<< (bit % elementBits)) := by
      intro same
      have tested := bitmapTest_set (bitmap.map ((bit / elementBits : Nat) : Int)) offset
        (bit % elementBits)
      rw [← same] at tested
      simp only [decide_true, Bool.or_true] at tested
      exact isSet tested
    rw [if_neg different, if_neg isSet]
    split
    next becomesFull => exact congrArg (·, 0) (by rw [takeBit, take]; exact if_pos becomesFull ▸ rfl)
    next stays => exact congrArg (·, 0) (by rw [takeBit, take]; exact if_neg stays ▸ rfl)

theorem Consistent.mapSet (consistent : bitmap.Consistent) (bit : Nat) :
    (bitmap.mapSet bit).1.Consistent := by
  by_cases inside : bit < bitmap.size
  · rw [mapSet_eq bitmap inside]
    dsimp only
    split
    next => exact consistent
    next isClear => exact consistent.takeBit inside (Bool.eq_false_iff.mpr isClear)
  · rw [Bitmap.mapSet, if_pos (Nat.le_of_not_lt inside)]
    exact consistent

/-- Clearing a bit keeps the search map in step. -/
theorem Consistent.mapClear (consistent : bitmap.Consistent) (bit : Nat) :
    (bitmap.mapClear bit).1.Consistent := by
  by_cases inside : bit < bitmap.size
  · obtain ⟨after, isAfter, sets⟩ := mapClear_sets inside
    have offset : bit % elementBits < elementBits := Nat.mod_lt _ (by decide)
    have searchOffset : bit / elementBits % elementBits < elementBits := Nat.mod_lt _ (by decide)
    have tested := bitmapTest_clear (bitmap.map ((bit / elementBits : Nat) : Int)) offset
      (bit % elementBits)
    simp only [decide_true, Bool.not_true, Bool.and_false] at tested
    have count := sets.count_clear inside
    rw [isAfter]
    rw [Bitmap.mapClear, if_neg (Nat.not_le_of_lt inside)] at isAfter
    dsimp only at isAfter ⊢
    split at isAfter
    next same =>
      -- the bit was clear, and the bitmap stays as it is
      obtain ⟨rfl, -⟩ := Prod.mk.inj isAfter
      rw [← same, update_eq_self]
      exact consistent
    next different =>
      obtain ⟨rfl, -⟩ := Prod.mk.inj isAfter
      have wasSet : bitmap.isSet bit = true := by
        by_contra isClear
        refine different (BitVec.eq_of_getLsbD_eq fun other _ => ?_)
        have others := bitmapTest_clear (bitmap.map ((bit / elementBits : Nat) : Int)) offset other
        have kept : (bitmapTest (bitmap.map ((bit / elementBits : Nat) : Int)) other &&
            !decide (other = bit % elementBits)) =
            bitmapTest (bitmap.map ((bit / elementBits : Nat) : Int)) other := by
          by_cases isOffset : other = bit % elementBits
          · rw [isOffset, show bitmapTest _ _ = false from Bool.eq_false_iff.mpr isClear,
              Bool.false_and]
          · simp [isOffset]
        rw [kept] at others
        simpa [bitmapTest] using others.symm
      refine ⟨?_, fun other nonneg below isSet => ?_⟩
      · rw [count wasSet, ← consistent.free]
      · rw [searchAt] at isSet
        dsimp only at isSet
        have elsewhere : (other / elementBits : Int) ≠ (bit / elementBits : Nat) ∧
            bitmap.searchAt (other / elementBits) = true := by
          by_cases sameWord : (other / elementBits / elementBits : Int) =
              ((bit / elementBits / elementBits : Nat) : Int)
          · rw [sameWord, update_self, bitmapTest_clear _ searchOffset] at isSet
            obtain ⟨old, notSame⟩ := Bool.and_eq_true_iff.mp isSet
            refine ⟨fun same => ?_, by rw [searchAt, sameWord]; exact old⟩
            rw [same] at notSame
            rw [show (((bit / elementBits : Nat) : Int) % (elementBits : Nat)).toNat =
              bit / elementBits % elementBits from rfl, decide_eq_true rfl] at notSame
            cases notSame
          · rw [update_of_ne sameWord] at isSet
            exact ⟨fun same => sameWord (by rw [same]; rfl), isSet⟩
        rw [bitAt]
        dsimp only
        rw [update_of_ne elsewhere.1]
        exact consistent.full other nonneg below elsewhere.2
  · rw [Bitmap.mapClear, if_pos (Nat.le_of_not_lt inside)]
    exact consistent

theorem lt_bitmapElements (inside : bit < size) : bit / elementBits < bitmapElements size := by
  simp only [bitmapElements, elementBits]
  omega

theorem mapSetAll_consistent (bitmap : Bitmap) : bitmap.mapSetAll.Consistent := by
  have isFull : ∀ bit : Int, 0 ≤ bit → bit < bitmap.size → bitmap.mapSetAll.bitAt bit = true := by
    intro bit nonneg inside
    obtain ⟨bit, rfl⟩ := Int.eq_ofNat_of_zero_le nonneg
    have := lt_bitmapElements (Int.ofNat_lt.mp inside)
    rw [bitAt, mapSetAll]
    dsimp only
    rw [fillElements, if_pos ⟨Int.natCast_nonneg (bit / elementBits), Int.ofNat_lt.mpr this⟩,
      bitmapTest_elementSet]
  refine ⟨?_, fun bit nonneg inside _ => isFull bit nonneg inside⟩
  refine (Nat.count_iff_forall_not.mpr fun bit inside => ?_).symm
  rw [isSet_eq_bitAt, isFull bit (Int.natCast_nonneg bit) (Int.ofNat_lt.mpr inside)]
  exact nofun

theorem bitmapTest_elementClear (inside : offset < elementBits) :
    bitmapTest elementClear offset = false := by
  rw [elementBits] at inside
  rw [bitmapTest, elementClear, BitVec.getLsbD_allOnes, decide_eq_true inside, Bool.not_true]

private theorem bitmapTest_mask (inside : offset < size) (fits : size ≤ elementBits) :
    (bitmapMask size).getLsbD offset = true := by
  simp only [elementBits] at fits
  simp only [bitmapMask, elementBits, BitVec.getLsbD_ushiftRight, BitVec.getLsbD_allOnes,
    decide_eq_true_iff]
  omega

theorem mapClearAll_consistent (bitmap : Bitmap) : bitmap.mapClearAll.Consistent := by
  have offset : ∀ number, number % elementBits < elementBits := fun _ => Nat.mod_lt _ (by decide)
  refine ⟨?_, fun bit nonneg inside isSet => ?_⟩
  · have isClear : ∀ bit < bitmap.size, bitmap.mapClearAll.isSet bit = false := by
      intro bit inside
      rw [isSet, mapClearAll]
      dsimp only
      rw [fillElements, if_pos ⟨Int.natCast_nonneg _, Int.ofNat_lt.mpr (lt_bitmapElements inside)⟩,
        bitmapTest_elementClear (offset bit)]
    exact (Nat.count_iff_forall.mpr isClear).symm
  · obtain ⟨bit, rfl⟩ := Int.eq_ofNat_of_zero_le nonneg
    have isElement : bit / elementBits < bitmapElements bitmap.size :=
      lt_bitmapElements (Int.ofNat_lt.mp inside)
    have isWord := lt_bitmapElements isElement
    rw [searchAt, mapClearAll] at isSet
    dsimp only at isSet
    by_cases isLast : bit / elementBits / elementBits =
        bitmapElements (bitmapElements bitmap.size) - 1
    · rw [show ((bit : Int) / (elementBits : Nat) / (elementBits : Nat)) =
        ((bit / elementBits / elementBits : Nat) : Int) from rfl, isLast, update_self,
        show ((bit : Int) / (elementBits : Nat) % (elementBits : Nat)).toNat =
          bit / elementBits % elementBits from rfl] at isSet
      have last : bit / elementBits % elementBits <
          (if bitmapElements bitmap.size % elementBits = 0 then elementBits
            else bitmapElements bitmap.size % elementBits) ∧
          (if bitmapElements bitmap.size % elementBits = 0 then elementBits
            else bitmapElements bitmap.size % elementBits) ≤ elementBits := by
        split
        next => exact ⟨offset _, Nat.le_refl _⟩
        next =>
          refine ⟨?_, Nat.le_of_lt (offset _)⟩
          simp only [bitmapElements, elementBits] at *
          omega
      have mask := bitmapTest_mask last.1 last.2
      simp only [bitmapTest, bitmapMerge, BitVec.getLsbD_or, BitVec.getLsbD_and, mask, elementClear,
        BitVec.getLsbD_allOnes] at isSet
      simp [show bit / elementBits % elementBits < 32 from offset _] at isSet
    · rw [update_of_ne (by exact_mod_cast isLast), fillElements, if_pos ⟨Int.natCast_nonneg
        (bit / elementBits / elementBits), by
          rw [show ((bit : Int) / (elementBits : Nat) / (elementBits : Nat)) =
            ((bit / elementBits / elementBits : Nat) : Int) from rfl]
          exact Int.ofNat_lt.mpr (by omega)⟩] at isSet
      cases isSet.symm.trans (bitmapTest_elementClear (offset (bit / elementBits)))

theorem count_congr {first second : Nat → Prop} [DecidablePred first] [DecidablePred second]
    (same : ∀ bit < size, first bit ↔ second bit) :
    Nat.count first size = Nat.count second size := by
  rw [Nat.count_eq_card_filter_range, Nat.count_eq_card_filter_range]
  exact congrArg Finset.card (Finset.filter_congr fun bit inside =>
    same bit (Finset.mem_range.mp inside))

theorem availableBits_test (bitmap : Bitmap) (inside : offset < min size elementBits) :
    bitmapTest (if size < elementBits
      then bitmapMerge (bitmap.map index) elementSet (bitmapMask size) else bitmap.map index)
      offset = bitmap.isSet (index * elementBits + offset) := by
  have small : offset < elementBits := Nat.lt_of_lt_of_le inside (Nat.min_le_right ..)
  have isSame : bitmap.isSet (index * elementBits + offset) =
      bitmapTest (bitmap.map index) offset := by
    rw [isSet, Nat.mul_comm, Nat.mul_add_div (by decide), Nat.mul_add_mod,
      Nat.mod_eq_of_lt small, Nat.div_eq_of_lt small, Nat.add_zero]
  rw [isSame]
  split
  next part =>
    have mask := bitmapTest_mask (Nat.lt_of_lt_of_le inside (Nat.min_le_left ..))
      (Nat.le_of_lt part)
    simp [bitmapTest, bitmapMerge, elementSet, mask]
  next => rfl

theorem count_available (bitmap : Bitmap) (size index : Nat) :
    Nat.count (fun offset => bitmap.isSet (index * elementBits + offset) = false) size =
      Nat.count (fun offset => bitmap.isSet (index * elementBits + offset) = false)
        (min size elementBits) +
      Nat.count (fun offset => bitmap.isSet ((index + 1) * elementBits + offset) = false)
        (size - min size elementBits) := by
  rcases Nat.lt_or_ge size elementBits with part | whole
  · rw [Nat.min_eq_left (Nat.le_of_lt part), Nat.sub_self, Nat.count_zero, Nat.add_zero]
  · obtain ⟨left, rfl⟩ := Nat.exists_eq_add_of_le whole
    rw [Nat.min_eq_right whole, Nat.add_sub_cancel_left, Nat.count_add]
    simp only [Nat.add_mul, Nat.one_mul, Nat.add_assoc]

theorem countedElement_free (bitmap : Bitmap) (size index : Nat) (bits : BitVec 32)
    (isBits : bits = if size < elementBits
      then bitmapMerge (bitmap.map index) elementSet (bitmapMask size) else bitmap.map index) :
    (if bits = elementSet then 0
      else Nat.count (fun offset => bitmapTest bits offset = false) (min size elementBits)) =
      Nat.count (fun offset => bitmap.isSet (index * elementBits + offset) = false)
        (min size elementBits) := by
  have tests : Nat.count (fun offset => bitmapTest bits offset = false) (min size elementBits) =
      Nat.count (fun offset => bitmap.isSet (index * elementBits + offset) = false)
        (min size elementBits) :=
    count_congr fun offset inside => by rw [isBits, availableBits_test bitmap inside]
  split
  next full =>
    rw [← tests, full, eq_comm, Nat.count_iff_forall_not]
    exact fun offset _ => by rw [bitmapTest_elementSet]; exact nofun
  next => exact tests

theorem createSearchLoop_counts (bitmap : Bitmap) (size searchIndex bit index : Nat) :
    (bitmap.createSearchLoop size searchIndex bit index).size = bitmap.size ∧
    (bitmap.createSearchLoop size searchIndex bit index).map = bitmap.map ∧
    (bitmap.createSearchLoop size searchIndex bit index).free = bitmap.free +
      Nat.count (fun offset => bitmap.isSet (index * elementBits + offset) = false) size := by
  have step : ∀ (bitmap counted next result : Bitmap) (size index : Nat) (bits : BitVec 32),
      (bits = if size < elementBits
        then bitmapMerge (bitmap.map index) elementSet (bitmapMask size) else bitmap.map index) →
      (counted = if bits = elementSet then bitmap else { bitmap with
        free := bitmap.free +
          Nat.count (fun offset => bitmapTest bits offset = false) (min size elementBits) }) →
      next.size = counted.size ∧ next.map = counted.map ∧ next.free = counted.free →
      result.size = next.size ∧ result.map = next.map ∧ result.free = next.free + Nat.count
        (fun offset => next.isSet ((index + 1) * elementBits + offset) = false)
          (size - min size elementBits) →
      result.size = bitmap.size ∧ result.map = bitmap.map ∧ result.free = bitmap.free +
        Nat.count (fun offset => bitmap.isSet (index * elementBits + offset) = false) size := by
    intro bitmap counted next result size index bits isBits isCounted isNext isResult
    have added := countedElement_free bitmap size index bits isBits
    have same : counted.size = bitmap.size ∧ counted.map = bitmap.map ∧ counted.free =
        bitmap.free + Nat.count
          (fun offset => bitmap.isSet (index * elementBits + offset) = false)
            (min size elementBits) := by
      rw [isCounted, ← added]
      split <;> exact ⟨rfl, rfl, rfl⟩
    have isSame : ∀ bit, next.isSet bit = bitmap.isSet bit := by
      intro bit
      rw [isSet, isSet, isNext.2.1, same.2.1]
    refine ⟨isResult.1.trans (isNext.1.trans same.1), isResult.2.1.trans (isNext.2.1.trans same.2.1), ?_⟩
    rw [isResult.2.2, isNext.2.2, same.2.2, count_available bitmap size index]
    simp only [isSame, Nat.add_assoc]
  fun_induction createSearchLoop bitmap size searchIndex bit index with
  | case1 => simp
  | case2 bitmap size searchIndex index some_left available bits counted left next ih =>
    refine step bitmap counted next _ size index bits rfl rfl ?_ ih
    change (if _ then _ else _ : Bitmap).size = _ ∧ (if _ then _ else _ : Bitmap).map = _ ∧
      (if _ then _ else _ : Bitmap).free = _
    split <;> exact ⟨rfl, rfl, rfl⟩
  | case3 bitmap size searchIndex bit index some_left available bits counted left inside ih =>
    exact step bitmap counted counted _ size index bits rfl rfl ⟨rfl, rfl, rfl⟩ ih

theorem createSearchLoop_searchBits (bitmap : Bitmap) {searchIndex : Nat}
    (inside : bit < elementBits) (isIndex : index = searchIndex * elementBits + bit)
    (clear : ∀ word ≤ searchIndex, bitmap.searchBits word = elementClear) {word : Nat}
    (reached : word * elementBits * elementBits < index * elementBits + size) :
    (bitmap.createSearchLoop size searchIndex bit index).searchBits word = elementClear := by
  fun_induction createSearchLoop bitmap size searchIndex bit index with
  | case1 =>
    simp only [elementBits] at *
    exact clear word (by omega)
  | case2 bitmap size searchIndex index some_left available bits counted left next ih =>
    have kept : counted.searchBits = bitmap.searchBits := by
      change (if _ then _ else _ : Bitmap).searchBits = _
      split <;> rfl
    by_cases further : 0 < left
    · have isNext : next = { counted with
        searchBits := update counted.searchBits ((searchIndex + 1 : Nat) : Int)
          elementClear } := if_pos further
      have whole : available = elementBits := by
        change size - min size elementBits > 0 at further
        change min size elementBits = elementBits
        omega
      refine ih (by decide) (by rw [isIndex]; simp only [elementBits]; omega) ?_ ?_
      · intro other below
        rw [isNext]
        dsimp only
        by_cases last : other = searchIndex + 1
        · rw [last, update_self]
        · rw [update_of_ne (by exact_mod_cast last), kept]
          exact clear other (by omega)
      · have : left = size - elementBits := by rw [← whole]
        simp only [elementBits] at *
        omega
    · have none_left : left = 0 := Nat.eq_zero_of_not_pos further
      have isNext : next = counted := if_neg further
      rw [none_left, createSearchLoop, dif_pos rfl, isNext, kept]
      change size - min size elementBits = 0 at none_left
      simp only [elementBits] at *
      exact clear word (by omega)
  | case3 bitmap size searchIndex bit index some_left available bits counted left notLast ih =>
    have kept : counted.searchBits = bitmap.searchBits := by
      change (if _ then _ else _ : Bitmap).searchBits = _
      split <;> rfl
    have isLeft : left = size - min size elementBits := rfl
    rw [← kept] at clear
    by_cases further : 0 < left
    · refine ih ?_ ?_ clear ?_ <;> simp only [elementBits] at * <;> omega
    · rw [Nat.eq_zero_of_not_pos further, createSearchLoop, dif_pos rfl]
      simp only [elementBits] at *
      exact clear word (by omega)

/-- A search map made from a bitmap agrees with it. -/
theorem createSearch_consistent (bitmap : Bitmap) : bitmap.createSearch.Consistent := by
  obtain ⟨size, map, free⟩ := createSearchLoop_counts
    { bitmap with free := 0, searchBits := update bitmap.searchBits 0 elementClear }
    bitmap.size 0 0 0
  have isSame : ∀ bit, bitmap.createSearch.isSet bit = bitmap.isSet bit := by
    intro bit
    rw [isSet, createSearch, map]
    rfl
  refine ⟨?_, fun bit nonneg inside isSet => ?_⟩
  · rw [show bitmap.createSearch.free = _ from free.trans (Nat.zero_add _),
      show bitmap.createSearch.size = bitmap.size from size]
    refine count_congr fun bit _ => ?_
    rw [isSame, Nat.zero_mul, Nat.zero_add]
    rfl
  · exfalso
    obtain ⟨bit, rfl⟩ := Int.eq_ofNat_of_zero_le nonneg
    have below : bit < bitmap.size := by
      rw [createSearch, size] at inside
      exact Int.ofNat_lt.mp inside
    have search : bitmap.createSearch.searchBits ((bit / elementBits / elementBits : Nat) : Int) =
        elementClear := by
      refine createSearchLoop_searchBits _ (by decide) rfl (fun word le => ?_) ?_
      · obtain rfl := Nat.le_zero.mp le
        exact update_self (0 : Int) elementClear bitmap.searchBits
      · simp only [elementBits]
        omega
    rw [searchAt, show ((bit : Int) / (elementBits : Nat) / (elementBits : Nat)) =
      ((bit / elementBits / elementBits : Nat) : Int) from rfl, search] at isSet
    cases isSet.symm.trans (bitmapTest_elementClear (Nat.mod_lt (bit / elementBits) (by decide)))

end Bitmap

end RTContainer.Rfs
