import RTContainer.Rfs.BitmapSearch

/-! A bitmap is allocated from as long as a bit of it is clear, but for windows of a
search whose last bit begins an element: the search goes on there with the search word
of another element. -/

set_option autoImplicit false

namespace RTContainer.Rfs

namespace Bitmap

variable {bitmap after : Bitmap} {up : Bool} {start endBit searchIndex : Int} {searchLeft : Nat}
variable {place : MapPlace}

def Passed (bitmap : Bitmap) (up : Bool) (endBit start stop : Int) : Prop :=
  ∀ bit, Before up start bit → Before up bit endBit → ¬ Before up stop bit → bitmap.bitAt bit = true

theorem Passed.append {middle stop : Int} (first : bitmap.Passed up endBit start middle)
    (second : bitmap.Passed up endBit middle stop) : bitmap.Passed up endBit start stop := by
  intro bit early late further
  by_cases reached : Before up middle bit
  · exact second bit reached late further
  · exact first bit early late reached

def Hides (bitmap : Bitmap) (up : Bool) (endBit start : Int) : Prop :=
  ∀ bit, Before up start bit → Before up bit endBit →
    bitmap.searchAt (bit / elementBits) = true → bitmap.bitAt bit = true

theorem Hides.later {middle : Int} (hides : bitmap.Hides up endBit start)
    (before : Before up start middle) : bitmap.Hides up endBit middle :=
  fun bit early => hides bit (before.trans early)

structure InPhase (up : Bool) (searchIndex : Int) (searchLeft : Nat) (place : MapPlace) : Prop where
  some_left : 1 ≤ searchLeft
  inside : searchLeft ≤ elementBits
  index : place.index = searchIndex * elementBits + offsetOf up searchLeft

/-- The last bit of a window is not the first one, in the direction of the search, of an element,
or the element is the first one of a search element. -/
def EndsInPhase (up : Bool) (endBit : Int) : Prop :=
  if up then endBit % 32 = 0 → endBit % 1024 = 0
  else endBit % 32 = 31 → endBit % 1024 = 1023

instance (up : Bool) (endBit : Int) : Decidable (EndsInPhase up endBit) :=
  inferInstanceAs (Decidable (if up then _ else _))

variable {left rounds seed : Nat} {bit : Int}

theorem searchElement_none {testBit index : Int} (inside : left ≤ elementBits)
    (aligned : testBit + direction up * left =
      (index + direction up) * elementBits + if up then 0 else elementBits - 1)
    (searched : searchElement (bitmap.map index) up endBit left testBit = none) :
    bitmap.Passed up endBit testBit (testBit + direction up * left) := by
  generalize isElement : bitmap.map index = element at searched
  have atTest : ∀ left testBit, left + 1 ≤ elementBits →
      testBit + direction up * (left + 1 : Nat) =
        (index + direction up) * elementBits + (if up then 0 else elementBits - 1) →
      bitmap.bitAt testBit = bitmapTest element (offsetOf up (left + 1)) := by
    intro left testBit inside aligned
    have split : testBit / elementBits = index ∧
        (testBit % elementBits).toNat = offsetOf up (left + 1) := by
      simp only [direction, offsetOf, elementBits] at *
      cases up <;> simp at * <;> omega
    rw [bitAt, split.1, split.2, isElement]
  fun_induction searchElement element up endBit left testBit with
  | case1 testBit =>
    intro bit early _ late
    simp only [Before, direction] at *
    cases up <;> simp at * <;> omega
  | case2 left offset isSet =>
    intro bit early late _
    have same : bit = endBit := by
      simp only [Before] at *
      cases up <;> simp at * <;> omega
    rw [same, atTest left _ inside aligned]
    exact isSet
  | case3 left testBit offset isSet different ih =>
    intro bit early late further
    by_cases same : bit = testBit
    · rw [same, atTest left _ inside aligned]
      exact isSet
    · have shift : testBit + direction up + direction up * (left : Nat) =
          testBit + direction up * ((left + 1 : Nat) : Int) := by
        cases up <;> simp only [direction] <;> simp <;> omega
      rw [← shift] at further aligned
      refine ih (Nat.le_of_succ_le inside) aligned searched bit ?_ late further
      simp only [Before, direction] at *
      cases up <;> simp at * <;> omega
  | case4 => cases searched

private theorem next_testBit (aligned : place.Aligned up) :
    place.testBit + direction up * place.left = (place.next up).testBit := by
  have some_left := aligned.some_left
  have inside := aligned.inside
  have testBit := aligned.testBit
  simp only [MapPlace.next, direction, offsetOf, elementBits] at *
  cases up <;> simp at * <;> omega

theorem InPhase.searchAt (phase : InPhase up searchIndex searchLeft place) :
    bitmap.searchAt place.index =
      bitmapTest (bitmap.searchBits searchIndex) (offsetOf up searchLeft) := by
  have inside := @offsetOf_lt up _ phase.some_left phase.inside
  have split : place.index / elementBits = searchIndex ∧
      (place.index % elementBits).toNat = offsetOf up searchLeft := by
    rw [phase.index]
    simp only [elementBits] at *
    omega
  rw [Bitmap.searchAt, split.1, split.2]

theorem bit_of_element (aligned : place.Aligned up) (early : Before up place.testBit bit)
    (late : ¬ Before up (place.next up).testBit bit) : bit / elementBits = place.index := by
  have some_left := aligned.some_left
  have inside := aligned.inside
  have testBit := aligned.testBit
  simp only [MapPlace.next, Before, direction, offsetOf, elementBits] at *
  cases up <;> simp at * <;> omega

def Leads (bitmap : Bitmap) (up : Bool) (endBit searchIndex : Int) (place : MapPlace) :
    Except MapPlace (Bitmap × Int) → Prop
  | .ok (after, bit) => after = bitmap.takeBit bit
  | .error next => next.Aligned up ∧ next.left = elementBits ∧
      Before up (place.index + direction up) next.index ∧
      bitmap.Passed up endBit place.testBit next.testBit ∧
      (InPhase up (searchIndex + direction up) elementBits next ∨
        Before up endBit next.testBit ∧ ∃ left < elementBits, InPhase up searchIndex left next)

theorem Leads.later {result : Except MapPlace (Bitmap × Int)}
    (leads : bitmap.Leads up endBit searchIndex (place.next up) result)
    (passed : bitmap.Passed up endBit place.testBit (place.next up).testBit) :
    bitmap.Leads up endBit searchIndex place result := by
  cases result with
  | ok found => exact leads
  | error next =>
    obtain ⟨aligned, left, further, passedNext, phase⟩ := leads
    refine ⟨aligned, left, ?_, passed.append passedNext, phase⟩
    simp only [MapPlace.next, Before, direction] at *
    cases up <;> simp at * <;> omega

theorem InPhase.step (phase : InPhase up searchIndex (left + 1) place) :
    InPhase up (searchIndex + direction up) elementBits (place.next up) ∧ left = 0 ∨
      left < elementBits ∧ InPhase up searchIndex left (place.next up) := by
  have inside := phase.inside
  have index := phase.index
  rcases Nat.eq_zero_or_pos left with rfl | positive
  · refine .inl ⟨⟨by decide, Nat.le_refl _, ?_⟩, rfl⟩
    simp only [MapPlace.next, direction, offsetOf, elementBits] at *
    cases up <;> simp at * <;> omega
  · refine .inr ⟨inside, positive, Nat.le_of_succ_le inside, ?_⟩
    simp only [MapPlace.next, direction, offsetOf, elementBits] at *
    cases up <;> simp at * <;> omega

theorem element_passed (aligned : place.Aligned up)
    (phase : InPhase up searchIndex (left + 1) place) (hides : bitmap.Hides up endBit place.testBit)
    (absent : (if bitmapTest (bitmap.searchBits searchIndex) (offsetOf up (left + 1)) then none
      else searchElement (bitmap.map place.index) up endBit place.left place.testBit) = none) :
    bitmap.Passed up endBit place.testBit (place.next up).testBit := by
  intro bit early late further
  by_cases isHidden : bitmapTest (bitmap.searchBits searchIndex) (offsetOf up (left + 1)) = true
  · apply hides bit early late
    rw [bit_of_element aligned early further, phase.searchAt]
    exact isHidden
  · rw [if_neg isHidden] at absent
    rw [← next_testBit aligned] at further
    refine searchElement_none aligned.inside ?_ absent bit early late further
    rw [next_testBit aligned]
    cases up <;> rfl

theorem searchElements_leads (aligned : place.Aligned up)
    (phase : InPhase up searchIndex searchLeft place)
    (hides : bitmap.Hides up endBit place.testBit) (before : Before up place.testBit endBit) :
    bitmap.Leads up endBit searchIndex place
      (searchElements bitmap up endBit searchIndex searchLeft place) := by
  have refl : ∀ bit, Before up bit bit := fun bit => by cases up <;> exact Int.le_refl bit
  fun_induction searchElements bitmap up endBit searchIndex searchLeft place with
  | case1 => exact absurd phase.some_left (by decide)
  | case2 left place offset search mapOffset testBit found =>
    have searched : searchElement (bitmap.map place.index) up endBit place.left place.testBit =
        some (mapOffset, testBit) := (Option.ite_none_left_eq_some.mp found).2
    obtain ⟨-, inside, isFound, early, late⟩ :=
      searchElement_some aligned.inside aligned.testBit before searched
    have searchInside := @offsetOf_lt up _ phase.some_left phase.inside
    have isIndex := phase.index
    have split : testBit / elementBits = place.index ∧
        (testBit % elementBits).toNat = mapOffset ∧ place.index / elementBits = searchIndex ∧
        (place.index % elementBits).toNat = offset := by
      change place.index = searchIndex * elementBits + offset at isIndex
      change offset < elementBits at searchInside
      simp only [elementBits] at *
      omega
    rw [Leads, takeBit, split.1, split.2.1, split.2.2.1, split.2.2.2]
  | case3 left place offset search absent passed =>
    refine ⟨place.next_aligned up, rfl, refl _, element_passed aligned phase hides absent, ?_⟩
    rcases phase.step with ⟨inPhase, -⟩ | ⟨inside, inPhase⟩
    · exact .inl inPhase
    · exact .inr ⟨passed, left, inside, inPhase⟩
  | case4 left place offset search absent notPassed ih =>
    have passed := element_passed aligned phase hides absent
    rcases phase.step with ⟨inPhase, rfl⟩ | ⟨inside, inPhase⟩
    · exact ⟨place.next_aligned up, rfl, refl _, passed, .inl inPhase⟩
    · have early := place.next_before aligned
      have later : Before up (place.next up).testBit endBit := by
        revert notPassed
        cases up <;> simp only [Before, Bool.false_eq_true, if_true, if_false] <;> omega
      exact (ih (place.next_aligned up) inPhase (hides.later early) later).later passed

theorem skip_leads (aligned : place.Aligned up) (phase : InPhase up searchIndex searchLeft place)
    (hides : bitmap.Hides up endBit place.testBit)
    (full : bitmap.searchBits searchIndex = elementSet) :
    bitmap.Leads up endBit searchIndex place (.error (place.skip up searchLeft)) := by
  have some_left := phase.some_left
  have inside := phase.inside
  have index := phase.index
  have mapSome := aligned.some_left
  have mapInside := aligned.inside
  have testBit := aligned.testBit
  refine ⟨place.skip_aligned aligned searchLeft, rfl, ?_, fun bit early late further => ?_,
    .inl ⟨by decide, Nat.le_refl _, ?_⟩⟩
  · simp only [MapPlace.skip, Before, direction] at *
    cases up <;> simp <;> omega
  · apply hides bit early late
    have isWord : bit / elementBits / elementBits = searchIndex := by
      simp only [MapPlace.skip, Before, direction, offsetOf, elementBits] at *
      cases up <;> simp at * <;> omega
    rw [Bitmap.searchAt, isWord, full, bitmapTest_elementSet]
  · simp only [MapPlace.skip, direction, offsetOf, elementBits] at *
    cases up <;> simp at * <;> omega

def Ends (bitmap : Bitmap) (up : Bool) (start endBit : Int) : Option (Bitmap × Int) → Prop
  | some (after, bit) => after = bitmap.takeBit bit
  | none => ∀ bit, Before up start bit → Before up bit endBit → bitmap.bitAt bit = true

theorem searchLoop_last (aligned : place.Aligned up) (left : place.left = elementBits)
    (isLast : place.testBit = endBit) (isSet : bitmap.bitAt endBit = true) :
    searchLoop bitmap up endBit rounds searchIndex elementBits place = none := by
  have isBit := aligned.testBit
  cases rounds with
  | zero => rfl
  | succ rounds =>
    have skipped : ¬ Before up (place.skip up elementBits).testBit endBit := by
      simp only [MapPlace.skip, Before, offsetOf, elementBits] at *
      cases up <;> simp at * <;> omega
    have passed : Before up endBit (place.next up).testBit ∧
        ¬ Before up (place.next up).testBit endBit := by
      simp only [MapPlace.next, Before, direction, offsetOf, elementBits] at *
      cases up <;> simp at * <;> omega
    have isOffset : endBit / elementBits = place.index ∧
        (endBit % elementBits).toNat = offsetOf up (31 + 1) := by
      simp only [offsetOf, elementBits] at *
      cases up <;> simp at * <;> omega
    rw [bitAt, isOffset.1, isOffset.2] at isSet
    have absent : searchElement (bitmap.map place.index) up endBit place.left place.testBit =
        none := by
      rw [left, elementBits, searchElement]
      simp only [isSet, isLast, if_true]
    have searched : searchElements bitmap up endBit searchIndex elementBits place =
        .error (place.next up) := by
      change searchElements bitmap up endBit searchIndex (31 + 1) place = _
      simp only [searchElements, absent, ite_self, if_pos passed.1]
    by_cases full : bitmap.searchBits searchIndex = elementSet
    · simp only [searchLoop, if_pos full, if_neg skipped]
    · simp only [searchLoop, if_neg full, searched, if_neg passed.2]

theorem searchLoop_ends (aligned : place.Aligned up)
    (phase : InPhase up searchIndex searchLeft place) (hides : bitmap.Hides up endBit place.testBit)
    (before : Before up place.testBit endBit)
    (enough : (endBit / elementBits - place.index) * direction up < rounds)
    (last : bitmap.Passed up endBit place.testBit endBit →
      bitmap.bitAt endBit = true ∨ EndsInPhase up endBit) :
    bitmap.Ends up place.testBit endBit
      (searchLoop bitmap up endBit rounds searchIndex searchLeft place) := by
  have round : ∀ (searchIndex : Int) (searchLeft : Nat) (place : MapPlace), place.Aligned up →
      InPhase up searchIndex searchLeft place → bitmap.Hides up endBit place.testBit →
      Before up place.testBit endBit →
      bitmap.Leads up endBit searchIndex place
        (if bitmap.searchBits searchIndex = elementSet then .error (place.skip up searchLeft)
        else searchElements bitmap up endBit searchIndex searchLeft place) := by
    intro searchIndex searchLeft place aligned phase hides before
    split
    next full => exact skip_leads aligned phase hides full
    next => exact searchElements_leads aligned phase hides before
  fun_induction searchLoop bitmap up endBit rounds searchIndex searchLeft place with
  | case1 searchIndex searchLeft place =>
    exfalso
    have isBit := aligned.testBit
    have offset := @offsetOf_lt up _ aligned.some_left aligned.inside
    simp only [Before, direction, elementBits] at *
    cases up <;> simp at * <;> omega
  | case2 rounds searchIndex searchLeft place result found isFound =>
    have outcome := round searchIndex searchLeft place aligned phase hides before
    change bitmap.Leads up endBit searchIndex place result at outcome
    rw [isFound] at outcome
    exact outcome
  | case3 rounds searchIndex searchLeft place result next isNext within ih =>
    have outcome := round searchIndex searchLeft place aligned phase hides before
    change bitmap.Leads up endBit searchIndex place result at outcome
    rw [isNext] at outcome
    obtain ⟨nextAligned, left, further, passed, inPhase | ⟨reached, other, inside, outOfPhase⟩⟩ :=
      outcome
    · have early : Before up place.testBit next.testBit := by
        have isBit := aligned.testBit
        have nextBit := nextAligned.testBit
        have offset := @offsetOf_lt up _ aligned.some_left aligned.inside
        simp only [Before, direction, left, offsetOf, elementBits] at *
        cases up <;> simp at * <;> omega
      have ends := ih nextAligned inPhase (hides.later early) within (by
        simp only [Before, direction] at *
        cases up <;> simp at * <;> omega) fun rest => last (passed.append rest)
      revert ends
      generalize searchLoop bitmap up endBit rounds _ _ next = outcome
      cases outcome with
      | some found => exact id
      | none =>
        intro rest bit first late
        by_cases reached : Before up next.testBit bit
        · exact rest bit reached late
        · exact passed bit first late reached
    · have isLast : next.testBit = endBit := by
        simp only [Before] at *
        cases up <;> simp at * <;> omega
      rw [isLast] at passed
      have isSet : bitmap.bitAt endBit = true := by
        refine (last passed).resolve_right fun inPhase => ?_
        have isBit := nextAligned.testBit
        have some_left := outOfPhase.some_left
        have index := outOfPhase.index
        simp only [EndsInPhase, isLast, left, offsetOf, elementBits] at *
        cases up <;> simp at * <;> omega
      rw [searchLoop_last nextAligned left isLast isSet]
      intro bit first late
      by_cases atEnd : Before up endBit bit
      · have same : bit = endBit := by
          simp only [Before] at *
          cases up <;> simp at * <;> omega
        rw [same]
        exact isSet
      · exact passed bit first late atEnd
  | case4 rounds searchIndex searchLeft place result next isNext passed =>
    have outcome := round searchIndex searchLeft place aligned phase hides before
    change bitmap.Leads up endBit searchIndex place result at outcome
    rw [isNext] at outcome
    intro bit first late
    exact outcome.2.2.2.1 bit first late fun reached => passed (reached.trans late)

def windowEnd (bitmap : Bitmap) (up : Bool) (bit : Int) : Int :=
  if up then min (bit + 2048) (bitmap.size - 1) else max (bit - 2048) 0

theorem searchMap_ends (consistent : bitmap.Consistent) {bit : Nat} (inside : bit < bitmap.size)
    (last : bitmap.Passed up (bitmap.windowEnd up bit) bit (bitmap.windowEnd up bit) →
      bitmap.bitAt (bitmap.windowEnd up bit) = true ∨ EndsInPhase up (bitmap.windowEnd up bit)) :
    bitmap.Ends up bit (bitmap.windowEnd up bit) (searchMapForClearBit bitmap bit up) := by
  have offset := leftOf_mod up bit
  have search := leftOf_mod up (bit / elementBits)
  have isEnd : (if (bit : Int) + searchWindow * direction up < 0 then 0
      else if bitmap.size ≤ (bit : Int) + searchWindow * direction up then (bitmap.size : Int) - 1
      else (bit : Int) + searchWindow * direction up) = bitmap.windowEnd up bit := by
    rw [show (searchWindow : Int) = 2048 from rfl]
    cases up <;> simp only [windowEnd, direction, Bool.false_eq_true, if_true, if_false] <;>
      split <;> (try split) <;> omega
  have range : Before up bit (bitmap.windowEnd up bit) ∧
      ∀ other, Before up bit other → Before up other (bitmap.windowEnd up bit) →
        0 ≤ other ∧ other < bitmap.size := by
    refine ⟨?_, fun other early late => ?_⟩
    · simp only [windowEnd, Before]
      cases up <;> simp only [Bool.false_eq_true, if_true, if_false] <;> omega
    · simp only [windowEnd, Before] at early late
      cases up <;> simp only [Bool.false_eq_true, if_true, if_false] at early late <;> omega
  simp only [searchMapForClearBit, isEnd]
  refine searchLoop_ends ⟨offset.1, offset.2.1, ?_⟩ ⟨search.1, search.2.1, ?_⟩ ?_ range.1 ?_ last
  · dsimp only
    rw [offset.2.2]
    simp only [elementBits]
    omega
  · dsimp only
    rw [search.2.2]
    simp only [elementBits]
    omega
  · intro other early late
    obtain ⟨nonneg, below⟩ := range.2 other early late
    exact consistent.full other nonneg below
  · simp only [windowEnd, direction, searchWindow, elementBits]
    cases up <;> simp <;> omega

def WindowInPhase (bitmap : Bitmap) (up : Bool) (seed : Nat) (round : Nat) : Prop :=
  let bit : Int := seed + direction up * (2048 * round)
  0 ≤ bit → bit < bitmap.size →
    (∀ other : Nat, other < bitmap.size →
      (if up then (seed : Int) - 2048 * round ≤ other ∧ other < bitmap.windowEnd up bit
        else bitmap.windowEnd up bit < other ∧ (other : Int) ≤ seed + 2048 * (round + 1)) →
      bitmap.isSet other = true) →
    bitmap.bitAt (bitmap.windowEnd up bit) = true ∨ EndsInPhase up (bitmap.windowEnd up bit)

/-- No search of the windows that an allocation gets to decides on a clear bit out of phase. -/
def InPhaseFrom (bitmap : Bitmap) (seed : Nat) : Prop :=
  ∀ up round, bitmap.WindowInPhase up seed round

def Complete (bitmap : Bitmap) : Option (Bitmap × Int) → Prop
  | some (after, bit) => after = bitmap.takeBit bit
  | none => ∀ bit < bitmap.size, bitmap.isSet bit = true

theorem window_ends (consistent : bitmap.Consistent) {round : Nat}
    (inPhase : bitmap.WindowInPhase up seed round)
    (isBit : 0 ≤ bit → bit < bitmap.size → bit = seed + direction up * (2048 * round))
    (seen : ∀ other : Nat, other < bitmap.size →
      (if up then (seed : Int) - 2048 * round ≤ other ∧ (other : Int) < bit
        else bit < other ∧ (other : Int) ≤ seed + 2048 * (round + 1)) → bitmap.isSet other = true)
    (nonneg : up = true → 0 ≤ bit) (below : up = false → bit < bitmap.size) :
    bitmap.Ends up bit (bitmap.windowEnd up bit)
      (if (if up then bit < bitmap.size else 0 ≤ bit) then
        searchMapForClearBit bitmap bit.toNat up else none) := by
  by_cases within : if up then bit < bitmap.size else 0 ≤ bit
  · have range : 0 ≤ bit ∧ bit < bitmap.size := by
      cases up with
      | true => exact ⟨nonneg rfl, within⟩
      | false => exact ⟨within, below rfl⟩
    obtain ⟨bit, rfl⟩ := Int.eq_ofNat_of_zero_le range.1
    rw [if_pos within]
    refine searchMap_ends consistent (Int.ofNat_lt.mp range.2) fun passed => ?_
    have isBit := isBit range.1 range.2
    rw [isBit]
    refine inPhase (isBit ▸ range.1) (isBit ▸ range.2) fun other inside between => ?_
    rw [← isBit] at between
    by_cases reached : Before up bit other
    · refine passed other reached ?_ ?_ <;> simp only [Before] at * <;> cases up <;>
        simp only [Bool.false_eq_true, if_true, if_false] at * <;> omega
    · refine seen other inside ?_
      simp only [Before] at *
      cases up <;> simp only [Bool.false_eq_true, if_true, if_false] at * <;> omega
  · rw [if_neg within]
    intro other early late
    simp only [Before, windowEnd] at *
    cases up <;> simp only [Bool.false_eq_true, if_true, if_false] at * <;> omega

theorem mapAllocLoop_complete (consistent : bitmap.Consistent) {seed round rounds : Nat}
    {upper lower : Int} (inside : seed < bitmap.size)
    (inPhase : bitmap.InPhaseFrom seed)
    (isUpper : if upper < bitmap.size then upper = seed + 2048 * round
      else (bitmap.size : Int) ≤ seed + 2048 * round)
    (isLower : if 0 ≤ lower then lower = seed - 2048 * round
      else (seed : Int) < 2048 * round)
    (seen : ∀ bit : Nat, bit < bitmap.size → (seed : Int) - 2048 * round ≤ bit →
      (bit : Int) < seed + 2048 * round → bitmap.isSet bit = true)
    (enough : (bitmap.size : Int) - seed ≤ 2048 * (round + rounds) ∧
      (seed : Int) < 2048 * (round + rounds)) :
    bitmap.Complete (mapAllocLoop bitmap rounds upper lower) := by
  induction rounds generalizing round upper lower with
  | zero => exact fun bit below => seen bit below (by omega) (by omega)
  | succ rounds ih =>
    have lowerBelow : lower < bitmap.size := by split at isLower <;> omega
    have upperNonneg : 0 ≤ upper := by split at isUpper <;> omega
    have above := window_ends consistent (inPhase true round)
      (fun (_ : 0 ≤ upper) within => by simpa [direction, if_pos within] using isUpper)
      (fun other below between => seen other below between.1 (by
        have := between.2
        split at isUpper <;> omega))
      (fun _ => upperNonneg) fun isDown => by cases isDown
    simp only [if_true, windowEnd] at above
    rw [mapAllocLoop]
    split
    next running =>
      generalize (if upper < bitmap.size then searchMapForClearBit bitmap upper.toNat true
        else none) = found at above ⊢
      cases found with
      | some found => exact above
      | none =>
        have seenUp : ∀ bit : Nat, bit < bitmap.size → (seed : Int) - 2048 * round ≤ bit →
            (bit : Int) ≤ seed + 2048 * (round + 1) → bitmap.isSet bit = true := by
          intro bit below early late
          by_cases before : (bit : Int) < seed + 2048 * round
          · exact seen bit below early before
          · refine above bit ?_ ?_ <;> simp only [Before, if_true] <;>
              split at isUpper <;> omega
        have under := window_ends consistent (inPhase false round)
          (fun (nonneg : 0 ≤ lower) _ => by
            rw [if_pos nonneg] at isLower
            simp only [direction, Bool.false_eq_true, if_false]
            omega)
          (fun other below between => by
            simp only [Bool.false_eq_true, if_false] at between
            refine seenUp other below ?_ between.2
            split at isLower <;> omega)
          (fun isUp => by cases isUp) fun _ => lowerBelow
        simp only [Bool.false_eq_true, if_false, windowEnd] at under
        generalize (if 0 ≤ lower then searchMapForClearBit bitmap lower.toNat false
          else none) = found at under ⊢
        cases found with
        | some found => exact under
        | none =>
          have window : (searchWindow : Int) = 2048 := rfl
          refine @ih (round + 1) _ _ ?_ ?_ (fun bit below early late => ?_) ?_
          · push_cast
            split at isUpper
            next within =>
              rw [if_pos within, window]
              split <;> omega
            next passed =>
              rw [if_neg passed, if_neg passed]
              omega
          · push_cast
            split at isLower
            next within =>
              rw [if_pos within, window]
              split <;> omega
            next passed =>
              rw [if_neg passed, if_neg passed]
              omega
          · push_cast at early late
            by_cases before : (seed : Int) - 2048 * round ≤ bit
            · exact seenUp bit below before (by omega)
            · refine under bit ?_ ?_ <;> simp only [Before, Bool.false_eq_true, if_false] <;>
                split at isLower <;> omega
          · push_cast at enough ⊢
            omega
    next stopped =>
      intro bit below
      refine seen bit below ?_ ?_ <;> split at isUpper <;> split at isLower <;> omega

/-- Whether allocation is right: it fails only when no bit is clear, and takes a bit that
was clear. -/
def AllocatesRightly (bitmap : Bitmap) (seed : Nat) : Prop :=
  ((bitmap.mapAlloc seed).isSome ↔ ∃ bit < bitmap.size, bitmap.isSet bit = false) ∧
    ∀ after bit, bitmap.mapAlloc seed = some (after, bit) → bitmap.Allocates bit after

theorem mapAlloc_rightly (consistent : bitmap.Consistent) (inside : seed < bitmap.size)
    (inPhase : bitmap.InPhaseFrom seed) :
    bitmap.AllocatesRightly seed ∧
      ∀ after bit, bitmap.mapAlloc seed = some (after, bit) → after = bitmap.takeBit bit := by
  have complete : bitmap.Complete
      (mapAllocLoop bitmap (bitmap.size / searchWindow + 1) seed seed) := by
    refine @mapAllocLoop_complete bitmap consistent seed 0 _ _ _ inside inPhase ?_ ?_ ?_ ?_
    · rw [if_pos (Int.ofNat_lt.mpr inside)]
      omega
    · rw [if_pos (Int.natCast_nonneg seed)]
      omega
    · intro bit _ early late
      omega
    · simp only [searchWindow, elementBits]
      omega
  have allocates : ∀ after bit, bitmap.mapAlloc seed = some (after, bit) →
      bitmap.Allocates bit after := fun _ _ => mapAlloc_allocates inside
  refine ⟨⟨⟨fun found => ?_, fun hasClear => ?_⟩, allocates⟩, fun after bit isFound => ?_⟩
  · obtain ⟨⟨after, bit⟩, found⟩ := Option.isSome_iff_exists.mp found
    exact ⟨bit, (allocates after bit found).inside, (allocates after bit found).clear⟩
  · obtain ⟨bit, below, clear⟩ := hasClear
    rw [mapAlloc, Option.isSome_map]
    by_contra absent
    rw [Option.not_isSome_iff_eq_none.mp absent] at complete
    rw [complete bit below] at clear
    cases clear
  · obtain ⟨⟨found, foundBit⟩, looped, result⟩ := Option.map_eq_some_iff.mp isFound
    obtain ⟨rfl, rfl⟩ : _ ∧ _ := by simpa using result
    rw [looped] at complete
    have range := mapAllocLoop_allocates (Int.natCast_nonneg seed) (Int.ofNat_lt.mpr inside) looped
    have isTaken : found = bitmap.takeBit foundBit := complete
    have nonneg : 0 ≤ foundBit := by
      -- the bit that is set is one of the map
      by_contra negative
      have isZero : foundBit.toNat = 0 := by omega
      have different : (0 : Int) ≠ foundBit / elementBits := by
        rw [elementBits]
        omega
      have sets := range.sets.isSet 0
      rw [isZero, if_pos rfl] at sets
      have kept : (bitmap.takeBit foundBit).isSet 0 = bitmap.isSet 0 :=
        congrArg (bitmapTest · 0) (Function.update_of_ne different ..)
      rw [isTaken, kept, ← isZero, range.clear] at sets
      cases sets
    rw [Int.toNat_of_nonneg nonneg]
    exact isTaken

inductive BitmapCall where
  | set (bit : Nat)
  | clear (bit : Nat)
  | setAll
  | clearAll
  | alloc (seed : Nat)

def step (bitmap : Bitmap) : BitmapCall → Bitmap
  | .set bit => (bitmap.mapSet bit).1
  | .clear bit => (bitmap.mapClear bit).1
  | .setAll => bitmap.mapSetAll
  | .clearAll => bitmap.mapClearAll
  | .alloc seed => ((bitmap.mapAlloc seed).map Prod.fst).getD bitmap

/-- What holds of the seed, when the call is an allocation. -/
def BitmapCall.OfSeed (property : Nat → Prop) : BitmapCall → Prop
  | .alloc seed => property seed
  | _ => True

theorem Consistent.step (consistent : bitmap.Consistent) {call : BitmapCall}
    (inRange : call.OfSeed (· < bitmap.size)) (inPhase : call.OfSeed bitmap.InPhaseFrom) :
    (bitmap.step call).Consistent := by
  cases call with
  | set bit => exact consistent.mapSet bit
  | clear bit => exact consistent.mapClear bit
  | setAll => exact mapSetAll_consistent bitmap
  | clearAll => exact mapClearAll_consistent bitmap
  | alloc seed =>
    obtain ⟨⟨-, allocates⟩, takes⟩ := mapAlloc_rightly consistent inRange inPhase
    rw [Bitmap.step]
    cases result : bitmap.mapAlloc seed with
    | none => exact consistent
    | some allocated =>
      have allocated := allocates _ _ result
      have taken := consistent.takeBit allocated.inside allocated.clear
      rw [← takes _ _ result] at taken
      exact taken

/-- In every run of calls on a bitmap that is opened, when no allocation of it decides on a
clear bit out of phase: what the bitmap says about itself stays right, and allocations are. -/
theorem run_allocatesRightly (bitmap : Bitmap) (calls : List BitmapCall)
    (inRange : Machine.Meets step (fun bitmap call => call.OfSeed (· < bitmap.size))
      bitmap.createSearch calls)
    (inPhase : Machine.Meets step (fun bitmap call => call.OfSeed bitmap.InPhaseFrom)
      bitmap.createSearch calls) :
    Machine.Throughout step Consistent bitmap.createSearch calls ∧
      Machine.Meets step (fun bitmap call => call.OfSeed bitmap.AllocatesRightly)
        bitmap.createSearch calls := by
  have met := inRange.and inPhase
  have start := createSearch_consistent bitmap
  refine ⟨Machine.throughout_of_preserved start (fun state call consistent given =>
    consistent.step given.1 given.2) met, Machine.meets_of_preserved Consistent start
    (fun state call consistent given => consistent.step given.1 given.2)
    (fun state call consistent given => ?_) met⟩
  cases call with
  | alloc seed => exact (mapAlloc_rightly consistent given.1 given.2).1
  | _ => trivial

/-- Two bits are clear, and with the first one its element becomes full. -/
def twoClearBits : Bitmap where
  size := 4096
  free := 0
  map index := if index = 65 ∨ index = 96 then 1 else 0
  searchBits _ := 0

theorem run_allocatesRightly_twoClearBits :
    Machine.Throughout step Consistent twoClearBits.createSearch [.alloc 3000, .clear 2] ∧
      Machine.Meets step (fun bitmap call => call.OfSeed bitmap.AllocatesRightly)
        twoClearBits.createSearch [.alloc 3000, .clear 2] := by
  have size : twoClearBits.createSearch.size = 4096 := (createSearchLoop_counts ..).1
  refine run_allocatesRightly twoClearBits _ ⟨?_, trivial, trivial⟩ ⟨?_, trivial, trivial⟩
  · change 3000 < twoClearBits.createSearch.size
    rw [size]
    decide
  · intro up round _ _ _
    right
    rw [windowEnd, size]
    cases up <;> simp only [EndsInPhase, direction, Bool.false_eq_true, if_true, if_false] <;> omega

/-- The first allocation sets the search bit of the element of the second clear bit,
which the second one then does not find. -/
theorem twoClearBits_notRightly :
    ¬ Machine.Meets step (fun bitmap call => call.OfSeed bitmap.AllocatesRightly)
      twoClearBits.createSearch [.alloc 32, .alloc 32] := by
  rintro ⟨-, ⟨complete, -⟩, -⟩
  have found := complete.mpr ⟨3072, by decide +kernel, by decide +kernel⟩
  revert found
  decide +kernel

end Bitmap

end RTContainer.Rfs
