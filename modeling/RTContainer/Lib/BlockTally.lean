import Mathlib.Data.List.Nodup
import Mathlib.Data.List.Perm.Subperm

/-! Free places of a table that is made of blocks of one size, counted by block. The first block
is never given back, and its places are not counted. -/

set_option autoImplicit false

/-- The counters tell how many of the free places lie in each later block, and in all of them. -/
structure BlockTally (size : Nat) (perBlock : List Nat) (total : Nat) (free : List Nat) :
    Prop where
  each : ∀ block count, 1 ≤ block → perBlock[block]? = some count →
    count = free.countP fun place => place / size = block
  all : total = free.countP fun place => size ≤ place

namespace BlockTally

variable {size total block place : Nat} {perBlock free : List Nat}

theorem inside_iff (positive : 0 < size) :
    place / size = block ↔ block * size ≤ place ∧ place < block * size + size := by
  rw [Nat.div_eq_iff positive]
  omega

private theorem of_first {before : List Nat} (tally : BlockTally size perBlock total before)
    (same : ∀ later : Nat → Bool, (∀ place < size, later place = false) →
      free.countP later = before.countP later) :
    BlockTally size perBlock total free where
  each block count later present := by
    rw [tally.each block count later present]
    refine (same _ fun place first => ?_).symm
    have outside : place / size ≠ block := by
      rw [Nat.div_eq_of_lt first]
      exact (Nat.ne_of_lt later)
    simp [outside]
  all := by
    rw [tally.all]
    refine (same _ fun place first => ?_).symm
    simp [first]

theorem take_first (tally : BlockTally size perBlock total (place :: free))
    (first : place < size) : BlockTally size perBlock total free := by
  refine tally.of_first fun later none => ?_
  rw [List.countP_cons_of_neg]
  simp [none place first]

theorem put_first (tally : BlockTally size perBlock total free) (first : place < size) :
    BlockTally size perBlock total (free ++ [place]) := by
  refine tally.of_first fun later none => ?_
  simp [List.countP_append, none place first]

theorem take (tally : BlockTally size perBlock total (place :: free)) (later : size ≤ place) :
    BlockTally size (perBlock.modify (place / size) (· - 1)) (total - 1) free where
  each block count notFirst present := by
    rw [List.getElem?_modify] at present
    obtain ⟨before, wasThere, same⟩ := Option.map_eq_some_iff.mp present
    have counted := tally.each block before notFirst wasThere
    rw [List.countP_cons] at counted
    split at same
    · next inside =>
      simp only [inside, decide_true, ↓reduceIte] at counted
      omega
    · next outside =>
      simp only [outside, decide_false, Bool.false_eq_true, ↓reduceIte, Nat.add_zero] at counted
      exact same.symm.trans counted
  all := by
    rw [tally.all, List.countP_cons]
    simp [later]

theorem put (tally : BlockTally size perBlock total free) (later : size ≤ place) :
    BlockTally size (perBlock.modify (place / size) (· + 1)) (total + 1) (free ++ [place]) where
  each block count notFirst present := by
    rw [List.getElem?_modify] at present
    obtain ⟨before, wasThere, same⟩ := Option.map_eq_some_iff.mp present
    have counted := tally.each block before notFirst wasThere
    rw [List.countP_append, List.countP_singleton, ← counted]
    split at same
    · next inside => simp [inside, ← same]
    · next outside => simp [outside, ← same]
  all := by
    rw [tally.all, List.countP_append, List.countP_singleton]
    simp [later]

theorem grow (tally : BlockTally size perBlock total free) (positive : 0 < size)
    (beyond : ∀ place ∈ free, place < perBlock.length * size ∨ place < size) :
    BlockTally size (perBlock ++ [0]) total free where
  each block count notFirst present := by
    rcases Nat.lt_or_ge block perBlock.length with old | new
    · rw [List.getElem?_append_left old] at present
      exact tally.each block count notFirst present
    · rw [List.getElem?_append_right new] at present
      obtain ⟨_, isLast⟩ := List.getElem?_eq_some_iff.mp present
      rw [List.getElem_singleton] at isLast
      rw [← isLast]
      refine (List.countP_eq_zero.mpr fun place member => ?_).symm
      rcases beyond place member with inside | inside
      · have : place / size < perBlock.length := (Nat.div_lt_iff_lt_mul positive).mpr inside
        simp only [decide_eq_true_eq]
        omega
      · have : place / size = 0 := Nat.div_eq_of_lt inside
        simp only [decide_eq_true_eq]
        omega
  all := tally.all

theorem countP_places (positive : 0 < size) (block other : Nat) :
    (List.range' (block * size) size).countP (fun place => place / size = other) =
      if block = other then size else 0 := by
  have inside : ∀ place ∈ List.range' (block * size) size, place / size = block := by
    intro place member
    exact (inside_iff positive).mpr (List.mem_range'_1.mp member)
  split
  · next same =>
    have every : ∀ place ∈ List.range' (block * size) size,
        decide (place / size = other) = true := by
      intro place member
      simp [inside place member, same]
    rw [List.countP_eq_length.mpr every, List.length_range']
  · next different =>
    refine List.countP_eq_zero.mpr fun place member => ?_
    simp [inside place member, different]

section

variable (tally : BlockTally size perBlock total free)
include tally

/-- A vacant block gets all its places. -/
theorem fill (positive : 0 < size) (notFirst : 1 ≤ block)
    (vacant : ∀ place ∈ free, place / size ≠ block) :
    BlockTally size (perBlock.set block size) (total + size)
      (free ++ List.range' (block * size) size) where
  each other count later present := by
    rw [List.countP_append, countP_places positive]
    rw [List.getElem?_set] at present
    split at present
    · next same =>
      have none : free.countP (fun place => place / size = other) = 0 :=
        List.countP_eq_zero.mpr fun place member => by simp [same ▸ vacant place member]
      split at present
      · cases present
        simp [none, same]
      · cases present
    · next different =>
      simp [different, tally.each other count later present]
  all := by
    have every : ∀ place ∈ List.range' (block * size) size, decide (size ≤ place) = true := by
      intro place member
      have lower := (List.mem_range'_1.mp member).1
      have := Nat.le_mul_of_pos_left size notFirst
      simp only [decide_eq_true_eq]
      omega
    rw [List.countP_append, List.countP_eq_length.mpr every, List.length_range', tally.all]

theorem full (distinct : free.Nodup) (positive : 0 < size) (notFirst : 1 ≤ block)
    (isFull : perBlock[block]? = some size) (inside : place / size = block) : place ∈ free := by
  have counted := tally.each block size notFirst isFull
  have within : free.filter (fun place => place / size = block) ⊆
      List.range' (block * size) size := by
    intro other member
    have isInside := of_decide_eq_true (List.mem_filter.mp member).2
    exact List.mem_range'_1.mpr ((inside_iff positive).mp isInside)
  have long : (List.range' (block * size) size).length ≤
      (free.filter fun place => place / size = block).length := by
    rw [List.length_range', ← List.countP_eq_length_filter]
    exact Nat.le_of_eq counted
  have perm := (List.subperm_of_subset (distinct.filter _) within).perm_of_length_le long
  have listed : place ∈ List.range' (block * size) size :=
    List.mem_range'_1.mpr ((inside_iff positive).mp inside)
  exact (List.mem_filter.mp (perm.mem_iff.mpr listed)).1

/-- A block whose places are all free loses them. -/
theorem drain (positive : 0 < size) (notFirst : 1 ≤ block) (isFull : perBlock[block]? = some size) :
    BlockTally size (perBlock.set block 0) (total - size)
      (free.filter fun place => ¬ place / size = block) where
  each other count later present := by
    rw [List.countP_filter]
    rw [List.getElem?_set] at present
    split at present
    · next same =>
      split at present
      · cases present
        refine (List.countP_eq_zero.mpr fun place member => ?_).symm
        simp [same]
      · cases present
    · next different =>
      rw [tally.each other count later present]
      refine List.countP_congr fun place member => ?_
      simp only [decide_eq_true_eq, decide_not, Bool.and_eq_true, Bool.not_eq_true',
        decide_eq_false_iff_not]
      constructor
      · intro isOther
        exact ⟨isOther, fun isBlock => different (isBlock.symm.trans isOther)⟩
      · exact And.left
  all := by
    have counted := tally.each block size notFirst isFull
    have split := List.countP_eq_countP_filter_add free (fun place => size ≤ place)
      (fun place => ¬ place / size = block)
    have within : (free.filter fun place => !decide (¬ place / size = block)).countP
        (fun place => size ≤ place) = free.countP fun place => place / size = block := by
      rw [List.countP_filter]
      refine List.countP_congr fun place member => ?_
      have inside : place / size = block → size ≤ place := by
        intro isBlock
        have := (inside_iff positive).mp isBlock
        have := Nat.le_mul_of_pos_left size notFirst
        omega
      simpa using inside
    rw [within, ← counted, ← tally.all] at split
    omega

end

end BlockTally
