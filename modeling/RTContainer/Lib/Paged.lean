import Mathlib.Data.List.Nodup

/-! A list that is kept in pages of one size. The pages are rows of a table and
are listed in order; each entry is found by the quotient and the remainder of its
index. Only the last page may have free slots, and it has an entry. -/

set_option autoImplicit false

variable {Page Entry : Type}

def Tabulates (row : Nat → Entry) (entries : List Entry) : Prop :=
  ∀ index entry, entries[index]? = some entry → row index = entry

namespace Tabulates

variable {row other : Nat → Entry} {entries : List Entry}

theorem nil (row : Nat → Entry) : Tabulates row [] := by
  intro index entry inside
  simp at inside

theorem congr (tabulates : Tabulates row entries)
    (same : ∀ index < entries.length, other index = row index) : Tabulates other entries := by
  intro index entry inside
  rw [same index (List.getElem?_eq_some_iff.mp inside).1]
  exact tabulates index entry inside

theorem snoc (tabulates : Tabulates row entries) (entry : Entry) :
    Tabulates (Function.update row entries.length entry) (entries ++ [entry]) := by
  intro index found inside
  rcases Nat.lt_trichotomy index entries.length with earlier | isLast | later
  · rw [List.getElem?_append_left earlier] at inside
    rw [Function.update_of_ne (Nat.ne_of_lt earlier)]
    exact tabulates index found inside
  · subst isLast
    rw [List.getElem?_concat_length, Option.some.injEq] at inside
    rw [Function.update_self]
    exact inside
  · rw [List.getElem?_eq_none] at inside
    · exact nomatch inside
    · rw [List.length_append, List.length_singleton]
      omega

theorem dropLast {entry : Entry} (tabulates : Tabulates row (entries ++ [entry])) :
    Tabulates row entries := by
  intro index found inside
  apply tabulates index found
  rwa [List.getElem?_append_left (List.getElem?_eq_some_iff.mp inside).1]

/-- The entries are read off one slot after the other. -/
theorem map_range (tabulates : Tabulates row entries) :
    (List.range entries.length).map row = entries := by
  refine List.ext_getElem (by simp) fun index _ inside => ?_
  rw [List.getElem_map, List.getElem_range]
  exact tabulates index _ (List.getElem?_eq_getElem inside)

end Tabulates

structure Paged (table : Page → Nat → Entry) (size : Nat) (pages : List Page)
    (entries : List Entry) : Prop where
  enough : entries.length ≤ pages.length * size
  needed : pages.length * size < entries.length + size
  found : ∀ index entry, entries[index]? = some entry →
    ∃ page, pages[index / size]? = some page ∧ table page (index % size) = entry

namespace Paged

variable {table other : Page → Nat → Entry} {size : Nat} {pages : List Page}
variable {entries : List Entry} {page : Page} {entry : Entry}

section

variable (paged : Paged table size pages entries)
include paged

theorem congr (same : ∀ page ∈ pages, other page = table page) :
    Paged other size pages entries where
  __ := paged
  found index entry inside := by
    obtain ⟨page, listed, isEntry⟩ := paged.found index entry inside
    exact ⟨page, listed, by rw [same page (List.mem_of_getElem? listed)]; exact isEntry⟩

theorem read {index : Nat} (inside : entries[index]? = some entry)
    (listed : pages[index / size]? = some page) : table page (index % size) = entry := by
  obtain ⟨holder, isHolder, isEntry⟩ := paged.found index entry inside
  rw [listed, Option.some.injEq] at isHolder
  rw [isHolder]
  exact isEntry

theorem size_pos : 0 < size := by
  have needed := paged.needed
  have enough := paged.enough
  omega

/-- The number of pages when the last one is not full. -/
theorem length_pages (partly : entries.length % size ≠ 0) :
    pages.length = entries.length / size + 1 := by
  have positive := paged.size_pos
  have split := Nat.div_add_mod entries.length size
  have below := Nat.mod_lt entries.length positive
  have enough := paged.enough
  have needed := paged.needed
  generalize entries.length / size = quotient at *
  rw [Nat.mul_comm] at split
  have lower : quotient * size < pages.length * size := by omega
  have upper : pages.length * size < (quotient + 2) * size := by
    rw [Nat.add_mul]
    omega
  have := Nat.lt_of_mul_lt_mul_right lower
  have := Nat.lt_of_mul_lt_mul_right upper
  omega

theorem length_pages_full (full : entries.length % size = 0) :
    pages.length = entries.length / size := by
  have positive := paged.size_pos
  have split := Nat.div_add_mod entries.length size
  have enough := paged.enough
  have needed := paged.needed
  generalize entries.length / size = quotient at *
  rw [Nat.mul_comm] at split
  have lower : quotient * size ≤ pages.length * size := by omega
  have upper : pages.length * size < (quotient + 1) * size := by
    rw [Nat.add_mul]
    omega
  have := Nat.le_of_mul_le_mul_right lower positive
  have := Nat.lt_of_mul_lt_mul_right upper
  omega

theorem length_pages_up : pages.length = (entries.length + size - 1) / size := by
  have positive := paged.size_pos
  have enough := paged.enough
  have needed := paged.needed
  symm
  apply Nat.div_eq_of_lt_le
  · omega
  · rw [Nat.succ_mul]
    omega

theorem tabulates {row : Nat → Page} (listed : Tabulates row pages) :
    Tabulates (fun index => table (row (index / size)) (index % size)) entries := by
  intro index entry inside
  obtain ⟨page, isPage, isEntry⟩ := paged.found index entry inside
  dsimp only
  rw [listed _ page isPage, isEntry]

end

variable [DecidableEq Page]

theorem append (paged : Paged table size pages entries) (nodup : pages.Nodup)
    (partly : entries.length % size ≠ 0) (last : pages[entries.length / size]? = some page)
    (entry : Entry) :
    Paged (Function.update table page
      (Function.update (table page) (entries.length % size) entry)) size pages
        (entries ++ [entry]) where
  enough := by
    have count := paged.length_pages partly
    have split := Nat.div_add_mod entries.length size
    have below := Nat.mod_lt entries.length paged.size_pos
    rw [Nat.mul_comm] at split
    rw [count, Nat.add_mul, List.length_append, List.length_singleton]
    omega
  needed := by
    have needed := paged.needed
    rw [List.length_append, List.length_singleton]
    omega
  found index found inside := by
    rcases Nat.lt_or_ge index entries.length with earlier | later
    · rw [List.getElem?_append_left earlier] at inside
      obtain ⟨holder, isHolder, isEntry⟩ := paged.found index found inside
      refine ⟨holder, isHolder, ?_⟩
      rcases eq_or_ne holder page with same | different
      · rw [same] at isHolder isEntry ⊢
        -- a page is listed once, so the two indices differ in the slot
        have slot : index % size ≠ entries.length % size := by
          intro slotEq
          have pageEq : index / size = entries.length / size :=
            (List.getElem?_inj (List.getElem?_eq_some_iff.mp isHolder).1 nodup).mp
              (isHolder.trans last.symm)
          have left := Nat.div_add_mod index size
          have right := Nat.div_add_mod entries.length size
          rw [pageEq, slotEq] at left
          omega
        rw [Function.update_self, Function.update_of_ne slot]
        exact isEntry
      · rw [Function.update_of_ne different]
        exact isEntry
    · rw [List.getElem?_append_right later, List.getElem?_singleton] at inside
      split at inside
      next isLast =>
        obtain rfl := Option.some.inj inside
        have indexEq : index = entries.length := by omega
        rw [indexEq]
        exact ⟨page, last, by rw [Function.update_self, Function.update_self]⟩
      next => exact nomatch inside

theorem appendPage (paged : Paged table size pages entries) (full : entries.length % size = 0)
    (fresh : page ∉ pages) {row : Nat → Entry} (first : row 0 = entry) :
    Paged (Function.update table page row) size (pages ++ [page]) (entries ++ [entry]) where
  enough := by
    have enough := paged.enough
    have positive := paged.size_pos
    rw [List.length_append, List.length_append, List.length_singleton, List.length_singleton,
      Nat.add_mul]
    omega
  needed := by
    have count := paged.length_pages_full full
    have split := Nat.div_add_mod entries.length size
    rw [Nat.mul_comm] at split
    rw [List.length_append, List.length_append, List.length_singleton, List.length_singleton,
      count, Nat.add_mul]
    omega
  found index found inside := by
    rcases Nat.lt_or_ge index entries.length with earlier | later
    · rw [List.getElem?_append_left earlier] at inside
      obtain ⟨holder, isHolder, isEntry⟩ := paged.found index found inside
      have different : holder ≠ page := by
        intro same
        exact fresh (same ▸ List.mem_of_getElem? isHolder)
      refine ⟨holder, ?_, by rw [Function.update_of_ne different]; exact isEntry⟩
      rw [List.getElem?_append_left (List.getElem?_eq_some_iff.mp isHolder).1]
      exact isHolder
    · rw [List.getElem?_append_right later, List.getElem?_singleton] at inside
      split at inside
      next isLast =>
        obtain rfl := Option.some.inj inside
        have indexEq : index = entries.length := by omega
        refine ⟨page, ?_, ?_⟩
        · rw [indexEq, ← paged.length_pages_full full, List.getElem?_append_right (Nat.le_refl _)]
          simp
        · rw [indexEq, full, Function.update_self]
          exact first
      next => exact nomatch inside

theorem single {row : Nat → Entry} (some_entry : 0 < entries.length)
    (fits : entries.length ≤ size)
    (copied : Tabulates row entries) :
    Paged (Function.update table page row) size [page] entries where
  enough := by simpa using fits
  needed := by
    rw [List.length_singleton]
    omega
  found index entry inside := by
    have below : index < size := Nat.lt_of_lt_of_le (List.getElem?_eq_some_iff.mp inside).1 fits
    refine ⟨page, by rw [Nat.div_eq_of_lt below]; rfl, ?_⟩
    rw [Nat.mod_eq_of_lt below, Function.update_self]
    exact copied index entry inside

omit [DecidableEq Page]

section

variable (paged : Paged table size pages (entries ++ [entry]))
include paged

theorem dropLast (partly : entries.length % size ≠ 0) : Paged table size pages entries where
  enough := by
    have enough := paged.enough
    rw [List.length_append, List.length_singleton] at enough
    omega
  needed := by
    have needed := paged.needed
    have enough := paged.enough
    have positive := paged.size_pos
    rw [List.length_append, List.length_singleton] at needed enough
    -- otherwise the pages without the last one would be full
    have different : pages.length * size ≠ entries.length + size := by
      intro same
      have split : entries.length % size = (pages.length * size) % size := by
        rw [same, Nat.add_mod_right]
      rw [Nat.mul_mod_left] at split
      exact partly split
    omega
  found index found inside :=
    paged.found index found
      (by rwa [List.getElem?_append_left (List.getElem?_eq_some_iff.mp inside).1])

private theorem length_snoc : pages.length = entries.length / size + 1 := by
  have needed := paged.needed
  have enough := paged.enough
  have positive := paged.size_pos
  have split := Nat.div_add_mod entries.length size
  have below := Nat.mod_lt entries.length positive
  rw [Nat.mul_comm] at split
  rw [List.length_append, List.length_singleton] at needed enough
  generalize entries.length / size = quotient at *
  have lower : quotient * size < pages.length * size := by omega
  have upper : pages.length * size < (quotient + 2) * size := by
    rw [Nat.add_mul]
    omega
  have := Nat.lt_of_mul_lt_mul_right lower
  have := Nat.lt_of_mul_lt_mul_right upper
  omega

theorem eq_append (isPage : pages[entries.length / size]? = some page) :
    ∃ rest, pages = rest ++ [page] ∧ rest.length = entries.length / size := by
  have count := paged.length_snoc
  rcases List.eq_nil_or_concat' pages with empty | ⟨rest, last, rfl⟩
  · simp [empty] at count
  · rw [List.length_append, List.length_singleton, Nat.add_right_cancel_iff] at count
    rw [← count, List.getElem?_concat_length, Option.some.injEq] at isPage
    exact ⟨rest, by rw [isPage], count⟩

end

theorem length_of_last (paged : Paged table size (pages ++ [page]) (entries ++ [entry]))
    (first : entries.length % size = 0) : entries.length = pages.length * size := by
  have count := paged.length_snoc
  have split := Nat.div_add_mod entries.length size
  rw [List.length_append, List.length_singleton, Nat.add_right_cancel_iff] at count
  rw [first, ← count, Nat.mul_comm] at split
  exact split.symm

theorem dropPage (paged : Paged table size (pages ++ [page]) (entries ++ [entry]))
    (first : entries.length % size = 0) : Paged table size pages entries where
  enough := Nat.le_of_eq (paged.length_of_last first)
  needed := by
    have := paged.length_of_last first
    have := paged.size_pos
    omega
  found index found inside := by
    have isInside := (List.getElem?_eq_some_iff.mp inside).1
    obtain ⟨holder, isHolder, isEntry⟩ := paged.found index found
      (by rwa [List.getElem?_append_left isInside])
    refine ⟨holder, ?_, isEntry⟩
    rwa [List.getElem?_append_left] at isHolder
    apply Nat.div_lt_of_lt_mul
    rw [Nat.mul_comm, ← paged.length_of_last first]
    exact isInside

end Paged
