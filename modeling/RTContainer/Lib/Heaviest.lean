import Mathlib.Data.List.Induction
import Mathlib.Logic.Relation

/-! The first of the heaviest elements of a list, and lists in which neighbours that are
apart from each other change places. -/

set_option autoImplicit false

namespace Heaviest

variable {Item : Type} {weight : Item → Nat}

def heavier (weight : Item → Nat) (best item : Item) : Item :=
  if weight best < weight item then item else best

def take (weight : Item → Nat) : Option Item → Item → Option Item
  | none, item => some item
  | some best, item => some (heavier weight best item)

/-- The first of the heaviest elements. -/
def heaviest (weight : Item → Nat) (items : List Item) : Option Item :=
  items.foldl (take weight) none

theorem heaviest_concat (weight : Item → Nat) (items : List Item) (item : Item) :
    heaviest weight (items ++ [item]) = take weight (heaviest weight items) item := by
  rw [heaviest, List.foldl_append]
  rfl

theorem foldl_take (weight : Item → Nat) (best : Item) (items : List Item) :
    items.foldl (take weight) (some best) = some (items.foldl (heavier weight) best) := by
  induction items generalizing best with
  | nil => rfl
  | cons first rest ih => exact ih (heavier weight best first)

theorem heaviest_eq_none {items : List Item} : heaviest weight items = none ↔ items = [] := by
  cases items with
  | nil => exact iff_of_true rfl rfl
  | cons first rest =>
    refine iff_of_false (fun none => ?_) (List.cons_ne_nil first rest)
    have found := (foldl_take weight first rest).symm.trans none
    exact nomatch found

/-- The heaviest item is one of the items and none is heavier. -/
theorem heaviest_spec {items : List Item} {best : Item} (found : heaviest weight items = some best) :
    best ∈ items ∧ ∀ item ∈ items, weight item ≤ weight best := by
  induction items using List.reverseRecOn generalizing best with
  | nil => exact nomatch found
  | append_singleton items last ih =>
    rw [heaviest_concat] at found
    cases earlier : heaviest weight items with
    | none =>
      rw [earlier] at found
      obtain rfl := Option.some.inj found
      rw [heaviest_eq_none.mp earlier]
      simp
    | some was =>
      obtain ⟨member, greatest⟩ := ih earlier
      rw [earlier, take, heavier, Option.some.injEq] at found
      split at found
      next heavier =>
        subst found
        refine ⟨by simp, fun item isItem => ?_⟩
        rcases List.mem_append.mp isItem with isEarlier | isLast
        · exact Nat.le_of_lt (Nat.lt_of_le_of_lt (greatest item isEarlier) heavier)
        · exact Nat.le_of_eq (congrArg weight (List.mem_singleton.mp isLast))
      next lighter =>
        subst found
        refine ⟨List.mem_append_left _ member, fun item isItem => ?_⟩
        rcases List.mem_append.mp isItem with isEarlier | isLast
        · exact greatest item isEarlier
        · rw [List.mem_singleton.mp isLast]
          exact Nat.le_of_not_lt lighter

private theorem take_filter (bound : Nat) (best : Option Item) (item : Item) :
    (take weight best item).filter (fun item => bound < weight item) =
      if bound < weight item then take weight (best.filter fun item => bound < weight item) item
      else best.filter fun item => bound < weight item := by
  cases best with
  | none => simp only [take, Option.filter_some, Option.filter_none, decide_eq_true_eq]
  | some best =>
    simp only [take, heavier, Option.filter_some, decide_eq_true_eq]
    grind [take, heavier]

/-- Among the elements over a bound it is the same, when it is over the bound itself. -/
theorem heaviest_filter (bound : Nat) (items : List Item) :
    heaviest weight (items.filter fun item => bound < weight item) =
      (heaviest weight items).filter fun item => bound < weight item := by
  induction items using List.reverseRecOn with
  | nil => rfl
  | append_singleton items last ih =>
    rw [List.filter_append, List.filter_cons, List.filter_nil, heaviest_concat, take_filter, ← ih]
    split
    next exceeds => rw [if_pos (of_decide_eq_true exceeds), heaviest_concat]
    next notOver => rw [if_neg (by simpa using notOver), List.append_nil]

/-- Two neighbours change places. -/
inductive Swap (apart : Item → Item → Prop) : List Item → List Item → Prop where
  | mk (before after : List Item) {first second : Item} : apart first second →
      Swap apart (before ++ first :: second :: after) (before ++ second :: first :: after)

/-- The order of elements that are not apart is kept. -/
def Reorder (apart : Item → Item → Prop) : List Item → List Item → Prop :=
  Relation.ReflTransGen (Swap apart)

variable {apart : Item → Item → Prop} {items order : List Item}

theorem Swap.perm (swap : Swap apart items order) : order.Perm items := by
  cases swap with
  | mk before after => exact (List.Perm.swap ..).append_left before

theorem Reorder.perm (reorder : Reorder apart items order) : order.Perm items := by
  induction reorder with
  | refl => exact .refl items
  | tail _ swap ih => exact swap.perm.trans ih

theorem Reorder.to_front {item : Item} (after : List Item) {before : List Item}
    (areApart : ∀ other ∈ before, apart other item) :
    Reorder apart (before ++ item :: after) (item :: (before ++ after)) := by
  induction before using List.reverseRecOn generalizing after with
  | nil => exact .refl
  | append_singleton before last ih =>
    have first : Swap apart (before ++ last :: item :: after) (before ++ item :: last :: after) :=
      .mk before after (areApart last (by simp))
    have rest := ih (last :: after) fun other member =>
      areApart other (List.mem_append_left _ member)
    simp only [List.append_assoc, List.cons_append, List.nil_append]
    exact .head first rest

theorem Reorder.filter_eq (reorder : Reorder apart items order) (keep : Item → Bool)
    (together : ∀ first second, apart first second → keep first = true → keep second = false) :
    order.filter keep = items.filter keep := by
  induction reorder with
  | refl => rfl
  | tail _ swap ih =>
    rw [← ih]
    cases swap with
    | @mk before after first second isApart =>
      have only := together first second isApart
      simp only [List.filter_append, List.filter_cons]
      cases isFirst : keep first with
      | false => rfl
      | true =>
        rw [only isFirst]
        rfl

theorem take_take_comm {first second : Item} (different : weight first ≠ weight second)
    (best : Option Item) :
    take weight (take weight best first) second = take weight (take weight best second) first := by
  cases best with
  | none =>
    simp only [take, heavier]
    split <;> split <;> first | rfl | omega
  | some best =>
    simp only [take, heavier]
    grind

theorem Reorder.heaviest_eq (reorder : Reorder apart items order) {keep : Item → Bool}
    (different : ∀ first second, apart first second → keep first = true → keep second = true →
      weight first ≠ weight second) :
    heaviest weight (order.filter keep) = heaviest weight (items.filter keep) := by
  induction reorder with
  | refl => rfl
  | tail _ swap ih =>
    rw [← ih]
    cases swap with
    | @mk before after first second isApart =>
      have differ := different first second isApart
      simp only [heaviest, List.filter_append, List.filter_cons, List.foldl_append]
      cases isFirst : keep first with
      | false => rfl
      | true =>
        cases isSecond : keep second with
        | false => rfl
        | true =>
          simp only [if_true, List.foldl_cons]
          rw [take_take_comm (differ isFirst isSecond)]

end Heaviest
