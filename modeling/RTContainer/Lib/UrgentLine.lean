import Mathlib.Data.List.Forall2
import Mathlib.Order.Lattice

/-! Lines in which the members stand by their priorities: those of one priority in the order
of their arrivals, except that of two urgent ones the later comes first. -/

set_option autoImplicit false

namespace UrgentLine

variable {Item Other : Type}

def insertBehind (before : Item → Bool) (item : Item) (line : List Item) : List Item :=
  line.takeWhile before ++ item :: line.dropWhile before

section Insert

variable {before : Item → Bool} {item other : Item} {line : List Item}

theorem insertBehind_cons_of_pos (isBefore : before other = true) :
    insertBehind before item (other :: line) = other :: insertBehind before item line := by
  unfold insertBehind
  rw [List.takeWhile_cons_of_pos isBefore, List.dropWhile_cons_of_pos isBefore, List.cons_append]

theorem insertBehind_cons_of_neg (isBehind : before other = false) :
    insertBehind before item (other :: line) = item :: other :: line := by
  have isNot : ¬ before other = true := by simp [isBehind]
  unfold insertBehind
  rw [List.takeWhile_cons_of_neg isNot, List.dropWhile_cons_of_neg isNot, List.nil_append]

theorem insertBehind_perm : (insertBehind before item line).Perm (item :: line) := by
  have moved : (insertBehind before item line).Perm
      (item :: (line.takeWhile before ++ line.dropWhile before)) := List.perm_middle
  rwa [List.takeWhile_append_dropWhile] at moved

@[simp] theorem mem_insertBehind :
    other ∈ insertBehind before item line ↔ other = item ∨ other ∈ line := by
  rw [insertBehind_perm.mem_iff, List.mem_cons]

theorem insertBehind_of_forall (all : ∀ other ∈ line, before other = true) :
    insertBehind before item line = line ++ [item] := by
  induction line with
  | nil => rfl
  | cons head rest ih =>
    rw [insertBehind_cons_of_pos (all head List.mem_cons_self), List.cons_append,
      ih fun other member => all other (List.mem_cons_of_mem _ member)]

theorem insertBehind_of_forall_not (none : ∀ other ∈ line, before other = false) :
    insertBehind before item line = item :: line := by
  cases line with
  | nil => rfl
  | cons head rest => exact insertBehind_cons_of_neg (none head List.mem_cons_self)

/-- Lines that agree get newcomers at the same place. -/
theorem insertBehind_forall₂ {Agrees : Item → Other → Prop} {beforeOther : Other → Bool}
    {otherItem : Other} {otherLine : List Other} (agree : List.Forall₂ Agrees line otherLine)
    (same : ∀ first ∈ line, ∀ second, Agrees first second → before first = beforeOther second)
    (added : Agrees item otherItem) :
    List.Forall₂ Agrees (insertBehind before item line)
      (insertBehind beforeOther otherItem otherLine) := by
  induction agree with
  | nil => exact .cons added .nil
  | @cons first second rest otherRest head tail ih =>
    have decides := same first List.mem_cons_self second head
    cases isBefore : before first with
    | true =>
      rw [insertBehind_cons_of_pos isBefore, insertBehind_cons_of_pos (decides ▸ isBefore)]
      exact .cons head (ih fun first member => same first (List.mem_cons_of_mem _ member))
    | false =>
      rw [insertBehind_cons_of_neg isBefore, insertBehind_cons_of_neg (decides ▸ isBefore)]
      exact .cons added (.cons head tail)

/-- An insertion behind those that come before it keeps the order. -/
theorem insertBehind_pairwise {precedes : Item → Item → Prop}
    (trans : ∀ {first second third}, precedes first second → precedes second third →
      precedes first third)
    (isBefore : ∀ other ∈ line, before other = true → precedes other item)
    (isBehind : ∀ other ∈ line, before other = false → precedes item other)
    (ordered : line.Pairwise precedes) :
    (insertBehind before item line).Pairwise precedes := by
  induction line with
  | nil => exact List.pairwise_singleton _ item
  | cons head rest ih =>
    rw [List.pairwise_cons] at ordered
    cases decides : before head with
    | true =>
      rw [insertBehind_cons_of_pos decides, List.pairwise_cons]
      constructor
      · intro other member
        rcases mem_insertBehind.mp member with rfl | member
        · exact isBefore head List.mem_cons_self decides
        · exact ordered.1 other member
      · exact ih (fun other member => isBefore other (List.mem_cons_of_mem _ member))
          (fun other member => isBehind other (List.mem_cons_of_mem _ member)) ordered.2
    | false =>
      have first := isBehind head List.mem_cons_self decides
      rw [insertBehind_cons_of_neg decides, List.pairwise_cons, List.pairwise_cons]
      refine ⟨fun other member => ?_, ordered⟩
      rcases List.mem_cons.mp member with rfl | member
      · exact first
      · exact trans first (ordered.1 other member)

end Insert

structure Member (Content Priority : Type) where
  content : Content
  priority : Priority
  arrival : Nat

variable {Content Priority : Type} [LinearOrder Priority] {urgent : Priority}
variable {first second third member : Member Content Priority}
variable {line : List (Member Content Priority)}

def Precedes (urgent : Priority) (first second : Member Content Priority) : Prop :=
  first.priority < second.priority ∨
    first.priority = second.priority ∧
      if first.priority = urgent then second.arrival < first.arrival
      else first.arrival < second.arrival

instance : Decidable (Precedes urgent first second) := by
  unfold Precedes
  infer_instance

theorem Precedes.trans (before : Precedes urgent first second)
    (behind : Precedes urgent second third) : Precedes urgent first third := by
  rcases before with lower | ⟨same, earlier⟩
  · rcases behind with lowerAgain | ⟨sameAgain, _⟩
    · exact .inl (lower.trans lowerAgain)
    · exact .inl (lower.trans_eq sameAgain)
  · rcases behind with lowerAgain | ⟨sameAgain, later⟩
    · exact .inl (same.trans_lt lowerAgain)
    · refine .inr ⟨same.trans sameAgain, ?_⟩
      rw [← same] at later
      split at earlier
      next isUrgent =>
        rw [if_pos isUrgent] at later ⊢
        exact Nat.lt_trans later earlier
      next notUrgent =>
        rw [if_neg notUrgent] at later ⊢
        exact Nat.lt_trans earlier later

theorem precedes_of_arrival_lt (earlier : first.arrival < second.arrival) :
    Precedes urgent first second ↔ first.priority < second.priority ∨
      first.priority = second.priority ∧ second.priority ≠ urgent := by
  refine or_congr_right (and_congr_right fun same => ?_)
  rw [same]
  split
  next isUrgent => exact iff_of_false (Nat.lt_asymm earlier) (not_not_intro isUrgent)
  next notUrgent => exact iff_of_true earlier notUrgent

private theorem precedes_newcomer (earlier : first.arrival < second.arrival)
    (notBefore : ¬ Precedes urgent first second) : Precedes urgent second first := by
  rw [precedes_of_arrival_lt earlier, not_or, not_and, not_not, not_lt] at notBefore
  rcases notBefore.1.lt_or_eq with lower | same
  · exact .inl lower
  · refine .inr ⟨same, ?_⟩
    rw [if_pos (notBefore.2 same.symm)]
    exact earlier

/-- A newcomer takes its place. -/
def arrive (urgent : Priority) (member : Member Content Priority)
    (line : List (Member Content Priority)) : List (Member Content Priority) :=
  insertBehind (fun other => Precedes urgent other member) member line

theorem arrive_perm : (arrive urgent member line).Perm (member :: line) := insertBehind_perm

@[simp] theorem mem_arrive {other : Member Content Priority} :
    other ∈ arrive urgent member line ↔ other = member ∨ other ∈ line := mem_insertBehind

theorem arrive_pairwise (ordered : line.Pairwise (Precedes urgent))
    (latest : ∀ other ∈ line, other.arrival < member.arrival) :
    (arrive urgent member line).Pairwise (Precedes urgent) := by
  refine insertBehind_pairwise Precedes.trans ?_ ?_ ordered
  · exact fun other _ isBefore => of_decide_eq_true isBefore
  · intro other inside isBehind
    exact precedes_newcomer (latest other inside) (of_decide_eq_false isBehind)

end UrgentLine
