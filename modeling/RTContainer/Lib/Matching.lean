import Mathlib.Logic.Function.Basic

/-! Partners among nodes that come and go. A node that is not there has no entry; one
that is there has a partner or none. -/

set_option autoImplicit false

namespace Matching

open Function

variable {Node : Type}

abbrev Partners (Node : Type) := Node → Option (Option Node)

structure Symmetric (partners : Partners Node) : Prop where
  symmetric : ∀ {a b : Node} {ofA ofB : Option Node}, partners a = some ofA →
    partners b = some ofB → (ofA = some b ↔ ofB = some a)
  present : ∀ {a b : Node}, partners a = some (some b) → (partners b).isSome

structure Proper (partners : Partners Node) : Prop extends Symmetric partners where
  irreflexive : ∀ a : Node, partners a ≠ some (some a)

variable {partners : Partners Node} {a b node : Node}

theorem Symmetric.back (symmetric : Symmetric partners) (paired : partners a = some (some b)) :
    partners b = some (some a) := by
  obtain ⟨ofB, found⟩ := Option.isSome_iff_exists.mp (symmetric.present paired)
  rw [found, (symmetric.symmetric paired found).mp rfl]

theorem Symmetric.of_back
    (back : ∀ {a b : Node}, partners a = some (some b) → partners b = some (some a)) :
    Symmetric partners := by
  refine ⟨?_, fun paired => Option.isSome_iff_exists.mpr ⟨_, back paired⟩⟩
  intro a b ofA ofB foundA foundB
  constructor
  · rintro rfl
    exact Option.some.inj (foundB.symm.trans (back foundA))
  · rintro rfl
    exact Option.some.inj (foundA.symm.trans (back foundB))

variable [DecidableEq Node]

def add (partners : Partners Node) (node : Node) : Partners Node :=
  update partners node (some none)

/-- Each of two nodes becomes the other's partner, whatever partners they had. -/
def join (partners : Partners Node) (a b : Node) : Partners Node :=
  update (update partners a (some (some b))) b (some (some a))

/-- A node goes away, and its partner is left without one. -/
def remove (partners : Partners Node) (node : Node) : Partners Node :=
  match partners node with
  | some (some partner) =>
    update (update partners partner (some none)) node none
  | _ => update partners node none

/-- The node is without partner, or the given one is its partner. -/
def Free (partners : Partners Node) (a b : Node) : Prop :=
  partners a = some none ∨ partners a = some (some b)

theorem Proper.add (proper : Proper partners) (absent : partners node = none) :
    Proper (add partners node) := by
  have back : ∀ {a b : Node}, Matching.add partners node a = some (some b) →
      Matching.add partners node b = some (some a) := by
    intro a b paired
    unfold Matching.add at paired ⊢
    rcases eq_or_ne a node with rfl | other
    · rw [update_self] at paired
      nomatch paired
    · rw [update_of_ne other] at paired
      have there := proper.back paired
      rw [update_of_ne]
      · exact there
      · rintro rfl
        rw [absent] at there
        nomatch there
  refine ⟨.of_back back, fun a paired => ?_⟩
  unfold Matching.add at paired
  rcases eq_or_ne a node with rfl | other
  · rw [update_self] at paired
    nomatch paired
  · rw [update_of_ne other] at paired
    exact proper.irreflexive a paired

theorem Proper.join (proper : Proper partners) (distinct : a ≠ b)
    (freeA : Free partners a b) (freeB : Free partners b a) : Proper (join partners a b) := by
  -- No other node has one of the two for its partner.
  have apart : ∀ {node partner : Node}, node ≠ a → node ≠ b →
      partners node = some (some partner) → partner ≠ a ∧ partner ≠ b := by
    intro node partner notA notB paired
    have there := proper.back paired
    constructor
    · rintro rfl
      rcases freeA with none | given
      · exact nomatch there.symm.trans none
      · exact notB (Option.some.inj (Option.some.inj (there.symm.trans given)))
    · rintro rfl
      rcases freeB with none | given
      · exact nomatch there.symm.trans none
      · exact notA (Option.some.inj (Option.some.inj (there.symm.trans given)))
  have atA : Matching.join partners a b a = some (some b) := by
    unfold Matching.join
    rw [update_of_ne distinct, update_self]
  have atB : Matching.join partners a b b = some (some a) := update_self ..
  have elsewhere : ∀ {node : Node}, node ≠ a → node ≠ b →
      Matching.join partners a b node = partners node := by
    intro node notA notB
    unfold Matching.join
    rw [update_of_ne notB, update_of_ne notA]
  have cases : ∀ {node partner : Node}, Matching.join partners a b node = some (some partner) →
      node = a ∧ partner = b ∨ node = b ∧ partner = a ∨
        node ≠ a ∧ node ≠ b ∧ partners node = some (some partner) := by
    intro node partner paired
    rcases eq_or_ne node a with rfl | notA
    · exact .inl ⟨rfl, Option.some.inj (Option.some.inj (paired.symm.trans atA))⟩
    · rcases eq_or_ne node b with rfl | notB
      · exact .inr (.inl ⟨rfl, Option.some.inj (Option.some.inj (paired.symm.trans atB))⟩)
      · exact .inr (.inr ⟨notA, notB, (elsewhere notA notB).symm.trans paired⟩)
  refine ⟨.of_back fun paired => ?_, fun node paired => ?_⟩
  · rcases cases paired with ⟨rfl, rfl⟩ | ⟨rfl, rfl⟩ | ⟨notA, notB, old⟩
    · exact atB
    · exact atA
    · have others := apart notA notB old
      rw [elsewhere others.1 others.2]
      exact proper.back old
  · rcases cases paired with ⟨rfl, rfl⟩ | ⟨rfl, rfl⟩ | ⟨_, _, old⟩
    · exact distinct rfl
    · exact distinct rfl
    · exact proper.irreflexive node old

theorem Proper.not_symmetric_join (proper : Proper partners) (distinct : a ≠ b)
    (presentA : (partners a).isSome) (taken : ¬ Free partners a b) :
    ¬ Symmetric (Matching.join partners a b) := by
  intro symmetric
  obtain ⟨ofA, found⟩ := Option.isSome_iff_exists.mp presentA
  cases ofA with
  | none => exact taken (.inl found)
  | some former =>
    have notB : former ≠ b := by
      rintro rfl
      exact taken (.inr found)
    have notA : former ≠ a := by
      rintro rfl
      exact proper.irreflexive former found
    have old : Matching.join partners a b former = some (some a) := by
      unfold Matching.join
      rw [update_of_ne notB, update_of_ne notA]
      exact proper.back found
    have new : Matching.join partners a b a = some (some b) := by
      unfold Matching.join
      rw [update_of_ne distinct, update_self]
    exact notB (Option.some.inj (Option.some.inj ((symmetric.back old).symm.trans new)))

theorem join_comm (partners : Partners Node) (distinct : a ≠ b) :
    join partners a b = join partners b a :=
  update_comm distinct ..

theorem remove_paired {partner : Node} (found : partners node = some (some partner)) :
    remove partners node = update (update partners partner (some none)) node none := by
  simp only [remove, found]

theorem remove_single (single : ∀ partner, partners node ≠ some (some partner)) :
    remove partners node = update partners node none := by
  unfold remove
  split
  · next partner found => exact absurd found (single partner)
  · rfl

/-- What is left of the relation without a node concerns neither it nor its partner. -/
theorem Proper.of_remove (proper : Proper partners)
    (paired : remove partners node a = some (some b)) :
    partners a = some (some b) ∧ remove partners node b = partners b := by
  by_cases single : ∀ partner, partners node ≠ some (some partner)
  · rw [remove_single single] at paired ⊢
    have notSelf : a ≠ node := by
      rintro rfl
      rw [update_self] at paired
      nomatch paired
    rw [update_of_ne notSelf] at paired
    refine ⟨paired, update_of_ne ?_ ..⟩
    rintro rfl
    exact single a (proper.back paired)
  · obtain ⟨partner, found⟩ := not_forall_not.mp single
    rw [remove_paired found] at paired ⊢
    have notSelf : a ≠ node := by
      rintro rfl
      rw [update_self] at paired
      nomatch paired
    rw [update_of_ne notSelf] at paired
    have notPartner : a ≠ partner := by
      rintro rfl
      rw [update_self] at paired
      nomatch paired
    rw [update_of_ne notPartner] at paired
    have there := proper.back paired
    have notNode : b ≠ node := by
      rintro rfl
      exact notPartner (Option.some.inj (Option.some.inj (there.symm.trans found)))
    have notOther : b ≠ partner := by
      rintro rfl
      exact notSelf (Option.some.inj (Option.some.inj (there.symm.trans (proper.back found))))
    exact ⟨paired, by rw [update_of_ne notNode, update_of_ne notOther]⟩

theorem Proper.remove (proper : Proper partners) (node : Node) : Proper (remove partners node) := by
  refine ⟨.of_back fun paired => ?_, fun a paired => ?_⟩
  · obtain ⟨old, kept⟩ := proper.of_remove paired
    rw [kept]
    exact proper.back old
  · exact proper.irreflexive a (proper.of_remove paired).1

end Matching
