import Mathlib.Data.List.Nodup

/-! Tokens that are lent to piles. Everybody has a token of his own at first, puts it on a
pile, and takes the uppermost token of that pile later. So no token gets lost, and
the token at the bottom of a pile is the last one that leaves it. -/

set_option autoImplicit false

structure Lending (Holder Pile Token : Type) where
  spare : Holder → Option Token
  pile : Pile → List Token

namespace Lending

open Function

variable {Holder Pile Token : Type}

def Has (lending : Lending Holder Pile Token) (token : Token) : Prop :=
  (∃ holder, lending.spare holder = some token) ∨ ∃ pile, token ∈ lending.pile pile

/-- No token is at two places. -/
structure Distinct (lending : Lending Holder Pile Token) : Prop where
  spare : ∀ {first second : Holder} {token : Token}, lending.spare first = some token →
    lending.spare second = some token → first = second
  apart : ∀ {holder : Holder} {pile : Pile} {token : Token}, lending.spare holder = some token →
    token ∉ lending.pile pile
  nodup : ∀ pile, (lending.pile pile).Nodup
  disjoint : ∀ {first second : Pile} {token : Token}, token ∈ lending.pile first →
    token ∈ lending.pile second → first = second

variable [DecidableEq Holder] [DecidableEq Pile]
variable {lending : Lending Holder Pile Token} {holder : Holder} {pile : Pile}
variable {token : Token} {rest : List Token}

def lend (lending : Lending Holder Pile Token) (holder : Holder) (pile : Pile) (token : Token) :
    Lending Holder Pile Token where
  spare := update lending.spare holder none
  pile := update lending.pile pile (token :: lending.pile pile)

def take (lending : Lending Holder Pile Token) (holder : Holder) (pile : Pile) (token : Token)
    (rest : List Token) : Lending Holder Pile Token where
  spare := update lending.spare holder (some token)
  pile := update lending.pile pile rest

variable {other : Pile} {wanted : Token}

theorem mem_lend :
    wanted ∈ (lending.lend holder pile token).pile other ↔
      (other = pile ∧ wanted = token) ∨ wanted ∈ lending.pile other := by
  dsimp only [lend]
  rcases eq_or_ne other pile with rfl | different
  · rw [update_self, List.mem_cons, eq_self, true_and]
  · rw [update_of_ne different]
    exact ⟨.inr, fun member => member.resolve_left fun same => different same.1⟩

theorem spare_lend {other : Holder} :
    (lending.lend holder pile token).spare other = some wanted ↔
      other ≠ holder ∧ lending.spare other = some wanted := by
  dsimp only [lend]
  rcases eq_or_ne other holder with rfl | different
  · rw [update_self]
    exact ⟨fun given => (nomatch given), fun given => absurd rfl given.1⟩
  · rw [update_of_ne different]
    exact ⟨fun given => ⟨different, given⟩, fun given => given.2⟩

/-- A lent token is no longer with its holder. -/
theorem Distinct.lend (distinct : lending.Distinct) (has : lending.spare holder = some token)
    (pile : Pile) : (lending.lend holder pile token).Distinct where
  spare first second := by
    exact distinct.spare (spare_lend.mp first).2 (spare_lend.mp second).2
  apart given member := by
    obtain ⟨different, old⟩ := spare_lend.mp given
    rcases mem_lend.mp member with ⟨-, rfl⟩ | onPile
    · exact different (distinct.spare old has)
    · exact distinct.apart old onPile
  nodup other := by
    dsimp only [Lending.lend]
    rcases eq_or_ne other pile with rfl | different
    · rw [update_self]
      exact List.nodup_cons.mpr ⟨distinct.apart has, distinct.nodup other⟩
    · rw [update_of_ne different]
      exact distinct.nodup other
  disjoint first second := by
    rcases mem_lend.mp first with ⟨rfl, rfl⟩ | oldFirst
    · rcases mem_lend.mp second with ⟨rfl, -⟩ | oldSecond
      · rfl
      · exact absurd oldSecond (distinct.apart has)
    · rcases mem_lend.mp second with ⟨rfl, rfl⟩ | oldSecond
      · exact absurd oldFirst (distinct.apart has)
      · exact distinct.disjoint oldFirst oldSecond

theorem has_lend (has : lending.spare holder = some token) (pile : Pile) :
    (lending.lend holder pile token).Has wanted ↔ lending.Has wanted := by
  constructor
  · rintro (⟨other, given⟩ | ⟨other, member⟩)
    · exact .inl ⟨other, (spare_lend.mp given).2⟩
    · rcases mem_lend.mp member with ⟨-, rfl⟩ | old
      · exact .inl ⟨holder, has⟩
      · exact .inr ⟨other, old⟩
  · rintro (⟨other, given⟩ | ⟨other, member⟩)
    · rcases eq_or_ne other holder with rfl | different
      · cases Option.some.inj (given.symm.trans has)
        exact .inr ⟨pile, mem_lend.mpr (.inl ⟨rfl, rfl⟩)⟩
      · exact .inl ⟨other, spare_lend.mpr ⟨different, given⟩⟩
    · exact .inr ⟨other, mem_lend.mpr (.inr member)⟩

theorem mem_take (top : lending.pile pile = token :: rest) (distinct : lending.Distinct) :
    wanted ∈ (lending.take holder pile token rest).pile other ↔
      wanted ≠ token ∧ wanted ∈ lending.pile other := by
  have nodup := distinct.nodup pile
  rw [top] at nodup
  obtain ⟨unique, -⟩ := List.nodup_cons.mp nodup
  dsimp only [take]
  rcases eq_or_ne other pile with rfl | different
  · rw [update_self, top, List.mem_cons]
    constructor
    · intro member
      exact ⟨fun same => unique (same ▸ member), .inr member⟩
    · intro member
      exact member.2.resolve_left member.1
  · rw [update_of_ne different]
    refine ⟨fun member => ⟨?_, member⟩, fun member => member.2⟩
    rintro rfl
    exact different (distinct.disjoint member (top ▸ List.mem_cons_self))

theorem spare_take {other : Holder} (none : lending.spare holder = none) :
    (lending.take holder pile token rest).spare other = some wanted ↔
      (other = holder ∧ wanted = token) ∨ lending.spare other = some wanted := by
  dsimp only [take]
  rcases eq_or_ne other holder with rfl | different
  · rw [update_self, none]
    constructor
    · intro given
      exact .inl ⟨rfl, (Option.some.inj given).symm⟩
    · rintro (⟨-, rfl⟩ | given)
      · rfl
      · nomatch given
  · rw [update_of_ne different]
    exact ⟨.inr, fun given => given.resolve_left fun same => different same.1⟩

/-- A token taken back from a pile is with its holder only. -/
theorem Distinct.take (distinct : lending.Distinct) (none : lending.spare holder = none)
    (top : lending.pile pile = token :: rest) :
    (lending.take holder pile token rest).Distinct where
  spare first second := by
    have onPile : token ∈ lending.pile pile := top ▸ List.mem_cons_self
    rcases (spare_take none).mp first with ⟨rfl, rfl⟩ | oldFirst
    · rcases (spare_take none).mp second with ⟨rfl, -⟩ | oldSecond
      · rfl
      · exact absurd onPile (distinct.apart oldSecond)
    · rcases (spare_take none).mp second with ⟨rfl, rfl⟩ | oldSecond
      · exact absurd onPile (distinct.apart oldFirst)
      · exact distinct.spare oldFirst oldSecond
  apart given member := by
    obtain ⟨different, old⟩ := (mem_take top distinct).mp member
    rcases (spare_take none).mp given with ⟨-, rfl⟩ | oldGiven
    · exact different rfl
    · exact distinct.apart oldGiven old
  nodup other := by
    dsimp only [Lending.take]
    rcases eq_or_ne other pile with rfl | different
    · rw [update_self]
      exact (List.nodup_cons.mp (top ▸ distinct.nodup other)).2
    · rw [update_of_ne different]
      exact distinct.nodup other
  disjoint first second :=
    distinct.disjoint ((mem_take top distinct).mp first).2 ((mem_take top distinct).mp second).2

theorem has_take (distinct : lending.Distinct) (none : lending.spare holder = none)
    (top : lending.pile pile = token :: rest) :
    (lending.take holder pile token rest).Has wanted ↔ lending.Has wanted := by
  constructor
  · rintro (⟨other, given⟩ | ⟨other, member⟩)
    · rcases (spare_take none).mp given with ⟨-, rfl⟩ | old
      · exact .inr ⟨pile, top ▸ List.mem_cons_self⟩
      · exact .inl ⟨other, old⟩
    · exact .inr ⟨other, ((mem_take top distinct).mp member).2⟩
  · rintro (⟨other, given⟩ | ⟨other, member⟩)
    · exact .inl ⟨other, (spare_take none).mpr (.inr given)⟩
    · by_cases same : wanted = token
      · exact .inl ⟨holder, (spare_take none).mpr (.inl ⟨rfl, same⟩)⟩
      · exact .inr ⟨other, (mem_take top distinct).mpr ⟨same, member⟩⟩

end Lending
