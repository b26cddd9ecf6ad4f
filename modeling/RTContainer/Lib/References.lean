import Mathlib.Data.Fintype.Basic
import Mathlib.Data.Finset.Card

/-! Pointers of holders into a heap: how many of finitely many holders point to
an address, and what it takes to redirect all of them before the address is
freed. -/

set_option autoImplicit false

namespace References

open Function

section

variable {Holder Address : Type} {before middle after : Holder → Option Address}
variable {old new : Address} {chosen others : Holder → Prop}

structure Redirects (before after : Holder → Option Address) (old new : Address)
    (chosen : Holder → Prop) : Prop where
  moved : ∀ holder, before holder = some old → chosen holder → after holder = some new
  stays : ∀ holder, ¬ (before holder = some old ∧ chosen holder) → after holder = before holder

theorem Redirects.congr (redirects : Redirects before after old new chosen)
    (same : ∀ holder, before holder = some old → (chosen holder ↔ others holder)) :
    Redirects before after old new others where
  moved holder points isChosen := redirects.moved holder points ((same holder points).mpr isChosen)
  stays holder free :=
    redirects.stays holder fun both => free ⟨both.1, (same holder both.1).mp both.2⟩

theorem Redirects.trans (apart : old ≠ new) (first : Redirects before middle old new chosen)
    (second : Redirects middle after old new others) :
    Redirects before after old new fun holder => chosen holder ∨ others holder where
  moved := by
    intro holder points either
    by_cases isChosen : chosen holder
    · have arrived := first.moved holder points isChosen
      refine (second.stays holder ?_).trans arrived
      intro both
      exact apart (Option.some.inj (both.1.symm.trans arrived))
    · have stayed := first.stays holder fun both => isChosen both.2
      exact second.moved holder (stayed.trans points) (either.resolve_left isChosen)
  stays := by
    intro holder free
    have stayed := first.stays holder fun both => free ⟨both.1, .inl both.2⟩
    refine (second.stays holder ?_).trans stayed
    intro both
    exact free ⟨stayed.symm.trans both.1, .inr both.2⟩

/-- All references are redirected when all who hold one are chosen. -/
theorem Redirects.released_iff (apart : old ≠ new)
    (redirects : Redirects before after old new chosen) :
    (∀ holder, after holder ≠ some old ∧ (before holder = some old → after holder = some new)) ↔
      ∀ holder, before holder = some old → chosen holder := by
  constructor
  · intro released holder points
    by_contra spared
    have stayed := redirects.stays holder fun both => spared both.2
    exact (released holder).1 (stayed.trans points)
  · intro all holder
    by_cases points : before holder = some old
    · have arrived := redirects.moved holder points (all holder points)
      refine ⟨?_, fun _ => arrived⟩
      intro still
      exact apart (Option.some.inj (still.symm.trans arrived))
    · have stayed := redirects.stays holder fun both => points both.1
      exact ⟨fun still => points (stayed.symm.trans still), fun points' => absurd points' points⟩

end

section

variable {Holder Address : Type} [Fintype Holder] [DecidableEq Address]

def holders (pointer : Holder → Option Address) (address : Address) : Finset Holder :=
  Finset.univ.filter fun holder => pointer holder = some address

def count (pointer : Holder → Option Address) (address : Address) : Nat :=
  (holders pointer address).card

variable {pointer : Holder → Option Address} {address : Address} {holder : Holder}

@[simp] theorem mem_holders : holder ∈ holders pointer address ↔ pointer holder = some address := by
  simp [holders]

theorem count_eq_zero : count pointer address = 0 ↔ ∀ holder, pointer holder ≠ some address := by
  simp [count, Finset.card_eq_zero, Finset.eq_empty_iff_forall_notMem]

theorem count_pos (points : pointer holder = some address) : 0 < count pointer address :=
  Finset.card_pos.mpr ⟨holder, mem_holders.mpr points⟩

variable [DecidableEq Holder]

theorem count_eq_others (pointer : Holder → Option Address) (holder : Holder) (address : Address) :
    count pointer address = ((holders pointer address).erase holder).card +
      (if pointer holder = some address then 1 else 0) := by
  unfold count
  split
  · rename_i points
    exact (Finset.card_erase_add_one (mem_holders.mpr points)).symm
  · rename_i elsewhere
    rw [Finset.erase_eq_of_notMem fun member => elsewhere (mem_holders.mp member), Nat.add_zero]

/-- A new pointer moves one reference from the old address to the new. -/
theorem count_update (pointer : Holder → Option Address) (holder : Holder)
    (target : Option Address) (address : Address) :
    count (update pointer holder target) address +
        (if pointer holder = some address then 1 else 0) =
      count pointer address + (if target = some address then 1 else 0) := by
  have others : (holders (update pointer holder target) address).erase holder =
      (holders pointer address).erase holder := by
    ext other
    by_cases same : other = holder
    · simp [same]
    · simp [same]
  have after := count_eq_others (update pointer holder target) holder address
  have before := count_eq_others pointer holder address
  rw [update_self, others] at after
  omega

end

end References
