import Mathlib.Algebra.Order.BigOperators.Group.List
import Mathlib.Algebra.Ring.Nat

/-! Proportional shares of an amount. Every holder of a weight gets its part of
the amount, rounded down. -/

set_option autoImplicit false

namespace Shares

def share (amount total weight : Nat) : Nat := weight * amount / total

private theorem sum_share_le_share_sum (amount total : Nat) (weights : List Nat) :
    (weights.map (share amount total)).sum ≤ share amount total weights.sum := by
  induction weights with
  | nil => exact Nat.zero_le _
  | cons weight rest ih =>
    have both : weight * amount / total + rest.sum * amount / total ≤
        (weight * amount + rest.sum * amount) / total := Nat.div_add_div_le_add_div
    simp only [List.map_cons, List.sum_cons, share, Nat.add_mul] at ih ⊢
    omega

theorem sum_share_le {amount total : Nat} {weights : List Nat} (within : weights.sum ≤ total) :
    (weights.map (share amount total)).sum ≤ amount := by
  calc (weights.map (share amount total)).sum
      ≤ share amount total weights.sum := sum_share_le_share_sum amount total weights
    _ ≤ share amount total total := Nat.div_le_div_right (Nat.mul_le_mul_right amount within)
    _ ≤ amount := Nat.div_le_of_le_mul (le_refl _)

/-- A product that has been reduced is worth less once it is divided. -/
theorem lt_of_mod_div_eq {product modulus total : Nat} (positive : 0 < total)
    (small : total ≤ modulus) (same : product % modulus / total = product / total) :
    product < modulus := by
  by_contra large
  have rest : product % modulus + modulus ≤ product := by
    have split := Nat.mod_add_div product modulus
    have whole : 1 ≤ product / modulus :=
      (Nat.one_le_div_iff (by omega)).mpr (by omega)
    have scaled := Nat.mul_le_mul_left modulus whole
    omega
  have more : product % modulus / total + 1 ≤ product / total := by
    rw [← Nat.add_div_right _ positive]
    exact Nat.div_le_div_right (by omega)
  omega

end Shares
