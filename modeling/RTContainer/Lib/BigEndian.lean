import Mathlib.Data.List.Induction
import Mathlib.Data.Nat.Bitwise

/-! Numbers as bytes, the most significant byte first. -/

set_option autoImplicit false

namespace BigEndian

/-- The last bytes of a number. -/
def write : Nat → Nat → List UInt8
  | 0, _ => []
  | width + 1, value => write width (value / 256) ++ [UInt8.ofNat value]

def read (bytes : List UInt8) : Nat :=
  bytes.foldl (fun value byte => value * 256 + byte.toNat) 0

@[simp] theorem length_write (width value : Nat) : (write width value).length = width := by
  induction width generalizing value with
  | zero => rfl
  | succ width ih => simp [write, ih]

private theorem read_append (bytes : List UInt8) (byte : UInt8) :
    read (bytes ++ [byte]) = read bytes * 256 + byte.toNat := by
  simp [read, List.foldl_append]

theorem read_write {width value : Nat} (fits : value < 256 ^ width) :
    read (write width value) = value := by
  induction width generalizing value with
  | zero =>
    rw [Nat.pow_zero, Nat.lt_one_iff] at fits
    rw [fits]
    rfl
  | succ width ih =>
    have rest : value / 256 < 256 ^ width := by
      rw [Nat.div_lt_iff_lt_mul (by decide), ← Nat.pow_succ]
      exact fits
    rw [write, read_append, ih rest, UInt8.toNat_ofNat']
    exact Nat.div_add_mod' value 256

theorem write_read (bytes : List UInt8) : write bytes.length (read bytes) = bytes := by
  induction bytes using List.reverseRecOn with
  | nil => rfl
  | append_singleton bytes byte ih =>
    have small := byte.toNat_lt
    have first : (read bytes * 256 + byte.toNat) / 256 = read bytes := by omega
    have last : UInt8.ofNat (read bytes * 256 + byte.toNat) = byte := by
      rw [← UInt8.toNat_inj, UInt8.toNat_ofNat']
      omega
    rw [read_append, List.length_append, List.length_singleton, write, first, last, ih]

end BigEndian
