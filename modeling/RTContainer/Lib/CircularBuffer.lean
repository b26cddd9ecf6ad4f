import Mathlib.Data.List.DropRight
import Mathlib.Data.Nat.ModEq

/-! A circular array as a window on the history of what was stored in it. -/

set_option autoImplicit false

namespace CircularBuffer

variable {Item : Type} {cells : Nat → Item} {capacity : Nat} {history : List Item}

def Window (cells : Nat → Item) (capacity : Nat) (history : List Item) : Prop :=
  ∀ index (bound : index < history.length), history.length ≤ index + capacity →
    cells (index % capacity) = history[index]

def cellsFrom (cells : Nat → Item) (capacity start count : Nat) : List Item :=
  (List.range count).map fun offset => cells ((start + offset) % capacity)

theorem Window.nil (cells : Nat → Item) (capacity : Nat) : Window cells capacity [] := by
  intro index bound
  exact absurd bound (Nat.not_lt_zero index)

private theorem slots_differ {index length : Nat} (before : index < length)
    (inside : length + 1 ≤ index + capacity) : index % capacity ≠ length % capacity := by
  intro same
  have divides : capacity ∣ length - index := (Nat.modEq_iff_dvd' before.le).mp same
  have far : capacity ≤ length - index := Nat.le_of_dvd (by omega) divides
  omega

theorem Window.store (window : Window cells capacity history) (item : Item) :
    Window (Function.update cells (history.length % capacity) item) capacity
      (history ++ [item]) := by
  intro index bound inside
  rw [List.length_append, List.length_singleton] at bound inside
  rcases Nat.lt_or_ge index history.length with before | last
  · rw [Function.update_of_ne (slots_differ before inside), List.getElem_append_left before]
    exact window index before (by omega)
  · have isLast : index = history.length := by omega
    subst isLast
    rw [Function.update_self, List.getElem_concat_length rfl]

/-- Reading back from the cell after the newest item gives the newest items. -/
theorem Window.cellsFrom (window : Window cells capacity history) {count : Nat}
    (stored : count ≤ history.length) (fits : count ≤ capacity) :
    cellsFrom cells capacity (history.length - count) count = history.rtake count := by
  unfold CircularBuffer.cellsFrom List.rtake
  refine List.ext_getElem (by simp; omega) ?_
  intro offset bound _
  rw [List.length_map, List.length_range] at bound
  rw [List.getElem_map, List.getElem_range, List.getElem_drop]
  exact window (history.length - count + offset) (by omega) (by omega)

theorem cellsFrom_mod (cells : Nat → Item) (capacity start count : Nat) :
    cellsFrom cells capacity (start % capacity) count = cellsFrom cells capacity start count := by
  unfold cellsFrom
  simp only [Nat.mod_add_mod]

/-- Where a reader starts that knows only the next cell to be written. -/
theorem start_mod {length count : Nat} (stored : count ≤ length) (fits : count ≤ capacity) :
    (length % capacity + capacity - count) % capacity = (length - count) % capacity := by
  have whole := Nat.mod_add_div length capacity
  have split : length % capacity + capacity - count + capacity * (length / capacity) =
      length - count + capacity := by omega
  rw [← Nat.add_mul_mod_self_left (length % capacity + capacity - count) capacity
    (length / capacity), split, Nat.add_mod_right]

end CircularBuffer
