import Mathlib.Tactic

/-!
A queue kept in a ring of `n` cells by the index of its oldest element and the
number of its elements.
-/

namespace NdsRecomp.Library

variable {α : Type*}

/-- The elements, oldest first. -/
def ringContents (n : Nat) (ring : Nat → α) (head count : Nat) : List α :=
  (List.range count).map fun i => ring ((head + i) % n)

@[simp] theorem ringContents_length (n : Nat) (ring : Nat → α) (head count : Nat) :
    (ringContents n ring head count).length = count := by
  rw [ringContents, List.length_map, List.length_range]

@[simp] theorem ringContents_zero (n : Nat) (ring : Nat → α) (head : Nat) :
    ringContents n ring head 0 = [] := rfl

/-- Cells of a queue with room do not meet the cell behind its newest one. -/
private theorem ring_index_ne {n head count i : Nat} (hcount : count < n) (hi : i < count) :
    (head + i) % n ≠ (head + count) % n := by
  intro hsame
  have hdvd := (Nat.modEq_iff_dvd' (by omega : head + i ≤ head + count)).mp hsame
  have hgap : head + count - (head + i) = count - i := by omega
  rw [hgap] at hdvd
  have hle := Nat.le_of_dvd (by omega) hdvd
  omega

/-- A value stored behind the newest element is the newest element. -/
theorem ringContents_push {n : Nat} (ring : Nat → α) (head : Nat) {count : Nat}
    (hcount : count < n) (value : α) :
    ringContents n (Function.update ring ((head + count) % n) value) head (count + 1) =
      ringContents n ring head count ++ [value] := by
  unfold ringContents
  rw [List.range_succ, List.map_append, List.map_singleton, Function.update_self]
  congr 1
  apply List.map_congr_left
  intro i hi
  exact Function.update_of_ne (ring_index_ne hcount (List.mem_range.mp hi)) _ _

/-- The oldest element and the queue without it. -/
theorem ringContents_pop {n : Nat} (ring : Nat → α) (head count : Nat) :
    ringContents n ring head (count + 1) =
      ring (head % n) :: ringContents n ring ((head + 1) % n) count := by
  unfold ringContents
  rw [List.range_succ_eq_map, List.map_cons, List.map_map]
  congr 1
  apply List.map_congr_left
  intro i _
  have hindex : (head + (i + 1)) % n = ((head + 1) % n + i) % n := by
    rw [Nat.mod_add_mod]
    congr 1
    omega
  exact congrArg ring hindex

end NdsRecomp.Library
