import Mathlib.Tactic

/-!
A buffer between a source and a consumer. It holds some bytes, the source has
some left, and the consumer takes them in portions. A buffer that is topped up
after every portion serves a consumer exactly as long as the first portion is
held and what is asked for in all does not exceed what is held and left.

Independently, a counter that overflows into a reload value: the number of
overflows that a given count leads to.
-/

namespace NdsRecomp.Library

/-- The portions asked for can be taken one after the other. An endless source
never runs out. -/
def Serves (endless : Prop) (held left : Nat) (asked : List Nat) : Prop :=
  (∀ k ∈ asked.head?, k ≤ held) ∧ (endless ∨ asked.sum ≤ held + left)

/-- One portion taken. Topping up leaves at least `most`, the largest portion,
unless the source is exhausted. -/
theorem Serves.next {endless : Prop} {held left held' left' k most : Nat} {rest : List Nat}
    (h : Serves endless held left (k :: rest)) (hmost : ∀ j ∈ rest, j ≤ most)
    (hendless : endless → most ≤ held')
    (hfinite : ¬ endless → held' + left' + k = held + left ∧ (left' ≠ 0 → most ≤ held')) :
    Serves endless held' left' rest := by
  obtain ⟨-, hsum⟩ := h
  have hhead (hheld : most ≤ held') : ∀ j ∈ rest.head?, j ≤ held' := fun j hj =>
    (hmost j (List.mem_of_mem_head? hj)).trans hheld
  rcases Classical.em endless with hend | hend
  · exact ⟨hhead (hendless hend), Or.inl hend⟩
  · obtain ⟨hconserved, htopped⟩ := hfinite hend
    have hrest : rest.sum ≤ held' + left' := by
      rcases hsum with hend' | hsum
      · exact absurd hend' hend
      · rw [List.sum_cons] at hsum
        omega
    refine ⟨?_, Or.inr hrest⟩
    rcases Nat.eq_zero_or_pos left' with hleft | hleft
    · intro j hj
      have hle : j ≤ rest.sum := List.single_le_sum (by simp) j (List.mem_of_mem_head? hj)
      omega
    · exact hhead (htopped (Nat.pos_iff_ne_zero.mp hleft))

/-- How often a count of `timer` overflows `bound`, each time starting again
`reload` higher. -/
def overflows (bound reload timer : Nat) : Nat :=
  if timer < bound then 0 else (timer - bound) / (bound - reload) + 1

theorem overflows_of_lt {bound reload timer : Nat} (h : timer < bound) :
    overflows bound reload timer = 0 := if_pos h

theorem lt_of_overflows_eq_zero {bound reload timer : Nat}
    (h : overflows bound reload timer = 0) : timer < bound := by
  unfold overflows at h
  split at h
  · assumption
  · cases h

theorem overflows_step {bound reload timer : Nat} (hreload : reload < bound)
    (htimer : bound ≤ timer) :
    overflows bound reload timer =
      overflows bound reload (reload + (timer - bound)) + 1 := by
  unfold overflows
  rw [if_neg (by omega)]
  split
  · next hlt => rw [Nat.div_eq_of_lt (by omega)]
  · next hge =>
      have hsub : reload + (timer - bound) - bound = timer - bound - (bound - reload) := by omega
      rw [hsub, ← Nat.div_eq_sub_div (by omega) (by omega)]

end NdsRecomp.Library
