import Mathlib.Tactic

/-!
How many of the latest indices in a row have a property.
-/

namespace NdsRecomp.Library

variable (P : Nat → Prop) [DecidablePred P]

/-- The indices in a row, ending before `k`. -/
def streak : Nat → Nat
  | 0 => 0
  | k + 1 => if P k then streak k + 1 else 0

variable {P}

theorem streak_succ_of {k : Nat} (h : P k) : streak P (k + 1) = streak P k + 1 := if_pos h

theorem streak_succ_of_not {k : Nat} (h : ¬ P k) : streak P (k + 1) = 0 := if_neg h

theorem le_streak_iff (c k : Nat) :
    c ≤ streak P k ↔ c ≤ k ∧ ∀ j, k - c ≤ j → j < k → P j := by
  induction k generalizing c with
  | zero =>
      have hzero : streak P 0 = 0 := rfl
      rw [hzero]
      exact ⟨fun hc => ⟨hc, fun j _ hj => absurd hj (Nat.not_lt_zero j)⟩, fun h => h.1⟩
  | succ k ih =>
      by_cases hk : P k
      · rw [streak_succ_of hk]
        cases c with
        | zero => exact iff_of_true (Nat.zero_le _) ⟨Nat.zero_le _, fun j hlow hj => by omega⟩
        | succ c =>
            rw [Nat.succ_le_succ_iff, ih]
            constructor
            · rintro ⟨hc, hall⟩
              refine ⟨by omega, fun j hlow hj => ?_⟩
              by_cases hlast : j = k
              · exact hlast ▸ hk
              · exact hall j (by omega) (by omega)
            · rintro ⟨hc, hall⟩
              exact ⟨by omega, fun j hlow hj => hall j (by omega) (by omega)⟩
      · rw [streak_succ_of_not hk]
        cases c with
        | zero => exact iff_of_true (Nat.zero_le _) ⟨Nat.zero_le _, fun j hlow hj => by omega⟩
        | succ c =>
            refine iff_of_false (by omega) ?_
            rintro ⟨_, hall⟩
            exact hk (hall k (by omega) (Nat.lt_succ_self k))

/-- The indices of a streak, counted with the one behind it. -/
theorem streak_window {threshold k : Nat} (h : streak P k + 1 = threshold) :
    ∃ start, start + threshold = k + 1 ∧ ∀ j, start ≤ j → j < k → P j := by
  obtain ⟨hle, hall⟩ := (le_streak_iff (P := P) (streak P k) k).mp (le_refl _)
  exact ⟨k - streak P k, by omega, hall⟩

end NdsRecomp.Library
