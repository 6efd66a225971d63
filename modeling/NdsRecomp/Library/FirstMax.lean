import Mathlib.Tactic

/-!
The running choice of the first element of largest rank. Combining two choices
is associative, so choosing block by block and then among the block winners is
the same as one pass over everything.
-/

namespace NdsRecomp.Library

variable {α κ : Type*} [LinearOrder κ]

/-- Keep the earlier choice unless the later one has strictly larger rank. -/
def firstMax (rank : α → κ) : Option α → Option α → Option α
  | none, later => later
  | some a, none => some a
  | some a, some b => if rank a < rank b then some b else some a

/-- The first element of largest rank. -/
def firstMaxOf (rank : α → κ) (l : List α) : Option α :=
  l.foldl (fun best a => firstMax rank best (some a)) none

@[simp] theorem firstMax_none_left (rank : α → κ) (b : Option α) :
    firstMax rank none b = b := rfl

@[simp] theorem firstMax_none_right (rank : α → κ) (a : Option α) :
    firstMax rank a none = a := by
  cases a <;> rfl

theorem firstMax_assoc (rank : α → κ) (a b c : Option α) :
    firstMax rank (firstMax rank a b) c = firstMax rank a (firstMax rank b c) := by
  cases a with
  | none => rfl
  | some a =>
      cases b with
      | none => rfl
      | some b =>
          cases c with
          | none => simp
          | some c =>
              simp only [firstMax]
              by_cases hab : rank a < rank b
              · by_cases hbc : rank b < rank c
                · simp [hab, hbc, hab.trans hbc]
                · simp [hab, hbc]
              · by_cases hbc : rank b < rank c
                · simp [hab, hbc]
                · have hac : ¬ rank a < rank c :=
                    not_lt.mpr ((not_lt.mp hbc).trans (not_lt.mp hab))
                  simp [hab, hbc, hac]

/-- A pass that starts from an earlier choice combines that choice with the
winner of the pass. -/
theorem foldl_firstMax (rank : α → κ) (l : List α) (best : Option α) :
    l.foldl (fun best a => firstMax rank best (some a)) best =
      firstMax rank best (firstMaxOf rank l) := by
  induction l generalizing best with
  | nil => simp [firstMaxOf]
  | cons a l ih =>
      have hstart : firstMaxOf rank (a :: l) =
          firstMax rank (some a) (firstMaxOf rank l) := by
        simpa [firstMaxOf] using ih (some a)
      rw [List.foldl_cons, ih, hstart, firstMax_assoc]

theorem firstMaxOf_append (rank : α → κ) (l r : List α) :
    firstMaxOf rank (l ++ r) = firstMax rank (firstMaxOf rank l) (firstMaxOf rank r) := by
  unfold firstMaxOf
  rw [List.foldl_append, foldl_firstMax]
  rfl

theorem firstMaxOf_cons (rank : α → κ) (a : α) (l : List α) :
    firstMaxOf rank (a :: l) = firstMax rank (some a) (firstMaxOf rank l) := by
  simpa [firstMaxOf] using foldl_firstMax rank l (some a)

theorem firstMaxOf_mem (rank : α → κ) (l : List α) {a : α}
    (h : firstMaxOf rank l = some a) : a ∈ l := by
  induction l generalizing a with
  | nil => simp [firstMaxOf] at h
  | cons b l ih =>
      rw [firstMaxOf_cons] at h
      cases hrest : firstMaxOf rank l with
      | none =>
          simp only [hrest, firstMax_none_right, Option.some.injEq] at h
          simp [h]
      | some c =>
          simp only [hrest, firstMax] at h
          split at h
          · exact List.mem_cons_of_mem _ (ih (hrest.trans h))
          · simp_all

/-- Nothing in the list outranks the choice. -/
theorem le_firstMaxOf (rank : α → κ) {l : List α} {a : α} (h : a ∈ l) :
    ∃ best, firstMaxOf rank l = some best ∧ rank a ≤ rank best := by
  induction l with
  | nil => cases h
  | cons b l ih =>
      rw [firstMaxOf_cons]
      cases hrest : firstMaxOf rank l with
      | none =>
          rw [firstMax_none_right]
          rcases List.mem_cons.mp h with rfl | hmem
          · exact ⟨a, rfl, le_refl _⟩
          · obtain ⟨best, hbest, -⟩ := ih hmem
            rw [hrest] at hbest
            cases hbest
      | some c =>
          have hle : a = b ∨ rank a ≤ rank c := by
            rcases List.mem_cons.mp h with rfl | hmem
            · exact Or.inl rfl
            · obtain ⟨best, hbest, hrank⟩ := ih hmem
              rw [hrest] at hbest
              cases hbest
              exact Or.inr hrank
          unfold firstMax
          by_cases hlt : rank b < rank c
          · refine ⟨c, if_pos hlt, ?_⟩
            rcases hle with rfl | hrank
            · exact le_of_lt hlt
            · exact hrank
          · refine ⟨b, if_neg hlt, ?_⟩
            rcases hle with rfl | hrank
            · exact le_refl _
            · exact hrank.trans (not_lt.mp hlt)

end NdsRecomp.Library
