import Mathlib.Data.List.Perm.Basic
import Mathlib.Data.List.Perm.Lattice

/-!
Consecutive ranges of indices. Dealing indexed items out to the ranges that hold
their index loses none and repeats none.
-/

namespace NdsRecomp.Library

variable {α : Type*}

/-- Each range starts where the one before it ended, from `first` to `last`. -/
def Tiles (last : Nat) : Nat → List (Nat × Nat) → Prop
  | first, [] => first = last
  | first, r :: ranges => r.1 = first ∧ r.1 ≤ r.2 ∧ Tiles last r.2 ranges

/-- The items whose index the range holds. -/
def inRange (r : Nat × Nat) (items : List (Nat × α)) : List (Nat × α) :=
  items.filter fun item => decide (r.1 ≤ item.1) && decide (item.1 < r.2)

theorem Tiles.le {last first : Nat} {ranges : List (Nat × Nat)} (h : Tiles last first ranges) :
    first ≤ last := by
  induction ranges generalizing first with
  | nil => exact Nat.le_of_eq h
  | cons r ranges ih =>
      obtain ⟨rfl, hle, hrest⟩ := h
      exact Nat.le_trans hle (ih hrest)

/-- A range splits into two at any index inside it. -/
theorem inRange_split (items : List (Nat × α)) {a b c : Nat} (hab : a ≤ b) (hbc : b ≤ c) :
    (inRange (a, b) items ++ inRange (b, c) items).Perm (inRange (a, c) items) := by
  have hperm := List.filter_append_perm (fun item : Nat × α => decide (item.1 < b))
    (inRange (a, c) items)
  unfold inRange at hperm ⊢
  rw [List.filter_filter, List.filter_filter] at hperm
  refine List.Perm.trans (List.Perm.of_eq ?_) hperm
  congr 1
  · apply List.filter_congr
    intro item _
    rw [Bool.eq_iff_iff]
    simp only [Bool.and_eq_true, decide_eq_true_eq]
    omega
  · apply List.filter_congr
    intro item _
    rw [Bool.eq_iff_iff]
    simp only [Bool.and_eq_true, decide_eq_true_eq, Bool.not_eq_true', decide_eq_false_iff_not]
    omega

theorem Tiles.flatMap_perm {last first : Nat} {ranges : List (Nat × Nat)}
    (h : Tiles last first ranges) (items : List (Nat × α)) :
    (ranges.flatMap fun r => inRange r items).Perm (inRange (first, last) items) := by
  induction ranges generalizing first with
  | nil =>
      have hempty : inRange (first, last) items = [] := by
        unfold inRange
        rw [List.filter_eq_nil_iff]
        intro item _
        rw [show first = last from h]
        simp
      rw [hempty]
      exact List.Perm.refl []
  | cons r ranges ih =>
      obtain ⟨rfl, hle, hrest⟩ := h
      rw [List.flatMap_cons]
      exact ((ih hrest).append_left _).trans (inRange_split items hle hrest.le)

/-- Items whose indices all lie below the end are each dealt out once. -/
theorem Tiles.deal {last : Nat} {ranges : List (Nat × Nat)} (h : Tiles last 0 ranges)
    {items : List (Nat × α)} (hitems : ∀ item ∈ items, item.1 < last) :
    (ranges.flatMap fun r => inRange r items).Perm items := by
  refine (h.flatMap_perm items).trans (List.Perm.of_eq ?_)
  unfold inRange
  rw [List.filter_eq_self]
  intro item hitem
  simp [hitems item hitem]

end NdsRecomp.Library
