import NdsRecomp.Library.KeyedMerge
import Mathlib.Data.List.Destutter

/-!
Dropping the repeated keys of a sorted list, each against the last element kept.
What is left is strictly sorted and holds, at each key, the first element the
list held there.
-/

namespace NdsRecomp.Library

variable {α κ : Type*} [LinearOrder κ]

/-- Only the first of neighbours with one key is kept. -/
def uniqueByKey (key : α → κ) (l : List α) : List α := l.destutter fun a b => key a ≠ key b

theorem runAt_cons (key : α → κ) (k : κ) (a : α) (l : List α) :
    runAt key k (a :: l) = if key a = k then a :: runAt key k l else runAt key k l := by
  unfold runAt
  rw [List.filter_cons]
  simp only [decide_eq_true_eq]

theorem runAt_destutter' {key : α → κ} {a : α} {l : List α} (h : KeySorted key (a :: l)) (k : κ) :
    runAt key k (l.destutter' (fun a b => key a ≠ key b) a) = (runAt key k (a :: l)).take 1 := by
  induction l generalizing a with
  | nil =>
      rw [List.destutter'_nil, runAt_cons, runAt_nil]
      split <;> rfl
  | cons b l ih =>
      obtain ⟨hfirst, htail⟩ := List.pairwise_cons.mp h
      by_cases hab : key a ≠ key b
      · have hlt : key a < key b := lt_of_le_of_ne (hfirst b List.mem_cons_self) hab
        rw [List.destutter'_cons, if_pos hab, runAt_cons, ih htail, runAt_cons key k a]
        split
        · next hk =>
            have hrest : runAt key k (b :: l) = [] := by
              refine runAt_eq_nil_of_lt fun c hc => ?_
              rw [← hk]
              rcases List.mem_cons.mp hc with rfl | hc
              · exact hlt
              · exact lt_of_lt_of_le hlt ((List.pairwise_cons.mp htail).1 c hc)
            rw [hrest]
            rfl
        · rfl
      · have hsame : key a = key b := not_not.mp hab
        have hskip : KeySorted key (a :: l) :=
          List.pairwise_cons.mpr ⟨fun c hc => hfirst c (List.mem_cons_of_mem _ hc),
            (List.pairwise_cons.mp htail).2⟩
        rw [List.destutter'_cons, if_neg hab, ih hskip, runAt_cons, runAt_cons key k a (b :: l)]
        split
        · rfl
        · next hk => rw [runAt_cons, if_neg (hsame ▸ hk)]

/-- At each key, the first element. -/
theorem runAt_uniqueByKey {key : α → κ} {l : List α} (h : KeySorted key l) (k : κ) :
    runAt key k (uniqueByKey key l) = (runAt key k l).take 1 := by
  cases l with
  | nil => rfl
  | cons a l => exact runAt_destutter' h k

theorem uniqueByKey_sublist (key : α → κ) (l : List α) : (uniqueByKey key l).Sublist l :=
  List.destutter_sublist _ l

/-- Sorted with no neighbours of one key is strictly sorted. -/
theorem pairwise_lt_of_isChain {key : α → κ} {l : List α} (h : KeySorted key l)
    (hchain : l.IsChain fun a b => key a ≠ key b) : l.Pairwise fun a b => key a < key b := by
  induction l with
  | nil => exact List.Pairwise.nil
  | cons a l ih =>
      obtain ⟨hfirst, htail⟩ := List.pairwise_cons.mp h
      cases l with
      | nil => exact List.pairwise_singleton _ _
      | cons b l =>
          obtain ⟨hab, hrest⟩ := List.isChain_cons_cons.mp hchain
          have hlt : key a < key b := lt_of_le_of_ne (hfirst b List.mem_cons_self) hab
          refine List.pairwise_cons.mpr ⟨fun c hc => ?_, ih htail hrest⟩
          rcases List.mem_cons.mp hc with rfl | hc
          · exact hlt
          · exact lt_of_lt_of_le hlt ((List.pairwise_cons.mp htail).1 c hc)

theorem uniqueByKey_strict {key : α → κ} {l : List α} (h : KeySorted key l) :
    (uniqueByKey key l).Pairwise fun a b => key a < key b :=
  pairwise_lt_of_isChain (h.sublist (uniqueByKey_sublist key l)) (List.isChain_destutter _ l)

end NdsRecomp.Library
