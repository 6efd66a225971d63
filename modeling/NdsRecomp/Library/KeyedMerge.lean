import Mathlib.Tactic

/-!
Stable merging of key-sorted lists, seen one key at a time. Reading the run of
one key out of a sorted list is a filter, and a stable merge appends the new
run of a key behind the old one. An index that is only ever merged into and
filtered therefore keeps, at each key, the insertion order of that key.
-/

namespace NdsRecomp.Library

variable {α κ : Type*} [LinearOrder κ]

/-- Sorted by key; equal keys may repeat. -/
def KeySorted (key : α → κ) (l : List α) : Prop :=
  l.Pairwise (fun a b => key a ≤ key b)

/-- The elements of `l` stored under key `k`, in list order. -/
def runAt (key : α → κ) (k : κ) (l : List α) : List α :=
  l.filter (fun a => decide (key a = k))

/-- The merge that lets an old element go first when the keys are equal. -/
def mergeByKey (key : α → κ) (old new : List α) : List α :=
  old.merge new (fun a b => decide (key a ≤ key b))

@[simp] theorem runAt_nil (key : α → κ) (k : κ) : runAt key k [] = [] := rfl

@[simp] theorem runAt_append (key : α → κ) (k : κ) (l r : List α) :
    runAt key k (l ++ r) = runAt key k l ++ runAt key k r := by
  simp [runAt]

theorem runAt_eq_nil_of_lt {key : α → κ} {k : κ} {l : List α}
    (h : ∀ a ∈ l, k < key a) : runAt key k l = [] := by
  apply List.filter_eq_nil_iff.mpr
  intro a ha
  simpa using (h a ha).ne'

theorem KeySorted.filter {key : α → κ} {l : List α} (h : KeySorted key l)
    (p : α → Bool) : KeySorted key (l.filter p) :=
  List.Pairwise.filter p h

theorem runAt_filter (key : α → κ) (k : κ) (p : α → Bool) (l : List α) :
    runAt key k (l.filter p) = (runAt key k l).filter p := by
  simp only [runAt, List.filter_filter]
  congr 1
  funext a
  exact Bool.and_comm _ _

theorem mergeByKey_sorted {key : α → κ} {old new : List α}
    (hold : KeySorted key old) (hnew : KeySorted key new) :
    KeySorted key (mergeByKey key old new) := by
  have htrans : ∀ a b c : α, decide (key a ≤ key b) = true →
      decide (key b ≤ key c) = true → decide (key a ≤ key c) = true := by
    intro a b c hab hbc
    simp only [decide_eq_true_eq] at hab hbc ⊢
    exact hab.trans hbc
  have htotal : ∀ a b : α,
      (decide (key a ≤ key b) || decide (key b ≤ key a)) = true := by
    intro a b
    simpa using le_total (key a) (key b)
  have hmerged := List.pairwise_merge htrans htotal old new
    (by simpa [KeySorted] using hold) (by simpa [KeySorted] using hnew)
  simpa [KeySorted, mergeByKey] using hmerged

/-- Stability, read at one key: the merged run is the old run followed by the
new one. -/
theorem runAt_mergeByKey {key : α → κ} {old new : List α}
    (hold : KeySorted key old) (hnew : KeySorted key new) (k : κ) :
    runAt key k (mergeByKey key old new) = runAt key k old ++ runAt key k new := by
  induction old generalizing new with
  | nil => simp [mergeByKey]
  | cons a old iha =>
      induction new with
      | nil => simp [mergeByKey]
      | cons b new ihb =>
          have holdTail := (List.pairwise_cons.mp hold)
          have hnewTail := (List.pairwise_cons.mp hnew)
          by_cases hab : key a ≤ key b
          · have hmerge : mergeByKey key (a :: old) (b :: new) =
                a :: mergeByKey key old (b :: new) := by
              simp [mergeByKey, hab]
            have htail := iha holdTail.2 hnew
            rw [hmerge, ← List.singleton_append, runAt_append, htail,
              ← List.append_assoc, ← runAt_append, List.singleton_append]
          · have hba : key b < key a := not_le.mp hab
            have hmerge : mergeByKey key (a :: old) (b :: new) =
                b :: mergeByKey key (a :: old) new := by
              simp [mergeByKey, hab]
            have htail := ihb hnewTail.2
            rw [hmerge, ← List.singleton_append, runAt_append, htail]
            by_cases hbk : key b = k
            · have habove : ∀ x ∈ a :: old, k < key x := by
                intro x hx
                rcases List.mem_cons.mp hx with rfl | hx
                · simpa [← hbk] using hba
                · exact hbk ▸ hba.trans_le (holdTail.1 x hx)
              rw [runAt_eq_nil_of_lt habove, List.nil_append, List.nil_append,
                ← runAt_append, List.singleton_append]
            · have hskip : runAt key k [b] = [] := by simp [runAt, hbk]
              have hcons : runAt key k (b :: new) = runAt key k new := by
                simp [runAt, hbk]
              rw [hskip, List.nil_append, hcons]

/-- Skipping the smaller keys of a sorted list and reading while the key
matches collects the whole run of that key. -/
theorem takeWhile_dropWhile_eq_runAt {key : α → κ} {l : List α}
    (hsorted : KeySorted key l) (k : κ) :
    (l.dropWhile (fun a => decide (key a < k))).takeWhile
      (fun a => decide (key a = k)) = runAt key k l := by
  induction l with
  | nil => rfl
  | cons a l ih =>
      have htail := List.pairwise_cons.mp hsorted
      rcases lt_trichotomy (key a) k with hlt | heq | hgt
      · rw [List.dropWhile_cons_of_pos (by simpa using hlt), ih htail.2]
        simp [runAt, hlt.ne]
      · have hnot : ∀ x ∈ l, ¬ key x < k := fun x hx => by
          simpa [heq] using htail.1 x hx
        have hdrop : l.dropWhile (fun x => decide (key x < k)) = l := by
          cases l with
          | nil => rfl
          | cons x xs =>
              exact List.dropWhile_cons_of_neg (by simpa using hnot x (by simp))
        rw [List.dropWhile_cons_of_neg (by simp [heq]),
          List.takeWhile_cons_of_pos (by simpa using heq)]
        have hrest := ih htail.2
        rw [hdrop] at hrest
        rw [hrest]
        simp [runAt, heq]
      · rw [List.dropWhile_cons_of_neg (by simpa using hgt.le),
          List.takeWhile_cons_of_neg (by simpa using hgt.ne')]
        refine (runAt_eq_nil_of_lt ?_).symm
        intro x hx
        rcases List.mem_cons.mp hx with rfl | hx
        · exact hgt
        · exact hgt.trans_le (htail.1 x hx)

end NdsRecomp.Library
