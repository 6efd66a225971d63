import Mathlib.Data.List.DropRight
import Mathlib.Data.List.Perm.Basic

/-!
The two foremost elements of a list under a strict order. Pushing the elements
one by one into a pair of candidates, in any order, gives the first two elements
of the list once it is sorted. Insertion sort that moves each new element
forward from the back gives the sorted list.
-/

namespace NdsRecomp.Library

variable {α : Type*}

/-- The first two elements, with `d` where the list is too short. -/
def firstTwo (d : α) : List α → α × α
  | [] => (d, d)
  | [a] => (a, d)
  | a :: b :: _ => (a, b)

variable (ahead : α → α → Prop) [DecidableRel ahead]

def pushCandidate (best : α × α) (p : α) : α × α :=
  if ahead p best.1 then (p, best.1) else if ahead p best.2 then (best.1, p) else best

/-- Insertion from the back: elements that `p` is ahead of move behind it. -/
def insertBack (sorted : List α) (p : α) : List α :=
  sorted.rdropWhile (fun q => decide (ahead p q)) ++ p :: sorted.rtakeWhile fun q => decide (ahead p q)

def insertionSortBack (l : List α) : List α := l.foldl (insertBack ahead) []

variable {ahead}

/-- A strict order: transitive, and never both ways. -/
structure StrictlyAhead (ahead : α → α → Prop) : Prop where
  trans : ∀ {a b c}, ahead a b → ahead b c → ahead a c
  asymm : ∀ {a b}, ahead a b → ¬ ahead b a

theorem insertBack_perm (sorted : List α) (p : α) : (insertBack ahead sorted p).Perm (p :: sorted) := by
  unfold insertBack
  refine List.perm_middle.trans (List.Perm.cons p ?_)
  rw [List.rdropWhile_append_rtakeWhile]

theorem insertionSortBack_perm (l : List α) : (insertionSortBack ahead l).Perm l := by
  induction l using List.reverseRecOn with
  | nil => exact List.Perm.refl []
  | append_singleton l p ih =>
      unfold insertionSortBack
      rw [List.foldl_concat]
      exact (insertBack_perm _ p).trans ((List.Perm.cons p ih).trans (List.perm_append_singleton p l).symm)

/-- What stays in front of `p` is ahead of it, when `p` compares with all. -/
theorem ahead_of_mem_rdropWhile (h : StrictlyAhead ahead) {p : α} {sorted : List α}
    (hsorted : sorted.Pairwise ahead) (hcompare : ∀ q ∈ sorted, ahead p q ∨ ahead q p) :
    ∀ q ∈ sorted.rdropWhile (fun q => decide (ahead p q)), ahead q p := by
  induction sorted using List.reverseRecOn with
  | nil => intro q hq; simp at hq
  | append_singleton l r ih =>
      rw [List.rdropWhile_concat]
      split
      · exact ih (List.pairwise_append.mp hsorted).1
          fun q hq => hcompare q (List.mem_append_left _ hq)
      · next hr =>
          intro q hq
          have hrp : ahead r p := by
            rcases hcompare r (List.mem_append_right _ List.mem_cons_self) with hpr | hrp
            · exact absurd (decide_eq_true hpr) hr
            · exact hrp
          rcases List.mem_append.mp hq with hl | hlast
          · exact h.trans ((List.pairwise_append.mp hsorted).2.2 q hl r List.mem_cons_self) hrp
          · rw [List.mem_singleton.mp hlast]
            exact hrp

theorem mem_rtakeWhile_imp {P : α → Bool} {l : List α} {q : α} (h : q ∈ l.rtakeWhile P) :
    P q = true := by
  unfold List.rtakeWhile at h
  exact List.mem_takeWhile_imp (List.mem_reverse.mp h)

theorem insertBack_sorted (h : StrictlyAhead ahead) {p : α} {sorted : List α}
    (hsorted : sorted.Pairwise ahead) (hcompare : ∀ q ∈ sorted, ahead p q ∨ ahead q p) :
    (insertBack ahead sorted p).Pairwise ahead := by
  have hfront := ahead_of_mem_rdropWhile h hsorted hcompare
  have hback : ∀ q ∈ sorted.rtakeWhile (fun q => decide (ahead p q)), ahead p q :=
    fun q hq => by simpa using mem_rtakeWhile_imp hq
  have hsplit : (sorted.rdropWhile (fun q => decide (ahead p q)) ++
      sorted.rtakeWhile fun q => decide (ahead p q)).Pairwise ahead := by
    rw [List.rdropWhile_append_rtakeWhile]
    exact hsorted
  obtain ⟨hleft, hright, hcross⟩ := List.pairwise_append.mp hsplit
  refine List.pairwise_append.mpr ⟨hleft, List.pairwise_cons.mpr ⟨hback, hright⟩, ?_⟩
  intro q hq r hr
  rcases List.mem_cons.mp hr with rfl | hr
  · exact hfront q hq
  · exact hcross q hq r hr

theorem insertionSortBack_sorted (h : StrictlyAhead ahead) {l : List α}
    (hcompare : l.Pairwise fun a b => ahead b a ∨ ahead a b) :
    (insertionSortBack ahead l).Pairwise ahead := by
  induction l using List.reverseRecOn with
  | nil => exact List.Pairwise.nil
  | append_singleton l p ih =>
      obtain ⟨hleft, -, hcross⟩ := List.pairwise_append.mp hcompare
      unfold insertionSortBack
      rw [List.foldl_concat]
      refine insertBack_sorted h (ih hleft) fun q hq => ?_
      exact hcross q ((insertionSortBack_perm l).mem_iff.mp hq) p List.mem_cons_self

/-! ### Candidates -/

/-- Pushing `p` is inserting it. -/
theorem pushCandidate_firstTwo (h : StrictlyAhead ahead) {d p : α} {sorted : List α}
    (hsorted : sorted.Pairwise ahead) (hp : ahead p d)
    (hcompare : ∀ q ∈ sorted, ahead p q ∨ ahead q p) :
    ∃ sorted' : List α, sorted'.Perm (p :: sorted) ∧ sorted'.Pairwise ahead ∧
      pushCandidate ahead (firstTwo d sorted) p = firstTwo d sorted' := by
  have hnot : ∀ q ∈ sorted, ¬ ahead p q → ahead q p := fun q hq hno =>
    (hcompare q hq).resolve_left hno
  unfold pushCandidate
  cases sorted with
  | nil => exact ⟨[p], List.Perm.refl _, List.pairwise_singleton _ _, if_pos hp⟩
  | cons a rest =>
      have ha : a ∈ a :: rest := List.mem_cons_self
      obtain ⟨hafter, hrest⟩ := List.pairwise_cons.mp hsorted
      by_cases hpa : ahead p a
      · have hfront : ∀ q ∈ a :: rest, ahead p q := by
          intro q hq
          rcases List.mem_cons.mp hq with rfl | hq
          · exact hpa
          · exact h.trans hpa (hafter q hq)
        refine ⟨p :: a :: rest, List.Perm.refl _, List.pairwise_cons.mpr ⟨hfront, hsorted⟩, ?_⟩
        cases rest with
        | nil => exact if_pos hpa
        | cons b rest => exact if_pos hpa
      · have hap : ahead a p := hnot a ha hpa
        cases rest with
        | nil =>
            refine ⟨[a, p], List.Perm.swap _ _ _, List.pairwise_pair.mpr hap, ?_⟩
            exact (if_neg hpa).trans (if_pos hp)
        | cons b rest =>
            have hb : b ∈ a :: b :: rest := List.mem_cons_of_mem _ List.mem_cons_self
            obtain ⟨hbafter, hbrest⟩ := List.pairwise_cons.mp hrest
            by_cases hpb : ahead p b
            · refine ⟨a :: p :: b :: rest, List.Perm.swap _ _ _, ?_,
                (if_neg hpa).trans (if_pos hpb)⟩
              refine List.pairwise_cons.mpr ⟨?_, List.pairwise_cons.mpr ⟨?_, hrest⟩⟩
              · intro q hq
                rcases List.mem_cons.mp hq with rfl | hq
                · exact hap
                · exact hafter q hq
              · intro q hq
                rcases List.mem_cons.mp hq with rfl | hq
                · exact hpb
                · exact h.trans hpb (hbafter q hq)
            · -- `p` goes somewhere behind the two candidates
              have hbp : ahead b p := hnot b hb hpb
              have hperm : (insertBack ahead rest p).Perm (p :: rest) := insertBack_perm rest p
              have hinserted := insertBack_sorted h hbrest fun q hq =>
                hcompare q (List.mem_cons_of_mem _ (List.mem_cons_of_mem _ hq))
              refine ⟨a :: b :: insertBack ahead rest p, ?_, ?_, (if_neg hpa).trans (if_neg hpb)⟩
              · refine (List.Perm.cons a (List.Perm.cons b hperm)).trans ?_
                exact (List.Perm.cons a (List.Perm.swap _ _ _)).trans (List.Perm.swap _ _ _)
              · refine List.pairwise_cons.mpr ⟨?_, List.pairwise_cons.mpr ⟨?_, hinserted⟩⟩
                · intro q hq
                  rcases List.mem_cons.mp hq with rfl | hq
                  · exact hafter q List.mem_cons_self
                  · rcases List.mem_cons.mp (hperm.mem_iff.mp hq) with rfl | hq
                    · exact hap
                    · exact hafter q (List.mem_cons_of_mem _ hq)
                · intro q hq
                  rcases List.mem_cons.mp (hperm.mem_iff.mp hq) with rfl | hq
                  · exact hbp
                  · exact hbafter q hq

/-- Pushing a whole list is taking the first two of any sorting of it. -/
theorem foldl_pushCandidate (h : StrictlyAhead ahead) {d : α} {l sorted : List α}
    (hdefault : ∀ q ∈ l, ahead q d) (hcompare : l.Pairwise fun a b => ahead b a ∨ ahead a b)
    (hperm : sorted.Perm l) (hsorted : sorted.Pairwise ahead) :
    l.foldl (pushCandidate ahead) (d, d) = firstTwo d sorted := by
  have hexists : ∃ sorted' : List α, sorted'.Perm l ∧ sorted'.Pairwise ahead ∧
      l.foldl (pushCandidate ahead) (d, d) = firstTwo d sorted' := by
    clear hperm hsorted
    induction l using List.reverseRecOn with
    | nil => exact ⟨[], List.Perm.refl [], List.Pairwise.nil, rfl⟩
    | append_singleton l p ih =>
        obtain ⟨hleft, -, hcross⟩ := List.pairwise_append.mp hcompare
        obtain ⟨front, hfrontPerm, hfrontSorted, hfront⟩ :=
          ih (fun q hq => hdefault q (List.mem_append_left _ hq)) hleft
        have hp : ahead p d := hdefault p (List.mem_append_right _ List.mem_cons_self)
        obtain ⟨sorted', hperm', hsorted', hpush⟩ := pushCandidate_firstTwo h hfrontSorted hp
          (fun q hq => hcross q (hfrontPerm.mem_iff.mp hq) p List.mem_cons_self)
        refine ⟨sorted', ?_, hsorted', ?_⟩
        · exact hperm'.trans ((List.Perm.cons p hfrontPerm).trans (List.perm_append_singleton p l).symm)
        · rw [List.foldl_concat, hfront, hpush]
  obtain ⟨sorted', hperm', hsorted', hfold⟩ := hexists
  have hsame : sorted' = sorted :=
    List.Perm.eq_of_pairwise (fun _ _ _ _ hab hba => absurd hba (h.asymm hab)) hsorted' hsorted
      (hperm'.trans hperm.symm)
  rw [hfold, hsame]

end NdsRecomp.Library
