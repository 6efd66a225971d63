import Mathlib.Tactic

/-!
Maximal runs of numbers that follow one another at a fixed stride. A sorted list
is cut into its runs in one pass; the pieces put together are the list, and they
are the maximal runs of its members.
-/

namespace NdsRecomp.Library.StrideRuns

/-- A run from `start` to `last`, with the weight of its members. -/
structure Span where
  start : Nat
  last : Nat
  total : Nat
deriving DecidableEq

/-- The numbers of a run of length `n`. -/
def block (stride start n : Nat) : List Nat := (List.range n).map fun k => start + k * stride

def Span.members (stride : Nat) (s : Span) : List Nat :=
  block stride s.start ((s.last - s.start) / stride + 1)

section Cut

variable (stride : Nat) (weight : Nat → Nat)

/-- The pass over the list, with the run that is open. -/
def cutFrom (start previous total : Nat) : List Nat → List Span
  | [] => [⟨start, previous, total⟩]
  | a :: l =>
      if a - previous ≤ stride then cutFrom start a (total + weight a) l
      else ⟨start, previous, total⟩ :: cutFrom a a (weight a) l

def cut : List Nat → List Span
  | [] => []
  | a :: l => cutFrom stride weight a a (weight a) l

/-- The span of a run of length `n`. -/
def spanOf (start n : Nat) : Span where
  start := start
  last := start + (n - 1) * stride
  total := ((block stride start n).map weight).sum

/-- A maximal run of the members of `S`. -/
structure IsRun (S : Nat → Prop) (start n : Nat) : Prop where
  pos : 0 < n
  inside : ∀ k < n, S (start + k * stride)
  ends : ¬ S (start + n * stride)
  starts : ∀ a, a + stride = start → ¬ S a

end Cut

section Runs

variable {stride : Nat} {weight : Nat → Nat}

theorem block_succ (start n : Nat) :
    block stride start (n + 1) = block stride start n ++ [start + n * stride] := by
  unfold block
  rw [List.range_succ, List.map_append, List.map_singleton]

theorem mem_block {start n x : Nat} :
    x ∈ block stride start n ↔ ∃ k < n, x = start + k * stride := by
  unfold block
  simp only [List.mem_map, List.mem_range, eq_comm]

theorem spanOf_succ (start n : Nat) :
    (spanOf stride weight start (n + 1)).total =
      (spanOf stride weight start n).total + weight (start + n * stride) := by
  unfold spanOf
  rw [block_succ, List.map_append, List.sum_append]
  simp

theorem IsRun.congr {S T : Nat → Prop} (h : ∀ x, S x ↔ T x) {start n : Nat} :
    IsRun stride S start n ↔ IsRun stride T start n := by
  have hsame : S = T := funext fun x => propext (h x)
  rw [hsame]

/-- A block has one run. -/
theorem isRun_block (hstride : 0 < stride) {start n : Nat} (hn : 0 < n) {s m : Nat} :
    IsRun stride (· ∈ block stride start n) s m ↔ s = start ∧ m = n := by
  constructor
  · intro h
    obtain ⟨k, hk, hs⟩ := mem_block.mp (by simpa using h.inside 0 h.pos)
    have hfirst : k = 0 := by
      by_contra hne
      obtain ⟨j, rfl⟩ := Nat.exists_eq_succ_of_ne_zero hne
      refine h.starts (start + j * stride) ?_ (mem_block.mpr ⟨j, by omega, rfl⟩)
      rw [hs, Nat.succ_mul, Nat.add_assoc]
    rw [hfirst, Nat.zero_mul, Nat.add_zero] at hs
    refine ⟨hs, Nat.le_antisymm ?_ ?_⟩
    · by_contra hlt
      obtain ⟨j, hj, heq⟩ := mem_block.mp (h.inside n (by omega))
      rw [hs] at heq
      have := Nat.eq_of_mul_eq_mul_right hstride (Nat.add_left_cancel heq)
      omega
    · by_contra hlt
      exact h.ends (mem_block.mpr ⟨m, by omega, by rw [hs]⟩)
  · rintro ⟨rfl, rfl⟩
    refine ⟨hn, fun k hk => mem_block.mpr ⟨k, hk, rfl⟩, fun hmem => ?_, fun a ha hmem => ?_⟩
    · obtain ⟨j, hj, heq⟩ := mem_block.mp hmem
      have := Nat.eq_of_mul_eq_mul_right hstride (Nat.add_left_cancel heq)
      omega
    · obtain ⟨j, _, rfl⟩ := mem_block.mp hmem
      have := Nat.le_add_right s (j * stride)
      omega

/-- Sets further apart than the stride have their runs side by side. -/
theorem isRun_union {A B : Nat → Prop} (hapart : ∀ x y, A x → B y → x + stride < y) {s m : Nat} :
    IsRun stride (fun x => A x ∨ B x) s m ↔ IsRun stride A s m ∨ IsRun stride B s m := by
  constructor
  · intro h
    have hfirst := h.inside 0 h.pos
    rw [Nat.zero_mul, Nat.add_zero] at hfirst
    have hnext (k : Nat) : s + (k + 1) * stride = s + k * stride + stride := by
      rw [Nat.succ_mul, Nat.add_assoc]
    have hrest (P Q : Nat → Prop) (hP : P s) (hsub : ∀ x, P x ∨ Q x ↔ A x ∨ B x)
        (hstay : ∀ x, P x → ¬ Q (x + stride)) : IsRun stride P s m := by
      refine ⟨h.pos, fun k hk => ?_, fun hmem => h.ends ((hsub _).mp (.inl hmem)),
        fun a ha hmem => h.starts a ha ((hsub _).mp (.inl hmem))⟩
      induction k with
      | zero => simpa using hP
      | succ k ih =>
          have hmem := (hsub _).mpr (h.inside (k + 1) hk)
          refine hmem.resolve_right fun hQ => hstay _ (ih (by omega)) ?_
          rwa [← hnext]
    cases hfirst with
    | inl hA =>
        refine .inl (hrest A B hA (fun _ => Iff.rfl) fun x hx hy => ?_)
        have := hapart x _ hx hy
        omega
    | inr hB =>
        refine .inr (hrest B A hB (fun _ => or_comm) fun x hx hy => ?_)
        have := hapart _ x hy hx
        omega
  · rintro (h | h)
    · have hfirst : A s := by simpa using h.inside 0 h.pos
      refine ⟨h.pos, fun k hk => .inl (h.inside k hk), fun hmem => ?_, fun a ha hmem => ?_⟩
      · refine hmem.elim h.ends fun hB => ?_
        obtain ⟨k, hk⟩ := Nat.exists_eq_succ_of_ne_zero h.pos.ne'
        have hlast := hapart _ _ (h.inside k (by omega)) hB
        rw [hk, Nat.succ_mul] at hlast
        omega
      · refine hmem.elim (h.starts a ha) fun hB => ?_
        have := hapart _ _ hfirst hB
        omega
    · have hfirst : B s := by simpa using h.inside 0 h.pos
      refine ⟨h.pos, fun k hk => .inr (h.inside k hk), fun hmem => ?_, fun a ha hmem => ?_⟩
      · refine hmem.elim (fun hA => ?_) h.ends
        have := hapart _ _ hA hfirst
        omega
      · refine hmem.elim (fun hA => ?_) (h.starts a ha)
        have := hapart _ _ hA hfirst
        omega

theorem members_spanOf (weight : Nat → Nat) (hstride : 0 < stride) (start : Nat) {n : Nat}
    (hn : 0 < n) :
    (spanOf stride weight start n).members stride = block stride start n := by
  unfold Span.members spanOf
  dsimp only
  rw [Nat.add_sub_cancel_left, Nat.mul_div_cancel _ hstride, Nat.sub_add_cancel hn]

/-- The next number of an aligned list, near enough, is one stride on. -/
theorem next_eq {previous a : Nat} (hlt : previous < a) (hnear : a - previous ≤ stride)
    (haligned : a % stride = previous % stride) : a = previous + stride := by
  have hdvd : stride ∣ a - previous :=
    Nat.dvd_of_mod_eq_zero (Nat.sub_mod_eq_zero_of_mod_eq haligned)
  have hle := Nat.le_of_dvd (by omega) hdvd
  omega

/-- What the pass makes of an open run of `n` numbers and the list behind it. -/
structure CutSpec (stride : Nat) (weight : Nat → Nat) (S : Nat → Prop) (all : List Nat)
    (spans : List Span) : Prop where
  mem : ∀ span, span ∈ spans ↔ ∃ s m, IsRun stride S s m ∧ span = spanOf stride weight s m
  members : spans.flatMap (Span.members stride) = all

theorem CutSpec.congr {S T : Nat → Prop} {all : List Nat} {spans : List Span}
    (h : CutSpec stride weight S all spans) (hsame : ∀ x, S x ↔ T x) :
    CutSpec stride weight T all spans := by
  have heq : S = T := funext fun x => propext (hsame x)
  exact heq ▸ h

theorem cutFrom_spec (weight : Nat → Nat) (hstride : 0 < stride) (l : List Nat) (start n : Nat)
    (hn : 0 < n)
    (hsorted : l.Pairwise (· < ·)) (hafter : ∀ a ∈ l, start + (n - 1) * stride < a)
    (haligned : ∀ a ∈ l, a % stride = start % stride) :
    CutSpec stride weight (fun x => x ∈ block stride start n ∨ x ∈ l) (block stride start n ++ l)
      (cutFrom stride weight start (start + (n - 1) * stride)
        (spanOf stride weight start n).total l) := by
  induction l generalizing start n with
  | nil =>
      refine ⟨fun span => ?_, ?_⟩
      · simp only [cutFrom, List.mem_singleton, List.not_mem_nil, or_false]
        constructor
        · rintro rfl
          exact ⟨start, n, (isRun_block hstride hn).mpr ⟨rfl, rfl⟩, rfl⟩
        · rintro ⟨s, m, hrun, rfl⟩
          obtain ⟨rfl, rfl⟩ := (isRun_block hstride hn).mp hrun
          rfl
      · rw [List.append_nil]
        exact (List.append_nil _).trans (members_spanOf weight hstride start hn)
  | cons a l ih =>
      obtain ⟨hfirst, hrest⟩ := List.pairwise_cons.mp hsorted
      have hgap := hafter a List.mem_cons_self
      have hmod := haligned a List.mem_cons_self
      have hprevious : (start + (n - 1) * stride) % stride = start % stride :=
        Nat.add_mul_mod_self_right _ _ _
      rw [cutFrom]
      by_cases hnear : a - (start + (n - 1) * stride) ≤ stride
      · -- the run goes on
        have ha : a = start + n * stride := by
          rw [next_eq hgap hnear (hmod.trans hprevious.symm), Nat.add_assoc, ← Nat.succ_mul]
          congr 2
          omega
        have hspec := ih start (n + 1) (by omega) hrest
          (fun b hb => by
            rw [Nat.add_sub_cancel, ← ha]
            exact hfirst b hb)
          fun b hb => haligned b (List.mem_cons_of_mem _ hb)
        rw [spanOf_succ, Nat.add_sub_cancel, ← ha, block_succ, ← ha, List.append_assoc] at hspec
        rw [if_pos hnear]
        refine hspec.congr fun x => ?_
        rw [List.mem_append, List.mem_singleton, List.mem_cons, or_assoc]
      · have hone : spanOf stride weight a 1 = ⟨a, a, weight a⟩ := by
          simp [spanOf, block]
        have hsingle : block stride a 1 = [a] := by simp [block]
        have hspec := ih a 1 (by omega) hrest
          (fun b hb => by simpa using hfirst b hb)
          fun b hb => (haligned b (List.mem_cons_of_mem _ hb)).trans hmod.symm
        rw [hone, hsingle, Nat.sub_self, Nat.zero_mul, Nat.add_zero] at hspec
        have hapart : ∀ x y, x ∈ block stride start n → y ∈ a :: l → x + stride < y := by
          intro x y hx hy
          obtain ⟨k, hk, rfl⟩ := mem_block.mp hx
          have hle : k * stride ≤ (n - 1) * stride := Nat.mul_le_mul_right _ (by omega)
          have hay : a ≤ y := by
            rcases List.mem_cons.mp hy with rfl | hy
            · exact le_refl _
            · exact (hfirst y hy).le
          omega
        rw [if_neg hnear]
        refine ⟨fun span => ?_, ?_⟩
        · rw [List.mem_cons, hspec.mem]
          constructor
          · rintro (rfl | ⟨s, m, hrun, rfl⟩)
            · exact ⟨start, n, (isRun_union hapart).mpr (.inl ((isRun_block hstride hn).mpr
                ⟨rfl, rfl⟩)), rfl⟩
            · refine ⟨s, m, (isRun_union hapart).mpr (.inr ?_), rfl⟩
              exact (IsRun.congr fun x => by rw [List.mem_cons, List.mem_singleton]).mpr hrun
          · rintro ⟨s, m, hrun, rfl⟩
            rcases (isRun_union hapart).mp hrun with hrun | hrun
            · obtain ⟨rfl, rfl⟩ := (isRun_block hstride hn).mp hrun
              exact .inl rfl
            · refine .inr ⟨s, m, ?_, rfl⟩
              exact (IsRun.congr fun x => by rw [List.mem_cons, List.mem_singleton]).mp hrun
        · have hmembers := members_spanOf weight hstride start hn
          rw [List.flatMap_cons, hspec.members]
          exact congrArg (· ++ _) hmembers

/-- The pieces of a sorted, aligned list are its maximal runs. -/
theorem cut_spec (weight : Nat → Nat) (hstride : 0 < stride) {l : List Nat}
    (hsorted : l.Pairwise (· < ·))
    (haligned : ∀ a ∈ l, a % stride = 0) :
    CutSpec stride weight (· ∈ l) l (cut stride weight l) := by
  cases l with
  | nil =>
      refine ⟨fun span => ?_, rfl⟩
      simp only [cut, List.not_mem_nil, false_iff]
      rintro ⟨s, m, hrun, _⟩
      exact hrun.inside 0 hrun.pos
  | cons a l =>
      obtain ⟨hfirst, hrest⟩ := List.pairwise_cons.mp hsorted
      have hone : spanOf stride weight a 1 = ⟨a, a, weight a⟩ := by
        simp [spanOf, block]
      have hsingle : block stride a 1 = [a] := by simp [block]
      have hspec := cutFrom_spec weight hstride l a 1 (by omega) hrest
        (fun b hb => by simpa using hfirst b hb)
        fun b hb => (haligned b (List.mem_cons_of_mem _ hb)).trans
          (haligned a List.mem_cons_self).symm
      rw [hone, hsingle, Nat.sub_self, Nat.zero_mul, Nat.add_zero] at hspec
      exact hspec.congr fun x => by rw [List.mem_singleton, List.mem_cons]

/-- No two pieces start at one place. -/
theorem cut_starts_nodup (weight : Nat → Nat) (hstride : 0 < stride) {l : List Nat}
    (hsorted : l.Pairwise (· < ·))
    (haligned : ∀ a ∈ l, a % stride = 0) :
    ((cut stride weight l).map Span.start).Nodup := by
  have hmembers := (cut_spec weight hstride hsorted haligned).members
  have hsub (spans : List Span) : (spans.map Span.start).Sublist
      (spans.flatMap (Span.members stride)) := by
    induction spans with
    | nil => exact .slnil
    | cons span spans ih =>
        have hfirst : span.members stride =
            span.start :: (List.range ((span.last - span.start) / stride)).map fun k =>
              span.start + (k + 1) * stride := by
          unfold Span.members block
          rw [List.range_succ_eq_map, List.map_cons, List.map_map, Nat.zero_mul]
          rfl
        rw [List.map_cons, List.flatMap_cons, hfirst, List.cons_append]
        exact (ih.trans (List.sublist_append_right _ _)).cons_cons _
  have hnodup : l.Nodup := hsorted.imp fun h => h.ne
  have hstarts := hsub (cut stride weight l)
  rw [hmembers] at hstarts
  exact hstarts.nodup hnodup

end Runs

end NdsRecomp.Library.StrideRuns
