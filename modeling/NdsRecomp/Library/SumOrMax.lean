import Mathlib.Tactic

/-!
Counts that are fed in two ways: some contributions are added, others only raise
the count to at least theirs. Each member of a list does both, the addition
first. The result is free of the order if and only if a member that adds
something is not exceeded by another one.
-/

namespace NdsRecomp.Library.SumOrMax

variable {α : Type} (a b : α → Nat)

def step (x : Nat) (m : α) : Nat := max (x + a m) (b m)

def run (l : List α) (x : Nat) : Nat := l.foldl (step a b) x

/-- What a member's floor has over its own addition. -/
def excess (m : α) : Nat := b m - a m

@[simp] theorem run_nil (x : Nat) : run a b [] x = x := rfl

@[simp] theorem run_cons (m : α) (l : List α) (x : Nat) :
    run a b (m :: l) x = run a b l (step a b x m) := rfl

theorem step_eq (x : Nat) (m : α) : step a b x m = a m + max x (excess a b m) := by
  unfold step excess
  omega

theorem le_step (x : Nat) (m : α) : x ≤ step a b x m := by
  rw [step_eq]
  omega

theorem step_mono {x y : Nat} (h : x ≤ y) (m : α) : step a b x m ≤ step a b y m := by
  rw [step_eq, step_eq]
  omega

section Bound

variable {a b} {top : Nat} {l : List α}

theorem run_of_ge (htop : ∀ m ∈ l, excess a b m ≤ top) {x : Nat} (hx : top ≤ x) :
    run a b l x = x + (l.map a).sum := by
  induction l generalizing x with
  | nil => rfl
  | cons m l ih =>
      have hm := htop m List.mem_cons_self
      rw [run_cons, step_eq, Nat.max_eq_left (hm.trans hx),
        ih (fun n hn => htop n (List.mem_cons_of_mem _ hn)) (by omega), List.map_cons,
        List.sum_cons]
      omega

theorem run_le (htop : ∀ m ∈ l, excess a b m ≤ top) (x : Nat) :
    run a b l x ≤ max x top + (l.map a).sum := by
  induction l generalizing x with
  | nil => exact Nat.le_max_left _ _
  | cons m l ih =>
      have hm := htop m List.mem_cons_self
      have hrest := ih (fun n hn => htop n (List.mem_cons_of_mem _ hn)) (step a b x m)
      have hstep := step_eq a b x m
      rw [run_cons, List.map_cons, List.sum_cons]
      omega

/-- Where nothing is added below the top, the top is reached before it. -/
theorem run_of_even (htop : ∀ m ∈ l, excess a b m ≤ top)
    (heven : ∀ m ∈ l, excess a b m < top → a m = 0) (hsome : ∃ m ∈ l, excess a b m = top)
    {x : Nat} (hx : x ≤ top) : run a b l x = top + (l.map a).sum := by
  induction l generalizing x with
  | nil =>
      obtain ⟨_, hm, _⟩ := hsome
      cases hm
  | cons m l ih =>
      have htail : ∀ n ∈ l, excess a b n ≤ top := fun n hn => htop n (List.mem_cons_of_mem _ hn)
      have hm := htop m List.mem_cons_self
      have hstep := step_eq a b x m
      rw [run_cons, List.map_cons, List.sum_cons]
      by_cases hfull : excess a b m = top
      · rw [run_of_ge htail (by omega)]
        omega
      · have hzero := heven m List.mem_cons_self (by omega)
        obtain ⟨n, hn, hreach⟩ := hsome
        have hlater : n ∈ l := (List.mem_cons.mp hn).resolve_left fun heq => hfull (heq ▸ hreach)
        rw [ih htail (fun k hk => heven k (List.mem_cons_of_mem _ hk)) ⟨n, hlater, hreach⟩
          (by omega)]
        omega

end Bound

theorem exists_top {l : List α} (hl : l ≠ []) :
    ∃ m ∈ l, ∀ n ∈ l, excess a b n ≤ excess a b m := by
  induction l with
  | nil => exact absurd rfl hl
  | cons m l ih =>
      by_cases hrest : l = []
      · exact ⟨m, List.mem_cons_self, fun n hn => by
          rw [hrest, List.mem_singleton] at hn
          rw [hn]⟩
      · obtain ⟨k, hk, htop⟩ := ih hrest
        by_cases hle : excess a b m ≤ excess a b k
        · exact ⟨k, List.mem_cons_of_mem _ hk, List.forall_mem_cons.mpr ⟨hle, htop⟩⟩
        · refine ⟨m, List.mem_cons_self, List.forall_mem_cons.mpr ⟨le_refl _, fun n hn => ?_⟩⟩
          exact (htop n hn).trans (Nat.le_of_not_le hle)

/-- A list begins with any of its members, up to order. -/
theorem perm_cons_of_mem {m : α} {l : List α} (h : m ∈ l) : ∃ rest, (m :: rest).Perm l := by
  obtain ⟨s, t, rfl⟩ := List.append_of_mem h
  exact ⟨s ++ t, List.perm_middle.symm⟩

/-- No member that adds something is exceeded by another. -/
def Even (l : List α) : Prop :=
  ∀ m ∈ l, ∀ n ∈ l, excess a b n < excess a b m → a n = 0

theorem run_perm {l l' : List α} (heven : Even a b l) (hperm : l'.Perm l) :
    run a b l' 0 = run a b l 0 := by
  by_cases hl : l = []
  · rw [hl] at hperm
    rw [hl, hperm.eq_nil]
  · obtain ⟨m, hm, htop⟩ := exists_top a b hl
    have hrun (k : List α) (hk : k.Perm l) : run a b k 0 = excess a b m + (l.map a).sum := by
      rw [← (hk.map a).sum_eq]
      exact run_of_even (fun n hn => htop n (hk.mem_iff.mp hn))
        (fun n hn hlt => heven m hm n (hk.mem_iff.mp hn) hlt) ⟨m, hk.mem_iff.mpr hm, rfl⟩
        (Nat.zero_le _)
    rw [hrun l' hperm, hrun l (.refl l)]

/-- The result is free of the order exactly for an even list. -/
theorem run_perm_iff (l : List α) :
    (∀ l', l'.Perm l → run a b l' 0 = run a b l 0) ↔ Even a b l := by
  refine ⟨fun hfree m hm n hn hlt => ?_, fun heven l' => run_perm a b heven⟩
  by_contra hadds
  obtain ⟨k, hk, htop⟩ := exists_top a b (List.ne_nil_of_mem hm)
  obtain ⟨first, hfirst⟩ := perm_cons_of_mem hk
  obtain ⟨second, hsecond⟩ := perm_cons_of_mem hn
  have htopFirst : ∀ j ∈ first, excess a b j ≤ excess a b k := fun j hj =>
    htop j (hfirst.mem_iff.mp (List.mem_cons_of_mem _ hj))
  have htopSecond : ∀ j ∈ second, excess a b j ≤ excess a b k := fun j hj =>
    htop j (hsecond.mem_iff.mp (List.mem_cons_of_mem _ hj))
  -- the top first: all additions count; the exceeded member first: its addition is lost
  have hreach : excess a b k ≤ step a b 0 k := by
    rw [step_eq]
    omega
  have hmost := run_of_ge htopFirst hreach
  have hleast := run_le htopSecond (step a b 0 n)
  have hsum : a k + (first.map a).sum = a n + (second.map a).sum := by
    have h := ((hfirst.trans hsecond.symm).map a).sum_eq
    rwa [List.map_cons, List.sum_cons, List.map_cons, List.sum_cons] at h
  have hsame := (hfree _ hfirst).trans (hfree _ hsecond).symm
  rw [run_cons, run_cons, hmost] at hsame
  have hk0 := step_eq a b 0 k
  have hn0 := step_eq a b 0 n
  have hle := htop m hm
  omega

end NdsRecomp.Library.SumOrMax
