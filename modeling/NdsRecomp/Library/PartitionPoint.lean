import Mathlib.Tactic

/-!
Binary search for the point where a predicate on indices stops holding. The
loop is the half-open bisection every `lower_bound` is written as; the fuel is
its variant, so that closed searches evaluate by reduction.
-/

namespace NdsRecomp.Library

/-- `while (lo < hi) { mid = (lo + hi) / 2; if (p mid) lo = mid + 1; else hi = mid; }` -/
def bisect (p : Nat → Bool) : Nat → Nat → Nat → Nat
  | 0, lo, _ => lo
  | fuel + 1, lo, hi =>
      if lo < hi then
        let mid := (lo + hi) / 2
        if p mid then bisect p fuel (mid + 1) hi else bisect p fuel lo mid
      else lo

/-- The first index below `len` where `p` fails, `len` when there is none. -/
def partitionPoint (p : Nat → Bool) (len : Nat) : Nat :=
  bisect p len 0 len

/-- The predicate holds up to some point and fails from there on. -/
def Partitioned (p : Nat → Bool) (len : Nat) : Prop :=
  ∀ i j, i ≤ j → j < len → p j = true → p i = true

private theorem bisect_spec {p : Nat → Bool} {len : Nat} (hp : Partitioned p len)
    (fuel lo hi : Nat) (hfuel : hi - lo ≤ fuel) (hle : lo ≤ hi) (hlen : hi ≤ len)
    (hbelow : ∀ i, i < lo → p i = true)
    (habove : ∀ i, hi ≤ i → i < len → p i = false) :
    bisect p fuel lo hi ≤ len ∧
      (∀ i, i < bisect p fuel lo hi → p i = true) ∧
      (∀ i, bisect p fuel lo hi ≤ i → i < len → p i = false) := by
  induction fuel generalizing lo hi with
  | zero =>
      obtain rfl : lo = hi := by omega
      exact ⟨hlen, hbelow, habove⟩
  | succ fuel ih =>
      by_cases hlt : lo < hi
      · have hmid : lo ≤ (lo + hi) / 2 ∧ (lo + hi) / 2 < hi := by omega
        cases hpm : p ((lo + hi) / 2) with
        | true =>
            simp only [bisect, hlt, hpm, if_true]
            refine ih _ _ (by omega) (by omega) hlen ?_ habove
            intro i hi'
            exact hp i _ (by omega) (by omega) hpm
        | false =>
            simp only [bisect, hlt, hpm, if_true, Bool.false_eq_true, if_false]
            refine ih _ _ (by omega) (by omega) (by omega) hbelow ?_
            intro i hmi hil
            by_contra hne
            have := hp _ i hmi hil (by simpa using hne)
            simp [hpm] at this
      · obtain rfl : lo = hi := by omega
        simp only [bisect, lt_self_iff_false, if_false]
        exact ⟨hlen, hbelow, habove⟩

/-- What a search over a partitioned range returns: the predicate holds
strictly before the result and fails from it on. -/
theorem partitionPoint_spec {p : Nat → Bool} {len : Nat} (hp : Partitioned p len) :
    partitionPoint p len ≤ len ∧
      (∀ i, i < partitionPoint p len → p i = true) ∧
      (∀ i, partitionPoint p len ≤ i → i < len → p i = false) := by
  refine bisect_spec hp len 0 len (by omega) (by omega) le_rfl ?_ ?_
  · intro i hi
    omega
  · intro i hle hlt
    omega

/-- Cutting a partitioned list at its partition point drops exactly the
leading elements that satisfy the predicate. -/
theorem drop_partitionPoint {α : Type*} (l : List α) (q : α → Bool)
    (hq : l.Pairwise (fun a b => q b = true → q a = true)) :
    l.drop (partitionPoint (fun i => (l[i]?).any q) l.length) = l.dropWhile q := by
  have hp : Partitioned (fun i => (l[i]?).any q) l.length := by
    intro i j hij hj hqj
    rcases Nat.lt_or_eq_of_le hij with hlt | rfl
    · have hrel := List.pairwise_iff_getElem.mp hq i j (by omega) hj hlt
      have hi : i < l.length := by omega
      simp only [List.getElem?_eq_getElem hj, Option.any_some] at hqj
      simp only [List.getElem?_eq_getElem hi, Option.any_some]
      exact hrel hqj
    · exact hqj
  obtain ⟨hle, hbelow, habove⟩ := partitionPoint_spec hp
  generalize partitionPoint (fun i => (l[i]?).any q) l.length = n at hle hbelow habove
  clear hq hp
  induction l generalizing n with
  | nil => simp
  | cons a l ih =>
      cases n with
      | zero =>
          have ha : q a = false := by simpa using habove 0 le_rfl (by simp)
          simp [ha]
      | succ n =>
          have ha : q a = true := by simpa using hbelow 0 (by omega)
          rw [List.drop_succ_cons, List.dropWhile_cons_of_pos ha]
          refine ih n (by simpa using hle) ?_ ?_
          · intro i hi
            simpa using hbelow (i + 1) (by omega)
          · intro i hni hil
            simpa using habove (i + 1) (by omega) (by simpa using hil)

end NdsRecomp.Library
