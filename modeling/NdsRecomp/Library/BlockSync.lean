import Mathlib.Tactic

/-!
A copy kept in step with its source. The copy remembers the generation of the
source it was taken at; while the source has that generation the copy is
current. Refreshing goes block by block: blocks that agree are left alone, the
others are copied and marked.
-/

namespace NdsRecomp.Library

/-! ### Copying by blocks -/

section Blocks

variable {α : Type*} [DecidableEq α]

/-- Block `k` of `w` entries is the same in both. -/
def SameBlock (w : Nat) (fresh copy : Nat → α) (k : Nat) : Prop :=
  ∀ i < w, fresh (w * k + i) = copy (w * k + i)

instance (w : Nat) (fresh copy : Nat → α) (k : Nat) : Decidable (SameBlock w fresh copy k) :=
  inferInstanceAs (Decidable (∀ i < w, fresh (w * k + i) = copy (w * k + i)))

def copyBlock (w : Nat) (fresh copy : Nat → α) (k : Nat) : Nat → α := fun i =>
  if w * k ≤ i ∧ i < w * k + w then fresh i else copy i

structure BlockSync (α : Type*) where
  changed : Bool
  copy : Nat → α
  dirty : Nat → Bool

def BlockSync.visit (w : Nat) (fresh : Nat → α) (s : BlockSync α) (k : Nat) : BlockSync α :=
  if SameBlock w fresh s.copy k then s
  else
    { changed := true
      copy := copyBlock w fresh s.copy k
      dirty := Function.update s.dirty k true }

/-- The first `n` blocks, one after the other. -/
def syncBlocks (w n : Nat) (fresh copy : Nat → α) (dirty : Nat → Bool) : BlockSync α :=
  (List.range n).foldl (BlockSync.visit w fresh) { changed := false, copy := copy, dirty := dirty }

variable (w n : Nat) (fresh copy : Nat → α) (dirty : Nat → Bool)

theorem syncBlocks_succ :
    syncBlocks w (n + 1) fresh copy dirty =
      (syncBlocks w n fresh copy dirty).visit w fresh n := by
  unfold syncBlocks
  rw [List.range_succ, List.foldl_append]
  rfl

theorem syncBlocks_copy (i : Nat) :
    (syncBlocks w n fresh copy dirty).copy i = if i < w * n then fresh i else copy i := by
  induction n with
  | zero => rfl
  | succ n ih =>
      rw [syncBlocks_succ, Nat.mul_succ]
      unfold BlockSync.visit
      by_cases hsame : SameBlock w fresh (syncBlocks w n fresh copy dirty).copy n
      · rw [if_pos hsame, ih]
        by_cases hbelow : i < w * n
        · rw [if_pos hbelow, if_pos (by omega)]
        by_cases hblock : i < w * n + w
        · have hentry := hsame (i - w * n) (by omega)
          rw [Nat.add_sub_cancel' (by omega), ih, if_neg hbelow] at hentry
          rw [if_neg hbelow, if_pos hblock, hentry]
        · rw [if_neg hbelow, if_neg hblock]
      · rw [if_neg hsame]
        change copyBlock w fresh (syncBlocks w n fresh copy dirty).copy n i = _
        unfold copyBlock
        by_cases hblock : w * n ≤ i ∧ i < w * n + w
        · rw [if_pos hblock, if_pos hblock.2]
        · rw [if_neg hblock, ih]
          by_cases hbelow : i < w * n
          · rw [if_pos hbelow, if_pos (by omega)]
          · rw [if_neg hbelow, if_neg (by omega)]

/-- The blocks before do not reach into this one. -/
theorem sameBlock_syncBlocks {k : Nat} (hk : n ≤ k) :
    SameBlock w fresh (syncBlocks w n fresh copy dirty).copy k ↔ SameBlock w fresh copy k := by
  have hcopy (i : Nat) :
      (syncBlocks w n fresh copy dirty).copy (w * k + i) = copy (w * k + i) := by
    have hmul := Nat.mul_le_mul_left w hk
    rw [syncBlocks_copy, if_neg (by omega)]
  unfold SameBlock
  simp only [hcopy]

theorem syncBlocks_dirty (k : Nat) :
    (syncBlocks w n fresh copy dirty).dirty k =
      (dirty k || decide (k < n ∧ ¬ SameBlock w fresh copy k)) := by
  induction n with
  | zero =>
      change dirty k = _
      simp
  | succ n ih =>
      have hblock := sameBlock_syncBlocks w n fresh copy dirty (le_refl n)
      rw [syncBlocks_succ]
      unfold BlockSync.visit
      by_cases hsame : SameBlock w fresh copy n
      · rw [if_pos (hblock.mpr hsame), ih]
        have hiff : (k < n ∧ ¬ SameBlock w fresh copy k) ↔
            (k < n + 1 ∧ ¬ SameBlock w fresh copy k) := by
          constructor
          · exact fun h => ⟨by omega, h.2⟩
          · rintro ⟨hlt, hne⟩
            have hneq : k ≠ n := fun h => hne (h ▸ hsame)
            exact ⟨by omega, hne⟩
        simp only [hiff]
      · rw [if_neg fun h => hsame (hblock.mp h)]
        change Function.update (syncBlocks w n fresh copy dirty).dirty n true k = _
        by_cases hk : k = n
        · subst hk
          simp [hsame]
        · rw [Function.update_of_ne hk, ih]
          have hiff : (k < n ∧ ¬ SameBlock w fresh copy k) ↔
              (k < n + 1 ∧ ¬ SameBlock w fresh copy k) := by
            constructor
            · exact fun h => ⟨by omega, h.2⟩
            · exact fun h => ⟨by omega, h.2⟩
          simp only [hiff]

theorem syncBlocks_changed :
    (syncBlocks w n fresh copy dirty).changed = true ↔ ∃ k < n, ¬ SameBlock w fresh copy k := by
  induction n with
  | zero =>
      refine iff_of_false Bool.false_ne_true ?_
      rintro ⟨k, hk, -⟩
      exact absurd hk (Nat.not_lt_zero k)
  | succ n ih =>
      have hblock := sameBlock_syncBlocks w n fresh copy dirty (le_refl n)
      rw [syncBlocks_succ]
      unfold BlockSync.visit
      by_cases hsame : SameBlock w fresh copy n
      · rw [if_pos (hblock.mpr hsame), ih]
        constructor
        · rintro ⟨k, hk, hne⟩
          exact ⟨k, by omega, hne⟩
        · rintro ⟨k, hk, hne⟩
          have hneq : k ≠ n := fun h => hne (h ▸ hsame)
          exact ⟨k, by omega, hne⟩
      · rw [if_neg fun h => hsame (hblock.mp h)]
        exact iff_of_true rfl ⟨n, Nat.lt_succ_self n, hsame⟩

end Blocks

/-! ### Current while the generation stands -/

/-- A copy taken when the source had generation `taken`: that was in the past, and
if the generation has not moved since, the copy agrees with the source. -/
structure Current (generation taken : Nat) (agrees : Prop) : Prop where
  past : taken ≤ generation
  same : taken = generation → agrees

section Current

variable {generation later taken : Nat} {agrees agrees' : Prop}

/-- The source may change as it likes when its generation advances. -/
theorem Current.advance (h : Current generation taken agrees) (hlater : generation < later) :
    Current later taken agrees' where
  past := h.past.trans (Nat.le_of_lt hlater)
  same hsame := by
    have hpast := h.past
    omega

theorem Current.imp (h : Current generation taken agrees) (himp : agrees → agrees') :
    Current generation taken agrees' where
  past := h.past
  same hsame := himp (h.same hsame)

theorem Current.refresh (hagrees : agrees) : Current generation generation agrees where
  past := Nat.le_refl _
  same _ := hagrees

theorem Current.of_lt (hlt : taken < generation) : Current generation taken agrees where
  past := Nat.le_of_lt hlt
  same hsame := by omega

end Current

end NdsRecomp.Library
