import Mathlib.Tactic

/-!
A counter that counts up to a limit and then starts again from a reload value, with a
divider before it. Counting in two parts is counting at once: the positions agree and the
overflows add up.
-/

namespace NdsRecomp.Library

/-- A counter below its limit. -/
@[ext] structure ReloadCounter (limit : Nat) where
  position : Nat
  reload : Nat
  position_lt : position < limit
  reload_lt : reload < limit

namespace ReloadCounter

variable {limit : Nat} (c : ReloadCounter limit)

/-- Ticks to the next overflow. -/
def span : Nat := limit - c.position

/-- Ticks from one overflow to the next. -/
def period : Nat := limit - c.reload

theorem span_pos : 0 < c.span := Nat.sub_pos_of_lt c.position_lt

theorem period_pos : 0 < c.period := Nat.sub_pos_of_lt c.reload_lt

def positionAfter (ticks : Nat) : Nat :=
  if ticks < c.span then c.position + ticks else c.reload + (ticks - c.span) % c.period

def overflows (ticks : Nat) : Nat :=
  if ticks < c.span then 0 else 1 + (ticks - c.span) / c.period

theorem positionAfter_lt (ticks : Nat) : c.positionAfter ticks < limit := by
  have hposition := c.position_lt
  have hreload := c.reload_lt
  have hmod := Nat.mod_lt (ticks - c.span) c.period_pos
  unfold positionAfter
  unfold period at hmod
  split
  · rename_i hbefore
    unfold span at hbefore
    omega
  · unfold period
    omega

def after (ticks : Nat) : ReloadCounter limit :=
  ⟨c.positionAfter ticks, c.reload, c.positionAfter_lt ticks, c.reload_lt⟩

@[simp] theorem after_period (ticks : Nat) : (c.after ticks).period = c.period := rfl

theorem overflows_pos_iff (ticks : Nat) : 0 < c.overflows ticks ↔ c.span ≤ ticks := by
  unfold overflows
  split
  · rename_i hbefore
    exact iff_of_false (Nat.lt_irrefl 0) (Nat.not_le.mpr hbefore)
  · rename_i hpassed
    exact iff_of_true (Nat.add_pos_left Nat.one_pos _) (Nat.le_of_not_lt hpassed)

theorem overflows_le (ticks : Nat) : c.overflows ticks ≤ ticks := by
  have hspan := c.span_pos
  have hdiv := Nat.div_le_self (ticks - c.span) c.period
  unfold overflows
  split
  · exact Nat.zero_le _
  · rename_i hpassed
    exact Nat.le_trans (Nat.add_le_add_left hdiv 1) (by omega)

/-- What is left to the next overflow after one was passed. -/
theorem span_after {ticks : Nat} (h : c.span ≤ ticks) :
    (c.after ticks).span = c.period - (ticks - c.span) % c.period := by
  have hreload := c.reload_lt
  have hmod := Nat.mod_lt (ticks - c.span) c.period_pos
  change limit - c.positionAfter ticks = _
  unfold positionAfter
  rw [if_neg (Nat.not_lt.mpr h)]
  unfold period at hmod ⊢
  omega

theorem span_after_of_lt {ticks : Nat} (h : ticks < c.span) :
    (c.after ticks).span = c.span - ticks := by
  change limit - c.positionAfter ticks = _
  unfold positionAfter
  rw [if_pos h]
  unfold span
  omega

/-- Ticks after an overflow, taken together: how often the period is passed, and what is
left over. -/
theorem period_split (past more : Nat) :
    (past + more) / c.period =
        past / c.period + (past % c.period + more) / c.period ∧
      (past + more) % c.period = (past % c.period + more) % c.period := by
  have hpos := c.period_pos
  have hparts := Nat.div_add_mod past c.period
  constructor
  · have hsum : past + more = past % c.period + more + c.period * (past / c.period) := by omega
    conv_lhs => rw [hsum]
    rw [Nat.add_mul_div_left _ _ hpos, Nat.add_comm]
  · exact (Nat.mod_add_mod past c.period more).symm

theorem overflows_add (ticks more : Nat) :
    c.overflows (ticks + more) = c.overflows ticks + (c.after ticks).overflows more := by
  have hpos := c.period_pos
  by_cases hbefore : ticks < c.span
  · have hspan := c.span_after_of_lt hbefore
    unfold overflows
    rw [if_pos hbefore, hspan, after_period]
    by_cases hwhole : ticks + more < c.span
    · rw [if_pos hwhole, if_pos (by omega)]
    · rw [if_neg hwhole, if_neg (by omega), Nat.zero_add]
      congr 2
      omega
  · have hpassed : c.span ≤ ticks := Nat.le_of_not_lt hbefore
    have hspan := c.span_after hpassed
    have hmod := Nat.mod_lt (ticks - c.span) hpos
    obtain ⟨hdiv, -⟩ := c.period_split (ticks - c.span) more
    have hsum : ticks + more - c.span = ticks - c.span + more := by omega
    unfold overflows
    rw [if_neg (by omega), if_neg hbefore, hsum, hdiv, hspan, after_period]
    by_cases hwhole : more < c.period - (ticks - c.span) % c.period
    · rw [if_pos hwhole, Nat.div_eq_of_lt (Nat.add_lt_of_lt_sub' hwhole)]
      rfl
    · rw [if_neg hwhole]
      generalize (ticks - c.span) % c.period = past at hmod hwhole ⊢
      have hnext : past + more = more - (c.period - past) + c.period := by omega
      rw [hnext, Nat.add_div_right _ hpos, Nat.add_assoc, Nat.add_comm _ 1]

theorem after_add (ticks more : Nat) :
    c.positionAfter (ticks + more) = (c.after ticks).positionAfter more := by
  have hpos := c.period_pos
  by_cases hbefore : ticks < c.span
  · have hspan := c.span_after_of_lt hbefore
    have hposition : (c.after ticks).position = c.position + ticks := if_pos hbefore
    unfold positionAfter
    rw [hspan, after_period, hposition]
    by_cases hwhole : ticks + more < c.span
    · rw [if_pos hwhole, if_pos (by omega), Nat.add_assoc]
    · rw [if_neg hwhole, if_neg (by omega)]
      change _ = c.reload + _
      congr 2
      omega
  · have hpassed : c.span ≤ ticks := Nat.le_of_not_lt hbefore
    have hspan := c.span_after hpassed
    have hmod := Nat.mod_lt (ticks - c.span) hpos
    obtain ⟨-, hrest⟩ := c.period_split (ticks - c.span) more
    have hsum : ticks + more - c.span = ticks - c.span + more := by omega
    have hposition : (c.after ticks).position = c.reload + (ticks - c.span) % c.period :=
      if_neg hbefore
    unfold positionAfter
    rw [if_neg (by omega), hsum, hrest, hspan, after_period, hposition]
    generalize (ticks - c.span) % c.period = past at hmod ⊢
    by_cases hwhole : more < c.period - past
    · rw [if_pos hwhole, Nat.mod_eq_of_lt (Nat.add_lt_of_lt_sub' hwhole), Nat.add_assoc]
    · rw [if_neg hwhole]
      have hnext : past + more = more - (c.period - past) + c.period := by omega
      rw [hnext, Nat.add_mod_right]
      rfl

/-- A divider over two parts lets the same ticks through as over the whole. -/
theorem divide_add {divisor : Nat} (hpos : 0 < divisor) (accum first second : Nat) :
    (accum + (first + second)) / divisor =
        (accum + first) / divisor + ((accum + first) % divisor + second) / divisor ∧
      (accum + (first + second)) % divisor = ((accum + first) % divisor + second) % divisor := by
  have hparts := Nat.div_add_mod (accum + first) divisor
  have hsum : accum + (first + second) =
      (accum + first) % divisor + second + divisor * ((accum + first) / divisor) := by omega
  constructor
  · conv_lhs => rw [hsum]
    rw [Nat.add_mul_div_left _ _ hpos, Nat.add_comm]
  · conv_lhs => rw [hsum]
    rw [Nat.add_mul_mod_self_left]

end ReloadCounter

end NdsRecomp.Library
