import Mathlib.Tactic

/-!
How far one scheduler round goes. A round ends 64 cycles on, or at the next
event where that lies less than eight cycles beyond the cap. With both CPUs
idle the round jumps over the rounds in which nothing could happen; it ends
where they would have.
-/

namespace NdsRecomp.Scheduler

def kIterCap : UInt64 := 64

/-- `if (ev < planned + 8u) planned = ev;` -/
def snapToEvent (ev planned : UInt64) : UInt64 := if ev < planned + 8 then ev else planned

/-- The rendezvous an idle console waits for, given the next timer overflow. -/
def idleWake (ts ev tov : UInt64) : UInt64 :=
  if ev ≤ tov then ev
  else
    let steps := (tov - ts + kIterCap - 1) / kIterCap
    let grid := ts + steps * kIterCap
    if ev < grid + 8 then ev else grid

/-- `planned` of one round. `idleOverflow` is the next timer overflow where
both CPUs are idle. -/
def planRound (ts ev : UInt64) (idleOverflow : Option UInt64) : UInt64 :=
  let planned := ts + kIterCap
  match idleOverflow with
  | none => snapToEvent ev planned
  | some tov =>
      let wake := idleWake ts ev tov
      snapToEvent ev (if wake > planned then wake else planned)

/-- A rendezvous at which an idle console can have work: the event, or the
first one at or after the timer overflow. -/
def WorkAt (ev tov rendezvous : UInt64) : Prop := rendezvous = ev ∨ tov ≤ rendezvous

/-! ### Over the natural numbers -/

/-- Rounds of 64 cycles before the round that snaps to an event `gap` cycles
away. -/
def roundsBefore (gap : Nat) : Nat := (gap - 8) / 64

theorem snapToEvent_toNat (ev : UInt64) {planned : UInt64}
    (hplanned : planned.toNat + 8 < 2 ^ 64) :
    (snapToEvent ev planned).toNat =
      if ev.toNat < planned.toNat + 8 then ev.toNat else planned.toNat := by
  have hmargin : (planned + 8).toNat = planned.toNat + 8 := by
    rw [UInt64.toNat_add]
    simp only [UInt64.reduceToNat]
    omega
  unfold snapToEvent
  simp only [UInt64.lt_iff_toNat_lt, hmargin]
  split
  · rfl
  · rfl

theorem cap_toNat {t : UInt64} (ht : t.toNat + 64 < 2 ^ 64) :
    (t + kIterCap).toNat = t.toNat + 64 := by
  change (t + 64).toNat = _
  rw [UInt64.toNat_add]
  simp only [UInt64.reduceToNat]
  omega

section Bounded

variable {ts ev : UInt64} (hbound : ev.toNat + 72 ≤ 2 ^ 64)

include hbound

/-- One plain round. -/
theorem planRound_toNat {t : UInt64} (ht : t < ev) :
    (planRound t ev none).toNat = if ev.toNat < t.toNat + 72 then ev.toNat else t.toNat + 64 := by
  have hnat := UInt64.lt_iff_toNat_lt.mp ht
  have hcap : (t + kIterCap).toNat = t.toNat + 64 := cap_toNat (by omega)
  unfold planRound
  dsimp only
  rw [snapToEvent_toNat ev (by omega), hcap]

variable (hlt : ts < ev)

include hlt

/-- The plain rounds before the event keep the 64-cycle grid. -/
theorem iterate_planRound {k : Nat} (hk : k ≤ roundsBefore (ev.toNat - ts.toNat)) :
    (((planRound · ev none)^[k]) ts).toNat = ts.toNat + 64 * k := by
  have hnat := UInt64.lt_iff_toNat_lt.mp hlt
  unfold roundsBefore at hk
  induction k with
  | zero => rfl
  | succ k ih =>
      have hprevious := ih (by omega)
      have hbefore : ((planRound · ev none)^[k]) ts < ev := by
        rw [UInt64.lt_iff_toNat_lt, hprevious]
        omega
      rw [Function.iterate_succ_apply', planRound_toNat hbound hbefore, hprevious,
        if_neg (by omega)]
      omega

/-- The round after them ends at the event. -/
theorem iterate_planRound_event :
    ((planRound · ev none)^[roundsBefore (ev.toNat - ts.toNat) + 1]) ts = ev := by
  have hnat := UInt64.lt_iff_toNat_lt.mp hlt
  have hprevious := iterate_planRound hbound hlt (le_refl (roundsBefore (ev.toNat - ts.toNat)))
  unfold roundsBefore at hprevious ⊢
  have hbefore : ((planRound · ev none)^[(ev.toNat - ts.toNat - 8) / 64]) ts < ev := by
    rw [UInt64.lt_iff_toNat_lt, hprevious]
    omega
  apply UInt64.toNat_inj.mp
  rw [Function.iterate_succ_apply', planRound_toNat hbound hbefore, hprevious,
    if_pos (by omega)]

/-- 64-cycle steps up to the timer overflow, at least one. -/
def overflowRounds (gap : Nat) : Nat := max 1 ((gap + 63) / 64)

/-- The grid point at or after an overflow before the event. -/
theorem idleWake_toNat {tov : UInt64} (htov : ts ≤ tov) (hoverflow : tov < ev) :
    (idleWake ts ev tov).toNat =
      min ev.toNat (if ev.toNat < ts.toNat + 64 * ((tov.toNat - ts.toNat + 63) / 64) + 8 then
        ev.toNat else ts.toNat + 64 * ((tov.toNat - ts.toNat + 63) / 64)) := by
  have hnat := UInt64.lt_iff_toNat_lt.mp hlt
  have hle := UInt64.le_iff_toNat_le.mp htov
  have hoverflowNat := UInt64.lt_iff_toNat_lt.mp hoverflow
  have hgap : (tov - ts).toNat = tov.toNat - ts.toNat := UInt64.toNat_sub_of_le _ _ htov
  have hsum : (tov - ts + kIterCap - 1).toNat = tov.toNat - ts.toNat + 63 := by
    have hcap : (tov - ts + kIterCap).toNat = tov.toNat - ts.toNat + 64 := by
      rw [cap_toNat (by omega), hgap]
    rw [UInt64.toNat_sub, hcap]
    simp only [UInt64.reduceToNat]
    omega
  have hsteps : ((tov - ts + kIterCap - 1) / kIterCap).toNat =
      (tov.toNat - ts.toNat + 63) / 64 := by
    change ((tov - ts + kIterCap - 1) / 64).toNat = _
    rw [UInt64.toNat_div, hsum]
    rfl
  have hgrid : (ts + (tov - ts + kIterCap - 1) / kIterCap * kIterCap).toNat =
      ts.toNat + 64 * ((tov.toNat - ts.toNat + 63) / 64) := by
    rw [UInt64.toNat_add, UInt64.toNat_mul, hsteps]
    change (ts.toNat + (tov.toNat - ts.toNat + 63) / 64 * 64 % 2 ^ 64) % 2 ^ 64 = _
    omega
  have hmargin : (ts + (tov - ts + kIterCap - 1) / kIterCap * kIterCap + 8).toNat =
      ts.toNat + 64 * ((tov.toNat - ts.toNat + 63) / 64) + 8 := by
    rw [UInt64.toNat_add, hgrid]
    simp only [UInt64.reduceToNat]
    omega
  unfold idleWake
  rw [if_neg (UInt64.not_le.mpr hoverflow)]
  simp only [UInt64.lt_iff_toNat_lt, hmargin]
  split
  · exact (min_self _).symm
  · rw [hgrid]
    omega

/-- The jump as a number: to the event where it is reached first, else to the
first grid point at or after the overflow. -/
theorem planRound_idle_toNat {tov : UInt64} (htov : ts ≤ tov) :
    (planRound ts ev (some tov)).toNat =
      if tov < ev ∧
          ts.toNat + 64 * overflowRounds (tov.toNat - ts.toNat) + 8 ≤ ev.toNat then
        ts.toNat + 64 * overflowRounds (tov.toNat - ts.toNat)
      else ev.toNat := by
  have hnat := UInt64.lt_iff_toNat_lt.mp hlt
  have hle := UInt64.le_iff_toNat_le.mp htov
  have hcap : (ts + kIterCap).toNat = ts.toNat + 64 := cap_toNat (by omega)
  have hwakeBound : (idleWake ts ev tov).toNat ≤ ev.toNat := by
    rcases UInt64.lt_or_le tov ev with hoverflow | hfirst
    · rw [idleWake_toNat hbound hlt htov hoverflow]
      exact min_le_left _ _
    · exact (congrArg UInt64.toNat (if_pos hfirst : idleWake ts ev tov = ev)).le
  have hplanned : (if idleWake ts ev tov > ts + kIterCap then idleWake ts ev tov
      else ts + kIterCap).toNat = max (idleWake ts ev tov).toNat (ts.toNat + 64) := by
    rw [← hcap]
    split
    · next hlater => exact (max_eq_left (UInt64.lt_iff_toNat_lt.mp hlater).le).symm
    · next hlater =>
        exact (max_eq_right (UInt64.le_iff_toNat_le.mp (UInt64.not_lt.mp hlater))).symm
  have hplan : (planRound ts ev (some tov)).toNat =
      if ev.toNat < max (idleWake ts ev tov).toNat (ts.toNat + 64) + 8 then ev.toNat
      else max (idleWake ts ev tov).toNat (ts.toNat + 64) := by
    unfold planRound
    dsimp only
    rw [snapToEvent_toNat ev (by rw [hplanned]; omega), hplanned]
  rw [hplan]
  unfold overflowRounds
  rcases UInt64.lt_or_le tov ev with hoverflow | hfirst
  · have hoverflowNat := UInt64.lt_iff_toNat_lt.mp hoverflow
    rw [idleWake_toNat hbound hlt htov hoverflow]
    simp only [hoverflow, true_and]
    split_ifs
    all_goals omega
  · have hwake : idleWake ts ev tov = ev := if_pos hfirst
    have hnot : ¬ (tov < ev ∧ ts.toNat + 64 * max 1 ((tov.toNat - ts.toNat + 63) / 64) + 8 ≤
        ev.toNat) := fun h => absurd h.1 (UInt64.not_lt.mpr hfirst)
    have hsnap : ev.toNat < max ev.toNat (ts.toNat + 64) + 8 := by omega
    rw [hwake, if_neg hnot, if_pos hsnap]

end Bounded

/-- The jump of an idle console ends at the first rendezvous of the plain
rounds that is the event or lies at or after the timer overflow: some positive
number of plain rounds leads there, and no earlier one has work. -/
theorem idle_plan_eq_first_working_round (ts ev tov : UInt64) (hevent : ts < ev)
    (hoverflow : ts ≤ tov) (hbound : ev.toNat + 72 ≤ 2 ^ 64) :
    ∃ n, 0 < n ∧ ((planRound · ev none)^[n]) ts = planRound ts ev (some tov) ∧
      WorkAt ev tov (planRound ts ev (some tov)) ∧
      ∀ k, 0 < k → k < n → ¬ WorkAt ev tov (((planRound · ev none)^[k]) ts) := by
  have hnat := UInt64.lt_iff_toNat_lt.mp hevent
  have hle := UInt64.le_iff_toNat_le.mp hoverflow
  have hjump := planRound_idle_toNat hbound hevent hoverflow
  let last := roundsBefore (ev.toNat - ts.toNat) + 1
  have hgridNoWork {k : Nat} (hk : k < last) (hbefore : ts.toNat + 64 * k < tov.toNat) :
      ¬ WorkAt ev tov (((planRound · ev none)^[k]) ts) := by
    have hround := iterate_planRound hbound hevent (Nat.le_of_lt_succ hk)
    change k < (ev.toNat - ts.toNat - 8) / 64 + 1 at hk
    rintro (hsame | hlater)
    · rw [hsame] at hround
      omega
    · rw [UInt64.le_iff_toNat_le, hround] at hlater
      omega
  by_cases hgrid : tov < ev ∧
      ts.toNat + 64 * overflowRounds (tov.toNat - ts.toNat) + 8 ≤ ev.toNat
  · -- The overflow comes first: its grid point is a plain rendezvous.
    obtain ⟨htov, hroom⟩ := hgrid
    rw [if_pos ⟨htov, hroom⟩] at hjump
    let n := overflowRounds (tov.toNat - ts.toNat)
    have hn : n ≤ roundsBefore (ev.toNat - ts.toNat) := by
      change n ≤ (ev.toNat - ts.toNat - 8) / 64
      omega
    have hpos : 0 < n := lt_of_lt_of_le Nat.one_pos (le_max_left _ _)
    refine ⟨n, hpos, ?_, ?_, ?_⟩
    · exact UInt64.toNat_inj.mp ((iterate_planRound hbound hevent hn).trans hjump.symm)
    · refine Or.inr (UInt64.le_iff_toNat_le.mpr ?_)
      rw [hjump]
      unfold overflowRounds
      omega
    · intro k hk hkn
      refine hgridNoWork (by omega) ?_
      change k < max 1 ((tov.toNat - ts.toNat + 63) / 64) at hkn
      omega
  · -- The event comes first: every plain rendezvous before it is too early.
    rw [if_neg hgrid] at hjump
    have hplan : planRound ts ev (some tov) = ev := UInt64.toNat_inj.mp hjump
    refine ⟨last, Nat.succ_pos _, ?_, Or.inl hplan, ?_⟩
    · rw [hplan]
      exact iterate_planRound_event hbound hevent
    · intro k hk hlast
      refine hgridNoWork hlast ?_
      change k < (ev.toNat - ts.toNat - 8) / 64 + 1 at hlast
      by_cases htov : tov < ev
      · have hnoRoom : ¬ ts.toNat + 64 * overflowRounds (tov.toNat - ts.toNat) + 8 ≤ ev.toNat :=
          fun hroom => hgrid ⟨htov, hroom⟩
        unfold overflowRounds at hnoRoom
        omega
      · have hlate := UInt64.le_iff_toNat_le.mp (UInt64.not_lt.mp htov)
        omega

/-- An overflow 100 cycles away under an event 1000 cycles away. -/
theorem idle_plan_eq_first_working_round_overflow :
    ∃ n, 0 < n ∧ ((planRound · 1000 none)^[n]) 0 = planRound 0 1000 (some 100) ∧
      WorkAt 1000 100 (planRound 0 1000 (some 100)) ∧
      ∀ k, 0 < k → k < n → ¬ WorkAt 1000 100 (((planRound · 1000 none)^[k]) 0) :=
  idle_plan_eq_first_working_round 0 1000 100 (by decide) (by decide) (by decide)

/-- With the event and the overflow at the top of the 64-bit range the step
count wraps to zero, and the jump ends 64 cycles on with no work there. -/
theorem idle_plan_wraps_at_top :
    ¬ ∀ ts ev tov : UInt64, ts < ev → ts ≤ tov →
      ∃ n, 0 < n ∧ ((planRound · ev none)^[n]) ts = planRound ts ev (some tov) ∧
        WorkAt ev tov (planRound ts ev (some tov)) ∧
        ∀ k, 0 < k → k < n → ¬ WorkAt ev tov (((planRound · ev none)^[k]) ts) := by
  intro hall
  obtain ⟨-, -, -, hwork, -⟩ :=
    hall 0 0xFFFFFFFFFFFFFFFF 0xFFFFFFFFFFFFFFFE (by decide) (by decide)
  revert hwork
  unfold WorkAt
  decide

end NdsRecomp.Scheduler
