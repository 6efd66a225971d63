import NdsRecomp.Host.PerfGovernor

/-!
One sample of the governor in automatic mode: the counters that move the stage,
and the flap guard that keeps it.
-/

namespace NdsRecomp.Host

open Library

namespace NdsPerfGovernorState

variable {Ms : Type}

section Counters

variable (s : NdsPerfGovernorState Ms) (isOver isRecovered : Bool)

theorem min_succ_toNat {a b : UInt32} (h : a.toNat < b.toNat) :
    (min (a + 1) b).toNat = a.toNat + 1 := by
  have hb := b.toNat_lt
  have hsucc : (a + 1).toNat = a.toNat + 1 := by
    rw [UInt32.toNat_add]
    simp only [UInt32.reduceToNat]
    omega
  have hle : a + 1 ≤ b := UInt32.le_iff_toNat_le.mpr (by omega)
  have hmin : min (a + 1) b = a + 1 := if_pos hle
  rw [hmin, hsucc]

theorem countFrame_overFrames (h : s.overFrames.toNat < s.config.engageFrames.toNat) :
    (s.countFrame isOver isRecovered).overFrames.toNat =
      if isOver then s.overFrames.toNat + 1 else 0 := by
  unfold countFrame
  cases isOver with
  | true => exact min_succ_toNat h
  | false => cases isRecovered <;> rfl

theorem countFrame_underFrames (h : s.underFrames.toNat < s.config.restoreFrames.toNat) :
    (s.countFrame isOver isRecovered).underFrames.toNat =
      if !isOver && isRecovered then s.underFrames.toNat + 1 else 0 := by
  unfold countFrame
  cases isOver with
  | true => rfl
  | false =>
      cases isRecovered with
      | true => exact min_succ_toNat h
      | false => rfl

theorem countFrame_of_over : (s.countFrame true isRecovered).underFrames = 0 := rfl

theorem countFrame_of_not_over : (s.countFrame false isRecovered).overFrames = 0 := by
  cases isRecovered <;> rfl

end Counters

theorem stage_succ {stage : UInt8} (h : stage < 2) : (stage + 1).toNat = stage.toNat + 1 := by
  have hlt := UInt8.lt_iff_toNat_lt.mp h
  simp only [UInt8.reduceToNat] at hlt
  rw [UInt8.toNat_add]
  simp only [UInt8.reduceToNat]
  omega

theorem stage_pred {stage : UInt8} (h : 0 < stage) : (stage - 1).toNat + 1 = stage.toNat := by
  have hlt := UInt8.lt_iff_toNat_lt.mp h
  have hone : (1 : UInt8) ≤ stage := UInt8.le_iff_toNat_le.mpr hlt
  simp only [UInt8.reduceToNat] at hlt
  rw [UInt8.toNat_sub_of_le _ _ hone]
  simp only [UInt8.reduceToNat]
  omega

theorem lt_two_iff {stage : UInt8} : stage < 2 ↔ stage.toNat < 2 := UInt8.lt_iff_toNat_lt

theorem pos_iff {stage : UInt8} : 0 < stage ↔ 0 < stage.toNat := UInt8.lt_iff_toNat_lt

theorem eq_two_iff {stage : UInt8} : stage = 2 ↔ stage.toNat = 2 := UInt8.toNat_inj.symm

/-- Held at stage 2: nothing leads down. -/
def Pinned (s : NdsPerfGovernorState Ms) : Prop := s.stage = 2 ∧ s.stage2Held = true

theorem decayFlap_of_two {s : NdsPerfGovernorState Ms} (h : s.stage = 2) : s.decayFlap = s := by
  unfold decayFlap
  refine if_neg fun hbelow => ?_
  rw [h] at hbelow
  exact absurd hbelow.2 (by decide)

/-! ### One step -/

/-- The raising and the lowering step, and the counters of a step that stays. -/
inductive Counted (s s' : NdsPerfGovernorState Ms) (isOver isRecovered : Bool) : Bool → Prop where
  | raised (hstage : s.stage.toNat < 2) (hover : isOver = true)
      (hfull : s.overFrames.toNat + 1 = s.config.engageFrames.toNat)
      (hnext : s'.stage.toNat = s.stage.toNat + 1) (hoverFrames : s'.overFrames = 0)
      (hunderFrames : s'.underFrames = 0) : Counted s s' isOver isRecovered true
  | lowered (hstage : 0 < s.stage.toNat) (hfree : ¬ s.Pinned)
      (hrecovered : isOver = false ∧ isRecovered = true)
      (hfull : s.underFrames.toNat + 1 = s.config.restoreFrames.toNat)
      (hnext : s'.stage.toNat + 1 = s.stage.toNat) (hoverFrames : s'.overFrames = 0)
      (hunderFrames : s'.underFrames = 0) : Counted s s' isOver isRecovered true
  | stayed (hnext : s'.stage = s.stage)
      (hover : s.stage.toNat < 2 →
        s'.overFrames.toNat = (if isOver then s.overFrames.toNat + 1 else 0) ∧
          s'.overFrames.toNat < s.config.engageFrames.toNat)
      (hunder : 0 < s.stage.toNat → ¬ s.Pinned →
        s'.underFrames.toNat = (if !isOver && isRecovered then s.underFrames.toNat + 1 else 0) ∧
          s'.underFrames.toNat < s.config.restoreFrames.toNat) :
      Counted s s' isOver isRecovered false

theorem Counted.moved {s s' : NdsPerfGovernorState Ms} {isOver isRecovered : Bool}
    (h : Counted s s' isOver isRecovered true) :
    s'.stage ≠ s.stage ∧ s'.overFrames = 0 ∧ s'.underFrames = 0 := by
  cases h with
  | raised hstage hover hfull hnext hoverFrames hunderFrames =>
      refine ⟨fun hsame => ?_, hoverFrames, hunderFrames⟩
      rw [hsame] at hnext
      omega
  | lowered hstage hfree hrecovered hfull hnext hoverFrames hunderFrames =>
      refine ⟨fun hsame => ?_, hoverFrames, hunderFrames⟩
      rw [hsame] at hnext
      omega

theorem raiseStage_frame (s : NdsPerfGovernorState Ms) :
    s.raiseStage.stage = s.stage + 1 ∧ s.raiseStage.overFrames = 0 ∧
      s.raiseStage.underFrames = s.underFrames ∧ s.raiseStage.config = s.config ∧
      s.raiseStage.mode = s.mode ∧ s.raiseStage.applyFailed = s.applyFailed := by
  unfold raiseStage
  dsimp only
  split <;> exact ⟨rfl, rfl, rfl, rfl, rfl, rfl⟩

section Step

variable {s s' : NdsPerfGovernorState Ms} {isOver isRecovered changed : Bool}
  (h : AutoStep s isOver isRecovered (changed, s'))

include h

theorem AutoStep.frame :
    s'.config = s.config ∧ s'.mode = s.mode ∧ s'.applyFailed = s.applyFailed := by
  obtain ⟨-, hconfig, hmode, hfailed, -, -⟩ := s.decayFlap_frame
  obtain ⟨-, hconfig', hmode', hfailed', -⟩ := s.decayFlap.countFrame_frame isOver isRecovered
  cases h with
  | raised hover hstage hfull =>
      obtain ⟨-, -, -, hc, hm, hf⟩ := (s.decayFlap.countFrame isOver isRecovered).raiseStage_frame
      exact ⟨hc.trans (hconfig'.trans hconfig), hm.trans (hmode'.trans hmode),
        hf.trans (hfailed'.trans hfailed)⟩
  | lowered hrecovered hstage hfull hheld =>
      exact ⟨hconfig'.trans hconfig, hmode'.trans hmode, hfailed'.trans hfailed⟩
  | stayed hraise hlower =>
      exact ⟨hconfig'.trans hconfig, hmode'.trans hmode, hfailed'.trans hfailed⟩

/-- With positive thresholds and counters below them, a full counter is what
moves the stage. -/
theorem AutoStep.counted (hengage : 0 < s.config.engageFrames) (hrestore : 0 < s.config.restoreFrames)
    (hover : s.stage.toNat < 2 → s.overFrames.toNat < s.config.engageFrames.toNat)
    (hunder : 0 < s.stage.toNat → ¬ s.Pinned →
      s.underFrames.toNat < s.config.restoreFrames.toNat) :
    Counted s s' isOver isRecovered changed := by
  have hengage' := UInt32.lt_iff_toNat_lt.mp hengage
  have hrestore' := UInt32.lt_iff_toNat_lt.mp hrestore
  simp only [UInt32.reduceToNat] at hengage' hrestore'
  obtain ⟨hstage, hconfig, -, -, hoverFrames, hunderFrames⟩ := s.decayFlap_frame
  obtain ⟨hstage', hconfig', -⟩ := s.decayFlap.countFrame_frame isOver isRecovered
  have hovers := s.decayFlap.countFrame_overFrames isOver isRecovered
  have hunders := s.decayFlap.countFrame_underFrames isOver isRecovered
  rw [hoverFrames, hconfig] at hovers
  rw [hunderFrames, hconfig] at hunders
  cases h with
  | raised hisOver hbelow hfull =>
      obtain ⟨hs, ho, hu, -⟩ := (s.decayFlap.countFrame isOver isRecovered).raiseStage_frame
      have hlow := lt_two_iff.mp hbelow
      have hcount := hovers (hover hlow)
      rw [if_pos hisOver] at hcount
      have hle := UInt32.le_iff_toNat_le.mp hfull
      have hbound := hover hlow
      refine .raised hlow hisOver (by omega) ?_ ho ?_
      · rw [hs, hstage', hstage, stage_succ hbelow]
      · rw [hu, hisOver]
        exact countFrame_of_over _ _
  | lowered hrecovered hpositive hfull hfree =>
      have hpos := pos_iff.mp hpositive
      have hpinned : ¬ s.Pinned := by
        rintro ⟨htwo, hheld⟩
        rw [decayFlap_of_two htwo] at hfree
        exact hfree ⟨htwo, hheld⟩
      have hle := UInt32.le_iff_toNat_le.mp hfull
      have hcount := hunders (hunder hpos hpinned)
      have hbound := hunder hpos hpinned
      cases isOver with
      | true =>
          rw [countFrame_of_over] at hle
          simp only [UInt32.reduceToNat] at hle
          omega
      | false =>
          rw [hrecovered] at hcount
          have hnext : (s.decayFlap.countFrame false isRecovered).lowerStage.stage.toNat + 1 =
              s.stage.toNat := by
            change ((s.decayFlap.countFrame false isRecovered).stage - 1).toNat + 1 = _
            rw [hstage', hstage, stage_pred hpositive]
          refine .lowered hpos hpinned ⟨rfl, hrecovered⟩ ?_ hnext (countFrame_of_not_over _ _) rfl
          rw [hrecovered] at hle
          simp only [Bool.not_false, Bool.and_self, if_true] at hcount
          omega
  | stayed hraise hlower =>
      refine .stayed (hstage'.trans hstage) (fun hlow => ?_) fun hpos hpinned => ?_
      · have hcount := hovers (hover hlow)
        refine ⟨hcount, ?_⟩
        by_contra hfull
        have hle : s.config.engageFrames ≤
            (s.decayFlap.countFrame isOver isRecovered).overFrames :=
          UInt32.le_iff_toNat_le.mpr (by omega)
        cases isOver with
        | true => exact hraise ⟨rfl, lt_two_iff.mpr hlow, hle⟩
        | false =>
            rw [hcount] at hfull
            simp only [Bool.false_eq_true, if_false] at hfull
            omega
      · have hcount := hunders (hunder hpos hpinned)
        refine ⟨hcount, ?_⟩
        by_contra hfull
        have hle : s.config.restoreFrames ≤
            (s.decayFlap.countFrame isOver isRecovered).underFrames :=
          UInt32.le_iff_toNat_le.mpr (by omega)
        cases isRecovered with
        | true =>
            obtain ⟨htwo, hheld⟩ := hlower rfl (pos_iff.mpr hpos) hle
            rw [decayFlap_of_two htwo] at hheld
            exact hpinned ⟨htwo, hheld⟩
        | false =>
            rw [hcount] at hfull
            simp only [Bool.and_false, Bool.false_eq_true, if_false] at hfull
            omega

end Step

/-! ### The guard -/

theorem raiseStage_guard (s : NdsPerfGovernorState Ms) :
    (s.stage + 1 = 2 → s.raiseStage.stage2Engagements = s.stage2Engagements + 1 ∧
      s.raiseStage.framesSinceStage2Engage = 0 ∧
      s.raiseStage.stage2Held =
        (s.stage2Held || decide (s.stage2Engagements + 1 ≥ s.config.flapEngageLimit))) ∧
    (s.stage + 1 ≠ 2 → s.raiseStage.stage2Engagements = s.stage2Engagements ∧
      s.raiseStage.framesSinceStage2Engage = s.framesSinceStage2Engage ∧
      s.raiseStage.stage2Held = s.stage2Held) := by
  unfold raiseStage
  dsimp only
  constructor
  · intro htwo
    rw [if_pos htwo]
    exact ⟨rfl, rfl, rfl⟩
  · intro hother
    rw [if_neg hother]
    exact ⟨rfl, rfl, rfl⟩

/-- The guard holds at stage 2 only, and leaves room for one more engagement
elsewhere. -/
structure Guarded (s : NdsPerfGovernorState Ms) : Prop where
  stage : s.stage.toNat ≤ 2
  held : s.stage2Held = true → s.stage = 2
  room : s.stage2Held = false →
    s.stage2Engagements = 0 ∨ s.stage2Engagements < s.config.flapEngageLimit

theorem Guarded.decayFlap {s : NdsPerfGovernorState Ms} (hs : s.Guarded) :
    s.decayFlap.Guarded ∧ (s.decayFlap.stage2Engagements = s.stage2Engagements ∨
      s.decayFlap.stage2Engagements = 0) := by
  unfold NdsPerfGovernorState.decayFlap
  split
  · dsimp only
    split
    · exact ⟨⟨hs.stage, fun h => Bool.noConfusion h, fun _ => .inl rfl⟩, .inr rfl⟩
    · exact ⟨⟨hs.stage, hs.held, hs.room⟩, .inl rfl⟩
  · exact ⟨hs, .inl rfl⟩

/-- One engagement more does not wrap the counter. -/
theorem Guarded.engagement_succ {s : NdsPerfGovernorState Ms} (hs : s.Guarded)
    (hbelow : s.stage < 2) :
    (s.stage2Engagements + 1).toNat = s.stage2Engagements.toNat + 1 ∧ s.stage2Held = false := by
  have hfree : s.stage2Held = false := by
    cases hheld : s.stage2Held with
    | true =>
        rw [hs.held hheld] at hbelow
        exact absurd hbelow (by decide)
    | false => rfl
  refine ⟨?_, hfree⟩
  cases hs.room hfree with
  | inl hzero =>
      rw [hzero]
      rfl
  | inr hlt =>
      have hlt' := UInt32.lt_iff_toNat_lt.mp hlt
      have hlimit := s.config.flapEngageLimit.toNat_lt
      rw [UInt32.toNat_add]
      simp only [UInt32.reduceToNat]
      omega

section Guard

variable {s s' : NdsPerfGovernorState Ms} {isOver isRecovered changed : Bool}
  (h : AutoStep s isOver isRecovered (changed, s')) (hs : s.Guarded)

include h hs

theorem AutoStep.guarded : s'.Guarded := by
  obtain ⟨hstage, hconfig, -⟩ := s.decayFlap_frame
  obtain ⟨hstage', hconfig', -, -, hengaged, -, hheld⟩ :=
    s.decayFlap.countFrame_frame isOver isRecovered
  obtain ⟨hdecayed, -⟩ := hs.decayFlap
  have hcounted : (s.decayFlap.countFrame isOver isRecovered).Guarded :=
    ⟨hstage'.symm ▸ hdecayed.stage, fun h => hstage'.trans (hdecayed.held (hheld ▸ h)), fun h => by
      rw [hengaged, hconfig']
      exact hdecayed.room (hheld ▸ h)⟩
  cases h with
  | raised hover hbelow hfull =>
      obtain ⟨hs', -, -, hc, -⟩ := (s.decayFlap.countFrame isOver isRecovered).raiseStage_frame
      obtain ⟨htwo, hother⟩ := (s.decayFlap.countFrame isOver isRecovered).raiseStage_guard
      have hbelow' : (s.decayFlap.countFrame isOver isRecovered).stage < 2 := by
        rw [hstage', hstage]
        exact hbelow
      obtain ⟨-, hfree⟩ := hcounted.engagement_succ hbelow'
      have hnext := stage_succ hbelow'
      have hlow := lt_two_iff.mp hbelow'
      rw [← hs'] at hnext
      by_cases hentered : (s.decayFlap.countFrame isOver isRecovered).stage + 1 = 2
      · obtain ⟨he, -, hg⟩ := htwo hentered
        refine ⟨by omega, fun _ => hs'.trans hentered, fun hnot => .inr ?_⟩
        rw [hg, Bool.or_eq_false_iff, decide_eq_false_iff_not] at hnot
        rw [he, hc]
        exact UInt32.not_le.mp hnot.2
      · obtain ⟨he, -, hg⟩ := hother hentered
        rw [hfree] at hg
        refine ⟨by omega, fun hheld' => ?_, fun _ => ?_⟩
        · rw [hg] at hheld'
          cases hheld'
        · rw [he, hc]
          exact hcounted.room hfree
  | lowered hrecovered hpositive hfull hfree =>
      have hbefore : 0 < (s.decayFlap.countFrame isOver isRecovered).stage := by
        rw [hstage', hstage]
        exact hpositive
      have hpred := stage_pred hbefore
      have hle := hcounted.stage
      refine ⟨?_, fun hheld' => ?_, hcounted.room⟩
      · change ((s.decayFlap.countFrame isOver isRecovered).stage - 1).toNat ≤ 2
        omega
      · have htwo := hdecayed.held (hheld ▸ hheld')
        exact absurd ⟨hstage ▸ htwo, hheld ▸ hheld'⟩ hfree
  | stayed hraise hlower => exact hcounted

/-- Entering stage 2 counts one engagement, and holds at the limit. -/
theorem AutoStep.entered (hbelow : s.stage < 2) (htwo : s'.stage = 2) :
    s'.stage2Engagements.toNat = s.decayFlap.stage2Engagements.toNat + 1 ∧
      s'.framesSinceStage2Engage = 0 ∧
      (s.config.flapEngageLimit.toNat ≤ s'.stage2Engagements.toNat → s'.stage2Held = true) := by
  obtain ⟨hstage, hconfig, -⟩ := s.decayFlap_frame
  obtain ⟨hstage', hconfig', -, -, hengaged, -, hheld⟩ :=
    s.decayFlap.countFrame_frame isOver isRecovered
  obtain ⟨hdecayed, -⟩ := hs.decayFlap
  cases h with
  | raised hover _ hfull =>
      obtain ⟨hs', -⟩ := (s.decayFlap.countFrame isOver isRecovered).raiseStage_frame
      obtain ⟨he, hf, hg⟩ := (s.decayFlap.countFrame isOver isRecovered).raiseStage_guard.1
        (hs' ▸ htwo)
      obtain ⟨hsucc, -⟩ := hdecayed.engagement_succ (by rwa [hstage])
      rw [hengaged] at he hg
      refine ⟨by rw [he, hsucc], hf, fun hlimit => ?_⟩
      rw [hg, Bool.or_eq_true, decide_eq_true_eq]
      refine .inr (UInt32.le_iff_toNat_le.mpr ?_)
      rw [hconfig', hconfig, ← he]
      exact hlimit
  | lowered hrecovered hpositive hfull hfree =>
      have hbefore : 0 < (s.decayFlap.countFrame isOver isRecovered).stage := by
        rw [hstage', hstage]
        exact hpositive
      have hpred := stage_pred hbefore
      have hlow := lt_two_iff.mp hbelow
      have heq := eq_two_iff.mp htwo
      change ((s.decayFlap.countFrame isOver isRecovered).stage - 1).toNat = 2 at heq
      rw [heq, hstage', hstage] at hpred
      omega
  | stayed hraise hlower =>
      rw [hstage', hstage] at htwo
      rw [htwo] at hbelow
      exact absurd hbelow (by decide)

omit hs in
/-- A step that does not enter stage 2 leaves the decayed guard. -/
theorem AutoStep.not_entered (hnot : ¬ (s.stage < 2 ∧ s'.stage = 2)) :
    s'.stage2Engagements = s.decayFlap.stage2Engagements ∧
      s'.framesSinceStage2Engage = s.decayFlap.framesSinceStage2Engage := by
  obtain ⟨-, -, -, -, hengaged, hframes, -⟩ := s.decayFlap.countFrame_frame isOver isRecovered
  cases h with
  | raised hover hbelow hfull =>
      obtain ⟨hs', -⟩ := (s.decayFlap.countFrame isOver isRecovered).raiseStage_frame
      obtain ⟨he, hf, -⟩ := (s.decayFlap.countFrame isOver isRecovered).raiseStage_guard.2
        fun htwo => hnot ⟨hbelow, hs'.trans htwo⟩
      exact ⟨he.trans hengaged, hf.trans hframes⟩
  | lowered hrecovered hpositive hfull hfree => exact ⟨hengaged, hframes⟩
  | stayed hraise hlower => exact ⟨hengaged, hframes⟩

omit hs in
theorem AutoStep.pinned (hpinned : s.Pinned) : s'.Pinned := by
  obtain ⟨hstage', -, -, -, -, -, hheld⟩ := s.decayFlap.countFrame_frame isOver isRecovered
  have hdecay := decayFlap_of_two hpinned.1
  cases h with
  | raised hover hbelow hfull =>
      rw [hpinned.1] at hbelow
      exact absurd hbelow (by decide)
  | lowered hrecovered hpositive hfull hfree =>
      rw [hdecay] at hfree
      exact absurd hpinned hfree
  | stayed hraise hlower =>
      rw [hdecay] at hstage' hheld ⊢
      exact ⟨hstage'.trans hpinned.1, hheld.trans hpinned.2⟩

end Guard

/-- Below stage 2 the guard decays by one frame, unless the window is over. -/
theorem decayFlap_guard {s : NdsPerfGovernorState Ms}
    (hroom : s.stage < 2 → s.framesSinceStage2Engage.toNat + 1 < s.config.flapWindowFrames.toNat) :
    s.decayFlap.stage2Engagements = s.stage2Engagements ∧
      s.decayFlap.framesSinceStage2Engage.toNat ≤
        s.framesSinceStage2Engage.toNat + if s.stage < 2 then 1 else 0 := by
  unfold decayFlap
  split
  · rename_i hactive
    have hlt := hroom hactive.2
    have hwindow := s.config.flapWindowFrames.toNat_lt
    have hsucc : (s.framesSinceStage2Engage + 1).toNat = s.framesSinceStage2Engage.toNat + 1 := by
      rw [UInt32.toNat_add]
      simp only [UInt32.reduceToNat]
      omega
    dsimp only
    rw [if_neg (fun hge => absurd (UInt32.le_iff_toNat_le.mp hge) (by omega)), if_pos hactive.2]
    exact ⟨rfl, hsucc.le⟩
  · exact ⟨rfl, Nat.le_add_right _ _⟩

end NdsPerfGovernorState

end NdsRecomp.Host
