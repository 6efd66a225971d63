import NdsRecomp.Library.Streak

/-!
The performance governor: one update for each frame, from the frame's timings to
the reduction stage that is to be installed. The times are of any type with the
comparisons and the sums the code takes of its doubles; nothing is asked of them.
-/

namespace NdsRecomp.Host

open Library

inductive NdsPerfGovernorMode where
  | auto
  | off
  | forceStage1
  | forceStage2
  | invalid
deriving DecidableEq

inductive NdsPerfGovernorReason where
  | none
  | initial
  | forced
  | off
  | overBudget
  | recovered
  | applyFailed
deriving DecidableEq

structure NdsPerfGovernorConfig (Ms : Type) where
  engageFrames : UInt32 := 30
  restoreFrames : UInt32 := 180
  overBudgetMarginMs : Ms
  underBudgetMarginMs : Ms
  minRecoveryDrainMs : Ms
  maxOverDrainMs : Ms
  flapEngageLimit : UInt32 := 2
  flapWindowFrames : UInt32 := 3600

structure NdsPerfGovernorSample (Ms : Type) where
  emuMs : Ms
  drainMs : Ms
  budgetMs : Ms
  underrunsDelta : UInt64 := 0
  headroomValid : Bool := false

structure NdsPerfGovernorState (Ms : Type) where
  mode : NdsPerfGovernorMode := .auto
  config : NdsPerfGovernorConfig Ms
  stage : UInt8 := 0
  overFrames : UInt32 := 0
  underFrames : UInt32 := 0
  stage2Engagements : UInt32 := 0
  framesSinceStage2Engage : UInt32 := 0
  stage2Held : Bool := false
  applyFailed : Bool := false
  lastReason : NdsPerfGovernorReason := .none

namespace NdsPerfGovernorState

variable {Ms : Type}

def ndsPerfGovernorInit (mode : NdsPerfGovernorMode) (config : NdsPerfGovernorConfig Ms) :
    NdsPerfGovernorState Ms :=
  let stage : UInt8 :=
    match mode with
    | .forceStage1 => 1
    | .forceStage2 => 2
    | _ => 0
  { mode, config, stage, lastReason := if stage ≠ 0 then .initial else .none }

def markApplyFailed (s : NdsPerfGovernorState Ms) : NdsPerfGovernorState Ms :=
  { s with applyFailed := true, overFrames := 0, underFrames := 0, lastReason := .applyFailed }

/-- The flap guard's window, which only frames below stage 2 count in. -/
def decayFlap (s : NdsPerfGovernorState Ms) : NdsPerfGovernorState Ms :=
  if s.stage2Engagements ≠ 0 ∧ s.stage < 2 then
    let frames := s.framesSinceStage2Engage + 1
    if frames ≥ s.config.flapWindowFrames then
      { s with stage2Engagements := 0, framesSinceStage2Engage := 0, stage2Held := false }
    else { s with framesSinceStage2Engage := frames }
  else s

/-- The saturating counters. -/
def countFrame (s : NdsPerfGovernorState Ms) (isOver isRecovered : Bool) : NdsPerfGovernorState Ms :=
  if isOver then
    { s with overFrames := min (s.overFrames + 1) s.config.engageFrames, underFrames := 0 }
  else if isRecovered then
    { s with underFrames := min (s.underFrames + 1) s.config.restoreFrames, overFrames := 0 }
  else { s with overFrames := 0, underFrames := 0 }

def raiseStage (s : NdsPerfGovernorState Ms) : NdsPerfGovernorState Ms :=
  let s := { s with stage := s.stage + 1, overFrames := 0, lastReason := .overBudget }
  if s.stage = 2 then
    let engagements := s.stage2Engagements + 1
    { s with
      stage2Engagements := engagements
      framesSinceStage2Engage := 0
      stage2Held := s.stage2Held || decide (engagements ≥ s.config.flapEngageLimit) }
  else s

def lowerStage (s : NdsPerfGovernorState Ms) : NdsPerfGovernorState Ms :=
  { s with stage := s.stage - 1, underFrames := 0, lastReason := .recovered }

def switchOff (s : NdsPerfGovernorState Ms) : Bool × NdsPerfGovernorState Ms :=
  let changed := decide (s.stage ≠ 0)
  (changed,
    { s with
      stage := 0, overFrames := 0, underFrames := 0, stage2Engagements := 0
      framesSinceStage2Engage := 0, stage2Held := false
      lastReason := if changed then .off else s.lastReason })

def forceStage (s : NdsPerfGovernorState Ms) (forced : UInt8) : Bool × NdsPerfGovernorState Ms :=
  let changed := decide (s.stage ≠ forced)
  (changed,
    { s with
      stage := forced, overFrames := 0, underFrames := 0
      lastReason := if changed then .forced else s.lastReason })

section Update

variable [Add Ms] [Sub Ms] [LT Ms] [LE Ms] [DecidableLT Ms] [DecidableLE Ms]

def overBudget (cfg : NdsPerfGovernorConfig Ms) (sample : NdsPerfGovernorSample Ms) : Bool :=
  let drainOver := sample.headroomValid && decide (sample.drainMs ≤ cfg.maxOverDrainMs)
  sample.underrunsDelta != 0 ||
    decide (sample.budgetMs + cfg.overBudgetMarginMs < sample.emuMs) || drainOver

def recovered (cfg : NdsPerfGovernorConfig Ms) (sample : NdsPerfGovernorSample Ms) : Bool :=
  let drainRecovered := !sample.headroomValid || decide (cfg.minRecoveryDrainMs ≤ sample.drainMs)
  sample.underrunsDelta == 0 &&
    decide (sample.emuMs < sample.budgetMs - cfg.underBudgetMarginMs) && drainRecovered

/-- The part of the update that automatic mode reaches. -/
def updateAuto (s : NdsPerfGovernorState Ms) (sample : NdsPerfGovernorSample Ms) :
    Bool × NdsPerfGovernorState Ms :=
  let isOver := overBudget s.config sample
  let isRecovered := recovered s.config sample
  let s := s.decayFlap.countFrame isOver isRecovered
  if isOver = true ∧ s.overFrames ≥ s.config.engageFrames ∧ s.stage < 2 then (true, s.raiseStage)
  else if isRecovered = true ∧ s.underFrames ≥ s.config.restoreFrames ∧ s.stage > 0 then
    if s.stage = 2 ∧ s.stage2Held = true then (false, s) else (true, s.lowerStage)
  else (false, s)

def ndsPerfGovernorUpdate (s : NdsPerfGovernorState Ms) (sample : NdsPerfGovernorSample Ms) :
    Bool × NdsPerfGovernorState Ms :=
  if s.applyFailed then (false, s)
  else
    match s.mode with
    | .off => s.switchOff
    | .forceStage1 => s.forceStage 1
    | .forceStage2 => s.forceStage 2
    | .auto | .invalid => s.updateAuto sample

end Update

/-! ### One sample in automatic mode -/

section Fields

variable (s : NdsPerfGovernorState Ms) (isOver isRecovered : Bool)

/-- The decay touches the guard only. -/
theorem decayFlap_frame :
    s.decayFlap.stage = s.stage ∧ s.decayFlap.config = s.config ∧ s.decayFlap.mode = s.mode ∧
      s.decayFlap.applyFailed = s.applyFailed ∧ s.decayFlap.overFrames = s.overFrames ∧
      s.decayFlap.underFrames = s.underFrames := by
  unfold decayFlap
  split
  · dsimp only
    split <;> exact ⟨rfl, rfl, rfl, rfl, rfl, rfl⟩
  · exact ⟨rfl, rfl, rfl, rfl, rfl, rfl⟩

/-- The counting touches the counters only. -/
theorem countFrame_frame :
    let s' := s.countFrame isOver isRecovered
    s'.stage = s.stage ∧ s'.config = s.config ∧ s'.mode = s.mode ∧
      s'.applyFailed = s.applyFailed ∧ s'.stage2Engagements = s.stage2Engagements ∧
      s'.framesSinceStage2Engage = s.framesSinceStage2Engage ∧ s'.stage2Held = s.stage2Held := by
  unfold countFrame
  dsimp only
  split
  · exact ⟨rfl, rfl, rfl, rfl, rfl, rfl, rfl⟩
  · split <;> exact ⟨rfl, rfl, rfl, rfl, rfl, rfl, rfl⟩

end Fields

/-- What one sample does, given its class: the stage goes up, comes down, or stays. -/
inductive AutoStep (s : NdsPerfGovernorState Ms) (isOver isRecovered : Bool) :
    Bool × NdsPerfGovernorState Ms → Prop where
  | raised (hover : isOver = true) (hstage : s.stage < 2)
      (hfull : s.config.engageFrames ≤ (s.decayFlap.countFrame isOver isRecovered).overFrames) :
      AutoStep s isOver isRecovered
        (true, (s.decayFlap.countFrame isOver isRecovered).raiseStage)
  | lowered (hrecovered : isRecovered = true) (hstage : 0 < s.stage)
      (hfull : s.config.restoreFrames ≤ (s.decayFlap.countFrame isOver isRecovered).underFrames)
      (hheld : ¬ (s.stage = 2 ∧ s.decayFlap.stage2Held = true)) :
      AutoStep s isOver isRecovered
        (true, (s.decayFlap.countFrame isOver isRecovered).lowerStage)
  | stayed
      (hraise : ¬ (isOver = true ∧ s.stage < 2 ∧
        s.config.engageFrames ≤ (s.decayFlap.countFrame isOver isRecovered).overFrames))
      (hlower : isRecovered = true → 0 < s.stage →
        s.config.restoreFrames ≤ (s.decayFlap.countFrame isOver isRecovered).underFrames →
          s.stage = 2 ∧ s.decayFlap.stage2Held = true) :
      AutoStep s isOver isRecovered (false, s.decayFlap.countFrame isOver isRecovered)

theorem updateAuto_step [Add Ms] [Sub Ms] [LT Ms] [LE Ms] [DecidableLT Ms] [DecidableLE Ms]
    (s : NdsPerfGovernorState Ms) (sample : NdsPerfGovernorSample Ms) :
    AutoStep s (overBudget s.config sample) (recovered s.config sample) (s.updateAuto sample) := by
  obtain ⟨hstage, hconfig, -, -, -, -⟩ := s.decayFlap_frame
  obtain ⟨hstage', hconfig', -, -, -, -, hheld'⟩ :=
    s.decayFlap.countFrame_frame (overBudget s.config sample) (recovered s.config sample)
  unfold updateAuto
  dsimp only
  rw [hstage', hconfig', hheld', hstage, hconfig]
  split
  · rename_i hraise
    exact .raised hraise.1 hraise.2.2 hraise.2.1
  rename_i hraise
  split
  · rename_i hlower
    split
    · rename_i hheld
      exact .stayed (fun h => hraise ⟨h.1, h.2.2, h.2.1⟩) fun _ _ _ => hheld
    · rename_i hheld
      exact .lowered hlower.1 hlower.2.2 hlower.2.1 hheld
  · rename_i hlower
    exact .stayed (fun h => hraise ⟨h.1, h.2.2, h.2.1⟩)
      fun hrecovered hpositive hfull => absurd ⟨hrecovered, hfull, hpositive⟩ hlower

end NdsPerfGovernorState

end NdsRecomp.Host
