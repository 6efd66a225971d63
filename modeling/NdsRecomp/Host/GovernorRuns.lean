import NdsRecomp.Host.GovernorStep

/-!
The governor over whole sequences of samples: what a stage change says about the
samples before it, and what the flap guard holds.
-/

namespace NdsRecomp.Host

open Library

namespace NdsPerfGovernorState

variable {Ms : Type}

/-! ### Sequences of samples -/

section Runs

variable [Add Ms] [Sub Ms] [LT Ms] [LE Ms] [DecidableLT Ms] [DecidableLE Ms]
variable (cfg : NdsPerfGovernorConfig Ms) (samples : Nat → NdsPerfGovernorSample Ms)

/-- The governor, set to automatic, after `k` samples. -/
def stateAfter : Nat → NdsPerfGovernorState Ms
  | 0 => ndsPerfGovernorInit .auto cfg
  | k + 1 => ((stateAfter k).ndsPerfGovernorUpdate (samples k)).2

/-- What the update with sample `k` answers. -/
def answer (k : Nat) : Bool := ((stateAfter cfg samples k).ndsPerfGovernorUpdate (samples k)).1

def stageAfter (k : Nat) : UInt8 := (stateAfter cfg samples k).stage

/-- Sample `k` was over budget and left the stage alone. -/
def OverKept (k : Nat) : Prop :=
  overBudget cfg (samples k) = true ∧ stageAfter cfg samples (k + 1) = stageAfter cfg samples k

/-- Sample `k` was a recovered one and left the stage alone. -/
def RecoveredKept (k : Nat) : Prop :=
  (overBudget cfg (samples k) = false ∧ recovered cfg (samples k) = true) ∧
    stageAfter cfg samples (k + 1) = stageAfter cfg samples k

instance : DecidablePred (OverKept cfg samples) := fun _ => inferInstanceAs (Decidable (_ ∧ _))

instance : DecidablePred (RecoveredKept cfg samples) :=
  fun _ => inferInstanceAs (Decidable ((_ ∧ _) ∧ _))

/-- The counters are the streaks since the last change. -/
structure Disciplined (k : Nat) : Prop where
  mode : (stateAfter cfg samples k).mode = .auto
  config : (stateAfter cfg samples k).config = cfg
  running : (stateAfter cfg samples k).applyFailed = false
  guarded : (stateAfter cfg samples k).Guarded
  overStreak : (stageAfter cfg samples k).toNat < 2 →
    (stateAfter cfg samples k).overFrames.toNat = streak (OverKept cfg samples) k ∧
      (stateAfter cfg samples k).overFrames.toNat < cfg.engageFrames.toNat
  underStreak : 0 < (stageAfter cfg samples k).toNat → ¬ (stateAfter cfg samples k).Pinned →
    (stateAfter cfg samples k).underFrames.toNat = streak (RecoveredKept cfg samples) k ∧
      (stateAfter cfg samples k).underFrames.toNat < cfg.restoreFrames.toNat

variable {cfg samples}

theorem Disciplined.step {k : Nat} (h : Disciplined cfg samples k) :
    AutoStep (stateAfter cfg samples k) (overBudget cfg (samples k)) (recovered cfg (samples k))
      (answer cfg samples k, stateAfter cfg samples (k + 1)) := by
  have hauto : (stateAfter cfg samples k).ndsPerfGovernorUpdate (samples k) =
      (stateAfter cfg samples k).updateAuto (samples k) := by
    unfold ndsPerfGovernorUpdate
    rw [if_neg (by rw [h.running]; exact Bool.false_ne_true), h.mode]
  have hstep := updateAuto_step (stateAfter cfg samples k) (samples k)
  rw [h.config, ← hauto] at hstep
  exact hstep

variable (hengage : 0 < cfg.engageFrames) (hrestore : 0 < cfg.restoreFrames)

include hengage hrestore

theorem Disciplined.counted {k : Nat} (h : Disciplined cfg samples k) :
    Counted (stateAfter cfg samples k) (stateAfter cfg samples (k + 1))
      (overBudget cfg (samples k)) (recovered cfg (samples k)) (answer cfg samples k) := by
  have hconfig := h.config
  exact h.step.counted (hconfig.symm ▸ hengage) (hconfig.symm ▸ hrestore)
    (fun hlow => hconfig.symm ▸ (h.overStreak hlow).2) fun hpos hfree => hconfig.symm ▸ (h.underStreak hpos hfree).2

theorem Disciplined.overStreak_succ {k : Nat} (h : Disciplined cfg samples k)
    (hlow : (stageAfter cfg samples (k + 1)).toNat < 2) :
    (stateAfter cfg samples (k + 1)).overFrames.toNat = streak (OverKept cfg samples) (k + 1) ∧
      (stateAfter cfg samples (k + 1)).overFrames.toNat < cfg.engageFrames.toNat := by
  have hcounted := h.counted hengage hrestore
  generalize hanswer : answer cfg samples k = changed at hcounted
  cases changed with
  | true =>
      obtain ⟨hmoved, hzero, -⟩ := hcounted.moved
      rw [hzero, streak_succ_of_not fun hkept => hmoved hkept.2]
      exact ⟨rfl, UInt32.lt_iff_toNat_lt.mp hengage⟩
  | false =>
      cases hcounted with
      | stayed hnext hover hunder =>
          unfold stageAfter at hlow
          rw [hnext] at hlow
          obtain ⟨hcount, hbound⟩ := hover hlow
          rw [h.config] at hbound
          refine ⟨?_, hbound⟩
          rw [hcount]
          cases hclass : overBudget cfg (samples k) with
          | true =>
              rw [if_pos rfl, streak_succ_of (show OverKept cfg samples k from ⟨hclass, hnext⟩),
                (h.overStreak hlow).1]
          | false =>
              have hnot : ¬ OverKept cfg samples k :=
                fun hkept => Bool.false_ne_true (hclass.symm.trans hkept.1)
              rw [streak_succ_of_not hnot]
              rfl

theorem Disciplined.underStreak_succ {k : Nat} (h : Disciplined cfg samples k)
    (hpos : 0 < (stageAfter cfg samples (k + 1)).toNat)
    (hfree : ¬ (stateAfter cfg samples (k + 1)).Pinned) :
    (stateAfter cfg samples (k + 1)).underFrames.toNat =
        streak (RecoveredKept cfg samples) (k + 1) ∧
      (stateAfter cfg samples (k + 1)).underFrames.toNat < cfg.restoreFrames.toNat := by
  have hcounted := h.counted hengage hrestore
  generalize hanswer : answer cfg samples k = changed at hcounted
  cases changed with
  | true =>
      obtain ⟨hmoved, -, hzero⟩ := hcounted.moved
      rw [hzero, streak_succ_of_not fun hkept => hmoved hkept.2]
      exact ⟨rfl, UInt32.lt_iff_toNat_lt.mp hrestore⟩
  | false =>
      cases hcounted with
      | stayed hnext hover hunder =>
          unfold stageAfter at hpos
          rw [hnext] at hpos
          have hfree' : ¬ (stateAfter cfg samples k).Pinned :=
            fun hpinned => hfree (h.step.pinned hpinned)
          obtain ⟨hcount, hbound⟩ := hunder hpos hfree'
          rw [h.config] at hbound
          refine ⟨?_, hbound⟩
          rw [hcount]
          by_cases hclass : overBudget cfg (samples k) = false ∧ recovered cfg (samples k) = true
          · rw [hclass.1, hclass.2,
              streak_succ_of (show RecoveredKept cfg samples k from ⟨hclass, hnext⟩),
              (h.underStreak hpos hfree').1]
            rfl
          · rw [streak_succ_of_not fun hkept => hclass hkept.1, if_neg]
            rw [Bool.and_eq_true, Bool.not_eq_true']
            exact hclass

theorem disciplined (k : Nat) : Disciplined cfg samples k := by
  induction k with
  | zero =>
      exact ⟨rfl, rfl, rfl,
        ⟨(by decide : (0 : UInt8).toNat ≤ 2), fun h => Bool.noConfusion h, fun _ => .inl rfl⟩,
        fun _ => ⟨rfl, UInt32.lt_iff_toNat_lt.mp hengage⟩,
        fun _ _ => ⟨rfl, UInt32.lt_iff_toNat_lt.mp hrestore⟩⟩
  | succ k ih =>
      obtain ⟨hconfig, hmode, hfailed⟩ := ih.step.frame
      exact ⟨hmode.trans ih.mode, hconfig.trans ih.config, hfailed.trans ih.running,
        ih.step.guarded ih.guarded, ih.overStreak_succ hengage hrestore,
        ih.underStreak_succ hengage hrestore⟩

/-- A raise or a restore, and the streak that led to it. -/
theorem answer_spec (k : Nat) :
    (answer cfg samples k = true ↔ stageAfter cfg samples (k + 1) ≠ stageAfter cfg samples k) ∧
      ((stageAfter cfg samples (k + 1)).toNat = (stageAfter cfg samples k).toNat + 1 ∧
          overBudget cfg (samples k) = true ∧
          streak (OverKept cfg samples) k + 1 = cfg.engageFrames.toNat ∨
        (stageAfter cfg samples (k + 1)).toNat + 1 = (stageAfter cfg samples k).toNat ∧
          (overBudget cfg (samples k) = false ∧ recovered cfg (samples k) = true) ∧
          streak (RecoveredKept cfg samples) k + 1 = cfg.restoreFrames.toNat ∨
        stageAfter cfg samples (k + 1) = stageAfter cfg samples k) := by
  have h : Disciplined cfg samples k := disciplined hengage hrestore _
  have hcounted := h.counted hengage hrestore
  have hconfig := h.config
  generalize answer cfg samples k = changed at hcounted
  cases hcounted with
  | raised hstage hover hfull hnext hoverFrames hunderFrames =>
      have hne : stageAfter cfg samples (k + 1) ≠ stageAfter cfg samples k := fun heq => by
        have := congrArg UInt8.toNat heq
        unfold stageAfter at this
        omega
      refine ⟨iff_of_true rfl hne, .inl ⟨hnext, hover, ?_⟩⟩
      rw [← (h.overStreak hstage).1, hfull, hconfig]
  | lowered hstage hfree hrecovered hfull hnext hoverFrames hunderFrames =>
      have hne : stageAfter cfg samples (k + 1) ≠ stageAfter cfg samples k := fun heq => by
        have := congrArg UInt8.toNat heq
        unfold stageAfter at this
        omega
      refine ⟨iff_of_true rfl hne, .inr (.inl ⟨hnext, hrecovered, ?_⟩)⟩
      rw [← (h.underStreak hstage hfree).1, hfull, hconfig]
  | stayed hnext hover hunder =>
      exact ⟨iff_of_false Bool.false_ne_true (not_not.mpr hnext), .inr (.inr hnext)⟩

/-! ### Flapping -/

omit hengage hrestore in
variable (cfg samples) in
/-- Sample `k` brought the stage to 2. -/
def Enters (k : Nat) : Prop :=
  stageAfter cfg samples k < 2 ∧ stageAfter cfg samples (k + 1) = 2

omit hengage hrestore in
variable (cfg samples) in
/-- The samples after sample `i`, up to sample `j`, whose frames were spent below
stage 2. -/
def framesBelow (i j : Nat) : Nat :=
  ((Finset.Ioc i j).filter fun m => stageAfter cfg samples m < 2).card

omit hengage hrestore in
theorem framesBelow_succ (i k : Nat) (hik : i ≤ k) :
    framesBelow cfg samples i (k + 1) =
      framesBelow cfg samples i k + if stageAfter cfg samples (k + 1) < 2 then 1 else 0 := by
  have hinsert : Finset.Ioc i (k + 1) = insert (k + 1) (Finset.Ioc i k) := by
    ext m
    simp only [Finset.mem_Ioc, Finset.mem_insert]
    omega
  unfold framesBelow
  rw [hinsert, Finset.filter_insert]
  split
  · rw [Finset.card_insert_of_notMem]
    simp
  · rfl

omit hengage hrestore in
theorem framesBelow_mono {i k j : Nat} (hkj : k ≤ j) :
    framesBelow cfg samples i k ≤ framesBelow cfg samples i j :=
  Finset.card_le_card (Finset.filter_subset_filter _ (Finset.Ioc_subset_Ioc_right hkj))

/-- From an entry on, for as long as the window lasts, the engagements stay
counted. -/
theorem engagements_kept {i n : Nat} (hentered : n ≤ (stateAfter cfg samples (i + 1)).stage2Engagements.toNat)
    (hstart : (stateAfter cfg samples (i + 1)).framesSinceStage2Engage = 0) (k : Nat)
    (hwindow : framesBelow cfg samples i (i + k) < cfg.flapWindowFrames.toNat) :
    n ≤ (stateAfter cfg samples (i + 1 + k)).stage2Engagements.toNat ∧
      (stateAfter cfg samples (i + 1 + k)).framesSinceStage2Engage.toNat ≤
        framesBelow cfg samples i (i + k) := by
  induction k with
  | zero =>
      rw [Nat.add_zero, hstart]
      exact ⟨hentered, Nat.zero_le _⟩
  | succ k ih =>
      have hsucc : framesBelow cfg samples i (i + k + 1) = _ := framesBelow_succ i (i + k) (by omega)
      have hindex : i + (k + 1) = i + k + 1 := by omega
      rw [hindex] at hwindow ⊢
      obtain ⟨hcount, hframes⟩ := ih (by omega)
      have h : Disciplined cfg samples (i + 1 + k) := disciplined hengage hrestore _
      have hstage : stageAfter cfg samples (i + k + 1) = (stateAfter cfg samples (i + 1 + k)).stage := by
        unfold stageAfter
        rw [show i + k + 1 = i + 1 + k by omega]
      rw [hstage] at hsucc
      have hnext : i + 1 + (k + 1) = i + 1 + k + 1 := by omega
      rw [hnext]
      obtain ⟨hengaged, hdecay⟩ := decayFlap_guard (s := stateAfter cfg samples (i + 1 + k))
        fun hlow => by
          rw [if_pos hlow] at hsucc
          rw [h.config]
          omega
      by_cases hentry : (stateAfter cfg samples (i + 1 + k)).stage < 2 ∧
          (stateAfter cfg samples (i + 1 + k + 1)).stage = 2
      · obtain ⟨hmore, hzero, -⟩ := h.step.entered h.guarded hentry.1 hentry.2
        rw [hmore, hzero, hengaged]
        exact ⟨by omega, Nat.zero_le _⟩
      · obtain ⟨hsame, hkept⟩ := h.step.not_entered hentry
        rw [hsame, hkept, hengaged, hsucc]
        exact ⟨hcount, by omega⟩

/-- Entries that follow one another within the window are all counted, and the
one that reaches the limit is the last. -/
theorem pinned_of_entries {n : Nat} (entry : Nat → Nat)
    (hlimit : cfg.flapEngageLimit.toNat ≤ n + 1)
    (hentries : ∀ i ≤ n, Enters cfg samples (entry i))
    (hwindow : ∀ i < n, entry i < entry (i + 1) ∧
      framesBelow cfg samples (entry i) (entry (i + 1)) < cfg.flapWindowFrames.toNat) :
    ∀ m, entry n < m → stageAfter cfg samples m = 2 := by
  have hcounted (i : Nat) (hi : i ≤ n) :
      i + 1 ≤ (stateAfter cfg samples (entry i + 1)).stage2Engagements.toNat := by
    induction i with
    | zero =>
        have h : Disciplined cfg samples (entry 0) := disciplined hengage hrestore _
        obtain ⟨hmore, -⟩ := h.step.entered h.guarded (hentries 0 hi).1 (hentries 0 hi).2
        omega
    | succ i ih =>
        obtain ⟨hlt, hframes⟩ := hwindow i (by omega)
        have hlast : Disciplined cfg samples (entry i) := disciplined hengage hrestore _
        obtain ⟨-, hzero, -⟩ := hlast.step.entered hlast.guarded (hentries i (by omega)).1
          (hentries i (by omega)).2
        obtain ⟨k, hk⟩ := Nat.exists_eq_add_of_le (by omega : entry i + 1 ≤ entry (i + 1))
        have hearlier : framesBelow cfg samples (entry i) (entry i + k) ≤
            framesBelow cfg samples (entry i) (entry (i + 1)) := framesBelow_mono (by omega)
        obtain ⟨hkept, hsince⟩ := engagements_kept hengage hrestore (ih (by omega)) hzero k
          (by omega)
        rw [← hk] at hkept hsince
        have h : Disciplined cfg samples (entry (i + 1)) := disciplined hengage hrestore _
        have hentry := hentries (i + 1) hi
        have hsucc : framesBelow cfg samples (entry i) (entry i + k + 1) = _ :=
          framesBelow_succ (entry i) (entry i + k) (by omega)
        have hindex : entry i + k + 1 = entry (i + 1) := by omega
        rw [hindex, if_pos hentry.1] at hsucc
        obtain ⟨hengaged, -⟩ := decayFlap_guard (s := stateAfter cfg samples (entry (i + 1)))
          fun _ => by
            rw [h.config]
            omega
        obtain ⟨hmore, -⟩ := h.step.entered h.guarded hentry.1 hentry.2
        rw [hmore, hengaged]
        omega
  have h : Disciplined cfg samples (entry n) := disciplined hengage hrestore _
  obtain ⟨-, -, hheld⟩ := h.step.entered h.guarded (hentries n (le_refl n)).1
    (hentries n (le_refl n)).2
  have hpinned : (stateAfter cfg samples (entry n + 1)).Pinned := by
    refine ⟨(hentries n (le_refl n)).2, hheld ?_⟩
    have := hcounted n (le_refl n)
    rw [h.config]
    omega
  intro m hm
  obtain ⟨k, rfl⟩ := Nat.exists_eq_add_of_le (by omega : entry n + 1 ≤ m)
  have hstays (k : Nat) : (stateAfter cfg samples (entry n + 1 + k)).Pinned := by
    induction k with
    | zero => exact hpinned
    | succ k ih =>
        have h : Disciplined cfg samples (entry n + 1 + k) := disciplined hengage hrestore _
        exact h.step.pinned ih
  exact (hstays k).1

omit hengage hrestore in
/-- A failed governor stays as it is. -/
theorem update_of_failed {s : NdsPerfGovernorState Ms} (h : s.applyFailed = true)
    (sample : NdsPerfGovernorSample Ms) : s.ndsPerfGovernorUpdate sample = (false, s) :=
  if_pos h

omit hengage hrestore in
theorem updates_of_failed {s : NdsPerfGovernorState Ms} (h : s.applyFailed = true)
    (more : List (NdsPerfGovernorSample Ms)) :
    more.foldl (fun s sample => (s.ndsPerfGovernorUpdate sample).2) s = s := by
  induction more with
  | nil => rfl
  | cons sample more ih => rwa [List.foldl_cons, update_of_failed h]

/-- What every sequence of samples in automatic mode shows, and what a failure to
apply a stage ends. -/
theorem governor_discipline :
    (∀ k, stageAfter cfg samples k ≤ 2) ∧
    (∀ k, (answer cfg samples k = true ↔
        stageAfter cfg samples (k + 1) ≠ stageAfter cfg samples k) ∧
      (answer cfg samples k = true →
        (stageAfter cfg samples (k + 1)).toNat = (stageAfter cfg samples k).toNat + 1 ∨
          (stageAfter cfg samples (k + 1)).toNat + 1 = (stageAfter cfg samples k).toNat)) ∧
    (∀ k, stageAfter cfg samples k < stageAfter cfg samples (k + 1) →
      overBudget cfg (samples k) = true ∧
      ∃ start, start + cfg.engageFrames.toNat = k + 1 ∧ ∀ j, start ≤ j → j < k →
        overBudget cfg (samples j) = true ∧
          stageAfter cfg samples (j + 1) = stageAfter cfg samples j) ∧
    (∀ k, stageAfter cfg samples (k + 1) < stageAfter cfg samples k →
      (overBudget cfg (samples k) = false ∧ recovered cfg (samples k) = true) ∧
      ∃ start, start + cfg.restoreFrames.toNat = k + 1 ∧ ∀ j, start ≤ j → j < k →
        (overBudget cfg (samples j) = false ∧ recovered cfg (samples j) = true) ∧
          stageAfter cfg samples (j + 1) = stageAfter cfg samples j) ∧
    (∀ (n : Nat) (entry : Nat → Nat), cfg.flapEngageLimit.toNat ≤ n + 1 →
      (∀ i ≤ n, Enters cfg samples (entry i)) →
      (∀ i < n, entry i < entry (i + 1) ∧
        framesBelow cfg samples (entry i) (entry (i + 1)) < cfg.flapWindowFrames.toNat) →
      ∀ m, entry n < m → stageAfter cfg samples m = 2) ∧
    ∀ (s : NdsPerfGovernorState Ms) (more : List (NdsPerfGovernorSample Ms))
        (sample : NdsPerfGovernorSample Ms),
      (more.foldl (fun s sample => (s.ndsPerfGovernorUpdate sample).2) s.markApplyFailed).stage =
          s.stage ∧
        ((more.foldl (fun s sample => (s.ndsPerfGovernorUpdate sample).2)
          s.markApplyFailed).ndsPerfGovernorUpdate sample).1 = false := by
  refine ⟨fun k => ?_, fun k => ?_, fun k hup => ?_, fun k hdown => ?_,
    fun n entry hlimit hentries hwindow => ?_, fun s more sample => ?_⟩
  · exact UInt8.le_iff_toNat_le.mpr (disciplined hengage hrestore k).guarded.stage
  · obtain ⟨hiff, hcases⟩ : (answer cfg samples k = true ↔ _) ∧ _ := answer_spec hengage hrestore k
    refine ⟨hiff, fun hanswer => ?_⟩
    obtain hraised | hlowered | hsame := hcases
    · exact .inl hraised.1
    · exact .inr hlowered.1
    · exact absurd hsame (hiff.mp hanswer)
  · have hlt := UInt8.lt_iff_toNat_lt.mp hup
    obtain ⟨-, hraised | hlowered | hsame⟩ : (answer cfg samples k = true ↔ _) ∧ _ :=
      answer_spec hengage hrestore k
    · exact ⟨hraised.2.1, streak_window hraised.2.2⟩
    · omega
    · rw [hsame] at hlt
      exact absurd hlt (lt_irrefl _)
  · have hlt := UInt8.lt_iff_toNat_lt.mp hdown
    obtain ⟨-, hraised | hlowered | hsame⟩ : (answer cfg samples k = true ↔ _) ∧ _ :=
      answer_spec hengage hrestore k
    · omega
    · exact ⟨hlowered.2.1, streak_window hlowered.2.2⟩
    · rw [hsame] at hlt
      exact absurd hlt (lt_irrefl _)
  · exact pinned_of_entries hengage hrestore entry hlimit hentries hwindow
  · rw [updates_of_failed rfl]
    exact ⟨rfl, congrArg Prod.fst (update_of_failed rfl sample)⟩

end Runs

/-- Two frames over budget engage, three recovered ones restore. -/
def quickConfig : NdsPerfGovernorConfig Int where
  engageFrames := 2
  restoreFrames := 3
  overBudgetMarginMs := 1
  underBudgetMarginMs := 2
  minRecoveryDrainMs := 2
  maxOverDrainMs := 0

/-- A host that takes 40 of its 16 milliseconds for every frame. -/
def slowFrames (_ : Nat) : NdsPerfGovernorSample Int where
  emuMs := 40
  drainMs := 0
  budgetMs := 16

theorem slowFrames_disciplined :
    stageAfter quickConfig slowFrames 4 = 2 ∧ stageAfter quickConfig slowFrames 3 = 1 ∧
      ∃ start, start + 2 = 4 ∧ ∀ j, start ≤ j → j < 3 →
        overBudget quickConfig (slowFrames j) = true ∧
          stageAfter quickConfig slowFrames (j + 1) = stageAfter quickConfig slowFrames j := by
  obtain ⟨-, -, hup, -⟩ : (∀ k, stageAfter quickConfig slowFrames k ≤ 2) ∧ _ :=
    governor_discipline (by decide) (by decide)
  exact ⟨by decide, by decide, (hup 3 (by decide)).2⟩

end NdsPerfGovernorState

end NdsRecomp.Host
