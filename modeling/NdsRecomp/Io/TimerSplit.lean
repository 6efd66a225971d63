import NdsRecomp.Io.TimerSystem

/-!
A catch-up in two parts is one catch-up. A timer's overflows over both parts are the
overflows over the whole, so the next timer is handed the same count, and this carries
through the cascade.
-/

namespace NdsRecomp.Io

open Bus Library

/-! ### One timer -/

namespace Timer

theorem reloadCounter_setCounter (T : Timer) {counter : UInt16} {c : ReloadCounter 0x10000}
    (hcounter : counter.toNat = c.position) (hreload : T.reload.toNat = c.reload) :
    (T.setCounter counter).reloadCounter = c :=
  ReloadCounter.ext hcounter hreload

theorem reloadCounter_advance (T : Timer) (ticks : UInt64) :
    (T.advance ticks).1.reloadCounter = T.reloadCounter.after ticks.toNat := by
  rw [advance_fst]
  exact T.reloadCounter_setCounter (T.counterAfter_toNat ticks) rfl

theorem setCounter_setCounter (T : Timer) (counter counter' : UInt16) :
    (T.setCounter counter).setCounter counter' = T.setCounter counter' := rfl

/-- The counter over two runs of ticks. -/
theorem advance_add (T : Timer) {first second : UInt64}
    (hwrap : first.toNat + second.toNat < 2 ^ 64) :
    T.advance (first + second) =
      (((T.advance first).1.advance second).1,
        (T.advance first).2 + ((T.advance first).1.advance second).2) := by
  have hsum : (first + second).toNat = first.toNat + second.toNat := by
    rw [UInt64.toNat_add]
    exact Nat.mod_eq_of_lt hwrap
  have hafter := T.reloadCounter_advance first
  have hcounter : T.counterAfter (first + second) = (T.advance first).1.counterAfter second := by
    apply UInt16.toNat_inj.mp
    rw [counterAfter_toNat, counterAfter_toNat, hafter, hsum, ReloadCounter.after_add]
  have hoverflows : T.overflowsIn (first + second) =
      T.overflowsIn first + (T.advance first).1.overflowsIn second := by
    have hle := T.reloadCounter.overflows_le (first.toNat + second.toNat)
    apply UInt64.toNat_inj.mp
    rw [ReloadCounter.overflows_add] at hle
    rw [UInt64.toNat_add, overflowsIn_toNat, overflowsIn_toNat, overflowsIn_toNat, hafter, hsum,
      ReloadCounter.overflows_add]
    exact (Nat.mod_eq_of_lt (Nat.lt_of_le_of_lt hle hwrap)).symm
  refine Prod.ext ?_ ?_
  · rw [advance_fst, advance_fst, hcounter, advance_fst T, setCounter_setCounter]
  · rw [advance_snd, advance_snd, advance_snd]
    exact hoverflows

theorem advance_overflows_bound (T : Timer) {first second : UInt64}
    (hwrap : first.toNat + second.toNat < 2 ^ 64) :
    (T.advance first).2.toNat + ((T.advance first).1.advance second).2.toNat < 2 ^ 64 := by
  have hle := T.reloadCounter.overflows_le (first.toNat + second.toNat)
  rw [ReloadCounter.overflows_add] at hle
  rw [advance_snd, advance_snd, overflowsIn_toNat, overflowsIn_toNat, reloadCounter_advance]
  exact Nat.lt_of_le_of_lt hle hwrap

/-- The ticks of a clocked timer over two parts of the time, and their bound. -/
structure SplitTicks (T : Timer) (d₁ d₂ k₁ k₂ : UInt64) : Prop where
  timer : (T.clocked (d₁ + d₂) (k₁ + k₂)).1 =
    ((T.clocked d₁ k₁).1.clocked d₂ k₂).1
  ticks : (T.clocked (d₁ + d₂) (k₁ + k₂)).2 =
    (T.clocked d₁ k₁).2 + ((T.clocked d₁ k₁).1.clocked d₂ k₂).2
  bound : (T.clocked d₁ k₁).2.toNat + ((T.clocked d₁ k₁).1.clocked d₂ k₂).2.toNat < 2 ^ 64

theorem prescale_add (T : Timer) {d₁ d₂ : UInt64}
    (hwrap : T.accum.toNat + (d₁.toNat + d₂.toNat) < 2 ^ 64) :
    (T.prescale (d₁ + d₂)).1 = ((T.prescale d₁).1.prescale d₂).1 ∧
      (T.prescale (d₁ + d₂)).2 = (T.prescale d₁).2 + ((T.prescale d₁).1.prescale d₂).2 ∧
      (T.prescale d₁).2.toNat + ((T.prescale d₁).1.prescale d₂).2.toNat < 2 ^ 64 := by
  have hpos := kPrescaler_pos T.ctrl
  obtain ⟨hticks, hrest⟩ := ReloadCounter.divide_add hpos T.accum.toNat d₁.toNat d₂.toNat
  have hfirst : (T.accum + d₁).toNat = T.accum.toNat + d₁.toNat := by
    rw [UInt64.toNat_add]
    exact Nat.mod_eq_of_lt (by omega)
  have hwhole : (T.accum + (d₁ + d₂)).toNat = T.accum.toNat + (d₁.toNat + d₂.toNat) := by
    rw [UInt64.toNat_add, UInt64.toNat_add, Nat.add_mod_mod]
    exact Nat.mod_eq_of_lt hwrap
  have hleft := Nat.mod_le (T.accum.toNat + d₁.toNat) (kPrescaler T.ctrl).toNat
  have hsecond : ((T.accum + d₁) % kPrescaler T.ctrl + d₂).toNat =
      (T.accum.toNat + d₁.toNat) % (kPrescaler T.ctrl).toNat + d₂.toNat := by
    rw [UInt64.toNat_add, UInt64.toNat_mod, hfirst]
    exact Nat.mod_eq_of_lt (by omega)
  have hall := Nat.div_le_self (T.accum.toNat + (d₁.toNat + d₂.toNat)) (kPrescaler T.ctrl).toNat
  rw [hticks] at hall
  refine ⟨?_, ?_, ?_⟩
  · change T.setAccum _ = T.setAccum _
    congr 1
    apply UInt64.toNat_inj.mp
    change (_ % kPrescaler T.ctrl).toNat = (_ % kPrescaler T.ctrl).toNat
    rw [UInt64.toNat_mod, UInt64.toNat_mod, hwhole]
    change _ = ((T.accum + d₁) % kPrescaler T.ctrl + d₂).toNat % _
    rw [hsecond, hrest]
  · apply UInt64.toNat_inj.mp
    change ((T.accum + (d₁ + d₂)) / kPrescaler T.ctrl).toNat =
      ((T.accum + d₁) / kPrescaler T.ctrl +
        ((T.accum + d₁) % kPrescaler T.ctrl + d₂) / kPrescaler T.ctrl).toNat
    rw [UInt64.toNat_add, UInt64.toNat_div, UInt64.toNat_div, UInt64.toNat_div, hwhole, hfirst,
      hsecond, hticks]
    exact (Nat.mod_eq_of_lt (Nat.lt_of_le_of_lt hall hwrap)).symm
  · change ((T.accum + d₁) / kPrescaler T.ctrl).toNat +
      (((T.accum + d₁) % kPrescaler T.ctrl + d₂) / kPrescaler T.ctrl).toNat < 2 ^ 64
    rw [UInt64.toNat_div, UInt64.toNat_div, hfirst, hsecond]
    exact Nat.lt_of_le_of_lt hall hwrap

theorem splitTicks (T : Timer) {d₁ d₂ k₁ k₂ : UInt64}
    (hwrap : T.accum.toNat + (d₁.toNat + d₂.toNat) < 2 ^ 64)
    (hcarry : k₁.toNat + k₂.toNat < 2 ^ 64) : T.SplitTicks d₁ d₂ k₁ k₂ := by
  cases hcount : T.countUp with
  | true =>
      have hclocked (delta carry : UInt64) : T.clocked delta carry = (T, carry) := by
        unfold clocked
        rw [if_pos hcount]
      refine ⟨?_, ?_, ?_⟩
      · rw [hclocked, hclocked, hclocked]
      · rw [hclocked, hclocked, hclocked]
      · rw [hclocked, hclocked]
        exact hcarry
  | false =>
      have hclocked (U : Timer) (hU : U.ctrl = T.ctrl) (delta carry : UInt64) :
          U.clocked delta carry = U.prescale delta := by
        unfold clocked
        rw [if_neg]
        unfold countUp at hcount ⊢
        rw [hU, hcount]
        decide
      have hprescaled := hclocked (T.prescale d₁).1 rfl d₂ k₂
      obtain ⟨htimer, hticks, hbound⟩ := T.prescale_add hwrap
      refine ⟨?_, ?_, ?_⟩
      · rw [hclocked T rfl, hclocked T rfl, hprescaled]
        exact htimer
      · rw [hclocked T rfl, hclocked T rfl, hprescaled]
        exact hticks
      · rw [hclocked T rfl, hprescaled]
        exact hbound

theorem enabled_eq_of_ctrl {T U : Timer} (h : U.ctrl = T.ctrl) : U.enabled = T.enabled := by
  unfold enabled
  rw [h]

theorem irqEnabled_eq_of_ctrl {T U : Timer} (h : U.ctrl = T.ctrl) :
    U.irqEnabled = T.irqEnabled := by
  unfold irqEnabled
  rw [h]

theorem setCounter_prescale (T : Timer) (counter : UInt16) (delta : UInt64) :
    (T.setCounter counter).prescale delta =
      ((T.setAccum ((T.accum + delta) % kPrescaler T.ctrl)).setCounter counter,
        (T.prescale delta).2) := by
  have haccum : (T.setCounter counter).accum = T.accum := rfl
  have hctrl : (T.setCounter counter).ctrl = T.ctrl := rfl
  unfold prescale
  dsimp only
  rw [haccum, hctrl]
  generalize (T.accum + delta) % kPrescaler T.ctrl = accum
  rfl

/-- The prescaler and the counter do not touch each other. -/
theorem advance_clocked (T : Timer) (ticks delta carry : UInt64) :
    (T.advance ticks).1.clocked delta carry =
        (((T.clocked delta carry).1.advance ticks).1, (T.clocked delta carry).2) ∧
      ((T.clocked delta carry).1.advance ticks).2 = (T.advance ticks).2 := by
  have hcount : (T.advance ticks).1.countUp = T.countUp := by
    unfold countUp
    rw [(T.advance_ctrl ticks).1]
  have hprescale : (T.advance ticks).1.prescale delta =
      (((T.prescale delta).1.advance ticks).1, (T.prescale delta).2) ∧
      ((T.prescale delta).1.advance ticks).2 = (T.advance ticks).2 := by
    obtain ⟨hcounter, hoverflows⟩ :=
      T.setAccum_advance ((T.accum + delta) % kPrescaler T.ctrl) ticks
    have hfst : (T.prescale delta).1 = T.setAccum ((T.accum + delta) % kPrescaler T.ctrl) := rfl
    rw [advance_fst, advance_fst, advance_snd, advance_snd, hfst, hcounter, hoverflows]
    exact ⟨T.setCounter_prescale _ delta, rfl⟩
  unfold clocked
  rw [hcount]
  cases T.countUp with
  | true => exact ⟨rfl, rfl⟩
  | false => exact hprescale

/-- One timer over two parts of the time is the timer over the whole. -/
theorem tick_add (T : Timer) {d₁ d₂ k₁ k₂ : UInt64}
    (hwrap : T.accum.toNat + (d₁.toNat + d₂.toNat) < 2 ^ 64)
    (hcarry : k₁.toNat + k₂.toNat < 2 ^ 64) :
    T.tick (d₁ + d₂) (k₁ + k₂) =
        (((T.tick d₁ k₁).1.tick d₂ k₂).1, (T.tick d₁ k₁).2 + ((T.tick d₁ k₁).1.tick d₂ k₂).2) ∧
      (T.tick d₁ k₁).2.toNat + ((T.tick d₁ k₁).1.tick d₂ k₂).2.toNat < 2 ^ 64 := by
  cases henabled : T.enabled with
  | false =>
      rw [tick_disabled henabled, tick_disabled henabled, tick_disabled henabled]
      exact ⟨rfl, (by decide : 0 + 0 < 2 ^ 64)⟩
  | true =>
      have hticked : (T.tick d₁ k₁).1.enabled = true := by
        rw [← henabled]
        exact enabled_eq_of_ctrl (T.tick_ctrl d₁ k₁).1
      obtain ⟨htimer, hticks, hbound⟩ := T.splitTicks hwrap hcarry
      have hfirst := tick_enabled henabled d₁ k₁
      obtain ⟨hclocked, hoverflows⟩ :=
        (T.clocked d₁ k₁).1.advance_clocked (T.clocked d₁ k₁).2 d₂ k₂
      rw [← hfirst] at hclocked
      have hsecond := tick_enabled hticked d₂ k₂
      rw [hclocked] at hsecond
      have hadd := ((T.clocked d₁ k₁).1.clocked d₂ k₂).1.advance_add hbound
      have hsum : T.tick (d₁ + d₂) (k₁ + k₂) =
          (((T.tick d₁ k₁).1.tick d₂ k₂).1,
            (T.tick d₁ k₁).2 + ((T.tick d₁ k₁).1.tick d₂ k₂).2) := by
        rw [tick_enabled henabled, htimer, hticks, hadd, hsecond, hoverflows, ← hfirst]
      refine ⟨hsum, ?_⟩
      rw [hsecond, hfirst, ← hoverflows]
      exact advance_overflows_bound _ hbound

end Timer

/-! ### The cascade -/

namespace TimerTick

/-- A whole catch-up and its two parts, between the same timers. -/
structure Splits (whole first second : TimerTick) : Prop where
  carry : whole.carry = first.carry + second.carry
  bound : first.carry.toNat + second.carry.toNat < 2 ^ 64
  irq : whole.irq = first.irq ||| second.irq
  overflows : whole.overflows = first.overflows + second.overflows

theorem step_timer_self (delta : UInt64) (s : TimerTick) (t : Fin 4) :
    (s.step delta t).timer t = ((s.timer t).tick delta s.carry).1 :=
  Function.update_self _ _ _

theorem step_timer_of_ne (delta : UInt64) (s : TimerTick) {t u : Fin 4} (h : u ≠ t) :
    (s.step delta t).timer u = s.timer u :=
  Function.update_of_ne h _ _

theorem step_carry (delta : UInt64) (s : TimerTick) (t : Fin 4) :
    (s.step delta t).carry = ((s.timer t).tick delta s.carry).2 := rfl

theorem step_irq (delta : UInt64) (s : TimerTick) (t : Fin 4) :
    (s.step delta t).irq =
      s.irq ||| if ((s.timer t).tick delta s.carry).2 ≠ 0 ∧ (s.timer t).irqEnabled = true then
        1 <<< (3 + UInt32.ofNat t) else 0 := by
  have hirq := Timer.irqEnabled_eq_of_ctrl ((s.timer t).tick_ctrl delta s.carry).1
  unfold step
  dsimp only
  rw [hirq]
  by_cases hraises : ((s.timer t).tick delta s.carry).2 ≠ 0 ∧ (s.timer t).irqEnabled = true
  · rw [if_pos hraises, if_pos hraises]
  · rw [if_neg hraises, if_neg hraises, UInt32.or_zero]

theorem or_raises {T U : Timer} (hirq : U.irqEnabled = T.irqEnabled) {a b : UInt64}
    (hbound : a.toNat + b.toNat < 2 ^ 64) (i j bit : UInt32) :
    (i ||| j ||| if a + b ≠ 0 ∧ T.irqEnabled = true then bit else 0) =
      (i ||| if a ≠ 0 ∧ T.irqEnabled = true then bit else 0) |||
        (j ||| if b ≠ 0 ∧ U.irqEnabled = true then bit else 0) := by
  have hzero : a + b = 0 ↔ a = 0 ∧ b = 0 := by
    rw [← UInt64.toNat_inj, ← UInt64.toNat_inj, ← UInt64.toNat_inj, UInt64.toNat_add,
      Nat.mod_eq_of_lt hbound]
    exact Nat.add_eq_zero_iff
  simp only [hirq, ne_eq, hzero]
  cases T.irqEnabled with
  | false => simp
  | true =>
      by_cases ha : a = 0
      · by_cases hb : b = 0
        · simp [ha, hb]
        · simp [ha, hb, UInt32.or_assoc]
      · by_cases hb : b = 0
        · simp [ha, hb]
          ac_rfl
        · simp [ha, hb]
          ac_rfl

theorem step_overflows (delta : UInt64) (s : TimerTick) (t : Fin 4) :
    (s.step delta t).overflows =
      s.overflows + if (s.timer t).irqEnabled then ((s.timer t).tick delta s.carry).2 else 0 := by
  have hirq := Timer.irqEnabled_eq_of_ctrl ((s.timer t).tick_ctrl delta s.carry).1
  unfold step
  dsimp only
  rw [hirq]
  cases (s.timer t).irqEnabled with
  | false => simp
  | true =>
      by_cases hnone : ((s.timer t).tick delta s.carry).2 = 0
      · simp [hnone]
      · simp [hnone]

theorem Splits.step {whole first second : TimerTick} (h : Splits whole first second)
    {d₁ d₂ : UInt64} {t : Fin 4} (hwhole : whole.timer t = first.timer t)
    (hsecond : second.timer t = (first.step d₁ t).timer t)
    (hwrap : (first.timer t).accum.toNat + (d₁.toNat + d₂.toNat) < 2 ^ 64) :
    Splits (whole.step (d₁ + d₂) t) (first.step d₁ t) (second.step d₂ t) ∧
      (whole.step (d₁ + d₂) t).timer t = (second.step d₂ t).timer t := by
  rw [step_timer_self] at hsecond
  obtain ⟨hadd, hbound⟩ := (first.timer t).tick_add hwrap h.bound
  have hirq := Timer.irqEnabled_eq_of_ctrl ((first.timer t).tick_ctrl d₁ first.carry).1
  refine ⟨⟨?_, ?_, ?_, ?_⟩, ?_⟩
  · rw [step_carry, step_carry, step_carry, hwhole, hsecond, h.carry, hadd]
  · rw [step_carry, step_carry, hsecond]
    exact hbound
  · rw [step_irq, step_irq, step_irq, hwhole, hsecond, h.carry, hadd, h.irq]
    exact or_raises hirq hbound _ _ _
  · rw [step_overflows, step_overflows, step_overflows, hwhole, hsecond, h.carry, hadd,
      h.overflows, hirq]
    cases (first.timer t).irqEnabled with
    | false => simp
    | true =>
        simp only [if_true]
        rw [UInt64.add_assoc, UInt64.add_assoc]
        congr 1
        rw [← UInt64.add_assoc, ← UInt64.add_assoc, UInt64.add_comm second.overflows]
  · rw [step_timer_self, step_timer_self, hwhole, hsecond, h.carry, hadd]

theorem foldl_splits (d₁ d₂ : UInt64) {ts : List (Fin 4)} (hts : ts.Nodup)
    {whole first second : TimerTick} (h : Splits whole first second)
    (hwhole : ∀ t ∈ ts, whole.timer t = first.timer t)
    (hsecond : ∀ t ∈ ts, second.timer t = (ts.foldl (step d₁) first).timer t)
    (hwrap : ∀ t ∈ ts, (first.timer t).accum.toNat + (d₁.toNat + d₂.toNat) < 2 ^ 64) :
    Splits (ts.foldl (step (d₁ + d₂)) whole) (ts.foldl (step d₁) first)
        (ts.foldl (step d₂) second) ∧
      ∀ t ∈ ts, (ts.foldl (step (d₁ + d₂)) whole).timer t = (ts.foldl (step d₂) second).timer t := by
  induction ts generalizing whole first second with
  | nil => exact ⟨h, fun _ ht => by cases ht⟩
  | cons t ts ih =>
      obtain ⟨ht, hrest⟩ := List.nodup_cons.mp hts
      have hreached := hsecond t List.mem_cons_self
      rw [List.foldl_cons, foldl_timer_of_notMem d₁ ts _ ht] at hreached
      obtain ⟨hstep, hsame⟩ := h.step (hwhole t List.mem_cons_self) hreached
        (hwrap t List.mem_cons_self)
      have hother {u : Fin 4} (hu : u ∈ ts) : u ≠ t := by
        rintro rfl
        exact ht hu
      obtain ⟨hsplits, htimers⟩ := ih hrest hstep
        (fun u hu => by
          rw [step_timer_of_ne _ _ (hother hu), step_timer_of_ne _ _ (hother hu)]
          exact hwhole u (List.mem_cons_of_mem _ hu))
        (fun u hu => by
          rw [step_timer_of_ne _ _ (hother hu)]
          exact hsecond u (List.mem_cons_of_mem _ hu))
        (fun u hu => by
          rw [step_timer_of_ne _ _ (hother hu)]
          exact hwrap u (List.mem_cons_of_mem _ hu))
      refine ⟨hsplits, fun u hu => ?_⟩
      rcases List.mem_cons.mp hu with rfl | hmem
      · rw [List.foldl_cons, List.foldl_cons, foldl_timer_of_notMem _ ts _ ht,
          foldl_timer_of_notMem _ ts _ ht]
        exact hsame
      · exact htimers u hmem

end TimerTick

namespace TimerBank

theorem eq_of_sub_zero {a b : UInt64} (h : a - b = 0) : a = b := by
  rw [← UInt64.sub_add_cancel a b, h, UInt64.zero_add]

theorem ndsTickTimers_zero {bank : TimerBank} {cpu : NdsCpu} {cycles : UInt64}
    (h : bank.delta cpu cycles = 0) :
    bank.ndsTickTimers cpu cycles = ({ bank with last := systemCycles cpu cycles }, 0, 0) :=
  if_pos h

theorem ndsTickTimers_pos {bank : TimerBank} {cpu : NdsCpu} {cycles : UInt64}
    (h : bank.delta cpu cycles ≠ 0) :
    bank.ndsTickTimers cpu cycles =
      let done := (List.finRange 4).foldl (TimerTick.step (bank.delta cpu cycles))
        { timer := bank.timer }
      ({ timer := done.timer, last := systemCycles cpu cycles }, done.irq, done.overflows) :=
  if_neg h

/-- Caught up in two parts, a bank is caught up. -/
theorem ndsTickTimers_twice {bank : TimerBank} (hcounted : bank.Counted) {cpu : NdsCpu}
    {c₁ c₂ : UInt64} (h₁ : bank.last ≤ systemCycles cpu c₁)
    (h₂ : systemCycles cpu c₁ ≤ systemCycles cpu c₂) :
    bank.ndsTickTimers cpu c₂ =
      (((bank.ndsTickTimers cpu c₁).1.ndsTickTimers cpu c₂).1,
        (bank.ndsTickTimers cpu c₁).2.1 |||
          ((bank.ndsTickTimers cpu c₁).1.ndsTickTimers cpu c₂).2.1,
        (bank.ndsTickTimers cpu c₁).2.2 +
          ((bank.ndsTickTimers cpu c₁).1.ndsTickTimers cpu c₂).2.2) := by
  have hdelta₂ : (bank.ndsTickTimers cpu c₁).1.delta cpu c₂ =
      systemCycles cpu c₂ - systemCycles cpu c₁ := by
    unfold delta
    rw [ndsTickTimers_last]
  have hdelta : bank.delta cpu c₂ =
      bank.delta cpu c₁ + (bank.ndsTickTimers cpu c₁).1.delta cpu c₂ := by
    rw [hdelta₂]
    unfold delta
    grind
  have hsum : (bank.delta cpu c₁).toNat + (systemCycles cpu c₂ - systemCycles cpu c₁).toNat =
      (systemCycles cpu c₂).toNat - bank.last.toNat := by
    have hle₁ := UInt64.le_iff_toNat_le.mp h₁
    have hle₂ := UInt64.le_iff_toNat_le.mp h₂
    unfold delta
    rw [UInt64.toNat_sub_of_le _ _ h₁, UInt64.toNat_sub_of_le _ _ h₂]
    omega
  by_cases hfirst : bank.delta cpu c₁ = 0
  · -- the first part is empty
    have hlast : systemCycles cpu c₁ = bank.last := eq_of_sub_zero hfirst
    have hempty : bank.ndsTickTimers cpu c₁ = (bank, 0, 0) := by
      rw [ndsTickTimers_zero hfirst, hlast]
    rw [hempty, UInt32.zero_or, UInt64.zero_add]
  · by_cases hsecond : (bank.ndsTickTimers cpu c₁).1.delta cpu c₂ = 0
    · -- the second part is empty
      have hsame : systemCycles cpu c₂ = systemCycles cpu c₁ := by
        rw [hdelta₂] at hsecond
        exact eq_of_sub_zero hsecond
      have hwhole : bank.ndsTickTimers cpu c₂ = bank.ndsTickTimers cpu c₁ := by
        unfold ndsTickTimers
        rw [hsame]
      have hlast := bank.ndsTickTimers_last cpu c₁
      rw [hwhole, ndsTickTimers_zero hsecond, hsame, ← hlast, UInt32.or_zero, UInt64.add_zero]
    · have hwhole : bank.delta cpu c₂ ≠ 0 := by
        intro hzero
        have hnat := congrArg UInt64.toNat hzero
        rw [hdelta, hdelta₂, UInt64.toNat_add, hsum, Nat.mod_eq_of_lt] at hnat
        · rw [← hsum] at hnat
          exact hfirst (UInt64.toNat_inj.mp (Nat.eq_zero_of_add_eq_zero_right hnat))
        · have hlt := (systemCycles cpu c₂).toNat_lt
          omega
      have hstart : TimerTick.Splits { timer := bank.timer } { timer := bank.timer }
          { timer := (bank.ndsTickTimers cpu c₁).1.timer } :=
        ⟨rfl, (by decide : 0 + 0 < 2 ^ 64), (by decide : (0 : UInt32) = 0 ||| 0), rfl⟩
      have hwrap (t : Fin 4) : (bank.timer t).accum.toNat + ((bank.delta cpu c₁).toNat +
          ((bank.ndsTickTimers cpu c₁).1.delta cpu c₂).toNat) < 2 ^ 64 := by
        have hlt := (systemCycles cpu c₂).toNat_lt
        have hle₁ := UInt64.le_iff_toNat_le.mp h₁
        have hle₂ := UInt64.le_iff_toNat_le.mp h₂
        have haccum := hcounted t
        rw [hdelta₂, hsum]
        omega
      obtain ⟨hsplits, htimers⟩ :=
        TimerTick.foldl_splits _ _ (List.nodup_finRange 4) hstart (fun _ _ => rfl)
          (fun t _ => by rw [ndsTickTimers_pos hfirst]) (fun t _ => hwrap t)
      rw [← hdelta] at hsplits htimers
      rw [ndsTickTimers_pos hwhole, ndsTickTimers_pos hsecond]
      have hirq := hsplits.irq
      have hoverflows := hsplits.overflows
      have htimer := funext fun t => htimers t (List.mem_finRange t)
      rw [ndsTickTimers_pos hfirst] at hirq hoverflows htimer ⊢
      exact Prod.ext (congrArg (TimerBank.mk · (systemCycles cpu c₂)) htimer)
        (Prod.ext hirq hoverflows)

end TimerBank

namespace TimerState

/-- Catching up with `c₁` and then with `c₂` is catching up with `c₂`: the counters, the
accumulators, the interrupt flags and the overflow record. -/
theorem tick_tick {s : TimerState} (h : timerSystem.Reachable s) (cpu : NdsCpu) {c₁ c₂ : UInt64}
    (h₁ : (s.bank cpu).last ≤ TimerBank.systemCycles cpu c₁)
    (h₂ : TimerBank.systemCycles cpu c₁ ≤ TimerBank.systemCycles cpu c₂) :
    (s.tick cpu c₁).tick cpu c₂ = s.tick cpu c₂ := by
  have hcounted := h.invariant counted_invariant cpu
  have htwice := TimerBank.ndsTickTimers_twice hcounted h₁ h₂
  unfold tick
  simp only [Function.update_self, Function.update_idem]
  rw [htwice]
  simp only [UInt32.or_assoc, UInt64.add_assoc]

/-- Timers 0 and 1 of the ARM7, the second counting the first one's overflows. -/
def cascadeState : TimerState :=
  timerSystem.runFrom {} [.write .arm7 0 0 0 0x00C0FFFE 4, .write .arm7 0 1 0 0x00C4FFFE 4]

theorem cascade_tick_tick :
    (cascadeState.tick .arm7 3).tick .arm7 9 = cascadeState.tick .arm7 9 := by
  have hreachable : timerSystem.Reachable cascadeState :=
    OpSystem.Reachable.runFrom (.start rfl) ⟨by decide, by decide, trivial⟩
  exact tick_tick hreachable .arm7 (by decide) (by decide)

end TimerState

end NdsRecomp.Io
