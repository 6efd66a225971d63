import NdsRecomp.Io.Timers
import NdsRecomp.Library.OpSystem
import NdsRecomp.Library.ReloadCounter

/-!
Both timer banks with the interrupt flags they raise. A CPU's count never goes back, so a
catch-up is admitted from the last one on. The cycles a prescaler holds were all counted by
the clock, and one more catch-up cannot wrap them.
-/

namespace NdsRecomp.Io

open Bus Library

/-! ### One timer -/

namespace Timer

/-- The counter as a counter with reload. -/
def reloadCounter (T : Timer) : ReloadCounter 0x10000 :=
  ⟨T.counter.toNat, T.reload.toNat, T.counter.toNat_lt, T.reload.toNat_lt⟩

theorem span_toNat (T : Timer) : T.span.toNat = T.reloadCounter.span := by
  have hlt := T.counter.toNat_lt
  unfold span
  rw [UInt64.toNat_sub_of_le]
  · rfl
  · rw [UInt64.le_iff_toNat_le, UInt16.toNat_toUInt64]
    change _ ≤ 65536
    omega

theorem reloadSpan_toNat (T : Timer) : T.reloadSpan.toNat = T.reloadCounter.period := by
  have hlt := T.reload.toNat_lt
  unfold reloadSpan
  rw [UInt64.toNat_sub_of_le]
  · rfl
  · rw [UInt64.le_iff_toNat_le, UInt16.toNat_toUInt64]
    change _ ≤ 65536
    omega

theorem overflowsIn_toNat (T : Timer) (ticks : UInt64) :
    (T.overflowsIn ticks).toNat = T.reloadCounter.overflows ticks.toNat := by
  have hle := T.reloadCounter.overflows_le ticks.toNat
  have hlt := ticks.toNat_lt
  unfold overflowsIn
  unfold ReloadCounter.overflows at hle ⊢
  by_cases hbefore : ticks < T.span
  · have hbefore' : ticks.toNat < T.reloadCounter.span := by
      rw [← span_toNat]
      exact UInt64.lt_iff_toNat_lt.mp hbefore
    rw [if_pos hbefore, if_pos hbefore']
    rfl
  · have hpassed : T.span ≤ ticks := UInt64.not_lt.mp hbefore
    have hpassed' : ¬ ticks.toNat < T.reloadCounter.span := by
      rw [← span_toNat]
      exact Nat.not_lt.mpr (UInt64.le_iff_toNat_le.mp hpassed)
    rw [if_neg hpassed'] at hle
    rw [if_neg hbefore, if_neg hpassed', UInt64.toNat_add, UInt64.toNat_div,
      UInt64.toNat_sub_of_le _ _ hpassed, span_toNat, reloadSpan_toNat]
    exact Nat.mod_eq_of_lt (Nat.lt_of_le_of_lt hle hlt)

theorem counterAfter_toNat (T : Timer) (ticks : UInt64) :
    (T.counterAfter ticks).toNat = T.reloadCounter.positionAfter ticks.toNat := by
  have hlt := T.reloadCounter.positionAfter_lt ticks.toNat
  have hticks := ticks.toNat_lt
  have hspan := T.span_toNat
  unfold counterAfter
  unfold ReloadCounter.positionAfter at hlt ⊢
  by_cases hbefore : ticks < T.span
  · have hbefore' : ticks.toNat < T.reloadCounter.span := by
      rw [← hspan]
      exact UInt64.lt_iff_toNat_lt.mp hbefore
    rw [if_pos hbefore'] at hlt
    have hsum : T.counter.toNat + ticks.toNat < 0x10000 := hlt
    rw [if_pos hbefore, if_pos hbefore', UInt64.toNat_toUInt16, UInt64.toNat_add,
      UInt16.toNat_toUInt64, Nat.mod_eq_of_lt (Nat.lt_trans hsum (by decide))]
    exact Nat.mod_eq_of_lt hsum
  · have hpassed : T.span ≤ ticks := UInt64.not_lt.mp hbefore
    have hpassed' : ¬ ticks.toNat < T.reloadCounter.span := by
      rw [← hspan]
      exact Nat.not_lt.mpr (UInt64.le_iff_toNat_le.mp hpassed)
    rw [if_neg hpassed'] at hlt
    have hsum : T.reload.toNat + (ticks.toNat - T.reloadCounter.span) % T.reloadCounter.period
        < 0x10000 := hlt
    rw [if_neg hbefore, if_neg hpassed', UInt64.toNat_toUInt16, UInt64.toNat_add,
      UInt16.toNat_toUInt64, UInt64.toNat_mod, UInt64.toNat_sub_of_le _ _ hpassed, hspan,
      reloadSpan_toNat, Nat.mod_eq_of_lt (Nat.lt_trans hsum (by decide))]
    exact Nat.mod_eq_of_lt hsum

theorem advance_fst (T : Timer) (ticks : UInt64) :
    (T.advance ticks).1 = T.setCounter (T.counterAfter ticks) := by
  unfold advance
  dsimp only

theorem advance_snd (T : Timer) (ticks : UInt64) : (T.advance ticks).2 = T.overflowsIn ticks := by
  unfold advance
  dsimp only

theorem setAccum_advance (T : Timer) (accum ticks : UInt64) :
    (T.setAccum accum).counterAfter ticks = T.counterAfter ticks ∧
      (T.setAccum accum).overflowsIn ticks = T.overflowsIn ticks :=
  ⟨rfl, rfl⟩

theorem advance_zero (T : Timer) : T.advance 0 = (T, 0) := by
  have hspan : (0 : UInt64) < T.span := by
    rw [UInt64.lt_iff_toNat_lt, span_toNat]
    exact T.reloadCounter.span_pos
  have hcounter : T.counterAfter 0 = T.counter := by
    unfold counterAfter
    rw [if_pos hspan, UInt64.add_zero]
    exact UInt16.toUInt16_toUInt64 _
  have hoverflows : T.overflowsIn 0 = 0 := if_pos hspan
  unfold advance
  rw [hcounter, hoverflows]
  rfl

/-- An enabled timer counts what clocks it. -/
theorem tick_enabled {T : Timer} (henabled : T.enabled = true) (delta carry : UInt64) :
    T.tick delta carry =
      (T.clocked delta carry).1.advance (T.clocked delta carry).2 := by
  unfold tick
  rw [if_neg (by rw [henabled]; decide)]
  dsimp only
  split
  · rename_i hnone
    rw [hnone, advance_zero]
  · rfl

theorem tick_disabled {T : Timer} (hdisabled : T.enabled = false) (delta carry : UInt64) :
    T.tick delta carry = (T, 0) := by
  unfold tick
  rw [if_pos hdisabled]

theorem advance_ctrl (T : Timer) (ticks : UInt64) :
    (T.advance ticks).1.ctrl = T.ctrl ∧ (T.advance ticks).1.reload = T.reload := by
  cases T
  exact ⟨rfl, rfl⟩

theorem clocked_ctrl (T : Timer) (delta carry : UInt64) :
    (T.clocked delta carry).1.ctrl = T.ctrl ∧ (T.clocked delta carry).1.reload = T.reload := by
  unfold clocked
  split
  · exact ⟨rfl, rfl⟩
  · exact ⟨rfl, rfl⟩

/-- A tick writes the counter and the accumulator. -/
theorem tick_ctrl (T : Timer) (delta carry : UInt64) :
    (T.tick delta carry).1.ctrl = T.ctrl ∧ (T.tick delta carry).1.reload = T.reload := by
  cases henabled : T.enabled with
  | false =>
      rw [tick_disabled henabled]
      exact ⟨rfl, rfl⟩
  | true =>
      rw [tick_enabled henabled]
      obtain ⟨hctrl, hreload⟩ := T.clocked_ctrl delta carry
      obtain ⟨hctrl', hreload'⟩ :=
        (T.clocked delta carry).1.advance_ctrl (T.clocked delta carry).2
      exact ⟨hctrl'.trans hctrl, hreload'.trans hreload⟩

theorem tick_accum {T : Timer} (henabled : T.enabled = true) (delta carry : UInt64) :
    (T.tick delta carry).1.accum =
      if T.countUp then T.accum else (T.accum + delta) % kPrescaler T.ctrl := by
  rw [tick_enabled henabled, advance_accum]
  unfold clocked
  split
  · rfl
  · rfl

/-- A tick leaves at most the accumulated cycles in the prescaler. -/
theorem tick_accum_le (T : Timer) (delta carry : UInt64) :
    (T.tick delta carry).1.accum.toNat ≤ T.accum.toNat + delta.toNat := by
  cases henabled : T.enabled with
  | false =>
      rw [tick_disabled henabled]
      exact Nat.le_add_right _ _
  | true =>
      rw [tick_accum henabled]
      split
      · exact Nat.le_add_right _ _
      · rw [UInt64.toNat_mod, UInt64.toNat_add]
        exact Nat.le_trans (Nat.mod_le _ _) (Nat.mod_le _ _)

/-- A control write keeps the accumulator or clears it. -/
theorem setCtrl_accum_le (T : Timer) (newctrl : UInt16) :
    (T.setCtrl newctrl).accum.toNat ≤ T.accum.toNat := by
  unfold setCtrl
  split
  · exact Nat.zero_le _
  · exact Nat.le_refl _

theorem write_accum_le (T : Timer) (off value : UInt32) (width : Nat) :
    (T.write off value width).accum.toNat ≤ T.accum.toNat := by
  have hreload :
      (if off = 0 ∧ 2 ≤ width then T.setReload value.toUInt16 else T).accum = T.accum := by
    split
    · rfl
    · rfl
  unfold write
  dsimp only
  split
  · exact Nat.le_trans (setCtrl_accum_le _ _) (Nat.le_of_eq (congrArg _ hreload))
  · exact Nat.le_of_eq (congrArg _ hreload)

end Timer

/-! ### One bank -/

namespace TimerTick

/-- The timers a catch-up has still to reach are untouched. -/
theorem foldl_timer_of_notMem (delta : UInt64) (ts : List (Fin 4)) (s : TimerTick) {t : Fin 4}
    (ht : t ∉ ts) : (ts.foldl (step delta) s).timer t = s.timer t := by
  induction ts generalizing s with
  | nil => rfl
  | cons u ts ih =>
      have ⟨htu, hts⟩ : t ≠ u ∧ t ∉ ts := by simpa using ht
      rw [List.foldl_cons, ih _ hts]
      exact Function.update_of_ne htu _ _

/-- Every timer a catch-up reaches is ticked once. -/
theorem foldl_timer (delta : UInt64) {ts : List (Fin 4)} (hts : ts.Nodup) (s : TimerTick)
    {t : Fin 4} (ht : t ∈ ts) :
    ∃ carry, (ts.foldl (step delta) s).timer t = ((s.timer t).tick delta carry).1 := by
  induction ts generalizing s with
  | nil => cases ht
  | cons u ts ih =>
      obtain ⟨hu, hrest⟩ := List.nodup_cons.mp hts
      rw [List.foldl_cons]
      rcases List.mem_cons.mp ht with rfl | hmem
      · refine ⟨s.carry, ?_⟩
        rw [foldl_timer_of_notMem delta ts _ hu]
        exact Function.update_self _ _ _
      · obtain ⟨carry, hcarry⟩ := ih hrest (step delta s u) hmem
        have htu : t ≠ u := by
          rintro rfl
          exact hu hmem
        have hsame : (step delta s u).timer t = s.timer t := Function.update_of_ne htu _ _
        rw [hsame] at hcarry
        exact ⟨carry, hcarry⟩

end TimerTick

namespace TimerBank

/-- The cycles from the last catch-up. -/
def delta (bank : TimerBank) (cpu : NdsCpu) (cycles : UInt64) : UInt64 :=
  systemCycles cpu cycles - bank.last

theorem ndsTickTimers_last (bank : TimerBank) (cpu : NdsCpu) (cycles : UInt64) :
    (bank.ndsTickTimers cpu cycles).1.last = systemCycles cpu cycles := by
  unfold ndsTickTimers
  dsimp only
  split
  · rfl
  · rfl

/-- A catch-up ticks every timer once, or does nothing. -/
theorem ndsTickTimers_timer (bank : TimerBank) (cpu : NdsCpu) (cycles : UInt64) (t : Fin 4) :
    (bank.delta cpu cycles = 0 ∧ (bank.ndsTickTimers cpu cycles).1.timer t = bank.timer t) ∨
      bank.delta cpu cycles ≠ 0 ∧ ∃ carry, (bank.ndsTickTimers cpu cycles).1.timer t =
        ((bank.timer t).tick (bank.delta cpu cycles) carry).1 := by
  unfold ndsTickTimers
  change (bank.delta cpu cycles = 0 ∧
    (if bank.delta cpu cycles = 0 then _ else _ : TimerBank × UInt32 × UInt64).1.timer t = _) ∨ _
  by_cases hnone : bank.delta cpu cycles = 0
  · left
    rw [if_pos hnone]
    exact ⟨hnone, rfl⟩
  · right
    refine ⟨hnone, ?_⟩
    change ∃ carry, (if bank.delta cpu cycles = 0 then _ else _ :
      TimerBank × UInt32 × UInt64).1.timer t = _
    rw [if_neg hnone]
    exact TimerTick.foldl_timer _ (List.nodup_finRange 4) _ (List.mem_finRange t)

/-- Every prescaler's cycles were counted by the clock. -/
def Counted (bank : TimerBank) : Prop := ∀ t, (bank.timer t).accum.toNat ≤ bank.last.toNat

theorem Counted.ndsTickTimers {bank : TimerBank} (h : bank.Counted) {cpu : NdsCpu}
    {cycles : UInt64} (hclock : bank.last ≤ systemCycles cpu cycles) :
    (bank.ndsTickTimers cpu cycles).1.Counted := by
  intro t
  have hle := UInt64.le_iff_toNat_le.mp hclock
  have hdelta : (bank.delta cpu cycles).toNat =
      (systemCycles cpu cycles).toNat - bank.last.toNat := UInt64.toNat_sub_of_le _ _ hclock
  rw [ndsTickTimers_last]
  rcases bank.ndsTickTimers_timer cpu cycles t with ⟨-, hsame⟩ | ⟨-, carry, hticked⟩
  · rw [hsame]
    exact Nat.le_trans (h t) hle
  · rw [hticked]
    have haccum := (bank.timer t).tick_accum_le (bank.delta cpu cycles) carry
    have hcounted := h t
    omega

def setTimer (bank : TimerBank) (t : Fin 4) (T : Timer) : TimerBank :=
  { bank with timer := Function.update bank.timer t T }

theorem Counted.setTimer {bank : TimerBank} (h : bank.Counted) (t : Fin 4) {T : Timer}
    (hT : T.accum.toNat ≤ bank.last.toNat) : (bank.setTimer t T).Counted := by
  intro u
  change (Function.update bank.timer t T u).accum.toNat ≤ bank.last.toNat
  rcases eq_or_ne u t with rfl | hu
  · rw [Function.update_self]
    exact hT
  · rw [Function.update_of_ne hu]
    exact h u

end TimerBank

/-! ### Both banks -/

structure TimerState where
  bank : NdsCpu → TimerBank := fun _ => {}
  /-- the interrupt flags -/
  irf : NdsCpu → UInt32 := fun _ => 0
  timerOvf : UInt64 := 0

namespace TimerState

/-- A catch-up with what it raises. -/
def tick (s : TimerState) (cpu : NdsCpu) (cycles : UInt64) : TimerState :=
  let (bank, irq, overflows) := (s.bank cpu).ndsTickTimers cpu cycles
  { bank := Function.update s.bank cpu bank
    irf := Function.update s.irf cpu (s.irf cpu ||| irq)
    timerOvf := s.timerOvf + overflows }

def setBank (s : TimerState) (cpu : NdsCpu) (bank : TimerBank) : TimerState :=
  { s with bank := Function.update s.bank cpu bank }

/-- A register write: a control write catches up first. -/
def write (s : TimerState) (cpu : NdsCpu) (cycles : UInt64) (t : Fin 4) (off value : UInt32)
    (width : Nat) : TimerState :=
  let s := if Timer.writesCtrl off width then s.tick cpu cycles else s
  s.setBank cpu ((s.bank cpu).setTimer t (((s.bank cpu).timer t).write off value width))

/-- Other devices and acknowledgements. -/
def setIrf (s : TimerState) (cpu : NdsCpu) (value : UInt32) : TimerState :=
  { s with irf := Function.update s.irf cpu value }

end TimerState

inductive TimerOp where
  | tick (cpu : NdsCpu) (cycles : UInt64)
  | write (cpu : NdsCpu) (cycles : UInt64) (t : Fin 4) (off value : UInt32) (width : Nat)
  | setIrf (cpu : NdsCpu) (value : UInt32)

def TimerState.next (s : TimerState) : TimerOp → TimerState
  | .tick cpu cycles => s.tick cpu cycles
  | .write cpu cycles t off value width => s.write cpu cycles t off value width
  | .setIrf cpu value => s.setIrf cpu value

/-- The clock of a CPU never goes back. -/
def TimerState.admits (s : TimerState) : TimerOp → Prop
  | .tick cpu cycles => (s.bank cpu).last ≤ TimerBank.systemCycles cpu cycles
  | .write cpu cycles _ _ _ _ => (s.bank cpu).last ≤ TimerBank.systemCycles cpu cycles
  | .setIrf _ _ => True

def timerSystem : OpSystem TimerState TimerOp where
  initial := fun s => s = {}
  admits := TimerState.admits
  next := TimerState.next

instance (s : TimerState) (op : TimerOp) : Decidable (timerSystem.admits s op) :=
  match op with
  | .tick cpu cycles =>
      inferInstanceAs (Decidable ((s.bank cpu).last ≤ TimerBank.systemCycles cpu cycles))
  | .write cpu cycles _ _ _ _ =>
      inferInstanceAs (Decidable ((s.bank cpu).last ≤ TimerBank.systemCycles cpu cycles))
  | .setIrf _ _ => inferInstanceAs (Decidable True)

namespace TimerState

def Counted (s : TimerState) : Prop := ∀ cpu, (s.bank cpu).Counted

theorem tick_bank (s : TimerState) (cpu : NdsCpu) (cycles : UInt64) :
    (s.tick cpu cycles).bank cpu = ((s.bank cpu).ndsTickTimers cpu cycles).1 :=
  Function.update_self _ _ _

theorem tick_bank_of_ne (s : TimerState) {cpu other : NdsCpu} (h : other ≠ cpu)
    (cycles : UInt64) : (s.tick cpu cycles).bank other = s.bank other :=
  Function.update_of_ne h _ _

theorem Counted.setBank {s : TimerState} (h : s.Counted) (cpu : NdsCpu) {bank : TimerBank}
    (hbank : bank.Counted) : (s.setBank cpu bank).Counted := by
  intro other
  change (Function.update s.bank cpu bank other).Counted
  rcases eq_or_ne other cpu with rfl | hother
  · rw [Function.update_self]
    exact hbank
  · rw [Function.update_of_ne hother]
    exact h other

theorem Counted.tick {s : TimerState} (h : s.Counted) {cpu : NdsCpu} {cycles : UInt64}
    (hclock : (s.bank cpu).last ≤ TimerBank.systemCycles cpu cycles) :
    (s.tick cpu cycles).Counted := by
  intro other
  rcases eq_or_ne other cpu with rfl | hother
  · rw [tick_bank]
    exact (h other).ndsTickTimers hclock
  · rw [tick_bank_of_ne s hother]
    exact h other

theorem counted_invariant : timerSystem.Invariant Counted := by
  refine ⟨?_, ?_⟩
  · rintro s rfl cpu t
    exact Nat.zero_le _
  · intro s op h hadmits
    cases op with
    | tick cpu cycles => exact h.tick hadmits
    | write cpu cycles t off value width =>
        have hcaught :
            (if Timer.writesCtrl off width then s.tick cpu cycles else s).Counted := by
          split
          · exact h.tick hadmits
          · exact h
        refine hcaught.setBank cpu ((hcaught cpu).setTimer t ?_)
        exact Nat.le_trans (Timer.write_accum_le _ _ _ _) (hcaught cpu t)
    | setIrf cpu value => exact h

end TimerState

end NdsRecomp.Io
