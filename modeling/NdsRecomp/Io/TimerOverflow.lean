import NdsRecomp.Io.TimerSystem

/-!
The next timer overflow. The prediction takes the cycles a prescaler holds from the cycles
its span is long, so it rests on the accumulator being below the prescaler. A control write
to a running timer can put a smaller prescaler over the accumulator.
-/

namespace NdsRecomp.Io

open Bus Library

namespace Timer

/-- An enabled timer that owns a position on the timeline. -/
def clockDriven (T : Timer) : Bool := T.enabled && !T.countUp

/-- `g_timer_last[cpu] + (span * pre - T.accum)` -/
def overflowTime (T : Timer) (last : UInt64) : UInt64 :=
  last + (T.span * kPrescaler T.ctrl - T.accum)

/-- The accumulator of a running timer is below its prescaler. -/
def InPhase (T : Timer) : Prop := T.enabled = true → T.accum < kPrescaler T.ctrl

/-- The cycles a running timer's prescaler holds `delta` cycles later. -/
def held (T : Timer) (delta : UInt64) : UInt64 :=
  if T.countUp then T.accum else (T.accum + delta) % kPrescaler T.ctrl

/-- The control value of a register write. -/
def newctrl (off value : UInt32) : UInt16 := (if off = 2 then value else value >>> 16).toUInt16

end Timer

namespace TimerBank

/-- How often a timer overflows when the bank is caught up. -/
def overflowCount (bank : TimerBank) (cpu : NdsCpu) (cycles : UInt64) (t : Fin 4) : UInt64 :=
  if bank.delta cpu cycles = 0 then 0
  else
    (((List.finRange 4).take (t.val + 1)).foldl (TimerTick.step (bank.delta cpu cycles))
      { timer := bank.timer }).carry

end TimerBank

namespace TimerState

def timer (s : TimerState) (i : NdsCpu × Fin 4) : Timer := (s.bank i.1).timer i.2

def allTimers : List (NdsCpu × Fin 4) :=
  [NdsCpu.arm9, NdsCpu.arm7].flatMap fun cpu => (List.finRange 4).map fun t => (cpu, t)

/-- One timer of `nds_next_timer_overflow_time`. -/
def earlier (s : TimerState) (best : UInt64) (i : NdsCpu × Fin 4) : UInt64 :=
  let T := s.timer i
  if T.enabled = false then best
  else if T.countUp then best
  else
    let due := T.overflowTime (s.bank i.1).last
    if due < best then due else best

def nextTimerOverflowTime (s : TimerState) : UInt64 :=
  allTimers.foldl s.earlier 0xFFFFFFFFFFFFFFFF

/-- The prediction: phases, nothing before it, and an overflow at it when a timer runs. -/
structure Exact (s : TimerState) : Prop where
  phase : ∀ i, (s.timer i).InPhase
  before : ∀ i cycles, (s.timer i).clockDriven = true →
    (s.bank i.1).last ≤ TimerBank.systemCycles i.1 cycles →
    TimerBank.systemCycles i.1 cycles < s.nextTimerOverflowTime →
    (s.bank i.1).overflowCount i.1 cycles i.2 = 0
  reached : (∃ i, (s.timer i).clockDriven = true) →
    ∃ i cycles, (s.timer i).clockDriven = true ∧
      (s.bank i.1).last ≤ TimerBank.systemCycles i.1 cycles ∧
      TimerBank.systemCycles i.1 cycles = s.nextTimerOverflowTime ∧
      (s.bank i.1).overflowCount i.1 cycles i.2 ≠ 0

/-- A control write that leaves a timer running puts no prescaler over it that the held
cycles already reach. -/
def KeepsPhase (s : TimerState) : TimerOp → Prop
  | .tick _ _ => True
  | .write cpu cycles t off value width =>
      Timer.writesCtrl off width = true → (s.timer (cpu, t)).enabled = true →
        Timer.newctrl off value &&& 0x80 ≠ 0 →
        (s.timer (cpu, t)).held ((s.bank cpu).delta cpu cycles) <
          kPrescaler (Timer.newctrl off value)
  | .setIrf _ _ => True

/-- The longest span before the clocks wrap: the ARM9's own count at 2 ^ 64. -/
def clockLimit : Nat := 2 ^ 63 - 2 ^ 26

def BelowWrap : TimerOp → Prop
  | .tick cpu cycles => (TimerBank.systemCycles cpu cycles).toNat < clockLimit
  | .write cpu cycles _ _ _ _ => (TimerBank.systemCycles cpu cycles).toNat < clockLimit
  | .setIrf _ _ => True

end TimerState

/-! ### One timer -/

namespace Timer

theorem clockDriven_iff {T : Timer} :
    T.clockDriven = true ↔ T.enabled = true ∧ T.countUp = false := by
  unfold clockDriven
  rw [Bool.and_eq_true, Bool.not_eq_true']

/-- The overflows of a clock-driven timer are its own. -/
theorem tick_overflows {T : Timer} (hdriven : T.clockDriven = true) (delta carry : UInt64) :
    (T.tick delta carry).2 = T.overflowsIn ((T.accum + delta) / kPrescaler T.ctrl) := by
  obtain ⟨henabled, hcount⟩ := clockDriven_iff.mp hdriven
  have hclocked : T.clocked delta carry = T.prescale delta := by
    unfold clocked
    rw [if_neg (by rw [hcount]; decide)]
  rw [tick_enabled henabled, hclocked, advance_snd]
  exact (T.setAccum_advance _ _).2

theorem span_mul_bounds (T : Timer) :
    (kPrescaler T.ctrl).toNat ≤ T.span.toNat * (kPrescaler T.ctrl).toNat ∧
      T.span.toNat * (kPrescaler T.ctrl).toNat ≤ 2 ^ 26 := by
  have hspan : T.span.toNat ≤ 0x10000 := by
    rw [span_toNat]
    exact Nat.sub_le _ _
  have hpos : 0 < T.span.toNat := by
    rw [span_toNat]
    exact T.reloadCounter.span_pos
  refine ⟨Nat.le_mul_of_pos_left _ hpos, ?_⟩
  calc T.span.toNat * (kPrescaler T.ctrl).toNat
      ≤ 0x10000 * 1024 := Nat.mul_le_mul hspan (kPrescaler_le T.ctrl)
    _ = 2 ^ 26 := by decide

/-- The due time of a timer in phase. -/
theorem overflowTime_toNat {T : Timer} (hphase : T.accum < kPrescaler T.ctrl) {last : UInt64}
    (hlast : last.toNat < TimerState.clockLimit) :
    (T.overflowTime last).toNat =
      last.toNat + (T.span.toNat * (kPrescaler T.ctrl).toNat - T.accum.toNat) := by
  obtain ⟨hlow, hhigh⟩ := T.span_mul_bounds
  have haccum := UInt64.lt_iff_toNat_lt.mp hphase
  have hproduct : (T.span * kPrescaler T.ctrl).toNat =
      T.span.toNat * (kPrescaler T.ctrl).toNat := by
    rw [UInt64.toNat_mul]
    exact Nat.mod_eq_of_lt (Nat.lt_of_le_of_lt hhigh (by decide))
  have hle : T.accum ≤ T.span * kPrescaler T.ctrl := by
    rw [UInt64.le_iff_toNat_le, hproduct]
    omega
  unfold TimerState.clockLimit at hlast
  unfold overflowTime
  rw [UInt64.toNat_add, UInt64.toNat_sub_of_le _ _ hle, hproduct]
  exact Nat.mod_eq_of_lt (by omega)

/-- A timer in phase overflows from its due time on. -/
theorem overflowsIn_ne_zero_iff {T : Timer} (hphase : T.accum < kPrescaler T.ctrl)
    {last now : UInt64} (hlast : last.toNat < TimerState.clockLimit)
    (hnow : last ≤ now) (hdelta : T.accum.toNat + (now - last).toNat < 2 ^ 64) :
    T.overflowsIn ((T.accum + (now - last)) / kPrescaler T.ctrl) ≠ 0 ↔
      T.overflowTime last ≤ now := by
  have hpos := kPrescaler_pos T.ctrl
  have hle := UInt64.le_iff_toNat_le.mp hnow
  obtain ⟨hlow, hhigh⟩ := T.span_mul_bounds
  have haccum := UInt64.lt_iff_toNat_lt.mp hphase
  have hsub : (now - last).toNat = now.toNat - last.toNat := UInt64.toNat_sub_of_le _ _ hnow
  rw [UInt64.le_iff_toNat_le, overflowTime_toNat hphase hlast, Ne, ← UInt64.toNat_inj,
    overflowsIn_toNat, ← Ne, UInt64.toNat_zero, ← Nat.pos_iff_ne_zero,
    ReloadCounter.overflows_pos_iff, ← span_toNat, UInt64.toNat_div, UInt64.toNat_add,
    Nat.mod_eq_of_lt hdelta, Nat.le_div_iff_mul_le hpos, hsub]
  generalize T.span.toNat * (kPrescaler T.ctrl).toNat = length at hlow hhigh ⊢
  omega

/-- A tick keeps the phase. -/
theorem InPhase.tick {T : Timer} (h : T.InPhase) (delta carry : UInt64) :
    (T.tick delta carry).1.InPhase := by
  obtain ⟨hctrl, -⟩ := T.tick_ctrl delta carry
  intro henabled
  have hbefore : T.enabled = true := by
    rw [← henabled]
    unfold enabled
    rw [hctrl]
  rw [hctrl, tick_accum hbefore]
  split
  · exact h hbefore
  · exact UInt64.mod_lt _ (UInt64.lt_iff_toNat_lt.mpr (kPrescaler_pos T.ctrl))

theorem tick_held {T : Timer} (henabled : T.enabled = true) (delta carry : UInt64) :
    (T.tick delta carry).1.accum = T.held delta :=
  tick_accum henabled delta carry

/-- In phase, no time passes for the prescaler either. -/
theorem held_zero {T : Timer} (hphase : T.accum < kPrescaler T.ctrl) : T.held 0 = T.accum := by
  unfold held
  split
  · rfl
  · rw [UInt64.add_zero]
    apply UInt64.toNat_inj.mp
    rw [UInt64.toNat_mod]
    exact Nat.mod_eq_of_lt (UInt64.lt_iff_toNat_lt.mp hphase)

/-- A control write keeps the phase of a timer it starts, or whose held cycles are below the
new prescaler. -/
theorem InPhase.setCtrl {T : Timer} {ctrl : UInt16}
    (h : T.enabled = true → ctrl &&& 0x80 ≠ 0 → T.accum < kPrescaler ctrl) :
    (T.setCtrl ctrl).InPhase := by
  unfold Timer.setCtrl
  split
  · intro _
    exact UInt64.lt_iff_toNat_lt.mpr (kPrescaler_pos ctrl)
  · rename_i hrunning
    intro henabled
    have hon : ctrl &&& 0x80 ≠ 0 := by
      intro hoff
      change (ctrl &&& 0x80 != 0) = true at henabled
      rw [hoff] at henabled
      cases henabled
    have hbefore : T.enabled = true := by
      by_contra hdisabled
      exact hrunning ⟨hon, eq_false_of_ne_true hdisabled⟩
    exact h hbefore hon

/-- A register write that writes no control value keeps the phase. -/
theorem InPhase.write {T : Timer} (hphase : T.InPhase) {off value : UInt32} {width : Nat}
    (h : writesCtrl off width = true → T.enabled = true → newctrl off value &&& 0x80 ≠ 0 →
      T.accum < kPrescaler (newctrl off value)) :
    (T.write off value width).InPhase := by
  unfold Timer.write
  dsimp only
  split
  · rename_i hctrl
    apply InPhase.setCtrl
    split
    · exact h hctrl
    · exact h hctrl
  · split
    · exact hphase
    · exact hphase

/-- A control write to a running timer keeps its accumulator. -/
theorem write_running {T : Timer} (henabled : T.enabled = true) {off : UInt32} (value : UInt32)
    {width : Nat} (hctrl : writesCtrl off width = true) :
    (T.write off value width).ctrl = newctrl off value ∧
      (T.write off value width).accum = T.accum := by
  have hset (U : Timer) (hU : U.enabled = true) (ctrl : UInt16) :
      U.setCtrl ctrl = { U with ctrl := ctrl } := by
    unfold Timer.setCtrl
    rw [if_neg]
    rintro ⟨-, hoff⟩
    rw [hU] at hoff
    cases hoff
  unfold Timer.write
  dsimp only
  rw [if_pos hctrl]
  split
  · rw [hset (T.setReload value.toUInt16) henabled]
    exact ⟨rfl, rfl⟩
  · rw [hset T henabled]
    exact ⟨rfl, rfl⟩

end Timer

/-! ### The banks -/

namespace TimerBank

/-- The overflows of a clock-driven timer do not depend on the timers before it. -/
theorem overflowCount_clockDriven {bank : TimerBank} {t : Fin 4}
    (hdriven : (bank.timer t).clockDriven = true) (hphase : (bank.timer t).InPhase)
    (cpu : NdsCpu) (cycles : UInt64) :
    bank.overflowCount cpu cycles t =
      (bank.timer t).overflowsIn (((bank.timer t).accum + bank.delta cpu cycles) /
        kPrescaler (bank.timer t).ctrl) := by
  unfold overflowCount
  by_cases hnone : bank.delta cpu cycles = 0
  · have hphase := hphase (Timer.clockDriven_iff.mp hdriven).1
    have hticks : (bank.timer t).accum / kPrescaler (bank.timer t).ctrl = 0 := by
      apply UInt64.toNat_inj.mp
      rw [UInt64.toNat_div]
      exact Nat.div_eq_of_lt (UInt64.lt_iff_toNat_lt.mp hphase)
    have hzero := congrArg Prod.snd (bank.timer t).advance_zero
    rw [Timer.advance_snd] at hzero
    rw [if_pos hnone, hnone, UInt64.add_zero, hticks]
    exact hzero.symm
  · have hsplit : (List.finRange 4).take (t.val + 1) = (List.finRange 4).take t.val ++ [t] := by
      fin_cases t <;> rfl
    have hfresh : t ∉ (List.finRange 4).take t.val := by
      fin_cases t <;> decide
    rw [if_neg hnone, hsplit, List.foldl_append, List.foldl_cons, List.foldl_nil]
    change (Timer.tick _ _ _).2 = _
    rw [TimerTick.foldl_timer_of_notMem _ _ _ hfresh]
    exact Timer.tick_overflows hdriven _ _

end TimerBank

namespace TimerState

/-! ### The earliest time -/

theorem earlier_le (s : TimerState) (best : UInt64) (i : NdsCpu × Fin 4) :
    s.earlier best i ≤ best := by
  unfold earlier
  dsimp only
  split
  · exact UInt64.le_refl _
  · split
    · exact UInt64.le_refl _
    · split
      · rename_i hdue
        exact UInt64.le_of_lt hdue
      · exact UInt64.le_refl _

theorem earlier_clockDriven (s : TimerState) (best : UInt64) {i : NdsCpu × Fin 4}
    (hdriven : (s.timer i).clockDriven = true) :
    s.earlier best i =
      if (s.timer i).overflowTime (s.bank i.1).last < best then
        (s.timer i).overflowTime (s.bank i.1).last else best := by
  obtain ⟨henabled, hcount⟩ := Timer.clockDriven_iff.mp hdriven
  unfold earlier
  dsimp only
  rw [if_neg (by rw [henabled]; decide), if_neg (by rw [hcount]; decide)]

theorem earlier_not_clockDriven (s : TimerState) (best : UInt64) {i : NdsCpu × Fin 4}
    (hdriven : (s.timer i).clockDriven ≠ true) : s.earlier best i = best := by
  unfold earlier
  dsimp only
  split
  · rfl
  · rename_i henabled
    split
    · rfl
    · rename_i hcount
      have hon : (s.timer i).enabled = true := eq_true_of_ne_false henabled
      exact absurd (Timer.clockDriven_iff.mpr ⟨hon, eq_false_of_ne_true hcount⟩) hdriven

theorem foldl_earlier_le (s : TimerState) (is : List (NdsCpu × Fin 4)) (best : UInt64) :
    is.foldl s.earlier best ≤ best := by
  induction is generalizing best with
  | nil => exact UInt64.le_refl _
  | cons i is ih => exact UInt64.le_trans (ih _) (s.earlier_le best i)

/-- No clock-driven timer is due before the earliest time. -/
theorem foldl_earlier_le_due (s : TimerState) {is : List (NdsCpu × Fin 4)} (best : UInt64)
    {i : NdsCpu × Fin 4} (hi : i ∈ is) (hdriven : (s.timer i).clockDriven = true) :
    is.foldl s.earlier best ≤ (s.timer i).overflowTime (s.bank i.1).last := by
  induction is generalizing best with
  | nil => cases hi
  | cons j is ih =>
      rw [List.foldl_cons]
      rcases List.mem_cons.mp hi with rfl | hmem
      · refine UInt64.le_trans (s.foldl_earlier_le is _) ?_
        rw [earlier_clockDriven s best hdriven]
        split
        · exact UInt64.le_refl _
        · rename_i hdue
          exact UInt64.not_lt.mp hdue
      · exact ih _ hmem

/-- The earliest time is the start value or a clock-driven timer's due time. -/
theorem foldl_earlier_attained (s : TimerState) (is : List (NdsCpu × Fin 4)) (best : UInt64) :
    is.foldl s.earlier best = best ∨ ∃ i ∈ is, (s.timer i).clockDriven = true ∧
      is.foldl s.earlier best = (s.timer i).overflowTime (s.bank i.1).last := by
  induction is generalizing best with
  | nil => exact Or.inl rfl
  | cons j is ih =>
      rw [List.foldl_cons]
      rcases ih (s.earlier best j) with hkept | ⟨i, hi, hdriven, hdue⟩
      · by_cases hdriven : (s.timer j).clockDriven = true
        · rw [hkept, earlier_clockDriven s best hdriven]
          split
          · exact Or.inr ⟨j, List.mem_cons_self, hdriven, rfl⟩
          · exact Or.inl rfl
        · rw [hkept, earlier_not_clockDriven s best hdriven]
          exact Or.inl rfl
      · exact Or.inr ⟨i, List.mem_cons_of_mem _ hi, hdriven, hdue⟩

theorem mem_allTimers (i : NdsCpu × Fin 4) : i ∈ allTimers := by
  obtain ⟨cpu, t⟩ := i
  cases cpu <;> fin_cases t <;> decide

/-! ### The prediction -/

/-- Phases, and clocks before their limit. -/
structure Timely (s : TimerState) : Prop where
  phase : ∀ i, (s.timer i).InPhase
  clock : ∀ cpu, (s.bank cpu).last.toNat < clockLimit

/-- A count of the CPU's own clock at a system cycle. -/
def cyclesAt (cpu : NdsCpu) (time : UInt64) : UInt64 :=
  match cpu with
  | .arm9 => time <<< 1
  | .arm7 => time

theorem systemCycles_cyclesAt (cpu : NdsCpu) {time : UInt64} (h : time.toNat < 2 ^ 63) :
    TimerBank.systemCycles cpu (cyclesAt cpu time) = time := by
  cases cpu with
  | arm9 =>
      apply UInt64.toNat_inj.mp
      change ((time <<< 1) >>> 1).toNat = time.toNat
      rw [UInt64.toNat_shiftRight, UInt64.toNat_shiftLeft, Nat.shiftRight_eq_div_pow,
        Nat.shiftLeft_eq]
      change time.toNat * 2 ^ 1 % 2 ^ 64 / 2 ^ 1 = time.toNat
      omega
  | arm7 => rfl

/-- A clock-driven timer overflows from its due time on. -/
theorem Timely.overflows_iff {s : TimerState} (h : s.Timely) {i : NdsCpu × Fin 4}
    (hdriven : (s.timer i).clockDriven = true) {cycles : UInt64}
    (hclock : (s.bank i.1).last ≤ TimerBank.systemCycles i.1 cycles)
    (hlimit : (TimerBank.systemCycles i.1 cycles).toNat < 2 ^ 63) :
    (s.bank i.1).overflowCount i.1 cycles i.2 ≠ 0 ↔
      (s.timer i).overflowTime (s.bank i.1).last ≤ TimerBank.systemCycles i.1 cycles := by
  have hphase := h.phase i (Timer.clockDriven_iff.mp hdriven).1
  rw [TimerBank.overflowCount_clockDriven hdriven (h.phase i)]
  refine Timer.overflowsIn_ne_zero_iff hphase (h.clock i.1) hclock ?_
  have haccum := UInt64.lt_iff_toNat_lt.mp hphase
  have hle := kPrescaler_le (s.timer i).ctrl
  rw [UInt64.toNat_sub_of_le _ _ hclock]
  omega

theorem Timely.due_bounds {s : TimerState} (h : s.Timely) {i : NdsCpu × Fin 4}
    (hdriven : (s.timer i).clockDriven = true) :
    (s.bank i.1).last ≤ (s.timer i).overflowTime (s.bank i.1).last ∧
      ((s.timer i).overflowTime (s.bank i.1).last).toNat < 2 ^ 63 := by
  have hphase := h.phase i (Timer.clockDriven_iff.mp hdriven).1
  have hlimit := h.clock i.1
  obtain ⟨-, hhigh⟩ := (s.timer i).span_mul_bounds
  have hdue := Timer.overflowTime_toNat hphase hlimit
  unfold clockLimit at hlimit
  refine ⟨?_, ?_⟩
  · rw [UInt64.le_iff_toNat_le, hdue]
    exact Nat.le_add_right _ _
  · rw [hdue]
    omega

theorem Timely.exact {s : TimerState} (h : s.Timely) : s.Exact := by
  have hearliest {i : NdsCpu × Fin 4} (hdriven : (s.timer i).clockDriven = true) :
      s.nextTimerOverflowTime ≤ (s.timer i).overflowTime (s.bank i.1).last :=
    s.foldl_earlier_le_due _ (mem_allTimers i) hdriven
  refine ⟨h.phase, ?_, ?_⟩
  · intro i cycles hdriven hclock hbefore
    have hdue := UInt64.lt_of_lt_of_le hbefore (hearliest hdriven)
    by_contra hoverflow
    have hlt := UInt64.lt_iff_toNat_lt.mp hdue
    have hlimit : (TimerBank.systemCycles i.1 cycles).toNat < 2 ^ 63 :=
      Nat.lt_trans hlt (h.due_bounds hdriven).2
    have hle := (h.overflows_iff hdriven hclock hlimit).mp hoverflow
    exact UInt64.not_lt.mpr hle hdue
  · rintro ⟨j, hj⟩
    rcases s.foldl_earlier_attained allTimers 0xFFFFFFFFFFFFFFFF with hnone | ⟨i, -, hdriven, hdue⟩
    · -- a due time is never the start value
      have hle := UInt64.le_iff_toNat_le.mp (hearliest hj)
      have hlt := (h.due_bounds hj).2
      unfold nextTimerOverflowTime at hle
      rw [hnone] at hle
      exact absurd (Nat.lt_of_le_of_lt hle hlt) (by decide)
    · obtain ⟨hlast, hlimit⟩ := h.due_bounds hdriven
      have hcycles := systemCycles_cyclesAt i.1 hlimit
      refine ⟨i, cyclesAt i.1 ((s.timer i).overflowTime (s.bank i.1).last), hdriven, ?_, ?_, ?_⟩
      · rw [hcycles]
        exact hlast
      · rw [hcycles]
        exact hdue.symm
      · refine (h.overflows_iff hdriven ?_ ?_).mpr ?_
        · rw [hcycles]
          exact hlast
        · rw [hcycles]
          exact hlimit
        · rw [hcycles]
          exact UInt64.le_refl _

/-! ### Runs -/

theorem Timely.tick {s : TimerState} (h : s.Timely) {cpu : NdsCpu} {cycles : UInt64}
    (hlimit : (TimerBank.systemCycles cpu cycles).toNat < clockLimit) :
    (s.tick cpu cycles).Timely := by
  refine ⟨?_, ?_⟩
  · rintro ⟨other, t⟩
    unfold timer
    rcases eq_or_ne other cpu with rfl | hother
    · rw [tick_bank]
      rcases (s.bank other).ndsTickTimers_timer other cycles t with ⟨-, hsame⟩ | ⟨-, _, hticked⟩
      · rw [hsame]
        exact h.phase (other, t)
      · rw [hticked]
        exact (h.phase (other, t)).tick _ _
    · rw [tick_bank_of_ne s hother]
      exact h.phase (other, t)
  · intro other
    rcases eq_or_ne other cpu with rfl | hother
    · rw [tick_bank, TimerBank.ndsTickTimers_last]
      exact hlimit
    · rw [tick_bank_of_ne s hother]
      exact h.clock other

/-- The accumulator a control write finds. -/
theorem Timely.caughtUp {s : TimerState} (h : s.Timely) {cpu : NdsCpu} {t : Fin 4}
    (cycles : UInt64) (henabled : (s.timer (cpu, t)).enabled = true) :
    ((s.tick cpu cycles).timer (cpu, t)).accum =
      (s.timer (cpu, t)).held ((s.bank cpu).delta cpu cycles) := by
  unfold timer
  rw [tick_bank]
  rcases (s.bank cpu).ndsTickTimers_timer cpu cycles t with ⟨hnone, hsame⟩ | ⟨-, _, hticked⟩
  · rw [hsame, hnone]
    exact (Timer.held_zero (h.phase (cpu, t) henabled)).symm
  · rw [hticked]
    exact Timer.tick_held henabled _ _

theorem tick_timer_ctrl (s : TimerState) (cpu : NdsCpu) (cycles : UInt64) (t : Fin 4) :
    ((s.tick cpu cycles).timer (cpu, t)).ctrl = (s.timer (cpu, t)).ctrl := by
  unfold timer
  rw [tick_bank]
  rcases (s.bank cpu).ndsTickTimers_timer cpu cycles t with ⟨-, hsame⟩ | ⟨-, _, hticked⟩
  · rw [hsame]
  · rw [hticked]
    exact (Timer.tick_ctrl _ _ _).1

theorem tick_timer_enabled (s : TimerState) (cpu : NdsCpu) (cycles : UInt64) (t : Fin 4) :
    ((s.tick cpu cycles).timer (cpu, t)).enabled = (s.timer (cpu, t)).enabled := by
  unfold Timer.enabled
  rw [tick_timer_ctrl]

theorem Timely.setTimer {s : TimerState} (h : s.Timely) {cpu : NdsCpu} {t : Fin 4} {T : Timer}
    (hT : T.InPhase) : (s.setBank cpu ((s.bank cpu).setTimer t T)).Timely := by
  have hbank (other : NdsCpu) : (s.setBank cpu ((s.bank cpu).setTimer t T)).bank other =
      Function.update s.bank cpu ((s.bank cpu).setTimer t T) other := rfl
  refine ⟨?_, ?_⟩
  · rintro ⟨other, u⟩
    unfold timer
    rw [hbank]
    rcases eq_or_ne other cpu with rfl | hother
    · rw [Function.update_self]
      change (Function.update (s.bank other).timer t T u).InPhase
      rcases eq_or_ne u t with rfl | hu
      · rw [Function.update_self]
        exact hT
      · rw [Function.update_of_ne hu]
        exact h.phase (other, u)
    · rw [Function.update_of_ne hother]
      exact h.phase (other, u)
  · intro other
    rw [hbank]
    rcases eq_or_ne other cpu with rfl | hother
    · rw [Function.update_self]
      exact h.clock other
    · rw [Function.update_of_ne hother]
      exact h.clock other

theorem Timely.next {s : TimerState} (h : s.Timely) {op : TimerOp} (hphase : s.KeepsPhase op)
    (hlimit : BelowWrap op) : (s.next op).Timely := by
  cases op with
  | tick cpu cycles => exact h.tick hlimit
  | write cpu cycles t off value width =>
      change (s.write cpu cycles t off value width).Timely
      unfold TimerState.write
      dsimp only
      by_cases hctrl : Timer.writesCtrl off width = true
      · rw [if_pos hctrl]
        have hticked := h.tick hlimit
        refine hticked.setTimer (Timer.InPhase.write (hticked.phase (cpu, t)) ?_)
        intro _ henabled hon
        rw [tick_timer_enabled] at henabled
        rw [h.caughtUp cycles henabled]
        exact hphase hctrl henabled hon
      · rw [if_neg hctrl]
        exact h.setTimer (Timer.InPhase.write (h.phase (cpu, t)) fun hwrites => absurd hwrites hctrl)
  | setIrf cpu value => exact ⟨h.phase, h.clock⟩

theorem timely_invariant :
    (timerSystem.restrict fun s op => s.KeepsPhase op ∧ BelowWrap op).Invariant Timely := by
  refine ⟨?_, ?_⟩
  · rintro s rfl
    have hdisabled (i : NdsCpu × Fin 4) : (({} : TimerState).timer i).enabled = false := by
      change ((0 : UInt16) &&& 0x80 != 0) = false
      decide
    refine ⟨fun i henabled => ?_, fun cpu => ?_⟩
    · rw [hdisabled i] at henabled
      cases henabled
    · exact (by decide : 0 < clockLimit)
  · intro s op h hadmits
    exact h.next hadmits.2.1 hadmits.2.2

/-- A control write that does not keep the phase leaves a running timer out of phase. -/
theorem Timely.next_not_exact {s : TimerState} (h : s.Timely) {op : TimerOp}
    (hphase : ¬ s.KeepsPhase op) : ¬ (s.next op).Exact := by
  intro hexact
  cases op with
  | tick cpu cycles => exact hphase trivial
  | setIrf cpu value => exact hphase trivial
  | write cpu cycles t off value width =>
      apply hphase
      intro hctrl henabled hon
      have hafter := hexact.phase (cpu, t)
      have hwritten : ((s.next (.write cpu cycles t off value width)).timer (cpu, t)) =
          ((s.tick cpu cycles).timer (cpu, t)).write off value width := by
        change ((s.write cpu cycles t off value width).bank cpu).timer t = _
        unfold TimerState.write
        dsimp only
        rw [if_pos hctrl]
        change (Function.update (s.tick cpu cycles).bank cpu _ cpu).timer t = _
        rw [Function.update_self]
        exact Function.update_self _ _ _
      have hticked : ((s.tick cpu cycles).timer (cpu, t)).enabled = true := by
        rw [tick_timer_enabled]
        exact henabled
      obtain ⟨hnewctrl, haccum⟩ := Timer.write_running hticked value hctrl
      rw [hwritten] at hafter
      have hlt := hafter (by
        unfold Timer.enabled
        rw [hnewctrl]
        exact bne_iff_ne.mpr hon)
      rw [hnewctrl, haccum, h.caughtUp cycles henabled] at hlt
      exact hlt

/-- In every run whose control writes put no prescaler over a running timer that its held
cycles already reach, the prediction is exact in every state; the first write that does
ends this. -/
theorem next_overflow_exact {s : TimerState}
    (h : (timerSystem.restrict fun s op => s.KeepsPhase op ∧ BelowWrap op).Reachable s) :
    s.Exact ∧ ∀ op, ¬ s.KeepsPhase op → ¬ (s.next op).Exact := by
  have htimely := h.invariant timely_invariant
  exact ⟨htimely.exact, fun _ hphase => htimely.next_not_exact hphase⟩

instance (s : TimerState) (op : TimerOp) : Decidable (s.KeepsPhase op) :=
  match op with
  | .tick _ _ => inferInstanceAs (Decidable True)
  | .write cpu cycles t off value width =>
      inferInstanceAs (Decidable (Timer.writesCtrl off width = true →
        (s.timer (cpu, t)).enabled = true → Timer.newctrl off value &&& 0x80 ≠ 0 →
        (s.timer (cpu, t)).held ((s.bank cpu).delta cpu cycles) <
          kPrescaler (Timer.newctrl off value)))
  | .setIrf _ _ => inferInstanceAs (Decidable True)

instance (op : TimerOp) : Decidable (BelowWrap op) :=
  match op with
  | .tick cpu cycles =>
      inferInstanceAs (Decidable ((TimerBank.systemCycles cpu cycles).toNat < clockLimit))
  | .write cpu cycles _ _ _ _ =>
      inferInstanceAs (Decidable ((TimerBank.systemCycles cpu cycles).toNat < clockLimit))
  | .setIrf _ _ => inferInstanceAs (Decidable True)

/-- Timer 0 of the ARM7 with prescaler 1024 and reload 0xFFFF, 1023 cycles later. -/
def slowOps : List TimerOp := [.write .arm7 0 0 0 0x0083FFFF 4, .tick .arm7 1023]

def slowTimer : TimerState := timerSystem.runFrom {} slowOps

theorem slowTimer_exact :
    slowTimer.Exact ∧ ∀ op, ¬ slowTimer.KeepsPhase op → ¬ (slowTimer.next op).Exact := by
  have hadmits : (timerSystem.restrict fun s op => s.KeepsPhase op ∧ BelowWrap op).AdmitsAll {}
      slowOps := by decide
  exact next_overflow_exact (OpSystem.Reachable.runFrom (.start rfl) hadmits)

/-- Prescaler 1 over the 1023 held cycles: the predicted time is past. -/
theorem fasterPrescaler_not_exact :
    timerSystem.Reachable (slowTimer.next (.write .arm7 1023 0 2 0x0080 2)) ∧
      (slowTimer.next (.write .arm7 1023 0 2 0x0080 2)).nextTimerOverflowTime = 1 ∧
      ¬ (slowTimer.next (.write .arm7 1023 0 2 0x0080 2)).Exact := by
  refine ⟨?_, ?_, ?_⟩
  · have hadmits : timerSystem.AdmitsAll {} slowOps := by decide
    have hwrite : timerSystem.admits slowTimer (.write .arm7 1023 0 2 0x0080 2) := by
      decide
    exact .step (OpSystem.Reachable.runFrom (.start rfl) hadmits) hwrite
  · decide
  · intro hexact
    have hphase := hexact.phase (.arm7, 0)
    revert hphase
    unfold Timer.InPhase
    decide

end TimerState

end NdsRecomp.Io
