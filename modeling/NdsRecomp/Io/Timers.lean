import NdsRecomp.Runtime.PollState

/-!
The timer bank of one CPU: four counters with reload, prescaler and cascade,
caught up with the clock when a register is accessed or a slice ends.
-/

namespace NdsRecomp.Io

structure Timer where
  reload : UInt16 := 0
  counter : UInt16 := 0
  ctrl : UInt16 := 0
  accum : UInt64 := 0

/-- `kPrescaler[ctrl & 3u]` -/
def kPrescaler (ctrl : UInt16) : UInt64 :=
  if ctrl &&& 3 = 0 then 1
  else if ctrl &&& 3 = 1 then 64
  else if ctrl &&& 3 = 2 then 256
  else 1024

namespace Timer

def enabled (T : Timer) : Bool := T.ctrl &&& 0x80 != 0

def countUp (T : Timer) : Bool := T.ctrl &&& 0x4 != 0

def irqEnabled (T : Timer) : Bool := T.ctrl &&& 0x40 != 0

def setAccum (T : Timer) (accum : UInt64) : Timer := { T with accum := accum }

def setCounter (T : Timer) (counter : UInt16) : Timer := { T with counter := counter }

/-- The prescaler over `delta` cycles: the timer, and the ticks it lets through. -/
def prescale (T : Timer) (delta : UInt64) : Timer × UInt64 :=
  let accum := T.accum + delta
  (T.setAccum (accum % kPrescaler T.ctrl), accum / kPrescaler T.ctrl)

/-- Ticks to the next overflow. -/
def span (T : Timer) : UInt64 := 0x10000 - T.counter.toUInt64

/-- Ticks from one overflow to the next. -/
def reloadSpan (T : Timer) : UInt64 := 0x10000 - T.reload.toUInt64

def counterAfter (T : Timer) (ticks : UInt64) : UInt16 :=
  if ticks < T.span then (T.counter.toUInt64 + ticks).toUInt16
  else (T.reload.toUInt64 + (ticks - T.span) % T.reloadSpan).toUInt16

def overflowsIn (T : Timer) (ticks : UInt64) : UInt64 :=
  if ticks < T.span then 0 else 1 + (ticks - T.span) / T.reloadSpan

/-- The counter over `ticks` ticks: the timer, and how often it overflowed. -/
def advance (T : Timer) (ticks : UInt64) : Timer × UInt64 :=
  (T.setCounter (T.counterAfter ticks), T.overflowsIn ticks)

/-- What clocks the counter: the overflows of the timer before it, or the
prescaler. -/
def clocked (T : Timer) (delta carry : UInt64) : Timer × UInt64 :=
  if T.countUp then (T, carry) else T.prescale delta

/-- One timer over `delta` cycles in which the timer before it overflowed
`carry` times, with its own overflows. -/
def tick (T : Timer) (delta carry : UInt64) : Timer × UInt64 :=
  if T.enabled = false then (T, 0)
  else
    let (T, ticks) := T.clocked delta carry
    if ticks = 0 then (T, 0) else T.advance ticks

def setReload (T : Timer) (reload : UInt16) : Timer := { T with reload := reload }

/-- A new control value; an enable edge reloads the counter. -/
def setCtrl (T : Timer) (newctrl : UInt16) : Timer :=
  if newctrl &&& 0x80 ≠ 0 ∧ T.enabled = false then
    { T with ctrl := newctrl, counter := T.reload, accum := 0 }
  else { T with ctrl := newctrl }

/-- `(off == 0 && width >= 4) || off == 2` -/
def writesCtrl (off : UInt32) (width : Nat) : Bool := (off == 0 && decide (4 ≤ width)) || off == 2

/-- A write at byte offset `off` of the register pair of a timer. -/
def write (T : Timer) (off value : UInt32) (width : Nat) : Timer :=
  let T := if off = 0 ∧ 2 ≤ width then T.setReload value.toUInt16 else T
  if writesCtrl off width then T.setCtrl (if off = 2 then value else value >>> 16).toUInt16 else T

end Timer

structure TimerBank where
  timer : Fin 4 → Timer := fun _ => {}
  last : UInt64 := 0

/-- A catch-up under way: the timers, the overflows handed to the next one, the
interrupts raised and the overflows counted for them. -/
structure TimerTick where
  timer : Fin 4 → Timer
  carry : UInt64 := 0
  irq : UInt32 := 0
  overflows : UInt64 := 0

def TimerTick.step (delta : UInt64) (s : TimerTick) (t : Fin 4) : TimerTick :=
  let (T, carry) := (s.timer t).tick delta s.carry
  let raises := carry ≠ 0 ∧ T.irqEnabled = true
  { timer := Function.update s.timer t T
    carry := carry
    irq := if raises then s.irq ||| (1 <<< (3 + UInt32.ofNat t)) else s.irq
    overflows := if raises then s.overflows + carry else s.overflows }

namespace TimerBank

/-- Timers count system cycles; the ARM9's own count runs at twice the rate. -/
def systemCycles (cpu : Bus.NdsCpu) (cpuCycles : UInt64) : UInt64 :=
  match cpu with
  | .arm9 => cpuCycles >>> 1
  | .arm7 => cpuCycles

/-- `nds_tick_timers`: the bank, the interrupts raised, the overflows counted. -/
def ndsTickTimers (bank : TimerBank) (cpu : Bus.NdsCpu) (cpuCycles : UInt64) :
    TimerBank × UInt32 × UInt64 :=
  let cyc := systemCycles cpu cpuCycles
  let delta := cyc - bank.last
  if delta = 0 then ({ bank with last := cyc }, 0, 0)
  else
    let done := (List.finRange 4).foldl (TimerTick.step delta) { timer := bank.timer }
    ({ timer := done.timer, last := cyc }, done.irq, done.overflows)

end TimerBank

/-! ### The prescaler's remainder -/

theorem kPrescaler_le (ctrl : UInt16) : (kPrescaler ctrl).toNat ≤ 1024 := by
  unfold kPrescaler
  split
  · decide
  · split
    · decide
    · split
      · decide
      · decide

theorem kPrescaler_pos (ctrl : UInt16) : 0 < (kPrescaler ctrl).toNat := by
  unfold kPrescaler
  split
  · decide
  · split
    · decide
    · split
      · decide
      · decide

namespace Timer

/-- The accumulator is below every prescaler bound. -/
def AccumBounded (T : Timer) : Prop := T.accum.toNat < 1024

theorem advance_accum (T : Timer) (ticks : UInt64) : (T.advance ticks).1.accum = T.accum := by
  cases T
  rfl

theorem prescale_accumBounded (T : Timer) (delta : UInt64) : (T.prescale delta).1.AccumBounded := by
  change ((T.accum + delta) % kPrescaler T.ctrl).toNat < 1024
  rw [UInt64.toNat_mod]
  have hlt := Nat.mod_lt (T.accum + delta).toNat (kPrescaler_pos T.ctrl)
  have hle := kPrescaler_le T.ctrl
  omega

theorem AccumBounded.clocked {T : Timer} (h : T.AccumBounded) (delta carry : UInt64) :
    (T.clocked delta carry).1.AccumBounded := by
  unfold Timer.clocked
  split
  · exact h
  · exact prescale_accumBounded T delta

theorem AccumBounded.tick {T : Timer} (h : T.AccumBounded) (delta carry : UInt64) :
    (T.tick delta carry).1.AccumBounded := by
  have hclocked := h.clocked delta carry
  unfold Timer.tick
  dsimp only
  split
  · exact h
  · split
    · exact hclocked
    · unfold AccumBounded
      rw [advance_accum]
      exact hclocked

theorem AccumBounded.setCtrl {T : Timer} (h : T.AccumBounded) (newctrl : UInt16) :
    (T.setCtrl newctrl).AccumBounded := by
  unfold Timer.setCtrl
  split
  · exact Nat.zero_lt_succ _
  · exact h

theorem AccumBounded.write {T : Timer} (h : T.AccumBounded) (off value : UInt32) (width : Nat) :
    (T.write off value width).AccumBounded := by
  have hreload : (if off = 0 ∧ 2 ≤ width then T.setReload value.toUInt16 else T).AccumBounded := by
    split
    · exact h
    · exact h
  unfold Timer.write
  dsimp only
  generalize hT : (if off = 0 ∧ 2 ≤ width then T.setReload value.toUInt16 else T) = U at hreload ⊢
  split
  · exact hreload.setCtrl _
  · exact hreload

end Timer

namespace TimerBank

def AccumBounded (bank : TimerBank) : Prop := ∀ t, (bank.timer t).AccumBounded

theorem AccumBounded.ndsTickTimers {bank : TimerBank} (h : bank.AccumBounded) (cpu : Bus.NdsCpu)
    (cpuCycles : UInt64) : (bank.ndsTickTimers cpu cpuCycles).1.AccumBounded := by
  -- every step of the fold replaces one timer by its ticked one
  have hfold (delta : UInt64) (ts : List (Fin 4)) (s : TimerTick)
      (hs : ∀ t, (s.timer t).AccumBounded) :
      ∀ t, ((ts.foldl (TimerTick.step delta) s).timer t).AccumBounded := by
    induction ts generalizing s with
    | nil => exact hs
    | cons t ts ih =>
        refine ih _ fun u => ?_
        change (Function.update s.timer t _ u).AccumBounded
        rcases eq_or_ne u t with rfl | hu
        · rw [Function.update_self]
          exact (hs u).tick delta s.carry
        · rw [Function.update_of_ne hu]
          exact hs u
  unfold TimerBank.ndsTickTimers
  dsimp only
  split
  · exact fun t => h t
  · exact hfold (systemCycles cpu cpuCycles - bank.last) (List.finRange 4)
      { timer := bank.timer } h

end TimerBank

end NdsRecomp.Io
