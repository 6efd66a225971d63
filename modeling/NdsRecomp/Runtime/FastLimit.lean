import NdsRecomp.Runtime.PollState

/-!
The deadline of the per-instruction checks. `publishFastLimit` derives it from
a conjunction over the whole poll state; the inline `runtimeTick` and
`runtimeShouldYield` compare the clock against it and fall back to the full
scans only at or past it.
-/

namespace NdsRecomp.Runtime

open Bus

namespace PollState

/-- What `publish_fast_limit` refuses to publish under. -/
def disqualified (s : PollState) : Bool :=
  !s.cycleFastLimitEnabled || !s.cpuFastPoll || s.breakPc != 0 || s.terminal ||
    s.cycleCap == 0 || s.deferredCycles != 0 || s.activeStaticCodeChanged ||
    s.insnStop || s.eventBreakHit || s.cpuHalted s.active || s.dmaCpuStalled s.active ||
    s.irqPendingCache s.active != 0

def publishFastLimit (s : PollState) : PollState :=
  if s.disqualified then { s with fastLimit := 0 }
  else { s with fastLimit := s.cycleCap, fastLimitPublishes := s.fastLimitPublishes + 1 }

/-! ### Tick -/

section Tick

-- `arm9_refill_cycles` and `arm7_refill_cycles` at a branch target.
variable (refillCycles : NdsCpu → UInt32 → UInt32)

/-- The clock half of `runtime_tick_slow`. -/
def commitTick (s : PollState) (cycles : UInt32) : PollState :=
  { s with cycles := s.cycles + (cycles + s.deferredCycles).toUInt64, deferredCycles := 0 }

/-- The pending word `runtime_tick_slow` looks at. -/
def tickPending (s : PollState) : UInt32 :=
  if s.cpuFastPoll then s.irqPendingCache s.active else s.irqPending s.active

/-- `runtime_tick` where CPSR.I is set, so that nothing can be delivered. -/
def tickMasked (s : PollState) (cycles : UInt32) : PollState :=
  let next := s.cycles + cycles.toUInt64
  if next < s.fastLimit then { s with cycles := next } else s.commitTick cycles

def enterIrq (s : PollState) (returnAddress : UInt32) : PollState :=
  { s with cpu := s.cpu.enterIrq returnAddress (s.excBase s.active) }

/-- `runtime_irq` up to the dispatch of the vector. Its nested `runtime_tick`
meets CPSR.I set; `runtimeIrq_eq` gives the source's spelling. -/
def runtimeIrq (s : PollState) (returnAddress : UInt32) : PollState :=
  let s := s.enterIrq returnAddress
  let refill := refillCycles s.active (s.excBase s.active + 0x18)
  if s.deferredCycles ≠ 0 then { s with deferredCycles := s.deferredCycles + refill }
  else s.tickMasked refill

def runtimeTickSlow (s : PollState) (cycles : UInt32) : PollState :=
  let s := s.commitTick cycles
  if !s.cpu.irqMasked ∧ s.tickPending ≠ 0 then s.runtimeIrq refillCycles s.cpu.pc else s

/-- The inline tick. -/
def runtimeTick (s : PollState) (cycles : UInt32) : PollState :=
  let next := s.cycles + cycles.toUInt64
  if next < s.fastLimit then { s with cycles := next } else s.runtimeTickSlow refillCycles cycles

end Tick

/-! ### Yield -/

def breakPcHit (s : PollState) : Bool :=
  s.breakPc != 0 && s.cpu.pc &&& ~~~1 == s.breakPc &&& ~~~1

def unwind (s : PollState) : PollState := { s with unwinding := true }

def haltAtBreakPc (s : PollState) : PollState :=
  if s.breakPcHit then s.ndsHalt "break pc" else s

/-- The full scan of `runtime_should_yield_slow`. -/
def yieldScan (s : PollState) : Bool × PollState :=
  if s.insnStop || s.eventBreakHit then (true, s.unwind)
  else if s.cpuHalted s.active || s.dmaCpuStalled s.active then (true, s.unwind)
  else if s.activeStaticCodeChanged then (true, s.unwind)
  else
    let s := s.haltAtBreakPc
    if s.sliceOver then (true, s.unwind)
    else if s.terminal then (true, s.unwind)
    else (false, publishFastLimit { s with yieldPollHint := false })

def runtimeShouldYieldSlow (s : PollState) : Bool × PollState :=
  if s.cpuFastPoll && !s.yieldPollHint && !s.breakPcHit && !s.sliceOver then
    (false, s.publishFastLimit)
  else s.yieldScan

/-- The inline yield check. -/
def runtimeShouldYield (s : PollState) : Bool × PollState :=
  if s.cycles < s.fastLimit then (false, s) else s.runtimeShouldYieldSlow

/-- `runtime_slice_yield`, the check at backward branches. -/
def runtimeSliceYield (s : PollState) : Bool × PollState :=
  if s.sliceOver then (true, s.unwind) else (false, s)

/-! ### Publishing is sound

`FastLimitSound` is the meaning of a nonzero deadline: nothing that the full
scans would act on is present, and the deadline is the slice cap. -/

def FastLimitSound (s : PollState) : Prop :=
  s.fastLimit ≠ 0 → s.disqualified = false ∧ s.fastLimit = s.cycleCap

theorem sound_of_fastLimit_eq_zero {s : PollState} (h : s.fastLimit = 0) : s.FastLimitSound :=
  fun hne => absurd h hne

theorem publishFastLimit_sound (s : PollState) : s.publishFastLimit.FastLimitSound := by
  intro hne
  unfold publishFastLimit at hne ⊢
  split at hne
  · exact absurd rfl hne
  · rename_i hclear
    rw [if_neg hclear]
    refine ⟨?_, rfl⟩
    simpa [disqualified, activeStaticCodeChanged, eventBreakHit, dmaCpuStalled,
      dmaAnyRunning] using hclear

/-- What a clear deadline condition says, piece by piece. -/
theorem not_disqualified {s : PollState} (h : s.disqualified = false) :
    s.cpuFastPoll = true ∧ s.breakPc = 0 ∧ s.terminal = false ∧ s.cycleCap ≠ 0 ∧
      s.deferredCycles = 0 ∧ s.activeStaticCodeChanged = false ∧ s.insnStop = false ∧
      s.eventBreakHit = false ∧ s.cpuHalted s.active = false ∧
      s.dmaCpuStalled s.active = false ∧ s.irqPendingCache s.active = 0 := by
  simp only [disqualified, Bool.or_eq_false_iff, Bool.not_eq_false', bne_eq_false_iff_eq,
    beq_eq_false_iff_ne] at h
  tauto

/-! ### The inline checks decide as the scans do -/

theorem enterIrq_masked (c : ArmCpuState) (returnAddress excBase : UInt32) :
    (c.enterIrq returnAddress excBase).irqMasked = true := by
  have hbit : ∀ v : UInt32, ((v &&& ~~~0xFF) ||| 0xD2) &&& 0x80 = 0x80 := by
    intro v
    apply UInt32.toBitVec_inj.mp
    simp only [UInt32.toBitVec_and, UInt32.toBitVec_or, UInt32.toBitVec_not]
    ext i hi
    simp
    interval_cases i <;> simp_all
  simp [ArmCpuState.irqMasked, ArmCpuState.enterIrq, ArmCpuState.setR, cpsrIBit, hbit]

theorem runtimeTick_of_masked (refillCycles : NdsCpu → UInt32 → UInt32) {s : PollState}
    (hmasked : s.cpu.irqMasked = true) (cycles : UInt32) :
    s.runtimeTick refillCycles cycles = s.tickMasked cycles := by
  simp [runtimeTick, tickMasked, runtimeTickSlow, commitTick, hmasked]

/-- `runtime_irq` as the source spells it, with the inline tick inside. -/
theorem runtimeIrq_eq (refillCycles : NdsCpu → UInt32 → UInt32) (s : PollState)
    (returnAddress : UInt32) :
    s.runtimeIrq refillCycles returnAddress =
      let s := s.enterIrq returnAddress
      let refill := refillCycles s.active (s.excBase s.active + 0x18)
      if s.deferredCycles ≠ 0 then { s with deferredCycles := s.deferredCycles + refill }
      else s.runtimeTick refillCycles refill := by
  have hmasked : (s.enterIrq returnAddress).cpu.irqMasked = true :=
    enterIrq_masked s.cpu returnAddress (s.excBase s.active)
  simp only [runtimeIrq, runtimeTick_of_masked refillCycles hmasked]

/-- Below a sound deadline there is no debt to commit and no interrupt to
deliver, so the slow tick is the addition the inline tick performs. -/
theorem FastLimitSound.tick_eq {s : PollState} (hsound : s.FastLimitSound)
    (refillCycles : NdsCpu → UInt32 → UInt32) (cycles : UInt32) :
    s.runtimeTick refillCycles cycles = s.runtimeTickSlow refillCycles cycles := by
  unfold runtimeTick
  dsimp only
  split
  · rename_i hbelow
    have hne : s.fastLimit ≠ 0 := by
      intro hzero
      rw [hzero, UInt64.lt_iff_toNat_lt] at hbelow
      exact absurd hbelow (Nat.not_lt_zero _)
    obtain ⟨hpoll, -, -, -, hdebt, -, -, -, -, -, hpending⟩ := not_disqualified (hsound hne).1
    simp [runtimeTickSlow, commitTick, tickPending, hpoll, hpending, hdebt]
  · rfl

/-- Below a sound deadline both the short and the full scan find nothing. -/
theorem FastLimitSound.yield_eq {s : PollState} (hsound : s.FastLimitSound) :
    s.runtimeShouldYield.1 = s.runtimeShouldYieldSlow.1 := by
  unfold runtimeShouldYield
  split
  · rename_i hbelow
    have hne : s.fastLimit ≠ 0 := by
      intro hzero
      rw [hzero, UInt64.lt_iff_toNat_lt] at hbelow
      exact absurd hbelow (Nat.not_lt_zero _)
    obtain ⟨hclear, hcap⟩ := hsound hne
    obtain ⟨-, hbreak, hterminal, -, -, hcode, hstop, hevent, hhalted, hstalled, -⟩ :=
      not_disqualified hclear
    have hpc : s.haltAtBreakPc = s := by simp [haltAtBreakPc, breakPcHit, hbreak]
    have hslice : s.sliceOver = false := by
      rw [hcap] at hbelow
      simp only [sliceOver, decide_eq_false_iff_not, not_and]
      intro _
      rw [UInt64.le_iff_toNat_le]
      rw [UInt64.lt_iff_toNat_lt] at hbelow
      omega
    unfold runtimeShouldYieldSlow
    split
    · rfl
    · simp [yieldScan, hstop, hevent, hhalted, hstalled, hcode, hpc, hslice, hterminal]
  · rfl

end PollState

end NdsRecomp.Runtime
