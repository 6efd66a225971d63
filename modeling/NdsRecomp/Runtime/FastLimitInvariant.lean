import NdsRecomp.Runtime.PollSystem

/-!
The deadline invariant over every run. One lemma per operation says that it
re-arms the deadline or adds nothing the deadline was published without; the
exception is a CPU switch for a DMA-only slice, where a published deadline
outlives the CPU it was derived for until the next slice begins.
-/

namespace NdsRecomp.Runtime

open Library Bus

namespace PollState

/-! ### What each operation does to the deadline -/

/-- An operation either re-arms the deadline or leaves it and the cap alone
while adding nothing that would disqualify it. -/
theorem FastLimitSound.mono {s t : PollState} (hs : s.FastLimitSound)
    (hlimit : t.fastLimit = s.fastLimit) (hcap : t.cycleCap = s.cycleCap)
    (hless : s.disqualified = false → t.disqualified = false) : t.FastLimitSound := by
  intro hne
  rw [hlimit] at hne
  obtain ⟨hclear, heq⟩ := hs hne
  refine ⟨hless hclear, ?_⟩
  rw [hlimit, hcap, heq]

theorem ioWriteIfHigh_sound {s : PollState} (hs : s.FastLimitSound) (cpu : NdsCpu)
    (value : UInt32) (gxfifo : Bool) : (s.ioWriteIfHigh cpu value gxfifo).FastLimitSound := by
  unfold ioWriteIfHigh
  split
  · exact sound_of_fastLimit_eq_zero rfl
  · exact hs

theorem cpuEnterHalt_sound {s : PollState} (hs : s.FastLimitSound) (cpu : NdsCpu) :
    (s.cpuEnterHalt cpu).FastLimitSound := by
  unfold cpuEnterHalt
  split
  · exact hs
  · exact sound_of_fastLimit_eq_zero rfl

theorem ioWriteHaltcnt_sound {s : PollState} (hs : s.FastLimitSound) (cpu : NdsCpu)
    (value : UInt8) (code : UInt32) : (s.ioWriteHaltcnt cpu value code).FastLimitSound := by
  unfold ioWriteHaltcnt
  split
  · exact sound_of_fastLimit_eq_zero rfl
  · exact hs

/-- Rewriting a channel without starting it adds no stall. -/
theorem setDma_sound {s : PollState} (hs : s.FastLimitSound) (cpu : NdsCpu) (ch : Fin 4)
    {d : DmaChannel} (hd : d.running = true → (s.dma cpu ch).running = true) :
    (s.setDma cpu ch d).FastLimitSound := by
  have hrunning (c : NdsCpu) (i : Fin 4) (h : (s.dma c i).running = false) :
      ((s.setDma cpu ch d).dma c i).running = false := by
    by_cases hc : c = cpu
    · subst hc
      by_cases hi : i = ch
      · subst hi
        have hnot : d.running ≠ true := fun hd' => by simp [hd hd'] at h
        simpa [setDma] using hnot
      · simpa [setDma, Function.update_of_ne hi] using h
    · simpa [setDma, Function.update_of_ne hc] using h
  refine hs.mono rfl rfl fun hclear => ?_
  simp only [disqualified, Bool.or_eq_false_iff, dmaCpuStalled, dmaAnyRunning] at hclear ⊢
  obtain ⟨⟨hrest, ⟨⟨h0, h1⟩, h2⟩, h3⟩, hirq⟩ := hclear
  exact ⟨⟨hrest, ⟨⟨hrunning _ _ h0, hrunning _ _ h1⟩, hrunning _ _ h2⟩, hrunning _ _ h3⟩, hirq⟩

theorem dmaStart_sound {s : PollState} (hs : s.FastLimitSound) (cpu : NdsCpu) (ch : Fin 4) :
    (s.dmaStart cpu ch).FastLimitSound := by
  unfold dmaStart
  dsimp only
  split
  · exact hs
  · split
    · exact sound_of_fastLimit_eq_zero rfl
    · exact sound_of_fastLimit_eq_zero rfl

theorem dmaStart_phase (s : PollState) (cpu : NdsCpu) (ch : Fin 4) :
    (s.dmaStart cpu ch).phase = s.phase := by
  unfold dmaStart
  dsimp only
  split
  · rfl
  · split
    · rfl
    · rfl

/-- The trigger loop, channel by channel. -/
theorem dmaTrigger_keeps {P : PollState → Prop} (hstart : ∀ s cpu ch, P s → P (dmaStart s cpu ch))
    {s : PollState} (hs : P s) (cpu : NdsCpu) (startMode : UInt8) :
    P (s.dmaTrigger cpu startMode) := by
  unfold dmaTrigger
  generalize List.finRange 4 = channels
  induction channels generalizing s with
  | nil => exact hs
  | cons ch rest ih =>
      apply ih
      unfold dmaTriggerChannel
      dsimp only
      split
      · exact hstart s cpu ch hs
      · exact hs

theorem dmaTrigger_sound {s : PollState} (hs : s.FastLimitSound) (cpu : NdsCpu)
    (startMode : UInt8) : (s.dmaTrigger cpu startMode).FastLimitSound :=
  dmaTrigger_keeps (P := FastLimitSound) (fun _ cpu ch h => dmaStart_sound h cpu ch) hs cpu
    startMode

theorem dmaTrigger_phase (s : PollState) (cpu : NdsCpu) (startMode : UInt8) :
    (s.dmaTrigger cpu startMode).phase = s.phase := by
  have hkeeps := dmaTrigger_keeps (P := fun t => t.phase = s.phase)
    (fun t cpu ch h => (dmaStart_phase t cpu ch).trans h) (s := s) rfl cpu startMode
  exact hkeeps

theorem dmaWriteCount_sound {s : PollState} (hs : s.FastLimitSound) (cpu : NdsCpu) (ch : Fin 4)
    (value : UInt32) (fifoRequest : Bool) :
    (s.dmaWriteCount cpu ch value fifoRequest).FastLimitSound := by
  unfold dmaWriteCount
  dsimp only
  split
  · split
    · apply dmaStart_sound
      exact setDma_sound hs cpu ch id
    · split
      · apply dmaTrigger_sound
        exact setDma_sound hs cpu ch id
      · exact setDma_sound hs cpu ch id
  · exact setDma_sound hs cpu ch id

theorem dmaWriteCount_phase (s : PollState) (cpu : NdsCpu) (ch : Fin 4) (value : UInt32)
    (fifoRequest : Bool) : (s.dmaWriteCount cpu ch value fifoRequest).phase = s.phase := by
  unfold dmaWriteCount
  dsimp only
  split
  · split
    · apply dmaStart_phase
    · split
      · apply dmaTrigger_phase
      · rfl
  · rfl

theorem brkCheck_sound {s : PollState} (hs : s.FastLimitSound) : s.brkCheck.FastLimitSound := by
  unfold brkCheck
  split
  · exact hs
  · split
    · exact sound_of_fastLimit_eq_zero rfl
    · exact hs

theorem brkCheck_phase (s : PollState) : s.brkCheck.phase = s.phase := by
  unfold brkCheck
  split
  · rfl
  · split
    · rfl
    · rfl

theorem dmaSuspend_sound {s : PollState} (hs : s.FastLimitSound) (cpu : NdsCpu) (ch : Fin 4) :
    (s.dmaSuspend cpu ch).FastLimitSound :=
  setDma_sound hs cpu ch fun h => absurd h Bool.false_ne_true

theorem dmaDisarm_running (d : DmaChannel) : (dmaDisarm d).running = d.running := by
  unfold dmaDisarm
  split
  · rfl
  · rfl

theorem dmaComplete_sound {s : PollState} (hs : s.FastLimitSound) (cpu : NdsCpu) (ch : Fin 4) :
    (s.dmaComplete cpu ch).FastLimitSound := by
  unfold dmaComplete
  dsimp only
  apply brkCheck_sound
  refine setDma_sound ?_ cpu ch fun h => absurd h Bool.false_ne_true
  split
  · exact sound_of_fastLimit_eq_zero rfl
  · exact setDma_sound hs cpu ch fun h => by rwa [dmaDisarm_running] at h

theorem dmaComplete_phase (s : PollState) (cpu : NdsCpu) (ch : Fin 4) :
    (s.dmaComplete cpu ch).phase = s.phase := by
  unfold dmaComplete
  dsimp only
  rw [brkCheck_phase]
  split
  · rfl
  · rfl

theorem noteCodeWrite_sound {s : PollState} (hs : s.FastLimitSound) (changed refreshed : Bool) :
    (s.noteCodeWrite changed refreshed).FastLimitSound := by
  unfold noteCodeWrite
  split
  · exact sound_of_fastLimit_eq_zero rfl
  · exact hs

/-- Dropping the active guard, or starting a fresh one, adds nothing. -/
theorem setGuard_sound {s : PollState} (hs : s.FastLimitSound) {guard : Option Bool}
    (hguard : guard ≠ some true) (saved : List (Option Bool)) :
    FastLimitSound { s with staticGuard := guard, savedGuards := saved } := by
  refine hs.mono rfl rfl fun hclear => ?_
  have hactive : (guard == some true) = false := by simpa using hguard
  simp only [disqualified, activeStaticCodeChanged, eventBreakHit, dmaCpuStalled,
    dmaAnyRunning, Bool.or_eq_false_iff, hactive, and_true] at hclear ⊢
  tauto

theorem guardLeave_sound {s : PollState} (hs : s.FastLimitSound) (changed refreshed : Bool) :
    (s.guardLeave changed refreshed).FastLimitSound := by
  unfold guardLeave
  split
  · exact hs
  · dsimp only
    split
    · exact sound_of_fastLimit_eq_zero rfl
    · rename_i hlive
      exact setGuard_sound hs hlive _

theorem rescheduleSlice_sound {s : PollState} (hs : s.FastLimitSound) (systemDeadline : UInt64) :
    (s.rescheduleSlice systemDeadline).FastLimitSound := by
  unfold rescheduleSlice
  dsimp only
  split
  · exact sound_of_fastLimit_eq_zero rfl
  · exact hs

/-- A deadline under a sound state has no debt behind it, and new debt re-arms. -/
theorem deferredCyclesSet_sound {s : PollState} (hs : s.FastLimitSound) (cycles : UInt32) :
    (s.deferredCyclesSet cycles).FastLimitSound := by
  unfold deferredCyclesSet
  dsimp only
  split
  · exact sound_of_fastLimit_eq_zero rfl
  · rename_i hzero
    have hcycles : cycles = 0 := not_not.mp hzero
    refine hs.mono rfl rfl fun hclear => ?_
    simp only [disqualified, activeStaticCodeChanged, eventBreakHit, dmaCpuStalled,
      dmaAnyRunning, Bool.or_eq_false_iff, hcycles] at hclear ⊢
    tauto

/-! ### Ticks, yields and slices -/

theorem commitTick_sound {s : PollState} (hs : s.FastLimitSound) (cycles : UInt32) :
    (s.commitTick cycles).FastLimitSound := by
  refine hs.mono rfl rfl fun hclear => ?_
  simp only [commitTick, disqualified, activeStaticCodeChanged, eventBreakHit, dmaCpuStalled,
    dmaAnyRunning, Bool.or_eq_false_iff] at hclear ⊢
  tauto

theorem tickMasked_sound {s : PollState} (hs : s.FastLimitSound) (cycles : UInt32) :
    (s.tickMasked cycles).FastLimitSound := by
  unfold tickMasked
  dsimp only
  split
  · exact hs
  · exact commitTick_sound hs cycles

theorem runtimeIrq_sound {s : PollState} (hs : s.FastLimitSound)
    (refillCycles : NdsCpu → UInt32 → UInt32) (returnAddress : UInt32) :
    (s.runtimeIrq refillCycles returnAddress).FastLimitSound := by
  unfold runtimeIrq
  dsimp only
  split
  · rename_i hdebt
    -- with debt pending the deadline is already down
    intro hne
    obtain ⟨-, -, -, -, hnodebt, -⟩ := not_disqualified (hs hne).1
    exact absurd hnodebt hdebt
  · exact tickMasked_sound (s := s.enterIrq returnAddress) hs _

theorem runtimeTickSlow_sound {s : PollState} (hs : s.FastLimitSound)
    (refillCycles : NdsCpu → UInt32 → UInt32) (cycles : UInt32) :
    (s.runtimeTickSlow refillCycles cycles).FastLimitSound := by
  unfold runtimeTickSlow
  dsimp only
  split
  · exact runtimeIrq_sound (commitTick_sound hs cycles) refillCycles _
  · exact commitTick_sound hs cycles

theorem haltAtBreakPc_sound {s : PollState} (hs : s.FastLimitSound) :
    s.haltAtBreakPc.FastLimitSound := by
  unfold haltAtBreakPc
  split
  · exact sound_of_fastLimit_eq_zero rfl
  · exact hs

theorem yieldScan_sound {s : PollState} (hs : s.FastLimitSound) : s.yieldScan.2.FastLimitSound := by
  unfold yieldScan
  split
  · exact hs
  split
  · exact hs
  split
  · exact hs
  dsimp only
  split
  · exact haltAtBreakPc_sound hs
  split
  · exact haltAtBreakPc_sound hs
  · exact publishFastLimit_sound _

theorem runtimeShouldYield_sound {s : PollState} (hs : s.FastLimitSound) :
    s.runtimeShouldYield.2.FastLimitSound := by
  unfold runtimeShouldYield runtimeShouldYieldSlow
  split
  · exact hs
  split
  · exact publishFastLimit_sound s
  · exact yieldScan_sound hs

theorem sliceEnter_sound (s : PollState) (refillCycles : NdsCpu → UInt32 → UInt32)
    (cpu : NdsCpu) (quantum : UInt32) : (s.sliceEnter refillCycles cpu quantum).FastLimitSound := by
  unfold sliceEnter
  dsimp only
  split
  · have hwoken : ∀ t : PollState, t.fastLimit = 0 → (t.cpuWake cpu).FastLimitSound :=
      fun t ht => sound_of_fastLimit_eq_zero ht
    split
    · exact runtimeIrq_sound (hwoken _ rfl) refillCycles _
    · exact hwoken _ rfl
  · exact sound_of_fastLimit_eq_zero rfl

theorem carryDebt_sound {s : PollState} (hs : s.FastLimitSound) (enter resume : UInt64) :
    (s.carryDebt enter resume).FastLimitSound :=
  deferredCyclesSet_sound (s := { s with cycles := resume }) hs _

theorem sliceLeave_sound {s : PollState} (hs : s.FastLimitSound) (cpu : NdsCpu) (cap : UInt64) :
    (s.sliceLeave cpu cap).FastLimitSound := by
  have hcarried : (s.leaveDebt cpu cap).FastLimitSound := by
    unfold leaveDebt
    split
    · exact hs
    split
    · exact carryDebt_sound hs _ _
    split
    · exact carryDebt_sound hs _ _
    · exact hs
  unfold sliceLeave
  generalize s.leaveDebt cpu cap = t at hcarried
  exact fun hne => hcarried hne

end PollState

/-! ### Every run -/

section Runs

variable (refillCycles : NdsCpu → UInt32 → UInt32)

/-- Outside a DMA-only switch a nonzero deadline means what it says. -/
def PollInvariant (s : PollState) : Prop := s.phase ≠ .switched → s.FastLimitSound

theorem PollInvariant.of_sound {s : PollState} (h : s.FastLimitSound) : PollInvariant s :=
  fun _ => h

/-- A device operation leaves the host where it is. -/
theorem PollInvariant.keeps {s t : PollState} (hs : PollInvariant s) (hphase : t.phase = s.phase)
    (h : s.FastLimitSound → t.FastLimitSound) : PollInvariant t :=
  fun ht => h (hs (hphase ▸ ht))

theorem pollInvariant_guest {s : PollState} (hs : PollInvariant s) (hslice : s.phase = .slice) :
    s.FastLimitSound :=
  hs (by rw [hslice]; exact HostPhase.noConfusion)

open PollState in
theorem pollInvariant_step {s : PollState} (hs : PollInvariant s) {op : PollOp}
    (hop : op.admitted s) : PollInvariant (s.apply refillCycles op) := by
  cases op with
  | guestCpu cpu => exact .of_sound (pollInvariant_guest hs hop)
  | tick cycles =>
      have hsound := pollInvariant_guest hs hop
      refine .of_sound ?_
      have hslow := runtimeTickSlow_sound hsound refillCycles cycles
      rwa [← hsound.tick_eq refillCycles cycles] at hslow
  | shouldYield => exact .of_sound (runtimeShouldYield_sound (pollInvariant_guest hs hop))
  | sliceYield =>
      refine .of_sound ?_
      have hsound := pollInvariant_guest hs hop
      simp only [apply, runtimeSliceYield]
      split
      · exact hsound
      · exact hsound
  | clearUnwinding => exact .of_sound (pollInvariant_guest hs hop)
  | deferredTake =>
      refine .of_sound ?_
      exact commitTick_sound (pollInvariant_guest hs hop) 0
  | tier3Publish => exact .of_sound (publishFastLimit_sound s)
  | guardEnter => exact .of_sound (setGuard_sound (pollInvariant_guest hs hop) (by simp) _)
  | guardPrepare => exact .of_sound (setGuard_sound (pollInvariant_guest hs hop) (by simp) _)
  | guardLeave changed refreshed =>
      exact .of_sound (guardLeave_sound (pollInvariant_guest hs hop) changed refreshed)
  | noteCodeWrite changed refreshed =>
      refine hs.keeps ?_ fun h => noteCodeWrite_sound h changed refreshed
      simp only [apply, noteCodeWrite]
      split
      · rfl
      · rfl
  | raiseIrq cpu bits => exact .of_sound (sound_of_fastLimit_eq_zero rfl)
  | clearIrq cpu bits => exact .of_sound (sound_of_fastLimit_eq_zero rfl)
  | writeIme cpu value => exact .of_sound (sound_of_fastLimit_eq_zero rfl)
  | writeIe cpu value => exact .of_sound (sound_of_fastLimit_eq_zero rfl)
  | writeIf cpu value gxfifo => exact .of_sound (sound_of_fastLimit_eq_zero rfl)
  | writeIfHigh cpu value gxfifo =>
      refine hs.keeps ?_ fun h => ioWriteIfHigh_sound h cpu value gxfifo
      simp only [apply, ioWriteIfHigh, gpu3dCheckFifoIrq]
      split
      · split
        · rfl
        · rfl
      · rfl
  | enterHalt cpu =>
      refine hs.keeps ?_ fun h => cpuEnterHalt_sound h cpu
      simp only [apply, cpuEnterHalt]
      split
      · rfl
      · rfl
  | writeHaltcnt cpu value code =>
      refine hs.keeps ?_ fun h => ioWriteHaltcnt_sound h cpu value code
      simp only [apply, ioWriteHaltcnt]
      split
      · rfl
      · rfl
  | halt reason => exact .of_sound (sound_of_fastLimit_eq_zero rfl)
  | dmaWriteCount cpu ch value fifoRequest =>
      exact hs.keeps (dmaWriteCount_phase s cpu ch value fifoRequest)
        fun h => dmaWriteCount_sound h cpu ch value fifoRequest
  | dmaTrigger cpu startMode =>
      exact hs.keeps (dmaTrigger_phase s cpu startMode) fun h => dmaTrigger_sound h cpu startMode
  | dmaUnit cpu ch unitCycles width => exact hs.keeps rfl fun h => setDma_sound h cpu ch id
  | dmaSuspend cpu ch => exact hs.keeps rfl fun h => dmaSuspend_sound h cpu ch
  | dmaComplete cpu ch =>
      exact hs.keeps (dmaComplete_phase s cpu ch) fun h => dmaComplete_sound h cpu ch
  | countEvent name => exact hs.keeps rfl id
  | brkCheck => exact hs.keeps (brkCheck_phase s) brkCheck_sound
  | rescheduleSlice systemDeadline =>
      refine hs.keeps ?_ fun h => rescheduleSlice_sound h systemDeadline
      simp only [apply, rescheduleSlice]
      split
      · rfl
      · rfl
  | setCycleCap cap => exact .of_sound (sound_of_fastLimit_eq_zero rfl)
  | sliceEnter cpu quantum => exact .of_sound (sliceEnter_sound s refillCycles cpu quantum)
  | sliceLeave cpu cap => exact .of_sound (sliceLeave_sound (pollInvariant_guest hs hop.1) cpu cap)
  | dmaSliceEnter cpu =>
      by_cases hcur : s.cur = some cpu
      · refine hs.keeps ?_ fun h => ?_
        · simp [apply, dmaSliceEnter, hcur]
        · simp only [apply, dmaSliceEnter, switchTo, if_pos hcur]
          exact h
      · intro hphase
        simp [apply, dmaSliceEnter, hcur] at hphase
  | haltSlice cpu quantum => exact hs.keeps rfl id
  | setSlotCycles cpu cycles => exact hs.keeps rfl id
  | runtimeInit fastPoll fastLimit => exact .of_sound (sound_of_fastLimit_eq_zero rfl)
  | ioReset => exact .of_sound (sound_of_fastLimit_eq_zero rfl)
  | savestateImport image => exact .of_sound (sound_of_fastLimit_eq_zero rfl)
  | eventBreakArm name target => exact .of_sound (sound_of_fastLimit_eq_zero rfl)
  | eventBreakDisarm => exact .of_sound (sound_of_fastLimit_eq_zero rfl)
  | setBreakPc pc => exact .of_sound (sound_of_fastLimit_eq_zero rfl)

theorem poll_invariant : (pollSystem refillCycles).Invariant PollInvariant where
  start := by
    rintro s rfl
    exact .of_sound (PollState.sound_of_fastLimit_eq_zero rfl)
  step := fun _ _ hs hop => pollInvariant_step refillCycles hs hop

/-- In every state of a run, save those after `switch_to` has loaded the other
CPU for a DMA-only slice, a nonzero deadline is the slice cap with nothing
behind it to service, and the inline checks decide what the scans would. -/
theorem fast_deadline_sound {s : PollState} (hreach : (pollSystem refillCycles).Reachable s)
    (hphase : s.phase ≠ .switched) :
    (s.fastLimit ≠ 0 → s.disqualified = false ∧ s.fastLimit = s.cycleCap) ∧
      (∀ cycles, s.runtimeTick refillCycles cycles = s.runtimeTickSlow refillCycles cycles) ∧
      s.runtimeShouldYield.1 = s.runtimeShouldYieldSlow.1 := by
  have hsound : s.FastLimitSound := hreach.invariant (poll_invariant refillCycles) hphase
  exact ⟨hsound, hsound.tick_eq refillCycles, hsound.yield_eq⟩

end Runs

/-- A fixed pipeline refill for the concrete runs below. -/
def twoCycleRefill : NdsCpu → UInt32 → UInt32 := fun _ _ => 2

/-- An ARM9 slice of 128 cycles whose first yield check publishes. -/
def publishedSlice : PollState :=
  (pollSystem twoCycleRefill).runFrom {} [.sliceEnter .arm9 128, .shouldYield, .tick 5]

theorem publishedSlice_reachable : (pollSystem twoCycleRefill).Reachable publishedSlice :=
  (OpSystem.Reachable.start rfl).runFrom (by
    simp only [OpSystem.AdmitsAll, pollSystem, PollOp.admitted]
    decide)

theorem fast_deadline_sound_published :
    publishedSlice.fastLimit = 128 ∧ publishedSlice.phase ≠ .switched ∧
      ((publishedSlice.fastLimit ≠ 0 → publishedSlice.disqualified = false ∧
          publishedSlice.fastLimit = publishedSlice.cycleCap) ∧
        (∀ cycles, publishedSlice.runtimeTick twoCycleRefill cycles =
          publishedSlice.runtimeTickSlow twoCycleRefill cycles) ∧
        publishedSlice.runtimeShouldYield.1 = publishedSlice.runtimeShouldYieldSlow.1) :=
  ⟨by decide, by decide,
    fast_deadline_sound twoCycleRefill publishedSlice_reachable (by decide)⟩

/-- The ARM7 arms a VBlank DMA channel and enables the VBlank interrupt; at
the next VBlank both fire while the ARM7 is not loaded. The ARM9 then publishes
its own deadline, and the ARM7's DMA-only slice loads the ARM7 under it. -/
def dmaSwitchRun : List PollOp :=
  [.sliceEnter .arm7 64, .dmaWriteCount .arm7 (Fin.last 3) 0x90000001 false, .writeIme .arm7 1,
    .writeIe .arm7 1, .tick 64, .sliceLeave .arm7 64, .raiseIrq .arm7 1, .dmaTrigger .arm7 0x11,
    .sliceEnter .arm9 128, .shouldYield, .sliceLeave .arm9 128, .dmaSliceEnter .arm7]

/-- The published deadline outlives the CPU it was derived for: in this
reachable state it is nonzero while the active CPU is stalled with an interrupt
pending, and the inline tick passes over a delivery the slow tick makes. -/
theorem dma_switch_keeps_foreign_deadline :
    ∃ s, (pollSystem twoCycleRefill).Reachable s ∧ s.fastLimit ≠ 0 ∧ s.disqualified = true ∧
      s.runtimeTick twoCycleRefill 1 ≠ s.runtimeTickSlow twoCycleRefill 1 := by
  refine ⟨(pollSystem twoCycleRefill).runFrom {} dmaSwitchRun, ?_, by decide, by decide, ?_⟩
  · refine (OpSystem.Reachable.start rfl).runFrom ?_
    simp only [dmaSwitchRun, OpSystem.AdmitsAll, pollSystem, PollOp.admitted]
    decide
  · intro heq
    have hcpsr := congrArg (fun s : PollState => s.cpu.cpsr) heq
    revert hcpsr
    decide

end NdsRecomp.Runtime
