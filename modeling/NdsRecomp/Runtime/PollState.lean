import NdsRecomp.Bus.Backing

/-!
The global state behind the per-instruction service checks: the cycle clock
and its published deadline, the interrupt registers with their pending cache,
halt and DMA state, the debugger's event break, the active static guard and
the two scheduler slots. Every function here is one that writes a piece of
that state; the deadline itself is published and consumed in the next module.
-/

namespace NdsRecomp.Runtime

open Bus

inductive ArmBank where
  | user | fiq | irq | supervisor | abort | undefined
deriving DecidableEq

structure ArmCpuState where
  R : Fin 16 → UInt32 := fun _ => 0
  cpsr : UInt32 := 0
  bankedSp : ArmBank → UInt32 := fun _ => 0
  bankedLr : ArmBank → UInt32 := fun _ => 0
  bankedSpsr : ArmBank → UInt32 := fun _ => 0
  r8_12Fiq : Fin 5 → UInt32 := fun _ => 0
  r8_12User : Fin 5 → UInt32 := fun _ => 0

def cpsrIBit : UInt32 := 0x80

namespace ArmCpuState

def modeToBank (mode : UInt32) : ArmBank :=
  match (mode &&& 0x1F).toNat with
  | 0x11 => .fiq
  | 0x12 => .irq
  | 0x13 => .supervisor
  | 0x17 => .abort
  | 0x1B => .undefined
  | _ => .user

def setR (c : ArmCpuState) (reg : Fin 16) (value : UInt32) : ArmCpuState :=
  { c with R := Function.update c.R reg value }

def pc (c : ArmCpuState) : UInt32 := c.R 15

def highRegs (c : ArmCpuState) (i : Fin 5) : UInt32 := c.R ⟨8 + i, by omega⟩

def bankOut (c : ArmCpuState) (bank : ArmBank) (mode : UInt32) : ArmCpuState :=
  let c := { c with
    bankedSp := Function.update c.bankedSp bank (c.R 13)
    bankedLr := Function.update c.bankedLr bank (c.R 14) }
  if mode &&& 0x1F == 0x11 then { c with r8_12Fiq := c.highRegs }
  else { c with r8_12User := c.highRegs }

def bankIn (c : ArmCpuState) (bank : ArmBank) (mode : UInt32) : ArmCpuState :=
  let c := (c.setR 13 (c.bankedSp bank)).setR 14 (c.bankedLr bank)
  let high := if mode &&& 0x1F == 0x11 then c.r8_12Fiq else c.r8_12User
  { c with R := fun reg =>
      if h : 8 ≤ reg.val ∧ reg.val < 13 then high ⟨reg - 8, by omega⟩ else c.R reg }

/-- The register-file half of `runtime_irq`: IRQ mode, ARM state, IRQ and FIQ
masked, return address banked, vector fetched next. -/
def enterIrq (c : ArmCpuState) (returnAddress excBase : UInt32) : ArmCpuState :=
  let saved := c.cpsr
  let next := (saved &&& ~~~0xFF) ||| 0xD2
  let old := modeToBank saved
  let new := modeToBank next
  let c := if old = new then c else (c.bankOut old saved).bankIn new next
  let c := { c with cpsr := next, bankedSpsr := Function.update c.bankedSpsr new saved }
  (c.setR 14 (returnAddress + 4)).setR 15 (excBase + 0x18)

def irqMasked (c : ArmCpuState) : Bool := c.cpsr &&& cpsrIBit != 0

end ArmCpuState

structure DmaChannel where
  src : UInt32 := 0
  dst : UInt32 := 0
  cnt : UInt32 := 0
  curSrc : UInt32 := 0
  curDst : UInt32 := 0
  remaining : UInt32 := 0
  srcInc : Int := 1
  dstInc : Int := 1
  startMode : UInt8 := 0
  burstIndex : UInt16 := 0
  running : Bool := false
  inProgress : Bool := false
  burstStart : Bool := false

/-- The counters an event break can watch. -/
inductive EventName where
  | vblank9 | vblank7 | ipcsyncW | fifo9to7 | fifo7to9 | dmaDone | timerOvf
  | spiW | soundbiasW | insn9 | insn7
deriving DecidableEq

def EventName.isInsn : EventName → Bool
  | .insn9 | .insn7 => true
  | _ => false

structure EventBreak where
  ptr : Option EventName := none
  target : UInt64 := 0
  hit : Bool := false
  isInsn : Bool := false

structure CpuSlot where
  deferredCycles : UInt32 := 0
  state : ArmCpuState := {}
  cycles : UInt64 := 0
  halted : Bool := false

/-- Where the host's scheduler stands. `switched` is the stretch after
`switch_to` has loaded the other CPU for a DMA-only slice: no guest code runs
there, and the next guest code is preceded by `nds_slice_begin`. This is a
point of the host program, not a variable of it. -/
inductive HostPhase where
  | scheduler | slice | switched
deriving DecidableEq

structure PollState where
  cycles : UInt64 := 0
  fastLimit : UInt64 := 0
  fastLimitPublishes : UInt64 := 0
  cycleFastLimitEnabled : Bool := true
  cpuFastPoll : Bool := true
  breakPc : UInt32 := 0
  terminal : Bool := false
  haltReason : Option String := none
  cycleCap : UInt64 := 0
  yieldPollHint : Bool := true
  deferredCycles : UInt32 := 0
  unwinding : Bool := false
  /-- The active guard's `invalidated` flag; `none` is the null pointer. -/
  staticGuard : Option Bool := none
  savedGuards : List (Option Bool) := []
  insnStop : Bool := false
  brk : EventBreak := {}
  counts : EventName → UInt64 := fun _ => 0
  cpuHalted : NdsCpu → Bool := fun _ => false
  haltEntryCycle : NdsCpu → UInt64 := fun _ => 0
  dma : NdsCpu → Fin 4 → DmaChannel := fun _ _ => {}
  dmaEntryCycle : NdsCpu → UInt64 := fun _ => 0
  ime : NdsCpu → UInt32 := fun _ => 0
  ie : NdsCpu → UInt32 := fun _ => 0
  irqFlags : NdsCpu → UInt32 := fun _ => 0
  irqPendingCache : NdsCpu → UInt32 := fun _ => 0
  active : NdsCpu := .arm9
  cpu : ArmCpuState := {}
  excBase : NdsCpu → UInt32 := fun _ => 0
  slot : NdsCpu → CpuSlot := fun _ => {}
  cur : Option NdsCpu := none
  phase : HostPhase := .scheduler

namespace PollState

/-! ### The re-arm funnel -/

def clearFastLimit (s : PollState) : PollState := { s with fastLimit := 0 }

def requestYieldPoll (s : PollState) : PollState :=
  { s with yieldPollHint := true, fastLimit := 0 }

/-! ### Interrupt controller -/

def irqPending (s : PollState) (cpu : NdsCpu) : UInt32 :=
  if s.ime cpu &&& 1 != 0 then s.ie cpu &&& s.irqFlags cpu else 0

def irqRecompute (s : PollState) (cpu : NdsCpu) : PollState :=
  { s with irqPendingCache := Function.update s.irqPendingCache cpu (s.irqPending cpu)
           fastLimit := 0 }

def raiseIrq (s : PollState) (cpu : NdsCpu) (bits : UInt32) : PollState :=
  irqRecompute { s with irqFlags := Function.update s.irqFlags cpu (s.irqFlags cpu ||| bits) } cpu

def clearIrq (s : PollState) (cpu : NdsCpu) (bits : UInt32) : PollState :=
  irqRecompute
    { s with irqFlags := Function.update s.irqFlags cpu (s.irqFlags cpu &&& ~~~bits) } cpu

def ioWriteIme (s : PollState) (cpu : NdsCpu) (value : UInt32) : PollState :=
  irqRecompute { s with ime := Function.update s.ime cpu (value &&& 1) } cpu

def ioWriteIe (s : PollState) (cpu : NdsCpu) (value : UInt32) : PollState :=
  irqRecompute { s with ie := Function.update s.ie cpu value } cpu

/-- `nds_gpu3d_check_fifo_irq`: the geometry engine's level-triggered request,
raised or withdrawn; `asserted` is the engine's answer. -/
def gpu3dCheckFifoIrq (s : PollState) (asserted : Bool) : PollState :=
  let irqGxfifo : UInt32 := (1 : UInt32) <<< 21
  if asserted then s.raiseIrq .arm9 irqGxfifo else s.clearIrq .arm9 irqGxfifo

/-- IF acknowledge at 0x04000214; the ARM9 re-evaluates the GXFIFO request
before the pending cache is recomputed. -/
def ioWriteIf (s : PollState) (cpu : NdsCpu) (value : UInt32) (gxfifo : Bool) : PollState :=
  let s := { s with irqFlags := Function.update s.irqFlags cpu (s.irqFlags cpu &&& ~~~value) }
  let s := if cpu = .arm9 then s.gpu3dCheckFifoIrq gxfifo else s
  s.irqRecompute cpu

/-- The upper halfword acknowledge at 0x04000216, wired on the ARM9 only. -/
def ioWriteIfHigh (s : PollState) (cpu : NdsCpu) (value : UInt32) (gxfifo : Bool) : PollState :=
  if cpu = .arm9 then
    let flags := Function.update s.irqFlags .arm9 (s.irqFlags .arm9 &&& ~~~(value <<< 16))
    (gpu3dCheckFifoIrq { s with irqFlags := flags } gxfifo).irqRecompute .arm9
  else s

/-! ### Halt -/

def cpuEnterHalt (s : PollState) (cpu : NdsCpu) : PollState :=
  if s.cpuHalted cpu then s
  else requestYieldPoll
    { s with haltEntryCycle := Function.update s.haltEntryCycle cpu s.cycles
             cpuHalted := Function.update s.cpuHalted cpu true }

/-- HALTCNT, ARM7 only; `code` is the code fetch already charged. -/
def ioWriteHaltcnt (s : PollState) (cpu : NdsCpu) (value : UInt8) (code : UInt32) : PollState :=
  if cpu = .arm7 ∧ value &&& 0xC0 = 0x80 then
    let entry := if code.toUInt64 ≤ s.cycles then s.cycles - code.toUInt64 else 0
    requestYieldPoll
      { s with haltEntryCycle := Function.update s.haltEntryCycle cpu entry
               cpuHalted := Function.update s.cpuHalted cpu true }
  else s

def haltWakePending (s : PollState) (cpu : NdsCpu) : Bool :=
  s.ie cpu &&& s.irqFlags cpu != 0 && (cpu = .arm7 || s.ime cpu &&& 1 != 0)

def cpuWake (s : PollState) (cpu : NdsCpu) : PollState :=
  { s with cpuHalted := Function.update s.cpuHalted cpu false }

def ndsHalt (s : PollState) (reason : String) : PollState :=
  requestYieldPoll { s with terminal := true, haltReason := some reason }

/-! ### DMA -/

def dmaAnyRunning (s : PollState) (cpu : NdsCpu) : Bool :=
  (s.dma cpu 0).running || (s.dma cpu 1).running || (s.dma cpu 2).running ||
    (s.dma cpu 3).running

/-- `nds_dma_cpu_stalled`. -/
def dmaCpuStalled (s : PollState) (cpu : NdsCpu) : Bool := s.dmaAnyRunning cpu

def setDma (s : PollState) (cpu : NdsCpu) (ch : Fin 4) (d : DmaChannel) : PollState :=
  { s with dma := Function.update s.dma cpu (Function.update (s.dma cpu) ch d) }

/-- The counter and address reload of a transaction that is not a resumption. -/
def dmaReload (d : DmaChannel) (cpu : NdsCpu) (ch : Fin 4) : DmaChannel :=
  if d.inProgress then d
  else
    let mask : UInt32 := if cpu = .arm9 then 0x001FFFFF else if ch = 3 then 0xFFFF else 0x3FFF
    let units := d.cnt &&& mask
    let d := { d with remaining := if units = 0 then mask + 1 else units }
    let d := if d.cnt &&& 0x01800000 = 0x01800000 then { d with curSrc := d.src } else d
    if d.cnt &&& 0x00600000 = 0x00600000 then { d with curDst := d.dst } else d

def dmaStart (s : PollState) (cpu : NdsCpu) (ch : Fin 4) : PollState :=
  let d := s.dma cpu ch
  if d.running ∨ d.cnt &&& 0x80000000 = 0 then s
  else
    let wasRunning := s.dmaAnyRunning cpu
    let d := { dmaReload d cpu ch with
      burstIndex := 0, burstStart := true, running := true, inProgress := true }
    let s := (s.setDma cpu ch d).requestYieldPoll
    if wasRunning then s
    else { s with dmaEntryCycle := Function.update s.dmaEntryCycle cpu s.cycles }

/-- One channel of the `nds_dma_trigger` loop. -/
def dmaTriggerChannel (s : PollState) (cpu : NdsCpu) (startMode : UInt8) (ch : Fin 4) :
    PollState :=
  let d := s.dma cpu ch
  if d.cnt &&& 0x80000000 ≠ 0 ∧ d.startMode = startMode then s.dmaStart cpu ch else s

def dmaTrigger (s : PollState) (cpu : NdsCpu) (startMode : UInt8) : PollState :=
  (List.finRange 4).foldl (fun s ch => s.dmaTriggerChannel cpu startMode ch) s

/-- The increment a two-bit address control field selects. -/
def dmaIncrement (field : UInt32) : Int :=
  if field = 1 then -1 else if field = 2 then 0 else 1

def dmaStartMode (cpu : NdsCpu) (cnt : UInt32) : UInt8 :=
  if cpu = .arm9 then ((cnt >>> 27) &&& 7).toUInt8 else (((cnt >>> 28) &&& 3) ||| 0x10).toUInt8

/-- `fifoRequest` is the geometry engine's answer to the FIFO-level check. -/
def dmaWriteCount (s : PollState) (cpu : NdsCpu) (ch : Fin 4) (value : UInt32)
    (fifoRequest : Bool) : PollState :=
  let old := (s.dma cpu ch).cnt
  let d := { s.dma cpu ch with cnt := value }
  if old &&& 0x80000000 = 0 ∧ value &&& 0x80000000 ≠ 0 then
    let mode := dmaStartMode cpu value
    let d := { d with
      curSrc := d.src
      curDst := d.dst
      dstInc := dmaIncrement ((value >>> 21) &&& 3)
      srcInc := dmaIncrement ((value >>> 23) &&& 3)
      startMode := mode }
    let s := s.setDma cpu ch d
    if mode &&& 7 = 0 then s.dmaStart cpu ch
    else if cpu = .arm9 ∧ mode = 7 ∧ fifoRequest then s.dmaTrigger .arm9 7
    else s
  else s.setDma cpu ch d

/-! ### Event break -/

/-- `brk_check`, run after a watched counter moved. -/
def brkCheck (s : PollState) : PollState :=
  match s.brk.ptr with
  | none => s
  | some name =>
      if s.brk.target ≤ s.counts name then
        requestYieldPoll
          { s with brk := { s.brk with hit := true }
                   insnStop := if s.brk.isInsn then true else s.insnStop }
      else s

def countEvent (s : PollState) (name : EventName) : PollState :=
  { s with counts := Function.update s.counts name (s.counts name + 1) }

def eventBreakHit (s : PollState) : Bool := s.brk.hit

def eventBreakArm (s : PollState) (name : Option EventName) (target : UInt64) : PollState :=
  clearFastLimit
    { s with
      brk := { ptr := name, target := target, hit := false
               isInsn := (name.map EventName.isInsn).getD false }
      insnStop := false }

def eventBreakDisarm (s : PollState) : PollState :=
  clearFastLimit
    { s with
      brk := { s.brk with ptr := none, hit := false, isInsn := false }
      insnStop := false }

def setBreakPc (s : PollState) (pc : UInt32) : PollState :=
  clearFastLimit { s with breakPc := pc }

/-! ### DMA transfer bookkeeping -/

/-- One unit moved by `nds_dma_run`: time, addresses and the remaining count.
`unitCycles` is the timing table's answer; the bus read and write of the unit
are operations of their own. -/
def dmaUnit (s : PollState) (cpu : NdsCpu) (ch : Fin 4) (unitCycles width : UInt32) : PollState :=
  let d := s.dma cpu ch
  let d := { d with
    curSrc := d.curSrc + UInt32.ofInt (d.srcInc * width.toNat)
    curDst := d.curDst + UInt32.ofInt (d.dstInc * width.toNat)
    remaining := d.remaining - 1
    burstIndex := d.burstIndex + 1
    burstStart := false }
  let shift : UInt64 := if cpu = .arm9 then 1 else 0
  { s.setDma cpu ch d with cycles := s.cycles + unitCycles.toUInt64 <<< shift }

/-- A gamecard or GXFIFO channel waiting for its next request. -/
def dmaSuspend (s : PollState) (cpu : NdsCpu) (ch : Fin 4) : PollState :=
  s.setDma cpu ch { s.dma cpu ch with running := false }

/-- A channel without the repeat bit is disabled when its transfer ends. -/
def dmaDisarm (d : DmaChannel) : DmaChannel :=
  if d.cnt &&& 0x02000000 = 0 then { d with cnt := d.cnt &&& ~~~0x80000000 } else d

def dmaComplete (s : PollState) (cpu : NdsCpu) (ch : Fin 4) : PollState :=
  let d := dmaDisarm (s.dma cpu ch)
  let s := s.setDma cpu ch d
  let s := if d.cnt &&& 0x40000000 ≠ 0 then
      (s.raiseIrq cpu ((1 : UInt32) <<< (8 + ch.val).toUInt32)).countEvent .dmaDone
    else s
  (s.setDma cpu ch { d with running := false, inProgress := false }).brkCheck

/-! ### Static guards

What the page generations and the content check answer is decided by memory;
here `changed` and `refreshed` are those answers. -/

def activeStaticCodeChanged (s : PollState) : Bool := s.staticGuard == some true

/-- `runtime_note_code_write`. -/
def noteCodeWrite (s : PollState) (changed refreshed : Bool) : PollState :=
  if s.staticGuard = some false ∧ changed ∧ ¬ refreshed then
    requestYieldPoll { s with staticGuard := some true }
  else s

/-- `StaticGuardScope` construction: the caller's guard is put aside. -/
def guardEnter (s : PollState) : PollState :=
  { s with savedGuards := s.staticGuard :: s.savedGuards, staticGuard := none }

/-- `prepare`: a freshly built guard is never invalidated. -/
def guardPrepare (s : PollState) : PollState := { s with staticGuard := some false }

/-- `~StaticGuardScope`: the saved guard is revalidated once and reinstated. -/
def guardLeave (s : PollState) (changed refreshed : Bool) : PollState :=
  match s.savedGuards with
  | [] => s
  | saved :: rest =>
      let saved := saved.map fun invalidated => invalidated || (changed && !refreshed)
      let s := { s with staticGuard := saved, savedGuards := rest }
      if saved = some true then s.requestYieldPoll else s

/-! ### Slice cap and deferred cycles -/

def setCycleCap (s : PollState) (cap : UInt64) : PollState :=
  { s with cycleCap := cap, fastLimit := 0 }

/-- A system deadline on the active CPU's own clock. -/
def cpuDeadline (s : PollState) (systemDeadline : UInt64) : UInt64 :=
  if s.active = .arm9 then systemDeadline <<< 1 else systemDeadline

def rescheduleSlice (s : PollState) (systemDeadline : UInt64) : PollState :=
  let deadline := s.cpuDeadline systemDeadline
  if s.cycleCap = 0 ∨ deadline < s.cycleCap then
    { s with cycleCap := deadline, fastLimit := 0 }
  else s

def sliceBeginCap (s : PollState) (cap : UInt64) : PollState :=
  requestYieldPoll { s with terminal := false, cycleCap := cap }

def sliceOver (s : PollState) : Bool := s.cycleCap ≠ 0 ∧ s.cycleCap ≤ s.cycles

def deferredCyclesSet (s : PollState) (cycles : UInt32) : PollState :=
  let s := { s with deferredCycles := cycles }
  if cycles ≠ 0 then s.clearFastLimit else s

end PollState

end NdsRecomp.Runtime
