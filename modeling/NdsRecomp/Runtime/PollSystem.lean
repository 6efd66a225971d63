import NdsRecomp.Library.OpSystem
import NdsRecomp.Runtime.FastLimit

/-!
The poll state as a state machine: guest code, device callbacks, the scheduler,
the savestate loader and the debugger, in any order the host program admits.
Guest code runs only inside a slice; the scheduler may also load a CPU for a
slice that only moves DMA units.
-/

namespace NdsRecomp.Runtime

open Library Bus

namespace PollState

/-! ### Scheduler -/

def saveCurrent (s : PollState) : PollState :=
  match s.cur with
  | none => s
  | some cur =>
      let saved := { s.slot cur with state := s.cpu, deferredCycles := s.deferredCycles }
      { s with slot := Function.update s.slot cur saved }

def switchTo (s : PollState) (cpu : NdsCpu) : PollState :=
  if s.cur = some cpu then s
  else
    let s := s.saveCurrent
    let s := { s with cpu := (s.slot cpu).state }
    let s := s.deferredCyclesSet (s.slot cpu).deferredCycles
    { s with active := cpu, cur := some cpu }

/-- The DMA branch of `run_slice` up to `nds_dma_run`. -/
def dmaSliceEnter (s : PollState) (cpu : NdsCpu) : PollState :=
  let phase := if s.cur = some cpu then s.phase else .switched
  let s := s.switchTo cpu
  { s with cycles := (s.slot cpu).cycles, phase := phase }

def setSlotCycles (s : PollState) (cpu : NdsCpu) (cycles : UInt64) : PollState :=
  { s with slot := Function.update s.slot cpu { s.slot cpu with cycles := cycles } }

/-- The guest branch of `run_slice` up to the dispatch loop: the incoming CPU
is loaded, the slice armed, and a halted CPU woken into its interrupt. -/
def sliceEnter (s : PollState) (refillCycles : NdsCpu → UInt32 → UInt32) (cpu : NdsCpu)
    (quantum : UInt32) : PollState :=
  let s := s.switchTo cpu
  let s := { s with cycles := (s.slot cpu).cycles, phase := .slice }
  let s := s.sliceBeginCap ((s.slot cpu).cycles + quantum.toUInt64)
  if s.cpuHalted cpu then
    let s := s.cpuWake cpu
    if !s.cpu.irqMasked ∧ s.irqPending cpu ≠ 0 then s.runtimeIrq refillCycles s.cpu.pc else s
  else s

/-- The cost of the instruction a halt or DMA entry cut short, carried as
debt; the clock is left where the source puts it. -/
def carryDebt (s : PollState) (enter resume : UInt64) : PollState :=
  let finalCost := if enter < s.cycles then s.cycles - enter else 0
  { s with cycles := resume }.deferredCyclesSet finalCost.toUInt32

/-- What the dispatch loop of `run_slice` does on its way out: a terminal halt
parks the slot, a DMA or HALT entry carries its debt. -/
def leaveDebt (s : PollState) (cpu : NdsCpu) (cap : UInt64) : PollState :=
  if s.terminal then
    { s with slot := Function.update s.slot cpu { s.slot cpu with halted := true } }
  else if s.dmaCpuStalled cpu then s.carryDebt (s.dmaEntryCycle cpu) (s.dmaEntryCycle cpu)
  else if s.cpuHalted cpu then
    s.carryDebt (s.haltEntryCycle cpu) (if s.eventBreakHit then s.haltEntryCycle cpu else cap)
  else s

/-- The end of `run_slice`'s guest branch, after the last dispatch. -/
def sliceLeave (s : PollState) (cpu : NdsCpu) (cap : UInt64) : PollState :=
  let s := s.leaveDebt cpu cap
  let s := s.setSlotCycles cpu s.cycles
  { s with
    slot := Function.update s.slot cpu { s.slot cpu with deferredCycles := s.deferredCycles }
    phase := .scheduler }

/-! ### Lifecycle -/

def runtimeInit (s : PollState) (fastPoll fastLimit : Bool) : PollState :=
  let s := requestYieldPoll { s with cpuFastPoll := fastPoll, cycleFastLimitEnabled := fastLimit }
  { s with deferredCycles := 0, excBase := fun _ => 0, staticGuard := none }

def ioReset (s : PollState) : PollState :=
  clearFastLimit
    { s with
      ime := fun _ => 0
      ie := fun _ => 0
      irqFlags := fun _ => 0
      irqPendingCache := fun _ => 0
      cpuHalted := fun _ => false
      haltEntryCycle := fun _ => 0
      counts := fun _ => 0
      dma := fun _ _ => {}
      dmaEntryCycle := fun _ => 0 }

/-- The part of a savestate these checks read. -/
structure PollImage where
  activeCpu : NdsCpu
  slot : NdsCpu → CpuSlot
  ime : NdsCpu → UInt32
  ie : NdsCpu → UInt32
  irqFlags : NdsCpu → UInt32
  cpuHalted : NdsCpu → Bool
  haltEntryCycle : NdsCpu → UInt64
  dma : NdsCpu → Fin 4 → DmaChannel
  dmaEntryCycle : NdsCpu → UInt64

/-- Scheduler, runtime and IO imports, in the order the loader runs them. -/
def savestateImport (s : PollState) (image : PollImage) : PollState :=
  let s := { s with slot := image.slot, cur := none }.deferredCyclesSet 0
  let s := requestYieldPoll
    { s with
      active := image.activeCpu
      cycles := 0
      terminal := false
      haltReason := none
      unwinding := false
      staticGuard := none }
  let s := { s with
    ime := image.ime
    ie := image.ie
    irqFlags := image.irqFlags
    cpuHalted := image.cpuHalted
    haltEntryCycle := image.haltEntryCycle
    dma := image.dma
    dmaEntryCycle := image.dmaEntryCycle }
  (s.irqRecompute .arm9).irqRecompute .arm7

end PollState

/-! ### Runs -/

inductive PollOp where
  -- guest code, inside a slice
  | guestCpu (cpu : ArmCpuState)
  | tick (cycles : UInt32)
  | shouldYield
  | sliceYield
  | clearUnwinding
  | deferredTake
  | tier3Publish
  | guardEnter
  | guardPrepare
  | guardLeave (changed refreshed : Bool)
  -- devices and the bus
  | noteCodeWrite (changed refreshed : Bool)
  | raiseIrq (cpu : NdsCpu) (bits : UInt32)
  | clearIrq (cpu : NdsCpu) (bits : UInt32)
  | writeIme (cpu : NdsCpu) (value : UInt32)
  | writeIe (cpu : NdsCpu) (value : UInt32)
  | writeIf (cpu : NdsCpu) (value : UInt32) (gxfifo : Bool)
  | writeIfHigh (cpu : NdsCpu) (value : UInt32) (gxfifo : Bool)
  | enterHalt (cpu : NdsCpu)
  | writeHaltcnt (cpu : NdsCpu) (value : UInt8) (code : UInt32)
  | halt (reason : String)
  | dmaWriteCount (cpu : NdsCpu) (ch : Fin 4) (value : UInt32) (fifoRequest : Bool)
  | dmaTrigger (cpu : NdsCpu) (startMode : UInt8)
  | dmaUnit (cpu : NdsCpu) (ch : Fin 4) (unitCycles width : UInt32)
  | dmaSuspend (cpu : NdsCpu) (ch : Fin 4)
  | dmaComplete (cpu : NdsCpu) (ch : Fin 4)
  | countEvent (name : EventName)
  | brkCheck
  | rescheduleSlice (systemDeadline : UInt64)
  -- scheduler
  | setCycleCap (cap : UInt64)
  | sliceEnter (cpu : NdsCpu) (quantum : UInt32)
  | sliceLeave (cpu : NdsCpu) (cap : UInt64)
  | dmaSliceEnter (cpu : NdsCpu)
  | haltSlice (cpu : NdsCpu) (quantum : UInt32)
  | setSlotCycles (cpu : NdsCpu) (cycles : UInt64)
  -- lifecycle and debugger
  | runtimeInit (fastPoll fastLimit : Bool)
  | ioReset
  | savestateImport (image : PollState.PollImage)
  | eventBreakArm (name : Option EventName) (target : UInt64)
  | eventBreakDisarm
  | setBreakPc (pc : UInt32)

section System

variable (refillCycles : NdsCpu → UInt32 → UInt32)

def PollState.apply (s : PollState) : PollOp → PollState
  | .guestCpu cpu => { s with cpu := cpu }
  | .tick cycles => s.runtimeTick refillCycles cycles
  | .shouldYield => s.runtimeShouldYield.2
  | .sliceYield => s.runtimeSliceYield.2
  | .clearUnwinding => { s with unwinding := false }
  | .deferredTake => { s with deferredCycles := 0 }
  | .tier3Publish => s.publishFastLimit
  | .guardEnter => s.guardEnter
  | .guardPrepare => s.guardPrepare
  | .guardLeave changed refreshed => s.guardLeave changed refreshed
  | .noteCodeWrite changed refreshed => s.noteCodeWrite changed refreshed
  | .raiseIrq cpu bits => s.raiseIrq cpu bits
  | .clearIrq cpu bits => s.clearIrq cpu bits
  | .writeIme cpu value => s.ioWriteIme cpu value
  | .writeIe cpu value => s.ioWriteIe cpu value
  | .writeIf cpu value gxfifo => s.ioWriteIf cpu value gxfifo
  | .writeIfHigh cpu value gxfifo => s.ioWriteIfHigh cpu value gxfifo
  | .enterHalt cpu => s.cpuEnterHalt cpu
  | .writeHaltcnt cpu value code => s.ioWriteHaltcnt cpu value code
  | .halt reason => s.ndsHalt reason
  | .dmaWriteCount cpu ch value fifoRequest => s.dmaWriteCount cpu ch value fifoRequest
  | .dmaTrigger cpu startMode => s.dmaTrigger cpu startMode
  | .dmaUnit cpu ch unitCycles width => s.dmaUnit cpu ch unitCycles width
  | .dmaSuspend cpu ch => s.dmaSuspend cpu ch
  | .dmaComplete cpu ch => s.dmaComplete cpu ch
  | .countEvent name => s.countEvent name
  | .brkCheck => s.brkCheck
  | .rescheduleSlice systemDeadline => s.rescheduleSlice systemDeadline
  | .setCycleCap cap => s.setCycleCap cap
  | .sliceEnter cpu quantum => s.sliceEnter refillCycles cpu quantum
  | .sliceLeave cpu cap => s.sliceLeave cpu cap
  | .dmaSliceEnter cpu => s.dmaSliceEnter cpu
  | .haltSlice cpu quantum => s.setSlotCycles cpu ((s.slot cpu).cycles + quantum.toUInt64)
  | .setSlotCycles cpu cycles => s.setSlotCycles cpu cycles
  | .runtimeInit fastPoll fastLimit => s.runtimeInit fastPoll fastLimit
  | .ioReset => s.ioReset
  | .savestateImport image => s.savestateImport image
  | .eventBreakArm name target => s.eventBreakArm name target
  | .eventBreakDisarm => s.eventBreakDisarm
  | .setBreakPc pc => s.setBreakPc pc

/-- Where the host program can take each operation. Guest code and the end of
a slice belong to a slice; slices are entered from the scheduler, under the
tests of `run_slice`; everything else may happen at any time. -/
def PollOp.admitted (s : PollState) : PollOp → Prop
  | .guestCpu _ | .tick _ | .shouldYield | .sliceYield | .clearUnwinding | .deferredTake
  | .tier3Publish | .guardEnter | .guardPrepare | .guardLeave _ _ => s.phase = .slice
  | .sliceLeave cpu _ => s.phase = .slice ∧ s.cur = some cpu
  | .sliceEnter cpu _ => s.phase ≠ .slice ∧ (s.slot cpu).halted = false ∧
      s.dmaCpuStalled cpu = false ∧ (s.cpuHalted cpu = true → s.haltWakePending cpu = true)
  | .dmaSliceEnter cpu => s.phase ≠ .slice ∧ (s.slot cpu).halted = false ∧
      s.dmaCpuStalled cpu = true
  | .haltSlice cpu _ => s.phase ≠ .slice ∧ (s.slot cpu).halted = false ∧
      s.dmaCpuStalled cpu = false ∧ s.cpuHalted cpu = true ∧ s.haltWakePending cpu = false
  | .savestateImport _ => s.phase ≠ .slice
  | _ => True

/-- From the image the program starts with. -/
def pollSystem : OpSystem PollState PollOp where
  initial := fun s => s = {}
  admits := fun s op => op.admitted s
  next := PollState.apply refillCycles

end System

end NdsRecomp.Runtime
