import NdsRecomp.Library.OpSystem
import NdsRecomp.Io.Dma

/-!
`nds_dma_run` over the channels of one CPU, with the bus around it. A call
moves units until its cycles, the request or the geometry engine ends it; what
is left waits for the next call or the next request.
-/

namespace NdsRecomp.Io

open Library Bus

/-- What a unit meets outside the channels. `raised` are the start modes the
accesses of the last unit requested of this CPU's channels; otherwise an access
leaves the channels alone. -/
structure DmaBus (World : Type*) where
  /-- `dma_unit_cycles`, in cycles of the owning CPU. -/
  unitCycles : World → DmaChannel → UInt64
  read : World → UInt32 → UInt32 → UInt32 × World
  write : World → UInt32 → UInt32 → UInt32 → World
  raised : World → List UInt8
  gxfifoStalled : World → Bool
  /-- `nds_gpu3d_check_fifo_dma` finds room in the FIFO. -/
  gxfifoRequests : World → Bool

/-- One unit as the bus saw it. -/
structure DmaUnit where
  src : UInt32
  dst : UInt32
  width : UInt32
deriving DecidableEq, Repr

/-- The channels of one CPU and what they have done: the units each has moved,
in order, and how often each has raised its interrupt. -/
structure DmaMachine (World : Type*) where
  bank : DmaBank
  cycles : UInt64
  world : World
  moved : Fin 4 → List DmaUnit
  irqs : Fin 4 → Nat

/-- `(d.cnt & 0x04000000u) ? 4u : 2u` -/
def DmaChannel.busWidth (d : DmaChannel) : UInt32 := if d.cnt &&& 0x04000000 ≠ 0 then 4 else 2

/-- One data-ready request of the card moves one word. -/
def DmaChannel.isGamecard (d : DmaChannel) (cpu : NdsCpu) : Bool :=
  d.startMode == match cpu with
    | .arm9 => 5
    | .arm7 => 0x12

def DmaChannel.isGxfifo (d : DmaChannel) (cpu : NdsCpu) : Bool :=
  cpu == .arm9 && d.startMode == 7

def DmaChannel.requestUnits (d : DmaChannel) (cpu : NdsCpu) : UInt32 :=
  if d.isGamecard cpu then 1 else if d.isGxfifo cpu then 112 else 0xFFFFFFFF

/-- The access a channel makes next. -/
def DmaChannel.nextUnit (d : DmaChannel) : DmaUnit where
  src := d.curSrc &&& ~~~(d.busWidth - 1)
  dst := d.curDst &&& ~~~(d.busWidth - 1)
  width := d.busWidth

namespace DmaMachine

variable {World : Type*} (bus : DmaBus World) (cpu : NdsCpu) (target : UInt64)

def update (m : DmaMachine World) (ch : Fin 4) (d : DmaChannel) : DmaMachine World :=
  { m with bank := m.bank.update ch d }

def trigger (m : DmaMachine World) (mode : UInt8) : DmaMachine World :=
  { m with bank := m.bank.ndsDmaTrigger cpu mode m.cycles }

/-- The body of the loop: one unit is read, written and counted. -/
def moveUnit (m : DmaMachine World) (ch : Fin 4) : DmaMachine World :=
  let unit := (m.bank.channel ch).nextUnit
  let cycles := m.cycles + bus.unitCycles m.world (m.bank.channel ch)
  let fetched := bus.read m.world unit.width unit.src
  let world := bus.write fetched.2 unit.width unit.dst fetched.1
  let bank := (bus.raised world).foldl
    (fun bank mode => bank.ndsDmaTrigger cpu mode cycles) m.bank
  { m with
    bank := bank.update ch (bank.channel ch).moveUnit
    cycles, world
    moved := Function.update m.moved ch (m.moved ch ++ [unit]) }

/-- Channels 1 to 3 of the ARM9 lose the bus while the GXFIFO is stalled. -/
def held (m : DmaMachine World) (ch : Fin 4) : Bool :=
  cpu == .arm9 && ch != 0 && bus.gxfifoStalled m.world

/-- The unit loop, with what is left of the request. The fuel is the units
remaining, so it runs out only where the loop ends by itself. -/
def unitLoop (ch : Fin 4) : Nat → UInt32 → DmaMachine World → DmaMachine World × UInt32
  | 0, request, m => (m, request)
  | fuel + 1, request, m =>
      if (m.bank.channel ch).remaining = 0 ∨ target ≤ m.cycles then (m, request)
      else
        let moved := m.moveUnit bus cpu ch
        if request - 1 = 0 then (moved, request - 1)
        else if moved.held bus cpu ch then (moved, request - 1)
        else unitLoop ch fuel (request - 1) moved

/-- The end of a transaction, with its interrupt. -/
def complete (m : DmaMachine World) (ch : Fin 4) : DmaMachine World :=
  let d := m.bank.channel ch
  { m.update ch d.complete with
    irqs := if d.cnt &&& 0x40000000 ≠ 0 then Function.update m.irqs ch (m.irqs ch + 1)
      else m.irqs }

/-- What `nds_dma_run` does once the loop of a channel has ended. -/
def finishRun (m : DmaMachine World) (ch : Fin 4) (gamecard gxfifo : Bool) (request : UInt32) :
    DmaMachine World :=
  let d := m.bank.channel ch
  if d.remaining ≠ 0 then
    if gamecard then m.update ch d.suspend
    else if gxfifo && request == 0 then
      let suspended := m.update ch d.suspend
      if bus.gxfifoRequests m.world then suspended.trigger cpu 7 else suspended
    else m
  else m.complete ch

def runChannel (m : DmaMachine World) (ch : Fin 4) : DmaMachine World :=
  let d := m.bank.channel ch
  if m.held bus cpu ch then m
  else if d.running = false ∨ target ≤ m.cycles then m
  else
    let looped := unitLoop bus cpu target ch d.remaining.toNat (d.requestUnits cpu) m
    looped.1.finishRun bus cpu ch (d.isGamecard cpu) (d.isGxfifo cpu) looped.2

def ndsDmaRun (m : DmaMachine World) : DmaMachine World :=
  (List.finRange 4).foldl (runChannel bus cpu target) m

end DmaMachine

/-- What happens between the register writes of a channel. `start` is the start
of an immediate transfer; `elapse` is everything that leaves the channels
alone. -/
inductive DmaOp (World : Type*) where
  | start (ch : Fin 4)
  | trigger (mode : UInt8)
  | run (target : UInt64)
  | elapse (world : World) (cycles : UInt64)

def DmaMachine.apply {World : Type*} (bus : DmaBus World) (cpu : NdsCpu)
    (m : DmaMachine World) : DmaOp World → DmaMachine World
  | .start ch => { m with bank := m.bank.dmaStart cpu ch m.cycles }
  | .trigger mode => m.trigger cpu mode
  | .run target => m.ndsDmaRun bus cpu target
  | .elapse world cycles => { m with world, cycles }

end NdsRecomp.Io
