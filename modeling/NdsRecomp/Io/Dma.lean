import NdsRecomp.Runtime.PollState

/-!
The DMA channels of one CPU: register writes, the start of a transaction, and
the three things `nds_dma_run` does to a channel (move a unit, suspend it,
complete it). The bus accesses of a unit are accesses like any other.
-/

namespace NdsRecomp.Io

open Bus

structure DmaChannel where
  src : UInt32 := 0
  dst : UInt32 := 0
  cnt : UInt32 := 0
  curSrc : UInt32 := 0
  curDst : UInt32 := 0
  remaining : UInt32 := 0
  srcInc : Int := 0
  dstInc : Int := 0
  startMode : UInt8 := 0
  burstIndex : UInt16 := 0
  running : Bool := false
  inProgress : Bool := false
  burstStart : Bool := false

namespace DmaChannel

def enabled (d : DmaChannel) : Bool := d.cnt &&& 0x80000000 != 0

def countMask (cpu : NdsCpu) (ch : Fin 4) : UInt32 :=
  match cpu with
  | .arm9 => 0x001FFFFF
  | .arm7 => if ch = 3 then 0x0000FFFF else 0x00003FFF

/-- A new transaction: the count, and the addresses in increment/reload mode. -/
def beginTransaction (d : DmaChannel) (cpu : NdsCpu) (ch : Fin 4) : DmaChannel :=
  let mask := countMask cpu ch
  { d with
    remaining := if d.cnt &&& mask = 0 then mask + 1 else d.cnt &&& mask
    curSrc := if d.cnt &&& 0x01800000 = 0x01800000 then d.src else d.curSrc
    curDst := if d.cnt &&& 0x00600000 = 0x00600000 then d.dst else d.curDst }

/-- A request resumes a transaction that is in progress. -/
def start (d : DmaChannel) (cpu : NdsCpu) (ch : Fin 4) : DmaChannel :=
  let d := if d.inProgress then d else d.beginTransaction cpu ch
  { d with burstIndex := 0, burstStart := true, running := true, inProgress := true }

def dstStep (value : UInt32) : Int :=
  if value &&& 0x00600000 = 0 then 1
  else if value &&& 0x00600000 = 0x00200000 then -1
  else if value &&& 0x00600000 = 0x00400000 then 0
  else 1

def srcStep (value : UInt32) : Int :=
  if value &&& 0x01800000 = 0 then 1
  else if value &&& 0x01800000 = 0x00800000 then -1
  else if value &&& 0x01800000 = 0x01000000 then 0
  else 1

def modeOf (cpu : NdsCpu) (value : UInt32) : UInt8 :=
  match cpu with
  | .arm9 => ((value >>> 27) &&& 7).toUInt8
  | .arm7 => ((value >>> 28) &&& 3).toUInt8 ||| 0x10

/-- The enable edge of a control write. -/
def arm (d : DmaChannel) (cpu : NdsCpu) (value : UInt32) : DmaChannel :=
  { d with
    curSrc := d.src
    curDst := d.dst
    dstInc := dstStep value
    srcInc := srcStep value
    startMode := modeOf cpu value }

def setCnt (d : DmaChannel) (value : UInt32) : DmaChannel := { d with cnt := value }

def setSrc (d : DmaChannel) (value : UInt32) : DmaChannel := { d with src := value }

def setDst (d : DmaChannel) (value : UInt32) : DmaChannel := { d with dst := value }

/-- The unit in bytes. -/
def unitWidth (d : DmaChannel) : Int := if d.cnt &&& 0x04000000 ≠ 0 then 4 else 2

/-- One unit has been moved. -/
def moveUnit (d : DmaChannel) : DmaChannel :=
  { d with
    burstIndex := d.burstIndex + 1
    curSrc := d.curSrc + UInt32.ofInt (d.srcInc * d.unitWidth)
    curDst := d.curDst + UInt32.ofInt (d.dstInc * d.unitWidth)
    remaining := d.remaining - 1
    burstStart := false }

/-- A game-card or GXFIFO request is used up before the transaction is. -/
def suspend (d : DmaChannel) : DmaChannel := { d with running := false }

/-- The end of a transaction; without the repeat bit the channel is disabled. -/
def complete (d : DmaChannel) : DmaChannel :=
  { d with
    cnt := if d.cnt &&& 0x02000000 = 0 then d.cnt &&& ~~~0x80000000 else d.cnt
    running := false
    inProgress := false }

end DmaChannel

structure DmaBank where
  channel : Fin 4 → DmaChannel := fun _ => {}
  entryCycle : UInt64 := 0

namespace DmaBank

def anyRunning (bank : DmaBank) : Bool :=
  (List.finRange 4).any fun ch => (bank.channel ch).running

def update (bank : DmaBank) (ch : Fin 4) (d : DmaChannel) : DmaBank :=
  { bank with channel := Function.update bank.channel ch d }

/-- `dma_start`, at the CPU's cycle count. -/
def dmaStart (bank : DmaBank) (cpu : NdsCpu) (ch : Fin 4) (cycles : UInt64) : DmaBank :=
  let d := bank.channel ch
  if d.running = true ∨ d.enabled = false then bank
  else
    { bank.update ch (d.start cpu ch) with
      entryCycle := if bank.anyRunning then bank.entryCycle else cycles }

/-- `dma_write_count`. The GXFIFO mode starts through the geometry engine's own
level check. -/
def dmaWriteCount (bank : DmaBank) (cpu : NdsCpu) (ch : Fin 4) (value : UInt32)
    (cycles : UInt64) : DmaBank :=
  let d := bank.channel ch
  if d.enabled = false ∧ value &&& 0x80000000 ≠ 0 then
    let armed := (d.setCnt value).arm cpu value
    let bank := bank.update ch armed
    if armed.startMode &&& 7 = 0 then bank.dmaStart cpu ch cycles else bank
  else bank.update ch (d.setCnt value)

/-- The register bits a write of `width` bytes covers. -/
def field (shift : UInt32) (width : Nat) : UInt32 :=
  if 4 ≤ width then 0xFFFFFFFF else ((1 <<< UInt32.ofNat (width * 8)) - 1) <<< shift

/-- `dma_reg_write`, for an address in 0x040000B0..0x040000DF. -/
def dmaRegWrite (bank : DmaBank) (cpu : NdsCpu) (addr value : UInt32) (width : Nat)
    (cycles : UInt64) : DmaBank :=
  let rel := addr - 0x040000B0
  let ch : Fin 4 := Fin.ofNat 4 (rel / 12).toNat
  let off := rel % 12
  let shift := (off &&& 3) * 8
  let merge := fun (reg : UInt32) =>
    reg &&& ~~~field shift width ||| (value <<< shift) &&& field shift width
  let d := bank.channel ch
  if off &&& ~~~3 = 8 then bank.dmaWriteCount cpu ch (merge d.cnt) cycles
  else if off &&& ~~~3 = 0 then bank.update ch (d.setSrc (merge d.src))
  else bank.update ch (d.setDst (merge d.dst))

/-- `nds_dma_trigger` -/
def ndsDmaTrigger (bank : DmaBank) (cpu : NdsCpu) (mode : UInt8) (cycles : UInt64) : DmaBank :=
  (List.finRange 4).foldl
    (fun bank ch =>
      if (bank.channel ch).enabled = true ∧ (bank.channel ch).startMode = mode then
        bank.dmaStart cpu ch cycles
      else bank) bank

end DmaBank

/-! ### Start modes and steps in range -/

/-- The start mode and the address steps are ones a control write can leave. -/
structure DmaChannel.InRange (cpu : NdsCpu) (d : DmaChannel) : Prop where
  mode : match cpu with
    | .arm9 => d.startMode ≤ 7
    | .arm7 => d.startMode = 0 ∨ (0x10 ≤ d.startMode ∧ d.startMode ≤ 0x13)
  src : -1 ≤ d.srcInc ∧ d.srcInc ≤ 1
  dst : -1 ≤ d.dstInc ∧ d.dstInc ≤ 1

namespace DmaChannel

theorem modeOf_inRange (cpu : NdsCpu) (value : UInt32) :
    match cpu with
    | .arm9 => modeOf cpu value ≤ 7
    | .arm7 => modeOf cpu value = 0 ∨ (0x10 ≤ modeOf cpu value ∧ modeOf cpu value ≤ 0x13) := by
  have hseven : ∀ b : BitVec 8, b &&& 7#8 ≤ 7#8 := by decide
  have hthree : ∀ b : BitVec 8, 0x10#8 ≤ (b &&& 3#8) ||| 0x10#8 ∧ (b &&& 3#8) ||| 0x10#8 ≤ 0x13#8 := by
    decide
  cases cpu with
  | arm9 =>
      unfold modeOf
      dsimp only
      rw [UInt32.toUInt8_and]
      exact hseven _
  | arm7 =>
      unfold modeOf
      dsimp only
      rw [UInt32.toUInt8_and]
      exact Or.inr (hthree _)

theorem dstStep_inRange (value : UInt32) : -1 ≤ dstStep value ∧ dstStep value ≤ 1 := by
  unfold dstStep
  grind

theorem srcStep_inRange (value : UInt32) : -1 ≤ srcStep value ∧ srcStep value ≤ 1 := by
  unfold srcStep
  grind

variable {cpu : NdsCpu} {d : DmaChannel}

/-- The range depends on the mode and the steps alone. -/
theorem InRange.of_eq {d' : DmaChannel} (h : d.InRange cpu) (hmode : d'.startMode = d.startMode)
    (hsrc : d'.srcInc = d.srcInc) (hdst : d'.dstInc = d.dstInc) : d'.InRange cpu := by
  refine ⟨?_, ?_, ?_⟩
  · rw [hmode]
    exact h.mode
  · rw [hsrc]
    exact h.src
  · rw [hdst]
    exact h.dst

theorem InRange.start (h : d.InRange cpu) (ch : Fin 4) : (d.start cpu ch).InRange cpu := by
  refine h.of_eq ?_ ?_ ?_
  all_goals
    unfold DmaChannel.start
    dsimp only
    split
    · rfl
    · rfl

theorem arm_inRange (cpu : NdsCpu) (d : DmaChannel) (value : UInt32) :
    (d.arm cpu value).InRange cpu :=
  ⟨modeOf_inRange cpu value, srcStep_inRange value, dstStep_inRange value⟩

end DmaChannel

namespace DmaBank

def InRange (cpu : NdsCpu) (bank : DmaBank) : Prop := ∀ ch, (bank.channel ch).InRange cpu

variable {cpu : NdsCpu} {bank : DmaBank}

theorem InRange.update (h : bank.InRange cpu) {ch : Fin 4} {d : DmaChannel} (hd : d.InRange cpu) :
    (bank.update ch d).InRange cpu := by
  intro c
  change (Function.update bank.channel ch d c).InRange cpu
  rcases eq_or_ne c ch with rfl | hc
  · rw [Function.update_self]
    exact hd
  · rw [Function.update_of_ne hc]
    exact h c

theorem InRange.dmaStart (h : bank.InRange cpu) (ch : Fin 4) (cycles : UInt64) :
    (bank.dmaStart cpu ch cycles).InRange cpu := by
  unfold DmaBank.dmaStart
  dsimp only
  split
  · exact h
  · exact h.update ((h ch).start ch)

theorem InRange.dmaWriteCount (h : bank.InRange cpu) (ch : Fin 4) (value : UInt32)
    (cycles : UInt64) : (bank.dmaWriteCount cpu ch value cycles).InRange cpu := by
  unfold DmaBank.dmaWriteCount
  dsimp only
  split
  · have harmed : (bank.update ch (((bank.channel ch).setCnt value).arm cpu value)).InRange cpu :=
      h.update (DmaChannel.arm_inRange cpu _ value)
    split
    · exact harmed.dmaStart ch cycles
    · exact harmed
  · exact h.update ((h ch).of_eq rfl rfl rfl)

theorem InRange.dmaRegWrite (h : bank.InRange cpu) (addr value : UInt32) (width : Nat)
    (cycles : UInt64) : (bank.dmaRegWrite cpu addr value width cycles).InRange cpu := by
  unfold DmaBank.dmaRegWrite
  dsimp only
  split
  · exact h.dmaWriteCount _ _ cycles
  · split
    · exact h.update ((h _).of_eq rfl rfl rfl)
    · exact h.update ((h _).of_eq rfl rfl rfl)

theorem InRange.ndsDmaTrigger (h : bank.InRange cpu) (mode : UInt8) (cycles : UInt64) :
    (bank.ndsDmaTrigger cpu mode cycles).InRange cpu := by
  have hfold (chs : List (Fin 4)) (bank : DmaBank) (h : bank.InRange cpu) :
      (chs.foldl (fun bank ch =>
        if (bank.channel ch).enabled = true ∧ (bank.channel ch).startMode = mode then
          bank.dmaStart cpu ch cycles
        else bank) bank).InRange cpu := by
    induction chs generalizing bank with
    | nil => exact h
    | cons ch chs ih =>
        apply ih
        dsimp only
        split
        · exact h.dmaStart ch cycles
        · exact h
  exact hfold _ bank h

end DmaBank

end NdsRecomp.Io
