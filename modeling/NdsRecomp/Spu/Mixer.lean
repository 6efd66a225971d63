import NdsRecomp.Library.OpSystem
import NdsRecomp.Spu.Channel

/-!
The capture units, the sound registers and the mixer.

A capture unit stores through the bus of the ARM7, where the sound registers
themselves are mapped, so its loop runs on the whole unit state.
-/

namespace NdsRecomp.Spu

open Library

structure Capture where
  cnt : UInt8 := 0
  dst : UInt32 := 0
  reload : UInt16 := 0
  length : Nat := 0
  timer : Nat := 0
  pos : Int := 0
  fifo : Nat → UInt8 := fun _ => 0
  fifoRead : Nat := 0
  fifoWrite : Nat := 0
  writeOffset : Nat := 0
  fifoLevel : Nat := 0
  inBounds : Bool := true

namespace Capture

def running (c : Capture) : Bool := c.cnt &&& 0x80 != 0

def bytes (c : Capture) : Bool := c.cnt &&& 8 != 0

def oneShot (c : Capture) : Bool := c.cnt &&& 4 != 0

def start (c : Capture) : Capture :=
  { c with
    timer := c.reload.toNat
    pos := 0
    fifo := fun _ => 0
    fifoRead := 0
    fifoWrite := 0
    writeOffset := 0
    fifoLevel := 0 }

def setCnt (c : Capture) (value : UInt8) : Capture :=
  let c := if value &&& 0x80 ≠ 0 ∧ c.cnt &&& 0x80 = 0 then c.start else c
  let value := value &&& 0x8F
  { c with cnt := if value &&& 0x80 = 0 then value &&& ~~~1 else value }

def setLength (c : Capture) (value : Nat) : Capture :=
  let length := value * 4 % 2 ^ 32
  { c with length := if length = 0 then 4 else length }

/-- The word at the read cursor. -/
def frontWord (c : Capture) : UInt32 :=
  (List.range 4).foldr (fun i acc => (c.fifo (c.fifoRead + i)).toUInt32 ||| acc <<< 8) 0

def setFifo (c : Capture) (fifo : Nat → UInt8) (read write level offset : Nat)
    (inBounds : Bool) : Capture :=
  { c with
    fifo, inBounds, fifoRead := read, fifoWrite := write, fifoLevel := level,
    writeOffset := offset }

def setTimer (c : Capture) (timer : Nat) : Capture := { c with timer }

def setPos (c : Capture) (pos : Int) : Capture := { c with pos }

/-- The cursors behind a word that went out. -/
def passWord (c : Capture) : Capture :=
  c.setFifo c.fifo ((c.fifoRead + 4) % 16) c.fifoWrite ((c.fifoLevel + 2 ^ 32 - 4) % 2 ^ 32)
    ((c.writeOffset + 4) % 2 ^ 32) (c.inBounds && decide (c.fifoRead + 4 ≤ 16))

/-- The bytes of a sample stored at the write cursor. -/
def putSample (c : Capture) (size : Nat) (value : Int) : Capture :=
  c.setFifo
    (fun i =>
      if c.fifoWrite ≤ i ∧ i < c.fifoWrite + size then
        UInt8.ofNat (value / 256 ^ (i - c.fifoWrite) % 256).toNat
      else c.fifo i)
    c.fifoRead ((c.fifoWrite + size) % 16) ((c.fifoLevel + size) % 2 ^ 32) c.writeOffset
    (c.inBounds && decide (c.fifoWrite + size ≤ 16))

def lowerTimer (c : Capture) : Capture := c.setTimer (c.reload.toNat + (c.timer - 65536))

def forward (c : Capture) (size : Nat) : Capture := c.setPos ((c.pos + size).bmod (2 ^ 32))

end Capture

structure SpuState where
  channel : Fin 16 → Channel
  capture : Fin 2 → Capture
  cnt : UInt16 := 0
  masterVolume : Nat := 0
  bias : UInt16 := 0
  mixCount : UInt64 := 0

namespace SpuState

def updateChannel (s : SpuState) (i : Fin 16) (f : Channel → Channel) : SpuState :=
  { s with channel := Function.update s.channel i (f (s.channel i)) }

def updateCapture (s : SpuState) (i : Fin 2) (f : Capture → Capture) : SpuState :=
  { s with capture := Function.update s.capture i (f (s.capture i)) }

def setGlobal (s : SpuState) (value : UInt32) : SpuState :=
  let cnt := (value &&& 0xBF7F).toUInt16
  let volume := (cnt &&& 0x7F).toNat
  { s with cnt, masterVolume := if volume = 127 then volume + 1 else volume }

/-- `(addr >> 4) & 0xF` -/
def channelIndex (addr : UInt32) : Fin 16 := Fin.ofNat 16 (addr >>> 4).toNat

/-- The reload register of channels 1 and 3 is also that of a capture unit. -/
def captureReload (s : SpuState) (addr : UInt32) (value : UInt16) : SpuState :=
  if addr &&& 0xF0 = 0x10 then s.updateCapture 0 ({ · with reload := value })
  else if addr &&& 0xF0 = 0x30 then s.updateCapture 1 ({ · with reload := value })
  else s

def write8 (s : SpuState) (addr : UInt32) (value : UInt8) : SpuState :=
  if addr < 0x04000500 then
    let shift := (addr &&& 3) * 8
    if addr &&& 0xF < 4 then
      s.updateChannel (channelIndex addr) fun ch =>
        ch.setCnt ((ch.cnt &&& ~~~((0xFF : UInt32) <<< shift)) ||| (value.toUInt32 <<< shift))
    else s
  else if addr = 0x04000500 then
    s.setGlobal ((s.cnt &&& 0xBF00).toUInt32 ||| (value &&& 0x7F).toUInt32)
  else if addr = 0x04000501 then
    s.setGlobal ((s.cnt &&& 0x007F).toUInt32 ||| ((value &&& 0xBF).toUInt32 <<< (8 : UInt32)))
  else if addr = 0x04000508 then s.updateCapture 0 (·.setCnt value)
  else if addr = 0x04000509 then s.updateCapture 1 (·.setCnt value)
  else s

/-- Half of the length register of a channel, in words of the register. -/
def mergedLength (low high : Nat) : Nat := (high * 65536 + low) * 4 % 2 ^ 32 % 0x800000

def write16 (s : SpuState) (addr : UInt32) (value : UInt16) : SpuState :=
  if addr < 0x04000500 then
    let i := channelIndex addr
    let ch := s.channel i
    match (addr &&& 0xF).toNat with
    | 0x0 => s.updateChannel i fun ch => ch.setCnt ((ch.cnt &&& 0xFFFF0000) ||| value.toUInt32)
    | 0x2 =>
        s.updateChannel i fun ch => ch.setCnt ((ch.cnt &&& 0x0000FFFF) ||| (value.toUInt32 <<< (16 : UInt32)))
    | 0x8 => (s.updateChannel i ({ · with reload := value })).captureReload addr value
    | 0xA => s.updateChannel i ({ · with loop := value.toNat * 4 })
    | 0xC =>
        s.updateChannel i ({ · with length := mergedLength value.toNat (ch.length / 4 / 65536) })
    | 0xE =>
        s.updateChannel i ({ · with length := mergedLength (ch.length / 4 % 65536) value.toNat })
    | _ => s
  else if addr = 0x04000500 then s.setGlobal value.toUInt32
  else if addr = 0x04000504 then { s with bias := value &&& 0x3FF }
  else if addr = 0x04000508 then
    (s.updateCapture 0 (·.setCnt value.toUInt8)).updateCapture 1 (·.setCnt (value >>> 8).toUInt8)
  else if addr = 0x04000514 then s.updateCapture 0 (·.setLength value.toNat)
  else if addr = 0x0400051C then s.updateCapture 1 (·.setLength value.toNat)
  else s

def write32 (s : SpuState) (addr : UInt32) (value : UInt32) : SpuState :=
  if addr < 0x04000500 then
    let i := channelIndex addr
    match (addr &&& 0xF).toNat with
    | 0x0 => s.updateChannel i (·.setCnt value)
    | 0x4 => s.updateChannel i ({ · with src := value &&& 0x07FFFFFC })
    | 0x8 =>
        (s.updateChannel i ({ · with
          reload := value.toUInt16, loop := (value >>> 16).toNat * 4 })).captureReload addr
            value.toUInt16
    | 0xC => s.updateChannel i ({ · with length := (value &&& 0x001FFFFF).toNat * 4 })
    | _ => s
  else if addr = 0x04000500 then s.setGlobal value
  else if addr = 0x04000504 then { s with bias := (value &&& 0x3FF).toUInt16 }
  else if addr = 0x04000508 then
    (s.updateCapture 0 (·.setCnt value.toUInt8)).updateCapture 1 (·.setCnt (value >>> 8).toUInt8)
  else if addr = 0x04000510 then
    s.updateCapture 0 ({ · with dst := value &&& 0x07FFFFFC })
  else if addr = 0x04000514 then s.updateCapture 0 (·.setLength (value &&& 0xFFFF).toNat)
  else if addr = 0x04000518 then
    s.updateCapture 1 ({ · with dst := value &&& 0x07FFFFFC })
  else if addr = 0x0400051C then s.updateCapture 1 (·.setLength (value &&& 0xFFFF).toNat)
  else s

def ndsSpuWrite (s : SpuState) (addr value : UInt32) (width : Nat) : SpuState :=
  if width = 1 then s.write8 addr value.toUInt8
  else if width = 2 then s.write16 addr value.toUInt16
  else s.write32 addr value

/-- A store of the ARM7: the range of the sound registers leads back here, all
other targets leave the sound unit alone. -/
def busDeviceWrite32 (s : SpuState) (addr value : UInt32) : SpuState :=
  if addr ≥ 0x04000400 ∧ addr < 0x04000520 then s.ndsSpuWrite addr value 4 else s

/-- One word out of a capture FIFO. -/
def flushWord (s : SpuState) (i : Fin 2) : SpuState :=
  let c := s.capture i
  (s.busDeviceWrite32 (c.dst + UInt32.ofNat c.writeOffset) c.frontWord).updateCapture i
    (·.passWord)

def flushWords (i : Fin 2) : Nat → SpuState → SpuState
  | 0, s => s
  | words + 1, s =>
      if (s.capture i).fifoLevel ≥ 4 then
        let s := s.flushWord i
        if (s.capture i).writeOffset ≥ (s.capture i).length then
          s.updateCapture i ({ · with writeOffset := 0 })
        else flushWords i words s
      else s

def flush (s : SpuState) (i : Fin 2) : SpuState := flushWords i 4 s

/-- `write_value<T>` for a `T` of `size` bytes. -/
def writeValue (s : SpuState) (i : Fin 2) (size : Nat) (value : Int) : SpuState :=
  let s := s.updateCapture i (·.putSample size value)
  if (s.capture i).fifoLevel ≥ 16 then s.flush i else s

/-- The timer loop of `run`; `size` is fixed when it starts. -/
def captureSamples (i : Fin 2) (size : Nat) (value : Int) : Nat → SpuState → SpuState
  | 0, s => s
  | rounds + 1, s =>
      if (s.capture i).timer / 65536 ≠ 0 then
        let s := s.updateCapture i (·.lowerTimer)
        let s := s.writeValue i size value
        let s := s.updateCapture i (·.forward size)
        if (s.capture i).pos % 2 ^ 32 ≥ (s.capture i).length then
          let s := if (s.capture i).fifoLevel ≥ 4 then s.flush i else s
          if (s.capture i).oneShot then
            s.updateCapture i fun c => { c with cnt := c.cnt &&& 0x7F }
          else
            captureSamples i size value rounds (s.updateCapture i (·.setPos 0))
        else captureSamples i size value rounds s
      else s

def captureRun (s : SpuState) (i : Fin 2) (sample : Int) : SpuState :=
  let s := s.updateCapture i fun c => c.setTimer (c.timer + 512)
  let rounds := (s.capture i).timer
  if (s.capture i).bytes then captureSamples i 1 (sample / 256) rounds s
  else captureSamples i 2 sample rounds s

/-- The channels one mixer step further, with the values they put out. `view`
is the bus as each channel finds it. -/
def runChannels (s : SpuState) (view : Fin 16 → UInt32 → UInt32) : SpuState :=
  { s with channel := fun i => ((s.channel i).run (view i)).2 }

/-- The two sides of the mixer. Channels 1 and 3 can be kept out. -/
def mixedOutput (s : SpuState) (view : Fin 16 → UInt32 → UInt32) : Int × Int :=
  (List.finRange 16).foldl (fun out i =>
    if i = 1 ∧ s.cnt &&& 0x1000 ≠ 0 ∨ i = 3 ∧ s.cnt &&& 0x2000 ≠ 0 then out
    else
      let (value, ch) := (s.channel i).run (view i)
      ch.panOutput value out) (0, 0)

def clampSample (value : Int) : Int := max (-0x8000) (min 0x7FFF (value / 256))

def runCapture (s : SpuState) (i : Fin 2) (value : Int) : SpuState :=
  if (s.capture i).running then s.captureRun i (clampSample value) else s

def mix (s : SpuState) (view : Fin 16 → UInt32 → UInt32) : SpuState :=
  if s.cnt &&& 0x8000 ≠ 0 then
    let out := s.mixedOutput view
    ((s.runChannels view).runCapture 0 out.1).runCapture 1 out.2
  else s

def ndsSpuReset : SpuState where
  channel := fun i => ({ num := i } : Channel).setCnt 0
  capture := fun _ => {}

/-- `count` turns of the loop in `nds_tick_spu`. -/
def mixes (view : UInt64 → Fin 16 → UInt32 → UInt32) : Nat → SpuState → SpuState
  | 0, s => s
  | count + 1, s =>
      mixes view count { s.mix (view s.mixCount) with mixCount := s.mixCount + 1 }

def ndsTickSpu (s : SpuState) (view : UInt64 → Fin 16 → UInt32 → UInt32)
    (systemCycles : UInt64) : SpuState :=
  let due := systemCycles / 1024
  if s.mixCount ≥ due then s else mixes view (due - s.mixCount).toNat s

end SpuState

end NdsRecomp.Spu
