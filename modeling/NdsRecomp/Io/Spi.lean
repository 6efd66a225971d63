import NdsRecomp.Runtime.PollState

/-!
The SPI bus of the ARM7 and the three devices behind it: power management (0),
the firmware flash (1) and the touchscreen controller (2). Each device keeps
the phase of its own transaction; the control register selects one, and a byte
without the hold bit ends the transaction after it.

The image of the firmware is `fw` below `fwSize`; writing it through to disk is
a step of its own.
-/

namespace NdsRecomp.Io

/-- `UINT64_MAX`, the value of a deadline that is not pending. -/
def deadlineNone : UInt64 := 0xFFFFFFFFFFFFFFFF

structure SpiBus where
  spicnt : UInt16 := 0
  resp : UInt8 := 0
  deadline : UInt64 := deadlineNone
  fwSize : Nat
  fw : Nat → UInt8
  fwDirty : Bool := false
  fwHold : Bool := false
  fwCmd : UInt8 := 0
  fwStatus : UInt8 := 0
  fwAddr : UInt32 := 0
  fwDataPos : UInt32 := 0
  pmIndex : UInt8 := 0
  pmRegs : Fin 8 → UInt8
  pmMasks : Fin 8 → UInt8
  pmHold : Bool := false
  poweredOff : Bool := false
  tscCtrl : UInt8 := 0
  tscConv : UInt16 := 0xFFF
  tscDatapos : Nat := 0
  tscX : UInt16 := 0
  tscY : UInt16 := 0xFFF

namespace SpiBus

/-! ### Firmware flash -/

def fwMask (s : SpiBus) : UInt32 := if s.fwSize = 0 then 0 else UInt32.ofNat s.fwSize - 1

/-- The index of the byte the flash address points at. -/
def fwIndex (s : SpiBus) : Nat := (s.fwAddr &&& s.fwMask).toNat

/-- The first byte after chip select is the command. -/
def fwCommand (s : SpiBus) (v : UInt8) : SpiBus :=
  { s with
    fwCmd := v
    fwHold := true
    fwDataPos := 1
    fwAddr := 0
    fwStatus :=
      if v = 0x04 then s.fwStatus &&& ~~~0x02
      else if v = 0x06 then s.fwStatus ||| 0x02
      else s.fwStatus }

def fwAddrByte (s : SpiBus) (v : UInt8) : SpiBus :=
  { s with fwAddr := s.fwAddr <<< 8 ||| v.toUInt32, fwDataPos := s.fwDataPos + 1 }

def fwAdvance (s : SpiBus) : SpiBus :=
  { s with fwAddr := s.fwAddr + 1, fwDataPos := s.fwDataPos + 1 }

def fwStore (s : SpiBus) (v : UInt8) : SpiBus :=
  if s.fwSize ≠ 0 ∧ s.fw s.fwIndex ≠ v then
    { s with fw := Function.update s.fw s.fwIndex v, fwDirty := true }
  else s

def fwWrite (s : SpiBus) (v : UInt8) : SpiBus × UInt8 :=
  if s.fwHold = false then (s.fwCommand v, 0)
  else if s.fwCmd = 0x03 then
    if s.fwDataPos < 4 then (s.fwAddrByte v, 0)
    else if s.fwSize = 0 then (s, 0xFF)
    else (s.fwAdvance, s.fw s.fwIndex)
  else if s.fwCmd = 0x05 then (s, s.fwStatus)
  else if s.fwCmd = 0x0A then
    if s.fwDataPos < 4 then (s.fwAddrByte v, 0)
    else ((s.fwStore v).fwAdvance, v)
  else if s.fwCmd = 0x9F then
    let result : UInt8 :=
      if s.fwDataPos = 1 then 0x20
      else if s.fwDataPos = 2 then 0x40
      else if s.fwDataPos = 3 then 0x12
      else 0
    ({ s with fwDataPos := s.fwDataPos + 1 }, result)
  else (s, 0xFF)

def fwRelease (s : SpiBus) : SpiBus := { s with fwHold := false, fwCmd := 0 }

/-! ### Power management -/

/-- `g_pm_index & 7u` -/
def pmRegid (s : SpiBus) : Fin 8 := Fin.ofNat 8 s.pmIndex.toNat

/-- An index byte (bit 7 asks for a read), then data bytes. -/
def pmWrite (s : SpiBus) (v : UInt8) : SpiBus × UInt8 :=
  if s.pmHold = false then ({ s with pmIndex := v, pmHold := true }, 0)
  else
    let regid := s.pmRegid
    if s.pmIndex &&& 0x80 ≠ 0 then (s, s.pmRegs regid)
    else
      let value := s.pmRegs regid &&& ~~~s.pmMasks regid ||| v &&& s.pmMasks regid
      ({ s with
          pmRegs := Function.update s.pmRegs regid value
          poweredOff := if regid = 0 ∧ v &&& 0x40 ≠ 0 then true else s.poweredOff }, 0)

def pmRelease (s : SpiBus) : SpiBus := { s with pmHold := false }

/-! ### Touchscreen -/

/-- The conversion a control byte latches. -/
def tscConversion (s : SpiBus) (v : UInt8) : UInt16 :=
  let conv :=
    if v &&& 0x70 = 0x10 then s.tscY
    else if v &&& 0x70 = 0x50 then s.tscX
    else 0xFFF
  if v &&& 0x08 ≠ 0 then conv &&& 0x0FF0 else conv

def tscOut (s : SpiBus) : UInt8 :=
  if s.tscDatapos = 1 then (s.tscConv >>> 5).toUInt8
  else if s.tscDatapos = 2 then (s.tscConv <<< 3).toUInt8
  else 0

def tscWrite (s : SpiBus) (v : UInt8) : SpiBus × UInt8 :=
  if v &&& 0x80 ≠ 0 then
    ({ s with tscCtrl := v, tscDatapos := 1, tscConv := s.tscConversion v }, s.tscOut)
  else ({ s with tscDatapos := s.tscDatapos + 1 }, s.tscOut)

def tscRelease (s : SpiBus) : SpiBus := { s with tscDatapos := 0 }

/-! ### Controller -/

/-- The device selected by bits 8 and 9 of a control value; 3 is none. -/
def device (cnt : UInt16) : UInt16 := (cnt >>> 8) &&& 3

def releaseDevice (s : SpiBus) (dev : UInt16) : SpiBus :=
  if dev = 0 then s.pmRelease
  else if dev = 1 then s.fwRelease
  else if dev = 2 then s.tscRelease
  else s

/-- The byte as the selected device takes it, with its answer. -/
def deviceWrite (s : SpiBus) (v : UInt8) : SpiBus × UInt8 :=
  if device s.spicnt = 0 then s.pmWrite v
  else if device s.spicnt = 1 then s.fwWrite v
  else if device s.spicnt = 2 then s.tscWrite v
  else (s, 0)

/-- `8u * (8u << (cnt & 3u))` -/
def byteDelay (cnt : UInt16) : UInt64 := 8 * ((8 : UInt64) <<< (cnt.toUInt64 &&& 3))

/-- The transfer's last part: the hold bit decides on a release, the bus is busy
until its deadline. -/
def finishByte (s : SpiBus) (resp : UInt8) (now : UInt64) : SpiBus :=
  let s := if s.spicnt &&& 0x0800 = 0 then s.releaseDevice (device s.spicnt) else s
  { s with
    resp := resp
    spicnt := s.spicnt ||| 0x0080
    deadline := now + byteDelay s.spicnt }

def spiTransfer (s : SpiBus) (v : UInt8) (now : UInt64) : SpiBus :=
  if s.spicnt &&& 0x0080 ≠ 0 then s
  else
    let (s, resp) := s.deviceWrite v
    s.finishByte resp now

/-- Clearing the enable bit drops the chip select of the device selected
before. The busy bit is not writable. -/
def writeSpicnt (s : SpiBus) (value : UInt16) : SpiBus :=
  let old := s.spicnt
  let s := { s with spicnt := old &&& 0x0080 ||| value &&& 0xCF03 }
  if old &&& 0x8000 ≠ 0 ∧ s.spicnt &&& 0x8000 = 0 then s.releaseDevice (device old) else s

/-- A write to SPIDATA. -/
def writeSpidata (s : SpiBus) (v : UInt8) (now : UInt64) : SpiBus :=
  if s.spicnt &&& 0x8000 ≠ 0 then s.spiTransfer v now else s

/-- The completion event; the caller raises the interrupt of bit 14. -/
def runEvents (s : SpiBus) (timestamp : UInt64) : SpiBus :=
  if s.deadline ≤ timestamp then
    { s with deadline := deadlineNone, spicnt := s.spicnt &&& ~~~0x0080 }
  else s

/-- `nds_set_touch`, the part kept by the touchscreen. -/
def setTouch (s : SpiBus) (x y : UInt16) (down : Bool) : SpiBus :=
  if down then { s with tscX := x <<< 4, tscY := y <<< 4 }
  else { s with tscX := 0, tscY := 0x0FFF }

/-- The bus at reset; the firmware image stays. -/
def reset (fwSize : Nat) (fw : Nat → UInt8) : SpiBus where
  fwSize := fwSize
  fw := fw
  pmRegs := fun r => if r = 4 then 0x40 else 0
  pmMasks := ![0x7F, 0x00, 0x01, 0x03, 0x0F, 0, 0, 0]

end SpiBus

end NdsRecomp.Io
