import NdsRecomp.Library.OpSystem
import NdsRecomp.Cart.Backup

/-!
The AUXSPI port of the card slot: the control register with its busy bit, the
chip-select hold, the position of the next byte, and the infrared front end
some cards put before the backup chip. A session also remembers the bytes the
chip has been given in the current transfer, for the statements about it; the
port never reads them.
-/

namespace NdsRecomp.Cart

open Library

def deadlineNone : UInt64 := 0xFFFFFFFFFFFFFFFF

structure AuxSpi where
  auxspicnt : UInt16 := 0
  data : UInt8 := 0
  hold : Bool := false
  pos : UInt32 := 0
  deadline : UInt64 := deadlineNone
  hasIr : Bool := false
  irCmd : UInt8 := 0
  chip : NdsCartBackup

namespace AuxSpi

/-- `cart_sram_spi_write`; the write-through to disk is a step of its own. -/
def cartSramSpiWrite (s : AuxSpi) (val : UInt8) (pos : UInt32) (last : Bool) : AuxSpi × UInt8 :=
  let (chip, result) := s.chip.spiWrite val pos last
  ({ s with chip := chip }, result)

def cartSpiWrite (s : AuxSpi) (val : UInt8) (pos : UInt32) (last : Bool) : AuxSpi × UInt8 :=
  if s.hasIr = false then s.cartSramSpiWrite val pos last
  else if pos = 0 then ({ s with irCmd := val }, 0)
  else if s.irCmd = 0x00 then s.cartSramSpiWrite val (pos - 1) last
  else if s.irCmd = 0x08 then (s, 0xAA)
  else (s, 0)

/-- Deasserting NDS-slot mode mid-hold releases the chip select. -/
def releases (s : AuxSpi) (val : UInt16) : Prop :=
  s.auxspicnt &&& 0x2040 = 0x2040 ∧ val &&& 0x2000 = 0

instance (s : AuxSpi) (val : UInt16) : Decidable (s.releases val) :=
  inferInstanceAs (Decidable (_ ∧ _))

def writeCnt (s : AuxSpi) (val : UInt16) : AuxSpi :=
  { s with
    hold := if s.releases val then false else s.hold
    auxspicnt := s.auxspicnt &&& 0x0080 ||| val &&& 0xE043 }

/-- Enabled, in slot mode and not busy; any other write is dropped. -/
def accepts (s : AuxSpi) : Prop :=
  s.auxspicnt &&& 0x8000 ≠ 0 ∧ s.auxspicnt &&& 0x2000 ≠ 0 ∧ s.auxspicnt &&& 0x0080 = 0

instance (s : AuxSpi) : Decidable s.accepts := inferInstanceAs (Decidable (_ ∧ _ ∧ _))

/-- Whether this byte ends its transfer: the hold bit is clear. -/
def isLast (s : AuxSpi) : Bool := s.auxspicnt &&& 0x0040 == 0

/-- The hold flag and the position of a byte written now. -/
def clockByte (s : AuxSpi) : Bool × UInt32 :=
  if s.isLast then (false, if s.hold then s.pos + 1 else 0)
  else if !s.hold then (true, 0)
  else (true, s.pos + 1)

/-- `8u * (8u << (g_auxspicnt & 3u))` -/
def byteDelay (auxspicnt : UInt16) : UInt64 :=
  8 * ((8 : UInt64) <<< (auxspicnt.toUInt64 &&& 3))

def writeData (s : AuxSpi) (val : UInt8) (now : UInt64) : AuxSpi :=
  if s.accepts then
    let (hold, pos) := s.clockByte
    let busy := { s with auxspicnt := s.auxspicnt ||| 0x0080, hold := hold, pos := pos }
    let (port, data) := busy.cartSpiWrite val pos s.isLast
    { port with data := data, deadline := now + byteDelay busy.auxspicnt }
  else s

/-- The transfer-done part of `nds_run_system_events`. -/
def runEvents (s : AuxSpi) (timestamp : UInt64) : AuxSpi :=
  if s.deadline ≤ timestamp then
    { s with deadline := deadlineNone, auxspicnt := s.auxspicnt &&& ~~~0x0080 }
  else s

/-- The position at which a byte written now reaches the backup chip, if it
does. -/
def chipPos (s : AuxSpi) : Option UInt32 :=
  let pos := s.clockByte.2
  if s.hasIr = false then some pos
  else if pos = 0 then none
  else if s.irCmd = 0x00 then some (pos - 1)
  else none

end AuxSpi

/-- What the chip was given since the chip select was last asserted, with its
latch and memory at that moment. -/
structure Transfer where
  bytes : List UInt8
  answers : List UInt8
  enabled : Bool
  memory : Nat → UInt8

def Transfer.start (chip : NdsCartBackup) : Transfer :=
  { bytes := [], answers := [], enabled := chip.writeEnabled, memory := chip.sram }

def Transfer.feed (t : Transfer) (val answer : UInt8) : Transfer :=
  { t with bytes := t.bytes ++ [val], answers := t.answers ++ [answer] }

structure AuxSession where
  port : AuxSpi
  transfer : Transfer

namespace AuxSession

def writeData (s : AuxSession) (val : UInt8) (now : UInt64) : AuxSession :=
  if s.port.accepts then
    let port := s.port.writeData val now
    let transfer := if s.port.hold then s.transfer else .start s.port.chip
    match s.port.chipPos with
    | some _ => { port := port, transfer := transfer.feed val port.data }
    | none => { port := port, transfer := transfer }
  else s

end AuxSession

/-- `flush` is the write-through of a changed image to disk. -/
inductive AuxOp where
  | writeCnt (val : UInt16)
  | writeData (val : UInt8) (now : UInt64)
  | events (timestamp : UInt64)
  | flush

/-- The save types and sizes a configuration may name. -/
def ConfiguredSave (type : NdsCartridgeSaveType) (size : Nat) : Prop :=
  match type with
  | .none => size = 0
  | .eepromTiny => size = 512
  | .eeprom | .flash => ∃ k ≤ 26, size = 2 ^ k

def auxSystem : OpSystem AuxSession AuxOp where
  initial := fun s =>
    ∃ chip : NdsCartBackup, ∃ hasIr irCmd, ConfiguredSave chip.type chip.size ∧
      s.port = { chip := chip.resetCommand, hasIr := hasIr, irCmd := irCmd } ∧
      s.transfer = .start chip.resetCommand
  admits := fun _ _ => True
  next := fun s op =>
    match op with
    | .writeCnt val => { s with port := s.port.writeCnt val }
    | .writeData val now => s.writeData val now
    | .events timestamp => { s with port := s.port.runEvents timestamp }
    | .flush => { s with port := { s.port with chip := { s.port.chip with dirty := false } } }

end NdsRecomp.Cart
