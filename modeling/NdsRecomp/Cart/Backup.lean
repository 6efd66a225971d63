import Mathlib.Tactic

/-!
The backup chips of game cards: serial EEPROMs with one, two or three address
bytes and flash memories. A chip is fed one byte at a time with the position of
the byte in its chip-select transfer; the command, the address and the
write-enable latch survive between bytes and between transfers.
-/

namespace NdsRecomp.Cart

inductive NdsCartridgeSaveType where
  | none
  | eepromTiny
  | eeprom
  | flash
deriving DecidableEq

/-- The save memory is `sram` below `size`. -/
structure NdsCartBackup where
  type : NdsCartridgeSaveType
  size : Nat
  sram : Nat → UInt8
  cmd : UInt8 := 0
  status : UInt8 := 0
  addr : UInt32 := 0
  dirty : Bool := false

namespace NdsCartBackup

/-- `chip.sram.size() - 1u` -/
def mask (chip : NdsCartBackup) : UInt32 := UInt32.ofNat chip.size - 1

def writeEnabled (chip : NdsCartBackup) : Bool := chip.status &&& 0x02 != 0

/-- `chip.addr = (chip.addr << 8) | val` -/
def shiftAddr (chip : NdsCartBackup) (val : UInt8) : NdsCartBackup :=
  { chip with addr := chip.addr <<< 8 ||| val.toUInt32 }

/-- Change one byte of the image, noting whether it differs. -/
def put (chip : NdsCartBackup) (destination : Nat) (val : UInt8) : NdsCartBackup :=
  if chip.sram destination ≠ val then
    { chip with sram := Function.update chip.sram destination val, dirty := true }
  else chip

def putIfEnabled (chip : NdsCartBackup) (destination : Nat) (val : UInt8) : NdsCartBackup :=
  if chip.writeEnabled then chip.put destination val else chip

/-- `++chip.addr` -/
def nextAddr (chip : NdsCartBackup) : NdsCartBackup := { chip with addr := chip.addr + 1 }

/-- `if (last) chip.status &= ~0x02u;` -/
def finishWrite (chip : NdsCartBackup) (last : Bool) : NdsCartBackup :=
  if last then { chip with status := chip.status &&& ~~~0x02 } else chip

/-- `(chip.status & 0x01u) | (val & 0x0Cu)` -/
def writeStatus (chip : NdsCartBackup) (val : UInt8) (pos : UInt32) : NdsCartBackup :=
  if pos = 1 then { chip with status := chip.status &&& 0x01 ||| val &&& 0x0C } else chip

def eepromSpiWrite (chip : NdsCartBackup) (val : UInt8) (pos : UInt32) (last : Bool) :
    NdsCartBackup × UInt8 :=
  let addrsize : UInt32 := if chip.size > 65536 then 3 else 2
  if chip.cmd = 0x01 then (chip.writeStatus val pos, 0)
  else if chip.cmd = 0x05 then (chip, chip.status)
  else if chip.cmd = 0x02 then
    let chip :=
      if pos ≤ addrsize then chip.shiftAddr val
      else (chip.putIfEnabled (chip.addr &&& chip.mask).toNat val).nextAddr
    (chip.finishWrite last, 0)
  else if chip.cmd = 0x03 then
    if pos ≤ addrsize then (chip.shiftAddr val, 0)
    else (chip.nextAddr, chip.sram (chip.addr &&& chip.mask).toNat)
  else (chip, 0xFF)

/-- `chip.addr + high`, with `high` the upper half for opcodes 0x0A and 0x0B. -/
def tinyAddress (chip : NdsCartBackup) : Nat :=
  let high : UInt32 := if chip.cmd = 0x0A ∨ chip.cmd = 0x0B then 0x100 else 0
  ((chip.addr + high) &&& 0x1FF).toNat

def eepromTinySpiWrite (chip : NdsCartBackup) (val : UInt8) (pos : UInt32) (last : Bool) :
    NdsCartBackup × UInt8 :=
  if chip.cmd = 0x01 then (chip.writeStatus val pos, 0)
  else if chip.cmd = 0x05 then (chip, chip.status ||| 0xF0)
  else if chip.cmd = 0x02 ∨ chip.cmd = 0x0A then
    let chip :=
      if pos < 2 then { chip with addr := val.toUInt32 }
      else (chip.putIfEnabled chip.tinyAddress val).nextAddr
    (chip.finishWrite last, 0)
  else if chip.cmd = 0x03 ∨ chip.cmd = 0x0B then
    if pos < 2 then ({ chip with addr := val.toUInt32 }, 0)
    else (chip.nextAddr, chip.sram chip.tinyAddress)
  else (chip, 0xFF)

/-- The erase loop over `length` bytes from the address. -/
def erase (chip : NdsCartBackup) (length : Nat) : NdsCartBackup :=
  (List.range length).foldl
    (fun chip i => chip.put ((chip.addr + UInt32.ofNat i) &&& chip.mask).toNat 0) chip

def eraseLength (cmd : UInt8) : Nat := if cmd = 0xD8 then 0x10000 else 0x100

def flashSpiWrite (chip : NdsCartBackup) (val : UInt8) (pos : UInt32) (last : Bool) :
    NdsCartBackup × UInt8 :=
  if chip.cmd = 0x05 then (chip, chip.status)
  else if chip.cmd = 0x02 ∨ chip.cmd = 0x0A then
    let chip :=
      if pos ≤ 3 then chip.shiftAddr val
      else
        let programmed := if chip.cmd = 0x02 then 0 else val
        (chip.putIfEnabled (chip.addr &&& chip.mask).toNat programmed).nextAddr
    (chip.finishWrite last, 0)
  else if chip.cmd = 0x03 ∨ chip.cmd = 0x0B then
    if pos ≤ 3 then (chip.shiftAddr val, 0)
    else if chip.cmd = 0x0B ∧ pos = 4 then (chip, 0)
    else (chip.nextAddr, chip.sram (chip.addr &&& chip.mask).toNat)
  else if chip.cmd = 0xD8 ∨ chip.cmd = 0xDB then
    let chip := if pos ≤ 3 then chip.shiftAddr val else chip
    let chip := if pos = 3 ∧ chip.writeEnabled then chip.erase (eraseLength chip.cmd) else chip
    (chip.finishWrite last, 0)
  else (chip, 0xFF)

/-- `nds_cart_backup_reset_command` -/
def resetCommand (chip : NdsCartBackup) : NdsCartBackup :=
  { chip with cmd := 0, status := 0, addr := 0 }

/-- The first byte of a transfer. -/
def firstByte (chip : NdsCartBackup) (value : UInt8) : NdsCartBackup × UInt8 :=
  if value = 0x04 then ({ chip with status := chip.status &&& ~~~0x02 }, 0)
  else if value = 0x06 then ({ chip with status := chip.status ||| 0x02 }, 0)
  else ({ chip with cmd := value, addr := 0 }, 0xFF)

/-- `nds_cart_backup_spi_write` -/
def spiWrite (chip : NdsCartBackup) (value : UInt8) (pos : UInt32) (last : Bool) :
    NdsCartBackup × UInt8 :=
  if chip.size = 0 then (chip, 0)
  else if pos = 0 then chip.firstByte value
  else
    match chip.type with
    | .eepromTiny => chip.eepromTinySpiWrite value pos last
    | .eeprom => chip.eepromSpiWrite value pos last
    | .flash => chip.flashSpiWrite value pos last
    | .none => (chip, 0)

end NdsCartBackup

end NdsRecomp.Cart
