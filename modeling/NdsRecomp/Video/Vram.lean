import NdsRecomp.Bus.Backing

/-!
Video memory: nine banks in one array, with the write marks and page
generations kept beside it, and the masks that say which banks each CPU and
each graphics engine sees where. Palette and OAM hold no code and are left out,
as are the flattened renderer views.
-/

namespace NdsRecomp.Video

open Bus

abbrev VramBank := Fin 9

def kBankOffset : VramBank → Nat :=
  ![0x00000, 0x20000, 0x40000, 0x60000, 0x80000, 0x90000, 0x94000, 0x98000, 0xA0000]

def kBankSize : VramBank → Nat :=
  ![0x20000, 0x20000, 0x20000, 0x20000, 0x10000, 0x04000, 0x04000, 0x08000, 0x04000]

def kTotalVram : Nat := 0xA4000

/-- `kBankSize[bank] - 1`, the in-bank address mask. -/
def bankMask (bank : VramBank) : UInt32 := UInt32.ofNat (kBankSize bank - 1)

structure VramState where
  vram : Nat → UInt8 := fun _ => 0
  written : Nat → Bool := fun _ => false
  generation : Nat → UInt32 := fun _ => 0
  cnt : VramBank → UInt8 := fun _ => 0
  lcdc : UInt16 := 0
  abg : Nat → UInt16 := fun _ => 0
  aobj : Nat → UInt16 := fun _ => 0
  bbg : Nat → UInt16 := fun _ => 0
  bobj : Nat → UInt16 := fun _ => 0
  abgExt : Nat → UInt16 := fun _ => 0
  aobjExt : UInt16 := 0
  bbgExt : Nat → UInt16 := fun _ => 0
  bobjExt : UInt16 := 0
  texture : Nat → UInt16 := fun _ => 0
  texpal : Nat → UInt16 := fun _ => 0
  arm7 : Nat → UInt16 := fun _ => 0
  textureGeneration : UInt64 := 1

/-! ### Mapping -/

def bankBit (bank : VramBank) : UInt16 := (1 : UInt16) <<< UInt16.ofNat bank

/-- `if (add) mask |= bit; else mask &= ~bit;` -/
def bitset (mask bit : UInt16) (add : Bool) : UInt16 :=
  if add then mask ||| bit else mask &&& ~~~bit

/-- `range_map` over an array of `n` masks. -/
def rangeMap (map : Nat → UInt16) (n base count : Nat) (bit : UInt16) (add : Bool) :
    Nat → UInt16 := fun i =>
  if base ≤ i ∧ i < base + count ∧ i < n then bitset (map i) bit add else map i

/-- One mask of an array. -/
def setMask (map : Nat → UInt16) (index : Nat) (bit : UInt16) (add : Bool) : Nat → UInt16 :=
  Function.update map index (bitset (map index) bit add)

namespace VramState

def mapLcdc (v : VramState) (bit : UInt16) (add : Bool) : VramState :=
  { v with lcdc := bitset v.lcdc bit add }

def mapAb (v : VramState) (bank : VramBank) (cnt : UInt8) (add : Bool) : VramState :=
  let bit := bankBit bank
  let ofs := (cnt >>> 3).toNat % 4
  if cnt &&& 0x80 = 0 then v
  else
    match cnt.toNat % 4 with
    | 0 => v.mapLcdc bit add
    | 1 => { v with abg := rangeMap v.abg 32 (ofs * 8) 8 bit add }
    | 2 => { v with aobj := rangeMap v.aobj 16 (ofs % 2 * 8) 8 bit add }
    | _ => { v with texture := setMask v.texture ofs bit add }

def mapCd (v : VramState) (bank : VramBank) (cnt : UInt8) (add : Bool) : VramState :=
  let bit := bankBit bank
  let ofs := (cnt >>> 3).toNat % 8
  if cnt &&& 0x80 = 0 then v
  else
    match cnt.toNat % 8 with
    | 0 => v.mapLcdc bit add
    | 1 => { v with abg := rangeMap v.abg 32 (ofs * 8) 8 bit add }
    | 2 => { v with arm7 := setMask v.arm7 (ofs % 2) bit add }
    | 3 => { v with texture := setMask v.texture (ofs % 4) bit add }
    | 4 =>
        if bank = 2 then { v with bbg := rangeMap v.bbg 8 0 8 bit add }
        else { v with bobj := rangeMap v.bobj 8 0 8 bit add }
    | _ => v

def mapE (v : VramState) (bank : VramBank) (cnt : UInt8) (add : Bool) : VramState :=
  let bit := bankBit bank
  if cnt &&& 0x80 = 0 then v
  else
    match cnt.toNat % 8 with
    | 0 => v.mapLcdc bit add
    | 1 => { v with abg := rangeMap v.abg 32 0 4 bit add }
    | 2 => { v with aobj := rangeMap v.aobj 16 0 4 bit add }
    | 3 => { v with texpal := rangeMap v.texpal 8 0 4 bit add }
    | 4 => { v with abgExt := rangeMap v.abgExt 4 0 4 bit add }
    | _ => v

def mapFg (v : VramState) (bank : VramBank) (cnt : UInt8) (add : Bool) : VramState :=
  let bit := bankBit bank
  let ofs := (cnt >>> 3).toNat % 8
  let base := ofs % 2 + ofs / 2 % 2 * 4
  if cnt &&& 0x80 = 0 then v
  else
    match cnt.toNat % 8 with
    | 0 => v.mapLcdc bit add
    | 1 => { v with abg := setMask (setMask v.abg base bit add) (base + 2) bit add }
    | 2 => { v with aobj := setMask (setMask v.aobj base bit add) (base + 2) bit add }
    | 3 => { v with texpal := setMask v.texpal base bit add }
    | 4 =>
        let slot := ofs % 2 * 2
        { v with abgExt := setMask (setMask v.abgExt slot bit add) (slot + 1) bit add }
    | 5 => { v with aobjExt := bitset v.aobjExt bit add }
    | _ => v

/-- Four masks at stride 1 and 4 from `base`, as banks H and I map. -/
def setQuad (map : Nat → UInt16) (base : Nat) (bit : UInt16) (add : Bool) : Nat → UInt16 :=
  setMask (setMask (setMask (setMask map base bit add) (base + 1) bit add) (base + 4) bit add)
    (base + 5) bit add

def mapH (v : VramState) (bank : VramBank) (cnt : UInt8) (add : Bool) : VramState :=
  let bit := bankBit bank
  if cnt &&& 0x80 = 0 then v
  else
    match cnt.toNat % 4 with
    | 0 => v.mapLcdc bit add
    | 1 => { v with bbg := setQuad v.bbg 0 bit add }
    | 2 => { v with bbgExt := rangeMap v.bbgExt 4 0 4 bit add }
    | _ => v

def mapI (v : VramState) (bank : VramBank) (cnt : UInt8) (add : Bool) : VramState :=
  let bit := bankBit bank
  if cnt &&& 0x80 = 0 then v
  else
    match cnt.toNat % 4 with
    | 0 => v.mapLcdc bit add
    | 1 => { v with bbg := setQuad v.bbg 2 bit add }
    | 2 => { v with bobj := rangeMap v.bobj 8 0 8 bit add }
    | _ => { v with bobjExt := bitset v.bobjExt bit add }

def applyMap (v : VramState) (bank : VramBank) (cnt : UInt8) (add : Bool) : VramState :=
  if bank.val < 2 then v.mapAb bank cnt add
  else if bank.val < 4 then v.mapCd bank cnt add
  else if bank.val = 4 then v.mapE bank cnt add
  else if bank.val < 7 then v.mapFg bank cnt add
  else if bank.val = 7 then v.mapH bank cnt add
  else v.mapI bank cnt add

end VramState

/-- The register bits a bank keeps. -/
def sanitize (bank : VramBank) (cnt : UInt8) : UInt8 :=
  if bank.val < 2 then cnt &&& 0x9B
  else if bank.val < 4 then cnt &&& 0x9F
  else if bank.val = 4 then cnt &&& 0x87
  else if bank.val < 7 then cnt &&& 0x9F
  else cnt &&& 0x83

namespace VramState

/-- `nds_vram_map`: the old mapping is taken out, the new one put in. -/
def ndsVramMap (v : VramState) (bank : VramBank) (value : UInt8) : VramState :=
  let next := sanitize bank value
  if next = v.cnt bank then v
  else
    let v := v.applyMap bank (v.cnt bank) false
    let v := { v with cnt := Function.update v.cnt bank next }
    let v := v.applyMap bank next true
    { v with textureGeneration := v.textureGeneration + 1 }

/-! ### Accesses -/

/-- `store(&g_vram[physical], value, width)` with its write marks and page
generations. -/
def storePhysical (v : VramState) (physical : Nat) (value : UInt32) (width : Width) : VramState :=
  let last := min kTotalVram (physical + width.bytes)
  let firstPage := physical >>> execPageShift
  let lastPage := (last - 1) >>> execPageShift
  { v with
    vram := fillRange v.vram physical width.bytes (valueByte value)
    written := fillRange v.written physical (last - physical) fun _ => true
    generation := fun page =>
      if firstPage ≤ page ∧ page ≤ lastPage then bumpGeneration (v.generation page)
      else v.generation page }

def bankWrite (v : VramState) (bank : VramBank) (addr value : UInt32) (width : Width) :
    VramState :=
  v.storePhysical (kBankOffset bank + (addr &&& bankMask bank).toNat) value width

/-- `mask & (1u << bank)` -/
def maskHas (mask : UInt16) (bank : VramBank) : Bool := mask &&& bankBit bank != 0

/-- `mapped_write`: every bank of the mask takes the store. -/
def mappedWrite (v : VramState) (mask : UInt16) (addr value : UInt32) (width : Width) :
    VramState :=
  (List.finRange 9).foldl
    (fun v bank => if maskHas mask bank then v.bankWrite bank addr value width else v) v

/-- Bank and in-bank offset of an LCDC address. -/
def lcdcBank (addr : UInt32) : Option (VramBank × UInt32) :=
  if addr ≥ 0x06800000 ∧ addr < 0x06880000 then
    some (⟨((addr - 0x06800000) >>> 17).toNat % 4, by omega⟩, addr &&& 0x1FFFF)
  else if addr ≥ 0x06880000 ∧ addr < 0x06890000 then some (4, addr &&& 0xFFFF)
  else if addr ≥ 0x06890000 ∧ addr < 0x06894000 then some (5, addr &&& 0x3FFF)
  else if addr ≥ 0x06894000 ∧ addr < 0x06898000 then some (6, addr &&& 0x3FFF)
  else if addr ≥ 0x06898000 ∧ addr < 0x068A0000 then some (7, addr &&& 0x7FFF)
  else if addr ≥ 0x068A0000 ∧ addr < 0x068A4000 then some (8, addr &&& 0x3FFF)
  else none

/-- The mask an ARM9 address selects in the four engine windows; `none` is the
`default` case, the LCDC window. -/
def arm9Mask (v : VramState) (addr : UInt32) : Option UInt16 :=
  let window := addr &&& 0x00E00000
  if window = 0x00000000 then some (v.abg ((addr >>> 14).toNat % 32))
  else if window = 0x00200000 then some (v.bbg ((addr >>> 14).toNat % 8))
  else if window = 0x00400000 then some (v.aobj ((addr >>> 14).toNat % 16))
  else if window = 0x00600000 then some (v.bobj ((addr >>> 14).toNat % 8))
  else none

/-- `g_arm7[(addr >> 17) & 1u]` -/
def arm7Mask (v : VramState) (addr : UInt32) : UInt16 := v.arm7 ((addr >>> 17).toNat % 2)

def arm9VramWrite (v : VramState) (addr value : UInt32) (width : Width) : VramState :=
  match v.arm9Mask addr with
  | some mask => v.mappedWrite mask addr value width
  | none =>
      match lcdcBank addr with
      | some (bank, offset) =>
          if maskHas v.lcdc bank then v.bankWrite bank offset value width else v
      | none => v

/-- `addr &= ~(width - 1u)` -/
def alignAddr (addr : UInt32) : Width → UInt32
  | .byte => addr
  | .half => addr &&& ~~~1
  | .word => addr &&& ~~~3

/-- `nds_video_write` as far as VRAM is concerned. ARM9 byte writes are
ignored. -/
def ndsVideoWrite (v : VramState) (cpu : NdsCpu) (addr value : UInt32) (width : Width) :
    VramState :=
  let addr := alignAddr addr width
  match cpu with
  | .arm7 =>
      if addr &&& 0xFF000000 = 0x06000000 then v.mappedWrite (v.arm7Mask addr) addr value width
      else v
  | .arm9 =>
      if width = .byte then v
      else if addr &&& 0xFF000000 = 0x06000000 then v.arm9VramWrite addr value width
      else v

/-! ### Execution from VRAM -/

/-- `std::countr_zero` of a nonzero mask. -/
def lowestBit (mask : UInt16) : Nat :=
  ((List.range 16).find? fun i => mask &&& ((1 : UInt16) <<< UInt16.ofNat i) != 0).getD 16

def physicalFromSingleMask (mask : UInt16) (addr : UInt32) : Option Nat :=
  if mask = 0 ∨ mask &&& (mask - 1) ≠ 0 then none
  else
    if h : lowestBit mask < 9 then
      let bank : VramBank := ⟨lowestBit mask, h⟩
      let physical := kBankOffset bank + (addr &&& bankMask bank).toNat
      if physical < kTotalVram then some physical else none
    else none

/-- `exec_physical_offset` -/
def execPhysicalOffset (v : VramState) (cpu : NdsCpu) (addr : UInt32) : Option Nat :=
  if addr &&& 0xFF000000 ≠ 0x06000000 then none
  else
    match cpu with
    | .arm7 => physicalFromSingleMask (v.arm7Mask addr) addr
    | .arm9 =>
        match v.arm9Mask addr with
        | some mask => physicalFromSingleMask mask addr
        | none =>
            match lcdcBank addr with
            | some (bank, offset) =>
                if maskHas v.lcdc bank then
                  let physical := kBankOffset bank + offset.toNat
                  if physical < kTotalVram then some physical else none
                else none
            | none => none

/-- `nds_vram_range_has_write_provenance` -/
def rangeHasWriteProvenance (v : VramState) (cpu : NdsCpu) (addr : UInt32) (size : Nat) : Bool :=
  size != 0 && (List.range size).all fun i =>
    (v.execPhysicalOffset cpu (addr + UInt32.ofNat i)).any v.written

/-- `nds_vram_exec_page_generation` -/
def execPageGeneration (v : VramState) (cpu : NdsCpu) (addr : UInt32) : UInt32 :=
  match v.execPhysicalOffset cpu addr with
  | none => 0
  | some physical => v.generation (physical >>> execPageShift)

/-- `nds_vram_live_bytes_equal`; `expected` is the image from this range on. -/
def liveBytesEqual (v : VramState) (cpu : NdsCpu) (addr : UInt32) (expected : Nat → UInt8)
    (size : Nat) : Bool :=
  size != 0 && (List.range size).all fun i =>
    (v.execPhysicalOffset cpu (addr + UInt32.ofNat i)).any fun physical =>
      v.vram physical == expected i

end VramState

end NdsRecomp.Video
