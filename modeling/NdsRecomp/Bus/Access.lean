import NdsRecomp.Bus.Resolve

/-!
Guest accesses. The slow path resolves the address and otherwise hands the
access to a device; the inline path serves the published windows and falls back
to the slow path. Everything outside the directly addressed memories is a
parameter, with state of its own.
-/

namespace NdsRecomp.Bus

/-- The memories, the map and the rest of the machine (`dev`). -/
structure BusState (D : Type*) where
  core : BusCore
  mem : BusMemory
  active : NdsCpu
  deepTrace : Bool
  dev : D

/-- What the bus calls beyond its own memories. `noteCodeWrite` is
`runtime_note_code_write`, which only updates the code guards; `noteLiveWrite`
gets address, width, old value and new value. -/
structure BusDevices (D : Type*) where
  videoRead : BusState D → UInt32 → Width → UInt32 × BusState D
  videoWrite : BusState D → UInt32 → Width → UInt32 → BusState D
  gbaRead : BusState D → UInt32 → Width → UInt32
  wifiRead : BusState D → UInt32 → Width → UInt32 × BusState D
  wifiWrite : BusState D → UInt32 → Width → UInt32 → BusState D
  ioRead : BusState D → UInt32 → Width → UInt32 × BusState D
  ioWrite : BusState D → UInt32 → Width → UInt32 → BusState D
  noteCodeWrite : BusState D → BusState D
  noteCodeWrite_mem : ∀ s, (noteCodeWrite s).mem = s.mem
  noteLiveWrite : BusState D → UInt32 → Width → UInt32 → UInt32 → BusState D

def ndsVideoAddress (addr : UInt32) : Bool :=
  decide (addr ≥ 0x05000000) && decide (addr < 0x08000000)

def gbaSlotAddress (addr : UInt32) : Bool :=
  decide (addr ≥ 0x08000000) && decide (addr < 0x0B000000)

def ndsWifiAddress (cpu : NdsCpu) (addr : UInt32) : Bool :=
  cpu == .arm7 && decide (addr ≥ 0x04800000) && decide (addr < 0x04810000)

def isIo (addr : UInt32) : Bool :=
  decide (addr ≥ 0x04000000) && decide (addr < 0x05000000)

def Width.bytes32 : Width → UInt32
  | .byte => 1
  | .half => 2
  | .word => 4

/-- The value truncated to the access width. -/
def Width.truncate (width : Width) (value : UInt32) : UInt32 :=
  match width with
  | .byte => value &&& 0xFF
  | .half => value &&& 0xFFFF
  | .word => value

/-- The window whose stores are reported to the live overlay. -/
def liveWriteWatched (addr : UInt32) (width : Width) : Bool :=
  match width with
  | .byte => decide (addr ≥ 0x027E0000) && decide (addr < 0x027E0040)
  | _ => decide (addr + width.bytes32 > 0x027E0000) && decide (addr < 0x027E0040)

variable {D : Type*} (devices : BusDevices D)

/-! ### The slow path -/

/-- `note_ram_write`: generations, then the guards, then the write marks. -/
def noteRamWrite (s : BusState D) (p : BackingPtr) (width : Nat) : BusState D :=
  if !p.backing.tracked || width == 0 then s
  else
    let first := p.offset >>> execPageShift
    let last := min ((p.offset + width - 1) >>> execPageShift)
      (p.backing.size / execPageSize - 1)
    let s := { s with mem := s.mem.bumpPages p.backing first last }
    let s := devices.noteCodeWrite s
    { s with mem := s.mem.markWritten p (min p.backing.size (p.offset + width) - p.offset) }

/-- The store both paths make through a pointer before they note the write. -/
def storeThrough (s : BusState D) (p : BackingPtr) (addr : UInt32) (width : Width)
    (value : UInt32) : BusState D :=
  let s :=
    if liveWriteWatched addr width then
      devices.noteLiveWrite s addr width (s.mem.load p width) value
    else s
  { s with mem := s.mem.store p width value }

/-- `bus_write_u{8,16,32}_slow` -/
def busWriteSlow (s : BusState D) (addr : UInt32) (width : Width) (value : UInt32) :
    BusState D :=
  match resolve s.core s.active addr width.bytes with
  | some p => noteRamWrite devices (storeThrough devices s p addr width value) p width.bytes
  | none =>
      if ndsVideoAddress addr then devices.videoWrite s addr width value
      else if gbaSlotAddress addr then s
      else if ndsWifiAddress s.active addr then devices.wifiWrite s addr width value
      else if isIo addr then devices.ioWrite s addr width value
      else s

/-- `bus_read_u{8,16,32}_slow` -/
def busReadSlow (s : BusState D) (addr : UInt32) (width : Width) : UInt32 × BusState D :=
  match resolve s.core s.active addr width.bytes with
  | some p => (s.mem.load p width, s)
  | none =>
      if ndsVideoAddress addr then
        let (v, s) := devices.videoRead s addr width
        (width.truncate v, s)
      else if gbaSlotAddress addr then (width.truncate (devices.gbaRead s addr width), s)
      else if ndsWifiAddress s.active addr then
        let (v, s) := devices.wifiRead s addr width
        (width.truncate v, s)
      else if isIo addr then
        let (v, s) := devices.ioRead s addr width
        (width.truncate v, s)
      else (0, s)

/-! ### The inline path -/

/-- `nds_busf_classify`: a window and the offset into it. -/
def ndsBusfClassify (fast : BusFast) (active : NdsCpu) (addr : UInt32) :
    Option (NdsBusFastWin × UInt32) :=
  if active = .arm9 ∧ addr < fast.itcmLimit then some (fast.itcm, addr &&& fast.itcm.mask)
  else if active = .arm9 ∧ addr - fast.dtcmBase < fast.dtcmLimit then
    some (fast.dtcm, addr - fast.dtcmBase)
  else if addr - 0x02000000 < 0x01000000 then some (fast.main, addr &&& fast.main.mask)
  else if addr - 0x03000000 < 0x00800000 then
    some (fast.wramLo active, addr &&& (fast.wramLo active).mask)
  else if addr - 0x03800000 < 0x00800000 then
    some (fast.wramHi active, addr &&& (fast.wramHi active).mask)
  else none

/-- `nds_busf_note_write`; a window with bytes has both provenance arrays. -/
def ndsBusfNoteWrite (s : BusState D) (w : NdsBusFastWin) (off : UInt32) (width : Width) :
    BusState D :=
  match w.gen, w.written with
  | some gen, some written =>
      let first := (off >>> 12).toNat
      let last := ((off + width.bytes32 - 1) >>> 12).toNat
      let s := { s with
        mem := s.mem.bumpPages gen.backing (gen.offset + first) (gen.offset + last) }
      let s := devices.noteCodeWrite s
      { s with
        mem := s.mem.markWritten ⟨written.backing, written.offset + off.toNat⟩ width.bytes }
  | _, _ => s

/-- The window, offset and byte pointer of an access the inline path serves
itself: the byte access tests only that the window is live, the wider ones also
that they end inside it. -/
def busfServes (fast : BusFast) (active : NdsCpu) (addr : UInt32) (width : Width) :
    Option (NdsBusFastWin × UInt32 × BackingPtr) :=
  match ndsBusfClassify fast active addr with
  | none => none
  | some (w, off) =>
      match w.data with
      | none => none
      | some data =>
          if width = .byte ∨ off + width.bytes32 ≤ w.mask + 1 then
            some (w, off, ⟨data.backing, data.offset + off.toNat⟩)
          else none

/-- `bus_read_u{8,16,32}` -/
def busRead (s : BusState D) (addr : UInt32) (width : Width) : UInt32 × BusState D :=
  if s.deepTrace then busReadSlow devices s addr width
  else
    match busfServes s.core.fast s.active addr width with
    | some (_, _, p) => (s.mem.load p width, s)
    | none => busReadSlow devices s addr width

/-- `bus_write_u{8,16,32}` -/
def busWrite (s : BusState D) (addr : UInt32) (width : Width) (value : UInt32) :
    BusState D :=
  if s.deepTrace then busWriteSlow devices s addr width value
  else
    match busfServes s.core.fast s.active addr width with
    | some (w, off, p) =>
        ndsBusfNoteWrite devices (storeThrough devices s p addr width value) w off width
    | none => busWriteSlow devices s addr width value

end NdsRecomp.Bus
