import NdsRecomp.Video.Vram
import NdsRecomp.Library.OpSystem

/-!
The doors through which video memory is written: guest stores, which go through
the banks the masks name, and display capture, which renders a line, stages its
pixels and later stores them through a pointer into the bank.
-/

namespace NdsRecomp.Video

open Bus Library

namespace VramState

/-! ### Guest stores -/

/-- Where `mapped_write` stores. -/
def mappedStores (mask : UInt16) (addr : UInt32) : List Nat :=
  ((List.finRange 9).filter (maskHas mask)).map fun bank =>
    kBankOffset bank + (addr &&& bankMask bank).toNat

/-- The physical offsets a guest store reaches. -/
def videoStores (v : VramState) (cpu : NdsCpu) (addr : UInt32) (width : Width) : List Nat :=
  let addr := alignAddr addr width
  match cpu with
  | .arm7 => if addr &&& 0xFF000000 = 0x06000000 then mappedStores (v.arm7Mask addr) addr else []
  | .arm9 =>
      if width = .byte then []
      else if addr &&& 0xFF000000 = 0x06000000 then
        match v.arm9Mask addr with
        | some mask => mappedStores mask addr
        | none =>
            match lcdcBank addr with
            | some (bank, offset) =>
                if maskHas v.lcdc bank then [kBankOffset bank + (offset &&& bankMask bank).toNat]
                else []
            | none => []
      else []

def storeAll (v : VramState) (stores : List Nat) (value : UInt32) (width : Width) : VramState :=
  stores.foldl (fun v physical => v.storePhysical physical value width) v

theorem mappedWrite_eq_storeAll (v : VramState) (mask : UInt16) (addr value : UInt32)
    (width : Width) :
    v.mappedWrite mask addr value width = v.storeAll (mappedStores mask addr) value width := by
  unfold mappedWrite storeAll mappedStores
  rw [List.foldl_map, List.foldl_filter]
  rfl

/-- A guest store is the stores at those offsets, one after the other. -/
theorem ndsVideoWrite_eq_storeAll (v : VramState) (cpu : NdsCpu) (addr value : UInt32)
    (width : Width) :
    v.ndsVideoWrite cpu addr value width =
      v.storeAll (v.videoStores cpu addr width) value width := by
  unfold ndsVideoWrite videoStores
  cases cpu with
  | arm7 =>
      dsimp only
      split
      · exact mappedWrite_eq_storeAll _ _ _ _ _
      · rfl
  | arm9 =>
      dsimp only
      split
      · rfl
      split
      · unfold arm9VramWrite
        cases v.arm9Mask (alignAddr addr width) with
        | some mask => exact mappedWrite_eq_storeAll _ _ _ _ _
        | none =>
            cases lcdcBank (alignAddr addr width) with
            | none => rfl
            | some place =>
                dsimp only
                split <;> rfl
      · rfl

end VramState

/-! ### Display capture -/

/-- What a line job holds of its capture: the pixels are empty when nothing is
captured. -/
structure StagedCapture where
  dstbank : VramBank
  dstaddr : UInt32
  pixels : List UInt16

/-- `kCapW` -/
def captureWidth (capture : UInt32) : Nat := if (capture >>> 20) &&& 3 = 0 then 128 else 256

/-- The bank of the capture field. -/
def captureBank (capture : UInt32) : VramBank :=
  ⟨((capture >>> 16) &&& 3).toNat % 4, by omega⟩

/-- `stage_capture`; the colours come from the renderer. -/
def stageCapture (v : VramState) (capture line : UInt32) (colours : Fin 256 → UInt16) :
    StagedCapture where
  dstbank := captureBank capture
  dstaddr := ((((capture >>> 18) &&& 3) <<< 14) + line * UInt32.ofNat (captureWidth capture)) &&&
    0xFFFF
  pixels :=
    if VramState.maskHas v.lcdc (captureBank capture) then
      (List.ofFn colours).take (captureWidth capture)
    else []

/-- `dstp[dstaddr] = capture_pixels[i]; dstaddr = (dstaddr + 1) & 0xFFFF` for
every pixel. -/
def storePixels (bank : VramBank) : UInt32 → List UInt16 → (Nat → UInt8) → Nat → UInt8
  | _, [], bytes => bytes
  | dst, pixel :: rest, bytes =>
      storePixels bank ((dst + 1) &&& 0xFFFF) rest
        (fillRange bytes (kBankOffset bank + 2 * dst.toNat) 2 (valueByte pixel.toUInt32))

/-- The first byte of each pixel. -/
def pixelOffsets (bank : VramBank) : UInt32 → List UInt16 → List Nat
  | _, [] => []
  | dst, _ :: rest => (kBankOffset bank + 2 * dst.toNat) :: pixelOffsets bank ((dst + 1) &&& 0xFFFF) rest

/-- `apply_staged_capture`, with `nds_vram_note_capture_write`. -/
def applyStagedCapture (v : VramState) (capture : StagedCapture) : VramState :=
  if capture.pixels = [] then v
  else
    { v with
      vram := storePixels capture.dstbank capture.dstaddr capture.pixels v.vram
      textureGeneration := v.textureGeneration + 1 }

/-- Some store of the list covers the byte. -/
def covers (stores : List Nat) (len p : Nat) : Bool :=
  stores.any fun physical => decide (physical ≤ p) && decide (p < physical + len)

/-! ### Video memory under the guest and its hardware -/

/-- Video memory, the captured lines that wait to be applied, and a record of
the bytes the guest or its hardware has stored. -/
structure HardwareVram where
  vram : VramState
  staged : List StagedCapture := []
  produced : Nat → Bool := fun _ => false

inductive HardwareOp where
  | write (cpu : NdsCpu) (addr value : UInt32) (width : Width)
  | map (bank : VramBank) (value : UInt8)
  | stage (capture line : UInt32) (colours : Fin 256 → UInt16)
  | apply

namespace HardwareVram

def write (s : HardwareVram) (cpu : NdsCpu) (addr value : UInt32) (width : Width) :
    HardwareVram :=
  { s with
    vram := s.vram.ndsVideoWrite cpu addr value width
    produced := fun p => s.produced p || covers (s.vram.videoStores cpu addr width) width.bytes p }

/-- The oldest staged line is stored. -/
def apply (s : HardwareVram) : HardwareVram :=
  match s.staged with
  | [] => s
  | capture :: rest =>
      { vram := applyStagedCapture s.vram capture
        staged := rest
        produced := fun p => s.produced p ||
          covers (pixelOffsets capture.dstbank capture.dstaddr capture.pixels) 2 p }

def next (s : HardwareVram) : HardwareOp → HardwareVram
  | .write cpu addr value width => s.write cpu addr value width
  | .map bank value => { s with vram := s.vram.ndsVramMap bank value }
  | .stage capture line colours =>
      { s with staged := s.staged ++ [stageCapture s.vram capture line colours] }
  | .apply => s.apply

end HardwareVram

end NdsRecomp.Video
