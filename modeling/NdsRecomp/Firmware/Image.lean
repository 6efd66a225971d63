import Mathlib.Tactic

/-!
A byte image with its size, the loads the code takes from one, the firmware
checksum, and the choice between the two copies of the user settings.
-/

namespace NdsRecomp.Firmware

structure Image where
  size : Nat
  byte : Nat → UInt8

namespace Image

def load16 (image : Image) (p : Nat) : UInt16 :=
  (image.byte p).toUInt16 ||| (image.byte (p + 1)).toUInt16 <<< 8

def load32 (image : Image) (p : Nat) : UInt32 :=
  (image.byte p).toUInt32 ||| (image.byte (p + 1)).toUInt32 <<< 8 |||
    (image.byte (p + 2)).toUInt32 <<< 16 ||| (image.byte (p + 3)).toUInt32 <<< 24

def put8 (image : Image) (p : Nat) (value : UInt8) : Image :=
  { image with byte := Function.update image.byte p value }

def put16 (image : Image) (p : Nat) (value : UInt16) : Image :=
  (image.put8 p value.toUInt8).put8 (p + 1) (value >>> 8).toUInt8

@[simp] theorem put8_size (image : Image) (p : Nat) (value : UInt8) :
    (image.put8 p value).size = image.size := rfl

@[simp] theorem put16_size (image : Image) (p : Nat) (value : UInt16) :
    (image.put16 p value).size = image.size := rfl

theorem put8_byte_of_ne (image : Image) {p i : Nat} (value : UInt8) (h : i ≠ p) :
    (image.put8 p value).byte i = image.byte i :=
  Function.update_of_ne h _ _

theorem put16_byte_of_ne (image : Image) {p i : Nat} (value : UInt16) (h : i ≠ p)
    (hnext : i ≠ p + 1) : (image.put16 p value).byte i = image.byte i := by
  unfold put16
  rw [put8_byte_of_ne _ _ hnext, put8_byte_of_ne _ _ h]

/-- The two bytes of a halfword, put together again. -/
theorem bytes_or (value : UInt16) :
    value.toUInt8.toUInt16 ||| (value >>> 8).toUInt8.toUInt16 <<< 8 = value := by
  apply UInt16.eq_of_toBitVec_eq
  have hshift : (8 : UInt16).toBitVec % 16 = 8#16 := rfl
  have height : (8#16).toNat = 8 := rfl
  simp only [UInt16.toBitVec_or, UInt16.toBitVec_shiftLeft, UInt8.toBitVec_toUInt16,
    UInt16.toBitVec_toUInt8, UInt16.toBitVec_shiftRight]
  ext i hi
  simp only [BitVec.getElem_or, BitVec.getElem_setWidth, BitVec.shiftLeft_eq',
    BitVec.ushiftRight_eq', BitVec.getElem_shiftLeft, BitVec.getLsbD_setWidth,
    BitVec.getLsbD_ushiftRight, hshift, height]
  by_cases hlow : i < 8
  · simp [hlow, BitVec.getLsbD_eq_getElem hi]
  · have hindex : 8 + (i - 8) = i := by omega
    simp only [hlow, hindex, BitVec.getLsbD_eq_getElem hi, decide_false, Bool.not_false,
      Bool.true_and, Bool.false_and, Bool.false_or]
    simp
    omega

/-- A stored halfword is loaded back. -/
theorem put16_load16 (image : Image) (p : Nat) (value : UInt16) :
    (image.put16 p value).load16 p = value := by
  have hlow : (image.put16 p value).byte p = value.toUInt8 := by
    unfold put16
    rw [put8_byte_of_ne _ _ (by omega)]
    exact Function.update_self ..
  have hhigh : (image.put16 p value).byte (p + 1) = (value >>> 8).toUInt8 :=
    Function.update_self ..
  unfold load16
  rw [hlow, hhigh]
  exact bytes_or value

theorem load16_congr {image image' : Image} {p : Nat} (h : image'.byte p = image.byte p)
    (hnext : image'.byte (p + 1) = image.byte (p + 1)) : image'.load16 p = image.load16 p := by
  unfold load16
  rw [h, hnext]

end Image

/-! ### The checksum -/

def kPoly : List UInt32 :=
  [0xC0C1, 0xC181, 0xC301, 0xC601, 0xCC01, 0xD801, 0xF001, 0xA001]

def crcBit (start : UInt32) (bit : Nat) : UInt32 :=
  if start &&& 1 ≠ 0 then (start >>> 1) ^^^ (kPoly.getD bit 0 <<< UInt32.ofNat (7 - bit))
  else start >>> 1

/-- `nds_firmware_crc16`, and `crc16` of the direct boot: `len` bytes from `p` on,
in a 32-bit accumulator. -/
def ndsFirmwareCrc16 (image : Image) (p len : Nat) (start : UInt32) : UInt16 :=
  ((List.range len).foldl
    (fun start i => (List.range 8).foldl crcBit (start ^^^ (image.byte (p + i)).toUInt32))
    start).toUInt16

/-- The checksum depends on nothing but the bytes it covers. -/
theorem ndsFirmwareCrc16_congr {image image' : Image} {p len : Nat} (start : UInt32)
    (h : ∀ i, p ≤ i → i < p + len → image'.byte i = image.byte i) :
    ndsFirmwareCrc16 image' p len start = ndsFirmwareCrc16 image p len start := by
  unfold ndsFirmwareCrc16
  congr 1
  apply List.foldl_ext
  intro acc i hi
  rw [h (p + i) (Nat.le_add_right p i) (Nat.add_lt_add_left (List.mem_range.mp hi) p)]

/-! ### The effective user settings -/

def kChecksumOffset : Nat := 0x72

def kChecksumLength : Nat := 0x70

def baseChecksumValid (image : Image) (copy : Nat) : Bool :=
  image.load16 (copy + kChecksumOffset) == ndsFirmwareCrc16 image copy kChecksumLength 0xFFFF

/-- The extended block, where it is in use. -/
def extendedChecksumValid (image : Image) (copy : Nat) : Bool :=
  image.byte (copy + 0x74) != 1 ||
    image.load16 (copy + 0xFE) == ndsFirmwareCrc16 image (copy + 0x74) 0x8A 0xFFFF

def userDataChecksumValid (image : Image) (copy : Nat) : Bool :=
  baseChecksumValid image copy && extendedChecksumValid image copy

/-- The offset of the copy the console uses. -/
def effectiveUserData (image : Image) (copy0 : Nat) : Nat :=
  let copy1 := copy0 + 0x100
  let ok0 := userDataChecksumValid image copy0
  let ok1 := userDataChecksumValid image copy1
  if ok0 && ok1 then
    if image.load16 (copy0 + 0x70) ≥ image.load16 (copy1 + 0x70) then copy0 else copy1
  else if ok1 then copy1
  else copy0

end NdsRecomp.Firmware
