import NdsRecomp.Firmware.PatchedSettings

/-!
`nds_generate_firmware`: an image of 128 KB with the calibration defaults, three
access points and two copies of the user settings. Each of the three files that
needs the checksum writes it out for itself.
-/

namespace NdsRecomp.Firmware

/-- The checksum loop over a table of constants. -/
def crc16Bit (kPolynomial : List UInt32) (start : UInt32) (bit : Nat) : UInt32 :=
  if start &&& 1 ≠ 0 then (start >>> 1) ^^^ (kPolynomial.getD bit 0 <<< UInt32.ofNat (7 - bit))
  else start >>> 1

def crc16Byte (kPolynomial : List UInt32) (image : Image) (p : Nat) (start : UInt32)
    (i : Nat) : UInt32 :=
  (List.range 8).foldl (crc16Bit kPolynomial) (start ^^^ (image.byte (p + i)).toUInt32)

def crc16With (kPolynomial : List UInt32) (image : Image) (p length : Nat)
    (start : UInt32) : UInt16 :=
  ((List.range length).foldl (crc16Byte kPolynomial image p) start).toUInt16

namespace DirectBoot

def kPolynomial : List UInt32 :=
  [0xC0C1, 0xC181, 0xC301, 0xC601, 0xCC01, 0xD801, 0xF001, 0xA001]

def crc16 (image : Image) (p length : Nat) (start : UInt32) : UInt16 :=
  crc16With kPolynomial image p length start

/-- `user_data_checksum_valid`. -/
def userDataChecksumValid (image : Image) (copy : Nat) : Bool :=
  let baseOk := image.load16 (copy + 0x72) == crc16 image copy 0x70 0xFFFF
  let extendedOk := image.byte (copy + 0x74) != 1 ||
    image.load16 (copy + 0xFE) == crc16 image (copy + 0x74) 0x8A 0xFFFF
  baseOk && extendedOk

end DirectBoot

namespace Image

/-- `memset`. -/
def fill (image : Image) (p length : Nat) (value : UInt8) : Image :=
  { image with byte := fun i => if p ≤ i ∧ i < p + length then value else image.byte i }

/-- `memcpy`. -/
def putBytes (image : Image) (p : Nat) (bytes : List UInt8) : Image :=
  { image with
    byte := fun i => if p ≤ i ∧ i < p + bytes.length then bytes.getD (i - p) 0 else image.byte i }

theorem fill_byte_of_not (image : Image) {p length i : Nat} (value : UInt8)
    (h : i < p ∨ p + length ≤ i) : (image.fill p length value).byte i = image.byte i :=
  if_neg (by omega)

theorem fill_byte (image : Image) {p length i : Nat} (value : UInt8) (hlow : p ≤ i)
    (hhigh : i < p + length) : (image.fill p length value).byte i = value :=
  if_pos ⟨hlow, hhigh⟩

theorem putBytes_byte_of_not (image : Image) {p i : Nat} (bytes : List UInt8)
    (h : i < p ∨ p + bytes.length ≤ i) : (image.putBytes p bytes).byte i = image.byte i :=
  if_neg (by omega)

end Image

namespace GeneratedFirmware

def kPolynomial : List UInt32 :=
  [0xC0C1, 0xC181, 0xC301, 0xC601, 0xCC01, 0xD801, 0xF001, 0xA001]

def crc16 (image : Image) (p length : Nat) (start : UInt32) : UInt16 :=
  crc16With kPolynomial image p length start

def kNdsGeneratedFirmwareSize : Nat := 0x20000

def kBbInit : List UInt8 :=
  [0x03, 0x17, 0x40, 0x00, 0x1B, 0x6C, 0x48, 0x80, 0x38, 0x00, 0x35, 0x07,
    0x00, 0x00, 0x00, 0x00, 0x00, 0x00, 0x00, 0x00, 0xB0, 0x00, 0x00, 0x00,
    0x00, 0x00, 0x00, 0xC7, 0xBB, 0x01, 0x24, 0x7F, 0x5A, 0x01, 0x3F, 0x01,
    0x3F, 0x36, 0x1D, 0x00, 0x78, 0x35, 0x55, 0x12, 0x34, 0x1C, 0x00, 0x01,
    0x0E, 0x38, 0x03, 0x70, 0xC5, 0x2A, 0x0A, 0x08, 0x04, 0x01, 0x00, 0x00,
    0x00, 0xFF, 0xFF, 0xFE, 0xFE, 0xFE, 0xFE, 0xFC, 0xFC, 0xFA, 0xFA, 0xFA,
    0xFA, 0xFA, 0xF8, 0xF8, 0xF6, 0x00, 0x12, 0x14, 0x12, 0x41, 0x23, 0x03,
    0x04, 0x70, 0x35, 0x0E, 0x2C, 0x2C, 0x00, 0x00, 0x00, 0x00, 0x00, 0x00,
    0x00, 0x00, 0x00, 0x0E, 0x00, 0x00, 0x12, 0x28, 0x1C]

def kRfInit : List UInt8 :=
  [0x31, 0x4C, 0x4F, 0x21, 0x00, 0x10, 0xB0, 0x08, 0xFA, 0x15, 0x26, 0xE6,
    0xC1, 0x01, 0x0E, 0x50, 0x05, 0x00, 0x6D, 0x12, 0x00, 0x00, 0x01, 0xFF,
    0x0E, 0x00, 0x02, 0x00, 0x00, 0x00, 0x00, 0x06, 0x06, 0x00, 0x00, 0x00,
    0x18, 0x00, 0x02, 0x00, 0x00]

def kChanData : List UInt8 :=
  [0x1E, 0x0C, 0x0C, 0x0C, 0x0C, 0x0C, 0x0C, 0x0E, 0x0E, 0x0E, 0x0E, 0x0E,
    0x0E, 0x0E, 0x16, 0x26, 0x1C, 0x1C, 0x1C, 0x1D, 0x1D, 0x1D, 0x1E, 0x1E,
    0x1E, 0x1E, 0x1F, 0x1E, 0x1F, 0x18, 0x01, 0x4B, 0x4B, 0x4B, 0x4B, 0x4C,
    0x4C, 0x4C, 0x4C, 0x4C, 0x4C, 0x4C, 0x4D, 0x4D, 0x4D, 0x02, 0x6C, 0x71,
    0x76, 0x5B, 0x40, 0x45, 0x4A, 0x2F, 0x34, 0x39, 0x3E, 0x03, 0x08, 0x14]

def kInitialValues : List UInt16 :=
  [0x0002, 0x0017, 0x0026, 0x1818, 0x0048, 0x4840, 0x0058, 0x0042,
    0x0146, 0x8064, 0xE6E6, 0x2443, 0x000E, 0x0001, 0x0001, 0x0402]

/-- `MELN`. -/
def kIdentifier : List UInt8 := [0x4D, 0x45, 0x4C, 0x4E]

def kUnused3 : List UInt8 := [0xFF, 0xFF, 0xFF, 0xFF, 0xFF, 0]

/-- `ndsrecomp`, as the name of the console and of its access point. -/
def kName : List UInt8 := [0x6E, 0x64, 0x73, 0x72, 0x65, 0x63, 0x6F, 0x6D, 0x70]

def kNameLength : Nat := 9

/-- A copy of the user settings without its checksum. -/
def userData (fw : Image) (u : Nat) : Image :=
  let fw := fw.fill u 0x100 0
  let fw := fw.put16 (u + 0x00) 5
  let fw := fw.put8 (u + 0x03) 1
  let fw := fw.put8 (u + 0x04) 1
  let fw := (List.range kNameLength).foldl
    (fun fw i => fw.put16 (u + 0x06 + i * 2) (kName.getD i 0).toUInt16) fw
  let fw := fw.put16 (u + 0x1A) (UInt16.ofNat kNameLength)
  let fw := fw.put16 (u + 0x58) 0
  let fw := fw.put16 (u + 0x5A) 0
  let fw := fw.put8 (u + 0x5C) 0
  let fw := fw.put8 (u + 0x5D) 0
  let fw := fw.put16 (u + 0x5E) ((255 : UInt16) <<< 4)
  let fw := fw.put16 (u + 0x60) ((191 : UInt16) <<< 4)
  let fw := fw.put8 (u + 0x62) 255
  let fw := fw.put8 (u + 0x63) 191
  fw.put16 (u + 0x64) ((0x01 : UInt16) ||| (3 : UInt16) <<< 4)

def writeUserData (fw : Image) (u : Nat) : Image :=
  let fw := userData fw u
  fw.put16 (u + 0x72) (crc16 fw u 0x70 0xFFFF)

def writeAccessPoint (fw : Image) (ap : Nat) (configured : Bool) : Image :=
  let fw := fw.fill ap 0x100 0
  let fw := if configured then (fw.putBytes (ap + 0x40) kName).put8 (ap + 0xE7) 0x00
    else fw.put8 (ap + 0xE7) 0xFF
  let fw := fw.put8 (ap + 0xEF) 0x01
  fw.put16 (ap + 0xFE) (crc16 fw ap 0xFE 0x0000)

def userOffset : Nat := 0x7FE00 &&& (kNdsGeneratedFirmwareSize - 1)

/-- The header without the checksum of the Wi-Fi configuration. -/
def header (mac : Vector UInt8 6) : Image :=
  let fw : Image := ⟨kNdsGeneratedFirmwareSize, fun _ => 0xFF⟩
  let fw := fw.fill 0 0x200 0
  let fw := fw.putBytes 0x08 kIdentifier
  let fw := fw.put8 0x1D 0x20
  let fw := fw.put16 0x20 (UInt16.ofNat (userOffset >>> 3))
  let fw := fw.put16 0x2C 0x138
  let fw := fw.put8 0x2F 6
  let fw := fw.putBytes 0x30 kUnused3
  let fw := fw.putBytes 0x36 mac.toList
  let fw := fw.put16 0x3C 0x3FFE
  let fw := fw.put8 0x3E 0xFF
  let fw := fw.put8 0x3F 0xFF
  let fw := fw.put8 0x40 0x03
  let fw := fw.put8 0x41 0x94
  let fw := fw.put8 0x42 0x29
  let fw := fw.put8 0x43 0x02
  let fw := (List.range 16).foldl
    (fun fw i => fw.put16 (0x44 + i * 2) (kInitialValues.getD i 0)) fw
  let fw := fw.putBytes 0x64 kBbInit
  let fw := fw.putBytes 0xCE kRfInit
  let fw := fw.put8 0xF7 0x02
  let fw := fw.putBytes 0xF8 kChanData
  fw.fill 0x134 46 0xFF

def ndsGenerateFirmware (mac : Vector UInt8 6) : Image :=
  let fw := header mac
  let fw := fw.put16 0x2A (crc16 fw 0x2C 0x138 0x0000)
  let fw := fw.put8 0x2FF 0x80
  let fw := writeAccessPoint fw (userOffset - 0x400) true
  let fw := writeAccessPoint fw (userOffset - 0x300) false
  let fw := writeAccessPoint fw (userOffset - 0x200) false
  let fw := writeUserData fw userOffset
  writeUserData fw (userOffset + 0x100)

/-! ### What each part writes -/

open Image

/-- The halfwords of a table, at their offsets. -/
theorem table_byte_of_not (table : Nat → UInt16) {p n i : Nat} (h : i < p ∨ p + n * 2 ≤ i)
    (fw : Image) :
    ((List.range n).foldl (fun fw k => fw.put16 (p + k * 2) (table k)) fw).byte i = fw.byte i := by
  have hdiffers : Differs fw
      ((List.range n).foldl (fun fw k => fw.put16 (p + k * 2) (table k)) fw)
      fun i => p ≤ i ∧ i < p + n * 2 :=
    differs_foldl _ (fun k hk fw => by
      have hk := List.mem_range.mp hk
      exact differs_put16 fw _ ⟨by omega, by omega⟩ ⟨by omega, by omega⟩) fw
  exact hdiffers.same i (by omega)

theorem userData_byte_of_not (fw : Image) {u i : Nat} (h : i < u ∨ u + 0x100 ≤ i) :
    (userData fw u).byte i = fw.byte i := by
  unfold userData kNameLength
  simp (disch := omega) only [put16_byte_of_ne, put8_byte_of_ne, table_byte_of_not,
    fill_byte_of_not]

/-- Behind the settings a copy is zero. -/
theorem userData_byte_tail (fw : Image) {u f : Nat} (hlow : 0x66 ≤ f) (hhigh : f < 0x100) :
    (userData fw u).byte (u + f) = 0 := by
  unfold userData kNameLength
  simp (disch := omega) only [put16_byte_of_ne, put8_byte_of_ne, table_byte_of_not, fill_byte]

theorem writeUserData_byte_of_not (fw : Image) {u i : Nat} (h : i < u ∨ u + 0x100 ≤ i) :
    (writeUserData fw u).byte i = fw.byte i := by
  unfold writeUserData
  dsimp only
  rw [put16_byte_of_ne _ _ (by omega) (by omega), userData_byte_of_not fw h]

theorem writeAccessPoint_byte_of_not (fw : Image) (configured : Bool) {ap i : Nat}
    (h : i < ap ∨ ap + 0x100 ≤ i) : (writeAccessPoint fw ap configured).byte i = fw.byte i := by
  have hname : kName.length = 9 := rfl
  unfold writeAccessPoint
  cases configured with
  | false =>
      simp (disch := omega) only [put16_byte_of_ne, put8_byte_of_ne, fill_byte_of_not,
        Bool.false_eq_true, if_false]
  | true =>
      simp (disch := omega) only [put16_byte_of_ne, put8_byte_of_ne, putBytes_byte_of_not,
        fill_byte_of_not, if_true]

end GeneratedFirmware

end NdsRecomp.Firmware
