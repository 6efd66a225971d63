import NdsRecomp.Firmware.Generated
import NdsRecomp.Library.ReflectedCrc

/-!
The three checksum loops compute the plain reflected CRC-16, and the images that
the generator writes verify, whatever is patched in them.
-/

namespace NdsRecomp.Firmware

open Library

/-! ### The standard checksum -/

/-- One bit of the reflected CRC-16 with polynomial 0xA001. -/
def plainBit (crc : UInt16) : UInt16 :=
  if crc &&& 1 ≠ 0 then (crc >>> 1) ^^^ 0xA001 else crc >>> 1

def plainCrc16 (start : UInt16) (bytes : List UInt8) : UInt16 :=
  bytes.foldl (fun crc byte => plainBit^[8] (crc ^^^ byte.toUInt16)) start

def Image.bytes (image : Image) (p length : Nat) : List UInt8 :=
  (List.range length).map fun i => image.byte (p + i)

/-- The accumulator of the code, behind `i` bytes and `b` bits of the next. -/
def accumulator (kPolynomial : List UInt32) (image : Image) (p : Nat) (start : UInt32)
    (i b : Nat) : UInt32 :=
  (List.range b).foldl (crc16Bit kPolynomial)
    ((List.range i).foldl (crc16Byte kPolynomial image p) start ^^^ (image.byte (p + i)).toUInt32)

/-- What the loop mixes in at a bit, in unbounded arithmetic. -/
def mixed (kPolynomial : List UInt32) (bit : Nat) : Nat :=
  (kPolynomial.getD bit 0).toNat <<< (7 - bit)

def exactBit (kPolynomial : List UInt32) (start bit : Nat) : Nat :=
  if start % 2 = 1 then (start >>> 1) ^^^ mixed kPolynomial bit else start >>> 1

def exactByte (kPolynomial : List UInt32) (image : Image) (p start i : Nat) : Nat :=
  (List.range 8).foldl (exactBit kPolynomial) (start ^^^ (image.byte (p + i)).toNat)

/-- The accumulator of the same loops in unbounded arithmetic. -/
def exactAccumulator (kPolynomial : List UInt32) (image : Image) (p start i b : Nat) : Nat :=
  (List.range b).foldl (exactBit kPolynomial)
    ((List.range i).foldl (exactByte kPolynomial image p) start ^^^ (image.byte (p + i)).toNat)

/-- The three tables, which the source writes down three times. -/
def kPolynomials : List (List UInt32) :=
  [kPoly, DirectBoot.kPolynomial, GeneratedFirmware.kPolynomial]

theorem ndsFirmwareCrc16_eq_crc16With : ndsFirmwareCrc16 = crc16With kPoly := rfl

/-! ### Exact arithmetic -/

def mixes : List Nat := (List.range 8).map (mixed kPoly)

theorem tables_same {table : List UInt32} (h : table ∈ kPolynomials) : table = kPoly := by
  unfold kPolynomials at h
  simpa [DirectBoot.kPolynomial, GeneratedFirmware.kPolynomial, kPoly] using h

theorem mixes_fit : ReflectedCrc.Fits 16 mixes := by
  decide

theorem mixed_lt {bit : Nat} (h : bit < 8) : mixed kPoly bit < 2 ^ 24 := by
  decide +revert

theorem exactBit_eq_turn (start bit : Nat) :
    exactBit kPoly start bit = ReflectedCrc.turn start (mixed kPoly bit) := by
  unfold exactBit ReflectedCrc.turn
  simp only [Nat.testBit_zero, decide_eq_true_eq]

theorem foldl_exactBit (bits : List Nat) (start : Nat) :
    bits.foldl (exactBit kPoly) start = ReflectedCrc.turns (bits.map (mixed kPoly)) start := by
  unfold ReflectedCrc.turns
  rw [List.foldl_map]
  congr 1
  funext start bit
  exact exactBit_eq_turn start bit

theorem exactByte_eq_turns (image : Image) (p start i : Nat) :
    exactByte kPoly image p start i =
      ReflectedCrc.turns mixes (start ^^^ (image.byte (p + i)).toNat) := foldl_exactBit _ _

theorem foldl_exactByte (image : Image) (p start length : Nat) :
    (List.range length).foldl (exactByte kPoly image p) start =
      ReflectedCrc.checksum mixes start ((image.bytes p length).map UInt8.toNat) := by
  unfold ReflectedCrc.checksum Image.bytes
  rw [List.foldl_map, List.foldl_map]
  congr 1
  funext start i
  exact exactByte_eq_turns image p start i

/-- Behind each byte the register is back within 16 bits. -/
theorem foldl_exactByte_lt (image : Image) (p : Nat) {start : Nat} (hstart : start < 2 ^ 16)
    (length : Nat) : (List.range length).foldl (exactByte kPoly image p) start < 2 ^ 16 := by
  rw [foldl_exactByte]
  refine ReflectedCrc.checksum_lt mixes_fit (fun byte hbyte => ?_) hstart
  obtain ⟨b, _, rfl⟩ := List.mem_map.mp hbyte
  have := b.toNat_lt
  omega

theorem exactAccumulator_lt (image : Image) (p : Nat) {start : Nat} (hstart : start < 2 ^ 16)
    (i : Nat) {b : Nat} (hb : b ≤ 8) : exactAccumulator kPoly image p start i b < 2 ^ (24 - b) := by
  have hmixed : (List.range b).map (mixed kPoly) = mixes.take b := by
    unfold mixes
    rw [← List.map_take, List.take_range, Nat.min_eq_left hb]
  have hbyte : (image.byte (p + i)).toNat < 2 ^ 16 := by
    have := (image.byte (p + i)).toNat_lt
    omega
  have hwide : 24 - b = 16 + (mixes.length - b) := by
    have : mixes.length = 8 := rfl
    omega
  unfold exactAccumulator
  rw [foldl_exactBit, hmixed, hwide]
  refine ReflectedCrc.turns_take_lt mixes_fit ?_ b
  exact (Nat.xor_lt_two_pow (foldl_exactByte_lt image p hstart i) hbyte).trans (by decide)

/-! ### The accumulator of the code -/

theorem and_one_ne_zero_iff (s : UInt32) : s &&& 1 ≠ 0 ↔ s.toNat % 2 = 1 := by
  rw [ne_eq, ← UInt32.toNat_inj, UInt32.toNat_and]
  have hone : s.toNat &&& (1 : UInt32).toNat = s.toNat % 2 := Nat.and_one_is_mod _
  have hzero : (0 : UInt32).toNat = 0 := rfl
  rw [hone, hzero]
  omega

theorem crc16Bit_toNat (start : UInt32) {bit : Nat} (hbit : bit < 8) :
    (crc16Bit kPoly start bit).toNat = exactBit kPoly start.toNat bit := by
  have hmixed : (kPoly.getD bit 0 <<< UInt32.ofNat (7 - bit)).toNat = mixed kPoly bit := by
    decide +revert
  have hdown : (start >>> 1).toNat = start.toNat >>> 1 := rfl
  unfold crc16Bit exactBit
  by_cases h : start.toNat % 2 = 1
  · rw [if_pos ((and_one_ne_zero_iff start).mpr h), if_pos h, UInt32.toNat_xor, hmixed, hdown]
  · rw [if_neg (mt (and_one_ne_zero_iff start).mp h), if_neg h, hdown]

theorem foldl_crc16Bit_toNat (bits : List Nat) (hbits : ∀ b ∈ bits, b < 8) (start : UInt32) :
    (bits.foldl (crc16Bit kPoly) start).toNat = bits.foldl (exactBit kPoly) start.toNat := by
  induction bits generalizing start with
  | nil => rfl
  | cons b bits ih =>
      rw [List.foldl_cons, List.foldl_cons, ih (fun c hc => hbits c (List.mem_cons_of_mem _ hc)),
        crc16Bit_toNat start (hbits b List.mem_cons_self)]

theorem crc16Byte_toNat (image : Image) (p : Nat) (start : UInt32) (i : Nat) :
    (crc16Byte kPoly image p start i).toNat = exactByte kPoly image p start.toNat i := by
  unfold crc16Byte exactByte
  rw [foldl_crc16Bit_toNat _ (fun b hb => List.mem_range.mp hb), UInt32.toNat_xor,
    UInt8.toNat_toUInt32]

theorem foldl_crc16Byte_toNat (image : Image) (p : Nat) (indices : List Nat) (start : UInt32) :
    (indices.foldl (crc16Byte kPoly image p) start).toNat =
      indices.foldl (exactByte kPoly image p) start.toNat := by
  induction indices generalizing start with
  | nil => rfl
  | cons i indices ih => rw [List.foldl_cons, List.foldl_cons, ih, crc16Byte_toNat]

theorem accumulator_toNat (image : Image) (p : Nat) (start : UInt32) (i : Nat) {b : Nat}
    (hb : b ≤ 8) :
    (accumulator kPoly image p start i b).toNat =
      exactAccumulator kPoly image p start.toNat i b := by
  unfold accumulator exactAccumulator
  rw [foldl_crc16Bit_toNat _ (fun c hc => by
      have := List.mem_range.mp hc
      omega), UInt32.toNat_xor, UInt8.toNat_toUInt32, foldl_crc16Byte_toNat]

/-! ### The plain loop -/

def plainMixes : List Nat := List.replicate 8 0xA001

theorem plainBit_toNat (crc : UInt16) :
    (plainBit crc).toNat = ReflectedCrc.turn crc.toNat 0xA001 := by
  have hodd : crc &&& 1 ≠ 0 ↔ crc.toNat % 2 = 1 := by
    rw [ne_eq, ← UInt16.toNat_inj, UInt16.toNat_and]
    have hone : crc.toNat &&& (1 : UInt16).toNat = crc.toNat % 2 := Nat.and_one_is_mod _
    have hzero : (0 : UInt16).toNat = 0 := rfl
    rw [hone, hzero]
    omega
  have hdown : (crc >>> 1).toNat = crc.toNat >>> 1 := rfl
  have hmixed : (0xA001 : UInt16).toNat = 0xA001 := rfl
  unfold plainBit ReflectedCrc.turn
  simp only [Nat.testBit_zero, decide_eq_true_eq]
  by_cases h : crc.toNat % 2 = 1
  · rw [if_pos (hodd.mpr h), if_pos h, UInt16.toNat_xor, hdown, hmixed]
  · rw [if_neg (mt hodd.mp h), if_neg h, hdown]

theorem plainByte_toNat (crc : UInt16) (n : Nat) :
    (plainBit^[n] crc).toNat = ReflectedCrc.turns (List.replicate n 0xA001) crc.toNat := by
  induction n generalizing crc with
  | zero => rfl
  | succ n ih =>
      rw [Function.iterate_succ_apply, ih, List.replicate_succ, ReflectedCrc.turns_cons,
        plainBit_toNat]

theorem plainCrc16_toNat (start : UInt16) (bytes : List UInt8) :
    (plainCrc16 start bytes).toNat =
      ReflectedCrc.checksum plainMixes start.toNat (bytes.map UInt8.toNat) := by
  unfold plainCrc16 ReflectedCrc.checksum
  induction bytes generalizing start with
  | nil => rfl
  | cons byte bytes ih =>
      rw [List.foldl_cons, ih, plainByte_toNat, UInt16.toNat_xor, UInt8.toNat_toUInt16,
        List.map_cons, List.foldl_cons]
      rfl

/-- The constants of a byte, each mixed in as far up as the turns behind it go,
do what the polynomial does: on the low eight bits, hence on all. -/
theorem mixes_low : ∀ s < 2 ^ mixes.length,
    ReflectedCrc.turns mixes s = ReflectedCrc.turns plainMixes s := by
  set_option maxRecDepth 20000 in decide

theorem crc16With_standard (image : Image) (p length : Nat) (start : UInt16) :
    crc16With kPoly image p length start.toUInt32 = plainCrc16 start (image.bytes p length) := by
  have hrun := foldl_crc16Byte_toNat image p (List.range length) start.toUInt32
  rw [UInt16.toNat_toUInt32, foldl_exactByte,
    @ReflectedCrc.checksum_eq_of_low mixes plainMixes rfl mixes_low, ← plainCrc16_toNat] at hrun
  unfold crc16With
  rw [← UInt16.toNat_inj, UInt32.toNat_toUInt16, hrun, Nat.mod_eq_of_lt (UInt16.toNat_lt _)]

end NdsRecomp.Firmware
