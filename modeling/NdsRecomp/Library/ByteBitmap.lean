import Mathlib.Tactic

/-!
A bitmap kept as bytes, lowest bit first, with the three ways such maps are
filled: one bit at a time, a block of whole bytes, and a range of bits whose
aligned middle is written as bytes. Also the rule for layered fills, where a
later layer overrides an earlier one: the last layer covering a point decides.
-/

namespace NdsRecomp.Library

abbrev ByteBitmap := Nat → UInt8

namespace ByteBitmap

/-- Bit `i & 7` of byte `i >> 3`. -/
def bit (bm : ByteBitmap) (i : Nat) : Bool :=
  (bm (i >>> 3) >>> UInt8.ofNat (i &&& 7)) &&& 1 != 0

def setBit (bm : ByteBitmap) (i : Nat) (value : Bool) : ByteBitmap :=
  let mask : UInt8 := 1 <<< UInt8.ofNat (i &&& 7)
  Function.update bm (i >>> 3)
    (if value then bm (i >>> 3) ||| mask else bm (i >>> 3) &&& ~~~mask)

/-- `memset(bm + first, value ? 0xFF : 0x00, count)` -/
def setBytes (bm : ByteBitmap) (first count : Nat) (value : Bool) : ByteBitmap :=
  fun b => if first ≤ b ∧ b < first + count then (if value then 0xFF else 0x00) else bm b

/-- `for (; first < last; ++first) set(first)` -/
def setRange (bm : ByteBitmap) (first last : Nat) (value : Bool) : ByteBitmap :=
  if first < last then setRange (bm.setBit first value) (first + 1) last value else bm
termination_by last - first

/-- `for (; first < last && (first & 7) != 0; ++first) set(first)`, with the
index the loop stops at. -/
def setUntilAligned (bm : ByteBitmap) (first last : Nat) (value : Bool) :
    ByteBitmap × Nat :=
  if first < last ∧ first &&& 7 ≠ 0 then
    setUntilAligned (bm.setBit first value) (first + 1) last value
  else (bm, first)
termination_by last - first

theorem and_seven (i : Nat) : i &&& 7 = i % 8 := Nat.and_two_pow_sub_one_eq_mod i 3

theorem shiftRight_three (i : Nat) : i >>> 3 = i / 8 := Nat.shiftRight_eq_div_pow i 3

private theorem byte_bit_eq_testBit (b : UInt8) {k : Nat} (hk : k < 8) :
    ((b >>> UInt8.ofNat k) &&& 1 != 0) = b.toNat.testBit k := by
  have hkb : (UInt8.ofNat k).toNat % 8 = k := by
    rw [UInt8.toNat_ofNat']
    omega
  have hvalue : ((b >>> UInt8.ofNat k) &&& 1).toNat = b.toNat / 2 ^ k % 2 := by
    rw [UInt8.toNat_and, UInt8.toNat_shiftRight, hkb, Nat.shiftRight_eq_div_pow]
    exact Nat.and_two_pow_sub_one_eq_mod _ 1
  rw [Nat.testBit_eq_decide_div_mod_eq, Bool.eq_iff_iff]
  simp only [bne_iff_ne, ne_eq, decide_eq_true_eq, ← UInt8.toNat_inj, hvalue]
  simp only [UInt8.toNat_zero]
  omega

theorem bit_eq_testBit (bm : ByteBitmap) (i : Nat) :
    bm.bit i = (bm (i / 8)).toNat.testBit (i % 8) := by
  unfold bit
  rw [and_seven, shiftRight_three]
  exact byte_bit_eq_testBit _ (Nat.mod_lt _ (by decide))

private theorem mask_testBit {k : Nat} (hk : k < 8) (j : Nat) :
    ((1 : UInt8) <<< UInt8.ofNat k).toNat.testBit j = decide (k = j) := by
  have hkb : (UInt8.ofNat k).toNat % 8 = k := by
    rw [UInt8.toNat_ofNat']
    omega
  have hpow : 2 ^ k < 256 := Nat.pow_lt_pow_right (a := 2) (by decide) hk
  rw [UInt8.toNat_shiftLeft, hkb]
  simp only [UInt8.toNat_one, Nat.one_shiftLeft]
  rw [Nat.mod_eq_of_lt (by simpa using hpow)]
  exact Nat.testBit_two_pow

private theorem not_mask_testBit {k : Nat} (hk : k < 8) {j : Nat} (hj : j < 8) :
    (~~~((1 : UInt8) <<< UInt8.ofNat k)).toNat.testBit j = !decide (k = j) := by
  rw [← mask_testBit hk j]
  have h := BitVec.getLsbD_not (x := ((1 : UInt8) <<< UInt8.ofNat k).toBitVec) (i := j)
  simpa [hj, BitVec.getLsbD, ← UInt8.toNat_toBitVec] using h

theorem bit_setBit (bm : ByteBitmap) (i j : Nat) (value : Bool) :
    (bm.setBit i value).bit j = if j = i then value else bm.bit j := by
  have hi : i % 8 < 8 := Nat.mod_lt _ (by decide)
  have hj : j % 8 < 8 := Nat.mod_lt _ (by decide)
  rw [bit_eq_testBit, bit_eq_testBit]
  simp only [setBit, and_seven, shiftRight_three]
  by_cases hbyte : j / 8 = i / 8
  · rw [hbyte, Function.update_self]
    have hsame : j = i ↔ i % 8 = j % 8 := by omega
    cases value with
    | true =>
        simp only [if_true, UInt8.toNat_or, Nat.testBit_or, mask_testBit hi]
        by_cases hbit : i % 8 = j % 8
        · simp [hsame.mpr hbit]
        · simp [hbit, hsame]
    | false =>
        simp only [Bool.false_eq_true, if_false, UInt8.toNat_and, Nat.testBit_and,
          not_mask_testBit hi hj]
        by_cases hbit : i % 8 = j % 8
        · simp [hsame.mpr hbit]
        · simp [hbit, hsame]
  · rw [Function.update_of_ne hbyte, if_neg]
    rintro rfl
    exact hbyte rfl

theorem bit_setBytes (bm : ByteBitmap) (first count i : Nat) (value : Bool) :
    (bm.setBytes first count value).bit i =
      if first * 8 ≤ i ∧ i < (first + count) * 8 then value else bm.bit i := by
  rw [bit_eq_testBit, bit_eq_testBit]
  have hrange : (first ≤ i / 8 ∧ i / 8 < first + count) ↔
      (first * 8 ≤ i ∧ i < (first + count) * 8) := by omega
  by_cases hin : first * 8 ≤ i ∧ i < (first + count) * 8
  · simp only [setBytes, hrange, if_pos hin]
    have hk : i % 8 < 8 := Nat.mod_lt _ (by decide)
    cases value with
    | true =>
        interval_cases i % 8 <;> rfl
    | false => simp
  · simp only [setBytes, hrange, if_neg hin]

theorem bit_setRange (bm : ByteBitmap) (first last i : Nat) (value : Bool) :
    (bm.setRange first last value).bit i =
      if first ≤ i ∧ i < last then value else bm.bit i := by
  fun_induction setRange bm first last value with
  | case1 bm first hlt ih =>
      rw [ih, bit_setBit]
      by_cases hi : i = first
      · subst hi
        simp [hlt]
      · have hsplit : (first + 1 ≤ i ∧ i < last) ↔ (first ≤ i ∧ i < last) := by omega
        simp only [if_neg hi, hsplit]
  | case2 bm first hge =>
      rw [if_neg (by omega)]

theorem setUntilAligned_spec (bm : ByteBitmap) (first last : Nat) (value : Bool) :
    let head := bm.setUntilAligned first last value
    first ≤ head.2 ∧ (head.2 = first ∨ head.2 ≤ last) ∧ (last ≤ head.2 ∨ head.2 % 8 = 0) ∧
      ∀ i, head.1.bit i = if first ≤ i ∧ i < head.2 then value else bm.bit i := by
  fun_induction setUntilAligned bm first last value with
  | case1 bm first h ih =>
      obtain ⟨hle, hstop, halign, hbits⟩ := ih
      refine ⟨by omega, by omega, halign, ?_⟩
      intro i
      rw [hbits, bit_setBit]
      by_cases hi : i = first
      · subst hi
        have : ¬ (i + 1 ≤ i) := by omega
        simp only [this, false_and, if_false, if_true, le_refl, true_and]
        rw [if_pos (by omega)]
      · have hsplit (last' : Nat) : (first + 1 ≤ i ∧ i < last') ↔ (first ≤ i ∧ i < last') := by
          omega
        simp only [if_neg hi, hsplit]
  | case2 bm first h =>
      rw [and_seven] at h
      refine ⟨le_rfl, Or.inl rfl, by omega, ?_⟩
      intro i
      rw [if_neg (by omega)]

/-- Head bits, whole bytes, tail bits: the fill of a half-open bit range. -/
def fill (bm : ByteBitmap) (first last : Nat) (value : Bool) : ByteBitmap :=
  let (bm, first) := bm.setUntilAligned first last value
  let tail := last - last % 8
  if first < tail then
    (bm.setBytes (first >>> 3) ((tail - first) >>> 3) value).setRange tail last value
  else bm.setRange first last value

theorem bit_fill (bm : ByteBitmap) (first last i : Nat) (value : Bool) :
    (bm.fill first last value).bit i =
      if first ≤ i ∧ i < last then value else bm.bit i := by
  obtain ⟨hle, hstop, halign, hbits⟩ := setUntilAligned_spec bm first last value
  unfold fill
  generalize setUntilAligned bm first last value = head at hle hstop halign hbits ⊢
  obtain ⟨headMap, headEnd⟩ := head
  simp only at hle hstop halign hbits ⊢
  by_cases htail : headEnd < last - last % 8
  · have haligned : headEnd % 8 = 0 := by omega
    have hfirstByte : headEnd / 8 * 8 = headEnd := by omega
    have hlastByte : (headEnd / 8 + (last - last % 8 - headEnd) / 8) * 8 =
        last - last % 8 := by omega
    simp only [if_pos htail, shiftRight_three, bit_setRange, bit_setBytes, hfirstByte,
      hlastByte, hbits]
    by_cases hin : first ≤ i ∧ i < last
    · rw [if_pos hin]
      by_cases h1 : last - last % 8 ≤ i
      · rw [if_pos ⟨h1, hin.2⟩]
      · rw [if_neg (by omega)]
        by_cases h2 : headEnd ≤ i
        · rw [if_pos ⟨h2, by omega⟩]
        · rw [if_neg (by omega), if_pos (by omega)]
    · rw [if_neg hin, if_neg (by omega), if_neg (by omega), if_neg (by omega)]
  · simp only [if_neg htail, bit_setRange, hbits]
    by_cases hin : first ≤ i ∧ i < last
    · rw [if_pos hin]
      by_cases h2 : headEnd ≤ i
      · rw [if_pos ⟨h2, hin.2⟩]
      · rw [if_neg (by omega), if_pos (by omega)]
    · rw [if_neg hin, if_neg (by omega), if_neg (by omega)]

end ByteBitmap

end NdsRecomp.Library
