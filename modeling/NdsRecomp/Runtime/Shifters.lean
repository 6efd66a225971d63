import Mathlib.Tactic.Ring
import NdsRecomp.Runtime.AluFlags

/-!
The shift helpers of generated code, and the recompiler's own copy of them and of
the flag helpers. A C++ shift by 32 or more is undefined, so each helper branches
before it; a shift of the unbounded value has no such case, and says what every
branch has to return.
-/

namespace NdsRecomp.Runtime

/-- `(g_cpu.cpsr & ~CPSR_C_BIT) | (c ? CPSR_C_BIT : 0u)` -/
def setCarry (cpsr : UInt32) (carry : Prop) [Decidable carry] : UInt32 :=
  (cpsr &&& ~~~cpsrCBit) ||| (if carry then cpsrCBit else 0)

/-! ### The helpers: the shifted value and the CPSR after it -/

def armShiftLsl (cpsr v n : UInt32) (sc : Bool) : UInt32 × UInt32 :=
  if n = 0 then (v, cpsr)
  else if n ≥ 32 then
    (0, if sc then setCarry cpsr ((if n = 32 then v &&& 1 else 0) ≠ 0) else cpsr)
  else
    (v <<< n, if sc then setCarry cpsr ((v >>> (32 - n)) &&& 1 ≠ 0) else cpsr)

def armShiftLsr (cpsr v n : UInt32) (sc : Bool) : UInt32 × UInt32 :=
  if n = 0 then (v, cpsr)
  else if n ≥ 32 then
    (0, if sc then setCarry cpsr ((if n = 32 then (v >>> 31) &&& 1 else 0) ≠ 0) else cpsr)
  else
    (v >>> n, if sc then setCarry cpsr ((v >>> (n - 1)) &&& 1 ≠ 0) else cpsr)

/-- `static_cast<uint32_t>(static_cast<int32_t>(v) >> n)` -/
def signedShiftRight (v n : UInt32) : UInt32 := UInt32.ofBitVec (v.toBitVec.sshiftRight n.toNat)

def armShiftAsr (cpsr v n : UInt32) (sc : Bool) : UInt32 × UInt32 :=
  if n = 0 then (v, cpsr)
  else if n ≥ 32 then
    let c := (v >>> 31) &&& 1
    (if c ≠ 0 then 0xFFFFFFFF else 0, if sc then setCarry cpsr (c ≠ 0) else cpsr)
  else
    (signedShiftRight v n, if sc then setCarry cpsr ((v >>> (n - 1)) &&& 1 ≠ 0) else cpsr)

def armShiftRor (cpsr v n : UInt32) (sc : Bool) : UInt32 × UInt32 :=
  if n = 0 then (v, cpsr)
  else
    let n := n &&& 31
    if n = 0 then (v, if sc then setCarry cpsr (v &&& 0x80000000 ≠ 0) else cpsr)
    else
      let r := (v >>> n) ||| (v <<< (32 - n))
      (r, if sc then setCarry cpsr (r &&& 0x80000000 ≠ 0) else cpsr)

/-! ### The recompiler's copy -/

namespace Reference

def armShiftLsl (cpsr v n : UInt32) (setCarryFlag : Bool) : UInt32 × UInt32 :=
  if n = 0 then (v, cpsr)
  else if n ≥ 32 then
    if setCarryFlag then
      let carry := if n = 32 then v &&& 1 else 0
      (0, setCarry cpsr (carry ≠ 0))
    else (0, cpsr)
  else if setCarryFlag then
    let carry := (v >>> (32 - n)) &&& 1
    (v <<< n, setCarry cpsr (carry ≠ 0))
  else (v <<< n, cpsr)

def armShiftLsr (cpsr v n : UInt32) (setCarryFlag : Bool) : UInt32 × UInt32 :=
  if n = 0 then (v, cpsr)
  else if n ≥ 32 then
    if setCarryFlag then
      let carry := if n = 32 then (v >>> 31) &&& 1 else 0
      (0, setCarry cpsr (carry ≠ 0))
    else (0, cpsr)
  else if setCarryFlag then
    let carry := (v >>> (n - 1)) &&& 1
    (v >>> n, setCarry cpsr (carry ≠ 0))
  else (v >>> n, cpsr)

def armShiftAsr (cpsr v n : UInt32) (setCarryFlag : Bool) : UInt32 × UInt32 :=
  if n = 0 then (v, cpsr)
  else if n ≥ 32 then
    let carry := (v >>> 31) &&& 1
    let cpsr := if setCarryFlag then setCarry cpsr (carry ≠ 0) else cpsr
    (if carry ≠ 0 then 0xFFFFFFFF else 0, cpsr)
  else if setCarryFlag then
    let carry := (v >>> (n - 1)) &&& 1
    (signedShiftRight v n, setCarry cpsr (carry ≠ 0))
  else (signedShiftRight v n, cpsr)

def armShiftRor (cpsr v n : UInt32) (setCarryFlag : Bool) : UInt32 × UInt32 :=
  if n = 0 then (v, cpsr)
  else
    let n := n &&& 31
    if n = 0 then
      if setCarryFlag then (v, setCarry cpsr (v &&& 0x80000000 ≠ 0)) else (v, cpsr)
    else
      let r := (v >>> n) ||| (v <<< (32 - n))
      if setCarryFlag then (r, setCarry cpsr (r &&& 0x80000000 ≠ 0)) else (r, cpsr)

def armSetNzcvAdd (cpsr a b r : UInt32) : UInt32 :=
  let c := clearNzcv cpsr
  let c := setIf (r &&& 0x80000000 ≠ 0) cpsrNBit c
  let c := setIf (r = 0) cpsrZBit c
  -- unsigned overflow
  let c := setIf (r < a) cpsrCBit c
  -- same-sign inputs, different-sign result
  setIf (~~~(a ^^^ b) &&& (a ^^^ r) &&& 0x80000000 ≠ 0) cpsrVBit c

def armSetNzcvAdc (cpsr a b cIn r : UInt32) : UInt32 :=
  let c := clearNzcv cpsr
  let c := setIf (r &&& 0x80000000 ≠ 0) cpsrNBit c
  let c := setIf (r = 0) cpsrZBit c
  let wide := a.toUInt64 + b.toUInt64 + cIn.toUInt64
  let c := setIf (wide >>> 32 ≠ 0) cpsrCBit c
  setIf (~~~(a ^^^ b) &&& (a ^^^ r) &&& 0x80000000 ≠ 0) cpsrVBit c

def armSetNzcvSub (cpsr a b r : UInt32) : UInt32 :=
  let c := clearNzcv cpsr
  let c := setIf (r &&& 0x80000000 ≠ 0) cpsrNBit c
  let c := setIf (r = 0) cpsrZBit c
  -- not borrow
  let c := setIf (a ≥ b) cpsrCBit c
  setIf ((a ^^^ b) &&& (a ^^^ r) &&& 0x80000000 ≠ 0) cpsrVBit c

def armSetNzcvSbc (cpsr a b cIn r : UInt32) : UInt32 :=
  let c := clearNzcv cpsr
  let c := setIf (r &&& 0x80000000 ≠ 0) cpsrNBit c
  let c := setIf (r = 0) cpsrZBit c
  -- the 33-bit equivalent is `a + ~b + c_in`
  let wide := a.toUInt64 + (~~~b &&& 0xFFFFFFFF).toUInt64 + cIn.toUInt64
  let c := setIf (wide >>> 32 ≠ 0) cpsrCBit c
  setIf ((a ^^^ b) &&& (a ^^^ r) &&& 0x80000000 ≠ 0) cpsrVBit c

end Reference

/-! ### What a shift is meant to return -/

/-- Bit 29 of `after` is the carry; its other bits are those of `before`. -/
def CarrySet (before after : UInt32) (carry : Prop) : Prop :=
  (wordBit after 29 = true ↔ carry) ∧
    ∀ i < 32, i ≠ 29 → wordBit after i = wordBit before i

/-- A helper's outcome. The amount 0 leaves the carry, as does a call that does
not ask for it. -/
structure ShiftExact (cpsr n : UInt32) (sc : Bool) (out : UInt32 × UInt32) (value : Prop)
    (carry : Prop) : Prop where
  value : value
  kept : n = 0 ∨ sc = false → out.2 = cpsr
  carry : n ≠ 0 → sc = true → CarrySet cpsr out.2 carry

/-- The carry of a left shift is the bit that has just left the word. -/
def lslCarry (v n : Nat) : Prop := v * 2 ^ n / 2 ^ 32 % 2 = 1

def lsrCarry (v n : Nat) : Prop := v / 2 ^ (n - 1) % 2 = 1

def asrCarry (v : Int) (n : Nat) : Prop := v / 2 ^ (n - 1) % 2 = 1

/-- The word rotated right. -/
def rotated (v n : Nat) : Nat := (v / 2 ^ (n % 32) + v * 2 ^ (32 - n % 32)) % 2 ^ 32

/-! ### The carry -/

theorem wordBit_C (i : Nat) : wordBit cpsrCBit i = decide (29 = i) := wordBit_flag 29 i (by omega)

theorem setCarry_spec (cpsr : UInt32) (carry : Prop) [Decidable carry] :
    CarrySet cpsr (setCarry cpsr carry) carry := by
  have hif : ∀ i, wordBit (if carry then cpsrCBit else 0) i = decide (carry ∧ 29 = i) := by
    intro i
    split
    · next h => simp [wordBit_C, h]
    · next h =>
        simp only [h, false_and, decide_false]
        exact Nat.zero_testBit i
  unfold setCarry CarrySet
  constructor
  · rw [wordBit_or, wordBit_and, wordBit_not _ (by omega), wordBit_C, hif]
    simp
  · intro i hi hne
    rw [wordBit_or, wordBit_and, wordBit_not _ hi, wordBit_C, hif]
    simp [Ne.symm hne]

theorem CarrySet.congr {before after : UInt32} {c d : Prop} (h : CarrySet before after c)
    (hiff : c ↔ d) : CarrySet before after d :=
  ⟨h.1.trans hiff, h.2⟩

/-- The three ways out of a helper. -/
theorem shiftExact_of {cpsr n : UInt32} {sc : Bool} {r : UInt32} {c value carry : Prop}
    [Decidable c] (hn : n ≠ 0) (hvalue : value) (hcarry : c ↔ carry) :
    ShiftExact cpsr n sc (r, if sc then setCarry cpsr c else cpsr) value carry := by
  refine ⟨hvalue, ?_, ?_⟩
  · rintro (h | h)
    · exact absurd h hn
    · rw [h]; rfl
  · intro _ hsc
    rw [hsc]
    exact (setCarry_spec cpsr c).congr hcarry

theorem shiftExact_zero {cpsr n : UInt32} {sc : Bool} {v : UInt32} {value carry : Prop}
    (hn : n = 0) (hvalue : value) : ShiftExact cpsr n sc (v, cpsr) value carry :=
  ⟨hvalue, fun _ => rfl, fun h => absurd hn h⟩

/-! ### Words as numbers -/

theorem and_one_ne_zero (x : UInt32) : x &&& 1 ≠ 0 ↔ x.toNat % 2 = 1 := by
  rw [ne_eq, ← UInt32.toNat_inj, UInt32.toNat_and, show (1 : UInt32).toNat = 2 ^ 1 - 1 from rfl,
    Nat.and_two_pow_sub_one_eq_mod, show (0 : UInt32).toNat = 0 from rfl]
  omega

theorem shiftRight_toNat (v : UInt32) {n : UInt32} (hn : n.toNat < 32) :
    (v >>> n).toNat = v.toNat / 2 ^ n.toNat := by
  rw [UInt32.toNat_shiftRight, Nat.mod_eq_of_lt hn, Nat.shiftRight_eq_div_pow]

theorem shiftLeft_toNat (v : UInt32) {n : UInt32} (hn : n.toNat < 32) :
    (v <<< n).toNat = v.toNat * 2 ^ n.toNat % 2 ^ 32 := by
  rw [UInt32.toNat_shiftLeft, Nat.mod_eq_of_lt hn, Nat.shiftLeft_eq]

theorem sub_toNat_of_lt {n : UInt32} (hn : n.toNat < 32) : (32 - n).toNat = 32 - n.toNat := by
  rw [UInt32.toNat_sub, show (32 : UInt32).toNat = 32 from rfl]
  omega

theorem pred_toNat {n : UInt32} (hn : n ≠ 0) : (n - 1).toNat = n.toNat - 1 := by
  have hpos : n.toNat ≠ 0 := fun h => hn (UInt32.toNat_inj.mp h)
  have hlt := n.toNat_lt
  rw [UInt32.toNat_sub, show (1 : UInt32).toNat = 1 from rfl]
  omega

theorem ge_32_iff (n : UInt32) : n ≥ 32 ↔ 32 ≤ n.toNat := UInt32.le_iff_toNat_le

theorem eq_32_iff (n : UInt32) : n = 32 ↔ n.toNat = 32 := UInt32.toNat_inj.symm

/-- A power of two from `2 ^ k` on, split at `k`. -/
theorem two_pow_split {k n : Nat} (h : k ≤ n) : 2 ^ n = 2 ^ (n - k) * 2 ^ k := by
  rw [← Nat.pow_add, Nat.sub_add_cancel h]

theorem signBit_iff (v : UInt32) : (v >>> 31) &&& 1 ≠ 0 ↔ 2 ^ 31 ≤ v.toNat := by
  have hv := v.toNat_lt
  rw [and_one_ne_zero, shiftRight_toNat v (by decide)]
  change v.toNat / 2 ^ 31 % 2 = 1 ↔ _
  omega

/-! ### The four shifts -/

theorem armShiftLsl_exact (cpsr v n : UInt32) (sc : Bool) :
    ShiftExact cpsr n sc (armShiftLsl cpsr v n sc)
      ((armShiftLsl cpsr v n sc).1.toNat = v.toNat * 2 ^ n.toNat % 2 ^ 32)
      (lslCarry v.toNat n.toNat) := by
  have hv := v.toNat_lt
  unfold armShiftLsl lslCarry
  split
  · next hzero =>
      refine shiftExact_zero hzero ?_
      rw [hzero]
      change v.toNat = v.toNat * 2 ^ 0 % 2 ^ 32
      omega
  · next hn =>
      split
      · next hlarge =>
          rw [ge_32_iff] at hlarge
          refine shiftExact_of hn ?_ ?_
          · rw [two_pow_split hlarge, ← Nat.mul_assoc, Nat.mul_mod_left]
            rfl
          · rw [two_pow_split hlarge, ← Nat.mul_assoc, Nat.mul_div_cancel _ (by decide)]
            split
            · next h32 =>
                rw [(eq_32_iff n).mp h32, and_one_ne_zero, Nat.sub_self, Nat.pow_zero, Nat.mul_one]
            · next h32 =>
                -- behind 32 the bit that leaves the word is one of the zeros shifted in
                rw [eq_32_iff] at h32
                rw [two_pow_split (k := 1) (n := n.toNat - 32) (by omega), ← Nat.mul_assoc]
                simp
      · next hsmall =>
          rw [ge_32_iff, Nat.not_le] at hsmall
          have hpos : n.toNat ≠ 0 := fun h => hn (UInt32.toNat_inj.mp h)
          refine shiftExact_of hn (shiftLeft_toNat v hsmall) ?_
          rw [and_one_ne_zero, shiftRight_toNat v (by rw [sub_toNat_of_lt hsmall]; omega),
            sub_toNat_of_lt hsmall, two_pow_split (Nat.le_of_lt hsmall),
            Nat.mul_div_mul_right _ _ (Nat.two_pow_pos _)]

theorem armShiftLsr_exact (cpsr v n : UInt32) (sc : Bool) :
    ShiftExact cpsr n sc (armShiftLsr cpsr v n sc)
      ((armShiftLsr cpsr v n sc).1.toNat = v.toNat / 2 ^ n.toNat) (lsrCarry v.toNat n.toNat) := by
  have hv := v.toNat_lt
  unfold armShiftLsr lsrCarry
  split
  · next hzero =>
      refine shiftExact_zero hzero ?_
      rw [hzero]
      exact (Nat.div_one _).symm
  · next hn =>
      split
      · next hlarge =>
          rw [ge_32_iff] at hlarge
          have hpow : 2 ^ 32 ≤ 2 ^ n.toNat := Nat.pow_le_pow_right (by omega) hlarge
          refine shiftExact_of hn (Nat.div_eq_of_lt (by omega)).symm ?_
          split
          · next h32 =>
              rw [signBit_iff, (eq_32_iff n).mp h32]
              omega
          · next h32 =>
              rw [eq_32_iff] at h32
              have hpow : 2 ^ 32 ≤ 2 ^ (n.toNat - 1) := Nat.pow_le_pow_right (by omega) (by omega)
              rw [Nat.div_eq_of_lt (by omega)]
              simp
      · next hsmall =>
          rw [ge_32_iff, Nat.not_le] at hsmall
          refine shiftExact_of hn (shiftRight_toNat v hsmall) ?_
          rw [and_one_ne_zero, shiftRight_toNat v (by rw [pred_toNat hn]; omega), pred_toNat hn]

theorem signedValue_eq_toInt (v : UInt32) : signedValue v = v.toBitVec.toInt := by
  rw [BitVec.toInt_eq_toNat_cond]
  change signedValue v = if 2 * v.toNat < 2 ^ 32 then (v.toNat : Int) else v.toNat - 2 ^ 32
  unfold signedValue
  split <;> split <;> omega

theorem signedShiftRight_value (v n : UInt32) :
    signedValue (signedShiftRight v n) = signedValue v / 2 ^ n.toNat := by
  rw [signedValue_eq_toInt, signedValue_eq_toInt]
  change (v.toBitVec.sshiftRight n.toNat).toInt = _
  rw [BitVec.toInt_sshiftRight, Int.shiftRight_eq_div_pow]
  norm_cast

/-- A division by `2 ^ 31` or more leaves only the sign. -/
theorem signedValue_div_large (v : UInt32) {k : Nat} (hk : 31 ≤ k) :
    signedValue v / 2 ^ k = if 2 ^ 31 ≤ v.toNat then -1 else 0 := by
  have hv := v.toNat_lt
  have hpow : (2 : Int) ^ 31 ≤ 2 ^ k := by
    exact_mod_cast Nat.pow_le_pow_right (by omega : 0 < 2) hk
  unfold signedValue
  split
  · rw [if_neg (by omega)]
    exact Int.ediv_eq_zero_of_lt (by omega) (by omega)
  · rw [if_pos (by omega)]
    rw [Int.ediv_eq_iff_of_pos (by omega)]
    constructor <;> omega

/-- Below the sign bit, the bits of the signed and the unsigned value agree. -/
theorem signedValue_div_small (v : UInt32) {k : Nat} (hk : k < 31) :
    signedValue v / 2 ^ k % 2 = 1 ↔ v.toNat / 2 ^ k % 2 = 1 := by
  have hcast : ((v.toNat / 2 ^ k % 2 : Nat) : Int) = (v.toNat : Int) / 2 ^ k % 2 := by norm_cast
  unfold signedValue
  split
  · rw [← hcast]
    omega
  · have hsplit : (v.toNat : Int) - 2 ^ 32 = v.toNat + (-2 * 2 ^ (31 - k)) * 2 ^ k := by
      have hpow : (2 : Int) ^ (31 - k) * 2 ^ k = 2 ^ 31 := by
        rw [← pow_add, Nat.sub_add_cancel (by omega)]
      rw [mul_assoc, hpow]
      norm_num
      rfl
    rw [hsplit, Int.add_mul_ediv_right _ _ (pow_ne_zero k (by decide))]
    omega

theorem armShiftAsr_exact (cpsr v n : UInt32) (sc : Bool) :
    ShiftExact cpsr n sc (armShiftAsr cpsr v n sc)
      (signedValue (armShiftAsr cpsr v n sc).1 = signedValue v / 2 ^ n.toNat)
      (asrCarry (signedValue v) n.toNat) := by
  have hv := v.toNat_lt
  unfold armShiftAsr asrCarry
  split
  · next hzero =>
      refine shiftExact_zero hzero ?_
      rw [hzero]
      exact (Int.ediv_one _).symm
  · next hn =>
      split
      · next hlarge =>
          rw [ge_32_iff] at hlarge
          refine shiftExact_of hn ?_ ?_
          · rw [signedValue_div_large v (by omega)]
            simp only [signBit_iff]
            split <;> rfl
          · rw [signBit_iff, signedValue_div_large v (by omega)]
            split
            · next h => exact ⟨fun _ => rfl, fun _ => h⟩
            · next h => exact ⟨fun h' => absurd h' h, fun h' => absurd h' (by decide)⟩
      · next hsmall =>
          rw [ge_32_iff, Nat.not_le] at hsmall
          refine shiftExact_of hn (signedShiftRight_value v n) ?_
          rw [and_one_ne_zero, shiftRight_toNat v (by rw [pred_toNat hn]; omega), pred_toNat hn,
            signedValue_div_small v (by omega)]

/-- The two halves of a rotation share no bit, so the disjunction is their sum. -/
theorem rotate_toNat (v : UInt32) {k : UInt32} (hpos : k ≠ 0) (hk : k.toNat < 32) :
    ((v >>> k) ||| (v <<< (32 - k))).toNat = rotated v.toNat k.toNat := by
  have hv := v.toNat_lt
  have hkpos : k.toNat ≠ 0 := fun h => hpos (UInt32.toNat_inj.mp h)
  have hsplit : 2 ^ 32 = 2 ^ k.toNat * 2 ^ (32 - k.toNat) := by
    rw [← Nat.pow_add, Nat.add_sub_of_le (Nat.le_of_lt hk)]
  have hlow : v.toNat / 2 ^ k.toNat < 2 ^ (32 - k.toNat) := by
    rw [Nat.div_lt_iff_lt_mul (Nat.two_pow_pos _), Nat.mul_comm, ← hsplit]
    exact hv
  have hhigh : v.toNat * 2 ^ (32 - k.toNat) % 2 ^ 32 =
      2 ^ (32 - k.toNat) * (v.toNat % 2 ^ k.toNat) := by
    rw [hsplit, Nat.mul_mod_mul_right, Nat.mul_comm]
  have hbound : 2 ^ (32 - k.toNat) * (v.toNat % 2 ^ k.toNat) + v.toNat / 2 ^ k.toNat < 2 ^ 32 := by
    have hmod := Nat.mod_lt v.toNat (Nat.two_pow_pos k.toNat)
    calc 2 ^ (32 - k.toNat) * (v.toNat % 2 ^ k.toNat) + v.toNat / 2 ^ k.toNat
        < 2 ^ (32 - k.toNat) * (v.toNat % 2 ^ k.toNat) + 2 ^ (32 - k.toNat) := by omega
      _ = 2 ^ (32 - k.toNat) * (v.toNat % 2 ^ k.toNat + 1) := by ring
      _ ≤ 2 ^ (32 - k.toNat) * 2 ^ k.toNat := Nat.mul_le_mul_left _ hmod
      _ = 2 ^ 32 := by rw [Nat.mul_comm, ← hsplit]
  have hsub := sub_toNat_of_lt hk
  have hsum : rotated v.toNat k.toNat =
      2 ^ (32 - k.toNat) * (v.toNat % 2 ^ k.toNat) + v.toNat / 2 ^ k.toNat := by
    unfold rotated
    rw [Nat.mod_eq_of_lt hk, ← Nat.add_mod_mod, hhigh, Nat.add_comm, Nat.mod_eq_of_lt hbound]
  rw [UInt32.toNat_or, shiftRight_toNat v hk, shiftLeft_toNat v (by omega), hsub, hhigh, Nat.or_comm,
    ← Nat.two_pow_add_eq_or_of_lt hlow, hsum]

theorem armShiftRor_exact (cpsr v n : UInt32) (sc : Bool) :
    ShiftExact cpsr n sc (armShiftRor cpsr v n sc)
      ((armShiftRor cpsr v n sc).1.toNat = rotated v.toNat n.toNat)
      (2 ^ 31 ≤ rotated v.toNat n.toNat) := by
  have hv := v.toNat_lt
  have hamount : (n &&& 31).toNat = n.toNat % 32 := by
    rw [UInt32.toNat_and, show (31 : UInt32).toNat = 2 ^ 5 - 1 from rfl,
      Nat.and_two_pow_sub_one_eq_mod]
  have hwhole : n.toNat % 32 = 0 → rotated v.toNat n.toNat = v.toNat := by
    intro h
    unfold rotated
    rw [h]
    omega
  unfold armShiftRor
  split
  · next hzero => exact shiftExact_zero hzero (hwhole (by rw [hzero]; rfl)).symm
  · next hn =>
      dsimp only
      split
      · next hmultiple =>
          have hmod : n.toNat % 32 = 0 := by rw [← hamount, hmultiple]; rfl
          rw [hwhole hmod]
          refine shiftExact_of hn rfl ?_
          rw [and_top_ne_zero, wordBit_top]
      · next hpart =>
          have hrot := rotate_toNat v hpart (by rw [hamount]; omega)
          have hsame : rotated v.toNat (n &&& 31).toNat = rotated v.toNat n.toNat := by
            unfold rotated
            rw [hamount, Nat.mod_mod]
          rw [hsame] at hrot
          refine shiftExact_of hn hrot ?_
          rw [and_top_ne_zero, wordBit_top, hrot]

/-! ### The limits -/

theorem lsl_limits (v : UInt32) {n : Nat} (hn : 32 ≤ n) :
    v.toNat * 2 ^ n % 2 ^ 32 = 0 ∧ (lslCarry v.toNat n ↔ n = 32 ∧ v.toNat % 2 = 1) := by
  unfold lslCarry
  rw [two_pow_split hn, ← Nat.mul_assoc, Nat.mul_div_cancel _ (by decide)]
  refine ⟨Nat.mul_mod_left _ _, ?_⟩
  by_cases h32 : n = 32
  · simp [h32]
  · rw [two_pow_split (k := 1) (n := n - 32) (by omega), ← Nat.mul_assoc]
    simp [h32]

theorem lsr_limits (v : UInt32) {n : Nat} (hn : 32 ≤ n) :
    v.toNat / 2 ^ n = 0 ∧ (lsrCarry v.toNat n ↔ n = 32 ∧ 2 ^ 31 ≤ v.toNat) := by
  have hv := v.toNat_lt
  have hpow : 2 ^ 32 ≤ 2 ^ n := Nat.pow_le_pow_right (by omega) hn
  unfold lsrCarry
  refine ⟨Nat.div_eq_of_lt (by omega), ?_⟩
  by_cases h32 : n = 32
  · rw [h32]
    omega
  · have hpow : 2 ^ 32 ≤ 2 ^ (n - 1) := Nat.pow_le_pow_right (by omega) (by omega)
    rw [Nat.div_eq_of_lt (by omega)]
    omega

theorem asr_limits (v : UInt32) {n : Nat} (hn : 32 ≤ n) :
    signedValue v / 2 ^ n = (if 2 ^ 31 ≤ v.toNat then -1 else 0) ∧
      (asrCarry (signedValue v) n ↔ 2 ^ 31 ≤ v.toNat) := by
  refine ⟨signedValue_div_large v (by omega), ?_⟩
  unfold asrCarry
  rw [signedValue_div_large v (by omega)]
  split
  · next h => exact ⟨fun _ => h, fun _ => rfl⟩
  · next h => exact ⟨fun h' => absurd h' (by decide), fun h' => absurd h' h⟩

/-! ### Both copies -/

/-- The flags of the four arithmetic helpers and the outcomes of the four shifts
are those of unbounded arithmetic, and the recompiler's copy computes them too. -/
theorem aluHelpers_exact (cpsr a b n : UInt32) (ci sc : Bool) :
    (FlagsExact cpsr (armSetNzcvAdd cpsr a b (a + b)) (a.toNat + b.toNat)
        (signedValue a + signedValue b) (2 ^ 32 ≤ a.toNat + b.toNat) ∧
      FlagsExact cpsr (armSetNzcvAdc cpsr a b (carryWord ci) (a + b + carryWord ci))
        (a.toNat + b.toNat + ci.toNat) (signedValue a + signedValue b + ci.toNat)
        (2 ^ 32 ≤ a.toNat + b.toNat + ci.toNat) ∧
      FlagsExact cpsr (armSetNzcvSub cpsr a b (a - b)) (a.toNat - b.toNat)
        (signedValue a - signedValue b) (b.toNat ≤ a.toNat) ∧
      FlagsExact cpsr (armSetNzcvSbc cpsr a b (carryWord ci) (a - b - (1 - carryWord ci)))
        (a.toNat - b.toNat - (!ci).toNat) (signedValue a - signedValue b - (!ci).toNat)
        (b.toNat + (!ci).toNat ≤ a.toNat)) ∧
    (ShiftExact cpsr n sc (armShiftLsl cpsr a n sc)
        ((armShiftLsl cpsr a n sc).1.toNat = a.toNat * 2 ^ n.toNat % 2 ^ 32)
        (lslCarry a.toNat n.toNat) ∧
      ShiftExact cpsr n sc (armShiftLsr cpsr a n sc)
        ((armShiftLsr cpsr a n sc).1.toNat = a.toNat / 2 ^ n.toNat) (lsrCarry a.toNat n.toNat) ∧
      ShiftExact cpsr n sc (armShiftAsr cpsr a n sc)
        (signedValue (armShiftAsr cpsr a n sc).1 = signedValue a / 2 ^ n.toNat)
        (asrCarry (signedValue a) n.toNat) ∧
      ShiftExact cpsr n sc (armShiftRor cpsr a n sc)
        ((armShiftRor cpsr a n sc).1.toNat = rotated a.toNat n.toNat)
        (2 ^ 31 ≤ rotated a.toNat n.toNat)) ∧
    (∀ k : Nat, 32 ≤ k →
      (a.toNat * 2 ^ k % 2 ^ 32 = 0 ∧ (lslCarry a.toNat k ↔ k = 32 ∧ a.toNat % 2 = 1)) ∧
      (a.toNat / 2 ^ k = 0 ∧ (lsrCarry a.toNat k ↔ k = 32 ∧ 2 ^ 31 ≤ a.toNat)) ∧
      (signedValue a / 2 ^ k = (if 2 ^ 31 ≤ a.toNat then -1 else 0) ∧
        (asrCarry (signedValue a) k ↔ 2 ^ 31 ≤ a.toNat))) ∧
    (Reference.armSetNzcvAdd = armSetNzcvAdd ∧ Reference.armSetNzcvAdc = armSetNzcvAdc ∧
      Reference.armSetNzcvSub = armSetNzcvSub ∧ Reference.armSetNzcvSbc = armSetNzcvSbc ∧
      Reference.armShiftLsl = armShiftLsl ∧ Reference.armShiftLsr = armShiftLsr ∧
      Reference.armShiftAsr = armShiftAsr ∧ Reference.armShiftRor = armShiftRor) := by
  refine ⟨⟨armSetNzcvAdd_exact cpsr a b, armSetNzcvAdc_exact cpsr a b ci,
    armSetNzcvSub_exact cpsr a b, armSetNzcvSbc_exact cpsr a b ci⟩,
    ⟨armShiftLsl_exact cpsr a n sc, armShiftLsr_exact cpsr a n sc, armShiftAsr_exact cpsr a n sc,
      armShiftRor_exact cpsr a n sc⟩,
    fun k hk => ⟨lsl_limits a hk, lsr_limits a hk, asr_limits a hk⟩,
    rfl, rfl, rfl, rfl, ?_, ?_, ?_, ?_⟩
  -- the copies differ in where they test the flag
  · funext cpsr v n sc
    cases sc <;> simp [Reference.armShiftLsl, armShiftLsl]
  · funext cpsr v n sc
    cases sc <;> simp [Reference.armShiftLsr, armShiftLsr]
  · funext cpsr v n sc
    cases sc <;> simp [Reference.armShiftAsr, armShiftAsr]
  · funext cpsr v n sc
    cases sc <;> simp [Reference.armShiftRor, armShiftRor]

end NdsRecomp.Runtime
