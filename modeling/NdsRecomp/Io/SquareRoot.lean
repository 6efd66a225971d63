import NdsRecomp.Io.MathUnit

/-!
The square-root unit against the integer square root. The loop brings two bits
of the operand down a turn and keeps the root of the bits so far with its
remainder. The trial subtrahend is 32 bits wide, which is too narrow in the last
turn of a 64-bit run only.
-/

namespace NdsRecomp.Io

/-- `r` is the integer square root of `n`. -/
def IsRoot (r n : Nat) : Prop := r * r ≤ n ∧ n < (r + 1) * (r + 1)

namespace MathUnit.SqrtLoop

/-- The root and the remainder of the bits brought down so far. -/
structure RootOf (s : SqrtLoop) (n : Nat) : Prop where
  root : IsRoot s.res.toNat n
  remainder : s.rem.toNat + s.res.toNat * s.res.toNat = n

/-- The two bits a turn brings down. -/
def digit (topshift : UInt64) (s : SqrtLoop) : Nat := ((s.val >>> topshift) &&& 3).toNat

theorem digit_lt (topshift : UInt64) (s : SqrtLoop) : s.digit topshift < 4 := by
  unfold digit
  rw [UInt64.toNat_and]
  have hle : (s.val >>> topshift).toNat &&& 3 ≤ 3 := Nat.and_le_right
  exact Nat.lt_succ_of_le hle

section Step

variable {s : SqrtLoop} {n : Nat} (topshift : UInt64)

theorem RootOf.rem_le (h : s.RootOf n) : s.rem.toNat ≤ 2 * s.res.toNat := by
  have hlt := h.root.2
  have hrem := h.remainder
  have hsq : (s.res.toNat + 1) * (s.res.toNat + 1) =
      s.res.toNat * s.res.toNat + 2 * s.res.toNat + 1 := by ring
  omega

/-- The remainder with two more bits. -/
theorem RootOf.brought_down (h : s.RootOf n) :
    ((s.rem <<< 2) + ((s.val >>> topshift) &&& 3)).toNat = 4 * s.rem.toNat + s.digit topshift := by
  have hdigit := s.digit_lt topshift
  have hle := h.rem_le
  have hres := s.res.toNat_lt
  have hshift : (s.rem <<< 2).toNat = 4 * s.rem.toNat := by
    rw [UInt64.toNat_shiftLeft, Nat.shiftLeft_eq]
    change s.rem.toNat * 2 ^ 2 % 2 ^ 64 = _
    rw [Nat.mod_eq_of_lt (by omega), Nat.mul_comm]
  unfold digit at hdigit ⊢
  rw [UInt64.toNat_add, hshift, Nat.mod_eq_of_lt (by omega)]

theorem res_doubled (hres : s.res.toNat < 2 ^ 31) : (s.res <<< 1).toNat = 2 * s.res.toNat := by
  rw [UInt32.toNat_shiftLeft, Nat.shiftLeft_eq]
  change s.res.toNat * 2 ^ 1 % 2 ^ 32 = _
  rw [Nat.mod_eq_of_lt (by omega), Nat.mul_comm]

/-- The trial subtrahend, as wide as the source makes it. -/
theorem trial (hres : s.res.toNat < 2 ^ 31) :
    (((s.res <<< 1) <<< 1) + 1).toUInt64.toNat = (4 * s.res.toNat + 1) % 2 ^ 32 := by
  rw [UInt32.toNat_toUInt64, UInt32.toNat_add, UInt32.toNat_shiftLeft, Nat.shiftLeft_eq,
    res_doubled hres]
  change (2 * s.res.toNat * 2 ^ 1 % 2 ^ 32 + 1) % 2 ^ 32 = _
  omega

/-- The test of a turn. -/
theorem RootOf.fits_iff (h : s.RootOf n) (hres : s.res.toNat < 2 ^ 31) :
    (s.rem <<< 2) + ((s.val >>> topshift) &&& (3 : UInt64)) ≥
        (((s.res <<< 1) <<< 1) + 1).toUInt64 ↔
      (4 * s.res.toNat + 1) % 2 ^ 32 ≤ 4 * s.rem.toNat + s.digit topshift := by
  rw [ge_iff_le, UInt64.le_iff_toNat_le, trial hres, h.brought_down topshift]

/-- The root a turn leaves, whatever the width of the subtrahend. -/
theorem RootOf.step_res (h : s.RootOf n) (hres : s.res.toNat < 2 ^ 31) :
    (s.step topshift).res.toNat =
      if (4 * s.res.toNat + 1) % 2 ^ 32 ≤ 4 * s.rem.toNat + s.digit topshift
      then 2 * s.res.toNat + 1 else 2 * s.res.toNat := by
  have hdouble := res_doubled hres
  have hfits := h.fits_iff topshift hres
  unfold step
  dsimp only
  by_cases hle : (4 * s.res.toNat + 1) % 2 ^ 32 ≤ 4 * s.rem.toNat + s.digit topshift
  · rw [if_pos (hfits.mpr hle), if_pos hle]
    change (s.res <<< 1 + 1).toNat = _
    rw [UInt32.toNat_add, hdouble]
    change (2 * s.res.toNat + 1) % 2 ^ 32 = _
    exact Nat.mod_eq_of_lt (by omega)
  · rw [if_neg (hfits.not.mpr hle), if_neg hle]
    exact hdouble

@[simp] theorem step_val : (s.step topshift).val = s.val <<< 2 := by
  unfold step
  dsimp only
  split <;> rfl

/-- While the subtrahend fits, a turn takes the root of two more bits. -/
theorem RootOf.step (h : s.RootOf n) (hres : s.res.toNat < 2 ^ 30) :
    (s.step topshift).RootOf (4 * n + s.digit topshift) := by
  have hdigit := s.digit_lt topshift
  have hle := h.rem_le
  have hrem := h.remainder
  have hwide : s.res.toNat < 2 ^ 31 := by omega
  have hnarrow : (4 * s.res.toNat + 1) % 2 ^ 32 = 4 * s.res.toNat + 1 := by omega
  have hroot := h.step_res topshift hwide
  have hfits := h.fits_iff topshift hwide
  have htrial := trial hwide
  rw [hnarrow] at hroot hfits htrial
  have hdouble : (2 * s.res.toNat) * (2 * s.res.toNat) = 4 * (s.res.toNat * s.res.toNat) := by ring
  have hodd : (2 * s.res.toNat + 1) * (2 * s.res.toNat + 1) =
      4 * (s.res.toNat * s.res.toNat) + 4 * s.res.toNat + 1 := by ring
  have hnext : (2 * s.res.toNat + 1 + 1) * (2 * s.res.toNat + 1 + 1) =
      4 * (s.res.toNat * s.res.toNat) + 8 * s.res.toNat + 4 := by ring
  by_cases hcase : 4 * s.res.toNat + 1 ≤ 4 * s.rem.toNat + s.digit topshift
  · rw [if_pos hcase] at hroot
    have hleft : (s.step topshift).rem.toNat =
        4 * s.rem.toNat + s.digit topshift - (4 * s.res.toNat + 1) := by
      unfold SqrtLoop.step
      dsimp only
      rw [if_pos (hfits.mpr hcase)]
      dsimp only
      rw [UInt64.toNat_sub_of_le _ _ (hfits.mpr hcase), h.brought_down topshift, htrial]
    constructor
    · unfold IsRoot
      rw [hroot, hodd, hnext]
      omega
    · rw [hroot, hodd, hleft]
      omega
  · rw [if_neg hcase] at hroot
    have hleft : (s.step topshift).rem.toNat = 4 * s.rem.toNat + s.digit topshift := by
      unfold SqrtLoop.step
      dsimp only
      rw [if_neg (hfits.not.mpr hcase)]
      exact h.brought_down topshift
    constructor
    · unfold IsRoot
      rw [hroot, hdouble, hodd]
      omega
    · rw [hroot, hdouble, hleft]
      omega

end Step

/-! ### The loop -/

/-- After `i` turns over an operand of `topshift + 2` bits: the operand is shifted by
that many pairs of bits, and the root is that of the pairs brought down. -/
structure Turned (topshift : UInt64) (operand i : Nat) (s : SqrtLoop) : Prop where
  val : s.val.toNat = operand * 4 ^ i % 2 ^ 64
  root : s.RootOf (operand / 2 ^ (topshift.toNat + 2 - 2 * i))

section Turns

variable {topshift : UInt64} {operand i : Nat} {s : SqrtLoop}

/-- The bits brought down are the next pair of the operand. -/
theorem Turned.digit_eq (h : Turned topshift operand i s) (htop : topshift.toNat ≤ 62)
    (hi : 2 * i ≤ topshift.toNat) :
    s.digit topshift = operand / 2 ^ (topshift.toNat - 2 * i) % 4 := by
  have hsplit : (2 : Nat) ^ 64 = 2 ^ topshift.toNat * 2 ^ (64 - topshift.toNat) := by
    rw [← Nat.pow_add]
    congr 1
    omega
  have hfour : (4 : Nat) ∣ 2 ^ (64 - topshift.toNat) := by
    have hpow := Nat.pow_dvd_pow 2 (show 2 ≤ 64 - topshift.toNat by omega)
    exact hpow
  have hshift : (2 : Nat) ^ topshift.toNat = 2 ^ (topshift.toNat - 2 * i) * 4 ^ i := by
    rw [show (4 : Nat) = 2 ^ 2 by rfl, ← Nat.pow_mul, ← Nat.pow_add]
    congr 1
    omega
  unfold digit
  rw [UInt64.toNat_and, UInt64.toNat_shiftRight, Nat.mod_eq_of_lt (by omega), h.val,
    Nat.shiftRight_eq_div_pow]
  change operand * 4 ^ i % 2 ^ 64 / 2 ^ topshift.toNat &&& 2 ^ 2 - 1 = _
  rw [Nat.and_two_pow_sub_one_eq_mod, hsplit, Nat.mod_mul_right_div_self]
  change _ % 4 = _
  rw [Nat.mod_mod_of_dvd _ hfour, hshift, Nat.mul_div_mul_right _ _ (Nat.pow_pos (by omega))]

/-- The pairs brought down, with one more. -/
theorem Turned.next_prefix (h : Turned topshift operand i s) (htop : topshift.toNat ≤ 62)
    (hi : 2 * i ≤ topshift.toNat) :
    4 * (operand / 2 ^ (topshift.toNat + 2 - 2 * i)) + s.digit topshift =
      operand / 2 ^ (topshift.toNat + 2 - 2 * (i + 1)) := by
  have hpow : (2 : Nat) ^ (topshift.toNat + 2 - 2 * i) = 2 ^ (topshift.toNat - 2 * i) * 4 := by
    rw [show (4 : Nat) = 2 ^ 2 by rfl, ← Nat.pow_add]
    congr 1
    omega
  rw [h.digit_eq htop hi, hpow, ← Nat.div_div_eq_div_mul,
    show topshift.toNat + 2 - 2 * (i + 1) = topshift.toNat - 2 * i by omega]
  exact Nat.div_add_mod _ 4

/-- The root of `i` pairs of bits has `i` bits. -/
theorem Turned.res_lt (h : Turned topshift operand i s)
    (hoperand : operand < 2 ^ (topshift.toNat + 2)) (hi : 2 * i ≤ topshift.toNat + 2) :
    s.res.toNat < 2 ^ i := by
  have hsquare := h.root.root.1
  have hbits : operand / 2 ^ (topshift.toNat + 2 - 2 * i) < 2 ^ i * 2 ^ i := by
    rw [← Nat.pow_add, Nat.div_lt_iff_lt_mul (Nat.pow_pos (by omega)), ← Nat.pow_add]
    rw [show i + i + (topshift.toNat + 2 - 2 * i) = topshift.toNat + 2 by omega]
    exact hoperand
  by_contra hge
  have hbig := Nat.mul_le_mul (Nat.not_lt.mp hge) (Nat.not_lt.mp hge)
  omega

theorem turned_start (hoperand : operand < 2 ^ (topshift.toNat + 2)) (htop : topshift.toNat ≤ 62) :
    Turned topshift operand 0 { val := UInt64.ofNat operand } := by
  have hzero : operand / 2 ^ (topshift.toNat + 2 - 2 * 0) = 0 := Nat.div_eq_of_lt hoperand
  have hpow := Nat.pow_le_pow_right (show 0 < 2 by omega) (show topshift.toNat + 2 ≤ 64 by omega)
  constructor
  · rw [Nat.pow_zero, Nat.mul_one]
    exact UInt64.toNat_ofNat'
  · rw [hzero]
    exact ⟨⟨Nat.le_refl 0, Nat.one_pos⟩, rfl⟩

theorem Turned.step (h : Turned topshift operand i s)
    (hoperand : operand < 2 ^ (topshift.toNat + 2)) (htop : topshift.toNat ≤ 62)
    (hi : 2 * i ≤ topshift.toNat) (hturn : i ≤ 30) :
    Turned topshift operand (i + 1) (s.step topshift) := by
  have hres : s.res.toNat < 2 ^ 30 :=
    Nat.lt_of_lt_of_le (h.res_lt hoperand (by omega)) (Nat.pow_le_pow_right (by omega) hturn)
  constructor
  · rw [step_val, UInt64.toNat_shiftLeft, h.val, Nat.shiftLeft_eq]
    change operand * 4 ^ i % 2 ^ 64 * 4 % 2 ^ 64 = _
    rw [Nat.mod_mul_mod, Nat.mul_assoc, ← Nat.pow_succ]
  · rw [← h.next_prefix htop hi]
    exact h.root.step topshift hres

variable (topshift) in
/-- All but the last turn of a 64-bit run are exact. -/
theorem turned_iterate (hoperand : operand < 2 ^ (topshift.toNat + 2))
    (htop : topshift.toNat ≤ 62) (i : Nat) (hi : 2 * i ≤ topshift.toNat + 2) (hturn : i ≤ 31) :
    Turned topshift operand i ((SqrtLoop.step topshift)^[i] { val := UInt64.ofNat operand }) := by
  induction i with
  | zero => exact turned_start hoperand htop
  | succ i ih =>
      rw [Function.iterate_succ_apply']
      exact (ih (by omega) (by omega)).step hoperand htop (by omega) (by omega)

end Turns

end MathUnit.SqrtLoop

namespace MathUnit

/-- The operand of the mode that the control register selects. -/
def sqrtOperand (m : MathUnit) : Nat :=
  if m.sqrtcnt &&& 1 ≠ 0 then (wordsU64 m.sqrtVal).toNat else (m.sqrtVal 0).toNat

/-- An operand of the second half of the range that lies below the square of an odd
number by at most 2^32. -/
def TrialOverflows (operand : Nat) : Prop :=
  ∃ q, 2 ^ 30 ≤ q ∧ q < 2 ^ 31 ∧ operand < (2 * q + 1) * (2 * q + 1) ∧
    (2 * q + 1) * (2 * q + 1) ≤ operand + 2 ^ 32

theorem busy_bit_kept (cnt : UInt16) : (cnt &&& ~~~0x8000) &&& 1 = cnt &&& 1 := by
  rw [UInt16.and_assoc]
  rfl

theorem finishSqrt_res (m : MathUnit) :
    m.finishSqrt.sqrtRes =
      if m.sqrtcnt &&& 1 ≠ 0 then
        ((SqrtLoop.step 62)^[32] { val := UInt64.ofNat m.sqrtOperand }).res
      else ((SqrtLoop.step 30)^[16] { val := UInt64.ofNat m.sqrtOperand }).res := by
  unfold finishSqrt sqrtOperand
  dsimp only
  rw [busy_bit_kept]
  by_cases hwide : m.sqrtcnt &&& 1 = 0
  · rw [if_neg (not_not_intro hwide), if_neg (not_not_intro hwide), if_neg (not_not_intro hwide),
      if_neg (not_not_intro hwide), if_neg (not_not_intro hwide), ← UInt32.toNat_toUInt64,
      UInt64.ofNat_toNat]
  · rw [if_pos hwide, if_pos hwide, if_pos hwide, if_pos hwide, if_pos hwide, UInt64.ofNat_toNat]

/-- Sixteen turns are exact. -/
theorem sqrt32_isRoot {operand : Nat} (h : operand < 2 ^ 32) :
    IsRoot ((SqrtLoop.step 30)^[16] { val := UInt64.ofNat operand }).res.toNat operand := by
  have hturned := SqrtLoop.turned_iterate 30 h
    (by decide) 16 (by decide) (by decide)
  have hroot := hturned.root.root
  change IsRoot _ (operand / 1) at hroot
  rwa [Nat.div_one] at hroot

/-- The last of 32 turns compares with a subtrahend cut to 32 bits. -/
theorem sqrt64_isRoot_iff {operand : Nat} (h : operand < 2 ^ 64) :
    IsRoot ((SqrtLoop.step 62)^[32] { val := UInt64.ofNat operand }).res.toNat operand ↔
      ¬ TrialOverflows operand := by
  rw [Function.iterate_succ_apply']
  have hturned := SqrtLoop.turned_iterate 62 h
    (by decide) 31 (by decide) (by decide)
  generalize (SqrtLoop.step 62)^[31] { val := UInt64.ofNat operand } = s at hturned
  have hres : s.res.toNat < 2 ^ 31 := hturned.res_lt h (by decide)
  have hnext := hturned.next_prefix (by decide) (by decide)
  change 4 * (operand / 4) + s.digit 62 = operand / 1 at hnext
  rw [Nat.div_one] at hnext
  have hroot : s.RootOf (operand / 4) := hturned.root
  have hdigit := s.digit_lt 62
  have hrem := hroot.remainder
  have hle := hroot.rem_le
  have hlast := hroot.step_res 62 hres
  generalize s.res.toNat = q at hres hrem hle hlast
  generalize s.rem.toNat = rem at hrem hle hlast
  generalize s.digit 62 = digit at hnext hdigit hlast
  have hodd : (2 * q + 1) * (2 * q + 1) = 4 * (q * q) + 4 * q + 1 := by ring
  have heven : (2 * q) * (2 * q) = 4 * (q * q) := by ring
  have hafter : (2 * q + 1 + 1) * (2 * q + 1 + 1) = 4 * (q * q) + 8 * q + 4 := by ring
  have hoverflows : TrialOverflows operand ↔
      2 ^ 30 ≤ q ∧ operand < 4 * (q * q) + 4 * q + 1 ∧ 4 * (q * q) + 4 * q + 1 ≤ operand + 2 ^ 32 := by
    constructor
    · rintro ⟨p, hlow, hhigh, hbelow, hnear⟩
      have hp : p = q := by
        have hp1 : (2 * p + 1) * (2 * p + 1) = 4 * (p * p) + 4 * p + 1 := by ring
        rcases Nat.lt_trichotomy p q with hlt | heq | hgt
        · have hmul := Nat.mul_le_mul hlt hlt
          have hsucc : p.succ * p.succ = p * p + 2 * p + 1 := by
            rw [Nat.succ_eq_add_one]
            ring
          omega
        · exact heq
        · have hmul := Nat.mul_le_mul hgt hgt
          have hsucc : q.succ * q.succ = q * q + 2 * q + 1 := by
            rw [Nat.succ_eq_add_one]
            ring
          omega
      rw [hp, hodd] at hbelow hnear
      exact ⟨hp ▸ hlow, hbelow, hnear⟩
    · rintro ⟨hlow, hbelow, hnear⟩
      exact ⟨q, hlow, hres, hodd ▸ hbelow, hodd ▸ hnear⟩
  rw [hoverflows]
  unfold IsRoot
  by_cases htaken : (4 * q + 1) % 2 ^ 32 ≤ 4 * rem + digit
  · rw [if_pos htaken] at hlast
    rw [hlast, hodd, hafter]
    omega
  · rw [if_neg htaken] at hlast
    rw [hlast, heven, hodd]
    omega

/-- The result is the integer square root except where the last trial subtrahend of a
64-bit run loses its top bit and the comparison takes it all the same. -/
theorem sqrt_result_isRoot_iff (m : MathUnit) :
    IsRoot m.finishSqrt.sqrtRes.toNat m.sqrtOperand ↔
      (m.sqrtcnt &&& 1 ≠ 0 → ¬ TrialOverflows m.sqrtOperand) := by
  rw [finishSqrt_res]
  by_cases hwide : m.sqrtcnt &&& 1 ≠ 0
  · have hoperand : m.sqrtOperand < 2 ^ 64 := by
      unfold sqrtOperand
      rw [if_pos hwide]
      exact UInt64.toNat_lt _
    rw [if_pos hwide, sqrt64_isRoot_iff hoperand]
    exact ⟨fun h _ => h, fun h => h hwide⟩
  · have hoperand : m.sqrtOperand < 2 ^ 32 := by
      unfold sqrtOperand
      rw [if_neg hwide]
      exact UInt32.toNat_lt _
    rw [if_neg hwide]
    exact ⟨fun _ h => absurd h hwide, fun _ => sqrt32_isRoot hoperand⟩

/-- The root of 0xFFFFFFFE00000000 is 0xFFFFFFFE, and the unit says 0xFFFFFFFF. -/
theorem sqrt_rounds_up_near_top :
    ¬ ∀ m : MathUnit, IsRoot m.finishSqrt.sqrtRes.toNat m.sqrtOperand := by
  intro h
  have htop := h { sqrtcnt := 1, sqrtVal := ![0, 0xFFFFFFFE] }
  unfold IsRoot at htop
  exact absurd htop.1 (by set_option maxRecDepth 20000 in decide)

end MathUnit

end NdsRecomp.Io
