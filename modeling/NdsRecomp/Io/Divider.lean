import NdsRecomp.Io.MathUnit

/-!
The divider against integer division. Quotient and remainder truncate towards zero, so
the remainder has the numerator's sign; a zero denominator gives the numerator as the
remainder. The 32-bit overflow is the one case that leaves the remainder registers of
the division before it.
-/

namespace NdsRecomp.Io

/-! ### Two-word registers -/

theorem wordsU64_split (u : UInt64) :
    wordsU64 ![u.toUInt32, (u >>> 32).toUInt32] = u := by
  apply UInt64.toNat_inj.mp
  have hlow : u.toUInt32.toUInt64.toNat = u.toNat % 2 ^ 32 := by
    rw [UInt32.toNat_toUInt64, UInt64.toNat_toUInt32]
  have hshift : (u >>> 32).toNat = u.toNat / 2 ^ 32 := by
    rw [UInt64.toNat_shiftRight, Nat.shiftRight_eq_div_pow]
    rfl
  have hhigh : ((u >>> 32).toUInt32.toUInt64 <<< 32).toNat = 2 ^ 32 * (u.toNat / 2 ^ 32) := by
    have hlt := u.toNat_lt
    rw [UInt64.toNat_shiftLeft, UInt32.toNat_toUInt64, UInt64.toNat_toUInt32, hshift,
      Nat.shiftLeft_eq]
    change u.toNat / 2 ^ 32 % 2 ^ 32 * 2 ^ 32 % 2 ^ 64 = _
    omega
  change (u.toUInt32.toUInt64 ||| (u >>> 32).toUInt32.toUInt64 <<< 32).toNat = u.toNat
  rw [UInt64.toNat_or, hlow, hhigh, Nat.or_comm,
    ← Nat.two_pow_add_eq_or_of_lt (Nat.mod_lt _ (by decide))]
  omega

theorem asS64_storeS64 {value : Int} (hmin : -2 ^ 63 ≤ value) (hmax : value < 2 ^ 63) :
    asS64 (storeS64 value) = value := by
  have hword : ((UInt64.ofInt value).toNat : Int) = value % 2 ^ 64 := by
    unfold UInt64.ofInt
    rw [UInt64.toNat_ofNat']
    omega
  unfold asS64 storeS64
  rw [wordsU64_split]
  change (UInt64.ofInt value).toBitVec.toInt = value
  rw [BitVec.toInt_eq_toNat_bmod, UInt64.toNat_toBitVec, hword]
  change (value % ((2 ^ 64 : Nat) : Int)).bmod (2 ^ 64) = value
  rw [Int.emod_bmod]
  exact Int.bmod_eq_of_le (by omega) (by omega)

theorem asS64_bounds (words : Fin 2 → UInt32) : -2 ^ 63 ≤ asS64 words ∧ asS64 words < 2 ^ 63 :=
  ⟨Int64.le_toInt _, Int64.toInt_lt _⟩

theorem asS32_bounds (v : UInt32) : -2 ^ 31 ≤ asS32 v ∧ asS32 v < 2 ^ 31 :=
  ⟨Int32.le_toInt _, Int32.toInt_lt _⟩

theorem asS32_inj {v w : UInt32} : asS32 v = asS32 w ↔ v = w := by
  unfold asS32
  rw [Int32.toInt_inj]
  constructor
  · intro h
    exact congrArg Int32.toUInt32 h
  · rintro rfl
    rfl

/-! ### Truncated division -/

theorem tdiv_bounds {num den : Int} (hnum : -2 ^ 63 ≤ num ∧ num < 2 ^ 63)
    (hoverflow : ¬ (num = -2 ^ 63 ∧ den = -1)) :
    -2 ^ 63 ≤ num.tdiv den ∧ num.tdiv den < 2 ^ 63 := by
  have hle := Int.natAbs_tdiv_le_natAbs num den
  by_cases hmin : num = -2 ^ 63
  · have hden : den ≠ -1 := fun h => hoverflow ⟨hmin, h⟩
    have hquot : num.tdiv den ≠ 2 ^ 63 := by
      intro heq
      have habs : (num.tdiv den).natAbs = num.natAbs / den.natAbs := Int.natAbs_tdiv num den
      rw [heq, hmin] at habs
      have hone : den.natAbs = 1 := by
        rcases Nat.lt_trichotomy den.natAbs 1 with hlt | heq | hgt
        · have hzero : den.natAbs = 0 := by omega
          rw [hzero] at habs
          exact absurd habs (by decide)
        · exact heq
        · have hdiv : (2 ^ 63 : Nat) / den.natAbs < 2 ^ 63 := Nat.div_lt_self (by decide) hgt
          have hsame : (2 ^ 63 : Nat) = 2 ^ 63 / den.natAbs := habs
          omega
      have hpos : den = 1 := by omega
      rw [hpos, Int.tdiv_one, hmin] at heq
      exact absurd heq (by decide)
    omega
  · omega

theorem tmod_small (num : Int) {den : Int} (hden : den ≠ 0) : |num.tmod den| < |den| := by
  rw [Int.abs_eq_natAbs, Int.abs_eq_natAbs, Int.natAbs_tmod]
  exact_mod_cast Nat.mod_lt _ (Int.natAbs_pos.mpr hden)

theorem tmod_sign (num den : Int) : num.tmod den = 0 ∨ (num.tmod den).sign = num.sign := by
  by_cases hdvd : den ∣ num
  · left
    exact Int.tmod_eq_zero_of_dvd hdvd
  · right
    rw [Int.sign_tmod, if_neg hdvd]

theorem tmod_bounds {num : Int} (hnum : -2 ^ 63 ≤ num ∧ num < 2 ^ 63) (den : Int) :
    -2 ^ 63 ≤ num.tmod den ∧ num.tmod den < 2 ^ 63 := by
  have hle : (num.tmod den).natAbs ≤ num.natAbs := by
    rw [Int.natAbs_tmod]
    exact Nat.mod_le _ _
  have hpos : 0 ≤ num → 0 ≤ num.tmod den := Int.tmod_nonneg den
  have hneg : num < 0 → num.tmod den ≤ 0 := by
    intro hlt
    rcases tmod_sign num den with hzero | hsign
    · exact le_of_eq hzero
    · rw [Int.sign_eq_neg_one_of_neg hlt] at hsign
      exact le_of_lt (Int.neg_of_sign_eq_neg_one hsign)
  omega

namespace MathUnit

/-! ### The specification -/

/-- The numerator of the mode. -/
def numerator (m : MathUnit) : Int :=
  if m.divcnt &&& 0x3 = 0 then asS32 (m.divNumer 0) else asS64 m.divNumer

/-- The effective denominator: 64 bits in mode 2 only. -/
def denominator (m : MathUnit) : Int :=
  if m.divcnt &&& 0x3 = 2 then asS64 m.divDenom else asS32 (m.divDenom 0)

/-- The quotient of a division by zero: one with the sign turned, and in mode 0 with the
upper word inverted. -/
def zeroQuotient (m : MathUnit) : Fin 2 → UInt32 :=
  if m.divcnt &&& 0x3 = 0 then
    if m.numerator < 0 then ![1, 0xFFFFFFFF] else ![0xFFFFFFFF, 0]
  else if m.numerator < 0 then storeS64 1 else storeS64 (-1)

/-- Quotient and remainder registers that divide. -/
structure Quotient (num den : Int) (quot rem : Fin 2 → UInt32) : Prop where
  exact : asS64 quot * den + asS64 rem ≡ num [ZMOD 2 ^ 64]
  small : |asS64 rem| < |den|
  sign : asS64 rem = 0 ∨ (asS64 rem).sign = num.sign

/-- What a finished division leaves. -/
structure Divides (m done : MathUnit) : Prop where
  quotient : m.denominator ≠ 0 → Quotient m.numerator m.denominator done.divQuot done.divRem
  byZero : m.denominator = 0 → done.divQuot = m.zeroQuotient ∧ asS64 done.divRem = m.numerator
  flag : done.divcnt &&& 0x4000 ≠ 0 ↔ m.divDenom 0 = 0 ∧ m.divDenom 1 = 0

/-- The least 32-bit numerator over minus one, after a division that left a remainder. -/
def KeepsRemainder (m : MathUnit) : Prop :=
  m.divcnt &&& 0x3 = 0 ∧ m.divNumer 0 = 0x80000000 ∧ m.divDenom 0 = 0xFFFFFFFF ∧
    asS64 m.divRem ≠ 0

/-! ### The cases -/

theorem quotient_tdiv {num den : Int} (hnum : -2 ^ 63 ≤ num ∧ num < 2 ^ 63) (hden : den ≠ 0)
    (hoverflow : ¬ (num = -2 ^ 63 ∧ den = -1)) :
    Quotient num den (storeS64 (num.tdiv den)) (storeS64 (num.tmod den)) := by
  obtain ⟨hlow, hhigh⟩ := tdiv_bounds hnum hoverflow
  obtain ⟨hlow', hhigh'⟩ := tmod_bounds hnum den
  have hquot := asS64_storeS64 hlow hhigh
  have hrem := asS64_storeS64 hlow' hhigh'
  refine ⟨?_, ?_, ?_⟩
  · rw [hquot, hrem, Int.mul_comm, Int.mul_tdiv_add_tmod]
  · rw [hrem]
    exact tmod_small num hden
  · rw [hrem]
    exact tmod_sign num den

/-- The least numerator over minus one: the quotient wraps to itself. -/
theorem quotient_overflow {num : Int} {quot rem : Fin 2 → UInt32}
    (hquot : asS64 quot * -1 ≡ num [ZMOD 2 ^ 64]) (hrem : asS64 rem = 0) :
    Quotient num (-1) quot rem := by
  refine ⟨?_, ?_, Or.inl hrem⟩
  · rw [hrem, add_zero]
    exact hquot
  · rw [hrem]
    decide

/-! ### The unit -/

theorem divide_with_divcnt (m : MathUnit) {c : UInt16} (h : c &&& 0x3 = m.divcnt &&& 0x3) :
    { m with divcnt := c }.divide = { m.divide with divcnt := c } := by
  unfold divide
  simp only [h]
  by_cases hzero : m.divcnt &&& 0x3 = 0
  · rw [if_pos hzero, if_pos hzero]
    unfold divide32 setDivResult
    dsimp only
    split_ifs <;> rfl
  · rw [if_neg hzero, if_neg hzero]
    by_cases htwo : m.divcnt &&& 0x3 = 2
    · rw [if_pos htwo, if_pos htwo]
      unfold divide64 setDivResult
      dsimp only
      split_ifs <;> rfl
    · rw [if_neg htwo, if_neg htwo]
      unfold divide64 setDivResult
      dsimp only
      split_ifs <;> rfl

theorem divide_divDenom (m : MathUnit) : m.divide.divDenom = m.divDenom := by
  unfold divide divide32 divide64 setDivResult
  dsimp only
  split_ifs <;> rfl

theorem mode_kept (m : MathUnit) : m.divcnt &&& ~~~0xC000 &&& 0x3 = m.divcnt &&& 0x3 := by
  rw [UInt16.and_assoc]
  rfl

theorem finishDiv_results (m : MathUnit) :
    m.finishDiv.divQuot = m.divide.divQuot ∧ m.finishDiv.divRem = m.divide.divRem := by
  have hflags := m.divide_with_divcnt m.mode_kept
  unfold finishDiv
  simp only [hflags]
  split_ifs
  · exact ⟨rfl, rfl⟩
  · exact ⟨rfl, rfl⟩

theorem orFlag_set (v : UInt16) : (v ||| 0x4000) &&& 0x4000 ≠ 0 := by
  intro h
  have hbit := congrArg (fun w : UInt16 => w.toBitVec.getLsbD 14) h
  simp at hbit

theorem andFlag_clear (v : UInt16) : v &&& ~~~0xC000 &&& 0x4000 = 0 := by
  rw [UInt16.and_assoc]
  exact UInt16.and_zero

theorem finishDiv_flag (m : MathUnit) :
    m.finishDiv.divcnt &&& 0x4000 ≠ 0 ↔ m.divDenom 0 = 0 ∧ m.divDenom 1 = 0 := by
  have hflags := m.divide_with_divcnt m.mode_kept
  have hor : m.divDenom 0 ||| m.divDenom 1 = 0 ↔ m.divDenom 0 = 0 ∧ m.divDenom 1 = 0 :=
    UInt32.or_eq_zero_iff
  unfold finishDiv
  simp only [hflags, divide_divDenom]
  by_cases hzero : m.divDenom 0 ||| m.divDenom 1 = 0
  · rw [if_pos hzero]
    refine iff_of_true ?_ (hor.mp hzero)
    exact orFlag_set _
  · rw [if_neg hzero]
    refine iff_of_false ?_ (fun h => hzero (hor.mpr h))
    exact not_not_intro (andFlag_clear _)

/-- 32-bit operands divide, the overflow apart. -/
theorem divide32_quotient (m : MathUnit) (hden : asS32 (m.divDenom 0) ≠ 0)
    (hoverflow : ¬ (asS32 (m.divNumer 0) = -2 ^ 31 ∧ asS32 (m.divDenom 0) = -1)) :
    Quotient (asS32 (m.divNumer 0)) (asS32 (m.divDenom 0)) m.divide32.divQuot
      m.divide32.divRem := by
  have hbounds := asS32_bounds (m.divNumer 0)
  unfold divide32
  simp only [if_neg hden, if_neg hoverflow]
  refine quotient_tdiv ?_ hden ?_
  · omega
  · omega

theorem divide64_quotient (m : MathUnit) {den : Int} (hden : den ≠ 0) :
    Quotient (asS64 m.divNumer) den (m.divide64 den).divQuot (m.divide64 den).divRem := by
  unfold divide64
  simp only [if_neg hden]
  by_cases hoverflow : asS64 m.divNumer = -2 ^ 63 ∧ den = -1
  · obtain ⟨hnum, rfl⟩ := hoverflow
    rw [if_pos ⟨hnum, rfl⟩, hnum]
    refine quotient_overflow ?_ (asS64_storeS64 (by decide) (by decide))
    change asS64 (storeS64 (-2 ^ 63)) * -1 ≡ _ [ZMOD _]
    rw [asS64_storeS64 (by decide) (by decide)]
    decide
  · rw [if_neg hoverflow]
    exact quotient_tdiv (asS64_bounds _) hden hoverflow

theorem divide64_byZero (m : MathUnit) :
    (m.divide64 0).divQuot = (if asS64 m.divNumer < 0 then storeS64 1 else storeS64 (-1)) ∧
      asS64 (m.divide64 0).divRem = asS64 m.divNumer := by
  unfold divide64
  simp only [if_pos]
  refine ⟨?_, ?_⟩
  · split <;> rfl
  · obtain ⟨hlow, hhigh⟩ := asS64_bounds m.divNumer
    exact asS64_storeS64 hlow hhigh

theorem divide32_byZero (m : MathUnit) (hden : asS32 (m.divDenom 0) = 0) :
    m.divide32.divQuot =
        (if asS32 (m.divNumer 0) < 0 then ![1, 0xFFFFFFFF] else ![0xFFFFFFFF, 0]) ∧
      asS64 m.divide32.divRem = asS32 (m.divNumer 0) := by
  have hbounds := asS32_bounds (m.divNumer 0)
  unfold divide32
  simp only [if_pos hden]
  exact ⟨rfl, asS64_storeS64 (by omega) (by omega)⟩

/-- The 32-bit overflow: the remainder registers are not written. -/
theorem divide32_overflow (m : MathUnit) (hnum : m.divNumer 0 = 0x80000000)
    (hden : m.divDenom 0 = 0xFFFFFFFF) :
    m.divide32.divQuot = storeS64 (2 ^ 31) ∧ m.divide32.divRem = m.divRem := by
  have hnum' : asS32 (m.divNumer 0) = -2 ^ 31 := by rw [hnum]; rfl
  have hden' : asS32 (m.divDenom 0) = -1 := by rw [hden]; rfl
  unfold divide32
  simp only [hnum', hden']
  exact ⟨rfl, rfl⟩

/-- A finished division gives quotient, remainder and flag of its operands, whatever the
unit did before, unless it is the 32-bit overflow over a remainder left in place. -/
theorem finishDiv_divides_iff (m : MathUnit) : m.Divides m.finishDiv ↔ ¬ m.KeepsRemainder := by
  obtain ⟨hquot, hrem⟩ := m.finishDiv_results
  constructor
  · rintro hdivides ⟨hmode, hnum, hden, hstale⟩
    have hdenominator : m.denominator = -1 := by
      unfold denominator
      rw [hmode, if_neg (by decide), hden]
      rfl
    have hsmall := (hdivides.quotient (by rw [hdenominator]; decide)).small
    rw [hrem, hdenominator] at hsmall
    unfold divide at hsmall
    rw [if_pos hmode, (m.divide32_overflow hnum hden).2] at hsmall
    exact hstale (Int.abs_lt_one_iff.mp hsmall)
  · intro hkeeps
    have hflag := m.finishDiv_flag
    by_cases hmode : m.divcnt &&& 0x3 = 0
    · have hnumerator : m.numerator = asS32 (m.divNumer 0) := if_pos hmode
      have hdenominator : m.denominator = asS32 (m.divDenom 0) := by
        unfold denominator
        rw [hmode, if_neg (by decide)]
      have hdivide : m.divide = m.divide32 := if_pos hmode
      rw [hdivide] at hquot hrem
      refine ⟨?_, ?_, hflag⟩
      · rw [hquot, hrem, hnumerator, hdenominator]
        intro hden
        by_cases hoverflow : asS32 (m.divNumer 0) = -2 ^ 31 ∧ asS32 (m.divDenom 0) = -1
        · -- only the remainder left in place can be wrong here
          obtain ⟨hnum, hden⟩ := hoverflow
          have hnumWord : m.divNumer 0 = 0x80000000 := asS32_inj.mp (hnum.trans rfl)
          have hdenWord : m.divDenom 0 = 0xFFFFFFFF := asS32_inj.mp (hden.trans rfl)
          obtain ⟨hquot', hrem'⟩ := m.divide32_overflow hnumWord hdenWord
          have hzero : asS64 m.divRem = 0 := by
            by_contra hstale
            exact hkeeps ⟨hmode, hnumWord, hdenWord, hstale⟩
          rw [hquot', hrem', hnum, hden]
          have hstored : asS64 (storeS64 (2 ^ 31)) = 2 ^ 31 :=
            asS64_storeS64 (by decide) (by decide)
          refine quotient_overflow ?_ hzero
          rw [hstored]
          decide
        · exact m.divide32_quotient hden hoverflow
      · intro hden
        rw [hdenominator] at hden
        unfold zeroQuotient
        rw [hquot, hrem, if_pos hmode, hnumerator]
        exact m.divide32_byZero hden
    · have hnumerator : m.numerator = asS64 m.divNumer := if_neg hmode
      have hdivide : m.divide = m.divide64 m.denominator := by
        unfold divide denominator
        rw [if_neg hmode]
        split <;> rfl
      rw [hdivide] at hquot hrem
      refine ⟨?_, ?_, hflag⟩
      · rw [hquot, hrem, hnumerator]
        exact m.divide64_quotient
      · intro hden
        unfold zeroQuotient
        rw [hquot, hrem, hden, if_neg hmode, hnumerator]
        exact m.divide64_byZero

/-- Seven by five, then the overflow, by register writes. -/
def overflowRun : MathUnit :=
  let first := (({} : MathUnit).mathRegWrite 0x04000290 7 4 0).mathRegWrite 0x04000298 5 4 0
  let second := ((first.runEvents 18).mathRegWrite 0x04000290 0x80000000 4 20).mathRegWrite
    0x04000298 0xFFFFFFFF 4 20
  second

/-- The remainder of seven by five survives the overflow. -/
theorem overflow_keeps_remainder :
    overflowRun.divRem 0 = 2 ∧ ¬ overflowRun.Divides (overflowRun.runEvents 38) := by
  have hrem : overflowRun.divRem 0 = 2 := by decide
  refine ⟨hrem, fun hdivides => ?_⟩
  have hsmall := (hdivides.quotient (by decide)).small
  revert hsmall
  decide

end MathUnit

end NdsRecomp.Io
