import Mathlib.Tactic

/-!
The flag helpers generated code calls behind an arithmetic instruction. Each
takes the operands and the 32-bit result and rewrites the four condition bits of
the CPSR. What they are compared with is arithmetic without a word size: carry
and overflow say how the result differs from the unbounded sum or difference.
-/

namespace NdsRecomp.Runtime

def cpsrNBit : UInt32 := 0x80000000
def cpsrZBit : UInt32 := 0x40000000
def cpsrCBit : UInt32 := 0x20000000
def cpsrVBit : UInt32 := 0x10000000

/-- `if (cond) c |= flag` -/
def setIf (cond : Prop) [Decidable cond] (flag c : UInt32) : UInt32 :=
  if cond then c ||| flag else c

/-- `g_cpu.cpsr & ~(N | Z | C | V)` -/
def clearNzcv (cpsr : UInt32) : UInt32 :=
  cpsr &&& ~~~(cpsrNBit ||| cpsrZBit ||| cpsrCBit ||| cpsrVBit)

/-- `cpsr_c`, the carry-in generated code reads. -/
def cpsrC (cpsr : UInt32) : UInt32 := if cpsr &&& cpsrCBit ≠ 0 then 1 else 0

/-! ### The helpers -/

def armSetNzcvAdd (cpsr a b r : UInt32) : UInt32 :=
  let c := clearNzcv cpsr
  let c := setIf (r &&& 0x80000000 ≠ 0) cpsrNBit c
  let c := setIf (r = 0) cpsrZBit c
  let c := setIf (r < a) cpsrCBit c
  setIf (~~~(a ^^^ b) &&& (a ^^^ r) &&& 0x80000000 ≠ 0) cpsrVBit c

def armSetNzcvAdc (cpsr a b ci r : UInt32) : UInt32 :=
  let c := clearNzcv cpsr
  let c := setIf (r &&& 0x80000000 ≠ 0) cpsrNBit c
  let c := setIf (r = 0) cpsrZBit c
  let w := a.toUInt64 + b.toUInt64 + ci.toUInt64
  let c := setIf (w >>> 32 ≠ 0) cpsrCBit c
  setIf (~~~(a ^^^ b) &&& (a ^^^ r) &&& 0x80000000 ≠ 0) cpsrVBit c

def armSetNzcvSub (cpsr a b r : UInt32) : UInt32 :=
  let c := clearNzcv cpsr
  let c := setIf (r &&& 0x80000000 ≠ 0) cpsrNBit c
  let c := setIf (r = 0) cpsrZBit c
  let c := setIf (a ≥ b) cpsrCBit c
  setIf ((a ^^^ b) &&& (a ^^^ r) &&& 0x80000000 ≠ 0) cpsrVBit c

def armSetNzcvSbc (cpsr a b ci r : UInt32) : UInt32 :=
  let c := clearNzcv cpsr
  let c := setIf (r &&& 0x80000000 ≠ 0) cpsrNBit c
  let c := setIf (r = 0) cpsrZBit c
  let w := a.toUInt64 + (~~~b &&& 0xFFFFFFFF).toUInt64 + ci.toUInt64
  let c := setIf (w >>> 32 ≠ 0) cpsrCBit c
  setIf ((a ^^^ b) &&& (a ^^^ r) &&& 0x80000000 ≠ 0) cpsrVBit c

/-! ### What they are meant to set -/

/-- Bit `i` of a word. -/
def wordBit (w : UInt32) (i : Nat) : Bool := w.toNat.testBit i

/-- The condition bits of `after`; its other bits are those of `before`. -/
structure FlagsSet (before after : UInt32) (n z c v : Prop) : Prop where
  n : wordBit after 31 = true ↔ n
  z : wordBit after 30 = true ↔ z
  c : wordBit after 29 = true ↔ c
  v : wordBit after 28 = true ↔ v
  other : ∀ i < 28, wordBit after i = wordBit before i

/-- The two's complement value of a word. -/
def signedValue (w : UInt32) : Int := if w.toNat < 2 ^ 31 then w.toNat else w.toNat - 2 ^ 32

/-- Not a two's complement value of 32 bits. -/
def Overflows (s : Int) : Prop := s < -2 ^ 31 ∨ 2 ^ 31 ≤ s

/-- `after` holds the flags of an operation with the exact unsigned value `u`
and signed value `s`. -/
def FlagsExact (before after : UInt32) (u s : Int) (carry : Prop) : Prop :=
  FlagsSet before after (2 ^ 31 ≤ u % 2 ^ 32) (u % 2 ^ 32 = 0) carry (Overflows s)

/-! ### Bits -/

theorem wordBit_or (a b : UInt32) (i : Nat) : wordBit (a ||| b) i = (wordBit a i || wordBit b i) := by
  unfold wordBit
  rw [UInt32.toNat_or, Nat.testBit_or]

theorem wordBit_and (a b : UInt32) (i : Nat) :
    wordBit (a &&& b) i = (wordBit a i && wordBit b i) := by
  unfold wordBit
  rw [UInt32.toNat_and, Nat.testBit_and]

theorem wordBit_xor (a b : UInt32) (i : Nat) :
    wordBit (a ^^^ b) i = (wordBit a i ^^ wordBit b i) := by
  unfold wordBit
  rw [UInt32.toNat_xor, Nat.testBit_xor]

theorem wordBit_not (a : UInt32) {i : Nat} (hi : i < 32) : wordBit (~~~a) i = !wordBit a i := by
  change (~~~a).toBitVec.getLsbD i = !a.toBitVec.getLsbD i
  rw [UInt32.toBitVec_not, BitVec.getLsbD_not]
  simp [hi]

theorem wordBit_top (a : UInt32) : wordBit a 31 = true ↔ 2 ^ 31 ≤ a.toNat := by
  have ha := a.toNat_lt
  unfold wordBit
  rw [Nat.testBit_eq_decide_div_mod_eq, decide_eq_true_eq]
  omega

theorem wordBit_flag (k i : Nat) (hk : k < 32) :
    wordBit (UInt32.ofNat (2 ^ k)) i = decide (k = i) := by
  have hpow : 2 ^ k < 2 ^ 32 := Nat.pow_lt_pow_right (by omega) hk
  unfold wordBit
  rw [UInt32.toNat_ofNat', Nat.mod_eq_of_lt hpow, Nat.testBit_two_pow]

/-- A test of the top bit. -/
theorem and_top_ne_zero (x : UInt32) : x &&& 0x80000000 ≠ 0 ↔ wordBit x 31 = true := by
  have htop : wordBit 0x80000000 31 = true := by decide
  constructor
  · intro hne
    by_contra hbit
    rw [Bool.not_eq_true] at hbit
    refine hne (UInt32.toNat_inj.mp (Nat.eq_of_testBit_eq fun i => ?_))
    change wordBit (x &&& 0x80000000) i = Nat.testBit 0 i
    rw [wordBit_and, Nat.zero_testBit, show (0x80000000 : UInt32) = UInt32.ofNat (2 ^ 31) from rfl,
      wordBit_flag 31 i (by omega)]
    by_cases hi : 31 = i
    · rw [← hi, hbit]; rfl
    · simp [hi]
  · intro hbit hzero
    have hboth := wordBit_and x 0x80000000 31
    rw [hzero, hbit, htop] at hboth
    exact absurd hboth (by decide)

section SetIf

variable {cond : Prop} [Decidable cond] (c : UInt32) {k i : Nat}

theorem wordBit_setIf_self (hk : k < 32) (hclear : wordBit c k = false) :
    wordBit (setIf cond (UInt32.ofNat (2 ^ k)) c) k = true ↔ cond := by
  unfold setIf
  split
  · next h => simp [wordBit_or, wordBit_flag k k hk, h]
  · next h => simp [hclear, h]

theorem wordBit_setIf_other (hk : k < 32) (hne : k ≠ i) :
    wordBit (setIf cond (UInt32.ofNat (2 ^ k)) c) i = wordBit c i := by
  unfold setIf
  split
  · simp [wordBit_or, wordBit_flag k i hk, hne]
  · rfl

end SetIf

theorem wordBit_nzcv (i : Nat) :
    wordBit (cpsrNBit ||| cpsrZBit ||| cpsrCBit ||| cpsrVBit) i = decide (28 ≤ i ∧ i < 32) := by
  rw [show cpsrNBit = UInt32.ofNat (2 ^ 31) from rfl, show cpsrZBit = UInt32.ofNat (2 ^ 30) from rfl,
    show cpsrCBit = UInt32.ofNat (2 ^ 29) from rfl, show cpsrVBit = UInt32.ofNat (2 ^ 28) from rfl,
    wordBit_or, wordBit_or, wordBit_or, wordBit_flag 31 i (by omega), wordBit_flag 30 i (by omega),
    wordBit_flag 29 i (by omega), wordBit_flag 28 i (by omega), Bool.eq_iff_iff]
  simp only [Bool.or_eq_true, decide_eq_true_eq]
  omega

theorem clearNzcv_high (cpsr : UInt32) {i : Nat} (hlow : 28 ≤ i) (hi : i < 32) :
    wordBit (clearNzcv cpsr) i = false := by
  unfold clearNzcv
  rw [wordBit_and, wordBit_not _ hi, wordBit_nzcv, decide_eq_true ⟨hlow, hi⟩, Bool.not_true,
    Bool.and_false]

theorem clearNzcv_low (cpsr : UInt32) {i : Nat} (hi : i < 28) :
    wordBit (clearNzcv cpsr) i = wordBit cpsr i := by
  unfold clearNzcv
  rw [wordBit_and, wordBit_not _ (by omega), wordBit_nzcv, decide_eq_false (by omega),
    Bool.not_false, Bool.and_true]

/-- The shape all four helpers share. -/
theorem setFlags_spec (cpsr : UInt32) (n z c v : Prop) [Decidable n] [Decidable z] [Decidable c]
    [Decidable v] :
    FlagsSet cpsr (setIf v cpsrVBit (setIf c cpsrCBit (setIf z cpsrZBit (setIf n cpsrNBit
      (clearNzcv cpsr))))) n z c v := by
  have hN : cpsrNBit = UInt32.ofNat (2 ^ 31) := rfl
  have hZ : cpsrZBit = UInt32.ofNat (2 ^ 30) := rfl
  have hC : cpsrCBit = UInt32.ofNat (2 ^ 29) := rfl
  have hV : cpsrVBit = UInt32.ofNat (2 ^ 28) := rfl
  rw [hN, hZ, hC, hV]
  constructor
  · rw [wordBit_setIf_other _ (by omega) (by omega), wordBit_setIf_other _ (by omega) (by omega),
      wordBit_setIf_other _ (by omega) (by omega)]
    exact wordBit_setIf_self _ (by omega) (clearNzcv_high cpsr (by omega) (by omega))
  · rw [wordBit_setIf_other _ (by omega) (by omega), wordBit_setIf_other _ (by omega) (by omega)]
    refine wordBit_setIf_self _ (by omega) ?_
    rw [wordBit_setIf_other _ (by omega) (by omega)]
    exact clearNzcv_high cpsr (by omega) (by omega)
  · rw [wordBit_setIf_other _ (by omega) (by omega)]
    refine wordBit_setIf_self _ (by omega) ?_
    rw [wordBit_setIf_other _ (by omega) (by omega), wordBit_setIf_other _ (by omega) (by omega)]
    exact clearNzcv_high cpsr (by omega) (by omega)
  · refine wordBit_setIf_self _ (by omega) ?_
    rw [wordBit_setIf_other _ (by omega) (by omega), wordBit_setIf_other _ (by omega) (by omega),
      wordBit_setIf_other _ (by omega) (by omega)]
    exact clearNzcv_high cpsr (by omega) (by omega)
  · intro i hi
    rw [wordBit_setIf_other _ (by omega) (by omega), wordBit_setIf_other _ (by omega) (by omega),
      wordBit_setIf_other _ (by omega) (by omega), wordBit_setIf_other _ (by omega) (by omega)]
    exact clearNzcv_low cpsr hi

/-! ### Each helper -/

theorem FlagsSet.exact {before after r : UInt32} {u s : Int} {c v carry : Prop}
    (h : FlagsSet before after (r &&& 0x80000000 ≠ 0) (r = 0) c v)
    (hr : (r.toNat : Int) = u % 2 ^ 32) (hc : c ↔ carry) (hv : v ↔ Overflows s) :
    FlagsExact before after u s carry := by
  refine ⟨h.n.trans ?_, h.z.trans ?_, h.c.trans hc, h.v.trans hv, h.other⟩
  · rw [and_top_ne_zero, wordBit_top]
    omega
  · rw [← UInt32.toNat_inj, ← hr]
    exact Int.natCast_eq_zero.symm

/-- Operands of one sign and a result of the other. -/
theorem addOverflow_iff (a b r : UInt32) :
    ~~~(a ^^^ b) &&& (a ^^^ r) &&& 0x80000000 ≠ 0 ↔
      (2 ^ 31 ≤ a.toNat ↔ 2 ^ 31 ≤ b.toNat) ∧ ¬ (2 ^ 31 ≤ a.toNat ↔ 2 ^ 31 ≤ r.toNat) := by
  rw [and_top_ne_zero, wordBit_and, wordBit_not _ (by omega), wordBit_xor, wordBit_xor,
    ← wordBit_top, ← wordBit_top, ← wordBit_top]
  cases wordBit a 31 <;> cases wordBit b 31 <;> cases wordBit r 31 <;> decide

/-- Operands of different signs and a result without the first one's. -/
theorem subOverflow_iff (a b r : UInt32) :
    (a ^^^ b) &&& (a ^^^ r) &&& 0x80000000 ≠ 0 ↔
      ¬ (2 ^ 31 ≤ a.toNat ↔ 2 ^ 31 ≤ b.toNat) ∧ ¬ (2 ^ 31 ≤ a.toNat ↔ 2 ^ 31 ≤ r.toNat) := by
  rw [and_top_ne_zero, wordBit_and, wordBit_xor, wordBit_xor, ← wordBit_top, ← wordBit_top,
    ← wordBit_top]
  cases wordBit a 31 <;> cases wordBit b 31 <;> cases wordBit r 31 <;> decide

theorem wideCarry_iff (a b ci : UInt32) :
    (a.toUInt64 + b.toUInt64 + ci.toUInt64) >>> 32 ≠ 0 ↔
      2 ^ 32 ≤ a.toNat + b.toNat + ci.toNat := by
  have ha := a.toNat_lt
  have hb := b.toNat_lt
  have hci := ci.toNat_lt
  have hsum : (a.toUInt64 + b.toUInt64 + ci.toUInt64).toNat = a.toNat + b.toNat + ci.toNat := by
    rw [UInt64.toNat_add, UInt64.toNat_add, UInt32.toNat_toUInt64, UInt32.toNat_toUInt64,
      UInt32.toNat_toUInt64]
    omega
  rw [ne_eq, ← UInt64.toNat_inj, UInt64.toNat_shiftRight, hsum, Nat.shiftRight_eq_div_pow]
  change ¬ _ / 2 ^ 32 = 0 ↔ _
  omega

theorem not_toNat (b : UInt32) : (~~~b &&& 0xFFFFFFFF).toNat = 2 ^ 32 - 1 - b.toNat := by
  have hb := b.toNat_lt
  have hnot : (~~~b).toNat = 2 ^ 32 - 1 - b.toNat := UInt32.toNat_not b
  rw [UInt32.toNat_and, hnot, show (0xFFFFFFFF : UInt32).toNat = 2 ^ 32 - 1 from rfl,
    Nat.and_two_pow_sub_one_eq_mod]
  exact Nat.mod_eq_of_lt (by omega)

/-- The carry-in as generated code passes it. -/
def carryWord (ci : Bool) : UInt32 := if ci then 1 else 0

theorem carryWord_toNat (ci : Bool) : (carryWord ci).toNat = ci.toNat := by
  cases ci <;> rfl

variable (cpsr a b : UInt32) (ci : Bool)

theorem armSetNzcvAdd_exact :
    FlagsExact cpsr (armSetNzcvAdd cpsr a b (a + b)) (a.toNat + b.toNat)
      (signedValue a + signedValue b) (2 ^ 32 ≤ a.toNat + b.toNat) := by
  have ha := a.toNat_lt
  have hb := b.toNat_lt
  have hr : (a + b).toNat = (a.toNat + b.toNat) % 2 ^ 32 := UInt32.toNat_add a b
  refine (setFlags_spec cpsr _ _ _ _).exact ?_ ?_ ?_
  · rw [hr]
    omega
  · rw [UInt32.lt_iff_toNat_lt, hr]
    omega
  · rw [addOverflow_iff, hr]
    unfold Overflows signedValue
    split <;> split <;> omega

theorem armSetNzcvAdc_exact :
    FlagsExact cpsr (armSetNzcvAdc cpsr a b (carryWord ci) (a + b + carryWord ci))
      (a.toNat + b.toNat + ci.toNat) (signedValue a + signedValue b + ci.toNat)
      (2 ^ 32 ≤ a.toNat + b.toNat + ci.toNat) := by
  have ha := a.toNat_lt
  have hb := b.toNat_lt
  have hci := ci.toNat_le
  have hr : (a + b + carryWord ci).toNat = (a.toNat + b.toNat + ci.toNat) % 2 ^ 32 := by
    rw [UInt32.toNat_add, UInt32.toNat_add, carryWord_toNat, Nat.mod_add_mod]
  refine (setFlags_spec cpsr _ _ _ _).exact ?_ ?_ ?_
  · rw [hr]
    omega
  · rw [wideCarry_iff, carryWord_toNat]
  · rw [addOverflow_iff, hr]
    unfold Overflows signedValue
    split <;> split <;> omega

theorem armSetNzcvSub_exact :
    FlagsExact cpsr (armSetNzcvSub cpsr a b (a - b)) (a.toNat - b.toNat)
      (signedValue a - signedValue b) (b.toNat ≤ a.toNat) := by
  have ha := a.toNat_lt
  have hb := b.toNat_lt
  have hr : (a - b).toNat = (2 ^ 32 - b.toNat + a.toNat) % 2 ^ 32 := UInt32.toNat_sub a b
  refine (setFlags_spec cpsr _ _ _ _).exact ?_ ?_ ?_
  · rw [hr]
    omega
  · exact UInt32.le_iff_toNat_le
  · rw [subOverflow_iff, hr]
    unfold Overflows signedValue
    split <;> split <;> omega

/-- The borrow-in is the complement of the carry-in, and so is the borrow out. -/
theorem armSetNzcvSbc_exact :
    FlagsExact cpsr (armSetNzcvSbc cpsr a b (carryWord ci) (a - b - (1 - carryWord ci)))
      (a.toNat - b.toNat - (!ci).toNat) (signedValue a - signedValue b - (!ci).toNat)
      (b.toNat + (!ci).toNat ≤ a.toNat) := by
  have ha := a.toNat_lt
  have hb := b.toNat_lt
  have hnot : (1 - carryWord ci).toNat = (!ci).toNat := by cases ci <;> rfl
  have hborrow : ci.toNat + (!ci).toNat = 1 := by cases ci <;> rfl
  have hr : (a - b - (1 - carryWord ci)).toNat =
      (2 ^ 32 - (!ci).toNat + (2 ^ 32 - b.toNat + a.toNat) % 2 ^ 32) % 2 ^ 32 := by
    rw [UInt32.toNat_sub (a - b), UInt32.toNat_sub a b, hnot]
  refine (setFlags_spec cpsr _ _ _ _).exact ?_ ?_ ?_
  · rw [hr]
    omega
  · rw [wideCarry_iff, not_toNat, carryWord_toNat]
    omega
  · rw [subOverflow_iff, hr]
    unfold Overflows signedValue
    split <;> split <;> omega

end NdsRecomp.Runtime
