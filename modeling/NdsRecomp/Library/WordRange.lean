import Mathlib.Tactic

/-!
Two ways to test that a 32-bit address lies in a range, the masked offset into
a power-of-two mirror, and carrying UInt32 facts over to natural numbers.
-/

namespace NdsRecomp.Library

/-- One unsigned subtraction and comparison decides membership in a range that
does not run past the end of the address space. -/
theorem sub_lt_iff_mem_range (addr base len : UInt32)
    (hfits : base.toNat + len.toNat ≤ 2 ^ 32) :
    addr - base < len ↔ base.toNat ≤ addr.toNat ∧ addr.toNat < base.toNat + len.toNat := by
  have haddr := addr.toNat_lt
  have hbase := base.toNat_lt
  rw [UInt32.lt_iff_toNat_lt, UInt32.toNat_sub]
  omega

/-- Without a bound on the range the subtraction wraps: it also accepts the
addresses below `base` that the range reaches past the top of the space. -/
theorem sub_lt_iff_mem_wrapped (addr base len : UInt32) :
    addr - base < len ↔
      base.toNat ≤ addr.toNat ∧ addr.toNat - base.toNat < len.toNat ∨
        addr.toNat < base.toNat ∧ addr.toNat + 2 ^ 32 - base.toNat < len.toNat := by
  have haddr := addr.toNat_lt
  have hbase := base.toNat_lt
  rw [UInt32.lt_iff_toNat_lt, UInt32.toNat_sub]
  omega

/-- Masking with `2 ^ k - 1` is the remainder modulo `2 ^ k`. -/
theorem toNat_and_mask (addr mask : UInt32) (k : Nat) (hmask : mask.toNat = 2 ^ k - 1) :
    (addr &&& mask).toNat = addr.toNat % 2 ^ k := by
  rw [UInt32.toNat_and, hmask]
  exact Nat.and_two_pow_sub_one_eq_mod _ _

end NdsRecomp.Library
