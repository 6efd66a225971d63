import NdsRecomp.Library.WordRange
import NdsRecomp.Bus.Cp15

/-!
Address resolution. A region serves an access when the address lies in it and
the access fits its backing; an access that does not fit falls through to the
regions after it.
-/

namespace NdsRecomp.Bus

open Library

/-- `if (o + len <= backing.size()) return backing.data() + o;` -/
def backingAt (backing : Backing) (o len : Nat) : Option BackingPtr :=
  if o + len ≤ backing.size then some ⟨backing, o⟩ else none

/-- ITCM answers over its virtual span below main RAM, mirrored. -/
def resolveItcm (cp15 : Cp15State) (addr : UInt32) (len : Nat) : Option BackingPtr :=
  if cp15.itcmEnable ∧ cp15.itcmSize ≠ 0 ∧ addr < 0x02000000 ∧ addr < cp15.itcmSize then
    backingAt .itcm (addr &&& 0x7FFF).toNat len
  else none

/-- DTCM answers at its configured base, not mirrored. -/
def resolveDtcm (cp15 : Cp15State) (addr : UInt32) (len : Nat) : Option BackingPtr :=
  if cp15.dtcmEnable ∧ cp15.dtcmSize ≠ 0 ∧ addr ≥ cp15.dtcmBase ∧
      addr - cp15.dtcmBase < cp15.dtcmSize then
    backingAt .dtcm (addr - cp15.dtcmBase).toNat len
  else none

def resolveMainRam (addr : UInt32) (len : Nat) : Option BackingPtr :=
  if addr ≥ 0x02000000 ∧ addr < 0x03000000 then
    backingAt .mainRam (addr &&& 0x003FFFFF).toNat len
  else none

/-- 0x03000000..0x037FFFFF, split by WRAMCNT. -/
def resolveSharedWram (wramcnt : UInt8) (active : NdsCpu) (addr : UInt32) (len : Nat) :
    Option BackingPtr :=
  if addr ≥ 0x03000000 ∧ addr < 0x03800000 then
    let mode := wramcnt &&& 3
    match active with
    | .arm9 =>
        if mode == 0 then backingAt .sharedWram (addr &&& 0x7FFF).toNat len
        else if mode == 1 || mode == 2 then
          let base := if mode == 1 then 0x4000 else 0
          backingAt .sharedWram (base + (addr &&& 0x3FFF).toNat) len
        else none
    | .arm7 =>
        if mode == 0 then backingAt .arm7Wram (addr &&& 0xFFFF).toNat len
        else if mode == 1 || mode == 2 then
          let base := if mode == 1 then 0 else 0x4000
          backingAt .sharedWram (base + (addr &&& 0x3FFF).toNat) len
        else backingAt .sharedWram (addr &&& 0x7FFF).toNat len
  else none

def resolveArm7Wram (addr : UInt32) (len : Nat) : Option BackingPtr :=
  if addr ≥ 0x03800000 ∧ addr < 0x04000000 then
    backingAt .arm7Wram (addr &&& 0xFFFF).toNat len
  else none

def resolveBios (active : NdsCpu) (addr : UInt32) (len : Nat) : Option BackingPtr :=
  match active with
  | .arm9 =>
      if addr ≥ 0xFFFF0000 then backingAt .arm9Bios (addr &&& 0xFFF).toNat len else none
  | .arm7 =>
      if addr < 0x00004000 then backingAt .arm7Bios (addr &&& 0x3FFF).toNat len else none

def resolveTcm (cp15 : Cp15State) (active : NdsCpu) (addr : UInt32) (len : Nat) :
    Option BackingPtr :=
  match active with
  | .arm9 => (resolveItcm cp15 addr len).or (resolveDtcm cp15 addr len)
  | .arm7 => none

/-- `resolve` for the active CPU. -/
def resolve (core : BusCore) (active : NdsCpu) (addr : UInt32) (len : Nat) :
    Option BackingPtr :=
  (resolveTcm core.cp15.visible active addr len).or <|
    (resolveMainRam addr len).or <|
      (resolveSharedWram core.wramcnt active addr len).or <|
        (resolveArm7Wram addr len).or (resolveBios active addr len)

theorem backingAt_of_le {backing : Backing} {o len : Nat} (h : o + len ≤ backing.size) :
    backingAt backing o len = some ⟨backing, o⟩ := if_pos h

theorem backingAt_eq_some {backing : Backing} {o len : Nat} {p : BackingPtr}
    (h : backingAt backing o len = some p) : p = ⟨backing, o⟩ ∧ o + len ≤ backing.size := by
  unfold backingAt at h
  split at h
  · next hfits => exact ⟨(Option.some.inj h).symm, hfits⟩
  · cases h

/-- An access is served from inside its backing. -/
def Fits (len : Nat) (served : Option BackingPtr) : Prop :=
  ∀ p, served = some p → p.offset + len ≤ p.backing.size

theorem fits_none (len : Nat) : Fits len none := by
  rintro p ⟨⟩

theorem fits_backingAt (backing : Backing) (o len : Nat) : Fits len (backingAt backing o len) := by
  intro p h
  obtain ⟨rfl, hfits⟩ := backingAt_eq_some h
  exact hfits

theorem Fits.or {len : Nat} {a b : Option BackingPtr} (ha : Fits len a) (hb : Fits len b) :
    Fits len (a.or b) := by
  intro p h
  rcases Option.or_eq_some_iff.mp h with h | ⟨-, h⟩
  · exact ha p h
  · exact hb p h

theorem Fits.region {P : Prop} [Decidable P] {len : Nat} {a b : Option BackingPtr}
    (ha : Fits len a) (hb : Fits len b) : Fits len (if P then a else b) := by
  split
  · exact ha
  · exact hb

theorem resolveSharedWram_fits (wramcnt : UInt8) (active : NdsCpu) (addr : UInt32) (len : Nat) :
    Fits len (resolveSharedWram wramcnt active addr len) := by
  refine Fits.region ?_ (fits_none len)
  cases active with
  | arm9 =>
      exact .region (fits_backingAt _ _ _) (.region (fits_backingAt _ _ _) (fits_none len))
  | arm7 =>
      exact .region (fits_backingAt _ _ _)
        (.region (fits_backingAt _ _ _) (fits_backingAt _ _ _))

theorem resolve_fits (core : BusCore) (active : NdsCpu) (addr : UInt32) (len : Nat) :
    Fits len (resolve core active addr len) := by
  have hone (P : Prop) [Decidable P] (backing : Backing) (o : Nat) :
      Fits len (if P then backingAt backing o len else none) :=
    .region (fits_backingAt _ _ _) (fits_none len)
  refine .or ?_ (.or (hone _ _ _) (.or (resolveSharedWram_fits _ _ _ _) (.or (hone _ _ _) ?_)))
  · cases active with
    | arm9 => exact .or (hone _ _ _) (hone _ _ _)
    | arm7 => exact fits_none len
  · cases active with
    | arm9 => exact hone _ _ _
    | arm7 => exact hone _ _ _

/-! ### Which regions can serve an address -/

theorem resolveMainRam_eq_none {addr : UInt32} (len : Nat)
    (h : addr.toNat < 0x02000000 ∨ 0x03000000 ≤ addr.toNat) : resolveMainRam addr len = none := by
  refine if_neg ?_
  rw [ge_iff_le, UInt32.le_iff_toNat_le, UInt32.lt_iff_toNat_lt]
  simp only [UInt32.reduceToNat]
  omega

theorem resolveSharedWram_eq_none {addr : UInt32} (wramcnt : UInt8) (active : NdsCpu)
    (len : Nat) (h : addr.toNat < 0x03000000 ∨ 0x03800000 ≤ addr.toNat) :
    resolveSharedWram wramcnt active addr len = none := by
  refine if_neg ?_
  rw [ge_iff_le, UInt32.le_iff_toNat_le, UInt32.lt_iff_toNat_lt]
  simp only [UInt32.reduceToNat]
  omega

theorem resolveArm7Wram_eq_none {addr : UInt32} (len : Nat)
    (h : addr.toNat < 0x03800000 ∨ 0x04000000 ≤ addr.toNat) :
    resolveArm7Wram addr len = none := by
  refine if_neg ?_
  rw [ge_iff_le, UInt32.le_iff_toNat_le, UInt32.lt_iff_toNat_lt]
  simp only [UInt32.reduceToNat]
  omega

/-- Below main RAM the ARM9 sees nothing but its TCMs. -/
theorem resolve_arm9_low {core : BusCore} {addr : UInt32} (len : Nat)
    (hlow : addr.toNat < 0x02000000) :
    resolve core .arm9 addr len = resolveTcm core.cp15.visible .arm9 addr len := by
  have hbios : resolveBios .arm9 addr len = none := by
    refine if_neg ?_
    rw [ge_iff_le, UInt32.le_iff_toNat_le]
    simp only [UInt32.reduceToNat]
    omega
  unfold resolve
  rw [resolveMainRam_eq_none len (by omega), resolveSharedWram_eq_none _ _ len (by omega),
    resolveArm7Wram_eq_none len (by omega), hbios]
  simp

end NdsRecomp.Bus
