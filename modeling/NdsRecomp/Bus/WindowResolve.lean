import NdsRecomp.Bus.Access
import NdsRecomp.Bus.CoreInvariant

/-!
The published windows against `resolve`. A window serves exactly the pointer
`resolve` returns, with one exception: the inline DTCM test subtracts without
comparing first, so a DTCM placed at the top of the address space also answers
at the bottom of it, where the slow path finds nothing.
-/

namespace NdsRecomp.Bus

open Library

/-- The DTCM window reaches past the end of the address space down to `addr`. -/
def WrapsIntoDtcm (core : BusCore) (addr : UInt32) : Prop :=
  core.cp15.visible.dtcmEnable ∧ addr < core.cp15.visible.dtcmBase ∧
    (addr - core.cp15.visible.dtcmBase).toNat < core.cp15.visible.dtcmSize.toNat ∧
    (addr - core.cp15.visible.dtcmBase).toNat < 0x4000 ∧
    ¬ (core.cp15.visible.itcmEnable ∧ addr < core.cp15.visible.itcmSize)

theorem WrapsIntoDtcm.low {core : BusCore} {addr : UInt32} (h : WrapsIntoDtcm core addr) :
    addr.toNat < 0x4000 := by
  obtain ⟨-, hbelow, -, hspan, -⟩ := h
  have haddr := addr.toNat_lt
  have hbase := core.cp15.visible.dtcmBase.toNat_lt
  rw [UInt32.lt_iff_toNat_lt] at hbelow
  rw [UInt32.toNat_sub] at hspan
  omega

/-! ### The TCM bounds of the windows -/

section Bounds

variable {core : BusCore} (hfresh : core.Fresh) (hallocated : core.allocated = true)

include hfresh hallocated

theorem fast_eq : core.fast = busFastRefresh true core.cp15.visible core.wramcnt := by
  rw [← hallocated]
  exact hfresh

theorem itcmLimit_hit (addr : UInt32) :
    addr < core.fast.itcmLimit ↔ core.cp15.visible.itcmEnable ∧
      core.cp15.visible.itcmSize ≠ 0 ∧ addr < 0x02000000 ∧ addr < core.cp15.visible.itcmSize := by
  rw [fast_eq hfresh hallocated]
  simp only [busFastRefresh, Bool.not_true, Bool.false_eq_true, if_false]
  cases core.cp15.visible.itcmEnable with
  | false => simp
  | true =>
      by_cases hzero : core.cp15.visible.itcmSize = 0
      · simp [hzero]
      · simp only [Bool.true_and, bne_iff_ne, ne_eq, hzero, not_false_eq_true, if_true, true_and]
        have hmin : min core.cp15.visible.itcmSize 0x02000000 =
            if core.cp15.visible.itcmSize ≤ 0x02000000 then core.cp15.visible.itcmSize
              else 0x02000000 := rfl
        rw [hmin]
        split
        · grind
        · grind

theorem dtcmLimit_hit (off : UInt32) :
    off < core.fast.dtcmLimit ↔ core.cp15.visible.dtcmEnable ∧
      core.cp15.visible.dtcmSize ≠ 0 ∧ off < core.cp15.visible.dtcmSize ∧ off < 0x4000 := by
  rw [fast_eq hfresh hallocated]
  simp only [busFastRefresh, Bool.not_true, Bool.false_eq_true, if_false]
  cases core.cp15.visible.dtcmEnable with
  | false => simp
  | true =>
      by_cases hzero : core.cp15.visible.dtcmSize = 0
      · simp [hzero]
      · simp only [Bool.true_and, bne_iff_ne, ne_eq, hzero, not_false_eq_true, if_true, true_and]
        have hmin : min core.cp15.visible.dtcmSize 0x4000 =
            if core.cp15.visible.dtcmSize ≤ 0x4000 then core.cp15.visible.dtcmSize
              else 0x4000 := rfl
        rw [hmin]
        split
        · grind
        · grind

end Bounds

/-! ### A window serves what `resolve` returns -/

/-- A live window: its three pointers are parallel, page aligned and inside a
tracked backing; the access at `off` stays inside it and meets the bytes at
`p`. -/
structure ServedBy (w : NdsBusFastWin) (off : UInt32) (p : BackingPtr) (len : Nat) : Prop where
  parallel : ∃ base, w = backingWin p.backing base w.mask ∧ p.offset = base + off.toNat ∧
    base % execPageSize = 0 ∧ base + w.mask.toNat + 1 ≤ p.backing.size
  bound : off.toNat + len ≤ w.mask.toNat + 1
  tracked : p.backing.tracked = true

/-- What an access through a window has to satisfy to be served, and what it
then shares with the slow path. -/
def Agrees (core : BusCore) (active : NdsCpu) (addr : UInt32) (len : Nat)
    (w : NdsBusFastWin) (off : UInt32) : Prop :=
  ∀ data, w.data = some data → off.toNat + len ≤ w.mask.toNat + 1 →
    ServedBy w off ⟨data.backing, data.offset + off.toNat⟩ len ∧
      resolve core active addr len = some ⟨data.backing, data.offset + off.toNat⟩

private theorem agrees_backingWin {core : BusCore} {active : NdsCpu} {addr : UInt32}
    {len base : Nat} {backing : Backing} {mask off : UInt32}
    (haligned : base % execPageSize = 0) (hsize : base + mask.toNat + 1 ≤ backing.size)
    (htracked : backing.tracked = true)
    (hresolve : base + off.toNat + len ≤ backing.size →
      resolve core active addr len = some ⟨backing, base + off.toNat⟩) :
    Agrees core active addr len (backingWin backing base mask) off := by
  intro data hdata hbound
  obtain rfl : (⟨backing, base⟩ : BackingPtr) = data := Option.some.inj hdata
  change off.toNat + len ≤ mask.toNat + 1 at hbound
  exact ⟨⟨⟨base, rfl, rfl, haligned, hsize⟩, hbound, htracked⟩, hresolve (by omega)⟩

private theorem agrees_dead {core : BusCore} {active : NdsCpu} {addr off : UInt32} {len : Nat} :
    Agrees core active addr len {} off := by
  intro data hdata
  cases hdata

theorem wramLoWindow_mask_lt (wramcnt : UInt8) (cpu : NdsCpu) :
    (wramLoWindow wramcnt cpu).mask.toNat < 0x400000 := by
  unfold wramLoWindow
  split_ifs
  all_goals
    cases cpu with
    | arm9 => decide
    | arm7 => decide

section Classify

variable {core : BusCore} (hfresh : core.Fresh) (hallocated : core.allocated = true)
  {addr : UInt32} {len : Nat}

include hfresh hallocated

private theorem agrees_itcm (hhit : addr < core.fast.itcmLimit) :
    Agrees core .arm9 addr len core.fast.itcm (addr &&& core.fast.itcm.mask) := by
  have hwindow : core.fast.itcm = backingWin .itcm 0 0x7FFF := by
    rw [fast_eq hfresh hallocated]
    rfl
  have hrange := (itcmLimit_hit hfresh hallocated addr).mp hhit
  have hlow : addr.toNat < 0x02000000 := UInt32.lt_iff_toNat_lt.mp hrange.2.2.1
  rw [hwindow]
  refine agrees_backingWin (by decide) (by decide) rfl ?_
  intro hfits
  have hitcm : resolveItcm core.cp15.visible addr len =
      some ⟨.itcm, 0 + (addr &&& 0x7FFF).toNat⟩ := by
    rw [Nat.zero_add] at hfits ⊢
    exact (if_pos hrange).trans (backingAt_of_le hfits)
  rw [resolve_arm9_low len hlow]
  change (resolveItcm core.cp15.visible addr len).or _ = _
  rw [hitcm]
  rfl

/-- Where the inline test finds no TCM, the slow path finds none either. -/
private theorem resolveTcm_eq_none {active : NdsCpu} (hlen : 0 < len)
    (hitcm : ¬ (active = .arm9 ∧ addr < core.fast.itcmLimit))
    (hdtcm : ¬ (active = .arm9 ∧ addr - core.fast.dtcmBase < core.fast.dtcmLimit)) :
    resolveTcm core.cp15.visible active addr len = none := by
  have hbase : core.fast.dtcmBase = core.cp15.visible.dtcmBase := by
    rw [fast_eq hfresh hallocated]
    rfl
  cases active with
  | arm7 => rfl
  | arm9 =>
      simp only [true_and, itcmLimit_hit hfresh hallocated, hbase,
        dtcmLimit_hit hfresh hallocated] at hitcm hdtcm
      have hnoItcm : resolveItcm core.cp15.visible addr len = none := if_neg hitcm
      have hnoDtcm : resolveDtcm core.cp15.visible addr len = none := by
        unfold resolveDtcm
        split
        · next hhit =>
            have hpast : ¬ addr - core.cp15.visible.dtcmBase < 0x4000 :=
              fun hinside => hdtcm ⟨hhit.1, hhit.2.1, hhit.2.2.2, hinside⟩
            refine if_neg ?_
            rw [UInt32.lt_iff_toNat_lt] at hpast
            change ¬ (addr - core.cp15.visible.dtcmBase).toNat + len ≤ 0x4000
            simp only [UInt32.reduceToNat] at hpast
            omega
        · rfl
      simp only [resolveTcm, hnoItcm, hnoDtcm, Option.or_none]

private theorem agrees_dtcm (hitcm : ¬ addr < core.fast.itcmLimit)
    (hhit : addr - core.fast.dtcmBase < core.fast.dtcmLimit)
    (hwrap : ¬ WrapsIntoDtcm core addr) :
    Agrees core .arm9 addr len core.fast.dtcm (addr - core.fast.dtcmBase) := by
  have hwindow : core.fast.dtcm = backingWin .dtcm 0 0x3FFF := by
    rw [fast_eq hfresh hallocated]
    rfl
  have hbase : core.fast.dtcmBase = core.cp15.visible.dtcmBase := by
    rw [fast_eq hfresh hallocated]
    rfl
  rw [hbase] at hhit ⊢
  obtain ⟨henable, hnonzero, hsize, hspan⟩ := (dtcmLimit_hit hfresh hallocated _).mp hhit
  rw [itcmLimit_hit hfresh hallocated] at hitcm
  have hnotBelow : ¬ addr < core.cp15.visible.dtcmBase := by
    intro hbelow
    have hspanNat : (addr - core.cp15.visible.dtcmBase).toNat < 0x4000 :=
      UInt32.lt_iff_toNat_lt.mp hspan
    refine hwrap ⟨henable, hbelow, UInt32.lt_iff_toNat_lt.mp hsize, hspanNat, ?_⟩
    rintro ⟨hon, hcovered⟩
    refine hitcm ⟨hon, ?_, ?_, hcovered⟩
    · rintro hzero
      rw [hzero] at hcovered
      exact absurd hcovered (by simp)
    · have hbaseBound := core.cp15.visible.dtcmBase.toNat_lt
      rw [UInt32.lt_iff_toNat_lt] at hbelow ⊢
      rw [UInt32.toNat_sub] at hspanNat
      simp only [UInt32.reduceToNat]
      omega
  have hrange : core.cp15.visible.dtcmEnable = true ∧ core.cp15.visible.dtcmSize ≠ 0 ∧
      addr ≥ core.cp15.visible.dtcmBase ∧
      addr - core.cp15.visible.dtcmBase < core.cp15.visible.dtcmSize :=
    ⟨henable, hnonzero, UInt32.not_lt.mp hnotBelow, hsize⟩
  rw [hwindow]
  refine agrees_backingWin (by decide) (by decide) rfl ?_
  intro hfits
  have hdtcm : resolveDtcm core.cp15.visible addr len =
      some ⟨.dtcm, 0 + (addr - core.cp15.visible.dtcmBase).toNat⟩ := by
    rw [Nat.zero_add] at hfits ⊢
    exact (if_pos hrange).trans (backingAt_of_le hfits)
  have hnoItcm : resolveItcm core.cp15.visible addr len = none := if_neg hitcm
  simp only [resolve, resolveTcm, hnoItcm, hdtcm, Option.none_or, Option.some_or]

private theorem agrees_main {active : NdsCpu}
    (htcm : resolveTcm core.cp15.visible active addr len = none)
    (hhit : addr - 0x02000000 < 0x01000000) :
    Agrees core active addr len core.fast.main (addr &&& core.fast.main.mask) := by
  have hwindow : core.fast.main = backingWin .mainRam 0 0x003FFFFF := by
    rw [fast_eq hfresh hallocated]
    rfl
  have hrange := (sub_lt_iff_mem_range addr 0x02000000 0x01000000 (by decide)).mp hhit
  rw [hwindow]
  refine agrees_backingWin (by decide) (by decide) rfl ?_
  intro hfits
  have hmain : resolveMainRam addr len =
      some ⟨.mainRam, 0 + (addr &&& 0x003FFFFF).toNat⟩ := by
    rw [Nat.zero_add] at hfits ⊢
    refine (if_pos ?_).trans (backingAt_of_le hfits)
    rw [ge_iff_le, UInt32.le_iff_toNat_le, UInt32.lt_iff_toNat_lt]
    exact hrange
  simp only [resolve, htcm, hmain, Option.none_or, Option.some_or]
  rfl

private theorem agrees_wramHi {active : NdsCpu}
    (htcm : resolveTcm core.cp15.visible active addr len = none)
    (hhit : addr - 0x03800000 < 0x00800000) :
    Agrees core active addr len (core.fast.wramHi active)
      (addr &&& (core.fast.wramHi active).mask) := by
  have hwindow : core.fast.wramHi active = backingWin .arm7Wram 0 0x0000FFFF := by
    rw [fast_eq hfresh hallocated]
    rfl
  have hrange := (sub_lt_iff_mem_range addr 0x03800000 0x00800000 (by decide)).mp hhit
  simp only [UInt32.reduceToNat] at hrange
  rw [hwindow]
  refine agrees_backingWin (by decide) (by decide) rfl ?_
  intro hfits
  have hhigh : resolveArm7Wram addr len =
      some ⟨.arm7Wram, 0 + (addr &&& 0x0000FFFF).toNat⟩ := by
    rw [Nat.zero_add] at hfits ⊢
    refine (if_pos ?_).trans (backingAt_of_le hfits)
    rw [ge_iff_le, UInt32.le_iff_toNat_le, UInt32.lt_iff_toNat_lt]
    exact hrange
  have hnoMain : resolveMainRam addr len = none :=
    resolveMainRam_eq_none len (Or.inr (by omega))
  have hnoShared : resolveSharedWram core.wramcnt active addr len = none :=
    resolveSharedWram_eq_none core.wramcnt active len (Or.inr (by omega))
  simp only [resolve, htcm, hnoMain, hnoShared, hhigh, Option.none_or, Option.some_or]
  rfl

private theorem agrees_wramLo {active : NdsCpu}
    (htcm : resolveTcm core.cp15.visible active addr len = none)
    (hhit : addr - 0x03000000 < 0x00800000) :
    Agrees core active addr len (core.fast.wramLo active)
      (addr &&& (core.fast.wramLo active).mask) := by
  have hwindow : core.fast.wramLo = wramLoWindow core.wramcnt := by
    rw [fast_eq hfresh hallocated]
    rfl
  have hrange := (sub_lt_iff_mem_range addr 0x03000000 0x00800000 (by decide)).mp hhit
  have hregion : addr ≥ 0x03000000 ∧ addr < 0x03800000 := by
    rw [ge_iff_le, UInt32.le_iff_toNat_le, UInt32.lt_iff_toNat_lt]
    exact hrange
  simp only [UInt32.reduceToNat] at hrange
  have hresolve {p : BackingPtr}
      (hshared : resolveSharedWram core.wramcnt active addr len = some p) :
      resolve core active addr len = some p := by
    have hnoMain : resolveMainRam addr len = none :=
      resolveMainRam_eq_none len (Or.inr (by omega))
    simp only [resolve, htcm, hnoMain, hshared, Option.none_or, Option.some_or]
  rw [hwindow]
  unfold resolveSharedWram at hresolve
  rw [if_pos hregion] at hresolve
  by_cases h0 : (core.wramcnt &&& 3 == 0) = true
  · simp only [h0, if_true] at hresolve
    simp only [wramLoWindow, h0, if_true]
    cases active with
    | arm9 =>
        refine agrees_backingWin (by decide) (by decide) rfl fun hfits => hresolve ?_
        rw [Nat.zero_add] at hfits ⊢
        exact backingAt_of_le hfits
    | arm7 =>
        refine agrees_backingWin (by decide) (by decide) rfl fun hfits => hresolve ?_
        rw [Nat.zero_add] at hfits ⊢
        exact backingAt_of_le hfits
  · by_cases h1 : (core.wramcnt &&& 3 == 1) = true
    · simp only [h0, h1, if_true, Bool.false_eq_true, if_false, Bool.true_or] at hresolve
      simp only [wramLoWindow, h0, h1, if_true, Bool.false_eq_true, if_false]
      cases active with
      | arm9 =>
          exact agrees_backingWin (by decide) (by decide) rfl
            fun hfits => hresolve (backingAt_of_le hfits)
      | arm7 =>
          exact agrees_backingWin (by decide) (by decide) rfl
            fun hfits => hresolve (backingAt_of_le hfits)
    · by_cases h2 : (core.wramcnt &&& 3 == 2) = true
      · simp only [h0, h1, h2, if_true, Bool.false_eq_true, if_false, Bool.or_true] at hresolve
        simp only [wramLoWindow, h0, h1, h2, if_true, Bool.false_eq_true, if_false]
        cases active with
        | arm9 =>
            exact agrees_backingWin (by decide) (by decide) rfl
              fun hfits => hresolve (backingAt_of_le hfits)
        | arm7 =>
            exact agrees_backingWin (by decide) (by decide) rfl
              fun hfits => hresolve (backingAt_of_le hfits)
      · simp only [h0, h1, h2, Bool.false_eq_true, if_false, Bool.or_self] at hresolve
        simp only [wramLoWindow, h0, h1, h2, Bool.false_eq_true, if_false]
        cases active with
        | arm9 => exact agrees_dead
        | arm7 =>
            refine agrees_backingWin (by decide) (by decide) rfl fun hfits => hresolve ?_
            rw [Nat.zero_add] at hfits ⊢
            exact backingAt_of_le hfits

/-- Outside the wrapped DTCM, whatever window classifies an address agrees with
`resolve` on every access that ends inside the window. -/
theorem classify_agrees {active : NdsCpu} (hlen : 0 < len)
    (hwrap : ¬ (active = .arm9 ∧ WrapsIntoDtcm core addr)) {w : NdsBusFastWin} {off : UInt32}
    (hclassify : ndsBusfClassify core.fast active addr = some (w, off)) :
    Agrees core active addr len w off := by
  unfold ndsBusfClassify at hclassify
  by_cases hitcm : active = .arm9 ∧ addr < core.fast.itcmLimit
  · rw [if_pos hitcm] at hclassify
    cases hclassify
    obtain ⟨rfl, hhit⟩ := hitcm
    exact agrees_itcm hfresh hallocated hhit
  rw [if_neg hitcm] at hclassify
  by_cases hdtcm : active = .arm9 ∧ addr - core.fast.dtcmBase < core.fast.dtcmLimit
  · rw [if_pos hdtcm] at hclassify
    cases hclassify
    obtain ⟨rfl, hhit⟩ := hdtcm
    exact agrees_dtcm hfresh hallocated (fun h => hitcm ⟨rfl, h⟩) hhit fun h => hwrap ⟨rfl, h⟩
  rw [if_neg hdtcm] at hclassify
  have htcm := resolveTcm_eq_none hfresh hallocated hlen hitcm hdtcm
  split at hclassify
  · next hhit =>
      cases hclassify
      exact agrees_main hfresh hallocated htcm hhit
  · split at hclassify
    · next hhit =>
        cases hclassify
        exact agrees_wramLo hfresh hallocated htcm hhit
    · split at hclassify
      · next hhit =>
          cases hclassify
          exact agrees_wramHi hfresh hallocated htcm hhit
      · cases hclassify

/-- A classified offset is inside its window, so the byte access needs no
bound test, and no bound test of a wider one overflows. -/
theorem classify_offset_le_mask {active : NdsCpu} {w : NdsBusFastWin} {off : UInt32}
    (hclassify : ndsBusfClassify core.fast active addr = some (w, off)) :
    off.toNat ≤ w.mask.toNat ∧ w.mask.toNat < 0x400000 := by
  have hmasked (mask : UInt32) : (addr &&& mask).toNat ≤ mask.toNat := by
    rw [UInt32.toNat_and]
    exact Nat.and_le_right
  have hfast := fast_eq hfresh hallocated
  unfold ndsBusfClassify at hclassify
  split at hclassify
  · cases hclassify
    refine ⟨hmasked _, ?_⟩
    rw [hfast]
    change (0x00007FFF : UInt32).toNat < 0x400000
    decide
  · split at hclassify
    · next hhit =>
        cases hclassify
        have hspan : (addr - core.fast.dtcmBase).toNat < 0x4000 :=
          UInt32.lt_iff_toNat_lt.mp ((dtcmLimit_hit hfresh hallocated _).mp hhit.2).2.2.2
        have hmask : core.fast.dtcm.mask.toNat = 0x3FFF := by
          rw [hfast]
          rfl
        omega
    · split at hclassify
      · cases hclassify
        refine ⟨hmasked _, ?_⟩
        rw [hfast]
        change (0x003FFFFF : UInt32).toNat < 0x400000
        decide
      · split at hclassify
        · cases hclassify
          refine ⟨hmasked _, ?_⟩
          rw [hfast]
          exact wramLoWindow_mask_lt core.wramcnt active
        · split at hclassify
          · cases hclassify
            refine ⟨hmasked _, ?_⟩
            rw [hfast]
            change (0x0000FFFF : UInt32).toNat < 0x400000
            decide
          · cases hclassify

end Classify

end NdsRecomp.Bus
