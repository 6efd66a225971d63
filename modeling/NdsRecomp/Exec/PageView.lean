import NdsRecomp.Exec.CodeBytes

/-!
What a CPU sees is decided page by page: the directly addressed memories, the
TCM windows and the VRAM banks are all whole, page-aligned multiples of 4 KiB
as long as the TCM windows are. Then one page of guest addresses is one page of
physical memory, a content check compares the bytes the CPU sees, and the check
depends on nothing but the physical pages behind its range.
-/

namespace NdsRecomp.Exec

open Library Bus Dispatch Video VramState

/-- The enabled TCM windows are whole pages. The registers can ask for less
(512, 1024 or 2048 bytes). -/
structure TcmPaged (cp15 : Cp15State) : Prop where
  itcm : cp15.itcmEnable = true → cp15.itcmSize.toNat % 4096 = 0
  dtcm : cp15.dtcmEnable = true → cp15.dtcmSize.toNat % 4096 = 0
  base : cp15.dtcmBase.toNat % 4096 = 0

def pageBase (addr : UInt32) : UInt32 := addr &&& ~~~0xFFF

/-- The pointer `r` bytes on. -/
def shiftPtr (r : Nat) (p : BackingPtr) : BackingPtr := ⟨p.backing, p.offset + r⟩

theorem pageBase_toNat (addr : UInt32) :
    (pageBase addr).toNat = addr.toNat / 4096 * 4096 := by
  have haddr := addr.toNat_lt
  have hsplit : addr.toNat &&& (~~~(0xFFF : UInt32)).toNat = addr.toNat / 4096 * 4096 := by
    apply Nat.eq_of_testBit_eq
    intro i
    have hmul : addr.toNat / 4096 * 4096 = (addr.toNat >>> 12) <<< 12 := by
      rw [Nat.shiftLeft_eq, Nat.shiftRight_eq_div_pow]
    have hmask : (~~~(0xFFF : UInt32)).toNat = (2 ^ 20 - 1) <<< 12 := by decide
    rw [hmul, hmask, Nat.testBit_and, Nat.testBit_shiftLeft, Nat.testBit_shiftLeft,
      Nat.testBit_shiftRight, Nat.testBit_two_pow_sub_one]
    by_cases hlow : 12 ≤ i
    · have hi : 12 + (i - 12) = i := by omega
      by_cases hhigh : i < 32
      · have : i - 12 < 20 := by omega
        simp [hlow, this, hi]
      · have hzero : addr.toNat.testBit i = false :=
          Nat.testBit_lt_two_pow (lt_of_lt_of_le haddr (Nat.pow_le_pow_right (by decide) (by omega)))
        simp [hi, hzero]
    · simp [hlow]
  rw [pageBase, UInt32.toNat_and]
  exact hsplit

/-- Masking keeps the offset in the page. -/
theorem and_mask_page (addr mask : UInt32) (k : Nat) (hk : 12 ≤ k)
    (hmask : mask.toNat = 2 ^ k - 1) :
    (addr &&& mask).toNat = (pageBase addr &&& mask).toNat + addr.toNat % 4096 ∧
      (pageBase addr &&& mask).toNat % 4096 = 0 := by
  obtain ⟨j, rfl⟩ := Nat.exists_eq_add_of_le hk
  have hpow : 2 ^ (12 + j) = 4096 * 2 ^ j := by rw [Nat.pow_add]
  rw [toNat_and_mask addr mask _ hmask, toNat_and_mask (pageBase addr) mask _ hmask,
    pageBase_toNat, hpow, Nat.mul_comm (addr.toNat / 4096) 4096, Nat.mul_mod_mul_left,
    Nat.mod_mul]
  omega

/-- A bound that is a multiple of the page size does not split a page. -/
theorem lt_page_iff {addr : UInt32} {bound : Nat} (hbound : bound % 4096 = 0) :
    addr.toNat < bound ↔ (pageBase addr).toNat < bound := by
  rw [pageBase_toNat]
  omega

theorem le_page_iff {addr : UInt32} {bound : Nat} (hbound : bound % 4096 = 0) :
    bound ≤ addr.toNat ↔ bound ≤ (pageBase addr).toNat := by
  rw [pageBase_toNat]
  omega

/-! ### Directly addressed memory -/

section Resolve

variable {addr : UInt32} {len : Nat} (hlen : 0 < len) (hfits : addr.toNat % 4096 + len ≤ 4096)

include hlen hfits

theorem backingAt_page (backing : Backing) {o : Nat} (ho : o % 4096 = 0) :
    backingAt backing (o + addr.toNat % 4096) len =
      (backingAt backing o 4096).map (shiftPtr (addr.toNat % 4096)) := by
  have hsize : backing.size % 4096 = 0 := by cases backing <;> rfl
  unfold backingAt
  by_cases h : o + 4096 ≤ backing.size
  · rw [if_pos h, if_pos (by omega)]
    rfl
  · rw [if_neg h, if_neg (by omega)]
    rfl

/-- A region test that is uniform over pages, with a page-aligned offset. -/
theorem region_page {P Q : Prop} [Decidable P] [Decidable Q] (hPQ : P ↔ Q) (backing : Backing)
    {o base : Nat} (ho : P → o = base + addr.toNat % 4096) (hbase : Q → base % 4096 = 0) :
    (if P then backingAt backing o len else none) =
      (if Q then backingAt backing base 4096 else none).map
        (shiftPtr (addr.toNat % 4096)) := by
  by_cases h : P
  · rw [if_pos h, if_pos (hPQ.mp h), ho h]
    exact backingAt_page hlen hfits backing (hbase (hPQ.mp h))
  · rw [if_neg h, if_neg (mt hPQ.mpr h)]
    rfl

theorem resolveItcm_page {cp15 : Cp15State} (hpaged : TcmPaged cp15) :
    resolveItcm cp15 addr len =
      (resolveItcm cp15 (pageBase addr) 4096).map (shiftPtr (addr.toNat % 4096)) := by
  obtain ⟨hoffset, hbase⟩ := and_mask_page addr 0x7FFF 15 (by decide) (by decide)
  refine region_page hlen hfits ?_ .itcm (fun _ => hoffset) fun _ => hbase
  simp only [UInt32.lt_iff_toNat_lt, UInt32.reduceToNat]
  constructor
  · rintro ⟨henable, hsize, hmain, hlimit⟩
    have hpage := hpaged.itcm henable
    exact ⟨henable, hsize, (lt_page_iff (by decide)).mp hmain,
      (lt_page_iff hpage).mp hlimit⟩
  · rintro ⟨henable, hsize, hmain, hlimit⟩
    have hpage := hpaged.itcm henable
    exact ⟨henable, hsize, (lt_page_iff (by decide)).mpr hmain,
      (lt_page_iff hpage).mpr hlimit⟩

theorem resolveDtcm_page {cp15 : Cp15State} (hpaged : TcmPaged cp15) :
    resolveDtcm cp15 addr len =
      (resolveDtcm cp15 (pageBase addr) 4096).map (shiftPtr (addr.toNat % 4096)) := by
  have hbase := hpaged.base
  have hpage := pageBase_toNat addr
  have hbound := addr.toNat_lt
  have hbaseBound := cp15.dtcmBase.toNat_lt
  have hsub (a : UInt32) (h : cp15.dtcmBase.toNat ≤ a.toNat) :
      (a - cp15.dtcmBase).toNat = a.toNat - cp15.dtcmBase.toNat := by
    have ha := a.toNat_lt
    rw [UInt32.toNat_sub]
    omega
  have hiff : (cp15.dtcmEnable = true ∧ cp15.dtcmSize ≠ 0 ∧ addr ≥ cp15.dtcmBase ∧
      addr - cp15.dtcmBase < cp15.dtcmSize) ↔
      (cp15.dtcmEnable = true ∧ cp15.dtcmSize ≠ 0 ∧ pageBase addr ≥ cp15.dtcmBase ∧
        pageBase addr - cp15.dtcmBase < cp15.dtcmSize) := by
    simp only [ge_iff_le, UInt32.le_iff_toNat_le, UInt32.lt_iff_toNat_lt]
    constructor
    · rintro ⟨henable, hsize, hlow, hspan⟩
      have hsizePage := hpaged.dtcm henable
      have hlow' : cp15.dtcmBase.toNat ≤ (pageBase addr).toNat :=
        (le_page_iff hbase).mp hlow
      rw [hsub _ hlow] at hspan
      refine ⟨henable, hsize, hlow', ?_⟩
      rw [hsub _ hlow']
      omega
    · rintro ⟨henable, hsize, hlow, hspan⟩
      have hsizePage := hpaged.dtcm henable
      have hlow' : cp15.dtcmBase.toNat ≤ addr.toNat :=
        (le_page_iff hbase).mpr hlow
      rw [hsub _ hlow] at hspan
      refine ⟨henable, hsize, hlow', ?_⟩
      rw [hsub _ hlow']
      omega
  refine region_page hlen hfits hiff .dtcm ?_ ?_
  · rintro ⟨-, -, hlow, -⟩
    rw [ge_iff_le, UInt32.le_iff_toNat_le] at hlow
    have hlow' := (le_page_iff hbase).mp hlow
    rw [hsub _ hlow, hsub _ hlow']
    omega
  · rintro ⟨-, -, hlow, -⟩
    rw [ge_iff_le, UInt32.le_iff_toNat_le] at hlow
    rw [hsub _ hlow]
    omega

theorem resolveMainRam_page :
    resolveMainRam addr len =
      (resolveMainRam (pageBase addr) 4096).map (shiftPtr (addr.toNat % 4096)) := by
  obtain ⟨hoffset, hbase⟩ := and_mask_page addr 0x003FFFFF 22 (by decide) (by decide)
  refine region_page hlen hfits ?_ .mainRam (fun _ => hoffset) fun _ => hbase
  simp only [ge_iff_le, UInt32.le_iff_toNat_le, UInt32.lt_iff_toNat_lt, UInt32.reduceToNat]
  rw [le_page_iff (by decide), lt_page_iff (by decide)]

theorem resolveArm7Wram_page :
    resolveArm7Wram addr len =
      (resolveArm7Wram (pageBase addr) 4096).map (shiftPtr (addr.toNat % 4096)) := by
  obtain ⟨hoffset, hbase⟩ := and_mask_page addr 0xFFFF 16 (by decide) (by decide)
  refine region_page hlen hfits ?_ .arm7Wram (fun _ => hoffset) fun _ => hbase
  simp only [ge_iff_le, UInt32.le_iff_toNat_le, UInt32.lt_iff_toNat_lt, UInt32.reduceToNat]
  rw [le_page_iff (by decide), lt_page_iff (by decide)]

theorem resolveBios_page (cpu : NdsCpu) :
    resolveBios cpu addr len =
      (resolveBios cpu (pageBase addr) 4096).map (shiftPtr (addr.toNat % 4096)) := by
  cases cpu with
  | arm9 =>
      obtain ⟨hoffset, hbase⟩ := and_mask_page addr 0xFFF 12 (by decide) (by decide)
      refine region_page hlen hfits ?_ .arm9Bios (fun _ => hoffset) fun _ => hbase
      simp only [ge_iff_le, UInt32.le_iff_toNat_le, UInt32.reduceToNat]
      rw [le_page_iff (by decide)]
  | arm7 =>
      obtain ⟨hoffset, hbase⟩ := and_mask_page addr 0x3FFF 14 (by decide) (by decide)
      refine region_page hlen hfits ?_ .arm7Bios (fun _ => hoffset) fun _ => hbase
      simp only [UInt32.lt_iff_toNat_lt, UInt32.reduceToNat]
      rw [lt_page_iff (by decide)]

/-- The shared WRAM is split at multiples of the page size. -/
theorem resolveSharedWram_page (wramcnt : UInt8) (cpu : NdsCpu) :
    resolveSharedWram wramcnt cpu addr len =
      (resolveSharedWram wramcnt cpu (pageBase addr) 4096).map
        (shiftPtr (addr.toNat % 4096)) := by
  obtain ⟨hoffset15, hbase15⟩ := and_mask_page addr 0x7FFF 15 (by decide) (by decide)
  obtain ⟨hoffset14, hbase14⟩ := and_mask_page addr 0x3FFF 14 (by decide) (by decide)
  obtain ⟨hoffset16, hbase16⟩ := and_mask_page addr 0xFFFF 16 (by decide) (by decide)
  have hwhole := backingAt_page hlen hfits .sharedWram hbase15
  have hprivate := backingAt_page hlen hfits .arm7Wram hbase16
  have hhalf (base : Nat) (h : base % 4096 = 0) :
      backingAt .sharedWram (base + (addr &&& 0x3FFF).toNat) len =
        (backingAt .sharedWram (base + (pageBase addr &&& 0x3FFF).toNat) 4096).map
          (shiftPtr (addr.toNat % 4096)) := by
    rw [hoffset14, ← Nat.add_assoc]
    exact backingAt_page hlen hfits .sharedWram (by omega)
  rw [← hoffset15] at hwhole
  rw [← hoffset16] at hprivate
  have hregion : (addr ≥ 0x03000000 ∧ addr < 0x03800000) ↔
      (pageBase addr ≥ 0x03000000 ∧ pageBase addr < 0x03800000) := by
    simp only [ge_iff_le, UInt32.le_iff_toNat_le, UInt32.lt_iff_toNat_lt, UInt32.reduceToNat]
    exact and_congr (le_page_iff (by decide)) (lt_page_iff (by decide))
  unfold resolveSharedWram
  by_cases h : addr ≥ 0x03000000 ∧ addr < 0x03800000
  · rw [if_pos h, if_pos (hregion.mp h)]
    cases cpu with
    | arm9 =>
        dsimp only
        split
        · exact hwhole
        split
        · split
          · exact hhalf 0x4000 (by decide)
          · exact hhalf 0 (by decide)
        · rfl
    | arm7 =>
        dsimp only
        split
        · exact hprivate
        split
        · split
          · exact hhalf 0 (by decide)
          · exact hhalf 0x4000 (by decide)
        · exact hwhole
  · rw [if_neg h, if_neg (mt hregion.mpr h)]
    rfl

/-- One page of guest addresses resolves to one page of a backing. -/
theorem resolve_page {core : BusCore} (hpaged : TcmPaged core.cp15.visible) (cpu : NdsCpu) :
    resolve core cpu addr len =
      (resolve core cpu (pageBase addr) 4096).map (shiftPtr (addr.toNat % 4096)) := by
  have htcm : resolveTcm core.cp15.visible cpu addr len =
      (resolveTcm core.cp15.visible cpu (pageBase addr) 4096).map
        (shiftPtr (addr.toNat % 4096)) := by
    cases cpu with
    | arm7 => rfl
    | arm9 =>
        unfold resolveTcm
        rw [resolveItcm_page hlen hfits hpaged, resolveDtcm_page hlen hfits hpaged,
          Option.map_or]
  unfold resolve
  rw [htcm, resolveMainRam_page hlen hfits, resolveSharedWram_page hlen hfits,
    resolveArm7Wram_page hlen hfits, resolveBios_page hlen hfits]
  simp only [Option.map_or]

end Resolve

/-! ### Resolved pages are aligned -/

def Aligned (page : Option BackingPtr) : Prop := ∀ p, page = some p → p.offset % 4096 = 0

theorem Aligned.or {a b : Option BackingPtr} (ha : Aligned a) (hb : Aligned b) :
    Aligned (a.or b) := by
  intro p h
  rcases Option.or_eq_some_iff.mp h with h | ⟨-, h⟩
  · exact ha p h
  · exact hb p h

theorem aligned_none : Aligned none := by
  rintro p ⟨⟩

theorem aligned_backingAt (backing : Backing) {o : Nat} (len : Nat) (ho : o % 4096 = 0) :
    Aligned (backingAt backing o len) := by
  intro p h
  obtain ⟨rfl, -⟩ := backingAt_eq_some h
  exact ho

theorem aligned_region {P : Prop} [Decidable P] {page : Option BackingPtr}
    (h : P → Aligned page) : Aligned (if P then page else none) := by
  by_cases hP : P
  · rw [if_pos hP]
    exact h hP
  · rw [if_neg hP]
    exact aligned_none

theorem resolveSharedWram_aligned (wramcnt : UInt8) (cpu : NdsCpu) (addr : UInt32) :
    Aligned (resolveSharedWram wramcnt cpu (pageBase addr) 4096) := by
  obtain ⟨-, h15⟩ := and_mask_page addr 0x7FFF 15 (by decide) (by decide)
  obtain ⟨-, h14⟩ := and_mask_page addr 0x3FFF 14 (by decide) (by decide)
  obtain ⟨-, h16⟩ := and_mask_page addr 0xFFFF 16 (by decide) (by decide)
  refine aligned_region fun _ => ?_
  have hhalf (P : Prop) [Decidable P] (x y : Nat) (hx : x % 4096 = 0) (hy : y % 4096 = 0) :
      Aligned (backingAt .sharedWram
        ((if P then x else y) + (pageBase addr &&& 0x3FFF).toNat) 4096) := by
    apply aligned_backingAt
    split
    · omega
    · omega
  cases cpu with
  | arm9 =>
      dsimp only
      split
      · exact aligned_backingAt _ _ h15
      split
      · exact hhalf _ _ _ (by decide) (by decide)
      · exact aligned_none
  | arm7 =>
      dsimp only
      split
      · exact aligned_backingAt _ _ h16
      split
      · exact hhalf _ _ _ (by decide) (by decide)
      · exact aligned_backingAt _ _ h15

theorem resolve_aligned {core : BusCore} (hpaged : TcmPaged core.cp15.visible) (cpu : NdsCpu)
    (addr : UInt32) : Aligned (resolve core cpu (pageBase addr) 4096) := by
  obtain ⟨-, h12⟩ := and_mask_page addr 0xFFF 12 (by decide) (by decide)
  obtain ⟨-, h14⟩ := and_mask_page addr 0x3FFF 14 (by decide) (by decide)
  obtain ⟨-, h15⟩ := and_mask_page addr 0x7FFF 15 (by decide) (by decide)
  obtain ⟨-, h16⟩ := and_mask_page addr 0xFFFF 16 (by decide) (by decide)
  obtain ⟨-, h22⟩ := and_mask_page addr 0x003FFFFF 22 (by decide) (by decide)
  have hdtcm : Aligned (resolveDtcm core.cp15.visible (pageBase addr) 4096) := by
    refine aligned_region ?_
    rintro ⟨-, -, hlow, -⟩
    have hbase := hpaged.base
    have hpage := pageBase_toNat addr
    have hbound := (pageBase addr).toNat_lt
    have hsub := UInt32.toNat_sub_of_le _ _ hlow
    exact aligned_backingAt _ _ (by omega)
  refine Aligned.or ?_ (Aligned.or ?_ (Aligned.or ?_ (Aligned.or ?_ ?_)))
  · cases cpu with
    | arm7 => exact aligned_none
    | arm9 =>
        exact (aligned_region fun _ => aligned_backingAt _ _ h15).or hdtcm
  · exact aligned_region fun _ => aligned_backingAt _ _ h22
  · exact resolveSharedWram_aligned core.wramcnt cpu addr
  · exact aligned_region fun _ => aligned_backingAt _ _ h16
  · cases cpu with
    | arm9 => exact aligned_region fun _ => aligned_backingAt _ _ h12
    | arm7 => exact aligned_region fun _ => aligned_backingAt _ _ h14

/-! ### Video memory -/

theorem bankMask_toNat (bank : VramBank) :
    ∃ k, 12 ≤ k ∧ (bankMask bank).toNat = 2 ^ k - 1 ∧ kBankSize bank = 2 ^ k := by
  fin_cases bank
  · exact ⟨17, by decide, by decide, by decide⟩
  · exact ⟨17, by decide, by decide, by decide⟩
  · exact ⟨17, by decide, by decide, by decide⟩
  · exact ⟨17, by decide, by decide, by decide⟩
  · exact ⟨16, by decide, by decide, by decide⟩
  · exact ⟨14, by decide, by decide, by decide⟩
  · exact ⟨14, by decide, by decide, by decide⟩
  · exact ⟨15, by decide, by decide, by decide⟩
  · exact ⟨14, by decide, by decide, by decide⟩

/-- Banks are page aligned and lie inside the array. -/
theorem bank_bounds (bank : VramBank) :
    kBankOffset bank % 4096 = 0 ∧ kBankOffset bank + kBankSize bank ≤ kTotalVram := by
  revert bank
  decide

/-- Masks that ignore the offset in a page. -/
theorem pageBase_and {mask : UInt32} (hmask : ~~~0xFFF &&& mask = mask) (addr : UInt32) :
    pageBase addr &&& mask = addr &&& mask := by
  rw [pageBase, UInt32.and_assoc, hmask]

theorem pageBase_shiftRight_14 (addr : UInt32) :
    (pageBase addr >>> 14).toNat = (addr >>> 14).toNat := by
  rw [UInt32.toNat_shiftRight, UInt32.toNat_shiftRight, pageBase_toNat]
  simp only [UInt32.reduceToNat, Nat.reduceMod, Nat.shiftRight_eq_div_pow]
  omega

theorem pageBase_shiftRight_17 (addr : UInt32) :
    (pageBase addr >>> 17).toNat = (addr >>> 17).toNat := by
  rw [UInt32.toNat_shiftRight, UInt32.toNat_shiftRight, pageBase_toNat]
  simp only [UInt32.reduceToNat, Nat.reduceMod, Nat.shiftRight_eq_div_pow]
  omega

/-- `page` is where the page of an address lives and `here` where the address
itself does. -/
def SamePage (r : Nat) (here page : Option Nat) : Prop :=
  here = page.map (· + r) ∧ ∀ physical, page = some physical →
    physical % 4096 = 0 ∧ physical + 4096 ≤ kTotalVram

theorem samePage_none (r : Nat) : SamePage r none none := ⟨rfl, by simp⟩

section Vram

variable (addr : UInt32)

/-- The in-bank offset of an address and of its page. -/
theorem samePage_bank (bank : VramBank) :
    SamePage (addr.toNat % 4096) (some (kBankOffset bank + (addr &&& bankMask bank).toNat))
      (some (kBankOffset bank + (pageBase addr &&& bankMask bank).toNat)) := by
  obtain ⟨k, hk, hmask, hsize⟩ := bankMask_toNat bank
  obtain ⟨haligned, htotal⟩ := bank_bounds bank
  obtain ⟨hoffset, hpage⟩ := and_mask_page addr _ k hk hmask
  have hbound : (pageBase addr &&& bankMask bank).toNat < kBankSize bank := by
    rw [toNat_and_mask _ _ _ hmask, hsize]
    exact Nat.mod_lt _ (by positivity)
  obtain ⟨j, rfl⟩ := Nat.exists_eq_add_of_le hk
  rw [Nat.pow_add] at hsize
  refine ⟨?_, ?_⟩
  · rw [hoffset, ← Nat.add_assoc]
    rfl
  · rintro physical hphysical
    cases hphysical
    omega

theorem samePage_singleMask (mask : UInt16) :
    SamePage (addr.toNat % 4096) (physicalFromSingleMask mask addr)
      (physicalFromSingleMask mask (pageBase addr)) := by
  unfold physicalFromSingleMask
  by_cases hmask : mask = 0 ∨ mask &&& (mask - 1) ≠ 0
  · rw [if_pos hmask, if_pos hmask]
    exact samePage_none _
  rw [if_neg hmask, if_neg hmask]
  by_cases hbank : lowestBit mask < 9
  · rw [dif_pos hbank, dif_pos hbank]
    have hsame := samePage_bank addr ⟨lowestBit mask, hbank⟩
    obtain ⟨haddr, hpage⟩ := hsame
    obtain ⟨-, hbound⟩ := hpage _ rfl
    have hbound' := Option.some.inj haddr
    have hr : addr.toNat % 4096 < 4096 := Nat.mod_lt _ (by decide)
    dsimp only at hbound' ⊢
    rw [if_pos (by omega), if_pos (by omega)]
    exact ⟨haddr, hpage⟩
  · rw [dif_neg hbank, dif_neg hbank]
    exact samePage_none _

private theorem bankMask_low : ∀ bank : VramBank, bank.val < 4 → bankMask bank = 0x1FFFF := by
  decide

/-- An LCDC hit carries the in-bank offset of its bank. -/
theorem lcdcBank_offset {hit : VramBank × UInt32} (h : lcdcBank addr = some hit) :
    hit.2 = addr &&& bankMask hit.1 := by
  unfold lcdcBank at h
  split_ifs at h
  · cases h
    exact congrArg (addr &&& ·) (bankMask_low _ (Nat.mod_lt _ (by decide))).symm
  all_goals
    cases h
    rfl

/-- The LCDC window lays the banks out at page boundaries. -/
theorem lcdcBank_page :
    (lcdcBank addr).map Prod.fst = (lcdcBank (pageBase addr)).map Prod.fst := by
  have hregion (low high : UInt32) (hlow : low.toNat % 4096 = 0) (hhigh : high.toNat % 4096 = 0) :
      (addr ≥ low ∧ addr < high) ↔ (pageBase addr ≥ low ∧ pageBase addr < high) := by
    simp only [ge_iff_le, UInt32.le_iff_toNat_le, UInt32.lt_iff_toNat_lt]
    exact and_congr (le_page_iff hlow) (lt_page_iff hhigh)
  have habcd := hregion 0x06800000 0x06880000 (by decide) (by decide)
  have he := hregion 0x06880000 0x06890000 (by decide) (by decide)
  have hf := hregion 0x06890000 0x06894000 (by decide) (by decide)
  have hg := hregion 0x06894000 0x06898000 (by decide) (by decide)
  have hh := hregion 0x06898000 0x068A0000 (by decide) (by decide)
  have hi := hregion 0x068A0000 0x068A4000 (by decide) (by decide)
  unfold lcdcBank
  by_cases hlow : addr ≥ 0x06800000 ∧ addr < 0x06880000
  · have hpage := habcd.mp hlow
    have hshift : ((addr - 0x06800000) >>> 17).toNat =
        ((pageBase addr - 0x06800000) >>> 17).toNat := by
      have haddr := UInt32.toNat_sub_of_le _ _ hlow.1
      have hbase := UInt32.toNat_sub_of_le _ _ hpage.1
      rw [UInt32.toNat_shiftRight, UInt32.toNat_shiftRight, haddr, hbase, pageBase_toNat]
      simp only [UInt32.reduceToNat, Nat.reduceMod, Nat.shiftRight_eq_div_pow]
      omega
    simp only [if_pos hlow, if_pos hpage, Option.map_some, hshift]
  · rw [if_neg hlow, if_neg (mt habcd.mpr hlow)]
    simp only [he, hf, hg, hh, hi]
    split_ifs
    all_goals rfl

theorem samePage_lcdc (lcdc : UInt16) :
    SamePage (addr.toNat % 4096)
      ((lcdcBank addr).bind fun hit =>
        if maskHas lcdc hit.1 then some (kBankOffset hit.1 + hit.2.toNat) else none)
      ((lcdcBank (pageBase addr)).bind fun hit =>
        if maskHas lcdc hit.1 then some (kBankOffset hit.1 + hit.2.toNat) else none) := by
  have hbanks := lcdcBank_page addr
  cases hhere : lcdcBank addr with
  | none =>
      cases hpage : lcdcBank (pageBase addr) with
      | none => exact samePage_none _
      | some page => simp [hhere, hpage] at hbanks
  | some here =>
      cases hpage : lcdcBank (pageBase addr) with
      | none => simp [hhere, hpage] at hbanks
      | some page =>
          have hbank : here.1 = page.1 := by simpa [hhere, hpage] using hbanks
          simp only [Option.bind_some, lcdcBank_offset addr hhere,
            lcdcBank_offset (pageBase addr) hpage, hbank]
          split
          · exact samePage_bank addr page.1
          · exact samePage_none _

/-- `physical < kTotalVram` never fails for an offset inside a bank. -/
private theorem samePage_bounded {r : Nat} (hr : r < 4096) {here page : Option Nat}
    (h : SamePage r here page) :
    SamePage r (here.filter fun physical => physical < kTotalVram)
      (page.filter fun physical => physical < kTotalVram) := by
  obtain ⟨rfl, hpage⟩ := h
  cases page with
  | none => exact samePage_none r
  | some physical =>
      obtain ⟨haligned, hbound⟩ := hpage physical rfl
      have hhere : physical + r < kTotalVram := by omega
      have hbase : physical < kTotalVram := by omega
      simp only [Option.map_some, Option.filter_some, hhere, hbase, decide_true, if_true]
      exact ⟨rfl, hpage⟩

/-- One page of video memory addresses is one page of one bank. -/
theorem execPhysicalOffset_page (v : VramState) (cpu : NdsCpu) :
    SamePage (addr.toNat % 4096) (v.execPhysicalOffset cpu addr)
      (v.execPhysicalOffset cpu (pageBase addr)) := by
  have hr : addr.toNat % 4096 < 4096 := Nat.mod_lt _ (by decide)
  have hwindow : pageBase addr &&& 0xFF000000 = addr &&& 0xFF000000 :=
    pageBase_and (by decide) addr
  unfold execPhysicalOffset
  rw [hwindow]
  by_cases hvideo : addr &&& 0xFF000000 ≠ 0x06000000
  · rw [if_pos hvideo, if_pos hvideo]
    exact samePage_none _
  rw [if_neg hvideo, if_neg hvideo]
  cases cpu with
  | arm7 =>
      have hmask : v.arm7Mask (pageBase addr) = v.arm7Mask addr := by
        unfold arm7Mask
        rw [pageBase_shiftRight_17]
      dsimp only
      rw [hmask]
      exact samePage_singleMask addr _
  | arm9 =>
      have hmask : v.arm9Mask (pageBase addr) = v.arm9Mask addr := by
        unfold arm9Mask
        rw [pageBase_and (by decide) addr, pageBase_shiftRight_14]
      dsimp only
      rw [hmask]
      cases v.arm9Mask addr with
      | some mask => exact samePage_singleMask addr mask
      | none =>
          have hlcdc := samePage_bounded hr (samePage_lcdc addr v.lcdc)
          convert hlcdc using 1
          -- the bank lookup, once for the address and once for its page
          all_goals
            generalize lcdcBank _ = found
            cases found with
            | none => rfl
            | some hit =>
                simp only [Option.bind_some]
                split
                · simp [Option.filter]
                · rfl

end Vram

end NdsRecomp.Exec
