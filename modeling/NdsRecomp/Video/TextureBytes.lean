import NdsRecomp.Video.CaptureStore
import NdsRecomp.Video.RendererView

/-!
The bytes of the texture and texture palette spaces, as the VRAMCNT registers
define them, and what guest stores do to them: nothing, since a bank that shows
textures is mapped nowhere else.
-/

namespace NdsRecomp.Video

open Bus Library

/-- Textures are mode 3 of banks A to D; the offset field is the slot. -/
def inTextureSlot (cnt : UInt8) (slot : Nat) (bank : VramBank) : Bool :=
  decide (bank.val < 4) && cnt &&& 0x80 != 0 &&
    decide (cnt.toNat % (if bank.val < 2 then 4 else 8) = 3) &&
    decide ((cnt >>> 3).toNat % 4 = slot)

/-- Palettes are mode 3 of banks E, F and G. Bank E fills the first four slots. -/
def inTexpalSlot (cnt : UInt8) (slot : Nat) (bank : VramBank) : Bool :=
  cnt &&& 0x80 != 0 && decide (cnt.toNat % 8 = 3) &&
    if bank.val = 4 then decide (slot < 4)
    else decide (bank.val = 5 ∨ bank.val = 6) &&
      decide ((cnt >>> 3).toNat % 8 % 2 + (cnt >>> 3).toNat % 8 / 2 % 2 * 4 = slot)

/-- Byte `i` of a space, ORed over the banks shown there. -/
def orBanks (v : VramState) (shown : VramBank → Bool) (i : Nat) : UInt8 :=
  (List.finRange 9).foldl
    (fun byte bank =>
      if shown bank then byte ||| v.vram (kBankOffset bank + i % kBankSize bank) else byte) 0

def textureByte (v : VramState) (i : Nat) : UInt8 :=
  orBanks v (fun bank => inTextureSlot (v.cnt bank) (i / 0x20000) bank) i

def texpalByte (v : VramState) (i : Nat) : UInt8 :=
  orBanks v (fun bank => inTexpalSlot (v.cnt bank) (i / 0x4000) bank) i

/-! ### Mapped reads, bank by bank -/

/-- A mask with one bit set names one bank. -/
theorem maskHas_single {mask : UInt16} (hsingle : mask ≠ 0 ∧ mask &&& (mask - 1) = 0)
    {bank bank' : VramBank} (h : VramState.maskHas mask bank = true)
    (h' : VramState.maskHas mask bank' = true) : bank = bank' := by
  have hpos : mask.toNat ≠ 0 := fun hzero => hsingle.1 (UInt16.toNat_inj.mp hzero)
  have hsub : (mask - 1).toNat = mask.toNat - 1 :=
    UInt16.toNat_sub_of_le _ _ (UInt16.le_iff_toNat_le.mpr (Nat.pos_of_ne_zero hpos))
  have hand : mask.toNat &&& (mask.toNat - 1) = 0 := by
    have hnat := congrArg UInt16.toNat hsingle.2
    rwa [UInt16.toNat_and, hsub] at hnat
  obtain ⟨k, hk⟩ := Nat.ne_zero_and_sub_one_eq_zero_iff_isPowerOfTwo.mp ⟨hpos, hand⟩
  have hbit (b : VramBank) (hb : VramState.maskHas mask b = true) : k = b.val := by
    rw [maskHas_eq] at hb
    change mask.toNat.testBit b.val = true at hb
    rw [hk, Nat.testBit_two_pow] at hb
    exact of_decide_eq_true hb
  exact Fin.ext ((hbit bank h).symm.trans (hbit bank' h'))

theorem lowestBit_le {mask : UInt16} {bank : VramBank} (h : VramState.maskHas mask bank = true) :
    VramState.lowestBit mask ≤ bank.val := by
  have hbit : (mask &&& ((1 : UInt16) <<< UInt16.ofNat bank.val) != 0) = true := h
  unfold VramState.lowestBit
  cases hfound : (List.range 16).find? fun i =>
      mask &&& ((1 : UInt16) <<< UInt16.ofNat i) != 0 with
  | none =>
      have hnone := List.find?_eq_none.mp hfound bank.val (List.mem_range.mpr (by omega))
      exact absurd hbit hnone
  | some i =>
      obtain ⟨-, -, hbefore⟩ := List.find?_range_eq_some.mp hfound
      by_contra hlt
      have hnot := hbefore bank.val (Nat.not_le.mp hlt)
      rw [hbit] at hnot
      cases hnot

theorem orBanks_single {v : VramState} {shown : VramBank → Bool} {bank : VramBank}
    (hshown : shown bank = true) (honly : ∀ bank', shown bank' = true → bank' = bank) (i : Nat) :
    orBanks v shown i = v.vram (kBankOffset bank + i % kBankSize bank) := by
  have hfold (banks : List VramBank) (hnodup : banks.Nodup) (byte : UInt8) :
      banks.foldl (fun byte bank =>
        if shown bank then byte ||| v.vram (kBankOffset bank + i % kBankSize bank) else byte)
        byte =
      if bank ∈ banks then byte ||| v.vram (kBankOffset bank + i % kBankSize bank) else byte := by
    induction banks generalizing byte with
    | nil => rfl
    | cons head rest ih =>
        obtain ⟨hhead, hrest⟩ := List.nodup_cons.mp hnodup
        rw [List.foldl_cons, ih hrest]
        by_cases hsame : head = bank
        · subst hsame
          rw [if_neg hhead, if_pos hshown, if_pos List.mem_cons_self]
        · have hnot : ¬ shown head = true := fun h => hsame (honly head h)
          rw [if_neg hnot]
          simp [Ne.symm hsame]
  unfold orBanks
  rw [hfold _ (List.nodup_finRange 9), if_pos (List.mem_finRange bank), UInt8.zero_or]

theorem orBanks_none {v : VramState} {shown : VramBank → Bool}
    (hnone : ∀ bank, shown bank = false) (i : Nat) : orBanks v shown i = 0 := by
  have hfold (banks : List VramBank) :
      banks.foldl (fun byte bank =>
        if shown bank then byte ||| v.vram (kBankOffset bank + i % kBankSize bank) else byte)
        0 = 0 := by
    induction banks with
    | nil => rfl
    | cons head rest ih =>
        rw [List.foldl_cons, hnone head]
        exact ih
  exact hfold _

theorem toUInt8_bankRead_ofNat (v : VramState) (bank : VramBank) {i : Nat} (hi : i < 2 ^ 32) :
    (v.bankRead bank (UInt32.ofNat i) .byte).toUInt8 =
      v.vram (kBankOffset bank + i % kBankSize bank) := by
  rw [toUInt8_bankRead, toNat_and_bankMask, toNat_ofNat_of_lt hi]

/-- A mapped byte is the OR over the banks that the mask names. -/
theorem mappedRead_eq_orBanks (v : VramState) (mask : UInt16) {i : Nat}
    (hi : i < 2 ^ 32) :
    (v.mappedRead mask (UInt32.ofNat i) .byte).toUInt8 =
      orBanks v (VramState.maskHas mask) i := by
  unfold VramState.mappedRead
  by_cases hsingle : mask ≠ 0 ∧ mask &&& (mask - 1) = 0
  · rw [if_pos hsingle]
    by_cases hbank : VramState.lowestBit mask < 9
    · have hmem := lowestBit_mem hbank
      rw [dif_pos hbank, toUInt8_bankRead_ofNat v _ hi,
        orBanks_single hmem fun bank' h => maskHas_single hsingle h hmem]
    · rw [dif_neg hbank, orBanks_none]
      · rfl
      · intro bank
        by_contra hhas
        have hle := lowestBit_le (Bool.not_eq_false _ ▸ hhas)
        omega
  · rw [if_neg hsingle]
    have hfold (banks : List VramBank) (word : UInt32) (byte : UInt8)
        (hacc : word.toUInt8 = byte) :
        (banks.foldl (fun value bank => if VramState.maskHas mask bank then
            value ||| v.bankRead bank (UInt32.ofNat i) .byte else value) word).toUInt8 =
          banks.foldl (fun byte bank => if VramState.maskHas mask bank then
            byte ||| v.vram (kBankOffset bank + i % kBankSize bank) else byte) byte := by
      induction banks generalizing word byte with
      | nil => exact hacc
      | cons bank banks ih =>
          refine ih _ _ ?_
          dsimp only
          split
          · rw [UInt32.toUInt8_or, hacc, toUInt8_bankRead_ofNat v bank hi]
          · exact hacc
    exact hfold _ 0 0 rfl

/-! ### Where a control value shows its bank -/

theorem maskHas_setMask (bank : VramBank) (index i : Nat) :
    VramState.maskHas (setMask (fun _ => 0) index (bankBit bank) true i) bank = true ↔ index = i := by
  unfold setMask
  rw [Function.update_apply]
  by_cases hi : i = index
  · subst hi
    rw [if_pos rfl, maskHas_bitset, if_pos rfl]
    exact iff_of_true rfl rfl
  · rw [if_neg hi, maskHas_zero]
    exact iff_of_false Bool.false_ne_true (Ne.symm hi)

theorem maskHas_rangeMap (bank : VramBank) (n base count i : Nat) :
    VramState.maskHas (rangeMap (fun _ => 0) n base count (bankBit bank) true i) bank = true ↔
      base ≤ i ∧ i < base + count ∧ i < n := by
  unfold rangeMap
  by_cases hi : base ≤ i ∧ i < base + count ∧ i < n
  · rw [if_pos hi, maskHas_bitset, if_pos rfl]
    exact iff_of_true rfl hi
  · rw [if_neg hi, maskHas_zero]
    exact iff_of_false Bool.false_ne_true hi

theorem applyMap_texture (bank : VramBank) (cnt : UInt8) :
    (({} : VramState).applyMap bank cnt true).texture =
      if bank.val < 4 ∧ cnt &&& 0x80 ≠ 0 ∧ cnt.toNat % (if bank.val < 2 then 4 else 8) = 3 then
        setMask (fun _ => 0) ((cnt >>> 3).toNat % 4) (bankBit bank) true
      else fun _ => 0 := by
  by_cases hoff : cnt &&& 0x80 = 0
  · rw [if_neg fun h => h.2.1 hoff]
    unfold VramState.applyMap VramState.mapAb VramState.mapCd VramState.mapE VramState.mapFg
      VramState.mapH VramState.mapI
    simp only [if_pos hoff, ite_self]
  unfold VramState.applyMap
  by_cases hab : bank.val < 2
  · have hmode : cnt.toNat % 4 < 4 := Nat.mod_lt _ (by decide)
    simp only [if_pos hab]
    unfold VramState.mapAb
    rw [if_neg hoff]
    generalize cnt.toNat % 4 = mode at hmode
    interval_cases mode
    · simp [VramState.mapLcdc]
    · simp
    · simp
    · rw [if_pos ⟨by omega, hoff, rfl⟩]
      rfl
  by_cases hcd : bank.val < 4
  · have hmode : cnt.toNat % 8 < 8 := Nat.mod_lt _ (by decide)
    have hofs : (cnt >>> 3).toNat % 8 % 4 = (cnt >>> 3).toNat % 4 := by omega
    simp only [if_neg hab, if_pos hcd, ← hofs]
    unfold VramState.mapCd
    rw [if_neg hoff]
    generalize cnt.toNat % 8 = mode at hmode
    interval_cases mode
    · simp [VramState.mapLcdc]
    · simp
    · simp
    · exact (if_pos ⟨hcd, hoff, rfl⟩).symm
    · by_cases hc : bank = 2
      · simp [hc]
      · simp [hc]
    all_goals simp
  · have hother : ¬ (bank.val < 4 ∧ cnt &&& 0x80 ≠ 0 ∧
        cnt.toNat % (if bank.val < 2 then 4 else 8) = 3) := fun h => hcd h.1
    rw [if_neg hab, if_neg hcd, if_neg hother]
    unfold VramState.mapE VramState.mapFg VramState.mapH VramState.mapI VramState.mapLcdc
    split_ifs <;> (try split) <;> rfl

theorem drives_texture_iff (bank : VramBank) (cnt : UInt8) (slot : Nat) :
    drives bank cnt (.texture slot) ↔ inTextureSlot cnt slot bank = true := by
  unfold drives
  change VramState.maskHas ((({} : VramState).applyMap bank cnt true).texture slot) bank = true ↔ _
  rw [applyMap_texture]
  unfold inTextureSlot
  by_cases hmode : bank.val < 4 ∧ cnt &&& 0x80 ≠ 0 ∧
      cnt.toNat % (if bank.val < 2 then 4 else 8) = 3
  · rw [if_pos hmode, maskHas_setMask]
    simp only [Bool.and_eq_true, decide_eq_true_eq, bne_iff_ne, ne_eq]
    exact ⟨fun h => ⟨⟨⟨hmode.1, hmode.2.1⟩, hmode.2.2⟩, h.symm ▸ rfl⟩, fun h => h.2⟩
  · rw [if_neg hmode, maskHas_zero]
    refine iff_of_false Bool.false_ne_true fun h => hmode ?_
    simp only [Bool.and_eq_true, decide_eq_true_eq, bne_iff_ne, ne_eq] at h
    exact ⟨h.1.1.1, h.1.1.2, h.1.2⟩

theorem applyMap_texpal (bank : VramBank) (cnt : UInt8) :
    (({} : VramState).applyMap bank cnt true).texpal =
      if cnt &&& 0x80 ≠ 0 ∧ cnt.toNat % 8 = 3 then
        if bank.val = 4 then rangeMap (fun _ => 0) 8 0 4 (bankBit bank) true
        else if bank.val = 5 ∨ bank.val = 6 then
          setMask (fun _ => 0)
            ((cnt >>> 3).toNat % 8 % 2 + (cnt >>> 3).toNat % 8 / 2 % 2 * 4) (bankBit bank) true
        else fun _ => 0
      else fun _ => 0 := by
  by_cases hoff : cnt &&& 0x80 = 0
  · rw [if_neg fun h => h.1 hoff]
    unfold VramState.applyMap VramState.mapAb VramState.mapCd VramState.mapE VramState.mapFg
      VramState.mapH VramState.mapI
    simp only [if_pos hoff, ite_self]
  unfold VramState.applyMap
  have hmode : cnt.toNat % 8 < 8 := Nat.mod_lt _ (by decide)
  by_cases he : bank.val = 4
  · simp only [if_neg (show ¬ bank.val < 2 by omega), if_neg (show ¬ bank.val < 4 by omega),
      if_pos he]
    unfold VramState.mapE
    rw [if_neg hoff]
    generalize cnt.toNat % 8 = mode at hmode
    interval_cases mode
    · simp [VramState.mapLcdc]
    · simp
    · simp
    · rw [if_pos ⟨hoff, rfl⟩]
      rfl
    all_goals simp
  by_cases hfg : bank.val = 5 ∨ bank.val = 6
  · simp only [if_neg (show ¬ bank.val < 2 by omega), if_neg (show ¬ bank.val < 4 by omega),
      if_neg he, if_pos (show bank.val < 7 by omega), if_pos hfg]
    unfold VramState.mapFg
    rw [if_neg hoff]
    generalize cnt.toNat % 8 = mode at hmode
    interval_cases mode
    · simp [VramState.mapLcdc]
    · simp
    · simp
    · rw [if_pos ⟨hoff, rfl⟩]
      rfl
    all_goals simp
  · simp only [if_neg he, if_neg hfg, ite_self]
    unfold VramState.mapAb VramState.mapCd VramState.mapH VramState.mapI VramState.mapLcdc
    split_ifs <;> first | omega | ((try split) <;> rfl)

theorem drives_texpal_iff (bank : VramBank) (cnt : UInt8) (slot : Nat) :
    drives bank cnt (.texpal slot) ↔ inTexpalSlot cnt slot bank = true := by
  unfold drives
  change VramState.maskHas ((({} : VramState).applyMap bank cnt true).texpal slot) bank = true ↔ _
  rw [applyMap_texpal]
  unfold inTexpalSlot
  by_cases hmode : cnt &&& 0x80 ≠ 0 ∧ cnt.toNat % 8 = 3
  · rw [if_pos hmode]
    by_cases he : bank.val = 4
    · rw [if_pos he, maskHas_rangeMap]
      simp only [hmode.1, hmode.2, he, Bool.and_eq_true, decide_eq_true_eq, bne_iff_ne, ne_eq,
        not_false_eq_true, true_and, if_true]
      omega
    by_cases hfg : bank.val = 5 ∨ bank.val = 6
    · rw [if_neg he, if_pos hfg, maskHas_setMask]
      simp [hmode.1, hmode.2, he, hfg]
    · rw [if_neg he, if_neg hfg, maskHas_zero]
      simp [he, hfg]
  · rw [if_neg hmode, maskHas_zero]
    refine iff_of_false Bool.false_ne_true fun h => hmode ?_
    simp only [Bool.and_eq_true, decide_eq_true_eq, bne_iff_ne, ne_eq] at h
    exact h.1

/-- The address space a mask belongs to. -/
def MaskSlot.space : MaskSlot → MaskSlot
  | .abg _ => .abg 0
  | .aobj _ => .aobj 0
  | .bbg _ => .bbg 0
  | .bobj _ => .bobj 0
  | .abgExt _ => .abgExt 0
  | .bbgExt _ => .bbgExt 0
  | .texture _ => .texture 0
  | .texpal _ => .texpal 0
  | .arm7 _ => .arm7 0
  | .lcdc => .lcdc
  | .aobjExt => .aobjExt
  | .bobjExt => .bobjExt

/-- Only masks of one space differ from the empty maps. -/
def OneSpace (v : VramState) : Prop := ∃ space, ∀ slot, slot.space ≠ space → v.mask slot = 0

section OneSpace

variable (f : Nat → UInt16) (mask : UInt16)

theorem oneSpace_lcdc : OneSpace { lcdc := mask } :=
  ⟨.lcdc, fun slot hne => by cases slot <;> first | rfl | exact absurd rfl hne⟩

theorem oneSpace_abg : OneSpace { abg := f } :=
  ⟨.abg 0, fun slot hne => by cases slot <;> first | rfl | exact absurd rfl hne⟩

theorem oneSpace_aobj : OneSpace { aobj := f } :=
  ⟨.aobj 0, fun slot hne => by cases slot <;> first | rfl | exact absurd rfl hne⟩

theorem oneSpace_bbg : OneSpace { bbg := f } :=
  ⟨.bbg 0, fun slot hne => by cases slot <;> first | rfl | exact absurd rfl hne⟩

theorem oneSpace_bobj : OneSpace { bobj := f } :=
  ⟨.bobj 0, fun slot hne => by cases slot <;> first | rfl | exact absurd rfl hne⟩

theorem oneSpace_abgExt : OneSpace { abgExt := f } :=
  ⟨.abgExt 0, fun slot hne => by cases slot <;> first | rfl | exact absurd rfl hne⟩

theorem oneSpace_aobjExt : OneSpace { aobjExt := mask } :=
  ⟨.aobjExt, fun slot hne => by cases slot <;> first | rfl | exact absurd rfl hne⟩

theorem oneSpace_bbgExt : OneSpace { bbgExt := f } :=
  ⟨.bbgExt 0, fun slot hne => by cases slot <;> first | rfl | exact absurd rfl hne⟩

theorem oneSpace_bobjExt : OneSpace { bobjExt := mask } :=
  ⟨.bobjExt, fun slot hne => by cases slot <;> first | rfl | exact absurd rfl hne⟩

theorem oneSpace_texture : OneSpace { texture := f } :=
  ⟨.texture 0, fun slot hne => by cases slot <;> first | rfl | exact absurd rfl hne⟩

theorem oneSpace_texpal : OneSpace { texpal := f } :=
  ⟨.texpal 0, fun slot hne => by cases slot <;> first | rfl | exact absurd rfl hne⟩

theorem oneSpace_arm7 : OneSpace { arm7 := f } :=
  ⟨.arm7 0, fun slot hne => by cases slot <;> first | rfl | exact absurd rfl hne⟩

theorem oneSpace_empty : OneSpace {} := oneSpace_lcdc 0

end OneSpace

/-! One lemma for each mapper, its modes in the order of the definition. -/

section Mappers

variable (bank : VramBank) (cnt : UInt8)

theorem mapLcdc_oneSpace (bit : UInt16) : OneSpace (({} : VramState).mapLcdc bit true) :=
  oneSpace_lcdc _

theorem mapAb_oneSpace : OneSpace (({} : VramState).mapAb bank cnt true) := by
  unfold VramState.mapAb
  dsimp only
  split
  · exact oneSpace_empty
  split
  · exact mapLcdc_oneSpace _
  · exact oneSpace_abg _
  · exact oneSpace_aobj _
  · exact oneSpace_texture _

theorem mapCd_oneSpace : OneSpace (({} : VramState).mapCd bank cnt true) := by
  unfold VramState.mapCd
  dsimp only
  split
  · exact oneSpace_empty
  split
  · exact mapLcdc_oneSpace _
  · exact oneSpace_abg _
  · exact oneSpace_arm7 _
  · exact oneSpace_texture _
  · split
    · exact oneSpace_bbg _
    · exact oneSpace_bobj _
  · exact oneSpace_empty

theorem mapE_oneSpace : OneSpace (({} : VramState).mapE bank cnt true) := by
  unfold VramState.mapE
  dsimp only
  split
  · exact oneSpace_empty
  split
  · exact mapLcdc_oneSpace _
  · exact oneSpace_abg _
  · exact oneSpace_aobj _
  · exact oneSpace_texpal _
  · exact oneSpace_abgExt _
  · exact oneSpace_empty

theorem mapFg_oneSpace : OneSpace (({} : VramState).mapFg bank cnt true) := by
  unfold VramState.mapFg
  dsimp only
  split
  · exact oneSpace_empty
  split
  · exact mapLcdc_oneSpace _
  · exact oneSpace_abg _
  · exact oneSpace_aobj _
  · exact oneSpace_texpal _
  · exact oneSpace_abgExt _
  · exact oneSpace_aobjExt _
  · exact oneSpace_empty

theorem mapH_oneSpace : OneSpace (({} : VramState).mapH bank cnt true) := by
  unfold VramState.mapH
  dsimp only
  split
  · exact oneSpace_empty
  split
  · exact mapLcdc_oneSpace _
  · exact oneSpace_bbg _
  · exact oneSpace_bbgExt _
  · exact oneSpace_empty

theorem mapI_oneSpace : OneSpace (({} : VramState).mapI bank cnt true) := by
  unfold VramState.mapI
  dsimp only
  split
  · exact oneSpace_empty
  split
  · exact mapLcdc_oneSpace _
  · exact oneSpace_bbg _
  · exact oneSpace_bobj _
  · exact oneSpace_bobjExt _

end Mappers

/-- A control value shows its bank in one address space at most. -/
theorem applyMap_oneSpace (bank : VramBank) (cnt : UInt8) :
    OneSpace (({} : VramState).applyMap bank cnt true) := by
  unfold VramState.applyMap
  split
  · exact mapAb_oneSpace bank cnt
  split
  · exact mapCd_oneSpace bank cnt
  split
  · exact mapE_oneSpace bank cnt
  split
  · exact mapFg_oneSpace bank cnt
  split
  · exact mapH_oneSpace bank cnt
  · exact mapI_oneSpace bank cnt

theorem drives_space {bank : VramBank} {cnt : UInt8} {slot slot' : MaskSlot}
    (h : drives bank cnt slot) (h' : drives bank cnt slot') : slot.space = slot'.space := by
  obtain ⟨space, hspace⟩ := applyMap_oneSpace bank cnt
  have hin {s : MaskSlot} (hs : drives bank cnt s) : s.space = space := by
    by_contra hne
    unfold drives at hs
    rw [hspace s hne, maskHas_zero] at hs
    cases hs
  rw [hin h, hin h']

/-! ### Guest stores miss the banks that show textures -/

theorem alignAddr_aligned (addr : UInt32) (width : Width) :
    (VramState.alignAddr addr width).toNat % width.bytes = 0 := by
  have hlow (mask : UInt32) (k : Nat) (hk : mask.toNat = 2 ^ k - 1) :
      (addr &&& ~~~mask).toNat % 2 ^ k = 0 := by
    rw [← toNat_and_mask _ mask k hk, UInt32.and_assoc, UInt32.not_and_self, UInt32.and_zero]
    rfl
  cases width with
  | byte => exact Nat.mod_one _
  | half => exact hlow 1 1 rfl
  | word => exact hlow 3 2 rfl

theorem bank_offset_fits (bank : VramBank) {a : UInt32} {width : Width}
    (ha : a.toNat % width.bytes = 0) :
    (a &&& bankMask bank).toNat + width.bytes ≤ kBankSize bank := by
  obtain ⟨k, hk, -, hsize⟩ := bank_windows bank
  rw [toNat_and_bankMask, hsize]
  cases width <;> simp only [Width.bytes] at ha ⊢ <;> rcases hk with rfl | rfl | rfl | rfl <;> omega

/-- A store through the masks of `slot`. -/
structure StoreThrough (v : VramState) (slot : MaskSlot) (width : Width) (physical : Nat)
    (bank : VramBank) : Prop where
  shown : VramState.maskHas (v.mask slot) bank = true
  above : kBankOffset bank ≤ physical
  below : physical + width.bytes ≤ kBankOffset bank + kBankSize bank

theorem mappedStores_through {v : VramState} {slot : MaskSlot} {a : UInt32} {width : Width}
    (ha : a.toNat % width.bytes = 0) {physical : Nat}
    (h : physical ∈ VramState.mappedStores (v.mask slot) a) :
    ∃ bank, StoreThrough v slot width physical bank := by
  obtain ⟨bank, hbank, rfl⟩ := List.mem_map.mp h
  have hfits := bank_offset_fits bank ha
  exact ⟨bank, (List.mem_filter.mp hbank).2, Nat.le_add_right _ _, by omega⟩

/-- The masks that guest addresses select. -/
def GuestSlot (slot : MaskSlot) : Prop :=
  slot.space ≠ .texture 0 ∧ slot.space ≠ .texpal 0

theorem arm7Mask_slot (v : VramState) (addr : UInt32) :
    ∃ slot, GuestSlot slot ∧ v.mask slot = v.arm7Mask addr :=
  ⟨.arm7 ((addr >>> 17).toNat % 2), ⟨nofun, nofun⟩, rfl⟩

theorem arm9Mask_slot {v : VramState} {addr : UInt32} {mask : UInt16}
    (h : v.arm9Mask addr = some mask) : ∃ slot, GuestSlot slot ∧ v.mask slot = mask := by
  unfold VramState.arm9Mask at h
  dsimp only at h
  split_ifs at h
  · exact ⟨.abg _, ⟨nofun, nofun⟩, Option.some.inj h⟩
  · exact ⟨.bbg _, ⟨nofun, nofun⟩, Option.some.inj h⟩
  · exact ⟨.aobj _, ⟨nofun, nofun⟩, Option.some.inj h⟩
  · exact ⟨.bobj _, ⟨nofun, nofun⟩, Option.some.inj h⟩

theorem lcdcBank_aligned {addr offset : UInt32} {bank : VramBank} {width : Width}
    (h : VramState.lcdcBank addr = some (bank, offset)) (ha : addr.toNat % width.bytes = 0) :
    offset.toNat % width.bytes = 0 := by
  have hlow (mask : UInt32) (k : Nat) (hk : mask.toNat = 2 ^ k - 1) (hbig : 2 ≤ k) :
      (addr &&& mask).toNat % width.bytes = 0 := by
    rw [toNat_and_mask _ mask k hk, Nat.mod_mod_of_dvd]
    · exact ha
    · have hfour : 4 ∣ 2 ^ k := (pow_dvd_pow 2 hbig : 2 ^ 2 ∣ 2 ^ k)
      cases width with
      | byte => exact one_dvd _
      | half => exact (by decide : 2 ∣ 4).trans hfour
      | word => exact hfour
  unfold VramState.lcdcBank at h
  split_ifs at h <;> obtain ⟨-, rfl⟩ := Prod.mk.inj (Option.some.inj h)
  · exact hlow _ 17 rfl (by decide)
  · exact hlow _ 16 rfl (by decide)
  · exact hlow _ 14 rfl (by decide)
  · exact hlow _ 14 rfl (by decide)
  · exact hlow _ 15 rfl (by decide)
  · exact hlow _ 14 rfl (by decide)

theorem videoStores_through {v : VramState} {cpu : NdsCpu} {addr : UInt32} {width : Width}
    {physical : Nat} (h : physical ∈ v.videoStores cpu addr width) :
    ∃ slot bank, GuestSlot slot ∧ StoreThrough v slot width physical bank := by
  have ha := alignAddr_aligned addr width
  unfold VramState.videoStores at h
  dsimp only at h
  cases cpu with
  | arm7 =>
      dsimp only at h
      split_ifs at h
      · obtain ⟨slot, hguest, hslot⟩ := arm7Mask_slot v (VramState.alignAddr addr width)
        rw [← hslot] at h
        obtain ⟨bank, hbank⟩ := mappedStores_through ha h
        exact ⟨slot, bank, hguest, hbank⟩
      · cases h
  | arm9 =>
      dsimp only at h
      split_ifs at h
      · cases h
      · cases hmask : v.arm9Mask (VramState.alignAddr addr width) with
        | some mask =>
            rw [hmask] at h
            obtain ⟨slot, hguest, rfl⟩ := arm9Mask_slot hmask
            obtain ⟨bank, hbank⟩ := mappedStores_through ha h
            exact ⟨slot, bank, hguest, hbank⟩
        | none =>
            rw [hmask] at h
            cases hlcdc : VramState.lcdcBank (VramState.alignAddr addr width) with
            | none =>
                rw [hlcdc] at h
                cases h
            | some place =>
                obtain ⟨bank, offset⟩ := place
                rw [hlcdc] at h
                dsimp only at h
                split_ifs at h with hshown
                · obtain rfl := List.mem_singleton.mp h
                  have hfits := bank_offset_fits bank (lcdcBank_aligned hlcdc ha)
                  exact ⟨.lcdc, bank, ⟨nofun, nofun⟩, hshown, Nat.le_add_right _ _, by omega⟩
                · cases h
      · cases h

theorem banks_apart {bank bank' : VramBank} (hne : bank ≠ bank') :
    kBankOffset bank + kBankSize bank ≤ kBankOffset bank' ∨
      kBankOffset bank' + kBankSize bank' ≤ kBankOffset bank := by
  revert bank bank'
  decide

/-- The masks and registers, and the texture generation. -/
structure SameMaps (v v' : VramState) : Prop where
  mask : v'.mask = v.mask
  cnt : v'.cnt = v.cnt
  generation : v'.textureGeneration = v.textureGeneration

theorem Mapped.congr {v v' : VramState} (h : Mapped v) (hsame : SameMaps v v') : Mapped v' where
  nineBits := nineBitMasks_congr hsame.mask h.nineBits
  shows := by
    rw [hsame.cnt, owners_congr hsame.mask]
    exact h.shows

theorem storeAll_sameMaps (v : VramState) (stores : List Nat) (value : UInt32) (width : Width) :
    SameMaps v (v.storeAll stores value width) := by
  induction stores generalizing v with
  | nil => exact ⟨rfl, rfl, rfl⟩
  | cons physical rest ih =>
      have hrest := ih (v.storePhysical physical value width)
      refine ⟨hrest.mask.trans ?_, hrest.cnt, hrest.generation⟩
      funext slot
      cases slot <;> rfl

theorem storeAll_outside (v : VramState) (stores : List Nat) (value : UInt32) (width : Width)
    {p : Nat} (h : ∀ physical ∈ stores, p < physical ∨ physical + width.bytes ≤ p) :
    (v.storeAll stores value width).vram p = v.vram p := by
  induction stores generalizing v with
  | nil => rfl
  | cons physical rest ih =>
      have hfirst := h physical List.mem_cons_self
      refine (ih (v.storePhysical physical value width)
        fun q hq => h q (List.mem_cons_of_mem _ hq)).trans ?_
      exact if_neg (by omega)

theorem ndsVideoWrite_sameMaps (v : VramState) (cpu : NdsCpu) (addr value : UInt32)
    (width : Width) : SameMaps v (v.ndsVideoWrite cpu addr value width) := by
  rw [VramState.ndsVideoWrite_eq_storeAll]
  exact storeAll_sameMaps _ _ _ _

/-- A bank shown as textures or palettes keeps its bytes under every guest store. -/
theorem ndsVideoWrite_keeps {v : VramState} (h : Mapped v) {bank : VramBank} {slot : MaskSlot}
    (hdrives : drives bank (v.cnt bank) slot) (hslot : ¬ GuestSlot slot) (cpu : NdsCpu)
    (addr value : UInt32) (width : Width) {j : Nat} (hj : j < kBankSize bank) :
    (v.ndsVideoWrite cpu addr value width).vram (kBankOffset bank + j) =
      v.vram (kBankOffset bank + j) := by
  rw [VramState.ndsVideoWrite_eq_storeAll]
  refine storeAll_outside _ _ _ _ fun physical hphysical => ?_
  obtain ⟨slot', bank', hguest, hthrough⟩ := videoStores_through hphysical
  have hne : bank ≠ bank' := by
    rintro rfl
    have hspace := drives_space ((h.shows slot' bank).mp hthrough.shown) hdrives
    unfold GuestSlot at hslot hguest
    rw [hspace] at hguest
    exact hslot hguest
  have habove := hthrough.above
  have hbelow := hthrough.below
  rcases banks_apart hne with hlow | hhigh
  · omega
  · omega

/-! ### The bytes of the two spaces -/

theorem orBanks_congr {v v' : VramState} {shown shown' : VramBank → Bool} {i : Nat}
    (hshown : ∀ bank, shown bank = shown' bank)
    (hbytes : ∀ bank, shown bank = true →
      v.vram (kBankOffset bank + i % kBankSize bank) =
        v'.vram (kBankOffset bank + i % kBankSize bank)) :
    orBanks v shown i = orBanks v' shown' i := by
  unfold orBanks
  refine List.foldl_ext _ _ _ fun byte bank _ => ?_
  rw [← hshown bank]
  by_cases hbank : shown bank = true
  · rw [if_pos hbank, if_pos hbank, hbytes bank hbank]
  · rw [if_neg hbank, if_neg hbank]

theorem kBankSize_pos (bank : VramBank) : 0 < kBankSize bank := by
  revert bank
  decide

theorem textureByte_write {v : VramState} (h : Mapped v) (cpu : NdsCpu) (addr value : UInt32)
    (width : Width) (i : Nat) :
    textureByte (v.ndsVideoWrite cpu addr value width) i = textureByte v i := by
  refine orBanks_congr (fun bank => ?_) fun bank hbank => ?_
  · rw [(ndsVideoWrite_sameMaps v cpu addr value width).cnt]
  · rw [(ndsVideoWrite_sameMaps v cpu addr value width).cnt] at hbank
    exact ndsVideoWrite_keeps h ((drives_texture_iff _ _ _).mpr hbank) (fun hguest => hguest.1 rfl)
      cpu addr value width (Nat.mod_lt _ (kBankSize_pos bank))

theorem texpalByte_write {v : VramState} (h : Mapped v) (cpu : NdsCpu) (addr value : UInt32)
    (width : Width) (i : Nat) :
    texpalByte (v.ndsVideoWrite cpu addr value width) i = texpalByte v i := by
  refine orBanks_congr (fun bank => ?_) fun bank hbank => ?_
  · rw [(ndsVideoWrite_sameMaps v cpu addr value width).cnt]
  · rw [(ndsVideoWrite_sameMaps v cpu addr value width).cnt] at hbank
    exact ndsVideoWrite_keeps h ((drives_texpal_iff _ _ _).mpr hbank) (fun hguest => hguest.2 rfl)
      cpu addr value width (Nat.mod_lt _ (kBankSize_pos bank))

theorem Mapped.copyTexture_byte {v : VramState} (h : Mapped v) (dst : Nat → UInt8) {i : Nat}
    (hi : i < 4 * 0x20000) : v.copyTexture dst i = textureByte v i := by
  unfold VramState.copyTexture
  rw [copySlotSpace_eq v dst (by decide) (by decide) (by decide) h.texture_fits hi,
    mappedRead_eq_orBanks v _ (by omega)]
  refine orBanks_congr (fun bank => ?_) fun _ _ => rfl
  have hshows := h.shows (.texture (i / 0x20000)) bank
  exact Bool.eq_iff_iff.mpr (hshows.trans (drives_texture_iff _ _ _))

theorem Mapped.copyTexpal_byte {v : VramState} (h : Mapped v) (dst : Nat → UInt8) {i : Nat}
    (hi : i < 8 * 0x4000) : v.copyTexpal dst i = texpalByte v i := by
  unfold VramState.copyTexpal
  rw [copySlotSpace_eq v dst (by decide) (by decide) (by decide)
      (fun _ bank _ => texpal_fits bank) hi, mappedRead_eq_orBanks v _ (by omega)]
  refine orBanks_congr (fun bank => ?_) fun _ _ => rfl
  have hshows := h.shows (.texpal (i / 0x4000)) bank
  exact Bool.eq_iff_iff.mpr (hshows.trans (drives_texpal_iff _ _ _))

end NdsRecomp.Video
