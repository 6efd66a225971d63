import NdsRecomp.Library.OwnerTable
import NdsRecomp.Library.OpSystem
import NdsRecomp.Video.Vram

/-!
The mapping masks after any history of VRAMCNT writes. A bank's control value
drives a fixed set of masks, in which it owns one bit; remapping the bank
touches that bit alone. The masks are therefore those built from the current
control values.
-/

namespace NdsRecomp.Video

open Library

/-- Every mask the mapping code keeps. -/
inductive MaskSlot where
  | lcdc
  | abg (chunk : Nat)
  | aobj (chunk : Nat)
  | bbg (chunk : Nat)
  | bobj (chunk : Nat)
  | abgExt (slot : Nat)
  | aobjExt
  | bbgExt (slot : Nat)
  | bobjExt
  | texture (slot : Nat)
  | texpal (slot : Nat)
  | arm7 (slot : Nat)
deriving DecidableEq

def VramState.mask (v : VramState) : MaskSlot → UInt16
  | .lcdc => v.lcdc
  | .abg chunk => v.abg chunk
  | .aobj chunk => v.aobj chunk
  | .bbg chunk => v.bbg chunk
  | .bobj chunk => v.bobj chunk
  | .abgExt slot => v.abgExt slot
  | .aobjExt => v.aobjExt
  | .bbgExt slot => v.bbgExt slot
  | .bobjExt => v.bobjExt
  | .texture slot => v.texture slot
  | .texpal slot => v.texpal slot
  | .arm7 slot => v.arm7 slot

/-- Each bank's current control value applied once to empty maps. -/
def rebuildMaps (v : VramState) : VramState :=
  (List.finRange 9).foldl (fun maps bank => maps.applyMap bank (v.cnt bank) true) {}

/-! ### One bank's bit -/

theorem bankBit_toBitVec (bank : VramBank) :
    (bankBit bank).toBitVec = BitVec.twoPow 16 bank.val := by
  revert bank
  decide

theorem maskHas_eq (mask : UInt16) (bank : VramBank) :
    VramState.maskHas mask bank = mask.toBitVec.getLsbD bank.val := by
  have hlt : bank.val < 16 := by omega
  have hzero : mask &&& bankBit bank = 0 ↔ mask.toBitVec.getLsbD bank.val = false := by
    rw [← UInt16.toBitVec_inj, UInt16.toBitVec_and, bankBit_toBitVec, BitVec.and_twoPow]
    constructor
    · intro h
      by_contra hset
      rw [if_pos (by simpa using hset)] at h
      have hbit := congrArg (fun bits : BitVec 16 => bits.getLsbD bank.val) h
      simp [hlt] at hbit
    · intro h
      rw [if_neg (by simp [h])]
      rfl
  unfold VramState.maskHas
  by_cases h : mask.toBitVec.getLsbD bank.val = true
  · rw [h]
    simpa using fun hmask => absurd (hzero.mp hmask) (by simp [h])
  · rw [Bool.not_eq_true] at h
    rw [h]
    simpa using hzero.mpr h

theorem maskHas_bitset (mask : UInt16) (bank owner : VramBank) (add : Bool) :
    VramState.maskHas (bitset mask (bankBit owner) add) bank =
      if bank = owner then add else VramState.maskHas mask bank := by
  have hlt : bank.val < 16 := by omega
  rw [maskHas_eq, maskHas_eq]
  unfold bitset
  by_cases hsame : bank = owner
  · subst hsame
    cases add
    · simp [bankBit_toBitVec, hlt]
    · simp [bankBit_toBitVec, hlt]
  · have hne : owner.val ≠ bank.val := fun h => hsame (Fin.ext h.symm)
    cases add
    · simp [bankBit_toBitVec, hlt, hsame, hne.symm]
    · simp [bankBit_toBitVec, BitVec.getLsbD_twoPow, hsame, hne]

/-- No bit outside the nine banks. -/
def NineBits (mask : UInt16) : Prop := ∀ i, 9 ≤ i → mask.toBitVec.getLsbD i = false

theorem nineBits_zero : NineBits 0 := by
  intro i _
  exact BitVec.getLsbD_zero

theorem NineBits.bitset {mask : UInt16} (h : NineBits mask) (owner : VramBank) (add : Bool) :
    NineBits (bitset mask (bankBit owner) add) := by
  intro i hi
  have hne : owner.val ≠ i := by omega
  unfold Video.bitset
  cases add
  · simp [bankBit_toBitVec, BitVec.getLsbD_twoPow, h i hi]
  · simp [bankBit_toBitVec, BitVec.getLsbD_twoPow, h i hi, hne]

theorem NineBits.eq_of_banks {mask mask' : UInt16} (h : NineBits mask) (h' : NineBits mask')
    (hbanks : ∀ bank, VramState.maskHas mask bank = VramState.maskHas mask' bank) :
    mask = mask' := by
  refine UInt16.toBitVec_inj.mp (BitVec.eq_of_getLsbD_eq fun i _ => ?_)
  by_cases hi : i < 9
  · have hbank := hbanks ⟨i, hi⟩
    rwa [maskHas_eq, maskHas_eq] at hbank
  · rw [h i (by omega), h' i (by omega)]

theorem bitset_bitset (mask bit : UInt16) (add : Bool) :
    bitset (bitset mask bit add) bit add = bitset mask bit add := by
  unfold bitset
  cases add
  · simp [UInt16.and_assoc]
  · simp [UInt16.or_assoc]

/-! ### What one mapping step touches -/

/-- `f` sets or clears `bit` in a fixed set of entries of an array. -/
def TouchesArray (bit : UInt16) (f : (Nat → UInt16) → Bool → Nat → UInt16) : Prop :=
  ∃ touched : Nat → Bool, ∀ map add i,
    f map add i = if touched i then bitset (map i) bit add else map i

/-- `f` sets or clears `bit` in a fixed set of masks. -/
def Touches (bit : UInt16) (f : VramState → Bool → VramState) : Prop :=
  ∃ touched : Set MaskSlot, ∀ v add slot,
    (slot ∈ touched → (f v add).mask slot = bitset (v.mask slot) bit add) ∧
      (slot ∉ touched → (f v add).mask slot = v.mask slot)

theorem touchesArray_rangeMap (bit : UInt16) (n base count : Nat) :
    TouchesArray bit fun map add => rangeMap map n base count bit add := by
  refine ⟨fun i => decide (base ≤ i ∧ i < base + count ∧ i < n), ?_⟩
  intro map add i
  simp only [rangeMap, decide_eq_true_eq]

theorem touchesArray_setMask (bit : UInt16) (index : Nat) :
    TouchesArray bit fun map add => setMask map index bit add := by
  refine ⟨fun i => decide (i = index), ?_⟩
  intro map add i
  simp only [setMask, Function.update_apply, decide_eq_true_eq]
  split
  · next hsame => rw [hsame]
  · rfl

theorem TouchesArray.comp {bit : UInt16} {f g : (Nat → UInt16) → Bool → Nat → UInt16}
    (hf : TouchesArray bit f) (hg : TouchesArray bit g) :
    TouchesArray bit fun map add => g (f map add) add := by
  obtain ⟨inF, hf⟩ := hf
  obtain ⟨inG, hg⟩ := hg
  refine ⟨fun i => inF i || inG i, ?_⟩
  intro map add i
  dsimp only
  rw [hg, hf]
  by_cases hF : inF i = true
  · by_cases hG : inG i = true
    · simp [hF, hG, bitset_bitset]
    · simp [hF, hG]
  · simp [hF]

theorem touchesArray_setQuad (bit : UInt16) (base : Nat) :
    TouchesArray bit fun map add => VramState.setQuad map base bit add :=
  (((touchesArray_setMask bit base).comp (touchesArray_setMask bit (base + 1))).comp
    (touchesArray_setMask bit (base + 4))).comp (touchesArray_setMask bit (base + 5))

theorem touchesArray_pair (bit : UInt16) (first second : Nat) :
    TouchesArray bit fun map add => setMask (setMask map first bit add) second bit add :=
  (touchesArray_setMask bit first).comp (touchesArray_setMask bit second)

theorem touches_nothing (bit : UInt16) : Touches bit fun v _ => v :=
  ⟨∅, fun _ _ _ => ⟨fun hin => absurd hin (Set.notMem_empty _), fun _ => rfl⟩⟩

section Fields

variable {bit : UInt16} {f : (Nat → UInt16) → Bool → Nat → UInt16}
  {update : VramState → Bool → VramState}

/-- A mapping step that changes one mask only. -/
theorem touches_mask (changed : MaskSlot)
    (hin : ∀ v add, (update v add).mask changed = bitset (v.mask changed) bit add)
    (hout : ∀ v add slot, slot = changed ∨ (update v add).mask slot = v.mask slot) :
    Touches bit update := by
  refine ⟨{changed}, fun v add slot => ⟨?_, fun hne => (hout v add slot).resolve_left hne⟩⟩
  rintro rfl
  exact hin v add

/-- A mapping step that changes the masks of one array only. -/
theorem touches_array (array : Nat → MaskSlot) (hf : TouchesArray bit f)
    (hin : ∀ v add i, (update v add).mask (array i) = f (fun j => v.mask (array j)) add i)
    (hout : ∀ v add slot, (∃ i, slot = array i) ∨ (update v add).mask slot = v.mask slot) :
    Touches bit update := by
  obtain ⟨touched, hf⟩ := hf
  refine ⟨{slot | ∃ i, slot = array i ∧ touched i = true}, fun v add slot => ⟨?_, ?_⟩⟩
  · rintro ⟨i, rfl, hi⟩
    rw [hin, hf, if_pos hi]
  · intro hne
    rcases hout v add slot with ⟨i, rfl⟩ | hsame
    · rw [hin, hf, if_neg fun hi => hne ⟨i, rfl, hi⟩]
    · exact hsame

theorem touches_lcdc : Touches bit fun v add => v.mapLcdc bit add :=
  touches_mask .lcdc (fun _ _ => rfl) fun _ _ slot => by
    cases slot <;> first | exact .inl rfl | exact .inr rfl

theorem touches_aobjExt :
    Touches bit fun v add => { v with aobjExt := bitset v.aobjExt bit add } :=
  touches_mask .aobjExt (fun _ _ => rfl) fun _ _ slot => by
    cases slot <;> first | exact .inl rfl | exact .inr rfl

theorem touches_bobjExt :
    Touches bit fun v add => { v with bobjExt := bitset v.bobjExt bit add } :=
  touches_mask .bobjExt (fun _ _ => rfl) fun _ _ slot => by
    cases slot <;> first | exact .inl rfl | exact .inr rfl

theorem touches_abg (hf : TouchesArray bit f) :
    Touches bit fun v add => { v with abg := f v.abg add } :=
  touches_array .abg hf (fun _ _ _ => rfl) fun _ _ slot => by
    cases slot <;> first | exact .inl ⟨_, rfl⟩ | exact .inr rfl

theorem touches_aobj (hf : TouchesArray bit f) :
    Touches bit fun v add => { v with aobj := f v.aobj add } :=
  touches_array .aobj hf (fun _ _ _ => rfl) fun _ _ slot => by
    cases slot <;> first | exact .inl ⟨_, rfl⟩ | exact .inr rfl

theorem touches_bbg (hf : TouchesArray bit f) :
    Touches bit fun v add => { v with bbg := f v.bbg add } :=
  touches_array .bbg hf (fun _ _ _ => rfl) fun _ _ slot => by
    cases slot <;> first | exact .inl ⟨_, rfl⟩ | exact .inr rfl

theorem touches_bobj (hf : TouchesArray bit f) :
    Touches bit fun v add => { v with bobj := f v.bobj add } :=
  touches_array .bobj hf (fun _ _ _ => rfl) fun _ _ slot => by
    cases slot <;> first | exact .inl ⟨_, rfl⟩ | exact .inr rfl

theorem touches_abgExt (hf : TouchesArray bit f) :
    Touches bit fun v add => { v with abgExt := f v.abgExt add } :=
  touches_array .abgExt hf (fun _ _ _ => rfl) fun _ _ slot => by
    cases slot <;> first | exact .inl ⟨_, rfl⟩ | exact .inr rfl

theorem touches_bbgExt (hf : TouchesArray bit f) :
    Touches bit fun v add => { v with bbgExt := f v.bbgExt add } :=
  touches_array .bbgExt hf (fun _ _ _ => rfl) fun _ _ slot => by
    cases slot <;> first | exact .inl ⟨_, rfl⟩ | exact .inr rfl

theorem touches_texture (hf : TouchesArray bit f) :
    Touches bit fun v add => { v with texture := f v.texture add } :=
  touches_array .texture hf (fun _ _ _ => rfl) fun _ _ slot => by
    cases slot <;> first | exact .inl ⟨_, rfl⟩ | exact .inr rfl

theorem touches_texpal (hf : TouchesArray bit f) :
    Touches bit fun v add => { v with texpal := f v.texpal add } :=
  touches_array .texpal hf (fun _ _ _ => rfl) fun _ _ slot => by
    cases slot <;> first | exact .inl ⟨_, rfl⟩ | exact .inr rfl

theorem touches_arm7 (hf : TouchesArray bit f) :
    Touches bit fun v add => { v with arm7 := f v.arm7 add } :=
  touches_array .arm7 hf (fun _ _ _ => rfl) fun _ _ slot => by
    cases slot <;> first | exact .inl ⟨_, rfl⟩ | exact .inr rfl

end Fields

section Banks

variable (bank : VramBank) (cnt : UInt8)

theorem mapAb_touches : Touches (bankBit bank) fun v add => v.mapAb bank cnt add := by
  unfold VramState.mapAb
  by_cases hoff : cnt &&& 0x80 = 0
  · simp only [if_pos hoff]
    exact touches_nothing _
  · simp only [if_neg hoff]
    have hmode : cnt.toNat % 4 < 4 := Nat.mod_lt _ (by decide)
    generalize cnt.toNat % 4 = mode at hmode
    interval_cases mode
    · exact touches_lcdc
    · exact touches_abg (touchesArray_rangeMap _ _ _ _)
    · exact touches_aobj (touchesArray_rangeMap _ _ _ _)
    · exact touches_texture (touchesArray_setMask _ _)

theorem mapCd_touches : Touches (bankBit bank) fun v add => v.mapCd bank cnt add := by
  unfold VramState.mapCd
  by_cases hoff : cnt &&& 0x80 = 0
  · simp only [if_pos hoff]
    exact touches_nothing _
  · simp only [if_neg hoff]
    have hmode : cnt.toNat % 8 < 8 := Nat.mod_lt _ (by decide)
    generalize cnt.toNat % 8 = mode at hmode
    interval_cases mode
    · exact touches_lcdc
    · exact touches_abg (touchesArray_rangeMap _ _ _ _)
    · exact touches_arm7 (touchesArray_setMask _ _)
    · exact touches_texture (touchesArray_setMask _ _)
    · by_cases hc : bank = 2
      · simp only [if_pos hc]
        exact touches_bbg (touchesArray_rangeMap _ _ _ _)
      · simp only [if_neg hc]
        exact touches_bobj (touchesArray_rangeMap _ _ _ _)
    all_goals exact touches_nothing _

theorem mapE_touches : Touches (bankBit bank) fun v add => v.mapE bank cnt add := by
  unfold VramState.mapE
  by_cases hoff : cnt &&& 0x80 = 0
  · simp only [if_pos hoff]
    exact touches_nothing _
  · simp only [if_neg hoff]
    have hmode : cnt.toNat % 8 < 8 := Nat.mod_lt _ (by decide)
    generalize cnt.toNat % 8 = mode at hmode
    interval_cases mode
    · exact touches_lcdc
    · exact touches_abg (touchesArray_rangeMap _ _ _ _)
    · exact touches_aobj (touchesArray_rangeMap _ _ _ _)
    · exact touches_texpal (touchesArray_rangeMap _ _ _ _)
    · exact touches_abgExt (touchesArray_rangeMap _ _ _ _)
    all_goals exact touches_nothing _

theorem mapFg_touches : Touches (bankBit bank) fun v add => v.mapFg bank cnt add := by
  unfold VramState.mapFg
  by_cases hoff : cnt &&& 0x80 = 0
  · simp only [if_pos hoff]
    exact touches_nothing _
  · simp only [if_neg hoff]
    have hmode : cnt.toNat % 8 < 8 := Nat.mod_lt _ (by decide)
    generalize cnt.toNat % 8 = mode at hmode
    interval_cases mode
    · exact touches_lcdc
    · exact touches_abg (touchesArray_pair _ _ _)
    · exact touches_aobj (touchesArray_pair _ _ _)
    · exact touches_texpal (touchesArray_setMask _ _)
    · exact touches_abgExt (touchesArray_pair _ _ _)
    · exact touches_aobjExt
    all_goals exact touches_nothing _

theorem mapH_touches : Touches (bankBit bank) fun v add => v.mapH bank cnt add := by
  unfold VramState.mapH
  by_cases hoff : cnt &&& 0x80 = 0
  · simp only [if_pos hoff]
    exact touches_nothing _
  · simp only [if_neg hoff]
    have hmode : cnt.toNat % 4 < 4 := Nat.mod_lt _ (by decide)
    generalize cnt.toNat % 4 = mode at hmode
    interval_cases mode
    · exact touches_lcdc
    · exact touches_bbg (touchesArray_setQuad _ _)
    · exact touches_bbgExt (touchesArray_rangeMap _ _ _ _)
    · exact touches_nothing _

theorem mapI_touches : Touches (bankBit bank) fun v add => v.mapI bank cnt add := by
  unfold VramState.mapI
  by_cases hoff : cnt &&& 0x80 = 0
  · simp only [if_pos hoff]
    exact touches_nothing _
  · simp only [if_neg hoff]
    have hmode : cnt.toNat % 4 < 4 := Nat.mod_lt _ (by decide)
    generalize cnt.toNat % 4 = mode at hmode
    interval_cases mode
    · exact touches_lcdc
    · exact touches_bbg (touchesArray_setQuad _ _)
    · exact touches_bobj (touchesArray_rangeMap _ _ _ _)
    · exact touches_bobjExt

theorem applyMap_touches : Touches (bankBit bank) fun v add => v.applyMap bank cnt add := by
  unfold VramState.applyMap
  by_cases hab : bank.val < 2
  · simp only [if_pos hab]
    exact mapAb_touches bank cnt
  by_cases hcd : bank.val < 4
  · simp only [if_neg hab, if_pos hcd]
    exact mapCd_touches bank cnt
  by_cases he : bank.val = 4
  · simp only [if_neg hab, if_neg hcd, if_pos he]
    exact mapE_touches bank cnt
  by_cases hfg : bank.val < 7
  · simp only [if_neg hab, if_neg hcd, if_neg he, if_pos hfg]
    exact mapFg_touches bank cnt
  by_cases hh : bank.val = 7
  · simp only [if_neg hab, if_neg hcd, if_neg he, if_neg hfg, if_pos hh]
    exact mapH_touches bank cnt
  · simp only [if_neg hab, if_neg hcd, if_neg he, if_neg hfg, if_neg hh]
    exact mapI_touches bank cnt

end Banks

/-! ### Masks as sets of banks -/

/-- The masks in which a control value places its bank. -/
def drives (bank : VramBank) (cnt : UInt8) (slot : MaskSlot) : Prop :=
  VramState.maskHas (({} : VramState).applyMap bank cnt true |>.mask slot) bank = true

/-- The banks a mask names. -/
def owners (v : VramState) (slot : MaskSlot) : Set VramBank :=
  {bank | VramState.maskHas (v.mask slot) bank = true}

def NineBitMasks (v : VramState) : Prop := ∀ slot, NineBits (v.mask slot)

theorem applyMap_nineBits {v : VramState} (h : NineBitMasks v) (bank : VramBank) (cnt : UInt8)
    (add : Bool) : NineBitMasks (v.applyMap bank cnt add) := by
  obtain ⟨touched, htouched⟩ := applyMap_touches bank cnt
  intro slot
  by_cases hin : slot ∈ touched
  · have hmask := (htouched v add slot).1 hin
    dsimp only at hmask
    rw [hmask]
    exact (h slot).bitset bank add
  · have hmask := (htouched v add slot).2 hin
    dsimp only at hmask
    rw [hmask]
    exact h slot

theorem mask_empty (slot : MaskSlot) : ({} : VramState).mask slot = 0 := by
  cases slot <;> rfl

theorem maskHas_zero (bank : VramBank) : VramState.maskHas 0 bank = false := by
  rw [maskHas_eq]
  exact BitVec.getLsbD_zero

theorem owners_applyMap (v : VramState) (bank : VramBank) (cnt : UInt8) (add : Bool) :
    owners (v.applyMap bank cnt add) = place drives bank cnt add (owners v) := by
  obtain ⟨touched, htouched⟩ := applyMap_touches bank cnt
  dsimp only at htouched
  have hdrives (slot : MaskSlot) : drives bank cnt slot ↔ slot ∈ touched := by
    unfold drives
    by_cases hin : slot ∈ touched
    · rw [(htouched _ true slot).1 hin, maskHas_bitset, if_pos rfl]
      simp [hin]
    · rw [(htouched _ true slot).2 hin, mask_empty, maskHas_zero]
      simp [hin]
  funext slot
  ext owner
  change VramState.maskHas ((v.applyMap bank cnt add).mask slot) owner = true ↔ _
  by_cases hin : slot ∈ touched
  · rw [(htouched v add slot).1 hin, maskHas_bitset]
    by_cases howner : owner = bank
    · rw [if_pos howner, mem_place_of ⟨howner, (hdrives slot).mpr hin⟩]
    · rw [if_neg howner, mem_place_of_not fun hand => howner hand.1]
      rfl
  · rw [(htouched v add slot).2 hin, mem_place_of_not fun hand => hin ((hdrives slot).mp hand.2)]
    rfl

/-- The masks say what the control registers say. -/
structure Mapped (v : VramState) : Prop where
  nineBits : NineBitMasks v
  shows : Shows drives v.cnt (owners v)

theorem applyMap_cnt (v : VramState) (bank : VramBank) (cnt : UInt8) (add : Bool) :
    (v.applyMap bank cnt add).cnt = v.cnt := by
  unfold VramState.applyMap VramState.mapAb VramState.mapCd VramState.mapE VramState.mapFg
    VramState.mapH VramState.mapI VramState.mapLcdc
  split_ifs <;> (try split) <;> rfl

/-- The registers and masks `ndsVramMap` leaves when the value is new. -/
theorem ndsVramMap_maps (v : VramState) (bank : VramBank) (value : UInt8)
    (hnew : sanitize bank value ≠ v.cnt bank) :
    (v.ndsVramMap bank value).cnt = Function.update v.cnt bank (sanitize bank value) ∧
      ∃ cleared : VramState, cleared.mask = (v.applyMap bank (v.cnt bank) false).mask ∧
        (v.ndsVramMap bank value).mask =
          (cleared.applyMap bank (sanitize bank value) true).mask := by
  let cleared : VramState := { v.applyMap bank (v.cnt bank) false with
    cnt := Function.update (v.applyMap bank (v.cnt bank) false).cnt bank (sanitize bank value) }
  have hmap : v.ndsVramMap bank value =
      { cleared.applyMap bank (sanitize bank value) true with
        textureGeneration :=
          (cleared.applyMap bank (sanitize bank value) true).textureGeneration + 1 } :=
    if_neg hnew
  refine ⟨?_, cleared, ?_, ?_⟩
  · rw [hmap]
    change (cleared.applyMap bank (sanitize bank value) true).cnt = _
    rw [applyMap_cnt]
    change Function.update (v.applyMap bank (v.cnt bank) false).cnt bank _ = _
    rw [applyMap_cnt]
  · funext slot
    cases slot <;> rfl
  · rw [hmap]
    funext slot
    cases slot <;> rfl

theorem owners_congr {v v' : VramState} (h : v.mask = v'.mask) : owners v = owners v' := by
  funext slot
  unfold owners
  rw [h]

theorem nineBitMasks_congr {v v' : VramState} (h : v.mask = v'.mask) (h' : NineBitMasks v') :
    NineBitMasks v := by
  intro slot
  rw [h]
  exact h' slot

theorem Mapped.ndsVramMap {v : VramState} (h : Mapped v) (bank : VramBank) (value : UInt8) :
    Mapped (v.ndsVramMap bank value) := by
  by_cases hsame : sanitize bank value = v.cnt bank
  · have hmap : v.ndsVramMap bank value = v := if_pos hsame
    rw [hmap]
    exact h
  · obtain ⟨hcnt, cleared, hcleared, hmask⟩ := ndsVramMap_maps v bank value hsame
    refine ⟨?_, ?_⟩
    · have hnine := applyMap_nineBits h.nineBits bank (v.cnt bank) false
      exact nineBitMasks_congr hmask
        (applyMap_nineBits (nineBitMasks_congr hcleared hnine) _ _ _)
    · rw [hcnt, owners_congr hmask, owners_applyMap, owners_congr hcleared, owners_applyMap]
      exact h.shows.replace bank (sanitize bank value)

theorem mapped_rebuildMaps (v : VramState) :
    NineBitMasks (rebuildMaps v) ∧ Shows drives v.cnt (owners (rebuildMaps v)) := by
  have hnine (banks : List VramBank) (maps : VramState) (hmaps : NineBitMasks maps) :
      NineBitMasks (banks.foldl (fun maps bank => maps.applyMap bank (v.cnt bank) true) maps) := by
    induction banks generalizing maps with
    | nil => exact hmaps
    | cons bank banks ih => exact ih _ (applyMap_nineBits hmaps _ _ _)
  have howners (banks : List VramBank) (maps : VramState) :
      owners (banks.foldl (fun maps bank => maps.applyMap bank (v.cnt bank) true) maps) =
        banks.foldl (fun table bank => place drives bank (v.cnt bank) true table)
          (owners maps) := by
    induction banks generalizing maps with
    | nil => rfl
    | cons bank banks ih => rw [List.foldl_cons, List.foldl_cons, ih, owners_applyMap]
  refine ⟨hnine _ _ fun slot => ?_, ?_⟩
  · rw [mask_empty]
    exact nineBits_zero
  · unfold rebuildMaps
    rw [howners]
    have hempty : owners ({} : VramState) = fun _ => ∅ := by
      funext slot
      ext bank
      change VramState.maskHas (VramState.mask {} slot) bank = true ↔ _
      rw [mask_empty, maskHas_zero]
      simp
    rw [hempty]
    exact shows_build fun bank => List.mem_finRange bank

theorem Mapped.mask_eq_rebuild {v : VramState} (h : Mapped v) (slot : MaskSlot) :
    v.mask slot = (rebuildMaps v).mask slot := by
  obtain ⟨hnine, hshows⟩ := mapped_rebuildMaps v
  have howners := h.shows.unique hshows slot
  refine (h.nineBits slot).eq_of_banks (hnine slot) fun bank => ?_
  have hbank : bank ∈ owners v slot ↔ bank ∈ owners (rebuildMaps v) slot := by rw [howners]
  exact Bool.eq_iff_iff.mpr hbank

end NdsRecomp.Video
