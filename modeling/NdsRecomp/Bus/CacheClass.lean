import NdsRecomp.Library.WordRange
import NdsRecomp.Bus.Cp15

/-!
The page bitmaps against the walk over the protection regions. The rebuild
fills the regions in ascending order, the walk searches them in descending
order; the highest region covering an address decides in both. The bitmaps are
published as ready only when every enabled region is a whole number of pages,
so a ready bitmap answers every address exactly and a sub-page region leaves
the answer to the walk.
-/

namespace NdsRecomp.Bus

open Library

/-- Both bitmaps answer as the walk over the registers of `cp15`. -/
def Cp15ClassMaps.Exact (maps : Cp15ClassMaps) (cp15 : Cp15) : Prop :=
  ∀ addr, classPageBit maps.dcachePage addr = cp15DataCacheableReference cp15 addr ∧
    classPageBit maps.icachePage addr = cp15CodeCacheableReference cp15 addr

/-! ### The walk -/

theorem walkRegions_eq_find (cp15 : Cp15) (bits addr : UInt32) (regions : List (Fin 8)) :
    walkRegions cp15 bits addr regions =
      ((regions.find? fun i => mpuRegionContains cp15 i addr).elim false (regionBit bits)) := by
  induction regions with
  | nil => rfl
  | cons i rest ih =>
      cases hi : mpuRegionContains cp15 i addr with
      | true => simp [walkRegions, hi]
      | false => simp [walkRegions, hi, ih]

/-! ### The rebuild -/

/-- The last region in fill order that covers the address decides its bit. -/
private def layered (cp15 : Cp15) (addr : UInt32) (regions : List (Fin 8)) (bit : Fin 8 → Bool)
    (background : Bool) : Bool :=
  (regions.reverse.find? fun i => mpuRegionContains cp15 i addr).elim background bit

private theorem layered_cons (cp15 : Cp15) (addr : UInt32) (i : Fin 8) (rest : List (Fin 8))
    (bit : Fin 8 → Bool) (background : Bool) :
    layered cp15 addr (i :: rest) bit background =
      layered cp15 addr rest bit
        (if mpuRegionContains cp15 i addr then bit i else background) := by
  unfold layered
  rw [List.reverse_cons, List.find?_append]
  cases rest.reverse.find? fun i => mpuRegionContains cp15 i addr with
  | some j => rfl
  | none =>
      cases hi : mpuRegionContains cp15 i addr with
      | true => simp [hi]
      | false => simp [hi]

/-- When no sub-page region stops the loop, each bitmap ends with the layered
answer of the regions visited. -/
private theorem rebuildRegions_layered (cp15 : Cp15) (dcacheOn icacheOn : Bool)
    (dbits ibits : UInt32) (regions : List (Fin 8)) (maps : Cp15ClassMaps)
    (hready : (rebuildRegions cp15 dcacheOn icacheOn dbits ibits regions maps).classReady = true)
    (addr : UInt32) :
    let out := rebuildRegions cp15 dcacheOn icacheOn dbits ibits regions maps
    classPageBit out.dcachePage addr =
        layered cp15 addr regions (fun i => dcacheOn && regionBit dbits i)
          (classPageBit maps.dcachePage addr) ∧
      classPageBit out.icachePage addr =
        layered cp15 addr regions (fun i => icacheOn && regionBit ibits i)
          (classPageBit maps.icachePage addr) := by
  induction regions generalizing maps with
  | nil => exact ⟨rfl, rfl⟩
  | cons i rest ih =>
      simp only [rebuildRegions] at hready ⊢
      by_cases hend : (cp15.mpuRegionEnd[i] == 0) = true
      · rw [if_pos hend] at hready ⊢
        have hi := contains_of_disabled addr hend
        simpa [layered_cons, hi] using ih maps hready
      · rw [if_neg hend] at hready ⊢
        by_cases halign : (cp15.mpuRegionBase[i] &&& 0xFFF != 0 ||
            cp15.mpuRegionEnd[i] &&& 0xFFF != 0) = true
        · rw [if_pos halign] at hready
          cases hready
        · rw [if_neg halign] at hready ⊢
          obtain ⟨hbase, hlast⟩ := not_or.mp (by simpa only [Bool.or_eq_true] using halign)
          have hcover := @contains_iff_page cp15 i addr hend hbase hlast
          have hfill (bm : ByteBitmap) (value : Bool) :
              classPageBit (classBitmapFill bm (cp15.mpuRegionBase[i] >>> 12).toNat
                (cp15.mpuRegionEnd[i] >>> 12).toNat value) addr =
                if mpuRegionContains cp15 i addr then value else classPageBit bm addr := by
            unfold classPageBit classBitmapFill
            rw [ByteBitmap.bit_fill]
            simp only [hcover]
          have hrest := ih _ hready
          rw [layered_cons, layered_cons, ← hfill maps.dcachePage, ← hfill maps.icachePage]
          exact hrest

private theorem classPageBit_setBytes (bm : ByteBitmap) (value : Bool) (addr : UInt32) :
    classPageBit (bm.setBytes 0 cp15ClassBytes value) addr = value := by
  unfold classPageBit
  rw [ByteBitmap.bit_setBytes]
  have hpage := page_lt addr
  rw [if_pos]
  simp only [cp15ClassBytes]
  omega

private theorem cacheableReference_eq_layered (cp15 : Cp15) (enable bits addr : UInt32)
    (hmpu : (cp15.visible.control &&& 1 == 0) = false) :
    cacheableReference cp15 enable bits addr =
      layered cp15 addr (List.finRange 8)
        (fun i => (cp15.visible.control &&& enable != 0) && regionBit bits i) false := by
  unfold cacheableReference layered
  rw [hmpu, walkRegions_eq_find]
  simp only [regionsDown, Bool.false_eq_true, if_false]
  cases hon : cp15.visible.control &&& enable == 0 with
  | true =>
      have hoff : (cp15.visible.control &&& enable != 0) = false := by simp [bne, hon]
      cases (List.finRange 8).reverse.find? fun i => mpuRegionContains cp15 i addr with
      | none => rfl
      | some i => simp [hoff]
  | false =>
      have hset : (cp15.visible.control &&& enable != 0) = true := by simp [bne, hon]
      cases (List.finRange 8).reverse.find? fun i => mpuRegionContains cp15 i addr with
      | none => rfl
      | some i => simp [hset]

/-- A rebuild that reports ready has produced exact bitmaps. -/
theorem rebuild_exact (cp15 : Cp15)
    (hready : (cp15RebuildClassBitmaps cp15).classReady = true) :
    (cp15RebuildClassBitmaps cp15).Exact cp15 := by
  intro addr
  unfold cp15RebuildClassBitmaps at hready ⊢
  simp only at hready ⊢
  cases hmpu : cp15.visible.control &&& 1 == 0 with
  | true =>
      have hoff : (!(cp15.visible.control &&& 1 != 0)) = true := by simp [bne, hmpu]
      rw [if_pos hoff, classPageBit_setBytes, classPageBit_setBytes]
      unfold cp15DataCacheableReference cp15CodeCacheableReference cacheableReference
      rw [hmpu]
      constructor
      · cases hd : cp15.visible.control &&& controlBit 2 == 0 <;> simp [bne, hd]
      · cases hi : cp15.visible.control &&& controlBit 12 == 0 <;> simp [bne, hi]
  | false =>
      have hon : ¬ (!(cp15.visible.control &&& 1 != 0)) = true := by simp [bne, hmpu]
      rw [if_neg hon] at hready ⊢
      have hlayers := rebuildRegions_layered cp15 _ _ _ _ _ _ hready addr
      unfold cp15DataCacheableReference cp15CodeCacheableReference
      rw [cacheableReference_eq_layered cp15 _ _ _ hmpu,
        cacheableReference_eq_layered cp15 _ _ _ hmpu]
      simpa only [classPageBit_setBytes] using hlayers

end NdsRecomp.Bus
