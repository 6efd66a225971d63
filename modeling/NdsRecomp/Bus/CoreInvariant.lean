import NdsRecomp.Bus.CacheClass

/-!
What holds of CP15 and the published windows after every register write, reset
and import: the region bounds are those of the region registers, a ready class
bitmap is exact for the current registers, and the published windows and TCM
mirrors are those of the current map.
-/

namespace NdsRecomp.Bus

open Library

/-- The class bitmaps and what they were last built from are untouched. -/
def Cp15.SameClass (a b : Cp15) : Prop :=
  a.classInputs = b.classInputs ∧ a.classInputsValid = b.classInputsValid ∧
    a.classMaps = b.classMaps

/-- Valid ready bitmaps are exact for any registers with the inputs they were
built from. -/
def Cp15.MapsMatchInputs (cp15 : Cp15) : Prop :=
  cp15.classInputsValid = true → cp15.classMaps.classReady = true →
    ∀ regs : Cp15, regs.RegionsDerived → regs.currentInputs = cp15.classInputs →
      cp15.classMaps.Exact regs

/-- Ready bitmaps were built from the registers as they are now. -/
def Cp15.Settled (cp15 : Cp15) : Prop :=
  cp15.classMaps.classReady = true →
    cp15.classInputsValid = true ∧ cp15.currentInputs = cp15.classInputs

structure Cp15.Coherent (cp15 : Cp15) : Prop where
  regions : cp15.RegionsDerived
  built : cp15.MapsMatchInputs
  settled : cp15.Settled

/-- The published windows are those of the current map. -/
def BusCore.Fresh (core : BusCore) : Prop :=
  core.fast = busFastRefresh core.allocated core.cp15.visible core.wramcnt

structure BusCore.Coherent (core : BusCore) : Prop where
  cp15 : core.cp15.Coherent
  fresh : core.Fresh

/-! ### The walk depends on the class inputs only -/

private theorem control_bit_of_inputs {a b : Cp15} (h : a.currentInputs = b.currentInputs)
    (bit : UInt32) (hbit : cp15ClassControlMask &&& bit = bit) :
    a.visible.control &&& bit = b.visible.control &&& bit := by
  have hmasked : a.visible.control &&& cp15ClassControlMask =
      b.visible.control &&& cp15ClassControlMask := congrArg Cp15ClassInputs.control h
  calc
    a.visible.control &&& bit = a.visible.control &&& cp15ClassControlMask &&& bit := by
      rw [UInt32.and_assoc, hbit]
    _ = b.visible.control &&& cp15ClassControlMask &&& bit := by rw [hmasked]
    _ = b.visible.control &&& bit := by rw [UInt32.and_assoc, hbit]

private theorem contains_of_inputs {a b : Cp15} (ha : a.RegionsDerived) (hb : b.RegionsDerived)
    (h : a.currentInputs = b.currentInputs) (i : Fin 8) (addr : UInt32) :
    mpuRegionContains a i addr = mpuRegionContains b i addr := by
  have hregion : a.mpuRegion = b.mpuRegion := congrArg Cp15ClassInputs.region h
  have hbase : a.mpuRegionBase[i] = b.mpuRegionBase[i] := by
    rw [(ha i).1, (hb i).1, hregion]
  have hend : a.mpuRegionEnd[i] = b.mpuRegionEnd[i] := by
    rw [(ha i).2, (hb i).2, hregion]
  unfold mpuRegionContains
  rw [hbase, hend]

private theorem cacheableReference_of_inputs {a b : Cp15} (ha : a.RegionsDerived)
    (hb : b.RegionsDerived) (h : a.currentInputs = b.currentInputs) (enable bits addr : UInt32)
    (henable : cp15ClassControlMask &&& enable = enable) :
    cacheableReference a enable bits addr = cacheableReference b enable bits addr := by
  have hwalk (regions : List (Fin 8)) :
      walkRegions a bits addr regions = walkRegions b bits addr regions := by
    induction regions with
    | nil => rfl
    | cons i rest ih => simp only [walkRegions, contains_of_inputs ha hb h, ih]
  unfold cacheableReference
  rw [control_bit_of_inputs h enable henable, control_bit_of_inputs h 1 (by decide), hwalk]

theorem Cp15ClassMaps.Exact.of_inputs {maps : Cp15ClassMaps} {a b : Cp15}
    (hexact : maps.Exact a) (ha : a.RegionsDerived) (hb : b.RegionsDerived)
    (h : a.currentInputs = b.currentInputs) : maps.Exact b := by
  have hdata : a.cacheCfg[0] = b.cacheCfg[0] := congrArg Cp15ClassInputs.dcacheBits h
  have hcode : a.cacheCfg[1] = b.cacheCfg[1] := congrArg Cp15ClassInputs.icacheBits h
  intro addr
  have hboth := hexact addr
  unfold cp15DataCacheableReference cp15CodeCacheableReference at hboth ⊢
  rw [hdata, hcode, cacheableReference_of_inputs ha hb h _ _ _ (by decide),
    cacheableReference_of_inputs ha hb h _ _ _ (by decide)] at hboth
  exact hboth

theorem Cp15.Coherent.exact {cp15 : Cp15} (h : cp15.Coherent)
    (hready : cp15.classMaps.classReady = true) : cp15.classMaps.Exact cp15 := by
  obtain ⟨hvalid, hinputs⟩ := h.settled hready
  exact h.built hvalid hready cp15 h.regions hinputs

/-- Whether or not the bitmaps can represent the regions, the data class of an
address is the answer of the walk. -/
theorem Cp15.Coherent.dataCacheable_eq {cp15 : Cp15} (h : cp15.Coherent) (addr : UInt32) :
    cp15DataCacheable cp15 addr = cp15DataCacheableReference cp15 addr := by
  unfold cp15DataCacheable
  cases hready : cp15.classMaps.classReady with
  | true => exact (h.exact hready addr).1
  | false => rfl

theorem Cp15.Coherent.codeCacheable_eq {cp15 : Cp15} (h : cp15.Coherent) (addr : UInt32) :
    cp15CodeCacheable cp15 addr = cp15CodeCacheableReference cp15 addr := by
  unfold cp15CodeCacheable
  cases hready : cp15.classMaps.classReady with
  | true => exact (h.exact hready addr).2
  | false => rfl

/-! ### Synchronising the bitmaps -/

theorem classSync_coherent {cp15 : Cp15} (hregions : cp15.RegionsDerived)
    (hbuilt : cp15.MapsMatchInputs) : (cp15ClassSync cp15).Coherent := by
  unfold cp15ClassSync
  by_cases hsame : (cp15.classInputsValid && cp15.currentInputs == cp15.classInputs) = true
  · rw [if_pos hsame]
    obtain ⟨hvalid, hinputs⟩ := Bool.and_eq_true_iff.mp hsame
    exact ⟨hregions, hbuilt, fun _ => ⟨hvalid, beq_iff_eq.mp hinputs⟩⟩
  · rw [if_neg hsame]
    refine ⟨hregions, ?_, fun _ => ⟨rfl, rfl⟩⟩
    intro _ hready regs hregs hinputs
    exact (rebuild_exact cp15 hready).of_inputs hregions hregs hinputs.symm

theorem classSync_visible (cp15 : Cp15) : (cp15ClassSync cp15).visible = cp15.visible := by
  unfold cp15ClassSync
  split <;> rfl

theorem Cp15.MapsMatchInputs.of_sameClass {a b : Cp15} (h : a.MapsMatchInputs)
    (hclass : b.SameClass a) : b.MapsMatchInputs := by
  obtain ⟨hinputs, hvalid, hmaps⟩ := hclass
  unfold Cp15.MapsMatchInputs
  rw [hinputs, hvalid, hmaps]
  exact h

theorem Cp15.Coherent.of_sameClass {a b : Cp15} (h : a.Coherent) (hclass : b.SameClass a)
    (hregions : b.RegionsDerived) (hcurrent : b.currentInputs = a.currentInputs) :
    b.Coherent := by
  refine ⟨hregions, h.built.of_sameClass hclass, ?_⟩
  obtain ⟨hinputs, hvalid, hmaps⟩ := hclass
  unfold Cp15.Settled
  rw [hinputs, hvalid, hmaps, hcurrent]
  exact h.settled

theorem fastRefresh_fresh (core : BusCore) : core.fastRefresh.Fresh := rfl

/-! ### One register write -/

theorem setMpuRegion_derived {cp15 : Cp15} (h : cp15.RegionsDerived) (index : Fin 8)
    (reg : UInt32) : (setMpuRegion cp15 index reg).RegionsDerived := by
  intro i
  have hi := h i
  simp only [setMpuRegion, Fin.getElem_fin, Vector.getElem_set] at hi ⊢
  by_cases hindex : index.val = i.val
  · simp [hindex]
  · simpa [hindex] using hi

/-- Everything a register write can do to CP15 and to the windows. Only `c1`,
`c2` and `c6` writes reach the inputs of the class bitmaps. -/
private theorem coprocWriteRegister_spec {core : BusCore} (hregions : core.cp15.RegionsDerived)
    (hfresh : core.Fresh) (w : CoprocWrite) :
    (coprocWriteRegister core w).cp15.SameClass core.cp15 ∧
      (coprocWriteRegister core w).cp15.RegionsDerived ∧
      (coprocWriteRegister core w).Fresh ∧
      ((w.crn == 1 || w.crn == 2 || w.crn == 6) = false →
        (coprocWriteRegister core w).cp15.currentInputs = core.cp15.currentInputs) := by
  have hsame : core.cp15.SameClass core.cp15 := ⟨rfl, rfl, rfl⟩
  unfold coprocWriteRegister
  by_cases h1 : (w.crn == 1) = true
  · rw [if_pos h1]
    split
    · exact ⟨hsame, hregions, fastRefresh_fresh _, by simp [h1]⟩
    · exact ⟨hsame, hregions, hfresh, by simp [h1]⟩
  rw [if_neg h1]
  by_cases h2 : (w.crn == 2) = true
  · rw [if_pos h2]
    split
    · exact ⟨hsame, hregions, hfresh, by simp [h2]⟩
    · exact ⟨hsame, hregions, hfresh, by simp [h2]⟩
  rw [if_neg h2]
  by_cases h3 : (w.crn == 3) = true
  · rw [if_pos h3]
    refine ⟨hsame, hregions, hfresh, fun _ => ?_⟩
    -- The bufferability registers live in entries 4..7, past the two the walk reads.
    have hindex : 4 ≤ (lowThreeBits (4 + (w.op2 &&& 3))).val := by
      have hlow : (w.op2 &&& 3).toNat = w.op2.toNat % 4 := toNat_and_mask _ _ 2 rfl
      have hsum : (4 + (w.op2 &&& 3)).toNat = 4 + w.op2.toNat % 4 := by
        rw [UInt32.toNat_add, hlow]
        simp only [UInt32.reduceToNat]
        omega
      have hmask : (lowThreeBits (4 + (w.op2 &&& 3))).val = (4 + (w.op2 &&& 3)).toNat % 8 :=
        toNat_and_mask _ _ 3 rfl
      omega
    have h0 : (lowThreeBits (4 + (w.op2 &&& 3))).val ≠ 0 := by omega
    have h1' : (lowThreeBits (4 + (w.op2 &&& 3))).val ≠ 1 := by omega
    simp [Cp15.currentInputs, h0, h1']
  rw [if_neg h3]
  by_cases h5 : (w.crn == 5) = true
  · rw [if_pos h5]
    exact ⟨hsame, hregions, hfresh, fun _ => rfl⟩
  rw [if_neg h5]
  by_cases h6 : (w.crn == 6) = true
  · rw [if_pos h6]
    exact ⟨hsame, setMpuRegion_derived hregions _ _, hfresh, by simp [h6]⟩
  rw [if_neg h6]
  by_cases h9 : (w.crn == 9) = true
  · rw [if_pos h9]
    split
    · exact ⟨hsame, hregions, fastRefresh_fresh _, fun _ => rfl⟩
    · split
      · exact ⟨hsame, hregions, fastRefresh_fresh _, fun _ => rfl⟩
      · exact ⟨hsame, hregions, hfresh, fun _ => rfl⟩
  rw [if_neg h9]
  exact ⟨hsame, hregions, hfresh, fun _ => rfl⟩

theorem BusCore.Coherent.coprocWrite {core : BusCore} (h : core.Coherent) (w : CoprocWrite) :
    (runtimeCoprocWrite core w).Coherent := by
  have hbumped : (BusCore.Coherent { core with cp15 := bumpTimingGeneration core.cp15 }) :=
    ⟨h.cp15.of_sameClass ⟨rfl, rfl, rfl⟩ h.cp15.regions rfl, h.fresh⟩
  unfold runtimeCoprocWrite
  split
  · exact h
  · split
    · exact h
    · simp only
      generalize hcounted : (if (w.crn == 1 || w.crn == 2 || w.crn == 6 || w.crn == 9) = true then
        { core with cp15 := bumpTimingGeneration core.cp15 } else core) = counted
      have hstart : counted.Coherent := by
        rw [← hcounted]
        split
        · exact hbumped
        · exact h
      obtain ⟨hclass, hregions, hfresh, hinputs⟩ :=
        coprocWriteRegister_spec hstart.cp15.regions hstart.fresh w
      by_cases hsync : (w.crn == 1 || w.crn == 2 || w.crn == 6) = true
      · rw [if_pos hsync]
        refine ⟨classSync_coherent hregions (hstart.cp15.built.of_sameClass hclass), ?_⟩
        unfold BusCore.Fresh BusCore.classSync
        simp only [classSync_visible]
        exact hfresh
      · rw [if_neg hsync]
        exact ⟨hstart.cp15.of_sameClass hclass hregions (hinputs (by simpa using hsync)), hfresh⟩

/-! ### Reset, import and WRAMCNT -/

private theorem sync_invalidated {cp15 : Cp15} (hregions : cp15.RegionsDerived) :
    (cp15ClassSync { cp15 with classInputsValid := false }).Coherent := by
  refine classSync_coherent hregions ?_
  intro hvalid
  cases hvalid

theorem BusCore.Coherent.reset {core : BusCore} (h : core.Coherent) :
    (cp15Reset core).Coherent :=
  ⟨sync_invalidated h.cp15.regions, fastRefresh_fresh _⟩

/-- Importing every region register derives every range, whatever the ranges
were before. -/
theorem importMpuRegions_derived (cp15 : Cp15) (regions : Vector UInt32 8) :
    (importMpuRegions cp15 regions).RegionsDerived := by
  have hfold (indices : List (Fin 8)) (start : Cp15) (i : Fin 8)
      (hstart : i ∈ indices ∨ start.mpuRegionBase[i] = (mpuRegionRange start.mpuRegion[i]).1 ∧
        start.mpuRegionEnd[i] = (mpuRegionRange start.mpuRegion[i]).2) :
      let final := indices.foldl (fun cp15 i => setMpuRegion cp15 i regions[i]) start
      final.mpuRegionBase[i] = (mpuRegionRange final.mpuRegion[i]).1 ∧
        final.mpuRegionEnd[i] = (mpuRegionRange final.mpuRegion[i]).2 := by
    induction indices generalizing start with
    | nil => exact hstart.resolve_left (by simp)
    | cons index indices ih =>
        refine ih (setMpuRegion start index regions[index]) ?_
        by_cases hindex : index = i
        · subst hindex
          simp [setMpuRegion]
        · have hval : index.val ≠ i.val := fun heq => hindex (Fin.ext heq)
          rcases hstart with hmem | hderived
          · rcases List.mem_cons.mp hmem with rfl | hmem
            · exact absurd rfl hindex
            · exact Or.inl hmem
          · right
            simpa [setMpuRegion, hval] using hderived
  intro i
  exact hfold (List.finRange 8) cp15 i (Or.inl (List.mem_finRange i))

theorem BusCore.Coherent.savestateImport {core : BusCore} (saved : NdsCp15SaveState) :
    (cp15SavestateImport core saved).Coherent :=
  ⟨sync_invalidated (importMpuRegions_derived _ _), fastRefresh_fresh _⟩

theorem BusCore.Coherent.wramcnt {core : BusCore} (h : core.Coherent) (byte : UInt8) :
    (wramcntWrite core byte).Coherent :=
  ⟨h.cp15, fastRefresh_fresh _⟩

theorem BusCore.Coherent.init {core : BusCore} (h : core.Coherent) :
    (busInit core).Coherent :=
  ⟨h.cp15, fastRefresh_fresh _⟩

/-- The statically initialised globals. -/
theorem coherent_start : BusCore.Coherent {} where
  cp15 :=
    { regions := by
        intro i
        simp [mpuRegionRange]
      built := by
        intro hvalid
        cases hvalid
      settled := by
        intro hready
        cases hready }
  fresh := rfl

end NdsRecomp.Bus
