import NdsRecomp.Library.ByteBitmap
import NdsRecomp.Bus.FastWindow

/-!
The ARM9 system control coprocessor: control and TCM registers, the eight
protection regions with their cacheability bits, and the two page bitmaps that
cache the result of walking the regions. Writes that move TCM republish the
bus windows, so the registers are kept together with them.
-/

namespace NdsRecomp.Bus

open Library

/-- The inputs of the region walk as last seen by `cp15_class_sync`. -/
structure Cp15ClassInputs where
  control : UInt32 := 0
  dcacheBits : UInt32 := 0
  icacheBits : UInt32 := 0
  region : Vector UInt32 8 := Vector.replicate 8 0
deriving DecidableEq

structure Cp15ClassMaps where
  dcachePage : ByteBitmap := fun _ => 0
  icachePage : ByteBitmap := fun _ => 0
  classReady : Bool := false

structure Cp15 where
  visible : Cp15State := {}
  timingGeneration : UInt32 := 1
  mpuRegion : Vector UInt32 8 := Vector.replicate 8 0
  mpuRegionBase : Vector UInt64 8 := Vector.replicate 8 0
  mpuRegionEnd : Vector UInt64 8 := Vector.replicate 8 0
  cacheCfg : Vector UInt32 8 := Vector.replicate 8 0
  accessPerm : Vector UInt32 8 := Vector.replicate 8 0
  classInputs : Cp15ClassInputs := {}
  classInputsValid : Bool := false
  classMaps : Cp15ClassMaps := {}

/-- `512 << N` with `N` the bits [5:1] of the register, in 32 bits. -/
def tcmBytes (reg : UInt32) : UInt32 :=
  (512 : UInt32) <<< ((reg >>> 1) &&& 0x1F)

/-- `1u << n` -/
def controlBit (n : UInt32) : UInt32 := (1 : UInt32) <<< n

def applyControl (cp15 : Cp15) (v : UInt32) : Cp15 :=
  { cp15 with
    visible := { cp15.visible with
      control := v
      highVectors := v &&& controlBit 13 != 0
      dtcmEnable := v &&& controlBit 16 != 0
      itcmEnable := v &&& controlBit 18 != 0 } }

/-- The half-open address range of a region register, `(0, 0)` when disabled. -/
def mpuRegionRange (reg : UInt32) : UInt64 × UInt64 :=
  if reg &&& 1 == 0 then (0, 0)
  else
    let n := (reg >>> 1) &&& 0x1F
    let size : UInt64 := 1 <<< (n.toUInt64 + 1)
    let base := (reg &&& 0xFFFFF000).toUInt64 &&& ~~~(size - 1)
    (base, base + size)

def setMpuRegion (cp15 : Cp15) (index : Fin 8) (reg : UInt32) : Cp15 :=
  { cp15 with
    mpuRegion := cp15.mpuRegion.set index reg
    mpuRegionBase := cp15.mpuRegionBase.set index (mpuRegionRange reg).1
    mpuRegionEnd := cp15.mpuRegionEnd.set index (mpuRegionRange reg).2 }

/-- Base and end of every region are those its register encodes. -/
def Cp15.RegionsDerived (cp15 : Cp15) : Prop :=
  ∀ i : Fin 8, cp15.mpuRegionBase[i] = (mpuRegionRange cp15.mpuRegion[i]).1 ∧
    cp15.mpuRegionEnd[i] = (mpuRegionRange cp15.mpuRegion[i]).2

def mpuRegionContains (cp15 : Cp15) (index : Fin 8) (addr : UInt32) : Bool :=
  cp15.mpuRegionEnd[index] != 0 &&
    decide (cp15.mpuRegionBase[index] ≤ addr.toUInt64) &&
    decide (addr.toUInt64 < cp15.mpuRegionEnd[index])

/-! ### One region, one page -/

theorem page_toNat (addr : UInt32) : (addr >>> 12).toNat = addr.toNat / 4096 := by
  rw [UInt32.toNat_shiftRight]
  exact Nat.shiftRight_eq_div_pow _ 12

theorem page_lt (addr : UInt32) : (addr >>> 12).toNat < 2 ^ 20 := by
  have haddr := addr.toNat_lt
  rw [page_toNat]
  omega

private theorem aligned_of_and_eq_zero {x : UInt64} (h : ¬ (x &&& 0xFFF != 0) = true) :
    x.toNat % 4096 = 0 ∧ (x >>> 12).toNat = x.toNat / 4096 := by
  have hzero : x &&& 0xFFF = 0 := by simpa using h
  have hnat := congrArg UInt64.toNat hzero
  rw [UInt64.toNat_and] at hnat
  have hmod := Nat.and_two_pow_sub_one_eq_mod x.toNat 12
  refine ⟨?_, ?_⟩
  · rw [← hmod]
    exact hnat
  · rw [UInt64.toNat_shiftRight]
    exact Nat.shiftRight_eq_div_pow _ 12

/-- A region with page-aligned ends contains an address exactly when its page
range contains the page of the address. -/
theorem contains_iff_page {cp15 : Cp15} {i : Fin 8} {addr : UInt32}
    (hend : ¬ (cp15.mpuRegionEnd[i] == 0) = true)
    (hbase : ¬ (cp15.mpuRegionBase[i] &&& 0xFFF != 0) = true)
    (hlast : ¬ (cp15.mpuRegionEnd[i] &&& 0xFFF != 0) = true) :
    mpuRegionContains cp15 i addr = true ↔
      (cp15.mpuRegionBase[i] >>> 12).toNat ≤ (addr >>> 12).toNat ∧
        (addr >>> 12).toNat < (cp15.mpuRegionEnd[i] >>> 12).toNat := by
  obtain ⟨hbaseMod, hbasePage⟩ := aligned_of_and_eq_zero hbase
  obtain ⟨hlastMod, hlastPage⟩ := aligned_of_and_eq_zero hlast
  have hne : cp15.mpuRegionEnd[i] ≠ 0 := by simpa using hend
  rw [hbasePage, hlastPage, page_toNat]
  simp only [mpuRegionContains, Bool.and_eq_true, bne_iff_ne, ne_eq, hne, not_false_eq_true,
    true_and, decide_eq_true_eq, UInt64.le_iff_toNat_le, UInt64.lt_iff_toNat_lt,
    UInt32.toNat_toUInt64]
  omega

theorem contains_of_disabled {cp15 : Cp15} {i : Fin 8} (addr : UInt32)
    (hend : (cp15.mpuRegionEnd[i] == 0) = true) : mpuRegionContains cp15 i addr = false := by
  have hzero : cp15.mpuRegionEnd[i] = 0 := by simpa using hend
  simp [mpuRegionContains, hzero]

/-! ### The reference walk -/

/-- Bit `i` of a cacheability register. -/
def regionBit (bits : UInt32) (i : Fin 8) : Bool :=
  (bits >>> UInt32.ofNat i) &&& 1 != 0

/-- `for (i = 7; i >= 0; --i) if (contains(i)) return (bits >> i) & 1;` over the
indices still to visit. -/
def walkRegions (cp15 : Cp15) (bits addr : UInt32) : List (Fin 8) → Bool
  | [] => false
  | i :: rest =>
      if mpuRegionContains cp15 i addr then regionBit bits i
      else walkRegions cp15 bits addr rest

/-- Region indices from the highest to the lowest. -/
def regionsDown : List (Fin 8) := (List.finRange 8).reverse

/-- The two walks differ in the enable bit of the cache and in the
cacheability register. -/
def cacheableReference (cp15 : Cp15) (enable : UInt32) (bits : UInt32) (addr : UInt32) :
    Bool :=
  if cp15.visible.control &&& enable == 0 then false
  else if cp15.visible.control &&& 1 == 0 then true
  else walkRegions cp15 bits addr regionsDown

def cp15CodeCacheableReference (cp15 : Cp15) (addr : UInt32) : Bool :=
  cacheableReference cp15 (controlBit 12) cp15.cacheCfg[1] addr

def cp15DataCacheableReference (cp15 : Cp15) (addr : UInt32) : Bool :=
  cacheableReference cp15 (controlBit 2) cp15.cacheCfg[0] addr

/-! ### The page bitmaps -/

def classBitSet (bm : ByteBitmap) (page : Nat) (value : Bool) : ByteBitmap :=
  bm.setBit page value

def classBitmapFill (bm : ByteBitmap) (first last : Nat) (value : Bool) : ByteBitmap :=
  bm.fill first last value

/-- The region loop of the rebuild, in ascending order; a sub-page region ends
it with `exact` false. -/
def rebuildRegions (cp15 : Cp15) (dcacheOn icacheOn : Bool) (dbits ibits : UInt32) :
    List (Fin 8) → Cp15ClassMaps → Cp15ClassMaps
  | [], maps => { maps with classReady := true }
  | i :: rest, maps =>
      let base := cp15.mpuRegionBase[i]
      let last := cp15.mpuRegionEnd[i]
      if last == 0 then rebuildRegions cp15 dcacheOn icacheOn dbits ibits rest maps
      else if base &&& 0xFFF != 0 || last &&& 0xFFF != 0 then
        { maps with classReady := false }
      else
        rebuildRegions cp15 dcacheOn icacheOn dbits ibits rest
          { maps with
            dcachePage := classBitmapFill maps.dcachePage (base >>> 12).toNat (last >>> 12).toNat
              (dcacheOn && regionBit dbits i)
            icachePage := classBitmapFill maps.icachePage (base >>> 12).toNat (last >>> 12).toNat
              (icacheOn && regionBit ibits i) }

/-- The bytes of each bitmap: one bit for every 4 KiB page of 4 GiB. -/
def cp15ClassBytes : Nat := 2 ^ 20 / 8

def cp15RebuildClassBitmaps (cp15 : Cp15) : Cp15ClassMaps :=
  let control := cp15.visible.control
  let dcacheOn := control &&& controlBit 2 != 0
  let icacheOn := control &&& controlBit 12 != 0
  let mpuOn := control &&& 1 != 0
  if !mpuOn then
    { dcachePage := cp15.classMaps.dcachePage.setBytes 0 cp15ClassBytes dcacheOn
      icachePage := cp15.classMaps.icachePage.setBytes 0 cp15ClassBytes icacheOn
      classReady := true }
  else
    rebuildRegions cp15 dcacheOn icacheOn cp15.cacheCfg[0] cp15.cacheCfg[1] (List.finRange 8)
      { dcachePage := cp15.classMaps.dcachePage.setBytes 0 cp15ClassBytes false
        icachePage := cp15.classMaps.icachePage.setBytes 0 cp15ClassBytes false }

def cp15ClassControlMask : UInt32 := 1 ||| controlBit 2 ||| controlBit 12

/-- The registers the walk reads, with the control bits it does not read
masked off. -/
def Cp15.currentInputs (cp15 : Cp15) : Cp15ClassInputs where
  control := cp15.visible.control &&& cp15ClassControlMask
  dcacheBits := cp15.cacheCfg[0]
  icacheBits := cp15.cacheCfg[1]
  region := cp15.mpuRegion

def cp15ClassSync (cp15 : Cp15) : Cp15 :=
  if cp15.classInputsValid && cp15.currentInputs == cp15.classInputs then cp15
  else
    { cp15 with
      classInputs := cp15.currentInputs
      classInputsValid := true
      classMaps := cp15RebuildClassBitmaps cp15 }

def classPageBit (bm : ByteBitmap) (addr : UInt32) : Bool :=
  bm.bit (addr >>> 12).toNat

def cp15CodeCacheable (cp15 : Cp15) (addr : UInt32) : Bool :=
  if cp15.classMaps.classReady then classPageBit cp15.classMaps.icachePage addr
  else cp15CodeCacheableReference cp15 addr

def cp15DataCacheable (cp15 : Cp15) (addr : UInt32) : Bool :=
  if cp15.classMaps.classReady then classPageBit cp15.classMaps.dcachePage addr
  else cp15DataCacheableReference cp15 addr

/-! ### Registers with the published windows -/

/-- CP15, WRAMCNT and what `bus_fast_refresh` published last.
`arm9CodePubGen` is the validity token of the ARM9 code-fetch class. -/
structure BusCore where
  allocated : Bool := false
  cp15 : Cp15 := {}
  wramcnt : UInt8 := 0
  fast : BusFast := {}
  arm9CodePubGen : UInt32 := 0

def BusCore.fastRefresh (core : BusCore) : BusCore :=
  { core with fast := busFastRefresh core.allocated core.cp15.visible core.wramcnt }

def BusCore.classSync (core : BusCore) : BusCore :=
  { core with cp15 := cp15ClassSync core.cp15 }

/-- The map-relevant part of `bus_init`: the backings exist and the windows
are published. -/
def busInit (core : BusCore) : BusCore :=
  BusCore.fastRefresh { core with allocated := true, arm9CodePubGen := 0 }

/-- Advance the timing generation, skipping zero. -/
def bumpTimingGeneration (cp15 : Cp15) : Cp15 :=
  { cp15 with timingGeneration := bumpGeneration cp15.timingGeneration }

def cp15Reset (core : BusCore) : BusCore :=
  let cp15 := bumpTimingGeneration
    { core.cp15 with visible := { control := controlBit 13, highVectors := true } }
  BusCore.fastRefresh
    { core with cp15 := cp15ClassSync { cp15 with classInputsValid := false } }

/-- The register the write selects, as `(crn, crm, op2)`. -/
structure CoprocWrite where
  cpNum : UInt32
  op1 : UInt32
  crn : UInt32
  crm : UInt32
  op2 : UInt32
  value : UInt32

def lowThreeBits (v : UInt32) : Fin 8 :=
  ⟨(v &&& 7).toNat, by
    rw [UInt32.toNat_and]
    exact lt_of_le_of_lt Nat.and_le_right (by decide)⟩

/-- The WFI encodings, which halt the CPU and touch no register. -/
def CoprocWrite.isHalt (w : CoprocWrite) : Bool :=
  w.crn == 7 && (w.crm == 0 && w.op2 == 4 || w.crm == 8 && w.op2 == 2)

/-- The `switch (crn)` of `runtime_coproc_write`. -/
def coprocWriteRegister (core : BusCore) (w : CoprocWrite) : BusCore :=
  if w.crn == 1 then
    if w.crm == 0 && w.op2 == 0 then
      BusCore.fastRefresh { core with cp15 := applyControl core.cp15 w.value }
    else core
  else if w.crn == 2 then
    if w.crm == 0 then
      { core with cp15 := { core.cp15 with
          cacheCfg := core.cp15.cacheCfg.set (lowThreeBits w.op2) w.value } }
    else core
  else if w.crn == 3 then
    { core with cp15 := { core.cp15 with
        cacheCfg := core.cp15.cacheCfg.set (lowThreeBits (4 + (w.op2 &&& 3))) w.value } }
  else if w.crn == 5 then
    { core with cp15 := { core.cp15 with
        accessPerm := core.cp15.accessPerm.set (lowThreeBits w.op2) w.value } }
  else if w.crn == 6 then
    { core with cp15 := setMpuRegion core.cp15 (lowThreeBits w.crm) w.value }
  else if w.crn == 9 then
    if w.crm == 1 && w.op2 == 0 then
      BusCore.fastRefresh { core with cp15 := { core.cp15 with
        visible := { core.cp15.visible with
          dtcmBase := w.value &&& 0xFFFFF000
          dtcmSize := tcmBytes w.value } } }
    else if w.crm == 1 && w.op2 == 1 then
      BusCore.fastRefresh { core with cp15 := { core.cp15 with
        visible := { core.cp15.visible with itcmSize := tcmBytes w.value } } }
    else core
  else core

/-- `runtime_coproc_write`. The WFI encodings call `nds_cpu_enter_halt(0)`
instead, which no register of this state records. -/
def runtimeCoprocWrite (core : BusCore) (w : CoprocWrite) : BusCore :=
  if w.cpNum != 15 then core
  else if w.isHalt then core
  else
    let core :=
      if w.crn == 1 || w.crn == 2 || w.crn == 6 || w.crn == 9 then
        { core with cp15 := bumpTimingGeneration core.cp15 }
      else core
    let core := coprocWriteRegister core w
    if w.crn == 1 || w.crn == 2 || w.crn == 6 then core.classSync else core

structure NdsCp15SaveState where
  visible : Cp15State := {}
  timingGeneration : UInt32 := 0
  mpuRegion : Vector UInt32 8 := Vector.replicate 8 0
  cacheCfg : Vector UInt32 8 := Vector.replicate 8 0
  accessPerm : Vector UInt32 8 := Vector.replicate 8 0
deriving DecidableEq

def cp15SavestateExport (cp15 : Cp15) : NdsCp15SaveState where
  visible := cp15.visible
  timingGeneration := cp15.timingGeneration
  mpuRegion := cp15.mpuRegion
  cacheCfg := cp15.cacheCfg
  accessPerm := cp15.accessPerm

/-- `set_mpu_region` over every index, from the imported registers. -/
def importMpuRegions (cp15 : Cp15) (regions : Vector UInt32 8) : Cp15 :=
  (List.finRange 8).foldl (fun cp15 i => setMpuRegion cp15 i regions[i]) cp15

/-- Always succeeds. -/
def cp15SavestateImport (core : BusCore) (saved : NdsCp15SaveState) : BusCore :=
  let cp15 := importMpuRegions
    { core.cp15 with
      visible := saved.visible
      timingGeneration := if saved.timingGeneration == 0 then 1 else saved.timingGeneration
      cacheCfg := saved.cacheCfg
      accessPerm := saved.accessPerm }
    saved.mpuRegion
  { BusCore.fastRefresh
      { core with cp15 := cp15ClassSync { cp15 with classInputsValid := false } } with
    arm9CodePubGen := 0 }

/-- The byte of a 0x04000247 write. -/
def wramcntWrite (core : BusCore) (byte : UInt8) : BusCore :=
  BusCore.fastRefresh { core with wramcnt := byte }

end NdsRecomp.Bus
