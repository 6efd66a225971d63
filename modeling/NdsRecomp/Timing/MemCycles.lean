import NdsRecomp.Library.OpSystem
import NdsRecomp.Bus.CoreInvariant

/-!
The cost of a data access, in the three spellings the source keeps: the inline
one over published mirrors and page bitmaps, its out-of-line fallback, and the
reference that walks the protection regions. They are compared over every state
the register writes, resets and imports can produce.
-/

namespace NdsRecomp.Timing

open Library Bus

/-- What the access timing reads, with the address record it leaves behind. -/
structure MemTiming where
  core : BusCore := {}
  active : NdsCpu := .arm9
  exmemcnt : NdsCpu → UInt16 := fun _ => 0x4000
  powercontrol7 : UInt16 := 0x0001
  wifiwaitcnt : UInt16 := 0
  lastDataAddr : NdsCpu → UInt32 := fun _ => 0xFFFFFFFF

def MemTiming.noteDataAddr (s : MemTiming) (addr : UInt32) : MemTiming :=
  { s with lastDataAddr := Function.update s.lastDataAddr s.active addr }

/-! ### Regions -/

/-- `n[4] = {10, 8, 6, 18}` at a two-bit field. -/
def waitstates (field : UInt16) : UInt32 :=
  (#v[10, 8, 6, 18] : Vector UInt32 4)[field.toNat % 4]

structure Arm7Region where
  n16 : UInt32
  s16 : UInt32
  busWidth : UInt8
deriving DecidableEq

def arm7Region (s : MemTiming) (addr : UInt32) : Arm7Region :=
  if addr ≥ 0x02000000 ∧ addr < 0x03000000 then ⟨8, 1, 16⟩
  else if addr ≥ 0x06000000 ∧ addr < 0x07000000 then ⟨1, 1, 16⟩
  else if addr ≥ 0x04800000 ∧ addr < 0x04810000 then
    if s.powercontrol7 &&& 0x0002 == 0 then ⟨1, 1, 32⟩
    else
      let wait := s.wifiwaitcnt
      if addr < 0x04808000 then
        ⟨waitstates wait, if wait &&& 0x0004 != 0 then 4 else 6, 16⟩
      else
        ⟨waitstates (wait >>> 3), if wait &&& 0x0020 != 0 then 4 else 10, 16⟩
  else if addr ≥ 0x08000000 ∧ addr < 0x0A000000 then
    let ex := s.exmemcnt .arm7
    if ex &&& 0x0080 == 0 then ⟨1, 1, 32⟩
    else ⟨waitstates (ex >>> 2), if ex &&& 0x10 != 0 then 4 else 6, 16⟩
  else if addr ≥ 0x0A000000 ∧ addr < 0x0B000000 then
    let ex := s.exmemcnt .arm7
    if ex &&& 0x0080 == 0 then ⟨1, 1, 32⟩
    else ⟨waitstates ex, waitstates ex, 8⟩
  else ⟨1, 1, 32⟩

def arm7N32 (r : Arm7Region) : UInt32 :=
  if r.busWidth == 32 then r.n16
  else if r.busWidth == 16 then r.n16 + r.s16
  else r.n16 + 3 * r.s16

def arm7S32 (r : Arm7Region) : UInt32 :=
  if r.busWidth == 32 then r.s16
  else if r.busWidth == 16 then 2 * r.s16
  else 4 * r.s16

def arm9GbaSlotCycles (s : MemTiming) (addr width : UInt32) (sequential : Bool) : UInt32 :=
  let ex := s.exmemcnt .arm9
  if ex &&& 0x0080 != 0 then
    if sequential && decide (width ≥ 4) then 2 else 8
  else if addr < 0x0A000000 then
    let n16 := waitstates (ex >>> 2)
    let s16 : UInt32 := if ex &&& 0x0010 != 0 then 4 else 6
    if sequential && decide (width ≥ 4) then (2 * s16) <<< 1
    else
      let nonseq := if width ≥ 4 then n16 + s16 else n16
      (nonseq + 3) <<< 1
  else
    let ramN := waitstates ex
    if sequential && decide (width ≥ 4) then ramN <<< 1
    else (ramN + 3) <<< 1

/-- The cost of an uncached ARM9 access outside the GBA slot. -/
def arm9UncachedCycles (mainRam palVram : Bool) (width : UInt32) (sequential : Bool) :
    UInt32 :=
  if sequential then if mainRam || palVram then 4 else 2
  else if width ≥ 4 then if mainRam then 18 else if palVram then 10 else 8
  else if mainRam then 16 else 8

def arm7DataCycles (s : MemTiming) (addr width : UInt32) (sequential : Bool) : UInt32 :=
  let r := arm7Region s addr
  if width ≥ 4 then if sequential then arm7S32 r else arm7N32 r else r.n16

/-! ### The three spellings -/

/-- The ARM9 part the fallback and the reference share, with the data class of
the address as the one thing they obtain differently. -/
def arm9DataCycles (s : MemTiming) (cacheable : Bool) (addr width : UInt32)
    (sequential : Bool) : UInt32 :=
  let cp15 := s.core.cp15.visible
  if cp15.itcmEnable ∧ addr < cp15.itcmSize then 1
  else if cp15.dtcmEnable ∧ addr ≥ cp15.dtcmBase ∧ addr - cp15.dtcmBase < cp15.dtcmSize then 1
  else if cacheable then if sequential then 1 else 3
  else if addr ≥ 0x08000000 ∧ addr < 0x0B000000 then
    arm9GbaSlotCycles s addr width sequential
  else
    arm9UncachedCycles (decide (addr ≥ 0x02000000) && decide (addr < 0x03000000))
      (decide (addr ≥ 0x05000000) && decide (addr < 0x07000000)) width sequential

def runtimeMemCyclesSlow (s : MemTiming) (addr width : UInt32) (sequential : Bool) :
    UInt32 × MemTiming :=
  let cost :=
    match s.active with
    | .arm7 => arm7DataCycles s addr width sequential
    | .arm9 => arm9DataCycles s (cp15DataCacheable s.core.cp15 addr) addr width sequential
  (cost, s.noteDataAddr addr)

def runtimeMemCyclesReference (s : MemTiming) (addr width : UInt32) (sequential : Bool) :
    UInt32 :=
  match s.active with
  | .arm7 => arm7DataCycles s addr width sequential
  | .arm9 =>
      arm9DataCycles s (cp15DataCacheableReference s.core.cp15 addr) addr width sequential

/-- The inline path of generated code. -/
def runtimeMemCycles (s : MemTiming) (addr width : UInt32) (sequential : Bool) :
    UInt32 × MemTiming :=
  let fast := s.core.fast
  match s.active with
  | .arm9 =>
      let noted := s.noteDataAddr addr
      if addr < fast.memtItcmLimit then (1, noted)
      else if fast.memtDtcmSize ≠ 0 ∧ addr ≥ fast.memtDtcmBase ∧
          addr - fast.memtDtcmBase < fast.memtDtcmSize then (1, noted)
      else if !s.core.cp15.classMaps.classReady then
        runtimeMemCyclesSlow noted addr width sequential
      else if classPageBit s.core.cp15.classMaps.dcachePage addr then
        (if sequential then 1 else 3, noted)
      else if addr - 0x08000000 < 0x03000000 then
        runtimeMemCyclesSlow noted addr width sequential
      else
        (arm9UncachedCycles (decide (addr - 0x02000000 < 0x01000000))
          (decide (addr - 0x05000000 < 0x02000000)) width sequential, noted)
  | .arm7 =>
      let noted := s.noteDataAddr addr
      if addr - 0x02000000 < 0x01000000 then
        (if width ≥ 4 then if sequential then 2 else 9 else 8, noted)
      else if addr - 0x06000000 < 0x01000000 then
        (if width ≥ 4 then 2 else 1, noted)
      else if addr - 0x04800000 < 0x00010000 ∨ addr - 0x08000000 < 0x03000000 then
        runtimeMemCyclesSlow noted addr width sequential
      else (1, noted)

/-! ### Register writes that timing depends on -/

/-- `mask_for(width) << shift`, for a write at `addr`. -/
def laneMask (addr width : UInt32) : UInt32 :=
  let mask : UInt32 := if width ≥ 4 then 0xFFFFFFFF else ((1 : UInt32) <<< (width * 8)) - 1
  mask <<< ((addr &&& 1) * 8)

/-- A sub-word write to a 16-bit register kept in one word. -/
def mergeLanes (old : UInt16) (addr value width : UInt32) : UInt16 :=
  let wmask := laneMask addr width
  ((old.toUInt32 &&& ~~~wmask) ||| ((value <<< ((addr &&& 1) * 8)) &&& wmask)).toUInt16

/-- 0x04000204: the ARM7 keeps its own waitstates and mirrors the ownership
bits the ARM9 writes. -/
def ioWriteExmemcnt (s : MemTiming) (addr value width : UInt32) : MemTiming :=
  let merged := mergeLanes (s.exmemcnt s.active) addr value width
  match s.active with
  | .arm9 =>
      let mirrored := (s.exmemcnt .arm7 &&& 0x007F) ||| (merged &&& 0xFF80)
      let owned := Function.update s.exmemcnt .arm9 merged
      { s with exmemcnt := Function.update owned .arm7 mirrored }
  | .arm7 =>
      let kept := (s.exmemcnt .arm7 &&& 0xFF80) ||| (merged &&& 0x007F)
      { s with exmemcnt := Function.update s.exmemcnt .arm7 kept }

/-- 0x04000206: ARM7 only, while Wi-Fi is powered. -/
def ioWriteWifiwaitcnt (s : MemTiming) (addr value width : UInt32) : MemTiming :=
  if s.active ≠ .arm7 ∨ s.powercontrol7 &&& 0x0002 = 0 then s
  else { s with wifiwaitcnt := mergeLanes s.wifiwaitcnt addr value width }

/-- 0x04000304: POWCNT2 for the ARM7. The ARM9's POWCNT1 is not read by the
access timing. -/
def ioWritePowcnt (s : MemTiming) (addr value width : UInt32) : MemTiming :=
  match s.active with
  | .arm9 => s
  | .arm7 => { s with powercontrol7 := mergeLanes s.powercontrol7 addr value width &&& 0x0003 }

inductive MemTimingOp where
  | coprocWrite (w : CoprocWrite)
  | cp15Reset
  | cp15Import (saved : NdsCp15SaveState)
  | busInit
  | wramcntWrite (byte : UInt8)
  | exmemcntWrite (addr value width : UInt32)
  | wifiwaitcntWrite (addr value width : UInt32)
  | powcntWrite (addr value width : UInt32)
  | ioRestore (exmemcnt : NdsCpu → UInt16) (powercontrol7 wifiwaitcnt : UInt16)
  | switchTo (cpu : NdsCpu)
  | access (addr width : UInt32) (sequential : Bool)

def MemTiming.apply (s : MemTiming) : MemTimingOp → MemTiming
  | .coprocWrite w => { s with core := runtimeCoprocWrite s.core w }
  | .cp15Reset => { s with core := Bus.cp15Reset s.core }
  | .cp15Import saved => { s with core := cp15SavestateImport s.core saved }
  | .busInit => { s with core := Bus.busInit s.core }
  | .wramcntWrite byte => { s with core := Bus.wramcntWrite s.core byte }
  | .exmemcntWrite addr value width => ioWriteExmemcnt s addr value width
  | .wifiwaitcntWrite addr value width => ioWriteWifiwaitcnt s addr value width
  | .powcntWrite addr value width => ioWritePowcnt s addr value width
  | .ioRestore exmemcnt powercontrol7 wifiwaitcnt =>
      { s with exmemcnt, powercontrol7, wifiwaitcnt }
  | .switchTo cpu => { s with active := cpu }
  | .access addr width sequential => (runtimeMemCycles s addr width sequential).2

def memTimingSystem : OpSystem MemTiming MemTimingOp where
  initial := fun s => s = {}
  admits := fun _ _ => True
  next := MemTiming.apply

end NdsRecomp.Timing

/-!
The inline access timing equals the reference in every reachable state. The
mirrors of the TCM placement are those of the current CP15 registers, the page
bitmap answers as the region walk whenever it is ready, and the inline range
tests by one subtraction select the ranges the reference tests by two bounds.
-/

namespace NdsRecomp.Timing

open Library Bus

theorem memTiming_coherent_invariant :
    memTimingSystem.Invariant fun s => s.core.Coherent where
  start := by
    rintro s rfl
    exact coherent_start
  step := by
    intro s op h _
    cases op with
    | coprocWrite w => exact h.coprocWrite w
    | cp15Reset => exact h.reset
    | cp15Import saved => exact BusCore.Coherent.savestateImport saved
    | busInit => exact h.init
    | wramcntWrite byte => exact h.wramcnt byte
    | exmemcntWrite addr value width =>
        simp only [memTimingSystem, MemTiming.apply, ioWriteExmemcnt]
        split
        · exact h
        · exact h
    | wifiwaitcntWrite addr value width =>
        simp only [memTimingSystem, MemTiming.apply, ioWriteWifiwaitcnt]
        split
        · exact h
        · exact h
    | powcntWrite addr value width =>
        simp only [memTimingSystem, MemTiming.apply, ioWritePowcnt]
        split
        · exact h
        · exact h
    | ioRestore exmemcnt powercontrol7 wifiwaitcnt => exact h
    | switchTo cpu => exact h
    | access addr width sequential =>
        simp only [memTimingSystem, MemTiming.apply, runtimeMemCycles]
        split
        · split_ifs
          all_goals exact h
        · split_ifs
          all_goals exact h

/-! ### The published mirrors -/

theorem memtItcm_hit {core : BusCore} (h : core.Fresh) (addr : UInt32) :
    addr < core.fast.memtItcmLimit ↔
      core.cp15.visible.itcmEnable ∧ addr < core.cp15.visible.itcmSize := by
  rw [h, busFastRefresh_memtItcmLimit]
  cases core.cp15.visible.itcmEnable with
  | true => simp
  | false => simp

theorem memtDtcm_hit {core : BusCore} (h : core.Fresh) (addr : UInt32) :
    (core.fast.memtDtcmSize ≠ 0 ∧ addr ≥ core.fast.memtDtcmBase ∧
        addr - core.fast.memtDtcmBase < core.fast.memtDtcmSize) ↔
      core.cp15.visible.dtcmEnable ∧ addr ≥ core.cp15.visible.dtcmBase ∧
        addr - core.cp15.visible.dtcmBase < core.cp15.visible.dtcmSize := by
  rw [h, busFastRefresh_memtDtcmBase, busFastRefresh_memtDtcmSize]
  cases core.cp15.visible.dtcmEnable with
  | false => simp
  | true =>
      simp only [if_true, true_and]
      constructor
      · exact fun hit => hit.2
      · intro hit
        refine ⟨?_, hit⟩
        intro hzero
        rw [hzero] at hit
        exact absurd hit.2 (by simp)

/-! ### The range tests -/

private theorem range_test {addr base len last : UInt32}
    (hlast : last.toNat = base.toNat + len.toNat) :
    addr - base < len ↔ addr ≥ base ∧ addr < last := by
  have hbound := last.toNat_lt
  rw [sub_lt_iff_mem_range addr base len (by omega), ge_iff_le, UInt32.le_iff_toNat_le,
    UInt32.lt_iff_toNat_lt, hlast]

private theorem range_bool {addr base len last : UInt32}
    (hlast : last.toNat = base.toNat + len.toNat) :
    decide (addr - base < len) = (decide (addr ≥ base) && decide (addr < last)) := by
  rw [Bool.eq_iff_iff, Bool.and_eq_true, decide_eq_true_eq, decide_eq_true_eq,
    decide_eq_true_eq]
  exact range_test hlast

/-! ### The two CPUs -/

/-- The fallback asks the page class, the reference walks; a coherent CP15
gives both the same answer. -/
theorem slow_eq_reference {s : MemTiming} (h : s.core.Coherent) (addr width : UInt32)
    (sequential : Bool) :
    (runtimeMemCyclesSlow s addr width sequential).1 =
      runtimeMemCyclesReference s addr width sequential := by
  unfold runtimeMemCyclesSlow runtimeMemCyclesReference
  rw [h.cp15.dataCacheable_eq]

private theorem arm9_inline_eq_slow {s : MemTiming} (h : s.core.Coherent)
    (hactive : s.active = .arm9) (addr width : UInt32) (sequential : Bool) :
    (runtimeMemCycles s addr width sequential).1 =
      (runtimeMemCyclesSlow s addr width sequential).1 := by
  have hitcm := memtItcm_hit h.fresh addr
  have hdtcm := memtDtcm_hit h.fresh addr
  have hslot : addr - 0x08000000 < 0x03000000 ↔ addr ≥ 0x08000000 ∧ addr < 0x0B000000 :=
    range_test rfl
  have hmain : decide (addr - 0x02000000 < 0x01000000) =
      (decide (addr ≥ 0x02000000) && decide (addr < 0x03000000)) := range_bool rfl
  have hpal : decide (addr - 0x05000000 < 0x02000000) =
      (decide (addr ≥ 0x05000000) && decide (addr < 0x07000000)) := range_bool rfl
  have hslow : (runtimeMemCyclesSlow s addr width sequential).1 =
      arm9DataCycles s (cp15DataCacheable s.core.cp15 addr) addr width sequential := by
    simp only [runtimeMemCyclesSlow, hactive]
  have hnoted : (runtimeMemCyclesSlow (s.noteDataAddr addr) addr width sequential).1 =
      (runtimeMemCyclesSlow s addr width sequential).1 := rfl
  simp only [runtimeMemCycles, hactive, hitcm, hdtcm, hslot, hmain, hpal]
  by_cases h1 : s.core.cp15.visible.itcmEnable ∧ addr < s.core.cp15.visible.itcmSize
  · rw [if_pos h1, hslow]
    simp only [arm9DataCycles, if_pos h1]
  rw [if_neg h1]
  by_cases h2 : s.core.cp15.visible.dtcmEnable ∧ addr ≥ s.core.cp15.visible.dtcmBase ∧
      addr - s.core.cp15.visible.dtcmBase < s.core.cp15.visible.dtcmSize
  · rw [if_pos h2, hslow]
    simp only [arm9DataCycles, if_neg h1, if_pos h2]
  rw [if_neg h2]
  cases hready : s.core.cp15.classMaps.classReady with
  | false => exact hnoted
  | true =>
      have hclass : cp15DataCacheable s.core.cp15 addr =
          classPageBit s.core.cp15.classMaps.dcachePage addr := by
        simp [cp15DataCacheable, hready]
      simp only [Bool.not_true, Bool.false_eq_true, if_false]
      by_cases h3 : classPageBit s.core.cp15.classMaps.dcachePage addr = true
      · rw [if_pos h3, hslow, hclass]
        simp only [arm9DataCycles, if_neg h1, if_neg h2, if_pos h3]
      rw [if_neg h3]
      by_cases h4 : addr ≥ 0x08000000 ∧ addr < 0x0B000000
      · rw [if_pos h4]
        exact hnoted
      · rw [if_neg h4, hslow, hclass]
        simp only [arm9DataCycles, if_neg h1, if_neg h2, if_neg h3, if_neg h4]

private theorem arm7_inline_eq_slow {s : MemTiming} (hactive : s.active = .arm7)
    (addr width : UInt32) (sequential : Bool) :
    (runtimeMemCycles s addr width sequential).1 =
      (runtimeMemCyclesSlow s addr width sequential).1 := by
  have hslow : (runtimeMemCyclesSlow s addr width sequential).1 =
      arm7DataCycles s addr width sequential := by
    simp only [runtimeMemCyclesSlow, hactive]
  have hnoted : (runtimeMemCyclesSlow (s.noteDataAddr addr) addr width sequential).1 =
      (runtimeMemCyclesSlow s addr width sequential).1 := rfl
  have hmain : addr - 0x02000000 < 0x01000000 ↔ addr ≥ 0x02000000 ∧ addr < 0x03000000 :=
    range_test rfl
  have hvram : addr - 0x06000000 < 0x01000000 ↔ addr ≥ 0x06000000 ∧ addr < 0x07000000 :=
    range_test rfl
  have hwifi : addr - 0x04800000 < 0x00010000 ↔ addr ≥ 0x04800000 ∧ addr < 0x04810000 :=
    range_test rfl
  have hslot : addr - 0x08000000 < 0x03000000 ↔ addr ≥ 0x08000000 ∧ addr < 0x0B000000 :=
    range_test rfl
  simp only [runtimeMemCycles, hactive, hmain, hvram, hwifi, hslot]
  by_cases h1 : addr ≥ 0x02000000 ∧ addr < 0x03000000
  · rw [if_pos h1, hslow]
    simp only [arm7DataCycles, arm7Region, if_pos h1]
    rfl
  rw [if_neg h1]
  by_cases h2 : addr ≥ 0x06000000 ∧ addr < 0x07000000
  · rw [if_pos h2, hslow]
    simp only [arm7DataCycles, arm7Region, if_neg h1, if_pos h2]
    cases sequential <;> rfl
  rw [if_neg h2]
  by_cases h3 : addr ≥ 0x04800000 ∧ addr < 0x04810000 ∨ addr ≥ 0x08000000 ∧ addr < 0x0B000000
  · rw [if_pos h3]
    exact hnoted
  · rw [if_neg h3, hslow]
    obtain ⟨hnotWifi, hnotSlot⟩ := not_or.mp h3
    have hnotRom : ¬ (addr ≥ 0x08000000 ∧ addr < 0x0A000000) := by
      rintro ⟨hlow, hhigh⟩
      exact hnotSlot ⟨hlow, by grind⟩
    have hnotSram : ¬ (addr ≥ 0x0A000000 ∧ addr < 0x0B000000) := by
      rintro ⟨hlow, hhigh⟩
      exact hnotSlot ⟨by grind, hhigh⟩
    simp only [arm7DataCycles, arm7Region, if_neg h1, if_neg h2, if_neg hnotWifi,
      if_neg hnotRom, if_neg hnotSram]
    split
    · cases sequential <;> rfl
    · rfl

theorem inline_eq_slow {s : MemTiming} (h : s.core.Coherent) (addr width : UInt32)
    (sequential : Bool) :
    (runtimeMemCycles s addr width sequential).1 =
      (runtimeMemCyclesSlow s addr width sequential).1 := by
  cases hactive : s.active with
  | arm9 => exact arm9_inline_eq_slow h hactive addr width sequential
  | arm7 => exact arm7_inline_eq_slow hactive addr width sequential

section SubPageRegion

/-- Region 0 of 512 bytes at the start of main RAM, data cacheable, with the
MPU and the data cache on. -/
private def subPageOps : List MemTimingOp :=
  [.coprocWrite ⟨15, 0, 6, 0, 0, 0x02000011⟩,
    .coprocWrite ⟨15, 0, 2, 0, 0, 1⟩,
    .coprocWrite ⟨15, 0, 1, 0, 0, 5⟩]

private theorem subPage_reachable :
    memTimingSystem.Reachable (memTimingSystem.runFrom {} subPageOps) :=
  OpSystem.Reachable.runFrom (.start rfl) ⟨trivial, trivial, trivial, trivial⟩

end SubPageRegion

end NdsRecomp.Timing
