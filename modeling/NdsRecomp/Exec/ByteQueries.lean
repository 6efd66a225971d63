import NdsRecomp.Library.OpSystem
import NdsRecomp.Bus.CoreInvariant
import NdsRecomp.Exec.PageView

/-!
The chunked memory queries against the answer of each byte on its own. They
agree on every range exactly when no TCM window the ARM9 can see ends inside a
page; the registers can ask for windows of 512, 1024 or 2048 bytes, and then a
chunk is taken whole from a window that holds only its beginning.
-/

namespace NdsRecomp.Exec

open Library Bus Dispatch Video VramState

/-! ### One byte -/

namespace Memories

/-- The location of one byte has been written. -/
def byteWritten (m : Memories) (cpu : NdsCpu) (addr : UInt32) : Bool :=
  match resolve m.core cpu addr 1 with
  | some p => p.backing.tracked && m.mem.written p.backing p.offset
  | none => (m.vram.execPhysicalOffset cpu addr).any m.vram.written

/-- The location of one byte holds `expected`. -/
def byteEquals (m : Memories) (cpu : NdsCpu) (addr : UInt32) (expected : UInt8) : Bool :=
  match resolve m.core cpu addr 1 with
  | some p => m.mem.data p.backing p.offset == expected
  | none => (m.vram.execPhysicalOffset cpu addr).any fun physical =>
      m.vram.vram physical == expected

end Memories

/-! ### The mappings a run can reach -/

/-- TCM registers as CP15 writes leave them. -/
structure TcmEncoded (cp15 : Cp15State) : Prop where
  base : cp15.dtcmBase.toNat % 4096 = 0
  itcm : ∃ reg, cp15.itcmSize = tcmBytes reg
  dtcm : ∃ reg, cp15.dtcmSize = tcmBytes reg

/-- A savestate holds the registers of a run. -/
inductive MappingOp where
  | coprocWrite (w : CoprocWrite)
  | cp15Reset
  | cp15Import (saved : NdsCp15SaveState)
  | busInit
  | wramcntWrite (byte : UInt8)

def mappingNext (core : BusCore) : MappingOp → BusCore
  | .coprocWrite w => runtimeCoprocWrite core w
  | .cp15Reset => Bus.cp15Reset core
  | .cp15Import saved => cp15SavestateImport core saved
  | .busInit => Bus.busInit core
  | .wramcntWrite byte => Bus.wramcntWrite core byte

def mappingSystem : OpSystem BusCore MappingOp where
  initial := fun core => core = {}
  admits := fun _ op =>
    match op with
    | .cp15Import saved => TcmEncoded saved.visible
    | _ => True
  next := mappingNext

theorem tcmBytes_zero : tcmBytes 0x2E = 0 := by decide

theorem tcmEncoded_default (cp15 : Cp15State) (hbase : cp15.dtcmBase = 0)
    (hitcm : cp15.itcmSize = 0) (hdtcm : cp15.dtcmSize = 0) : TcmEncoded cp15 := by
  refine ⟨?_, ⟨0x2E, ?_⟩, ⟨0x2E, ?_⟩⟩
  · rw [hbase]
    decide
  · rw [hitcm, tcmBytes_zero]
  · rw [hdtcm, tcmBytes_zero]

theorem coprocWriteRegister_encoded {core : BusCore} (h : TcmEncoded core.cp15.visible)
    (w : CoprocWrite) : TcmEncoded (coprocWriteRegister core w).cp15.visible := by
  unfold coprocWriteRegister
  split
  · split
    · exact ⟨h.base, h.itcm, h.dtcm⟩
    · exact h
  split
  · split <;> exact h
  split
  · exact h
  split
  · exact h
  split
  · exact h
  split
  · split
    · refine ⟨?_, h.itcm, ⟨w.value, rfl⟩⟩
      change (w.value &&& 0xFFFFF000).toNat % 4096 = 0
      have haligned := pageBase_toNat w.value
      rw [show pageBase w.value = w.value &&& 0xFFFFF000 from rfl] at haligned
      omega
    · split
      · exact ⟨h.base, ⟨w.value, rfl⟩, h.dtcm⟩
      · exact h
  · exact h

theorem coprocWrite_encoded {core : BusCore} (h : TcmEncoded core.cp15.visible)
    (w : CoprocWrite) : TcmEncoded (runtimeCoprocWrite core w).cp15.visible := by
  have hbumped : TcmEncoded { core with cp15 := bumpTimingGeneration core.cp15 }.cp15.visible := h
  have hsync (core : BusCore) (h : TcmEncoded core.cp15.visible) :
      TcmEncoded core.classSync.cp15.visible := by
    unfold BusCore.classSync
    rw [classSync_visible]
    exact h
  unfold runtimeCoprocWrite
  split
  · exact h
  split
  · exact h
  simp only
  split
  · split
    · exact hsync _ (coprocWriteRegister_encoded hbumped w)
    · exact hsync _ (coprocWriteRegister_encoded h w)
  · split
    · exact coprocWriteRegister_encoded hbumped w
    · exact coprocWriteRegister_encoded h w

theorem importMpuRegions_visible (cp15 : Cp15) (regions : Vector UInt32 8) :
    (importMpuRegions cp15 regions).visible = cp15.visible := by
  unfold importMpuRegions
  induction List.finRange 8 generalizing cp15 with
  | nil => rfl
  | cons i rest ih => exact ih (setMpuRegion cp15 i regions[i])

theorem savestateImport_visible (core : BusCore) (saved : NdsCp15SaveState) :
    (cp15SavestateImport core saved).cp15.visible = saved.visible := by
  unfold cp15SavestateImport BusCore.fastRefresh
  simp only [classSync_visible, importMpuRegions_visible]

theorem mapping_encoded : mappingSystem.Invariant fun core => TcmEncoded core.cp15.visible where
  start := by
    rintro core rfl
    exact tcmEncoded_default _ rfl rfl rfl
  step := by
    intro core op h hadmits
    cases op with
    | coprocWrite w => exact coprocWrite_encoded h w
    | cp15Reset =>
        change TcmEncoded (cp15ClassSync _).visible
        rw [classSync_visible]
        exact tcmEncoded_default _ rfl rfl rfl
    | cp15Import saved =>
        change TcmEncoded (cp15SavestateImport core saved).cp15.visible
        rw [savestateImport_visible]
        exact hadmits
    | busInit => exact h
    | wramcntWrite byte => exact h

/-- A window smaller than a page is the only one that is not whole pages. -/
theorem tcmBytes_small (reg : UInt32) (hpart : (tcmBytes reg).toNat % 4096 ≠ 0) :
    0 < (tcmBytes reg).toNat ∧ (tcmBytes reg).toNat < 4096 := by
  have hall : ∀ n : Fin 32, (((512 : UInt32) <<< UInt32.ofNat n).toNat % 4096 ≠ 0 →
      0 < ((512 : UInt32) <<< UInt32.ofNat n).toNat ∧
        ((512 : UInt32) <<< UInt32.ofNat n).toNat < 4096) := by decide
  have hn : ((reg >>> 1) &&& 0x1F).toNat < 32 := by
    rw [toNat_and_mask _ _ 5 (by decide)]
    exact Nat.mod_lt _ (by decide)
  have hthis := hall ⟨_, hn⟩
  simp only [UInt32.ofNat_toNat] at hthis
  exact hthis hpart

/-! ### Windows of whole pages -/

/-- The ITCM answers for a page-aligned address before the DTCM is asked. -/
def ItcmCovers (cp15 : Cp15State) (addr : UInt32) : Prop :=
  cp15.itcmEnable = true ∧ addr < 0x02000000 ∧ addr < cp15.itcmSize

instance (cp15 : Cp15State) (addr : UInt32) : Decidable (ItcmCovers cp15 addr) :=
  inferInstanceAs (Decidable (_ ∧ _))

/-- No window the ARM9 can see ends inside a page: an enabled ITCM is whole
pages, and so is an enabled DTCM unless the ITCM lies over its base. -/
structure TcmWhole (cp15 : Cp15State) : Prop where
  itcm : cp15.itcmEnable = true → cp15.itcmSize.toNat % 4096 = 0
  dtcm : cp15.dtcmEnable = true →
    cp15.dtcmSize.toNat % 4096 = 0 ∨ ItcmCovers cp15 cp15.dtcmBase

/-- A DTCM under the ITCM is never reached. -/
theorem resolveTcm_hidden {cp15 : Cp15State} (hwhole : TcmWhole cp15)
    (hencoded : TcmEncoded cp15) (hcovers : ItcmCovers cp15 cp15.dtcmBase)
    (hsmall : cp15.dtcmSize.toNat % 4096 ≠ 0) {addr : UInt32} {len : Nat}
    (hfits : addr.toNat % 4096 + len ≤ 4096) (cpu : NdsCpu) :
    resolveTcm cp15 cpu addr len = resolveTcm { cp15 with dtcmEnable := false } cpu addr len := by
  cases cpu with
  | arm7 => rfl
  | arm9 =>
      unfold resolveTcm
      have hitcm : resolveItcm { cp15 with dtcmEnable := false } addr len =
          resolveItcm cp15 addr len := rfl
      have hnone : resolveDtcm { cp15 with dtcmEnable := false } addr len = none :=
        if_neg (by simp)
      simp only [hitcm, hnone, Option.or_none]
      by_cases hdtcm : cp15.dtcmEnable = true ∧ cp15.dtcmSize ≠ 0 ∧ addr ≥ cp15.dtcmBase ∧
          addr - cp15.dtcmBase < cp15.dtcmSize
      · -- The address lies in the page of the base, which the ITCM serves whole.
        obtain ⟨_, _, hlow, hspan⟩ := hdtcm
        obtain ⟨henable, hmain, hlimit⟩ := hcovers
        have hpage := hwhole.itcm henable
        have hbase := hencoded.base
        obtain ⟨reg, hreg⟩ := hencoded.dtcm
        have hless := (tcmBytes_small reg (hreg ▸ hsmall)).2
        rw [← hreg] at hless
        have haddr := addr.toNat_lt
        rw [ge_iff_le, UInt32.le_iff_toNat_le] at hlow
        rw [UInt32.lt_iff_toNat_lt, UInt32.toNat_sub] at hspan
        rw [UInt32.lt_iff_toNat_lt] at hmain hlimit
        simp only [UInt32.reduceToNat] at hmain
        have hserved : resolveItcm cp15 addr len = some ⟨.itcm, (addr &&& 0x7FFF).toNat⟩ := by
          have hin : cp15.itcmEnable = true ∧ cp15.itcmSize ≠ 0 ∧ addr < 0x02000000 ∧
              addr < cp15.itcmSize := by
            refine ⟨henable, ?_, ?_, ?_⟩
            · intro hzero
              rw [hzero] at hlimit
              simp at hlimit
            · rw [UInt32.lt_iff_toNat_lt]
              simp only [UInt32.reduceToNat]
              omega
            · rw [UInt32.lt_iff_toNat_lt]
              omega
          unfold resolveItcm
          rw [if_pos hin]
          refine backingAt_of_le ?_
          rw [toNat_and_mask addr 0x7FFF 15 (by decide)]
          change addr.toNat % 2 ^ 15 + len ≤ 32 * 1024
          omega
        rw [hserved]
        rfl
      · have hnot : resolveDtcm cp15 addr len = none := if_neg hdtcm
        rw [hnot, Option.or_none]

/-- With whole windows, the bytes of a stretch inside one page lie side by side
behind it. -/
theorem resolve_byte {core : BusCore} (hwhole : TcmWhole core.cp15.visible)
    (hencoded : TcmEncoded core.cp15.visible) (cpu : NdsCpu) {addr : UInt32} {len i : Nat}
    (hfits : addr.toNat % 4096 + len ≤ 4096) (hi : i < len) :
    resolve core cpu (addr + UInt32.ofNat i) 1 = (resolve core cpu addr len).map (shiftPtr i) := by
  -- A hidden DTCM may as well be disabled.
  obtain ⟨core', hpaged, hsame⟩ : ∃ core' : BusCore, TcmPaged core'.cp15.visible ∧
      ∀ (a : UInt32) (n : Nat), a.toNat % 4096 + n ≤ 4096 →
        resolve core cpu a n = resolve core' cpu a n := by
    by_cases hshown : core.cp15.visible.dtcmEnable = true → core.cp15.visible.dtcmSize.toNat % 4096 = 0
    · exact ⟨core, ⟨hwhole.itcm, hshown, hencoded.base⟩, fun _ _ _ => rfl⟩
    · rw [Classical.not_imp] at hshown
      have hcovers := (hwhole.dtcm hshown.1).resolve_left hshown.2
      refine ⟨{ core with cp15 := { core.cp15 with
        visible := { core.cp15.visible with dtcmEnable := false } } },
        ⟨hwhole.itcm, by simp, hencoded.base⟩, fun a n hn => ?_⟩
      unfold resolve
      rw [resolveTcm_hidden hwhole hencoded hcovers hshown.2 hn cpu]
  have hsum : (addr + UInt32.ofNat i).toNat = addr.toNat + i := by
    have haddr := addr.toNat_lt
    have hsmall : i < UInt32.size := by
      change i < 4294967296
      omega
    rw [UInt32.toNat_add, UInt32.toNat_ofNat_of_lt' hsmall]
    omega
  have hbase : pageBase (addr + UInt32.ofNat i) = pageBase addr := by
    refine UInt32.toNat_inj.mp ?_
    rw [pageBase_toNat, pageBase_toNat, hsum]
    omega
  have hmod : (addr + UInt32.ofNat i).toNat % 4096 = addr.toNat % 4096 + i := by omega
  rw [hsame _ 1 (by omega), hsame addr len hfits,
    resolve_page (by omega) (by omega) hpaged cpu, resolve_page (by omega) hfits hpaged cpu,
    hbase, hmod, Option.map_map]
  congr 1
  funext p
  simp only [Function.comp_apply, shiftPtr, Nat.add_assoc]

/-! ### Chunks and ranges -/

/-- A test of every byte of every chunk is a test of every byte of the range. -/
theorem chunks_forall (addr : UInt32) {size : Nat} (P : Nat → Prop) :
    (∀ chunk ∈ rangeChunks addr size, ∀ j < chunk.len, P (chunk.offset + j)) ↔
      ∀ i < size, P i := by
  constructor
  · intro hchunks i hi
    obtain ⟨chunk, hmem, hlow, hhigh⟩ : ∃ chunk ∈ rangeChunks addr size,
        chunk.offset ≤ i ∧ i < chunk.offset + chunk.len := mem_rangeChunks hi
    have hpoint := hchunks chunk hmem (i - chunk.offset) (by omega)
    rwa [Nat.add_sub_cancel' hlow] at hpoint
  · intro hrange chunk hmem j hj
    have hfits := (within_of_mem_rangeChunks hmem).fits
    exact hrange _ (by omega)

theorem chunk_byteAddr {addr : UInt32} {size : Nat} {chunk : Chunk}
    (hmem : chunk ∈ rangeChunks addr size) (j : Nat) :
    chunk.addr + UInt32.ofNat j = addr + UInt32.ofNat (chunk.offset + j) := by
  rw [(within_of_mem_rangeChunks hmem).start, UInt32.ofNat_add, UInt32.add_assoc]

namespace Memories

variable {m : Memories} (hwhole : TcmWhole m.core.cp15.visible)
  (hencoded : TcmEncoded m.core.cp15.visible)

include hwhole hencoded

theorem chunkHasProvenance_iff (cpu : NdsCpu) {chunk : Chunk} (hpos : 0 < chunk.len)
    (hpage : chunk.addr.toNat % 4096 + chunk.len ≤ 4096) :
    m.chunkHasProvenance cpu chunk = true ↔
      ∀ j < chunk.len, m.byteWritten cpu (chunk.addr + UInt32.ofNat j) = true := by
  have hbyte (j : Nat) (hj : j < chunk.len) := resolve_byte hwhole hencoded cpu hpage hj
  unfold chunkHasProvenance byteWritten
  cases hresolve : resolve m.core cpu chunk.addr chunk.len with
  | some p =>
      have hinside := resolve_fits _ _ _ _ p hresolve
      rw [hresolve] at hbyte
      simp only [Bool.and_eq_true, decide_eq_true_eq, List.all_eq_true, List.mem_range]
      constructor
      · rintro ⟨⟨htracked, _⟩, hwritten⟩ j hj
        rw [hbyte j hj]
        simp [shiftPtr, htracked, hwritten j hj]
      · intro hall
        have hpoint (j : Nat) (hj : j < chunk.len) :
            p.backing.tracked = true ∧ m.mem.written p.backing (p.offset + j) = true := by
          have h := hall j hj
          rw [hbyte j hj] at h
          simpa [shiftPtr] using h
        exact ⟨⟨(hpoint 0 hpos).1, hinside⟩, fun j hj => (hpoint j hj).2⟩
  | none =>
      rw [hresolve] at hbyte
      have hlen : (chunk.len != 0) = true := by simp [Nat.ne_of_gt hpos]
      simp only [rangeHasWriteProvenance, hlen, Bool.true_and, List.all_eq_true, List.mem_range]
      refine forall₂_congr fun j hj => ?_
      rw [hbyte j hj]
      rfl

theorem chunkBytesEqual_iff (cpu : NdsCpu) (expected : Nat → UInt8) {chunk : Chunk}
    (hpos : 0 < chunk.len) (hpage : chunk.addr.toNat % 4096 + chunk.len ≤ 4096) :
    m.chunkBytesEqual cpu expected chunk = true ↔
      ∀ j < chunk.len, m.byteEquals cpu (chunk.addr + UInt32.ofNat j)
        (expected (chunk.offset + j)) = true := by
  have hbyte (j : Nat) (hj : j < chunk.len) := resolve_byte hwhole hencoded cpu hpage hj
  unfold chunkBytesEqual byteEquals
  cases hresolve : resolve m.core cpu chunk.addr chunk.len with
  | some p =>
      rw [hresolve] at hbyte
      simp only [List.all_eq_true, List.mem_range]
      refine forall₂_congr fun j hj => ?_
      rw [hbyte j hj]
      rfl
  | none =>
      rw [hresolve] at hbyte
      have hlen : (chunk.len != 0) = true := by simp [Nat.ne_of_gt hpos]
      simp only [liveBytesEqual, hlen, Bool.true_and, List.all_eq_true, List.mem_range]
      refine forall₂_congr fun j hj => ?_
      rw [hbyte j hj]
      rfl

/-- With whole windows the provenance query is the query of every byte. -/
theorem busRangeHasWriteProvenance_iff (cpu : NdsCpu) (addr : UInt32) {size : UInt32}
    (hsize : size ≠ 0) : m.busRangeHasWriteProvenance cpu addr size = true ↔
      ∀ i < size.toNat, m.byteWritten cpu (addr + UInt32.ofNat i) = true := by
  have hnonzero : (size != 0) = true := by simpa using hsize
  rw [← chunks_forall addr]
  simp only [busRangeHasWriteProvenance, hnonzero, Bool.true_and, List.all_eq_true]
  refine forall₂_congr fun chunk hmem => ?_
  have hwithin := within_of_mem_rangeChunks hmem
  rw [chunkHasProvenance_iff hwhole hencoded cpu hwithin.pos hwithin.page]
  simp only [chunk_byteAddr hmem]

/-- With whole windows the comparison is the comparison of every byte. -/
theorem busLiveBytesEqual_iff (cpu : NdsCpu) (addr : UInt32) (expected : List UInt8)
    {size : UInt32} (hsize : size ≠ 0) : m.busLiveBytesEqual cpu addr expected size = true ↔
      ∀ i < size.toNat,
        m.byteEquals cpu (addr + UInt32.ofNat i) (expected.getD i 0) = true := by
  have hnonzero : (size != 0) = true := by simpa using hsize
  rw [← chunks_forall addr]
  simp only [busLiveBytesEqual, hnonzero, Bool.true_and, List.all_eq_true]
  refine forall₂_congr fun chunk hmem => ?_
  have hwithin := within_of_mem_rangeChunks hmem
  rw [chunkBytesEqual_iff hwhole hencoded cpu _ hwithin.pos hwithin.page]
  simp only [chunk_byteAddr hmem]

end Memories

/-! ### Windows that end inside a page -/

/-- Memory in which exactly one backing has been written, and no VRAM is
mapped. -/
def onlyWritten (core : BusCore) (backing : Backing) : Memories where
  core := core
  mem :=
    { data := fun _ _ => 0
      written := fun b _ => b == backing
      generation := fun _ _ => 0 }
  vram := {}

theorem unmapped_vram (cpu : NdsCpu) (addr : UInt32) :
    VramState.execPhysicalOffset {} cpu addr = none := by
  have hzero : physicalFromSingleMask 0 addr = none := if_pos (.inl rfl)
  unfold VramState.execPhysicalOffset
  split
  · rfl
  · cases cpu with
    | arm7 => exact hzero
    | arm9 =>
        have hmask : VramState.arm9Mask {} addr = some 0 ∨ VramState.arm9Mask {} addr = none := by
          unfold VramState.arm9Mask
          dsimp only
          split
          · exact .inl rfl
          split
          · exact .inl rfl
          split
          · exact .inl rfl
          split
          · exact .inl rfl
          · exact .inr rfl
        rcases hmask with hmask | hmask
        · rw [hmask]
          exact hzero
        · rw [hmask]
          dsimp only
          cases lcdcBank addr with
          | none => rfl
          | some hit =>
              obtain ⟨bank, offset⟩ := hit
              exact if_neg (by simp [maskHas])

/-- An access is not served from the DTCM. -/
def AvoidsDtcm (served : Option BackingPtr) : Prop := ∀ p, served = some p → p.backing ≠ .dtcm

theorem avoidsDtcm_none : AvoidsDtcm none := by
  rintro p ⟨⟩

theorem avoidsDtcm_backingAt {backing : Backing} (hne : backing ≠ .dtcm) (o len : Nat) :
    AvoidsDtcm (backingAt backing o len) := by
  intro p h
  obtain ⟨rfl, _⟩ := backingAt_eq_some h
  exact hne

theorem AvoidsDtcm.or {a b : Option BackingPtr} (ha : AvoidsDtcm a) (hb : AvoidsDtcm b) :
    AvoidsDtcm (a.or b) := by
  intro p h
  rcases Option.or_eq_some_iff.mp h with h | ⟨-, h⟩
  · exact ha p h
  · exact hb p h

theorem AvoidsDtcm.region {P : Prop} [Decidable P] {a b : Option BackingPtr}
    (ha : AvoidsDtcm a) (hb : AvoidsDtcm b) : AvoidsDtcm (if P then a else b) := by
  split
  · exact ha
  · exact hb

theorem resolveSharedWram_avoidsDtcm (wramcnt : UInt8) (active : NdsCpu) (addr : UInt32)
    (len : Nat) : AvoidsDtcm (resolveSharedWram wramcnt active addr len) := by
  have hshared (o : Nat) : AvoidsDtcm (backingAt .sharedWram o len) :=
    avoidsDtcm_backingAt (by decide) o len
  refine .region ?_ avoidsDtcm_none
  cases active with
  | arm9 => exact .region (hshared _) (.region (hshared _) avoidsDtcm_none)
  | arm7 =>
      exact .region (avoidsDtcm_backingAt (by decide) _ _) (.region (hshared _) (hshared _))

/-- Nothing but the DTCM window is served from the DTCM. -/
theorem resolve_avoidsDtcm {core : BusCore} {addr : UInt32} {len : Nat}
    (hnone : resolveDtcm core.cp15.visible addr len = none) :
    AvoidsDtcm (resolve core .arm9 addr len) := by
  have hone (P : Prop) [Decidable P] {backing : Backing} (hne : backing ≠ .dtcm) (o : Nat) :
      AvoidsDtcm (if P then backingAt backing o len else none) :=
    .region (avoidsDtcm_backingAt hne o len) avoidsDtcm_none
  refine .or (.or (hone _ (by decide) _) ?_) (.or (hone _ (by decide) _)
    (.or (resolveSharedWram_avoidsDtcm _ _ _ _)
      (.or (hone _ (by decide) _) (hone _ (by decide) _))))
  rw [hnone]
  exact avoidsDtcm_none

/-- A window that ends inside a page makes a one-chunk query over its end wrong:
the chunk is taken from the window, its last byte alone is not. -/
theorem onlyWritten_differs {core : BusCore} {backing : Backing} (addr : UInt32) {size : UInt32}
    (htracked : backing.tracked = true) (hsmall : size.toNat < 4096) (hpos : 0 < size.toNat)
    (haligned : addr.toNat % 4096 = 0)
    (hchunk : resolve core .arm9 addr (size.toNat + 1) = some ⟨backing, 0⟩)
    (hlast : ∀ p, resolve core .arm9 (addr + size) 1 = some p → p.backing ≠ backing) :
    (onlyWritten core backing).busRangeHasWriteProvenance .arm9 addr (size + 1) = true ∧
      (onlyWritten core backing).byteWritten .arm9 (addr + size) = false := by
  have hcount : (size + 1).toNat = size.toNat + 1 := by
    rw [UInt32.toNat_add, UInt32.toNat_one]
    omega
  have hfits := resolve_fits _ _ _ _ _ hchunk
  constructor
  · have hnonzero : (size + 1 != 0) = true := by
      rw [bne_iff_ne]
      intro hzero
      rw [hzero] at hcount
      simp at hcount
    have hone : rangeChunks addr (size.toNat + 1) = [⟨addr, 0, size.toNat + 1⟩] := by
      have hrest : chunksFrom addr (size.toNat + 1) size.toNat (size.toNat + 1) = [] := by
        unfold chunksFrom
        cases size.toNat with
        | zero => rfl
        | succ n => exact if_pos (Nat.le_refl _)
      have hlen : min (size.toNat + 1) 4096 = size.toNat + 1 := by omega
      have hstart : addr + UInt32.ofNat 0 = addr := UInt32.add_zero addr
      simp only [rangeChunks, chunksFrom, execPageSize, Nat.le_zero, Nat.add_eq_zero_iff,
        one_ne_zero, and_false, if_false, hstart, haligned, Nat.sub_zero, hlen, Nat.zero_add,
        hrest]
    unfold Memories.busRangeHasWriteProvenance
    rw [hnonzero, hcount, hone]
    simp only [Bool.true_and, List.all_cons, List.all_nil, Bool.and_true,
      Memories.chunkHasProvenance]
    rw [show (onlyWritten core backing).core = core from rfl, hchunk]
    simp only [htracked, Bool.true_and, Bool.and_eq_true, decide_eq_true_eq, List.all_eq_true]
    exact ⟨hfits, fun i _ => beq_self_eq_true backing⟩
  · unfold Memories.byteWritten
    rw [show (onlyWritten core backing).core = core from rfl]
    cases hserved : resolve core .arm9 (addr + size) 1 with
    | none =>
        dsimp only
        rw [show (onlyWritten core backing).vram = {} from rfl, unmapped_vram]
        rfl
    | some p =>
        have hne : (p.backing == backing) = false := by simpa using hlast p hserved
        simp [onlyWritten, hne]

/-- Both queries answer a nonempty range as its bytes answer one by one. -/
def Memories.QueriesExact (m : Memories) : Prop :=
  ∀ (cpu : NdsCpu) (addr size : UInt32) (expected : List UInt8), size ≠ 0 →
    (m.busRangeHasWriteProvenance cpu addr size = true ↔
      ∀ i < size.toNat, m.byteWritten cpu (addr + UInt32.ofNat i) = true) ∧
    (m.busLiveBytesEqual cpu addr expected size = true ↔
      ∀ i < size.toNat, m.byteEquals cpu (addr + UInt32.ofNat i) (expected.getD i 0) = true)

theorem not_exact_of_differs {m : Memories} {addr size : UInt32} (hsmall : size.toNat < 4096)
    (hdiffers : m.busRangeHasWriteProvenance .arm9 addr (size + 1) = true ∧
      m.byteWritten .arm9 (addr + size) = false) : ¬ m.QueriesExact := by
  intro hexact
  have hcount : (size + 1).toNat = size.toNat + 1 := by
    rw [UInt32.toNat_add, UInt32.toNat_one]
    omega
  have hnonzero : size + 1 ≠ 0 := by
    intro hzero
    rw [hzero] at hcount
    simp at hcount
  have hall := (hexact .arm9 addr (size + 1) [] hnonzero).1.mp hdiffers.1 size.toNat (by omega)
  rw [UInt32.ofNat_toNat, hdiffers.2] at hall
  cases hall

/-- An ITCM of 512, 1024 or 2048 bytes ends inside the first page. -/
theorem itcm_part_differs {core : BusCore} (hencoded : TcmEncoded core.cp15.visible)
    (henable : core.cp15.visible.itcmEnable = true)
    (hpart : core.cp15.visible.itcmSize.toNat % 4096 ≠ 0) :
    ¬ (onlyWritten core .itcm).QueriesExact := by
  obtain ⟨reg, hreg⟩ := hencoded.itcm
  have hsmall := tcmBytes_small reg (hreg ▸ hpart)
  rw [← hreg] at hsmall
  have hnonzero : core.cp15.visible.itcmSize ≠ 0 := by
    intro hzero
    rw [hzero] at hsmall
    simp at hsmall
  have hlast : resolveItcm core.cp15.visible (0 + core.cp15.visible.itcmSize) 1 = none := by
    refine if_neg ?_
    rw [UInt32.zero_add]
    rintro ⟨_, _, _, hless⟩
    exact UInt32.lt_irrefl _ hless
  refine not_exact_of_differs hsmall.2 (onlyWritten_differs 0 rfl hsmall.2 hsmall.1 rfl ?_ ?_)
  · rw [resolve_arm9_low _ (by decide)]
    have hin : core.cp15.visible.itcmEnable = true ∧ core.cp15.visible.itcmSize ≠ 0 ∧
        (0 : UInt32) < 0x02000000 ∧ 0 < core.cp15.visible.itcmSize := by
      refine ⟨henable, hnonzero, by decide, ?_⟩
      rw [UInt32.lt_iff_toNat_lt]
      exact hsmall.1
    have hserved : resolveItcm core.cp15.visible 0 (core.cp15.visible.itcmSize.toNat + 1) =
        some ⟨.itcm, 0⟩ := by
      unfold resolveItcm
      rw [if_pos hin]
      refine backingAt_of_le ?_
      change 0 + (core.cp15.visible.itcmSize.toNat + 1) ≤ 32 * 1024
      omega
    unfold resolveTcm
    rw [hserved]
    rfl
  · intro p hserved
    rw [resolve_arm9_low _ (by rw [UInt32.zero_add]; omega)] at hserved
    simp only [resolveTcm, hlast, Option.none_or, resolveDtcm] at hserved
    split at hserved
    · obtain ⟨rfl, _⟩ := backingAt_eq_some hserved
      exact fun hsame => Backing.noConfusion hsame
    · cases hserved

/-- So does such a DTCM in the page of its base, where no ITCM lies over it. -/
theorem dtcm_part_differs {core : BusCore} (hencoded : TcmEncoded core.cp15.visible)
    (henable : core.cp15.visible.dtcmEnable = true)
    (hpart : core.cp15.visible.dtcmSize.toNat % 4096 ≠ 0)
    (hshown : ¬ ItcmCovers core.cp15.visible core.cp15.visible.dtcmBase) :
    ¬ (onlyWritten core .dtcm).QueriesExact := by
  obtain ⟨reg, hreg⟩ := hencoded.dtcm
  have hsmall := tcmBytes_small reg (hreg ▸ hpart)
  rw [← hreg] at hsmall
  have hbase := hencoded.base
  have hbound := core.cp15.visible.dtcmBase.toNat_lt
  have hnonzero : core.cp15.visible.dtcmSize ≠ 0 := by
    intro hzero
    rw [hzero] at hsmall
    simp at hsmall
  refine not_exact_of_differs hsmall.2 (onlyWritten_differs
    core.cp15.visible.dtcmBase rfl hsmall.2 hsmall.1 hbase ?_ ?_)
  · have hitcm : resolveItcm core.cp15.visible core.cp15.visible.dtcmBase
        (core.cp15.visible.dtcmSize.toNat + 1) = none := by
      refine if_neg ?_
      rintro ⟨hon, _, hmain, hlimit⟩
      exact hshown ⟨hon, hmain, hlimit⟩
    have hserved : resolveDtcm core.cp15.visible core.cp15.visible.dtcmBase
        (core.cp15.visible.dtcmSize.toNat + 1) = some ⟨.dtcm, 0⟩ := by
      have hin : core.cp15.visible.dtcmEnable = true ∧ core.cp15.visible.dtcmSize ≠ 0 ∧
          core.cp15.visible.dtcmBase ≥ core.cp15.visible.dtcmBase ∧
          core.cp15.visible.dtcmBase - core.cp15.visible.dtcmBase <
            core.cp15.visible.dtcmSize := by
        refine ⟨henable, hnonzero, UInt32.le_refl _, ?_⟩
        rw [UInt32.sub_self, UInt32.lt_iff_toNat_lt]
        exact hsmall.1
      unfold resolveDtcm
      rw [if_pos hin, UInt32.sub_self]
      refine backingAt_of_le ?_
      change 0 + (core.cp15.visible.dtcmSize.toNat + 1) ≤ 16 * 1024
      omega
    unfold resolve resolveTcm
    rw [hitcm, hserved]
    rfl
  · refine resolve_avoidsDtcm (if_neg ?_)
    rintro ⟨_, _, _, hless⟩
    rw [UInt32.add_comm, UInt32.add_sub_cancel] at hless
    exact UInt32.lt_irrefl _ hless

/-- Whatever the WRAM split, the VRAM map and the contents of memory, the
chunked queries are the queries of every byte exactly under the mappings whose
visible TCM windows are whole pages. -/
theorem chunked_queries_exact_iff {core : BusCore} (h : mappingSystem.Reachable core) :
    (∀ m : Memories, m.core = core → m.QueriesExact) ↔ TcmWhole core.cp15.visible := by
  have hencoded : TcmEncoded core.cp15.visible := h.invariant mapping_encoded
  constructor
  · intro hexact
    refine ⟨fun henable => ?_, fun henable => ?_⟩
    · by_contra hpart
      exact itcm_part_differs hencoded henable hpart (hexact _ rfl)
    · by_contra hneither
      rw [not_or] at hneither
      exact dtcm_part_differs hencoded henable hneither.1 hneither.2 (hexact _ rfl)
  · rintro hwhole m rfl cpu addr size expected hsize
    exact ⟨Memories.busRangeHasWriteProvenance_iff hwhole hencoded cpu addr hsize,
      Memories.busLiveBytesEqual_iff hwhole hencoded cpu addr expected hsize⟩

/-- A 4 KiB ITCM, enabled. -/
def wholeItcmWrites : List MappingOp :=
  [.coprocWrite ⟨15, 0, 9, 1, 1, 0x06⟩, .coprocWrite ⟨15, 0, 1, 0, 0, 0x40000⟩]

theorem wholeItcm_exact :
    (onlyWritten (mappingSystem.runFrom {} wholeItcmWrites) .itcm).QueriesExact := by
  have hstart : mappingSystem.Reachable {} := .start rfl
  have hreach : mappingSystem.Reachable (mappingSystem.runFrom {} wholeItcmWrites) :=
    hstart.runFrom ⟨trivial, trivial, trivial⟩
  refine (chunked_queries_exact_iff hreach).mpr ⟨fun _ => by decide, ?_⟩ _ rfl
  intro henable
  exact absurd henable (by decide)

/-- A 512-byte ITCM, enabled. -/
def partItcmWrites : List MappingOp :=
  [.coprocWrite ⟨15, 0, 9, 1, 1, 0⟩, .coprocWrite ⟨15, 0, 1, 0, 0, 0x40000⟩]

/-- With 512 bytes of ITCM, a query of 513 bytes finds all of them written,
though the last lies in no memory at all. -/
theorem partItcm_overruns :
    mappingSystem.Reachable (mappingSystem.runFrom {} partItcmWrites) ∧
      ((onlyWritten (mappingSystem.runFrom {} partItcmWrites) .itcm).busRangeHasWriteProvenance
          .arm9 0 513 = true ∧
        ¬ ∀ i < 513, (onlyWritten (mappingSystem.runFrom {} partItcmWrites) .itcm).byteWritten
          .arm9 (0 + UInt32.ofNat i) = true) ∧
      ((onlyWritten (mappingSystem.runFrom {} partItcmWrites) .itcm).busLiveBytesEqual
          .arm9 0 (List.replicate 513 0) 513 = true ∧
        ¬ ∀ i < 513, (onlyWritten (mappingSystem.runFrom {} partItcmWrites) .itcm).byteEquals
          .arm9 (0 + UInt32.ofNat i) 0 = true) := by
  have hstart : mappingSystem.Reachable {} := .start rfl
  have hzero (i : Nat) : (List.replicate 513 (0 : UInt8)).getD i 0 = 0 := by
    rw [List.getD_eq_getElem?_getD, List.getElem?_replicate]
    split <;> rfl
  refine ⟨hstart.runFrom ⟨trivial, trivial, trivial⟩, ⟨?_, fun hall => ?_⟩, ?_, fun hall => ?_⟩
  · set_option maxRecDepth 20000 in decide
  · exact absurd (hall 512 (by decide)) (by decide)
  · simp only [Memories.busLiveBytesEqual, hzero]
    set_option maxRecDepth 20000 in decide
  · exact absurd (hall 512 (by decide)) (by decide)

end NdsRecomp.Exec
