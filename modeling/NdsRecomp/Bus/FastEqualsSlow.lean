import NdsRecomp.Library.OpSystem
import NdsRecomp.Bus.WindowResolve

/-!
The inline accesses against the slow ones, in every state the map registers can
reach. An access served by a window does everything the slow path does through
the resolved pointer. The accesses that go wrong are exactly those a DTCM
window wraps around the address space to serve.
-/

namespace NdsRecomp.Bus

open Library

variable {D : Type*} (devices : BusDevices D)

/-! ### One access -/

private theorem size_page_aligned (backing : Backing) : backing.size % 4096 = 0 := by
  cases backing <;> rfl

theorem Width.bytes32_toNat (width : Width) : width.bytes32.toNat = width.bytes := by
  cases width <;> rfl

theorem Width.bytes_pos (width : Width) : 0 < width.bytes := by
  cases width <;> decide

theorem Backing.size_le (backing : Backing) : backing.size ≤ 4 * 1024 * 1024 := by
  cases backing <;> decide

/-- Noting a served store through the window is noting it through the pointer. -/
theorem noteWrite_eq (s : BusState D) {w : NdsBusFastWin} {off : UInt32} {p : BackingPtr}
    {width : Width} (h : ServedBy w off p width.bytes) :
    ndsBusfNoteWrite devices s w off width = noteRamWrite devices s p width.bytes := by
  obtain ⟨⟨base, hw, hoffset, haligned, hsize⟩, hbound, htracked⟩ := h
  have hpos := width.bytes_pos
  have hwidth := width.bytes32_toNat
  have hbacking := p.backing.size_le
  have haligned4096 : base % 4096 = 0 := haligned
  have hsizeAligned := size_page_aligned p.backing
  have hfirst : base >>> execPageShift + (off >>> 12).toNat = p.offset >>> execPageShift := by
    rw [UInt32.toNat_shiftRight, hoffset]
    change base >>> 12 + off.toNat >>> 12 = (base + off.toNat) >>> 12
    simp only [Nat.shiftRight_eq_div_pow]
    omega
  have hlastOff : (off + width.bytes32 - 1).toNat = off.toNat + width.bytes - 1 := by
    rw [UInt32.toNat_sub, UInt32.toNat_add, hwidth, UInt32.toNat_one]
    omega
  have hlast : base >>> execPageShift + ((off + width.bytes32 - 1) >>> 12).toNat =
      min ((p.offset + width.bytes - 1) >>> execPageShift)
        (p.backing.size / execPageSize - 1) := by
    rw [UInt32.toNat_shiftRight, hlastOff, hoffset]
    change base >>> 12 + (off.toNat + width.bytes - 1) >>> 12 =
      min ((base + off.toNat + width.bytes - 1) >>> 12) (p.backing.size / 4096 - 1)
    simp only [Nat.shiftRight_eq_div_pow]
    omega
  have hmarked : min p.backing.size (p.offset + width.bytes) - p.offset = width.bytes := by
    omega
  have hguard : ¬ ((!p.backing.tracked || width.bytes == 0) = true) := by
    simp only [htracked, Bool.not_true, Bool.false_or, beq_iff_eq]
    omega
  have hgen : w.gen = some ⟨p.backing, base >>> execPageShift⟩ := by rw [hw]; rfl
  have hwritten : w.written = some ⟨p.backing, base⟩ := by rw [hw]; rfl
  unfold ndsBusfNoteWrite noteRamWrite
  rw [if_neg hguard, hgen, hwritten]
  simp only [hfirst, hlast, hmarked, ← hoffset]

/-- The inline path serves itself an access of the current CPU that the slow
path would not serve from the same bytes. -/
def WrappedDtcmHit (s : BusState D) (addr : UInt32) (width : Width) : Prop :=
  s.deepTrace = false ∧ s.active = .arm9 ∧ WrapsIntoDtcm s.core addr ∧
    (addr - s.core.cp15.visible.dtcmBase).toNat + width.bytes ≤ 0x4000

/-- The unsigned bound test of a served access, without overflow. -/
private theorem fits_of_bound {width : Width} {off mask : UInt32}
    (hmask : off.toNat ≤ mask.toNat) (hmaskBound : mask.toNat < 0x400000)
    (hbound : width = .byte ∨ off + width.bytes32 ≤ mask + 1) :
    off.toNat + width.bytes ≤ mask.toNat + 1 := by
  rcases hbound with rfl | hbound
  · exact Nat.succ_le_succ hmask
  · have hwidth := width.bytes32_toNat
    have hsmall : width.bytes ≤ 4 := by cases width <;> decide
    rw [UInt32.le_iff_toNat_le, UInt32.toNat_add, UInt32.toNat_add, hwidth,
      UInt32.toNat_one] at hbound
    omega

/-- On a wrapped address the slow path reaches neither memory nor device. -/
private theorem busWriteSlow_wrapped {s : BusState D} {addr : UInt32} {width : Width}
    (hhit : WrappedDtcmHit s addr width) (value : UInt32) :
    busWriteSlow devices s addr width value = s := by
  obtain ⟨-, hactive, hwrap, -⟩ := hhit
  have hlow := hwrap.low
  obtain ⟨-, hbelow, -, -, hnoItcm⟩ := hwrap
  have hitcm : resolveItcm s.core.cp15.visible addr width.bytes = none :=
    if_neg fun hrange => hnoItcm ⟨hrange.1, hrange.2.2.2⟩
  have hdtcm : resolveDtcm s.core.cp15.visible addr width.bytes = none :=
    if_neg fun hrange => absurd hbelow (UInt32.not_lt.mpr hrange.2.2.1)
  have hresolve : resolve s.core .arm9 addr width.bytes = none := by
    rw [resolve_arm9_low width.bytes (by omega)]
    simp only [resolveTcm, hitcm, hdtcm, Option.or_none]
  have hbelowDevices (base : UInt32) (hbase : 0x4000 ≤ base.toNat) :
      decide (addr ≥ base) = false := by
    rw [decide_eq_false_iff_not, ge_iff_le, UInt32.le_iff_toNat_le]
    omega
  have hvideo : ndsVideoAddress addr = false := by
    simp only [ndsVideoAddress, hbelowDevices 0x05000000 (by decide), Bool.false_and]
  have hgba : gbaSlotAddress addr = false := by
    simp only [gbaSlotAddress, hbelowDevices 0x08000000 (by decide), Bool.false_and]
  have hwifi : ndsWifiAddress .arm9 addr = false := rfl
  have hio : isIo addr = false := by
    simp only [isIo, hbelowDevices 0x04000000 (by decide), Bool.false_and]
  simp only [busWriteSlow, hactive, hresolve, hvideo, hgba, hwifi, hio, Bool.false_eq_true,
    if_false]

private theorem page_le_last_page {width : Width} {off : UInt32}
    (hfits : off.toNat + width.bytes ≤ 0x4000) :
    (off >>> 12).toNat ≤ ((off + width.bytes32 - 1) >>> 12).toNat := by
  have hpos := width.bytes_pos
  have hwidth := width.bytes32_toNat
  rw [UInt32.toNat_shiftRight, UInt32.toNat_shiftRight, UInt32.toNat_sub, UInt32.toNat_add,
    hwidth, UInt32.toNat_one]
  simp only [Nat.shiftRight_eq_div_pow]
  apply Nat.div_le_div_right
  omega

section Access

variable {s : BusState D} (hcoherent : s.core.Coherent) (hallocated : s.core.allocated = true)
  {addr : UInt32} {width : Width}

include hcoherent hallocated

/-- On a wrapped address the inline path finds the DTCM window. -/
private theorem classify_wrapped (hwrap : WrapsIntoDtcm s.core addr) :
    ndsBusfClassify s.core.fast .arm9 addr =
      some (backingWin .dtcm 0 0x3FFF, addr - s.core.cp15.visible.dtcmBase) := by
  have hlow := hwrap.low
  obtain ⟨henable, hbelow, hsize, hspan, hnoItcm⟩ := hwrap
  have hfast := fast_eq hcoherent.fresh hallocated
  have hbase : s.core.fast.dtcmBase = s.core.cp15.visible.dtcmBase := by
    rw [hfast]
    rfl
  have hwindow : s.core.fast.dtcm = backingWin .dtcm 0 0x3FFF := by
    rw [hfast]
    rfl
  have hitcm : ¬ addr < s.core.fast.itcmLimit := by
    rw [itcmLimit_hit hcoherent.fresh hallocated]
    exact fun hhit => hnoItcm ⟨hhit.1, hhit.2.2.2⟩
  have hdtcm : addr - s.core.cp15.visible.dtcmBase < s.core.fast.dtcmLimit := by
    rw [dtcmLimit_hit hcoherent.fresh hallocated]
    refine ⟨henable, ?_, UInt32.lt_iff_toNat_lt.mpr hsize, UInt32.lt_iff_toNat_lt.mpr hspan⟩
    intro hzero
    rw [hzero] at hsize
    exact absurd hsize (Nat.not_lt_zero _)
  simp only [ndsBusfClassify, true_and, if_neg hitcm, hbase, if_pos hdtcm, hwindow]

/-- A served access is served from the bytes `resolve` returns. -/
theorem serves_resolved (hwrapped : ¬ WrappedDtcmHit s addr width)
    (hdeep : s.deepTrace = false) {w : NdsBusFastWin} {off : UInt32} {p : BackingPtr}
    (hserves : busfServes s.core.fast s.active addr width = some (w, off, p)) :
    ServedBy w off p width.bytes ∧ resolve s.core s.active addr width.bytes = some p := by
  have hpos := width.bytes_pos
  unfold busfServes at hserves
  cases hclassify : ndsBusfClassify s.core.fast s.active addr with
  | none =>
      rw [hclassify] at hserves
      cases hserves
  | some hit =>
      obtain ⟨window, offset⟩ := hit
      rw [hclassify] at hserves
      cases hdata : window.data with
      | none => simp [hdata] at hserves
      | some data =>
          simp only [hdata] at hserves
          split at hserves
          · next hbound =>
              cases hserves
              obtain ⟨hmask, hmaskBound⟩ :=
                classify_offset_le_mask hcoherent.fresh hallocated hclassify
              by_cases hwrap : s.active = .arm9 ∧ WrapsIntoDtcm s.core addr
              · exfalso
                obtain ⟨hactive, hwrap⟩ := hwrap
                refine hwrapped ⟨hdeep, hactive, hwrap, ?_⟩
                rw [hactive, classify_wrapped hcoherent hallocated hwrap] at hclassify
                cases hclassify
                exact fits_of_bound hmask (by decide) hbound
              · exact classify_agrees hcoherent.fresh hallocated hpos hwrap hclassify data hdata
                  (fits_of_bound hmask hmaskBound hbound)
          · cases hserves

/-- Off the wrapped addresses the inline write leaves the very state the slow
write leaves. -/
theorem busWrite_eq_slow (hwrapped : ¬ WrappedDtcmHit s addr width) (value : UInt32) :
    busWrite devices s addr width value = busWriteSlow devices s addr width value := by
  unfold busWrite
  cases hdeep : s.deepTrace with
  | true => rfl
  | false =>
      cases hserves : busfServes s.core.fast s.active addr width with
      | none => rfl
      | some hit =>
          obtain ⟨w, off, p⟩ := hit
          obtain ⟨hserved, hresolve⟩ :=
            serves_resolved hcoherent hallocated hwrapped hdeep hserves
          simp only [Bool.false_eq_true, if_false, busWriteSlow, hresolve,
            noteWrite_eq devices _ hserved]

theorem busRead_eq_slow (hwrapped : ¬ WrappedDtcmHit s addr width) :
    busRead devices s addr width = busReadSlow devices s addr width := by
  unfold busRead
  cases hdeep : s.deepTrace with
  | true => rfl
  | false =>
      cases hserves : busfServes s.core.fast s.active addr width with
      | none => rfl
      | some hit =>
          obtain ⟨w, off, p⟩ := hit
          obtain ⟨-, hresolve⟩ := serves_resolved hcoherent hallocated hwrapped hdeep hserves
          simp only [Bool.false_eq_true, if_false, busReadSlow, hresolve]

/-- On a wrapped address the inline path stores into DTCM: the generation of
the page it lands in moves. -/
private theorem busWrite_wrapped_generation (hhit : WrappedDtcmHit s addr width)
    (value : UInt32) :
    ∃ page, (busWrite devices s addr width value).mem.generation .dtcm page ≠
      s.mem.generation .dtcm page := by
  obtain ⟨hdeep, hactive, hwrap, hfits⟩ := hhit
  have hlow := hwrap.low
  let off := addr - s.core.cp15.visible.dtcmBase
  have hserves : busfServes s.core.fast .arm9 addr width =
      some (backingWin .dtcm 0 0x3FFF, off, ⟨.dtcm, 0 + off.toNat⟩) := by
    have hwidth := width.bytes32_toNat
    have hsmall : width.bytes ≤ 4 := by cases width <;> decide
    have hmaskOne : ((0x3FFF : UInt32) + 1).toNat = 0x4000 := rfl
    have hbound : off + width.bytes32 ≤ (0x3FFF : UInt32) + 1 := by
      rw [UInt32.le_iff_toNat_le, hmaskOne, UInt32.toNat_add]
      have hoff : off.toNat + width.bytes ≤ 0x4000 := hfits
      omega
    unfold busfServes
    rw [classify_wrapped hcoherent hallocated hwrap]
    exact if_pos (Or.inr hbound)
  have hwatched : liveWriteWatched addr width = false := by
    have hhigh (base : UInt32) (hbase : 0x5000 ≤ base.toNat) (v : UInt32)
        (hv : v.toNat < 0x5000) : ¬ base ≤ v ∧ ¬ base < v := by
      rw [UInt32.le_iff_toNat_le, UInt32.lt_iff_toNat_lt]
      omega
    have hsum (v : UInt32) (hv : v.toNat ≤ 4) : (addr + v).toNat < 0x5000 := by
      rw [UInt32.toNat_add]
      omega
    cases width with
    | byte =>
        have hno := (hhigh 0x027E0000 (by decide) addr (by omega)).1
        simp only [liveWriteWatched, ge_iff_le, hno, decide_false, Bool.false_and]
    | half =>
        have hno := (hhigh 0x027E0000 (by decide) _ (hsum 2 (by decide))).2
        simp only [liveWriteWatched, Width.bytes32, gt_iff_lt, hno, decide_false, Bool.false_and]
    | word =>
        have hno := (hhigh 0x027E0000 (by decide) _ (hsum 4 (by decide))).2
        simp only [liveWriteWatched, Width.bytes32, gt_iff_lt, hno, decide_false, Bool.false_and]
  refine ⟨(off >>> 12).toNat, ?_⟩
  have hpages : (off >>> 12).toNat ≤ ((off + width.bytes32 - 1) >>> 12).toNat :=
    page_le_last_page hfits
  simp only [busWrite, hdeep, Bool.false_eq_true, if_false, hactive, hserves, storeThrough,
    hwatched, ndsBusfNoteWrite, backingWin, BusMemory.markWritten, devices.noteCodeWrite_mem,
    BusMemory.bumpPages, BusMemory.store, Function.update_self]
  rw [if_pos ⟨by simp [execPageShift], by simpa [execPageShift] using hpages⟩]
  exact bumpGeneration_ne _

end Access

/-! ### Every reachable map -/

/-- Writes to the map registers, and anything else that may happen between
them to memories, devices, CPU and trace mode. -/
inductive BusMapOp (D : Type*) where
  | coprocWrite (w : CoprocWrite)
  | cp15Reset
  | cp15Import (saved : NdsCp15SaveState)
  | wramcntWrite (byte : UInt8)
  | elsewhere (mem : BusMemory) (active : NdsCpu) (deepTrace : Bool) (dev : D)

def BusState.applyMap (s : BusState D) : BusMapOp D → BusState D
  | .coprocWrite w => { s with core := runtimeCoprocWrite s.core w }
  | .cp15Reset => { s with core := Bus.cp15Reset s.core }
  | .cp15Import saved => { s with core := cp15SavestateImport s.core saved }
  | .wramcntWrite byte => { s with core := Bus.wramcntWrite s.core byte }
  | .elsewhere mem active deepTrace dev => { s with mem, active, deepTrace, dev }

/-- Runs start from the map `bus_init` publishes. -/
def busMapSystem (D : Type*) : OpSystem (BusState D) (BusMapOp D) where
  initial := fun s => s.core = busInit {}
  admits := fun _ _ => True
  next := BusState.applyMap

theorem coprocWrite_allocated (core : BusCore) (w : CoprocWrite) :
    (runtimeCoprocWrite core w).allocated = core.allocated := by
  have hregister (core : BusCore) : (coprocWriteRegister core w).allocated = core.allocated := by
    unfold coprocWriteRegister
    split_ifs
    all_goals rfl
  unfold runtimeCoprocWrite
  split
  · rfl
  · split
    · rfl
    · simp only
      split
      · refine (hregister _).trans ?_
        split <;> rfl
      · refine (hregister _).trans ?_
        split <;> rfl

theorem busMap_invariant (D : Type*) :
    (busMapSystem D).Invariant fun s => s.core.Coherent ∧ s.core.allocated = true where
  start := by
    intro s hstart
    have hcore : s.core = busInit {} := hstart
    rw [hcore]
    exact ⟨coherent_start.init, rfl⟩
  step := by
    intro s op h _
    obtain ⟨hcoherent, hallocated⟩ := h
    cases op with
    | coprocWrite w =>
        exact ⟨hcoherent.coprocWrite w, (coprocWrite_allocated s.core w).trans hallocated⟩
    | cp15Reset => exact ⟨hcoherent.reset, hallocated⟩
    | cp15Import saved => exact ⟨BusCore.Coherent.savestateImport saved, hallocated⟩
    | wramcntWrite byte => exact ⟨hcoherent.wramcnt byte, hallocated⟩
    | elsewhere mem active deepTrace dev => exact ⟨hcoherent, hallocated⟩

/-- In every reachable state an inline access does what the slow one does, in
what a write leaves in the memories, their write marks and generations and in
what a read returns, if and only if it is not a wrapped DTCM access. -/
theorem inline_access_eq_slow_iff (s : BusState D) (hreachable : (busMapSystem D).Reachable s)
    (addr : UInt32) (width : Width) :
    ((∀ value, (busWrite devices s addr width value).mem =
          (busWriteSlow devices s addr width value).mem) ∧
        (busRead devices s addr width).1 = (busReadSlow devices s addr width).1) ↔
      ¬ WrappedDtcmHit s addr width := by
  obtain ⟨hcoherent, hallocated⟩ := hreachable.invariant (busMap_invariant D)
  constructor
  · rintro ⟨hwrite, -⟩ hhit
    obtain ⟨page, hpage⟩ :=
      busWrite_wrapped_generation devices hcoherent hallocated hhit 0
    rw [hwrite 0, busWriteSlow_wrapped devices hhit] at hpage
    exact hpage rfl
  · intro hwrapped
    refine ⟨?_, ?_⟩
    · intro value
      rw [busWrite_eq_slow devices hcoherent hallocated hwrapped]
    · rw [busRead_eq_slow devices hcoherent hallocated hwrapped]

section TopOfMemory

/-- Devices that do nothing, to run the two paths on. -/
private def idleDevices : BusDevices Unit where
  videoRead := fun s _ _ => (0, s)
  videoWrite := fun s _ _ _ => s
  gbaRead := fun _ _ _ => 0
  wifiRead := fun s _ _ => (0, s)
  wifiWrite := fun s _ _ _ => s
  ioRead := fun s _ _ => (0, s)
  ioWrite := fun s _ _ _ => s
  noteCodeWrite := fun s => s
  noteCodeWrite_mem := fun _ => rfl
  noteLiveWrite := fun s _ _ _ _ => s

private def blankMemory : BusMemory where
  data := fun _ _ => 0
  written := fun _ _ => false
  generation := fun _ _ => 0

private def bootState : BusState Unit where
  core := busInit {}
  mem := blankMemory
  active := .arm9
  deepTrace := false
  dev := ()

/-- A 16 KiB DTCM at 0xFFFFE000, enabled; its upper half wraps to 0. -/
private def topDtcm : BusState Unit :=
  (busMapSystem Unit).runFrom bootState
    [.coprocWrite ⟨15, 0, 9, 1, 0, 0xFFFFE00A⟩, .coprocWrite ⟨15, 0, 1, 0, 0, 0x00010000⟩]

private theorem topDtcm_reachable : (busMapSystem Unit).Reachable topDtcm :=
  OpSystem.Reachable.runFrom (.start rfl) ⟨trivial, trivial, trivial⟩

theorem inline_access_eq_slow_iff_at_top :
    ((∀ value, (busWrite idleDevices topDtcm 0x02000000 .word value).mem =
          (busWriteSlow idleDevices topDtcm 0x02000000 .word value).mem) ∧
        (busRead idleDevices topDtcm 0x02000000 .word).1 =
          (busReadSlow idleDevices topDtcm 0x02000000 .word).1) ↔
      ¬ WrappedDtcmHit topDtcm 0x02000000 .word :=
  inline_access_eq_slow_iff idleDevices topDtcm topDtcm_reachable 0x02000000 .word

/-- An ARM9 byte store to address 0 with that DTCM: the inline path stores into
DTCM and moves its generation, the slow path drops the store. -/
theorem inline_store_wraps_into_dtcm :
    ¬ ∀ (s : BusState Unit), (busMapSystem Unit).Reachable s → ∀ addr width value,
      (busWrite idleDevices s addr width value).mem =
        (busWriteSlow idleDevices s addr width value).mem := by
  intro hequal
  have hmem := hequal topDtcm topDtcm_reachable 0 .byte 1
  have hgeneration := congrArg (fun mem => mem.generation .dtcm 2) hmem
  revert hgeneration
  decide

end TopOfMemory

end NdsRecomp.Bus
