import NdsRecomp.Exec.PageView

/-!
The physical page behind a page of guest addresses, and what a content check
says in its terms: every byte of every range is a byte some store has put
there, and it is the byte of the image. Two states that show a CPU the same
pages with the same code bytes give every check the same answer.
-/

namespace NdsRecomp.Exec

open Library Bus Dispatch Video

/-- A page of physical memory, or nothing a content check could read. -/
inductive PhysPage where
  | ram (backing : Backing) (page : Nat)
  | vram (page : Nat)
  | unmapped
deriving DecidableEq

namespace Memories

/-- The page a CPU sees at a page of its addresses. -/
def seenPage (m : Memories) (cpu : NdsCpu) (page : UInt32) : PhysPage :=
  match resolve m.core cpu page 4096 with
  | some p => .ram p.backing (p.offset / 4096)
  | none =>
      match m.vram.execPhysicalOffset cpu page with
      | some physical => .vram (physical / 4096)
      | none => .unmapped

/-- The generation kept for a page. -/
def stamp (m : Memories) : PhysPage → UInt32
  | .ram backing page => if backing.tracked then m.mem.generation backing page else 0
  | .vram page => m.vram.generation page
  | .unmapped => 0

def rawByte (m : Memories) : PhysPage → Nat → UInt8
  | .ram backing page, i => m.mem.data backing (4096 * page + i)
  | .vram page, i => m.vram.vram (4096 * page + i)
  | .unmapped, _ => 0

def isWritten (m : Memories) : PhysPage → Nat → Bool
  | .ram backing page, i => backing.tracked && m.mem.written backing (4096 * page + i)
  | .vram page, i =>
      decide (4096 * page + i < kTotalVram) && m.vram.written (4096 * page + i)
  | .unmapped, _ => false

/-- A byte some store has put there. -/
def codeByte (m : Memories) (page : PhysPage) (i : Nat) : Option UInt8 :=
  if m.isWritten page i then some (m.rawByte page i) else none

def visibleRaw (m : Memories) (cpu : NdsCpu) (addr : UInt32) : UInt8 :=
  m.rawByte (m.seenPage cpu (pageBase addr)) (addr.toNat % 4096)

def visibleByte (m : Memories) (cpu : NdsCpu) (addr : UInt32) : Option UInt8 :=
  m.codeByte (m.seenPage cpu (pageBase addr)) (addr.toNat % 4096)

def codePage (m : Memories) (page : PhysPage) : Fin 4096 → Option UInt8 :=
  fun i => m.codeByte page i

end Memories

/-! ### Addresses of one chunk -/

/-- The `i`-th address of a chunk lies in the page of the first. -/
theorem chunk_addr {addr : UInt32} {len i : Nat} (hpage : addr.toNat % 4096 + len ≤ 4096)
    (hi : i < len) :
    (addr + UInt32.ofNat i).toNat = addr.toNat + i ∧
      pageBase (addr + UInt32.ofNat i) = pageBase addr := by
  have haddr := addr.toNat_lt
  have hsum : (addr + UInt32.ofNat i).toNat = addr.toNat + i := by
    have hsmall : i < UInt32.size := by
      change i < 4294967296
      omega
    rw [UInt32.toNat_add, UInt32.toNat_ofNat_of_lt' hsmall]
    omega
  refine ⟨hsum, UInt32.toNat_inj.mp ?_⟩
  rw [pageBase_toNat, pageBase_toNat, hsum]
  omega

namespace Memories

variable {m : Memories} (hpaged : TcmPaged m.core.cp15.visible)

include hpaged

/-- A chunk in a directly addressed page. -/
private theorem chunk_ram {cpu : NdsCpu} {addr : UInt32} {len : Nat} (hlen : 0 < len)
    (hpage : addr.toNat % 4096 + len ≤ 4096) {p : BackingPtr}
    (hresolve : resolve m.core cpu addr len = some p) :
    m.seenPage cpu (pageBase addr) = .ram p.backing (p.offset / 4096) ∧
      p.offset % 4096 = addr.toNat % 4096 ∧ p.offset + len ≤ p.backing.size := by
  have hwhole := resolve_page hlen hpage hpaged cpu
  rw [hresolve] at hwhole
  obtain ⟨base, hbase, hshift⟩ := Option.map_eq_some_iff.mp hwhole.symm
  have haligned := resolve_aligned hpaged cpu addr base hbase
  obtain rfl : shiftPtr (addr.toNat % 4096) base = p := hshift
  have hfits := resolve_fits _ _ _ _ base hbase
  unfold seenPage
  rw [hbase]
  simp only [shiftPtr]
  refine ⟨?_, by omega, by omega⟩
  congr 1
  omega

/-- A chunk in no directly addressed page. -/
private theorem chunk_vram {cpu : NdsCpu} {addr : UInt32} {len : Nat} (hlen : 0 < len)
    (hpage : addr.toNat % 4096 + len ≤ 4096) (hresolve : resolve m.core cpu addr len = none) :
    resolve m.core cpu (pageBase addr) 4096 = none := by
  have hwhole := resolve_page hlen hpage hpaged cpu
  rw [hresolve] at hwhole
  exact Option.map_eq_none_iff.mp hwhole.symm

/-- The two tests on a chunk together compare its code bytes. -/
theorem chunk_live_iff (cpu : NdsCpu) (expected : Nat → UInt8) {chunk : Chunk}
    (hlen : 0 < chunk.len) (hpage : chunk.addr.toNat % 4096 + chunk.len ≤ 4096) :
    (m.chunkHasProvenance cpu chunk = true ∧ m.chunkBytesEqual cpu expected chunk = true) ↔
      ∀ i < chunk.len,
        m.visibleByte cpu (chunk.addr + UInt32.ofNat i) = some (expected (chunk.offset + i)) := by
  unfold chunkHasProvenance chunkBytesEqual
  cases hresolve : resolve m.core cpu chunk.addr chunk.len with
  | some p =>
      obtain ⟨hseen, hoffset, hfits⟩ := chunk_ram hpaged hlen hpage hresolve
      have hbyte (i : Nat) (hi : i < chunk.len) :
          m.visibleByte cpu (chunk.addr + UInt32.ofNat i) =
            if p.backing.tracked && m.mem.written p.backing (p.offset + i) then
              some (m.mem.data p.backing (p.offset + i)) else none := by
        obtain ⟨hsum, hbase⟩ := chunk_addr hpage hi
        have hindex : 4096 * (p.offset / 4096) + (chunk.addr.toNat + i) % 4096 = p.offset + i := by
          omega
        simp only [visibleByte, hbase, hseen, codeByte, isWritten, rawByte, hsum, hindex]
      simp only [Bool.and_eq_true, List.all_eq_true, List.mem_range, decide_eq_true_eq,
        beq_iff_eq]
      constructor
      · rintro ⟨⟨⟨htracked, -⟩, hwritten⟩, hdata⟩ i hi
        rw [hbyte i hi, htracked, hwritten i hi, hdata i hi]
        rfl
      · intro hall
        have hpoint (i : Nat) (hi : i < chunk.len) :
            p.backing.tracked = true ∧ m.mem.written p.backing (p.offset + i) = true ∧
              m.mem.data p.backing (p.offset + i) = expected (chunk.offset + i) := by
          have h := hall i hi
          rw [hbyte i hi] at h
          split at h
          · next hcode =>
              rw [Bool.and_eq_true] at hcode
              exact ⟨hcode.1, hcode.2, Option.some.inj h⟩
          · cases h
        exact ⟨⟨⟨(hpoint 0 hlen).1, hfits⟩, fun i hi => (hpoint i hi).2.1⟩,
          fun i hi => (hpoint i hi).2.2⟩
  | none =>
      have hnone := chunk_vram hpaged hlen hpage hresolve
      have hbyte (i : Nat) (hi : i < chunk.len) :
          m.visibleByte cpu (chunk.addr + UInt32.ofNat i) =
            (m.vram.execPhysicalOffset cpu (chunk.addr + UInt32.ofNat i)).bind fun physical =>
              if m.vram.written physical then some (m.vram.vram physical) else none := by
        obtain ⟨hsum, hbase⟩ := chunk_addr hpage hi
        obtain ⟨hhere, hbank⟩ :=
          execPhysicalOffset_page (chunk.addr + UInt32.ofNat i) m.vram cpu
        rw [hhere, hbase]
        simp only [visibleByte, hbase, seenPage, hnone]
        cases hphysical : m.vram.execPhysicalOffset cpu (pageBase chunk.addr) with
        | none => rfl
        | some physical =>
            rw [hbase] at hbank
            obtain ⟨haligned, hbound⟩ := hbank physical hphysical
            have hr : (chunk.addr + UInt32.ofNat i).toNat % 4096 < 4096 :=
              Nat.mod_lt _ (by decide)
            have hindex (r : Nat) : 4096 * (physical / 4096) + r = physical + r := by omega
            have hinside : physical + (chunk.addr + UInt32.ofNat i).toNat % 4096 < kTotalVram := by
              omega
            simp only [codeByte, isWritten, rawByte, hindex, Option.map_some, Option.bind_some,
              hinside, decide_true, Bool.true_and]
      have hsize : (chunk.len != 0) = true := by
        rw [bne_iff_ne]
        omega
      simp only [VramState.rangeHasWriteProvenance, VramState.liveBytesEqual, hsize,
        Bool.true_and, List.all_eq_true, List.mem_range]
      constructor
      · rintro ⟨hwritten, hdata⟩ i hi
        rw [hbyte i hi]
        have hw := hwritten i hi
        have hd := hdata i hi
        cases hphysical : m.vram.execPhysicalOffset cpu (chunk.addr + UInt32.ofNat i) with
        | none => simp [hphysical] at hw
        | some physical => simp_all
      · intro hall
        have hpoint (i : Nat) (hi : i < chunk.len) : ∃ physical,
            m.vram.execPhysicalOffset cpu (chunk.addr + UInt32.ofNat i) = some physical ∧
              m.vram.written physical = true ∧
              m.vram.vram physical = expected (chunk.offset + i) := by
          have h := hall i hi
          rw [hbyte i hi] at h
          obtain ⟨physical, hphysical, hcode⟩ := Option.bind_eq_some_iff.mp h
          split at hcode
          · next hwritten => exact ⟨physical, hphysical, hwritten, Option.some.inj hcode⟩
          · cases hcode
        refine ⟨fun i hi => ?_, fun i hi => ?_⟩
        · obtain ⟨physical, hphysical, hwritten, -⟩ := hpoint i hi
          rw [hphysical]
          exact hwritten
        · obtain ⟨physical, hphysical, -, hdata⟩ := hpoint i hi
          rw [hphysical]
          exact beq_iff_eq.mpr hdata

end Memories

/-! ### Ranges and their pages -/

/-- The pages `first_page`, `first_page + 4096`, ..., `last_page` of a range
that ends inside the address space. -/
def rangePages (range : NdsStaticValidationRange) : List UInt32 :=
  let last := range.addr.toNat + range.size.toNat - 1
  (List.range (last / 4096 - range.addr.toNat / 4096 + 1)).map fun k =>
    pageBase range.addr + 4096 * UInt32.ofNat k

theorem mem_rangePages {range : NdsStaticValidationRange} {i : Nat}
    (hend : range.addr.toNat + range.size.toNat ≤ 0x100000000) (hi : i < range.size.toNat) :
    pageBase (range.addr + UInt32.ofNat i) ∈ rangePages range := by
  have haddr := range.addr.toNat_lt
  have hsmall : i < UInt32.size := by
    change i < 4294967296
    omega
  have hsum : (range.addr + UInt32.ofNat i).toNat = range.addr.toNat + i := by
    rw [UInt32.toNat_add, UInt32.toNat_ofNat_of_lt' hsmall]
    omega
  let k := (range.addr.toNat + i) / 4096 - range.addr.toNat / 4096
  have hsmallPage : k < UInt32.size := by
    change (range.addr.toNat + i) / 4096 - range.addr.toNat / 4096 < 4294967296
    omega
  have hk : k < (range.addr.toNat + range.size.toNat - 1) / 4096 - range.addr.toNat / 4096 + 1 := by
    have hle : (range.addr.toNat + i) / 4096 ≤ (range.addr.toNat + range.size.toNat - 1) / 4096 :=
      Nat.div_le_div_right (by omega)
    change (range.addr.toNat + i) / 4096 - range.addr.toNat / 4096 < _
    omega
  refine List.mem_map.mpr ⟨k, List.mem_range.mpr hk, UInt32.toNat_inj.mp ?_⟩
  rw [UInt32.toNat_add, UInt32.toNat_mul, UInt32.toNat_ofNat_of_lt' hsmallPage, pageBase_toNat,
    pageBase_toNat, hsum]
  change (range.addr.toNat / 4096 * 4096 +
    4096 * ((range.addr.toNat + i) / 4096 - range.addr.toNat / 4096) % 4294967296) % 4294967296 = _
  omega

/-- A range `for_each_validation_range` hands on has an image, is not empty and
ends inside the address space. -/
def RangeFormed (range : NdsStaticValidationRange) : Prop :=
  range.expected.isSome = true ∧ range.size ≠ 0 ∧
    range.addr.toNat + range.size.toNat ≤ 0x100000000

namespace Memories

/-- Every byte of the range is visible and is the byte of the image. -/
def ImageVisible (m : Memories) (cpu : NdsCpu) (range : NdsStaticValidationRange) : Prop :=
  ∀ i < range.size.toNat, m.visibleByte cpu (range.addr + UInt32.ofNat i) =
    some ((range.expected.getD []).getD i 0)

/-- The content check of one range, stated byte by byte. -/
theorem rangeLive_iff {m : Memories} (hpaged : TcmPaged m.core.cp15.visible) (cpu : NdsCpu)
    (range : NdsStaticValidationRange) :
    m.rangeLive cpu range = true ↔ RangeFormed range ∧ m.ImageVisible cpu range := by
  unfold rangeLive RangeFormed
  cases hexpected : range.expected with
  | none => simp
  | some expected =>
      let image : Nat → UInt8 := fun i => expected.getD i 0
      have hchunks : ((rangeChunks range.addr range.size.toNat).all (m.chunkHasProvenance cpu) =
            true ∧
          (rangeChunks range.addr range.size.toNat).all (m.chunkBytesEqual cpu image) = true) ↔
            m.ImageVisible cpu range := by
        simp only [List.all_eq_true]
        constructor
        · rintro ⟨hprovenance, hequal⟩ i hi
          obtain ⟨chunk, hmem, hlow, hhigh⟩ := @mem_rangeChunks range.addr _ _ hi
          obtain ⟨hstart, hpos, -, hpage⟩ := within_of_mem_rangeChunks hmem
          have hlive := (chunk_live_iff hpaged cpu image hpos hpage).mp
            ⟨hprovenance chunk hmem, hequal chunk hmem⟩ (i - chunk.offset) (by omega)
          have hindex : chunk.offset + (i - chunk.offset) = i := by omega
          rw [hstart, UInt32.add_assoc, ← UInt32.ofNat_add, hindex] at hlive
          rw [hlive, hexpected]
          rfl
        · intro hvisible
          have hboth (chunk : Chunk) (hmem : chunk ∈ rangeChunks range.addr range.size.toNat) :
              m.chunkHasProvenance cpu chunk = true ∧ m.chunkBytesEqual cpu image chunk = true := by
            obtain ⟨hstart, hpos, hfits, hpage⟩ := within_of_mem_rangeChunks hmem
            refine (chunk_live_iff hpaged cpu image hpos hpage).mpr fun i hi => ?_
            have hbyte := hvisible (chunk.offset + i) (by omega)
            rw [hstart, UInt32.add_assoc, ← UInt32.ofNat_add, hbyte, hexpected]
            rfl
          exact ⟨fun chunk hmem => (hboth chunk hmem).1, fun chunk hmem => (hboth chunk hmem).2⟩
      simp only [busRangeHasWriteProvenance, busLiveBytesEqual, Bool.and_eq_true, bne_iff_ne,
        decide_eq_true_eq, Option.isSome_some, true_and]
      rw [← hchunks]
      tauto

/-- A CPU sees the same page with the same code bytes in two states. -/
def SeesSame (m m' : Memories) (cpu : NdsCpu) (page : UInt32) : Prop :=
  m'.seenPage cpu page = m.seenPage cpu page ∧
    m'.codePage (m.seenPage cpu page) = m.codePage (m.seenPage cpu page)

theorem SeesSame.visibleByte {m m' : Memories} {cpu : NdsCpu} {addr : UInt32}
    (h : SeesSame m m' cpu (pageBase addr)) :
    m'.visibleByte cpu addr = m.visibleByte cpu addr := by
  unfold Memories.visibleByte
  rw [h.1]
  exact congrFun h.2 ⟨addr.toNat % 4096, Nat.mod_lt _ (by decide)⟩

end Memories

/-- All pages the ranges of a validation touch. -/
def validationPages (v : NdsStaticValidation) : List UInt32 :=
  ((validationRanges v).getD []).flatMap rangePages

namespace Memories

theorem SeesSame.rangeLive {m m' : Memories} (hpaged : TcmPaged m.core.cp15.visible)
    (hpaged' : TcmPaged m'.core.cp15.visible) {cpu : NdsCpu} {range : NdsStaticValidationRange}
    (h : ∀ page ∈ rangePages range, SeesSame m m' cpu page) :
    m'.rangeLive cpu range = m.rangeLive cpu range := by
  rw [Bool.eq_iff_iff, rangeLive_iff hpaged', rangeLive_iff hpaged]
  apply and_congr_right
  rintro ⟨-, -, hend⟩
  have hbyte (i : Nat) (hi : i < range.size.toNat) :=
    (h _ (mem_rangePages hend hi)).visibleByte
  constructor
  · intro himage i hi
    rw [← hbyte i hi]
    exact himage i hi
  · intro himage i hi
    rw [hbyte i hi]
    exact himage i hi

/-- A content check depends on nothing but the pages its ranges touch. -/
theorem validationIdentityLive_congr {m m' : Memories} (hpaged : TcmPaged m.core.cp15.visible)
    (hpaged' : TcmPaged m'.core.cp15.visible) {cpu : NdsCpu} {v : NdsStaticValidation}
    (h : ∀ page ∈ validationPages v, SeesSame m m' cpu page) :
    m'.validationIdentityLive cpu v = m.validationIdentityLive cpu v := by
  unfold validationIdentityLive forEachValidationRange
  unfold validationPages at h
  cases hranges : validationRanges v with
  | none => rfl
  | some ranges =>
      rw [hranges] at h
      have heach : ∀ range ∈ ranges, m'.rangeLive cpu range = m.rangeLive cpu range := by
        intro range hmem
        exact SeesSame.rangeLive hpaged hpaged' fun page hpage =>
          h page (List.mem_flatMap.mpr ⟨range, hmem, hpage⟩)
      rw [Bool.eq_iff_iff]
      simp only [List.all_eq_true]
      exact forall₂_congr fun range hmem => by rw [heach range hmem]

end Memories

end NdsRecomp.Exec
