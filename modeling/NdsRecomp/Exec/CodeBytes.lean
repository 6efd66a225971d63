import NdsRecomp.Bus.Access
import NdsRecomp.Dispatch.Lookup
import NdsRecomp.Video.Vram

/-!
What a CPU would execute: the bytes, write marks and page generations behind
its addresses, and the content check of a native body against them. All of it
is read for the active CPU in the source; here the CPU is an argument.
-/

namespace NdsRecomp.Exec

open Bus Dispatch Video

/-- Everything a content check reads. -/
structure Memories where
  core : BusCore
  mem : BusMemory
  vram : VramState

/-- A stretch of a range inside one 4 KiB page of guest addresses. -/
structure Chunk where
  addr : UInt32
  offset : Nat
  len : Nat
deriving DecidableEq

/-- The `while (offset < size)` loop over page-bounded chunks. Every chunk is
at least one byte, so `size` rounds are enough. -/
def chunksFrom (addr : UInt32) (size : Nat) : Nat → Nat → List Chunk
  | 0, _ => []
  | fuel + 1, offset =>
      if size ≤ offset then []
      else
        let start := addr + UInt32.ofNat offset
        let pageLeft := execPageSize - start.toNat % execPageSize
        let len := min (size - offset) pageLeft
        ⟨start, offset, len⟩ :: chunksFrom addr size fuel (offset + len)

def rangeChunks (addr : UInt32) (size : Nat) : List Chunk := chunksFrom addr size size 0

namespace Memories

/-- `bus_range_has_write_provenance` on one chunk. -/
def chunkHasProvenance (m : Memories) (cpu : NdsCpu) (chunk : Chunk) : Bool :=
  match resolve m.core cpu chunk.addr chunk.len with
  | some p =>
      p.backing.tracked && decide (p.offset + chunk.len ≤ p.backing.size) &&
        (List.range chunk.len).all fun i => m.mem.written p.backing (p.offset + i)
  | none => m.vram.rangeHasWriteProvenance cpu chunk.addr chunk.len

/-- `bus_live_bytes_equal` on one chunk. -/
def chunkBytesEqual (m : Memories) (cpu : NdsCpu) (expected : Nat → UInt8) (chunk : Chunk) :
    Bool :=
  match resolve m.core cpu chunk.addr chunk.len with
  | some p =>
      (List.range chunk.len).all fun i =>
        m.mem.data p.backing (p.offset + i) == expected (chunk.offset + i)
  | none =>
      m.vram.liveBytesEqual cpu chunk.addr (fun i => expected (chunk.offset + i)) chunk.len

def busRangeHasWriteProvenance (m : Memories) (cpu : NdsCpu) (addr size : UInt32) : Bool :=
  size != 0 && (rangeChunks addr size.toNat).all (m.chunkHasProvenance cpu)

def busLiveBytesEqual (m : Memories) (cpu : NdsCpu) (addr : UInt32) (expected : List UInt8)
    (size : UInt32) : Bool :=
  size != 0 && (rangeChunks addr size.toNat).all
    (m.chunkBytesEqual cpu fun i => expected.getD i 0)

/-! ### Page generations -/

/-- `page_generation_for_ptr` -/
def pageGenerationForPtr (m : Memories) (p : BackingPtr) : UInt32 :=
  if p.backing.tracked then m.mem.generation p.backing (p.offset >>> execPageShift) else 0

/-- `bus_exec_page_generation`: the published windows first, then the slow
decode, then VRAM. -/
def busExecPageGeneration (m : Memories) (cpu : NdsCpu) (addr : UInt32) : UInt32 :=
  let slow :=
    match resolve m.core cpu addr 1 with
    | some p => m.pageGenerationForPtr p
    | none => m.vram.execPageGeneration cpu addr
  match ndsBusfClassify m.core.fast cpu addr with
  | some (w, off) =>
      match w.data, w.gen with
      | some _, some gen => m.mem.generation gen.backing (gen.offset + (off >>> 12).toNat)
      | _, _ => slow
  | none => slow

end Memories

/-! ### Content validation -/

/-- The validation's own range, the one checked without dependencies. -/
def ownerRange (v : NdsStaticValidation) : NdsStaticValidationRange where
  addr := v.addr
  size := v.size
  expected := v.expected
  expected_length := v.expected_length

/-- The ranges `for_each_validation_range` visits; a missing dependency array
fails the visit. -/
def validationRanges (v : NdsStaticValidation) : Option (List NdsStaticValidationRange) :=
  if v.dependencyCount ≠ 0 then v.dependencies else some [ownerRange v]

def forEachValidationRange (v : NdsStaticValidation) (fn : NdsStaticValidationRange → Bool) :
    Bool :=
  match validationRanges v with
  | none => false
  | some ranges => ranges.all fn

namespace Memories

/-- The test `validation_identity_live` makes on one range. -/
def rangeLive (m : Memories) (cpu : NdsCpu) (range : NdsStaticValidationRange) : Bool :=
  match range.expected with
  | none => false
  | some expected =>
      range.size != 0 && decide (range.addr.toNat + range.size.toNat ≤ 0x100000000) &&
        m.busRangeHasWriteProvenance cpu range.addr range.size &&
        m.busLiveBytesEqual cpu range.addr expected range.size

def validationIdentityLive (m : Memories) (cpu : NdsCpu) (v : NdsStaticValidation) : Bool :=
  forEachValidationRange v (m.rangeLive cpu)

/-- `dispatch_validation_live` -/
def dispatchValidationLive (m : Memories) (cpu : NdsCpu) : NdsDispatchValidationFn :=
  fun v pc thumb => ndsDispatchValidationOwnsEntry v pc thumb && m.validationIdentityLive cpu v

end Memories

/-! ### Chunks cover their range -/

/-- With a round for every byte left, each remaining byte is in a chunk. -/
theorem mem_chunksFrom {addr : UInt32} {size : Nat} {fuel offset i : Nat}
    (hfuel : size ≤ offset + fuel) (hlow : offset ≤ i) (hhigh : i < size) :
    ∃ chunk ∈ chunksFrom addr size fuel offset,
      chunk.offset ≤ i ∧ i < chunk.offset + chunk.len := by
  induction fuel generalizing offset with
  | zero => omega
  | succ fuel ih =>
      unfold chunksFrom
      rw [if_neg (by omega)]
      let start := addr + UInt32.ofNat offset
      let len := min (size - offset) (execPageSize - start.toNat % execPageSize)
      have hpage : start.toNat % execPageSize < execPageSize := Nat.mod_lt _ (by decide)
      have hlen : 1 ≤ len := by
        have : 1 ≤ size - offset := by omega
        omega
      by_cases hi : i < offset + len
      · exact ⟨⟨start, offset, len⟩, List.mem_cons_self, hlow, hi⟩
      · obtain ⟨chunk, hmem, hbounds⟩ := @ih (offset + len) (by omega) (by omega)
        exact ⟨chunk, List.mem_cons_of_mem _ hmem, hbounds⟩

theorem mem_rangeChunks {addr : UInt32} {size i : Nat} (hi : i < size) :
    ∃ chunk ∈ rangeChunks addr size, chunk.offset ≤ i ∧ i < chunk.offset + chunk.len :=
  mem_chunksFrom (by omega) (Nat.zero_le i) hi

/-- Where a chunk starts, and that it ends inside its range and its page. -/
structure Chunk.Within (chunk : Chunk) (addr : UInt32) (size : Nat) : Prop where
  start : chunk.addr = addr + UInt32.ofNat chunk.offset
  pos : 0 < chunk.len
  fits : chunk.offset + chunk.len ≤ size
  page : chunk.addr.toNat % execPageSize + chunk.len ≤ execPageSize

theorem within_of_mem_chunksFrom {addr : UInt32} {size fuel offset : Nat} {chunk : Chunk}
    (hmem : chunk ∈ chunksFrom addr size fuel offset) : chunk.Within addr size := by
  induction fuel generalizing offset with
  | zero => cases hmem
  | succ fuel ih =>
      unfold chunksFrom at hmem
      split at hmem
      · cases hmem
      · rename_i hoffset
        rcases List.mem_cons.mp hmem with rfl | hrest
        · have hpage : (addr + UInt32.ofNat offset).toNat % execPageSize < execPageSize :=
            Nat.mod_lt _ (by decide)
          refine ⟨rfl, ?_, ?_, ?_⟩
          · apply lt_min
            · omega
            · omega
          · change offset + min _ _ ≤ size
            omega
          · change (addr + UInt32.ofNat offset).toNat % execPageSize + min _ _ ≤ execPageSize
            omega
        · exact ih hrest

theorem within_of_mem_rangeChunks {addr : UInt32} {size : Nat} {chunk : Chunk}
    (hmem : chunk ∈ rangeChunks addr size) : chunk.Within addr size :=
  within_of_mem_chunksFrom hmem

end NdsRecomp.Exec
