import NdsRecomp.Dispatch.Registry
import NdsRecomp.Exec.SeenPage

/-!
The dispatch cache. A slot keeps the answer of one lookup together with up to
four pages and their generations; while the generations stand, the answer is
used again. The profiling counters and the live-overlay accounting beside it
decide nothing and are left out.
-/

namespace NdsRecomp.Runtime

open Bus Dispatch Exec

/-! ### Recorded pages -/

/-- One recorded page. `origin` is a history variable, the page the CPU saw at
`pageAddr` when it was recorded: the source does not keep it, and no function
of the runtime reads it. -/
structure PageRecord where
  pageAddr : UInt32
  generation : UInt32
  generationPtr : Option BackingPtr
  origin : PhysPage

/-- `page_addr[4]`, `generation[4]`, `generation_ptr[4]` and `page_count`. -/
structure PageSnapshot where
  records : List PageRecord
  bounded : records.length ≤ 4

def PageSnapshot.empty : PageSnapshot := ⟨[], Nat.zero_le 4⟩

/-- `g_busf_main.gen + (offset >> 12)` for a page of main RAM. -/
def mainGenerationPtr (m : Memories) (page : UInt32) : Option BackingPtr :=
  if page - 0x02000000 < 0x01000000 then
    m.core.fast.main.gen.map fun gen =>
      ⟨gen.backing, gen.offset + ((page &&& m.core.fast.main.mask) >>> 12).toNat⟩
  else none

/-- `generation_ptr ? *generation_ptr : bus_exec_page_generation(page)` -/
def pageGeneration (m : Memories) (cpu : NdsCpu) (ptr : Option BackingPtr) (page : UInt32) :
    UInt32 :=
  match ptr with
  | some p => m.mem.generation p.backing p.offset
  | none => m.busExecPageGeneration cpu page

def liveGeneration (m : Memories) (cpu : NdsCpu) (r : PageRecord) : UInt32 :=
  pageGeneration m cpu r.generationPtr r.pageAddr

def recordPage (m : Memories) (cpu : NdsCpu) (page : UInt32) : PageRecord where
  pageAddr := page
  generation := pageGeneration m cpu (mainGenerationPtr m page) page
  generationPtr := mainGenerationPtr m page
  origin := m.seenPage cpu page

/-- The loop of `cached_lookup_live`, `link_guard_live` and, negated, of
`guard_generation_changed`. -/
def snapshotCurrent (m : Memories) (cpu : NdsCpu) (snap : PageSnapshot) : Bool :=
  snap.records.all fun r => liveGeneration m cpu r == r.generation

/-- `cache_page_generation` -/
def cachePageGeneration (m : Memories) (cpu : NdsCpu) (snap : PageSnapshot) (page : UInt32) :
    Option PageSnapshot :=
  if snap.records.any fun r => r.pageAddr == page then some snap
  else if h : snap.records.length < 4 then
    some ⟨snap.records ++ [recordPage m cpu page], by
      rw [List.length_append, List.length_singleton]
      exact h⟩
  else none

/-- One range of `cache_validation_pages`. -/
def cacheRangePages (m : Memories) (cpu : NdsCpu) (snap : PageSnapshot)
    (range : NdsStaticValidationRange) : Option PageSnapshot :=
  if range.expected.isNone || range.size == 0 then none
  else if range.addr.toNat + range.size.toNat > 0x100000000 then none
  else (rangePages range).foldlM (cachePageGeneration m cpu) snap

def cacheValidationPages (m : Memories) (cpu : NdsCpu) (snap : PageSnapshot)
    (v : NdsStaticValidation) : Option PageSnapshot :=
  (validationRanges v).bind fun ranges => ranges.foldlM (cacheRangePages m cpu) snap

/-! ### Slots -/

structure CachedStaticLookup where
  pc : UInt32
  pages : PageSnapshot
  fn : Option NativeBody
  validation : Option NdsStaticValidation
  dispatchEpoch : UInt32
  thumb : Bool
  occupied : Bool

def CachedStaticLookup.empty : CachedStaticLookup where
  pc := 0
  pages := .empty
  fn := none
  validation := none
  dispatchEpoch := 0
  thumb := false
  occupied := false

/-- The tables of one CPU and the epoch of its cached answers. -/
structure CpuCtx where
  tables : DispatchBanks := {}
  dispatchEpoch : UInt32 := 1

/-- `((pc >> 1) ^ (pc >> 13) ^ thumb) & (kDispatchCacheSize - 1)` -/
def cacheSlotIndex (pc : UInt32) (thumb : Bool) : Nat :=
  (((pc >>> 1) ^^^ (pc >>> 13) ^^^ (if thumb then 1 else 0)) &&& 0xFFFF).toNat

def lookupStatic (m : Memories) (cpu : NdsCpu) (c : CpuCtx) (pc : UInt32) (thumb : Bool) :
    NdsDispatchLookupResult :=
  ndsDispatchLookupIndex c.tables.dispatchIndex pc thumb (some (m.dispatchValidationLive cpu))

/-- The rows of the index under one key. -/
def candidateRun (c : CpuCtx) (pc : UInt32) (thumb : Bool) : List DispatchRow :=
  let wanted := dispatchKey pc thumb
  (c.tables.dispatchIndex.drop (indexLowerBound c.tables.dispatchIndex wanted)).takeWhile
    fun row => ndsDispatchEntryKey row == wanted

/-- One row of `cache_rejected_candidate_chain`. -/
def cacheRejectedRow (m : Memories) (cpu : NdsCpu) (snap : PageSnapshot) (row : DispatchRow) :
    Option PageSnapshot :=
  match row.entry.validation with
  | none => some snap
  | some v => if v.size == 0 then some snap else cacheValidationPages m cpu snap v

def cacheRejectedCandidateChain (m : Memories) (cpu : NdsCpu) (c : CpuCtx) (pc : UInt32)
    (thumb : Bool) : Option PageSnapshot :=
  ((candidateRun c pc thumb).foldlM (cacheRejectedRow m cpu) .empty).filter
    fun snap => !snap.records.isEmpty

/-- The pages a fresh answer is kept against; `none` where they cannot be
recorded. -/
def cacheAnswerPages (m : Memories) (cpu : NdsCpu) (c : CpuCtx) (pc : UInt32) (thumb : Bool)
    (result : NdsDispatchLookupResult) (validation : Option NdsStaticValidation) :
    Option PageSnapshot :=
  if result.selected.isNone && decide (result.candidateCount > 1) then
    cacheRejectedCandidateChain m cpu c pc thumb
  else
    match validation with
    | none => some .empty
    | some v => cacheValidationPages m cpu .empty v

/-- `lookup_static_cached_impl` past a missing slot: the answer and the new
content of the slot. -/
def fillCacheSlot (m : Memories) (cpu : NdsCpu) (c : CpuCtx) (pc : UInt32) (thumb : Bool) :
    Option CachedStaticLookup × CachedStaticLookup :=
  let result := lookupStatic m cpu c pc thumb
  let validation := (result.selected.or result.inactive).bind fun row => row.entry.validation
  match cacheAnswerPages m cpu c pc thumb result validation with
  | none => (none, .empty)
  | some pages =>
      let slot : CachedStaticLookup :=
        { pc, pages, validation, thumb
          fn := result.selected.map fun row => row.entry.fn
          dispatchEpoch := c.dispatchEpoch
          occupied := true }
      (if result.selected.isSome then some slot else none, slot)

/-- The test of a slot against a key. -/
def cacheSlotHit (m : Memories) (cpu : NdsCpu) (c : CpuCtx) (slot : CachedStaticLookup)
    (pc : UInt32) (thumb : Bool) : Bool :=
  slot.occupied && slot.dispatchEpoch == c.dispatchEpoch && slot.pc == pc &&
    slot.thumb == thumb && snapshotCurrent m cpu slot.pages

/-- `lookup_static_cached_impl` on the slot of the key. -/
def lookupStaticCachedImpl (m : Memories) (cpu : NdsCpu) (c : CpuCtx)
    (slot : CachedStaticLookup) (pc : UInt32) (thumb : Bool) :
    Option CachedStaticLookup × CachedStaticLookup :=
  if cacheSlotHit m cpu c slot pc thumb then (if slot.fn.isSome then some slot else none, slot)
  else fillCacheSlot m cpu c pc thumb

end NdsRecomp.Runtime
