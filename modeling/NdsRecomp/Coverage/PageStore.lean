import Mathlib
import NdsRecomp.Bus.Backing
import NdsRecomp.Library.OpSystem

/-!
The store of executed code pages behind a coverage manifest. A page is known by
its address, its processor and the digest of its bytes. Entry observations are
kept beside the pages, a few callers of an entry by themselves and the rest in
one folded record. A full store is written out and started again.

An unordered map is a function to optional indices, an unordered multimap a
function to lists of indices. Indices and hit counters are natural numbers.
-/

namespace NdsRecomp.CoverageManifest

open Bus Library

def kPageSize : Nat := 4096
def kMaxPages : Nat := 8192
def kMaxVersionsPerAddress : Nat := 8
def kMaxCallersPerEntry : Nat := 4
def kCallerMany : UInt32 := 0xFFFFFFFF
def kRootBlocks : Nat := 16

/-- `TIER3_COVERAGE_ROOT` -/
def tier3CoverageRoot : UInt8 := 1

/-- Bitmaps of the roots of one page, and hits for each 256-byte block. -/
structure RootBits where
  arm : Nat → UInt8 := fun _ => 0
  thumb : Nat → UInt8 := fun _ => 0
  hits : Nat → Nat := fun _ => 0

def RootBits.note (roots : RootBits) (offset : Nat) (thumbMode : Bool) : RootBits :=
  let mark (bytes : Nat → UInt8) (bit : Nat) :=
    Function.update bytes (bit / 8) (bytes (bit / 8) ||| UInt8.ofNat (2 ^ (bit % 8)))
  let block := offset * kRootBlocks / kPageSize
  let hits := Function.update roots.hits block (roots.hits block + 1)
  if thumbMode then { roots with thumb := mark roots.thumb (offset / 2), hits := hits }
  else { roots with arm := mark roots.arm (offset / 4), hits := hits }

structure StoredEntry where
  hits : Nat
  pc : UInt32
  caller : UInt32
  thumb : UInt8
  kind : UInt8

/-- A page address together with its processor. -/
abbrev PageAddress := NdsCpu × UInt32

structure PageKey (Digest : Type) where
  addr : UInt32
  cpu : NdsCpu
  digest : Digest
deriving DecidableEq

structure StoredPage (Digest : Type) where
  addr : UInt32
  cpu : NdsCpu
  digest : Digest
  bytes : List UInt8
  executions : Nat
  lastSeen : Nat
  entryIndices : List Nat := []
  roots : RootBits := {}

variable {Digest : Type}

def StoredPage.key (page : StoredPage Digest) : PageKey Digest :=
  ⟨page.addr, page.cpu, page.digest⟩

def StoredPage.address (page : StoredPage Digest) : PageAddress := (page.cpu, page.addr)

structure PageEntryKey where
  pageIndex : Nat
  pc : UInt32
  caller : UInt32
  thumb : UInt8
  kind : UInt8
deriving DecidableEq

/-- A new one has `folded_index` zero, which counts only once a caller is
kept; `none` is `UINT32_MAX`. -/
structure PageFanout where
  kept : Nat := 0
  foldedIndex : Option Nat := some 0

/-- `stored_index` is `none` for `UINT32_MAX`. -/
structure CoverageExecCache where
  base : UInt32 := 0
  generation : UInt32 := 0
  storedIndex : Option Nat := none
  epoch : UInt64 := 0
  valid : Bool := false

structure CoverageStore (Digest : Type) where
  pages : List (StoredPage Digest) := []
  pageIndex : PageKey Digest → Option Nat := fun _ => none
  pagesByAddr : PageAddress → List Nat := fun _ => []
  entries : List StoredEntry := []
  entryIndex : PageEntryKey → Option Nat := fun _ => none
  entryFanout : PageEntryKey → PageFanout := fun _ => {}
  rootMap : PageAddress → RootBits := fun _ => {}
  cache : NdsCpu → CoverageExecCache := fun _ => {}
  captured : Nat := 0
  bytes : Nat := 0
  dropped : Nat := 0
  replaced : Nat := 0
  revisits : Nat := 0
  observationSeq : Nat := 0
  outBase : String := ""
  partIndex : Nat := 0
  rotations : Nat := 0

/-- What the machine answers about one page, and whether a manifest could be
written now. -/
structure PageView where
  generation : UInt32
  epoch : UInt64
  writable : Bool
  bytes : List UInt8
  writeOk : Bool

def CoverageExecCache.current (cache : CoverageExecCache) (base generation : UInt32) : Bool :=
  cache.valid && cache.base == base && cache.generation == generation

namespace CoverageStore

def setCache (s : CoverageStore Digest) (cpu : NdsCpu) (cache : CoverageExecCache) :
    CoverageStore Digest :=
  { s with cache := Function.update s.cache cpu cache }

def setStored (s : CoverageStore Digest) (cpu : NdsCpu) (i : Nat) : CoverageStore Digest :=
  s.setCache cpu { s.cache cpu with storedIndex := some i }

/-- A page is changed and becomes the last seen. -/
def touchPage (s : CoverageStore Digest) (i : Nat) (f : StoredPage Digest → StoredPage Digest) :
    CoverageStore Digest :=
  { s with
    pages := s.pages.modify i fun page => { f page with lastSeen := s.observationSeq + 1 }
    observationSeq := s.observationSeq + 1 }

/-- The captured content is that of a stored page. -/
def resolveTo (s : CoverageStore Digest) (cpu : NdsCpu) (i : Nat) : CoverageStore Digest :=
  let s := s.touchPage i fun page => { page with executions := page.executions + 1 }
  { s with revisits := s.revisits + 1 }.setStored cpu i

def drop (s : CoverageStore Digest) : CoverageStore Digest := { s with dropped := s.dropped + 1 }

/-- The least recently seen of some pages. -/
def oldestVersion (s : CoverageStore Digest) (indices : List Nat) : Option Nat :=
  let lastSeen (i : Nat) : Nat := (s.pages[i]?.map StoredPage.lastSeen).getD 0
  indices.foldl
    (fun best i =>
      match best with
      | none => some i
      | some oldest => if lastSeen i < lastSeen oldest then some i else some oldest)
    none

/-- The page a capture stores. -/
def newPage (s : CoverageStore Digest) (key : PageKey Digest) (bytes : List UInt8) :
    StoredPage Digest where
  addr := key.addr
  cpu := key.cpu
  digest := key.digest
  bytes := bytes
  executions := 1
  lastSeen := s.observationSeq + 1

variable [DecidableEq Digest]

/-- The evicted page leaves the indices with everything recorded on it, and the
new content takes its slot. -/
def replacePage (s : CoverageStore Digest) (evictIndex : Nat) (key : PageKey Digest)
    (bytes : List UInt8) : CoverageStore Digest :=
  let forget := fun k => if s.pageIndex k = some evictIndex then none else s.pageIndex k
  { s with
    pages := s.pages.set evictIndex (s.newPage key bytes)
    pageIndex := Function.update forget key (some evictIndex)
    entryIndex := fun k => if k.pageIndex = evictIndex then none else s.entryIndex k
    entryFanout := fun k => if k.pageIndex = evictIndex then {} else s.entryFanout k
    observationSeq := s.observationSeq + 1
    replaced := s.replaced + 1 }.setStored key.cpu evictIndex

def pushPage (s : CoverageStore Digest) (key : PageKey Digest) (bytes : List UInt8) :
    CoverageStore Digest :=
  let index := s.pages.length
  { s with
    pageIndex := Function.update s.pageIndex key (some index)
    pagesByAddr := Function.update s.pagesByAddr (key.cpu, key.addr)
      (s.pagesByAddr (key.cpu, key.addr) ++ [index])
    pages := s.pages ++ [s.newPage key bytes]
    observationSeq := s.observationSeq + 1
    captured := s.captured + 1
    bytes := s.bytes + kPageSize }.setStored key.cpu index

/-- What `coverage_manifest_flush_part` leaves once the part is written. -/
def startPart (s : CoverageStore Digest) : CoverageStore Digest :=
  { s with
    partIndex := s.partIndex + 1
    rotations := s.rotations + 1
    pages := []
    pageIndex := fun _ => none
    pagesByAddr := fun _ => []
    entries := []
    entryIndex := fun _ => none
    entryFanout := fun _ => {}
    captured := 0
    bytes := 0
    cache := fun _ => {} }

/-- `coverage_manifest_flush_part` -/
def flushPart (s : CoverageStore Digest) (writeOk : Bool) : CoverageStore Digest × Bool :=
  if s.outBase = "" then (s, false)
  else if s.pages.isEmpty = true ∧ 0 < s.partIndex then (s, true)
  else if writeOk = false then (s, false)
  else (s.startPart, true)

/-- `coverage_pages_reset` -/
def reset (s : CoverageStore Digest) : CoverageStore Digest :=
  { outBase := s.outBase, partIndex := s.partIndex, rotations := s.rotations }

/-- The stored version whose bytes are resident. -/
def storedVersion (s : CoverageStore Digest) (address : PageAddress) (bytes : List UInt8) :
    Option Nat :=
  (s.pagesByAddr address).find? fun i => s.pages[i]?.any fun page => page.bytes == bytes

variable (sha1 : List UInt8 → Digest)

/-- A content no stored page has is stored: over the oldest version of its
address, or behind the last page, if need be of a new part. -/
def storeNew (s : CoverageStore Digest) (key : PageKey Digest) (view : PageView) :
    CoverageStore Digest :=
  if kMaxVersionsPerAddress ≤ (s.pagesByAddr (key.cpu, key.addr)).length then
    match s.oldestVersion (s.pagesByAddr (key.cpu, key.addr)) with
    | none => s.drop
    | some evictIndex => s.replacePage evictIndex key view.bytes
  else if kMaxPages ≤ s.captured then
    if (s.flushPart view.writeOk).2 then (s.flushPart view.writeOk).1.pushPage key view.bytes
    else (s.flushPart view.writeOk).1.drop
  else s.pushPage key view.bytes

/-- The key of the content a capture reads. -/
def keyOf (cpu : NdsCpu) (base : UInt32) (view : PageView) : PageKey Digest :=
  ⟨base, cpu, sha1 view.bytes⟩

def captureExecPage (s : CoverageStore Digest) (cpu : NdsCpu) (base : UInt32) (view : PageView) :
    CoverageStore Digest :=
  if (s.cache cpu).current base view.generation then
    { s with revisits := s.revisits + 1 }.setCache cpu { s.cache cpu with epoch := view.epoch }
  else
    let s := s.setCache cpu
      { base := base, generation := view.generation, epoch := view.epoch, valid := true }
    if view.writable = false then s
    else
      match s.storedVersion (cpu, base) view.bytes with
      | some i => s.resolveTo cpu i
      | none =>
          match s.pageIndex (keyOf sha1 cpu base view) with
          | some i => s.resolveTo cpu i
          | none => s.storeNew (keyOf sha1 cpu base view) view

/-- `coverage_note_exec` -/
def noteExec (s : CoverageStore Digest) (cpu : NdsCpu) (pc : UInt32) (view : PageView) :
    CoverageStore Digest :=
  let base := pc &&& ~~~0xFFF
  if (s.cache cpu).valid && (s.cache cpu).base == base && (s.cache cpu).epoch == view.epoch then s
  else s.captureExecPage sha1 cpu base view

end CoverageStore

/-- An observed entry: where, in which mode, how, and from where. -/
structure EntryNote where
  pc : UInt32
  thumb : Bool
  kind : UInt8
  caller : UInt32

namespace EntryNote

/-- `pc & (thumb ? ~1u : ~3u)` -/
def alignedPc (note : EntryNote) : UInt32 := note.pc &&& if note.thumb then ~~~1 else ~~~3

def base (note : EntryNote) : UInt32 := note.alignedPc &&& ~~~0xFFF

def mode (note : EntryNote) : UInt8 := if note.thumb then 1 else 0

def isRoot (note : EntryNote) : Bool := note.kind == tier3CoverageRoot

def entryKey (note : EntryNote) (i : Nat) : PageEntryKey :=
  ⟨i, note.alignedPc, note.caller, note.mode, note.kind⟩

def fanoutKey (note : EntryNote) (i : Nat) : PageEntryKey :=
  ⟨i, note.alignedPc, kCallerMany, note.mode, note.kind⟩

/-- A new record of the entry. -/
def record (note : EntryNote) (caller : UInt32) : StoredEntry :=
  ⟨1, note.alignedPc, caller, note.mode, note.kind⟩

end EntryNote

namespace CoverageStore

def hitEntry (s : CoverageStore Digest) (i j : Nat) : CoverageStore Digest :=
  { s with entries := s.entries.modify j fun e => { e with hits := e.hits + 1 } }.touchPage i id

/-- A record is added behind the others, and to its page. -/
def pushEntry (s : CoverageStore Digest) (i : Nat) (entry : StoredEntry) : CoverageStore Digest :=
  { s with entries := s.entries ++ [entry] }.touchPage i fun page =>
    { page with entryIndices := page.entryIndices ++ [s.entries.length] }

def setFanout (s : CoverageStore Digest) (key : PageEntryKey) (fanout : PageFanout) :
    CoverageStore Digest :=
  { s with entryFanout := Function.update s.entryFanout key fanout }

/-- An observation that is not a root, on the page it belongs to. -/
def recordEntry (s : CoverageStore Digest) (i : Nat) (note : EntryNote) : CoverageStore Digest :=
  match s.entryIndex (note.entryKey i) with
  | some j => s.hitEntry i j
  | none =>
      let fanout := s.entryFanout (note.fanoutKey i)
      if kMaxCallersPerEntry ≤ fanout.kept then
        match fanout.foldedIndex.filter fun j => decide (j < s.entries.length) with
        | some j => s.hitEntry i j
        | none =>
            (s.setFanout (note.fanoutKey i)
              { fanout with foldedIndex := some s.entries.length }).pushEntry i
                (note.record kCallerMany)
      else
        let fanout : PageFanout :=
          { kept := fanout.kept + 1
            foldedIndex := if fanout.kept + 1 = 1 then none else fanout.foldedIndex }
        ({ s with
            entryIndex := Function.update s.entryIndex (note.entryKey i)
              (some s.entries.length) }.setFanout (note.fanoutKey i) fanout).pushEntry i
                (note.record note.caller)

def recordRoot (s : CoverageStore Digest) (cpu : NdsCpu) (i : Nat) (note : EntryNote) :
    CoverageStore Digest :=
  let offset := (note.alignedPc - note.base).toNat
  { s with
    rootMap := Function.update s.rootMap (cpu, note.base)
      ((s.rootMap (cpu, note.base)).note offset note.thumb) }.touchPage i fun page =>
    { page with roots := page.roots.note offset note.thumb }

/-- The page an observation is recorded on, if the cache names one. -/
def recordedPage (s : CoverageStore Digest) (cpu : NdsCpu) (base : UInt32) : Option Nat :=
  if (s.cache cpu).valid && (s.cache cpu).base == base then
    (s.cache cpu).storedIndex.filter fun i => decide (i < s.pages.length)
  else none

variable [DecidableEq Digest] (sha1 : List UInt8 → Digest)

/-- The capture an observation makes before it is recorded. -/
def captureForEntry (s : CoverageStore Digest) (cpu : NdsCpu) (note : EntryNote)
    (view : PageView) : CoverageStore Digest :=
  if (s.cache cpu).current note.base view.generation && (s.cache cpu).storedIndex.isSome then s
  else s.captureExecPage sha1 cpu note.base view

def noteGenerationEntry (s : CoverageStore Digest) (cpu : NdsCpu) (note : EntryNote)
    (view : PageView) : CoverageStore Digest :=
  let s := s.captureForEntry sha1 cpu note view
  match s.recordedPage cpu note.base with
  | none => s
  | some i => if note.isRoot then s.recordRoot cpu i note else s.recordEntry i note

end CoverageStore

/-- What happens to the store. -/
inductive CoverageOp where
  | exec (cpu : NdsCpu) (pc : UInt32) (view : PageView)
  | entry (cpu : NdsCpu) (note : EntryNote) (view : PageView)
  | setOutput (base : String)
  | flush (writeOk : Bool)
  | reset

def CoverageStore.next [DecidableEq Digest] (sha1 : List UInt8 → Digest)
    (s : CoverageStore Digest) : CoverageOp → CoverageStore Digest
  | .exec cpu pc view => s.noteExec sha1 cpu pc view
  | .entry cpu note view => s.noteGenerationEntry sha1 cpu note view
  | .setOutput base => { s with outBase := base }
  | .flush writeOk => (s.flushPart writeOk).1
  | .reset => s.reset

end NdsRecomp.CoverageManifest
