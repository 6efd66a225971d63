import NdsRecomp.Coverage.SpanSeeds

/-!
The merge of coverage manifests into recompiler seeds: entry points, captured
page versions with their entries and roots, the map of roots and the map of
callers, and what is promoted from them. Manifests are read; the addresses of a
record are numbers.

A dictionary of counts is its set of keys with the counts, zero elsewhere. A slot
is present when it has a kind.
-/

namespace NdsRecomp.CoverageManifest

open Bus

/-! ### Manifests -/

inductive RecordKind where
  | root
  | call
  | indirect
  | other
deriving DecidableEq

inductive SeedKind where
  | call
  | indirect
  | span
deriving DecidableEq

/-- `PROMOTABLE_KINDS`. -/
def RecordKind.promotable : RecordKind → Option SeedKind
  | call => some .call
  | indirect => some .indirect
  | root => none
  | other => none

structure EntryRecord where
  addr : Nat
  mode : RootMode
  kind : RecordKind
  hits : Nat
  caller : Option Nat

structure RootMapRecord where
  cpu : NdsCpu
  addr : Nat
  roots : RootRecord

structure PageRecord (Digest : Type) where
  cpu : NdsCpu
  addr : Nat
  sha1 : Digest
  data : List UInt8
  executions : Nat
  roots : RootRecord
  entryPoints : List EntryRecord

/-- A manifest that has passed the header gate. -/
structure Manifest (Digest : Type) where
  rootMap : List RootMapRecord
  pageSize : Nat
  pages : List (PageRecord Digest)
  entries : List (NdsCpu × EntryRecord)

/-! ### Dictionaries -/

structure CountDict (κ : Type) where
  keys : Finset κ
  count : κ → Nat

structure Slot where
  hits : Nat
  kinds : Finset SeedKind
deriving DecidableEq

section Dictionaries

variable {κ : Type} [DecidableEq κ]

def CountDict.empty : CountDict κ := ⟨∅, fun _ => 0⟩

/-- `d[k] = d.get(k, 0) + hits`. -/
def CountDict.addCount (d : CountDict κ) (k : κ) (hits : Nat) : CountDict κ :=
  ⟨insert k d.keys, Function.update d.count k (d.count k + hits)⟩

/-- `d[k] = max(d.get(k, 0), hits)`. -/
def CountDict.maxCount (d : CountDict κ) (k : κ) (hits : Nat) : CountDict κ :=
  ⟨insert k d.keys, Function.update d.count k (max (d.count k) hits)⟩

abbrev SlotDict (κ : Type) := κ → Slot

def SlotDict.empty : SlotDict κ := fun _ => ⟨0, ∅⟩

/-- `slot = d.setdefault(k, ..)`, then hits and kind are added to it. -/
def SlotDict.addSlot (d : SlotDict κ) (k : κ) (hits : Nat) (kind : SeedKind) : SlotDict κ :=
  Function.update d k ⟨(d k).hits + hits, insert kind (d k).kinds⟩

end Dictionaries

abbrev RootKey := Nat × RootMode

abbrev CpuRootKey := NdsCpu × RootKey

abbrev VersionKey (Digest : Type) := NdsCpu × Nat × Digest

structure PageVersion where
  bytes : List UInt8
  entries : SlotDict RootKey
  roots : CountDict RootKey
  executions : Nat

structure MergeState (Digest : Type) where
  entries : SlotDict CpuRootKey
  versions : VersionKey Digest → Option PageVersion
  roots : CountDict CpuRootKey
  callers : CountDict CpuRootKey

variable {Digest : Type} [DecidableEq Digest]

def MergeState.empty : MergeState Digest := ⟨.empty, fun _ => none, .empty, .empty⟩

/-! ### The loop over the manifests -/

def CALLER_SENTINEL : Nat := 0xFFFFFFFF

def noteCaller (callers : CountDict CpuRootKey) (cpu : NdsCpu) (entry : EntryRecord) :
    CountDict CpuRootKey :=
  match entry.caller with
  | none => callers
  | some addr =>
      if addr = CALLER_SENTINEL ∨ addr = 0 then callers
      else if addr % entry.mode.stride ≠ 0 then callers
      else callers.addCount (cpu, addr, entry.mode) entry.hits

def addRootRecord (roots : CountDict CpuRootKey) (record : RootMapRecord) :
    CountDict CpuRootKey :=
  (rootAddresses record.roots record.addr).foldl
    (fun roots root => roots.addCount (record.cpu, root.1) root.2) roots

/-- One entry of a page: the page's slot, the roots and the callers. -/
def addPageEntry (cpu : NdsCpu)
    (acc : PageVersion × CountDict CpuRootKey × CountDict CpuRootKey) (entry : EntryRecord) :
    PageVersion × CountDict CpuRootKey × CountDict CpuRootKey :=
  let (slot, roots, callers) := acc
  let key := (entry.addr, entry.mode)
  if entry.kind = .root then
    ({ slot with roots := slot.roots.addCount key entry.hits },
      roots.addCount (cpu, key) entry.hits, callers)
  else
    match entry.kind.promotable with
    | none => acc
    | some kind =>
        ({ slot with entries := slot.entries.addSlot key entry.hits kind }, roots,
          noteCaller callers cpu entry)

/-- The page's bytes are what its manifest says they are. -/
def PageRecord.accepted (sha1 : List UInt8 → Digest) (pageSize : Nat) (page : PageRecord Digest) :
    Bool :=
  decide (page.data.length = pageSize) && decide (sha1 page.data = page.sha1)

def addPage (sha1 : List UInt8 → Digest) (pageSize : Nat) (s : MergeState Digest)
    (page : PageRecord Digest) : MergeState Digest :=
  if page.accepted sha1 pageSize then
    let key := (page.cpu, page.addr, page.sha1)
    let slot := (s.versions key).getD ⟨page.data, .empty, .empty, 0⟩
    let slot := { slot with executions := slot.executions + page.executions }
    let slot := { slot with
      roots := (rootAddresses page.roots page.addr).foldl
        (fun roots root => roots.addCount root.1 root.2) slot.roots }
    let (slot, roots, callers) :=
      page.entryPoints.foldl (addPageEntry page.cpu) (slot, s.roots, s.callers)
    { s with versions := Function.update s.versions key (some slot), roots := roots,
             callers := callers }
  else s

def addEntry (s : MergeState Digest) (entry : NdsCpu × EntryRecord) : MergeState Digest :=
  let key := (entry.1, entry.2.addr, entry.2.mode)
  if entry.2.kind = .root then { s with roots := s.roots.maxCount key entry.2.hits }
  else
    match entry.2.kind.promotable with
    | none => s
    | some kind =>
        { s with
          entries := s.entries.addSlot key entry.2.hits kind
          callers := noteCaller s.callers entry.1 entry.2 }

def mergeManifest (sha1 : List UInt8 → Digest) (s : MergeState Digest) (m : Manifest Digest) :
    MergeState Digest :=
  let s := { s with roots := m.rootMap.foldl addRootRecord s.roots }
  let s := m.pages.foldl (addPage sha1 m.pageSize) s
  m.entries.foldl addEntry s

def mergeAll (sha1 : List UInt8 → Digest) (manifests : List (Manifest Digest)) :
    MergeState Digest :=
  manifests.foldl (mergeManifest sha1) .empty

/-! ### Promotion -/

structure IngestOptions where
  minHits : Nat := 1
  promoteRanges : Bool := true
  promoteCallers : Bool := true
  minSpanHits : Nat := 1
  maxSpanSeeds : Int := 0
  ownedRows : NdsCpu → RootKey → Bool := fun _ _ => false

def cpuNumber : NdsCpu → Nat
  | .arm9 => 9
  | .arm7 => 7

/-- Entry points seen too rarely are dropped. -/
def mergedEntries (options : IngestOptions) (s : MergeState Digest) : SlotDict CpuRootKey :=
  fun k => if (s.entries k).hits < options.minHits then ⟨0, ∅⟩ else s.entries k

def interpretedMap (options : IngestOptions) (s : MergeState Digest) (cpu : NdsCpu) :
    InterpretedMap where
  keys := ((s.roots.keys ∪ if options.promoteCallers then s.callers.keys else ∅).filter
    fun key => key.1 = cpu ∧ options.ownedRows cpu key.2 = false).image Prod.snd
  hits := fun key =>
    s.roots.count (cpu, key) + if options.promoteCallers then s.callers.count (cpu, key) else 0

def interpreted (options : IngestOptions) (s : MergeState Digest) : PerCpu InterpretedMap :=
  [.arm9, .arm7].map fun cpu => (cpuNumber cpu, interpretedMap options s cpu)

structure IngestResult (Digest : Type) where
  merged : SlotDict CpuRootKey
  interpreted : PerCpu InterpretedMap
  spans : PerCpu (List HotSpan)
  entries : SlotDict CpuRootKey
  versions : VersionKey Digest → Option PageVersion
  roots : CountDict CpuRootKey
  callers : CountDict CpuRootKey

/-- A promoted start is an entry point, and one of the page versions that were
interpreted there. -/
def promote (options : IngestOptions) (s : MergeState Digest) : IngestResult Digest :=
  let interpreted := interpreted options s
  let spans := hotRanges interpreted
  let promoted := (selectSpanSeeds spans options.promoteRanges options.minSpanHits
    options.maxSpanSeeds).1
  let merged := mergedEntries options s
  { merged := merged
    interpreted := interpreted
    spans := spans
    entries := fun k =>
      match promoted (cpuNumber k.1, k.2) with
      | none => merged k
      | some hits => ⟨(merged k).hits + hits, insert .span (merged k).kinds⟩
    versions := fun key => (s.versions key).map fun slot =>
      { slot with
        entries := fun k =>
          if k ∈ slot.roots.keys ∧ (promoted (cpuNumber key.1, k)).isSome then
            ⟨(slot.entries k).hits + slot.roots.count k, insert .span (slot.entries k).kinds⟩
          else slot.entries k }
    roots := s.roots
    callers := s.callers }

def ingest (sha1 : List UInt8 → Digest) (options : IngestOptions)
    (manifests : List (Manifest Digest)) : IngestResult Digest :=
  promote options (mergeAll sha1 manifests)

end NdsRecomp.CoverageManifest
