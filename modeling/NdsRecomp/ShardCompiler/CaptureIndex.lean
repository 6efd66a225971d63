import Mathlib.Data.List.AList
import Mathlib.Data.List.Sort
import Mathlib.Data.Prod.Lex
import NdsRecomp.Library.OpSystem

/-!
The index of captured pages that several compiler processes share. A process
reads it when a run starts, folds the roots it finds there into what its
manifests show of a page, and merges each capture into the file under a lock. A
locked update is one step, and so is what a process does between two of them.
Hits and kinds of a root are scheduling evidence and left out.
-/

namespace NdsRecomp.ShardCompiler

open Library

/-! ### Roots -/

/-- An entry point: its address and its mode, `arm` or `thumb`. -/
structure Root where
  addr : Nat
  thumb : Bool
deriving DecidableEq

/-- `(item["addr"], item["mode"])`, with `arm` before `thumb`. -/
def Root.sortKey (r : Root) : Nat ×ₗ Bool := toLex (r.addr, r.thumb)

theorem Root.sortKey_injective : Function.Injective Root.sortKey := by
  rintro ⟨a, t⟩ ⟨a', t'⟩ h
  cases h
  rfl

instance : LinearOrder Root := LinearOrder.lift' Root.sortKey Root.sortKey_injective

/-- Each root once, in order. -/
def sortRoots (roots : List Root) : List Root := roots.dedup.insertionSort (· ≤ ·)

/-- `merge_entries` -/
def mergeEntries (left right : List Root) : List Root := sortRoots (left ++ right)

/-- A page's byte generation, the key of `page_key`. -/
structure PageKey where
  cpu : Nat
  addr : Nat
  pageSha1 : String
deriving DecidableEq

/-- What `work_identity` hashes. -/
structure WorkValue where
  providerId : String
  page : PageKey
  entries : List Root
deriving DecidableEq

/-! ### The index -/

inductive CaptureStatus where
  | unsupported
  | compileFailed
  /-- `dll`, with `entry_roots` -/
  | published (dll : String) (entryRoots : List Root)
deriving DecidableEq

def CaptureStatus.isPublished : CaptureStatus → Bool
  | .published .. => true
  | _ => false

structure CaptureRecord where
  page : PageKey
  status : CaptureStatus
deriving DecidableEq

namespace CaptureRecord

/-- Absent from a record without a library. -/
def entryRoots (r : CaptureRecord) : List Root :=
  match r.status with
  | .published _ roots => roots
  | _ => []

/-- The work is done: it can never build, or its library is a file. -/
def satisfied (libraries : List String) (r : CaptureRecord) : Bool :=
  match r.status with
  | .published dll _ => decide (dll ∈ libraries)
  | _ => true

end CaptureRecord

variable {K P : Type} [DecidableEq K] [DecidableEq P]

/-- The dictionary `captures`. -/
abbrev Captures (K : Type) := AList fun _ : K => CaptureRecord

/-- `captures.setdefault` -/
def setDefault (captures : Captures K) (key : K) (r : CaptureRecord) : Captures K :=
  if key ∈ captures then captures else captures.insert key r

structure IndexFile (K : Type) where
  romSha1 : String
  schema : Nat
  captures : Captures K

def emptyIndex (romSha1 : String) : IndexFile K := ⟨romSha1, 2, ∅⟩

/-- `record_capture` reuses a file of this ROM with a known schema. -/
def IndexFile.usable (romSha1 : String) (f : IndexFile K) : Bool :=
  f.romSha1 == romSha1 && (f.schema == 1 || f.schema == 2)

/-- `generation_entries` for one page. -/
def generationEntries (captures : Captures K) (page : PageKey) : List Root :=
  (captures.entries.filter fun e => e.2.page = page).flatMap fun e => e.2.entryRoots

/-! ### Processes -/

structure CompilerProcess (K : Type) where
  romSha1 : String
  providerId : String
  /-- the working view of the index -/
  index : Captures K := ∅
  /-- the index at the start of the run, from which `generation_entries` is taken -/
  published : Captures K := ∅
  /-- the pages of this run; a page is one candidate -/
  visited : List PageKey := []

/-- A capture that was recorded. -/
structure Attempt where
  page : PageKey
  roots : List Root
  status : CaptureStatus
deriving DecidableEq

structure SharedCache (P K : Type) where
  index : Option (IndexFile K) := none
  /-- the library files, which the compiler never removes -/
  libraries : List String := []
  process : P → CompilerProcess K
  /-- the captures each process recorded, oldest first -/
  attempts : P → List Attempt := fun _ => []

/-- What `compile_page` comes to. -/
inductive CompileOutcome where
  | failed
  | unsupported
  | compileFailed
  | ok (dll : String)
deriving DecidableEq

namespace SharedCache

variable (digest : WorkValue → K) (s : SharedCache P K)

/-- The roots a page is compiled with. -/
def pageEntries (p : P) (page : PageKey) (observed : List Root) : List Root :=
  mergeEntries observed (generationEntries (s.process p).published page)

/-- `work_identity` of a page's candidate. -/
def workIdentity (p : P) (page : PageKey) (observed : List Root) : K :=
  digest ⟨(s.process p).providerId, page, s.pageEntries p page observed⟩

/-- The index names the work and it is satisfied. -/
def skips (p : P) (page : PageKey) (observed : List Root) : Bool :=
  ((s.process p).index.lookup (s.workIdentity digest p page observed)).any
    (CaptureRecord.satisfied s.libraries)

/-- What the merge starts from: the file, or an empty index in place of one that is
absent or foreign. -/
def currentCaptures (p : P) : Captures K :=
  match s.index with
  | some f => if f.usable (s.process p).romSha1 then f.captures else ∅
  | none => ∅

/-- `record_capture` -/
def recordCapture (p : P) (key : K) (r : CaptureRecord) : SharedCache P K :=
  let process := s.process p
  let carried := process.index.entries.foldl (fun c e => setDefault c e.1 e.2)
    (s.currentCaptures p)
  let captures := carried.insert key r
  { s with
    index := some ⟨process.romSha1, 2, captures⟩
    process := Function.update s.process p { process with index := captures } }

/-- A run starts with the index as it is. -/
def startRun (p : P) : SharedCache P K :=
  let captures := (s.index.map IndexFile.captures).getD ∅
  { s with
    process := Function.update s.process p
      { s.process p with index := captures, published := captures, visited := [] } }

/-- The capture is recorded and remembered. -/
def recordPage (p : P) (page : PageKey) (observed : List Root) (status : CaptureStatus) :
    SharedCache P K :=
  let s' := s.recordCapture p (s.workIdentity digest p page observed) ⟨page, status⟩
  { s' with
    attempts := Function.update s'.attempts p
      (s'.attempts p ++ [⟨page, s.pageEntries p page observed, status⟩]) }

def visit (p : P) (page : PageKey) : SharedCache P K :=
  { s with
    process := Function.update s.process p
      { s.process p with visited := page :: (s.process p).visited } }

/-- One candidate of a run: the check of the index, and `compile_page`. -/
def compilePage (p : P) (page : PageKey) (observed : List Root) (outcome : CompileOutcome) :
    SharedCache P K :=
  if s.skips digest p page observed then s.visit p page
  else
    match outcome with
    | .failed => s.visit p page
    | .unsupported => (s.recordPage digest p page observed .unsupported).visit p page
    | .compileFailed => (s.recordPage digest p page observed .compileFailed).visit p page
    | .ok dll =>
        ({ s with libraries := dll :: s.libraries }.recordPage digest p page observed
          (.published dll (s.pageEntries p page observed))).visit p page

end SharedCache

/-! ### Runs -/

inductive CacheOp (P : Type) where
  | startRun (p : P)
  | compilePage (p : P) (page : PageKey) (observed : List Root) (outcome : CompileOutcome)

/-- Processes that share an empty cache. `main` leaves when the index is of another
ROM or schema, and a page is one candidate of a run. -/
def cacheSystem (P : Type) [DecidableEq P] (digest : WorkValue → K) :
    OpSystem (SharedCache P K) (CacheOp P) where
  initial s := ∃ identity : P → String × String,
    s = { process := fun p => { romSha1 := (identity p).1, providerId := (identity p).2 } }
  admits s
    | .startRun p => ∀ f ∈ s.index, f.usable (s.process p).romSha1
    | .compilePage p page _ _ => page ∉ (s.process p).visited
  next s
    | .startRun p => s.startRun p
    | .compilePage p page observed outcome => s.compilePage digest p page observed outcome

end NdsRecomp.ShardCompiler
