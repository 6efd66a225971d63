import NdsRecomp.ShardCompiler.CaptureIndex

/-!
Runs of the compiler over one cache directory. The manifests and the snapshots that the
persisted queue names are grouped by page, the pages that qualify are tried hottest
first, and what the batch cap leaves or what failed for now becomes the queue of the next
run. Index, queue and snapshots are shared, and each is updated on its own. A page is
given by what its manifest shows: its entry points, and the entries that `root_entries`
reads off its bitmaps.
-/

namespace NdsRecomp.ShardCompiler

open Library

/-! ### Manifests -/

structure PageEntry where
  root : Root
  hits : Nat
deriving DecidableEq

structure ManifestPage where
  page : PageKey
  entryPoints : List PageEntry
  /-- `root_entries(page)` -/
  rootEntries : List PageEntry
  executions : Nat

structure Manifest where
  romSha1 : String
  pages : List ManifestPage

structure QueueEntry where
  page : PageKey
  executions : Nat
  hits : Nat
  manifest : String
deriving DecidableEq

structure CompilerArgs where
  /-- the manifest the run was handed -/
  manifest : String
  romSha1 : String
  minHits : Nat := 1
  includeRoots : Bool := false
  allowedCpus : List Nat := [7, 9]
  excludeRanges : List (Nat × Nat) := []
  maxPages : Nat := 6
  mergeCacheSnapshots : Bool := false

namespace CompilerArgs

variable (args : CompilerArgs)

def excluded (addr : Nat) : Bool :=
  args.excludeRanges.any fun range => range.1 ≤ addr && addr < range.2

def shown (entries : List PageEntry) : List PageEntry :=
  entries.filter fun e => !args.excluded e.root.addr

/-- Equal roots become one, with their hits added. -/
def mergeHits (entries : List PageEntry) : List PageEntry :=
  (sortRoots (entries.map PageEntry.root)).map fun root =>
    ⟨root, ((entries.filter fun e => e.root = root).map PageEntry.hits).sum⟩

/-- `canonical_entries` -/
def canonicalEntries (page : ManifestPage) : List PageEntry :=
  mergeHits (args.shown (page.entryPoints ++ if args.includeRoots then page.rootEntries else []))

def rootHits (page : ManifestPage) : Nat :=
  if args.includeRoots then ((args.shown page.rootEntries).map PageEntry.hits).sum else 0

end CompilerArgs

/-! ### Candidates -/

/-- A value of `by_page`. -/
structure PageGroup where
  page : PageKey
  entries : List PageEntry
  executions : Nat
  rootHits : Nat
  manifest : String

structure PageCandidate where
  page : PageKey
  observed : List Root
  hits : Nat
  executions : Nat
  manifest : String
deriving DecidableEq

namespace CompilerArgs

variable (args : CompilerArgs)

/-- One page of one manifest. -/
def addPage (path : String) (groups : List PageGroup) (page : ManifestPage) : List PageGroup :=
  if page.page.cpu ∉ args.allowedCpus then groups
  else if args.canonicalEntries page = [] then groups
  else if page.page ∈ groups.map PageGroup.page then
    groups.map fun g =>
      if g.page = page.page then
        { g with
          entries := mergeHits (g.entries ++ args.canonicalEntries page)
          executions := g.executions + page.executions
          rootHits := g.rootHits + args.rootHits page }
      else g
  else
    groups ++ [⟨page.page, mergeHits (args.canonicalEntries page), page.executions,
      args.rootHits page, path⟩]

/-- The first loop of `collect_candidates`. -/
def groupPages (manifests : List (String × Manifest)) : List PageGroup :=
  manifests.foldl (fun groups m =>
    if m.2.romSha1 ≠ args.romSha1 then groups else m.2.pages.foldl (args.addPage m.1) groups) []

/-- The dictionary `carried`: a later entry of one page replaces an earlier one. -/
def carriedEntry (queued : List QueueEntry) (page : PageKey) : Option QueueEntry :=
  queued.reverse.find? fun e => e.page = page

def groupHits (queued : List QueueEntry) (g : PageGroup) : Nat :=
  max (g.entries.map PageEntry.hits).sum (((carriedEntry queued g.page).map QueueEntry.hits).getD 0)

def groupExecutions (queued : List QueueEntry) (g : PageGroup) : Nat :=
  max g.executions (((carriedEntry queued g.page).map QueueEntry.executions).getD 0)

/-- Hot enough with the carried weight, or a root of it was interpreted. -/
def qualifies (queued : List QueueEntry) (g : PageGroup) : Bool :=
  decide (args.minHits ≤ groupHits queued g) || (args.includeRoots && decide (0 < g.rootHits))

def candidateOf (queued : List QueueEntry) (g : PageGroup) : PageCandidate :=
  ⟨g.page, g.entries.map PageEntry.root, groupHits queued g, groupExecutions queued g, g.manifest⟩

/-- The sort key: execution weight, hits, address, hash. -/
def hotterOrEqual (c d : PageCandidate) : Prop :=
  d.executions < c.executions ∨ d.executions = c.executions ∧
    (d.hits < c.hits ∨ d.hits = c.hits ∧
      (c.page.addr < d.page.addr ∨ c.page.addr = d.page.addr ∧
        c.page.pageSha1 ≤ d.page.pageSha1))

instance : DecidableRel hotterOrEqual := fun _ _ => inferInstanceAs (Decidable (_ ∨ _))

/-- `collect_candidates` -/
def collectCandidates (manifests : List (String × Manifest)) (queued : List QueueEntry) :
    List PageCandidate :=
  (((args.groupPages manifests).filter (args.qualifies queued)).map
    (candidateOf queued)).insertionSort hotterOrEqual

end CompilerArgs

/-! ### Runs over one directory -/

inductive RunPhase where
  | idle
  | indexRead
  | queueRead
  | compiling
  | queueStored
deriving DecidableEq

/-- What `main` holds. -/
structure CompilerRun where
  phase : RunPhase := .idle
  args : CompilerArgs := { manifest := "", romSha1 := "" }
  manifests : List (String × Manifest) := []
  queued : List QueueEntry := []
  candidates : List PageCandidate := []
  /-- those that the loop has not reached -/
  remaining : List PageCandidate := []
  attempted : Nat := 0
  pending : List QueueEntry := []

def PageCandidate.entry (c : PageCandidate) : QueueEntry :=
  ⟨c.page, c.executions, c.hits, c.manifest⟩

def CompilerRun.remember (run : CompilerRun) (c : PageCandidate) : CompilerRun :=
  { run with pending := run.pending ++ [c.entry] }

structure QueueFile where
  romSha1 : String
  providerId : String
  pending : List QueueEntry
deriving DecidableEq

variable {K P : Type} [DecidableEq K] [DecidableEq P]

structure CompilerDirectory (P K : Type) where
  cache : SharedCache P K
  queue : Option QueueFile := none
  snapshots : List (String × Manifest) := []
  run : P → CompilerRun := fun _ => {}

/-- `resume_manifests`; not every snapshot can be read, since another run may have
pruned it. -/
def resumeManifests (snapshots : List (String × Manifest)) (readable : String → Bool)
    (known : List String) (queued : List QueueEntry) : List (String × Manifest) :=
  ((queued.map QueueEntry.manifest).eraseDups.filter fun path =>
    path ≠ "" && path ∉ known && readable path).filterMap fun path =>
      snapshots.find? fun snapshot => snapshot.1 = path

namespace CompilerDirectory

variable (digest : WorkValue → K) (d : CompilerDirectory P K) (p : P)

def putRun (run : CompilerRun) : CompilerDirectory P K :=
  { d with run := Function.update d.run p run }

/-- The index is read under its lock, and the run has its own manifests. -/
def readIndex (args : CompilerArgs) (manifests : List (String × Manifest)) :
    CompilerDirectory P K :=
  { d with cache := d.cache.startRun p }.putRun p
    { phase := .indexRead, args := args, manifests := manifests }

/-- `load_queue`: empty when the lock is not obtained, or on a queue of another ROM or
provider. -/
def loadQueue (locked : Bool) : CompilerDirectory P K :=
  let queued :=
    match d.queue with
    | some f =>
        if locked && f.romSha1 == (d.run p).args.romSha1 &&
          f.providerId == (d.cache.process p).providerId then f.pending else []
    | none => []
  d.putRun p { d.run p with phase := .queueRead, queued := queued }

/-- The snapshots of the queue join the manifests, and the candidates are collected. -/
def resume (readable : String → Bool) : CompilerDirectory P K :=
  let run := d.run p
  let manifests := run.manifests ++
    resumeManifests d.snapshots readable (run.manifests.map Prod.fst) run.queued
  let candidates := run.args.collectCandidates manifests run.queued
  d.putRun p
    { run with
      phase := .compiling
      manifests := manifests
      candidates := candidates
      remaining := candidates }

/-- The body of the loop over the candidates. -/
def tryCandidate (outcome : CompileOutcome) : CompilerDirectory P K :=
  match (d.run p).remaining with
  | [] => d
  | c :: rest =>
      let run : CompilerRun := { d.run p with remaining := rest }
      if d.cache.skips digest p c.page c.observed then d.putRun p run
      else if run.attempted ≥ max 1 run.args.maxPages then d.putRun p (run.remember c)
      else
        let tried : CompilerRun := { run with attempted := run.attempted + 1 }
        { d with cache := d.cache.compilePage digest p c.page c.observed outcome }.putRun p
          (if outcome = CompileOutcome.failed then tried.remember c else tried)

/-- `store_queue`; without the lock the file stays. -/
def storeQueue (locked : Bool) : CompilerDirectory P K :=
  let run := d.run p
  let queue :=
    if locked then
      some ⟨run.args.romSha1, (d.cache.process p).providerId, run.pending⟩
    else d.queue
  { d with queue := queue }.putRun p { run with phase := .queueStored }

/-- `prune_snapshots` -/
def pruneSnapshots : CompilerDirectory P K :=
  let run := d.run p
  let snapshots :=
    if run.args.mergeCacheSnapshots then d.snapshots
    else
      d.snapshots.filter fun snapshot =>
        snapshot.1 = run.args.manifest || snapshot.1 ∈ run.pending.map QueueEntry.manifest
  { d with snapshots := snapshots }.putRun p { run with phase := .idle }

end CompilerDirectory

inductive DirectoryOp (P : Type) where
  | readIndex (p : P) (args : CompilerArgs) (manifests : List (String × Manifest))
  | loadQueue (p : P) (locked : Bool)
  | resume (p : P) (readable : String → Bool)
  | tryCandidate (p : P) (outcome : CompileOutcome)
  | storeQueue (p : P) (locked : Bool)
  | pruneSnapshots (p : P)
  /-- by a runner -/
  | writeSnapshot (path : String) (manifest : Manifest)

def CompilerDirectory.next (digest : WorkValue → K) (d : CompilerDirectory P K) :
    DirectoryOp P → CompilerDirectory P K
  | .readIndex p args manifests => d.readIndex p args manifests
  | .loadQueue p locked => d.loadQueue p locked
  | .resume p readable => d.resume p readable
  | .tryCandidate p outcome => d.tryCandidate digest p outcome
  | .storeQueue p locked => d.storeQueue p locked
  | .pruneSnapshots p => d.pruneSnapshots p
  | .writeSnapshot path manifest => { d with snapshots := (path, manifest) :: d.snapshots }

def CompilerDirectory.Admits (d : CompilerDirectory P K) : DirectoryOp P → Prop
  | .readIndex p args _ =>
      (d.run p).phase = .idle ∧ args.romSha1 = (d.cache.process p).romSha1 ∧
        ∀ f ∈ d.cache.index, f.usable (d.cache.process p).romSha1 = true
  | .loadQueue p _ => (d.run p).phase = .indexRead
  | .resume p _ => (d.run p).phase = .queueRead
  | .tryCandidate p _ => (d.run p).phase = .compiling ∧ (d.run p).remaining ≠ []
  | .storeQueue p _ => (d.run p).phase = .compiling ∧ (d.run p).remaining = []
  | .pruneSnapshots p => (d.run p).phase = .queueStored
  | .writeSnapshot .. => True

instance (d : CompilerDirectory P K) : ∀ op, Decidable (d.Admits op)
  | .readIndex .. => inferInstanceAs (Decidable (_ ∧ _ ∧ _))
  | .loadQueue .. => inferInstanceAs (Decidable (_ = _))
  | .resume .. => inferInstanceAs (Decidable (_ = _))
  | .tryCandidate .. => inferInstanceAs (Decidable (_ ∧ _))
  | .storeQueue .. => inferInstanceAs (Decidable (_ ∧ _))
  | .pruneSnapshots .. => inferInstanceAs (Decidable (_ = _))
  | .writeSnapshot .. => .isTrue trivial

/-- Processes that share a directory whose index names only libraries that are files;
the compiler removes none. -/
def directorySystem (P : Type) [DecidableEq P] (digest : WorkValue → K) :
    OpSystem (CompilerDirectory P K) (DirectoryOp P) where
  initial d :=
    (∀ f ∈ d.cache.index, ∀ k r, f.captures.lookup k = some r →
      r.satisfied d.cache.libraries = true) ∧
    (∀ p, (d.cache.process p).index = ∅) ∧ ∀ p, d.run p = {}
  admits := CompilerDirectory.Admits
  next := CompilerDirectory.next digest

instance (digest : WorkValue → K) (d : CompilerDirectory P K) (op : DirectoryOp P) :
    Decidable ((directorySystem P digest).admits d op) :=
  inferInstanceAs (Decidable (d.Admits op))

end NdsRecomp.ShardCompiler
