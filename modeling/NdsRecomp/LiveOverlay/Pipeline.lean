import NdsRecomp.Bus.Backing
import NdsRecomp.Library.OpSystem

/-!
How shards reach the dispatch index. The emulation thread queues paths, the
prepare worker loads them, and the emulation thread takes the results one at a
time; a shard whose guest code is not resident waits in the dormant registry.
The maintenance worker walks the cache and hands back what it found.

Every locked section and every atomic access is one step. The emulation thread
is the list of such steps it still has to take before it returns to the guest.
Teardown, which drops whatever is queued, ends the session.
-/

namespace NdsRecomp.LiveOverlay

open Bus Library

def kDormantMaxAttempts : Nat := 8
def kDormantMaxCandidates : Nat := 4096

/-- `pc & ~0xFFFu` -/
def pageOf (pc : UInt32) : UInt32 := pc &&& ~~~0xFFF

/-- A prepared `LoadedBank`: its canonical path, its processor, and the pages that
`bank_owned_pages` reads off its rows. -/
structure PreparedBank where
  path : String
  cpu : NdsCpu
  pages : List UInt32
deriving DecidableEq

structure DormantCandidate where
  key : String
  path : String
  cpu : NdsCpu
  pages : List UInt32 := []
  attempts : Nat := 0
  requeued : Bool := false
deriving DecidableEq

/-- `PreparedError`; the reason is a counter index and left out. -/
structure PreparedError where
  text : String
deriving DecidableEq

inductive MaintenanceJob where
  | rescan
  | runFinished
  | startChild
deriving DecidableEq

/-- `MaintenanceResult`, with the candidates found. -/
inductive MaintenanceResult where
  | rescan (found : List String)
  | runFinished (published found : List String)
  | startChild
deriving DecidableEq

/-- In the order the emulation thread queues them. -/
def MaintenanceResult.candidates : MaintenanceResult → List String
  | .rescan found => found
  | .runFinished published found => published ++ found
  | .startChild => []

/-- What the emulation thread still has to do. -/
inductive EmuAction where
  /-- `prepare_results_ready.exchange(false)` -/
  | claimPrepared
  /-- The locked section of `commit_one_ready_bank`. -/
  | commitOne
  /-- `admit_prepared_bank` -/
  | admission (bank : PreparedBank)
  /-- `maint_results_ready.exchange(false)` -/
  | claimMaintenance
  /-- The locked section of `drain_maintenance_results`. -/
  | drainMaintenance
  | apply (result : MaintenanceResult)
  /-- `enqueue_candidate` -/
  | enqueue (path : String)
deriving DecidableEq

structure Pipeline where
  -- under `publish_mutex`
  prepareQueue : List String := []
  inFlight : Option String := none
  readyQueue : List PreparedBank := []
  prepareErrors : List PreparedError := []
  prepareResultsReady : Bool := false
  queuedPaths : List String := []
  dormant : List DormantCandidate := []
  -- under `maint_mutex`
  maintJobs : List MaintenanceJob := []
  maintInHand : Option MaintenanceJob := none
  maintResults : List MaintenanceResult := []
  maintResultsReady : Bool := false
  -- the emulation thread
  emulation : List EmuAction := []

namespace Pipeline

-- `path_key`, which folds case on one platform and not on the others
variable (pathKey : String → String)

/-! ### The dormant registry -/

/-- `note_dormant_candidate`. Without a record and with the registry full, nothing is
noted. -/
def noteDormantCandidate (p : Pipeline) (bank : PreparedBank) : Pipeline :=
  let key := pathKey bank.path
  let index := p.dormant.findIdx fun candidate => candidate.key == key
  let dormant :=
    if index = p.dormant.length ∧ p.dormant.length < kDormantMaxCandidates then
      p.dormant ++ [{ key := key, path := bank.path, cpu := bank.cpu }]
    else p.dormant
  match dormant[index]? with
  | none => p
  | some candidate =>
      let noted : DormantCandidate :=
        { candidate with
          pages := bank.pages
          requeued := false
          attempts := candidate.attempts + 1 }
      if kDormantMaxAttempts ≤ noted.attempts then
        { p with
          queuedPaths := p.queuedPaths.filter fun queued => queued != key
          dormant := dormant.eraseIdx index }
      else { p with dormant := dormant.set index noted }

/-- `clear_dormant_candidate` -/
def clearDormantCandidate (p : Pipeline) (key : String) : Pipeline :=
  { p with dormant := p.dormant.eraseP fun candidate => candidate.key == key }

def DormantCandidate.covers (candidate : DormantCandidate) (cpu : NdsCpu) (pc : UInt32) : Bool :=
  candidate.cpu == cpu && candidate.pages.contains (pageOf pc)

/-- The paths that `requeue_dormant_for` pushes. -/
def requeuedPaths (p : Pipeline) (cpu : NdsCpu) (pc : UInt32) : List String :=
  ((p.dormant.filter fun candidate =>
    DormantCandidate.covers candidate cpu pc && !candidate.requeued).map (·.path)).filter
      fun path => path != ""

/-- `requeue_dormant_for` -/
def requeueDormantFor (p : Pipeline) (cpu : NdsCpu) (pc : UInt32) : Pipeline :=
  { p with
    prepareQueue := p.prepareQueue ++ p.requeuedPaths cpu pc
    dormant := p.dormant.map fun candidate =>
      if DormantCandidate.covers candidate cpu pc then { candidate with requeued := true }
      else candidate }

/-- `dormant_page_resident`: the page suppresses coverage filing. -/
def dormantPageResident (p : Pipeline) (cpu : NdsCpu) (pc : UInt32) : Bool :=
  p.dormant.any fun candidate => DormantCandidate.covers candidate cpu pc

/-! ### The emulation thread -/

/-- `enqueue_candidate` -/
def enqueueCandidate (p : Pipeline) (path : String) : Pipeline :=
  if pathKey path ∈ p.queuedPaths then p
  else
    { p with
      queuedPaths := pathKey path :: p.queuedPaths
      prepareQueue := p.prepareQueue ++ [path] }

/-- `admit_prepared_bank`; `live` is the answer of `bank_guard_bytes_live`. -/
def admitPreparedBank (p : Pipeline) (bank : PreparedBank) (live : Bool) : Pipeline :=
  if live then p.clearDormantCandidate (pathKey bank.path) else p.noteDormantCandidate pathKey bank

/-- The locked section of `commit_one_ready_bank`: the oldest error and the oldest
bank are taken. -/
def commitOne (p : Pipeline) (rest : List EmuAction) : Pipeline :=
  { p with
    prepareErrors := p.prepareErrors.tail
    readyQueue := p.readyQueue.tail
    prepareResultsReady := !p.prepareErrors.tail.isEmpty || !p.readyQueue.tail.isEmpty
    emulation := (p.readyQueue.head?.map EmuAction.admission).toList ++ rest }

/-- One action, with `rest` still to come. -/
def act (p : Pipeline) (live : Bool) (rest : List EmuAction) : EmuAction → Pipeline
  | .claimPrepared =>
      if p.prepareResultsReady then
        { p with prepareResultsReady := false, emulation := .commitOne :: rest }
      else { p with emulation := rest }
  | .commitOne => p.commitOne rest
  | .admission bank => { p.admitPreparedBank pathKey bank live with emulation := rest }
  | .claimMaintenance =>
      if p.maintResultsReady then
        { p with maintResultsReady := false, emulation := .drainMaintenance :: rest }
      else { p with emulation := rest }
  | .drainMaintenance =>
      { p with
        maintResults := []
        maintResultsReady := false
        emulation := p.maintResults.map EmuAction.apply ++ rest }
  | .apply result => { p with emulation := result.candidates.map EmuAction.enqueue ++ rest }
  | .enqueue path => { p.enqueueCandidate pathKey path with emulation := rest }

def emulate (p : Pipeline) (live : Bool) : Pipeline :=
  match p.emulation with
  | [] => p
  | action :: rest => p.act pathKey live rest action

/-! ### The workers -/

/-- The prepare worker takes a path. -/
def takePath (p : Pipeline) : Pipeline :=
  match p.inFlight, p.prepareQueue with
  | none, path :: rest => { p with prepareQueue := rest, inFlight := some path }
  | _, _ => p

/-- What `prepare_bank_dll` answers: an error, or the rows' processor and pages. -/
abbrev PrepareOutcome := Except PreparedError (NdsCpu × List UInt32)

/-- The prepare worker publishes its result. -/
def finishPath (p : Pipeline) (outcome : PrepareOutcome) : Pipeline :=
  match p.inFlight with
  | none => p
  | some path =>
      match outcome with
      | .ok (cpu, pages) =>
          { p with
            readyQueue := p.readyQueue ++ [{ path := path, cpu := cpu, pages := pages }]
            inFlight := none
            prepareResultsReady := true }
      | .error error =>
          { p with
            prepareErrors := p.prepareErrors ++ [error]
            inFlight := none
            prepareResultsReady := true }

def takeJob (p : Pipeline) : Pipeline :=
  match p.maintInHand, p.maintJobs with
  | none, job :: rest => { p with maintJobs := rest, maintInHand := some job }
  | _, _ => p

def finishJob (p : Pipeline) (result : MaintenanceResult) : Pipeline :=
  match p.maintInHand with
  | none => p
  | some _ =>
      { p with
        maintResults := p.maintResults ++ [result]
        maintInHand := none
        maintResultsReady := true }

end Pipeline

/-- Who takes the next step. -/
inductive PipelineOp where
  /-- `live_overlay_poll_now`, as far as results are concerned. -/
  | poll
  /-- The walk of the cache at launch. -/
  | registerCached (paths : List String)
  /-- `push_maintenance_job` -/
  | pushJob (job : MaintenanceJob)
  /-- `live_overlay_note_tier3_entry` -/
  | tier3Entry (cpu : NdsCpu) (pc : UInt32)
  | emulate (live : Bool)
  | takePath
  | finishPath (outcome : Pipeline.PrepareOutcome)
  | takeJob
  | finishJob (result : MaintenanceResult)

namespace Pipeline

variable (pathKey : String → String)

/-- The emulation thread starts something new only when it is done with the last. -/
def next (p : Pipeline) : PipelineOp → Pipeline
  | .poll => { p with emulation := [.claimPrepared, .claimMaintenance] }
  | .registerCached paths => { p with emulation := paths.map EmuAction.enqueue }
  | .pushJob job => { p with maintJobs := p.maintJobs ++ [job] }
  | .tier3Entry cpu pc =>
      if p.dormantPageResident cpu pc then p.requeueDormantFor cpu pc else p
  | .emulate live => p.emulate pathKey live
  | .takePath => p.takePath
  | .finishPath outcome => p.finishPath outcome
  | .takeJob => p.takeJob
  | .finishJob result => p.finishJob result

/-- `make_queue_candidate` lets only published libraries through. -/
def admits (p : Pipeline) : PipelineOp → Prop
  | .poll | .pushJob _ | .tier3Entry _ _ => p.emulation = []
  | .registerCached paths => p.emulation = [] ∧ ∀ path ∈ paths, path ≠ ""
  | .emulate _ => p.emulation ≠ []
  | .takePath => p.inFlight = none ∧ p.prepareQueue ≠ []
  | .finishPath _ => p.inFlight ≠ none
  | .takeJob => p.maintInHand = none ∧ p.maintJobs ≠ []
  | .finishJob result => p.maintInHand ≠ none ∧ ∀ path ∈ result.candidates, path ≠ ""

end Pipeline

/-! ### What is handed over -/

/-- The record of a session: what was pushed on each queue, what came out of each
worker, and what the emulation thread took, each oldest first. -/
structure HandOffLog where
  pushed : List String := []
  prepared : List (String × Pipeline.PrepareOutcome) := []
  takenBanks : List PreparedBank := []
  takenErrors : List PreparedError := []
  jobs : List MaintenanceJob := []
  finished : List (MaintenanceJob × MaintenanceResult) := []
  takenResults : List MaintenanceResult := []

/-- The banks among the prepared paths. -/
def bankOf? : String × Pipeline.PrepareOutcome → Option PreparedBank
  | (path, .ok (cpu, pages)) => some { path := path, cpu := cpu, pages := pages }
  | (_, .error _) => none

def errorOf? : String × Pipeline.PrepareOutcome → Option PreparedError
  | (_, .ok _) => none
  | (_, .error error) => some error

structure Session where
  pipe : Pipeline := {}
  log : HandOffLog := {}

namespace Session

variable (pathKey : String → String)

/-- What the head action of the emulation thread adds to the record. -/
def noteAct (s : Session) : EmuAction → HandOffLog
  | .commitOne =>
      { s.log with
        takenBanks := s.log.takenBanks ++ s.pipe.readyQueue.head?.toList
        takenErrors := s.log.takenErrors ++ s.pipe.prepareErrors.head?.toList }
  | .drainMaintenance =>
      { s.log with takenResults := s.log.takenResults ++ s.pipe.maintResults }
  | .enqueue path =>
      if pathKey path ∈ s.pipe.queuedPaths then s.log
      else { s.log with pushed := s.log.pushed ++ [path] }
  | _ => s.log

def note (s : Session) : PipelineOp → HandOffLog
  | .pushJob job => { s.log with jobs := s.log.jobs ++ [job] }
  | .tier3Entry cpu pc =>
      if s.pipe.dormantPageResident cpu pc then
        { s.log with pushed := s.log.pushed ++ s.pipe.requeuedPaths cpu pc }
      else s.log
  | .emulate _ =>
      match s.pipe.emulation with
      | [] => s.log
      | action :: _ => s.noteAct pathKey action
  | .finishPath outcome =>
      match s.pipe.inFlight with
      | none => s.log
      | some path => { s.log with prepared := s.log.prepared ++ [(path, outcome)] }
  | .finishJob result =>
      match s.pipe.maintInHand with
      | none => s.log
      | some job => { s.log with finished := s.log.finished ++ [(job, result)] }
  | _ => s.log

end Session

/-- A session from its start, under every interleaving of the three threads. -/
def sessionSystem (pathKey : String → String) : OpSystem Session PipelineOp where
  initial := fun s => s = {}
  admits := fun s op => s.pipe.admits op
  next := fun s op => { pipe := s.pipe.next pathKey op, log := s.note pathKey op }

/-- Nothing is lost or doubled on the way, and each queue keeps its order. -/
structure HandedOver (s : Session) : Prop where
  paths : s.log.pushed =
    s.log.prepared.map Prod.fst ++ (s.pipe.inFlight.toList ++ s.pipe.prepareQueue)
  banks : s.log.prepared.filterMap bankOf? = s.log.takenBanks ++ s.pipe.readyQueue
  errors : s.log.prepared.filterMap errorOf? = s.log.takenErrors ++ s.pipe.prepareErrors
  jobs : s.log.jobs =
    s.log.finished.map Prod.fst ++ (s.pipe.maintInHand.toList ++ s.pipe.maintJobs)
  results : s.log.finished.map Prod.snd = s.log.takenResults ++ s.pipe.maintResults

/-- Outside a drain a waiting result shows in its flag. -/
structure Signalled (p : Pipeline) : Prop where
  prepared : EmuAction.commitOne ∉ p.emulation →
    p.readyQueue ≠ [] ∨ p.prepareErrors ≠ [] → p.prepareResultsReady = true
  maintenance : EmuAction.drainMaintenance ∉ p.emulation →
    p.maintResults ≠ [] → p.maintResultsReady = true

end NdsRecomp.LiveOverlay
