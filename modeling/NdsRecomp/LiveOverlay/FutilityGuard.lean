import NdsRecomp.Library.OpSystem

/-!
When the provider is run and when it is given up. A trigger starts a child, the
child's exit hands its log to the maintenance worker, and the shards found there
go through the prepare worker to a verdict: a run all of whose shards were
rejected suppresses further automatic runs. The guard reads counters shared by
every shard against marks taken when the run's result was applied.

The poll is taken apart where it locks a queue or reads the child. The two ready
flags are answers the poll is given, since a flag may be raised at any time.
-/

namespace NdsRecomp.LiveOverlay

open Library

/-- Who queued a shard: a finished run, or anything else. -/
inductive ShardOrigin where
  | run (index : Nat)
  | other
deriving DecidableEq

structure QueuedShard where
  path : String
  origin : ShardOrigin
deriving DecidableEq

/-- What came of a shard: a rejection, a resident bank, or neither (declined,
a duplicate, or dormant). -/
inductive ShardVerdict where
  | rejected
  | loaded
  | kept
deriving DecidableEq

/-! ### The counters and the record of the runs -/

structure RunLedger where
  banksLoaded : Nat := 0
  banksRejected : Nat := 0
  runWatch : Bool := false
  runQueued : Nat := 0
  runLoadedMark : Nat := 0
  runRejectedMark : Nat := 0
  autoSuppressed : Bool := false
  -- record: the finished runs, what became of the shards of each, and the runs
  -- whose verdict suppressed
  applied : Nat := 0
  queuedBy : Nat → Nat := fun _ => 0
  rejectedOf : Nat → Nat := fun _ => 0
  loadedOf : Nat → Nat := fun _ => 0
  keptOf : Nat → Nat := fun _ => 0
  suppressions : List Nat := []

/-- One more for the run that queued the shard. -/
def credit (count : Nat → Nat) : ShardOrigin → Nat → Nat
  | .run index => Function.update count index (count index + 1)
  | .other => count

namespace RunLedger

variable (l : RunLedger)

def settle (origin : ShardOrigin) : ShardVerdict → RunLedger
  | .rejected =>
      { l with
        banksRejected := l.banksRejected + 1
        rejectedOf := credit l.rejectedOf origin }
  | .loaded =>
      { l with
        banksLoaded := l.banksLoaded + 1
        loadedOf := credit l.loadedOf origin }
  | .kept => { l with keptOf := credit l.keptOf origin }

/-- The marks of `apply_run_finished`. -/
def openRun (publishedTotal : Nat) : RunLedger :=
  { l with
    runLoadedMark := l.banksLoaded
    runRejectedMark := l.banksRejected
    runQueued := 0
    runWatch := publishedTotal != 0
    applied := l.applied + 1 }

/-- A published shard was newly queued. -/
def queueOne : RunLedger :=
  { l with
    runQueued := l.runQueued + 1
    queuedBy := Function.update l.queuedBy l.applied (l.queuedBy l.applied + 1) }

/-- `evaluate_run_futility` past its early returns. -/
def verdict : RunLedger :=
  let loaded := l.banksLoaded - l.runLoadedMark
  let rejected := l.banksRejected - l.runRejectedMark
  if loaded ≠ 0 ∨ l.runQueued = 0 ∨ rejected ≠ l.runQueued then { l with runWatch := false }
  else
    { l with
      runWatch := false
      autoSuppressed := true
      suppressions := l.suppressions ++ [l.applied] }

/-- The run queued a shard and every one it queued was rejected. -/
def Futile (index : Nat) : Prop :=
  0 < l.queuedBy index ∧ l.rejectedOf index = l.queuedBy index

instance (index : Nat) : Decidable (l.Futile index) := inferInstanceAs (Decidable (_ ∧ _))

end RunLedger

/-! ### The guard -/

inductive GuardJob where
  | rescan
  | startChild
  | runFinished (exitCode : Nat)
deriving DecidableEq

/-- `MaintenanceResult` of each job. -/
inductive GuardResult where
  | rescan (found : List String)
  | startChild (ok : Bool)
  | runFinished (exitCode pending publishedTotal : Nat) (published found : List String)
deriving DecidableEq

/-- `published` is what of the log's paths is still to be queued. -/
def GuardResult.Sized : GuardResult → Prop
  | .runFinished _ _ publishedTotal published _ => published.length ≤ publishedTotal
  | _ => True

instance (result : GuardResult) : Decidable result.Sized := by
  unfold GuardResult.Sized
  cases result <;> infer_instance

def GuardResult.answers : GuardResult → GuardJob → Bool
  | .rescan _, .rescan => true
  | .startChild _, .startChild => true
  | .runFinished exitCode .., .runFinished code => exitCode == code
  | _, _ => false

def GuardJob.isFinish : GuardJob → Bool
  | .runFinished _ => true
  | _ => false

def GuardResult.answersStart : GuardResult → Bool
  | .startChild _ => true
  | _ => false

def GuardResult.answersFinish : GuardResult → Bool
  | .runFinished .. => true
  | _ => false

/-- Where the emulation thread is in `live_overlay_poll_now`. -/
inductive PollPoint where
  | outside
  | commit
  | drain
  | applying
  | evaluate
  | childCheck
  | schedule
  | request
deriving DecidableEq

structure FutilityGuard where
  autoTrigger : Bool := true
  ledger : RunLedger := {}
  triggerRequests : Nat := 0
  runsStarted : Nat := 0
  generationPending : Bool := false
  childActive : Bool := false
  startPending : Bool := false
  runFinishPending : Bool := false
  initialCacheScanDone : Bool := false
  -- under `publish_mutex`
  prepareQueue : List QueuedShard := []
  inFlight : Option QueuedShard := none
  readyQueue : List QueuedShard := []
  prepareErrors : List QueuedShard := []
  queuedPaths : List String := []
  -- under `maint_mutex`; the job in hand is the first
  maintJobs : List GuardJob := []
  maintResults : List GuardResult := []
  -- the results of a drain that are still to be applied
  resultsInHand : List GuardResult := []
  pollAt : PollPoint := .outside

namespace FutilityGuard

variable (g : FutilityGuard)

/-- The shards without a verdict. -/
def unresolved : List QueuedShard :=
  g.prepareQueue ++ g.inFlight.toList ++ g.readyQueue ++ g.prepareErrors

def unresolvedOf (index : Nat) : Nat :=
  g.unresolved.countP fun shard => shard.origin = .run index

/-- `enqueue_candidate` -/
def enqueueCandidate (origin : ShardOrigin) (path : String) : FutilityGuard × Bool :=
  if path ∈ g.queuedPaths then (g, false)
  else
    ({ g with
        queuedPaths := path :: g.queuedPaths
        prepareQueue := g.prepareQueue ++ [⟨path, origin⟩] }, true)

def enqueueFound (path : String) : FutilityGuard := (g.enqueueCandidate .other path).1

/-- `if (enqueue_candidate(candidate)) ++run_queued` -/
def enqueuePublished (path : String) : FutilityGuard :=
  let (g', queued) := g.enqueueCandidate (.run g.ledger.applied) path
  if queued then { g' with ledger := g'.ledger.queueOne } else g'

def requestGenerationCompile : FutilityGuard :=
  { g with generationPending := g.generationPending || g.autoTrigger }

/-- `apply_run_finished` -/
def applyRunFinished (exitCode pending publishedTotal : Nat) (published found : List String) :
    FutilityGuard :=
  let opened :=
    { g with runFinishPending := false, ledger := g.ledger.openRun publishedTotal }
  let queued := published.foldl enqueuePublished opened
  let requested :=
    if exitCode = 0 ∧ pending ≠ 0 ∧ publishedTotal ≠ 0 then queued.requestGenerationCompile
    else queued
  found.foldl enqueueFound requested

/-- `apply_start_child` -/
def applyStartChild (ok : Bool) : FutilityGuard :=
  if ok then
    { g with startPending := false, childActive := true, runsStarted := g.runsStarted + 1 }
  else { g with startPending := false, triggerRequests := g.runsStarted }

def applyResult : GuardResult → FutilityGuard
  | .rescan found => found.foldl enqueueFound g
  | .startChild ok => g.applyStartChild ok
  | .runFinished exitCode pending publishedTotal published found =>
      g.applyRunFinished exitCode pending publishedTotal published found

/-- The oldest preparation error is a rejection. -/
def takeError : FutilityGuard :=
  match g.prepareErrors with
  | [] => g
  | shard :: rest =>
      { g with prepareErrors := rest, ledger := g.ledger.settle shard.origin .rejected }

/-- The oldest bank is admitted, with this verdict. -/
def takeBank (verdict : ShardVerdict) : FutilityGuard :=
  match g.readyQueue with
  | [] => g
  | shard :: rest =>
      { g with readyQueue := rest, ledger := g.ledger.settle shard.origin verdict }

/-- `commit_one_ready_bank` -/
def commitOneReadyBank (verdict : ShardVerdict) : FutilityGuard := g.takeError.takeBank verdict

/-- `evaluate_run_futility` -/
def evaluateRunFutility : FutilityGuard :=
  if ¬ g.ledger.runWatch then g
  else if g.unresolved ≠ [] then g
  else if g.childActive then g
  else { g with ledger := g.ledger.verdict }

/-- The child has exited with this code, if it has; `queue_run_finished`. -/
def checkChild (exited : Option Nat) : FutilityGuard :=
  match exited with
  | none => g
  | some exitCode =>
      if g.childActive then
        { g with
          childActive := false
          runFinishPending := true
          maintJobs := g.maintJobs ++ [.runFinished exitCode] }
      else g

/-- `schedule_pending_compile` -/
def schedulePendingCompile (delayElapsed : Bool) : FutilityGuard :=
  if ¬ g.generationPending ∨ ¬ delayElapsed then g
  else if g.ledger.autoSuppressed then g
  else if g.triggerRequests > g.runsStarted then g
  else { g with generationPending := false, triggerRequests := g.triggerRequests + 1 }

/-- The last lines of the poll; `captured` is what `request_child_start` returns. -/
def requestRun (captured : Bool) : FutilityGuard :=
  if ¬ g.childActive ∧ ¬ g.startPending ∧ ¬ g.runFinishPending ∧
      g.triggerRequests > g.runsStarted then
    if captured then
      { g with startPending := true, maintJobs := g.maintJobs ++ [.startChild] }
    else { g with triggerRequests := g.runsStarted }
  else g

/-- The poll's first lines: the walk of the cache is queued once. -/
def enterPoll : FutilityGuard :=
  if g.initialCacheScanDone then { g with pollAt := .commit }
  else
    { g with
      initialCacheScanDone := true
      maintJobs := g.maintJobs ++ [.rescan]
      pollAt := .commit }

/-- `live_overlay_trigger_now` up to the poll it makes. -/
def triggerNow : FutilityGuard :=
  { g with
    ledger := { g.ledger with autoSuppressed := false }
    triggerRequests := g.triggerRequests + 1 }.enterPoll

end FutilityGuard

/-! ### Runs -/

inductive GuardOp where
  | autoRequest
  /-- `requeue_dormant_for` -/
  | requeueDormant (paths : List String)
  | poll
  | triggerNow
  | commit (ready : Bool) (verdict : ShardVerdict)
  | drain (ready : Bool)
  | apply
  | evaluate
  | checkChild (exited : Option Nat)
  | schedule (activated delayElapsed : Bool)
  | request (captured : Bool)
  | takeShard
  | finishShard (prepared : Bool)
  | finishJob (result : GuardResult)

namespace FutilityGuard

variable (g : FutilityGuard)

def Admits : GuardOp → Prop
  | .autoRequest | .requeueDormant _ | .poll | .triggerNow => g.pollAt = .outside
  | .commit .. => g.pollAt = .commit
  | .drain _ => g.pollAt = .drain
  | .apply => g.pollAt = .applying
  | .evaluate => g.pollAt = .evaluate
  | .checkChild _ => g.pollAt = .childCheck
  | .schedule .. => g.pollAt = .schedule
  | .request _ => g.pollAt = .request
  | .takeShard => g.inFlight = none
  | .finishShard _ => g.inFlight.isSome
  | .finishJob result => g.maintJobs.head?.any result.answers = true ∧ result.Sized

instance (op : GuardOp) : Decidable (g.Admits op) := by
  unfold Admits
  cases op <;> infer_instance

def next : GuardOp → FutilityGuard
  | .autoRequest => g.requestGenerationCompile
  | .requeueDormant paths =>
      { g with prepareQueue := g.prepareQueue ++ paths.map fun path => ⟨path, .other⟩ }
  | .poll => g.enterPoll
  | .triggerNow => g.triggerNow
  | .commit ready verdict =>
      { (if ready then g.commitOneReadyBank verdict else g) with pollAt := .drain }
  | .drain ready =>
      if ready then
        { g with maintResults := [], resultsInHand := g.maintResults, pollAt := .applying }
      else { g with pollAt := .applying }
  | .apply =>
      match g.resultsInHand with
      | [] => { g with pollAt := .evaluate }
      | result :: rest => { g with resultsInHand := rest }.applyResult result
  | .evaluate =>
      { (if g.runFinishPending then g else g.evaluateRunFutility) with pollAt := .childCheck }
  | .checkChild exited => { g.checkChild exited with pollAt := .schedule }
  | .schedule activated delayElapsed =>
      if activated then { g.schedulePendingCompile delayElapsed with pollAt := .request }
      else { g with pollAt := .outside }
  | .request captured => { g.requestRun captured with pollAt := .outside }
  | .takeShard =>
      match g.prepareQueue with
      | [] => g
      | shard :: rest => { g with prepareQueue := rest, inFlight := some shard }
  | .finishShard prepared =>
      if prepared then
        { g with readyQueue := g.readyQueue ++ g.inFlight.toList, inFlight := none }
      else { g with prepareErrors := g.prepareErrors ++ g.inFlight.toList, inFlight := none }
  | .finishJob result =>
      { g with maintJobs := g.maintJobs.tail, maintResults := g.maintResults ++ [result] }

end FutilityGuard

/-- As `live_overlay_configure` leaves it. -/
def futilitySystem : OpSystem FutilityGuard GuardOp where
  initial g := ∃ autoTrigger, g = { autoTrigger := autoTrigger }
  admits := FutilityGuard.Admits
  next := FutilityGuard.next

end NdsRecomp.LiveOverlay
