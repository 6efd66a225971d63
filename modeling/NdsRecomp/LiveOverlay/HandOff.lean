import NdsRecomp.LiveOverlay.Pipeline

/-!
The hand-off between the workers and the emulation thread loses nothing. Every
path becomes one bank or one error, results are taken once and in order, and a
waiting result shows in its flag whenever the emulation thread is outside a
drain, so the poll's early out cannot pass it over.
-/

namespace NdsRecomp.LiveOverlay

open Bus Library

variable {pathKey : String → String}

/-! ### What the registry leaves alone -/

/-- The two pipelines with the queues of results, but not the registry. -/
structure SameHandOff (p p' : Pipeline) : Prop where
  prepareQueue : p'.prepareQueue = p.prepareQueue
  inFlight : p'.inFlight = p.inFlight
  readyQueue : p'.readyQueue = p.readyQueue
  prepareErrors : p'.prepareErrors = p.prepareErrors
  prepareResultsReady : p'.prepareResultsReady = p.prepareResultsReady
  maintJobs : p'.maintJobs = p.maintJobs
  maintInHand : p'.maintInHand = p.maintInHand
  maintResults : p'.maintResults = p.maintResults
  maintResultsReady : p'.maintResultsReady = p.maintResultsReady

variable (pathKey) in
theorem noteDormantCandidate_sameHandOff (p : Pipeline) (bank : PreparedBank) :
    SameHandOff p (p.noteDormantCandidate pathKey bank) := by
  unfold Pipeline.noteDormantCandidate
  dsimp only
  split
  · constructor <;> rfl
  · split
    · constructor <;> rfl
    · constructor <;> rfl

variable (pathKey) in
theorem admitPreparedBank_sameHandOff (p : Pipeline) (bank : PreparedBank) (live : Bool) :
    SameHandOff p (p.admitPreparedBank pathKey bank live) := by
  unfold Pipeline.admitPreparedBank
  split
  · constructor <;> rfl
  · exact noteDormantCandidate_sameHandOff pathKey p bank

/-! ### Conservation -/

namespace HandedOver

variable {s : Session}

theorem of_same {s' : Session} (h : HandedOver s) (hpipe : SameHandOff s.pipe s'.pipe)
    (hlog : s'.log = s.log) : HandedOver s' where
  paths := by rw [hlog, hpipe.inFlight, hpipe.prepareQueue, h.paths]
  banks := by rw [hlog, hpipe.readyQueue, h.banks]
  errors := by rw [hlog, hpipe.prepareErrors, h.errors]
  jobs := by rw [hlog, hpipe.maintInHand, hpipe.maintJobs, h.jobs]
  results := by rw [hlog, hpipe.maintResults, h.results]

/-- Paths pushed behind the queue. -/
theorem push {s' : Session} (h : HandedOver s) (paths : List String)
    (hqueue : s'.pipe.prepareQueue = s.pipe.prepareQueue ++ paths)
    (hlog : s'.log = { s.log with pushed := s.log.pushed ++ paths })
    (hinFlight : s'.pipe.inFlight = s.pipe.inFlight)
    (hready : s'.pipe.readyQueue = s.pipe.readyQueue)
    (herrors : s'.pipe.prepareErrors = s.pipe.prepareErrors)
    (hjobs : s'.pipe.maintJobs = s.pipe.maintJobs)
    (hinHand : s'.pipe.maintInHand = s.pipe.maintInHand)
    (hresults : s'.pipe.maintResults = s.pipe.maintResults) : HandedOver s' where
  paths := by
    rw [hlog, hqueue, hinFlight]
    change s.log.pushed ++ paths = s.log.prepared.map Prod.fst ++ _
    rw [h.paths]
    simp only [List.append_assoc]
  banks := by
    rw [hlog, hready]
    exact h.banks
  errors := by
    rw [hlog, herrors]
    exact h.errors
  jobs := by
    rw [hlog, hinHand, hjobs]
    exact h.jobs
  results := by
    rw [hlog, hresults]
    exact h.results

theorem commitOne (h : HandedOver s) (rest : List EmuAction) :
    HandedOver { pipe := s.pipe.commitOne rest, log := s.noteAct pathKey .commitOne } where
  paths := h.paths
  banks := by
    refine h.banks.trans ?_
    change _ = (s.log.takenBanks ++ s.pipe.readyQueue.head?.toList) ++ s.pipe.readyQueue.tail
    cases s.pipe.readyQueue <;> simp
  errors := by
    refine h.errors.trans ?_
    change _ = (s.log.takenErrors ++ s.pipe.prepareErrors.head?.toList) ++ s.pipe.prepareErrors.tail
    cases s.pipe.prepareErrors <;> simp
  jobs := h.jobs
  results := h.results

theorem act (h : HandedOver s) (live : Bool) (rest : List EmuAction) (action : EmuAction) :
    HandedOver { pipe := s.pipe.act pathKey live rest action, log := s.noteAct pathKey action } := by
  cases action with
  | claimPrepared =>
      unfold Pipeline.act
      dsimp only
      split
      · exact ⟨h.paths, h.banks, h.errors, h.jobs, h.results⟩
      · exact ⟨h.paths, h.banks, h.errors, h.jobs, h.results⟩
  | commitOne => exact h.commitOne rest
  | admission bank =>
      have hsame := admitPreparedBank_sameHandOff pathKey s.pipe bank live
      exact h.of_same ⟨hsame.prepareQueue, hsame.inFlight, hsame.readyQueue, hsame.prepareErrors,
        hsame.prepareResultsReady, hsame.maintJobs, hsame.maintInHand, hsame.maintResults,
        hsame.maintResultsReady⟩ rfl
  | claimMaintenance =>
      unfold Pipeline.act
      dsimp only
      split
      · exact ⟨h.paths, h.banks, h.errors, h.jobs, h.results⟩
      · exact ⟨h.paths, h.banks, h.errors, h.jobs, h.results⟩
  | drainMaintenance =>
      refine ⟨h.paths, h.banks, h.errors, h.jobs, h.results.trans ?_⟩
      exact (List.append_nil _).symm
  | apply result => exact ⟨h.paths, h.banks, h.errors, h.jobs, h.results⟩
  | enqueue path =>
      unfold Pipeline.act Session.noteAct Pipeline.enqueueCandidate
      dsimp only
      by_cases hqueued : pathKey path ∈ s.pipe.queuedPaths
      · rw [if_pos hqueued, if_pos hqueued]
        exact ⟨h.paths, h.banks, h.errors, h.jobs, h.results⟩
      · rw [if_neg hqueued, if_neg hqueued]
        exact h.push [path] rfl rfl rfl rfl rfl rfl rfl rfl

theorem finishPath (h : HandedOver s) (outcome : Pipeline.PrepareOutcome) :
    HandedOver { pipe := s.pipe.finishPath outcome, log := s.note pathKey (.finishPath outcome) } := by
  unfold Pipeline.finishPath Session.note
  dsimp only
  cases hflight : s.pipe.inFlight with
  | none => exact h
  | some path =>
      have hpaths := h.paths
      rw [hflight] at hpaths
      cases outcome with
      | ok place =>
          refine ⟨?_, ?_, ?_, h.jobs, h.results⟩
          · change s.log.pushed = (s.log.prepared ++ [(path, Except.ok place)]).map Prod.fst ++ _
            rw [hpaths]
            simp
          · change (s.log.prepared ++ [(path, Except.ok place)]).filterMap bankOf? = _
            rw [List.filterMap_append, h.banks, List.append_assoc]
            rfl
          · change (s.log.prepared ++ [(path, Except.ok place)]).filterMap errorOf? = _
            rw [List.filterMap_append, h.errors]
            exact List.append_nil _
      | error error =>
          refine ⟨?_, ?_, ?_, h.jobs, h.results⟩
          · change s.log.pushed = (s.log.prepared ++ [(path, Except.error error)]).map Prod.fst ++ _
            rw [hpaths]
            simp
          · change (s.log.prepared ++ [(path, Except.error error)]).filterMap bankOf? = _
            rw [List.filterMap_append, h.banks]
            exact List.append_nil _
          · change (s.log.prepared ++ [(path, Except.error error)]).filterMap errorOf? = _
            rw [List.filterMap_append, h.errors, List.append_assoc]
            rfl

theorem takePath (h : HandedOver s) :
    HandedOver { pipe := s.pipe.takePath, log := s.log } := by
  unfold Pipeline.takePath
  split
  · next path rest hflight hqueue =>
      refine ⟨?_, h.banks, h.errors, h.jobs, h.results⟩
      rw [h.paths, hflight, hqueue]
      rfl
  · exact h

theorem takeJob (h : HandedOver s) :
    HandedOver { pipe := s.pipe.takeJob, log := s.log } := by
  unfold Pipeline.takeJob
  split
  · next job rest hhand hjobs =>
      refine ⟨h.paths, h.banks, h.errors, ?_, h.results⟩
      rw [h.jobs, hhand, hjobs]
      rfl
  · exact h

theorem finishJob (h : HandedOver s) (result : MaintenanceResult) :
    HandedOver { pipe := s.pipe.finishJob result, log := s.note pathKey (.finishJob result) } := by
  unfold Pipeline.finishJob Session.note
  dsimp only
  cases hhand : s.pipe.maintInHand with
  | none => exact h
  | some job =>
      have hjobs := h.jobs
      rw [hhand] at hjobs
      refine ⟨h.paths, h.banks, h.errors, ?_, ?_⟩
      · change s.log.jobs = (s.log.finished ++ [(job, result)]).map Prod.fst ++ _
        rw [hjobs]
        simp
      · change (s.log.finished ++ [(job, result)]).map Prod.snd = _
        rw [List.map_append, h.results, List.append_assoc]
        rfl

theorem step (h : HandedOver s) (op : PipelineOp) :
    HandedOver { pipe := s.pipe.next pathKey op, log := s.note pathKey op } := by
  cases op with
  | poll => exact ⟨h.paths, h.banks, h.errors, h.jobs, h.results⟩
  | registerCached paths => exact ⟨h.paths, h.banks, h.errors, h.jobs, h.results⟩
  | pushJob job =>
      refine ⟨h.paths, h.banks, h.errors, ?_, h.results⟩
      change s.log.jobs ++ [job] = _
      rw [h.jobs]
      simp only [List.append_assoc]
      rfl
  | tier3Entry cpu pc =>
      unfold Pipeline.next Session.note
      dsimp only
      split
      · exact h.push (s.pipe.requeuedPaths cpu pc) rfl rfl rfl rfl rfl rfl rfl rfl
      · exact h
  | emulate live =>
      unfold Pipeline.next Session.note Pipeline.emulate
      dsimp only
      cases s.pipe.emulation with
      | nil => exact h
      | cons action rest => exact h.act live rest action
  | takePath => exact h.takePath
  | finishPath outcome => exact h.finishPath outcome
  | takeJob => exact h.takeJob
  | finishJob result => exact h.finishJob result

end HandedOver

/-! ### Flags -/

namespace Signalled

variable {p p' : Pipeline}

/-- A step that leaves results and flags keeps both if it brings no drain to an end. -/
theorem of_same (h : Signalled p) (hready : p'.readyQueue = p.readyQueue)
    (herrors : p'.prepareErrors = p.prepareErrors)
    (hprepared : p'.prepareResultsReady = p.prepareResultsReady)
    (hresults : p'.maintResults = p.maintResults)
    (hmaintenance : p'.maintResultsReady = p.maintResultsReady)
    (hcommit : EmuAction.commitOne ∈ p.emulation → EmuAction.commitOne ∈ p'.emulation)
    (hdrain : EmuAction.drainMaintenance ∈ p.emulation →
      EmuAction.drainMaintenance ∈ p'.emulation) : Signalled p' where
  prepared hout := by
    rw [hready, herrors, hprepared]
    exact h.prepared fun hin => hout (hcommit hin)
  maintenance hout := by
    rw [hresults, hmaintenance]
    exact h.maintenance fun hin => hout (hdrain hin)

theorem claimPrepared (h : Signalled p) {rest : List EmuAction}
    (hemulation : p.emulation = .claimPrepared :: rest) (live : Bool) :
    Signalled (p.act pathKey live rest .claimPrepared) := by
  have hout {action : EmuAction} (hne : action ≠ .claimPrepared) (hrest : action ∉ rest) :
      action ∉ p.emulation := by
    rw [hemulation]
    exact fun hin => (List.mem_cons.mp hin).elim hne hrest
  unfold Pipeline.act
  dsimp only
  split
  · refine ⟨fun hrest => absurd List.mem_cons_self hrest, fun hrest => ?_⟩
    exact h.maintenance (hout (by decide) fun hin => hrest (List.mem_cons_of_mem _ hin))
  · exact ⟨fun hrest => h.prepared (hout (by decide) hrest),
      fun hrest => h.maintenance (hout (by decide) hrest)⟩

theorem claimMaintenance (h : Signalled p) {rest : List EmuAction}
    (hemulation : p.emulation = .claimMaintenance :: rest) (live : Bool) :
    Signalled (p.act pathKey live rest .claimMaintenance) := by
  have hout {action : EmuAction} (hne : action ≠ .claimMaintenance) (hrest : action ∉ rest) :
      action ∉ p.emulation := by
    rw [hemulation]
    exact fun hin => (List.mem_cons.mp hin).elim hne hrest
  unfold Pipeline.act
  dsimp only
  split
  · refine ⟨fun hrest => ?_, fun hrest => absurd List.mem_cons_self hrest⟩
    exact h.prepared (hout (by decide) fun hin => hrest (List.mem_cons_of_mem _ hin))
  · exact ⟨fun hrest => h.prepared (hout (by decide) hrest),
      fun hrest => h.maintenance (hout (by decide) hrest)⟩

theorem commitOne (h : Signalled p) {rest : List EmuAction}
    (hemulation : p.emulation = .commitOne :: rest) : Signalled (p.commitOne rest) where
  prepared _ hwaiting := by
    change (!p.prepareErrors.tail.isEmpty || !p.readyQueue.tail.isEmpty) = true
    change p.readyQueue.tail ≠ [] ∨ p.prepareErrors.tail ≠ [] at hwaiting
    rcases hwaiting with hready | herrors
    · simp [hready]
    · simp [herrors]
  maintenance hout hwaiting := by
    refine h.maintenance (fun hin => hout ?_) hwaiting
    rw [hemulation] at hin
    rcases List.mem_cons.mp hin with hhead | hrest
    · cases hhead
    · exact List.mem_append_right _ hrest

theorem drainMaintenance (h : Signalled p) {rest : List EmuAction}
    (hemulation : p.emulation = .drainMaintenance :: rest) (live : Bool) :
    Signalled (p.act pathKey live rest .drainMaintenance) where
  prepared hout hwaiting := by
    refine h.prepared (fun hin => hout ?_) hwaiting
    rw [hemulation] at hin
    rcases List.mem_cons.mp hin with hhead | hrest
    · cases hhead
    · exact List.mem_append_right _ hrest
  maintenance _ hwaiting := absurd rfl hwaiting

theorem act (h : Signalled p) {rest : List EmuAction} {action : EmuAction}
    (hemulation : p.emulation = action :: rest) (live : Bool) :
    Signalled (p.act pathKey live rest action) := by
  have hkeep {drain : EmuAction} (hne : drain ≠ action) (hin : drain ∈ p.emulation) :
      drain ∈ rest := by
    rw [hemulation] at hin
    exact (List.mem_cons.mp hin).resolve_left hne
  cases action with
  | claimPrepared => exact h.claimPrepared hemulation live
  | commitOne => exact h.commitOne hemulation
  | admission bank =>
      have hsame := admitPreparedBank_sameHandOff pathKey p bank live
      exact h.of_same hsame.readyQueue hsame.prepareErrors hsame.prepareResultsReady
        hsame.maintResults hsame.maintResultsReady (hkeep nofun) (hkeep nofun)
  | claimMaintenance => exact h.claimMaintenance hemulation live
  | drainMaintenance => exact h.drainMaintenance hemulation live
  | apply result =>
      exact h.of_same rfl rfl rfl rfl rfl
        (fun hin => List.mem_append_right _ (hkeep nofun hin))
        fun hin => List.mem_append_right _ (hkeep nofun hin)
  | enqueue path =>
      unfold Pipeline.act Pipeline.enqueueCandidate
      dsimp only
      split
      · exact h.of_same rfl rfl rfl rfl rfl (hkeep nofun) (hkeep nofun)
      · exact h.of_same rfl rfl rfl rfl rfl (hkeep nofun) (hkeep nofun)

theorem step (h : Signalled p) {op : PipelineOp} (hadmits : p.admits op) :
    Signalled (p.next pathKey op) := by
  cases op with
  | poll =>
      have hidle : p.emulation = [] := hadmits
      exact h.of_same rfl rfl rfl rfl rfl (fun hin => by rw [hidle] at hin; cases hin)
        fun hin => by rw [hidle] at hin; cases hin
  | registerCached paths =>
      have hidle : p.emulation = [] := hadmits.1
      exact h.of_same rfl rfl rfl rfl rfl (fun hin => by rw [hidle] at hin; cases hin)
        fun hin => by rw [hidle] at hin; cases hin
  | pushJob job => exact h.of_same rfl rfl rfl rfl rfl id id
  | tier3Entry cpu pc =>
      unfold Pipeline.next
      dsimp only
      split
      · exact h.of_same rfl rfl rfl rfl rfl id id
      · exact h
  | emulate live =>
      unfold Pipeline.next Pipeline.emulate
      dsimp only
      cases hemulation : p.emulation with
      | nil => exact h
      | cons action rest => exact h.act hemulation live
  | takePath =>
      unfold Pipeline.next Pipeline.takePath
      dsimp only
      split
      · exact h.of_same rfl rfl rfl rfl rfl id id
      · exact h
  | finishPath outcome =>
      unfold Pipeline.next Pipeline.finishPath
      dsimp only
      split
      · exact h
      · split
        · exact ⟨fun _ _ => rfl, h.maintenance⟩
        · exact ⟨fun _ _ => rfl, h.maintenance⟩
  | takeJob =>
      unfold Pipeline.next Pipeline.takeJob
      dsimp only
      split
      · exact h.of_same rfl rfl rfl rfl rfl id id
      · exact h
  | finishJob result =>
      unfold Pipeline.next Pipeline.finishJob
      dsimp only
      split
      · exact h
      · exact ⟨h.prepared, fun _ _ => rfl⟩

end Signalled

/-! ### Drains come first -/

/-- A drain is only ever the next action of the emulation thread. -/
def DrainsFirst (actions : List EmuAction) : Prop :=
  .commitOne ∉ actions.tail ∧ .drainMaintenance ∉ actions.tail

/-- Neither of the two drains. -/
def NoDrain (actions : List EmuAction) : Prop :=
  .commitOne ∉ actions ∧ .drainMaintenance ∉ actions

theorem NoDrain.drainsFirst {actions : List EmuAction} (h : NoDrain actions) :
    DrainsFirst actions :=
  ⟨fun hin => h.1 (List.mem_of_mem_tail hin), fun hin => h.2 (List.mem_of_mem_tail hin)⟩

theorem NoDrain.append {actions rest : List EmuAction} (h : NoDrain actions)
    (hrest : NoDrain rest) : NoDrain (actions ++ rest) :=
  ⟨fun hin => (List.mem_append.mp hin).elim h.1 hrest.1,
    fun hin => (List.mem_append.mp hin).elim h.2 hrest.2⟩

theorem noDrain_map {α : Type*} {f : α → EmuAction} (hcommit : ∀ a, f a ≠ .commitOne)
    (hdrain : ∀ a, f a ≠ .drainMaintenance) (l : List α) : NoDrain (l.map f) := by
  refine ⟨fun hin => ?_, fun hin => ?_⟩
  · obtain ⟨a, -, ha⟩ := List.mem_map.mp hin
    exact hcommit a ha
  · obtain ⟨a, -, ha⟩ := List.mem_map.mp hin
    exact hdrain a ha

theorem act_drainsFirst (p : Pipeline) (live : Bool) {rest : List EmuAction} (h : NoDrain rest)
    (action : EmuAction) : DrainsFirst (p.act pathKey live rest action).emulation := by
  cases action with
  | claimPrepared =>
      unfold Pipeline.act
      dsimp only
      split
      · exact h
      · exact h.drainsFirst
  | commitOne =>
      have htaken : NoDrain (p.readyQueue.head?.map EmuAction.admission).toList := by
        cases p.readyQueue with
        | nil => exact ⟨nofun, nofun⟩
        | cons bank banks => exact noDrain_map nofun nofun [bank]
      exact (htaken.append h).drainsFirst
  | admission bank => exact h.drainsFirst
  | claimMaintenance =>
      unfold Pipeline.act
      dsimp only
      split
      · exact h
      · exact h.drainsFirst
  | drainMaintenance => exact ((noDrain_map nofun nofun _).append h).drainsFirst
  | apply result => exact ((noDrain_map nofun nofun _).append h).drainsFirst
  | enqueue path => exact h.drainsFirst

theorem next_drainsFirst {p : Pipeline} (h : DrainsFirst p.emulation) (op : PipelineOp) :
    DrainsFirst (p.next pathKey op).emulation := by
  cases op with
  | poll => exact ⟨nofun, nofun⟩
  | registerCached paths => exact (noDrain_map nofun nofun paths).drainsFirst
  | pushJob job => exact h
  | tier3Entry cpu pc =>
      unfold Pipeline.next
      dsimp only
      split
      · exact h
      · exact h
  | emulate live =>
      unfold Pipeline.next Pipeline.emulate
      dsimp only
      cases hemulation : p.emulation with
      | nil =>
          dsimp only
          rw [hemulation]
          exact ⟨nofun, nofun⟩
      | cons action rest =>
          rw [hemulation] at h
          exact act_drainsFirst p live h action
  | takePath =>
      unfold Pipeline.next Pipeline.takePath
      dsimp only
      split
      · exact h
      · exact h
  | finishPath outcome =>
      unfold Pipeline.next Pipeline.finishPath
      dsimp only
      split
      · exact h
      · split
        · exact h
        · exact h
  | takeJob =>
      unfold Pipeline.next Pipeline.takeJob
      dsimp only
      split
      · exact h
      · exact h
  | finishJob result =>
      unfold Pipeline.next Pipeline.finishJob
      dsimp only
      split
      · exact h
      · exact h

/-! ### Runs -/

structure HandOffSound (s : Session) : Prop where
  handedOver : HandedOver s
  signalled : Signalled s.pipe
  drainsFirst : DrainsFirst s.pipe.emulation

theorem handOff_invariant : (sessionSystem pathKey).Invariant HandOffSound where
  start := by
    rintro s rfl
    exact ⟨⟨rfl, rfl, rfl, rfl, rfl⟩, ⟨fun _ h => by simp at h, fun _ h => absurd rfl h⟩,
      ⟨nofun, nofun⟩⟩
  step s op h hadmits :=
    ⟨h.handedOver.step op, h.signalled.step hadmits, next_drainsFirst h.drainsFirst op⟩

/-- In every state of every session: what was pushed is what came out, in order, with
what is in flight and what is queued; what came out is what was taken, in order, with
what waits; outside a drain whatever waits shows in its flag; and a poll that looks at
the flag then goes on to drain. -/
theorem hand_off_loses_nothing (pathKey : String → String) {s : Session}
    (hs : (sessionSystem pathKey).Reachable s) :
    HandedOver s ∧ Signalled s.pipe ∧
      (∀ rest live, s.pipe.emulation = .claimPrepared :: rest →
        s.pipe.readyQueue ≠ [] ∨ s.pipe.prepareErrors ≠ [] →
        (s.pipe.emulate pathKey live).emulation = .commitOne :: rest) ∧
      ∀ rest live, s.pipe.emulation = .claimMaintenance :: rest → s.pipe.maintResults ≠ [] →
        (s.pipe.emulate pathKey live).emulation = .drainMaintenance :: rest := by
  obtain ⟨hover, hsignalled, hfirst⟩ := hs.invariant handOff_invariant
  refine ⟨hover, hsignalled, ?_, ?_⟩
  · intro rest live hemulation hwaiting
    have hout : EmuAction.commitOne ∉ s.pipe.emulation := by
      rw [hemulation] at hfirst ⊢
      exact fun hin => (List.mem_cons.mp hin).elim nofun hfirst.1
    unfold Pipeline.emulate Pipeline.act
    rw [hemulation]
    dsimp only
    rw [if_pos (hsignalled.prepared hout hwaiting)]
  · intro rest live hemulation hwaiting
    have hout : EmuAction.drainMaintenance ∉ s.pipe.emulation := by
      rw [hemulation] at hfirst ⊢
      exact fun hin => (List.mem_cons.mp hin).elim nofun hfirst.2
    unfold Pipeline.emulate Pipeline.act
    rw [hemulation]
    dsimp only
    rw [if_pos (hsignalled.maintenance hout hwaiting)]

/-- One cached shard, loaded by the worker while the emulation thread begins a poll. -/
private def oneShard : List PipelineOp :=
  [.registerCached ["shard.so"], .emulate true, .takePath,
    .finishPath (Except.ok (.arm9, [0x02000000])), .poll]

theorem hand_off_loses_nothing_one_shard :
    ((sessionSystem id).runFrom {} oneShard).log.prepared.map Prod.fst = ["shard.so"] ∧
      (((sessionSystem id).runFrom {} oneShard).pipe.emulate id true).emulation =
        [.commitOne, .claimMaintenance] := by
  have hstart : (sessionSystem id).Reachable {} := .start rfl
  have hrun : (sessionSystem id).AdmitsAll {} oneShard :=
    ⟨⟨rfl, by decide⟩, List.cons_ne_nil _ _, ⟨rfl, List.cons_ne_nil _ _⟩, Option.some_ne_none _,
      rfl, trivial⟩
  obtain ⟨hover, -, hclaim, -⟩ := hand_off_loses_nothing id (hstart.runFrom hrun)
  refine ⟨?_, hclaim [.claimMaintenance] true (by decide) (by decide)⟩
  have hpaths := hover.paths
  have hout : ((sessionSystem id).runFrom {} oneShard).pipe.inFlight.toList ++
      ((sessionSystem id).runFrom {} oneShard).pipe.prepareQueue = [] := by decide
  rw [hout, List.append_nil] at hpaths
  rw [← hpaths]
  decide

end NdsRecomp.LiveOverlay
