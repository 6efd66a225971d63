import NdsRecomp.Library.KeyedList
import NdsRecomp.LiveOverlay.HandOff

/-!
A shard deferred because its guest code was not resident can come back: by a
Tier-3 entry on one of its pages, or by the next walk of the cache. This holds
as long as the registry has room for every deferral and no deferred shard fails
a later preparation; such a failure carries no key, and its record stays marked
as queued again for good.
-/

namespace NdsRecomp.LiveOverlay

open Bus Library

/-! ### Deferred shards -/

/-- The pipeline with the keys that were deferred and not admitted since. -/
structure Deferrals where
  pipe : Pipeline := {}
  deferred : List String := []

namespace Deferrals

variable (pathKey : String → String)

/-- Admission decides for every prepared bank: deferred, or handed to the commit. -/
def note (s : Deferrals) : PipelineOp → List String
  | .emulate live =>
      match s.pipe.emulation with
      | .admission bank :: _ =>
          if live then s.deferred.filter fun key => key != pathKey bank.path
          else pathKey bank.path :: s.deferred
      | _ => s.deferred
  | _ => s.deferred

end Deferrals

def deferralSystem (pathKey : String → String) : OpSystem Deferrals PipelineOp where
  initial := fun s => s = {}
  admits := fun s op => s.pipe.admits op
  next := fun s op => { pipe := s.pipe.next pathKey op, deferred := s.note pathKey op }

/-- No deferral meets a full registry, and no deferred shard fails a preparation. -/
def KeepsReturn (pathKey : String → String) (s : Deferrals) : PipelineOp → Prop
  | .emulate live =>
      ∀ bank rest, s.pipe.emulation = .admission bank :: rest → live = false →
        (∃ candidate ∈ s.pipe.dormant, candidate.key = pathKey bank.path) ∨
          s.pipe.dormant.length < kDormantMaxCandidates
  | .finishPath outcome =>
      ∀ path error, s.pipe.inFlight = some path → outcome = Except.error error →
        pathKey path ∉ s.deferred
  | _ => True

/-- The path of a bank that waits for its admission. -/
def EmuAction.heldPath : EmuAction → Option String
  | .admission bank => some bank.path
  | _ => none

namespace Pipeline

/-- Everything between the push of a path and the decision about its bank. -/
def underway (p : Pipeline) : List String :=
  p.emulation.filterMap EmuAction.heldPath ++
    (p.readyQueue.map PreparedBank.path ++ (p.inFlight.toList ++ p.prepareQueue))

/-- No prepare work is queued, in flight or waiting to be processed. -/
structure Quiet (p : Pipeline) : Prop where
  prepareQueue : p.prepareQueue = []
  inFlight : p.inFlight = none
  readyQueue : p.readyQueue = []
  prepareErrors : p.prepareErrors = []
  emulation : ∀ bank, EmuAction.admission bank ∉ p.emulation

variable (pathKey : String → String)

/-- The next Tier-3 entry on a page of the record, or the next walk of the cache, queues
the key again. -/
def ComesBack (p : Pipeline) (key : String) : Prop :=
  (∃ candidate ∈ p.dormant, candidate.key = key ∧ candidate.requeued = false ∧
      ∀ pc, candidate.pages.contains (pageOf pc) = true →
        candidate.path ∈ (p.requeueDormantFor candidate.cpu pc).prepareQueue) ∨
    (key ∉ p.queuedPaths ∧
      ∀ path, pathKey path = key → path ∈ (p.enqueueCandidate pathKey path).prepareQueue)

/-- The law of deferred shards. -/
structure CanReturn (p : Pipeline) (deferred : List String) : Prop where
  comesBack : p.Quiet → ∀ key ∈ deferred, p.ComesBack pathKey key
  suppresses : p.Quiet → ∀ cpu pc, p.dormantPageResident cpu pc = true →
    ∃ candidate ∈ p.dormant, DormantCandidate.covers candidate cpu pc = true ∧
      candidate.requeued = false ∧ candidate.path ∈ (p.requeueDormantFor cpu pc).prepareQueue
  unique : (p.dormant.map DormantCandidate.key).Nodup
  attempts : ∀ candidate ∈ p.dormant, candidate.attempts < kDormantMaxAttempts
  once : (p.underway.map pathKey).Nodup

end Pipeline

/-! ### The invariant -/

variable {pathKey : String → String}

/-- The paths the emulation thread may still queue are published libraries. -/
def Named (p : Pipeline) : Prop :=
  (∀ path, EmuAction.enqueue path ∈ p.emulation → path ≠ "") ∧
    (∀ result, EmuAction.apply result ∈ p.emulation → ∀ path ∈ result.candidates, path ≠ "") ∧
    ∀ result ∈ p.maintResults, ∀ path ∈ result.candidates, path ≠ ""

/-- A record of the registry, beside the keys that are underway. -/
structure SoundRecord (pathKey : String → String) (p : Pipeline) (deferred : List String)
    (candidate : DormantCandidate) : Prop where
  key : candidate.key = pathKey candidate.path
  path : candidate.path ≠ ""
  attempts : candidate.attempts < kDormantMaxAttempts
  queued : candidate.key ∈ p.queuedPaths
  requeued : candidate.requeued = true ↔ candidate.key ∈ p.underway.map pathKey
  deferred : candidate.key ∈ deferred

structure Returning (pathKey : String → String) (s : Deferrals) : Prop where
  once : (s.pipe.underway.map pathKey).Nodup
  queued : ∀ key ∈ s.pipe.underway.map pathKey, key ∈ s.pipe.queuedPaths
  nonempty : ∀ path ∈ s.pipe.underway, path ≠ ""
  named : Named s.pipe
  unique : (s.pipe.dormant.map DormantCandidate.key).Nodup
  records : ∀ candidate ∈ s.pipe.dormant, SoundRecord pathKey s.pipe s.deferred candidate
  deferred : ∀ key ∈ s.deferred, key ∈ s.pipe.queuedPaths →
    (∃ candidate ∈ s.pipe.dormant, candidate.key = key) ∨ key ∈ s.pipe.underway.map pathKey

/-! ### From the invariant to the law -/

theorem mem_requeued {p : Pipeline} {candidate : DormantCandidate} {cpu : NdsCpu} {pc : UInt32}
    (hmem : candidate ∈ p.dormant) (hcovers : Pipeline.DormantCandidate.covers candidate cpu pc = true)
    (hidle : candidate.requeued = false) (hpath : candidate.path ≠ "") :
    candidate.path ∈ (p.requeueDormantFor cpu pc).prepareQueue := by
  refine List.mem_append_right _ (List.mem_filter.mpr ⟨List.mem_map.mpr ⟨candidate, ?_, rfl⟩, ?_⟩)
  · exact List.mem_filter.mpr ⟨hmem, by rw [hcovers, hidle]; rfl⟩
  · simpa using hpath

theorem Pipeline.Quiet.underway {p : Pipeline} (h : p.Quiet) : p.underway = [] := by
  have hheld : p.emulation.filterMap EmuAction.heldPath = [] := by
    rw [List.filterMap_eq_nil_iff]
    intro action haction
    cases action with
    | admission bank => exact absurd haction (h.emulation bank)
    | _ => rfl
  unfold Pipeline.underway
  rw [hheld, h.readyQueue, h.inFlight, h.prepareQueue]
  rfl

theorem Returning.canReturn {s : Deferrals} (h : Returning pathKey s) :
    s.pipe.CanReturn pathKey s.deferred := by
  have hidle (hquiet : s.pipe.Quiet) {candidate : DormantCandidate}
      (hmem : candidate ∈ s.pipe.dormant) : candidate.requeued = false := by
    rw [← Bool.not_eq_true, (h.records candidate hmem).requeued, hquiet.underway]
    exact List.not_mem_nil
  refine ⟨?_, ?_, h.unique, fun candidate hmem => (h.records candidate hmem).attempts, h.once⟩
  · intro hquiet key hkey
    by_cases hqueued : key ∈ s.pipe.queuedPaths
    · rcases h.deferred key hkey hqueued with ⟨candidate, hmem, rfl⟩ | hunderway
      · refine .inl ⟨candidate, hmem, rfl, hidle hquiet hmem, fun pc hpage => ?_⟩
        refine mem_requeued hmem ?_ (hidle hquiet hmem) (h.records candidate hmem).path
        unfold Pipeline.DormantCandidate.covers
        rw [hpage]
        simp
      · rw [hquiet.underway] at hunderway
        cases hunderway
    · refine .inr ⟨hqueued, ?_⟩
      rintro path rfl
      unfold Pipeline.enqueueCandidate
      rw [if_neg hqueued]
      exact List.mem_append_right _ List.mem_cons_self
  · intro hquiet cpu pc hresident
    obtain ⟨candidate, hmem, hcovers⟩ := List.any_eq_true.mp hresident
    exact ⟨candidate, hmem, hcovers, hidle hquiet hmem,
      mem_requeued hmem hcovers (hidle hquiet hmem) (h.records candidate hmem).path⟩

/-! ### Steps that leave the registry -/

namespace Returning

variable {s s' : Deferrals}

theorem congr (h : Returning pathKey s) (hdormant : s'.pipe.dormant = s.pipe.dormant)
    (hqueued : s'.pipe.queuedPaths = s.pipe.queuedPaths) (hdeferred : s'.deferred = s.deferred)
    (hunderway : s'.pipe.underway.Perm s.pipe.underway) (hnamed : Named s'.pipe) :
    Returning pathKey s' := by
  have hkeys := hunderway.map pathKey
  refine ⟨hkeys.nodup_iff.mpr h.once, ?_, ?_, hnamed, hdormant ▸ h.unique, ?_, ?_⟩
  · intro key hkey
    rw [hqueued]
    exact h.queued key (hkeys.mem_iff.mp hkey)
  · intro path hpath
    exact h.nonempty path (hunderway.mem_iff.mp hpath)
  · intro candidate hmem
    rw [hdormant] at hmem
    have hrecord := h.records candidate hmem
    exact ⟨hrecord.key, hrecord.path, hrecord.attempts, hqueued ▸ hrecord.queued,
      hrecord.requeued.trans hkeys.mem_iff.symm, hdeferred ▸ hrecord.deferred⟩
  · intro key hkey hin
    rw [hdeferred] at hkey
    rw [hqueued] at hin
    rw [hdormant]
    exact (h.deferred key hkey hin).imp id hkeys.mem_iff.mpr

/-- The emulation thread moves on; what it holds for admission stays. -/
theorem emulation (h : Returning pathKey s) (actions : List EmuAction)
    (hheld : actions.filterMap EmuAction.heldPath = s.pipe.emulation.filterMap EmuAction.heldPath)
    (hnamed : Named { s.pipe with emulation := actions }) (flag flag' : Bool)
    (results : List MaintenanceResult) (hresults : ∀ result ∈ results, result ∈ s.pipe.maintResults) :
    Returning pathKey
      { s with
        pipe := { s.pipe with
          emulation := actions
          prepareResultsReady := flag
          maintResults := results
          maintResultsReady := flag' } } := by
  refine h.congr rfl rfl rfl ?_ ?_
  · change (actions.filterMap EmuAction.heldPath ++ _).Perm _
    rw [hheld]
    exact List.Perm.refl _
  · exact ⟨hnamed.1, hnamed.2.1, fun result hresult => hnamed.2.2 result (hresults result hresult)⟩

/-- A path comes onto the prepare queue for a key nobody knows. -/
theorem enqueue (h : Returning pathKey s) {path : String} (hpath : path ≠ "")
    (hnew : pathKey path ∉ s.pipe.queuedPaths) :
    Returning pathKey
      { s with
        pipe := { s.pipe with
          queuedPaths := pathKey path :: s.pipe.queuedPaths
          prepareQueue := s.pipe.prepareQueue ++ [path] } } := by
  have hunderway : ({ s.pipe with
      queuedPaths := pathKey path :: s.pipe.queuedPaths
      prepareQueue := s.pipe.prepareQueue ++ [path] } : Pipeline).underway =
        s.pipe.underway ++ [path] := by
    unfold Pipeline.underway
    simp only [List.append_assoc]
  have hkeys : (({ s.pipe with
      queuedPaths := pathKey path :: s.pipe.queuedPaths
      prepareQueue := s.pipe.prepareQueue ++ [path] } : Pipeline).underway.map pathKey) =
        s.pipe.underway.map pathKey ++ [pathKey path] := by
    rw [hunderway, List.map_append, List.map_singleton]
  refine ⟨?_, ?_, ?_, h.named, h.unique, ?_, ?_⟩
  · rw [hkeys]
    refine List.nodup_append.mpr ⟨h.once, List.nodup_singleton _, ?_⟩
    intro key hkey key' hkey' hsame
    rw [List.mem_singleton.mp hkey'] at hsame
    exact hnew (hsame ▸ h.queued key hkey)
  · intro key hkey
    rw [hkeys] at hkey
    rcases List.mem_append.mp hkey with hold | hlast
    · exact List.mem_cons_of_mem _ (h.queued key hold)
    · rw [List.mem_singleton.mp hlast]
      exact List.mem_cons_self
  · intro path' hpath'
    rw [hunderway] at hpath'
    rcases List.mem_append.mp hpath' with hold | hlast
    · exact h.nonempty path' hold
    · rw [List.mem_singleton.mp hlast]
      exact hpath
  · intro candidate hmem
    have hrecord := h.records candidate hmem
    refine ⟨hrecord.key, hrecord.path, hrecord.attempts, List.mem_cons_of_mem _ hrecord.queued,
      hrecord.requeued.trans ?_, hrecord.deferred⟩
    rw [hkeys, List.mem_append, List.mem_singleton]
    refine ⟨Or.inl, fun hin => hin.resolve_right fun hsame => hnew ?_⟩
    rw [← hsame]
    exact hrecord.queued
  · intro key hkey hin
    rw [hkeys, List.mem_append, List.mem_singleton]
    rcases List.mem_cons.mp hin with hsame | hold
    · exact .inr (.inr hsame)
    · exact (h.deferred key hkey hold).imp id Or.inl

/-- A preparation fails for a key that was never deferred. -/
theorem failed (h : Returning pathKey s) {path : String} (hflight : s.pipe.inFlight = some path)
    (hfresh : pathKey path ∉ s.deferred) (errors : List PreparedError) (flag : Bool) :
    Returning pathKey
      { s with
        pipe := { s.pipe with
          prepareErrors := errors
          inFlight := none
          prepareResultsReady := flag } } := by
  have hbefore : s.pipe.underway.Perm (path :: ({ s.pipe with
      prepareErrors := errors, inFlight := none, prepareResultsReady := flag } : Pipeline).underway) := by
    unfold Pipeline.underway
    dsimp only
    rw [hflight]
    simp only [Option.toList_some, Option.toList_none, List.nil_append, List.singleton_append]
    rw [← List.append_assoc, ← List.append_assoc]
    exact List.perm_middle
  have hkeys := hbefore.map pathKey
  rw [List.map_cons] at hkeys
  obtain ⟨hgone, hrest⟩ := List.nodup_cons.mp (hkeys.nodup_iff.mp h.once)
  refine ⟨hrest, ?_, ?_, h.named, h.unique, ?_, ?_⟩
  · intro key hkey
    exact h.queued key (hkeys.mem_iff.mpr (List.mem_cons_of_mem _ hkey))
  · intro path' hpath'
    exact h.nonempty path' (hbefore.mem_iff.mpr (List.mem_cons_of_mem _ hpath'))
  · intro candidate hmem
    have hrecord := h.records candidate hmem
    refine ⟨hrecord.key, hrecord.path, hrecord.attempts, hrecord.queued,
      hrecord.requeued.trans (hkeys.mem_iff.trans ?_), hrecord.deferred⟩
    rw [List.mem_cons]
    exact or_iff_right fun hsame => hfresh (hsame ▸ hrecord.deferred)
  · intro key hkey hin
    refine (h.deferred key hkey hin).imp id fun hunderway => ?_
    refine (List.mem_cons.mp (hkeys.mem_iff.mp hunderway)).resolve_left fun hsame => ?_
    exact hfresh (hsame ▸ hkey)

end Returning

/-! ### The registry -/

/-- A record noted anew for its bank. -/
def renoted (candidate : DormantCandidate) (bank : PreparedBank) : DormantCandidate :=
  { candidate with pages := bank.pages, requeued := false, attempts := candidate.attempts + 1 }

/-- What `note_dormant_candidate` does where it finds or makes a record. -/
structure Noted (pathKey : String → String) (p p' : Pipeline) (bank : PreparedBank)
    (candidate : DormantCandidate) : Prop where
  key : candidate.key = pathKey bank.path
  origin : candidate ∈ p.dormant ∨ (candidate.path = bank.path ∧ candidate.attempts = 0)
  unique : (p'.dormant.map DormantCandidate.key).Nodup
  outcome :
    (kDormantMaxAttempts ≤ candidate.attempts + 1 ∧
      p'.queuedPaths = p.queuedPaths.filter (fun queued => queued != pathKey bank.path) ∧
      ∀ other, other ∈ p'.dormant ↔ other ∈ p.dormant ∧ other.key ≠ pathKey bank.path) ∨
    (candidate.attempts + 1 < kDormantMaxAttempts ∧ p'.queuedPaths = p.queuedPaths ∧
      ∀ other, other ∈ p'.dormant ↔
        other = renoted candidate bank ∨ (other ∈ p.dormant ∧ other.key ≠ pathKey bank.path))

theorem noteDormantCandidate_noted {p : Pipeline} {bank : PreparedBank}
    (hunique : (p.dormant.map DormantCandidate.key).Nodup)
    (hroom : (∃ candidate ∈ p.dormant, candidate.key = pathKey bank.path) ∨
      p.dormant.length < kDormantMaxCandidates) :
    ∃ candidate, Noted pathKey p (p.noteDormantCandidate pathKey bank) bank candidate := by
  let index := keyIdx DormantCandidate.key (pathKey bank.path) p.dormant
  let fresh : DormantCandidate := { key := pathKey bank.path, path := bank.path, cpu := bank.cpu }
  -- the registry with the record it works on
  obtain ⟨dormant, hdormant, hnodup, hmem, horigin⟩ : ∃ dormant : List DormantCandidate,
      (if index = p.dormant.length ∧ p.dormant.length < kDormantMaxCandidates then
        p.dormant ++ [fresh] else p.dormant) = dormant ∧
      (dormant.map DormantCandidate.key).Nodup ∧
      (∃ candidate ∈ dormant, candidate.key = pathKey bank.path) ∧
      keyIdx DormantCandidate.key (pathKey bank.path) dormant = index ∧
      (∀ other ∈ dormant, other ∈ p.dormant ∨ other = fresh) ∧
      ∀ other ∈ p.dormant, other ∈ dormant := by
    by_cases hfound : ∃ candidate ∈ p.dormant, candidate.key = pathKey bank.path
    · have hindex : index ≠ p.dormant.length := by
        rw [Ne, keyIdx_eq_length]
        obtain ⟨candidate, hcandidate, hkey⟩ := hfound
        exact fun hnone => hnone candidate hcandidate hkey
      exact ⟨p.dormant, if_neg fun h => hindex h.1, hunique, hfound, rfl,
        fun other hother => .inl hother, fun other hother => hother⟩
    · have hnone : ∀ candidate ∈ p.dormant, candidate.key ≠ pathKey bank.path :=
        fun candidate hcandidate hkey => hfound ⟨candidate, hcandidate, hkey⟩
      have hindex : index = p.dormant.length := keyIdx_eq_length.mpr hnone
      refine ⟨p.dormant ++ [fresh], if_pos ⟨hindex, hroom.resolve_left hfound⟩, ?_,
        ⟨fresh, List.mem_append_right _ List.mem_cons_self, rfl⟩, ?_, ?_,
        fun other hother => List.mem_append_left _ hother⟩
      · rw [List.map_append, List.map_singleton]
        refine List.nodup_append.mpr ⟨hunique, List.nodup_singleton _, ?_⟩
        intro key hkey key' hkey' hsame
        obtain ⟨candidate, hcandidate, rfl⟩ := List.mem_map.mp hkey
        rw [List.mem_singleton.mp hkey'] at hsame
        exact hnone candidate hcandidate hsame
      · exact (keyIdx_append_new hnone rfl).trans hindex.symm
      · intro other hother
        exact (List.mem_append.mp hother).imp id List.mem_singleton.mp
  obtain ⟨hindex, hfrom, hinto⟩ := horigin
  obtain ⟨candidate, hget⟩ := getElem?_keyIdx_isSome hmem
  obtain ⟨hcandidate, hkey⟩ := getElem?_keyIdx hget
  -- away from the key both registries have the same records
  have hother (other : DormantCandidate) : other ∈ dormant ∧ other.key ≠ pathKey bank.path ↔
      other ∈ p.dormant ∧ other.key ≠ pathKey bank.path := by
    constructor
    · rintro ⟨hin, hne⟩
      rcases hfrom other hin with hold | rfl
      · exact ⟨hold, hne⟩
      · exact absurd rfl hne
    · exact fun ⟨hin, hne⟩ => ⟨hinto other hin, hne⟩
  have hnote : p.noteDormantCandidate pathKey bank =
      if kDormantMaxAttempts ≤ candidate.attempts + 1 then
        { p with
          queuedPaths := p.queuedPaths.filter fun queued => queued != pathKey bank.path
          dormant := dormant.eraseIdx index }
      else { p with dormant := dormant.set index (renoted candidate bank) } := by
    have hregistry : (if (p.dormant.findIdx fun candidate => candidate.key == pathKey bank.path) =
        p.dormant.length ∧ p.dormant.length < kDormantMaxCandidates then
          p.dormant ++ [{ key := pathKey bank.path, path := bank.path, cpu := bank.cpu }]
        else p.dormant) = dormant := hdormant
    have hrecord : dormant[p.dormant.findIdx fun candidate => candidate.key == pathKey bank.path]? =
        some candidate := by
      rw [hindex] at hget
      exact hget
    unfold Pipeline.noteDormantCandidate
    dsimp only
    rw [hregistry, hrecord]
    rfl
  refine ⟨candidate, hkey, ?_, ?_, ?_⟩
  · rcases hfrom candidate hcandidate with hold | rfl
    · exact .inl hold
    · exact .inr ⟨rfl, rfl⟩
  · rw [hnote]
    split
    · exact ((List.eraseIdx_sublist _ _).map _).nodup hnodup
    · change ((dormant.set index (renoted candidate bank)).map DormantCandidate.key).Nodup
      rw [← hindex, map_set_keyIdx (show (renoted candidate bank).key = _ from hkey)]
      exact hnodup
  · rw [hnote]
    by_cases hmax : kDormantMaxAttempts ≤ candidate.attempts + 1
    · rw [if_pos hmax]
      refine .inl ⟨hmax, rfl, fun other => ?_⟩
      rw [← hother, ← hindex]
      exact mem_eraseIdx_keyIdx hnodup
    · rw [if_neg hmax]
      refine .inr ⟨Nat.not_le.mp hmax, rfl, fun other => ?_⟩
      rw [← hother, ← hindex]
      exact mem_set_keyIdx hnodup (show (renoted candidate bank).key = _ from hkey) hmem

/-! ### Admission -/

/-- The state with its head action done. -/
def Deferrals.admitted (pathKey : String → String) (s : Deferrals) (bank : PreparedBank)
    (live : Bool) (rest : List EmuAction) : Deferrals :=
  { pipe := { s.pipe.admitPreparedBank pathKey bank live with emulation := rest }
    deferred :=
      if live then s.deferred.filter fun key => key != pathKey bank.path
      else pathKey bank.path :: s.deferred }

namespace Returning

variable {s : Deferrals} {bank : PreparedBank} {rest : List EmuAction}

/-- With the bank decided, its key is no longer underway. -/
theorem underway_head (hemulation : s.pipe.emulation = .admission bank :: rest) :
    s.pipe.underway = bank.path :: ({ s.pipe with emulation := rest } : Pipeline).underway := by
  unfold Pipeline.underway
  rw [hemulation]
  rfl

theorem named_rest (h : Named s.pipe) {action : EmuAction}
    (hemulation : s.pipe.emulation = action :: rest) :
    Named { s.pipe with emulation := rest } := by
  obtain ⟨henqueue, happly, hresults⟩ := h
  rw [hemulation] at henqueue happly
  exact ⟨fun path hin => henqueue path (List.mem_cons_of_mem _ hin),
    fun result hin => happly result (List.mem_cons_of_mem _ hin), hresults⟩

/-- The guest code is resident: the record goes, the key stays known. -/
theorem cleared (h : Returning pathKey s)
    (hemulation : s.pipe.emulation = .admission bank :: rest) :
    Returning pathKey (s.admitted pathKey bank true rest) := by
  have hhead := underway_head hemulation
  have hunderway : (s.admitted pathKey bank true rest).pipe.underway =
      ({ s.pipe with emulation := rest } : Pipeline).underway := rfl
  have hkeys : s.pipe.underway.map pathKey =
      pathKey bank.path :: (s.admitted pathKey bank true rest).pipe.underway.map pathKey := by
    rw [hhead, List.map_cons, hunderway]
  have honce := h.once
  rw [hkeys] at honce
  obtain ⟨hgone, hrest⟩ := List.nodup_cons.mp honce
  have hmem (candidate : DormantCandidate) :
      candidate ∈ (s.admitted pathKey bank true rest).pipe.dormant ↔
        candidate ∈ s.pipe.dormant ∧ candidate.key ≠ pathKey bank.path := by
    change candidate ∈ s.pipe.dormant.eraseP (fun c => c.key == pathKey bank.path) ↔ _
    rw [eraseP_eq_eraseIdx_keyIdx]
    exact mem_eraseIdx_keyIdx h.unique
  refine ⟨hrest, ?_, ?_, named_rest h.named hemulation, ?_, ?_, ?_⟩
  · intro key hkey
    exact h.queued key (hkeys ▸ List.mem_cons_of_mem _ hkey)
  · intro path hpath
    exact h.nonempty path (hhead ▸ List.mem_cons_of_mem _ hpath)
  · exact ((List.eraseP_sublist).map _).nodup h.unique
  · intro candidate hcandidate
    obtain ⟨hold, hne⟩ := (hmem candidate).mp hcandidate
    have hrecord := h.records candidate hold
    refine ⟨hrecord.key, hrecord.path, hrecord.attempts, hrecord.queued, ?_, ?_⟩
    · rw [hrecord.requeued, hkeys, List.mem_cons]
      exact or_iff_right hne
    · exact List.mem_filter.mpr ⟨hrecord.deferred, by simpa using hne⟩
  · intro key hkey hin
    obtain ⟨hold, hne⟩ := List.mem_filter.mp hkey
    have hne : key ≠ pathKey bank.path := by simpa using hne
    rcases h.deferred key hold hin with ⟨candidate, hcandidate, rfl⟩ | hunder
    · exact .inl ⟨candidate, (hmem candidate).mpr ⟨hcandidate, hne⟩, rfl⟩
    · rw [hkeys] at hunder
      exact .inr ((List.mem_cons.mp hunder).resolve_left hne)

/-- It is not: the record is made or renewed, or record and key go together. -/
theorem deferredNow (h : Returning pathKey s)
    (hemulation : s.pipe.emulation = .admission bank :: rest)
    (hroom : (∃ candidate ∈ s.pipe.dormant, candidate.key = pathKey bank.path) ∨
      s.pipe.dormant.length < kDormantMaxCandidates) :
    Returning pathKey (s.admitted pathKey bank false rest) := by
  have hhead := underway_head hemulation
  have hsame := noteDormantCandidate_sameHandOff pathKey s.pipe bank
  have hunderway : (s.admitted pathKey bank false rest).pipe.underway =
      ({ s.pipe with emulation := rest } : Pipeline).underway := by
    unfold Pipeline.underway
    change rest.filterMap _ ++
      ((s.pipe.noteDormantCandidate pathKey bank).readyQueue.map _ ++
        ((s.pipe.noteDormantCandidate pathKey bank).inFlight.toList ++
          (s.pipe.noteDormantCandidate pathKey bank).prepareQueue)) = _
    rw [hsame.readyQueue, hsame.inFlight, hsame.prepareQueue]
  have hkeys : s.pipe.underway.map pathKey =
      pathKey bank.path :: (s.admitted pathKey bank false rest).pipe.underway.map pathKey := by
    rw [hhead, List.map_cons, hunderway]
  have honce := h.once
  rw [hkeys] at honce
  obtain ⟨hgone, hrest⟩ := List.nodup_cons.mp honce
  have hbankQueued : pathKey bank.path ∈ s.pipe.queuedPaths :=
    h.queued _ (hkeys ▸ List.mem_cons_self)
  have hbankPath : bank.path ≠ "" := h.nonempty _ (hhead ▸ List.mem_cons_self)
  obtain ⟨candidate, hnoted⟩ := noteDormantCandidate_noted h.unique hroom
  have hnamed : Named (s.admitted pathKey bank false rest).pipe := by
    obtain ⟨henqueue, happly, hresults⟩ := named_rest h.named hemulation
    refine ⟨henqueue, happly, fun result hresult => hresults result ?_⟩
    change result ∈ (s.pipe.noteDormantCandidate pathKey bank).maintResults at hresult
    rwa [hsame.maintResults] at hresult
  -- a record of another key stays sound
  have hother {queuedPaths : List String} {other : DormantCandidate}
      (hqueuedPaths : other.key ∈ queuedPaths)
      (hq : (s.admitted pathKey bank false rest).pipe.queuedPaths = queuedPaths)
      (hold : other ∈ s.pipe.dormant) (hne : other.key ≠ pathKey bank.path) :
      SoundRecord pathKey (s.admitted pathKey bank false rest).pipe
        (s.admitted pathKey bank false rest).deferred other := by
    have hrecord := h.records other hold
    refine ⟨hrecord.key, hrecord.path, hrecord.attempts, hq ▸ hqueuedPaths, ?_,
      List.mem_cons_of_mem _ hrecord.deferred⟩
    rw [hrecord.requeued, hkeys, List.mem_cons]
    exact or_iff_right hne
  rcases hnoted.outcome with ⟨-, hqueuedPaths, hmem⟩ | ⟨hattempts, hqueuedPaths, hmem⟩
  · have hstays {key : String} (hne : key ≠ pathKey bank.path) (hin : key ∈ s.pipe.queuedPaths) :
        key ∈ s.pipe.queuedPaths.filter fun queued => queued != pathKey bank.path :=
      List.mem_filter.mpr ⟨hin, by simpa using hne⟩
    refine ⟨hrest, ?_, ?_, hnamed, hnoted.unique, ?_, ?_⟩
    · intro key hkey
      change key ∈ (s.pipe.noteDormantCandidate pathKey bank).queuedPaths
      rw [hqueuedPaths]
      exact hstays (fun hsame => hgone (hsame ▸ hkey))
        (h.queued key (hkeys ▸ List.mem_cons_of_mem _ hkey))
    · intro path hpath
      rw [hunderway] at hpath
      exact h.nonempty path (hhead ▸ List.mem_cons_of_mem _ hpath)
    · intro other hin
      obtain ⟨hold, hne⟩ := (hmem other).mp hin
      exact hother (hstays hne (h.records other hold).queued) hqueuedPaths hold hne
    · intro key hkey hin
      change key ∈ (s.pipe.noteDormantCandidate pathKey bank).queuedPaths at hin
      rw [hqueuedPaths] at hin
      obtain ⟨hold, hne⟩ := List.mem_filter.mp hin
      have hne : key ≠ pathKey bank.path := by simpa using hne
      have hbefore := (List.mem_cons.mp hkey).resolve_left hne
      rcases h.deferred key hbefore hold with ⟨other, hmember, rfl⟩ | hunder
      · exact .inl ⟨other, (hmem other).mpr ⟨hmember, hne⟩, rfl⟩
      · rw [hkeys] at hunder
        exact .inr ((List.mem_cons.mp hunder).resolve_left hne)
  · refine ⟨hrest, ?_, ?_, hnamed, hnoted.unique, ?_, ?_⟩
    · intro key hkey
      change key ∈ (s.pipe.noteDormantCandidate pathKey bank).queuedPaths
      rw [hqueuedPaths]
      exact h.queued key (hkeys ▸ List.mem_cons_of_mem _ hkey)
    · intro path hpath
      rw [hunderway] at hpath
      exact h.nonempty path (hhead ▸ List.mem_cons_of_mem _ hpath)
    · intro other hin
      rcases (hmem other).mp hin with rfl | ⟨hold, hne⟩
      · have hplace : candidate.key = pathKey candidate.path ∧ candidate.path ≠ "" := by
          rcases hnoted.origin with hold | ⟨hpath, -⟩
          · exact ⟨(h.records candidate hold).key, (h.records candidate hold).path⟩
          · rw [hpath]
            exact ⟨hnoted.key, hbankPath⟩
        refine ⟨hplace.1, hplace.2, hattempts, ?_, iff_of_false Bool.false_ne_true ?_, ?_⟩
        · change candidate.key ∈ (s.pipe.noteDormantCandidate pathKey bank).queuedPaths
          rw [hqueuedPaths, hnoted.key]
          exact hbankQueued
        · change candidate.key ∉ _
          rw [hnoted.key]
          exact hgone
        · change candidate.key ∈ pathKey bank.path :: s.deferred
          rw [hnoted.key]
          exact List.mem_cons_self
      · exact hother (h.records other hold).queued hqueuedPaths hold hne
    · intro key hkey hin
      change key ∈ (s.pipe.noteDormantCandidate pathKey bank).queuedPaths at hin
      rw [hqueuedPaths] at hin
      by_cases hsame : key = pathKey bank.path
      · exact .inl ⟨renoted candidate bank, (hmem _).mpr (.inl rfl), hnoted.key.trans hsame.symm⟩
      · have hbefore := (List.mem_cons.mp hkey).resolve_left hsame
        rcases h.deferred key hbefore hin with ⟨other, hmember, rfl⟩ | hunder
        · exact .inl ⟨other, (hmem other).mpr (.inr ⟨hmember, hsame⟩), rfl⟩
        · rw [hkeys] at hunder
          exact .inr ((List.mem_cons.mp hunder).resolve_left hsame)

end Returning

/-! ### Tier-3 entries -/

/-- A record after a Tier-3 entry. -/
def requeuedAt (cpu : NdsCpu) (pc : UInt32) (candidate : DormantCandidate) : DormantCandidate :=
  if Pipeline.DormantCandidate.covers candidate cpu pc then { candidate with requeued := true }
  else candidate

theorem requeuedAt_fields (cpu : NdsCpu) (pc : UInt32) (candidate : DormantCandidate) :
    (requeuedAt cpu pc candidate).key = candidate.key ∧
      (requeuedAt cpu pc candidate).path = candidate.path ∧
      (requeuedAt cpu pc candidate).attempts = candidate.attempts ∧
      ((requeuedAt cpu pc candidate).requeued = true ↔
        Pipeline.DormantCandidate.covers candidate cpu pc = true ∨ candidate.requeued = true) := by
  unfold requeuedAt
  by_cases hcovers : Pipeline.DormantCandidate.covers candidate cpu pc = true
  · rw [if_pos hcovers]
    exact ⟨rfl, rfl, rfl, iff_of_true rfl (.inl hcovers)⟩
  · rw [if_neg hcovers]
    exact ⟨rfl, rfl, rfl, (or_iff_right hcovers).symm⟩

namespace Returning

variable {s : Deferrals}

/-- The keys pushed by a Tier-3 entry are those of the idle records on its page. -/
theorem requeued_keys (h : Returning pathKey s) (cpu : NdsCpu) (pc : UInt32) :
    (s.pipe.requeuedPaths cpu pc).map pathKey =
      (s.pipe.dormant.filter fun candidate =>
        Pipeline.DormantCandidate.covers candidate cpu pc && !candidate.requeued).map
          DormantCandidate.key := by
  unfold Pipeline.requeuedPaths
  rw [List.filter_eq_self.mpr, List.map_map]
  · refine List.map_congr_left fun candidate hcandidate => ?_
    exact (h.records candidate (List.mem_filter.mp hcandidate).1).key.symm
  · intro path hpath
    obtain ⟨candidate, hcandidate, rfl⟩ := List.mem_map.mp hpath
    have hpath := (h.records candidate (List.mem_filter.mp hcandidate).1).path
    simpa using hpath

theorem mem_requeued_keys (h : Returning pathKey s) {cpu : NdsCpu} {pc : UInt32} {key : String} :
    key ∈ (s.pipe.requeuedPaths cpu pc).map pathKey ↔
      ∃ candidate ∈ s.pipe.dormant, candidate.key = key ∧
        Pipeline.DormantCandidate.covers candidate cpu pc = true ∧ candidate.requeued = false := by
  rw [h.requeued_keys, List.mem_map]
  constructor
  · rintro ⟨candidate, hcandidate, rfl⟩
    obtain ⟨hmem, hidle⟩ := List.mem_filter.mp hcandidate
    rw [Bool.and_eq_true, Bool.not_eq_true'] at hidle
    exact ⟨candidate, hmem, rfl, hidle.1, hidle.2⟩
  · rintro ⟨candidate, hmem, rfl, hcovers, hidle⟩
    exact ⟨candidate, List.mem_filter.mpr ⟨hmem, by rw [hcovers, hidle]; rfl⟩, rfl⟩

theorem requeue (h : Returning pathKey s) (cpu : NdsCpu) (pc : UInt32) :
    Returning pathKey { s with pipe := s.pipe.requeueDormantFor cpu pc } := by
  have hunderway : (s.pipe.requeueDormantFor cpu pc).underway =
      s.pipe.underway ++ s.pipe.requeuedPaths cpu pc := by
    unfold Pipeline.underway Pipeline.requeueDormantFor
    simp only [List.append_assoc]
  have hkeys : (s.pipe.requeueDormantFor cpu pc).underway.map pathKey =
      s.pipe.underway.map pathKey ++ (s.pipe.requeuedPaths cpu pc).map pathKey := by
    rw [hunderway, List.map_append]
  have hdormant : (s.pipe.requeueDormantFor cpu pc).dormant =
      s.pipe.dormant.map (requeuedAt cpu pc) := rfl
  have hrecordKeys : (s.pipe.requeueDormantFor cpu pc).dormant.map DormantCandidate.key =
      s.pipe.dormant.map DormantCandidate.key := by
    rw [hdormant, List.map_map]
    exact List.map_congr_left fun candidate _ => (requeuedAt_fields cpu pc candidate).1
  refine ⟨?_, ?_, ?_, h.named, ?_, ?_, ?_⟩
  · rw [hkeys]
    refine List.nodup_append.mpr ⟨h.once, ?_, ?_⟩
    · rw [h.requeued_keys]
      exact (List.filter_sublist.map _).nodup h.unique
    · intro key hkey key' hkey' hsame
      obtain ⟨candidate, hmem, hcandidate, -, hidle⟩ := h.mem_requeued_keys.mp hkey'
      have hin := (h.records candidate hmem).requeued.mpr (by rw [hcandidate, ← hsame]; exact hkey)
      rw [hidle] at hin
      cases hin
  · intro key hkey
    rw [hkeys] at hkey
    rcases List.mem_append.mp hkey with hold | hnew
    · exact h.queued key hold
    · obtain ⟨candidate, hmem, rfl, -⟩ := h.mem_requeued_keys.mp hnew
      exact (h.records candidate hmem).queued
  · intro path hpath
    rw [hunderway] at hpath
    rcases List.mem_append.mp hpath with hold | hnew
    · exact h.nonempty path hold
    · have hne := (List.mem_filter.mp hnew).2
      simpa using hne
  · rw [hrecordKeys]
    exact h.unique
  · intro candidate hcandidate
    rw [hdormant] at hcandidate
    obtain ⟨before, hmem, rfl⟩ := List.mem_map.mp hcandidate
    obtain ⟨hkey, hpath, hattempts, hrequeued⟩ := requeuedAt_fields cpu pc before
    have hrecord := h.records before hmem
    refine ⟨?_, ?_, ?_, ?_, ?_, ?_⟩
    · rw [hkey, hpath, hrecord.key]
    · rw [hpath]
      exact hrecord.path
    · rw [hattempts]
      exact hrecord.attempts
    · rw [hkey]
      exact hrecord.queued
    · rw [hrequeued, hkey, hkeys, List.mem_append, ← hrecord.requeued, h.mem_requeued_keys]
      constructor
      · rintro (hcovers | hbefore)
        · cases hidle : before.requeued with
          | true => exact .inl rfl
          | false => exact .inr ⟨before, hmem, rfl, hcovers, hidle⟩
        · exact .inl hbefore
      · rintro (hbefore | ⟨candidate, hcandidate, hsame, hcovers, -⟩)
        · exact .inr hbefore
        · have heq := List.inj_on_of_nodup_map h.unique hcandidate hmem hsame
          exact .inl (heq ▸ hcovers)
    · rw [hkey]
      exact hrecord.deferred
  · intro key hkey hin
    rw [hkeys, List.mem_append]
    rcases h.deferred key hkey hin with ⟨candidate, hmem, rfl⟩ | hunder
    · refine .inl ⟨requeuedAt cpu pc candidate, ?_, (requeuedAt_fields cpu pc candidate).1⟩
      rw [hdormant]
      exact List.mem_map_of_mem hmem
    · exact .inr (.inl hunder)

end Returning

/-! ### Steps -/

namespace Returning

variable {s : Deferrals}

theorem commitOne (h : Returning pathKey s) {rest : List EmuAction}
    (hemulation : s.pipe.emulation = .commitOne :: rest) :
    Returning pathKey { s with pipe := s.pipe.commitOne rest } := by
  obtain ⟨henqueue, happly, hresults⟩ := named_rest h.named hemulation
  have hnamed : Named (s.pipe.commitOne rest) := by
    refine ⟨fun path hin => henqueue path ?_, fun result hin => happly result ?_, hresults⟩
    · refine (List.mem_append.mp hin).resolve_left fun hhead => ?_
      cases hready : s.pipe.readyQueue with
      | nil =>
          rw [hready] at hhead
          cases hhead
      | cons bank banks =>
          rw [hready] at hhead
          cases List.mem_singleton.mp hhead
    · refine (List.mem_append.mp hin).resolve_left fun hhead => ?_
      cases hready : s.pipe.readyQueue with
      | nil =>
          rw [hready] at hhead
          cases hhead
      | cons bank banks =>
          rw [hready] at hhead
          cases List.mem_singleton.mp hhead
  refine h.congr rfl rfl rfl ?_ hnamed
  unfold Pipeline.underway Pipeline.commitOne
  rw [hemulation]
  cases s.pipe.readyQueue with
  | nil => exact List.Perm.refl _
  | cons bank banks => exact List.perm_middle.symm

theorem act (h : Returning pathKey s) {rest : List EmuAction} {action : EmuAction}
    (hemulation : s.pipe.emulation = action :: rest) (live : Bool)
    (hkeeps : KeepsReturn pathKey s (.emulate live)) :
    Returning pathKey
      { pipe := s.pipe.act pathKey live rest action
        deferred := s.note pathKey (.emulate live) } := by
  have hnamed := named_rest h.named hemulation
  have hheld (hnone : action.heldPath = none) :
      rest.filterMap EmuAction.heldPath = s.pipe.emulation.filterMap EmuAction.heldPath := by
    rw [hemulation, List.filterMap_cons_none hnone]
  have hquiet (hbank : ∀ bank, action ≠ .admission bank) :
      s.note pathKey (.emulate live) = s.deferred := by
    unfold Deferrals.note
    rw [hemulation]
    cases action with
    | admission bank => exact absurd rfl (hbank bank)
    | _ => rfl
  cases action with
  | claimPrepared =>
      rw [hquiet nofun]
      unfold Pipeline.act
      dsimp only
      split
      · refine h.emulation (.commitOne :: rest) (hheld rfl) ⟨fun path hin => hnamed.1 path ?_,
          fun result hin => hnamed.2.1 result ?_, hnamed.2.2⟩ _ _ _ fun _ hin => hin
        · exact (List.mem_cons.mp hin).resolve_left nofun
        · exact (List.mem_cons.mp hin).resolve_left nofun
      · exact h.emulation rest (hheld rfl) hnamed _ _ _ fun _ hin => hin
  | commitOne =>
      rw [hquiet nofun]
      exact h.commitOne hemulation
  | admission bank =>
      have hnote : s.note pathKey (.emulate live) =
          (s.admitted pathKey bank live rest).deferred := by
        unfold Deferrals.note
        rw [hemulation]
        rfl
      rw [hnote]
      cases live with
      | true => exact h.cleared hemulation
      | false => exact h.deferredNow hemulation (hkeeps bank rest hemulation rfl)
  | claimMaintenance =>
      rw [hquiet nofun]
      unfold Pipeline.act
      dsimp only
      split
      · refine h.emulation (.drainMaintenance :: rest) (hheld rfl) ⟨fun path hin => hnamed.1 path ?_,
          fun result hin => hnamed.2.1 result ?_, hnamed.2.2⟩ _ _ _ fun _ hin => hin
        · exact (List.mem_cons.mp hin).resolve_left nofun
        · exact (List.mem_cons.mp hin).resolve_left nofun
      · exact h.emulation rest (hheld rfl) hnamed _ _ _ fun _ hin => hin
  | drainMaintenance =>
      rw [hquiet nofun]
      have hnothing : (s.pipe.maintResults.map EmuAction.apply).filterMap EmuAction.heldPath = [] := by
        rw [List.filterMap_eq_nil_iff]
        intro action haction
        obtain ⟨result, -, rfl⟩ := List.mem_map.mp haction
        rfl
      refine h.emulation (s.pipe.maintResults.map EmuAction.apply ++ rest) ?_ ⟨fun path hin => hnamed.1 path ?_, fun result hin => ?_, hnamed.2.2⟩
        _ _ [] (fun _ hin => absurd hin List.not_mem_nil)
      · rw [List.filterMap_append, hnothing]
        exact hheld rfl
      · refine (List.mem_append.mp hin).resolve_left fun happly => ?_
        obtain ⟨result, -, hcontra⟩ := List.mem_map.mp happly
        cases hcontra
      · rcases List.mem_append.mp hin with happly | hrest
        · obtain ⟨result', hresult', hsame⟩ := List.mem_map.mp happly
          cases hsame
          exact h.named.2.2 result hresult'
        · exact hnamed.2.1 result hrest
  | apply result =>
      rw [hquiet nofun]
      have hnothing : (result.candidates.map EmuAction.enqueue).filterMap EmuAction.heldPath = [] := by
        rw [List.filterMap_eq_nil_iff]
        intro action haction
        obtain ⟨path, -, rfl⟩ := List.mem_map.mp haction
        rfl
      refine h.emulation (result.candidates.map EmuAction.enqueue ++ rest) ?_ ⟨fun path hin => ?_, fun result' hin => hnamed.2.1 result' ?_,
        hnamed.2.2⟩ _ _ _ fun _ hin => hin
      · rw [List.filterMap_append, hnothing]
        exact hheld rfl
      · rcases List.mem_append.mp hin with henqueue | hrest
        · obtain ⟨path', hpath', hsame⟩ := List.mem_map.mp henqueue
          cases hsame
          have hhead : EmuAction.apply result ∈ s.pipe.emulation := by
            rw [hemulation]
            exact List.mem_cons_self
          exact h.named.2.1 result hhead path hpath'
        · exact hnamed.1 path hrest
      · refine (List.mem_append.mp hin).resolve_left fun henqueue => ?_
        obtain ⟨path, -, hcontra⟩ := List.mem_map.mp henqueue
        cases hcontra
  | enqueue path =>
      rw [hquiet nofun]
      have hpath : path ≠ "" := by
        refine h.named.1 path ?_
        rw [hemulation]
        exact List.mem_cons_self
      have hmoved : Returning pathKey { s with pipe := { s.pipe with emulation := rest } } :=
        h.emulation rest (hheld rfl) hnamed _ _ _ fun _ hin => hin
      unfold Pipeline.act Pipeline.enqueueCandidate
      dsimp only
      by_cases hqueued : pathKey path ∈ s.pipe.queuedPaths
      · rw [if_pos hqueued]
        exact hmoved
      · rw [if_neg hqueued]
        exact hmoved.enqueue hpath hqueued

theorem step (h : Returning pathKey s) {op : PipelineOp} (hadmits : s.pipe.admits op)
    (hkeeps : KeepsReturn pathKey s op) :
    Returning pathKey
      { pipe := s.pipe.next pathKey op, deferred := s.note pathKey op } := by
  cases op with
  | poll =>
      have hidle : s.pipe.emulation = [] := hadmits
      have hnamed : Named { s.pipe with emulation := [.claimPrepared, .claimMaintenance] } := by
        refine ⟨fun path hin => ?_, fun result hin => ?_, h.named.2.2⟩
        · simp at hin
        · simp at hin
      exact h.emulation _ (by rw [hidle]; rfl) hnamed _ _ _ fun _ hin => hin
  | registerCached paths =>
      have hidle : s.pipe.emulation = [] := hadmits.1
      have hnothing : (paths.map EmuAction.enqueue).filterMap EmuAction.heldPath = [] := by
        rw [List.filterMap_eq_nil_iff]
        intro action haction
        obtain ⟨path, -, rfl⟩ := List.mem_map.mp haction
        rfl
      refine h.emulation (paths.map EmuAction.enqueue) ?_
        ⟨fun path hin => ?_, fun result hin => ?_, h.named.2.2⟩ _ _ _ fun _ hin => hin
      · rw [hnothing, hidle]
        rfl
      · obtain ⟨path', hpath', hsame⟩ := List.mem_map.mp hin
        cases hsame
        exact hadmits.2 path hpath'
      · obtain ⟨path, -, hcontra⟩ := List.mem_map.mp hin
        cases hcontra
  | pushJob job => exact h.congr rfl rfl rfl (List.Perm.refl _) h.named
  | tier3Entry cpu pc =>
      unfold Pipeline.next
      dsimp only
      split
      · exact h.requeue cpu pc
      · exact h
  | emulate live =>
      unfold Pipeline.next Pipeline.emulate
      dsimp only
      cases hemulation : s.pipe.emulation with
      | nil => exact absurd hemulation hadmits
      | cons action rest => exact h.act hemulation live hkeeps
  | takePath =>
      refine h.congr ?_ ?_ rfl ?_ ?_
      all_goals
        unfold Pipeline.next Pipeline.takePath
        dsimp only
        split
      · rfl
      · rfl
      · rfl
      · rfl
      · next path rest hflight hqueue =>
          unfold Pipeline.underway
          rw [hflight, hqueue]
          exact List.Perm.refl _
      · exact List.Perm.refl _
      · exact h.named
      · exact h.named
  | finishPath outcome =>
      unfold Pipeline.next Pipeline.finishPath
      dsimp only
      cases hflight : s.pipe.inFlight with
      | none => exact absurd hflight hadmits
      | some path =>
          cases outcome with
          | error error =>
              exact h.failed hflight (hkeeps path error hflight rfl) _ _
          | ok place =>
              refine h.congr rfl rfl rfl ?_ h.named
              unfold Pipeline.underway
              dsimp only
              rw [hflight, List.map_append]
              simp only [List.append_assoc]
              exact List.Perm.refl _
  | takeJob =>
      refine h.congr ?_ ?_ rfl ?_ ?_
      all_goals
        unfold Pipeline.next Pipeline.takeJob
        dsimp only
        split
      · rfl
      · rfl
      · rfl
      · rfl
      · exact List.Perm.refl _
      · exact List.Perm.refl _
      · exact h.named
      · exact h.named
  | finishJob result =>
      unfold Pipeline.next Pipeline.finishJob
      dsimp only
      cases hhand : s.pipe.maintInHand with
      | none => exact absurd hhand hadmits.1
      | some job =>
          refine h.congr rfl rfl rfl (List.Perm.refl _) ⟨h.named.1, h.named.2.1, ?_⟩
          intro result' hin
          rcases List.mem_append.mp hin with hold | hlast
          · exact h.named.2.2 result' hold
          · rw [List.mem_singleton.mp hlast]
            exact hadmits.2

end Returning

/-! ### Runs -/

theorem returning_invariant :
    ((deferralSystem pathKey).restrict (KeepsReturn pathKey)).Invariant (Returning pathKey) where
  start := by
    rintro s rfl
    exact ⟨List.nodup_nil, nofun, nofun, ⟨nofun, nofun, nofun⟩, List.nodup_nil, nofun, nofun⟩
  step _ _ h hadmits := h.step hadmits.1 hadmits.2

/-- As long as the registry has room and no deferred shard fails a later preparation,
every deferred shard can come back, a page is suppressed only for one that can, and no
shard is underway twice. -/
theorem deferred_shards_return (pathKey : String → String) {s : Deferrals}
    (hs : ((deferralSystem pathKey).restrict (KeepsReturn pathKey)).Reachable s) :
    s.pipe.CanReturn pathKey s.deferred :=
  (hs.invariant returning_invariant).canReturn

/-- One cached shard is prepared while its guest code is elsewhere. -/
private def deferOnce : List PipelineOp :=
  [.registerCached ["shard.so"], .emulate true, .takePath,
    .finishPath (Except.ok (.arm9, [0x02000000])), .poll, .emulate true, .emulate true,
    .emulate false, .emulate true]

private def deferredOnce : Deferrals := (deferralSystem id).runFrom {} deferOnce

private theorem deferOnce_admitted :
    ((deferralSystem id).restrict (KeepsReturn id)).AdmitsAll {} deferOnce := by
  have hresident {s : Deferrals} : KeepsReturn id s (.emulate true) := fun _ _ _ h => by cases h
  refine ⟨⟨⟨rfl, by decide⟩, trivial⟩, ⟨List.cons_ne_nil _ _, hresident⟩,
    ⟨⟨rfl, List.cons_ne_nil _ _⟩, trivial⟩, ⟨Option.some_ne_none _, fun _ _ _ h => by cases h⟩,
    ⟨rfl, trivial⟩, ⟨List.cons_ne_nil _ _, hresident⟩, ⟨List.cons_ne_nil _ _, hresident⟩,
    ⟨List.cons_ne_nil _ _, fun _ _ _ _ => .inr (by decide)⟩,
    ⟨List.cons_ne_nil _ _, hresident⟩, trivial⟩

private theorem deferredOnce_quiet : deferredOnce.pipe.Quiet :=
  ⟨rfl, rfl, rfl, rfl, fun _ h => by cases h⟩

/-- The deferred shard suppresses its page and is queued by the next entry there. -/
theorem deferred_shards_return_once :
    deferredOnce.pipe.ComesBack id "shard.so" ∧
      ∃ candidate ∈ deferredOnce.pipe.dormant,
        candidate.path ∈ (deferredOnce.pipe.requeueDormantFor .arm9 0x02000124).prepareQueue := by
  have hstart : ((deferralSystem id).restrict (KeepsReturn id)).Reachable {} := .start rfl
  have hlaw := deferred_shards_return id (hstart.runFrom deferOnce_admitted)
  obtain ⟨candidate, hmem, -, -, hpath⟩ :=
    hlaw.suppresses deferredOnce_quiet .arm9 0x02000124 (by decide)
  exact ⟨hlaw.comesBack deferredOnce_quiet "shard.so" (by decide), candidate, hmem, hpath⟩

/-- The shard is queued again, and this time the library does not load. -/
private def failLater : List PipelineOp :=
  deferOnce ++ [.tier3Entry .arm9 0x02000124, .takePath,
    .finishPath (Except.error { text := "dlopen failed: shard.so" }), .poll, .emulate true,
    .emulate true, .emulate true]

private def failedLater : Deferrals := (deferralSystem id).runFrom {} failLater

/-- The error names no key: the record stays marked as queued again, its page suppressed,
and its key known, so neither a Tier-3 entry nor a walk of the cache queues it. -/
theorem failed_preparation_strands_shard :
    (deferralSystem id).AdmitsAll {} failLater ∧ failedLater.pipe.Quiet ∧
      "shard.so" ∈ failedLater.deferred ∧ ¬ failedLater.pipe.ComesBack id "shard.so" ∧
      failedLater.pipe.dormantPageResident .arm9 0x02000124 = true ∧
      ¬ failedLater.pipe.CanReturn id failedLater.deferred := by
  have hquiet : failedLater.pipe.Quiet := ⟨rfl, rfl, rfl, rfl, fun _ h => by cases h⟩
  have hkey : "shard.so" ∈ failedLater.deferred := by decide
  have hstuck : ¬ failedLater.pipe.ComesBack id "shard.so" := by
    rintro (⟨candidate, hmem, -, hidle, -⟩ | ⟨hunknown, -⟩)
    · have hmarked : ∀ candidate ∈ failedLater.pipe.dormant, candidate.requeued = true := by decide
      rw [hmarked candidate hmem] at hidle
      cases hidle
    · exact hunknown (by decide)
  refine ⟨?_, hquiet, hkey, hstuck, by decide, fun hlaw => hstuck (hlaw.comesBack hquiet _ hkey)⟩
  exact ⟨⟨rfl, by decide⟩, List.cons_ne_nil _ _, ⟨rfl, List.cons_ne_nil _ _⟩,
    Option.some_ne_none _, rfl, List.cons_ne_nil _ _, List.cons_ne_nil _ _, List.cons_ne_nil _ _,
    List.cons_ne_nil _ _, rfl, ⟨rfl, List.cons_ne_nil _ _⟩, Option.some_ne_none _, rfl,
    List.cons_ne_nil _ _, List.cons_ne_nil _ _, List.cons_ne_nil _ _, trivial⟩

end NdsRecomp.LiveOverlay
