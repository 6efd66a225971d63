import NdsRecomp.LiveOverlay.FutilityGuard

/-!
What the guard's verdicts say. At most one of an active child, a pending start
and a pending finish exists, in every run. The rest needs the watch to itself:
while a run is watched the counters must move for its own shards alone, its watch
must not be taken by the next run, and its verdict must meet no start already
asked for.
-/

namespace NdsRecomp.LiveOverlay

open Library

/-! ### The ledger against the shards without a verdict -/

namespace RunLedger

/-- Every run's shards have a verdict or wait for one, the counters since the
marks are those of the watched run, and every other run is judged. -/
structure Balanced (l : RunLedger) (waiting : Nat → Nat) : Prop where
  settled : ∀ n, l.queuedBy n = l.rejectedOf n + l.loadedOf n + l.keptOf n + waiting n
  later : ∀ n, l.applied < n → l.queuedBy n = 0
  watched : l.runWatch = true →
    l.runQueued = l.queuedBy l.applied ∧
      l.banksLoaded = l.runLoadedMark + l.loadedOf l.applied ∧
      l.banksRejected = l.runRejectedMark + l.rejectedOf l.applied
  decided : ∀ n, n ≤ l.applied → (l.runWatch = true → n ≠ l.applied) →
    waiting n = 0 ∨ 0 < l.loadedOf n + l.keptOf n
  judged : ∀ n, n ≤ l.applied → (l.runWatch = true → n ≠ l.applied) →
    (n ∈ l.suppressions ↔ l.Futile n)
  suppressed : ∀ n ∈ l.suppressions, n ≤ l.applied ∧ (l.runWatch = true → n ≠ l.applied)

/-- The watched run may still turn out futile. -/
def Open (l : RunLedger) : Prop :=
  0 < l.queuedBy l.applied ∧ l.loadedOf l.applied + l.keptOf l.applied = 0

instance (l : RunLedger) : Decidable l.Open := inferInstanceAs (Decidable (_ ∧ _))

namespace Balanced

variable {l : RunLedger} {waiting waiting' : Nat → Nat}

theorem of_waiting (h : l.Balanced waiting) (hwaiting : ∀ n, waiting' n = waiting n) :
    l.Balanced waiting' := by
  have hsame : waiting' = waiting := funext hwaiting
  exact hsame ▸ h

theorem credit_run (count : Nat → Nat) (index n : Nat) :
    credit count (.run index) n = count n + if n = index then 1 else 0 := by
  change Function.update count index (count index + 1) n = _
  by_cases hn : n = index
  · rw [hn, Function.update_self, if_pos rfl]
  · rw [Function.update_of_ne hn, if_neg hn, Nat.add_zero]

/-- A shard of an index gets its verdict. While a run is watched the counters
move for that run alone. -/
theorem settle (h : l.Balanced waiting) {origin : ShardOrigin} {verdict : ShardVerdict}
    (hwaiting : ∀ n, waiting n = waiting' n + if origin = .run n then 1 else 0)
    (hown : l.runWatch = true → verdict ≠ .kept → origin = .run l.applied) :
    (l.settle origin verdict).Balanced waiting' := by
  have hcredit (count : Nat → Nat) (n : Nat) :
      credit count origin n = count n + if origin = .run n then 1 else 0 := by
    cases origin with
    | other => rfl
    | run index => simp only [credit_run, ShardOrigin.run.injEq, eq_comm]
  have hfutile (n : Nat) (hn : n ≤ l.applied) (hwatch : l.runWatch = true → n ≠ l.applied)
      (l' : RunLedger) (hqueued : l'.queuedBy n = l.queuedBy n)
      (hrejected : l'.rejectedOf n = l.rejectedOf n ∨
        l'.rejectedOf n = l.rejectedOf n + if origin = .run n then 1 else 0) :
      l'.Futile n ↔ l.Futile n := by
    unfold RunLedger.Futile
    rw [hqueued]
    have hsettled := h.settled n
    have hsplit := hwaiting n
    have hdecided := h.decided n hn hwatch
    by_cases hmine : origin = .run n
    · simp only [hmine, if_true] at hsplit hrejected
      omega
    · simp only [hmine, if_false] at hrejected
      omega
  cases verdict with
  | rejected =>
      constructor
      · intro n
        have hsettled := h.settled n
        have hsplit := hwaiting n
        simp only [RunLedger.settle, hcredit]
        omega
      · exact h.later
      · intro hwatch
        obtain ⟨hqueued, hloaded, hrejected⟩ := h.watched hwatch
        have hmore := hcredit l.rejectedOf l.applied
        rw [if_pos (hown hwatch nofun)] at hmore
        refine ⟨hqueued, hloaded, ?_⟩
        simp only [RunLedger.settle, hmore, hrejected, Nat.add_assoc]
      · intro n hn hwatch
        have hdecided := h.decided n hn hwatch
        have hsplit := hwaiting n
        simp only [RunLedger.settle]
        omega
      · intro n hn hwatch
        exact (h.judged n hn hwatch).trans
          (hfutile n hn hwatch (l.settle origin .rejected) rfl
            (Or.inr (hcredit l.rejectedOf n))).symm
      · exact h.suppressed
  | loaded =>
      constructor
      · intro n
        have hsettled := h.settled n
        have hsplit := hwaiting n
        simp only [RunLedger.settle, hcredit]
        omega
      · exact h.later
      · intro hwatch
        obtain ⟨hqueued, hloaded, hrejected⟩ := h.watched hwatch
        have hmore := hcredit l.loadedOf l.applied
        rw [if_pos (hown hwatch nofun)] at hmore
        refine ⟨hqueued, ?_, hrejected⟩
        simp only [RunLedger.settle, hmore, hloaded, Nat.add_assoc]
      · intro n hn hwatch
        have hdecided := h.decided n hn hwatch
        have hsplit := hwaiting n
        simp only [RunLedger.settle, hcredit]
        omega
      · intro n hn hwatch
        exact (h.judged n hn hwatch).trans
          (hfutile n hn hwatch (l.settle origin .loaded) rfl (Or.inl rfl)).symm
      · exact h.suppressed
  | kept =>
      constructor
      · intro n
        have hsettled := h.settled n
        have hsplit := hwaiting n
        simp only [RunLedger.settle, hcredit]
        omega
      · exact h.later
      · exact h.watched
      · intro n hn hwatch
        have hdecided := h.decided n hn hwatch
        have hsplit := hwaiting n
        simp only [RunLedger.settle, hcredit]
        omega
      · intro n hn hwatch
        exact (h.judged n hn hwatch).trans
          (hfutile n hn hwatch (l.settle origin .kept) rfl (Or.inl rfl)).symm
      · exact h.suppressed

/-- The next run's marks, once the run before is judged or cannot be futile. -/
theorem openRun (h : l.Balanced waiting) (hclosed : l.runWatch = true → ¬ l.Open)
    (publishedTotal : Nat) : (l.openRun publishedTotal).Balanced waiting := by
  have hnew : l.queuedBy (l.applied + 1) = 0 := h.later _ (Nat.lt_succ_self _)
  have hzero := h.settled (l.applied + 1)
  have hlast (hwatch : l.runWatch = true) :
      (waiting l.applied = 0 ∨ 0 < l.loadedOf l.applied + l.keptOf l.applied) ∧
        ¬ l.Futile l.applied := by
    have hopen := hclosed hwatch
    have hsettled := h.settled l.applied
    unfold RunLedger.Open at hopen
    unfold RunLedger.Futile
    omega
  have holder (n : Nat) (hn : n ≤ l.applied + 1)
      (hne : publishedTotal ≠ 0 → n ≠ l.applied + 1) :
      n ≤ l.applied ∨ n = l.applied + 1 ∧ publishedTotal = 0 := by
    by_cases hzero : publishedTotal = 0
    · rcases Nat.le_succ_iff.mp hn with hold | hnow
      · exact Or.inl hold
      · exact Or.inr ⟨hnow, hzero⟩
    · have := hne hzero
      omega
  have hne {n : Nat} (hwatch : (l.openRun publishedTotal).runWatch = true → n ≠ l.applied + 1) :
      publishedTotal ≠ 0 → n ≠ l.applied + 1 :=
    fun hsome => hwatch (bne_iff_ne.mpr hsome)
  have hnotNew : l.applied + 1 ∉ l.suppressions := by
    intro hmem
    exact absurd (h.suppressed _ hmem).1 (Nat.not_succ_le_self _)
  constructor
  · exact h.settled
  · intro n hn
    exact h.later n (Nat.lt_of_succ_lt hn)
  · intro _
    refine ⟨hnew.symm, ?_, ?_⟩ <;>
      · simp only [RunLedger.openRun]
        omega
  · intro n hn hwatch
    rcases holder n hn (hne hwatch) with hold | ⟨rfl, -⟩
    · by_cases hmine : l.runWatch = true ∧ n = l.applied
      · obtain ⟨hwas, rfl⟩ := hmine
        exact (hlast hwas).1
      · exact h.decided n hold fun hwas heq => hmine ⟨hwas, heq⟩
    · left
      omega
  · intro n hn hwatch
    rcases holder n hn (hne hwatch) with hold | ⟨rfl, -⟩
    · by_cases hmine : l.runWatch = true ∧ n = l.applied
      · obtain ⟨hwas, rfl⟩ := hmine
        constructor
        · intro hmem
          exact absurd rfl ((h.suppressed _ hmem).2 hwas)
        · intro hfutile
          exact absurd hfutile (hlast hwas).2
      · exact h.judged n hold fun hwas heq => hmine ⟨hwas, heq⟩
    · constructor
      · intro hmem
        exact absurd hmem hnotNew
      · rintro ⟨hsome, -⟩
        exact absurd hsome (by simp only [RunLedger.openRun, hnew]; exact Nat.lt_irrefl 0)
  · intro n hmem
    have hold := (h.suppressed n hmem).1
    exact ⟨Nat.le_succ_of_le hold, fun _ (heq : n = l.applied + 1) => hnotNew (heq ▸ hmem)⟩

/-- A shard the watched run published was newly queued. -/
theorem queueOne (h : l.Balanced waiting) (hwatch : l.runWatch = true)
    (hwaiting : ∀ n, waiting' n = waiting n + if n = l.applied then 1 else 0) :
    l.queueOne.Balanced waiting' := by
  have hother {n : Nat} (hn : n ≠ l.applied) :
      l.queueOne.queuedBy n = l.queuedBy n ∧ waiting' n = waiting n := by
    have hsame := hwaiting n
    rw [if_neg hn] at hsame
    exact ⟨Function.update_of_ne hn _ _, hsame⟩
  have hself : l.queueOne.queuedBy l.applied = l.queuedBy l.applied + 1 :=
    Function.update_self _ _ _
  constructor
  · intro n
    have hsettled := h.settled n
    by_cases hn : n = l.applied
    · subst hn
      have hmore := hwaiting l.applied
      rw [if_pos rfl] at hmore
      rw [hself, hsettled, hmore]
      rfl
    · rw [(hother hn).1, (hother hn).2, hsettled]
      rfl
  · intro n hn
    exact (hother (Nat.ne_of_gt hn)).1.trans (h.later n hn)
  · intro _
    obtain ⟨hqueued, hloaded, hrejected⟩ := h.watched hwatch
    refine ⟨?_, hloaded, hrejected⟩
    exact (congrArg (· + 1) hqueued).trans hself.symm
  · intro n hn hne
    rw [(hother (hne hwatch)).2]
    exact h.decided n hn hne
  · intro n hn hne
    have hjudged := h.judged n hn hne
    unfold RunLedger.Futile
    rw [(hother (hne hwatch)).1]
    exact hjudged
  · exact h.suppressed

/-- The counters since the marks say whether the watched run was futile. -/
theorem verdict_iff (h : l.Balanced waiting) (hwatch : l.runWatch = true)
    (hdone : waiting l.applied = 0) :
    ¬ (l.banksLoaded - l.runLoadedMark ≠ 0 ∨ l.runQueued = 0 ∨
      l.banksRejected - l.runRejectedMark ≠ l.runQueued) ↔ l.Futile l.applied := by
  obtain ⟨hqueued, hloaded, hrejected⟩ := h.watched hwatch
  have hsettled := h.settled l.applied
  unfold RunLedger.Futile
  omega

theorem verdict (h : l.Balanced waiting) (hwatch : l.runWatch = true)
    (hdone : waiting l.applied = 0) : l.verdict.Balanced waiting := by
  have hverdict := h.verdict_iff hwatch hdone
  have hnew : l.applied ∉ l.suppressions := fun hmem => (h.suppressed _ hmem).2 hwatch rfl
  unfold RunLedger.verdict
  dsimp only
  split
  · rename_i hno
    have hfutile : ¬ l.Futile l.applied := fun hf => hverdict.mpr hf hno
    constructor
    · exact h.settled
    · exact h.later
    · nofun
    · intro n hn _
      by_cases heq : n = l.applied
      · exact Or.inl (heq ▸ hdone)
      · exact h.decided n hn fun _ => heq
    · intro n hn _
      by_cases heq : n = l.applied
      · subst heq
        exact iff_of_false hnew hfutile
      · exact h.judged n hn fun _ => heq
    · intro n hmem
      exact ⟨(h.suppressed n hmem).1, nofun⟩
  · rename_i hyes
    have hfutile : l.Futile l.applied := hverdict.mp hyes
    constructor
    · exact h.settled
    · exact h.later
    · nofun
    · intro n hn _
      by_cases heq : n = l.applied
      · exact Or.inl (heq ▸ hdone)
      · exact h.decided n hn fun _ => heq
    · intro n hn _
      by_cases heq : n = l.applied
      · subst heq
        exact iff_of_true (List.mem_append_right _ (List.mem_singleton_self _)) hfutile
      · rw [List.mem_append, List.mem_singleton, or_iff_left heq]
        exact h.judged n hn fun _ => heq
    · intro n hmem
      rcases List.mem_append.mp hmem with hold | hnow
      · exact ⟨(h.suppressed n hold).1, nofun⟩
      · exact ⟨Nat.le_of_eq (List.mem_singleton.mp hnow), nofun⟩

end Balanced

end RunLedger

/-! ### One step of the counts -/

namespace FutilityGuard

variable {g : FutilityGuard}

/-- The conditions under which the counters speak of the watched run alone, its
watch is its own, and a suppressing verdict meets no start asked for. -/
def StepJudges (g : FutilityGuard) : GuardOp → Prop
  | .commit _ verdict =>
      g.ledger.runWatch = true →
        (∀ shard ∈ g.prepareErrors.head?, shard.origin = .run g.ledger.applied) ∧
          (verdict ≠ .kept →
            ∀ shard ∈ g.readyQueue.head?, shard.origin = .run g.ledger.applied)
  | .apply =>
      (g.resultsInHand.head?.any fun result => result.answersFinish) = true →
        g.ledger.runWatch = true → ¬ g.ledger.Open
  | .evaluate =>
      g.ledger.runWatch = true → g.runFinishPending = false → g.childActive = false →
        g.unresolved = [] → g.ledger.Futile g.ledger.applied →
          g.startPending = false ∧ g.triggerRequests ≤ g.runsStarted
  | _ => True

instance (g : FutilityGuard) (op : GuardOp) : Decidable (g.StepJudges op) :=
  match op with
  | .commit _ _ | .apply | .evaluate => inferInstanceAs (Decidable (_ → _))
  | .autoRequest | .requeueDormant _ | .poll | .triggerNow | .drain _ | .checkChild _
  | .schedule _ _ | .request _ | .takeShard | .finishShard _ | .finishJob _ =>
      inferInstanceAs (Decidable True)

/-- The shards of one run among the unresolved. -/
theorem unresolvedOf_eq (g : FutilityGuard) (n : Nat) :
    g.unresolvedOf n =
      g.prepareQueue.countP (fun shard => shard.origin = .run n) +
        g.inFlight.toList.countP (fun shard => shard.origin = .run n) +
        g.readyQueue.countP (fun shard => shard.origin = .run n) +
        g.prepareErrors.countP (fun shard => shard.origin = .run n) := by
  simp only [unresolvedOf, unresolved, List.countP_append]

theorem countP_shard (shard : QueuedShard) (rest : List QueuedShard) (n : Nat) :
    (shard :: rest).countP (fun shard => shard.origin = .run n) =
      rest.countP (fun shard => shard.origin = .run n) +
        if shard.origin = .run n then 1 else 0 := by
  rw [List.countP_cons]
  simp

abbrev Accounts (g : FutilityGuard) : Prop := g.ledger.Balanced g.unresolvedOf

theorem takeError_accounts (h : g.Accounts)
    (hown : g.ledger.runWatch = true →
      ∀ shard ∈ g.prepareErrors.head?, shard.origin = .run g.ledger.applied) :
    g.takeError.Accounts := by
  unfold takeError
  cases herrors : g.prepareErrors with
  | nil => exact h
  | cons shard rest =>
      have hsettled : (g.ledger.settle shard.origin .rejected).Balanced
          { g with prepareErrors := rest }.unresolvedOf := by
        refine h.settle ?_ ?_
        · intro n
          simp only [unresolvedOf_eq, herrors, countP_shard]
          omega
        · intro hwatch _
          exact hown hwatch shard (by rw [herrors]; rfl)
      exact hsettled

theorem takeBank_accounts (h : g.Accounts) {verdict : ShardVerdict}
    (hown : g.ledger.runWatch = true → verdict ≠ .kept →
      ∀ shard ∈ g.readyQueue.head?, shard.origin = .run g.ledger.applied) :
    (g.takeBank verdict).Accounts := by
  unfold takeBank
  cases hready : g.readyQueue with
  | nil => exact h
  | cons shard rest =>
      have hsettled : (g.ledger.settle shard.origin verdict).Balanced
          { g with readyQueue := rest }.unresolvedOf := by
        refine h.settle ?_ ?_
        · intro n
          simp only [unresolvedOf_eq, hready, countP_shard]
          omega
        · intro hwatch hkept
          exact hown hwatch hkept shard (by rw [hready]; rfl)
      exact hsettled

/-- What taking an error leaves alone. -/
theorem takeError_same (g : FutilityGuard) :
    g.takeError.ledger.runWatch = g.ledger.runWatch ∧
      g.takeError.ledger.applied = g.ledger.applied ∧ g.takeError.readyQueue = g.readyQueue := by
  unfold takeError
  split <;> exact ⟨rfl, rfl, rfl⟩

theorem commit_accounts (h : g.Accounts) {verdict : ShardVerdict} {ready : Bool}
    (hjudges : g.StepJudges (.commit ready verdict)) :
    (g.commitOneReadyBank verdict).Accounts := by
  obtain ⟨hwatch, happlied, hready⟩ := takeError_same g
  refine takeBank_accounts (takeError_accounts h fun hw => (hjudges hw).1) ?_
  rw [hwatch, happlied, hready]
  exact fun hw => (hjudges hw).2

/-- Shards queued by anything but a run change no run's count. -/
theorem enqueueFound_accounts (h : g.Accounts) (path : String) :
    (g.enqueueFound path).Accounts := by
  unfold enqueueFound enqueueCandidate
  split
  · exact h
  · refine h.of_waiting fun n => ?_
    simp [unresolvedOf_eq]

theorem foldl_enqueueFound_accounts (h : g.Accounts) (found : List String) :
    (found.foldl enqueueFound g).Accounts := by
  induction found generalizing g with
  | nil => exact h
  | cons path found ih => exact ih (enqueueFound_accounts h path)

theorem enqueuePublished_eq (g : FutilityGuard) (path : String) :
    g.enqueuePublished path =
      if path ∈ g.queuedPaths then g
      else
        { g with
          queuedPaths := path :: g.queuedPaths
          prepareQueue := g.prepareQueue ++ [⟨path, .run g.ledger.applied⟩]
          ledger := g.ledger.queueOne } := by
  unfold enqueuePublished enqueueCandidate
  by_cases hqueued : path ∈ g.queuedPaths
  · simp only [hqueued, if_true, Bool.false_eq_true, if_false]
  · simp only [hqueued, if_true, if_false]

theorem enqueuePublished_accounts (h : g.Accounts) (hwatch : g.ledger.runWatch = true)
    (path : String) : (g.enqueuePublished path).Accounts := by
  rw [enqueuePublished_eq]
  split
  · exact h
  · refine h.queueOne hwatch fun n => ?_
    simp only [unresolvedOf_eq, List.countP_append, List.countP_singleton, decide_eq_true_eq,
      ShardOrigin.run.injEq, eq_comm (a := n)]
    omega

theorem enqueuePublished_runWatch (g : FutilityGuard) (path : String) :
    (g.enqueuePublished path).ledger.runWatch = g.ledger.runWatch := by
  rw [enqueuePublished_eq]
  split <;> rfl

theorem foldl_enqueuePublished_accounts (h : g.Accounts) (hwatch : g.ledger.runWatch = true)
    (published : List String) : (published.foldl enqueuePublished g).Accounts := by
  induction published generalizing g with
  | nil => exact h
  | cons path published ih =>
      refine ih (enqueuePublished_accounts h hwatch path) ?_
      exact (enqueuePublished_runWatch g path).trans hwatch

theorem applyRunFinished_accounts (h : g.Accounts)
    (hclosed : g.ledger.runWatch = true → ¬ g.ledger.Open) {published : List String}
    {publishedTotal : Nat} (hpublished : published.length ≤ publishedTotal)
    (exitCode pending : Nat) (found : List String) :
    (g.applyRunFinished exitCode pending publishedTotal published found).Accounts := by
  have hopened : { g with
      runFinishPending := false
      ledger := g.ledger.openRun publishedTotal : FutilityGuard }.Accounts :=
    h.openRun hclosed publishedTotal
  have hqueued : (published.foldl enqueuePublished { g with
      runFinishPending := false
      ledger := g.ledger.openRun publishedTotal }).Accounts := by
    by_cases htotal : publishedTotal = 0
    · have hnone : published = [] := List.length_eq_zero_iff.mp (by omega)
      rw [hnone]
      exact hopened
    · exact foldl_enqueuePublished_accounts hopened (bne_iff_ne.mpr htotal) published
  unfold applyRunFinished
  apply foldl_enqueueFound_accounts
  split
  · exact hqueued
  · exact hqueued

theorem applyResult_accounts (h : g.Accounts) {result : GuardResult}
    (hclosed : result.answersFinish = true → g.ledger.runWatch = true → ¬ g.ledger.Open)
    (hsized : result.Sized) : (g.applyResult result).Accounts := by
  cases result with
  | rescan found => exact foldl_enqueueFound_accounts h found
  | startChild ok =>
      simp only [applyResult, applyStartChild]
      split
      · exact h
      · exact h
  | runFinished exitCode pending publishedTotal published found =>
      exact applyRunFinished_accounts h (hclosed rfl) hsized exitCode pending found

theorem evaluate_accounts (h : g.Accounts) : g.evaluateRunFutility.Accounts := by
  unfold evaluateRunFutility
  by_cases hwatch : g.ledger.runWatch = true
  · rw [if_neg (not_not.mpr hwatch)]
    by_cases hnone : g.unresolved = []
    · rw [if_neg (not_not.mpr hnone)]
      split
      · exact h
      · refine h.verdict hwatch ?_
        rw [unresolvedOf, hnone]
        rfl
    · rw [if_pos hnone]
      exact h
  · rw [if_pos hwatch]
    exact h

/-! ### The provider's life -/

/-- What the control of the provider reads. -/
structure SameControl (g g' : FutilityGuard) : Prop where
  triggerRequests : g'.triggerRequests = g.triggerRequests
  runsStarted : g'.runsStarted = g.runsStarted
  childActive : g'.childActive = g.childActive
  startPending : g'.startPending = g.startPending
  runFinishPending : g'.runFinishPending = g.runFinishPending
  maintJobs : g'.maintJobs = g.maintJobs
  maintResults : g'.maintResults = g.maintResults
  resultsInHand : g'.resultsInHand = g.resultsInHand
  pollAt : g'.pollAt = g.pollAt

namespace SameControl

variable {g' g'' : FutilityGuard}

theorem refl (g : FutilityGuard) : SameControl g g := by constructor <;> rfl

theorem trans (h : SameControl g g') (h' : SameControl g' g'') : SameControl g g'' where
  triggerRequests := h'.triggerRequests.trans h.triggerRequests
  runsStarted := h'.runsStarted.trans h.runsStarted
  childActive := h'.childActive.trans h.childActive
  startPending := h'.startPending.trans h.startPending
  runFinishPending := h'.runFinishPending.trans h.runFinishPending
  maintJobs := h'.maintJobs.trans h.maintJobs
  maintResults := h'.maintResults.trans h.maintResults
  resultsInHand := h'.resultsInHand.trans h.resultsInHand
  pollAt := h'.pollAt.trans h.pollAt

theorem enqueueFound (g : FutilityGuard) (path : String) :
    SameControl g (g.enqueueFound path) := by
  unfold FutilityGuard.enqueueFound enqueueCandidate
  split <;> constructor <;> rfl

theorem enqueuePublished (g : FutilityGuard) (path : String) :
    SameControl g (g.enqueuePublished path) := by
  rw [enqueuePublished_eq]
  split <;> constructor <;> rfl

/-- A control that each step of a fold leaves alone. -/
theorem foldl {step : FutilityGuard → String → FutilityGuard}
    (hstep : ∀ g path, SameControl g (step g path)) (g : FutilityGuard) (paths : List String) :
    SameControl g (paths.foldl step g) := by
  induction paths generalizing g with
  | nil => exact refl g
  | cons path paths ih => exact (hstep g path).trans (ih _)

theorem commit (g : FutilityGuard) (verdict : ShardVerdict) :
    SameControl g (g.commitOneReadyBank verdict) := by
  have herror : SameControl g g.takeError := by
    unfold takeError
    split <;> constructor <;> rfl
  have hbank (g : FutilityGuard) : SameControl g (g.takeBank verdict) := by
    unfold takeBank
    split <;> constructor <;> rfl
  exact herror.trans (hbank _)

theorem evaluate (g : FutilityGuard) : SameControl g g.evaluateRunFutility := by
  unfold evaluateRunFutility
  split
  · exact refl g
  · split
    · exact refl g
    · split <;> constructor <;> rfl

theorem applyRunFinished (g : FutilityGuard) (exitCode pending publishedTotal : Nat)
    (published found : List String) :
    SameControl { g with runFinishPending := false }
      (g.applyRunFinished exitCode pending publishedTotal published found) := by
  have hopened : SameControl { g with runFinishPending := false }
      { g with runFinishPending := false, ledger := g.ledger.openRun publishedTotal } := by
    constructor <;> rfl
  have hqueued := hopened.trans (foldl enqueuePublished _ published)
  unfold FutilityGuard.applyRunFinished
  refine .trans ?_ (foldl enqueueFound _ found)
  split
  · refine hqueued.trans ?_
    constructor <;> rfl
  · exact hqueued

end SameControl

/-- At most one of an active child, a pending start and a pending finish; each of
the latter two is one job or one result on its way. -/
structure OneRun (g : FutilityGuard) : Prop where
  atMostOne : g.childActive.toNat + g.startPending.toNat + g.runFinishPending.toNat ≤ 1
  starts : g.maintJobs.countP (· = .startChild) +
    (g.maintResults ++ g.resultsInHand).countP GuardResult.answersStart = g.startPending.toNat
  finishes : g.maintJobs.countP GuardJob.isFinish +
    (g.maintResults ++ g.resultsInHand).countP GuardResult.answersFinish =
      g.runFinishPending.toNat
  sized : ∀ result ∈ g.maintResults ++ g.resultsInHand, result.Sized
  inHand : g.pollAt ≠ .applying → g.resultsInHand = []

namespace OneRun

variable {g' : FutilityGuard}

theorem of_same (h : g.OneRun) (same : SameControl g g') : g'.OneRun where
  atMostOne := by rw [same.childActive, same.startPending, same.runFinishPending]; exact h.atMostOne
  starts := by
    rw [same.maintJobs, same.maintResults, same.resultsInHand, same.startPending]
    exact h.starts
  finishes := by
    rw [same.maintJobs, same.maintResults, same.resultsInHand, same.runFinishPending]
    exact h.finishes
  sized := by rw [same.maintResults, same.resultsInHand]; exact h.sized
  inHand := by rw [same.pollAt, same.resultsInHand]; exact h.inHand

/-- The poll moves on with nothing in hand. -/
theorem moveTo (h : g.OneRun) (hnone : g.resultsInHand = []) (point : PollPoint) :
    { g with pollAt := point : FutilityGuard }.OneRun :=
  { h with inHand := fun _ => hnone }

theorem enterPoll (h : g.OneRun) (hat : g.pollAt = .outside) : g.enterPoll.OneRun := by
  have hnone := h.inHand (by rw [hat]; nofun)
  unfold FutilityGuard.enterPoll
  split
  · exact h.moveTo hnone .commit
  · refine { h with starts := ?_, finishes := ?_, inHand := fun _ => hnone }
    · rw [List.countP_append]
      exact h.starts
    · rw [List.countP_append]
      exact h.finishes

theorem drain (h : g.OneRun) (hat : g.pollAt = .drain) :
    { g with
      maintResults := [], resultsInHand := g.maintResults, pollAt := .applying
      : FutilityGuard }.OneRun := by
  have hnone := h.inHand (by rw [hat]; nofun)
  have hall : g.maintResults ++ g.resultsInHand = [] ++ g.maintResults := by
    rw [hnone, List.append_nil, List.nil_append]
  exact { h with
    starts := hall ▸ h.starts
    finishes := hall ▸ h.finishes
    sized := hall ▸ h.sized
    inHand := fun hpoint => absurd rfl hpoint }

theorem applyResult (h : g.OneRun) (hat : g.pollAt = .applying) {result : GuardResult}
    {rest : List GuardResult} (hhand : g.resultsInHand = result :: rest) :
    ({ g with resultsInHand := rest }.applyResult result).OneRun := by
  have hone := h.atMostOne
  have hstarts := h.starts
  have hfinishes := h.finishes
  have hsized : ∀ r ∈ g.maintResults ++ rest, r.Sized := by
    intro r hr
    apply h.sized r
    rw [hhand]
    exact List.mem_append.mpr ((List.mem_append.mp hr).imp_right (List.mem_cons_of_mem _))
  rw [hhand, List.countP_append, List.countP_cons] at hstarts hfinishes
  cases result with
  | rescan found =>
      have hrest : { g with resultsInHand := rest : FutilityGuard }.OneRun :=
        { h with
          starts := by rw [List.countP_append]; exact hstarts
          finishes := by rw [List.countP_append]; exact hfinishes
          sized := hsized
          inHand := fun hpoint => absurd hat hpoint }
      exact hrest.of_same (SameControl.foldl SameControl.enqueueFound _ found)
  | startChild ok =>
      simp only [GuardResult.answersStart, GuardResult.answersFinish, if_true, Bool.false_eq_true,
        if_false] at hstarts hfinishes
      have hpending : g.startPending = true := by
        by_contra hno
        rw [Bool.eq_false_of_not_eq_true hno] at hstarts
        simp only [Bool.toNat_false] at hstarts
        omega
      rw [hpending] at hone hstarts
      simp only [Bool.toNat_true] at hone hstarts
      simp only [FutilityGuard.applyResult, applyStartChild]
      split
      · constructor
        · simp only [Bool.toNat_true, Bool.toNat_false]
          omega
        · rw [List.countP_append]
          simp only [Bool.toNat_false]
          omega
        · rw [List.countP_append]
          exact hfinishes
        · exact hsized
        · exact fun hpoint => absurd hat hpoint
      · constructor
        · simp only [Bool.toNat_false]
          omega
        · rw [List.countP_append]
          simp only [Bool.toNat_false]
          omega
        · rw [List.countP_append]
          exact hfinishes
        · exact hsized
        · exact fun hpoint => absurd hat hpoint
  | runFinished exitCode pending publishedTotal published found =>
      simp only [GuardResult.answersStart, GuardResult.answersFinish, if_true, Bool.false_eq_true,
        if_false] at hstarts hfinishes
      have hpending : g.runFinishPending = true := by
        by_contra hno
        rw [Bool.eq_false_of_not_eq_true hno] at hfinishes
        simp only [Bool.toNat_false] at hfinishes
        omega
      rw [hpending] at hone hfinishes
      simp only [Bool.toNat_true] at hone hfinishes
      have hrest : { g with
          resultsInHand := rest, runFinishPending := false : FutilityGuard }.OneRun := by
        constructor
        · simp only [Bool.toNat_false]
          omega
        · rw [List.countP_append]
          exact hstarts
        · rw [List.countP_append]
          simp only [Bool.toNat_false]
          omega
        · exact hsized
        · exact fun hpoint => absurd hat hpoint
      exact hrest.of_same (SameControl.applyRunFinished { g with resultsInHand := rest }
        exitCode pending publishedTotal published found)

theorem checkChild (h : g.OneRun) (exited : Option Nat) : (g.checkChild exited).OneRun := by
  unfold FutilityGuard.checkChild
  split
  · exact h
  · split
    · rename_i hactive
      have hone := h.atMostOne
      have hfinishes := h.finishes
      rw [hactive] at hone
      simp only [Bool.toNat_true] at hone
      refine { h with atMostOne := ?_, starts := ?_, finishes := ?_ }
      · simp only [Bool.toNat_true, Bool.toNat_false]
        omega
      · rw [List.countP_append]
        exact h.starts
      · have hjob : List.countP GuardJob.isFinish [.runFinished ‹Nat›] = 1 := rfl
        rw [List.countP_append, hjob]
        simp only [Bool.toNat_true]
        omega
    · exact h

theorem schedule (h : g.OneRun) (delayElapsed : Bool) :
    (g.schedulePendingCompile delayElapsed).OneRun := by
  unfold schedulePendingCompile
  split_ifs
  · exact h
  · exact h
  · exact h
  · exact { h with }

theorem request (h : g.OneRun) (captured : Bool) : (g.requestRun captured).OneRun := by
  unfold requestRun
  split
  · rename_i hfree
    obtain ⟨hchild, hstart, hfinish, -⟩ := hfree
    split
    · have hstarts := h.starts
      rw [Bool.eq_false_of_not_eq_true hstart] at hstarts
      refine { h with atMostOne := ?_, starts := ?_, finishes := ?_ }
      · rw [Bool.eq_false_of_not_eq_true hchild, Bool.eq_false_of_not_eq_true hfinish]
        rfl
      · have hjob : List.countP (· = GuardJob.startChild) [.startChild] = 1 := rfl
        rw [List.countP_append, hjob]
        simp only [Bool.toNat_true, Bool.toNat_false] at hstarts ⊢
        omega
      · rw [List.countP_append]
        exact h.finishes
    · exact { h with }
  · exact h

theorem finishJob (h : g.OneRun) {result : GuardResult}
    (hadmits : g.Admits (.finishJob result)) : (g.next (.finishJob result)).OneRun := by
  obtain ⟨hanswers, hsized⟩ := hadmits
  have hstarts := h.starts
  have hfinishes := h.finishes
  cases hjobs : g.maintJobs with
  | nil =>
      rw [hjobs] at hanswers
      cases hanswers
  | cons job jobs =>
      rw [hjobs] at hanswers hstarts hfinishes
      have hkind : decide (job = .startChild) = result.answersStart ∧
          job.isFinish = result.answersFinish := by
        cases job <;> cases result <;> first | exact ⟨rfl, rfl⟩ | cases hanswers
      rw [List.countP_cons, hkind.1] at hstarts
      rw [List.countP_cons, hkind.2] at hfinishes
      rw [List.countP_append] at hstarts hfinishes
      constructor
      · exact h.atMostOne
      · simp only [FutilityGuard.next, hjobs, List.tail_cons, List.countP_append,
          List.countP_singleton]
        omega
      · simp only [FutilityGuard.next, hjobs, List.tail_cons, List.countP_append,
          List.countP_singleton]
        omega
      · intro r hr
        rcases List.mem_append.mp hr with hmaint | hhand
        · rcases List.mem_append.mp hmaint with hold | hnew
          · exact h.sized r (List.mem_append_left _ hold)
          · exact List.mem_singleton.mp hnew ▸ hsized
        · exact h.sized r (List.mem_append_right _ hhand)
      · exact h.inHand

end OneRun

/-! ### Suppression -/

/-- While suppressed no child runs, none is asked for, and no trigger is open. -/
def Quiet (g : FutilityGuard) : Prop :=
  g.ledger.autoSuppressed = true →
    g.startPending = false ∧ g.childActive = false ∧ g.triggerRequests ≤ g.runsStarted

/-- The runs judged are exactly the futile ones: no suppression without a futile
run, and no futile run without one, once its watch is closed. -/
def Judged (g : FutilityGuard) : Prop :=
  ∀ n, n ≤ g.ledger.applied → (g.ledger.runWatch = true → n ≠ g.ledger.applied) →
    (n ∈ g.ledger.suppressions ↔ g.ledger.Futile n)

/-- A step suppresses when it gives the verdict on a futile run and only then, starts
no run while suppressed unless asked explicitly, and gives the verdict when it is
due. -/
structure StepSound (g : FutilityGuard) (op : GuardOp) : Prop where
  suppresses :
    ((g.next op).ledger.suppressions = g.ledger.suppressions ∧
        ((g.next op).ledger.autoSuppressed = true → g.ledger.autoSuppressed = true)) ∨
      (g.ledger.Futile g.ledger.applied ∧
        (g.next op).ledger.suppressions = g.ledger.suppressions ++ [g.ledger.applied] ∧
        (g.next op).ledger.autoSuppressed = true)
  startsNothing : g.ledger.autoSuppressed = true → op ≠ .triggerNow →
    (g.next op).runsStarted = g.runsStarted ∧ (g.next op).startPending = false
  closes : op = .evaluate → g.runFinishPending = false → g.unresolved = [] →
    g.childActive = false → (g.next op).ledger.runWatch = false

/-- What the verdicts read of the ledger is as it was. -/
structure SameVerdicts (g g' : FutilityGuard) : Prop where
  suppressions : g'.ledger.suppressions = g.ledger.suppressions
  autoSuppressed : g'.ledger.autoSuppressed = g.ledger.autoSuppressed

namespace SameVerdicts

variable {g' g'' : FutilityGuard}

theorem refl (g : FutilityGuard) : SameVerdicts g g := ⟨rfl, rfl⟩

theorem trans (h : SameVerdicts g g') (h' : SameVerdicts g' g'') : SameVerdicts g g'' :=
  ⟨h'.suppressions.trans h.suppressions, h'.autoSuppressed.trans h.autoSuppressed⟩

theorem foldl {step : FutilityGuard → String → FutilityGuard}
    (hstep : ∀ g path, SameVerdicts g (step g path)) (g : FutilityGuard) (paths : List String) :
    SameVerdicts g (paths.foldl step g) := by
  induction paths generalizing g with
  | nil => exact refl g
  | cons path paths ih => exact (hstep g path).trans (ih _)

theorem enqueueFound (g : FutilityGuard) (path : String) :
    SameVerdicts g (g.enqueueFound path) := by
  unfold FutilityGuard.enqueueFound enqueueCandidate
  split <;> exact ⟨rfl, rfl⟩

theorem enqueuePublished (g : FutilityGuard) (path : String) :
    SameVerdicts g (g.enqueuePublished path) := by
  rw [enqueuePublished_eq]
  split <;> exact ⟨rfl, rfl⟩

theorem settle (l : RunLedger) (origin : ShardOrigin) (verdict : ShardVerdict) :
    (l.settle origin verdict).suppressions = l.suppressions ∧
      (l.settle origin verdict).autoSuppressed = l.autoSuppressed := by
  cases verdict <;> exact ⟨rfl, rfl⟩

theorem commit (g : FutilityGuard) (verdict : ShardVerdict) :
    SameVerdicts g (g.commitOneReadyBank verdict) := by
  have herror : SameVerdicts g g.takeError := by
    unfold takeError
    split <;> exact ⟨rfl, rfl⟩
  have hbank (g : FutilityGuard) : SameVerdicts g (g.takeBank verdict) := by
    unfold takeBank
    split
    · exact refl g
    · obtain ⟨hsuppressions, hauto⟩ := settle g.ledger ‹QueuedShard›.origin verdict
      exact ⟨hsuppressions, hauto⟩
  exact herror.trans (hbank _)

theorem applyResult (g : FutilityGuard) (result : GuardResult) :
    SameVerdicts g (g.applyResult result) := by
  cases result with
  | rescan found => exact foldl enqueueFound g found
  | startChild ok =>
      simp only [FutilityGuard.applyResult, applyStartChild]
      split <;> exact ⟨rfl, rfl⟩
  | runFinished exitCode pending publishedTotal published found =>
      have hopened : SameVerdicts g
          { g with runFinishPending := false, ledger := g.ledger.openRun publishedTotal } :=
        ⟨rfl, rfl⟩
      have hqueued := hopened.trans (foldl enqueuePublished _ published)
      simp only [FutilityGuard.applyResult, FutilityGuard.applyRunFinished]
      refine .trans ?_ (foldl enqueueFound _ found)
      split
      · exact hqueued.trans ⟨rfl, rfl⟩
      · exact hqueued

theorem sound (h : SameVerdicts g g') :
    (g'.ledger.suppressions = g.ledger.suppressions ∧
        (g'.ledger.autoSuppressed = true → g.ledger.autoSuppressed = true)) :=
  ⟨h.suppressions, fun hauto => h.autoSuppressed ▸ hauto⟩

end SameVerdicts

/-- Every step but a verdict and an explicit trigger leaves the verdicts alone. -/
theorem next_sameVerdicts (op : GuardOp) (hevaluate : op ≠ .evaluate)
    (htrigger : op ≠ .triggerNow) : SameVerdicts g (g.next op) := by
  cases op with
  | evaluate => exact absurd rfl hevaluate
  | triggerNow => exact absurd rfl htrigger
  | poll =>
      simp only [next, enterPoll]
      split <;> exact ⟨rfl, rfl⟩
  | commit ready verdict =>
      simp only [next]
      split
      · exact (SameVerdicts.commit g verdict).trans ⟨rfl, rfl⟩
      · exact ⟨rfl, rfl⟩
  | drain ready =>
      simp only [next]
      split <;> exact ⟨rfl, rfl⟩
  | apply =>
      simp only [next]
      split
      · exact ⟨rfl, rfl⟩
      · rename_i result rest _
        have hrest : SameVerdicts g { g with resultsInHand := rest } := ⟨rfl, rfl⟩
        exact hrest.trans (SameVerdicts.applyResult _ result)
  | checkChild exited =>
      simp only [next, checkChild]
      split
      · exact ⟨rfl, rfl⟩
      · split <;> exact ⟨rfl, rfl⟩
  | schedule activated delayElapsed =>
      simp only [next, schedulePendingCompile]
      split_ifs <;> exact ⟨rfl, rfl⟩
  | request captured =>
      simp only [next, requestRun]
      split_ifs <;> exact ⟨rfl, rfl⟩
  | takeShard =>
      simp only [next]
      split <;> exact ⟨rfl, rfl⟩
  | finishShard prepared =>
      simp only [next]
      split <;> exact ⟨rfl, rfl⟩
  | _ => exact ⟨rfl, rfl⟩

namespace Quiet

theorem of_same {g' : FutilityGuard} (h : g.Quiet) (same : SameControl g g')
    (hverdicts : SameVerdicts g g') : g'.Quiet := by
  unfold Quiet
  rw [hverdicts.autoSuppressed, same.startPending, same.childActive, same.triggerRequests,
    same.runsStarted]
  exact h

/-- A start that is answered was asked for, so nothing is suppressed. -/
theorem applyResult (h : g.Quiet) (hone : g.OneRun) {result : GuardResult}
    {rest : List GuardResult} (hhand : g.resultsInHand = result :: rest) :
    ({ g with resultsInHand := rest }.applyResult result).Quiet := by
  cases result with
  | rescan found =>
      exact Quiet.of_same (g := { g with resultsInHand := rest }) h
        (SameControl.foldl SameControl.enqueueFound _ found)
        (SameVerdicts.foldl SameVerdicts.enqueueFound _ found)
  | startChild ok =>
      intro hauto
      have hsame := (SameVerdicts.applyResult { g with resultsInHand := rest }
        (.startChild ok)).autoSuppressed
      have hpending := (h (hsame ▸ hauto)).1
      have hstarts := hone.starts
      rw [hhand, hpending, List.countP_append, List.countP_cons] at hstarts
      simp only [GuardResult.answersStart, if_true, Bool.toNat_false] at hstarts
      omega
  | runFinished exitCode pending publishedTotal published found =>
      have hverdicts := SameVerdicts.applyResult { g with resultsInHand := rest }
        (.runFinished exitCode pending publishedTotal published found)
      exact Quiet.of_same (g := { g with resultsInHand := rest, runFinishPending := false }) h
        (SameControl.applyRunFinished { g with resultsInHand := rest } exitCode pending
          publishedTotal published found)
        ⟨hverdicts.suppressions, hverdicts.autoSuppressed⟩

end Quiet

/-- The verdict: the ledger's, when it is due. -/
theorem evaluate_cases (g : FutilityGuard) :
    (g.ledger.runWatch = true ∧ g.unresolved = [] ∧ g.childActive = false ∧
        g.evaluateRunFutility = { g with ledger := g.ledger.verdict }) ∨
      (g.evaluateRunFutility = g ∧
        (g.unresolved = [] → g.childActive = false → g.ledger.runWatch = false)) := by
  unfold evaluateRunFutility
  by_cases hwatch : g.ledger.runWatch = true
  · rw [if_neg (not_not.mpr hwatch)]
    by_cases hnone : g.unresolved = []
    · rw [if_neg (not_not.mpr hnone)]
      by_cases hchild : g.childActive = true
      · rw [if_pos hchild]
        refine Or.inr ⟨rfl, fun _ hfree => ?_⟩
        rw [hchild] at hfree
        cases hfree
      · rw [if_neg hchild]
        exact Or.inl ⟨hwatch, hnone, Bool.eq_false_of_not_eq_true hchild, rfl⟩
    · rw [if_pos hnone]
      exact Or.inr ⟨rfl, fun h => absurd h hnone⟩
  · rw [if_pos hwatch]
    exact Or.inr ⟨rfl, fun _ _ => Bool.eq_false_of_not_eq_true hwatch⟩

/-- A verdict suppresses exactly a futile run. -/
theorem verdict_suppresses {l : RunLedger} {waiting : Nat → Nat} (h : l.Balanced waiting)
    (hwatch : l.runWatch = true) (hdone : waiting l.applied = 0) :
    l.verdict.runWatch = false ∧
      ((¬ l.Futile l.applied ∧ l.verdict.suppressions = l.suppressions ∧
          l.verdict.autoSuppressed = l.autoSuppressed) ∨
        (l.Futile l.applied ∧ l.verdict.suppressions = l.suppressions ++ [l.applied] ∧
          l.verdict.autoSuppressed = true)) := by
  have hverdict := h.verdict_iff hwatch hdone
  unfold RunLedger.verdict
  dsimp only
  split
  · rename_i hno
    exact ⟨rfl, Or.inl ⟨fun hf => hverdict.mpr hf hno, rfl, rfl⟩⟩
  · rename_i hyes
    exact ⟨rfl, Or.inr ⟨hverdict.mp hyes, rfl, rfl⟩⟩

/-! ### One step -/

/-- The balance, the single run and the quiet of a state. -/
structure GuardInvariant (g : FutilityGuard) : Prop where
  oneRun : g.OneRun
  accounts : g.Accounts
  quiet : g.Quiet

theorem next_oneRun (h : g.OneRun) {op : GuardOp} (hadmits : g.Admits op) :
    (g.next op).OneRun := by
  cases op with
  | autoRequest => exact { h with }
  | requeueDormant paths => exact { h with }
  | poll => exact h.enterPoll hadmits
  | triggerNow =>
      have hlifted : { g with
          ledger := { g.ledger with autoSuppressed := false }
          triggerRequests := g.triggerRequests + 1 : FutilityGuard }.OneRun := { h with }
      exact hlifted.enterPoll hadmits
  | commit ready verdict =>
      have hnone := h.inHand (by rw [show g.pollAt = .commit from hadmits]; nofun)
      simp only [next]
      split
      · have hcommit := SameControl.commit g verdict
        exact (h.of_same hcommit).moveTo (hcommit.resultsInHand.trans hnone) .drain
      · exact h.moveTo hnone .drain
  | drain ready =>
      have hnone := h.inHand (by rw [show g.pollAt = .drain from hadmits]; nofun)
      simp only [next]
      split
      · exact h.drain hadmits
      · exact h.moveTo hnone .applying
  | apply =>
      simp only [next]
      split
      · exact h.moveTo ‹_› .evaluate
      · exact h.applyResult hadmits ‹_›
  | evaluate =>
      have hnone := h.inHand (by rw [show g.pollAt = .evaluate from hadmits]; nofun)
      have hsame := SameControl.evaluate g
      simp only [next]
      split
      · exact h.moveTo hnone .childCheck
      · exact (h.of_same hsame).moveTo (hsame.resultsInHand.trans hnone) .childCheck
  | checkChild exited =>
      have hnone := h.inHand (by rw [show g.pollAt = .childCheck from hadmits]; nofun)
      refine (h.checkChild exited).moveTo ?_ .schedule
      unfold FutilityGuard.checkChild
      split
      · exact hnone
      · split <;> exact hnone
  | schedule activated delayElapsed =>
      have hnone := h.inHand (by rw [show g.pollAt = .schedule from hadmits]; nofun)
      simp only [next]
      split
      · refine (h.schedule delayElapsed).moveTo ?_ .request
        unfold schedulePendingCompile
        split_ifs <;> exact hnone
      · exact h.moveTo hnone .outside
  | request captured =>
      have hnone := h.inHand (by rw [show g.pollAt = .request from hadmits]; nofun)
      refine (h.request captured).moveTo ?_ .outside
      unfold requestRun
      split_ifs <;> exact hnone
  | takeShard =>
      simp only [next]
      split
      · exact h
      · exact { h with }
  | finishShard prepared =>
      simp only [next]
      split <;> exact { h with }
  | finishJob result => exact h.finishJob hadmits

theorem next_accounts (h : g.GuardInvariant) {op : GuardOp} (hadmits : g.Admits op)
    (hjudges : g.StepJudges op) : (g.next op).Accounts := by
  have haccounts := h.accounts
  cases op with
  | requeueDormant paths =>
      refine haccounts.of_waiting fun n => ?_
      simp [next, unresolvedOf_eq, List.countP_map, Function.comp_def]
  | poll =>
      simp only [next, enterPoll]
      split <;> exact haccounts
  | triggerNow =>
      have hlifted : ({ g.ledger with autoSuppressed := false } : RunLedger).Balanced
          g.unresolvedOf := { haccounts with }
      simp only [next, FutilityGuard.triggerNow, enterPoll]
      split <;> exact hlifted
  | commit ready verdict =>
      simp only [next]
      split
      · exact commit_accounts haccounts hjudges
      · exact haccounts
  | drain ready =>
      simp only [next]
      split <;> exact haccounts
  | apply =>
      simp only [next]
      split
      · exact haccounts
      · rename_i result rest hhand
        have hsized := h.oneRun.sized result
          (List.mem_append_right _ (by rw [hhand]; exact List.mem_cons_self))
        refine applyResult_accounts (g := { g with resultsInHand := rest }) haccounts ?_ hsized
        intro hfinish
        exact hjudges (by rw [hhand]; exact hfinish)
  | evaluate =>
      simp only [next]
      split
      · exact haccounts
      · exact evaluate_accounts haccounts
  | checkChild exited =>
      simp only [next, FutilityGuard.checkChild]
      split
      · exact haccounts
      · split <;> exact haccounts
  | schedule activated delayElapsed =>
      simp only [next, schedulePendingCompile]
      split_ifs <;> exact haccounts
  | request captured =>
      simp only [next, requestRun]
      split_ifs <;> exact haccounts
  | takeShard =>
      simp only [next]
      split
      · exact haccounts
      · rename_i shard rest hqueue
        have hfree : g.inFlight = none := hadmits
        refine haccounts.of_waiting fun n => ?_
        simp only [unresolvedOf_eq, hqueue, hfree, countP_shard, Option.toList_some,
          Option.toList_none, List.countP_nil]
        omega
  | finishShard prepared =>
      simp only [next]
      split
      · refine haccounts.of_waiting fun n => ?_
        simp only [unresolvedOf_eq, List.countP_append, Option.toList_none, List.countP_nil]
        omega
      · refine haccounts.of_waiting fun n => ?_
        simp only [unresolvedOf_eq, List.countP_append, Option.toList_none, List.countP_nil]
        omega
  | _ => exact haccounts

theorem next_quiet (h : g.GuardInvariant) {op : GuardOp} (hjudges : g.StepJudges op) :
    (g.next op).Quiet := by
  have hquiet := h.quiet
  cases op with
  | poll =>
      simp only [next, enterPoll]
      split <;> exact hquiet
  | triggerNow =>
      simp only [next, FutilityGuard.triggerNow, enterPoll]
      split <;> nofun
  | commit ready verdict =>
      simp only [next]
      split
      · have hcommitted : (g.commitOneReadyBank verdict).Quiet :=
          hquiet.of_same (SameControl.commit g verdict) (SameVerdicts.commit g verdict)
        exact hcommitted
      · exact hquiet
  | drain ready =>
      simp only [next]
      split <;> exact hquiet
  | apply =>
      simp only [next]
      split
      · exact hquiet
      · exact hquiet.applyResult h.oneRun ‹_›
  | evaluate =>
      simp only [next]
      split
      · exact hquiet
      · rename_i hfinish
        rcases evaluate_cases g with ⟨hwatch, hnone, hchild, heq⟩ | ⟨heq, -⟩
        · rw [heq]
          have hdone : g.unresolvedOf g.ledger.applied = 0 := by
            rw [unresolvedOf, hnone]
            rfl
          intro hauto
          rcases (verdict_suppresses h.accounts hwatch hdone).2 with
            ⟨-, -, hsame⟩ | ⟨hfutile, -, -⟩
          · exact hquiet (hsame ▸ hauto)
          · have hfree := hjudges hwatch (Bool.eq_false_of_not_eq_true hfinish) hchild hnone
              hfutile
            exact ⟨hfree.1, hchild, hfree.2⟩
        · rw [heq]
          exact hquiet
  | checkChild exited =>
      simp only [next, FutilityGuard.checkChild]
      split
      · exact hquiet
      · split
        · intro hauto
          exact ⟨(hquiet hauto).1, rfl, (hquiet hauto).2.2⟩
        · exact hquiet
  | schedule activated delayElapsed =>
      simp only [next, schedulePendingCompile]
      split_ifs
      · exact hquiet
      · exact hquiet
      · exact hquiet
      · rename_i hauto _
        exact fun h => absurd h hauto
      · exact hquiet
  | request captured =>
      simp only [next, requestRun]
      split_ifs with hfree
      · intro hauto
        exact absurd hfree.2.2.2 (Nat.not_lt.mpr (hquiet hauto).2.2)
      · intro hauto
        exact ⟨(hquiet hauto).1, (hquiet hauto).2.1, Nat.le_refl _⟩
      · exact hquiet
  | takeShard =>
      simp only [next]
      split <;> exact hquiet
  | finishShard prepared =>
      simp only [next]
      split <;> exact hquiet
  | _ => exact hquiet

theorem next_runsStarted (h : g.GuardInvariant) {op : GuardOp}
    (hauto : g.ledger.autoSuppressed = true) : (g.next op).runsStarted = g.runsStarted := by
  obtain ⟨hstart, -, -⟩ := h.quiet hauto
  cases op with
  | poll =>
      simp only [next, enterPoll]
      split <;> rfl
  | triggerNow =>
      simp only [next, FutilityGuard.triggerNow, enterPoll]
      split <;> rfl
  | commit ready verdict =>
      simp only [next]
      split
      · exact (SameControl.commit g verdict).runsStarted
      · rfl
  | drain ready =>
      simp only [next]
      split <;> rfl
  | apply =>
      simp only [next]
      split
      · rfl
      · rename_i result rest hhand
        cases result with
        | rescan found =>
            exact (SameControl.foldl SameControl.enqueueFound
              { g with resultsInHand := rest } found).runsStarted
        | startChild ok =>
            have hstarts := h.oneRun.starts
            rw [hhand, hstart, List.countP_append, List.countP_cons] at hstarts
            simp only [GuardResult.answersStart, if_true, Bool.toNat_false] at hstarts
            omega
        | runFinished exitCode pending publishedTotal published found =>
            exact (SameControl.applyRunFinished { g with resultsInHand := rest } exitCode pending
              publishedTotal published found).runsStarted
  | evaluate =>
      simp only [next]
      split
      · rfl
      · exact (SameControl.evaluate g).runsStarted
  | checkChild exited =>
      simp only [next, FutilityGuard.checkChild]
      split
      · rfl
      · split <;> rfl
  | schedule activated delayElapsed =>
      simp only [next, schedulePendingCompile]
      split_ifs <;> rfl
  | request captured =>
      simp only [next, requestRun]
      split_ifs <;> rfl
  | takeShard =>
      simp only [next]
      split <;> rfl
  | finishShard prepared =>
      simp only [next]
      split <;> rfl
  | _ => rfl

theorem next_invariant (h : g.GuardInvariant) {op : GuardOp} (hadmits : g.Admits op)
    (hjudges : g.StepJudges op) : (g.next op).GuardInvariant where
  oneRun := next_oneRun h.oneRun hadmits
  accounts := next_accounts h hadmits hjudges
  quiet := next_quiet h hjudges

theorem stepSound (h : g.GuardInvariant) {op : GuardOp} (hjudges : g.StepJudges op) :
    g.StepSound op where
  suppresses := by
    by_cases hevaluate : op = .evaluate
    · subst hevaluate
      simp only [next]
      split
      · exact Or.inl ⟨rfl, id⟩
      · rcases evaluate_cases g with ⟨hwatch, hnone, -, heq⟩ | ⟨heq, -⟩
        · have hdone : g.unresolvedOf g.ledger.applied = 0 := by
            rw [unresolvedOf, hnone]
            rfl
          rw [heq]
          rcases (verdict_suppresses h.accounts hwatch hdone).2 with
            ⟨-, hsame, hauto⟩ | ⟨hfutile, hmore, hauto⟩
          · exact Or.inl ⟨hsame, fun hnow => hauto ▸ hnow⟩
          · exact Or.inr ⟨hfutile, hmore, hauto⟩
        · rw [heq]
          exact Or.inl ⟨rfl, id⟩
    · by_cases htrigger : op = .triggerNow
      · subst htrigger
        left
        simp only [next, FutilityGuard.triggerNow, enterPoll]
        split <;> exact ⟨rfl, nofun⟩
      · exact Or.inl (next_sameVerdicts op hevaluate htrigger).sound
  startsNothing := by
    intro hauto htrigger
    refine ⟨next_runsStarted h hauto, ?_⟩
    have hnext := next_quiet h hjudges
    by_cases hevaluate : op = .evaluate
    · subst hevaluate
      simp only [next]
      split
      · exact (h.quiet hauto).1
      · exact (SameControl.evaluate g).startPending.trans (h.quiet hauto).1
    · have hsame := (next_sameVerdicts (g := g) op hevaluate htrigger).autoSuppressed
      exact (hnext (hsame.trans hauto)).1
  closes := by
    rintro rfl hfinish hnone hchild
    simp only [next, hfinish, Bool.false_eq_true, if_false]
    rcases evaluate_cases g with ⟨hwatch, -, -, heq⟩ | ⟨heq, hclosed⟩
    · rw [heq]
      have hdone : g.unresolvedOf g.ledger.applied = 0 := by
        rw [unresolvedOf, hnone]
        rfl
      exact (verdict_suppresses h.accounts hwatch hdone).1
    · rw [heq]
      exact hclosed hnone hchild

end FutilityGuard

/-! ### Runs -/

open FutilityGuard

instance (s : FutilityGuard) (op : GuardOp) : Decidable (futilitySystem.admits s op) :=
  inferInstanceAs (Decidable (s.Admits op))


theorem configured_invariant (autoTrigger : Bool) :
    ({ autoTrigger := autoTrigger } : FutilityGuard).GuardInvariant where
  oneRun := by
    constructor
    · exact Nat.zero_le 1
    · rfl
    · rfl
    · nofun
    · exact fun _ => rfl
  accounts := by
    constructor
    · exact fun _ => rfl
    · exact fun _ _ => rfl
    · nofun
    · exact fun _ _ _ => Or.inl rfl
    · intro n _ _
      exact iff_of_false nofun fun hfutile => Nat.lt_irrefl 0 hfutile.1
    · nofun
  quiet := nofun

theorem oneRun_invariant : futilitySystem.Invariant FutilityGuard.OneRun where
  start := by
    rintro g ⟨autoTrigger, rfl⟩
    exact (configured_invariant autoTrigger).oneRun
  step := fun _ _ h hadmits => next_oneRun h hadmits

theorem judging_invariant :
    (futilitySystem.restrict FutilityGuard.StepJudges).Invariant FutilityGuard.GuardInvariant where
  start := by
    rintro g ⟨autoTrigger, rfl⟩
    exact configured_invariant autoTrigger
  step := fun _ _ h hadmits => next_invariant h hadmits.1 hadmits.2

/-- In every run the child, the start and the finish exclude one another. In every
run whose steps judge, the verdicts are those of the futile runs, and nothing is
started while they suppress. -/
theorem futility_guard_judges (g : FutilityGuard) :
    (futilitySystem.Reachable g →
      g.childActive.toNat + g.startPending.toNat + g.runFinishPending.toNat ≤ 1) ∧
    ((futilitySystem.restrict FutilityGuard.StepJudges).Reachable g →
      g.Judged ∧ ∀ op, g.Admits op → g.StepJudges op → g.StepSound op) := by
  constructor
  · intro hreachable
    exact (hreachable.invariant oneRun_invariant).atMostOne
  · intro hreachable
    have hinvariant := hreachable.invariant judging_invariant
    exact ⟨hinvariant.accounts.judged, fun op _ hjudges => stepSound hinvariant hjudges⟩

/-- A poll in which the child has not exited and no compile is due. -/
def pollOps (ready drained : Bool) (results : Nat) : List GuardOp :=
  ([.poll, .commit ready .kept, .drain drained] : List GuardOp) ++
    List.replicate (results + 1) GuardOp.apply ++
    ([.evaluate, .checkChild none, .schedule true false, .request true] : List GuardOp)

/-- An explicit trigger starts a child; its exit is read from the log, with one
shard published and the given ones found in the cache. -/
def oneRunOps (found : List String) : List GuardOp :=
  ([.triggerNow, .commit false .kept, .drain false, .apply, .evaluate, .checkChild none,
    .schedule true true, .request true, .finishJob (.rescan []), .finishJob (.startChild true),
    .poll, .commit false .kept, .drain true, .apply, .apply, .apply, .evaluate,
    .checkChild (some 0), .schedule true false, .request true,
    .finishJob (.runFinished 0 0 1 ["published.so"] found)] : List GuardOp) ++ pollOps false true 1

/-- The published shard is rejected and the verdict falls. -/
def futileRunOps : List GuardOp :=
  oneRunOps [] ++ ([.takeShard, .finishShard false, .poll, .commit true .kept, .drain false,
    .apply] : List GuardOp)

theorem futile_run_suppresses :
    (futilitySystem.runFrom {} (futileRunOps ++ [.evaluate])).ledger.suppressions = [1] := by
  have hstart : (futilitySystem.restrict FutilityGuard.StepJudges).Reachable {} :=
    .start ⟨true, rfl⟩
  have hadmits : (futilitySystem.restrict FutilityGuard.StepJudges).AdmitsAll {} futileRunOps := by
    decide
  have hreached := hstart.runFrom hadmits
  have hsound := ((futility_guard_judges _).2 hreached).2 .evaluate (by decide)
    (by decide)
  rcases hsound.suppresses with ⟨-, hsame⟩ | ⟨-, hmore, -⟩
  · exact absurd (hsame (by decide)) (by decide)
  · exact hmore.trans (by decide)

/-- The walk that goes with the finish finds another shard, which is rejected too:
two rejections against one queued shard are no verdict. -/
def maskedRunOps : List GuardOp :=
  oneRunOps ["other.so"] ++
    ([.takeShard, .finishShard false, .takeShard, .finishShard false] : List GuardOp) ++
    pollOps true false 0 ++ pollOps true false 0

theorem rescan_masks_futile_run :
    ¬ ∀ g, futilitySystem.Reachable g → g.Judged := by
  intro hclaim
  have hadmits : futilitySystem.AdmitsAll {} maskedRunOps := by decide
  have hstart : futilitySystem.Reachable {} := .start ⟨true, rfl⟩
  have hreached := hstart.runFrom hadmits
  have hjudged := hclaim _ hreached 1 (by decide) (by decide)
  exact absurd (hjudged.mpr (by decide)) (by decide)

end NdsRecomp.LiveOverlay
