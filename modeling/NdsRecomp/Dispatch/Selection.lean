import NdsRecomp.Dispatch.Lookup

/-!
Both selections are one scan over the rows stored under the wanted key. For a
bank this needs its table to be sorted by address; for the index it needs the
index to be sorted by key. What is left to compare afterwards is only the order
in which the two visit the same rows.
-/

namespace NdsRecomp.Dispatch

open Library

/-- Strictly sorted by `(addr, thumb)`. -/
def StrictlySorted (entries : List NdsDispatchEntry) : Prop :=
  entries.Pairwise fun a b => a.addr < b.addr ∨ a.addr = b.addr ∧ a.thumb < b.thumb

def rankNat (row : DispatchRow) : Nat := (ndsDispatchCandidateRank row).toNat

/-- The rank kept beside the best row is the rank of that row. -/
def CandidateScan.Ranked (scan : CandidateScan) : Prop :=
  scan.bestRank = scan.best.elim 0 ndsDispatchCandidateRank

def accepts (rejects : NdsStaticValidation → Bool) (row : DispatchRow) : Bool :=
  !row.entry.validation.any rejects

/-- What a candidate does to the two counters, whatever the best row is. -/
def tally (rejects : NdsStaticValidation → Bool)
    (counters : Option DispatchRow × UInt32) (row : DispatchRow) :
    Option DispatchRow × UInt32 :=
  (if row.entry.validation.any rejects then some row else counters.1, counters.2 + 1)

def CandidateScan.counters (scan : CandidateScan) : Option DispatchRow × UInt32 :=
  (scan.inactive, scan.candidateCount)

theorem CandidateScan.ext_of_ranked {a b : CandidateScan} (ha : a.Ranked) (hb : b.Ranked)
    (hbest : a.best = b.best) (hcounters : a.counters = b.counters) : a = b := by
  have hrank : a.bestRank = b.bestRank := by rw [ha, hb, hbest]
  obtain ⟨hinactive, hcount⟩ := Prod.mk.inj hcounters
  cases a
  cases b
  simp_all

theorem rankWins_eq_firstMax {scan : CandidateScan} (hranked : scan.Ranked)
    (row : DispatchRow) :
    (if ndsDispatchRankWins scan.best scan.bestRank (ndsDispatchCandidateRank row)
      then some row else scan.best) = firstMax rankNat scan.best (some row) := by
  unfold CandidateScan.Ranked at hranked
  cases hbest : scan.best with
  | none => simp [ndsDispatchRankWins]
  | some best =>
      have hlt : ndsDispatchCandidateRank best < ndsDispatchCandidateRank row ↔
          rankNat best < rankNat row := UInt32.lt_iff_toNat_lt
      rw [hranked, hbest]
      by_cases hrank : rankNat best < rankNat row
      · simp [ndsDispatchRankWins, firstMax, hlt, hrank]
      · simp [ndsDispatchRankWins, firstMax, hlt, hrank]

/-- Replacing the best row by a ranked winner, the step both the candidate
loop and the bank loop end with. -/
theorem offer_spec {scan : CandidateScan} (hranked : scan.Ranked) (row : DispatchRow) :
    let offered :=
      if ndsDispatchRankWins scan.best scan.bestRank (ndsDispatchCandidateRank row) then
        { scan with best := some row, bestRank := ndsDispatchCandidateRank row }
      else scan
    offered.Ranked ∧ offered.counters = scan.counters ∧
      offered.best = firstMax rankNat scan.best (some row) := by
  intro offered
  have hbest := rankWins_eq_firstMax hranked row
  by_cases hwins :
      ndsDispatchRankWins scan.best scan.bestRank (ndsDispatchCandidateRank row) = true
  · simp only [offered, hwins, if_true] at hbest ⊢
    exact ⟨rfl, rfl, hbest⟩
  · simp only [offered, hwins] at hbest ⊢
    exact ⟨hranked, rfl, hbest⟩

theorem scanCandidate_spec (rejects : NdsStaticValidation → Bool) {scan : CandidateScan}
    (hranked : scan.Ranked) (row : DispatchRow) :
    (scanCandidate rejects scan row).Ranked ∧
      (scanCandidate rejects scan row).counters = tally rejects scan.counters row ∧
      (scanCandidate rejects scan row).best =
        if accepts rejects row then firstMax rankNat scan.best (some row) else scan.best := by
  let counted := { scan with candidateCount := scan.candidateCount + 1 }
  have hcounted : counted.Ranked := hranked
  by_cases hreject : row.entry.validation.any rejects = true
  · have haccept : accepts rejects row = false := by simp [accepts, hreject]
    simp only [scanCandidate, hreject, if_true, haccept, Bool.false_eq_true, if_false]
    refine ⟨hranked, ?_, trivial⟩
    simp [CandidateScan.counters, tally, hreject]
  · have haccept : accepts rejects row = true := by simpa [accepts] using hreject
    obtain ⟨hkept, hcounters, hbest⟩ := offer_spec hcounted row
    simp only [scanCandidate, hreject, haccept, if_true]
    refine ⟨hkept, hcounters.trans ?_, hbest⟩
    simp [CandidateScan.counters, counted, tally, hreject]

/-- The scan of a list of candidates: the counters see every candidate, the
best row is the first accepted one of largest rank. -/
theorem foldl_scanCandidate (rejects : NdsStaticValidation → Bool)
    (rows : List DispatchRow) {scan : CandidateScan} (hranked : scan.Ranked) :
    let final := rows.foldl (scanCandidate rejects) scan
    final.Ranked ∧ final.counters = rows.foldl (tally rejects) scan.counters ∧
      final.best =
        firstMax rankNat scan.best (firstMaxOf rankNat (rows.filter (accepts rejects))) := by
  induction rows generalizing scan with
  | nil => exact ⟨hranked, rfl, by simp [firstMaxOf]⟩
  | cons row rows ih =>
      obtain ⟨hstep, hcounters, hbest⟩ := scanCandidate_spec rejects hranked row
      obtain ⟨hfinal, hfinalCounters, hfinalBest⟩ := ih hstep
      refine ⟨hfinal, by simpa [hcounters] using hfinalCounters, ?_⟩
      rw [List.foldl_cons, hfinalBest, hbest]
      cases haccept : accepts rejects row with
      | true =>
          simp only [if_true, List.filter_cons_of_pos haccept, firstMaxOf_cons,
            firstMax_assoc]
      | false => simp [haccept]

/-! ### One bank -/

theorem NdsDispatchBankView.pairwise_rows {bank : NdsDispatchBankView}
    {relation : NdsDispatchEntry → NdsDispatchEntry → Prop}
    (h : bank.entries.Pairwise relation) :
    bank.rows.Pairwise fun a b => relation a.entry b.entry := by
  have hmap : bank.rows.map DispatchRow.entry = bank.entries := by
    apply List.ext_getElem <;> simp [NdsDispatchBankView.rows]
  rw [← hmap] at h
  exact List.pairwise_map.mp h

theorem rows_keySorted {bank : NdsDispatchBankView} (h : StrictlySorted bank.entries) :
    KeySorted keyNat bank.rows := by
  refine (bank.pairwise_rows h).imp ?_
  intro a b hab
  rw [keyNat_eq, keyNat_eq]
  have hmode : (a.entry.thumb != 0).toNat ≤ 1 := Bool.toNat_le _
  rcases hab with haddr | ⟨haddr, hthumb⟩
  · have := UInt32.lt_iff_toNat_lt.mp haddr
    omega
  · have hnonzero : b.entry.thumb ≠ 0 := by
      rintro hzero
      rw [hzero] at hthumb
      exact absurd hthumb (by simp)
    have hone : (b.entry.thumb != 0).toNat = 1 := by simp [hnonzero]
    rw [haddr, hone]
    omega

theorem rows_addrSorted {bank : NdsDispatchBankView} (h : StrictlySorted bank.entries) :
    KeySorted (fun row : DispatchRow => row.entry.addr.toNat) bank.rows := by
  refine (bank.pairwise_rows h).imp ?_
  rintro a b (haddr | ⟨haddr, _⟩)
  · exact (UInt32.lt_iff_toNat_lt.mp haddr).le
  · exact (congrArg UInt32.toNat haddr).le

/-- The rows of a bank a lookup of `(pc, thumb)` visits. -/
def bankCandidates (pc : UInt32) (thumb : Bool) (bank : NdsDispatchBankView) :
    List DispatchRow :=
  runAt keyNat (dispatchKey pc thumb).toNat bank.rows

theorem keyNat_eq_iff {row : DispatchRow} {pc : UInt32} {thumb : Bool} :
    keyNat row = (dispatchKey pc thumb).toNat ↔
      row.entry.addr = pc ∧ (row.entry.thumb != 0) = thumb := by
  rw [keyNat, UInt64.toNat_inj]
  exact dispatchKey_inj

private theorem lookupOneLoop_eq_foldl (rejects : NdsStaticValidation → Bool) (pc : UInt32)
    (thumb : Bool) (rows : List DispatchRow) (scan : CandidateScan) :
    lookupOneLoop rejects pc thumb rows scan =
      ((rows.takeWhile fun row => decide (row.entry.addr.toNat = pc.toNat)).filter
        fun row => (row.entry.thumb != 0) == thumb).foldl (scanCandidate rejects) scan := by
  induction rows generalizing scan with
  | nil => rfl
  | cons row rows ih =>
      by_cases haddr : row.entry.addr = pc
      · by_cases hthumb : (row.entry.thumb != 0) = thumb
        · simp [lookupOneLoop, haddr, hthumb, ih]
        · simp [lookupOneLoop, haddr, hthumb, ih]
      · simp [lookupOneLoop, haddr, UInt32.toNat_inj]

/-- Search and loop of `nds_dispatch_lookup_one` together visit exactly the
rows of the table under the wanted key. -/
theorem lookupOne_eq_scan {bank : NdsDispatchBankView} (hsorted : StrictlySorted bank.entries)
    (pc : UInt32) (thumb : Bool) (candidateCount : UInt32) (inactive : Option DispatchRow)
    (live : Option NdsDispatchValidationFn) :
    ndsDispatchLookupOne bank pc thumb candidateCount inactive live =
      (bankCandidates pc thumb bank).foldl (scanCandidate (oneRejects live pc thumb))
        { inactive := inactive, candidateCount := candidateCount } := by
  have haddr := rows_addrSorted hsorted
  have hdrop : bank.rows.drop (lookupOneLowerBound bank.rows pc) =
      bank.rows.dropWhile fun row => decide (row.entry.addr.toNat < pc.toNat) := by
    have hpairwise : bank.rows.Pairwise fun a b =>
        decide (b.entry.addr < pc) = true → decide (a.entry.addr < pc) = true := by
      refine haddr.imp ?_
      intro a b hab
      simp only [decide_eq_true_eq, UInt32.lt_iff_toNat_lt]
      exact lt_of_le_of_lt hab
    rw [lookupOneLowerBound, drop_partitionPoint _ _ hpairwise]
    congr 1
  have hrun : (runAt (fun row : DispatchRow => row.entry.addr.toNat) pc.toNat bank.rows).filter
      (fun row => (row.entry.thumb != 0) == thumb) = bankCandidates pc thumb bank := by
    unfold runAt bankCandidates
    rw [List.filter_filter]
    congr 1
    funext row
    rw [Bool.eq_iff_iff]
    simp only [Bool.and_eq_true, beq_iff_eq, decide_eq_true_eq, keyNat_eq_iff,
      UInt32.toNat_inj]
    exact and_comm
  unfold ndsDispatchLookupOne
  simp only
  rw [lookupOneLoop_eq_foldl, hdrop, takeWhile_dropWhile_eq_runAt haddr, hrun]

/-- A bank of the chain adds its candidates to the scan of the banks before. -/
theorem chainBank_eq_scan {bank : NdsDispatchBankView} (hsorted : StrictlySorted bank.entries)
    (pc : UInt32) (thumb : Bool) (live : Option NdsDispatchValidationFn)
    {scan : CandidateScan} (hranked : scan.Ranked) :
    chainBank pc thumb live scan bank =
      (bankCandidates pc thumb bank).foldl (scanCandidate (oneRejects live pc thumb)) scan := by
  let rejects := oneRejects live pc thumb
  let fresh : CandidateScan :=
    { inactive := scan.inactive, candidateCount := scan.candidateCount }
  obtain ⟨_, honeCounters, honeBest⟩ :=
    @foldl_scanCandidate rejects (bankCandidates pc thumb bank) fresh rfl
  obtain ⟨hallRanked, hallCounters, hallBest⟩ :=
    foldl_scanCandidate rejects (bankCandidates pc thumb bank) hranked
  have hcounters : (ndsDispatchLookupOne bank pc thumb scan.candidateCount scan.inactive
      live).counters = (bankCandidates pc thumb bank).foldl (tally rejects) scan.counters := by
    rw [lookupOne_eq_scan hsorted]
    exact honeCounters
  have hbest : (ndsDispatchLookupOne bank pc thumb scan.candidateCount scan.inactive
      live).best = firstMaxOf rankNat ((bankCandidates pc thumb bank).filter
        (accepts rejects)) := by
    rw [lookupOne_eq_scan hsorted]
    exact honeBest
  unfold chainBank
  simp only
  generalize ndsDispatchLookupOne bank pc thumb scan.candidateCount scan.inactive live = one
    at hcounters hbest
  let counted : CandidateScan :=
    { scan with inactive := one.inactive, candidateCount := one.candidateCount }
  have hcounted : counted.Ranked := hranked
  cases hone : one.best with
  | none =>
      refine CandidateScan.ext_of_ranked hcounted hallRanked ?_ (hcounters.trans hallCounters.symm)
      rw [hallBest, ← hbest, hone, firstMax_none_right]
  | some hit =>
      obtain ⟨hoffered, hofferedCounters, hofferedBest⟩ := offer_spec hcounted hit
      refine CandidateScan.ext_of_ranked hoffered hallRanked ?_
        (hofferedCounters.trans (hcounters.trans hallCounters.symm))
      rw [hallBest, ← hbest, hone]
      exact hofferedBest

/-! ### The chain and the index -/

/-- The chain visits the candidates bank after bank. -/
theorem lookupChain_eq_scan (banks : List NdsDispatchBankView)
    (hsorted : ∀ bank ∈ banks, StrictlySorted bank.entries) (pc : UInt32) (thumb : Bool)
    (live : Option NdsDispatchValidationFn) :
    ndsDispatchLookupChain banks pc thumb live =
      ((banks.flatMap (bankCandidates pc thumb)).foldl
        (scanCandidate (oneRejects live pc thumb)) {}).result := by
  have hfold (scan : CandidateScan) (hranked : scan.Ranked) :
      banks.foldl (chainBank pc thumb live) scan =
        (banks.flatMap (bankCandidates pc thumb)).foldl
          (scanCandidate (oneRejects live pc thumb)) scan := by
    induction banks generalizing scan with
    | nil => rfl
    | cons bank banks ih =>
        rw [List.foldl_cons, List.flatMap_cons, List.foldl_append,
          chainBank_eq_scan (hsorted bank (by simp)) pc thumb live hranked]
        refine ih ?_ _ (foldl_scanCandidate _ _ hranked).1
        intro other hother
        exact hsorted other (List.mem_cons_of_mem _ hother)
  exact congrArg CandidateScan.result (hfold {} rfl)

/-- The index lookup visits the run of the key in index order. -/
theorem lookupIndex_eq_scan {index : List DispatchRow} (hsorted : KeySorted keyNat index)
    (pc : UInt32) (thumb : Bool) (live : Option NdsDispatchValidationFn) :
    ndsDispatchLookupIndex index pc thumb live =
      ((runAt keyNat (dispatchKey pc thumb).toNat index).foldl
        (scanCandidate (indexRejects live pc thumb)) {}).result := by
  let wanted := dispatchKey pc thumb
  have hdrop : index.drop (indexLowerBound index wanted) =
      index.dropWhile fun row => decide (keyNat row < wanted.toNat) := by
    have hpairwise : index.Pairwise fun a b =>
        decide (ndsDispatchEntryKey b < wanted) = true →
          decide (ndsDispatchEntryKey a < wanted) = true := by
      refine hsorted.imp ?_
      intro a b hab
      simp only [decide_eq_true_eq, UInt64.lt_iff_toNat_lt]
      exact lt_of_le_of_lt hab
    rw [indexLowerBound, drop_partitionPoint _ _ hpairwise]
    congr 1
  have htest : (fun row => ndsDispatchEntryKey row == wanted) =
      fun row => decide (keyNat row = wanted.toNat) := by
    funext row
    rw [Bool.eq_iff_iff]
    simp [keyNat, UInt64.toNat_inj]
  unfold ndsDispatchLookupIndex
  simp only
  rw [hdrop, htest, takeWhile_dropWhile_eq_runAt hsorted]

/-- With a predicate supplied, the two tests on a candidate are one. They
differ only on the null predicate: the chain then takes every validated row for
inactive and the index takes every one for live. -/
theorem oneRejects_some_eq_indexRejects (live : NdsDispatchValidationFn) (pc : UInt32)
    (thumb : Bool) :
    oneRejects (some live) pc thumb = indexRejects (some live) pc thumb := rfl

end NdsRecomp.Dispatch
