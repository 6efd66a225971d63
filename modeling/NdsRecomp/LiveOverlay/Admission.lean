import Mathlib
import NdsRecomp.Exec.ByteQueries
import NdsRecomp.LiveOverlay.GuardReject
import NdsRecomp.LiveOverlay.Pipeline

/-!
The gate before the dispatch index: a prepared bank is adopted if the guest
code of one of its rows is resident, and held dormant otherwise. The probe
reads memory as the active CPU sees it, whatever CPU the bank was compiled for.
-/

namespace NdsRecomp.LiveOverlay

open Bus Dispatch Exec

def kDormantMaxValidationProbes : Nat := 256
def kDormantMaxPagesPerCandidate : Nat := 64

/-! ### The probe -/

def rangeBacked (m : Memories) (active : NdsCpu) (range : NdsStaticValidationRange) : Bool :=
  range.expected.isSome && range.size != 0 &&
    m.busRangeHasWriteProvenance active range.addr range.size

/-- `validation_has_provenance` -/
def validationHasProvenance (m : Memories) (active : NdsCpu) (v : NdsStaticValidation) : Bool :=
  if v.dependencyCount ≠ 0 then
    match v.dependencies with
    | none => false
    | some ranges => ranges.all (rangeBacked m active)
  else rangeBacked m active (ownerRange v)

def probeLive (m : Memories) (active : NdsCpu) (v : NdsStaticValidation) : Bool :=
  validationHasProvenance m active v && Guard.validationIdentityLive m active (some v)

/-- The loop of `bank_guard_bytes_live`: a validation named by consecutive rows
is probed once, and too many probes count as live. -/
def guardBytesLoop (m : Memories) (active : NdsCpu) (last : Option NdsStaticValidation)
    (probes : Nat) : List NdsDispatchEntry → Bool
  | [] => false
  | row :: rows =>
      match row.validation with
      | none => guardBytesLoop m active last probes rows
      | some v =>
          if last = some v then guardBytesLoop m active last probes rows
          else if kDormantMaxValidationProbes < probes + 1 then true
          else if probeLive m active v then true
          else guardBytesLoop m active (some v) (probes + 1) rows

def bankGuardBytesLive (m : Memories) (active : NdsCpu) (bank : LoadedBank) : Bool :=
  match bank.dispatch with
  | none => false
  | some rows => guardBytesLoop m active none 0 rows

/-! ### Admission -/

/-- The bases of the pages a validation's span touches. -/
def spanPages (v : NdsStaticValidation) : List UInt32 :=
  let first := v.addr.toNat / execPageSize
  let stop := (min (rangeEnd v.addr v.size) (2 ^ 32) + (execPageSize - 1)) / execPageSize
  (List.range' first (stop - first)).map fun page => UInt32.ofNat (page * execPageSize)

def addPage (pages : List UInt32) (base : UInt32) : List UInt32 :=
  if kDormantMaxPagesPerCandidate ≤ pages.length then pages
  else if base ∈ pages then pages
  else pages ++ [base]

/-- The loop of `bank_owned_pages`. -/
def ownedPagesLoop (last : Option NdsStaticValidation) (pages : List UInt32) :
    List NdsDispatchEntry → List UInt32
  | [] => pages
  | row :: rows =>
      match row.validation with
      | some v =>
          if last = some v then ownedPagesLoop last (addPage pages (pageOf row.addr)) rows
          else
            ownedPagesLoop (some v) (addPage ((spanPages v).foldl addPage pages) (pageOf row.addr))
              rows
      | none => ownedPagesLoop last (addPage pages (pageOf row.addr)) rows

def bankOwnedPages (bank : LoadedBank) : List UInt32 := ownedPagesLoop none [] bank.rows

/-- What an admission changes. -/
structure Overlay where
  banks : LiveBanks := {}
  pipe : Pipeline := {}
  dormantActivations : Nat := 0

variable (pathKey : String → String)

def Overlay.holdDormant (s : Overlay) (bank : LoadedBank) (path : String) : Overlay :=
  { s with
    pipe := s.pipe.noteDormantCandidate pathKey
      { path := path, cpu := bank.cpu, pages := bankOwnedPages bank } }

def Overlay.commit (s : Overlay) (bank : LoadedBank) (path : String) : Overlay :=
  let wasDormant := s.pipe.dormant.any fun candidate => candidate.key == pathKey path
  let result := s.banks.commitPreparedBank bank
  { banks := result.1
    pipe := s.pipe.clearDormantCandidate (pathKey path)
    dormantActivations := s.dormantActivations + if result.2 && wasDormant then 1 else 0 }

/-- `admit_prepared_bank`, while `active` is the active CPU. -/
def Overlay.admitPreparedBank (m : Memories) (active : NdsCpu) (s : Overlay) (bank : LoadedBank)
    (path : String) : Overlay :=
  if bankGuardBytesLive m active bank then s.commit pathKey bank path
  else s.holdDormant pathKey bank path

/-! ### What the probe answers -/

/-- Every range of the row's validation is written and holds its bytes, as
`cpu` sees memory. -/
def RowLive (m : Memories) (cpu : NdsCpu) (row : NdsDispatchEntry) : Prop :=
  ∃ v ranges, row.validation = some v ∧ validationRanges v = some ranges ∧
    ∀ range ∈ ranges, Guard.rangeProvenance m cpu range = true ∧
      Guard.rangeBytesEqual m cpu range = true

/-- Some row of the bank is live. -/
def SomeRowLive (m : Memories) (cpu : NdsCpu) (bank : LoadedBank) : Prop :=
  ∃ row ∈ bank.rows, RowLive m cpu row

/-- The validations the probe looks at, in order. -/
def probedValidations (last : Option NdsStaticValidation) :
    List NdsDispatchEntry → List NdsStaticValidation
  | [] => []
  | row :: rows =>
      match row.validation with
      | none => probedValidations last rows
      | some v =>
          if last = some v then probedValidations last rows
          else v :: probedValidations (some v) rows

/-- Within the limit the loop looks for a live validation. -/
theorem guardBytesLoop_eq_any {m : Memories} {active : NdsCpu}
    {last : Option NdsStaticValidation} {probes : Nat} {rows : List NdsDispatchEntry}
    (h : probes + (probedValidations last rows).length ≤ kDormantMaxValidationProbes) :
    guardBytesLoop m active last probes rows =
      (probedValidations last rows).any (probeLive m active) := by
  induction rows generalizing last probes with
  | nil => rfl
  | cons row rows ih =>
      unfold probedValidations at h ⊢
      unfold guardBytesLoop
      cases hv : row.validation with
      | none =>
          rw [hv] at h
          exact ih h
      | some v =>
          rw [hv] at h
          dsimp only at h ⊢
          by_cases hlast : last = some v
          · rw [if_pos hlast] at h ⊢
            rw [if_pos hlast]
            exact ih h
          · rw [if_neg hlast] at h ⊢
            rw [if_neg hlast]
            rw [List.length_cons] at h
            rw [if_neg (by omega), List.any_cons, ih (by omega)]
            cases probeLive m active v <;> rfl

/-- Skipping repeated validations hides none that is live, as the one before
was not. -/
theorem any_probed_iff {p : NdsStaticValidation → Bool} {last : Option NdsStaticValidation}
    {rows : List NdsDispatchEntry} :
    ((probedValidations last rows).any p = true ∨ ∃ v, last = some v ∧ p v = true) ↔
      ((∃ row ∈ rows, ∃ v, row.validation = some v ∧ p v = true) ∨
        ∃ v, last = some v ∧ p v = true) := by
  induction rows generalizing last with
  | nil => simp [probedValidations]
  | cons row rows ih =>
      unfold probedValidations
      cases hv : row.validation with
      | none => simpa [hv] using ih
      | some v =>
          dsimp only
          have hnext := @ih (some v)
          simp only [Option.some.injEq, exists_eq_left'] at hnext
          simp only [List.exists_mem_cons_iff, hv, Option.some.injEq, exists_eq_left']
          by_cases hlast : last = some v
          · subst hlast
            simp only [Option.some.injEq, exists_eq_left', if_true]
            rw [hnext, or_comm (a := p v = true), or_assoc, or_self]
          · rw [if_neg hlast, List.any_cons, Bool.or_eq_true, or_comm (a := p v = true), hnext,
              or_comm (b := p v = true)]

theorem validationHasProvenance_eq {v : NdsStaticValidation}
    {ranges : List NdsStaticValidationRange} (h : validationRanges v = some ranges) (m : Memories)
    (active : NdsCpu) : validationHasProvenance m active v = ranges.all (rangeBacked m active) := by
  unfold validationRanges at h
  unfold validationHasProvenance
  by_cases hcount : v.dependencyCount = 0
  · rw [if_neg (not_not_intro hcount)] at h
    rw [if_neg (not_not_intro hcount), ← Option.some.inj h, List.all_cons, List.all_nil,
      Bool.and_true]
  · rw [if_pos hcount] at h
    rw [if_pos hcount, h]

/-- The two questions of the probe come down to one. -/
theorem probeLive_iff {v : NdsStaticValidation} {ranges : List NdsStaticValidationRange}
    (hsound : Guard.SoundRanges v ranges) {m : Memories} {active : NdsCpu} :
    probeLive m active v = true ↔ ∀ range ∈ ranges, Guard.rangeProvenance m active range = true ∧
      Guard.rangeBytesEqual m active range = true := by
  unfold probeLive
  rw [Guard.validationIdentityLive_agrees hsound, validationHasProvenance_eq hsound.visited]
  unfold Memories.validationIdentityLive forEachValidationRange
  rw [hsound.visited]
  dsimp only
  rw [Bool.and_eq_true, List.all_eq_true, List.all_eq_true]
  constructor
  · rintro ⟨-, hlive⟩ range hrange
    have hall := hlive range hrange
    rw [Guard.memories_rangeLive_eq, Bool.and_eq_true, Bool.and_eq_true] at hall
    exact ⟨hall.1.2, hall.2⟩
  · intro hall
    refine ⟨fun range hrange => ?_, fun range hrange => ?_⟩
    · have hshape := hsound.shape range hrange
      unfold Guard.rangeShape at hshape
      rw [Bool.and_eq_true] at hshape
      unfold rangeBacked
      rw [hshape.1, Bool.true_and]
      exact (hall range hrange).1
    · obtain ⟨hprovenance, hbytes⟩ := hall range hrange
      rw [Guard.memories_rangeLive_eq, hsound.shape range hrange, hprovenance, hbytes]
      rfl

/-- The ranges of every row, as preflight has left them. -/
theorem Prepared.sound_rows {bank : LoadedBank} (h : Prepared bank) :
    ∃ rows, bank.dispatch = some rows ∧ bank.rows = rows ∧
      ∀ row ∈ rows, ∃ v ranges, row.validation = some v ∧ Guard.SoundRanges v ranges := by
  obtain ⟨info, hok, -, -, -, hdispatch⟩ := h.info
  obtain ⟨rows, hrows, -, hall⟩ := Guard.preflightLiveBank_checks hok
  rw [hrows] at hdispatch
  refine ⟨rows, hdispatch, ?_, fun row hrow => ?_⟩
  · unfold LoadedBank.rows
    rw [hdispatch]
    rfl
  · obtain ⟨v, ranges, hv, -, hsound⟩ := hall row hrow
    exact ⟨v, ranges, hv, hsound⟩

/-- The probe answers for the active CPU. -/
theorem bankGuardBytesLive_iff {bank : LoadedBank} (h : Prepared bank)
    (hprobes : (probedValidations none bank.rows).length ≤ kDormantMaxValidationProbes)
    {m : Memories} {active : NdsCpu} :
    bankGuardBytesLive m active bank = true ↔ SomeRowLive m active bank := by
  obtain ⟨rows, hdispatch, hrows, hall⟩ := h.sound_rows
  rw [hrows] at hprobes
  have hprobed := @any_probed_iff (probeLive m active) none rows
  simp only [reduceCtorEq, false_and, exists_false, or_false] at hprobed
  unfold bankGuardBytesLive SomeRowLive
  rw [hdispatch, hrows]
  dsimp only
  rw [guardBytesLoop_eq_any (by omega), hprobed]
  constructor
  · rintro ⟨row, hrow, v, hv, hlive⟩
    obtain ⟨v', ranges, hv', hsound⟩ := hall row hrow
    obtain rfl : v = v' := Option.some.inj (hv.symm.trans hv')
    exact ⟨row, hrow, v, ranges, hv, hsound.visited, (probeLive_iff hsound).mp hlive⟩
  · rintro ⟨row, hrow, v, ranges, hv, hvisited, hlive⟩
    obtain ⟨v', ranges', hv', hsound⟩ := hall row hrow
    obtain rfl : v = v' := Option.some.inj (hv.symm.trans hv')
    obtain rfl : ranges = ranges' := Option.some.inj (hvisited.symm.trans hsound.visited)
    exact ⟨row, hrow, v, hv, (probeLive_iff hsound).mpr hlive⟩

/-! ### The bank's own CPU -/

/-- The bank is committed if a row is live for its own CPU, and otherwise held
dormant with the registered banks as they were. -/
structure AsksOwnCpu (m : Memories) (active : NdsCpu) (s : Overlay) (bank : LoadedBank)
    (path : String) : Prop where
  committed : SomeRowLive m bank.cpu bank →
    s.admitPreparedBank pathKey m active bank path = s.commit pathKey bank path
  held : ¬ SomeRowLive m bank.cpu bank →
    s.admitPreparedBank pathKey m active bank path = s.holdDormant pathKey bank path ∧
      (s.admitPreparedBank pathKey m active bank path).banks = s.banks

/-- A commit leaves a trace, whether it adopts the bank or declines it. -/
theorem commitPreparedBank_ne (g : LiveBanks) (bank : LoadedBank) :
    (g.commitPreparedBank bank).1 ≠ g := by
  unfold LiveBanks.commitPreparedBank
  intro h
  split at h
  · next resident _ =>
      have hrejects := congrArg (fun g => g.rejects.length) h
      unfold LiveBanks.declineKnown at hrejects
      split at hrejects <;> simp [LiveBanks.noteReject] at hrejects
  · split at h
    · have hrejects := congrArg (fun g => g.rejects.length) h
      unfold LiveBanks.declineCovered at hrejects
      split at hrejects <;> simp [LiveBanks.noteReject] at hrejects
    · have hserial := congrArg LiveBanks.nextBankSerial h
      simp [LiveBanks.adopt] at hserial

theorem asksOwnCpu_iff {bank : LoadedBank} (h : Prepared bank)
    (hprobes : (probedValidations none bank.rows).length ≤ kDormantMaxValidationProbes)
    (m : Memories) (active : NdsCpu) (s : Overlay) (path : String) :
    AsksOwnCpu pathKey m active s bank path ↔
      (SomeRowLive m active bank ↔ SomeRowLive m bank.cpu bank) := by
  have hprobe : bankGuardBytesLive m active bank = true ↔ SomeRowLive m active bank :=
    bankGuardBytesLive_iff h hprobes
  have hchanged : (s.commit pathKey bank path).banks ≠ s.banks := commitPreparedBank_ne s.banks bank
  constructor
  · rintro ⟨hcommitted, hheld⟩
    unfold Overlay.admitPreparedBank at hcommitted hheld
    by_cases hlive : bankGuardBytesLive m active bank = true
    · refine iff_of_true (hprobe.mp hlive) (by_contra fun hown => ?_)
      rw [if_pos hlive] at hheld
      exact hchanged (hheld hown).2
    · refine iff_of_false (fun hactive => hlive (hprobe.mpr hactive)) fun hown => ?_
      rw [if_neg hlive] at hcommitted
      exact hchanged (congrArg Overlay.banks (hcommitted hown)).symm
  · intro hsame
    constructor
    · intro hown
      exact if_pos (hprobe.mpr (hsame.mpr hown))
    · intro hown
      have hheld : s.admitPreparedBank pathKey m active bank path =
          s.holdDormant pathKey bank path :=
        if_neg fun hlive => hown (hsame.mp (hprobe.mp hlive))
      exact ⟨hheld, by rw [hheld]; rfl⟩

/-- Both CPUs reach the same plain memory behind every range of a row. -/
def MappedAlike (m : Memories) (row : NdsDispatchEntry) : Prop :=
  ∀ v ranges, row.validation = some v → validationRanges v = some ranges →
    ∀ range ∈ ranges, ∀ chunk ∈ rangeChunks range.addr range.size.toNat,
      ∃ p, ∀ cpu, resolve m.core cpu chunk.addr chunk.len = some p

theorem MappedAlike.rowLive {m : Memories} {row : NdsDispatchEntry} (h : MappedAlike m row)
    {cpu : NdsCpu} (other : NdsCpu) (hlive : RowLive m cpu row) : RowLive m other row := by
  obtain ⟨v, ranges, hv, hvisited, hall⟩ := hlive
  refine ⟨v, ranges, hv, hvisited, fun range hrange => ?_⟩
  obtain ⟨hprovenance, hbytes⟩ := hall range hrange
  unfold Guard.rangeProvenance Memories.busRangeHasWriteProvenance at hprovenance ⊢
  unfold Guard.rangeBytesEqual Memories.busLiveBytesEqual at hbytes ⊢
  rw [Bool.and_eq_true, List.all_eq_true] at hprovenance hbytes ⊢
  rw [Bool.and_eq_true, List.all_eq_true]
  refine ⟨⟨hprovenance.1, fun chunk hchunk => ?_⟩, hbytes.1, fun chunk hchunk => ?_⟩
  · obtain ⟨p, hp⟩ := h v ranges hv hvisited range hrange chunk hchunk
    have hchunk := hprovenance.2 chunk hchunk
    unfold Memories.chunkHasProvenance at hchunk ⊢
    rw [hp] at hchunk ⊢
    exact hchunk
  · obtain ⟨p, hp⟩ := h v ranges hv hvisited range hrange chunk hchunk
    have hchunk := hbytes.2 chunk hchunk
    unfold Memories.chunkBytesEqual at hchunk ⊢
    rw [hp] at hchunk ⊢
    exact hchunk

/-- Admission asks the bank's own CPU exactly when the active CPU happens to
give the same answer. It does where the bank's CPU is the active one, and where
both reach the same memory. -/
theorem admitPreparedBank_exact {bank : LoadedBank} (h : Prepared bank)
    (hprobes : (probedValidations none bank.rows).length ≤ kDormantMaxValidationProbes)
    (m : Memories) (active : NdsCpu) (s : Overlay) (path : String) :
    (AsksOwnCpu pathKey m active s bank path ↔
        (SomeRowLive m active bank ↔ SomeRowLive m bank.cpu bank)) ∧
      (active = bank.cpu → AsksOwnCpu pathKey m active s bank path) ∧
      ((∀ row ∈ bank.rows, MappedAlike m row) → AsksOwnCpu pathKey m active s bank path) := by
  have hiff := asksOwnCpu_iff pathKey h hprobes m active s path
  refine ⟨hiff, fun hsame => hiff.mpr (by rw [hsame]), fun halike => hiff.mpr ?_⟩
  constructor
  · rintro ⟨row, hrow, hlive⟩
    exact ⟨row, hrow, (halike row hrow).rowLive bank.cpu hlive⟩
  · rintro ⟨row, hrow, hlive⟩
    exact ⟨row, hrow, (halike row hrow).rowLive active hlive⟩

/-- The one-row bank in main RAM. -/
theorem admitPreparedBank_exact_oneRow :
    AsksOwnCpu id (onlyWritten {} .mainRam) .arm9 {} (bankOf oneRowInfo) "one" :=
  (admitPreparedBank_exact id oneRow_prepared (by decide) (onlyWritten {} .mainRam) .arm9 {}
    "one").2.1 rfl

/-! ### Code in the instruction TCM -/

theorem no_ranges_length (ranges : List NdsStaticValidationRange) (h : none = some ranges) :
    ranges.length = (0 : UInt32).toNat := by
  cases h

/-- Four zero bytes at the usual address of the instruction TCM. -/
def itcmValidation : NdsStaticValidation where
  object := 0
  addr := 0x01FF8000
  size := 4
  expected := some [0, 0, 0, 0]
  dependencies := none
  dependencyCount := 0
  expected_length := by
    intro b hb
    rw [← Option.some.inj hb]
    rfl
  dependencies_length := no_ranges_length

def itcmInfo : NdsLiveBankInfo where
  flags := 0
  staticCpu := 0
  cpu := .arm9
  bankId := some "overlay"
  candidateId := some "itcm"
  dispatch := some [⟨0x01FF8000, 0, 1, some itcmValidation⟩]

theorem itcm_prepared : Prepared (bankOf itcmInfo) :=
  ⟨⟨itcmInfo, by decide, rfl, rfl, rfl, rfl⟩, rfl, rfl⟩

/-- The instruction TCM is on, and written. -/
def itcmMemories : Memories :=
  onlyWritten { cp15 := { visible := { itcmEnable := true, itcmSize := 0x02000000 } } } .itcm

/-- A bank whose code is resident is held dormant because the other CPU ran
last. -/
theorem itcm_bank_held :
    ¬ ∀ (bank : LoadedBank), Prepared bank →
      (probedValidations none bank.rows).length ≤ kDormantMaxValidationProbes →
      ∀ (m : Memories) (active : NdsCpu) (s : Overlay) (path : String),
        AsksOwnCpu id m active s bank path := by
  intro h
  have hprobes : (probedValidations none (bankOf itcmInfo).rows).length ≤
      kDormantMaxValidationProbes := by decide
  have hown : bankGuardBytesLive itcmMemories .arm9 (bankOf itcmInfo) = true := by decide
  have hother : ¬ bankGuardBytesLive itcmMemories .arm7 (bankOf itcmInfo) = true := by
    decide
  have hsame := (asksOwnCpu_iff id itcm_prepared hprobes itcmMemories .arm7 {} "itcm").mp
    (h _ itcm_prepared hprobes _ _ _ _)
  have hlive := hsame.mpr ((bankGuardBytesLive_iff itcm_prepared hprobes).mp hown)
  exact hother ((bankGuardBytesLive_iff itcm_prepared hprobes).mpr hlive)

end NdsRecomp.LiveOverlay
