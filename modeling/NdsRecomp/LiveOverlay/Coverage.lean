import NdsRecomp.LiveOverlay.RequiredBytes

/-!
What a commit does to coverage. Which resident is retired is decided on row
keys alone; no row is lost in any memory exactly when every row of a retired
resident has a surviving row at its key that asks for no more bytes.
-/

namespace NdsRecomp.LiveOverlay

open Bus Dispatch Library

/-- A registered bank holds a row at the key whose identity is live. -/
def LiveBanks.Covers (g : LiveBanks) (mem : GuestMemory) (cpu : NdsCpu) (pc : UInt32)
    (thumb : Bool) : Prop :=
  ∃ bank ∈ g.loaded, bank.registered = true ∧ bank.cpu = cpu ∧
    ∃ row ∈ bank.rows, row.addr = pc ∧ (row.thumb != 0) = thumb ∧
      validationIdentityLive mem cpu row.validation = true

/-- The rows of the newcomer's CPU that are registered once `bank` is in. -/
def LiveBanks.survivingRows (g : LiveBanks) (bank : LoadedBank) : List NdsDispatchEntry :=
  bank.rows ++ (g.loaded.filter fun resident =>
    resident.registered && decide (resident.cpu = bank.cpu) && !retires bank resident).flatMap
      LoadedBank.rows

/-- If `bank` is adopted, every row of a resident it retires has a surviving
row at the same key that checks only bytes the retired row checks too. -/
def LiveBanks.KeepsIdentities (g : LiveBanks) (bank : LoadedBank) : Prop :=
  g.known bank = none → g.coveringResident bank = none →
    ∀ resident ∈ g.loaded, retires bank resident = true → ∀ row ∈ resident.rows,
      ∃ row' ∈ g.survivingRows bank, row'.addr = row.addr ∧ (row'.thumb != 0) = (row.thumb != 0) ∧
        requiredBytes row' ⊆ requiredBytes row

/-! ### Reachable banks -/

/-- Rows are as preflight left them, and candidate keys are distinct. -/
structure LiveBanks.Sound (g : LiveBanks) : Prop where
  rows : ∀ bank ∈ g.loaded, ∀ row ∈ bank.rows, SoundRow row
  keys : g.loaded.Pairwise fun a b => sameCandidateKey a b = false

theorem Prepared.rows_sound {bank : LoadedBank} (h : Prepared bank) :
    bank.rows ≠ [] ∧ ∀ row ∈ bank.rows, SoundRow row := by
  obtain ⟨info, hinfo, -, -, -, hdispatch⟩ := h.info
  obtain ⟨rows, hrows, hne, hsound⟩ := preflightLiveBank_sound hinfo
  have hbank : bank.rows = rows := by
    unfold LoadedBank.rows
    rw [hdispatch, hrows, Option.getD_some]
  rw [hbank]
  exact ⟨hne, hsound⟩

theorem retire_rows_subset (bank resident : LoadedBank) :
    (retire bank resident).rows ⊆ resident.rows := by
  unfold retire
  split
  · exact List.nil_subset _
  · exact List.Subset.refl _

theorem retire_key (bank a b : LoadedBank) :
    sameCandidateKey (retire bank a) b = sameCandidateKey a b := by
  unfold retire
  split
  · rfl
  · rfl

theorem retire_key_right (bank a b : LoadedBank) :
    sameCandidateKey a (retire bank b) = sameCandidateKey a b := by
  unfold retire
  split
  · rfl
  · rfl

theorem registerLoadedBank_fields (bank : LoadedBank) :
    (registerLoadedBank bank).rows = bank.rows ∧ (registerLoadedBank bank).cpu = bank.cpu ∧
      ∀ a, sameCandidateKey a (registerLoadedBank bank) = sameCandidateKey a bank := by
  unfold registerLoadedBank
  split
  · exact ⟨rfl, rfl, fun _ => rfl⟩
  · exact ⟨rfl, rfl, fun _ => rfl⟩

theorem registerLoadedBank_registered {bank : LoadedBank} (h : bank.rows ≠ []) :
    (registerLoadedBank bank).registered = true := by
  unfold registerLoadedBank
  split
  · next hkept =>
      rcases hkept with hregistered | hempty
      · exact hregistered
      · exact absurd hempty h
  · rfl

/-- The bank `adopt` appends. -/
def LiveBanks.published (g : LiveBanks) (bank : LoadedBank) : LoadedBank :=
  registerLoadedBank
    { bank with serial := g.nextBankSerial, generation := g.publicationGeneration + 1 }

theorem adopt_loaded (g : LiveBanks) (bank : LoadedBank) :
    (g.adopt bank).loaded = g.loaded.map (retire bank) ++ [g.published bank] := rfl

theorem published_rows (g : LiveBanks) (bank : LoadedBank) :
    (g.published bank).rows = bank.rows ∧ (g.published bank).cpu = bank.cpu :=
  ⟨(registerLoadedBank_fields _).1, (registerLoadedBank_fields _).2.1⟩

theorem LiveBanks.Sound.adopt {g : LiveBanks} (h : g.Sound) {bank : LoadedBank}
    (hbank : Prepared bank) (hknown : g.known bank = none) : (g.adopt bank).Sound := by
  refine ⟨?_, ?_⟩
  · intro b hb row hrow
    rw [adopt_loaded] at hb
    rcases List.mem_append.mp hb with hold | hnew
    · obtain ⟨resident, hresident, rfl⟩ := List.mem_map.mp hold
      exact h.rows resident hresident row (retire_rows_subset bank resident hrow)
    · rw [List.mem_singleton.mp hnew, (published_rows g bank).1] at hrow
      exact hbank.rows_sound.2 row hrow
  · rw [adopt_loaded, List.pairwise_append, List.pairwise_map]
    refine ⟨?_, List.pairwise_singleton _ _, ?_⟩
    · refine h.keys.imp ?_
      intro a b hab
      rw [retire_key, retire_key_right]
      exact hab
    · intro a ha b hb
      obtain ⟨resident, hresident, rfl⟩ := List.mem_map.mp ha
      rw [List.mem_singleton.mp hb, retire_key]
      have hno := List.find?_eq_none.mp hknown resident hresident
      have hkey : sameCandidateKey resident (g.published bank) = sameCandidateKey resident bank :=
        (registerLoadedBank_fields _).2.2 resident
      rw [hkey]
      exact Bool.not_eq_true _ ▸ hno

theorem declineKnown_loaded (g : LiveBanks) (bank resident : LoadedBank) :
    (g.declineKnown bank resident).loaded = g.loaded := by
  unfold LiveBanks.declineKnown
  split
  · rfl
  · rfl

theorem declineCovered_loaded (g : LiveBanks) (bank resident : LoadedBank) :
    (g.declineCovered bank resident).loaded = g.loaded := by
  unfold LiveBanks.declineCovered
  split
  · rfl
  · rfl

/-- A commit either leaves the banks as they are or adopts the newcomer. -/
theorem commit_cases (g : LiveBanks) (bank : LoadedBank) :
    ((g.known bank ≠ none ∨ g.coveringResident bank ≠ none) ∧
        (g.commitPreparedBank bank).1.loaded = g.loaded) ∨
      (g.known bank = none ∧ g.coveringResident bank = none ∧
        (g.commitPreparedBank bank).1 = g.adopt bank) := by
  unfold LiveBanks.commitPreparedBank
  cases hknown : g.known bank with
  | some resident =>
      exact Or.inl ⟨Or.inl (Option.some_ne_none _), declineKnown_loaded g bank resident⟩
  | none =>
      cases hcovering : g.coveringResident bank with
      | some resident =>
          exact Or.inl ⟨Or.inr (Option.some_ne_none _), declineCovered_loaded g bank resident⟩
      | none => exact Or.inr ⟨rfl, rfl, rfl⟩

theorem LiveBanks.Sound.of_loaded {g g' : LiveBanks} (h : g.Sound) (hloaded : g'.loaded = g.loaded) :
    g'.Sound := by
  refine ⟨?_, ?_⟩
  · rw [hloaded]
    exact h.rows
  · rw [hloaded]
    exact h.keys

theorem liveBankSystem_sound : liveBankSystem.Invariant LiveBanks.Sound where
  start := by
    rintro g rfl
    exact ⟨fun _ hb => absurd hb List.not_mem_nil, List.Pairwise.nil⟩
  step := by
    intro g bank hg hbank
    change (g.commitPreparedBank bank).1.Sound
    rcases commit_cases g bank with ⟨-, hloaded⟩ | ⟨hknown, -, hadopt⟩
    · exact hg.of_loaded hloaded
    · rw [hadopt]
      exact hg.adopt hbank hknown

/-! ### Coverage across a commit -/

/-- After an adoption a key is covered by a surviving row. -/
theorem covers_adopt {g : LiveBanks} {bank : LoadedBank} (hne : bank.rows ≠ [])
    {mem : GuestMemory} {cpu : NdsCpu} {pc : UInt32} {thumb : Bool} :
    (g.adopt bank).Covers mem cpu pc thumb ↔
      (∃ resident ∈ g.loaded, resident.registered = true ∧ retires bank resident = false ∧
          resident.cpu = cpu ∧ ∃ row ∈ resident.rows, row.addr = pc ∧ (row.thumb != 0) = thumb ∧
            validationIdentityLive mem cpu row.validation = true) ∨
        (bank.cpu = cpu ∧ ∃ row ∈ bank.rows, row.addr = pc ∧ (row.thumb != 0) = thumb ∧
          validationIdentityLive mem cpu row.validation = true) := by
  have hpublished : (g.published bank).registered = true := registerLoadedBank_registered hne
  obtain ⟨hrows, hcpu⟩ := published_rows g bank
  constructor
  · rintro ⟨b, hb, hregistered, hbcpu, hrow⟩
    rw [adopt_loaded] at hb
    rcases List.mem_append.mp hb with hold | hnew
    · obtain ⟨resident, hresident, rfl⟩ := List.mem_map.mp hold
      unfold retire at hregistered hbcpu hrow
      split at hregistered
      · cases hregistered
      · next hkept =>
          rw [if_neg hkept] at hbcpu hrow
          exact Or.inl ⟨resident, hresident, hregistered, Bool.eq_false_of_not_eq_true hkept,
            hbcpu, hrow⟩
    · rw [List.mem_singleton.mp hnew, hcpu] at hbcpu
      rw [List.mem_singleton.mp hnew, hrows] at hrow
      exact Or.inr ⟨hbcpu, hrow⟩
  · rintro (⟨resident, hresident, hregistered, hkept, hbcpu, hrow⟩ | ⟨hbcpu, hrow⟩)
    · have hretire : retire bank resident = resident := by
        unfold retire
        rw [hkept, if_neg Bool.false_ne_true]
      refine ⟨resident, ?_, hregistered, hbcpu, hrow⟩
      rw [adopt_loaded]
      exact List.mem_append_left _ (List.mem_map.mpr ⟨resident, hresident, hretire⟩)
    · refine ⟨g.published bank, ?_, hpublished, hcpu.trans hbcpu, hrows ▸ hrow⟩
      rw [adopt_loaded]
      exact List.mem_append_right _ List.mem_cons_self

theorem retires_spec {bank resident : LoadedBank} (h : retires bank resident = true) :
    resident.registered = true ∧ resident.cpu = bank.cpu := by
  unfold retires sameGeneration at h
  simp only [Bool.and_eq_true, decide_eq_true_eq] at h
  exact ⟨h.1.1.1, h.1.1.2.1⟩

theorem mem_survivingRows {g : LiveBanks} {bank : LoadedBank} {row : NdsDispatchEntry} :
    row ∈ g.survivingRows bank ↔
      row ∈ bank.rows ∨ ∃ resident ∈ g.loaded, resident.registered = true ∧
        resident.cpu = bank.cpu ∧ retires bank resident = false ∧ row ∈ resident.rows := by
  unfold LiveBanks.survivingRows
  simp only [List.mem_append, List.mem_flatMap, List.mem_filter, Bool.and_eq_true,
    decide_eq_true_eq, Bool.not_eq_true', and_assoc]

/-- No key loses coverage in any memory exactly when the identities of retired
rows are kept. -/
theorem covers_commit_iff {g : LiveBanks} (hg : g.Sound) {bank : LoadedBank}
    (hbank : Prepared bank) :
    (∀ mem cpu pc thumb, g.Covers mem cpu pc thumb →
        (g.commitPreparedBank bank).1.Covers mem cpu pc thumb) ↔ g.KeepsIdentities bank := by
  rcases commit_cases g bank with ⟨hdeclined, hloaded⟩ | ⟨hknown, hcovering, hadopt⟩
  · constructor
    · intro _ hknown hcovering
      rcases hdeclined with hne | hne
      · exact absurd hknown hne
      · exact absurd hcovering hne
    · intro _ mem cpu pc thumb hcovers
      unfold LiveBanks.Covers
      rw [hloaded]
      exact hcovers
  · obtain ⟨hne, hsound⟩ := hbank.rows_sound
    rw [hadopt]
    constructor
    · -- the memory that holds exactly what the retired row asks for
      intro hkeeps _ _ resident hresident hretires row hrow
      obtain ⟨hregistered, hcpu⟩ := retires_spec hretires
      have hrowSound := hg.rows resident hresident row hrow
      have hbefore : g.Covers (onlyRequired row) bank.cpu row.addr (row.thumb != 0) :=
        ⟨resident, hresident, hregistered, hcpu, row, hrow, rfl, rfl,
          hrowSound.onlyRequired_live bank.cpu⟩
      have hafter := hkeeps _ _ _ _ hbefore
      rcases (covers_adopt hne).mp hafter with
        ⟨other, hother, hotherRegistered, hkept, hotherCpu, row', hrow', haddr, hthumb, hlive⟩ |
        ⟨-, row', hrow', haddr, hthumb, hlive⟩
      · refine ⟨row', mem_survivingRows.mpr (Or.inr ⟨other, hother, hotherRegistered, hotherCpu,
          hkept, hrow'⟩), haddr, hthumb, ?_⟩
        rintro ⟨a, b⟩ hp
        exact onlyRequired_eq_some (required_of_live hlive (a, b) hp)
      · refine ⟨row', mem_survivingRows.mpr (Or.inl hrow'), haddr, hthumb, ?_⟩
        rintro ⟨a, b⟩ hp
        exact onlyRequired_eq_some (required_of_live hlive (a, b) hp)
    · rintro hkeeps mem cpu pc thumb ⟨b, hb, hregistered, rfl, row, hrow, rfl, rfl, hlive⟩
      apply (covers_adopt hne).mpr
      cases hretires : retires bank b with
      | false => exact Or.inl ⟨b, hb, hregistered, hretires, rfl, row, hrow, rfl, rfl, hlive⟩
      | true =>
          obtain ⟨-, hcpu⟩ := retires_spec hretires
          obtain ⟨row', hrow', haddr, hthumb, hsub⟩ :=
            hkeeps hknown hcovering b hb hretires row hrow
          have hbytes : ∀ p ∈ requiredBytes row', mem b.cpu p.1 = some p.2 :=
            fun p hp => required_of_live hlive p (hsub hp)
          rcases mem_survivingRows.mp hrow' with hnew |
            ⟨other, hother, hotherRegistered, hotherCpu, hkept, hmem⟩
          · exact Or.inr ⟨hcpu.symm, row', hnew, haddr, hthumb, (hsound row' hnew).live hbytes⟩
          · exact Or.inl ⟨other, hother, hotherRegistered, hkept, hotherCpu.trans hcpu.symm, row',
              hmem, haddr, hthumb, (hg.rows other hother row' hmem).live hbytes⟩

/-- The identity of `bytes` at the start of main RAM. -/
def mainRamValidation (bytes : List UInt8) (h : bytes.length < 2 ^ 32) : NdsStaticValidation where
  object := bytes.length
  addr := 0x02000000
  size := UInt32.ofNat bytes.length
  expected := some bytes
  dependencies := none
  dependencyCount := 0
  expected_length := by
    intro b hb
    rw [← Option.some.inj hb, UInt32.toNat_ofNat_of_lt' h]
  dependencies_length := by
    intro ranges hranges
    cases hranges

/-- One ARM row whose body spans a single instruction. -/
def oneRowInfo : NdsLiveBankInfo where
  flags := 0
  staticCpu := 0
  cpu := .arm9
  bankId := some "overlay"
  candidateId := some "one"
  dispatch := some [⟨0x02000000, 0, 1, some (mainRamValidation [1, 2, 3, 4] (by decide))⟩]

/-- The same row with a body that spans two instructions, and a second row. -/
def twoRowInfo : NdsLiveBankInfo where
  flags := 0
  staticCpu := 0
  cpu := .arm9
  bankId := some "overlay"
  candidateId := some "two"
  dispatch :=
    some [⟨0x02000000, 0, 2, some (mainRamValidation [1, 2, 3, 4, 5, 6, 7, 8] (by decide))⟩,
      ⟨0x02000004, 0, 3, some (mainRamValidation [1, 2, 3, 4, 5, 6, 7, 8] (by decide))⟩]

def bankOf (info : NdsLiveBankInfo) : LoadedBank where
  bankId := info.bankId.getD ""
  candidateId := info.candidateId.getD ""
  generationId := "generation"
  cpu := info.cpu
  dispatch := info.dispatch
  contentIdentity := 0
  backendTier := 0

theorem oneRow_prepared : Prepared (bankOf oneRowInfo) :=
  ⟨⟨oneRowInfo, by decide, rfl, rfl, rfl, rfl⟩, rfl, rfl⟩

theorem twoRow_prepared : Prepared (bankOf twoRowInfo) :=
  ⟨⟨twoRowInfo, by decide, rfl, rfl, rfl, rfl⟩, rfl, rfl⟩

/-- A session that has adopted the one-row bank. -/
def oneRowLoaded : LiveBanks := LiveBanks.adopt {} (bankOf oneRowInfo)

theorem oneRowLoaded_reachable : liveBankSystem.Reachable oneRowLoaded := by
  have hstep : liveBankSystem.Reachable (liveBankSystem.next {} (bankOf oneRowInfo)) :=
    .step (.start rfl) oneRow_prepared
  exact hstep

/-- The bytes of the first instruction only. -/
def firstWordMemory : GuestMemory := fun _ a =>
  if 0x02000000 ≤ a then [(1 : UInt8), 2, 3, 4][a - 0x02000000]? else none

/-- The rows of the two-row bank need eight bytes, of which four are there. -/
theorem twoRow_not_live {row : NdsDispatchEntry} (h : row ∈ (bankOf twoRowInfo).rows) :
    validationIdentityLive firstWordMemory .arm9 row.validation = false := by
  have hrows : row = ⟨0x02000000, 0, 2,
        some (mainRamValidation [1, 2, 3, 4, 5, 6, 7, 8] (by decide))⟩ ∨
      row = ⟨0x02000004, 0, 3, some (mainRamValidation [1, 2, 3, 4, 5, 6, 7, 8] (by decide))⟩ := by
    rcases List.mem_cons.mp h with hfirst | htail
    · exact Or.inl hfirst
    · exact Or.inr (List.mem_singleton.mp htail)
  rcases hrows with rfl | rfl
  · decide
  · decide

end NdsRecomp.LiveOverlay
