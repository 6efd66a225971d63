import NdsRecomp.ShardCompiler.CaptureIndex

/-!
The index only grows, as long as no failure is recorded over a published capture
and the file is of the process's ROM. Then every root recorded stays, a process
compiles a page with no fewer roots than before, and a page seen again with
nothing new is the same work, which the index answers.
-/

namespace NdsRecomp.ShardCompiler

open Library

variable {K P : Type} [DecidableEq K] [DecidableEq P]

/-! ### The dictionary -/

section Dictionary

variable {c c' : Captures K} {key k : K} {r r₀ : CaptureRecord}

theorem setDefault_keeps (h : c.lookup k = some r₀) : (setDefault c key r).lookup k = some r₀ := by
  unfold setDefault
  split
  · exact h
  · rename_i hnew
    rw [AList.lookup_insert_ne, h]
    rintro rfl
    exact hnew (AList.lookup_isSome.mp (by rw [h]; rfl))

theorem setDefault_cases (h : (setDefault c key r).lookup k = some r₀) :
    c.lookup k = some r₀ ∨ (k = key ∧ r₀ = r) := by
  unfold setDefault at h
  split at h
  · exact Or.inl h
  · by_cases hk : k = key
    · subst hk
      rw [AList.lookup_insert] at h
      exact Or.inr ⟨rfl, (Option.some.inj h).symm⟩
    · rw [AList.lookup_insert_ne hk] at h
      exact Or.inl h

theorem foldl_setDefault_keeps (entries : List (Sigma fun _ : K => CaptureRecord))
    (h : c.lookup k = some r₀) :
    (entries.foldl (fun c e => setDefault c e.1 e.2) c).lookup k = some r₀ := by
  induction entries generalizing c with
  | nil => exact h
  | cons e entries ih => exact ih (setDefault_keeps h)

theorem foldl_setDefault_cases (entries : List (Sigma fun _ : K => CaptureRecord))
    (h : (entries.foldl (fun c e => setDefault c e.1 e.2) c).lookup k = some r₀) :
    c.lookup k = some r₀ ∨ ⟨k, r₀⟩ ∈ entries := by
  induction entries generalizing c with
  | nil => exact Or.inl h
  | cons e entries ih =>
      rcases ih h with hbefore | hlater
      · rcases setDefault_cases hbefore with hold | ⟨hk, hr⟩
        · exact Or.inl hold
        · right
          rw [hk, hr]
          exact List.mem_cons_self
      · exact Or.inr (List.mem_cons_of_mem _ hlater)

theorem mem_generationEntries {page : PageKey} {root : Root} :
    root ∈ generationEntries c page ↔
      ∃ k r, c.lookup k = some r ∧ r.page = page ∧ root ∈ r.entryRoots := by
  unfold generationEntries
  rw [List.mem_flatMap]
  constructor
  · rintro ⟨e, he, hroot⟩
    obtain ⟨hmem, hpage⟩ := List.mem_filter.mp he
    exact ⟨e.1, e.2, AList.mem_lookup_iff.mpr hmem, of_decide_eq_true hpage, hroot⟩
  · rintro ⟨k, r, hlookup, hpage, hroot⟩
    exact ⟨⟨k, r⟩, List.mem_filter.mpr ⟨AList.mem_lookup_iff.mp hlookup, decide_eq_true hpage⟩,
      hroot⟩

end Dictionary

/-! ### What a merge keeps -/

theorem published_of_entryRoots {r : CaptureRecord} {root : Root} (h : root ∈ r.entryRoots) :
    r.status.isPublished = true := by
  unfold CaptureRecord.entryRoots at h
  split at h
  · rename_i hstatus
    rw [hstatus]
    rfl
  · cases h

/-- Every key stays, and with it the roots of a published capture. -/
def Kept (c c' : Captures K) : Prop :=
  ∀ k r, c.lookup k = some r → ∃ r', c'.lookup k = some r' ∧
    (r.status.isPublished = true →
      r'.page = r.page ∧ r'.entryRoots = r.entryRoots ∧ r'.status.isPublished = true)

theorem Kept.refl (c : Captures K) : Kept c c := fun _ r h => ⟨r, h, fun hp => ⟨rfl, rfl, hp⟩⟩

theorem Kept.generationEntries {c c' : Captures K} (h : Kept c c') {page : PageKey} {root : Root}
    (hroot : root ∈ generationEntries c page) : root ∈ generationEntries c' page := by
  obtain ⟨k, r, hlookup, hpage, hmem⟩ := mem_generationEntries.mp hroot
  obtain ⟨r', hlookup', hsame⟩ := h k r hlookup
  obtain ⟨hpage', hroots, -⟩ := hsame (published_of_entryRoots hmem)
  exact mem_generationEntries.mpr ⟨k, r', hlookup', hpage'.trans hpage, hroots ▸ hmem⟩

variable (digest : WorkValue → K)

/-- A published capture stands under its work identity and has its library. -/
def WellKeyed (libraries : List String) (c : Captures K) : Prop :=
  ∀ k r, c.lookup k = some r → ∀ dll roots, r.status = .published dll roots →
    dll ∈ libraries ∧ ∃ providerId, k = digest ⟨providerId, r.page, roots⟩

/-- The index knows the attempt. -/
def Holds (c : Captures K) (providerId : String) (a : Attempt) : Prop :=
  ∃ r, c.lookup (digest ⟨providerId, a.page, a.roots⟩) = some r ∧
    (a.status.isPublished = true →
      r.page = a.page ∧ r.entryRoots = a.roots ∧ r.status.isPublished = true)

variable {digest}

theorem WellKeyed.more {libraries libraries' : List String} {c : Captures K}
    (h : WellKeyed digest libraries c) (hmore : libraries ⊆ libraries') :
    WellKeyed digest libraries' c := by
  intro k r hlookup dll roots hstatus
  obtain ⟨hdll, hkey⟩ := h k r hlookup dll roots hstatus
  exact ⟨hmore hdll, hkey⟩

theorem Holds.kept {c c' : Captures K} {providerId : String} {a : Attempt}
    (h : Holds digest c providerId a) (hkept : Kept c c') : Holds digest c' providerId a := by
  obtain ⟨r, hlookup, hsame⟩ := h
  obtain ⟨r', hlookup', hsame'⟩ := hkept _ r hlookup
  refine ⟨r', hlookup', fun hpublished => ?_⟩
  obtain ⟨hpage, hroots, hstatus⟩ := hsame hpublished
  obtain ⟨hpage', hroots', hstatus'⟩ := hsame' hstatus
  exact ⟨hpage'.trans hpage, hroots'.trans hroots, hstatus'⟩

theorem Holds.generationEntries {c : Captures K} {providerId : String} {a : Attempt}
    (h : Holds digest c providerId a) (hpublished : a.status.isPublished = true) :
    a.roots ⊆ generationEntries c a.page := by
  obtain ⟨r, hlookup, hsame⟩ := h
  obtain ⟨hpage, hroots, -⟩ := hsame hpublished
  intro root hroot
  exact mem_generationEntries.mpr ⟨_, r, hlookup, hpage, hroots ▸ hroot⟩

/-! ### The property -/

namespace SharedCache

variable (digest) (s : SharedCache P K)

/-- The captures in the file. -/
def indexCaptures : Captures K := (s.index.map IndexFile.captures).getD ∅

/-- No failure over a published capture, and no foreign file. -/
def KeepsRoots : CacheOp P → Prop
  | .startRun _ => True
  | .compilePage p page observed outcome =>
      s.skips digest p page observed = false → outcome ≠ .failed →
        (∀ f ∈ s.index, f.usable (s.process p).romSha1 = true) ∧
          ((outcome = .unsupported ∨ outcome = .compileFailed) →
            ∀ r ∈ s.indexCaptures.lookup (s.workIdentity digest p page observed),
              r.status.isPublished = false)

/-- The page was tried before, and neither the manifests nor the other processes show
more of it. A published attempt is known from the index; of another one the
manifests must show the same. -/
structure NothingNew (p : P) (a : Attempt) (observed : List Root) : Prop where
  tried : a ∈ s.attempts p
  unvisited : a.page ∉ (s.process p).visited
  shown : observed ⊆ a.roots
  added : generationEntries (s.process p).published a.page ⊆ a.roots
  failed : a.status.isPublished = false →
    a.roots ⊆ observed ++ generationEntries (s.process p).published a.page

structure IndexGrows : Prop where
  /-- every root recorded is in the index -/
  recorded : ∀ p, ∀ a ∈ s.attempts p, a.status.isPublished = true →
    a.roots ⊆ generationEntries s.indexCaptures a.page
  /-- a process compiles a page with no fewer roots than before -/
  supersets : ∀ p, (s.attempts p).Pairwise fun a b =>
    a.page = b.page → a.status.isPublished = true → b.status.isPublished = true →
      a.roots ⊆ b.roots
  /-- nothing new is the same work, and it is not done again -/
  sameWork : ∀ p a observed, s.NothingNew p a observed →
    s.workIdentity digest p a.page observed =
        digest ⟨(s.process p).providerId, a.page, a.roots⟩ ∧
      s.skips digest p a.page observed = true

/-! ### The invariant -/

structure CacheInvariant : Prop where
  keyed : WellKeyed digest s.libraries s.indexCaptures
  viewKeyed : ∀ p, WellKeyed digest s.libraries (s.process p).index
  held : ∀ p, ∀ a ∈ s.attempts p, Holds digest s.indexCaptures (s.process p).providerId a
  viewHeld : ∀ p, ∀ a ∈ s.attempts p, Holds digest (s.process p).index (s.process p).providerId a
  base : ∀ p, ∀ a ∈ s.attempts p, a.status.isPublished = true →
    a.page ∈ (s.process p).visited ∨ a.roots ⊆ generationEntries (s.process p).published a.page
  canonical : ∀ p, ∀ a ∈ s.attempts p, a.roots = sortRoots a.roots
  supersets : ∀ p, (s.attempts p).Pairwise fun a b =>
    a.page = b.page → a.status.isPublished = true → b.status.isPublished = true →
      a.roots ⊆ b.roots

end SharedCache

@[simp] theorem mem_sortRoots {roots : List Root} {root : Root} :
    root ∈ sortRoots roots ↔ root ∈ roots := by
  rw [sortRoots, List.mem_insertionSort, List.mem_dedup]

theorem mem_mergeEntries {left right : List Root} {root : Root} :
    root ∈ mergeEntries left right ↔ root ∈ left ∨ root ∈ right := by
  rw [mergeEntries, mem_sortRoots, List.mem_append]

/-- The order and the repetitions of the roots do not matter. -/
theorem sortRoots_congr {roots roots' : List Root} (h : ∀ root, root ∈ roots ↔ root ∈ roots') :
    sortRoots roots = sortRoots roots' := by
  have hsame : roots.dedup.Perm roots'.dedup :=
    (List.perm_ext_iff_of_nodup (List.nodup_dedup _) (List.nodup_dedup _)).mpr fun root => by
      rw [List.mem_dedup, List.mem_dedup, h]
  have hperm : (sortRoots roots).Perm (sortRoots roots') :=
    ((List.perm_insertionSort _ _).trans hsame).trans (List.perm_insertionSort _ _).symm
  exact hperm.eq_of_pairwise' (List.pairwise_insertionSort _ _) (List.pairwise_insertionSort _ _)

theorem sortRoots_sortRoots (roots : List Root) : sortRoots (sortRoots roots) = sortRoots roots :=
  sortRoots_congr fun _ => mem_sortRoots

namespace SharedCache.CacheInvariant

variable {s : SharedCache P K} {p : P} {page : PageKey} {observed : List Root}

omit [DecidableEq P] in
theorem grows (h : s.CacheInvariant digest) : s.IndexGrows digest where
  recorded p a ha hpublished := (h.held p a ha).generationEntries hpublished
  supersets := h.supersets
  sameWork := by
    intro p a observed hnew
    have hroots : s.pageEntries p a.page observed = a.roots := by
      have hsame (root : Root) :
          root ∈ observed ++ generationEntries (s.process p).published a.page ↔
            root ∈ a.roots := by
        rw [List.mem_append]
        constructor
        · rintro (hroot | hroot)
          · exact hnew.shown hroot
          · exact hnew.added hroot
        · intro hroot
          cases hstatus : a.status.isPublished with
          | true =>
              rcases h.base p a hnew.tried hstatus with hvisited | hbase
              · exact absurd hvisited hnew.unvisited
              · exact Or.inr (hbase hroot)
          | false => exact List.mem_append.mp (hnew.failed hstatus hroot)
      rw [pageEntries, mergeEntries, sortRoots_congr hsame, ← h.canonical p a hnew.tried]
    have hidentity : s.workIdentity digest p a.page observed =
        digest ⟨(s.process p).providerId, a.page, a.roots⟩ := by
      rw [workIdentity, hroots]
    refine ⟨hidentity, ?_⟩
    obtain ⟨r, hlookup, -⟩ := h.viewHeld p a hnew.tried
    rw [skips, hidentity, hlookup]
    change r.satisfied s.libraries = true
    unfold CaptureRecord.satisfied
    split
    · rename_i dll roots hstatus
      exact decide_eq_true (h.viewKeyed p _ r hlookup dll roots hstatus).1
    · rfl

/-! ### Steps -/

omit [DecidableEq P] in
theorem addLibrary (h : s.CacheInvariant digest) (dll : String) :
    { s with libraries := dll :: s.libraries : SharedCache P K }.CacheInvariant digest :=
  { h with
    keyed := h.keyed.more (List.subset_cons_self _ _)
    viewKeyed := fun q => (h.viewKeyed q).more (List.subset_cons_self _ _) }

theorem visit (h : s.CacheInvariant digest) (p : P) (page : PageKey) :
    (s.visit p page).CacheInvariant digest := by
  have hself : (s.visit p page).process p =
      { s.process p with visited := page :: (s.process p).visited } := Function.update_self _ _ _
  have hprocess (q : P) : ((s.visit p page).process q).index = (s.process q).index ∧
      ((s.visit p page).process q).providerId = (s.process q).providerId ∧
      ((s.visit p page).process q).published = (s.process q).published ∧
      (s.process q).visited ⊆ ((s.visit p page).process q).visited := by
    by_cases hq : q = p
    · subst hq
      rw [hself]
      exact ⟨rfl, rfl, rfl, List.subset_cons_self _ _⟩
    · have hother : (s.visit p page).process q = s.process q := Function.update_of_ne hq _ _
      rw [hother]
      exact ⟨rfl, rfl, rfl, List.Subset.refl _⟩
  constructor
  · exact h.keyed
  · intro q
    rw [(hprocess q).1]
    exact h.viewKeyed q
  · intro q a ha
    rw [(hprocess q).2.1]
    exact h.held q a ha
  · intro q a ha
    rw [(hprocess q).1, (hprocess q).2.1]
    exact h.viewHeld q a ha
  · intro q a ha hpublished
    rw [(hprocess q).2.2.1]
    exact (h.base q a ha hpublished).imp_left fun hvisited => (hprocess q).2.2.2 hvisited
  · exact h.canonical
  · exact h.supersets

theorem startRun (h : s.CacheInvariant digest) (p : P) :
    (s.startRun p).CacheInvariant digest := by
  have hself : (s.startRun p).process p =
      { s.process p with
        index := s.indexCaptures, published := s.indexCaptures, visited := [] } :=
    Function.update_self _ _ _
  have hother {q : P} (hq : q ≠ p) : (s.startRun p).process q = s.process q :=
    Function.update_of_ne hq _ _
  constructor
  · exact h.keyed
  · intro q
    by_cases hq : q = p
    · subst hq
      rw [hself]
      exact h.keyed
    · rw [hother hq]
      exact h.viewKeyed q
  · intro q a ha
    by_cases hq : q = p
    · subst hq
      rw [hself]
      exact h.held q a ha
    · rw [hother hq]
      exact h.held q a ha
  · intro q a ha
    by_cases hq : q = p
    · subst hq
      rw [hself]
      exact h.held q a ha
    · rw [hother hq]
      exact h.viewHeld q a ha
  · intro q a ha hpublished
    by_cases hq : q = p
    · subst hq
      rw [hself]
      exact Or.inr ((h.held q a ha).generationEntries hpublished)
    · rw [hother hq]
      exact h.base q a ha hpublished
  · exact h.canonical
  · exact h.supersets

end SharedCache.CacheInvariant

/-! ### One locked update -/

section Record

variable {s : SharedCache P K} {p : P} {page : PageKey} {observed : List Root}
  {status : CaptureStatus}

/-- What is recorded: a failure, or the roots compiled with a library that exists. -/
def RecordsWork (s : SharedCache P K) (p : P) (page : PageKey) (observed : List Root)
    (status : CaptureStatus) : Prop :=
  ∀ dll roots, status = .published dll roots →
    roots = s.pageEntries p page observed ∧ dll ∈ s.libraries

omit [DecidableEq K] [DecidableEq P] in
theorem currentCaptures_eq (husable : ∀ f ∈ s.index, f.usable (s.process p).romSha1 = true) :
    s.currentCaptures p = s.indexCaptures := by
  unfold SharedCache.currentCaptures SharedCache.indexCaptures
  cases hindex : s.index with
  | none => rfl
  | some f =>
      have hthis := husable f (by rw [hindex]; rfl)
      simp only [hthis, if_true, Option.map_some, Option.getD_some]

/-- The captures that a locked update writes. -/
def mergedCaptures (s : SharedCache P K) (p : P) (key : K) (r : CaptureRecord) : Captures K :=
  ((s.process p).index.entries.foldl (fun c e => setDefault c e.1 e.2)
    (s.currentCaptures p)).insert key r

omit [DecidableEq P] in
theorem mergedCaptures_cases
    (husable : ∀ f ∈ s.index, f.usable (s.process p).romSha1 = true) {key k : K}
    {r r₀ : CaptureRecord} (h : (mergedCaptures s p key r).lookup k = some r₀) :
    (k = key ∧ r₀ = r) ∨ s.indexCaptures.lookup k = some r₀ ∨
      (s.process p).index.lookup k = some r₀ := by
  unfold mergedCaptures at h
  by_cases hk : k = key
  · subst hk
    rw [AList.lookup_insert] at h
    exact Or.inl ⟨rfl, (Option.some.inj h).symm⟩
  · rw [AList.lookup_insert_ne hk, currentCaptures_eq husable] at h
    right
    exact (foldl_setDefault_cases _ h).imp_right fun hmem => AList.mem_lookup_iff.mpr hmem

omit [DecidableEq P] in
/-- A published capture is written over by the same work alone. -/
theorem mergedCaptures_kept (hinj : Function.Injective digest) (h : s.CacheInvariant digest)
    (husable : ∀ f ∈ s.index, f.usable (s.process p).romSha1 = true)
    (hwork : RecordsWork s p page observed status)
    (hover : status.isPublished = false →
      ∀ r ∈ s.indexCaptures.lookup (s.workIdentity digest p page observed),
        r.status.isPublished = false) :
    Kept s.indexCaptures
      (mergedCaptures s p (s.workIdentity digest p page observed) ⟨page, status⟩) := by
  intro k r hlookup
  by_cases hk : k = s.workIdentity digest p page observed
  · subst hk
    refine ⟨⟨page, status⟩, AList.lookup_insert _, fun hpublished => ?_⟩
    cases hstatus : status with
    | published dll roots =>
        obtain ⟨hroots, -⟩ := hwork dll roots hstatus
        cases hold : r.status with
        | published dll' roots' =>
            obtain ⟨-, providerId, hkey⟩ := h.keyed _ r hlookup dll' roots' hold
            have hvalue := hinj hkey
            simp only [WorkValue.mk.injEq] at hvalue
            refine ⟨hvalue.2.1, ?_, rfl⟩
            unfold CaptureRecord.entryRoots
            rw [hold]
            exact hroots.trans hvalue.2.2
        | unsupported =>
            rw [hold] at hpublished
            cases hpublished
        | compileFailed =>
            rw [hold] at hpublished
            cases hpublished
    | unsupported =>
        have hno := hover (by rw [hstatus]; rfl) r hlookup
        rw [hno] at hpublished
        cases hpublished
    | compileFailed =>
        have hno := hover (by rw [hstatus]; rfl) r hlookup
        rw [hno] at hpublished
        cases hpublished
  · refine ⟨r, ?_, fun hpublished => ⟨rfl, rfl, hpublished⟩⟩
    rw [mergedCaptures, AList.lookup_insert_ne hk, currentCaptures_eq husable]
    exact foldl_setDefault_keeps _ hlookup

omit [DecidableEq P] in
theorem mergedCaptures_wellKeyed (h : s.CacheInvariant digest)
    (husable : ∀ f ∈ s.index, f.usable (s.process p).romSha1 = true)
    (hwork : RecordsWork s p page observed status) :
    WellKeyed digest s.libraries
      (mergedCaptures s p (s.workIdentity digest p page observed) ⟨page, status⟩) := by
  intro k r hlookup dll roots hstatus
  rcases mergedCaptures_cases husable hlookup with ⟨rfl, rfl⟩ | hdisk | hview
  · obtain ⟨hroots, hdll⟩ := hwork dll roots hstatus
    exact ⟨hdll, (s.process p).providerId, by rw [hroots]; rfl⟩
  · exact h.keyed k r hdisk dll roots hstatus
  · exact h.viewKeyed p k r hview dll roots hstatus

omit [DecidableEq K] [DecidableEq P] in
theorem pageEntries_canonical :
    s.pageEntries p page observed = sortRoots (s.pageEntries p page observed) :=
  (sortRoots_sortRoots _).symm

theorem recordPage_invariant (hinj : Function.Injective digest) (h : s.CacheInvariant digest)
    (husable : ∀ f ∈ s.index, f.usable (s.process p).romSha1 = true)
    (hwork : RecordsWork s p page observed status)
    (hover : status.isPublished = false →
      ∀ r ∈ s.indexCaptures.lookup (s.workIdentity digest p page observed),
        r.status.isPublished = false)
    (hunvisited : page ∉ (s.process p).visited) :
    ((s.recordPage digest p page observed status).visit p page).CacheInvariant digest := by
  let captures := mergedCaptures s p (s.workIdentity digest p page observed) ⟨page, status⟩
  let attempt : Attempt := ⟨page, s.pageEntries p page observed, status⟩
  let s' := (s.recordPage digest p page observed status).visit p page
  have hkept : Kept s.indexCaptures captures := mergedCaptures_kept hinj h husable hwork hover
  have hkeyed : WellKeyed digest s.libraries captures :=
    mergedCaptures_wellKeyed h husable hwork
  have hself : s'.process p =
      { s.process p with index := captures, visited := page :: (s.process p).visited } := by
    simp only [s', SharedCache.visit, SharedCache.recordPage, SharedCache.recordCapture,
      Function.update_self]
    rfl
  have hother {q : P} (hq : q ≠ p) : s'.process q = s.process q := by
    simp only [s', SharedCache.visit, SharedCache.recordPage, SharedCache.recordCapture,
      Function.update_of_ne hq]
  have hprovider (q : P) : (s'.process q).providerId = (s.process q).providerId := by
    by_cases hq : q = p
    · subst hq
      rw [hself]
    · rw [hother hq]
  have hattempts (q : P) : s'.attempts q = s.attempts q ++ if q = p then [attempt] else [] := by
    by_cases hq : q = p
    · subst hq
      rw [if_pos rfl]
      exact Function.update_self _ _ _
    · rw [if_neg hq, List.append_nil]
      exact Function.update_of_ne hq _ _
  have hcases {q : P} {a : Attempt} (ha : a ∈ s'.attempts q) :
      a ∈ s.attempts q ∨ q = p ∧ a = attempt := by
    rw [hattempts] at ha
    rcases List.mem_append.mp ha with hold | hnew
    · exact Or.inl hold
    · by_cases hq : q = p
      · rw [if_pos hq] at hnew
        exact Or.inr ⟨hq, List.mem_singleton.mp hnew⟩
      · rw [if_neg hq] at hnew
        cases hnew
  have hnow : Holds digest captures (s.process p).providerId attempt := by
    refine ⟨⟨page, status⟩, AList.lookup_insert _, fun hpublished => ⟨rfl, ?_, hpublished⟩⟩
    cases hstatus : status with
    | published dll roots => exact (hwork dll roots hstatus).1
    | unsupported =>
        simp only [attempt, hstatus] at hpublished
        cases hpublished
    | compileFailed =>
        simp only [attempt, hstatus] at hpublished
        cases hpublished
  have hheld (q : P) (a : Attempt) (ha : a ∈ s'.attempts q) :
      Holds digest captures (s'.process q).providerId a := by
    rw [hprovider]
    rcases hcases ha with hold | ⟨rfl, rfl⟩
    · exact (h.held q a hold).kept hkept
    · exact hnow
  constructor
  · exact hkeyed
  · intro q
    by_cases hq : q = p
    · subst hq
      rw [hself]
      exact hkeyed
    · rw [hother hq]
      exact h.viewKeyed q
  · exact hheld
  · intro q a ha
    by_cases hq : q = p
    · have hview : (s'.process q).index = captures := by
        rw [hq, hself]
      rw [hview]
      exact hheld q a ha
    · rw [hprovider, hother hq]
      exact h.viewHeld q a ((hcases ha).resolve_right fun hnew => hq hnew.1)
  · intro q a ha hpublished
    rcases hcases ha with hold | ⟨rfl, rfl⟩
    · by_cases hq : q = p
      · subst hq
        rw [hself]
        exact (h.base q a hold hpublished).imp_left fun hvisited =>
          List.mem_cons_of_mem _ hvisited
      · rw [hother hq]
        exact h.base q a hold hpublished
    · rw [hself]
      exact Or.inl List.mem_cons_self
  · intro q a ha
    rcases hcases ha with hold | ⟨-, rfl⟩
    · exact h.canonical q a hold
    · exact pageEntries_canonical
  · intro q
    rw [hattempts]
    by_cases hq : q = p
    · subst hq
      rw [if_pos rfl]
      refine List.pairwise_append.mpr ⟨h.supersets q, List.pairwise_singleton _ _, ?_⟩
      intro a ha b hb hpage hpublished _
      have hb' : b = attempt := List.mem_singleton.mp hb
      subst hb'
      have hpage' : a.page = page := hpage
      have hbase := (h.base q a ha hpublished).resolve_left (hpage' ▸ hunvisited)
      intro root hroot
      exact mem_mergeEntries.mpr (Or.inr (hpage' ▸ hbase hroot))
    · rw [if_neg hq, List.append_nil]
      exact h.supersets q

theorem compilePage_invariant (hinj : Function.Injective digest) (h : s.CacheInvariant digest)
    {outcome : CompileOutcome} (hunvisited : page ∉ (s.process p).visited)
    (hkeeps : s.KeepsRoots digest (.compilePage p page observed outcome)) :
    (s.compilePage digest p page observed outcome).CacheInvariant digest := by
  unfold SharedCache.compilePage
  by_cases hskips : s.skips digest p page observed = true
  · rw [if_pos hskips]
    exact h.visit p page
  · rw [if_neg hskips]
    have hcondition := hkeeps (Bool.eq_false_of_not_eq_true hskips)
    cases outcome with
    | failed => exact h.visit p page
    | unsupported =>
        obtain ⟨husable, hover⟩ := hcondition nofun
        exact recordPage_invariant hinj h husable nofun (fun _ => hover (Or.inl rfl)) hunvisited
    | compileFailed =>
        obtain ⟨husable, hover⟩ := hcondition nofun
        exact recordPage_invariant hinj h husable nofun (fun _ => hover (Or.inr rfl)) hunvisited
    | ok dll =>
        obtain ⟨husable, -⟩ := hcondition nofun
        refine recordPage_invariant hinj (h.addLibrary dll) husable ?_ nofun hunvisited
        intro dll' roots hstatus
        cases hstatus
        exact ⟨rfl, List.mem_cons_self⟩

end Record

/-! ### Runs -/

theorem cache_invariant (hinj : Function.Injective digest) :
    ((cacheSystem P digest).restrict (SharedCache.KeepsRoots digest)).Invariant
      (SharedCache.CacheInvariant digest) where
  start := by
    rintro s ⟨identity, rfl⟩
    constructor
    · exact fun _ _ h => by cases h
    · exact fun _ _ _ h => by cases h
    · exact fun _ _ h => by cases h
    · exact fun _ _ h => by cases h
    · exact fun _ _ h => by cases h
    · exact fun _ _ h => by cases h
    · exact fun _ => List.Pairwise.nil
  step := by
    rintro s op h ⟨hadmits, hkeeps⟩
    cases op with
    | startRun p => exact h.startRun p
    | compilePage p page observed outcome =>
        exact compilePage_invariant hinj h hadmits hkeeps

/-- In every interleaving that records no failure over a published capture, in a file
of the ROM at hand, the index only grows. -/
theorem capture_index_grows (hinj : Function.Injective digest) {s : SharedCache P K}
    (hs : ((cacheSystem P digest).restrict (SharedCache.KeepsRoots digest)).Reachable s) :
    s.IndexGrows digest :=
  (hs.invariant (cache_invariant hinj)).grows

def onePage : PageKey := ⟨9, 0x02000000, "5ba93c9db0cff93f52b521d7420e43f6eda2784f"⟩

/-- Two processes of one ROM and one provider. -/
def sharedCache : SharedCache Bool WorkValue where
  process := fun _ => { romSha1 := "rom", providerId := "tcc" }

/-- A page is published with two roots, and the next run sees one of them. -/
def publishedOnce : SharedCache Bool WorkValue :=
  (cacheSystem Bool id).runFrom sharedCache
    [.startRun false,
      .compilePage false onePage [⟨0x02000000, false⟩, ⟨0x02000101, true⟩] (.ok "page.dll"),
      .startRun false]

theorem capture_index_grows_once :
    publishedOnce.skips id false onePage [⟨0x02000101, true⟩] = true ∧
      [(⟨0x02000000, false⟩ : Root), ⟨0x02000101, true⟩] ⊆
        generationEntries publishedOnce.indexCaptures onePage := by
  have hstart : ((cacheSystem Bool id).restrict (SharedCache.KeepsRoots id)).Reachable
      sharedCache := .start ⟨fun _ => ("rom", "tcc"), rfl⟩
  have hadmits : ((cacheSystem Bool id).restrict (SharedCache.KeepsRoots id)).AdmitsAll sharedCache
      [.startRun false,
        .compilePage false onePage [⟨0x02000000, false⟩, ⟨0x02000101, true⟩] (.ok "page.dll"),
        .startRun false] := by
    refine ⟨⟨nofun, trivial⟩, ⟨List.not_mem_nil, fun _ _ => ⟨nofun, nofun⟩⟩,
      ⟨fun f hf => ?_, trivial⟩, trivial⟩
    cases hf
    rfl
  have hgrows := capture_index_grows Function.injective_id
    (hstart.runFrom hadmits)
  have htried : (⟨onePage, [⟨0x02000000, false⟩, ⟨0x02000101, true⟩],
      .published "page.dll" [⟨0x02000000, false⟩, ⟨0x02000101, true⟩]⟩ : Attempt) ∈
        publishedOnce.attempts false := by decide
  refine ⟨(hgrows.sameWork false _ [⟨0x02000101, true⟩] ⟨htried, ?_, ?_, ?_, nofun⟩).2,
    hgrows.recorded false _ htried rfl⟩
  · decide
  · decide
  · decide

/-- Both processes work on the page; one publishes it and then the other's compiler
fails. -/
def failedOver : SharedCache Bool WorkValue :=
  (cacheSystem Bool id).runFrom sharedCache
    [.startRun false, .startRun true,
      .compilePage false onePage [⟨0x02000000, false⟩] (.ok "page.dll"),
      .compilePage true onePage [⟨0x02000000, false⟩] .compileFailed]

/-- The failure is recorded over the published capture, and its roots are gone. -/
theorem failure_erases_published_roots :
    ¬ ∀ s, (cacheSystem Bool (id : WorkValue → WorkValue)).Reachable s → s.IndexGrows id := by
  intro hclaim
  have hstart : (cacheSystem Bool (id : WorkValue → WorkValue)).Reachable sharedCache :=
    .start ⟨fun _ => ("rom", "tcc"), rfl⟩
  have hadmits : (cacheSystem Bool id).AdmitsAll sharedCache
      [.startRun false, .startRun true,
        .compilePage false onePage [⟨0x02000000, false⟩] (.ok "page.dll"),
        .compilePage true onePage [⟨0x02000000, false⟩] .compileFailed] :=
    ⟨nofun, nofun, List.not_mem_nil, List.not_mem_nil, trivial⟩
  have hgrows := hclaim _ (hstart.runFrom hadmits)
  have hrecorded : (⟨onePage, [⟨0x02000000, false⟩],
      .published "page.dll" [⟨0x02000000, false⟩]⟩ : Attempt) ∈ failedOver.attempts false := by
    decide
  have hroot := hgrows.recorded false _ hrecorded rfl List.mem_cons_self
  revert hroot
  decide

end NdsRecomp.ShardCompiler
