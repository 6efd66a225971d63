import NdsRecomp.ShardCompiler.IndexGrows
import NdsRecomp.ShardCompiler.PendingQueue

/-!
What a run leaves of its candidates. However the locked updates of the runs over one
directory interleave, when a run stores its queue every page that qualified in it is
answered by the index, published or recorded as unbuildable, or is in the queue, with
no less weight than it was carried with. A page that the queue carried is among them
when its snapshot shows it and the filters of the run let it through. A queue replaces
the one before it, so what another run stored meanwhile is not kept.
-/

namespace NdsRecomp.ShardCompiler

open Library

variable {K P : Type} [DecidableEq K] [DecidableEq P]

/-! ### The grouped pages -/

namespace CompilerArgs

variable {args : CompilerArgs} {groups : List PageGroup}

/-- A page once grouped stays, with no fewer root hits. -/
theorem addPage_keeps (path : String) (page : ManifestPage) {g : PageGroup} (hg : g ∈ groups) :
    ∃ g' ∈ args.addPage path groups page, g'.page = g.page ∧ g.rootHits ≤ g'.rootHits := by
  unfold addPage
  split
  · exact ⟨g, hg, rfl, Nat.le_refl _⟩
  · split
    · exact ⟨g, hg, rfl, Nat.le_refl _⟩
    · split
      · refine ⟨_, List.mem_map_of_mem hg, ?_⟩
        split
        · exact ⟨rfl, Nat.le_add_right _ _⟩
        · exact ⟨rfl, Nat.le_refl _⟩
      · exact ⟨g, List.mem_append_left _ hg, rfl, Nat.le_refl _⟩

/-- A page that the filters let through is grouped. -/
theorem addPage_adds (groups : List PageGroup) (path : String) {page : ManifestPage}
    (hcpu : page.page.cpu ∈ args.allowedCpus)
    (hentries : args.canonicalEntries page ≠ []) :
    ∃ g ∈ args.addPage path groups page,
      g.page = page.page ∧ args.rootHits page ≤ g.rootHits := by
  unfold addPage
  rw [if_neg (not_not.mpr hcpu), if_neg hentries]
  split
  · rename_i hmem
    obtain ⟨g, hg, hpage⟩ := List.mem_map.mp hmem
    refine ⟨_, List.mem_map_of_mem hg, ?_⟩
    rw [if_pos hpage]
    exact ⟨hpage, Nat.le_add_left _ _⟩
  · exact ⟨_, List.mem_append_right _ (List.mem_singleton_self _), rfl, Nat.le_refl _⟩

theorem foldl_addPage_keeps (args : CompilerArgs) (path : String) (pages : List ManifestPage)
    {g : PageGroup} (hg : g ∈ groups) :
    ∃ g' ∈ pages.foldl (args.addPage path) groups,
      g'.page = g.page ∧ g.rootHits ≤ g'.rootHits := by
  induction pages generalizing groups g with
  | nil => exact ⟨g, hg, rfl, Nat.le_refl _⟩
  | cons page pages ih =>
      obtain ⟨g₁, hg₁, hpage₁, hhits₁⟩ := addPage_keeps path page hg
      obtain ⟨g₂, hg₂, hpage₂, hhits₂⟩ := ih hg₁
      exact ⟨g₂, hg₂, hpage₂.trans hpage₁, hhits₁.trans hhits₂⟩

theorem foldl_addPage_adds (path : String) {pages : List ManifestPage} {page : ManifestPage}
    (hpage : page ∈ pages) (hcpu : page.page.cpu ∈ args.allowedCpus)
    (hentries : args.canonicalEntries page ≠ []) :
    ∃ g ∈ pages.foldl (args.addPage path) groups,
      g.page = page.page ∧ args.rootHits page ≤ g.rootHits := by
  induction pages generalizing groups with
  | nil => cases hpage
  | cons first pages ih =>
      rcases List.mem_cons.mp hpage with rfl | hlater
      · obtain ⟨g₁, hg₁, hpage₁, hhits₁⟩ := addPage_adds groups path hcpu hentries
        obtain ⟨g₂, hg₂, hpage₂, hhits₂⟩ := foldl_addPage_keeps args path pages hg₁
        exact ⟨g₂, hg₂, hpage₂.trans hpage₁, hhits₁.trans hhits₂⟩
      · exact ih hlater

/-- A manifest of this ROM adds its pages, and the ones after it keep them. -/
theorem groupPages_shows {manifests : List (String × Manifest)} {m : String × Manifest}
    (hm : m ∈ manifests) (hrom : m.2.romSha1 = args.romSha1) {page : ManifestPage}
    (hpage : page ∈ m.2.pages) (hcpu : page.page.cpu ∈ args.allowedCpus)
    (hentries : args.canonicalEntries page ≠ []) :
    ∃ g ∈ args.groupPages manifests, g.page = page.page ∧ args.rootHits page ≤ g.rootHits := by
  have hkeeps (rest : List (String × Manifest)) {groups : List PageGroup} {g : PageGroup}
      (hg : g ∈ groups) :
      ∃ g' ∈ rest.foldl (fun groups m =>
        if m.2.romSha1 ≠ args.romSha1 then groups else m.2.pages.foldl (args.addPage m.1) groups)
          groups, g'.page = g.page ∧ g.rootHits ≤ g'.rootHits := by
    induction rest generalizing groups g with
    | nil => exact ⟨g, hg, rfl, Nat.le_refl _⟩
    | cons m rest ih =>
        rw [List.foldl_cons]
        split
        · exact ih hg
        · obtain ⟨g₁, hg₁, hpage₁, hhits₁⟩ := foldl_addPage_keeps args m.1 m.2.pages hg
          obtain ⟨g₂, hg₂, hpage₂, hhits₂⟩ := ih hg₁
          exact ⟨g₂, hg₂, hpage₂.trans hpage₁, hhits₁.trans hhits₂⟩
  obtain ⟨before, after, rfl⟩ := List.append_of_mem hm
  unfold groupPages
  rw [List.foldl_append, List.foldl_cons, if_neg (not_not.mpr hrom)]
  obtain ⟨g₁, hg₁, hpage₁, hhits₁⟩ := foldl_addPage_adds m.1 hpage hcpu hentries
  obtain ⟨g₂, hg₂, hpage₂, hhits₂⟩ := hkeeps after hg₁
  exact ⟨g₂, hg₂, hpage₂.trans hpage₁, hhits₁.trans hhits₂⟩

theorem mem_collectCandidates {manifests : List (String × Manifest)} {queued : List QueueEntry}
    {c : PageCandidate} :
    c ∈ args.collectCandidates manifests queued ↔
      ∃ g ∈ args.groupPages manifests, args.qualifies queued g = true ∧
        candidateOf queued g = c := by
  unfold collectCandidates
  rw [List.mem_insertionSort, List.mem_map]
  simp only [List.mem_filter, and_assoc]

/-- A carried page is a candidate, with no less weight. -/
theorem carried_candidate {manifests : List (String × Manifest)} {queued : List QueueEntry}
    {e : QueueEntry} (he : carriedEntry queued e.page = some e) {m : String × Manifest}
    (hm : m ∈ manifests) (hrom : m.2.romSha1 = args.romSha1) {page : ManifestPage}
    (hpage : page ∈ m.2.pages) (hsame : page.page = e.page)
    (hcpu : page.page.cpu ∈ args.allowedCpus) (hentries : args.canonicalEntries page ≠ [])
    (hhot : args.minHits ≤ e.hits ∨ args.includeRoots = true ∧ 0 < args.rootHits page) :
    ∃ c ∈ args.collectCandidates manifests queued,
      c.page = e.page ∧ e.executions ≤ c.executions ∧ e.hits ≤ c.hits := by
  obtain ⟨g, hg, hgpage, hroots⟩ := groupPages_shows hm hrom hpage hcpu hentries
  have hcarried : carriedEntry queued g.page = some e := by
    rw [hgpage, hsame, he]
  have hhits : e.hits ≤ groupHits queued g := by
    unfold groupHits
    rw [hcarried]
    exact Nat.le_max_right _ _
  have hexecutions : e.executions ≤ groupExecutions queued g := by
    unfold groupExecutions
    rw [hcarried]
    exact Nat.le_max_right _ _
  have hqualifies : args.qualifies queued g = true := by
    unfold qualifies
    rcases hhot with hmin | ⟨hinclude, hroot⟩
    · simp only [hmin.trans hhits, decide_true, Bool.true_or]
    · simp only [hinclude, hroot.trans_le hroots, decide_true, Bool.true_and, Bool.or_true]
  exact ⟨_, mem_collectCandidates.mpr ⟨g, hg, hqualifies, rfl⟩, hgpage.trans hsame, hexecutions,
    hhits⟩

end CompilerArgs

/-! ### The index during a run -/

theorem CaptureRecord.satisfied_more {r : CaptureRecord} {libraries more : List String}
    (h : r.satisfied libraries = true) (hmore : libraries ⊆ more) : r.satisfied more = true := by
  unfold CaptureRecord.satisfied at h ⊢
  split
  · rename_i hstatus
    rw [hstatus] at h
    exact decide_eq_true (hmore (of_decide_eq_true h))
  · rfl

theorem foldl_setDefault_has {c : Captures K} {entries : List (Sigma fun _ : K => CaptureRecord)}
    {e : Sigma fun _ : K => CaptureRecord} (he : e ∈ entries) :
    ∃ r, (entries.foldl (fun c e => setDefault c e.1 e.2) c).lookup e.1 = some r := by
  induction entries generalizing c with
  | nil => cases he
  | cons first entries ih =>
      rcases List.mem_cons.mp he with rfl | hlater
      · have hhas : ∃ r, (setDefault c e.1 e.2).lookup e.1 = some r := by
          unfold setDefault
          split
          · rename_i hmem
            exact Option.isSome_iff_exists.mp (AList.lookup_isSome.mpr hmem)
          · exact ⟨e.2, AList.lookup_insert _⟩
        obtain ⟨r, hr⟩ := hhas
        exact ⟨r, foldl_setDefault_keeps entries hr⟩
      · exact ih hlater

namespace SharedCache

variable (digest : WorkValue → K) (s : SharedCache P K) (p : P)

/-- The index of the process answers the work. -/
def Answers (key : K) : Prop :=
  ∃ r, (s.process p).index.lookup key = some r ∧ r.satisfied s.libraries = true

/-- The libraries that the file and the processes know are files. -/
structure LibrariesExist : Prop where
  file : ∀ f ∈ s.index, ∀ k r, f.captures.lookup k = some r → r.satisfied s.libraries = true
  view : ∀ q k r, (s.process q).index.lookup k = some r → r.satisfied s.libraries = true

/-- What a step leaves to the run of a process. -/
structure Continues (s s' : SharedCache P K) : Prop where
  identity : ∀ page observed,
    s'.workIdentity digest p page observed = s.workIdentity digest p page observed
  answers : ∀ key, s.Answers p key → s'.Answers p key

variable {digest s p} {s' : SharedCache P K} {page : PageKey} {observed : List Root}
  {status : CaptureStatus} {outcome : CompileOutcome}

omit [DecidableEq P] in
theorem skips_answers (h : s.skips digest p page observed = true) :
    s.Answers p (s.workIdentity digest p page observed) := by
  unfold skips at h
  obtain ⟨r, hlookup, hsatisfied⟩ := (Option.any_eq_true _ _).mp h
  exact ⟨r, hlookup, hsatisfied⟩

omit [DecidableEq P] in
theorem Continues.trans {s'' : SharedCache P K} (h : Continues digest p s s')
    (h' : Continues digest p s' s'') : Continues digest p s s'' :=
  ⟨fun page observed => (h'.identity page observed).trans (h.identity page observed),
    fun key hkey => h'.answers key (h.answers key hkey)⟩

omit [DecidableEq P] in
/-- A step that leaves the index and the identity of a process and no library out. -/
theorem Continues.of_same (hindex : (s'.process p).index = (s.process p).index)
    (hpublished : (s'.process p).published = (s.process p).published)
    (hprovider : (s'.process p).providerId = (s.process p).providerId)
    (hlibraries : s.libraries ⊆ s'.libraries) : Continues digest p s s' := by
  constructor
  · intro page observed
    unfold workIdentity pageEntries
    rw [hpublished, hprovider]
  · rintro key ⟨r, hlookup, hr⟩
    exact ⟨r, hindex ▸ hlookup, CaptureRecord.satisfied_more hr hlibraries⟩

omit [DecidableEq P] in
theorem mergedCaptures_satisfied (h : s.LibrariesExist) {key k : K} {r r₀ : CaptureRecord}
    (hr : r.satisfied s.libraries = true) (hk : (mergedCaptures s p key r).lookup k = some r₀) :
    r₀.satisfied s.libraries = true := by
  by_cases hsame : k = key
  · subst hsame
    rw [mergedCaptures, AList.lookup_insert] at hk
    exact Option.some.inj hk ▸ hr
  · rw [mergedCaptures, AList.lookup_insert_ne hsame] at hk
    rcases foldl_setDefault_cases _ hk with hfile | hentry
    · unfold currentCaptures at hfile
      split at hfile
      · split at hfile
        · rename_i f hindex _
          exact h.file f hindex k r₀ hfile
        · cases hfile
      · cases hfile
    · exact h.view p k r₀ (AList.mem_lookup_iff.mpr hentry)

omit [DecidableEq P] in
theorem mergedCaptures_answers (h : s.LibrariesExist) {key k : K} {r : CaptureRecord}
    (hr : r.satisfied s.libraries = true) (hk : s.Answers p k) :
    ∃ r₀, (mergedCaptures s p key r).lookup k = some r₀ ∧ r₀.satisfied s.libraries = true := by
  have hhas : ∃ r₀, (mergedCaptures s p key r).lookup k = some r₀ := by
    by_cases hsame : k = key
    · exact ⟨r, hsame ▸ AList.lookup_insert _⟩
    · obtain ⟨r₁, hlookup, -⟩ := hk
      obtain ⟨r₀, hr₀⟩ := foldl_setDefault_has (c := s.currentCaptures p)
        (AList.mem_lookup_iff.mp hlookup)
      exact ⟨r₀, (AList.lookup_insert_ne hsame).trans hr₀⟩
  obtain ⟨r₀, hr₀⟩ := hhas
  exact ⟨r₀, hr₀, mergedCaptures_satisfied h hr hr₀⟩

theorem visit_leaves (digest : WorkValue → K) (p : P) (page : PageKey) (h : s.LibrariesExist) :
    (s.visit p page).LibrariesExist ∧ ∀ q, Continues digest q s (s.visit p page) := by
  have hprocess (q : P) : ((s.visit p page).process q).index = (s.process q).index ∧
      ((s.visit p page).process q).published = (s.process q).published ∧
      ((s.visit p page).process q).providerId = (s.process q).providerId := by
    by_cases hq : q = p
    · subst hq
      have hself : (s.visit q page).process q =
          { s.process q with visited := page :: (s.process q).visited } :=
        Function.update_self _ _ _
      rw [hself]
      exact ⟨rfl, rfl, rfl⟩
    · have hother : (s.visit p page).process q = s.process q := Function.update_of_ne hq _ _
      rw [hother]
      exact ⟨rfl, rfl, rfl⟩
  constructor
  · exact ⟨h.file, fun q k r hlookup => h.view q k r ((hprocess q).1 ▸ hlookup)⟩
  · intro q
    obtain ⟨hindex, hpublished, hprovider⟩ := hprocess q
    exact .of_same hindex hpublished hprovider (List.Subset.refl _)

theorem recordPage_process (q : P) :
    (s.recordPage digest p page observed status).process q =
      if q = p then
        { s.process p with
          index := mergedCaptures s p (s.workIdentity digest p page observed) ⟨page, status⟩ }
      else s.process q := by
  by_cases hq : q = p
  · subst hq
    rw [if_pos rfl]
    exact Function.update_self _ _ _
  · rw [if_neg hq]
    exact Function.update_of_ne hq _ _

/-- The record answers its work, and what was answered still is. -/
theorem recordPage_leaves (digest : WorkValue → K) (p : P) (observed : List Root)
    (h : s.LibrariesExist)
    (hr : (⟨page, status⟩ : CaptureRecord).satisfied s.libraries = true) :
    (s.recordPage digest p page observed status).LibrariesExist ∧
      (∀ q, Continues digest q s (s.recordPage digest p page observed status)) ∧
      (s.recordPage digest p page observed status).Answers p
        (s.workIdentity digest p page observed) := by
  refine ⟨⟨?_, ?_⟩, fun q => ?_, ?_⟩
  · rintro f hf k r hlookup
    cases Option.some.inj hf
    exact mergedCaptures_satisfied h hr hlookup
  · intro q k r hlookup
    rw [recordPage_process] at hlookup
    split at hlookup
    · exact mergedCaptures_satisfied h hr hlookup
    · exact h.view q k r hlookup
  · by_cases hq : q = p
    · subst hq
      constructor
      · intro page' observed'
        unfold workIdentity pageEntries
        rw [recordPage_process, if_pos rfl]
      · intro key hkey
        unfold Answers
        rw [recordPage_process, if_pos rfl]
        exact mergedCaptures_answers h hr hkey
    · have hother : (s.recordPage digest p page observed status).process q = s.process q := by
        rw [recordPage_process, if_neg hq]
      exact .of_same (by rw [hother]) (by rw [hother]) (by rw [hother]) (List.Subset.refl _)
  · refine ⟨⟨page, status⟩, ?_, hr⟩
    rw [recordPage_process, if_pos rfl]
    exact AList.lookup_insert _

omit [DecidableEq P] in
theorem addLibrary_exist (h : s.LibrariesExist) (dll : String) :
    ({ s with libraries := dll :: s.libraries } : SharedCache P K).LibrariesExist := by
  constructor
  · intro f hf k r hlookup
    exact CaptureRecord.satisfied_more (h.file f hf k r hlookup) (List.subset_cons_self _ _)
  · intro q k r hlookup
    exact CaptureRecord.satisfied_more (h.view q k r hlookup) (List.subset_cons_self _ _)

/-- A candidate that did not fail for now is answered. -/
theorem compilePage_leaves (digest : WorkValue → K) (p : P) (page : PageKey)
    (observed : List Root) (outcome : CompileOutcome) (h : s.LibrariesExist) :
    (s.compilePage digest p page observed outcome).LibrariesExist ∧
      (∀ q, Continues digest q s (s.compilePage digest p page observed outcome)) ∧
      (outcome ≠ .failed → (s.compilePage digest p page observed outcome).Answers p
        (s.workIdentity digest p page observed)) := by
  have hvisit (hanswered : outcome ≠ .failed →
        s.Answers p (s.workIdentity digest p page observed)) :
      (s.visit p page).LibrariesExist ∧ (∀ q, Continues digest q s (s.visit p page)) ∧
        (outcome ≠ .failed → (s.visit p page).Answers p
          (s.workIdentity digest p page observed)) := by
    obtain ⟨hexist, hcontinues⟩ := visit_leaves digest p page h
    exact ⟨hexist, hcontinues, fun hdone => (hcontinues p).answers _ (hanswered hdone)⟩
  have hrecord {status : CaptureStatus} {base : SharedCache P K} (hbase : base.LibrariesExist)
      (hfrom : ∀ q, Continues digest q s base)
      (hr : (⟨page, status⟩ : CaptureRecord).satisfied base.libraries = true) :
      ((base.recordPage digest p page observed status).visit p page).LibrariesExist ∧
        (∀ q, Continues digest q s
          ((base.recordPage digest p page observed status).visit p page)) ∧
        (outcome ≠ .failed → ((base.recordPage digest p page observed status).visit p page).Answers
          p (s.workIdentity digest p page observed)) := by
    obtain ⟨hrecorded, hkeeps, hanswers⟩ := recordPage_leaves digest p observed hbase hr
    obtain ⟨hexist, hcontinues⟩ := visit_leaves digest p page hrecorded
    refine ⟨hexist, fun q => ((hfrom q).trans (hkeeps q)).trans (hcontinues q), fun _ => ?_⟩
    rw [← (hfrom p).identity]
    exact (hcontinues p).answers _ hanswers
  have hself (q : P) : Continues digest q s s := .of_same rfl rfl rfl (List.Subset.refl _)
  unfold compilePage
  by_cases hskips : s.skips digest p page observed = true
  · rw [if_pos hskips]
    exact hvisit fun _ => skips_answers hskips
  · rw [if_neg hskips]
    cases outcome with
    | failed => exact hvisit fun hdone => absurd rfl hdone
    | unsupported => exact hrecord h hself rfl
    | compileFailed => exact hrecord h hself rfl
    | ok dll =>
        refine hrecord (addLibrary_exist h dll) (fun q => ?_) (decide_eq_true List.mem_cons_self)
        exact .of_same rfl rfl rfl (List.subset_cons_self _ _)

theorem startRun_leaves (digest : WorkValue → K) (p : P) (h : s.LibrariesExist) :
    (s.startRun p).LibrariesExist ∧ ∀ q, q ≠ p → Continues digest q s (s.startRun p) := by
  have hself : (s.startRun p).process p =
      { s.process p with
        index := s.indexCaptures, published := s.indexCaptures, visited := [] } :=
    Function.update_self _ _ _
  have hother (q : P) (hq : q ≠ p) : (s.startRun p).process q = s.process q :=
    Function.update_of_ne hq _ _
  refine ⟨⟨h.file, ?_⟩, fun q hq => ?_⟩
  · intro q k r hlookup
    by_cases hq : q = p
    · subst hq
      rw [hself, indexCaptures] at hlookup
      cases hindex : s.index with
      | none =>
          rw [hindex] at hlookup
          cases hlookup
      | some f =>
          rw [hindex] at hlookup
          exact h.file f hindex k r hlookup
    · rw [hother q hq] at hlookup
      exact h.view q k r hlookup
  · exact .of_same (by rw [hother q hq]) (by rw [hother q hq]) (by rw [hother q hq])
      (List.Subset.refl _)

end SharedCache

/-! ### The runs -/

namespace CompilerDirectory

section Runs

variable (digest : WorkValue → K) (d : CompilerDirectory P K) (p : P)

/-- The index answers the work of a candidate. -/
def Answered (c : PageCandidate) : Prop :=
  d.cache.Answers p (d.cache.workIdentity digest p c.page c.observed)

/-- The stored queue holds a page with at least this weight. -/
def Queued (page : PageKey) (executions hits : Nat) : Prop :=
  ∃ f, d.queue = some f ∧ ∃ e ∈ f.pending,
    e.page = page ∧ executions ≤ e.executions ∧ hits ≤ e.hits

/-- The run has its candidates, and those the loop has reached are answered or will be
in the queue. -/
structure KeepsWork : Prop where
  collected : (d.run p).phase = .compiling →
    (d.run p).candidates =
      (d.run p).args.collectCandidates (d.run p).manifests (d.run p).queued
  kept : ∀ c ∈ (d.run p).candidates,
    c ∈ (d.run p).remaining ∨ d.Answered digest p c ∨ c.entry ∈ (d.run p).pending

structure DirectoryInvariant : Prop where
  exist : d.cache.LibrariesExist
  keeps : ∀ p, d.KeepsWork digest p

variable {digest d p} {d' : CompilerDirectory P K}

omit [DecidableEq P] in
/-- A step of one run leaves what the run of another has kept. -/
theorem KeepsWork.of_other (h : d.KeepsWork digest p) (hrun : d'.run p = d.run p)
    (hcontinues : SharedCache.Continues digest p d.cache d'.cache) : d'.KeepsWork digest p := by
  constructor
  · rw [hrun]
    exact h.collected
  · rw [hrun]
    intro c hc
    refine (h.kept c hc).imp_right fun hdone => hdone.imp_left fun hanswered => ?_
    unfold Answered
    rw [hcontinues.identity]
    exact hcontinues.answers _ hanswered

omit [DecidableEq K] in
theorem putRun_self (run : CompilerRun) : (d.putRun p run).run p = run := Function.update_self _ _ _

omit [DecidableEq K] in
theorem putRun_other (run : CompilerRun) {q : P} (hq : q ≠ p) :
    (d.putRun p run).run q = d.run q := Function.update_of_ne hq _ _

/-- A step that puts a run and leaves the cache of the others. -/
theorem putRun_invariant (h : ∀ q, q ≠ p → d.KeepsWork digest q) (hexist : d.cache.LibrariesExist)
    {run : CompilerRun} (hself : (d.putRun p run).KeepsWork digest p) :
    (d.putRun p run).DirectoryInvariant digest := by
  refine ⟨hexist, fun q => ?_⟩
  by_cases hq : q = p
  · exact hq ▸ hself
  · exact (h q hq).of_other (putRun_other run hq) (.of_same rfl rfl rfl (List.Subset.refl _))

theorem readIndex_invariant (h : d.DirectoryInvariant digest) (args : CompilerArgs)
    (manifests : List (String × Manifest)) :
    (d.readIndex p args manifests).DirectoryInvariant digest := by
  obtain ⟨hexist, hcontinues⟩ := SharedCache.startRun_leaves digest p h.exist
  have hothers (q : P) (hq : q ≠ p) :
      ({ d with cache := d.cache.startRun p } : CompilerDirectory P K).KeepsWork digest q :=
    (h.keeps q).of_other rfl (hcontinues q hq)
  refine putRun_invariant hothers hexist ?_
  constructor
  · rw [putRun_self]
    nofun
  · rw [putRun_self]
    nofun

theorem loadQueue_invariant (h : d.DirectoryInvariant digest) (locked : Bool) :
    (d.loadQueue p locked).DirectoryInvariant digest := by
  refine putRun_invariant (fun q _ => h.keeps q) h.exist ?_
  constructor
  · rw [putRun_self]
    nofun
  · rw [putRun_self]
    exact (h.keeps p).kept

theorem resume_invariant (h : d.DirectoryInvariant digest) (readable : String → Bool) :
    (d.resume p readable).DirectoryInvariant digest := by
  refine putRun_invariant (fun q _ => h.keeps q) h.exist ?_
  constructor
  · rw [putRun_self]
    intro _
    rfl
  · rw [putRun_self]
    intro c hc
    exact Or.inl hc

/-- The candidate that the loop reaches is answered, or it is remembered. -/
theorem tryCandidate_invariant (h : d.DirectoryInvariant digest) (outcome : CompileOutcome)
    (hphase : (d.run p).phase = .compiling) :
    (d.tryCandidate digest p outcome).DirectoryInvariant digest := by
  have hcollected := (h.keeps p).collected hphase
  have hkept := (h.keeps p).kept
  unfold tryCandidate
  split
  · exact h
  · rename_i c rest hremaining
    rw [hremaining] at hkept
    have hreached {e : PageCandidate} (he : e ∈ (d.run p).candidates) :
        e = c ∨ e ∈ rest ∨ d.Answered digest p e ∨ e.entry ∈ (d.run p).pending := by
      rcases hkept e he with hleft | hdone
      · exact (List.mem_cons.mp hleft).imp_right Or.inl
      · exact Or.inr (Or.inr hdone)
    dsimp only
    split
    · rename_i hskips
      refine putRun_invariant (fun q _ => h.keeps q) h.exist ⟨?_, ?_⟩
      · rw [putRun_self]
        exact fun _ => hcollected
      · rw [putRun_self]
        intro e he
        rcases hreached he with rfl | hlater
        · exact Or.inr (Or.inl (SharedCache.skips_answers hskips))
        · exact hlater
    · split
      · refine putRun_invariant (fun q _ => h.keeps q) h.exist ⟨?_, ?_⟩
        · rw [putRun_self]
          exact fun _ => hcollected
        · rw [putRun_self]
          intro e he
          rcases hreached he with rfl | hlater | hanswered | hpending
          · exact Or.inr (Or.inr (List.mem_append_right _ (List.mem_singleton_self _)))
          · exact Or.inl hlater
          · exact Or.inr (Or.inl hanswered)
          · exact Or.inr (Or.inr (List.mem_append_left _ hpending))
      · obtain ⟨hexist, hcontinues, hbuilt⟩ := SharedCache.compilePage_leaves digest p c.page
          c.observed outcome h.exist
        have hlasts {e : PageCandidate} (he : d.Answered digest p e) :
            (d.cache.compilePage digest p c.page c.observed outcome).Answers p
              ((d.cache.compilePage digest p c.page c.observed outcome).workIdentity digest p
                e.page e.observed) := by
          rw [(hcontinues p).identity]
          exact (hcontinues p).answers _ he
        have hothers (q : P) (_ : q ≠ p) :
            ({ d with cache := d.cache.compilePage digest p c.page c.observed outcome } :
              CompilerDirectory P K).KeepsWork digest q :=
          (h.keeps q).of_other rfl (hcontinues q)
        refine putRun_invariant hothers hexist ⟨?_, ?_⟩
        · rw [putRun_self]
          split
          · exact fun _ => hcollected
          · exact fun _ => hcollected
        · rw [putRun_self]
          split
          · intro e he
            rcases hreached he with rfl | hlater | hanswered | hpending
            · exact Or.inr (Or.inr (List.mem_append_right _ (List.mem_singleton_self _)))
            · exact Or.inl hlater
            · exact Or.inr (Or.inl (hlasts hanswered))
            · exact Or.inr (Or.inr (List.mem_append_left _ hpending))
          · rename_i hdone
            intro e he
            rcases hreached he with rfl | hlater | hanswered | hpending
            · refine Or.inr (Or.inl ?_)
              have hanswers := hbuilt hdone
              rw [← (hcontinues p).identity] at hanswers
              exact hanswers
            · exact Or.inl hlater
            · exact Or.inr (Or.inl (hlasts hanswered))
            · exact Or.inr (Or.inr hpending)

/-- A step that only moves the run to a phase after the loop. -/
theorem endPhase_invariant (h : d.DirectoryInvariant digest) {base : CompilerDirectory P K}
    (hcache : base.cache = d.cache) (hrun : base.run = d.run) (p : P) {phase : RunPhase}
    (hphase : phase ≠ .compiling) :
    (base.putRun p { d.run p with phase := phase }).DirectoryInvariant digest := by
  have hsame (q : P) : SharedCache.Continues digest q d.cache base.cache := by
    rw [hcache]
    exact .of_same rfl rfl rfl (List.Subset.refl _)
  refine putRun_invariant (fun q _ => (h.keeps q).of_other (by rw [hrun]) (hsame q))
    (hcache ▸ h.exist) ⟨?_, ?_⟩
  · rw [putRun_self]
    exact fun hcompiling => absurd hcompiling hphase
  · rw [putRun_self]
    have hself : base.KeepsWork digest p := (h.keeps p).of_other (by rw [hrun]) (hsame p)
    have hkept := hself.kept
    rw [hrun] at hkept
    exact hkept

theorem storeQueue_invariant (h : d.DirectoryInvariant digest) (locked : Bool) :
    (d.storeQueue p locked).DirectoryInvariant digest := by
  have hstored : RunPhase.queueStored ≠ .compiling := nofun
  unfold storeQueue
  refine endPhase_invariant h ?_ ?_ p hstored
  · rfl
  · rfl

theorem pruneSnapshots_invariant (h : d.DirectoryInvariant digest) :
    (d.pruneSnapshots p).DirectoryInvariant digest := by
  have hidle : RunPhase.idle ≠ .compiling := nofun
  unfold pruneSnapshots
  refine endPhase_invariant h ?_ ?_ p hidle
  · rfl
  · rfl

theorem directory_invariant (digest : WorkValue → K) :
    (directorySystem P digest).Invariant fun d => d.DirectoryInvariant digest where
  start := by
    rintro d ⟨hfile, hview, hruns⟩
    refine ⟨⟨hfile, fun q k r hlookup => ?_⟩, fun q => ⟨?_, ?_⟩⟩
    · rw [hview q] at hlookup
      cases hlookup
    · rw [hruns q]
      nofun
    · rw [hruns q]
      nofun
  step := by
    intro d op h hadmits
    cases op with
    | readIndex p args manifests => exact readIndex_invariant h args manifests
    | loadQueue p locked => exact loadQueue_invariant h locked
    | resume p readable => exact resume_invariant h readable
    | tryCandidate p outcome => exact tryCandidate_invariant h outcome hadmits.1
    | storeQueue p locked => exact storeQueue_invariant h locked
    | pruneSnapshots p => exact pruneSnapshots_invariant h
    | writeSnapshot path manifest =>
        refine ⟨h.exist, fun q => (h.keeps q).of_other rfl ?_⟩
        exact .of_same rfl rfl rfl (List.Subset.refl _)

/-- When the loop is through, a candidate is answered or is in the queue then stored. -/
theorem storeQueue_keeps (h : d.DirectoryInvariant digest)
    (hphase : (d.run p).phase = .compiling) (hremaining : (d.run p).remaining = [])
    {c : PageCandidate}
    (hc : c ∈ (d.run p).args.collectCandidates (d.run p).manifests (d.run p).queued) :
    (d.storeQueue p true).Answered digest p c ∨
      (d.storeQueue p true).Queued c.page c.executions c.hits := by
  rw [← (h.keeps p).collected hphase] at hc
  rcases (h.keeps p).kept c hc with hleft | hanswered | hpending
  · rw [hremaining] at hleft
    cases hleft
  · exact Or.inl hanswered
  · exact Or.inr ⟨_, rfl, c.entry, hpending, rfl, Nat.le_refl _, Nat.le_refl _⟩

theorem mem_resumeManifests {snapshots : List (String × Manifest)} {readable : String → Bool}
    {known : List String} {queued : List QueueEntry} {e : QueueEntry} (he : e ∈ queued)
    (hnamed : e.manifest ≠ "") (hnew : e.manifest ∉ known) (hreadable : readable e.manifest = true)
    {m : String × Manifest}
    (hm : snapshots.find? (fun snapshot => snapshot.1 = e.manifest) = some m) :
    m ∈ resumeManifests snapshots readable known queued := by
  refine List.mem_filterMap.mpr ⟨e.manifest, List.mem_filter.mpr ⟨?_, ?_⟩, hm⟩
  · exact List.mem_eraseDups.mpr (List.mem_map_of_mem he)
  · simp [hnamed, hnew, hreadable]

/-- Only a store replaces the queue. -/
theorem next_queue {op : DirectoryOp P} (hop : ∀ q locked, op ≠ .storeQueue q locked) :
    (d.next digest op).queue = d.queue := by
  cases op with
  | storeQueue q locked => exact absurd rfl (hop q locked)
  | tryCandidate q outcome =>
      unfold CompilerDirectory.next tryCandidate
      dsimp only
      split
      · rfl
      · split
        · rfl
        · split
          · rfl
          · rfl
  | readIndex _ _ _ => rfl
  | loadQueue _ _ => rfl
  | resume _ _ => rfl
  | pruneSnapshots _ => rfl
  | writeSnapshot _ _ => rfl

omit [DecidableEq K] in
theorem pruneSnapshots_keeps {snapshot : String × Manifest} (hsnapshot : snapshot ∈ d.snapshots)
    (hnamed : snapshot.1 ∈ (d.run p).pending.map QueueEntry.manifest) :
    snapshot ∈ (d.pruneSnapshots p).snapshots := by
  unfold pruneSnapshots putRun
  dsimp only
  split
  · exact hsnapshot
  · refine List.mem_filter.mpr ⟨hsnapshot, ?_⟩
    simp only [hnamed, decide_true, Bool.or_true]

end Runs

/-- In every interleaving: when a run whose loop is through stores its queue, each of its
candidates is answered by its index or is in that queue with its weight, and so is each
carried page that a manifest of the run shows and the filters let through, with no less
than the weight carried. The snapshots that the queue named are among the manifests as
far as they can be read; only the next store replaces the queue; and no snapshot that the
run left pending is pruned by it. -/
theorem pending_queue_keeps_work (digest : WorkValue → K) {d : CompilerDirectory P K}
    (hreachable : (directorySystem P digest).Reachable d) (p : P) :
    ((d.run p).phase = .compiling → (d.run p).remaining = [] →
      (∀ c ∈ (d.run p).args.collectCandidates (d.run p).manifests (d.run p).queued,
        (d.storeQueue p true).Answered digest p c ∨
          (d.storeQueue p true).Queued c.page c.executions c.hits) ∧
      ∀ carried, CompilerArgs.carriedEntry (d.run p).queued carried.page = some carried →
        ∀ m ∈ (d.run p).manifests, m.2.romSha1 = (d.run p).args.romSha1 → ∀ page ∈ m.2.pages,
          page.page = carried.page → page.page.cpu ∈ (d.run p).args.allowedCpus →
          (d.run p).args.canonicalEntries page ≠ [] →
          ((d.run p).args.minHits ≤ carried.hits ∨
            (d.run p).args.includeRoots = true ∧ 0 < (d.run p).args.rootHits page) →
          (∃ c ∈ (d.run p).args.collectCandidates (d.run p).manifests (d.run p).queued,
            c.page = carried.page ∧ (d.storeQueue p true).Answered digest p c) ∨
            (d.storeQueue p true).Queued carried.page carried.executions carried.hits) ∧
    (∀ readable : String → Bool, ∀ e ∈ (d.run p).queued,
      e.manifest ≠ "" → readable e.manifest = true →
      ∀ m, d.snapshots.find? (fun snapshot => snapshot.1 = e.manifest) = some m →
        e.manifest ∈ (d.run p).manifests.map Prod.fst ∨
          m ∈ ((d.resume p readable).run p).manifests) ∧
    (∀ op, (∀ q locked, op ≠ .storeQueue q locked) → (d.next digest op).queue = d.queue) ∧
    ∀ snapshot ∈ d.snapshots, snapshot.1 ∈ (d.run p).pending.map QueueEntry.manifest →
      snapshot ∈ (d.pruneSnapshots p).snapshots := by
  have hinvariant := hreachable.invariant (directory_invariant digest)
  refine ⟨?_, ?_, fun op => next_queue, fun snapshot => pruneSnapshots_keeps⟩
  · intro hphase hremaining
    have hcandidate {c : PageCandidate} (hc) :=
      storeQueue_keeps (c := c) hinvariant hphase hremaining hc
    refine ⟨fun c hc => hcandidate hc, ?_⟩
    intro carried hcarried m hm hrom page hpage hsame hcpu hentries hhot
    obtain ⟨c, hc, hcpage, hexecutions, hhits⟩ :=
      CompilerArgs.carried_candidate hcarried hm hrom hpage hsame hcpu hentries hhot
    rcases hcandidate hc with hanswered | ⟨f, hf, e, he, hepage, hmore, hmost⟩
    · exact Or.inl ⟨c, hc, hcpage, hanswered⟩
    · right
      exact ⟨f, hf, e, he, hepage.trans hcpage, hexecutions.trans hmore, hhits.trans hmost⟩
  · intro readable e he hnamed hreadable m hm
    by_cases hknown : e.manifest ∈ (d.run p).manifests.map Prod.fst
    · exact Or.inl hknown
    · right
      unfold resume
      rw [putRun_self]
      exact List.mem_append_right _ (mem_resumeManifests he hnamed hknown hreadable hm)

def otherPage : PageKey := { onePage with addr := 0x02001000 }

def manifestOf (page : PageKey) : Manifest :=
  ⟨"rom", [⟨page, [⟨⟨page.addr, false⟩, 3⟩], [], 40⟩]⟩

/-- One page was carried. -/
def carriedDirectory : CompilerDirectory Unit WorkValue where
  cache := { process := fun _ => { romSha1 := "rom", providerId := "tcc" } }
  queue := some ⟨"rom", "tcc", [⟨onePage, 90, 2, "manifest-1.json"⟩]⟩
  snapshots := [("manifest-1.json", manifestOf onePage)]

/-- Two processes, each with a page of its own. -/
def sharedDirectory : CompilerDirectory Bool WorkValue where
  cache := sharedCache
  snapshots := [("manifest-1.json", manifestOf onePage), ("manifest-2.json", manifestOf otherPage)]

/-- A run up to its store, with one outcome. -/
def runOps (p : P) (manifest : String) (page : PageKey) (outcome : CompileOutcome) :
    List (DirectoryOp P) :=
  [.readIndex p { manifest := manifest, romSha1 := "rom" } [(manifest, manifestOf page)],
    .loadQueue p true, .resume p (fun _ => true), .tryCandidate p outcome]

theorem carriedDirectory_start : (directorySystem Unit id).Reachable carriedDirectory :=
  .start ⟨nofun, fun _ => rfl, fun _ => rfl⟩

/-- The recompiler fails for now, and the page keeps its weight. -/
theorem pending_queue_keeps_one_page :
    (((directorySystem Unit id).runFrom carriedDirectory
      (runOps () "manifest-1.json" onePage .failed)).storeQueue () true).Queued onePage 90 2 := by
  have hadmits : (directorySystem Unit id).AdmitsAll carriedDirectory
      (runOps () "manifest-1.json" onePage .failed) := by decide
  have hkeeps := ((pending_queue_keeps_work id (carriedDirectory_start.runFrom hadmits) ()).1
    (by decide) (by decide)).2 ⟨onePage, 90, 2, "manifest-1.json"⟩
    (by decide) ("manifest-1.json", manifestOf onePage) (List.mem_singleton_self _)
    rfl ⟨onePage, [⟨⟨onePage.addr, false⟩, 3⟩], [], 40⟩ (List.mem_singleton_self _) rfl
    (by decide) (by decide) (Or.inl (by decide))
  rcases hkeeps with ⟨c, -, -, r, hlookup, -⟩ | hqueued
  · have hempty : ((((directorySystem Unit id).runFrom carriedDirectory
        (runOps () "manifest-1.json" onePage .failed)).storeQueue () true).cache.process
          ()).index.entries = [] := by
      decide
    have hentry := AList.mem_lookup_iff.mp hlookup
    rw [hempty] at hentry
    cases hentry
  · exact hqueued

/-- The index names a library for the work of a candidate. -/
def PublishedFor (digest : WorkValue → K) (d : CompilerDirectory P K) (p : P)
    (c : PageCandidate) : Prop :=
  ∃ r, (d.cache.process p).index.lookup (d.cache.workIdentity digest p c.page c.observed) = some r ∧
    r.status.isPublished = true

/-- Two runs that each leave a page pending. -/
def bothPending : List (DirectoryOp Bool) :=
  runOps false "manifest-1.json" onePage .failed ++ runOps true "manifest-2.json" otherPage .failed

/-- A run that leaves the CPU of the carried page out. -/
def otherCpuOps : List (DirectoryOp Unit) :=
  [.readIndex () { manifest := "manifest-2.json", romSha1 := "rom", allowedCpus := [7] }
      [("manifest-2.json", manifestOf otherPage)],
    .loadQueue () true, .resume () (fun _ => true), .storeQueue () true]

/-- A page that its compiler could not build is neither published nor queued; a carried page
that a filter leaves out is not queued again; of two runs the second store drops the queue
of the first; and a run prunes what the queue of the other names. -/
theorem pending_queue_loses_work :
    (¬ ∀ d, (directorySystem Unit id).Reachable d → ∀ p, (d.run p).phase = .queueStored →
      ∀ c ∈ (d.run p).candidates,
        d.PublishedFor id p c ∨ d.Queued c.page c.executions c.hits) ∧
    (¬ ∀ d, (directorySystem Unit id).Reachable d → ∀ p, (d.run p).phase = .queueStored →
      ∀ e ∈ (d.run p).queued, (∃ m ∈ (d.run p).manifests, ∃ page ∈ m.2.pages, page.page = e.page) →
        (∃ c : PageCandidate, c.page = e.page ∧ d.Answered id p c) ∨
          d.Queued e.page e.executions e.hits) ∧
    (¬ ∀ d, (directorySystem Bool id).Reachable d → (∀ p, (d.run p).phase = .queueStored) →
      ∀ p, ∀ c ∈ (d.run p).candidates,
        d.Answered id p c ∨ d.Queued c.page c.executions c.hits) ∧
    ¬ ∀ d, (directorySystem Bool id).Reachable d → ∀ p, (d.run p).phase = .queueStored →
      ∀ f, d.queue = some f → ∀ e ∈ f.pending, e.manifest ∈ d.snapshots.map Prod.fst →
        e.manifest ∈ (d.pruneSnapshots p).snapshots.map Prod.fst := by
  have hshared : (directorySystem Bool id).Reachable sharedDirectory :=
    .start ⟨nofun, fun _ => rfl, fun _ => rfl⟩
  refine ⟨?_, ?_, ?_, ?_⟩
  · intro hclaim
    have hadmits : (directorySystem Unit id).AdmitsAll carriedDirectory
        (runOps () "manifest-1.json" onePage .compileFailed ++ [.storeQueue () true]) := by
      decide
    have hfailed := hclaim _ (carriedDirectory_start.runFrom hadmits) () (by decide)
      ⟨onePage, [⟨onePage.addr, false⟩], 3, 90, "manifest-1.json"⟩ (by decide)
    rcases hfailed with ⟨r, hlookup, hpublished⟩ | ⟨f, hf, e, he, -⟩
    · have hnone : ((((directorySystem Unit id).runFrom carriedDirectory
          (runOps () "manifest-1.json" onePage .compileFailed ++ [.storeQueue () true])).cache.process
            ()).index.entries.all fun e => !e.2.status.isPublished) = true := by
        decide
      have hnot := List.all_eq_true.mp hnone _ (AList.mem_lookup_iff.mp hlookup)
      rw [hpublished] at hnot
      cases hnot
    · have hempty : ((directorySystem Unit id).runFrom carriedDirectory
          (runOps () "manifest-1.json" onePage .compileFailed ++ [.storeQueue () true])).queue =
            some ⟨"rom", "tcc", []⟩ := by
        decide
      rw [hempty] at hf
      cases hf
      cases he
  · intro hclaim
    have hadmits : (directorySystem Unit id).AdmitsAll carriedDirectory otherCpuOps := by
      decide
    have hleft := hclaim _ (carriedDirectory_start.runFrom hadmits) () (by decide)
      ⟨onePage, 90, 2, "manifest-1.json"⟩ (by decide)
      ⟨("manifest-1.json", manifestOf onePage), List.mem_append_right _ (List.mem_singleton_self _),
        ⟨onePage, [⟨⟨onePage.addr, false⟩, 3⟩], [], 40⟩, List.mem_singleton_self _, rfl⟩
    rcases hleft with ⟨c, -, r, hlookup, -⟩ | ⟨f, hf, e, he, -⟩
    · have hempty : (((directorySystem Unit id).runFrom carriedDirectory
          otherCpuOps).cache.process ()).index.entries = [] := by
        decide
      have hentry := AList.mem_lookup_iff.mp hlookup
      rw [hempty] at hentry
      cases hentry
    · have hempty : ((directorySystem Unit id).runFrom carriedDirectory otherCpuOps).queue =
          some ⟨"rom", "tcc", []⟩ := by
        decide
      rw [hempty] at hf
      cases hf
      cases he
  · intro hclaim
    have hadmits : (directorySystem Bool id).AdmitsAll sharedDirectory
        (bothPending ++ [.storeQueue false true, .storeQueue true true]) := by
      decide
    have hlost := hclaim _ (hshared.runFrom hadmits) (by decide) false
      ⟨onePage, [⟨onePage.addr, false⟩], 3, 40, "manifest-1.json"⟩ (by decide)
    rcases hlost with ⟨r, hlookup, -⟩ | ⟨f, hf, e, he, hpage, -⟩
    · have hempty : (((directorySystem Bool id).runFrom sharedDirectory
          (bothPending ++ [.storeQueue false true, .storeQueue true true])).cache.process
            false).index.entries = [] := by
        decide
      have hentry := AList.mem_lookup_iff.mp hlookup
      rw [hempty] at hentry
      cases hentry
    · have hother : ((directorySystem Bool id).runFrom sharedDirectory
          (bothPending ++ [.storeQueue false true, .storeQueue true true])).queue =
            some ⟨"rom", "tcc", [⟨otherPage, 40, 3, "manifest-2.json"⟩]⟩ := by
        decide
      rw [hother] at hf
      cases hf
      cases List.mem_singleton.mp he
      revert hpage
      decide
  · intro hclaim
    have hadmits : (directorySystem Bool id).AdmitsAll sharedDirectory
        (bothPending ++ [.storeQueue true true, .storeQueue false true]) := by
      decide
    have hpruned := hclaim _ (hshared.runFrom hadmits) true (by decide) _ rfl
      ⟨onePage, 40, 3, "manifest-1.json"⟩ (by decide) (by decide)
    revert hpruned
    decide

end CompilerDirectory

end NdsRecomp.ShardCompiler
