import Mathlib
import NdsRecomp.Exec.PageView
import NdsRecomp.Coverage.EntryCounts

/-!
Runs of the page store. The links between its containers hold in every run. The
hit counts are exact as long as no observation starts a new part by its own
capture: the page it is about is then stored, and the observation is lost.
-/

namespace NdsRecomp.CoverageManifest

open Bus Library

variable {Digest : Type} [DecidableEq Digest] {sha1 : List UInt8 → Digest}

open CoverageStore

/-! ### One step -/

structure SessionLinked (sha1 : List UInt8 → Digest) (g : CoverageSession Digest) : Prop where
  pages : g.store.PagesLinked sha1
  entries : g.store.EntriesLinked
  images : g.store.ImagesLinked g.image
  absent : ∀ key, g.store.pageIndex key = none → g.observed key = 0

variable {g : CoverageSession Digest} {s : CoverageStore Digest}

/-- What holds once a page has been captured. -/
structure AfterCapture (sha1 : List UInt8 → Digest) (g : CoverageSession Digest) (cpu : NdsCpu)
    (base : UInt32) (view : PageView) (s : CoverageStore Digest) : Prop where
  pages : s.PagesLinked sha1
  entries : s.EntriesLinked
  images : s.ImagesLinked
    (Function.update g.image cpu (capturedImage sha1 g.store cpu base view (g.image cpu)))
  counted : g.store.Counted g.observed → s.Counted g.observed

theorem SessionLinked.afterOutcome (h : SessionLinked sha1 g) {cpu : NdsCpu} {base : UInt32}
    {view : PageView} (hout : CaptureOutcome sha1 g.store cpu base view s) :
    AfterCapture sha1 g cpu base view s :=
  ⟨hout.pagesLinked h.pages, hout.entriesLinked h.entries, hout.imagesLinked h.pages h.images,
    hout.counted h.pages h.absent⟩

theorem SessionLinked.afterEntry (h : SessionLinked sha1 g) (cpu : NdsCpu) (note : EntryNote)
    (view : PageView) :
    AfterCapture sha1 g cpu note.base view (g.store.captureForEntry sha1 cpu note view) := by
  rcases captureForEntry_cases h.pages cpu note view with ⟨hcurrent, hsame⟩ | hout
  · have himage : capturedImage sha1 g.store cpu note.base view (g.image cpu) = g.image cpu :=
      if_pos hcurrent
    rw [hsame]
    refine ⟨h.pages, h.entries, ?_, id⟩
    rw [himage, Function.update_eq_self]
    exact h.images
  · exact h.afterOutcome hout

/-- The store and the captured contents after an operation. -/
theorem SessionLinked.next_store (h : SessionLinked sha1 g) (op : CoverageOp) :
    (g.store.next sha1 op).PagesLinked sha1 ∧ (g.store.next sha1 op).EntriesLinked ∧
      (g.store.next sha1 op).ImagesLinked (g.imageAfter sha1 op) := by
  cases op with
  | exec cpu pc view =>
      unfold CoverageStore.next noteExec CoverageSession.imageAfter
      dsimp only
      split
      · exact ⟨h.pages, h.entries, h.images⟩
      · have hafter := h.afterOutcome (captureExecPage_outcome h.pages cpu (pc &&& ~~~0xFFF) view)
        exact ⟨hafter.pages, hafter.entries, hafter.images⟩
  | entry cpu note view =>
      have hafter := h.afterEntry cpu note view
      exact (noteGenerationEntry_outcome hafter.entries).linked hafter.pages hafter.entries
        hafter.images
  | setOutput base =>
      exact ⟨h.pages.congr rfl rfl rfl rfl, h.entries.congr rfl rfl rfl rfl, h.images.congr rfl rfl⟩
  | flush writeOk =>
      unfold CoverageStore.next
      dsimp only
      rcases flushPart_cases g.store writeOk with hsame | hstarted
      · rw [hsame]
        exact ⟨h.pages, h.entries, h.images⟩
      · rw [hstarted]
        exact ⟨pagesLinked_empty rfl rfl rfl rfl, entriesLinked_empty rfl rfl rfl,
          imagesLinked_of_invalid h.images.own fun _ => rfl⟩
  | reset =>
      exact ⟨pagesLinked_empty rfl rfl rfl rfl, entriesLinked_empty rfl rfl rfl,
        imagesLinked_of_invalid h.images.own fun _ => rfl⟩

theorem SessionLinked.next (h : SessionLinked sha1 g) (op : CoverageOp) :
    SessionLinked sha1 (g.next sha1 op) := by
  obtain ⟨hpages, hentries, himages⟩ := h.next_store op
  refine ⟨hpages, hentries, himages, fun key hkey => ?_⟩
  have hkey : (g.store.next sha1 op).pageIndex key = none := hkey
  unfold CoverageSession.next
  dsimp only
  rw [hkey]
  rfl

omit [DecidableEq Digest] in
theorem sessionLinked_initial : SessionLinked sha1 ({} : CoverageSession Digest) :=
  ⟨pagesLinked_empty rfl rfl rfl rfl, entriesLinked_empty rfl rfl rfl,
    imagesLinked_of_invalid (fun _ _ hkey => by cases hkey) fun _ => rfl, fun _ _ => rfl⟩

/-! ### Sums across one step -/

/-- Unless a new part was started, the cache names the captured page. -/
theorem captureOutcome_cache {cpu : NdsCpu} {base : UInt32} {view : PageView}
    {s s' : CoverageStore Digest} (hout : CaptureOutcome sha1 s cpu base view s')
    (hnot : ¬ s.Rotates sha1 cpu base view) :
    (s'.cache cpu).valid = true ∧ (s'.cache cpu).base = base := by
  cases hout with
  | current hcurrent =>
      simp only [setCache, Function.update_self]
      exact current_named hcurrent
  | unwritable _ _ => simp [opened, setCache, openedCache]
  | resolved i _ _ _ =>
      have hcache : ((s.opened cpu base view).resolveTo cpu i).cache = _ := setStored_cache rfl i
      rw [hcache, Function.update_self]
      exact ⟨rfl, rfl⟩
  | dropped _ _ _ _ _ => simp [drop, opened, setCache, openedCache]
  | replaced i _ _ _ _ _ =>
      have hcache : ((s.opened cpu base view).replacePage i (keyOf sha1 cpu base view)
        view.bytes).cache = _ := setStored_cache rfl i
      rw [hcache, Function.update_self]
      exact ⟨rfl, rfl⟩
  | pushed _ _ _ _ _ =>
      have hcache : ((s.opened cpu base view).pushPage (keyOf sha1 cpu base view)
        view.bytes).cache = _ := setStored_cache rfl _
      rw [hcache, Function.update_self]
      exact ⟨rfl, rfl⟩
  | rotated hrotates => exact absurd hrotates hnot

theorem SessionLinked.entry_cache (h : SessionLinked sha1 g) {cpu : NdsCpu} {note : EntryNote}
    {view : PageView} (hnot : ¬ g.store.Rotates sha1 cpu note.base view) :
    ((g.store.captureForEntry sha1 cpu note view).cache cpu).valid = true ∧
      ((g.store.captureForEntry sha1 cpu note view).cache cpu).base = note.base := by
  rcases captureForEntry_cases h.pages cpu note view with ⟨hcurrent, hsame⟩ | hout
  · rw [hsame]
    exact current_named hcurrent
  · exact captureOutcome_cache hout hnot

omit [DecidableEq Digest] in
theorem pageIndex_lt (h : s.PagesLinked sha1) {key : PageKey Digest} {i : Nat}
    (hkey : s.pageIndex key = some i) : i < s.pages.length := by
  obtain ⟨bytes, hbytes⟩ := (h.indexed key i).mp hkey
  exact contents_length s ▸ (List.getElem?_eq_some_iff.mp hbytes).1

/-- An observation that does not start a new part is counted on the captured
content, if that is stored. -/
theorem SessionLinked.entry_counted (h : SessionLinked sha1 g) {cpu : NdsCpu} {note : EntryNote}
    {view : PageView} (hkeeps : g.KeepsObservation sha1 (.entry cpu note view))
    (hcounted : g.store.Counted g.observed) :
    (g.store.noteGenerationEntry sha1 cpu note view).Counted fun key =>
      g.observed key + CoverageSession.observes (g.imageAfter sha1 (.entry cpu note view))
        (.entry cpu note view) key := by
  have hafter := h.afterEntry cpu note view
  have hout := noteGenerationEntry_outcome hafter.entries
  have hbefore := hafter.counted hcounted
  have himages := hafter.images
  change ImagesLinked _ (g.imageAfter sha1 (.entry cpu note view)) at himages
  generalize hs : g.store.captureForEntry sha1 cpu note view = s at *
  generalize g.imageAfter sha1 (.entry cpu note view) = image at *
  generalize g.store.noteGenerationEntry sha1 cpu note view = s' at hout ⊢
  unfold CoverageSession.observes
  dsimp only
  cases hout with
  | unrecorded hnone =>
      intro key i l hkey hl
      rw [hbefore key i l hkey hl]
      dsimp only
      rw [if_neg, Nat.add_zero]
      rintro ⟨hroot, himage⟩
      obtain ⟨hvalid, hbase⟩ := hs ▸ h.entry_cache (hkeeps hroot)
      -- the captured content is resident, so the cache has its page
      cases hstored : (s.cache cpu).storedIndex with
      | none =>
          have hout := himages.uncached cpu hvalid hstored key himage
          rw [hkey] at hout
          cases hout
      | some j =>
          obtain ⟨key', hkey', hj⟩ := himages.cached cpu hvalid j hstored
          have hlt := pageIndex_lt hafter.pages hj
          unfold recordedPage at hnone
          simp [hvalid, hbase, hstored] at hnone
          omega
  | root i _ hroot =>
      intro key n l hkey hl
      rw [recordRoot_lists] at hl
      dsimp only
      rw [hroot, if_neg fun hfalse => by cases hfalse.1]
      exact hbefore key n l hkey hl
  | entry i hi hroot _ hrecord =>
      obtain ⟨hvalid, -, hstored, -⟩ := recordedPage_eq_some hi
      obtain ⟨key, hkey, hindex⟩ := himages.cached cpu hvalid i hstored
      have hsum := hrecord.counted hafter.pages hafter.entries hindex hbefore
      intro k n l hk hl
      rw [hsum k n l hk hl]
      dsimp only
      rw [hkey, hroot]
      by_cases hsame : k = key
      · rw [if_pos hsame, if_pos ⟨rfl, congrArg some hsame.symm⟩]
      · rw [if_neg hsame, if_neg fun heq => hsame (Option.some.inj heq.2).symm]

theorem SessionLinked.next_counted (h : SessionLinked sha1 g) {op : CoverageOp}
    (hkeeps : g.KeepsObservation sha1 op) (hcounted : g.store.Counted g.observed) :
    (g.next sha1 op).store.Counted (g.next sha1 op).observed := by
  have hstore : (g.store.next sha1 op).Counted fun key =>
      g.observed key + CoverageSession.observes (g.imageAfter sha1 op) op key := by
    cases op with
    | exec cpu pc view =>
        unfold CoverageStore.next noteExec
        dsimp only
        split
        · exact hcounted
        · exact (h.afterOutcome
            (captureExecPage_outcome h.pages cpu (pc &&& ~~~0xFFF) view)).counted hcounted
    | entry cpu note view => exact h.entry_counted hkeeps hcounted
    | setOutput base => exact hcounted
    | flush writeOk =>
        unfold CoverageStore.next
        dsimp only
        rcases flushPart_cases g.store writeOk with hsame | hstarted
        · rw [hsame]
          exact hcounted
        · rw [hstarted]
          intro key i l hkey
          cases hkey
    | reset =>
        intro key i l hkey
        cases hkey
  intro key i l hkey hl
  have hkey : (g.store.next sha1 op).pageIndex key = some i := hkey
  unfold CoverageSession.next
  dsimp only
  rw [hkey]
  exact hstore key i l hkey hl

/-! ### The store in every run -/

/-- The containers of the store agree with each other and keep their bounds. -/
structure StoreLinked (sha1 : List UInt8 → Digest) (s : CoverageStore Digest) : Prop where
  indexed : ∀ key (i : Nat), s.pageIndex key = some i ↔
    ∃ page, s.pages[i]? = some page ∧ page.key = key
  listed : ∀ a (i : Nat), i ∈ s.pagesByAddr a ↔
    ∃ page, s.pages[i]? = some page ∧ page.address = a
  once : ∀ a, (s.pagesByAddr a).Nodup
  content : ∀ (i : Nat) page, s.pages[i]? = some page → page.digest = sha1 page.bytes
  versions : ∀ a, (s.pagesByAddr a).length ≤ kMaxVersionsPerAddress
  capacity : s.pages.length ≤ kMaxPages
  /-- Of the records of one entry of a page all but a folded one are bounded. -/
  records : ∀ (i : Nat) page, s.pages[i]? = some page → ∀ pc thumb kind,
    ∃ folded : Option Nat,
      (∀ j, folded = some j → j ∈ entryGroup s.shapes page.entryIndices pc thumb kind ∧
        s.shapes[j]? = some ⟨pc, kCallerMany, thumb, kind⟩) ∧
      ((entryGroup s.shapes page.entryIndices pc thumb kind).filter fun j =>
        decide (folded ≠ some j)).length ≤ kMaxCallersPerEntry

omit [DecidableEq Digest] in
theorem records_bounded (h : s.EntriesLinked) {i : Nat} {l : List Nat} (hl : s.lists[i]? = some l)
    (pc : UInt32) (thumb kind : UInt8) :
    ∃ folded : Option Nat,
      (∀ j, folded = some j → j ∈ entryGroup s.shapes l pc thumb kind ∧
        s.shapes[j]? = some ⟨pc, kCallerMany, thumb, kind⟩) ∧
      ((entryGroup s.shapes l pc thumb kind).filter fun j => decide (folded ≠ some j)).length ≤
        kMaxCallersPerEntry := by
  let fanout := s.entryFanout ⟨i, pc, kCallerMany, thumb, kind⟩
  have hcap : fanout.kept ≤ kMaxCallersPerEntry := h.cap _
  have hkept : (entryGroup s.shapes l pc thumb kind).length = fanout.recordCount :=
    h.kept i l hl pc thumb kind
  by_cases hzero : fanout.kept = 0
  · have hnone : fanout.recordCount = 0 := if_pos hzero
    refine ⟨none, (fun j hj => by cases hj), ?_⟩
    have hle := List.length_filter_le (fun j => decide ((none : Option Nat) ≠ some j))
      (entryGroup s.shapes l pc thumb kind)
    omega
  · have hcount : fanout.recordCount = fanout.kept + fanout.foldedIndex.toList.length :=
      if_neg hzero
    cases hfolded : fanout.foldedIndex with
    | none =>
        refine ⟨none, (fun j hj => by cases hj), ?_⟩
        have hle := List.length_filter_le (fun j => decide ((none : Option Nat) ≠ some j))
          (entryGroup s.shapes l pc thumb kind)
        rw [hfolded] at hcount
        change fanout.recordCount = fanout.kept + 0 at hcount
        omega
    | some j =>
        obtain ⟨l', hl', hj, hshape⟩ := h.folded _ j hzero hfolded
        obtain rfl := Option.some.inj (hl.symm.trans hl')
        have hmem : j ∈ entryGroup s.shapes l pc thumb kind := by
          unfold entryGroup
          refine List.mem_filter.mpr ⟨hj, ?_⟩
          rw [hshape]
          simp [EntryShape.isOf, PageEntryKey.shape]
        refine ⟨some j, fun n hn => ?_, ?_⟩
        · obtain rfl := Option.some.inj hn
          exact ⟨hmem, hshape⟩
        · have hlt : ((entryGroup s.shapes l pc thumb kind).filter fun n =>
              decide (some j ≠ some n)).length < (entryGroup s.shapes l pc thumb kind).length :=
            List.length_filter_lt_length_iff_exists.mpr ⟨j, hmem, by simp⟩
          rw [hfolded] at hcount
          change fanout.recordCount = fanout.kept + 1 at hcount
          omega

omit [DecidableEq Digest] in
theorem SessionLinked.storeLinked (h : SessionLinked sha1 g) : StoreLinked sha1 g.store := by
  have hat (i : Nat) (page : StoredPage Digest) (hpage : g.store.pages[i]? = some page) :
      g.store.contents[i]? = some (page.key, page.bytes) := by
    rw [contents_getElem?, hpage]
    rfl
  constructor
  · intro key i
    rw [h.pages.indexed, contents_getElem?]
    simp only [Option.map_eq_some_iff, Prod.mk.injEq]
    constructor
    · rintro ⟨_, page, hpage, hkey, -⟩
      exact ⟨page, hpage, hkey⟩
    · rintro ⟨page, hpage, hkey⟩
      exact ⟨page.bytes, page, hpage, hkey, rfl⟩
  · intro a i
    rw [h.pages.listed, contents_getElem?]
    simp only [Option.map_eq_some_iff]
    constructor
    · rintro ⟨_, ⟨page, hpage, rfl⟩, ha⟩
      exact ⟨page, hpage, ha⟩
    · rintro ⟨page, hpage, ha⟩
      exact ⟨_, ⟨page, hpage, rfl⟩, ha⟩
  · exact h.pages.nodup
  · exact fun i page hpage => h.pages.digest i _ (hat i page hpage)
  · exact h.pages.versions
  · exact contents_length g.store ▸ h.pages.capacity
  · intro i page hpage pc thumb kind
    exact records_bounded h.entries (by rw [lists_getElem?, hpage]; rfl) pc thumb kind

omit [DecidableEq Digest] in
theorem SessionLinked.countsExact_iff (h : SessionLinked sha1 g) :
    g.CountsExact ↔ g.store.Counted g.observed := by
  have hsum (l : List Nat) :
      (l.map fun j => (g.store.entries[j]?.map StoredEntry.hits).getD 0).sum =
        hitsOf g.store.hitCounts l := by
    unfold hitsOf hitCounts
    simp only [List.getElem?_map]
  unfold CoverageSession.CountsExact
  simp only [hsum]
  constructor
  · intro hexact key i l hkey hl
    obtain ⟨page, hpage, rfl⟩ := (h.storeLinked.indexed key i).mp hkey
    rw [lists_getElem?, hpage] at hl
    obtain rfl := Option.some.inj hl
    exact hexact i page hpage
  · intro hcounted i page hpage
    refine hcounted page.key i page.entryIndices ?_ ?_
    · exact (h.storeLinked.indexed page.key i).mpr ⟨page, hpage, rfl⟩
    · rw [lists_getElem?, hpage]
      rfl

theorem linked_of_reachable (h : (coverageSystem sha1).Reachable g) : SessionLinked sha1 g := by
  have hinvariant : (coverageSystem sha1).Invariant (SessionLinked sha1) :=
    ⟨fun g hg => hg ▸ sessionLinked_initial, fun g op hg _ => hg.next op⟩
  exact h.invariant hinvariant

/-- An observation whose own capture starts a new part is lost. -/
theorem SessionLinked.not_exact_of_rotates (h : SessionLinked sha1 g) {cpu : NdsCpu}
    {note : EntryNote} {view : PageView} (hroot : note.isRoot = false)
    (hrotates : g.store.Rotates sha1 cpu note.base view) :
    ¬ (g.next sha1 (.entry cpu note view)).CountsExact := by
  let key := keyOf sha1 cpu note.base view
  let fresh := (g.store.opened cpu note.base view).startPart.pushPage key view.bytes
  have hcapture : g.store.captureForEntry sha1 cpu note view = fresh := by
    unfold captureForEntry
    rw [hrotates.stale, Bool.false_and, if_neg Bool.false_ne_true]
    exact captureExecPage_of_rotates h.pages hrotates
  have hcache : (fresh.cache cpu).valid = false := by
    change (Function.update (fun _ => ({} : CoverageExecCache)) cpu _ cpu).valid = false
    rw [Function.update_self]
    rfl
  have hstore : g.store.noteGenerationEntry sha1 cpu note view = fresh := by
    unfold noteGenerationEntry
    rw [hcapture]
    unfold recordedPage
    simp [hcache]
  have himage : g.imageAfter sha1 (.entry cpu note view) cpu = some key := by
    change Function.update g.image cpu _ cpu = some key
    rw [Function.update_self]
    unfold capturedImage
    rw [hrotates.stale, hrotates.writable]
    rfl
  have hindex : fresh.pageIndex key = some 0 := by
    have hlength : (g.store.opened cpu note.base view).startPart.pages.length = 0 := rfl
    rw [pushPage_pageIndex, if_pos rfl, hlength]
  have hlists : fresh.lists[0]? = some [] := by
    rw [pushPage_lists]
    rfl
  rw [(h.next _).countsExact_iff]
  intro hcounted
  have hresident : (g.next sha1 (.entry cpu note view)).store = fresh := hstore
  have hzero := hcounted key 0 [] (by rw [hresident]; exact hindex) (by rw [hresident]; exact hlists)
  unfold CoverageSession.next at hzero
  dsimp only at hzero
  have hnext : g.store.next sha1 (.entry cpu note view) = fresh := hstore
  rw [hnext, hindex] at hzero
  unfold CoverageSession.observes at hzero
  dsimp only [Option.isSome] at hzero
  rw [if_pos rfl, if_pos ⟨hroot, himage⟩] at hzero
  cases hzero

/-- The containers agree in every run. The counts are exact in every state of a
run none of whose observations starts a new part, and a step keeps them exact
precisely when it is not such an observation. -/
theorem coverage_exact (sha1 : List UInt8 → Digest) :
    (∀ g, (coverageSystem sha1).Reachable g → StoreLinked sha1 g.store) ∧
      ∀ g, ((coverageSystem sha1).restrict
          (CoverageSession.KeepsObservation sha1)).Reachable g →
        g.CountsExact ∧
          ∀ op, (g.next sha1 op).CountsExact ↔ g.KeepsObservation sha1 op := by
  refine ⟨fun g h => (linked_of_reachable h).storeLinked, fun g h => ?_⟩
  have hinvariant : ((coverageSystem sha1).restrict (CoverageSession.KeepsObservation sha1)).Invariant
      fun g => SessionLinked sha1 g ∧ g.store.Counted g.observed := by
    constructor
    · rintro g rfl
      exact ⟨sessionLinked_initial, fun key i l hkey => by cases hkey⟩
    · rintro g op ⟨hg, hcounted⟩ ⟨-, hkeeps⟩
      exact ⟨hg.next op, hg.next_counted hkeeps hcounted⟩
  obtain ⟨hg, hcounted⟩ := h.invariant hinvariant
  refine ⟨hg.countsExact_iff.mpr hcounted, fun op => ⟨fun hexact => ?_, fun hkeeps => ?_⟩⟩
  · cases op with
    | entry cpu note view =>
        exact fun hroot hrotates => hg.not_exact_of_rotates hroot hrotates hexact
    | _ => trivial
  · exact (hg.next op).countsExact_iff.mpr (hg.next_counted hkeeps hcounted)

/-! ### A full store -/

/-- The start of the `n`-th page of the address space. -/
def pageStart (n : Nat) : UInt32 := UInt32.ofNat (n * 4096)

/-- A writable page of some content, with a manifest that can be written. -/
def plainView : PageView where
  generation := 1
  epoch := 0
  writable := true
  bytes := [0]
  writeOk := true

theorem pageStart_toNat {n : Nat} (hn : n ≤ kMaxPages) : (pageStart n).toNat = n * 4096 := by
  unfold kMaxPages at hn
  exact UInt32.toNat_ofNat_of_lt' (by omega : n * 4096 < 2 ^ 32)

theorem pageStart_base {n : Nat} (hn : n ≤ kMaxPages) :
    pageStart n &&& ~~~0xFFF = pageStart n := by
  apply UInt32.toNat_inj.mp
  have hbase : (pageStart n &&& ~~~0xFFF).toNat = (pageStart n).toNat / 4096 * 4096 :=
    Exec.pageBase_toNat _
  rw [hbase, pageStart_toNat hn]
  omega

/-- The first `n` pages of the address space have been executed on the ARM9. -/
structure Filled (g : CoverageSession (List UInt8)) (n : Nat) : Prop where
  reachable : (coverageSystem id).Reachable g
  output : g.store.outBase ≠ ""
  captured : g.store.captured = n
  pages : ∀ page ∈ g.store.pages, page.addr.toNat < n * 4096
  cache : (g.store.cache .arm9).valid = true → (g.store.cache .arm9).base.toNat < n * 4096

theorem Filled.stale {g : CoverageSession (List UInt8)} {n : Nat} (h : Filled g n)
    (hn : n ≤ kMaxPages) :
    ((g.store.cache .arm9).valid && (g.store.cache .arm9).base == pageStart n) = false := by
  cases hvalid : (g.store.cache .arm9).valid with
  | false => rfl
  | true =>
      have hbase := h.cache hvalid
      rw [Bool.true_and, beq_eq_false_iff_ne]
      intro hsame
      rw [hsame, pageStart_toNat hn] at hbase
      omega

theorem Filled.unlisted {g : CoverageSession (List UInt8)} {n : Nat} (h : Filled g n)
    (hn : n ≤ kMaxPages) : g.store.pagesByAddr (.arm9, pageStart n) = [] := by
  apply List.eq_nil_iff_forall_not_mem.mpr
  intro i hi
  obtain ⟨page, hpage, haddress⟩ := ((linked_of_reachable h.reachable).storeLinked.listed _ i).mp hi
  have hlt := h.pages page (List.mem_of_getElem? hpage)
  have haddr : page.addr = pageStart n := (Prod.mk.inj haddress).2
  rw [haddr, pageStart_toNat hn] at hlt
  omega

theorem Filled.unknown {g : CoverageSession (List UInt8)} {n : Nat} (h : Filled g n)
    (hn : n ≤ kMaxPages) :
    g.store.pageIndex (keyOf id .arm9 (pageStart n) plainView) = none := by
  cases hindex : g.store.pageIndex (keyOf id .arm9 (pageStart n) plainView) with
  | none => rfl
  | some i =>
      obtain ⟨page, hpage, hkey⟩ :=
        ((linked_of_reachable h.reachable).storeLinked.indexed _ i).mp hindex
      have hlt := h.pages page (List.mem_of_getElem? hpage)
      have haddr : page.addr = pageStart n := congrArg PageKey.addr hkey
      rw [haddr, pageStart_toNat hn] at hlt
      omega

theorem Filled.next {g : CoverageSession (List UInt8)} {n : Nat} (h : Filled g n)
    (hn : n < kMaxPages) : Filled (g.next id (.exec .arm9 (pageStart n) plainView)) (n + 1) := by
  have hle := Nat.le_of_lt hn
  let base := pageStart n
  have hstore : (g.next id (.exec .arm9 base plainView)).store =
      (g.store.opened .arm9 base plainView).pushPage (keyOf id .arm9 base plainView)
        plainView.bytes := by
    change g.store.noteExec id .arm9 base plainView = _
    unfold noteExec
    dsimp only
    rw [pageStart_base hle, h.stale hle, Bool.false_and, if_neg Bool.false_ne_true]
    have hout := captureExecPage_outcome (linked_of_reachable h.reachable).pages .arm9 base plainView
    generalize g.store.captureExecPage id .arm9 base plainView = result at hout
    have hunknown := h.unknown hle
    have hcaptured := h.captured
    cases hout with
    | pushed _ _ _ _ _ => rfl
    | current hcurrent =>
        unfold CoverageExecCache.current at hcurrent
        rw [h.stale hle] at hcurrent
        cases hcurrent
    | unwritable _ hwritable => cases hwritable
    | resolved i _ _ hi => exact absurd (hi.symm.trans hunknown) (by simp)
    | dropped _ _ _ hfull _ => omega
    | replaced i _ _ _ _ hi =>
        rw [h.unlisted hle] at hi
        cases hi
    | rotated hrotates =>
        have hfull := hrotates.full
        omega
  refine ⟨.step h.reachable trivial, ?_, ?_, fun page hpage => ?_, fun _ => ?_⟩
  · rw [hstore]
    exact h.output
  · rw [hstore]
    exact congrArg (· + 1) h.captured
  · rw [hstore] at hpage
    rcases List.mem_append.mp hpage with hpage | hpage
    · exact Nat.lt_of_lt_of_le (h.pages page hpage) (Nat.mul_le_mul_right _ (Nat.le_succ n))
    · rw [List.mem_singleton.mp hpage]
      change (pageStart n).toNat < _
      rw [pageStart_toNat hle]
      omega
  · have hcache : ((g.store.opened .arm9 base plainView).pushPage (keyOf id .arm9 base plainView)
        plainView.bytes).cache = _ := setStored_cache rfl _
    rw [hstore, hcache, Function.update_self]
    change (pageStart n).toNat < _
    rw [pageStart_toNat hle]
    omega

theorem exists_filled {n : Nat} (hn : n ≤ kMaxPages) :
    ∃ g : CoverageSession (List UInt8), Filled g n := by
  induction n with
  | zero =>
      have hstart : (coverageSystem (id : List UInt8 → List UInt8)).Reachable {} := .start rfl
      refine ⟨CoverageSession.next id {} (.setOutput "out"), .step hstart trivial, by decide, rfl,
        (fun page hpage => by cases hpage), fun hvalid => by cases hvalid⟩
  | succ n ih =>
      obtain ⟨g, hg⟩ := ih (by omega)
      exact ⟨_, hg.next (by omega)⟩

/-- A call observed on a page that does not fit a full store any more. -/
theorem rotation_loses_entry :
    ¬ ∀ g : CoverageSession (List UInt8), (coverageSystem id).Reachable g → g.CountsExact := by
  intro h
  obtain ⟨g, hg⟩ := exists_filled (Nat.le_refl kMaxPages)
  let note : EntryNote := { pc := pageStart kMaxPages, thumb := false, kind := 2, caller := 0 }
  have hbase : note.base = pageStart kMaxPages := by decide
  have hrotates : g.store.Rotates id .arm9 note.base plainView := by
    rw [hbase]
    refine ⟨?_, rfl, ?_, hg.unknown (Nat.le_refl _), ?_, ?_, hg.output, rfl⟩
    · unfold CoverageExecCache.current
      rw [hg.stale (Nat.le_refl _), Bool.false_and]
    · unfold storedVersion
      rw [hg.unlisted (Nat.le_refl _)]
      rfl
    · rw [hg.unlisted (Nat.le_refl _)]
      decide
    · exact Nat.le_of_eq hg.captured.symm
  exact (linked_of_reachable hg.reachable).not_exact_of_rotates (by decide) hrotates
    (h _ (.step hg.reachable trivial))

end NdsRecomp.CoverageManifest
