import Mathlib
import NdsRecomp.Coverage.EntryRecords

/-!
What the hit counts of a stored page add up to. A session follows the store
together with the content captured last for each processor and, for every
resident content, the entries observed while it was the captured one.
-/

namespace NdsRecomp.CoverageManifest

open Bus Library

variable {Digest : Type}

/-! ### Sums of counters -/

def hitsOf (hits : List Nat) (l : List Nat) : Nat := (l.map fun j => hits[j]?.getD 0).sum

theorem hitsOf_cons (hits : List Nat) (j : Nat) (l : List Nat) :
    hitsOf hits (j :: l) = hits[j]?.getD 0 + hitsOf hits l := rfl

theorem hitsOf_congr {hits hits' l : List Nat} (h : ∀ j ∈ l, hits'[j]? = hits[j]?) :
    hitsOf hits' l = hitsOf hits l := by
  unfold hitsOf
  exact congrArg List.sum (List.map_congr_left fun j hj => by rw [h j hj])

theorem hitsOf_modify_of_not_mem {hits l : List Nat} {j : Nat} (h : j ∉ l) :
    hitsOf (hits.modify j (· + 1)) l = hitsOf hits l := by
  refine hitsOf_congr fun n hn => List.getElem?_modify_ne _ _ ?_
  rintro rfl
  exact h hn

theorem hitsOf_modify_of_mem {hits l : List Nat} {j : Nat} (hl : l.Nodup) (h : j ∈ l)
    (hj : j < hits.length) : hitsOf (hits.modify j (· + 1)) l = hitsOf hits l + 1 := by
  induction l with
  | nil => cases h
  | cons n l ih =>
      obtain ⟨hn, hl⟩ := List.nodup_cons.mp hl
      rw [hitsOf_cons, hitsOf_cons]
      by_cases hnj : n = j
      · subst hnj
        rw [hitsOf_modify_of_not_mem hn, List.getElem?_modify_eq, List.getElem?_eq_getElem hj]
        simp only [Option.map_eq_map, Option.map_some, Option.getD_some]
        omega
      · have hmem : j ∈ l := (List.mem_cons.mp h).resolve_left (Ne.symm hnj)
        rw [ih hl hmem, List.getElem?_modify_ne _ _ (Ne.symm hnj)]
        omega

theorem hitsOf_push {hits l : List Nat} (h : ∀ j ∈ l, j < hits.length) (n : Nat) :
    hitsOf (hits ++ [n]) l = hitsOf hits l :=
  hitsOf_congr fun j hj => List.getElem?_append_left (h j hj)

theorem hitsOf_append {hits l : List Nat} (h : ∀ j ∈ l, j < hits.length) (n : Nat) :
    hitsOf (hits ++ [n]) (l ++ [hits.length]) = hitsOf hits l + n := by
  have hsplit : hitsOf (hits ++ [n]) (l ++ [hits.length]) =
      hitsOf (hits ++ [n]) l + n := by
    unfold hitsOf
    rw [List.map_append, List.sum_append]
    simp
  rw [hsplit, hitsOf_push h]

/-! ### A session -/

structure CoverageSession (Digest : Type) where
  store : CoverageStore Digest := {}
  /-- The content captured last for a processor. -/
  image : NdsCpu → Option (PageKey Digest) := fun _ => none
  /-- Entries observed on a resident content since it was stored. -/
  observed : PageKey Digest → Nat := fun _ => 0

variable [DecidableEq Digest] (sha1 : List UInt8 → Digest)

/-- The content captured for `cpu` after a capture of the page at `base`. -/
def capturedImage (s : CoverageStore Digest) (cpu : NdsCpu) (base : UInt32) (view : PageView)
    (before : Option (PageKey Digest)) : Option (PageKey Digest) :=
  if (s.cache cpu).current base view.generation then before
  else if view.writable then some (CoverageStore.keyOf sha1 cpu base view)
  else none

namespace CoverageSession

def imageAfter (g : CoverageSession Digest) : CoverageOp → NdsCpu → Option (PageKey Digest)
  | .exec cpu pc view =>
      let cache := g.store.cache cpu
      if cache.valid && cache.base == (pc &&& ~~~0xFFF) && cache.epoch == view.epoch then g.image
      else
        Function.update g.image cpu
          (capturedImage sha1 g.store cpu (pc &&& ~~~0xFFF) view (g.image cpu))
  | .entry cpu note view =>
      Function.update g.image cpu (capturedImage sha1 g.store cpu note.base view (g.image cpu))
  | _ => g.image

/-- One for an entry, other than a root, that is observed while `key` is the
captured content. -/
def observes (image : NdsCpu → Option (PageKey Digest)) (op : CoverageOp) (key : PageKey Digest) :
    Nat :=
  match op with
  | .entry cpu note _ => if note.isRoot = false ∧ image cpu = some key then 1 else 0
  | _ => 0

def next (g : CoverageSession Digest) (op : CoverageOp) : CoverageSession Digest :=
  let store := g.store.next sha1 op
  let image := g.imageAfter sha1 op
  { store := store
    image := image
    observed := fun key =>
      if (store.pageIndex key).isSome then g.observed key + observes image op key else 0 }

/-- Every stored page's hit counts add up to the entries observed on it. -/
def CountsExact (g : CoverageSession Digest) : Prop :=
  ∀ (i : Nat) (page : StoredPage Digest), g.store.pages[i]? = some page →
    (page.entryIndices.map fun j => (g.store.entries[j]?.map StoredEntry.hits).getD 0).sum =
      g.observed page.key

/-- The observation is not the one whose own capture starts a new part. -/
def KeepsObservation (g : CoverageSession Digest) : CoverageOp → Prop
  | .entry cpu note view => note.isRoot = false → ¬ g.store.Rotates sha1 cpu note.base view
  | _ => True

end CoverageSession

/-- Runs from an empty store, under any order of operations. -/
def coverageSystem : OpSystem (CoverageSession Digest) CoverageOp where
  initial := fun g => g = {}
  admits := fun _ _ => True
  next := CoverageSession.next sha1

namespace CoverageStore

def hitCounts (s : CoverageStore Digest) : List Nat := s.entries.map StoredEntry.hits

omit [DecidableEq Digest] in
theorem hitCounts_length (s : CoverageStore Digest) : s.hitCounts.length = s.shapes.length := by
  rw [shapes_length]
  exact List.length_map _

/-- The sums over the resident pages are as `observed` says. -/
def Counted (s : CoverageStore Digest) (observed : PageKey Digest → Nat) : Prop :=
  ∀ key i l, s.pageIndex key = some i → s.lists[i]? = some l →
    hitsOf s.hitCounts l = observed key

/-- The caches name the captured contents, if these are stored at all. -/
structure ImagesLinked (s : CoverageStore Digest) (image : NdsCpu → Option (PageKey Digest)) :
    Prop where
  own : ∀ cpu key, image cpu = some key → key.cpu = cpu
  cached : ∀ cpu, (s.cache cpu).valid = true → ∀ i, (s.cache cpu).storedIndex = some i →
    ∃ key, image cpu = some key ∧ s.pageIndex key = some i
  uncached : ∀ cpu, (s.cache cpu).valid = true → (s.cache cpu).storedIndex = none →
    ∀ key, image cpu = some key → s.pageIndex key = none

variable {sha1} {s s' : CoverageStore Digest} {image : NdsCpu → Option (PageKey Digest)}

omit [DecidableEq Digest] in
theorem ImagesLinked.congr (h : s.ImagesLinked image) (hcache : s'.cache = s.cache)
    (hindex : s'.pageIndex = s.pageIndex) : s'.ImagesLinked image := by
  obtain ⟨own, cached, uncached⟩ := h
  constructor
  · exact own
  · rw [hcache, hindex]
    exact cached
  · rw [hcache, hindex]
    exact uncached

omit [DecidableEq Digest] in
theorem imagesLinked_of_invalid (hown : ∀ cpu key, image cpu = some key → key.cpu = cpu)
    (h : ∀ cpu, (s.cache cpu).valid = false) : s.ImagesLinked image := by
  refine ⟨hown, fun cpu hvalid => ?_, fun cpu hvalid => ?_⟩
  · exact absurd (hvalid.symm.trans (h cpu)) (by decide)
  · exact absurd (hvalid.symm.trans (h cpu)) (by decide)

omit [DecidableEq Digest] in
/-- One processor's cache is set; the other's view of the index stays. -/
theorem imagesLinked_update {cpu : NdsCpu} {cache : CoverageExecCache}
    {captured : Option (PageKey Digest)} (h : s.ImagesLinked image)
    (hcache : s'.cache = Function.update s.cache cpu cache)
    (hown : ∀ key, captured = some key → key.cpu = cpu)
    (hcached : cache.valid = true → ∀ i, cache.storedIndex = some i →
      ∃ key, captured = some key ∧ s'.pageIndex key = some i)
    (huncached : cache.valid = true → cache.storedIndex = none →
      ∀ key, captured = some key → s'.pageIndex key = none)
    (hothers : ∀ key : PageKey Digest, key.cpu ≠ cpu → s'.pageIndex key = s.pageIndex key) :
    s'.ImagesLinked (Function.update image cpu captured) := by
  constructor
  · intro other key hkey
    by_cases hsame : other = cpu
    · subst hsame
      rw [Function.update_self] at hkey
      exact hown key hkey
    · rw [Function.update_of_ne hsame] at hkey
      exact h.own other key hkey
  · intro other hvalid i hi
    rw [hcache] at hvalid hi
    by_cases hsame : other = cpu
    · subst hsame
      rw [Function.update_self] at hvalid hi ⊢
      exact hcached hvalid i hi
    · rw [Function.update_of_ne hsame] at hvalid hi ⊢
      obtain ⟨key, hkey, hindex⟩ := h.cached other hvalid i hi
      refine ⟨key, hkey, ?_⟩
      rw [hothers key (by rw [h.own other key hkey]; exact hsame)]
      exact hindex
  · intro other hvalid hnone key hkey
    rw [hcache] at hvalid hnone
    by_cases hsame : other = cpu
    · subst hsame
      rw [Function.update_self] at hvalid hnone hkey
      exact huncached hvalid hnone key hkey
    · rw [Function.update_of_ne hsame] at hvalid hnone hkey
      rw [hothers key (by rw [h.own other key hkey]; exact hsame)]
      exact h.uncached other hvalid hnone key hkey

omit [DecidableEq Digest] in
/-- The page a listed index names belongs to the address it is listed under. -/
theorem PagesLinked.cpu_of_listed (h : s.PagesLinked sha1) {cpu : NdsCpu} {base : UInt32} {i : Nat}
    (hi : i ∈ s.pagesByAddr (cpu, base)) {key : PageKey Digest} (hkey : s.pageIndex key = some i) :
    key.cpu = cpu := by
  obtain ⟨c, hc, haddress⟩ := (h.listed _ i).mp hi
  obtain ⟨bytes, hbytes⟩ := (h.indexed key i).mp hkey
  obtain rfl := Option.some.inj (hc.symm.trans hbytes)
  exact (Prod.mk.inj haddress).1

omit [DecidableEq Digest] in
theorem capturedImage_own {cpu : NdsCpu} {base : UInt32} {view : PageView}
    {before : Option (PageKey Digest)} (h : ∀ key, before = some key → key.cpu = cpu)
    (key : PageKey Digest) (hkey : capturedImage sha1 s cpu base view before = some key) :
    key.cpu = cpu := by
  unfold capturedImage at hkey
  split at hkey
  · exact h key hkey
  · split at hkey
    · rw [← Option.some.inj hkey]
      rfl
    · cases hkey

/-- After a capture the caches and the captured contents agree again. -/
theorem CaptureOutcome.imagesLinked {cpu : NdsCpu} {base : UInt32} {view : PageView}
    (hout : CaptureOutcome sha1 s cpu base view s') (hpages : s.PagesLinked sha1)
    (h : s.ImagesLinked image) :
    s'.ImagesLinked
      (Function.update image cpu (capturedImage sha1 s cpu base view (image cpu))) := by
  have hown : ∀ key, capturedImage sha1 s cpu base view (image cpu) = some key → key.cpu = cpu :=
    capturedImage_own (h.own cpu)
  have hne (k : PageKey Digest) (hk : k.cpu ≠ cpu) : k ≠ keyOf sha1 cpu base view := by
    rintro rfl
    exact hk rfl
  have hread (hstale : (s.cache cpu).current base view.generation = false)
      (hwritable : view.writable = true) : capturedImage sha1 s cpu base view (image cpu) =
        some (keyOf sha1 cpu base view) := by
    unfold capturedImage
    rw [hstale, hwritable]
    rfl
  cases hout with
  | current hcurrent =>
      have hsame : capturedImage sha1 s cpu base view (image cpu) = image cpu := if_pos hcurrent
      rw [hsame] at hown ⊢
      exact imagesLinked_update h rfl hown (h.cached cpu) (h.uncached cpu) fun _ _ => rfl
  | unwritable hstale hwritable =>
      have hnone : capturedImage sha1 s cpu base view (image cpu) = none := by
        unfold capturedImage
        rw [hstale, hwritable]
        rfl
      refine imagesLinked_update h rfl hown (fun _ i hi => by cases hi) (fun _ _ key hk => ?_)
        fun _ _ => rfl
      rw [hnone] at hk
      cases hk
  | resolved i hstale hwritable hi =>
      refine imagesLinked_update h (setStored_cache rfl i) hown (fun _ j hj => ?_)
        (fun _ hnone => by cases hnone) fun _ _ => rfl
      obtain rfl := Option.some.inj hj
      exact ⟨_, hread hstale hwritable, hi⟩
  | dropped hstale hwritable hnew hfull hnot =>
      refine imagesLinked_update h rfl hown (fun _ i hi => by cases hi) (fun _ _ key hk => ?_)
        fun _ _ => rfl
      rw [hread hstale hwritable] at hk
      obtain rfl := Option.some.inj hk
      exact hnew
  | replaced i hstale hwritable hnew hversions hi =>
      refine imagesLinked_update h (setStored_cache rfl i) hown (fun _ j hj => ?_)
        (fun _ hnone => by cases hnone) fun k hk => ?_
      · obtain rfl := Option.some.inj hj
        refine ⟨_, hread hstale hwritable, ?_⟩
        rw [replacePage_pageIndex, if_pos rfl]
      · have hkeep : s.pageIndex k ≠ some i := fun hki => hk (hpages.cpu_of_listed hi hki)
        rw [replacePage_pageIndex, if_neg (hne k hk)]
        exact if_neg hkeep
  | pushed hstale hwritable hnew hversions hcapacity =>
      refine imagesLinked_update h (setStored_cache rfl _) hown (fun _ j hj => ?_)
        (fun _ hnone => by cases hnone) fun k hk => ?_
      · obtain rfl := Option.some.inj hj
        refine ⟨_, hread hstale hwritable, ?_⟩
        rw [pushPage_pageIndex, if_pos rfl]
      · rw [pushPage_pageIndex, if_neg (hne k hk)]
        rfl
  | rotated hrotates =>
      -- the new part starts with both caches cleared
      refine imagesLinked_of_invalid (fun other key hkey => ?_) fun other => ?_
      · by_cases hsame : other = cpu
        · subst hsame
          rw [Function.update_self] at hkey
          exact hown key hkey
        · rw [Function.update_of_ne hsame] at hkey
          exact h.own other key hkey
      · change (Function.update (fun _ => ({} : CoverageExecCache)) cpu _ other).valid = false
        by_cases hsame : other = cpu
        · rw [hsame, Function.update_self]
          rfl
        · rw [Function.update_of_ne hsame]

/-! ### Sums across a capture -/

/-- A content that is stored anew has nothing recorded and nothing observed. -/
theorem CaptureOutcome.counted {cpu : NdsCpu} {base : UInt32} {view : PageView}
    {observed : PageKey Digest → Nat} (hout : CaptureOutcome sha1 s cpu base view s')
    (hpages : s.PagesLinked sha1) (habsent : ∀ key, s.pageIndex key = none → observed key = 0)
    (h : s.Counted observed) :
    s'.Counted observed := by
  cases hout with
  | current _ => exact h
  | unwritable _ _ => exact h
  | resolved i _ _ _ =>
      intro key n l hkey hl
      have hlists : ((s.opened cpu base view).resolveTo cpu i).lists = s.lists :=
        touchPage_lists_same _ i fun _ => rfl
      rw [hlists] at hl
      exact h key n l hkey hl
  | dropped _ _ _ _ _ => exact h
  | replaced i _ _ hnew _ _ =>
      intro key n l hkey hl
      rw [replacePage_pageIndex] at hkey
      rw [replacePage_lists, List.getElem?_set] at hl
      split at hkey
      · next hsame =>
          obtain rfl := Option.some.inj hkey
          rw [if_pos rfl] at hl
          split at hl
          · obtain rfl := Option.some.inj hl
            rw [hsame, habsent _ hnew]
            rfl
          · cases hl
      · split at hkey
        · cases hkey
        · next hother =>
            have hin : ¬ i = n := by
              rintro rfl
              exact hother hkey
            rw [if_neg hin] at hl
            exact h key n l hkey hl
  | pushed _ _ hnew _ _ =>
      intro key n l hkey hl
      rw [pushPage_pageIndex] at hkey
      rw [pushPage_lists, List.getElem?_append] at hl
      have hlength : (s.opened cpu base view).lists.length = (s.opened cpu base view).pages.length :=
        List.length_map _
      split at hkey
      · next hsame =>
          obtain rfl := Option.some.inj hkey
          rw [hlength, if_neg (Nat.lt_irrefl _), Nat.sub_self] at hl
          obtain rfl := Option.some.inj hl
          rw [hsame, habsent _ hnew]
          rfl
      · have hkey : s.pageIndex key = some n := hkey
        have hlt : n < (s.opened cpu base view).lists.length := by
          obtain ⟨bytes, hbytes⟩ := (hpages.indexed key n).mp hkey
          rw [hlength]
          exact contents_length s ▸ (List.getElem?_eq_some_iff.mp hbytes).1
        rw [if_pos hlt] at hl
        exact h key n l hkey hl
  | rotated hrotates =>
      intro key n l hkey hl
      rw [pushPage_pageIndex] at hkey
      split at hkey
      · next hsame =>
          obtain rfl := Option.some.inj hkey
          rw [pushPage_lists] at hl
          obtain rfl := Option.some.inj hl
          rw [hsame, habsent _ hrotates.unknown]
          rfl
      · cases hkey

omit [DecidableEq Digest] in
/-- One slot has one key. -/
theorem PagesLinked.key_unique (h : s.PagesLinked sha1) {key key' : PageKey Digest} {i : Nat}
    (hkey : s.pageIndex key = some i) (hkey' : s.pageIndex key' = some i) : key = key' := by
  obtain ⟨b, hb⟩ := (h.indexed key i).mp hkey
  obtain ⟨b', hb'⟩ := (h.indexed key' i).mp hkey'
  exact congrArg Prod.fst (Option.some.inj (hb.symm.trans hb'))

/-- A record adds one to the sum of its page and nothing to the others. -/
theorem RecordOutcome.counted {i : Nat} {note : EntryNote} {key : PageKey Digest}
    {observed : PageKey Digest → Nat} (hout : RecordOutcome s i note s')
    (hpages : s.PagesLinked sha1) (hentries : s.EntriesLinked) (hkey : s.pageIndex key = some i)
    (h : s.Counted observed) :
    s'.Counted fun k => observed k + if k = key then 1 else 0 := by
  obtain ⟨-, hindex, -⟩ := hout.contents
  intro k n l' hk hl'
  rw [hindex] at hk
  have hsame : k = key ↔ n = i := by
    constructor
    · rintro rfl
      exact Option.some.inj (hk.symm.trans hkey)
    · rintro rfl
      exact hpages.key_unique hk hkey
  have hold (l : List Nat) (hl : s.lists[n]? = some l) : hitsOf s.hitCounts l = observed k :=
    h k n l hk hl
  cases hout with
  | hit j l hl hj =>
      rw [hitEntry_lists] at hl'
      have hcounts : (s.hitEntry i j).hitCounts = s.hitCounts.modify j (· + 1) := by
        apply List.ext_getElem?
        intro m
        unfold hitCounts hitEntry touchPage
        rw [List.getElem?_map, List.getElem?_modify, List.getElem?_modify, List.getElem?_map]
        cases s.entries[m]? with
        | none => rfl
        | some e => by_cases hjm : j = m <;> simp [hjm]
      rw [hcounts]
      by_cases hn : n = i
      · subst hn
        obtain rfl := Option.some.inj (hl.symm.trans hl')
        have hlt := hentries.inRange n l hl j hj
        rw [← hitCounts_length] at hlt
        dsimp only
        rw [hitsOf_modify_of_mem (hentries.nodup n l hl) hj hlt, hold l hl, if_pos (hsame.mpr rfl)]
      · have hnot : j ∉ l' := fun hmem => hn (hentries.apart n i l' l j hl' hl hmem hj)
        dsimp only
        rw [hitsOf_modify_of_not_mem hnot, hold l' hl', if_neg fun heq => hn (hsame.mp heq),
          Nat.add_zero]
  | pushed t entry hhits hpages' hentries' hstore hpushed =>
      have hcounts : (t.pushEntry i entry).hitCounts = s.hitCounts ++ [1] := by
        have hentries'' : (t.pushEntry i entry).entries = s.entries ++ [entry] := by
          rw [← hentries']
          rfl
        unfold hitCounts
        rw [hentries'', List.map_append, List.map_cons, List.map_nil, hhits]
      rw [hpushed.lists, List.getElem?_modify] at hl'
      obtain ⟨l, hl, rfl⟩ := Option.map_eq_some_iff.mp hl'
      have hrange : ∀ j ∈ l, j < s.hitCounts.length := by
        rw [hitCounts_length]
        exact hentries.inRange n l hl
      rw [hcounts]
      dsimp only
      by_cases hn : n = i
      · rw [if_pos hn.symm, ← hitCounts_length, hitsOf_append hrange, hold l hl,
          if_pos (hsame.mpr hn)]
      · rw [if_neg (Ne.symm hn), hitsOf_push hrange, hold l hl,
          if_neg fun heq => hn (hsame.mp heq), Nat.add_zero]

omit [DecidableEq Digest] in
theorem recordRoot_contents (s : CoverageStore Digest) (cpu : NdsCpu) (i : Nat)
    (note : EntryNote) : (s.recordRoot cpu i note).contents = s.contents :=
  touchPage_contents _ i fun _ => ⟨rfl, rfl⟩

/-! ### One operation -/

/-- An observation first captures its page, unless the cache has it. -/
theorem captureForEntry_cases (h : s.PagesLinked sha1) (cpu : NdsCpu) (note : EntryNote)
    (view : PageView) :
    ((s.cache cpu).current note.base view.generation = true ∧
        s.captureForEntry sha1 cpu note view = s) ∨
      CaptureOutcome sha1 s cpu note.base view (s.captureForEntry sha1 cpu note view) := by
  unfold captureForEntry
  split
  · next hcached =>
      rw [Bool.and_eq_true] at hcached
      exact Or.inl ⟨hcached.1, rfl⟩
  · exact Or.inr (captureExecPage_outcome h cpu note.base view)

omit [DecidableEq Digest] in
theorem recordedPage_eq_some {cpu : NdsCpu} {base : UInt32} {i : Nat}
    (h : s.recordedPage cpu base = some i) :
    (s.cache cpu).valid = true ∧ (s.cache cpu).base = base ∧
      (s.cache cpu).storedIndex = some i ∧ i < s.pages.length := by
  unfold recordedPage at h
  split at h
  · next hcache =>
      rw [Bool.and_eq_true, beq_iff_eq] at hcache
      obtain ⟨hstored, hlt⟩ := Option.mem_filter_iff.mp h
      exact ⟨hcache.1, hcache.2, hstored, of_decide_eq_true hlt⟩
  · cases h

/-- The store after an observation: the captured one, with the observation on
the page it belongs to. -/
inductive EntryOutcome (s : CoverageStore Digest) (cpu : NdsCpu) (note : EntryNote) :
    CoverageStore Digest → Prop where
  | unrecorded (h : s.recordedPage cpu note.base = none) : EntryOutcome s cpu note s
  | root (i : Nat) (h : s.recordedPage cpu note.base = some i) (hroot : note.isRoot = true) :
      EntryOutcome s cpu note (s.recordRoot cpu i note)
  | entry (i : Nat) (h : s.recordedPage cpu note.base = some i) (hroot : note.isRoot = false)
      (s' : CoverageStore Digest) (hout : RecordOutcome s i note s') : EntryOutcome s cpu note s'

theorem noteGenerationEntry_outcome {cpu : NdsCpu} {note : EntryNote} {view : PageView}
    (h : (s.captureForEntry sha1 cpu note view).EntriesLinked) :
    EntryOutcome (s.captureForEntry sha1 cpu note view) cpu note
      (s.noteGenerationEntry sha1 cpu note view) := by
  unfold noteGenerationEntry
  dsimp only
  split
  · next hnone => exact .unrecorded hnone
  · next i hi =>
      split
      · next hroot => exact .root i hi hroot
      · next hroot =>
          exact .entry i hi (Bool.not_eq_true _ ▸ hroot) _
            (recordEntry_outcome h (recordedPage_eq_some hi).2.2.2 note)

omit [DecidableEq Digest] in
theorem EntryOutcome.linked {cpu : NdsCpu} {note : EntryNote}
    (hout : EntryOutcome s cpu note s') (hpages : s.PagesLinked sha1) (hentries : s.EntriesLinked)
    (himages : s.ImagesLinked image) :
    s'.PagesLinked sha1 ∧ s'.EntriesLinked ∧ s'.ImagesLinked image := by
  cases hout with
  | unrecorded _ => exact ⟨hpages, hentries, himages⟩
  | root i _ _ =>
      exact ⟨hpages.congr (recordRoot_contents s cpu i note) rfl rfl rfl,
        hentries.congr (recordRoot_lists s cpu i note) rfl rfl rfl, himages.congr rfl rfl⟩
  | entry i _ _ s' hrecord =>
      obtain ⟨hcontents, hindex, haddr, hcaptured, hcache⟩ := hrecord.contents
      exact ⟨hpages.congr hcontents hindex haddr hcaptured, hrecord.entriesLinked hentries,
        himages.congr hcache hindex⟩

end CoverageStore

end NdsRecomp.CoverageManifest
