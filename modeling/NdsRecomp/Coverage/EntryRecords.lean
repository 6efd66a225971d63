import Mathlib
import NdsRecomp.Coverage.PageLinks

/-!
The entry records of the page store. Records are never moved, each belongs to
one page, and the fanout of an entry says how many records it has there.
-/

namespace NdsRecomp.CoverageManifest

open Bus

variable {Digest : Type}

/-- A record without its counter. -/
structure EntryShape where
  pc : UInt32
  caller : UInt32
  thumb : UInt8
  kind : UInt8
deriving DecidableEq

def StoredEntry.shape (e : StoredEntry) : EntryShape := ⟨e.pc, e.caller, e.thumb, e.kind⟩

def PageEntryKey.shape (k : PageEntryKey) : EntryShape := ⟨k.pc, k.caller, k.thumb, k.kind⟩

/-- A record of one entry, from whatever caller. -/
def EntryShape.isOf (shape : EntryShape) (pc : UInt32) (thumb kind : UInt8) : Bool :=
  shape.pc == pc && shape.thumb == thumb && shape.kind == kind

/-- Those of some records that are of one entry. -/
def entryGroup (shapes : List EntryShape) (l : List Nat) (pc : UInt32) (thumb kind : UInt8) :
    List Nat :=
  l.filter fun j => shapes[j]?.any fun shape => shape.isOf pc thumb kind

/-- How many records a fanout stands for. -/
def PageFanout.recordCount (fanout : PageFanout) : Nat :=
  if fanout.kept = 0 then 0 else fanout.kept + fanout.foldedIndex.toList.length

theorem entryGroup_push {shapes : List EntryShape} {l : List Nat}
    (hrange : ∀ j ∈ l, j < shapes.length) (shape : EntryShape) (pc : UInt32) (thumb kind : UInt8) :
    entryGroup (shapes ++ [shape]) l pc thumb kind = entryGroup shapes l pc thumb kind := by
  unfold entryGroup
  refine List.filter_congr fun j hj => ?_
  rw [List.getElem?_append_left (hrange j hj)]

theorem entryGroup_append (shapes : List EntryShape) (l : List Nat) (shape : EntryShape)
    (pc : UInt32) (thumb kind : UInt8) :
    entryGroup (shapes ++ [shape]) (l ++ [shapes.length]) pc thumb kind =
      entryGroup (shapes ++ [shape]) l pc thumb kind ++
        if shape.isOf pc thumb kind then [shapes.length] else [] := by
  unfold entryGroup
  rw [List.filter_append]
  simp [List.filter_cons]

namespace CoverageStore

def lists (s : CoverageStore Digest) : List (List Nat) := s.pages.map StoredPage.entryIndices

def shapes (s : CoverageStore Digest) : List EntryShape := s.entries.map StoredEntry.shape

structure EntriesLinked (s : CoverageStore Digest) : Prop where
  inRange : ∀ (i : Nat) l, s.lists[i]? = some l → ∀ j ∈ l, j < s.shapes.length
  nodup : ∀ (i : Nat) l, s.lists[i]? = some l → l.Nodup
  apart : ∀ (i i' : Nat) l l' j, s.lists[i]? = some l → s.lists[i']? = some l' → j ∈ l → j ∈ l' →
    i = i'
  indexed : ∀ k (j : Nat), s.entryIndex k = some j →
    ∃ l, s.lists[k.pageIndex]? = some l ∧ j ∈ l ∧ s.shapes[j]? = some k.shape
  folded : ∀ k (j : Nat), (s.entryFanout k).kept ≠ 0 → (s.entryFanout k).foldedIndex = some j →
    ∃ l, s.lists[k.pageIndex]? = some l ∧ j ∈ l ∧ s.shapes[j]? = some k.shape
  cap : ∀ k, (s.entryFanout k).kept ≤ kMaxCallersPerEntry
  kept : ∀ (i : Nat) l, s.lists[i]? = some l → ∀ pc thumb kind,
    (entryGroup s.shapes l pc thumb kind).length =
      (s.entryFanout ⟨i, pc, kCallerMany, thumb, kind⟩).recordCount
  fresh : ∀ k, s.lists.length ≤ k.pageIndex → s.entryFanout k = {}

variable {s s' : CoverageStore Digest}

theorem EntriesLinked.congr (h : s.EntriesLinked) (hlists : s'.lists = s.lists)
    (hshapes : s'.shapes = s.shapes) (hindex : s'.entryIndex = s.entryIndex)
    (hfanout : s'.entryFanout = s.entryFanout) : s'.EntriesLinked := by
  obtain ⟨inRange, nodup, apart, indexed, folded, cap, kept, fresh⟩ := h
  constructor <;> simp only [hlists, hshapes, hindex, hfanout] <;> assumption

theorem entriesLinked_empty (hpages : s.pages = []) (hindex : s.entryIndex = fun _ => none)
    (hfanout : s.entryFanout = fun _ => {}) : s.EntriesLinked := by
  have hlists : s.lists = [] := by
    unfold lists
    rw [hpages, List.map_nil]
  constructor <;> simp [hlists, hindex, hfanout]

theorem lists_getElem? (s : CoverageStore Digest) (i : Nat) :
    s.lists[i]? = s.pages[i]?.map StoredPage.entryIndices := List.getElem?_map

theorem shapes_length (s : CoverageStore Digest) : s.shapes.length = s.entries.length :=
  List.length_map _

theorem touchPage_lists (s : CoverageStore Digest) (i : Nat)
    {f : StoredPage Digest → StoredPage Digest} {g : List Nat → List Nat}
    (hf : ∀ page, (f page).entryIndices = g page.entryIndices) :
    (s.touchPage i f).lists = s.lists.modify i g := by
  apply List.ext_getElem?
  intro j
  rw [lists_getElem?, List.getElem?_modify, lists_getElem?]
  unfold touchPage
  rw [List.getElem?_modify]
  cases s.pages[j]? with
  | none => rfl
  | some page =>
      by_cases hij : i = j
      · simp only [hij, if_true, Option.map_some, Option.map_eq_map]
        exact congrArg some (hf page)
      · simp [hij]

theorem touchPage_lists_same (s : CoverageStore Digest) (i : Nat)
    {f : StoredPage Digest → StoredPage Digest}
    (hf : ∀ page, (f page).entryIndices = page.entryIndices) :
    (s.touchPage i f).lists = s.lists := by
  rw [touchPage_lists s i (g := id) hf, List.modify_id]

/-! ### Records -/

theorem hitEntry_shapes (s : CoverageStore Digest) (i j : Nat) :
    (s.hitEntry i j).shapes = s.shapes := by
  apply List.ext_getElem?
  intro n
  unfold shapes hitEntry touchPage
  rw [List.getElem?_map, List.getElem?_map, List.getElem?_modify]
  cases s.entries[n]? with
  | none => rfl
  | some e => by_cases hn : j = n <;> simp [hn, StoredEntry.shape]

theorem hitEntry_lists (s : CoverageStore Digest) (i j : Nat) :
    (s.hitEntry i j).lists = s.lists := touchPage_lists_same _ i fun _ => rfl

theorem EntriesLinked.hitEntry (h : s.EntriesLinked) (i j : Nat) :
    (s.hitEntry i j).EntriesLinked :=
  h.congr (hitEntry_lists s i j) (hitEntry_shapes s i j) rfl rfl

theorem pushEntry_lists (s : CoverageStore Digest) (i : Nat) (e : StoredEntry) :
    (s.pushEntry i e).lists = s.lists.modify i fun l => l ++ [s.shapes.length] := by
  rw [shapes_length]
  exact touchPage_lists _ i fun _ => rfl

theorem pushEntry_shapes (s : CoverageStore Digest) (i : Nat) (e : StoredEntry) :
    (s.pushEntry i e).shapes = s.shapes ++ [e.shape] := List.map_append

/-- A record that is pushed for a page, with the two maps brought up to date:
what `index` and `fanout` are afterwards. -/
structure RecordPushed (s s' : CoverageStore Digest) (i : Nat) (k : PageEntryKey)
    (shape : EntryShape) : Prop where
  lists : s'.lists = s.lists.modify i fun l => l ++ [s.shapes.length]
  shapes : s'.shapes = s.shapes ++ [shape]
  page : i < s.lists.length
  key : k.pageIndex = i ∧ k.caller = kCallerMany
  group : shape.pc = k.pc ∧ shape.thumb = k.thumb ∧ shape.kind = k.kind
  index : ∀ k' j, s'.entryIndex k' = some j →
    s.entryIndex k' = some j ∨ (j = s.shapes.length ∧ k'.pageIndex = i ∧ k'.shape = shape)
  others : ∀ k', k' ≠ k → s'.entryFanout k' = s.entryFanout k'
  counted : (s'.entryFanout k).recordCount = (s.entryFanout k).recordCount + 1
  cap : (s'.entryFanout k).kept ≤ kMaxCallersPerEntry
  folded : ∀ j, (s'.entryFanout k).kept ≠ 0 → (s'.entryFanout k).foldedIndex = some j →
    ((s.entryFanout k).kept ≠ 0 ∧ (s.entryFanout k).foldedIndex = some j) ∨
      (j = s.shapes.length ∧ k.shape = shape)

theorem RecordPushed.entriesLinked {i : Nat} {k : PageEntryKey} {shape : EntryShape}
    (hp : RecordPushed s s' i k shape) (h : s.EntriesLinked) : s'.EntriesLinked := by
  -- the list of a page, before and after
  have hat (n : Nat) (l : List Nat) (hl : s'.lists[n]? = some l) :
      ∃ l₀, s.lists[n]? = some l₀ ∧ l = if i = n then l₀ ++ [s.shapes.length] else l₀ := by
    rw [hp.lists, List.getElem?_modify] at hl
    obtain ⟨l₀, hl₀, heq⟩ := Option.map_eq_some_iff.mp hl
    exact ⟨l₀, hl₀, heq.symm⟩
  have hto (n : Nat) (l₀ : List Nat) (hl₀ : s.lists[n]? = some l₀) :
      ∃ l, s'.lists[n]? = some l ∧ ∀ j ∈ l₀, j ∈ l := by
    refine ⟨if i = n then l₀ ++ [s.shapes.length] else l₀, ?_, fun j hj => ?_⟩
    · rw [hp.lists, List.getElem?_modify, hl₀]
      rfl
    · split
      · exact List.mem_append_left _ hj
      · exact hj
  have hlength : s'.shapes.length = s.shapes.length + 1 := by
    rw [hp.shapes, List.length_append, List.length_singleton]
  have hshape (j : Nat) (x : EntryShape) (hx : s.shapes[j]? = some x) :
      s'.shapes[j]? = some x := by
    rw [hp.shapes, List.getElem?_append_left (List.getElem?_eq_some_iff.mp hx).1]
    exact hx
  have hlast : s'.shapes[s.shapes.length]? = some shape := by
    rw [hp.shapes]
    simp
  have hown : ∃ l, s'.lists[i]? = some l ∧ s.shapes.length ∈ l := by
    have hl : s.lists[i]? = some (s.lists.get ⟨i, hp.page⟩) := List.getElem?_eq_getElem hp.page
    refine ⟨s.lists.get ⟨i, hp.page⟩ ++ [s.shapes.length], ?_, by simp⟩
    rw [hp.lists, List.getElem?_modify, hl]
    simp
  have hmem (n : Nat) (l : List Nat) (j : Nat) (hl : s'.lists[n]? = some l) (hj : j ∈ l) :
      (∃ l₀, s.lists[n]? = some l₀ ∧ j ∈ l₀) ∨ (n = i ∧ j = s.shapes.length) := by
    obtain ⟨l₀, hl₀, rfl⟩ := hat n l hl
    split at hj
    · next hin =>
        rcases List.mem_append.mp hj with hj | hj
        · exact Or.inl ⟨l₀, hl₀, hj⟩
        · exact Or.inr ⟨hin.symm, List.mem_singleton.mp hj⟩
    · exact Or.inl ⟨l₀, hl₀, hj⟩
  constructor
  · intro n l hl j hj
    rcases hmem n l j hl hj with ⟨l₀, hl₀, hj⟩ | ⟨-, rfl⟩
    · have := h.inRange n l₀ hl₀ j hj
      omega
    · omega
  · intro n l hl
    obtain ⟨l₀, hl₀, rfl⟩ := hat n l hl
    split
    · rw [List.nodup_append]
      refine ⟨h.nodup n l₀ hl₀, List.nodup_singleton _, fun a ha b hb hab => ?_⟩
      have hlt := h.inRange n l₀ hl₀ a ha
      rw [List.mem_singleton] at hb
      omega
    · exact h.nodup n l₀ hl₀
  · intro n n' l l' j hl hl' hj hj'
    rcases hmem n l j hl hj with ⟨l₀, hl₀, hj₀⟩ | ⟨hn, hj₀⟩
    · rcases hmem n' l' j hl' hj' with ⟨l₁, hl₁, hj₁⟩ | ⟨hn', hj₁⟩
      · exact h.apart n n' l₀ l₁ j hl₀ hl₁ hj₀ hj₁
      · have := h.inRange n l₀ hl₀ j hj₀
        omega
    · rcases hmem n' l' j hl' hj' with ⟨l₁, hl₁, hj₁⟩ | ⟨hn', hj₁⟩
      · have := h.inRange n' l₁ hl₁ j hj₁
        omega
      · rw [hn, hn']
  · intro k' j hk'
    rcases hp.index k' j hk' with hold | ⟨rfl, hpage, hnew⟩
    · obtain ⟨l₀, hl₀, hj, hx⟩ := h.indexed k' j hold
      obtain ⟨l, hl, hsub⟩ := hto _ l₀ hl₀
      exact ⟨l, hl, hsub j hj, hshape j _ hx⟩
    · obtain ⟨l, hl, hj⟩ := hown
      exact ⟨l, by rw [hpage]; exact hl, hj, by rw [hnew]; exact hlast⟩
  · intro k' j hkept hfolded
    have hcase : ((s.entryFanout k').kept ≠ 0 ∧ (s.entryFanout k').foldedIndex = some j) ∨
        (k' = k ∧ j = s.shapes.length ∧ k.shape = shape) := by
      by_cases hk : k' = k
      · subst hk
        rcases hp.folded j hkept hfolded with hold | hnew
        · exact Or.inl hold
        · exact Or.inr ⟨rfl, hnew⟩
      · rw [hp.others k' hk] at hkept hfolded
        exact Or.inl ⟨hkept, hfolded⟩
    rcases hcase with ⟨hkept, hfolded⟩ | ⟨rfl, rfl, hnew⟩
    · obtain ⟨l₀, hl₀, hj, hx⟩ := h.folded k' j hkept hfolded
      obtain ⟨l, hl, hsub⟩ := hto _ l₀ hl₀
      exact ⟨l, hl, hsub j hj, hshape j _ hx⟩
    · obtain ⟨l, hl, hj⟩ := hown
      exact ⟨l, by rw [hp.key.1]; exact hl, hj, by rw [hnew]; exact hlast⟩
  · intro k'
    by_cases hk : k' = k
    · rw [hk]
      exact hp.cap
    · rw [hp.others k' hk]
      exact h.cap k'
  · intro n l hl pc thumb kind
    obtain ⟨l₀, hl₀, rfl⟩ := hat n l hl
    have hsame := h.kept n l₀ hl₀ pc thumb kind
    have hrange := h.inRange n l₀ hl₀
    rw [hp.shapes]
    by_cases hin : i = n
    · rw [if_pos hin, entryGroup_append, entryGroup_push hrange, List.length_append, hsame]
      by_cases hof : shape.isOf pc thumb kind = true
      · have hk : (⟨n, pc, kCallerMany, thumb, kind⟩ : PageEntryKey) = k := by
          simp only [EntryShape.isOf, Bool.and_eq_true, beq_iff_eq] at hof
          cases k with
          | mk page kpc caller kthumb kkind =>
              have hkey := hp.key
              have hgroup := hp.group
              dsimp only at hkey hgroup
              rw [← hof.1.1, ← hof.1.2, ← hof.2, hgroup.1, hgroup.2.1, hgroup.2.2, hkey.1, hkey.2,
                hin]
        rw [hk, hp.counted, if_pos hof, List.length_singleton]
      · have hk : (⟨n, pc, kCallerMany, thumb, kind⟩ : PageEntryKey) ≠ k := by
          rintro rfl
          apply hof
          simp only [EntryShape.isOf, Bool.and_eq_true, beq_iff_eq]
          exact ⟨⟨hp.group.1, hp.group.2.1⟩, hp.group.2.2⟩
        rw [hp.others _ hk, if_neg hof, List.length_nil, Nat.add_zero]
    · have hk : (⟨n, pc, kCallerMany, thumb, kind⟩ : PageEntryKey) ≠ k := by
        rintro rfl
        exact hin hp.key.1.symm
      rw [if_neg hin, entryGroup_push hrange, hp.others _ hk]
      exact hsame
  · intro k' hbeyond
    rw [hp.lists, List.length_modify] at hbeyond
    have hk : k' ≠ k := by
      rintro rfl
      have := hp.page
      rw [hp.key.1] at hbeyond
      omega
    rw [hp.others k' hk]
    exact h.fresh k' hbeyond

/-- Where an observation goes: to a record its caller has, to the folded
record, or to a new one of either kind. -/
inductive RecordOutcome (s : CoverageStore Digest) (i : Nat) (note : EntryNote) :
    CoverageStore Digest → Prop where
  | hit (j : Nat) (l : List Nat) (hl : s.lists[i]? = some l) (hj : j ∈ l) :
      RecordOutcome s i note (s.hitEntry i j)
  | pushed (t : CoverageStore Digest) (entry : StoredEntry) (hhits : entry.hits = 1)
      (hpages : t.pages = s.pages) (hentries : t.entries = s.entries)
      (hstore : t.pageIndex = s.pageIndex ∧ t.pagesByAddr = s.pagesByAddr ∧
        t.captured = s.captured ∧ t.cache = s.cache)
      (hpushed : RecordPushed s (t.pushEntry i entry) i (note.fanoutKey i) entry.shape) :
      RecordOutcome s i note (t.pushEntry i entry)

theorem recordEntry_outcome (h : s.EntriesLinked) {i : Nat} (hi : i < s.pages.length)
    (note : EntryNote) : RecordOutcome s i note (s.recordEntry i note) := by
  have hpage : i < s.lists.length := by
    rw [lists, List.length_map]
    exact hi
  unfold recordEntry
  split
  · next j hj =>
      obtain ⟨l, hl, hmem, -⟩ := h.indexed _ _ hj
      exact .hit j l hl hmem
  next hnone =>
  dsimp only
  split
  · next hkept =>
      have hne : (s.entryFanout (note.fanoutKey i)).kept ≠ 0 := by
        intro hzero
        rw [hzero] at hkept
        exact absurd hkept (by decide)
      split
      · next j hj =>
          obtain ⟨l, hl, hmem, -⟩ := h.folded _ j hne (Option.mem_filter_iff.mp hj).1
          exact .hit j l hl hmem
      · next hfilter =>
          -- a folded record would still be there
          have hfolded : (s.entryFanout (note.fanoutKey i)).foldedIndex = none := by
            cases hindex : (s.entryFanout (note.fanoutKey i)).foldedIndex with
            | none => rfl
            | some j =>
                obtain ⟨l, hl, hmem, -⟩ := h.folded _ j hne hindex
                have hlt := h.inRange i l hl j hmem
                rw [shapes_length] at hlt
                rw [hindex, Option.filter_some, if_pos (decide_eq_true hlt)] at hfilter
                cases hfilter
          refine .pushed _ _ rfl rfl rfl ⟨rfl, rfl, rfl, rfl⟩ ⟨pushEntry_lists _ i _,
            pushEntry_shapes _ i _, hpage, ⟨rfl, rfl⟩, ⟨rfl, rfl, rfl⟩, fun k' j hj => Or.inl hj,
            fun k' hk' => Function.update_of_ne hk' _ _, ?_, ?_, fun j _ hj => ?_⟩
          · change (Function.update s.entryFanout (note.fanoutKey i) _ (note.fanoutKey i)).recordCount
              = _
            rw [Function.update_self]
            unfold PageFanout.recordCount
            rw [hfolded, if_neg hne, if_neg hne]
            rfl
          · change (Function.update s.entryFanout (note.fanoutKey i) _ (note.fanoutKey i)).kept ≤ _
            rw [Function.update_self]
            exact h.cap _
          · change (Function.update s.entryFanout (note.fanoutKey i) _
              (note.fanoutKey i)).foldedIndex = _ at hj
            rw [Function.update_self] at hj
            rw [shapes_length]
            exact Or.inr ⟨(Option.some.inj hj).symm, rfl⟩
  · next hkept =>
      refine .pushed _ _ rfl rfl rfl ⟨rfl, rfl, rfl, rfl⟩ ⟨pushEntry_lists _ i _,
        pushEntry_shapes _ i _, hpage, ⟨rfl, rfl⟩, ⟨rfl, rfl, rfl⟩, fun k' j hj => ?_,
        fun k' hk' => Function.update_of_ne hk' _ _, ?_, ?_, fun j _ hj => ?_⟩
      · change Function.update s.entryIndex (note.entryKey i) _ k' = some j at hj
        by_cases hk : k' = note.entryKey i
        · subst hk
          rw [Function.update_self] at hj
          rw [shapes_length]
          exact Or.inr ⟨(Option.some.inj hj).symm, rfl, rfl⟩
        · rw [Function.update_of_ne hk] at hj
          exact Or.inl hj
      · change (Function.update s.entryFanout (note.fanoutKey i) _ (note.fanoutKey i)).recordCount = _
        rw [Function.update_self]
        unfold PageFanout.recordCount
        by_cases hzero : (s.entryFanout (note.fanoutKey i)).kept = 0
        · simp [hzero]
        · have hone : (s.entryFanout (note.fanoutKey i)).kept + 1 ≠ 1 := by omega
          rw [if_neg hzero, if_neg (Nat.succ_ne_zero _), if_neg hone]
          dsimp only
          omega
      · change (Function.update s.entryFanout (note.fanoutKey i) _ (note.fanoutKey i)).kept ≤ _
        rw [Function.update_self]
        exact Nat.lt_of_not_le hkept
      · change (Function.update s.entryFanout (note.fanoutKey i) _ (note.fanoutKey i)).foldedIndex
          = _ at hj
        rw [Function.update_self] at hj
        dsimp only at hj
        split at hj
        · cases hj
        · next hpos => exact Or.inl ⟨fun hzero => hpos (by rw [hzero]), hj⟩

theorem RecordOutcome.entriesLinked {i : Nat} {note : EntryNote}
    (hout : RecordOutcome s i note s') (h : s.EntriesLinked) : s'.EntriesLinked := by
  cases hout with
  | hit j l _ _ => exact h.hitEntry i j
  | pushed t entry _ _ _ _ hpushed => exact hpushed.entriesLinked h

/-- Recording changes what is on the pages, not which pages there are. -/
theorem RecordOutcome.contents {i : Nat} {note : EntryNote} (hout : RecordOutcome s i note s') :
    s'.contents = s.contents ∧ s'.pageIndex = s.pageIndex ∧ s'.pagesByAddr = s.pagesByAddr ∧
      s'.captured = s.captured ∧ s'.cache = s.cache := by
  cases hout with
  | hit j l _ _ =>
      exact ⟨touchPage_contents _ i fun _ => ⟨rfl, rfl⟩, rfl, rfl, rfl, rfl⟩
  | pushed t entry _ hpages _ hstore _ =>
      obtain ⟨hindex, haddr, hcaptured, hcache⟩ := hstore
      refine ⟨?_, hindex, haddr, hcaptured, hcache⟩
      have htouch : (t.pushEntry i entry).contents =
          ({ t with entries := t.entries ++ [entry] } : CoverageStore Digest).contents :=
        touchPage_contents _ i fun _ => ⟨rfl, rfl⟩
      rw [htouch]
      unfold CoverageStore.contents
      rw [hpages]

/-! ### Pages -/

theorem EntriesLinked.setCache (h : s.EntriesLinked) (cpu : NdsCpu) (cache : CoverageExecCache) :
    (s.setCache cpu cache).EntriesLinked := h.congr rfl rfl rfl rfl

theorem EntriesLinked.resolveTo (h : s.EntriesLinked) (cpu : NdsCpu) (i : Nat) :
    (s.resolveTo cpu i).EntriesLinked :=
  h.congr (touchPage_lists_same s i fun _ => rfl) rfl rfl rfl

theorem recordRoot_lists (s : CoverageStore Digest) (cpu : NdsCpu) (i : Nat) (note : EntryNote) :
    (s.recordRoot cpu i note).lists = s.lists := touchPage_lists_same _ i fun _ => rfl

variable [DecidableEq Digest]

theorem pushPage_lists (s : CoverageStore Digest) (key : PageKey Digest) (bytes : List UInt8) :
    (s.pushPage key bytes).lists = s.lists ++ [[]] := List.map_append

theorem EntriesLinked.pushPage (h : s.EntriesLinked) (key : PageKey Digest) (bytes : List UInt8) :
    (s.pushPage key bytes).EntriesLinked := by
  have hlists := pushPage_lists s key bytes
  have hat (n : Nat) (l : List Nat) (hl : (s.pushPage key bytes).lists[n]? = some l) :
      s.lists[n]? = some l ∨ (n = s.lists.length ∧ l = []) := by
    rw [hlists, List.getElem?_append] at hl
    split at hl
    · exact Or.inl hl
    · obtain ⟨hlt, hnil⟩ := List.getElem?_eq_some_iff.mp hl
      rw [List.length_singleton] at hlt
      refine Or.inr ⟨by omega, ?_⟩
      rw [← hnil]
      exact List.getElem_singleton _
  have hto (n : Nat) (l : List Nat) (hl : s.lists[n]? = some l) :
      (s.pushPage key bytes).lists[n]? = some l := by
    rw [hlists, List.getElem?_append_left (List.getElem?_eq_some_iff.mp hl).1]
    exact hl
  constructor
  · intro n l hl j hj
    rcases hat n l hl with hl | ⟨-, rfl⟩
    · exact h.inRange n l hl j hj
    · cases hj
  · intro n l hl
    rcases hat n l hl with hl | ⟨-, rfl⟩
    · exact h.nodup n l hl
    · exact List.nodup_nil
  · intro n n' l l' j hl hl' hj hj'
    rcases hat n l hl with hl | ⟨-, rfl⟩
    · rcases hat n' l' hl' with hl' | ⟨-, rfl⟩
      · exact h.apart n n' l l' j hl hl' hj hj'
      · cases hj'
    · cases hj
  · intro k j hk
    obtain ⟨l, hl, hj, hx⟩ := h.indexed k j hk
    exact ⟨l, hto _ l hl, hj, hx⟩
  · intro k j hkept hfolded
    obtain ⟨l, hl, hj, hx⟩ := h.folded k j hkept hfolded
    exact ⟨l, hto _ l hl, hj, hx⟩
  · exact h.cap
  · intro n l hl pc thumb kind
    rcases hat n l hl with hl | ⟨rfl, rfl⟩
    · exact h.kept n l hl pc thumb kind
    · have hfresh := h.fresh ⟨s.lists.length, pc, kCallerMany, thumb, kind⟩ (Nat.le_refl _)
      have hfanout : (s.pushPage key bytes).entryFanout
          ⟨s.lists.length, pc, kCallerMany, thumb, kind⟩ = {} := hfresh
      rw [hfanout]
      rfl
  · intro k hbeyond
    rw [hlists, List.length_append, List.length_singleton] at hbeyond
    exact h.fresh k (by omega)

theorem replacePage_lists (s : CoverageStore Digest) (i : Nat) (key : PageKey Digest)
    (bytes : List UInt8) : (s.replacePage i key bytes).lists = s.lists.set i [] := List.map_set

theorem EntriesLinked.replacePage (h : s.EntriesLinked) (i : Nat) (key : PageKey Digest)
    (bytes : List UInt8) : (s.replacePage i key bytes).EntriesLinked := by
  have hlists := replacePage_lists s i key bytes
  have hindex (k : PageEntryKey) : (s.replacePage i key bytes).entryIndex k =
      if k.pageIndex = i then none else s.entryIndex k := rfl
  have hfanout (k : PageEntryKey) : (s.replacePage i key bytes).entryFanout k =
      if k.pageIndex = i then {} else s.entryFanout k := rfl
  have hat (n : Nat) (l : List Nat) (hl : (s.replacePage i key bytes).lists[n]? = some l) :
      (i ≠ n ∧ s.lists[n]? = some l) ∨ (i = n ∧ l = []) := by
    rw [hlists, List.getElem?_set] at hl
    split at hl
    · next hin =>
        split at hl
        · exact Or.inr ⟨hin, (Option.some.inj hl).symm⟩
        · cases hl
    · next hin => exact Or.inl ⟨hin, hl⟩
  have hto (n : Nat) (l : List Nat) (hn : n ≠ i) (hl : s.lists[n]? = some l) :
      (s.replacePage i key bytes).lists[n]? = some l := by
    rw [hlists, List.getElem?_set_ne hn.symm]
    exact hl
  constructor
  · intro n l hl j hj
    rcases hat n l hl with ⟨-, hl⟩ | ⟨-, rfl⟩
    · exact h.inRange n l hl j hj
    · cases hj
  · intro n l hl
    rcases hat n l hl with ⟨-, hl⟩ | ⟨-, rfl⟩
    · exact h.nodup n l hl
    · exact List.nodup_nil
  · intro n n' l l' j hl hl' hj hj'
    rcases hat n l hl with ⟨-, hl⟩ | ⟨-, rfl⟩
    · rcases hat n' l' hl' with ⟨-, hl'⟩ | ⟨-, rfl⟩
      · exact h.apart n n' l l' j hl hl' hj hj'
      · cases hj'
    · cases hj
  · intro k j hk
    rw [hindex] at hk
    split at hk
    · cases hk
    · next hpage =>
        obtain ⟨l, hl, hj, hx⟩ := h.indexed k j hk
        exact ⟨l, hto _ l hpage hl, hj, hx⟩
  · intro k j hkept hfolded
    rw [hfanout] at hkept hfolded
    split at hkept
    · exact absurd rfl hkept
    · next hpage =>
        rw [if_neg hpage] at hfolded
        obtain ⟨l, hl, hj, hx⟩ := h.folded k j hkept hfolded
        exact ⟨l, hto _ l hpage hl, hj, hx⟩
  · intro k
    rw [hfanout]
    split
    · exact Nat.zero_le _
    · exact h.cap k
  · intro n l hl pc thumb kind
    rw [hfanout]
    rcases hat n l hl with ⟨hin, hl⟩ | ⟨hin, rfl⟩
    · rw [if_neg fun hni : n = i => hin hni.symm]
      exact h.kept n l hl pc thumb kind
    · rw [if_pos hin.symm]
      rfl
  · intro k hbeyond
    rw [hlists, List.length_set] at hbeyond
    rw [hfanout]
    split
    · rfl
    · exact h.fresh k hbeyond

/-- Every outcome of a capture keeps the records in order. -/
theorem CaptureOutcome.entriesLinked {sha1 : List UInt8 → Digest} {cpu : NdsCpu} {base : UInt32}
    {view : PageView} (hout : CaptureOutcome sha1 s cpu base view s') (h : s.EntriesLinked) :
    s'.EntriesLinked := by
  have hopened : (s.opened cpu base view).EntriesLinked := h.setCache cpu _
  cases hout with
  | current _ => exact h.congr rfl rfl rfl rfl
  | unwritable _ _ => exact hopened
  | resolved i _ _ _ => exact hopened.resolveTo cpu i
  | dropped _ _ _ _ _ => exact h.congr rfl rfl rfl rfl
  | replaced i _ _ _ _ _ => exact hopened.replacePage i _ _
  | pushed _ _ _ _ _ => exact hopened.pushPage _ _
  | rotated _ =>
      have hempty : (s.opened cpu base view).startPart.EntriesLinked :=
        entriesLinked_empty rfl rfl rfl
      exact hempty.pushPage _ _

end CoverageStore

end NdsRecomp.CoverageManifest
