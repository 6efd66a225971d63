import NdsRecomp.Coverage.ManifestMerge
import NdsRecomp.Library.SumOrMax

/-!
What a manifest contributes, as values that are added to the merged state. All
of it may be added in any order, but for the counts that session roots only
raise and for the bytes that the first page of a version brings.
-/

namespace NdsRecomp.CoverageManifest

open Bus Library

/-! ### Adding dictionaries -/

@[ext] theorem CountDict.ext {κ : Type} {d e : CountDict κ} (hkeys : d.keys = e.keys)
    (hcount : ∀ k, d.count k = e.count k) : d = e := by
  cases d
  cases e
  cases hkeys
  cases funext hcount
  rfl

@[ext] theorem Slot.ext {s t : Slot} (hhits : s.hits = t.hits) (hkinds : s.kinds = t.kinds) :
    s = t := by
  cases s
  cases t
  cases hhits
  cases hkinds
  rfl

section Dictionaries

variable {κ : Type} [DecidableEq κ]

instance : Zero (CountDict κ) := ⟨.empty⟩

instance : Add (CountDict κ) := ⟨fun d e => ⟨d.keys ∪ e.keys, fun k => d.count k + e.count k⟩⟩

theorem CountDict.add_keys (d e : CountDict κ) : (d + e).keys = d.keys ∪ e.keys := rfl

theorem CountDict.add_count (d e : CountDict κ) (k : κ) :
    (d + e).count k = d.count k + e.count k := rfl

instance : AddCommMonoid (CountDict κ) where
  add_assoc d e f := CountDict.ext (Finset.union_assoc _ _ _) fun _ => Nat.add_assoc _ _ _
  zero_add d := CountDict.ext (Finset.empty_union _) fun _ => Nat.zero_add _
  add_zero d := CountDict.ext (Finset.union_empty _) fun _ => Nat.add_zero _
  add_comm d e := CountDict.ext (Finset.union_comm _ _) fun _ => Nat.add_comm _ _
  nsmul := nsmulRec

instance : Zero Slot := ⟨⟨0, ∅⟩⟩

instance : Add Slot := ⟨fun s t => ⟨s.hits + t.hits, s.kinds ∪ t.kinds⟩⟩

theorem Slot.add_eq (s t : Slot) : s + t = ⟨s.hits + t.hits, s.kinds ∪ t.kinds⟩ := rfl

instance : AddCommMonoid Slot where
  add_assoc _ _ _ := Slot.ext (Nat.add_assoc _ _ _) (Finset.union_assoc _ _ _)
  zero_add _ := Slot.ext (Nat.zero_add _) (Finset.empty_union _)
  add_zero _ := Slot.ext (Nat.add_zero _) (Finset.union_empty _)
  add_comm _ _ := Slot.ext (Nat.add_comm _ _) (Finset.union_comm _ _)
  nsmul := nsmulRec

/-- Counts raised to at least those of `e`. -/
def CountDict.raise (d e : CountDict κ) : CountDict κ :=
  ⟨d.keys ∪ e.keys, fun k => max (d.count k) (e.count k)⟩

theorem CountDict.raise_assoc (d e f : CountDict κ) :
    (d.raise e).raise f = d.raise (e.raise f) :=
  CountDict.ext (Finset.union_assoc _ _ _) fun _ => Nat.max_assoc _ _ _

theorem CountDict.raise_zero (d : CountDict κ) : d.raise 0 = d :=
  CountDict.ext (Finset.union_empty _) fun _ => Nat.max_zero _

theorem CountDict.zero_raise (d : CountDict κ) : (0 : CountDict κ).raise d = d :=
  CountDict.ext (Finset.empty_union _) fun _ => Nat.zero_max _

/-- One count at one key. -/
def CountDict.one (k : κ) (hits : Nat) : CountDict κ := ⟨{k}, Function.update (fun _ => 0) k hits⟩

theorem CountDict.one_count (k k' : κ) (hits : Nat) :
    (one k hits).count k' = if k' = k then hits else 0 := by
  exact Function.update_apply (fun _ => 0) k hits k'

theorem CountDict.addCount_eq (d : CountDict κ) (k : κ) (hits : Nat) :
    d.addCount k hits = d + .one k hits := by
  refine CountDict.ext ?_ fun k' => ?_
  · rw [add_keys, Finset.union_comm]
    rfl
  · rw [add_count, one_count]
    refine (Function.update_apply ..).trans ?_
    by_cases h : k' = k
    · rw [if_pos h, if_pos h, h]
    · rw [if_neg h, if_neg h, Nat.add_zero]

theorem CountDict.maxCount_eq (d : CountDict κ) (k : κ) (hits : Nat) :
    d.maxCount k hits = d.raise (.one k hits) := by
  refine CountDict.ext ?_ fun k' => ?_
  · rw [raise, Finset.union_comm]
    rfl
  · dsimp only [raise]
    rw [one_count]
    refine (Function.update_apply ..).trans ?_
    by_cases h : k' = k
    · rw [if_pos h, if_pos h, h]
    · rw [if_neg h, if_neg h, Nat.max_zero]

/-- One hit at one key, of one kind. -/
def slotOne (k : κ) (hits : Nat) (kind : SeedKind) : SlotDict κ :=
  Function.update 0 k ⟨hits, {kind}⟩

theorem SlotDict.addSlot_eq (d : SlotDict κ) (k : κ) (hits : Nat) (kind : SeedKind) :
    d.addSlot k hits kind = d + slotOne k hits kind := by
  funext k'
  rw [Pi.add_apply]
  by_cases h : k' = k
  · rw [h, addSlot, slotOne, Function.update_self, Function.update_self, Slot.add_eq,
      Finset.union_comm]
    rfl
  · rw [addSlot, slotOne, Function.update_of_ne h, Function.update_of_ne h]
    exact (add_zero _).symm

end Dictionaries

/-- A loop that adds. -/
theorem foldl_add {M α : Type} [AddCommMonoid M] {step : M → α → M} {g : α → M}
    (hstep : ∀ d x, step d x = d + g x) (l : List α) (d : M) :
    l.foldl step d = d + (l.map g).sum := by
  induction l generalizing d with
  | nil => exact (add_zero d).symm
  | cons x l ih => rw [List.foldl_cons, ih, hstep, List.map_cons, List.sum_cons, add_assoc]

/-! ### What a manifest adds -/

def rootOf {κ : Type} [DecidableEq κ] (k : κ) (entry : EntryRecord) : CountDict κ :=
  if entry.kind = .root then .one k entry.hits else 0

def slotOf {κ : Type} [DecidableEq κ] (k : κ) (entry : EntryRecord) : SlotDict κ :=
  match entry.kind.promotable with
  | none => 0
  | some kind => slotOne k entry.hits kind

def callerOf (cpu : NdsCpu) (entry : EntryRecord) : CountDict CpuRootKey :=
  match entry.kind.promotable with
  | none => 0
  | some _ => noteCaller 0 cpu entry

theorem noteCaller_eq (callers : CountDict CpuRootKey) (cpu : NdsCpu) (entry : EntryRecord) :
    noteCaller callers cpu entry = callers + noteCaller 0 cpu entry := by
  unfold noteCaller
  split
  · exact (add_zero _).symm
  · split
    · exact (add_zero _).symm
    · split
      · exact (add_zero _).symm
      · rw [CountDict.addCount_eq, CountDict.addCount_eq, zero_add]

theorem RecordKind.promotable_root : RecordKind.root.promotable = none := rfl

def bitmapRoots (roots : RootRecord) (base : Nat) : CountDict RootKey :=
  ((rootAddresses roots base).map fun root => CountDict.one root.1 root.2).sum

def rootMapAdds (record : RootMapRecord) : CountDict CpuRootKey :=
  ((rootAddresses record.roots record.addr).map fun root =>
    CountDict.one (record.cpu, root.1) root.2).sum

theorem addRootRecord_eq (roots : CountDict CpuRootKey) (record : RootMapRecord) :
    addRootRecord roots record = roots + rootMapAdds record :=
  foldl_add (fun _ _ => CountDict.addCount_eq _ _ _) _ _

variable {Digest : Type}

def PageRecord.version (page : PageRecord Digest) : PageVersion where
  bytes := page.data
  entries := (page.entryPoints.map fun entry => slotOf (entry.addr, entry.mode) entry).sum
  roots := bitmapRoots page.roots page.addr +
    (page.entryPoints.map fun entry => rootOf (entry.addr, entry.mode) entry).sum
  executions := page.executions

def PageRecord.rootAdds (page : PageRecord Digest) : CountDict CpuRootKey :=
  (page.entryPoints.map fun entry => rootOf (page.cpu, entry.addr, entry.mode) entry).sum

def PageRecord.callerAdds (page : PageRecord Digest) : CountDict CpuRootKey :=
  (page.entryPoints.map (callerOf page.cpu)).sum

/-- Two observations of one version; the bytes are the first one's. -/
def PageVersion.join (v w : PageVersion) : PageVersion where
  bytes := v.bytes
  entries := v.entries + w.entries
  roots := v.roots + w.roots
  executions := v.executions + w.executions

theorem foldl_addPageEntry (cpu : NdsCpu) (entries : List EntryRecord) (slot : PageVersion)
    (roots callers : CountDict CpuRootKey) :
    entries.foldl (addPageEntry cpu) (slot, roots, callers) =
      ({ slot with
          entries := slot.entries +
            (entries.map fun entry => slotOf (entry.addr, entry.mode) entry).sum
          roots := slot.roots +
            (entries.map fun entry => rootOf (entry.addr, entry.mode) entry).sum },
        roots + (entries.map fun entry => rootOf (cpu, entry.addr, entry.mode) entry).sum,
        callers + (entries.map (callerOf cpu)).sum) := by
  induction entries generalizing slot roots callers with
  | nil => simp only [List.foldl_nil, List.map_nil, List.sum_nil, add_zero]
  | cons entry entries ih =>
      have hstep : addPageEntry cpu (slot, roots, callers) entry =
          ({ slot with
              entries := slot.entries + slotOf (entry.addr, entry.mode) entry
              roots := slot.roots + rootOf (entry.addr, entry.mode) entry },
            roots + rootOf (cpu, entry.addr, entry.mode) entry, callers + callerOf cpu entry) := by
        unfold addPageEntry slotOf rootOf callerOf
        by_cases hroot : entry.kind = .root
        · simp only [hroot, if_true, RecordKind.promotable_root, CountDict.addCount_eq, add_zero]
        · simp only [hroot, if_false, add_zero]
          cases hkind : entry.kind.promotable with
          | none => simp only [add_zero]
          | some kind =>
              simp only [SlotDict.addSlot_eq]
              rw [noteCaller_eq]
      rw [List.foldl_cons, hstep, ih]
      simp only [List.map_cons, List.sum_cons, add_assoc]

section Manifests

variable [DecidableEq Digest] (sha1 : List UInt8 → Digest)

/-- The pages that are taken. -/
def Manifest.accepted (m : Manifest Digest) : List (PageRecord Digest) :=
  m.pages.filter fun page => page.accepted sha1 m.pageSize

def Manifest.entryAdds (m : Manifest Digest) : SlotDict CpuRootKey :=
  (m.entries.map fun entry => slotOf (entry.1, entry.2.addr, entry.2.mode) entry.2).sum

def Manifest.rootAdds (m : Manifest Digest) : CountDict CpuRootKey :=
  (m.rootMap.map rootMapAdds).sum + ((m.accepted sha1).map PageRecord.rootAdds).sum

def Manifest.callerAdds (m : Manifest Digest) : CountDict CpuRootKey :=
  ((m.accepted sha1).map PageRecord.callerAdds).sum +
    (m.entries.map fun entry => callerOf entry.1 entry.2).sum

/-- The counts that the session's roots are raised to. -/
def Manifest.sessionRoots (m : Manifest Digest) : CountDict CpuRootKey :=
  m.entries.foldl (fun d entry => d.raise (rootOf (entry.1, entry.2.addr, entry.2.mode) entry.2)) 0

def joinVersion (versions : VersionKey Digest → Option PageVersion) (page : PageRecord Digest) :
    VersionKey Digest → Option PageVersion :=
  Function.update versions (page.cpu, page.addr, page.sha1)
    (Option.merge PageVersion.join (versions (page.cpu, page.addr, page.sha1)) (some page.version))

def Manifest.versions (m : Manifest Digest) : VersionKey Digest → Option PageVersion :=
  (m.accepted sha1).foldl joinVersion fun _ => none

/-! ### One manifest -/

omit [DecidableEq Digest] in
theorem getD_join (versions : Option PageVersion) (page : PageRecord Digest) :
    let slot := versions.getD ⟨page.data, 0, 0, 0⟩
    some (PageVersion.mk slot.bytes
      (slot.entries + (page.entryPoints.map fun entry => slotOf (entry.addr, entry.mode) entry).sum)
      (slot.roots + bitmapRoots page.roots page.addr +
        (page.entryPoints.map fun entry => rootOf (entry.addr, entry.mode) entry).sum)
      (slot.executions + page.executions)) =
      Option.merge PageVersion.join versions (some page.version) := by
  cases versions with
  | none =>
      simp only [Option.getD_none, Option.merge_none_left, PageRecord.version, zero_add]
  | some v =>
      simp only [Option.getD_some, Option.merge_some_some, PageRecord.version, PageVersion.join,
        add_assoc]

theorem addPage_eq (pageSize : Nat) (s : MergeState Digest) (page : PageRecord Digest) :
    addPage sha1 pageSize s page =
      if page.accepted sha1 pageSize then
        { s with
          versions := joinVersion s.versions page
          roots := s.roots + page.rootAdds
          callers := s.callers + page.callerAdds }
      else s := by
  unfold addPage
  split
  · have hbitmap (d : CountDict RootKey) :
        (rootAddresses page.roots page.addr).foldl
            (fun roots root => roots.addCount root.1 root.2) d =
          d + bitmapRoots page.roots page.addr :=
      foldl_add (fun _ _ => CountDict.addCount_eq _ _ _) _ _
    dsimp only
    rw [foldl_addPageEntry, hbitmap]
    have hjoin := getD_join (s.versions (page.cpu, page.addr, page.sha1)) page
    unfold joinVersion
    rw [← hjoin]
    rfl
  · rfl

theorem foldl_addPage (pageSize : Nat) (pages : List (PageRecord Digest)) (s : MergeState Digest) :
    let taken := pages.filter fun page => page.accepted sha1 pageSize
    pages.foldl (addPage sha1 pageSize) s =
      { s with
        versions := taken.foldl joinVersion s.versions
        roots := s.roots + (taken.map PageRecord.rootAdds).sum
        callers := s.callers + (taken.map PageRecord.callerAdds).sum } := by
  dsimp only
  induction pages generalizing s with
  | nil => simp only [List.foldl_nil, List.filter_nil, List.map_nil, List.sum_nil, add_zero]
  | cons page pages ih =>
      rw [List.foldl_cons, ih, addPage_eq]
      by_cases haccepted : page.accepted sha1 pageSize = true
      · rw [if_pos haccepted, List.filter_cons_of_pos haccepted]
        simp only [List.foldl_cons, List.map_cons, List.sum_cons, add_assoc]
      · rw [if_neg haccepted, List.filter_cons_of_neg haccepted]

omit [DecidableEq Digest] in
theorem addEntry_eq (s : MergeState Digest) (entry : NdsCpu × EntryRecord) :
    addEntry s entry =
      { s with
        entries := s.entries + slotOf (entry.1, entry.2.addr, entry.2.mode) entry.2
        roots := s.roots.raise (rootOf (entry.1, entry.2.addr, entry.2.mode) entry.2)
        callers := s.callers + callerOf entry.1 entry.2 } := by
  unfold addEntry slotOf rootOf callerOf
  by_cases hroot : entry.2.kind = .root
  · simp only [hroot, if_true, RecordKind.promotable_root, CountDict.maxCount_eq, add_zero]
  · simp only [hroot, if_false, CountDict.raise_zero]
    cases hkind : entry.2.kind.promotable with
    | none => simp only [add_zero]
    | some kind =>
        simp only [SlotDict.addSlot_eq]
        rw [noteCaller_eq]

theorem foldl_raise {α : Type} (g : α → CountDict CpuRootKey) (l : List α)
    (d : CountDict CpuRootKey) :
    l.foldl (fun d x => d.raise (g x)) d = d.raise (l.foldl (fun d x => d.raise (g x)) 0) := by
  induction l generalizing d with
  | nil => exact (CountDict.raise_zero d).symm
  | cons x l ih =>
      rw [List.foldl_cons, List.foldl_cons, ih, ih ((0 : CountDict CpuRootKey).raise _),
        CountDict.zero_raise, CountDict.raise_assoc]

omit [DecidableEq Digest] in
theorem foldl_addEntry (entries : List (NdsCpu × EntryRecord)) (s : MergeState Digest) :
    entries.foldl addEntry s =
      { s with
        entries := s.entries +
          (entries.map fun entry => slotOf (entry.1, entry.2.addr, entry.2.mode) entry.2).sum
        roots := entries.foldl
          (fun d entry => d.raise (rootOf (entry.1, entry.2.addr, entry.2.mode) entry.2)) s.roots
        callers := s.callers + (entries.map fun entry => callerOf entry.1 entry.2).sum } := by
  induction entries generalizing s with
  | nil => simp only [List.foldl_nil, List.map_nil, List.sum_nil, add_zero]
  | cons entry entries ih =>
      rw [List.foldl_cons, ih, addEntry_eq]
      simp only [List.foldl_cons, List.map_cons, List.sum_cons, add_assoc]

/-- What a manifest does to the merged state. -/
theorem mergeManifest_eq (s : MergeState Digest) (m : Manifest Digest) :
    mergeManifest sha1 s m =
      { entries := s.entries + m.entryAdds
        versions := (m.accepted sha1).foldl joinVersion s.versions
        roots := (s.roots + m.rootAdds sha1).raise m.sessionRoots
        callers := s.callers + m.callerAdds sha1 } := by
  have hroots : m.rootMap.foldl addRootRecord s.roots =
      s.roots + (m.rootMap.map rootMapAdds).sum := foldl_add addRootRecord_eq _ _
  unfold mergeManifest
  dsimp only
  rw [hroots, foldl_addPage, foldl_addEntry]
  dsimp only
  rw [foldl_raise]
  unfold Manifest.entryAdds Manifest.rootAdds Manifest.sessionRoots Manifest.callerAdds
    Manifest.accepted
  simp only [add_assoc]

end Manifests

end NdsRecomp.CoverageManifest
