import NdsRecomp.Coverage.MergeOrder

/-!
Merging in any order, and merging more. The order is free exactly when no
manifest's addition to a root is swallowed by a larger session count and no two
manifests bring different bytes of one version. A manifest, wherever it stands in
the list, only adds to the merged maps; the seeds of spans are promoted anew.
-/

namespace NdsRecomp.CoverageManifest

open Bus Library

/-! ### More of a dictionary -/

section Dictionaries

variable {κ : Type} [DecidableEq κ]

instance : LE Slot := ⟨fun s t => s.hits ≤ t.hits ∧ s.kinds ⊆ t.kinds⟩

instance : LE (CountDict κ) := ⟨fun d e => d.keys ⊆ e.keys ∧ ∀ k, d.count k ≤ e.count k⟩

theorem Slot.le_add_right (s t : Slot) : s ≤ s + t :=
  ⟨Nat.le_add_right _ _, Finset.subset_union_left⟩

theorem Slot.add_le_add_left {s t : Slot} (h : s ≤ t) (u : Slot) : s + u ≤ t + u :=
  ⟨Nat.add_le_add_right h.1 _, Finset.union_subset_union_left h.2⟩

theorem CountDict.le_add_right (d e : CountDict κ) : d ≤ d + e :=
  ⟨Finset.subset_union_left, fun _ => Nat.le_add_right _ _⟩

theorem CountDict.add_le_add_left {d e : CountDict κ} (h : d ≤ e) (f : CountDict κ) :
    d + f ≤ e + f :=
  ⟨Finset.union_subset_union_left h.1, fun k => Nat.add_le_add_right (h.2 k) _⟩

theorem CountDict.le_raise (d e : CountDict κ) : d ≤ d.raise e :=
  ⟨Finset.subset_union_left, fun _ => Nat.le_max_left _ _⟩

theorem CountDict.raise_le_raise {d e : CountDict κ} (h : d ≤ e) (f : CountDict κ) :
    d.raise f ≤ e.raise f :=
  ⟨Finset.union_subset_union_left h.1, fun k => max_le_max_right _ (h.2 k)⟩

omit [DecidableEq κ] in
theorem CountDict.le_trans {d e f : CountDict κ} (h : d ≤ e) (h' : e ≤ f) : d ≤ f :=
  ⟨h.1.trans h'.1, fun k => (h.2 k).trans (h'.2 k)⟩

end Dictionaries

/-- A version with at least the entries, roots and executions of another. -/
def PageVersion.Within (v w : PageVersion) : Prop :=
  (∀ key, v.entries key ≤ w.entries key) ∧ v.roots ≤ w.roots ∧ v.executions ≤ w.executions

/-! ### Versions -/

theorem PageVersion.join_assoc (v w x : PageVersion) :
    (v.join w).join x = v.join (w.join x) := by
  unfold join
  simp only [add_assoc]

theorem PageVersion.join_right_comm (v w x : PageVersion) :
    (v.join w).join x = (v.join x).join w := by
  unfold join
  simp only [add_right_comm]

theorem PageVersion.join_comm {v w : PageVersion} (h : v.bytes = w.bytes) :
    v.join w = w.join v := by
  unfold join
  rw [h, add_comm v.entries, add_comm v.roots, add_comm v.executions]

theorem PageVersion.within_refl (v : PageVersion) : v.Within v :=
  ⟨fun _ => ⟨le_refl _, subset_refl _⟩, ⟨subset_refl _, fun _ => le_refl _⟩, le_refl _⟩

theorem PageVersion.within_join (v w : PageVersion) : v.Within (v.join w) :=
  ⟨fun _ => Slot.le_add_right _ _, CountDict.le_add_right _ _, Nat.le_add_right _ _⟩

theorem PageVersion.join_within_join {v w : PageVersion} (h : v.Within w) (x : PageVersion) :
    (v.join x).Within (w.join x) :=
  ⟨fun key => Slot.add_le_add_left (h.1 key) _, CountDict.add_le_add_left h.2.1 _,
    Nat.add_le_add_right h.2.2 _⟩

/-- Joining onto what is there already. -/
abbrev joinOnto (held new : Option PageVersion) : Option PageVersion :=
  Option.merge PageVersion.join held new

theorem joinOnto_assoc (a b c : Option PageVersion) :
    joinOnto (joinOnto a b) c = joinOnto a (joinOnto b c) := by
  cases a <;> cases b <;> cases c <;> simp [PageVersion.join_assoc]

variable {Digest : Type} [DecidableEq Digest]

theorem joinVersion_apply (versions : VersionKey Digest → Option PageVersion)
    (page : PageRecord Digest) (key : VersionKey Digest) :
    joinVersion versions page key =
      joinOnto (versions key) (joinVersion (fun _ => none) page key) := by
  unfold joinVersion joinOnto
  by_cases h : key = (page.cpu, page.addr, page.sha1)
  · rw [h, Function.update_self, Function.update_self, Option.merge_none_left]
  · rw [Function.update_of_ne h, Function.update_of_ne h, Option.merge_none_right]

theorem foldl_joinVersion_apply (pages : List (PageRecord Digest))
    (versions : VersionKey Digest → Option PageVersion) (key : VersionKey Digest) :
    pages.foldl joinVersion versions key =
      joinOnto (versions key) (pages.foldl joinVersion (fun _ => none) key) := by
  induction pages generalizing versions with
  | nil => exact (Option.merge_none_right).symm
  | cons page pages ih =>
      rw [List.foldl_cons, List.foldl_cons, ih, ih (joinVersion (fun _ => none) page),
        joinVersion_apply versions, joinOnto_assoc]

section Merge

variable (sha1 : List UInt8 → Digest)

theorem versions_mergeManifest (s : MergeState Digest) (m : Manifest Digest)
    (key : VersionKey Digest) :
    (mergeManifest sha1 s m).versions key = joinOnto (s.versions key) (m.versions sha1 key) := by
  rw [mergeManifest_eq]
  exact foldl_joinVersion_apply _ _ _

/-! ### A list of manifests -/

def mergeFrom (s : MergeState Digest) (manifests : List (Manifest Digest)) : MergeState Digest :=
  manifests.foldl (mergeManifest sha1) s

theorem entries_mergeFrom (s : MergeState Digest) (manifests : List (Manifest Digest)) :
    (mergeFrom sha1 s manifests).entries = s.entries + (manifests.map Manifest.entryAdds).sum := by
  induction manifests generalizing s with
  | nil => exact (add_zero _).symm
  | cons m manifests ih =>
      rw [mergeFrom, List.foldl_cons, ← mergeFrom, ih, mergeManifest_eq, List.map_cons,
        List.sum_cons, add_assoc]

theorem callers_mergeFrom (s : MergeState Digest) (manifests : List (Manifest Digest)) :
    (mergeFrom sha1 s manifests).callers =
      s.callers + (manifests.map fun m => m.callerAdds sha1).sum := by
  induction manifests generalizing s with
  | nil => exact (add_zero _).symm
  | cons m manifests ih =>
      rw [mergeFrom, List.foldl_cons, ← mergeFrom, ih, mergeManifest_eq, List.map_cons,
        List.sum_cons, add_assoc]

theorem versions_mergeFrom (s : MergeState Digest) (manifests : List (Manifest Digest))
    (key : VersionKey Digest) :
    (mergeFrom sha1 s manifests).versions key =
      manifests.foldl (fun held m => joinOnto held (m.versions sha1 key)) (s.versions key) := by
  induction manifests generalizing s with
  | nil => rfl
  | cons m manifests ih =>
      rw [mergeFrom, List.foldl_cons, ← mergeFrom, ih, versions_mergeManifest, List.foldl_cons]

def Manifest.rootKeys (m : Manifest Digest) : Finset CpuRootKey :=
  (m.rootAdds sha1).keys ∪ m.sessionRoots.keys

theorem keys_mergeFrom (s : MergeState Digest) (manifests : List (Manifest Digest)) :
    (mergeFrom sha1 s manifests).roots.keys =
      manifests.foldl (fun keys m => keys ∪ m.rootKeys sha1) s.roots.keys := by
  induction manifests generalizing s with
  | nil => rfl
  | cons m manifests ih =>
      have hstep : (mergeManifest sha1 s m).roots.keys = s.roots.keys ∪ m.rootKeys sha1 := by
        rw [mergeManifest_eq]
        exact Finset.union_assoc _ _ _
      rw [mergeFrom, List.foldl_cons, ← mergeFrom, ih, hstep, List.foldl_cons]

/-- A manifest first adds to a root and then raises it. -/
theorem count_mergeFrom (s : MergeState Digest) (manifests : List (Manifest Digest))
    (key : CpuRootKey) :
    (mergeFrom sha1 s manifests).roots.count key =
      SumOrMax.run (fun m => (m.rootAdds sha1).count key)
        (fun m : Manifest Digest => m.sessionRoots.count key) manifests (s.roots.count key) := by
  induction manifests generalizing s with
  | nil => rfl
  | cons m manifests ih =>
      rw [mergeFrom, List.foldl_cons, ← mergeFrom, ih, SumOrMax.run_cons, mergeManifest_eq]
      rfl

/-! ### Any order -/

/-- A manifest that adds to a root is not exceeded, by what its session count has
over its own addition, by another manifest. -/
def RootsEven (manifests : List (Manifest Digest)) : Prop :=
  ∀ key, SumOrMax.Even (fun m => (m.rootAdds sha1).count key)
    (fun m : Manifest Digest => m.sessionRoots.count key) manifests

/-- No two manifests bring different bytes under one digest. -/
def VersionsAgree (manifests : List (Manifest Digest)) : Prop :=
  ∀ m ∈ manifests, ∀ m' ∈ manifests, ∀ key v v', m.versions sha1 key = some v →
    m'.versions sha1 key = some v' → v.bytes = v'.bytes

theorem bytes_foldl (manifests : List (Manifest Digest)) (key : VersionKey Digest)
    (v : PageVersion) :
    ∃ w, manifests.foldl (fun held m => joinOnto held (m.versions sha1 key)) (some v) = some w ∧
      w.bytes = v.bytes := by
  induction manifests generalizing v with
  | nil => exact ⟨v, rfl, rfl⟩
  | cons m manifests ih =>
      rw [List.foldl_cons]
      cases m.versions sha1 key with
      | none => exact ih v
      | some x => exact ih (v.join x)

theorem versions_perm {manifests manifests' : List (Manifest Digest)}
    (hagree : VersionsAgree sha1 manifests) (hperm : manifests'.Perm manifests)
    (key : VersionKey Digest) :
    (mergeAll sha1 manifests').versions key = (mergeAll sha1 manifests).versions key := by
  have hrun (l : List (Manifest Digest)) := versions_mergeFrom sha1 .empty l key
  refine (hrun manifests').trans (Eq.trans ?_ (hrun manifests).symm)
  refine hperm.foldl_eq' (fun m hm m' hm' held => ?_) _
  have hbytes := hagree m (hperm.mem_iff.mp hm) m' (hperm.mem_iff.mp hm') key
  -- the bytes are the first one's, so they matter only where nothing is held
  cases hv : m.versions sha1 key with
  | none => simp only [joinOnto, Option.merge_none_right]
  | some v =>
      cases hv' : m'.versions sha1 key with
      | none => simp only [joinOnto, Option.merge_none_right]
      | some v' =>
          cases held with
          | none =>
              simp only [joinOnto, Option.merge_none_left, Option.merge_some_some]
              rw [PageVersion.join_comm (hbytes v v' hv hv')]
          | some x =>
              simp only [joinOnto, Option.merge_some_some]
              rw [PageVersion.join_right_comm]

theorem mergeAll_perm {manifests manifests' : List (Manifest Digest)}
    (heven : RootsEven sha1 manifests) (hagree : VersionsAgree sha1 manifests)
    (hperm : manifests'.Perm manifests) : mergeAll sha1 manifests' = mergeAll sha1 manifests := by
  have hentries : (mergeAll sha1 manifests').entries = (mergeAll sha1 manifests).entries := by
    refine (entries_mergeFrom sha1 .empty manifests').trans ?_
    rw [(hperm.map _).sum_eq]
    exact (entries_mergeFrom sha1 .empty manifests).symm
  have hcallers : (mergeAll sha1 manifests').callers = (mergeAll sha1 manifests).callers := by
    refine (callers_mergeFrom sha1 .empty manifests').trans ?_
    rw [(hperm.map _).sum_eq]
    exact (callers_mergeFrom sha1 .empty manifests).symm
  have hkeys : (mergeAll sha1 manifests').roots.keys = (mergeAll sha1 manifests).roots.keys := by
    refine (keys_mergeFrom sha1 .empty manifests').trans ?_
    rw [hperm.foldl_eq' (fun m _ m' _ keys => Finset.union_right_comm keys _ _)]
    exact (keys_mergeFrom sha1 .empty manifests).symm
  have hcount (key : CpuRootKey) :
      (mergeAll sha1 manifests').roots.count key = (mergeAll sha1 manifests).roots.count key := by
    refine (count_mergeFrom sha1 .empty manifests' key).trans ?_
    exact (SumOrMax.run_perm _ _ (heven key) hperm).trans
      (count_mergeFrom sha1 .empty manifests key).symm
  have hversions := funext (versions_perm sha1 hagree hperm)
  have hroots := CountDict.ext hkeys hcount
  cases hmerged : mergeAll sha1 manifests
  cases hmerged' : mergeAll sha1 manifests'
  simp only [hmerged, hmerged'] at hentries hcallers hversions hroots
  rw [hentries, hcallers, hversions, hroots]

theorem rootsEven_of_free {options : IngestOptions} {manifests : List (Manifest Digest)}
    (hfree : ∀ manifests', manifests'.Perm manifests →
      ingest sha1 options manifests' = ingest sha1 options manifests) :
    RootsEven sha1 manifests := by
  intro key
  refine (SumOrMax.run_perm_iff _ _ _).mp fun manifests' hperm => ?_
  have hsame : (mergeAll sha1 manifests').roots.count key =
      (mergeAll sha1 manifests).roots.count key :=
    congrArg (fun r => r.roots.count key) (hfree manifests' hperm)
  exact (count_mergeFrom sha1 .empty manifests' key).symm.trans
    (hsame.trans (count_mergeFrom sha1 .empty manifests key))

/-- The version that the first manifest brings keeps its bytes. -/
theorem bytes_ingest_cons (options : IngestOptions) (m : Manifest Digest)
    (manifests : List (Manifest Digest)) {key : VersionKey Digest} {v : PageVersion}
    (hv : m.versions sha1 key = some v) :
    ((ingest sha1 options (m :: manifests)).versions key).map PageVersion.bytes = some v.bytes := by
  obtain ⟨w, hw, hbytes⟩ := bytes_foldl sha1 manifests key v
  have hmerged : (mergeAll sha1 (m :: manifests)).versions key = some w := by
    refine (versions_mergeFrom sha1 .empty (m :: manifests) key).trans ?_
    rw [List.foldl_cons, hv]
    exact hw
  unfold ingest promote
  dsimp only
  rw [hmerged, Option.map_some, Option.map_some]
  exact congrArg some hbytes

theorem versionsAgree_of_free {options : IngestOptions} {manifests : List (Manifest Digest)}
    (hfree : ∀ manifests', manifests'.Perm manifests →
      ingest sha1 options manifests' = ingest sha1 options manifests) :
    VersionsAgree sha1 manifests := by
  intro m hm m' hm' key v v' hv hv'
  obtain ⟨rest, hrest⟩ := SumOrMax.perm_cons_of_mem hm
  obtain ⟨rest', hrest'⟩ := SumOrMax.perm_cons_of_mem hm'
  have hsame := (hfree _ hrest).trans (hfree _ hrest').symm
  have hbytes := bytes_ingest_cons sha1 options m rest hv
  rw [hsame, bytes_ingest_cons sha1 options m' rest' hv'] at hbytes
  exact (Option.some.inj hbytes).symm

end Merge

/-! ### More manifests -/

/-- Everything of `s` is in `s'`, and no count is lower. -/
structure MergeState.Within (s s' : MergeState Digest) : Prop where
  entries : ∀ key, s.entries key ≤ s'.entries key
  versions : ∀ key v, s.versions key = some v →
    ∃ w, s'.versions key = some w ∧ v.Within w
  roots : s.roots ≤ s'.roots
  callers : s.callers ≤ s'.callers

section Merge

variable (sha1 : List UInt8 → Digest)

/-- A manifest only adds. -/
theorem within_mergeManifest (s : MergeState Digest) (m : Manifest Digest) :
    s.Within (mergeManifest sha1 s m) where
  entries := fun key => by
    rw [mergeManifest_eq]
    exact Slot.le_add_right _ _
  versions := fun key v hv => by
    rw [versions_mergeManifest, hv]
    cases m.versions sha1 key with
    | none => exact ⟨v, rfl, v.within_refl⟩
    | some x => exact ⟨v.join x, rfl, v.within_join x⟩
  roots := by
    rw [mergeManifest_eq]
    exact CountDict.le_trans (CountDict.le_add_right _ _) (CountDict.le_raise _ _)
  callers := by
    rw [mergeManifest_eq]
    exact CountDict.le_add_right _ _

/-- Onto more, a manifest merges to more. -/
theorem mergeManifest_within {s s' : MergeState Digest} (h : s.Within s') (m : Manifest Digest) :
    (mergeManifest sha1 s m).Within (mergeManifest sha1 s' m) where
  entries := fun key => by
    rw [mergeManifest_eq, mergeManifest_eq]
    exact Slot.add_le_add_left (h.entries key) _
  versions := fun key v hv => by
    rw [versions_mergeManifest] at hv ⊢
    cases hs : s.versions key with
    | none =>
        -- the version is the manifest's own
        rw [hs, joinOnto, Option.merge_none_left] at hv
        rw [hv]
        cases s'.versions key with
        | none => exact ⟨v, rfl, v.within_refl⟩
        | some w =>
            refine ⟨w.join v, rfl, ?_⟩
            unfold PageVersion.Within PageVersion.join
            dsimp only
            rw [add_comm w.entries, add_comm w.roots, add_comm w.executions]
            exact v.within_join w
    | some u =>
        obtain ⟨w, hw, huw⟩ := h.versions key u hs
        rw [hs] at hv
        rw [hw]
        cases hm : m.versions sha1 key with
        | none =>
            rw [hm, joinOnto, Option.merge_none_right, Option.some.injEq] at hv
            exact ⟨w, rfl, hv ▸ huw⟩
        | some x =>
            rw [hm, joinOnto, Option.merge_some_some, Option.some.injEq] at hv
            exact ⟨w.join x, rfl, hv ▸ PageVersion.join_within_join huw x⟩
  roots := by
    rw [mergeManifest_eq, mergeManifest_eq]
    exact CountDict.raise_le_raise (CountDict.add_le_add_left h.roots _) _
  callers := by
    rw [mergeManifest_eq, mergeManifest_eq]
    exact CountDict.add_le_add_left h.callers _

theorem mergeFrom_within {s s' : MergeState Digest} (h : s.Within s')
    (manifests : List (Manifest Digest)) :
    (mergeFrom sha1 s manifests).Within (mergeFrom sha1 s' manifests) := by
  induction manifests generalizing s s' with
  | nil => exact h
  | cons m manifests ih => exact ih (mergeManifest_within sha1 h m)

theorem mergeAll_within (m : Manifest Digest) (before after : List (Manifest Digest)) :
    (mergeAll sha1 (before ++ after)).Within (mergeAll sha1 (before ++ m :: after)) := by
  unfold mergeAll
  rw [List.foldl_append, List.foldl_append, List.foldl_cons]
  exact mergeFrom_within sha1 (within_mergeManifest sha1 _ m) after

end Merge

/-! ### Promotion -/

/-- What was recorded at an entry is kept; if no span began there, the entry is. -/
def Slot.Kept (s t : Slot) : Prop :=
  (∀ kind ∈ s.kinds, kind ≠ .span → kind ∈ t.kinds) ∧ (.span ∉ s.kinds → s ≤ t)

/-- An entry where a span begins. -/
def Slot.seed (s : Slot) (hits : Nat) : Slot := ⟨s.hits + hits, insert .span s.kinds⟩

theorem Slot.kept_of_le {s t : Slot} (h : s ≤ t) : s.Kept t := ⟨fun _ hk _ => h.2 hk, fun _ => h⟩

theorem Slot.kept_seed {s t : Slot} (h : s.Kept t) (hits : Nat) : s.Kept (t.seed hits) :=
  ⟨fun kind hk hne => Finset.mem_insert_of_mem (h.1 kind hk hne), fun hspan =>
    ⟨(h.2 hspan).1.trans (Nat.le_add_right _ _),
      (h.2 hspan).2.trans (Finset.subset_insert _ _)⟩⟩

theorem Slot.seed_kept {s t : Slot} (h : s.Kept t) (hits : Nat) : (s.seed hits).Kept t :=
  ⟨fun kind hk hne => h.1 kind ((Finset.mem_insert.mp hk).resolve_left hne) hne,
    fun hspan => (hspan (Finset.mem_insert_self _ _)).elim⟩

def PageVersion.Kept (v w : PageVersion) : Prop :=
  (∀ key, (v.entries key).Kept (w.entries key)) ∧ v.roots ≤ w.roots ∧ v.executions ≤ w.executions

def InterpretedMap.Within (map map' : InterpretedMap) : Prop :=
  map.keys ⊆ map'.keys ∧ ∀ key, map.hits key ≤ map'.hits key

/-- What was merged is kept, and no count of it is lower. Only where a span began
does an entry depend on what is promoted. -/
structure IngestResult.Within (r r' : IngestResult Digest) : Prop where
  merged : ∀ key, r.merged key ≤ r'.merged key
  interpreted : List.Forall₂ (fun a b => a.1 = b.1 ∧ a.2.Within b.2) r.interpreted r'.interpreted
  entries : ∀ key, (r.entries key).Kept (r'.entries key)
  versions : ∀ key v, r.versions key = some v → ∃ w, r'.versions key = some w ∧ v.Kept w
  roots : r.roots ≤ r'.roots
  callers : r.callers ≤ r'.callers

omit [DecidableEq Digest] in
theorem mergedEntries_le (options : IngestOptions) {s s' : MergeState Digest} (h : s.Within s')
    (key : CpuRootKey) : mergedEntries options s key ≤ mergedEntries options s' key := by
  have hle := h.entries key
  unfold mergedEntries
  split
  · exact ⟨Nat.zero_le _, Finset.empty_subset _⟩
  · have hits := hle.1
    rw [if_neg (by omega)]
    exact hle

omit [DecidableEq Digest] in
theorem interpretedMap_within {options : IngestOptions} {s s' : MergeState Digest}
    (h : s.Within s') (cpu : NdsCpu) :
    (interpretedMap options s cpu).Within (interpretedMap options s' cpu) := by
  unfold interpretedMap
  cases options.promoteCallers with
  | true =>
      exact ⟨Finset.image_subset_image (Finset.filter_subset_filter _
        (Finset.union_subset_union h.roots.1 h.callers.1)),
        fun key => Nat.add_le_add (h.roots.2 _) (h.callers.2 _)⟩
  | false =>
      exact ⟨Finset.image_subset_image (Finset.filter_subset_filter _
        (Finset.union_subset_union_left h.roots.1)),
        fun key => Nat.add_le_add_right (h.roots.2 _) _⟩

omit [DecidableEq Digest] in
theorem promote_within (options : IngestOptions) {s s' : MergeState Digest} (h : s.Within s') :
    (promote options s).Within (promote options s') where
  merged := mergedEntries_le options h
  interpreted :=
    .cons ⟨rfl, interpretedMap_within h .arm9⟩ (.cons ⟨rfl, interpretedMap_within h .arm7⟩ .nil)
  entries := fun key => by
    have hkept := Slot.kept_of_le (mergedEntries_le options h key)
    unfold promote
    dsimp only
    split <;> split
    · exact hkept
    · exact Slot.kept_seed hkept _
    · exact Slot.seed_kept hkept _
    · exact Slot.seed_kept (Slot.kept_seed hkept _) _
  versions := fun key v hv => by
    obtain ⟨u, hu, rfl⟩ := Option.map_eq_some_iff.mp hv
    obtain ⟨w, hw, hwithin⟩ := h.versions key u hu
    refine ⟨_, Option.map_eq_some_iff.mpr ⟨w, hw, rfl⟩, fun k => ?_, hwithin.2⟩
    have hkept := Slot.kept_of_le (hwithin.1 k)
    dsimp only
    split <;> split
    · exact Slot.seed_kept (Slot.kept_seed hkept _) _
    · exact Slot.seed_kept hkept _
    · exact Slot.kept_seed hkept _
    · exact hkept
  roots := h.roots
  callers := h.callers

/-- What `ingest` builds is free of the order exactly when no addition to a root
is swallowed and no digest has two contents; more manifests only add to it. -/
theorem ingest_exact (sha1 : List UInt8 → Digest) (options : IngestOptions)
    (manifests : List (Manifest Digest)) :
    ((∀ manifests', manifests'.Perm manifests →
        ingest sha1 options manifests' = ingest sha1 options manifests) ↔
      RootsEven sha1 manifests ∧ VersionsAgree sha1 manifests) ∧
    ∀ m before after, before ++ after = manifests →
      (ingest sha1 options manifests).Within (ingest sha1 options (before ++ m :: after)) := by
  refine ⟨⟨fun hfree => ⟨rootsEven_of_free sha1 hfree, versionsAgree_of_free sha1 hfree⟩,
    fun h manifests' hperm => congrArg (promote options) (mergeAll_perm sha1 h.1 h.2 hperm)⟩, ?_⟩
  rintro m before after rfl
  exact promote_within options (mergeAll_within sha1 m before after)

/-- Three interpretations at the first instruction of a page, as the map of a session. -/
def mapped : Manifest (List UInt8) where
  rootMap := [⟨.arm9, 0x02000000, appendRootBits (rootsAfter [firstRoot, firstRoot, firstRoot])⟩]
  pageSize := 4096
  pages := []
  entries := []

/-- Five interpretations there, as a record of a session. -/
def listed : Manifest (List UInt8) where
  rootMap := []
  pageSize := 4096
  pages := []
  entries := [(.arm9, ⟨0x02000000, .arm, .root, 5, none⟩)]

theorem listed_swallows_mapped :
    ¬ ∀ (sha1 : List UInt8 → List UInt8) (options : IngestOptions)
      (manifests manifests' : List (Manifest (List UInt8))), manifests'.Perm manifests →
        ingest sha1 options manifests' = ingest sha1 options manifests := by
  intro h
  have hsame := congrArg (fun r => r.roots.count (.arm9, 0x02000000, .arm))
    (h id {} [listed, mapped] [mapped, listed] (List.Perm.swap _ _ _))
  -- five in one order, eight in the other
  exact absurd hsame (by decide +kernel)

end NdsRecomp.CoverageManifest
