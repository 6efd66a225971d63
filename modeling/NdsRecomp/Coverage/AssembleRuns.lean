import NdsRecomp.Coverage.MergeOrder
import NdsRecomp.Library.PageRuns

/-!
`assemble_runs`: the captured pages that no image explains are joined to runs, and
each run is a bank with the entries of its pages. A dictionary is a finite set of
keys with a function that is zero elsewhere; its listing in order is left to the
reader of the dictionary.

What the runs of `assemble_runs` have to be, and when they are: on every processor
an unresolved page that begins where another one ends comes next to it, and a page
with a page before and one behind it is as long as the one before.
-/

namespace NdsRecomp.CoverageManifest

open Bus Library

/-- A dictionary of slots. -/
structure SlotMap (κ : Type) where
  keys : Finset κ
  slot : κ → Slot
  absent : ∀ k ∉ keys, slot k = 0

section Dictionaries

variable {κ : Type} [DecidableEq κ]

/-- Every slot of `e` is added to the one in `d`, which is set up where it is missing. -/
def SlotMap.add (d e : SlotMap κ) : SlotMap κ where
  keys := d.keys ∪ e.keys
  slot := fun k => d.slot k + e.slot k
  absent := fun k hk => by
    rw [Finset.mem_union, not_or] at hk
    rw [d.absent k hk.1, e.absent k hk.2, add_zero]

def SlotMap.filter (d : SlotMap κ) (p : κ → Bool) : SlotMap κ where
  keys := d.keys.filter fun k => p k
  slot := fun k => if p k then d.slot k else 0
  absent := fun k hk => by
    split
    · next hp => exact d.absent k fun hmem => hk (Finset.mem_filter.mpr ⟨hmem, hp⟩)
    · rfl

end Dictionaries

/-- What a session recorded for one processor. -/
def SlotMap.ofCpu (session : SlotMap CpuRootKey) (cpu : NdsCpu) : SlotMap RootKey where
  keys := (session.keys.filter fun k => k.1 = cpu).image Prod.snd
  slot := fun k => session.slot (cpu, k)
  absent := fun _ hk => session.absent _ fun hmem =>
    hk (Finset.mem_image.mpr ⟨_, Finset.mem_filter.mpr ⟨hmem, rfl⟩, rfl⟩)

/-- What is read of a captured version. -/
structure CapturedPage where
  bytes : List UInt8
  entries : SlotMap RootKey

/-- The captured versions, and those of them that no image explains. -/
structure CapturedVersions (Digest : Type) where
  keys : Finset (VersionKey Digest)
  page : VersionKey Digest → CapturedPage
  unresolved : Finset (VersionKey Digest)
  captured : unresolved ⊆ keys

/-- A run of pages: processor, start, contents and entries. -/
structure PageRun where
  cpu : NdsCpu
  start : Nat
  blob : List UInt8
  entries : SlotMap RootKey

namespace CapturedVersions

variable {Digest : Type} [LinearOrder Digest] (c : CapturedVersions Digest)

def versionCount (cpu : NdsCpu) (addr : Nat) : Nat :=
  (c.keys.filter fun k => k.1 = cpu ∧ k.2.1 = addr).card

def addr (key : VersionKey Digest) : Nat := key.2.1

def size (key : VersionKey Digest) : Nat := (c.page key).bytes.length

/-- The only version at its address. -/
def single (key : VersionKey Digest) : Bool := c.versionCount key.1 key.2.1 = 1

/-- The unresolved versions of a processor by address and digest. -/
def items (cpu : NdsCpu) : List (VersionKey Digest) :=
  (((c.unresolved.filter fun k => k.1 = cpu).image fun k => toLex k.2).sort (· ≤ ·)).map
    fun k => (cpu, ofLex k)

/-- The two loops over the items: each run's first key and the keys behind it. -/
def runKeys (cpu : NdsCpu) : List (VersionKey Digest × List (VersionKey Digest)) :=
  PageRuns.cut (PageRuns.link addr c.size c.single) (c.items cpu)

def allRunKeys : List (VersionKey Digest × List (VersionKey Digest)) :=
  [NdsCpu.arm7, NdsCpu.arm9].flatMap c.runKeys

def blob (keys : VersionKey Digest × List (VersionKey Digest)) : List UInt8 :=
  (PageRuns.members keys).flatMap fun k => (c.page k).bytes

def runEntries (keys : VersionKey Digest × List (VersionKey Digest)) : SlotMap RootKey :=
  keys.2.foldl (fun entries k => entries.add (c.page k).entries) (c.page keys.1).entries

def inRun (keys : VersionKey Digest × List (VersionKey Digest)) (key : RootKey) : Bool :=
  decide (addr keys.1 ≤ key.1) && decide (key.1 < addr keys.1 + (c.blob keys).length)

def buildRun (session : SlotMap CpuRootKey)
    (keys : VersionKey Digest × List (VersionKey Digest)) : PageRun :=
  let entries := c.runEntries keys
  let entries :=
    if entries.keys = ∅ then (session.ofCpu keys.1.1).filter (c.inRun keys) else entries
  { cpu := keys.1.1
    start := addr keys.1
    blob := c.blob keys
    entries := entries.filter (c.inRun keys) }

def assembleRuns (session : SlotMap CpuRootKey) : List PageRun :=
  c.allRunKeys.map (c.buildRun session)

end CapturedVersions

namespace CapturedVersions

variable {Digest : Type} (c : CapturedVersions Digest)

/-! ### One run -/

/-- The byte at an offset of a run is the one captured at its address by the
version that lies there. -/
def ByteCaptured (keys : VersionKey Digest × List (VersionKey Digest)) (k : Nat) : Prop :=
  ∃ before key after, PageRuns.members keys = before ++ key :: after ∧
    PageRuns.total c.size before ≤ k ∧ k < PageRuns.total c.size before + c.size key ∧
    addr key ≤ addr keys.1 + k ∧ addr keys.1 + k < addr key + c.size key ∧
    (c.blob keys)[k]? = (c.page key).bytes[addr keys.1 + k - addr key]?

/-- Two versions at one address are not single. -/
theorem eq_of_single {x y : VersionKey Digest} (hx : x ∈ c.unresolved) (hy : y ∈ c.unresolved)
    (hcpu : y.1 = x.1) (haddr : addr y = addr x) (hsingle : c.single x = true) : y = x := by
  unfold single versionCount at hsingle
  obtain ⟨only, honly⟩ := Finset.card_eq_one.mp (of_decide_eq_true hsingle)
  have hmem (z : VersionKey Digest) (hz : z ∈ c.unresolved) (hzcpu : z.1 = x.1)
      (hzaddr : z.2.1 = x.2.1) : z = only := by
    have hfilter : z ∈ c.keys.filter fun k => k.1 = x.1 ∧ k.2.1 = x.2.1 :=
      Finset.mem_filter.mpr ⟨c.captured hz, hzcpu, hzaddr⟩
    rwa [honly, Finset.mem_singleton] at hfilter
  exact (hmem y hy hcpu haddr).trans (hmem x hx rfl rfl).symm

section Run

variable {c} {keys : VersionKey Digest × List (VersionKey Digest)}

/-- Every offset of a concatenation lies in one of its pieces. -/
theorem exists_piece {α β : Type} (f : α → List β) (l : List α) {k : Nat}
    (hk : k < (l.flatMap f).length) :
    ∃ before x after, l = before ++ x :: after ∧
      PageRuns.total (fun x => (f x).length) before ≤ k ∧
      k < PageRuns.total (fun x => (f x).length) before + (f x).length ∧
      (l.flatMap f)[k]? = (f x)[k - PageRuns.total (fun x => (f x).length) before]? := by
  induction l generalizing k with
  | nil => exact absurd hk (Nat.not_lt_zero k)
  | cons x l ih =>
      rw [List.flatMap_cons, List.length_append] at hk
      by_cases hfirst : k < (f x).length
      · refine ⟨[], x, l, rfl, Nat.zero_le _, ?_, ?_⟩
        · simpa [PageRuns.total] using hfirst
        · rw [List.flatMap_cons, List.getElem?_append_left hfirst]
          rfl
      · obtain ⟨before, y, after, rfl, hlow, hhigh, hread⟩ := ih (k := k - (f x).length) (by omega)
        have htotal : PageRuns.total (fun x => (f x).length) (x :: before) =
            (f x).length + PageRuns.total (fun x => (f x).length) before := by
          simp [PageRuns.total]
        refine ⟨x :: before, y, after, rfl, by omega, by omega, ?_⟩
        rw [List.flatMap_cons, List.getElem?_append_right (by omega), hread, htotal, Nat.sub_sub]

theorem bytes_of_placed (hplaced : PageRuns.Placed addr c.size keys) {k : Nat}
    (hk : k < (c.blob keys).length) : c.ByteCaptured keys k := by
  obtain ⟨before, key, after, hmembers, hlow, hhigh, hread⟩ := exists_piece _ _ hk
  have haddr := hplaced before key after hmembers
  refine ⟨before, key, after, hmembers, hlow, hhigh, ?_, ?_, ?_⟩
  · unfold size at haddr
    omega
  · unfold size at haddr ⊢
    omega
  · rw [haddr, Nat.add_sub_add_left]
    exact hread

theorem foldl_add_slot (l : List (VersionKey Digest)) (d : SlotMap RootKey) (k : RootKey) :
    (l.foldl (fun entries key => entries.add (c.page key).entries) d).slot k =
      d.slot k + (l.map fun key => (c.page key).entries.slot k).sum := by
  induction l generalizing d with
  | nil => exact (add_zero _).symm
  | cons key l ih =>
      rw [List.foldl_cons, ih, List.map_cons, List.sum_cons, ← add_assoc]
      rfl

theorem mem_foldl_add (l : List (VersionKey Digest)) (d : SlotMap RootKey) (k : RootKey) :
    k ∈ (l.foldl (fun entries key => entries.add (c.page key).entries) d).keys ↔
      k ∈ d.keys ∨ ∃ key ∈ l, k ∈ (c.page key).entries.keys := by
  induction l generalizing d with
  | nil => simp
  | cons key l ih =>
      have hadd : k ∈ (d.add (c.page key).entries).keys ↔
          k ∈ d.keys ∨ k ∈ (c.page key).entries.keys := Finset.mem_union
      rw [List.foldl_cons, ih, hadd, List.exists_mem_cons_iff, or_assoc]

theorem mem_runEntries {k : RootKey} : k ∈ (c.runEntries keys).keys ↔
    ∃ key ∈ PageRuns.members keys, k ∈ (c.page key).entries.keys := by
  unfold runEntries PageRuns.members
  rw [mem_foldl_add, List.exists_mem_cons_iff]

theorem inRun_iff {k : RootKey} : c.inRun keys k = true ↔
    addr keys.1 ≤ k.1 ∧ k.1 < addr keys.1 + (c.blob keys).length := by
  unfold inRun
  rw [Bool.and_eq_true, decide_eq_true_eq, decide_eq_true_eq]

theorem buildRun_inside (session : SlotMap CpuRootKey) {k : RootKey}
    (hk : k ∈ (c.buildRun session keys).entries.keys) :
    addr keys.1 ≤ k.1 ∧ k.1 < addr keys.1 + (c.blob keys).length :=
  inRun_iff.mp (Finset.mem_filter.mp hk).2

theorem buildRun_entries (session : SlotMap CpuRootKey) {key : VersionKey Digest} {k : RootKey}
    (hkey : key ∈ PageRuns.members keys) (hk : k ∈ (c.page key).entries.keys)
    (hin : c.inRun keys k = true) :
    k ∈ (c.buildRun session keys).entries.keys ∧
      (c.buildRun session keys).entries.slot k =
        ((PageRuns.members keys).map fun key => (c.page key).entries.slot k).sum := by
  have hmem : k ∈ (c.runEntries keys).keys := mem_runEntries.mpr ⟨key, hkey, hk⟩
  have hentries : (c.buildRun session keys).entries =
      (c.runEntries keys).filter (c.inRun keys) := by
    unfold buildRun
    dsimp only
    rw [if_neg (Finset.ne_empty_of_mem hmem)]
  rw [hentries]
  refine ⟨Finset.mem_filter.mpr ⟨hmem, hin⟩, ?_⟩
  refine (if_pos hin).trans ?_
  exact foldl_add_slot _ _ _

end Run

/-! ### All runs -/

variable [LinearOrder Digest]

structure RunsExact (session : SlotMap CpuRootKey) : Prop where
  /-- Each unresolved version is in one run, and once. -/
  once : (c.allRunKeys.flatMap PageRuns.members).Nodup ∧
    ∀ key, key ∈ c.allRunKeys.flatMap PageRuns.members ↔ key ∈ c.unresolved
  /-- Joined pages are the only versions at their addresses, resolved ones counted. -/
  joined : ∀ keys ∈ c.allRunKeys, ∀ before x y after,
    PageRuns.members keys = before ++ x :: y :: after →
      x.1 = y.1 ∧ c.versionCount x.1 (addr x) = 1 ∧ c.versionCount y.1 (addr y) = 1
  placed : ∀ keys ∈ c.allRunKeys, PageRuns.Placed addr c.size keys
  bytes : ∀ keys ∈ c.allRunKeys, ∀ k < (c.blob keys).length, c.ByteCaptured keys k
  /-- No unresolved version outside a run continues it. -/
  maximal : ∀ keys ∈ c.allRunKeys, PageRuns.Maximal addr c.size c.single (c.items keys.1.1) keys
  inside : ∀ keys ∈ c.allRunKeys, ∀ k ∈ (c.buildRun session keys).entries.keys,
    addr keys.1 ≤ k.1 ∧ k.1 < addr keys.1 + (c.blob keys).length
  entries : ∀ keys ∈ c.allRunKeys, ∀ key ∈ PageRuns.members keys,
    ∀ k ∈ (c.page key).entries.keys,
      addr keys.1 ≤ k.1 → k.1 < addr keys.1 + (c.blob keys).length →
        k ∈ (c.buildRun session keys).entries.keys ∧
        (c.buildRun session keys).entries.slot k =
          ((PageRuns.members keys).map fun key => (c.page key).entries.slot k).sum

/-- The pages of every processor are regular. -/
def PagesRegular : Prop := ∀ cpu, PageRuns.Regular addr c.size c.single (c.items cpu)

/-! ### The items of a processor -/

theorem mem_items {cpu : NdsCpu} {key : VersionKey Digest} :
    key ∈ c.items cpu ↔ key ∈ c.unresolved ∧ key.1 = cpu := by
  unfold items
  rw [List.mem_map]
  constructor
  · rintro ⟨k, hk, rfl⟩
    rw [Finset.mem_sort, Finset.mem_image] at hk
    obtain ⟨key, hkey, rfl⟩ := hk
    obtain ⟨hmem, rfl⟩ := Finset.mem_filter.mp hkey
    exact ⟨hmem, rfl⟩
  · rintro ⟨hmem, rfl⟩
    refine ⟨toLex key.2, ?_, rfl⟩
    rw [Finset.mem_sort, Finset.mem_image]
    exact ⟨key, Finset.mem_filter.mpr ⟨hmem, rfl⟩, rfl⟩

theorem items_sorted (cpu : NdsCpu) : PageRuns.Sorted addr c.single (c.items cpu) where
  order := by
    unfold items
    refine List.Pairwise.map _ (fun a b hlt => ?_) (Finset.sortedLT_sort _).pairwise
    rcases Prod.Lex.lt_iff.mp hlt with hless | hsame
    · exact hless.le
    · exact hsame.1.le
  nodup := by
    unfold items
    refine List.Nodup.map (fun a b hab => ?_) (Finset.sort_nodup _ _)
    exact ofLex.injective (Prod.mk.inj hab).2
  alone := fun x hx hsingle y hy haddr => by
    obtain ⟨hxmem, rfl⟩ := c.mem_items.mp hx
    obtain ⟨hymem, hcpu⟩ := c.mem_items.mp hy
    exact c.eq_of_single hxmem hymem hcpu haddr hsingle

/-! ### The runs -/

theorem mem_allRunKeys {keys : VersionKey Digest × List (VersionKey Digest)} :
    keys ∈ c.allRunKeys ↔ ∃ cpu, keys ∈ c.runKeys cpu := by
  unfold allRunKeys
  simp only [List.flatMap_cons, List.flatMap_nil, List.append_nil, List.mem_append]
  constructor
  · rintro (h | h)
    · exact ⟨_, h⟩
    · exact ⟨_, h⟩
  · rintro ⟨cpu, h⟩
    cases cpu with
    | arm9 => exact .inr h
    | arm7 => exact .inl h

theorem flatMap_members :
    c.allRunKeys.flatMap PageRuns.members = c.items .arm7 ++ c.items .arm9 := by
  unfold allRunKeys runKeys
  simp only [List.flatMap_cons, List.flatMap_nil, List.append_nil, List.flatMap_append,
    PageRuns.cut_flatten]

theorem once : (c.allRunKeys.flatMap PageRuns.members).Nodup ∧
    ∀ key, key ∈ c.allRunKeys.flatMap PageRuns.members ↔ key ∈ c.unresolved := by
  rw [flatMap_members]
  constructor
  · refine List.nodup_append.mpr ⟨(c.items_sorted _).nodup, (c.items_sorted _).nodup, ?_⟩
    rintro x hx _ hy rfl
    exact absurd ((c.mem_items.mp hx).2.symm.trans (c.mem_items.mp hy).2) (by decide)
  · intro key
    rw [List.mem_append, c.mem_items, c.mem_items]
    constructor
    · rintro (h | h)
      · exact h.1
      · exact h.1
    · intro h
      cases hcpu : key.1 with
      | arm9 => exact .inr ⟨h, rfl⟩
      | arm7 => exact .inl ⟨h, rfl⟩

variable {c} {keys : VersionKey Digest × List (VersionKey Digest)}

/-- A run lies in the items of its processor. -/
theorem cpu_of_mem_runKeys {cpu : NdsCpu} (hkeys : keys ∈ c.runKeys cpu)
    {key : VersionKey Digest} (hkey : key ∈ PageRuns.members keys) : key.1 = cpu :=
  (c.mem_items.mp (PageRuns.mem_of_inPlace (PageRuns.cut_inPlace _ _ hkeys) hkey)).2

theorem mem_runKeys (hkeys : keys ∈ c.allRunKeys) : keys ∈ c.runKeys keys.1.1 := by
  obtain ⟨cpu, hkeys⟩ := c.mem_allRunKeys.mp hkeys
  rwa [cpu_of_mem_runKeys hkeys List.mem_cons_self]

theorem joined (hkeys : keys ∈ c.allRunKeys) {before after : List (VersionKey Digest)}
    {x y : VersionKey Digest} (hmembers : PageRuns.members keys = before ++ x :: y :: after) :
    x.1 = y.1 ∧ c.versionCount x.1 (addr x) = 1 ∧ c.versionCount y.1 (addr y) = 1 := by
  have hrun := mem_runKeys hkeys
  obtain ⟨_, _, _, hinside, _⟩ := PageRuns.cut_inPlace _ _ hrun
  have hlink := PageRuns.link_iff.mp (hinside _ _ _ _ hmembers)
  have hx : x ∈ PageRuns.members keys := hmembers ▸ List.mem_append_right _ List.mem_cons_self
  have hy : y ∈ PageRuns.members keys :=
    hmembers ▸ List.mem_append_right _ (List.mem_cons_of_mem _ List.mem_cons_self)
  exact ⟨(cpu_of_mem_runKeys hrun hx).trans (cpu_of_mem_runKeys hrun hy).symm,
    of_decide_eq_true hlink.1, of_decide_eq_true hlink.2.2⟩

theorem RunsExact.regular {session : SlotMap CpuRootKey} (h : c.RunsExact session) :
    c.PagesRegular := by
  intro cpu
  refine (PageRuns.runs_exact_iff (c.items_sorted cpu)).mp fun keys hkeys => ?_
  have hall : keys ∈ c.allRunKeys := c.mem_allRunKeys.mpr ⟨cpu, hkeys⟩
  refine ⟨h.placed keys hall, ?_⟩
  have hmaximal := h.maximal keys hall
  rwa [cpu_of_mem_runKeys hkeys List.mem_cons_self] at hmaximal

variable (c) in
/-- The runs are exact if and only if the pages are regular. -/
theorem assembleRuns_exact (session : SlotMap CpuRootKey) :
    c.RunsExact session ↔ c.PagesRegular := by
  constructor
  · exact RunsExact.regular
  · intro h
    have hexact (keys) (hkeys : keys ∈ c.allRunKeys) :=
      (PageRuns.runs_exact_iff (c.items_sorted keys.1.1)).mpr (h keys.1.1) keys (mem_runKeys hkeys)
    exact
      { once := c.once
        joined := fun keys hkeys _ _ _ _ hmembers => joined hkeys hmembers
        placed := fun keys hkeys => (hexact keys hkeys).1
        bytes := fun keys hkeys _ hk => bytes_of_placed (hexact keys hkeys).1 hk
        maximal := fun keys hkeys => (hexact keys hkeys).2
        inside := fun _ _ _ hk => buildRun_inside session hk
        entries := fun _ _ _ hkey _ hk hlow hhigh =>
          buildRun_entries session hkey hk (inRun_iff.mpr ⟨hlow, hhigh⟩) }

variable (c) in
/-- Pages of one length at multiples of it are regular. -/
theorem pagesRegular_of_pageSize {pageSize : Nat}
    (hsize : ∀ key ∈ c.unresolved, c.size key = pageSize)
    (haddr : ∀ key ∈ c.unresolved, pageSize ∣ addr key) : c.PagesRegular := by
  intro cpu
  refine ⟨fun x hx y hy hxy z hz hbetween => ?_, fun w hw x hx _ _ _ _ _ _ _ => ?_⟩
  · obtain ⟨a, ha⟩ := haddr x (c.mem_items.mp hx).1
    obtain ⟨b, hb⟩ := haddr z (c.mem_items.mp hz).1
    have hmeets := hxy.meets
    rw [hsize x (c.mem_items.mp hx).1, ha, ← Nat.mul_succ] at hmeets
    rw [ha, hb, hmeets] at hbetween
    have hlow := Nat.lt_of_mul_lt_mul_left hbetween.1
    have hhigh := Nat.lt_of_mul_lt_mul_left hbetween.2
    omega
  · rw [hsize x (c.mem_items.mp hx).1, hsize w (c.mem_items.mp hw).1]

/-- Pages of 16, 8 and 16 bytes at 0, 16 and 32, each the only version there. -/
def mixedPages : CapturedVersions Nat where
  keys := {(.arm9, 0, 1), (.arm9, 16, 2), (.arm9, 32, 3)}
  page := fun key => ⟨List.replicate (if key.2.1 = 16 then 8 else 16) 0, ⟨∅, fun _ => 0, by simp⟩⟩
  unresolved := {(.arm9, 0, 1), (.arm9, 16, 2), (.arm9, 32, 3)}
  captured := subset_refl _

/-- The third page would lie at the offset 24 of the run. -/
theorem mixedPages_misplaced :
    ¬ mixedPages.RunsExact ⟨∅, fun _ => 0, fun _ _ => rfl⟩ := by
  intro h
  have hmem {key : VersionKey Nat} (hkey : key ∈ mixedPages.unresolved) (hcpu : key.1 = .arm9) :
      key ∈ mixedPages.items .arm9 := mixedPages.mem_items.mpr ⟨hkey, hcpu⟩
  have hnone : PageRuns.NoneBetween addr (mixedPages.items .arm9)
      (NdsCpu.arm9, 16, 2) (NdsCpu.arm9, 32, 3) := fun z hz => by
    have hall : ∀ z ∈ mixedPages.unresolved, ¬ (16 < addr z ∧ addr z < 32) := by decide
    exact hall z (mixedPages.mem_items.mp hz).1
  have hsame := (h.regular .arm9).even (NdsCpu.arm9, 0, 1) (hmem (by decide) rfl)
    (NdsCpu.arm9, 16, 2) (hmem (by decide) rfl) (NdsCpu.arm9, 32, 3) (hmem (by decide) rfl)
    ⟨by decide, by decide, by decide, by decide⟩ (by decide) (by decide) hnone (.inl (by decide))
  exact absurd hsame (by decide)

end CapturedVersions

end NdsRecomp.CoverageManifest
