import NdsRecomp.Coverage.RootBitmaps
import NdsRecomp.Library.StrideRuns
import Mathlib.Data.Finset.Sort

/-!
`hot_ranges` and `select_span_seeds`: the interpreted addresses of a processor
and a mode are cut into runs of consecutive instructions, and the start of each
run that was hit often enough becomes a seed.

A dictionary is a finite set of keys with a function. A start is printed in
hexadecimal and read back; it is kept as a number.
-/

namespace NdsRecomp.CoverageManifest

open Library

/-- What one processor interpreted. -/
structure InterpretedMap where
  keys : Finset (Nat × RootMode)
  hits : Nat × RootMode → Nat

/-- The addresses are those of instructions. -/
def InterpretedMap.Aligned (map : InterpretedMap) : Prop :=
  ∀ key ∈ map.keys, key.1 % key.2.stride = 0

structure HotSpan where
  start : Nat
  stop : Nat
  bytes : Nat
  mode : RootMode
  entries : Nat
deriving DecidableEq

/-- The instructions of a span. -/
def HotSpan.addrs (s : HotSpan) : List Nat :=
  (List.range (s.bytes / s.mode.stride)).map fun k => s.start + k * s.mode.stride

namespace InterpretedMap

/-- `sorted(a for a, m in hits if m == mode)`. -/
def addrs (map : InterpretedMap) (mode : RootMode) : List Nat :=
  ((map.keys.filter fun key => key.2 = mode).image Prod.fst).sort (· ≤ ·)

def weight (map : InterpretedMap) (mode : RootMode) (addr : Nat) : Nat := map.hits (addr, mode)

/-- `_span`. -/
def span (mode : RootMode) (s : StrideRuns.Span) : HotSpan where
  start := s.start
  stop := s.last + mode.stride
  bytes := s.last + mode.stride - s.start
  mode := mode
  entries := s.total

/-- The spans of one mode, in the order of their addresses. -/
def modeSpans (map : InterpretedMap) (mode : RootMode) : List HotSpan :=
  (StrideRuns.cut mode.stride (map.weight mode) (map.addrs mode)).map (span mode)

/-- `sorted({mode for _addr, mode in hits})`. -/
def modes (map : InterpretedMap) : List RootMode :=
  [.arm, .thumb].filter fun mode => decide (mode ∈ map.keys.image Prod.snd)

/-- The order of the key `(-entries, start)`. -/
def spanLe (a b : HotSpan) : Bool :=
  decide (b.entries < a.entries) || decide (a.entries = b.entries) && decide (a.start ≤ b.start)

def spans (map : InterpretedMap) : List HotSpan :=
  (map.modes.flatMap map.modeSpans).mergeSort spanLe

end InterpretedMap

/-- A processor's number with its value. -/
abbrev PerCpu (α : Type) := List (Nat × α)

def hotRanges (interpreted : PerCpu InterpretedMap) : PerCpu (List HotSpan) :=
  interpreted.map fun entry => (entry.1, entry.2.spans)

structure SpanStats where
  spans : Nat
  spansAboveMinHits : Nat
  spansPromoted : Nat
  entriesPromoted : Nat
  entriesTotal : Nat
deriving DecidableEq

/-- A seed: processor, start and mode. -/
abbrev SeedKey := Nat × Nat × RootMode

def addSeed (cpu : Nat) (seeds : SeedKey → Option Nat) (s : HotSpan) : SeedKey → Option Nat :=
  Function.update seeds (cpu, s.start, s.mode)
    (some ((seeds (cpu, s.start, s.mode)).getD 0 + s.entries))

def qualifying (minHits : Nat) (spans : List HotSpan) : List HotSpan :=
  spans.filter fun s => minHits ≤ s.entries

def chosen (minHits : Nat) (limit : Int) (spans : List HotSpan) : List HotSpan :=
  if 0 < limit then (qualifying minHits spans).take limit.toNat else qualifying minHits spans

def spanStats (promote : Bool) (minHits : Nat) (limit : Int) (spans : List HotSpan) :
    SpanStats where
  spans := spans.length
  spansAboveMinHits := (qualifying minHits spans).length
  spansPromoted := if promote then (chosen minHits limit spans).length else 0
  entriesPromoted := if promote then ((chosen minHits limit spans).map HotSpan.entries).sum else 0
  entriesTotal := (spans.map HotSpan.entries).sum

/-- The names `arm7` and `arm9` are in the order of the numbers. -/
def selectSpanSeeds (hot : PerCpu (List HotSpan)) (promote : Bool) (minHits : Nat) (limit : Int) :
    (SeedKey → Option Nat) × PerCpu SpanStats :=
  let hot := hot.mergeSort fun a b => a.1 ≤ b.1
  (hot.foldl
    (fun seeds entry =>
      if promote then (chosen minHits limit entry.2).foldl (addSeed entry.1) seeds else seeds)
    fun _ => none,
    hot.map fun entry => (entry.1, spanStats promote minHits limit entry.2))

/-! ### Spans -/

namespace InterpretedMap

variable (map : InterpretedMap) (mode : RootMode)

theorem mem_addrs {addr : Nat} : addr ∈ map.addrs mode ↔ (addr, mode) ∈ map.keys := by
  unfold addrs
  rw [Finset.mem_sort, Finset.mem_image]
  constructor
  · rintro ⟨key, hkey, rfl⟩
    obtain ⟨hmem, rfl⟩ := Finset.mem_filter.mp hkey
    exact hmem
  · exact fun hmem => ⟨(addr, mode), Finset.mem_filter.mpr ⟨hmem, rfl⟩, rfl⟩

theorem addrs_sorted : (map.addrs mode).Pairwise (· < ·) := (Finset.sortedLT_sort _).pairwise

variable {map} in
theorem Aligned.addrs (h : map.Aligned) : ∀ addr ∈ map.addrs mode, addr % mode.stride = 0 :=
  fun _ haddr => h _ ((map.mem_addrs mode).mp haddr)

/-- A maximal run of consecutive instructions of a mode. -/
def IsRun (start n : Nat) : Prop :=
  StrideRuns.IsRun mode.stride (fun addr => (addr, mode) ∈ map.keys) start n

/-- The span of a run of `n` instructions. -/
def runSpan (start n : Nat) : HotSpan where
  start := start
  stop := start + n * mode.stride
  bytes := n * mode.stride
  mode := mode
  entries := ((List.range n).map fun k => map.hits (start + k * mode.stride, mode)).sum

theorem span_spanOf {start n : Nat} (hn : 0 < n) :
    span mode (StrideRuns.spanOf mode.stride (map.weight mode) start n) =
      map.runSpan mode start n := by
  have hstop : start + (n - 1) * mode.stride + mode.stride = start + n * mode.stride := by
    rw [Nat.add_assoc, ← Nat.succ_mul, Nat.succ_eq_add_one, Nat.sub_add_cancel hn]
  unfold span StrideRuns.spanOf runSpan
  dsimp only
  rw [hstop, Nat.add_sub_cancel_left, StrideRuns.block, List.map_map]
  rfl

theorem modeSpans_mode {s : HotSpan} (h : s ∈ map.modeSpans mode) : s.mode = mode := by
  obtain ⟨_, _, rfl⟩ := List.mem_map.mp h
  rfl

section Aligned

variable {map} (h : map.Aligned)

include h

theorem mem_modeSpans {s : HotSpan} :
    s ∈ map.modeSpans mode ↔ ∃ start n, map.IsRun mode start n ∧ s = map.runSpan mode start n := by
  have hcut := (StrideRuns.cut_spec (map.weight mode) (stride_pos mode) (map.addrs_sorted mode)
    (h.addrs mode)).congr fun addr => map.mem_addrs mode
  unfold modeSpans
  rw [List.mem_map]
  constructor
  · rintro ⟨piece, hpiece, rfl⟩
    obtain ⟨start, n, hrun, rfl⟩ := (hcut.mem piece).mp hpiece
    exact ⟨start, n, hrun, map.span_spanOf mode hrun.pos⟩
  · rintro ⟨start, n, hrun, rfl⟩
    exact ⟨_, (hcut.mem _).mpr ⟨start, n, hrun, rfl⟩, map.span_spanOf mode hrun.pos⟩

theorem spans_perm : map.spans.Perm (map.modeSpans .arm ++ map.modeSpans .thumb) := by
  have habsent (mode : RootMode) (hmode : mode ∉ map.keys.image Prod.snd) :
      map.modeSpans mode = [] := by
    rw [List.eq_nil_iff_forall_not_mem]
    intro s hs
    obtain ⟨start, n, hrun, _⟩ := (mem_modeSpans mode h).mp hs
    exact hmode (Finset.mem_image.mpr ⟨_, hrun.inside 0 hrun.pos, rfl⟩)
  refine (List.mergeSort_perm _ _).trans (.of_eq ?_)
  unfold modes
  by_cases harm : RootMode.arm ∈ map.keys.image Prod.snd <;>
    by_cases hthumb : RootMode.thumb ∈ map.keys.image Prod.snd
  · simp only [List.filter, harm, hthumb, decide_true, List.flatMap_cons, List.flatMap_nil,
      List.append_nil]
  · simp only [List.filter, harm, hthumb, decide_true, decide_false, List.flatMap_cons,
      List.flatMap_nil, habsent _ hthumb]
  · simp only [List.filter, harm, hthumb, decide_true, decide_false, List.flatMap_cons,
      List.flatMap_nil, List.append_nil, habsent _ harm, List.nil_append]
  · simp only [List.filter, harm, hthumb, decide_false, List.flatMap_nil, habsent _ harm,
      habsent _ hthumb, List.append_nil]

theorem mem_spans {s : HotSpan} :
    s ∈ map.spans ↔ ∃ start n, map.IsRun s.mode start n ∧ s = map.runSpan s.mode start n := by
  rw [(spans_perm h).mem_iff, List.mem_append]
  constructor
  · rintro (hs | hs) <;> rw [map.modeSpans_mode _ hs] <;> exact (mem_modeSpans _ h).mp hs
  · intro hs
    rw [← mem_modeSpans _ h] at hs
    cases hmode : s.mode with
    | arm => exact .inl (hmode ▸ hs)
    | thumb => exact .inr (hmode ▸ hs)

theorem modeSpans_nodup : ((map.modeSpans mode).map HotSpan.start).Nodup := by
  have hstarts := StrideRuns.cut_starts_nodup (map.weight mode) (stride_pos mode) (map.addrs_sorted mode)
    (h.addrs mode)
  unfold modeSpans
  rw [List.map_map]
  exact hstarts

/-- No two spans have one start and one mode. -/
theorem spans_nodup : (map.spans.map fun s => (s.start, s.mode)).Nodup := by
  have hone (mode : RootMode) : ((map.modeSpans mode).map fun s => (s.start, s.mode)).Nodup := by
    refine .of_map Prod.fst ?_
    rw [List.map_map]
    exact modeSpans_nodup mode h
  rw [((spans_perm h).map _).nodup_iff, List.map_append]
  refine (hone .arm).append (hone .thumb) ?_
  intro key harm hthumb
  obtain ⟨s, hs, rfl⟩ := List.mem_map.mp harm
  obtain ⟨t, ht, heq⟩ := List.mem_map.mp hthumb
  have hmode := (Prod.mk.inj heq).2
  rw [map.modeSpans_mode _ hs, map.modeSpans_mode _ ht] at hmode
  cases hmode

theorem modeSpans_flatMap : (map.modeSpans mode).flatMap HotSpan.addrs = map.addrs mode := by
  have hcut := StrideRuns.cut_spec (map.weight mode) (stride_pos mode) (map.addrs_sorted mode)
    (h.addrs mode)
  unfold modeSpans
  rw [List.flatMap_map]
  refine Eq.trans (List.flatMap_congr fun piece hpiece => ?_) hcut.members
  obtain ⟨start, n, hrun, rfl⟩ := (hcut.mem piece).mp hpiece
  rw [map.span_spanOf mode hrun.pos, StrideRuns.members_spanOf _ (stride_pos mode) start hrun.pos]
  unfold HotSpan.addrs runSpan StrideRuns.block
  dsimp only
  rw [Nat.mul_div_cancel n (stride_pos mode)]

/-- The spans of a mode hold each of its addresses once. -/
theorem spans_partition :
    ((map.spans.filter fun s => s.mode = mode).flatMap HotSpan.addrs).Perm (map.addrs mode) := by
  have hfilter (m : RootMode) : (map.modeSpans m).filter (fun s => s.mode = mode) =
      if m = mode then map.modeSpans m else [] := by
    by_cases hm : m = mode
    · rw [if_pos hm, List.filter_eq_self]
      intro s hs
      rw [map.modeSpans_mode m hs, hm, decide_eq_true rfl]
    · rw [if_neg hm, List.filter_eq_nil_iff]
      intro s hs
      rw [map.modeSpans_mode m hs, decide_eq_true_eq]
      exact hm
  refine (((spans_perm h).filter _).flatMap_right _).trans (.of_eq ?_)
  rw [List.filter_append, hfilter, hfilter, ← modeSpans_flatMap mode h]
  cases mode <;> simp

end Aligned

end InterpretedMap

/-! ### Seeds -/

theorem foldl_addSeed (cpu : Nat) (spans : List HotSpan)
    (hnodup : (spans.map fun s => (s.start, s.mode)).Nodup) (seeds : SeedKey → Option Nat)
    (hfresh : ∀ s ∈ spans, seeds (cpu, s.start, s.mode) = none) (key : SeedKey) (total : Nat) :
    spans.foldl (addSeed cpu) seeds key = some total ↔
      seeds key = some total ∨ ∃ s ∈ spans, key = (cpu, s.start, s.mode) ∧ s.entries = total := by
  induction spans generalizing seeds with
  | nil => simp
  | cons s spans ih =>
      rw [List.map_cons, List.nodup_cons] at hnodup
      have hother (t : HotSpan) (ht : t ∈ spans) :
          (cpu, t.start, t.mode) ≠ (cpu, s.start, s.mode) :=
        fun heq => hnodup.1 (List.mem_map.mpr ⟨t, ht, (Prod.mk.inj heq).2⟩)
      have hnone := hfresh s List.mem_cons_self
      rw [List.foldl_cons, ih hnodup.2 _ fun t ht => by
        rw [addSeed, Function.update_of_ne (hother t ht)]
        exact hfresh t (List.mem_cons_of_mem _ ht)]
      simp only [List.mem_cons, exists_eq_or_imp]
      by_cases hkey : key = (cpu, s.start, s.mode)
      · rw [hkey, addSeed, Function.update_self, hnone, Option.getD_none, Nat.zero_add]
        simp
      · rw [addSeed, Function.update_of_ne hkey]
        simp [hkey]

theorem foldl_cpus (minHits : Nat) (limit : Int) (hot : PerCpu (List HotSpan))
    (hcpus : (hot.map Prod.fst).Nodup)
    (hspans : ∀ entry ∈ hot, (entry.2.map fun s => (s.start, s.mode)).Nodup)
    (seeds : SeedKey → Option Nat) (hfresh : ∀ key, key.1 ∈ hot.map Prod.fst → seeds key = none)
    (key : SeedKey) (total : Nat) :
    hot.foldl (fun seeds entry =>
        if true then (chosen minHits limit entry.2).foldl (addSeed entry.1) seeds else seeds) seeds
        key = some total ↔
      seeds key = some total ∨ ∃ entry ∈ hot, ∃ s ∈ chosen minHits limit entry.2,
        key = (entry.1, s.start, s.mode) ∧ s.entries = total := by
  induction hot generalizing seeds with
  | nil => simp
  | cons entry hot ih =>
      rw [List.map_cons, List.nodup_cons] at hcpus
      have hsub : (chosen minHits limit entry.2).Sublist entry.2 := by
        unfold chosen
        split
        · exact (List.take_sublist _ _).trans List.filter_sublist
        · exact List.filter_sublist
      have hstep := foldl_addSeed entry.1 (chosen minHits limit entry.2)
        ((hsub.map _).nodup (hspans entry List.mem_cons_self)) seeds
        fun s _ => hfresh _ List.mem_cons_self
      rw [List.foldl_cons, if_pos rfl, ih hcpus.2
        (fun other hother => hspans other (List.mem_cons_of_mem _ hother)) _ fun key' hkey' => ?_,
        hstep, or_assoc]
      · simp only [List.mem_cons, exists_eq_or_imp]
      · rw [Option.eq_none_iff_forall_ne_some]
        intro value hvalue
        obtain hold | ⟨s, _, rfl, _⟩ := (hstep key' value).mp hvalue
        · rw [hfresh key' (List.mem_cons_of_mem _ hkey')] at hold
          cases hold
        · exact hcpus.1 hkey'

/-- Without a limit the seeds are the starts of the runs that were hit often
enough, each with the hits of its run. -/
theorem selectSpanSeeds_spec {interpreted : PerCpu InterpretedMap}
    (hcpus : (interpreted.map Prod.fst).Nodup)
    (haligned : ∀ entry ∈ interpreted, entry.2.Aligned) (minHits : Nat) {limit : Int} (hlimit : limit ≤ 0)
    (cpu start : Nat) (mode : RootMode) (total : Nat) :
    (selectSpanSeeds (hotRanges interpreted) true minHits limit).1 (cpu, start, mode) = some total ↔
      ∃ map, (cpu, map) ∈ interpreted ∧ ∃ n, map.IsRun mode start n ∧
        (map.runSpan mode start n).entries = total ∧ minHits ≤ total := by
  have hperm : ((hotRanges interpreted).mergeSort fun a b => a.1 ≤ b.1).Perm
      (hotRanges interpreted) := List.mergeSort_perm _ _
  have hfst : (hotRanges interpreted).map Prod.fst = interpreted.map Prod.fst := by
    unfold hotRanges
    rw [List.map_map]
    rfl
  have hchosen (spans : List HotSpan) (s : HotSpan) :
      s ∈ chosen minHits limit spans ↔ s ∈ spans ∧ minHits ≤ s.entries := by
    rw [chosen, if_neg (Int.not_lt.mpr hlimit), qualifying, List.mem_filter, decide_eq_true_eq]
  have hmem (entry : Nat × List HotSpan) : entry ∈ hotRanges interpreted ↔
      ∃ map, (entry.1, map) ∈ interpreted ∧ entry.2 = map.spans := by
    unfold hotRanges
    rw [List.mem_map]
    constructor
    · rintro ⟨⟨cpu, map⟩, hmap, rfl⟩
      exact ⟨map, hmap, rfl⟩
    · rintro ⟨map, hmap, hspans⟩
      exact ⟨_, hmap, Prod.ext rfl hspans.symm⟩
  have hfold := foldl_cpus minHits limit ((hotRanges interpreted).mergeSort fun a b => a.1 ≤ b.1)
    ((hperm.map _).nodup_iff.mpr (hfst ▸ hcpus))
    (fun entry hentry => by
      obtain ⟨map, hmap, hspans⟩ := (hmem entry).mp (hperm.mem_iff.mp hentry)
      rw [hspans]
      exact InterpretedMap.spans_nodup (haligned _ hmap))
    (fun _ => none) (fun _ _ => rfl) (cpu, start, mode) total
  unfold selectSpanSeeds
  dsimp only
  rw [hfold]
  constructor
  · rintro (hnone | ⟨entry, hentry, s, hs, hkey, rfl⟩)
    · cases hnone
    · obtain ⟨map, hmap, hspans⟩ := (hmem entry).mp (hperm.mem_iff.mp hentry)
      obtain ⟨hmemSpan, hhits⟩ := (hchosen _ _).mp hs
      rw [hspans] at hmemSpan
      obtain ⟨first, n, hrun, heq⟩ := (InterpretedMap.mem_spans (haligned _ hmap)).mp hmemSpan
      obtain ⟨rfl, hrest⟩ := Prod.mk.inj hkey
      obtain ⟨rfl, rfl⟩ := Prod.mk.inj hrest
      have hstart : s.start = first := by rw [heq]; rfl
      rw [← hstart] at hrun heq
      exact ⟨map, hmap, n, hrun, by rw [← heq], hhits⟩
  · rintro ⟨map, hmap, n, hrun, rfl, hhits⟩
    exact .inr ⟨(cpu, map.spans), hperm.mem_iff.mpr ((hmem _).mpr ⟨map, hmap, rfl⟩),
      map.runSpan mode start n,
      (hchosen _ _).mpr ⟨(InterpretedMap.mem_spans (haligned _ hmap)).mpr ⟨start, n, hrun, rfl⟩,
        hhits⟩, rfl, rfl⟩

/-! ### Bitmaps and spans -/

/-- The first instruction of a page, and the first of its second block. -/
def firstRoot : RootNote := ⟨.arm, 0, by decide, by decide⟩

def blockRoot : RootNote := ⟨.arm, 256, by decide, by decide⟩

/-- As often as a counter half filled, each. -/
def wrappingRoots : List RootNote :=
  List.replicate (2 ^ 63) firstRoot ++ List.replicate (2 ^ 63) blockRoot

end NdsRecomp.CoverageManifest
