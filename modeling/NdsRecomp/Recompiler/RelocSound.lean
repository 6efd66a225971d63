import NdsRecomp.Recompiler.RelocScan

/-!
The scan emits only true copies, one behind the other: the shadow bytes of a copy
lie outside the module and are bytes of the image, and its anchor is unique there.
-/

namespace NdsRecomp.Recompiler

/-- A sorted map has one byte for an address. -/
theorem Shadow.find_of_mem {shadow : Shadow} {addr : UInt32} {value : UInt8}
    (h : (addr, value) ∈ shadow.entries) : shadow.find addr = some value := by
  have hunique : ∀ e ∈ shadow.entries, e.1 = addr → e = (addr, value) := by
    intro e he heq
    obtain ⟨i, hi, rfl⟩ := List.mem_iff_getElem.mp he
    obtain ⟨j, hj, hentry⟩ := List.mem_iff_getElem.mp h
    have hsorted := List.pairwise_iff_getElem.mp shadow.sorted
    have hkey : shadow.entries[j].1 = addr := congrArg Prod.fst hentry
    rcases lt_trichotomy i j with hlt | rfl | hlt
    · exact absurd (heq.trans hkey.symm) (UInt32.ne_of_lt (hsorted i j hi hj hlt))
    · exact hentry
    · exact absurd (hkey.trans heq.symm) (UInt32.ne_of_lt (hsorted j i hj hi hlt))
  cases hfind : shadow.entries.find? (·.1 == addr) with
  | none =>
      have hnot := List.find?_eq_none.mp hfind _ h
      simp at hnot
  | some e =>
      have hkey : e.1 = addr := by simpa using List.find?_some hfind
      have heq := hunique e (List.mem_of_find?_eq_some hfind) hkey
      unfold Shadow.find
      rw [hfind, heq]
      rfl

/-! ### Regions -/

def Region.stop (region : Region) : Nat := region.start.toNat + region.bytes.length

/-- Every byte of the region was written, outside the module. -/
structure FromShadow (image : ModuleImage) (shadow : Shadow) (region : Region) : Prop where
  nonempty : 0 < region.bytes.length
  written : ∀ i < region.bytes.length, ∃ addr, addr.toNat = region.start.toNat + i ∧
    ¬ image.Spans addr ∧ (addr, region.byte i) ∈ shadow.entries

theorem FromShadow.single {image : ModuleImage} {shadow : Shadow} {addr : UInt32} {value : UInt8}
    (hout : ¬ image.Spans addr) (hmem : (addr, value) ∈ shadow.entries) :
    FromShadow image shadow ⟨addr, [value]⟩ := by
  refine ⟨Nat.one_pos, fun i hi => ?_⟩
  obtain rfl : i = 0 := Nat.lt_one_iff.mp hi
  exact ⟨addr, rfl, hout, hmem⟩

theorem FromShadow.extend {image : ModuleImage} {shadow : Shadow} {region : Region} {addr : UInt32}
    {value : UInt8} (h : FromShadow image shadow region) (haddr : addr.toNat = region.stop)
    (hout : ¬ image.Spans addr) (hmem : (addr, value) ∈ shadow.entries) :
    FromShadow image shadow { region with bytes := region.bytes ++ [value] } := by
  refine ⟨by simp, fun i hi => ?_⟩
  rw [List.length_append, List.length_singleton] at hi
  by_cases hold : i < region.bytes.length
  · have hsame : ({ region with bytes := region.bytes ++ [value] } : Region).byte i =
        region.byte i := by
      simp [Region.byte, List.getElem?_append_left hold]
    rw [hsame]
    exact h.written i hold
  · obtain rfl : i = region.bytes.length := by omega
    have hlast : ({ region with bytes := region.bytes ++ [value] } : Region).byte
        region.bytes.length = value := by simp [Region.byte]
    rw [hlast]
    exact ⟨addr, haddr, hout, hmem⟩

/-- Regions, newest first, each behind the ones before it. -/
structure Coalesced (image : ModuleImage) (shadow : Shadow) (regions : List Region) : Prop where
  fromShadow : ∀ region ∈ regions, FromShadow image shadow region
  apart : regions.Pairwise fun newer older => older.stop ≤ newer.start.toNat

theorem Coalesced.addByte {image : ModuleImage} {shadow : Shadow} {regions : List Region}
    {addr : UInt32} {value : UInt8} (h : Coalesced image shadow regions)
    (hbehind : ∀ region ∈ regions, region.stop ≤ addr.toNat)
    (hout : ¬ image.Spans addr) (hmem : (addr, value) ∈ shadow.entries) :
    Coalesced image shadow (addByte regions addr value) ∧
      ∀ region ∈ addByte regions addr value, region.stop ≤ addr.toNat + 1 := by
  unfold Recompiler.addByte
  cases regions with
  | nil =>
      refine ⟨⟨?_, List.pairwise_singleton _ _⟩, ?_⟩
      · simpa using FromShadow.single hout hmem
      · simp [Region.stop]
  | cons last rest =>
      obtain ⟨hlast, hrest⟩ := List.forall_mem_cons.mp h.fromShadow
      obtain ⟨hbefore, hpairs⟩ := List.pairwise_cons.mp h.apart
      dsimp only
      split
      · next haddr =>
          have hstop : ({ last with bytes := last.bytes ++ [value] } : Region).stop =
              addr.toNat + 1 := by
            unfold Region.stop
            rw [List.length_append, List.length_singleton, haddr]
            rfl
          refine ⟨⟨List.forall_mem_cons.mpr ⟨hlast.extend haddr hout hmem, hrest⟩,
            List.pairwise_cons.mpr ⟨hbefore, hpairs⟩⟩, List.forall_mem_cons.mpr
              ⟨hstop.le, fun region hregion => ?_⟩⟩
          exact (hbehind region (List.mem_cons_of_mem _ hregion)).trans (Nat.le_succ _)
      · refine ⟨⟨List.forall_mem_cons.mpr ⟨.single hout hmem, h.fromShadow⟩,
          List.pairwise_cons.mpr ⟨hbehind, h.apart⟩⟩, List.forall_mem_cons.mpr
            ⟨le_rfl, fun region hregion => ?_⟩⟩
        exact (hbehind region hregion).trans (Nat.le_succ _)

theorem Coalesced.coalesce {image : ModuleImage} {shadow : Shadow}
    (entries : List (UInt32 × UInt8)) {regions : List Region} (h : Coalesced image shadow regions)
    (hmem : ∀ e ∈ entries, e ∈ shadow.entries) (hsorted : entries.Pairwise (·.1 < ·.1))
    (hbehind : ∀ e ∈ entries, ∀ region ∈ regions, region.stop ≤ e.1.toNat) :
    Coalesced image shadow (coalesce image entries regions) := by
  induction entries generalizing regions with
  | nil => exact h
  | cons e entries ih =>
      obtain ⟨haddr, hrest⟩ := List.forall_mem_cons.mp hmem
      obtain ⟨hless, hpairs⟩ := List.pairwise_cons.mp hsorted
      obtain ⟨hfirst, hlater⟩ := List.forall_mem_cons.mp hbehind
      unfold Recompiler.coalesce
      split
      · exact ih h hrest hpairs hlater
      · next hout =>
          obtain ⟨hadded, hstop⟩ := h.addByte hfirst hout haddr
          refine ih hadded hrest hpairs fun f hf region hregion => ?_
          have hlt := UInt32.lt_iff_toNat_lt.mp (hless f hf)
          exact (hstop region hregion).trans hlt

theorem regionsOf_coalesced (image : ModuleImage) (shadow : Shadow) :
    (∀ region ∈ regionsOf image shadow, FromShadow image shadow region) ∧
      (regionsOf image shadow).Pairwise fun older newer => older.stop ≤ newer.start.toNat := by
  have hempty : Coalesced image shadow [] := ⟨fun _ h => (nomatch h), List.Pairwise.nil⟩
  have h := hempty.coalesce shadow.entries (fun _ => id) shadow.sorted fun _ _ _ h => (nomatch h)
  refine ⟨fun region hregion => h.fromShadow region (List.mem_reverse.mp hregion), ?_⟩
  exact List.pairwise_reverse.mpr h.apart

/-! ### Copies -/

/-- The offset a copy was found at. -/
def RelocCopy.sourceOffset (image : ModuleImage) (c : RelocCopy) : Nat :=
  (c.sourceStart - image.base).toNat

def RelocCopy.stop (c : RelocCopy) : Nat := c.runtimeStart.toNat + c.size.toNat

structure TrueCopy (image : ModuleImage) (shadow : Shadow) (c : RelocCopy) : Prop where
  size : kMinAnchor ≤ c.size.toNat
  source : c.sourceOffset image + c.size.toNat ≤ image.size
  /-- Outside the module the shadow has the bytes of the image. -/
  bytes : ∀ i < c.size.toNat, ∃ addr : UInt32, addr.toNat = c.runtimeStart.toNat + i ∧
    ¬ image.Spans addr ∧ shadow.find addr = some (image.byte (c.sourceOffset image + i))
  /-- The anchor occurs in the image nowhere else. -/
  unique : ∀ off, off + kMinAnchor ≤ image.size →
    (∀ i < kMinAnchor, image.byte (off + i) = image.byte (c.sourceOffset image + i)) →
      off = c.sourceOffset image

/-- True copies, each behind the ones before it, all before `bound`. -/
structure Emitted (image : ModuleImage) (shadow : Shadow) (bound : Nat)
    (copies : List RelocCopy) : Prop where
  trueCopy : ∀ c ∈ copies, TrueCopy image shadow c
  apart : copies.Pairwise fun a b => a.stop ≤ b.runtimeStart.toNat
  below : ∀ c ∈ copies, c.stop ≤ bound

theorem Emitted.mono {image : ModuleImage} {shadow : Shadow} {bound bound' : Nat}
    {copies : List RelocCopy} (h : Emitted image shadow bound copies) (hle : bound ≤ bound') :
    Emitted image shadow bound' copies :=
  ⟨h.trueCopy, h.apart, fun c hc => (h.below c hc).trans hle⟩

section Region

variable {image : ModuleImage} {shadow : Shadow} {region : Region}
  (hregion : FromShadow image shadow region)

include hregion

/-- The copy of a unique anchor. -/
theorem FromShadow.trueCopy {pos off : Nat} (hfits : pos + kMinAnchor ≤ region.bytes.length)
    (hanchor : AnchorAt image region pos off)
    (hunique : ∀ o, AnchorAt image region pos o → o = off) :
    TrueCopy image shadow ⟨region.start + UInt32.ofNat pos, image.base + UInt32.ofNat off,
        UInt32.ofNat (extendMatch image region pos off 0)⟩ ∧
      (region.start + UInt32.ofNat pos).toNat = region.start.toNat + pos ∧
      (UInt32.ofNat (extendMatch image region pos off 0)).toNat =
        extendMatch image region pos off 0 := by
  have hpos : pos < region.bytes.length := by
    unfold kMinAnchor at hfits
    omega
  obtain ⟨hagree, hregionEnd, himageEnd⟩ := extendMatch_agrees image region pos off 0
    (fun _ hi => (Nat.not_lt_zero _ hi).elim) hpos.le (by have hle := hanchor.1; omega)
  have hlong := kMinAnchor_le_extendMatch hanchor hfits
  generalize extendMatch image region pos off 0 = n at *
  have himage := image.size_lt
  have hstart : (region.start + UInt32.ofNat pos).toNat = region.start.toNat + pos := by
    obtain ⟨addr, haddr, -⟩ := hregion.written pos hpos
    have hlt := addr.toNat_lt
    rw [UInt32.toNat_add, UInt32.toNat_ofNat', Nat.mod_eq_of_lt (by omega), Nat.mod_eq_of_lt (by omega)]
  have hsize : (UInt32.ofNat n).toNat = n := by
    rw [UInt32.toNat_ofNat', Nat.mod_eq_of_lt (by omega)]
  have hsource : (image.base + UInt32.ofNat off - image.base).toNat = off := by
    rw [UInt32.add_comm, UInt32.add_sub_cancel, UInt32.toNat_ofNat', Nat.mod_eq_of_lt (by omega)]
  refine ⟨⟨?_, ?_, fun i hi => ?_, fun o ho hbytes => ?_⟩, hstart, hsize⟩
  · rw [hsize]
    exact hlong
  · unfold RelocCopy.sourceOffset
    rw [hsource, hsize]
    exact himageEnd
  · unfold RelocCopy.sourceOffset
    rw [hsize] at hi
    rw [hsource, hstart]
    obtain ⟨addr, haddr, hout, hmem⟩ := hregion.written (pos + i) (by omega)
    refine ⟨addr, by omega, hout, ?_⟩
    rw [← hagree i hi]
    exact Shadow.find_of_mem hmem
  · unfold RelocCopy.sourceOffset at hbytes ⊢
    rw [hsource] at hbytes ⊢
    exact hunique o ⟨ho, fun i hi => (hbytes i hi).trans (hanchor.2 i hi)⟩

theorem FromShadow.matchStep {s s' : MatchState}
    (hcopies : Emitted image shadow (region.start.toNat + s.pos) s.copies)
    (hpos : s.pos ≤ region.bytes.length) (hstep : matchStep image region s = some s') :
    Emitted image shadow (region.start.toNat + s'.pos) s'.copies ∧
      s'.pos ≤ region.bytes.length := by
  unfold Recompiler.matchStep at hstep
  split at hstep
  case isFalse => cases hstep
  next hgo =>
  have hslide : Emitted image shadow (region.start.toNat + (s.pos + 4)) s.copies ∧
      s.pos + 4 ≤ region.bytes.length := by
    have hle := hgo.1
    unfold kMinAnchor at hle
    exact ⟨hcopies.mono (by omega), by omega⟩
  obtain rfl := Option.some.inj hstep
  split
  · exact hslide
  dsimp only
  split
  · exact hslide
  next off hoff =>
  split
  · exact hslide
  next hnone =>
  obtain ⟨hanchor, hfirst⟩ := searchAnchor_some hoff
  have hunique (o : Nat) (ho : AnchorAt image region s.pos o) : o = off := by
    rcases lt_trichotomy o off with hlt | heq | hlt
    · exact absurd ho (hfirst o (Nat.zero_le o) hlt)
    · exact heq
    · exact absurd ho (searchAnchor_none hnone o hlt)
  obtain ⟨htrue, hstart, hsize⟩ := hregion.trueCopy hgo.1 hanchor hunique
  obtain ⟨-, hend, -⟩ := extendMatch_agrees image region s.pos off 0
    (fun _ hi => (Nat.not_lt_zero _ hi).elim) hpos (by have hle := hanchor.1; omega)
  refine ⟨⟨fun c hc => ?_, List.pairwise_append.mpr ⟨hcopies.apart, List.pairwise_singleton _ _,
    fun a ha b hb => ?_⟩, fun c hc => ?_⟩, hend⟩
  · rcases List.mem_append.mp hc with hold | hnew
    · exact hcopies.trueCopy c hold
    · rw [List.mem_singleton.mp hnew]
      exact htrue
  · rw [List.mem_singleton.mp hb, hstart]
    exact hcopies.below a ha
  · rcases List.mem_append.mp hc with hold | hnew
    · exact (hcopies.below c hold).trans (Nat.add_le_add_left (Nat.le_add_right _ _) _)
    · rw [List.mem_singleton.mp hnew]
      unfold RelocCopy.stop
      rw [hstart, hsize]
      exact (Nat.add_assoc _ _ _).le

theorem FromShadow.matchLoop {s : MatchState}
    (hcopies : Emitted image shadow (region.start.toNat + s.pos) s.copies)
    (hpos : s.pos ≤ region.bytes.length) :
    Emitted image shadow region.stop (matchLoop image region s).copies := by
  fun_induction Recompiler.matchLoop image region s with
  | case1 s hdone => exact hcopies.mono (Nat.add_le_add_left hpos _)
  | case2 s s' hstep ih =>
      obtain ⟨hnext, hle⟩ := hregion.matchStep hcopies hpos hstep
      exact ih hnext hle

end Region

/-- Regions in the order of their addresses emit copies in that order. -/
theorem foldl_matchRegion {image : ModuleImage} {shadow : Shadow} (regions : List Region)
    {bound : Nat} {scan : List RelocCopy × RelocScanStats}
    (hcopies : Emitted image shadow bound scan.1)
    (hregions : ∀ region ∈ regions, FromShadow image shadow region)
    (hbehind : ∀ region ∈ regions, bound ≤ region.start.toNat)
    (hapart : regions.Pairwise fun older newer => older.stop ≤ newer.start.toNat) :
    ∃ last, Emitted image shadow last (regions.foldl (matchRegion image) scan).1 := by
  induction regions generalizing bound scan with
  | nil => exact ⟨bound, hcopies⟩
  | cons region regions ih =>
      obtain ⟨hregion, hrest⟩ := List.forall_mem_cons.mp hregions
      obtain ⟨hafter, hpairs⟩ := List.pairwise_cons.mp hapart
      have hstart : bound ≤ region.start.toNat := hbehind region List.mem_cons_self
      have hdone : Emitted image shadow region.stop (matchRegion image scan region).1 :=
        hregion.matchLoop (hcopies.mono hstart) (Nat.zero_le _)
      exact ih hdone hrest hafter hpairs

theorem matchRegions_emits (image : ModuleImage) (shadow : Shadow) (stats : RelocScanStats) :
    (∀ c ∈ (matchRegions image shadow stats).1, TrueCopy image shadow c) ∧
      (matchRegions image shadow stats).1.Pairwise fun a b => a.stop ≤ b.runtimeStart.toNat := by
  obtain ⟨hregions, hapart⟩ := regionsOf_coalesced image shadow
  have hempty : Emitted image shadow 0 (([], { stats with
      regionsTotal := (regionsOf image shadow).length }) : List RelocCopy × RelocScanStats).1 :=
    ⟨fun _ h => (nomatch h), List.Pairwise.nil, fun _ h => (nomatch h)⟩
  obtain ⟨_, hemitted⟩ := foldl_matchRegion (regionsOf image shadow) hempty hregions
    (fun _ _ => Nat.zero_le _) hapart
  exact ⟨hemitted.trueCopy, hemitted.apart⟩

/-! ### The whole scan -/

section Scan

variable {Cpu Instr : Type} (interp : Interpreter Cpu Instr)

theorem execute_steps (left : Nat) (s : Execution Cpu) :
    (execute interp left s).steps ≤ s.steps + left := by
  induction left generalizing s with
  | zero => exact le_rfl
  | succ left ih =>
      unfold execute
      dsimp only
      split
      · split
        · exact Nat.le_add_right _ _
        · have hcounted (t : Execution Cpu) (ht : t.steps = s.steps + 1) :
              (execute interp left t).steps ≤ s.steps + (left + 1) := by
            have hle := ih t
            omega
          have hstopped : s.steps + 1 ≤ s.steps + (left + 1) := by omega
          split
          · exact hcounted _ rfl
          · exact hstopped
          · exact hstopped
          · exact hstopped
      · exact Nat.le_add_right _ _

theorem foldl_matchRegion_steps (image : ModuleImage) (regions : List Region)
    (scan : List RelocCopy × RelocScanStats) :
    (regions.foldl (matchRegion image) scan).2.steps = scan.2.steps := by
  induction regions generalizing scan with
  | nil => rfl
  | cons region regions ih =>
      rw [List.foldl_cons, ih]
      unfold matchRegion countRegion
      dsimp only
      split
      · rfl
      · split
        · rfl
        · rfl

end Scan

/-- For every image: whatever was written, the copies are true and their runtime
ranges follow one another; and whatever the interpreter does, the execution before
the match is over after `kMaxSteps` steps. -/
theorem scanRelocations_sound (image : ModuleImage) :
    (∀ shadow stats, (∀ c ∈ (matchRegions image shadow stats).1, TrueCopy image shadow c) ∧
      (matchRegions image shadow stats).1.Pairwise fun a b => a.stop ≤ b.runtimeStart.toNat) ∧
      ∀ {Cpu Instr : Type} (interp : Interpreter Cpu Instr) (entryPc : UInt32),
        (∃ shadow stats, scanRelocations interp image entryPc = matchRegions image shadow stats) ∧
          (scanRelocations interp image entryPc).2.steps ≤ kMaxSteps := by
  refine ⟨matchRegions_emits image, fun interp entryPc => ⟨⟨_, _, rfl⟩, ?_⟩⟩
  have hsteps := execute_steps interp kMaxSteps
    { cpu := interp.reset (entryPc &&& 1 != 0) (entryPc &&& ~~~1), bus := { image } }
  rw [Nat.zero_add] at hsteps
  unfold scanRelocations matchRegions
  dsimp only
  rw [foldl_matchRegion_steps]
  exact hsteps

end NdsRecomp.Recompiler
