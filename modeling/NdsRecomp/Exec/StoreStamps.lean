import NdsRecomp.Library.StampedPages
import NdsRecomp.Exec.SeenPage

/-!
Page generations as stamps on the physical pages. A store advances the
generation of every page whose code bytes it changes; a store to video memory
may do so in all nine banks at once. A generation comes round only after
2^32 - 1 advances, so one store never hides from a reader that noted it.
-/

namespace NdsRecomp.Exec

open Library Bus Video

/-- The generation and the code bytes of every physical page. -/
def pageStamps : Stamped Memories PhysPage UInt32 (Fin 4096 → Option UInt8) where
  stamp := Memories.stamp
  content := Memories.codePage

/-! ### Generations -/

/-- Where a generation stands in the cycle 1, 2, ..., 2^32 - 1; zero stands
where the last does. -/
private def position (generation : UInt32) : Nat := (generation.toNat + 4294967294) % 4294967295

private theorem position_bump (generation : UInt32) :
    position (bumpGeneration generation) = (position generation + 1) % 4294967295 := by
  have hlt := generation.toNat_lt
  have hsum : (generation + 1).toNat = (generation.toNat + 1) % 4294967296 := by
    rw [UInt32.toNat_add, UInt32.toNat_one]
  unfold position bumpGeneration
  by_cases hzero : generation + 1 = 0
  · have hlast : generation.toNat = 4294967295 := by
      rw [hzero, UInt32.toNat_zero] at hsum
      omega
    simp [hzero, hlast]
  · have hnonzero : (generation + 1).toNat ≠ 0 := fun h => hzero (UInt32.toNat_inj.mp h)
    rw [if_neg (by simpa using hzero)]
    omega

private theorem position_iterate (n : Nat) (generation : UInt32) :
    position (bumpGeneration^[n] generation) = (position generation + n) % 4294967295 := by
  induction n with
  | zero => simp [position]
  | succ n ih =>
      rw [Function.iterate_succ_apply', position_bump, ih]
      omega

/-- Fewer than 2^32 - 1 advances do not bring a generation back. -/
theorem bump_iterate_ne {n : Nat} (hpos : 0 < n) (hn : n < 4294967295) (generation : UInt32) :
    bumpGeneration^[n] generation ≠ generation := by
  intro hsame
  have hposition := position_iterate n generation
  have hbound : position generation < 4294967295 := Nat.mod_lt _ (by decide)
  rw [hsame] at hposition
  omega

theorem honest_of_advances {k : Nat} (hk : k < 4294967295) {m m' : Memories}
    (h : pageStamps.Advances bumpGeneration k m m') : pageStamps.Honest m m' :=
  h.honest fun _ generation hpos hn => bump_iterate_ne hpos (lt_of_le_of_lt hn hk) generation

/-- Changing only the maps changes no page. -/
theorem honest_of_remap {m m' : Memories} (hmem : m'.mem = m.mem)
    (hvram : m'.vram.vram = m.vram.vram) (hwritten : m'.vram.written = m.vram.written) :
    pageStamps.Honest m m' := by
  intro page _
  funext i
  change m'.codeByte page i = m.codeByte page i
  have hraw : m'.rawByte page i = m.rawByte page i := by
    cases page with
    | ram backing page => simp only [Memories.rawByte, hmem]
    | vram page => simp only [Memories.rawByte, hvram]
    | unmapped => rfl
  have hmark : m'.isWritten page i = m.isWritten page i := by
    cases page with
    | ram backing page => simp only [Memories.isWritten, hmem]
    | vram page => simp only [Memories.isWritten, hwritten]
    | unmapped => rfl
  unfold Memories.codeByte
  rw [hraw, hmark]

/-! ### Stores to directly addressed memory -/

/-- The pages `note_ram_write` advances, first and last. -/
def firstPage (p : BackingPtr) : Nat := p.offset >>> execPageShift

def lastPage (p : BackingPtr) (width : Nat) : Nat :=
  min ((p.offset + width - 1) >>> execPageShift) (p.backing.size / execPageSize - 1)

/-- The memories between the two halves of `note_ram_write`: stored and
advanced, not yet marked. -/
def advancedMemory (mem : BusMemory) (p : BackingPtr) (width : Width) (value : UInt32) :
    BusMemory :=
  (mem.store p width value).bumpPages p.backing (firstPage p) (lastPage p width.bytes)

/-- What a store through a pointer leaves in the memories. -/
def ramStore (mem : BusMemory) (p : BackingPtr) (width : Width) (value : UInt32) : BusMemory :=
  if p.backing.tracked then
    (advancedMemory mem p width value).markWritten p
      (min p.backing.size (p.offset + width.bytes) - p.offset)
  else mem.store p width value

/-- A byte a store leaves alone lies in no stored position. -/
private theorem outside_of_page {p : BackingPtr} {n page i : Nat} (hi : i < 4096)
    (hfits : p.offset + n ≤ p.backing.size)
    (houtside : ¬ (firstPage p ≤ page ∧ page ≤ lastPage p n)) :
    ¬ (p.offset ≤ 4096 * page + i ∧ 4096 * page + i < p.offset + n) := by
  rintro ⟨hlow, hhigh⟩
  refine houtside ⟨?_, ?_⟩
  · change p.offset >>> 12 ≤ page
    rw [Nat.shiftRight_eq_div_pow]
    omega
  · have hsize : p.backing.size % 4096 = 0 := by cases p.backing <;> rfl
    refine le_min ?_ ?_
    · change page ≤ (p.offset + n - 1) >>> 12
      rw [Nat.shiftRight_eq_div_pow]
      omega
    · change page ≤ p.backing.size / 4096 - 1
      omega

theorem ramStore_advances (m : Memories) {p : BackingPtr} {width : Width} (value : UInt32)
    (hfits : p.offset + width.bytes ≤ p.backing.size) :
    pageStamps.Advances bumpGeneration 1 m { m with mem := ramStore m.mem p width value } := by
  intro page
  cases page with
  | unmapped => exact ⟨0, by decide, rfl, fun _ => rfl⟩
  | vram page => exact ⟨0, by decide, rfl, fun _ => rfl⟩
  | ram backing page =>
      by_cases hbacking : backing = p.backing
      · subst hbacking
        by_cases htracked : p.backing.tracked = true
        · by_cases hpage : firstPage p ≤ page ∧ page ≤ lastPage p width.bytes
          · refine ⟨1, le_rfl, ?_, fun h => absurd h (by decide)⟩
            simp [pageStamps, Memories.stamp, ramStore, htracked, advancedMemory,
              BusMemory.markWritten, BusMemory.bumpPages, BusMemory.store, hpage]
          · refine ⟨0, by decide, ?_, fun _ => ?_⟩
            · simp [pageStamps, Memories.stamp, ramStore, htracked, advancedMemory,
                BusMemory.markWritten, BusMemory.bumpPages, BusMemory.store, hpage]
            · funext i
              have houtside := outside_of_page i.isLt hfits hpage
              have hmarked : min p.backing.size (p.offset + width.bytes) - p.offset =
                  width.bytes := by omega
              simp [pageStamps, Memories.codePage, Memories.codeByte, Memories.isWritten,
                Memories.rawByte, ramStore, htracked, advancedMemory, BusMemory.markWritten,
                BusMemory.bumpPages, BusMemory.store, fillRange, hmarked, houtside]
        · refine ⟨0, by decide, ?_, fun _ => ?_⟩
          · simp [pageStamps, Memories.stamp, htracked]
          · funext i
            simp [pageStamps, Memories.codePage, Memories.codeByte, Memories.isWritten, htracked]
      · refine ⟨0, by decide, ?_, fun _ => ?_⟩
        · simp only [pageStamps, Memories.stamp, ramStore, Function.iterate_zero, id_eq]
          split
          · split
            · simp [advancedMemory, BusMemory.markWritten, BusMemory.bumpPages, BusMemory.store,
                hbacking]
            · rfl
          · rfl
        · funext i
          simp only [pageStamps, Memories.codePage, Memories.codeByte, Memories.isWritten,
            Memories.rawByte, ramStore]
          split
          · simp [advancedMemory, BusMemory.markWritten, BusMemory.bumpPages, BusMemory.store,
              hbacking]
          · simp [BusMemory.store, hbacking]

/-! ### Stores to video memory -/

/-- The banks' bytes, write marks and generations; the maps that go with them
do not matter. -/
def Memories.withVram (m : Memories) (vram : VramState) : Memories := { m with vram }

theorem storePhysical_advances (m : Memories) (physical : Nat) (value : UInt32) (width : Width) :
    pageStamps.Advances bumpGeneration 1 m
      (m.withVram (m.vram.storePhysical physical value width)) := by
  have hpos : 0 < width.bytes := by cases width <;> decide
  intro page
  cases page with
  | unmapped => exact ⟨0, by decide, rfl, fun _ => rfl⟩
  | ram backing page => exact ⟨0, by decide, rfl, fun _ => rfl⟩
  | vram page =>
      let last := min kTotalVram (physical + width.bytes)
      by_cases hpage : physical >>> execPageShift ≤ page ∧ page ≤ (last - 1) >>> execPageShift
      · refine ⟨1, le_rfl, ?_, fun h => absurd h (by decide)⟩
        exact if_pos hpage
      · refine ⟨0, by decide, if_neg hpage, fun _ => ?_⟩
        funext i
        have hi := i.isLt
        have houtside : 4096 * page + i.val < kTotalVram →
            ¬ (physical ≤ 4096 * page + i.val ∧ 4096 * page + i.val < physical + width.bytes) := by
          rintro htotal ⟨hlow, hhigh⟩
          refine hpage ⟨?_, ?_⟩
          · change physical >>> 12 ≤ page
            rw [Nat.shiftRight_eq_div_pow]
            omega
          · change page ≤ (min kTotalVram (physical + width.bytes) - 1) >>> 12
            rw [Nat.shiftRight_eq_div_pow]
            omega
        change Memories.codeByte _ _ _ = Memories.codeByte _ _ _
        by_cases htotal : 4096 * page + i.val < kTotalVram
        · have hmarked : ¬ (physical ≤ 4096 * page + i.val ∧
              4096 * page + i.val < physical + (last - physical)) := by
            have := houtside htotal
            omega
          have hbyte : (m.withVram (m.vram.storePhysical physical value width)).rawByte
              (.vram page) i = m.rawByte (.vram page) i := if_neg (houtside htotal)
          have hmark : (m.vram.storePhysical physical value width).written (4096 * page + i) =
              m.vram.written (4096 * page + i) := if_neg hmarked
          have hwritten : (m.withVram (m.vram.storePhysical physical value width)).isWritten
              (.vram page) i = m.isWritten (.vram page) i := by
            simp only [Memories.isWritten, Memories.withVram, hmark]
          unfold Memories.codeByte
          rw [hbyte, hwritten]
        · have hnone (m : Memories) : m.isWritten (.vram page) i = false := by
            simp only [Memories.isWritten, htotal, decide_false, Bool.false_and]
          unfold Memories.codeByte
          rw [hnone, hnone]
          rfl

/-- At most one advance for each of the nine banks. -/
theorem mappedWrite_advances (m : Memories) (mask : UInt16) (addr value : UInt32)
    (width : Width) :
    pageStamps.Advances bumpGeneration 9 m
      (m.withVram (m.vram.mappedWrite mask addr value width)) := by
  let write (m : Memories) (bank : VramBank) : Memories :=
    m.withVram (if VramState.maskHas mask bank then m.vram.bankWrite bank addr value width
      else m.vram)
  have hstep (m : Memories) (bank : VramBank) :
      pageStamps.Advances bumpGeneration 1 m (write m bank) := by
    unfold write
    split
    · exact storePhysical_advances m _ value width
    · exact .refl m
  have hfold : (List.finRange 9).foldl write m =
      m.withVram (m.vram.mappedWrite mask addr value width) := by
    unfold VramState.mappedWrite
    refine List.foldl_hom m.withVram (l := List.finRange 9) ?_
    intro v bank
    rfl
  rw [← hfold]
  exact Stamped.Advances.foldl hstep (List.finRange 9) m

/-- A store to video memory, whichever banks it reaches. -/
theorem videoWrite_honest (m : Memories) (cpu : NdsCpu) (addr value : UInt32) (width : Width) :
    pageStamps.Honest m (m.withVram (m.vram.ndsVideoWrite cpu addr value width)) := by
  refine @honest_of_advances 9 (by decide) _ _ ?_
  have hsame : pageStamps.Advances bumpGeneration 9 m (m.withVram m.vram) := .refl m
  unfold VramState.ndsVideoWrite
  cases cpu with
  | arm7 =>
      dsimp only
      split
      · exact mappedWrite_advances m _ _ value width
      · exact hsame
  | arm9 =>
      dsimp only
      split
      · exact hsame
      split
      · unfold VramState.arm9VramWrite
        split
        · exact mappedWrite_advances m _ _ value width
        split
        · split
          · exact (storePhysical_advances m _ value width).mono (by decide)
          · exact hsame
        · exact hsame
      · exact hsame

theorem ramStore_honest (m : Memories) {p : BackingPtr} {width : Width} (value : UInt32)
    (hfits : p.offset + width.bytes ≤ p.backing.size) :
    pageStamps.Honest m { m with mem := ramStore m.mem p width value } :=
  honest_of_advances (by decide) (ramStore_advances m value hfits)

/-! ### Remapping leaves the banks alone -/

/-- Only the maps differ. -/
def SameBanks (v v' : VramState) : Prop :=
  v'.vram = v.vram ∧ v'.written = v.written ∧ v'.generation = v.generation

theorem applyMap_sameBanks (v : VramState) (bank : VramBank) (cnt : UInt8) (add : Bool) :
    SameBanks v (v.applyMap bank cnt add) := by
  have hself : SameBanks v v := ⟨rfl, rfl, rfl⟩
  have hlcdc (bit : UInt16) : SameBanks v (v.mapLcdc bit add) := ⟨rfl, rfl, rfl⟩
  have hab : SameBanks v (v.mapAb bank cnt add) := by
    unfold VramState.mapAb
    dsimp only
    split
    · exact hself
    · split
      · exact hlcdc _
      all_goals exact ⟨rfl, rfl, rfl⟩
  have hcd : SameBanks v (v.mapCd bank cnt add) := by
    unfold VramState.mapCd
    dsimp only
    split
    · exact hself
    · split
      · exact hlcdc _
      · exact ⟨rfl, rfl, rfl⟩
      · exact ⟨rfl, rfl, rfl⟩
      · exact ⟨rfl, rfl, rfl⟩
      · split
        · exact ⟨rfl, rfl, rfl⟩
        · exact ⟨rfl, rfl, rfl⟩
      · exact hself
  have he : SameBanks v (v.mapE bank cnt add) := by
    unfold VramState.mapE
    dsimp only
    split
    · exact hself
    · split
      · exact hlcdc _
      all_goals exact ⟨rfl, rfl, rfl⟩
  have hfg : SameBanks v (v.mapFg bank cnt add) := by
    unfold VramState.mapFg
    dsimp only
    split
    · exact hself
    · split
      · exact hlcdc _
      all_goals exact ⟨rfl, rfl, rfl⟩
  have hh : SameBanks v (v.mapH bank cnt add) := by
    unfold VramState.mapH
    dsimp only
    split
    · exact hself
    · split
      · exact hlcdc _
      all_goals exact ⟨rfl, rfl, rfl⟩
  have hi : SameBanks v (v.mapI bank cnt add) := by
    unfold VramState.mapI
    dsimp only
    split
    · exact hself
    · split
      · exact hlcdc _
      all_goals exact ⟨rfl, rfl, rfl⟩
  unfold VramState.applyMap
  split
  · exact hab
  split
  · exact hcd
  split
  · exact he
  split
  · exact hfg
  split
  · exact hh
  · exact hi

theorem ndsVramMap_sameBanks (v : VramState) (bank : VramBank) (value : UInt8) :
    SameBanks v (v.ndsVramMap bank value) := by
  unfold VramState.ndsVramMap
  dsimp only
  split
  · exact ⟨rfl, rfl, rfl⟩
  · obtain ⟨hv, hw, hg⟩ := applyMap_sameBanks v bank (v.cnt bank) false
    obtain ⟨hv', hw', hg'⟩ := applyMap_sameBanks
      { v.applyMap bank (v.cnt bank) false with
        cnt := Function.update (v.applyMap bank (v.cnt bank) false).cnt bank
          (sanitize bank value) } bank (sanitize bank value) true
    exact ⟨hv'.trans hv, hw'.trans hw, hg'.trans hg⟩

end NdsRecomp.Exec
