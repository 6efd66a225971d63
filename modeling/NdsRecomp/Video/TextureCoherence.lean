import NdsRecomp.Library.BlockSync
import NdsRecomp.Video.TextureBytes

/-!
The flat texture and palette views of the 3D engine. A view is refreshed only
when the texture generation has moved since it was copied. Every event that can
change a byte of the two spaces moves the generation or drops the views, so a
skipped refresh leaves nothing out.
-/

namespace NdsRecomp.Video

open Bus Library

/-- `VRAMDirtyGranularity` -/
def vramDirtyGranularity : Nat := 512

/-- `VRAMFlat_Texture` with `g_texture_flat_gen`, or the same two for the palettes. -/
structure FlatSpace where
  bytes : Nat → UInt8 := fun _ => 0
  gen : UInt64 := 0

structure CoherenceResult where
  changed : Bool
  flat : FlatSpace
  dirty : Nat → Bool

/-- What the two coherence functions share: `fresh` is the space copied now. -/
def FlatSpace.makeCoherent (flat : FlatSpace) (gen : UInt64) (fresh : Nat → UInt8) (size : Nat)
    (dirty : Nat → Bool) : CoherenceResult :=
  if gen = flat.gen then { changed := false, flat := flat, dirty := dirty }
  else
    let sync :=
      syncBlocks vramDirtyGranularity (size / vramDirtyGranularity) fresh flat.bytes dirty
    { changed := sync.changed
      flat := { bytes := sync.copy, gen := gen }
      dirty := sync.dirty }

/-- `NdsVramSaveState`; palette and OAM are left out. -/
structure VramImage where
  vram : Nat → UInt8
  written : Nat → Bool
  execGeneration : Nat → UInt32
  vramcnt : VramBank → UInt8
  textureGeneration : UInt64

/-- `vram_savestate_validate`; sizes and flags are right by type. -/
def VramImage.valid (image : VramImage) : Bool :=
  image.textureGeneration != 0 &&
    (List.finRange 9).all fun bank => sanitize bank (image.vramcnt bank) == image.vramcnt bank

/-- The state `vram_savestate_import` leaves: every map is rebuilt from the registers. -/
def VramImage.restored (image : VramImage) : VramState :=
  { rebuildMaps { cnt := image.vramcnt } with
    vram := image.vram
    written := image.written
    generation := image.execGeneration
    cnt := image.vramcnt
    textureGeneration := image.textureGeneration }

/-- Video memory and the views of `gpu3d.cpp`. -/
structure CoherentVram where
  hardware : HardwareVram
  texture : FlatSpace := {}
  texpal : FlatSpace := {}

inductive CoherenceOp where
  | hardware (op : HardwareOp)
  /-- A line captured without the pool: staged and stored at once. -/
  | capture (capture line : UInt32) (colours : Fin 256 → UInt16)
  | resetVram
  | resetGpu3d
  | load (image : VramImage)
  | textureCoherent (dirty : Nat → Bool)
  | texpalCoherent (dirty : Nat → Bool)

namespace CoherentVram

def vram (s : CoherentVram) : VramState := s.hardware.vram

/-- `MakeVRAMFlat_TextureCoherent` -/
def textureCoherent (s : CoherentVram) (dirty : Nat → Bool) : CoherenceResult :=
  s.texture.makeCoherent s.vram.textureGeneration (s.vram.copyTexture fun _ => 0) (512 * 1024) dirty

/-- `MakeVRAMFlat_TexPalCoherent` -/
def texpalCoherent (s : CoherentVram) (dirty : Nat → Bool) : CoherenceResult :=
  s.texpal.makeCoherent s.vram.textureGeneration (s.vram.copyTexpal fun _ => 0) (128 * 1024) dirty

/-- `nds_vram_reset`. Captured lines stay staged: the reset of the 2D engine drains
them afterwards. -/
def resetVram (s : CoherentVram) : CoherentVram :=
  { s with
    hardware := { s.hardware with
      vram := { textureGeneration := s.vram.textureGeneration + 1 } } }

/-- `nds_gpu3d_reset` as far as the views are concerned. -/
def resetGpu3d (s : CoherentVram) : CoherentVram := { s with texture := {}, texpal := {} }

/-- A savestate load: staged lines are drained into memory that is then replaced, and
`gpu3d_savestate_import` drops the views. -/
def load (s : CoherentVram) (image : VramImage) : CoherentVram :=
  if image.valid then { hardware := { vram := image.restored } } else s

def next (s : CoherentVram) : CoherenceOp → CoherentVram
  | .hardware op => { s with hardware := s.hardware.next op }
  | .capture capture line colours =>
      { s with
        hardware := { s.hardware with
          vram := applyStagedCapture s.vram (stageCapture s.vram capture line colours) } }
  | .resetVram => s.resetVram
  | .resetGpu3d => s.resetGpu3d
  | .load image => s.load image
  | .textureCoherent dirty => { s with texture := (s.textureCoherent dirty).flat }
  | .texpalCoherent dirty => { s with texpal := (s.texpalCoherent dirty).flat }

end CoherentVram

/-- From power on, in the order the thread of the emulated machine takes them. A fence
of the line pool is a series of `apply`. Only a load may install an older
generation: counting does not wrap. -/
def coherenceSystem : OpSystem CoherentVram CoherenceOp where
  initial := fun s => s = { hardware := { vram := {} } }
  admits := fun s op =>
    (∃ image, op = .load image) ∨
      s.vram.textureGeneration.toNat ≤ (s.next op).vram.textureGeneration.toNat
  next := CoherentVram.next

/-! ### One coherence call -/

/-- Some byte of the granule differs. -/
def GranuleDiffers (mapped bytes : Nat → UInt8) (k : Nat) : Prop :=
  ∃ i < vramDirtyGranularity,
    mapped (vramDirtyGranularity * k + i) ≠ bytes (vramDirtyGranularity * k + i)

/-- What a coherence call owes: the view is the mapped bytes, and exactly the granules
that differed are added to the dirty ones and reported. -/
structure MadeCoherent (mapped : Nat → UInt8) (size : Nat) (before : FlatSpace)
    (dirty : Nat → Bool) (result : CoherenceResult) : Prop where
  bytes : ∀ i < size, result.flat.bytes i = mapped i
  dirty : ∀ k, result.dirty k = true ↔
    dirty k = true ∨ (k < size / vramDirtyGranularity ∧ GranuleDiffers mapped before.bytes k)
  changed : result.changed = true ↔
    ∃ k < size / vramDirtyGranularity, GranuleDiffers mapped before.bytes k

/-- The view was copied at a generation that has passed, or it is the mapped bytes. -/
def FlatSpace.CurrentAt (flat : FlatSpace) (gen : UInt64) (mapped : Nat → UInt8) (size : Nat) :
    Prop :=
  Current gen.toNat flat.gen.toNat (∀ i < size, flat.bytes i = mapped i)

section Call

variable {flat : FlatSpace} {gen : UInt64} {fresh mapped : Nat → UInt8} {size : Nat}

theorem granule_le {k : Nat} (hk : k < size / vramDirtyGranularity) :
    vramDirtyGranularity * k + vramDirtyGranularity ≤ size := by
  rw [← Nat.mul_succ]
  exact (Nat.mul_le_mul_left _ hk).trans (Nat.mul_div_le _ _)

theorem granuleDiffers_iff {k : Nat} (hfresh : ∀ i < size, fresh i = mapped i)
    (hk : k < size / vramDirtyGranularity) :
    ¬ SameBlock vramDirtyGranularity fresh flat.bytes k ↔ GranuleDiffers mapped flat.bytes k := by
  have hblock := granule_le hk
  unfold SameBlock GranuleDiffers
  push Not
  refine exists_congr fun i => and_congr_right fun hi => ?_
  rw [hfresh _ (by omega)]

theorem FlatSpace.makeCoherent_madeCoherent (hsize : vramDirtyGranularity ∣ size)
    (hfresh : ∀ i < size, fresh i = mapped i) (hcurrent : flat.CurrentAt gen mapped size)
    (dirty : Nat → Bool) :
    MadeCoherent mapped size flat dirty (flat.makeCoherent gen fresh size dirty) := by
  unfold FlatSpace.makeCoherent
  by_cases hgen : gen = flat.gen
  · have hsame : ∀ i < size, flat.bytes i = mapped i := hcurrent.same (by rw [hgen])
    have hnone {k : Nat} (hk : k < size / vramDirtyGranularity) :
        ¬ GranuleDiffers mapped flat.bytes k := by
      rintro ⟨i, hi, hdiffers⟩
      have hblock := granule_le hk
      exact hdiffers (hsame _ (by omega)).symm
    rw [if_pos hgen]
    exact ⟨hsame, fun k => ⟨Or.inl, fun h => h.elim id fun h => absurd h.2 (hnone h.1)⟩,
      iff_of_false Bool.false_ne_true fun ⟨k, hk, hdiffers⟩ => hnone hk hdiffers⟩
  · rw [if_neg hgen]
    refine ⟨fun i hi => ?_, fun k => ?_, ?_⟩
    · change (syncBlocks _ _ fresh flat.bytes dirty).copy i = mapped i
      rw [syncBlocks_copy, Nat.mul_div_cancel' hsize, if_pos hi, hfresh i hi]
    · change (syncBlocks _ _ fresh flat.bytes dirty).dirty k = true ↔ _
      rw [syncBlocks_dirty, Bool.or_eq_true, decide_eq_true_eq]
      exact or_congr_right (and_congr_right fun hk => granuleDiffers_iff hfresh hk)
    · change (syncBlocks _ _ fresh flat.bytes dirty).changed = true ↔ _
      rw [syncBlocks_changed]
      exact exists_congr fun k => and_congr_right fun hk => granuleDiffers_iff hfresh hk

/-- After the call the view is current. -/
theorem FlatSpace.makeCoherent_current (hsize : vramDirtyGranularity ∣ size)
    (hfresh : ∀ i < size, fresh i = mapped i) (hcurrent : flat.CurrentAt gen mapped size)
    (dirty : Nat → Bool) :
    (flat.makeCoherent gen fresh size dirty).flat.CurrentAt gen mapped size := by
  have hbytes := (makeCoherent_madeCoherent hsize hfresh hcurrent dirty).bytes
  have hgen : (flat.makeCoherent gen fresh size dirty).flat.gen = gen := by
    unfold FlatSpace.makeCoherent
    by_cases hgen : gen = flat.gen
    · rw [if_pos hgen, hgen]
    · rw [if_neg hgen]
  unfold FlatSpace.CurrentAt
  rw [hgen]
  exact .refresh hbytes

end Call

/-! ### The generation moves with the mapped bytes -/

theorem applyMap_textureGeneration (v : VramState) (bank : VramBank) (cnt : UInt8) (add : Bool) :
    (v.applyMap bank cnt add).textureGeneration = v.textureGeneration := by
  unfold VramState.applyMap VramState.mapAb VramState.mapCd VramState.mapE VramState.mapFg
    VramState.mapH VramState.mapI VramState.mapLcdc
  split_ifs <;> (try split) <;> rfl

/-- A remap keeps everything or advances the generation. -/
theorem ndsVramMap_generation (v : VramState) (bank : VramBank) (value : UInt8) :
    v.ndsVramMap bank value = v ∨
      (v.ndsVramMap bank value).textureGeneration = v.textureGeneration + 1 := by
  unfold VramState.ndsVramMap
  dsimp only
  split
  · exact .inl rfl
  · refine .inr ?_
    dsimp only
    rw [applyMap_textureGeneration]
    dsimp only
    rw [applyMap_textureGeneration]

/-- A captured line stores nothing or advances the generation. -/
theorem applyStagedCapture_generation (v : VramState) (capture : StagedCapture) :
    applyStagedCapture v capture = v ∨
      (applyStagedCapture v capture).textureGeneration = v.textureGeneration + 1 := by
  unfold applyStagedCapture
  split
  · exact .inl rfl
  · exact .inr rfl

theorem Mapped.applyStagedCapture {v : VramState} (h : Mapped v) (capture : StagedCapture) :
    Mapped (applyStagedCapture v capture) := by
  have hmask : (Video.applyStagedCapture v capture).mask = v.mask := by
    unfold Video.applyStagedCapture
    split
    · rfl
    · funext slot
      cases slot <;> rfl
  have hcnt : (Video.applyStagedCapture v capture).cnt = v.cnt := by
    unfold Video.applyStagedCapture
    split <;> rfl
  refine ⟨nineBitMasks_congr hmask h.nineBits, ?_⟩
  rw [hcnt, owners_congr hmask]
  exact h.shows

theorem mapped_restored (image : VramImage) : Mapped image.restored := by
  obtain ⟨hnine, hshows⟩ := mapped_rebuildMaps { cnt := image.vramcnt }
  have hmask : image.restored.mask = (rebuildMaps { cnt := image.vramcnt }).mask := by
    funext slot
    cases slot <;> rfl
  refine ⟨nineBitMasks_congr hmask hnine, ?_⟩
  rw [owners_congr hmask]
  exact hshows

/-- Nothing is mapped when every register is zero. -/
theorem mapped_empty (gen : UInt64) : Mapped { textureGeneration := gen } := by
  have hmask : VramState.mask { textureGeneration := gen } = fun _ => 0 := by
    funext slot
    cases slot <;> rfl
  refine ⟨fun slot => ?_, fun slot bank => iff_of_false ?_ (drives_off (show (0 : UInt8) &&& 0x80 = 0 by decide))⟩
  · rw [hmask]
    exact nineBits_zero
  · change ¬ VramState.maskHas (VramState.mask { textureGeneration := gen } slot) bank = true
    rw [hmask, maskHas_zero]
    exact Bool.false_ne_true

theorem lt_of_advance {gen : UInt64} (h : gen.toNat ≤ (gen + 1).toNat) :
    gen.toNat < (gen + 1).toNat := by
  have hlt := gen.toNat_lt
  have hsum : (gen + 1).toNat = (gen.toNat + 1) % 2 ^ 64 := UInt64.toNat_add gen 1
  omega

/-! ### Runs -/

/-- The masks follow the registers, counting started above the zero of an empty view,
and each view is current. -/
structure Coherent (s : CoherentVram) : Prop where
  mapped : Mapped s.vram
  started : 0 < s.vram.textureGeneration.toNat
  texture : s.texture.CurrentAt s.vram.textureGeneration (textureByte s.vram) (512 * 1024)
  texpal : s.texpal.CurrentAt s.vram.textureGeneration (texpalByte s.vram) (128 * 1024)

namespace Coherent

variable {s s' : CoherentVram}

/-- Whatever happens to the banks, the views stay current when the generation advances. -/
theorem advance (h : Coherent s) (htexture : s'.texture = s.texture) (htexpal : s'.texpal = s.texpal)
    (hmapped : Mapped s'.vram)
    (hgen : s.vram.textureGeneration.toNat < s'.vram.textureGeneration.toNat) : Coherent s' where
  mapped := hmapped
  started := h.started.trans hgen
  texture := by
    rw [htexture]
    exact Current.advance h.texture hgen
  texpal := by
    rw [htexpal]
    exact Current.advance h.texpal hgen

/-- Dropped views are older than any generation. -/
theorem dropped (htexture : s.texture = {}) (htexpal : s.texpal = {}) (hmapped : Mapped s.vram)
    (hstarted : 0 < s.vram.textureGeneration.toNat) : Coherent s where
  mapped := hmapped
  started := hstarted
  texture := by
    rw [htexture]
    exact Current.of_lt hstarted
  texpal := by
    rw [htexpal]
    exact Current.of_lt hstarted

theorem textureCoherent (h : Coherent s) (dirty : Nat → Bool) :
    MadeCoherent (textureByte s.vram) (512 * 1024) s.texture dirty (s.textureCoherent dirty) :=
  FlatSpace.makeCoherent_madeCoherent (by decide) (fun _ hi => h.mapped.copyTexture_byte _ hi)
    h.texture dirty

theorem texpalCoherent (h : Coherent s) (dirty : Nat → Bool) :
    MadeCoherent (texpalByte s.vram) (128 * 1024) s.texpal dirty (s.texpalCoherent dirty) :=
  FlatSpace.makeCoherent_madeCoherent (by decide) (fun _ hi => h.mapped.copyTexpal_byte _ hi)
    h.texpal dirty

theorem write (h : Coherent s) (cpu : NdsCpu) (addr value : UInt32) (width : Width) :
    Coherent (s.next (.hardware (.write cpu addr value width))) := by
  have hsame := ndsVideoWrite_sameMaps s.vram cpu addr value width
  have hgen : (s.next (.hardware (.write cpu addr value width))).vram.textureGeneration =
      s.vram.textureGeneration := hsame.generation
  refine ⟨h.mapped.congr hsame, hgen ▸ h.started, ?_, ?_⟩
  · rw [hgen]
    exact Current.imp h.texture fun hview i hi =>
      (hview i hi).trans (textureByte_write h.mapped cpu addr value width i).symm
  · rw [hgen]
    exact Current.imp h.texpal fun hview i hi =>
      (hview i hi).trans (texpalByte_write h.mapped cpu addr value width i).symm

/-- A step that leaves the views and either changes no bank or advances the generation. -/
theorem changed (h : Coherent s) (htexture : s'.texture = s.texture) (htexpal : s'.texpal = s.texpal)
    (hmapped : Mapped s'.vram)
    (hvram : s'.vram = s.vram ∨ s'.vram.textureGeneration = s.vram.textureGeneration + 1)
    (hforward : s.vram.textureGeneration.toNat ≤ s'.vram.textureGeneration.toNat) :
    Coherent s' := by
  rcases hvram with hsame | hgen
  · refine ⟨hmapped, hsame ▸ h.started, ?_, ?_⟩
    · rw [htexture, hsame]
      exact h.texture
    · rw [htexpal, hsame]
      exact h.texpal
  · refine h.advance htexture htexpal hmapped ?_
    rw [hgen] at hforward ⊢
    exact lt_of_advance hforward

end Coherent

theorem coherent_invariant : coherenceSystem.Invariant Coherent where
  start := by
    rintro s rfl
    exact Coherent.dropped rfl rfl (mapped_empty 1) Nat.one_pos
  step := by
    intro s op h hadmits
    have hforward : (∃ image, op = .load image) ∨
        s.vram.textureGeneration.toNat ≤ (s.next op).vram.textureGeneration.toNat := hadmits
    change Coherent (s.next op)
    cases op with
    | load image =>
        change Coherent (s.load image)
        unfold CoherentVram.load
        by_cases hvalid : image.valid = true
        · rw [if_pos hvalid]
          refine Coherent.dropped rfl rfl (mapped_restored image) ?_
          have hgen := (Bool.and_eq_true _ _).mp hvalid |>.1
          exact Nat.pos_of_ne_zero fun hzero =>
            (bne_iff_ne.mp hgen) (UInt64.toNat_inj.mp hzero)
        · rw [if_neg hvalid]
          exact h
    | hardware op =>
        have hforward := hforward.resolve_left nofun
        cases op with
        | write cpu addr value width => exact h.write cpu addr value width
        | map bank value =>
            exact h.changed rfl rfl (h.mapped.ndsVramMap bank value)
              (ndsVramMap_generation _ _ _) hforward
        | stage capture line colours => exact ⟨h.mapped, h.started, h.texture, h.texpal⟩
        | apply =>
            cases hstaged : s.hardware.staged with
            | nil =>
                have hsame : s.hardware.apply = s.hardware := by
                  unfold HardwareVram.apply
                  rw [hstaged]
                have hvram : (s.next (.hardware .apply)).vram = s.vram := congrArg HardwareVram.vram hsame
                exact h.changed rfl rfl (hvram ▸ h.mapped) (.inl hvram) hforward
            | cons capture rest =>
                have hvram : (s.next (.hardware .apply)).vram =
                    applyStagedCapture s.vram capture := by
                  change (s.hardware.apply).vram = _
                  unfold HardwareVram.apply
                  rw [hstaged]
                  rfl
                refine h.changed rfl rfl (hvram ▸ h.mapped.applyStagedCapture capture) ?_ hforward
                rw [hvram]
                exact applyStagedCapture_generation _ _
    | capture capture line colours =>
        exact h.changed rfl rfl (h.mapped.applyStagedCapture _) (applyStagedCapture_generation _ _)
          (hforward.resolve_left nofun)
    | resetVram =>
        exact h.changed rfl rfl (mapped_empty _) (.inr rfl) (hforward.resolve_left nofun)
    | resetGpu3d => exact Coherent.dropped rfl rfl h.mapped h.started
    | textureCoherent dirty =>
        exact ⟨h.mapped, h.started, FlatSpace.makeCoherent_current (by decide)
          (fun _ hi => h.mapped.copyTexture_byte _ hi) h.texture dirty, h.texpal⟩
    | texpalCoherent dirty =>
        exact ⟨h.mapped, h.started, h.texture, FlatSpace.makeCoherent_current (by decide)
          (fun _ hi => h.mapped.copyTexpal_byte _ hi) h.texpal dirty⟩

/-- In every state of every run each coherence call makes its view the bytes that the
VRAMCNT registers map now, and reports exactly the granules that differed. -/
theorem texture_views_coherent {s : CoherentVram} (hs : coherenceSystem.Reachable s)
    (dirty : Nat → Bool) :
    MadeCoherent (textureByte s.vram) (512 * 1024) s.texture dirty (s.textureCoherent dirty) ∧
      MadeCoherent (texpalByte s.vram) (128 * 1024) s.texpal dirty (s.texpalCoherent dirty) := by
  have h := hs.invariant coherent_invariant
  exact ⟨h.textureCoherent dirty, h.texpalCoherent dirty⟩

/-- Bank A is filled through the processor's window, then shown as texture slot 1. -/
private def texturedRun : List CoherenceOp :=
  [.hardware (.map 0 0x80), .hardware (.write .arm9 0x06800000 0x12345678 .word),
    .hardware (.map 0 0x8B)]

private def textured : CoherentVram := coherenceSystem.runFrom { hardware := { vram := {} } } texturedRun

/-- The first call after it copies the stored byte and reports granule 256. -/
theorem texture_views_coherent_textured :
    (textured.textureCoherent fun _ => false).flat.bytes 0x20000 = 0x78 ∧
      (textured.textureCoherent fun _ => false).changed = true ∧
      (textured.textureCoherent fun _ => false).dirty 256 = true := by
  have hpower : coherenceSystem.Reachable { hardware := { vram := {} } } := .start rfl
  have hrun : coherenceSystem.AdmitsAll { hardware := { vram := {} } } texturedRun :=
    ⟨.inr (by decide), .inr (by decide), .inr (by decide), trivial⟩
  have htextured : coherenceSystem.Reachable textured := hpower.runFrom hrun
  obtain ⟨htexture, -⟩ := texture_views_coherent htextured fun _ => false
  have hbyte : textureByte textured.vram 0x20000 = 0x78 := by decide
  have hdiffers : GranuleDiffers (textureByte textured.vram) textured.texture.bytes 256 :=
    ⟨0, by decide, by decide⟩
  exact ⟨(htexture.bytes 0x20000 (by decide)).trans hbyte,
    htexture.changed.mpr ⟨256, by decide, hdiffers⟩,
    (htexture.dirty 256).mpr (.inr ⟨by decide, hdiffers⟩)⟩

end NdsRecomp.Video
