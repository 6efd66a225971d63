import NdsRecomp.Video.DirectPaths
import NdsRecomp.Video.ObjPass

/-!
The pixel stack of a widened line. `composite_adaptive_line` pushes the 3D pixel
behind all others, once the stack without it has been handed to the HD renderer;
`compose_line6` pushes it between the backgrounds and the sprite. No two pixels of a
column have the same priority and order, so the sequence of the pushes does not show.
-/

namespace NdsRecomp.Video

open Library

/-- What a widened line is composed of: the arguments of `render_obj_line`, the decoded
backgrounds and the 3D line. -/
structure AdaptiveLine where
  pass : ObjPass
  input : LineInput
  composited3d : Fin pass.outWidth → UInt32

namespace AdaptiveLine

def extra (line : AdaptiveLine) : Int := (line.pass.outWidth - 256 : Int).tdiv 2

/-- The native column that the backgrounds of column `x` are read from, or -1. -/
def hudX (line : AdaptiveLine) (x : Int) : Int :=
  let centerLeft := (256 - line.pass.adaptiveHudCenterWidth).tdiv 2
  let centerRight := centerLeft + line.pass.adaptiveHudCenterWidth
  let width : Int := line.pass.outWidth
  if line.pass.adaptiveHudAnchor = true then
    if x < centerLeft then x
    else if line.extra + centerLeft ≤ x ∧ x < line.extra + centerRight then x - line.extra
    else if width - (256 - centerRight) ≤ x then x - (width - 256)
    else -1
  else if line.extra ≤ x ∧ x < line.extra + 256 then x - line.extra
  else -1

/-- `nds_gpu2d_adaptive_window_x` -/
def adaptiveWindowX (x extra hudX : Int) : UInt8 :=
  if 0 ≤ hudX then UInt8.ofNat hudX.toNat
  else UInt8.ofNat (min 255 (max 0 (x - extra))).toNat

/-- The text backgrounds but the one in the place of the 3D layer. -/
def hudBgs (u : EngineUnit) : List (Fin 4) :=
  [(1 : Fin 4), 2, 3].filter fun bg => u.dispcnt &&& ((0x100 : UInt32) <<< UInt32.ofNat bg) != 0

def mask (line : AdaptiveLine) (x : Fin line.pass.outWidth) : UInt8 :=
  windowMask line.pass.u (adaptiveWindowX x line.extra (line.hudX x))
    (UInt8.ofNat line.pass.lineY.toNat) (line.pass.renderObjLine.objWindow x)

/-- The pixels of the backgrounds at a column. -/
def hudLayers (line : AdaptiveLine) (x : Fin line.pass.outWidth) : List Pixel :=
  if 0 ≤ line.hudX x then
    let column := Fin.ofNat 256 (line.hudX x).toNat
    ((hudBgs line.pass.u).filter fun bg =>
      (decodeBgLine line.pass.u line.input bg).opaqueAt column &&
        line.mask x &&& ((1 : UInt8) <<< UInt8.ofNat bg) != 0).map
      fun bg => (decodeBgLine line.pass.u line.input bg).pixel column
  else []

def layerObj (line : AdaptiveLine) (x : Fin line.pass.outWidth) : List Pixel :=
  let obj := line.pass.renderObjLine.out x
  if obj.valid = true ∧ line.mask x &&& 0x10 ≠ 0 then [obj] else []

def layer3d (line : AdaptiveLine) (x : Fin line.pass.outWidth) : List Pixel :=
  let c3 := line.composited3d x
  if (c3 >>> 24) &&& 0x1F ≠ 0 ∧ line.mask x &&& 1 ≠ 0 then [pixel3d line.pass.u c3] else []

/-- Top and below after the pushes of a list, from the backdrop on. -/
def pushAll (line : AdaptiveLine) (pixels : List Pixel) : Pixel × Pixel :=
  pixels.foldl (pushCandidate Pixel.ahead) (backdrop line.input, backdrop line.input)

/-- What is handed to the HD renderer. -/
def hdPair (line : AdaptiveLine) (x : Fin line.pass.outWidth) : Pixel × Pixel :=
  line.pushAll (line.hudLayers x ++ line.layerObj x)

def hdMeta (p : Pixel) (effectsEnabled : Bool) : UInt32 :=
  (p.target &&& 0x3F).toUInt32 ||| (if effectsEnabled then (0x80 : UInt32) else 0) |||
    (p.alpha.toUInt32 <<< 8) ||| (p.priority.toUInt32 <<< 16) ||| (p.order.toUInt32 <<< 24)

/-- The four words of a column on the HD surfaces. -/
def hdWords (line : AdaptiveLine) (x : Fin line.pass.outWidth) : List UInt32 :=
  let effectsEnabled := line.mask x &&& 0x20 != 0
  [(line.hdPair x).1.color, hdMeta (line.hdPair x).1 effectsEnabled,
    (line.hdPair x).2.color, hdMeta (line.hdPair x).2 effectsEnabled]

/-- Top and below of the widened picture: the 3D pixel is pushed on the HD pair. -/
def pair (line : AdaptiveLine) (x : Fin line.pass.outWidth) : Pixel × Pixel :=
  (line.layer3d x).foldl (pushCandidate Pixel.ahead) (line.hdPair x)

/-- `composite_adaptive_line` -/
def compositeAdaptive (line : AdaptiveLine) (x : Fin line.pass.outWidth) : UInt32 :=
  toRgb32 (masterBrightness line.pass.u
    (compose line.pass.u (line.pair x).1 (line.pair x).2 (line.mask x &&& 0x20 != 0)))

end AdaptiveLine

/-! ## Any sequence of pushes -/

/-- The keys of two pixels differ. -/
def Pixel.KeysDiffer (a b : Pixel) : Prop := (a.priority, a.order) ≠ (b.priority, b.order)

theorem Pixel.KeysDiffer.ahead {a b : Pixel} (h : a.KeysDiffer b) : b.ahead a ∨ a.ahead b := by
  unfold Pixel.KeysDiffer at h
  unfold Pixel.ahead
  simp only [ne_eq, Prod.mk.injEq, UInt8.lt_iff_toNat_lt, ← UInt8.toNat_inj] at h ⊢
  omega

theorem Pixel.KeysDiffer.symm {a b : Pixel} (h : a.KeysDiffer b) : b.KeysDiffer a := Ne.symm h

theorem firstTwo_backdrop (d : Pixel) (sorted : List Pixel) :
    firstTwo d (sorted ++ [d]) = firstTwo d sorted := by
  match sorted with
  | [] => rfl
  | [_] => rfl
  | _ :: _ :: _ => rfl

/-- Pushed in any sequence, pixels with different keys that are all ahead of the backdrop
leave the first two of themselves and the backdrop, in order. -/
theorem foldl_push_perm {d : Pixel} {l : List Pixel} (hahead : ∀ p ∈ l, p.ahead d)
    (hkeys : l.Pairwise Pixel.KeysDiffer) :
    ∃ sorted : List Pixel, sorted.Perm (d :: l) ∧ sorted.Pairwise Pixel.ahead ∧
      ∀ l' : List Pixel, l'.Perm l →
        l'.foldl (pushCandidate Pixel.ahead) (d, d) = firstTwo d sorted := by
  have hcompare := hkeys.imp fun h => h.ahead
  have hperm : (insertionSortBack Pixel.ahead l).Perm l := insertionSortBack_perm l
  have hsorted := insertionSortBack_sorted pixel_strictlyAhead hcompare
  refine ⟨insertionSortBack Pixel.ahead l ++ [d], ?_, ?_, fun l' hl' => ?_⟩
  · exact (List.perm_append_singleton d _).trans (hperm.cons d)
  · refine List.pairwise_append.mpr ⟨hsorted, List.pairwise_singleton _ _, fun p hp q hq => ?_⟩
    rw [List.mem_singleton.mp hq]
    exact hahead p (hperm.mem_iff.mp hp)
  · rw [firstTwo_backdrop]
    have hkeys' := hl'.symm.pairwise hkeys fun h => h.symm
    exact foldl_pushCandidate pixel_strictlyAhead (fun p hp => hahead p (hl'.mem_iff.mp hp))
      (hkeys'.imp fun h => h.ahead) (hperm.trans hl'.symm) hsorted

/-! ## The columns of a widened line -/

theorem spriteLine_fromSprite {width : Nat} (writes : List SpriteWrite) {line : SpriteLine width}
    (h : ∀ i, (line.out i).FromSprite) (i : Fin width) :
    ((writes.foldl SpriteLine.write line).out i).FromSprite := by
  induction writes generalizing line with
  | nil => exact h i
  | cons write writes ih =>
      refine ih fun i => ?_
      cases write with
      | pixel x color alpha priority =>
          change (SpriteLine.putObj line.out x (spritePixel color alpha priority) i).FromSprite
          unfold SpriteLine.putObj
          split
          · exact spritePixel_fromSprite color alpha priority
          · exact h i
      | window x => exact h i

theorem ObjPass.renderObjLine_fromSprite (pass : ObjPass) (x : Fin pass.outWidth) :
    (pass.renderObjLine.out x).FromSprite := by
  have hblank : ∀ i : Fin pass.outWidth, ((({} : SpriteLine pass.outWidth).out i)).FromSprite :=
    fun _ h => by cases h
  rw [ObjPass.renderObjLine_eq_foldl]
  split
  · exact hblank x
  · exact spriteLine_fromSprite _ hblank x

namespace AdaptiveLine

variable (line : AdaptiveLine) (x : Fin line.pass.outWidth)

theorem layerObj_facts : ∀ p ∈ line.layerObj x, p.priority < 4 ∧ p.order = 0 := by
  intro p hp
  unfold layerObj at hp
  dsimp only at hp
  split at hp
  · next hdrawn =>
      obtain rfl := List.mem_singleton.mp hp
      have hsprite := line.pass.renderObjLine_fromSprite x hdrawn.1
      exact ⟨hsprite.1, hsprite.2.1⟩
  · exact absurd hp List.not_mem_nil

theorem layer3d_facts : ∀ p ∈ line.layer3d x, p.priority < 4 ∧ p.order = 1 := by
  intro p hp
  unfold layer3d at hp
  dsimp only at hp
  split at hp
  · obtain rfl := List.mem_singleton.mp hp
    exact ⟨bgPriority_lt line.pass.u 0, rfl⟩
  · exact absurd hp List.not_mem_nil

theorem hudLayers_facts : ∀ p ∈ line.hudLayers x, p.priority < 4 ∧ 1 < p.order := by
  intro p hp
  unfold hudLayers at hp
  dsimp only at hp
  split at hp
  · obtain ⟨bg, hbg, rfl⟩ := List.mem_map.mp hp
    refine ⟨bgPriority_lt line.pass.u bg, ?_⟩
    have hmem : bg ∈ [(1 : Fin 4), 2, 3] := List.mem_of_mem_filter (List.mem_of_mem_filter hbg)
    have horder : ∀ bg ∈ [(1 : Fin 4), 2, 3], 1 < UInt8.ofNat (bg + 1) := by decide
    exact horder bg hmem
  · exact absurd hp List.not_mem_nil

theorem hudLayers_keysDiffer : (line.hudLayers x).Pairwise Pixel.KeysDiffer := by
  unfold hudLayers
  dsimp only
  split
  · rw [List.pairwise_map]
    have hbgs : [(1 : Fin 4), 2, 3].Pairwise
        fun (a b : Fin 4) => UInt8.ofNat (a + 1) ≠ UInt8.ofNat (b + 1) := by
      decide
    exact ((hbgs.filter _).filter _).imp fun hne heq => hne (Prod.mk.inj heq).2
  · exact List.Pairwise.nil

/-- The pixels pushed at a column, in the sequence of `compose_line6`. -/
def line6Pixels : List Pixel := line.hudLayers x ++ line.layer3d x ++ line.layerObj x

theorem line6Pixels_ahead : ∀ p ∈ line.line6Pixels x, p.ahead (backdrop line.input) := by
  intro p hp
  refine Or.inl ?_
  rcases List.mem_append.mp hp with hp | hp
  · rcases List.mem_append.mp hp with hp | hp
    · exact (line.hudLayers_facts x p hp).1
    · exact (line.layer3d_facts x p hp).1
  · exact (line.layerObj_facts x p hp).1

theorem line6Pixels_keysDiffer : (line.line6Pixels x).Pairwise Pixel.KeysDiffer := by
  have hsingle : ∀ {c : Prop} [Decidable c] (p : Pixel),
      (if c then [p] else []).Pairwise Pixel.KeysDiffer := by
    intro c _ p
    split
    · exact List.pairwise_singleton _ _
    · exact List.Pairwise.nil
  have horders : ∀ {a b : Pixel}, a.order ≠ b.order → a.KeysDiffer b :=
    fun hne heq => hne (Prod.mk.inj heq).2
  refine List.pairwise_append.mpr ⟨List.pairwise_append.mpr
    ⟨line.hudLayers_keysDiffer x, hsingle _, ?_⟩, hsingle _, ?_⟩
  · intro p hp q hq
    have hp := (line.hudLayers_facts x p hp).2
    have hq := (line.layer3d_facts x q hq).2
    exact horders fun heq => by rw [heq, hq] at hp; exact absurd hp (by decide)
  · intro p hp q hq
    have hq := (line.layerObj_facts x q hq).2
    rcases List.mem_append.mp hp with hp | hp
    · have hp := (line.hudLayers_facts x p hp).2
      exact horders fun heq => by rw [heq, hq] at hp; exact absurd hp (by decide)
    · have hp := (line.layer3d_facts x p hp).2
      exact horders fun heq => by rw [heq, hq] at hp; exact absurd hp (by decide)

theorem pair_eq_pushAll :
    line.pair x = line.pushAll (line.hudLayers x ++ line.layerObj x ++ line.layer3d x) := by
  unfold pair hdPair pushAll
  simp only [List.foldl_append]

theorem pushAll_perm {pixels : List Pixel} (h : pixels.Perm (line.line6Pixels x)) :
    line.pushAll pixels = line.pushAll (line.line6Pixels x) := by
  obtain ⟨sorted, -, -, hpush⟩ :=
    foldl_push_perm (line.line6Pixels_ahead x) (line.line6Pixels_keysDiffer x)
  exact (hpush pixels h).trans (hpush _ (List.Perm.refl _)).symm

theorem pair_eq_line6 : line.pair x = line.pushAll (line.line6Pixels x) := by
  rw [pair_eq_pushAll]
  refine line.pushAll_perm x ?_
  rw [line6Pixels, List.append_assoc, List.append_assoc]
  exact List.perm_append_comm.append_left _

/-- Without the 3D pixel the stack is a part of the whole one. -/
theorem without3d_sublist :
    (line.hudLayers x ++ line.layerObj x).Sublist (line.line6Pixels x) :=
  (List.sublist_append_left _ _).append (List.Sublist.refl _)

end AdaptiveLine

/-! ## The native line -/

/-- Top and below of `compose_line6`, from the column's mask and sprite. -/
def line6Pair (u : EngineUnit) (input : LineInput) (mask : UInt8) (obj : Pixel)
    (line3d : Option (Fin 256 → UInt32)) (bg0_3d : Bool) (x : Fin 256) : Pixel × Pixel :=
  let bgs := (activeBgs u bg0_3d).filter fun bg =>
    (decodeBgLine u input bg).opaqueAt x && mask &&& ((1 : UInt8) <<< UInt8.ofNat bg) != 0
  let layers := bgs.map fun bg => (decodeBgLine u input bg).pixel x
  let layer3d := match line3d with
    | some line => if bg0_3d = true ∧ mask &&& 1 ≠ 0 ∧ (line x >>> 24) &&& 0x1F ≠ 0
        then [pixel3d u (line x)] else []
    | none => []
  let layerObj := if obj.valid = true ∧ mask &&& 0x10 ≠ 0 then [obj] else []
  (layers ++ layer3d ++ layerObj).foldl (pushCandidate Pixel.ahead) (backdrop input, backdrop input)

theorem composeLine6_eq_line6Pair (u : EngineUnit) (input : LineInput) (y : UInt8)
    (line3d : Option (Fin 256 → UInt32)) (bg0_3d : Bool) (x : Fin 256) :
    let drawn := renderObjLine u input true
    let mask := windowMask u (UInt8.ofNat x) y (drawn.window x)
    let pair := line6Pair u input mask (drawn.out x) line3d bg0_3d x
    composeLine6 u input y line3d bg0_3d x = compose u pair.1 pair.2 (mask &&& 0x20 != 0) :=
  rfl

/-- The backgrounds of a scene that is widened: those beside the 3D layer are text ones. -/
def SupportedHudBgs (u : EngineUnit) : Prop :=
  ∀ bg : Fin 4, bg ≠ 0 → u.dispcnt &&& ((0x100 : UInt32) <<< UInt32.ofNat bg) ≠ 0 →
    bgKind u bg = .text

theorem hudBgs_eq_activeBgs {u : EngineUnit} (h : SupportedHudBgs u) :
    AdaptiveLine.hudBgs u = activeBgs u true := by
  have hrange : List.finRange 4 = 0 :: [(1 : Fin 4), 2, 3] := by decide
  unfold AdaptiveLine.hudBgs activeBgs
  rw [hrange, List.filter_cons_of_neg (p := bgActive u true) (by simp [bgActive])]
  refine List.filter_congr fun bg hbg => ?_
  have hne : bg ≠ 0 := by
    rintro rfl
    exact absurd hbg (by decide)
  have hkind := h bg hne
  have hslot : (bg == 0) = false := beq_eq_false_iff_ne.mpr hne
  unfold bgActive
  by_cases henabled : u.dispcnt &&& ((0x100 : UInt32) <<< UInt32.ofNat bg) = 0
  · simp [henabled]
  · simp [henabled, hslot, hkind henabled]

/-- At a column with a native one, the two compositors push the same pixels. -/
theorem AdaptiveLine.pair_native (line : AdaptiveLine) (x : Fin line.pass.outWidth) (n : Fin 256)
    (hn : line.hudX x = n) (hbgs : SupportedHudBgs line.pass.u) :
    line.pair x = line6Pair line.pass.u line.input (line.mask x) (line.pass.renderObjLine.out x)
      (some fun _ => line.composited3d x) true n := by
  have hcolumn : Fin.ofNat 256 (line.hudX x).toNat = n := by
    rw [hn]
    apply Fin.ext
    simp
  have hlayers : line.hudLayers x = ((activeBgs line.pass.u true).filter fun bg =>
      (decodeBgLine line.pass.u line.input bg).opaqueAt n &&
        line.mask x &&& ((1 : UInt8) <<< UInt8.ofNat bg) != 0).map
      fun bg => (decodeBgLine line.pass.u line.input bg).pixel n := by
    unfold AdaptiveLine.hudLayers
    dsimp only
    rw [if_pos (by rw [hn]; exact Int.natCast_nonneg _), hcolumn, hudBgs_eq_activeBgs hbgs]
  have hlayer3d : line.layer3d x = if true = true ∧ line.mask x &&& 1 ≠ 0 ∧
      (line.composited3d x >>> 24) &&& 0x1F ≠ 0 then [pixel3d line.pass.u (line.composited3d x)]
      else [] := by
    unfold AdaptiveLine.layer3d
    exact if_congr ⟨fun h => ⟨rfl, h.2, h.1⟩, fun h => ⟨h.2.2, h.2.1⟩⟩ rfl rfl
  rw [line.pair_eq_line6 x]
  unfold AdaptiveLine.line6Pixels AdaptiveLine.pushAll
  rw [hlayers, hlayer3d]
  rfl

/-- The sequence of the pushes does not show: pixels with different keys, pushed in any
sequence, leave the first two of themselves and the backdrop; the widened line, which pushes
the 3D pixel last, has the pair of `compose_line6`; and what it hands to the HD renderer is
the first two of its stack without the 3D pixel. -/
theorem topTwo_pushOrder :
    (∀ (d : Pixel) (l : List Pixel), (∀ p ∈ l, p.ahead d) → l.Pairwise Pixel.KeysDiffer →
      ∃ sorted : List Pixel, sorted.Perm (d :: l) ∧ sorted.Pairwise Pixel.ahead ∧
        ∀ l' : List Pixel, l'.Perm l →
          l'.foldl (pushCandidate Pixel.ahead) (d, d) = firstTwo d sorted) ∧
    (∀ (line : AdaptiveLine) (x : Fin line.pass.outWidth),
      line.pair x = line.pushAll (line.hudLayers x ++ line.layer3d x ++ line.layerObj x)) ∧
    (∀ (line : AdaptiveLine) (x : Fin line.pass.outWidth) (n : Fin 256),
      line.hudX x = n → SupportedHudBgs line.pass.u →
        line.pair x = line6Pair line.pass.u line.input (line.mask x)
          (line.pass.renderObjLine.out x) (some fun _ => line.composited3d x) true n) ∧
    (∀ (line : AdaptiveLine) (x : Fin line.pass.outWidth), ∃ sorted : List Pixel,
      sorted.Perm (backdrop line.input :: (line.hudLayers x ++ line.layerObj x)) ∧
        sorted.Pairwise Pixel.ahead ∧ line.hdPair x = firstTwo (backdrop line.input) sorted) := by
  refine ⟨fun _ _ => foldl_push_perm, fun line x => line.pair_eq_line6 x,
    fun line x n => line.pair_native x n, fun line x => ?_⟩
  have hpart := line.without3d_sublist x
  obtain ⟨sorted, hperm, hsorted, hpush⟩ := foldl_push_perm
    (fun p hp => line.line6Pixels_ahead x p (hpart.subset hp))
    ((line.line6Pixels_keysDiffer x).sublist hpart)
  exact ⟨sorted, hperm, hsorted, hpush _ (List.Perm.refl _)⟩

end NdsRecomp.Video
