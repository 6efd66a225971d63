import NdsRecomp.Video.Compositor

/-!
The direct paths against the general compositor. Where no window, capture or 3D
layer is involved both select the same two front pixels, so they agree on every
line, unless the path for lines without layers looks up a backdrop colour whose
top bit is set: the table has no entry for it.
-/

namespace NdsRecomp.Video

open Library

/-! ### Bits -/

theorem and_eq_zero_of_subset {b m n : UInt16} (h : b &&& n = 0) (hm : n &&& m = m) : b &&& m = 0 := by
  rw [← hm, ← UInt16.and_assoc, h, UInt16.zero_and]

/-- With no effect mode and no second target, BLDCNT selects no effect. -/
theorem effect_eq_zero {b : UInt16} (h : b &&& 0x3FC0 = 0) : (b >>> 6) &&& 3 = 0 := by
  have hfield : b &&& (0xC0 : UInt16) = 0 := and_eq_zero_of_subset h (by decide)
  have hshift : (b &&& (0xC0 : UInt16)) >>> 6 = (b >>> 6) &&& 3 := UInt16.shiftRight_and
  rw [← hshift, hfield]
  decide

theorem rgb6_and (c : UInt16) : rgb6 (c &&& 0x7FFF) = rgb6 c := by
  have hmask : ∀ m : UInt32, 0x7FFF &&& m = m → (c &&& 0x7FFF).toUInt32 &&& m = c.toUInt32 &&& m := by
    intro m hm
    rw [UInt16.toUInt32_and, UInt32.and_assoc]
    exact congrArg _ hm
  unfold rgb6
  dsimp only
  rw [hmask _ (by decide), hmask _ (by decide), hmask _ (by decide)]

theorem rgb32Lut_of_lt {c : UInt16} (h : c.toNat < 32768) :
    rgb32Lut c.toNat = some (toRgb32 (rgb6 c)) := by
  unfold rgb32Lut
  rw [if_pos h, UInt16.ofNat_toNat]

theorem rgb32Lut_and (c : UInt16) : rgb32Lut (c &&& 0x7FFF).toNat = some (toRgb32 (rgb6 c)) := by
  have hlt : (c &&& 0x7FFF).toNat < 32768 := by
    rw [UInt16.toNat_and]
    exact Nat.lt_of_le_of_lt Nat.and_le_right (by decide)
  rw [rgb32Lut_of_lt hlt, rgb6_and]

/-! ### Order of pixels -/

theorem uint8_key_trans {a b c d e f : UInt8} (h₁ : a < c ∨ (a = c ∧ b < d))
    (h₂ : c < e ∨ (c = e ∧ d < f)) : a < e ∨ (a = e ∧ b < f) := by
  simp only [UInt8.lt_iff_toNat_lt, ← UInt8.toNat_inj] at *
  omega

theorem pixel_strictlyAhead : StrictlyAhead Pixel.ahead where
  trans := uint8_key_trans
  asymm := by
    intro a b hab hba
    unfold Pixel.ahead at hab hba
    simp only [UInt8.lt_iff_toNat_lt, ← UInt8.toNat_inj] at hab hba
    omega

theorem bgBefore_strictlyAhead (u : EngineUnit) : StrictlyAhead (bgBefore u) where
  trans := by
    intro a b c hab hbc
    unfold bgBefore at *
    simp only [UInt8.lt_iff_toNat_lt, ← UInt8.toNat_inj, Fin.lt_def] at *
    omega
  asymm := by
    intro a b hab hba
    unfold bgBefore at hab hba
    simp only [UInt8.lt_iff_toNat_lt, ← UInt8.toNat_inj, Fin.lt_def] at hab hba
    omega

theorem bgBefore_total (u : EngineUnit) {a b : Fin 4} (hne : a ≠ b) : bgBefore u a b ∨ bgBefore u b a := by
  unfold bgBefore
  simp only [UInt8.lt_iff_toNat_lt, ← UInt8.toNat_inj, Fin.lt_def]
  have hval : a.val ≠ b.val := fun heq => hne (Fin.ext heq)
  omega

theorem bgPriority_lt (u : EngineUnit) (bg : Fin 4) : bgPriority u bg < 4 := by
  have hle : (u.bgcnt bg &&& 3).toNat ≤ 3 := by
    rw [UInt16.toNat_and]
    exact Nat.and_le_right
  unfold bgPriority
  rw [UInt8.lt_iff_toNat_lt, UInt16.toNat_toUInt8]
  change (u.bgcnt bg &&& 3).toNat % 256 < 4
  omega

theorem bgOrder_toNat (bg : Fin 4) : (UInt8.ofNat (bg + 1)).toNat = bg.val + 1 := by
  revert bg
  decide

/-- Pixels of two layers compare as the layers do. -/
theorem bgPixel_ahead {u : EngineUnit} {input : LineInput} {x : Fin 256} {a b : Fin 4}
    (h : bgBefore u a b) :
    ((decodeBgLine u input a).pixel x).ahead ((decodeBgLine u input b).pixel x) := by
  rcases h with hlt | ⟨heq, hlt⟩
  · exact Or.inl hlt
  · refine Or.inr ⟨heq, ?_⟩
    change UInt8.ofNat (a + 1) < UInt8.ofNat (b + 1)
    rw [UInt8.lt_iff_toNat_lt, bgOrder_toNat, bgOrder_toNat]
    exact Nat.succ_lt_succ hlt

theorem bgPixel_ahead_backdrop (u : EngineUnit) (input : LineInput) (x : Fin 256) (bg : Fin 4) :
    ((decodeBgLine u input bg).pixel x).ahead (backdrop input) := Or.inl (bgPriority_lt u bg)

/-! ### Sprites -/

/-- What is known of a sprite pixel. -/
def Pixel.FromSprite (p : Pixel) : Prop :=
  p.valid = true → p.priority < 4 ∧ p.order = 0 ∧ p.alpha5 = 0 ∧ p.target = 0x10

theorem spritePixel_fromSprite (color : UInt16) (alpha : UInt8) (priority : Fin 4) :
    (spritePixel color alpha priority).FromSprite := by
  intro _
  refine ⟨?_, rfl, rfl, rfl⟩
  have hlt : ∀ p : Fin 4, UInt8.ofNat p < 4 := by decide
  exact hlt priority

theorem write_fromSprite {objWindow : Bool} {line : ObjLine} (h : ∀ i, (line.out i).FromSprite)
    (w : SpriteWrite) (i : Fin 256) : ((line.write objWindow w).out i).FromSprite := by
  cases w with
  | pixel x color alpha priority =>
      change (putObj line.out x (spritePixel color alpha priority) i).FromSprite
      unfold putObj
      split
      · exact spritePixel_fromSprite color alpha priority
      · exact h i
  | window x =>
      unfold ObjLine.write
      dsimp only
      split
      · exact h i
      · exact h i

theorem foldl_fromSprite {objWindow : Bool} (sprites : List SpriteWrite) {line : ObjLine}
    (h : ∀ i, (line.out i).FromSprite) (i : Fin 256) :
    ((sprites.foldl (ObjLine.write objWindow) line).out i).FromSprite := by
  induction sprites generalizing line with
  | nil => exact h i
  | cons w sprites ih => exact ih (write_fromSprite h w)

theorem renderObjLine_fromSprite (u : EngineUnit) (input : LineInput) (objWindow : Bool)
    (i : Fin 256) : ((renderObjLine u input objWindow).out i).FromSprite := by
  unfold renderObjLine
  split
  · intro hvalid
    cases hvalid
  · exact foldl_fromSprite _ (fun _ hvalid => by cases hvalid) i

theorem foldl_write_out (sprites : List SpriteWrite) {line line' : ObjLine}
    (h : line.out = line'.out) :
    (sprites.foldl (ObjLine.write true) line).out = (sprites.foldl (ObjLine.write false) line').out := by
  induction sprites generalizing line line' with
  | nil => exact h
  | cons w sprites ih =>
      apply ih
      cases w with
      | pixel x color alpha priority =>
          change putObj line.out x _ = putObj line'.out x _
          rw [h]
      | window x => exact h

/-- The window buffer changes no pixel. -/
theorem renderObjLine_out (u : EngineUnit) (input : LineInput) :
    (renderObjLine u input true).out = (renderObjLine u input false).out := by
  unfold renderObjLine
  split
  · rfl
  · exact foldl_write_out _ rfl

/-! ### Without windows, capture and 3D -/

section NoWindow

variable {u : EngineUnit} {engine : Fin 2} {bg0_3d cap : Bool}

theorem lineGeneralPath_bg0 (h : lineGeneralPath u engine bg0_3d cap = false) : bg0_3d = false := by
  cases bg0_3d with
  | false => rfl
  | true => simp [lineGeneralPath] at h

theorem lineGeneralPath_windows (h : lineGeneralPath u engine bg0_3d cap = false) :
    u.dispcnt &&& 0xE000 = 0 := by
  unfold lineGeneralPath at h
  simp only [Bool.or_eq_false_iff, bne_eq_false_iff_eq] at h
  exact h.2

theorem windowMask_eq (h : u.dispcnt &&& 0xE000 = 0) (x y : UInt8) (objWindow : Bool) :
    windowMask u x y objWindow = 0x3F := if_pos h

theorem mask_bg (bg : Fin 4) : ((0x3F : UInt8) &&& ((1 : UInt8) <<< UInt8.ofNat bg) != 0) = true := by
  revert bg
  decide

end NoWindow

/-! ### The scan for opaque layers -/

/-- The pixels of the opaque layers, front first. -/
def opaquePixels (lines : List BgLine) (x : Fin 256) : List Pixel :=
  (lines.filter fun l => l.opaqueAt x).map fun l => l.pixel x

theorem opaquePixels_cons (l : BgLine) (lines : List BgLine) (x : Fin 256) :
    opaquePixels (l :: lines) x =
      if l.opaqueAt x then l.pixel x :: opaquePixels lines x else opaquePixels lines x := by
  unfold opaquePixels
  rw [List.filter_cons]
  split <;> rfl

theorem scanBelow_eq (top back : Pixel) (x : Fin 256) (lines : List BgLine) :
    scanBelow top back x lines = firstTwo back (top :: opaquePixels lines x) := by
  induction lines with
  | nil => rfl
  | cons l lines ih =>
      rw [opaquePixels_cons, scanBelow]
      split
      · rfl
      · exact ih

theorem scanFront_eq (back : Pixel) (x : Fin 256) (lines : List BgLine) :
    scanFront back x lines = firstTwo back (opaquePixels lines x) := by
  induction lines with
  | nil => rfl
  | cons l lines ih =>
      rw [opaquePixels_cons, scanFront]
      split
      · exact scanBelow_eq _ _ _ _
      · exact ih

theorem scanFront_of_find_some {back : Pixel} {x : Fin 256} {lines : List BgLine} {l : BgLine}
    (h : lines.find? (fun l => l.opaqueAt x) = some l) :
    (scanFront back x lines).1 = l.pixel x := by
  induction lines with
  | nil => cases h
  | cons head lines ih =>
      rw [List.find?_cons] at h
      rw [scanFront_eq, opaquePixels_cons]
      cases hshown : head.opaqueAt x with
      | true =>
          rw [hshown] at h
          cases h
          rw [if_pos rfl]
          cases opaquePixels lines x <;> rfl
      | false =>
          rw [hshown] at h
          rw [if_neg Bool.false_ne_true, ← scanFront_eq]
          exact ih h

theorem scanFront_of_find_none {back : Pixel} {x : Fin 256} {lines : List BgLine}
    (h : lines.find? (fun l => l.opaqueAt x) = none) : scanFront back x lines = (back, back) := by
  have hnone : lines.filter (fun l => l.opaqueAt x) = [] :=
    List.filter_eq_nil_iff.mpr (List.find?_eq_none.mp h)
  rw [scanFront_eq, opaquePixels, hnone]
  rfl

/-! ### The layers in both orders -/

/-- The opaque layers as the compositor visits them. -/
def opaqueLayers (u : EngineUnit) (input : LineInput) (x : Fin 256) : List (Fin 4) :=
  (activeBgs u false).filter fun bg => (decodeBgLine u input bg).opaqueAt x

theorem opaquePixels_frontFirst (u : EngineUnit) (input : LineInput) (x : Fin 256) :
    opaquePixels (frontFirst u input) x =
      ((insertionSortBack (bgBefore u) (activeBgs u false)).filter
        fun bg => (decodeBgLine u input bg).opaqueAt x).map
        fun bg => (decodeBgLine u input bg).pixel x := by
  unfold opaquePixels frontFirst
  rw [List.filter_map, List.map_map]
  rfl

theorem activeBgs_nodup (u : EngineUnit) (bg0_3d : Bool) : (activeBgs u bg0_3d).Nodup :=
  (List.nodup_finRange 4).filter _

theorem frontFirst_sorted (u : EngineUnit) (input : LineInput) (x : Fin 256) :
    (opaquePixels (frontFirst u input) x).Pairwise Pixel.ahead := by
  have hcompare : (activeBgs u false).Pairwise fun a b => bgBefore u b a ∨ bgBefore u a b :=
    (activeBgs_nodup u false).imp fun hne => bgBefore_total u hne.symm
  have hsorted := insertionSortBack_sorted (bgBefore_strictlyAhead u) hcompare
  rw [opaquePixels_frontFirst, List.pairwise_map]
  exact (hsorted.filter _).imp fun hbefore => bgPixel_ahead hbefore

theorem frontFirst_perm (u : EngineUnit) (input : LineInput) (x : Fin 256) :
    (opaquePixels (frontFirst u input) x).Perm
      ((opaqueLayers u input x).map fun bg => (decodeBgLine u input bg).pixel x) := by
  rw [opaquePixels_frontFirst]
  exact ((insertionSortBack_perm _).filter _).map _

/-- Sorting the layers and scanning them gives the compositor's two front pixels. -/
theorem scanFront_eq_foldl (u : EngineUnit) (input : LineInput) (x : Fin 256) :
    ((opaqueLayers u input x).map fun bg => (decodeBgLine u input bg).pixel x).foldl
        (pushCandidate Pixel.ahead) (backdrop input, backdrop input) =
      scanFront (backdrop input) x (frontFirst u input) := by
  rw [scanFront_eq]
  refine foldl_pushCandidate pixel_strictlyAhead ?_ ?_ (frontFirst_perm u input x)
    (frontFirst_sorted u input x)
  · intro q hq
    obtain ⟨bg, -, rfl⟩ := List.mem_map.mp hq
    exact bgPixel_ahead_backdrop u input x bg
  · rw [List.pairwise_map]
    refine ((activeBgs_nodup u false).filter _).imp fun hne => ?_
    rcases bgBefore_total u hne with hab | hba
    · exact Or.inr (bgPixel_ahead hab)
    · exact Or.inl (bgPixel_ahead hba)

/-! ### The two front pixels -/

/-- The sprite pixel of the direct paths. -/
def objPixel (u : EngineUnit) (input : LineInput) (x : Fin 256) : Pixel :=
  (renderObjLine u input false).out x

theorem objPixel_fromSprite (u : EngineUnit) (input : LineInput) (x : Fin 256) :
    (objPixel u input x).FromSprite := renderObjLine_fromSprite u input false x

/-- Top and below, from the scan and the sprite. -/
def selected (u : EngineUnit) (input : LineInput) (x : Fin 256) : Pixel × Pixel :=
  if (objPixel u input x).valid then
    pushCandidate Pixel.ahead (scanFront (backdrop input) x (frontFirst u input)) (objPixel u input x)
  else scanFront (backdrop input) x (frontFirst u input)

theorem composeLine6_no3d (u : EngineUnit) (input : LineInput) (y : UInt8)
    (line3d : Option (Fin 256 → UInt32)) (x : Fin 256) :
    composeLine6 u input y line3d false x = composeLine6 u input y none false x := by
  cases line3d with
  | none => rfl
  | some line =>
      unfold composeLine6
      dsimp only
      rw [if_neg (fun hand => Bool.false_ne_true hand.1)]

theorem composeLine6_eq {u : EngineUnit} (h : u.dispcnt &&& 0xE000 = 0) (input : LineInput) (y : UInt8)
    (line3d : Option (Fin 256 → UInt32)) (x : Fin 256) :
    composeLine6 u input y line3d false x =
      compose u (selected u input x).1 (selected u input x).2 true := by
  have hlayers : ((activeBgs u false).filter fun bg => (decodeBgLine u input bg).opaqueAt x &&
      (0x3F : UInt8) &&& ((1 : UInt8) <<< UInt8.ofNat bg) != 0) = opaqueLayers u input x := by
    refine List.filter_congr fun bg _ => ?_
    rw [mask_bg, Bool.and_true]
  rw [composeLine6_no3d]
  unfold composeLine6
  dsimp only
  rw [windowMask_eq h, hlayers, renderObjLine_out, List.append_nil, List.foldl_append,
    scanFront_eq_foldl]
  unfold selected objPixel
  cases hvalid : ((renderObjLine u input false).out x).valid with
  | true =>
      rw [if_pos ⟨rfl, by decide⟩, if_pos rfl]
      rfl
  | false =>
      rw [if_neg (fun hand => Bool.false_ne_true hand.1), if_neg Bool.false_ne_true]
      rfl

/-! ### Without effects -/

/-- A pixel without 3D alpha whose target bit is one of the six layers. -/
structure Pixel.Flat (p : Pixel) : Prop where
  alpha5 : p.alpha5 = 0
  target : (0x3F00 : UInt16) &&& (p.target.toUInt16 <<< 8) = p.target.toUInt16 <<< 8

theorem backdrop_flat (input : LineInput) : (backdrop input).Flat where
  alpha5 := rfl
  target := by
    have hbit : (0x3F00 : UInt16) &&& ((0x20 : UInt8).toUInt16 <<< 8) =
        (0x20 : UInt8).toUInt16 <<< 8 := by decide
    exact hbit

theorem bgPixel_flat (u : EngineUnit) (input : LineInput) (bg : Fin 4) (x : Fin 256) :
    ((decodeBgLine u input bg).pixel x).Flat where
  alpha5 := rfl
  target := by
    have hbits : ∀ b : Fin 4, (0x3F00 : UInt16) &&& ((1 <<< UInt8.ofNat b : UInt8).toUInt16 <<< 8) =
        (1 <<< UInt8.ofNat b : UInt8).toUInt16 <<< 8 := by decide
    exact hbits bg

theorem sprite_flat {p : Pixel} (h : p.FromSprite) (hvalid : p.valid = true) : p.Flat where
  alpha5 := (h hvalid).2.2.1
  target := by
    rw [(h hvalid).2.2.2]
    decide

theorem firstTwo_flat {d : Pixel} {l : List Pixel} (hd : d.Flat) (hl : ∀ p ∈ l, p.Flat) :
    (firstTwo d l).1.Flat ∧ (firstTwo d l).2.Flat := by
  match l with
  | [] => exact ⟨hd, hd⟩
  | [a] => exact ⟨hl a List.mem_cons_self, hd⟩
  | a :: b :: _ =>
      exact ⟨hl a List.mem_cons_self, hl b (List.mem_cons_of_mem _ List.mem_cons_self)⟩

theorem scanFront_flat (u : EngineUnit) (input : LineInput) (x : Fin 256) :
    (scanFront (backdrop input) x (frontFirst u input)).1.Flat ∧
      (scanFront (backdrop input) x (frontFirst u input)).2.Flat := by
  rw [scanFront_eq]
  refine firstTwo_flat (backdrop_flat input) fun p hp => ?_
  obtain ⟨bg, -, rfl⟩ := List.mem_map.mp ((frontFirst_perm u input x).mem_iff.mp hp)
  exact bgPixel_flat u input bg x

theorem selected_flat (u : EngineUnit) (input : LineInput) (x : Fin 256) :
    (selected u input x).1.Flat ∧ (selected u input x).2.Flat := by
  obtain ⟨htop, hbelow⟩ := scanFront_flat u input x
  unfold selected pushCandidate
  split
  · next hvalid =>
      have hobj := sprite_flat (objPixel_fromSprite u input x) hvalid
      split
      · exact ⟨hobj, htop⟩
      · split
        · exact ⟨htop, hobj⟩
        · exact ⟨htop, hbelow⟩
  · exact ⟨htop, hbelow⟩

theorem compose_plain {u : EngineUnit} (h : u.bldcnt &&& 0x3FC0 = 0) {top below : Pixel}
    (htop : top.Flat) (hbelow : below.Flat) (effectsEnabled : Bool) :
    compose u top below effectsEnabled = top.color := by
  have htarget : u.bldcnt &&& (0x3F00 : UInt16) = 0 := and_eq_zero_of_subset h (by decide)
  have hsecond : u.bldcnt &&& (below.target.toUInt16 <<< 8) = 0 :=
    and_eq_zero_of_subset htarget hbelow.target
  unfold compose
  dsimp only
  rw [effect_eq_zero h, hsecond, if_neg (not_not_intro htop.alpha5), if_neg (fun hand => hand.2 rfl),
    if_neg (show ¬ (0 : UInt16) = 1 by decide), if_neg (show ¬ (0 : UInt16) = 2 by decide),
    if_neg (show ¬ (0 : UInt16) = 3 by decide), ite_self]

theorem masterBrightness_off {u : EngineUnit} (h : brightMode u = 0) (c : UInt32) :
    masterBrightness u c = c := by
  unfold masterBrightness
  dsimp only
  rw [h, if_neg (by decide), if_neg (by decide)]

/-! ### The front pixel path -/

/-- A sprite pixel at the front's priority or lower stands before it. -/
theorem obj_ahead_iff {obj top : Pixel} (horder : obj.order = 0) (htop : 0 < top.order) :
    obj.ahead top ↔ obj.priority ≤ top.priority := by
  unfold Pixel.ahead
  rw [horder]
  simp only [UInt8.lt_iff_toNat_lt, UInt8.le_iff_toNat_le, ← UInt8.toNat_inj] at *
  omega

theorem scanFront_order (u : EngineUnit) (input : LineInput) (x : Fin 256) :
    0 < (scanFront (backdrop input) x (frontFirst u input)).1.order := by
  cases hfind : (frontFirst u input).find? (fun l => l.opaqueAt x) with
  | none =>
      rw [scanFront_of_find_none hfind]
      have hpos : (0 : UInt8) < 5 := by decide
      exact hpos
  | some l =>
      rw [scanFront_of_find_some hfind]
      obtain ⟨bg, -, rfl⟩ := List.mem_map.mp (List.mem_of_find?_eq_some hfind)
      have hpos : ∀ b : Fin 4, 0 < UInt8.ofNat (b + 1) := by decide
      exact hpos bg

/-- The front of the pair, by cases on the sprite. -/
theorem selected_top (u : EngineUnit) (input : LineInput) (x : Fin 256) :
    (selected u input x).1 =
      if (objPixel u input x).valid = true ∧
          (objPixel u input x).priority ≤ (scanFront (backdrop input) x (frontFirst u input)).1.priority
        then objPixel u input x
        else (scanFront (backdrop input) x (frontFirst u input)).1 := by
  unfold selected pushCandidate
  cases hvalid : (objPixel u input x).valid with
  | false => rw [if_neg Bool.false_ne_true, if_neg (fun hand => Bool.false_ne_true hand.1)]
  | true =>
      have horder := (objPixel_fromSprite u input x hvalid).2.1
      have hiff := obj_ahead_iff horder (scanFront_order u input x)
      rw [if_pos rfl]
      by_cases hle : (objPixel u input x).priority ≤
          (scanFront (backdrop input) x (frontFirst u input)).1.priority
      · rw [if_pos (hiff.mpr hle), if_pos ⟨rfl, hle⟩]
      · have hbehind : ¬ (true = true ∧ (objPixel u input x).priority ≤
            (scanFront (backdrop input) x (frontFirst u input)).1.priority) := fun hand => hle hand.2
        rw [if_neg (fun hahead => hle (hiff.mp hahead)), if_neg hbehind]
        split <;> rfl

theorem frontPixel_some {lines : List BgLine} {x : Fin 256} {l : BgLine} (obj : Pixel) (input : LineInput)
    (h : lines.find? (fun l => l.opaqueAt x) = some l) :
    frontPixel obj input lines x =
      if obj.valid = true ∧ obj.priority ≤ l.prio then some (toRgb32 obj.color)
      else some (toRgb32 (rgb6 (l.color x))) := by
  unfold frontPixel
  rw [h]
  dsimp only
  rw [rgb32Lut_and]

theorem frontPixel_none {lines : List BgLine} {x : Fin 256} (obj : Pixel) (input : LineInput)
    (h : lines.find? (fun l => l.opaqueAt x) = none) :
    frontPixel obj input lines x =
      if obj.valid = true ∧ obj.priority ≤ 4 then some (toRgb32 obj.color)
      else some (toRgb32 (rgb6 (backdrop15 input))) := by
  unfold frontPixel
  rw [h]
  dsimp only
  rw [rgb32Lut_and]

theorem frontPixel_eq (u : EngineUnit) (input : LineInput) (x : Fin 256) :
    frontPixel (objPixel u input x) input (frontFirst u input) x =
      some (toRgb32 (selected u input x).1.color) := by
  rw [selected_top]
  cases hfind : (frontFirst u input).find? (fun l => l.opaqueAt x) with
  | none =>
      have hprio : (backdrop input).priority = 4 := rfl
      have hcolor : (backdrop input).color = rgb6 (backdrop15 input) := rfl
      rw [scanFront_of_find_none hfind, frontPixel_none _ _ hfind]
      dsimp only
      rw [hprio]
      split
      · rfl
      · rw [hcolor]
  | some l =>
      have hprio : (l.pixel x).priority = l.prio := rfl
      have hcolor : (l.pixel x).color = rgb6 (l.color x &&& 0x7FFF) := rfl
      rw [scanFront_of_find_some hfind, frontPixel_some _ _ hfind, hprio]
      split
      · rfl
      · rw [hcolor, rgb6_and]

/-! ### Which pixels a sprite covers -/

/-- The sprites draw a pixel at `x`. -/
def SpriteAt (u : EngineUnit) (input : LineInput) (x : Fin 256) : Prop :=
  u.dispcnt &&& 0x1000 ≠ 0 ∧
    ∃ color alpha priority, SpriteWrite.pixel (x : Int) color alpha priority ∈ input.sprites

theorem putObj_valid (line : Fin 256 → Pixel) (i : Fin 256) (x : Int) (color : UInt16) (alpha : UInt8)
    (priority : Fin 4) :
    (putObj line x (spritePixel color alpha priority) i).valid = true ↔
      (line i).valid = true ∨ x = i := by
  unfold putObj
  cases hline : (line i).valid with
  | true =>
      refine iff_of_true ?_ (Or.inl rfl)
      split
      · rfl
      · exact hline
  | false =>
      by_cases hx : (i : Int) = x
      · rw [if_pos ⟨hx, rfl, Or.inl rfl⟩]
        exact iff_of_true rfl (Or.inr hx.symm)
      · rw [if_neg (fun hand => hx hand.1), hline]
        refine iff_of_false Bool.false_ne_true ?_
        rintro (hfalse | heq)
        · exact Bool.false_ne_true hfalse
        · exact hx heq.symm

theorem foldl_write_valid (sprites : List SpriteWrite) (line : ObjLine) (i : Fin 256) :
    ((sprites.foldl (ObjLine.write false) line).out i).valid = true ↔
      (line.out i).valid = true ∨
        ∃ color alpha priority, SpriteWrite.pixel (i : Int) color alpha priority ∈ sprites := by
  induction sprites generalizing line with
  | nil => simp
  | cons w sprites ih =>
      rw [List.foldl_cons, ih]
      cases w with
      | pixel x color alpha priority =>
          change (putObj line.out x (spritePixel color alpha priority) i).valid = true ∨ _ ↔ _
          rw [putObj_valid]
          simp only [List.mem_cons, SpriteWrite.pixel.injEq]
          constructor
          · rintro ((hvalid | rfl) | ⟨c, a, p, hmem⟩)
            · exact Or.inl hvalid
            · exact Or.inr ⟨color, alpha, priority, Or.inl ⟨rfl, rfl, rfl, rfl⟩⟩
            · exact Or.inr ⟨c, a, p, Or.inr hmem⟩
          · rintro (hvalid | ⟨c, a, p, ⟨hx, -⟩ | hmem⟩)
            · exact Or.inl (Or.inl hvalid)
            · exact Or.inl (Or.inr hx.symm)
            · exact Or.inr ⟨c, a, p, hmem⟩
      | window x =>
          simp only [List.mem_cons, reduceCtorEq, false_or]
          rfl

theorem objPixel_valid_iff (u : EngineUnit) (input : LineInput) (x : Fin 256) :
    (objPixel u input x).valid = true ↔ SpriteAt u input x := by
  unfold objPixel renderObjLine SpriteAt
  by_cases hoff : u.dispcnt &&& 0x1000 = 0
  · rw [if_pos hoff]
    exact iff_of_false Bool.false_ne_true fun hand => hand.1 hoff
  · rw [if_neg hoff, foldl_write_valid]
    constructor
    · rintro (hfalse | hsprite)
      · exact absurd hfalse Bool.false_ne_true
      · exact ⟨hoff, hsprite⟩
    · exact fun hand => Or.inr hand.2

/-! ### The direct paths -/

/-- The backdrop colour reaches the table with its top bit: no layer, no effect,
no brightness, and a pixel without sprite. -/
def RawBackdropLookup (u : EngineUnit) (input : LineInput) : Prop :=
  activeBgs u false = [] ∧ u.bldcnt = 0 ∧ brightMode u = 0 ∧ 0x8000 ≤ (backdrop15 input).toNat ∧
    ∃ x, ¬ SpriteAt u input x

theorem frontFirst_length (u : EngineUnit) (input : LineInput) :
    (frontFirst u input).length = 0 ↔ activeBgs u false = [] := by
  unfold frontFirst
  rw [List.length_map, (insertionSortBack_perm _).length_eq, List.length_eq_zero_iff]

theorem objOverBackdrop_eq {u : EngineUnit} {input : LineInput} (hno : activeBgs u false = [])
    (x : Fin 256) :
    objOverBackdrop (objPixel u input x) input = some (toRgb32 (selected u input x).1.color) ↔
      SpriteAt u input x ∨ (backdrop15 input).toNat < 0x8000 := by
  have hempty : frontFirst u input = [] := List.length_eq_zero_iff.mp ((frontFirst_length u input).mpr hno)
  rw [← objPixel_valid_iff, selected_top, hempty]
  unfold objOverBackdrop
  cases hvalid : (objPixel u input x).valid with
  | true =>
      have hprio : (objPixel u input x).priority ≤ 4 :=
        UInt8.le_of_lt (objPixel_fromSprite u input x hvalid).1
      rw [if_pos rfl, if_pos ⟨rfl, hprio⟩]
      exact iff_of_true rfl (Or.inl rfl)
  | false =>
      rw [if_neg Bool.false_ne_true, if_neg (fun hand => Bool.false_ne_true hand.1)]
      by_cases hlt : (backdrop15 input).toNat < 32768
      · rw [rgb32Lut_of_lt hlt]
        exact iff_of_true rfl (Or.inr hlt)
      · unfold rgb32Lut
        rw [if_neg hlt]
        refine iff_of_false (fun heq => by cases heq) ?_
        rintro (hfalse | hlt')
        · exact Bool.false_ne_true hfalse
        · exact hlt hlt'

/-- The direct paths against the general compositor: with no window, capture or
3D layer every pixel agrees, unless the backdrop is looked up with its top bit. -/
theorem direct_paths_equal_compositor (u : EngineUnit) (engine : Fin 2) (input : LineInput) (y : UInt8)
    (line3d : Option (Fin 256 → UInt32)) (bg0_3d cap : Bool)
    (h : lineGeneralPath u engine bg0_3d cap = false) :
    (∀ x, renderDirect u input x =
        some (toRgb32 (masterBrightness u (composeLine6 u input y line3d bg0_3d x)))) ↔
      ¬ RawBackdropLookup u input := by
  cases lineGeneralPath_bg0 h
  have hwindows := lineGeneralPath_windows h
  have hplain : u.bldcnt &&& 0x3FC0 = 0 → ∀ x,
      compose u (selected u input x).1 (selected u input x).2 true = (selected u input x).1.color :=
    fun hbld x => compose_plain hbld (selected_flat u input x).1 (selected_flat u input x).2 true
  simp only [composeLine6_eq hwindows]
  unfold renderDirect RawBackdropLookup
  simp only [← objPixel.eq_1]
  by_cases hbackdrop : (frontFirst u input).length = 0 ∧ u.bldcnt = 0 ∧ brightMode u = 0
  · obtain ⟨hno, hbld, hbright⟩ := hbackdrop
    have hnone := (frontFirst_length u input).mp hno
    have hpath : ∀ x, objOverBackdrop (objPixel u input x) input =
        some (toRgb32 (masterBrightness u
          (compose u (selected u input x).1 (selected u input x).2 true))) ↔
        SpriteAt u input x ∨ (backdrop15 input).toNat < 0x8000 := by
      intro x
      rw [masterBrightness_off hbright, hplain (by rw [hbld]; decide)]
      exact objOverBackdrop_eq hnone x
    simp only [hno, hbld, hbright, and_self, if_true]
    refine (forall_congr' hpath).trans ?_
    simp only [hnone, true_and]
    constructor
    · rintro hall ⟨htop, x, hx⟩
      exact (hall x).elim hx fun hlt => absurd hlt (Nat.not_lt.mpr htop)
    · intro hnot x
      by_contra hx
      push Not at hx
      exact hnot ⟨hx.2, x, hx.1⟩
  · simp only [if_neg hbackdrop]
    refine iff_of_true (fun x => ?_) fun hraw => ?_
    · split
      · next hfront =>
          rw [masterBrightness_off hfront.2, hplain hfront.1]
          exact frontPixel_eq u input x
      · rfl
    · exact hbackdrop ⟨(frontFirst_length u input).mpr hraw.1, hraw.2.1, hraw.2.2.1⟩

/-- A display with black palette and no layer. -/
theorem direct_paths_equal_compositor_black :
    lineGeneralPath { dispcnt := 0x10000 } 0 false false = false ∧
      ∀ x, renderDirect { dispcnt := 0x10000 } ⟨fun _ => 0, fun _ _ => 0, []⟩ x =
        some (toRgb32 (masterBrightness { dispcnt := 0x10000 }
          (composeLine6 { dispcnt := 0x10000 } ⟨fun _ => 0, fun _ _ => 0, []⟩ 0 none false x))) := by
  refine ⟨by decide, ?_⟩
  exact (direct_paths_equal_compositor { dispcnt := 0x10000 } 0 ⟨fun _ => 0, fun _ _ => 0, []⟩ 0
    none false false (by decide)).mpr fun hraw => absurd hraw.2.2.2.1 (by decide)

/-- Palette entry 0 is 0x8000: the direct path reads behind the table, where the
compositor shows black. -/
theorem raw_backdrop_has_no_entry :
    lineGeneralPath { dispcnt := 0x10000 } 0 false false = false ∧
      renderDirect { dispcnt := 0x10000 } ⟨fun i => if i = 1 then 0x80 else 0, fun _ _ => 0, []⟩ 0 =
        none ∧
      composeLine6 { dispcnt := 0x10000 } ⟨fun i => if i = 1 then 0x80 else 0, fun _ _ => 0, []⟩ 0
        none false 0 = 0 := by
  decide

end NdsRecomp.Video
