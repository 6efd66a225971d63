import NdsRecomp.Video.RowViews

/-!
`render_obj_line` from OAM to pixels. The objects are visited from the last
entry to the first; each one writes its columns from left to right. Regular tile
objects have a loop of their own, which fetches a tile row at a time.
-/

namespace NdsRecomp.Video

open Bus Library

/-- The arguments of `render_obj_line`, with the adaptive HUD settings it reads. -/
structure ObjPass where
  u : EngineUnit
  engine : Engine
  lineY : Int
  outWidth : Nat
  oam : Nat → UInt8
  palette : Nat → UInt8
  vram : ViewedVram
  objWindow : Bool
  adaptiveHudAnchor : Bool
  adaptiveHudCenterWidth : Int

/-- What the loop over OAM derives from an entry that touches the line. -/
structure LineObj where
  a1 : UInt16
  a2 : UInt16
  affine : Bool
  mode : UInt16
  color256 : Bool
  w : Nat
  h : Nat
  bw : Nat
  bh : Nat
  row : Nat
  outputSx : Int
  pa : Int := 0
  pb : Int := 0
  pc : Int := 0
  pd : Int := 0

def objWidths : List Nat := [8, 16, 8, 8, 16, 32, 8, 8, 32, 32, 16, 8, 64, 64, 32, 8]

def objHeights : List Nat := [8, 8, 16, 8, 16, 8, 32, 8, 32, 16, 32, 8, 64, 32, 64, 8]

/-- The nine-bit X coordinate, sign-extended. -/
def objX (a1 : UInt16) : Int := (a1 <<< 7).toInt16.toInt >>> (7 : Nat)

namespace ObjPass

/-- Where an object lands on a line wider than the native one. -/
def outputX (pass : ObjPass) (sx : Int) (bw : Nat) : Int :=
  if 256 < pass.outWidth then
    let extra : Int := ((pass.outWidth - 256) / 2 : Nat)
    if pass.engine = .a ∧ pass.adaptiveHudAnchor = true then
      let center := sx + (bw / 2 : Nat)
      let centerLeft := (256 - pass.adaptiveHudCenterWidth).tdiv 2
      let centerRight := centerLeft + pass.adaptiveHudCenterWidth
      if center < centerLeft then sx
      else if centerRight ≤ center then sx + extra * 2
      else sx + extra
    else sx + extra
  else sx

/-- Entry `n` up to the point where drawing starts; `none` is each `continue`. -/
def lineObj (pass : ObjPass) (n : Nat) : Option LineObj :=
  let a0 := view16 pass.oam (n * 8)
  let a1 := view16 pass.oam (n * 8 + 2)
  let a2 := view16 pass.oam (n * 8 + 4)
  let shape := (a0 >>> 14) &&& 3
  let size := (a1 >>> 14) &&& 3
  let sp := (shape ||| (size <<< 2)).toNat
  let w := objWidths.getD sp 0
  let h := objHeights.getD sp 0
  let affine := (a0 &&& 0x0100) != 0
  if affine = false ∧ a0 &&& 0x0200 ≠ 0 then none
  else
    let double := affine && a0 &&& 0x0200 != 0
    let bw := if double then w * 2 else w
    let bh := if double then h * 2 else h
    let sy := (a0 &&& 0xFF).toNat
    let row := ((pass.lineY - sy) % 256).toNat
    let outputSx := pass.outputX (objX a1) bw
    let mode := (a0 >>> 10) &&& 3
    let group := ((a1 >>> 9) &&& 0x1F).toNat
    let parameter (offset : Nat) : Int :=
      if affine then (view16 pass.oam (group * 32 + offset)).toInt16.toInt else 0
    if bh ≤ row then none
    else if outputSx ≤ -bw ∨ (pass.outWidth : Int) ≤ outputSx then none
    else if mode = 2 ∧ pass.objWindow = false then none
    else some {
      a1 := a1, a2 := a2, affine := affine, mode := mode, color256 := a0 &&& 0x2000 != 0
      w := w, h := h, bw := bw, bh := bh, row := row, outputSx := outputSx
      pa := parameter 6, pb := parameter 14, pc := parameter 22, pd := parameter 30 }

end ObjPass

namespace LineObj

def tile (o : LineObj) : UInt32 := (o.a2 &&& 0x3FF).toUInt32

def priority (o : LineObj) : Fin 4 := Fin.ofNat 4 (o.a2 >>> 10).toNat

def alpha (o : LineObj) : UInt8 := if o.mode = 1 then 0xFF else 0

/-- The palette number, which a bitmap object uses as its alpha. -/
def paletteBits (o : LineObj) : UInt32 := ((o.a2 >>> 12) &&& 0xF).toUInt32

/-- `!affine && mode != 3 && mode != 2` -/
def regularTile (o : LineObj) : Bool := !o.affine && o.mode != 3 && o.mode != 2

/-- `px` of a regular object. -/
def flippedX (o : LineObj) (dx : Nat) : Nat := if o.a1 &&& 0x1000 ≠ 0 then o.w - 1 - dx else dx

/-- `py` of a regular object. -/
def flippedY (o : LineObj) : Nat := if o.a1 &&& 0x2000 ≠ 0 then o.h - 1 - o.row else o.row

/-- The object's own coordinates of column `dx`. -/
def texel (o : LineObj) (dx : Nat) : Option (Nat × Nat) :=
  if o.affine then
    let x : Int := dx - (o.bw / 2 : Nat)
    let y : Int := o.row - (o.bh / 2 : Nat)
    let px := (x * o.pa + y * o.pb + (o.w <<< 7 : Nat)) >>> (8 : Nat)
    let py := (x * o.pc + y * o.pd + (o.h <<< 7 : Nat)) >>> (8 : Nat)
    if px < 0 ∨ (o.w : Int) ≤ px ∨ py < 0 ∨ (o.h : Int) ≤ py then none
    else some (px.toNat, py.toNat)
  else some (o.flippedX dx, o.flippedY)

end LineObj

namespace ObjPass

def tileIndex (pass : ObjPass) (o : LineObj) (py : Nat) : UInt32 :=
  if pass.u.dispcnt &&& 0x10 ≠ 0 then
    (o.tile <<< ((pass.u.dispcnt >>> 20) &&& 3)) +
      UInt32.ofNat ((py >>> 3) * (o.w >>> 3) * (if o.color256 then 2 else 1))
  else o.tile + UInt32.ofNat ((py >>> 3) * 0x20)

/-- The colour of a nonzero index. -/
def paletteColor (pass : ObjPass) (o : LineObj) (index : UInt8) : UInt16 :=
  if o.color256 then
    if pass.u.dispcnt &&& 0x80000000 ≠ 0 then
      (pass.vram.vram.readObjExtpal pass.engine
        ((o.paletteBits <<< 9) + (index.toUInt32 <<< 1)) .half).toUInt16
    else view16 pass.palette (0x200 + index.toNat * 2)
  else view16 pass.palette (0x200 + o.paletteBits.toNat * 32 + index.toNat * 2)

/-- A tile pixel fetched by itself. -/
def tileIndexAt (pass : ObjPass) (o : LineObj) (px py : Nat) : UInt8 :=
  if o.color256 then
    pass.vram.objView8 pass.engine
      ((pass.tileIndex o py <<< 5) + UInt32.ofNat ((py % 8) <<< 3) +
        UInt32.ofNat ((px >>> 3) <<< 6) + UInt32.ofNat (px % 8))
  else
    let packed := pass.vram.objView8 pass.engine
      ((pass.tileIndex o py <<< 5) + UInt32.ofNat ((py % 8) <<< 2) +
        UInt32.ofNat ((px >>> 3) <<< 5) + UInt32.ofNat (px % 8 / 2))
    if px % 2 = 1 then packed >>> 4 else packed &&& 0xF

def bitmapColor (pass : ObjPass) (o : LineObj) (px py : Nat) : Option UInt16 :=
  let tile := o.tile
  let at_ (base : UInt32) : Option UInt16 :=
    let color := pass.vram.objView16 pass.engine base
    if color &&& 0x8000 = 0 then none else some color
  if o.paletteBits = 0 then none
  else if pass.u.dispcnt &&& 0x40 ≠ 0 then
    if pass.u.dispcnt &&& 0x20 ≠ 0 then none
    else at_ ((tile <<< ((7 : UInt32) + ((pass.u.dispcnt >>> 22) &&& 1))) +
      UInt32.ofNat ((py * o.w + px) * 2))
  else if pass.u.dispcnt &&& 0x20 ≠ 0 then
    at_ (((tile &&& 0x1F) <<< 4) + ((tile &&& 0x3E0) <<< 7) + UInt32.ofNat ((py * 256 + px) * 2))
  else
    at_ (((tile &&& 0xF) <<< 4) + ((tile &&& 0x3F0) <<< 7) + UInt32.ofNat ((py * 128 + px) * 2))

/-- One step of the per-pixel loop; `none` is each `continue`. -/
def pixelWrite (pass : ObjPass) (o : LineObj) (dx : Nat) : Option SpriteWrite :=
  match o.texel dx with
  | none => none
  | some (px, py) =>
      let screenX := o.outputSx + dx
      if screenX < 0 ∨ (pass.outWidth : Int) ≤ screenX then none
      else if o.mode = 3 then
        (pass.bitmapColor o px py).map fun color =>
          .pixel screenX color (min 16 (o.paletteBits + 1)).toUInt8 o.priority
      else
        let index := pass.tileIndexAt o px py
        if index = 0 then none
        else if o.mode = 2 then some (.window screenX)
        else some (.pixel screenX (pass.paletteColor o index) o.alpha o.priority)

/-- The per-pixel loop. -/
def genericWrites (pass : ObjPass) (o : LineObj) : List SpriteWrite :=
  (List.range o.bw).filterMap (pass.pixelWrite o)

/-- A tile row fetched whole, and the index of each of its pixels. -/
def rowIndex (pass : ObjPass) (o : LineObj) (px py : Nat) : Nat → UInt8 :=
  if o.color256 then
    let rowbits := pass.vram.objView64 pass.engine
      ((pass.tileIndex o py <<< 5) + UInt32.ofNat ((py % 8) <<< 3) + UInt32.ofNat ((px >>> 3) <<< 6))
    fun pxk => (rowbits >>> UInt64.ofNat (8 * (pxk % 8))).toUInt8
  else
    let rowbits := pass.vram.objView32 pass.engine
      ((pass.tileIndex o py <<< 5) + UInt32.ofNat ((py % 8) <<< 2) + UInt32.ofNat ((px >>> 3) <<< 5))
    fun pxk => ((rowbits >>> UInt32.ofNat (4 * (pxk % 8))) &&& 0xF).toUInt8

/-- The columns left of the tile's edge, in the direction of the walk. -/
def tileLeft (o : LineObj) (dx : Nat) : Nat :=
  if o.a1 &&& 0x1000 ≠ 0 then o.flippedX dx % 8 + 1 else 8 - o.flippedX dx % 8

theorem tileLeft_pos (o : LineObj) (dx : Nat) : 0 < tileLeft o dx := by
  unfold tileLeft
  split <;> omega

/-- The columns `dx` to `dx + run` of one tile row. -/
def fastRun (pass : ObjPass) (o : LineObj) (dx run : Nat) : List SpriteWrite :=
  let px := o.flippedX dx
  let row := pass.rowIndex o px o.flippedY
  (List.range run).filterMap fun k =>
    let index := row (if o.a1 &&& 0x1000 ≠ 0 then px - k else px + k)
    if index = 0 then none
    else some (.pixel (o.outputSx + (dx + k : Nat)) (pass.paletteColor o index) o.alpha o.priority)

def fastLoop (pass : ObjPass) (o : LineObj) (dxEnd dx : Nat) : List SpriteWrite :=
  if dx < dxEnd then
    let run := min (tileLeft o dx) (dxEnd - dx)
    pass.fastRun o dx run ++ fastLoop pass o dxEnd (dx + run)
  else []
termination_by dxEnd - dx
decreasing_by
  have hpos := tileLeft_pos o dx
  omega

/-- The first column on the line. -/
def dxStart (o : LineObj) : Nat := if o.outputSx < 0 then (-o.outputSx).toNat else 0

def dxEnd (pass : ObjPass) (o : LineObj) : Nat :=
  if (pass.outWidth : Int) < o.outputSx + o.bw then (pass.outWidth - o.outputSx).toNat else o.bw

/-- The per-tile fast path. -/
def fastWrites (pass : ObjPass) (o : LineObj) : List SpriteWrite :=
  pass.fastLoop o (pass.dxEnd o) (dxStart o)

/-- The branch between the two loops. -/
def objWrites (pass : ObjPass) (o : LineObj) : List SpriteWrite :=
  if o.regularTile then pass.fastWrites o else pass.genericWrites o

end ObjPass

/-- The buffers `render_obj_line` fills. -/
structure SpriteLine (width : Nat) where
  out : Fin width → Pixel := fun _ => {}
  objWindow : Fin width → Bool := fun _ => false

namespace SpriteLine

variable {width : Nat}

def putObj (line : Fin width → Pixel) (x : Int) (p : Pixel) : Fin width → Pixel := fun i =>
  if (i : Int) = x ∧ p.valid = true ∧ ((line i).valid = false ∨ p.priority ≤ (line i).priority)
  then p else line i

def write (line : SpriteLine width) : SpriteWrite → SpriteLine width
  | .pixel x color alpha priority =>
      { line with out := putObj line.out x (spritePixel color alpha priority) }
  | .window x =>
      { line with objWindow := fun i => decide ((i : Int) = x) || line.objWindow i }

end SpriteLine

namespace ObjPass

/-- The loop over OAM, with `draw` for the loops over an object's columns. -/
def renderWith (pass : ObjPass) (draw : LineObj → List SpriteWrite) : SpriteLine pass.outWidth :=
  if pass.u.dispcnt &&& 0x1000 = 0 then {}
  else (List.range 128).reverse.foldl (fun line n =>
    match pass.lineObj n with
    | none => line
    | some o => (draw o).foldl SpriteLine.write line) {}

def renderObjLine (pass : ObjPass) : SpriteLine pass.outWidth := pass.renderWith pass.objWrites

/-- Every object through the per-pixel loop. -/
def renderPerPixel (pass : ObjPass) : SpriteLine pass.outWidth :=
  pass.renderWith pass.genericWrites

end ObjPass

end NdsRecomp.Video

/-!
The per-tile fast path of `render_obj_line` writes what the per-pixel loop
writes: a run stays in one tile row, the runs partition the columns on the
line, and the other columns write nothing.
-/

namespace NdsRecomp.Video

open Bus Library

/-! ### Columns of a run -/

/-- Only the indices between `start` and `stop` contribute. -/
theorem filterMap_range_window {α : Type*} (f : Nat → Option α) {start stop n : Nat}
    (hstart : start ≤ stop) (hstop : stop ≤ n)
    (hout : ∀ i < n, i < start ∨ stop ≤ i → f i = none) :
    (List.range n).filterMap f = (List.range' start (stop - start)).filterMap f := by
  have hnone (first count : Nat) (h : ∀ i, first ≤ i → i < first + count → f i = none) :
      (List.range' first count).filterMap f = [] := by
    rw [List.filterMap_eq_nil_iff]
    intro i hi
    rw [List.mem_range'_1] at hi
    exact h i hi.1 hi.2
  have hsplit : List.range n =
      List.range' 0 start ++ (List.range' start (stop - start) ++ List.range' stop (n - stop)) := by
    have hcount : start + (stop - start + (n - stop)) = n := by omega
    rw [List.range_eq_range', ← hcount, ← List.range'_append_1, Nat.zero_add,
      ← List.range'_append_1, Nat.add_sub_cancel' hstart]
    congr 3
    omega
  rw [hsplit, List.filterMap_append, List.filterMap_append,
    hnone 0 start fun i _ hi => hout i (by omega) (Or.inl (by omega)),
    hnone stop (n - stop) fun i hi hlt => hout i (by omega) (Or.inr hi), List.nil_append,
    List.append_nil]

/-! ### A pixel of a row -/

namespace ObjPass

/-- Every pixel of the tile that column `px` lies in, from the one fetched row. -/
theorem rowIndex_eq (pass : ObjPass) (o : LineObj) {px pxk py : Nat}
    (htile : pxk / 8 = px / 8) : pass.rowIndex o px py pxk = pass.tileIndexAt o pxk py := by
  have hblock : pxk >>> 3 = px >>> 3 := by
    rw [Nat.shiftRight_eq_div_pow, Nat.shiftRight_eq_div_pow]
    exact htile
  have htileBase : ((pass.tileIndex o py) <<< 5).toNat % 2 ^ 3 = 0 :=
    toNat_shiftLeft_aligned _ (by decide) (by decide)
  have htileBase4 : ((pass.tileIndex o py) <<< 5).toNat % 2 ^ 2 = 0 :=
    toNat_shiftLeft_aligned _ (by decide) (by decide)
  unfold rowIndex tileIndexAt
  rw [hblock]
  split
  · refine pass.vram.objView64_byte pass.engine ?_ (Nat.mod_lt _ (by decide))
    refine toNat_add_aligned (by decide) (toNat_add_aligned (by decide) htileBase ?_) ?_
    · exact toNat_ofNat_aligned (by decide) (by rw [Nat.shiftLeft_eq]; omega)
    · exact toNat_ofNat_aligned (by decide) (by rw [Nat.shiftLeft_eq]; omega)
  · have hodd : pxk % 8 % 2 = pxk % 2 := by omega
    dsimp only
    rw [pass.vram.objView32_nibble pass.engine ?_ (Nat.mod_lt _ (by decide)), hodd]
    refine toNat_add_aligned (by decide) (toNat_add_aligned (by decide) htileBase4 ?_) ?_
    · exact toNat_ofNat_aligned (by decide) (by rw [Nat.shiftLeft_eq]; omega)
    · exact toNat_ofNat_aligned (by decide) (by rw [Nat.shiftLeft_eq]; omega)

/-- A column of a regular object on the line. -/
theorem pixelWrite_regular (pass : ObjPass) {o : LineObj} (hregular : o.regularTile = true)
    {dx : Nat} (hleft : 0 ≤ o.outputSx + dx) (hright : o.outputSx + dx < pass.outWidth) :
    pass.pixelWrite o dx =
      let index := pass.tileIndexAt o (o.flippedX dx) o.flippedY
      if index = 0 then none
      else some (.pixel (o.outputSx + dx) (pass.paletteColor o index) o.alpha o.priority) := by
  unfold LineObj.regularTile at hregular
  simp only [Bool.and_eq_true, Bool.not_eq_true', bne_iff_ne, ne_eq] at hregular
  obtain ⟨⟨haffine, hbitmap⟩, hwindow⟩ := hregular
  have htexel : o.texel dx = some (o.flippedX dx, o.flippedY) := by
    unfold LineObj.texel
    rw [haffine]
    rfl
  unfold pixelWrite
  rw [htexel]
  dsimp only
  rw [if_neg (by omega), if_neg hbitmap, if_neg hwindow]

/-- Walking to the tile's edge stays in the tile. -/
theorem run_in_tile (o : LineObj) {dx k run : Nat} (hrun : run ≤ tileLeft o dx) (hk : k < run)
    (hw : dx + k < o.w) :
    (if o.a1 &&& 0x1000 ≠ 0 then o.flippedX dx - k else o.flippedX dx + k) =
        o.flippedX (dx + k) ∧
      o.flippedX (dx + k) / 8 = o.flippedX dx / 8 := by
  unfold tileLeft at hrun
  unfold LineObj.flippedX at hrun ⊢
  split at hrun
  · next hflip =>
      rw [if_pos hflip, if_pos hflip, if_pos hflip]
      omega
  · next hflip =>
      rw [if_neg hflip, if_neg hflip, if_neg hflip]
      omega

/-- One run writes its columns as the per-pixel loop does. -/
theorem fastRun_eq (pass : ObjPass) {o : LineObj} (hregular : o.regularTile = true)
    {dx run : Nat} (hrun : run ≤ tileLeft o dx) (hw : dx + run ≤ o.w)
    (hleft : 0 ≤ o.outputSx + dx) (hright : o.outputSx + (dx + run : Nat) ≤ pass.outWidth) :
    pass.fastRun o dx run = (List.range' dx run).filterMap (pass.pixelWrite o) := by
  unfold fastRun
  dsimp only
  rw [List.range'_eq_map_range, List.filterMap_map]
  refine List.filterMap_congr fun k hk => ?_
  have hk := List.mem_range.mp hk
  obtain ⟨hstep, htile⟩ := run_in_tile o hrun hk (by omega)
  rw [hstep, pass.rowIndex_eq o htile, Function.comp_apply,
    pass.pixelWrite_regular hregular (by omega) (by omega)]

/-- The runs from `dx` on are the columns from `dx` on. -/
theorem fastLoop_eq (pass : ObjPass) {o : LineObj} (hregular : o.regularTile = true)
    {stop dx : Nat} (hw : stop ≤ o.w) (hleft : 0 ≤ o.outputSx + dx)
    (hright : o.outputSx + stop ≤ pass.outWidth) :
    pass.fastLoop o stop dx = (List.range' dx (stop - dx)).filterMap (pass.pixelWrite o) := by
  fun_induction fastLoop pass o stop dx with
  | case1 dx hlt run ih =>
      have hmin : run ≤ tileLeft o dx ∧ run ≤ stop - dx :=
        ⟨Nat.min_le_left _ _, Nat.min_le_right _ _⟩
      have hcount : stop - dx = run + (stop - (dx + run)) := by omega
      rw [hcount, ← List.range'_append_1, List.filterMap_append,
        pass.fastRun_eq hregular hmin.1 (by omega) hleft (by omega), ih (by omega)]
  | case2 dx hge =>
      rw [Nat.sub_eq_zero_of_le (by omega)]
      rfl

/-- What holds of every object that reaches the drawing loops. -/
theorem lineObj_clipped {pass : ObjPass} {n : Nat} {o : LineObj} (h : pass.lineObj n = some o) :
    -(o.bw : Int) < o.outputSx ∧ o.outputSx < pass.outWidth ∧ (o.affine = false → o.bw = o.w) := by
  unfold lineObj at h
  simp only [Option.ite_none_left_eq_some, Option.some.injEq] at h
  obtain ⟨-, -, hclip, -, rfl⟩ := h
  dsimp only
  refine ⟨by omega, by omega, fun haffine => ?_⟩
  rw [haffine]
  rfl

/-- The fast path of a regular object is its per-pixel loop. -/
theorem fastWrites_eq {pass : ObjPass} {n : Nat} {o : LineObj} (h : pass.lineObj n = some o)
    (hregular : o.regularTile = true) : pass.fastWrites o = pass.genericWrites o := by
  obtain ⟨hleft, hright, hwidth⟩ := lineObj_clipped h
  have haffine : o.affine = false := by
    unfold LineObj.regularTile at hregular
    simp only [Bool.and_eq_true, Bool.not_eq_true'] at hregular
    exact hregular.1.1
  have hw := hwidth haffine
  have hstart : dxStart o ≤ pass.dxEnd o ∧ pass.dxEnd o ≤ o.bw ∧
      0 ≤ o.outputSx + dxStart o ∧ o.outputSx + pass.dxEnd o ≤ pass.outWidth := by
    unfold dxStart dxEnd
    split <;> split <;> omega
  have hskipped : ∀ dx < o.bw, dx < dxStart o ∨ pass.dxEnd o ≤ dx → pass.pixelWrite o dx = none := by
    intro dx hdx hout
    have hoff : o.outputSx + dx < 0 ∨ (pass.outWidth : Int) ≤ o.outputSx + dx := by
      unfold dxStart dxEnd at hout
      split at hout <;> split at hout <;> omega
    unfold pixelWrite
    split
    · rfl
    · exact if_pos hoff
  unfold fastWrites genericWrites
  rw [fastLoop_eq pass hregular (hw ▸ hstart.2.1) hstart.2.2.1 hstart.2.2.2,
    filterMap_range_window _ hstart.1 hstart.2.1 hskipped]

theorem objWrites_eq {pass : ObjPass} {n : Nat} {o : LineObj} (h : pass.lineObj n = some o) :
    pass.objWrites o = pass.genericWrites o := by
  unfold objWrites
  split
  · next hregular => exact fastWrites_eq h hregular
  · rfl

/-- A line depends on the loops only through what they write for its objects. -/
theorem renderWith_congr (pass : ObjPass) {draw draw' : LineObj → List SpriteWrite}
    (h : ∀ n o, pass.lineObj n = some o → draw o = draw' o) :
    pass.renderWith draw = pass.renderWith draw' := by
  unfold renderWith
  split
  · rfl
  · refine List.foldl_ext _ _ _ fun line n _ => ?_
    split
    · rfl
    · next o ho => rw [h n o ho]

/-- The line drawn with the fast path is the line drawn pixel by pixel. -/
theorem renderObjLine_eq_perPixel (pass : ObjPass) :
    pass.renderObjLine = pass.renderPerPixel :=
  pass.renderWith_congr fun _ _ ho => objWrites_eq ho

/-! ### The native width -/

/-- The writes of the whole line, in order. -/
def spriteWrites (pass : ObjPass) : List SpriteWrite :=
  (List.range 128).reverse.flatMap fun n =>
    match pass.lineObj n with
    | none => []
    | some o => pass.objWrites o

theorem pixelWrite_window {pass : ObjPass} {o : LineObj} {dx : Nat} {x : Int}
    (h : pass.pixelWrite o dx = some (.window x)) : o.mode = 2 := by
  unfold pixelWrite at h
  split at h
  · cases h
  · dsimp only at h
    obtain ⟨-, hdraw⟩ := Option.ite_none_left_eq_some.mp h
    split at hdraw
    · obtain ⟨color, -, hcolor⟩ := Option.map_eq_some_iff.mp hdraw
      cases hcolor
    · obtain ⟨-, hindexed⟩ := Option.ite_none_left_eq_some.mp hdraw
      split at hindexed
      · next hmode => exact hmode
      · cases hindexed

/-- Coverage is written only where there is a buffer for it. -/
theorem window_write {pass : ObjPass} {x : Int} (h : SpriteWrite.window x ∈ pass.spriteWrites) :
    pass.objWindow = true := by
  obtain ⟨n, -, hwrite⟩ := List.mem_flatMap.mp h
  cases hobj : pass.lineObj n with
  | none =>
      rw [hobj] at hwrite
      cases hwrite
  | some o =>
      rw [hobj] at hwrite
      dsimp only at hwrite
      rw [objWrites_eq hobj] at hwrite
      obtain ⟨dx, -, hdx⟩ := List.mem_filterMap.mp hwrite
      have hmode := pixelWrite_window hdx
      unfold lineObj at hobj
      simp only [Option.ite_none_left_eq_some, Option.some.injEq] at hobj
      obtain ⟨-, -, -, hbuffer, rfl⟩ := hobj
      by_contra hnone
      exact hbuffer ⟨hmode, Bool.eq_false_iff.mpr hnone⟩

theorem renderObjLine_eq_foldl (pass : ObjPass) :
    pass.renderObjLine =
      if pass.u.dispcnt &&& 0x1000 = 0 then {}
      else pass.spriteWrites.foldl SpriteLine.write {} := by
  unfold renderObjLine renderWith spriteWrites
  split
  · rfl
  · rw [List.foldl_flatMap]
    refine List.foldl_ext _ _ _ fun line n _ => ?_
    cases pass.lineObj n <;> rfl

/-- Without coverage writes it does not matter whether there is a buffer. -/
theorem foldl_write_native (objWindow : Bool) (writes : List SpriteWrite)
    (hwindow : ∀ x, SpriteWrite.window x ∈ writes → objWindow = true) (line : SpriteLine 256) :
    writes.foldl (ObjLine.write objWindow) { out := line.out, window := line.objWindow } =
      { out := (writes.foldl SpriteLine.write line).out
        window := (writes.foldl SpriteLine.write line).objWindow } := by
  induction writes generalizing line with
  | nil => rfl
  | cons write writes ih =>
      have hstep : ObjLine.write objWindow { out := line.out, window := line.objWindow } write =
          { out := (line.write write).out, window := (line.write write).objWindow } := by
        cases write with
        | pixel x color alpha priority => rfl
        | window x =>
            obtain rfl := hwindow x List.mem_cons_self
            rfl
      rw [List.foldl_cons, List.foldl_cons, hstep]
      exact ih (fun x hx => hwindow x (List.mem_cons_of_mem _ hx)) _

/-- At the native width this is the object line the compositor reads. -/
theorem renderObjLine_native (pass : ObjPass) {input : LineInput}
    (hsprites : input.sprites = pass.spriteWrites) (hwidth : pass.outWidth = 256) (x : Fin 256) :
    (Video.renderObjLine pass.u input pass.objWindow).out x =
        pass.renderObjLine.out (x.cast hwidth.symm) ∧
      (Video.renderObjLine pass.u input pass.objWindow).window x =
        pass.renderObjLine.objWindow (x.cast hwidth.symm) := by
  have hwindow (x : Int) (hx : SpriteWrite.window x ∈ pass.spriteWrites) :
      pass.objWindow = true := window_write hx
  rw [renderObjLine_eq_foldl]
  unfold Video.renderObjLine
  rw [hsprites]
  generalize pass.spriteWrites = writes at hwindow
  obtain ⟨u, engine, lineY, outWidth, oam, palette, vram, objWindow, anchor, centerWidth⟩ := pass
  dsimp only at hwidth hwindow ⊢
  subst hwidth
  split
  · exact ⟨rfl, rfl⟩
  · have hnative := foldl_write_native objWindow writes hwindow {}
    exact ⟨congrFun (congrArg ObjLine.out hnative) x, congrFun (congrArg ObjLine.window hnative) x⟩

end ObjPass

end NdsRecomp.Video
