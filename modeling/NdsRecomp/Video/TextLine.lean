import NdsRecomp.Video.RowViews

/-!
A scanline of a text background: `text_pixel`, which looks up one column and
keeps the last map entry it read, and `decode_text_line`, which walks the line
in runs between tile boundaries and fetches each tile row once.
-/

namespace NdsRecomp.Video

open Bus Library

/-- The scroll and mosaic registers beside those that composition reads. -/
structure TextUnit extends EngineUnit where
  bgx : Fin 4 → UInt16 := fun _ => 0
  bgy : Fin 4 → UInt16 := fun _ => 0
  bgMosaicX : UInt8 := 0
  bgMosaicY : UInt8 := 0

structure TextLine where
  u : TextUnit
  engine : Engine
  bg : Fin 4
  palette : Nat → UInt8
  vram : ViewedVram
  cnt : UInt16
  sy : UInt32
  charBase : UInt32
  mapBase : UInt32
  widthExtra : UInt32
  cachedMapAddr : UInt32 := 0xFFFFFFFF
  cachedTile : UInt16 := 0

/-- The scanline number is the bit pattern of an `int`. -/
def prepareTextLine (u : TextUnit) (engine : Engine) (bg : Fin 4) (y : UInt32)
    (palette : Nat → UInt8) (vram : ViewedVram) : TextLine :=
  let cnt := u.bgcnt bg
  let size := cnt >>> 14
  let sy := ((u.bgy bg).toUInt32 + y) &&& 0x1FF
  let sy := if size &&& 2 = 0 then sy &&& 0xFF else sy
  { u := u
    engine := engine
    bg := bg
    palette := palette
    vram := vram
    cnt := cnt
    sy := if cnt &&& 0x40 ≠ 0 ∧ u.bgMosaicY ≠ 0 then sy - y % (u.bgMosaicY.toUInt32 + 1) else sy
    charBase := ((cnt &&& 0x3C).toUInt32 <<< 12) +
      (if engine = .a then (u.dispcnt &&& 0x07000000) >>> 8 else 0)
    mapBase := ((cnt &&& 0x1F00).toUInt32 <<< 3) +
      (if engine = .a then (u.dispcnt &&& 0x38000000) >>> 11 else 0)
    widthExtra := if cnt &&& 0x4000 ≠ 0 then 0x100 else 0 }

namespace TextLine

/-- The map address of the line's first tile. -/
def rowBase (line : TextLine) : UInt32 :=
  if line.cnt &&& 0x8000 ≠ 0 then
    line.mapBase + ((line.sy &&& 0x1F8) <<< 3) +
      (if line.cnt &&& 0x4000 ≠ 0 then (line.sy &&& 0x100) <<< 3 else 0)
  else line.mapBase + ((line.sy &&& 0xF8) <<< 3)

def mapAddr (line : TextLine) (sx : UInt32) : UInt32 :=
  line.rowBase + (((sx &&& 0xF8) >>> 2) + ((sx &&& line.widthExtra) <<< 3))

/-- The palette entry of a nonzero index. -/
def texelColor (line : TextLine) (tile : UInt16) (index : UInt8) : UInt16 :=
  let paletteBits := (tile >>> 12).toUInt32
  if line.cnt &&& 0x80 ≠ 0 then
    if line.u.dispcnt &&& 0x40000000 ≠ 0 then
      let slot := if line.bg < 2 ∧ line.cnt &&& 0x2000 ≠ 0 then 2 + line.bg.val else line.bg.val
      (line.vram.vram.readBgExtpal line.engine
        ((UInt32.ofNat slot <<< 13) + (paletteBits <<< 9) + (index.toUInt32 <<< 1)) .half).toUInt16
    else view16 line.palette (index.toNat * 2)
  else view16 line.palette ((paletteBits &&& 0xF).toNat * 32 + index.toNat * 2)

/-- The row of the tile that the line crosses. -/
def tileRow (line : TextLine) (tile : UInt16) : UInt32 :=
  let ty := line.sy &&& 7
  if tile &&& 0x0800 ≠ 0 then 7 - ty else ty

/-- The address of that row. -/
def tileRowAddr (line : TextLine) (tile : UInt16) : UInt32 :=
  if line.cnt &&& 0x80 ≠ 0 then
    line.charBase + ((tile &&& 0x3FF).toUInt32 <<< 6) + (line.tileRow tile <<< 3)
  else line.charBase + ((tile &&& 0x3FF).toUInt32 <<< 5) + (line.tileRow tile <<< 2)

/-- Column `tx` of the tile, mirrored where the entry says so. -/
def tileColumn (tile : UInt16) (tx : Nat) : Nat := if tile &&& 0x0400 ≠ 0 then 7 - tx else tx

/-! ### One column -/

/-- The map entry at `addr`, through the one-entry cache. -/
def fetchTile (line : TextLine) (addr : UInt32) : UInt16 × TextLine :=
  if addr ≠ line.cachedMapAddr then
    let tile := line.vram.bgView16 line.engine addr
    (tile, { line with cachedMapAddr := addr, cachedTile := tile })
  else (line.cachedTile, line)

def indexAt (line : TextLine) (tile : UInt16) (tx : Nat) : UInt8 :=
  if line.cnt &&& 0x80 ≠ 0 then
    line.vram.bgView8 line.engine (line.tileRowAddr tile + UInt32.ofNat tx)
  else
    let packed := line.vram.bgView8 line.engine (line.tileRowAddr tile + UInt32.ofNat (tx / 2))
    if tx % 2 = 1 then packed >>> 4 else packed &&& 0xF

/-- The pixel of a column once its map entry is known. -/
def tilePixel (line : TextLine) (tile : UInt16) (tx : Nat) : Pixel :=
  let index := line.indexAt tile (tileColumn tile tx)
  if index = 0 then {}
  else
    { color := (line.texelColor tile index).toUInt32
      target := 1 <<< UInt8.ofNat line.bg
      alpha := 0
      priority := (line.cnt &&& 3).toUInt8
      order := UInt8.ofNat (line.bg + 1)
      valid := true }

/-- `sx` of `text_pixel`, horizontal mosaic included. -/
def pixelX (line : TextLine) (x : UInt32) : UInt32 :=
  let sx := ((line.u.bgx line.bg).toUInt32 + x) &&& 0x1FF
  let sx := if (line.cnt >>> 14) &&& 1 = 0 then sx &&& 0xFF else sx
  if line.cnt &&& 0x40 ≠ 0 ∧ line.u.bgMosaicX ≠ 0 then sx - x % (line.u.bgMosaicX.toUInt32 + 1)
  else sx

def textPixel (line : TextLine) (x : UInt32) : Pixel × TextLine :=
  let sx := line.pixelX x
  let (tile, line) := line.fetchTile (line.mapAddr sx)
  (line.tilePixel tile (sx &&& 7).toNat, line)

/-! ### The line in runs -/

/-- A tile row fetched whole, and the index at each of its columns. -/
def rowIndex (line : TextLine) (tile : UInt16) : Nat → UInt8 :=
  if line.cnt &&& 0x80 ≠ 0 then
    let row := line.vram.bgView64 line.engine (line.tileRowAddr tile)
    fun sel => (row >>> UInt64.ofNat (8 * sel)).toUInt8
  else
    let row := line.vram.bgView32 line.engine (line.tileRowAddr tile)
    fun sel => ((row >>> UInt32.ofNat (4 * sel)) &&& 0xF).toUInt8

def runX (line : TextLine) (x : Nat) : UInt32 :=
  ((line.u.bgx line.bg).toUInt32 + UInt32.ofNat x) &&&
    (if (line.cnt >>> 14) &&& 1 ≠ 0 then 0x1FF else 0xFF)

def runLength (line : TextLine) (x : Nat) : Nat := min (8 - (line.runX x &&& 7).toNat) (256 - x)

/-- What `out.color[x + k]` becomes for the run that starts at `x`. -/
def runColor (line : TextLine) (x k : Nat) : UInt16 :=
  let sx := line.runX x
  let tile := line.vram.bgView16 line.engine (line.mapAddr sx)
  let index := line.rowIndex tile (tileColumn tile ((sx &&& 7).toNat + k))
  if index = 0 then 0 else line.texelColor tile index ||| 0x8000

/-- The writes to `out.color[x]` up to `out.color[x + count - 1]`. -/
def setRun (color : Fin 256 → UInt16) (x count : Nat) (value : Nat → UInt16) : Fin 256 → UInt16 :=
  fun i => if x ≤ i ∧ i < x + count then value (i - x) else color i

theorem runLength_pos (line : TextLine) {x : Nat} (hx : x < 256) : 0 < line.runLength x := by
  have hlow : (line.runX x &&& 7).toNat = (line.runX x).toNat % 2 ^ 3 := toNat_and_mask _ _ 3 rfl
  unfold runLength
  omega

def decodeRuns (line : TextLine) (x : Nat) (color : Fin 256 → UInt16) : Fin 256 → UInt16 :=
  if x < 256 then
    decodeRuns line (x + line.runLength x) (setRun color x (line.runLength x) (line.runColor x))
  else color
termination_by 256 - x
decreasing_by
  have hpos := runLength_pos line (by assumption)
  omega

/-- A pixel as the line buffer stores it. -/
def lineColor (p : Pixel) : UInt16 := if p.valid then (p.color ||| 0x8000).toUInt16 else 0

/-- One column of the loop that horizontal mosaic takes. -/
def decodeColumn (state : (Fin 256 → UInt16) × TextLine) (x : Nat) :
    (Fin 256 → UInt16) × TextLine :=
  let (p, line) := state.2.textPixel (UInt32.ofNat x)
  (setRun state.1 x 1 fun _ => lineColor p, line)

def decodeColumns (line : TextLine) (color : Fin 256 → UInt16) : Fin 256 → UInt16 :=
  ((List.range 256).foldl decodeColumn (color, line)).1

end TextLine

def decodeTextLine (u : TextUnit) (engine : Engine) (bg : Fin 4) (y : UInt32)
    (palette : Nat → UInt8) (vram : ViewedVram) (out : BgLine) : BgLine :=
  let line := prepareTextLine u engine bg y palette vram
  { color :=
      if line.cnt &&& 0x40 ≠ 0 ∧ u.bgMosaicX ≠ 0 then line.decodeColumns out.color
      else line.decodeRuns 0 out.color
    prio := (line.cnt &&& 3).toUInt8
    target := 1 <<< UInt8.ofNat bg
    order := UInt8.ofNat (bg + 1) }

end NdsRecomp.Video

/-!
The run decoder of a text background against the per-pixel routine. Within a run
the map entry and the tile row do not change, so each column of the row fetched
whole is the column the per-pixel routine looks up.
-/

namespace NdsRecomp.Video

open Bus Library

/-! ### Masks above the low three bits -/

/-- A mask without the low three bits does not see them. -/
theorem and_mask_congr {a b mask : UInt32} (hmask : mask.toNat % 2 ^ 3 = 0)
    (h : a.toNat / 2 ^ 3 = b.toNat / 2 ^ 3) : a &&& mask = b &&& mask := by
  refine UInt32.toNat_inj.mp ?_
  rw [UInt32.toNat_and, UInt32.toNat_and]
  refine Nat.eq_of_testBit_eq fun i => ?_
  rw [Nat.testBit_and, Nat.testBit_and]
  rcases Nat.lt_or_ge i 3 with hlow | hhigh
  · have hbit : (mask.toNat % 2 ^ 3).testBit i = (decide (i < 3) && mask.toNat.testBit i) :=
      Nat.testBit_mod_two_pow _ _ _
    rw [hmask, Nat.zero_testBit, decide_eq_true hlow, Bool.true_and] at hbit
    rw [← hbit, Bool.and_false, Bool.and_false]
  · obtain ⟨j, rfl⟩ := Nat.exists_eq_add_of_le' hhigh
    have ha : a.toNat.testBit (j + 3) = b.toNat.testBit (j + 3) := by
      rw [← Nat.testBit_div_two_pow, h, Nat.testBit_div_two_pow]
    rw [ha]

theorem toNat_and_mod (a mask : UInt32) {k : Nat} (hmask : mask.toNat % 2 ^ k = 0) :
    (a &&& mask).toNat % 2 ^ k = 0 := by
  rw [UInt32.toNat_and, Nat.and_mod_two_pow, hmask, Nat.and_zero]

namespace TextLine

/-! ### The map entry cache -/

/-- `line` is the prepared line `base`, with the cache empty or holding the map
entry at its address. -/
structure Reads (base line : TextLine) : Prop where
  same : line = { base with cachedMapAddr := line.cachedMapAddr, cachedTile := line.cachedTile }
  cached : line.cachedMapAddr = 0xFFFFFFFF ∨
    line.cachedTile = base.vram.bgView16 base.engine line.cachedMapAddr

/-- A column without the cache. -/
def pixelAt (base : TextLine) (x : UInt32) : Pixel :=
  let sx := base.pixelX x
  base.tilePixel (base.vram.bgView16 base.engine (base.mapAddr sx)) (sx &&& 7).toNat

/-- The cache changes no column; every map address the line can form is usable. -/
theorem textPixel_reads {base line : TextLine} (h : base.Reads line)
    (haddr : ∀ sx, base.mapAddr sx ≠ 0xFFFFFFFF) (x : UInt32) :
    (textPixel line x).1 = base.pixelAt x ∧ base.Reads (textPixel line x).2 := by
  obtain ⟨hsame, hcached⟩ := h
  generalize hfetched : line.cachedMapAddr = addr at hsame hcached
  generalize htile : line.cachedTile = tile at hsame hcached
  subst hsame
  have hx : pixelX { base with cachedMapAddr := addr, cachedTile := tile } x = base.pixelX x := rfl
  have hmap : mapAddr { base with cachedMapAddr := addr, cachedTile := tile } (base.pixelX x) =
    base.mapAddr (base.pixelX x) := rfl
  unfold textPixel fetchTile
  dsimp only
  rw [hx, hmap]
  by_cases hhit : base.mapAddr (base.pixelX x) = addr
  · rw [if_neg (not_not_intro hhit)]
    rcases hcached with hempty | hvalid
    · exact absurd (hhit.trans hempty) (haddr _)
    · refine ⟨?_, ⟨rfl, Or.inr hvalid⟩⟩
      dsimp only
      rw [hvalid, ← hhit]
      rfl
  · rw [if_pos hhit]
    exact ⟨rfl, ⟨rfl, Or.inr rfl⟩⟩

/-! ### A run -/

section Run

variable (line : TextLine)

theorem runX_toNat {x : Nat} (hx : x < 256) :
    (line.runX x).toNat = ((line.u.bgx line.bg).toNat + x) %
      (if (line.cnt >>> 14) &&& 1 ≠ 0 then 2 ^ 9 else 2 ^ 8) := by
  have hscroll := (line.u.bgx line.bg).toNat_lt
  have hsum : ((line.u.bgx line.bg).toUInt32 + UInt32.ofNat x).toNat =
      (line.u.bgx line.bg).toNat + x := by
    rw [UInt32.toNat_add, UInt16.toNat_toUInt32, UInt32.toNat_ofNat']
    omega
  unfold runX
  split
  · rw [toNat_and_mask _ _ 9 rfl, hsum]
  · rw [toNat_and_mask _ _ 8 rfl, hsum]

theorem toNat_tileColumn (sx : UInt32) : (sx &&& 7).toNat = sx.toNat % 2 ^ 3 :=
  toNat_and_mask _ _ 3 rfl

/-- The columns of a run follow its first one inside one tile. -/
theorem runX_add {x k : Nat} (hk : (line.runX x &&& 7).toNat + k < 8) (hx : x + k < 256) :
    (line.runX (x + k)).toNat = (line.runX x).toNat + k := by
  rw [toNat_tileColumn, runX_toNat line (by omega)] at hk
  rw [runX_toNat line hx, runX_toNat line (by omega)]
  split at hk
  · next hwide =>
      rw [if_pos hwide]
      omega
  · next hnarrow =>
      rw [if_neg hnarrow]
      omega

/-- One map entry serves the whole run. -/
theorem mapAddr_run {x k : Nat} (hwidth : line.widthExtra = 0x100 ∨ line.widthExtra = 0)
    (hk : (line.runX x &&& 7).toNat + k < 8) (hx : x + k < 256) :
    line.mapAddr (line.runX (x + k)) = line.mapAddr (line.runX x) := by
  have hblock : (line.runX (x + k)).toNat / 2 ^ 3 = (line.runX x).toNat / 2 ^ 3 := by
    rw [runX_add line hk hx]
    rw [toNat_tileColumn] at hk
    omega
  have hextra : line.widthExtra.toNat % 2 ^ 3 = 0 := by
    rcases hwidth with h | h <;> rw [h] <;> rfl
  unfold mapAddr
  rw [and_mask_congr (by rfl : (0xF8 : UInt32).toNat % 2 ^ 3 = 0) hblock, and_mask_congr hextra hblock]

/-- Without mosaic the per-pixel routine computes the run's coordinate. -/
theorem pixelX_eq_runX (hmosaic : ¬ (line.cnt &&& 0x40 ≠ 0 ∧ line.u.bgMosaicX ≠ 0)) (x : Nat) :
    line.pixelX (UInt32.ofNat x) = line.runX x := by
  unfold pixelX runX
  dsimp only
  rw [if_neg hmosaic]
  split
  · next hnarrow =>
      rw [if_neg (not_not_intro hnarrow), UInt32.and_assoc]
      rfl
  · rfl

end Run

/-! ### A tile row -/

/-- A base field, plus on engine A the field of DISPCNT that extends it. -/
theorem base_aligned (engine : Engine) (dispcnt : UInt32) {field mask shift : UInt32}
    (hfield : field.toNat % 2 ^ 3 = 0) (hshift : shift.toNat < 32)
    (hmask : mask.toNat % 2 ^ (shift.toNat + 3) = 0) :
    (field + if engine = .a then (dispcnt &&& mask) >>> shift else 0).toNat % 2 ^ 3 = 0 := by
  have hdisp : ((dispcnt &&& mask) >>> shift).toNat % 2 ^ 3 = 0 := by
    have haligned := toNat_and_mod dispcnt mask hmask
    rw [UInt32.toNat_shiftRight, Nat.mod_eq_of_lt hshift, Nat.shiftRight_eq_div_pow,
      ← Nat.mod_mul_right_div_self, ← Nat.pow_add, haligned, Nat.zero_div]
  refine toNat_add_aligned (by decide) hfield ?_
  split
  · exact hdisp
  · rfl

/-- A map address is even, so it is never the empty cache's address. -/
theorem mapAddr_ne_empty {line : TextLine} (hbase : line.mapBase.toNat % 2 ^ 3 = 0) (sx : UInt32) :
    line.mapAddr sx ≠ 0xFFFFFFFF := by
  have hrow : line.rowBase.toNat % 2 ^ 3 = 0 := by
    unfold rowBase
    split
    · refine toNat_add_aligned (by decide) (toNat_add_aligned (by decide) hbase
        (toNat_shiftLeft_aligned _ (by decide) (by decide))) ?_
      split
      · exact toNat_shiftLeft_aligned _ (by decide) (by decide)
      · rfl
    · exact toNat_add_aligned (by decide) hbase (toNat_shiftLeft_aligned _ (by decide) (by decide))
  have htile : ((sx &&& 0xF8) >>> 2).toNat % 2 ^ 1 = 0 := by
    have hmask := toNat_and_mod sx 0xF8 (k := 3) rfl
    rw [UInt32.toNat_shiftRight, Nat.shiftRight_eq_div_pow]
    change (sx &&& 0xF8).toNat / 2 ^ 2 % 2 ^ 1 = 0
    omega
  have heven : (line.mapAddr sx).toNat % 2 ^ 1 = 0 :=
    toNat_add_aligned (by decide) (by omega)
      (toNat_add_aligned (by decide) htile (toNat_shiftLeft_aligned _ (by decide) (by decide)))
  intro hempty
  rw [hempty] at heven
  exact absurd heven (by decide)

/-- Every column of the row fetched whole is the one a byte read finds. -/
theorem rowIndex_eq {line : TextLine} (hbase : line.charBase.toNat % 2 ^ 3 = 0) (tile : UInt16)
    {sel : Nat} (hsel : sel < 8) : line.rowIndex tile sel = line.indexAt tile sel := by
  unfold rowIndex indexAt tileRowAddr
  split
  · refine line.vram.bgView64_byte line.engine ?_ hsel
    exact toNat_add_aligned (k := 3) (by decide) (toNat_add_aligned (by decide) hbase
      (toNat_shiftLeft_aligned _ (by decide) (by decide)))
      (toNat_shiftLeft_aligned _ (by decide) (by decide))
  · refine line.vram.bgView32_nibble line.engine ?_ hsel
    exact toNat_add_aligned (k := 2) (by decide) (toNat_add_aligned (by decide) (by omega)
      (toNat_shiftLeft_aligned _ (by decide) (by decide)))
      (toNat_shiftLeft_aligned _ (by decide) (by decide))

theorem tileColumn_lt (tile : UInt16) {tx : Nat} (htx : tx < 8) : tileColumn tile tx < 8 := by
  unfold tileColumn
  split <;> omega

theorem lineColor_tilePixel (line : TextLine) (tile : UInt16) (tx : Nat) :
    lineColor (line.tilePixel tile tx) =
      if line.indexAt tile (tileColumn tile tx) = 0 then 0
      else line.texelColor tile (line.indexAt tile (tileColumn tile tx)) ||| 0x8000 := by
  unfold tilePixel
  dsimp only
  split
  · rfl
  · unfold lineColor
    rw [if_pos rfl, UInt32.toUInt16_or, UInt16.toUInt16_toUInt32]
    rfl

/-- Bit 15 of the stored colour is the pixel's validity. -/
theorem lineColor_opaque (p : Pixel) : (lineColor p &&& 0x8000 != 0) = p.valid := by
  unfold lineColor
  have hbit : (p.color ||| 0x8000).toUInt16 &&& 0x8000 = 0x8000 := by
    rw [UInt32.toUInt16_or]
    refine UInt16.toBitVec_inj.mp (BitVec.eq_of_getLsbD_eq fun i _ => ?_)
    rw [UInt16.toBitVec_and, UInt16.toBitVec_or, BitVec.getLsbD_and, BitVec.getLsbD_or]
    change ((_ || (0x8000 : UInt16).toBitVec.getLsbD i) &&
      (0x8000 : UInt16).toBitVec.getLsbD i) = (0x8000 : UInt16).toBitVec.getLsbD i
    cases (0x8000 : UInt16).toBitVec.getLsbD i with
    | false => exact Bool.and_false _
    | true => rw [Bool.or_true, Bool.and_true]
  cases p.valid with
  | false =>
      rw [if_neg Bool.false_ne_true]
      rfl
  | true =>
      rw [if_pos rfl, hbit]
      rfl

/-- A visible column carries the layer's constants. -/
theorem pixelAt_layer (line : TextLine) (x : UInt32) (h : (line.pixelAt x).valid = true) :
    (line.cnt &&& 3).toUInt8 = (line.pixelAt x).priority ∧
      1 <<< UInt8.ofNat line.bg = (line.pixelAt x).target ∧
      UInt8.ofNat (line.bg + 1) = (line.pixelAt x).order := by
  unfold pixelAt tilePixel at h ⊢
  dsimp only at h ⊢
  split at h
  · cases h
  · next hindex =>
      rw [if_neg hindex]
      exact ⟨rfl, rfl, rfl⟩

/-- What a decoder may rely on in a prepared line. -/
structure Prepared (line : TextLine) : Prop where
  charBase : line.charBase.toNat % 2 ^ 3 = 0
  mapBase : line.mapBase.toNat % 2 ^ 3 = 0
  widthExtra : line.widthExtra = 0x100 ∨ line.widthExtra = 0

theorem prepareTextLine_prepared (u : TextUnit) (engine : Engine) (bg : Fin 4) (y : UInt32)
    (palette : Nat → UInt8) (vram : ViewedVram) :
    (prepareTextLine u engine bg y palette vram).Prepared where
  charBase := base_aligned engine u.dispcnt
    (toNat_shiftLeft_aligned _ (by decide) (by decide)) (by decide) rfl
  mapBase := base_aligned engine u.dispcnt
    (toNat_shiftLeft_aligned _ (by decide) (by decide)) (by decide) rfl
  widthExtra := by
    unfold prepareTextLine
    dsimp only
    split
    · exact Or.inl rfl
    · exact Or.inr rfl

/-! ### The whole line -/

theorem setRun_one (color : Fin 256 → UInt16) (x : Nat) (value : Nat → UInt16) (i : Fin 256) :
    setRun color x 1 value i = if (i : Nat) = x then value 0 else color i := by
  unfold setRun
  split
  · next hin =>
      have hi : (i : Nat) = x := by omega
      rw [if_pos hi, hi, Nat.sub_self]
  · next hout => rw [if_neg (by omega)]

section Decode

variable {line : TextLine}

/-- Each column of a run. -/
theorem runColor_eq (h : line.Prepared)
    (hmosaic : ¬ (line.cnt &&& 0x40 ≠ 0 ∧ line.u.bgMosaicX ≠ 0)) {x k : Nat}
    (hk : k < line.runLength x) :
    line.runColor x k = lineColor (line.pixelAt (UInt32.ofNat (x + k))) := by
  unfold runLength at hk
  have hcolumn : (line.runX x &&& 7).toNat + k < 8 := by omega
  have hlater : (line.runX (x + k) &&& 7).toNat = (line.runX x &&& 7).toNat + k := by
    have hadd := runX_add line hcolumn (by omega)
    rw [toNat_tileColumn] at hcolumn
    rw [toNat_tileColumn, toNat_tileColumn, hadd]
    omega
  unfold pixelAt runColor
  dsimp only
  rw [lineColor_tilePixel, pixelX_eq_runX line hmosaic,
    mapAddr_run line h.widthExtra hcolumn (by omega), hlater,
    rowIndex_eq h.charBase _ (tileColumn_lt _ hcolumn)]

/-- The runs from `x` on fill the columns from `x` on. -/
theorem decodeRuns_eq (h : line.Prepared)
    (hmosaic : ¬ (line.cnt &&& 0x40 ≠ 0 ∧ line.u.bgMosaicX ≠ 0)) (x : Nat)
    (color : Fin 256 → UInt16) (i : Fin 256) :
    line.decodeRuns x color i =
      if x ≤ i then lineColor (line.pixelAt (UInt32.ofNat i)) else color i := by
  fun_induction decodeRuns line x color with
  | case1 x color hx ih =>
      rw [ih]
      unfold setRun
      by_cases hlater : x + line.runLength x ≤ i
      · rw [if_pos hlater, if_pos (by omega)]
      · rw [if_neg hlater]
        by_cases hrun : x ≤ i
        · have hcolumn : x + (i - x) = i := by omega
          rw [if_pos ⟨hrun, by omega⟩, if_pos hrun,
            runColor_eq h hmosaic (by omega), hcolumn]
        · rw [if_neg (fun hin => hrun hin.1), if_neg hrun]
  | case2 x color hx => rw [if_neg (by omega)]

/-- The mosaic loop, whose cache is carried from column to column. -/
theorem decodeColumns_eq (h : line.Prepared) (hcache : line.Reads line)
    (color : Fin 256 → UInt16) (i : Fin 256) :
    line.decodeColumns color i = lineColor (line.pixelAt (UInt32.ofNat i)) := by
  have hloop (n : Nat) :
      (∀ j : Fin 256, j < n → ((List.range n).foldl decodeColumn (color, line)).1 j =
          lineColor (line.pixelAt (UInt32.ofNat j))) ∧
        line.Reads ((List.range n).foldl decodeColumn (color, line)).2 := by
    induction n with
    | zero => exact ⟨fun j hj => absurd hj (Nat.not_lt_zero _), hcache⟩
    | succ n ih =>
        rw [List.range_succ, List.foldl_append, List.foldl_cons, List.foldl_nil]
        obtain ⟨hbefore, hreads⟩ := ih
        generalize (List.range n).foldl decodeColumn (color, line) = state at hbefore hreads ⊢
        obtain ⟨hpixel, hnext⟩ :=
          textPixel_reads hreads (mapAddr_ne_empty h.mapBase) (UInt32.ofNat n)
        refine ⟨fun j hj => ?_, hnext⟩
        unfold decodeColumn
        dsimp only
        rw [hpixel, setRun_one]
        split
        · next hlast => rw [hlast]
        · next hearlier => exact hbefore j (by omega)
  exact (hloop 256).1 i i.isLt

theorem textPixel_columns (h : line.Prepared) (hcache : line.Reads line) (earlier : List UInt32) :
    line.Reads (earlier.foldl (fun line x => (textPixel line x).2) line) := by
  have hloop (line' : TextLine) (hline' : line.Reads line') :
      line.Reads (earlier.foldl (fun line x => (textPixel line x).2) line') := by
    induction earlier generalizing line' with
    | nil => exact hline'
    | cons x earlier ih =>
        exact ih _ (textPixel_reads hline' (mapAddr_ne_empty h.mapBase) x).2
  exact hloop line hcache

end Decode

end TextLine

/-- The decoded line holds in every column what the per-pixel routine gives
there, whichever columns that routine was asked for before. -/
theorem decodeTextLine_eq_textPixel (u : TextUnit) (engine : Engine) (bg : Fin 4) (y : UInt32)
    (palette : Nat → UInt8) (vram : ViewedVram) (out : BgLine) (earlier : List UInt32)
    (x : Fin 256) :
    let line := earlier.foldl (fun line x => (line.textPixel x).2)
      (prepareTextLine u engine bg y palette vram)
    let p := (line.textPixel (UInt32.ofNat x)).1
    let decoded := decodeTextLine u engine bg y palette vram out
    (decoded.color x = if p.valid then (p.color ||| 0x8000).toUInt16 else 0) ∧
      decoded.opaqueAt x = p.valid ∧
      (p.valid = true →
        decoded.prio = p.priority ∧ decoded.target = p.target ∧ decoded.order = p.order) := by
  have hprepared := TextLine.prepareTextLine_prepared u engine bg y palette vram
  have hempty : (prepareTextLine u engine bg y palette vram).Reads
      (prepareTextLine u engine bg y palette vram) := ⟨rfl, Or.inl rfl⟩
  have hpixel := (TextLine.textPixel_reads
    (TextLine.textPixel_columns hprepared hempty earlier)
    (TextLine.mapAddr_ne_empty hprepared.mapBase) (UInt32.ofNat x)).1
  dsimp only
  rw [hpixel]
  have hcolor : (decodeTextLine u engine bg y palette vram out).color x =
      TextLine.lineColor
        ((prepareTextLine u engine bg y palette vram).pixelAt (UInt32.ofNat x)) := by
    unfold decodeTextLine
    dsimp only
    split
    · exact TextLine.decodeColumns_eq hprepared hempty out.color x
    · next hmosaic =>
        rw [TextLine.decodeRuns_eq hprepared hmosaic 0 out.color x]
        exact if_pos (Nat.zero_le _)
  refine ⟨hcolor, ?_, TextLine.pixelAt_layer _ _⟩
  unfold BgLine.opaqueAt
  rw [hcolor]
  exact TextLine.lineColor_opaque _

/-- The decoded line is the layer that the compositor takes as decoded. -/
theorem decodeTextLine_layer (u : TextUnit) (engine : Engine) (bg : Fin 4) (y : UInt32)
    (palette : Nat → UInt8) (vram : ViewedVram) (out : BgLine) {input : LineInput}
    (hcolor : input.bgColor bg = (decodeTextLine u engine bg y palette vram out).color) :
    decodeTextLine u engine bg y palette vram out = decodeBgLine u.toEngineUnit input bg := by
  unfold decodeBgLine
  rw [hcolor]
  rfl

end NdsRecomp.Video
