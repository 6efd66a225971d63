import NdsRecomp.Library.TopTwo
import NdsRecomp.Library.FinIndex
import Mathlib.Data.List.FinRange
import Mathlib.Data.Fintype.Basic

/-!
One line of a 2D engine, from decoded layers to host pixels: the general
compositor, and the direct paths that write host pixels without it. Both paths
decode the same layers, so what the decoders read out of VRAM is an input here.
-/

namespace NdsRecomp.Video

open Library

/-! ### Colours -/

def rgb6 (color : UInt16) : UInt32 :=
  let c := color.toUInt32
  ((c &&& 0x1F) <<< 1) ||| (((c &&& 0x3E0) >>> 4) <<< 8) ||| (((c &&& 0x7C00) >>> 9) <<< 16)

def toRgb32 (color : UInt32) : UInt32 :=
  let widen (c : UInt32) : UInt32 := (c <<< 2) ||| (c >>> 4)
  let r := widen (color &&& 0x3F)
  let g := widen ((color >>> 8) &&& 0x3F)
  let b := widen ((color >>> 16) &&& 0x3F)
  (0xFF000000 : UInt32) ||| (r <<< 16) ||| (g <<< 8) ||| b

/-- `rgb32_lut()[index]`; the table has 32768 entries. -/
def rgb32Lut (index : Nat) : Option UInt32 :=
  if index < 32768 then some (toRgb32 (rgb6 (UInt16.ofNat index))) else none

/-- The channels at bits 0, 8 and 16, mapped one by one. -/
def perChannel (f : UInt32 → UInt32 → UInt32) (a b : UInt32) : UInt32 :=
  min (f (a &&& 0x3F) (b &&& 0x3F)) 63 |||
    (min (f ((a >>> 8) &&& 0x3F) ((b >>> 8) &&& 0x3F)) 63 <<< 8) |||
    (min (f ((a >>> 16) &&& 0x3F) ((b >>> 16) &&& 0x3F)) 63 <<< 16)

def blend (a b eva evb : UInt32) : UInt32 :=
  perChannel (fun x y => (x * eva + y * evb + 8) >>> 4) a b

def blend5 (a b alpha : UInt32) : UInt32 :=
  let eva := alpha + 1
  let evb := 32 - eva
  if eva = 32 then a else perChannel (fun x y => (x * eva + y * evb + 16) >>> 5) a b

def brighten (c f bias : UInt32) : UInt32 :=
  perChannel (fun x _ => x + (((63 - x) * f + bias) >>> 4)) c c

def darken (c f bias : UInt32) : UInt32 :=
  let channel (x : UInt32) : UInt32 := x - ((x * f + bias) >>> 4)
  channel (c &&& 0x3F) ||| (channel ((c >>> 8) &&& 0x3F) <<< 8) |||
    (channel ((c >>> 16) &&& 0x3F) <<< 16)

/-! ### Registers and layers -/

/-- The registers of an engine's `Unit` that composition reads. -/
structure EngineUnit where
  dispcnt : UInt32 := 0
  bgcnt : Fin 4 → UInt16 := fun _ => 0
  win : Fin 12 → UInt8 := fun _ => 0
  bldcnt : UInt16 := 0
  eva : UInt8 := 16
  evb : UInt8 := 0
  evy : UInt8 := 0
  masterBright : UInt16 := 0

structure Pixel where
  color : UInt32 := 0
  target : UInt8 := 0
  alpha : UInt8 := 0
  priority : UInt8 := 4
  order : UInt8 := 0
  valid : Bool := false
  alpha5 : UInt8 := 0
deriving DecidableEq

/-- One decoded BG layer; bit 15 of a colour marks it opaque. -/
structure BgLine where
  color : Fin 256 → UInt16
  prio : UInt8
  target : UInt8
  order : UInt8

inductive BgKind where
  | none
  | text
  | affine
  | extended
deriving DecidableEq

def bgKind (u : EngineUnit) (bg : Fin 4) : BgKind :=
  let mode := u.dispcnt &&& 7
  if bg < 2 then if mode = 6 then .none else .text
  else if bg = 2 then
    if mode = 0 ∨ mode = 1 ∨ mode = 3 then .text
    else if mode = 2 ∨ mode = 4 then .affine
    else if mode = 5 then .extended
    else .none
  else if mode = 0 then .text
  else if mode = 1 ∨ mode = 2 then .affine
  else if mode = 3 ∨ mode = 4 ∨ mode = 5 then .extended
  else .none

/-- A write of `render_obj_line`, sprites in the order they are visited: a
visible pixel, or coverage of the OBJ window. -/
inductive SpriteWrite where
  | pixel (x : Int) (color : UInt16) (alpha : UInt8) (priority : Fin 4)
  | window (x : Int)

/-- What a line reads from the palette, OAM and VRAM of its engine. -/
structure LineInput where
  palette : Nat → UInt8
  bgColor : Fin 4 → Fin 256 → UInt16
  sprites : List SpriteWrite

def view16 (view : Nat → UInt8) (offset : Nat) : UInt16 :=
  let at_ (i : Nat) : UInt16 := (view (offset % 0x400 + i)).toUInt16
  at_ 0 ||| (at_ 1 <<< 8)

def bgPriority (u : EngineUnit) (bg : Fin 4) : UInt8 := (u.bgcnt bg &&& 3).toUInt8

def decodeBgLine (u : EngineUnit) (input : LineInput) (bg : Fin 4) : BgLine where
  color := input.bgColor bg
  prio := bgPriority u bg
  target := 1 <<< UInt8.ofNat bg
  order := UInt8.ofNat (bg + 1)

def putObj (line : Fin 256 → Pixel) (x : Int) (p : Pixel) : Fin 256 → Pixel := fun i =>
  if (i : Int) = x ∧ p.valid = true ∧ ((line i).valid = false ∨ p.priority ≤ (line i).priority) then p
  else line i

def spritePixel (color : UInt16) (alpha : UInt8) (priority : Fin 4) : Pixel where
  color := rgb6 color
  target := 0x10
  alpha := alpha
  priority := UInt8.ofNat priority
  valid := true

/-- A line's pixels and its OBJ window. -/
structure ObjLine where
  out : Fin 256 → Pixel := fun _ => {}
  window : Fin 256 → Bool := fun _ => false

/-- Without a window buffer the window's sprites are skipped. -/
def ObjLine.write (objWindow : Bool) (line : ObjLine) : SpriteWrite → ObjLine
  | .pixel x color alpha priority =>
      { line with out := putObj line.out x (spritePixel color alpha priority) }
  | .window x =>
      if objWindow then { line with window := fun i => decide ((i : Int) = x) || line.window i }
      else line

def renderObjLine (u : EngineUnit) (input : LineInput) (objWindow : Bool) : ObjLine :=
  if u.dispcnt &&& 0x1000 = 0 then {} else input.sprites.foldl (ObjLine.write objWindow) {}

def bgActive (u : EngineUnit) (bg0_3d : Bool) (bg : Fin 4) : Bool :=
  u.dispcnt &&& ((0x100 : UInt32) <<< UInt32.ofNat bg) != 0 && !(bg == 0 && bg0_3d) &&
    bgKind u bg != .none

def activeBgs (u : EngineUnit) (bg0_3d : Bool) : List (Fin 4) :=
  (List.finRange 4).filter (bgActive u bg0_3d)

/-! ### Windows -/

def windowContains (point start stop : UInt8) : Bool :=
  if start < stop then decide (start ≤ point ∧ point < stop)
  else if stop < start then decide (start ≤ point ∨ point < stop)
  else false

def windowRectContains (x y left right top bottom : UInt8) : Bool :=
  windowContains x left right && windowContains y top bottom

def windowMask (u : EngineUnit) (x y : UInt8) (objWindow : Bool) : UInt8 :=
  if u.dispcnt &&& 0xE000 = 0 then 0x3F
  else if u.dispcnt &&& 0x2000 ≠ 0 ∧
      windowRectContains x y (u.win 1) (u.win 0) (u.win 5) (u.win 4) = true then u.win 8
  else if u.dispcnt &&& 0x4000 ≠ 0 ∧
      windowRectContains x y (u.win 3) (u.win 2) (u.win 7) (u.win 6) = true then u.win 9
  else if u.dispcnt &&& 0x8000 ≠ 0 ∧ objWindow = true then u.win 11
  else u.win 10

/-! ### The general compositor -/

def compose (u : EngineUnit) (top below : Pixel) (effectsEnabled : Bool) : UInt32 :=
  let c := top.color
  let target2 := u.bldcnt &&& (below.target.toUInt16 <<< 8)
  let target1 := u.bldcnt &&& top.target.toUInt16
  let effect := (u.bldcnt >>> 6) &&& 3
  if top.alpha5 ≠ 0 then
    if target2 ≠ 0 then blend5 c below.color top.alpha5.toUInt32
    else if effectsEnabled = true ∧ target1 ≠ 0 then
      if effect = 2 then brighten c u.evy.toUInt32 8
      else if effect = 3 then darken c u.evy.toUInt32 7
      else c
    else c
  else if top.alpha ≠ 0 ∧ target2 ≠ 0 then
    if top.alpha = 0xFF then blend c below.color u.eva.toUInt32 u.evb.toUInt32
    else blend c below.color top.alpha.toUInt32 (16 - top.alpha.toUInt32)
  else if effectsEnabled = true ∧ target1 ≠ 0 then
    if effect = 1 then
      if target2 ≠ 0 then blend c below.color u.eva.toUInt32 u.evb.toUInt32 else c
    else if effect = 2 then brighten c u.evy.toUInt32 8
    else if effect = 3 then darken c u.evy.toUInt32 7
    else c
  else c

def Pixel.ahead (a b : Pixel) : Prop :=
  a.priority < b.priority ∨ (a.priority = b.priority ∧ a.order < b.order)

instance : DecidableRel Pixel.ahead := fun _ _ => inferInstanceAs (Decidable (_ ∨ _))

def backdrop15 (input : LineInput) : UInt16 := view16 input.palette 0

def backdrop (input : LineInput) : Pixel where
  color := rgb6 (backdrop15 input)
  target := 0x20
  priority := 4
  order := 5
  valid := true

def BgLine.opaqueAt (l : BgLine) (x : Fin 256) : Bool := l.color x &&& 0x8000 != 0

def BgLine.pixel (l : BgLine) (x : Fin 256) : Pixel where
  color := rgb6 (l.color x &&& 0x7FFF)
  target := l.target
  priority := l.prio
  order := l.order
  valid := true

/-- The 3D line's pixel at BG0's priority. -/
def pixel3d (u : EngineUnit) (c3 : UInt32) : Pixel where
  color := c3 &&& 0x003F3F3F
  target := 1
  priority := bgPriority u 0
  order := 1
  valid := true
  alpha5 := ((c3 >>> 24) &&& 0x1F).toUInt8

/-- `compose_line6` -/
def composeLine6 (u : EngineUnit) (input : LineInput) (y : UInt8) (line3d : Option (Fin 256 → UInt32))
    (bg0_3d : Bool) (x : Fin 256) : UInt32 :=
  let obj := (renderObjLine u input true).out x
  let mask := windowMask u (UInt8.ofNat x) y ((renderObjLine u input true).window x)
  let bgs := (activeBgs u bg0_3d).filter fun bg =>
    (decodeBgLine u input bg).opaqueAt x && mask &&& ((1 : UInt8) <<< UInt8.ofNat bg) != 0
  let layers := bgs.map fun bg => (decodeBgLine u input bg).pixel x
  let layer3d := match line3d with
    | some line => if bg0_3d = true ∧ mask &&& 1 ≠ 0 ∧ (line x >>> 24) &&& 0x1F ≠ 0
        then [pixel3d u (line x)] else []
    | none => []
  let layerObj := if obj.valid = true ∧ mask &&& 0x10 ≠ 0 then [obj] else []
  let (top, below) := (layers ++ layer3d ++ layerObj).foldl (pushCandidate Pixel.ahead)
    (backdrop input, backdrop input)
  compose u top below (mask &&& 0x20 != 0)

def brightMode (u : EngineUnit) : UInt16 := u.masterBright >>> 14

def masterBrightness (u : EngineUnit) (c : UInt32) : UInt32 :=
  let mb := min 16 (u.masterBright &&& 0x1F).toUInt32
  if brightMode u = 1 then brighten c mb 0
  else if brightMode u = 2 then darken c mb 15
  else c

/-! ### The direct paths -/

def lineGeneralPath (u : EngineUnit) (engine : Fin 2) (bg0_3d cap : Bool) : Bool :=
  let mode := (u.dispcnt >>> 16) &&& (if engine = 1 then 1 else 3)
  bg0_3d || cap || mode != 1 || u.dispcnt &&& 0xE000 != 0

/-- Lower priority first, ties to the lower layer. -/
def bgBefore (u : EngineUnit) (a b : Fin 4) : Prop :=
  bgPriority u a < bgPriority u b ∨ (bgPriority u a = bgPriority u b ∧ a < b)

instance (u : EngineUnit) : DecidableRel (bgBefore u) := fun _ _ => inferInstanceAs (Decidable (_ ∨ _))

/-- The layers, front first. -/
def frontFirst (u : EngineUnit) (input : LineInput) : List BgLine :=
  (insertionSortBack (bgBefore u) (activeBgs u false)).map (decodeBgLine u input)

/-- OBJ over the backdrop, with no BG. -/
def objOverBackdrop (obj : Pixel) (input : LineInput) : Option UInt32 :=
  if obj.valid then some (toRgb32 obj.color) else rgb32Lut (backdrop15 input).toNat

/-- The front pixel alone. -/
def frontPixel (obj : Pixel) (input : LineInput) (lines : List BgLine) (x : Fin 256) : Option UInt32 :=
  let (top15, topPrio) := match lines.find? fun l => l.opaqueAt x with
    | some l => (l.color x, l.prio)
    | none => (backdrop15 input, 4)
  if obj.valid = true ∧ obj.priority ≤ topPrio then some (toRgb32 obj.color)
  else rgb32Lut (top15 &&& 0x7FFF).toNat

/-- The scan for the first two opaque layers, once the first one is known. -/
def scanBelow (top below : Pixel) (x : Fin 256) : List BgLine → Pixel × Pixel
  | [] => (top, below)
  | l :: lines => if l.opaqueAt x then (top, l.pixel x) else scanBelow top below x lines

def scanFront (back : Pixel) (x : Fin 256) : List BgLine → Pixel × Pixel
  | [] => (back, back)
  | l :: lines => if l.opaqueAt x then scanBelow (l.pixel x) back x lines else scanFront back x lines

/-- Top and below with effects. -/
def topAndBelow (u : EngineUnit) (obj : Pixel) (input : LineInput) (lines : List BgLine)
    (x : Fin 256) : UInt32 :=
  let (top, below) := scanFront (backdrop input) x lines
  let (top, below) :=
    if obj.valid then
      if obj.ahead top then (obj, top) else if obj.ahead below then (top, obj) else (top, below)
    else (top, below)
  toRgb32 (masterBrightness u (compose u top below true))

/-- `render_engine_line` where `line_general_path` is false. -/
def renderDirect (u : EngineUnit) (input : LineInput) (x : Fin 256) : Option UInt32 :=
  let obj := (renderObjLine u input false).out x
  let lines := frontFirst u input
  if lines.length = 0 ∧ u.bldcnt = 0 ∧ brightMode u = 0 then objOverBackdrop obj input
  else if u.bldcnt &&& 0x3FC0 = 0 ∧ brightMode u = 0 then frontPixel obj input lines x
  else some (topAndBelow u obj input lines x)

end NdsRecomp.Video
