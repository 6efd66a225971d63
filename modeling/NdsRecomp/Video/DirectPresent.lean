import NdsRecomp.Library.OpSystem

/-!
Engine A and the 3D raster over the lines of a frame. What a frame presents directly,
what it reads back and what it captures is decided at the frame start, at VCount 215 and
when line 0 latches. The compositor and the capture of a line are parameters: they are
functions of the registers, the affine accumulators, the raster that the frame has and
the guest memory.
-/

namespace NdsRecomp.Video

open Library

/-! ### The raster and its readback -/

/-- The compute renderer's output. `newest` is the raster of the last VCount 215, and
`dropped` that it was given up without a readback. -/
structure Readback (F : Type) where
  texture : Option F := none
  computeRenderedFrame : Bool := false
  computeReadbackPending : Bool := false
  staging : Option F := none
  computeFrame : Option F := none
  newest : Option F := none
  dropped : Bool := false

namespace Readback

variable {F : Type} (p : Readback F)

/-- `compute_submit_readback` -/
def submit : Readback F :=
  if !p.computeRenderedFrame || p.computeReadbackPending then p
  else
    { p with
      staging := p.texture, computeRenderedFrame := false, computeReadbackPending := true }

/-- `compute_finish_readback` -/
def finish : Readback F :=
  if p.computeReadbackPending then
    { p with computeFrame := p.staging, computeReadbackPending := false }
  else p

/-- `nds_gpu3d_vcount215` -/
def vcount215 (overlap latency requires : Bool) (raster : F) : Readback F :=
  let p := if latency then p.finish else p
  let p : Readback F :=
    { p with
      texture := some raster, computeRenderedFrame := true, newest := some raster
      dropped := false }
  if (overlap || latency) && (requires || latency) then p.submit else p

/-- `nds_gpu3d_start_frame` -/
def startFrame (latency sameFrame : Bool) : Readback F :=
  let drainPending := sameFrame || !latency
  let p := if drainPending then p.finish else p
  let p :=
    if p.computeRenderedFrame then
      if sameFrame || latency then p.submit
      else { p with computeRenderedFrame := false, dropped := true }
    else p
  if drainPending then p.finish else p

end Readback

/-! ### Engine A -/

/-- What the guest writes and reads, and the scanline clock. -/
structure Gpu2dGuest (R V : Type) where
  dispcnt : BitVec 32 := 0
  capture : BitVec 32 := 0
  captureLatch : Bool := false
  refx : Fin 2 → BitVec 32 := fun _ => 0
  refy : Fin 2 → BitVec 32 := fun _ => 0
  other : R
  memory : V
  /-- the physical line -/
  line : Nat := 0
  vcount : Nat := 0
  nextVcount : Option Nat := none
  hblankDone : Bool := false

def Gpu2dGuest.captureEnabled {R V : Type} (g : Gpu2dGuest R V) : Bool := g.capture.getLsbD 31

/-- A written VCOUNT takes effect at the next line, and line 0 resets the counter. -/
def Gpu2dGuest.enterLine {R V : Type} (g : Gpu2dGuest R V) : Gpu2dGuest R V :=
  let line := (g.line + 1) % 263
  { g with
    line := line
    vcount := if line = 0 then 0 else g.nextVcount.getD (g.vcount + 1)
    nextVcount := none
    hblankDone := false }

structure AffineInternal where
  refx : Fin 2 → BitVec 32 := fun _ => 0
  refy : Fin 2 → BitVec 32 := fun _ => 0

/-- What is not part of this: the layers that are active, their increments, and the
composition and capture of a line from the raster. -/
structure LineCompositor (F R V : Type) where
  viewsPresent : V → Bool
  affineActive : BitVec 32 → R → Bool → Fin 2 → Bool
  pb : R → Fin 2 → BitVec 32
  pd : R → Fin 2 → BitVec 32
  capture : Gpu2dGuest R V → AffineInternal → (bg0_3d : Bool) → (width : Nat) → Option F → V

inductive NdsGpu2dDirectClass where
  | disabled
  | engineOff
  | capture
  | rendererView
  | forceBlank
  | displayMode
  | noBg0_3d
  | windows
  | extraBg
  | width
  | renderXpos
  | centerNative
  | screenRoute
  | forceCpu
  | supported
deriving DecidableEq

/-- What else `direct_scene_class` looks at. -/
structure DirectScene where
  engineEnabled : Bool
  outputWidth : Nat
  renderXpos : Nat
  adaptiveCenterNative : Bool
  adaptiveCenterMaxPolygons : Nat
  renderPolygonCount : Nat
  hasPerspective : Bool
  engineAOnTop : Bool

/-- The renderer with its settings. The last four fields are kept for the statement: how
the frame was started, and the raster it was started with. -/
structure Gpu2d (F R V : Type) where
  guest : Gpu2dGuest R V
  internal : AffineInternal := {}
  readback : Readback F := {}
  directPresentEnabled : Bool := false
  directForceCpuFrames : Nat := 0
  displayReadbackLatency : Bool := false
  directFrameActive : Bool := false
  frameCaptureActive : Bool := false
  startedDirect : Bool := false
  startedLatency : Bool := false
  startedDropped : Bool := false
  startRaster : Option F := none

namespace Gpu2d

variable {F R V : Type} (compositor : LineCompositor F R V) (overlap : Bool) (s : Gpu2d F R V)

/-- `direct_scene_class` -/
def directSceneClass (scene : DirectScene) : NdsGpu2dDirectClass :=
  let g := s.guest
  if !s.directPresentEnabled then .disabled
  else if !scene.engineEnabled then .engineOff
  else if g.captureEnabled || g.captureLatch then .capture
  else if !compositor.viewsPresent g.memory then .rendererView
  else if g.dispcnt.getLsbD 7 then .forceBlank
  else if (g.dispcnt >>> 16) &&& 3 ≠ 1 then .displayMode
  else if !(g.dispcnt.getLsbD 3 && g.dispcnt.getLsbD 8) then .noBg0_3d
  else if g.dispcnt &&& 0xE000 ≠ 0 then .windows
  else if (g.dispcnt >>> 9) &&& 7 ≠ 0 then .extraBg
  else if scene.outputWidth ≤ 256 then .width
  else if scene.renderXpos ≠ 0 then .renderXpos
  else if scene.adaptiveCenterNative then .centerNative
  else if scene.adaptiveCenterMaxPolygons ≠ 0 &&
      decide (scene.renderPolygonCount ≤ scene.adaptiveCenterMaxPolygons) &&
      !scene.hasPerspective then .centerNative
  else if !scene.engineAOnTop then .screenRoute
  else .supported

/-- `nds_gpu2d_requires_3d_readback` -/
def requires3dReadback : Bool :=
  s.guest.captureEnabled || s.guest.captureLatch || s.frameCaptureActive ||
    (!s.directFrameActive && !s.displayReadbackLatency)

/-- `nds_gpu2d_start_frame` -/
def startFrame2d (scene : DirectScene) : Gpu2d F R V :=
  let frameClass :=
    if s.directForceCpuFrames ≠ 0 then .forceCpu else s.directSceneClass compositor scene
  { s with
    directForceCpuFrames := s.directForceCpuFrames - 1
    directFrameActive := frameClass = .supported
    frameCaptureActive := s.guest.captureEnabled || s.guest.captureLatch
    internal := ⟨s.guest.refx, s.guest.refy⟩
    startedDirect := frameClass = .supported }

/-- `nds_gpu3d_start_frame` -/
def startFrame3d : Gpu2d F R V :=
  { s with
    readback := s.readback.startFrame s.displayReadbackLatency s.requires3dReadback
    startedLatency := s.displayReadbackLatency
    startedDropped := s.readback.dropped
    startRaster := s.readback.newest }

/-- `nds_gpu2d_vblank` -/
def vblank : Gpu2d F R V :=
  if s.guest.captureLatch then
    { s with
      guest :=
        { s.guest with capture := s.guest.capture &&& 0x7FFFFFFF, captureLatch := false } }
  else s

def vcount215 (raster : F) : Gpu2d F R V :=
  { s with
    readback :=
      s.readback.vcount215 overlap s.displayReadbackLatency s.requires3dReadback raster }

def putGuest (guest : Gpu2dGuest R V) : Gpu2d F R V := { s with guest := guest }

/-- The display sweep enters the next physical line. -/
def nextLine (scene : DirectScene) (raster : F) : Gpu2d F R V :=
  let g := s.guest.enterLine
  let entered := s.putGuest g
  if g.line = 0 then (entered.startFrame2d compositor scene).startFrame3d
  else if g.vcount = 192 then entered.vblank
  else if g.vcount = 215 then entered.vcount215 overlap raster
  else entered

def captureWidth (size : BitVec 32) : Nat := if size = 0 then 128 else 256

def captureHeight (size : BitVec 32) : Nat :=
  if size = 0 then 128 else if size = 1 then 64 else if size = 2 then 128 else 192

/-- `latch_line` of engine A at the HBlank of a visible line, and its render job. -/
def hblank : Gpu2d F R V :=
  if s.guest.line < 192 then
    let guest : Gpu2dGuest R V :=
      { s.guest with
        captureLatch :=
          s.guest.captureLatch || (s.guest.line == 0 && s.guest.captureEnabled)
        hblankDone := true }
    let size := (guest.capture >>> 20) &&& 3
    let cap := guest.captureLatch && decide (guest.line < captureHeight size)
    let bg0_3d := guest.dispcnt.getLsbD 3 && guest.dispcnt.getLsbD 8
    let mode := (guest.dispcnt >>> 16) &&& 3
    let generalPath := bg0_3d || cap || mode != 1 || guest.dispcnt &&& 0xE000 != 0
    let needComp := mode == 1 || (cap && !guest.capture.getLsbD 24)
    let renders := !s.directFrameActive && compositor.viewsPresent guest.memory &&
      !guest.dispcnt.getLsbD 7
    let active := compositor.affineActive guest.dispcnt guest.other bg0_3d
    let advanced : AffineInternal :=
      { refx := fun n =>
          if active n then s.internal.refx n + compositor.pb guest.other n else s.internal.refx n
        refy := fun n =>
          if active n then s.internal.refy n + compositor.pd guest.other n else s.internal.refy n }
    { s with
      guest :=
        { guest with
          memory :=
            if renders && cap then
              compositor.capture guest s.internal bg0_3d (captureWidth size)
                s.readback.computeFrame
            else guest.memory }
      internal := if renders && (!generalPath || needComp) then advanced else s.internal }
  else { s with guest := { s.guest with hblankDone := true } }

end Gpu2d

/-! ### Both runs -/

inductive FrameOp (F R V : Type) where
  | writeDispcnt (value : BitVec 32)
  /-- `mask` is the half or the word that is written -/
  | writeCapture (value mask : BitVec 32)
  | writeRefx (n : Fin 2) (value : BitVec 32)
  | writeRefy (n : Fin 2) (value : BitVec 32)
  | writeOther (write : R → R)
  | writeMemory (write : V → V)
  | writeVcount (value : Nat)
  | hblank
  | nextLine (scene : DirectScene) (raster : F)
  | setDirectPresent (enabled : Bool)
  | forceCpuFrames (frames : Nat)
  | setDisplayReadbackLatency (enabled : Bool)

namespace Gpu2d

variable {F R V : Type} (compositor : LineCompositor F R V) (overlap : Bool)

def next (s : Gpu2d F R V) : FrameOp F R V → Gpu2d F R V
  | .writeDispcnt value => s.putGuest { s.guest with dispcnt := value }
  | .writeCapture value mask =>
      s.putGuest
        { s.guest with
          capture := (s.guest.capture &&& ~~~mask) ||| (value &&& mask &&& 0xEF3F1F1F) }
  | .writeRefx n value =>
      { s with
        guest := { s.guest with refx := Function.update s.guest.refx n value }
        internal := { s.internal with refx := Function.update s.internal.refx n value } }
  | .writeRefy n value =>
      { s with
        guest := { s.guest with refy := Function.update s.guest.refy n value }
        internal := { s.internal with refy := Function.update s.internal.refy n value } }
  | .writeOther write => s.putGuest { s.guest with other := write s.guest.other }
  | .writeMemory write => s.putGuest { s.guest with memory := write s.guest.memory }
  | .writeVcount value => s.putGuest { s.guest with nextVcount := some value }
  | .hblank => s.hblank compositor
  | .nextLine scene raster => s.nextLine compositor overlap scene raster
  | .setDirectPresent enabled =>
      { s with
        directPresentEnabled := enabled
        directFrameActive := enabled && s.directFrameActive }
  | .forceCpuFrames frames =>
      { s with directForceCpuFrames := max s.directForceCpuFrames frames }
  | .setDisplayReadbackLatency enabled => { s with displayReadbackLatency := enabled }

end Gpu2d

/-- The renderer beside one without direct presentation and with synchronous readback,
under the same guest. -/
structure BothRuns (F R V : Type) where
  fast : Gpu2d F R V
  reference : Gpu2d F R V

namespace BothRuns

variable {F R V : Type} (compositor : LineCompositor F R V) (overlap : Bool)

/-- The settings change the first only. -/
def next (b : BothRuns F R V) (op : FrameOp F R V) : BothRuns F R V :=
  match op with
  | .setDirectPresent _ | .forceCpuFrames _ | .setDisplayReadbackLatency _ =>
      { b with fast := b.fast.next compositor overlap op }
  | _ => ⟨b.fast.next compositor overlap op, b.reference.next compositor overlap op⟩

/-- A line ends after its HBlank. -/
def Admits (b : BothRuns F R V) : FrameOp F R V → Prop
  | .hblank => b.fast.guest.hblankDone = false
  | .nextLine .. => b.fast.guest.hblankDone = true
  | _ => True

/-- When line 0 latches a set enable bit, it was set at the frame start, or the frame was
started without direct presentation and without latency, and its raster was not dropped.
A captured frame does not meet VCount 215 with a readback that latency left pending. -/
def StepPresents (b : BothRuns F R V) : FrameOp F R V → Prop
  | .hblank =>
      b.fast.guest.line = 0 → b.fast.guest.captureEnabled = true →
        (b.fast.frameCaptureActive = true ∨
          b.fast.startedDirect = false ∧ b.fast.startedLatency = false) ∧
        b.fast.startedDropped = false
  | .nextLine .. =>
      b.fast.guest.enterLine.vcount = 215 → b.fast.guest.captureLatch = true →
        b.fast.displayReadbackLatency = true → b.fast.readback.computeReadbackPending = false
  | _ => True

instance (b : BothRuns F R V) : ∀ op, Decidable (b.Admits op)
  | .hblank => inferInstanceAs (Decidable (_ = _))
  | .nextLine .. => inferInstanceAs (Decidable (_ = _))
  | .writeDispcnt .. | .writeCapture .. | .writeRefx .. | .writeRefy .. | .writeOther ..
  | .writeMemory .. | .writeVcount .. | .setDirectPresent .. | .forceCpuFrames ..
  | .setDisplayReadbackLatency .. => .isTrue trivial

instance (b : BothRuns F R V) : ∀ op, Decidable (b.StepPresents op)
  | .hblank => inferInstanceAs (Decidable (_ → _ → _ ∧ _))
  | .nextLine .. => inferInstanceAs (Decidable (_ → _ → _ → _))
  | .writeDispcnt .. | .writeCapture .. | .writeRefx .. | .writeRefy .. | .writeOther ..
  | .writeMemory .. | .writeVcount .. | .setDirectPresent .. | .forceCpuFrames ..
  | .setDisplayReadbackLatency .. => .isTrue trivial

end BothRuns

/-- After a reset: the guest state is any, no frame was rendered. -/
def presentSystem {F R V : Type} (compositor : LineCompositor F R V) (overlap : Bool) :
    OpSystem (BothRuns F R V) (FrameOp F R V) where
  initial b := ∃ (other : R) (memory : V),
    b = ⟨{ guest := { other := other, memory := memory } },
      { guest := { other := other, memory := memory } }⟩
  admits := BothRuns.Admits
  next := BothRuns.next compositor overlap

instance {F R V : Type} (compositor : LineCompositor F R V) (overlap : Bool)
    (b : BothRuns F R V) (op : FrameOp F R V) :
    Decidable ((presentSystem compositor overlap).admits b op) :=
  inferInstanceAs (Decidable (b.Admits op))

end NdsRecomp.Video
