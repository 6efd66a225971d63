import NdsRecomp.Video.DirectPresent

/-!
What the guest sees of a run with direct presentation. A frame that captures was started
with the compositor on and with its raster read back, so its lines are composed from what
the reference composes them from; a frame that does not capture leaves no trace in the
guest's memory, and the next frame start takes the accumulators and the raster anew.
-/

namespace NdsRecomp.Video

open Library

/-! ### The raster -/

namespace Readback

variable {F : Type} {p : Readback F}

/-- The last raster is in the texture, on its way, or in the frame. -/
def Located (p : Readback F) : Prop :=
  p.computeRenderedFrame = true ∧ p.texture = p.newest ∨
    p.computeRenderedFrame = false ∧
      (p.computeReadbackPending = true ∧ p.staging = p.newest ∨
        p.computeReadbackPending = false ∧ p.computeFrame = p.newest)

theorem finish_eq (h : p.computeReadbackPending = false) : p.finish = p := by
  unfold finish
  rw [h]
  rfl

theorem finish_located (h : p.Located) : p.finish.Located := by
  unfold finish
  split
  · rename_i hpending
    rcases h with hrendered | ⟨hnot, ⟨-, hstaging⟩ | ⟨hidle, -⟩⟩
    · exact Or.inl hrendered
    · exact Or.inr ⟨hnot, Or.inr ⟨rfl, hstaging⟩⟩
    · rw [hpending] at hidle
      cases hidle
  · exact h

theorem submit_located (h : p.Located) : p.submit.Located := by
  unfold submit
  split
  · exact h
  · rename_i hbusy
    rcases h with ⟨-, htexture⟩ | ⟨hnot, -⟩
    · exact Or.inr ⟨rfl, Or.inl ⟨rfl, htexture⟩⟩
    · simp only [hnot, Bool.not_false, Bool.true_or, not_true_eq_false] at hbusy

@[simp] theorem finish_newest : p.finish.newest = p.newest := by
  unfold finish
  split <;> rfl

@[simp] theorem submit_newest : p.submit.newest = p.newest := by
  unfold submit
  split <;> rfl

@[simp] theorem finish_dropped : p.finish.dropped = p.dropped := by
  unfold finish
  split <;> rfl

@[simp] theorem submit_dropped : p.submit.dropped = p.dropped := by
  unfold submit
  split <;> rfl

@[simp] theorem submit_computeFrame : p.submit.computeFrame = p.computeFrame := by
  unfold submit
  split <;> rfl

@[simp] theorem finish_pending : p.finish.computeReadbackPending = false := by
  unfold finish
  split
  · rfl
  · rename_i hidle
    simpa using hidle

@[simp] theorem finish_rendered : p.finish.computeRenderedFrame = p.computeRenderedFrame := by
  unfold finish
  split <;> rfl

/-- VCount 215 renders a raster, whatever becomes of it. -/
theorem vcount215_located (overlap latency requires : Bool) (raster : F) :
    (p.vcount215 overlap latency requires raster).Located ∧
      (p.vcount215 overlap latency requires raster).newest = some raster ∧
      (p.vcount215 overlap latency requires raster).dropped = false := by
  unfold vcount215
  dsimp only
  split
  · exact ⟨submit_located (Or.inl ⟨rfl, rfl⟩), submit_newest, submit_dropped⟩
  · exact ⟨Or.inl ⟨rfl, rfl⟩, rfl, rfl⟩

/-- Without a readback that latency left pending the frame stays. -/
theorem vcount215_computeFrame {overlap latency requires : Bool} {raster : F}
    (h : latency = true → p.computeReadbackPending = false) :
    (p.vcount215 overlap latency requires raster).computeFrame = p.computeFrame := by
  have hsame : (if latency = true then p.finish else p) = p := by
    split
    · rename_i hlatency
      exact finish_eq (h hlatency)
    · rfl
  unfold vcount215
  rw [hsame]
  dsimp only
  split
  · exact submit_computeFrame
  · rfl

theorem startFrame_newest {latency sameFrame : Bool} :
    (p.startFrame latency sameFrame).newest = p.newest := by
  cases latency <;> cases sameFrame <;> simp [startFrame] <;> split <;> simp

/-- A raster is given up only when the frame neither needs it nor is late. -/
theorem startFrame_kept {latency sameFrame : Bool} (h : sameFrame = true ∨ latency = true) :
    (p.startFrame latency sameFrame).dropped = p.dropped := by
  cases latency <;> cases sameFrame <;> simp_all [startFrame] <;> split <;> simp

theorem startFrame_located {latency sameFrame : Bool} (h : p.Located) :
    (p.startFrame latency sameFrame).Located ∨
      (p.startFrame latency sameFrame).dropped = true := by
  have hdrained : ∀ {q : Readback F} (drain : Bool), q.Located ∨ q.dropped = true →
      (if drain then q.finish else q).Located ∨ (if drain then q.finish else q).dropped = true := by
    intro q drain hq
    split
    · exact hq.imp finish_located fun hdropped => finish_dropped.trans hdropped
    · exact hq
  have hgiven : ∀ {q : Readback F}, q.Located →
      (if q.computeRenderedFrame then
          if sameFrame || latency then q.submit
          else { q with computeRenderedFrame := false, dropped := true }
        else q).Located ∨
        (if q.computeRenderedFrame then
          if sameFrame || latency then q.submit
          else { q with computeRenderedFrame := false, dropped := true }
        else q).dropped = true := by
    intro q hq
    split
    · split
      · exact Or.inl (submit_located hq)
      · exact Or.inr rfl
    · exact Or.inl hq
  have hfirst : (if (sameFrame || !latency) = true then p.finish else p).Located := by
    split
    · exact finish_located h
    · exact h
  exact hdrained _ (hgiven hfirst)

theorem startFrame_dropped {latency sameFrame : Bool} (h : p.dropped = true) :
    (p.startFrame latency sameFrame).dropped = true := by
  cases latency <;> cases sameFrame <;> simp [startFrame] <;> split <;> simp [h]

/-- A frame that needs its raster has it. -/
theorem startFrame_drains {latency : Bool} (h : p.Located) :
    (p.startFrame latency true).computeFrame = p.newest ∧
      (p.startFrame latency true).Located := by
  have hfinished := finish_located h
  unfold startFrame
  simp only [Bool.true_or, if_true]
  rcases hfinished with ⟨hrendered, htexture⟩ | ⟨hnot, ⟨hpending, -⟩ | ⟨-, hframe⟩⟩
  · rw [if_pos hrendered]
    have hsubmitted : p.finish.submit =
        { p.finish with
          staging := p.finish.texture, computeRenderedFrame := false
          computeReadbackPending := true } := by
      unfold submit
      rw [hrendered, finish_pending]
      rfl
    have hlocated := finish_located (submit_located (Or.inl ⟨hrendered, htexture⟩))
    refine ⟨?_, hlocated⟩
    rw [hsubmitted]
    exact htexture.trans finish_newest
  · rw [finish_pending] at hpending
    cases hpending
  · rw [hnot]
    simp only [Bool.false_eq_true, if_false]
    rw [finish_eq finish_pending]
    exact ⟨hframe.trans finish_newest, Or.inr ⟨hnot, Or.inr ⟨finish_pending, hframe⟩⟩⟩

end Readback

/-! ### The steps of one renderer -/

namespace Gpu2d

variable {F R V : Type} {compositor : LineCompositor F R V} {overlap : Bool}
  {s r : Gpu2d F R V}

/-- The frame was started so that its raster was read back. -/
def SyncedStart (s : Gpu2d F R V) : Prop :=
  s.frameCaptureActive = true ∨ s.startedDirect = false ∧ s.startedLatency = false

/-- A frame that captures is not presented directly. -/
theorem directSceneClass_capture {scene : DirectScene}
    (h : s.directSceneClass compositor scene = .supported) :
    (s.guest.captureEnabled || s.guest.captureLatch) = false := by
  rw [Bool.eq_false_iff]
  intro hcapture
  unfold directSceneClass at h
  dsimp only at h
  by_cases hoff : (!s.directPresentEnabled) = true
  · rw [if_pos hoff] at h
    cases h
  · rw [if_neg hoff] at h
    by_cases hengine : (!scene.engineEnabled) = true
    · rw [if_pos hengine] at h
      cases h
    · rw [if_neg hengine, if_pos hcapture] at h
      cases h

theorem directSceneClass_disabled {scene : DirectScene} (h : s.directPresentEnabled = false) :
    s.directSceneClass compositor scene = .disabled := by
  unfold directSceneClass
  rw [h]
  rfl

/-- What HBlank leaves as it is. -/
theorem hblank_rest : s.hblank compositor =
    { s with guest := (s.hblank compositor).guest, internal := (s.hblank compositor).internal } := by
  unfold hblank
  split
  · rfl
  · rfl

/-- The latch of line 0. -/
def latched (s : Gpu2d F R V) : Bool :=
  s.guest.captureLatch || (s.guest.line == 0 && s.guest.captureEnabled)

theorem hblank_captureLatch : (s.hblank compositor).guest.captureLatch = s.latched := by
  unfold hblank
  split
  · rfl
  · rename_i hline
    have hlater : (s.guest.line == 0) = false := by
      rw [beq_eq_false_iff_ne]
      omega
    change s.guest.captureLatch = s.latched
    unfold latched
    rw [hlater, Bool.false_and, Bool.or_false]

theorem hblank_line : (s.hblank compositor).guest.line = s.guest.line := by
  unfold hblank
  split
  · rfl
  · rfl

/-- A line that captures nothing leaves the memory. -/
theorem hblank_noLatch (hguest : s.guest = r.guest) (h : s.latched = false) :
    (s.hblank compositor).guest = (r.hblank compositor).guest := by
  unfold latched at h
  unfold hblank
  rw [← hguest]
  split
  · simp only [h, Bool.false_and, Bool.and_false, Bool.false_eq_true, if_false]
  · rfl

/-- Lines that are composed alike leave the same. -/
theorem hblank_same (hguest : s.guest = r.guest) (hactive : s.directFrameActive = r.directFrameActive)
    (hinternal : s.internal = r.internal)
    (hframe : s.readback.computeFrame = r.readback.computeFrame) :
    (s.hblank compositor).guest = (r.hblank compositor).guest := by
  unfold hblank
  rw [hguest, hactive, hinternal, hframe]
  split
  · rfl
  · rfl

theorem hblank_internal (hguest : s.guest = r.guest)
    (hactive : s.directFrameActive = r.directFrameActive) (hinternal : s.internal = r.internal) :
    (s.hblank compositor).internal = (r.hblank compositor).internal := by
  unfold hblank
  rw [hguest, hactive, hinternal]
  split
  · rfl
  · rfl

end Gpu2d

/-! ### Both renderers -/

/-- The guest sees the same of both runs, and a frame that captures has what the
reference has. -/
structure RunsAgree {F R V : Type} (b : BothRuns F R V) : Prop where
  guest : b.fast.guest = b.reference.guest
  presentOff : b.reference.directPresentEnabled = false
  activeOff : b.reference.directFrameActive = false
  latencyOff : b.reference.displayReadbackLatency = false
  newest : b.fast.readback.newest = b.reference.readback.newest
  located : b.fast.readback.Located ∨ b.fast.readback.dropped = true
  referenceLocated : b.reference.readback.Located
  startRaster : b.fast.startRaster = b.reference.startRaster
  referenceFrame : b.reference.readback.computeFrame = b.reference.startRaster
  active : b.fast.directFrameActive = true → b.fast.startedDirect = true
  captureStart : b.fast.frameCaptureActive = true → b.fast.startedDirect = false
  internal : b.fast.startedDirect = false → b.fast.internal = b.reference.internal
  /-- a frame that was read back has its raster while it can capture -/
  frame : b.fast.SyncedStart → b.fast.startedDropped = false →
    b.fast.guest.captureLatch = true ∨ b.fast.guest.line = 0 →
    b.fast.readback.computeFrame = b.fast.startRaster
  kept : b.fast.SyncedStart → b.fast.startedDropped = false → b.fast.readback.dropped = false
  latch : b.fast.guest.captureLatch = true → b.fast.SyncedStart ∧ b.fast.startedDropped = false

namespace BothRuns

variable {F R V : Type} {compositor : LineCompositor F R V} {overlap : Bool}
  {b : BothRuns F R V}

theorem syncedStart_composes (h : RunsAgree b) (hsynced : b.fast.SyncedStart) :
    b.fast.startedDirect = false := by
  rcases hsynced with hcapture | ⟨hcomposes, -⟩
  · exact h.captureStart hcapture
  · exact hcomposes

theorem inactive_of_composes (h : RunsAgree b) (hcomposes : b.fast.startedDirect = false) :
    b.fast.directFrameActive = b.reference.directFrameActive := by
  rw [h.activeOff]
  cases hactive : b.fast.directFrameActive with
  | false => rfl
  | true =>
      rw [h.active hactive] at hcomposes
      cases hcomposes

/-- The guest writes the same to both. -/
theorem putGuest_agrees (h : RunsAgree b) {guest : Gpu2dGuest R V}
    (hlatch : guest.captureLatch = b.fast.guest.captureLatch)
    (hline : guest.line = b.fast.guest.line) :
    RunsAgree (⟨b.fast.putGuest guest, b.reference.putGuest guest⟩ : BothRuns F R V) := by
  refine { h with guest := rfl, frame := ?_, latch := ?_ }
  · intro hsynced hkept hcaptures
    refine h.frame hsynced hkept ?_
    rw [← hlatch, ← hline]
    exact hcaptures
  · intro hcaptures
    exact h.latch (hlatch ▸ hcaptures)

theorem hblank_agrees (h : RunsAgree b) (hpresents : b.StepPresents .hblank) :
    RunsAgree (⟨b.fast.hblank compositor, b.reference.hblank compositor⟩ : BothRuns F R V) := by
  have hlatched : b.fast.latched = true →
      b.fast.SyncedStart ∧ b.fast.startedDropped = false ∧
        (b.fast.guest.captureLatch = true ∨ b.fast.guest.line = 0) := by
    intro htrue
    unfold Gpu2d.latched at htrue
    rcases Bool.or_eq_true_iff.mp htrue with hbefore | hnow
    · obtain ⟨hsynced, hkept⟩ := h.latch hbefore
      exact ⟨hsynced, hkept, Or.inl hbefore⟩
    · obtain ⟨hline, henabled⟩ := Bool.and_eq_true_iff.mp hnow
      have hzero : b.fast.guest.line = 0 := beq_iff_eq.mp hline
      obtain ⟨hsynced, hkept⟩ := hpresents hzero henabled
      exact ⟨hsynced, hkept, Or.inr hzero⟩
  have hguest : (b.fast.hblank compositor).guest = (b.reference.hblank compositor).guest := by
    cases hlatch : b.fast.latched with
    | false => exact Gpu2d.hblank_noLatch h.guest hlatch
    | true =>
        obtain ⟨hsynced, hkept, hcaptures⟩ := hlatched hlatch
        have hcomposes := syncedStart_composes h hsynced
        have hframe : b.fast.readback.computeFrame = b.reference.readback.computeFrame := by
          rw [h.frame hsynced hkept hcaptures, h.startRaster, h.referenceFrame]
        exact Gpu2d.hblank_same h.guest (inactive_of_composes h hcomposes) (h.internal hcomposes)
          hframe
  have hinternal : b.fast.startedDirect = false →
      (b.fast.hblank compositor).internal = (b.reference.hblank compositor).internal :=
    fun hcomposes => Gpu2d.hblank_internal h.guest (inactive_of_composes h hcomposes)
      (h.internal hcomposes)
  have hlatch : (b.fast.hblank compositor).guest.captureLatch = b.fast.latched :=
    Gpu2d.hblank_captureLatch
  have hline : (b.fast.hblank compositor).guest.line = b.fast.guest.line := Gpu2d.hblank_line
  rw [Gpu2d.hblank_rest (s := b.fast), Gpu2d.hblank_rest (s := b.reference)]
  refine { h with guest := hguest, internal := hinternal, frame := ?_, latch := ?_ }
  · intro hsynced hkept hcaptures
    refine h.frame hsynced hkept ?_
    rcases hcaptures with hnow | hzero
    · exact (hlatched (hlatch ▸ hnow)).2.2
    · exact Or.inr (hline ▸ hzero)
  · intro hcaptures
    obtain ⟨hsynced, hkept, -⟩ := hlatched (hlatch ▸ hcaptures)
    exact ⟨hsynced, hkept⟩

/-- The next line is entered, off the frame start. -/
theorem entered_agrees (h : RunsAgree b) {guest : Gpu2dGuest R V}
    (hlatch : guest.captureLatch = true → b.fast.guest.captureLatch = true)
    (hline : guest.line ≠ 0) :
    RunsAgree (⟨b.fast.putGuest guest, b.reference.putGuest guest⟩ : BothRuns F R V) := by
  refine { h with guest := rfl, frame := ?_, latch := ?_ }
  · intro hsynced hkept hcaptures
    refine h.frame hsynced hkept (Or.inl ?_)
    rcases hcaptures with hnow | hzero
    · exact hlatch hnow
    · exact absurd hzero hline
  · intro hcaptures
    exact h.latch (hlatch hcaptures)

theorem vblank_agrees (h : RunsAgree b) (hline : b.fast.guest.line ≠ 0) :
    RunsAgree (⟨b.fast.vblank, b.reference.vblank⟩ : BothRuns F R V) := by
  unfold Gpu2d.vblank
  rw [← h.guest]
  split
  · exact entered_agrees h nofun hline
  · exact h

/-- The raster of VCount 215 is the same in both, and the frame that captures stays. -/
theorem vcount215_agrees (h : RunsAgree b) (raster : F) (hline : b.fast.guest.line ≠ 0)
    (hpending : b.fast.guest.captureLatch = true → b.fast.displayReadbackLatency = true →
      b.fast.readback.computeReadbackPending = false) :
    RunsAgree
      (⟨b.fast.vcount215 overlap raster, b.reference.vcount215 overlap raster⟩ :
        BothRuns F R V) := by
  obtain ⟨hlocated, hnewest, hdropped⟩ := Readback.vcount215_located (p := b.fast.readback) overlap
    b.fast.displayReadbackLatency b.fast.requires3dReadback raster
  obtain ⟨hlocated', hnewest', -⟩ := Readback.vcount215_located (p := b.reference.readback) overlap
    b.reference.displayReadbackLatency b.reference.requires3dReadback raster
  refine { h with
    newest := hnewest.trans hnewest'.symm, located := Or.inl hlocated
    referenceLocated := hlocated', referenceFrame := ?_, frame := ?_, kept := ?_ }
  · refine (Readback.vcount215_computeFrame ?_).trans h.referenceFrame
    intro hlatency
    rw [h.latencyOff] at hlatency
    cases hlatency
  · intro hsynced hkept hcaptures
    have hlatch : b.fast.guest.captureLatch = true := hcaptures.resolve_right hline
    exact (Readback.vcount215_computeFrame (hpending hlatch)).trans
      (h.frame hsynced hkept (Or.inl hlatch))
  · exact fun _ _ => hdropped

/-- A frame starts: the accumulators are taken anew, and a frame that composes what it may
capture has the raster of the last VCount 215. -/
theorem startFrame_agrees (h : RunsAgree b) (scene : DirectScene) {guest : Gpu2dGuest R V}
    (hlatch : guest.captureLatch = b.fast.guest.captureLatch) :
    RunsAgree
      (⟨((b.fast.putGuest guest).startFrame2d compositor scene).startFrame3d,
        ((b.reference.putGuest guest).startFrame2d compositor scene).startFrame3d⟩ : BothRuns F R V) := by
  have hreference : ((b.reference.putGuest guest).startFrame2d compositor scene).directFrameActive = false := by
    unfold Gpu2d.startFrame2d
    dsimp only
    rw [Gpu2d.directSceneClass_disabled (s := b.reference.putGuest guest) h.presentOff]
    split
    · rfl
    · rfl
  have hrequires : ((b.reference.putGuest guest).startFrame2d compositor scene).requires3dReadback = true := by
    unfold Gpu2d.requires3dReadback
    rw [hreference]
    have hlatency : ((b.reference.putGuest guest).startFrame2d compositor scene).displayReadbackLatency = false :=
      h.latencyOff
    rw [hlatency]
    exact Bool.or_true _
  have hfast : ((b.fast.putGuest guest).startFrame2d compositor scene).startFrame3d.SyncedStart →
      ((b.fast.putGuest guest).startFrame2d compositor scene).requires3dReadback = true := by
    rintro (hcapture | ⟨hcomposes, hlatency⟩)
    · have hactive : ((b.fast.putGuest guest).startFrame2d compositor scene).frameCaptureActive = true := hcapture
      unfold Gpu2d.requires3dReadback
      rw [hactive, Bool.or_true, Bool.true_or]
    · have hinactive : ((b.fast.putGuest guest).startFrame2d compositor scene).directFrameActive = false := hcomposes
      have hlate : ((b.fast.putGuest guest).startFrame2d compositor scene).displayReadbackLatency = false := hlatency
      unfold Gpu2d.requires3dReadback
      rw [hinactive, hlate]
      exact Bool.or_true _
  have hreferenceRead : ((b.reference.putGuest guest).startFrame2d compositor scene).startFrame3d.readback =
      b.reference.readback.startFrame b.reference.displayReadbackLatency true := by
    unfold Gpu2d.startFrame3d
    rw [hrequires]
    rfl
  have hfastRead (hsynced : ((b.fast.putGuest guest).startFrame2d compositor scene).startFrame3d.SyncedStart) :
      ((b.fast.putGuest guest).startFrame2d compositor scene).startFrame3d.readback =
        b.fast.readback.startFrame b.fast.displayReadbackLatency true := by
    unfold Gpu2d.startFrame3d
    rw [hfast hsynced]
    rfl
  have hdrains : (b.reference.readback.startFrame b.reference.displayReadbackLatency
      true).computeFrame = b.reference.readback.newest ∧
      (b.reference.readback.startFrame b.reference.displayReadbackLatency true).Located :=
    Readback.startFrame_drains h.referenceLocated
  refine ⟨rfl, h.presentOff, hreference, h.latencyOff, ?_, ?_, ?_, h.newest, ?_, ?_, ?_, ?_, ?_,
    ?_, ?_⟩
  · exact Readback.startFrame_newest.trans (h.newest.trans Readback.startFrame_newest.symm)
  · rcases h.located with hlocated | hdropped
    · exact Readback.startFrame_located hlocated
    · exact Or.inr (Readback.startFrame_dropped hdropped)
  · rw [hreferenceRead]
    exact hdrains.2
  · rw [hreferenceRead]
    exact hdrains.1
  · exact id
  · intro hcapture
    refine decide_eq_false fun hsupported => ?_
    have hclass : (b.fast.putGuest guest).directSceneClass compositor scene = .supported := by
      by_cases hforce : (b.fast.putGuest guest).directForceCpuFrames ≠ 0
      · rw [if_pos hforce] at hsupported
        cases hsupported
      · rw [if_neg hforce] at hsupported
        exact hsupported
    have hnone := Gpu2d.directSceneClass_capture hclass
    have htrue : (guest.captureEnabled || guest.captureLatch) = true := hcapture
    exact absurd (htrue.symm.trans hnone) nofun
  · intro _
    rfl
  · intro hsynced hkept _
    have hlocated : b.fast.readback.Located := by
      refine h.located.resolve_right fun hdropped => ?_
      have hnot : b.fast.readback.dropped = false := hkept
      rw [hdropped] at hnot
      cases hnot
    rw [hfastRead hsynced]
    exact (Readback.startFrame_drains hlocated).1
  · intro hsynced hkept
    rw [hfastRead hsynced]
    exact (Readback.startFrame_kept (Or.inl rfl)).trans hkept
  · intro hnow
    have hbefore : guest.captureLatch = true := hnow
    obtain ⟨hsynced, hkept⟩ := h.latch (hlatch ▸ hbefore)
    refine ⟨Or.inl ?_, h.kept hsynced hkept⟩
    change (guest.captureEnabled || guest.captureLatch) = true
    rw [hbefore, Bool.or_true]

theorem nextLine_agrees (h : RunsAgree b) (scene : DirectScene) (raster : F)
    (hpresents : b.StepPresents (.nextLine scene raster)) :
    RunsAgree
      (⟨b.fast.nextLine compositor overlap scene raster,
        b.reference.nextLine compositor overlap scene raster⟩ : BothRuns F R V) := by
  unfold Gpu2d.nextLine
  rw [← h.guest]
  dsimp only
  by_cases hzero : b.fast.guest.enterLine.line = 0
  · rw [if_pos hzero, if_pos hzero]
    exact startFrame_agrees h scene rfl
  · rw [if_neg hzero, if_neg hzero]
    have hentered : RunsAgree (⟨b.fast.putGuest b.fast.guest.enterLine,
        b.reference.putGuest b.fast.guest.enterLine⟩ : BothRuns F R V) :=
      entered_agrees h id hzero
    by_cases hvblank : b.fast.guest.enterLine.vcount = 192
    · rw [if_pos hvblank, if_pos hvblank]
      exact vblank_agrees hentered hzero
    · rw [if_neg hvblank, if_neg hvblank]
      by_cases hrender : b.fast.guest.enterLine.vcount = 215
      · rw [if_pos hrender, if_pos hrender]
        exact vcount215_agrees hentered raster hzero (hpresents hrender)
      · rw [if_neg hrender, if_neg hrender]
        exact hentered

/-- An accumulator is written with its reference point. -/
theorem writeAffine_agrees (h : RunsAgree b) {guest : Gpu2dGuest R V}
    (write : AffineInternal → AffineInternal)
    (hlatch : guest.captureLatch = b.fast.guest.captureLatch)
    (hline : guest.line = b.fast.guest.line) :
    RunsAgree
      (⟨{ b.fast with guest := guest, internal := write b.fast.internal },
        { b.reference with guest := guest, internal := write b.reference.internal }⟩ :
        BothRuns F R V) := by
  have hwritten := putGuest_agrees h hlatch hline
  refine { hwritten with internal := fun hcomposes => ?_ }
  exact congrArg write (h.internal hcomposes)

theorem next_agrees (h : RunsAgree b) (op : FrameOp F R V) (hpresents : b.StepPresents op) :
    RunsAgree (b.next compositor overlap op) := by
  cases op with
  | hblank => exact hblank_agrees h hpresents
  | nextLine scene raster => exact nextLine_agrees h scene raster hpresents
  | writeRefx n value =>
      unfold next Gpu2d.next
      dsimp only
      rw [← h.guest]
      exact writeAffine_agrees h
        (fun a => { a with refx := Function.update a.refx n value }) rfl rfl
  | writeRefy n value =>
      unfold next Gpu2d.next
      dsimp only
      rw [← h.guest]
      exact writeAffine_agrees h
        (fun a => { a with refy := Function.update a.refy n value }) rfl rfl
  | setDirectPresent enabled =>
      refine { h with active := fun hactive => h.active ?_ }
      exact (Bool.and_eq_true_iff.mp hactive).2
  | forceCpuFrames frames => exact { h with }
  | setDisplayReadbackLatency enabled => exact { h with }
  | writeDispcnt value =>
      unfold next Gpu2d.next
      dsimp only
      rw [← h.guest]
      exact putGuest_agrees h rfl rfl
  | writeCapture value mask =>
      unfold next Gpu2d.next
      dsimp only
      rw [← h.guest]
      exact putGuest_agrees h rfl rfl
  | writeOther write =>
      unfold next Gpu2d.next
      dsimp only
      rw [← h.guest]
      exact putGuest_agrees h rfl rfl
  | writeMemory write =>
      unfold next Gpu2d.next
      dsimp only
      rw [← h.guest]
      exact putGuest_agrees h rfl rfl
  | writeVcount value =>
      unfold next Gpu2d.next
      dsimp only
      rw [← h.guest]
      exact putGuest_agrees h rfl rfl

theorem presents_invariant (compositor : LineCompositor F R V) (overlap : Bool) :
    ((presentSystem compositor overlap).restrict BothRuns.StepPresents).Invariant RunsAgree where
  start := by
    rintro b ⟨other, memory, rfl⟩
    have hlocated : Readback.Located ({} : Readback F) := Or.inr ⟨rfl, Or.inr ⟨rfl, rfl⟩⟩
    exact ⟨rfl, rfl, rfl, rfl, rfl, Or.inl hlocated, hlocated, rfl, rfl, nofun, nofun, fun _ => rfl,
      fun _ _ _ => rfl, fun _ _ => rfl, nofun⟩
  step := by
    rintro b op h ⟨-, hpresents⟩
    exact next_agrees h op hpresents

end BothRuns

/-- Along every run whose steps meet the condition, the guest's registers and memory are
those of the reference, and a frame that captures has the raster of the last VCount 215
before it, as the reference has. -/
theorem direct_present_invisible {F R V : Type} (compositor : LineCompositor F R V)
    (overlap : Bool) {b : BothRuns F R V}
    (hreachable :
      ((presentSystem compositor overlap).restrict BothRuns.StepPresents).Reachable b) :
    b.fast.guest = b.reference.guest ∧
      (b.fast.guest.captureLatch = true →
        b.fast.directFrameActive = false ∧
          b.fast.readback.computeFrame = b.fast.startRaster ∧
          b.fast.readback.computeFrame = b.reference.readback.computeFrame) := by
  have h := hreachable.invariant (BothRuns.presents_invariant compositor overlap)
  refine ⟨h.guest, fun hlatch => ?_⟩
  obtain ⟨hsynced, hkept⟩ := h.latch hlatch
  have hcomposes := BothRuns.syncedStart_composes h hsynced
  have hframe := h.frame hsynced hkept (Or.inl hlatch)
  refine ⟨?_, hframe, ?_⟩
  · rw [BothRuns.inactive_of_composes h hcomposes, h.activeOff]
  · rw [hframe, h.startRaster, h.referenceFrame]

/-- A captured line becomes its raster. -/
def rasterCompositor : LineCompositor Nat Unit Nat where
  viewsPresent := fun _ => true
  affineActive := fun _ _ _ _ => false
  pb := fun _ _ => 0
  pd := fun _ _ => 0
  capture := fun _ _ _ _ raster => raster.getD 0

/-- A wide scene of the 3D layer alone on the top screen. -/
def wideScene : DirectScene := ⟨true, 384, 0, false, 0, 0, true, true⟩

def afterReset : BothRuns Nat Unit Nat :=
  ⟨{ guest := { other := (), memory := 0 } }, { guest := { other := (), memory := 0 } }⟩

/-- Direct presentation is on and the scene can be presented, from line 1 to the start of
the next frame. -/
def presentOps (capture : BitVec 32) : List (FrameOp Nat Unit Nat) :=
  [.hblank, .nextLine wideScene 7, .setDirectPresent true, .writeDispcnt 0x00010108,
    .writeCapture capture 0xFFFFFFFF] ++
    (List.replicate 262 [.hblank, .nextLine wideScene 7]).flatten

/-- The capture is requested in time. -/
def capturedRun : BothRuns Nat Unit Nat :=
  ((presentSystem rasterCompositor false).restrict BothRuns.StepPresents).runFrom afterReset
    (presentOps 0x80000000 ++ [.hblank])

theorem direct_present_invisible_captured :
    capturedRun.fast.readback.computeFrame = some 7 := by
  have hstart : ((presentSystem rasterCompositor false).restrict
      BothRuns.StepPresents).Reachable afterReset := .start ⟨(), 0, rfl⟩
  have hadmits : ((presentSystem rasterCompositor false).restrict BothRuns.StepPresents).AdmitsAll
      afterReset (presentOps 0x80000000 ++ [.hblank]) := by
    set_option maxRecDepth 20000 in decide
  have hreached : ((presentSystem rasterCompositor false).restrict
      BothRuns.StepPresents).Reachable capturedRun := hstart.runFrom hadmits
  have hseen := direct_present_invisible rasterCompositor false hreached
  have hlatch : capturedRun.fast.guest.captureLatch = true := by
    set_option maxRecDepth 20000 in decide
  have hstarted : capturedRun.fast.startRaster = some 7 := by
    set_option maxRecDepth 20000 in decide
  exact (hseen.2 hlatch).2.1.trans hstarted

/-- The enable bit is set after the frame was started for direct presentation and before
line 0 latches: the capture ends without a line written, where the reference writes its
raster. -/
theorem late_capture_writes_nothing :
    ¬ ∀ b, (presentSystem rasterCompositor false).Reachable b →
      b.fast.guest = b.reference.guest := by
  intro hclaim
  have hstart : (presentSystem rasterCompositor false).Reachable afterReset :=
    .start ⟨(), 0, rfl⟩
  have hadmits : (presentSystem rasterCompositor false).AdmitsAll afterReset
      (presentOps 0 ++ [.writeCapture 0x80000000 0xFFFFFFFF, .hblank]) := by
    set_option maxRecDepth 20000 in decide
  have hmemory := congrArg Gpu2dGuest.memory (hclaim _ (hstart.runFrom hadmits))
  revert hmemory
  set_option maxRecDepth 20000 in decide

end NdsRecomp.Video
