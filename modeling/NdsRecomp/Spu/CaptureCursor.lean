import NdsRecomp.Library.FedBuffer
import NdsRecomp.Spu.SaveState

/-!
A capture unit over one mixer step. As long as its stores stay clear of the
sound registers the step concerns the unit alone, and can be read as a function
of it.
-/

namespace NdsRecomp.Spu

open Library

namespace Capture

/-- The loader's bounds on the FIFO of a unit and on its place in memory. -/
structure Ring (c : Capture) : Prop where
  length : c.length ≤ 0x3FFFC
  lengthAligned : c.length % 4 = 0
  read : c.fifoRead < 16
  readAligned : c.fifoRead % 4 = 0
  write : c.fifoWrite < 16
  level : c.fifoLevel ≤ 16
  balance : c.fifoWrite = (c.fifoRead + c.fifoLevel) % 16
  offset : c.writeOffset < c.length ∨ c.writeOffset = 0
  offsetAligned : c.writeOffset % 4 = 0
  inBounds : c.inBounds = true

/-- A unit the loader accepts, with its FIFO never left. -/
structure Savable (c : Capture) : Prop where
  ring : c.Ring
  room : c.fifoLevel < 16
  cnt : c.cnt &&& ~~~0x8F = 0
  stopped : c.cnt &&& 0x80 = 0 → c.cnt &&& 1 = 0
  dst : c.dst &&& ~~~0x07FFFFFC = 0
  timer : c.timer ≤ 0xFFFF
  low : 0 ≤ c.pos
  high : c.pos ≤ 0x3FFFD
  inside : c.running = true → c.pos < 0x3FFFC
  even : c.running = true → c.bytes = false → c.fifoWrite % 2 = 0

theorem and_eighty_eight (cnt : UInt8) (h : cnt &&& 0x88 = 0x80) :
    cnt &&& 0x80 ≠ 0 ∧ cnt &&& 8 = 0 := by
  have hon : cnt &&& 0x80 = (cnt &&& 0x88) &&& 0x80 := by
    rw [UInt8.and_assoc]
    rfl
  have hwords : cnt &&& 8 = (cnt &&& 0x88) &&& 8 := by
    rw [UInt8.and_assoc]
    rfl
  rw [hon, hwords, h]
  decide

theorem Savable.validate {c : Capture} (h : c.Savable) : c.exported.validate = .ok () := by
  have hring := h.ring
  have hread := hring.read
  have hwrite := hring.write
  have hlevel := hring.level
  have hbalance := hring.balance
  have hstate : ¬ c.exported.InvalidState := by
    rintro (hbad | ⟨hoff, hbad⟩ | hbad | hbad | hbad | hbad | hbad | hbad | hbad | hbad | hbad |
      hbad | hbad)
    · exact hbad h.cnt
    · exact hbad (h.stopped hoff)
    · exact hbad h.dst
    · exact absurd hring.length (Nat.not_le.mpr hbad)
    · exact hbad hring.lengthAligned
    · exact absurd h.timer (Nat.not_le.mpr hbad)
    · exact absurd h.low (Int.not_le.mpr hbad)
    · exact absurd hread (Nat.not_lt.mpr hbad)
    · exact absurd hwrite (Nat.not_lt.mpr hbad)
    · exact absurd hlevel (Nat.not_le.mpr hbad)
    · change (c.fifoWrite + 16 - c.fifoRead) % 16 ≠ c.fifoLevel % 16 at hbad
      omega
    · exact hbad hring.offsetAligned
    · change if c.length = 0 then c.writeOffset ≠ 0 else c.writeOffset ≥ c.length at hbad
      have hoffset := hring.offset
      split at hbad
      · omega
      · omega
  have hcursor : ¬ c.exported.InvalidCursor := by
    rintro (hbad | ⟨hwide, hbad⟩)
    · exact hbad hring.readAligned
    · obtain ⟨hon, hwords⟩ := and_eighty_eight c.cnt hwide
      refine hbad (h.even ?_ ?_)
      · exact bne_iff_ne.mpr hon
      · exact bne_eq_false_iff_eq.mpr hwords
  unfold NdsSpuCaptureSaveState.validate
  rw [if_neg hstate, if_neg hcursor]

/-! ### The unit alone -/

/-- The target window `[dst, dst + length)` of a unit holds no sound register. -/
def Apart (c : Capture) : Prop :=
  ∀ offset < max c.length 1,
    ¬ (c.dst + UInt32.ofNat offset ≥ 0x04000400 ∧ c.dst + UInt32.ofNat offset < 0x04000520)

/-- `flush` on a unit whose stores reach no sound register. -/
def drain : Nat → Capture → Capture
  | 0, c => c
  | words + 1, c =>
      if c.fifoLevel ≥ 4 then
        if c.passWord.writeOffset ≥ c.passWord.length then { c.passWord with writeOffset := 0 }
        else drain words c.passWord
      else c

/-- `write_value` on such a unit. -/
def store (size : Nat) (value : Int) (c : Capture) : Capture :=
  if (c.putSample size value).fifoLevel ≥ 16 then drain 4 (c.putSample size value)
  else c.putSample size value

/-- The FIFO at the end of the target window. -/
def finish (c : Capture) : Capture := if c.fifoLevel ≥ 4 then drain 4 c else c

def halt (c : Capture) : Capture := { c with cnt := c.cnt &&& 0x7F }

/-- One sample, up to the test for the end of the window. -/
def sampled (size : Nat) (value : Int) (c : Capture) : Capture :=
  (store size value c.lowerTimer).forward size

/-- The timer loop on a unit whose stores reach no sound register. -/
def samples (size : Nat) (value : Int) : Nat → Capture → Capture
  | 0, c => c
  | rounds + 1, c =>
      if c.timer / 65536 ≠ 0 then
        let c := c.sampled size value
        if c.pos % 2 ^ 32 ≥ c.length then
          if c.finish.oneShot then c.finish.halt
          else samples size value rounds (c.finish.setPos 0)
        else samples size value rounds c
      else c

/-- The target of a unit, and its settings. -/
def target (c : Capture) : UInt32 × Nat × UInt8 × UInt16 := (c.dst, c.length, c.cnt, c.reload)

theorem setFifo_target (c : Capture) (fifo : Nat → UInt8) (read write level offset : Nat)
    (inBounds : Bool) : (c.setFifo fifo read write level offset inBounds).target = c.target := rfl

theorem setTimer_target (c : Capture) (timer : Nat) : (c.setTimer timer).target = c.target := rfl

theorem setPos_target (c : Capture) (pos : Int) : (c.setPos pos).target = c.target := rfl

theorem passWord_target (c : Capture) : c.passWord.target = c.target := by
  unfold passWord
  exact setFifo_target ..

theorem putSample_target (c : Capture) (size : Nat) (value : Int) :
    (c.putSample size value).target = c.target := by
  unfold putSample
  exact setFifo_target ..

theorem drain_target (words : Nat) (c : Capture) : (drain words c).target = c.target := by
  induction words generalizing c with
  | zero => rfl
  | succ words ih =>
      unfold drain
      split
      · split
        · exact passWord_target c
        · exact (ih _).trans (passWord_target c)
      · rfl

theorem store_target (size : Nat) (value : Int) (c : Capture) :
    (store size value c).target = c.target := by
  unfold store
  split
  · exact (drain_target 4 _).trans (putSample_target c size value)
  · exact putSample_target c size value

theorem sampled_target (size : Nat) (value : Int) (c : Capture) :
    (c.sampled size value).target = c.target := by
  unfold sampled forward
  rw [setPos_target, store_target]
  unfold lowerTimer
  exact setTimer_target c _

theorem finish_target (c : Capture) : c.finish.target = c.target := by
  unfold finish
  split
  · exact drain_target 4 c
  · rfl

/-! ### Bounds -/

theorem passWord_ring {c : Capture} (h : c.Ring) (hword : 4 ≤ c.fifoLevel) :
    c.passWord.fifoLevel = c.fifoLevel - 4 ∧ c.passWord.writeOffset = c.writeOffset + 4 ∧
      c.passWord.fifoWrite = c.fifoWrite ∧
      (c.passWord.writeOffset < c.length → c.passWord.Ring) ∧
      ({ c.passWord with writeOffset := 0 } : Capture).Ring := by
  have hread := h.read
  have hreadAligned := h.readAligned
  have hlevel := h.level
  have hbalance := h.balance
  have hoffset := h.offset
  have hoffsetAligned := h.offsetAligned
  have hlength := h.length
  have hlevel' : (c.fifoLevel + 2 ^ 32 - 4) % 2 ^ 32 = c.fifoLevel - 4 := by omega
  have hoffset' : (c.writeOffset + 4) % 2 ^ 32 = c.writeOffset + 4 := by omega
  have hin : (c.inBounds && decide (c.fifoRead + 4 ≤ 16)) = true := by
    rw [h.inBounds, decide_eq_true (by omega)]
    rfl
  have heq : c.passWord = c.setFifo c.fifo ((c.fifoRead + 4) % 16) c.fifoWrite (c.fifoLevel - 4)
      (c.writeOffset + 4) true := by
    unfold passWord
    rw [hlevel', hoffset', hin]
  have hcursor : ((c.fifoRead + 4) % 16) < 16 ∧ ((c.fifoRead + 4) % 16) % 4 = 0 ∧
      c.fifoLevel - 4 ≤ 16 ∧
      c.fifoWrite = ((c.fifoRead + 4) % 16 + (c.fifoLevel - 4)) % 16 := by omega
  rw [heq]
  refine ⟨rfl, rfl, rfl, fun hinside => ?_, ?_⟩
  · exact ⟨h.length, h.lengthAligned, hcursor.1, hcursor.2.1, h.write, hcursor.2.2.1,
      hcursor.2.2.2, Or.inl hinside, by change (c.writeOffset + 4) % 4 = 0; omega, rfl⟩
  · exact ⟨h.length, h.lengthAligned, hcursor.1, hcursor.2.1, h.write, hcursor.2.2.1,
      hcursor.2.2.2, Or.inr rfl, rfl, rfl⟩

/-- Draining keeps the bounds, and a full word leaves. -/
theorem drain_ring (words : Nat) {c : Capture} (h : c.Ring) :
    (drain words c).Ring ∧ (drain words c).fifoWrite = c.fifoWrite ∧
      (drain words c).fifoLevel ≤ c.fifoLevel ∧
      (words ≠ 0 → 4 ≤ c.fifoLevel → (drain words c).fifoLevel + 4 ≤ c.fifoLevel) := by
  induction words generalizing c with
  | zero => exact ⟨h, rfl, le_rfl, fun hne => absurd rfl hne⟩
  | succ words ih =>
      unfold drain
      split
      · next hword =>
          obtain ⟨hlevel, hoffset, hwrite, hinside, hwrapped⟩ := passWord_ring h hword
          split
          · have hlevel' : ({ c.passWord with writeOffset := 0 } : Capture).fifoLevel =
                c.fifoLevel - 4 := hlevel
            exact ⟨hwrapped, hwrite, by omega, fun _ _ => by omega⟩
          · next hmore =>
              obtain ⟨hring, hkept, hless, -⟩ := ih (hinside (Nat.lt_of_not_le hmore))
              exact ⟨hring, hkept.trans hwrite, by omega, fun _ _ => by omega⟩
      · next hword => exact ⟨h, rfl, le_rfl, fun _ henough => absurd henough hword⟩

/-- A FIFO that takes the next sample. -/
structure Ready (size : Nat) (c : Capture) : Prop where
  ring : c.Ring
  room : c.fifoLevel < 16
  width : size = 1 ∨ size = 2
  even : size = 2 → c.fifoWrite % 2 = 0

/-- A sample finds its place in the FIFO. -/
theorem Ready.put {size : Nat} {c : Capture} (h : Ready size c) (value : Int) :
    (c.putSample size value).Ring ∧
      (c.putSample size value).fifoWrite = (c.fifoWrite + size) % 16 ∧
      (c.putSample size value).fifoLevel = c.fifoLevel + size := by
  have hwrite := h.ring.write
  have hreadAligned := h.ring.readAligned
  have hbalance := h.ring.balance
  have hroom := h.room
  have hsize := h.width
  have heven := h.even
  have hlevel' : (c.fifoLevel + size) % 2 ^ 32 = c.fifoLevel + size := by omega
  have hin : (c.inBounds && decide (c.fifoWrite + size ≤ 16)) = true := by
    rw [h.ring.inBounds, decide_eq_true (by omega)]
    rfl
  obtain ⟨fifo, heq⟩ : ∃ fifo, c.putSample size value =
      c.setFifo fifo c.fifoRead ((c.fifoWrite + size) % 16) (c.fifoLevel + size) c.writeOffset
        true := by
    unfold putSample
    rw [hlevel', hin]
    exact ⟨_, rfl⟩
  rw [heq]
  refine ⟨⟨h.ring.length, h.ring.lengthAligned, h.ring.read, hreadAligned,
    Nat.mod_lt _ (by decide), ?_, ?_, h.ring.offset, h.ring.offsetAligned, rfl⟩, rfl, rfl⟩
  · change c.fifoLevel + size ≤ 16
    omega
  · change (c.fifoWrite + size) % 16 = (c.fifoRead + (c.fifoLevel + size)) % 16
    omega

theorem Ready.store {size : Nat} {c : Capture} (h : Ready size c) (value : Int) :
    Ready size (store size value c) := by
  have hroom := h.room
  have hsize := h.width
  obtain ⟨hring, hput, hlevel⟩ := h.put value
  unfold Capture.store
  split
  · next hfull =>
      obtain ⟨hdrained, hsame, -, hless⟩ := drain_ring 4 hring
      have hleft := hless (by decide) (by omega)
      refine ⟨hdrained, by omega, hsize, fun hwide => ?_⟩
      have hparity := h.even hwide
      rw [hsame, hput]
      omega
  · next hfull =>
      refine ⟨hring, by omega, hsize, fun hwide => ?_⟩
      have hparity := h.even hwide
      rw [hput]
      omega

theorem Ready.finish {size : Nat} {c : Capture} (h : Ready size c) : Ready size c.finish := by
  unfold Capture.finish
  split
  · obtain ⟨hdrained, hsame, hless, -⟩ := drain_ring 4 h.ring
    exact ⟨hdrained, lt_of_le_of_lt hless h.room, h.width, fun hwide => hsame ▸ h.even hwide⟩
  · exact h

/-- Position and timer, which the FIFO does not touch. -/
def clock (c : Capture) : Int × Nat := (c.pos, c.timer)

theorem setFifo_clock (c : Capture) (fifo : Nat → UInt8) (read write level offset : Nat)
    (inBounds : Bool) : (c.setFifo fifo read write level offset inBounds).clock = c.clock := rfl

theorem setTimer_clock (c : Capture) (timer : Nat) :
    (c.setTimer timer).clock = (c.pos, timer) := rfl

theorem Ready.setTimer {size : Nat} {c : Capture} (h : Ready size c) (timer : Nat) :
    Ready size (c.setTimer timer) :=
  ⟨{ h.ring with }, h.room, h.width, h.even⟩

theorem Ready.setPos {size : Nat} {c : Capture} (h : Ready size c) (pos : Int) :
    Ready size (c.setPos pos) :=
  ⟨{ h.ring with }, h.room, h.width, h.even⟩

theorem Ready.halt {size : Nat} {c : Capture} (h : Ready size c) : Ready size c.halt :=
  ⟨{ h.ring with }, h.room, h.width, h.even⟩

theorem passWord_clock (c : Capture) : c.passWord.clock = c.clock := by
  unfold passWord
  exact setFifo_clock ..

theorem drain_clock (words : Nat) (c : Capture) : (drain words c).clock = c.clock := by
  induction words generalizing c with
  | zero => rfl
  | succ words ih =>
      unfold drain
      split
      · split
        · exact passWord_clock c
        · exact (ih _).trans (passWord_clock c)
      · rfl

theorem store_clock (size : Nat) (value : Int) (c : Capture) :
    (store size value c).clock = c.clock := by
  have hput : (c.putSample size value).clock = c.clock := by
    unfold putSample
    exact setFifo_clock ..
  unfold store
  split
  · exact (drain_clock 4 _).trans hput
  · exact hput

theorem finish_clock (c : Capture) : c.finish.clock = c.clock := by
  unfold finish
  split
  · exact drain_clock 4 c
  · rfl

/-! ### The timer loop -/

/-- The samples until the position passes the end of the target window. -/
def samplesLeft (size : Nat) (c : Capture) : Nat :=
  max 1 ((c.length - c.pos.toNat + (size - 1)) / size)

/-- A single capture that ends within the next `n` samples ends with the last
of them, and with control bit 0 clear. -/
def EndsCleanly (size n : Nat) (c : Capture) : Prop :=
  c.oneShot = true → samplesLeft size c ≤ n → samplesLeft size c = n ∧ c.cnt &&& 1 = 0

/-- A running unit with `n` samples to come. -/
structure Capturing (size n : Nat) (c : Capture) : Prop where
  ready : Ready size c
  low : 0 ≤ c.pos
  high : c.pos < 0x3FFFC
  ends : EndsCleanly size n c

theorem sampled_clock {size : Nat} {c : Capture} (value : Int) (hsize : size = 1 ∨ size = 2)
    (hlow : 0 ≤ c.pos) (hhigh : c.pos < 0x3FFFC) :
    (c.sampled size value).pos = c.pos + size ∧
      (c.sampled size value).timer = c.reload.toNat + (c.timer - 65536) := by
  have hstored := store_clock size value c.lowerTimer
  unfold lowerTimer at hstored
  rw [setTimer_clock] at hstored
  obtain ⟨hpos, htimer⟩ := Prod.mk.inj hstored
  have hnarrow : (c.pos + size).bmod (2 ^ 32) = c.pos + size := by
    apply Int.bmod_eq_of_le
    · norm_num
      omega
    · norm_num
      omega
  unfold sampled forward lowerTimer
  rw [hpos, hnarrow]
  exact ⟨rfl, htimer⟩

/-- What a run of the timer loop leaves: a unit still capturing, or one that
has come to the end of its single capture. -/
structure Captured (size : Nat) (c c' : Capture) : Prop where
  ready : Ready size c'
  low : 0 ≤ c'.pos
  high : c'.pos ≤ 0x3FFFD
  timer : c'.timer ≤ 0xFFFF
  dst : c'.dst = c.dst
  cnt : (c'.cnt = c.cnt ∧ c'.pos < 0x3FFFC) ∨ (c'.cnt = c.cnt &&& 0x7F ∧ c.cnt &&& 1 = 0)

theorem target_fields {c c' : Capture} (h : c'.target = c.target) :
    c'.dst = c.dst ∧ c'.length = c.length ∧ c'.cnt = c.cnt ∧ c'.reload = c.reload := by
  obtain ⟨hdst, hrest⟩ := Prod.mk.inj h
  obtain ⟨hlength, hrest⟩ := Prod.mk.inj hrest
  obtain ⟨hcnt, hreload⟩ := Prod.mk.inj hrest
  exact ⟨hdst, hlength, hcnt, hreload⟩

theorem Capturing.samples {size : Nat} (value : Int) (rounds : Nat) {c : Capture}
    (hrounds : c.timer ≤ 0xFFFF + rounds)
    (h : Capturing size (overflows 65536 c.reload.toNat c.timer) c) :
    Captured size c (samples size value rounds c) := by
  induction rounds generalizing c with
  | zero =>
      have hhigh := h.high
      refine ⟨h.ready, h.low, ?_, hrounds, rfl, Or.inl ⟨rfl, hhigh⟩⟩
      change c.pos ≤ 0x3FFFD
      omega
  | succ rounds ih =>
      have hreload : c.reload.toNat < 65536 := c.reload.toNat_lt
      have hlow := h.low
      have hhigh := h.high
      have hsize := h.ready.width
      have hlength := h.ready.ring.length
      have hends := h.ends
      have zero_inside : (0 : Int) < 0x3FFFC := by decide
      unfold Capture.samples
      split
      · next hover =>
          have hge : 65536 ≤ c.timer := by omega
          rw [overflows_step hreload hge] at hends
          have hready : Ready size (c.sampled size value) :=
            ((h.ready.setTimer _).store value).setPos _
          obtain ⟨hpos, htimer⟩ := sampled_clock value hsize hlow hhigh
          obtain ⟨hdst, hlen, hcnt, hrel⟩ := target_fields (sampled_target size value c)
          have hwide : (c.sampled size value).pos % 2 ^ 32 = c.pos + size := by
            rw [hpos]
            omega
          dsimp only
          rw [hwide, hlen]
          generalize c.sampled size value = next at *
          split
          · next hend =>
              have hfinished := hready.finish
              obtain ⟨hdst', hlen', hcnt', hrel'⟩ := target_fields (finish_target next)
              have hpos' : next.finish.pos = next.pos := congrArg Prod.fst (finish_clock next)
              have htimer' : next.finish.timer = next.timer :=
                congrArg Prod.snd (finish_clock next)
              have hshot : next.finish.oneShot = c.oneShot := by
                unfold oneShot
                rw [hcnt', hcnt]
              rw [hshot]
              generalize next.finish = done at *
              split
              · next honce =>
                  have hone : samplesLeft size c = 1 := by
                    unfold samplesLeft
                    rcases hsize with rfl | rfl
                    · omega
                    · omega
                  obtain ⟨hlast, hbit⟩ := hends honce (by omega)
                  have hnone : overflows 65536 c.reload.toNat
                      (c.reload.toNat + (c.timer - 65536)) = 0 := by omega
                  have hbelow := lt_of_overflows_eq_zero hnone
                  refine ⟨hfinished.halt, ?_, ?_, ?_, hdst'.trans hdst, Or.inr ⟨?_, hbit⟩⟩
                  · change 0 ≤ done.pos
                    omega
                  · change done.pos ≤ 0x3FFFD
                    omega
                  · change done.timer ≤ 0xFFFF
                    omega
                  · change done.cnt &&& 0x7F = c.cnt &&& 0x7F
                    rw [hcnt', hcnt]
              · next honce =>
                  have hagain : Capturing size (overflows 65536 (done.setPos 0).reload.toNat
                      (done.setPos 0).timer) (done.setPos 0) := by
                    refine ⟨hfinished.setPos 0, le_rfl, zero_inside, fun hshot' => ?_⟩
                    change done.oneShot = true at hshot'
                    rw [hshot] at hshot'
                    exact absurd hshot' honce
                  obtain ⟨hr, hl, hh, ht, hd, hc⟩ := ih (by
                    change done.timer ≤ 0xFFFF + rounds
                    omega) hagain
                  refine ⟨hr, hl, hh, ht, hd.trans (hdst'.trans hdst), ?_⟩
                  change (_ = done.cnt ∧ _) ∨ (_ = done.cnt &&& 0x7F ∧ done.cnt &&& 1 = 0) at hc
                  rw [hcnt', hcnt] at hc
                  exact hc
          · next hend =>
              have hleft : samplesLeft size next + 1 = samplesLeft size c := by
                unfold samplesLeft
                rw [hlen, hpos]
                rcases hsize with rfl | rfl
                · omega
                · omega
              have hagain : Capturing size (overflows 65536 next.reload.toNat next.timer) next := by
                refine ⟨hready, by omega, by omega, fun hshot' hle => ?_⟩
                have hshot : next.oneShot = c.oneShot := by
                  unfold oneShot
                  rw [hcnt]
                rw [hrel, htimer] at hle ⊢
                obtain ⟨hlast, hbit⟩ := hends (hshot ▸ hshot') (by omega)
                exact ⟨by omega, hcnt ▸ hbit⟩
              obtain ⟨hr, hl, hh, ht, hd, hc⟩ := ih (by omega) hagain
              exact ⟨hr, hl, hh, ht, hd.trans hdst, hcnt ▸ hc⟩
      · next hover =>
          exact ⟨h.ready, hlow, by omega, by omega, rfl, Or.inl ⟨rfl, hhigh⟩⟩

end Capture

end NdsRecomp.Spu

/-!
The capture units inside the mixer. Their loop runs on the whole unit state,
because a store may come back as a write to the sound registers; clear of those
it is the loop on the unit alone.
-/

namespace NdsRecomp.Spu

open Library

namespace Capture

/-! ### A capture unit in a mixer step -/

/-- The bytes of one sample of a capture unit. -/
def width (c : Capture) : Nat := if c.bytes then 1 else 2

/-- A running unit stays clear of the sound registers, and a single capture
that comes to its end does so with the last sample of the step and with control
bit 0 clear. -/
def Proper (c : Capture) : Prop :=
  c.running = true → c.Apart ∧
    EndsCleanly c.width (overflows 65536 c.reload.toNat (c.timer + 512)) c

def runAlone (sample : Int) (c : Capture) : Capture :=
  if c.bytes then samples 1 (sample / 256) (c.timer + 512) (c.setTimer (c.timer + 512))
  else samples 2 sample (c.timer + 512) (c.setTimer (c.timer + 512))

theorem Savable.of_captured {c c' : Capture} (h : c.Savable) (hon : c.running = true)
    (hcaptured : Captured c.width c c') : c'.Savable := by
  have hmask := h.cnt
  refine ⟨hcaptured.ready.ring, hcaptured.ready.room, ?_, ?_, ?_, hcaptured.timer, hcaptured.low,
    hcaptured.high, ?_, ?_⟩
  · rcases hcaptured.cnt with ⟨hcnt, -⟩ | ⟨hcnt, -⟩
    · rw [hcnt, hmask]
    · rw [hcnt, UInt8.and_assoc, UInt8.and_comm 0x7F, ← UInt8.and_assoc, hmask, UInt8.zero_and]
  · intro hoff
    rcases hcaptured.cnt with ⟨hcnt, -⟩ | ⟨hcnt, hbit⟩
    · rw [hcnt] at hoff
      exact absurd hoff (bne_iff_ne.mp hon)
    · rw [hcnt, UInt8.and_assoc, UInt8.and_comm 0x7F, ← UInt8.and_assoc, hbit, UInt8.zero_and]
  · rw [hcaptured.dst]
    exact h.dst
  · intro hon'
    rcases hcaptured.cnt with ⟨-, hinside⟩ | ⟨hcnt, -⟩
    · exact hinside
    · have hoff : c'.cnt &&& 0x80 = 0 := by
        rw [hcnt, UInt8.and_assoc]
        exact UInt8.and_zero
      exact absurd hoff (bne_iff_ne.mp hon')
  · intro hon' hwords
    rcases hcaptured.cnt with ⟨hcnt, -⟩ | ⟨hcnt, -⟩
    · have hsame : c.bytes = false := by
        unfold bytes at hwords ⊢
        rw [← hcnt]
        exact hwords
      refine hcaptured.ready.even ?_
      unfold width
      rw [hsame]
      rfl
    · have hoff : c'.cnt &&& 0x80 = 0 := by
        rw [hcnt, UInt8.and_assoc]
        exact UInt8.and_zero
      exact absurd hoff (bne_iff_ne.mp hon')

theorem Savable.ready {c : Capture} (h : c.Savable) (hon : c.running = true) :
    Ready c.width c := by
  refine ⟨h.ring, h.room, ?_, fun hwide => h.even hon ?_⟩
  · unfold width
    split
    · exact Or.inl rfl
    · exact Or.inr rfl
  · unfold width at hwide
    split at hwide
    · cases hwide
    · next hbytes => simpa using hbytes

theorem Savable.runAlone {c : Capture} (h : c.Savable) (hon : c.running = true)
    (hends : EndsCleanly c.width (overflows 65536 c.reload.toNat (c.timer + 512)) c)
    (sample : Int) : (runAlone sample c).Savable := by
  have hready := h.ready hon
  have hcapturing (timer : Nat) (htimer : timer = c.timer + 512) :
      Capturing c.width (overflows 65536 (c.setTimer timer).reload.toNat (c.setTimer timer).timer)
        (c.setTimer timer) := by
    subst htimer
    exact ⟨hready.setTimer _, h.low, h.inside hon, hends⟩
  have hrun (value : Int) :
      Captured c.width c (samples c.width value (c.timer + 512) (c.setTimer (c.timer + 512))) := by
    obtain ⟨timer, htimer⟩ : ∃ timer, timer = c.timer + 512 := ⟨_, rfl⟩
    rw [← htimer]
    obtain ⟨hr, hl, hh, ht, hd, hc⟩ := (hcapturing timer htimer).samples value timer (by
      change timer ≤ 0xFFFF + timer
      omega)
    exact ⟨hr, hl, hh, ht, hd, hc⟩
  refine h.of_captured hon ?_
  unfold Capture.runAlone
  unfold width at hrun ⊢
  split
  · next hbytes =>
      rw [if_pos hbytes] at hrun
      exact hrun _
  · next hbytes =>
      rw [if_neg hbytes] at hrun
      exact hrun _

end Capture

namespace SpuState

theorem updateCapture_capture (s : SpuState) (i : Fin 2) (f : Capture → Capture) :
    (s.updateCapture i f).capture i = f (s.capture i) := Function.update_self ..

theorem updateCapture_comp (s : SpuState) (i : Fin 2) (f g : Capture → Capture) :
    (s.updateCapture i f).updateCapture i g = s.updateCapture i fun c => g (f c) := by
  unfold updateCapture
  simp

theorem updateCapture_congr {s : SpuState} {i : Fin 2} {f g : Capture → Capture}
    (h : f (s.capture i) = g (s.capture i)) : s.updateCapture i f = s.updateCapture i g := by
  unfold updateCapture
  rw [h]

theorem updateCapture_id (s : SpuState) (i : Fin 2) (f : Capture → Capture)
    (h : f (s.capture i) = s.capture i) : s.updateCapture i f = s := by
  unfold updateCapture
  rw [h, Function.update_eq_self]

theorem apart_congr {c c' : Capture} (h : c'.target = c.target) (hapart : c.Apart) :
    c'.Apart := by
  obtain ⟨hdst, hlength, -⟩ := Capture.target_fields h
  unfold Capture.Apart
  rw [hdst, hlength]
  exact hapart

/-- Clear of the sound registers, draining a FIFO is an affair of the unit. -/
theorem flushWords_eq (i : Fin 2) (words : Nat) (s : SpuState) (h : (s.capture i).Ring)
    (hapart : (s.capture i).Apart) :
    flushWords i words s = s.updateCapture i (Capture.drain words) := by
  induction words generalizing s with
  | zero => exact (updateCapture_id s i _ rfl).symm
  | succ words ih =>
      have hword : s.flushWord i = s.updateCapture i (·.passWord) := by
        have hoffset := h.offset
        have hclear := hapart (s.capture i).writeOffset (by omega)
        unfold flushWord busDeviceWrite32
        dsimp only
        rw [if_neg hclear]
      unfold flushWords
      split
      · next henough =>
          rw [hword]
          dsimp only
          rw [updateCapture_capture]
          have hdrain : Capture.drain (words + 1) (s.capture i) =
              if (s.capture i).passWord.writeOffset ≥ (s.capture i).passWord.length then
                { (s.capture i).passWord with writeOffset := 0 }
              else Capture.drain words (s.capture i).passWord := if_pos henough
          obtain ⟨-, -, -, hinside, -⟩ := Capture.passWord_ring h henough
          split
          · next hwrap =>
              rw [if_pos hwrap] at hdrain
              rw [updateCapture_comp]
              exact updateCapture_congr hdrain.symm
          · next hmore =>
              rw [if_neg hmore] at hdrain
              have htarget := Capture.passWord_target (s.capture i)
              obtain ⟨-, hlength, -⟩ := Capture.target_fields htarget
              rw [ih, updateCapture_comp]
              · exact updateCapture_congr hdrain.symm
              · rw [updateCapture_capture]
                exact hinside (hlength ▸ Nat.lt_of_not_le hmore)
              · rw [updateCapture_capture]
                exact apart_congr htarget hapart
      · next hempty =>
          exact (updateCapture_id s i _ (if_neg hempty)).symm

theorem writeValue_eq (s : SpuState) (i : Fin 2) {size : Nat} (value : Int)
    (h : Capture.Ready size (s.capture i)) (hapart : (s.capture i).Apart) :
    s.writeValue i size value = s.updateCapture i (Capture.store size value) := by
  unfold writeValue flush
  dsimp only
  rw [updateCapture_capture]
  split
  · next hfull =>
      obtain ⟨hput, -⟩ := h.put value
      have hstore : Capture.store size value (s.capture i) =
          Capture.drain 4 ((s.capture i).putSample size value) := if_pos hfull
      rw [flushWords_eq, updateCapture_comp]
      · exact updateCapture_congr hstore.symm
      · rw [updateCapture_capture]
        exact hput
      · rw [updateCapture_capture]
        exact apart_congr (Capture.putSample_target _ size value) hapart
  · next hroom =>
      have hstore : Capture.store size value (s.capture i) =
          (s.capture i).putSample size value := if_neg hroom
      exact updateCapture_congr hstore.symm

/-- Clear of the sound registers, the timer loop of a unit changes that unit
alone. -/
theorem captureSamples_eq (i : Fin 2) {size : Nat} (value : Int) (rounds : Nat) (s : SpuState)
    (h : Capture.Ready size (s.capture i)) (hapart : (s.capture i).Apart) :
    captureSamples i size value rounds s = s.updateCapture i (Capture.samples size value rounds) := by
  induction rounds generalizing s with
  | zero => exact (updateCapture_id s i _ rfl).symm
  | succ rounds ih =>
      unfold captureSamples
      split
      · next hover =>
          have hlowered := h.setTimer ((s.capture i).reload.toNat + ((s.capture i).timer - 65536))
          have hready : Capture.Ready size ((s.capture i).sampled size value) :=
            (hlowered.store value).setPos _
          have htarget := Capture.sampled_target size value (s.capture i)
          have hsampled : ((s.updateCapture i (·.lowerTimer)).writeValue i size value).updateCapture i
              (·.forward size) = s.updateCapture i (Capture.sampled size value) := by
            rw [writeValue_eq, updateCapture_comp, updateCapture_comp]
            · rfl
            · rw [updateCapture_capture]
              exact hlowered
            · rw [updateCapture_capture]
              exact apart_congr (Capture.setTimer_target _ _) hapart
          have hsamples : Capture.samples size value (rounds + 1) (s.capture i) =
              if ((s.capture i).sampled size value).pos % 2 ^ 32 ≥
                  ((s.capture i).sampled size value).length then
                if ((s.capture i).sampled size value).finish.oneShot then
                  ((s.capture i).sampled size value).finish.halt
                else Capture.samples size value rounds
                  (((s.capture i).sampled size value).finish.setPos 0)
              else Capture.samples size value rounds ((s.capture i).sampled size value) :=
            if_pos hover
          have hapart' : ((s.capture i).sampled size value).Apart := apart_congr htarget hapart
          dsimp only
          rw [hsampled, updateCapture_capture]
          split
          · next hend =>
              rw [if_pos hend] at hsamples
              have hflushed : (if ((s.capture i).sampled size value).fifoLevel ≥ 4 then
                  (s.updateCapture i (Capture.sampled size value)).flush i
                  else s.updateCapture i (Capture.sampled size value)) =
                    s.updateCapture i fun c => (c.sampled size value).finish := by
                split
                · next hword =>
                    have hfinish : ((s.capture i).sampled size value).finish =
                        Capture.drain 4 ((s.capture i).sampled size value) := if_pos hword
                    unfold flush
                    rw [flushWords_eq, updateCapture_comp]
                    · exact updateCapture_congr hfinish.symm
                    · rw [updateCapture_capture]
                      exact hready.ring
                    · rw [updateCapture_capture]
                      exact hapart'
                · next hword =>
                    have hfinish : ((s.capture i).sampled size value).finish =
                        (s.capture i).sampled size value := if_neg hword
                    exact updateCapture_congr hfinish.symm
              rw [hflushed, updateCapture_capture]
              split
              · next honce =>
                  rw [if_pos honce] at hsamples
                  rw [updateCapture_comp]
                  exact updateCapture_congr hsamples.symm
              · next honce =>
                  rw [if_neg honce] at hsamples
                  rw [updateCapture_comp, ih, updateCapture_comp]
                  · exact updateCapture_congr hsamples.symm
                  · rw [updateCapture_capture]
                    exact hready.finish.setPos 0
                  · rw [updateCapture_capture]
                    refine apart_congr ?_ hapart'
                    exact (Capture.setPos_target _ 0).trans (Capture.finish_target _)
          · next hend =>
              rw [if_neg hend] at hsamples
              rw [ih, updateCapture_comp]
              · exact updateCapture_congr hsamples.symm
              · rw [updateCapture_capture]
                exact hready
              · rw [updateCapture_capture]
                exact hapart'
      · next hover =>
          exact (updateCapture_id s i _ (if_neg hover)).symm

/-- A capture unit that is running properly changes alone, and stays one the
loader accepts. -/
theorem runCapture_eq (s : SpuState) (i : Fin 2) (value : Int) (h : (s.capture i).Savable)
    (hproper : (s.capture i).Proper) :
    ∃ c : Capture, c.Savable ∧ s.runCapture i value = s.updateCapture i fun _ => c := by
  unfold runCapture
  split
  · next hon =>
      obtain ⟨hapart, hends⟩ := hproper hon
      refine ⟨(s.capture i).runAlone (clampSample value), h.runAlone hon hends _, ?_⟩
      have hready := (h.ready hon).setTimer ((s.capture i).timer + 512)
      have hapart' := apart_congr
        (Capture.setTimer_target (s.capture i) ((s.capture i).timer + 512)) hapart
      have hbytes : ((s.capture i).setTimer ((s.capture i).timer + 512)).bytes =
          (s.capture i).bytes := rfl
      have htimer : ((s.capture i).setTimer ((s.capture i).timer + 512)).timer =
          (s.capture i).timer + 512 := rfl
      unfold captureRun
      dsimp only
      rw [updateCapture_capture, hbytes, htimer]
      unfold Capture.runAlone
      unfold Capture.width at hready
      split
      · next hnarrow =>
          rw [if_pos hnarrow] at hready
          rw [captureSamples_eq, updateCapture_comp]
          · exact updateCapture_congr rfl
          · rw [updateCapture_capture]
            exact hready
          · rw [updateCapture_capture]
            exact hapart'
      · next hwide =>
          rw [if_neg hwide] at hready
          rw [captureSamples_eq, updateCapture_comp]
          · exact updateCapture_congr rfl
          · rw [updateCapture_capture]
            exact hready
          · rw [updateCapture_capture]
            exact hapart'
  · exact ⟨s.capture i, h, (updateCapture_id s i _ rfl).symm⟩

end SpuState

end NdsRecomp.Spu
