import NdsRecomp.Spu.ChannelRun
import NdsRecomp.Spu.CaptureCursor

/-!
Every state of the sound unit that proper steps lead to can be saved and loaded
again, and the rings were never left on the way.

The guest may rewrite the registers of a playing channel or a running capture
unit at any time, and the code does not bring the cursors back into agreement
with them. A proper write leaves registers that fit the cursors; a proper mixer
step finds everything it fetches.
-/

namespace NdsRecomp.Spu

open Library

/-- The sound unit keeps to its arrays and the loader accepts what is saved. -/
structure SoundInvariant (s : SpuState) : Prop where
  accepted : spuSavestateValidate (spuSavestateExport s) = .ok ()
  /-- Every fetch, burst and store so far addressed bytes of its ring. -/
  inBounds : (∀ i, (s.channel i).inBounds = true) ∧ ∀ i, (s.capture i).inBounds = true
  level : (∀ i, (s.channel i).fifoLevel ≤ 32) ∧ ∀ i, (s.capture i).fifoLevel ≤ 16
  offset : ∀ i, (s.channel i).sourceOffset ≤ (s.channel i).total

namespace SpuState

structure Savable (s : SpuState) : Prop where
  channel : ∀ i, (s.channel i).Savable
  capture : ∀ i, (s.capture i).Savable
  cnt : s.cnt &&& ~~~0xBF7F = 0
  bias : s.bias ≤ 0x3FF

theorem forM_ok {α : Type} (l : List α) (f : α → Except String Unit)
    (h : ∀ a ∈ l, f a = .ok ()) : l.forM f = .ok () := by
  induction l with
  | nil => rfl
  | cons a l ih =>
      change (f a >>= fun _ => l.forM f) = .ok ()
      rw [h a List.mem_cons_self]
      exact ih fun b hb => h b (List.mem_cons_of_mem a hb)

theorem Savable.invariant {s : SpuState} (h : s.Savable) : SoundInvariant s where
  accepted := by
    have hglobal : ¬ (s.cnt &&& ~~~0xBF7F ≠ 0 ∨ s.bias > 0x3FF) := by
      rintro (hbad | hbad)
      · exact hbad h.cnt
      · exact absurd h.bias (UInt16.not_le.mpr hbad)
    have hchannels := forM_ok (List.finRange 16) (fun i => (s.channel i).exported.validate)
      fun i _ => (h.channel i).validate
    have hcaptures := forM_ok (List.finRange 2) (fun i => (s.capture i).exported.validate)
      fun i _ => (h.capture i).validate
    unfold spuSavestateValidate spuSavestateExport
    dsimp only
    rw [if_neg hglobal, hchannels, hcaptures]
    rfl
  inBounds := ⟨fun i => (h.channel i).ring.inBounds, fun i => (h.capture i).ring.inBounds⟩
  level := ⟨fun i => (h.channel i).ring.level, fun i => (h.capture i).ring.level⟩
  offset := fun i => (h.channel i).ring.offset

/-! ### The mixer -/

theorem Savable.updateCapture {s : SpuState} (h : s.Savable) {i : Fin 2} {f : Capture → Capture}
    (hf : (f (s.capture i)).Savable) : (s.updateCapture i f).Savable := by
  refine ⟨h.channel, fun j => ?_, h.cnt, h.bias⟩
  rcases eq_or_ne j i with rfl | hne
  · rw [updateCapture_capture]
    exact hf
  · have hother : (s.updateCapture i f).capture j = s.capture j := Function.update_of_ne hne ..
    rw [hother]
    exact h.capture j

theorem Savable.updateChannel {s : SpuState} (h : s.Savable) {i : Fin 16}
    {f : Channel → Channel} (hf : (f (s.channel i)).Savable) : (s.updateChannel i f).Savable := by
  refine ⟨fun j => ?_, h.capture, h.cnt, h.bias⟩
  rcases eq_or_ne j i with rfl | hne
  · have hself : (s.updateChannel j f).channel j = f (s.channel j) := Function.update_self ..
    rw [hself]
    exact hf
  · have hother : (s.updateChannel i f).channel j = s.channel j := Function.update_of_ne hne ..
    rw [hother]
    exact h.channel j

/-- A mixer step finds every channel playable and every capture unit proper. -/
theorem Savable.mix {s : SpuState} (h : s.Savable) (view : Fin 16 → UInt32 → UInt32)
    (hplay : s.cnt &&& 0x8000 ≠ 0 →
      (∀ i, (s.channel i).Playable) ∧ ∀ i, (s.capture i).Proper) : (s.mix view).Savable := by
  unfold SpuState.mix
  split
  · next hon =>
      obtain ⟨hplayable, hproper⟩ := hplay hon
      have hran : (s.runChannels view).Savable :=
        ⟨fun i => (h.channel i).run (view i) (hplayable i), h.capture, h.cnt, h.bias⟩
      obtain ⟨first, hfirst, heq⟩ := runCapture_eq (s.runChannels view) 0 (s.mixedOutput view).1
        (h.capture 0) (hproper 0)
      dsimp only
      rw [heq]
      have hne : (1 : Fin 2) ≠ 0 := by decide
      have hother : ((s.runChannels view).updateCapture 0 fun _ => first).capture 1 = s.capture 1 :=
        Function.update_of_ne hne first s.capture
      obtain ⟨second, hsecond, heq'⟩ := runCapture_eq
        ((s.runChannels view).updateCapture 0 fun _ => first) 1 (s.mixedOutput view).2
        (hother ▸ h.capture 1) (hother ▸ hproper 1)
      rw [heq']
      exact (hran.updateCapture hfirst).updateCapture hsecond
  · exact h

/-! ### Register writes -/

/-- The registers of `s'` fit the cursors of `s`: no channel has already fetched
past its new end, none is switched to a wider format inside a sample or a
header, no capture window ends before its write offset, and no capture goes on
in 16-bit samples inside one. -/
structure Fits (s s' : SpuState) : Prop where
  offset (i : Fin 16) : (s.channel i).sourceOffset ≤ (s'.channel i).total
  even (i : Fin 16) : (s'.channel i).format = 1 → (s.channel i).fifoRead % 2 = 0
  header (i : Fin 16) : (s'.channel i).format = 2 → (s.channel i).pos < 8 →
    (s.channel i).fifoRead % 4 = 0
  window (i : Fin 2) : (s.capture i).writeOffset < (s'.capture i).length ∨
    (s.capture i).writeOffset = 0
  words (i : Fin 2) : (s.capture i).running = true → (s'.capture i).running = true →
    (s'.capture i).bytes = false → (s.capture i).fifoWrite % 2 = 0

/-- Registers of a channel that its cursors fit. -/
theorem channel_setCnt {ch : Channel} (h : ch.Savable) (value : UInt32)
    (heven : (ch.setCnt value).format = 1 → ch.fifoRead % 2 = 0)
    (hheader : (ch.setCnt value).format = 2 → ch.pos < 8 → ch.fifoRead % 4 = 0) :
    (ch.setCnt value).Savable := by
  refine ⟨{ h.ring with }, ⟨h.index.index, h.index.loopIndex⟩, h.low, h.high, ?_, h.src, h.timer,
    heven, hheader⟩
  change (value &&& 0xFF7F837F) &&& ~~~0xFF7F837F = 0
  rw [UInt32.and_assoc]
  exact UInt32.and_zero

theorem channel_setReload {ch : Channel} (h : ch.Savable) (reload : UInt16) :
    ({ ch with reload } : Channel).Savable :=
  ⟨{ h.ring with }, ⟨h.index.index, h.index.loopIndex⟩, h.low, h.high, h.cnt, h.src, h.timer,
    h.even, h.header⟩

theorem channel_setSrc {ch : Channel} (h : ch.Savable) (value : UInt32) :
    ({ ch with src := value &&& 0x07FFFFFC } : Channel).Savable := by
  refine ⟨{ h.ring with }, ⟨h.index.index, h.index.loopIndex⟩, h.low, h.high, h.cnt, ?_, h.timer,
    h.even, h.header⟩
  change (value &&& 0x07FFFFFC) &&& ~~~0x07FFFFFC = 0
  rw [UInt32.and_assoc]
  exact UInt32.and_zero

theorem channel_setLoop {ch : Channel} (h : ch.Savable) (reload : UInt16) (value : Nat)
    (hvalue : value < 65536) (hoffset : ch.sourceOffset ≤ value * 4 + ch.length) :
    ({ ch with reload, loop := value * 4 } : Channel).Savable := by
  refine ⟨{ h.ring with loop := ?_, loopAligned := ?_, offset := hoffset },
    ⟨h.index.index, h.index.loopIndex⟩, h.low, h.high, h.cnt, h.src, h.timer, h.even, h.header⟩
  · change value * 4 ≤ 0x3FFFC
    omega
  · change value * 4 % 4 = 0
    omega

theorem channel_setLength {ch : Channel} (h : ch.Savable) {length : Nat}
    (hlength : length ≤ 0x7FFFFC) (haligned : length % 4 = 0)
    (hoffset : ch.sourceOffset ≤ ch.loop + length) : ({ ch with length } : Channel).Savable :=
  ⟨{ h.ring with length := hlength, lengthAligned := haligned, offset := hoffset },
    ⟨h.index.index, h.index.loopIndex⟩, h.low, h.high, h.cnt, h.src, h.timer, h.even, h.header⟩

theorem capture_setReload {c : Capture} (h : c.Savable) (reload : UInt16) :
    ({ c with reload } : Capture).Savable :=
  ⟨{ h.ring with }, h.room, h.cnt, h.stopped, h.dst, h.timer, h.low, h.high, h.inside, h.even⟩

theorem capture_setDst {c : Capture} (h : c.Savable) (value : UInt32) :
    ({ c with dst := value &&& 0x07FFFFFC } : Capture).Savable := by
  refine ⟨{ h.ring with }, h.room, h.cnt, h.stopped, ?_, h.timer, h.low, h.high, h.inside, h.even⟩
  change (value &&& 0x07FFFFFC) &&& ~~~0x07FFFFFC = 0
  rw [UInt32.and_assoc]
  exact UInt32.and_zero

theorem capture_setLength {c : Capture} (h : c.Savable) {value : Nat} (hvalue : value < 65536)
    (hwindow : c.writeOffset < (c.setLength value).length ∨ c.writeOffset = 0) :
    (c.setLength value).Savable := by
  have hlength : (c.setLength value).length ≤ 0x3FFFC ∧ (c.setLength value).length % 4 = 0 := by
    unfold Capture.setLength
    dsimp only
    split
    · decide
    · omega
  exact ⟨{ h.ring with length := hlength.1, lengthAligned := hlength.2, offset := hwindow },
    h.room, h.cnt, h.stopped, h.dst, h.timer, h.low, h.high, h.inside, h.even⟩

theorem and_mask8 (value : UInt8) : (value &&& 0x8F) &&& ~~~0x8F = 0 := by
  rw [UInt8.and_assoc]
  exact UInt8.and_zero

/-- A control write that starts a capture resets its FIFO; one that does not
leaves it. -/
theorem capture_setCnt {c : Capture} (h : c.Savable) (value : UInt8)
    (hwords : c.running = true → (c.setCnt value).running = true →
      (c.setCnt value).bytes = false → c.fifoWrite % 2 = 0) : (c.setCnt value).Savable := by
  obtain ⟨cnt, hcnt, hmask, hbit⟩ : ∃ cnt, cnt = (if (value &&& 0x8F) &&& 0x80 = 0 then
      (value &&& 0x8F) &&& ~~~1 else value &&& 0x8F) ∧ cnt &&& ~~~0x8F = 0 ∧
        (cnt &&& 0x80 = 0 → cnt &&& 1 = 0) := by
    refine ⟨_, rfl, ?_, ?_⟩
    · split
      · rw [UInt8.and_assoc, UInt8.and_comm (~~~1), ← UInt8.and_assoc, and_mask8, UInt8.zero_and]
      · exact and_mask8 value
    · split
      · intro _
        rw [UInt8.and_assoc]
        exact UInt8.and_zero
      · next hon => exact fun hoff => absurd hoff hon
  unfold Capture.setCnt at hwords ⊢
  dsimp only at hwords ⊢
  rw [← hcnt] at hwords ⊢
  split
  · next hstart =>
      refine ⟨⟨h.ring.length, h.ring.lengthAligned, Nat.zero_lt_succ _, rfl, Nat.zero_lt_succ _,
        Nat.zero_le _, rfl, Or.inr rfl, rfl, h.ring.inBounds⟩, Nat.zero_lt_succ _, hmask, hbit,
        h.dst, ?_, le_rfl, ?_, fun _ => ?_, fun _ _ => rfl⟩
      · exact Nat.le_of_lt_succ c.reload.toNat_lt
      · change (0 : Int) ≤ 0x3FFFD
        decide
      · change (0 : Int) < 0x3FFFC
        decide
  · next hstart =>
      rw [if_neg hstart] at hwords
      have hrunning (hon : ({ c with cnt } : Capture).running = true) : c.running = true := by
        have hbit7 : value &&& 0x80 ≠ 0 := fun hoff => by
          have hzero : cnt &&& 0x80 = 0 := by
            rw [hcnt]
            have hlow : (value &&& 0x8F) &&& 0x80 = 0 := by
              rw [UInt8.and_assoc]
              exact hoff
            rw [if_pos hlow, UInt8.and_assoc, UInt8.and_comm (~~~1), ← UInt8.and_assoc, hlow,
              UInt8.zero_and]
          exact absurd hzero (bne_iff_ne.mp hon)
        exact bne_iff_ne.mpr fun hoff => hstart ⟨hbit7, hoff⟩
      exact ⟨{ h.ring with }, h.room, hmask, hbit, h.dst, h.timer, h.low, h.high,
        fun hon => h.inside (hrunning hon), fun hon => hwords (hrunning hon) hon⟩

theorem updateChannel_channel (s : SpuState) (i : Fin 16) (f : Channel → Channel) :
    (s.updateChannel i f).channel i = f (s.channel i) := Function.update_self ..

/-- A write to the control register of a channel. -/
theorem Savable.writeCnt {s : SpuState} (h : s.Savable) {i : Fin 16} {value : Channel → UInt32}
    (hfits : Fits s (s.updateChannel i fun ch => ch.setCnt (value ch))) :
    (s.updateChannel i fun ch => ch.setCnt (value ch)).Savable := by
  have heven := hfits.even i
  have hheader := hfits.header i
  rw [updateChannel_channel] at heven hheader
  exact h.updateChannel (channel_setCnt (h.channel i) _ heven hheader)

theorem Savable.writeLength {s : SpuState} (h : s.Savable) {i : Fin 16} {length : Nat}
    (hlength : length ≤ 0x7FFFFC) (haligned : length % 4 = 0)
    (hfits : Fits s (s.updateChannel i ({ · with length }))) :
    (s.updateChannel i ({ · with length })).Savable := by
  have hoffset := hfits.offset i
  rw [updateChannel_channel] at hoffset
  exact h.updateChannel (channel_setLength (h.channel i) hlength haligned hoffset)

theorem Savable.captureReload {s : SpuState} (h : s.Savable) (addr : UInt32) (value : UInt16) :
    (s.captureReload addr value).Savable := by
  unfold SpuState.captureReload
  split
  · exact h.updateCapture (capture_setReload (h.capture 0) value)
  · split
    · exact h.updateCapture (capture_setReload (h.capture 1) value)
    · exact h

theorem captureReload_channel (s : SpuState) (addr : UInt32) (value : UInt16) :
    (s.captureReload addr value).channel = s.channel := by
  unfold SpuState.captureReload
  split
  · rfl
  · split
    · rfl
    · rfl

/-- A write to the control registers of capture unit `i`. -/
theorem Savable.writeCaptureCnt {s : SpuState} (h : s.Savable) {i : Fin 2} {value : UInt8}
    (hwords : (s.capture i).running = true → ((s.capture i).setCnt value).running = true →
      ((s.capture i).setCnt value).bytes = false → (s.capture i).fifoWrite % 2 = 0) :
    (s.updateCapture i (·.setCnt value)).Savable :=
  h.updateCapture (capture_setCnt (h.capture i) value hwords)

theorem Savable.writeBothCnt {s : SpuState} (h : s.Savable) {first second : UInt8}
    (hfits : Fits s ((s.updateCapture 0 (·.setCnt first)).updateCapture 1 (·.setCnt second))) :
    ((s.updateCapture 0 (·.setCnt first)).updateCapture 1 (·.setCnt second)).Savable := by
  have hne : (0 : Fin 2) ≠ 1 := by decide
  have hzero : ((s.updateCapture 0 (·.setCnt first)).updateCapture 1 (·.setCnt second)).capture 0 =
      (s.capture 0).setCnt first := by
    unfold SpuState.updateCapture
    simp
  have hone : (s.updateCapture 0 (·.setCnt first)).capture 1 = s.capture 1 :=
    Function.update_of_ne hne.symm ((s.capture 0).setCnt first) s.capture
  have hwords := hfits.words 0
  have hwords' := hfits.words 1
  rw [hzero] at hwords
  rw [updateCapture_capture, hone] at hwords'
  refine (h.writeCaptureCnt hwords).writeCaptureCnt ?_
  rw [hone]
  exact hwords'

theorem Savable.writeCaptureLength {s : SpuState} (h : s.Savable) {i : Fin 2} {value : Nat}
    (hvalue : value < 65536) (hfits : Fits s (s.updateCapture i (·.setLength value))) :
    (s.updateCapture i (·.setLength value)).Savable := by
  have hwindow := hfits.window i
  rw [updateCapture_capture] at hwindow
  exact h.updateCapture (capture_setLength (h.capture i) hvalue hwindow)

theorem Savable.setGlobal {s : SpuState} (h : s.Savable) (value : UInt32) :
    (s.setGlobal value).Savable := by
  refine ⟨h.channel, h.capture, ?_, h.bias⟩
  change (value &&& 0xBF7F).toUInt16 &&& ~~~0xBF7F = 0
  rw [UInt32.toUInt16_and, UInt16.and_assoc]
  exact UInt16.and_zero

theorem masked_le16 (value mask : UInt16) : value &&& mask ≤ mask := by
  rw [UInt16.le_iff_toNat_le, UInt16.toNat_and]
  exact Nat.and_le_right

theorem Savable.write8 {s s' : SpuState} (h : s.Savable) {addr : UInt32} {value : UInt8}
    (hs' : s' = s.write8 addr value) (hfits : Fits s s') : s'.Savable := by
  unfold SpuState.write8 at hs'
  dsimp only at hs'
  split at hs'
  · split at hs'
    · subst hs'
      exact h.writeCnt hfits
    · exact hs' ▸ h
  · split at hs'
    · exact hs' ▸ h.setGlobal _
    · split at hs'
      · exact hs' ▸ h.setGlobal _
      · split at hs'
        · subst hs'
          have hwords := hfits.words 0
          rw [updateCapture_capture] at hwords
          exact h.writeCaptureCnt hwords
        · split at hs'
          · subst hs'
            have hwords := hfits.words 1
            rw [updateCapture_capture] at hwords
            exact h.writeCaptureCnt hwords
          · exact hs' ▸ h

theorem mergedLength_bounds (low high : Nat) :
    mergedLength low high ≤ 0x7FFFFC ∧ mergedLength low high % 4 = 0 := by
  unfold mergedLength
  omega

theorem Savable.write16 {s s' : SpuState} (h : s.Savable) {addr : UInt32} {value : UInt16}
    (hs' : s' = s.write16 addr value) (hfits : Fits s s') : s'.Savable := by
  have hvalue : value.toNat < 65536 := value.toNat_lt
  unfold SpuState.write16 at hs'
  dsimp only at hs'
  split at hs'
  · split at hs'
    · subst hs'
      exact h.writeCnt hfits
    · subst hs'
      exact h.writeCnt hfits
    · subst hs'
      exact (h.updateChannel (channel_setReload (h.channel _) value)).captureReload _ _
    · subst hs'
      have hoffset := hfits.offset (channelIndex addr)
      rw [updateChannel_channel] at hoffset
      exact h.updateChannel (channel_setLoop (h.channel _) _ value.toNat hvalue hoffset)
    · subst hs'
      have hbounds := mergedLength_bounds value.toNat
        ((s.channel (channelIndex addr)).length / 4 / 65536)
      exact h.writeLength hbounds.1 hbounds.2 hfits
    · subst hs'
      have hbounds := mergedLength_bounds
        ((s.channel (channelIndex addr)).length / 4 % 65536) value.toNat
      exact h.writeLength hbounds.1 hbounds.2 hfits
    · exact hs' ▸ h
  · split at hs'
    · exact hs' ▸ h.setGlobal _
    · split at hs'
      · subst hs'
        exact ⟨h.channel, h.capture, h.cnt, masked_le16 value 0x3FF⟩
      · split at hs'
        · subst hs'
          exact h.writeBothCnt hfits
        · split at hs'
          · subst hs'
            exact h.writeCaptureLength hvalue hfits
          · split at hs'
            · subst hs'
              exact h.writeCaptureLength hvalue hfits
            · exact hs' ▸ h

theorem toNat_and_lt (value mask : UInt32) {bound : Nat} (hmask : mask.toNat < bound) :
    (value &&& mask).toNat < bound := by
  rw [UInt32.toNat_and]
  exact lt_of_le_of_lt Nat.and_le_right hmask

theorem Savable.write32 {s s' : SpuState} (h : s.Savable) {addr value : UInt32}
    (hs' : s' = s.write32 addr value) (hfits : Fits s s') : s'.Savable := by
  have hhigh : (value >>> 16).toNat < 65536 := by
    rw [UInt32.toNat_shiftRight]
    have hlt := value.toNat_lt
    change value.toNat >>> 16 < 65536
    rw [Nat.shiftRight_eq_div_pow]
    omega
  have hlow : (value &&& 0xFFFF).toNat < 65536 := toNat_and_lt value 0xFFFF (by decide)
  unfold SpuState.write32 at hs'
  dsimp only at hs'
  split at hs'
  · split at hs'
    · subst hs'
      exact h.writeCnt hfits
    · subst hs'
      exact h.updateChannel (channel_setSrc (h.channel _) value)
    · subst hs'
      have hoffset := hfits.offset (channelIndex addr)
      rw [captureReload_channel, updateChannel_channel] at hoffset
      exact (h.updateChannel (channel_setLoop (h.channel _) _ _ hhigh hoffset)).captureReload _ _
    · subst hs'
      have hlength := toNat_and_lt value 0x001FFFFF
        (show (0x001FFFFF : UInt32).toNat < 0x200000 by decide)
      exact h.writeLength (by omega) (by omega) hfits
    · exact hs' ▸ h
  · split at hs'
    · exact hs' ▸ h.setGlobal _
    · split at hs'
      · subst hs'
        refine ⟨h.channel, h.capture, h.cnt, ?_⟩
        change (value &&& 0x3FF).toUInt16 ≤ 0x3FF
        rw [UInt32.toUInt16_and]
        exact masked_le16 _ _
      · split at hs'
        · subst hs'
          exact h.writeBothCnt hfits
        · split at hs'
          · subst hs'
            exact h.updateCapture (capture_setDst (h.capture 0) value)
          · split at hs'
            · subst hs'
              exact h.writeCaptureLength hlow hfits
            · split at hs'
              · subst hs'
                exact h.updateCapture (capture_setDst (h.capture 1) value)
              · split at hs'
                · subst hs'
                  exact h.writeCaptureLength hlow hfits
                · exact hs' ▸ h

theorem Savable.ndsSpuWrite {s : SpuState} (h : s.Savable) {addr value : UInt32} {width : Nat}
    (hfits : Fits s (s.ndsSpuWrite addr value width)) :
    (s.ndsSpuWrite addr value width).Savable := by
  unfold SpuState.ndsSpuWrite at hfits ⊢
  split
  · next hbyte =>
      rw [if_pos hbyte] at hfits
      exact h.write8 rfl hfits
  · next hbyte =>
      rw [if_neg hbyte] at hfits
      split
      · next hhalf =>
          rw [if_pos hhalf] at hfits
          exact h.write16 rfl hfits
      · next hhalf =>
          rw [if_neg hhalf] at hfits
          exact h.write32 rfl hfits

theorem ndsSpuReset_savable : ndsSpuReset.Savable := by
  refine ⟨fun i => ?_, fun _ => ?_, by decide, by decide⟩
  · have hzero : ({ num := i } : Channel).Savable := by
      refine ⟨⟨?_, ?_, ?_, ?_, ?_, ?_, ?_, ?_, ?_, ?_, ?_, ?_⟩, ⟨⟨?_, ?_⟩, ⟨?_, ?_⟩⟩, ?_, ?_, ?_, ?_,
        ?_, ?_, ?_⟩
      all_goals decide +revert
    exact channel_setCnt hzero 0 (fun _ => rfl) fun _ _ => rfl
  · change ({} : Capture).Savable
    refine ⟨⟨?_, ?_, ?_, ?_, ?_, ?_, ?_, ?_, ?_, ?_⟩, ?_, ?_, ?_, ?_, ?_, ?_, ?_, ?_, ?_⟩
    all_goals decide

end SpuState

/-! ### Runs -/

/-- What reaches the sound unit: register accesses of the ARM7, and the mixer
every 1024 system cycles. `view` is the bus as each channel finds it. -/
inductive SpuOp where
  | write (addr value : UInt32) (width : Nat)
  | read (addr : UInt32) (width : Nat)
  | mix (view : Fin 16 → UInt32 → UInt32)

def SpuState.next (s : SpuState) : SpuOp → SpuState
  | .write addr value width => s.ndsSpuWrite addr value width
  | .read _ _ => s
  | .mix view => { s.mix view with mixCount := s.mixCount + 1 }

def spuSystem : OpSystem SpuState SpuOp where
  initial := fun s => s = SpuState.ndsSpuReset
  admits := fun _ _ => True
  next := SpuState.next

/-- `nds_tick_spu` is a run of mixer steps. -/
theorem ndsTickSpu_eq_run (s : SpuState) (view : UInt64 → Fin 16 → UInt32 → UInt32)
    (systemCycles : UInt64) :
    ∃ views : List (Fin 16 → UInt32 → UInt32),
      s.ndsTickSpu view systemCycles = spuSystem.runFrom s (views.map .mix) := by
  have hmixes (count : Nat) (s : SpuState) : ∃ views : List (Fin 16 → UInt32 → UInt32),
      SpuState.mixes view count s = spuSystem.runFrom s (views.map .mix) := by
    induction count generalizing s with
    | zero => exact ⟨[], rfl⟩
    | succ count ih =>
        obtain ⟨views, hviews⟩ := ih { s.mix (view s.mixCount) with mixCount := s.mixCount + 1 }
        exact ⟨view s.mixCount :: views, hviews⟩
  unfold SpuState.ndsTickSpu
  dsimp only
  split
  · exact ⟨[], rfl⟩
  · exact hmixes _ s

/-- Writes whose registers fit the cursors, and mixer steps that find what they
fetch. -/
def Proper (s : SpuState) : SpuOp → Prop
  | .write addr value width => s.Fits (s.ndsSpuWrite addr value width)
  | .read _ _ => True
  | .mix _ => s.cnt &&& 0x8000 ≠ 0 →
      (∀ i, (s.channel i).Playable) ∧ ∀ i, (s.capture i).Proper

theorem spuSystem_savable : (spuSystem.restrict Proper).Invariant SpuState.Savable where
  start := by
    rintro s rfl
    exact SpuState.ndsSpuReset_savable
  step := by
    rintro s op hs ⟨-, hproper⟩
    cases op with
    | write addr value width => exact hs.ndsSpuWrite hproper
    | read addr width => exact hs
    | mix view =>
        have hmixed := hs.mix view hproper
        exact ⟨hmixed.channel, hmixed.capture, hmixed.cnt, hmixed.bias⟩

/-- A looping PCM8 channel of 32 bytes, started and filled, then cut to 16. -/
def shortenedChannel : SpuState :=
  spuSystem.runFrom SpuState.ndsSpuReset
    [.write 0x0400040C 8 4, .write 0x04000400 0x88000000 4, .write 0x04000500 0x8000 2,
      .mix fun _ _ => 0, .write 0x0400040C 4 4]

end NdsRecomp.Spu
