import NdsRecomp.Spu.MixBounds

/-!
Register writes, capture stores and savestates keep the registers in range, so
the arithmetic of every mixer step fits its types.
-/

namespace NdsRecomp.Spu

open Library

namespace SpuState

structure Tuned (s : SpuState) : Prop where
  channel : ∀ i, (s.channel i).Tuned
  masterVolume : s.masterVolume ≤ 128
  bias : s.bias.toNat ≤ 0x3FF

section Registers

variable {s : SpuState} (h : s.Tuned)

include h

theorem Tuned.updateCapture (i : Fin 2) (f : Capture → Capture) : (s.updateCapture i f).Tuned :=
  ⟨h.channel, h.masterVolume, h.bias⟩

theorem Tuned.updateChannel (i : Fin 16) {f : Channel → Channel}
    (hf : (f (s.channel i)).Tuned) : (s.updateChannel i f).Tuned := by
  refine ⟨fun j => ?_, h.masterVolume, h.bias⟩
  by_cases hj : j = i
  · subst hj
    rw [updateChannel_channel]
    exact hf
  · have hother : (s.updateChannel i f).channel j = s.channel j := Function.update_of_ne hj ..
    rw [hother]
    exact h.channel j

theorem Tuned.setCnt (i : Fin 16) (value : Channel → UInt32) :
    (s.updateChannel i fun ch => ch.setCnt (value ch)).Tuned :=
  h.updateChannel i (Channel.setCnt_tuned (h.channel i).sample _)

theorem Tuned.setGlobal (value : UInt32) : (s.setGlobal value).Tuned := by
  have hle : (((value &&& 0xBF7F).toUInt16 &&& 0x7F) : UInt16).toNat ≤ 127 := by
    rw [UInt16.toNat_and]
    exact Nat.and_le_right
  refine ⟨h.channel, ?_, h.bias⟩
  unfold SpuState.setGlobal
  dsimp only
  split
  · omega
  · omega

theorem Tuned.setBias {bias : UInt16} (hbias : bias.toNat ≤ 0x3FF) : { s with bias }.Tuned :=
  ⟨h.channel, h.masterVolume, hbias⟩

theorem Tuned.captureReload (addr : UInt32) (value : UInt16) : (s.captureReload addr value).Tuned := by
  unfold SpuState.captureReload
  split
  · exact h.updateCapture 0 _
  split
  · exact h.updateCapture 1 _
  · exact h

/-- A register of channel `i` that the mixer does not multiply by. -/
theorem Tuned.setOther (i : Fin 16) {f : Channel → Channel}
    (hf : ∀ ch, (f ch).volume = ch.volume ∧ (f ch).volumeShift = ch.volumeShift ∧
      (f ch).pan = ch.pan ∧ (f ch).sample = ch.sample) : (s.updateChannel i f).Tuned := by
  obtain ⟨hvolume, hshift, hpan, hsample⟩ := hf (s.channel i)
  have hch := h.channel i
  refine h.updateChannel i ⟨?_, ?_, ?_, ?_⟩
  · exact hvolume ▸ hch.volume
  · exact hshift ▸ hch.volumeShift
  · exact hpan ▸ hch.pan
  · exact hsample ▸ hch.sample

theorem Tuned.write8 (addr : UInt32) (value : UInt8) : (s.write8 addr value).Tuned := by
  unfold SpuState.write8
  split
  · dsimp only
    split
    · exact h.setCnt _ _
    · exact h
  split
  · exact h.setGlobal _
  split
  · exact h.setGlobal _
  split
  · exact h.updateCapture 0 _
  split
  · exact h.updateCapture 1 _
  · exact h

theorem Tuned.write16 (addr : UInt32) (value : UInt16) : (s.write16 addr value).Tuned := by
  unfold SpuState.write16
  split
  · dsimp only
    split
    · exact h.setCnt _ _
    · exact h.setCnt _ _
    · have hset := h.setOther (channelIndex addr)
        (f := ({ · with reload := value })) fun _ => ⟨rfl, rfl, rfl, rfl⟩
      exact hset.captureReload addr value
    · exact h.setOther _ fun _ => ⟨rfl, rfl, rfl, rfl⟩
    · exact h.setOther _ fun _ => ⟨rfl, rfl, rfl, rfl⟩
    · exact h.setOther _ fun _ => ⟨rfl, rfl, rfl, rfl⟩
    · exact h
  split
  · exact h.setGlobal _
  split
  · refine h.setBias ?_
    rw [UInt16.toNat_and]
    exact Nat.and_le_right
  split
  · exact (h.updateCapture 0 _).updateCapture 1 _
  split
  · exact h.updateCapture 0 _
  split
  · exact h.updateCapture 1 _
  · exact h

theorem Tuned.write32 (addr value : UInt32) : (s.write32 addr value).Tuned := by
  unfold SpuState.write32
  split
  · dsimp only
    split
    · exact h.setCnt _ _
    · exact h.setOther _ fun _ => ⟨rfl, rfl, rfl, rfl⟩
    · have hset := h.setOther (channelIndex addr)
        (f := ({ · with reload := value.toUInt16, loop := (value >>> 16).toNat * 4 }))
        fun _ => ⟨rfl, rfl, rfl, rfl⟩
      exact hset.captureReload addr value.toUInt16
    · exact h.setOther _ fun _ => ⟨rfl, rfl, rfl, rfl⟩
    · exact h
  split
  · exact h.setGlobal _
  split
  · refine h.setBias ?_
    have hle : (value &&& 0x3FF).toNat ≤ 0x3FF := by
      rw [UInt32.toNat_and]
      exact Nat.and_le_right
    rw [UInt32.toNat_toUInt16]
    exact (Nat.mod_le _ _).trans hle
  split
  · exact (h.updateCapture 0 _).updateCapture 1 _
  split
  · exact h.updateCapture 0 _
  split
  · exact h.updateCapture 0 _
  split
  · exact h.updateCapture 1 _
  split
  · exact h.updateCapture 1 _
  · exact h

theorem Tuned.ndsSpuWrite (addr value : UInt32) (width : Nat) :
    (s.ndsSpuWrite addr value width).Tuned := by
  unfold SpuState.ndsSpuWrite
  split
  · exact h.write8 _ _
  split
  · exact h.write16 _ _
  · exact h.write32 _ _

/-! ### Captures -/

theorem Tuned.flushWord (i : Fin 2) : (s.flushWord i).Tuned := by
  unfold SpuState.flushWord
  dsimp only
  refine Tuned.updateCapture ?_ i _
  unfold SpuState.busDeviceWrite32
  split
  · exact h.ndsSpuWrite _ _ _
  · exact h

omit h in
theorem Tuned.flushWords (i : Fin 2) (words : Nat) {s : SpuState} (h : s.Tuned) :
    (SpuState.flushWords i words s).Tuned := by
  induction words generalizing s with
  | zero => exact h
  | succ words ih =>
      unfold SpuState.flushWords
      split
      · dsimp only
        split
        · exact (h.flushWord i).updateCapture i _
        · exact ih (h.flushWord i)
      · exact h

theorem Tuned.flush (i : Fin 2) : (s.flush i).Tuned := h.flushWords i 4

theorem Tuned.writeValue (i : Fin 2) (size : Nat) (value : Int) :
    (s.writeValue i size value).Tuned := by
  unfold SpuState.writeValue
  dsimp only
  split
  · exact (h.updateCapture i _).flush i
  · exact h.updateCapture i _

omit h in
theorem Tuned.captureSamples (i : Fin 2) (size : Nat) (value : Int) (rounds : Nat) {s : SpuState}
    (h : s.Tuned) : (SpuState.captureSamples i size value rounds s).Tuned := by
  induction rounds generalizing s with
  | zero => exact h
  | succ rounds ih =>
      unfold SpuState.captureSamples
      have hput := (((h.updateCapture i (·.lowerTimer)).writeValue i size value).updateCapture i
        (·.forward size))
      split
      · dsimp only
        split
        · have hflushed := hput.flush i
          split
          · split
            · exact hflushed.updateCapture i _
            · exact ih (hflushed.updateCapture i _)
          · split
            · exact hput.updateCapture i _
            · exact ih (hput.updateCapture i _)
        · exact ih hput
      · exact h

theorem Tuned.captureRun (i : Fin 2) (sample : Int) : (s.captureRun i sample).Tuned := by
  unfold SpuState.captureRun
  dsimp only
  split
  · exact Tuned.captureSamples i 1 _ _ (h.updateCapture i _)
  · exact Tuned.captureSamples i 2 _ _ (h.updateCapture i _)

theorem Tuned.runCapture (i : Fin 2) (value : Int) : (s.runCapture i value).Tuned := by
  unfold SpuState.runCapture
  split
  · exact h.captureRun i _
  · exact h

theorem Tuned.mix (view : Fin 16 → UInt32 → UInt32) : (s.mix view).Tuned := by
  have hran : (s.runChannels view).Tuned :=
    ⟨fun i => (h.channel i).run (view i), h.masterVolume, h.bias⟩
  unfold SpuState.mix
  split
  · exact (hran.runCapture 0 _).runCapture 1 _
  · exact h

end Registers

end SpuState

/-! ### The mixer -/

theorem panned_eq {input weight : Int} (hinput : |input| ≤ 2 ^ 26) (hweight : |weight| ≤ 2 ^ 7) :
    panned input weight = some (input * weight / 1024) ∧ |input * weight / 1024| ≤ 2 ^ 23 := by
  have hproduct := abs_mul_le hinput hweight
  obtain ⟨hlow, hhigh⟩ := abs_le.mp hproduct
  have hshifted : |input * weight / 1024| ≤ 2 ^ 23 := abs_le.mpr ⟨by omega, by omega⟩
  refine ⟨?_, hshifted⟩
  unfold panned
  rw [stored_of_abs hproduct (by decide)]
  exact stored_of_abs hshifted (by decide)

namespace Channel

variable {ch : Channel} (h : ch.Tuned)

include h

theorem Tuned.panLeft {input : Int} (hinput : |input| ≤ 2 ^ 26) :
    ch.panLeft input = some (input * (128 - ch.pan : Int) / 1024) ∧
      |input * (128 - ch.pan : Int) / 1024| ≤ 2 ^ 23 := by
  have hpan := h.pan
  exact panned_eq hinput (abs_le.mpr ⟨by omega, by omega⟩)

theorem Tuned.panRight {input : Int} (hinput : |input| ≤ 2 ^ 26) :
    ch.panRight input = some (input * ch.pan / 1024) ∧ |input * ch.pan / 1024| ≤ 2 ^ 23 :=
  panned_eq hinput (abs_natCast_le h.pan)

/-- A channel adds at most `2 ^ 23` to a side. -/
theorem Tuned.panOutputStored {input : Int} (hinput : |input| ≤ 2 ^ 26) {out : Int × Int} {k : Int}
    (hk : k ≤ 15) (hleft : |out.1| ≤ k * 2 ^ 23) (hright : |out.2| ≤ k * 2 ^ 23) :
    ch.panOutputStored input out = some (ch.panOutput input out) ∧
      |(ch.panOutput input out).1| ≤ (k + 1) * 2 ^ 23 ∧
      |(ch.panOutput input out).2| ≤ (k + 1) * 2 ^ 23 := by
  obtain ⟨hpanLeft, hsumLeft⟩ := h.panLeft hinput
  obtain ⟨hpanRight, hsumRight⟩ := h.panRight hinput
  replace hsumLeft := abs_add_le_of_le hleft hsumLeft
  replace hsumRight := abs_add_le_of_le hright hsumRight
  rw [← add_one_mul] at hsumLeft hsumRight
  have hle : (k + 1) * 2 ^ 23 ≤ 2 ^ 27 := by omega
  refine ⟨?_, hsumLeft, hsumRight⟩
  unfold Channel.panOutputStored
  rw [hpanLeft, hpanRight]
  change (stored 32 (out.1 + input * (128 - ch.pan : Int) / 1024)).bind (fun left =>
    (stored 32 (out.2 + input * ch.pan / 1024)).bind fun right => some (left, right)) = _
  rw [stored_of_abs (hsumLeft.trans hle) (by decide), stored_of_abs (hsumRight.trans hle) (by decide)]
  rfl

end Channel

namespace SpuState

/-- What channel `i` does to the sums. -/
def mixStep (s : SpuState) (view : Fin 16 → UInt32 → UInt32) (out : Int × Int) (i : Fin 16) :
    Int × Int :=
  if s.keptOut i then out
  else ((s.channel i).run (view i)).2.panOutput ((s.channel i).run (view i)).1 out

instance (s : SpuState) (view : Fin 16 → UInt32 → UInt32) : RightCommutative (s.mixStep view) where
  right_comm out i j := by
    unfold mixStep Channel.panOutput
    split
    · rfl
    split
    · rfl
    · exact Prod.ext (add_right_comm _ _ _) (add_right_comm _ _ _)

theorem mixedOutput_eq (s : SpuState) (view : Fin 16 → UInt32 → UInt32) :
    s.mixedOutput view = mixOrder.foldl (s.mixStep view) (0, 0) := by
  have horder : mixOrder.Perm (List.finRange 16) := by decide
  rw [horder.foldl_eq]
  rfl

section Sums

variable {s : SpuState} (h : s.Tuned) (view : Fin 16 → UInt32 → UInt32)

include h

/-- The sums after some of the channels. -/
theorem Tuned.mixedStored_fold (l : List (Fin 16)) {k : Nat} (hk : k + l.length ≤ 16)
    {out : Int × Int} (hleft : |out.1| ≤ k * 2 ^ 23) (hright : |out.2| ≤ k * 2 ^ 23) :
    l.foldlM (fun out i => do
        let value ← (s.channel i).runStored (view i)
        if s.keptOut i then some out
        else ((s.channel i).run (view i)).2.panOutputStored value out) out =
      some (l.foldl (s.mixStep view) out) ∧
      |(l.foldl (s.mixStep view) out).1| ≤ 2 ^ 27 ∧ |(l.foldl (s.mixStep view) out).2| ≤ 2 ^ 27 := by
  induction l generalizing k out with
  | nil => exact ⟨rfl, hleft.trans (by omega), hright.trans (by omega)⟩
  | cons i l ih =>
      rw [List.length_cons] at hk
      obtain ⟨hvalue, hbound⟩ := (h.channel i).runStored (view i)
      rw [List.foldlM_cons, hvalue, List.foldl_cons]
      unfold mixStep
      by_cases hout : s.keptOut i
      · rw [if_pos hout]
        change (if s.keptOut i then some out else _).bind _ = _ ∧ _
        rw [if_pos hout]
        exact ih (k := k) (by omega) hleft hright
      · rw [if_neg hout]
        obtain ⟨hstep, hleft', hright'⟩ := ((h.channel i).run (view i)).panOutputStored hbound
          (by omega : (k : Int) ≤ 15) hleft hright
        change (if s.keptOut i then some out else _).bind _ = _ ∧ _
        rw [if_neg hout, hstep]
        exact ih (k := k + 1) (by omega) (by push_cast; exact hleft') (by push_cast; exact hright')

theorem Tuned.mixedStored :
    s.mixedStored view = some (s.mixedOutput view) ∧ |(s.mixedOutput view).1| ≤ 2 ^ 27 ∧
      |(s.mixedOutput view).2| ≤ 2 ^ 27 := by
  rw [mixedOutput_eq]
  exact h.mixedStored_fold view mixOrder (k := 0) (by decide) (by decide) (by decide)

omit h in
theorem capturedStored_eq (side : Int) :
    capturedStored side = some (clampSample side) ∧ InBits 16 (clampSample side) := by
  have hlow : -0x8000 ≤ clampSample side := le_max_left _ _
  have hhigh : clampSample side ≤ 0x7FFF := max_le (by decide) (min_le_left _ _)
  have hsample : InBits 16 (clampSample side) := ⟨hlow, by omega⟩
  have hbyte : InBits 8 (clampSample side / 256) := ⟨by omega, by omega⟩
  refine ⟨?_, hsample⟩
  unfold capturedStored stored
  rw [if_pos hsample]
  change (if InBits 8 (clampSample side / 256) then some (clampSample side / 256) else none).bind _ =
    some (clampSample side)
  rw [if_pos hbyte]
  rfl

omit h in
theorem outputSource_eq (source : Nat) {mixed first third : Int} (hmixed : |mixed| ≤ 2 ^ 27)
    (hfirst : |first| ≤ 2 ^ 23) (hthird : |third| ≤ 2 ^ 23) :
    ∃ out, outputSource source mixed (some first) (some third) = some out ∧ |out| ≤ 2 ^ 27 := by
  match source with
  | 0 => exact ⟨mixed, rfl, hmixed⟩
  | 1 => exact ⟨first, rfl, hfirst.trans (by decide)⟩
  | 2 => exact ⟨third, rfl, hthird.trans (by decide)⟩
  | _ + 3 =>
      have hsum := abs_add_le_of_le hfirst hthird
      exact ⟨first + third, stored_of_abs hsum (by decide), hsum.trans (by decide)⟩

theorem Tuned.outputStored {side : Int} (hside : |side| ≤ 2 ^ 27) :
    ∃ out, s.outputStored side = some out ∧ InBits 16 out := by
  have hproduct := abs_mul_le hside (abs_natCast_le h.masterVolume)
  have hbias := h.bias
  unfold SpuState.outputStored
  rw [stored_of_abs hproduct (by decide)]
  generalize side * (s.masterVolume : Int) = product at hproduct
  obtain ⟨hlow, hhigh⟩ := abs_le.mp hproduct
  have hscaled : InBits 32 (product / 128) := ⟨by omega, by omega⟩
  have hshifted : InBits 32 ((s.bias.toNat : Int) * 64) := ⟨by omega, by omega⟩
  have hraised : InBits 32 (product / 128 / 256 + (s.bias.toNat : Int) * 64) := ⟨by omega, by omega⟩
  have hbiased : InBits 32 (product / 128 / 256 + (s.bias.toNat : Int) * 64 - 0x8000) :=
    ⟨by omega, by omega⟩
  have hout : InBits 16 (max (-0x8000) (min 0x7FFF
      (product / 128 / 256 + (s.bias.toNat : Int) * 64 - 0x8000)) / 64 * 64 / 2) :=
    ⟨by omega, by omega⟩
  exact ⟨_, by simp [stored, hscaled, hshifted, hraised, hbiased, hout], hout⟩

/-- Every value of a mixer step fits the type it is stored in. -/
theorem Tuned.mixStored :
    ∃ sound, s.mixStored view = some sound ∧
      (s.cnt &&& 0x8000 ≠ 0 → sound.mixed = s.mixedOutput view) ∧
      (InBits 16 sound.captured.1 ∧ InBits 16 sound.captured.2) ∧
      InBits 16 sound.output.1 ∧ InBits 16 sound.output.2 := by
  have hzero : |(0 : Int)| ≤ 2 ^ 27 := by decide
  unfold SpuState.mixStored
  by_cases hon : s.cnt &&& 0x8000 ≠ 0
  · obtain ⟨hfirst, hfirstBound⟩ := (h.channel 1).runStored (view 1)
    obtain ⟨hthird, hthirdBound⟩ := (h.channel 3).runStored (view 3)
    obtain ⟨hmixed, hleftBound, hrightBound⟩ := h.mixedStored view
    obtain ⟨hleftCaptured, hleftSample⟩ := capturedStored_eq (s.mixedOutput view).1
    obtain ⟨hrightCaptured, hrightSample⟩ := capturedStored_eq (s.mixedOutput view).2
    -- the output reads the registers the capture units leave
    have hafter := h.mix view
    obtain ⟨hleftFirst, hleftFirstBound⟩ := (hafter.channel 1).panLeft hfirstBound
    obtain ⟨hleftThird, hleftThirdBound⟩ := (hafter.channel 3).panLeft hthirdBound
    obtain ⟨hrightFirst, hrightFirstBound⟩ := (hafter.channel 1).panRight hfirstBound
    obtain ⟨hrightThird, hrightThirdBound⟩ := (hafter.channel 3).panRight hthirdBound
    obtain ⟨left, hleft, hleftLe⟩ := outputSource_eq ((s.mix view).cnt.toNat / 256 % 4) hleftBound
      hleftFirstBound hleftThirdBound
    obtain ⟨right, hright, hrightLe⟩ := outputSource_eq ((s.mix view).cnt.toNat / 1024 % 4)
      hrightBound hrightFirstBound hrightThirdBound
    obtain ⟨leftOut, hleftOut, hleftFits⟩ := hafter.outputStored hleftLe
    obtain ⟨rightOut, hrightOut, hrightFits⟩ := hafter.outputStored hrightLe
    refine ⟨⟨s.mixedOutput view,
        (clampSample (s.mixedOutput view).1, clampSample (s.mixedOutput view).2),
        (leftOut, rightOut)⟩,
      ?_, fun _ => rfl, ⟨hleftSample, hrightSample⟩, hleftFits, hrightFits⟩
    rw [if_pos hon]
    simp only [Option.bind_eq_bind, Option.bind_some, hfirst, hthird, hmixed, hleftCaptured,
      hrightCaptured, hleftFirst, hleftThird, hrightFirst, hrightThird, hleft, hright, hleftOut,
      hrightOut]
    rfl
  · obtain ⟨out, hout, hfits⟩ := h.outputStored hzero
    refine ⟨⟨(0, 0), (0, 0), (out, out)⟩, ?_, fun h => absurd h hon, ⟨inBits_zero, inBits_zero⟩,
      hfits, hfits⟩
    rw [if_neg hon, hout]
    rfl

end Sums

/-! ### Runs -/

theorem ndsSpuReset_tuned : ndsSpuReset.Tuned where
  channel := fun _ => Channel.setCnt_tuned inBits_zero 0
  masterVolume := Nat.zero_le _
  bias := Nat.zero_le _

/-- What the loader accepts is in range. -/
theorem import_tuned {saved : NdsSpuSaveState} {loaded : SpuState}
    (hload : spuSavestateImport saved = .ok loaded)
    (hsample : ∀ i, InBits 16 (saved.channel i).sample) : loaded.Tuned := by
  have hvalid : spuSavestateValidate saved = .ok () := by
    cases hresult : spuSavestateValidate saved with
    | ok => rfl
    | error message =>
        unfold spuSavestateImport at hload
        rw [hresult] at hload
        cases hload
  have hbias : saved.bias.toNat ≤ 0x3FF := by
    by_contra hover
    have hbad : saved.cnt &&& ~~~0xBF7F ≠ 0 ∨ saved.bias > 0x3FF :=
      .inr (UInt16.lt_iff_toNat_lt.mpr (Nat.lt_of_not_le hover))
    unfold spuSavestateValidate at hvalid
    rw [if_pos hbad] at hvalid
    cases hvalid
  unfold spuSavestateImport at hload
  rw [hvalid] at hload
  obtain rfl := Except.ok.inj hload
  refine Tuned.setGlobal ⟨fun i => ?_, Nat.zero_le _, hbias⟩ _
  have hset : (({ num := i } : Channel).setCnt (saved.channel i).cnt).Tuned :=
    Channel.setCnt_tuned inBits_zero _
  exact ⟨hset.volume, hset.volumeShift, hset.pan, hsample i⟩

theorem mixerSystem_tuned : mixerSystem.Invariant Tuned where
  start := by
    rintro s rfl
    exact ndsSpuReset_tuned
  step := by
    intro s op hs hadmits
    cases op with
    | device op =>
        cases op with
        | write addr value width => exact hs.ndsSpuWrite addr value width
        | read addr width => exact hs
        | mix view =>
            have hmixed := hs.mix view
            exact ⟨hmixed.channel, hmixed.masterVolume, hmixed.bias⟩
    | restore saved =>
        change (s.nextMixer (.restore saved)).Tuned
        unfold nextMixer
        dsimp only
        split
        · next loaded hload => exact import_tuned hload hadmits
        · exact hs

end SpuState

/-- In every reachable state, whatever the bus answers, no value of the mixer
step overflows, and the sums are those the capture units are given. -/
theorem mixer_never_overflows {s : SpuState} (hs : mixerSystem.Reachable s)
    (view : Fin 16 → UInt32 → UInt32) :
    ∃ sound, s.mixStored view = some sound ∧
      (s.cnt &&& 0x8000 ≠ 0 → sound.mixed = s.mixedOutput view) ∧
      (InBits 16 sound.captured.1 ∧ InBits 16 sound.captured.2) ∧
      InBits 16 sound.output.1 ∧ InBits 16 sound.output.2 :=
  (hs.invariant SpuState.mixerSystem_tuned).mixStored view

/-- A square wave at full volume on channel 8, on one side. -/
theorem squareWave_fits :
    ∃ sound, (mixerSystem.runFrom SpuState.ndsSpuReset
        [.device (.write 0x04000500 0x807F 2), .device (.write 0x04000480 0xE07F007F 4)]).mixStored
          (fun _ _ => 0) = some sound ∧ InBits 16 sound.output.1 := by
  have hstart : mixerSystem.Reachable SpuState.ndsSpuReset := .start rfl
  have hall : mixerSystem.AdmitsAll SpuState.ndsSpuReset
      [.device (.write 0x04000500 0x807F 2), .device (.write 0x04000480 0xE07F007F 4)] :=
    ⟨trivial, trivial, trivial⟩
  obtain ⟨sound, hsound, -, -, hout, -⟩ := mixer_never_overflows (hstart.runFrom hall) fun _ _ => 0
  exact ⟨sound, hsound, hout⟩

end NdsRecomp.Spu
