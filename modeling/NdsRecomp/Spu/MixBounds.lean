import NdsRecomp.Spu.MixArithmetic

/-!
No value of a mixer step overflows its type. The registers bound every factor:
a channel puts out at most `2 ^ 26`, a side of the sixteen at most `2 ^ 27`.
-/

namespace NdsRecomp.Spu

open Library

/-! ### Bounds of products and quotients -/

theorem stored_of_abs {bits : Nat} {value bound : Int} (h : |value| ≤ bound)
    (hbound : bound < 2 ^ (bits - 1)) : stored bits value = some value := by
  obtain ⟨hlow, hhigh⟩ := abs_le.mp h
  exact if_pos ⟨by omega, by omega⟩

theorem abs_mul_le {a b x y : Int} (ha : |a| ≤ x) (hb : |b| ≤ y) : |a * b| ≤ x * y := by
  rw [abs_mul]
  exact mul_le_mul ha hb (abs_nonneg b) ((abs_nonneg a).trans ha)

theorem abs_natCast_le {n bound : Nat} (h : n ≤ bound) : |(n : Int)| ≤ bound := by
  rw [Nat.abs_cast]
  exact Int.ofNat_le.mpr h

theorem abs_add_le_of_le {a b x y : Int} (ha : |a| ≤ x) (hb : |b| ≤ y) : |a + b| ≤ x + y :=
  (abs_add_le a b).trans (add_le_add ha hb)

theorem inBits_zero : InBits 16 0 := by decide

theorem inBits_low : InBits 16 (-0x7FFF) := by decide

theorem inBits_high : InBits 16 0x7FFF := by decide

/-! ### What the registers hold -/

namespace Channel

structure Tuned (ch : Channel) : Prop where
  volume : ch.volume ≤ 128
  volumeShift : ch.volumeShift ≤ 4
  pan : ch.pan ≤ 128
  sample : InBits 16 ch.sample

theorem and_toNat_le (value : UInt32) : (value &&& 0x7F).toNat ≤ 127 := by
  rw [UInt32.toNat_and]
  exact Nat.and_le_right

theorem setCnt_tuned {ch : Channel} (h : InBits 16 ch.sample) (value : UInt32) :
    (ch.setCnt value).Tuned := by
  refine ⟨?_, ?_, ?_, h⟩
  · have hle := and_toNat_le (value &&& 0xFF7F837F)
    unfold setCnt
    dsimp only
    split
    · omega
    · omega
  · unfold setCnt
    dsimp only
    split <;> decide
  · have hle := and_toNat_le ((value &&& 0xFF7F837F) >>> 16)
    unfold setCnt
    dsimp only
    split
    · omega
    · omega

theorem bmod_inBits (value : Int) : InBits 16 (value.bmod 65536) :=
  ⟨Int.le_bmod (by decide), Int.bmod_lt (by decide)⟩

theorem kPsg_inBits (duty phase : Nat) : InBits 16 (kPsg duty phase) := by
  unfold kPsg
  split
  · decide
  · split
    · decide
    · decide

section Samples

variable {ch : Channel} (h : ch.Tuned)

include h

theorem Tuned.setSample {sample : Int} (hsample : InBits 16 sample) :
    (ch.setSample sample).Tuned :=
  ⟨h.volume, h.volumeShift, h.pan, hsample⟩

theorem Tuned.stop : ch.stop.Tuned :=
  ⟨h.volume, h.volumeShift, h.pan, inBits_zero⟩

theorem Tuned.fetched (read : UInt32 → UInt32) (size : Nat) : (ch.fifoReadValue read size).2.Tuned := by
  obtain ⟨_, _, _, _, _, _, heq⟩ := fifoReadValue_same read size ch
  rw [heq]
  exact ⟨h.volume, h.volumeShift, h.pan, h.sample⟩

theorem Tuned.setPos (pos : Int) : ({ ch with pos } : Channel).Tuned :=
  ⟨h.volume, h.volumeShift, h.pan, h.sample⟩

theorem Tuned.fetchPcm8 (read : UInt32 → UInt32) : (ch.fetchPcm8 read).Tuned := by
  have hlow := Int.le_bmod (x := ((ch.fifoReadValue read 1).1 : Int)) (m := 256) (by decide)
  have hhigh := Int.bmod_lt (x := ((ch.fifoReadValue read 1).1 : Int)) (m := 256) (by decide)
  exact (h.fetched read 1).setSample ⟨by omega, by omega⟩

theorem Tuned.fetchPcm16 (read : UInt32 → UInt32) : (ch.fetchPcm16 read).Tuned :=
  (h.fetched read 2).setSample (bmod_inBits _)

theorem Tuned.soundAdpcm : ch.soundAdpcm.Tuned :=
  ⟨h.volume, h.volumeShift, h.pan, bmod_inBits _⟩

theorem Tuned.setAdpcmByte (adpcmByte : Nat) : (ch.setAdpcmByte adpcmByte).Tuned :=
  ⟨h.volume, h.volumeShift, h.pan, h.sample⟩

theorem Tuned.setAdpcmStart (value index : Int) : (ch.setAdpcmStart value index).Tuned :=
  ⟨h.volume, h.volumeShift, h.pan, h.sample⟩

theorem Tuned.fetchAdpcmByte (read : UInt32 → UInt32) : (ch.fetchAdpcmByte read).Tuned :=
  (h.fetched read 1).setAdpcmByte _

theorem Tuned.readHeader (read : UInt32 → UInt32) : (ch.readHeader read).Tuned :=
  (h.fetched read 4).setAdpcmStart _ _

theorem Tuned.takeNibble (read : UInt32 → UInt32) : (ch.takeNibble read).Tuned := by
  unfold Channel.takeNibble
  split
  · exact h.fetchAdpcmByte read
  · exact h.setAdpcmByte _

theorem Tuned.decodeNibble : ch.decodeNibble.Tuned := by
  unfold Channel.decodeNibble
  dsimp only
  split
  · exact ⟨h.volume, h.volumeShift, h.pan, h.sample⟩
  · exact ⟨h.volume, h.volumeShift, h.pan, h.sample⟩

theorem Tuned.rewindAdpcm : ch.rewindAdpcm.Tuned :=
  ⟨h.volume, h.volumeShift, h.pan, h.sample⟩

theorem Tuned.nextPcm8 (read : UInt32 → UInt32) : (ch.nextPcm8 read).Tuned := by
  have hadvanced : ch.advance.Tuned := h.setPos _
  unfold Channel.nextPcm8
  dsimp only
  split
  · exact hadvanced
  split
  · split
    · exact (hadvanced.setPos _).fetchPcm8 read
    split
    · exact hadvanced.stop
    · exact hadvanced.fetchPcm8 read
  · exact hadvanced.fetchPcm8 read

theorem Tuned.nextPcm16 (read : UInt32 → UInt32) : (ch.nextPcm16 read).Tuned := by
  have hadvanced : ch.advance.Tuned := h.setPos _
  unfold Channel.nextPcm16
  dsimp only
  split
  · exact hadvanced
  split
  · split
    · exact (hadvanced.setPos _).fetchPcm16 read
    split
    · exact hadvanced.stop
    · exact hadvanced.fetchPcm16 read
  · exact hadvanced.fetchPcm16 read

theorem Tuned.nextAdpcm (read : UInt32 → UInt32) : (ch.nextAdpcm read).Tuned := by
  have hadvanced : ch.advance.Tuned := h.setPos _
  unfold Channel.nextAdpcm
  dsimp only
  split
  · split
    · exact hadvanced.readHeader read
    · exact hadvanced
  split
  · split
    · exact (hadvanced.rewindAdpcm.fetchAdpcmByte read).soundAdpcm
    split
    · exact hadvanced.stop
    · exact hadvanced.soundAdpcm
  · exact (hadvanced.takeNibble read).decodeNibble.soundAdpcm

theorem Tuned.nextNoise : ch.nextNoise.Tuned := by
  unfold Channel.nextNoise
  split
  · exact ⟨h.volume, h.volumeShift, h.pan, inBits_low⟩
  · exact ⟨h.volume, h.volumeShift, h.pan, inBits_high⟩

theorem Tuned.next (read : UInt32 → UInt32) (type : SampleType) :
    (Channel.next read type ch).Tuned := by
  cases type with
  | pcm8 => exact h.nextPcm8 read
  | pcm16 => exact h.nextPcm16 read
  | adpcm => exact h.nextAdpcm read
  | psg => exact ⟨h.volume, h.volumeShift, h.pan, kPsg_inBits _ _⟩
  | noise => exact h.nextNoise

omit h in
theorem Tuned.runSamples (read : UInt32 → UInt32) (type : SampleType) (rounds : Nat) {ch : Channel}
    (h : ch.Tuned) : (Channel.runSamples read type rounds ch).Tuned := by
  induction rounds generalizing ch with
  | zero => exact h
  | succ rounds ih =>
      unfold Channel.runSamples
      split
      · have hlowered : ({ ch with timer := ch.reload.toNat + (ch.timer - 65536) } : Channel).Tuned :=
          ⟨h.volume, h.volumeShift, h.pan, h.sample⟩
        exact ih (hlowered.next read type)
      · exact h

theorem Tuned.start (read : UInt32 → UInt32) : (ch.start read).Tuned := by
  obtain ⟨_, _, _, _, _, heq⟩ := start_same read ch
  rw [heq]
  exact ⟨h.volume, h.volumeShift, h.pan, inBits_zero⟩

theorem Tuned.runType (read : UInt32 → UInt32) (type : SampleType) :
    (ch.runType read type).2.Tuned := by
  unfold Channel.runType
  split
  · exact h
  split
  · exact h
  dsimp only
  have hkeyed : (if ch.keyOn then { ch.start read with keyOn := false } else ch).Tuned := by
    split
    · have hstart := h.start read
      exact ⟨hstart.volume, hstart.volumeShift, hstart.pan, hstart.sample⟩
    · exact h
  refine Tuned.runSamples read type _ ?_
  exact ⟨hkeyed.volume, hkeyed.volumeShift, hkeyed.pan, hkeyed.sample⟩

theorem Tuned.run (read : UInt32 → UInt32) : (ch.run read).2.Tuned := by
  unfold Channel.run
  split
  · exact h.runType read _
  · exact h

/-! ### What a channel puts out -/

theorem Tuned.abs_sample : |ch.sample| ≤ 2 ^ 15 := by
  obtain ⟨hlow, hhigh⟩ := h.sample
  exact abs_le.mpr ⟨hlow, hhigh.le⟩

theorem Tuned.amplified :
    ch.amplified = some (ch.sample * 2 ^ ch.volumeShift * ch.volume) ∧
      |ch.sample * 2 ^ ch.volumeShift * ch.volume| ≤ 2 ^ 26 := by
  have hshift : |(2 : Int) ^ ch.volumeShift| ≤ 2 ^ 4 := by
    rw [abs_of_pos (by positivity)]
    exact pow_le_pow_right₀ (by decide) h.volumeShift
  have hvalue := abs_mul_le h.abs_sample hshift
  have hout := abs_mul_le hvalue (abs_natCast_le h.volume)
  refine ⟨?_, hout⟩
  unfold Channel.amplified
  rw [stored, if_pos h.sample]
  change (stored 32 (ch.sample * 2 ^ ch.volumeShift)).bind _ = _
  rw [stored_of_abs hvalue (by decide)]
  exact stored_of_abs hout (by decide)

omit h in
theorem silent : |(0 : Int)| ≤ 2 ^ 26 := by decide

theorem Tuned.runTypeStored (read : UInt32 → UInt32) (type : SampleType) :
    ch.runTypeStored read type = some (ch.runType read type).1 ∧
      |(ch.runType read type).1| ≤ 2 ^ 26 := by
  have htuned := h.runType read type
  unfold Channel.runTypeStored
  by_cases hoff : (!ch.enabled) = true
  · have hrun : ch.runType read type = (0, ch) := if_pos hoff
    rw [if_pos hoff, hrun]
    exact ⟨rfl, silent⟩
  by_cases hshort : (fed type && decide (ch.total < 16)) = true
  · have hrun : ch.runType read type = (0, ch) := (if_neg hoff).trans (if_pos hshort)
    rw [if_neg hoff, if_pos hshort, hrun]
    exact ⟨rfl, silent⟩
  · have hvalue : (ch.runType read type).1 = (ch.runType read type).2.sample *
        2 ^ (ch.runType read type).2.volumeShift * (ch.runType read type).2.volume := by
      unfold Channel.runType
      rw [if_neg hoff, if_neg hshort]
    rw [if_neg hoff, if_neg hshort, hvalue]
    exact htuned.amplified

theorem Tuned.runStored (read : UInt32 → UInt32) :
    ch.runStored read = some (ch.run read).1 ∧ |(ch.run read).1| ≤ 2 ^ 26 := by
  unfold Channel.runStored Channel.run
  cases ch.sampleType with
  | some type => exact h.runTypeStored read type
  | none => exact ⟨rfl, silent⟩

end Samples

end Channel

end NdsRecomp.Spu
