import NdsRecomp.Spu.ChannelCursor

/-!
A channel over one mixer step. A step is proper when the position keeps to 32
bits and the ring, with what is left of the source, holds what the playhead
will fetch; the channel it leaves is one the loader takes back.
-/

namespace NdsRecomp.Spu

open Library

namespace Channel

/-- A channel the loader accepts, with its ring never left. -/
structure Savable (ch : Channel) : Prop where
  ring : ch.Ring
  index : ch.IndexInRange
  low : -3 ≤ ch.pos
  high : ch.pos < 2 ^ 31
  cnt : ch.cnt &&& ~~~0xFF7F837F = 0
  src : ch.src &&& ~~~0x07FFFFFC = 0
  timer : ch.timer ≤ 0xFFFF
  even : ch.format = 1 → ch.fifoRead % 2 = 0
  header : ch.format = 2 → ch.pos < 8 → ch.fifoRead % 4 = 0

theorem Savable.validate {ch : Channel} (h : ch.Savable) : ch.exported.validate = .ok () := by
  have hring := h.ring
  have hindex := h.index
  have hread := hring.read
  have hwrite := hring.write
  have hlevel := hring.level
  have hbalance := hring.balance
  have hlow := h.low
  have hkey : ¬ (if ch.keyOn then (1 : UInt8) else 0) > 1 := by
    cases ch.keyOn <;> decide
  have hstate : ¬ ch.exported.InvalidState := by
    rintro (hbad | hbad | hbad | hbad | hbad | hbad | hbad | hbad | hbad | hbad | hbad | hbad |
      hbad | hbad | hbad | hbad | hbad | hbad | hbad)
    · exact hbad h.cnt
    · exact hbad h.src
    · exact absurd hring.loop (Nat.not_le.mpr hbad)
    · exact hbad hring.loopAligned
    · exact absurd hring.length (Nat.not_le.mpr hbad)
    · exact hbad hring.lengthAligned
    · exact hkey hbad
    · exact absurd h.timer (Nat.not_le.mpr hbad)
    · exact absurd hlow (Int.not_le.mpr hbad)
    · exact absurd hindex.index.1 (Int.not_le.mpr hbad)
    · exact absurd hindex.index.2 (Int.not_le.mpr hbad)
    · exact absurd hindex.loopIndex.1 (Int.not_le.mpr hbad)
    · exact absurd hindex.loopIndex.2 (Int.not_le.mpr hbad)
    · exact absurd hread (Nat.not_lt.mpr hbad)
    · exact absurd hwrite (Nat.not_lt.mpr hbad)
    · exact absurd hlevel (Nat.not_le.mpr hbad)
    · change (ch.fifoWrite + 32 - ch.fifoRead) % 32 ≠ ch.fifoLevel % 32 at hbad
      omega
    · exact hbad hring.offsetAligned
    · exact absurd hring.offset (Nat.not_le.mpr hbad)
  have hcursor : ¬ ch.exported.InvalidCursor := by
    rintro (hbad | ⟨hformat, hbad⟩ | ⟨hformat, hpos, hbad⟩)
    · exact hbad hring.writeAligned
    · exact hbad (h.even hformat)
    · exact hbad (h.header hformat hpos)
  unfold NdsSpuChannelSaveState.validate
  rw [if_neg hstate, if_neg hcursor]

/-! ### One sample -/

/-- The registers a sample leaves alone, and the bit it may clear. -/
structure SameSettings (a b : Channel) : Prop where
  num : b.num = a.num
  src : b.src = a.src
  reload : b.reload = a.reload
  keyOn : b.keyOn = a.keyOn
  timer : b.timer = a.timer
  cnt : b.cnt = a.cnt ∨ b.cnt = a.stop.cnt

theorem Retuned.settings {a b : Channel} (h : Retuned a b) : SameSettings a b where
  num := congrArg Carried.num h.carried
  src := congrArg Carried.src h.carried
  reload := congrArg Carried.reload h.carried
  keyOn := congrArg Carried.keyOn h.carried
  timer := congrArg Carried.timer h.carried
  cnt := h.cnt

theorem stop_cnt_congr {a b : Channel} (h : a.cnt = b.cnt) : a.stop.cnt = b.stop.cnt :=
  congrArg (· &&& ~~~(0x80000000 : UInt32)) h

theorem stop_stop_cnt (ch : Channel) : ch.stop.stop.cnt = ch.stop.cnt := by
  change (ch.cnt &&& ~~~0x80000000) &&& ~~~0x80000000 = ch.cnt &&& ~~~0x80000000
  rw [UInt32.and_assoc, UInt32.and_self]

theorem SameSettings.trans {a b c : Channel} (hab : SameSettings a b) (hbc : SameSettings b c) :
    SameSettings a c := by
  refine ⟨hbc.num.trans hab.num, hbc.src.trans hab.src, hbc.reload.trans hab.reload,
    hbc.keyOn.trans hab.keyOn, hbc.timer.trans hab.timer, ?_⟩
  rcases hbc.cnt with hc | hc
  · rw [hc]
    exact hab.cnt
  · right
    rcases hab.cnt with hb | hb
    · rw [hc, stop_cnt_congr hb]
    · rw [hc, stop_cnt_congr hb, stop_stop_cnt]

theorem fetched_settings (read : UInt32 → UInt32) (k : Nat) (ch : Channel) :
    SameSettings ch (fifoReadValue read k ch).2 := by
  obtain ⟨_, _, _, _, _, _, heq⟩ := fifoReadValue_same read k ch
  rw [heq]
  exact ⟨rfl, rfl, rfl, rfl, rfl, Or.inl rfl⟩

theorem Moved.settings {read : UInt32 → UInt32} {type : SampleType} {ch ch' : Channel}
    (h : Moved read type ch ch') : SameSettings ch ch' := by
  rcases h.bytes with ⟨-, hret⟩ | ⟨-, mid, hmid, hafter⟩
  · exact hret.settings
  · exact (hmid.settings.trans (fetched_settings read _ mid)).trans hafter.settings

theorem Sounding.moved {type : SampleType} {n : Nat} {ch : Channel}
    (h : Sounding type (n + 1) ch) (read : UInt32 → UInt32) :
    Moved read type ch (next read type ch) := by
  have hcounts := h.counts.1
  have hlow := h.low
  cases type with
  | pcm8 => exact nextPcm8_moved read hlow (hcounts.resolve_left (by simp [playback]))
  | pcm16 => exact nextPcm16_moved read hlow (hcounts.resolve_left (by simp [playback]))
  | adpcm => exact nextAdpcm_moved read hlow (hcounts.resolve_left (by simp [playback]))
  | psg =>
      have hcount : ch.pos + 1 < 2 ^ 31 := hcounts.resolve_left (by simp [playback])
      have hret : Retuned ch ch.nextPsg := by
        unfold nextPsg
        rw [advance_eq hlow hcount]
        exact (retuned_pos ch _).trans (retuned_setSample _ _)
      refine .noFetch hret ?_
      change (ch.pos + 1, 0) = (ch.nextPsg.pos, 0)
      unfold nextPsg
      rw [advance_eq hlow hcount]
  | noise =>
      have hret : Retuned ch ch.nextNoise := by
        unfold nextNoise
        split
        · exact ⟨rfl, Or.inl rfl, fun hin => ⟨hin.index, hin.loopIndex⟩⟩
        · exact ⟨rfl, Or.inl rfl, fun hin => ⟨hin.index, hin.loopIndex⟩⟩
      refine .noFetch hret ?_
      change (ch.pos, 0) = (ch.nextNoise.pos, 0)
      unfold nextNoise
      split
      · rfl
      · rfl

/-! ### The timer loop -/

theorem Sounding.setTimer {type : SampleType} {n : Nat} {ch : Channel} (h : Sounding type n ch)
    (timer : Nat) : Sounding type n { ch with timer } :=
  ⟨{ h.ring with }, h.low, h.high, ⟨h.index.index, h.index.loopIndex⟩, h.even, h.header, h.serves,
    h.counts, h.loopHead⟩

/-- The loop plays exactly the samples the timer has come to, and leaves it
below its overflow. -/
theorem runSamples_sounding (read : UInt32 → UInt32) (type : SampleType) (rounds : Nat)
    (ch : Channel) (hrounds : ch.timer ≤ 0xFFFF + rounds)
    (h : Sounding type (overflows 65536 ch.reload.toNat ch.timer) ch) :
    Sounding type 0 (runSamples read type rounds ch) ∧
      (runSamples read type rounds ch).timer ≤ 0xFFFF ∧
      ∃ timer, SameSettings { ch with timer } (runSamples read type rounds ch) ∧
        (runSamples read type rounds ch).playback type = ch.playback type := by
  induction rounds generalizing ch with
  | zero =>
      have hlt : ch.timer < 65536 := by omega
      rw [overflows_of_lt hlt] at h
      exact ⟨h, hrounds, ch.timer, ⟨rfl, rfl, rfl, rfl, rfl, Or.inl rfl⟩, rfl⟩
  | succ rounds ih =>
      have hreload : ch.reload.toNat < 65536 := ch.reload.toNat_lt
      unfold runSamples
      split
      · next hover =>
          have hge : 65536 ≤ ch.timer := by omega
          rw [overflows_step hreload hge] at h
          obtain ⟨lowered, hlowered⟩ : ∃ lowered, lowered = ch.reload.toNat + (ch.timer - 65536) :=
            ⟨_, rfl⟩
          rw [← hlowered] at h ⊢
          have hset := h.setTimer lowered
          have hmoved := hset.moved read
          have hnext := hset.next_of_moved hmoved
          have hsettings := hmoved.settings
          obtain ⟨-, hplayback, -⟩ := hset.fetched hmoved
          have htimer := hsettings.timer
          have hreload' := hsettings.reload
          dsimp only at htimer hreload'
          obtain ⟨hsounding, hlow, timer, hsame, hplayback'⟩ := ih _
            (by rw [htimer]; omega) (by rw [htimer, hreload']; exact hnext)
          refine ⟨hsounding, hlow, timer, ?_, hplayback'.trans hplayback⟩
          refine SameSettings.trans ?_ hsame
          exact ⟨hsettings.num, hsettings.src, hsettings.reload, hsettings.keyOn, rfl,
            hsettings.cnt⟩
      · next hover =>
          have hlt : ch.timer < 65536 := by omega
          rw [overflows_of_lt hlt] at h
          exact ⟨h, by omega, ch.timer, ⟨rfl, rfl, rfl, rfl, rfl, Or.inl rfl⟩, rfl⟩

/-! ### A mixer step -/

/-- What a channel starts its next mixer step with: from where it left off, or
from the start of its sound when the key has been set. -/
structure Cue where
  pos : Int
  timer : Nat
  held : Nat
  left : Nat

def cue (ch : Channel) : Cue :=
  if ch.keyOn then
    ⟨if ch.format = 3 then -1 else -3, ch.reload.toNat + 512, 16, ch.total - 16⟩
  else ⟨ch.pos, ch.timer + 512, ch.fifoLevel, ch.total - ch.sourceOffset⟩

/-- The samples of a step can be played: the position stays below 2^31, the
ring and the source hold what is fetched, and an ADPCM loop that starts at the
header does not come round. -/
structure CanPlay (p : Playback) (n : Nat) (cue : Cue) : Prop where
  counts : p.Counts n cue.pos
  serves : Serves p.Endless cue.held cue.left (p.fetches n cue.pos)
  loopHead : p.type = .adpcm → p.loops = true → p.loop = 0 → cue.pos + n < 2 * p.total

/-- The next mixer step finds the channel silent, or able to play. -/
def Playable (ch : Channel) : Prop :=
  ∀ type, ch.sampleType = some type → ch.enabled = true → (fed type = true → 16 ≤ ch.total) →
    CanPlay (ch.playback type) (overflows 65536 ch.reload.toNat ch.cue.timer) ch.cue

theorem sampleType_format {ch : Channel} {type : SampleType} (h : ch.sampleType = some type) :
    (ch.format = 1 → type = .pcm16) ∧ (ch.format = 2 → type = .adpcm) ∧
      (type = .pcm16 → ch.format = 1) ∧ (type = .adpcm → ch.format = 2) ∧
      (ch.format = 3 ↔ fed type = false) := by
  unfold sampleType at h
  split at h
  · next hformat =>
      obtain rfl := Option.some.inj h
      rw [hformat]
      decide
  · split at h
    · next hformat =>
        obtain rfl := Option.some.inj h
        rw [hformat]
        decide
    · split at h
      · next hformat =>
          obtain rfl := Option.some.inj h
          rw [hformat]
          decide
      · next hzero hone htwo =>
          have hthree : ch.format = 3 := by
            have hlt : ch.format.toNat < 4 := by
              unfold format
              rw [UInt32.toNat_and]
              exact Nat.lt_succ_of_le Nat.and_le_right
            rw [← UInt32.toNat_inj] at hzero hone htwo ⊢
            change ¬ ch.format.toNat = 0 at hzero
            change ¬ ch.format.toNat = 1 at hone
            change ¬ ch.format.toNat = 2 at htwo
            change ch.format.toNat = 3
            omega
          split at h
          · obtain rfl := Option.some.inj h
            rw [hthree]
            decide
          · split at h
            · obtain rfl := Option.some.inj h
              rw [hthree]
              decide
            · cases h

theorem cleared_ring {ch : Channel} (h : ch.Ring) : ch.cleared.Ring :=
  { h with
    read := Nat.zero_lt_succ _
    write := Nat.zero_lt_succ _
    writeAligned := rfl
    level := Nat.zero_le _
    balance := rfl
    offset := Nat.zero_le _
    offsetAligned := rfl }

theorem start_same (read : UInt32 → UInt32) (ch : Channel) :
    ∃ fifo inBounds offset write level, ch.start read =
      { ch.cleared with
        fifo, inBounds, sourceOffset := offset, fifoWrite := write, fifoLevel := level } := by
  unfold start
  split
  · obtain ⟨_, _, _, _, _, hfirst⟩ := bufferData_same read ch.cleared
    rw [hfirst]
    obtain ⟨_, _, _, _, _, hsecond⟩ := bufferData_same read
      { ch.cleared with
        fifo := _, inBounds := _, sourceOffset := _, fifoWrite := _, fifoLevel := _ }
    rw [hsecond]
    exact ⟨_, _, _, _, _, rfl⟩
  · exact ⟨_, _, _, _, _, rfl⟩

/-- Two bursts fill the ring for any first portion, and lose nothing. -/
theorem start_ring (read : UInt32 → UInt32) {ch : Channel} (h : ch.Ring) :
    (ch.start read).Ring ∧ (ch.format ≠ 3 → 16 ≤ ch.total → ∀ type,
      4 ≤ (ch.start read).fifoLevel ∧ (¬ (ch.playback type).Endless →
        (ch.start read).fifoLevel + (ch.total - (ch.start read).sourceOffset) = ch.total)) := by
  have hcleared := cleared_ring h
  have htotal : ch.cleared.total = ch.total := rfl
  unfold start
  split
  · have hfirst := bufferData_refilled read hcleared (Nat.zero_le _)
    have hlow : (bufferData read ch.cleared).fifoLevel ≤ 16 := hfirst.atMost
    have hsecond := bufferData_refilled read hfirst.ring hlow
    have hplayback (type : SampleType) :
        (bufferData read ch.cleared).playback type = ch.playback type := by
      obtain ⟨_, _, _, _, _, heq⟩ := bufferData_same read ch.cleared
      rw [heq]
      rfl
    refine ⟨hsecond.ring, fun _ hlong type => ?_⟩
    have htotal' : (bufferData read ch.cleared).total = ch.total :=
      congrArg Playback.total (hplayback type)
    rcases Classical.em (ch.playback type).Endless with hend | hend
    · have hgain := hsecond.endless type (hplayback type ▸ hend)
      exact ⟨by omega, fun hfinite => absurd hend hfinite⟩
    · obtain ⟨hkept, -⟩ := hfirst.finite type hend
      obtain ⟨hkept', htopped⟩ := hsecond.finite type (hplayback type ▸ hend)
      change _ = 0 + (ch.total - 0) at hkept
      rw [htotal] at hkept
      rw [htotal'] at hkept' htopped
      refine ⟨?_, fun _ => by omega⟩
      rcases Nat.eq_zero_or_pos (ch.total -
        (bufferData read (bufferData read ch.cleared)).sourceOffset) with hdone | hmore
      · omega
      · exact le_trans (by omega) (htopped (Nat.pos_iff_ne_zero.mp hmore))
  · next hthree => exact ⟨hcleared, fun hne => absurd hne hthree⟩

theorem fetches_unfed {p : Playback} (h : fed p.type = false) (n : Nat) (pos : Int) :
    p.fetches n pos = [] := by
  have hstep (pos : Int) : (p.step pos).2 = 0 := by
    unfold Playback.step
    cases htype : p.type with
    | psg => rfl
    | noise => rfl
    | pcm8 =>
        rw [htype] at h
        cases h
    | pcm16 =>
        rw [htype] at h
        cases h
    | adpcm =>
        rw [htype] at h
        cases h
  induction n generalizing pos with
  | zero => rfl
  | succ n ih =>
      rw [Playback.fetches, if_pos (hstep pos)]
      exact ih _

/-- The channel the timer loop of `run_type` starts from. -/
def cued (read : UInt32 → UInt32) (ch : Channel) : Channel :=
  if ch.keyOn then { ch.start read with keyOn := false } else ch

theorem cued_settings (read : UInt32 → UInt32) (ch : Channel) :
    (ch.cued read).cnt = ch.cnt ∧ (ch.cued read).src = ch.src ∧
      (ch.cued read).reload = ch.reload ∧ (ch.cued read).timer + 512 = ch.cue.timer ∧
      (ch.cued read).pos = ch.cue.pos ∧
      ∀ type, (ch.cued read).playback type = ch.playback type := by
  unfold cued cue
  split
  · obtain ⟨_, _, _, _, _, heq⟩ := start_same read ch
    rw [heq]
    exact ⟨rfl, rfl, rfl, rfl, rfl, fun _ => rfl⟩
  · exact ⟨rfl, rfl, rfl, rfl, rfl, fun _ => rfl⟩

theorem Savable.cued_sounding {ch : Channel} (h : ch.Savable) (read : UInt32 → UInt32)
    {type : SampleType} {n : Nat} (htype : ch.sampleType = some type)
    (hlong : fed type = true → 16 ≤ ch.total) (hplay : CanPlay (ch.playback type) n ch.cue) :
    Sounding type n (ch.cued read) := by
  obtain ⟨-, -, heven, hheader, hfed⟩ := sampleType_format htype
  obtain ⟨hcounts, hserves, hloopHead⟩ := hplay
  unfold cued
  unfold cue at hcounts hserves hloopHead
  split
  · next hkey =>
      rw [if_pos hkey] at hcounts hserves hloopHead
      have hstart := start_ring read h.ring
      obtain ⟨fifo, inBounds, offset, write, level, heq⟩ := start_same read ch
      rw [heq] at hstart ⊢
      obtain ⟨hring, hfull⟩ := hstart
      have hpos : (-3 : Int) ≤ (if ch.format = 3 then -1 else -3) ∧
          (if ch.format = 3 then (-1 : Int) else -3) < 2 ^ 31 := by
        split
        · decide
        · decide
      refine ⟨{ hring with }, hpos.1, hpos.2, ⟨h.index.index, h.index.loopIndex⟩, fun _ => rfl,
        fun _ _ => rfl, ?_, hcounts, hloopHead⟩
      cases hkind : fed type with
      | true =>
          have hne : ch.format ≠ 3 := fun hthree => by
            rw [hfed.mp hthree] at hkind
            cases hkind
          obtain ⟨hheld, hkept⟩ := hfull hne (hlong hkind) type
          refine ⟨fun k hk => ?_, ?_⟩
          · have hsmall := (ch.playback type).fetches_le n _ k (List.mem_of_mem_head? hk)
            exact hsmall.trans hheld
          · rcases Classical.em (ch.playback type).Endless with hend | hend
            · exact Or.inl hend
            · right
              have hall := hserves.2.resolve_left hend
              have hlong' := hlong hkind
              have hkept' := hkept hend
              dsimp only at hall hkept'
              change _ ≤ level + (ch.total - offset)
              exact hall.trans (by omega)
      | false =>
          have hnone := fetches_unfed (p := ch.playback type) hkind n
            (if ch.format = 3 then -1 else -3)
          change Serves _ _ _ ((ch.playback type).fetches n (if ch.format = 3 then -1 else -3))
          rw [hnone]
          exact ⟨fun k hk => absurd hk (by simp), Or.inr (Nat.zero_le _)⟩
  · next hkey =>
      rw [if_neg hkey] at hcounts hserves hloopHead
      exact ⟨h.ring, h.low, h.high, h.index, fun hpcm => h.even (heven hpcm),
        fun hadpcm => h.header (hheader hadpcm), hserves, hcounts, hloopHead⟩

theorem SameSettings.format_eq {a b : Channel} (h : SameSettings a b) : b.format = a.format := by
  rcases h.cnt with hcnt | hcnt
  · unfold format
    rw [hcnt]
  · rw [← stop_format a]
    unfold format
    rw [hcnt]

/-- A playable mixer step leaves a channel the loader accepts. -/
theorem Savable.runType {ch : Channel} (h : ch.Savable) (read : UInt32 → UInt32)
    {type : SampleType} (htype : ch.sampleType = some type) (hplay : ch.Playable) :
    (ch.runType read type).2.Savable := by
  unfold Channel.runType
  split
  · exact h
  · next henabled =>
      split
      · exact h
      · next hshort =>
          have hon : ch.enabled = true := by simpa using henabled
          have hlong (hfed : fed type = true) : 16 ≤ ch.total := by
            simpa [hfed] using hshort
          have hcan := hplay type htype hon hlong
          have hsounding := h.cued_sounding read htype hlong hcan
          obtain ⟨hcnt, hsrc, hreload, htimer, -, hplayback⟩ := cued_settings read ch
          change (runSamples read type ((ch.cued read).timer + 512)
            { ch.cued read with timer := (ch.cued read).timer + 512 }).Savable
          rw [← hreload, ← htimer] at hsounding
          generalize (ch.cued read).timer + 512 = timer at *
          obtain ⟨hdone, hlow, _, hsame, -⟩ := runSamples_sounding read type timer
            { ch.cued read with timer } (by dsimp only; omega) (hsounding.setTimer timer)
          have hformat := hsame.format_eq
          have hformat' : (ch.cued read).format = ch.format := by
            unfold format
            rw [hcnt]
          obtain ⟨hone, htwo, -⟩ := sampleType_format htype
          refine ⟨hdone.ring, hdone.index, hdone.low, hdone.high, ?_, ?_, hlow, ?_, ?_⟩
          · have hmask : (ch.cued read).cnt &&& ~~~0xFF7F837F = 0 := by
              rw [hcnt]
              exact h.cnt
            rcases hsame.cnt with hkept | hstopped
            · rw [hkept]
              exact hmask
            · rw [hstopped]
              exact stop_cnt_mask hmask
          · rw [hsame.src]
            change (ch.cued read).src &&& _ = 0
            rw [hsrc]
            exact h.src
          · intro hpcm
            exact hdone.even (hone (hformat'.symm.trans (hformat.symm.trans hpcm)))
          · intro hadpcm
            exact hdone.header (htwo (hformat'.symm.trans (hformat.symm.trans hadpcm)))

theorem Savable.run {ch : Channel} (h : ch.Savable) (read : UInt32 → UInt32)
    (hplay : ch.Playable) : (ch.run read).2.Savable := by
  unfold Channel.run
  split
  · next type htype => exact h.runType read htype hplay
  · exact h

end Channel

end NdsRecomp.Spu
