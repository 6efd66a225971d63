import NdsRecomp.Spu.Playback

/-!
One sample after another. Each decoder moves the playhead by its format and
takes from the ring what the playhead calls for; a ring that serves the next
samples is in bounds after each of them.
-/

namespace NdsRecomp.Spu

open Library

namespace Channel

/-- What no decoder touches. -/
structure Carried where
  num : Nat
  src : UInt32
  reload : UInt16
  loop : Nat
  length : Nat
  keyOn : Bool
  timer : Nat
  fifoRead : Nat
  fifoWrite : Nat
  sourceOffset : Nat
  fifoLevel : Nat
  inBounds : Bool

def carried (ch : Channel) : Carried where
  num := ch.num
  src := ch.src
  reload := ch.reload
  loop := ch.loop
  length := ch.length
  keyOn := ch.keyOn
  timer := ch.timer
  fifoRead := ch.fifoRead
  fifoWrite := ch.fifoWrite
  sourceOffset := ch.sourceOffset
  fifoLevel := ch.fifoLevel
  inBounds := ch.inBounds

structure IndexInRange (ch : Channel) : Prop where
  index : 0 ≤ ch.adpcmIndex ∧ ch.adpcmIndex ≤ 88
  loopIndex : 0 ≤ ch.adpcmLoopIndex ∧ ch.adpcmLoopIndex ≤ 88

/-- `b` is `a` in another state of the decoder, perhaps stopped. -/
structure Retuned (a b : Channel) : Prop where
  carried : b.carried = a.carried
  cnt : b.cnt = a.cnt ∨ b.cnt = a.stop.cnt
  index : a.IndexInRange → b.IndexInRange

theorem stop_format (ch : Channel) : ch.stop.format = ch.format := by
  apply UInt32.toBitVec_inj.mp
  ext i hi
  simp [format, stop]
  interval_cases i <;> simp

theorem stop_repeatMode (ch : Channel) : ch.stop.repeatMode = ch.repeatMode := by
  apply UInt32.toBitVec_inj.mp
  ext i hi
  simp [repeatMode, stop]
  interval_cases i <;> simp

theorem stop_cnt_mask {ch : Channel} {mask : UInt32} (h : ch.cnt &&& mask = 0) :
    ch.stop.cnt &&& mask = 0 := by
  change (ch.cnt &&& ~~~0x80000000) &&& mask = 0
  rw [UInt32.and_assoc, UInt32.and_comm (~~~0x80000000), ← UInt32.and_assoc, h, UInt32.zero_and]

namespace Retuned

variable {a b c : Channel}

theorem refl (a : Channel) : Retuned a a := ⟨rfl, Or.inl rfl, id⟩

theorem format_eq (h : Retuned a b) : b.format = a.format := by
  rcases h.cnt with hcnt | hcnt
  · unfold format
    rw [hcnt]
  · rw [← stop_format a]
    unfold format
    rw [hcnt]

theorem repeatMode_eq (h : Retuned a b) : b.repeatMode = a.repeatMode := by
  rcases h.cnt with hcnt | hcnt
  · unfold repeatMode
    rw [hcnt]
  · rw [← stop_repeatMode a]
    unfold repeatMode
    rw [hcnt]

theorem cnt_mask (h : Retuned a b) {mask : UInt32} (ha : a.cnt &&& mask = 0) :
    b.cnt &&& mask = 0 := by
  rcases h.cnt with hcnt | hcnt
  · rw [hcnt, ha]
  · rw [hcnt, stop_cnt_mask ha]

theorem playback_eq (h : Retuned a b) (type : SampleType) : b.playback type = a.playback type := by
  have hloop : b.loop = a.loop := congrArg Carried.loop h.carried
  have hlength : b.length = a.length := congrArg Carried.length h.carried
  unfold playback loops oneShot total
  rw [h.repeatMode_eq, hloop, hlength]

theorem trans (hab : Retuned a b) (hbc : Retuned b c) : Retuned a c := by
  refine ⟨hbc.carried.trans hab.carried, ?_, fun ha => hbc.index (hab.index ha)⟩
  have hstop {x y : Channel} (hcnt : x.cnt = y.cnt) : x.stop.cnt = y.stop.cnt :=
    congrArg (· &&& ~~~(0x80000000 : UInt32)) hcnt
  rcases hab.cnt with hb | hb
  · rcases hbc.cnt with hc | hc
    · exact Or.inl (hc.trans hb)
    · exact Or.inr (hc.trans (hstop hb))
  · right
    rcases hbc.cnt with hc | hc
    · exact hc.trans hb
    · rw [hc, hstop hb]
      change (a.cnt &&& ~~~0x80000000) &&& ~~~0x80000000 = a.cnt &&& ~~~0x80000000
      rw [UInt32.and_assoc, UInt32.and_self]

theorem cursor (h : Retuned a b) :
    b.fifoRead = a.fifoRead ∧ b.fifoLevel = a.fifoLevel ∧ b.sourceOffset = a.sourceOffset :=
  ⟨congrArg Carried.fifoRead h.carried, congrArg Carried.fifoLevel h.carried,
    congrArg Carried.sourceOffset h.carried⟩

theorem ring (h : Retuned a b) (ha : a.Ring) : b.Ring := by
  have hfields := h.carried
  unfold Channel.carried at hfields
  obtain ⟨-, -, -, hloop, hlength, -, -, hread, hwrite, hoffset, hlevel, hin⟩ :=
    Carried.mk.inj hfields
  exact
    { loop := hloop ▸ ha.loop
      loopAligned := hloop ▸ ha.loopAligned
      length := hlength ▸ ha.length
      lengthAligned := hlength ▸ ha.lengthAligned
      read := hread ▸ ha.read
      write := hwrite ▸ ha.write
      writeAligned := hwrite ▸ ha.writeAligned
      level := hlevel ▸ ha.level
      balance := by
        rw [hwrite, hread, hlevel]
        exact ha.balance
      offset := by
        unfold total
        rw [hoffset, hloop, hlength]
        exact ha.offset
      offsetAligned := hoffset ▸ ha.offsetAligned
      inBounds := hin ▸ ha.inBounds }

end Retuned

/-- A decoder has moved the playhead and taken what belongs to the new place. -/
structure Moved (read : UInt32 → UInt32) (type : SampleType) (ch ch' : Channel) : Prop where
  pos : ch'.pos = ((ch.playback type).step ch.pos).1
  bytes : (((ch.playback type).step ch.pos).2 = 0 ∧ Retuned ch ch') ∨
    (((ch.playback type).step ch.pos).2 ≠ 0 ∧ ∃ mid, Retuned ch mid ∧
      Retuned (fifoReadValue read ((ch.playback type).step ch.pos).2 mid).2 ch')

theorem advance_eq {ch : Channel} (hlow : -3 ≤ ch.pos) (hhigh : ch.pos + 1 < 2 ^ 31) :
    ch.advance = { ch with pos := ch.pos + 1 } := by
  have hnext : (ch.pos + 1).bmod (2 ^ 32) = ch.pos + 1 := by
    apply Int.bmod_eq_of_le
    · norm_num
      omega
    · norm_num
      omega
  unfold advance
  rw [hnext]

/-- A fetch of `k` bytes whose value goes to the decoder. -/
structure Fetches (read : UInt32 → UInt32) (k : Nat) (fetch : Channel → Channel) : Prop where
  retuned (ch : Channel) : Retuned (fifoReadValue read k ch).2 (fetch ch)
  pos (ch : Channel) : (fetch ch).pos = ch.pos

theorem fetch_pos (read : UInt32 → UInt32) (k : Nat) (ch : Channel) :
    (fifoReadValue read k ch).2.pos = ch.pos := by
  obtain ⟨_, _, _, _, _, _, heq⟩ := fifoReadValue_same read k ch
  rw [heq]

theorem retuned_setSample (ch : Channel) (sample : Int) : Retuned ch (ch.setSample sample) :=
  ⟨rfl, Or.inl rfl, fun h => ⟨h.index, h.loopIndex⟩⟩

theorem setSample_pos (ch : Channel) (sample : Int) : (ch.setSample sample).pos = ch.pos := rfl

theorem fetchPcm8_fetches (read : UInt32 → UInt32) : Fetches read 1 (fetchPcm8 read) := by
  constructor
  · intro ch
    unfold fetchPcm8
    exact retuned_setSample _ _
  · intro ch
    unfold fetchPcm8
    rw [setSample_pos, fetch_pos]

theorem fetchPcm16_fetches (read : UInt32 → UInt32) : Fetches read 2 (fetchPcm16 read) := by
  constructor
  · intro ch
    unfold fetchPcm16
    exact retuned_setSample _ _
  · intro ch
    unfold fetchPcm16
    rw [setSample_pos, fetch_pos]

theorem Moved.fetch {read : UInt32 → UInt32} {type : SampleType} {k : Nat}
    {fetch : Channel → Channel} (hfetch : Fetches read k fetch) (hk : k ≠ 0) {ch mid : Channel}
    (hmid : Retuned ch mid) (hstep : (ch.playback type).step ch.pos = (mid.pos, k)) :
    Moved read type ch (fetch mid) := by
  refine ⟨?_, Or.inr ⟨?_, mid, hmid, ?_⟩⟩
  · rw [hfetch.pos, hstep]
  · rw [hstep]
    exact hk
  · rw [hstep]
    exact hfetch.retuned mid

theorem Moved.noFetch {read : UInt32 → UInt32} {type : SampleType} {ch ch' : Channel}
    (h : Retuned ch ch') (hstep : (ch.playback type).step ch.pos = (ch'.pos, 0)) :
    Moved read type ch ch' :=
  ⟨by rw [hstep], Or.inl ⟨by rw [hstep], h⟩⟩

theorem retuned_pos (ch : Channel) (pos : Int) : Retuned ch { ch with pos } :=
  ⟨rfl, Or.inl rfl, fun h => ⟨h.index, h.loopIndex⟩⟩

/-- A format of `unit`-byte samples, one fetch a sample. -/
theorem pcm_moved {read : UInt32 → UInt32} {type : SampleType} {unit : Nat}
    {fetch : Channel → Channel} (hfetch : Fetches read unit fetch) (hunit : unit ≠ 0)
    {ch result : Channel}
    (hstep : (ch.playback type).step ch.pos = (ch.playback type).stepPcm unit ch.pos)
    (hresult : result =
      if ch.pos + 1 < 0 then { ch with pos := ch.pos + 1 }
      else if (ch.pos + 1).toNat * unit ≥ ch.total then
        if ch.loops then fetch { ch with pos := (ch.loop / unit : Nat) }
        else if ch.oneShot then ({ ch with pos := ch.pos + 1 } : Channel).stop
        else fetch { ch with pos := ch.pos + 1 }
      else fetch { ch with pos := ch.pos + 1 }) :
    Moved read type ch result := by
  have hforward : Retuned ch { ch with pos := ch.pos + 1 } := retuned_pos ch _
  rw [hresult]
  unfold Playback.stepPcm at hstep
  change _ = if ch.pos + 1 < 0 then _ else if (ch.pos + 1).toNat * unit ≥ ch.total then
    if ch.loops then _ else if ch.oneShot then _ else _ else _ at hstep
  split
  · next hbefore =>
      rw [if_pos hbefore] at hstep
      exact .noFetch hforward hstep
  · next hbefore =>
      rw [if_neg hbefore] at hstep
      split
      · next hend =>
          rw [if_pos hend] at hstep
          split
          · next hloops =>
              rw [if_pos hloops] at hstep
              exact .fetch hfetch hunit (retuned_pos ch _) hstep
          · next hloops =>
              rw [if_neg hloops] at hstep
              split
              · next hshot =>
                  rw [if_pos hshot] at hstep
                  exact .noFetch (hforward.trans ⟨rfl, Or.inr rfl,
                    fun h => ⟨h.index, h.loopIndex⟩⟩) hstep
              · next hshot =>
                  rw [if_neg hshot] at hstep
                  exact .fetch hfetch hunit hforward hstep
      · next hend =>
          rw [if_neg hend] at hstep
          exact .fetch hfetch hunit hforward hstep

theorem nextPcm8_moved (read : UInt32 → UInt32) {ch : Channel} (hlow : -3 ≤ ch.pos)
    (hhigh : ch.pos + 1 < 2 ^ 31) : Moved read .pcm8 ch (ch.nextPcm8 read) := by
  refine pcm_moved (fetchPcm8_fetches read) (by decide) rfl ?_
  unfold nextPcm8
  rw [advance_eq hlow hhigh, Nat.mul_one, Nat.div_one]
  rfl

theorem nextPcm16_moved (read : UInt32 → UInt32) {ch : Channel} (hlow : -3 ≤ ch.pos)
    (hhigh : ch.pos + 1 < 2 ^ 31) : Moved read .pcm16 ch (ch.nextPcm16 read) := by
  have hwide : (ch.pos + 1).toNat * 2 % 2 ^ 32 = (ch.pos + 1).toNat * 2 := by
    apply Nat.mod_eq_of_lt
    norm_num at hhigh ⊢
    omega
  refine pcm_moved (fetchPcm16_fetches read) (by decide) rfl ?_
  unfold nextPcm16
  rw [advance_eq hlow hhigh]
  dsimp only
  rw [hwide]
  rfl

/-! ### The ADPCM decoder -/

theorem retuned_setAdpcmByte (ch : Channel) (value : Nat) : Retuned ch (ch.setAdpcmByte value) :=
  ⟨rfl, Or.inl rfl, fun h => ⟨h.index, h.loopIndex⟩⟩

theorem retuned_soundAdpcm (ch : Channel) : Retuned ch ch.soundAdpcm :=
  ⟨rfl, Or.inl rfl, fun h => ⟨h.index, h.loopIndex⟩⟩

theorem retuned_setAdpcmStart (ch : Channel) (value : Int) {index : Int}
    (hindex : 0 ≤ index ∧ index ≤ 88) : Retuned ch (ch.setAdpcmStart value index) :=
  ⟨rfl, Or.inl rfl, fun _ => ⟨hindex, hindex⟩⟩

theorem retuned_decodeNibble (ch : Channel) : Retuned ch ch.decodeNibble := by
  have hindex (next : Int) : 0 ≤ max 0 (min 88 next) ∧ max 0 (min 88 next) ≤ 88 := by omega
  unfold decodeNibble
  dsimp only
  split
  · exact ⟨rfl, Or.inl rfl, fun _ => ⟨hindex _, hindex _⟩⟩
  · exact ⟨rfl, Or.inl rfl, fun h => ⟨hindex _, h.loopIndex⟩⟩

theorem decodeNibble_pos (ch : Channel) : ch.decodeNibble.pos = ch.pos := by
  unfold decodeNibble
  dsimp only
  split
  · rfl
  · rfl

theorem soundAdpcm_pos (ch : Channel) : ch.soundAdpcm.pos = ch.pos := rfl

theorem setAdpcmStart_pos (ch : Channel) (value index : Int) :
    (ch.setAdpcmStart value index).pos = ch.pos := rfl

theorem setAdpcmByte_pos (ch : Channel) (value : Nat) : (ch.setAdpcmByte value).pos = ch.pos :=
  rfl

theorem readHeader_fetches (read : UInt32 → UInt32) : Fetches read 4 (readHeader read) := by
  constructor
  · intro ch
    unfold readHeader
    exact retuned_setAdpcmStart _ _ (by omega)
  · intro ch
    unfold readHeader
    rw [setAdpcmStart_pos, fetch_pos]

theorem fetchAdpcmByte_fetches (read : UInt32 → UInt32) :
    Fetches read 1 (fetchAdpcmByte · read) := by
  constructor
  · intro ch
    unfold fetchAdpcmByte
    exact retuned_setAdpcmByte _ _
  · intro ch
    unfold fetchAdpcmByte
    rw [setAdpcmByte_pos, fetch_pos]

/-- Decoding what was fetched leaves the fetch as it is. -/
theorem Fetches.then {read : UInt32 → UInt32} {k : Nat} {fetch decode : Channel → Channel}
    (h : Fetches read k fetch) (hretuned : ∀ ch, Retuned ch (decode ch))
    (hpos : ∀ ch, (decode ch).pos = ch.pos) : Fetches read k fun ch => decode (fetch ch) where
  retuned ch := (h.retuned ch).trans (hretuned _)
  pos ch := (hpos _).trans (h.pos ch)

theorem nextAdpcm_moved (read : UInt32 → UInt32) {ch : Channel} (hlow : -3 ≤ ch.pos)
    (hhigh : ch.pos + 1 < 2 ^ 31) : Moved read .adpcm ch (ch.nextAdpcm read) := by
  have hforward : Retuned ch { ch with pos := ch.pos + 1 } := retuned_pos ch _
  have hstep : (ch.playback .adpcm).step ch.pos = (ch.playback .adpcm).stepAdpcm ch.pos := rfl
  have hsounded := (fetchAdpcmByte_fetches read).then retuned_soundAdpcm soundAdpcm_pos
  have hdecoded := ((fetchAdpcmByte_fetches read).then retuned_decodeNibble decodeNibble_pos).then
    retuned_soundAdpcm soundAdpcm_pos
  have hsilent {mid : Channel} (hmid : Retuned ch mid) : Retuned ch mid.decodeNibble.soundAdpcm :=
    (hmid.trans (retuned_decodeNibble _)).trans (retuned_soundAdpcm _)
  unfold Playback.stepAdpcm at hstep
  change _ = if ch.pos + 1 < 8 then _ else if (ch.pos + 1).toNat / 2 ≥ ch.total then
    if ch.loops then _ else _ else _ at hstep
  unfold nextAdpcm
  rw [advance_eq hlow hhigh]
  change Moved read .adpcm ch (if ch.pos + 1 < 8 then
    if ch.pos + 1 = 0 then readHeader read { ch with pos := ch.pos + 1 } else _
    else if (ch.pos + 1).toNat / 2 ≥ ch.total then
      if ch.loops then _ else if ch.oneShot then _ else _ else _)
  split
  · next hheader =>
      rw [if_pos hheader] at hstep
      split
      · next hzero =>
          rw [if_pos hzero] at hstep
          exact .fetch (readHeader_fetches read) (by decide) hforward hstep
      · next hzero =>
          rw [if_neg hzero] at hstep
          exact .noFetch hforward hstep
  · next hheader =>
      rw [if_neg hheader] at hstep
      split
      · next hend =>
          rw [if_pos hend] at hstep
          split
          · next hloops =>
              rw [if_pos hloops] at hstep
              have hrewound : Retuned ch ({ ch with pos := ch.pos + 1 } : Channel).rewindAdpcm :=
                ⟨rfl, Or.inl rfl, fun h => ⟨h.loopIndex, h.loopIndex⟩⟩
              exact .fetch hsounded (by decide) hrewound hstep
          · next hloops =>
              rw [if_neg hloops] at hstep
              split
              · exact .noFetch (hforward.trans ⟨rfl, Or.inr rfl,
                  fun h => ⟨h.index, h.loopIndex⟩⟩) hstep
              · exact .noFetch (hforward.trans (retuned_soundAdpcm _)) hstep
      · next hend =>
          rw [if_neg hend] at hstep
          unfold takeNibble
          change Moved read .adpcm ch
            (soundAdpcm (decodeNibble (if (ch.pos + 1) % 2 = 0 then _ else _)))
          split
          · next heven =>
              rw [if_pos heven] at hstep
              exact .fetch hdecoded (by decide) hforward hstep
          · next heven =>
              rw [if_neg heven] at hstep
              refine .noFetch (hsilent (hforward.trans (retuned_setAdpcmByte _ _))) ?_
              rw [hstep, soundAdpcm_pos, decodeNibble_pos, setAdpcmByte_pos]

/-! ### The next samples -/

/-- The loader's bounds on a channel apart from its registers, and a ring that
serves the next `n` samples. -/
structure Sounding (type : SampleType) (n : Nat) (ch : Channel) : Prop where
  ring : ch.Ring
  low : -3 ≤ ch.pos
  high : ch.pos < 2 ^ 31
  index : ch.IndexInRange
  even : type = .pcm16 → ch.fifoRead % 2 = 0
  header : type = .adpcm → ch.pos < 8 → ch.fifoRead % 4 = 0
  serves : Serves (ch.playback type).Endless ch.fifoLevel (ch.total - ch.sourceOffset)
    ((ch.playback type).fetches n ch.pos)
  counts : (ch.playback type).Counts n ch.pos
  loopHead : type = .adpcm → ch.loops = true → ch.loop = 0 → ch.pos + n < 2 * ch.total

theorem fetched_playback (read : UInt32 → UInt32) (k : Nat) (ch : Channel) (type : SampleType) :
    (fifoReadValue read k ch).2.playback type = ch.playback type := by
  obtain ⟨_, _, _, _, _, _, heq⟩ := fifoReadValue_same read k ch
  rw [heq]
  rfl

theorem fetched_index (read : UInt32 → UInt32) (k : Nat) (ch : Channel) (h : ch.IndexInRange) :
    (fifoReadValue read k ch).2.IndexInRange := by
  obtain ⟨_, _, _, _, _, _, heq⟩ := fifoReadValue_same read k ch
  rw [heq]
  exact ⟨h.index, h.loopIndex⟩

theorem stepPcm_pos (p : Playback) (unit : Nat) {pos : Int} (hlow : -3 ≤ pos) :
    -3 ≤ (p.stepPcm unit pos).1 ∧
      ((p.stepPcm unit pos).1 ≤ pos + 1 ∨ (p.stepPcm unit pos).1 ≤ p.loop) ∧
      ((p.stepPcm unit pos).2 = 0 ∨ (p.stepPcm unit pos).2 = unit) := by
  have hdiv : ((p.loop / unit : Nat) : Int) ≤ p.loop := by
    exact_mod_cast Nat.div_le_self p.loop unit
  have hback : (0 : Int) ≤ ((p.loop / unit : Nat) : Int) := Int.natCast_nonneg _
  unfold Playback.stepPcm
  split
  · exact ⟨by dsimp only; omega, Or.inl le_rfl, Or.inl rfl⟩
  · split
    · split
      · exact ⟨by dsimp only; omega, Or.inr hdiv, Or.inr rfl⟩
      · split
        · exact ⟨by dsimp only; omega, Or.inl le_rfl, Or.inl rfl⟩
        · exact ⟨by dsimp only; omega, Or.inl le_rfl, Or.inr rfl⟩
    · exact ⟨by dsimp only; omega, Or.inl le_rfl, Or.inr rfl⟩

/-- An ADPCM step inside the sound, or back to the loop start. -/
theorem stepAdpcm_cases (p : Playback) (pos : Int) :
    (pos + 1 = 0 ∧ p.stepAdpcm pos = (pos + 1, 4)) ∨
      (pos + 1 ≠ 0 ∧ pos + 1 < 8 ∧ p.stepAdpcm pos = (pos + 1, 0)) ∨
      (8 ≤ pos + 1 ∧ (p.stepAdpcm pos = (pos + 1, 0) ∨ p.stepAdpcm pos = (pos + 1, 1))) ∨
      (8 ≤ pos + 1 ∧ 2 * (p.total : Int) ≤ pos + 1 ∧ p.loops = true ∧
        p.stepAdpcm pos = (((p.loop * 2 : Nat) : Int), 1)) := by
  unfold Playback.stepAdpcm
  split
  · next hheader =>
      split
      · next hzero => exact Or.inl ⟨hzero, rfl⟩
      · next hzero => exact Or.inr (Or.inl ⟨hzero, hheader, rfl⟩)
  · next hheader =>
      right; right
      split
      · next hend =>
          split
          · next hloops => exact Or.inr ⟨by omega, by omega, hloops, rfl⟩
          · exact Or.inl ⟨by omega, Or.inl rfl⟩
      · split
        · exact Or.inl ⟨by omega, Or.inr rfl⟩
        · exact Or.inl ⟨by omega, Or.inl rfl⟩

/-- The ring has room to the right of its read cursor for every fetch. -/
theorem Sounding.fetch_inside {type : SampleType} {n : Nat} {ch : Channel}
    (h : Sounding type (n + 1) ch) :
    ch.fifoRead + ((ch.playback type).step ch.pos).2 ≤ 32 := by
  have hread := h.ring.read
  cases htype : type with
  | pcm8 =>
      obtain ⟨-, -, hbytes⟩ := stepPcm_pos (ch.playback .pcm8) 1 h.low
      change ch.fifoRead + ((ch.playback .pcm8).stepPcm 1 ch.pos).2 ≤ 32
      omega
  | pcm16 =>
      obtain ⟨-, -, hbytes⟩ := stepPcm_pos (ch.playback .pcm16) 2 h.low
      have heven := h.even htype
      change ch.fifoRead + ((ch.playback .pcm16).stepPcm 2 ch.pos).2 ≤ 32
      omega
  | adpcm =>
      change ch.fifoRead + ((ch.playback .adpcm).stepAdpcm ch.pos).2 ≤ 32
      rcases stepAdpcm_cases (ch.playback .adpcm) ch.pos with
        ⟨hzero, heq⟩ | ⟨-, -, heq⟩ | ⟨-, heq | heq⟩ | ⟨-, -, -, heq⟩
      · have hheader := h.header htype (by omega)
        rw [heq]
        dsimp only
        omega
      · rw [heq]
        exact hread.le
      · rw [heq]
        exact hread.le
      · rw [heq]
        exact hread
      · rw [heq]
        exact hread
  | psg => exact hread.le
  | noise => exact hread.le

/-- Where a step leads stays in the range of the position. -/
theorem Sounding.step_range {type : SampleType} {n : Nat} {ch : Channel}
    (h : Sounding type (n + 1) ch) :
    -3 ≤ ((ch.playback type).step ch.pos).1 ∧ ((ch.playback type).step ch.pos).1 < 2 ^ 31 := by
  have hlow := h.low
  have hhigh := h.high
  have hloop : ((ch.playback type).loop : Int) ≤ 0x3FFFC := by exact_mod_cast h.ring.loop
  have hcounts := h.counts.1
  norm_num at hhigh hcounts ⊢
  have hpcm (unit : Nat) (hcount : ch.pos + 1 < 2147483648) :
      -3 ≤ ((ch.playback type).stepPcm unit ch.pos).1 ∧
        ((ch.playback type).stepPcm unit ch.pos).1 < 2147483648 := by
    obtain ⟨hge, hle, -⟩ := stepPcm_pos (ch.playback type) unit hlow
    refine ⟨hge, ?_⟩
    omega
  cases htype : type with
  | pcm8 =>
      subst htype
      exact hpcm 1 (hcounts.resolve_left (by simp [playback]))
  | pcm16 =>
      subst htype
      exact hpcm 2 (hcounts.resolve_left (by simp [playback]))
  | adpcm =>
      subst htype
      have hcount := hcounts.resolve_left (by simp [playback])
      change -3 ≤ ((ch.playback .adpcm).stepAdpcm ch.pos).1 ∧
        ((ch.playback .adpcm).stepAdpcm ch.pos).1 < _
      rcases stepAdpcm_cases (ch.playback .adpcm) ch.pos with
        ⟨-, heq⟩ | ⟨-, -, heq⟩ | ⟨-, heq | heq⟩ | ⟨-, -, -, heq⟩
      all_goals
        rw [heq]
        dsimp only
        omega
  | psg =>
      subst htype
      have hcount := hcounts.resolve_left (by simp [playback])
      change -3 ≤ ch.pos + 1 ∧ ch.pos + 1 < _
      omega
  | noise => exact ⟨hlow, hhigh⟩

theorem Sounding.fetched {type : SampleType} {n : Nat} {read : UInt32 → UInt32}
    {ch ch' : Channel} (h : Sounding type (n + 1) ch) (hmoved : Moved read type ch ch') :
    ch'.Ring ∧ ch'.playback type = ch.playback type ∧ (ch.IndexInRange → ch'.IndexInRange) ∧
      ch'.fifoRead = (ch.fifoRead + ((ch.playback type).step ch.pos).2) % 32 ∧
      Serves (ch'.playback type).Endless ch'.fifoLevel (ch'.total - ch'.sourceOffset)
        ((ch.playback type).fetches n ch'.pos) := by
  have hserves := h.serves
  rw [Playback.fetches] at hserves
  rcases hmoved.bytes with ⟨hnone, hret⟩ | ⟨hsome, mid, hmid, hafter⟩
  · obtain ⟨hread, hlevel, hoffset⟩ := hret.cursor
    have hplayback := hret.playback_eq type
    have htotal : ch'.total = ch.total := congrArg Playback.total hplayback
    rw [if_pos hnone, ← hmoved.pos] at hserves
    refine ⟨hret.ring h.ring, hplayback, hret.index, ?_, ?_⟩
    · rw [hnone, hread, Nat.add_zero, Nat.mod_eq_of_lt h.ring.read]
    · rw [hplayback, hlevel, htotal, hoffset]
      exact hserves
  · rw [if_neg hsome, ← hmoved.pos] at hserves
    obtain ⟨hread, hlevel, hoffset⟩ := hmid.cursor
    have hplayback := hmid.playback_eq type
    have htotal : mid.total = ch.total := congrArg Playback.total hplayback
    have hheld : ((ch.playback type).step ch.pos).2 ≤ mid.fifoLevel := by
      rw [hlevel]
      exact hserves.1 _ rfl
    have hinside : mid.fifoRead + ((ch.playback type).step ch.pos).2 ≤ 32 := by
      rw [hread]
      exact h.fetch_inside
    have hfetched := fifoReadValue_fetched read (hmid.ring h.ring) hheld hinside
    have hsame := fetched_playback read ((ch.playback type).step ch.pos).2 mid type
    have hindex := fetched_index read ((ch.playback type).step ch.pos).2 mid
    generalize (fifoReadValue read ((ch.playback type).step ch.pos).2 mid).2 = fetched at *
    obtain ⟨hread', hlevel', hoffset'⟩ := hafter.cursor
    have hplayback' := (hafter.playback_eq type).trans (hsame.trans hplayback)
    refine ⟨hafter.ring hfetched.ring, hplayback',
      fun hin => hafter.index (hindex (hmid.index hin)), ?_, ?_⟩
    · rw [hread', ← hread]
      exact hfetched.read
    · have htotal' : ch'.total = ch.total := congrArg Playback.total hplayback'
      rw [hplayback', htotal', hlevel', hoffset']
      refine hserves.next ((ch.playback type).fetches_le n _) (fun hend => ?_) fun hend => ?_
      · exact hfetched.endless type (hplayback ▸ hend)
      · obtain ⟨hconserved, htopped⟩ := hfetched.finite type (hplayback ▸ hend)
        rw [htotal, hlevel, hoffset] at hconserved
        rw [htotal] at htopped
        exact ⟨hconserved, htopped⟩

/-- Behind the header the cursor is past every position below 8. -/
theorem Sounding.header_next {n : Nat} {ch ch' : Channel} (h : Sounding .adpcm (n + 1) ch)
    (hat : ch'.pos = ((ch.playback .adpcm).stepAdpcm ch.pos).1)
    (hread : ch'.fifoRead = (ch.fifoRead + ((ch.playback .adpcm).stepAdpcm ch.pos).2) % 32)
    (hpos : ch'.pos < 8) : ch'.fifoRead % 4 = 0 := by
  have hbound := h.ring.loopAligned
  have hheader (hbefore : ch.pos < 8) : ch.fifoRead % 4 = 0 := h.header rfl hbefore
  rcases stepAdpcm_cases (ch.playback .adpcm) ch.pos with
    ⟨hzero, heq⟩ | ⟨-, hbefore, heq⟩ | ⟨hafter, heq | heq⟩ | ⟨-, hend, hloops, heq⟩
  · have haligned := hheader (by omega)
    rw [heq] at hread
    dsimp only at hread
    omega
  · have haligned := hheader (by omega)
    rw [heq] at hread
    dsimp only at hread
    omega
  · rw [heq] at hat
    dsimp only at hat
    omega
  · rw [heq] at hat
    dsimp only at hat
    omega
  · -- a loop that starts behind the header, since it has not come round to 0
    have hnot : ch.loop ≠ 0 := fun hzero => by
      have hfar := h.loopHead rfl hloops hzero
      change 2 * (ch.total : Int) ≤ ch.pos + 1 at hend
      omega
    rw [heq] at hat
    change ch'.pos = ((ch.loop * 2 : Nat) : Int) at hat
    omega

theorem Sounding.loopHead_next {n : Nat} {ch ch' : Channel} (h : Sounding .adpcm (n + 1) ch)
    (hat : ch'.pos = ((ch.playback .adpcm).stepAdpcm ch.pos).1) (hloops : ch.loops = true)
    (hloop : ch.loop = 0) : ch'.pos + n < 2 * ch.total := by
  have hfar := h.loopHead rfl hloops hloop
  rcases stepAdpcm_cases (ch.playback .adpcm) ch.pos with
    ⟨-, heq⟩ | ⟨-, -, heq⟩ | ⟨-, heq | heq⟩ | ⟨-, hend, -, -⟩
  · rw [heq] at hat
    dsimp only at hat
    omega
  · rw [heq] at hat
    dsimp only at hat
    omega
  · rw [heq] at hat
    dsimp only at hat
    omega
  · rw [heq] at hat
    dsimp only at hat
    omega
  · change 2 * (ch.total : Int) ≤ ch.pos + 1 at hend
    omega

/-- The playhead of one sample later, with one sample less to come. -/
theorem Sounding.next_of_moved {type : SampleType} {n : Nat} {read : UInt32 → UInt32}
    {ch ch' : Channel} (h : Sounding type (n + 1) ch) (hmoved : Moved read type ch ch') :
    Sounding type n ch' := by
  obtain ⟨hring, hplayback, hindex, hread, hserves⟩ := h.fetched hmoved
  obtain ⟨hlow, hhigh⟩ := h.step_range
  have hat := hmoved.pos
  have htotal : ch'.total = ch.total := congrArg Playback.total hplayback
  have hloop : ch'.loop = ch.loop := congrArg Playback.loop hplayback
  have hloops : ch'.loops = ch.loops := congrArg Playback.loops hplayback
  have hcounts : (ch.playback type).Counts n ch'.pos := by
    rw [hat]
    exact h.counts.2
  rw [← hat] at hlow hhigh
  rw [← hplayback] at hserves hcounts
  refine ⟨hring, hlow, hhigh, hindex h.index, ?_, ?_, hserves, hcounts, ?_⟩
  · intro htype
    subst htype
    have heven := h.even rfl
    obtain ⟨-, -, hbytes⟩ := stepPcm_pos (ch.playback .pcm16) 2 h.low
    change ch'.fifoRead = (ch.fifoRead + ((ch.playback .pcm16).stepPcm 2 ch.pos).2) % 32 at hread
    omega
  · intro htype
    subst htype
    exact h.header_next hat hread
  · intro htype hloops' hloop'
    subst htype
    rw [htotal]
    exact h.loopHead_next hat (hloops ▸ hloops') (hloop ▸ hloop')

end Channel

end NdsRecomp.Spu
