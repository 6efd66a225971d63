import NdsRecomp.Library.FedBuffer
import NdsRecomp.Spu.SaveState

/-!
The playhead of a channel, apart from the ring it reads: where each sample
moves it and how many bytes the sample fetches. What the ring must hold is then
a statement about positions and registers alone.
-/

namespace NdsRecomp.Spu

open Library

/-- The settings a playhead moves by. -/
structure Playback where
  type : SampleType
  loop : Nat
  total : Nat
  loops : Bool
  oneShot : Bool

namespace Playback

/-- The position after `pos` in a format of `unit`-byte samples, and the bytes
fetched there. -/
def stepPcm (p : Playback) (unit : Nat) (pos : Int) : Int × Nat :=
  if pos + 1 < 0 then (pos + 1, 0)
  else if (pos + 1).toNat * unit ≥ p.total then
    if p.loops then ((p.loop / unit : Nat), unit)
    else if p.oneShot then (pos + 1, 0)
    else (pos + 1, unit)
  else (pos + 1, unit)

def stepAdpcm (p : Playback) (pos : Int) : Int × Nat :=
  if pos + 1 < 8 then (pos + 1, if pos + 1 = 0 then 4 else 0)
  else if (pos + 1).toNat / 2 ≥ p.total then
    if p.loops then ((p.loop * 2 : Nat), 1) else (pos + 1, 0)
  else (pos + 1, if (pos + 1) % 2 = 0 then 1 else 0)

def step (p : Playback) (pos : Int) : Int × Nat :=
  match p.type with
  | .pcm8 => p.stepPcm 1 pos
  | .pcm16 => p.stepPcm 2 pos
  | .adpcm => p.stepAdpcm pos
  | .psg => (pos + 1, 0)
  | .noise => (pos, 0)

/-- The portions the next samples fetch, in order. -/
def fetches (p : Playback) : Nat → Int → List Nat
  | 0, _ => []
  | n + 1, pos =>
      if (p.step pos).2 = 0 then p.fetches n (p.step pos).1
      else (p.step pos).2 :: p.fetches n (p.step pos).1

/-- None of the next samples takes the position past 2^31 - 1. -/
def Counts (p : Playback) : Nat → Int → Prop
  | 0, _ => True
  | n + 1, pos => (p.type = .noise ∨ pos + 1 < 2 ^ 31) ∧ p.Counts n (p.step pos).1

/-- A loop that has anything in it. -/
def Endless (p : Playback) : Prop := p.loops = true ∧ p.loop < p.total

theorem step_bytes (p : Playback) (pos : Int) : (p.step pos).2 ≤ 4 := by
  have one_le_four : 1 ≤ 4 := by omega
  have hpcm (unit : Nat) (hunit : unit ≤ 4) : (p.stepPcm unit pos).2 ≤ 4 := by
    unfold stepPcm
    split
    · exact Nat.zero_le _
    · split
      · split
        · exact hunit
        · split
          · exact Nat.zero_le _
          · exact hunit
      · exact hunit
  unfold step
  cases p.type with
  | pcm8 => exact hpcm 1 (by omega)
  | pcm16 => exact hpcm 2 (by omega)
  | adpcm =>
      change (p.stepAdpcm pos).2 ≤ 4
      unfold stepAdpcm
      split
      · dsimp only
        split
        · exact le_rfl
        · exact Nat.zero_le _
      · split
        · split
          · exact one_le_four
          · exact Nat.zero_le _
        · dsimp only
          split
          · exact one_le_four
          · exact Nat.zero_le _
  | psg => exact Nat.zero_le _
  | noise => exact Nat.zero_le _

theorem fetches_le (p : Playback) (n : Nat) (pos : Int) : ∀ k ∈ p.fetches n pos, k ≤ 4 := by
  induction n generalizing pos with
  | zero => intro k hk; cases hk
  | succ n ih =>
      intro k hk
      unfold fetches at hk
      split at hk
      · exact ih _ k hk
      · rcases List.mem_cons.mp hk with rfl | hk
        · exact p.step_bytes pos
        · exact ih _ k hk

end Playback

namespace Channel

def playback (ch : Channel) (type : SampleType) : Playback where
  type
  loop := ch.loop
  total := ch.total
  loops := ch.loops
  oneShot := ch.oneShot

/-! ### The ring -/

/-- The loader's bounds on the ring, and on the registers they refer to. -/
structure Ring (ch : Channel) : Prop where
  loop : ch.loop ≤ 0x3FFFC
  loopAligned : ch.loop % 4 = 0
  length : ch.length ≤ 0x7FFFFC
  lengthAligned : ch.length % 4 = 0
  read : ch.fifoRead < 32
  write : ch.fifoWrite < 32
  writeAligned : ch.fifoWrite % 4 = 0
  level : ch.fifoLevel ≤ 32
  balance : ch.fifoWrite = (ch.fifoRead + ch.fifoLevel) % 32
  offset : ch.sourceOffset ≤ ch.total
  offsetAligned : ch.sourceOffset % 4 = 0
  inBounds : ch.inBounds = true

theorem total_eq (ch : Channel) : ch.total = ch.loop + ch.length := rfl

theorem refillWords_eq (read : UInt32 → UInt32) (words : Nat) (ch : Channel)
    (hwrite : ch.fifoWrite < 32) (haligned : ch.fifoWrite % 4 = 0)
    (hoffset : ch.sourceOffset + 4 * words < 2 ^ 32) :
    ∃ fifo, refillWords read words ch =
      { ch with
        fifo
        sourceOffset := ch.sourceOffset + 4 * words
        fifoWrite := (ch.fifoWrite + 4 * words) % 32 } := by
  induction words generalizing ch with
  | zero =>
      refine ⟨ch.fifo, ?_⟩
      rw [Nat.mul_zero, Nat.add_zero, Nat.add_zero, Nat.mod_eq_of_lt hwrite]
      rfl
  | succ words ih =>
      have hinside : ch.fifoWrite + 4 ≤ 32 := by omega
      have hnext : (ch.sourceOffset + 4) % 2 ^ 32 = ch.sourceOffset + 4 :=
        Nat.mod_eq_of_lt (by omega)
      obtain ⟨fifo, hfifo⟩ := ih
        { ch with
          fifo := storeWord ch.fifo ch.fifoWrite
            (if ch.src + UInt32.ofNat ch.sourceOffset ≥ 0x00004000 then
              read (ch.src + UInt32.ofNat ch.sourceOffset) else 0)
          inBounds := ch.inBounds && decide (ch.fifoWrite + 4 ≤ 32)
          sourceOffset := (ch.sourceOffset + 4) % 2 ^ 32
          fifoWrite := (ch.fifoWrite + 4) % 32 }
        (Nat.mod_lt _ (by decide)) (by dsimp only; omega) (by dsimp only; omega)
      refine ⟨fifo, ?_⟩
      change refillWords read words _ = _
      rw [hfifo]
      simp only [hnext, hinside, decide_true, Bool.and_true]
      congr 1
      · omega
      · omega

theorem refillWords_same (read : UInt32 → UInt32) (words : Nat) (ch : Channel) :
    ∃ fifo inBounds offset write, refillWords read words ch =
      { ch with fifo, inBounds, sourceOffset := offset, fifoWrite := write } := by
  induction words generalizing ch with
  | zero => exact ⟨_, _, _, _, rfl⟩
  | succ words ih =>
      obtain ⟨fifo, inBounds, offset, write, heq⟩ := ih
        { ch with
          fifo := storeWord ch.fifo ch.fifoWrite
            (if ch.src + UInt32.ofNat ch.sourceOffset ≥ 0x00004000 then
              read (ch.src + UInt32.ofNat ch.sourceOffset) else 0)
          inBounds := ch.inBounds && decide (ch.fifoWrite + 4 ≤ 32)
          sourceOffset := (ch.sourceOffset + 4) % 2 ^ 32
          fifoWrite := (ch.fifoWrite + 4) % 32 }
      exact ⟨fifo, inBounds, offset, write, heq⟩

theorem refillBurst_same (read : UInt32 → UInt32) (ch : Channel) :
    ∃ fifo inBounds offset write level, refillBurst read ch =
      { ch with
        fifo, inBounds, sourceOffset := offset, fifoWrite := write, fifoLevel := level } := by
  obtain ⟨fifo, inBounds, offset, write, heq⟩ := refillWords_same read
    (((if ch.sourceOffset + 16 > ch.total then
      (ch.total + 2 ^ 32 - ch.sourceOffset) % 2 ^ 32 else 16) + 3) / 4) ch
  unfold refillBurst
  simp only [heq]
  exact ⟨_, _, _, _, _, rfl⟩

/-- A refill changes nothing but the ring. -/
theorem bufferData_same (read : UInt32 → UInt32) (ch : Channel) :
    ∃ fifo inBounds offset write level, bufferData read ch =
      { ch with
        fifo, inBounds, sourceOffset := offset, fifoWrite := write, fifoLevel := level } := by
  unfold bufferData
  split
  · split
    · obtain ⟨fifo, inBounds, offset, write, level, heq⟩ :=
        refillBurst_same read { ch with sourceOffset := ch.loop }
      exact ⟨fifo, inBounds, offset, write, level, heq⟩
    · split
      · exact ⟨_, _, _, _, _, rfl⟩
      · exact refillBurst_same read ch
  · exact refillBurst_same read ch

theorem fifoReadValue_same (read : UInt32 → UInt32) (k : Nat) (ch : Channel) :
    ∃ fifo inBounds cursor offset write level, (fifoReadValue read k ch).2 =
      { ch with
        fifo, inBounds, fifoRead := cursor, sourceOffset := offset, fifoWrite := write,
        fifoLevel := level } := by
  unfold fifoReadValue
  dsimp only
  split
  · obtain ⟨fifo, inBounds, offset, write, level, heq⟩ := bufferData_same read
      { ch with
        inBounds := ch.inBounds && decide (ch.fifoRead + k ≤ 32)
        fifoRead := (ch.fifoRead + k) % 32
        fifoLevel := (ch.fifoLevel + 2 ^ 32 - k) % 2 ^ 32 }
    exact ⟨fifo, inBounds, _, offset, write, level, heq⟩
  · exact ⟨_, _, _, _, _, _, rfl⟩

/-- A burst moves up to 16 bytes from the source to the ring. -/
theorem refillBurst_eq (read : UInt32 → UInt32) {ch : Channel} (h : ch.Ring)
    (hlevel : ch.fifoLevel ≤ 16) :
    ∃ fifo, refillBurst read ch =
      { ch with
        fifo
        sourceOffset := ch.sourceOffset + min 16 (ch.total - ch.sourceOffset)
        fifoWrite := (ch.fifoWrite + min 16 (ch.total - ch.sourceOffset)) % 32
        fifoLevel := ch.fifoLevel + min 16 (ch.total - ch.sourceOffset) } := by
  have htotal := ch.total_eq
  have hloop := h.loop
  have hloopAligned := h.loopAligned
  have hlength := h.length
  have hlengthAligned := h.lengthAligned
  have hoffset := h.offset
  have hoffsetAligned := h.offsetAligned
  have hburst : (if ch.sourceOffset + 16 > ch.total then
      (ch.total + 2 ^ 32 - ch.sourceOffset) % 2 ^ 32 else 16) =
        min 16 (ch.total - ch.sourceOffset) := by
    split
    · omega
    · omega
  have hwords : 4 * ((min 16 (ch.total - ch.sourceOffset) + 3) / 4) =
      min 16 (ch.total - ch.sourceOffset) := by omega
  obtain ⟨fifo, hfifo⟩ := refillWords_eq read ((min 16 (ch.total - ch.sourceOffset) + 3) / 4) ch
    h.write h.writeAligned (by omega)
  refine ⟨fifo, ?_⟩
  unfold refillBurst
  simp only [hburst, hfifo, hwords]
  congr 1
  exact Nat.mod_eq_of_lt (by omega)

/-- What a refill leaves: the ring in bounds with `burst` more bytes, taken from
the source, or from its loop. -/
structure Refilled (ch ch' : Channel) : Prop where
  ring : ch'.Ring
  atMost : ch'.fifoLevel ≤ ch.fifoLevel + 16
  endless (type : SampleType) : (ch.playback type).Endless → ch.fifoLevel + 4 ≤ ch'.fifoLevel
  finite (type : SampleType) : ¬ (ch.playback type).Endless →
    ch'.fifoLevel + (ch.total - ch'.sourceOffset) =
        ch.fifoLevel + (ch.total - ch.sourceOffset) ∧
      (ch.total - ch'.sourceOffset ≠ 0 → 16 ≤ ch'.fifoLevel)

theorem refillBurst_ring (read : UInt32 → UInt32) {ch : Channel} (h : ch.Ring)
    (hlevel : ch.fifoLevel ≤ 16) :
    (refillBurst read ch).Ring ∧
      (refillBurst read ch).fifoLevel = ch.fifoLevel + min 16 (ch.total - ch.sourceOffset) ∧
      (refillBurst read ch).sourceOffset =
        ch.sourceOffset + min 16 (ch.total - ch.sourceOffset) := by
  have htotal := ch.total_eq
  have hloopAligned := h.loopAligned
  have hlengthAligned := h.lengthAligned
  have hoffsetAligned := h.offsetAligned
  have hwriteAligned := h.writeAligned
  have hbalance := h.balance
  have hoffset := h.offset
  obtain ⟨fifo, heq⟩ := refillBurst_eq read h hlevel
  rw [heq]
  refine ⟨?_, rfl, rfl⟩
  exact
    { h with
      write := Nat.mod_lt _ (by decide)
      writeAligned := by dsimp only; omega
      level := by dsimp only; omega
      balance := by dsimp only; omega
      offset := by
        change _ ≤ ch.total
        dsimp only
        omega
      offsetAligned := by dsimp only; omega }

theorem bufferData_refilled (read : UInt32 → UInt32) {ch : Channel} (h : ch.Ring)
    (hlevel : ch.fifoLevel ≤ 16) : Refilled ch (bufferData read ch) := by
  have htotal := ch.total_eq
  have hloopAligned := h.loopAligned
  have hlengthAligned := h.lengthAligned
  have hoffset := h.offset
  have hburst : Refilled ch (refillBurst read ch) ∨ ch.sourceOffset = ch.total := by
    rcases Nat.lt_or_ge ch.sourceOffset ch.total with hlt | hge
    · left
      obtain ⟨hring, hnew, hmoved⟩ := refillBurst_ring read h hlevel
      have hoffsetAligned := h.offsetAligned
      refine ⟨hring, by omega, fun _ _ => ?_, fun _ _ => ?_⟩
      · rw [hnew]
        omega
      · rw [hnew, hmoved]
        constructor
        · omega
        · omega
    · exact Or.inr (Nat.le_antisymm hoffset hge)
  unfold bufferData
  split
  · next hend =>
      have hfull : ch.sourceOffset = ch.total := Nat.le_antisymm hoffset hend
      split
      · next hloops =>
          -- back to the loop start, from where the burst is taken
          have hback : ({ ch with sourceOffset := ch.loop } : Channel).Ring :=
            { h with
              offset := by
                change ch.loop ≤ ch.total
                omega
              offsetAligned := hloopAligned }
          obtain ⟨hring, hnew, hmoved⟩ := refillBurst_ring read hback hlevel
          refine ⟨hring, ?_, fun _ hendless => ?_, fun type hfinite => ?_⟩
          · rw [hnew]
            exact Nat.add_le_add_left (Nat.min_le_left _ _) _
          · have hlt : ch.loop < ch.total := hendless.2
            rw [hnew]
            change ch.fifoLevel + 4 ≤ ch.fifoLevel + min 16 (ch.total - ch.loop)
            omega
          · have hempty : ch.loop = ch.total := by
              have hge : ¬ ch.loop < ch.total := fun hlt => hfinite ⟨hloops, hlt⟩
              omega
            rw [hnew, hmoved]
            change ch.fifoLevel + min 16 (ch.total - ch.loop) +
                (ch.total - (ch.loop + min 16 (ch.total - ch.loop))) = _ ∧
              (ch.total - (ch.loop + min 16 (ch.total - ch.loop)) ≠ 0 → _)
            constructor
            · omega
            · omega
      · next hloops =>
          have hfinite (type : SampleType) : ¬ (ch.playback type).Endless := fun hendless =>
            hloops hendless.1
          split
          · refine ⟨h, by omega, fun type hendless => absurd hendless (hfinite type),
              fun _ _ => ⟨rfl, ?_⟩⟩
            omega
          · obtain ⟨hring, hnew, hmoved⟩ := refillBurst_ring read h hlevel
            refine ⟨hring, by omega,
              fun type hendless => absurd hendless (hfinite type), fun _ _ => ?_⟩
            rw [hnew, hmoved]
            constructor
            · omega
            · omega
  · next hend =>
      rcases hburst with hburst | hfull
      · exact hburst
      · omega

/-- What taking `k` bytes out of the ring leaves. -/
structure Fetched (k : Nat) (ch ch' : Channel) : Prop where
  ring : ch'.Ring
  read : ch'.fifoRead = (ch.fifoRead + k) % 32
  endless (type : SampleType) : (ch.playback type).Endless → 4 ≤ ch'.fifoLevel
  finite (type : SampleType) : ¬ (ch.playback type).Endless →
    ch'.fifoLevel + (ch.total - ch'.sourceOffset) + k =
        ch.fifoLevel + (ch.total - ch.sourceOffset) ∧
      (ch.total - ch'.sourceOffset ≠ 0 → 4 ≤ ch'.fifoLevel)

theorem fifoReadValue_fetched (read : UInt32 → UInt32) {k : Nat} {ch : Channel} (h : ch.Ring)
    (hheld : k ≤ ch.fifoLevel) (hinside : ch.fifoRead + k ≤ 32) :
    Fetched k ch (fifoReadValue read k ch).2 := by
  have hlevel := h.level
  have hbalance := h.balance
  have hread := h.read
  have hless : (ch.fifoLevel + 2 ^ 32 - k) % 2 ^ 32 = ch.fifoLevel - k := by omega
  have hin : (ch.inBounds && decide (ch.fifoRead + k ≤ 32)) = true := by
    rw [h.inBounds, decide_eq_true hinside]
    rfl
  let taken : Channel :=
    { ch with
      inBounds := true
      fifoRead := (ch.fifoRead + k) % 32
      fifoLevel := ch.fifoLevel - k }
  have hvalue : (fifoReadValue read k ch).2 =
      if taken.fifoLevel ≤ 16 then bufferData read taken else taken := by
    unfold fifoReadValue
    simp only [hless, hin]
    rfl
  have htaken : taken.Ring :=
    { h with
      read := Nat.mod_lt _ (by decide)
      level := by
        change ch.fifoLevel - k ≤ 32
        omega
      balance := by
        change ch.fifoWrite = ((ch.fifoRead + k) % 32 + (ch.fifoLevel - k)) % 32
        omega
      inBounds := rfl }
  rw [hvalue]
  split
  · next hlow =>
      obtain ⟨hring, -, hendless, hfinite⟩ := bufferData_refilled read htaken hlow
      refine ⟨hring, ?_, fun type hend => ?_, fun type hend => ?_⟩
      · obtain ⟨fifo, inBounds, offset, write, level, heq⟩ := bufferData_same read taken
        rw [heq]
      · exact (Nat.le_add_left 4 _).trans (hendless type hend)
      · obtain ⟨hconserved, htopped⟩ := hfinite type hend
        change _ = ch.fifoLevel - k + (ch.total - ch.sourceOffset) at hconserved
        change ch.total - _ ≠ 0 → _ at htopped
        change (bufferData read taken).fifoLevel +
          (ch.total - (bufferData read taken).sourceOffset) = _ at hconserved
        constructor
        · omega
        · intro hleft
          exact le_trans (by omega) (htopped hleft)
  · next hhigh =>
      have hmuch : 17 ≤ ch.fifoLevel - k := Nat.lt_of_not_le hhigh
      refine ⟨htaken, rfl, fun _ _ => ?_, fun _ _ => ?_⟩
      · change 4 ≤ ch.fifoLevel - k
        omega
      · change ch.fifoLevel - k + (ch.total - ch.sourceOffset) + k = _ ∧ (_ → 4 ≤ ch.fifoLevel - k)
        constructor
        · omega
        · omega

end Channel

end NdsRecomp.Spu
