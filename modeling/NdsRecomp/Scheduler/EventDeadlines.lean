import NdsRecomp.Library.OpSystem

/-!
The periodic events of the console and the deadlines the scheduler computes for
them. Each device keeps its own cursor on the timeline and catches up to the
time it is ticked to; the scheduler derives the next edge from the timestamp
alone. The two agree on where the edges are.

Timestamps are numbers below 2^64; products are taken modulo 2^64 as in the
source.
-/

namespace NdsRecomp.Scheduler

open Library

/-! ### Deadlines -/

def kLine : Nat := 2130
def kHblankStart : Nat := 1584
def kRtcNumerator : Nat := 33513982
def kRtcDenominator : Nat := 32768

def wrap64 (x : Nat) : Nat := x % 2 ^ 64

def lcdTerm (ts : Nat) : Nat :=
  let lineBase := wrap64 (ts / kLine * kLine)
  let pos := ts - lineBase
  if pos < kHblankStart then wrap64 (lineBase + kHblankStart) else wrap64 (lineBase + kLine)

def spuTerm (ts : Nat) : Nat := wrap64 ((ts / 1024 + 1) * 1024)

/-- `(rtc_n * kRtcNumerator) / kRtcDenominator` -/
def rtcDeadline (n : Nat) : Nat := wrap64 (n * kRtcNumerator) / kRtcDenominator

/-- `while (rtc <= g_sys_timestamp) { ++rtc_n; ... }`, for at most `fuel`
rounds. -/
def rtcFixup (ts : Nat) : Nat → Nat → Option Nat
  | 0, _ => none
  | fuel + 1, n => if rtcDeadline n ≤ ts then rtcFixup ts fuel (n + 1) else some (rtcDeadline n)

def rtcTerm (fuel ts : Nat) : Option Nat :=
  rtcFixup ts fuel (wrap64 (ts * kRtcDenominator) / kRtcNumerator + 1)

/-! ### Device ticks -/

inductive DisplayEvent where
  | renderScanline (line : Nat)
  | startScanline (physicalLine : Nat)
  | finishFrame
deriving DecidableEq

def kLines : Nat := 263

def hblankIndex (c : Nat) : Nat := if c < kHblankStart then 0 else (c - kHblankStart) / kLine + 1

/-- The numbers `previous`, ..., `current - 1` of a counting loop. -/
def countUp (previous current : Nat) : List Nat := List.range' previous (current - previous)

/-- What `nds_tick_display` does, in order: the lines that reached HBlank, the
lines that started, the frames that ended. -/
def displayEvents (last cyc : Nat) : List DisplayEvent :=
  ((countUp (hblankIndex last) (hblankIndex cyc)).filterMap fun i =>
      if i % kLines < 192 then some (.renderScanline (i % kLines)) else none) ++
    (countUp (last / kLine + 1) (cyc / kLine + 1)).map (fun i => .startScanline (i % kLines)) ++
    (countUp (last / (kLine * kLines)) (cyc / (kLine * kLines))).map fun _ => .finishFrame

/-- The ordinal of the last RTC tick due at a time. -/
def rtcDue (cyc : Nat) : Nat :=
  (wrap64 ((cyc + 1) * kRtcDenominator) - 1) / kRtcNumerator

/-- What the ticks call: one display event, one SPU sample, one RTC clock. -/
structure DeviceWork (σ : Type*) where
  display : σ → DisplayEvent → σ
  mix : σ → σ
  rtcClock : σ → σ

/-- The timestamp, the cursors of the three devices and the device state. -/
structure EventClocks (σ : Type*) where
  sysTimestamp : Nat
  displayLast : Nat
  mixCount : Nat
  rtcProcessedTicks : Nat
  dev : σ

variable {σ : Type*} (work : DeviceWork σ)

namespace EventClocks

def tickDisplay (s : EventClocks σ) (cyc : Nat) : EventClocks σ :=
  { s with
    displayLast := cyc
    dev := (displayEvents s.displayLast cyc).foldl work.display s.dev }

def tickSpu (s : EventClocks σ) (cyc : Nat) : EventClocks σ :=
  let due := cyc / 1024
  if s.mixCount ≥ due then s
  else { s with mixCount := due, dev := work.mix^[due - s.mixCount] s.dev }

def tickRtc (s : EventClocks σ) (cyc : Nat) : EventClocks σ :=
  let due := rtcDue cyc
  { s with
    rtcProcessedTicks := max s.rtcProcessedTicks due
    dev := work.rtcClock^[due - s.rtcProcessedTicks] s.dev }

/-- The periodic devices at a rendezvous, then the timestamp. -/
def advance (s : EventClocks σ) (rendezvous : Nat) : EventClocks σ :=
  { tickRtc work (tickSpu work (tickDisplay work s rendezvous) rendezvous) rendezvous with
    sysTimestamp := rendezvous }

end EventClocks

/-- `guest` is anything else that happens to the devices between two
rendezvous. -/
inductive ClockOp (σ : Type*) where
  | advance (rendezvous : Nat)
  | guest (f : σ → σ)

/-- Below this no product of the deadline formulas or the ticks wraps. -/
def InRange (ts : Nat) : Prop :=
  2 * kRtcNumerator + kRtcDenominator + ts * kRtcDenominator < 2 ^ 64

def clockSystem : OpSystem (EventClocks σ) (ClockOp σ) where
  initial := fun s => s.sysTimestamp = 0 ∧ s.displayLast = 0 ∧ s.mixCount = 0 ∧
    s.rtcProcessedTicks = 0
  admits := fun s op =>
    match op with
    | .advance rendezvous => s.sysTimestamp ≤ rendezvous ∧ InRange rendezvous
    | .guest _ => True
  next := fun s op =>
    match op with
    | .advance rendezvous => s.advance work rendezvous
    | .guest f => { s with dev := f s.dev }

/-- Every cursor has caught up with the timestamp. -/
structure EventClocks.CaughtUp (s : EventClocks σ) : Prop where
  range : InRange s.sysTimestamp
  display : s.displayLast = s.sysTimestamp
  spu : s.mixCount = s.sysTimestamp / 1024
  rtc : s.rtcProcessedTicks = rtcDue s.sysTimestamp

/-! ### Where the edges are -/

theorem inRange_iff {ts : Nat} : InRange ts ↔ ts < 562949953419266 := by
  unfold InRange kRtcDenominator kRtcNumerator
  omega

theorem InRange.mono {a b : Nat} (h : InRange b) (hle : a ≤ b) : InRange a := by
  rw [inRange_iff] at *
  omega

theorem rtcDue_eq {t : Nat} (h : InRange t) : rtcDue t = ((t + 1) * 32768 - 1) / 33513982 := by
  rw [inRange_iff] at h
  unfold rtcDue wrap64 kRtcDenominator kRtcNumerator
  rw [Nat.mod_eq_of_lt (by omega)]

theorem rtcDue_mono {a b : Nat} (hb : InRange b) (hle : a ≤ b) : rtcDue a ≤ rtcDue b := by
  rw [rtcDue_eq (hb.mono hle), rtcDue_eq hb]
  exact Nat.div_le_div_right (by omega)

/-- The deadline after the last due tick is the next one past the timestamp,
and the next tick is due there. -/
theorem rtcDeadline_next {ts : Nat} (h : InRange ts) :
    ts < rtcDeadline (rtcDue ts + 1) ∧
      (∀ t < rtcDeadline (rtcDue ts + 1), rtcDue t ≤ rtcDue ts) ∧
      rtcDue (rtcDeadline (rtcDue ts + 1)) = rtcDue ts + 1 := by
  have hrange := h
  rw [inRange_iff] at hrange
  have hdue := rtcDue_eq h
  have hdeadline : rtcDeadline (rtcDue ts + 1) = (rtcDue ts + 1) * 33513982 / 32768 := by
    unfold rtcDeadline wrap64 kRtcNumerator kRtcDenominator
    rw [Nat.mod_eq_of_lt (by omega)]
  have hbefore (t : Nat) (ht : t ≤ rtcDeadline (rtcDue ts + 1)) :
      rtcDue t = ((t + 1) * 32768 - 1) / 33513982 := by
    rw [hdeadline] at ht
    unfold rtcDue wrap64 kRtcDenominator kRtcNumerator
    rw [Nat.mod_eq_of_lt (by omega)]
  refine ⟨?_, ?_, ?_⟩
  · rw [hdeadline]
    omega
  · intro t ht
    rw [hbefore t ht.le]
    rw [hdeadline] at ht
    omega
  · rw [hbefore _ le_rfl, hdeadline]
    omega

/-- The fix-up loop starts at the next ordinal or one before it. -/
theorem rtcTerm_eq {ts : Nat} (h : InRange ts) {fuel : Nat} (hfuel : 2 ≤ fuel) :
    rtcTerm fuel ts = some (rtcDeadline (rtcDue ts + 1)) := by
  obtain ⟨hpast, -, -⟩ := rtcDeadline_next h
  have hrange := h
  rw [inRange_iff] at hrange
  have hdue := rtcDue_eq h
  obtain ⟨k, rfl⟩ := Nat.exists_eq_add_of_le' hfuel
  have hstart : wrap64 (ts * kRtcDenominator) / kRtcNumerator = ts * 32768 / 33513982 := by
    unfold wrap64 kRtcDenominator kRtcNumerator
    rw [Nat.mod_eq_of_lt (by omega)]
  have hexit : ¬ rtcDeadline (rtcDue ts + 1) ≤ ts := by omega
  unfold rtcTerm
  rw [hstart]
  rcases (by omega : ts * 32768 / 33513982 = rtcDue ts ∨
      ts * 32768 / 33513982 + 1 = rtcDue ts) with hnext | hbefore
  · rw [hnext, rtcFixup, if_neg hexit]
  · have hdeadline : rtcDeadline (rtcDue ts) ≤ ts := by
      unfold rtcDeadline wrap64 kRtcNumerator kRtcDenominator
      rw [Nat.mod_eq_of_lt (by omega)]
      omega
    rw [hbefore, rtcFixup, if_pos hdeadline, rtcFixup, if_neg hexit]

theorem lcdTerm_eq {ts : Nat} (h : InRange ts) :
    lcdTerm ts = ts / 2130 * 2130 + if ts % 2130 < 1584 then 1584 else 2130 := by
  rw [inRange_iff] at h
  unfold lcdTerm wrap64 kLine kHblankStart
  have hbase : ts / 2130 * 2130 % 2 ^ 64 = ts / 2130 * 2130 := Nat.mod_eq_of_lt (by omega)
  rw [hbase]
  have hpos : ts - ts / 2130 * 2130 = ts % 2130 := by omega
  dsimp only
  rw [hpos]
  split
  · exact Nat.mod_eq_of_lt (by omega)
  · exact Nat.mod_eq_of_lt (by omega)

theorem spuTerm_eq {ts : Nat} (h : InRange ts) : spuTerm ts = (ts / 1024 + 1) * 1024 := by
  rw [inRange_iff] at h
  exact Nat.mod_eq_of_lt (by omega)

theorem countUp_empty (n : Nat) : countUp n n = [] := by
  rw [countUp, Nat.sub_self]
  rfl

theorem countUp_one (n : Nat) : countUp n (n + 1) = [n] := by
  rw [countUp, Nat.add_sub_cancel_left]
  rfl

/-- The line and frame counters between two edges. -/
theorem counters_before_lcd {ts t : Nat} (h : InRange ts) (hle : ts ≤ t) (ht : t < lcdTerm ts) :
    hblankIndex t = hblankIndex ts ∧ t / kLine = ts / kLine ∧
      t / (kLine * kLines) = ts / (kLine * kLines) := by
  rw [lcdTerm_eq h] at ht
  unfold hblankIndex kLine kHblankStart kLines
  refine ⟨?_, ?_, ?_⟩
  · split_ifs at * <;> omega
  · split_ifs at ht <;> omega
  · split_ifs at ht <;> omega

theorem displayEvents_before_lcd {ts t : Nat} (h : InRange ts) (hle : ts ≤ t)
    (ht : t < lcdTerm ts) : displayEvents ts t = [] := by
  obtain ⟨hhblank, hline, hframe⟩ := counters_before_lcd h hle ht
  unfold displayEvents
  rw [hhblank, hline, hframe, countUp_empty, countUp_empty, countUp_empty]
  rfl

/-- What happens at the next LCD edge: the HBlank of a visible line draws it,
the HBlank of any other line does nothing, a line start starts the line, after
which the frame may end. -/
def lcdWork (ts : Nat) : List DisplayEvent :=
  if ts % kLine < kHblankStart then
    if ts / kLine % kLines < 192 then [.renderScanline (ts / kLine % kLines)] else []
  else
    .startScanline ((ts / kLine + 1) % kLines) ::
      if (ts / kLine + 1) % kLines = 0 then [.finishFrame] else []

theorem displayEvents_at_lcd {ts : Nat} (h : InRange ts) :
    displayEvents ts (lcdTerm ts) = lcdWork ts := by
  have hterm := lcdTerm_eq h
  unfold displayEvents lcdWork kLine kHblankStart kLines
  by_cases hvisible : ts % 2130 < 1584
  · rw [if_pos hvisible] at hterm
    have hhere : hblankIndex ts = ts / 2130 := by
      unfold hblankIndex kHblankStart kLine
      split
      · omega
      · omega
    have hthere : hblankIndex (lcdTerm ts) = ts / 2130 + 1 := by
      rw [hterm]
      unfold hblankIndex kHblankStart kLine
      split
      · omega
      · omega
    have hline : lcdTerm ts / 2130 = ts / 2130 := by omega
    have hframe : lcdTerm ts / (2130 * 263) = ts / (2130 * 263) := by omega
    rw [hhere, hthere, hline, hframe, countUp_one, countUp_empty, countUp_empty, if_pos hvisible]
    simp only [List.filterMap_cons, List.filterMap_nil, List.map_nil, List.append_nil]
    split
    · next hdark =>
        rw [if_neg]
        intro hlt
        simp [hlt] at hdark
    · next event hlit =>
        by_cases hlt : ts / 2130 % 263 < 192
        · rw [if_pos hlt] at hlit ⊢
          rw [Option.some.inj hlit]
        · rw [if_neg hlt] at hlit
          cases hlit
  · rw [if_neg hvisible] at hterm
    have hhblank : hblankIndex (lcdTerm ts) = hblankIndex ts := by
      rw [hterm]
      unfold hblankIndex kHblankStart kLine
      split_ifs <;> omega
    have hline : lcdTerm ts / 2130 + 1 = ts / 2130 + 1 + 1 := by omega
    rw [hhblank, hline, countUp_empty, countUp_one, if_neg hvisible]
    simp only [List.filterMap_nil, List.map_cons, List.map_nil, List.nil_append,
      List.singleton_append]
    congr 1
    by_cases hwrap : (ts / 2130 + 1) % 263 = 0
    · have hframe : lcdTerm ts / (2130 * 263) = ts / (2130 * 263) + 1 := by omega
      rw [hframe, countUp_one, if_pos hwrap]
      rfl
    · have hframe : lcdTerm ts / (2130 * 263) = ts / (2130 * 263) := by omega
      rw [hframe, countUp_empty, if_neg hwrap]
      rfl

theorem lcdWork_eq_nil_iff (ts : Nat) :
    lcdWork ts = [] ↔ ts % kLine < kHblankStart ∧ 192 ≤ ts / kLine % kLines := by
  unfold lcdWork
  by_cases hhblank : ts % kLine < kHblankStart
  · rw [if_pos hhblank]
    by_cases hvisible : ts / kLine % kLines < 192
    · rw [if_pos hvisible]
      simp [hvisible]
    · rw [if_neg hvisible]
      simp [hhblank, Nat.not_lt.mp hvisible]
  · rw [if_neg hhblank]
    simp [hhblank]

theorem lt_lcdTerm {ts : Nat} (h : InRange ts) : ts < lcdTerm ts := by
  rw [lcdTerm_eq h]
  split <;> omega

theorem lt_spuTerm {ts : Nat} (h : InRange ts) : ts < spuTerm ts := by
  rw [spuTerm_eq h]
  omega

theorem lcdTerm_before {ts t : Nat} (h : InRange t) (hle : ts ≤ t) (ht : t < lcdTerm ts) :
    lcdTerm t = lcdTerm ts := by
  rw [lcdTerm_eq (h.mono hle)] at ht ⊢
  rw [lcdTerm_eq h]
  split_ifs at * <;> omega

theorem spuTerm_before {ts t : Nat} (h : InRange t) (hle : ts ≤ t) (ht : t < spuTerm ts) :
    spuTerm t = spuTerm ts := by
  rw [spuTerm_eq (h.mono hle)] at ht ⊢
  rw [spuTerm_eq h]
  omega

theorem hblankIndex_mono {a b : Nat} (hle : a ≤ b) : hblankIndex a ≤ hblankIndex b := by
  unfold hblankIndex kHblankStart kLine
  split_ifs <;> omega

theorem countUp_backward {previous current : Nat} (hle : current ≤ previous) :
    countUp previous current = [] := by
  rw [countUp, Nat.sub_eq_zero_of_le hle]
  rfl

theorem displayEvents_backward {last cyc : Nat} (hle : cyc ≤ last) :
    displayEvents last cyc = [] := by
  unfold displayEvents
  rw [countUp_backward (hblankIndex_mono hle),
    countUp_backward (Nat.succ_le_succ (Nat.div_le_div_right hle)),
    countUp_backward (Nat.div_le_div_right hle)]
  rfl

/-- Two times on one side of every edge see the same events ahead. -/
theorem displayEvents_congr {ts t : Nat} (h : InRange ts) (hle : ts ≤ t) (ht : t < lcdTerm ts)
    (target : Nat) : displayEvents t target = displayEvents ts target := by
  obtain ⟨hhblank, hline, hframe⟩ := counters_before_lcd h hle ht
  unfold displayEvents
  rw [hhblank, hline, hframe]

/-! ### Catching up -/

namespace EventClocks

variable {work}

theorem CaughtUp.tickDisplay_before {s : EventClocks σ} (h : s.CaughtUp) {t : Nat}
    (ht : t < lcdTerm s.sysTimestamp) : s.tickDisplay work t = { s with displayLast := t } := by
  have hnone : displayEvents s.displayLast t = [] := by
    rw [h.display]
    rcases Nat.le_total s.sysTimestamp t with hle | hle
    · exact displayEvents_before_lcd h.range hle ht
    · exact displayEvents_backward hle
  unfold tickDisplay
  rw [hnone]
  rfl

theorem CaughtUp.tickSpu_before {s : EventClocks σ} (h : s.CaughtUp) {t : Nat}
    (ht : t < spuTerm s.sysTimestamp) : s.tickSpu work t = s := by
  rw [spuTerm_eq h.range] at ht
  refine if_pos ?_
  rw [h.spu]
  omega

theorem CaughtUp.tickRtc_before {s : EventClocks σ} (h : s.CaughtUp) {t : Nat}
    (ht : t < rtcDeadline (rtcDue s.sysTimestamp + 1)) : s.tickRtc work t = s := by
  have hdue : rtcDue t ≤ s.rtcProcessedTicks := by
    rw [h.rtc]
    exact (rtcDeadline_next h.range).2.1 t ht
  unfold tickRtc
  dsimp only
  rw [max_eq_left hdue, Nat.sub_eq_zero_of_le hdue]
  rfl

theorem CaughtUp.tickSpu_at {s : EventClocks σ} (h : s.CaughtUp) :
    (s.tickSpu work (spuTerm s.sysTimestamp)).dev = work.mix s.dev := by
  have hdue : spuTerm s.sysTimestamp / 1024 = s.mixCount + 1 := by
    rw [spuTerm_eq h.range, h.spu]
    omega
  unfold tickSpu
  dsimp only
  rw [hdue, if_neg (by omega), Nat.add_sub_cancel_left]
  rfl

theorem CaughtUp.tickRtc_at {s : EventClocks σ} (h : s.CaughtUp) :
    (s.tickRtc work (rtcDeadline (rtcDue s.sysTimestamp + 1))).dev = work.rtcClock s.dev := by
  obtain ⟨-, -, hdue⟩ := rtcDeadline_next h.range
  unfold tickRtc
  dsimp only
  rw [hdue, h.rtc, Nat.add_sub_cancel_left]
  rfl

theorem CaughtUp.tickDisplay_at {s : EventClocks σ} (h : s.CaughtUp) :
    (s.tickDisplay work (lcdTerm s.sysTimestamp)).dev =
      (lcdWork s.sysTimestamp).foldl work.display s.dev := by
  unfold tickDisplay
  rw [h.display, displayEvents_at_lcd h.range]

theorem mixCount_tickSpu (work : DeviceWork σ) (s : EventClocks σ) (cyc : Nat) :
    (s.tickSpu work cyc).mixCount = max s.mixCount (cyc / 1024) := by
  unfold tickSpu
  dsimp only
  split
  · next hdone => exact (max_eq_left hdone).symm
  · next hbehind => exact (max_eq_right (Nat.le_of_not_le hbehind)).symm

theorem rtcProcessedTicks_tickSpu (work : DeviceWork σ) (s : EventClocks σ) (cyc : Nat) :
    (s.tickSpu work cyc).rtcProcessedTicks = s.rtcProcessedTicks := by
  unfold tickSpu
  dsimp only
  split <;> rfl

theorem displayLast_tickSpu (work : DeviceWork σ) (s : EventClocks σ) (cyc : Nat) :
    (s.tickSpu work cyc).displayLast = s.displayLast := by
  unfold tickSpu
  dsimp only
  split <;> rfl

theorem CaughtUp.advance (work : DeviceWork σ) {s : EventClocks σ} (h : s.CaughtUp) {rendezvous : Nat}
    (hle : s.sysTimestamp ≤ rendezvous) (hrange : InRange rendezvous) :
    (s.advance work rendezvous).CaughtUp where
  range := hrange
  display := displayLast_tickSpu _ _ _
  spu := by
    have hspu := mixCount_tickSpu work (s.tickDisplay work rendezvous) rendezvous
    have hcount : (s.tickDisplay work rendezvous).mixCount = s.sysTimestamp / 1024 := h.spu
    rw [hcount, max_eq_right (Nat.div_le_div_right hle)] at hspu
    exact hspu
  rtc := by
    have hrtc := rtcProcessedTicks_tickSpu work (s.tickDisplay work rendezvous) rendezvous
    have hcount : (s.tickDisplay work rendezvous).rtcProcessedTicks = rtcDue s.sysTimestamp := h.rtc
    rw [hcount] at hrtc
    change max _ (rtcDue rendezvous) = rtcDue rendezvous
    rw [hrtc]
    exact max_eq_right (rtcDue_mono hrange hle)

/-- No periodic device has work at or before `t`, counting from `s`. -/
structure Quiet (s : EventClocks σ) (t : Nat) : Prop where
  lcd : t < lcdTerm s.sysTimestamp
  spu : t < spuTerm s.sysTimestamp
  rtc : t < rtcDeadline (rtcDue s.sysTimestamp + 1)

theorem CaughtUp.quiet_now {s : EventClocks σ} (h : s.CaughtUp) : s.Quiet s.sysTimestamp where
  lcd := lt_lcdTerm h.range
  spu := lt_spuTerm h.range
  rtc := (rtcDeadline_next h.range).1

theorem CaughtUp.advance_quiet {s : EventClocks σ} (h : s.CaughtUp) {t : Nat}
    (ht : s.Quiet t) : s.advance work t = { s with sysTimestamp := t, displayLast := t } := by
  have hspu : ({ s with displayLast := t } : EventClocks σ).tickSpu work t =
      { s with displayLast := t } := by
    refine if_pos ?_
    have hterm := ht.spu
    rw [spuTerm_eq h.range] at hterm
    change t / 1024 ≤ s.mixCount
    rw [h.spu]
    omega
  have hdue : rtcDue t ≤ s.rtcProcessedTicks := by
    rw [h.rtc]
    exact (rtcDeadline_next h.range).2.1 t ht.rtc
  unfold EventClocks.advance
  rw [h.tickDisplay_before ht.lcd, hspu]
  unfold tickRtc
  dsimp only
  rw [max_eq_left hdue, Nat.sub_eq_zero_of_le hdue]
  rfl

theorem CaughtUp.advance_now {s : EventClocks σ} (h : s.CaughtUp) :
    s.advance work s.sysTimestamp = s := by
  rw [h.advance_quiet h.quiet_now]
  obtain ⟨ts, last, count, ticks, dev⟩ := s
  have hdisplay : last = ts := h.display
  rw [hdisplay]

/-- `deadline` is no later than the first edge of any device. -/
structure Ahead (s : EventClocks σ) (deadline : Nat) : Prop where
  lcd : deadline ≤ lcdTerm s.sysTimestamp
  spu : deadline ≤ spuTerm s.sysTimestamp
  rtc : deadline ≤ rtcDeadline (rtcDue s.sysTimestamp + 1)

theorem Ahead.quiet {s : EventClocks σ} {deadline t : Nat} (h : s.Ahead deadline)
    (ht : t < deadline) : s.Quiet t :=
  ⟨lt_of_lt_of_le ht h.lcd, lt_of_lt_of_le ht h.spu, lt_of_lt_of_le ht h.rtc⟩

/-- A stop on the way moves none of the edges that are still ahead. -/
theorem Ahead.advance {s : EventClocks σ} (hs : s.CaughtUp) {deadline t : Nat}
    (h : s.Ahead deadline) (hle : s.sysTimestamp ≤ t) (ht : t ≤ deadline)
    (hrange : InRange deadline) : (s.advance work t).Ahead deadline := by
  have hcaught : (s.advance work t).CaughtUp := hs.advance work hle (hrange.mono ht)
  rcases Nat.lt_or_eq_of_le ht with hbefore | rfl
  · have hquiet := h.quiet hbefore
    have htrange := hrange.mono ht
    constructor
    · change deadline ≤ lcdTerm t
      rw [lcdTerm_before htrange hle hquiet.lcd]
      exact h.lcd
    · change deadline ≤ spuTerm t
      rw [spuTerm_before htrange hle hquiet.spu]
      exact h.spu
    · change deadline ≤ rtcDeadline (rtcDue t + 1)
      have hdue : rtcDue t = rtcDue s.sysTimestamp :=
        le_antisymm ((rtcDeadline_next hs.range).2.1 t hquiet.rtc) (rtcDue_mono htrange hle)
      rw [hdue]
      exact h.rtc
  · exact ⟨(hcaught.quiet_now).lcd.le, (hcaught.quiet_now).spu.le, (hcaught.quiet_now).rtc.le⟩

theorem Ahead.advance_advance {s : EventClocks σ} (hs : s.CaughtUp) {deadline t : Nat}
    (h : s.Ahead deadline) (hle : s.sysTimestamp ≤ t) (ht : t ≤ deadline)
    (hrange : InRange deadline) :
    (s.advance work t).advance work deadline = s.advance work deadline := by
  rcases Nat.lt_or_eq_of_le ht with hbefore | rfl
  · rw [hs.advance_quiet (h.quiet hbefore)]
    have hsame : displayEvents t deadline = displayEvents s.displayLast deadline := by
      rw [hs.display]
      exact displayEvents_congr hs.range hle (h.quiet hbefore).lcd deadline
    unfold EventClocks.advance tickDisplay
    dsimp only
    rw [hsame]
    unfold tickSpu tickRtc
    dsimp only
    split <;> rfl
  · exact (hs.advance work hle hrange).advance_now

/-- Any finer steps up to a deadline end where going straight there does. -/
theorem Ahead.steps {deadline : Nat} (hrange : InRange deadline) (steps : List Nat)
    {s : EventClocks σ} (hs : s.CaughtUp) (h : s.Ahead deadline)
    (hsorted : (s.sysTimestamp :: steps).Pairwise (· ≤ ·)) (hle : ∀ t ∈ steps, t ≤ deadline) :
    (steps ++ [deadline]).foldl (EventClocks.advance work) s = s.advance work deadline := by
  induction steps generalizing s with
  | nil => rfl
  | cons t steps ih =>
      obtain ⟨hfirst, hrest⟩ := List.pairwise_cons.mp hsorted
      have htle : t ≤ deadline := hle t List.mem_cons_self
      have hst : s.sysTimestamp ≤ t := hfirst t List.mem_cons_self
      have hstep := ih (hs.advance work hst (hrange.mono htle))
        (h.advance hs hst htle hrange) hrest fun u hu => hle u (List.mem_cons_of_mem _ hu)
      exact hstep.trans (h.advance_advance hs hst htle hrange)

end EventClocks

theorem clockSystem_caughtUp : (clockSystem work).Invariant EventClocks.CaughtUp where
  start := by
    rintro s ⟨hts, hdisplay, hspu, hrtc⟩
    have hrange : InRange s.sysTimestamp := by
      rw [hts, inRange_iff]
      omega
    refine ⟨hrange, hdisplay.trans hts.symm, ?_, ?_⟩
    · rw [hspu, hts]
    · rw [hrtc, rtcDue_eq hrange, hts]
  step := by
    intro s op hs hadmits
    cases op with
    | advance rendezvous => exact hs.advance work hadmits.1 hadmits.2
    | guest f => exact ⟨hs.range, hs.display, hs.spu, hs.rtc⟩

/-- The scheduler's LCD, SPU and RTC deadlines against the devices, in every
reachable state. Nothing happens before a deadline; at its own deadline each
device works, the display except at the HBlank of a line it does not draw; and
the RTC search ends after at most one extra round. -/
theorem event_deadlines_agree {s : EventClocks σ} (hs : (clockSystem work).Reachable s) :
    ∃ rtc, (∀ fuel, 2 ≤ fuel → rtcTerm fuel s.sysTimestamp = some rtc) ∧
      (s.sysTimestamp < lcdTerm s.sysTimestamp ∧ s.sysTimestamp < spuTerm s.sysTimestamp ∧
        s.sysTimestamp < rtc) ∧
      ((∀ t < lcdTerm s.sysTimestamp, (s.tickDisplay work t).dev = s.dev) ∧
        (∀ t < spuTerm s.sysTimestamp, (s.tickSpu work t).dev = s.dev) ∧
        ∀ t < rtc, (s.tickRtc work t).dev = s.dev) ∧
      ((s.tickDisplay work (lcdTerm s.sysTimestamp)).dev =
          (lcdWork s.sysTimestamp).foldl work.display s.dev ∧
        (lcdWork s.sysTimestamp = [] ↔ s.sysTimestamp % kLine < kHblankStart ∧
          192 ≤ s.sysTimestamp / kLine % kLines) ∧
        (s.tickSpu work (spuTerm s.sysTimestamp)).dev = work.mix s.dev ∧
        (s.tickRtc work rtc).dev = work.rtcClock s.dev) ∧
      ∀ deadline steps, InRange deadline →
        deadline ≤ min rtc (min (spuTerm s.sysTimestamp) (lcdTerm s.sysTimestamp)) →
        (s.sysTimestamp :: steps).Pairwise (· ≤ ·) → (∀ t ∈ steps, t ≤ deadline) →
        (steps ++ [deadline]).foldl (EventClocks.advance work) s = s.advance work deadline := by
  have hcaught : s.CaughtUp := hs.invariant (clockSystem_caughtUp work)
  refine ⟨rtcDeadline (rtcDue s.sysTimestamp + 1), ?_, ?_, ?_, ?_, ?_⟩
  · intro fuel hfuel
    exact rtcTerm_eq hcaught.range hfuel
  · exact ⟨hcaught.quiet_now.lcd, hcaught.quiet_now.spu, hcaught.quiet_now.rtc⟩
  · refine ⟨?_, ?_, ?_⟩
    · intro t ht
      rw [hcaught.tickDisplay_before ht]
    · intro t ht
      rw [hcaught.tickSpu_before ht]
    · intro t ht
      rw [hcaught.tickRtc_before ht]
  · exact ⟨hcaught.tickDisplay_at, lcdWork_eq_nil_iff _, hcaught.tickSpu_at, hcaught.tickRtc_at⟩
  · intro deadline steps hrange hdeadline hsorted hle
    obtain ⟨hrtc, hspu, hlcd⟩ : _ ∧ _ ∧ _ := by
      simpa only [le_min_iff] using hdeadline
    exact EventClocks.Ahead.steps hrange steps hcaught ⟨hlcd, hspu, hrtc⟩ hsorted hle

/-- Work that only logs the display events. -/
def displayLog : DeviceWork (List DisplayEvent) where
  display := fun log event => log ++ [event]
  mix := id
  rtcClock := id

/-- Every cursor at zero. -/
def EventClocks.reset {σ : Type*} (dev : σ) : EventClocks σ :=
  { sysTimestamp := 0, displayLast := 0, mixCount := 0, rtcProcessedTicks := 0, dev := dev }

/-- From reset, the first edge draws line 0, and stopping at 700 on the way
changes nothing. -/
theorem event_deadlines_agree_reset :
    ([700] ++ [1022]).foldl (EventClocks.advance displayLog) (EventClocks.reset []) =
      (EventClocks.reset []).advance displayLog 1022 ∧
    ((EventClocks.reset []).tickDisplay displayLog 1584).dev =
      (lcdWork 0).foldl displayLog.display [] := by
  have hreset : (clockSystem displayLog).Reachable (EventClocks.reset []) :=
    .start ⟨rfl, rfl, rfl, rfl⟩
  obtain ⟨rtc, hterm, -, -, ⟨hat, -⟩, hsteps⟩ := event_deadlines_agree displayLog hreset
  have hrtc : rtc = 1022 := by
    have hsearch : rtcTerm 2 0 = some 1022 := by
      rw [rtcTerm_eq (inRange_iff.mpr (by omega)) le_rfl, rtcDue_eq (inRange_iff.mpr (by omega))]
      norm_num [rtcDeadline, wrap64, kRtcNumerator, kRtcDenominator]
    exact Option.some.inj ((hterm 2 le_rfl).symm.trans hsearch)
  have hlcd : lcdTerm (EventClocks.reset ([] : List DisplayEvent)).sysTimestamp = 1584 :=
    lcdTerm_eq (inRange_iff.mpr (by decide))
  have hspu : spuTerm (EventClocks.reset ([] : List DisplayEvent)).sysTimestamp = 1024 :=
    spuTerm_eq (inRange_iff.mpr (by decide))
  rw [hlcd] at hat
  refine ⟨hsteps 1022 [700] (inRange_iff.mpr (by decide)) ?_ ?_ (by decide), hat⟩
  · rw [hrtc, hspu, hlcd]
    decide
  · simp [EventClocks.reset]

/-- At the start of line 192 the next LCD deadline is that line's HBlank, and
the display tick does nothing there. -/
theorem hblank_of_dark_line_idle :
    ¬ ∀ s, (clockSystem displayLog).Reachable s →
      (s.tickDisplay displayLog (lcdTerm s.sysTimestamp)).dev ≠ s.dev := by
  intro hall
  let s := (EventClocks.reset []).advance displayLog 408960
  have hs : (clockSystem displayLog).Reachable s := by
    have hreset : (clockSystem displayLog).Reachable (EventClocks.reset []) :=
      .start ⟨rfl, rfl, rfl, rfl⟩
    have hadmits : (clockSystem displayLog).admits (EventClocks.reset []) (.advance 408960) :=
      ⟨Nat.zero_le _, inRange_iff.mpr (by omega)⟩
    exact .step hreset hadmits
  refine hall s hs ?_
  have hidle : displayEvents 408960 (lcdTerm 408960) = [] := by
    rw [displayEvents_at_lcd (inRange_iff.mpr (by omega))]
    decide
  have hlast : s.displayLast = 408960 := EventClocks.displayLast_tickSpu _ _ _
  have hts : s.sysTimestamp = 408960 := rfl
  unfold EventClocks.tickDisplay
  rw [hlast, hts, hidle, List.foldl_nil]

end NdsRecomp.Scheduler
