import NdsRecomp.Io.DmaRun

/-!
What a channel has moved, however its transactions were cut into calls of
`nds_dma_run` and requests. Units are numbered over all transactions since the
channel was enabled: unit `i` is unit `i % count` of transaction `i / count`.
-/

namespace NdsRecomp.Io

open Library Bus

namespace DmaChannel

variable (cpu : NdsCpu) (ch : Fin 4) (d₀ : DmaChannel)

/-- The count field, or one past its largest value when it is zero. -/
def count : UInt32 :=
  if d₀.cnt &&& countMask cpu ch = 0 then countMask cpu ch + 1 else d₀.cnt &&& countMask cpu ch

/-- The units of one transaction. -/
def units : Nat := (d₀.count cpu ch).toNat

def srcReloads : Prop := d₀.cnt &&& 0x01800000 = 0x01800000

def dstReloads : Prop := d₀.cnt &&& 0x00600000 = 0x00600000

def repeats : Prop := d₀.cnt &&& 0x02000000 ≠ 0

instance : Decidable d₀.srcReloads := inferInstanceAs (Decidable (_ = _))

instance : Decidable d₀.dstReloads := inferInstanceAs (Decidable (_ = _))

instance : Decidable d₀.repeats := inferInstanceAs (Decidable (_ ≠ _))

def srcStride : UInt32 := UInt32.ofInt (d₀.srcInc * d₀.unitWidth)

def dstStride : UInt32 := UInt32.ofInt (d₀.dstInc * d₀.unitWidth)

/-- The source of unit `k` of transaction `t`: a reloading channel starts each
transaction at its source register, any other goes on where it stopped. -/
def srcAt (t k : Nat) : UInt32 :=
  if d₀.srcReloads then d₀.src + UInt32.ofNat k * d₀.srcStride
  else d₀.curSrc + UInt32.ofNat (t * d₀.units cpu ch + k) * d₀.srcStride

def dstAt (t k : Nat) : UInt32 :=
  if d₀.dstReloads then d₀.dst + UInt32.ofNat k * d₀.dstStride
  else d₀.curDst + UInt32.ofNat (t * d₀.units cpu ch + k) * d₀.dstStride

/-- Unit `k` of transaction `t`, aligned to the width of the bus access. -/
def unitAt (t k : Nat) : DmaUnit where
  src := d₀.srcAt cpu ch t k &&& ~~~(d₀.busWidth - 1)
  dst := d₀.dstAt cpu ch t k &&& ~~~(d₀.busWidth - 1)
  width := d₀.busWidth

/-- `d` is the channel `d₀` after `t` whole transactions and `k` units of the
next. -/
structure Follows (d : DmaChannel) (t k : Nat) : Prop where
  src : d.src = d₀.src
  dst : d.dst = d₀.dst
  srcInc : d.srcInc = d₀.srcInc
  dstInc : d.dstInc = d₀.dstInc
  startMode : d.startMode = d₀.startMode
  cnt : d.cnt = if t = 0 ∨ d₀.repeats then d₀.cnt else d₀.cnt &&& ~~~0x80000000
  active : d.inProgress = true →
    d.cnt = d₀.cnt ∧ d.remaining.toNat + k = d₀.units cpu ch ∧
      d.curSrc = d₀.srcAt cpu ch t k ∧ d.curDst = d₀.dstAt cpu ch t k
  idle : d.inProgress = false →
    k = 0 ∧ d.running = false ∧ (¬ d₀.srcReloads → d.curSrc = d₀.srcAt cpu ch t 0) ∧
      (¬ d₀.dstReloads → d.curDst = d₀.dstAt cpu ch t 0)

variable {cpu ch d₀}

theorem units_pos : 0 < d₀.units cpu ch := by
  have hmask : 0 < (countMask cpu ch + 1).toNat := by
    cases cpu with
    | arm9 => exact (by decide : 0 < (0x001FFFFF + 1 : UInt32).toNat)
    | arm7 =>
        unfold countMask
        dsimp only
        split <;> decide
  unfold units count
  split
  · exact hmask
  · rename_i hcount
    exact Nat.pos_of_ne_zero fun hzero => hcount (UInt32.toNat_inj.mp hzero)

theorem offset_succ (base stride : UInt32) (n : Nat) :
    base + UInt32.ofNat (n + 1) * stride = base + UInt32.ofNat n * stride + stride := by
  rw [UInt32.ofNat_add, UInt32.add_mul, UInt32.add_assoc]
  congr 1
  simp

theorem srcAt_succ (t k : Nat) :
    d₀.srcAt cpu ch t (k + 1) = d₀.srcAt cpu ch t k + d₀.srcStride := by
  unfold srcAt
  split
  · exact offset_succ _ _ k
  · exact offset_succ _ _ (t * d₀.units cpu ch + k)

theorem dstAt_succ (t k : Nat) :
    d₀.dstAt cpu ch t (k + 1) = d₀.dstAt cpu ch t k + d₀.dstStride := by
  unfold dstAt
  split
  · exact offset_succ _ _ k
  · exact offset_succ _ _ (t * d₀.units cpu ch + k)

/-- Without reload, the next transaction starts where this one ends. -/
theorem srcAt_units (hreload : ¬ d₀.srcReloads) (t : Nat) :
    d₀.srcAt cpu ch t (d₀.units cpu ch) = d₀.srcAt cpu ch (t + 1) 0 := by
  simp only [srcAt, if_neg hreload, Nat.add_mul, Nat.one_mul, Nat.add_zero]

theorem dstAt_units (hreload : ¬ d₀.dstReloads) (t : Nat) :
    d₀.dstAt cpu ch t (d₀.units cpu ch) = d₀.dstAt cpu ch (t + 1) 0 := by
  simp only [dstAt, if_neg hreload, Nat.add_mul, Nat.one_mul, Nat.add_zero]

/-! ### The channel's steps -/

/-- A channel that has only been enabled. -/
theorem Follows.self (hprogress : d₀.inProgress = false) (hrunning : d₀.running = false) :
    d₀.Follows cpu ch d₀ 0 0 where
  src := rfl
  dst := rfl
  srcInc := rfl
  dstInc := rfl
  startMode := rfl
  cnt := by simp
  active := by simp [hprogress]
  idle := by
    intro _
    refine ⟨rfl, hrunning, fun hreload => ?_, fun hreload => ?_⟩
    · simp [srcAt, hreload]
    · simp [dstAt, hreload]

/-- An enabled channel still has its control word. -/
theorem Follows.cnt_of_enabled {d : DmaChannel} {t k : Nat} (h : d₀.Follows cpu ch d t k)
    (henabled : d.enabled = true) : d.cnt = d₀.cnt := by
  have hcnt := h.cnt
  split at hcnt
  · exact hcnt
  · exfalso
    unfold enabled at henabled
    rw [hcnt, UInt32.and_assoc, show ~~~(0x80000000 : UInt32) &&& 0x80000000 = 0 by decide,
      UInt32.and_zero] at henabled
    exact absurd henabled (by decide)

/-- A request starts the next transaction, or resumes the one in progress. -/
theorem Follows.start {d : DmaChannel} {t k : Nat} (h : d₀.Follows cpu ch d t k)
    (henabled : d.enabled = true) : d₀.Follows cpu ch (d.start cpu ch) t k := by
  have hcnt := h.cnt_of_enabled henabled
  unfold DmaChannel.start
  cases hprogress : d.inProgress with
  | true =>
      obtain ⟨_, hremaining, hsrc, hdst⟩ := h.active hprogress
      exact ⟨h.src, h.dst, h.srcInc, h.dstInc, h.startMode, h.cnt,
        fun _ => ⟨hcnt, hremaining, hsrc, hdst⟩, by simp⟩
  | false =>
      obtain ⟨rfl, _, hsrc, hdst⟩ := h.idle hprogress
      refine ⟨h.src, h.dst, h.srcInc, h.dstInc, h.startMode, h.cnt, fun _ => ?_, by simp⟩
      simp only [Bool.false_eq_true, if_false, beginTransaction]
      refine ⟨hcnt, ?_, ?_, ?_⟩
      · rw [hcnt]
        rfl
      · rw [hcnt]
        change (if d₀.srcReloads then d.src else d.curSrc) = _
        by_cases hreload : d₀.srcReloads
        · rw [if_pos hreload, h.src]
          simp [srcAt, hreload]
        · rw [if_neg hreload]
          exact hsrc hreload
      · rw [hcnt]
        change (if d₀.dstReloads then d.dst else d.curDst) = _
        by_cases hreload : d₀.dstReloads
        · rw [if_pos hreload, h.dst]
          simp [dstAt, hreload]
        · rw [if_neg hreload]
          exact hdst hreload

theorem Follows.moveUnit {d : DmaChannel} {t k : Nat} (h : d₀.Follows cpu ch d t k)
    (hprogress : d.inProgress = true) (hremaining : d.remaining ≠ 0) :
    d₀.Follows cpu ch d.moveUnit t (k + 1) := by
  obtain ⟨hcnt, hcount, hsrc, hdst⟩ := h.active hprogress
  have hwidth : d.unitWidth = d₀.unitWidth := by
    unfold unitWidth
    rw [hcnt]
  have hpos : 1 ≤ d.remaining := by
    rw [UInt32.le_iff_toNat_le]
    exact Nat.pos_of_ne_zero fun hzero => hremaining (UInt32.toNat_inj.mp hzero)
  refine ⟨h.src, h.dst, h.srcInc, h.dstInc, h.startMode, h.cnt, fun _ => ⟨hcnt, ?_, ?_, ?_⟩, ?_⟩
  · change (d.remaining - 1).toNat + (k + 1) = _
    rw [UInt32.toNat_sub_of_le _ _ hpos]
    have hone := UInt32.le_iff_toNat_le.mp hpos
    simp only [UInt32.reduceToNat] at hone ⊢
    omega
  · change d.curSrc + UInt32.ofInt (d.srcInc * d.unitWidth) = _
    rw [srcAt_succ, hsrc, h.srcInc, hwidth]
    rfl
  · change d.curDst + UInt32.ofInt (d.dstInc * d.unitWidth) = _
    rw [dstAt_succ, hdst, h.dstInc, hwidth]
    rfl
  · intro hidle
    exact absurd (hidle.symm.trans hprogress) (by decide)

theorem Follows.suspend {d : DmaChannel} {t k : Nat} (h : d₀.Follows cpu ch d t k) :
    d₀.Follows cpu ch d.suspend t k :=
  ⟨h.src, h.dst, h.srcInc, h.dstInc, h.startMode, h.cnt, h.active,
    fun hidle => ⟨(h.idle hidle).1, rfl, (h.idle hidle).2.2⟩⟩

/-- With no unit remaining the transaction is counted, and the channel keeps
its enable bit only to repeat. -/
theorem Follows.complete {d : DmaChannel} {t k : Nat} (h : d₀.Follows cpu ch d t k)
    (hprogress : d.inProgress = true) (hremaining : d.remaining = 0) :
    k = d₀.units cpu ch ∧ d₀.Follows cpu ch d.complete (t + 1) 0 := by
  obtain ⟨hcnt, hcount, hsrc, hdst⟩ := h.active hprogress
  have hk : k = d₀.units cpu ch := by simpa [hremaining] using hcount
  refine ⟨hk, h.src, h.dst, h.srcInc, h.dstInc, h.startMode, ?_, ?_, ?_⟩
  · change (if d.cnt &&& 0x02000000 = 0 then d.cnt &&& ~~~0x80000000 else d.cnt) = _
    rw [hcnt]
    by_cases hrepeat : d₀.repeats
    · rw [if_neg hrepeat, if_pos (.inr hrepeat)]
    · rw [if_pos (not_not.mp hrepeat), if_neg (by simp [hrepeat])]
  · intro hactive
    exact absurd hactive (by simp [DmaChannel.complete])
  · refine fun _ => ⟨rfl, rfl, fun hreload => ?_, fun hreload => ?_⟩
    · exact hsrc.trans (hk ▸ srcAt_units hreload t)
    · exact hdst.trans (hk ▸ dstAt_units hreload t)

/-- The next access of a channel in progress is unit `k` of its transaction. -/
theorem Follows.nextUnit {d : DmaChannel} {t k : Nat} (h : d₀.Follows cpu ch d t k)
    (hprogress : d.inProgress = true) : d.nextUnit = d₀.unitAt cpu ch t k := by
  obtain ⟨hcnt, _, hsrc, hdst⟩ := h.active hprogress
  have hwidth : d.busWidth = d₀.busWidth := by
    unfold busWidth
    rw [hcnt]
  unfold DmaChannel.nextUnit unitAt
  rw [hwidth, hsrc, hdst]

end DmaChannel

end NdsRecomp.Io
