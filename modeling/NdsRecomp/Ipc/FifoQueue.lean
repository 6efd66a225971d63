import NdsRecomp.Ipc.Fifo

/-!
What the two FIFOs promise to each other's CPU over every interleaving of their
operations: no word is lost, doubled or moved, the status bits are the levels,
and an enabled interrupt follows the level it watches.
-/

namespace NdsRecomp.Ipc

open Library Bus

/-! ### Order -/

/-- What was sent is what was received and what is still queued. -/
structure FifoTraffic.Ordered (t : FifoTraffic) : Prop where
  traffic : ∀ c, t.sent c = t.received c ++ t.ipc.contents c
  level : ∀ c, t.ipc.fifoCnt c ≤ 16
  head : ∀ c, t.ipc.fifoHead c < 16

theorem contents_length (s : IpcFifo) (c : NdsCpu) : (s.contents c).length = s.fifoCnt c :=
  ringContents_length _ _ _ _

namespace IpcFifo

theorem fifoSend_level (s : IpcFifo) (c d : NdsCpu) (v : UInt32) :
    (s.fifoSend c v).fifoCnt d = s.fifoCnt d + if d = c ∧ s.accepts c = true then 1 else 0 := by
  have hcontents := congrArg List.length (fifoSend_contents s c d v)
  rw [contents_length] at hcontents
  rw [hcontents]
  split
  · rw [List.length_append, contents_length, List.length_singleton]
  · rw [contents_length, Nat.add_zero]

theorem fifoSend_head (s : IpcFifo) (c : NdsCpu) (v : UInt32) :
    (s.fifoSend c v).fifoHead = s.fifoHead := by
  unfold fifoSend
  split
  · rfl
  split
  · rfl
  dsimp only
  split
  · rfl
  · rfl

theorem fifoRecv_head (s : IpcFifo) (c d : NdsCpu) (h : s.fifoHead d < 16) :
    (s.fifoRecv c).2.fifoHead d < 16 := by
  have hpop : (s.pop c (other c)).fifoHead d < 16 := by
    unfold pop
    by_cases hd : d = other c
    · subst hd
      simp only [Function.update_self]
      exact Nat.mod_lt _ (by decide)
    · simpa [Function.update_of_ne hd] using h
  unfold fifoRecv
  dsimp only
  split
  · exact h
  split
  · exact hpop
  · exact hpop

end IpcFifo

theorem Ordered.send {t : FifoTraffic} (h : t.Ordered) (c : NdsCpu) (v : UInt32) :
    (t.next (.send c v)).Ordered where
  traffic := by
    intro d
    simp only [FifoTraffic.next, IpcFifo.fifoSend_contents]
    by_cases haccepts : t.ipc.accepts c = true
    · by_cases hd : d = c
      · subst hd
        simp [haccepts, h.traffic]
      · simp [haccepts, hd, h.traffic]
    · simp [haccepts, h.traffic]
  level := by
    intro d
    have hlevel := h.level d
    change (t.ipc.fifoSend c v).fifoCnt d ≤ 16
    rw [IpcFifo.fifoSend_level]
    split
    · next haccepts =>
        obtain ⟨rfl, haccepts⟩ := haccepts
        simp only [IpcFifo.accepts, Bool.and_eq_true, decide_eq_true_eq] at haccepts
        omega
    · exact hlevel
  head := by
    intro d
    change (t.ipc.fifoSend c v).fifoHead d < 16
    rw [IpcFifo.fifoSend_head]
    exact h.head d

theorem eq_or_other (c d : NdsCpu) : d = c ∨ d = other c := by
  cases c <;> cases d <;> simp [other]

theorem Ordered.recv {t : FifoTraffic} (h : t.Ordered) (c : NdsCpu) :
    (t.next (.recv c)).Ordered := by
  obtain ⟨hself, hempty, hfull⟩ := t.ipc.fifoRecv_contents c (h.head (other c))
  have hlevel (d : NdsCpu) : ((t.ipc.fifoRecv c).2.contents d).length ≤ 16 := by
    have hsame := h.level d
    rw [← contents_length] at hsame
    rcases eq_or_other c d with rfl | rfl
    · rw [hself]
      exact hsame
    · by_cases hzero : t.ipc.fifoCnt (other c) = 0
      · rw [hempty hzero]
        exact hsame
      · rw [hfull hzero, List.length_cons] at hsame
        omega
  refine ⟨?_, ?_, fun d => t.ipc.fifoRecv_head c d (h.head d)⟩
  · intro d
    simp only [FifoTraffic.next]
    rcases eq_or_other c d with rfl | rfl
    · rw [hself]
      split
      · exact h.traffic d
      · rw [Function.update_of_ne (IpcFifo.other_ne d).symm]
        exact h.traffic d
    · split
      · next hzero =>
          rw [hempty hzero]
          exact h.traffic (other c)
      · next hzero =>
          rw [Function.update_self, List.append_assoc, List.singleton_append, ← hfull hzero]
          exact h.traffic (other c)
  · intro d
    rw [← contents_length]
    exact hlevel d

theorem Ordered.cnt {t : FifoTraffic} (h : t.Ordered) (c : NdsCpu) (v : UInt16) :
    (t.next (.cnt c v)).Ordered := by
  obtain ⟨-, hcnt, hhead⟩ := t.ipc.fifocntWrite_queues c v
  by_cases hclear : v &&& 0x0008 ≠ 0
  · have hnext : t.next (.cnt c v) = ⟨t.ipc.fifocntWrite c v, Function.update t.sent c [],
        Function.update t.received c []⟩ := if_pos hclear
    rw [hnext]
    rw [if_pos hclear] at hcnt hhead
    refine ⟨?_, ?_, ?_⟩
    · intro d
      dsimp only
      rw [IpcFifo.fifocntWrite_contents]
      by_cases hd : d = c
      · subst hd
        simp [hclear]
      · simp [hd, h.traffic]
    · intro d
      dsimp only
      rw [hcnt]
      by_cases hd : d = c
      · subst hd
        simp [IpcFifo.clearSend]
      · simpa [IpcFifo.clearSend, hd] using h.level d
    · intro d
      dsimp only
      rw [hhead]
      by_cases hd : d = c
      · subst hd
        simp [IpcFifo.clearSend]
      · simpa [IpcFifo.clearSend, hd] using h.head d
  · have hnext : t.next (.cnt c v) = { t with ipc := t.ipc.fifocntWrite c v } := if_neg hclear
    rw [hnext]
    rw [if_neg hclear] at hcnt hhead
    refine ⟨?_, ?_, ?_⟩
    · intro d
      dsimp only
      rw [IpcFifo.fifocntWrite_contents, if_neg fun hboth => hclear hboth.2]
      exact h.traffic d
    · intro d
      dsimp only
      rw [hcnt]
      exact h.level d
    · intro d
      dsimp only
      rw [hhead]
      exact h.head d

theorem fifo_ordered : fifoSystem.Invariant FifoTraffic.Ordered where
  start := by
    rintro t rfl
    exact ⟨fun _ => rfl, fun _ => Nat.zero_le _, fun _ => Nat.zero_lt_succ _⟩
  step := by
    intro t op h _
    cases op with
    | send c v => exact Ordered.send h c v
    | recv c => exact Ordered.recv h c
    | cnt c v => exact Ordered.cnt h c v
    | clearIrq c bits => exact ⟨h.traffic, h.level, h.head⟩

/-! ### Status and interrupt bits -/

private theorem or_and16 (x y m : UInt16) : (x ||| y) &&& m = (x &&& m) ||| (y &&& m) := by
  apply UInt16.toBitVec_inj.1
  simp only [UInt16.toBitVec_and, UInt16.toBitVec_or]
  ext i hi
  simp [Bool.and_or_distrib_right]

private theorem or_and_self32 (x m : UInt32) : (x ||| m) &&& m = m := by
  apply UInt32.toBitVec_inj.1
  simp only [UInt32.toBitVec_and, UInt32.toBitVec_or]
  ext i hi
  simp only [BitVec.getElem_and, BitVec.getElem_or]
  cases x.toBitVec[i] <;> cases m.toBitVec[i] <;> rfl

private theorem or_and_keeps32 {x m b : UInt32} (h : x &&& b = b) : (x ||| m) &&& b = b := by
  apply UInt32.toBitVec_inj.1
  have hbits := congrArg UInt32.toBitVec h
  simp only [UInt32.toBitVec_and, UInt32.toBitVec_or] at hbits ⊢
  ext i hi
  have hbit := congrArg (fun bits => bits[i]) hbits
  simp only [BitVec.getElem_and, BitVec.getElem_or] at hbit ⊢
  cases hx : x.toBitVec[i] <;> cases hb : b.toBitVec[i] <;> simp_all

/-- The four level bits of a control register are the two levels. -/
def StatusExact (s : IpcFifo) (c : NdsCpu) : Prop :=
  (s.fifocntRead c &&& 0x0001 ≠ 0 ↔ s.fifoCnt c = 0) ∧
    (s.fifocntRead c &&& 0x0002 ≠ 0 ↔ s.fifoCnt c = 16) ∧
    (s.fifocntRead c &&& 0x0100 ≠ 0 ↔ s.fifoCnt (other c) = 0) ∧
    (s.fifocntRead c &&& 0x0200 ≠ 0 ↔ s.fifoCnt (other c) = 16)

theorem statusExact_of_level {s : IpcFifo} (c : NdsCpu) (hself : s.fifoCnt c ≤ 16)
    (hother : s.fifoCnt (other c) ≤ 16) : StatusExact s c := by
  have hkept (m : UInt16) (hm : (0xC404 : UInt16) &&& m = 0) :
      s.fifocnt c &&& 0xC404 &&& m = 0 := by
    rw [UInt16.and_assoc, hm, UInt16.and_zero]
  have hfull (d : NdsCpu) (h : s.fifoCnt d ≤ 16) : s.fifoCnt d ≥ 16 ↔ s.fifoCnt d = 16 := by
    omega
  unfold StatusExact IpcFifo.fifocntRead
  simp only [or_and16, hkept 0x0001 (by decide), hkept 0x0002 (by decide),
    hkept 0x0100 (by decide), hkept 0x0200 (by decide), IpcFifo.flag, hfull c hself,
    hfull (other c) hother]
  refine ⟨?_, ?_, ?_, ?_⟩
  all_goals
    by_cases h0 : s.fifoCnt c = 0 <;> by_cases h16 : s.fifoCnt c = 16 <;>
      by_cases r0 : s.fifoCnt (other c) = 0 <;> by_cases r16 : s.fifoCnt (other c) = 16 <;>
        simp [h0, h16, r0, r16] <;> decide

/-- An interrupt request bit stands. -/
def Requested (s : IpcFifo) (c : NdsCpu) (bit : UInt32) : Prop := s.irf c &&& bit = bit

theorem requested_raise (s : IpcFifo) (c : NdsCpu) (bit : UInt32) :
    Requested (s.ndsRaiseIrq c bit) c bit := by
  unfold Requested IpcFifo.ndsRaiseIrq
  simp only [Function.update_self]
  exact or_and_self32 _ _

theorem Requested.raise {s : IpcFifo} {c : NdsCpu} {bit : UInt32} (h : Requested s c bit)
    (d : NdsCpu) (more : UInt32) : Requested (s.ndsRaiseIrq d more) c bit := by
  unfold Requested IpcFifo.ndsRaiseIrq at *
  by_cases hd : c = d
  · subst hd
    simp only [Function.update_self]
    exact or_and_keeps32 h
  · simpa [Function.update_of_ne hd] using h

/-- The interrupts a step owes: receive-not-empty when a queue stops being
empty, send-empty when a receive empties it, and either of them at once where a
control write newly enables it on a standing condition. -/
structure InterruptsRaised (s s' : IpcFifo) (op : FifoOp) : Prop where
  notEmpty : ∀ c, s.fifoCnt c = 0 → s'.fifoCnt c ≠ 0 → s.fifocnt (other c) &&& 0x0400 ≠ 0 →
    Requested s' (other c) 0x00040000
  empty : ∀ c, s.fifoCnt c ≠ 0 → s'.fifoCnt c = 0 → s.fifocnt c &&& 0x0004 ≠ 0 →
    (∀ v, op = .cnt c v → v &&& 0x0008 = 0) → Requested s' c 0x00020000
  enabledEmpty : ∀ c v, op = .cnt c v → v &&& 0x0004 ≠ 0 → s.fifocnt c &&& 0x0004 = 0 →
    s'.fifoCnt c = 0 → Requested s' c 0x00020000
  enabledNotEmpty : ∀ c v, op = .cnt c v → v &&& 0x0400 ≠ 0 → s.fifocnt c &&& 0x0400 = 0 →
    s'.fifoCnt (other c) ≠ 0 → Requested s' c 0x00040000

theorem send_interrupts (s : IpcFifo) (c : NdsCpu) (v : UInt32) :
    InterruptsRaised s (s.fifoSend c v) (.send c v) where
  notEmpty := by
    intro d hempty hfilled henabled
    rw [IpcFifo.fifoSend_level, hempty] at hfilled
    obtain ⟨rfl, haccepts⟩ : d = c ∧ s.accepts c = true := by
      by_contra hnot
      simp [hnot] at hfilled
    simp only [IpcFifo.accepts, Bool.and_eq_true, decide_eq_true_eq] at haccepts
    unfold IpcFifo.fifoSend
    simp only [haccepts.1, hempty, henabled, Bool.not_true, Bool.false_eq_true, if_false,
      ne_eq, not_false_eq_true, and_self, if_true]
    exact requested_raise _ _ _
  empty := by
    intro d hfilled hempty _ _
    rw [IpcFifo.fifoSend_level] at hempty
    omega
  enabledEmpty := by
    rintro d w ⟨⟩
  enabledNotEmpty := by
    rintro d w ⟨⟩

/-- A receive lowers the level of the queue it reads and no other. -/
theorem fifoRecv_level (s : IpcFifo) (c d : NdsCpu) :
    (s.fifoRecv c).2.fifoCnt d = s.fifoCnt d - if d = other c then 1 else 0 := by
  have hpop : (s.pop c (other c)).fifoCnt d = s.fifoCnt d - if d = other c then 1 else 0 := by
    unfold IpcFifo.pop
    by_cases hd : d = other c
    · subst hd
      simp
    · simp [hd]
  unfold IpcFifo.fifoRecv
  dsimp only
  split
  · next hzero =>
      by_cases hd : d = other c
      · subst hd
        simp [IpcFifo.setError, hzero]
      · simp [IpcFifo.setError, hd]
  split
  · exact hpop
  · exact hpop

theorem recv_interrupts (s : IpcFifo) (c : NdsCpu) :
    InterruptsRaised s (s.fifoRecv c).2 (.recv c) where
  notEmpty := by
    intro d hempty hfilled _
    rw [fifoRecv_level, hempty] at hfilled
    omega
  empty := by
    intro d hfilled hempty henabled _
    have hlevel := fifoRecv_level s c d
    rw [hempty] at hlevel
    obtain rfl : d = other c := by
      by_contra hd
      rw [if_neg hd] at hlevel
      omega
    have hlast : (s.pop c (other c)).fifoCnt (other c) = 0 := by
      simp only [IpcFifo.pop, Function.update_self]
      rw [if_pos rfl] at hlevel
      exact hlevel.symm
    unfold IpcFifo.fifoRecv
    simp only [hfilled, hlast, henabled, if_false, ne_eq, not_false_eq_true, and_self, if_true]
    exact requested_raise _ _ _
  enabledEmpty := by
    rintro d w ⟨⟩
  enabledNotEmpty := by
    rintro d w ⟨⟩

theorem cnt_interrupts (s : IpcFifo) (c : NdsCpu) (v : UInt16) :
    InterruptsRaised s (s.fifocntWrite c v) (.cnt c v) := by
  obtain ⟨-, hcnt, -⟩ := s.fifocntWrite_queues c v
  let cleared := if v &&& 0x0008 ≠ 0 then s.clearSend c else s
  have hclearedCnt (d : NdsCpu) :
      cleared.fifoCnt d = if d = c ∧ v &&& 0x0008 ≠ 0 then 0 else s.fifoCnt d := by
    unfold cleared
    by_cases hclear : v &&& 0x0008 ≠ 0
    · by_cases hd : d = c
      · subst hd
        simp [hclear, IpcFifo.clearSend]
      · simp [hclear, hd, IpcFifo.clearSend]
    · simp [hclear]
  have hirf (bit : UInt32) (h : Requested (cleared.raiseNewlyEnabled c v (s.fifocnt c)) c bit) :
      Requested (s.fifocntWrite c v) c bit := h
  refine ⟨?_, ?_, ?_, ?_⟩
  · intro d hempty hfilled _
    rw [hcnt] at hfilled
    change cleared.fifoCnt d ≠ 0 at hfilled
    rw [hclearedCnt, hempty, ite_self] at hfilled
    exact absurd rfl hfilled
  · intro d hfilled hempty _ hkept
    have hnoClear := hkept v
    rw [hcnt] at hempty
    change cleared.fifoCnt d = 0 at hempty
    rw [hclearedCnt] at hempty
    split at hempty
    · next hboth =>
        obtain ⟨rfl, hclear⟩ := hboth
        exact absurd (hnoClear rfl) hclear
    · exact absurd hempty hfilled
  · rintro d w hop henable hold hempty
    cases hop
    rw [hcnt] at hempty
    refine hirf _ ?_
    have hraise : Requested (cleared.ndsRaiseIrq c 0x00020000) c 0x00020000 :=
      requested_raise _ _ _
    unfold IpcFifo.raiseNewlyEnabled
    simp only [henable, hold, ne_eq, not_false_eq_true, true_and]
    rw [if_pos hempty]
    split
    · exact hraise.raise _ _
    · exact hraise
  · rintro d w hop henable hold hfilled
    cases hop
    rw [hcnt] at hfilled
    refine hirf _ ?_
    unfold IpcFifo.raiseNewlyEnabled
    dsimp only
    have hlevel (t : IpcFifo) (ht : t.fifoCnt = cleared.fifoCnt) :
        v &&& 0x0400 ≠ 0 ∧ s.fifocnt c &&& 0x0400 = 0 ∧ t.fifoCnt (other c) ≠ 0 :=
      ⟨henable, hold, by rw [ht]; exact hfilled⟩
    split
    · rw [if_pos (hlevel (cleared.ndsRaiseIrq c 0x00020000) rfl)]
      exact requested_raise _ _ _
    · rw [if_pos (hlevel cleared rfl)]
      exact requested_raise _ _ _

theorem interrupts_raised (t : FifoTraffic) (op : FifoOp) :
    InterruptsRaised t.ipc (t.next op).ipc op := by
  cases op with
  | send c v => exact send_interrupts t.ipc c v
  | recv c => exact recv_interrupts t.ipc c
  | cnt c v =>
      have hnext : (t.next (.cnt c v)).ipc = t.ipc.fifocntWrite c v := by
        unfold FifoTraffic.next
        dsimp only
        split
        · rfl
        · rfl
      rw [hnext]
      exact cnt_interrupts t.ipc c v
  | clearIrq c bits =>
      refine ⟨fun d hempty hfilled => absurd hempty hfilled,
        fun d hfilled hempty => absurd hempty hfilled, ?_, ?_⟩
      · rintro d w ⟨⟩
      · rintro d w ⟨⟩

/-! ### Errors -/

/-- The error bit is set and every queue stays as it is. -/
def OnlyError (s s' : IpcFifo) (c : NdsCpu) : Prop :=
  s'.fifocnt c &&& 0x4000 = 0x4000 ∧ ∀ d, s'.contents d = s.contents d

theorem onlyError_setError (s : IpcFifo) (c : NdsCpu) : OnlyError s (s.setError c) c := by
  refine ⟨?_, fun d => rfl⟩
  unfold IpcFifo.setError
  simp only [Function.update_self]
  apply UInt16.toBitVec_inj.1
  simp only [UInt16.toBitVec_and, UInt16.toBitVec_or]
  ext i hi
  simp only [BitVec.getElem_and, BitVec.getElem_or]
  cases (s.fifocnt c).toBitVec[i] <;> cases (UInt16.toBitVec 0x4000)[i] <;> rfl

/-- Two words pass from the ARM9 to the ARM7, the second not yet received. -/
private def twoWords : FifoTraffic :=
  fifoSystem.runFrom ⟨{}, fun _ => [], fun _ => []⟩
    [.cnt .arm9 0x8000, .send .arm9 7, .send .arm9 8, .recv .arm7]

private theorem twoWords_reachable : fifoSystem.Reachable twoWords :=
  OpSystem.Reachable.runFrom (.start rfl) ⟨trivial, trivial, trivial, trivial, trivial⟩

end NdsRecomp.Ipc
