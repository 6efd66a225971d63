import NdsRecomp.Library.OpSystem
import NdsRecomp.Library.RingQueue
import NdsRecomp.Bus.Backing

/-!
The inter-processor FIFOs: two queues of sixteen words, one for each direction,
with their control registers. `fifo c` holds the words CPU `c` has sent. The
trace ring and the counters beside the queues only observe.
-/

namespace NdsRecomp.Ipc

open Library Bus

def other : NdsCpu → NdsCpu
  | .arm9 => .arm7
  | .arm7 => .arm9

/-- `irf` is the interrupt request register of each CPU. -/
structure IpcFifo where
  fifo : NdsCpu → Nat → UInt32 := fun _ _ => 0
  fifoCnt : NdsCpu → Nat := fun _ => 0
  fifoHead : NdsCpu → Nat := fun _ => 0
  fifocnt : NdsCpu → UInt16 := fun _ => 0
  fifoLastrx : NdsCpu → UInt32 := fun _ => 0
  irf : NdsCpu → UInt32 := fun _ => 0

namespace IpcFifo

def ndsRaiseIrq (s : IpcFifo) (c : NdsCpu) (bits : UInt32) : IpcFifo :=
  { s with irf := Function.update s.irf c (s.irf c ||| bits) }

def ndsClearIrq (s : IpcFifo) (c : NdsCpu) (bits : UInt32) : IpcFifo :=
  { s with irf := Function.update s.irf c (s.irf c &&& ~~~bits) }

def enabled (s : IpcFifo) (c : NdsCpu) : Bool := s.fifocnt c &&& 0x8000 != 0

def setError (s : IpcFifo) (c : NdsCpu) : IpcFifo :=
  { s with fifocnt := Function.update s.fifocnt c (s.fifocnt c ||| 0x4000) }

/-- The word appended to the queue of `c`. -/
def push (s : IpcFifo) (c : NdsCpu) (v : UInt32) : IpcFifo :=
  { s with
    fifo := Function.update s.fifo c
      (Function.update (s.fifo c) ((s.fifoHead c + s.fifoCnt c) % 16) v)
    fifoCnt := Function.update s.fifoCnt c (s.fifoCnt c + 1) }

def fifoSend (s : IpcFifo) (c : NdsCpu) (v : UInt32) : IpcFifo :=
  if !s.enabled c then s
  else if s.fifoCnt c ≥ 16 then s.setError c
  else
    let rcv := other c
    if s.fifoCnt c = 0 ∧ s.fifocnt rcv &&& 0x0400 ≠ 0 then
      (s.push c v).ndsRaiseIrq rcv 0x00040000
    else s.push c v

/-- The oldest word of the queue of `snd` taken out and latched for `c`. -/
def pop (s : IpcFifo) (c snd : NdsCpu) : IpcFifo :=
  { s with
    fifoHead := Function.update s.fifoHead snd ((s.fifoHead snd + 1) % 16)
    fifoCnt := Function.update s.fifoCnt snd (s.fifoCnt snd - 1)
    fifoLastrx := Function.update s.fifoLastrx c (s.fifo snd (s.fifoHead snd)) }

def fifoRecv (s : IpcFifo) (c : NdsCpu) : UInt32 × IpcFifo :=
  let snd := other c
  if s.fifoCnt snd = 0 then (s.fifoLastrx c, s.setError c)
  else
    let v := s.fifo snd (s.fifoHead snd)
    let s' := s.pop c snd
    if s'.fifoCnt snd = 0 ∧ s.fifocnt snd &&& 0x0004 ≠ 0 then
      (v, s'.ndsRaiseIrq snd 0x00020000)
    else (v, s')

/-- A status bit set under a condition. -/
def flag (p : Prop) [Decidable p] (bit : UInt16) : UInt16 := if p then bit else 0

def fifocntRead (s : IpcFifo) (c : NdsCpu) : UInt16 :=
  let rcv := other c
  s.fifocnt c &&& 0xC404 ||| flag (s.fifoCnt c = 0) 0x0001 ||| flag (s.fifoCnt c ≥ 16) 0x0002 |||
    flag (s.fifoCnt rcv = 0) 0x0100 ||| flag (s.fifoCnt rcv ≥ 16) 0x0200

def clearSend (s : IpcFifo) (c : NdsCpu) : IpcFifo :=
  { s with
    fifoCnt := Function.update s.fifoCnt c 0
    fifoHead := Function.update s.fifoHead c 0 }

/-- Interrupts the control write requests at once. -/
def raiseNewlyEnabled (s : IpcFifo) (c : NdsCpu) (v old : UInt16) : IpcFifo :=
  let s :=
    if v &&& 0x0004 ≠ 0 ∧ old &&& 0x0004 = 0 ∧ s.fifoCnt c = 0 then
      s.ndsRaiseIrq c 0x00020000
    else s
  if v &&& 0x0400 ≠ 0 ∧ old &&& 0x0400 = 0 ∧ s.fifoCnt (other c) ≠ 0 then
    s.ndsRaiseIrq c 0x00040000
  else s

def fifocntWrite (s : IpcFifo) (c : NdsCpu) (v : UInt16) : IpcFifo :=
  let old := s.fifocnt c
  let s := if v &&& 0x0008 ≠ 0 then s.clearSend c else s
  let s := s.raiseNewlyEnabled c v old
  let keep := if v &&& 0x4000 ≠ 0 then 0 else old &&& 0x4000
  { s with fifocnt := Function.update s.fifocnt c (keep ||| v &&& 0x8404) }

/-- The words in the queue `c` sends through, oldest first. -/
def contents (s : IpcFifo) (c : NdsCpu) : List UInt32 :=
  ringContents 16 (s.fifo c) (s.fifoHead c) (s.fifoCnt c)

/-- A send the queue takes. -/
def accepts (s : IpcFifo) (c : NdsCpu) : Bool := s.enabled c && decide (s.fifoCnt c < 16)

end IpcFifo

inductive FifoOp where
  | send (c : NdsCpu) (v : UInt32)
  | recv (c : NdsCpu)
  | cnt (c : NdsCpu) (v : UInt16)
  | clearIrq (c : NdsCpu) (bits : UInt32)

/-- The FIFOs with a record of their traffic since the sender's last clear:
`sent c` are the words the queue of `c` accepted, `received c` the words the
other CPU took out of it. -/
structure FifoTraffic where
  ipc : IpcFifo
  sent : NdsCpu → List UInt32
  received : NdsCpu → List UInt32

def FifoTraffic.next (t : FifoTraffic) : FifoOp → FifoTraffic
  | .send c v =>
      { t with
        ipc := t.ipc.fifoSend c v
        sent :=
          if t.ipc.accepts c then Function.update t.sent c (t.sent c ++ [v]) else t.sent }
  | .recv c =>
      let (v, ipc) := t.ipc.fifoRecv c
      { t with
        ipc
        received :=
          if t.ipc.fifoCnt (other c) = 0 then t.received
          else Function.update t.received (other c) (t.received (other c) ++ [v]) }
  | .cnt c v =>
      let ipc := t.ipc.fifocntWrite c v
      if v &&& 0x0008 ≠ 0 then
        ⟨ipc, Function.update t.sent c [], Function.update t.received c []⟩
      else { t with ipc }
  | .clearIrq c bits => { t with ipc := t.ipc.ndsClearIrq c bits }

def fifoSystem : OpSystem FifoTraffic FifoOp where
  initial := fun t => t = ⟨{}, fun _ => [], fun _ => []⟩
  admits := fun _ _ => True
  next := FifoTraffic.next

/-! ### Queue content -/

namespace IpcFifo

theorem other_ne (c : NdsCpu) : other c ≠ c := by
  cases c <;> decide

/-- The queue of one CPU, as far as order and level go. -/
theorem fifoSend_contents (s : IpcFifo) (c d : NdsCpu) (v : UInt32) :
    (s.fifoSend c v).contents d =
      if d = c ∧ s.accepts c = true then s.contents d ++ [v] else s.contents d := by
  have hpush (hroom : s.fifoCnt c < 16) :
      (s.push c v).contents d = if d = c then s.contents d ++ [v] else s.contents d := by
    by_cases hd : d = c
    · subst hd
      rw [if_pos rfl]
      unfold contents push
      simp only [Function.update_self]
      exact ringContents_push _ _ hroom v
    · simp [hd, contents, push]
  unfold fifoSend accepts
  by_cases henabled : s.enabled c = true
  · by_cases hfull : s.fifoCnt c ≥ 16
    · have hnoRoom : ¬ s.fifoCnt c < 16 := by omega
      simp [henabled, hfull, hnoRoom, contents, setError]
    · have hroom : s.fifoCnt c < 16 := by omega
      simp only [henabled, hfull, hroom, Bool.not_true, Bool.false_eq_true, if_false,
        decide_true, Bool.and_true, and_true]
      rw [← hpush hroom]
      split
      · rfl
      · rfl
  · simp [henabled]

theorem fifoRecv_contents (s : IpcFifo) (c : NdsCpu) (hhead : s.fifoHead (other c) < 16) :
    (s.fifoRecv c).2.contents c = s.contents c ∧
      (s.fifoCnt (other c) = 0 → (s.fifoRecv c).2.contents (other c) = s.contents (other c)) ∧
      (s.fifoCnt (other c) ≠ 0 →
        s.contents (other c) = (s.fifoRecv c).1 :: (s.fifoRecv c).2.contents (other c)) := by
  have hne := other_ne c
  unfold fifoRecv
  by_cases hempty : s.fifoCnt (other c) = 0
  · simp [hempty, contents, setError]
  · obtain ⟨k, hk⟩ := Nat.exists_eq_succ_of_ne_zero hempty
    have hpopOther : s.contents (other c) =
        s.fifo (other c) (s.fifoHead (other c)) :: (s.pop c (other c)).contents (other c) := by
      unfold contents pop
      simp only [Function.update_self, hk, Nat.succ_eq_add_one, Nat.add_sub_cancel]
      rw [ringContents_pop, Nat.mod_eq_of_lt hhead]
    have hpopSelf : (s.pop c (other c)).contents c = s.contents c := by
      simp [contents, pop, Function.update_of_ne hne.symm]
    simp only [hempty, if_false, false_implies, true_and]
    split
    · exact ⟨hpopSelf, fun _ => hpopOther⟩
    · exact ⟨hpopSelf, fun _ => hpopOther⟩

theorem raiseNewlyEnabled_queues (s : IpcFifo) (c : NdsCpu) (v old : UInt16) :
    (s.raiseNewlyEnabled c v old).fifo = s.fifo ∧
      (s.raiseNewlyEnabled c v old).fifoCnt = s.fifoCnt ∧
      (s.raiseNewlyEnabled c v old).fifoHead = s.fifoHead := by
  unfold raiseNewlyEnabled
  dsimp only
  split
  · split
    · exact ⟨rfl, rfl, rfl⟩
    · exact ⟨rfl, rfl, rfl⟩
  · split
    · exact ⟨rfl, rfl, rfl⟩
    · exact ⟨rfl, rfl, rfl⟩

/-- A control write changes no queue but the one it clears. -/
theorem fifocntWrite_queues (s : IpcFifo) (c : NdsCpu) (v : UInt16) :
    let cleared := if v &&& 0x0008 ≠ 0 then s.clearSend c else s
    (s.fifocntWrite c v).fifo = cleared.fifo ∧
      (s.fifocntWrite c v).fifoCnt = cleared.fifoCnt ∧
      (s.fifocntWrite c v).fifoHead = cleared.fifoHead :=
  raiseNewlyEnabled_queues _ c v _

theorem fifocntWrite_contents (s : IpcFifo) (c d : NdsCpu) (v : UInt16) :
    (s.fifocntWrite c v).contents d =
      if d = c ∧ v &&& 0x0008 ≠ 0 then [] else s.contents d := by
  obtain ⟨hfifo, hcnt, hhead⟩ := fifocntWrite_queues s c v
  unfold contents
  rw [hfifo, hcnt, hhead]
  by_cases hclear : v &&& 0x0008 ≠ 0
  · by_cases hd : d = c
    · subst hd
      simp [hclear, clearSend]
    · simp [hclear, hd, clearSend]
  · simp [hclear]

end IpcFifo

end NdsRecomp.Ipc
