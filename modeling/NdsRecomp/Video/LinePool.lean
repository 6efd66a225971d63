import NdsRecomp.Library.OpSystem
import NdsRecomp.Library.TicketRound

/-!
The scanline worker pool: the scheduler thread latches line jobs into a ring of
slots, workers and draining threads render them, and captures the lines have
staged are applied at a drain. A step is one atomic operation, one mutex section
or the code between two of them, of `worker_main`, `drain_pool`,
`apply_staged_range`, `submit_line` or one of the fences.

A thread is its call stack. A line in VRAM display mode reads its pixels through
`nds_video_read`, whose fence may call `drain_pool` from inside the rendering.
-/

namespace NdsRecomp.Video

open Library

def kJobSlots : Nat := 256

/-- The part of a latched line that the pool looks at. `engineA` says that
engine A is active and not force-blanked; `index` records which job it is. -/
structure LineJob where
  index : Nat := 0
  dispcnt : UInt32 := 0
  capture : UInt32 := 0
  cap : Bool := false
  capw : Nat := 0
  engineA : Bool := false
  captureCount : Nat := 0

/-- Display mode 2: 256 pixels through `nds_video_read`. -/
def LineJob.displaysVram (job : LineJob) : Bool := job.engineA && (job.dispcnt >>> 16) &&& 3 == 2

def vramPixels : Nat := 256

/-- What a function on a thread's stack does next. -/
inductive LineFrame where
  -- `worker_main`
  | claimLoad
  | headLoad (c : Nat)
  | claimCas (c : Nat)
  | sleep
  | workerCount (index : Nat)
  | workerSignal
  -- `render_line_job`, after `reads` pixels
  | render (index reads : Nat)
  -- `drain_pool` and `apply_staged_range`
  | drainHead
  | drainDone (target : Nat)
  | drainClaim (target : Nat)
  | drainCas (target c : Nat)
  | drainCount (target c : Nat)
  | drainWait (target : Nat)
  | drainClear (target : Nat)
  | drainApply (target : Nat)
  | drainUnstage
  -- `submit_line`
  | submitCheck (job : LineJob)
  | submitLatch (job : LineJob)
  | submitPublish (job : LineJob)
  | submitOutstanding (job : LineJob)
  | submitStaged
  -- `nds_gpu2d_read_fence` and `nds_gpu2d_memory_fence`
  | readFence
  | memoryFence

/-- `Pool`, the two fence flags, and the scheduler's capture bookkeeping. -/
structure LinePool where
  head : Nat := 0
  claim : Nat := 0
  done : Nat := 0
  jobsOutstanding : Bool := false
  stagedCaptures : Bool := false
  stagedBankMask : UInt32 := 0
  captureApplyIndex : Nat := 0
  jobs : Nat → LineJob := fun _ => {}

/-- The job in the ring slot of an index. -/
def LinePool.slot (p : LinePool) (index : Nat) : LineJob := p.jobs (index % kJobSlots)

def LinePool.setSlot (p : LinePool) (index : Nat) (job : LineJob) : LinePool :=
  { p with jobs := Function.update p.jobs (index % kJobSlots) job }

/-- The threads are the scheduler (`none`) and `n` workers. `rendered` and
`applied` record the ring index of each finished render and of each applied
capture, with the index of the job found in the slot, newest first. -/
structure LineState (n : Nat) where
  pool : LinePool := {}
  calls : Option (Fin n) → List LineFrame := fun t => if t.isSome then [.claimLoad] else []
  rendered : List (Nat × Nat) := []
  applied : List (Nat × Nat) := []

def lineReadsStagedBank (mask : UInt32) (job : LineJob) : Bool :=
  let bankBit := (1 : UInt32) <<< ((job.dispcnt >>> 18) &&& 3)
  if mask &&& bankBit = 0 then false
  else if (job.dispcnt >>> 16) &&& 3 = 2 then true
  else job.cap && (job.capture >>> 29) &&& 3 != 0 && job.capture &&& 0x02000000 == 0

namespace LineState

variable {n : Nat}

def setCalls (s : LineState n) (t : Option (Fin n)) (frames : List LineFrame) : LineState n :=
  { s with calls := Function.update s.calls t frames }

def setPool (s : LineState n) (pool : LinePool) : LineState n := { s with pool := pool }

/-- `stage_capture`; `mapped` says whether the destination bank is LCDC-mapped. -/
def staged (job : LineJob) (mapped : Bool) : LineJob :=
  if job.engineA && job.cap then { job with captureCount := if mapped then job.capw else 0 } else job

/-- The end of `render_line_job`. -/
def finishRender (s : LineState n) (index : Nat) (mapped : Bool) : LineState n :=
  let job := s.pool.slot index
  { s with
    pool := s.pool.setSlot index (staged job mapped)
    rendered := (index, job.index) :: s.rendered }

def claimJob (s : LineState n) : LineState n := s.setPool { s.pool with claim := s.pool.claim + 1 }

def countJob (s : LineState n) : LineState n := s.setPool { s.pool with done := s.pool.done + 1 }

/-- `apply_staged_capture` at `g_capture_apply_index`. -/
def applyNext (s : LineState n) : LineState n :=
  let index := s.pool.captureApplyIndex
  let job := s.pool.slot index
  { s with
    pool := { s.pool.setSlot index { job with captureCount := 0 } with captureApplyIndex := index + 1 }
    applied := if job.captureCount = 0 then s.applied else (index, job.index) :: s.applied }

/-- The end of `apply_staged_range`, up to the store to the flag. -/
def clearMask (s : LineState n) : LineState n := s.setPool { s.pool with stagedBankMask := 0 }

/-- `latch_line` leaves the slot's capture count alone. -/
def latchLine (s : LineState n) (job : LineJob) : LineState n :=
  s.setPool (s.pool.setSlot s.pool.head
    { job with index := s.pool.head, captureCount := (s.pool.slot s.pool.head).captureCount })

/-- The bank mask and the mutex section that publishes the job. -/
def publish (s : LineState n) (job : LineJob) : LineState n :=
  s.setPool { s.pool with
    stagedBankMask :=
      if job.cap then s.pool.stagedBankMask ||| (1 : UInt32) <<< ((job.capture >>> 16) &&& 3)
      else s.pool.stagedBankMask
    head := s.pool.head + 1 }

/-- The next step of a thread whose stack is `frame :: rest`. `spurious` makes a
weak compare-exchange fail. -/
def frameStep (s : LineState n) (t : Option (Fin n)) (rest : List LineFrame)
    (spurious mapped : Bool) : LineFrame → LineState n
  | .claimLoad => s.setCalls t (.headLoad s.pool.claim :: rest)
  | .headLoad c => s.setCalls t ((if c < s.pool.head then .claimCas c else .sleep) :: rest)
  | .claimCas c =>
      if spurious = true ∨ s.pool.claim ≠ c then s.setCalls t (.claimLoad :: rest)
      else s.claimJob.setCalls t (.render c 0 :: .workerCount c :: rest)
  | .sleep => s.setCalls t (.claimLoad :: rest)
  | .workerCount _ => s.countJob.setCalls t (.workerSignal :: rest)
  | .workerSignal => s.setCalls t (.claimLoad :: rest)
  | .render index reads =>
      if (s.pool.slot index).displaysVram = true ∧ reads < vramPixels then
        if s.pool.stagedCaptures then s.setCalls t (.drainHead :: .render index (reads + 1) :: rest)
        else s.setCalls t (.render index (reads + 1) :: rest)
      else (s.finishRender index mapped).setCalls t rest
  | .drainHead => s.setCalls t (.drainDone s.pool.head :: rest)
  | .drainDone target =>
      s.setCalls t ((if target ≤ s.pool.done then .drainClear target else .drainClaim target) :: rest)
  | .drainClaim target =>
      s.setCalls t
        ((if target ≤ s.pool.claim then .drainWait target else .drainCas target s.pool.claim) :: rest)
  | .drainCas target c =>
      if spurious = true ∨ s.pool.claim ≠ c then s.setCalls t (.drainClaim target :: rest)
      else s.claimJob.setCalls t (.render c 0 :: .drainCount target c :: rest)
  | .drainCount target _ => s.countJob.setCalls t (.drainClaim target :: rest)
  | .drainWait target =>
      s.setCalls t ((if target ≤ s.pool.done then .drainClear target else .drainWait target) :: rest)
  | .drainClear target =>
      (s.setPool { s.pool with jobsOutstanding := false }).setCalls t (.drainApply target :: rest)
  | .drainApply target =>
      if s.pool.captureApplyIndex < target then s.applyNext.setCalls t (.drainApply target :: rest)
      else s.clearMask.setCalls t (.drainUnstage :: rest)
  | .drainUnstage => (s.setPool { s.pool with stagedCaptures := false }).setCalls t rest
  | .submitCheck job =>
      if kJobSlots ≤ s.pool.head - s.pool.done then
        s.setCalls t (.drainHead :: .submitLatch job :: rest)
      else s.setCalls t (.submitLatch job :: rest)
  | .submitLatch job =>
      if lineReadsStagedBank s.pool.stagedBankMask job then
        (s.latchLine job).setCalls t (.drainHead :: .submitPublish job :: rest)
      else (s.latchLine job).setCalls t (.submitPublish job :: rest)
  | .submitPublish job => (s.publish job).setCalls t (.submitOutstanding job :: rest)
  | .submitOutstanding job =>
      (s.setPool { s.pool with jobsOutstanding := true }).setCalls t
        (if job.cap then .submitStaged :: rest else rest)
  | .submitStaged => (s.setPool { s.pool with stagedCaptures := true }).setCalls t rest
  | .readFence => s.setCalls t (if s.pool.stagedCaptures then .drainHead :: rest else rest)
  | .memoryFence => s.setCalls t (if s.pool.jobsOutstanding then .drainHead :: rest else rest)

def threadStep (s : LineState n) (t : Option (Fin n)) (spurious mapped : Bool) : LineState n :=
  match s.calls t with
  | [] => s
  | frame :: rest => s.frameStep t rest spurious mapped frame

end LineState

/-- What the scheduler thread asks for. -/
inductive LineRequest where
  | submit (job : LineJob)
  | videoRead
  | videoWrite
  | drain

def LineRequest.frame : LineRequest → LineFrame
  | .submit job => .submitCheck job
  | .videoRead => .readFence
  | .videoWrite => .memoryFence
  | .drain => .drainHead

inductive LineOp (n : Nat) where
  | request (r : LineRequest)
  | step (t : Option (Fin n)) (spurious mapped : Bool)

/-- Requests follow one another on the scheduler thread; steps interleave. -/
def LineOp.admitted {n : Nat} (s : LineState n) : LineOp n → Prop
  | .request _ => s.calls none = []
  | .step _ _ _ => True

def LineState.next {n : Nat} (s : LineState n) : LineOp n → LineState n
  | .request r => s.setCalls none [r.frame]
  | .step t spurious mapped => s.threadStep t spurious mapped

def lineSystem (n : Nat) : OpSystem (LineState n) (LineOp n) where
  initial := fun s => s = {}
  admits := LineOp.admitted
  next := LineState.next

/-! ### The discipline -/

/-- How often job `index` was rendered. -/
def LineState.renderCount {n : Nat} (s : LineState n) (index : Nat) : Nat :=
  s.rendered.countP fun e => e.1 = index

/-- The thread has a job it has not counted. -/
def LineFrame.busy : LineFrame → Bool
  | .render _ _ | .workerCount _ | .drainCount _ _ => true
  | _ => false

/-- `claim` is the next job to be rendered, so a published job is rendered once:
it is being rendered, or it has been. -/
structure LineState.Disciplined {n : Nat} (s : LineState n) : Prop where
  once : ∀ i, s.renderCount i ≤ 1
  published : ∀ i < s.pool.claim, (∃ t k, LineFrame.render i k ∈ s.calls t) ∨ s.renderCount i = 1
  own : ∀ e ∈ s.rendered, e.2 = e.1 ∧ e.1 < s.pool.head
  latch : ∀ job rest, s.calls none = .submitLatch job :: rest → kJobSlots ≤ s.pool.head →
    s.renderCount (s.pool.head - kJobSlots) = 1 ∧ (s.pool.slot s.pool.head).captureCount = 0
  order : s.applied.Pairwise fun later earlier => earlier.1 < later.1
  applied_own : ∀ e ∈ s.applied, e.2 = e.1
  no_self_wait : ∀ t target rest, s.calls t = .drainWait target :: rest →
    ∀ i k, LineFrame.render i k ∈ rest → target ≤ i
  finish : ∀ t target rest, s.calls t = .drainWait target :: rest →
    (∀ t' ≠ t, ∀ frame ∈ s.calls t', frame.busy = false) → target ≤ s.pool.done

/-- A pixel read from inside a rendering job finds no staged capture, and a line
that skips the drain for its slot comes fewer than `kJobSlots` lines after the
last completed drain. -/
def LineState.Fenced {n : Nat} (s : LineState n) : LineOp n → Prop
  | .request _ => True
  | .step t _ _ =>
      (∀ index reads rest, s.calls t = .render index reads :: rest →
        (s.pool.slot index).displaysVram = true → reads < vramPixels →
          s.pool.stagedCaptures = false) ∧
      ∀ job rest, s.calls t = .submitCheck job :: rest →
        s.pool.head < s.pool.captureApplyIndex + kJobSlots ∨
          kJobSlots ≤ s.pool.head - s.pool.done

end NdsRecomp.Video
