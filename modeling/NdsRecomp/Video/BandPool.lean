import NdsRecomp.Library.OpSystem
import NdsRecomp.Library.TicketRound

/-!
The adaptive compositor's band pool, over one lifetime of the pool. A step is
one atomic operation or one mutex section of `band_worker_main` or of
`composite_adaptive_frame`; the bounded waits on the condition variables may end
at any time, so a notification adds no step.

The context of the `k`-th call is the number `k`. A composited line is recorded
with the context it was drawn from and the number of calls that had returned.
-/

namespace NdsRecomp.Video

open Library

/-- The atomics of `BandPool`. -/
structure BandPool where
  generation : UInt64 := 0
  ctx : Option Nat := none
  yEnd : Nat := 0
  nextY : Nat := 0
  completed : Nat := 0

/-- What a helper does next. -/
inductive HelperPhase where
  /-- load `seen` -/
  | starting
  /-- the wait under the mutex -/
  | waiting
  /-- load `ctx` -/
  | woken
  /-- load `y_end`, then leave if the context is null -/
  | haveCtx (ctx : Option Nat)
  /-- `next_y.fetch_add` -/
  | claiming (ctx yEnd : Nat) (didAny : Bool)
  /-- composite line `y` -/
  | holding (ctx yEnd y : Nat)
  /-- `completed.fetch_add` -/
  | drawn (ctx yEnd y : Nat)
  /-- the empty mutex section before `done_cv` is notified -/
  | signalling
deriving DecidableEq

structure Helper where
  seen : UInt64 := 0
  phase : HelperPhase := .starting

/-- What the calling thread does next. -/
inductive CallerPhase where
  | idle
  /-- composite line `y` without the pool -/
  | serial (y : Nat)
  | storeCtx
  | storeYEnd
  | storeNextY
  | storeCompleted
  /-- the mutex section with the generation bump -/
  | publish
  | claiming
  | holding (y : Nat)
  | drawn (y : Nat)
  /-- load `completed` -/
  | awaiting
  | clearCtx
deriving DecidableEq

/-- One composited line. -/
structure Composite where
  frame : Nat
  line : Nat
  during : Nat
deriving DecidableEq

/-- `returned` calls have returned, so `returned` is the call in progress. -/
structure BandState (n : Nat) where
  pool : BandPool := {}
  helpers : Fin n → Helper := fun _ => {}
  caller : CallerPhase := .idle
  returned : Nat := 0
  log : List Composite := []

def adaptiveLines : Nat := 192

namespace BandState

variable {n : Nat}

def setHelper (s : BandState n) (i : Fin n) (h : Helper) : BandState n :=
  { s with helpers := Function.update s.helpers i h }

def setPhase (s : BandState n) (i : Fin n) (phase : HelperPhase) : BandState n :=
  s.setHelper i { s.helpers i with phase := phase }

def setCaller (s : BandState n) (phase : CallerPhase) : BandState n := { s with caller := phase }

def setPool (s : BandState n) (pool : BandPool) : BandState n := { s with pool := pool }

/-- `composite_adaptive_line` -/
def composite (s : BandState n) (ctx y : Nat) : BandState n :=
  { s with log := ⟨ctx, y, s.returned⟩ :: s.log }

def takeLine (s : BandState n) : BandState n := s.setPool { s.pool with nextY := s.pool.nextY + 1 }

def countLine (s : BandState n) : BandState n :=
  s.setPool { s.pool with completed := s.pool.completed + 1 }

/-- `band_worker_main` -/
def helperStep (s : BandState n) (i : Fin n) : BandState n :=
  match (s.helpers i).phase with
  | .starting => s.setHelper i ⟨s.pool.generation, .waiting⟩
  | .waiting =>
      if s.pool.generation = (s.helpers i).seen then s
      else s.setHelper i ⟨s.pool.generation, .woken⟩
  | .woken => s.setPhase i (.haveCtx s.pool.ctx)
  | .haveCtx none => s.setPhase i .waiting
  | .haveCtx (some ctx) => s.setPhase i (.claiming ctx s.pool.yEnd false)
  | .claiming ctx yEnd didAny =>
      if s.pool.nextY < yEnd then s.takeLine.setPhase i (.holding ctx yEnd s.pool.nextY)
      else s.takeLine.setPhase i (if didAny then .signalling else .waiting)
  | .holding ctx yEnd y => (s.composite ctx y).setPhase i (.drawn ctx yEnd y)
  | .drawn ctx yEnd _ => s.countLine.setPhase i (.claiming ctx yEnd true)
  | .signalling => s.setPhase i .waiting

def ret (s : BandState n) : BandState n := { s with caller := .idle, returned := s.returned + 1 }

/-- `composite_adaptive_frame`, after its entry. -/
def callerStep (s : BandState n) : BandState n :=
  match s.caller with
  | .idle => s
  | .serial y =>
      if y < adaptiveLines then (s.composite s.returned y).setCaller (.serial (y + 1)) else s.ret
  | .storeCtx => (s.setPool { s.pool with ctx := some s.returned }).setCaller .storeYEnd
  | .storeYEnd => (s.setPool { s.pool with yEnd := adaptiveLines }).setCaller .storeNextY
  | .storeNextY => (s.setPool { s.pool with nextY := 0 }).setCaller .storeCompleted
  | .storeCompleted => (s.setPool { s.pool with completed := 0 }).setCaller .publish
  | .publish => (s.setPool { s.pool with generation := s.pool.generation + 1 }).setCaller .claiming
  | .claiming =>
      if s.pool.nextY < adaptiveLines then s.takeLine.setCaller (.holding s.pool.nextY)
      else s.takeLine.setCaller .awaiting
  | .holding y => (s.composite s.returned y).setCaller (.drawn y)
  | .drawn _ => s.countLine.setCaller .claiming
  | .awaiting => if s.pool.completed < adaptiveLines then s else s.setCaller .clearCtx
  | .clearCtx => (s.setPool { s.pool with ctx := none }).ret

end BandState

inductive BandOp (n : Nat) where
  /-- Entry of `composite_adaptive_frame`; the flag is `ctx.snapshot_matches`. -/
  | call (snapshotMatches : Bool)
  | caller
  | helper (i : Fin n)

def BandState.next {n : Nat} (s : BandState n) : BandOp n → BandState n
  | .call snapshotMatches => s.setCaller (if snapshotMatches then .storeCtx else .serial 0)
  | .caller => s.callerStep
  | .helper i => s.helperStep i

/-- Calls follow one another; everything else interleaves freely. -/
def bandSystem (n : Nat) : OpSystem (BandState n) (BandOp n) where
  initial := fun s => s = {}
  admits := fun s op =>
    match op with
    | .call _ => s.caller = .idle
    | .caller | .helper _ => True
  next := BandState.next

/-- How often line `y` was composited from context `k`. -/
def BandState.drawCount {n : Nat} (s : BandState n) (k y : Nat) : Nat :=
  s.log.countP fun e => e.frame = k ∧ e.line = y

/-- Every line of a returned call was composited once from its own context, and
nothing was ever composited from the context of a call that had returned. -/
structure BandState.Disciplined {n : Nat} (s : BandState n) : Prop where
  once : ∀ k < s.returned, ∀ y < adaptiveLines, s.drawCount k y = 1
  own : ∀ e ∈ s.log, e.during = e.frame ∧ e.line < adaptiveLines

/-- A helper that takes a line loaded its context in the call in progress. -/
def BandState.TakesOwnLine {n : Nat} (s : BandState n) : BandOp n → Prop
  | .helper i => ∀ ctx yEnd didAny, (s.helpers i).phase = .claiming ctx yEnd didAny →
      s.pool.nextY < yEnd → ctx = s.returned
  | .call _ | .caller => True

/-- No helper counts a line between the reset of the line counter and the reset
of the completion counter. -/
def BandState.CountsAfterReset {n : Nat} (s : BandState n) : BandOp n → Prop
  | .helper i => ∀ ctx yEnd y, (s.helpers i).phase = .drawn ctx yEnd y →
      s.caller ≠ .storeCompleted
  | .call _ | .caller => True

end NdsRecomp.Video
