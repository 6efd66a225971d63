import Mathlib.Tactic

/-!
State machines driven by operations. A system names its initial states, the
operations a state admits, and the state each operation leads to. Safety is
proved once for every run: an invariant that holds initially and across every
admitted operation holds of every reachable state.

`restrict` keeps only the operations that also meet a condition. A property of
the restricted system is a property of exactly the runs whose steps all meet
that condition.
-/

namespace NdsRecomp.Library

structure OpSystem (State Op : Type*) where
  initial : State → Prop
  admits : State → Op → Prop
  next : State → Op → State

namespace OpSystem

variable {State Op : Type*}

inductive Reachable (system : OpSystem State Op) : State → Prop where
  | start {s : State} : system.initial s → Reachable system s
  | step {s : State} {op : Op} :
      Reachable system s → system.admits s op → Reachable system (system.next s op)

/-- The operations of `system` that also satisfy `condition` in the state
they are taken from. -/
def restrict (system : OpSystem State Op) (condition : State → Op → Prop) :
    OpSystem State Op where
  initial := system.initial
  admits := fun s op => system.admits s op ∧ condition s op
  next := system.next

theorem Reachable.of_restrict {system : OpSystem State Op}
    {condition : State → Op → Prop} {s : State}
    (h : (system.restrict condition).Reachable s) : system.Reachable s := by
  induction h with
  | start hinitial => exact .start hinitial
  | step _ hadmits ih => exact .step ih hadmits.1

/-- An invariant is `holds initially` together with `kept by every admitted
operation`; `Reachable.invariant` is the induction over runs. -/
structure Invariant (system : OpSystem State Op) (I : State → Prop) : Prop where
  start : ∀ s, system.initial s → I s
  step : ∀ s op, I s → system.admits s op → I (system.next s op)

theorem Reachable.invariant {system : OpSystem State Op} {I : State → Prop}
    (hI : system.Invariant I) {s : State} (h : system.Reachable s) : I s := by
  induction h with
  | start hinitial => exact hI.start _ hinitial
  | step _ hadmits ih => exact hI.step _ _ ih hadmits

/-- A finite run, newest operation last. -/
def runFrom (system : OpSystem State Op) (s : State) (ops : List Op) : State :=
  ops.foldl system.next s

/-- Every operation of the run is admitted in the state it meets. -/
def AdmitsAll (system : OpSystem State Op) : State → List Op → Prop
  | _, [] => True
  | s, op :: ops => system.admits s op ∧ system.AdmitsAll (system.next s op) ops

instance (system : OpSystem State Op) (condition : State → Op → Prop) (s : State) (op : Op)
    [Decidable (system.admits s op)] [Decidable (condition s op)] :
    Decidable ((system.restrict condition).admits s op) :=
  inferInstanceAs (Decidable (_ ∧ _))

instance decidableAdmitsAll (system : OpSystem State Op)
    [∀ s op, Decidable (system.admits s op)] :
    ∀ s ops, Decidable (system.AdmitsAll s ops)
  | _, [] => .isTrue trivial
  | s, op :: ops =>
      have := decidableAdmitsAll system (system.next s op) ops
      inferInstanceAs (Decidable (_ ∧ _))

theorem Reachable.runFrom {system : OpSystem State Op} {s : State}
    (h : system.Reachable s) {ops : List Op} (hops : system.AdmitsAll s ops) :
    system.Reachable (system.runFrom s ops) := by
  induction ops generalizing s with
  | nil => exact h
  | cons op ops ih => exact ih (.step h hops.1) hops.2

theorem admitsAll_append {system : OpSystem State Op} {s : State} {ops more : List Op}
    (h : system.AdmitsAll s (ops ++ more)) :
    system.AdmitsAll s ops ∧ system.AdmitsAll (system.runFrom s ops) more := by
  induction ops generalizing s with
  | nil => exact ⟨trivial, h⟩
  | cons op ops ih =>
      obtain ⟨hops, hmore⟩ := ih h.2
      exact ⟨⟨h.1, hops⟩, hmore⟩

theorem runFrom_append (system : OpSystem State Op) (s : State) (ops more : List Op) :
    system.runFrom s (ops ++ more) = system.runFrom (system.runFrom s ops) more :=
  List.foldl_append

end OpSystem

end NdsRecomp.Library
