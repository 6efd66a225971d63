import NdsRecomp.Recompiler.ConstantTracker

/-!
When the constant tracker tells the truth. It records a constant whether or not
the condition of the instruction passes, and it loses a register only when that
register is the destination field or a writeback base it knows of; so a
conditional constant, a call, a block load or a long multiply can leave it
wrong. On every walk without such a step, what it says is what the registers
hold.
-/

namespace NdsRecomp.Recompiler

open Library

/-- What the tracker holds is what the registers hold. -/
structure TrackerSound (s : WalkState) : Prop where
  pc : s.tracked 15 = none
  holds : ∀ x, x ≠ 15 → ∀ v, s.tracked x = some v → s.regs x = v

/-- A step the tracker covers. A constant it records is unconditional, a move
it follows is unshifted and reads an aligned program counter, and no register
it holds is written but its destination field and the writeback bases it
forgets. -/
structure Covered (image : Image) (mode : CpuMode) (s : WalkState) (i : Instr) : Prop where
  always : i.always = true ∨ trackedValue image mode s.tracked i = none
  unshifted : ∀ type rm, i.op = .mov → i.op2 = .shifted false type 0 rm → type = .lsl
  aligned : ∀ type, i.op = .mov → i.op2 = .shifted false type 0 15 →
    pcValue mode i.pc = movedPc mode i.pc
  writes : ∀ x, x ≠ 15 → i.destinations x = true →
    i.rd = some x ∨ ldmBase i = some x ∨ memBase i = some x ∨ s.tracked x = none

variable {image : Image} {mode : CpuMode}

/-! ### The tracker's fields -/

theorem forget_some {t : RegConst} {r : Option (Fin 16)} {x : Fin 16} {v : UInt32}
    (h : forget t r x = some v) : r ≠ some x ∧ t x = some v := by
  unfold forget at h
  cases r with
  | none => exact ⟨by simp, h⟩
  | some r =>
      rcases eq_or_ne x r with rfl | hne
      · simp at h
      · refine ⟨fun hsame => hne (Option.some.inj hsame).symm, ?_⟩
        simpa [Function.update_of_ne hne] using h

/-- The base of a block load is never a constant's operand. -/
theorem trackedValue_forget (t : RegConst) (i : Instr) :
    trackedValue image mode (forget t (ldmBase i)) i = trackedValue image mode t i := by
  by_cases hldm : i.op = .ldm
  · unfold trackedValue
    rw [hldm]
  · have hnone : ldmBase i = none := if_neg fun h => hldm h.1
    rw [hnone]
    rfl

/-- A constant held after a step was held before it and kept, or is the one
just recorded. -/
theorem track_some {t : RegConst} {i : Instr} {x : Fin 16} {v : UInt32}
    (h : track image mode t i x = some v) :
    (i.rd = some x ∧ trackedValue image mode t i = some v) ∨
      (i.rd ≠ some x ∧ ldmBase i ≠ some x ∧ memBase i ≠ some x ∧ t x = some v) := by
  obtain ⟨hmem, h⟩ := forget_some h
  unfold trackRd at h
  cases hrd : i.rd with
  | none =>
      rw [hrd] at h
      obtain ⟨hldm, h⟩ := forget_some h
      exact .inr ⟨by simp, hldm, hmem, h⟩
  | some rd =>
      rw [hrd] at h
      rcases eq_or_ne x rd with rfl | hne
      · left
        refine ⟨rfl, ?_⟩
        rw [← trackedValue_forget]
        simpa using h
      · obtain ⟨hldm, h⟩ := forget_some ((Function.update_of_ne hne _ _).symm.trans h)
        exact .inr ⟨fun hsame => hne (Option.some.inj hsame).symm, hldm, hmem, h⟩

/-! ### One step -/

/-- The base of a load the tracker resolves is the one the CPU takes. -/
theorem evalMemImmAddr_sound {s : WalkState} (hs : TrackerSound s) {i : Instr} {ea : UInt32}
    (h : evalMemImmAddr mode s.tracked i = some ea) :
    i.mem.byRegister = false ∧ indexedAddr i.mem (baseValue mode s.regs i i.mem.rn) = ea := by
  unfold evalMemImmAddr at h
  unfold baseValue
  split at h
  · cases h
  · rename_i hregister
    refine ⟨by simpa using hregister, ?_⟩
    split at h
    · rename_i hpc
      rw [if_pos hpc]
      exact Option.some.inj h
    · rename_i hpc
      rw [if_neg hpc]
      obtain ⟨base, hbase, hea⟩ := Option.map_eq_some_iff.mp h
      rw [hs.holds _ hpc _ hbase]
      exact hea

/-- Where the tracker records a constant for a covered instruction, it is the
value the instruction computes. -/
theorem trackedValue_sound {s : WalkState} (hs : TrackerSound s) {i : Instr}
    (hcovered : Covered image mode s i) {v : UInt32}
    (h : trackedValue image mode s.tracked i = some v) :
    architecturalResult image mode s.regs i = some v := by
  unfold trackedValue at h
  unfold architecturalResult
  split at h
  · exact h
  · rename_i byRegister type immOrRs rm hop hop2
    split at h
    · rename_i hplain
      obtain ⟨rfl, rfl⟩ := hplain
      rw [if_pos ⟨rfl, hcovered.unshifted type rm hop hop2, rfl⟩]
      split at h
      · rename_i hpc
        subst hpc
        rw [if_pos rfl, ← hcovered.aligned type hop hop2]
        exact h
      · rename_i hpc
        rw [if_neg hpc, hs.holds _ hpc _ h]
    · cases h
  · unfold baseValue
    split at h
    · rename_i hpc
      rw [if_pos hpc]
      exact h
    · rename_i hpc
      obtain ⟨base, hbase, hsum⟩ := Option.map_eq_some_iff.mp h
      rw [if_neg hpc, hs.holds _ hpc _ hbase, hsum]
  · obtain ⟨base, hbase, hdifference⟩ := Option.map_eq_some_iff.mp h
    have hpc : i.rn ≠ 15 := by
      intro hpc
      rw [hpc, hs.pc] at hbase
      cases hbase
    unfold baseValue
    rw [if_neg hpc, hs.holds _ hpc _ hbase, hdifference]
  · split at h
    · cases h
    · obtain ⟨ea, hea, hword⟩ := Option.bind_eq_some_iff.mp h
      obtain ⟨hregister, haddr⟩ := evalMemImmAddr_sound hs hea
      rw [hregister, haddr]
      simpa using hword
  · cases h

/-- A covered step of a straight line keeps the tracker sound. -/
theorem TrackerSound.next {s : WalkState} (hs : TrackerSound s) {step : WalkStep}
    (hline : step.instr.rd = some 15 → trackedValue image mode s.tracked step.instr = none)
    (hexec : Executes image mode step.instr step.passed s.regs step.after)
    (hcovered : Covered image mode s step.instr) :
    TrackerSound ⟨track image mode s.tracked step.instr, step.after⟩ where
  pc := by
    rw [Option.eq_none_iff_forall_ne_some]
    intro v hv
    rcases track_some hv with ⟨hrd, htracked⟩ | ⟨_, _, _, hkept⟩
    · rw [hline hrd] at htracked
      cases htracked
    · rw [hs.pc] at hkept
      cases hkept
  holds := by
    intro x hx v hv
    rcases track_some hv with ⟨hrd, htracked⟩ | ⟨hrd, hldm, hmem, hkept⟩
    · have halways : step.instr.always = true := by
        refine hcovered.always.resolve_right fun hnone => ?_
        rw [hnone] at htracked
        cases htracked
      exact hexec.result (hexec.condition halways) x hrd v (trackedValue_sound hs hcovered htracked)
    · -- The register is none the step writes, or the tracker would not hold it.
      have huntouched : step.instr.destinations x = false := by
        by_contra hwritten
        rcases hcovered.writes x hx (Bool.not_eq_false _ ▸ hwritten) with h | h | h | h
        · exact hrd h
        · exact hldm h
        · exact hmem h
        · rw [h] at hkept
          cases hkept
      exact (hexec.kept x hx huntouched).trans (hs.holds x hx v hkept)

/-! ### Whole walks -/

def coveredWalks (image : Image) (mode : CpuMode) : OpSystem WalkState WalkStep :=
  (walkSystem image mode).restrict fun s step => Covered image mode s step.instr

theorem trackerSound_invariant : (coveredWalks image mode).Invariant TrackerSound where
  start := by
    intro s hinitial
    have hnone : s.tracked = fun _ => none := hinitial
    refine ⟨by rw [hnone], fun x _ v hv => ?_⟩
    rw [hnone] at hv
    cases hv
  step := by
    rintro s step hs ⟨⟨hline, hexec⟩, hcovered⟩
    exact hs.next hline hexec hcovered

/-- On every walk of covered steps, from any registers, a register the tracker
holds a constant for holds that constant, at every instruction reached. -/
theorem tracked_constant_holds {s : WalkState} (h : (coveredWalks image mode).Reachable s) :
    ∀ x, x ≠ 15 → ∀ v, s.tracked x = some v → s.regs x = v :=
  (h.invariant trackerSound_invariant).holds

/-- An image with nothing readable. -/
def emptyImage : Image where
  canReadAt := fun _ => false
  readU32 := fun _ => 0

/-- `mov r1, #1`, unconditional or `moveq`. -/
def moveOne (always : Bool) : Instr where
  op := .mov
  pc := 0x02000000
  always := always
  rd := some 1
  op2 := .imm 1
  destinations := fun x => x == 1

/-- `bl`, to a callee that may change `r0` to `r3`. -/
def callInsn : Instr where
  op := .other
  pc := 0x02000004
  destinations := fun x => decide (x < 4)

def startWalk : WalkState := ⟨fun _ => none, fun _ => 0⟩

theorem moveOne_executes (always : Bool) :
    Executes emptyImage .arm (moveOne always) true (fun _ => 0)
      (Function.update (fun _ => 0) 1 1) where
  condition := fun _ => rfl
  failed := fun h => Bool.noConfusion h
  kept := by
    intro x _ hx
    have hne : x ≠ 1 := by simpa [moveOne] using hx
    exact Function.update_of_ne hne _ _
  result := by
    rintro _ rd hrd v hv
    obtain rfl : 1 = rd := Option.some.inj hrd
    obtain rfl : 1 = v := Option.some.inj hv
    exact Function.update_self ..

/-- The walk after an unconditional move. -/
def movedWalk : WalkState :=
  (walkSystem emptyImage .arm).next startWalk
    ⟨moveOne true, true, Function.update startWalk.regs 1 1⟩

theorem movedWalk_holds : movedWalk.tracked 1 = some 1 ∧ movedWalk.regs 1 = 1 := by
  have hcovered : Covered emptyImage .arm startWalk (moveOne true) :=
    { always := .inl rfl
      unshifted := by
        intro type rm _ hop2
        cases hop2
      aligned := by
        intro type _ hop2
        cases hop2
      writes := by
        intro x _ hx
        have heq : x = 1 := by simpa [moveOne] using hx
        exact .inl (heq ▸ rfl) }
  have hstart : (coveredWalks emptyImage .arm).Reachable startWalk := .start rfl
  have hmoved : (coveredWalks emptyImage .arm).Reachable movedWalk := hstart.step
    ⟨⟨fun h => absurd h (by decide), moveOne_executes true⟩, hcovered⟩
  exact ⟨by decide, tracked_constant_holds hmoved 1 (by decide) 1 (by decide)⟩

/-- After a `moveq` that did not move, and after a call that changed `r1`, the
tracker still holds its constant. -/
theorem tracker_misled :
    (∃ s, (walkSystem emptyImage .arm).Reachable s ∧ s.tracked 1 = some 1 ∧ s.regs 1 = 0) ∧
      ∃ s, (walkSystem emptyImage .arm).Reachable s ∧ s.tracked 1 = some 1 ∧ s.regs 1 = 2 := by
  have hstart : (walkSystem emptyImage .arm).Reachable startWalk := .start rfl
  constructor
  · have hskipped : Executes emptyImage .arm (moveOne false) false startWalk.regs startWalk.regs :=
      ⟨fun h => Bool.noConfusion h, fun _ _ _ => rfl, fun _ _ _ => rfl,
        fun h => Bool.noConfusion h⟩
    have hreach : (walkSystem emptyImage .arm).Reachable
        ((walkSystem emptyImage .arm).next startWalk ⟨moveOne false, false, startWalk.regs⟩) :=
      hstart.step ⟨fun h => absurd h (by decide), hskipped⟩
    exact ⟨_, hreach, by decide, rfl⟩
  · have hmoved : (walkSystem emptyImage .arm).Reachable movedWalk := hstart.step
      ⟨fun h => absurd h (by decide), moveOne_executes true⟩
    have hcalled : Executes emptyImage .arm callInsn true (Function.update (fun _ => 0) 1 1)
        (Function.update (fun _ => 0) 1 2) :=
      { condition := fun _ => rfl
        failed := fun h => Bool.noConfusion h
        kept := by
          intro x _ hx
          have hne : x ≠ 1 := by
            rintro rfl
            cases hx
          rw [Function.update_of_ne hne, Function.update_of_ne hne]
        result := by
          rintro _ rd hrd
          cases hrd }
    have hreach : (walkSystem emptyImage .arm).Reachable
        ((walkSystem emptyImage .arm).next movedWalk
          ⟨callInsn, true, Function.update startWalk.regs 1 2⟩) :=
      hmoved.step ⟨fun h => absurd h (by decide), hcalled⟩
    exact ⟨_, hreach, by decide, rfl⟩

end NdsRecomp.Recompiler
