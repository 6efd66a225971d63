import NdsRecomp.Runtime.BankedView

/-!
Runs over the register file: register writes, status writes, exception entries and
returns, in the architecture's modes. A view that no operation of the run writes keeps its
value, and an exception that comes back finds the interrupted mode as it was, except for the
link register the entry itself writes when it interrupts its own mode.
-/

namespace NdsRecomp.Runtime

open Library

inductive BankOp where
  | writeReg (reg : Fin 16) (value : UInt32)
  | writeUserReg (reg : Fin 16) (value : UInt32)
  | msrCpsr (value mask : UInt32)
  | msrSpsr (value mask : UInt32)
  | swi (excBase : UInt32)
  | irq (excBase returnAddress : UInt32)
  | exceptionReturn (newPc : UInt32)
  | restoreCpsr

/-- The mode an exception enters. -/
def BankOp.entryMode : BankOp → Option Mode
  | .swi _ => some .supervisor
  | .irq _ _ => some .irq
  | _ => none

namespace ArmCpuState

def next (s : ArmCpuState) : BankOp → ArmCpuState
  | .writeReg reg value => s.setR reg value
  | .writeUserReg reg value => s.runtimeWriteUserReg reg value
  | .msrCpsr value mask => s.runtimeMsrCpsr value mask
  | .msrSpsr value mask => s.runtimeMsrSpsr value mask
  | .swi excBase => s.runtimeSwi excBase
  | .irq excBase returnAddress => s.enterIrq returnAddress excBase
  | .exceptionReturn newPc => s.runtimeExceptionReturn newPc
  | .restoreCpsr => s.runtimeRestoreCpsrFromSpsr

/-- The views an operation writes. -/
def Writes (s : ArmCpuState) : BankOp → View → Prop
  | .writeReg reg' _, .reg m reg => ∃ cur, s.InMode cur ∧ SameReg m reg cur reg'
  | .writeUserReg reg' _, .reg m reg => SameReg m reg .user reg'
  | .msrSpsr _ _, .spsr bank => bank = modeToBank s.cpsr
  | .swi _, .reg m reg => reg = 15 ∨ SameReg m reg .supervisor 14
  | .swi _, .spsr bank => bank = .supervisor
  | .irq _ _, .reg m reg => reg = 15 ∨ SameReg m reg .irq 14
  | .irq _ _, .spsr bank => bank = .irq
  | .exceptionReturn _, .reg _ reg => reg = 15
  | _, _ => False

/-- No operation of the run writes the view. -/
def Unwritten (s : ArmCpuState) (view : View) : List BankOp → Prop
  | [] => True
  | op :: ops => ¬ s.Writes op view ∧ (s.next op).Unwritten view ops

end ArmCpuState

/-- The register file in the architecture's modes. -/
def bankSystem : OpSystem ArmCpuState BankOp where
  initial := ArmCpuState.Architectural
  admits := fun s op => (s.next op).Architectural
  next := ArmCpuState.next

namespace ArmCpuState

/-! ### Exception entries -/

theorem swiCpsr_mode (s : ArmCpuState) : s.swiCpsr &&& 0x1F = Mode.supervisor.bits := by
  unfold swiCpsr
  apply UInt32.toBitVec_inj.mp
  apply BitVec.eq_of_getLsbD_eq
  intro i hi
  interval_cases i <;> simp [Mode.bits]

def irqCpsr (s : ArmCpuState) : UInt32 := (s.cpsr &&& ~~~0xFF) ||| 0xD2

/-- An IRQ entry is an exception entry. -/
theorem enterIrq_eq (s : ArmCpuState) (returnAddress excBase : UInt32) :
    s.enterIrq returnAddress excBase =
      s.enterException s.irqCpsr (returnAddress + 4) (excBase + 0x18) := by
  unfold enterIrq enterException irqCpsr
  simp only [ne_eq, ite_not]
  rfl

theorem irqCpsr_mode (s : ArmCpuState) : s.irqCpsr &&& 0x1F = Mode.irq.bits := by
  unfold irqCpsr
  apply UInt32.toBitVec_inj.mp
  apply BitVec.eq_of_getLsbD_eq
  intro i hi
  interval_cases i <;> simp [Mode.bits]

/-- An entry, with the CPSR it leaves and its link and vector. -/
theorem next_entry (s : ArmCpuState) {entry : BankOp} {em : Mode} (hentry : entry.entryMode = some em) :
    ∃ nc link vector, nc &&& 0x1F = em.bits ∧ em.bank ≠ .user ∧ em ≠ .fiq ∧
      s.next entry = s.enterException nc link vector := by
  cases entry with
  | swi excBase =>
      cases hentry
      exact ⟨_, _, _, s.swiCpsr_mode, by decide, by decide, rfl⟩
  | irq excBase returnAddress =>
      cases hentry
      exact ⟨_, _, _, s.irqCpsr_mode, by decide, by decide, s.enterIrq_eq returnAddress excBase⟩
  | writeReg | writeUserReg | msrCpsr | msrSpsr | exceptionReturn | restoreCpsr => cases hentry

/-! ### One operation -/

theorem look_setR_of_not {s : ArmCpuState} {cur : Mode} (hmode : s.InMode cur) (reg' : Fin 16)
    (value : UInt32) {view : View}
    (h : ∀ m reg, view = .reg m reg → ¬ SameReg m reg cur reg') :
    (s.setR reg' value).look view = s.look view := by
  cases view with
  | reg m reg => exact regView_setR_of_not hmode value (h m reg rfl)
  | spsr bank => rfl

theorem writeUserReg_spsr (s : ArmCpuState) (reg : Fin 16) (value : UInt32) :
    (s.runtimeWriteUserReg reg value).bankedSpsr = s.bankedSpsr := by
  unfold runtimeWriteUserReg
  dsimp only
  split_ifs <;> rfl

/-- A view that an operation does not write keeps its value. -/
theorem look_next_of_not {s : ArmCpuState} (hs : s.Architectural) {op : BankOp}
    (hadmits : bankSystem.admits s op) {view : View} (h : ¬ s.Writes op view) :
    (s.next op).look view = s.look view := by
  obtain ⟨om, hmode⟩ := hs
  obtain ⟨nm, hnew⟩ := hadmits
  cases op with
  | writeReg reg' value =>
      refine look_setR_of_not hmode reg' value ?_
      rintro m reg rfl hsame
      exact h ⟨om, hmode, hsame⟩
  | writeUserReg reg' value =>
      cases view with
      | reg m reg => exact regView_writeUserReg_of_not hmode value h
      | spsr bank => exact congrFun (s.writeUserReg_spsr reg' value) bank
  | msrCpsr value mask =>
      have hbits : s.msrValue value mask &&& 0x1F = nm.bits := by
        rw [← s.runtimeMsrCpsr_cpsr value mask]
        exact hnew
      change (s.runtimeMsrCpsr value mask).look view = _
      rw [runtimeMsrCpsr_eq]
      cases view with
      | reg m reg => exact s.regView_moved hmode hbits m reg
      | spsr bank => exact congrFun (s.moved_spsr _) bank
  | msrSpsr value mask =>
      change (s.runtimeMsrSpsr value mask).look view = _
      unfold runtimeMsrSpsr
      dsimp only
      split
      · rfl
      · cases view with
        | reg m reg => rfl
        | spsr bank => exact Function.update_of_ne h _ _
  | swi excBase =>
      cases view with
      | reg m reg =>
          exact s.regView_enterException_of_not hmode s.swiCpsr_mode _ _
            (fun hsame => h (Or.inr hsame)) (fun hpc => h (Or.inl hpc))
      | spsr bank =>
          change (s.enterException s.swiCpsr _ _).bankedSpsr bank = _
          rw [enterException_spsr, modeToBank_of_bits s.swiCpsr_mode]
          exact Function.update_of_ne h _ _
  | irq excBase returnAddress =>
      change (s.enterIrq returnAddress excBase).look view = _
      rw [enterIrq_eq]
      cases view with
      | reg m reg =>
          exact s.regView_enterException_of_not hmode s.irqCpsr_mode _ _
            (fun hsame => h (Or.inr hsame)) (fun hpc => h (Or.inl hpc))
      | spsr bank =>
          change (s.enterException s.irqCpsr _ _).bankedSpsr bank = _
          rw [enterException_spsr, modeToBank_of_bits s.irqCpsr_mode]
          exact Function.update_of_ne h _ _
  | exceptionReturn newPc =>
      have hpc : (s.runtimeRestoreCpsrFromSpsr).InMode nm := by
        change (s.runtimeExceptionReturn newPc).cpsr &&& 0x1F = _ at hnew
        rw [runtimeExceptionReturn_eq] at hnew
        exact hnew
      change (s.runtimeExceptionReturn newPc).look view = _
      rw [runtimeExceptionReturn_eq, look_setR_of_not hpc]
      · cases view with
        | reg m reg => exact s.regView_restore hmode m reg
        | spsr bank => exact congrFun (s.restore_spsr hmode) bank
      · rintro m reg rfl hsame
        exact h hsame.1
  | restoreCpsr =>
      cases view with
      | reg m reg => exact s.regView_restore hmode m reg
      | spsr bank => exact congrFun (s.restore_spsr hmode) bank

/-! ### Runs -/

/-- A view that no operation of a run writes keeps its value. -/
theorem look_runFrom {s : ArmCpuState} (hs : s.Architectural) {ops : List BankOp}
    (hops : bankSystem.AdmitsAll s ops) {view : View} (h : s.Unwritten view ops) :
    (bankSystem.runFrom s ops).look view = s.look view := by
  induction ops generalizing s with
  | nil => rfl
  | cons op ops ih =>
      obtain ⟨hop, hrest⟩ := h
      calc (bankSystem.runFrom (s.next op) ops).look view
          = (s.next op).look view := ih hops.1 hops.2 hrest
        _ = s.look view := look_next_of_not hs hops.1 hop

/-- A control-field MSR enters its mode; User mode stays. -/
theorem msrValue_mode {s : ArmCpuState} {m : Mode} (hm : s.cpsr &&& 0x1F ≠ 0x10 ∨ m = .user) :
    s.msrValue m.bits 1 &&& 0x1F = m.bits := by
  have hbytewise : bytewise 1 = 0x000000FF := by decide
  unfold msrValue
  dsimp only
  rw [hbytewise]
  by_cases huser : s.cpsr &&& 0x1F = 0x10
  · have hm : m = .user := hm.resolve_left (not_not_intro huser)
    subst hm
    rw [if_pos huser]
    change (s.cpsr &&& 0xFFFFFFFF ||| 0) &&& 0x1F = 0x10
    rw [UInt32.or_zero, UInt32.and_assoc]
    exact huser
  · rw [if_neg huser]
    apply UInt32.toBitVec_inj.mp
    apply BitVec.eq_of_getLsbD_eq
    intro i hi
    cases m <;> interval_cases i <;> simp [Mode.bits]

/-- The view of a register is what a switch to the mode shows. -/
theorem regView_msr {s : ArmCpuState} (hs : s.Architectural) {m : Mode}
    (hm : s.cpsr &&& 0x1F ≠ 0x10 ∨ m = .user) (reg : Fin 16) :
    (s.runtimeMsrCpsr m.bits 1).R reg = s.regView m reg := by
  obtain ⟨om, hmode⟩ := hs
  have hbits := msrValue_mode hm
  have hentered : (s.runtimeMsrCpsr m.bits 1).InMode m := by
    unfold InMode
    rw [runtimeMsrCpsr_cpsr]
    exact hbits
  rw [← regView_current hentered, runtimeMsrCpsr_eq]
  exact s.regView_moved hmode hbits m reg

/-- Reading a user register reads User mode's view. -/
theorem runtimeReadUserReg_eq {s : ArmCpuState} (hs : s.Architectural) (reg : Fin 16) :
    s.runtimeReadUserReg reg = s.regView .user reg := by
  obtain ⟨om, hmode⟩ := hs
  have hbits : s.cpsr &&& 0x1F = om.bits := hmode
  unfold runtimeReadUserReg regView
  dsimp only
  by_cases hlow : reg < 8 ∨ reg = 15
  · rw [if_pos hlow, if_pos hlow]
  · rw [if_neg hlow, if_neg hlow]
    by_cases hmid : reg < 13
    · rw [if_pos hmid, if_pos hmid]
      by_cases hfiq : s.cpsr &&& 0x1F = 0x11
      · rw [if_pos hfiq, if_neg (by simp [hfiq]), if_neg (by decide)]
      · rw [if_neg hfiq, if_pos (by simp [hfiq])]
    · rw [if_neg hmid, if_neg hmid, hbits, modeToBank_of_bits hmode]
      by_cases huser : om.bank = .user
      · rw [if_pos (om.bits_user_or_system_iff.mpr huser)]
        exact (if_pos huser.symm).symm
      · rw [if_neg (fun h => huser (om.bits_user_or_system_iff.mp h))]
        exact (if_neg fun h => huser h.symm).symm

/-- An exception that comes back to the interrupted mode. -/
theorem exception_restores {s : ArmCpuState} {om em : Mode} (hmode : s.InMode om) {entry : BankOp}
    (hentry : entry.entryMode = some em) {ops : List BankOp}
    (hops : bankSystem.AdmitsAll (s.next entry) ops)
    (hback : (bankSystem.runFrom (s.next entry) ops).InMode em)
    (hspsr : (s.next entry).Unwritten (.spsr em.bank) ops) (newPc : UInt32) :
    ((bankSystem.runFrom (s.next entry) ops).runtimeExceptionReturn newPc).cpsr = s.cpsr ∧
      ((bankSystem.runFrom (s.next entry) ops).runtimeExceptionReturn newPc).R 15 = newPc ∧
      ∀ reg, reg ≠ 15 → (reg = 14 → om ≠ em) →
        (s.next entry).Unwritten (.reg om reg) ops →
        ((bankSystem.runFrom (s.next entry) ops).runtimeExceptionReturn newPc).R reg = s.R reg := by
  obtain ⟨nc, link, vector, hnc, hbank, hfiq, hentered⟩ := s.next_entry hentry
  have harch : (s.next entry).Architectural := by
    rw [hentered]
    exact ⟨em, hnc⟩
  have hsaved : (bankSystem.runFrom (s.next entry) ops).bankedSpsr em.bank = s.cpsr := by
    have hkept : (bankSystem.runFrom (s.next entry) ops).bankedSpsr em.bank =
        (s.next entry).bankedSpsr em.bank := look_runFrom harch hops hspsr
    rw [hkept, hentered, enterException_spsr, modeToBank_of_bits hnc, Function.update_self]
  have hrestored := (bankSystem.runFrom (s.next entry) ops).runtimeRestoreCpsrFromSpsr_eq hback hbank
  rw [hsaved] at hrestored
  rw [runtimeExceptionReturn_eq]
  have hcpsr : ((bankSystem.runFrom (s.next entry) ops).runtimeRestoreCpsrFromSpsr.setR 15
      newPc).cpsr = s.cpsr := by
    rw [hrestored]
    rfl
  have hreturned : ((bankSystem.runFrom (s.next entry) ops).runtimeRestoreCpsrFromSpsr.setR 15
      newPc).R 15 = newPc := setR_self _ 15 newPc
  refine ⟨hcpsr, hreturned, fun reg hpc hlink hkept => ?_⟩
  have hmode' : ((bankSystem.runFrom (s.next entry) ops).runtimeRestoreCpsrFromSpsr.setR 15
      newPc).InMode om := by
    unfold InMode
    rw [hcpsr]
    exact hmode
  have hmode'' : (bankSystem.runFrom (s.next entry) ops).runtimeRestoreCpsrFromSpsr.InMode om :=
    hmode'
  have hother : ¬ SameReg om reg em 14 := by
    rintro ⟨rfl, hholder⟩
    refine hlink rfl ?_
    unfold Mode.holder at hholder
    revert hholder hbank hfiq
    cases om <;> cases em <;> decide
  rw [← regView_current hmode' reg, regView_setR_of_not hmode'' _ (fun hsame => hpc hsame.1),
    regView_restore _ hback]
  have hrun : (bankSystem.runFrom (s.next entry) ops).look (.reg om reg) =
      (s.next entry).look (.reg om reg) := look_runFrom harch hops hkept
  change (bankSystem.runFrom (s.next entry) ops).regView om reg = (s.next entry).regView om reg
    at hrun
  rw [hrun, hentered, s.regView_enterException_of_not hmode hnc link vector hother hpc]
  exact regView_current hmode reg

/-- Views over runs, user registers as User mode sees them, and exceptions that come back:
all but the link register of an exception that interrupts its own mode. -/
theorem banked_registers_coherent {s : ArmCpuState} (hs : s.Architectural) :
    (∀ ops view, bankSystem.AdmitsAll s ops → s.Unwritten view ops →
      (bankSystem.runFrom s ops).look view = s.look view) ∧
    (∀ reg, s.runtimeReadUserReg reg = (s.runtimeMsrCpsr Mode.user.bits 1).R reg) ∧
    ∀ om entry em ops newPc, s.InMode om → entry.entryMode = some em →
      bankSystem.AdmitsAll (s.next entry) ops →
      (bankSystem.runFrom (s.next entry) ops).InMode em →
      (s.next entry).Unwritten (.spsr em.bank) ops →
      ((bankSystem.runFrom (s.next entry) ops).runtimeExceptionReturn newPc).cpsr = s.cpsr ∧
        ((bankSystem.runFrom (s.next entry) ops).runtimeExceptionReturn newPc).R 15 = newPc ∧
        ∀ reg, reg ≠ 15 → (reg = 14 → om ≠ em) →
          (s.next entry).Unwritten (.reg om reg) ops →
          ((bankSystem.runFrom (s.next entry) ops).runtimeExceptionReturn newPc).R reg =
            s.R reg := by
  refine ⟨fun ops view hops h => look_runFrom hs hops h, fun reg => ?_, ?_⟩
  · rw [runtimeReadUserReg_eq hs, regView_msr hs (Or.inr rfl)]
  · intro om entry em ops newPc hmode hentry hops hback hspsr
    exact exception_restores hmode hentry hops hback hspsr newPc

/-- Supervisor mode with 5 in its link register. -/
def supervisorState : ArmCpuState where
  R := Function.update (fun _ => 0) 14 5
  cpsr := 0x13
  bankedSp := fun _ => 0
  bankedLr := fun _ => 0
  bankedSpsr := fun _ => 0
  r8_12User := fun _ => 0
  r8_12Fiq := fun _ => 0

theorem supervisorState_coherent :
    supervisorState.runtimeReadUserReg 13 = (supervisorState.runtimeMsrCpsr 0x10 1).R 13 := by
  have hmode : supervisorState.InMode .supervisor := by
    unfold InMode
    decide
  exact (banked_registers_coherent ⟨.supervisor, hmode⟩).2.1 13

/-- An SWI in Supervisor mode overwrites the link register of the interrupted mode. -/
theorem swi_in_supervisor_loses_link :
    supervisorState.R 14 = 5 ∧
      (((supervisorState.next (.swi 0)).next (.exceptionReturn 0)).R 14) = 0 := by
  decide

end ArmCpuState

end NdsRecomp.Runtime
