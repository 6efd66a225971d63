import NdsRecomp.Runtime.Banks
import NdsRecomp.Library.OpSystem

/-!
Every mode's view of every register. A switch of modes moves registers between the active
file and the banks and changes no view; a register that no operation writes keeps its value
in every view of it.
-/

namespace NdsRecomp.Runtime

open Library

/-! ### Modes -/

theorem modeToBank_of_bits {cpsr : UInt32} {m : Mode} (h : cpsr &&& 0x1F = m.bits) :
    ArmCpuState.modeToBank cpsr = m.bank := by
  unfold ArmCpuState.modeToBank
  rw [h]
  cases m <;> rfl

theorem Mode.bank_eq_fiq_iff (m : Mode) : m.bank = .fiq ↔ m = .fiq := by
  cases m <;> decide

theorem Mode.bits_eq_fiq_iff (m : Mode) : m.bits = 0x11 ↔ m = .fiq := by
  cases m <;> decide

theorem Mode.bits_user_or_system_iff (m : Mode) : m.bits = 0x10 ∨ m.bits = 0x1F ↔ m.bank = .user := by
  cases m <;> decide

/-- The bank that holds a mode's register. -/
def Mode.holder (m : Mode) (reg : Fin 16) : ArmBank :=
  if reg < 8 ∨ reg = 15 then .user
  else if reg < 13 then if m = .fiq then .fiq else .user
  else m.bank

/-- A register as a mode sees it, or a saved status register. -/
inductive View where
  | reg (m : Mode) (reg : Fin 16)
  | spsr (bank : ArmBank)

namespace ArmCpuState

variable (s : ArmCpuState)

def InMode (m : Mode) : Prop := s.cpsr &&& 0x1F = m.bits

def Architectural : Prop := ∃ m, s.InMode m

/-- The register a mode sees: active when its holder is, else in the bank. -/
def regView (m : Mode) (reg : Fin 16) : UInt32 :=
  if reg < 8 ∨ reg = 15 then s.R reg
  else if reg < 13 then
    if m = .fiq ↔ s.cpsr &&& 0x1F = 0x11 then s.R reg
    else if m = .fiq then s.r8_12Fiq (highIndex reg) else s.r8_12User (highIndex reg)
  else if m.bank = modeToBank s.cpsr then s.R reg
  else if reg = 13 then s.bankedSp m.bank else s.bankedLr m.bank

def look : View → UInt32
  | .reg m reg => s.regView m reg
  | .spsr bank => s.bankedSpsr bank

/-- The register in the banks, active or not. -/
def stored (m : Mode) (reg : Fin 16) : UInt32 :=
  if reg < 8 ∨ reg = 15 then s.R reg
  else if reg < 13 then
    if m = .fiq then s.r8_12Fiq (highIndex reg) else s.r8_12User (highIndex reg)
  else if reg = 13 then s.bankedSp m.bank else s.bankedLr m.bank

end ArmCpuState

/-! ### Register classes -/

theorem highIndex_val {reg : Fin 16} (hlow : ¬ (reg < 8 ∨ reg = 15)) (hmid : reg < 13) :
    8 + (highIndex reg).val = reg.val := by
  revert hlow hmid
  revert reg
  decide

theorem highIndex_inj {reg other : Fin 16} (hlow : ¬ (reg < 8 ∨ reg = 15)) (hmid : reg < 13)
    (hlow' : ¬ (other < 8 ∨ other = 15)) (hmid' : other < 13) (h : highIndex reg = highIndex other) :
    reg = other := by
  apply Fin.ext
  rw [← highIndex_val hlow hmid, h, highIndex_val hlow' hmid']

theorem banked_reg {reg : Fin 16} (hlow : ¬ (reg < 8 ∨ reg = 15)) (hmid : ¬ reg < 13) :
    reg = 13 ∨ reg = 14 := by
  revert hlow hmid
  revert reg
  decide

theorem mid_reg {reg : Fin 16} (hlow : ¬ (reg < 8 ∨ reg = 15)) (hmid : reg < 13) :
    reg ≠ 13 ∧ reg ≠ 14 ∧ (8 ≤ reg.val ∧ reg.val < 13) := by
  revert hlow hmid
  revert reg
  decide

theorem low_reg {reg : Fin 16} (hlow : reg < 8 ∨ reg = 15) :
    reg ≠ 13 ∧ reg ≠ 14 ∧ ¬ (8 ≤ reg.val ∧ reg.val < 13) := by
  revert hlow
  revert reg
  decide

namespace ArmCpuState

/-! ### Saving and loading a bank -/

section Switch

variable (s : ArmCpuState)

theorem bankOut_frame (bank : ArmBank) (mode : UInt32) :
    (s.bankOut bank mode).R = s.R ∧ (s.bankOut bank mode).cpsr = s.cpsr ∧
      (s.bankOut bank mode).bankedSpsr = s.bankedSpsr ∧
      (s.bankOut bank mode).bankedSp = Function.update s.bankedSp bank (s.R 13) ∧
      (s.bankOut bank mode).bankedLr = Function.update s.bankedLr bank (s.R 14) := by
  unfold bankOut
  split
  · exact ⟨rfl, rfl, rfl, rfl, rfl⟩
  · exact ⟨rfl, rfl, rfl, rfl, rfl⟩

theorem bankOut_high (bank : ArmBank) (mode : UInt32) :
    (s.bankOut bank mode).r8_12Fiq =
        (if mode &&& 0x1F = 0x11 then s.highRegs else s.r8_12Fiq) ∧
      (s.bankOut bank mode).r8_12User =
        (if mode &&& 0x1F = 0x11 then s.r8_12User else s.highRegs) := by
  unfold bankOut
  by_cases hfiq : mode &&& 0x1F = 0x11
  · simp only [hfiq, if_true, beq_self_eq_true]
    exact ⟨rfl, trivial⟩
  · have hbeq : (mode &&& 0x1F == 0x11) = false := beq_eq_false_iff_ne.mpr hfiq
    simp only [hfiq, hbeq, if_false, Bool.false_eq_true]
    exact ⟨trivial, rfl⟩

theorem highRegs_highIndex {reg : Fin 16} (hlow : ¬ (reg < 8 ∨ reg = 15)) (hmid : reg < 13) :
    s.highRegs (highIndex reg) = s.R reg :=
  congrArg s.R (Fin.ext (highIndex_val hlow hmid))

/-- The active registers once a bank is loaded. -/
theorem bankIn_R (bank : ArmBank) (mode : UInt32) (reg : Fin 16) :
    (s.bankIn bank mode).R reg =
      if reg = 13 then s.bankedSp bank
      else if reg = 14 then s.bankedLr bank
      else if 8 ≤ reg.val ∧ reg.val < 13 then
        (if mode &&& 0x1F = 0x11 then s.r8_12Fiq else s.r8_12User) (highIndex reg)
      else s.R reg := by
  have hhigh : (if mode &&& 0x1F == 0x11 then s.r8_12Fiq else s.r8_12User) =
      if mode &&& 0x1F = 0x11 then s.r8_12Fiq else s.r8_12User := by
    simp only [beq_iff_eq]
  unfold bankIn
  change (if h : 8 ≤ reg.val ∧ reg.val < 13 then
      (if mode &&& 0x1F == 0x11 then s.r8_12Fiq else s.r8_12User) ⟨reg - 8, by omega⟩
    else Function.update (Function.update s.R 13 (s.bankedSp bank)) 14 (s.bankedLr bank) reg) = _
  rw [hhigh]
  by_cases hrange : 8 ≤ reg.val ∧ reg.val < 13
  · have hne13 : reg ≠ 13 := by
      rintro rfl
      exact absurd hrange.2 (by decide)
    have hne14 : reg ≠ 14 := by
      rintro rfl
      exact absurd hrange.2 (by decide)
    rw [dif_pos hrange, if_neg hne13, if_neg hne14, if_pos hrange]
    refine congrArg _ (Fin.ext ?_)
    change reg.val - 8 = (reg.val - 8) % 5
    omega
  · rw [dif_neg hrange]
    by_cases h14 : reg = 14
    · rw [h14, Function.update_self]
      rfl
    · rw [Function.update_of_ne h14]
      by_cases h13 : reg = 13
      · rw [h13, Function.update_self]
        rfl
      · rw [Function.update_of_ne h13, if_neg h13, if_neg h14, if_neg hrange]

/-- Saved, every view is in the banks. -/
theorem stored_bankOut (m : Mode) (reg : Fin 16) :
    (s.bankOut (modeToBank s.cpsr) s.cpsr).stored m reg = s.regView m reg := by
  obtain ⟨hR, -, -, hsp, hlr⟩ := s.bankOut_frame (modeToBank s.cpsr) s.cpsr
  obtain ⟨hfiq, huser⟩ := s.bankOut_high (modeToBank s.cpsr) s.cpsr
  unfold stored regView
  by_cases hlow : reg < 8 ∨ reg = 15
  · rw [if_pos hlow, if_pos hlow, hR]
  · rw [if_neg hlow, if_neg hlow]
    by_cases hmid : reg < 13
    · rw [if_pos hmid, if_pos hmid, hfiq, huser]
      have hhigh := s.highRegs_highIndex hlow hmid
      by_cases hcur : s.cpsr &&& 0x1F = 0x11
      · by_cases hm : m = .fiq
        · simp only [hcur, hm, if_true, hhigh]
        · simp only [hcur, hm, if_true, if_false, false_iff, not_true]
      · by_cases hm : m = .fiq
        · simp only [hcur, hm, if_true, if_false, true_iff]
        · simp only [hcur, hm, if_true, if_false, hhigh]
    · rw [if_neg hmid, if_neg hmid, hsp, hlr]
      rcases banked_reg hlow hmid with rfl | rfl
      · by_cases hbank : m.bank = modeToBank s.cpsr
        · rw [if_pos rfl, if_pos hbank, hbank, Function.update_self]
        · rw [if_pos rfl, if_neg hbank, if_pos rfl, Function.update_of_ne hbank]
      · by_cases hbank : m.bank = modeToBank s.cpsr
        · rw [if_neg (by decide), if_pos hbank, hbank, Function.update_self]
        · rw [if_neg (by decide), if_neg hbank, if_neg (by decide), Function.update_of_ne hbank]

/-- Loaded, every view is where the banks had it. -/
theorem regView_bankIn (c : UInt32) (m : Mode) (reg : Fin 16) :
    ((s.setCpsr c).bankIn (modeToBank c) c).regView m reg = s.stored m reg := by
  have hcpsr : ((s.setCpsr c).bankIn (modeToBank c) c).cpsr = c := rfl
  have hR : ((s.setCpsr c).bankIn (modeToBank c) c).R reg =
      if reg = 13 then s.bankedSp (modeToBank c)
      else if reg = 14 then s.bankedLr (modeToBank c)
      else if 8 ≤ reg.val ∧ reg.val < 13 then
        (if c &&& 0x1F = 0x11 then s.r8_12Fiq else s.r8_12User) (highIndex reg)
      else s.R reg := bankIn_R _ _ _ _
  unfold stored regView
  rw [hcpsr, hR]
  by_cases hlow : reg < 8 ∨ reg = 15
  · obtain ⟨h13, h14, hmid⟩ := low_reg hlow
    rw [if_pos hlow, if_pos hlow, if_neg h13, if_neg h14, if_neg hmid]
  · rw [if_neg hlow, if_neg hlow]
    by_cases hmid : reg < 13
    · obtain ⟨h13, h14, hrange⟩ := mid_reg hlow hmid
      rw [if_pos hmid, if_pos hmid, if_neg h13, if_neg h14, if_pos hrange]
      by_cases hcur : c &&& 0x1F = 0x11
      · by_cases hm : m = .fiq
        · simp only [hcur, hm, if_true]
        · simp only [hcur, hm, if_true, if_false, false_iff, not_true]
          rfl
      · by_cases hm : m = .fiq
        · simp only [hcur, hm, if_true, if_false, true_iff]
          rfl
        · simp only [hcur, hm, if_true, if_false]
    · rw [if_neg hmid, if_neg hmid]
      by_cases hbank : m.bank = modeToBank c
      · rw [if_pos hbank, hbank]
        rcases banked_reg hlow hmid with rfl | rfl
        · rfl
        · rfl
      · rw [if_neg hbank]
        rfl

/-- A switch through the banks changes no view. -/
theorem regView_switch (c : UInt32) (m : Mode) (reg : Fin 16) :
    (((s.bankOut (modeToBank s.cpsr) s.cpsr).setCpsr c).bankIn (modeToBank c) c).regView m reg =
      s.regView m reg := by
  rw [regView_bankIn, stored_bankOut]

/-- Between modes of one bank nothing has to move. -/
theorem regView_setCpsr {om : Mode} (hmode : s.InMode om) {c : UInt32} {nm : Mode}
    (hnew : c &&& 0x1F = nm.bits) (hbank : modeToBank s.cpsr = modeToBank c) (m : Mode)
    (reg : Fin 16) : (s.setCpsr c).regView m reg = s.regView m reg := by
  have hbanks : om.bank = nm.bank := by
    rw [← modeToBank_of_bits hmode, ← modeToBank_of_bits hnew]
    exact hbank
  have hfiq : c &&& 0x1F = 0x11 ↔ s.cpsr &&& 0x1F = 0x11 := by
    rw [hnew, show s.cpsr &&& 0x1F = om.bits from hmode, Mode.bits_eq_fiq_iff,
      Mode.bits_eq_fiq_iff, ← Mode.bank_eq_fiq_iff, ← Mode.bank_eq_fiq_iff, hbanks]
  unfold regView
  change (if reg < 8 ∨ reg = 15 then s.R reg
    else if reg < 13 then
      if m = .fiq ↔ c &&& 0x1F = 0x11 then s.R reg
      else if m = .fiq then s.r8_12Fiq (highIndex reg) else s.r8_12User (highIndex reg)
    else if m.bank = modeToBank c then s.R reg
    else if reg = 13 then s.bankedSp m.bank else s.bankedLr m.bank) = _
  simp only [hfiq, ← hbank]

end Switch

/-! ### Views under writes -/

theorem setR_self (s : ArmCpuState) (reg : Fin 16) (value : UInt32) :
    (s.setR reg value).R reg = value := by
  unfold setR
  simp only [Function.update_self]

/-- Two views of one register. -/
def SameReg (m : Mode) (reg : Fin 16) (m' : Mode) (reg' : Fin 16) : Prop :=
  reg = reg' ∧ m.holder reg = m'.holder reg'

section Write

variable {s : ArmCpuState} {cur : Mode} (hmode : s.InMode cur)

include hmode

/-- A mode sees its own registers in the active file. -/
theorem regView_current (reg : Fin 16) : s.regView cur reg = s.R reg := by
  have hfiq : cur = .fiq ↔ s.cpsr &&& 0x1F = 0x11 := by
    rw [show s.cpsr &&& 0x1F = cur.bits from hmode, Mode.bits_eq_fiq_iff]
  have hbank := modeToBank_of_bits hmode
  unfold regView
  rw [if_pos hfiq, if_pos hbank.symm]
  split
  · rfl
  · split
    · rfl
    · rfl

/-- A write to an active register shows in the views of that register. -/
theorem regView_setR_of_not {m : Mode} {reg reg' : Fin 16} (value : UInt32)
    (h : ¬ SameReg m reg cur reg') : (s.setR reg' value).regView m reg = s.regView m reg := by
  by_cases hreg : reg = reg'
  · subst hreg
    -- another holder: the view is not the active one
    have hholder : m.holder reg ≠ cur.holder reg := fun hsame => h ⟨rfl, hsame⟩
    have hlow : ¬ (reg < 8 ∨ reg = 15) := by
      intro hlow
      apply hholder
      unfold Mode.holder
      rw [if_pos hlow, if_pos hlow]
    unfold Mode.holder at hholder
    rw [if_neg hlow, if_neg hlow] at hholder
    unfold regView
    rw [if_neg hlow, if_neg hlow]
    by_cases hmid : reg < 13
    · rw [if_pos hmid, if_pos hmid] at hholder
      have hdiffer : ¬ (m = .fiq ↔ s.cpsr &&& 0x1F = 0x11) := by
        rw [show s.cpsr &&& 0x1F = cur.bits from hmode, Mode.bits_eq_fiq_iff]
        intro hiff
        simp only [hiff] at hholder
        exact hholder rfl
      rw [if_pos hmid, if_pos hmid, if_neg hdiffer]
      exact if_neg hdiffer
    · rw [if_neg hmid, if_neg hmid] at hholder
      have hdiffer : m.bank ≠ modeToBank s.cpsr := by
        rw [modeToBank_of_bits hmode]
        exact hholder
      rw [if_neg hmid, if_neg hmid, if_neg hdiffer]
      exact if_neg hdiffer
  · have hR : (s.setR reg' value).R reg = s.R reg := Function.update_of_ne hreg _ _
    unfold regView
    rw [hR]
    rfl

omit hmode in
theorem sameReg_of_holder {m cur other : Mode} {reg reg' : Fin 16}
    (hholder : cur.holder reg' = other.holder reg') (h : ¬ SameReg m reg other reg') :
    ¬ SameReg m reg cur reg' :=
  fun hsame => h ⟨hsame.1, hsame.2.trans hholder⟩

/-- A write to a user register shows in the views User mode shares. -/
theorem regView_writeUserReg_of_not {m : Mode} {reg reg' : Fin 16} (value : UInt32)
    (h : ¬ SameReg m reg .user reg') :
    (s.runtimeWriteUserReg reg' value).regView m reg = s.regView m reg := by
  have hbits : s.cpsr &&& 0x1F = cur.bits := hmode
  unfold runtimeWriteUserReg
  by_cases hlow : reg' < 8 ∨ reg' = 15
  · dsimp only
    rw [if_pos hlow]
    refine regView_setR_of_not hmode value (sameReg_of_holder ?_ h)
    unfold Mode.holder
    rw [if_pos hlow, if_pos hlow]
  · dsimp only
    rw [if_neg hlow]
    by_cases hmid : reg' < 13
    · rw [if_pos hmid, hbits]
      by_cases hfiq : cur.bits = 0x11
      · rw [if_pos hfiq]
        by_cases hreg : reg = reg'
        · subst hreg
          have hm : m = .fiq := by
            by_contra hm
            apply h
            refine ⟨rfl, ?_⟩
            unfold Mode.holder
            rw [if_neg hlow, if_neg hlow, if_pos hmid, if_pos hmid, if_neg hm]
            rfl
          have hactive : m = .fiq ↔ s.cpsr &&& 0x1F = 0x11 := by
            rw [hbits]
            exact iff_of_true hm hfiq
          unfold regView
          rw [if_neg hlow, if_neg hlow, if_pos hmid, if_pos hmid, if_pos hactive]
          exact (if_pos hactive).symm
        · -- another index of the user bank
          unfold regView
          by_cases hlow' : reg < 8 ∨ reg = 15
          · rw [if_pos hlow', if_pos hlow']
          · by_cases hmid' : reg < 13
            · have hindex : highIndex reg ≠ highIndex reg' :=
                fun hsame => hreg (highIndex_inj hlow' hmid' hlow hmid hsame)
              rw [if_neg hlow', if_neg hlow', if_pos hmid', if_pos hmid']
              simp only [Function.update_of_ne hindex]
            · rw [if_neg hlow', if_neg hlow', if_neg hmid', if_neg hmid']
      · rw [if_neg hfiq]
        refine regView_setR_of_not hmode value (sameReg_of_holder ?_ h)
        have hcur : cur ≠ .fiq := fun hcur => hfiq (cur.bits_eq_fiq_iff.mpr hcur)
        unfold Mode.holder
        rw [if_neg hlow, if_neg hlow, if_pos hmid, if_pos hmid, if_neg hcur]
        rfl
    · rw [if_neg hmid, hbits]
      by_cases huser : cur.bits = 0x10 ∨ cur.bits = 0x1F
      · rw [if_pos huser]
        refine regView_setR_of_not hmode value (sameReg_of_holder ?_ h)
        unfold Mode.holder
        rw [if_neg hlow, if_neg hlow, if_neg hmid, if_neg hmid]
        exact cur.bits_user_or_system_iff.mp huser
      · rw [if_neg huser]
        have hcur : modeToBank s.cpsr ≠ .user := by
          rw [modeToBank_of_bits hmode]
          exact fun hbank => huser (cur.bits_user_or_system_iff.mpr hbank)
        -- the view of the written register is not the user bank's
        have hother : reg = reg' → m.bank ≠ .user := by
          rintro rfl hbank
          apply h
          refine ⟨rfl, ?_⟩
          unfold Mode.holder
          rw [if_neg hlow, if_neg hlow, if_neg hmid, if_neg hmid, hbank]
          rfl
        rcases banked_reg hlow hmid with rfl | rfl
        · rw [if_pos rfl]
          unfold regView
          by_cases hreg : reg = 13
          · simp only [Function.update_of_ne (hother hreg)]
          · simp only [if_neg hreg]
        · rw [if_neg (by decide)]
          unfold regView
          by_cases hreg : reg = 14
          · simp only [Function.update_of_ne (hother hreg)]
          · by_cases hlow' : reg < 8 ∨ reg = 15
            · simp only [if_pos hlow']
            · by_cases hmid' : reg < 13
              · simp only [if_neg hlow', if_pos hmid']
              · rcases banked_reg hlow' hmid' with rfl | rfl
                · simp only [if_true]
                · exact absurd rfl hreg

end Write

/-! ### Operations -/

section Operations

variable (s : ArmCpuState)

/-- The switch of an MSR and of an exception entry, which moves nothing within a bank. -/
theorem regView_moved {om nm : Mode} (hmode : s.InMode om) {c : UInt32}
    (hnew : c &&& 0x1F = nm.bits) (m : Mode) (reg : Fin 16) :
    ((if modeToBank s.cpsr ≠ modeToBank c then
      (s.bankOut (modeToBank s.cpsr) s.cpsr).bankIn (modeToBank c) c else s).setCpsr c).regView
        m reg = s.regView m reg := by
  by_cases hbank : modeToBank s.cpsr = modeToBank c
  · rw [if_neg (not_not_intro hbank)]
    exact regView_setCpsr s hmode hnew hbank m reg
  · rw [if_pos hbank]
    exact regView_switch s c m reg

theorem runtimeMsrCpsr_eq (value mask : UInt32) :
    s.runtimeMsrCpsr value mask =
      (if modeToBank s.cpsr ≠ modeToBank (s.msrValue value mask) then
        (s.bankOut (modeToBank s.cpsr) s.cpsr).bankIn (modeToBank (s.msrValue value mask))
          (s.msrValue value mask) else s).setCpsr (s.msrValue value mask) := by
  unfold runtimeMsrCpsr
  dsimp only
  split
  · unfold bankOut
    split
    · rfl
    · rfl
  · rfl

theorem moved_spsr (c : UInt32) :
    ((if modeToBank s.cpsr ≠ modeToBank c then
      (s.bankOut (modeToBank s.cpsr) s.cpsr).bankIn (modeToBank c) c else s).setCpsr
        c).bankedSpsr = s.bankedSpsr := by
  split
  · exact (s.bankOut_frame _ _).2.2.1
  · rfl

theorem runtimeMsrCpsr_cpsr (value mask : UInt32) :
    (s.runtimeMsrCpsr value mask).cpsr = s.msrValue value mask := by
  rw [runtimeMsrCpsr_eq]
  rfl

theorem enterException_spsr (nc link vector : UInt32) :
    (s.enterException nc link vector).bankedSpsr =
      Function.update s.bankedSpsr (modeToBank nc) s.cpsr := by
  change Function.update (_ : ArmCpuState).bankedSpsr _ _ = _
  exact congrArg (fun spsr => Function.update spsr _ _) (s.moved_spsr nc)

/-- An exception entry writes its own link register and `R15`. -/
theorem regView_enterException_of_not {om nm : Mode} (hmode : s.InMode om) {nc : UInt32}
    (hnew : nc &&& 0x1F = nm.bits) (link vector : UInt32) {m : Mode} {reg : Fin 16}
    (hlink : ¬ SameReg m reg nm 14) (hpc : reg ≠ 15) :
    (s.enterException nc link vector).regView m reg = s.regView m reg := by
  have hmoved := s.regView_moved hmode hnew m reg
  unfold enterException
  dsimp only
  generalize (if modeToBank s.cpsr ≠ modeToBank nc then
    (s.bankOut (modeToBank s.cpsr) s.cpsr).bankIn (modeToBank nc) nc else s) = moved at hmoved ⊢
  have hcur : ((moved.setCpsr nc).setSpsr (modeToBank nc) s.cpsr).InMode nm := hnew
  have hcur' : (((moved.setCpsr nc).setSpsr (modeToBank nc) s.cpsr).setR 14 link).InMode nm :=
    hnew
  rw [regView_setR_of_not hcur' vector (fun hsame => hpc hsame.1),
    regView_setR_of_not hcur link hlink]
  exact hmoved

/-- A return that switches to the mode of the SPSR. -/
theorem runtimeRestoreCpsrFromSpsr_eq {om : Mode} (hmode : s.InMode om) (hom : om.bank ≠ .user) :
    s.runtimeRestoreCpsrFromSpsr =
      ((s.bankOut (modeToBank s.cpsr) s.cpsr).setCpsr (s.bankedSpsr om.bank)).bankIn
        (modeToBank (s.bankedSpsr om.bank)) (s.bankedSpsr om.bank) := by
  have hbits : s.cpsr &&& 0x1F = om.bits := hmode
  unfold runtimeRestoreCpsrFromSpsr
  dsimp only
  rw [if_neg, modeToBank_of_bits hmode]
  rw [hbits]
  exact fun huser => hom (om.bits_user_or_system_iff.mp huser)

theorem runtimeRestoreCpsrFromSpsr_user {om : Mode} (hmode : s.InMode om) (hom : om.bank = .user) :
    s.runtimeRestoreCpsrFromSpsr = s := by
  have hbits : s.cpsr &&& 0x1F = om.bits := hmode
  unfold runtimeRestoreCpsrFromSpsr
  dsimp only
  rw [if_pos]
  rw [hbits]
  exact om.bits_user_or_system_iff.mpr hom

theorem runtimeExceptionReturn_eq (newPc : UInt32) :
    s.runtimeExceptionReturn newPc = s.runtimeRestoreCpsrFromSpsr.setR 15 newPc := by
  unfold runtimeExceptionReturn runtimeRestoreCpsrFromSpsr
  dsimp only
  split
  · rfl
  · rfl

theorem regView_restore {om : Mode} (hmode : s.InMode om) (m : Mode) (reg : Fin 16) :
    s.runtimeRestoreCpsrFromSpsr.regView m reg = s.regView m reg := by
  by_cases hom : om.bank = .user
  · rw [runtimeRestoreCpsrFromSpsr_user s hmode hom]
  · rw [runtimeRestoreCpsrFromSpsr_eq s hmode hom]
    exact regView_switch s _ m reg

theorem restore_spsr {om : Mode} (hmode : s.InMode om) :
    s.runtimeRestoreCpsrFromSpsr.bankedSpsr = s.bankedSpsr := by
  by_cases hom : om.bank = .user
  · rw [runtimeRestoreCpsrFromSpsr_user s hmode hom]
  · rw [runtimeRestoreCpsrFromSpsr_eq s hmode hom]
    exact (s.bankOut_frame _ _).2.2.1

end Operations

end ArmCpuState

end NdsRecomp.Runtime
