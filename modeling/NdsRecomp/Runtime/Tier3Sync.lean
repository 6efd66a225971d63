import NdsRecomp.Runtime.BankSystem

/-!
The hand-over between the native CPU state and the interpreter's. The native CPSR is packed;
the interpreter keeps the flags, the masks, the state bit and the mode as fields of their
own, so the bits between them do not come back.
-/

namespace NdsRecomp.Runtime

open Library

/-- The interpreter's status register. -/
structure StatusFields where
  n : Bool
  z : Bool
  c : Bool
  v : Bool
  q : Bool
  i : Bool
  f : Bool
  t : Bool
  mode : UInt32

structure InterpState where
  R : Fin 16 → UInt32
  cpsr : StatusFields
  thumb : Bool
  bankedSp : ArmBank → UInt32
  bankedLr : ArmBank → UInt32
  bankedSpsr : ArmBank → UInt32
  r8_12User : Fin 5 → UInt32
  r8_12Fiq : Fin 5 → UInt32

def bitOf (p k : UInt32) : Bool := (p >>> k) &&& 1 != 0

def ofBit (b : Bool) (k : UInt32) : UInt32 := (if b then 1 else 0) <<< k

def packCpsr (c : InterpState) : UInt32 :=
  ofBit c.cpsr.n 31 ||| ofBit c.cpsr.z 30 ||| ofBit c.cpsr.c 29 ||| ofBit c.cpsr.v 28 |||
    ofBit c.cpsr.q 27 ||| ofBit c.cpsr.i 7 ||| ofBit c.cpsr.f 6 ||| ofBit c.cpsr.t 5 |||
    c.cpsr.mode

def syncIn (s : ArmCpuState) : InterpState :=
  let p := s.cpsr
  { R := s.R
    cpsr :=
      { n := bitOf p 31, z := bitOf p 30, c := bitOf p 29, v := bitOf p 28, q := bitOf p 27
        i := bitOf p 7, f := bitOf p 6, t := bitOf p 5, mode := p &&& 0x1F }
    thumb := bitOf p 5
    bankedSp := s.bankedSp
    bankedLr := s.bankedLr
    bankedSpsr := s.bankedSpsr
    r8_12User := s.r8_12User
    r8_12Fiq := s.r8_12Fiq }

def syncOut (c : InterpState) : ArmCpuState where
  R := c.R
  cpsr := packCpsr c
  bankedSp := c.bankedSp
  bankedLr := c.bankedLr
  bankedSpsr := c.bankedSpsr
  r8_12User := c.r8_12User
  r8_12Fiq := c.r8_12Fiq

/-- The CPSR bits the interpreter has no field for. -/
def reservedBits : UInt32 := 0x07FFFF00

theorem ofBit_bitOf (p : UInt32) {k : UInt32} (hk : k.toNat < 32) :
    ofBit (bitOf p k) k = p &&& (1 <<< k) := by
  have hone : (p >>> k) &&& 1 = if bitOf p k then 1 else 0 := by
    unfold bitOf
    have hlt : ((p >>> k) &&& 1).toNat < 2 := by
      rw [UInt32.toNat_and]
      exact Nat.lt_succ_of_le Nat.and_le_right
    by_cases hzero : (p >>> k) &&& 1 = 0
    · rw [hzero]
      rfl
    · have hset : (p >>> k) &&& 1 = 1 := by
        apply UInt32.toNat_inj.mp
        have hne : ((p >>> k) &&& 1).toNat ≠ 0 := fun h => hzero (UInt32.toNat_inj.mp h)
        change _ = 1
        omega
      rw [hset]
      rfl
  unfold ofBit
  rw [← hone, UInt32.shiftLeft_and]
  apply UInt32.toNat_inj.mp
  apply Nat.eq_of_testBit_eq
  intro i
  have hbit : (((1 : UInt32) <<< k).toNat).testBit i = decide (i = k.toNat) := by
    rw [UInt32.toNat_shiftLeft, Nat.mod_eq_of_lt hk, Nat.shiftLeft_eq]
    change (1 * 2 ^ k.toNat % 2 ^ 32).testBit i = _
    have hpow : 2 ^ k.toNat < 2 ^ 32 := Nat.pow_lt_pow_right (by decide) hk
    rw [Nat.one_mul, Nat.mod_eq_of_lt hpow, Nat.testBit_two_pow, eq_comm]
    exact decide_eq_decide.mpr eq_comm
  rw [UInt32.toNat_and, UInt32.toNat_and, Nat.testBit_and, Nat.testBit_and, hbit]
  by_cases hik : i = k.toNat
  · subst hik
    rw [UInt32.toNat_shiftLeft, UInt32.toNat_shiftRight, Nat.mod_eq_of_lt hk,
      Nat.testBit_mod_two_pow, Nat.testBit_shiftLeft, Nat.testBit_shiftRight]
    simp [hk]
  · simp [hik]

theorem and_or_and (p a b : UInt32) : p &&& a ||| p &&& b = p &&& (a ||| b) := by
  apply UInt32.toNat_inj.mp
  rw [UInt32.toNat_or, UInt32.toNat_and, UInt32.toNat_and, UInt32.toNat_and, UInt32.toNat_or]
  exact (Nat.and_or_distrib_left _ _ _).symm

/-- The hand-over keeps the bits the interpreter has fields for. -/
theorem packCpsr_syncIn (s : ArmCpuState) :
    packCpsr (syncIn s) = s.cpsr &&& ~~~reservedBits := by
  unfold packCpsr syncIn
  dsimp only
  rw [ofBit_bitOf s.cpsr (by decide : (31 : UInt32).toNat < 32),
    ofBit_bitOf s.cpsr (by decide : (30 : UInt32).toNat < 32),
    ofBit_bitOf s.cpsr (by decide : (29 : UInt32).toNat < 32),
    ofBit_bitOf s.cpsr (by decide : (28 : UInt32).toNat < 32),
    ofBit_bitOf s.cpsr (by decide : (27 : UInt32).toNat < 32),
    ofBit_bitOf s.cpsr (by decide : (7 : UInt32).toNat < 32),
    ofBit_bitOf s.cpsr (by decide : (6 : UInt32).toNat < 32),
    ofBit_bitOf s.cpsr (by decide : (5 : UInt32).toNat < 32)]
  rw [and_or_and, and_or_and, and_or_and, and_or_and, and_or_and, and_or_and, and_or_and,
    and_or_and]
  rfl

/-- No bit of the status word lacks a field. -/
def Clean (status : UInt32) : Prop := status &&& reservedBits = 0

instance (status : UInt32) : Decidable (Clean status) := inferInstanceAs (Decidable (_ = _))

/-- The hand-over and back gives the state exactly when its CPSR has no reserved bit set. -/
theorem syncOut_syncIn_iff (s : ArmCpuState) : syncOut (syncIn s) = s ↔ Clean s.cpsr := by
  have hsplit : s.cpsr &&& ~~~reservedBits ||| s.cpsr &&& reservedBits = s.cpsr := by
    rw [and_or_and]
    exact UInt32.and_neg_one
  constructor
  · intro hsame
    have hcpsr : s.cpsr &&& ~~~reservedBits = s.cpsr :=
      (packCpsr_syncIn s).symm.trans (congrArg ArmCpuState.cpsr hsame)
    unfold Clean
    rw [← hcpsr, UInt32.and_assoc]
    exact UInt32.and_zero
  · intro hclean
    have hcpsr : packCpsr (syncIn s) = s.cpsr := by
      unfold Clean at hclean
      rw [packCpsr_syncIn]
      rw [hclean, UInt32.or_zero] at hsplit
      exact hsplit
    cases s
    exact congrArg (fun p => ArmCpuState.mk _ p _ _ _ _ _) hcpsr

/-! ### Runs without reserved bits -/

/-- No status word of the CPU, current or saved, has a reserved bit. -/
structure ArmCpuState.CleanStatus (s : ArmCpuState) : Prop where
  cpsr : Clean s.cpsr
  spsr : ∀ bank, Clean (s.bankedSpsr bank)

/-- A status write whose field mask reaches no reserved bit that the value sets. -/
def BankOp.WritesClean : BankOp → Prop
  | .msrCpsr value mask => Clean (value &&& bytewise mask)
  | .msrSpsr value mask => Clean (value &&& bytewise mask)
  | _ => True

theorem Clean.or {a b : UInt32} (ha : Clean a) (hb : Clean b) : Clean (a ||| b) := by
  unfold Clean at ha hb ⊢
  rw [UInt32.and_comm, ← and_or_and, UInt32.and_comm, ha, UInt32.and_comm, hb]
  rfl

theorem Clean.and {a : UInt32} (ha : Clean a) (b : UInt32) : Clean (a &&& b) := by
  unfold Clean at ha ⊢
  rw [UInt32.and_assoc, UInt32.and_comm b, ← UInt32.and_assoc, ha]
  exact UInt32.zero_and

namespace ArmCpuState

theorem msrValue_clean {s : ArmCpuState} (hs : Clean s.cpsr) {value mask : UInt32}
    (hvalue : Clean (value &&& bytewise mask)) : Clean (s.msrValue value mask) := by
  unfold msrValue
  dsimp only
  split
  · refine (hs.and _).or ?_
    rw [← UInt32.and_assoc]
    exact hvalue.and _
  · exact (hs.and _).or hvalue

theorem enterException_clean {s : ArmCpuState} (hs : s.CleanStatus) {nc : UInt32} (hnc : Clean nc)
    (link vector : UInt32) : (s.enterException nc link vector).CleanStatus := by
  refine ⟨hnc, fun bank => ?_⟩
  rw [enterException_spsr]
  rcases eq_or_ne bank (modeToBank nc) with rfl | hbank
  · rw [Function.update_self]
    exact hs.cpsr
  · rw [Function.update_of_ne hbank]
    exact hs.spsr bank

theorem restore_clean {s : ArmCpuState} (hs : s.CleanStatus) (harch : s.Architectural) :
    s.runtimeRestoreCpsrFromSpsr.CleanStatus := by
  obtain ⟨om, hmode⟩ := harch
  by_cases hom : om.bank = .user
  · rw [runtimeRestoreCpsrFromSpsr_user s hmode hom]
    exact hs
  · have hspsr := s.restore_spsr hmode
    refine ⟨?_, fun bank => ?_⟩
    · rw [runtimeRestoreCpsrFromSpsr_eq s hmode hom]
      exact hs.spsr om.bank
    · rw [hspsr]
      exact hs.spsr bank

/-- A clean operation keeps the status words clean. -/
theorem CleanStatus.next {s : ArmCpuState} (hs : s.CleanStatus) (harch : s.Architectural)
    {op : BankOp} (hop : op.WritesClean) : (s.next op).CleanStatus := by
  cases op with
  | writeReg reg value => exact ⟨hs.cpsr, hs.spsr⟩
  | writeUserReg reg value =>
      have hcpsr : (s.runtimeWriteUserReg reg value).cpsr = s.cpsr := by
        unfold runtimeWriteUserReg
        dsimp only
        split_ifs <;> rfl
      refine ⟨?_, fun bank => ?_⟩
      · change Clean (s.runtimeWriteUserReg reg value).cpsr
        rw [hcpsr]
        exact hs.cpsr
      · change Clean ((s.runtimeWriteUserReg reg value).bankedSpsr bank)
        rw [writeUserReg_spsr]
        exact hs.spsr bank
  | msrCpsr value mask =>
      refine ⟨?_, fun bank => ?_⟩
      · change Clean (s.runtimeMsrCpsr value mask).cpsr
        rw [runtimeMsrCpsr_cpsr]
        exact msrValue_clean hs.cpsr hop
      · change Clean ((s.runtimeMsrCpsr value mask).bankedSpsr bank)
        rw [runtimeMsrCpsr_eq, moved_spsr]
        exact hs.spsr bank
  | msrSpsr value mask =>
      change (s.runtimeMsrSpsr value mask).CleanStatus
      unfold runtimeMsrSpsr
      dsimp only
      split
      · exact hs
      · refine ⟨hs.cpsr, fun bank => ?_⟩
        change Clean (Function.update s.bankedSpsr _ _ bank)
        rcases eq_or_ne bank (modeToBank s.cpsr) with rfl | hbank
        · rw [Function.update_self]
          exact ((hs.spsr _).and _).or hop
        · rw [Function.update_of_ne hbank]
          exact hs.spsr bank
  | swi excBase =>
      refine enterException_clean hs ?_ _ _
      exact ((hs.cpsr.and _).or (by decide : Clean 0x13)).or (by decide : Clean 0x80)
  | irq excBase returnAddress =>
      change (s.enterIrq returnAddress excBase).CleanStatus
      rw [enterIrq_eq]
      refine enterException_clean hs ?_ _ _
      exact (hs.cpsr.and _).or (by decide : Clean 0xD2)
  | exceptionReturn newPc =>
      change (s.runtimeExceptionReturn newPc).CleanStatus
      rw [runtimeExceptionReturn_eq]
      exact ⟨(restore_clean hs harch).cpsr, (restore_clean hs harch).spsr⟩
  | restoreCpsr => exact restore_clean hs harch

end ArmCpuState

/-- Native execution from a state without reserved bits. -/
def nativeSystem : OpSystem ArmCpuState BankOp where
  initial := fun s => s.Architectural ∧ s.CleanStatus
  admits := bankSystem.admits
  next := ArmCpuState.next

theorem clean_invariant :
    (nativeSystem.restrict fun _ op => op.WritesClean).Invariant fun s =>
      s.Architectural ∧ s.CleanStatus := by
  refine ⟨fun s h => h, ?_⟩
  rintro s op ⟨harch, hclean⟩ ⟨hadmits, hop⟩
  exact ⟨hadmits, hclean.next harch hop⟩

/-- The hand-over is lossless exactly in the states without a reserved CPSR bit, and these
are all states of every run whose status writes set none. -/
theorem handOver_lossless (s : ArmCpuState) :
    (syncOut (syncIn s) = s ↔ Clean s.cpsr) ∧
      ((nativeSystem.restrict fun _ op => op.WritesClean).Reachable s →
        syncOut (syncIn s) = s) := by
  refine ⟨syncOut_syncIn_iff s, fun h => ?_⟩
  exact (syncOut_syncIn_iff s).mpr (h.invariant clean_invariant).2.cpsr

/-- Supervisor mode after reset. -/
def resetState : ArmCpuState := { cpsr := 0xD3 }

theorem resetState_architectural : resetState.Architectural := by
  refine ⟨.supervisor, ?_⟩
  unfold ArmCpuState.InMode
  decide

theorem resetState_clean : resetState.CleanStatus :=
  ⟨by decide, fun _ => (by decide : Clean 0)⟩

theorem resetState_handOver : syncOut (syncIn resetState) = resetState :=
  (handOver_lossless resetState).2 (.start ⟨resetState_architectural, resetState_clean⟩)

/-- `MSR CPSR_f` with bit 24 set: the bit is in the native CPSR and lost in the hand-over. -/
theorem reserved_bit_is_lost :
    nativeSystem.Reachable (resetState.next (.msrCpsr 0x01000000 8)) ∧
      syncOut (syncIn (resetState.next (.msrCpsr 0x01000000 8))) ≠
        resetState.next (.msrCpsr 0x01000000 8) := by
  constructor
  · have hstart : nativeSystem.Reachable resetState :=
      .start ⟨resetState_architectural, resetState_clean⟩
    have hadmits : nativeSystem.admits resetState (.msrCpsr 0x01000000 8) := by
      refine ⟨.supervisor, ?_⟩
      unfold ArmCpuState.InMode
      decide
    exact .step hstart hadmits
  · rw [Ne, syncOut_syncIn_iff]
    decide

end NdsRecomp.Runtime
