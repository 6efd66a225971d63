import NdsRecomp.Runtime.PollState

/-!
Status registers and the modes they select. A mode switch saves the active registers in the
outgoing mode's bank and loads the incoming mode's; FIQ banks `R8`-`R12` as well.
-/

namespace NdsRecomp.Runtime

/-- The processor modes of the architecture. -/
inductive Mode where
  | user
  | fiq
  | irq
  | supervisor
  | abort
  | undefined
  | system
deriving DecidableEq, Repr

namespace Mode

/-- The low five bits of the CPSR. -/
def bits : Mode → UInt32
  | .user => 0x10
  | .fiq => 0x11
  | .irq => 0x12
  | .supervisor => 0x13
  | .abort => 0x17
  | .undefined => 0x1B
  | .system => 0x1F

def bank : Mode → ArmBank
  | .user => .user
  | .fiq => .fiq
  | .irq => .irq
  | .supervisor => .supervisor
  | .abort => .abort
  | .undefined => .undefined
  | .system => .user

end Mode

/-- The bits an MSR field mask covers. -/
def bytewise (mask : UInt32) : UInt32 :=
  (if mask &&& 1 ≠ 0 then 0x000000FF else 0) ||| (if mask &&& 2 ≠ 0 then 0x0000FF00 else 0) |||
    (if mask &&& 4 ≠ 0 then 0x00FF0000 else 0) ||| (if mask &&& 8 ≠ 0 then 0xFF000000 else 0)

/-- The index of `R8`-`R12` in its bank. -/
def highIndex (reg : Fin 16) : Fin 5 := ⟨(reg.val - 8) % 5, Nat.mod_lt _ (by decide)⟩

namespace ArmCpuState

variable (s : ArmCpuState)

def setCpsr (cpsr : UInt32) : ArmCpuState := { s with cpsr := cpsr }

def setSpsr (bank : ArmBank) (value : UInt32) : ArmCpuState :=
  { s with bankedSpsr := Function.update s.bankedSpsr bank value }

/-! ### Register access -/

def runtimeReadUserReg (reg : Fin 16) : UInt32 :=
  let mode := s.cpsr &&& 0x1F
  if reg < 8 ∨ reg = 15 then s.R reg
  else if reg < 13 then if mode = 0x11 then s.r8_12User (highIndex reg) else s.R reg
  else if mode = 0x10 ∨ mode = 0x1F then s.R reg
  else if reg = 13 then s.bankedSp .user else s.bankedLr .user

def runtimeWriteUserReg (reg : Fin 16) (value : UInt32) : ArmCpuState :=
  let mode := s.cpsr &&& 0x1F
  if reg < 8 ∨ reg = 15 then s.setR reg value
  else if reg < 13 then
    if mode = 0x11 then { s with r8_12User := Function.update s.r8_12User (highIndex reg) value }
    else s.setR reg value
  else if mode = 0x10 ∨ mode = 0x1F then s.setR reg value
  else if reg = 13 then { s with bankedSp := Function.update s.bankedSp .user value }
  else { s with bankedLr := Function.update s.bankedLr .user value }

/-! ### Status registers -/

/-- The CPSR an MSR leaves; in User mode it reaches the flags only. -/
def msrValue (value mask : UInt32) : UInt32 :=
  let bw := bytewise mask
  let bw := if s.cpsr &&& 0x1F = 0x10 then bw &&& 0xFF000000 else bw
  (s.cpsr &&& ~~~bw) ||| (value &&& bw)

def runtimeMsrCpsr (value mask : UInt32) : ArmCpuState :=
  let oc := s.cpsr
  let nc := s.msrValue value mask
  let s := s.setCpsr nc
  if modeToBank oc ≠ modeToBank nc then (s.bankOut (modeToBank oc) oc).bankIn (modeToBank nc) nc
  else s

def runtimeMsrSpsr (value mask : UInt32) : ArmCpuState :=
  let bank := modeToBank s.cpsr
  if bank = .user then s
  else
    let bw := bytewise mask
    s.setSpsr bank ((s.bankedSpsr bank &&& ~~~bw) ||| (value &&& bw))

/-- The switch to the mode of the SPSR. -/
def runtimeRestoreCpsrFromSpsr : ArmCpuState :=
  let om := s.cpsr &&& 0x1F
  if om = 0x10 ∨ om = 0x1F then s
  else
    let spsr := s.bankedSpsr (modeToBank s.cpsr)
    ((s.bankOut (modeToBank s.cpsr) s.cpsr).setCpsr spsr).bankIn (modeToBank spsr) spsr

def runtimeExceptionReturn (newPc : UInt32) : ArmCpuState :=
  let om := s.cpsr &&& 0x1F
  if om = 0x10 ∨ om = 0x1F then s.setR 15 newPc
  else
    let spsr := s.bankedSpsr (modeToBank s.cpsr)
    (((s.bankOut (modeToBank s.cpsr) s.cpsr).setCpsr spsr).bankIn (modeToBank spsr) spsr).setR
      15 newPc

/-! ### Exception entry -/

/-- The entry of an exception: the switch, the saved status, the link register and the
vector. -/
def enterException (nc link vector : UInt32) : ArmCpuState :=
  let saved := s.cpsr
  let s :=
    if modeToBank saved ≠ modeToBank nc then
      (s.bankOut (modeToBank saved) saved).bankIn (modeToBank nc) nc
    else s
  (((s.setCpsr nc).setSpsr (modeToBank nc) saved).setR 14 link).setR 15 vector

def swiCpsr : UInt32 := (s.cpsr &&& ~~~(0x1F ||| 0x20)) ||| 0x13 ||| 0x80

/-- `runtime_swi`, up to the dispatch of the handler. -/
def runtimeSwi (excBase : UInt32) : ArmCpuState :=
  s.enterException s.swiCpsr (s.R 15) (excBase + 0x08)

end ArmCpuState

end NdsRecomp.Runtime
