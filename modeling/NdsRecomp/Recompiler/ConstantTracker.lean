import NdsRecomp.Library.FinIndex
import NdsRecomp.Library.OpSystem

/-!
The finder's narrow constant tracker. Walking a straight line of instructions
it keeps, for each register, a value it believes the register to hold. Beside
the walk runs the CPU: a state pairs the tracker with the registers, and the
question is whether what the tracker says is what the registers hold.

The decoder and the interpreter are not part of this repository. A decoded
instruction is taken with the registers it writes, and its execution is
constrained only by what the architecture says of the forms the tracker names.
-/

namespace NdsRecomp.Recompiler

open Library

inductive CpuMode where
  | arm
  | thumb
deriving DecidableEq, Repr

/-- The operations the tracker names; `other` stands for the rest. -/
inductive IrOp where
  | mov
  | add
  | sub
  | ldr
  | ldrb
  | ldrh
  | ldrsb
  | ldrsh
  | str
  | strb
  | strh
  | ldm
  | other
deriving DecidableEq, Repr

inductive ShiftType where
  | lsl
  | lsr
  | asr
  | ror
deriving DecidableEq, Repr

inductive Op2 where
  | imm (immValue : UInt32)
  | shifted (byRegister : Bool) (type : ShiftType) (immOrRs : UInt8) (rm : Fin 16)
deriving DecidableEq, Repr

structure MemOperand where
  byRegister : Bool := false
  rn : Fin 16 := 0
  immOffset : UInt32 := 0
  add : Bool := true
  preIndexed : Bool := true
  writeback : Bool := false
deriving DecidableEq, Repr

structure BlockOperand where
  load : Bool := false
  writeback : Bool := false
  rn : Fin 16 := 0
deriving DecidableEq, Repr

/-- A decoded instruction. `always` is the condition `AL`; `destinations` are
the registers it writes when its condition passes, a call's being those the
callee may change. -/
structure Instr where
  op : IrOp
  pc : UInt32
  always : Bool := true
  rd : Option (Fin 16) := none
  rn : Fin 16 := 0
  op2 : Op2 := .imm 0
  mem : MemOperand := {}
  block : BlockOperand := {}
  destinations : Fin 16 → Bool := fun _ => false

/-- The readable image. -/
structure Image where
  canReadAt : UInt32 → Bool
  readU32 : UInt32 → UInt32

abbrev RegConst := Fin 16 → Option UInt32

abbrev Regs := Fin 16 → UInt32

/-! ### The tracker -/

/-- `pc + 8`, or `(pc + 4) & ~3` in Thumb. -/
def pcValue (mode : CpuMode) (pc : UInt32) : UInt32 :=
  match mode with
  | .arm => pc + 8
  | .thumb => (pc + 4) &&& ~~~3

def ror32 (v n : UInt32) : UInt32 :=
  if n = 0 then v else (v >>> n) ||| (v <<< (32 - n))

/-- The word a load of `ea` brings: the aligned word, rotated. -/
def loadedWord (image : Image) (ea : UInt32) : UInt32 :=
  ror32 (image.readU32 (ea &&& ~~~3)) ((ea &&& 3) * 8)

/-- The address of a load from its base. -/
def indexedAddr (mem : MemOperand) (base : UInt32) : UInt32 :=
  if mem.preIndexed then
    if mem.add then base + mem.immOffset else base - mem.immOffset
  else base

def evalMemImmAddr (mode : CpuMode) (t : RegConst) (i : Instr) : Option UInt32 :=
  if i.mem.byRegister then none
  else if i.mem.rn = 15 then some (indexedAddr i.mem (pcValue mode i.pc))
  else (t i.mem.rn).map (indexedAddr i.mem)

/-- What the tracker holds of `rd` after the instruction. -/
def trackedValue (image : Image) (mode : CpuMode) (t : RegConst) (i : Instr) : Option UInt32 :=
  match i.op, i.op2 with
  | .mov, .imm immValue => some immValue
  | .mov, .shifted byRegister _ immOrRs rm =>
      if byRegister = false ∧ immOrRs = 0 then
        if rm = 15 then some (pcValue mode i.pc) else t rm
      else none
  | .add, .imm immValue =>
      if i.rn = 15 then some (pcValue mode i.pc + immValue)
      else (t i.rn).map (· + immValue)
  | .sub, .imm immValue => (t i.rn).map (· - immValue)
  | .ldr, _ =>
      if i.mem.writeback then none
      else (evalMemImmAddr mode t i).bind fun ea =>
        if image.canReadAt ea then some (loadedWord image ea) else none
  | _, _ => none

/-- The base an `LDM` with writeback loses. -/
def ldmBase (i : Instr) : Option (Fin 16) :=
  if i.op = .ldm ∧ i.block.load = true ∧ i.block.writeback = true then some i.block.rn else none

/-- The base a single transfer with writeback loses. -/
def memBase (i : Instr) : Option (Fin 16) :=
  if i.mem.writeback then
    match i.op with
    | .ldr | .ldrb | .ldrh | .ldrsb | .ldrsh | .str | .strb | .strh => some i.mem.rn
    | _ => none
  else none

/-- `reg_const[r].known = false` -/
def forget (t : RegConst) (r : Option (Fin 16)) : RegConst :=
  match r with
  | none => t
  | some r => Function.update t r none

def trackRd (image : Image) (mode : CpuMode) (t : RegConst) (i : Instr) : RegConst :=
  match i.rd with
  | none => t
  | some rd => Function.update t rd (trackedValue image mode t i)

/-- The tracker after one instruction. A call is an instruction like any
other. -/
def track (image : Image) (mode : CpuMode) (t : RegConst) (i : Instr) : RegConst :=
  forget (trackRd image mode (forget t (ldmBase i)) i) (memBase i)

/-! ### The CPU -/

/-- The program counter an instruction reads; a Thumb move does not align it. -/
def movedPc (mode : CpuMode) (pc : UInt32) : UInt32 :=
  match mode with
  | .arm => pc + 8
  | .thumb => pc + 4

/-- The base an instruction's own address takes. -/
def baseValue (mode : CpuMode) (r : Regs) (i : Instr) (rn : Fin 16) : UInt32 :=
  if rn = 15 then pcValue mode i.pc else r rn

/-- What the forms the tracker names leave in `rd`: immediate and unshifted
moves, additions and subtractions of an immediate, and word loads from the
image. -/
def architecturalResult (image : Image) (mode : CpuMode) (r : Regs) (i : Instr) :
    Option UInt32 :=
  match i.op, i.op2 with
  | .mov, .imm immValue => some immValue
  | .mov, .shifted byRegister type immOrRs rm =>
      if byRegister = false ∧ type = .lsl ∧ immOrRs = 0 then
        some (if rm = 15 then movedPc mode i.pc else r rm)
      else none
  | .add, .imm immValue => some (baseValue mode r i i.rn + immValue)
  | .sub, .imm immValue => some (baseValue mode r i i.rn - immValue)
  | .ldr, _ =>
      if i.mem.byRegister then none
      else
        let ea := indexedAddr i.mem (baseValue mode r i i.mem.rn)
        if image.canReadAt ea then some (loadedWord image ea) else none
  | _, _ => none

/-- One instruction takes the registers `r` to `r'`. An instruction whose
condition fails writes nothing; one whose condition passes writes its
destinations, and `rd` as the architecture says where it is a named form. The
program counter is not a register here. -/
structure Executes (image : Image) (mode : CpuMode) (i : Instr) (passed : Bool) (r r' : Regs) :
    Prop where
  condition : i.always = true → passed = true
  failed : passed = false → ∀ x, x ≠ 15 → r' x = r x
  kept : ∀ x, x ≠ 15 → i.destinations x = false → r' x = r x
  result : passed = true → ∀ rd, i.rd = some rd → ∀ v,
    architecturalResult image mode r i = some v → r' rd = v

/-- The walk and the run, side by side. -/
structure WalkState where
  tracked : RegConst
  regs : Regs

/-- An instruction, whether its condition passed, and the registers it left. -/
structure WalkStep where
  instr : Instr
  passed : Bool
  after : Regs

/-- A straight line: an instruction that gives the program counter a value ends
the walk. -/
def walkSystem (image : Image) (mode : CpuMode) : OpSystem WalkState WalkStep where
  initial := fun s => s.tracked = fun _ => none
  admits := fun s step =>
    (step.instr.rd = some 15 → trackedValue image mode s.tracked step.instr = none) ∧
      Executes image mode step.instr step.passed s.regs step.after
  next := fun s step => ⟨track image mode s.tracked step.instr, step.after⟩

end NdsRecomp.Recompiler
