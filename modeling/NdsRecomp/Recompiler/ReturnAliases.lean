import NdsRecomp.Library.FinIndex
import NdsRecomp.Library.OpSystem

/-!
Which `bx rm` of a function body returns to the host. Scanning the body in address
order, the emitter keeps for each register whether it holds the return address the
function was entered with. Beside the scan runs the CPU, over the same
instructions. The decoder is not part of this repository; an instruction is taken
as decoded, with the registers the architecture lets its form write.
-/

namespace NdsRecomp.Recompiler.ReturnScan

open Library

/-- The decoder's operations; `other` stands for those the emitter never names. -/
inductive IrOp where
  | and | eor | sub | rsb | add | adc | sbc | rsc | orr | mov | bic | mvn
  | tst | teq | cmp | cmn
  | ldr | ldrb | ldrh | ldrsb | ldrsh | ldrd
  | str | strb | strh | strd
  | ldm | stm
  | swp | swpb | mrs | msr | clz | mrc | mcr
  | qadd | qsub | qdadd | qdsub | smlaXy | smlawY | smulwY | smulXy
  | mul | mla | umull | umlal | smull | smlal | smlalXy
  | b | bl | bx | blxReg | blxImm | blPrefix | blSuffix
  | swi | pld | other
deriving DecidableEq, Repr

/-- A decoded instruction, with what the scan and the architecture read of it.
`plain` says that the second operand is a register shifted left by the immediate 0.
`changed` is what else its execution may change: the registers a callee or a
handler leaves changed, the banked registers of a mode switch, and all of them for
an operation that is not named. -/
structure Instr where
  op : IrOp
  always : Bool := true
  rd : UInt8 := 0
  rn : UInt8 := 0
  rm : UInt8 := 0
  plain : Bool := false
  opRm : UInt8 := 0
  memRn : UInt8 := 0
  memPreIndexed : Bool := true
  memWriteback : Bool := false
  blockLoad : Bool := false
  blockWriteback : Bool := false
  blockRn : UInt8 := 0
  regList : UInt16 := 0
  changed : Fin 16 → Bool := fun _ => false

abbrev Regs := Fin 16 → UInt32

abbrev LrAlias := Fin 16 → Bool

/-! ### The scan -/

/-- `ins.block.reg_list & (1u << reg)` -/
def listed (i : Instr) : List UInt8 :=
  (List.range 16).filterMap fun reg =>
    if i.regList &&& (1 <<< UInt16.ofNat reg) ≠ 0 then some (UInt8.ofNat reg) else none

/-- The registers `invalidate_written_aliases` clears. -/
def clearedRegs (i : Instr) : List UInt8 :=
  match i.op with
  | .and | .eor | .sub | .rsb | .add | .adc | .sbc | .rsc | .orr | .mov | .bic | .mvn
  | .ldr | .ldrb | .ldrh | .ldrsb | .ldrsh | .swp | .swpb | .mrs | .clz | .mrc
  | .qadd | .qsub | .qdadd | .qdsub | .smlaXy | .smlawY | .smulwY | .smulXy
  | .mul | .mla => [i.rd]
  | .umull | .umlal | .smull | .smlal | .smlalXy => [i.rd, i.rn]
  | .ldrd => [i.rd, (i.rd + 1) &&& 15]
  | .ldm => if i.blockLoad then listed i else []
  | .bl | .blxReg | .blxImm | .blPrefix | .blSuffix => [14]
  | _ => []

def inRegs (regs : List UInt8) (x : Fin 16) : Bool := regs.any fun reg => reg.toNat == x.val

/-- `clear` for each of them; a number from 16 on clears nothing. -/
def invalidateWrittenAliases (table : LrAlias) (i : Instr) : LrAlias :=
  fun x => table x && !inRegs (clearedRegs i) x

/-- `plain_reg_source` -/
def plainRegSource (i : Instr) : Option UInt8 :=
  if i.op = .mov ∧ i.plain = true then some i.opRm else none

/-- `reg < 16 && lr_alias[reg]` -/
def holdsAlias (table : LrAlias) (reg : UInt8) : Bool :=
  if h : reg.toNat < 16 then table ⟨reg.toNat, h⟩ else false

def setsLrAlias (table : LrAlias) (i : Instr) : Bool :=
  match plainRegSource i with
  | none => false
  | some src => decide (i.rd < 16) && i.always && holdsAlias table src

/-- The table after one instruction of the scan. -/
def scanAlias (table : LrAlias) (i : Instr) : LrAlias :=
  fun x => (setsLrAlias table i && i.rd.toNat == x.val) || invalidateWrittenAliases table i x

def entryAlias : LrAlias := fun x => x == 14

/-- The table in front of the instruction at an index of the body. -/
def aliasAt (body : List Instr) (k : Nat) : LrAlias := (body.take k).foldl scanAlias entryAlias

/-- The instruction at `k` is a `bx` of a register that holds an alias. -/
def aliasReturnAt (body : List Instr) (k : Nat) : Option (Fin 16) :=
  match body[k]? with
  | none => none
  | some i =>
      if h : i.rm.toNat < 16 then
        if i.op = .bx ∧ aliasAt body k ⟨i.rm.toNat, h⟩ = true then some ⟨i.rm.toNat, h⟩ else none
      else none

/-! ### The CPU -/

/-- The results an operation writes. -/
def resultRegs (i : Instr) : List UInt8 :=
  match i.op with
  | .and | .eor | .sub | .rsb | .add | .adc | .sbc | .rsc | .orr | .mov | .bic | .mvn
  | .ldr | .ldrb | .ldrh | .ldrsb | .ldrsh
  | .swp | .swpb | .mrs | .clz | .mrc
  | .qadd | .qsub | .qdadd | .qdsub | .smlaXy | .smlawY | .smulwY | .smulXy
  | .mul | .mla => [i.rd]
  | .umull | .umlal | .smull | .smlal | .smlalXy => [i.rd, i.rn]
  | .ldrd => [i.rd, (i.rd + 1) &&& 15]
  | .ldm => if i.blockLoad then listed i else []
  | .bl | .blxReg | .blxImm | .blPrefix | .blSuffix => [14]
  | .tst | .teq | .cmp | .cmn | .str | .strb | .strh | .strd | .stm | .msr | .mcr
  | .b | .bx | .swi | .pld | .other => []

/-- The base a transfer writes back; post-indexing always does. -/
def baseRegs (i : Instr) : List UInt8 :=
  match i.op with
  | .ldr | .ldrb | .ldrh | .ldrsb | .ldrsh | .ldrd | .str | .strb | .strh | .strd =>
      if i.memWriteback || !i.memPreIndexed then [i.memRn] else []
  | .ldm | .stm => if i.blockWriteback then [i.blockRn] else []
  | _ => []

/-- Operations behind which other code has run, or registers were switched. -/
def changesMore : IrOp → Bool
  | .bl | .blxReg | .blxImm | .blSuffix | .swi | .msr | .other => true
  | _ => false

/-- The registers an executed instruction may change. -/
def writes (i : Instr) (x : Fin 16) : Bool :=
  inRegs (resultRegs i) x || inRegs (baseRegs i) x || (changesMore i.op && i.changed x)

/-- One instruction takes the registers `r` to `r'`. An instruction whose condition
fails writes nothing; an unshifted move leaves its source's value in `rd`. -/
structure Executes (i : Instr) (passed : Bool) (r r' : Regs) : Prop where
  condition : i.always = true → passed = true
  failed : passed = false → ∀ x, x ≠ 15 → r' x = r x
  kept : ∀ x, x ≠ 15 → writes i x = false → r' x = r x
  moved : passed = true → ∀ src, plainRegSource i = some src → ∀ rd rs : Fin 16,
    i.rd.toNat = rd.val → src.toNat = rs.val → rs ≠ 15 → r' rd = r rs

structure ScanState where
  table : LrAlias
  regs : Regs
  /-- The return address the function was entered with. -/
  link : UInt32

structure ScanStep where
  instr : Instr
  passed : Bool
  after : Regs

/-- The body's instructions in address order: one that gives the program counter a
value and executes is the last. -/
def aliasSystem : OpSystem ScanState ScanStep where
  initial := fun s => s.table = entryAlias ∧ s.regs 14 = s.link
  admits := fun s step =>
    (step.passed = true → writes step.instr 15 = false) ∧
      Executes step.instr step.passed s.regs step.after
  next := fun s step => ⟨scanAlias s.table step.instr, step.after, s.link⟩

/-! ### What the scan overlooks -/

/-- A written-back base, or a register changed by other code, that is not among
the cleared ones. -/
def overlooked (i : Instr) (x : Fin 16) : Bool :=
  (inRegs (baseRegs i) x || (changesMore i.op && i.changed x)) && !inRegs (clearedRegs i) x

/-- An executed instruction overlooks no register that holds an alias. -/
def KeepsTrack (s : ScanState) (step : ScanStep) : Prop :=
  step.passed = true → ∀ x, overlooked step.instr x = true → s.table x = false

/-- Operation by operation: every result is cleared. -/
theorem resultRegs_cleared (i : Instr) : resultRegs i = clearedRegs i := by
  unfold resultRegs clearedRegs
  cases i.op <;> rfl

theorem writes_iff (i : Instr) (x : Fin 16) :
    writes i x = true ↔ inRegs (clearedRegs i) x = true ∨ overlooked i x = true := by
  unfold writes overlooked
  rw [resultRegs_cleared]
  cases inRegs (clearedRegs i) x <;> simp

/-- What the table says is what the registers hold. -/
structure AliasSound (s : ScanState) : Prop where
  pc : s.table 15 = false
  holds : ∀ x, s.table x = true → s.regs x = s.link

theorem aliasSound_start {s : ScanState} (h : aliasSystem.initial s) : AliasSound s := by
  obtain ⟨halias, hlink⟩ := h
  refine ⟨by rw [halias]; rfl, fun x hx => ?_⟩
  rw [halias] at hx
  rw [eq_of_beq hx]
  exact hlink

/-- What a set entry of the table after an instruction comes from. -/
theorem scanAlias_cases {table : LrAlias} {i : Instr} {x : Fin 16} (h : scanAlias table i x = true) :
    (∃ src : Fin 16, i.always = true ∧ i.rd.toNat = x.val ∧ table src = true ∧
        ∃ reg : UInt8, plainRegSource i = some reg ∧ reg.toNat = src.val) ∨
      (table x = true ∧ inRegs (clearedRegs i) x = false) := by
  unfold scanAlias at h
  rw [Bool.or_eq_true, Bool.and_eq_true] at h
  rcases h with ⟨hsets, hrd⟩ | hkept
  · left
    unfold setsLrAlias at hsets
    cases hsource : plainRegSource i with
    | none =>
        rw [hsource] at hsets
        cases hsets
    | some reg =>
        rw [hsource] at hsets
        simp only [Bool.and_eq_true, decide_eq_true_eq] at hsets
        obtain ⟨⟨-, halways⟩, hholds⟩ := hsets
        unfold holdsAlias at hholds
        split at hholds
        · next hreg =>
            exact ⟨⟨reg.toNat, hreg⟩, halways, eq_of_beq hrd, hholds, reg, rfl, rfl⟩
        · cases hholds
  · right
    unfold invalidateWrittenAliases at hkept
    rw [Bool.and_eq_true, Bool.not_eq_true'] at hkept
    exact hkept

/-- A plain move writes its destination. -/
theorem writes_of_plain {i : Instr} {reg : UInt8} {x : Fin 16} (h : plainRegSource i = some reg)
    (hrd : i.rd.toNat = x.val) : writes i x = true := by
  unfold plainRegSource at h
  split at h
  · next hmov =>
      unfold writes resultRegs
      rw [hmov.1]
      simp [inRegs, hrd]
  · cases h

theorem AliasSound.next {s : ScanState} (hs : AliasSound s) {step : ScanStep}
    (hadmits : aliasSystem.admits s step) (hkeeps : KeepsTrack s step) :
    AliasSound (aliasSystem.next s step) := by
  obtain ⟨hline, hexec⟩ := hadmits
  have hmoved : ∀ x, scanAlias s.table step.instr x = true → x ≠ 15 := by
    rintro x hx rfl
    rcases scanAlias_cases hx with ⟨src, halways, hrd, -, reg, hreg, -⟩ | ⟨hkept, -⟩
    · have hwrites := writes_of_plain hreg hrd
      rw [hline (hexec.condition halways)] at hwrites
      cases hwrites
    · rw [hs.pc] at hkept
      cases hkept
  constructor
  · cases h15 : scanAlias s.table step.instr 15 with
    | false => exact h15
    | true => exact absurd rfl (hmoved 15 h15)
  · intro x hx
    change scanAlias s.table step.instr x = true at hx
    have hne := hmoved x hx
    change step.after x = s.link
    rcases scanAlias_cases hx with ⟨src, halways, hrd, hsrc, reg, hreg, hval⟩ | ⟨hkept, hcleared⟩
    · have hsrcPc : src ≠ 15 := by
        rintro rfl
        rw [hs.pc] at hsrc
        cases hsrc
      rw [hexec.moved (hexec.condition halways) reg hreg x src hrd hval hsrcPc]
      exact hs.holds src hsrc
    · rw [← hs.holds x hkept]
      cases hpassed : step.passed with
      | false => exact hexec.failed hpassed x hne
      | true =>
          apply hexec.kept x hne
          cases hwrites : writes step.instr x with
          | false => rfl
          | true =>
              rcases (writes_iff _ _).mp hwrites with h | h
              · rw [hcleared] at h
                cases h
              · rw [hkeeps hpassed x h] at hkept
                cases hkept

theorem aliasSound_run {s : ScanState} {steps : List ScanStep} (hs : AliasSound s)
    (hsteps : (aliasSystem.restrict KeepsTrack).AdmitsAll s steps) :
    AliasSound (aliasSystem.runFrom s steps) := by
  induction steps generalizing s with
  | nil => exact hs
  | cons step rest ih =>
      obtain ⟨⟨hadmits, hkeeps⟩, hrest⟩ := hsteps
      exact ih (hs.next hadmits hkeeps) hrest

/-- The table of a run is the scan's table of its instructions. -/
theorem runFrom_alias (s : ScanState) (steps : List ScanStep) :
    (aliasSystem.runFrom s steps).table = (steps.map ScanStep.instr).foldl scanAlias s.table ∧
      (aliasSystem.runFrom s steps).link = s.link := by
  induction steps generalizing s with
  | nil => exact ⟨rfl, rfl⟩
  | cons step rest ih => exact ih (aliasSystem.next s step)

theorem aliasReturnAt_alias {body : List Instr} {k : Nat} {rm : Fin 16}
    (h : aliasReturnAt body k = some rm) : aliasAt body k rm = true := by
  unfold aliasReturnAt at h
  split at h
  · cases h
  · split at h
    · split at h
      · next hbx =>
          cases h
          exact hbx.2
      · cases h
    · cases h

/-- A `bx rm` classified as a return through an alias finds the return address in
`rm`, in every execution of the body up to it whose instructions overlook no
register that holds an alias. -/
theorem aliasReturn_sound (body : List Instr) (k : Nat) (rm : Fin 16) (s : ScanState)
    (steps : List ScanStep) (hentry : aliasSystem.initial s)
    (hbody : steps.map ScanStep.instr = body.take k)
    (hsteps : (aliasSystem.restrict KeepsTrack).AdmitsAll s steps)
    (hreturn : aliasReturnAt body k = some rm) :
    (aliasSystem.runFrom s steps).regs rm = s.link := by
  have hsound := aliasSound_run (aliasSound_start hentry) hsteps
  obtain ⟨halias, hlink⟩ := runFrom_alias s steps
  rw [← hlink]
  refine hsound.holds rm ?_
  rw [halias, hentry.1, hbody]
  exact aliasReturnAt_alias hreturn

/-- Entered with the return address `0x02000100`. -/
def entered : ScanState where
  table := entryAlias
  regs := fun x => if x = 14 then 0x02000100 else 0
  link := 0x02000100

/-- `mov r0, lr` -/
def moveLink : Instr := { op := .mov, plain := true, opRm := 14 }

/-- `ldr r0, [lr], #4` -/
def loadPastLink : Instr := { op := .ldr, memRn := 14, memPreIndexed := false, memWriteback := true }

def afterMove : ScanStep :=
  ⟨moveLink, true, fun x => if x = 14 ∨ x = 0 then 0x02000100 else 0⟩

def afterLoad : ScanStep :=
  ⟨loadPastLink, true, fun x => if x = 14 then 0x02000104 else 0⟩

theorem aliasReturn_sound_move :
    (aliasSystem.runFrom entered [afterMove]).regs 0 = entered.link := by
  refine aliasReturn_sound [moveLink, { op := .bx, rm := 0 }] 1 0 entered [afterMove] ⟨rfl, rfl⟩ rfl
    ⟨⟨⟨by decide, ⟨fun _ => rfl, fun h => ?_, by decide, ?_⟩⟩, fun _ => by decide⟩, trivial⟩
    (by decide)
  · cases h
  · intro _ src hsrc rd rs hrd hrs _
    cases hsrc
    have hrd : rd = 0 := Fin.ext hrd.symm
    have hrs : rs = 14 := Fin.ext hrs.symm
    rw [hrd, hrs]
    rfl

/-- The load writes its base back, and the scan still takes the base for the
return address. -/
theorem writeback_keeps_alias :
    ∃ body k rm s steps, aliasSystem.initial s ∧ steps.map ScanStep.instr = body.take k ∧
      aliasSystem.AdmitsAll s steps ∧ aliasReturnAt body k = some rm ∧
      (aliasSystem.runFrom s steps).regs rm ≠ s.link := by
  refine ⟨[loadPastLink, { op := .bx, rm := 14 }], 1, 14, entered, [afterLoad], ⟨rfl, rfl⟩, rfl,
    ⟨⟨by decide, ⟨fun _ => rfl, fun h => ?_, by decide, fun _ src h => ?_⟩⟩, trivial⟩, by decide,
    by decide⟩
  · cases h
  · cases h

end NdsRecomp.Recompiler.ReturnScan
