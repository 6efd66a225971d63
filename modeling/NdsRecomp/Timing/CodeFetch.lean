import NdsRecomp.Timing.MemCycles

/-!
The cost of a code fetch. The runtime classifies the page of an address once
per timing generation, latches the class of the region a branch entered, and
publishes the latch as three words; a bank selects one byte of a constant by
the published class, and falls back to the call when the generation moved.
-/

namespace NdsRecomp.Timing

open Library Bus

/-- In the order of the bytes of the packed constant. -/
inductive Arm9CodeTiming where
  | itcm
  | cached
  | mainRam
  | other
deriving DecidableEq, Repr

/-- `static_cast<uint32_t>` of the class. -/
def Arm9CodeTiming.index : Arm9CodeTiming → UInt32
  | .itcm => 0
  | .cached => 1
  | .mainRam => 2
  | .other => 3

/-- The class of one page, valid for one timing generation. -/
structure Arm9CodeTimingCache where
  page : UInt32 := 0xFFFFFFFF
  cp15Generation : UInt32 := 0
  timing : Arm9CodeTiming := .other
deriving DecidableEq, Repr

/-- What a code fetch reads and leaves behind. The third published word,
`arm9CodePubGen`, is kept with the CP15 registers. -/
structure CodeFetch where
  mem : MemTiming := {}
  thumb : Bool := false
  codeTiming : Arm9CodeTimingCache := {}
  regionCodeTiming : Arm9CodeTiming := .other
  regionCodeTimingValid : Bool := false
  codeClassShift : UInt32 := 0
  itcmCodeLimit : UInt32 := 0
  lastCodePc : NdsCpu → UInt32 := fun _ => 0xFFFFFFFF

def CodeFetch.timingGeneration (s : CodeFetch) : UInt32 := s.mem.core.cp15.timingGeneration

def CodeFetch.pubGen (s : CodeFetch) : UInt32 := s.mem.core.arm9CodePubGen

def CodeFetch.setPubGen (s : CodeFetch) (generation : UInt32) : CodeFetch :=
  { s with mem := { s.mem with core := { s.mem.core with arm9CodePubGen := generation } } }

/-- `g_last_code_pc[cpu] = pc` -/
def CodeFetch.noteCodePc (s : CodeFetch) (pc : UInt32) : CodeFetch :=
  { s with lastCodePc := Function.update s.lastCodePc s.mem.active pc }

/-- `itcm_enable ? itcm_size : 0` -/
def CodeFetch.itcmWindow (s : CodeFetch) : UInt32 :=
  let cp15 := s.mem.core.cp15.visible
  if cp15.itcmEnable then cp15.itcmSize else 0

/-- `g_cp15.itcm_enable && addr < g_cp15.itcm_size` -/
def CodeFetch.inItcm (s : CodeFetch) (addr : UInt32) : Bool :=
  let cp15 := s.mem.core.cp15.visible
  cp15.itcmEnable && decide (addr < cp15.itcmSize)

/-! ### Classifying and latching -/

def arm9CodeFastPublish (s : CodeFetch) : CodeFetch :=
  let s := { s with itcmCodeLimit := s.itcmWindow }
  if !s.regionCodeTimingValid then s.setPubGen 0
  else
    { s with codeClassShift := 8 * s.regionCodeTiming.index }.setPubGen s.timingGeneration

def resetArm9CodeTiming (s : CodeFetch) : CodeFetch :=
  { s with
    codeTiming := {}
    regionCodeTiming := .other
    regionCodeTimingValid := false }.setPubGen 0

def arm9CodeTiming (s : CodeFetch) (addr : UInt32) : Arm9CodeTiming × CodeFetch :=
  let page := addr &&& ~~~(0xFFF : UInt32)
  if s.codeTiming.page = page ∧ s.codeTiming.cp15Generation = s.timingGeneration then
    (s.codeTiming.timing, s)
  else
    let timing : Arm9CodeTiming :=
      if cp15CodeCacheable s.mem.core.cp15 page then .cached
      else if page ≥ 0x02000000 ∧ page < 0x03000000 then .mainRam
      else .other
    (timing, { s with codeTiming := ⟨page, s.timingGeneration, timing⟩ })

/-- `g_arm9_region_code_timing = arm9_code_timing(addr)`, now valid. -/
def latchRegion (s : CodeFetch) (addr : UInt32) : CodeFetch :=
  let classified := arm9CodeTiming s addr
  { classified.2 with
    regionCodeTiming := classified.1
    regionCodeTimingValid := true }

def arm9CurrentCodeTiming (s : CodeFetch) (addr : UInt32) : Arm9CodeTiming × CodeFetch :=
  if s.inItcm addr then (.itcm, s)
  else
    let s := if !s.regionCodeTimingValid then latchRegion s addr else s
    (s.regionCodeTiming, s)

def arm9LatchCodeTiming (s : CodeFetch) (addr : UInt32) : Arm9CodeTiming × CodeFetch :=
  let s := arm9CodeFastPublish (latchRegion s addr)
  if s.inItcm addr then (.itcm, s) else (s.regionCodeTiming, s)

/-! ### The call and its fold -/

/-- The cost of the fetch at `pc` in a class. A cached fetch is keyed to the
prefetched address. -/
def codeClassCycles (timing : Arm9CodeTiming) (pc : UInt32) (thumb : Bool) : UInt32 :=
  match timing with
  | .itcm => 1
  | .cached =>
      let fetchAddr := pc + (if thumb then 4 else 8)
      if fetchAddr &&& 0x1F != 0 then 1 else 3
  | .mainRam => 18
  | .other => 8

def arm7CodeCycles (s : CodeFetch) (pc : UInt32) : UInt32 :=
  let r := arm7Region s.mem pc
  if r.busWidth == 32 then 0
  else if s.thumb then 0
  else
    let s32 := r.s16 + r.s16
    if s32 > 1 then s32 - 1 else 0

def runtimeCodeCycles (s : CodeFetch) (pc : UInt32) : UInt32 × CodeFetch :=
  let noted := s.noteCodePc pc
  match s.mem.active with
  | .arm7 => (arm7CodeCycles noted pc, noted)
  | .arm9 =>
      -- An odd halfword neither latches nor publishes.
      if s.thumb && pc &&& 2 != 0 then (0, noted)
      else
        let (timing, latched) := arm9CurrentCodeTiming noted pc
        (codeClassCycles timing pc s.thumb, arm9CodeFastPublish latched)

/-- `NDS_ARM9_CODE_K`: byte `i` is the cost in class `i`, and zero stands for
an odd Thumb halfword. -/
def ndsArm9CodeK (pc : UInt32) (thumb : Bool) : UInt32 :=
  if thumb && pc &&& 2 != 0 then 0
  else
    0x08120001 |||
      (if (pc + (if thumb then 4 else 8)) &&& 0x1F != 0 then 0x0100 else 0x0300)

def ndsCodeNumc (s : CodeFetch) (pc k : UInt32) : UInt32 × CodeFetch :=
  match s.mem.active with
  | .arm7 => runtimeCodeCycles s pc
  | .arm9 =>
      if s.pubGen ≠ s.timingGeneration then runtimeCodeCycles s pc
      else
        let noted := s.noteCodePc pc
        if k = 0 then (0, noted)
        else if pc < s.itcmCodeLimit then (1, noted)
        else ((k >>> s.codeClassShift) &&& 0xFF, noted)

/-! ### Everything that moves the fetch state -/

/-- An instruction at `pc` in the instruction set of its code, run from a bank
or by the interpreter, and the CP15 write it makes when it is an `MCR`. -/
structure FetchedInsn where
  pc : UInt32
  thumb : Bool
  banked : Bool
  coproc : Option CoprocWrite := none

def CodeFetch.withCore (s : CodeFetch) (core : BusCore) : CodeFetch :=
  { s with mem := { s.mem with core } }

def coprocWriteFetch (s : CodeFetch) (w : CoprocWrite) : CodeFetch :=
  s.withCore (runtimeCoprocWrite s.mem.core w)

/-- The fetch of one instruction, charged before it executes. -/
def fetchInsn (s : CodeFetch) (insn : FetchedInsn) : UInt32 × CodeFetch :=
  if insn.banked then ndsCodeNumc s insn.pc (ndsArm9CodeK insn.pc insn.thumb)
  else runtimeCodeCycles s insn.pc

/-- `bus_init`, `cp15_reset`, and the CP15 writes of a direct boot. -/
def bootFetch (s : CodeFetch) (writes : List CoprocWrite) : CodeFetch :=
  let s := resetArm9CodeTiming { s with lastCodePc := fun _ => 0xFFFFFFFF }
  let s := s.withCore (cp15Reset (busInit s.mem.core))
  writes.foldl coprocWriteFetch s

/-- `bus_savestate_import` and `cp15_savestate_import`. -/
def savestateImportFetch (s : CodeFetch) (saved : NdsCp15SaveState) : CodeFetch :=
  let s := resetArm9CodeTiming s
  s.withCore (cp15SavestateImport s.mem.core.fastRefresh saved)

inductive CodeFetchOp where
  | boot (writes : List CoprocWrite)
  | savestateImport (saved : NdsCp15SaveState)
  | insn (insn : FetchedInsn)
  /-- The refill of a taken branch or an exception entry; bit 0 of the target
  is its instruction set. -/
  | refill (target : UInt32)
  | setThumb (thumb : Bool)
  | switchTo (cpu : NdsCpu)
  | wramcntWrite (byte : UInt8)
  | exmemcntWrite (addr value width : UInt32)
  | wifiwaitcntWrite (addr value width : UInt32)
  | powcntWrite (addr value width : UInt32)
  | ioRestore (exmemcnt : NdsCpu → UInt16) (powercontrol7 wifiwaitcnt : UInt16)

/-- The part of a refill that the fetch state sees: the ARM9 latches the region
of the target, the ARM7 does not. -/
def refillFetch (s : CodeFetch) (target : UInt32) : CodeFetch :=
  let s := { s with thumb := target &&& 1 != 0 }
  match s.mem.active with
  | .arm9 => (arm9LatchCodeTiming s (target &&& ~~~(1 : UInt32))).2
  | .arm7 => s

def CodeFetch.apply (s : CodeFetch) : CodeFetchOp → CodeFetch
  | .boot writes => bootFetch s writes
  | .savestateImport saved => savestateImportFetch s saved
  | .insn insn =>
      let fetched := (fetchInsn s insn).2
      match insn.coproc with
      | none => fetched
      | some w => coprocWriteFetch fetched w
  | .refill target => refillFetch s target
  | .setThumb thumb => { s with thumb }
  | .switchTo cpu => { s with mem := s.mem.apply (.switchTo cpu) }
  | .wramcntWrite byte => { s with mem := s.mem.apply (.wramcntWrite byte) }
  | .exmemcntWrite addr value width =>
      { s with mem := s.mem.apply (.exmemcntWrite addr value width) }
  | .wifiwaitcntWrite addr value width =>
      { s with mem := s.mem.apply (.wifiwaitcntWrite addr value width) }
  | .powcntWrite addr value width =>
      { s with mem := s.mem.apply (.powcntWrite addr value width) }
  | .ioRestore exmemcnt powercontrol7 wifiwaitcnt =>
      { s with mem := s.mem.apply (.ioRestore exmemcnt powercontrol7 wifiwaitcnt) }

/-- Code runs in the instruction set it was emitted for. CP15 is the ARM9's,
and Thumb has no coprocessor instruction. -/
def FetchedInsn.Admitted (insn : FetchedInsn) (s : CodeFetch) : Prop :=
  s.thumb = insn.thumb ∧
    (insn.coproc.isSome = true → s.mem.active = .arm9 ∧ insn.thumb = false)

instance (insn : FetchedInsn) (s : CodeFetch) : Decidable (insn.Admitted s) :=
  inferInstanceAs (Decidable (_ ∧ _))

def CodeFetch.admits (s : CodeFetch) : CodeFetchOp → Prop
  | .insn insn => insn.Admitted s
  | _ => True

instance (s : CodeFetch) : (op : CodeFetchOp) → Decidable (s.admits op)
  | .insn insn => inferInstanceAs (Decidable (insn.Admitted s))
  | .boot _ | .savestateImport _ | .refill _ | .setThumb _ | .switchTo _ | .wramcntWrite _
  | .exmemcntWrite .. | .wifiwaitcntWrite .. | .powcntWrite .. | .ioRestore .. =>
      inferInstanceAs (Decidable True)

def codeFetchSystem : OpSystem CodeFetch CodeFetchOp where
  initial := fun s => s = {}
  admits := CodeFetch.admits
  next := CodeFetch.apply

instance (s : CodeFetch) (op : CodeFetchOp) : Decidable (codeFetchSystem.admits s op) :=
  inferInstanceAs (Decidable (s.admits op))

end NdsRecomp.Timing
