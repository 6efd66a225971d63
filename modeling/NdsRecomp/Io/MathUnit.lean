import NdsRecomp.Io.Spi

/-!
The ARM9's divider and square-root unit. A write to a control or an operand
register restarts the unit's completion event; the result registers keep their
value until it.
-/

namespace NdsRecomp.Io

structure MathUnit where
  divcnt : UInt16 := 0
  divNumer : Fin 2 → UInt32 := fun _ => 0
  divDenom : Fin 2 → UInt32 := fun _ => 0
  divQuot : Fin 2 → UInt32 := fun _ => 0
  divRem : Fin 2 → UInt32 := fun _ => 0
  divDeadline : UInt64 := deadlineNone
  sqrtcnt : UInt16 := 0
  sqrtVal : Fin 2 → UInt32 := fun _ => 0
  sqrtRes : UInt32 := 0
  sqrtDeadline : UInt64 := deadlineNone

/-! ### Two-word registers -/

def wordsU64 (words : Fin 2 → UInt32) : UInt64 :=
  (words 0).toUInt64 ||| (words 1).toUInt64 <<< 32

def asS64 (words : Fin 2 → UInt32) : Int := (wordsU64 words).toInt64.toInt

def asS32 (v : UInt32) : Int := v.toInt32.toInt

def storeS64 (value : Int) : Fin 2 → UInt32 :=
  ![(UInt64.ofInt value).toUInt32, (UInt64.ofInt value >>> 32).toUInt32]

namespace MathUnit

/-! ### Divider -/

def startDiv (m : MathUnit) (now : UInt64) : MathUnit :=
  let m := { m with divcnt := m.divcnt ||| 0x8000 }
  { m with divDeadline := now + (if m.divcnt &&& 0x3 = 0 then 18 else 34) }

def setDivResult (m : MathUnit) (quot rem : Fin 2 → UInt32) : MathUnit :=
  { m with divQuot := quot, divRem := rem }

/-- 32-bit operands. The overflowing quotient leaves the remainder as it was. -/
def divide32 (m : MathUnit) : MathUnit :=
  let num := asS32 (m.divNumer 0)
  let den := asS32 (m.divDenom 0)
  if den = 0 then
    m.setDivResult (if num < 0 then ![1, 0xFFFFFFFF] else ![0xFFFFFFFF, 0]) (storeS64 num)
  else if num = -2 ^ 31 ∧ den = -1 then m.setDivResult (storeS64 (2 ^ 31)) m.divRem
  else m.setDivResult (storeS64 (num.tdiv den)) (storeS64 (num.tmod den))

/-- A 64-bit numerator. -/
def divide64 (m : MathUnit) (den : Int) : MathUnit :=
  let num := asS64 m.divNumer
  if den = 0 then m.setDivResult (storeS64 (if num < 0 then 1 else -1)) (storeS64 num)
  else if num = -2 ^ 63 ∧ den = -1 then m.setDivResult (storeS64 (-2 ^ 63)) (storeS64 0)
  else m.setDivResult (storeS64 (num.tdiv den)) (storeS64 (num.tmod den))

def divide (m : MathUnit) : MathUnit :=
  if m.divcnt &&& 0x3 = 0 then m.divide32
  else if m.divcnt &&& 0x3 = 2 then m.divide64 (asS64 m.divDenom)
  else m.divide64 (asS32 (m.divDenom 0))

def finishDiv (m : MathUnit) : MathUnit :=
  let m := { m with divcnt := m.divcnt &&& ~~~0xC000 }
  let m := m.divide
  if m.divDenom 0 ||| m.divDenom 1 = 0 then { m with divcnt := m.divcnt ||| 0x4000 } else m

/-! ### Square root -/

def startSqrt (m : MathUnit) (now : UInt64) : MathUnit :=
  { m with sqrtcnt := m.sqrtcnt ||| 0x8000, sqrtDeadline := now + 13 }

structure SqrtLoop where
  val : UInt64
  rem : UInt64 := 0
  res : UInt32 := 0

/-- Two bits of the operand brought down. -/
def SqrtLoop.step (topshift : UInt64) (s : SqrtLoop) : SqrtLoop :=
  let rem := (s.rem <<< 2) + ((s.val >>> topshift) &&& 3)
  let res := s.res <<< 1
  let prod := (res <<< 1) + 1
  if rem ≥ prod.toUInt64 then ⟨s.val <<< 2, rem - prod.toUInt64, res + 1⟩
  else ⟨s.val <<< 2, rem, res⟩

def finishSqrt (m : MathUnit) : MathUnit :=
  let m := { m with sqrtcnt := m.sqrtcnt &&& ~~~0x8000 }
  let wide := m.sqrtcnt &&& 1 ≠ 0
  let val := if wide then wordsU64 m.sqrtVal else (m.sqrtVal 0).toUInt64
  let nbits := if wide then 32 else 16
  let topshift : UInt64 := if wide then 62 else 30
  { m with sqrtRes := ((SqrtLoop.step topshift)^[nbits] { val := val }).res }

/-! ### Registers -/

def mathAddr (addr : UInt32) : Bool :=
  (0x04000280 ≤ addr && addr < 0x04000284) || (0x04000290 ≤ addr && addr < 0x040002C0)

def mathRegWrite (m : MathUnit) (addr value : UInt32) (width : Nat) (now : UInt64) : MathUnit :=
  let shift := (addr &&& 3) * 8
  let rawMask : UInt32 := if 4 ≤ width then 0xFFFFFFFF else (1 <<< UInt32.ofNat (width * 8)) - 1
  let bits := rawMask <<< shift
  let merge := fun (old : UInt32) => old &&& ~~~bits ||| (value <<< shift) &&& bits
  let setWord := fun (words : Fin 2 → UInt32) (i : Fin 2) =>
    Function.update words i (merge (words i))
  if addr &&& ~~~3 = 0x04000280 then
    { m with divcnt := (merge m.divcnt.toUInt32).toUInt16 }.startDiv now
  else if addr &&& ~~~3 = 0x04000290 then { m with divNumer := setWord m.divNumer 0 }.startDiv now
  else if addr &&& ~~~3 = 0x04000294 then { m with divNumer := setWord m.divNumer 1 }.startDiv now
  else if addr &&& ~~~3 = 0x04000298 then { m with divDenom := setWord m.divDenom 0 }.startDiv now
  else if addr &&& ~~~3 = 0x0400029C then { m with divDenom := setWord m.divDenom 1 }.startDiv now
  else if addr &&& ~~~3 = 0x040002B0 then
    { m with sqrtcnt := (merge m.sqrtcnt.toUInt32).toUInt16 }.startSqrt now
  else if addr &&& ~~~3 = 0x040002B8 then { m with sqrtVal := setWord m.sqrtVal 0 }.startSqrt now
  else if addr &&& ~~~3 = 0x040002BC then { m with sqrtVal := setWord m.sqrtVal 1 }.startSqrt now
  else m

/-- The two completion events. -/
def runEvents (m : MathUnit) (timestamp : UInt64) : MathUnit :=
  let m :=
    if m.divDeadline ≤ timestamp then { m with divDeadline := deadlineNone }.finishDiv else m
  if m.sqrtDeadline ≤ timestamp then { m with sqrtDeadline := deadlineNone }.finishSqrt else m

end MathUnit

end NdsRecomp.Io
