import NdsRecomp.Spu.SavableSound

/-!
The arithmetic of a mixer step in the types of the code. A result that does not
fit the signed type it is stored in is `none`; the shifts to the right keep the
sign.

A saved state is taken over at any point. Its samples are of 16 bits, its other
fields what the loader accepts.
-/

namespace NdsRecomp.Spu

open Library

/-- The values of a signed type of `bits` bits. -/
def InBits (bits : Nat) (value : Int) : Prop := -2 ^ (bits - 1) ≤ value ∧ value < 2 ^ (bits - 1)

instance (bits : Nat) (value : Int) : Decidable (InBits bits value) :=
  inferInstanceAs (Decidable (_ ∧ _))

/-- A value stored into a signed type of `bits` bits. -/
def stored (bits : Nat) (value : Int) : Option Int := if InBits bits value then some value else none

namespace Channel

/-- The end of `run_type`: the sample under the volume. -/
def amplified (ch : Channel) : Option Int := do
  let sample ← stored 16 ch.sample
  let value ← stored 32 (sample * 2 ^ ch.volumeShift)
  stored 32 (value * ch.volume)

def runTypeStored (read : UInt32 → UInt32) (type : SampleType) (ch : Channel) : Option Int :=
  if !ch.enabled then some 0
  else if fed type && decide (ch.total < 16) then some 0
  else (ch.runType read type).2.amplified

def runStored (read : UInt32 → UInt32) (ch : Channel) : Option Int :=
  match ch.sampleType with
  | some type => ch.runTypeStored read type
  | none => some 0

end Channel

/-- The share of one side: the product on 64 bits, shifted down by 10. -/
def panned (input weight : Int) : Option Int := do
  let product ← stored 64 (input * weight)
  stored 32 (product / 1024)

namespace Channel

def panLeft (ch : Channel) (input : Int) : Option Int := panned input (128 - ch.pan)

def panRight (ch : Channel) (input : Int) : Option Int := panned input ch.pan

def panOutputStored (ch : Channel) (input : Int) (out : Int × Int) : Option (Int × Int) := do
  let left ← ch.panLeft input
  let right ← ch.panRight input
  return (← stored 32 (out.1 + left), ← stored 32 (out.2 + right))

end Channel

namespace SpuState

/-- The channels in the order `mix` adds them up. -/
def mixOrder : List (Fin 16) := [0, 2, 1, 3, 4, 5, 6, 7, 8, 9, 10, 11, 12, 13, 14, 15]

/-- Channels 1 and 3 can be kept out of the sum. -/
def keptOut (s : SpuState) (i : Fin 16) : Prop :=
  i = 1 ∧ s.cnt &&& 0x1000 ≠ 0 ∨ i = 3 ∧ s.cnt &&& 0x2000 ≠ 0

instance (s : SpuState) (i : Fin 16) : Decidable (s.keptOut i) :=
  inferInstanceAs (Decidable (_ ∨ _))

def mixedStored (s : SpuState) (view : Fin 16 → UInt32 → UInt32) : Option (Int × Int) :=
  mixOrder.foldlM (fun out i => do
    let value ← (s.channel i).runStored (view i)
    if s.keptOut i then some out
    else ((s.channel i).run (view i)).2.panOutputStored value out) (0, 0)

/-- A sample for a capture unit, and as a byte where it stores bytes. -/
def capturedStored (side : Int) : Option Int := do
  let sample ← stored 16 (clampSample side)
  let _ ← stored 8 (sample / 256)
  return sample

/-- `left_out` and `right_out` before the master volume. `source` is the field
of the control register, `first` and `third` what channels 1 and 3 put out. -/
def outputSource (source : Nat) (mixed : Int) (first third : Option Int) : Option Int :=
  match source with
  | 0 => some mixed
  | 1 => first
  | 2 => third
  | _ => do stored 32 ((← first) + (← third))

/-- One side under the master volume and the bias, as it is pushed. -/
def outputStored (s : SpuState) (side : Int) : Option Int := do
  let product ← stored 64 (side * s.masterVolume)
  let scaled ← stored 32 (product / 128)
  let bias ← stored 32 (s.bias.toNat * 64)
  let raised ← stored 32 (scaled / 256 + bias)
  let biased ← stored 32 (raised - 0x8000)
  stored 16 (max (-0x8000) (min 0x7FFF biased) / 64 * 64 / 2)

end SpuState

/-- The values of a mixer step: the two sums, and the two samples pushed. -/
structure MixedSample where
  mixed : Int × Int
  captured : Int × Int
  output : Int × Int

namespace SpuState

/-- `mix` with its arithmetic in the types of the code. The capture units come
before the output, which finds the registers as they left them. -/
def mixStored (s : SpuState) (view : Fin 16 → UInt32 → UInt32) : Option MixedSample :=
  if s.cnt &&& 0x8000 ≠ 0 then do
    let first ← (s.channel 1).runStored (view 1)
    let third ← (s.channel 3).runStored (view 3)
    let mixed ← s.mixedStored view
    let captured := (← capturedStored mixed.1, ← capturedStored mixed.2)
    let after := s.mix view
    let left ← outputSource (after.cnt.toNat / 256 % 4) mixed.1
      ((after.channel 1).panLeft first) ((after.channel 3).panLeft third)
    let right ← outputSource (after.cnt.toNat / 1024 % 4) mixed.2
      ((after.channel 1).panRight first) ((after.channel 3).panRight third)
    return ⟨mixed, captured, (← after.outputStored left, ← after.outputStored right)⟩
  else do
    return ⟨(0, 0), (0, 0), (← s.outputStored 0, ← s.outputStored 0)⟩

end SpuState

/-! ### Saved states -/

def NdsSpuChannelSaveState.imported (src : NdsSpuChannelSaveState) (i : Fin 16) : Channel :=
  { ({ num := i } : Channel).setCnt src.cnt with
    src := src.src
    reload := src.reload
    loop := src.loop
    length := src.length
    keyOn := src.keyOn != 0
    timer := src.timer
    pos := src.pos
    sample := src.sample
    noise := src.noise
    adpcmValue := src.adpcmValue
    adpcmIndex := src.adpcmIndex
    adpcmLoopValue := src.adpcmLoopValue
    adpcmLoopIndex := src.adpcmLoopIndex
    adpcmByte := src.adpcmByte
    fifo := src.fifo
    fifoRead := src.fifoRead
    fifoWrite := src.fifoWrite
    sourceOffset := src.sourceOffset
    fifoLevel := src.fifoLevel }

def NdsSpuCaptureSaveState.imported (src : NdsSpuCaptureSaveState) : Capture where
  cnt := src.cnt
  dst := src.dst
  reload := src.reload
  length := src.length
  timer := src.timer
  pos := src.pos
  fifo := src.fifo
  fifoRead := src.fifoRead
  fifoWrite := src.fifoWrite
  writeOffset := src.writeOffset
  fifoLevel := src.fifoLevel

def spuSavestateImport (saved : NdsSpuSaveState) : Except String SpuState := do
  spuSavestateValidate saved
  let loaded : SpuState :=
    { channel := fun i => (saved.channel i).imported i
      capture := fun i => (saved.capture i).imported
      bias := saved.bias
      mixCount := saved.mixCount }
  return loaded.setGlobal saved.cnt.toUInt32

/-- The accesses of the ARM7 and the mixer, and a loaded savestate. -/
inductive MixerOp where
  | device (op : SpuOp)
  | restore (saved : NdsSpuSaveState)

def SpuState.nextMixer (s : SpuState) : MixerOp → SpuState
  | .device op => s.next op
  | .restore saved =>
      match spuSavestateImport saved with
      | .ok loaded => loaded
      | .error _ => s

def mixerSystem : OpSystem SpuState MixerOp where
  initial := fun s => s = SpuState.ndsSpuReset
  admits := fun _ op =>
    match op with
    | .device _ => True
    | .restore saved => ∀ i, InBits 16 (saved.channel i).sample
  next := SpuState.nextMixer

end NdsRecomp.Spu
