import NdsRecomp.Spu.Mixer

/-!
The sound part of a savestate: what is exported and what the loader accepts.
-/

namespace NdsRecomp.Spu

structure NdsSpuChannelSaveState where
  cnt : UInt32
  src : UInt32
  reload : UInt16
  loop : Nat
  length : Nat
  keyOn : UInt8
  timer : Nat
  pos : Int
  sample : Int
  noise : UInt16
  adpcmValue : Int
  adpcmIndex : Int
  adpcmLoopValue : Int
  adpcmLoopIndex : Int
  adpcmByte : Nat
  fifo : Nat → UInt8
  fifoRead : Nat
  fifoWrite : Nat
  sourceOffset : Nat
  fifoLevel : Nat

structure NdsSpuCaptureSaveState where
  cnt : UInt8
  dst : UInt32
  reload : UInt16
  length : Nat
  timer : Nat
  pos : Int
  fifo : Nat → UInt8
  fifoRead : Nat
  fifoWrite : Nat
  writeOffset : Nat
  fifoLevel : Nat

structure NdsSpuSaveState where
  channel : Fin 16 → NdsSpuChannelSaveState
  capture : Fin 2 → NdsSpuCaptureSaveState
  cnt : UInt16
  bias : UInt16
  mixCount : UInt64

def Channel.exported (ch : Channel) : NdsSpuChannelSaveState where
  cnt := ch.cnt
  src := ch.src
  reload := ch.reload
  loop := ch.loop
  length := ch.length
  keyOn := if ch.keyOn then 1 else 0
  timer := ch.timer
  pos := ch.pos
  sample := ch.sample
  noise := ch.noise
  adpcmValue := ch.adpcmValue
  adpcmIndex := ch.adpcmIndex
  adpcmLoopValue := ch.adpcmLoopValue
  adpcmLoopIndex := ch.adpcmLoopIndex
  adpcmByte := ch.adpcmByte
  fifo := ch.fifo
  fifoRead := ch.fifoRead
  fifoWrite := ch.fifoWrite
  sourceOffset := ch.sourceOffset
  fifoLevel := ch.fifoLevel

def Capture.exported (c : Capture) : NdsSpuCaptureSaveState where
  cnt := c.cnt
  dst := c.dst
  reload := c.reload
  length := c.length
  timer := c.timer
  pos := c.pos
  fifo := c.fifo
  fifoRead := c.fifoRead
  fifoWrite := c.fifoWrite
  writeOffset := c.writeOffset
  fifoLevel := c.fifoLevel

def spuSavestateExport (s : SpuState) : NdsSpuSaveState where
  channel := fun i => (s.channel i).exported
  capture := fun i => (s.capture i).exported
  cnt := s.cnt
  bias := s.bias
  mixCount := s.mixCount

/-- The first test of a channel fails. -/
def NdsSpuChannelSaveState.InvalidState (ch : NdsSpuChannelSaveState) : Prop :=
  ch.cnt &&& ~~~0xFF7F837F ≠ 0 ∨ ch.src &&& ~~~0x07FFFFFC ≠ 0 ∨
    ch.loop > 0x3FFFC ∨ ch.loop % 4 ≠ 0 ∨ ch.length > 0x7FFFFC ∨ ch.length % 4 ≠ 0 ∨
    ch.keyOn > 1 ∨ ch.timer > 0xFFFF ∨ ch.pos < -3 ∨
    ch.adpcmIndex < 0 ∨ ch.adpcmIndex > 88 ∨ ch.adpcmLoopIndex < 0 ∨ ch.adpcmLoopIndex > 88 ∨
    ch.fifoRead ≥ 32 ∨ ch.fifoWrite ≥ 32 ∨ ch.fifoLevel > 32 ∨
    (ch.fifoWrite + 32 - ch.fifoRead) % 32 ≠ ch.fifoLevel % 32 ∨
    ch.sourceOffset % 4 ≠ 0 ∨ ch.sourceOffset > ch.loop + ch.length
deriving Decidable

/-- The second test of a channel fails. -/
def NdsSpuChannelSaveState.InvalidCursor (ch : NdsSpuChannelSaveState) : Prop :=
  let format := (ch.cnt >>> 29) &&& 3
  ch.fifoWrite % 4 ≠ 0 ∨ (format = 1 ∧ ch.fifoRead % 2 ≠ 0) ∨
    (format = 2 ∧ ch.pos < 8 ∧ ch.fifoRead % 4 ≠ 0)
deriving Decidable

def NdsSpuCaptureSaveState.InvalidState (c : NdsSpuCaptureSaveState) : Prop :=
  c.cnt &&& ~~~0x8F ≠ 0 ∨ (c.cnt &&& 0x80 = 0 ∧ c.cnt &&& 1 ≠ 0) ∨
    c.dst &&& ~~~0x07FFFFFC ≠ 0 ∨ c.length > 0x3FFFC ∨ c.length % 4 ≠ 0 ∨
    c.timer > 0xFFFF ∨ c.pos < 0 ∨ c.fifoRead ≥ 16 ∨ c.fifoWrite ≥ 16 ∨ c.fifoLevel > 16 ∨
    (c.fifoWrite + 16 - c.fifoRead) % 16 ≠ c.fifoLevel % 16 ∨ c.writeOffset % 4 ≠ 0 ∨
    (if c.length = 0 then c.writeOffset ≠ 0 else c.writeOffset ≥ c.length)
deriving Decidable

def NdsSpuCaptureSaveState.InvalidCursor (c : NdsSpuCaptureSaveState) : Prop :=
  c.fifoRead % 4 ≠ 0 ∨ (c.cnt &&& 0x88 = 0x80 ∧ c.fifoWrite % 2 ≠ 0)
deriving Decidable

def NdsSpuChannelSaveState.validate (ch : NdsSpuChannelSaveState) : Except String Unit :=
  if ch.InvalidState then .error "savestate SPU channel state is invalid"
  else if ch.InvalidCursor then .error "savestate SPU channel FIFO cursor is invalid"
  else .ok ()

def NdsSpuCaptureSaveState.validate (c : NdsSpuCaptureSaveState) : Except String Unit :=
  if c.InvalidState then .error "savestate SPU capture state is invalid"
  else if c.InvalidCursor then .error "savestate SPU capture FIFO cursor is invalid"
  else .ok ()

def spuSavestateValidate (s : NdsSpuSaveState) : Except String Unit := do
  if s.cnt &&& ~~~0xBF7F ≠ 0 ∨ s.bias > 0x3FF then
    throw "savestate SPU global state is invalid"
  (List.finRange 16).forM fun i => (s.channel i).validate
  (List.finRange 2).forM fun i => (s.capture i).validate

end NdsRecomp.Spu
