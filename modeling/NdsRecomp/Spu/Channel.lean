import NdsRecomp.Runtime.PollState

/-!
A sound channel: its registers, the ring of 32 bytes between the bus and the
sample decoder, and the four decoders that advance through it.

Cursors and counters are numbers with the code's wrap written out. The words
the bus answers are a function of the address. `inBounds` records whether every
access to the ring so far stayed inside its 32 bytes.
-/

namespace NdsRecomp.Spu

/-- The decoders of `run_type`, in the order of its switch. -/
inductive SampleType where
  | pcm8
  | pcm16
  | adpcm
  | psg
  | noise
deriving DecidableEq

def kAdpcmIndex (nibble : Nat) : Int :=
  match nibble with
  | 4 => 2
  | 5 => 4
  | 6 => 6
  | 7 => 8
  | _ => -1

def kAdpcmStep : List Nat :=
  [0x0007, 0x0008, 0x0009, 0x000A, 0x000B, 0x000C, 0x000D, 0x000E,
    0x0010, 0x0011, 0x0013, 0x0015, 0x0017, 0x0019, 0x001C, 0x001F,
    0x0022, 0x0025, 0x0029, 0x002D, 0x0032, 0x0037, 0x003C, 0x0042,
    0x0049, 0x0050, 0x0058, 0x0061, 0x006B, 0x0076, 0x0082, 0x008F,
    0x009D, 0x00AD, 0x00BE, 0x00D1, 0x00E6, 0x00FD, 0x0117, 0x0133,
    0x0151, 0x0173, 0x0198, 0x01C1, 0x01EE, 0x0220, 0x0256, 0x0292,
    0x02D4, 0x031C, 0x036C, 0x03C3, 0x0424, 0x048E, 0x0502, 0x0583,
    0x0610, 0x06AB, 0x0756, 0x0812, 0x08E0, 0x09C3, 0x0ABD, 0x0BD0,
    0x0CFF, 0x0E4C, 0x0FBA, 0x114C, 0x1307, 0x14EE, 0x1706, 0x1954,
    0x1BDC, 0x1EA5, 0x21B6, 0x2515, 0x28CA, 0x2CDF, 0x315B, 0x364B,
    0x3BB9, 0x41B2, 0x4844, 0x4F7E, 0x5771, 0x602F, 0x69CE, 0x7462,
    0x7FFF]

/-- A square wave of the given duty; duty 7 stays low. -/
def kPsg (duty phase : Nat) : Int :=
  if duty = 7 then -0x7FFF else if phase + duty < 7 then -0x7FFF else 0x7FFF

structure Channel where
  num : Nat := 0
  cnt : UInt32 := 0
  src : UInt32 := 0
  reload : UInt16 := 0
  loop : Nat := 0
  length : Nat := 0
  volume : Nat := 0
  volumeShift : Nat := 0
  pan : Nat := 0
  keyOn : Bool := false
  timer : Nat := 0
  pos : Int := 0
  sample : Int := 0
  noise : UInt16 := 0
  adpcmValue : Int := 0
  adpcmIndex : Int := 0
  adpcmLoopValue : Int := 0
  adpcmLoopIndex : Int := 0
  adpcmByte : Nat := 0
  fifo : Nat → UInt8 := fun _ => 0
  fifoRead : Nat := 0
  fifoWrite : Nat := 0
  sourceOffset : Nat := 0
  fifoLevel : Nat := 0
  inBounds : Bool := true

namespace Channel

def format (ch : Channel) : UInt32 := (ch.cnt >>> 29) &&& 3

def repeatMode (ch : Channel) : UInt32 := (ch.cnt >>> 27) &&& 3

def loops (ch : Channel) : Bool := ch.repeatMode &&& 1 != 0

def oneShot (ch : Channel) : Bool := ch.repeatMode &&& 2 != 0

def enabled (ch : Channel) : Bool := ch.cnt &&& 0x80000000 != 0

def total (ch : Channel) : Nat := ch.loop + ch.length

def setCnt (ch : Channel) (value : UInt32) : Channel :=
  let old := ch.cnt
  let cnt := value &&& 0xFF7F837F
  let volume := (cnt &&& 0x7F).toNat
  let pan := ((cnt >>> 16) &&& 0x7F).toNat
  { ch with
    cnt
    volume := if volume = 127 then volume + 1 else volume
    volumeShift :=
      match ((cnt >>> 8) &&& 3).toNat with
      | 0 => 4
      | 1 => 3
      | 2 => 2
      | _ => 0
    pan := if pan = 127 then pan + 1 else pan
    keyOn := ch.keyOn || (value &&& 0x80000000 != 0 && old &&& 0x80000000 == 0) }

/-- The bytes of a word stored from `index` on. -/
def storeWord (fifo : Nat → UInt8) (index : Nat) (value : UInt32) : Nat → UInt8 := fun i =>
  if index ≤ i ∧ i < index + 4 then (value >>> UInt32.ofNat (8 * (i - index))).toUInt8 else fifo i

/-- The copying loop of a burst, `words` words long. -/
def refillWords (read : UInt32 → UInt32) : Nat → Channel → Channel
  | 0, ch => ch
  | words + 1, ch =>
      let addr := ch.src + UInt32.ofNat ch.sourceOffset
      let value := if addr ≥ 0x00004000 then read addr else 0
      refillWords read words
        { ch with
          fifo := storeWord ch.fifo ch.fifoWrite value
          inBounds := ch.inBounds && decide (ch.fifoWrite + 4 ≤ 32)
          sourceOffset := (ch.sourceOffset + 4) % 2 ^ 32
          fifoWrite := (ch.fifoWrite + 4) % 32 }

/-- A burst of 16 bytes, cut off at the end of the source. -/
def refillBurst (read : UInt32 → UInt32) (ch : Channel) : Channel :=
  let burst :=
    if ch.sourceOffset + 16 > ch.total then (ch.total + 2 ^ 32 - ch.sourceOffset) % 2 ^ 32 else 16
  let ch := refillWords read ((burst + 3) / 4) ch
  { ch with fifoLevel := (ch.fifoLevel + burst) % 2 ^ 32 }

def bufferData (read : UInt32 → UInt32) (ch : Channel) : Channel :=
  if ch.sourceOffset ≥ ch.total then
    if ch.loops then refillBurst read { ch with sourceOffset := ch.loop }
    else if ch.oneShot then ch
    else refillBurst read ch
  else refillBurst read ch

/-- `fifo_read_value<T>` for a `T` of `size` bytes, and the value as a number. -/
def fifoReadValue (read : UInt32 → UInt32) (size : Nat) (ch : Channel) : Nat × Channel :=
  let value :=
    (List.range size).foldr (fun i acc => (ch.fifo (ch.fifoRead + i)).toNat + 256 * acc) 0
  let ch :=
    { ch with
      inBounds := ch.inBounds && decide (ch.fifoRead + size ≤ 32)
      fifoRead := (ch.fifoRead + size) % 32
      fifoLevel := (ch.fifoLevel + 2 ^ 32 - size) % 2 ^ 32 }
  (value, if ch.fifoLevel ≤ 16 then bufferData read ch else ch)

/-- A channel at the start of its sound, the ring empty. -/
def cleared (ch : Channel) : Channel :=
  { ch with
    timer := ch.reload.toNat
    pos := if ch.format = 3 then -1 else -3
    noise := 0x7FFF
    sample := 0
    fifo := fun _ => 0
    fifoRead := 0
    fifoWrite := 0
    sourceOffset := 0
    fifoLevel := 0 }

def start (read : UInt32 → UInt32) (ch : Channel) : Channel :=
  if ch.format ≠ 3 then bufferData read (bufferData read ch.cleared) else ch.cleared

/-- The `++pos` of every decoder, on 32 bits. -/
def advance (ch : Channel) : Channel :=
  { ch with pos := (ch.pos + 1).bmod (2 ^ 32) }

/-- The end of a sample that is played once. -/
def stop (ch : Channel) : Channel :=
  { ch with sample := 0, cnt := ch.cnt &&& ~~~0x80000000 }

def setSample (ch : Channel) (sample : Int) : Channel := { ch with sample }

def fetchPcm8 (read : UInt32 → UInt32) (ch : Channel) : Channel :=
  let fetched := ch.fifoReadValue read 1
  fetched.2.setSample ((fetched.1 : Int).bmod 256 * 256)

def nextPcm8 (read : UInt32 → UInt32) (ch : Channel) : Channel :=
  let ch := ch.advance
  if ch.pos < 0 then ch
  else if ch.pos.toNat ≥ ch.total then
    if ch.loops then fetchPcm8 read { ch with pos := ch.loop }
    else if ch.oneShot then ch.stop
    else fetchPcm8 read ch
  else fetchPcm8 read ch

def fetchPcm16 (read : UInt32 → UInt32) (ch : Channel) : Channel :=
  let fetched := ch.fifoReadValue read 2
  fetched.2.setSample ((fetched.1 : Int).bmod 65536)

def nextPcm16 (read : UInt32 → UInt32) (ch : Channel) : Channel :=
  let ch := ch.advance
  if ch.pos < 0 then ch
  else if ch.pos.toNat * 2 % 2 ^ 32 ≥ ch.total then
    if ch.loops then fetchPcm16 read { ch with pos := (ch.loop / 2 : Nat) }
    else if ch.oneShot then ch.stop
    else fetchPcm16 read ch
  else fetchPcm16 read ch

/-- The decoder set to a value and index that a loop comes back to. -/
def setAdpcmStart (ch : Channel) (value index : Int) : Channel :=
  { ch with
    adpcmValue := value
    adpcmIndex := index
    adpcmLoopValue := value
    adpcmLoopIndex := index }

def readHeader (read : UInt32 → UInt32) (ch : Channel) : Channel :=
  let header := ch.fifoReadValue read 4
  header.2.setAdpcmStart (((header.1 % 65536 : Nat) : Int).bmod 65536)
    (min ((header.1 / 65536 % 128 : Nat) : Int) 88)

def setAdpcmByte (ch : Channel) (adpcmByte : Nat) : Channel := { ch with adpcmByte }

def fetchAdpcmByte (ch : Channel) (read : UInt32 → UInt32) : Channel :=
  let fetched := ch.fifoReadValue read 1
  fetched.2.setAdpcmByte fetched.1

/-- The decoder set back to where the loop starts. -/
def rewindAdpcm (ch : Channel) : Channel :=
  { ch with
    pos := (ch.loop * 2 : Nat)
    adpcmValue := ch.adpcmLoopValue
    adpcmIndex := ch.adpcmLoopIndex }

/-- The step of the decoder for the low nibble of `adpcm_byte`. -/
def decodeNibble (ch : Channel) : Channel :=
  let step := kAdpcmStep.getD ch.adpcmIndex.toNat 0
  let diff :=
    step / 8 + (if ch.adpcmByte.testBit 0 then step / 4 else 0) +
      (if ch.adpcmByte.testBit 1 then step / 2 else 0) +
      (if ch.adpcmByte.testBit 2 then step else 0)
  let value : Int :=
    if ch.adpcmByte.testBit 3 then max (-0x7FFF) (ch.adpcmValue - diff)
    else min 0x7FFF (ch.adpcmValue + diff)
  let index := max 0 (min 88 (ch.adpcmIndex + kAdpcmIndex (ch.adpcmByte % 8)))
  let ch := { ch with adpcmValue := value, adpcmIndex := index }
  if ch.pos = ((ch.loop * 2 : Nat) : Int) then
    { ch with adpcmLoopValue := value, adpcmLoopIndex := index }
  else ch

/-- The next nibble brought into place: a new byte at every even position. -/
def takeNibble (read : UInt32 → UInt32) (ch : Channel) : Channel :=
  if ch.pos % 2 = 0 then ch.fetchAdpcmByte read else ch.setAdpcmByte (ch.adpcmByte / 16)

def soundAdpcm (ch : Channel) : Channel := { ch with sample := ch.adpcmValue.bmod 65536 }

def nextAdpcm (read : UInt32 → UInt32) (ch : Channel) : Channel :=
  let ch := ch.advance
  if ch.pos < 8 then
    if ch.pos = 0 then ch.readHeader read else ch
  else if ch.pos.toNat / 2 ≥ ch.total then
    if ch.loops then (ch.rewindAdpcm.fetchAdpcmByte read).soundAdpcm
    else if ch.oneShot then ch.stop
    else ch.soundAdpcm
  else (ch.takeNibble read).decodeNibble.soundAdpcm

def nextPsg (ch : Channel) : Channel :=
  let ch := ch.advance
  { ch with sample := kPsg ((ch.cnt >>> 24) &&& 7).toNat (ch.pos % 8).toNat }

def nextNoise (ch : Channel) : Channel :=
  if ch.noise &&& 1 ≠ 0 then { ch with noise := (ch.noise >>> 1) ^^^ 0x6000, sample := -0x7FFF }
  else { ch with noise := ch.noise >>> 1, sample := 0x7FFF }

def next (read : UInt32 → UInt32) : SampleType → Channel → Channel
  | .pcm8, ch => ch.nextPcm8 read
  | .pcm16, ch => ch.nextPcm16 read
  | .adpcm, ch => ch.nextAdpcm read
  | .psg, ch => ch.nextPsg
  | .noise, ch => ch.nextNoise

/-- The timer loop. Each round lowers the timer, so `timer` rounds are enough. -/
def runSamples (read : UInt32 → UInt32) (type : SampleType) : Nat → Channel → Channel
  | 0, ch => ch
  | rounds + 1, ch =>
      if ch.timer / 65536 ≠ 0 then
        runSamples read type rounds
          (next read type { ch with timer := ch.reload.toNat + (ch.timer - 65536) })
      else ch

/-- The formats that play from the ring. -/
def fed : SampleType → Bool
  | .pcm8 | .pcm16 | .adpcm => true
  | .psg | .noise => false

def runType (read : UInt32 → UInt32) (type : SampleType) (ch : Channel) : Int × Channel :=
  if !ch.enabled then (0, ch)
  else if fed type && decide (ch.total < 16) then (0, ch)
  else
    let ch := if ch.keyOn then { ch.start read with keyOn := false } else ch
    let ch := { ch with timer := ch.timer + 512 }
    let ch := runSamples read type ch.timer ch
    (ch.sample * 2 ^ ch.volumeShift * ch.volume, ch)

/-- The decoder `run` chooses. -/
def sampleType (ch : Channel) : Option SampleType :=
  if ch.format = 0 then some .pcm8
  else if ch.format = 1 then some .pcm16
  else if ch.format = 2 then some .adpcm
  else if ch.num ≥ 14 then some .noise
  else if ch.num ≥ 8 then some .psg
  else none

def run (read : UInt32 → UInt32) (ch : Channel) : Int × Channel :=
  match ch.sampleType with
  | some type => ch.runType read type
  | none => (0, ch)

def panOutput (ch : Channel) (input : Int) (out : Int × Int) : Int × Int :=
  (out.1 + input * (128 - ch.pan : Int) / 1024, out.2 + input * ch.pan / 1024)

end Channel

end NdsRecomp.Spu
