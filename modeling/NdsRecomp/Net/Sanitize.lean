import NdsRecomp.Net.Capture
import Mathlib.Data.List.OfFn

/-!
The capture sanitizer: one learned address is rewritten wherever a frame holds
it at a known position, and a host name is replaced. Sanitizing and restoring
walk the same positions, so the walk is one definition over the rule that says
what is written.
-/

namespace NdsRecomp.Net

/-- The bytes behind a frame pointer; the length is passed beside it. -/
abbrev Bytes := Nat → UInt8

abbrev Mac := Fin 6 → UInt8

def macAt (f : Bytes) (p : Nat) : Mac := fun k => f (p + k)

def writeMac (f : Bytes) (p : Nat) (m : Mac) : Bytes := fun i =>
  if h : p ≤ i ∧ i < p + 6 then m ⟨i - p, by omega⟩ else f i

/-- `memcpy` of `n` bytes. -/
def writeBytes (f : Bytes) (p n : Nat) (src : List UInt8) : Bytes := fun i =>
  if p ≤ i ∧ i < p + n then src.getD (i - p) 0 else f i

def bytesAt (f : Bytes) (p n : Nat) : List UInt8 := (List.range n).map fun k => f (p + k)

def rd16 (f : Bytes) (p : Nat) : Nat := (f p).toNat * 256 + (f (p + 1)).toNat

/-! ### Synthetic values -/

def fnv1a64 (data : List UInt8) : UInt64 :=
  data.foldl (fun h b => (h ^^^ b.toUInt64) * 0x100000001b3) 0xcbf29ce484222325

/-- `MapMac`: a function of the address alone, so its cache is left out. -/
def mapMac (mac : Mac) : Mac := fun i =>
  if i = 0 then 2 else (fnv1a64 (List.ofFn mac) >>> (8 * (UInt64.ofNat i - 1))).toUInt8

def hexDigit (n : Nat) : UInt8 := UInt8.ofNat (if n < 10 then 0x30 + n else 0x57 + n)

/-- `"ndsguest-%08x"` of the low word of the hash. -/
def hostnameText (data : List UInt8) : List UInt8 :=
  let low := (fnv1a64 data).toNat % 2 ^ 32
  [0x6E, 0x64, 0x73, 0x67, 0x75, 0x65, 0x73, 0x74, 0x2D] ++
    (List.range 8).map fun i => hexDigit (low / 16 ^ (7 - i) % 16)

/-- `MapHostname`: the text, repeated over the length of the name. -/
def mapHostname (data : List UInt8) : List UInt8 :=
  let text := hostnameText data
  (List.range data.length).map fun i => text.getD (i % text.length) 0

/-! ### UDP checksum -/

/-- Carries folded back until the sum fits 16 bits. -/
def foldCarry (sum : Nat) : Nat :=
  if sum / 65536 = 0 then sum else foldCarry (sum % 65536 + sum / 65536)
termination_by sum
decreasing_by omega

/-- `ComputeUdpChecksum`; a datagram is too short for the sum to overflow. -/
def computeUdpChecksum (f : Bytes) (udpOff udpLen : Nat) : Nat :=
  let pseudo := rd16 f 26 + rd16 f 28 + rd16 f 30 + rd16 f 32 + 17 + udpLen
  let words := (List.range (udpLen / 2)).map fun k => if k = 3 then 0 else rd16 f (udpOff + 2 * k)
  let odd := if udpLen % 2 = 1 then (f (udpOff + udpLen - 1)).toNat * 256 else 0
  let result := 0xFFFF - foldCarry (pseudo + words.sum + odd)
  if result = 0 then 0xFFFF else result

/-- A zero checksum means there is none; it stays. -/
def rewriteChecksum (f : Bytes) (udpOff udpLen : Nat) : Bytes :=
  if rd16 f (udpOff + 6) = 0 then f
  else
    let sum := computeUdpChecksum f udpOff udpLen
    writeBytes f (udpOff + 6) 2 [UInt8.ofNat (sum / 256), UInt8.ofNat (sum % 256)]

/-! ### The walk -/

/-- What is written over an address and over a host name, when something is. -/
structure FieldRule where
  onMac : Mac → Option Mac
  onHostname : List UInt8 → Option (List UInt8)

def rewriteMac (rule : FieldRule) (f : Bytes) (p : Nat) : Bytes × Bool :=
  match rule.onMac (macAt f p) with
  | some m => (writeMac f p m, true)
  | none => (f, false)

/-- One DHCP option, its code at `p`: client identifier, host name, or other. -/
def rewriteOption (rule : FieldRule) (f : Bytes) (p : Nat) : Bytes × Bool :=
  let optLen := (f (p + 1)).toNat
  if f p = 61 ∧ optLen = 7 ∧ f (p + 2) = 1 then rewriteMac rule f (p + 3)
  else if f p = 12 ∧ 0 < optLen then
    match rule.onHostname (bytesAt f (p + 2) optLen) with
    | some name => (writeBytes f (p + 2) optLen name, true)
    | none => (f, false)
  else (f, false)

/-- The option loop; the flag says that something was written. -/
def rewriteOptions (rule : FieldRule) (stop : Nat) (f : Bytes) (p : Nat) : Bytes × Bool :=
  if stop ≤ p then (f, false)
  else if f p = 0xFF then (f, false)
  else if f p = 0 then rewriteOptions rule stop f (p + 1)
  else if stop ≤ p + 1 then (f, false)
  else if stop < p + 2 + (f (p + 1)).toNat then (f, false)
  else
    let head := rewriteOption rule f p
    let tail := rewriteOptions rule stop head.1 (p + 2 + (f (p + 1)).toNat)
    (tail.1, head.2 || tail.2)
termination_by stop - p

def cookieAt (f : Bytes) (p : Nat) : Prop :=
  f p = 0x63 ∧ f (p + 1) = 0x82 ∧ f (p + 2) = 0x53 ∧ f (p + 3) = 0x63

instance (f : Bytes) (p : Nat) : Decidable (cookieAt f p) := inferInstanceAs (Decidable (_ ∧ _))

def chaddrAt (f : Bytes) (udpOff udpLen : Nat) : Prop :=
  34 ≤ udpLen - 8 ∧ f (udpOff + 8 + 1) = 1 ∧ f (udpOff + 8 + 2) = 6

instance (f : Bytes) (udpOff udpLen : Nat) : Decidable (chaddrAt f udpOff udpLen) :=
  inferInstanceAs (Decidable (_ ∧ _))

def optionsAt (f : Bytes) (udpOff stop : Nat) : Prop :=
  udpOff + 8 + 236 + 4 ≤ stop ∧ cookieAt f (udpOff + 8 + 236)

instance (f : Bytes) (udpOff stop : Nat) : Decidable (optionsAt f udpOff stop) :=
  inferInstanceAs (Decidable (_ ∧ _))

/-- Where the options end. -/
def bootpEnd (len udpOff udpLen : Nat) : Nat := min (udpOff + 8 + (udpLen - 8)) len

def rewriteBootp (rule : FieldRule) (f : Bytes) (len udpOff udpLen : Nat) : Bytes :=
  let stop := bootpEnd len udpOff udpLen
  let client :=
    if chaddrAt f udpOff udpLen then rewriteMac rule f (udpOff + 8 + 28) else (f, false)
  let options :=
    if optionsAt client.1 udpOff stop then
      rewriteOptions rule stop client.1 (udpOff + 8 + 236 + 4)
    else (client.1, false)
  if client.2 || options.2 then rewriteChecksum options.1 udpOff udpLen else options.1

def ipHeaderLength (f : Bytes) : Nat := (f 14 &&& 0x0F).toNat * 4

/-- Where the UDP header of a DHCP frame starts, and its length. -/
def dhcpDatagram (f : Bytes) (len : Nat) : Option (Nat × Nat) :=
  let ihl := ipHeaderLength f
  let udpOff := 14 + ihl
  let srcPort := rd16 f udpOff
  let dstPort := rd16 f (udpOff + 2)
  let udpLen := min (rd16 f (udpOff + 4)) (len - udpOff)
  if f 14 >>> 4 ≠ 4 ∨ ihl < 20 ∨ len < 14 + ihl then none
  else if f 23 ≠ 17 then none
  else if len < udpOff + 8 then none
  else if ¬ (srcPort = 67 ∨ srcPort = 68 ∨ dstPort = 67 ∨ dstPort = 68) then none
  else if udpLen < 8 then none
  else some (udpOff, udpLen)

/-- What follows the Ethernet header. -/
def rewritePayload (rule : FieldRule) (f : Bytes) (len : Nat) : Bytes :=
  if rd16 f 12 = 0x0806 then
    if 14 + 28 ≤ len then (rewriteMac rule (rewriteMac rule f (14 + 8)).1 (14 + 18)).1 else f
  else if rd16 f 12 ≠ 0x0800 ∨ len < 14 + 20 then f
  else
    match dhcpDatagram f len with
    | some (udpOff, udpLen) => rewriteBootp rule f len udpOff udpLen
    | none => f

def rewriteFrame (rule : FieldRule) (f : Bytes) (len : Nat) : Bytes :=
  rewritePayload rule (rewriteMac rule (rewriteMac rule f 0).1 6).1 len

/-! ### Sanitizing and restoring -/

/-- The learned identity. -/
structure NdsNetSanitizeState where
  identityMac : Option Mac := none

def kNdsNetSanitizeDirTx : UInt8 := 0

/-- `LearnIdentityFromTxSource` -/
def NdsNetSanitizeState.learn (state : NdsNetSanitizeState) (source : Mac) : NdsNetSanitizeState :=
  match state.identityMac with
  | some _ => state
  | none => ⟨some source⟩

/-- Nothing is written where it would change nothing. -/
def sanitizeRule (state : NdsNetSanitizeState) : FieldRule where
  onMac mac := state.identityMac.bind fun identity =>
    if mac = identity ∧ mac ≠ mapMac identity then some (mapMac identity) else none
  onHostname name := if name ≠ mapHostname name then some (mapHostname name) else none

def restoreRule (synthetic real : Mac) : FieldRule where
  onMac mac := if mac = synthetic then some real else none
  onHostname _ := none

def sanitizeState (f : Bytes) (len : Nat) (direction : UInt8) (state : NdsNetSanitizeState) :
    NdsNetSanitizeState :=
  if len < 14 then state
  else if direction = kNdsNetSanitizeDirTx then state.learn (macAt f 6)
  else state

/-- `net_sanitize_ethernet_frame` -/
def netSanitizeEthernetFrame (f : Bytes) (len : Nat) (direction : UInt8) (state : NdsNetSanitizeState) :
    Bytes × NdsNetSanitizeState :=
  let state' := sanitizeState f len direction state
  if len < 14 then (f, state') else (rewriteFrame (sanitizeRule state') f len, state')

/-- `net_desanitize_ethernet_frame_for_replay` -/
def netDesanitizeEthernetFrameForReplay (f : Bytes) (len : Nat) (synthetic real : Mac) : Bytes :=
  if len < 14 then f else rewriteFrame (restoreRule synthetic real) f len

/-! ### On frames -/

def ofFrame (frame : List UInt8) : Bytes := fun i => frame.getD i 0

def toFrame (len : Nat) (f : Bytes) : List UInt8 := (List.range len).map f

@[simp] theorem toFrame_length (len : Nat) (f : Bytes) : (toFrame len f).length = len := by
  simp [toFrame]

/-- The sanitizer as the capture writer calls it. -/
def netSanitizer : Sanitizer NdsNetSanitizeState where
  start := {}
  run state direction frame :=
    let (out, state') := netSanitizeEthernetFrame (ofFrame frame) frame.length direction state
    (⟨toFrame frame.length out, toFrame_length _ _⟩, state')

end NdsRecomp.Net
