import NdsRecomp.Library.OpSystem

/-!
The network event ring and the smaller ring of hostnames beside it. An entry is
addressed by its ordinal since the last reset; its slot is the ordinal's place in
the ring. A reset rewinds the cursors and leaves both rings' contents.
-/

namespace NdsRecomp.Net

open Library

def kNetTraceSize : Nat := 262144

def kNetHostnameSlots : Nat := 4096

def kNetHostnameMaxLen : Nat := 254

/-- The number of event kinds; as a filter, every kind. -/
def netEventKindCount : UInt8 := 22

/-- What a push reads of the machine. -/
structure NetStamp where
  sys : UInt64 := 0
  cyc9 : UInt64 := 0
  cyc7 : UInt64 := 0
  insn9 : UInt64 := 0
  insn7 : UInt64 := 0
  arm9Pc : UInt32 := 0
  arm7Pc : UInt32 := 0
deriving DecidableEq

/-- The arguments of a push. `none` is a null MAC. -/
structure NetTraceEvent where
  kind : UInt8
  direction : UInt8 := 0
  wifiReg : UInt16 := 0
  wifiValue : UInt32 := 0
  srcMac : Option (Vector UInt8 6) := none
  dstMac : Option (Vector UInt8 6) := none
  srcIpv4 : UInt32 := 0
  dstIpv4 : UInt32 := 0
  srcPort : UInt16 := 0
  dstPort : UInt16 := 0
  payloadLen : UInt16 := 0
  aux : UInt32 := 0
deriving DecidableEq

structure NdsNetTraceEntry where
  count : Nat := 0
  stamp : NetStamp := {}
  kind : UInt8 := 0
  direction : UInt8 := 0
  wifiReg : UInt16 := 0
  wifiValue : UInt32 := 0
  srcMac : Vector UInt8 6 := Vector.replicate 6 0
  dstMac : Vector UInt8 6 := Vector.replicate 6 0
  srcIpv4 : UInt32 := 0
  dstIpv4 : UInt32 := 0
  srcPort : UInt16 := 0
  dstPort : UInt16 := 0
  payloadLen : UInt16 := 0
  hasHostname : Bool := false
  hostnameRef : Nat := 0
  aux : UInt32 := 0
deriving DecidableEq

/-- The entry of a push, before any hostname. -/
def NetTraceEvent.entry (event : NetTraceEvent) (stamp : NetStamp) (count : Nat) : NdsNetTraceEntry where
  count := count
  stamp := stamp
  kind := event.kind
  direction := event.direction
  wifiReg := event.wifiReg
  wifiValue := event.wifiValue
  srcMac := event.srcMac.getD (Vector.replicate 6 0)
  dstMac := event.dstMac.getD (Vector.replicate 6 0)
  srcIpv4 := event.srcIpv4
  dstIpv4 := event.dstIpv4
  srcPort := event.srcPort
  dstPort := event.dstPort
  payloadLen := event.payloadLen
  aux := event.aux

/-- The characters of a C string, without its end. -/
abbrev Hostname := List UInt8

structure NetHostnameSlot where
  ownerCount : Nat := 0
  hostname : Hostname := []
deriving DecidableEq

structure NetRing where
  trace : Nat → NdsNetTraceEntry := fun _ => {}
  hostnamePool : Nat → NetHostnameSlot := fun _ => {}
  traceW : Nat := 0
  retained : Nat := 0
  seq : Nat := 0
  hostnameW : Nat := 0
  kindCounters : UInt8 → Nat := fun _ => 0
  lastEventSys : UInt64 := 0

namespace NetRing

/-- `(count - 1) % kNetTraceSize` -/
def slotOf (count : Nat) : Nat := (count - 1) % kNetTraceSize

def netRingPush (s : NetRing) (event : NetTraceEvent) (stamp : NetStamp) : NetRing :=
  { s with
    trace := Function.update s.trace s.traceW (event.entry stamp (s.seq + 1))
    seq := s.seq + 1
    kindCounters :=
      if event.kind < netEventKindCount then
        Function.update s.kindCounters event.kind (s.kindCounters event.kind + 1)
      else s.kindCounters
    lastEventSys := stamp.sys
    traceW := (s.traceW + 1) % kNetTraceSize
    retained := if s.retained < kNetTraceSize then s.retained + 1 else s.retained }

/-- `snprintf` into a buffer of `size` bytes. -/
def cutName (size : Nat) (name : Hostname) : Hostname := name.take (size - 1)

def netRingSetHostname (s : NetRing) (count : Nat) (hostname : Hostname) : NetRing :=
  if count = 0 then s
  else if (s.trace (slotOf count)).count ≠ count then s
  else
    { s with
      hostnamePool :=
        Function.update s.hostnamePool s.hostnameW ⟨count, cutName kNetHostnameMaxLen hostname⟩
      hostnameW := (s.hostnameW + 1) % kNetHostnameSlots
      trace :=
        Function.update s.trace (slotOf count)
          { s.trace (slotOf count) with hasHostname := true, hostnameRef := s.hostnameW } }

def netRingReset (s : NetRing) : NetRing :=
  { s with
    traceW := 0
    retained := 0
    seq := 0
    hostnameW := 0
    kindCounters := fun _ => 0
    lastEventSys := 0 }

def netRingGet (s : NetRing) (count : Nat) : Option NdsNetTraceEntry :=
  if count = 0 ∨ count > s.seq then none
  else
    let e := s.trace (slotOf count)
    if e.count ≠ count then none else some e

def netRingGetHostname (s : NetRing) (count bufSize : Nat) : Option Hostname :=
  if bufSize = 0 ∨ count = 0 ∨ count > s.seq then none
  else
    let e := s.trace (slotOf count)
    if e.count ≠ count ∨ e.hasHostname = false then none
    else if e.hostnameRef ≥ kNetHostnameSlots then none
    else
      let slot := s.hostnamePool e.hostnameRef
      if slot.ownerCount ≠ count then none else some (cutName bufSize slot.hostname)

def kindMatches (filterKind : UInt8) (e : NdsNetTraceEntry) : Bool :=
  filterKind == netEventKindCount || e.kind == filterKind

/-- The entry `i` places behind the newest. -/
def entryBack (s : NetRing) (i : Nat) : NdsNetTraceEntry :=
  s.trace ((s.traceW + kNetTraceSize - 1 - i) % kNetTraceSize)

/-- The backward walk over the retained window; `left` entries are still to come. -/
def walkBack (s : NetRing) (maxEntries : Nat) (filterKind : UInt8) :
    Nat → Nat → List NdsNetTraceEntry → List NdsNetTraceEntry
  | _, 0, out => out
  | i, left + 1, out =>
      if out.length < maxEntries then
        walkBack s maxEntries filterKind (i + 1) left
          (if kindMatches filterKind (s.entryBack i) then out ++ [s.entryBack i] else out)
      else out

def netRingCopyRecent (s : NetRing) (maxEntries : Nat) (filterKind : UInt8) :
    List NdsNetTraceEntry :=
  (s.walkBack maxEntries filterKind 0 s.retained []).reverse

structure NdsNetRingState where
  produced : Nat
  oldest : Nat
  capacity : Nat

def netRingDebugState (s : NetRing) : NdsNetRingState where
  produced := s.seq
  capacity := kNetTraceSize
  oldest :=
    if s.retained ≠ 0 then
      (s.trace ((s.traceW + kNetTraceSize - s.retained) % kNetTraceSize)).count
    else s.seq + 1

end NetRing

/-! ### What the ring stands for -/

inductive NetRingOp where
  | push (event : NetTraceEvent) (stamp : NetStamp)
  | setHostname (count : Nat) (hostname : Hostname)
  | reset

/-- Everything since the last reset: the entries pushed, oldest first, and the
hostnames attached to retained entries, newest first. -/
structure NetLog where
  entries : List NdsNetTraceEntry := []
  names : List (Nat × Hostname) := []

namespace NetLog

/-- One of the last `kNetTraceSize` ordinals. -/
def Retains (log : NetLog) (count : Nat) : Prop :=
  0 < count ∧ count ≤ log.entries.length ∧ log.entries.length < count + kNetTraceSize

instance (log : NetLog) (count : Nat) : Decidable (log.Retains count) :=
  inferInstanceAs (Decidable (_ ∧ _ ∧ _))

def next (log : NetLog) : NetRingOp → NetLog
  | .push event stamp =>
      { log with entries := log.entries ++ [event.entry stamp (log.entries.length + 1)] }
  | .setHostname count hostname =>
      if log.Retains count then { log with names := (count, hostname) :: log.names } else log
  | .reset => {}

/-- The entry of a retained ordinal, as it was pushed. -/
def get (log : NetLog) (count : Nat) : Option NdsNetTraceEntry :=
  if log.Retains count then log.entries[count - 1]? else none

/-- The retained entries, newest first. -/
def newestFirst (log : NetLog) : List NdsNetTraceEntry := log.entries.reverse.take kNetTraceSize

/-- The newest matching entries, oldest first. -/
def recent (log : NetLog) (maxEntries : Nat) (filterKind : UInt8) : List NdsNetTraceEntry :=
  ((log.newestFirst.filter (NetRing.kindMatches filterKind)).take maxEntries).reverse

/-- The last name attached to a retained entry, with fewer than
`kNetHostnameSlots` later attachments. -/
def hostname (log : NetLog) (count : Nat) : Option Hostname :=
  if log.Retains count then
    ((log.names.take kNetHostnameSlots).find? (·.1 == count)).map (·.2)
  else none

end NetLog

/-- The ring, and the log of the same operations. -/
structure LoggedRing where
  ring : NetRing := {}
  log : NetLog := {}

def LoggedRing.next (s : LoggedRing) : NetRingOp → LoggedRing
  | .push event stamp => ⟨s.ring.netRingPush event stamp, s.log.next (.push event stamp)⟩
  | .setHostname count hostname =>
      ⟨s.ring.netRingSetHostname count hostname, s.log.next (.setHostname count hostname)⟩
  | .reset => ⟨s.ring.netRingReset, s.log.next .reset⟩

def netRingSystem : OpSystem LoggedRing NetRingOp where
  initial := fun s => s = {}
  admits := fun _ _ => True
  next := LoggedRing.next

/-- The hostname goes to an entry that a reset has left in its slot. -/
def StaleAttachment (s : LoggedRing) : NetRingOp → Prop
  | .setHostname count _ =>
      s.ring.seq < count ∧ (s.ring.trace (NetRing.slotOf count)).count = count
  | _ => False

/-- The runs without one. -/
def freshSystem : OpSystem LoggedRing NetRingOp :=
  netRingSystem.restrict fun s op => ¬ StaleAttachment s op

end NdsRecomp.Net
