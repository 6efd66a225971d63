import NdsRecomp.Library.OpSystem
import NdsRecomp.Net.Replay

/-!
The bridge between the guest's Wi-Fi and the host network. The emulation thread
sends and receives frames; the worker owns the live driver and the peer socket.
Two bounded queues and three counters lie between them. One step is one
operation on a queue or a counter or one driver call; what a thread does between
two of these touches nothing the other sees. A trace kept beside the state says
what was asked of the bridge and what left it.
-/

namespace NdsRecomp.Net

open Library

def kWifiNetMaxPacketBytes : Nat := 2048
def kWifiNetTxQueueCapacity : Nat := 1024
def kWifiNetRxQueueCapacity : Nat := 8192

/-- `BoundedPacketQueue::TryPush`; a full queue refuses the packet. -/
def tryPush (capacity : Nat) (queue : List (List UInt8)) (packet : List UInt8) :
    Option (List (List UInt8)) :=
  if queue.length ≥ capacity then none else some (queue ++ [packet])

/-! ### Peer frames -/

def kMaxInstances : Nat := 16
def kMagic : Nat := 0x50434657

def readNet32 (f : Bytes) (p : Nat) : Nat := rd16 f p * 65536 + rd16 f (p + 2)

/-- `IsPeerFrame`, and the instance whose gateway the frame is addressed to. -/
def isPeerFrame (instanceId : Nat) (data : List UInt8) : Option Nat :=
  let f := ofFrame data
  let version := (f 14).toNat >>> 4
  let ihl := ((f 14).toNat &&& 0x0F) * 4
  let dst := readNet32 f 30
  let peer := (dst >>> 8) &&& 0xFF
  if data.length < 14 + 20 then none
  else if rd16 f 12 ≠ 0x0800 then none
  else if version ≠ 4 ∨ ihl < 20 ∨ data.length < 14 + ihl then none
  else if dst &&& 0xFFFF00FF ≠ 0x0A400010 then none
  else if peer ≥ kMaxInstances ∨ peer = instanceId then none
  else some peer

/-- The datagram a peer is sent: the frame behind a header, broadcast at its
Ethernet layer. -/
def peerDatagram (instanceId : Nat) (data : List UInt8) : List UInt8 :=
  leBytes 4 kMagic ++ leBytes 4 instanceId ++ leBytes 4 data.length ++
    (List.replicate 6 0xFF ++ data.drop 6)

/-! ### State -/

inductive NdsNetBackendKind where
  | slirp
  | pcap
  | replay
deriving DecidableEq

/-- What the build and `nds_wifi3d_attach` settle. -/
structure BridgeConfig where
  /-- `_WIN32` -/
  windows : Bool
  /-- none when networking is off -/
  backend : Option NdsNetBackendKind
  slirpVirtualNetworkInstance : Nat
  /-- the socket of the peer transport was opened and bound -/
  peerSocketOpen : Bool
deriving DecidableEq

namespace BridgeConfig

variable (c : BridgeConfig)

/-- `enabled_` of the peer transport, for every backend. -/
def peerEnabled : Bool := c.slirpVirtualNetworkInstance < kMaxInstances

/-- `live_driver` is set, and with it the worker runs. -/
def live : Bool := c.backend == some .slirp || c.backend == some .pcap

def isReplay : Bool := c.backend == some .replay

/-- `Begin` is reached from the slirp attach alone, and opens a socket on one platform. -/
structure Attached : Prop where
  backend : c.live = true ∨ c.isReplay = true
  socket : c.peerSocketOpen = true →
    c.windows = true ∧ c.peerEnabled = true ∧ c.backend = some .slirp

end BridgeConfig

inductive NdsNetEventKind where
  | backendDrop
  | backendError
deriving DecidableEq

/-- The arguments of `net_ring_push` that the bridge sets. -/
structure NetEvent where
  kind : NdsNetEventKind
  direction : Nat
  payloadLen : UInt16
  aux : UInt32
deriving DecidableEq

inductive NetThread where
  | emulation
  | worker
deriving DecidableEq

/-- Where the emulation thread is in `Net_RecvPacket`. -/
inductive RecvPoint where
  | outside
  | draining
  | reportDropped
  | reportOversized
  | reportPollErrors
  /-- in `net.RecvPacket`, before its queue is read -/
  | driverCheck
deriving DecidableEq

/-- Host frames by what became of them. -/
structure HostTally where
  queued : Nat := 0
  dropped : Nat := 0
  oversized : Nat := 0

structure BridgeTrace where
  /-- every call of `Net_SendPacket`, with what it returned -/
  sends : List (List UInt8 × Nat) := []
  /-- `SendPacket` of the live driver -/
  liveSent : List (List UInt8) := []
  /-- `sendto`, by the peer's instance -/
  peerSent : List (Nat × List UInt8) := []
  /-- host frames taken into the receive queue, or delivered by the replay driver -/
  queued : List (List UInt8) := []
  /-- host frames the full receive queue refused -/
  refused : Nat := 0
  /-- those of them that were counted -/
  counted : Nat := 0
  /-- host frames over the packet limit -/
  oversized : Nat := 0
  /-- frames put into the guest's queue -/
  enqueued : List (List UInt8) := []
  /-- the tally when the latest receive call began -/
  asked : HostTally := {}

def BridgeTrace.tally (t : BridgeTrace) : HostTally :=
  ⟨t.queued.length, t.counted, t.oversized⟩

structure WifiBridge where
  config : BridgeConfig
  replayDriver : ReplaySession
  txQueue : List (List UInt8) := []
  rxQueue : List (List UInt8) := []
  rxDroppedSinceLastReport : UInt32 := 0
  pcapRxOversizeSinceLastReport : UInt32 := 0
  pollErrorCount : UInt32 := 0
  /-- the guest's packets in `PacketDispatcher` -/
  guestQueue : List (List UInt8) := []
  ring : List NetEvent := []
  /-- the packet the worker took and has not sent -/
  workerPkt : Option (List UInt8) := none
  /-- a thread whose `TryPush` failed and that has not counted it -/
  owes : NetThread → Bool := fun _ => false
  recvAt : RecvPoint := .outside
  trace : BridgeTrace := {}

/-! ### Operations -/

/-- Room in `PacketDispatcher`'s ring is made by discarding its oldest packets. -/
def makeRoom (need : Nat) : List (List UInt8) → List (List UInt8)
  | [] => []
  | packet :: queue =>
      if ((packet :: queue).map fun p => 16 + p.length).sum + need ≤ 0x8000 then packet :: queue
      else makeRoom need queue

namespace WifiBridge

variable (b : WifiBridge)

def netRingPush (event : NetEvent) : WifiBridge := { b with ring := b.ring ++ [event] }

/-- Nothing, or a packet longer than the ring, is not enqueued. -/
def rxEnqueue (data : List UInt8) : WifiBridge :=
  if data.length = 0 ∨ 16 + data.length ≥ 0x8000 then b
  else
    { b with
      guestQueue := makeRoom (16 + data.length) b.guestQueue ++ [data]
      trace := { b.trace with enqueued := b.trace.enqueued ++ [data] } }

/-- The bridge after the call when it took the frame. -/
def forwardIfPeerFrame (data : List UInt8) (sendtoFails : Bool) : Option WifiBridge :=
  if b.config.peerEnabled then
    match isPeerFrame b.config.slirpVirtualNetworkInstance data with
    | none => none
    | some target =>
        if b.config.windows then
          if ¬ b.config.peerSocketOpen then none
          else if data.length > kWifiNetMaxPacketBytes then some b
          -- a failed `sendto` is logged
          else if sendtoFails then some b
          else
            some { b with
              trace := { b.trace with
                peerSent := b.trace.peerSent ++
                  [(target, peerDatagram b.config.slirpVirtualNetworkInstance data)] } }
        -- the other platforms compile the send out
        else some b
  else none

/-- `Net_SendPacket`, and what it returns. -/
def netSendPacket (cycle : UInt64) (arm9Pc arm7Pc : UInt32) (data : List UInt8)
    (sendtoFails : Bool) : WifiBridge × Nat :=
  if data.length = 0 then (b, 0)
  else if b.config.backend = none then (b, data.length)
  else if data.length > kWifiNetMaxPacketBytes then
    (b.netRingPush ⟨.backendDrop, 0, UInt16.ofNat data.length, 2⟩, 0)
  else
    match b.forwardIfPeerFrame data sendtoFails with
    | some b' => (b', data.length)
    | none =>
        if b.config.isReplay then
          ({ b with replayDriver := b.replayDriver.step (.send cycle arm9Pc arm7Pc data) },
            data.length)
        else
          match tryPush kWifiNetTxQueueCapacity b.txQueue data with
          | none => (b.netRingPush ⟨.backendDrop, 0, UInt16.ofNat data.length, 0⟩, 0)
          | some queue => ({ b with txQueue := queue }, data.length)

/-- `rx_queue.TryPush` for a host frame. -/
def pushHostFrame (thread : NetThread) (data : List UInt8) : WifiBridge :=
  match tryPush kWifiNetRxQueueCapacity b.rxQueue data with
  | none =>
      { b with
        owes := Function.update b.owes thread true
        trace := { b.trace with refused := b.trace.refused + 1 } }
  | some queue =>
      { b with rxQueue := queue, trace := { b.trace with queued := b.trace.queued ++ [data] } }

/-- The callback of the live driver, for a frame that passed its filter. -/
def driverCallback (thread : NetThread) (data : List UInt8) : WifiBridge :=
  if data.length = 0 then b
  else if b.config.backend = some .pcap ∧ data.length > kWifiNetMaxPacketBytes then
    { b with
      pcapRxOversizeSinceLastReport := b.pcapRxOversizeSinceLastReport + 1
      trace := { b.trace with oversized := b.trace.oversized + 1 } }
  else b.pushHostFrame thread data

/-- One datagram of `DrainTo`, by the sender and the payload of its header. -/
def drainDatagram (sender : Nat) (data : List UInt8) : WifiBridge :=
  if sender = b.config.slirpVirtualNetworkInstance ∨ sender ≥ kMaxInstances then b
  else if data.length > kWifiNetMaxPacketBytes then b
  else b.pushHostFrame .worker data

/-- `TryPop` of the drain loop; an empty queue ends it. -/
def recvPop : WifiBridge :=
  match b.rxQueue with
  | [] => { b with recvAt := .reportDropped }
  | data :: queue => { b with rxQueue := queue }.rxEnqueue data

/-- The counter is exchanged for zero and each drop in it becomes one event. -/
def reportDropped : WifiBridge :=
  { b with
    rxDroppedSinceLastReport := 0
    ring := b.ring ++ List.replicate b.rxDroppedSinceLastReport.toNat ⟨.backendDrop, 1, 0, 1⟩
    recvAt := .reportOversized }

def reportOversized : WifiBridge :=
  { b with
    pcapRxOversizeSinceLastReport := 0
    ring := b.ring ++ List.replicate b.pcapRxOversizeSinceLastReport.toNat
      ⟨.backendDrop, 1, UInt16.ofNat kWifiNetMaxPacketBytes, 3⟩
    recvAt := .reportPollErrors }

def reportPollErrors : WifiBridge :=
  if b.config.backend = some .slirp ∧ b.pollErrorCount ≠ 0 then
    { b with
      pollErrorCount := 0
      ring := b.ring ++ [⟨.backendError, 1, 0, b.pollErrorCount⟩]
      recvAt := .driverCheck }
  else { b with recvAt := .driverCheck }

/-- A frame the replay driver hands to its callback. -/
def replayDeliver (data : List UInt8) : WifiBridge :=
  if data.length = 0 then b
  else { b with trace := { b.trace with queued := b.trace.queued ++ [data] } }.rxEnqueue data

/-- `net.RecvPacket`: the replay driver's due frames, then the guest's oldest packet. -/
def netRecvPacket (cycle : UInt64) (arm9Pc arm7Pc : UInt32) : WifiBridge :=
  let b' :=
    if b.config.isReplay then
      let frames := (b.replayDriver.driver.setCurrent cycle arm9Pc arm7Pc).recvCheck.2
      frames.foldl replayDeliver
        { b with replayDriver := b.replayDriver.step (.receive cycle arm9Pc arm7Pc) }
    else b
  { b' with guestQueue := b'.guestQueue.tail, recvAt := .outside }

end WifiBridge

/-! ### Runs -/

inductive BridgeOp where
  | send (cycle : UInt64) (arm9Pc arm7Pc : UInt32) (data : List UInt8) (sendtoFails : Bool)
  | recvStart
  | recvPop
  | reportDropped
  | reportOversized
  | reportPollErrors
  | netRecv (cycle : UInt64) (arm9Pc arm7Pc : UInt32)
  | takeTx
  | driverSend
  | driverFrame (thread : NetThread) (data : List UInt8)
  | peerFrame (sender : Nat) (data : List UInt8)
  | countDrop (thread : NetThread)
  | pollError

def BridgeOp.thread : BridgeOp → NetThread
  | .takeTx | .driverSend | .peerFrame _ _ | .pollError => .worker
  | .driverFrame thread _ | .countDrop thread => thread
  | _ => .emulation

namespace WifiBridge

variable (b : WifiBridge)

/-- The worker runs for a live backend alone. Npcap's `RecvCheck` is also reached
from `net.RecvPacket`; libslirp's callback rejects what is over the limit. -/
def Admits : BridgeOp → Prop
  | .send .. => b.recvAt = .outside
  | .recvStart => b.recvAt = .outside
  | .recvPop => b.recvAt = .draining
  | .reportDropped => b.recvAt = .reportDropped
  | .reportOversized => b.recvAt = .reportOversized
  | .reportPollErrors => b.recvAt = .reportPollErrors
  | .netRecv .. => b.recvAt = .driverCheck ∧ b.owes .emulation = false
  | .takeTx => b.config.live ∧ b.workerPkt = none ∧ b.owes .worker = false
  | .driverSend => b.workerPkt.isSome ∧ b.owes .worker = false
  | .driverFrame thread data =>
      b.config.live ∧ b.owes thread = false ∧
      (thread = .emulation → b.config.backend = some .pcap ∧ b.recvAt = .driverCheck) ∧
      (b.config.backend = some .slirp → data.length ≤ kWifiNetMaxPacketBytes)
  | .peerFrame .. => b.config.live ∧ b.config.peerSocketOpen ∧ b.owes .worker = false
  | .countDrop thread => b.owes thread = true
  | .pollError => b.config.backend = some .slirp ∧ b.owes .worker = false

def next : BridgeOp → WifiBridge
  | .send cycle arm9Pc arm7Pc data sendtoFails =>
      let (b', ret) := b.netSendPacket cycle arm9Pc arm7Pc data sendtoFails
      { b' with trace := { b'.trace with sends := b'.trace.sends ++ [(data, ret)] } }
  | .recvStart =>
      { b with recvAt := .draining, trace := { b.trace with asked := b.trace.tally } }
  | .recvPop => b.recvPop
  | .reportDropped => b.reportDropped
  | .reportOversized => b.reportOversized
  | .reportPollErrors => b.reportPollErrors
  | .netRecv cycle arm9Pc arm7Pc => b.netRecvPacket cycle arm9Pc arm7Pc
  | .takeTx =>
      match b.txQueue with
      | [] => b
      | pkt :: queue => { b with txQueue := queue, workerPkt := some pkt }
  | .driverSend =>
      { b with
        workerPkt := none
        trace := { b.trace with liveSent := b.trace.liveSent ++ b.workerPkt.toList } }
  | .driverFrame thread data => b.driverCallback thread data
  | .peerFrame sender data => b.drainDatagram sender data
  | .countDrop thread =>
      { b with
        rxDroppedSinceLastReport := b.rxDroppedSinceLastReport + 1
        owes := Function.update b.owes thread false
        trace := { b.trace with counted := b.trace.counted + 1 } }
  | .pollError => { b with pollErrorCount := b.pollErrorCount + 1 }

end WifiBridge

/-- Attached, with the records the capture reader accepted and nothing sent. -/
def bridgeSystem : OpSystem WifiBridge BridgeOp where
  initial b := ∃ config records sanitized, config.Attached ∧
    (∀ r ∈ records, r.frame.length ≤ kNdsNetCaptureMaxFrameBytes) ∧
    b = { config := config, replayDriver := .start records sanitized }
  admits := WifiBridge.Admits
  next := WifiBridge.next

end NdsRecomp.Net
