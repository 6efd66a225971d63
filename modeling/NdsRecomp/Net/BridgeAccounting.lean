import NdsRecomp.Net.Bridge
import NdsRecomp.Net.Replay

/-!
What becomes of every frame. A guest frame the bridge accepted is with its
destination or on the way there, in order, and a refused one has its drop event;
a host frame is in the guest's queue or on the way there, in order, or in an
event or a counter. Two things break this: a build without the peer transport
takes frames for peers and sends them nowhere, as a failed `sendto` does, and a
counter of 32 bits that wraps forgets its drops.
-/

namespace NdsRecomp.Net

open Library

/-! ### What the bridge owes a frame -/

inductive NetDestination where
  | live
  | replay
  | peer (target : Nat)
deriving DecidableEq

def BridgeConfig.destination (c : BridgeConfig) (data : List UInt8) : NetDestination :=
  match if c.peerSocketOpen then isPeerFrame c.slirpVirtualNetworkInstance data else none with
  | some target => .peer target
  | none => if c.isReplay then .replay else .live

/-- The socket and the datagram of a frame that goes to a peer. -/
def BridgeConfig.peerHandOver (c : BridgeConfig) (data : List UInt8) :
    Option (Nat × List UInt8) :=
  match c.destination data with
  | .peer target => some (target, peerDatagram c.slirpVirtualNetworkInstance data)
  | _ => none

/-- The nonempty frames whose send returned their length. -/
def acceptedFrames (sends : List (List UInt8 × Nat)) : List (List UInt8) :=
  (sends.filter fun s => s.1.length ≠ 0 && s.2 = s.1.length).map Prod.fst

/-- The nonempty frames whose send returned something else. -/
def refusedFrames (sends : List (List UInt8 × Nat)) : List (List UInt8) :=
  (sends.filter fun s => s.1.length ≠ 0 && s.2 ≠ s.1.length).map Prod.fst

/-- The frames a capture can hold. -/
def capturableFrames (sends : List (List UInt8 × Nat)) : List (List UInt8) :=
  (sends.filter fun s => s.1.length ≠ 0 && s.1.length ≤ kNdsNetCaptureMaxFrameBytes).map Prod.fst

/-- The lengths in the drop events of guest frames. -/
def sendDrops (ring : List NetEvent) : List UInt16 :=
  (ring.filter fun e => e.kind = .backendDrop && e.direction = 0).map NetEvent.payloadLen

/-- The drop events of host frames, by their reason. -/
def hostDrops (aux : UInt32) (ring : List NetEvent) : Nat :=
  ring.countP fun e => e.kind = .backendDrop && e.direction = 1 && e.aux = aux

namespace WifiBridge

variable (b : WifiBridge)

/-- Accepted guest frames are where they belong, in send order. -/
structure SendsAccounted : Prop where
  live : (acceptedFrames b.trace.sends).filter (fun d => b.config.destination d = .live) =
    b.trace.liveSent ++ b.workerPkt.toList ++ b.txQueue
  replay : (acceptedFrames b.trace.sends).filter (fun d => b.config.destination d = .replay) =
    b.replayDriver.sent
  peers : (acceptedFrames b.trace.sends).filterMap b.config.peerHandOver = b.trace.peerSent
  refused : (refusedFrames b.trace.sends).map (fun d => UInt16.ofNat d.length) = sendDrops b.ring
  compared : b.config.isReplay = true → capturableFrames b.trace.sends = b.replayDriver.sent

/-- The threads between a failed push and its count. -/
def uncounted : Nat := (b.owes .emulation).toNat + (b.owes .worker).toNat

/-- Host frames are in the guest's queue or before it, in order of arrival, or in
an event or a counter; a receive call that has returned answered all that came
before it. -/
structure ReceivesAccounted : Prop where
  queued : b.trace.queued = b.trace.enqueued ++ b.rxQueue
  refused : b.trace.refused = b.trace.counted + b.uncounted
  counted : b.trace.counted = hostDrops 1 b.ring + b.rxDroppedSinceLastReport.toNat
  oversized : b.trace.oversized = hostDrops 3 b.ring + b.pcapRxOversizeSinceLastReport.toNat
  answered : b.recvAt = .outside →
    b.trace.asked.queued ≤ b.trace.enqueued.length ∧
      b.trace.asked.dropped ≤ hostDrops 1 b.ring ∧ b.trace.asked.oversized ≤ hostDrops 3 b.ring

/-- A peer's frame meets its transport, a datagram carries a frame, and no counter
is at its last value. -/
def StepCounts : BridgeOp → Prop
  | .send _ _ _ data sendtoFails =>
      b.config.peerEnabled = true → data.length ≤ kWifiNetMaxPacketBytes →
        (isPeerFrame b.config.slirpVirtualNetworkInstance data).isSome = true →
        b.config.windows = true ∧ (b.config.peerSocketOpen = true → sendtoFails = false)
  | .peerFrame sender data =>
      sender ≠ b.config.slirpVirtualNetworkInstance → sender < kMaxInstances → data.length ≠ 0
  | .driverFrame _ data =>
      b.config.backend = some .pcap → kWifiNetMaxPacketBytes < data.length →
        b.pcapRxOversizeSinceLastReport.toNat + 1 < 2 ^ 32
  | .countDrop _ => b.rxDroppedSinceLastReport.toNat + 1 < 2 ^ 32
  | _ => True

end WifiBridge

/-! ### One send -/

/-- What `Net_SendPacket` can do when the step counts. -/
inductive SendOutcome (b : WifiBridge) (data : List UInt8) : WifiBridge × Nat → Prop where
  | empty (hempty : data.length = 0) : SendOutcome b data (b, 0)
  | refused (aux : UInt32) (hdata : data.length ≠ 0)
      (hreplay : b.config.isReplay = true → kWifiNetMaxPacketBytes < data.length) :
      SendOutcome b data
        (b.netRingPush ⟨.backendDrop, 0, UInt16.ofNat data.length, aux⟩, 0)
  | peer (target : Nat) (hdata : data.length ≠ 0)
      (hdest : b.config.destination data = .peer target) :
      SendOutcome b data
        ({ b with
            trace := { b.trace with
              peerSent := b.trace.peerSent ++
                [(target, peerDatagram b.config.slirpVirtualNetworkInstance data)] } },
          data.length)
  | replay (cycle : UInt64) (arm9Pc arm7Pc : UInt32) (hdata : data.length ≠ 0)
      (hfits : data.length ≤ kWifiNetMaxPacketBytes)
      (hdest : b.config.destination data = .replay) :
      SendOutcome b data
        ({ b with replayDriver := b.replayDriver.step (.send cycle arm9Pc arm7Pc data) },
          data.length)
  | live (hdata : data.length ≠ 0) (hdest : b.config.destination data = .live) :
      SendOutcome b data ({ b with txQueue := b.txQueue ++ [data] }, data.length)

section Send

variable {b : WifiBridge} {cycle : UInt64} {arm9Pc arm7Pc : UInt32} {data : List UInt8}
  {sendtoFails : Bool}

/-- A frame that is not taken for a peer goes to no peer. -/
theorem forwardIfPeerFrame_none (hattached : b.config.Attached)
    (h : b.forwardIfPeerFrame data sendtoFails = none) :
    b.config.destination data = if b.config.isReplay then .replay else .live := by
  unfold WifiBridge.forwardIfPeerFrame at h
  unfold BridgeConfig.destination
  by_cases hopen : b.config.peerSocketOpen = true
  · obtain ⟨hwindows, henabled, -⟩ := hattached.socket hopen
    rw [if_pos henabled] at h
    rw [if_pos hopen]
    cases hpeer : isPeerFrame b.config.slirpVirtualNetworkInstance data with
    | none => rfl
    | some target =>
        simp only [hpeer, hwindows, hopen, not_true_eq_false, if_true, if_false] at h
        split_ifs at h
  · rw [if_neg hopen]

/-- A frame that is taken was sent to the peer's socket. -/
theorem forwardIfPeerFrame_some (hfits : data.length ≤ kWifiNetMaxPacketBytes)
    (hsound : b.StepCounts (.send cycle arm9Pc arm7Pc data sendtoFails)) {b' : WifiBridge}
    (h : b.forwardIfPeerFrame data sendtoFails = some b') :
    ∃ target, b.config.destination data = .peer target ∧
      b' = { b with
        trace := { b.trace with
          peerSent := b.trace.peerSent ++
            [(target, peerDatagram b.config.slirpVirtualNetworkInstance data)] } } := by
  unfold WifiBridge.forwardIfPeerFrame at h
  by_cases henabled : b.config.peerEnabled = true
  · rw [if_pos henabled] at h
    cases hpeer : isPeerFrame b.config.slirpVirtualNetworkInstance data with
    | none =>
        rw [hpeer] at h
        cases h
    | some target =>
        obtain ⟨hwindows, hsendto⟩ := hsound henabled hfits (by rw [hpeer]; rfl)
        by_cases hopen : b.config.peerSocketOpen = true
        · have hdest : b.config.destination data = .peer target := by
            unfold BridgeConfig.destination
            rw [if_pos hopen, hpeer]
          simp only [hpeer, hwindows, hopen, hsendto hopen, not_true_eq_false, if_true, if_false,
            Nat.not_lt.mpr hfits, Bool.false_eq_true, Option.some.injEq] at h
          exact ⟨target, hdest, h.symm⟩
        · simp only [hpeer, hwindows, hopen, if_true] at h
          cases h
  · rw [if_neg henabled] at h
    cases h

theorem netSendPacket_outcome (hattached : b.config.Attached)
    (hsound : b.StepCounts (.send cycle arm9Pc arm7Pc data sendtoFails)) :
    SendOutcome b data (b.netSendPacket cycle arm9Pc arm7Pc data sendtoFails) := by
  have hbackend : b.config.backend ≠ none := by
    intro hnone
    have hsome := hattached.backend
    simp [BridgeConfig.live, BridgeConfig.isReplay, hnone] at hsome
  unfold WifiBridge.netSendPacket
  by_cases hdata : data.length = 0
  · rw [if_pos hdata]
    exact .empty hdata
  · rw [if_neg hdata, if_neg hbackend]
    by_cases hlong : data.length > kWifiNetMaxPacketBytes
    · rw [if_pos hlong]
      exact .refused 2 hdata fun _ => hlong
    · rw [if_neg hlong]
      have hfits := Nat.not_lt.mp hlong
      cases hforward : b.forwardIfPeerFrame data sendtoFails with
      | some b' =>
          obtain ⟨target, hdest, rfl⟩ := forwardIfPeerFrame_some hfits hsound hforward
          exact .peer target hdata hdest
      | none =>
          have hdest := forwardIfPeerFrame_none hattached hforward
          by_cases hreplay : b.config.isReplay = true
          · rw [if_pos hreplay] at hdest
            simp only [hreplay, if_true]
            exact .replay cycle arm9Pc arm7Pc hdata hfits hdest
          · rw [if_neg hreplay] at hdest
            simp only [hreplay, Bool.false_eq_true, if_false]
            unfold tryPush
            by_cases hfull : b.txQueue.length ≥ kWifiNetTxQueueCapacity
            · rw [if_pos hfull]
              exact .refused 0 hdata fun h => absurd h hreplay
            · rw [if_neg hfull]
              exact .live hdata hdest

end Send

/-! ### Tallies of a longer record -/

section Tallies

variable {data : List UInt8}

theorem acceptedFrames_append (sends more : List (List UInt8 × Nat)) :
    acceptedFrames (sends ++ more) = acceptedFrames sends ++ acceptedFrames more := by
  simp only [acceptedFrames, List.filter_append, List.map_append]

theorem refusedFrames_append (sends more : List (List UInt8 × Nat)) :
    refusedFrames (sends ++ more) = refusedFrames sends ++ refusedFrames more := by
  simp only [refusedFrames, List.filter_append, List.map_append]

theorem capturableFrames_append (sends more : List (List UInt8 × Nat)) :
    capturableFrames (sends ++ more) = capturableFrames sends ++ capturableFrames more := by
  simp only [capturableFrames, List.filter_append, List.map_append]

theorem sendDrops_append (ring more : List NetEvent) :
    sendDrops (ring ++ more) = sendDrops ring ++ sendDrops more := by
  simp only [sendDrops, List.filter_append, List.map_append]

theorem hostDrops_append (aux : UInt32) (ring more : List NetEvent) :
    hostDrops aux (ring ++ more) = hostDrops aux ring + hostDrops aux more :=
  List.countP_append

theorem hostDrops_replicate (aux : UInt32) (n : Nat) (payloadLen : UInt16) (reason : UInt32) :
    hostDrops aux (List.replicate n ⟨.backendDrop, 1, payloadLen, reason⟩) =
      if reason = aux then n else 0 := by
  simp [hostDrops, List.countP_replicate]

theorem sendDrops_replicate (n : Nat) (payloadLen : UInt16) (aux : UInt32) :
    sendDrops (List.replicate n ⟨.backendDrop, 1, payloadLen, aux⟩) = [] := by
  simp [sendDrops]

theorem acceptedFrames_accepted (hdata : data.length ≠ 0) :
    acceptedFrames [(data, data.length)] = [data] := by
  simp [acceptedFrames, List.length_eq_zero_iff.not.mp hdata]

theorem refusedFrames_accepted : refusedFrames [(data, data.length)] = [] := by
  simp [refusedFrames]

theorem acceptedFrames_refused : acceptedFrames [(data, 0)] = [] := by
  by_cases hdata : data.length = 0
  · simp [acceptedFrames, List.length_eq_zero_iff.mp hdata]
  · simp [acceptedFrames, Ne.symm hdata]

theorem refusedFrames_refused (hdata : data.length ≠ 0) : refusedFrames [(data, 0)] = [data] := by
  simp [refusedFrames, List.length_eq_zero_iff.not.mp hdata, Ne.symm hdata]

theorem refusedFrames_empty (hempty : data.length = 0) : refusedFrames [(data, 0)] = [] := by
  simp [refusedFrames, hempty]

theorem capturableFrames_empty (ret : Nat) (hempty : data.length = 0) :
    capturableFrames [(data, ret)] = [] := by
  simp [capturableFrames, List.length_eq_zero_iff.mp hempty]

theorem capturableFrames_long (ret : Nat) (hlong : kWifiNetMaxPacketBytes < data.length) :
    capturableFrames [(data, ret)] = [] := by
  have hover : ¬ data.length ≤ kNdsNetCaptureMaxFrameBytes := Nat.not_le.mpr hlong
  simp [capturableFrames, hover]

theorem capturableFrames_fits (ret : Nat) (hdata : data.length ≠ 0)
    (hfits : data.length ≤ kWifiNetMaxPacketBytes) : capturableFrames [(data, ret)] = [data] := by
  have hcapture : data.length ≤ kNdsNetCaptureMaxFrameBytes := hfits
  simp [capturableFrames, List.length_eq_zero_iff.not.mp hdata, hcapture]

end Tallies

/-! ### Guest frames -/

/-- What the accounts of guest frames read. -/
structure SameSends (b b' : WifiBridge) : Prop where
  config : b'.config = b.config
  sends : b'.trace.sends = b.trace.sends
  toLive : b'.trace.liveSent ++ b'.workerPkt.toList ++ b'.txQueue =
    b.trace.liveSent ++ b.workerPkt.toList ++ b.txQueue
  sent : b'.replayDriver.sent = b.replayDriver.sent
  peerSent : b'.trace.peerSent = b.trace.peerSent
  drops : sendDrops b'.ring = sendDrops b.ring

namespace WifiBridge.SendsAccounted

variable {b b' : WifiBridge} {data : List UInt8}

theorem of_same (h : b.SendsAccounted) (same : SameSends b b') : b'.SendsAccounted where
  live := by rw [same.config, same.sends, same.toLive, h.live]
  replay := by rw [same.config, same.sends, same.sent, h.replay]
  peers := by rw [same.config, same.sends, same.peerSent, h.peers]
  refused := by rw [same.sends, same.drops, h.refused]
  compared := by
    rw [same.config, same.sends, same.sent]
    exact h.compared

/-- The record of a send, kept behind its outcome. -/
theorem send (h : b.SendsAccounted) (hattached : b.config.Attached) {result : WifiBridge × Nat}
    (hresult : SendOutcome b data result) :
    { result.1 with
      trace := { result.1.trace with
        sends := result.1.trace.sends ++ [(data, result.2)] } : WifiBridge }.SendsAccounted := by
  have hnoReplayPeer : b.config.isReplay = true → b.config.peerSocketOpen = false := by
    intro hreplay
    by_contra hopen
    obtain ⟨-, -, hslirp⟩ := hattached.socket (Bool.eq_true_of_not_eq_false hopen)
    simp [BridgeConfig.isReplay, hslirp] at hreplay
  have hunsent : acceptedFrames (b.trace.sends ++ [(data, 0)]) =
      acceptedFrames b.trace.sends := by
    rw [acceptedFrames_append, acceptedFrames_refused, List.append_nil]
  cases hresult with
  | empty hempty =>
      constructor
      · exact (congrArg (List.filter _) hunsent).trans h.live
      · exact (congrArg (List.filter _) hunsent).trans h.replay
      · exact (congrArg (List.filterMap _) hunsent).trans h.peers
      · simpa only [refusedFrames_append, refusedFrames_empty hempty, List.append_nil]
          using h.refused
      · simpa only [capturableFrames_append, capturableFrames_empty 0 hempty, List.append_nil]
          using h.compared
  | refused aux hdata hlong =>
      constructor
      · exact (congrArg (List.filter _) hunsent).trans h.live
      · exact (congrArg (List.filter _) hunsent).trans h.replay
      · exact (congrArg (List.filterMap _) hunsent).trans h.peers
      · have hevent : sendDrops [⟨.backendDrop, 0, UInt16.ofNat data.length, aux⟩] =
            [UInt16.ofNat data.length] := rfl
        simp only [netRingPush, refusedFrames_append, refusedFrames_refused hdata,
          sendDrops_append, hevent, List.map_append, List.map_singleton, h.refused]
      · intro hreplay
        simpa only [netRingPush, capturableFrames_append, capturableFrames_long 0 (hlong hreplay),
          List.append_nil] using h.compared hreplay
  | peer target hdata hdest =>
      have hhand : b.config.peerHandOver data =
          some (target, peerDatagram b.config.slirpVirtualNetworkInstance data) := by
        unfold BridgeConfig.peerHandOver
        rw [hdest]
      constructor
      · simpa [acceptedFrames_append, acceptedFrames_accepted hdata, List.filter_append, hdest]
          using h.live
      · simpa [acceptedFrames_append, acceptedFrames_accepted hdata, List.filter_append, hdest]
          using h.replay
      · simp only [acceptedFrames_append, acceptedFrames_accepted hdata, List.filterMap_append,
          h.peers, List.filterMap_cons, hhand, List.filterMap_nil]
      · simpa only [refusedFrames_append, refusedFrames_accepted, List.append_nil] using h.refused
      · intro hreplay
        have hclosed := hnoReplayPeer hreplay
        simp [BridgeConfig.destination, hclosed, hreplay] at hdest
  | replay cycle arm9Pc arm7Pc hdata hfits hdest =>
      have hsent : (b.replayDriver.step (.send cycle arm9Pc arm7Pc data)).sent =
          b.replayDriver.sent ++ [data] := if_neg hdata
      have hhand : b.config.peerHandOver data = none := by
        unfold BridgeConfig.peerHandOver
        rw [hdest]
      constructor
      · simpa [acceptedFrames_append, acceptedFrames_accepted hdata, List.filter_append, hdest]
          using h.live
      · simp [acceptedFrames_append, acceptedFrames_accepted hdata, List.filter_append, hdest,
          h.replay, hsent]
      · simpa [acceptedFrames_append, acceptedFrames_accepted hdata, List.filterMap_append, hhand]
          using h.peers
      · simpa only [refusedFrames_append, refusedFrames_accepted, List.append_nil] using h.refused
      · intro hreplay
        simp only [capturableFrames_append, capturableFrames_fits _ hdata hfits, hsent,
          h.compared hreplay]
  | live hdata hdest =>
      have hhand : b.config.peerHandOver data = none := by
        unfold BridgeConfig.peerHandOver
        rw [hdest]
      constructor
      · simp [acceptedFrames_append, acceptedFrames_accepted hdata, List.filter_append, hdest,
          h.live]
      · simpa [acceptedFrames_append, acceptedFrames_accepted hdata, List.filter_append, hdest]
          using h.replay
      · simpa [acceptedFrames_append, acceptedFrames_accepted hdata, List.filterMap_append, hhand]
          using h.peers
      · simpa only [refusedFrames_append, refusedFrames_accepted, List.append_nil] using h.refused
      · intro hreplay
        simp [BridgeConfig.destination, hreplay] at hdest
        split at hdest <;> cases hdest

end WifiBridge.SendsAccounted

/-! ### Host frames -/

/-- What the accounts of host frames read. -/
structure SameReceives (b b' : WifiBridge) : Prop where
  config : b'.config = b.config
  rxRecords : b'.replayDriver.driver.rxRecords = b.replayDriver.driver.rxRecords
  rxQueue : b'.rxQueue = b.rxQueue
  dropped : b'.rxDroppedSinceLastReport = b.rxDroppedSinceLastReport
  oversize : b'.pcapRxOversizeSinceLastReport = b.pcapRxOversizeSinceLastReport
  owes : b'.owes = b.owes
  recvAt : b'.recvAt = b.recvAt
  queued : b'.trace.queued = b.trace.queued
  refused : b'.trace.refused = b.trace.refused
  counted : b'.trace.counted = b.trace.counted
  oversized : b'.trace.oversized = b.trace.oversized
  enqueued : b'.trace.enqueued = b.trace.enqueued
  asked : b'.trace.asked = b.trace.asked
  drops : ∀ aux, hostDrops aux b'.ring = hostDrops aux b.ring

/-- A frame the guest's queue takes. -/
def FitsGuest (data : List UInt8) : Prop :=
  data.length ≠ 0 ∧ data.length ≤ kWifiNetMaxPacketBytes

namespace WifiBridge

/-- The balance of host frames, with how far the receive call has got with what
came before it. -/
structure ReceiveBalance (b : WifiBridge) : Prop where
  attached : b.config.Attached
  records : ∀ r ∈ b.replayDriver.driver.rxRecords,
    r.1.frame.length ≤ kNdsNetCaptureMaxFrameBytes
  rxFrames : ∀ data ∈ b.rxQueue, FitsGuest data
  replayQueue : b.config.isReplay = true → b.rxQueue = []
  queued : b.trace.queued = b.trace.enqueued ++ b.rxQueue
  refused : b.trace.refused = b.trace.counted + b.uncounted
  counted : b.trace.counted = hostDrops 1 b.ring + b.rxDroppedSinceLastReport.toNat
  oversized : b.trace.oversized = hostDrops 3 b.ring + b.pcapRxOversizeSinceLastReport.toNat
  askedQueued : b.trace.asked.queued ≤ b.trace.queued.length
  askedDropped : b.trace.asked.dropped ≤ b.trace.counted
  askedOversized : b.trace.asked.oversized ≤ b.trace.oversized
  drained : b.recvAt ≠ .draining → b.trace.asked.queued ≤ b.trace.enqueued.length
  reported : b.recvAt ≠ .draining → b.recvAt ≠ .reportDropped →
    b.trace.asked.dropped ≤ hostDrops 1 b.ring
  reportedOversized : b.recvAt ≠ .draining → b.recvAt ≠ .reportDropped →
    b.recvAt ≠ .reportOversized → b.trace.asked.oversized ≤ hostDrops 3 b.ring

namespace ReceiveBalance

variable {b b' : WifiBridge} {data : List UInt8} {thread : NetThread}

theorem accounted (h : b.ReceiveBalance) : b.ReceivesAccounted where
  queued := h.queued
  refused := h.refused
  counted := h.counted
  oversized := h.oversized
  answered := by
    intro houtside
    refine ⟨h.drained ?_, h.reported ?_ ?_, h.reportedOversized ?_ ?_ ?_⟩ <;>
      · rw [houtside]
        nofun

theorem of_same (h : b.ReceiveBalance) (same : SameReceives b b') : b'.ReceiveBalance where
  attached := by rw [same.config]; exact h.attached
  records := by rw [same.rxRecords]; exact h.records
  rxFrames := by rw [same.rxQueue]; exact h.rxFrames
  replayQueue := by rw [same.config, same.rxQueue]; exact h.replayQueue
  queued := by rw [same.queued, same.enqueued, same.rxQueue, h.queued]
  refused := by
    unfold uncounted
    rw [same.refused, same.counted, same.owes, h.refused]
    rfl
  counted := by rw [same.counted, same.drops, same.dropped, h.counted]
  oversized := by rw [same.oversized, same.drops, same.oversize, h.oversized]
  askedQueued := by rw [same.asked, same.queued]; exact h.askedQueued
  askedDropped := by rw [same.asked, same.counted]; exact h.askedDropped
  askedOversized := by rw [same.asked, same.oversized]; exact h.askedOversized
  drained := by rw [same.recvAt, same.asked, same.enqueued]; exact h.drained
  reported := by rw [same.recvAt, same.asked, same.drops]; exact h.reported
  reportedOversized := by rw [same.recvAt, same.asked, same.drops]; exact h.reportedOversized

/-- Any live backend is not the replay one. -/
theorem not_replay (hlive : b.config.live = true) : b.config.isReplay ≠ true := by
  intro hreplay
  have hbackend : b.config.backend = some .replay := by
    simpa [BridgeConfig.isReplay] using hreplay
  simp [BridgeConfig.live, hbackend] at hlive

theorem uncounted_owe (howes : b.owes thread = false) :
    { b with owes := Function.update b.owes thread true : WifiBridge }.uncounted =
      b.uncounted + 1 := by
  unfold uncounted
  cases thread with
  | emulation =>
      simp [howes]
      omega
  | worker => simp [howes]

theorem uncounted_settle (howes : b.owes thread = true) :
    b.uncounted =
      { b with owes := Function.update b.owes thread false : WifiBridge }.uncounted + 1 := by
  unfold uncounted
  cases thread with
  | emulation =>
      simp [howes]
      omega
  | worker => simp [howes]

theorem push (h : b.ReceiveBalance) (hlive : b.config.live = true)
    (howes : b.owes thread = false) (hdata : FitsGuest data) :
    (b.pushHostFrame thread data).ReceiveBalance := by
  unfold pushHostFrame tryPush
  by_cases hfull : b.rxQueue.length ≥ kWifiNetRxQueueCapacity
  · rw [if_pos hfull]
    refine { h with refused := ?_ }
    have howed := uncounted_owe howes
    have hrefused := h.refused
    change b.trace.refused + 1 = b.trace.counted +
      { b with owes := Function.update b.owes thread true : WifiBridge }.uncounted
    omega
  · rw [if_neg hfull]
    refine { h with
      rxFrames := ?_
      replayQueue := fun hreplay => absurd hreplay (not_replay hlive)
      queued := ?_
      askedQueued := ?_ }
    · intro d hd
      rcases List.mem_append.mp hd with hold | hnew
      · exact h.rxFrames d hold
      · exact List.mem_singleton.mp hnew ▸ hdata
    · simp only [h.queued, List.append_assoc]
    · have hasked := h.askedQueued
      simp only [List.length_append]
      omega

theorem driverFrame (h : b.ReceiveBalance) (hlive : b.config.live = true)
    (howes : b.owes thread = false)
    (hslirp : b.config.backend = some .slirp → data.length ≤ kWifiNetMaxPacketBytes)
    (hsound : b.StepCounts (.driverFrame thread data)) :
    (b.driverCallback thread data).ReceiveBalance := by
  unfold driverCallback
  by_cases hempty : data.length = 0
  · rw [if_pos hempty]
    exact h
  · rw [if_neg hempty]
    by_cases hover : b.config.backend = some .pcap ∧ data.length > kWifiNetMaxPacketBytes
    · rw [if_pos hover]
      have hroom := hsound hover.1 hover.2
      have hnext : (b.pcapRxOversizeSinceLastReport + 1).toNat =
          b.pcapRxOversizeSinceLastReport.toNat + 1 := by
        rw [UInt32.toNat_add]
        exact Nat.mod_eq_of_lt hroom
      refine { h with oversized := ?_, askedOversized := ?_ }
      · have hoversized := h.oversized
        dsimp only
        omega
      · exact Nat.le_succ_of_le h.askedOversized
    · rw [if_neg hover]
      refine h.push hlive howes ⟨hempty, ?_⟩
      by_cases hpcap : b.config.backend = some .pcap
      · exact Nat.not_lt.mp fun hlong => hover ⟨hpcap, hlong⟩
      · have hlive' : b.config.backend = some .slirp ∨ b.config.backend = some .pcap := by
          simpa [BridgeConfig.live] using hlive
        exact hslirp (hlive'.resolve_right hpcap)

theorem peerFrame (h : b.ReceiveBalance) {sender : Nat} (hlive : b.config.live = true)
    (howes : b.owes .worker = false) (hsound : b.StepCounts (.peerFrame sender data)) :
    (b.drainDatagram sender data).ReceiveBalance := by
  unfold drainDatagram
  by_cases hother : sender = b.config.slirpVirtualNetworkInstance ∨ sender ≥ kMaxInstances
  · rw [if_pos hother]
    exact h
  · rw [if_neg hother]
    obtain ⟨hsender, hrange⟩ := not_or.mp hother
    by_cases hlong : data.length > kWifiNetMaxPacketBytes
    · rw [if_pos hlong]
      exact h
    · rw [if_neg hlong]
      exact h.push hlive howes ⟨hsound hsender (Nat.not_le.mp hrange), Nat.not_lt.mp hlong⟩

theorem countDrop (h : b.ReceiveBalance) (howes : b.owes thread = true)
    (hroom : b.rxDroppedSinceLastReport.toNat + 1 < 2 ^ 32) :
    (b.next (.countDrop thread)).ReceiveBalance := by
  have hnext : (b.rxDroppedSinceLastReport + 1).toNat =
      b.rxDroppedSinceLastReport.toNat + 1 := by
    rw [UInt32.toNat_add]
    exact Nat.mod_eq_of_lt hroom
  have howed := uncounted_settle howes
  refine { h with refused := ?_, counted := ?_, askedDropped := ?_ }
  · have hrefused := h.refused
    change b.trace.refused = b.trace.counted + 1 +
      { b with owes := Function.update b.owes thread false : WifiBridge }.uncounted
    omega
  · have hcounted := h.counted
    dsimp only [next]
    omega
  · exact Nat.le_succ_of_le h.askedDropped

/-! ### The receive call -/

theorem recvStart (h : b.ReceiveBalance) : (b.next .recvStart).ReceiveBalance where
  attached := h.attached
  records := h.records
  rxFrames := h.rxFrames
  replayQueue := h.replayQueue
  queued := h.queued
  refused := h.refused
  counted := h.counted
  oversized := h.oversized
  askedQueued := Nat.le_refl _
  askedDropped := Nat.le_refl _
  askedOversized := Nat.le_refl _
  drained := fun hdraining => absurd rfl hdraining
  reported := fun hdraining => absurd rfl hdraining
  reportedOversized := fun hdraining => absurd rfl hdraining

/-- A frame that fits is put into the guest's queue. -/
theorem rxEnqueue_fits (hdata : FitsGuest data) :
    b.rxEnqueue data =
      { b with
        guestQueue := makeRoom (16 + data.length) b.guestQueue ++ [data]
        trace := { b.trace with enqueued := b.trace.enqueued ++ [data] } } := by
  have hroom : ¬ (data.length = 0 ∨ 16 + data.length ≥ 0x8000) := by
    have hlimit : data.length ≤ 2048 := hdata.2
    have hsome := hdata.1
    omega
  exact if_neg hroom

theorem recvPop (h : b.ReceiveBalance) (hat : b.recvAt = .draining) :
    b.recvPop.ReceiveBalance := by
  unfold WifiBridge.recvPop
  cases hqueue : b.rxQueue with
  | nil =>
      have hall : b.trace.queued = b.trace.enqueued := by
        rw [h.queued, hqueue, List.append_nil]
      exact { h with
        rxFrames := nofun
        replayQueue := fun _ => rfl
        queued := hall.trans (List.append_nil _).symm
        drained := fun _ => hall ▸ h.askedQueued
        reported := fun _ hreport => absurd rfl hreport
        reportedOversized := fun _ hreport => absurd rfl hreport }
  | cons data queue =>
      dsimp only
      rw [rxEnqueue_fits (h.rxFrames data (by rw [hqueue]; exact List.mem_cons_self))]
      refine { h with
        rxFrames := ?_
        replayQueue := ?_
        queued := ?_
        drained := fun hdraining => absurd hat hdraining }
      · intro d hd
        exact h.rxFrames d (by rw [hqueue]; exact List.mem_cons_of_mem _ hd)
      · intro hreplay
        have hnil := h.replayQueue hreplay
        rw [hqueue] at hnil
        cases hnil
      · simp only [h.queued, hqueue, List.append_assoc, List.singleton_append]

theorem reportDropped (h : b.ReceiveBalance) (hat : b.recvAt = .reportDropped) :
    b.reportDropped.ReceiveBalance := by
  have hone : hostDrops 1 b.reportDropped.ring = b.trace.counted := by
    have hcounted := h.counted
    simp only [WifiBridge.reportDropped, hostDrops_append, hostDrops_replicate, if_true]
    exact hcounted.symm
  have hthree : hostDrops 3 b.reportDropped.ring = hostDrops 3 b.ring := by
    simp only [WifiBridge.reportDropped, hostDrops_append, hostDrops_replicate]
    rfl
  refine { h with
    counted := ?_
    oversized := ?_
    drained := ?_
    reported := ?_
    reportedOversized := fun _ _ hreport => absurd rfl hreport }
  · rw [hone]
    rfl
  · rw [hthree]
    exact h.oversized
  · intro _
    exact h.drained (by rw [hat]; nofun)
  · intro _ _
    rw [hone]
    exact h.askedDropped

theorem reportOversized (h : b.ReceiveBalance) (hat : b.recvAt = .reportOversized) :
    b.reportOversized.ReceiveBalance := by
  have hone : hostDrops 1 b.reportOversized.ring = hostDrops 1 b.ring := by
    simp only [WifiBridge.reportOversized, hostDrops_append, hostDrops_replicate]
    rfl
  have hthree : hostDrops 3 b.reportOversized.ring = b.trace.oversized := by
    have hoversized := h.oversized
    simp only [WifiBridge.reportOversized, hostDrops_append, hostDrops_replicate, if_true]
    exact hoversized.symm
  refine { h with
    counted := ?_
    oversized := ?_
    drained := ?_
    reported := ?_
    reportedOversized := ?_ }
  · rw [hone]
    exact h.counted
  · rw [hthree]
    rfl
  · intro _
    exact h.drained (by rw [hat]; nofun)
  · intro _ _
    rw [hone]
    exact h.reported (by rw [hat]; nofun) (by rw [hat]; nofun)
  · intro _ _ _
    rw [hthree]
    exact h.askedOversized

/-- The receive call goes on and neither a counter nor a drop event changes. -/
theorem goOn (h : b.ReceiveBalance) (hat : b.recvAt = .reportPollErrors ∨ b.recvAt = .driverCheck)
    {point : RecvPoint} {ring : List NetEvent} {errors : UInt32} {guest : List (List UInt8)}
    (hring : ∀ aux, hostDrops aux ring = hostDrops aux b.ring) :
    { b with
      recvAt := point, ring := ring, pollErrorCount := errors, guestQueue := guest
      : WifiBridge }.ReceiveBalance := by
  have hpast : b.recvAt ≠ .draining ∧ b.recvAt ≠ .reportDropped ∧ b.recvAt ≠ .reportOversized := by
    rcases hat with hat | hat <;>
      · rw [hat]
        exact ⟨nofun, nofun, nofun⟩
  obtain ⟨hdraining, hdropped, hoversized⟩ := hpast
  exact { h with
    counted := (hring 1).symm ▸ h.counted
    oversized := (hring 3).symm ▸ h.oversized
    drained := fun _ => h.drained hdraining
    reported := fun _ _ => (hring 1).symm ▸ h.reported hdraining hdropped
    reportedOversized := fun _ _ _ =>
      (hring 3).symm ▸ h.reportedOversized hdraining hdropped hoversized }

theorem reportPollErrors (h : b.ReceiveBalance) (hat : b.recvAt = .reportPollErrors) :
    b.reportPollErrors.ReceiveBalance := by
  unfold WifiBridge.reportPollErrors
  split
  · apply h.goOn (Or.inl hat)
    intro aux
    rw [hostDrops_append]
    rfl
  · exact h.goOn (Or.inl hat) fun _ => rfl

theorem replayDeliver (h : b.ReceiveBalance) (hreplay : b.config.isReplay = true)
    (hfits : data.length ≤ kNdsNetCaptureMaxFrameBytes) : (b.replayDeliver data).ReceiveBalance := by
  unfold WifiBridge.replayDeliver
  by_cases hempty : data.length = 0
  · rw [if_pos hempty]
    exact h
  · rw [if_neg hempty, rxEnqueue_fits ⟨hempty, hfits⟩]
    have hasked := h.askedQueued
    refine { h with queued := ?_, askedQueued := ?_, drained := ?_ }
    · simp only [h.queued, h.replayQueue hreplay, List.append_nil]
    · simp only [List.length_append]
      omega
    · intro hdraining
      have hdrained := h.drained hdraining
      simp only [List.length_append]
      omega

end ReceiveBalance

end WifiBridge

/-! ### The replay driver's frames -/

theorem sendPacket_rxRecords (r : NetReplay) (data : List UInt8) :
    (r.sendPacket data).1.rxRecords = r.rxRecords := by
  rcases sendPacket_cases r data with
    ⟨-, hr⟩ | ⟨-, -, hr⟩ | ⟨-, -, _, -, -, hr⟩ | ⟨-, -, -, _, _, -, -, hr⟩ <;> rw [hr]

theorem restored_length (sanitized : Bool) (state : NdsNetSanitizeState) (frame : List UInt8) :
    (restored sanitized state frame).length = frame.length := by
  unfold restored
  split
  · split
    · exact toFrame_length _ _
    · rfl
  · rfl

theorem recvCheck_fits {r : NetReplay}
    (hrecords : ∀ record ∈ r.rxRecords,
      record.1.frame.length ≤ kNdsNetCaptureMaxFrameBytes) :
    ∀ frame ∈ r.recvCheck.2, frame.length ≤ kNdsNetCaptureMaxFrameBytes := by
  intro frame hframe
  obtain ⟨record, hrecord, rfl⟩ := List.mem_map.mp hframe
  have hmem : record ∈ r.rxRecords :=
    List.mem_of_mem_drop ((List.takeWhile_sublist _).subset hrecord)
  exact (restored_length _ _ _).trans_le (hrecords record hmem)

theorem rxRequired_frames (records : List NdsNetCaptureRecord) (txSeen : Nat) :
    ∀ record ∈ rxRequired txSeen records, record.1 ∈ records := by
  induction records generalizing txSeen with
  | nil => nofun
  | cons r records ih =>
      intro record hrecord
      unfold rxRequired at hrecord
      split at hrecord
      · exact List.mem_cons_of_mem _ (ih _ record hrecord)
      · rcases List.mem_cons.mp hrecord with rfl | hlater
        · exact List.mem_cons_self
        · exact List.mem_cons_of_mem _ (ih _ record hlater)

namespace SameSends

variable {b b' b'' : WifiBridge}

theorem refl (b : WifiBridge) : SameSends b b := ⟨rfl, rfl, rfl, rfl, rfl, rfl⟩

theorem trans (h : SameSends b b') (h' : SameSends b' b'') : SameSends b b'' where
  config := h'.config.trans h.config
  sends := h'.sends.trans h.sends
  toLive := h'.toLive.trans h.toLive
  sent := h'.sent.trans h.sent
  peerSent := h'.peerSent.trans h.peerSent
  drops := h'.drops.trans h.drops

end SameSends

theorem rxEnqueue_sameSends (b : WifiBridge) (data : List UInt8) :
    SameSends b (b.rxEnqueue data) := by
  unfold WifiBridge.rxEnqueue
  split
  · exact .refl b
  · constructor <;> rfl

theorem replayDeliver_sameSends (b : WifiBridge) (data : List UInt8) :
    SameSends b (b.replayDeliver data) := by
  unfold WifiBridge.replayDeliver
  split
  · exact .refl b
  · refine .trans ?_ (rxEnqueue_sameSends _ data)
    constructor <;> rfl

theorem replayDeliver_recvAt (b : WifiBridge) (data : List UInt8) :
    (b.replayDeliver data).recvAt = b.recvAt := by
  unfold WifiBridge.replayDeliver WifiBridge.rxEnqueue
  split
  · rfl
  · split <;> rfl

theorem foldl_replayDeliver_sameSends (b : WifiBridge) (frames : List (List UInt8)) :
    SameSends b (frames.foldl WifiBridge.replayDeliver b) := by
  induction frames generalizing b with
  | nil => exact .refl b
  | cons frame frames ih => exact (replayDeliver_sameSends b frame).trans (ih _)

theorem foldl_replayDeliver_balance {b : WifiBridge} {frames : List (List UInt8)}
    (h : b.ReceiveBalance) (hreplay : b.config.isReplay = true)
    (hfits : ∀ frame ∈ frames, frame.length ≤ kNdsNetCaptureMaxFrameBytes) :
    (frames.foldl WifiBridge.replayDeliver b).ReceiveBalance ∧
      (frames.foldl WifiBridge.replayDeliver b).recvAt = b.recvAt := by
  induction frames generalizing b with
  | nil => exact ⟨h, rfl⟩
  | cons frame frames ih =>
      have hstep := h.replayDeliver hreplay (hfits frame List.mem_cons_self)
      have hconfig := (replayDeliver_sameSends b frame).config
      obtain ⟨hbalance, hat⟩ := ih hstep (hconfig ▸ hreplay)
        fun d hd => hfits d (List.mem_cons_of_mem _ hd)
      exact ⟨hbalance, hat.trans (replayDeliver_recvAt b frame)⟩

theorem netRecv_balance {b : WifiBridge} (h : b.ReceiveBalance) (hat : b.recvAt = .driverCheck)
    (cycle : UInt64) (arm9Pc arm7Pc : UInt32) :
    (b.netRecvPacket cycle arm9Pc arm7Pc).ReceiveBalance := by
  unfold WifiBridge.netRecvPacket
  by_cases hreplay : b.config.isReplay = true
  · have hchecked : { b with
        replayDriver := b.replayDriver.step (.receive cycle arm9Pc arm7Pc)
        : WifiBridge }.ReceiveBalance :=
      h.of_same (by constructor <;> intros <;> rfl)
    have hfits := recvCheck_fits (r := b.replayDriver.driver.setCurrent cycle arm9Pc arm7Pc)
      h.records
    obtain ⟨hbalance, hpoint⟩ := foldl_replayDeliver_balance hchecked hreplay hfits
    simp only [hreplay, if_true]
    exact hbalance.goOn (Or.inr (hpoint.trans hat)) fun _ => rfl
  · simp only [hreplay, Bool.false_eq_true, if_false]
    exact h.goOn (Or.inr hat) fun _ => rfl

theorem netRecv_sameSends (b : WifiBridge) (cycle : UInt64) (arm9Pc arm7Pc : UInt32) :
    SameSends b (b.netRecvPacket cycle arm9Pc arm7Pc) := by
  unfold WifiBridge.netRecvPacket
  by_cases hreplay : b.config.isReplay = true
  · simp only [hreplay, if_true]
    have hchecked : SameSends b
        { b with replayDriver := b.replayDriver.step (.receive cycle arm9Pc arm7Pc) } := by
      constructor <;> rfl
    have hdelivered := foldl_replayDeliver_sameSends
      { b with replayDriver := b.replayDriver.step (.receive cycle arm9Pc arm7Pc) }
      (b.replayDriver.driver.setCurrent cycle arm9Pc arm7Pc).recvCheck.2
    refine (hchecked.trans hdelivered).trans ?_
    constructor <;> rfl
  · simp only [hreplay, Bool.false_eq_true, if_false]
    constructor <;> rfl

/-! ### One step -/

section Step

variable {b : WifiBridge}

theorem SendOutcome.sameReceives {data : List UInt8} {result : WifiBridge × Nat}
    (h : SendOutcome b data result) :
    SameReceives b { result.1 with
      trace := { result.1.trace with
        sends := result.1.trace.sends ++ [(data, result.2)] } } := by
  cases h with
  | empty => constructor <;> intros <;> rfl
  | refused aux =>
      constructor
      case drops =>
        intro reason
        exact hostDrops_append reason b.ring _
      all_goals rfl
  | peer => constructor <;> intros <;> rfl
  | replay cycle arm9Pc arm7Pc =>
      constructor
      case rxRecords => exact sendPacket_rxRecords _ data
      all_goals intros; rfl
  | live => constructor <;> intros <;> rfl

theorem pushHostFrame_sameSends (thread : NetThread) (data : List UInt8) :
    SameSends b (b.pushHostFrame thread data) := by
  unfold WifiBridge.pushHostFrame
  split <;> constructor <;> rfl

/-- Only a send touches the accounts of guest frames. -/
theorem next_sameSends (op : BridgeOp)
    (hop : ∀ cycle arm9Pc arm7Pc data fails, op ≠ .send cycle arm9Pc arm7Pc data fails)
    (hadmits : b.Admits op) : SameSends b (b.next op) := by
  cases op with
  | send cycle arm9Pc arm7Pc data fails => exact absurd rfl (hop cycle arm9Pc arm7Pc data fails)
  | recvStart => constructor <;> rfl
  | recvPop =>
      simp only [WifiBridge.next, WifiBridge.recvPop]
      split
      · constructor <;> rfl
      · refine .trans ?_ (rxEnqueue_sameSends _ _)
        constructor <;> rfl
  | reportDropped =>
      constructor
      case drops =>
        simp only [WifiBridge.next, WifiBridge.reportDropped, sendDrops_append,
          sendDrops_replicate, List.append_nil]
      all_goals rfl
  | reportOversized =>
      constructor
      case drops =>
        simp only [WifiBridge.next, WifiBridge.reportOversized, sendDrops_append,
          sendDrops_replicate, List.append_nil]
      all_goals rfl
  | reportPollErrors =>
      simp only [WifiBridge.next, WifiBridge.reportPollErrors]
      split
      · constructor
        case drops =>
          rw [sendDrops_append]
          exact List.append_nil _
        all_goals rfl
      · constructor <;> rfl
  | netRecv cycle arm9Pc arm7Pc => exact netRecv_sameSends b cycle arm9Pc arm7Pc
  | takeTx =>
      obtain ⟨-, hhand, -⟩ := hadmits
      simp only [WifiBridge.next]
      cases hqueue : b.txQueue with
      | nil => exact .refl b
      | cons pkt queue =>
          constructor
          case toLive =>
            simp only [hhand, hqueue, Option.toList_some, Option.toList_none, List.append_nil,
              List.append_assoc, List.singleton_append]
          all_goals rfl
  | driverSend =>
      constructor
      case toLive =>
        simp only [WifiBridge.next, Option.toList_none, List.append_nil]
      all_goals rfl
  | driverFrame thread data =>
      simp only [WifiBridge.next, WifiBridge.driverCallback]
      split
      · exact .refl b
      · split
        · constructor <;> rfl
        · exact pushHostFrame_sameSends thread data
  | peerFrame sender data =>
      simp only [WifiBridge.next, WifiBridge.drainDatagram]
      split
      · exact .refl b
      · split
        · exact .refl b
        · exact pushHostFrame_sameSends .worker data
  | countDrop thread => constructor <;> rfl
  | pollError => constructor <;> rfl

/-- One step keeps both accounts. -/
theorem next_accounts (hsends : b.SendsAccounted) (hreceives : b.ReceiveBalance) {op : BridgeOp}
    (hadmits : b.Admits op) (hcounts : b.StepCounts op) :
    (b.next op).SendsAccounted ∧ (b.next op).ReceiveBalance := by
  cases op with
  | send cycle arm9Pc arm7Pc data fails =>
      have hout := netSendPacket_outcome hreceives.attached hcounts
      exact ⟨hsends.send hreceives.attached hout, hreceives.of_same hout.sameReceives⟩
  | recvStart => exact ⟨hsends.of_same (next_sameSends _ nofun hadmits), hreceives.recvStart⟩
  | recvPop =>
      exact ⟨hsends.of_same (next_sameSends _ nofun hadmits), hreceives.recvPop hadmits⟩
  | reportDropped =>
      exact ⟨hsends.of_same (next_sameSends _ nofun hadmits), hreceives.reportDropped hadmits⟩
  | reportOversized =>
      exact ⟨hsends.of_same (next_sameSends _ nofun hadmits), hreceives.reportOversized hadmits⟩
  | reportPollErrors =>
      exact ⟨hsends.of_same (next_sameSends _ nofun hadmits), hreceives.reportPollErrors hadmits⟩
  | netRecv cycle arm9Pc arm7Pc =>
      exact ⟨hsends.of_same (next_sameSends _ nofun hadmits),
        netRecv_balance hreceives hadmits.1 cycle arm9Pc arm7Pc⟩
  | takeTx =>
      refine ⟨hsends.of_same (next_sameSends _ nofun hadmits), ?_⟩
      simp only [WifiBridge.next]
      split
      · exact hreceives
      · exact hreceives.of_same (by constructor <;> intros <;> rfl)
  | driverSend =>
      refine ⟨hsends.of_same (next_sameSends _ nofun hadmits), ?_⟩
      exact hreceives.of_same (by constructor <;> intros <;> rfl)
  | driverFrame thread data =>
      have hsame := hsends.of_same (next_sameSends (.driverFrame thread data) nofun hadmits)
      obtain ⟨hlive, howes, -, hslirp⟩ := hadmits
      refine ⟨hsame, ?_⟩
      exact hreceives.driverFrame hlive howes hslirp hcounts
  | peerFrame sender data =>
      have hsame := hsends.of_same (next_sameSends (.peerFrame sender data) nofun hadmits)
      obtain ⟨hlive, -, howes⟩ := hadmits
      refine ⟨hsame, ?_⟩
      exact hreceives.peerFrame hlive howes hcounts
  | countDrop thread =>
      exact ⟨hsends.of_same (next_sameSends _ nofun hadmits),
        hreceives.countDrop hadmits hcounts⟩
  | pollError =>
      refine ⟨hsends.of_same (next_sameSends _ nofun hadmits), ?_⟩
      exact hreceives.of_same (by constructor <;> intros <;> rfl)

/-- The worker writes no event. -/
theorem next_ring_worker {op : BridgeOp} (hworker : op.thread = .worker) :
    (b.next op).ring = b.ring := by
  have hpush (thread : NetThread) (data : List UInt8) :
      (b.pushHostFrame thread data).ring = b.ring := by
    unfold WifiBridge.pushHostFrame
    split <;> rfl
  cases op with
  | takeTx =>
      simp only [WifiBridge.next]
      split <;> rfl
  | driverSend => rfl
  | driverFrame thread data =>
      simp only [WifiBridge.next, WifiBridge.driverCallback]
      split
      · rfl
      · split
        · rfl
        · exact hpush thread data
  | peerFrame sender data =>
      simp only [WifiBridge.next, WifiBridge.drainDatagram]
      split
      · rfl
      · split
        · rfl
        · exact hpush .worker data
  | countDrop thread => rfl
  | pollError => rfl
  | _ => cases hworker

end Step

/-! ### Runs -/

theorem attached_accounts {config : BridgeConfig} {records : List NdsNetCaptureRecord}
    (sanitized : Bool) (hattached : config.Attached)
    (hrecords : ∀ r ∈ records, r.frame.length ≤ kNdsNetCaptureMaxFrameBytes) :
    ({ config := config, replayDriver := .start records sanitized } : WifiBridge).SendsAccounted ∧
      ({ config := config, replayDriver := .start records sanitized }
        : WifiBridge).ReceiveBalance := by
  constructor
  · constructor <;> intros <;> rfl
  · constructor
    case attached => exact hattached
    case records =>
      intro r hr
      exact hrecords r.1 (rxRequired_frames records 0 r hr)
    case rxFrames => nofun
    case askedQueued => exact Nat.le_refl 0
    case askedDropped => exact Nat.le_refl 0
    case askedOversized => exact Nat.le_refl 0
    case drained => exact fun _ => Nat.zero_le _
    case reported => exact fun _ _ => Nat.zero_le _
    case reportedOversized => exact fun _ _ _ => Nat.zero_le _
    all_goals intros; rfl

theorem counting_accounts :
    (bridgeSystem.restrict WifiBridge.StepCounts).Invariant fun b =>
      b.SendsAccounted ∧ b.ReceiveBalance where
  start := by
    rintro b ⟨config, records, sanitized, hattached, hrecords, rfl⟩
    exact attached_accounts sanitized hattached hrecords
  step := by
    rintro b op ⟨hsends, hreceives⟩ ⟨hadmits, hcounts⟩
    exact next_accounts hsends hreceives hadmits hcounts

/-- The settings without networking options of their own, attached to libslirp. -/
def slirpBridge : WifiBridge where
  config := ⟨false, some .slirp, 0, false⟩
  replayDriver := .start [] false

/-- An IPv4 frame to the gateway of instance 1. -/
def framePeerOne : List UInt8 :=
  List.replicate 12 0 ++ [0x08, 0x00, 0x45] ++ List.replicate 15 0 ++ [10, 64, 1, 16]

def replayBridge : WifiBridge where
  config := ⟨false, some .replay, 0, false⟩
  replayDriver := .start [⟨0, kNdsNetCaptureDirTx, framePeerOne⟩] false

end NdsRecomp.Net
