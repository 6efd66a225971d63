import NdsRecomp.Net.DnsName
import NdsRecomp.Net.EventRing
import NdsRecomp.Net.SanitizeAccess

/-!
`net_classify_ethernet_frame`: the layers of a frame, down to a DHCP message, a DNS name or
the header of a TLS record, as events of the network ring. `none` is an access outside the
frame, or outside a name's buffer. What is only printed is left out.
-/

namespace NdsRecomp.Net

/-- The members of `NdsNetEventKind` a frame is classified as. -/
inductive NetFrameKind
  | arp
  | dhcp
  | dnsQuery
  | dnsResponse
  | tcpOpen
  | tcpClose
  | tcpReset
  | tcpPacket
  | udpPacket
  | tlsRecord
  deriving DecidableEq

def NetFrameKind.code : NetFrameKind → UInt8
  | arp => 10
  | dhcp => 11
  | dnsQuery => 12
  | dnsResponse => 13
  | tcpOpen => 14
  | tcpClose => 15
  | tcpReset => 16
  | tcpPacket => 17
  | udpPacket => 18
  | tlsRecord => 21

/-- What is passed down with a frame; the MACs are places in it. -/
structure Flow where
  direction : UInt8
  srcMac : Nat
  dstMac : Nat
  srcIpv4 : UInt32
  dstIpv4 : UInt32
  srcPort : Nat := 0
  dstPort : Nat := 0

/-- An event, and the host name set for it. -/
structure Classified where
  event : NetTraceEvent
  hostname : Option Hostname := none

/-- The buffer of a name on the stack, with whatever it holds. -/
structure NameBuffer where
  bytes : List UInt8
  length_eq : bytes.length = 256

def readBe32 (p : List UInt8) (i : Nat) : Option UInt32 :=
  (readBe16 p i).bind fun high => (readBe16 p (i + 2)).map fun low =>
    UInt32.ofNat (high * 65536 + low)

def readMac (p : List UInt8) (i : Nat) : Option (Vector UInt8 6) :=
  p[i]?.bind fun b0 => p[i + 1]?.bind fun b1 => p[i + 2]?.bind fun b2 => p[i + 3]?.bind fun b3 =>
    p[i + 4]?.bind fun b4 => p[i + 5]?.map fun b5 => #v[b0, b1, b2, b3, b4, b5]

/-- `net_ring_push`, as far as it reads the frame. -/
def netRingEvent (frame : List UInt8) (flow : Flow) (kind : NetFrameKind)
    (wifiValue : UInt32) (payloadLen : Nat) (aux : UInt32) : Option NetTraceEvent :=
  (readMac frame flow.srcMac).bind fun srcMac => (readMac frame flow.dstMac).map fun dstMac =>
    { kind := kind.code
      direction := flow.direction
      wifiValue := wifiValue
      srcMac := some srcMac
      dstMac := some dstMac
      srcIpv4 := flow.srcIpv4
      dstIpv4 := flow.dstIpv4
      srcPort := UInt16.ofNat flow.srcPort
      dstPort := UInt16.ofNat flow.dstPort
      payloadLen := UInt16.ofNat payloadLen
      aux := aux }

/-! ### DHCP -/

/-- What is kept of the options. -/
structure DhcpSeen where
  msgType : UInt8 := 0
  routerIp : Option UInt32 := none
  dnsIp : Option UInt32 := none
  serverId : UInt32 := 0

/-- One option with its value at `val`. -/
def DhcpSeen.option (frame : List UInt8) (seen : DhcpSeen) (code : UInt8) (optLen val : Nat) :
    Option DhcpSeen :=
  if code = 53 ∧ 1 ≤ optLen then frame[val]?.map fun b => { seen with msgType := b }
  else if code = 3 ∧ 4 ≤ optLen then
    (readBe32 frame val).map fun ip => { seen with routerIp := some ip }
  else if code = 6 ∧ 4 ≤ optLen then
    (readBe32 frame val).map fun ip => { seen with dnsIp := some ip }
  else if code = 54 ∧ 4 ≤ optLen then
    (readBe32 frame val).map fun ip => { seen with serverId := ip }
  else some seen

def dhcpOptionsFrom (frame : List UInt8) (p : Nat) (seen : DhcpSeen) : Option DhcpSeen :=
  if frame.length ≤ p then some seen
  else frame[p]?.bind fun code =>
    if code = 0xFF then some seen
    else if code = 0 then dhcpOptionsFrom frame (p + 1) seen
    else if frame.length ≤ p + 1 then some seen
    else frame[p + 1]?.bind fun optLen =>
      if frame.length < p + 2 + optLen.toNat then some seen
      else (seen.option frame code optLen.toNat (p + 2)).bind fun seen =>
        dhcpOptionsFrom frame (p + 2 + optLen.toNat) seen
termination_by frame.length - p

/-- The options behind the magic cookie. -/
def dhcpSeen (frame : List UInt8) (cookie : Nat) : Option DhcpSeen :=
  if cookie + 4 ≤ frame.length then
    frame[cookie]?.bind fun c0 => frame[cookie + 1]?.bind fun c1 =>
    frame[cookie + 2]?.bind fun c2 => frame[cookie + 3]?.bind fun c3 =>
      if c0 = 0x63 ∧ c1 = 0x82 ∧ c2 = 0x53 ∧ c3 = 0x63 then dhcpOptionsFrom frame (cookie + 4) {}
      else some {}
  else some {}

def classifyDhcp (frame : List UInt8) (flow : Flow) (udpPayload udpPayloadLen : Nat) :
    Option (List Classified) :=
  (if udpPayload + 20 ≤ frame.length then readBe32 frame (udpPayload + 16)
    else some 0).bind fun yiaddr =>
  (dhcpSeen frame (udpPayload + 236)).bind fun seen =>
  (netRingEvent frame flow .dhcp yiaddr udpPayloadLen seen.msgType.toUInt32).map fun event =>
    [{ event := event }]

/-! ### DNS -/

/-- The characters of the text in a buffer; `none` when no zero ends it. -/
def cString (buffer : List UInt8) : Option Hostname :=
  if 0 ∈ buffer then some (buffer.takeWhile (· ≠ 0)) else none

/-- A host name is set unless it is empty. -/
def hostnameOf (qname : List UInt8) : Option (Option Hostname) :=
  qname[0]?.bind fun first => if first = 0 then some none else (cString qname).map some

/-- The questions behind the first, decoded into no buffer. -/
def skipQuestions (frame : List UInt8) (msgBase : Nat) : Nat → Nat → Option Nat
  | 0, pos => some pos
  | n + 1, pos => (dnsReadName frame msgBase pos []).bind fun name =>
      if name.found then skipQuestions frame msgBase n (name.endPos + 4) else some pos

/-- The address of the first A record. -/
def firstAnswer (frame : List UInt8) (msgBase : Nat) (rrName : NameBuffer) :
    Nat → Nat → Option (Option UInt32)
  | 0, _ => some none
  | n + 1, pos => (dnsReadName frame msgBase pos rrName.bytes).bind fun name =>
      if name.found = false then some none
      else if frame.length < name.endPos + 10 then some none
      else (readBe16 frame name.endPos).bind fun rtype =>
      (readBe16 frame (name.endPos + 2)).bind fun rclass =>
      (readBe16 frame (name.endPos + 8)).bind fun rdlength =>
      if frame.length < name.endPos + 10 + rdlength then some none
      else if rtype = 1 ∧ rclass = 1 ∧ rdlength = 4 then
        (readBe32 frame (name.endPos + 10)).map some
      else firstAnswer frame msgBase rrName n (name.endPos + 10 + rdlength)

def classifyDns (frame : List UInt8) (flow : Flow) (udpPayload udpPayloadLen : Nat)
    (qname rrName : NameBuffer) : Option (List Classified) :=
  if frame.length < udpPayload + 12 then some []
  else (readBe16 frame udpPayload).bind fun txnId =>
  (readBe16 frame (udpPayload + 2)).bind fun flags =>
  (readBe16 frame (udpPayload + 4)).bind fun qdcount =>
  (readBe16 frame (udpPayload + 6)).bind fun ancount =>
  if qdcount < 1 then some []
  else (dnsReadName frame udpPayload (udpPayload + 12) qname.bytes).bind fun name =>
  if name.found = false then some []
  else if frame.length < name.endPos + 4 then some []
  else (readBe16 frame name.endPos).bind fun qtype =>
  if flags &&& 0x8000 = 0 then
    (netRingEvent frame flow .dnsQuery (UInt32.ofNat txnId) udpPayloadLen
      (UInt32.ofNat qtype)).bind fun event =>
    (hostnameOf name.out).map fun hostname => [⟨event, hostname⟩]
  else
    (skipQuestions frame udpPayload (qdcount - 1) (name.endPos + 4)).bind fun pos =>
    (firstAnswer frame udpPayload rrName ancount pos).bind fun answer =>
    (netRingEvent frame { flow with dstIpv4 := answer.getD flow.dstIpv4 } .dnsResponse
      (UInt32.ofNat txnId) udpPayloadLen
      (UInt32.ofNat (flags &&& 0x000F ||| ancount <<< 8))).bind fun event =>
    (hostnameOf name.out).map fun hostname => [⟨event, hostname⟩]

/-! ### TCP -/

def kTlsContentHandshake : UInt8 := 22

/-- The record types in use. -/
def plausibleContentType (contentType : UInt8) : Prop :=
  contentType = 20 ∨ contentType = 21 ∨ contentType = kTlsContentHandshake ∨ contentType = 23

instance (contentType : UInt8) : Decidable (plausibleContentType contentType) :=
  inferInstanceAs (Decidable (_ ∨ _))

def kTlsHandshakeUnknown : UInt8 := 0xFF

def classifyTlsRecord (frame : List UInt8) (flow : Flow) (payloadOff payloadLen : Nat) :
    Option (List Classified) :=
  if payloadLen < 5 ∨ frame.length < payloadOff + 5 then some []
  else frame[payloadOff]?.bind fun contentType =>
  frame[payloadOff + 1]?.bind fun versionMajor =>
  frame[payloadOff + 2]?.bind fun versionMinor =>
  (readBe16 frame (payloadOff + 3)).bind fun recordLen =>
  if ¬plausibleContentType contentType ∨ versionMajor ≠ 3 then some []
  else if recordLen = 0 ∨ 18432 < recordLen then some []
  else
    (if contentType = kTlsContentHandshake ∧ 6 ≤ payloadLen ∧ payloadOff + 6 ≤ frame.length then
        frame[payloadOff + 5]?
      else some kTlsHandshakeUnknown).bind fun handshakeType =>
    (netRingEvent frame flow .tlsRecord 0 recordLen
      (contentType.toUInt32 <<< 16 ||| handshakeType.toUInt32 <<< 8 ||| versionMinor.toUInt32)).map
      fun event => [{ event := event }]

def kFIN : UInt8 := 0x01
def kSYN : UInt8 := 0x02
def kRST : UInt8 := 0x04

def tcpKind (flags : UInt8) : NetFrameKind :=
  if flags &&& kRST ≠ 0 then .tcpReset
  else if flags &&& kSYN ≠ 0 then .tcpOpen
  else if flags &&& kFIN ≠ 0 then .tcpClose
  else .tcpPacket

def classifyTcp (frame : List UInt8) (flow : Flow) (tcpOffset ipPayloadLen : Nat) :
    Option (List Classified) :=
  if frame.length < tcpOffset + 20 then some []
  else (readBe16 frame tcpOffset).bind fun srcPort =>
  (readBe16 frame (tcpOffset + 2)).bind fun dstPort =>
  frame[tcpOffset + 12]?.bind fun dataOffsetWord =>
  let dataOffset := (dataOffsetWord >>> 4).toNat * 4
  if dataOffset < 20 ∨ frame.length < tcpOffset + dataOffset then some []
  else frame[tcpOffset + 13]?.bind fun flags =>
  let flow := { flow with srcPort := srcPort, dstPort := dstPort }
  (netRingEvent frame flow (tcpKind flags) 0 (ipPayloadLen - dataOffset) flags.toUInt32).bind
    fun event =>
  (if 0 < ipPayloadLen - dataOffset then
      classifyTlsRecord frame flow (tcpOffset + dataOffset) (ipPayloadLen - dataOffset)
    else some []).map fun record => { event := event } :: record

/-! ### Frames -/

def classifyUdp (frame : List UInt8) (flow : Flow) (ipPayloadOff ipPayloadLen : Nat)
    (qname rrName : NameBuffer) : Option (List Classified) :=
  if frame.length < ipPayloadOff + 8 then some []
  else (readBe16 frame ipPayloadOff).bind fun srcPort =>
  (readBe16 frame (ipPayloadOff + 2)).bind fun dstPort =>
  (readBe16 frame (ipPayloadOff + 4)).bind fun udpLen =>
  let udpPayloadLen := min (udpLen - 8) (ipPayloadLen - 8)
  let flow := { flow with srcPort := srcPort, dstPort := dstPort }
  if srcPort = 67 ∨ srcPort = 68 ∨ dstPort = 67 ∨ dstPort = 68 then
    classifyDhcp frame flow (ipPayloadOff + 8) udpPayloadLen
  else if srcPort = 53 ∨ dstPort = 53 then
    classifyDns frame flow (ipPayloadOff + 8) udpPayloadLen qname rrName
  else (netRingEvent frame flow .udpPacket 0 udpPayloadLen 0).map fun event => [{ event := event }]

def classifyArp (frame : List UInt8) (direction : UInt8) : Option (List Classified) :=
  if frame.length < 14 + 28 then some []
  else (readBe16 frame (14 + 6)).bind fun opcode =>
  (readBe32 frame (14 + 14)).bind fun senderIp => (readBe32 frame (14 + 24)).bind fun targetIp =>
  let flow : Flow := { direction := direction, srcMac := 14 + 8, dstMac := 14 + 18
                       srcIpv4 := senderIp, dstIpv4 := targetIp }
  (netRingEvent frame flow .arp 0 (frame.length - 14) (UInt32.ofNat opcode)).map fun event =>
    [{ event := event }]

/-- The stack's buffers are those of the DNS classifier. -/
def netClassifyEthernetFrame (frame : List UInt8) (direction : UInt8)
    (qname rrName : NameBuffer) : Option (List Classified) :=
  if frame.length < 14 then some []
  else (readBe16 frame 12).bind fun ethertype =>
  if ethertype = 0x0806 then classifyArp frame direction
  else if ethertype ≠ 0x0800 then some []
  else if frame.length < 14 + 20 then some []
  else frame[14]?.bind fun (first : UInt8) =>
  let ihl := (first &&& 0x0F).toNat * 4
  if first >>> 4 ≠ 4 ∨ ihl < 20 ∨ frame.length < 14 + ihl then some []
  else frame[14 + 9]?.bind fun protocol =>
  (readBe32 frame (14 + 12)).bind fun srcIpv4 => (readBe32 frame (14 + 16)).bind fun dstIpv4 =>
  (readBe16 frame (14 + 2)).bind fun ipTotalLen =>
  let ipPayloadLen := min (ipTotalLen - ihl) (frame.length - (14 + ihl))
  let flow : Flow := { direction := direction, srcMac := 6, dstMac := 0
                       srcIpv4 := srcIpv4, dstIpv4 := dstIpv4 }
  if protocol = 17 then classifyUdp frame flow (14 + ihl) ipPayloadLen qname rrName
  else if protocol = 6 then classifyTcp frame flow (14 + ihl) ipPayloadLen
  else some []

/-! ### Within the frame -/

variable {frame : List UInt8} {flow : Flow}

theorem isSome_bind {α β : Type*} {x : Option α} {f : α → Option β} (hx : x.isSome = true)
    (hf : ∀ a, x = some a → (f a).isSome = true) : (x.bind f).isSome = true := by
  obtain ⟨a, ha⟩ := Option.isSome_iff_exists.mp hx
  rw [ha, Option.bind_some]
  exact hf a ha

theorem isSome_map {α β : Type*} {x : Option α} {f : α → β} (hx : x.isSome = true) :
    (x.map f).isSome = true := by
  rwa [Option.isSome_map]

theorem isSome_ite {α : Type*} {c : Prop} [Decidable c] {x y : Option α}
    (hx : c → x.isSome = true) (hy : ¬c → y.isSome = true) :
    (if c then x else y).isSome = true := by
  split
  · exact hx ‹c›
  · exact hy ‹¬c›

theorem byte_isSome {p : Nat} (h : p < frame.length) : frame[p]?.isSome = true := by
  rwa [isSome_getElem?]

theorem readBe16_isSome {p : Nat} (h : p + 1 < frame.length) :
    (readBe16 frame p).isSome = true :=
  isSome_bind (byte_isSome (by omega)) fun _ _ => isSome_bind (byte_isSome h) fun _ _ => rfl

theorem readBe32_isSome {p : Nat} (h : p + 3 < frame.length) :
    (readBe32 frame p).isSome = true :=
  isSome_bind (readBe16_isSome (by omega)) fun _ _ => isSome_map (readBe16_isSome h)

theorem readMac_isSome {p : Nat} (h : p + 5 < frame.length) : (readMac frame p).isSome = true :=
  isSome_bind (byte_isSome (by omega)) fun _ _ =>
  isSome_bind (byte_isSome (by omega)) fun _ _ =>
  isSome_bind (byte_isSome (by omega)) fun _ _ =>
  isSome_bind (byte_isSome (by omega)) fun _ _ =>
  isSome_bind (byte_isSome (by omega)) fun _ _ => isSome_map (byte_isSome h)

/-- Both addresses are in the frame. -/
def Flow.Within (frame : List UInt8) (flow : Flow) : Prop :=
  flow.srcMac + 5 < frame.length ∧ flow.dstMac + 5 < frame.length

theorem Flow.Within.withPorts (h : flow.Within frame) (srcPort dstPort : Nat) :
    Flow.Within frame { flow with srcPort := srcPort, dstPort := dstPort } := h

theorem Flow.Within.withAnswer (h : flow.Within frame) (ip : UInt32) :
    Flow.Within frame { flow with dstIpv4 := ip } := h

theorem netRingEvent_isSome (h : flow.Within frame) {kind : NetFrameKind}
    {wifiValue aux : UInt32} {payloadLen : Nat} :
    (netRingEvent frame flow kind wifiValue payloadLen aux).isSome = true :=
  isSome_bind (readMac_isSome h.1) fun _ _ => isSome_map (readMac_isSome h.2)

theorem option_isSome (seen : DhcpSeen) (code : UInt8) {optLen val : Nat}
    (h : val + optLen ≤ frame.length) : (seen.option frame code optLen val).isSome = true := by
  unfold DhcpSeen.option
  refine isSome_ite (fun _ => isSome_map (byte_isSome (by omega))) fun _ => ?_
  refine isSome_ite (fun _ => isSome_map (readBe32_isSome (by omega))) fun _ => ?_
  refine isSome_ite (fun _ => isSome_map (readBe32_isSome (by omega))) fun _ => ?_
  exact isSome_ite (fun _ => isSome_map (readBe32_isSome (by omega))) fun _ => rfl

theorem dhcpOptionsFrom_isSome (p : Nat) (seen : DhcpSeen) :
    (dhcpOptionsFrom frame p seen).isSome = true := by
  induction hleft : frame.length - p using Nat.strongRecOn generalizing p seen with
  | ind left ih =>
      subst hleft
      rw [dhcpOptionsFrom]
      refine isSome_ite (fun _ => rfl) fun hp => ?_
      refine isSome_bind (byte_isSome (by omega)) fun code _ => ?_
      refine isSome_ite (fun _ => rfl) fun _ => ?_
      refine isSome_ite (fun _ => ih _ (by omega) _ _ rfl) fun _ => ?_
      refine isSome_ite (fun _ => rfl) fun hnext => ?_
      refine isSome_bind (byte_isSome (by omega)) fun optLen _ => ?_
      refine isSome_ite (fun _ => rfl) fun hval => ?_
      refine isSome_bind (option_isSome seen code (by omega)) fun seen _ => ?_
      exact ih _ (by omega) _ _ rfl

theorem dhcpSeen_isSome (cookie : Nat) : (dhcpSeen frame cookie).isSome = true := by
  unfold dhcpSeen
  refine isSome_ite (fun hcookie => ?_) fun _ => rfl
  refine isSome_bind (byte_isSome (by omega)) fun _ _ => ?_
  refine isSome_bind (byte_isSome (by omega)) fun _ _ => ?_
  refine isSome_bind (byte_isSome (by omega)) fun _ _ => ?_
  refine isSome_bind (byte_isSome (by omega)) fun _ _ => ?_
  exact isSome_ite (fun _ => dhcpOptionsFrom_isSome _ _) fun _ => rfl

theorem classifyDhcp_isSome (h : flow.Within frame) (udpPayload udpPayloadLen : Nat) :
    (classifyDhcp frame flow udpPayload udpPayloadLen).isSome = true := by
  unfold classifyDhcp
  refine isSome_bind ?_ fun yiaddr _ => isSome_bind (dhcpSeen_isSome _) fun seen _ =>
    isSome_map (netRingEvent_isSome h)
  exact isSome_ite (fun hyiaddr => readBe32_isSome (by omega)) fun _ => rfl

/-- A name in a buffer that is not empty is terminated, so that its text can be read. -/
theorem hostnameOf_isSome {r : NameRead} {size : Nat} (h : r.Stays size) (hsize : 0 < size)
    (hfound : r.found = true) : (hostnameOf r.out).isSome = true := by
  have hlength := h.length
  unfold hostnameOf cString
  refine isSome_bind (byte_isSome (by omega)) fun first _ => ?_
  refine isSome_ite (fun _ => rfl) fun _ => ?_
  rw [if_pos ((h.terminated hfound).2 hsize)]
  rfl

theorem dnsReadName_isSome (msgBase pos : Nat) (out : List UInt8) :
    (dnsReadName frame msgBase pos out).isSome = true := by
  obtain ⟨r, hread, -⟩ := dnsReadName_stays frame msgBase pos out
  rw [hread]
  rfl

theorem skipQuestions_isSome (msgBase n pos : Nat) :
    (skipQuestions frame msgBase n pos).isSome = true := by
  induction n generalizing pos with
  | zero => rfl
  | succ n ih =>
      refine isSome_bind (dnsReadName_isSome _ _ _) fun name _ => ?_
      exact isSome_ite (fun _ => ih _) fun _ => rfl

theorem firstAnswer_isSome (msgBase : Nat) (rrName : NameBuffer) (n pos : Nat) :
    (firstAnswer frame msgBase rrName n pos).isSome = true := by
  induction n generalizing pos with
  | zero => rfl
  | succ n ih =>
      refine isSome_bind (dnsReadName_isSome _ _ _) fun name _ => ?_
      refine isSome_ite (fun _ => rfl) fun _ => ?_
      refine isSome_ite (fun _ => rfl) fun hrecord => ?_
      refine isSome_bind (readBe16_isSome (by omega)) fun rtype _ => ?_
      refine isSome_bind (readBe16_isSome (by omega)) fun rclass _ => ?_
      refine isSome_bind (readBe16_isSome (by omega)) fun rdlength _ => ?_
      refine isSome_ite (fun _ => rfl) fun hrdata => ?_
      refine isSome_ite (fun haddress => isSome_map (readBe32_isSome ?_)) fun _ => ih _
      omega

/-- What the reader leaves of a name in a buffer on the stack. -/
theorem stays_of_dnsReadName {msgBase pos : Nat} {buffer : NameBuffer} {name : NameRead}
    (h : dnsReadName frame msgBase pos buffer.bytes = some name) : name.Stays 256 := by
  obtain ⟨r, hread, hr⟩ := dnsReadName_stays frame msgBase pos buffer.bytes
  rw [h] at hread
  cases hread
  rwa [buffer.length_eq] at hr

theorem classifyDns_isSome (h : flow.Within frame) (udpPayload udpPayloadLen : Nat)
    (qname rrName : NameBuffer) :
    (classifyDns frame flow udpPayload udpPayloadLen qname rrName).isSome = true := by
  unfold classifyDns
  refine isSome_ite (fun _ => rfl) fun hheader => ?_
  refine isSome_bind (readBe16_isSome (by omega)) fun txnId _ => ?_
  refine isSome_bind (readBe16_isSome (by omega)) fun flags _ => ?_
  refine isSome_bind (readBe16_isSome (by omega)) fun qdcount _ => ?_
  refine isSome_bind (readBe16_isSome (by omega)) fun ancount _ => ?_
  refine isSome_ite (fun _ => rfl) fun _ => ?_
  refine isSome_bind (dnsReadName_isSome _ _ _) fun name hname => ?_
  refine isSome_ite (fun _ => rfl) fun hfound => ?_
  have hhost : (hostnameOf name.out).isSome = true :=
    hostnameOf_isSome (stays_of_dnsReadName hname) (by decide) (Bool.eq_true_of_not_eq_false hfound)
  refine isSome_ite (fun _ => rfl) fun hquestion => ?_
  refine isSome_bind (readBe16_isSome (by omega)) fun qtype _ => ?_
  refine isSome_ite (fun _ => ?_) fun _ => ?_
  · exact isSome_bind (netRingEvent_isSome h) fun _ _ => isSome_map hhost
  · refine isSome_bind (skipQuestions_isSome _ _ _) fun pos _ => ?_
    refine isSome_bind (firstAnswer_isSome _ _ _ _) fun answer _ => ?_
    exact isSome_bind (netRingEvent_isSome (h.withAnswer _)) fun _ _ => isSome_map hhost

theorem classifyTlsRecord_isSome (h : flow.Within frame) (payloadOff payloadLen : Nat) :
    (classifyTlsRecord frame flow payloadOff payloadLen).isSome = true := by
  unfold classifyTlsRecord
  refine isSome_ite (fun _ => rfl) fun hheader => ?_
  refine isSome_bind (byte_isSome (by omega)) fun contentType _ => ?_
  refine isSome_bind (byte_isSome (by omega)) fun versionMajor _ => ?_
  refine isSome_bind (byte_isSome (by omega)) fun versionMinor _ => ?_
  refine isSome_bind (readBe16_isSome (by omega)) fun recordLen _ => ?_
  refine isSome_ite (fun _ => rfl) fun _ => ?_
  refine isSome_ite (fun _ => rfl) fun _ => ?_
  refine isSome_bind ?_ fun handshakeType _ => isSome_map (netRingEvent_isSome h)
  exact isSome_ite (fun hbody => byte_isSome (by omega)) fun _ => rfl

theorem classifyTcp_isSome (h : flow.Within frame) (tcpOffset ipPayloadLen : Nat) :
    (classifyTcp frame flow tcpOffset ipPayloadLen).isSome = true := by
  unfold classifyTcp
  refine isSome_ite (fun _ => rfl) fun hheader => ?_
  refine isSome_bind (readBe16_isSome (by omega)) fun srcPort _ => ?_
  refine isSome_bind (readBe16_isSome (by omega)) fun dstPort _ => ?_
  refine isSome_bind (byte_isSome (by omega)) fun dataOffsetWord _ => ?_
  refine isSome_ite (fun _ => rfl) fun _ => ?_
  refine isSome_bind (byte_isSome (by omega)) fun flags _ => ?_
  refine isSome_bind (netRingEvent_isSome (h.withPorts _ _)) fun event _ => isSome_map ?_
  exact isSome_ite (fun _ => classifyTlsRecord_isSome (h.withPorts _ _) _ _) fun _ => rfl

/-! The frame's classifier, layer by layer. -/

theorem classifyUdp_isSome (h : flow.Within frame) (ipPayloadOff ipPayloadLen : Nat)
    (qname rrName : NameBuffer) :
    (classifyUdp frame flow ipPayloadOff ipPayloadLen qname rrName).isSome = true := by
  unfold classifyUdp
  refine isSome_ite (fun _ => rfl) fun hheader => ?_
  refine isSome_bind (readBe16_isSome (by omega)) fun srcPort _ => ?_
  refine isSome_bind (readBe16_isSome (by omega)) fun dstPort _ => ?_
  refine isSome_bind (readBe16_isSome (by omega)) fun udpLen _ => ?_
  refine isSome_ite (fun _ => classifyDhcp_isSome (h.withPorts _ _) _ _) fun _ => ?_
  refine isSome_ite (fun _ => classifyDns_isSome (h.withPorts _ _) _ _ _ _) fun _ => ?_
  exact isSome_map (netRingEvent_isSome (h.withPorts _ _))

theorem classifyArp_isSome (frame : List UInt8) (direction : UInt8) :
    (classifyArp frame direction).isSome = true := by
  unfold classifyArp
  refine isSome_ite (fun _ => rfl) fun hbody => ?_
  refine isSome_bind (readBe16_isSome (by omega)) fun opcode _ => ?_
  refine isSome_bind (readBe32_isSome (by omega)) fun senderIp _ => ?_
  refine isSome_bind (readBe32_isSome (by omega)) fun targetIp _ => ?_
  refine isSome_map (netRingEvent_isSome ⟨?_, ?_⟩)
  · show 14 + 8 + 5 < frame.length
    omega
  · show 14 + 18 + 5 < frame.length
    omega

/-- Each layer is read only where the frame has been found to hold it. -/
theorem netClassifyEthernetFrame_isSome (frame : List UInt8) (direction : UInt8)
    (qname rrName : NameBuffer) :
    (netClassifyEthernetFrame frame direction qname rrName).isSome = true := by
  unfold netClassifyEthernetFrame
  refine isSome_ite (fun _ => rfl) fun hframe => ?_
  refine isSome_bind (readBe16_isSome (by omega)) fun ethertype _ => ?_
  refine isSome_ite (fun _ => classifyArp_isSome frame direction) fun _ => ?_
  refine isSome_ite (fun _ => rfl) fun _ => ?_
  refine isSome_ite (fun _ => rfl) fun hip => ?_
  refine isSome_bind (byte_isSome (by omega)) fun first _ => ?_
  refine isSome_ite (fun _ => rfl) fun _ => ?_
  refine isSome_bind (byte_isSome (by omega)) fun protocol _ => ?_
  refine isSome_bind (readBe32_isSome (by omega)) fun srcIpv4 _ => ?_
  refine isSome_bind (readBe32_isSome (by omega)) fun dstIpv4 _ => ?_
  refine isSome_bind (readBe16_isSome (by omega)) fun ipTotalLen _ => ?_
  have hsrc : 6 + 5 < frame.length := by omega
  have hdst : 0 + 5 < frame.length := by omega
  refine isSome_ite (fun _ => classifyUdp_isSome ⟨hsrc, hdst⟩ _ _ _ _) fun _ => ?_
  exact isSome_ite (fun _ => classifyTcp_isSome ⟨hsrc, hdst⟩ _ _) fun _ => rfl

/-- The classifier and both sanitizers stay within the frame. The name reader jumps at most 20
times and leaves a zero in its buffer where it finds a name, which it does wherever a name is
encoded behind at most 20 pointers: its labels joined by points, and the position behind it. -/
theorem classifiers_stay :
    (∀ frame direction qname rrName,
      (netClassifyEthernetFrame frame direction qname rrName).isSome = true) ∧
    (∀ f len direction state, Checked.netSanitizeEthernetFrame f len direction state =
      some (netSanitizeEthernetFrame f len direction state)) ∧
    (∀ f len synthetic real, Checked.netDesanitizeEthernetFrameForReplay f len synthetic real =
      some (netDesanitizeEthernetFrameForReplay f len synthetic real)) ∧
    (∀ frame msgBase pos out, ∃ r, dnsReadName frame msgBase pos out = some r ∧
      r.out.length = out.length ∧ r.jumps ≤ 21 ∧
      (r.found = true → r.jumps ≤ 20 ∧ (0 < out.length → 0 ∈ r.out))) ∧
    ∀ frame msgBase pos labels stop pointers (out : List UInt8),
      EncodedName frame msgBase pos labels stop pointers → pointers ≤ 20 →
        ∃ out', dnsReadName frame msgBase pos out = some ⟨true, out', stop, pointers⟩ ∧
          HoldsName out.length (dottedName labels) out' := by
  refine ⟨netClassifyEthernetFrame_isSome, Checked.netSanitizeEthernetFrame_eq,
    Checked.netDesanitizeEthernetFrameForReplay_eq, fun frame msgBase pos out => ?_,
    fun _ _ _ _ _ _ out hname hpointers => dnsReadName_encoded hname out hpointers⟩
  obtain ⟨r, hread, hstays⟩ := dnsReadName_stays frame msgBase pos out
  exact ⟨r, hread, hstays.length, hstays.jumps, hstays.terminated⟩

end NdsRecomp.Net
