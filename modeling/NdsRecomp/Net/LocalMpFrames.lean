import Mathlib
import NdsRecomp.Cart.SecureArea

/-!
Local wireless between instances on one machine: the datagram a frame travels
in, the two bounded queues of the receiving side, and the loop that empties the
socket into them.
-/

namespace NdsRecomp.Net.LocalMp

def kMagic : UInt32 := 0x4946494E

def kMaxInstances : UInt32 := 16

def kHeaderBytes : Nat := 24

def kMaxFrameBytes : Nat := 0x948

def kQueueCapacity : Nat := 1024

/-! ### Words in a datagram -/

def readLe32 : List UInt8 → UInt32
  | a :: b :: c :: d :: _ =>
      a.toUInt32 ||| (b.toUInt32 <<< 8) ||| (c.toUInt32 <<< 16) ||| (d.toUInt32 <<< 24)
  | _ => 0

def readLe64 (p : List UInt8) : UInt64 :=
  (readLe32 p).toUInt64 ||| ((readLe32 (p.drop 4)).toUInt64 <<< 32)

def writeLe32 (value : UInt32) : List UInt8 :=
  [value.toUInt8, (value >>> 8).toUInt8, (value >>> 16).toUInt8, (value >>> 24).toUInt8]

def writeLe64 (value : UInt64) : List UInt8 :=
  writeLe32 value.toUInt32 ++ writeLe32 (value >>> 32).toUInt32

@[simp]
theorem writeLe32_length (value : UInt32) : (writeLe32 value).length = 4 := rfl

@[simp]
theorem writeLe64_length (value : UInt64) : (writeLe64 value).length = 8 := rfl

theorem writeLe32_bytes (value : UInt32) :
    value.toUInt8.toNat = value.toNat % 256 ∧
      (value >>> 8).toUInt8.toNat = value.toNat / 2 ^ 8 % 256 ∧
      (value >>> 16).toUInt8.toNat = value.toNat / 2 ^ 16 % 256 ∧
      (value >>> 24).toUInt8.toNat = value.toNat / 2 ^ 24 % 256 :=
  ⟨UInt32.toNat_toUInt8 value, Cart.shiftRight_byte_toNat (by decide : 8 ≤ 24) value,
    Cart.shiftRight_byte_toNat (by decide : 16 ≤ 24) value,
    Cart.shiftRight_byte_toNat (by decide : 24 ≤ 24) value⟩

@[simp]
theorem readLe32_writeLe32 (value : UInt32) (rest : List UInt8) :
    readLe32 (writeLe32 value ++ rest) = value := by
  obtain ⟨h₀, h₁, h₂, h₃⟩ := writeLe32_bytes value
  have hlt := value.toNat_lt
  apply UInt32.toNat_inj.mp
  change (_ ||| _ ||| _ ||| _ : UInt32).toNat = _
  rw [Cart.joined_toNat, h₀, h₁, h₂, h₃]
  omega

theorem writeLe32_readLe32 {p : List UInt8} (h : 4 ≤ p.length) :
    writeLe32 (readLe32 p) = p.take 4 := by
  match p, h with
  | a :: b :: c :: d :: rest, _ =>
      have hvalue : (readLe32 (a :: b :: c :: d :: rest)).toNat =
          a.toNat + 2 ^ 8 * b.toNat + 2 ^ 16 * c.toNat + 2 ^ 24 * d.toNat :=
        Cart.joined_toNat a b c d
      obtain ⟨h₀, h₁, h₂, h₃⟩ := writeLe32_bytes (readLe32 (a :: b :: c :: d :: rest))
      rw [hvalue] at h₀ h₁ h₂ h₃
      have ha := a.toNat_lt
      have hb := b.toNat_lt
      have hc := c.toNat_lt
      have hd := d.toNat_lt
      unfold writeLe32
      simp only [List.take_succ_cons, List.take_zero, List.cons.injEq, and_true,
        ← UInt8.toNat_inj, h₀, h₁, h₂, h₃]
      refine ⟨?_, ?_, ?_, ?_⟩ <;> omega

/-- Two words joined are their sum, and come apart again. -/
theorem joinedWords_toNat (low high : UInt32) :
    (low.toUInt64 ||| (high.toUInt64 <<< 32)).toNat = low.toNat + 2 ^ 32 * high.toNat := by
  have hlow := low.toNat_lt
  have hhigh := high.toNat_lt
  have hshift : (high.toUInt64 <<< 32).toNat = 2 ^ 32 * high.toNat := by
    rw [UInt64.toNat_shiftLeft, UInt32.toNat_toUInt64]
    change high.toNat <<< 32 % 2 ^ 64 = _
    rw [Nat.shiftLeft_eq, Nat.mul_comm]
    exact Nat.mod_eq_of_lt (by omega)
  rw [UInt64.toNat_or, hshift, UInt32.toNat_toUInt64, Nat.or_comm,
    ← Nat.two_pow_add_eq_or_of_lt hlow, Nat.add_comm]

theorem word64_split (value : UInt64) :
    value.toUInt32.toNat = value.toNat % 2 ^ 32 ∧
      (value >>> 32).toUInt32.toNat = value.toNat / 2 ^ 32 := by
  have hlt := value.toNat_lt
  refine ⟨UInt64.toNat_toUInt32 value, ?_⟩
  rw [UInt64.toNat_toUInt32, UInt64.toNat_shiftRight]
  change value.toNat >>> 32 % 2 ^ 32 = _
  rw [Nat.shiftRight_eq_div_pow]
  exact Nat.mod_eq_of_lt (by omega)

@[simp]
theorem readLe64_writeLe64 (value : UInt64) (rest : List UInt8) :
    readLe64 (writeLe64 value ++ rest) = value := by
  obtain ⟨hlow, hhigh⟩ := word64_split value
  have hdrop : (writeLe64 value ++ rest).drop 4 = writeLe32 (value >>> 32).toUInt32 ++ rest := rfl
  have hlt := value.toNat_lt
  apply UInt64.toNat_inj.mp
  unfold readLe64
  rw [hdrop, readLe32_writeLe32, writeLe64, List.append_assoc, readLe32_writeLe32,
    joinedWords_toNat, hlow, hhigh]
  omega

theorem writeLe64_readLe64 {p : List UInt8} (h : 8 ≤ p.length) :
    writeLe64 (readLe64 p) = p.take 8 := by
  obtain ⟨hlow, hhigh⟩ := word64_split (readLe64 p)
  have hvalue : (readLe64 p).toNat = (readLe32 p).toNat + 2 ^ 32 * (readLe32 (p.drop 4)).toNat :=
    joinedWords_toNat _ _
  have hlt := (readLe32 p).toNat_lt
  have hlt' := (readLe32 (p.drop 4)).toNat_lt
  have hfirst : (readLe64 p).toUInt32 = readLe32 p := by
    apply UInt32.toNat_inj.mp
    omega
  have hsecond : (readLe64 p >>> 32).toUInt32 = readLe32 (p.drop 4) := by
    apply UInt32.toNat_inj.mp
    omega
  unfold writeLe64
  rw [hfirst, hsecond, writeLe32_readLe32 (by omega), writeLe32_readLe32 (by simp; omega),
    ← List.take_add]

/-! ### Frames and datagrams -/

structure LocalMpFrame where
  sender : UInt32
  type : UInt32
  timestamp : UInt64
  payload : List UInt8
deriving DecidableEq

/-- The low half of the type word is the kind of a frame; replies are kind 2. -/
def LocalMpFrame.isReply (frame : LocalMpFrame) : Bool := frame.type &&& 0xFFFF == 2

/-- The datagram `SendGeneric` builds. -/
def encode (sender type : UInt32) (timestamp : UInt64) (payload : List UInt8) : List UInt8 :=
  writeLe32 kMagic ++ (writeLe32 sender ++ (writeLe32 type ++
    (writeLe32 (UInt32.ofNat payload.length) ++ (writeLe64 timestamp ++ payload))))

def LocalMpFrame.datagram (frame : LocalMpFrame) : List UInt8 :=
  encode frame.sender frame.type frame.timestamp frame.payload

/-- The tests `DrainSocket` makes on what it has received, and the frame it
reads. -/
def acceptDatagram (ownInstance : UInt32) (datagram : List UInt8) : Option LocalMpFrame :=
  if datagram.length < kHeaderBytes then none
  else if readLe32 datagram ≠ kMagic then none
  else
    let sender := readLe32 (datagram.drop 4)
    let type := readLe32 (datagram.drop 8)
    let len := readLe32 (datagram.drop 12)
    let timestamp := readLe64 (datagram.drop 16)
    if sender = ownInstance then none
    else if kMaxInstances ≤ sender then none
    else if kMaxFrameBytes < len.toNat then none
    else if kHeaderBytes + len.toNat ≠ datagram.length then none
    else some ⟨sender, type, timestamp, (datagram.drop kHeaderBytes).take len.toNat⟩

/-- What another instance may send. -/
structure Sendable (ownInstance : UInt32) (frame : LocalMpFrame) : Prop where
  other : frame.sender ≠ ownInstance
  inRange : frame.sender < kMaxInstances
  fits : frame.payload.length ≤ kMaxFrameBytes

theorem encode_length (sender type : UInt32) (timestamp : UInt64) (payload : List UInt8) :
    (encode sender type timestamp payload).length = kHeaderBytes + payload.length := by
  simp only [encode, List.length_append, writeLe32_length, writeLe64_length, kHeaderBytes]
  omega

theorem length_word_toNat {payload : List UInt8} (h : payload.length ≤ kMaxFrameBytes) :
    (UInt32.ofNat payload.length).toNat = payload.length := by
  unfold kMaxFrameBytes at h
  rw [UInt32.toNat_ofNat']
  omega

theorem acceptDatagram_datagram {ownInstance : UInt32} {frame : LocalMpFrame}
    (h : Sendable ownInstance frame) : acceptDatagram ownInstance frame.datagram = some frame := by
  obtain ⟨sender, type, timestamp, payload⟩ := frame
  obtain ⟨hother, hrange, hfits⟩ := h
  have hlen : (UInt32.ofNat payload.length).toNat = payload.length := length_word_toNat hfits
  have hlength := encode_length sender type timestamp payload
  unfold LocalMpFrame.datagram
  -- each field starts where the ones before it end
  have h4 : (encode sender type timestamp payload).drop 4 =
      writeLe32 sender ++ (writeLe32 type ++ (writeLe32 (UInt32.ofNat payload.length) ++
        (writeLe64 timestamp ++ payload))) := rfl
  have h8 : (encode sender type timestamp payload).drop 8 =
      writeLe32 type ++ (writeLe32 (UInt32.ofNat payload.length) ++
        (writeLe64 timestamp ++ payload)) := rfl
  have h12 : (encode sender type timestamp payload).drop 12 =
      writeLe32 (UInt32.ofNat payload.length) ++ (writeLe64 timestamp ++ payload) := rfl
  have h16 : (encode sender type timestamp payload).drop 16 = writeLe64 timestamp ++ payload := rfl
  have h24 : (encode sender type timestamp payload).drop kHeaderBytes = payload := rfl
  have hmagic : readLe32 (encode sender type timestamp payload) = kMagic := by
    unfold encode
    rw [readLe32_writeLe32]
  unfold acceptDatagram
  simp only [h4, h8, h12, h16, h24, hmagic, readLe32_writeLe32, readLe64_writeLe64, hlen, hlength,
    List.take_length]
  rw [if_neg (by omega), if_neg (not_not_intro rfl), if_neg hother,
    if_neg (UInt32.not_le.mpr hrange), if_neg (Nat.not_lt.mpr hfits), if_neg (not_not_intro rfl)]

/-- The header read field by field and the rest put together again. -/
theorem encode_of_fields {d : List UInt8} (hheader : kHeaderBytes ≤ d.length)
    (hmagic : readLe32 d = kMagic)
    (hlen : kHeaderBytes + (readLe32 (d.drop 12)).toNat = d.length) :
    encode (readLe32 (d.drop 4)) (readLe32 (d.drop 8)) (readLe64 (d.drop 16))
      (d.drop kHeaderBytes) = d := by
  have hword : UInt32.ofNat (d.drop kHeaderBytes).length = readLe32 (d.drop 12) := by
    rw [List.length_drop, ← hlen, Nat.add_sub_cancel_left, UInt32.ofNat_toNat]
  have hjoin (n k : Nat) : (d.drop n).take k ++ d.drop (n + k) = d.drop n := by
    rw [← List.drop_drop]
    exact List.take_append_drop k _
  unfold kHeaderBytes at *
  unfold encode
  rw [hword, ← hmagic, writeLe32_readLe32 (by omega), writeLe32_readLe32 (by simp; omega),
    writeLe32_readLe32 (by simp; omega), writeLe32_readLe32 (by simp; omega),
    writeLe64_readLe64 (by simp; omega), hjoin 16 8, hjoin 12 4, hjoin 8 4, hjoin 4 4]
  exact List.take_append_drop 4 d

/-- A datagram yields a frame exactly when it is that frame's encoding, sent by
another instance. -/
theorem acceptDatagram_eq_some {ownInstance : UInt32} {d : List UInt8} {frame : LocalMpFrame} :
    acceptDatagram ownInstance d = some frame ↔
      d = frame.datagram ∧ Sendable ownInstance frame := by
  constructor
  · intro h
    unfold acceptDatagram at h
    split at h
    · cases h
    next hheader =>
    split at h
    · cases h
    next hmagic =>
    dsimp only at h
    split at h
    · cases h
    next hother =>
    split at h
    · cases h
    next hrange =>
    split at h
    · cases h
    next hfits =>
    split at h
    · cases h
    next hlen =>
    have htake : (d.drop kHeaderBytes).take (readLe32 (d.drop 12)).toNat = d.drop kHeaderBytes := by
      apply List.take_of_length_le
      rw [List.length_drop]
      omega
    rw [htake] at h
    obtain rfl := Option.some.inj h
    refine ⟨(encode_of_fields (by omega) (not_not.mp hmagic) (by omega)).symm, hother,
      UInt32.not_le.mp hrange, ?_⟩
    rw [List.length_drop]
    omega
  · rintro ⟨rfl, hsendable⟩
    exact acceptDatagram_datagram hsendable

/-! ### The transport -/

/-- One answer of `recvfrom` on a socket that has something to say. -/
inductive SocketRead where
  | datagram (bytes : List UInt8)
  | error

/-- `Configure` enables an instance only if it has a port. -/
structure LocalMpTransport where
  enabled : Bool
  ownInstance : UInt32
  inRange : enabled = true → ownInstance < kMaxInstances
  /-- What the open socket will answer; `none` is `INVALID_SOCKET`. -/
  socket : Option (List SocketRead) := none
  packetQueue : List LocalMpFrame := []
  replyQueue : List LocalMpFrame := []

/-- `LocalMpFrameQueue::TryPush` -/
def tryPush (queue : List LocalMpFrame) (frame : LocalMpFrame) : List LocalMpFrame :=
  if kQueueCapacity ≤ queue.length then queue else queue ++ [frame]

namespace LocalMpTransport

def configure (enabled : Bool) (ownInstance : UInt32) : LocalMpTransport where
  enabled := enabled && decide (ownInstance < kMaxInstances)
  ownInstance := ownInstance
  inRange := fun h => of_decide_eq_true (Bool.and_eq_true_iff.mp h).2

/-- `SendGeneric`: the datagram, addressed to every other instance. `data` is
the memory behind the caller's pointer, `none` a null pointer. -/
def sendGeneric (t : LocalMpTransport) (type : UInt32) (data : Option (Nat → UInt8)) (len : Int)
    (timestamp : UInt64) : List (UInt32 × List UInt8) :=
  if t.enabled = false then []
  else if t.socket.isNone = true then []
  else if len < 0 ∨ kMaxFrameBytes < len.toNat then []
  else if 0 < len ∧ data.isNone = true then []
  else
    let payload := (List.range len.toNat).map fun i => data.elim 0 fun p => p i
    (((List.range kMaxInstances.toNat).map UInt32.ofNat).filter fun i => i != t.ownInstance).map
      fun i => (i, encode t.ownInstance type timestamp payload)

/-- A received datagram that passes the tests goes to the queue of its kind. -/
def receive (t : LocalMpTransport) (datagram : List UInt8) : LocalMpTransport :=
  match acceptDatagram t.ownInstance datagram with
  | none => t
  | some frame =>
      if frame.isReply then { t with replyQueue := tryPush t.replyQueue frame }
      else { t with packetQueue := tryPush t.packetQueue frame }

/-- The loop of `DrainSocket`. An error, which is also what a datagram longer
than the buffer gives, ends it with the rest still in the socket. -/
def drainLoop (t : LocalMpTransport) : List SocketRead → LocalMpTransport
  | [] => { t with socket := some [] }
  | .error :: rest => { t with socket := some rest }
  | .datagram bytes :: rest =>
      if kHeaderBytes + kMaxFrameBytes < bytes.length then { t with socket := some rest }
      else (t.receive bytes).drainLoop rest

def drainSocket (t : LocalMpTransport) : LocalMpTransport :=
  if t.enabled = false then t
  else
    match t.socket with
    | none => t
    | some reads => t.drainLoop reads

/-- The datagrams `DrainSocket` gets to see. -/
def delivered : List SocketRead → List (List UInt8)
  | .datagram bytes :: rest =>
      if kHeaderBytes + kMaxFrameBytes < bytes.length then [] else bytes :: delivered rest
  | _ => []

def pendingDatagrams (t : LocalMpTransport) : List (List UInt8) :=
  if t.enabled then t.socket.elim [] delivered else []

/-- The frames among them. -/
def pendingFrames (t : LocalMpTransport) : List LocalMpFrame :=
  t.pendingDatagrams.filterMap (acceptDatagram t.ownInstance)

end LocalMpTransport

/-! ### What the queues hold afterwards -/

def pushAll (queue frames : List LocalMpFrame) : List LocalMpFrame := frames.foldl tryPush queue

/-- A queue takes frames in order until it is full. -/
theorem pushAll_eq (queue frames : List LocalMpFrame) :
    pushAll queue frames = queue ++ frames.take (kQueueCapacity - queue.length) := by
  induction frames generalizing queue with
  | nil => simp [pushAll]
  | cons frame frames ih =>
      have hstep : pushAll queue (frame :: frames) = pushAll (tryPush queue frame) frames := rfl
      rw [hstep, ih]
      unfold tryPush
      split
      · next hfull =>
          have hnone : kQueueCapacity - queue.length = 0 := by omega
          simp [hnone]
      · next hroom =>
          have hsucc : kQueueCapacity - queue.length =
              kQueueCapacity - (queue ++ [frame]).length + 1 := by
            rw [List.length_append, List.length_singleton]
            omega
          rw [hsucc, List.take_succ_cons, List.append_assoc, List.singleton_append]

/-- Nothing is dropped exactly when there is room. -/
theorem pushAll_eq_append_iff {queue frames : List LocalMpFrame} :
    pushAll queue frames = queue ++ frames ↔ frames.length ≤ kQueueCapacity - queue.length := by
  rw [pushAll_eq, List.append_cancel_left_eq, List.take_eq_self_iff]

namespace LocalMpTransport

theorem receive_queues (t : LocalMpTransport) (datagram : List UInt8) :
    (t.receive datagram).enabled = t.enabled ∧
      (t.receive datagram).ownInstance = t.ownInstance ∧
      (t.receive datagram).replyQueue = pushAll t.replyQueue
        ((acceptDatagram t.ownInstance datagram).toList.filter LocalMpFrame.isReply) ∧
      (t.receive datagram).packetQueue = pushAll t.packetQueue
        ((acceptDatagram t.ownInstance datagram).toList.filter fun f => !f.isReply) := by
  unfold receive
  cases acceptDatagram t.ownInstance datagram with
  | none => exact ⟨rfl, rfl, rfl, rfl⟩
  | some frame =>
      cases hreply : frame.isReply with
      | false => simp [hreply, pushAll]
      | true => simp [hreply, pushAll]

theorem drainLoop_queues (t : LocalMpTransport) (reads : List SocketRead) :
    (t.drainLoop reads).replyQueue = pushAll t.replyQueue
        (((delivered reads).filterMap (acceptDatagram t.ownInstance)).filter
          LocalMpFrame.isReply) ∧
      (t.drainLoop reads).packetQueue = pushAll t.packetQueue
        (((delivered reads).filterMap (acceptDatagram t.ownInstance)).filter
          fun f => !f.isReply) := by
  induction reads generalizing t with
  | nil => exact ⟨rfl, rfl⟩
  | cons read rest ih =>
      cases read with
      | error => exact ⟨rfl, rfl⟩
      | datagram bytes =>
          unfold drainLoop delivered
          split
          · exact ⟨rfl, rfl⟩
          · obtain ⟨-, hinstance, hreplies, hpackets⟩ := receive_queues t bytes
            have hsplit (p : LocalMpFrame → Bool) (queue : List LocalMpFrame) :
                pushAll (pushAll queue ((acceptDatagram t.ownInstance bytes).toList.filter p))
                    (((delivered rest).filterMap (acceptDatagram t.ownInstance)).filter p) =
                  pushAll queue (((bytes :: delivered rest).filterMap
                    (acceptDatagram t.ownInstance)).filter p) := by
              cases haccept : acceptDatagram t.ownInstance bytes with
              | none => simp [haccept, pushAll]
              | some frame =>
                  rw [List.filterMap_cons_some haccept, Option.toList_some]
                  unfold pushAll
                  rw [← List.foldl_append, ← List.filter_append, List.singleton_append]
            obtain ⟨hr, hp⟩ := ih (t.receive bytes)
            rw [hinstance] at hr hp
            exact ⟨by rw [hr, hreplies, hsplit], by rw [hp, hpackets, hsplit]⟩

theorem drainSocket_queues (t : LocalMpTransport) :
    t.drainSocket.replyQueue =
        pushAll t.replyQueue (t.pendingFrames.filter LocalMpFrame.isReply) ∧
      t.drainSocket.packetQueue =
        pushAll t.packetQueue (t.pendingFrames.filter fun f => !f.isReply) := by
  unfold drainSocket pendingFrames pendingDatagrams
  cases t.enabled with
  | false => exact ⟨rfl, rfl⟩
  | true =>
      cases t.socket with
      | none => exact ⟨rfl, rfl⟩
      | some reads => exact drainLoop_queues t reads

/-- Every frame that has come in is queued behind what was there. -/
structure AllQueued (t : LocalMpTransport) : Prop where
  replies : t.drainSocket.replyQueue =
    t.replyQueue ++ t.pendingFrames.filter LocalMpFrame.isReply
  packets : t.drainSocket.packetQueue =
    t.packetQueue ++ t.pendingFrames.filter fun f => !f.isReply

/-- Both queues can take what has come in. -/
structure HasRoom (t : LocalMpTransport) : Prop where
  replies : (t.pendingFrames.filter LocalMpFrame.isReply).length ≤
    kQueueCapacity - t.replyQueue.length
  packets : (t.pendingFrames.filter fun f => !f.isReply).length ≤
    kQueueCapacity - t.packetQueue.length

theorem allQueued_iff (t : LocalMpTransport) : t.AllQueued ↔ t.HasRoom := by
  obtain ⟨hreplies, hpackets⟩ := t.drainSocket_queues
  constructor
  · rintro ⟨hr, hp⟩
    exact ⟨pushAll_eq_append_iff.mp (hreplies.symm.trans hr),
      pushAll_eq_append_iff.mp (hpackets.symm.trans hp)⟩
  · rintro ⟨hr, hp⟩
    exact ⟨hreplies.trans (pushAll_eq_append_iff.mpr hr),
      hpackets.trans (pushAll_eq_append_iff.mpr hp)⟩

/-- A frame that is sent reaches every other instance as it was, and fits the
buffer it is received in. -/
theorem sendGeneric_accepted {t : LocalMpTransport} {type : UInt32}
    {data : Option (Nat → UInt8)} {len : Int} {timestamp : UInt64} {target : UInt32}
    {datagram : List UInt8} (h : (target, datagram) ∈ t.sendGeneric type data len timestamp) :
    acceptDatagram target datagram = some
        ⟨t.ownInstance, type, timestamp,
          (List.range len.toNat).map fun i => data.elim 0 fun p => p i⟩ ∧
      datagram.length ≤ kHeaderBytes + kMaxFrameBytes := by
  unfold sendGeneric at h
  split at h
  · cases h
  next henabled =>
  split at h
  · cases h
  split at h
  · cases h
  next hlen =>
  split at h
  · cases h
  obtain ⟨i, hi, hsent⟩ := List.mem_map.mp h
  obtain ⟨-, hother⟩ := List.mem_filter.mp hi
  obtain ⟨rfl, rfl⟩ := Prod.mk.inj hsent
  have hpayload : ((List.range len.toNat).map fun i => data.elim 0 fun p => p i).length ≤
      kMaxFrameBytes := by
    rw [List.length_map, List.length_range]
    omega
  generalize ((List.range len.toNat).map fun i => data.elim 0 fun p => p i) = payload at hpayload ⊢
  have hsendable : Sendable i ⟨t.ownInstance, type, timestamp, payload⟩ :=
    ⟨(bne_iff_ne.mp hother).symm, t.inRange (by simpa using henabled), hpayload⟩
  have haccept := acceptDatagram_datagram hsendable
  unfold LocalMpFrame.datagram at haccept
  refine ⟨haccept, ?_⟩
  rw [encode_length]
  omega

/-- What is no other instance's encoding changes nothing. -/
theorem receive_of_not_encoding {t : LocalMpTransport} {datagram : List UInt8}
    (h : ∀ frame, Sendable t.ownInstance frame → datagram ≠ frame.datagram) :
    t.receive datagram = t := by
  unfold receive
  cases haccept : acceptDatagram t.ownInstance datagram with
  | none => rfl
  | some frame =>
      obtain ⟨hdatagram, hsendable⟩ := acceptDatagram_eq_some.mp haccept
      exact absurd hdatagram (h frame hsendable)

end LocalMpTransport

end NdsRecomp.Net.LocalMp
