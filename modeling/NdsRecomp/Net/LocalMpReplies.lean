import Mathlib
import NdsRecomp.Net.LocalMpFrames

/-!
Collecting the replies of a multiplayer command. The replies go to a buffer of
1024-byte slots, one for each association id from 1 to 15, while a frame may
carry more than a slot holds.
-/

namespace NdsRecomp.Net.LocalMp

/-- `MPClientReplies` is cut into slots of this size. -/
def kReplySlotBytes : Nat := 1024

/-- The upper half of the type word. -/
def LocalMpFrame.aid (frame : LocalMpFrame) : UInt16 := (frame.type >>> 16).toUInt16

/-- `1u << aid` as sixteen bits. -/
def aidBit (aid : UInt16) : UInt16 := UInt16.ofNat (2 ^ aid.toNat)

/-- `frame.timestamp + 32u < timestamp` -/
def LocalMpFrame.stale (frame : LocalMpFrame) (timestamp : UInt64) : Bool :=
  decide (frame.timestamp + 32 < timestamp)

/-- `memcpy(&data[at], bytes, size)` -/
def copyTo (data : Nat → UInt8) (start : Nat) (bytes : List UInt8) : Nat → UInt8 := fun a =>
  if start ≤ a ∧ a < start + bytes.length then bytes.getD (a - start) 0 else data a

/-- `(aid - 1u) * 1024u` -/
def slotStart (aid : UInt16) : Nat := (aid.toNat - 1) * kReplySlotBytes

/-- A call of `RecvReplies` while it runs. `popped` keeps the frames taken from
the queue so far. -/
structure RecvReplies where
  transport : LocalMpTransport
  data : Nat → UInt8
  received : UInt16 := 0
  popped : List LocalMpFrame := []
  returned : Bool := false

/-- What the outside does in one round of the loop: the socket's new answers
before it is drained, and, should the queue be empty, whether the wait for more
ends before the deadline. -/
structure Round where
  arrivals : List SocketRead
  readable : Bool

def LocalMpTransport.arrive (t : LocalMpTransport) (arrivals : List SocketRead) :
    LocalMpTransport :=
  { t with socket := t.socket.map fun reads => reads ++ arrivals }

namespace RecvReplies

/-- The rest of the loop's body, for a frame that has been popped. -/
def takeReply (timestamp : UInt64) (aidmask : UInt16) (s : RecvReplies) (frame : LocalMpFrame) :
    RecvReplies :=
  if frame.stale timestamp then s
  else if frame.aid = 0 ∨ 15 < frame.aid then s
  else if aidmask &&& aidBit frame.aid = 0 then s
  else
    let received := s.received ||| aidBit frame.aid
    { s with
      data := copyTo s.data (slotStart frame.aid) frame.payload
      received := received
      returned := received &&& aidmask == aidmask }

def round (timestamp : UInt64) (aidmask : UInt16) (s : RecvReplies) (r : Round) : RecvReplies :=
  if s.returned then s
  else
    let t := (s.transport.arrive r.arrivals).drainSocket
    match t.replyQueue with
    | [] => { s with transport := t, returned := !r.readable }
    | frame :: queue =>
        takeReply timestamp aidmask
          { s with transport := { t with replyQueue := queue }, popped := s.popped ++ [frame] } frame

end RecvReplies

def recvReplies (t : LocalMpTransport) (data : Nat → UInt8) (timestamp : UInt64)
    (aidmask : UInt16) (rounds : List Round) : RecvReplies :=
  rounds.foldl (RecvReplies.round timestamp aidmask) { transport := t, data := data }

/-! ### Bits of the mask -/

def hasAid (mask : UInt16) (aid : UInt16) : Prop := mask.toNat.testBit aid.toNat = true

theorem aidBit_toNat {aid : UInt16} (h : aid ≤ 15) : (aidBit aid).toNat = 2 ^ aid.toNat := by
  have hle : aid.toNat ≤ 15 := UInt16.le_iff_toNat_le.mp h
  have hpow : 2 ^ aid.toNat ≤ 2 ^ 15 := Nat.pow_le_pow_right (by decide) hle
  unfold aidBit
  rw [UInt16.toNat_ofNat']
  exact Nat.mod_eq_of_lt (by omega)

theorem hasAid_or {mask aid b : UInt16} (h : aid ≤ 15) :
    hasAid (mask ||| aidBit aid) b ↔ hasAid mask b ∨ aid = b := by
  unfold hasAid
  rw [UInt16.toNat_or, aidBit_toNat h, Nat.testBit_or, Nat.testBit_two_pow, Bool.or_eq_true,
    decide_eq_true_eq, UInt16.toNat_inj]

theorem and_aidBit_eq_zero {mask aid : UInt16} (h : aid ≤ 15) :
    mask &&& aidBit aid = 0 ↔ ¬ hasAid mask aid := by
  unfold hasAid
  rw [← UInt16.toNat_inj, UInt16.toNat_and, aidBit_toNat h, Nat.and_two_pow]
  cases mask.toNat.testBit aid.toNat <;> simp

/-! ### The replies a call takes -/

/-- A reply that is in time, from an association id that is asked for. -/
structure Accepted (timestamp : UInt64) (aidmask : UInt16) (frame : LocalMpFrame) : Prop where
  fresh : frame.stale timestamp = false
  pos : frame.aid ≠ 0
  le : frame.aid ≤ 15
  asked : hasAid aidmask frame.aid

instance (timestamp : UInt64) (aidmask : UInt16) (frame : LocalMpFrame) :
    Decidable (Accepted timestamp aidmask frame) :=
  decidable_of_iff (frame.stale timestamp = false ∧ frame.aid ≠ 0 ∧ frame.aid ≤ 15 ∧
      aidmask.toNat.testBit frame.aid.toNat = true)
    ⟨fun h => ⟨h.1, h.2.1, h.2.2.1, h.2.2.2⟩, fun h => ⟨h.fresh, h.pos, h.le, h.asked⟩⟩

/-- The accepted replies of a call, in order. -/
def RecvReplies.accepted (s : RecvReplies) (timestamp : UInt64) (aidmask : UInt16) :
    List LocalMpFrame :=
  s.popped.filter fun frame => decide (Accepted timestamp aidmask frame)

/-- The buffer and the mask after some replies. -/
def stored (data : Nat → UInt8) (frames : List LocalMpFrame) : Nat → UInt8 :=
  frames.foldl (fun data frame => copyTo data (slotStart frame.aid) frame.payload) data

def reported (frames : List LocalMpFrame) : UInt16 :=
  frames.foldl (fun mask frame => mask ||| aidBit frame.aid) 0

theorem takeReply_eq (timestamp : UInt64) (aidmask : UInt16) (s : RecvReplies)
    (frame : LocalMpFrame) :
    RecvReplies.takeReply timestamp aidmask s frame =
      if Accepted timestamp aidmask frame then
        { s with
          data := copyTo s.data (slotStart frame.aid) frame.payload
          received := s.received ||| aidBit frame.aid
          returned := (s.received ||| aidBit frame.aid) &&& aidmask == aidmask }
      else s := by
  unfold RecvReplies.takeReply
  split
  · next hstale => rw [if_neg fun h => by simp [h.fresh] at hstale]
  split
  · next hrange =>
      rw [if_neg]
      intro h
      rcases hrange with hzero | hlarge
      · exact h.pos hzero
      · exact UInt16.not_le.mpr hlarge h.le
  next hfresh hrange =>
  have hle : frame.aid ≤ 15 := UInt16.not_lt.mp fun h => hrange (Or.inr h)
  split
  · next hmask => rw [if_neg fun h => (and_aidBit_eq_zero hle).mp hmask h.asked]
  · next hmask =>
      rw [if_pos]
      exact ⟨by simpa using hfresh, fun h => hrange (Or.inl h), hle,
        not_not.mp fun h => hmask ((and_aidBit_eq_zero hle).mpr h)⟩

/-- The buffer and the mask are what the accepted replies make of them. -/
def RecvReplies.Tracks (s : RecvReplies) (timestamp : UInt64) (aidmask : UInt16)
    (data : Nat → UInt8) : Prop :=
  s.data = stored data (s.accepted timestamp aidmask) ∧
    s.received = reported (s.accepted timestamp aidmask)

theorem round_tracks {timestamp : UInt64} {aidmask : UInt16} {data : Nat → UInt8}
    {s : RecvReplies} (h : s.Tracks timestamp aidmask data) (r : Round) :
    (RecvReplies.round timestamp aidmask s r).Tracks timestamp aidmask data := by
  unfold RecvReplies.round
  split
  · exact h
  dsimp only
  split
  · exact h
  · next frame queue _ =>
      rw [takeReply_eq]
      obtain ⟨hdata, hreceived⟩ := h
      split
      · next haccepted =>
          have hmore : (s.popped ++ [frame]).filter
              (fun frame => decide (Accepted timestamp aidmask frame)) =
              s.accepted timestamp aidmask ++ [frame] := by
            rw [List.filter_append]
            simp [RecvReplies.accepted, haccepted]
          constructor
          · change copyTo s.data _ _ = stored data (List.filter _ (s.popped ++ [frame]))
            rw [hmore, hdata]
            simp [stored]
          · change s.received ||| _ = reported (List.filter _ (s.popped ++ [frame]))
            rw [hmore, hreceived]
            simp [reported]
      · next haccepted =>
          have hsame : (s.popped ++ [frame]).filter
              (fun frame => decide (Accepted timestamp aidmask frame)) =
              s.accepted timestamp aidmask := by
            rw [List.filter_append]
            simp [RecvReplies.accepted, haccepted]
          constructor
          · change s.data = stored data (List.filter _ (s.popped ++ [frame]))
            rw [hsame, hdata]
          · change s.received = reported (List.filter _ (s.popped ++ [frame]))
            rw [hsame, hreceived]

theorem recvReplies_tracks (t : LocalMpTransport) (data : Nat → UInt8) (timestamp : UInt64)
    (aidmask : UInt16) (rounds : List Round) :
    (recvReplies t data timestamp aidmask rounds).Tracks timestamp aidmask data := by
  suffices hrun : ∀ s : RecvReplies, s.Tracks timestamp aidmask data →
      (rounds.foldl (RecvReplies.round timestamp aidmask) s).Tracks timestamp aidmask data from
    hrun _ ⟨rfl, rfl⟩
  induction rounds with
  | nil => exact fun s h => h
  | cons r rounds ih => exact fun s h => ih _ (round_tracks h r)

/-! ### Slots -/

def InSlot (aid : UInt16) (a : Nat) : Prop :=
  slotStart aid ≤ a ∧ a < slotStart aid + kReplySlotBytes

/-- The bytes the copy of a reply writes. -/
def Writes (frame : LocalMpFrame) (a : Nat) : Prop :=
  slotStart frame.aid ≤ a ∧ a < slotStart frame.aid + frame.payload.length

def FitsSlot (frame : LocalMpFrame) : Prop := frame.payload.length ≤ kReplySlotBytes

theorem fitsSlot_iff {frame : LocalMpFrame} :
    FitsSlot frame ↔ ∀ a, Writes frame a → InSlot frame.aid a := by
  unfold FitsSlot Writes InSlot
  constructor
  · rintro h a ⟨hlow, hhigh⟩
    exact ⟨hlow, by omega⟩
  · intro h
    by_contra hlong
    have hlast := h (slotStart frame.aid + kReplySlotBytes) ⟨by omega, by omega⟩
    omega

/-- Slots of different ids have no byte in common. -/
theorem inSlot_unique {aid b : UInt16} {a : Nat} (haid : aid ≠ 0) (hb : b ≠ 0)
    (ha : InSlot aid a) (hba : InSlot b a) : aid = b := by
  have hpos : aid.toNat ≠ 0 := fun h => haid (UInt16.toNat_inj.mp h)
  have hpos' : b.toNat ≠ 0 := fun h => hb (UInt16.toNat_inj.mp h)
  unfold InSlot slotStart kReplySlotBytes at ha hba
  apply UInt16.toNat_inj.mp
  omega

theorem copyTo_of_not_writes {data : Nat → UInt8} {frame : LocalMpFrame} {a : Nat}
    (h : ¬ Writes frame a) : copyTo data (slotStart frame.aid) frame.payload a = data a :=
  if_neg h

theorem copyTo_payload (data : Nat → UInt8) (start : Nat) (bytes : List UInt8) {i : Nat}
    (hi : i < bytes.length) : copyTo data start bytes (start + i) = bytes[i] := by
  unfold copyTo
  rw [if_pos ⟨by omega, by omega⟩, Nat.add_sub_cancel_left, List.getD_eq_getElem _ _ hi]

theorem stored_append (data : Nat → UInt8) (frames : List LocalMpFrame) (frame : LocalMpFrame) :
    stored data (frames ++ [frame]) =
      copyTo (stored data frames) (slotStart frame.aid) frame.payload := by
  simp [stored]

theorem reported_append (frames : List LocalMpFrame) (frame : LocalMpFrame) :
    reported (frames ++ [frame]) = reported frames ||| aidBit frame.aid := by
  simp [reported]

/-- Bytes no reply writes stay. -/
theorem stored_of_not_writes {data : Nat → UInt8} {frames : List LocalMpFrame} {a : Nat}
    (h : ∀ frame ∈ frames, ¬ Writes frame a) : stored data frames a = data a := by
  induction frames using List.reverseRecOn with
  | nil => rfl
  | append_singleton frames frame ih =>
      rw [stored_append, copyTo_of_not_writes (h frame (by simp))]
      exact ih fun f hf => h f (by simp [hf])

theorem hasAid_reported {frames : List LocalMpFrame} (hle : ∀ frame ∈ frames, frame.aid ≤ 15)
    {aid : UInt16} : hasAid (reported frames) aid ↔ ∃ frame ∈ frames, frame.aid = aid := by
  induction frames using List.reverseRecOn with
  | nil => simp [reported, hasAid]
  | append_singleton frames frame ih =>
      rw [reported_append, hasAid_or (hle frame (by simp)), ih fun f hf => hle f (by simp [hf])]
      constructor
      · rintro (⟨f, hf, rfl⟩ | rfl)
        · exact ⟨f, by simp [hf], rfl⟩
        · exact ⟨frame, by simp, rfl⟩
      · rintro ⟨f, hf, rfl⟩
        rcases List.mem_append.mp hf with hf | hf
        · exact Or.inl ⟨f, hf, rfl⟩
        · exact Or.inr (by rw [List.mem_singleton.mp hf])

/-- The last of the replies from one id. -/
def lastReply (frames : List LocalMpFrame) (aid : UInt16) : Option LocalMpFrame :=
  (frames.filter fun frame => frame.aid == aid).getLast?

/-- A slot holds the last reply of its id, when no reply reaches past its own
slot. -/
theorem stored_lastReply {data : Nat → UInt8} {frames : List LocalMpFrame}
    (hpos : ∀ frame ∈ frames, frame.aid ≠ 0) (hfits : ∀ frame ∈ frames, FitsSlot frame)
    {aid : UInt16} {frame : LocalMpFrame} (hlast : lastReply frames aid = some frame) {i : Nat}
    (hi : i < frame.payload.length) :
    stored data frames (slotStart aid + i) = frame.payload[i] := by
  induction frames using List.reverseRecOn with
  | nil => cases hlast
  | append_singleton frames next ih =>
      rw [stored_append]
      unfold lastReply at hlast
      rw [List.filter_append] at hlast
      by_cases hnext : next.aid = aid
      · -- the reply just stored is the last of this id
        have hone : [next].filter (fun frame => frame.aid == aid) = [next] := by simp [hnext]
        rw [hone, List.getLast?_concat] at hlast
        obtain rfl := Option.some.inj hlast
        rw [← hnext]
        exact copyTo_payload _ _ _ hi
      · have hnone : [next].filter (fun frame => frame.aid == aid) = [] := by simp [hnext]
        rw [hnone, List.append_nil] at hlast
        obtain ⟨hmem, haid⟩ := List.mem_filter.mp (List.mem_of_getLast? hlast)
        have haid : frame.aid = aid := beq_iff_eq.mp haid
        have hslot : InSlot aid (slotStart aid + i) := by
          have hfit := hfits frame (by simp [hmem])
          unfold FitsSlot at hfit
          exact ⟨by omega, by omega⟩
        have hother : ¬ Writes next (slotStart aid + i) := by
          intro hwrites
          have hin := fitsSlot_iff.mp (hfits next (by simp)) _ hwrites
          exact hnext (inSlot_unique (hpos next (by simp))
            (haid ▸ hpos frame (by simp [hmem])) hin hslot)
        rw [copyTo_of_not_writes hother]
        exact ih (fun f hf => hpos f (by simp [hf])) (fun f hf => hfits f (by simp [hf])) hlast

theorem exists_lastReply {frames : List LocalMpFrame} {aid : UInt16}
    (h : ∃ frame ∈ frames, frame.aid = aid) :
    ∃ frame, lastReply frames aid = some frame ∧ frame.aid = aid := by
  obtain ⟨frame, hframe, haid⟩ := h
  have hmem : frame ∈ frames.filter fun frame => frame.aid == aid :=
    List.mem_filter.mpr ⟨hframe, beq_iff_eq.mpr haid⟩
  have hne : lastReply frames aid ≠ none := by
    unfold lastReply
    rw [Ne, List.getLast?_eq_none_iff]
    exact List.ne_nil_of_mem hmem
  obtain ⟨last, hlast⟩ := Option.ne_none_iff_exists'.mp hne
  exact ⟨last, hlast, beq_iff_eq.mp (List.mem_filter.mp (List.mem_of_getLast? hlast)).2⟩

/-! ### Isolation and transport -/

/-- Replies stay in the slots of their own ids, which are reported and were
asked for, and a reported slot begins with the last reply of its id. -/
structure RepliesIsolated (s : RecvReplies) (data : Nat → UInt8) (timestamp : UInt64)
    (aidmask : UInt16) : Prop where
  writes : ∀ frame ∈ s.accepted timestamp aidmask, ∀ a, Writes frame a →
    InSlot frame.aid a ∧ hasAid s.received frame.aid
  kept : ∀ a, (∀ aid, hasAid s.received aid → ¬ InSlot aid a) → s.data a = data a
  subset : ∀ aid, hasAid s.received aid → hasAid aidmask aid
  last : ∀ aid, hasAid s.received aid →
    ∃ frame, lastReply (s.accepted timestamp aidmask) aid = some frame ∧ frame.aid = aid ∧
      ∀ (i : Nat) (hi : i < frame.payload.length), s.data (slotStart aid + i) = frame.payload[i]

theorem RecvReplies.accepted_spec {s : RecvReplies} {timestamp : UInt64} {aidmask : UInt16}
    {frame : LocalMpFrame} (h : frame ∈ s.accepted timestamp aidmask) :
    Accepted timestamp aidmask frame :=
  of_decide_eq_true (List.mem_filter.mp h).2

theorem RecvReplies.Tracks.isolated_iff {s : RecvReplies} {data : Nat → UInt8}
    {timestamp : UInt64} {aidmask : UInt16} (h : s.Tracks timestamp aidmask data) :
    RepliesIsolated s data timestamp aidmask ↔
      ∀ frame ∈ s.accepted timestamp aidmask, FitsSlot frame := by
  obtain ⟨hdata, hreceived⟩ := h
  have hreported (aid : UInt16) : hasAid s.received aid ↔
      ∃ frame ∈ s.accepted timestamp aidmask, frame.aid = aid := by
    rw [hreceived]
    exact hasAid_reported fun frame hframe => (RecvReplies.accepted_spec hframe).le
  constructor
  · intro hisolated frame hframe
    exact fitsSlot_iff.mpr fun a ha => (hisolated.writes frame hframe a ha).1
  · intro hfits
    refine ⟨fun frame hframe a ha => ?_, fun a ha => ?_, fun aid haid => ?_, fun aid haid => ?_⟩
    · exact ⟨fitsSlot_iff.mp (hfits frame hframe) a ha, (hreported _).mpr ⟨frame, hframe, rfl⟩⟩
    · rw [hdata]
      apply stored_of_not_writes
      intro frame hframe hwrites
      exact ha frame.aid ((hreported _).mpr ⟨frame, hframe, rfl⟩)
        (fitsSlot_iff.mp (hfits frame hframe) a hwrites)
    · obtain ⟨frame, hframe, rfl⟩ := (hreported aid).mp haid
      exact (RecvReplies.accepted_spec hframe).asked
    · obtain ⟨frame, hlast, hframe⟩ := exists_lastReply ((hreported aid).mp haid)
      refine ⟨frame, hlast, hframe, fun i hi => ?_⟩
      rw [hdata]
      exact stored_lastReply (fun f hf => (RecvReplies.accepted_spec hf).pos) hfits hlast hi

/-- Replies are isolated exactly when each accepted one fits its slot, and
frames arrive as they were sent exactly when the queues have room. -/
theorem localMp_exact (t : LocalMpTransport) (data : Nat → UInt8) (timestamp : UInt64)
    (aidmask : UInt16) (rounds : List Round) :
    (RepliesIsolated (recvReplies t data timestamp aidmask rounds) data timestamp aidmask ↔
      ∀ frame ∈ (recvReplies t data timestamp aidmask rounds).accepted timestamp aidmask,
        FitsSlot frame) ∧
    (∀ t : LocalMpTransport, t.AllQueued ↔ t.HasRoom) ∧
    (∀ (t receiver : LocalMpTransport) (type : UInt32) (data : Option (Nat → UInt8)) (len : Int)
        (timestamp : UInt64) (datagram : List UInt8),
      (receiver.ownInstance, datagram) ∈ t.sendGeneric type data len timestamp →
      datagram.length ≤ kHeaderBytes + kMaxFrameBytes ∧
        (datagram ∈ receiver.pendingDatagrams →
          ⟨t.ownInstance, type, timestamp,
            (List.range len.toNat).map fun i => data.elim 0 fun p => p i⟩ ∈
            receiver.pendingFrames)) ∧
    (∀ (ownInstance : UInt32) (d : List UInt8) (frame : LocalMpFrame),
      acceptDatagram ownInstance d = some frame ↔
        d = frame.datagram ∧ Sendable ownInstance frame) ∧
    (∀ (t : LocalMpTransport) (d : List UInt8),
      (∀ frame, Sendable t.ownInstance frame → d ≠ frame.datagram) → t.receive d = t) := by
  refine ⟨?_, LocalMpTransport.allQueued_iff,
    fun t receiver type data len timestamp datagram hsent => ?_,
    fun ownInstance d frame => acceptDatagram_eq_some,
    fun t d => LocalMpTransport.receive_of_not_encoding⟩
  · exact (recvReplies_tracks t data timestamp aidmask rounds).isolated_iff
  · obtain ⟨haccept, hlength⟩ := LocalMpTransport.sendGeneric_accepted hsent
    exact ⟨hlength, fun hpending => List.mem_filterMap.mpr ⟨datagram, hpending, haccept⟩⟩

/-- A reply from id 1 that is one byte longer than its slot. -/
def longReply : LocalMpFrame where
  sender := 1
  type := 0x00010002
  timestamp := 0
  payload := List.replicate 1025 1

/-- It arrives at instance 0, which waits for id 1 only. -/
def longReplyCall : RecvReplies :=
  recvReplies { LocalMpTransport.configure true 0 with socket := some [] } (fun _ => 0) 0 2
    [⟨[.datagram longReply.datagram], true⟩]

theorem longReply_length : longReply.payload.length = 1025 := List.length_replicate

theorem longReply_sendable : Sendable 0 longReply :=
  ⟨by decide, by decide, by rw [longReply_length]; decide⟩

theorem longReplyCall_eq :
    longReplyCall.received = 2 ∧ longReplyCall.data = copyTo (fun _ => 0) 0 longReply.payload := by
  have hshort : ¬ kHeaderBytes + kMaxFrameBytes < longReply.datagram.length := by
    unfold LocalMpFrame.datagram
    rw [encode_length, longReply_length]
    decide
  have haccept : acceptDatagram 0 longReply.datagram = some longReply :=
    acceptDatagram_datagram longReply_sendable
  have hreply : longReply.isReply = true := by decide
  have hcall : longReplyCall = RecvReplies.takeReply 0 2
      { transport := { LocalMpTransport.configure true 0 with socket := some [] }
        data := fun _ => 0
        popped := [longReply] } longReply := by
    unfold longReplyCall recvReplies
    simp only [List.foldl_cons, List.foldl_nil, RecvReplies.round, LocalMpTransport.arrive,
      LocalMpTransport.drainSocket, LocalMpTransport.configure, Option.map_some, List.nil_append,
      LocalMpTransport.drainLoop, hshort, if_false, LocalMpTransport.receive, haccept, hreply]
    rfl
  have hslot : slotStart longReply.aid = 0 := by decide
  rw [hcall, takeReply_eq, if_pos (by decide)]
  dsimp only
  rw [hslot]
  exact ⟨by decide, rfl⟩

/-- Its last byte lands in the slot of id 2, which the call does not report. -/
theorem long_reply_leaves_slot :
    ¬ ∀ (t : LocalMpTransport) (data : Nat → UInt8) (timestamp : UInt64) (aidmask : UInt16)
        (rounds : List Round) (a : Nat),
      (∀ aid, hasAid (recvReplies t data timestamp aidmask rounds).received aid →
        ¬ InSlot aid a) →
      (recvReplies t data timestamp aidmask rounds).data a = data a := by
  intro h
  obtain ⟨hreceived, hdata⟩ := longReplyCall_eq
  have hkept : longReplyCall.data 1024 = 0 := by
    unfold longReplyCall at hreceived ⊢
    refine h _ _ _ _ _ 1024 fun aid haid hin => ?_
    rw [hreceived] at haid
    have hone : aid.toNat = 1 := by
      unfold hasAid at haid
      rw [show (2 : UInt16).toNat = 2 ^ 1 from rfl, Nat.testBit_two_pow] at haid
      exact (of_decide_eq_true haid).symm
    unfold InSlot slotStart kReplySlotBytes at hin
    omega
  rw [hdata] at hkept
  have hlength := longReply_length
  have hwritten : copyTo (fun _ => 0) 0 longReply.payload (0 + 1024) = 1 := by
    rw [copyTo_payload _ _ _ (by omega)]
    exact List.getElem_replicate _
  exact absurd (hwritten.symm.trans hkept) (by decide)

end NdsRecomp.Net.LocalMp
