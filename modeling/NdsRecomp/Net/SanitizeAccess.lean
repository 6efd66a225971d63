import NdsRecomp.Net.MacPositions

/-!
The sanitizer's walk once more, with every access to the frame checked: `none` is an
access outside its bytes. Where the frame is read and written is in the order of the
source. The checked walk writes what the walk writes, so it never fails.
-/

namespace NdsRecomp.Net

/-- An access to `n` bytes from `p` on. -/
def access (len p n : Nat) : Option Unit := if p + n ≤ len then some () else none

namespace Checked

def byte (len : Nat) (f : Bytes) (p : Nat) : Option UInt8 := (access len p 1).map fun _ => f p

def rd16 (len : Nat) (f : Bytes) (p : Nat) : Option Nat :=
  (access len p 2).map fun _ => Net.rd16 f p

/-- `memcmp` of an address, and `memcpy` over it. -/
def rewriteMac (rule : FieldRule) (len : Nat) (f : Bytes) (p : Nat) : Option (Bytes × Bool) :=
  (access len p 6).map fun _ => Net.rewriteMac rule f p

/-- One DHCP option, its value at `p + 2`. A host name is read and written over whole. -/
def rewriteOption (rule : FieldRule) (len : Nat) (f : Bytes) (p : Nat) (code : UInt8)
    (optLen : Nat) : Option (Bytes × Bool) :=
  if code = 61 ∧ optLen = 7 then
    (byte len f (p + 2)).bind fun kind =>
      if kind = 1 then rewriteMac rule len f (p + 3) else some (f, false)
  else if code = 12 ∧ 0 < optLen then
    (access len (p + 2) optLen).map fun _ => Net.rewriteOption rule f p
  else some (f, false)

def rewriteOptions (rule : FieldRule) (len stop : Nat) (f : Bytes) (p : Nat) :
    Option (Bytes × Bool) :=
  if stop ≤ p then some (f, false)
  else (byte len f p).bind fun code =>
    if code = 0xFF then some (f, false)
    else if code = 0 then rewriteOptions rule len stop f (p + 1)
    else if stop ≤ p + 1 then some (f, false)
    else (byte len f (p + 1)).bind fun optLen =>
      if stop < p + 2 + optLen.toNat then some (f, false)
      else (rewriteOption rule len f p code optLen.toNat).bind fun head =>
        (rewriteOptions rule len stop head.1 (p + 2 + optLen.toNat)).map fun tail =>
          (tail.1, head.2 || tail.2)
termination_by stop - p

/-- The checksum is summed over the datagram where there is one. -/
def rewriteChecksum (len : Nat) (f : Bytes) (udpOff udpLen : Nat) : Option Bytes :=
  (rd16 len f (udpOff + 6)).bind fun checksum =>
    if checksum = 0 then some f
    else (access len udpOff udpLen).bind fun _ =>
      (access len (udpOff + 6) 2).map fun _ => Net.rewriteChecksum f udpOff udpLen

def rewriteChaddr (rule : FieldRule) (len : Nat) (f : Bytes) (udpOff udpLen : Nat) :
    Option (Bytes × Bool) :=
  if 34 ≤ udpLen - 8 then
    (byte len f (udpOff + 8 + 1)).bind fun htype => (byte len f (udpOff + 8 + 2)).bind fun hlen =>
      if htype = 1 ∧ hlen = 6 then rewriteMac rule len f (udpOff + 8 + 28) else some (f, false)
  else some (f, false)

def rewriteBootp (rule : FieldRule) (f : Bytes) (len udpOff udpLen : Nat) : Option Bytes :=
  let stop := bootpEnd len udpOff udpLen
  (rewriteChaddr rule len f udpOff udpLen).bind fun client =>
  (if udpOff + 8 + 236 + 4 ≤ stop then
      (access len (udpOff + 8 + 236) 4).bind fun _ =>
        if cookieAt client.1 (udpOff + 8 + 236) then
          rewriteOptions rule len stop client.1 (udpOff + 8 + 236 + 4)
        else some (client.1, false)
    else some (client.1, false)).bind fun options =>
  if client.2 || options.2 then rewriteChecksum len options.1 udpOff udpLen else some options.1

/-- The headers, each read once the one before it has been found to fit. -/
def dhcpDatagram (f : Bytes) (len : Nat) : Option (Option (Nat × Nat)) :=
  (byte len f 14).bind fun first =>
  let ihl := (first &&& 0x0F).toNat * 4
  let udpOff := 14 + ihl
  if first >>> 4 ≠ 4 ∨ ihl < 20 ∨ len < 14 + ihl then some none
  else (byte len f 23).bind fun protocol =>
  if protocol ≠ 17 then some none
  else (access len 26 8).bind fun _ =>
  if len < udpOff + 8 then some none
  else (rd16 len f udpOff).bind fun srcPort => (rd16 len f (udpOff + 2)).bind fun dstPort =>
  if ¬(srcPort = 67 ∨ srcPort = 68 ∨ dstPort = 67 ∨ dstPort = 68) then some none
  else (rd16 len f (udpOff + 4)).bind fun declared =>
  if min declared (len - udpOff) < 8 then some none
  else some (some (udpOff, min declared (len - udpOff)))

def rewritePayload (rule : FieldRule) (f : Bytes) (len : Nat) : Option Bytes :=
  (rd16 len f 12).bind fun ethertype =>
  if ethertype = 0x0806 then
    if 14 + 28 ≤ len then
      (rewriteMac rule len f (14 + 8)).bind fun sender =>
        (rewriteMac rule len sender.1 (14 + 18)).map fun target => target.1
    else some f
  else if ethertype ≠ 0x0800 ∨ len < 14 + 20 then some f
  else (dhcpDatagram f len).bind fun datagram =>
    match datagram with
    | some (udpOff, udpLen) => rewriteBootp rule f len udpOff udpLen
    | none => some f

def rewriteFrame (rule : FieldRule) (f : Bytes) (len : Nat) : Option Bytes :=
  (rewriteMac rule len f 0).bind fun dst =>
    (rewriteMac rule len dst.1 6).bind fun src => rewritePayload rule src.1 len

/-- `net_sanitize_ethernet_frame`; the source address is read where it is learned. -/
def netSanitizeEthernetFrame (f : Bytes) (len : Nat) (direction : UInt8)
    (state : NdsNetSanitizeState) : Option (Bytes × NdsNetSanitizeState) :=
  if len < 14 then some (f, state)
  else (access len 6 6).bind fun _ =>
    let learned := sanitizeState f len direction state
    (rewriteFrame (sanitizeRule learned) f len).map fun out => (out, learned)

/-- `net_desanitize_ethernet_frame_for_replay` -/
def netDesanitizeEthernetFrameForReplay (f : Bytes) (len : Nat) (synthetic real : Mac) :
    Option Bytes :=
  if len < 14 then some f else rewriteFrame (restoreRule synthetic real) f len

/-! ### Within the frame -/

variable {rule : FieldRule} {f : Bytes} {len p : Nat}

theorem access_of_le {n : Nat} (h : p + n ≤ len) : access len p n = some () := if_pos h

theorem byte_of_lt (h : p < len) : byte len f p = some (f p) := by
  rw [byte, access_of_le h, Option.map_some]

theorem rd16_of_lt (h : p + 1 < len) : rd16 len f p = some (Net.rd16 f p) := by
  rw [rd16, access_of_le (show p + 2 ≤ len from h), Option.map_some]

theorem rewriteMac_of_le (h : p + 6 ≤ len) :
    rewriteMac rule len f p = some (Net.rewriteMac rule f p) := by
  rw [rewriteMac, access_of_le h, Option.map_some]

theorem rewriteOption_eq (h : p + 2 + (f (p + 1)).toNat ≤ len) :
    rewriteOption rule len f p (f p) (f (p + 1)).toNat = some (Net.rewriteOption rule f p) := by
  unfold rewriteOption
  by_cases hclient : f p = 61 ∧ (f (p + 1)).toNat = 7
  · have hcode : ¬(f p = 12 ∧ 0 < (f (p + 1)).toNat) := by
      rw [hclient.1]
      exact fun h => absurd h.1 (by decide)
    rw [if_pos hclient, byte_of_lt (by omega), Option.bind_some, Net.rewriteOption]
    by_cases hkind : f (p + 2) = 1
    · rw [if_pos hkind, rewriteMac_of_le (by omega), if_pos ⟨hclient.1, hclient.2, hkind⟩]
    · rw [if_neg hkind, if_neg (fun h => hkind h.2.2), if_neg hcode]
  · rw [if_neg hclient]
    by_cases hname : f p = 12 ∧ 0 < (f (p + 1)).toNat
    · rw [if_pos hname, access_of_le h, Option.map_some]
    · rw [if_neg hname, Net.rewriteOption, if_neg (fun h => hclient ⟨h.1, h.2.1⟩), if_neg hname]

/-- The options end within the frame, so every byte the loop looks at is in it. -/
theorem rewriteOptions_eq {stop : Nat} (hstop : stop ≤ len) :
    rewriteOptions rule len stop f p = some (Net.rewriteOptions rule stop f p) := by
  induction hleft : stop - p using Nat.strongRecOn generalizing f p with
  | ind left ih =>
      subst hleft
      rw [rewriteOptions, Net.rewriteOptions]
      by_cases hend : stop ≤ p
      · rw [if_pos hend, if_pos hend]
      · rw [if_neg hend, if_neg hend, byte_of_lt (by omega), Option.bind_some]
        by_cases hlast : f p = 0xFF
        · rw [if_pos hlast, if_pos hlast]
        · rw [if_neg hlast, if_neg hlast]
          by_cases hpad : f p = 0
          · rw [if_pos hpad, if_pos hpad]
            exact ih _ (by omega) rfl
          · rw [if_neg hpad, if_neg hpad]
            by_cases hnext : stop ≤ p + 1
            · rw [if_pos hnext, if_pos hnext]
            · rw [if_neg hnext, if_neg hnext, byte_of_lt (by omega), Option.bind_some]
              by_cases hcut : stop < p + 2 + (f (p + 1)).toNat
              · rw [if_pos hcut, if_pos hcut]
              · rw [if_neg hcut, if_neg hcut, rewriteOption_eq (by omega), Option.bind_some,
                  ih _ (by omega) rfl, Option.map_some]

theorem rewriteChecksum_eq {udpOff udpLen : Nat} (hlen : udpOff + udpLen ≤ len)
    (hudp : 8 ≤ udpLen) :
    rewriteChecksum len f udpOff udpLen = some (Net.rewriteChecksum f udpOff udpLen) := by
  unfold rewriteChecksum
  rw [rd16_of_lt (by omega), Option.bind_some]
  by_cases hnone : Net.rd16 f (udpOff + 6) = 0
  · rw [if_pos hnone, Net.rewriteChecksum, if_pos hnone]
  · rw [if_neg hnone, access_of_le hlen, access_of_le (by omega), Option.bind_some, Option.map_some]

theorem rewriteChaddr_eq {udpOff udpLen : Nat} (hlen : udpOff + udpLen ≤ len) :
    rewriteChaddr rule len f udpOff udpLen =
      some (if chaddrAt f udpOff udpLen then Net.rewriteMac rule f (udpOff + 8 + 28)
        else (f, false)) := by
  unfold rewriteChaddr
  by_cases hlong : 34 ≤ udpLen - 8
  · rw [if_pos hlong, byte_of_lt (by omega), byte_of_lt (by omega), Option.bind_some,
      Option.bind_some]
    by_cases hethernet : f (udpOff + 8 + 1) = 1 ∧ f (udpOff + 8 + 2) = 6
    · have hchaddr : chaddrAt f udpOff udpLen := ⟨hlong, hethernet⟩
      rw [if_pos hethernet, if_pos hchaddr, rewriteMac_of_le (by omega)]
    · have hchaddr : ¬chaddrAt f udpOff udpLen := fun h => hethernet h.2
      rw [if_neg hethernet, if_neg hchaddr]
  · have hchaddr : ¬chaddrAt f udpOff udpLen := fun h => hlong h.1
    rw [if_neg hlong, if_neg hchaddr]

theorem rewriteBootp_eq {udpOff udpLen : Nat} (hlen : udpOff + udpLen ≤ len) (hudp : 8 ≤ udpLen) :
    rewriteBootp rule f len udpOff udpLen = some (Net.rewriteBootp rule f len udpOff udpLen) := by
  have hstop : bootpEnd len udpOff udpLen ≤ len := Nat.min_le_right _ _
  unfold rewriteBootp Net.rewriteBootp
  dsimp only
  rw [rewriteChaddr_eq hlen, Option.bind_some]
  generalize (if chaddrAt f udpOff udpLen then Net.rewriteMac rule f (udpOff + 8 + 28)
    else (f, false)) = client
  have hoptions : (if udpOff + 8 + 236 + 4 ≤ bootpEnd len udpOff udpLen then
        (access len (udpOff + 8 + 236) 4).bind fun _ =>
          if cookieAt client.1 (udpOff + 8 + 236) then
            rewriteOptions rule len (bootpEnd len udpOff udpLen) client.1 (udpOff + 8 + 236 + 4)
          else some (client.1, false)
      else some (client.1, false)) =
      some (if optionsAt client.1 udpOff (bootpEnd len udpOff udpLen) then
        Net.rewriteOptions rule (bootpEnd len udpOff udpLen) client.1 (udpOff + 8 + 236 + 4)
        else (client.1, false)) := by
    by_cases hlong : udpOff + 8 + 236 + 4 ≤ bootpEnd len udpOff udpLen
    · rw [if_pos hlong, access_of_le (by omega), Option.bind_some]
      by_cases hcookie : cookieAt client.1 (udpOff + 8 + 236)
      · have hat : optionsAt client.1 udpOff (bootpEnd len udpOff udpLen) := ⟨hlong, hcookie⟩
        rw [if_pos hcookie, if_pos hat, rewriteOptions_eq hstop]
      · have hat : ¬optionsAt client.1 udpOff (bootpEnd len udpOff udpLen) := fun h => hcookie h.2
        rw [if_neg hcookie, if_neg hat]
    · have hat : ¬optionsAt client.1 udpOff (bootpEnd len udpOff udpLen) := fun h => hlong h.1
      rw [if_neg hlong, if_neg hat]
  rw [hoptions, Option.bind_some]
  generalize (if optionsAt client.1 udpOff (bootpEnd len udpOff udpLen) then
    Net.rewriteOptions rule (bootpEnd len udpOff udpLen) client.1 (udpOff + 8 + 236 + 4)
    else (client.1, false)) = options
  by_cases hwritten : (client.2 || options.2) = true
  · rw [if_pos hwritten, if_pos hwritten, rewriteChecksum_eq hlen hudp]
  · rw [if_neg hwritten, if_neg hwritten]

theorem dhcpDatagram_eq (hlen : 34 ≤ len) : dhcpDatagram f len = some (Net.dhcpDatagram f len) := by
  unfold dhcpDatagram Net.dhcpDatagram ipHeaderLength
  dsimp only
  rw [byte_of_lt (by omega), Option.bind_some]
  by_cases hheader : f 14 >>> 4 ≠ 4 ∨ (f 14 &&& 0x0F).toNat * 4 < 20 ∨
      len < 14 + (f 14 &&& 0x0F).toNat * 4
  · rw [if_pos hheader, if_pos hheader]
  · rw [if_neg hheader, if_neg hheader, byte_of_lt (by omega), Option.bind_some]
    by_cases hudp : f 23 ≠ 17
    · rw [if_pos hudp, if_pos hudp]
    · rw [if_neg hudp, if_neg hudp, access_of_le (by omega), Option.bind_some]
      by_cases hcut : len < 14 + (f 14 &&& 0x0F).toNat * 4 + 8
      · rw [if_pos hcut, if_pos hcut]
      · rw [if_neg hcut, if_neg hcut, rd16_of_lt (by omega), rd16_of_lt (by omega),
          rd16_of_lt (by omega), Option.bind_some, Option.bind_some, Option.bind_some]
        split
        · rfl
        · split <;> rfl

theorem rewritePayload_eq (hlen : 14 ≤ len) :
    rewritePayload rule f len = some (Net.rewritePayload rule f len) := by
  unfold rewritePayload Net.rewritePayload
  rw [rd16_of_lt (by omega), Option.bind_some]
  by_cases harp : Net.rd16 f 12 = 0x0806
  · rw [if_pos harp, if_pos harp]
    by_cases hbody : 14 + 28 ≤ len
    · rw [if_pos hbody, if_pos hbody, rewriteMac_of_le (by omega), Option.bind_some,
        rewriteMac_of_le (by omega), Option.map_some]
    · rw [if_neg hbody, if_neg hbody]
  · rw [if_neg harp, if_neg harp]
    by_cases hother : Net.rd16 f 12 ≠ 0x0800 ∨ len < 14 + 20
    · rw [if_pos hother, if_pos hother]
    · rw [if_neg hother, if_neg hother, dhcpDatagram_eq (by omega), Option.bind_some]
      cases hdatagram : Net.dhcpDatagram f len with
      | none => rfl
      | some datagram =>
          obtain ⟨-, -, hfits, hudp⟩ := dhcpDatagram_some hdatagram
          exact rewriteBootp_eq hfits hudp

theorem rewriteFrame_eq (hlen : 14 ≤ len) :
    rewriteFrame rule f len = some (Net.rewriteFrame rule f len) := by
  unfold rewriteFrame Net.rewriteFrame
  rw [rewriteMac_of_le (by omega), Option.bind_some, rewriteMac_of_le (by omega), Option.bind_some,
    rewritePayload_eq hlen]

/-- The sanitizer reads and writes within the frame, whatever the frame is. -/
theorem netSanitizeEthernetFrame_eq (f : Bytes) (len : Nat) (direction : UInt8)
    (state : NdsNetSanitizeState) :
    netSanitizeEthernetFrame f len direction state =
      some (Net.netSanitizeEthernetFrame f len direction state) := by
  unfold netSanitizeEthernetFrame Net.netSanitizeEthernetFrame
  by_cases hshort : len < 14
  · rw [if_pos hshort]
    dsimp only
    rw [if_pos hshort, sanitizeState, if_pos hshort]
  · rw [if_neg hshort, access_of_le (by omega), Option.bind_some]
    dsimp only
    rw [if_neg hshort, rewriteFrame_eq (by omega), Option.map_some]

/-- And so does the restorer. -/
theorem netDesanitizeEthernetFrameForReplay_eq (f : Bytes) (len : Nat) (synthetic real : Mac) :
    netDesanitizeEthernetFrameForReplay f len synthetic real =
      some (Net.netDesanitizeEthernetFrameForReplay f len synthetic real) := by
  unfold netDesanitizeEthernetFrameForReplay Net.netDesanitizeEthernetFrameForReplay
  by_cases hshort : len < 14
  · rw [if_pos hshort, if_pos hshort]
  · rw [if_neg hshort, if_neg hshort, rewriteFrame_eq (by omega)]

end Checked

end NdsRecomp.Net
