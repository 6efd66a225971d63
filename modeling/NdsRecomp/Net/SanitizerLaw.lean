import NdsRecomp.Net.SanitizedFields
import NdsRecomp.Net.SanitizedReplay

/-!
What the sanitizer does to a frame and what restoring gives back, for every frame:
the addresses, the host names, the checksum, and every other byte.
-/

namespace NdsRecomp.Net

/-! ### The checksum -/

theorem computeUdpChecksum_congr {f g : Bytes} {udpOff udpLen : Nat} (hlen : 8 ≤ udpLen)
    (hip : ∀ i, 26 ≤ i → i < 34 → g i = f i)
    (hudp : ∀ i, udpOff ≤ i → (i < udpOff + 6 ∨ udpOff + 8 ≤ i) → g i = f i) :
    computeUdpChecksum g udpOff udpLen = computeUdpChecksum f udpOff udpLen := by
  have hwords : ((List.range (udpLen / 2)).map fun k => if k = 3 then 0 else rd16 g (udpOff + 2 * k)) =
      (List.range (udpLen / 2)).map fun k => if k = 3 then 0 else rd16 f (udpOff + 2 * k) := by
    refine List.map_congr_left fun k _ => ?_
    by_cases hk : k = 3
    · rw [if_pos hk, if_pos hk]
    · rw [if_neg hk, if_neg hk]
      exact rd16_congr (hudp _ (by omega) (by omega)) (hudp _ (by omega) (by omega))
  have hodd : (if udpLen % 2 = 1 then (g (udpOff + udpLen - 1)).toNat * 256 else 0) =
      if udpLen % 2 = 1 then (f (udpOff + udpLen - 1)).toNat * 256 else 0 := by
    split
    · rw [hudp (udpOff + udpLen - 1) (by omega) (by omega)]
    · rfl
  unfold computeUdpChecksum
  dsimp only
  rw [hwords, hodd, rd16_congr (hip 26 (by omega) (by omega)) (hip 27 (by omega) (by omega)),
    rd16_congr (hip 28 (by omega) (by omega)) (hip 29 (by omega) (by omega)),
    rd16_congr (hip 30 (by omega) (by omega)) (hip 31 (by omega) (by omega)),
    rd16_congr (hip 32 (by omega) (by omega)) (hip 33 (by omega) (by omega))]

theorem computeUdpChecksum_bounds (f : Bytes) (udpOff udpLen : Nat) :
    0 < computeUdpChecksum f udpOff udpLen ∧ computeUdpChecksum f udpOff udpLen ≤ 0xFFFF := by
  have hresult (result : Nat) (h : result ≤ 0xFFFF) :
      0 < (if result = 0 then 0xFFFF else result) ∧
        (if result = 0 then 0xFFFF else result) ≤ 0xFFFF := by
    split
    · exact ⟨by decide, le_rfl⟩
    · exact ⟨by omega, h⟩
  exact hresult _ (Nat.sub_le _ _)

theorem rd16_rewriteChecksum (f : Bytes) {udpOff udpLen : Nat} :
    rd16 (rewriteChecksum f udpOff udpLen) (udpOff + 6) =
      if rd16 f (udpOff + 6) = 0 then 0 else computeUdpChecksum f udpOff udpLen := by
  have hbounds := computeUdpChecksum_bounds f udpOff udpLen
  unfold rewriteChecksum
  split
  · next hzero => exact hzero
  · unfold rd16 writeBytes
    dsimp only
    generalize computeUdpChecksum f udpOff udpLen = sum at hbounds
    rw [if_pos (by omega), if_pos (by omega), Nat.sub_self, Nat.add_sub_cancel_left]
    change (UInt8.ofNat (sum / 256)).toNat * 256 + (UInt8.ofNat (sum % 256)).toNat = sum
    rw [UInt8.toNat_ofNat', UInt8.toNat_ofNat', Nat.mod_eq_of_lt (by omega), Nat.mod_eq_of_lt (by omega)]
    omega

/-- Two bytes are their word. -/
theorem eq_of_rd16 {f g : Bytes} {p : Nat} (h : rd16 g p = rd16 f p) :
    g p = f p ∧ g (p + 1) = f (p + 1) := by
  unfold rd16 at h
  have hf := (f (p + 1)).toNat_lt
  have hg := (g (p + 1)).toNat_lt
  exact ⟨UInt8.toNat_inj.mp (by omega), UInt8.toNat_inj.mp (by omega)⟩

/-! ### The DHCP datagram -/

section Datagram

variable (rule : FieldRule) (f : Bytes) (len udpOff udpLen : Nat)

/-- Where the options start. -/
def bootpOptions (stop : Nat) : List Nat :=
  if optionsAt f udpOff stop then optionStarts stop f (udpOff + 8 + 236 + 4) else []

/-- An address or a host name of the datagram is replaced. -/
def BootpWritten (stop : Nat) : Prop :=
  (∃ q ∈ bootpPositions f stop udpOff udpLen, (rule.onMac (macAt f q)).isSome) ∨
    ∃ o ∈ bootpOptions f udpOff stop, NameWritten rule f o

variable {rule f len udpOff udpLen} {g : Bytes} {stop : Nat}

theorem bootpOptions_ge {o : Nat} (h : o ∈ bootpOptions f udpOff stop) : udpOff + 248 ≤ o := by
  unfold bootpOptions at h
  split at h
  · exact optionStarts_ge h
  · cases h

theorem bootpOptions_congr (h : ∀ i, udpOff + 42 ≤ i → g i = f i) :
    bootpOptions g udpOff stop = bootpOptions f udpOff stop := by
  unfold bootpOptions
  rw [if_congr (optionsAt_congr fun i hi _ => h i (by omega)) rfl rfl,
    optionStarts_congr fun i hi => h i (by omega)]

theorem mem_bootpPositions' {q : Nat} :
    q ∈ bootpPositions f stop udpOff udpLen ↔ (chaddrAt f udpOff udpLen ∧ q = udpOff + 8 + 28) ∨
      ∃ o ∈ bootpOptions f udpOff stop, ClientAt f o ∧ q = o + 3 := by
  rw [mem_bootpPositions, mem_optionPositions]
  unfold bootpOptions
  by_cases hopt : optionsAt f udpOff stop
  · rw [if_pos hopt]
    simp [hopt]
  · rw [if_neg hopt]
    simp [hopt]

theorem bootpWritten_congr (h : ∀ i, udpOff + 8 ≤ i → g i = f i) :
    BootpWritten rule g udpOff udpLen stop ↔ BootpWritten rule f udpOff udpLen stop := by
  unfold BootpWritten
  rw [bootpPositions_congr h, bootpOptions_congr fun i hi => h i (by omega)]
  refine or_congr (exists_congr fun q => and_congr_right fun hq => ?_)
    (exists_congr fun o => and_congr_right fun ho => ?_)
  · have hge : udpOff + 8 ≤ q := by
      rcases mem_bootpPositions'.mp hq with ⟨-, rfl⟩ | ⟨o, ho, -, rfl⟩
      · omega
      · have hle := bootpOptions_ge ho
        omega
    rw [macAt_congr fun i hi _ => h i (by omega)]
  · have hge := bootpOptions_ge ho
    exact nameWritten_congr fun i hi => h i (by omega)

theorem optionsFrame_outside {i : Nat}
    (hclient : ∀ o ∈ bootpOptions f udpOff stop, ClientAt f o → i < o + 3 ∨ o + 9 ≤ i)
    (hname : ∀ o ∈ bootpOptions f udpOff stop, NameWritten rule f o →
      i < o + 2 ∨ o + 2 + (f (o + 1)).toNat ≤ i) :
    optionsFrame rule stop udpOff f i = f i := by
  unfold optionsFrame bootpOptions at *
  split
  · next hopt =>
      rw [if_pos hopt] at hclient hname
      exact rewriteOptions_outside hclient hname
  · rfl

/-- The hardware address field, and the options one by one. -/
theorem bootpWritten_iff :
    BootpWritten rule f udpOff udpLen stop ↔
      (chaddrAt f udpOff udpLen ∧ (rule.onMac (macAt f (udpOff + 8 + 28))).isSome) ∨
        ∃ o ∈ bootpOptions f udpOff stop, ClientWritten rule f o ∨ NameWritten rule f o := by
  unfold BootpWritten ClientWritten
  constructor
  · rintro (⟨q, hq, hmac⟩ | ⟨o, ho, hname⟩)
    · rcases mem_bootpPositions'.mp hq with ⟨hchaddr, rfl⟩ | ⟨o, ho, hc, rfl⟩
      · exact .inl ⟨hchaddr, hmac⟩
      · exact .inr ⟨o, ho, .inl ⟨hc, hmac⟩⟩
    · exact .inr ⟨o, ho, .inr hname⟩
  · rintro (⟨hchaddr, hmac⟩ | ⟨o, ho, ⟨hc, hmac⟩ | hname⟩)
    · exact .inl ⟨_, mem_bootpPositions'.mpr (.inl ⟨hchaddr, rfl⟩), hmac⟩
    · exact .inl ⟨_, mem_bootpPositions'.mpr (.inr ⟨o, ho, hc, rfl⟩), hmac⟩
    · exact .inr ⟨o, ho, hname⟩

theorem clientFlag_iff :
    (if chaddrAt f udpOff udpLen then rewriteMac rule f (udpOff + 8 + 28) else (f, false)).2 = true ↔
      chaddrAt f udpOff udpLen ∧ (rule.onMac (macAt f (udpOff + 8 + 28))).isSome := by
  split
  · next hchaddr => simp [rewriteMac_flag, hchaddr]
  · next hchaddr => simp [hchaddr]

/-- The options are read behind the hardware address field, which is rewritten first. -/
theorem optionsFlag_iff :
    (if optionsAt (clientFrame rule f udpOff udpLen) udpOff stop then
      rewriteOptions rule stop (clientFrame rule f udpOff udpLen) (udpOff + 8 + 236 + 4)
      else (clientFrame rule f udpOff udpLen, false)).2 = true ↔
      ∃ o ∈ bootpOptions f udpOff stop, ClientWritten rule f o ∨ NameWritten rule f o := by
  have hclient : ∀ i, udpOff + 42 ≤ i → clientFrame rule f udpOff udpLen i = f i :=
    fun i hi => clientFrame_outside (Or.inr hi)
  have hmoved : (∃ o ∈ bootpOptions f udpOff stop, ClientWritten rule f o ∨ NameWritten rule f o) ↔
      ∃ o ∈ bootpOptions (clientFrame rule f udpOff udpLen) udpOff stop,
        ClientWritten rule (clientFrame rule f udpOff udpLen) o ∨
          NameWritten rule (clientFrame rule f udpOff udpLen) o := by
    rw [bootpOptions_congr hclient]
    refine exists_congr fun o => and_congr_right fun ho => ?_
    have hge := bootpOptions_ge ho
    have hsame : ∀ i, o ≤ i → clientFrame rule f udpOff udpLen i = f i :=
      fun i hi => hclient i (by omega)
    rw [clientWritten_congr hsame, nameWritten_congr hsame]
  rw [hmoved]
  unfold bootpOptions
  split
  · exact rewriteOptions_flag
  · simp

theorem clientFrame_quiet
    (h : ¬ (if chaddrAt f udpOff udpLen then rewriteMac rule f (udpOff + 8 + 28)
      else (f, false)).2 = true) : clientFrame rule f udpOff udpLen = f := by
  have hquiet := Bool.eq_false_iff.mpr h
  unfold clientFrame
  split
  · next hchaddr =>
      rw [if_pos hchaddr] at hquiet
      exact rewriteMac_quiet hquiet
  · rfl

theorem optionsFrame_quiet
    (h : ¬ (if optionsAt f udpOff stop then rewriteOptions rule stop f (udpOff + 8 + 236 + 4)
      else (f, false)).2 = true) : optionsFrame rule stop udpOff f = f := by
  have hquiet := Bool.eq_false_iff.mpr h
  unfold optionsFrame
  split
  · next hopt =>
      rw [if_pos hopt] at hquiet
      exact rewriteOptions_quiet hquiet
  · rfl

/-- The rewrite of a datagram by whether something was replaced. -/
theorem rewriteBootp_cases :
    (BootpWritten rule f udpOff udpLen (bootpEnd len udpOff udpLen) →
      rewriteBootp rule f len udpOff udpLen =
        rewriteChecksum (optionsFrame rule (bootpEnd len udpOff udpLen) udpOff
          (clientFrame rule f udpOff udpLen)) udpOff udpLen) ∧
      (¬ BootpWritten rule f udpOff udpLen (bootpEnd len udpOff udpLen) →
        rewriteBootp rule f len udpOff udpLen = f) := by
  rw [bootpWritten_iff, ← clientFlag_iff, ← optionsFlag_iff]
  constructor
  · intro hflag
    exact if_pos (Bool.or_eq_true _ _ ▸ hflag)
  · intro hflag
    obtain ⟨hclient, hoptions⟩ := not_or.mp hflag
    have hsame := (optionsFrame_quiet hoptions).trans (clientFrame_quiet hclient)
    exact (if_neg (Bool.or_eq_true _ _ ▸ hflag)).trans hsame

/-- Beside the addresses, the replaced names and the checksum nothing is written. -/
theorem rewriteBootp_untouched {i : Nat}
    (hmac : ∀ q ∈ bootpPositions f (bootpEnd len udpOff udpLen) udpOff udpLen, i < q ∨ q + 6 ≤ i)
    (hname : ∀ o ∈ bootpOptions f udpOff (bootpEnd len udpOff udpLen), NameWritten rule f o →
      i < o + 2 ∨ o + 2 + (f (o + 1)).toNat ≤ i)
    (hsum : i < udpOff + 6 ∨ udpOff + 8 ≤ i) : rewriteBootp rule f len udpOff udpLen i = f i := by
  have hclient : ∀ i, udpOff + 42 ≤ i → clientFrame rule f udpOff udpLen i = f i :=
    fun i hi => clientFrame_outside (Or.inr hi)
  rw [rewriteBootp_outside hsum, optionsFrame_outside]
  · unfold clientFrame
    split
    · next hchaddr =>
        exact rewriteMac_outside rule f (hmac _ (mem_bootpPositions'.mpr (.inl ⟨hchaddr, rfl⟩)))
    · rfl
  · intro o ho hc
    rw [bootpOptions_congr hclient] at ho
    have hge := bootpOptions_ge ho
    have hc' := (clientAt_congr fun i hi => hclient i (by omega)).mp hc
    exact hmac _ (mem_bootpPositions'.mpr (.inr ⟨o, ho, hc', rfl⟩))
  · intro o ho hwritten
    rw [bootpOptions_congr hclient] at ho
    have hge := bootpOptions_ge ho
    rw [hclient (o + 1) (by omega)]
    exact hname o ho ((nameWritten_congr fun i hi => hclient i (by omega)).mp hwritten)

/-- A datagram with something replaced: no checksum stays none, any other is
that of the new bytes. -/
theorem rewriteBootp_checksum (hudp : 34 ≤ udpOff) (hlen : 8 ≤ udpLen)
    (hwritten : BootpWritten rule f udpOff udpLen (bootpEnd len udpOff udpLen)) :
    rd16 (rewriteBootp rule f len udpOff udpLen) (udpOff + 6) =
      if rd16 f (udpOff + 6) = 0 then 0
      else computeUdpChecksum (rewriteBootp rule f len udpOff udpLen) udpOff udpLen := by
  rw [rewriteBootp_cases.1 hwritten, rd16_rewriteChecksum]
  have hkept (i : Nat) (hi : i < udpOff + 36) : optionsFrame rule (bootpEnd len udpOff udpLen) udpOff
      (clientFrame rule f udpOff udpLen) i = f i :=
    (optionsFrame_before (by omega)).trans (clientFrame_outside (Or.inl hi))
  have hold : rd16 (optionsFrame rule (bootpEnd len udpOff udpLen) udpOff
      (clientFrame rule f udpOff udpLen)) (udpOff + 6) = rd16 f (udpOff + 6) :=
    rd16_congr (hkept _ (by omega)) (hkept _ (by omega))
  generalize optionsFrame rule (bootpEnd len udpOff udpLen) udpOff
    (clientFrame rule f udpOff udpLen) = g at hold
  have hsum : computeUdpChecksum (rewriteChecksum g udpOff udpLen) udpOff udpLen =
      computeUdpChecksum g udpOff udpLen :=
    computeUdpChecksum_congr hlen
      (fun i _ hi => rewriteChecksum_outside _ udpOff udpLen (Or.inl (by omega)))
      fun i _ hi => rewriteChecksum_outside _ udpOff udpLen hi
  rw [hold, hsum]

end Datagram

/-! ### The whole frame -/

/-- The UDP datagram of a DHCP frame: where its header starts, and its length. -/
def dhcpOf (f : Bytes) (len : Nat) : Option (Nat × Nat) :=
  if rd16 f 12 = 0x0800 ∧ 34 ≤ len then dhcpDatagram f len else none

section Frame

variable {rule : FieldRule} {f : Bytes} {len udpOff udpLen : Nat}

theorem dhcpOf_some (h : dhcpOf f len = some (udpOff, udpLen)) :
    rd16 f 12 = 0x0800 ∧ 34 ≤ len ∧ dhcpDatagram f len = some (udpOff, udpLen) := by
  unfold dhcpOf at h
  split at h
  · next hip => exact ⟨hip.1, hip.2, h⟩
  · cases h

theorem payloadPositions_dhcp (h : dhcpOf f len = some (udpOff, udpLen)) :
    payloadPositions f len = bootpPositions f (bootpEnd len udpOff udpLen) udpOff udpLen := by
  obtain ⟨htype, hlong, hdatagram⟩ := dhcpOf_some h
  have harp : ¬ rd16 f 12 = 0x0806 := by
    rw [htype]
    decide
  have hip : ¬ (rd16 f 12 ≠ 0x0800 ∨ len < 14 + 20) := by
    rintro (hne | hlt)
    · exact hne htype
    · omega
  unfold payloadPositions
  rw [if_neg harp, if_neg hip, hdatagram]

/-- The frame behind its Ethernet addresses. -/
theorem rewriteFrame_eq :
    ∃ g : Bytes, (∀ i, 12 ≤ i → g i = f i) ∧ rewriteFrame rule f len = rewritePayload rule g len :=
  ⟨_, fun i hi => (rewriteMac_outside rule _ (Or.inr hi)).trans (rewriteMac_outside rule f (by omega)),
    rfl⟩

theorem dhcpOf_congr {g : Bytes} (h : ∀ i, 12 ≤ i → g i = f i) : dhcpOf g len = dhcpOf f len := by
  unfold dhcpOf
  rw [rd16_congr (h 12 le_rfl) (h 13 (by omega)), dhcpDatagram_congr fun i hi _ => h i hi]

theorem rewritePayload_dhcp {g : Bytes} (h : dhcpOf g len = some (udpOff, udpLen)) :
    rewritePayload rule g len = rewriteBootp rule g len udpOff udpLen := by
  obtain ⟨htype, hlong, hdatagram⟩ := dhcpOf_some h
  have harp : ¬ rd16 g 12 = 0x0806 := by
    rw [htype]
    decide
  have hip : ¬ (rd16 g 12 ≠ 0x0800 ∨ len < 14 + 20) := by
    rintro (hne | hlt)
    · exact hne htype
    · omega
  unfold rewritePayload
  rw [if_neg harp, if_neg hip, hdatagram]

theorem rewritePayload_other {g : Bytes} (h : dhcpOf g len = none) :
    rewritePayload rule g len = g ∨
      (rd16 g 12 = 0x0806 ∧ 14 + 28 ≤ len ∧
        rewritePayload rule g len = (rewriteMac rule (rewriteMac rule g (14 + 8)).1 (14 + 18)).1) := by
  unfold rewritePayload
  split
  · next harp =>
      split
      · next hlong => exact .inr ⟨harp, hlong, rfl⟩
      · exact .inl rfl
  · split
    · exact .inl rfl
    · next hip =>
        push Not at hip
        have hdatagram : dhcpDatagram g len = none := by
          unfold dhcpOf at h
          rwa [if_pos ⟨hip.1, by omega⟩] at h
        rw [hdatagram]
        exact .inl rfl

/-- The bytes of an address. -/
def InAddress (f : Bytes) (len i : Nat) : Prop := ∃ q ∈ macPositions f len, q ≤ i ∧ i < q + 6

/-- The bytes of the UDP checksum of a DHCP frame. -/
def InChecksum (f : Bytes) (len i : Nat) : Prop :=
  ∃ udpOff udpLen, dhcpOf f len = some (udpOff, udpLen) ∧ udpOff + 6 ≤ i ∧ i < udpOff + 8

/-- The bytes of a host name that the rule replaces. -/
def InWritten (rule : FieldRule) (f : Bytes) (len i : Nat) : Prop :=
  ∃ udpOff udpLen, dhcpOf f len = some (udpOff, udpLen) ∧
    ∃ o ∈ bootpOptions f udpOff (bootpEnd len udpOff udpLen),
      NameWritten rule f o ∧ o + 2 ≤ i ∧ i < o + 2 + (f (o + 1)).toNat

/-- Every other byte stays. -/
theorem rewriteFrame_untouched (hlen : 14 ≤ len) {i : Nat} (hmac : ¬ InAddress f len i)
    (hname : ¬ InWritten rule f len i) (hsum : ¬ InChecksum f len i) :
    rewriteFrame rule f len i = f i := by
  have haway (q : Nat) (hq : q ∈ macPositions f len) : i < q ∨ q + 6 ≤ i := by
    by_contra hin
    push Not at hin
    exact hmac ⟨q, hq, hin⟩
  have hpositions : macPositions f len = 0 :: 6 :: payloadPositions f len :=
    if_neg (Nat.not_lt.mpr hlen)
  rw [hpositions] at haway
  have hdst := haway 0 List.mem_cons_self
  have hsrc := haway 6 (List.mem_cons_of_mem _ List.mem_cons_self)
  obtain ⟨g, hg, hframe⟩ := @rewriteFrame_eq rule f len
  have hi : 12 ≤ i := by omega
  rw [hframe]
  have hdhcp := @dhcpOf_congr f len g hg
  cases hcase : dhcpOf f len with
  | none =>
      rw [hcase] at hdhcp
      rcases @rewritePayload_other rule len g hdhcp with hsame | ⟨harp, hlong, hsame⟩
      · rw [hsame]
        exact hg i hi
      · have harp' : rd16 f 12 = 0x0806 :=
          (rd16_congr (hg 12 le_rfl) (hg 13 (by omega))).symm.trans harp
        have hpayload : payloadPositions f len = [14 + 8, 14 + 18] := by
          unfold payloadPositions
          rw [if_pos harp', if_pos hlong]
        rw [hpayload] at haway
        have hsender := haway (14 + 8) (by simp)
        have htarget := haway (14 + 18) (by simp)
        rw [hsame]
        exact (rewriteMac_outside rule _ htarget).trans
          ((rewriteMac_outside rule g hsender).trans (hg i hi))
  | some datagram =>
      obtain ⟨udpOff, udpLen⟩ := datagram
      rw [hcase] at hdhcp
      have hoff := dhcpDatagram_some (dhcpOf_some hcase).2.2
      rw [rewritePayload_dhcp hdhcp, rewriteBootp_untouched]
      · exact hg i hi
      · intro q hq
        rw [bootpPositions_congr fun i hi => hg i (by omega), ← payloadPositions_dhcp hcase] at hq
        exact haway q (List.mem_cons_of_mem _ (List.mem_cons_of_mem _ hq))
      · intro o ho hwritten
        rw [bootpOptions_congr fun i hi => hg i (by omega)] at ho
        have hge := bootpOptions_ge ho
        have hsame : ∀ i, o ≤ i → g i = f i := fun i hi => hg i (by omega)
        rw [hsame (o + 1) (Nat.le_succ o)]
        by_contra hin
        push Not at hin
        exact hname ⟨udpOff, udpLen, hcase, o, ho, (nameWritten_congr hsame).mp hwritten, hin⟩
      · by_contra hin
        push Not at hin
        exact hsum ⟨udpOff, udpLen, hcase, hin⟩

/-- Whether a datagram with something replaced, and what becomes of its checksum. -/
theorem rewriteFrame_checksum (h : dhcpOf f len = some (udpOff, udpLen)) :
    (BootpWritten rule f udpOff udpLen (bootpEnd len udpOff udpLen) →
      rd16 (rewriteFrame rule f len) (udpOff + 6) =
        if rd16 f (udpOff + 6) = 0 then 0
        else computeUdpChecksum (rewriteFrame rule f len) udpOff udpLen) ∧
      (¬ BootpWritten rule f udpOff udpLen (bootpEnd len udpOff udpLen) →
        ∀ i, 12 ≤ i → rewriteFrame rule f len i = f i) := by
  obtain ⟨g, hg, hframe⟩ := @rewriteFrame_eq rule f len
  have hdhcp : dhcpOf g len = some (udpOff, udpLen) := (dhcpOf_congr hg).trans h
  obtain ⟨-, hoff, -, hudp⟩ := dhcpDatagram_some (dhcpOf_some h).2.2
  have hsame := @bootpWritten_congr rule f udpOff udpLen g (bootpEnd len udpOff udpLen)
    fun i hi => hg i (by omega)
  rw [hframe, rewritePayload_dhcp hdhcp]
  constructor
  · intro hwritten
    rw [rewriteBootp_checksum hoff hudp (hsame.mpr hwritten),
      rd16_congr (hg (udpOff + 6) (by omega)) (hg (udpOff + 6 + 1) (by omega))]
  · intro hquiet i hi
    rw [rewriteBootp_cases.2 fun hwritten => hquiet (hsame.mp hwritten)]
    exact hg i hi

/-- The rewrite leaves the datagram where it is. -/
theorem dhcpOf_rewriteFrame : dhcpOf (rewriteFrame rule f len) len = dhcpOf f len := by
  obtain ⟨g, hg, hframe⟩ := @rewriteFrame_eq rule f len
  rw [hframe, ← @dhcpOf_congr f len g hg]
  cases hcase : dhcpOf g len with
  | none =>
      rcases @rewritePayload_other rule len g hcase with hsame | ⟨harp, -, hsame⟩
      · rw [hsame]
        exact hcase
      · have htype : rd16 (rewritePayload rule g len) 12 = 0x0806 := by
          rw [← harp, hsame]
          exact rd16_congr
            ((rewriteMac_outside rule _ (by omega)).trans (rewriteMac_outside rule g (by omega)))
            ((rewriteMac_outside rule _ (by omega)).trans (rewriteMac_outside rule g (by omega)))
        refine if_neg ?_
        rw [htype]
        exact fun hip => absurd hip.1 (by decide)
  | some datagram =>
      obtain ⟨udpOff, udpLen⟩ := datagram
      have hoff := dhcpDatagram_some (dhcpOf_some hcase).2.2
      rw [rewritePayload_dhcp hcase, ← hcase]
      have hkept (i : Nat) (hi : i < udpOff + 6) : rewriteBootp rule g len udpOff udpLen i = g i :=
        rewriteBootp_before hi
      unfold dhcpOf
      rw [rd16_congr (hkept 12 (by omega)) (hkept 13 (by omega)),
        dhcpDatagram_congr fun i _ hi => hkept i (by omega)]

end Frame

/-! ### Sanitizing and restoring -/

/-- The bytes of a host name option. -/
def InHostname (f : Bytes) (len i : Nat) : Prop :=
  ∃ udpOff udpLen, dhcpOf f len = some (udpOff, udpLen) ∧
    ∃ o ∈ bootpOptions f udpOff (bootpEnd len udpOff udpLen),
      NameAt f o ∧ o + 2 ≤ i ∧ i < o + 2 + (f (o + 1)).toNat

/-- The checksum is the one of the datagram's bytes. -/
def ChecksumValid (f : Bytes) (len : Nat) : Prop :=
  ∀ udpOff udpLen, dhcpOf f len = some (udpOff, udpLen) →
    rd16 f (udpOff + 6) = computeUdpChecksum f udpOff udpLen

/-- Every host name is its own replacement; there may be none. -/
def HostnamesKept (f : Bytes) (len : Nat) : Prop :=
  ∀ udpOff udpLen, dhcpOf f len = some (udpOff, udpLen) →
    ∀ o ∈ bootpOptions f udpOff (bootpEnd len udpOff udpLen), NameAt f o →
      nameAt f o = mapHostname (nameAt f o)

/-- The checksum is off or right, or the datagram does not hold the address. -/
def ChecksumRestorable (f : Bytes) (len : Nat) (identity : Mac) : Prop :=
  ∀ udpOff udpLen, dhcpOf f len = some (udpOff, udpLen) →
    rd16 f (udpOff + 6) = 0 ∨ rd16 f (udpOff + 6) = computeUdpChecksum f udpOff udpLen ∨
      ∀ q ∈ bootpPositions f (bootpEnd len udpOff udpLen) udpOff udpLen, macAt f q ≠ identity

section Law

variable {f : Bytes} {len : Nat} {state : NdsNetSanitizeState} {identity : Mac}

theorem inHostname_of_written {rule : FieldRule} {i : Nat} (h : InWritten rule f len i) :
    InHostname f len i := by
  obtain ⟨udpOff, udpLen, hdhcp, o, ho, hwritten, hin⟩ := h
  exact ⟨udpOff, udpLen, hdhcp, o, ho, hwritten.1, hin⟩

theorem restore_writes_no_name (synthetic real : Mac) (g : Bytes) (o : Nat) :
    ¬ NameWritten (restoreRule synthetic real) g o := fun h => by
  cases h.2

theorem sanitize_keeps_names (h : HostnamesKept f len) {i : Nat} :
    ¬ InWritten (sanitizeRule state) f len i := by
  rintro ⟨udpOff, udpLen, hdhcp, o, ho, ⟨hname, hwritten⟩, -⟩
  have hsame := h udpOff udpLen hdhcp o ho hname
  have hnone : (sanitizeRule state).onHostname (nameAt f o) = none := if_neg (not_not.mpr hsame)
  rw [hnone] at hwritten
  cases hwritten

/-- A checksum that is right stays right. -/
theorem checksumValid_rewriteFrame {rule : FieldRule} (h : ChecksumValid f len) :
    ChecksumValid (rewriteFrame rule f len) len := by
  intro udpOff udpLen hdhcp
  rw [dhcpOf_rewriteFrame] at hdhcp
  have hbounds := computeUdpChecksum_bounds f udpOff udpLen
  obtain ⟨-, hoff, -, hudp⟩ := dhcpDatagram_some (dhcpOf_some hdhcp).2.2
  obtain ⟨hwritten, hquiet⟩ := @rewriteFrame_checksum rule f len udpOff udpLen hdhcp
  have hvalid := h udpOff udpLen hdhcp
  by_cases hcase : BootpWritten rule f udpOff udpLen (bootpEnd len udpOff udpLen)
  · rw [hwritten hcase, if_neg (by omega)]
  · have hsame := hquiet hcase
    rw [rd16_congr (hsame (udpOff + 6) (by omega)) (hsame (udpOff + 6 + 1) (by omega)), hvalid]
    exact (computeUdpChecksum_congr hudp (fun i hi _ => hsame i (by omega))
      fun i hi _ => hsame i (by omega)).symm

theorem bootpPositions_subset (hlen : 14 ≤ len) {udpOff udpLen : Nat}
    (hdhcp : dhcpOf f len = some (udpOff, udpLen)) {q : Nat}
    (hq : q ∈ bootpPositions f (bootpEnd len udpOff udpLen) udpOff udpLen) :
    q ∈ macPositions f len := by
  rw [← payloadPositions_dhcp hdhcp] at hq
  unfold macPositions
  rw [if_neg (Nat.not_lt.mpr hlen)]
  exact List.mem_cons_of_mem _ (List.mem_cons_of_mem _ hq)

theorem bootpPositions_rewriteFrame {rule : FieldRule} (hlen : 14 ≤ len) {udpOff udpLen : Nat}
    (hdhcp : dhcpOf f len = some (udpOff, udpLen)) :
    bootpPositions (rewriteFrame rule f len) (bootpEnd len udpOff udpLen) udpOff udpLen =
      bootpPositions f (bootpEnd len udpOff udpLen) udpOff udpLen := by
  have hpositions := (@rewriteFrame_spec rule f len hlen).1
  have hdhcpOut : dhcpOf (rewriteFrame rule f len) len = some (udpOff, udpLen) :=
    dhcpOf_rewriteFrame.trans hdhcp
  unfold macPositions at hpositions
  rw [if_neg (Nat.not_lt.mpr hlen), if_neg (Nat.not_lt.mpr hlen)] at hpositions
  rw [← payloadPositions_dhcp hdhcp, ← payloadPositions_dhcp hdhcpOut]
  exact (List.cons.inj (List.cons.inj hpositions).2).2

/-- With no name to replace, a datagram is rewritten for an address it holds. -/
theorem sanitize_writes_identity (hknown : state.identityMac = some identity)
    (hnames : HostnamesKept f len) {udpOff udpLen : Nat}
    (hdhcp : dhcpOf f len = some (udpOff, udpLen))
    (h : BootpWritten (sanitizeRule state) f udpOff udpLen (bootpEnd len udpOff udpLen)) :
    ∃ q ∈ bootpPositions f (bootpEnd len udpOff udpLen) udpOff udpLen, macAt f q = identity := by
  rcases h with ⟨q, hq, hmac⟩ | ⟨o, ho, hname, hreplaced⟩
  · refine ⟨q, hq, ?_⟩
    by_contra hne
    unfold sanitizeRule at hmac
    dsimp only at hmac
    rw [hknown, Option.bind_some, if_neg fun h => hne h.1] at hmac
    cases hmac
  · have hnone : (sanitizeRule state).onHostname (nameAt f o) = none :=
      if_neg (not_not.mpr (hnames udpOff udpLen hdhcp o ho hname))
    rw [hnone] at hreplaced
    cases hreplaced

variable (hlen : 14 ≤ len) (hknown : state.identityMac = some identity)

include hlen hknown

/-- No position of the sanitized frame holds the address. -/
theorem sanitized_hides (hself : mapMac identity ≠ identity) :
    ∀ q ∈ macPositions (rewriteFrame (sanitizeRule state) f len) len,
      macAt (rewriteFrame (sanitizeRule state) f len) q ≠ identity := by
  obtain ⟨hpositions, hfields⟩ := @rewriteFrame_spec (sanitizeRule state) f len hlen
  intro q hq
  rw [hpositions] at hq
  rw [hfields q hq, applied_sanitize_known hknown]
  split
  · exact hself
  · next hne =>
      intro heq
      exact hne ⟨heq, fun h => hself (h ▸ heq ▸ rfl)⟩

variable (hno : ∀ q ∈ macPositions f len, macAt f q ≠ mapMac identity)

include hno

/-- Every address is back. -/
theorem restored_address {i : Nat} (hin : InAddress f len i) :
    rewriteFrame (restoreRule (mapMac identity) identity)
      (rewriteFrame (sanitizeRule state) f len) len i = f i := by
  obtain ⟨hpositions, hfields⟩ := @rewriteFrame_spec (sanitizeRule state) f len hlen
  obtain ⟨-, hback⟩ := @rewriteFrame_spec (restoreRule (mapMac identity) identity)
    (rewriteFrame (sanitizeRule state) f len) len hlen
  rw [hpositions] at hback
  obtain ⟨q, hq, hle, hlt⟩ := hin
  have hmac := hback q hq
  rw [hfields q hq] at hmac
  rw [(applied_restore_sanitize _ (.inr hknown)).mpr (.inr (hno q hq))] at hmac
  have hbyte := congrFun hmac ⟨i - q, by omega⟩
  have hindex : q + (i - q) = i := by omega
  unfold macAt at hbyte
  dsimp only at hbyte
  rwa [hindex] at hbyte

/-- Every other byte is back, but for replaced names and the checksum. -/
theorem restored_other {i : Nat} (hname : ¬ InWritten (sanitizeRule state) f len i)
    (hsum : ¬ InChecksum f len i) :
    rewriteFrame (restoreRule (mapMac identity) identity)
      (rewriteFrame (sanitizeRule state) f len) len i = f i := by
  by_cases hmac : InAddress f len i
  · exact restored_address hlen hknown hno hmac
  · obtain ⟨hpositions, -⟩ := @rewriteFrame_spec (sanitizeRule state) f len hlen
    rw [rewriteFrame_untouched hlen]
    · exact rewriteFrame_untouched hlen hmac hname hsum
    · unfold InAddress
      rw [hpositions]
      exact hmac
    · rintro ⟨_, _, _, o, _, hwritten, _⟩
      exact restore_writes_no_name _ _ _ o hwritten
    · unfold InChecksum
      rw [dhcpOf_rewriteFrame]
      exact hsum

/-- The sanitized datagram is rewritten on the way back when it was on the way in. -/
theorem restore_bootpWritten (hnames : HostnamesKept f len) {udpOff udpLen : Nat}
    (hdhcp : dhcpOf f len = some (udpOff, udpLen)) :
    BootpWritten (restoreRule (mapMac identity) identity)
        (rewriteFrame (sanitizeRule state) f len) udpOff udpLen (bootpEnd len udpOff udpLen) ↔
      BootpWritten (sanitizeRule state) f udpOff udpLen (bootpEnd len udpOff udpLen) := by
  obtain ⟨-, hfields⟩ := @rewriteFrame_spec (sanitizeRule state) f len hlen
  have hsame := @bootpPositions_rewriteFrame f len (sanitizeRule state) hlen udpOff udpLen hdhcp
  constructor
  · rintro (⟨q, hq, hmac⟩ | ⟨o, _, hname⟩)
    · rw [hsame] at hq
      have hin := bootpPositions_subset hlen hdhcp hq
      by_contra hquiet
      have hnot : ¬ ((sanitizeRule state).onMac (macAt f q)).isSome :=
        fun h => hquiet (.inl ⟨q, hq, h⟩)
      have hkept : macAt (rewriteFrame (sanitizeRule state) f len) q = macAt f q := by
        rw [hfields q hin]
        unfold FieldRule.applied
        rw [Option.not_isSome_iff_eq_none.mp hnot]
        rfl
      have hnone : (restoreRule (mapMac identity) identity).onMac
          (macAt (rewriteFrame (sanitizeRule state) f len) q) = none := by
        rw [hkept]
        exact if_neg (hno q hin)
      rw [hnone] at hmac
      cases hmac
    · exact absurd hname (restore_writes_no_name _ _ _ o)
  · intro hwritten
    obtain ⟨q, hq, hmac⟩ := sanitize_writes_identity hknown hnames hdhcp hwritten
    have hin := bootpPositions_subset hlen hdhcp hq
    refine .inl ⟨q, hsame ▸ hq, ?_⟩
    have hsynthetic : macAt (rewriteFrame (sanitizeRule state) f len) q = mapMac identity := by
      rw [hfields q hin, applied_sanitize_known hknown]
      exact if_pos ⟨hmac, hno q hin⟩
    rw [hsynthetic]
    exact congrArg Option.isSome (if_pos rfl)

/-- The checksum of a rewritten datagram is taken again over the bytes it was over. -/
theorem restored_checksum (hnames : HostnamesKept f len)
    (hsum : ChecksumRestorable f len identity) {udpOff udpLen : Nat}
    (hdhcp : dhcpOf f len = some (udpOff, udpLen))
    (hcase : BootpWritten (sanitizeRule state) f udpOff udpLen (bootpEnd len udpOff udpLen)) :
    rd16 (rewriteFrame (restoreRule (mapMac identity) identity)
      (rewriteFrame (sanitizeRule state) f len) len) (udpOff + 6) = rd16 f (udpOff + 6) := by
  obtain ⟨-, hoff, -, hudp⟩ := dhcpDatagram_some (dhcpOf_some hdhcp).2.2
  have hdhcpOut : dhcpOf (rewriteFrame (sanitizeRule state) f len) len = some (udpOff, udpLen) := by
    rw [dhcpOf_rewriteFrame]
    exact hdhcp
  have hin := (@rewriteFrame_checksum (sanitizeRule state) f len udpOff udpLen hdhcp).1 hcase
  have hback := (@rewriteFrame_checksum (restoreRule (mapMac identity) identity) _ len udpOff
    udpLen hdhcpOut).1 ((restore_bootpWritten hlen hknown hno hnames hdhcp).mpr hcase)
  rw [hback, hin]
  rcases hsum udpOff udpLen hdhcp with hzero | hvalid | haway
  · rw [if_pos hzero, if_pos rfl, hzero]
  · have hnew := (computeUdpChecksum_bounds (rewriteFrame (sanitizeRule state) f len) udpOff udpLen).1
    have hold := (computeUdpChecksum_bounds f udpOff udpLen).1
    have hother (j : Nat) (hj : j < udpOff + 6 ∨ udpOff + 8 ≤ j) :
        rewriteFrame (restoreRule (mapMac identity) identity)
          (rewriteFrame (sanitizeRule state) f len) len j = f j := by
      refine restored_other hlen hknown hno (sanitize_keeps_names hnames) ?_
      rintro ⟨off, ulen, hsame, hle, hlt⟩
      rw [hdhcp] at hsame
      cases hsame
      omega
    have henabled : rd16 f (udpOff + 6) ≠ 0 := by omega
    rw [if_neg henabled, if_neg hnew.ne', hvalid]
    exact computeUdpChecksum_congr hudp (fun j _ hj => hother j (.inl (by omega)))
      fun j _ hj => hother j hj
  · obtain ⟨q, hq, hmac⟩ := sanitize_writes_identity hknown hnames hdhcp hcase
    exact absurd hmac (haway q hq)

/-- With no name replaced and a checksum that can be recomputed, all of it is back. -/
theorem restored_exactly (hnames : HostnamesKept f len) (hsum : ChecksumRestorable f len identity) :
    rewriteFrame (restoreRule (mapMac identity) identity)
      (rewriteFrame (sanitizeRule state) f len) len = f := by
  funext i
  by_cases hin : InChecksum f len i
  swap
  · exact restored_other hlen hknown hno (sanitize_keeps_names hnames) hin
  obtain ⟨udpOff, udpLen, hdhcp, hle, hlt⟩ := hin
  obtain ⟨-, hoff, -, -⟩ := dhcpDatagram_some (dhcpOf_some hdhcp).2.2
  have hdhcpOut : dhcpOf (rewriteFrame (sanitizeRule state) f len) len = some (udpOff, udpLen) := by
    rw [dhcpOf_rewriteFrame]
    exact hdhcp
  by_cases hcase : BootpWritten (sanitizeRule state) f udpOff udpLen (bootpEnd len udpOff udpLen)
  · obtain ⟨hhigh, hlow⟩ := eq_of_rd16
      (restored_checksum hlen hknown hno hnames hsum hdhcp hcase)
    obtain rfl | rfl : i = udpOff + 6 ∨ i = udpOff + 6 + 1 := by omega
    · exact hhigh
    · exact hlow
  · have hback := fun h => hcase ((restore_bootpWritten hlen hknown hno hnames hdhcp).mp h)
    have hquiet := (@rewriteFrame_checksum (sanitizeRule state) f len udpOff udpLen hdhcp).2 hcase
    have hquiet' := (@rewriteFrame_checksum (restoreRule (mapMac identity) identity) _ len udpOff
      udpLen hdhcpOut).2 hback
    exact (hquiet' i (by omega)).trans (hquiet i (by omega))

end Law

/-- For every frame that the sanitizer meets with a known identity: what is left
of the address, which bytes change, the checksum, and what restoring gives back. -/
theorem sanitizer_law (f : Bytes) (len : Nat) (direction : UInt8) (state : NdsNetSanitizeState)
    (identity : Mac) (hknown : (sanitizeState f len direction state).identityMac = some identity) :
    let out := (netSanitizeEthernetFrame f len direction state).1
    let back := netDesanitizeEthernetFrameForReplay out len (mapMac identity) identity
    (∀ i, len ≤ i → out i = f i) ∧
      (mapMac identity ≠ identity → ∀ q ∈ macPositions out len, macAt out q ≠ identity) ∧
      (∀ i, ¬ InAddress f len i → ¬ InHostname f len i → ¬ InChecksum f len i → out i = f i) ∧
      (ChecksumValid f len → ChecksumValid out len) ∧
      ((∀ q ∈ macPositions f len, macAt f q ≠ mapMac identity) →
        (∀ i, ¬ InHostname f len i → ¬ InChecksum f len i → back i = f i) ∧
          (HostnamesKept f len → ChecksumRestorable f len identity → back = f)) := by
  intro out back
  by_cases hshort : len < 14
  · have hout : out = f := congrArg Prod.fst (if_pos hshort)
    have hback : back = f := (if_pos hshort).trans hout
    have hnone : macPositions f len = [] := if_pos hshort
    rw [hback, hout, hnone]
    exact ⟨fun _ _ => rfl, fun _ q hq => (nomatch hq), fun _ _ _ _ => rfl, id,
      fun _ => ⟨fun _ _ _ => rfl, fun _ _ => rfl⟩⟩
  · have hlen : 14 ≤ len := Nat.not_lt.mp hshort
    have hout : out = rewriteFrame (sanitizeRule (sanitizeState f len direction state)) f len :=
      congrArg Prod.fst (if_neg hshort)
    have hback : back = rewriteFrame (restoreRule (mapMac identity) identity) out len :=
      if_neg hshort
    rw [hback, hout]
    refine ⟨fun i hi => rewriteFrame_beyond hlen hi, sanitized_hides hlen hknown,
      fun i hmac hname hsum => rewriteFrame_untouched hlen hmac
        (fun h => hname (inHostname_of_written h)) hsum,
      checksumValid_rewriteFrame, fun hno => ⟨fun i hname hsum => ?_, ?_⟩⟩
    · exact restored_other hlen hknown hno (fun h => hname (inHostname_of_written h)) hsum
    · exact restored_exactly hlen hknown hno

/-- A DHCP request of a console, its checksum wrong. -/
def wrongChecksumFrame : List UInt8 :=
  List.replicate 6 0xFF ++ [0, 9, 0xBF, 0, 0, 1] ++ [8, 0] ++
    [0x45, 0, 0, 62, 0, 0, 0, 0, 64, 17, 0, 0, 0, 0, 0, 0, 0xFF, 0xFF, 0xFF, 0xFF] ++
    [0, 68, 0, 67, 0, 42, 0, 1] ++ [1, 1, 6] ++ List.replicate 25 0 ++ [0, 9, 0xBF, 0, 0, 1]

theorem wrongChecksumFrame_hidden :
    (sanitizeState (ofFrame wrongChecksumFrame) 76 kNdsNetSanitizeDirTx {}).identityMac =
        some (macAt (ofFrame wrongChecksumFrame) 6) ∧
      ∀ q ∈ macPositions (netSanitizeEthernetFrame (ofFrame wrongChecksumFrame) 76
          kNdsNetSanitizeDirTx {}).1 76,
        macAt (netSanitizeEthernetFrame (ofFrame wrongChecksumFrame) 76
          kNdsNetSanitizeDirTx {}).1 q ≠ macAt (ofFrame wrongChecksumFrame) 6 :=
  ⟨rfl, (sanitizer_law (ofFrame wrongChecksumFrame) 76 kNdsNetSanitizeDirTx {} _ rfl).2.1
    (by decide)⟩

/-- An address that the hash maps to itself. -/
def selfMappedMac : Mac := fun i => [0x02, 0xB7, 0x90, 0x49, 0xD1, 0xBD].getD i 0

def selfMappedFrame : List UInt8 :=
  List.replicate 6 0xFF ++ [0x02, 0xB7, 0x90, 0x49, 0xD1, 0xBD] ++ [0, 0]

/-- That address stays where it is; and a wrong checksum, with no host name in the
frame and the synthetic address nowhere, does not come back. -/
theorem sanitizer_exceptions :
    ((netSanitizeEthernetFrame (ofFrame selfMappedFrame) 14 kNdsNetSanitizeDirTx {}).2.identityMac =
        some selfMappedMac ∧
      6 ∈ macPositions (netSanitizeEthernetFrame (ofFrame selfMappedFrame) 14
        kNdsNetSanitizeDirTx {}).1 14 ∧
      macAt (netSanitizeEthernetFrame (ofFrame selfMappedFrame) 14 kNdsNetSanitizeDirTx {}).1 6 =
        selfMappedMac) ∧
      ∃ identity, (netSanitizeEthernetFrame (ofFrame wrongChecksumFrame) 76
          kNdsNetSanitizeDirTx {}).2.identityMac = some identity ∧
        (∀ q ∈ macPositions (ofFrame wrongChecksumFrame) 76,
          macAt (ofFrame wrongChecksumFrame) q ≠ mapMac identity) ∧
        (∀ i, ¬ InHostname (ofFrame wrongChecksumFrame) 76 i) ∧
        netDesanitizeEthernetFrameForReplay (netSanitizeEthernetFrame (ofFrame wrongChecksumFrame)
          76 kNdsNetSanitizeDirTx {}).1 76 (mapMac identity) identity 41 ≠
            ofFrame wrongChecksumFrame 41 := by
  refine ⟨⟨by decide, by decide, by decide⟩, macAt (ofFrame wrongChecksumFrame) 6, rfl, ?_, ?_, ?_⟩
  · decide
  · rintro i ⟨udpOff, udpLen, hdhcp, o, ho, -⟩
    have hwhere : dhcpOf (ofFrame wrongChecksumFrame) 76 = some (34, 42) := by decide
    rw [hwhere] at hdhcp
    cases hdhcp
    have hnone : bootpOptions (ofFrame wrongChecksumFrame) 34 (bootpEnd 76 34 42) = [] :=
      if_neg (by decide)
    rw [hnone] at ho
    cases ho
  · decide +kernel

end NdsRecomp.Net
