import NdsRecomp.Firmware.ChecksumStandard

/-!
A generated image verifies for every MAC, and keeps verifying under every
sequence of successful patches.
-/

namespace NdsRecomp.Firmware

open Image

/-- What the checks ask of an image with settings at 0x1FE00, and what keeps the
patches away from the fields they ask it of. -/
structure Verifies (fw : Image) : Prop where
  offset : fw.userSettingsOffset = 0x1FE00
  wifiEnd : fw.wifiConfigEnd = 0x164
  base : ∀ copy < 2, baseChecksumValid fw (0x1FE00 + copy * 0x100) = true
  plain : ∀ copy < 2, fw.byte (0x1FE00 + copy * 0x100 + 0x74) = 0
  wifi : fw.wifiConfigValid = true

theorem DirectBoot.userDataChecksumValid_eq :
    DirectBoot.userDataChecksumValid = Firmware.userDataChecksumValid := rfl

theorem Verifies.userData {fw : Image} (h : Verifies fw) {copy : Nat} (hcopy : copy < 2) :
    DirectBoot.userDataChecksumValid fw (fw.userSettingsOffset + copy * 0x100) = true := by
  rw [DirectBoot.userDataChecksumValid_eq, h.offset, userDataChecksumValid, h.base copy hcopy]
  unfold extendedChecksumValid
  rw [h.plain copy hcopy]
  rfl

/-! ### Patches -/

theorem userSettingsOffset_congr {fw fw' : Image}
    (h : ∀ i, i = 0x20 ∨ i = 0x21 → fw'.byte i = fw.byte i) :
    fw'.userSettingsOffset = fw.userSettingsOffset := by
  unfold Image.userSettingsOffset
  rw [h _ (.inl rfl), h _ (.inr rfl)]

theorem Verifies.apply {fw fw' : Image} (h : Verifies fw) {patch : Patch}
    (happly : patch.apply fw = some fw') : Verifies fw' := by
  obtain ⟨⟨_, hsame⟩, hsettings, hwifi⟩ := Patch.applied happly
  rw [h.offset] at hsame hsettings
  cases patch.writes_one with
  | inl hnone =>
      -- only the MAC and the checksum in the header change
      have hkept (i : Nat) (hi : i < 0x2A ∨ 0x3C ≤ i ∨ i = 0x2C ∨ i = 0x2D) :
          fw'.byte i = fw.byte i := hsame i fun hnames => by
        obtain ⟨_, hlow, hhigh, hne, hne'⟩ := hnames.wifi_lt hnone
        unfold kMacOffset at hhigh
        omega
      have hlength := wifiConfigLength_congr fun i hi => hkept i (by omega)
      refine ⟨?_, ?_, fun copy hcopy => ?_, fun copy hcopy => ?_, ?_⟩
      · rw [userSettingsOffset_congr fun i hi => hkept i (by omega), h.offset]
      · unfold wifiConfigEnd
        rw [hlength]
        exact h.wifiEnd
      · rw [baseChecksumValid_congr fun i hi _ => hkept i (by omega), h.base copy hcopy]
      · rw [hkept _ (by omega), h.plain copy hcopy]
      · cases hwrites : patch.writesWifi with
        | true => exact (hwifi hwrites).1
        | false =>
            rw [wifiConfigValid_congr fun i _ _ => hsame i fun hnames => ?_, h.wifi]
            have := hnames.wifi_lt hnone
            rw [hwrites] at this
            cases this.1
  | inr hnone =>
      have hkept (i : Nat) (hi : i < 0x1FE00) : fw'.byte i = fw.byte i :=
        hsame i fun hnames => by
          have := hnames.settings_ge hnone
          omega
      have hlength := wifiConfigLength_congr fun i hi => hkept i (by omega)
      refine ⟨?_, ?_, fun copy hcopy => ?_, fun copy hcopy => ?_, ?_⟩
      · rw [userSettingsOffset_congr fun i hi => hkept i (by omega), h.offset]
      · unfold wifiConfigEnd
        rw [hlength]
        exact h.wifiEnd
      · cases hwrites : patch.writesSettings with
        | true => exact hsettings hwrites copy hcopy
        | false =>
            rw [baseChecksumValid_congr fun i _ _ => hsame i fun hnames => ?_, h.base copy hcopy]
            have := hnames.wifi_lt hwrites
            rw [hnone] at this
            cases this.1
      · rw [hsame _ fun hnames => ?_, h.plain copy hcopy]
        obtain ⟨_, other, hother, f, hf, heq, hfield⟩ := hnames.resolve_right (by simp [hnone])
        omega
      · rw [wifiConfigValid_congr fun i _ hhigh => hkept i ?_, h.wifi]
        have := h.wifiEnd
        omega

theorem Verifies.applyAll {patches : List Patch} {fw fw' : Image} (h : Verifies fw)
    (happly : applyAll patches fw = some fw') : Verifies fw' := by
  induction patches generalizing fw with
  | nil =>
      obtain rfl := Option.some.inj happly
      exact h
  | cons patch patches ih =>
      obtain ⟨next, hnext, htail⟩ := Option.bind_eq_some_iff.mp happly
      exact ih (h.apply hnext) htail

/-! ### The generated image -/

namespace GeneratedFirmware

theorem userOffset_eq : userOffset = 0x1FE00 := by decide

theorem crc16_eq : crc16 = ndsFirmwareCrc16 := rfl

theorem header_offset (mac : Vector UInt8 6) :
    (header mac).byte 0x20 = 0xC0 ∧ (header mac).byte 0x21 = 0x3F := ⟨rfl, rfl⟩

theorem header_wifiLength (mac : Vector UInt8 6) :
    (header mac).byte 0x2C = 0x38 ∧ (header mac).byte 0x2D = 0x01 := ⟨rfl, rfl⟩

/-- The header with its checksum. -/
def sealedHeader (mac : Vector UInt8 6) : Image :=
  (header mac).put16 0x2A (crc16 (header mac) 0x2C 0x138 0x0000)

theorem sealedHeader_wifiLength (mac : Vector UInt8 6) :
    (sealedHeader mac).wifiConfigLength = 0x138 := by
  obtain ⟨hlow, hhigh⟩ := header_wifiLength mac
  unfold wifiConfigLength load16 kWifiConfigLenOffset sealedHeader
  rw [put16_byte_of_ne _ _ (by decide) (by decide), put16_byte_of_ne _ _ (by decide) (by decide),
    hlow, hhigh]
  decide

theorem sealedHeader_wifi (mac : Vector UInt8 6) : (sealedHeader mac).wifiConfigValid = true := by
  unfold wifiConfigValid
  rw [sealedHeader_wifiLength, beq_iff_eq]
  unfold sealedHeader kWifiConfigChecksumOffset kWifiConfigLenOffset
  rw [put16_load16, crc16_eq]
  refine (ndsFirmwareCrc16_congr _ fun i hlow _ => ?_).symm
  exact put16_byte_of_ne _ _ (by omega) (by omega)

/-- Behind the header come the boot byte, the access points and the settings. -/
theorem ndsGenerateFirmware_byte_of_header (mac : Vector UInt8 6) {i : Nat} (h : i < 0x200) :
    (ndsGenerateFirmware mac).byte i = (sealedHeader mac).byte i := by
  unfold ndsGenerateFirmware
  rw [userOffset_eq]
  simp (disch := omega) only [writeUserData_byte_of_not, writeAccessPoint_byte_of_not,
    put8_byte_of_ne]
  rfl

theorem writeUserData_valid (fw : Image) (u : Nat) :
    baseChecksumValid (writeUserData fw u) u = true := sealCopy_valid userData fw u

theorem writeUserData_plain (fw : Image) (u : Nat) : (writeUserData fw u).byte (u + 0x74) = 0 := by
  unfold writeUserData
  dsimp only
  rw [put16_byte_of_ne _ _ (by omega) (by omega), userData_byte_tail fw (by omega) (by omega)]

theorem ndsGenerateFirmware_verifies (mac : Vector UInt8 6) :
    Verifies (ndsGenerateFirmware mac) := by
  have hheader {i : Nat} (hi : i < 0x200) := ndsGenerateFirmware_byte_of_header mac hi
  have hlength : (ndsGenerateFirmware mac).wifiConfigLength = 0x138 := by
    rw [wifiConfigLength_congr fun i hi => hheader (by omega), sealedHeader_wifiLength]
  -- the first copy lies in front of what the second one writes
  obtain ⟨fw, hfw⟩ : ∃ fw, ndsGenerateFirmware mac =
      writeUserData (writeUserData fw 0x1FE00) 0x1FF00 := ⟨_, rfl⟩
  have hfirst (i : Nat) (hi : i < 0x1FF00) :
      (ndsGenerateFirmware mac).byte i = (writeUserData fw 0x1FE00).byte i := by
    rw [hfw, writeUserData_byte_of_not _ (.inl hi)]
  have htwo {copy : Nat} (hcopy : copy < 2) : copy = 0 ∨ copy = 1 := by omega
  refine ⟨?_, ?_, fun copy hcopy => ?_, fun copy hcopy => ?_, ?_⟩
  · obtain ⟨hlow, hhigh⟩ := header_offset mac
    unfold Image.userSettingsOffset
    rw [hheader (by omega), hheader (by omega)]
    unfold sealedHeader
    rw [put16_byte_of_ne _ _ (by decide) (by decide),
      put16_byte_of_ne _ _ (by decide) (by decide), hlow, hhigh]
    decide
  · unfold wifiConfigEnd
    rw [hlength]
    rfl
  · obtain rfl | rfl := htwo hcopy
    · rw [baseChecksumValid_congr fun i _ hi => hfirst i (by omega)]
      exact writeUserData_valid fw 0x1FE00
    · rw [hfw]
      exact writeUserData_valid _ 0x1FF00
  · obtain rfl | rfl := htwo hcopy
    · rw [hfirst _ (by omega)]
      exact writeUserData_plain fw 0x1FE00
    · rw [hfw]
      exact writeUserData_plain _ 0x1FF00
  · have hend : (sealedHeader mac).wifiConfigEnd = 0x164 := by
      unfold wifiConfigEnd
      rw [sealedHeader_wifiLength]
      rfl
    have hsame : (ndsGenerateFirmware mac).wifiConfigValid = (sealedHeader mac).wifiConfigValid :=
      wifiConfigValid_congr fun i _ hi => hheader (by omega)
    rw [hsame]
    exact sealedHeader_wifi mac

end GeneratedFirmware

/-- The firmware checksum is the plain CRC-16 in all three of its copies: no
register of the loops leaves the 32-bit accumulator, and every generated image
verifies, patched or not. -/
theorem firmwareCrc16_standard :
    (∀ (image : Image) (p length : Nat) (start : UInt16),
      ndsFirmwareCrc16 image p length start.toUInt32 =
          plainCrc16 start (image.bytes p length) ∧
        DirectBoot.crc16 image p length start.toUInt32 =
          plainCrc16 start (image.bytes p length) ∧
        GeneratedFirmware.crc16 image p length start.toUInt32 =
          plainCrc16 start (image.bytes p length)) ∧
    (∀ table ∈ kPolynomials, ∀ (image : Image) (p : Nat) (start : UInt16) (i : Nat),
      (∀ b ≤ 8,
        (accumulator table image p start.toUInt32 i b).toNat =
            exactAccumulator table image p start.toNat i b ∧
          exactAccumulator table image p start.toNat i b < 2 ^ 24) ∧
        (∀ bit < 8, mixed table bit < 2 ^ 24) ∧
        (accumulator table image p start.toUInt32 i 8).toNat < 2 ^ 16) ∧
    (∀ (mac : Vector UInt8 6) (patches : List Patch) (fw : Image),
      applyAll patches (GeneratedFirmware.ndsGenerateFirmware mac) = some fw →
      fw.wifiConfigValid = true ∧
        ∀ copy < 2, DirectBoot.userDataChecksumValid fw
          (fw.userSettingsOffset + copy * 0x100) = true) := by
  refine ⟨fun image p length start => ?_, fun table htable image p start i => ?_,
    fun mac patches fw happly => ?_⟩
  · have h := crc16With_standard image p length start
    exact ⟨h, h, h⟩
  · rw [tables_same htable]
    have hstart : start.toNat < 2 ^ 16 := start.toNat_lt
    have hexact {b : Nat} (hb : b ≤ 8) := accumulator_toNat image p start.toUInt32 i hb
    rw [UInt16.toNat_toUInt32] at hexact
    refine ⟨fun b hb => ⟨hexact hb, ?_⟩, fun bit => mixed_lt, ?_⟩
    · exact (exactAccumulator_lt image p hstart i hb).trans_le
        (Nat.pow_le_pow_right (by decide) (Nat.sub_le _ _))
    · rw [hexact (le_refl 8)]
      exact exactAccumulator_lt image p hstart i (le_refl 8)
  · have hverifies := (GeneratedFirmware.ndsGenerateFirmware_verifies mac).applyAll happly
    exact ⟨hverifies.wifi, fun copy => hverifies.userData⟩

theorem calibratedFirmware_verifies :
    ∃ fw, applyAll [.touchCalibration]
        (GeneratedFirmware.ndsGenerateFirmware #v[0x00, 0x09, 0xBF, 0x11, 0x22, 0x33]) = some fw ∧
      fw.wifiConfigValid = true := by
  have hsome : (applyAll [.touchCalibration] (GeneratedFirmware.ndsGenerateFirmware
      #v[0x00, 0x09, 0xBF, 0x11, 0x22, 0x33])).isSome = true := by
    set_option maxRecDepth 20000 in decide
  obtain ⟨fw, hfw⟩ := Option.isSome_iff_exists.mp hsome
  exact ⟨fw, hfw, (firmwareCrc16_standard.2.2 _ _ fw hfw).1⟩

end NdsRecomp.Firmware
