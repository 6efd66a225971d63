import NdsRecomp.Firmware.UserSettings

/-!
What a sequence of patches leaves behind: seals that verify, bytes nobody named
as they were, and the copy the console will use.
-/

namespace NdsRecomp.Firmware

namespace Image

/-- The two images have one size, and differ only where `fields` says. -/
structure Differs (fw fw' : Image) (fields : Nat → Prop) : Prop where
  size : fw'.size = fw.size
  same : ∀ i, ¬ fields i → fw'.byte i = fw.byte i

theorem Differs.refl (fw : Image) (fields : Nat → Prop) : Differs fw fw fields :=
  ⟨rfl, fun _ _ => rfl⟩

theorem Differs.trans {fw fw' fw'' : Image} {fields : Nat → Prop} (h : Differs fw fw' fields)
    (h' : Differs fw' fw'' fields) : Differs fw fw'' fields :=
  ⟨h'.size.trans h.size, fun i hi => (h'.same i hi).trans (h.same i hi)⟩

theorem Differs.mono {fw fw' : Image} {fields more : Nat → Prop} (h : Differs fw fw' fields)
    (hsub : ∀ i, fields i → more i) : Differs fw fw' more :=
  ⟨h.size, fun i hi => h.same i (mt (hsub i) hi)⟩

theorem differs_put8 (fw : Image) {p : Nat} (value : UInt8) {fields : Nat → Prop} (hp : fields p) :
    Differs fw (fw.put8 p value) fields :=
  ⟨rfl, fun _ hi => put8_byte_of_ne _ _ fun heq => hi (heq ▸ hp)⟩

theorem differs_put16 (fw : Image) {p : Nat} (value : UInt16) {fields : Nat → Prop} (hp : fields p)
    (hnext : fields (p + 1)) : Differs fw (fw.put16 p value) fields :=
  ⟨rfl, fun _ hi => put16_byte_of_ne _ _ (fun heq => hi (heq ▸ hp)) fun heq => hi (heq ▸ hnext)⟩

theorem differs_foldl {α : Type} {step : Image → α → Image} {fields : Nat → Prop} (l : List α)
    (hstep : ∀ x ∈ l, ∀ fw, Differs fw (step fw x) fields) (fw : Image) :
    Differs fw (l.foldl step fw) fields := by
  induction l generalizing fw with
  | nil => exact .refl _ _
  | cons x l ih =>
      exact (hstep x List.mem_cons_self fw).trans
        (ih (fun y hy => hstep y (List.mem_cons_of_mem _ hy)) _)

/-- Offsets in the copy at `base`. -/
def InCopy (base : Nat) (fields : Nat → Prop) (i : Nat) : Prop := ∃ f, i = base + f ∧ fields f

theorem inCopy {base f : Nat} {fields : Nat → Prop} (h : fields f) :
    InCopy base fields (base + f) := ⟨f, rfl, h⟩

/-- An edit of a copy writes nothing but `fields`. -/
def Edits (edit : Image → Nat → Image) (fields : Nat → Prop) : Prop :=
  ∀ fw base, Differs fw (edit fw base) (InCopy base fields)

/-! ### The edits -/

theorem edits_calibrateTouch : Edits calibrateTouch fun f => 0x58 ≤ f ∧ f < 0x64 := by
  intro fw base
  have hfield {f : Nat} (hlow : 0x58 ≤ f) (hhigh : f < 0x64) :
      InCopy base (fun f => 0x58 ≤ f ∧ f < 0x64) (base + f) := inCopy ⟨hlow, hhigh⟩
  have h8 (fw : Image) (value : UInt8) {f : Nat} (hlow : 0x58 ≤ f) (hhigh : f < 0x64) :=
    differs_put8 fw value (hfield hlow hhigh)
  have h16 (fw : Image) (value : UInt16) {f : Nat} (hlow : 0x58 ≤ f) (hhigh : f + 1 < 0x64) :=
    differs_put16 fw value (hfield hlow (by omega)) (hfield (f := f + 1) (by omega) hhigh)
  unfold calibrateTouch
  dsimp only
  refine Differs.trans ?_ (h8 _ 191 (f := 0x63) (by omega) (by omega))
  refine Differs.trans ?_ (h8 _ 255 (f := 0x62) (by omega) (by omega))
  refine Differs.trans ?_ (h16 _ _ (f := 0x60) (by omega) (by omega))
  refine Differs.trans ?_ (h16 _ _ (f := 0x5E) (by omega) (by omega))
  refine Differs.trans ?_ (h8 _ 0 (f := 0x5D) (by omega) (by omega))
  refine Differs.trans ?_ (h8 _ 0 (f := 0x5C) (by omega) (by omega))
  refine Differs.trans ?_ (h16 _ 0 (f := 0x5A) (by omega) (by omega))
  exact h16 fw 0 (f := 0x58) (by omega) (by omega)

theorem edits_setStartup (automatic : Bool) :
    Edits (setStartup automatic) fun f => 0x64 ≤ f ∧ f < 0x66 := fun fw base =>
  differs_put16 fw _ (inCopy (f := 0x64) (by omega)) (inCopy (f := 0x65) (by omega))

theorem edits_setName (name : List UInt8) :
    Edits (setName name) fun f => 0x06 ≤ f ∧ f < 0x1C := by
  intro fw base
  have hunits : Differs fw ((List.range kMaxNameChars).foldl (putName name base) fw)
      (InCopy base fun f => 0x06 ≤ f ∧ f < 0x1C) :=
    differs_foldl _ (fun i hi fw => by
      have hi := List.mem_range.mp hi
      unfold kMaxNameChars at hi
      unfold putName kNameOffset
      exact differs_put16 fw _ ⟨6 + i * 2, by omega, by omega⟩ ⟨7 + i * 2, by omega, by omega⟩) fw
  refine hunits.trans ?_
  exact differs_put16 _ _ (inCopy (f := 0x1A) (by omega)) (inCopy (f := 0x1B) (by omega))

/-! ### Both copies -/

/-- The fields of an edit and the checksum over them. -/
def Sealed (fields : Nat → Prop) (f : Nat) : Prop := fields f ∨ f = 0x72 ∨ f = 0x73

section Copies

variable {edit : Image → Nat → Image} {fields : Nat → Prop} (hedit : Edits edit fields)

include hedit

theorem differs_sealCopy (fw : Image) (base : Nat) :
    Differs fw (fw.sealCopy edit base) (InCopy base (Sealed fields)) :=
  ((hedit fw base).mono fun _ ⟨f, hi, hf⟩ => ⟨f, hi, .inl hf⟩).trans
    (differs_put16 _ _ (inCopy (.inr (.inl rfl))) ⟨0x73, rfl, .inr (.inr rfl)⟩)

omit hedit in
theorem sealCopy_valid (edit : Image → Nat → Image) (fw : Image) (base : Nat) :
    baseChecksumValid (fw.sealCopy edit base) base = true := by
  unfold baseChecksumValid sealCopy
  dsimp only
  rw [put16_load16, beq_iff_eq]
  refine (ndsFirmwareCrc16_congr _ fun i hlow hhigh => ?_).symm
  unfold kChecksumLength at hhigh
  exact put16_byte_of_ne _ _ (by unfold kChecksumOffset; omega) (by unfold kChecksumOffset; omega)

/-- What a patch of both copies leaves: nothing but the fields and the
checksums, which verify. -/
theorem patchCopies_spec {fw fw' : Image} (h : fw.patchCopies edit = some fw') :
    fw.userSettingsBase = some fw.userSettingsOffset ∧
      Differs fw fw' (fun i => ∃ copy < 2,
        InCopy (fw.userSettingsOffset + copy * 0x100) (Sealed fields) i) ∧
      ∀ copy < 2, baseChecksumValid fw' (fw.userSettingsOffset + copy * 0x100) = true := by
  obtain ⟨user, huser, rfl⟩ := Option.map_eq_some_iff.mp h
  obtain rfl : user = fw.userSettingsOffset := by
    unfold userSettingsBase at huser
    split at huser
    · cases huser
    split at huser
    · cases huser
    · exact (Option.some.inj huser).symm
  have hfirst := differs_sealCopy hedit fw (fw.userSettingsOffset + 0 * 0x100)
  have hsecond := differs_sealCopy hedit
    (fw.sealCopy edit (fw.userSettingsOffset + 0 * 0x100)) (fw.userSettingsOffset + 1 * 0x100)
  refine ⟨huser, (hfirst.mono fun i hi => ⟨0, by omega, hi⟩).trans
    (hsecond.mono fun i hi => ⟨1, by omega, hi⟩), ?_⟩
  intro copy hcopy
  obtain rfl | rfl : copy = 0 ∨ copy = 1 := by omega
  · -- the second copy lies behind everything the first seal covers
    have hkept (i : Nat) (hi : i < fw.userSettingsOffset + 0x100) :=
      hsecond.same i (by
        rintro ⟨f, rfl, _⟩
        omega)
    have hvalid := sealCopy_valid edit fw (fw.userSettingsOffset + 0 * 0x100)
    unfold baseChecksumValid kChecksumOffset kChecksumLength at hvalid ⊢
    rw [load16_congr (hkept _ (by omega)) (hkept _ (by omega)),
      ndsFirmwareCrc16_congr _ fun i _ hhigh => hkept i (by omega)]
    exact hvalid
  · exact sealCopy_valid edit _ _

end Copies

end Image

/-! ### The instance MAC -/

namespace Image

def wifiConfigValid (fw : Image) : Bool :=
  fw.load16 kWifiConfigChecksumOffset ==
    ndsFirmwareCrc16 fw kWifiConfigLenOffset fw.wifiConfigLength 0

def wifiConfigEnd (fw : Image) : Nat := kWifiConfigLenOffset + fw.wifiConfigLength

def MacField (i : Nat) : Prop := kMacOffset ≤ i ∧ i < kMacOffset + 6

def WifiField (i : Nat) : Prop :=
  MacField i ∨ kWifiConfigChecksumOffset ≤ i ∧ i < kWifiConfigChecksumOffset + 2

theorem differs_perturbMac (fw : Image) (index : UInt32) :
    Differs fw (fw.perturbMac index) MacField := by
  have hfield {k : Nat} (hk : k < 6) : MacField (kMacOffset + k) := ⟨by omega, by omega⟩
  unfold perturbMac
  dsimp only
  refine Differs.trans ?_ (differs_put8 _ _ (hfield (k := 0) (by omega)))
  refine Differs.trans ?_ (differs_put8 _ _ (hfield (k := 5) (by omega)))
  refine Differs.trans ?_ (differs_put8 _ _ (hfield (k := 4) (by omega)))
  exact differs_put8 fw _ (hfield (k := 3) (by omega))

theorem wifiConfigLength_congr {fw fw' : Image}
    (h : ∀ i, i = 0x2C ∨ i = 0x2D → fw'.byte i = fw.byte i) :
    fw'.wifiConfigLength = fw.wifiConfigLength :=
  congrArg UInt16.toNat (load16_congr (h _ (.inl rfl)) (h _ (.inr rfl)))

theorem applyInstanceMac_spec {fw fw' : Image} {index : UInt32}
    (h : fw.ndsApplyInstanceMac index = some fw') (hindex : index ≠ 0) :
    Differs fw fw' WifiField ∧ fw'.wifiConfigValid = true ∧ kMacOffset + 6 ≤ fw.wifiConfigEnd := by
  unfold ndsApplyInstanceMac at h
  rw [if_neg hindex] at h
  split at h
  · cases h
  split at h
  · cases h
  split at h
  · cases h
  rename_i hmac
  obtain rfl := Option.some.inj h
  have hmacs := differs_perturbMac fw index
  have hall : Differs fw _ WifiField := (hmacs.mono fun _ => .inl).trans
    (differs_put16 _ (ndsFirmwareCrc16 (fw.perturbMac index) kWifiConfigLenOffset
      fw.wifiConfigLength 0) (.inr ⟨le_refl _, by omega⟩) (.inr ⟨by omega, by omega⟩))
  refine ⟨hall, ?_, by unfold wifiConfigEnd; omega⟩
  -- the length lies between the checksum and the MAC
  have hlength := wifiConfigLength_congr fun i hi => hall.same i (by
    unfold WifiField MacField kMacOffset kWifiConfigChecksumOffset
    omega)
  unfold wifiConfigValid
  rw [put16_load16, beq_iff_eq, hlength]
  refine (ndsFirmwareCrc16_congr _ fun i hlow _ => ?_).symm
  unfold kWifiConfigLenOffset at hlow
  exact put16_byte_of_ne _ _ (by unfold kWifiConfigChecksumOffset; omega)
    (by unfold kWifiConfigChecksumOffset; omega)

end Image

/-! ### One patch -/

open Image

/-- What one successful patch does. -/
structure Patch.Applied (patch : Patch) (fw fw' : Image) : Prop where
  differs : Differs fw fw' (patch.Names fw.userSettingsOffset)
  settings : patch.writesSettings = true →
    ∀ copy < 2, baseChecksumValid fw' (fw.userSettingsOffset + copy * 0x100) = true
  wifi : patch.writesWifi = true → fw'.wifiConfigValid = true ∧ kMacOffset + 6 ≤ fw.wifiConfigEnd

theorem Patch.settingsField_lt {patch : Patch} {f : Nat} (h : patch.settingsField f = true) :
    f < 0x70 := by
  cases patch with
  | touchCalibration =>
      simp only [settingsField, Bool.and_eq_true, decide_eq_true_eq] at h
      omega
  | startupMode mode =>
      simp only [settingsField, Bool.and_eq_true, decide_eq_true_eq] at h
      omega
  | playerName name =>
      simp only [settingsField, Bool.and_eq_true, decide_eq_true_eq] at h
      omega
  | instanceMac index => cases h

/-- A patch of both copies whose edit writes the named fields. -/
theorem Patch.applied_of_patchCopies {patch : Patch} {edit : Image → Nat → Image} {fw fw' : Image}
    (hedit : Edits edit fun f => patch.settingsField f = true)
    (hsettings : patch.writesSettings = true) (hwifi : patch.writesWifi = false)
    (h : fw.patchCopies edit = some fw') : patch.Applied fw fw' := by
  obtain ⟨_, hdiffers, hvalid⟩ := patchCopies_spec hedit h
  refine ⟨hdiffers.mono ?_, fun _ => hvalid, fun htrue => ?_⟩
  · rintro i ⟨copy, hcopy, f, hi, hf | hf⟩
    · exact .inl ⟨hsettings, copy, hcopy, f, by have := settingsField_lt hf; omega, hi, .inl hf⟩
    · exact .inl ⟨hsettings, copy, hcopy, f, by omega, hi, .inr (by omega)⟩
  · rw [hwifi] at htrue
    cases htrue

/-- A patch that is set to leave the image alone. -/
theorem Patch.applied_refl {patch : Patch} (hsettings : patch.writesSettings = false)
    (hwifi : patch.writesWifi = false) (fw : Image) : patch.Applied fw fw := by
  refine ⟨.refl _ _, fun htrue => ?_, fun htrue => ?_⟩
  · rw [hsettings] at htrue
    cases htrue
  · rw [hwifi] at htrue
    cases htrue

theorem edits_mono {edit : Image → Nat → Image} {fields fields' : Nat → Prop}
    (h : Edits edit fields) (hsame : ∀ f, fields f → fields' f) : Edits edit fields' :=
  fun fw base => (h fw base).mono fun _ ⟨f, hi, hf⟩ => ⟨f, hi, hsame f hf⟩

theorem Patch.applied {patch : Patch} {fw fw' : Image} (h : patch.apply fw = some fw') :
    patch.Applied fw fw' := by
  cases patch with
  | touchCalibration =>
      exact applied_of_patchCopies (edits_mono edits_calibrateTouch fun f hf => by
        simp only [settingsField, Bool.and_eq_true, decide_eq_true_eq]
        exact hf) rfl rfl h
  | startupMode mode =>
      have hstartup (automatic : Bool) (mode : NdsStartupMode) (hmode : mode ≠ .preserve) :
          Edits (setStartup automatic) fun f => (Patch.startupMode mode).settingsField f = true :=
        edits_mono (edits_setStartup automatic) fun f hf => by
          simp only [settingsField, Bool.and_eq_true, decide_eq_true_eq, bne_iff_ne]
          exact ⟨hmode, hf⟩
      cases mode with
      | preserve =>
          obtain rfl := Option.some.inj h
          exact applied_refl rfl rfl fw
      | manual => exact applied_of_patchCopies (hstartup false .manual (by decide)) rfl rfl h
      | automatic => exact applied_of_patchCopies (hstartup true .automatic (by decide)) rfl rfl h
  | playerName name =>
      change fw.ndsApplyPlayerName name = some fw' at h
      unfold ndsApplyPlayerName at h
      by_cases hempty : name.isEmpty = true
      · rw [if_pos hempty] at h
        obtain rfl := Option.some.inj h
        exact applied_refl (by simp [writesSettings, hempty]) rfl fw
      rw [if_neg hempty] at h
      have hwrites : (!name.isEmpty) = true := by rw [Bool.not_eq_true] at hempty; rw [hempty]; rfl
      split at h
      · cases h
      · refine applied_of_patchCopies (edits_mono (edits_setName name) fun f hf => ?_) hwrites rfl h
        simp only [settingsField, hwrites, Bool.and_eq_true, decide_eq_true_eq, true_and]
        exact hf
  | instanceMac index =>
      change fw.ndsApplyInstanceMac index = some fw' at h
      by_cases hindex : index = 0
      · unfold ndsApplyInstanceMac at h
        rw [if_pos hindex] at h
        obtain rfl := Option.some.inj h
        exact applied_refl rfl (by simp [writesWifi, hindex]) fw
      · have hwrites : (Patch.instanceMac index).writesWifi = true := by
          simp [writesWifi, hindex]
        obtain ⟨hdiffers, hvalid, hend⟩ := applyInstanceMac_spec h hindex
        refine ⟨hdiffers.mono fun i hi => .inr ⟨hwrites, hi⟩, fun htrue => ?_,
          fun _ => ⟨hvalid, hend⟩⟩
        cases htrue

/-! ### Sequences -/

/-- The copies lie behind the offset in the header and, where the MAC is
patched, behind the Wi-Fi configuration. -/
structure Separate (image : Image) (patches : List Patch) : Prop where
  header : 0x22 ≤ image.userSettingsOffset
  wifi : (∃ p ∈ patches, p.writesWifi = true) →
    image.wifiConfigEnd ≤ image.userSettingsOffset ∧ kMacOffset + 6 ≤ image.userSettingsOffset

/-- What the patches so far have done. -/
structure Patched (image : Image) (done : List Patch) (fw : Image) : Prop where
  differs : Differs image fw fun i => ∃ p ∈ done, p.Names image.userSettingsOffset i
  settings : (∃ p ∈ done, p.writesSettings = true) →
    ∀ copy < 2, baseChecksumValid fw (image.userSettingsOffset + copy * 0x100) = true
  wifi : (∃ p ∈ done, p.writesWifi = true) → fw.wifiConfigValid = true

theorem Patch.Names.settings_ge {patch : Patch} {user i : Nat} (h : patch.Names user i)
    (hwifi : patch.writesWifi = false) : user ≤ i := by
  cases h with
  | inl h =>
      obtain ⟨_, copy, _, f, _, rfl, _⟩ := h
      omega
  | inr h =>
      rw [h.1] at hwifi
      cases hwifi

theorem Patch.Names.wifi_lt {patch : Patch} {user i : Nat} (h : patch.Names user i)
    (hsettings : patch.writesSettings = false) :
    patch.writesWifi = true ∧ 0x2A ≤ i ∧ i < kMacOffset + 6 ∧ i ≠ 0x2C ∧ i ≠ 0x2D := by
  cases h with
  | inl h =>
      rw [h.1] at hsettings
      cases hsettings
  | inr h =>
      unfold kMacOffset kWifiConfigChecksumOffset at h
      unfold kMacOffset
      exact ⟨h.1, by omega, by omega, by omega, by omega⟩

theorem Patch.writes_one (patch : Patch) :
    patch.writesSettings = false ∨ patch.writesWifi = false := by
  cases patch with
  | instanceMac index => exact .inl rfl
  | touchCalibration => exact .inr rfl
  | startupMode mode => exact .inr rfl
  | playerName name => exact .inr rfl

/-- No patch touches the header fields in front of the copies. -/
theorem Patch.Names.header {patch : Patch} {image : Image} {patches : List Patch}
    (hsep : Separate image patches) {i : Nat}
    (h : patch.Names image.userSettingsOffset i) : i ≠ 0x20 ∧ i ≠ 0x21 ∧
      ((∃ p ∈ patches, p.writesWifi = true) → i ≠ 0x2C ∧ i ≠ 0x2D) := by
  have hheader := hsep.header
  cases patch.writes_one with
  | inl hsettings =>
      obtain ⟨_, hlow, _, hne, hne'⟩ := h.wifi_lt hsettings
      exact ⟨by omega, by omega, fun _ => ⟨hne, hne'⟩⟩
  | inr hwifi =>
      have hge := h.settings_ge hwifi
      refine ⟨by omega, by omega, fun hpatched => ?_⟩
      have hmac := (hsep.wifi hpatched).2
      unfold kMacOffset at hmac
      exact ⟨by omega, by omega⟩

theorem baseChecksumValid_congr {fw fw' : Image} {copy : Nat}
    (h : ∀ i, copy ≤ i → i < copy + 0x74 → fw'.byte i = fw.byte i) :
    baseChecksumValid fw' copy = baseChecksumValid fw copy := by
  unfold baseChecksumValid kChecksumOffset kChecksumLength
  rw [load16_congr (h _ (by omega) (by omega)) (h _ (by omega) (by omega)),
    ndsFirmwareCrc16_congr _ fun i hlow hhigh => h i hlow (by omega)]

theorem wifiConfigValid_congr {fw fw' : Image}
    (h : ∀ i, 0x2A ≤ i → i < 0x2E ∨ i < fw.wifiConfigEnd → fw'.byte i = fw.byte i) :
    fw'.wifiConfigValid = fw.wifiConfigValid := by
  have hlength : fw'.wifiConfigLength = fw.wifiConfigLength :=
    wifiConfigLength_congr fun i hi => h i (by omega) (.inl (by omega))
  unfold wifiConfigEnd kWifiConfigLenOffset at h
  unfold wifiConfigValid kWifiConfigChecksumOffset kWifiConfigLenOffset
  rw [hlength, load16_congr (h _ (by omega) (.inl (by omega))) (h _ (by omega) (.inl (by omega))),
    ndsFirmwareCrc16_congr _ fun i hlow hhigh => h i (by omega) (.inr hhigh)]

section Sequences

variable {image : Image} {patches : List Patch} (hsep : Separate image patches)

include hsep

theorem Patched.userSettingsOffset {done : List Patch} {fw : Image} (h : Patched image done fw) :
    fw.userSettingsOffset = image.userSettingsOffset := by
  have hkept (i : Nat) (hi : i = 0x20 ∨ i = 0x21) : fw.byte i = image.byte i := by
    refine h.differs.same i ?_
    rintro ⟨p, _, hnames⟩
    have := hnames.header hsep
    omega
  unfold Image.userSettingsOffset
  rw [hkept _ (.inl rfl), hkept _ (.inr rfl)]

/-- One more patch. -/
theorem Patched.apply {done : List Patch} {fw fw' : Image} (h : Patched image done fw)
    (hdone : ∀ p ∈ done, p ∈ patches) {patch : Patch} (hmem : patch ∈ patches)
    (happly : patch.apply fw = some fw') : Patched image (done ++ [patch]) fw' := by
  have huser := h.userSettingsOffset hsep
  have happlied := Patch.applied happly
  have hstep := happlied.differs
  rw [huser] at hstep
  have hone (P : Patch → Prop) (hex : ∃ p ∈ done ++ [patch], P p) : P patch ∨ ∃ p ∈ done, P p := by
    obtain ⟨p, hp, hP⟩ := hex
    rw [List.mem_append, List.mem_singleton] at hp
    cases hp with
    | inl hp => exact .inr ⟨p, hp, hP⟩
    | inr hp => exact .inl (hp ▸ hP)
  refine ⟨?_, fun hex copy hcopy => ?_, fun hex => ?_⟩
  · exact (h.differs.mono fun i ⟨p, hp, hi⟩ => ⟨p, List.mem_append_left _ hp, hi⟩).trans
      (hstep.mono fun i hi => ⟨patch, List.mem_append_right _ List.mem_cons_self, hi⟩)
  · cases hwrites : patch.writesSettings with
    | true => exact huser ▸ happlied.settings hwrites copy hcopy
    | false =>
        have hbefore := (hone _ hex).resolve_left (by simp [hwrites])
        rw [baseChecksumValid_congr fun i hlow _ => hstep.same i fun hnames => ?_]
        · exact h.settings hbefore copy hcopy
        · obtain ⟨hwifi, _, hhigh, _⟩ := hnames.wifi_lt hwrites
          have := (hsep.wifi ⟨patch, hmem, hwifi⟩).2
          omega
  · cases hwrites : patch.writesWifi with
    | true => exact (happlied.wifi hwrites).1
    | false =>
        obtain ⟨p, hp, hwifi⟩ := (hone _ hex).resolve_left (by simp [hwrites])
        have hpatched : ∃ p ∈ patches, p.writesWifi = true := ⟨p, hdone p hp, hwifi⟩
        have hlength : fw.wifiConfigLength = image.wifiConfigLength :=
          wifiConfigLength_congr fun i hi => h.differs.same i (by
            rintro ⟨q, _, hnames⟩
            have := (hnames.header hsep).2.2 hpatched
            omega)
        obtain ⟨hend, hmac⟩ := hsep.wifi hpatched
        unfold kMacOffset at hmac
        rw [wifiConfigValid_congr fun i _ hhigh => hstep.same i fun hnames => ?_]
        · exact h.wifi ⟨p, hp, hwifi⟩
        · have hge := hnames.settings_ge hwrites
          unfold wifiConfigEnd at hhigh hend
          omega

theorem Patched.run {done rest : List Patch} {fw fw' : Image} (h : Patched image done fw)
    (hdone : ∀ p ∈ done, p ∈ patches) (hrest : ∀ p ∈ rest, p ∈ patches)
    (happly : applyAll rest fw = some fw') : Patched image (done ++ rest) fw' := by
  induction rest generalizing done fw with
  | nil =>
      obtain rfl := Option.some.inj happly
      rwa [List.append_nil]
  | cons patch rest ih =>
      obtain ⟨next, hnext, htail⟩ := Option.bind_eq_some_iff.mp happly
      have hmem := hrest patch List.mem_cons_self
      have hstep := h.apply hsep hdone hmem hnext
      have hmore := ih hstep (fun p hp => by
        rw [List.mem_append, List.mem_singleton] at hp
        exact hp.elim (hdone p) fun heq => heq ▸ hmem)
        (fun p hp => hrest p (List.mem_cons_of_mem _ hp)) htail
      rwa [List.append_assoc] at hmore

end Sequences

/-! ### The copy in effect -/

/-- The rule of `effective_user_data` for copies whose base checksums verify. -/
def resealedUserData (image : Image) (copy0 : Nat) : Nat :=
  let copy1 := copy0 + 0x100
  let ok0 := extendedChecksumValid image copy0
  let ok1 := extendedChecksumValid image copy1
  if ok0 && ok1 then
    if image.load16 (copy0 + 0x70) ≥ image.load16 (copy1 + 0x70) then copy0 else copy1
  else if ok1 then copy1
  else copy0

/-- Sealing the base checksums makes no copy win that did not verify before. -/
def KeepsChoice (image : Image) (copy0 : Nat) : Prop :=
  baseChecksumValid image (resealedUserData image copy0) = true ∨
    extendedChecksumValid image (resealedUserData image copy0) = false ∨
      resealedUserData image copy0 = copy0 ∧ userDataChecksumValid image (copy0 + 0x100) = false
deriving Decidable

theorem resealedUserData_eq_iff (image : Image) (copy0 : Nat) :
    resealedUserData image copy0 = effectiveUserData image copy0 ↔ KeepsChoice image copy0 := by
  unfold KeepsChoice resealedUserData effectiveUserData userDataChecksumValid
  dsimp only
  cases hx0 : extendedChecksumValid image copy0 <;>
    cases hx1 : extendedChecksumValid image (copy0 + 0x100) <;>
    cases hb0 : baseChecksumValid image copy0 <;>
    cases hb1 : baseChecksumValid image (copy0 + 0x100) <;>
    by_cases hc : image.load16 (copy0 + 0x70) ≥ image.load16 (copy0 + 0x100 + 0x70) <;>
    simp [hx0, hx1, hb0, hb1, hc]

theorem extendedChecksumValid_congr {fw fw' : Image} {copy : Nat}
    (h : ∀ i, copy + 0x74 ≤ i → i < copy + 0x100 → fw'.byte i = fw.byte i) :
    extendedChecksumValid fw' copy = extendedChecksumValid fw copy := by
  unfold extendedChecksumValid
  rw [h _ (by omega) (by omega), load16_congr (h _ (by omega) (by omega)) (h _ (by omega) (by omega)),
    ndsFirmwareCrc16_congr _ fun i hlow hhigh => h i hlow (by omega)]

section Effective

variable {image fw : Image} {patches : List Patch} (hsep : Separate image patches)
  (h : Patched image patches fw)

include hsep h

/-- In the copies, nothing changes but fields below the counter and checksums. -/
theorem Patched.copy_same {copy f : Nat} (hcopy : copy < 2) (hf : 0x70 ≤ f) (hhigh : f < 0x100)
    (hne : f ≠ 0x72) (hne' : f ≠ 0x73) :
    fw.byte (image.userSettingsOffset + copy * 0x100 + f) =
      image.byte (image.userSettingsOffset + copy * 0x100 + f) := by
  refine h.differs.same _ ?_
  rintro ⟨p, hp, hnames⟩
  cases p.writes_one with
  | inl hsettings =>
      obtain ⟨hwifi, _, hlt, _⟩ := hnames.wifi_lt hsettings
      have := (hsep.wifi ⟨p, hp, hwifi⟩).2
      omega
  | inr hwifi =>
      obtain ⟨_, other, hother, g, hg, hi, hfield | hseal⟩ := hnames.resolve_right
        (by simp [hwifi])
      · have := Patch.settingsField_lt hfield
        omega
      · omega

/-- The copy chosen afterwards. -/
theorem Patched.effective_sealed (hsettings : ∃ p ∈ patches, p.writesSettings = true) :
    effectiveUserData fw image.userSettingsOffset =
      resealedUserData image image.userSettingsOffset := by
  have hbase := h.settings hsettings
  have hextended (copy : Nat) (hcopy : copy < 2) :
      extendedChecksumValid fw (image.userSettingsOffset + copy * 0x100) =
        extendedChecksumValid image (image.userSettingsOffset + copy * 0x100) :=
    extendedChecksumValid_congr fun i hlow hhigh => by
      obtain ⟨f, rfl⟩ := Nat.exists_eq_add_of_le (by omega :
        image.userSettingsOffset + copy * 0x100 ≤ i)
      exact h.copy_same hsep hcopy (by omega) (by omega) (by omega) (by omega)
  have hcounter (copy : Nat) (hcopy : copy < 2) :
      fw.load16 (image.userSettingsOffset + copy * 0x100 + 0x70) =
        image.load16 (image.userSettingsOffset + copy * 0x100 + 0x70) :=
    load16_congr (h.copy_same hsep hcopy (by omega) (by omega) (by omega) (by omega))
      (h.copy_same hsep hcopy (f := 0x71) (by omega) (by omega) (by omega) (by omega))
  have hbase0 := hbase 0 (by omega)
  have hbase1 := hbase 1 (by omega)
  have hextended0 := hextended 0 (by omega)
  have hextended1 := hextended 1 (by omega)
  have hcounter0 := hcounter 0 (by omega)
  have hcounter1 := hcounter 1 (by omega)
  simp only [Nat.zero_mul, Nat.one_mul, Nat.add_zero] at *
  unfold effectiveUserData resealedUserData userDataChecksumValid
  simp only [hbase0, hbase1, hextended0, hextended1, hcounter0, hcounter1, Bool.true_and]

/-- Without a patch of the settings both copies are as they were. -/
theorem Patched.effective_untouched (hnone : ¬ ∃ p ∈ patches, p.writesSettings = true) :
    effectiveUserData fw image.userSettingsOffset =
      effectiveUserData image image.userSettingsOffset := by
  have hkept (i : Nat) (hi : image.userSettingsOffset ≤ i) : fw.byte i = image.byte i := by
    refine h.differs.same i ?_
    rintro ⟨p, hp, hnames⟩
    have hsettings : p.writesSettings = false :=
      Bool.eq_false_iff.mpr fun htrue => hnone ⟨p, hp, htrue⟩
    obtain ⟨hwifi, _, hlt, _⟩ := hnames.wifi_lt hsettings
    have := (hsep.wifi ⟨p, hp, hwifi⟩).2
    omega
  have hbase (copy : Nat) (hcopy : image.userSettingsOffset ≤ copy) :
      baseChecksumValid fw copy = baseChecksumValid image copy :=
    baseChecksumValid_congr fun i hi _ => hkept i (by omega)
  have hextended (copy : Nat) (hcopy : image.userSettingsOffset ≤ copy) :
      extendedChecksumValid fw copy = extendedChecksumValid image copy :=
    extendedChecksumValid_congr fun i hi _ => hkept i (by omega)
  have hcounter (p : Nat) (hp : image.userSettingsOffset ≤ p) : fw.load16 p = image.load16 p :=
    load16_congr (hkept p hp) (hkept _ (by omega))
  unfold effectiveUserData userDataChecksumValid
  dsimp only
  rw [hbase _ (le_refl _), hbase (_ + _) (by omega), hextended _ (le_refl _),
    hextended (_ + _) (by omega), hcounter _ (by omega), hcounter (_ + _ + _) (by omega)]

end Effective

/-- What a sequence of successful patches leaves of an image whose copies of the
settings lie apart from the header. -/
theorem patches_seal_settings {image fw : Image} {patches : List Patch}
    (hsep : Separate image patches) (h : applyAll patches image = some fw) :
    ((∃ p ∈ patches, p.writesSettings = true) →
      ∀ copy < 2, baseChecksumValid fw (fw.userSettingsOffset + copy * 0x100) = true) ∧
    ((∃ p ∈ patches, p.writesWifi = true) → fw.wifiConfigValid = true) ∧
    (Differs image fw fun i => ∃ p ∈ patches, p.Names image.userSettingsOffset i) ∧
    fw.userSettingsOffset = image.userSettingsOffset ∧
    (effectiveUserData fw fw.userSettingsOffset =
        effectiveUserData image image.userSettingsOffset ↔
      (∃ p ∈ patches, p.writesSettings = true) → KeepsChoice image image.userSettingsOffset) := by
  have hstart : Patched image [] image :=
    ⟨.refl _ _, fun ⟨_, hp, _⟩ => (nomatch hp), fun ⟨_, hp, _⟩ => (nomatch hp)⟩
  have hpatched : Patched image patches fw :=
    hstart.run hsep (fun _ hp => nomatch hp) (fun _ => id) h
  have huser := hpatched.userSettingsOffset hsep
  rw [huser]
  refine ⟨hpatched.settings, hpatched.wifi, hpatched.differs, rfl, ?_⟩
  by_cases hsettings : ∃ p ∈ patches, p.writesSettings = true
  · rw [hpatched.effective_sealed hsep hsettings, resealedUserData_eq_iff]
    exact ⟨fun hkeeps _ => hkeeps, fun hkeeps => hkeeps hsettings⟩
  · rw [hpatched.effective_untouched hsep hsettings]
    exact iff_of_true rfl fun hex => absurd hex hsettings

/-- Two bytes that cancel the start value, and zeros behind them. -/
theorem ndsFirmwareCrc16_cancelled {image : Image} {p : Nat} (hfirst : image.byte p = 0xFF)
    (hsecond : image.byte (p + 1) = 0xFF) {len : Nat}
    (hrest : ∀ i < len, image.byte (p + (2 + i)) = 0) :
    ndsFirmwareCrc16 image p (2 + len) 0xFFFF = 0 := by
  have hzeros (l : List Nat) (hl : ∀ i ∈ l, i < len) :
      (l.map (2 + ·)).foldl (fun start i =>
        (List.range 8).foldl crcBit (start ^^^ (image.byte (p + i)).toUInt32)) 0 = 0 := by
    induction l with
    | nil => rfl
    | cons i l ih =>
        have hstep : (List.range 8).foldl crcBit ((0 : UInt32) ^^^ (0 : UInt8).toUInt32) = 0 := by
          decide
        rw [List.map_cons, List.foldl_cons, hrest i (hl i List.mem_cons_self), hstep]
        exact ih fun j hj => hl j (List.mem_cons_of_mem _ hj)
  have htwo : [0, 1].foldl (fun start i =>
      (List.range 8).foldl crcBit (start ^^^ (image.byte (p + i)).toUInt32)) 0xFFFF = 0 := by
    simp only [List.foldl_cons, List.foldl_nil, Nat.add_zero, hfirst, hsecond]
    set_option maxRecDepth 20000 in decide
  have hrange : List.range 2 = [0, 1] := rfl
  unfold ndsFirmwareCrc16
  rw [List.range_add, List.foldl_append, hrange, htwo,
    hzeros _ fun i hi => List.mem_range.mp hi]
  rfl

/-- Settings at 0x100: the first copy verifies, the second does not but has the
higher update counter. -/
def staleImage : Image where
  size := 0x400
  byte := fun i =>
    if i = 0x20 then 0x20
    else if i = 0x100 ∨ i = 0x101 ∨ i = 0x200 ∨ i = 0x201 then 0xFF
    else if i = 0x270 ∨ i = 0x272 then 1 else 0

theorem staleImage_sealed :
    ∃ fw, applyAll [.startupMode .automatic, .instanceMac 0] staleImage = some fw ∧
      ∀ copy < 2, baseChecksumValid fw (fw.userSettingsOffset + copy * 0x100) = true := by
  have hsep : Separate staleImage [.startupMode .automatic, .instanceMac 0] :=
    ⟨by decide, fun hwifi => absurd hwifi (by decide)⟩
  have hsome : (applyAll [.startupMode .automatic, .instanceMac 0] staleImage).isSome = true := by
    decide
  obtain ⟨fw, hfw⟩ := Option.isSome_iff_exists.mp hsome
  exact ⟨fw, hfw, (patches_seal_settings hsep hfw).1 (by decide)⟩

/-- Settings at 0x18, over the header that says so. -/
def overlappingImage : Image where
  size := 0x600
  byte := fun i =>
    if i = 0x20 then 3
    else if i = 0x208 ∨ i = 0x209 then 0xFF
    else if i = 0x27A then 1 else 0

/-- The touch patch puts the stale copy in effect. The name `AA`, written over
the header, leaves the settings where no copy verifies. -/
theorem patches_change_choice :
    (∃ fw, applyAll [.touchCalibration] staleImage = some fw ∧
      effectiveUserData staleImage staleImage.userSettingsOffset = 0x100 ∧
      effectiveUserData fw fw.userSettingsOffset = 0x200) ∧
    ∃ fw, applyAll [.playerName [0x41, 0x41]] overlappingImage = some fw ∧
      fw.userSettingsOffset = 0x208 ∧ baseChecksumValid fw fw.userSettingsOffset = false := by
  constructor
  · have hsep : Separate staleImage [.touchCalibration] :=
      ⟨by decide, fun hwifi => absurd hwifi (by decide)⟩
    obtain ⟨fw, hfw⟩ := Option.isSome_iff_exists.mp
      (by decide : (applyAll [.touchCalibration] staleImage).isSome = true)
    have hstart : Patched staleImage [] staleImage :=
      ⟨.refl _ _, fun ⟨_, hp, _⟩ => (nomatch hp), fun ⟨_, hp, _⟩ => (nomatch hp)⟩
    have hpatched : Patched staleImage [.touchCalibration] fw :=
      hstart.run hsep (fun _ hp => nomatch hp) (fun _ => id) hfw
    have huser : staleImage.userSettingsOffset = 0x100 := by decide
    have hcrc (copy : Nat) (hcopy : copy = 0x100 ∨ copy = 0x200) :
        ndsFirmwareCrc16 staleImage copy kChecksumLength 0xFFFF = 0 := by
      have hlength : kChecksumLength = 2 + 0x6E := rfl
      rw [hlength]
      refine ndsFirmwareCrc16_cancelled ?_ ?_ fun i hi => ?_
      · obtain rfl | rfl := hcopy <;> decide
      · obtain rfl | rfl := hcopy <;> decide
      · unfold staleImage
        dsimp only
        rw [if_neg (by omega), if_neg (by omega), if_neg (by omega)]
    have hvalid0 : baseChecksumValid staleImage 0x100 = true := by
      unfold baseChecksumValid
      rw [hcrc _ (.inl rfl)]
      decide
    have hvalid1 : baseChecksumValid staleImage 0x200 = false := by
      unfold baseChecksumValid
      rw [hcrc _ (.inr rfl)]
      decide
    have hextended : extendedChecksumValid staleImage 0x100 = true := by decide
    refine ⟨fw, hfw, ?_, ?_⟩
    · rw [huser]
      unfold effectiveUserData userDataChecksumValid
      simp only [hvalid0, hvalid1, hextended]
      decide
    · rw [hpatched.userSettingsOffset hsep,
        hpatched.effective_sealed hsep ⟨_, List.mem_cons_self, rfl⟩]
      decide
  · obtain ⟨fw, hfw⟩ := Option.isSome_iff_exists.mp
      (by decide : (applyAll [.playerName [0x41, 0x41]] overlappingImage).isSome = true)
    have huser : fw.userSettingsOffset = 0x208 := by
      have hmap : (applyAll [.playerName [0x41, 0x41]] overlappingImage).map
          Image.userSettingsOffset = some 0x208 := by decide
      rw [hfw] at hmap
      exact Option.some.inj hmap
    have happlied : (Patch.playerName [0x41, 0x41]).Applied overlappingImage fw := by
      obtain ⟨next, hnext, hlast⟩ := Option.bind_eq_some_iff.mp hfw
      obtain rfl := Option.some.inj hlast
      exact Patch.applied hnext
    have hkept (i : Nat) (hlow : 0x200 ≤ i) : fw.byte i = overlappingImage.byte i := by
      refine happlied.differs.same i ?_
      rintro (⟨_, copy, hcopy, f, hf, heq, _⟩ | ⟨hwifi, _⟩)
      · have hoffset : overlappingImage.userSettingsOffset = 0x18 := by decide
        omega
      · cases hwifi
    refine ⟨fw, hfw, huser, ?_⟩
    have hcrc : ndsFirmwareCrc16 overlappingImage 0x208 (2 + 0x6E) 0xFFFF = 0 := by
      refine ndsFirmwareCrc16_cancelled (by decide) (by decide) fun i hi => ?_
      unfold overlappingImage
      dsimp only
      rw [if_neg (by omega), if_neg (by omega), if_neg (by omega)]
    have hsame : baseChecksumValid fw 0x208 = baseChecksumValid overlappingImage 0x208 :=
      baseChecksumValid_congr fun i hlow _ => hkept i (by omega)
    rw [huser, hsame]
    unfold baseChecksumValid
    rw [show kChecksumLength = 2 + 0x6E from rfl, hcrc]
    decide

end NdsRecomp.Firmware
