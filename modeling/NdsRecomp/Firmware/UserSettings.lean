import NdsRecomp.Firmware.Image

/-!
The patches of the firmware image. Touch calibration, startup mode and player
name rewrite both copies of the user settings and seal each with its base
checksum; the instance MAC rewrites the header and seals the Wi-Fi
configuration. `none` is a patch that was refused.
-/

namespace NdsRecomp.Firmware

inductive NdsStartupMode where
  | preserve
  | manual
  | automatic
deriving DecidableEq

namespace Image

/-- The offset the header stores, shifted right by three. -/
def userSettingsOffset (fw : Image) : Nat :=
  (fw.byte 0x20).toNat <<< 3 ||| (fw.byte 0x21).toNat <<< 11

def userSettingsBase (fw : Image) : Option Nat :=
  if fw.size < 0x22 then none
  else if fw.userSettingsOffset + 0x200 > fw.size then none
  else some fw.userSettingsOffset

/-- One turn of a patch's loop over the copies. -/
def sealCopy (edit : Image → Nat → Image) (fw : Image) (base : Nat) : Image :=
  let fw := edit fw base
  fw.put16 (base + kChecksumOffset) (ndsFirmwareCrc16 fw base kChecksumLength 0xFFFF)

/-- The loop over both copies. -/
def patchCopies (edit : Image → Nat → Image) (fw : Image) : Option Image :=
  fw.userSettingsBase.map fun user =>
    (fw.sealCopy edit (user + 0 * 0x100)).sealCopy edit (user + 1 * 0x100)

def calibrateTouch (fw : Image) (base : Nat) : Image :=
  let fw := fw.put16 (base + 0x58) 0
  let fw := fw.put16 (base + 0x5A) 0
  let fw := fw.put8 (base + 0x5C) 0
  let fw := fw.put8 (base + 0x5D) 0
  let fw := fw.put16 (base + 0x5E) ((255 : UInt16) <<< 4)
  let fw := fw.put16 (base + 0x60) ((191 : UInt16) <<< 4)
  let fw := fw.put8 (base + 0x62) 255
  fw.put8 (base + 0x63) 191

def ndsNormalizeTouchCalibration (fw : Image) : Option Image := fw.patchCopies calibrateTouch

def setStartup (automatic : Bool) (fw : Image) (base : Nat) : Image :=
  let flags := fw.load16 (base + 0x64)
  fw.put16 (base + 0x64) (if automatic then flags ||| (1 : UInt16) <<< 6
    else flags &&& ~~~((1 : UInt16) <<< 6))

def ndsApplyStartupMode (fw : Image) : NdsStartupMode → Option Image
  | .preserve => some fw
  | .automatic => fw.patchCopies (setStartup true)
  | .manual => fw.patchCopies (setStartup false)

end Image

/-! ### The player name -/

def kNameOffset : Nat := 0x06

def kNameLenOffset : Nat := 0x1A

def kMaxNameChars : Nat := 10

/-- The punctuation a name may contain. -/
def kExtraAllowed : List UInt8 :=
  [0x20, 0x2D, 0x5F, 0x2E, 0x2C, 0x21, 0x3F, 0x27, 0x28, 0x29, 0x5B, 0x5D, 0x7B, 0x7D, 0x2B, 0x3D,
    0x40, 0x23, 0x26, 0x2A, 0x3A, 0x3B, 0x2F]

def nameByteAllowed (c : UInt8) : Bool :=
  (decide (0x30 ≤ c) && decide (c ≤ 0x39)) || (decide (0x41 ≤ c) && decide (c ≤ 0x5A)) ||
    (decide (0x61 ≤ c) && decide (c ≤ 0x7A)) || kExtraAllowed.contains c

def ndsValidatePlayerName (name : List UInt8) : Except String Unit := do
  if name.isEmpty then throw "player name must not be empty"
  if name.length > kMaxNameChars then
    throw "player name must be at most 10 characters (the DS firmware nickname limit)"
  if !name.all nameByteAllowed then
    throw "player name may contain only letters, digits, spaces, and the punctuation -_.,!?\x27()[]\x7b\x7d+=@#&*:;/"
  if name.head? = some 0x20 ∨ name.getLast? = some 0x20 then
    throw "player name must not start or end with a space"

namespace Image

/-- The ten code units of the name, the unused ones zero. -/
def putName (name : List UInt8) (base : Nat) (fw : Image) (i : Nat) : Image :=
  fw.put16 (base + kNameOffset + i * 2) ((name[i]?.getD 0).toUInt16)

def setName (name : List UInt8) (fw : Image) (base : Nat) : Image :=
  ((List.range kMaxNameChars).foldl (putName name base) fw).put16 (base + kNameLenOffset)
    (UInt16.ofNat name.length)

def ndsApplyPlayerName (fw : Image) (name : List UInt8) : Option Image :=
  if name.isEmpty then some fw
  else
    match ndsValidatePlayerName name with
    | .error _ => none
    | .ok () => fw.patchCopies (setName name)

/-! ### The instance MAC -/

def kMacOffset : Nat := 0x36

def kWifiConfigChecksumOffset : Nat := 0x2A

def kWifiConfigLenOffset : Nat := 0x2C

def wifiConfigLength (fw : Image) : Nat := (fw.load16 kWifiConfigLenOffset).toNat

/-- The MAC an instance presents. -/
def perturbMac (fw : Image) (instanceIndex : UInt32) : Image :=
  let mac (i : Nat) := fw.byte (kMacOffset + i)
  let fw := fw.put8 (kMacOffset + 3) ((mac 3).toUInt32 + instanceIndex).toUInt8
  let fw := fw.put8 (kMacOffset + 4) ((mac 4).toUInt32 + instanceIndex * 0x44).toUInt8
  let fw := fw.put8 (kMacOffset + 5) ((mac 5).toUInt32 + instanceIndex * 0x10).toUInt8
  fw.put8 kMacOffset (mac 0 &&& 0xFC)

def ndsApplyInstanceMac (fw : Image) (instanceIndex : UInt32) : Option Image :=
  if instanceIndex = 0 then some fw
  else if fw.size < kWifiConfigLenOffset + 2 then none
  else if kWifiConfigLenOffset + fw.wifiConfigLength > fw.size then none
  else if kMacOffset + 6 > kWifiConfigLenOffset + fw.wifiConfigLength then none
  else
    let length := fw.wifiConfigLength
    let fw := fw.perturbMac instanceIndex
    some (fw.put16 kWifiConfigChecksumOffset (ndsFirmwareCrc16 fw kWifiConfigLenOffset length 0))

end Image

/-! ### Sequences of patches -/

inductive Patch where
  | touchCalibration
  | startupMode (mode : NdsStartupMode)
  | playerName (name : List UInt8)
  | instanceMac (index : UInt32)
deriving DecidableEq

def Patch.apply : Patch → Image → Option Image
  | .touchCalibration, fw => fw.ndsNormalizeTouchCalibration
  | .startupMode mode, fw => fw.ndsApplyStartupMode mode
  | .playerName name, fw => fw.ndsApplyPlayerName name
  | .instanceMac index, fw => fw.ndsApplyInstanceMac index

/-- The image behind the whole sequence, where every patch succeeds. -/
def applyAll : List Patch → Image → Option Image
  | [], fw => some fw
  | patch :: patches, fw => (patch.apply fw).bind (applyAll patches)

/-- Offsets in a copy of the user settings that a patch names. -/
def Patch.settingsField : Patch → Nat → Bool
  | .touchCalibration, f => decide (0x58 ≤ f) && decide (f < 0x64)
  | .startupMode mode, f => mode != .preserve && (decide (0x64 ≤ f) && decide (f < 0x66))
  | .playerName name, f =>
      !name.isEmpty && (decide (0x06 ≤ f) && decide (f < 0x1C))
  | .instanceMac _, _ => false

/-- The patch rewrites both copies of the user settings. -/
def Patch.writesSettings : Patch → Bool
  | .touchCalibration => true
  | .startupMode mode => mode != .preserve
  | .playerName name => !name.isEmpty
  | .instanceMac _ => false

def Patch.writesWifi : Patch → Bool
  | .instanceMac index => index != 0
  | _ => false

/-- A byte that the patch names, or that belongs to a checksum over it. -/
def Patch.Names (user : Nat) (patch : Patch) (i : Nat) : Prop :=
  (patch.writesSettings = true ∧ ∃ copy < 2, ∃ f < 0x74,
      i = user + copy * 0x100 + f ∧ (patch.settingsField f = true ∨ 0x72 ≤ f)) ∨
    (patch.writesWifi = true ∧
      (Image.kMacOffset ≤ i ∧ i < Image.kMacOffset + 6 ∨
        Image.kWifiConfigChecksumOffset ≤ i ∧ i < Image.kWifiConfigChecksumOffset + 2))

end NdsRecomp.Firmware
