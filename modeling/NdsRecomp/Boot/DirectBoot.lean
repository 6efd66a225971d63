import NdsRecomp.Firmware.Image

/-!
`nds_direct_boot`: the machine state the firmware would have left behind,
written through the machine interface. A boot runs its checks and its writes in
the order of the source; what it has done to the machine is kept when a check
refuses.
-/

namespace NdsRecomp.Boot

open Firmware

/-- The operations of `NdsDirectBootMachine`. Processor 0 is the ARM9. -/
inductive MachineOp where
  | write16 (cpu : Nat) (addr : UInt32) (value : UInt16)
  | write32 (cpu : Nat) (addr value : UInt32)
  | cp15Write (crn crm op2 value : UInt32)
  | setCpuBoot (cpu : Nat) (entry sp spIrq spSvc : UInt32)
  | setWramcnt (value : UInt8)
  | setArm7BiosProt (value : UInt32)
  | setPostBootLatches
  | copyLogoIntoArm9Bios (logo : List UInt8)
deriving DecidableEq

/-- `none` is a null pointer. The plaintext of a secure area has 0x800 bytes. -/
structure NdsDirectBootInputs where
  rom : Option Image
  secureArea : Option (Nat → UInt8) := none
  firmware : Option Image
  cartChipId : UInt32 := 0
  arm9BiosIsNative : Bool := true

/-- A refusal keeps what was done before it. -/
abbrev BootM := ExceptT String (StateM (List MachineOp))

def perform (op : MachineOp) : BootM Unit := modify (· ++ [op])

def performAll (ops : List MachineOp) : BootM Unit := modify (· ++ ops)

def kHeaderMirrorSize : Nat := 0x170
def kSecureAreaSize : Nat := 0x800
def kUserSettingsSize : Nat := 0x70
def kOffNintendoLogo : Nat := 0xC0
def kNintendoLogoSize : Nat := 156

def kCp15Settings : List (UInt32 × UInt32 × UInt32 × UInt32) :=
  [(1, 0, 0, 0x00012078),
    (2, 0, 0, 0x00000042), (2, 0, 1, 0x00000042),
    (3, 0, 0, 0x00000002),
    (5, 0, 2, 0x15111011), (5, 0, 3, 0x05100011),
    (6, 0, 0, 0x04000033), (6, 0, 1, 0x04000033),
    (6, 1, 0, 0x0200002B), (6, 1, 1, 0x0200002B),
    (6, 2, 0, 0x00000000), (6, 2, 1, 0x00000000),
    (6, 3, 0, 0x08000035), (6, 3, 1, 0x08000035),
    (6, 4, 0, 0x0300001B), (6, 4, 1, 0x0300001B),
    (6, 5, 0, 0x00000000), (6, 5, 1, 0x00000000),
    (6, 6, 0, 0xFFFF001D), (6, 6, 1, 0xFFFF001D),
    (6, 7, 0, 0x027FF017), (6, 7, 1, 0x027FF017),
    (9, 1, 0, 0x0300000A), (9, 1, 1, 0x00000020)]

/-- One binary of the cartridge header. -/
structure Binary where
  romOffset : UInt32
  entry : UInt32
  ram : UInt32
  size : UInt32

def binaryAt (rom : Image) (p : Nat) : Binary where
  romOffset := rom.load32 p
  entry := rom.load32 (p + 4)
  ram := rom.load32 (p + 8)
  size := rom.load32 (p + 12)

def arm9Binary (rom : Image) : Binary := binaryAt rom 0x20

def arm7Binary (rom : Image) : Binary := binaryAt rom 0x30

/-- The words of `for (i = start; i < stop; i += 4)`, stored from `dst` on. -/
def copyWords (cpu : Nat) (dst : UInt32) (src : Image) (offset start stop : Nat) :
    List MachineOp :=
  (List.range ((stop - start + 3) / 4)).map fun k =>
    .write32 cpu (dst + UInt32.ofNat (start + 4 * k)) (src.load32 (offset + (start + 4 * k)))

/-- The header values the firmware leaves in main RAM. -/
def headerMirror (rom : Image) (cartid : UInt32) : List MachineOp :=
  let headerCrc := rom.load16 0x15E
  let secureCrc := rom.load16 0x6C
  copyWords 0 0x027FFE00 rom 0 0 kHeaderMirrorSize ++
    [.write32 0 0x027FF800 cartid, .write32 0 0x027FF804 cartid,
      .write16 0 0x027FF808 headerCrc, .write16 0 0x027FF80A secureCrc,
      .write16 0 0x027FF850 0x5835,
      .write32 0 0x027FFC00 cartid, .write32 0 0x027FFC04 cartid,
      .write16 0 0x027FFC08 headerCrc, .write16 0 0x027FFC0A secureCrc,
      .write16 0 0x027FFC10 0x5835, .write16 0 0x027FFC30 0xFFFF,
      .write16 0 0x027FFC40 0x0001]

def hasSecureArea (arm9 : Binary) : Bool :=
  decide (0x4000 ≤ arm9.romOffset) && decide (arm9.romOffset < 0x8000)

/-- The decrypted secure area; the answer is `arm9_start`. -/
def copySecureArea (inputs : NdsDirectBootInputs) (arm9 : Binary) : BootM Nat :=
  if hasSecureArea arm9 then
    match inputs.secureArea with
    | none => throw "cartridge has a secure area but no plaintext"
    | some plaintext => do
        if arm9.size.toNat < kSecureAreaSize then
          throw "cartridge ARM9 binary is shorter than its secure area"
        performAll (copyWords 0 arm9.ram ⟨kSecureAreaSize, plaintext⟩ 0 0 kSecureAreaSize)
        return kSecureAreaSize
  else return 0

def userOffset (firmware : Image) : Nat := (firmware.load16 0x20).toNat * 8

/-- The user settings the guest expects in main RAM. -/
def mirrorUserSettings (firmware : Image) : BootM Unit := do
  let offset := userOffset firmware
  if offset + 0x200 > firmware.size then
    throw "firmware user-settings offset is out of range"
  let userData := effectiveUserData firmware offset
  perform (.write32 0 0x027FF864 0)
  perform (.write32 0 0x027FF868 (UInt32.ofNat offset))
  perform (.write16 0 0x027FF874 (firmware.load16 0x26))
  perform (.write16 0 0x027FF876 (firmware.load16 0x04))
  performAll (copyWords 0 0x027FFC80 firmware userData 0 kUserSettingsSize)

/-- The bounds checks on the two binaries, before anything is written. -/
def checkBinaries (rom : Image) : BootM Unit := do
  let arm9 := arm9Binary rom
  let arm7 := arm7Binary rom
  if arm9.romOffset.toNat + arm9.size.toNat > rom.size then
    throw "cartridge ARM9 binary runs past the image"
  if arm7.romOffset.toNat + arm7.size.toNat > rom.size then
    throw "cartridge ARM7 binary runs past the image"
  if arm9.size &&& 3 ≠ 0 ∨ arm7.size &&& 3 ≠ 0 then
    throw "cartridge binary size is not word-aligned"

/-- What follows the checks. -/
def bootMachine (inputs : NdsDirectBootInputs) (rom firmware : Image) : BootM Unit := do
  let arm9 := arm9Binary rom
  let arm7 := arm7Binary rom
  perform (.setWramcnt 3)
  if !inputs.arm9BiosIsNative then
    perform (.copyLogoIntoArm9Bios
      ((List.range kNintendoLogoSize).map fun i => rom.byte (kOffNintendoLogo + i)))
  performAll (headerMirror rom inputs.cartChipId)
  let arm9Start ← copySecureArea inputs arm9
  performAll (copyWords 0 arm9.ram rom arm9.romOffset.toNat arm9Start arm9.size.toNat)
  performAll (copyWords 1 arm7.ram rom arm7.romOffset.toNat 0 arm7.size.toNat)
  perform (.setArm7BiosProt 0x1204)
  mirrorUserSettings firmware
  performAll (kCp15Settings.map fun (crn, crm, op2, value) => .cp15Write crn crm op2 value)
  perform (.setCpuBoot 0 arm9.entry 0x03002F7C 0x03003F80 0x03003FC0)
  perform (.setCpuBoot 1 arm7.entry 0x0380FD80 0x0380FF80 0x0380FFC0)
  perform .setPostBootLatches

def ndsDirectBoot (inputs : NdsDirectBootInputs) : BootM Unit :=
  match inputs.rom with
  | none => throw "cartridge image is missing or truncated"
  | some rom =>
      if rom.size < 0x200 then throw "cartridge image is missing or truncated"
      else
        match inputs.firmware with
        | none => throw "firmware image is missing or truncated"
        | some firmware =>
            if firmware.size < 0x200 then throw "firmware image is missing or truncated"
            else do
              checkBinaries rom
              bootMachine inputs rom firmware

/-- The answer of a boot, and the operations it has performed. -/
def outcome (inputs : NdsDirectBootInputs) : Except String Unit × List MachineOp :=
  (ndsDirectBoot inputs).run.run []

/-- The boot succeeds, or it has not touched the machine. -/
def AllOrNothing (inputs : NdsDirectBootInputs) : Prop :=
  (outcome inputs).1 = .ok () ∨ (outcome inputs).2 = []

/-! ### Runs of the boot -/

section Runs

variable {α β : Type} (ops : List MachineOp)

theorem run_bind (action : BootM α) (next : α → BootM β) :
    (action >>= next).run.run ops =
      match action.run.run ops with
      | (.ok a, ops') => (next a).run.run ops'
      | (.error e, ops') => (.error e, ops') := by
  rw [ExceptT.run_bind, StateT.run_bind]
  obtain ⟨result, ops'⟩ := action.run.run ops
  cases result with
  | ok a => rfl
  | error e => rfl

@[simp] theorem run_pure (a : α) : (pure a : BootM α).run.run ops = (.ok a, ops) := rfl

@[simp] theorem run_throw (e : String) :
    (throw e : BootM α).run.run ops = (.error e, ops) := rfl

@[simp] theorem run_perform (op : MachineOp) :
    (perform op).run.run ops = (.ok (), ops ++ [op]) := rfl

@[simp] theorem run_performAll (more : List MachineOp) :
    (performAll more).run.run ops = (.ok (), ops ++ more) := rfl

/-- An action only ever adds to what was performed. -/
def Grows (action : BootM α) : Prop := ∀ ops, ops <+: (action.run.run ops).2

theorem Grows.bind {action : BootM α} {next : α → BootM β} (h : Grows action)
    (hnext : ∀ a, Grows (next a)) : Grows (action >>= next) := by
  intro ops
  rw [run_bind]
  have hprefix := h ops
  generalize action.run.run ops = outcome at hprefix ⊢
  obtain ⟨result, ops'⟩ := outcome
  cases result with
  | ok a => exact hprefix.trans (hnext a ops')
  | error e => exact hprefix

theorem grows_perform (op : MachineOp) : Grows (perform op) := fun _ => List.prefix_append _ _

theorem grows_performAll (more : List MachineOp) : Grows (performAll more) :=
  fun _ => List.prefix_append _ _

theorem grows_throw (e : String) : Grows (throw e : BootM α) := fun _ => List.prefix_rfl

theorem grows_pure (a : α) : Grows (pure a : BootM α) := fun _ => List.prefix_rfl

/-- Where an action succeeds is decided by a condition on the inputs. -/
def Succeeds (action : BootM α) (condition : Prop) : Prop :=
  ∀ ops, (∃ a, (action.run.run ops).1 = .ok a) ↔ condition

theorem Succeeds.bind {action : BootM α} {next : α → BootM β} {condition further : Prop}
    (h : Succeeds action condition) (hnext : ∀ a, Succeeds (next a) further) :
    Succeeds (action >>= next) (condition ∧ further) := by
  intro ops
  rw [run_bind, ← h ops]
  obtain ⟨result, ops'⟩ := action.run.run ops
  cases result with
  | ok a =>
      have hok : (∃ a', (Except.ok a : Except String α) = .ok a') := ⟨a, rfl⟩
      exact (hnext a ops').trans (iff_and_self.mpr fun _ => hok).symm.symm
  | error e =>
      refine iff_of_false ?_ ?_
      · rintro ⟨b, hb⟩
        cases hb
      · rintro ⟨⟨a, ha⟩, _⟩
        cases ha

theorem succeeds_performs {action : BootM α} {result : α} {f : List MachineOp → List MachineOp}
    (h : ∀ ops, action.run.run ops = (.ok result, f ops)) : Succeeds action True :=
  fun ops => iff_of_true ⟨result, by rw [h ops]⟩ trivial

end Runs

/-! ### The checks -/

/-- The checks made before the first write pass. -/
structure EarlyChecks (rom firmware : Image) : Prop where
  rom_size : 0x200 ≤ rom.size
  firmware_size : 0x200 ≤ firmware.size
  arm9_inside : (arm9Binary rom).romOffset.toNat + (arm9Binary rom).size.toNat ≤ rom.size
  arm7_inside : (arm7Binary rom).romOffset.toNat + (arm7Binary rom).size.toNat ≤ rom.size
  aligned : (arm9Binary rom).size &&& 3 = 0 ∧ (arm7Binary rom).size &&& 3 = 0

/-- A secure area comes with its plaintext, and fits the binary it is part of. -/
def SecureAreaPresent (inputs : NdsDirectBootInputs) (arm9 : Binary) : Prop :=
  hasSecureArea arm9 = true → inputs.secureArea.isSome = true ∧ kSecureAreaSize ≤ arm9.size.toNat

/-- The checks made between the writes pass. -/
structure LateChecks (inputs : NdsDirectBootInputs) (rom firmware : Image) : Prop where
  secure : SecureAreaPresent inputs (arm9Binary rom)
  settings : userOffset firmware + 0x200 ≤ firmware.size

theorem grows_copySecureArea (inputs : NdsDirectBootInputs) (arm9 : Binary) :
    Grows (copySecureArea inputs arm9) := by
  unfold copySecureArea
  split
  · cases inputs.secureArea with
    | none => exact grows_throw _
    | some plaintext =>
        dsimp only
        split
        · exact (grows_throw _).bind fun _ => (grows_performAll _).bind fun _ => grows_pure _
        · exact (grows_performAll _).bind fun _ => grows_pure _
  · exact grows_pure _

theorem succeeds_copySecureArea (inputs : NdsDirectBootInputs) (arm9 : Binary) :
    Succeeds (copySecureArea inputs arm9) (SecureAreaPresent inputs arm9) := by
  intro ops
  unfold copySecureArea SecureAreaPresent
  by_cases harea : hasSecureArea arm9 = true
  · rw [if_pos harea]
    cases inputs.secureArea with
    | none =>
        refine iff_of_false ?_ fun h => Bool.false_ne_true (h harea).1
        rintro ⟨a, ha⟩
        cases ha
    | some plaintext =>
        by_cases hsize : arm9.size.toNat < kSecureAreaSize
        · refine iff_of_false ?_ fun h => absurd (h harea).2 (by omega)
          dsimp only
          rw [if_pos hsize]
          rintro ⟨a, ha⟩
          cases ha
        · refine iff_of_true ?_ fun _ => ⟨rfl, by omega⟩
          dsimp only
          rw [if_neg hsize]
          exact ⟨_, rfl⟩
  · rw [if_neg harea]
    exact iff_of_true ⟨_, rfl⟩ fun h => absurd h harea

theorem grows_mirrorUserSettings (firmware : Image) : Grows (mirrorUserSettings firmware) := by
  unfold mirrorUserSettings
  dsimp only
  have hmirror (userData : Nat) : Grows (do
      perform (.write32 0 0x027FF864 0)
      perform (.write32 0 0x027FF868 (UInt32.ofNat (userOffset firmware)))
      perform (.write16 0 0x027FF874 (firmware.load16 0x26))
      perform (.write16 0 0x027FF876 (firmware.load16 0x04))
      performAll (copyWords 0 0x027FFC80 firmware userData 0 kUserSettingsSize)) :=
    (grows_perform _).bind fun _ => (grows_perform _).bind fun _ => (grows_perform _).bind fun _ =>
      (grows_perform _).bind fun _ => grows_performAll _
  split
  · exact (grows_throw _).bind fun _ => hmirror _
  · exact hmirror _

theorem succeeds_mirrorUserSettings (firmware : Image) :
    Succeeds (mirrorUserSettings firmware) (userOffset firmware + 0x200 ≤ firmware.size) := by
  intro ops
  unfold mirrorUserSettings
  dsimp only
  by_cases hrange : userOffset firmware + 0x200 > firmware.size
  · refine iff_of_false ?_ (by omega)
    rw [if_pos hrange]
    rintro ⟨a, ha⟩
    cases ha
  · rw [if_neg hrange]
    exact iff_of_true ⟨_, rfl⟩ (by omega)

theorem succeeds_bootMachine (inputs : NdsDirectBootInputs) (rom firmware : Image) :
    Succeeds (bootMachine inputs rom firmware) (LateChecks inputs rom firmware) := by
  have hall (more : List MachineOp) : Succeeds (performAll more) True :=
    succeeds_performs (run_performAll · more)
  have hone (op : MachineOp) : Succeeds (perform op) True := succeeds_performs (run_perform · op)
  have hend := (hall (kCp15Settings.map fun (crn, crm, op2, value) =>
    .cp15Write crn crm op2 value)).bind fun _ =>
      (hone (.setCpuBoot 0 (arm9Binary rom).entry 0x03002F7C 0x03003F80 0x03003FC0)).bind fun _ =>
        (hone (.setCpuBoot 1 (arm7Binary rom).entry 0x0380FD80 0x0380FF80 0x0380FFC0)).bind
          fun _ => hone .setPostBootLatches
  have hcopied (start : Nat) :=
    (hall (copyWords 0 (arm9Binary rom).ram rom (arm9Binary rom).romOffset.toNat start
      (arm9Binary rom).size.toNat)).bind fun _ =>
      (hall (copyWords 1 (arm7Binary rom).ram rom (arm7Binary rom).romOffset.toNat 0
        (arm7Binary rom).size.toNat)).bind fun _ =>
        (hone (.setArm7BiosProt 0x1204)).bind fun _ =>
          (succeeds_mirrorUserSettings firmware).bind fun _ => hend
  have hboot := (hall (headerMirror rom inputs.cartChipId)).bind fun _ =>
    (succeeds_copySecureArea inputs (arm9Binary rom)).bind hcopied
  intro ops
  unfold bootMachine
  dsimp only
  rw [run_bind, run_perform]
  dsimp only
  have hsplit : LateChecks inputs rom firmware ↔
      SecureAreaPresent inputs (arm9Binary rom) ∧ userOffset firmware + 0x200 ≤ firmware.size :=
    ⟨fun h => ⟨h.secure, h.settings⟩, fun h => ⟨h.1, h.2⟩⟩
  rw [hsplit]
  split
  · rw [run_bind, run_perform]
    exact (hboot _).trans (by simp only [true_and, and_true])
  · exact (hboot _).trans (by simp only [true_and, and_true])

/-- The machine is written before the late checks are made. -/
theorem bootMachine_performs (inputs : NdsDirectBootInputs) (rom firmware : Image) :
    ((bootMachine inputs rom firmware).run.run []).2 ≠ [] := by
  have hend : Grows (do
      performAll (kCp15Settings.map fun (crn, crm, op2, value) => .cp15Write crn crm op2 value)
      perform (.setCpuBoot 0 (arm9Binary rom).entry 0x03002F7C 0x03003F80 0x03003FC0)
      perform (.setCpuBoot 1 (arm7Binary rom).entry 0x0380FD80 0x0380FF80 0x0380FFC0)
      perform .setPostBootLatches) :=
    (grows_performAll _).bind fun _ => (grows_perform _).bind fun _ =>
      (grows_perform _).bind fun _ => grows_perform _
  have hboot := (grows_performAll (headerMirror rom inputs.cartChipId)).bind fun _ =>
    (grows_copySecureArea inputs (arm9Binary rom)).bind fun start =>
      (grows_performAll (copyWords 0 (arm9Binary rom).ram rom (arm9Binary rom).romOffset.toNat
        start (arm9Binary rom).size.toNat)).bind fun _ =>
        (grows_performAll (copyWords 1 (arm7Binary rom).ram rom (arm7Binary rom).romOffset.toNat 0
          (arm7Binary rom).size.toNat)).bind fun _ =>
          (grows_perform (.setArm7BiosProt 0x1204)).bind fun _ =>
            (grows_mirrorUserSettings firmware).bind fun _ => hend
  unfold bootMachine
  dsimp only
  rw [run_bind, run_perform]
  dsimp only
  split
  · rw [run_bind, run_perform]
    exact fun hnone => List.cons_ne_nil _ _ (List.prefix_nil.mp (hnone ▸ hboot _))
  · exact fun hnone => List.cons_ne_nil _ _ (List.prefix_nil.mp (hnone ▸ hboot _))

theorem checkBinaries_run (rom : Image) (ops : List MachineOp) :
    ((checkBinaries rom).run.run ops).2 = ops ∧
      (((checkBinaries rom).run.run ops).1 = .ok () ↔
        (arm9Binary rom).romOffset.toNat + (arm9Binary rom).size.toNat ≤ rom.size ∧
          (arm7Binary rom).romOffset.toNat + (arm7Binary rom).size.toNat ≤ rom.size ∧
          (arm9Binary rom).size &&& 3 = 0 ∧ (arm7Binary rom).size &&& 3 = 0) := by
  have hfailed (e : String) : (Except.error e : Except String Unit) ≠ .ok () := by
    rintro ⟨⟩
  unfold checkBinaries
  dsimp only
  split
  · rename_i harm9
    exact ⟨rfl, iff_of_false (hfailed _) fun h => absurd h.1 (by omega)⟩
  split
  · rename_i harm7
    exact ⟨rfl, iff_of_false (hfailed _) fun h => absurd h.2.1 (by omega)⟩
  rename_i harm9 harm7
  split
  · rename_i hsizes
    refine ⟨rfl, iff_of_false (hfailed _) fun h => ?_⟩
    cases hsizes with
    | inl h9 => exact h9 h.2.2.1
    | inr h7 => exact h7 h.2.2.2
  · rename_i hsizes
    rw [not_or, not_not, not_not] at hsizes
    exact ⟨rfl, iff_of_true rfl ⟨by omega, by omega, hsizes⟩⟩

/-- A boot is all or nothing exactly for the inputs that fail no late check
once they have passed the early ones. -/
theorem allOrNothing_iff (inputs : NdsDirectBootInputs) :
    AllOrNothing inputs ↔
      ∀ rom firmware, inputs.rom = some rom → inputs.firmware = some firmware →
        EarlyChecks rom firmware → LateChecks inputs rom firmware := by
  unfold AllOrNothing outcome ndsDirectBoot
  cases hrom : inputs.rom with
  | none => exact iff_of_true (.inr rfl) fun _ _ h => nomatch h
  | some rom =>
      dsimp only
      by_cases hsize : rom.size < 0x200
      · rw [if_pos hsize]
        refine iff_of_true (.inr rfl) fun rom' _ heq _ hearly => ?_
        obtain rfl : rom = rom' := Option.some.inj heq
        exact absurd hearly.rom_size (by omega)
      rw [if_neg hsize]
      cases hfirmware : inputs.firmware with
      | none => exact iff_of_true (.inr rfl) fun _ _ _ h => nomatch h
      | some firmware =>
          dsimp only
          by_cases hfsize : firmware.size < 0x200
          · rw [if_pos hfsize]
            refine iff_of_true (.inr rfl) fun _ firmware' _ heq hearly => ?_
            obtain rfl : firmware = firmware' := Option.some.inj heq
            exact absurd hearly.firmware_size (by omega)
          rw [if_neg hfsize, run_bind]
          obtain ⟨hkept, hchecked⟩ := checkBinaries_run rom []
          have hsucceeds := succeeds_bootMachine inputs rom firmware []
          have hperforms := bootMachine_performs inputs rom firmware
          generalize (checkBinaries rom).run.run [] = checked at hkept hchecked ⊢
          obtain ⟨result, ops⟩ := checked
          obtain rfl : ops = [] := hkept
          cases result with
          | error e =>
              refine iff_of_true (.inr rfl) fun rom' firmware' heq heq' hearly => ?_
              obtain rfl : rom = rom' := Option.some.inj heq
              obtain rfl : firmware = firmware' := Option.some.inj heq'
              cases hchecked.mpr ⟨hearly.arm9_inside, hearly.arm7_inside, hearly.aligned⟩
          | ok a =>
              obtain ⟨h9, h7, haligned⟩ := hchecked.mp rfl
              have hearly : EarlyChecks rom firmware := ⟨by omega, by omega, h9, h7, haligned⟩
              constructor
              · rintro (hok | hnone) rom' firmware' heq heq' _
                · obtain rfl : rom = rom' := Option.some.inj heq
                  obtain rfl : firmware = firmware' := Option.some.inj heq'
                  exact hsucceeds.mp ⟨(), hok⟩
                · exact absurd hnone hperforms
              · intro hlate
                obtain ⟨_, hok⟩ := hsucceeds.mpr (hlate rom firmware rfl rfl hearly)
                exact .inl hok

/-- A cartridge of 0x4000 bytes whose ARM9 binary, of no bytes, is said to start
at 0x4000, in the secure area. -/
def securedCartridge : NdsDirectBootInputs where
  rom := some ⟨0x4000, fun i => if i = 0x21 then 0x40 else 0⟩
  firmware := some ⟨0x200, fun _ => 0⟩

/-- Without the plaintext the boot refuses, with the header already mirrored. -/
theorem securedCartridge_halfBooted :
    (outcome securedCartridge).1 = .error "cartridge has a secure area but no plaintext" ∧
      (outcome securedCartridge).2.head? = some (.setWramcnt 3) ∧
      ¬ AllOrNothing securedCartridge := by
  have hfailed : (outcome securedCartridge).1 =
      .error "cartridge has a secure area but no plaintext" := by decide
  have hhead : (outcome securedCartridge).2.head? = some (.setWramcnt 3) := by decide
  refine ⟨hfailed, hhead, ?_⟩
  rintro (hok | hnone)
  · rw [hfailed] at hok
    cases hok
  · rw [hnone] at hhead
    cases hhead

end NdsRecomp.Boot
