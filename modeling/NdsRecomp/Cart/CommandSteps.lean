import NdsRecomp.Cart.Backup

/-!
What one byte of a transfer does to a chip, by the kind of the command it is
part of. The three chip families share four kinds of commands and differ in
their opcodes, their address widths and how an address selects a byte.
-/

namespace NdsRecomp.Cart

inductive CommandKind where
  | program
  | erase
  | read (dummy : Nat)
  | other
deriving DecidableEq

def eepromKind (op : UInt8) : CommandKind :=
  if op = 0x02 then .program else if op = 0x03 then .read 0 else .other

def eepromTinyKind (op : UInt8) : CommandKind :=
  if op = 0x02 ∨ op = 0x0A then .program
  else if op = 0x03 ∨ op = 0x0B then .read 0
  else .other

def flashKind (op : UInt8) : CommandKind :=
  if op = 0x02 ∨ op = 0x0A then .program
  else if op = 0x03 then .read 0
  else if op = 0x0B then .read 1
  else if op = 0xD8 ∨ op = 0xDB then .erase
  else .other

def commandKind : NdsCartridgeSaveType → UInt8 → CommandKind
  | .eeprom => eepromKind
  | .eepromTiny => eepromTinyKind
  | .flash => flashKind
  | .none => fun _ => .other

/-- A write, program or erase opcode of the chip. -/
def Changes (type : NdsCartridgeSaveType) (op : UInt8) : Prop :=
  commandKind type op = .program ∨ commandKind type op = .erase

instance (type : NdsCartridgeSaveType) (op : UInt8) : Decidable (Changes type op) :=
  inferInstanceAs (Decidable (_ ∨ _))

def addressBytes (type : NdsCartridgeSaveType) (size : Nat) : Nat :=
  match type with
  | .eepromTiny => 1
  | .eeprom => if size > 65536 then 3 else 2
  | .flash => 3
  | .none => 0

/-- The byte of the memory an address selects: the tiny chips put the half the
opcode names above it, every chip wraps at its size. -/
def place (type : NdsCartridgeSaveType) (size : Nat) (op : UInt8) (addr : UInt32) : Nat :=
  match type with
  | .eepromTiny =>
      let high : UInt32 := if op = 0x0A ∨ op = 0x0B then 0x100 else 0
      ((addr + high) &&& 0x1FF).toNat
  | _ => (addr &&& (UInt32.ofNat size - 1)).toNat

namespace NdsCartBackup

variable (chip : NdsCartBackup) (val : UInt8) (pos : UInt32) (last : Bool)

/-! ### Updates -/

theorem put_other {destination a : Nat} (h : a ≠ destination) (val : UInt8) :
    (chip.put destination val).sram a = chip.sram a := by
  unfold put
  split
  · exact Function.update_of_ne h _ _
  · rfl

/-- Everything but the memory and the dirty flag. -/
def SameControl (chip chip' : NdsCartBackup) : Prop :=
  chip'.type = chip.type ∧ chip'.size = chip.size ∧ chip'.cmd = chip.cmd ∧
    chip'.addr = chip.addr ∧ chip'.status = chip.status

theorem put_control (destination : Nat) : SameControl chip (chip.put destination val) := by
  unfold put
  split
  · exact ⟨rfl, rfl, rfl, rfl, rfl⟩
  · exact ⟨rfl, rfl, rfl, rfl, rfl⟩

theorem SameControl.trans {a b c : NdsCartBackup} (h : SameControl a b) (h' : SameControl b c) :
    SameControl a c :=
  ⟨h'.1.trans h.1, h'.2.1.trans h.2.1, h'.2.2.1.trans h.2.2.1, h'.2.2.2.1.trans h.2.2.2.1,
    h'.2.2.2.2.trans h.2.2.2.2⟩

theorem sameControl_refl : SameControl chip chip := ⟨rfl, rfl, rfl, rfl, rfl⟩

theorem putIfEnabled_control (destination : Nat) :
    SameControl chip (chip.putIfEnabled destination val) := by
  unfold putIfEnabled
  split
  · exact put_control chip val destination
  · exact sameControl_refl chip

theorem putIfEnabled_changed {destination a : Nat}
    (h : (chip.putIfEnabled destination val).sram a ≠ chip.sram a) :
    chip.writeEnabled = true ∧ a = destination := by
  unfold putIfEnabled at h
  split at h
  · next henabled =>
      refine ⟨henabled, ?_⟩
      by_contra hne
      exact h (chip.put_other hne val)
  · exact absurd rfl h

/-- The erase loop keeps the control state and clears only bytes in its range. -/
theorem erase_spec (length : Nat) :
    SameControl chip (chip.erase length) ∧
      ∀ a, (chip.erase length).sram a ≠ chip.sram a →
        ∃ i < length, a = ((chip.addr + UInt32.ofNat i) &&& chip.mask).toNat := by
  unfold erase
  induction length with
  | zero => exact ⟨sameControl_refl chip, fun a h => absurd rfl h⟩
  | succ n ih =>
      rw [List.range_succ, List.foldl_append, List.foldl_cons, List.foldl_nil]
      generalize (List.range n).foldl _ chip = cleared at ih ⊢
      obtain ⟨hcontrol, hchanged⟩ := ih
      have hsize := hcontrol.2.1
      have haddr := hcontrol.2.2.2.1
      have hmask : cleared.mask = chip.mask := by
        unfold mask
        rw [hsize]
      rw [haddr, hmask]
      constructor
      · exact hcontrol.trans (put_control _ _ _)
      · intro a ha
        by_cases hhere : a = ((chip.addr + UInt32.ofNat n) &&& chip.mask).toNat
        · exact ⟨n, Nat.lt_succ_self n, hhere⟩
        · rw [put_other _ hhere] at ha
          obtain ⟨i, hi, hplace⟩ := hchanged a ha
          exact ⟨i, Nat.lt_succ_of_lt hi, hplace⟩

theorem finishWrite_fields :
    (chip.finishWrite last).type = chip.type ∧ (chip.finishWrite last).size = chip.size ∧
      (chip.finishWrite last).cmd = chip.cmd ∧ (chip.finishWrite last).addr = chip.addr ∧
      (chip.finishWrite last).sram = chip.sram := by
  unfold finishWrite
  split
  · exact ⟨rfl, rfl, rfl, rfl, rfl⟩
  · exact ⟨rfl, rfl, rfl, rfl, rfl⟩

theorem and_not_two (status : UInt8) : status &&& ~~~0x02 &&& 0x02 = 0 := by
  rw [UInt8.and_assoc]
  exact UInt8.and_zero

theorem finishWrite_enabled :
    (chip.finishWrite last).writeEnabled = (!last && chip.writeEnabled) := by
  unfold finishWrite
  cases last with
  | false => simp
  | true =>
      unfold writeEnabled
      simp [and_not_two]

/-! ### One byte of a command -/

variable {chip val pos last}

theorem addrsize_iff (size : Nat) (pos : UInt32) :
    pos ≤ (if size > 65536 then 3 else 2) ↔ pos.toNat ≤ addressBytes .eeprom size := by
  unfold addressBytes
  dsimp only
  rw [UInt32.le_iff_toNat_le]
  split
  · rfl
  · rfl

theorem toNat_eq_one {pos : UInt32} : pos.toNat = 1 ↔ pos = 1 :=
  UInt32.toNat_inj (b := 1)

theorem lt_two_iff {pos : UInt32} (hpos : pos ≠ 0) : pos < 2 ↔ pos = 1 := by
  have hne : pos.toNat ≠ 0 := fun hzero => hpos (UInt32.toNat_inj.mp hzero)
  rw [UInt32.lt_iff_toNat_lt, ← toNat_eq_one]
  change pos.toNat < 2 ↔ _
  omega

/-- A program command takes its address, then stores byte after byte. -/
theorem spiWrite_program (hkind : commandKind chip.type chip.cmd = .program)
    (hsize : chip.size ≠ 0) (hpos : pos ≠ 0) (hfresh : pos = 1 → chip.addr = 0) :
    ∃ stored, (chip.spiWrite val pos last).1 =
      (if pos.toNat ≤ addressBytes chip.type chip.size then chip.shiftAddr val
        else (chip.putIfEnabled (place chip.type chip.size chip.cmd chip.addr) stored).nextAddr
      ).finishWrite last := by
  unfold spiWrite
  rw [if_neg hsize, if_neg hpos]
  cases htype : chip.type with
  | none =>
      rw [htype] at hkind
      cases hkind
  | eepromTiny =>
      rw [htype] at hkind
      have hcmd : chip.cmd = 0x02 ∨ chip.cmd = 0x0A := by
        change eepromTinyKind chip.cmd = .program at hkind
        unfold eepromTinyKind at hkind
        split_ifs at hkind with hwrite
        exact hwrite
      have hstatus : chip.cmd ≠ 0x01 ∧ chip.cmd ≠ 0x05 := by
        rcases hcmd with h | h <;> rw [h] <;> decide
      refine ⟨val, ?_⟩
      dsimp only
      unfold eepromTinySpiWrite
      rw [if_neg hstatus.1, if_neg hstatus.2, if_pos hcmd]
      by_cases hfirst : pos = 1
      · have haddr : chip.addr <<< 8 ||| val.toUInt32 = val.toUInt32 := by
          rw [hfresh hfirst]
          simp
        unfold shiftAddr
        rw [if_pos ((lt_two_iff hpos).mpr hfirst), haddr, if_pos]
        rw [hfirst]
        exact le_refl 1
      · rw [if_neg fun hlt => hfirst ((lt_two_iff hpos).mp hlt), if_neg]
        · rfl
        · intro hle
          have hne : pos.toNat ≠ 0 := fun hzero => hpos (UInt32.toNat_inj.mp hzero)
          change pos.toNat ≤ 1 at hle
          exact hfirst (toNat_eq_one.mp (by omega))
  | eeprom =>
      rw [htype] at hkind
      have hcmd : chip.cmd = 0x02 := by
        change eepromKind chip.cmd = .program at hkind
        unfold eepromKind at hkind
        split_ifs at hkind with hwrite
        exact hwrite
      refine ⟨val, ?_⟩
      dsimp only
      unfold eepromSpiWrite
      rw [if_neg (by rw [hcmd]; decide), if_neg (by rw [hcmd]; decide), if_pos hcmd]
      simp only [addrsize_iff]
      rfl
  | flash =>
      rw [htype] at hkind
      have hcmd : chip.cmd = 0x02 ∨ chip.cmd = 0x0A := by
        change flashKind chip.cmd = .program at hkind
        unfold flashKind at hkind
        split_ifs at hkind with hwrite
        exact hwrite
      have hstatus : chip.cmd ≠ 0x05 := by
        rcases hcmd with h | h <;> rw [h] <;> decide
      refine ⟨if chip.cmd = 0x02 then 0 else val, ?_⟩
      dsimp only
      unfold flashSpiWrite
      rw [if_neg hstatus, if_pos hcmd]
      rfl

/-- A read command takes its address and its dummy bytes, then answers with
byte after byte. -/
theorem spiWrite_read {d : Nat} (hkind : commandKind chip.type chip.cmd = .read d)
    (hsize : chip.size ≠ 0) (hpos : pos ≠ 0) (hfresh : chip.type = .eepromTiny → pos = 1 → chip.addr = 0) :
    chip.spiWrite val pos last =
      if pos.toNat ≤ addressBytes chip.type chip.size then (chip.shiftAddr val, 0)
      else if pos.toNat ≤ addressBytes chip.type chip.size + d then (chip, 0)
      else (chip.nextAddr, chip.sram (place chip.type chip.size chip.cmd chip.addr)) := by
  unfold spiWrite
  rw [if_neg hsize, if_neg hpos]
  cases htype : chip.type with
  | none =>
      rw [htype] at hkind
      cases hkind
  | eepromTiny =>
      rw [htype] at hkind
      have hcmd : (chip.cmd = 0x03 ∨ chip.cmd = 0x0B) ∧ d = 0 := by
        change eepromTinyKind chip.cmd = .read d at hkind
        unfold eepromTinyKind at hkind
        split_ifs at hkind with hwrite hread
        exact ⟨hread, (CommandKind.read.inj hkind).symm⟩
      obtain ⟨hcmd, rfl⟩ := hcmd
      have hother : chip.cmd ≠ 0x01 ∧ chip.cmd ≠ 0x05 ∧ ¬ (chip.cmd = 0x02 ∨ chip.cmd = 0x0A) := by
        rcases hcmd with h | h <;> rw [h] <;> decide
      dsimp only
      unfold eepromTinySpiWrite
      rw [if_neg hother.1, if_neg hother.2.1, if_neg hother.2.2, if_pos hcmd]
      by_cases hfirst : pos = 1
      · have haddr : chip.addr <<< 8 ||| val.toUInt32 = val.toUInt32 := by
          rw [hfresh htype hfirst]
          simp
        unfold shiftAddr
        rw [if_pos ((lt_two_iff hpos).mpr hfirst), haddr, if_pos]
        rw [hfirst]
        exact le_refl 1
      · have hlarge : ¬ pos.toNat ≤ addressBytes .eepromTiny chip.size := by
          have hne : pos.toNat ≠ 0 := fun hzero => hpos (UInt32.toNat_inj.mp hzero)
          intro hle
          change pos.toNat ≤ 1 at hle
          exact hfirst (toNat_eq_one.mp (by omega))
        rw [if_neg fun hlt => hfirst ((lt_two_iff hpos).mp hlt), if_neg hlarge, Nat.add_zero,
          if_neg hlarge]
        rfl
  | eeprom =>
      rw [htype] at hkind
      have hcmd : chip.cmd = 0x03 ∧ d = 0 := by
        change eepromKind chip.cmd = .read d at hkind
        unfold eepromKind at hkind
        split_ifs at hkind with hwrite hread
        exact ⟨hread, (CommandKind.read.inj hkind).symm⟩
      obtain ⟨hcmd, rfl⟩ := hcmd
      dsimp only
      unfold eepromSpiWrite
      rw [if_neg (by rw [hcmd]; decide), if_neg (by rw [hcmd]; decide),
        if_neg (by rw [hcmd]; decide), if_pos hcmd]
      simp only [addrsize_iff, Nat.add_zero]
      split
      · rfl
      · rfl
  | flash =>
      rw [htype] at hkind
      change flashKind chip.cmd = .read d at hkind
      unfold flashKind at hkind
      have hbytes : addressBytes .flash chip.size = 3 := rfl
      dsimp only
      unfold flashSpiWrite
      rw [hbytes]
      split_ifs at hkind with hwrite hread hfast
      · obtain rfl := CommandKind.read.inj hkind
        have hother : chip.cmd ≠ 0x05 ∧ chip.cmd ≠ 0x0B := by
          rw [hread]
          decide
        rw [if_neg hother.1, if_neg hwrite, if_pos (Or.inl hread)]
        by_cases haddress : pos.toNat ≤ 3
        · rw [if_pos (UInt32.le_iff_toNat_le.mpr haddress), if_pos haddress]
        · rw [if_neg fun hle => haddress (UInt32.le_iff_toNat_le.mp hle),
            if_neg fun h => hother.2 h.1, if_neg haddress, Nat.add_zero, if_neg haddress]
          rfl
      · obtain rfl := CommandKind.read.inj hkind
        have hother : chip.cmd ≠ 0x05 := by
          rw [hfast]
          decide
        rw [if_neg hother, if_neg hwrite, if_pos (Or.inr hfast)]
        by_cases haddress : pos.toNat ≤ 3
        · rw [if_pos (UInt32.le_iff_toNat_le.mpr haddress), if_pos haddress]
        · rw [if_neg fun hle => haddress (UInt32.le_iff_toNat_le.mp hle), if_neg haddress]
          by_cases hdummy : pos.toNat = 4
          · rw [if_pos ⟨hfast, UInt32.toNat_inj.mp hdummy⟩, if_pos hdummy.le]
          · have hlarge : ¬ pos.toNat ≤ 3 + 1 := by omega
            rw [if_neg fun hand => hdummy (congrArg UInt32.toNat hand.2), if_neg hlarge]
            rfl

/-- An erase command clears its range with the last address byte. -/
theorem spiWrite_erase (hkind : commandKind chip.type chip.cmd = .erase) (hsize : chip.size ≠ 0)
    (hpos : pos ≠ 0) :
    chip.type = .flash ∧ (chip.spiWrite val pos last).1 =
      if pos.toNat < 3 then (chip.shiftAddr val).finishWrite last
      else if pos.toNat = 3 then
        (if chip.writeEnabled then (chip.shiftAddr val).erase (eraseLength chip.cmd)
          else chip.shiftAddr val).finishWrite last
      else chip.finishWrite last := by
  unfold spiWrite
  rw [if_neg hsize, if_neg hpos]
  cases htype : chip.type with
  | none =>
      rw [htype] at hkind
      cases hkind
  | eepromTiny =>
      rw [htype] at hkind
      change eepromTinyKind chip.cmd = .erase at hkind
      unfold eepromTinyKind at hkind
      split_ifs at hkind
  | eeprom =>
      rw [htype] at hkind
      change eepromKind chip.cmd = .erase at hkind
      unfold eepromKind at hkind
      split_ifs at hkind
  | flash =>
      rw [htype] at hkind
      change flashKind chip.cmd = .erase at hkind
      unfold flashKind at hkind
      split_ifs at hkind with hwrite hread hfast herase
      refine ⟨rfl, ?_⟩
      dsimp only
      unfold flashSpiWrite
      have hstatus : chip.cmd ≠ 0x05 := by
        rcases herase with h | h <;> rw [h] <;> decide
      rw [if_neg hstatus, if_neg hwrite, if_neg fun h => h.elim hread hfast, if_pos herase]
      dsimp only
      have hthree : pos = 3 ↔ pos.toNat = 3 := (UInt32.toNat_inj (b := 3)).symm
      have hle : pos ≤ 3 ↔ pos.toNat ≤ 3 := UInt32.le_iff_toNat_le
      by_cases hbefore : pos.toNat < 3
      · rw [if_pos (hle.mpr (by omega)), if_neg fun h => by have := hthree.mp h.1; omega,
          if_pos hbefore]
      · rw [if_neg hbefore]
        by_cases hhere : pos.toNat = 3
        · rw [if_pos (hle.mpr (by omega)), if_pos hhere]
          by_cases henabled : chip.writeEnabled = true
          · rw [if_pos ⟨hthree.mpr hhere, henabled⟩, if_pos henabled]
            rfl
          · rw [if_neg fun h => henabled h.2, if_neg henabled]
        · have hlarge : ¬ pos ≤ 3 := fun h => by
            have hsmall := hle.mp h
            omega
          rw [if_neg hlarge, if_neg fun h => hhere (hthree.mp h.1), if_neg hhere]

/-! ### What no later byte does -/

/-- A byte after the first keeps the command, and without the latch it keeps
the memory and the latch too. -/
def Frame (chip r : NdsCartBackup) : Prop :=
  r.type = chip.type ∧ r.size = chip.size ∧ r.cmd = chip.cmd ∧
    (chip.writeEnabled = false → r.writeEnabled = false ∧ r.sram = chip.sram)

theorem Frame.trans {a b c : NdsCartBackup} (h : Frame a b) (h' : Frame b c) : Frame a c := by
  obtain ⟨htype, hsize, hcmd, hoff⟩ := h
  obtain ⟨htype', hsize', hcmd', hoff'⟩ := h'
  refine ⟨htype'.trans htype, hsize'.trans hsize, hcmd'.trans hcmd, ?_⟩
  intro hdisabled
  obtain ⟨hb, hsram⟩ := hoff hdisabled
  obtain ⟨hc, hsram'⟩ := hoff' hb
  exact ⟨hc, hsram'.trans hsram⟩

theorem frame_control {r : NdsCartBackup} (h : SameControl chip r)
    (hsram : chip.writeEnabled = false → r.sram = chip.sram) : Frame chip r := by
  obtain ⟨htype, hsize, hcmd, -, hstatus⟩ := h
  refine ⟨htype, hsize, hcmd, fun hoff => ⟨?_, hsram hoff⟩⟩
  unfold writeEnabled
  rw [hstatus]
  exact hoff

theorem frame_refl (chip : NdsCartBackup) : Frame chip chip :=
  ⟨rfl, rfl, rfl, fun hoff => ⟨hoff, rfl⟩⟩

theorem frame_addr (chip : NdsCartBackup) (addr : UInt32) : Frame chip { chip with addr := addr } :=
  ⟨rfl, rfl, rfl, fun hoff => ⟨hoff, rfl⟩⟩

theorem frame_putIfEnabled (chip : NdsCartBackup) (destination : Nat) (val : UInt8) :
    Frame chip (chip.putIfEnabled destination val) := by
  apply frame_control (chip.putIfEnabled_control val destination)
  intro hoff
  unfold putIfEnabled
  rw [if_neg (by simp [hoff])]

theorem frame_finishWrite (chip : NdsCartBackup) (last : Bool) : Frame chip (chip.finishWrite last) := by
  obtain ⟨htype, hsize, hcmd, -, hsram⟩ := chip.finishWrite_fields last
  refine ⟨htype, hsize, hcmd, fun hoff => ⟨?_, hsram⟩⟩
  rw [finishWrite_enabled, hoff, Bool.and_false]

theorem frame_writeStatus (chip : NdsCartBackup) (val : UInt8) (pos : UInt32) :
    Frame chip (chip.writeStatus val pos) := by
  unfold writeStatus
  split
  · refine ⟨rfl, rfl, rfl, fun _ => ⟨?_, rfl⟩⟩
    unfold writeEnabled
    have hbit : (chip.status &&& 0x01 ||| val &&& 0x0C) &&& 0x02 = 0 := by
      refine UInt8.toBitVec_inj.mp ?_
      ext i hi
      interval_cases i <;> simp
    simp [hbit]
  · exact frame_refl chip

theorem frame_erase (chip : NdsCartBackup) (length : Nat) (henabled : chip.writeEnabled = true) :
    Frame chip (chip.erase length) := by
  apply frame_control (chip.erase_spec length).1
  intro hoff
  rw [henabled] at hoff
  cases hoff

theorem frame_program (chip : NdsCartBackup) (destination : Nat) (stored : UInt8) (last : Bool) :
    Frame chip (((chip.putIfEnabled destination stored).nextAddr).finishWrite last) :=
  ((frame_putIfEnabled chip destination stored).trans (frame_addr _ _)).trans
    (frame_finishWrite _ last)

theorem spiWrite_frame (chip : NdsCartBackup) (val : UInt8) {pos : UInt32} (last : Bool)
    (hpos : pos ≠ 0) : Frame chip (chip.spiWrite val pos last).1 := by
  unfold spiWrite
  split
  · exact frame_refl chip
  · split
    · unfold eepromTinySpiWrite
      split_ifs
      · exact frame_writeStatus chip val pos
      · exact frame_refl chip
      · exact (frame_addr chip _).trans (frame_finishWrite _ last)
      · exact frame_program chip _ _ last
      · exact frame_addr chip _
      · exact frame_addr chip _
      · exact frame_refl chip
    · unfold eepromSpiWrite
      dsimp only
      generalize (if chip.size > 65536 then (3 : UInt32) else 2) = addrsize
      split_ifs
      · exact frame_writeStatus chip val pos
      · exact frame_refl chip
      · exact (frame_addr chip _).trans (frame_finishWrite _ last)
      · exact frame_program chip _ _ last
      · exact frame_addr chip _
      · exact frame_addr chip _
      · exact frame_refl chip
    · unfold flashSpiWrite
      split
      · exact frame_refl chip
      split
      · dsimp only
        split
        · exact (frame_addr chip _).trans (frame_finishWrite _ last)
        · exact frame_program chip _ _ last
      split
      · split_ifs
        · exact frame_addr chip _
        · exact frame_refl chip
        · exact frame_addr chip _
      split
      · have haddress : Frame chip (if pos ≤ 3 then chip.shiftAddr val else chip) := by
          split
          · exact frame_addr chip _
          · exact frame_refl chip
        dsimp only
        generalize (if pos ≤ 3 then chip.shiftAddr val else chip) = addressed at haddress ⊢
        refine (haddress.trans ?_).trans (frame_finishWrite _ last)
        split
        · next hmark => exact frame_erase _ _ hmark.2
        · exact frame_refl _
      · exact frame_refl chip
    · exact frame_refl chip

/-- A command that neither programs, erases nor reads leaves the memory and the
address alone. -/
theorem spiWrite_other (chip : NdsCartBackup) (val : UInt8) {pos : UInt32} (last : Bool)
    (hkind : commandKind chip.type chip.cmd = .other) (hpos : pos ≠ 0) :
    (chip.spiWrite val pos last).1.sram = chip.sram ∧
      (chip.spiWrite val pos last).1.addr = chip.addr := by
  have hstatus : (chip.writeStatus val pos).sram = chip.sram ∧
      (chip.writeStatus val pos).addr = chip.addr := by
    unfold writeStatus
    split
    · exact ⟨rfl, rfl⟩
    · exact ⟨rfl, rfl⟩
  unfold spiWrite
  split
  · exact ⟨rfl, rfl⟩
  · cases htype : chip.type with
    | none => exact ⟨rfl, rfl⟩
    | eepromTiny =>
        rw [htype] at hkind
        change eepromTinyKind chip.cmd = .other at hkind
        unfold eepromTinyKind at hkind
        split_ifs at hkind with hwrite hread
        dsimp only
        unfold eepromTinySpiWrite
        rw [if_neg hwrite, if_neg hread]
        split_ifs
        · exact hstatus
        · exact ⟨rfl, rfl⟩
        · exact ⟨rfl, rfl⟩
    | eeprom =>
        rw [htype] at hkind
        change eepromKind chip.cmd = .other at hkind
        unfold eepromKind at hkind
        split_ifs at hkind with hwrite hread
        dsimp only
        unfold eepromSpiWrite
        dsimp only
        rw [if_neg hwrite, if_neg hread]
        split_ifs
        · exact hstatus
        · exact ⟨rfl, rfl⟩
        · exact ⟨rfl, rfl⟩
    | flash =>
        rw [htype] at hkind
        change flashKind chip.cmd = .other at hkind
        unfold flashKind at hkind
        split_ifs at hkind with hwrite hread hfast herase
        dsimp only
        unfold flashSpiWrite
        have hslow : ¬ (chip.cmd = 0x03 ∨ chip.cmd = 0x0B) := fun h => h.elim hread hfast
        rw [if_neg hwrite, if_neg hslow, if_neg herase]
        split_ifs
        · exact ⟨rfl, rfl⟩
        · exact ⟨rfl, rfl⟩

/-- A command that changes nothing keeps the memory, whatever address an
earlier transfer left. -/
theorem spiWrite_sram (chip : NdsCartBackup) (val : UInt8) {pos : UInt32} (last : Bool)
    (hkeeps : ¬ Changes chip.type chip.cmd) (hpos : pos ≠ 0) :
    (chip.spiWrite val pos last).1.sram = chip.sram := by
  cases hkind : commandKind chip.type chip.cmd with
  | program => exact absurd (Or.inl hkind) hkeeps
  | erase => exact absurd (Or.inr hkind) hkeeps
  | other => exact (spiWrite_other chip val last hkind hpos).1
  | read d =>
      by_cases hsize : chip.size = 0
      · unfold spiWrite
        rw [if_pos hsize]
      by_cases htype : chip.type = .eepromTiny
      · rw [htype] at hkind
        change eepromTinyKind chip.cmd = .read d at hkind
        unfold eepromTinyKind at hkind
        split_ifs at hkind with hwrite hread
        unfold spiWrite
        rw [if_neg hsize, if_neg hpos, htype]
        dsimp only
        unfold eepromTinySpiWrite
        rw [if_neg hwrite, if_pos hread]
        split_ifs
        · unfold writeStatus
          split <;> rfl
        · rfl
        · rfl
        · rfl
      · rw [spiWrite_read hkind hsize hpos fun h => absurd h htype]
        split_ifs <;> rfl

end NdsCartBackup

end NdsRecomp.Cart
