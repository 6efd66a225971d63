import NdsRecomp.Cart.AuxSpi
import NdsRecomp.Cart.CommandSteps

/-!
When the save memory can change. The statements compare the chip with what it
was given in the current transfer: a change needs a transfer that opened with a
write, program or erase opcode while the latch was set, and it lies at an
address that transfer supplied.

The opcodes 0x04 and 0x06 return before the command of an earlier transfer is
replaced, so bytes after them still belong to that command. The discipline is
proved for the sessions in which this never meets a write command.
-/

namespace NdsRecomp.Cart

open Library

/-- The address of a transfer, from the bytes after its opcode. -/
def suppliedAddress (type : NdsCartridgeSaveType) (size : Nat) (args : List UInt8) : UInt32 :=
  (args.take (addressBytes type size)).foldl (fun addr b => addr <<< 8 ||| b.toUInt32) 0

/-- The bytes of the memory that a transfer addresses. -/
def reach (type : NdsCartridgeSaveType) (size : Nat) (op : UInt8) (args : List UInt8) : Set Nat :=
  match commandKind type op with
  | .program => {a | ∃ k, addressBytes type size + k < args.length ∧
      a = place type size op (suppliedAddress type size args + UInt32.ofNat k)}
  | .erase => {a | addressBytes type size ≤ args.length ∧ ∃ i < NdsCartBackup.eraseLength op,
      a = place type size op (suppliedAddress type size args + UInt32.ofNat i)}
  | _ => ∅

structure Disciplined (s : AuxSession) : Prop where
  /-- Memory changes only in a transfer of a changing opcode that began with the
  latch set, and only at the addresses it supplied. -/
  changes : ∀ a, s.port.chip.sram a ≠ s.transfer.memory a → s.transfer.enabled = true ∧
    ∃ op args, s.transfer.bytes = op :: args ∧ Changes s.port.chip.type op ∧
      a ∈ reach s.port.chip.type s.port.chip.size op args
  /-- Such a transfer leaves the latch clear. -/
  latch : s.port.hold = false → ∀ op args, s.transfer.bytes = op :: args →
    Changes s.port.chip.type op → s.port.chip.writeEnabled = false
  /-- A read transfer answers with consecutive bytes and changes none. -/
  reads : ∀ op args d, s.transfer.bytes = op :: args →
    commandKind s.port.chip.type op = .read d →
      s.port.chip.sram = s.transfer.memory ∧
        ∀ k, addressBytes s.port.chip.type s.port.chip.size + d + k < args.length →
          s.transfer.answers[addressBytes s.port.chip.type s.port.chip.size + d + k + 1]? =
            some (s.transfer.memory (place s.port.chip.type s.port.chip.size op
              (suppliedAddress s.port.chip.type s.port.chip.size args + UInt32.ofNat k)))

/-- The steps on which the chip keeps the discipline: no byte follows a
write-enable opcode while an earlier write command is still in place, no
write-enabled changing transfer consists of its opcode alone or is cut off by
releasing the chip select, and no transfer runs on for 2^32 bytes. -/
def Proper (s : AuxSession) : AuxOp → Prop
  | .writeCnt val => s.port.hold = true → s.port.releases val → ∀ op args,
      s.transfer.bytes = op :: args → Changes s.port.chip.type op →
        s.port.chip.writeEnabled = false
  | .writeData val _ => s.port.accepts →
      (s.port.hold = true → s.port.pos.toNat + 1 < 2 ^ 32) ∧
        ∀ pos, s.port.chipPos = some pos →
          (pos ≠ 0 → s.transfer.bytes.head? = some 0x06 →
            ¬ Changes s.port.chip.type s.port.chip.cmd) ∧
          (pos = 0 → s.port.isLast = true → Changes s.port.chip.type val →
            s.port.chip.writeEnabled = false)
  | _ => True

/-! ### The chip within a transfer -/

/-- Where the address of a command stands after its bytes so far. -/
def cursor (type : NdsCartridgeSaveType) (size : Nat) (op : UInt8) (args : List UInt8) : UInt32 :=
  suppliedAddress type size args +
    match commandKind type op with
    | .program => UInt32.ofNat (args.length - addressBytes type size)
    | .read d => UInt32.ofNat (args.length - addressBytes type size - d)
    | _ => 0

/-- A transfer whose opcode the chip has taken as its command. -/
structure Serving (t : Transfer) (chip : NdsCartBackup) (hold : Bool) (op : UInt8)
    (args : List UInt8) : Prop where
  sized : chip.size ≠ 0
  cmd : chip.cmd = op
  addr : chip.addr = cursor chip.type chip.size op args
  memory : ∀ a, chip.sram a ≠ t.memory a →
    t.enabled = true ∧ a ∈ reach chip.type chip.size op args
  latch : Changes chip.type op → chip.writeEnabled = (hold && t.enabled)
  answers : ∀ d, commandKind chip.type op = .read d →
    ∀ k, addressBytes chip.type chip.size + d + k < args.length →
      t.answers[addressBytes chip.type chip.size + d + k + 1]? =
        some (t.memory (place chip.type chip.size op
          (suppliedAddress chip.type chip.size args + UInt32.ofNat k)))

/-- A transfer that can neither change nor read the memory. -/
structure Idle (t : Transfer) (chip : NdsCartBackup) (op : UInt8) : Prop where
  memory : chip.sram = t.memory
  quiet : chip.size = 0 ∨ commandKind chip.type chip.cmd = .other ∨ chip.writeEnabled = false ∨
    op = 0x06

/-- The chip as the bytes of the current transfer leave it. -/
def InTransfer (t : Transfer) (chip : NdsCartBackup) (hold : Bool) : Prop :=
  t.answers.length = t.bytes.length ∧
  match t.bytes with
  | [] => chip.sram = t.memory ∧ chip.writeEnabled = t.enabled
  | op :: args =>
      if commandKind chip.type op = .other then Idle t chip op else Serving t chip hold op args

theorem suppliedAddress_append (type : NdsCartridgeSaveType) (size : Nat) (args : List UInt8)
    (val : UInt8) :
    suppliedAddress type size (args ++ [val]) =
      if args.length < addressBytes type size then
        suppliedAddress type size args <<< 8 ||| val.toUInt32
      else suppliedAddress type size args := by
  unfold suppliedAddress
  split
  · next hlt =>
      rw [List.take_of_length_le (by simp; omega), List.take_of_length_le hlt.le,
        List.foldl_append]
      rfl
  · next hge => rw [List.take_append_of_le_length (by omega)]

theorem reach_append {type : NdsCartridgeSaveType} {size : Nat} {op : UInt8} {args : List UInt8}
    (val : UInt8) {a : Nat} (ha : a ∈ reach type size op args) :
    a ∈ reach type size op (args ++ [val]) := by
  have hlength : (args ++ [val]).length = args.length + 1 := by simp
  unfold reach at ha ⊢
  cases hkind : commandKind type op with
  | program =>
      rw [hkind] at ha
      obtain ⟨k, hk, hplace⟩ := ha
      refine ⟨k, by omega, ?_⟩
      rw [suppliedAddress_append, if_neg (by omega)]
      exact hplace
  | erase =>
      rw [hkind] at ha
      obtain ⟨hheader, i, hi, hplace⟩ := ha
      refine ⟨by omega, i, hi, ?_⟩
      rw [suppliedAddress_append, if_neg (by omega)]
      exact hplace
  | read d =>
      rw [hkind] at ha
      cases ha
  | other =>
      rw [hkind] at ha
      cases ha

/-- The address register while the address bytes arrive. -/
theorem cursor_header {type : NdsCartridgeSaveType} {size : Nat} (op : UInt8) {args : List UInt8}
    (hlt : args.length ≤ addressBytes type size) :
    cursor type size op args = suppliedAddress type size args := by
  have hzero : args.length - addressBytes type size = 0 := by omega
  unfold cursor
  rw [hzero]
  cases commandKind type op with
  | program => exact UInt32.add_zero _
  | erase => exact UInt32.add_zero _
  | read d =>
      dsimp only
      rw [Nat.zero_sub]
      exact UInt32.add_zero _
  | other => exact UInt32.add_zero _

theorem cursor_nil (type : NdsCartridgeSaveType) (size : Nat) (op : UInt8) :
    cursor type size op [] = 0 := by
  rw [cursor_header op (by exact Nat.zero_le _)]
  unfold suppliedAddress
  rw [List.take_nil]
  rfl

theorem ofNat_succ (n : Nat) : UInt32.ofNat (n + 1) = UInt32.ofNat n + 1 := by
  rw [UInt32.ofNat_add]
  rfl

theorem commandKind_control (type : NdsCartridgeSaveType) :
    commandKind type 0x04 = .other ∧ commandKind type 0x06 = .other := by
  cases type <;> decide

theorem not_changes_other {type : NdsCartridgeSaveType} {op : UInt8}
    (h : commandKind type op = .other) : ¬ Changes type op := by
  unfold Changes
  rw [h]
  decide

theorem sized_of_kind {type : NdsCartridgeSaveType} {size : Nat} (hsize : type = .none ∨ size ≠ 0)
    {op : UInt8} (hkind : commandKind type op ≠ .other) : size ≠ 0 := by
  rcases hsize with rfl | hsize
  · exact absurd rfl hkind
  · exact hsize

/-! ### The first byte -/

theorem InTransfer.first {t : Transfer} {chip : NdsCartBackup} {hold : Bool}
    (h : InTransfer t chip hold) (hempty : t.bytes = [])
    (hsize : chip.type = .none ∨ chip.size ≠ 0) (val : UInt8) (last : Bool)
    (hproper : last = true → Changes chip.type val → chip.writeEnabled = false) :
    InTransfer (t.feed val (chip.spiWrite val 0 last).2) (chip.spiWrite val 0 last).1 (!last) := by
  obtain ⟨hlength, hphase⟩ := h
  rw [hempty] at hphase hlength
  obtain ⟨hmemory, hlatch⟩ := hphase
  have hbytes (answer : UInt8) : (t.feed val answer).bytes = [val] := by
    unfold Transfer.feed
    rw [hempty]
    rfl
  refine ⟨?_, ?_⟩
  · rw [hbytes]
    unfold Transfer.feed
    rw [List.length_append, hlength]
    rfl
  rw [hbytes]
  dsimp only
  by_cases hnone : chip.size = 0
  · have hsame : chip.spiWrite val 0 last = (chip, 0) := if_pos hnone
    have hother : commandKind chip.type val = .other := by
      by_contra hkind
      exact sized_of_kind hsize hkind hnone
    rw [hsame, if_pos hother]
    exact ⟨hmemory, Or.inl hnone⟩
  have hfirst : chip.spiWrite val 0 last = chip.firstByte val := by
    unfold NdsCartBackup.spiWrite
    rw [if_neg hnone, if_pos rfl]
  rw [hfirst]
  obtain ⟨hdisable, henable⟩ := commandKind_control chip.type
  unfold NdsCartBackup.firstByte
  by_cases hwrdi : val = 0x04
  · subst hwrdi
    rw [if_pos rfl, if_pos hdisable]
    refine ⟨hmemory, Or.inr (Or.inr (Or.inl ?_))⟩
    unfold NdsCartBackup.writeEnabled
    simp [NdsCartBackup.and_not_two]
  by_cases hwren : val = 0x06
  · subst hwren
    rw [if_neg hwrdi, if_pos rfl, if_pos henable]
    exact ⟨hmemory, Or.inr (Or.inr (Or.inr rfl))⟩
  rw [if_neg hwrdi, if_neg hwren]
  dsimp only
  by_cases hother : commandKind chip.type val = .other
  · rw [if_pos hother]
    exact ⟨hmemory, Or.inr (Or.inl hother)⟩
  · rw [if_neg hother]
    refine ⟨hnone, rfl, ?_, ?_, ?_, ?_⟩
    · change 0 = cursor chip.type chip.size val []
      rw [cursor_nil]
    · intro a ha
      exact absurd (congrFun hmemory a) ha
    · intro hchanges
      change chip.writeEnabled = (!last && t.enabled)
      cases last with
      | false => rw [hlatch]; rfl
      | true => exact hproper rfl hchanges
    · intro d _ k hk
      exact absurd hk (Nat.not_lt_zero _)

/-! ### The later bytes -/

theorem Idle.next {t : Transfer} {chip : NdsCartBackup} {op : UInt8} (h : Idle t chip op)
    (val answer : UInt8) {pos : UInt32} (last : Bool) (hpos : pos ≠ 0)
    (hproper : op = 0x06 → ¬ Changes chip.type chip.cmd) :
    Idle (t.feed val answer) (chip.spiWrite val pos last).1 op := by
  obtain ⟨hmemory, hquiet⟩ := h
  obtain ⟨htype, hsize, hcmd, hoff⟩ := NdsCartBackup.spiWrite_frame chip val last hpos
  rcases hquiet with hnone | hother | hdisabled | rfl
  · have hsame : chip.spiWrite val pos last = (chip, 0) := if_pos hnone
    rw [hsame]
    exact ⟨hmemory, Or.inl hnone⟩
  · refine ⟨(NdsCartBackup.spiWrite_other chip val last hother hpos).1.trans hmemory, ?_⟩
    rw [htype, hcmd]
    exact Or.inr (Or.inl hother)
  · obtain ⟨hstill, hsram⟩ := hoff hdisabled
    exact ⟨hsram.trans hmemory, Or.inr (Or.inr (Or.inl hstill))⟩
  · exact ⟨(NdsCartBackup.spiWrite_sram chip val last (hproper rfl) hpos).trans hmemory,
      Or.inr (Or.inr (Or.inr rfl))⟩

section Serving

variable {t : Transfer} {chip : NdsCartBackup} {op : UInt8} {args : List UInt8}

/-- The address register at the first address byte. -/
theorem Serving.fresh (h : Serving t chip true op args) {pos : UInt32}
    (hlength : pos.toNat = args.length + 1) (hfirst : pos = 1) : chip.addr = 0 := by
  have hempty : args = [] := by
    apply List.eq_nil_of_length_eq_zero
    have hone := congrArg UInt32.toNat hfirst
    rw [hlength] at hone
    change args.length + 1 = 1 at hone
    omega
  rw [h.addr, hempty, cursor_nil]

/-- One more address byte. -/
theorem cursor_append_header {type : NdsCartridgeSaveType} {size : Nat} (op : UInt8)
    {args : List UInt8} (val : UInt8) (hlt : args.length < addressBytes type size) :
    cursor type size op (args ++ [val]) = cursor type size op args <<< 8 ||| val.toUInt32 := by
  rw [cursor_header op (by simp; omega), cursor_header op hlt.le, suppliedAddress_append,
    if_pos hlt]

/-- A changing command's byte ends in `finishWrite` of a chip that keeps the latch. -/
theorem Serving.finishes (h : Serving t chip true op args) (hchanges : Changes chip.type op)
    {val : UInt8} (answer : UInt8) {pos : UInt32} {last : Bool} (hpos : pos ≠ 0) {r : NdsCartBackup}
    (hr : (chip.spiWrite val pos last).1 = r.finishWrite last)
    (haddr : r.addr = cursor chip.type chip.size op (args ++ [val]))
    (hstatus : r.status = chip.status)
    (hmemory : ∀ a, r.sram a ≠ chip.sram a →
      chip.writeEnabled = true ∧ a ∈ reach chip.type chip.size op (args ++ [val])) :
    Serving (t.feed val answer) (chip.spiWrite val pos last).1 (!last) op (args ++ [val]) := by
  have hlatch : chip.writeEnabled = t.enabled := h.latch hchanges
  obtain ⟨htype, hsize, hcmd, -⟩ := NdsCartBackup.spiWrite_frame chip val last hpos
  obtain ⟨-, -, -, haddr', hsram⟩ := r.finishWrite_fields last
  have henabled := r.finishWrite_enabled last
  rw [← hr] at haddr' hsram henabled
  refine ⟨?_, hcmd.trans h.cmd, ?_, ?_, ?_, ?_⟩
  · rw [hsize]
    exact h.sized
  · rw [haddr', htype, hsize]
    exact haddr
  · intro a ha
    rw [hsram] at ha
    rw [htype, hsize]
    by_cases hold : chip.sram a = t.memory a
    · obtain ⟨hon, hreach⟩ := hmemory a (by rw [hold]; exact ha)
      exact ⟨hlatch ▸ hon, hreach⟩
    · obtain ⟨hon, hreach⟩ := h.memory a hold
      exact ⟨hon, reach_append val hreach⟩
  · intro _
    have hstill : r.writeEnabled = t.enabled := by
      rw [← hlatch]
      unfold NdsCartBackup.writeEnabled
      rw [hstatus]
    rw [henabled, hstill]
    rfl
  · intro d hd
    rw [htype] at hd
    rcases hchanges with hkind | hkind <;> rw [hkind] at hd <;> cases hd

theorem Serving.next_program (h : Serving t chip true op args)
    (hkind : commandKind chip.type op = .program) (val answer : UInt8) {pos : UInt32} (last : Bool)
    (hpos : pos ≠ 0) (hlength : pos.toNat = args.length + 1) :
    Serving (t.feed val answer) (chip.spiWrite val pos last).1 (!last) op (args ++ [val]) := by
  have hcommand : commandKind chip.type chip.cmd = .program := by rw [h.cmd]; exact hkind
  obtain ⟨stored, hstep⟩ : ∃ stored, (chip.spiWrite val pos last).1 = _ :=
    NdsCartBackup.spiWrite_program hcommand h.sized hpos (h.fresh hlength)
  by_cases hheader : args.length < addressBytes chip.type chip.size
  · -- An address byte.
    rw [if_pos (by omega)] at hstep
    refine h.finishes (.inl hkind) answer hpos hstep ?_ rfl fun a ha => absurd rfl ha
    rw [cursor_append_header op val hheader, ← h.addr]
    rfl
  · -- A data byte.
    rw [if_neg (by omega)] at hstep
    obtain ⟨-, -, -, hputAddr, hputStatus⟩ := NdsCartBackup.putIfEnabled_control chip stored
      (place chip.type chip.size chip.cmd chip.addr)
    refine h.finishes (.inl hkind) answer hpos hstep ?_ hputStatus fun a ha => ?_
    · have hcount : (args ++ [val]).length - addressBytes chip.type chip.size =
          args.length - addressBytes chip.type chip.size + 1 := by
        rw [List.length_append]
        change args.length + 1 - _ = _
        omega
      change (chip.putIfEnabled _ stored).addr + 1 = _
      rw [hputAddr, h.addr]
      unfold cursor
      rw [hkind, suppliedAddress_append, if_neg hheader, hcount, ofNat_succ, UInt32.add_assoc]
    · obtain ⟨hon, hplace⟩ := NdsCartBackup.putIfEnabled_changed chip stored ha
      refine ⟨hon, ?_⟩
      unfold reach
      rw [hkind]
      refine ⟨args.length - addressBytes chip.type chip.size, ?_, ?_⟩
      · rw [List.length_append]
        change _ < args.length + 1
        omega
      · rw [hplace, h.cmd, h.addr, suppliedAddress_append, if_neg hheader]
        unfold cursor
        rw [hkind]

theorem Serving.next_erase (h : Serving t chip true op args)
    (hkind : commandKind chip.type op = .erase) (val answer : UInt8) {pos : UInt32} (last : Bool)
    (hpos : pos ≠ 0) (hlength : pos.toNat = args.length + 1) :
    Serving (t.feed val answer) (chip.spiWrite val pos last).1 (!last) op (args ++ [val]) := by
  have hcommand : commandKind chip.type chip.cmd = .erase := by rw [h.cmd]; exact hkind
  obtain ⟨hflash, hstep⟩ : _ ∧ (chip.spiWrite val pos last).1 = _ :=
    NdsCartBackup.spiWrite_erase hcommand h.sized hpos
  have hthree : addressBytes chip.type chip.size = 3 := by rw [hflash]; rfl
  have hcursor (hlt : args.length < 3) :
      (chip.shiftAddr val).addr = cursor chip.type chip.size op (args ++ [val]) := by
    rw [cursor_append_header op val (by rw [hthree]; exact hlt), ← h.addr]
    rfl
  by_cases hbefore : pos.toNat < 3
  · rw [if_pos hbefore] at hstep
    exact h.finishes (.inr hkind) answer hpos hstep (hcursor (by omega)) rfl
      fun a ha => absurd rfl ha
  by_cases hhere : pos.toNat = 3
  · rw [if_neg hbefore, if_pos hhere] at hstep
    by_cases henabled : chip.writeEnabled = true
    · rw [if_pos henabled] at hstep
      obtain ⟨hcontrol, hchanged⟩ :=
        (chip.shiftAddr val).erase_spec (NdsCartBackup.eraseLength chip.cmd)
      refine h.finishes (.inr hkind) answer hpos hstep
        (hcontrol.2.2.2.1.trans (hcursor (by omega))) hcontrol.2.2.2.2 fun a ha => ?_
      obtain ⟨i, hi, hplace⟩ := hchanged a ha
      refine ⟨henabled, ?_⟩
      unfold reach
      rw [hkind]
      refine ⟨?_, i, h.cmd ▸ hi, ?_⟩
      · rw [List.length_append, hthree]
        change 3 ≤ args.length + 1
        omega
      · rw [hplace, hcursor (by omega)]
        unfold cursor place
        rw [hkind, hflash]
        exact congrArg (fun addr : UInt32 => ((addr + UInt32.ofNat i) &&& chip.mask).toNat)
          (UInt32.add_zero _)
    · rw [if_neg henabled] at hstep
      exact h.finishes (.inr hkind) answer hpos hstep (hcursor (by omega)) rfl
        fun a ha => absurd rfl ha
  · rw [if_neg hbefore, if_neg hhere] at hstep
    refine h.finishes (.inr hkind) answer hpos hstep ?_ rfl fun a ha => absurd rfl ha
    rw [h.addr]
    unfold cursor
    rw [hkind, suppliedAddress_append, if_neg (by omega)]

theorem Serving.next_read {d : Nat} (h : Serving t chip true op args)
    (hanswers : t.answers.length = args.length + 1)
    (hkind : commandKind chip.type op = .read d) (val : UInt8) {pos : UInt32} (last : Bool)
    (hpos : pos ≠ 0) (hlength : pos.toNat = args.length + 1) :
    Serving (t.feed val (chip.spiWrite val pos last).2) (chip.spiWrite val pos last).1 (!last) op
      (args ++ [val]) := by
  have hcommand : commandKind chip.type chip.cmd = .read d := by rw [h.cmd]; exact hkind
  have hkeeps : ¬ Changes chip.type op := by
    unfold Changes
    rw [hkind]
    exact fun hor => hor.elim (fun heq => by cases heq) fun heq => by cases heq
  obtain ⟨htype, hsize, hcmd, -⟩ := NdsCartBackup.spiWrite_frame chip val last hpos
  have hsram : (chip.spiWrite val pos last).1.sram = chip.sram :=
    NdsCartBackup.spiWrite_sram chip val last (by rw [h.cmd]; exact hkeeps) hpos
  have hsame : chip.sram = t.memory := by
    funext a
    by_contra ha
    have hreach := (h.memory a ha).2
    unfold reach at hreach
    rw [hkind] at hreach
    exact hreach
  have hstep : chip.spiWrite val pos last = _ :=
    NdsCartBackup.spiWrite_read hcommand h.sized hpos fun _ => h.fresh hlength
  refine ⟨?_, hcmd.trans h.cmd, ?_, ?_, ?_, ?_⟩
  · rw [hsize]
    exact h.sized
  · rw [htype, hsize, hstep]
    by_cases hheader : args.length < addressBytes chip.type chip.size
    · rw [if_pos (by omega), cursor_append_header op val hheader, ← h.addr]
      rfl
    · rw [if_neg (by omega)]
      have hsupplied : suppliedAddress chip.type chip.size (args ++ [val]) =
          suppliedAddress chip.type chip.size args := by
        rw [suppliedAddress_append, if_neg hheader]
      have haddr := h.addr
      unfold cursor at haddr ⊢
      rw [hkind] at haddr ⊢
      rw [hsupplied, List.length_append]
      dsimp only [List.length_singleton] at haddr ⊢
      by_cases hdummy : args.length < addressBytes chip.type chip.size + d
      · have hbefore : args.length - addressBytes chip.type chip.size - d = 0 := by omega
        have hafter : args.length + 1 - addressBytes chip.type chip.size - d = 0 := by omega
        rw [if_pos (by omega), hafter, ← hbefore]
        exact haddr
      · have hcount : args.length + 1 - addressBytes chip.type chip.size - d =
            args.length - addressBytes chip.type chip.size - d + 1 := by omega
        rw [if_neg (by omega), hcount, ofNat_succ, ← UInt32.add_assoc, ← haddr]
        rfl
  · intro a ha
    rw [hsram, hsame] at ha
    exact absurd rfl ha
  · intro hchanges
    rw [htype] at hchanges
    exact absurd hchanges hkeeps
  · intro d' hd k hk
    rw [htype] at hd ⊢
    rw [htype, hsize] at hk
    rw [hsize]
    obtain rfl : d = d' := CommandKind.read.inj (hkind.symm.trans hd)
    rw [List.length_append] at hk
    change _ < args.length + 1 at hk
    have hsupplied : suppliedAddress chip.type chip.size (args ++ [val]) =
        suppliedAddress chip.type chip.size args := by
      rw [suppliedAddress_append, if_neg (by omega)]
    rw [hsupplied]
    unfold Transfer.feed
    dsimp only
    by_cases hlast : addressBytes chip.type chip.size + d + k = args.length
    · rw [List.getElem?_append_right (by omega), hanswers, hlast, Nat.sub_self, hstep,
        if_neg (by omega), if_neg (by omega)]
      have haddr : chip.addr = suppliedAddress chip.type chip.size args + UInt32.ofNat k := by
        have hcursor := h.addr
        unfold cursor at hcursor
        rw [hkind] at hcursor
        have hcount : args.length - addressBytes chip.type chip.size - d = k := by omega
        rw [hcursor]
        dsimp only
        rw [hcount]
      rw [← haddr, ← hsame, h.cmd]
      rfl
    · rw [List.getElem?_append_left (by omega)]
      exact h.answers d hkind k (by omega)

end Serving

theorem InTransfer.next {t : Transfer} {chip : NdsCartBackup} {op : UInt8} {args : List UInt8}
    (h : InTransfer t chip true) (hbytes : t.bytes = op :: args) (val : UInt8) {pos : UInt32}
    (last : Bool) (hpos : pos ≠ 0) (hlength : pos.toNat = args.length + 1)
    (hproper : op = 0x06 → ¬ Changes chip.type chip.cmd) :
    InTransfer (t.feed val (chip.spiWrite val pos last).2) (chip.spiWrite val pos last).1
      (!last) := by
  obtain ⟨hanswers, hphase⟩ := h
  rw [hbytes] at hphase hanswers
  obtain ⟨htype, -⟩ := NdsCartBackup.spiWrite_frame chip val last hpos
  have hfed (answer : UInt8) : (t.feed val answer).bytes = op :: (args ++ [val]) := by
    unfold Transfer.feed
    rw [hbytes]
    rfl
  refine ⟨?_, ?_⟩
  · rw [hfed]
    unfold Transfer.feed
    rw [List.length_append, hanswers]
    simp
  rw [hfed]
  dsimp only at hphase ⊢
  rw [htype]
  cases hkind : commandKind chip.type op with
  | other =>
      rw [if_pos hkind] at hphase
      rw [if_pos rfl]
      exact hphase.next val _ last hpos hproper
  | program =>
      rw [if_neg (by rw [hkind]; decide)] at hphase
      rw [if_neg (by decide)]
      exact hphase.next_program hkind val _ last hpos hlength
  | erase =>
      rw [if_neg (by rw [hkind]; decide)] at hphase
      rw [if_neg (by decide)]
      exact hphase.next_erase hkind val _ last hpos hlength
  | read d =>
      rw [if_neg (by rw [hkind]; simp)] at hphase
      rw [if_neg (by simp)]
      exact hphase.next_read hanswers hkind val last hpos hlength

/-- Releasing the chip select. -/
theorem InTransfer.release {t : Transfer} {chip : NdsCartBackup} (h : InTransfer t chip true)
    (hoff : ∀ op args, t.bytes = op :: args → Changes chip.type op → chip.writeEnabled = false) :
    InTransfer t chip false := by
  obtain ⟨hanswers, hphase⟩ := h
  refine ⟨hanswers, ?_⟩
  cases hbytes : t.bytes with
  | nil =>
      rw [hbytes] at hphase
      exact hphase
  | cons op args =>
      rw [hbytes] at hphase
      dsimp only at hphase ⊢
      by_cases hother : commandKind chip.type op = .other
      · rw [if_pos hother] at hphase ⊢
        exact hphase
      · rw [if_neg hother] at hphase ⊢
        obtain ⟨hsized, hcmd, haddr, hmemory, -, hread⟩ := hphase
        exact ⟨hsized, hcmd, haddr, hmemory, fun hchanges => hoff op args hbytes hchanges, hread⟩

/-- The dirty flag plays no part. -/
theorem InTransfer.flush {t : Transfer} {chip : NdsCartBackup} {hold : Bool}
    (h : InTransfer t chip hold) : InTransfer t { chip with dirty := false } hold := by
  obtain ⟨hanswers, hphase⟩ := h
  refine ⟨hanswers, ?_⟩
  cases hbytes : t.bytes with
  | nil =>
      rw [hbytes] at hphase
      exact hphase
  | cons op args =>
      rw [hbytes] at hphase
      dsimp only at hphase ⊢
      by_cases hother : commandKind chip.type op = .other
      · rw [if_pos hother] at hphase ⊢
        exact ⟨hphase.memory, hphase.quiet⟩
      · rw [if_neg hother] at hphase ⊢
        exact ⟨hphase.sized, hphase.cmd, hphase.addr, hphase.memory, hphase.latch, hphase.answers⟩

theorem inTransfer_start (chip : NdsCartBackup) (hold : Bool) :
    InTransfer (.start chip) chip hold :=
  ⟨rfl, rfl, rfl⟩

theorem InTransfer.disciplined {s : AuxSession}
    (h : InTransfer s.transfer s.port.chip s.port.hold) : Disciplined s := by
  obtain ⟨-, hphase⟩ := h
  refine ⟨?_, ?_, ?_⟩
  · intro a ha
    cases hbytes : s.transfer.bytes with
    | nil =>
        rw [hbytes] at hphase
        exact absurd (congrFun hphase.1 a) ha
    | cons op args =>
        rw [hbytes] at hphase
        dsimp only at hphase
        by_cases hother : commandKind s.port.chip.type op = .other
        · rw [if_pos hother] at hphase
          exact absurd (congrFun hphase.memory a) ha
        · rw [if_neg hother] at hphase
          obtain ⟨hon, hreach⟩ := hphase.memory a ha
          refine ⟨hon, op, args, rfl, ?_, hreach⟩
          unfold reach at hreach
          cases hkind : commandKind s.port.chip.type op with
          | program => exact Or.inl hkind
          | erase => exact Or.inr hkind
          | read d =>
              rw [hkind] at hreach
              cases hreach
          | other => exact absurd hkind hother
  · intro hhold op args hbytes hchanges
    rw [hbytes] at hphase
    dsimp only at hphase
    rw [if_neg fun hother => not_changes_other hother hchanges] at hphase
    rw [hphase.latch hchanges, hhold]
    rfl
  · intro op args d hbytes hkind
    rw [hbytes] at hphase
    dsimp only at hphase
    rw [if_neg (by rw [hkind]; simp)] at hphase
    refine ⟨?_, hphase.answers d hkind⟩
    funext a
    by_contra ha
    have hreach := (hphase.memory a ha).2
    unfold reach at hreach
    rw [hkind] at hreach
    exact hreach

/-! ### The port -/

/-- How many bytes the chip has had, by the position of the port. -/
def Positioned (s : AuxSession) : Prop :=
  s.port.hold = true →
    if s.port.hasIr = false then s.transfer.bytes.length = s.port.pos.toNat + 1
    else if s.port.irCmd = 0x00 then s.transfer.bytes.length = s.port.pos.toNat
    else s.transfer.bytes = []

structure InSession (s : AuxSession) : Prop where
  configured : s.port.chip.type = .none ∨ s.port.chip.size ≠ 0
  positioned : Positioned s
  inTransfer : InTransfer s.transfer s.port.chip s.port.hold

theorem clockByte_eq (s : AuxSpi) :
    s.clockByte = (!s.isLast, if s.hold then s.pos + 1 else 0) := by
  unfold AuxSpi.clockByte
  cases s.isLast with
  | true => rfl
  | false =>
      cases s.hold with
      | true => rfl
      | false => rfl

/-- A byte that reaches the chip. -/
theorem writeData_chip {s : AuxSpi} (haccepts : s.accepts) {pos : UInt32}
    (hpos : s.chipPos = some pos) (val : UInt8) (now : UInt64) :
    (s.writeData val now).chip = (s.chip.spiWrite val pos s.isLast).1 ∧
      (s.writeData val now).data = (s.chip.spiWrite val pos s.isLast).2 := by
  unfold AuxSpi.chipPos at hpos
  unfold AuxSpi.writeData
  rw [if_pos haccepts]
  dsimp only at hpos ⊢
  unfold AuxSpi.cartSpiWrite
  dsimp only
  split at hpos
  · next hir =>
      obtain rfl := Option.some.inj hpos
      rw [if_pos hir]
      exact ⟨rfl, rfl⟩
  · next hir =>
      rw [if_neg hir]
      split at hpos
      · cases hpos
      · next hne =>
          rw [if_neg hne]
          split at hpos
          · next hpass =>
              obtain rfl := Option.some.inj hpos
              rw [if_pos hpass]
              exact ⟨rfl, rfl⟩
          · cases hpos

/-- A byte that does not. -/
theorem writeData_no_chip {s : AuxSpi} (haccepts : s.accepts) (hpos : s.chipPos = none)
    (val : UInt8) (now : UInt64) : (s.writeData val now).chip = s.chip := by
  unfold AuxSpi.chipPos at hpos
  unfold AuxSpi.writeData
  rw [if_pos haccepts]
  dsimp only at hpos ⊢
  unfold AuxSpi.cartSpiWrite
  dsimp only
  split at hpos
  · cases hpos
  · next hir =>
      rw [if_neg hir]
      split at hpos
      · next hzero =>
          rw [if_pos hzero]
      · next hne =>
          rw [if_neg hne]
          split at hpos
          · cases hpos
          · next hother =>
              rw [if_neg hother]
              split <;> rfl

/-- The position of a byte written now. -/
def nextPos (s : AuxSpi) : UInt32 := if s.hold then s.pos + 1 else 0

/-- Without infrared every byte is the chip's; with it the first byte of a transfer
is the infrared command, and command zero passes the other ones on. -/
theorem chipPos_cases (s : AuxSpi) :
    (s.hasIr = false ∧ s.chipPos = some (nextPos s)) ∨
      s.hasIr = true ∧ (nextPos s = 0 ∧ s.chipPos = none ∨
        nextPos s ≠ 0 ∧ (s.irCmd = 0x00 ∧ s.chipPos = some (nextPos s - 1) ∨
          s.irCmd ≠ 0x00 ∧ s.chipPos = none)) := by
  have heq : s.chipPos = if s.hasIr = false then some (nextPos s) else if nextPos s = 0 then none
      else if s.irCmd = 0x00 then some (nextPos s - 1) else none := by
    unfold AuxSpi.chipPos
    rw [clockByte_eq]
    rfl
  rw [heq]
  cases hir : s.hasIr with
  | false => exact .inl ⟨rfl, rfl⟩
  | true =>
      refine .inr ⟨rfl, ?_⟩
      rw [if_neg (by decide)]
      by_cases hzero : nextPos s = 0
      · exact .inl ⟨hzero, if_pos hzero⟩
      · rw [if_neg hzero]
        by_cases hpass : s.irCmd = 0x00
        · exact .inr ⟨hzero, .inl ⟨hpass, if_pos hpass⟩⟩
        · exact .inr ⟨hzero, .inr ⟨hpass, if_neg hpass⟩⟩

/-- The count of the chip's bytes that goes with the position of the port. -/
theorem fed_positioned {s : AuxSpi} {bytes : List UInt8} (val : UInt8)
    (hfed : ∀ pos, s.chipPos = some pos → bytes.length = pos.toNat + 1)
    (hunfed : s.chipPos = none → bytes = []) :
    if s.hasIr = false then bytes.length = (nextPos s).toNat + 1
    else if (if s.hasIr = true ∧ nextPos s = 0 then val else s.irCmd) = 0x00 then
      bytes.length = (nextPos s).toNat
    else bytes = [] := by
  rcases chipPos_cases s with ⟨hir, hpos⟩ | ⟨hir, ⟨hzero, hnone⟩ |
    ⟨hne, ⟨hpass, hpos⟩ | ⟨hother, hnone⟩⟩⟩
  · rw [if_pos hir]
    exact hfed _ hpos
  · have hempty := hunfed hnone
    rw [if_neg (by rw [hir]; decide), hempty, hzero]
    split_ifs <;> rfl
  · have hkept : (if s.hasIr = true ∧ nextPos s = 0 then val else s.irCmd) = s.irCmd :=
      if_neg fun hand => hne hand.2
    have hpositive : (nextPos s).toNat ≠ 0 := fun hzero => hne (UInt32.toNat_inj.mp hzero)
    have hone : (1 : UInt32) ≤ nextPos s :=
      UInt32.le_iff_toNat_le.mpr (Nat.one_le_iff_ne_zero.mpr hpositive)
    rw [if_neg (by rw [hir]; decide), hkept, if_pos hpass, hfed _ hpos,
      UInt32.toNat_sub_of_le _ _ hone]
    exact Nat.succ_pred_eq_of_ne_zero hpositive
  · have hkept : (if s.hasIr = true ∧ nextPos s = 0 then val else s.irCmd) = s.irCmd :=
      if_neg fun hand => hne hand.2
    rw [if_neg (by rw [hir]; decide), hkept, if_neg hother]
    exact hunfed hnone

theorem writeData_port {s : AuxSpi} (haccepts : s.accepts) (val : UInt8) (now : UInt64) :
    (s.writeData val now).hold = !s.isLast ∧ (s.writeData val now).pos = nextPos s ∧
      (s.writeData val now).hasIr = s.hasIr ∧
      (s.writeData val now).irCmd =
        if s.hasIr = true ∧ nextPos s = 0 then val else s.irCmd := by
  unfold AuxSpi.writeData AuxSpi.cartSpiWrite AuxSpi.cartSramSpiWrite
  rw [if_pos haccepts, clockByte_eq]
  change _ ∧ _ ∧ _ ∧ _ = if s.hasIr = true ∧ (if s.hold then s.pos + 1 else 0) = 0 then _ else _
  dsimp only
  unfold nextPos
  generalize (if s.hold then s.pos + 1 else 0) = pos
  split_ifs with hir hzero hpass hother hboth
  all_goals first
    | exact ⟨rfl, rfl, rfl, rfl⟩
    | simp_all

/-- The session after an accepted byte, by whether the chip gets it. -/
theorem session_writeData {s : AuxSession} (haccepts : s.port.accepts) (val : UInt8) (now : UInt64) :
    s.writeData val now =
      { port := s.port.writeData val now
        transfer :=
          match s.port.chipPos with
          | some _ => (if s.port.hold then s.transfer else .start s.port.chip).feed val
              (s.port.writeData val now).data
          | none => if s.port.hold then s.transfer else .start s.port.chip } := by
  unfold AuxSession.writeData
  rw [if_pos haccepts]
  dsimp only
  cases s.port.chipPos with
  | some pos => rfl
  | none => rfl

/-- Before the byte: the transfer it belongs to, and its position in it. -/
theorem InSession.current {s : AuxSession} (h : InSession s)
    (hwrap : s.port.hold = true → s.port.pos.toNat + 1 < 2 ^ 32) :
    InTransfer (if s.port.hold then s.transfer else .start s.port.chip) s.port.chip true ∧
      (∀ pos, s.port.chipPos = some pos →
        pos.toNat = (if s.port.hold then s.transfer else .start s.port.chip).bytes.length) ∧
      (s.port.chipPos = none →
        (if s.port.hold then s.transfer else .start s.port.chip).bytes = []) := by
  have hphase := h.inTransfer
  have hpositioned := h.positioned
  unfold Positioned at hpositioned
  unfold AuxSpi.chipPos
  rw [clockByte_eq]
  dsimp only
  cases hhold : s.port.hold with
  | false =>
      simp only [Bool.false_eq_true, if_false, if_true]
      refine ⟨inTransfer_start _ _, ?_, fun _ => rfl⟩
      intro pos hpos
      split at hpos
      · obtain rfl := Option.some.inj hpos
        rfl
      · cases hpos
  | true =>
      rw [hhold] at hphase
      have hplace := hpositioned hhold
      have hnext : (s.port.pos + 1).toNat = s.port.pos.toNat + 1 := by
        rw [UInt32.toNat_add]
        exact Nat.mod_eq_of_lt (hwrap hhold)
      have hne : s.port.pos + 1 ≠ 0 := fun hzero => by
        rw [hzero] at hnext
        cases hnext
      simp only [if_true]
      refine ⟨hphase, ?_, ?_⟩
      · intro pos hpos
        by_cases hir : s.port.hasIr = false
        · rw [if_pos hir] at hpos hplace
          rw [← Option.some.inj hpos, hnext, hplace]
        · rw [if_neg hir, if_neg hne] at hpos
          rw [if_neg hir] at hplace
          by_cases hpass : s.port.irCmd = 0x00
          · rw [if_pos hpass] at hpos hplace
            rw [← Option.some.inj hpos, UInt32.add_sub_cancel, hplace]
          · rw [if_neg hpass] at hpos
            cases hpos
      · intro hnone
        by_cases hir : s.port.hasIr = false
        · rw [if_pos hir] at hnone
          cases hnone
        · rw [if_neg hir, if_neg hne] at hnone
          rw [if_neg hir] at hplace
          by_cases hpass : s.port.irCmd = 0x00
          · rw [if_pos hpass] at hnone
            cases hnone
          · rw [if_neg hpass] at hplace
            exact hplace

theorem spiWrite_first_config (chip : NdsCartBackup) (val : UInt8) (last : Bool) :
    (chip.spiWrite val 0 last).1.type = chip.type ∧ (chip.spiWrite val 0 last).1.size = chip.size := by
  unfold NdsCartBackup.spiWrite
  split
  · exact ⟨rfl, rfl⟩
  · rw [if_pos rfl]
    unfold NdsCartBackup.firstByte
    split_ifs <;> exact ⟨rfl, rfl⟩

theorem InSession.writeData {s : AuxSession} (h : InSession s) (val : UInt8) (now : UInt64)
    (hproper : Proper s (.writeData val now)) : InSession (s.writeData val now) := by
  by_cases haccepts : s.port.accepts
  swap
  · unfold AuxSession.writeData
    rw [if_neg haccepts]
    exact h
  obtain ⟨hwrap, hbyte⟩ := hproper haccepts
  obtain ⟨hphase, hfed, hunfed⟩ := h.current hwrap
  obtain ⟨hhold, hpos, hir, hcmd⟩ := writeData_port haccepts val now
  rw [session_writeData haccepts]
  generalize htransfer : (if s.port.hold then s.transfer else .start s.port.chip) = transfer
    at hphase hfed hunfed
  cases hchip : s.port.chipPos with
  | none =>
      have hsame := writeData_no_chip haccepts hchip val now
      have hempty := hunfed hchip
      obtain ⟨hanswers, hmemory⟩ := hphase
      rw [hempty] at hmemory
      refine ⟨?_, fun _ => ?_, ?_⟩
      · dsimp only
        rw [hsame]
        exact h.configured
      · dsimp only
        rw [hir, hcmd, hpos]
        exact fed_positioned val (fun pos hsome => by rw [hchip] at hsome; cases hsome) hunfed
      · dsimp only
        rw [hsame]
        refine ⟨hanswers, ?_⟩
        rw [hempty]
        exact hmemory
  | some pos =>
      have hlength := hfed pos hchip
      obtain ⟨hstep, hdata⟩ := writeData_chip haccepts hchip val now
      obtain ⟨hstale, hshort⟩ := hbyte pos hchip
      refine ⟨?_, fun _ => ?_, ?_⟩
      · dsimp only
        rw [hstep]
        by_cases hzero : pos = 0
        · have hfirst : (s.port.chip.spiWrite val pos s.port.isLast).1.type = s.port.chip.type ∧
              (s.port.chip.spiWrite val pos s.port.isLast).1.size = s.port.chip.size := by
            rw [hzero]
            exact spiWrite_first_config s.port.chip val s.port.isLast
          rw [hfirst.1, hfirst.2]
          exact h.configured
        · obtain ⟨htype, hsize, -⟩ :=
            NdsCartBackup.spiWrite_frame s.port.chip val s.port.isLast hzero
          rw [htype, hsize]
          exact h.configured
      · dsimp only
        rw [hir, hcmd, hpos]
        refine fed_positioned val (fun pos' hsome => ?_) fun hnone => ?_
        · rw [hchip] at hsome
          obtain rfl := Option.some.inj hsome
          unfold Transfer.feed
          rw [List.length_append, hlength]
          rfl
        · rw [hchip] at hnone
          cases hnone
      · dsimp only
        rw [hstep, hdata, hhold]
        cases hbytes : transfer.bytes with
        | nil =>
            have hzero : pos = 0 := by
              rw [hbytes] at hlength
              exact UInt32.toNat_inj.mp hlength
            subst hzero
            exact hphase.first hbytes h.configured val _ (hshort rfl)
        | cons op args =>
            have hcount : pos.toNat = args.length + 1 := by
              rw [hlength, hbytes]
              rfl
            have hne : pos ≠ 0 := fun hzero => by
              rw [hzero] at hcount
              cases hcount
            refine hphase.next hbytes val _ hne hcount fun hwren => hstale hne ?_
            have hongoing : s.transfer = transfer := by
              by_cases hhold' : s.port.hold = true
              · rw [if_pos hhold'] at htransfer
                exact htransfer
              · rw [if_neg hhold'] at htransfer
                rw [← htransfer] at hbytes
                cases hbytes
            rw [hongoing, hbytes, hwren]
            rfl

theorem InSession.writeCnt {s : AuxSession} (h : InSession s) (val : UInt16)
    (hproper : Proper s (.writeCnt val)) :
    InSession { s with port := s.port.writeCnt val } := by
  refine ⟨h.configured, ?_, ?_⟩
  · intro hhold
    change (if s.port.releases val then false else s.port.hold) = true at hhold
    split at hhold
    · cases hhold
    · exact h.positioned hhold
  · change InTransfer s.transfer s.port.chip (if s.port.releases val then false else s.port.hold)
    split
    · next hreleases =>
        have hphase := h.inTransfer
        cases hhold : s.port.hold with
        | true =>
            rw [hhold] at hphase
            exact hphase.release (hproper hhold hreleases)
        | false =>
            rw [hhold] at hphase
            exact hphase
    · exact h.inTransfer

theorem auxSystem_inSession : (auxSystem.restrict Proper).Invariant InSession where
  start := by
    rintro s ⟨chip, hasIr, irCmd, hsave, hport, htransfer⟩
    refine ⟨?_, ?_, ?_⟩
    · rw [hport]
      change chip.type = .none ∨ chip.size ≠ 0
      unfold ConfiguredSave at hsave
      cases htype : chip.type with
      | none => exact Or.inl rfl
      | eepromTiny =>
          rw [htype] at hsave
          right
          rw [hsave]
          decide
      | eeprom =>
          rw [htype] at hsave
          obtain ⟨k, -, hsize⟩ := hsave
          right
          rw [hsize]
          positivity
      | flash =>
          rw [htype] at hsave
          obtain ⟨k, -, hsize⟩ := hsave
          right
          rw [hsize]
          positivity
    · intro hhold
      rw [hport] at hhold
      cases hhold
    · rw [hport, htransfer]
      exact inTransfer_start _ _
  step := by
    rintro s op hs ⟨-, hproper⟩
    cases op with
    | writeCnt val => exact hs.writeCnt val hproper
    | writeData val now => exact hs.writeData val now hproper
    | events timestamp =>
        change InSession { s with port := s.port.runEvents timestamp }
        unfold AuxSpi.runEvents
        split
        · exact ⟨hs.configured, hs.positioned, hs.inTransfer⟩
        · exact hs
    | flush => exact ⟨hs.configured, hs.positioned, hs.inTransfer.flush⟩

/-- A blank 64 KiB EEPROM in a card without the infrared front end. -/
def blankEeprom : NdsCartBackup := { type := .eeprom, size := 65536, sram := fun _ => 0xFF }

def blankSession : AuxSession :=
  { port := { chip := blankEeprom.resetCommand }, transfer := .start blankEeprom.resetCommand }

theorem blankSession_initial : auxSystem.initial blankSession :=
  ⟨blankEeprom, false, 0, ⟨16, by decide, rfl⟩, rfl, rfl⟩

/-- The session in which a write command that stores nothing is followed by a
transfer that opens with 0x06 and goes on for three bytes. -/
def staleWriteSession : AuxSession :=
  auxSystem.runFrom blankSession
    [.writeCnt 0xA040, .writeData 0x02 0, .events 512, .writeCnt 0xA000, .writeData 0x00 0,
      .events 512, .writeCnt 0xA040, .writeData 0x06 0, .events 512, .writeData 0x00 0,
      .events 512, .writeData 0x05 0, .events 512, .writeData 0xAA 0]

end NdsRecomp.Cart
