import Mathlib.Tactic

/-!
What the function finder reads of the image. An address is in the image or in the
runtime range of a code copy, and is read at the offset of its source. Every read
comes behind a test of `can_read_at`; the two literal loads test the address of the
load and read the word it lies in.
-/

namespace NdsRecomp.Recompiler

structure CodeCopyRange where
  runtimeStart : UInt32
  sourceStart : UInt32
  size : UInt32

/-- The fields of `FunctionFinder` that reads depend on. -/
structure FinderImage where
  rom : List UInt8
  romBase : UInt32
  codeCopies : List CodeCopyRange

namespace FinderImage

def addrInRom (f : FinderImage) (addr : UInt32) : Bool :=
  f.romBase ≤ addr && (addr - f.romBase).toNat < f.rom.length

/-- The first copy that holds the address decides. -/
def mapCopies (f : FinderImage) (addr : UInt32) : List CodeCopyRange → Option UInt32
  | [] => none
  | cc :: rest =>
    if cc.runtimeStart ≤ addr ∧ addr - cc.runtimeStart < cc.size then
      let mapped := cc.sourceStart + (addr - cc.runtimeStart)
      if f.addrInRom mapped then some mapped else none
    else f.mapCopies addr rest

def mapAddrToSource (f : FinderImage) (addr : UInt32) : Option UInt32 :=
  if f.addrInRom addr then some addr else f.mapCopies addr f.codeCopies

/-- The sum is one of 32 bits. -/
def canReadAt (f : FinderImage) (addr len : UInt32) : Bool :=
  match f.mapAddrToSource addr with
  | none => false
  | some source => (source - f.romBase + len).toNat ≤ f.rom.length

/-- `off` of `read_u16` and `read_u32`: an address without a source is its own. -/
def readOffset (f : FinderImage) (addr : UInt32) : Nat :=
  ((f.mapAddrToSource addr).getD addr - f.romBase).toNat

def readU16 (f : FinderImage) (addr : UInt32) : Option UInt16 := do
  let b0 ← f.rom[f.readOffset addr]?
  let b1 ← f.rom[f.readOffset addr + 1]?
  return b0.toUInt16 ||| (b1.toUInt16 <<< 8)

def readU32 (f : FinderImage) (addr : UInt32) : Option UInt32 := do
  let b0 ← f.rom[f.readOffset addr]?
  let b1 ← f.rom[f.readOffset addr + 1]?
  let b2 ← f.rom[f.readOffset addr + 2]?
  let b3 ← f.rom[f.readOffset addr + 3]?
  return b0.toUInt32 ||| (b1.toUInt32 <<< 8) ||| (b2.toUInt32 <<< 16) ||| (b3.toUInt32 <<< 24)

end FinderImage

/-! ## The reads -/

/-- A halfword or a word read. -/
inductive ReadWidth
  | half
  | word
  deriving DecidableEq

def ReadWidth.bytes : ReadWidth → UInt32
  | half => 2
  | word => 4

/-- A read with the address that its test asks for. -/
inductive FinderRead
  | tested (addr : UInt32) (width : ReadWidth)
  | literal (ea : UInt32)

namespace FinderRead

def addr : FinderRead → UInt32
  | tested addr _ => addr
  | literal ea => ea &&& ~~~3

def width : FinderRead → ReadWidth
  | tested _ width => width
  | literal _ => .word

end FinderRead

/-- The places of the finder that read the image, each behind its test. -/
inductive FinderImage.Performs (f : FinderImage) : FinderRead → Prop
  /-- the walk of `discover_one`, and `looks_like_code` -/
  | thumbInstr {pc : UInt32} : f.canReadAt pc 2 = true → f.Performs (.tested pc .half)
  | armInstr {pc : UInt32} : f.canReadAt pc 4 = true → f.Performs (.tested pc .word)
  /-- the second half of a BL pair, of a call and of a table's dispatch -/
  | blSuffix {pc : UInt32} : f.canReadAt (pc + 2) 2 = true → f.Performs (.tested (pc + 2) .half)
  /-- the veneer a dispatch goes through -/
  | veneer {target : UInt32} : f.canReadAt target 2 = true → f.Performs (.tested target .half)
  /-- `emit_jump_table` -/
  | tableEntry {base i stride : UInt32} : f.canReadAt (base + i * stride) 4 = true →
      f.Performs (.tested (base + i * stride) .word)
  /-- a load of the program counter, and one of another register -/
  | literalJump {ea : UInt32} : f.canReadAt ea 4 = true → f.Performs (.literal ea)
  | literalLoad {ea : UInt32} : f.canReadAt ea 4 = true → f.Performs (.literal ea)
  /-- the last halfword of a function -/
  | lastHalf {endAddr : UInt32} : f.canReadAt (endAddr - 2) 2 = true →
      f.Performs (.tested (endAddr - 2) .half)
  /-- `read_u32_public` -/
  | publicWord {addr : UInt32} : f.canReadAt addr 4 = true → f.Performs (.tested addr .word)

namespace FinderImage

variable (f : FinderImage)

/-- The whole width is in the image. -/
def InBounds (r : FinderRead) : Prop :=
  f.readOffset r.addr + r.width.bytes.toNat ≤ f.rom.length

/-- The read ends behind the last address, and the image before that. -/
def EndsPastTop (addr : UInt32) (width : ReadWidth) : Prop :=
  2 ^ 32 ≤ f.readOffset addr + width.bytes.toNat ∧
    f.rom.length < f.readOffset addr + width.bytes.toNat

/-- The word can be read itself; one without a source only at an offset of an image that is
larger than the address space. -/
def WordReadable (addr : UInt32) : Prop :=
  (f.canReadAt addr 4 = true ∧ ¬ f.EndsPastTop addr .word) ∨
    (f.mapAddrToSource addr = none ∧ f.readOffset addr + 4 ≤ f.rom.length)

/-- When a read stays inside the image. -/
def Stays : FinderRead → Prop
  | .tested addr width => ¬ f.EndsPastTop addr width
  | .literal ea => f.WordReadable (ea &&& ~~~3)

instance (r : FinderRead) : Decidable (f.InBounds r) := inferInstanceAs (Decidable (_ ≤ _))

theorem canReadAt_iff {addr : UInt32} {width : ReadWidth} {source : UInt32}
    (hsource : f.mapAddrToSource addr = some source) :
    f.canReadAt addr width.bytes = true ↔
      (f.readOffset addr + width.bytes.toNat) % 2 ^ 32 ≤ f.rom.length := by
  unfold canReadAt readOffset
  rw [hsource]
  simp only [Option.getD_some, decide_eq_true_eq, UInt32.toNat_add]

theorem mapped_of_canReadAt {addr len : UInt32} (h : f.canReadAt addr len = true) :
    ∃ source, f.mapAddrToSource addr = some source := by
  unfold canReadAt at h
  cases hsource : f.mapAddrToSource addr with
  | none =>
      rw [hsource] at h
      cases h
  | some source => exact ⟨source, rfl⟩

/-- A read of a mapped address: the test is right but where its sum wraps. -/
theorem inBounds_iff {addr : UInt32} {width : ReadWidth} {source : UInt32}
    (hsource : f.mapAddrToSource addr = some source) :
    f.readOffset addr + width.bytes.toNat ≤ f.rom.length ↔
      f.canReadAt addr width.bytes = true ∧ ¬ f.EndsPastTop addr width := by
  rw [f.canReadAt_iff hsource]
  unfold EndsPastTop
  constructor
  · intro h
    exact ⟨(Nat.mod_le _ _).trans h, fun hpast => absurd hpast.2 (Nat.not_lt.mpr h)⟩
  · rintro ⟨hread, hpast⟩
    by_cases hwrap : 2 ^ 32 ≤ f.readOffset addr + width.bytes.toNat
    · exact Nat.not_lt.mp fun hshort => hpast ⟨hwrap, hshort⟩
    · rwa [Nat.mod_eq_of_lt (Nat.not_le.mp hwrap)] at hread

theorem tested_inBounds_iff {addr : UInt32} {width : ReadWidth}
    (h : f.canReadAt addr width.bytes = true) :
    f.InBounds (.tested addr width) ↔ f.Stays (.tested addr width) := by
  obtain ⟨source, hsource⟩ := f.mapped_of_canReadAt h
  exact (f.inBounds_iff hsource).trans (and_iff_right h)

theorem literal_inBounds_iff (ea : UInt32) :
    f.InBounds (.literal ea) ↔ f.Stays (.literal ea) := by
  change f.readOffset (ea &&& ~~~3) + ReadWidth.word.bytes.toNat ≤ f.rom.length ↔
    f.WordReadable (ea &&& ~~~3)
  unfold WordReadable
  cases hsource : f.mapAddrToSource (ea &&& ~~~3) with
  | none =>
      constructor
      · exact fun h => .inr ⟨rfl, h⟩
      · rintro (⟨hread, -⟩ | ⟨-, h⟩)
        · obtain ⟨source, hmapped⟩ := f.mapped_of_canReadAt hread
          rw [hsource] at hmapped
          cases hmapped
        · exact h
  | some source =>
      refine (f.inBounds_iff hsource).trans ⟨fun h => .inl h, ?_⟩
      rintro (h | ⟨hnone, -⟩)
      · exact h
      · cases hnone

/-- Everything begins and ends at a word, and behind the image there is a word more. -/
structure Aligned (f : FinderImage) : Prop where
  base : f.romBase.toNat % 4 = 0
  length : f.rom.length % 4 = 0
  fits : f.rom.length + 4 ≤ 2 ^ 32
  copies : ∀ cc ∈ f.codeCopies, cc.runtimeStart.toNat % 4 = 0 ∧ cc.sourceStart.toNat % 4 = 0 ∧
    cc.size.toNat % 4 = 0

/-- The address of the word. -/
theorem wordOf_toNat (addr : UInt32) : (addr &&& ~~~3).toNat = addr.toNat - addr.toNat % 4 := by
  have hmask : (~~~3 : UInt32).toNat = (2 ^ 30 - 1) <<< 2 := by decide
  have hword : addr.toNat - addr.toNat % 4 = (addr.toNat >>> 2) <<< 2 := by
    rw [Nat.shiftRight_eq_div_pow, Nat.shiftLeft_eq]
    omega
  rw [UInt32.toNat_and, hmask, hword]
  refine Nat.eq_of_testBit_eq fun i => ?_
  rw [Nat.testBit_and, Nat.testBit_shiftLeft, Nat.testBit_shiftLeft, Nat.testBit_two_pow_sub_one,
    Nat.testBit_shiftRight]
  by_cases hlow : 2 ≤ i
  · by_cases hhigh : i < 32
    · simp [hlow, show i - 2 < 30 by omega]
    · have hpow : 2 ^ 32 ≤ 2 ^ i := Nat.pow_le_pow_right (by decide) (by omega)
      have hzero : addr.toNat.testBit i = false :=
        Nat.testBit_lt_two_pow (addr.toNat_lt.trans_le hpow)
      simp [hlow, hzero]
  · simp [hlow]

theorem addrInRom_iff {f : FinderImage} {addr : UInt32} : f.addrInRom addr = true ↔
    f.romBase.toNat ≤ addr.toNat ∧ addr.toNat - f.romBase.toNat < f.rom.length := by
  unfold addrInRom
  rw [Bool.and_eq_true, decide_eq_true_eq, decide_eq_true_eq, UInt32.le_iff_toNat_le]
  constructor
  · rintro ⟨hle, hlt⟩
    exact ⟨hle, by rwa [UInt32.toNat_sub_of_le _ _ (UInt32.le_iff_toNat_le.mpr hle)] at hlt⟩
  · rintro ⟨hle, hlt⟩
    exact ⟨hle, by rwa [UInt32.toNat_sub_of_le _ _ (UInt32.le_iff_toNat_le.mpr hle)]⟩

/-- A source is in the image. -/
theorem addrInRom_source {addr source : UInt32} (h : f.mapAddrToSource addr = some source) :
    f.addrInRom source = true := by
  unfold mapAddrToSource at h
  split at h
  · next hrom =>
      cases h
      exact hrom
  · generalize f.codeCopies = copies at h
    induction copies with
    | nil => cases h
    | cons cc rest ih =>
        rw [mapCopies] at h
        split at h
        · dsimp only at h
          split at h
          · next hrom =>
              cases h
              exact hrom
          · cases h
        · exact ih h

section Words

variable {f}

theorem Aligned.addrInRom_word (ha : f.Aligned) (addr : UInt32) :
    f.addrInRom (addr &&& ~~~3) = f.addrInRom addr := by
  have hbase := ha.base
  have hlength := ha.length
  rw [Bool.eq_iff_iff, addrInRom_iff, addrInRom_iff, wordOf_toNat]
  omega

/-- A copy maps the word of an address to the word of its source. -/
theorem Aligned.mapCopies_word (ha : f.Aligned) (addr : UInt32) {copies : List CodeCopyRange}
    (hcopies : ∀ cc ∈ copies, cc ∈ f.codeCopies) :
    f.mapCopies (addr &&& ~~~3) copies = (f.mapCopies addr copies).map (· &&& ~~~3) := by
  induction copies with
  | nil => rfl
  | cons cc rest ih =>
      obtain ⟨hruntime, hsource, hsize⟩ := ha.copies cc (hcopies cc List.mem_cons_self)
      have hword := wordOf_toNat addr
      have hheld : ∀ x : UInt32, (cc.runtimeStart ≤ x ∧ x - cc.runtimeStart < cc.size) ↔
          cc.runtimeStart.toNat ≤ x.toNat ∧ x.toNat - cc.runtimeStart.toNat < cc.size.toNat := by
        intro x
        rw [UInt32.le_iff_toNat_le, UInt32.lt_iff_toNat_lt]
        refine and_congr_right fun hle => ?_
        rw [UInt32.toNat_sub_of_le _ _ (UInt32.le_iff_toNat_le.mpr hle)]
      have hin : (cc.runtimeStart ≤ addr &&& ~~~3 ∧
          (addr &&& ~~~3) - cc.runtimeStart < cc.size) ↔
          (cc.runtimeStart ≤ addr ∧ addr - cc.runtimeStart < cc.size) := by
        rw [hheld, hheld, hword]
        omega
      rw [mapCopies, mapCopies]
      by_cases hcopy : cc.runtimeStart ≤ addr ∧ addr - cc.runtimeStart < cc.size
      · rw [if_pos hcopy, if_pos (hin.mpr hcopy)]
        have hmapped : cc.sourceStart + ((addr &&& ~~~3) - cc.runtimeStart) =
            (cc.sourceStart + (addr - cc.runtimeStart)) &&& ~~~3 := by
          apply UInt32.toNat_inj.mp
          rw [wordOf_toNat, UInt32.toNat_add, UInt32.toNat_add,
            UInt32.toNat_sub_of_le _ _ (hin.mpr hcopy).1, UInt32.toNat_sub_of_le _ _ hcopy.1, hword]
          have hle := ((hheld _).mp (hin.mpr hcopy)).1
          rw [hword] at hle
          omega
        dsimp only
        rw [hmapped, ha.addrInRom_word]
        split <;> rfl
      · rw [if_neg hcopy, if_neg fun h => hcopy (hin.mp h)]
        exact ih fun cc hcc => hcopies cc (List.mem_cons_of_mem _ hcc)

theorem Aligned.mapAddrToSource_word (ha : f.Aligned) (addr : UInt32) :
    f.mapAddrToSource (addr &&& ~~~3) = (f.mapAddrToSource addr).map (· &&& ~~~3) := by
  unfold mapAddrToSource
  rw [ha.addrInRom_word]
  split
  · rfl
  · exact ha.mapCopies_word addr fun _ h => h

/-- A read of a mapped address does not reach the top of the address space. -/
theorem Aligned.not_endsPastTop (ha : f.Aligned) {addr source : UInt32} (width : ReadWidth)
    (hsource : f.mapAddrToSource addr = some source) : ¬ f.EndsPastTop addr width := by
  have hfits := ha.fits
  obtain ⟨hle, hlt⟩ := addrInRom_iff.mp (f.addrInRom_source hsource)
  have hoffset : f.readOffset addr = source.toNat - f.romBase.toNat := by
    rw [readOffset, hsource, Option.getD_some,
      UInt32.toNat_sub_of_le _ _ (UInt32.le_iff_toNat_le.mpr hle)]
  have hwidth : width.bytes.toNat ≤ 4 := by cases width <;> decide
  rintro ⟨hpast, -⟩
  omega

/-- The word of an address that passes the test passes it. -/
theorem Aligned.wordReadable (ha : f.Aligned) {ea : UInt32} (h : f.canReadAt ea 4 = true) :
    f.WordReadable (ea &&& ~~~3) := by
  have hbase := ha.base
  have hfits := ha.fits
  obtain ⟨source, hsource⟩ := f.mapped_of_canReadAt h
  have hword : f.mapAddrToSource (ea &&& ~~~3) = some (source &&& ~~~3) := by
    rw [ha.mapAddrToSource_word, hsource, Option.map_some]
  obtain ⟨hle, hlt⟩ := addrInRom_iff.mp (f.addrInRom_source hsource)
  have hread : (f.readOffset ea + ReadWidth.word.bytes.toNat) % 2 ^ 32 ≤ f.rom.length :=
    (f.canReadAt_iff hsource).mp h
  have hle' : f.romBase ≤ source &&& ~~~3 := by
    rw [UInt32.le_iff_toNat_le, wordOf_toNat]
    omega
  have hfour : ReadWidth.word.bytes.toNat = 4 := rfl
  rw [readOffset, hsource, Option.getD_some,
    UInt32.toNat_sub_of_le _ _ (UInt32.le_iff_toNat_le.mpr hle), hfour] at hread
  have hread' : f.canReadAt (ea &&& ~~~3) ReadWidth.word.bytes = true := by
    rw [f.canReadAt_iff hword, readOffset, hword, Option.getD_some,
      UInt32.toNat_sub_of_le _ _ hle', wordOf_toNat, hfour]
    omega
  exact .inl ⟨hread', ha.not_endsPastTop .word hword⟩

/-- In an image of words every read of the finder stays. -/
theorem Aligned.inBounds_of_performed (ha : f.Aligned) {r : FinderRead} (h : f.Performs r) :
    f.InBounds r := by
  have htested : ∀ {addr : UInt32} (width : ReadWidth), f.canReadAt addr width.bytes = true →
      f.InBounds (.tested addr width) := by
    intro addr width hread
    obtain ⟨source, hsource⟩ := f.mapped_of_canReadAt hread
    exact (f.tested_inBounds_iff hread).mpr (ha.not_endsPastTop width hsource)
  have hliteral : ∀ {ea : UInt32}, f.canReadAt ea 4 = true → f.InBounds (.literal ea) :=
    fun hread => (f.literal_inBounds_iff _).mpr (ha.wordReadable hread)
  cases h with
  | thumbInstr hread => exact htested .half hread
  | armInstr hread => exact htested .word hread
  | blSuffix hread => exact htested .half hread
  | veneer hread => exact htested .half hread
  | tableEntry hread => exact htested .word hread
  | literalJump hread => exact hliteral hread
  | literalLoad hread => exact hliteral hread
  | lastHalf hread => exact htested .half hread
  | publicWord hread => exact htested .word hread

end Words

/-! ### Values -/

/-- A word in bounds has a value, and so has a halfword. -/
theorem readU32_isSome {addr : UInt32} (h : f.readOffset addr + 4 ≤ f.rom.length) :
    (f.readU32 addr).isSome = true := by
  unfold readU32
  rw [List.getElem?_eq_getElem (by omega), List.getElem?_eq_getElem (by omega),
    List.getElem?_eq_getElem (by omega), List.getElem?_eq_getElem (by omega)]
  rfl

theorem readU16_isSome {addr : UInt32} (h : f.readOffset addr + 2 ≤ f.rom.length) :
    (f.readU16 addr).isSome = true := by
  unfold readU16
  rw [List.getElem?_eq_getElem (by omega), List.getElem?_eq_getElem (by omega)]
  rfl

end FinderImage

/-- An image that begins at a halfword. -/
def oddImage : FinderImage := ⟨List.replicate 16 0, 0x02000002, []⟩

end NdsRecomp.Recompiler
