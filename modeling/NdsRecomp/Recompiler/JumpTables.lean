import Mathlib.Tactic.NormNum
import NdsRecomp.Recompiler.ConstantTracker
import NdsRecomp.Recompiler.EmitDispatch

/-!
Expansion of the declared jump tables into finder seeds. The parser accepts four
element formats; the expansion reads every element as a 32-bit pointer. What it
adds is compared with what each element denotes in the format it was declared in.
-/

namespace NdsRecomp.Recompiler

open Library

inductive JumpTableFormat where
  | abs32
  | abs16
  | pcrelArm
  | pcrelThumb
deriving DecidableEq, Repr

inductive JumpTableEntriesMode where
  | arm
  | thumb
  /-- Bit 0 of the entry encodes the mode. -/
  | auto
deriving DecidableEq, Repr

/-- The mode and format combinations `parse_jump_tables` lets through. -/
def formatAllows : JumpTableFormat → JumpTableEntriesMode → Bool
  | .pcrelArm, mode => mode == .arm
  | .pcrelThumb, mode => mode == .thumb
  | .abs16, mode => mode != .auto
  | .abs32, _ => true

/-- An accepted `[[jump_table]]`. -/
structure ConfigJumpTable where
  addr : UInt32
  stride : UInt32
  count : UInt32
  format : JumpTableFormat
  entriesMode : JumpTableEntriesMode
  name : List Char
  allowed : formatAllows format entriesMode = true

structure FunctionSeed where
  addr : UInt32
  mode : CpuMode
  name : List Char
  size : UInt32
deriving DecidableEq, Repr

/-! ### The expansion -/

/-- `Image::in` -/
def BankImage.contains (img : BankImage) (a : UInt32) (len : Nat) : Prop :=
  img.loadAddress ≤ a ∧ (a - img.loadAddress).toNat + len ≤ img.bytes.length

instance (img : BankImage) (a : UInt32) (len : Nat) : Decidable (img.contains a len) :=
  inferInstanceAs (Decidable (_ ∧ _))

def BankImage.u16At (img : BankImage) (o : Nat) : UInt32 :=
  (img.bytes.getD o 0).toUInt32 ||| (img.bytes.getD (o + 1) 0).toUInt32 <<< 8

/-- `Image::u32` -/
def BankImage.u32 (img : BankImage) (a : UInt32) : UInt32 :=
  let o := (a - img.loadAddress).toNat
  img.u16At o ||| (img.bytes.getD (o + 2) 0).toUInt32 <<< 16 |||
    (img.bytes.getD (o + 3) 0).toUInt32 <<< 24

namespace ConfigJumpTable

/-- The mode of an element, from its bit 0 where the table says `auto`. -/
def seedMode (jt : ConfigJumpTable) (e : UInt32) : CpuMode :=
  match jt.entriesMode with
  | .thumb => .thumb
  | .arm => .arm
  | .auto => if e &&& 1 ≠ 0 then .thumb else .arm

/-- `snprintf(nm, 64, "%s_%u", name, k)` -/
def seedName (jt : ConfigJumpTable) (k : Nat) : List Char :=
  (jt.name ++ '_' :: (toString k).toList).take 63

def seed (jt : ConfigJumpTable) (k : Nat) (target e : UInt32) : FunctionSeed :=
  ⟨target, jt.seedMode e, jt.seedName k, 0⟩

/-- The seeds of the elements from `k` on, each with its index. -/
def seedsFrom (jt : ConfigJumpTable) (img : BankImage) : Nat → Nat → List (Nat × FunctionSeed)
  | 0, _ => []
  | left + 1, k =>
      let ea := jt.addr + UInt32.ofNat k * jt.stride
      if img.contains ea 4 then
        let e := img.u32 ea
        -- an empty element is an unimplemented slot
        if e = 0 then jt.seedsFrom img left (k + 1)
        else (k, jt.seed k (e &&& ~~~1) e) :: jt.seedsFrom img left (k + 1)
      else []

def seeds (jt : ConfigJumpTable) (img : BankImage) : List (Nat × FunctionSeed) :=
  jt.seedsFrom img jt.count.toNat 0

/-- The range handed to `add_data_range`. -/
def dataRange (jt : ConfigJumpTable) : UInt32 × UInt32 :=
  (jt.addr, jt.addr + jt.count * jt.stride)

/-! ### What the elements denote -/

def pcRelative (jt : ConfigJumpTable) : Bool := jt.format == .pcrelArm || jt.format == .pcrelThumb

def width (jt : ConfigJumpTable) : Nat := if jt.format = .abs16 then 2 else 4

/-- The address of element `k`, which no word size bounds. -/
def elementAddr (jt : ConfigJumpTable) (k : Nat) : Nat := jt.addr.toNat + k * jt.stride.toNat

/-- So many bytes at an address lie in the image. -/
def readable (img : BankImage) (a len : Nat) : Prop :=
  img.loadAddress.toNat ≤ a ∧ a - img.loadAddress.toNat + len ≤ img.bytes.length

instance (img : BankImage) (a len : Nat) : Decidable (readable img a len) :=
  inferInstanceAs (Decidable (_ ∧ _))

/-- Element `k`, from the bytes of its own width. -/
def element (jt : ConfigJumpTable) (img : BankImage) (k : Nat) : Option UInt32 :=
  if readable img (jt.elementAddr k) jt.width then
    let o := jt.elementAddr k - img.loadAddress.toNat
    if jt.format = .abs16 then some (img.u16At o)
    else some (img.u16At o ||| (img.bytes.getD (o + 2) 0).toUInt32 <<< 16 |||
      (img.bytes.getD (o + 3) 0).toUInt32 <<< 24)
  else none

/-- The target of an element: the pointer itself, or an address relative to the
table. How the relative formats encode theirs is not written down anywhere. -/
def target (jt : ConfigJumpTable) (relative : UInt32 → UInt32 → UInt32) (e : UInt32) : UInt32 :=
  if jt.pcRelative then relative jt.addr e else e &&& ~~~1

/-- The seed element `k` denotes. -/
def denoted (jt : ConfigJumpTable) (relative : UInt32 → UInt32 → UInt32) (img : BankImage) (k : Nat) :
    Option FunctionSeed :=
  (jt.element img k).bind fun e =>
    if e = 0 then none else some (jt.seed k (jt.target relative e) e)

/-- Seeds and data range are what the declaration says, and no relative element's
own value is a seed. -/
structure Exact (jt : ConfigJumpTable) (relative : UInt32 → UInt32 → UInt32) (img : BankImage) :
    Prop where
  seeds : jt.seeds img =
    (List.range jt.count.toNat).filterMap fun k => (jt.denoted relative img k).map (Prod.mk k)
  relative : jt.pcRelative = true → ∀ s ∈ jt.seeds img, ∀ e, jt.element img s.1 = some e →
    s.2.addr ≠ e &&& ~~~1
  start : jt.dataRange.1 = jt.addr
  stop : jt.dataRange.2.toNat = jt.addr.toNat + jt.count.toNat * jt.stride.toNat

/-- What an element that lies in the image has to be. -/
def ElementFits (jt : ConfigJumpTable) (img : BankImage) (k : Nat) : Prop :=
  let a := jt.elementAddr k
  let o := a - img.loadAddress.toNat
  match jt.format with
  | .abs32 => jt.element img k ≠ some 0 → img.loadAddress ≤ jt.addr
  | .abs16 =>
      if img.loadAddress ≤ jt.addr ∧ readable img a 4 then
        img.bytes.getD (o + 2) 0 = 0 ∧ img.bytes.getD (o + 3) 0 = 0
      else jt.element img k = some 0
  | .pcrelArm | .pcrelThumb => jt.element img k = some 0

/-- No address wraps, and the elements in the image fit. -/
structure Fits (jt : ConfigJumpTable) (img : BankImage) : Prop where
  space : jt.addr.toNat + jt.count.toNat * jt.stride.toNat < 2 ^ 32
  each : ∀ k < jt.count.toNat, readable img (jt.elementAddr k) jt.width → jt.ElementFits img k

end ConfigJumpTable

/-! ### Words of the image -/

theorem byteShift_toNat (b : UInt8) {k : UInt32} (hk : k.toNat ≤ 24) :
    (b.toUInt32 <<< k).toNat = b.toNat * 2 ^ k.toNat := by
  have hbound : b.toNat * 2 ^ k.toNat < 2 ^ 32 := by
    calc b.toNat * 2 ^ k.toNat < 2 ^ 8 * 2 ^ k.toNat :=
          Nat.mul_lt_mul_of_pos_right b.toNat_lt (Nat.two_pow_pos _)
      _ ≤ 2 ^ 8 * 2 ^ 24 := Nat.mul_le_mul_left _ (Nat.pow_le_pow_right (by decide) hk)
      _ = 2 ^ 32 := by norm_num
  rw [UInt32.toNat_shiftLeft, Nat.mod_eq_of_lt (Nat.lt_of_le_of_lt hk (by decide)),
    Nat.shiftLeft_eq, UInt8.toNat_toUInt32, Nat.mod_eq_of_lt hbound]

/-- A halfword under two more bytes. -/
theorem wordOf_toNat (b0 b1 b2 b3 : UInt8) :
    (b0.toUInt32 ||| b1.toUInt32 <<< 8 ||| b2.toUInt32 <<< 16 ||| b3.toUInt32 <<< 24).toNat =
      (b0.toUInt32 ||| b1.toUInt32 <<< 8).toNat + 2 ^ 16 * (b2.toNat + 2 ^ 8 * b3.toNat) ∧
    (b0.toUInt32 ||| b1.toUInt32 <<< 8).toNat < 2 ^ 16 := by
  have h0 := b0.toNat_lt
  have h1 := b1.toNat_lt
  have h2 := b2.toNat_lt
  have e1 : (b1.toUInt32 <<< 8).toNat = b1.toNat * 2 ^ 8 := byteShift_toNat b1 (by decide)
  have e2 : (b2.toUInt32 <<< 16).toNat = b2.toNat * 2 ^ 16 := byteShift_toNat b2 (by decide)
  have e3 : (b3.toUInt32 <<< 24).toNat = b3.toNat * 2 ^ 24 := byteShift_toNat b3 (by decide)
  have hlow : (b0.toUInt32 ||| b1.toUInt32 <<< 8).toNat = 2 ^ 8 * b1.toNat + b0.toNat := by
    rw [UInt32.toNat_or, e1, UInt8.toNat_toUInt32, Nat.or_comm, Nat.mul_comm,
      ← Nat.two_pow_add_eq_or_of_lt h0]
  have hhalf : (b0.toUInt32 ||| b1.toUInt32 <<< 8).toNat < 2 ^ 16 := by omega
  refine ⟨?_, hhalf⟩
  have hmid : (b0.toUInt32 ||| b1.toUInt32 <<< 8 ||| b2.toUInt32 <<< 16).toNat =
      2 ^ 16 * b2.toNat + (b0.toUInt32 ||| b1.toUInt32 <<< 8).toNat := by
    rw [UInt32.toNat_or (b0.toUInt32 ||| b1.toUInt32 <<< 8), e2, Nat.or_comm, Nat.mul_comm,
      ← Nat.two_pow_add_eq_or_of_lt hhalf]
  rw [UInt32.toNat_or, hmid, e3, Nat.or_comm, Nat.mul_comm b3.toNat,
    ← Nat.two_pow_add_eq_or_of_lt (by omega)]
  omega

/-- Clearing bit 0 leaves the upper halfword. -/
theorem clearBit0_high (w : UInt32) : (w &&& ~~~1).toNat / 2 ^ 16 = w.toNat / 2 ^ 16 := by
  have hw := w.toNat_lt
  rw [UInt32.toNat_and, ← Nat.shiftRight_eq_div_pow, Nat.shiftRight_and_distrib,
    show (~~~(1 : UInt32)).toNat >>> 16 = 2 ^ 16 - 1 by decide, Nat.and_two_pow_sub_one_eq_mod,
    Nat.shiftRight_eq_div_pow, Nat.mod_eq_of_lt (by omega)]

namespace ConfigJumpTable

variable {jt : ConfigJumpTable} {relative : UInt32 → UInt32 → UInt32} {img : BankImage}

/-! ### One element -/

/-- What the loop adds for element `k`, once it gets there. -/
def readSeed (jt : ConfigJumpTable) (img : BankImage) (k : Nat) : Option FunctionSeed :=
  let ea := jt.addr + UInt32.ofNat k * jt.stride
  if img.contains ea 4 then
    if img.u32 ea = 0 then none else some (jt.seed k (img.u32 ea &&& ~~~1) (img.u32 ea))
  else none

/-- The loop gets past an element before the image only if there is none. -/
def addedSeed (jt : ConfigJumpTable) (img : BankImage) (k : Nat) : Option FunctionSeed :=
  if img.loadAddress ≤ jt.addr then jt.readSeed img k else none

theorem elementAddr_toNat (hspace : jt.addr.toNat + jt.count.toNat * jt.stride.toNat < 2 ^ 32)
    {k : Nat} (hk : k < jt.count.toNat) :
    (jt.addr + UInt32.ofNat k * jt.stride).toNat = jt.elementAddr k := by
  have hcount := jt.count.toNat_lt
  have hmul : k * jt.stride.toNat ≤ jt.count.toNat * jt.stride.toNat :=
    Nat.mul_le_mul_right _ (Nat.le_of_lt hk)
  unfold elementAddr
  rw [UInt32.toNat_add, UInt32.toNat_mul, UInt32.toNat_ofNat', Nat.mod_eq_of_lt (a := k) (by omega),
    Nat.mod_eq_of_lt (a := k * _) (by omega), Nat.mod_eq_of_lt (by omega)]

theorem contains_iff {a : UInt32} {len : Nat} :
    img.contains a len ↔ readable img a.toNat len := by
  unfold BankImage.contains readable
  rw [UInt32.le_iff_toNat_le]
  constructor
  · rintro ⟨hle, hlen⟩
    rw [UInt32.toNat_sub_of_le _ _ (UInt32.le_iff_toNat_le.mpr hle)] at hlen
    exact ⟨hle, hlen⟩
  · rintro ⟨hle, hlen⟩
    rw [UInt32.toNat_sub_of_le _ _ (UInt32.le_iff_toNat_le.mpr hle)]
    exact ⟨hle, hlen⟩

/-- Behind an element that is not in the image there is none. -/
theorem readable_earlier {i j : Nat} (hij : i ≤ j) (hbase : img.loadAddress ≤ jt.addr)
    (h : readable img (jt.elementAddr j) 4) : readable img (jt.elementAddr i) 4 := by
  have hmul : i * jt.stride.toNat ≤ j * jt.stride.toNat := Nat.mul_le_mul_right _ hij
  rw [UInt32.le_iff_toNat_le] at hbase
  unfold readable elementAddr at *
  omega

theorem readSeed_eq_none (hspace : jt.addr.toNat + jt.count.toNat * jt.stride.toNat < 2 ^ 32)
    {k : Nat} (hk : k < jt.count.toNat) (h : ¬ readable img (jt.elementAddr k) 4) :
    jt.readSeed img k = none := by
  unfold readSeed
  dsimp only
  rw [if_neg]
  rwa [contains_iff, elementAddr_toNat hspace hk]

/-! ### The loop -/

/-- The loop from an element in a table that does not begin before the image. -/
theorem seedsFrom_eq (hspace : jt.addr.toNat + jt.count.toNat * jt.stride.toNat < 2 ^ 32)
    (hbase : img.loadAddress ≤ jt.addr) (left k : Nat) (hk : k + left ≤ jt.count.toNat) :
    jt.seedsFrom img left k =
      (List.range' k left).filterMap fun i => (jt.readSeed img i).map (Prod.mk i) := by
  induction left generalizing k with
  | zero => rfl
  | succ left ih =>
      have hea := elementAddr_toNat (k := k) hspace (by omega)
      rw [List.range'_succ, List.filterMap_cons, seedsFrom]
      dsimp only
      split
      · next hin =>
          rw [ih (k + 1) (by omega)]
          unfold readSeed
          dsimp only
          rw [if_pos hin]
          split <;> rfl
      · next hout =>
          rw [contains_iff, hea] at hout
          rw [readSeed_eq_none hspace (by omega) hout]
          symm
          rw [Option.map_none, List.filterMap_eq_nil_iff]
          intro i hi
          rw [List.mem_range'_1] at hi
          rw [readSeed_eq_none hspace (by omega) fun h => hout (readable_earlier (by omega) hbase h)]
          rfl

theorem seeds_eq (hspace : jt.addr.toNat + jt.count.toNat * jt.stride.toNat < 2 ^ 32) :
    jt.seeds img =
      (List.range jt.count.toNat).filterMap fun i => (jt.addedSeed img i).map (Prod.mk i) := by
  unfold seeds addedSeed
  by_cases hbase : img.loadAddress ≤ jt.addr
  · simp only [if_pos hbase]
    rw [seedsFrom_eq hspace hbase _ _ (by omega), List.range_eq_range']
  · simp only [if_neg hbase]
    have hnone : (List.range jt.count.toNat).filterMap (fun i =>
        ((none : Option FunctionSeed)).map (Prod.mk i)) = [] := by
      rw [List.filterMap_eq_nil_iff]
      intro i _
      rfl
    rw [hnone]
    cases hcount : jt.count.toNat with
    | zero => rfl
    | succ n =>
        have hea := elementAddr_toNat (k := 0) hspace (by omega)
        rw [seedsFrom]
        dsimp only
        rw [if_neg]
        rw [contains_iff, hea]
        rintro ⟨hle, -⟩
        unfold elementAddr at hle
        rw [UInt32.le_iff_toNat_le] at hbase
        omega

/-! ### Element by element -/

/-- Two selections that carry their index are equal where each index selects the
same. -/
theorem filterMap_index_inj {α : Type} {f g : Nat → Option α} {n : Nat} :
    ((List.range n).filterMap fun k => (f k).map (Prod.mk k)) =
        (List.range n).filterMap (fun k => (g k).map (Prod.mk k)) ↔ ∀ k < n, f k = g k := by
  have hmem : ∀ (h : Nat → Option α) (k : Nat) (x : α), k < n →
      ((k, x) ∈ (List.range n).filterMap (fun k => (h k).map (Prod.mk k)) ↔ h k = some x) := by
    intro h k x hk
    rw [List.mem_filterMap]
    constructor
    · rintro ⟨i, -, hi⟩
      obtain ⟨y, hy, heq⟩ := Option.map_eq_some_iff.mp hi
      cases heq
      exact hy
    · intro hx
      exact ⟨k, List.mem_range.mpr hk, by rw [hx]; rfl⟩
  constructor
  · intro heq k hk
    refine Option.ext fun x => ?_
    rw [← hmem f k x hk, heq, hmem g k x hk]
  · intro hall
    refine List.filterMap_congr fun k hk => ?_
    rw [hall k (List.mem_range.mp hk)]

/-- Four bytes of the image. -/
def wordAt (img : BankImage) (o : Nat) : UInt32 :=
  img.u16At o ||| (img.bytes.getD (o + 2) 0).toUInt32 <<< 16 |||
    (img.bytes.getD (o + 3) 0).toUInt32 <<< 24

theorem readSeed_eq (hspace : jt.addr.toNat + jt.count.toNat * jt.stride.toNat < 2 ^ 32)
    {k : Nat} (hk : k < jt.count.toNat) :
    jt.readSeed img k =
      if readable img (jt.elementAddr k) 4 then
        let e := wordAt img (jt.elementAddr k - img.loadAddress.toNat)
        if e = 0 then none else some (jt.seed k (e &&& ~~~1) e)
      else none := by
  have hea := elementAddr_toNat hspace hk
  by_cases hin : readable img (jt.elementAddr k) 4
  · have hcontains : img.contains (jt.addr + UInt32.ofNat k * jt.stride) 4 := by
      rwa [contains_iff, hea]
    have hword : img.u32 (jt.addr + UInt32.ofNat k * jt.stride) =
        wordAt img (jt.elementAddr k - img.loadAddress.toNat) := by
      unfold BankImage.u32 wordAt
      rw [UInt32.toNat_sub_of_le _ _ hcontains.1, hea]
    rw [if_pos hin, ← hword]
    unfold readSeed
    dsimp only
    rw [if_pos hcontains]
  · rw [if_neg hin, readSeed_eq_none hspace hk hin]

/-- The upper halfword of a word is empty where its two bytes are. -/
theorem wordAt_high (img : BankImage) (o : Nat) :
    (wordAt img o).toNat =
        (img.u16At o).toNat +
          2 ^ 16 * ((img.bytes.getD (o + 2) 0).toNat + 2 ^ 8 * (img.bytes.getD (o + 3) 0).toNat) ∧
      (img.u16At o).toNat < 2 ^ 16 :=
  wordOf_toNat _ _ _ _

/-- What the two bytes behind a 16-bit element have to be for the 32-bit read to
give its seed. -/
theorem halfword_read_iff (jt : ConfigJumpTable) (img : BankImage) (k o : Nat) :
    (if wordAt img o = 0 then none else some (jt.seed k (wordAt img o &&& ~~~1) (wordAt img o))) =
        (if img.u16At o = 0 then none
          else some (jt.seed k (img.u16At o &&& ~~~1) (img.u16At o))) ↔
      img.bytes.getD (o + 2) 0 = 0 ∧ img.bytes.getD (o + 3) 0 = 0 := by
  obtain ⟨hword, hhalf⟩ := wordAt_high img o
  have hzero : ∀ w : UInt32, w = 0 ↔ w.toNat = 0 := fun w => UInt32.toNat_inj.symm
  have hbyte : ∀ b : UInt8, b = 0 ↔ b.toNat = 0 := fun b => UInt8.toNat_inj.symm
  rw [hbyte, hbyte]
  constructor
  · intro heq
    have htarget : (wordAt img o).toNat / 2 ^ 16 = (img.u16At o).toNat / 2 ^ 16 := by
      split at heq
      · next hw =>
          rw [hzero] at hw
          omega
      · split at heq
        · exact absurd heq (by simp)
        · have hseed := Option.some.inj heq
          unfold seed at hseed
          have haddr := congrArg FunctionSeed.addr hseed
          change wordAt img o &&& ~~~1 = img.u16At o &&& ~~~1 at haddr
          rw [← clearBit0_high, haddr, clearBit0_high]
    omega
  · rintro ⟨h2, h3⟩
    have hsame : wordAt img o = img.u16At o := by
      rw [← UInt32.toNat_inj]
      omega
    rw [hsame]

theorem element_word (img : BankImage) (hformat : jt.format ≠ .abs16) (k : Nat) :
    jt.element img k =
      if readable img (jt.elementAddr k) 4 then
        some (wordAt img (jt.elementAddr k - img.loadAddress.toNat))
      else none := by
  unfold element width
  rw [if_neg hformat]
  simp only [if_neg hformat]
  rfl

theorem element_half (img : BankImage) (hformat : jt.format = .abs16) (k : Nat) :
    jt.element img k =
      if readable img (jt.elementAddr k) 2 then
        some (img.u16At (jt.elementAddr k - img.loadAddress.toNat))
      else none := by
  unfold element width
  rw [if_pos hformat]
  simp only [if_pos hformat]

theorem abs32_iff (hspace : jt.addr.toNat + jt.count.toNat * jt.stride.toNat < 2 ^ 32)
    (hformat : jt.format = .abs32) {k : Nat} (hk : k < jt.count.toNat) :
    jt.addedSeed img k = jt.denoted relative img k ↔
      (readable img (jt.elementAddr k) jt.width → jt.ElementFits img k) := by
  have hwidth : jt.width = 4 := by simp [width, hformat]
  have htarget : ∀ e, jt.target relative e = e &&& ~~~1 := by
    intro e
    simp [target, pcRelative, hformat]
  unfold addedSeed denoted ElementFits
  rw [readSeed_eq hspace hk, hwidth, hformat]
  have hnot : jt.format ≠ .abs16 := by
    rw [hformat]
    decide
  simp only [element_word img hnot, htarget]
  by_cases hin : readable img (jt.elementAddr k) 4
  · by_cases hzero : wordAt img (jt.elementAddr k - img.loadAddress.toNat) = 0
    · simp [hin, hzero]
    · by_cases hbase : img.loadAddress ≤ jt.addr <;> simp [hin, hzero, hbase]
  · simp [hin]

theorem abs16_iff (hspace : jt.addr.toNat + jt.count.toNat * jt.stride.toNat < 2 ^ 32)
    (hformat : jt.format = .abs16) {k : Nat} (hk : k < jt.count.toNat) :
    jt.addedSeed img k = jt.denoted relative img k ↔
      (readable img (jt.elementAddr k) jt.width → jt.ElementFits img k) := by
  have hwidth : jt.width = 2 := by simp [width, hformat]
  have htarget : ∀ e, jt.target relative e = e &&& ~~~1 := by
    intro e
    simp [target, pcRelative, hformat]
  have hshort : readable img (jt.elementAddr k) 4 → readable img (jt.elementAddr k) 2 :=
    fun h => ⟨h.1, by have := h.2; omega⟩
  have hhalf := halfword_read_iff jt img k (jt.elementAddr k - img.loadAddress.toNat)
  unfold addedSeed denoted ElementFits
  rw [readSeed_eq hspace hk, hwidth, hformat]
  simp only [element_half img hformat, htarget]
  by_cases hin : readable img (jt.elementAddr k) 2
  · by_cases hread : img.loadAddress ≤ jt.addr ∧ readable img (jt.elementAddr k) 4
    · simp only [if_pos hin, if_pos hread.1, if_pos hread.2, if_pos hread, Option.bind_some]
      rw [hhalf]
      exact ⟨fun h _ => h, fun h => h hin⟩
    · -- the loop has stopped, so the element has to be empty
      have hnone : (if img.loadAddress ≤ jt.addr then
          if readable img (jt.elementAddr k) 4 then
            if wordAt img (jt.elementAddr k - img.loadAddress.toNat) = 0 then none
            else some (jt.seed k (wordAt img (jt.elementAddr k - img.loadAddress.toNat) &&& ~~~1)
              (wordAt img (jt.elementAddr k - img.loadAddress.toNat)))
          else none
        else none) = none := by
        by_cases hbase : img.loadAddress ≤ jt.addr
        · rw [if_pos hbase, if_neg fun h => hread ⟨hbase, h⟩]
        · rw [if_neg hbase]
      rw [hnone]
      simp only [if_pos hin, if_neg hread, Option.bind_some]
      by_cases hzero : img.u16At (jt.elementAddr k - img.loadAddress.toNat) = 0 <;>
        simp [hin, hzero]
  · have hlong : ¬ readable img (jt.elementAddr k) 4 := fun h => hin (hshort h)
    simp [hin, hlong]

theorem pcrel_iff (relative : UInt32 → UInt32 → UInt32) (img : BankImage)
    (hspace : jt.addr.toNat + jt.count.toNat * jt.stride.toNat < 2 ^ 32)
    (hformat : jt.pcRelative = true) {k : Nat} (hk : k < jt.count.toNat) :
    (jt.addedSeed img k = jt.denoted relative img k ∧
        ∀ s e, jt.addedSeed img k = some s → jt.element img k = some e → s.addr ≠ e &&& ~~~1) ↔
      (readable img (jt.elementAddr k) jt.width → jt.ElementFits img k) := by
  have hcases : jt.format = .pcrelArm ∨ jt.format = .pcrelThumb := by
    simpa [pcRelative] using hformat
  have hnot : jt.format ≠ .abs16 := by rcases hcases with h | h <;> rw [h] <;> decide
  have hwidth : jt.width = 4 := by simp [width, hnot]
  have hfits : jt.ElementFits img k ↔ jt.element img k = some 0 := by
    unfold ElementFits
    rcases hcases with h | h <;> rw [h]
  unfold addedSeed denoted
  rw [hfits, readSeed_eq hspace hk, hwidth]
  simp only [element_word img hnot]
  by_cases hin : readable img (jt.elementAddr k) 4
  · by_cases hzero : wordAt img (jt.elementAddr k - img.loadAddress.toNat) = 0
    · simp [hin, hzero]
    · by_cases hbase : img.loadAddress ≤ jt.addr
      · simp [hin, hzero, hbase, seed]
      · simp [hin, hzero, hbase]
  · simp [hin]

/-! ### The whole table -/

theorem dataRange_iff :
    jt.dataRange.2.toNat = jt.addr.toNat + jt.count.toNat * jt.stride.toNat ↔
      jt.addr.toNat + jt.count.toNat * jt.stride.toNat < 2 ^ 32 := by
  unfold dataRange
  constructor
  · intro h
    rw [← h]
    exact UInt32.toNat_lt _
  · intro h
    rw [UInt32.toNat_add, UInt32.toNat_mul, Nat.add_mod_mod, Nat.mod_eq_of_lt h]

/-- The relative elements' own values, index by index. -/
theorem relative_iff (hspace : jt.addr.toNat + jt.count.toNat * jt.stride.toNat < 2 ^ 32) :
    (∀ s ∈ jt.seeds img, ∀ e, jt.element img s.1 = some e → s.2.addr ≠ e &&& ~~~1) ↔
      ∀ k < jt.count.toNat, ∀ s e, jt.addedSeed img k = some s → jt.element img k = some e →
        s.addr ≠ e &&& ~~~1 := by
  rw [seeds_eq hspace]
  constructor
  · intro h k hk s e hs he
    refine h (k, s) (List.mem_filterMap.mpr ⟨k, List.mem_range.mpr hk, ?_⟩) e he
    rw [hs]
    rfl
  · intro h s hs e he
    obtain ⟨k, hk, hmap⟩ := List.mem_filterMap.mp hs
    obtain ⟨t, ht, rfl⟩ := Option.map_eq_some_iff.mp hmap
    exact h k (List.mem_range.mp hk) t e ht he

theorem element_iff (relative : UInt32 → UInt32 → UInt32) (img : BankImage)
    (hspace : jt.addr.toNat + jt.count.toNat * jt.stride.toNat < 2 ^ 32)
    {k : Nat} (hk : k < jt.count.toNat) :
    (jt.addedSeed img k = jt.denoted relative img k ∧
        (jt.pcRelative = true → ∀ s e, jt.addedSeed img k = some s → jt.element img k = some e →
          s.addr ≠ e &&& ~~~1)) ↔
      (readable img (jt.elementAddr k) jt.width → jt.ElementFits img k) := by
  cases hrel : jt.pcRelative with
  | true => simpa [hrel] using pcrel_iff relative img hspace hrel hk
  | false =>
      simp only [Bool.false_eq_true, false_implies, and_true]
      cases hformat : jt.format with
      | abs32 => exact abs32_iff hspace hformat hk
      | abs16 => exact abs16_iff hspace hformat hk
      | pcrelArm => simp [pcRelative, hformat] at hrel
      | pcrelThumb => simp [pcRelative, hformat] at hrel

theorem Exact.fits (h : jt.Exact relative img) : jt.Fits img := by
  obtain ⟨hseeds, hraw, -, hstop⟩ := h
  have hspace := dataRange_iff.mp hstop
  rw [seeds_eq hspace, filterMap_index_inj] at hseeds
  refine ⟨hspace, fun k hk => (element_iff relative img hspace hk).mp ⟨hseeds k hk, fun hrel => ?_⟩⟩
  exact (relative_iff hspace).mp (hraw hrel) k hk

theorem Fits.exact (h : jt.Fits img) : jt.Exact relative img := by
  obtain ⟨hspace, heach⟩ := h
  have hboth := fun k hk => (element_iff relative img hspace hk).mpr (heach k hk)
  refine ⟨?_, fun hrel => ?_, rfl, dataRange_iff.mpr hspace⟩
  · rw [seeds_eq hspace, filterMap_index_inj]
    exact fun k hk => (hboth k hk).1
  · exact (relative_iff hspace).mpr fun k hk => (hboth k hk).2 hrel

/-- The expansion of an accepted table is the declared one exactly where no
address wraps and every element in the image fits the way the loop reads it. -/
theorem exact_iff (jt : ConfigJumpTable) (relative : UInt32 → UInt32 → UInt32) (img : BankImage) :
    jt.Exact relative img ↔ jt.Fits img :=
  ⟨Exact.fits, Fits.exact⟩

/-- Two 16-bit pointers in an image of six bytes. -/
def halfTable : ConfigJumpTable where
  addr := 0x02000000
  stride := 2
  count := 2
  format := .abs16
  entriesMode := .thumb
  name := ['t']
  allowed := rfl

/-- The first seed holds the second element's bytes too. -/
theorem expansion_reads_past_element :
    ¬ halfTable.Exact (· + ·) ⟨[0x00, 0x10, 0x00, 0x20, 0x00, 0x00], 0x02000000⟩ := by
  intro h
  have hfirst := h.fits.each 0 (by decide) (by decide)
  exact absurd hfirst.2 (by decide)

end ConfigJumpTable

end NdsRecomp.Recompiler
