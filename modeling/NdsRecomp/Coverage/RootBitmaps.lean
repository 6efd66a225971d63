import NdsRecomp.Coverage.PageStore
import NdsRecomp.Library.Base64

/-!
The roots of a page as the runner writes them and as the two tools read them:
two bitmaps in base64 and sixteen counters. The counters of the runner have 64
bits; those of `RootBits` are counts, of which they are the remainders.
-/

namespace NdsRecomp.CoverageManifest

open Library

/-! ### The runner -/

inductive RootMode where
  | arm
  | thumb
deriving DecidableEq

/-- `MODE_STRIDE`. -/
def RootMode.stride : RootMode → Nat
  | arm => 4
  | thumb => 2

def RootMode.isThumb : RootMode → Bool
  | arm => false
  | thumb => true

/-- An observed root, at its offset in the page. -/
structure RootNote where
  mode : RootMode
  offset : Nat
  inside : offset < kPageSize
  aligned : offset % mode.stride = 0
deriving DecidableEq

/-- The roots of a page behind a run of observations. -/
def rootsAfter (notes : List RootNote) : RootBits :=
  notes.foldl (fun roots note => roots.note note.offset note.mode.isThumb) {}

def kRootArmBytes : Nat := 128

def kRootThumbBytes : Nat := 256

/-- The bytes of the bitmap of a mode. -/
def RootBits.bitmap (roots : RootBits) : RootMode → List UInt8
  | .arm => (List.range kRootArmBytes).map roots.arm
  | .thumb => (List.range kRootThumbBytes).map roots.thumb

/-- A counter of the runner. -/
def RootBits.counter (roots : RootBits) (block : Nat) : UInt64 := UInt64.ofNat (roots.hits block)

/-- The fields of a manifest record that hold roots; an absent one is `none`. -/
structure RootRecord where
  rootArm : Option (List Char)
  rootThumb : Option (List Char)
  rootHits : Option (List Nat)
deriving DecidableEq

def anyBits (data : List UInt8) : Bool := data.any fun byte => byte != 0

def bitmapField (data : List UInt8) : Option (List Char) :=
  if anyBits data then some (Base64.encode data) else none

/-- The sum that decides whether the counters are written. -/
def RootBits.total (roots : RootBits) : UInt64 :=
  (List.range kRootBlocks).foldl (fun total i => total + roots.counter i) 0

def appendRootBits (roots : RootBits) : RootRecord where
  rootArm := bitmapField (roots.bitmap .arm)
  rootThumb := bitmapField (roots.bitmap .thumb)
  rootHits :=
    if roots.total = 0 then none
    else some ((List.range kRootBlocks).map fun i => (roots.counter i).toNat)

/-! ### The readers -/

/-- The order of `sorted` on address and mode. -/
def rootLe (a b : Nat × RootMode) : Bool :=
  decide (a.1 < b.1) || decide (a.1 = b.1) && (decide (a.2 = .arm) || decide (b.2 = .thumb))

/-- The loop over one bitmap. -/
def foundIn (base : Nat) (mode : RootMode) (blob : Option (List Char)) : List (Nat × RootMode) :=
  match blob with
  | none => []
  | some text =>
      let raw := Base64.decode text
      (List.range raw.length).flatMap fun byteIndex =>
        if raw.getD byteIndex 0 = 0 then []
        else (List.range 8).filterMap fun bit =>
          if raw.getD byteIndex 0 &&& UInt8.ofNat (2 ^ bit) ≠ 0 then
            some (base + (byteIndex * 8 + bit) * mode.stride, mode)
          else none

def found (record : RootRecord) (base : Nat) : List (Nat × RootMode) :=
  foundIn base .arm record.rootArm ++ foundIn base .thumb record.rootThumb

def blockOf (base perBlock pageSize addr : Nat) : Nat :=
  min ((addr - base) * perBlock / pageSize) (perBlock - 1)

/-- The loop that spreads the counters; `remainder` is what is left of each. -/
def spread (blocks : List Nat) (block : Nat → Nat) (per : Nat → Nat) :
    (Nat → Nat) → List (Nat × RootMode) → List ((Nat × RootMode) × Nat)
  | _, [] => []
  | remainder, root :: roots =>
      let b := block root.1
      let share := blocks.getD b 0 / per b
      if remainder b ≠ 0 then
        (root, share + 1) :: spread blocks block per (Function.update remainder b (remainder b - 1))
          roots
      else (root, share) :: spread blocks block per remainder roots

/-- `Counter(block_of(addr) for addr, _ in found)`. -/
def perBlockCount (block : Nat → Nat) (roots : List (Nat × RootMode)) (b : Nat) : Nat :=
  roots.countP fun root => block root.1 = b

def rootAddresses (record : RootRecord) (base : Nat) : List ((Nat × RootMode) × Nat) :=
  let blocks := record.rootHits.getD []
  let perBlock := blocks.length
  let roots := found record base
  if perBlock = 0 then roots.map fun root => (root, 0)
  else
    let block := blockOf base perBlock 4096
    let per := perBlockCount block roots
    let remainder (b : Nat) := if per b = 0 then 0 else blocks.getD b 0 % per b
    spread blocks block per remainder (roots.mergeSort rootLe)

structure RootEntry where
  addr : Nat
  mode : RootMode
  hits : Nat
  kind : String
deriving DecidableEq

def PAGE_SIZE : Nat := 4096

def rootEntries (page : RootRecord) (base : Nat) : List RootEntry :=
  let blocks := page.rootHits.getD []
  let perBlock := blocks.length
  let roots := found page base
  if roots = [] then []
  else if perBlock = 0 then roots.map fun root => ⟨root.1, root.2, 0, "root"⟩
  else
    let block := blockOf base perBlock PAGE_SIZE
    let per := perBlockCount block roots
    let remainder (b : Nat) := if per b = 0 then 0 else blocks.getD b 0 % per b
    (spread blocks block per remainder (roots.mergeSort rootLe)).map fun root =>
      ⟨root.1.1, root.1.2, root.2, "root"⟩

theorem rootEntries_eq (page : RootRecord) (base : Nat) :
    rootEntries page base =
      (rootAddresses page base).map fun root => ⟨root.1.1, root.1.2, root.2, "root"⟩ := by
  unfold rootEntries rootAddresses PAGE_SIZE
  dsimp only
  by_cases hroots : found page base = []
  · rw [if_pos hroots, hroots, List.mergeSort_nil]
    split <;> rfl
  · rw [if_neg hroots]
    split
    · rw [List.map_map]
      rfl
    · rfl

/-! ### Bits -/

def RootBits.bytes (roots : RootBits) : RootMode → Nat → UInt8
  | .arm => roots.arm
  | .thumb => roots.thumb

/-- Bit `i` of the bitmap of a mode. -/
def RootBits.marked (roots : RootBits) (mode : RootMode) (i : Nat) : Bool :=
  (roots.bytes mode (i / 8)).toNat.testBit (i % 8)

theorem or_two_pow_testBit (b : UInt8) {k j : Nat} (hk : k < 8) :
    (b ||| UInt8.ofNat (2 ^ k)).toNat.testBit j = (b.toNat.testBit j || decide (k = j)) := by
  have hpow : 2 ^ k < 256 := Nat.pow_lt_pow_right (a := 2) (by decide) hk
  rw [UInt8.toNat_or, Nat.testBit_or, UInt8.toNat_ofNat_of_lt' hpow, Nat.testBit_two_pow]

theorem and_two_pow_ne_zero (b : UInt8) {k : Nat} (hk : k < 8) :
    b &&& UInt8.ofNat (2 ^ k) ≠ 0 ↔ b.toNat.testBit k = true := by
  have hpow : 2 ^ k < 256 := Nat.pow_lt_pow_right (a := 2) (by decide) hk
  rw [ne_eq, ← UInt8.toNat_inj, UInt8.toNat_and, UInt8.toNat_ofNat_of_lt' hpow,
    Nat.and_two_pow]
  cases b.toNat.testBit k <;> simp

theorem note_marked (roots : RootBits) (note : RootNote) (mode : RootMode) (i : Nat) :
    (roots.note note.offset note.mode.isThumb).marked mode i =
      (roots.marked mode i || decide (mode = note.mode ∧ i = note.offset / note.mode.stride)) := by
  have hmark (bytes : Nat → UInt8) (bit : Nat) :
      (Function.update bytes (bit / 8) (bytes (bit / 8) ||| UInt8.ofNat (2 ^ (bit % 8)))
        (i / 8)).toNat.testBit (i % 8) =
        ((bytes (i / 8)).toNat.testBit (i % 8) || decide (i = bit)) := by
    by_cases hbyte : i / 8 = bit / 8
    · have hsame : bit % 8 = i % 8 ↔ i = bit := by omega
      rw [hbyte, Function.update_self, or_two_pow_testBit _ (Nat.mod_lt _ (by decide))]
      simp only [hsame]
    · have hne : i ≠ bit := fun h => hbyte (by rw [h])
      rw [Function.update_of_ne hbyte]
      simp [hne]
  cases hnote : note.mode <;> cases mode <;>
    simp [RootBits.marked, RootBits.note, RootBits.bytes, RootMode.isThumb, RootMode.stride, hmark]

theorem note_hits (roots : RootBits) (note : RootNote) (block : Nat) :
    (roots.note note.offset note.mode.isThumb).hits block =
      roots.hits block + if note.offset / 256 = block then 1 else 0 := by
  have hblock : note.offset * kRootBlocks / kPageSize = note.offset / 256 := by
    unfold kRootBlocks kPageSize
    omega
  have hhits : (roots.note note.offset note.mode.isThumb).hits =
      Function.update roots.hits (note.offset / 256) (roots.hits (note.offset / 256) + 1) := by
    unfold RootBits.note
    rw [hblock]
    cases note.mode <;> rfl
  rw [hhits]
  by_cases h : note.offset / 256 = block
  · rw [if_pos h, ← h, Function.update_self]
  · rw [if_neg h, Function.update_of_ne (Ne.symm h)]
    rfl

/-- The bits of a run are its observations. -/
theorem rootsAfter_marked (notes : List RootNote) (mode : RootMode) (i : Nat) :
    (rootsAfter notes).marked mode i = true ↔
      ∃ note ∈ notes, note.mode = mode ∧ note.offset = i * mode.stride := by
  have hrun (roots : RootBits) : (notes.foldl
      (fun roots note => roots.note note.offset note.mode.isThumb) roots).marked mode i = true ↔
        roots.marked mode i = true ∨
          ∃ note ∈ notes, note.mode = mode ∧ note.offset = i * mode.stride := by
    induction notes generalizing roots with
    | nil => simp
    | cons note notes ih =>
        have hindex : mode = note.mode ∧ i = note.offset / note.mode.stride ↔
            note.mode = mode ∧ note.offset = i * mode.stride := by
          have haligned := note.aligned
          constructor
          · rintro ⟨rfl, rfl⟩
            exact ⟨rfl, (Nat.div_mul_cancel (Nat.dvd_of_mod_eq_zero haligned)).symm⟩
          · rintro ⟨rfl, hoffset⟩
            rw [hoffset]
            refine ⟨rfl, (Nat.mul_div_cancel i ?_).symm⟩
            cases note.mode <;> decide
        rw [List.foldl_cons, ih, note_marked, Bool.or_eq_true, decide_eq_true_eq, hindex, or_assoc]
        simp only [List.mem_cons, exists_eq_or_imp]
  have hempty : ({} : RootBits).marked mode i = false := by
    cases mode <;> exact Nat.zero_testBit _
  rw [rootsAfter, hrun, hempty]
  simp

/-- The counts of a run. -/
theorem rootsAfter_hits (notes : List RootNote) (block : Nat) :
    (rootsAfter notes).hits block = notes.countP fun note => note.offset / 256 = block := by
  have hrun (roots : RootBits) : (notes.foldl
      (fun roots note => roots.note note.offset note.mode.isThumb) roots).hits block =
        roots.hits block + notes.countP fun note => note.offset / 256 = block := by
    induction notes generalizing roots with
    | nil => rfl
    | cons note notes ih =>
        rw [List.foldl_cons, ih, note_hits, List.countP_cons]
        simp only [decide_eq_true_eq]
        omega
  exact (hrun {}).trans (Nat.zero_add _)

/-! ### What the readers find -/

/-- A loop over bytes and bits is a loop over all bits. -/
theorem flatMap_bits {α : Type} (g : Nat → Option α) (n : Nat) :
    (List.range n).flatMap (fun byte => (List.range 8).filterMap fun bit => g (byte * 8 + bit)) =
      (List.range (n * 8)).filterMap g := by
  induction n with
  | zero => rfl
  | succ n ih =>
      rw [@List.range_succ n, List.flatMap_append, ih, Nat.succ_mul, @List.range_add (n * 8) 8,
        List.filterMap_append, List.filterMap_map]
      simp only [List.flatMap_cons, List.flatMap_nil, List.append_nil, Function.comp_def]

def RootMode.bits : RootMode → Nat
  | .arm => kRootArmBytes * 8
  | .thumb => kRootThumbBytes * 8

theorem bitmap_getD (roots : RootBits) (mode : RootMode) {i : Nat} (h : i < mode.bits) :
    (roots.bitmap mode).getD (i / 8) 0 = roots.bytes mode (i / 8) := by
  cases mode <;>
    simp only [RootMode.bits, kRootArmBytes, kRootThumbBytes] at h <;>
    simp only [RootBits.bitmap, RootBits.bytes, kRootArmBytes, kRootThumbBytes] <;>
    rw [List.getD_eq_getElem?_getD, List.getElem?_map, List.getElem?_range (by omega)] <;> rfl

theorem bitmap_length (roots : RootBits) (mode : RootMode) :
    (roots.bitmap mode).length * 8 = mode.bits := by
  cases mode <;> simp [RootBits.bitmap, RootMode.bits]

/-- The marked addresses of a mode, in order. -/
def RootBits.list (roots : RootBits) (base : Nat) (mode : RootMode) : List (Nat × RootMode) :=
  (List.range mode.bits).filterMap fun i =>
    if roots.marked mode i then some (base + i * mode.stride, mode) else none

theorem foundIn_eq (roots : RootBits) (base : Nat) (mode : RootMode) :
    foundIn base mode (bitmapField (roots.bitmap mode)) = roots.list base mode := by
  have hbit {byte bit : Nat} (hbit : bit < 8) (hbyte : byte < (roots.bitmap mode).length) :
      (roots.bitmap mode).getD byte 0 &&& UInt8.ofNat (2 ^ bit) ≠ 0 ↔
        roots.marked mode (byte * 8 + bit) = true := by
    have hlength := bitmap_length roots mode
    have hdiv : (byte * 8 + bit) / 8 = byte := by omega
    have hmod : (byte * 8 + bit) % 8 = bit := by omega
    have hread := bitmap_getD roots mode (by omega : byte * 8 + bit < mode.bits)
    rw [hdiv] at hread
    rw [RootBits.marked, hdiv, hmod, hread, and_two_pow_ne_zero _ hbit]
  have hlist : roots.list base mode = (List.range (roots.bitmap mode).length).flatMap fun byte =>
      (List.range 8).filterMap fun bit =>
        if roots.marked mode (byte * 8 + bit) then
          some (base + (byte * 8 + bit) * mode.stride, mode)
        else none := by
    rw [flatMap_bits fun i => if roots.marked mode i then some (base + i * mode.stride, mode) else
      none, bitmap_length]
    rfl
  unfold foundIn bitmapField
  by_cases hany : anyBits (roots.bitmap mode) = true
  · rw [if_pos hany]
    dsimp only
    rw [Base64.decode_encode, hlist]
    refine List.flatMap_congr fun byte hbyte => ?_
    have hbyte := List.mem_range.mp hbyte
    by_cases hzero : (roots.bitmap mode).getD byte 0 = 0
    · rw [if_pos hzero]
      symm
      rw [List.filterMap_eq_nil_iff]
      intro bit hb
      have hmarked := hbit (List.mem_range.mp hb) hbyte
      rw [hzero] at hmarked
      rw [if_neg (by simpa using hmarked)]
    · rw [if_neg hzero]
      refine List.filterMap_congr fun bit hb => ?_
      have hmarked := hbit (List.mem_range.mp hb) hbyte
      simp only [hmarked]
  · rw [if_neg hany, hlist]
    symm
    rw [List.flatMap_eq_nil_iff]
    intro byte hbyte
    have hbyte := List.mem_range.mp hbyte
    rw [List.filterMap_eq_nil_iff]
    intro bit hb
    have hzero : (roots.bitmap mode).getD byte 0 = 0 := by
      by_contra hne
      refine hany (List.any_eq_true.mpr ⟨(roots.bitmap mode).getD byte 0, ?_, by simpa using hne⟩)
      rw [List.getD_eq_getElem?_getD, List.getElem?_eq_getElem hbyte]
      exact List.getElem_mem hbyte
    have hmarked := hbit (List.mem_range.mp hb) hbyte
    rw [hzero] at hmarked
    rw [if_neg (by simpa using hmarked)]

theorem found_eq (roots : RootBits) (base : Nat) :
    found (appendRootBits roots) base = roots.list base .arm ++ roots.list base .thumb := by
  unfold found appendRootBits
  dsimp only
  rw [foundIn_eq, foundIn_eq]

theorem mem_list (roots : RootBits) (base : Nat) (mode : RootMode) (root : Nat × RootMode) :
    root ∈ roots.list base mode ↔
      root.2 = mode ∧
        ∃ i < mode.bits, roots.marked mode i = true ∧ root.1 = base + i * mode.stride := by
  unfold RootBits.list
  rw [List.mem_filterMap]
  constructor
  · rintro ⟨i, hi, hsome⟩
    split at hsome
    · rename_i hmarked
      obtain rfl := Option.some.inj hsome
      exact ⟨rfl, i, List.mem_range.mp hi, hmarked, rfl⟩
    · cases hsome
  · rintro ⟨rfl, i, hi, hmarked, haddr⟩
    refine ⟨i, List.mem_range.mpr hi, ?_⟩
    rw [if_pos hmarked, ← haddr]

theorem stride_pos (mode : RootMode) : 0 < mode.stride := by
  cases mode <;> decide

theorem list_nodup (roots : RootBits) (base : Nat) (mode : RootMode) :
    (roots.list base mode).Nodup := by
  refine List.Nodup.filterMap (fun i j root hi hj => ?_) List.nodup_range
  rw [Option.mem_def] at hi hj
  split at hi
  · split at hj
    · have heq := (Prod.mk.inj (Option.some.inj (hi.trans hj.symm))).1
      exact Nat.eq_of_mul_eq_mul_right (stride_pos mode) (Nat.add_left_cancel heq)
    · cases hj
  · cases hi

theorem found_nodup (roots : RootBits) (base : Nat) :
    (found (appendRootBits roots) base).Nodup := by
  rw [found_eq]
  refine List.Nodup.append (list_nodup roots base .arm) (list_nodup roots base .thumb) ?_
  intro root harm hthumb
  have hmode := ((mem_list _ _ _ _).mp harm).1
  rw [((mem_list _ _ _ _).mp hthumb).1] at hmode
  cases hmode

/-- Exactly the observed addresses, with their modes. -/
theorem mem_found_iff (notes : List RootNote) (base : Nat) (root : Nat × RootMode) :
    root ∈ found (appendRootBits (rootsAfter notes)) base ↔
      ∃ note ∈ notes, root = (base + note.offset, note.mode) := by
  have hmem (mode : RootMode) : root ∈ (rootsAfter notes).list base mode ↔
      root.2 = mode ∧ ∃ note ∈ notes, note.mode = mode ∧ root.1 = base + note.offset := by
    rw [mem_list]
    refine and_congr_right fun _ => ?_
    constructor
    · rintro ⟨i, _, hmarked, haddr⟩
      obtain ⟨note, hnote, hmode, hoffset⟩ := (rootsAfter_marked notes mode i).mp hmarked
      exact ⟨note, hnote, hmode, by rw [haddr, hoffset]⟩
    · rintro ⟨note, hnote, rfl, haddr⟩
      have hdiv := Nat.div_mul_cancel (Nat.dvd_of_mod_eq_zero note.aligned)
      refine ⟨note.offset / note.mode.stride, ?_, ?_, by rw [hdiv, haddr]⟩
      · have hinside := note.inside
        unfold kPageSize at hinside
        rw [Nat.div_lt_iff_lt_mul (stride_pos _)]
        cases note.mode <;> exact hinside
      · exact (rootsAfter_marked notes note.mode _).mpr ⟨note, hnote, rfl, hdiv.symm⟩
  rw [found_eq, List.mem_append, hmem, hmem]
  constructor
  · rintro (⟨hmode, note, hnote, hnoteMode, haddr⟩ | ⟨hmode, note, hnote, hnoteMode, haddr⟩) <;>
      exact ⟨note, hnote, Prod.ext haddr (hmode.trans hnoteMode.symm)⟩
  · rintro ⟨note, hnote, rfl⟩
    cases hmode : note.mode with
    | arm => exact .inl ⟨rfl, note, hnote, hmode, rfl⟩
    | thumb => exact .inr ⟨rfl, note, hnote, hmode, rfl⟩

/-! ### The hits -/

/-- The hits of the roots of a block. -/
def blockSum (block : Nat → Nat) (roots : List ((Nat × RootMode) × Nat)) (b : Nat) : Nat :=
  ((roots.filter fun root => block root.1.1 = b).map Prod.snd).sum

section Spread

variable (blocks : List Nat) (block per : Nat → Nat)

theorem spread_fst (remainder : Nat → Nat) (roots : List (Nat × RootMode)) :
    (spread blocks block per remainder roots).map Prod.fst = roots := by
  induction roots generalizing remainder with
  | nil => rfl
  | cons root roots ih =>
      unfold spread
      dsimp only
      split <;> rw [List.map_cons, ih]

/-- Every root of a block takes the share, and one more while there is a
remainder. -/
theorem spread_sum (remainder : Nat → Nat) (roots : List (Nat × RootMode)) (b : Nat) :
    blockSum block (spread blocks block per remainder roots) b =
      perBlockCount block roots b * (blocks.getD b 0 / per b) +
        min (remainder b) (perBlockCount block roots b) := by
  unfold blockSum perBlockCount
  induction roots generalizing remainder with
  | nil => simp [spread]
  | cons root roots ih =>
      unfold spread
      dsimp only
      rw [List.countP_cons]
      by_cases hblock : block root.1 = b
      · have hsucc (n m : Nat) : (n + 1) * m = m + n * m := by rw [Nat.succ_mul, Nat.add_comm]
        by_cases hleft : remainder (block root.1) ≠ 0
        · rw [if_pos hleft, List.filter_cons_of_pos (by simpa using hblock), List.map_cons,
            List.sum_cons, ih, hblock, Function.update_self]
          rw [hblock] at hleft
          simp only [decide_true, if_true, hsucc]
          omega
        · rw [if_neg hleft, List.filter_cons_of_pos (by simpa using hblock), List.map_cons,
            List.sum_cons, ih, hblock]
          rw [hblock] at hleft
          simp only [decide_true, if_true, hsucc]
          omega
      · have hskip (share : Nat) (rest : List ((Nat × RootMode) × Nat)) :
            ((root, share) :: rest).filter (fun root => decide (block root.1.1 = b)) =
              rest.filter fun root => decide (block root.1.1 = b) :=
          List.filter_cons_of_neg (by simpa using hblock)
        simp only [decide_eq_true_eq, hblock, if_false, Nat.add_zero]
        split
        · rw [hskip, ih, Function.update_of_ne (Ne.symm hblock)]
        · rw [hskip, ih]

/-- A counter is spread without a rest. -/
theorem spread_exact {roots : List (Nat × RootMode)} {b : Nat} (hper : per b = perBlockCount block
    roots b) (hsome : 0 < per b) {remainder : Nat → Nat}
    (hremainder : remainder b = blocks.getD b 0 % per b) :
    blockSum block (spread blocks block per remainder roots) b = blocks.getD b 0 := by
  have hlt := Nat.mod_lt (blocks.getD b 0) hsome
  rw [spread_sum, ← hper, hremainder, Nat.min_eq_left hlt.le]
  exact Nat.div_add_mod _ _

end Spread

/-- The record of a run read back: the same hits by both readers, the observed
roots, and the counter of every block that has one. -/
structure DecodesExactly (notes : List RootNote) (base : Nat) : Prop where
  entries : rootEntries (appendRootBits (rootsAfter notes)) base =
    (rootAddresses (appendRootBits (rootsAfter notes)) base).map fun root =>
      ⟨root.1.1, root.1.2, root.2, "root"⟩
  nodup : ((rootAddresses (appendRootBits (rootsAfter notes)) base).map Prod.fst).Nodup
  roots : ∀ root, root ∈ (rootAddresses (appendRootBits (rootsAfter notes)) base).map Prod.fst ↔
    ∃ note ∈ notes, root = (base + note.offset, note.mode)
  blocks : ∀ b, (∃ note ∈ notes, note.offset / 256 = b) →
    blockSum (fun addr => (addr - base) / 256)
      (rootAddresses (appendRootBits (rootsAfter notes)) base) b =
        ((rootsAfter notes).counter b).toNat

theorem counter_toNat (notes : List RootNote) (b : Nat) :
    ((rootsAfter notes).counter b).toNat =
      (notes.countP fun note => note.offset / 256 = b) % 2 ^ 64 := by
  rw [RootBits.counter, UInt64.toNat_ofNat', rootsAfter_hits]

theorem countP_block_succ (notes : List RootNote) (n : Nat) :
    (notes.countP fun note => note.offset / 256 < n + 1) =
      (notes.countP fun note => note.offset / 256 < n) +
        notes.countP fun note => note.offset / 256 = n := by
  induction notes with
  | nil => rfl
  | cons note notes ih =>
      rw [List.countP_cons, List.countP_cons, List.countP_cons, ih]
      simp only [decide_eq_true_eq]
      split <;> split <;> split <;> omega

/-- The counters add up to the number of observations. -/
theorem total_eq (notes : List RootNote) :
    (rootsAfter notes).total = UInt64.ofNat notes.length := by
  have hsum (n : Nat) : (List.range n).foldl
      (fun total i => total + (rootsAfter notes).counter i) 0 =
        UInt64.ofNat (notes.countP fun note => note.offset / 256 < n) := by
    induction n with
    | zero => simp
    | succ n ih =>
        rw [List.range_succ, List.foldl_append, ih, List.foldl_cons, List.foldl_nil,
          RootBits.counter, rootsAfter_hits, countP_block_succ, UInt64.ofNat_add]
  have hall : (notes.countP fun note => note.offset / 256 < kRootBlocks) = notes.length := by
    rw [List.countP_eq_length]
    intro note _
    have hinside := note.inside
    unfold kPageSize at hinside
    unfold kRootBlocks
    simp only [decide_eq_true_eq]
    omega
  rw [RootBits.total, hsum, hall]

/-- The counters are in the record, or there is nothing they would say of a block
with a root. -/
def HitsKept (notes : List RootNote) : Prop :=
  notes.length % 2 ^ 64 = 0 →
    ∀ note ∈ notes, (notes.countP fun other => other.offset / 256 = note.offset / 256) % 2 ^ 64 = 0

theorem rootAddresses_fst (record : RootRecord) (base : Nat) :
    ((rootAddresses record base).map Prod.fst).Perm (found record base) := by
  unfold rootAddresses
  dsimp only
  split
  · rw [List.map_map]
    simp [Function.comp_def]
  · rw [spread_fst]
    exact List.mergeSort_perm _ _

/-- Roots of one block share its count. -/
theorem exists_note_of_count {notes : List RootNote} (base : Nat) {b : Nat}
    (h : ∃ note ∈ notes, note.offset / 256 = b) :
    0 < perBlockCount (blockOf base 16 4096)
      (found (appendRootBits (rootsAfter notes)) base) b := by
  obtain ⟨note, hnote, rfl⟩ := h
  unfold perBlockCount
  rw [List.countP_pos_iff]
  refine ⟨_, (mem_found_iff notes base _).mpr ⟨note, hnote, rfl⟩, ?_⟩
  have hinside := note.inside
  unfold kPageSize at hinside
  unfold blockOf
  rw [decide_eq_true_eq]
  dsimp only
  omega

theorem rootAddresses_of_hits (notes : List RootNote) (base : Nat)
    (htotal : (rootsAfter notes).total ≠ 0) {b : Nat}
    (hmarked : ∃ note ∈ notes, note.offset / 256 = b) :
    blockSum (fun addr => (addr - base) / 256)
      (rootAddresses (appendRootBits (rootsAfter notes)) base) b =
        ((rootsAfter notes).counter b).toNat := by
  have hhits : (appendRootBits (rootsAfter notes)).rootHits =
      some ((List.range 16).map fun i => ((rootsAfter notes).counter i).toNat) := if_neg htotal
  have hlength :
      ((List.range 16).map fun i => ((rootsAfter notes).counter i).toNat).length = 16 := by
    simp
  obtain ⟨note, hnote, hoffset⟩ := hmarked
  have hblock : b < 16 := by
    have hinside := note.inside
    unfold kPageSize at hinside
    omega
  have hread : ((List.range 16).map fun i => ((rootsAfter notes).counter i).toNat).getD b 0 =
      ((rootsAfter notes).counter b).toNat := by
    rw [List.getD_eq_getElem?_getD, List.getElem?_map, List.getElem?_range hblock]
    rfl
  -- inside the page the readers' block is the writer's
  have hsame : blockSum (fun addr => (addr - base) / 256)
      (rootAddresses (appendRootBits (rootsAfter notes)) base) b =
        blockSum (blockOf base 16 4096)
          (rootAddresses (appendRootBits (rootsAfter notes)) base) b := by
    unfold blockSum
    congr 2
    refine List.filter_congr fun root hroot => ?_
    have hfound := (rootAddresses_fst _ base).mem_iff.mp (List.mem_map_of_mem hroot)
    obtain ⟨other, _, hother⟩ := (mem_found_iff notes base _).mp hfound
    have haddr : root.1.1 = base + other.offset := congrArg Prod.fst hother
    have hinside := other.inside
    unfold kPageSize at hinside
    unfold blockOf
    dsimp only
    rw [haddr, decide_eq_decide, Nat.add_sub_cancel_left]
    omega
  have hsome := exists_note_of_count base ⟨note, hnote, hoffset⟩
  have hsorted : perBlockCount (blockOf base 16 4096)
      ((found (appendRootBits (rootsAfter notes)) base).mergeSort rootLe) b =
        perBlockCount (blockOf base 16 4096)
          (found (appendRootBits (rootsAfter notes)) base) b :=
    (List.mergeSort_perm _ _).countP_eq _
  rw [hsame]
  unfold rootAddresses
  rw [hhits, Option.getD_some]
  dsimp only
  rw [hlength, if_neg (by decide), ← hread]
  refine spread_exact _ _ _ hsorted.symm hsome ?_
  rw [if_neg hsome.ne']

theorem rootAddresses_of_none (notes : List RootNote) (base : Nat)
    (htotal : (rootsAfter notes).total = 0) (b : Nat) :
    blockSum (fun addr => (addr - base) / 256)
      (rootAddresses (appendRootBits (rootsAfter notes)) base) b = 0 := by
  have hhits : (appendRootBits (rootsAfter notes)).rootHits = none := if_pos htotal
  unfold rootAddresses
  rw [hhits]
  dsimp only
  rw [Option.getD_none, List.length_nil, if_pos rfl, blockSum, List.sum_eq_zero]
  intro hits hmem
  obtain ⟨root, hroot, rfl⟩ := List.mem_map.mp hmem
  obtain ⟨_, _, rfl⟩ := List.mem_map.mp (List.mem_of_mem_filter hroot)
  rfl

theorem decodesExactly_iff (notes : List RootNote) (base : Nat) :
    DecodesExactly notes base ↔ HitsKept notes := by
  have htotal : (rootsAfter notes).total = 0 ↔ notes.length % 2 ^ 64 = 0 := by
    rw [total_eq, ← UInt64.toNat_inj, UInt64.toNat_ofNat']
    rfl
  constructor
  · intro h hlength note hnote
    have hsum := h.blocks _ ⟨note, hnote, rfl⟩
    rw [rootAddresses_of_none notes base (htotal.mpr hlength), counter_toNat] at hsum
    exact hsum.symm
  · intro hkept
    have hperm := rootAddresses_fst (appendRootBits (rootsAfter notes)) base
    refine ⟨rootEntries_eq _ _, hperm.nodup_iff.mpr (found_nodup _ _),
      fun root => hperm.mem_iff.trans (mem_found_iff notes base root), fun b hmarked => ?_⟩
    by_cases hzero : (rootsAfter notes).total = 0
    · obtain ⟨note, hnote, rfl⟩ := hmarked
      rw [rootAddresses_of_none notes base hzero, counter_toNat,
        hkept (htotal.mp hzero) note hnote]
    · exact rootAddresses_of_hits notes base hzero hmarked

/-- Fewer than 2^64 observations are always kept. -/
theorem hitsKept_of_lt {notes : List RootNote} (h : notes.length < 2 ^ 64) : HitsKept notes := by
  intro hlength note hnote
  rw [Nat.mod_eq_of_lt h, List.length_eq_zero_iff] at hlength
  rw [hlength] at hnote
  cases hnote

end NdsRecomp.CoverageManifest
