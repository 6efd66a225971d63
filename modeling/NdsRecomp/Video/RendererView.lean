import NdsRecomp.Library.WordRange
import NdsRecomp.Video.MappingMasks

/-!
What the renderers read: the flattened view of 16 KiB windows kept beside the
masks, and the copies of the texture and texture palette spaces. Both give the
bytes of the mapped read.
-/

namespace NdsRecomp.Video

open Bus Library

/-- The engine argument, zero or one. -/
inductive Engine where
  | a
  | b
deriving DecidableEq

/-- `NdsVramRendererView`; a pointer into `g_vram` is its offset there. -/
structure RendererView where
  bg : Nat → Option Nat
  obj : Nat → Option Nat

namespace VramState

/-- A mask never names a bank past the ninth. -/
def directChunk (mask : UInt16) (virtualBase : UInt32) : Option Nat :=
  if mask = 0 ∨ mask &&& (mask - 1) ≠ 0 then none
  else
    if h : lowestBit mask < 9 then
      let bank : VramBank := ⟨lowestBit mask, h⟩
      some (kBankOffset bank + (virtualBase &&& bankMask bank).toNat)
    else none

/-- `direct_chunk(map[chunk], chunk << 14u)` for the first `count` windows. -/
def directChunks (map : Nat → UInt16) (count chunk : Nat) : Option Nat :=
  if chunk < count then directChunk (map chunk) (UInt32.ofNat chunk <<< 14) else none

def refreshRendererViews (v : VramState) : Engine → RendererView
  | .a => { bg := directChunks v.abg 32, obj := directChunks v.aobj 16 }
  | .b => { bg := directChunks v.bbg 8, obj := directChunks v.bobj 8 }

def bankRead (v : VramState) (bank : VramBank) (addr : UInt32) (width : Width) : UInt32 :=
  loadBytes v.vram (kBankOffset bank + (addr &&& bankMask bank).toNat) width.bytes

def mappedRead (v : VramState) (mask : UInt16) (addr : UInt32) (width : Width) : UInt32 :=
  if mask ≠ 0 ∧ mask &&& (mask - 1) = 0 then
    if h : lowestBit mask < 9 then v.bankRead ⟨lowestBit mask, h⟩ addr width else 0
  else
    (List.finRange 9).foldl
      (fun value bank =>
        if maskHas mask bank then value ||| v.bankRead bank addr width else value) 0

def bgMask (v : VramState) (engine : Engine) (addr : UInt32) : UInt16 :=
  match engine with
  | .a => v.abg ((addr >>> 14).toNat % 32)
  | .b => v.bbg ((addr >>> 14).toNat % 8)

def objMask (v : VramState) (engine : Engine) (addr : UInt32) : UInt16 :=
  match engine with
  | .a => v.aobj ((addr >>> 14).toNat % 16)
  | .b => v.bobj ((addr >>> 14).toNat % 8)

/-- `nds_vram_read_bg` -/
def readBg (v : VramState) (engine : Engine) (addr : UInt32) (width : Width) : UInt32 :=
  v.mappedRead (v.bgMask engine addr) addr width

/-- `nds_vram_read_obj` -/
def readObj (v : VramState) (engine : Engine) (addr : UInt32) (width : Width) : UInt32 :=
  v.mappedRead (v.objMask engine addr) addr width

/-- One slot of `copy_slot_space`. -/
def copySlot (v : VramState) (dst : Nat → UInt8) (mask : UInt16) (base slotSize : Nat) :
    Nat → UInt8 :=
  if mask = 0 then fillRange dst base slotSize fun _ => 0
  else
    match directChunk mask (UInt32.ofNat base) with
    | some direct => fillRange dst base slotSize fun i => v.vram (direct + i)
    | none =>
        (List.range (slotSize / 4)).foldl
          (fun dst i => fillRange dst (base + 4 * i) 4
            (valueByte (v.mappedRead mask (UInt32.ofNat (base + 4 * i)) .word))) dst

def copySlotSpace (v : VramState) (dst : Nat → UInt8) (masks : Nat → UInt16)
    (slots slotSize : Nat) : Nat → UInt8 :=
  (List.range slots).foldl
    (fun dst s => v.copySlot dst (masks s) (slotSize * s) slotSize) dst

def copyTexture (v : VramState) (dst : Nat → UInt8) : Nat → UInt8 :=
  v.copySlotSpace dst v.texture 4 0x20000

def copyTexpal (v : VramState) (dst : Nat → UInt8) : Nat → UInt8 :=
  v.copySlotSpace dst v.texpal 8 0x4000

end VramState

/-- Video memory with the renderer views kept beside it. -/
structure ViewedVram where
  vram : VramState
  view : Engine → RendererView

namespace ViewedVram

def refreshed (v : VramState) : ViewedVram := { vram := v, view := v.refreshRendererViews }

/-- `nds_vram_map`; an unchanged value leaves the views alone. -/
def map (s : ViewedVram) (bank : VramBank) (value : UInt8) : ViewedVram :=
  if sanitize bank value = s.vram.cnt bank then s else refreshed (s.vram.ndsVramMap bank value)

def bgView8 (s : ViewedVram) (engine : Engine) (addr : UInt32) : UInt8 :=
  let chunk := (addr >>> 14).toNat % (if engine = .b then 8 else 32)
  match (s.view engine).bg chunk with
  | some direct => s.vram.vram (direct + (addr &&& 0x3FFF).toNat)
  | none => (s.vram.readBg engine addr .byte).toUInt8

def objView8 (s : ViewedVram) (engine : Engine) (addr : UInt32) : UInt8 :=
  let chunk := (addr >>> 14).toNat % (if engine = .b then 8 else 16)
  match (s.view engine).obj chunk with
  | some direct => s.vram.vram (direct + (addr &&& 0x3FFF).toNat)
  | none => (s.vram.readObj engine addr .byte).toUInt8

end ViewedVram

/-- `contents` is whatever stores and captures put into the banks. -/
inductive VramOp where
  | map (bank : VramBank) (value : UInt8)
  | contents (bytes : Nat → UInt8)

def vramSystem : OpSystem ViewedVram VramOp where
  initial := fun s => ∃ generation, s = .refreshed { textureGeneration := generation }
  admits := fun _ _ => True
  next := fun s op =>
    match op with
    | .map bank value => s.map bank value
    | .contents bytes => { s with vram := { s.vram with vram := bytes } }

/-! ### Bytes of a mapped read -/

theorem valueByte_zero (k : Nat) : valueByte 0 k = 0 := by
  unfold valueByte
  rw [UInt32.zero_shiftRight]
  rfl

theorem valueByte_or (a b : UInt32) (k : Nat) :
    valueByte (a ||| b) k = valueByte a k ||| valueByte b k := by
  unfold valueByte
  rw [UInt32.shiftRight_or, UInt32.toUInt8_or]

theorem toUInt8_eq_valueByte (value : UInt32) : value.toUInt8 = valueByte value 0 := by
  unfold valueByte
  rw [Nat.mul_zero]
  exact congrArg UInt32.toUInt8 UInt32.shiftRight_zero.symm

/-- Bit `j` of a little-endian load is bit `j % 8` of byte `j / 8`. -/
theorem getLsbD_loadBytes (bytes : Nat → UInt8) (offset : Nat) {len : Nat} (hlen : len ≤ 4)
    (j : Nat) :
    (loadBytes bytes offset len).toBitVec.getLsbD j =
      (decide (j < 8 * len) && (bytes (offset + j / 8)).toBitVec.getLsbD (j % 8)) := by
  induction len with
  | zero => simp [loadBytes]
  | succ len ih =>
      have hshift : ((UInt32.ofNat (8 * len)).toBitVec % 32).toNat = 8 * len := by
        rw [BitVec.toNat_umod, UInt32.toNat_toBitVec, UInt32.toNat_ofNat']
        change 8 * len % 2 ^ 32 % 32 = 8 * len
        omega
      unfold loadBytes
      rw [UInt32.toBitVec_or, BitVec.getLsbD_or, ih (by omega), UInt32.toBitVec_shiftLeft,
        BitVec.shiftLeft_eq', BitVec.getLsbD_shiftLeft, hshift, UInt8.toBitVec_toUInt32,
        BitVec.getLsbD_setWidth]
      rcases Nat.lt_trichotomy (j / 8) len with hbelow | rfl | habove
      · simp [show j < 8 * len by omega, show j < 8 * (len + 1) by omega]
      · have hbit : j - 8 * (j / 8) = j % 8 := by omega
        rw [hbit]
        simp [show ¬ j < 8 * (j / 8) by omega, show j < 8 * (j / 8 + 1) by omega,
          show j < 32 by omega, show j % 8 < 32 by omega]
      · have hout : (bytes (offset + len)).toBitVec.getLsbD (j - 8 * len) = false :=
          BitVec.getLsbD_of_ge _ _ (by omega)
        rw [hout]
        simp [show ¬ j < 8 * len by omega, show ¬ j < 8 * (len + 1) by omega]

theorem valueByte_loadBytes (bytes : Nat → UInt8) (offset : Nat) {len k : Nat} (hlen : len ≤ 4)
    (hk : k < len) : valueByte (loadBytes bytes offset len) k = bytes (offset + k) := by
  have hshift : ((UInt32.ofNat (8 * k)).toBitVec % 32).toNat = 8 * k := by
    rw [BitVec.toNat_umod, UInt32.toNat_toBitVec, UInt32.toNat_ofNat']
    change 8 * k % 2 ^ 32 % 32 = 8 * k
    omega
  refine UInt8.toBitVec_inj.mp (BitVec.eq_of_getLsbD_eq fun i hi => ?_)
  unfold valueByte
  rw [UInt32.toBitVec_toUInt8, BitVec.getLsbD_setWidth, UInt32.toBitVec_shiftRight,
    BitVec.ushiftRight_eq', BitVec.getLsbD_ushiftRight, hshift, getLsbD_loadBytes _ _ hlen]
  have hbyte : (8 * k + i) / 8 = k := by omega
  have hbit : (8 * k + i) % 8 = i := by omega
  rw [hbyte, hbit]
  simp [hi, show 8 * k + i < 8 * len by omega]

/-! ### Where a bank byte lies -/

/-- Every bank is one, two, four or eight 16 KiB windows. -/
theorem bank_windows (bank : VramBank) :
    ∃ k, (k = 14 ∨ k = 15 ∨ k = 16 ∨ k = 17) ∧ (bankMask bank).toNat = 2 ^ k - 1 ∧
      kBankSize bank = 2 ^ k := by
  fin_cases bank
  · exact ⟨17, by decide, by decide, by decide⟩
  · exact ⟨17, by decide, by decide, by decide⟩
  · exact ⟨17, by decide, by decide, by decide⟩
  · exact ⟨17, by decide, by decide, by decide⟩
  · exact ⟨16, by decide, by decide, by decide⟩
  · exact ⟨14, by decide, by decide, by decide⟩
  · exact ⟨14, by decide, by decide, by decide⟩
  · exact ⟨15, by decide, by decide, by decide⟩
  · exact ⟨14, by decide, by decide, by decide⟩

theorem toNat_and_bankMask (bank : VramBank) (addr : UInt32) :
    (addr &&& bankMask bank).toNat = addr.toNat % kBankSize bank := by
  obtain ⟨k, -, hmask, hsize⟩ := bank_windows bank
  rw [toNat_and_mask addr _ k hmask, hsize]

/-- A window of any engine space covers whole windows of the bank. -/
theorem window_offset (bank : VramBank) (addr : UInt32) {count : Nat}
    (hcount : count = 8 ∨ count = 16 ∨ count = 32) :
    ((UInt32.ofNat ((addr >>> 14).toNat % count) <<< 14) &&& bankMask bank).toNat +
      (addr &&& 0x3FFF).toNat = (addr &&& bankMask bank).toNat := by
  obtain ⟨k, hk, -, hsize⟩ := bank_windows bank
  have hlow : (addr &&& 0x3FFF).toNat = addr.toNat % 2 ^ 14 := toNat_and_mask addr _ 14 rfl
  have hchunk : (addr >>> 14).toNat = addr.toNat / 2 ^ 14 := by
    rw [UInt32.toNat_shiftRight, Nat.shiftRight_eq_div_pow]
    rfl
  have hbase : (UInt32.ofNat ((addr >>> 14).toNat % count) <<< 14).toNat =
      addr.toNat / 2 ^ 14 % count * 2 ^ 14 := by
    rw [UInt32.toNat_shiftLeft, hchunk, UInt32.toNat_ofNat', Nat.shiftLeft_eq]
    change addr.toNat / 2 ^ 14 % count % 2 ^ 32 * 16384 % 2 ^ 32 = _
    have hlt := addr.toNat_lt
    rcases hcount with rfl | rfl | rfl <;> omega
  rw [toNat_and_bankMask, toNat_and_bankMask, hbase, hlow, hsize]
  rcases hk with rfl | rfl | rfl | rfl <;> rcases hcount with rfl | rfl | rfl <;> omega

theorem lowestBit_mem {mask : UInt16} (h : VramState.lowestBit mask < 9) :
    VramState.maskHas mask ⟨VramState.lowestBit mask, h⟩ = true := by
  unfold VramState.lowestBit at h
  rcases hfound : (List.range 16).find? fun i =>
      mask &&& ((1 : UInt16) <<< UInt16.ofNat i) != 0 with _ | i
  · rw [hfound] at h
    exact absurd h (by decide)
  · have hset := List.find?_some hfound
    have hlowest : VramState.lowestBit mask = i := by
      unfold VramState.lowestBit
      rw [hfound]
      rfl
    unfold VramState.maskHas bankBit
    dsimp only
    rw [hlowest]
    exact hset

theorem toUInt8_bankRead (v : VramState) (bank : VramBank) (addr : UInt32) :
    (v.bankRead bank addr .byte).toUInt8 =
      v.vram (kBankOffset bank + (addr &&& bankMask bank).toNat) := by
  rw [toUInt8_eq_valueByte]
  exact valueByte_loadBytes _ _ (by decide) (by decide)

/-- A direct pointer belongs to the one bank that the mapped read reads. -/
theorem directChunk_some {mask : UInt16} {base : UInt32} {direct : Nat}
    (h : VramState.directChunk mask base = some direct) :
    ∃ bank, VramState.maskHas mask bank = true ∧
      direct = kBankOffset bank + (base &&& bankMask bank).toNat ∧
      ∀ v : VramState, ∀ addr width, v.mappedRead mask addr width = v.bankRead bank addr width := by
  unfold VramState.directChunk at h
  split at h
  · cases h
  · next hsingle =>
      split at h
      · next hbank =>
          refine ⟨_, lowestBit_mem hbank, (Option.some.inj h).symm, ?_⟩
          intro v addr width
          unfold VramState.mappedRead
          rw [if_pos ⟨fun hzero => hsingle (Or.inl hzero), not_not.mp fun hmany =>
            hsingle (Or.inr hmany)⟩, dif_pos hbank]
      · cases h

theorem directChunk_byte {mask : UInt16} {direct count : Nat} (v : VramState) (addr : UInt32)
    (hcount : count = 8 ∨ count = 16 ∨ count = 32)
    (h : VramState.directChunk mask (UInt32.ofNat ((addr >>> 14).toNat % count) <<< 14) =
      some direct) :
    v.vram (direct + (addr &&& 0x3FFF).toNat) = (v.mappedRead mask addr .byte).toUInt8 := by
  obtain ⟨bank, -, rfl, hread⟩ := directChunk_some h
  rw [hread, toUInt8_bankRead, Nat.add_assoc, window_offset bank addr hcount]

namespace ViewedVram

/-- The views kept are those of the current masks. -/
def Fresh (s : ViewedVram) : Prop := s.view = s.vram.refreshRendererViews

theorem Fresh.bgView8 {s : ViewedVram} (h : s.Fresh) (engine : Engine) (addr : UInt32) :
    s.bgView8 engine addr =
      (s.vram.mappedRead (s.vram.bgMask engine addr) addr .byte).toUInt8 := by
  unfold ViewedVram.bgView8
  rw [h]
  cases engine with
  | a =>
      dsimp only [VramState.refreshRendererViews, VramState.directChunks]
      rw [if_neg (by decide : ¬ Engine.a = Engine.b), if_pos (Nat.mod_lt _ (by decide))]
      split
      · next direct hdirect => exact directChunk_byte s.vram addr (Or.inr (Or.inr rfl)) hdirect
      · rfl
  | b =>
      dsimp only [VramState.refreshRendererViews, VramState.directChunks]
      rw [if_pos rfl, if_pos (Nat.mod_lt _ (by decide))]
      split
      · next direct hdirect => exact directChunk_byte s.vram addr (Or.inl rfl) hdirect
      · rfl

theorem Fresh.objView8 {s : ViewedVram} (h : s.Fresh) (engine : Engine) (addr : UInt32) :
    s.objView8 engine addr =
      (s.vram.mappedRead (s.vram.objMask engine addr) addr .byte).toUInt8 := by
  unfold ViewedVram.objView8
  rw [h]
  cases engine with
  | a =>
      dsimp only [VramState.refreshRendererViews, VramState.directChunks]
      rw [if_neg (by decide : ¬ Engine.a = Engine.b), if_pos (Nat.mod_lt _ (by decide))]
      split
      · next direct hdirect => exact directChunk_byte s.vram addr (Or.inr (Or.inl rfl)) hdirect
      · rfl
  | b =>
      dsimp only [VramState.refreshRendererViews, VramState.directChunks]
      rw [if_pos rfl, if_pos (Nat.mod_lt _ (by decide))]
      split
      · next direct hdirect => exact directChunk_byte s.vram addr (Or.inl rfl) hdirect
      · rfl

end ViewedVram

/-! ### Texture copies -/

theorem fillRange_congr {α : Type*} (f : Nat → α) (offset len : Nat) {value value' : Nat → α}
    (h : ∀ i < len, value i = value' i) :
    fillRange f offset len value = fillRange f offset len value' := by
  funext i
  unfold fillRange
  split
  · next hin => exact h _ (by omega)
  · rfl

/-- Ranges filled one after the other are one range. -/
theorem foldl_fillRange {α : Type*} (f : Nat → α) (base n : Nat) {w : Nat} (hw : 0 < w)
    (value : Nat → Nat → α) :
    (List.range n).foldl (fun f i => fillRange f (base + w * i) w (value i)) f =
      fillRange f base (w * n) fun i => value (i / w) (i % w) := by
  induction n with
  | zero =>
      funext i
      unfold fillRange
      rw [List.range_zero, List.foldl_nil, if_neg (by omega)]
  | succ n ih =>
      rw [List.range_succ, List.foldl_append, ih, List.foldl_cons, List.foldl_nil]
      funext i
      unfold fillRange
      rw [Nat.mul_succ]
      by_cases hlast : base + w * n ≤ i ∧ i < base + w * n + w
      · have hoffset : i - base = w * n + (i - (base + w * n)) := by omega
        have hlt : i - (base + w * n) < w := by omega
        rw [if_pos hlast, if_pos (by omega), hoffset]
        dsimp only
        rw [Nat.mul_add_div hw, Nat.mul_add_mod, Nat.div_eq_of_lt hlt, Nat.mod_eq_of_lt hlt,
          Nat.add_zero]
      · rw [if_neg hlast]
        by_cases hbefore : base ≤ i ∧ i < base + w * n
        · rw [if_pos hbefore, if_pos (by omega)]
        · rw [if_neg hbefore, if_neg (by omega)]

theorem toNat_ofNat_of_lt {n : Nat} (hn : n < 2 ^ 32) : (UInt32.ofNat n).toNat = n := by
  rw [UInt32.toNat_ofNat']
  exact Nat.mod_eq_of_lt hn

theorem valueByte_bankRead (v : VramState) (bank : VramBank) {a k : Nat} (ha : a % 4 = 0)
    (hk : k < 4) (hrange : a + 4 ≤ 2 ^ 32) :
    valueByte (v.bankRead bank (UInt32.ofNat a) .word) k =
      (v.bankRead bank (UInt32.ofNat (a + k)) .byte).toUInt8 := by
  have hbyte := valueByte_loadBytes v.vram
    (kBankOffset bank + (UInt32.ofNat a &&& bankMask bank).toNat) (le_refl 4) hk
  rw [toUInt8_bankRead]
  refine hbyte.trans (congrArg v.vram ?_)
  rw [toNat_and_bankMask, toNat_and_bankMask, toNat_ofNat_of_lt (by omega),
    toNat_ofNat_of_lt (by omega)]
  obtain ⟨j, hj, -, hsize⟩ := bank_windows bank
  rw [hsize]
  rcases hj with rfl | rfl | rfl | rfl <;> omega

theorem valueByte_mappedRead (v : VramState) (mask : UInt16) {a k : Nat} (ha : a % 4 = 0)
    (hk : k < 4) (hrange : a + 4 ≤ 2 ^ 32) :
    valueByte (v.mappedRead mask (UInt32.ofNat a) .word) k =
      (v.mappedRead mask (UInt32.ofNat (a + k)) .byte).toUInt8 := by
  have hfold (banks : List VramBank) (word byte : UInt32)
      (hacc : valueByte word k = byte.toUInt8) :
      valueByte (banks.foldl (fun value bank => if VramState.maskHas mask bank then
          value ||| v.bankRead bank (UInt32.ofNat a) .word else value) word) k =
        (banks.foldl (fun value bank => if VramState.maskHas mask bank then
          value ||| v.bankRead bank (UInt32.ofNat (a + k)) .byte else value) byte).toUInt8 := by
    induction banks generalizing word byte with
    | nil => exact hacc
    | cons bank banks ih =>
        refine ih _ _ ?_
        dsimp only
        split
        · rw [valueByte_or, UInt32.toUInt8_or, hacc, valueByte_bankRead v bank ha hk hrange]
        · exact hacc
  unfold VramState.mappedRead
  split
  · split
    · exact valueByte_bankRead v _ ha hk hrange
    · exact valueByte_zero k
  · exact hfold _ 0 0 (valueByte_zero k)

theorem mappedRead_zero (v : VramState) (addr : UInt32) (width : Width) :
    v.mappedRead 0 addr width = 0 := by
  have hfold (banks : List VramBank) (value : UInt32) :
      banks.foldl (fun value bank => if VramState.maskHas 0 bank then
        value ||| v.bankRead bank addr width else value) value = value := by
    induction banks with
    | nil => rfl
    | cons bank banks ih =>
        rw [List.foldl_cons, maskHas_zero]
        exact ih
  unfold VramState.mappedRead
  rw [if_neg fun h => h.1 rfl, hfold]

/-- A slot no larger than the banks behind it holds the mapped bytes. -/
theorem copySlot_eq (v : VramState) (dst : Nat → UInt8) {mask : UInt16} {base slotSize : Nat}
    (hword : slotSize % 4 = 0) (hbase : slotSize ∣ base) (hrange : base + slotSize ≤ 2 ^ 32)
    (hfit : ∀ bank, VramState.maskHas mask bank = true → slotSize ∣ kBankSize bank) :
    v.copySlot dst mask base slotSize = fillRange dst base slotSize fun i =>
      (v.mappedRead mask (UInt32.ofNat (base + i)) .byte).toUInt8 := by
  unfold VramState.copySlot
  split
  · next hzero =>
      subst hzero
      refine fillRange_congr _ _ _ fun i _ => ?_
      rw [mappedRead_zero]
      rfl
  · split
    · next direct hdirect =>
        obtain ⟨bank, hbank, rfl, hread⟩ := directChunk_some hdirect
        refine fillRange_congr _ _ _ fun i hi => ?_
        rw [hread, toUInt8_bankRead, Nat.add_assoc, toNat_and_bankMask, toNat_and_bankMask,
          toNat_ofNat_of_lt (by omega), toNat_ofNat_of_lt (by omega)]
        have hwhole : base % kBankSize bank + slotSize ≤ kBankSize bank := by
          obtain ⟨q, hq⟩ := hfit bank hbank
          obtain ⟨b, rfl⟩ := hbase
          have hpos : 0 < q := by
            rcases Nat.eq_zero_or_pos q with rfl | hpos
            · rw [Nat.mul_zero] at hq
              obtain ⟨j, -, -, hsize⟩ := bank_windows bank
              have hpow := Nat.two_pow_pos j
              omega
            · exact hpos
          rw [hq, Nat.mul_mod_mul_left, ← Nat.mul_succ]
          exact Nat.mul_le_mul_left _ (Nat.mod_lt _ hpos)
        have hmod : (base + i) % kBankSize bank = base % kBankSize bank + i := by
          rw [← Nat.mod_add_mod]
          exact Nat.mod_eq_of_lt (by omega)
        rw [hmod]
    · rw [foldl_fillRange _ _ _ (by decide) fun i =>
        valueByte (v.mappedRead mask (UInt32.ofNat (base + 4 * i)) .word)]
      rw [Nat.mul_div_cancel' (Nat.dvd_of_mod_eq_zero hword)]
      refine fillRange_congr _ _ _ fun i hi => ?_
      have hbase4 : base % 4 = 0 :=
        Nat.mod_eq_zero_of_dvd ((Nat.dvd_of_mod_eq_zero hword).trans hbase)
      rw [valueByte_mappedRead v mask (by omega) (Nat.mod_lt _ (by decide)) (by omega)]
      have hi4 : base + 4 * (i / 4) + i % 4 = base + i := by omega
      rw [hi4]

theorem copySlotSpace_eq (v : VramState) (dst : Nat → UInt8) {masks : Nat → UInt16}
    {slots slotSize : Nat} (hpos : 0 < slotSize) (hword : slotSize % 4 = 0)
    (hrange : slotSize * slots ≤ 2 ^ 32)
    (hfit : ∀ s bank, VramState.maskHas (masks s) bank = true → slotSize ∣ kBankSize bank)
    {i : Nat} (hi : i < slotSize * slots) :
    v.copySlotSpace dst masks slots slotSize i =
      (v.mappedRead (masks (i / slotSize)) (UInt32.ofNat i) .byte).toUInt8 := by
  have hslots : v.copySlotSpace dst masks slots slotSize =
      (List.range slots).foldl (fun dst s => fillRange dst (0 + slotSize * s) slotSize fun j =>
        (v.mappedRead (masks s) (UInt32.ofNat (slotSize * s + j)) .byte).toUInt8) dst := by
    refine List.foldl_ext _ _ _ fun dst s hs => ?_
    have hbound : slotSize * s + slotSize ≤ slotSize * slots := by
      rw [← Nat.mul_succ]
      exact Nat.mul_le_mul_left _ (List.mem_range.mp hs)
    rw [Nat.zero_add]
    exact copySlot_eq v dst hword ⟨s, rfl⟩ (hbound.trans hrange) (hfit s)
  rw [hslots, foldl_fillRange dst 0 slots hpos fun s j =>
    (v.mappedRead (masks s) (UInt32.ofNat (slotSize * s + j)) .byte).toUInt8]
  unfold fillRange
  rw [if_pos ⟨Nat.zero_le _, by omega⟩, Nat.sub_zero]
  dsimp only
  rw [Nat.div_add_mod]

/-- Only the four large banks reach the texture slots. -/
theorem drives_texture {bank : VramBank} {cnt : UInt8} {slot : Nat}
    (h : drives bank cnt (.texture slot)) : bank.val < 4 := by
  by_contra hlarge
  have hother : (({} : VramState).applyMap bank cnt true).texture = fun _ => 0 := by
    unfold VramState.applyMap
    rw [if_neg (by omega), if_neg (by omega)]
    unfold VramState.mapE VramState.mapFg VramState.mapH VramState.mapI VramState.mapLcdc
    split_ifs <;> (try split) <;> rfl
  unfold drives VramState.mask at h
  dsimp only at h
  rw [hother, maskHas_zero] at h
  cases h

theorem Mapped.texture_fits {v : VramState} (h : Mapped v) (slot : Nat) (bank : VramBank)
    (hbank : VramState.maskHas (v.texture slot) bank = true) : 0x20000 ∣ kBankSize bank := by
  have hsmall := drives_texture ((h.shows (.texture slot) bank).mp hbank)
  clear hbank
  revert bank
  decide

theorem drives_off {bank : VramBank} {cnt : UInt8} {slot : MaskSlot} (hoff : cnt &&& 0x80 = 0) :
    ¬ drives bank cnt slot := by
  have hnone : ({} : VramState).applyMap bank cnt true = {} := by
    unfold VramState.applyMap VramState.mapAb VramState.mapCd VramState.mapE VramState.mapFg
      VramState.mapH VramState.mapI
    simp only [if_pos hoff, ite_self]
  unfold drives
  rw [hnone, mask_empty, maskHas_zero]
  exact Bool.false_ne_true

theorem texpal_fits (bank : VramBank) : 0x4000 ∣ kBankSize bank := by
  revert bank
  decide

/-! ### After any sequence of remaps -/

structure ViewedVram.Consistent (s : ViewedVram) : Prop where
  mapped : Mapped s.vram
  fresh : s.Fresh

theorem vramSystem_consistent : vramSystem.Invariant ViewedVram.Consistent where
  start := by
    rintro s ⟨generation, rfl⟩
    refine ⟨⟨?_, ?_⟩, rfl⟩
    · intro slot
      cases slot <;> exact nineBits_zero
    · intro slot bank
      have hoff : (0 : UInt8) &&& 0x80 = 0 := by decide
      refine iff_of_false ?_ (drives_off hoff)
      have hzero : VramState.mask { textureGeneration := generation } slot = 0 := by
        cases slot <;> rfl
      change ¬ VramState.maskHas (VramState.mask { textureGeneration := generation } slot) bank = true
      rw [hzero, maskHas_zero]
      exact Bool.false_ne_true
  step := by
    intro s op hs _
    cases op with
    | map bank value =>
        change (s.map bank value).Consistent
        unfold ViewedVram.map
        split
        · exact hs
        · exact ⟨hs.mapped.ndsVramMap bank value, rfl⟩
    | contents bytes =>
        refine ⟨⟨?_, ?_⟩, ?_⟩
        · exact nineBitMasks_congr (by funext slot; cases slot <;> rfl) hs.mapped.nineBits
        · have howners : owners { s.vram with vram := bytes } = owners s.vram :=
            owners_congr (by funext slot; cases slot <;> rfl)
          change Shows drives s.vram.cnt (owners { s.vram with vram := bytes })
          rw [howners]
          exact hs.mapped.shows
        · exact hs.fresh

/-- After any sequence of VRAMCNT writes the masks are those built from the
current control values, and the renderers read the bytes these masks map. -/
theorem vram_mapping_eq_rebuild {s : ViewedVram} (hs : vramSystem.Reachable s) :
    (∀ slot, s.vram.mask slot = (rebuildMaps s.vram).mask slot) ∧
      (∀ engine addr, s.bgView8 engine addr =
        (s.vram.mappedRead (s.vram.bgMask engine addr) addr .byte).toUInt8) ∧
      (∀ engine addr, s.objView8 engine addr =
        (s.vram.mappedRead (s.vram.objMask engine addr) addr .byte).toUInt8) ∧
      (∀ dst i, i < 4 * 0x20000 → s.vram.copyTexture dst i =
        (s.vram.mappedRead (s.vram.texture (i / 0x20000)) (UInt32.ofNat i) .byte).toUInt8) ∧
      ∀ dst i, i < 8 * 0x4000 → s.vram.copyTexpal dst i =
        (s.vram.mappedRead (s.vram.texpal (i / 0x4000)) (UInt32.ofNat i) .byte).toUInt8 := by
  obtain ⟨hmapped, hfresh⟩ := hs.invariant vramSystem_consistent
  refine ⟨hmapped.mask_eq_rebuild, hfresh.bgView8, hfresh.objView8, ?_, ?_⟩
  · intro dst i hi
    exact copySlotSpace_eq s.vram dst (by decide) (by decide) (by decide) hmapped.texture_fits hi
  · intro dst i hi
    exact copySlotSpace_eq s.vram dst (by decide) (by decide) (by decide)
      (fun _ bank _ => texpal_fits bank) hi

/-- Bank A moved from engine A's backgrounds to texture slot 1. -/
theorem vram_mapping_eq_rebuild_moved :
    let s := ((ViewedVram.refreshed {}).map 0 0x81).map 0 0x8B
    s.vram.mask (.texture 1) = 1 ∧ s.vram.mask (.abg 0) = 0 ∧
      ∀ slot, s.vram.mask slot = (rebuildMaps s.vram).mask slot := by
  intro s
  have hreset : vramSystem.Reachable (ViewedVram.refreshed {}) := .start ⟨1, rfl⟩
  have hs : vramSystem.Reachable
      (vramSystem.runFrom (ViewedVram.refreshed {}) [.map 0 0x81, .map 0 0x8B]) :=
    hreset.runFrom ⟨trivial, trivial, trivial⟩
  exact ⟨by decide, by decide, (vram_mapping_eq_rebuild hs).1⟩

end NdsRecomp.Video
