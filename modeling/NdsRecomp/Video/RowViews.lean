import NdsRecomp.Video.Compositor
import NdsRecomp.Video.RendererView

/-!
The reads of more than one byte that the line decoders make through a renderer
view, and the extended palettes. A tile row fetched as one word holds the bytes,
and so the nibbles, that byte reads fetch one by one: an aligned row never
leaves its 16 KiB window.
-/

namespace NdsRecomp.Video

open Bus Library

namespace VramState

/-- `nds_vram_read_bg_extpal` -/
def readBgExtpal (v : VramState) (engine : Engine) (addr : UInt32) (width : Width) : UInt32 :=
  match engine with
  | .a => v.mappedRead (v.abgExt ((addr >>> 13).toNat % 4)) addr width
  | .b => v.mappedRead (v.bbgExt ((addr >>> 13).toNat % 4)) addr width

/-- `nds_vram_read_obj_extpal` -/
def readObjExtpal (v : VramState) (engine : Engine) (addr : UInt32) (width : Width) : UInt32 :=
  match engine with
  | .a => v.mappedRead v.aobjExt addr width
  | .b => v.mappedRead v.bobjExt addr width

end VramState

/-- Two words in memory order, as one value. -/
def joinWords (low high : UInt32) : UInt64 := low.toUInt64 ||| (high.toUInt64 <<< 32)

namespace ViewedVram

/-- A read through the window's pointer, else through the masks. -/
def viewRead (s : ViewedVram) (window : Option Nat) (read : UInt32 → Width → UInt32)
    (addr : UInt32) (width : Width) : UInt32 :=
  match window with
  | some direct => loadBytes s.vram.vram (direct + (addr &&& 0x3FFF).toNat) width.bytes
  | none => read addr width

/-- Eight bytes; behind the masks they are two reads. -/
def viewRead64 (s : ViewedVram) (window : Option Nat) (read : UInt32 → Width → UInt32)
    (addr : UInt32) : UInt64 :=
  match window with
  | some direct =>
      joinWords (loadBytes s.vram.vram (direct + (addr &&& 0x3FFF).toNat) 4)
        (loadBytes s.vram.vram (direct + (addr &&& 0x3FFF).toNat + 4) 4)
  | none => joinWords (read addr .word) (read (addr + 4) .word)

def bgWindow (s : ViewedVram) (engine : Engine) (addr : UInt32) : Option Nat :=
  (s.view engine).bg ((addr >>> 14).toNat % (if engine = .b then 8 else 32))

def objWindow (s : ViewedVram) (engine : Engine) (addr : UInt32) : Option Nat :=
  (s.view engine).obj ((addr >>> 14).toNat % (if engine = .b then 8 else 16))

def bgView16 (s : ViewedVram) (engine : Engine) (addr : UInt32) : UInt16 :=
  (s.viewRead (s.bgWindow engine addr) (s.vram.readBg engine) addr .half).toUInt16

def bgView32 (s : ViewedVram) (engine : Engine) (addr : UInt32) : UInt32 :=
  s.viewRead (s.bgWindow engine addr) (s.vram.readBg engine) addr .word

def bgView64 (s : ViewedVram) (engine : Engine) (addr : UInt32) : UInt64 :=
  s.viewRead64 (s.bgWindow engine addr) (s.vram.readBg engine) addr

def objView16 (s : ViewedVram) (engine : Engine) (addr : UInt32) : UInt16 :=
  (s.viewRead (s.objWindow engine addr) (s.vram.readObj engine) addr .half).toUInt16

def objView32 (s : ViewedVram) (engine : Engine) (addr : UInt32) : UInt32 :=
  s.viewRead (s.objWindow engine addr) (s.vram.readObj engine) addr .word

def objView64 (s : ViewedVram) (engine : Engine) (addr : UInt32) : UInt64 :=
  s.viewRead64 (s.objWindow engine addr) (s.vram.readObj engine) addr

end ViewedVram

/-! ### Bytes and nibbles of a row -/

theorem toNat_valueByte (value : UInt32) {k : Nat} (hk : k < 4) :
    (valueByte value k).toNat = value.toNat / 2 ^ (8 * k) % 256 := by
  have hshift : (UInt32.ofNat (8 * k)).toNat % 32 = 8 * k := by
    rw [UInt32.toNat_ofNat']
    omega
  unfold valueByte
  rw [UInt32.toNat_toUInt8, UInt32.toNat_shiftRight, hshift, Nat.shiftRight_eq_div_pow]

theorem toNat_joinWords (low high : UInt32) :
    (joinWords low high).toNat = low.toNat + high.toNat * 2 ^ 32 := by
  have hlow := low.toNat_lt
  have hhigh := high.toNat_lt
  have hshift : (high.toUInt64 <<< 32).toNat = 2 ^ 32 * high.toNat := by
    rw [UInt64.toNat_shiftLeft, UInt32.toNat_toUInt64]
    change high.toNat <<< 32 % 2 ^ 64 = _
    rw [Nat.shiftLeft_eq, Nat.mod_eq_of_lt (by omega), Nat.mul_comm]
  unfold joinWords
  rw [UInt64.toNat_or, hshift, UInt32.toNat_toUInt64, Nat.or_comm,
    ← Nat.two_pow_add_eq_or_of_lt hlow]
  omega

/-- Byte `k` of an eight-byte row. -/
theorem joinWords_byte (low high : UInt32) {k : Nat} (hk : k < 8) :
    (joinWords low high >>> UInt64.ofNat (8 * k)).toUInt8 =
      if k < 4 then valueByte low k else valueByte high (k - 4) := by
  have hlow := low.toNat_lt
  have hhigh := high.toNat_lt
  have hshift : (UInt64.ofNat (8 * k)).toNat % 64 = 8 * k := by
    rw [UInt64.toNat_ofNat']
    omega
  refine UInt8.toNat_inj.mp ?_
  rw [UInt64.toNat_toUInt8, UInt64.toNat_shiftRight, hshift, Nat.shiftRight_eq_div_pow,
    toNat_joinWords]
  split
  · next hk4 =>
      rw [toNat_valueByte low hk4]
      interval_cases k <;> omega
  · next hk4 =>
      rw [toNat_valueByte high (by omega)]
      interval_cases k <;> omega

/-- Nibble `k` of a four-byte row, as the pixel decoders take it from its byte. -/
theorem nibble_eq (value : UInt32) {k : Nat} (hk : k < 8) :
    ((value >>> UInt32.ofNat (4 * k)) &&& 0xF).toUInt8 =
      if k % 2 = 1 then valueByte value (k / 2) >>> 4 else valueByte value (k / 2) &&& 0xF := by
  have hvalue := value.toNat_lt
  have hshift : (UInt32.ofNat (4 * k)).toNat % 32 = 4 * k := by
    rw [UInt32.toNat_ofNat']
    omega
  refine UInt8.toNat_inj.mp ?_
  rw [UInt32.toNat_toUInt8, toNat_and_mask _ _ 4 rfl, UInt32.toNat_shiftRight, hshift,
    Nat.shiftRight_eq_div_pow]
  have hbyte := toNat_valueByte value (show k / 2 < 4 by omega)
  split
  · next hodd =>
      have hhigh : (valueByte value (k / 2) >>> 4).toNat =
          (valueByte value (k / 2)).toNat / 16 := by
        rw [UInt8.toNat_shiftRight, Nat.shiftRight_eq_div_pow]
        rfl
      rw [hhigh, hbyte]
      interval_cases k <;> omega
  · next heven =>
      have hmask : (valueByte value (k / 2) &&& 0xF).toNat =
          (valueByte value (k / 2)).toNat % 16 := by
        rw [UInt8.toNat_and]
        exact Nat.and_two_pow_sub_one_eq_mod _ 4
      rw [hmask, hbyte]
      interval_cases k <;> omega

/-! ### Aligned addresses -/

section Alignment

variable {k : Nat}

/-- A sum of aligned addresses is aligned, also where it wraps. -/
theorem toNat_add_aligned {a b : UInt32} (hk : k ≤ 32) (ha : a.toNat % 2 ^ k = 0)
    (hb : b.toNat % 2 ^ k = 0) : (a + b).toNat % 2 ^ k = 0 := by
  rw [UInt32.toNat_add, Nat.mod_mod_of_dvd _ (Nat.pow_dvd_pow 2 hk), Nat.add_mod, ha, hb,
    Nat.zero_mod]

theorem toNat_shiftLeft_aligned (a : UInt32) {n : UInt32} (hk : k ≤ n.toNat)
    (hn : n.toNat < 32) : (a <<< n).toNat % 2 ^ k = 0 := by
  rw [UInt32.toNat_shiftLeft, Nat.mod_eq_of_lt hn, Nat.shiftLeft_eq,
    Nat.mod_mod_of_dvd _ (Nat.pow_dvd_pow 2 (by omega))]
  exact Nat.mod_eq_zero_of_dvd ((Nat.pow_dvd_pow 2 hk).mul_left _)

theorem toNat_ofNat_aligned {n : Nat} (hk : k ≤ 32) (hn : n % 2 ^ k = 0) :
    (UInt32.ofNat n).toNat % 2 ^ k = 0 := by
  rw [UInt32.toNat_ofNat', Nat.mod_mod_of_dvd _ (Nat.pow_dvd_pow 2 hk), hn]

end Alignment

/-! ### An aligned row stays in its window -/

theorem toNat_add_small {addr : UInt32} {k : Nat} (hk : addr.toNat % 8 + k < 8) :
    (addr + UInt32.ofNat k).toNat = addr.toNat + k := by
  have haddr := addr.toNat_lt
  rw [UInt32.toNat_add, UInt32.toNat_ofNat']
  omega

theorem window_add_small {addr : UInt32} {k : Nat} (hk : addr.toNat % 8 + k < 8) :
    (addr + UInt32.ofNat k) >>> 14 = addr >>> 14 := by
  refine UInt32.toNat_inj.mp ?_
  rw [UInt32.toNat_shiftRight, UInt32.toNat_shiftRight, toNat_add_small hk,
    Nat.shiftRight_eq_div_pow, Nat.shiftRight_eq_div_pow]
  change (addr.toNat + k) / 2 ^ 14 = addr.toNat / 2 ^ 14
  omega

theorem offset_add_small {addr : UInt32} {k : Nat} (hk : addr.toNat % 8 + k < 8) :
    ((addr + UInt32.ofNat k) &&& 0x3FFF).toNat = (addr &&& 0x3FFF).toNat + k := by
  rw [toNat_and_mask _ _ 14 rfl, toNat_and_mask _ _ 14 rfl, toNat_add_small hk]
  omega

theorem valueByte_mappedRead_add (v : VramState) (mask : UInt16) {addr : UInt32} {k : Nat}
    (ha : addr.toNat % 4 = 0) (hk : k < 4) :
    valueByte (v.mappedRead mask addr .word) k =
      (v.mappedRead mask (addr + UInt32.ofNat k) .byte).toUInt8 := by
  have haddr := addr.toNat_lt
  have hbytes := valueByte_mappedRead v mask ha hk (by omega)
  rw [UInt32.ofNat_add, UInt32.ofNat_toNat] at hbytes
  exact hbytes

theorem valueByte_readBg (v : VramState) (engine : Engine) {addr : UInt32} {k : Nat}
    (ha : addr.toNat % 4 = 0) (hk : k < 4) :
    valueByte (v.readBg engine addr .word) k =
      (v.readBg engine (addr + UInt32.ofNat k) .byte).toUInt8 := by
  unfold VramState.readBg VramState.bgMask
  rw [window_add_small (by omega)]
  exact valueByte_mappedRead_add v _ ha hk

theorem valueByte_readObj (v : VramState) (engine : Engine) {addr : UInt32} {k : Nat}
    (ha : addr.toNat % 4 = 0) (hk : k < 4) :
    valueByte (v.readObj engine addr .word) k =
      (v.readObj engine (addr + UInt32.ofNat k) .byte).toUInt8 := by
  unfold VramState.readObj VramState.objMask
  rw [window_add_small (by omega)]
  exact valueByte_mappedRead_add v _ ha hk

namespace ViewedVram

/-- The byte of memory that a one-byte read through the window fetches. -/
def viewByte (s : ViewedVram) (window : Option Nat) (read : UInt32 → Width → UInt32)
    (addr : UInt32) : UInt8 :=
  match window with
  | some direct => s.vram.vram (direct + (addr &&& 0x3FFF).toNat)
  | none => (read addr .byte).toUInt8

section Rows

variable (s : ViewedVram) (window : Option Nat) (read : UInt32 → Width → UInt32)

theorem valueByte_viewRead {addr : UInt32} {k : Nat} (ha : addr.toNat % 4 = 0) (hk : k < 4)
    (hread : valueByte (read addr .word) k = (read (addr + UInt32.ofNat k) .byte).toUInt8) :
    valueByte (s.viewRead window read addr .word) k =
      s.viewByte window read (addr + UInt32.ofNat k) := by
  cases window with
  | none => exact hread
  | some direct =>
      unfold viewRead viewByte
      dsimp only
      rw [offset_add_small (by omega), ← Nat.add_assoc]
      exact valueByte_loadBytes s.vram.vram _ (le_refl 4) hk

/-- An aligned eight-byte row is two words of one window. -/
theorem viewRead64_eq {addr : UInt32} (ha : addr.toNat % 8 = 0) :
    s.viewRead64 window read addr =
      joinWords (s.viewRead window read addr .word) (s.viewRead window read (addr + 4) .word) := by
  cases window with
  | none => rfl
  | some direct =>
      have hoffset : ((addr + 4) &&& 0x3FFF).toNat = (addr &&& 0x3FFF).toNat + 4 :=
        offset_add_small (k := 4) (by omega)
      unfold viewRead64 viewRead
      dsimp only
      rw [hoffset, ← Nat.add_assoc]
      rfl

theorem viewRead64_byte {addr : UInt32} {k : Nat} (ha : addr.toNat % 8 = 0) (hk : k < 8)
    (hread : ∀ {addr : UInt32} {k : Nat}, addr.toNat % 4 = 0 → k < 4 →
      valueByte (read addr .word) k = (read (addr + UInt32.ofNat k) .byte).toUInt8) :
    (s.viewRead64 window read addr >>> UInt64.ofNat (8 * k)).toUInt8 =
      s.viewByte window read (addr + UInt32.ofNat k) := by
  rw [viewRead64_eq s window read ha, joinWords_byte _ _ hk]
  split
  · next hk4 => exact valueByte_viewRead s window read (by omega) hk4 (hread (by omega) hk4)
  · next hk4 =>
      have hhigh : (addr + 4).toNat = addr.toNat + 4 :=
        toNat_add_small (k := 4) (by omega)
      have hsum : addr + 4 + UInt32.ofNat (k - 4) = addr + UInt32.ofNat k := by
        rw [UInt32.add_assoc, show (4 : UInt32) = UInt32.ofNat 4 from rfl, ← UInt32.ofNat_add,
          Nat.add_sub_cancel' (by omega)]
      rw [valueByte_viewRead s window read (by omega) (by omega)
        (hread (by omega) (by omega)), hsum]

theorem viewRead_nibble {addr : UInt32} {k : Nat} (ha : addr.toNat % 4 = 0) (hk : k < 8)
    (hread : ∀ {addr : UInt32} {k : Nat}, addr.toNat % 4 = 0 → k < 4 →
      valueByte (read addr .word) k = (read (addr + UInt32.ofNat k) .byte).toUInt8) :
    ((s.viewRead window read addr .word >>> UInt32.ofNat (4 * k)) &&& 0xF).toUInt8 =
      if k % 2 = 1 then s.viewByte window read (addr + UInt32.ofNat (k / 2)) >>> 4
      else s.viewByte window read (addr + UInt32.ofNat (k / 2)) &&& 0xF := by
  rw [nibble_eq _ hk,
    valueByte_viewRead s window read ha (by omega) (hread ha (by omega))]

end Rows

theorem bgView8_add (s : ViewedVram) (engine : Engine) {addr : UInt32} {k : Nat}
    (hk : addr.toNat % 8 + k < 8) :
    s.bgView8 engine (addr + UInt32.ofNat k) =
      s.viewByte (s.bgWindow engine addr) (s.vram.readBg engine) (addr + UInt32.ofNat k) := by
  unfold bgView8 bgWindow
  rw [window_add_small hk]
  rfl

theorem objView8_add (s : ViewedVram) (engine : Engine) {addr : UInt32} {k : Nat}
    (hk : addr.toNat % 8 + k < 8) :
    s.objView8 engine (addr + UInt32.ofNat k) =
      s.viewByte (s.objWindow engine addr) (s.vram.readObj engine) (addr + UInt32.ofNat k) := by
  unfold objView8 objWindow
  rw [window_add_small hk]
  rfl

/-- The byte a shift takes out of an eight-byte row. -/
theorem bgView64_byte (s : ViewedVram) (engine : Engine) {addr : UInt32} {k : Nat}
    (ha : addr.toNat % 8 = 0) (hk : k < 8) :
    (s.bgView64 engine addr >>> UInt64.ofNat (8 * k)).toUInt8 =
      s.bgView8 engine (addr + UInt32.ofNat k) := by
  rw [bgView8_add s engine (by omega)]
  exact viewRead64_byte s _ _ ha hk (valueByte_readBg s.vram engine)

theorem objView64_byte (s : ViewedVram) (engine : Engine) {addr : UInt32} {k : Nat}
    (ha : addr.toNat % 8 = 0) (hk : k < 8) :
    (s.objView64 engine addr >>> UInt64.ofNat (8 * k)).toUInt8 =
      s.objView8 engine (addr + UInt32.ofNat k) := by
  rw [objView8_add s engine (by omega)]
  exact viewRead64_byte s _ _ ha hk (valueByte_readObj s.vram engine)

/-- The nibble a shift takes out of a four-byte row. -/
theorem bgView32_nibble (s : ViewedVram) (engine : Engine) {addr : UInt32} {k : Nat}
    (ha : addr.toNat % 4 = 0) (hk : k < 8) :
    ((s.bgView32 engine addr >>> UInt32.ofNat (4 * k)) &&& 0xF).toUInt8 =
      if k % 2 = 1 then s.bgView8 engine (addr + UInt32.ofNat (k / 2)) >>> 4
      else s.bgView8 engine (addr + UInt32.ofNat (k / 2)) &&& 0xF := by
  rw [bgView8_add s engine (by omega)]
  exact viewRead_nibble s _ _ ha hk (valueByte_readBg s.vram engine)

theorem objView32_nibble (s : ViewedVram) (engine : Engine) {addr : UInt32} {k : Nat}
    (ha : addr.toNat % 4 = 0) (hk : k < 8) :
    ((s.objView32 engine addr >>> UInt32.ofNat (4 * k)) &&& 0xF).toUInt8 =
      if k % 2 = 1 then s.objView8 engine (addr + UInt32.ofNat (k / 2)) >>> 4
      else s.objView8 engine (addr + UInt32.ofNat (k / 2)) &&& 0xF := by
  rw [objView8_add s engine (by omega)]
  exact viewRead_nibble s _ _ ha hk (valueByte_readObj s.vram engine)

end ViewedVram

end NdsRecomp.Video
