import NdsRecomp.Library.SecureHash

/-!
The hash that identifies inputs: whole blocks straight from the data, then one
or two blocks from a tail buffer. It computes the standard's SHA-1.
-/

namespace NdsRecomp.Recompiler

open Library.SecureHash (Words)

namespace Sha1

def rotl32 (x n : UInt32) : UInt32 := (x <<< n) ||| (x >>> (32 - n))

/-- The array `w`, filled in order. -/
def expand (block : Nat → UInt8) : List UInt32 :=
  (List.range' 16 64).foldl
    (fun w i => w ++ [rotl32 (w.getD (i - 3) 0 ^^^ w.getD (i - 8) 0 ^^^ w.getD (i - 14) 0 ^^^
      w.getD (i - 16) 0) 1])
    ((List.range 16).map fun i =>
      (block (i * 4 + 0)).toUInt32 <<< 24 ||| (block (i * 4 + 1)).toUInt32 <<< 16 |||
        (block (i * 4 + 2)).toUInt32 <<< 8 ||| (block (i * 4 + 3)).toUInt32)

def turn (w : List UInt32) (v : Words) (i : Nat) : Words :=
  let (f, k) : UInt32 × UInt32 :=
    if i < 20 then ((v.b &&& v.c) ||| (~~~v.b &&& v.d), 0x5A827999)
    else if i < 40 then (v.b ^^^ v.c ^^^ v.d, 0x6ED9EBA1)
    else if i < 60 then ((v.b &&& v.c) ||| (v.b &&& v.d) ||| (v.c &&& v.d), 0x8F1BBCDC)
    else (v.b ^^^ v.c ^^^ v.d, 0xCA62C1D6)
  let t := rotl32 v.a 5 + f + v.e + k + w.getD i 0
  ⟨t, v.a, rotl32 v.b 30, v.c, v.d⟩

def processBlock (h : Words) (block : Nat → UInt8) : Words :=
  let v := (List.range 80).foldl (turn (expand block)) h
  ⟨h.a + v.a, h.b + v.b, h.c + v.c, h.d + v.d, h.e + v.e⟩

/-- The buffer for what the whole blocks leave over: the rest of the data, the
byte 0x80, zeros, and the length in bits at the end of `padLen` bytes. -/
def tail (rest : Nat → UInt8) (rem padLen : Nat) (bitLen : UInt64) : Nat → UInt8 :=
  let tail : Nat → UInt8 := fun j => if j < rem then rest j else 0
  let tail := Function.update tail rem 0x80
  (List.range 8).foldl
    (fun tail i => Function.update tail (padLen - 1 - i)
      ((bitLen >>> UInt64.ofNat (i * 8)) &&& 0xFF).toUInt8) tail

end Sha1

structure Sha1Digest where
  bytes : List UInt8
  length_eq : bytes.length = 20
deriving DecidableEq

/-- `%02x`. -/
def hexByte (b : UInt8) : List Char :=
  let digits := Nat.toDigits 16 b.toNat
  List.replicate (2 - digits.length) '0' ++ digits

def Sha1Digest.hex (digest : Sha1Digest) : String :=
  String.ofList (digest.bytes.flatMap hexByte)

namespace Sha1

def outBytes (x : UInt32) : List UInt8 :=
  [((x >>> 24) &&& 0xFF).toUInt8, ((x >>> 16) &&& 0xFF).toUInt8, ((x >>> 8) &&& 0xFF).toUInt8,
    (x &&& 0xFF).toUInt8]

def finish (h : Words) : Sha1Digest where
  bytes := [h.a, h.b, h.c, h.d, h.e].flatMap outBytes
  length_eq := rfl

/-- The hash value behind all blocks. -/
def run (data : List UInt8) : Words :=
  let p (j : Nat) := data.getD j 0
  let len := data.length
  let fullBlocks := len / 64
  let h := (List.range fullBlocks).foldl
    (fun h i => processBlock h fun j => p (i * 64 + j))
    ⟨0x67452301, 0xEFCDAB89, 0x98BADCFE, 0x10325476, 0xC3D2E1F0⟩
  let rem := len - fullBlocks * 64
  let padLen := if rem < 56 then 64 else 128
  let bitLen := UInt64.ofNat len * 8
  let tail := tail (fun j => p (fullBlocks * 64 + j)) rem padLen bitLen
  let h := processBlock h tail
  if padLen = 128 then processBlock h fun j => tail (64 + j) else h

end Sha1

def sha1 (data : List UInt8) : Sha1Digest := Sha1.finish (Sha1.run data)

namespace Sha1

open Library

/-! ### One block -/

theorem rotl32_eq (x n : UInt32) : rotl32 x n = SecureHash.rotl n x := rfl

theorem or_eq_ch (b c d : UInt32) : (b &&& c) ||| (~~~b &&& d) = SecureHash.ch b c d := by
  apply UInt32.eq_of_toBitVec_eq
  unfold SecureHash.ch
  ext i hi
  simp only [UInt32.toBitVec_or, UInt32.toBitVec_and, UInt32.toBitVec_not, UInt32.toBitVec_xor,
    BitVec.getElem_or, BitVec.getElem_and, BitVec.getElem_not, BitVec.getElem_xor]
  cases b.toBitVec[i] <;> simp

theorem or_eq_maj (b c d : UInt32) :
    (b &&& c) ||| (b &&& d) ||| (c &&& d) = SecureHash.maj b c d := by
  apply UInt32.eq_of_toBitVec_eq
  unfold SecureHash.maj
  ext i hi
  simp only [UInt32.toBitVec_or, UInt32.toBitVec_and, UInt32.toBitVec_xor, BitVec.getElem_or,
    BitVec.getElem_and, BitVec.getElem_xor]
  cases b.toBitVec[i] <;> cases c.toBitVec[i] <;> cases d.toBitVec[i] <;> rfl

theorem expand_eq (block : Nat → UInt8) :
    expand block = (List.range 80).map (SecureHash.schedule (SecureHash.word block)) := by
  have hloop (n : Nat) : (List.range' 16 n).foldl
      (fun w i => w ++ [rotl32 (w.getD (i - 3) 0 ^^^ w.getD (i - 8) 0 ^^^ w.getD (i - 14) 0 ^^^
        w.getD (i - 16) 0) 1])
      ((List.range 16).map (SecureHash.schedule (SecureHash.word block))) =
        (List.range (16 + n)).map (SecureHash.schedule (SecureHash.word block)) := by
    induction n with
    | zero => rfl
    | succ n ih =>
        have hread {k : Nat} (hk : k < 16 + n) :
            ((List.range (16 + n)).map (SecureHash.schedule (SecureHash.word block))).getD k 0 =
              SecureHash.schedule (SecureHash.word block) k := by
          rw [List.getD_eq_getElem _ _ (by simpa using hk), List.getElem_map, List.getElem_range]
        rw [List.range'_concat, List.foldl_append, ih, Nat.one_mul, List.foldl_cons, List.foldl_nil,
          hread (by omega), hread (by omega), hread (by omega), hread (by omega), ← Nat.add_assoc,
          List.range_succ, List.map_append, List.map_singleton,
          SecureHash.schedule_of_ge _ (Nat.le_add_right 16 n)]
        rfl
  have hstart : (List.range 16).map (SecureHash.schedule (SecureHash.word block)) =
      (List.range 16).map fun i =>
        (block (i * 4 + 0)).toUInt32 <<< 24 ||| (block (i * 4 + 1)).toUInt32 <<< 16 |||
          (block (i * 4 + 2)).toUInt32 <<< 8 ||| (block (i * 4 + 3)).toUInt32 := by
    refine List.map_congr_left fun i hi => ?_
    rw [SecureHash.schedule_of_lt _ (List.mem_range.mp hi), SecureHash.word, Nat.mul_comm 4 i]
    rfl
  rw [← hloop 64, hstart]
  rfl

theorem turn_eq (m : Nat → UInt32) (v : Words) {i : Nat} (h : i < 80) :
    turn ((List.range 80).map m) v i = SecureHash.round m v i := by
  have hread : ((List.range 80).map m).getD i 0 = m i := by
    rw [List.getD_eq_getElem _ _ (by simpa using h), List.getElem_map, List.getElem_range]
  unfold turn SecureHash.round SecureHash.f SecureHash.constant
  simp only [hread, or_eq_ch, or_eq_maj, rotl32_eq]
  by_cases h20 : i < 20
  · rw [if_pos h20, if_pos (Nat.le_of_lt_succ h20), if_pos (Nat.le_of_lt_succ h20)]
  · by_cases h40 : i < 40
    · rw [if_neg h20, if_pos h40, if_neg (by omega), if_pos (by omega), if_neg (by omega),
        if_pos (by omega)]
      rfl
    · by_cases h60 : i < 60
      · rw [if_neg h20, if_neg h40, if_pos h60, if_neg (by omega), if_neg (by omega),
          if_pos (by omega), if_neg (by omega), if_neg (by omega), if_pos (by omega)]
      · rw [if_neg h20, if_neg h40, if_neg h60, if_neg (by omega), if_neg (by omega),
          if_neg (by omega), if_neg (by omega), if_neg (by omega), if_neg (by omega)]
        rfl

theorem foldl_turn (m : Nat → UInt32) (l : List Nat) (hl : ∀ i ∈ l, i < 80) (v : Words) :
    l.foldl (turn ((List.range 80).map m)) v = l.foldl (SecureHash.round m) v := by
  induction l generalizing v with
  | nil => rfl
  | cons i l ih =>
      have hfirst := turn_eq m v (hl i List.mem_cons_self)
      have hrest := ih (fun j hj => hl j (List.mem_cons_of_mem _ hj)) (SecureHash.round m v i)
      rw [List.foldl_cons, List.foldl_cons, hfirst, hrest]

theorem processBlock_eq (h : Words) (block : Nat → UInt8) :
    processBlock h block = SecureHash.compress h (SecureHash.word block) := by
  have hturns := foldl_turn (SecureHash.schedule (SecureHash.word block)) (List.range 80)
    (fun i hi => List.mem_range.mp hi) h
  unfold processBlock SecureHash.compress SecureHash.Words.add
  simp only [expand_eq, hturns]

/-! ### The tail -/

/-- A loop that stores downwards from `top`. -/
theorem foldl_update_down (v : Nat → UInt8) (g : Nat → UInt8) {top n j : Nat} (hn : n ≤ top + 1)
    (hj : j ≤ top) :
    (List.range n).foldl (fun g i => Function.update g (top - i) (v i)) g j =
      if top - j < n then v (top - j) else g j := by
  induction n with
  | zero => rfl
  | succ n ih =>
      rw [List.range_succ, List.foldl_append, List.foldl_cons, List.foldl_nil]
      by_cases heq : j = top - n
      · have htop : top - j = n := by omega
        rw [heq, Function.update_self, ← heq, htop, if_pos (Nat.lt_succ_self n)]
      · rw [Function.update_of_ne heq, ih (by omega)]
        by_cases hlt : top - j < n
        · rw [if_pos hlt, if_pos (by omega)]
        · rw [if_neg hlt, if_neg (by omega)]

theorem bitLen_byte {len i : Nat} (hlen : len < 2 ^ 61) (hi : i < 8) :
    (((UInt64.ofNat len * 8) >>> UInt64.ofNat (i * 8)) &&& 0xFF).toUInt8 =
      UInt8.ofNat (8 * len / 256 ^ i) := by
  have hmask : (0xFF : UInt64).toNat = 2 ^ 8 - 1 := rfl
  have hfactor : (8 : UInt64).toNat = 8 := rfl
  have hbits : (UInt64.ofNat len * 8).toNat = 8 * len := by
    rw [UInt64.toNat_mul, UInt64.toNat_ofNat', hfactor]
    omega
  have hshift : (UInt64.ofNat (i * 8)).toNat % 64 = 8 * i := by
    rw [UInt64.toNat_ofNat']
    omega
  have hpow : (256 : Nat) ^ i = 2 ^ (8 * i) := by rw [Nat.pow_mul]
  rw [← UInt8.toNat_inj, UInt64.toNat_toUInt8, UInt64.toNat_and, UInt64.toNat_shiftRight, hmask,
    Nat.and_two_pow_sub_one_eq_mod, hbits, hshift, Nat.shiftRight_eq_div_pow, hpow,
    UInt8.toNat_ofNat', Nat.mod_mod]

section Tail

variable (data : List UInt8)

/-- The bytes of the tail buffer that are hashed. -/
def padLen : Nat := if data.length - data.length / 64 * 64 < 56 then 64 else 128

theorem pad_length_eq : (SecureHash.pad data).length = 64 * (data.length / 64) + padLen data := by
  have hblocks := SecureHash.pad_blocks data
  have hmod := SecureHash.pad_length_mod data
  unfold padLen
  split at hblocks <;> split <;> omega

/-- The tail buffer is the end of the padded message. -/
theorem tail_eq (hlen : data.length < 2 ^ 61) {j : Nat} (hj : j < padLen data) :
    tail (fun j => data.getD (data.length / 64 * 64 + j) 0)
        (data.length - data.length / 64 * 64) (padLen data) (UInt64.ofNat data.length * 8) j =
      (SecureHash.pad data).getD (64 * (data.length / 64) + j) 0 := by
  have hlength := pad_length_eq data
  have hroom : data.length - data.length / 64 * 64 + 8 < padLen data := by
    unfold padLen
    split <;> omega
  unfold tail
  rw [foldl_update_down _ _ (by omega) (by omega)]
  by_cases hend : padLen data - 1 - j < 8
  · have hindex : 64 * (data.length / 64) + j =
        (SecureHash.pad data).length - 1 - (padLen data - 1 - j) := by omega
    rw [if_pos hend, hindex, SecureHash.pad_lengthByte data hend]
    exact bitLen_byte hlen hend
  · rw [if_neg hend]
    rcases Nat.lt_trichotomy (64 * (data.length / 64) + j) data.length with hlt | heq | hgt
    · rw [Function.update_of_ne (by omega), if_pos (by omega), SecureHash.pad_message data hlt,
        Nat.mul_comm 64]
    · have hrem : j = data.length - data.length / 64 * 64 := by omega
      rw [heq, SecureHash.pad_one, ← hrem, Function.update_self]
    · rw [Function.update_of_ne (by omega), if_neg (by omega),
        SecureHash.pad_zero data hgt (by omega)]

/-- A block whose bytes are those of the padded message. -/
theorem processBlock_pad (h : Words) {block : Nat → UInt8} {i : Nat}
    (hblock : ∀ j < 64, block j = (SecureHash.pad data).getD (64 * i + j) 0) :
    processBlock h block =
      SecureHash.compress h (SecureHash.blockWords (SecureHash.pad data) i) := by
  rw [processBlock_eq]
  exact SecureHash.compress_congr h fun t ht =>
    SecureHash.word_congr fun j _ hj => hblock j (by omega)

theorem foldl_processBlock {n : Nat} (hn : n ≤ data.length / 64) (h : Words) :
    (List.range n).foldl (fun h i => processBlock h fun j => data.getD (i * 64 + j) 0) h =
      (List.range n).foldl
        (fun h i => SecureHash.compress h (SecureHash.blockWords (SecureHash.pad data) i)) h := by
  refine List.foldl_ext _ _ _ fun h i hi => processBlock_pad data h fun j hj => ?_
  have hi := List.mem_range.mp hi
  rw [SecureHash.pad_message data (by omega), Nat.mul_comm 64]

theorem run_eq (hlen : data.length < 2 ^ 61) : run data = SecureHash.hash data := by
  have htail {j : Nat} (hj : j < padLen data) := tail_eq data hlen hj
  have hblocks := SecureHash.pad_blocks data
  have hfull := foldl_processBlock data (le_refl _) SecureHash.initial
  unfold SecureHash.initial at hfull
  unfold run SecureHash.hash SecureHash.initial
  dsimp only
  change (if padLen data = 128 then _ else _) = _
  rw [hfull]
  by_cases hshort : data.length % 64 < 56
  · have hpad : padLen data = 64 := if_pos (by omega)
    rw [if_pos hshort] at hblocks
    rw [if_neg (by omega), hblocks, List.range_succ, List.foldl_append, List.foldl_cons,
      List.foldl_nil]
    exact processBlock_pad data _ fun j hj => htail (by omega)
  · have hpad : padLen data = 128 := if_neg (by omega)
    rw [if_neg hshort] at hblocks
    rw [if_pos hpad, hblocks, List.range_succ, List.range_succ, List.foldl_append,
      List.foldl_append, List.foldl_cons, List.foldl_nil, List.foldl_cons, List.foldl_nil]
    have hfirst := processBlock_pad data
      ((List.range (data.length / 64)).foldl
        (fun h i => SecureHash.compress h (SecureHash.blockWords (SecureHash.pad data) i))
        ⟨0x67452301, 0xEFCDAB89, 0x98BADCFE, 0x10325476, 0xC3D2E1F0⟩)
      (i := data.length / 64) fun j hj => htail (by omega)
    rw [← hfirst]
    refine processBlock_pad data _ fun j hj => ?_
    have hsecond := htail (j := 64 + j) (by omega)
    rw [← Nat.add_assoc] at hsecond
    exact hsecond

end Tail

end Sha1

/-! ### The digest -/

theorem outBytes_eq (x : UInt32) : Sha1.outBytes x = Library.SecureHash.wordBytes x := by
  have hmask (y : UInt32) : (y &&& 0xFF).toUInt8 = y.toUInt8 := by
    have hlow : (0xFF : UInt32).toNat = 2 ^ 8 - 1 := rfl
    rw [← UInt8.toNat_inj, UInt32.toNat_toUInt8, UInt32.toNat_toUInt8, UInt32.toNat_and, hlow,
      Nat.and_two_pow_sub_one_eq_mod, Nat.mod_mod]
  unfold Sha1.outBytes Library.SecureHash.wordBytes
  rw [hmask, hmask, hmask, hmask]

theorem hexByte_eq (b : UInt8) : hexByte b =
    [Library.SecureHash.hexDigits.getD (b.toNat / 16) '0',
      Library.SecureHash.hexDigits.getD (b.toNat % 16) '0'] := by
  have hall : ∀ n < 256,
      List.replicate (2 - (Nat.toDigits 16 n).length) '0' ++ Nat.toDigits 16 n =
        [Library.SecureHash.hexDigits.getD (n / 16) '0',
          Library.SecureHash.hexDigits.getD (n % 16) '0'] := by
    set_option maxRecDepth 20000 in decide
  exact hall b.toNat b.toNat_lt

theorem sha1_standard (data : List UInt8) (h : data.length < 2 ^ 61) :
    (sha1 data).bytes = Library.SecureHash.sha1 data ∧
      (sha1 data).hex = Library.SecureHash.hexadecimal (Library.SecureHash.sha1 data) := by
  have hbytes : (sha1 data).bytes = Library.SecureHash.sha1 data := by
    unfold sha1 Sha1.finish Library.SecureHash.sha1 Library.SecureHash.Words.bytes
    rw [Sha1.run_eq data h]
    simp only [List.flatMap_cons, List.flatMap_nil, List.append_nil, outBytes_eq, List.append_assoc]
  refine ⟨hbytes, ?_⟩
  unfold Sha1Digest.hex Library.SecureHash.hexadecimal
  rw [hbytes]
  exact congrArg String.ofList (List.flatMap_congr fun b _ => hexByte_eq b)

/-- The message `abc`. -/
theorem sha1_standard_abc :
    (sha1 [0x61, 0x62, 0x63]).bytes = Library.SecureHash.sha1 [0x61, 0x62, 0x63] :=
  (sha1_standard [0x61, 0x62, 0x63] (by decide)).1

end NdsRecomp.Recompiler
