import Mathlib.Data.List.GetD
import Mathlib.Tactic

/-!
SHA-1 as the standard states it, for messages of whole bytes: the functions and
constants, the message schedule, the padding, and the hash over its blocks.
-/

namespace NdsRecomp.Library.SecureHash

def rotl (n : UInt32) (x : UInt32) : UInt32 := (x <<< n) ||| (x >>> (32 - n))

def ch (x y z : UInt32) : UInt32 := (x &&& y) ^^^ (~~~x &&& z)

def parity (x y z : UInt32) : UInt32 := x ^^^ y ^^^ z

def maj (x y z : UInt32) : UInt32 := (x &&& y) ^^^ (x &&& z) ^^^ (y &&& z)

def f (t : Nat) : UInt32 → UInt32 → UInt32 → UInt32 :=
  if t ≤ 19 then ch else if t ≤ 39 then parity else if t ≤ 59 then maj else parity

def constant (t : Nat) : UInt32 :=
  if t ≤ 19 then 0x5A827999 else if t ≤ 39 then 0x6ED9EBA1 else if t ≤ 59 then 0x8F1BBCDC
  else 0xCA62C1D6

/-- The words of a schedule, from the sixteen of the block. -/
def schedule (m : Nat → UInt32) (t : Nat) : UInt32 :=
  if t < 16 then m t
  else rotl 1 (schedule m (t - 3) ^^^ schedule m (t - 8) ^^^ schedule m (t - 14) ^^^
    schedule m (t - 16))
termination_by t

theorem schedule_of_lt (m : Nat → UInt32) {t : Nat} (h : t < 16) : schedule m t = m t := by
  rw [schedule, if_pos h]

theorem schedule_of_ge (m : Nat → UInt32) {t : Nat} (h : 16 ≤ t) :
    schedule m t = rotl 1 (schedule m (t - 3) ^^^ schedule m (t - 8) ^^^ schedule m (t - 14) ^^^
      schedule m (t - 16)) := by
  rw [schedule, if_neg (by omega)]

/-- The working variables, and the hash value. -/
structure Words where
  a : UInt32
  b : UInt32
  c : UInt32
  d : UInt32
  e : UInt32
deriving DecidableEq

def Words.add (h v : Words) : Words := ⟨h.a + v.a, h.b + v.b, h.c + v.c, h.d + v.d, h.e + v.e⟩

def initial : Words := ⟨0x67452301, 0xEFCDAB89, 0x98BADCFE, 0x10325476, 0xC3D2E1F0⟩

def round (w : Nat → UInt32) (v : Words) (t : Nat) : Words where
  a := rotl 5 v.a + f t v.b v.c v.d + v.e + constant t + w t
  b := v.a
  c := rotl 30 v.b
  d := v.c
  e := v.d

def compress (h : Words) (m : Nat → UInt32) : Words :=
  h.add ((List.range 80).foldl (round (schedule m)) h)

/-! ### Padding -/

/-- The zero bits behind the one bit: as few as bring the message to 448 modulo
512. -/
def zeroBits (bits : Nat) : Nat := (448 + 512 - (bits + 1) % 512) % 512

theorem zeroBits_mod (bits : Nat) : (bits + 1 + zeroBits bits) % 512 = 448 := by
  unfold zeroBits
  omega

theorem zeroBits_le {bits k : Nat} (h : (bits + 1 + k) % 512 = 448) : zeroBits bits ≤ k := by
  unfold zeroBits
  omega

/-- The length in bits, in eight bytes, the highest first. -/
def lengthBytes (bits : Nat) : List UInt8 :=
  (List.range 8).map fun i => UInt8.ofNat (bits / 256 ^ (7 - i))

/-- The one bit and the first seven zero bits are the byte 0x80. -/
def pad (message : List UInt8) : List UInt8 :=
  message ++ 0x80 :: List.replicate (zeroBits (8 * message.length) / 8) 0 ++
    lengthBytes (8 * message.length)

theorem zeroBits_bytes (n : Nat) : zeroBits (8 * n) % 8 = 7 := by
  unfold zeroBits
  omega

theorem pad_length (message : List UInt8) :
    (pad message).length =
      message.length + 1 + zeroBits (8 * message.length) / 8 + 8 := by
  unfold pad lengthBytes
  simp only [List.length_append, List.length_cons, List.length_replicate, List.length_map,
    List.length_range]
  omega

theorem pad_length_mod (message : List UInt8) : (pad message).length % 64 = 0 := by
  have hmod := zeroBits_mod (8 * message.length)
  have hbytes := zeroBits_bytes message.length
  rw [pad_length]
  omega

/-! ### The hash -/

def word (bytes : Nat → UInt8) (t : Nat) : UInt32 :=
  (bytes (4 * t)).toUInt32 <<< 24 ||| (bytes (4 * t + 1)).toUInt32 <<< 16 |||
    (bytes (4 * t + 2)).toUInt32 <<< 8 ||| (bytes (4 * t + 3)).toUInt32

/-- The words of block `i`. -/
def blockWords (bytes : List UInt8) (i t : Nat) : UInt32 :=
  word (fun j => bytes.getD (64 * i + j) 0) t

def hash (message : List UInt8) : Words :=
  (List.range ((pad message).length / 64)).foldl
    (fun h i => compress h (blockWords (pad message) i)) initial

def wordBytes (x : UInt32) : List UInt8 :=
  [(x >>> 24).toUInt8, (x >>> 16).toUInt8, (x >>> 8).toUInt8, x.toUInt8]

def Words.bytes (h : Words) : List UInt8 :=
  wordBytes h.a ++ wordBytes h.b ++ wordBytes h.c ++ wordBytes h.d ++ wordBytes h.e

def sha1 (message : List UInt8) : List UInt8 := (hash message).bytes

def hexDigits : List Char :=
  ['0', '1', '2', '3', '4', '5', '6', '7', '8', '9', 'a', 'b', 'c', 'd', 'e', 'f']

/-- Two digits for each byte. -/
def hexadecimal (bytes : List UInt8) : String :=
  String.ofList (bytes.flatMap fun b =>
    [hexDigits.getD (b.toNat / 16) '0', hexDigits.getD (b.toNat % 16) '0'])

/-! ### The message as blocks -/

theorem word_congr {bytes bytes' : Nat → UInt8} {t : Nat}
    (h : ∀ j, 4 * t ≤ j → j < 4 * t + 4 → bytes j = bytes' j) : word bytes t = word bytes' t := by
  unfold word
  rw [h _ (by omega) (by omega), h _ (by omega) (by omega), h _ (by omega) (by omega),
    h _ (by omega) (by omega)]

theorem schedule_congr {m m' : Nat → UInt32} (h : ∀ t < 16, m t = m' t) (t : Nat) :
    schedule m t = schedule m' t := by
  induction t using Nat.strongRecOn with
  | ind t ih =>
      by_cases ht : t < 16
      · rw [schedule_of_lt m ht, schedule_of_lt m' ht, h t ht]
      · rw [schedule_of_ge m (by omega), schedule_of_ge m' (by omega), ih _ (by omega),
          ih _ (by omega), ih _ (by omega), ih _ (by omega)]

/-- A block is hashed from its sixteen words. -/
theorem compress_congr (h : Words) {m m' : Nat → UInt32} (hm : ∀ t < 16, m t = m' t) :
    compress h m = compress h m' := by
  have hschedule : schedule m = schedule m' := funext (schedule_congr hm)
  unfold compress
  rw [hschedule]

/-- A padded message is its whole blocks and one or two more. -/
theorem pad_blocks (message : List UInt8) :
    (pad message).length / 64 =
      message.length / 64 + if message.length % 64 < 56 then 1 else 2 := by
  rw [pad_length]
  unfold zeroBits
  split <;> omega

section Bytes

variable (message : List UInt8)

theorem pad_message {j : Nat} (h : j < message.length) :
    (pad message).getD j 0 = message.getD j 0 := by
  unfold pad
  rw [List.append_assoc, List.getD_append _ _ _ _ h]

theorem pad_one : (pad message).getD message.length 0 = 0x80 := by
  unfold pad
  rw [List.append_assoc, List.getD_append_right _ _ _ _ (le_refl _), Nat.sub_self]
  rfl

theorem pad_zero {j : Nat} (hlow : message.length < j) (hhigh : j + 8 < (pad message).length) :
    (pad message).getD j 0 = 0 := by
  rw [pad_length] at hhigh
  unfold pad
  rw [List.append_assoc, List.getD_append_right _ _ _ _ hlow.le, List.cons_append]
  obtain ⟨k, hk⟩ := Nat.exists_eq_add_of_lt hlow
  have hj : j - message.length = k + 1 := by omega
  rw [hj, List.getD_cons_succ, List.getD_append _ _ _ _ (by
    rw [List.length_replicate]
    omega), List.getD_replicate _ (by omega)]

theorem pad_lengthByte {i : Nat} (h : i < 8) :
    (pad message).getD ((pad message).length - 1 - i) 0 =
      UInt8.ofNat (8 * message.length / 256 ^ i) := by
  have hlength := pad_length message
  have hsplit : (pad message).length - 1 - i =
      (message ++ 0x80 :: List.replicate (zeroBits (8 * message.length) / 8) (0 : UInt8)).length +
        (7 - i) := by
    rw [hlength]
    simp only [List.length_append, List.length_cons, List.length_replicate]
    omega
  rw [hsplit]
  unfold pad lengthBytes
  rw [List.getD_append_right _ _ _ _ (Nat.le_add_right _ _), Nat.add_sub_cancel_left,
    List.getD_eq_getElem _ _ (by simp; omega), List.getElem_map, List.getElem_range]
  congr 3
  omega

end Bytes

end NdsRecomp.Library.SecureHash
