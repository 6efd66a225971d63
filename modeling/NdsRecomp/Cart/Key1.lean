import NdsRecomp.Library.Feistel

/-!
The KEY1 cipher of game cards: sixteen rounds over a schedule of eighteen round keys and
four substitution boxes, which the cipher itself mixes with the game code. Decryption takes
the round keys from the other end, so it undoes encryption under any schedule.
-/

namespace NdsRecomp.Cart

open Library

/-- `g_key1_schedule`: round keys below `0x012`, the substitution boxes above. -/
abbrev Key1Schedule := Nat → UInt32

def byteSwap32 (value : UInt32) : UInt32 :=
  (value >>> 24) ||| ((value >>> 8) &&& (0x0000FF00 : UInt32)) |||
    ((value <<< 8) &&& (0x00FF0000 : UInt32)) ||| (value <<< 24)

namespace Key1Schedule

def key1F (schedule : Key1Schedule) (value : UInt32) : UInt32 :=
  let out := schedule (0x012 + (value >>> 24).toNat)
  let out := out + schedule (0x112 + ((value >>> 16) &&& 0xFF).toNat)
  let out := out ^^^ schedule (0x212 + ((value >>> 8) &&& 0xFF).toNat)
  out + schedule (0x312 + (value &&& 0xFF).toNat)

/-- One round on the left and the right half. -/
def key1Round (schedule : Key1Schedule) (halves : UInt32 × UInt32) (round : Nat) :
    UInt32 × UInt32 :=
  let mixed := halves.2 ^^^ schedule round
  (mixed, schedule.key1F mixed ^^^ halves.1)

def key1Encrypt (schedule : Key1Schedule) (words : UInt32 × UInt32) : UInt32 × UInt32 :=
  let halves := (List.range 16).foldl schedule.key1Round words
  (halves.2 ^^^ schedule 16, halves.1 ^^^ schedule 17)

/-- The rounds from 17 down to 2. -/
def key1Decrypt (schedule : Key1Schedule) (words : UInt32 × UInt32) : UInt32 × UInt32 :=
  let halves := (List.range' 2 16).reverse.foldl schedule.key1Round words
  (halves.2 ^^^ schedule 1, halves.1 ^^^ schedule 0)

/-- Two words of the schedule from the next encryption of the running block. -/
def key1Refill (s : Key1Schedule × (UInt32 × UInt32)) (j : Nat) :
    Key1Schedule × (UInt32 × UInt32) :=
  let block := s.1.key1Encrypt s.2
  (Function.update (Function.update s.1 (2 * j) block.2) (2 * j + 1) block.1, block)

/-- The schedule and the key code a mixing leaves. -/
def key1Apply (schedule : Key1Schedule) (keycode : Fin 3 → UInt32) (modulus : Nat) :
    Key1Schedule × (Fin 3 → UInt32) :=
  let high := schedule.key1Encrypt (keycode 1, keycode 2)
  let low := schedule.key1Encrypt (keycode 0, high.1)
  let keycode := ![low.1, low.2, high.2]
  let mixed := fun i =>
    if i < 18 then schedule i ^^^ byteSwap32 (keycode (Fin.ofNat 3 (i % modulus)))
    else schedule i
  (((List.range 0x209).foldl key1Refill (mixed, (0, 0))).1, keycode)

def key1Init (base : Key1Schedule) (gameCode : UInt32) (level : Nat) : Key1Schedule :=
  let keycode := ![gameCode, gameCode >>> 1, gameCode <<< 1]
  let (schedule, keycode) := if 1 ≤ level then base.key1Apply keycode 2 else (base, keycode)
  let (schedule, keycode) := if 2 ≤ level then schedule.key1Apply keycode 2 else (schedule, keycode)
  if 3 ≤ level then (schedule.key1Apply ![keycode 0, keycode 1 <<< 1, keycode 2 >>> 1] 2).1
  else schedule

/-! ### Decryption undoes encryption -/

def keys (schedule : Key1Schedule) : List UInt32 := (List.range 18).map schedule

theorem two_le_keys (schedule : Key1Schedule) : 2 ≤ schedule.keys.length := by
  unfold keys
  rw [List.length_map, List.length_range]
  decide

theorem xor_cancel (a b : UInt32) : a ^^^ b ^^^ b = a := by
  rw [UInt32.xor_assoc, UInt32.xor_self, UInt32.xor_zero]

theorem foldl_key1Round (schedule : Key1Schedule) (rounds : List Nat) (halves : UInt32 × UInt32) :
    rounds.foldl schedule.key1Round halves =
      (rounds.map schedule).foldl (Feistel.round (· ^^^ ·) schedule.key1F) halves := by
  rw [List.foldl_map]
  rfl

/-- Encryption is the network over the round keys. -/
theorem key1Encrypt_eq (schedule : Key1Schedule) (words : UInt32 × UInt32) :
    schedule.key1Encrypt words =
      Feistel.network (· ^^^ ·) schedule.key1F schedule.keys words := by
  have hkeys : schedule.keys = (List.range 16).map schedule ++ [schedule 16, schedule 17] := rfl
  rw [hkeys, Feistel.network_append_pair, ← foldl_key1Round]
  rfl

/-- Decryption is the network over the round keys from the other end. -/
theorem key1Decrypt_eq (schedule : Key1Schedule) (words : UInt32 × UInt32) :
    schedule.key1Decrypt words =
      Feistel.network (· ^^^ ·) schedule.key1F schedule.keys.reverse words := by
  have hkeys : schedule.keys.reverse =
      (List.range' 2 16).reverse.map schedule ++ [schedule 1, schedule 0] := rfl
  rw [hkeys, Feistel.network_append_pair, ← foldl_key1Round]
  rfl

theorem key1Decrypt_key1Encrypt (schedule : Key1Schedule) (words : UInt32 × UInt32) :
    schedule.key1Decrypt (schedule.key1Encrypt words) = words := by
  rw [key1Decrypt_eq, key1Encrypt_eq]
  exact Feistel.network_reverse _ _ UInt32.xor_assoc UInt32.xor_comm xor_cancel schedule.keys
    schedule.two_le_keys words

theorem key1Encrypt_key1Decrypt (schedule : Key1Schedule) (words : UInt32 × UInt32) :
    schedule.key1Encrypt (schedule.key1Decrypt words) = words := by
  rw [key1Decrypt_eq, key1Encrypt_eq]
  exact Feistel.network_of_reverse _ _ UInt32.xor_assoc UInt32.xor_comm xor_cancel schedule.keys
    schedule.two_le_keys words

end Key1Schedule

end NdsRecomp.Cart
