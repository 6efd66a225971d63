import Mathlib.Tactic

/-!
The standard base64 text of a byte string: three bytes in four letters, and one
or two left over in a group that ends in equals signs. Reading it back gives the
bytes.
-/

namespace NdsRecomp.Library.Base64

def alphabet : List Char :=
  "ABCDEFGHIJKLMNOPQRSTUVWXYZabcdefghijklmnopqrstuvwxyz0123456789+/".toList

def letter (n : Nat) : Char := alphabet.getD (n % 64) 'A'

/-- A letter's place in the alphabet. -/
def value (c : Char) : Nat := alphabet.idxOf c

def encode : List UInt8 → List Char
  | a :: b :: c :: rest =>
      let triple := a.toNat * 65536 + b.toNat * 256 + c.toNat
      [letter (triple / 262144), letter (triple / 4096), letter (triple / 64), letter triple] ++
        encode rest
  | [a, b] =>
      let triple := a.toNat * 65536 + b.toNat * 256
      [letter (triple / 262144), letter (triple / 4096), letter (triple / 64), '=']
  | [a] =>
      let triple := a.toNat * 65536
      [letter (triple / 262144), letter (triple / 4096), '=', '=']
  | [] => []

def decode : List Char → List UInt8
  | c₀ :: c₁ :: c₂ :: c₃ :: rest =>
      let triple := value c₀ * 262144 + value c₁ * 4096 + value c₂ * 64 + value c₃
      if c₂ = '=' then [UInt8.ofNat ((value c₀ * 64 + value c₁) / 16)]
      else if c₃ = '=' then
        let pair := value c₀ * 4096 + value c₁ * 64 + value c₂
        [UInt8.ofNat (pair / 1024), UInt8.ofNat (pair / 4)]
      else
        UInt8.ofNat (triple / 65536) :: UInt8.ofNat (triple / 256) :: UInt8.ofNat triple ::
          decode rest
  | _ => []

theorem value_letter (n : Nat) : value (letter n) = n % 64 := by
  have hall : ∀ k < 64, value (alphabet.getD k 'A') = k := by
    set_option maxRecDepth 20000 in decide
  exact hall _ (Nat.mod_lt _ (by decide))

theorem letter_ne_equals (n : Nat) : letter n ≠ '=' := by
  have hall : ∀ k < 64, alphabet.getD k 'A' ≠ '=' := by
    set_option maxRecDepth 20000 in decide
  exact hall _ (Nat.mod_lt _ (by decide))

theorem byte_eq (b : UInt8) {n : Nat} (h : n % 256 = b.toNat) : UInt8.ofNat n = b := by
  rw [← UInt8.toNat_inj, UInt8.toNat_ofNat']
  exact h

theorem decode_encode (bytes : List UInt8) : decode (encode bytes) = bytes := by
  induction bytes using encode.induct with
  | case1 a b c rest ih =>
      have ha := a.toNat_lt
      have hb := b.toNat_lt
      have hc := c.toNat_lt
      simp only [encode, List.cons_append, List.nil_append, decode, letter_ne_equals, if_false,
        value_letter, ih]
      rw [byte_eq a (by omega), byte_eq b (by omega), byte_eq c (by omega)]
  | case2 a b =>
      have ha := a.toNat_lt
      have hb := b.toNat_lt
      simp only [encode, decode, letter_ne_equals, if_false, if_true, value_letter]
      rw [byte_eq a (by omega), byte_eq b (by omega)]
  | case3 a =>
      have ha := a.toNat_lt
      simp only [encode, decode, if_true, value_letter]
      rw [byte_eq a (by omega)]
  | case4 => rfl

end NdsRecomp.Library.Base64
