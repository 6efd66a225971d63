import Mathlib.Data.Nat.Bitwise
import Mathlib.Tactic

/-!
Reflected cyclic checksums over the natural numbers. A turn shifts the register
down and mixes in a constant where a one fell out; the constants may differ from
turn to turn. A run of turns is linear in the register, so it moves the high
part down and depends on the rest through the low bits alone.
-/

namespace NdsRecomp.Library.ReflectedCrc

def turn (s c : Nat) : Nat := if s.testBit 0 then s >>> 1 ^^^ c else s >>> 1

def turns (cs : List Nat) (s : Nat) : Nat := cs.foldl turn s

@[simp] theorem turns_nil (s : Nat) : turns [] s = s := rfl

@[simp] theorem turns_cons (c : Nat) (cs : List Nat) (s : Nat) :
    turns (c :: cs) s = turns cs (turn s c) := rfl

theorem turns_append (cs cs' : List Nat) (s : Nat) :
    turns (cs ++ cs') s = turns cs' (turns cs s) := List.foldl_append

theorem turn_xor (a b c : Nat) : turn (a ^^^ b) c = turn a c ^^^ turn b c := by
  unfold turn
  rw [Nat.testBit_xor, Nat.shiftRight_xor_distrib]
  cases ha : a.testBit 0 <;> cases hb : b.testBit 0
  · rfl
  · exact Nat.xor_assoc _ _ _
  · change a >>> 1 ^^^ b >>> 1 ^^^ c = a >>> 1 ^^^ c ^^^ b >>> 1
    rw [Nat.xor_assoc, Nat.xor_comm (b >>> 1), Nat.xor_assoc]
  · change a >>> 1 ^^^ b >>> 1 = a >>> 1 ^^^ c ^^^ (b >>> 1 ^^^ c)
    rw [Nat.xor_comm (b >>> 1) c, Nat.xor_assoc, ← Nat.xor_assoc c, Nat.xor_self, Nat.zero_xor]

theorem turns_xor (cs : List Nat) (a b : Nat) : turns cs (a ^^^ b) = turns cs a ^^^ turns cs b := by
  induction cs generalizing a b with
  | nil => rfl
  | cons c cs ih => rw [turns_cons, turn_xor, ih, turns_cons, turns_cons]

/-- Nothing falls out of a register whose low bits are clear. -/
theorem turns_shifted (cs : List Nat) (high : Nat) : turns cs (high <<< cs.length) = high := by
  induction cs with
  | nil => rfl
  | cons c cs ih =>
      have hbit : (high <<< (cs.length + 1)).testBit 0 = false := by
        rw [Nat.testBit_shiftLeft]
        simp
      have hdown : high <<< (cs.length + 1) >>> 1 = high <<< cs.length := by
        rw [Nat.shiftLeft_succ, Nat.shiftRight_one, Nat.mul_div_cancel_left _ (by omega)]
      rw [List.length_cons, turns_cons, turn, hbit, hdown]
      exact ih

/-- A register is its high part over its low bits. -/
theorem high_xor_low (s n : Nat) : (s >>> n) <<< n ^^^ s % 2 ^ n = s := by
  apply Nat.eq_of_testBit_eq
  intro i
  rw [Nat.testBit_xor, Nat.testBit_shiftLeft, Nat.testBit_shiftRight, Nat.testBit_mod_two_pow]
  by_cases hi : n ≤ i
  · simp [hi, Nat.not_lt.mpr hi]
  · simp [hi, Nat.lt_of_not_le hi]

theorem turns_split (cs : List Nat) (s : Nat) :
    turns cs s = s >>> cs.length ^^^ turns cs (s % 2 ^ cs.length) := by
  conv_lhs => rw [← high_xor_low s cs.length]
  rw [turns_xor, turns_shifted]

/-- Two runs of one length that agree on the low bits agree. -/
theorem turns_eq_of_low {cs cs' : List Nat} (hlength : cs.length = cs'.length)
    (hlow : ∀ s < 2 ^ cs.length, turns cs s = turns cs' s) (s : Nat) :
    turns cs s = turns cs' s := by
  rw [turns_split cs, turns_split cs', ← hlength, hlow _ (Nat.mod_lt _ (Nat.two_pow_pos _))]

theorem turn_lt {s c k : Nat} (hs : s < 2 ^ (k + 1)) (hc : c < 2 ^ k) : turn s c < 2 ^ k := by
  have hdown : s >>> 1 < 2 ^ k := by
    rw [Nat.shiftRight_one]
    omega
  unfold turn
  split
  · exact Nat.xor_lt_two_pow hdown hc
  · exact hdown

/-- A constant that the rest of the run shifts down into `w` bits. -/
def Fits (w : Nat) : List Nat → Prop
  | [] => True
  | c :: cs => c < 2 ^ (w + cs.length) ∧ Fits w cs

instance Fits.decidable (w : Nat) : (cs : List Nat) → Decidable (Fits w cs)
  | [] => .isTrue trivial
  | c :: cs =>
    have := Fits.decidable w cs
    inferInstanceAs (Decidable (c < 2 ^ (w + cs.length) ∧ Fits w cs))

/-- Every register of a run is as wide as the turns behind it allow. -/
theorem turns_take_lt {w : Nat} {cs : List Nat} (hfits : Fits w cs) {s : Nat}
    (hs : s < 2 ^ (w + cs.length)) (n : Nat) :
    turns (cs.take n) s < 2 ^ (w + (cs.length - n)) := by
  induction cs generalizing s n with
  | nil => simpa using hs
  | cons c cs ih =>
      cases n with
      | zero => exact hs
      | succ n =>
          have hlength : (c :: cs).length - (n + 1) = cs.length - n := by simp
          rw [hlength]
          exact ih hfits.2 (turn_lt hs hfits.1) n

theorem turns_lt {w : Nat} {cs : List Nat} (hfits : Fits w cs) {s : Nat}
    (hs : s < 2 ^ (w + cs.length)) : turns cs s < 2 ^ w := by
  have h := turns_take_lt hfits hs cs.length
  rwa [List.take_length, Nat.sub_self] at h

/-! ### Bytes -/

/-- The register behind a string: each byte is mixed into the low end and
followed by one run of turns. -/
def checksum (cs : List Nat) (s : Nat) (bytes : List Nat) : Nat :=
  bytes.foldl (fun s byte => turns cs (s ^^^ byte)) s

theorem checksum_eq_of_low {cs cs' : List Nat} (hlength : cs.length = cs'.length)
    (hlow : ∀ s < 2 ^ cs.length, turns cs s = turns cs' s) (s : Nat) (bytes : List Nat) :
    checksum cs s bytes = checksum cs' s bytes := by
  unfold checksum
  congr 1
  funext s byte
  exact turns_eq_of_low hlength hlow _

theorem checksum_lt {w : Nat} {cs : List Nat} (hfits : Fits w cs) {bytes : List Nat}
    (hbytes : ∀ byte ∈ bytes, byte < 2 ^ w) {s : Nat} (hs : s < 2 ^ w) :
    checksum cs s bytes < 2 ^ w := by
  induction bytes generalizing s with
  | nil => exact hs
  | cons byte bytes ih =>
      refine ih (fun b hb => hbytes b (List.mem_cons_of_mem _ hb)) (turns_lt hfits ?_)
      exact (Nat.xor_lt_two_pow hs (hbytes byte List.mem_cons_self)).trans_le
        (Nat.pow_le_pow_right (by omega) (Nat.le_add_right _ _))

end NdsRecomp.Library.ReflectedCrc
