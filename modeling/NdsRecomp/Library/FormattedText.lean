import Mathlib.Data.Nat.Digits.Defs
import Mathlib.Data.List.TakeDrop

/-!
Text as the formatted input and output of C write and read it: numerals with a
minimum width, unsigned conversions that skip blanks, a sign and a prefix, the
first occurrence of a pattern, the last of a character, and the lines of a text.
-/

namespace NdsRecomp.Library

/-! ### Numerals -/

/-- The value of a character as a digit, in either case. -/
def digitIn (base : Nat) (c : Char) : Option Nat :=
  let n := c.toNat
  let d :=
    if 48 ≤ n ∧ n ≤ 57 then n - 48
    else if 65 ≤ n ∧ n ≤ 90 then n - 55
    else if 97 ≤ n ∧ n ≤ 122 then n - 87
    else base
  if d < base then some d else none

def isDigitIn (base : Nat) (c : Char) : Bool := (digitIn base c).isSome

/-- The value of a run of digits. -/
def numeralValue (base : Nat) (s : List Char) : Nat :=
  (s.filterMap (digitIn base)).foldl (fun n d => base * n + d) 0

/-- `%u`, `%X` -/
def numeral (base n : Nat) : List Char := (Nat.toDigits base n).map Char.toUpper

/-- `%08X`, `%02X` -/
def paddedNumeral (base width n : Nat) : List Char :=
  List.replicate (width - (numeral base n).length) '0' ++ numeral base n

/-- A digit is none of the characters that end or introduce a number. -/
theorem digit_range {base : Nat} {c : Char} (hbase : base ≤ 16) (h : isDigitIn base c = true) :
    (48 ≤ c.toNat ∧ c.toNat ≤ 57) ∨ (65 ≤ c.toNat ∧ c.toNat ≤ 70) ∨
      (97 ≤ c.toNat ∧ c.toNat ≤ 102) := by
  unfold isDigitIn digitIn at h
  dsimp only at h
  split_ifs at h
  all_goals first | omega | simp at h

theorem digitIn_digitChar {base d : Nat} (hbase : base ≤ 16) (h : d < base) :
    digitIn base (Nat.digitChar d).toUpper = some d := by
  have hall : ∀ e : Fin 16, ∀ b : Fin 17, e.val < b.val →
      digitIn b.val (Nat.digitChar e.val).toUpper = some e.val := by decide
  exact hall ⟨d, by omega⟩ ⟨base, by omega⟩ h

theorem numeralValue_append_digit (base : Nat) (s : List Char) {c : Char} {d : Nat}
    (h : digitIn base c = some d) :
    numeralValue base (s ++ [c]) = base * numeralValue base s + d := by
  unfold numeralValue
  rw [List.filterMap_append, List.foldl_append]
  simp only [List.filterMap_cons, h, List.filterMap_nil, List.foldl_cons, List.foldl_nil]

/-- By induction on the number, one digit at a time from the right. -/
theorem numeral_spec {base : Nat} (hone : 1 < base) (hbase : base ≤ 16) (n : Nat) :
    numeralValue base (numeral base n) = n ∧ ∀ c ∈ numeral base n, isDigitIn base c = true := by
  induction n using Nat.strong_induction_on with
  | _ n ih =>
      have hlast : digitIn base (Nat.digitChar (n % base)).toUpper = some (n % base) :=
        digitIn_digitChar hbase (Nat.mod_lt n (by omega))
      have hdigit : isDigitIn base (Nat.digitChar (n % base)).toUpper = true := by
        unfold isDigitIn
        rw [hlast]
        rfl
      by_cases hlt : n < base
      · have htext : numeral base n = [] ++ [(Nat.digitChar (n % base)).toUpper] := by
          rw [numeral, Nat.toDigits_of_lt_base hlt, Nat.mod_eq_of_lt hlt]
          rfl
        rw [htext]
        refine ⟨?_, fun c hc => ?_⟩
        · rw [numeralValue_append_digit base [] hlast, Nat.mod_eq_of_lt hlt]
          simp [numeralValue]
        · rw [List.mem_singleton.mp hc]
          exact hdigit
      · have htext : numeral base n =
            numeral base (n / base) ++ [(Nat.digitChar (n % base)).toUpper] := by
          rw [numeral, Nat.toDigits_of_base_le hone (by omega), List.map_append]
          rfl
        obtain ⟨hvalue, hdigits⟩ := ih (n / base) (Nat.div_lt_self (by omega) hone)
        rw [htext]
        refine ⟨?_, fun c hc => ?_⟩
        · rw [numeralValue_append_digit base _ hlast, hvalue]
          exact Nat.div_add_mod n base
        · rcases List.mem_append.mp hc with hc | hc
          · exact hdigits c hc
          · rw [List.mem_singleton.mp hc]
            exact hdigit

theorem numeral_ne_nil (base n : Nat) : numeral base n ≠ [] := by
  unfold numeral
  simp [Nat.toDigits_ne_nil]

theorem numeralValue_zeros (base k : Nat) (hbase : 0 < base) (s : List Char) :
    numeralValue base (List.replicate k '0' ++ s) = numeralValue base s := by
  have hzero : digitIn base '0' = some 0 := by
    unfold digitIn
    simp [hbase]
  induction k with
  | zero => rfl
  | succ k ih =>
      rw [← ih, List.replicate_succ]
      unfold numeralValue
      simp [hzero]

section Padded

variable {base : Nat} (hone : 1 < base) (hbase : base ≤ 16) (width n : Nat)

include hone hbase

theorem paddedNumeral_value : numeralValue base (paddedNumeral base width n) = n := by
  unfold paddedNumeral
  rw [numeralValue_zeros base _ (by omega), (numeral_spec hone hbase n).1]

theorem paddedNumeral_digits : ∀ c ∈ paddedNumeral base width n, isDigitIn base c = true := by
  intro c hc
  rcases List.mem_append.mp hc with hzero | hnumeral
  · rw [List.eq_of_mem_replicate hzero]
    unfold isDigitIn digitIn
    simp
    omega
  · exact (numeral_spec hone hbase n).2 c hnumeral

end Padded

theorem paddedNumeral_ne_nil (base width n : Nat) : paddedNumeral base width n ≠ [] := by
  unfold paddedNumeral
  simp [numeral_ne_nil]

/-! ### Conversions -/

def isBlank (c : Char) : Bool := c.toNat == 32 || (decide (9 ≤ c.toNat) && decide (c.toNat ≤ 13))

/-- An optional sign, and whether it is a minus. -/
def splitSign : List Char → Bool × List Char
  | '-' :: rest => (true, rest)
  | '+' :: rest => (false, rest)
  | s => (false, s)

/-- A `0x` counts only before a digit. -/
def dropRadix : List Char → List Char
  | '0' :: 'x' :: c :: rest => if isDigitIn 16 c then c :: rest else '0' :: 'x' :: c :: rest
  | '0' :: 'X' :: c :: rest => if isDigitIn 16 c then c :: rest else '0' :: 'X' :: c :: rest
  | s => s

/-- `strtoul` with 64 bits: a value beyond them saturates, a minus sign negates. -/
def strtoulValue (minus : Bool) (n : Nat) : Nat :=
  if 2 ^ 64 ≤ n then 2 ^ 64 - 1 else if minus then (2 ^ 64 - n) % 2 ^ 64 else n

/-- `%u`, `%X`: the value and what follows it. -/
def scanUnsigned (base : Nat) (s : List Char) : Option (Nat × List Char) :=
  let signed := splitSign (s.dropWhile isBlank)
  let body := if base = 16 then dropRadix signed.2 else signed.2
  let digits := body.takeWhile (isDigitIn base)
  if digits = [] then none
  else some (strtoulValue signed.1 (numeralValue base digits), body.dropWhile (isDigitIn base))

/-- Characters of the format itself. -/
def scanLiteral (literal s : List Char) : Option (List Char) :=
  if literal.isPrefixOf s then some (s.drop literal.length) else none

theorem isPrefixOf_append (p s : List Char) : p.isPrefixOf (p ++ s) = true :=
  List.isPrefixOf_iff_prefix.mpr (List.prefix_append p s)

theorem scanLiteral_append (literal s : List Char) :
    scanLiteral literal (literal ++ s) = some s := by
  unfold scanLiteral
  rw [if_pos (isPrefixOf_append literal s), List.drop_left]

/-- The characters that may follow a numeral: no digit, and no radix letter. -/
def EndsNumeral (rest : List Char) : Prop :=
  ∀ c, rest.head? = some c → isDigitIn 16 c = false ∧ c ≠ 'x' ∧ c ≠ 'X'

theorem not_digit_of_wider {base : Nat} {c : Char} (hbase : base ≤ 16)
    (h : isDigitIn 16 c = false) : isDigitIn base c = false := by
  by_contra hdigit
  rw [Bool.not_eq_false] at hdigit
  unfold isDigitIn digitIn at h hdigit
  dsimp only at h hdigit
  split_ifs at h hdigit
  all_goals first | omega | simp_all

theorem dropRadix_of_second {s : List Char}
    (h : ∀ c d rest, s = c :: d :: rest → d ≠ 'x' ∧ d ≠ 'X') : dropRadix s = s := by
  unfold dropRadix
  split
  · next c rest => exact absurd rfl (h '0' 'x' (c :: rest) rfl).1
  · next c rest => exact absurd rfl (h '0' 'X' (c :: rest) rfl).2
  · rfl

theorem takeWhile_digits {base : Nat} {digits rest : List Char} (hbase : base ≤ 16)
    (hdigits : ∀ c ∈ digits, isDigitIn base c = true) (hrest : EndsNumeral rest) :
    (digits ++ rest).takeWhile (isDigitIn base) = digits ∧
      (digits ++ rest).dropWhile (isDigitIn base) = rest := by
  have hend : rest.takeWhile (isDigitIn base) = [] ∧ rest.dropWhile (isDigitIn base) = rest := by
    cases rest with
    | nil => exact ⟨rfl, rfl⟩
    | cons c rest =>
        have hc := not_digit_of_wider hbase (hrest c rfl).1
        exact ⟨by rw [List.takeWhile_cons, hc]; rfl, by rw [List.dropWhile_cons, hc]; rfl⟩
  constructor
  · rw [List.takeWhile_append_of_pos hdigits, hend.1, List.append_nil]
  · rw [List.dropWhile_append_of_pos hdigits, hend.2]

/-- A numeral is read back, up to the character that ends it. -/
theorem scanUnsigned_digits {base : Nat} {digits rest : List Char} (hbase : base ≤ 16)
    (hne : digits ≠ []) (hdigits : ∀ c ∈ digits, isDigitIn base c = true)
    (hrest : EndsNumeral rest) (hvalue : numeralValue base digits < 2 ^ 64) :
    scanUnsigned base (digits ++ rest) = some (numeralValue base digits, rest) := by
  obtain ⟨d, ds, rfl⟩ := List.exists_cons_of_ne_nil hne
  have hd := digit_range hbase (hdigits d List.mem_cons_self)
  have hblank : ((d :: ds) ++ rest).dropWhile isBlank = (d :: ds) ++ rest := by
    rw [List.cons_append, List.dropWhile_cons, if_neg]
    unfold isBlank
    simp
    omega
  have hsign : splitSign ((d :: ds) ++ rest) = (false, (d :: ds) ++ rest) := by
    have hminus : d ≠ '-' := by rintro rfl; revert hd; decide
    have hplus : d ≠ '+' := by rintro rfl; revert hd; decide
    rw [List.cons_append]
    unfold splitSign
    split
    · next heq => exact absurd (List.cons.inj heq).1 hminus
    · next heq => exact absurd (List.cons.inj heq).1 hplus
    · rfl
  have hradix : dropRadix ((d :: ds) ++ rest) = (d :: ds) ++ rest := by
    refine dropRadix_of_second fun c e tail heq => ?_
    cases ds with
    | nil =>
        obtain ⟨-, rfl⟩ := List.cons.inj heq
        exact (hrest e rfl).2
    | cons f ds =>
        obtain ⟨-, htail⟩ := List.cons.inj heq
        obtain ⟨rfl, -⟩ := List.cons.inj htail
        have he := digit_range hbase (hdigits f (by simp))
        constructor
        · rintro rfl
          revert he
          decide
        · rintro rfl
          revert he
          decide
  obtain ⟨htake, hdrop⟩ := takeWhile_digits hbase hdigits hrest
  unfold scanUnsigned strtoulValue
  simp only [hblank, hsign, hradix, ite_self, htake, hdrop, hne, if_false, Bool.false_eq_true]
  rw [if_neg (by omega)]

theorem scanUnsigned_numeral {base n : Nat} {rest : List Char} (hone : 1 < base) (hbase : base ≤ 16)
    (hn : n < 2 ^ 64) (hrest : EndsNumeral rest) :
    scanUnsigned base (numeral base n ++ rest) = some (n, rest) := by
  obtain ⟨hvalue, hdigits⟩ := numeral_spec hone hbase n
  rw [scanUnsigned_digits hbase (numeral_ne_nil base n) hdigits hrest (by rw [hvalue]; exact hn),
    hvalue]

theorem scanUnsigned_padded {base n : Nat} {rest : List Char} (width : Nat) (hone : 1 < base)
    (hbase : base ≤ 16) (hn : n < 2 ^ 64) (hrest : EndsNumeral rest) :
    scanUnsigned base (paddedNumeral base width n ++ rest) = some (n, rest) := by
  have hvalue := paddedNumeral_value hone hbase width n
  rw [scanUnsigned_digits hbase (paddedNumeral_ne_nil base width n)
    (paddedNumeral_digits hone hbase width n) hrest (by rw [hvalue]; exact hn), hvalue]

/-! ### Searching -/

/-- What stands before the first occurrence of a pattern, and the text from it on. -/
def findText (pattern : List Char) : List Char → Option (List Char × List Char)
  | [] => if pattern.isPrefixOf [] then some ([], []) else none
  | c :: s =>
      if pattern.isPrefixOf (c :: s) then some ([], c :: s)
      else (findText pattern s).map fun found => (c :: found.1, found.2)

/-- What stands before and after the last occurrence of a character. -/
def splitLast (c : Char) : List Char → Option (List Char × List Char)
  | [] => none
  | d :: s =>
      match splitLast c s with
      | some (before, after) => some (d :: before, after)
      | none => if d = c then some ([], s) else none

/-- The lines of a text; a last one counts only where it is not empty. -/
def textLines : List Char → List (List Char)
  | [] => []
  | c :: s =>
      if c = '\n' then [] :: textLines s
      else
        match textLines s with
        | [] => [[c]]
        | line :: lines => (c :: line) :: lines

theorem findText_append {c : Char} {pattern before : List Char} (rest : List Char)
    (h : c ∉ before) :
    findText (c :: pattern) (before ++ (c :: pattern ++ rest)) =
      some (before, c :: pattern ++ rest) := by
  induction before with
  | nil =>
      have hfirst : (c :: pattern).isPrefixOf (c :: (pattern ++ rest)) = true :=
        isPrefixOf_append (c :: pattern) rest
      rw [List.nil_append, List.cons_append, findText, if_pos hfirst]
  | cons d before ih =>
      obtain ⟨hd, hbefore⟩ : c ≠ d ∧ c ∉ before := by simpa using h
      rw [List.cons_append, findText, if_neg, ih hbefore]
      · rfl
      · simp [List.isPrefixOf, hd]

theorem findText_none {c : Char} {pattern s : List Char} (h : c ∉ s) :
    findText (c :: pattern) s = none := by
  induction s with
  | nil => rfl
  | cons d s ih =>
      obtain ⟨hd, hs⟩ : c ≠ d ∧ c ∉ s := by simpa using h
      rw [findText, if_neg, ih hs]
      · rfl
      · simp [List.isPrefixOf, hd]

theorem splitLast_none {c : Char} {s : List Char} (h : c ∉ s) : splitLast c s = none := by
  induction s with
  | nil => rfl
  | cons d s ih =>
      obtain ⟨hd, hs⟩ : c ≠ d ∧ c ∉ s := by simpa using h
      rw [splitLast, ih hs]
      exact if_neg (Ne.symm hd)

theorem splitLast_append {c : Char} {after : List Char} (before : List Char) (h : c ∉ after) :
    splitLast c (before ++ c :: after) = some (before, after) := by
  induction before with
  | nil =>
      rw [List.nil_append, splitLast, splitLast_none h]
      exact if_pos rfl
  | cons d before ih => rw [List.cons_append, splitLast, ih]

theorem textLines_append {line : List Char} (s : List Char) (h : '\n' ∉ line) :
    textLines (line ++ '\n' :: s) = line :: textLines s := by
  induction line with
  | nil => rw [List.nil_append, textLines, if_pos rfl]
  | cons c line ih =>
      obtain ⟨hc, hline⟩ : '\n' ≠ c ∧ '\n' ∉ line := by simpa using h
      rw [List.cons_append, textLines, if_neg (Ne.symm hc), ih hline]

/-- Lines written one after the other are read back. -/
theorem textLines_flatMap {lines : List (List Char)} (h : ∀ line ∈ lines, '\n' ∉ line) :
    textLines (lines.flatMap fun line => line ++ ['\n']) = lines := by
  induction lines with
  | nil => rfl
  | cons line lines ih =>
      rw [List.flatMap_cons, List.append_assoc, List.singleton_append,
        textLines_append _ (h line List.mem_cons_self),
        ih fun l hl => h l (List.mem_cons_of_mem _ hl)]

/-- Two texts neither of which begins the other stay apart under any continuation. -/
theorem isPrefixOf_apart {p q : List Char} (hpq : p.isPrefixOf q = false)
    (hqp : q.isPrefixOf p = false) (s : List Char) : p.isPrefixOf (q ++ s) = false := by
  induction p generalizing q with
  | nil => simp at hpq
  | cons a p ih =>
      cases q with
      | nil => simp at hqp
      | cons b q =>
          simp only [List.isPrefixOf, Bool.and_eq_false_imp, beq_iff_eq] at hpq hqp
          by_cases hab : a = b
          · rw [List.cons_append, List.isPrefixOf, ih (hpq hab) (hqp hab.symm), Bool.and_false]
          · simp [List.isPrefixOf, hab]

end NdsRecomp.Library
