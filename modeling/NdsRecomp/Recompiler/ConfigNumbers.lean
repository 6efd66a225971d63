import Mathlib.Tactic

/-!
Numbers of the recompiler's TOML configs. The TOML library is not part of this
repository: it hands over typed nodes, and its permissive `value<int64_t>()` is a
parameter. A numeric field of a section is read by one helper, which narrows an
integer and hands a string to `strtoul`; a strict reader stands beside it.
-/

namespace NdsRecomp.Recompiler

/-- A parsed node; `other` stands for the floating-point numbers and dates. -/
inductive TomlNode where
  | integer (value : Int64)
  | text (value : String)
  | boolean (value : Bool)
  | array (items : List TomlNode)
  | table (entries : List (String × TomlNode))
  | other (tag : Nat)

abbrev TomlTable := List (String × TomlNode)

/-- What is taken from outside: `value<int64_t>()`, which gives an integer node's
value, nothing for a string, and may convert other nodes; and the width of the
platform's `unsigned long`. -/
structure TomlLibrary where
  int64 : TomlNode → Option Int64
  int64_integer : ∀ value, int64 (.integer value) = some value
  int64_text : ∀ value, int64 (.text value) = none
  /-- `value<bool>()` -/
  bool : TomlNode → Option Bool
  ulongBits : Nat
  ulongBits_ge : 32 ≤ ulongBits

namespace TomlNode

def asText : TomlNode → Option String
  | .text value => some value
  | _ => none

def asTable : TomlNode → Option TomlTable
  | .table entries => some entries
  | _ => none

def asArray : TomlNode → Option (List TomlNode)
  | .array items => some items
  | _ => none

end TomlNode

/-! ### Strings as numbers -/

def hexVal (c : Char) : Option Nat :=
  let n := c.toNat
  if 48 ≤ n ∧ n ≤ 57 then some (n - 48)
  else if 65 ≤ n ∧ n ≤ 70 then some (n - 55)
  else if 97 ≤ n ∧ n ≤ 102 then some (n - 87)
  else none

def isSpace (c : Char) : Bool := c.toNat == 32 || (decide (9 ≤ c.toNat) && decide (c.toNat ≤ 13))

/-- `hex_lower`: a leading `0x` with something behind it goes, upper case becomes
lower case. -/
def hexLower (s : List Char) : List Char :=
  let out :=
    match s with
    | '0' :: 'x' :: c :: rest => c :: rest
    | '0' :: 'X' :: c :: rest => c :: rest
    | _ => s
  out.map Char.toLower

/-- The value of a run of digits in base 16. -/
def digitsValue (digits : List Nat) : Nat := digits.foldl (fun n d => 16 * n + d) 0

/-- The leading digits of a string. -/
def leadingDigits : List Char → List Nat
  | [] => []
  | c :: rest =>
      match hexVal c with
      | some d => d :: leadingDigits rest
      | none => []

/-- An optional sign, and whether it is a minus. -/
def takeSign : List Char → Bool × List Char
  | '-' :: rest => (true, rest)
  | '+' :: rest => (false, rest)
  | s => (false, s)

/-- A `0x` counts only before a digit. -/
def skipPrefix : List Char → List Char
  | '0' :: 'x' :: c :: rest => if (hexVal c).isSome then c :: rest else '0' :: 'x' :: c :: rest
  | '0' :: 'X' :: c :: rest => if (hexVal c).isSome then c :: rest else '0' :: 'X' :: c :: rest
  | s => s

/-- `strtoul(s, &end, 16)`, and nothing where `end == s`: blanks, a sign and a
prefix are skipped, a value beyond the type saturates, and a minus sign negates in
the type. -/
def strtoul16 (bits : Nat) (s : List Char) : Option Nat :=
  let signed := takeSign (s.dropWhile isSpace)
  let digits := leadingDigits (skipPrefix signed.2)
  if digits = [] then none
  else
    let n := digitsValue digits
    if 2 ^ bits ≤ n then some (2 ^ bits - 1)
    else if signed.1 then some ((2 ^ bits - n) % 2 ^ bits)
    else some n

/-! ### The reader -/

/-- `bool& ok, std::string& err`; a failure is sticky, its text is the last one. -/
structure FieldState where
  ok : Bool := true
  err : String := ""
deriving DecidableEq

def missingKey (key : String) : String := "missing required key '" ++ key ++ "'"

def notParseable (key : String) : String := "key '" ++ key ++ "' is not a parseable integer"

def notInteger (key : String) : String := "key '" ++ key ++ "' must be an integer (decimal or hex)"

abbrev U32Reader := TomlTable → String → Bool → FieldState → UInt32 × FieldState

/-- What an absent field reads as. -/
def absentField (key : String) (required : Bool) (st : FieldState) : UInt32 × FieldState :=
  if required then (0, ⟨false, missingKey key⟩) else (0, st)

/-- `get_u32_field` -/
def getU32Field (lib : TomlLibrary) : U32Reader := fun t key required st =>
  match t.lookup key with
  | none => absentField key required st
  | some node =>
      match lib.int64 node with
      | some v => (UInt32.ofInt v.toInt, st)
      | none =>
          match node.asText with
          | some s =>
              match strtoul16 lib.ulongBits (hexLower s.toList) with
              | none => (0, ⟨false, notParseable key⟩)
              | some n => (UInt32.ofNat n, st)
          | none => (0, ⟨false, notInteger key⟩)

def getStringField (t : TomlTable) (key : String) (required : Bool) (st : FieldState) :
    String × FieldState :=
  match t.lookup key with
  | none => if required then ("", ⟨false, missingKey key⟩) else ("", st)
  | some node =>
      match node.asText with
      | some s => (s, st)
      | none => ("", ⟨false, "key '" ++ key ++ "' must be a string"⟩)

/-! ### What is written -/

/-- All characters are digits. -/
def allDigits : List Char → Option (List Nat)
  | [] => some []
  | c :: rest => (hexVal c).bind fun d => (allDigits rest).map (d :: ·)

/-- Digits and nothing else, and at least one. -/
def wholeNumber (s : List Char) : Option Nat :=
  if s = [] then none else (allDigits s).map digitsValue

/-- A string that is wholly a hexadecimal number, with or without `0x`. -/
def hexNumber (s : List Char) : Option Nat :=
  match s with
  | '0' :: 'x' :: rest => wholeNumber rest
  | '0' :: 'X' :: rest => wholeNumber rest
  | _ => wholeNumber s

/-- The number a node writes, where it writes one in 32 bits. -/
def exactValue : TomlNode → Option Nat
  | .integer v => if 0 ≤ v.toInt ∧ v.toInt < 2 ^ 32 then some v.toInt.toNat else none
  | .text s => (hexNumber s.toList).filter (· < 2 ^ 32)
  | _ => none

/-- The reader that stores an exact value or refuses the field. -/
def strictU32Field : U32Reader := fun t key required st =>
  match t.lookup key with
  | none => absentField key required st
  | some node =>
      match exactValue node with
      | some n => (UInt32.ofNat n, st)
      | none => (0, ⟨false, if node.asText.isSome then notParseable key else notInteger key⟩)

/-- A node the helper takes although it writes no number of 32 bits: an integer
outside the range, a string that only begins like a number or whose number is too
large, or a node the library converts. -/
def Loose (lib : TomlLibrary) (node : TomlNode) : Prop :=
  exactValue node = none ∧
    ((lib.int64 node).isSome = true ∨
      ∃ s, node.asText = some s ∧ (strtoul16 lib.ulongBits (hexLower s.toList)).isSome = true)

/-! ### Digits -/

theorem hexVal_toLower (c : Char) : hexVal c.toLower = hexVal c := by
  unfold Char.toLower
  split
  · next hupper =>
      obtain ⟨hlow, hhigh⟩ := hupper
      have hlow : 65 ≤ c.toNat := UInt32.le_iff_toNat_le.mp hlow
      have hhigh : c.toNat ≤ 90 := UInt32.le_iff_toNat_le.mp hhigh
      have hlower : (c.val + ('a'.val - 'A'.val)).toNat = c.toNat + 32 := by
        rw [UInt32.toNat_add]
        exact Nat.mod_eq_of_lt (by change c.toNat + 32 < _; omega)
      unfold hexVal
      change (let n := (c.val + ('a'.val - 'A'.val)).toNat
        if 48 ≤ n ∧ n ≤ 57 then some (n - 48)
        else if 65 ≤ n ∧ n ≤ 70 then some (n - 55)
        else if 97 ≤ n ∧ n ≤ 102 then some (n - 87)
        else none) = _
      rw [hlower]
      dsimp only
      rw [if_neg (by omega), if_neg (by omega), if_neg (c := 48 ≤ c.toNat ∧ _) (by omega)]
      by_cases hdigit : c.toNat ≤ 70
      · rw [if_pos (by omega), if_pos ⟨hlow, hdigit⟩]
        congr 1
      · rw [if_neg (by omega), if_neg (by omega), if_neg (by omega)]
  · rfl

theorem hexVal_code {c : Char} {d : Nat} (h : hexVal c = some d) :
    48 ≤ c.toNat ∧ c.toNat ≤ 57 ∨ 65 ≤ c.toNat ∧ c.toNat ≤ 70 ∨ 97 ≤ c.toNat ∧ c.toNat ≤ 102 := by
  unfold hexVal at h
  dsimp only at h
  split at h
  · next hc => exact Or.inl hc
  · split at h
    · next hc => exact Or.inr (Or.inl hc)
    · split at h
      · next hc => exact Or.inr (Or.inr hc)
      · cases h

theorem allDigits_lower (s : List Char) : allDigits (s.map Char.toLower) = allDigits s := by
  induction s with
  | nil => rfl
  | cons c rest ih => rw [List.map_cons, allDigits, allDigits, hexVal_toLower, ih]

theorem allDigits_cons {c : Char} {rest : List Char} {ds : List Nat}
    (h : allDigits (c :: rest) = some ds) :
    ∃ d others, hexVal c = some d ∧ allDigits rest = some others ∧ ds = d :: others := by
  rw [allDigits, Option.bind_eq_some_iff] at h
  obtain ⟨d, hd, h⟩ := h
  obtain ⟨others, hothers, rfl⟩ := Option.map_eq_some_iff.mp h
  exact ⟨d, others, hd, hothers, rfl⟩

theorem leadingDigits_of_all {s : List Char} {ds : List Nat} (h : allDigits s = some ds) :
    leadingDigits s = ds := by
  induction s generalizing ds with
  | nil => exact Option.some.inj h
  | cons c rest ih =>
      obtain ⟨d, others, hd, hothers, rfl⟩ := allDigits_cons h
      rw [leadingDigits, hd, ih hothers]

/-- `strtoul` of nothing but digits is their value. -/
theorem strtoul16_digits {bits : Nat} {s : List Char} {ds : List Nat} (hne : s ≠ [])
    (hall : allDigits s = some ds) (hfit : digitsValue ds < 2 ^ bits) :
    strtoul16 bits s = some (digitsValue ds) := by
  cases s with
  | nil => exact absurd rfl hne
  | cons c rest =>
      obtain ⟨d, others, hd, hothers, rfl⟩ := allDigits_cons hall
      have hcode := hexVal_code hd
      have hspace : isSpace c = false := by
        unfold isSpace
        simp
        omega
      have hminus : c ≠ '-' := by
        rintro rfl
        exact absurd hcode (by decide)
      have hplus : c ≠ '+' := by
        rintro rfl
        exact absurd hcode (by decide)
      have hsign : takeSign (c :: rest) = (false, c :: rest) := by
        unfold takeSign
        split
        · next h => exact absurd (List.cons.inj h).1 hminus
        · next h => exact absurd (List.cons.inj h).1 hplus
        · rfl
      -- an `x` behind the first digit would not be a digit
      have hmark : skipPrefix (c :: rest) = c :: rest := by
        unfold skipPrefix
        split
        · next heq =>
            cases heq
            obtain ⟨d', -, hd', -, -⟩ := allDigits_cons hothers
            exact absurd (hexVal_code hd') (by decide)
        · next heq =>
            cases heq
            obtain ⟨d', -, hd', -, -⟩ := allDigits_cons hothers
            exact absurd (hexVal_code hd') (by decide)
        · rfl
      have hdrop : (c :: rest).dropWhile isSpace = c :: rest := by
        rw [List.dropWhile_cons, hspace]
        rfl
      have hdigits : leadingDigits (skipPrefix (takeSign ((c :: rest).dropWhile isSpace)).2) =
          d :: others := by
        rw [hdrop, hsign, hmark, leadingDigits_of_all hall]
      unfold strtoul16
      dsimp only
      rw [hdigits, hdrop, hsign, if_neg (List.cons_ne_nil d others), if_neg (by omega)]
      rfl

/-- A string that is wholly a number is read as that number. -/
theorem strtoul16_hexNumber {bits : Nat} {s : List Char} {n : Nat} (h : hexNumber s = some n)
    (hfit : n < 2 ^ bits) : strtoul16 bits (hexLower s) = some n := by
  have hread : ∀ body : List Char, wholeNumber body = some n →
      body ≠ [] ∧ strtoul16 bits (body.map Char.toLower) = some n := by
    intro body hwhole
    unfold wholeNumber at hwhole
    split at hwhole
    · cases hwhole
    · next hne =>
        obtain ⟨ds, hds, rfl⟩ := Option.map_eq_some_iff.mp hwhole
        exact ⟨hne, strtoul16_digits (by simpa using hne) (by rw [allDigits_lower, hds]) hfit⟩
  unfold hexNumber at h
  unfold hexLower
  dsimp only
  split
  · exact (hread _ h).2
  · exact (hread _ h).2
  · next hx hX =>
      split at h
      · next rest =>
          cases rest with
          | nil => exact absurd rfl (hread _ h).1
          | cons c rest => exact absurd rfl (hx c rest)
      · next rest =>
          cases rest with
          | nil => exact absurd rfl (hread _ h).1
          | cons c rest => exact absurd rfl (hX c rest)
      · exact (hread _ h).2

/-! ### One field -/

/-- The helper is the strict reader exactly on the nodes that are not loose. -/
theorem getU32Field_eq_strict {lib : TomlLibrary} {t : TomlTable} {key : String}
    (hplain : ∀ node, t.lookup key = some node → ¬ Loose lib node) :
    getU32Field lib t key = strictU32Field t key := by
  funext required st
  unfold getU32Field strictU32Field
  cases hnode : t.lookup key with
  | none => rfl
  | some node =>
      have hnot := hplain node hnode
      dsimp only
      cases hexact : exactValue node with
      | some n =>
          cases node with
          | integer v =>
              simp only [exactValue] at hexact
              split at hexact
              · next hrange =>
                  cases hexact
                  rw [lib.int64_integer]
                  dsimp only
                  unfold UInt32.ofInt
                  rw [Int.emod_eq_of_lt hrange.1 hrange.2]
              · cases hexact
          | text s =>
              simp only [exactValue] at hexact
              obtain ⟨hnumber, hlt⟩ := Option.filter_eq_some_iff.mp hexact
              have hpow : 2 ^ 32 ≤ 2 ^ lib.ulongBits :=
                Nat.pow_le_pow_right (by omega) lib.ulongBits_ge
              rw [lib.int64_text]
              dsimp only [TomlNode.asText]
              rw [strtoul16_hexNumber hnumber (by have := of_decide_eq_true hlt; omega)]
          | boolean _ => cases hexact
          | array _ => cases hexact
          | table _ => cases hexact
          | other _ => cases hexact
      | none =>
          have hint : lib.int64 node = none := by
            cases h : lib.int64 node with
            | none => rfl
            | some v => exact absurd ⟨hexact, Or.inl (by rw [h]; rfl)⟩ hnot
          rw [hint]
          dsimp only
          cases htext : node.asText with
          | none => rfl
          | some s =>
              have hnone : strtoul16 lib.ulongBits (hexLower s.toList) = none := by
                cases h : strtoul16 lib.ulongBits (hexLower s.toList) with
                | none => rfl
                | some n =>
                    exact absurd ⟨hexact, Or.inr ⟨s, htext, by rw [h]; rfl⟩⟩ hnot
              dsimp only
              rw [hnone]
              rfl

/-- A loose node is taken by the helper and refused by the strict reader. -/
theorem loose_taken {lib : TomlLibrary} {t : TomlTable} {key : String} {node : TomlNode}
    (hnode : t.lookup key = some node) (hloose : Loose lib node) (required : Bool) (st : FieldState) :
    (getU32Field lib t key required st).2 = st ∧
      (strictU32Field t key required st).2.ok = false := by
  obtain ⟨hexact, htaken⟩ := hloose
  unfold getU32Field strictU32Field
  rw [hnode]
  dsimp only
  rw [hexact]
  refine ⟨?_, rfl⟩
  cases hint : lib.int64 node with
  | some v => rfl
  | none =>
      rcases htaken with h | ⟨s, htext, h⟩
      · rw [hint] at h
        cases h
      · obtain ⟨n, hn⟩ := Option.isSome_iff_exists.mp h
        dsimp only
        rw [htext]
        dsimp only
        rw [hn]

/-- A field the strict reader accepts is not loose, and no field before it failed. -/
theorem strictU32Field_ok {lib : TomlLibrary} {t : TomlTable} {key : String} {required : Bool}
    {st : FieldState} (h : (strictU32Field t key required st).2.ok = true) :
    st.ok = true ∧ ∀ node, t.lookup key = some node → ¬ Loose lib node := by
  refine ⟨?_, fun node hnode hloose => ?_⟩
  · unfold strictU32Field absentField at h
    split at h
    · split at h
      · cases h
      · exact h
    · split at h
      · exact h
      · cases h
  · rw [(loose_taken hnode hloose required st).2] at h
    cases h

end NdsRecomp.Recompiler
