import Mathlib.Tactic

/-!
Lists of tagged options as they stand in a byte string: a pad byte 0, or a code,
a length byte and that many bytes of value. A code 255 ends the list. What a
byte string holds is read back from its front.
-/

namespace NdsRecomp.Library.OptionList

inductive Item where
  | pad
  | value (code : UInt8) (bytes : List UInt8)
deriving DecidableEq

namespace Item

def encode : Item → List UInt8
  | pad => [0]
  | value code bytes => code :: UInt8.ofNat bytes.length :: bytes

/-- An option with a code of its own and a length that its byte can hold. -/
def WellFormed : Item → Prop
  | pad => True
  | value code bytes => code ≠ 0 ∧ code ≠ 255 ∧ bytes.length < 256

/-- An option with the code and at least `least` bytes. -/
def IsLong (wanted : UInt8) (least : Nat) : Item → Prop
  | pad => False
  | value code bytes => code = wanted ∧ least ≤ bytes.length

end Item

/-- Well-formed options, none of them long, and then a long one. -/
structure FirstLong (wanted : UInt8) (least : Nat) (bytes : List UInt8) (front : List Item)
    (value rest : List UInt8) : Prop where
  bytes_eq : bytes = front.flatMap Item.encode ++ ((Item.value wanted value).encode ++ rest)
  front_wf : ∀ item ∈ front, item.WellFormed
  front_short : ∀ item ∈ front, ¬ item.IsLong wanted least
  least_le : least ≤ value.length
  length_lt : value.length < 256

def HasLong (wanted : UInt8) (least : Nat) (bytes : List UInt8) : Prop :=
  ∃ front value rest, FirstLong wanted least bytes front value rest

section

variable {wanted : UInt8} {least : Nat} {bytes value rest : List UInt8} {front : List Item}

theorem not_hasLong_nil : ¬ HasLong wanted least [] := by
  rintro ⟨front, value, rest, h⟩
  have hbytes := congrArg List.length h.bytes_eq
  simp [Item.encode] at hbytes

theorem FirstLong.cons {item : Item} (hwf : item.WellFormed) (hshort : ¬ item.IsLong wanted least)
    (h : FirstLong wanted least bytes front value rest) :
    FirstLong wanted least (item.encode ++ bytes) (item :: front) value rest where
  bytes_eq := by rw [h.bytes_eq, List.flatMap_cons, List.append_assoc]
  front_wf := List.forall_mem_cons.mpr ⟨hwf, h.front_wf⟩
  front_short := List.forall_mem_cons.mpr ⟨hshort, h.front_short⟩
  least_le := h.least_le
  length_lt := h.length_lt

/-- What stands in front of the first byte but a pad: a long option with this
code, or an option to be passed. -/
theorem FirstLong.cases (h : FirstLong wanted least bytes front value rest) :
    (∃ front', front = .pad :: front' ∧ ∃ bytes', bytes = 0 :: bytes' ∧
      FirstLong wanted least bytes' front' value rest) ∨
    (∃ code v bytes', bytes = code :: UInt8.ofNat v.length :: (v ++ bytes') ∧ v.length < 256 ∧
      ((front = [] ∧ code = wanted ∧ v = value ∧ bytes' = rest) ∨
        code ≠ 0 ∧ code ≠ 255 ∧ ¬ (code = wanted ∧ least ≤ v.length) ∧
          ∃ front', front = .value code v :: front' ∧
            FirstLong wanted least bytes' front' value rest)) := by
  cases front with
  | nil => exact .inr ⟨wanted, value, rest, by simpa [Item.encode] using h.bytes_eq, h.length_lt,
      .inl ⟨rfl, rfl, rfl, rfl⟩⟩
  | cons item front =>
      have hwf := List.forall_mem_cons.mp h.front_wf
      have hshort := List.forall_mem_cons.mp h.front_short
      have htail : FirstLong wanted least
          (front.flatMap Item.encode ++ ((Item.value wanted value).encode ++ rest))
          front value rest := ⟨rfl, hwf.2, hshort.2, h.least_le, h.length_lt⟩
      have hbytes := h.bytes_eq
      rw [List.flatMap_cons, List.append_assoc] at hbytes
      cases item with
      | pad => exact .inl ⟨front, rfl, _, hbytes, htail⟩
      | value code v =>
          obtain ⟨hzero, hend, hlt⟩ := hwf.1
          exact .inr ⟨code, v, _, hbytes, hlt, .inr ⟨hzero, hend, hshort.1, front, rfl, htail⟩⟩

theorem hasLong_pad (hwanted : wanted ≠ 0) :
    HasLong wanted least (0 :: bytes) ↔ HasLong wanted least bytes := by
  constructor
  · rintro ⟨front, value, rest, h⟩
    obtain ⟨front', _, bytes', hbytes, htail⟩ | ⟨code, v, bytes', hbytes, _, hcase⟩ := h.cases
    · obtain ⟨_, rfl⟩ := List.cons.inj hbytes
      exact ⟨front', value, rest, htail⟩
    · obtain ⟨rfl, _⟩ := List.cons.inj hbytes
      obtain ⟨_, hcode, _⟩ | ⟨hzero, _⟩ := hcase
      · exact absurd hcode.symm hwanted
      · exact absurd rfl hzero
  · rintro ⟨front, value, rest, h⟩
    exact ⟨_, value, rest, h.cons (show Item.pad.WellFormed from trivial) id⟩

theorem not_hasLong_end (hwanted : wanted ≠ 255) : ¬ HasLong wanted least (255 :: bytes) := by
  rintro ⟨front, value, rest, h⟩
  obtain ⟨_, _, bytes', hbytes, _⟩ | ⟨code, v, bytes', hbytes, _, hcase⟩ := h.cases
  · exact absurd (List.cons.inj hbytes).1 (by decide)
  · obtain ⟨rfl, _⟩ := List.cons.inj hbytes
    obtain ⟨_, hcode, _⟩ | ⟨_, hend, _⟩ := hcase
    · exact hwanted hcode.symm
    · exact hend rfl

/-- A code is followed by its length and by as many bytes. -/
theorem HasLong.room {code : UInt8} (hcode : code ≠ 0) (h : HasLong wanted least (code :: bytes)) :
    ∃ length bytes', bytes = length :: bytes' ∧ length.toNat ≤ bytes'.length := by
  obtain ⟨front, value, rest, h⟩ := h
  obtain ⟨_, _, bytes', hbytes, _⟩ | ⟨_, v, bytes', hbytes, hlt, _⟩ := h.cases
  · exact absurd (List.cons.inj hbytes).1 hcode
  · obtain ⟨_, rfl⟩ := List.cons.inj hbytes
    refine ⟨_, _, rfl, ?_⟩
    rw [UInt8.toNat_ofNat_of_lt' hlt, List.length_append]
    exact Nat.le_add_right _ _

/-- The option in front is passed where it is not a long one. -/
theorem hasLong_skip {code length : UInt8} {v : List UInt8} (hcode : code ≠ 0) (hend : code ≠ 255)
    (hlength : v.length = length.toNat) (hshort : ¬ (code = wanted ∧ least ≤ v.length)) :
    HasLong wanted least (code :: length :: (v ++ bytes)) ↔ HasLong wanted least bytes := by
  have hlt : v.length < 256 := hlength ▸ length.toNat_lt
  have hbyte : UInt8.ofNat v.length = length := by rw [hlength, UInt8.ofNat_toNat]
  constructor
  · rintro ⟨front, value, rest, h⟩
    obtain ⟨_, _, bytes', hbytes, _⟩ | ⟨c, u, bytes', hbytes, hu, hcase⟩ := h.cases
    · exact absurd (List.cons.inj hbytes).1 hcode
    · obtain ⟨rfl, htail⟩ := List.cons.inj hbytes
      obtain ⟨hlen, happend⟩ := List.cons.inj htail
      have hsame : v.length = u.length := by
        rw [hlength, hlen, UInt8.toNat_ofNat_of_lt' hu]
      obtain ⟨rfl, rfl⟩ := List.append_inj happend hsame
      obtain ⟨_, hwanted, rfl, _⟩ | ⟨_, _, _, front', _, htail⟩ := hcase
      · exact absurd ⟨hwanted, h.least_le⟩ hshort
      · exact ⟨front', value, rest, htail⟩
  · rintro ⟨front, value, rest, h⟩
    have hencode : (Item.value code v).encode ++ bytes = code :: length :: (v ++ bytes) := by
      rw [← hbyte]
      rfl
    rw [← hencode]
    exact ⟨_, value, rest, h.cons ⟨hcode, hend, hlt⟩ hshort⟩

end

end NdsRecomp.Library.OptionList
