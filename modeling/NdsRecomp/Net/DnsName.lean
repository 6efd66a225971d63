import NdsRecomp.Net.DhcpDns

/-!
`dns_read_name`: the labels of a DNS name, joined by points, in a buffer of the caller's.
Compression pointers are offsets from the start of the message; where they lead is
followed for the labels, and the name ends where it stands. `none` is an access outside
the frame or outside the buffer.

What a name is on the wire is a relation of its own.
-/

namespace NdsRecomp.Net

/-- The buffer and `out_pos`. -/
structure NameOut where
  bytes : List UInt8
  pos : Nat

/-- A character where there is room for it and a terminating zero. -/
def NameOut.put (o : NameOut) (c : Option UInt8) : Option NameOut :=
  if o.pos + 1 < o.bytes.length then
    c.bind fun c => (store o.bytes o.pos c).map fun bytes => ⟨bytes, o.pos + 1⟩
  else some o

def NameOut.putPoint (o : NameOut) : Option NameOut :=
  if o.pos ≠ 0 then o.put (some 0x2E) else some o

/-- `n` bytes of the frame from `p` on. -/
def NameOut.putLabel (frame : List UInt8) : Nat → Nat → NameOut → Option NameOut
  | _, 0, o => some o
  | p, n + 1, o => (o.put frame[p]?).bind (putLabel frame (p + 1) n)

/-- The terminating zero. -/
def NameOut.terminate (o : NameOut) : Option (List UInt8) :=
  if o.bytes.length = 0 then some o.bytes
  else store o.bytes (if o.pos < o.bytes.length then o.pos else o.bytes.length - 1) 0

/-- The result with what the function leaves: the buffer, `*end_pos` and `jumps`. -/
structure NameRead where
  found : Bool
  out : List UInt8
  endPos : Nat
  jumps : Nat
  deriving DecidableEq

/-- The loop; `realEnd` is `none` until `end_set`. -/
def dnsReadNameFrom (frame : List UInt8) (msgBase pos : Nat) (o : NameOut) (realEnd : Option Nat)
    (jumps : Nat) : Option NameRead :=
  if frame.length ≤ pos then some ⟨false, o.bytes, 0, jumps⟩
  else frame[pos]?.bind fun labelLen =>
    if labelLen = 0 then
      o.terminate.map fun out => ⟨true, out, realEnd.getD (pos + 1), jumps⟩
    else if labelLen &&& 0xC0 = 0xC0 then
      if frame.length ≤ pos + 1 then some ⟨false, o.bytes, 0, jumps⟩
      else if 20 < jumps + 1 then some ⟨false, o.bytes, 0, jumps + 1⟩
      else frame[pos + 1]?.bind fun low =>
        dnsReadNameFrom frame msgBase (msgBase + ((labelLen &&& 0x3F).toNat * 256 + low.toNat)) o
          (some (realEnd.getD (pos + 2))) (jumps + 1)
    else if frame.length < pos + 1 + labelLen.toNat then some ⟨false, o.bytes, 0, jumps⟩
    else o.putPoint.bind fun o => (o.putLabel frame (pos + 1) labelLen.toNat).bind fun o =>
      dnsReadNameFrom frame msgBase (pos + 1 + labelLen.toNat) o realEnd jumps
termination_by (20 - jumps, frame.length - pos)

def dnsReadName (frame : List UInt8) (msgBase pos : Nat) (out : List UInt8) : Option NameRead :=
  (if out.length = 0 then some out else store out 0 0).bind fun out =>
    dnsReadNameFrom frame msgBase pos ⟨out, 0⟩ none 0

/-! ## Names on the wire -/

/-- A name at `pos`: labels of 1 to 63 bytes, then a zero or a pointer to a name before it.
`stop` is behind the name and `pointers` how many pointers it is read through. -/
inductive EncodedName (frame : List UInt8) (msgBase : Nat) :
    Nat → List (List UInt8) → Nat → Nat → Prop
  | root {pos : Nat} : frame[pos]? = some 0 → EncodedName frame msgBase pos [] (pos + 1) 0
  | label {pos stop pointers : Nat} {l : List UInt8} {labels : List (List UInt8)} :
      1 ≤ l.length → l.length ≤ 63 → frame[pos]? = some (UInt8.ofNat l.length) →
      (∀ i < l.length, frame[pos + 1 + i]? = l[i]?) →
      EncodedName frame msgBase (pos + 1 + l.length) labels stop pointers →
      EncodedName frame msgBase pos (l :: labels) stop pointers
  | pointer {pos target stop pointers : Nat} {labels : List (List UInt8)} :
      target < 2 ^ 14 → msgBase + target < pos →
      frame[pos]? = some (UInt8.ofNat (0xC0 + target / 256)) →
      frame[pos + 1]? = some (UInt8.ofNat (target % 256)) →
      EncodedName frame msgBase (msgBase + target) labels stop pointers →
      EncodedName frame msgBase pos labels (pos + 2) (pointers + 1)

/-- The labels, joined by points. -/
def dottedName (labels : List (List UInt8)) : List UInt8 := List.intercalate [0x2E] labels

/-! ## Within the frame and the buffer -/

variable {frame : List UInt8} {msgBase pos : Nat} {o : NameOut}

theorem getElem?_of_lt {p : Nat} (h : p < frame.length) : ∃ b, frame[p]? = some b :=
  ⟨frame[p], List.getElem?_eq_getElem h⟩

theorem store_of_lt {i : Nat} (h : i < frame.length) (v : UInt8) :
    store frame i v = some (frame.set i v) := if_pos h

/-- There is room for a terminating zero where the next character would stand. -/
def NameOut.Fits (o : NameOut) : Prop := o.pos = 0 ∨ o.pos < o.bytes.length

/-- A buffer of the same size that still fits. -/
def NameOut.Follows (o o' : NameOut) : Prop := o'.bytes.length = o.bytes.length ∧ o'.Fits

theorem NameOut.Follows.trans {o o' o'' : NameOut} (h : o.Follows o') (h' : o'.Follows o'') :
    o.Follows o'' := ⟨h'.1.trans h.1, h'.2⟩

theorem NameOut.put_stays (h : o.Fits) (c : UInt8) :
    ∃ o', o.put (some c) = some o' ∧ o.Follows o' := by
  unfold put
  by_cases hroom : o.pos + 1 < o.bytes.length
  · rw [if_pos hroom, Option.bind_some, store_of_lt (by omega)]
    exact ⟨_, rfl, List.length_set, .inr (by simpa using hroom)⟩
  · rw [if_neg hroom]
    exact ⟨o, rfl, rfl, h⟩

theorem NameOut.putPoint_stays (h : o.Fits) : ∃ o', o.putPoint = some o' ∧ o.Follows o' := by
  unfold putPoint
  split
  · exact put_stays h 0x2E
  · exact ⟨o, rfl, rfl, h⟩

theorem NameOut.putLabel_stays (n : Nat) {p : Nat} (hp : p + n ≤ frame.length) (h : o.Fits) :
    ∃ o', o.putLabel frame p n = some o' ∧ o.Follows o' := by
  induction n generalizing p o with
  | zero => exact ⟨o, rfl, rfl, h⟩
  | succ n ih =>
      obtain ⟨b, hb⟩ : ∃ b, frame[p]? = some b := getElem?_of_lt (by omega)
      obtain ⟨o', hput, hfollows⟩ := put_stays h b
      obtain ⟨o'', hrest, hfollows'⟩ := ih (p := p + 1) (by omega) hfollows.2
      refine ⟨o'', ?_, hfollows.trans hfollows'⟩
      rw [putLabel, hb, hput]
      exact hrest

/-- The zero is within the buffer, unless there is none. -/
theorem NameOut.terminate_stays (o : NameOut) :
    ∃ out, o.terminate = some out ∧ out.length = o.bytes.length ∧ (0 < out.length → 0 ∈ out) := by
  unfold terminate
  by_cases hempty : o.bytes.length = 0
  · rw [if_pos hempty]
    exact ⟨_, rfl, rfl, fun h => absurd hempty (by omega)⟩
  · rw [if_neg hempty]
    have hlt : (if o.pos < o.bytes.length then o.pos else o.bytes.length - 1) < o.bytes.length := by
      split <;> omega
    rw [store_of_lt hlt]
    exact ⟨_, rfl, List.length_set, fun _ => List.mem_set hlt 0⟩

/-- What a reading leaves. -/
structure NameRead.Stays (size : Nat) (r : NameRead) : Prop where
  length : r.out.length = size
  jumps : r.jumps ≤ 21
  terminated : r.found = true → r.jumps ≤ 20 ∧ (0 < size → 0 ∈ r.out)

section Step

variable {realEnd : Option Nat} {jumps : Nat} {b : UInt8}

theorem lt_of_getElem?_eq_some {p : Nat} (h : frame[p]? = some b) : ¬frame.length ≤ p :=
  Nat.not_le.mpr (List.getElem?_eq_some_iff.mp h).1

theorem dnsReadNameFrom_root (hb : frame[pos]? = some 0) :
    dnsReadNameFrom frame msgBase pos o realEnd jumps =
      o.terminate.map fun out => ⟨true, out, realEnd.getD (pos + 1), jumps⟩ := by
  rw [dnsReadNameFrom, if_neg (lt_of_getElem?_eq_some hb), hb, Option.bind_some, if_pos rfl]

theorem dnsReadNameFrom_pointer {low : UInt8} (hb : frame[pos]? = some b) (hne : b ≠ 0)
    (hmask : b &&& 0xC0 = 0xC0) (hlow : frame[pos + 1]? = some low) :
    dnsReadNameFrom frame msgBase pos o realEnd jumps =
      if 20 < jumps + 1 then some ⟨false, o.bytes, 0, jumps + 1⟩
      else dnsReadNameFrom frame msgBase (msgBase + ((b &&& 0x3F).toNat * 256 + low.toNat)) o
        (some (realEnd.getD (pos + 2))) (jumps + 1) := by
  rw [dnsReadNameFrom, if_neg (lt_of_getElem?_eq_some hb), hb, Option.bind_some, if_neg hne,
    if_pos hmask, if_neg (lt_of_getElem?_eq_some hlow), hlow, Option.bind_some]

theorem dnsReadNameFrom_label (hb : frame[pos]? = some b) (hne : b ≠ 0)
    (hmask : b &&& 0xC0 ≠ 0xC0) (hlength : pos + 1 + b.toNat ≤ frame.length) :
    dnsReadNameFrom frame msgBase pos o realEnd jumps =
      o.putPoint.bind fun o => (o.putLabel frame (pos + 1) b.toNat).bind fun o =>
        dnsReadNameFrom frame msgBase (pos + 1 + b.toNat) o realEnd jumps := by
  rw [dnsReadNameFrom, if_neg (lt_of_getElem?_eq_some hb), hb, Option.bind_some, if_neg hne,
    if_neg hmask, if_neg (Nat.not_lt.mpr hlength)]

end Step

/-- A false return leaves the buffer as it stands. -/
theorem stays_of_not_found {jumps : Nat} (hjumps : jumps ≤ 21) :
    NameRead.Stays o.bytes.length ⟨false, o.bytes, 0, jumps⟩ :=
  ⟨rfl, hjumps, fun h => by cases h⟩

/-- The induction is the recursion's own: a pointer uses up a jump, a label the frame. -/
theorem dnsReadNameFrom_stays (realEnd : Option Nat) {jumps : Nat} (hfits : o.Fits)
    (hjumps : jumps ≤ 20) :
    ∃ r, dnsReadNameFrom frame msgBase pos o realEnd jumps = some r ∧ r.Stays o.bytes.length := by
  induction pos, o, realEnd, jumps using dnsReadNameFrom.induct frame msgBase with
  | case1 pos o realEnd jumps hend =>
      rw [dnsReadNameFrom, if_pos hend]
      exact ⟨_, rfl, stays_of_not_found (by omega)⟩
  | case2 pos o realEnd jumps hpos hpointer hlabel =>
      obtain ⟨b, hb⟩ := getElem?_of_lt (Nat.not_le.mp hpos)
      by_cases hzero : b = 0
      · rw [dnsReadNameFrom_root (hzero ▸ hb)]
        obtain ⟨out, hout, hlength, hmem⟩ := o.terminate_stays
        rw [hout]
        exact ⟨_, rfl, hlength, hjumps.trans (by decide), fun _ => ⟨hjumps, hlength ▸ hmem⟩⟩
      · by_cases hmask : b &&& 0xC0 = 0xC0
        · by_cases hend : frame.length ≤ pos + 1
          · rw [dnsReadNameFrom, if_neg hpos, hb, Option.bind_some, if_neg hzero, if_pos hmask,
              if_pos hend]
            exact ⟨_, rfl, stays_of_not_found (by omega)⟩
          · obtain ⟨low, hlow⟩ := getElem?_of_lt (Nat.not_le.mp hend)
            rw [dnsReadNameFrom_pointer hb hzero hmask hlow]
            by_cases hguard : 20 < jumps + 1
            · rw [if_pos hguard]
              exact ⟨_, rfl, stays_of_not_found (by omega)⟩
            · rw [if_neg hguard]
              exact hpointer b hguard low hfits (by omega)
        · by_cases hend : frame.length < pos + 1 + b.toNat
          · rw [dnsReadNameFrom, if_neg hpos, hb, Option.bind_some, if_neg hzero, if_neg hmask,
              if_pos hend]
            exact ⟨_, rfl, stays_of_not_found (by omega)⟩
          · rw [dnsReadNameFrom_label hb hzero hmask (Nat.not_lt.mp hend)]
            obtain ⟨o', hpoint, hfollows⟩ := NameOut.putPoint_stays hfits
            obtain ⟨o'', hput, hfollows'⟩ :=
              NameOut.putLabel_stays b.toNat (Nat.not_lt.mp hend) hfollows.2
            rw [hpoint, Option.bind_some, hput, Option.bind_some]
            have hsame := (hfollows.trans hfollows').1
            rw [← hsame]
            exact hlabel b hend o'' hfollows'.2 hjumps

/-- The reader stays within the frame and its buffer, jumps at most 21 times, and leaves a
terminated text where it finds a name. -/
theorem dnsReadName_stays (frame : List UInt8) (msgBase pos : Nat) (out : List UInt8) :
    ∃ r, dnsReadName frame msgBase pos out = some r ∧ r.Stays out.length := by
  unfold dnsReadName
  by_cases hempty : out.length = 0
  · rw [if_pos hempty, Option.bind_some]
    exact dnsReadNameFrom_stays none (.inl rfl) (Nat.zero_le _)
  · rw [if_neg hempty, store_of_lt (by omega), Option.bind_some]
    have h : ∃ r, dnsReadNameFrom frame msgBase pos ⟨out.set 0 0, 0⟩ none 0 = some r ∧
        r.Stays (out.set 0 0).length := dnsReadNameFrom_stays none (.inl rfl) (Nat.zero_le _)
    rwa [List.length_set] at h

/-! ## What is read of a name -/

/-- The buffer begins with the text, as much of it as leaves room for a zero. -/
structure NameOut.Holds (text : List UInt8) (o : NameOut) : Prop where
  pos : o.pos = min text.length (o.bytes.length - 1)
  bytes : o.bytes.take o.pos = text.take (o.bytes.length - 1)

theorem NameOut.Holds.fits {text : List UInt8} (h : o.Holds text) : o.Fits := by
  have hpos := h.pos
  unfold Fits
  omega

/-- A character more. -/
theorem NameOut.Holds.put {text : List UInt8} (h : o.Holds text) (c : UInt8) :
    ∃ o', o.put (some c) = some o' ∧ o'.bytes.length = o.bytes.length ∧ o'.Holds (text ++ [c]) := by
  have hpos := h.pos
  unfold NameOut.put
  by_cases hroom : o.pos + 1 < o.bytes.length
  · rw [if_pos hroom, Option.bind_some, store_of_lt (by omega)]
    have htext : o.pos = text.length := by omega
    have htake : o.bytes.take o.pos = text := by
      rw [h.bytes, List.take_of_length_le (by omega)]
    refine ⟨_, rfl, List.length_set, ?_, ?_⟩
    · simp only [List.length_append, List.length_cons, List.length_nil, List.length_set]
      omega
    · have hall : (text ++ [c]).take (o.bytes.length - 1) = text ++ [c] :=
        List.take_of_length_le (by
          simp only [List.length_append, List.length_cons, List.length_nil]
          omega)
      show (o.bytes.set o.pos c).take (o.pos + 1) =
        (text ++ [c]).take ((o.bytes.set o.pos c).length - 1)
      rw [List.length_set, hall, List.take_succ_eq_append_getElem (by rw [List.length_set]; omega),
        List.take_set_of_le (le_refl _), htake, List.getElem_set_self]
  · rw [if_neg hroom]
    refine ⟨o, rfl, rfl, ?_, ?_⟩
    · simp only [List.length_append, List.length_cons, List.length_nil]
      omega
    · rw [h.bytes, List.take_append_of_le_length (by omega)]

/-- The point before every label but the first. -/
def withPoint (text : List UInt8) : List UInt8 := if text = [] then [] else text ++ [0x2E]

theorem NameOut.Holds.putPoint {text : List UInt8} (h : o.Holds text) :
    ∃ o', o.putPoint = some o' ∧ o'.bytes.length = o.bytes.length ∧ o'.Holds (withPoint text) := by
  have hpos := h.pos
  unfold NameOut.putPoint withPoint
  by_cases hstart : o.pos = 0
  · rw [if_neg (fun hne => hne hstart)]
    refine ⟨o, rfl, rfl, ?_⟩
    by_cases htext : text = []
    · rw [if_pos htext, ← htext]
      exact h
    · -- No character has found room, so none does.
      have hlength := List.length_pos_iff.mpr htext
      have hnone : o.bytes.length - 1 = 0 := by omega
      rw [if_neg htext]
      exact ⟨by rw [hnone, hstart, Nat.min_zero], by rw [hnone, hstart]; rfl⟩
  · have htext : text ≠ [] := fun hnil => hstart (by rw [hpos, hnil]; simp)
    rw [if_pos hstart, if_neg htext]
    exact h.put 0x2E

/-- The bytes of a label more. -/
theorem NameOut.Holds.putLabel {l text : List UInt8} {p : Nat} (h : o.Holds text)
    (hframe : ∀ i < l.length, frame[p + i]? = l[i]?) :
    ∃ o', o.putLabel frame p l.length = some o' ∧ o'.bytes.length = o.bytes.length ∧
      o'.Holds (text ++ l) := by
  induction l generalizing o text p with
  | nil => exact ⟨o, rfl, rfl, by rwa [List.append_nil]⟩
  | cons c l ih =>
      obtain ⟨o', hput, hsame, hholds⟩ := h.put c
      obtain ⟨o'', hrest, hsame', hholds'⟩ := ih hholds (p := p + 1) fun i hi => by
        have hi' := hframe (i + 1) (Nat.succ_lt_succ hi)
        rwa [show p + (i + 1) = p + 1 + i by omega, List.getElem?_cons_succ] at hi'
      have hfirst : frame[p]? = some c := hframe 0 (Nat.zero_lt_succ _)
      refine ⟨o'', ?_, hsame'.trans hsame, ?_⟩
      · rw [List.length_cons, NameOut.putLabel, hfirst, hput]
        exact hrest
      · rwa [List.append_assoc] at hholds'

/-- The text with its zero, cut to a buffer of `size` bytes. -/
def HoldsName (size : Nat) (text out : List UInt8) : Prop :=
  out.length = size ∧ (0 < size → ∃ rest, out = text.take (size - 1) ++ 0 :: rest)

theorem NameOut.Holds.terminate {text : List UInt8} (h : o.Holds text) :
    ∃ out, o.terminate = some out ∧ HoldsName o.bytes.length text out := by
  have hpos := h.pos
  unfold NameOut.terminate
  by_cases hempty : o.bytes.length = 0
  · rw [if_pos hempty]
    exact ⟨_, rfl, rfl, fun h => absurd hempty (by omega)⟩
  · have hlt : o.pos < o.bytes.length := by omega
    rw [if_neg hempty, if_pos hlt, store_of_lt hlt]
    refine ⟨_, rfl, List.length_set, fun _ => ⟨o.bytes.drop (o.pos + 1), ?_⟩⟩
    rw [List.set_eq_take_append_cons_drop, if_pos hlt, h.bytes]

/-- The text once more labels are read. -/
def appendLabels : List UInt8 → List (List UInt8) → List UInt8
  | text, [] => text
  | text, l :: labels => appendLabels (withPoint text ++ l) labels

/-- A label that is there lies within the frame. -/
theorem label_within {l : List UInt8} {p : Nat} (hpos : 1 ≤ l.length)
    (hbytes : ∀ i < l.length, frame[p + i]? = l[i]?) : p + l.length ≤ frame.length := by
  have hsome : l[l.length - 1]? = some l[l.length - 1] := List.getElem?_eq_getElem (by omega)
  have hlast := (hbytes (l.length - 1) (by omega)).trans hsome
  have hlt := (List.getElem?_eq_some_iff.mp hlast).1
  omega

/-- The first byte of a label, and of a pointer. -/
theorem labelLength_facts : ∀ n < 64, 1 ≤ n →
    UInt8.ofNat n ≠ 0 ∧ UInt8.ofNat n &&& 0xC0 ≠ 0xC0 ∧ (UInt8.ofNat n).toNat = n := by
  decide

theorem pointerHigh_facts : ∀ n < 64,
    UInt8.ofNat (0xC0 + n) ≠ 0 ∧ UInt8.ofNat (0xC0 + n) &&& 0xC0 = 0xC0 ∧
      (UInt8.ofNat (0xC0 + n) &&& 0x3F).toNat = n := by
  decide

theorem pointer_facts {target : Nat} (h : target < 2 ^ 14) :
    UInt8.ofNat (0xC0 + target / 256) ≠ 0 ∧ UInt8.ofNat (0xC0 + target / 256) &&& 0xC0 = 0xC0 ∧
      (UInt8.ofNat (0xC0 + target / 256) &&& 0x3F).toNat * 256 +
        (UInt8.ofNat (target % 256)).toNat = target := by
  obtain ⟨hne, hmask, hhigh⟩ := pointerHigh_facts (target / 256) (by omega)
  refine ⟨hne, hmask, ?_⟩
  rw [hhigh, UInt8.toNat_ofNat', Nat.mod_eq_of_lt (Nat.mod_lt _ (by decide))]
  exact Nat.div_add_mod' target 256

section Encoded

variable {labels : List (List UInt8)} {stop pointers : Nat}

/-- A name's labels are appended to the text, and the position behind it is the one found
first. -/
theorem dnsReadNameFrom_encoded (h : EncodedName frame msgBase pos labels stop pointers)
    {text : List UInt8} (hholds : o.Holds text) (realEnd : Option Nat) {jumps : Nat}
    (hjumps : jumps + pointers ≤ 20) :
    ∃ out, dnsReadNameFrom frame msgBase pos o realEnd jumps =
        some ⟨true, out, realEnd.getD stop, jumps + pointers⟩ ∧
      HoldsName o.bytes.length (appendLabels text labels) out := by
  induction h generalizing o text realEnd jumps with
  | root hb =>
      obtain ⟨out, hout, hname⟩ := hholds.terminate
      rw [dnsReadNameFrom_root hb, hout]
      exact ⟨out, rfl, hname⟩
  | @label pos stop pointers l labels hpos hshort hb hbytes hrest ih =>
      obtain ⟨hne, hmask, htoNat⟩ := labelLength_facts l.length (by omega) hpos
      have hlength : pos + 1 + (UInt8.ofNat l.length).toNat ≤ frame.length := by
        rw [htoNat]
        exact label_within hpos hbytes
      obtain ⟨o', hpoint, hsame, hholds'⟩ := hholds.putPoint
      obtain ⟨o'', hput, hsame', hholds''⟩ := hholds'.putLabel hbytes
      rw [dnsReadNameFrom_label hb hne hmask hlength, hpoint, Option.bind_some, htoNat, hput,
        Option.bind_some, ← hsame, ← hsame']
      exact ih hholds'' realEnd hjumps
  | @pointer pos target stop pointers labels htarget hearlier hb hlow hrest ih =>
      obtain ⟨hne, hmask, hoffset⟩ := pointer_facts htarget
      rw [dnsReadNameFrom_pointer hb hne hmask hlow, if_neg (by omega), hoffset]
      obtain ⟨out, hread, hname⟩ :=
        ih hholds (some (realEnd.getD (pos + 2))) (show jumps + 1 + pointers ≤ 20 by omega)
      refine ⟨out, ?_, hname⟩
      rw [hread, Option.getD_some, Nat.add_assoc jumps 1, Nat.add_comm 1]

/-- The guard against pointer loops refuses a name behind more than 20 pointers. -/
theorem dnsReadNameFrom_refused (h : EncodedName frame msgBase pos labels stop pointers)
    (hfits : o.Fits) (realEnd : Option Nat) {jumps : Nat} (hjumps : jumps ≤ 20)
    (hmany : 20 < jumps + pointers) :
    ∃ r, dnsReadNameFrom frame msgBase pos o realEnd jumps = some r ∧ r.found = false := by
  induction h generalizing o realEnd jumps with
  | root hb => omega
  | @label pos stop pointers l labels hpos hshort hb hbytes hrest ih =>
      obtain ⟨hne, hmask, htoNat⟩ := labelLength_facts l.length (by omega) hpos
      have hlength : pos + 1 + (UInt8.ofNat l.length).toNat ≤ frame.length := by
        rw [htoNat]
        exact label_within hpos hbytes
      obtain ⟨o', hpoint, hfollows⟩ := NameOut.putPoint_stays hfits
      obtain ⟨o'', hput, hfollows'⟩ := NameOut.putLabel_stays _ hlength hfollows.2
      rw [dnsReadNameFrom_label hb hne hmask hlength, hpoint, Option.bind_some, hput,
        Option.bind_some, htoNat]
      exact ih hfollows'.2 realEnd hjumps hmany
  | @pointer pos target stop pointers labels htarget hearlier hb hlow hrest ih =>
      obtain ⟨hne, hmask, hoffset⟩ := pointer_facts htarget
      rw [dnsReadNameFrom_pointer hb hne hmask hlow, hoffset]
      by_cases hguard : 20 < jumps + 1
      · rw [if_pos hguard]
        exact ⟨_, rfl, rfl⟩
      · rw [if_neg hguard]
        exact ih hfits _ (by omega) (by omega)

/-- The labels behind a text that is not empty. -/
theorem appendLabels_eq {text : List UInt8} (h : text ≠ []) (labels : List (List UInt8)) :
    appendLabels text labels = text ++ labels.flatMap (0x2E :: ·) := by
  induction labels generalizing text with
  | nil => simp [appendLabels]
  | cons l labels ih =>
      rw [appendLabels, withPoint, if_neg h, ih (by simp)]
      simp

theorem dottedName_cons (l : List UInt8) (labels : List (List UInt8)) :
    dottedName (l :: labels) = l ++ labels.flatMap (0x2E :: ·) := by
  induction labels generalizing l with
  | nil => simp [dottedName]
  | cons next labels ih =>
      have hnext := ih next
      simp only [dottedName, List.intercalate_cons_cons, List.flatMap_cons, List.cons_append,
        List.append_assoc] at hnext ⊢
      rw [hnext]
      rfl

theorem EncodedName.first_ne_nil {l : List UInt8} {rest : List (List UInt8)}
    (h : EncodedName frame msgBase pos labels stop pointers) (hlabels : labels = l :: rest) :
    l ≠ [] := by
  induction h with
  | root _ => cases hlabels
  | label hpos _ _ _ _ _ =>
      cases hlabels
      exact List.length_pos_iff.mp hpos
  | pointer _ _ _ _ _ ih => exact ih hlabels

theorem EncodedName.appendLabels_nil
    (h : EncodedName frame msgBase pos labels stop pointers) :
    appendLabels [] labels = dottedName labels := by
  cases labels with
  | nil => rfl
  | cons l rest =>
      rw [appendLabels, withPoint, if_pos rfl, List.nil_append,
        appendLabels_eq (h.first_ne_nil rfl), dottedName_cons]

/-- A name behind at most 20 pointers is read as its labels joined by points, cut to what the
buffer holds; the position found is the one behind the name where it stands. -/
theorem dnsReadName_encoded (h : EncodedName frame msgBase pos labels stop pointers)
    (out : List UInt8) (hpointers : pointers ≤ 20) :
    ∃ out', dnsReadName frame msgBase pos out = some ⟨true, out', stop, pointers⟩ ∧
      HoldsName out.length (dottedName labels) out' := by
  have hholds : ∀ bytes : List UInt8, (NameOut.mk bytes 0).Holds [] := fun bytes =>
    ⟨(Nat.zero_min _).symm, List.take_nil.symm⟩
  unfold dnsReadName
  rw [← h.appendLabels_nil]
  by_cases hempty : out.length = 0
  · obtain ⟨out', hread, hname⟩ :=
      dnsReadNameFrom_encoded h (hholds out) none (show 0 + pointers ≤ 20 by omega)
    rw [if_pos hempty, Option.bind_some, hread, Nat.zero_add]
    exact ⟨out', rfl, hname⟩
  · obtain ⟨out', hread, hname⟩ :=
      dnsReadNameFrom_encoded h (hholds (out.set 0 0)) none (show 0 + pointers ≤ 20 by omega)
    rw [if_neg hempty, store_of_lt (by omega), Option.bind_some, hread, Nat.zero_add]
    rw [List.length_set] at hname
    exact ⟨out', rfl, hname⟩

/-- A name in full. -/
def wireName : List (List UInt8) → List UInt8
  | [] => [0]
  | l :: labels => UInt8.ofNat l.length :: l ++ wireName labels

theorem wireName_encoded (hlabels : ∀ l ∈ labels, 1 ≤ l.length ∧ l.length ≤ 63)
    (before after : List UInt8) :
    EncodedName (before ++ wireName labels ++ after) msgBase before.length labels
      (before.length + (wireName labels).length) 0 := by
  induction labels generalizing before with
  | nil => exact .root (by simp [wireName])
  | cons l labels ih =>
      obtain ⟨hpos, hshort⟩ := hlabels l List.mem_cons_self
      have hframe : before ++ wireName (l :: labels) ++ after =
          (before ++ UInt8.ofNat l.length :: l) ++ wireName labels ++ after := by
        simp [wireName]
      have hrest := ih (fun m hm => hlabels m (List.mem_cons_of_mem _ hm))
        (before ++ UInt8.ofNat l.length :: l)
      rw [← hframe, List.length_append, List.length_cons,
        show before.length + (l.length + 1) = before.length + 1 + l.length by omega] at hrest
      have hstop : before.length + 1 + l.length + (wireName labels).length =
          before.length + (wireName (l :: labels)).length := by
        simp only [wireName, List.length_append, List.length_cons]
        omega
      rw [hstop] at hrest
      refine .label hpos hshort ?_ (fun i hi => ?_) hrest
      · rw [hframe]
        simp
      · rw [hframe, show before.length + 1 + i = before.length + (i + 1) by omega]
        simp only [List.append_assoc, List.getElem?_append_right (Nat.le_add_right _ _),
          Nat.add_sub_cancel_left, List.cons_append, List.getElem?_cons_succ]
        exact List.getElem?_append_left hi

/-- What is written in full is read. -/
theorem dnsReadName_wireName (hlabels : ∀ l ∈ labels, 1 ≤ l.length ∧ l.length ≤ 63)
    (before after out : List UInt8) :
    ∃ out', dnsReadName (before ++ wireName labels ++ after) msgBase before.length out =
        some ⟨true, out', before.length + (wireName labels).length, 0⟩ ∧
      HoldsName out.length (dottedName labels) out' :=
  dnsReadName_encoded (wireName_encoded hlabels before after) out (Nat.zero_le _)

theorem dnsReadName_refused (h : EncodedName frame msgBase pos labels stop pointers)
    (out : List UInt8) (hmany : 20 < pointers) :
    ∃ r, dnsReadName frame msgBase pos out = some r ∧ r.found = false := by
  unfold dnsReadName
  by_cases hempty : out.length = 0
  · rw [if_pos hempty, Option.bind_some]
    exact dnsReadNameFrom_refused h (.inl rfl) none (Nat.zero_le _) (by omega)
  · rw [if_neg hempty, store_of_lt (by omega), Option.bind_some]
    exact dnsReadNameFrom_refused h (.inl rfl) none (Nat.zero_le _) (by omega)

end Encoded

/-! ### Names that each point to the one before -/

/-- 22 names of one label each, every one but the first continued by the name before it. -/
def chainedNames : List UInt8 :=
  [1, 0x61, 0] ++ (List.range 21).flatMap fun k => [1, 0x61, 0xC0, UInt8.ofNat (4 * k - 1)]

theorem chainedNames_bytes : ∀ k < 21,
    chainedNames[4 * k + 3]? = some 1 ∧ chainedNames[4 * k + 4]? = some 0x61 ∧
      chainedNames[4 * k + 5]? = some 0xC0 ∧
      chainedNames[4 * k + 6]? = some (UInt8.ofNat (4 * k - 1)) := by
  decide

/-- Name `k` stands at `4 * k - 1` and is read through `k` pointers. -/
theorem chainedNames_encoded (k : Nat) (hk : k ≤ 21) :
    EncodedName chainedNames 0 (4 * k - 1) (List.replicate (k + 1) [0x61])
      (if k = 0 then 3 else 4 * k + 3) k := by
  induction k with
  | zero =>
      refine .label (by decide) (by decide) rfl (fun i hi => ?_) (.root rfl)
      rw [Nat.lt_one_iff.mp hi]
      rfl
  | succ k ih =>
      obtain ⟨hlabel, hletter, hhigh, hlow⟩ := chainedNames_bytes k (by omega)
      have htarget : 4 * k - 1 < 256 := by omega
      have hpointer : EncodedName chainedNames 0 (4 * k + 5) (List.replicate (k + 1) [0x61])
          (4 * k + 7) (k + 1) := by
        have hbefore := ih (by omega)
        rw [← Nat.zero_add (4 * k - 1)] at hbefore
        refine .pointer (by omega) ?_ ?_ ?_ hbefore
        · omega
        · rw [hhigh, Nat.div_eq_of_lt htarget]
          rfl
        · rw [hlow, Nat.mod_eq_of_lt htarget]
      refine .label (by decide) (by decide) hlabel (fun i hi => ?_) hpointer
      rw [Nat.lt_one_iff.mp hi]
      exact hletter

/-- The last of the names is encoded, through 21 pointers to names before it, and refused. -/
theorem chainedNames_refused :
    EncodedName chainedNames 0 83 (List.replicate 22 [0x61]) 87 21 ∧
      ∃ r, dnsReadName chainedNames 0 83 (List.replicate 256 0) = some r ∧ r.found = false := by
  have h := chainedNames_encoded 21 (le_refl 21)
  exact ⟨h, dnsReadName_refused h _ (by decide)⟩

end NdsRecomp.Net
