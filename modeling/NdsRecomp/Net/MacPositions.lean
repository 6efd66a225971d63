import NdsRecomp.Net.Sanitize

/-!
Where a frame holds addresses. Rewriting a frame writes over these fields, host
names and the UDP checksum, and none of them decides where the fields are: the
rewritten frame holds its addresses at the same positions.
-/

namespace NdsRecomp.Net

/-! ### Fields -/

/-- What a rule leaves of an address. -/
def FieldRule.applied (rule : FieldRule) (m : Mac) : Mac := (rule.onMac m).getD m

theorem writeMac_outside (f : Bytes) {p i : Nat} (m : Mac) (h : i < p ∨ p + 6 ≤ i) :
    writeMac f p m i = f i := by
  unfold writeMac
  rw [dif_neg (by omega)]

theorem macAt_writeMac (f : Bytes) (p : Nat) (m : Mac) : macAt (writeMac f p m) p = m := by
  funext k
  have hk : p ≤ p + k.val ∧ p + k.val < p + 6 := ⟨Nat.le_add_right _ _, by omega⟩
  unfold macAt writeMac
  rw [dif_pos hk]
  exact congrArg m (Fin.ext (Nat.add_sub_cancel_left p k.val))

theorem writeBytes_outside (f : Bytes) {p n i : Nat} (src : List UInt8) (h : i < p ∨ p + n ≤ i) :
    writeBytes f p n src i = f i := by
  unfold writeBytes
  rw [if_neg (by omega)]

theorem rewriteMac_outside (rule : FieldRule) (f : Bytes) {p i : Nat} (h : i < p ∨ p + 6 ≤ i) :
    (rewriteMac rule f p).1 i = f i := by
  unfold rewriteMac
  split
  · exact writeMac_outside f _ h
  · rfl

theorem macAt_rewriteMac (rule : FieldRule) (f : Bytes) (p : Nat) :
    macAt (rewriteMac rule f p).1 p = rule.applied (macAt f p) := by
  unfold rewriteMac FieldRule.applied
  cases rule.onMac (macAt f p) with
  | none => rfl
  | some m => exact macAt_writeMac f p m

/-- Frames that agree on a field hold the same address there. -/
theorem macAt_congr {f g : Bytes} {p : Nat} (h : ∀ i, p ≤ i → i < p + 6 → g i = f i) :
    macAt g p = macAt f p := by
  funext k
  exact h (p + k) (Nat.le_add_right _ _) (by omega)

theorem rd16_congr {f g : Bytes} {p : Nat} (h : g p = f p) (h' : g (p + 1) = f (p + 1)) :
    rd16 g p = rd16 f p := by
  unfold rd16
  rw [h, h']

theorem rewriteChecksum_outside (f : Bytes) (udpOff udpLen : Nat) {i : Nat}
    (h : i < udpOff + 6 ∨ udpOff + 8 ≤ i) : rewriteChecksum f udpOff udpLen i = f i := by
  unfold rewriteChecksum
  split
  · rfl
  · exact writeBytes_outside f _ h

/-! ### Options -/

/-- The client identifiers among the options from `p` on. -/
def optionPositions (stop : Nat) (f : Bytes) (p : Nat) : List Nat :=
  if stop ≤ p then []
  else if f p = 0xFF then []
  else if f p = 0 then optionPositions stop f (p + 1)
  else if stop ≤ p + 1 then []
  else if stop < p + 2 + (f (p + 1)).toNat then []
  else if f p = 61 ∧ (f (p + 1)).toNat = 7 ∧ f (p + 2) = 1 then
    (p + 3) :: optionPositions stop f (p + 2 + (f (p + 1)).toNat)
  else optionPositions stop f (p + 2 + (f (p + 1)).toNat)
termination_by stop - p

theorem rewriteOption_before (rule : FieldRule) (f : Bytes) {p i : Nat} (h : i < p + 2) :
    (rewriteOption rule f p).1 i = f i := by
  unfold rewriteOption
  dsimp only
  split
  · exact rewriteMac_outside rule f (Or.inl (by omega))
  · split
    · split
      · exact writeBytes_outside f _ (Or.inl h)
      · rfl
    · rfl

theorem rewriteOption_after (rule : FieldRule) (f : Bytes) {p i : Nat}
    (h : p + 2 + (f (p + 1)).toNat ≤ i) : (rewriteOption rule f p).1 i = f i := by
  unfold rewriteOption
  dsimp only
  split
  · next hclient => exact rewriteMac_outside rule f (Or.inr (by omega))
  · split
    · split
      · exact writeBytes_outside f _ (Or.inr h)
      · rfl
    · rfl

/-- The loop leaves at `p`: past the end, at the end marker, or at an option
that does not fit. -/
def OptionsEnd (stop : Nat) (f : Bytes) (p : Nat) : Prop :=
  stop ≤ p ∨ f p = 0xFF ∨ (f p ≠ 0 ∧ (stop ≤ p + 1 ∨ stop < p + 2 + (f (p + 1)).toNat))

def PadAt (stop : Nat) (f : Bytes) (p : Nat) : Prop := ¬ stop ≤ p ∧ f p = 0

structure OptionAt (stop : Nat) (f : Bytes) (p : Nat) : Prop where
  inside : ¬ stop ≤ p
  notEnd : f p ≠ 0xFF
  notPad : f p ≠ 0
  hasLength : ¬ stop ≤ p + 1
  fits : ¬ stop < p + 2 + (f (p + 1)).toNat

def ClientAt (f : Bytes) (p : Nat) : Prop := f p = 61 ∧ (f (p + 1)).toNat = 7 ∧ f (p + 2) = 1

theorem option_cases (stop : Nat) (f : Bytes) (p : Nat) :
    OptionsEnd stop f p ∨ PadAt stop f p ∨ OptionAt stop f p := by
  by_cases hend : OptionsEnd stop f p
  · exact Or.inl hend
  · unfold OptionsEnd at hend
    push Not at hend
    obtain ⟨hinside, hmarker, hfits⟩ := hend
    by_cases hpad : f p = 0
    · exact Or.inr (Or.inl ⟨Nat.not_le.mpr hinside, hpad⟩)
    · obtain ⟨hlast, hlong⟩ := hfits hpad
      exact Or.inr (Or.inr ⟨Nat.not_le.mpr hinside, hmarker, hpad, Nat.not_le.mpr hlast,
        Nat.not_lt.mpr hlong⟩)

section Options

variable {rule : FieldRule} {stop : Nat} {f g : Bytes} {p : Nat}

theorem rewriteOptions_end (h : OptionsEnd stop f p) : rewriteOptions rule stop f p = (f, false) := by
  rw [rewriteOptions]
  rcases h with hstop | hmarker | ⟨hpad, hlast | hlong⟩
  · rw [if_pos hstop]
  · rw [if_pos hmarker, ite_self]
  · rw [if_neg hpad, if_pos hlast, ite_self, ite_self]
  · rw [if_neg hpad, if_pos hlong, ite_self, ite_self, ite_self]

theorem optionPositions_end (h : OptionsEnd stop f p) : optionPositions stop f p = [] := by
  rw [optionPositions]
  rcases h with hstop | hmarker | ⟨hpad, hlast | hlong⟩
  · rw [if_pos hstop]
  · rw [if_pos hmarker, ite_self]
  · rw [if_neg hpad, if_pos hlast, ite_self, ite_self]
  · rw [if_neg hpad, if_pos hlong, ite_self, ite_self, ite_self]

theorem PadAt.ne_end (h : PadAt stop f p) : f p ≠ 0xFF := by
  rw [h.2]
  decide

theorem rewriteOptions_pad (h : PadAt stop f p) :
    rewriteOptions rule stop f p = rewriteOptions rule stop f (p + 1) := by
  rw [rewriteOptions, if_neg h.1, if_neg h.ne_end, if_pos h.2]

theorem optionPositions_pad (h : PadAt stop f p) :
    optionPositions stop f p = optionPositions stop f (p + 1) := by
  rw [optionPositions, if_neg h.1, if_neg h.ne_end, if_pos h.2]

theorem rewriteOptions_option (h : OptionAt stop f p) :
    (rewriteOptions rule stop f p).1 =
      (rewriteOptions rule stop (rewriteOption rule f p).1 (p + 2 + (f (p + 1)).toNat)).1 := by
  rw [rewriteOptions, if_neg h.inside, if_neg h.notEnd, if_neg h.notPad, if_neg h.hasLength,
    if_neg h.fits]

theorem optionPositions_client (h : OptionAt stop f p) (hclient : ClientAt f p) :
    optionPositions stop f p = (p + 3) :: optionPositions stop f (p + 2 + (f (p + 1)).toNat) := by
  rw [optionPositions, if_neg h.inside, if_neg h.notEnd, if_neg h.notPad, if_neg h.hasLength,
    if_neg h.fits]
  exact if_pos hclient

theorem optionPositions_other (h : OptionAt stop f p) (hother : ¬ ClientAt f p) :
    optionPositions stop f p = optionPositions stop f (p + 2 + (f (p + 1)).toNat) := by
  rw [optionPositions, if_neg h.inside, if_neg h.notEnd, if_neg h.notPad, if_neg h.hasLength,
    if_neg h.fits]
  exact if_neg hother

theorem OptionsEnd.congr (h : OptionsEnd stop f p) (hcode : g p = f p) (hlen : g (p + 1) = f (p + 1)) :
    OptionsEnd stop g p := by
  unfold OptionsEnd
  rw [hcode, hlen]
  exact h

theorem PadAt.congr (h : PadAt stop f p) (hcode : g p = f p) : PadAt stop g p := ⟨h.1, hcode.trans h.2⟩

theorem OptionAt.congr (h : OptionAt stop f p) (hcode : g p = f p) (hlen : g (p + 1) = f (p + 1)) :
    OptionAt stop g p where
  inside := h.inside
  notEnd := by rw [hcode]; exact h.notEnd
  notPad := by rw [hcode]; exact h.notPad
  hasLength := h.hasLength
  fits := by rw [hlen]; exact h.fits

/-- Only the bytes from `p` on decide. -/
theorem optionPositions_congr (h : ∀ i, p ≤ i → g i = f i) :
    optionPositions stop g p = optionPositions stop f p := by
  have hcode : g p = f p := h p (le_refl p)
  have hlen : g (p + 1) = f (p + 1) := h (p + 1) (by omega)
  induction hn : stop - p using Nat.strong_induction_on generalizing p with
  | _ n ih =>
      subst hn
      rcases option_cases stop f p with hend | hpad | hoption
      · rw [optionPositions_end hend, optionPositions_end (hend.congr hcode hlen)]
      · have hinside := hpad.1
        rw [optionPositions_pad hpad, optionPositions_pad (hpad.congr hcode)]
        exact ih _ (by omega) (fun i hi => h i (by omega)) hlen (h _ (by omega)) rfl
      · have hinside := hoption.inside
        have htail := ih (stop - (p + 2 + (f (p + 1)).toNat)) (by omega)
          (fun i hi => h i (by omega)) (h _ (by omega)) (h _ (by omega)) rfl
        have hclient : ClientAt g p ↔ ClientAt f p := by
          unfold ClientAt
          rw [hcode, hlen, h (p + 2) (by omega)]
        by_cases hc : ClientAt f p
        · rw [optionPositions_client hoption hc,
            optionPositions_client (hoption.congr hcode hlen) (hclient.mpr hc), hlen, htail]
        · rw [optionPositions_other hoption hc,
            optionPositions_other (hoption.congr hcode hlen) (fun hg => hc (hclient.mp hg)), hlen, htail]

theorem optionPositions_ge {q : Nat} (h : q ∈ optionPositions stop f p) : p ≤ q := by
  induction hn : stop - p using Nat.strong_induction_on generalizing p with
  | _ n ih =>
      subst hn
      rcases option_cases stop f p with hend | hpad | hoption
      · rw [optionPositions_end hend] at h
        cases h
      · have hinside := hpad.1
        rw [optionPositions_pad hpad] at h
        exact (Nat.le_succ p).trans (ih _ (by omega) h rfl)
      · have hinside := hoption.inside
        by_cases hc : ClientAt f p
        · rw [optionPositions_client hoption hc] at h
          rcases List.mem_cons.mp h with rfl | htail
          · exact Nat.le_add_right p 3
          · have hle := ih _ (by omega) htail rfl
            omega
        · rw [optionPositions_other hoption hc] at h
          have hle := ih _ (by omega) h rfl
          omega

/-- The walk writes nothing before `p`. -/
theorem rewriteOptions_before {i : Nat} (h : i < p) : (rewriteOptions rule stop f p).1 i = f i := by
  induction hn : stop - p using Nat.strong_induction_on generalizing f p with
  | _ n ih =>
      subst hn
      rcases option_cases stop f p with hend | hpad | hoption
      · rw [rewriteOptions_end hend]
      · have hinside := hpad.1
        rw [rewriteOptions_pad hpad]
        exact ih _ (by omega) (by omega) rfl
      · have hinside := hoption.inside
        rw [rewriteOptions_option hoption, ih _ (by omega) (by omega) rfl]
        exact rewriteOption_before rule f (by omega)

theorem rewriteOption_beyond (h : OptionAt stop f p) {i : Nat} (hi : stop ≤ i) :
    (rewriteOption rule f p).1 i = f i := by
  have hfits := h.fits
  exact rewriteOption_after rule f (by omega)

/-- The walk writes nothing behind the options. -/
theorem rewriteOptions_beyond {i : Nat} (h : stop ≤ i) : (rewriteOptions rule stop f p).1 i = f i := by
  induction hn : stop - p using Nat.strong_induction_on generalizing f p with
  | _ n ih =>
      subst hn
      rcases option_cases stop f p with hend | hpad | hoption
      · rw [rewriteOptions_end hend]
      · have hinside := hpad.1
        rw [rewriteOptions_pad hpad]
        exact ih _ (by omega) rfl
      · have hinside := hoption.inside
        rw [rewriteOptions_option hoption, ih _ (by omega) rfl]
        exact rewriteOption_beyond hoption h

/-- Rewriting a client identifier keeps its hardware type. -/
theorem rewriteOption_type (h : f p = 61) : (rewriteOption rule f p).1 (p + 2) = f (p + 2) := by
  have hname : ¬ (f p = 12 ∧ 0 < (f (p + 1)).toNat) := by
    rw [h]
    exact fun hand => absurd hand.1 (by decide)
  unfold rewriteOption
  dsimp only
  rw [if_neg hname]
  split
  · exact rewriteMac_outside rule f (Or.inl (by omega))
  · rfl

theorem macAt_rewriteOption (h : ClientAt f p) :
    macAt (rewriteOption rule f p).1 (p + 3) = rule.applied (macAt f (p + 3)) := by
  have hbranch : rewriteOption rule f p = rewriteMac rule f (p + 3) := if_pos h
  rw [hbranch, macAt_rewriteMac]

/-- The walk keeps where the identifiers are, and rewrites each of them. -/
theorem rewriteOptions_spec :
    optionPositions stop (rewriteOptions rule stop f p).1 p = optionPositions stop f p ∧
      ∀ q ∈ optionPositions stop f p,
        macAt (rewriteOptions rule stop f p).1 q = rule.applied (macAt f q) := by
  induction hn : stop - p using Nat.strong_induction_on generalizing f p with
  | _ n ih =>
      subst hn
      rcases option_cases stop f p with hend | hpad | hoption
      · rw [rewriteOptions_end hend, optionPositions_end hend]
        exact ⟨rfl, fun q hq => by cases hq⟩
      · have hinside := hpad.1
        have hkeep : (rewriteOptions rule stop f p).1 p = f p := by
          rw [rewriteOptions_pad hpad]
          exact rewriteOptions_before (Nat.lt_succ_self p)
        rw [optionPositions_pad (hpad.congr hkeep), optionPositions_pad hpad, rewriteOptions_pad hpad]
        exact ih _ (by omega) rfl
      · have hinside := hoption.inside
        obtain ⟨hpositions, hfields⟩ := ih (stop - (p + 2 + (f (p + 1)).toNat)) (by omega)
          (f := (rewriteOption rule f p).1) rfl
        have hafter : ∀ i, p + 2 + (f (p + 1)).toNat ≤ i → (rewriteOption rule f p).1 i = f i :=
          fun i hi => rewriteOption_after rule f hi
        have hsame : optionPositions stop (rewriteOption rule f p).1 (p + 2 + (f (p + 1)).toNat) =
            optionPositions stop f (p + 2 + (f (p + 1)).toNat) := optionPositions_congr hafter
        rw [hsame] at hpositions hfields
        have hout : ∀ i, i < p + 2 + (f (p + 1)).toNat →
            (rewriteOptions rule stop f p).1 i = (rewriteOption rule f p).1 i := by
          intro i hi
          rw [rewriteOptions_option hoption]
          exact rewriteOptions_before hi
        have hcode : (rewriteOptions rule stop f p).1 p = f p :=
          (hout p (by omega)).trans (rewriteOption_before rule f (by omega))
        have hlen : (rewriteOptions rule stop f p).1 (p + 1) = f (p + 1) :=
          (hout (p + 1) (by omega)).trans (rewriteOption_before rule f (by omega))
        have htail : ∀ q ∈ optionPositions stop f (p + 2 + (f (p + 1)).toNat),
            macAt (rewriteOptions rule stop f p).1 q = rule.applied (macAt f q) := by
          intro q hq
          have hge := optionPositions_ge hq
          rw [rewriteOptions_option hoption, hfields q hq]
          exact congrArg rule.applied (macAt_congr fun i hi _ => hafter i (by omega))
        rw [← rewriteOptions_option hoption] at hpositions
        have htype : f p = 61 → (f (p + 1)).toNat = 7 →
            (rewriteOptions rule stop f p).1 (p + 2) = f (p + 2) := by
          intro hclient hseven
          exact (hout (p + 2) (by omega)).trans (rewriteOption_type hclient)
        by_cases hc : ClientAt f p
        · have hc' : ClientAt (rewriteOptions rule stop f p).1 p := by
            unfold ClientAt
            rw [hcode, hlen, htype hc.1 hc.2.1]
            exact hc
          have hseven := hc.2.1
          rw [optionPositions_client (hoption.congr hcode hlen) hc', optionPositions_client hoption hc,
            hlen, hpositions]
          refine ⟨rfl, fun q hq => ?_⟩
          rcases List.mem_cons.mp hq with rfl | hq
          · rw [macAt_congr fun i _ hi => hout i (by omega), macAt_rewriteOption hc]
          · exact htail q hq
        · have hc' : ¬ ClientAt (rewriteOptions rule stop f p).1 p := by
            unfold ClientAt
            rw [hcode, hlen]
            rintro ⟨hclient, hseven, hone⟩
            rw [htype hclient hseven] at hone
            exact hc ⟨hclient, hseven, hone⟩
          rw [optionPositions_other (hoption.congr hcode hlen) hc', optionPositions_other hoption hc,
            hlen, hpositions]
          exact ⟨rfl, htail⟩

end Options

/-! ### The DHCP datagram -/

section Datagram

variable {rule : FieldRule} {f g : Bytes} {len udpOff udpLen : Nat}

def bootpPositions (f : Bytes) (stop udpOff udpLen : Nat) : List Nat :=
  (if chaddrAt f udpOff udpLen then [udpOff + 8 + 28] else []) ++
    if optionsAt f udpOff stop then optionPositions stop f (udpOff + 8 + 236 + 4) else []

/-- The client address is written, or nothing. -/
def clientFrame (rule : FieldRule) (f : Bytes) (udpOff udpLen : Nat) : Bytes :=
  (if chaddrAt f udpOff udpLen then rewriteMac rule f (udpOff + 8 + 28) else (f, false)).1

theorem clientFrame_outside {i : Nat} (h : i < udpOff + 36 ∨ udpOff + 42 ≤ i) :
    clientFrame rule f udpOff udpLen i = f i := by
  unfold clientFrame
  split
  · exact rewriteMac_outside rule f (by omega)
  · rfl

/-- The options after the client address. -/
def optionsFrame (rule : FieldRule) (stop udpOff : Nat) (f : Bytes) : Bytes :=
  (if optionsAt f udpOff stop then rewriteOptions rule stop f (udpOff + 8 + 236 + 4)
    else (f, false)).1

theorem optionsFrame_before {stop i : Nat} (h : i < udpOff + 8 + 236 + 4) :
    optionsFrame rule stop udpOff f i = f i := by
  unfold optionsFrame
  split
  · exact rewriteOptions_before h
  · rfl

/-- Apart from the checksum, the frame is what the two rewrites leave. -/
theorem rewriteBootp_outside {i : Nat} (h : i < udpOff + 6 ∨ udpOff + 8 ≤ i) :
    rewriteBootp rule f len udpOff udpLen i =
      optionsFrame rule (bootpEnd len udpOff udpLen) udpOff
        (clientFrame rule f udpOff udpLen) i := by
  have hform : ∃ written : Bool, rewriteBootp rule f len udpOff udpLen =
      if written then rewriteChecksum (optionsFrame rule (bootpEnd len udpOff udpLen) udpOff
        (clientFrame rule f udpOff udpLen)) udpOff udpLen
      else optionsFrame rule (bootpEnd len udpOff udpLen) udpOff
        (clientFrame rule f udpOff udpLen) := ⟨_, rfl⟩
  obtain ⟨written, hform⟩ := hform
  rw [hform]
  split
  · exact rewriteChecksum_outside _ udpOff udpLen h
  · rfl

theorem rewriteBootp_before {i : Nat} (h : i < udpOff + 6) :
    rewriteBootp rule f len udpOff udpLen i = f i := by
  rw [rewriteBootp_outside (Or.inl h), optionsFrame_before (by omega), clientFrame_outside (by omega)]

theorem rewriteBootp_beyond (hlen : udpOff + udpLen ≤ len) (hudp : 8 ≤ udpLen) {i : Nat} (h : len ≤ i) :
    rewriteBootp rule f len udpOff udpLen i = f i := by
  have hstop : bootpEnd len udpOff udpLen ≤ len := Nat.min_le_right _ _
  have hclient : clientFrame rule f udpOff udpLen i = f i := by
    unfold clientFrame
    split
    · next hchaddr =>
        have hlong := hchaddr.1
        exact rewriteMac_outside rule f (by omega)
    · rfl
  rw [rewriteBootp_outside (by omega), ← hclient]
  unfold optionsFrame
  split
  · exact rewriteOptions_beyond (hstop.trans h)
  · rfl

theorem chaddrAt_congr (h : ∀ i, udpOff + 8 ≤ i → i < udpOff + 36 → g i = f i) :
    chaddrAt g udpOff udpLen ↔ chaddrAt f udpOff udpLen := by
  unfold chaddrAt
  rw [h (udpOff + 8 + 1) (by omega) (by omega), h (udpOff + 8 + 2) (by omega) (by omega)]

theorem optionsAt_congr {stop : Nat}
    (h : ∀ i, udpOff + 8 + 236 ≤ i → i < udpOff + 8 + 236 + 4 → g i = f i) :
    optionsAt g udpOff stop ↔ optionsAt f udpOff stop := by
  unfold optionsAt cookieAt
  rw [h (udpOff + 8 + 236) (by omega) (by omega), h (udpOff + 8 + 236 + 1) (by omega) (by omega),
    h (udpOff + 8 + 236 + 2) (by omega) (by omega), h (udpOff + 8 + 236 + 3) (by omega) (by omega)]

theorem bootpPositions_congr {stop : Nat} (h : ∀ i, udpOff + 8 ≤ i → g i = f i) :
    bootpPositions g stop udpOff udpLen = bootpPositions f stop udpOff udpLen := by
  unfold bootpPositions
  rw [if_congr (chaddrAt_congr fun i hi _ => h i hi) rfl rfl,
    if_congr (optionsAt_congr fun i hi _ => h i (by omega)) rfl rfl,
    optionPositions_congr fun i hi => h i (by omega)]

theorem mem_bootpPositions {stop q : Nat} :
    q ∈ bootpPositions f stop udpOff udpLen ↔
      (chaddrAt f udpOff udpLen ∧ q = udpOff + 8 + 28) ∨
        (optionsAt f udpOff stop ∧ q ∈ optionPositions stop f (udpOff + 8 + 236 + 4)) := by
  unfold bootpPositions
  rw [List.mem_append, List.mem_ite_nil_right, List.mem_ite_nil_right, List.mem_singleton]

theorem rewriteBootp_spec :
    bootpPositions (rewriteBootp rule f len udpOff udpLen) (bootpEnd len udpOff udpLen) udpOff udpLen =
        bootpPositions f (bootpEnd len udpOff udpLen) udpOff udpLen ∧
      ∀ q ∈ bootpPositions f (bootpEnd len udpOff udpLen) udpOff udpLen,
        macAt (rewriteBootp rule f len udpOff udpLen) q = rule.applied (macAt f q) := by
  generalize hstop : bootpEnd len udpOff udpLen = stop
  have hout : ∀ i, udpOff + 8 ≤ i → rewriteBootp rule f len udpOff udpLen i =
      optionsFrame rule stop udpOff (clientFrame rule f udpOff udpLen) i :=
    fun i hi => hstop ▸ rewriteBootp_outside (Or.inr hi)
  have hclient : ∀ i, udpOff + 42 ≤ i → clientFrame rule f udpOff udpLen i = f i :=
    fun i hi => clientFrame_outside (Or.inr hi)
  have hoptions : optionsAt (clientFrame rule f udpOff udpLen) udpOff stop ↔
      optionsAt f udpOff stop := optionsAt_congr fun i hi _ => hclient i (by omega)
  have hsame : optionPositions stop (clientFrame rule f udpOff udpLen) (udpOff + 8 + 236 + 4) =
      optionPositions stop f (udpOff + 8 + 236 + 4) :=
    optionPositions_congr fun i hi => hclient i (by omega)
  obtain ⟨hpositions, hfields⟩ := @rewriteOptions_spec rule stop
    (clientFrame rule f udpOff udpLen) (udpOff + 8 + 236 + 4)
  rw [hsame] at hpositions hfields
  have hframe : optionsAt f udpOff stop →
      optionsFrame rule stop udpOff (clientFrame rule f udpOff udpLen) =
        (rewriteOptions rule stop (clientFrame rule f udpOff udpLen) (udpOff + 8 + 236 + 4)).1 := by
    intro hopt
    unfold optionsFrame
    rw [if_pos (hoptions.mpr hopt)]
  constructor
  · have hchaddr : chaddrAt (optionsFrame rule stop udpOff (clientFrame rule f udpOff udpLen))
        udpOff udpLen ↔ chaddrAt f udpOff udpLen :=
      chaddrAt_congr fun i _ hi =>
        (optionsFrame_before (by omega)).trans (clientFrame_outside (Or.inl hi))
    have hopts : optionsAt (optionsFrame rule stop udpOff (clientFrame rule f udpOff udpLen))
        udpOff stop ↔ optionsAt f udpOff stop :=
      optionsAt_congr fun i hi hi' => (optionsFrame_before hi').trans (hclient i (by omega))
    rw [bootpPositions_congr hout]
    unfold bootpPositions
    rw [if_congr hchaddr rfl rfl, if_congr hopts rfl rfl]
    by_cases hopt : optionsAt f udpOff stop
    · rw [if_pos hopt, if_pos hopt, hframe hopt, hpositions]
    · rw [if_neg hopt, if_neg hopt]
  · intro q hq
    rcases mem_bootpPositions.mp hq with ⟨hchaddr, rfl⟩ | ⟨hopt, hmem⟩
    · have hwritten : clientFrame rule f udpOff udpLen = (rewriteMac rule f (udpOff + 8 + 28)).1 := by
        unfold clientFrame
        rw [if_pos hchaddr]
      rw [← macAt_rewriteMac, ← hwritten]
      refine macAt_congr fun i hi hi' => ?_
      rw [hout i (by omega), optionsFrame_before (by omega)]
    · have hge := optionPositions_ge hmem
      have hkept : macAt (clientFrame rule f udpOff udpLen) q = macAt f q :=
        macAt_congr fun i hi _ => hclient i (by omega)
      rw [macAt_congr fun i hi _ => hout i (by omega), hframe hopt, hfields q hmem, hkept]

end Datagram

/-! ### The whole frame -/

section Frame

variable {rule : FieldRule} {f g : Bytes} {len : Nat}

def payloadPositions (f : Bytes) (len : Nat) : List Nat :=
  if rd16 f 12 = 0x0806 then if 14 + 28 ≤ len then [14 + 8, 14 + 18] else []
  else if rd16 f 12 ≠ 0x0800 ∨ len < 14 + 20 then []
  else
    match dhcpDatagram f len with
    | some (udpOff, udpLen) => bootpPositions f (bootpEnd len udpOff udpLen) udpOff udpLen
    | none => []

/-- Every position at which a frame holds an address. -/
def macPositions (f : Bytes) (len : Nat) : List Nat :=
  if len < 14 then [] else 0 :: 6 :: payloadPositions f len

theorem dhcpDatagram_congr (h : ∀ i, 12 ≤ i → (i < 34 ∨ i < 14 + ipHeaderLength f + 6) → g i = f i) :
    dhcpDatagram g len = dhcpDatagram f len := by
  have hihl : ipHeaderLength g = ipHeaderLength f := by
    unfold ipHeaderLength
    rw [h 14 (by omega) (by omega)]
  unfold dhcpDatagram
  dsimp only
  rw [hihl, h 14 (by omega) (by omega), h 23 (by omega) (by omega),
    rd16_congr (h (14 + ipHeaderLength f) (by omega) (by omega))
      (h (14 + ipHeaderLength f + 1) (by omega) (by omega)),
    rd16_congr (h (14 + ipHeaderLength f + 2) (by omega) (by omega))
      (h (14 + ipHeaderLength f + 2 + 1) (by omega) (by omega)),
    rd16_congr (h (14 + ipHeaderLength f + 4) (by omega) (by omega))
      (h (14 + ipHeaderLength f + 4 + 1) (by omega) (by omega))]

theorem dhcpDatagram_some {udpOff udpLen : Nat} (h : dhcpDatagram f len = some (udpOff, udpLen)) :
    udpOff = 14 + ipHeaderLength f ∧ 34 ≤ udpOff ∧ udpOff + udpLen ≤ len ∧ 8 ≤ udpLen := by
  unfold dhcpDatagram at h
  dsimp only at h
  split at h
  · cases h
  · next hheader =>
      push Not at hheader
      split at h
      · cases h
      · split at h
        · cases h
        · split at h
          · cases h
          · split at h
            · cases h
            · cases h
              refine ⟨rfl, by omega, ?_, by omega⟩
              have hfits := Nat.min_le_right (rd16 f (14 + ipHeaderLength f + 4))
                (len - (14 + ipHeaderLength f))
              omega

theorem payloadPositions_congr (h : ∀ i, 12 ≤ i → g i = f i) :
    payloadPositions g len = payloadPositions f len := by
  unfold payloadPositions
  rw [rd16_congr (h 12 (by omega)) (h 13 (by omega)), dhcpDatagram_congr fun i hi _ => h i hi]
  cases hdatagram : dhcpDatagram f len with
  | none => rfl
  | some datagram =>
      obtain ⟨udpOff, udpLen⟩ := datagram
      have hoff := dhcpDatagram_some hdatagram
      dsimp only
      rw [bootpPositions_congr fun i hi => h i (by omega)]

theorem payloadPositions_ge {q : Nat} (h : q ∈ payloadPositions f len) : 14 ≤ q := by
  unfold payloadPositions at h
  split at h
  · split at h
    · rcases List.mem_pair.mp h with rfl | rfl
      · exact Nat.le_add_right _ _
      · exact Nat.le_add_right _ _
    · cases h
  · split at h
    · cases h
    · cases hdatagram : dhcpDatagram f len with
      | none =>
          rw [hdatagram] at h
          cases h
      | some datagram =>
          have hoff := dhcpDatagram_some hdatagram
          rw [hdatagram] at h
          rcases mem_bootpPositions.mp h with ⟨-, rfl⟩ | ⟨-, hmem⟩
          · omega
          · have hge := optionPositions_ge hmem
            omega

theorem rewritePayload_spec :
    payloadPositions (rewritePayload rule f len) len = payloadPositions f len ∧
      (∀ i, i < 14 → rewritePayload rule f len i = f i) ∧
        ∀ q ∈ payloadPositions f len,
          macAt (rewritePayload rule f len) q = rule.applied (macAt f q) := by
  have hkeep : ∀ i, i < 14 → rewritePayload rule f len i = f i := by
    intro i hi
    unfold rewritePayload
    split
    · split
      · exact (rewriteMac_outside rule _ (by omega)).trans (rewriteMac_outside rule f (by omega))
      · rfl
    · split
      · rfl
      · cases hdatagram : dhcpDatagram f len with
        | none => rfl
        | some datagram =>
            have hoff := dhcpDatagram_some hdatagram
            exact rewriteBootp_before (by omega)
  have htype : rd16 (rewritePayload rule f len) 12 = rd16 f 12 :=
    rd16_congr (hkeep 12 (by omega)) (hkeep 13 (by omega))
  refine ⟨?_, hkeep, ?_⟩
  · unfold payloadPositions
    rw [htype]
    by_cases harp : rd16 f 12 = 0x0806
    · rw [if_pos harp, if_pos harp]
    · rw [if_neg harp, if_neg harp]
      by_cases hip : rd16 f 12 ≠ 0x0800 ∨ len < 14 + 20
      · rw [if_pos hip, if_pos hip]
      · rw [if_neg hip, if_neg hip]
        cases hdatagram : dhcpDatagram f len with
        | none =>
            have hsame : rewritePayload rule f len = f := by
              unfold rewritePayload
              rw [if_neg harp, if_neg hip, hdatagram]
            rw [hsame, hdatagram]
        | some datagram =>
            obtain ⟨udpOff, udpLen⟩ := datagram
            have hoff := dhcpDatagram_some hdatagram
            have hsame : rewritePayload rule f len = rewriteBootp rule f len udpOff udpLen := by
              unfold rewritePayload
              rw [if_neg harp, if_neg hip, hdatagram]
            have hagain : dhcpDatagram (rewriteBootp rule f len udpOff udpLen) len =
                dhcpDatagram f len :=
              dhcpDatagram_congr fun i _ hi => rewriteBootp_before (by omega)
            rw [hsame, hagain, hdatagram]
            exact rewriteBootp_spec.1
  · intro q hq
    unfold payloadPositions at hq
    unfold rewritePayload
    by_cases harp : rd16 f 12 = 0x0806
    · rw [if_pos harp] at hq ⊢
      split at hq
      · next hlong =>
          rw [if_pos hlong]
          rcases List.mem_pair.mp hq with rfl | rfl
          · rw [← macAt_rewriteMac]
            exact macAt_congr fun i _ hi => rewriteMac_outside rule _ (by omega)
          · rw [macAt_rewriteMac]
            exact congrArg rule.applied
              (macAt_congr fun i hi _ => rewriteMac_outside rule f (by omega))
      · cases hq
    · rw [if_neg harp] at hq ⊢
      split at hq
      · cases hq
      · next hip =>
          rw [if_neg hip]
          cases hdatagram : dhcpDatagram f len with
          | none =>
              rw [hdatagram] at hq
              cases hq
          | some datagram =>
              rw [hdatagram] at hq
              exact rewriteBootp_spec.2 q hq

/-- Rewriting keeps the positions and rewrites every address there. -/
theorem rewriteFrame_spec (h : 14 ≤ len) :
    macPositions (rewriteFrame rule f len) len = macPositions f len ∧
      ∀ q ∈ macPositions f len, macAt (rewriteFrame rule f len) q = rule.applied (macAt f q) := by
  have hlen : ¬ len < 14 := Nat.not_lt.mpr h
  obtain ⟨hpositions, hkeep, hfields⟩ := @rewritePayload_spec rule
    (rewriteMac rule (rewriteMac rule f 0).1 6).1 len
  have hafter : ∀ i, 12 ≤ i → (rewriteMac rule (rewriteMac rule f 0).1 6).1 i = f i := fun i hi =>
    (rewriteMac_outside rule _ (Or.inr hi)).trans (rewriteMac_outside rule f (by omega))
  have hsame : payloadPositions (rewriteMac rule (rewriteMac rule f 0).1 6).1 len =
      payloadPositions f len := payloadPositions_congr hafter
  rw [hsame] at hpositions hfields
  unfold macPositions rewriteFrame
  rw [if_neg hlen, if_neg hlen]
  refine ⟨congrArg (fun ps => 0 :: 6 :: ps) hpositions, fun q hq => ?_⟩
  have hdst : macAt (rewriteMac rule (rewriteMac rule f 0).1 6).1 0 = rule.applied (macAt f 0) := by
    rw [← macAt_rewriteMac]
    exact macAt_congr fun i _ hi => rewriteMac_outside rule _ (by omega)
  have hsrc : macAt (rewriteMac rule (rewriteMac rule f 0).1 6).1 6 = rule.applied (macAt f 6) := by
    rw [macAt_rewriteMac]
    exact congrArg rule.applied (macAt_congr fun i hi _ => rewriteMac_outside rule f (by omega))
  rcases List.mem_cons.mp hq with rfl | hq
  · rw [← hdst]
    exact macAt_congr fun i _ hi => hkeep i (by omega)
  · rcases List.mem_cons.mp hq with rfl | hq
    · rw [← hsrc]
      exact macAt_congr fun i _ hi => hkeep i (by omega)
    · rw [hfields q hq]
      have hge := payloadPositions_ge hq
      exact congrArg rule.applied (macAt_congr fun i hi _ => hafter i (by omega))

/-- Rewriting writes nothing behind the frame. -/
theorem rewriteFrame_beyond (h : 14 ≤ len) {i : Nat} (hi : len ≤ i) :
    rewriteFrame rule f len i = f i := by
  have hmacs : (rewriteMac rule (rewriteMac rule f 0).1 6).1 i = f i :=
    (rewriteMac_outside rule _ (by omega)).trans (rewriteMac_outside rule f (by omega))
  unfold rewriteFrame rewritePayload
  rw [← hmacs]
  generalize (rewriteMac rule (rewriteMac rule f 0).1 6).1 = g
  split
  · split
    · exact (rewriteMac_outside rule _ (by omega)).trans (rewriteMac_outside rule g (by omega))
    · rfl
  · split
    · rfl
    · cases hdatagram : dhcpDatagram g len with
      | none => rfl
      | some datagram =>
          obtain ⟨-, -, hfits, hudp⟩ := dhcpDatagram_some hdatagram
          exact rewriteBootp_beyond hfits hudp hi

end Frame

end NdsRecomp.Net
