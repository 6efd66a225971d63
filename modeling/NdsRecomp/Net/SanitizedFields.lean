import NdsRecomp.Net.MacPositions

/-!
Which bytes a rewrite touches, and when it says so: the addresses at the known
positions, the host names it replaces, and the UDP checksum of a DHCP frame.
-/

namespace NdsRecomp.Net

/-! ### One option -/

def NameAt (f : Bytes) (p : Nat) : Prop := f p = 12 ∧ 0 < (f (p + 1)).toNat

def nameAt (f : Bytes) (p : Nat) : List UInt8 := bytesAt f (p + 2) (f (p + 1)).toNat

/-- The option at `p` is a host name that the rule replaces. -/
def NameWritten (rule : FieldRule) (f : Bytes) (p : Nat) : Prop :=
  NameAt f p ∧ (rule.onHostname (nameAt f p)).isSome

/-- The option at `p` holds an address that the rule replaces. -/
def ClientWritten (rule : FieldRule) (f : Bytes) (p : Nat) : Prop :=
  ClientAt f p ∧ (rule.onMac (macAt f (p + 3))).isSome

theorem rewriteMac_flag (rule : FieldRule) (f : Bytes) (p : Nat) :
    (rewriteMac rule f p).2 = (rule.onMac (macAt f p)).isSome := by
  unfold rewriteMac
  cases rule.onMac (macAt f p) <;> rfl

theorem rewriteMac_quiet {rule : FieldRule} {f : Bytes} {p : Nat}
    (h : (rewriteMac rule f p).2 = false) : (rewriteMac rule f p).1 = f := by
  unfold rewriteMac at h ⊢
  cases hmac : rule.onMac (macAt f p) with
  | none => rfl
  | some m =>
      rw [hmac] at h
      cases h

theorem not_name_of_client {f : Bytes} {p : Nat} (h : ClientAt f p) : ¬ NameAt f p := by
  rintro ⟨hname, -⟩
  rw [h.1] at hname
  exact absurd hname (by decide)

section Option

variable (rule : FieldRule) (f : Bytes) (p : Nat)

theorem rewriteOption_client (h : ClientAt f p) :
    rewriteOption rule f p = rewriteMac rule f (p + 3) := if_pos h

theorem rewriteOption_name (h : NameAt f p) :
    rewriteOption rule f p =
      match rule.onHostname (nameAt f p) with
      | some name => (writeBytes f (p + 2) (f (p + 1)).toNat name, true)
      | none => (f, false) := by
  have hclient : ¬ ClientAt f p := fun hc => not_name_of_client hc h
  exact (if_neg hclient).trans (if_pos h)

theorem rewriteOption_other (hclient : ¬ ClientAt f p) (hname : ¬ NameAt f p) :
    rewriteOption rule f p = (f, false) := (if_neg hclient).trans (if_neg hname)

theorem rewriteOption_flag :
    (rewriteOption rule f p).2 = true ↔ ClientWritten rule f p ∨ NameWritten rule f p := by
  unfold ClientWritten NameWritten
  by_cases hclient : ClientAt f p
  · rw [rewriteOption_client rule f p hclient, rewriteMac_flag]
    simp [hclient, not_name_of_client hclient]
  by_cases hname : NameAt f p
  · rw [rewriteOption_name rule f p hname]
    cases hvalue : rule.onHostname (nameAt f p) with
    | none => simp [hclient]
    | some name => simp [hname]
  · rw [rewriteOption_other rule f p hclient hname]
    simp [hclient, hname]

/-- Only the address or the replaced name is written. -/
theorem rewriteOption_outside {i : Nat}
    (hclient : ClientAt f p → i < p + 3 ∨ p + 9 ≤ i)
    (hname : NameWritten rule f p → i < p + 2 ∨ p + 2 + (f (p + 1)).toNat ≤ i) :
    (rewriteOption rule f p).1 i = f i := by
  by_cases hc : ClientAt f p
  · rw [rewriteOption_client rule f p hc]
    exact rewriteMac_outside rule f (hclient hc)
  by_cases hn : NameAt f p
  · rw [rewriteOption_name rule f p hn]
    cases hvalue : rule.onHostname (nameAt f p) with
    | none => rfl
    | some name => exact writeBytes_outside f name (hname ⟨hn, by rw [hvalue]; rfl⟩)
  · rw [rewriteOption_other rule f p hc hn]

theorem rewriteOption_quiet (h : (rewriteOption rule f p).2 = false) :
    (rewriteOption rule f p).1 = f := by
  by_cases hc : ClientAt f p
  · rw [rewriteOption_client rule f p hc] at h ⊢
    exact rewriteMac_quiet h
  by_cases hn : NameAt f p
  · rw [rewriteOption_name rule f p hn] at h ⊢
    cases hvalue : rule.onHostname (nameAt f p) with
    | none => rfl
    | some name =>
        rw [hvalue] at h
        cases h
  · rw [rewriteOption_other rule f p hc hn]

end Option

/-! ### The option loop -/

/-- Where the options from `p` on start. -/
def optionStarts (stop : Nat) (f : Bytes) (p : Nat) : List Nat :=
  if stop ≤ p then []
  else if f p = 0xFF then []
  else if f p = 0 then optionStarts stop f (p + 1)
  else if stop ≤ p + 1 then []
  else if stop < p + 2 + (f (p + 1)).toNat then []
  else p :: optionStarts stop f (p + 2 + (f (p + 1)).toNat)
termination_by stop - p

section Options

variable {rule : FieldRule} {stop : Nat} {f g : Bytes} {p : Nat}

theorem optionStarts_end (h : OptionsEnd stop f p) : optionStarts stop f p = [] := by
  rw [optionStarts]
  rcases h with hstop | hmarker | ⟨hpad, hlast | hlong⟩
  · rw [if_pos hstop]
  · rw [if_pos hmarker, ite_self]
  · rw [if_neg hpad, if_pos hlast, ite_self, ite_self]
  · rw [if_neg hpad, if_pos hlong, ite_self, ite_self, ite_self]

theorem optionStarts_pad (h : PadAt stop f p) :
    optionStarts stop f p = optionStarts stop f (p + 1) := by
  rw [optionStarts, if_neg h.1, if_neg h.ne_end, if_pos h.2]

theorem optionStarts_option (h : OptionAt stop f p) :
    optionStarts stop f p = p :: optionStarts stop f (p + 2 + (f (p + 1)).toNat) := by
  rw [optionStarts, if_neg h.inside, if_neg h.notEnd, if_neg h.notPad, if_neg h.hasLength,
    if_neg h.fits]

theorem rewriteOptions_option_flag (h : OptionAt stop f p) :
    (rewriteOptions rule stop f p).2 =
      ((rewriteOption rule f p).2 ||
        (rewriteOptions rule stop (rewriteOption rule f p).1 (p + 2 + (f (p + 1)).toNat)).2) := by
  rw [rewriteOptions, if_neg h.inside, if_neg h.notEnd, if_neg h.notPad, if_neg h.hasLength,
    if_neg h.fits]

theorem optionStarts_ge {o : Nat} (h : o ∈ optionStarts stop f p) : p ≤ o := by
  induction hn : stop - p using Nat.strong_induction_on generalizing p with
  | _ n ih =>
      subst hn
      rcases option_cases stop f p with hend | hpad | hoption
      · rw [optionStarts_end hend] at h
        cases h
      · have hinside := hpad.1
        rw [optionStarts_pad hpad] at h
        exact (Nat.le_succ p).trans (ih _ (by omega) h rfl)
      · have hinside := hoption.inside
        rw [optionStarts_option hoption] at h
        rcases List.mem_cons.mp h with rfl | htail
        · exact le_rfl
        · have hle := ih _ (by omega) htail rfl
          omega

theorem optionStarts_congr (h : ∀ i, p ≤ i → g i = f i) :
    optionStarts stop g p = optionStarts stop f p := by
  induction hn : stop - p using Nat.strong_induction_on generalizing p with
  | _ n ih =>
      subst hn
      have hcode : g p = f p := h p le_rfl
      have hlen : g (p + 1) = f (p + 1) := h (p + 1) (Nat.le_succ p)
      rcases option_cases stop f p with hend | hpad | hoption
      · rw [optionStarts_end hend, optionStarts_end (hend.congr hcode hlen)]
      · have hinside := hpad.1
        rw [optionStarts_pad hpad, optionStarts_pad (hpad.congr hcode)]
        exact ih _ (by omega) (fun i hi => h i (by omega)) rfl
      · have hinside := hoption.inside
        have htail := ih (stop - (p + 2 + (f (p + 1)).toNat)) (by omega)
          (fun i hi => h i (by omega)) rfl
        rw [optionStarts_option hoption, optionStarts_option (hoption.congr hcode hlen), hlen, htail]

/-- An identifier is three bytes behind the start of its option. -/
theorem mem_optionPositions {q : Nat} :
    q ∈ optionPositions stop f p ↔ ∃ o ∈ optionStarts stop f p, ClientAt f o ∧ q = o + 3 := by
  induction hn : stop - p using Nat.strong_induction_on generalizing p with
  | _ n ih =>
      subst hn
      rcases option_cases stop f p with hend | hpad | hoption
      · rw [optionPositions_end hend, optionStarts_end hend]
        simp
      · have hinside := hpad.1
        rw [optionPositions_pad hpad, optionStarts_pad hpad]
        exact ih _ (by omega) rfl
      · have hinside := hoption.inside
        have htail := ih (stop - (p + 2 + (f (p + 1)).toNat)) (by omega) rfl
        rw [optionStarts_option hoption, List.exists_mem_cons_iff, ← htail]
        by_cases hc : ClientAt f p
        · rw [optionPositions_client hoption hc, List.mem_cons]
          simp [hc]
        · rw [optionPositions_other hoption hc]
          simp [hc]

section Congr

variable {o : Nat} (h : ∀ i, o ≤ i → g i = f i)

include h

theorem nameAt_congr : nameAt g o = nameAt f o := by
  unfold nameAt bytesAt
  rw [h (o + 1) (Nat.le_succ o)]
  exact List.map_congr_left fun k _ => h _ (by omega)

theorem nameWritten_congr : NameWritten rule g o ↔ NameWritten rule f o := by
  unfold NameWritten NameAt
  rw [nameAt_congr h, h o le_rfl, h (o + 1) (Nat.le_succ o)]

theorem clientAt_congr : ClientAt g o ↔ ClientAt f o := by
  unfold ClientAt
  rw [h o le_rfl, h (o + 1) (by omega), h (o + 2) (by omega)]

theorem clientWritten_congr : ClientWritten rule g o ↔ ClientWritten rule f o := by
  unfold ClientWritten
  rw [clientAt_congr h, macAt_congr fun i hi _ => h i (by omega)]

end Congr

/-- The loop writes the addresses and replaced names of its options. -/
theorem rewriteOptions_outside {i : Nat}
    (hclient : ∀ o ∈ optionStarts stop f p, ClientAt f o → i < o + 3 ∨ o + 9 ≤ i)
    (hname : ∀ o ∈ optionStarts stop f p, NameWritten rule f o →
      i < o + 2 ∨ o + 2 + (f (o + 1)).toNat ≤ i) :
    (rewriteOptions rule stop f p).1 i = f i := by
  induction hn : stop - p using Nat.strong_induction_on generalizing f p with
  | _ n ih =>
      subst hn
      rcases option_cases stop f p with hend | hpad | hoption
      · rw [rewriteOptions_end hend]
      · have hinside := hpad.1
        rw [rewriteOptions_pad hpad]
        rw [optionStarts_pad hpad] at hclient hname
        exact ih _ (by omega) hclient hname rfl
      · have hinside := hoption.inside
        rw [optionStarts_option hoption] at hclient hname
        obtain ⟨hclientHead, hclientTail⟩ := List.forall_mem_cons.mp hclient
        obtain ⟨hnameHead, hnameTail⟩ := List.forall_mem_cons.mp hname
        have hafter : ∀ i, p + 2 + (f (p + 1)).toNat ≤ i → (rewriteOption rule f p).1 i = f i :=
          fun i hi => rewriteOption_after rule f hi
        have hstarts : optionStarts stop (rewriteOption rule f p).1 (p + 2 + (f (p + 1)).toNat) =
            optionStarts stop f (p + 2 + (f (p + 1)).toNat) := optionStarts_congr hafter
        rw [rewriteOptions_option hoption, ih (stop - (p + 2 + (f (p + 1)).toNat)) (by omega) ?_ ?_ rfl]
        · exact rewriteOption_outside rule f p hclientHead hnameHead
        · intro o ho hc
          rw [hstarts] at ho
          have hge := optionStarts_ge ho
          exact hclientTail o ho ((clientAt_congr fun i hi => hafter i (by omega)).mp hc)
        · intro o ho hwritten
          rw [hstarts] at ho
          have hge := optionStarts_ge ho
          rw [hafter (o + 1) (by omega)]
          exact hnameTail o ho ((nameWritten_congr fun i hi => hafter i (by omega)).mp hwritten)

theorem rewriteOptions_flag :
    (rewriteOptions rule stop f p).2 = true ↔
      ∃ o ∈ optionStarts stop f p, ClientWritten rule f o ∨ NameWritten rule f o := by
  induction hn : stop - p using Nat.strong_induction_on generalizing f p with
  | _ n ih =>
      subst hn
      rcases option_cases stop f p with hend | hpad | hoption
      · rw [rewriteOptions_end hend, optionStarts_end hend]
        simp
      · have hinside := hpad.1
        rw [rewriteOptions_pad hpad, optionStarts_pad hpad]
        exact ih _ (by omega) rfl
      · have hinside := hoption.inside
        have hafter : ∀ i, p + 2 + (f (p + 1)).toNat ≤ i → (rewriteOption rule f p).1 i = f i :=
          fun i hi => rewriteOption_after rule f hi
        have htail := ih (stop - (p + 2 + (f (p + 1)).toNat)) (by omega)
          (f := (rewriteOption rule f p).1) (p := p + 2 + (f (p + 1)).toNat) rfl
        rw [optionStarts_congr hafter] at htail
        rw [rewriteOptions_option_flag hoption, Bool.or_eq_true, rewriteOption_flag, htail,
          optionStarts_option hoption, List.exists_mem_cons_iff]
        refine or_congr_right (exists_congr fun o => and_congr_right fun ho => ?_)
        have hge := optionStarts_ge ho
        have hsame : ∀ i, o ≤ i → (rewriteOption rule f p).1 i = f i := fun i hi => hafter i (by omega)
        rw [clientWritten_congr hsame, nameWritten_congr hsame]

theorem rewriteOptions_quiet (h : (rewriteOptions rule stop f p).2 = false) :
    (rewriteOptions rule stop f p).1 = f := by
  induction hn : stop - p using Nat.strong_induction_on generalizing f p with
  | _ n ih =>
      subst hn
      rcases option_cases stop f p with hend | hpad | hoption
      · rw [rewriteOptions_end hend]
      · have hinside := hpad.1
        rw [rewriteOptions_pad hpad] at h ⊢
        exact ih _ (by omega) h rfl
      · have hinside := hoption.inside
        rw [rewriteOptions_option_flag hoption, Bool.or_eq_false_iff] at h
        have hhead := rewriteOption_quiet rule f p h.1
        rw [rewriteOptions_option hoption, hhead]
        rw [hhead] at h
        exact ih _ (by omega) h.2 rfl

end Options

end NdsRecomp.Net
