import Mathlib
import NdsRecomp.LiveOverlay.Banks

/-!
What the identity check of a row demands of guest memory, byte by byte. For a
row that passed preflight the demands do not contradict each other, so there is
a memory that meets them and nothing else.
-/

namespace NdsRecomp.LiveOverlay

open Bus Dispatch

/-- The ranges the identity check compares. -/
def checkedRanges (v : NdsStaticValidation) : List NdsStaticValidationRange :=
  if v.dependencyCount ≠ 0 then v.dependencies.getD []
  else [⟨v.addr, v.size, v.expected, v.expected_length⟩]

def rangeBytes (range : NdsStaticValidationRange) : List (Nat × UInt8) :=
  (range.expected.getD []).mapIdx fun i b => (range.addr.toNat + i, b)

/-- The addresses a row's check reads, with the byte it asks for. -/
def requiredBytes (row : NdsDispatchEntry) : List (Nat × UInt8) :=
  match row.validation with
  | none => []
  | some v => (checkedRanges v).flatMap rangeBytes

theorem mem_rangeBytes {range : NdsStaticValidationRange} {a : Nat} {b : UInt8} :
    (a, b) ∈ rangeBytes range ↔
      ∃ bytes i, range.expected = some bytes ∧ bytes[i]? = some b ∧ a = range.addr.toNat + i := by
  unfold rangeBytes
  rw [List.mem_mapIdx]
  cases hexpected : range.expected with
  | none => simp
  | some bytes =>
      simp only [Option.getD_some, Prod.mk.injEq, Option.some.injEq]
      constructor
      · rintro ⟨i, hi, ha, hb⟩
        exact ⟨bytes, i, rfl, by rw [List.getElem?_eq_getElem hi, hb], ha.symm⟩
      · rintro ⟨_, i, rfl, hb, ha⟩
        obtain ⟨hi, hget⟩ := List.getElem?_eq_some_iff.mp hb
        exact ⟨i, hi, ha.symm, hget⟩

theorem rangeLive_iff {mem : GuestMemory} {cpu : NdsCpu} {range : NdsStaticValidationRange} :
    rangeLive mem cpu range.addr range.size range.expected = true ↔
      range.expected.isSome = true ∧ range.size ≠ 0 ∧
        ∀ p ∈ rangeBytes range, mem cpu p.1 = some p.2 := by
  unfold rangeLive
  cases hexpected : range.expected with
  | none => simp
  | some bytes =>
      have hlength := range.expected_length bytes hexpected
      simp only [Bool.and_eq_true, bne_iff_ne, ne_eq, List.all_eq_true, List.mem_range,
        beq_iff_eq, Option.isSome_some, true_and]
      refine and_congr_right fun _ => ⟨?_, ?_⟩
      · rintro hall ⟨a, b⟩ hp
        obtain ⟨bytes', i, hbytes, hget, rfl⟩ := mem_rangeBytes.mp hp
        obtain rfl : bytes = bytes' := Option.some.inj (hexpected.symm.trans hbytes)
        obtain ⟨hi, -⟩ := List.getElem?_eq_some_iff.mp hget
        rw [hall i (by omega), hget]
      · intro hall i hi
        have hin : i < bytes.length := by omega
        have hmem : (range.addr.toNat + i, bytes[i]) ∈ rangeBytes range :=
          mem_rangeBytes.mpr ⟨bytes, i, hexpected, List.getElem?_eq_getElem hin, rfl⟩
        rw [hall _ hmem, List.getElem?_eq_getElem hin]

/-! ### Rows that passed preflight -/

/-- A range ends before the next one begins. -/
def EndsBefore (a b : NdsStaticValidationRange) : Prop := rangeEnd a.addr a.size ≤ b.addr.toNat

/-- The shape preflight leaves a row's identity in. -/
structure SoundRow (row : NdsDispatchEntry) : Prop where
  identity : ∃ v, row.validation = some v ∧ (v.dependencyCount ≠ 0 → v.dependencies.isSome = true) ∧
    (∀ range ∈ checkedRanges v, range.expected.isSome = true ∧ range.size ≠ 0) ∧
    (checkedRanges v).Pairwise EndsBefore

theorem rangesSane_sound {ranges : List NdsStaticValidationRange} {previousEnd : Nat}
    (h : rangesSane previousEnd ranges = true) :
    (∀ range ∈ ranges, previousEnd ≤ range.addr.toNat) ∧
      (∀ range ∈ ranges, range.expected.isSome = true ∧ range.size ≠ 0) ∧
      ranges.Pairwise EndsBefore := by
  induction ranges generalizing previousEnd with
  | nil => exact ⟨by simp, by simp, List.Pairwise.nil⟩
  | cons range ranges ih =>
      simp only [rangesSane, Bool.and_eq_true, bne_iff_ne, ne_eq, decide_eq_true_eq] at h
      obtain ⟨⟨⟨⟨hexpected, hsize⟩, -⟩, hbegin⟩, hrest⟩ := h
      obtain ⟨hafter, hshape, hpairwise⟩ := ih hrest
      refine ⟨fun r hr => ?_, fun r hr => ?_, ?_⟩
      · rcases List.mem_cons.mp hr with rfl | hmem
        · exact hbegin
        · have hend : range.addr.toNat ≤ rangeEnd range.addr range.size := Nat.le_add_right _ _
          have hlater := hafter r hmem
          omega
      · rcases List.mem_cons.mp hr with rfl | hmem
        · exact ⟨hexpected, hsize⟩
        · exact hshape r hmem
      · exact List.pairwise_cons.mpr ⟨hafter, hpairwise⟩

theorem preflightRow_sound {closure : Bool} {first row : NdsDispatchEntry}
    {prev : Option NdsDispatchEntry} (h : preflightRow closure first prev row = .ok ()) :
    SoundRow row := by
  unfold preflightRow at h
  split at h
  · cases h
  split at h
  · cases h
  next howns =>
    split at h
    · cases h
    next hdeps =>
      unfold validationOwnsRow at howns
      unfold validationDependenciesSane at hdeps
      cases hv : row.validation with
      | none => simp [hv] at howns
      | some v =>
          simp only [hv, Bool.and_eq_false_iff, not_or, Bool.not_eq_false, bne_iff_ne, ne_eq,
            decide_eq_true_eq] at howns
          simp only [hv, Bool.not_eq_false] at hdeps
          refine ⟨v, hv, ?_⟩
          unfold checkedRanges
          by_cases hcount : v.dependencyCount = 0
          · rw [if_neg (not_not_intro hcount)]
            refine ⟨fun hne => absurd hcount hne, ?_, List.pairwise_singleton _ _⟩
            intro range hrange
            rw [List.mem_singleton.mp hrange]
            exact ⟨howns.1.1.1.1.1.1.1, howns.1.1.1.1.1.1.2⟩
          · rw [if_pos hcount]
            rw [if_neg hcount] at hdeps
            cases hranges : v.dependencies with
            | none => simp [hranges] at hdeps
            | some ranges =>
                simp only [hranges, Bool.and_eq_true] at hdeps
                obtain ⟨-, hshape, hpairwise⟩ := rangesSane_sound hdeps.1.2
                exact ⟨fun _ => rfl, hshape, hpairwise⟩

theorem preflightRows_sound {closure : Bool} {first : NdsDispatchEntry}
    {prev : Option NdsDispatchEntry} {rows : List NdsDispatchEntry}
    (h : preflightRows closure first prev rows = .ok ()) : ∀ row ∈ rows, SoundRow row := by
  induction rows generalizing prev with
  | nil =>
      intro row hrow
      cases hrow
  | cons row rows ih =>
      have hrow : preflightRow closure first prev row = .ok () := by
        cases hresult : preflightRow closure first prev row with
        | error e => simp [preflightRows, hresult, bind, Except.bind] at h
        | ok u => rfl
      have hrows : preflightRows closure first (some row) rows = .ok () := by
        simpa [preflightRows, hrow, bind, Except.bind] using h
      intro r hr
      rcases List.mem_cons.mp hr with rfl | hmem
      · exact preflightRow_sound hrow
      · exact ih hrows r hmem

theorem preflightLiveBank_sound {info : NdsLiveBankInfo} (h : preflightLiveBank info = .ok ()) :
    ∃ rows, info.dispatch = some rows ∧ rows ≠ [] ∧ ∀ row ∈ rows, SoundRow row := by
  unfold preflightLiveBank at h
  split at h
  · cases h
  split at h
  · cases h
  split at h
  · cases h
  split at h
  · cases h
  split at h
  · cases h
  · cases h
  · next first rows hdispatch =>
      split at h
      · cases h
      · exact ⟨_, hdispatch, List.cons_ne_nil _ _, preflightRows_sound h⟩

/-! ### Liveness as demands on bytes -/

theorem required_of_live {mem : GuestMemory} {cpu : NdsCpu} {row : NdsDispatchEntry}
    (h : validationIdentityLive mem cpu row.validation = true) :
    ∀ p ∈ requiredBytes row, mem cpu p.1 = some p.2 := by
  intro p hp
  unfold requiredBytes at hp
  cases hv : row.validation with
  | none =>
      rw [hv] at hp
      cases hp
  | some v =>
      rw [hv] at hp h
      obtain ⟨range, hrange, hbyte⟩ := List.mem_flatMap.mp hp
      unfold checkedRanges at hrange
      simp only [validationIdentityLive] at h
      split at h
      · next hcount =>
          rw [if_pos hcount] at hrange
          cases hranges : v.dependencies with
          | none => simp [hranges] at h
          | some ranges =>
              simp only [hranges, Option.getD_some] at hrange h
              exact (rangeLive_iff.mp (List.all_eq_true.mp h range hrange)).2.2 p hbyte
      · next hcount =>
          rw [if_neg hcount] at hrange
          obtain rfl := List.mem_singleton.mp hrange
          exact ((@rangeLive_iff mem cpu ⟨v.addr, v.size, v.expected, v.expected_length⟩).mp
            h).2.2 p hbyte

theorem SoundRow.live {row : NdsDispatchEntry} (hrow : SoundRow row) {mem : GuestMemory}
    {cpu : NdsCpu} (h : ∀ p ∈ requiredBytes row, mem cpu p.1 = some p.2) :
    validationIdentityLive mem cpu row.validation = true := by
  obtain ⟨v, hv, hsome, hshape, -⟩ := hrow.identity
  have hlive : ∀ range ∈ checkedRanges v,
      rangeLive mem cpu range.addr range.size range.expected = true := by
    intro range hrange
    refine rangeLive_iff.mpr ⟨(hshape range hrange).1, (hshape range hrange).2, fun p hp => ?_⟩
    apply h
    unfold requiredBytes
    rw [hv]
    exact List.mem_flatMap.mpr ⟨range, hrange, hp⟩
  unfold checkedRanges at hlive
  rw [hv]
  simp only [validationIdentityLive]
  split
  · next hcount =>
      rw [if_pos hcount] at hlive
      obtain ⟨ranges, hranges⟩ := Option.isSome_iff_exists.mp (hsome hcount)
      rw [hranges] at hlive ⊢
      exact List.all_eq_true.mpr hlive
  · next hcount =>
      rw [if_neg hcount] at hlive
      exact hlive _ List.mem_cons_self

/-- No address is asked for with two bytes. -/
theorem SoundRow.required_unique {row : NdsDispatchEntry} (hrow : SoundRow row) {a : Nat}
    {b c : UInt8} (hb : (a, b) ∈ requiredBytes row) (hc : (a, c) ∈ requiredBytes row) : b = c := by
  obtain ⟨v, hv, -, -, hpairwise⟩ := hrow.identity
  unfold requiredBytes at hb hc
  rw [hv] at hb hc
  obtain ⟨rb, hrb, hb⟩ := List.mem_flatMap.mp hb
  obtain ⟨rc, hrc, hc⟩ := List.mem_flatMap.mp hc
  obtain ⟨bytesB, i, hexpectedB, hgetB, hat⟩ := mem_rangeBytes.mp hb
  obtain ⟨bytesC, j, hexpectedC, hgetC, hatC⟩ := mem_rangeBytes.mp hc
  have hiB : i < rb.size.toNat := by
    have hlt := (List.getElem?_eq_some_iff.mp hgetB).1
    rw [rb.expected_length bytesB hexpectedB] at hlt
    exact hlt
  have hjC : j < rc.size.toNat := by
    have hlt := (List.getElem?_eq_some_iff.mp hgetC).1
    rw [rc.expected_length bytesC hexpectedC] at hlt
    exact hlt
  by_cases hsame : rb = rc
  · subst hsame
    obtain rfl : bytesB = bytesC := Option.some.inj (hexpectedB.symm.trans hexpectedC)
    obtain rfl : i = j := by omega
    exact Option.some.inj (hgetB.symm.trans hgetC)
  · exfalso
    have hapart : (checkedRanges v).Pairwise fun r s => EndsBefore r s ∨ EndsBefore s r :=
      hpairwise.imp Or.inl
    have : Std.Symm fun r s => EndsBefore r s ∨ EndsBefore s r := ⟨fun _ _ => Or.symm⟩
    rcases hapart.forall hrb hrc hsame with hbefore | hafter
    · unfold EndsBefore rangeEnd at hbefore
      omega
    · unfold EndsBefore rangeEnd at hafter
      omega

/-- The memory that holds what a row asks for and nothing else. -/
noncomputable def onlyRequired (row : NdsDispatchEntry) : GuestMemory := fun _ a =>
  open Classical in
  if h : ∃ b, (a, b) ∈ requiredBytes row then some h.choose else none

theorem onlyRequired_eq_some {row : NdsDispatchEntry} {cpu : NdsCpu} {a : Nat} {b : UInt8}
    (h : onlyRequired row cpu a = some b) : (a, b) ∈ requiredBytes row := by
  unfold onlyRequired at h
  split at h
  · next hex =>
      rw [← Option.some.inj h]
      exact hex.choose_spec
  · cases h

theorem SoundRow.onlyRequired_live {row : NdsDispatchEntry} (hrow : SoundRow row) (cpu : NdsCpu) :
    validationIdentityLive (onlyRequired row) cpu row.validation = true := by
  apply hrow.live
  rintro ⟨a, b⟩ hp
  have hex : ∃ c, (a, c) ∈ requiredBytes row := ⟨b, hp⟩
  unfold onlyRequired
  rw [dif_pos hex]
  exact congrArg some (hrow.required_unique hex.choose_spec hp)

/-- One row's demands imply another's in every memory exactly when they include
them. -/
theorem SoundRow.live_imp_iff {row row' : NdsDispatchEntry} (hrow : SoundRow row)
    (hrow' : SoundRow row') (cpu : NdsCpu) :
    (∀ mem, validationIdentityLive mem cpu row.validation = true →
        validationIdentityLive mem cpu row'.validation = true) ↔
      requiredBytes row' ⊆ requiredBytes row := by
  constructor
  · rintro h ⟨a, b⟩ hp
    have hlive := h (onlyRequired row) (hrow.onlyRequired_live cpu)
    exact onlyRequired_eq_some (required_of_live hlive (a, b) hp)
  · intro hsub mem hlive
    exact hrow'.live fun p hp => required_of_live hlive p (hsub hp)

end NdsRecomp.LiveOverlay
