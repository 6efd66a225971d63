import Mathlib
import NdsRecomp.Exec.CodeBytes
import NdsRecomp.LiveOverlay.Coverage

/-!
Why the dispatcher refused a row. The guard of the dispatcher is written three
times: once in the dispatcher, and twice in the live overlay, as the identity
check behind an admission and as the classifier behind the reject counters.
The copies test bounds differently; for the rows of a bank that passed
preflight they agree.
-/

namespace NdsRecomp.LiveOverlay.Guard

open Bus Dispatch Exec

/-- The reasons a row is refused at dispatch. -/
inductive GuardReject where
  | rowNotOwned
  | rangeMalformed
  | noProvenance
  | bytesDiffer
deriving DecidableEq

/-! ### The live overlay's copies -/

/-- The test on one range in the overlay's `validation_identity_live`. It does
not ask that the range ends inside the address space. -/
def rangeLive (m : Memories) (cpu : NdsCpu) (range : NdsStaticValidationRange) : Bool :=
  match range.expected with
  | none => false
  | some expected =>
      range.size != 0 && m.busRangeHasWriteProvenance cpu range.addr range.size &&
        m.busLiveBytesEqual cpu range.addr expected range.size

/-- The overlay's `validation_identity_live`. -/
def validationIdentityLive (m : Memories) (cpu : NdsCpu)
    (validation : Option NdsStaticValidation) : Bool :=
  match validation with
  | none => true
  | some v =>
      if v.dependencyCount ≠ 0 then
        match v.dependencies with
        | none => false
        | some ranges => ranges.all (rangeLive m cpu)
      else rangeLive m cpu (ownerRange v)

/-- `range.expected && range.size != 0u && addr + size <= 2^32` -/
def rangeShape (range : NdsStaticValidationRange) : Bool :=
  range.expected.isSome && range.size != 0 && decide (rangeEnd range.addr range.size ≤ 2 ^ 32)

def rangeProvenance (m : Memories) (cpu : NdsCpu) (range : NdsStaticValidationRange) : Bool :=
  m.busRangeHasWriteProvenance cpu range.addr range.size

def rangeBytesEqual (m : Memories) (cpu : NdsCpu) (range : NdsStaticValidationRange) : Bool :=
  m.busLiveBytesEqual cpu range.addr (range.expected.getD []) range.size

/-- The loop of `classify_guard_reject`. When every range passes, memory has
changed since the lookup, which counts as a difference of bytes. -/
def classifyRanges (m : Memories) (cpu : NdsCpu) : List NdsStaticValidationRange → GuardReject
  | [] => .bytesDiffer
  | range :: ranges =>
      if rangeShape range = false then .rangeMalformed
      else if rangeProvenance m cpu range = false then .noProvenance
      else if rangeBytesEqual m cpu range = false then .bytesDiffer
      else classifyRanges m cpu ranges

def classifyGuardReject (m : Memories) (cpu : NdsCpu) (validation : Option NdsStaticValidation)
    (pc : UInt32) (thumb : Bool) : GuardReject :=
  match validation with
  | none => .rangeMalformed
  | some v =>
      let step := if thumb then 2 else 4
      if v.expected.isNone = true ∨ v.size = 0 then .rangeMalformed
      else if 2 ^ 32 < rangeEnd v.addr v.size ∨ pc < v.addr ∨
          rangeEnd v.addr v.size < pc.toNat + step then .rowNotOwned
      else if v.dependencyCount ≠ 0 ∧ v.dependencies.isNone = true then .rangeMalformed
      else classifyRanges m cpu
        (if v.dependencyCount ≠ 0 then v.dependencies.getD [] else [ownerRange v])

/-! ### The dispatcher's checks, one by one -/

def rangeChecks (m : Memories) (cpu : NdsCpu) (range : NdsStaticValidationRange) :
    List (GuardReject × Bool) :=
  [(.rangeMalformed, rangeShape range), (.noProvenance, rangeProvenance m cpu range),
    (.bytesDiffer, rangeBytesEqual m cpu range)]

/-- What `dispatch_validation_live` tests, in its order, each test under the
category its failure belongs to. -/
def dispatchChecks (m : Memories) (cpu : NdsCpu) (v : NdsStaticValidation) (pc : UInt32)
    (thumb : Bool) : List (GuardReject × Bool) :=
  (.rowNotOwned, ndsDispatchValidationOwnsEntry v pc thumb) ::
    match validationRanges v with
    | none => [(.rangeMalformed, false)]
    | some ranges => ranges.flatMap (rangeChecks m cpu)

def firstFailing (checks : List (GuardReject × Bool)) : Option GuardReject :=
  (checks.find? fun check => !check.2).map Prod.fst

theorem firstFailing_cons (reason : GuardReject) (passes : Bool)
    (checks : List (GuardReject × Bool)) :
    firstFailing ((reason, passes) :: checks) =
      if passes then firstFailing checks else some reason := by
  cases passes <;> rfl

theorem firstFailing_eq_none {checks : List (GuardReject × Bool)} :
    firstFailing checks = none ↔ ∀ check ∈ checks, check.2 = true := by
  simp [firstFailing]

/-- The dispatcher's test of one range is its three checks together. -/
theorem memories_rangeLive_eq (m : Memories) (cpu : NdsCpu) (range : NdsStaticValidationRange) :
    m.rangeLive cpu range =
      (rangeShape range && rangeProvenance m cpu range && rangeBytesEqual m cpu range) := by
  unfold Memories.rangeLive rangeShape rangeProvenance rangeBytesEqual rangeEnd
  cases range.expected with
  | none => rfl
  | some expected => rfl

theorem rangeLive_eq (m : Memories) (cpu : NdsCpu) (range : NdsStaticValidationRange) :
    rangeLive m cpu range =
      (range.expected.isSome && range.size != 0 && rangeProvenance m cpu range &&
        rangeBytesEqual m cpu range) := by
  unfold rangeLive rangeProvenance rangeBytesEqual
  cases range.expected with
  | none => rfl
  | some expected => rfl

/-- The dispatcher accepts a row exactly when none of its checks fails. -/
theorem dispatchValidationLive_iff {m : Memories} {cpu : NdsCpu} {v : NdsStaticValidation}
    {pc : UInt32} {thumb : Bool} :
    m.dispatchValidationLive cpu v pc thumb = true ↔
      firstFailing (dispatchChecks m cpu v pc thumb) = none := by
  rw [firstFailing_eq_none]
  unfold Memories.dispatchValidationLive Memories.validationIdentityLive forEachValidationRange
    dispatchChecks
  cases validationRanges v with
  | none => simp
  | some ranges =>
      simp only [Bool.and_eq_true, List.all_eq_true, List.forall_mem_cons, List.mem_flatMap,
        memories_rangeLive_eq]
      refine and_congr_right fun _ => ⟨?_, ?_⟩
      · rintro hall check ⟨range, hrange, hcheck⟩
        obtain ⟨⟨hshape, hprovenance⟩, hbytes⟩ := hall range hrange
        simp only [rangeChecks, List.mem_cons, List.not_mem_nil, or_false] at hcheck
        rcases hcheck with rfl | rfl | rfl
        · exact hshape
        · exact hprovenance
        · exact hbytes
      · intro hall range hrange
        have hcheck : ∀ check ∈ rangeChecks m cpu range, check.2 = true :=
          fun check hmem => hall check ⟨range, hrange, hmem⟩
        simp only [rangeChecks, List.forall_mem_cons] at hcheck
        exact ⟨⟨hcheck.1, hcheck.2.1⟩, hcheck.2.2.1⟩

/-- The classifier's loop names the first failing check of its ranges, if one
of them fails. -/
theorem classifyRanges_firstFailing {m : Memories} {cpu : NdsCpu}
    {ranges : List NdsStaticValidationRange} {reason : GuardReject}
    (h : firstFailing (ranges.flatMap (rangeChecks m cpu)) = some reason) :
    classifyRanges m cpu ranges = reason := by
  induction ranges with
  | nil => cases h
  | cons range ranges ih =>
      simp only [List.flatMap_cons, rangeChecks, List.cons_append, List.nil_append,
        firstFailing_cons] at h
      unfold classifyRanges
      cases hshape : rangeShape range with
      | false =>
          rw [hshape] at h
          exact Option.some.inj h
      | true =>
          cases hprovenance : rangeProvenance m cpu range with
          | false =>
              rw [hshape, hprovenance] at h
              exact Option.some.inj h
          | true =>
              cases hbytes : rangeBytesEqual m cpu range with
              | false =>
                  rw [hshape, hprovenance, hbytes] at h
                  exact Option.some.inj h
              | true =>
                  rw [hshape, hprovenance, hbytes] at h
                  exact ih h

/-! ### What preflight leaves -/

/-- A row lies inside the span of its own validation. -/
structure OwnedRow (row : NdsDispatchEntry) (v : NdsStaticValidation) : Prop where
  expected : v.expected.isSome = true
  size : v.size ≠ 0
  span : rangeEnd v.addr v.size ≤ 2 ^ 32
  begins : v.addr ≤ row.addr
  ends : row.addr.toNat + (if row.thumb ≠ 0 then 2 else 4) ≤ rangeEnd v.addr v.size

/-- The ranges of a validation are in range, in order, apart from each other,
and one of them covers the span. -/
structure SoundRanges (v : NdsStaticValidation) (ranges : List NdsStaticValidationRange) : Prop where
  visited : validationRanges v = some ranges
  shape : ∀ range ∈ ranges, rangeShape range = true
  sorted : ranges.Pairwise fun a b => a.addr < b.addr ∧ EndsBefore a b
  covers : ∃ range ∈ ranges,
    range.addr ≤ v.addr ∧ rangeEnd v.addr v.size ≤ rangeEnd range.addr range.size

theorem rangesSane_shape {ranges : List NdsStaticValidationRange} {previousEnd : Nat}
    (h : rangesSane previousEnd ranges = true) : ∀ range ∈ ranges, rangeShape range = true := by
  induction ranges generalizing previousEnd with
  | nil => simp
  | cons range ranges ih =>
      simp only [rangesSane, Bool.and_eq_true] at h
      obtain ⟨⟨⟨hshape, hend⟩, -⟩, hrest⟩ := h
      refine List.forall_mem_cons.mpr ⟨?_, ih hrest⟩
      simp only [rangeShape, Bool.and_eq_true]
      exact ⟨hshape, hend⟩

/-- A range that is not empty begins before whatever it ends before. -/
theorem EndsBefore.lt {a b : NdsStaticValidationRange} (h : EndsBefore a b) (hsize : a.size ≠ 0) :
    a.addr < b.addr := by
  have hpos : a.size.toNat ≠ 0 := fun h => hsize (UInt32.toNat_inj.mp h)
  unfold EndsBefore rangeEnd at h
  rw [UInt32.lt_iff_toNat_lt]
  omega

theorem soundRanges_of_sane {v : NdsStaticValidation} {closure : Bool}
    (hsane : validationDependenciesSane (some v) closure = true)
    (howner : rangeShape (ownerRange v) = true) : ∃ ranges, SoundRanges v ranges := by
  unfold validationDependenciesSane at hsane
  by_cases hcount : v.dependencyCount = 0
  · have hvisited : validationRanges v = some [ownerRange v] := by
      unfold validationRanges
      rw [if_neg (not_not_intro hcount)]
    exact ⟨_, hvisited, by simpa using howner, List.pairwise_singleton _ _,
      ownerRange v, List.mem_singleton_self _, UInt32.le_refl _, Nat.le_refl _⟩
  · simp only [hcount, if_false] at hsane
    cases hranges : v.dependencies with
    | none => simp [hranges] at hsane
    | some ranges =>
        simp only [hranges, Bool.and_eq_true] at hsane
        obtain ⟨⟨-, hsound⟩, hcovered⟩ := hsane
        obtain ⟨-, hshape, hpairwise⟩ := rangesSane_sound hsound
        have hvisited : validationRanges v = some ranges := by
          unfold validationRanges
          rw [if_pos hcount, hranges]
        refine ⟨ranges, hvisited, rangesSane_shape hsound, ?_, ?_⟩
        · exact hpairwise.imp_of_mem fun ha _ hbefore =>
            ⟨EndsBefore.lt hbefore (hshape _ ha).2, hbefore⟩
        · obtain ⟨range, hrange, hcover⟩ := List.any_eq_true.mp hcovered
          simp only [Bool.and_eq_true, decide_eq_true_eq] at hcover
          exact ⟨range, hrange, UInt32.le_iff_toNat_le.mpr hcover.1, hcover.2⟩

theorem ownedRow_of_owns {v : NdsStaticValidation} {row : NdsDispatchEntry}
    (h : validationOwnsRow (some v) row = true) : OwnedRow row v := by
  simp only [validationOwnsRow, Bool.and_eq_true, bne_iff_ne, ne_eq, decide_eq_true_eq] at h
  obtain ⟨⟨⟨⟨⟨⟨⟨hexpected, hsize⟩, -⟩, -⟩, hspan⟩, hbegins⟩, hends⟩, -⟩ := h
  exact ⟨hexpected, hsize, hspan, UInt32.le_iff_toNat_le.mpr hbegins, hends⟩

/-- What the loop of preflight has checked of a row once it goes on to the
next. -/
theorem preflightRow_checks {closure : Bool} {first row : NdsDispatchEntry}
    {prev : Option NdsDispatchEntry} (h : preflightRow closure first prev row = .ok ()) :
    (∃ v ranges, row.validation = some v ∧ OwnedRow row v ∧ SoundRanges v ranges) ∧
      ∀ p, prev = some p → keyBefore p row = true := by
  unfold preflightRow at h
  split at h
  · cases h
  split at h
  · cases h
  next howns =>
  split at h
  · cases h
  next hsane =>
  split at h
  · cases h
  rw [Bool.not_eq_false] at howns hsane
  constructor
  · cases hv : row.validation with
    | none =>
        rw [hv] at howns
        cases howns
    | some v =>
        rw [hv] at howns hsane
        have howned := ownedRow_of_owns howns
        have howner : rangeShape (ownerRange v) = true := by
          simp only [rangeShape, ownerRange, Bool.and_eq_true, bne_iff_ne]
          exact ⟨⟨howned.expected, howned.size⟩, decide_eq_true howned.span⟩
        obtain ⟨ranges, hranges⟩ := soundRanges_of_sane hsane howner
        exact ⟨v, ranges, rfl, howned, hranges⟩
  · rintro p rfl
    dsimp only at h
    split at h
    · cases h
    · split at h
      · next hbefore => exact hbefore
      · cases h

theorem keyBefore_trans {a b c : NdsDispatchEntry} (hab : keyBefore a b = true)
    (hbc : keyBefore b c = true) : keyBefore a c = true := by
  simp only [keyBefore, Bool.or_eq_true, decide_eq_true_eq, Bool.and_eq_true, beq_iff_eq] at *
  rcases hab with hab | ⟨hab, hthumb⟩
  · rcases hbc with hbc | ⟨hbc, -⟩
    · exact Or.inl (UInt32.lt_trans hab hbc)
    · exact Or.inl (hbc ▸ hab)
  · rcases hbc with hbc | ⟨hbc, hthumb'⟩
    · exact Or.inl (hab ▸ hbc)
    · exact Or.inr ⟨hab.trans hbc, UInt8.lt_trans hthumb hthumb'⟩

/-- The loop of preflight: every row is checked, and each comes after the one
before it, so after all before it. -/
theorem preflightRows_checks {closure : Bool} {first : NdsDispatchEntry}
    {prev : Option NdsDispatchEntry} {rows : List NdsDispatchEntry}
    (h : preflightRows closure first prev rows = .ok ()) :
    (∀ row ∈ rows, ∃ v ranges, row.validation = some v ∧ OwnedRow row v ∧ SoundRanges v ranges) ∧
      (∀ p, prev = some p → ∀ row ∈ rows, keyBefore p row = true) ∧
      rows.Pairwise fun a b => keyBefore a b = true := by
  induction rows generalizing prev with
  | nil => exact ⟨by simp, by simp, List.Pairwise.nil⟩
  | cons row rows ih =>
      have hrow : preflightRow closure first prev row = .ok () := by
        cases hresult : preflightRow closure first prev row with
        | error e => simp [preflightRows, hresult, bind, Except.bind] at h
        | ok u => rfl
      have hrows : preflightRows closure first (some row) rows = .ok () := by
        simpa [preflightRows, hrow, bind, Except.bind] using h
      obtain ⟨hchecks, hlater⟩ := preflightRow_checks hrow
      obtain ⟨hall, hafter, hpairwise⟩ := ih hrows
      refine ⟨List.forall_mem_cons.mpr ⟨hchecks, hall⟩, ?_, ?_⟩
      · intro p hp
        have hbefore := hlater p hp
        exact List.forall_mem_cons.mpr
          ⟨hbefore, fun r hr => keyBefore_trans hbefore (hafter row rfl r hr)⟩
      · exact List.pairwise_cons.mpr ⟨hafter row rfl, hpairwise⟩

theorem preflightLiveBank_checks {info : NdsLiveBankInfo} (h : preflightLiveBank info = .ok ()) :
    ∃ rows, info.dispatch = some rows ∧ (rows.Pairwise fun a b => keyBefore a b = true) ∧
      ∀ row ∈ rows, ∃ v ranges,
        row.validation = some v ∧ OwnedRow row v ∧ SoundRanges v ranges := by
  unfold preflightLiveBank at h
  split at h
  · cases h
  split at h
  · cases h
  split at h
  · cases h
  split at h
  · cases h
  split at h
  · cases h
  · cases h
  · next first rows hdispatch =>
      split at h
      · cases h
      · obtain ⟨hall, -, hpairwise⟩ := preflightRows_checks h
        exact ⟨_, hdispatch, hpairwise, hall⟩

/-! ### The copies agree -/

theorem validationIdentityLive_agrees {v : NdsStaticValidation}
    {ranges : List NdsStaticValidationRange} (hsound : SoundRanges v ranges) (m : Memories)
    (cpu : NdsCpu) : validationIdentityLive m cpu (some v) = m.validationIdentityLive cpu v := by
  have hmine : validationIdentityLive m cpu (some v) = ranges.all (rangeLive m cpu) := by
    have hvisited := hsound.visited
    unfold validationRanges at hvisited
    unfold validationIdentityLive
    by_cases hcount : v.dependencyCount = 0
    · rw [if_neg (not_not_intro hcount)] at hvisited
      rw [← Option.some.inj hvisited]
      simp [hcount]
    · rw [if_pos hcount] at hvisited
      simp [hcount, hvisited]
  rw [hmine]
  unfold Memories.validationIdentityLive forEachValidationRange
  rw [hsound.visited]
  -- the bound the overlay leaves out holds of every range
  change ranges.all _ = ranges.all _
  rw [Bool.eq_iff_iff, List.all_eq_true, List.all_eq_true]
  refine forall₂_congr fun range hrange => ?_
  have hshape := hsound.shape range hrange
  rw [memories_rangeLive_eq, rangeLive_eq, hshape]
  simp only [rangeShape, Bool.and_eq_true] at hshape
  rw [hshape.1.1, hshape.1.2, Bool.true_and]

theorem classifyGuardReject_firstFailing {row : NdsDispatchEntry} {v : NdsStaticValidation}
    {ranges : List NdsStaticValidationRange} (howned : OwnedRow row v)
    (hsound : SoundRanges v ranges) {m : Memories} {cpu : NdsCpu} {pc : UInt32} {thumb : Bool}
    (h : m.dispatchValidationLive cpu v pc thumb = false) :
    firstFailing (dispatchChecks m cpu v pc thumb) =
      some (classifyGuardReject m cpu (some v) pc thumb) := by
  have hfails : firstFailing (dispatchChecks m cpu v pc thumb) ≠ none := fun hnone =>
    Bool.false_ne_true (h.symm.trans (dispatchValidationLive_iff.mpr hnone))
  have hexpected : ¬ (v.expected.isNone = true ∨ v.size = 0) := by
    rintro (hnone | hzero)
    · have := howned.expected
      simp_all
    · exact howned.size hzero
  have howns : ndsDispatchValidationOwnsEntry v pc thumb = true ↔
      ¬ (2 ^ 32 < rangeEnd v.addr v.size ∨ pc < v.addr ∨
        rangeEnd v.addr v.size < pc.toNat + if thumb then 2 else 4) := by
    have hnone : (v.expected.isNone || v.size == 0) = false := by
      rw [← Bool.not_eq_true, Bool.or_eq_true, beq_iff_eq]
      exact hexpected
    simp only [ndsDispatchValidationOwnsEntry, hnone, Bool.false_eq_true, if_false, rangeEnd,
      Bool.and_eq_true, decide_eq_true_eq, UInt32.lt_iff_toNat_lt]
    omega
  unfold classifyGuardReject
  simp only [hexpected, if_false]
  unfold dispatchChecks at hfails ⊢
  rw [hsound.visited] at hfails ⊢
  simp only [firstFailing_cons] at hfails ⊢
  by_cases hown : ndsDispatchValidationOwnsEntry v pc thumb = true
  · rw [if_neg (howns.mp hown)]
    rw [if_pos hown] at hfails ⊢
    obtain ⟨reason, hreason⟩ := Option.ne_none_iff_exists'.mp hfails
    have hvisited := hsound.visited
    unfold validationRanges at hvisited
    by_cases hcount : v.dependencyCount = 0
    · rw [if_neg (not_not_intro hcount)] at hvisited
      rw [hreason, if_neg fun h => h.1 hcount, if_neg (not_not_intro hcount),
        Option.some.inj hvisited, classifyRanges_firstFailing hreason]
    · rw [if_pos hcount] at hvisited
      rw [hreason, if_neg fun h => by simp [hvisited] at h, if_pos hcount, hvisited,
        Option.getD_some, classifyRanges_firstFailing hreason]
  · rw [if_neg hown]
    rw [if_pos (not_not.mp fun hin => hown (howns.mpr hin))]

/-- For a bank that passed preflight the three copies of the guard agree, in
every memory and for either CPU, and its table and ranges are in order. -/
theorem guardReject_refines {info : NdsLiveBankInfo} (h : preflightLiveBank info = .ok ()) :
    ∃ rows, info.dispatch = some rows ∧ (rows.Pairwise fun a b => keyBefore a b = true) ∧
      ∀ row ∈ rows, ∃ v ranges,
        row.validation = some v ∧ OwnedRow row v ∧ SoundRanges v ranges ∧
        ∀ (m : Memories) (cpu : NdsCpu),
          validationIdentityLive m cpu (some v) = m.validationIdentityLive cpu v ∧
          ∀ (pc : UInt32) (thumb : Bool),
            (m.dispatchValidationLive cpu v pc thumb = false →
              firstFailing (dispatchChecks m cpu v pc thumb) =
                some (classifyGuardReject m cpu (some v) pc thumb)) ∧
            (m.dispatchValidationLive cpu v pc thumb = true →
              ∀ range ∈ ranges, rangeShape range = true ∧ rangeProvenance m cpu range = true ∧
                rangeBytesEqual m cpu range = true) := by
  obtain ⟨rows, hdispatch, hpairwise, hall⟩ := preflightLiveBank_checks h
  refine ⟨rows, hdispatch, hpairwise, fun row hrow => ?_⟩
  obtain ⟨v, ranges, hv, howned, hsound⟩ := hall row hrow
  refine ⟨v, ranges, hv, howned, hsound, fun m cpu =>
    ⟨validationIdentityLive_agrees hsound m cpu, fun pc thumb =>
      ⟨classifyGuardReject_firstFailing howned hsound, fun hlive range hrange => ?_⟩⟩⟩
  have hidentity : m.validationIdentityLive cpu v = true := by
    unfold Memories.dispatchValidationLive at hlive
    exact (Bool.and_eq_true_iff.mp hlive).2
  unfold Memories.validationIdentityLive forEachValidationRange at hidentity
  rw [hsound.visited] at hidentity
  have hpass := List.all_eq_true.mp hidentity range hrange
  rw [memories_rangeLive_eq, Bool.and_eq_true, Bool.and_eq_true] at hpass
  exact ⟨hpass.1.1, hpass.1.2, hpass.2⟩

/-- A bank with two rows in one span. -/
theorem guardReject_refines_twoRow :
    preflightLiveBank twoRowInfo = .ok () ∧ ∃ rows, twoRowInfo.dispatch = some rows ∧
      (rows.Pairwise fun a b => keyBefore a b = true) ∧
      ∀ row ∈ rows, ∃ v ranges,
        row.validation = some v ∧ OwnedRow row v ∧ SoundRanges v ranges := by
  have hok : preflightLiveBank twoRowInfo = .ok () := by decide
  obtain ⟨rows, hdispatch, hpairwise, hall⟩ := guardReject_refines hok
  refine ⟨hok, rows, hdispatch, hpairwise, fun row hrow => ?_⟩
  obtain ⟨v, ranges, hv, howned, hsound, -⟩ := hall row hrow
  exact ⟨v, ranges, hv, howned, hsound⟩

end NdsRecomp.LiveOverlay.Guard
