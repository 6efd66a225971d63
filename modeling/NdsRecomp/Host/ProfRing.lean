import NdsRecomp.Library.FinIndex
import NdsRecomp.Library.OpSystem

/-!
The sample ring of the host profiler, with one writer and one reader. A push
stores the words of its sample one at a time and then publishes the cursor; a
`copy_slot` reads the cursor, copies the words one at a time and reads the cursor
again. The steps of the two interleave freely, and words go in any order.

`pushed` records, for the statements only, the sample each index was given to.
-/

namespace NdsRecomp.Host

open Library

/-- A sample, word by word. -/
abbrev NdsHostProfSample (words : Nat) (Word : Type) := Fin words → Word

/-- A push in progress. -/
structure Push (words : Nat) (Word : Type) where
  sample : NdsHostProfSample words Word
  stored : Fin words → Bool

inductive ReaderPhase (words : Nat) (Word : Type) where
  | idle
  | copying (index : Nat) (out : NdsHostProfSample words Word) (loaded : Fin words → Bool)
  | returned (index : Nat) (result : Option (NdsHostProfSample words Word))

structure NdsHostProfRing (words : Nat) (Word : Type) where
  capacity : Nat
  slots : Nat → NdsHostProfSample words Word
  written : Nat := 0
  push : Option (Push words Word) := none
  reader : ReaderPhase words Word := .idle
  pushed : Nat → NdsHostProfSample words Word

inductive RingOp (words : Nat) (Word : Type) where
  | beginPush (sample : NdsHostProfSample words Word)
  | storeWord (j : Fin words)
  | publish
  | beginCopy (index : Nat) (buffer : NdsHostProfSample words Word)
  | loadWord (j : Fin words)
  | finishCopy

namespace NdsHostProfRing

variable {words : Nat} {Word : Type}

def mask (s : NdsHostProfRing words Word) : Nat := s.capacity - 1

/-- `index & mask_` -/
def slotOf (s : NdsHostProfRing words Word) (index : Nat) : Nat := index &&& s.mask

/-- The sample is older than what the cursor says is resident. -/
def evictedAt (s : NdsHostProfRing words Word) (index : Nat) : Bool :=
  decide (s.written > s.capacity) && decide (index < s.written - s.capacity)

def storeSlot (s : NdsHostProfRing words Word) (slot : Nat) (j : Fin words) (word : Word) :
    NdsHostProfRing words Word :=
  { s with slots := Function.update s.slots slot (Function.update (s.slots slot) j word) }

def next (s : NdsHostProfRing words Word) : RingOp words Word → NdsHostProfRing words Word
  | .beginPush sample =>
      { s with
        push := some ⟨sample, fun _ => false⟩
        pushed := Function.update s.pushed s.written sample }
  | .storeWord j =>
      match s.push with
      | none => s
      | some push =>
          { s.storeSlot (s.slotOf s.written) j (push.sample j) with
            push := some { push with stored := Function.update push.stored j true } }
  | .publish => { s with push := none, written := s.written + 1 }
  | .beginCopy index buffer =>
      { s with
        reader :=
          if index ≥ s.written then .returned index none
          else if s.evictedAt index then .returned index none
          else .copying index buffer fun _ => false }
  | .loadWord j =>
      match s.reader with
      | .copying index out loaded =>
          { s with
            reader := .copying index (Function.update out j (s.slots (s.slotOf index) j))
              (Function.update loaded j true) }
      | _ => s
  | .finishCopy =>
      match s.reader with
      | .copying index out _ =>
          { s with reader := .returned index (if s.evictedAt index then none else some out) }
      | _ => s

/-- One push and one copy at a time; a push is published, and a copy ends, behind
its last word. -/
def admits (s : NdsHostProfRing words Word) : RingOp words Word → Prop
  | .beginPush _ => s.push = none
  | .storeWord _ => s.push ≠ none
  | .publish => ∃ push, s.push = some push ∧ ∀ j, push.stored j = true
  | .beginCopy _ _ => ∀ index out loaded, s.reader ≠ .copying index out loaded
  | .loadWord _ => ∃ index out loaded, s.reader = .copying index out loaded
  | .finishCopy => ∃ index out loaded, s.reader = .copying index out loaded ∧ ∀ j, loaded j = true

/-- A ring as `init` leaves it. -/
structure Initialized (s : NdsHostProfRing words Word) : Prop where
  capacity : ∃ k, s.capacity = 2 ^ k
  written : s.written = 0
  push : s.push = none
  reader : s.reader = .idle

def ringSystem : OpSystem (NdsHostProfRing words Word) (RingOp words Word) where
  initial := Initialized
  admits := admits
  next := next

/-- The word to be copied is one that the push in progress has already rewritten,
in the slot of a sample that the cursor still counts as resident. -/
def Rewritten (s : NdsHostProfRing words Word) : RingOp words Word → Prop
  | .loadWord j =>
      ∃ index out loaded push, s.reader = .copying index out loaded ∧ s.push = some push ∧
        push.stored j = true ∧ s.written = index + s.capacity
  | _ => False

/-- The runs in which no copy meets a word already rewritten. -/
def untornSystem : OpSystem (NdsHostProfRing words Word) (RingOp words Word) :=
  ringSystem.restrict fun s op => ¬ s.Rewritten op

/-- What the slots, the push and the copy have to do with the pushed samples. -/
structure Faithful (s : NdsHostProfRing words Word) : Prop where
  capacity : ∃ k, s.capacity = 2 ^ k
  /-- A resident sample is in its slot, but for the words rewritten since. -/
  resident : ∀ i, i < s.written → s.written ≤ i + s.capacity → ∀ j,
    (∀ push, s.push = some push → s.written = i + s.capacity → push.stored j = false) →
      s.slots (s.slotOf i) j = s.pushed i j
  pushing : ∀ push, s.push = some push →
    s.pushed s.written = push.sample ∧
      ∀ j, push.stored j = true → s.slots (s.slotOf s.written) j = push.sample j
  copied : ∀ index out loaded, s.reader = .copying index out loaded →
    index < s.written ∧ (s.written ≤ index + s.capacity → ∀ j, loaded j = true →
      out j = s.pushed index j)
  returned : ∀ index out, s.reader = .returned index (some out) →
    index < s.written ∧ out = s.pushed index

theorem slotOf_eq {s : NdsHostProfRing words Word} (h : ∃ k, s.capacity = 2 ^ k) (i : Nat) :
    s.slotOf i = i % s.capacity := by
  obtain ⟨k, hk⟩ := h
  unfold slotOf mask
  rw [hk]
  exact Nat.and_two_pow_sub_one_eq_mod i k

/-- Of the samples that are resident, the one the push overwrites is the oldest. -/
theorem oldest_of_slot_eq {s : NdsHostProfRing words Word} (h : ∃ k, s.capacity = 2 ^ k) {i : Nat}
    (hlt : i < s.written) (hresident : s.written ≤ i + s.capacity)
    (hslot : s.slotOf i = s.slotOf s.written) : s.written = i + s.capacity := by
  rw [slotOf_eq h, slotOf_eq h] at hslot
  obtain ⟨c, hc⟩ := (Nat.modEq_iff_dvd' hlt.le).mp hslot
  have hpos : c ≠ 0 := by
    rintro rfl
    omega
  have hone : c = 1 := by
    by_contra hne
    have htwo : s.capacity * 2 ≤ s.capacity * c := Nat.mul_le_mul_left _ (by omega)
    omega
  rw [hone, Nat.mul_one] at hc
  omega

theorem evictedAt_eq_false {s : NdsHostProfRing words Word} {index : Nat}
    (h : s.evictedAt index = false) : s.written ≤ index + s.capacity := by
  unfold evictedAt at h
  rw [Bool.and_eq_false_iff, decide_eq_false_iff_not, decide_eq_false_iff_not] at h
  omega

/-! ### The steps -/

section Steps

variable {s : NdsHostProfRing words Word} (h : s.Faithful)

include h

theorem Faithful.beginPush (hidle : s.push = none) (sample : NdsHostProfSample words Word) :
    (s.next (.beginPush sample)).Faithful := by
  have hother {i : Nat} (hi : i < s.written) :
      Function.update s.pushed s.written sample i = s.pushed i :=
    Function.update_of_ne (by omega) _ _
  refine ⟨h.capacity, fun i hi hresident j _ => ?_, fun push hpush => ?_,
    fun index out loaded hreader => ?_, fun index out hreader => ?_⟩
  · change s.slots (s.slotOf i) j = Function.update s.pushed s.written sample i j
    rw [hother hi]
    refine h.resident i hi hresident j fun push hpush _ => ?_
    rw [hidle] at hpush
    cases hpush
  · obtain rfl := Option.some.inj hpush
    exact ⟨Function.update_self .., fun j hj => Bool.noConfusion hj⟩
  · obtain ⟨hlt, hwords⟩ := h.copied index out loaded hreader
    refine ⟨hlt, fun hresident j hj => ?_⟩
    change out j = Function.update s.pushed s.written sample index j
    rw [hother hlt]
    exact hwords hresident j hj
  · obtain ⟨hlt, hout⟩ := h.returned index out hreader
    exact ⟨hlt, hout.trans (hother hlt).symm⟩

/-- A stored word disturbs no sample but the oldest. -/
theorem Faithful.storeWord (j : Fin words) : (s.next (.storeWord j)).Faithful := by
  cases hpush : s.push with
  | none =>
      have hsame : s.next (.storeWord j) = s := by
        unfold next
        rw [hpush]
      rwa [hsame]
  | some push =>
      have hnext : s.next (.storeWord j) =
          { s.storeSlot (s.slotOf s.written) j (push.sample j) with
            push := some { push with stored := Function.update push.stored j true } } := by
        unfold next
        rw [hpush]
      rw [hnext]
      obtain ⟨hpushed, hstored⟩ := h.pushing push hpush
      refine ⟨h.capacity, fun i hi hresident k hfree => ?_, fun push' hpush' => ?_, h.copied,
        h.returned⟩
      · have hold : ∀ push', s.push = some push' → s.written = i + s.capacity →
            push'.stored k = false := by
          intro push' hpush' holdest
          obtain rfl : push = push' := Option.some.inj (hpush.symm.trans hpush')
          have hupdated : Function.update push.stored j true k = false := hfree _ rfl holdest
          by_cases hk : k = j
          · subst hk
            rw [Function.update_self] at hupdated
            cases hupdated
          · rwa [Function.update_of_ne hk] at hupdated
        have hbefore := h.resident i hi hresident k hold
        change Function.update s.slots (s.slotOf s.written)
          (Function.update (s.slots (s.slotOf s.written)) j (push.sample j)) (s.slotOf i) k =
            s.pushed i k
        by_cases hslot : s.slotOf i = s.slotOf s.written
        · have holdest := oldest_of_slot_eq h.capacity hi hresident hslot
          have hk : k ≠ j := by
            rintro rfl
            have hupdated : Function.update push.stored k true k = false := hfree _ rfl holdest
            rw [Function.update_self] at hupdated
            cases hupdated
          rw [hslot, Function.update_self, Function.update_of_ne hk, ← hslot]
          exact hbefore
        · rw [Function.update_of_ne hslot]
          exact hbefore
      · obtain rfl := Option.some.inj hpush'
        refine ⟨hpushed, fun k hk => ?_⟩
        change Function.update s.slots (s.slotOf s.written)
          (Function.update (s.slots (s.slotOf s.written)) j (push.sample j)) (s.slotOf s.written) k =
            push.sample k
        rw [Function.update_self]
        by_cases hkj : k = j
        · rw [hkj, Function.update_self]
        · rw [Function.update_of_ne hkj]
          exact hstored k ((Function.update_of_ne hkj true push.stored).symm.trans hk)

theorem Faithful.publish {push : Push words Word} (hpush : s.push = some push)
    (hall : ∀ j, push.stored j = true) : (s.next .publish).Faithful := by
  obtain ⟨hpushed, hstored⟩ := h.pushing push hpush
  refine ⟨h.capacity, fun i hi hresident j _ => ?_, fun push' hpush' => (nomatch hpush'),
    fun index out loaded hreader => ?_, fun index out hreader => ?_⟩
  · change i < s.written + 1 at hi
    change s.written + 1 ≤ i + s.capacity at hresident
    change s.slots (s.slotOf i) j = s.pushed i j
    by_cases hlast : i = s.written
    · rw [hlast, hstored j (hall j), hpushed]
    · exact h.resident i (by omega) (by omega) j fun _ _ holdest => by omega
  · obtain ⟨hlt, hwords⟩ := h.copied index out loaded hreader
    refine ⟨Nat.lt_succ_of_lt hlt, fun hresident => hwords ?_⟩
    change s.written + 1 ≤ index + s.capacity at hresident
    omega
  · obtain ⟨hlt, hout⟩ := h.returned index out hreader
    exact ⟨Nat.lt_succ_of_lt hlt, hout⟩

theorem Faithful.beginCopy (index : Nat) (buffer : NdsHostProfSample words Word) :
    (s.next (.beginCopy index buffer)).Faithful := by
  refine ⟨h.capacity, h.resident, h.pushing, fun index' out loaded hreader => ?_,
    fun index' out hreader => ?_⟩
  · change (if index ≥ s.written then ReaderPhase.returned index none
      else if s.evictedAt index = true then .returned index none
      else .copying index buffer fun _ => false) = _ at hreader
    split at hreader
    · cases hreader
    rename_i hproduced
    split at hreader
    · cases hreader
    cases hreader
    exact ⟨Nat.lt_of_not_le hproduced, fun _ j hj => Bool.noConfusion hj⟩
  · change (if index ≥ s.written then ReaderPhase.returned index none
      else if s.evictedAt index = true then .returned index none
      else .copying index buffer fun _ => false) = _ at hreader
    split at hreader
    · cases hreader
    split at hreader
    · cases hreader
    · cases hreader

/-- A word that is not rewritten is a word of its sample. -/
theorem Faithful.loadWord {j : Fin words} (hfree : ¬ s.Rewritten (.loadWord j)) :
    (s.next (.loadWord j)).Faithful := by
  cases hreader : s.reader with
  | idle =>
      have hsame : s.next (.loadWord j) = s := by
        unfold next
        rw [hreader]
      rwa [hsame]
  | returned index result =>
      have hsame : s.next (.loadWord j) = s := by
        unfold next
        rw [hreader]
      rwa [hsame]
  | copying index out loaded =>
      have hnext : s.next (.loadWord j) =
          { s with
            reader := .copying index (Function.update out j (s.slots (s.slotOf index) j))
              (Function.update loaded j true) } := by
        unfold next
        rw [hreader]
      rw [hnext]
      obtain ⟨hlt, hwords⟩ := h.copied index out loaded hreader
      refine ⟨h.capacity, h.resident, h.pushing, fun index' out' loaded' hreader' => ?_,
        fun index' out' hreader' => (nomatch hreader')⟩
      cases hreader'
      refine ⟨hlt, fun hresident k hk => ?_⟩
      by_cases hkj : k = j
      · rw [hkj, Function.update_self]
        refine h.resident index hlt hresident j fun push hpush holdest => ?_
        exact Bool.eq_false_iff.mpr fun hstored =>
          hfree ⟨index, out, loaded, push, hreader, hpush, hstored, holdest⟩
      · rw [Function.update_of_ne hkj]
        exact hwords hresident k ((Function.update_of_ne hkj true loaded).symm.trans hk)

theorem Faithful.finishCopy {index : Nat} {out : NdsHostProfSample words Word}
    {loaded : Fin words → Bool} (hreader : s.reader = .copying index out loaded)
    (hall : ∀ j, loaded j = true) : (s.next .finishCopy).Faithful := by
  have hnext : s.next .finishCopy =
      { s with reader := .returned index (if s.evictedAt index then none else some out) } := by
    unfold next
    rw [hreader]
  rw [hnext]
  obtain ⟨hlt, hwords⟩ := h.copied index out loaded hreader
  refine ⟨h.capacity, h.resident, h.pushing, fun index' out' loaded' hreader' => (nomatch hreader'),
    fun index' out' hreader' => ?_⟩
  injection hreader' with hindex hresult
  subst hindex
  cases hevicted : s.evictedAt index with
  | true =>
      rw [hevicted] at hresult
      cases hresult
  | false =>
      rw [hevicted] at hresult
      obtain rfl := Option.some.inj hresult
      exact ⟨hlt, funext fun j => hwords (evictedAt_eq_false hevicted) j (hall j)⟩

end Steps

theorem faithful_invariant :
    (untornSystem : OpSystem (NdsHostProfRing words Word) (RingOp words Word)).Invariant
      Faithful where
  start := by
    intro s hs
    refine ⟨hs.capacity, fun i hi => ?_, fun push hpush => ?_, fun index out loaded hreader => ?_,
      fun index out hreader => ?_⟩
    · rw [hs.written] at hi
      exact absurd hi (Nat.not_lt_zero i)
    · rw [hs.push] at hpush
      cases hpush
    · rw [hs.reader] at hreader
      cases hreader
    · rw [hs.reader] at hreader
      cases hreader
  step := by
    rintro s op hs ⟨hadmits, hfree⟩
    cases op with
    | beginPush sample => exact hs.beginPush hadmits sample
    | storeWord j => exact hs.storeWord j
    | publish =>
        obtain ⟨push, hpush, hall⟩ := hadmits
        exact hs.publish hpush hall
    | beginCopy index buffer => exact hs.beginCopy index buffer
    | loadWord j => exact hs.loadWord hfree
    | finishCopy =>
        obtain ⟨index, out, loaded, hreader, hall⟩ := hadmits
        exact hs.finishCopy hreader hall

/-- Where no copy meets a rewritten word, a copy that succeeds is the sample that
was pushed with its index. -/
theorem copySlot_untorn {s : NdsHostProfRing words Word} (h : untornSystem.Reachable s) :
    ∀ index out, s.reader = .returned index (some out) →
      index < s.written ∧ out = s.pushed index :=
  (h.invariant faithful_invariant).returned

/-! ### A torn copy -/

/-- A ring of one slot for samples of two words. -/
def smallRing : NdsHostProfRing 2 Nat where
  capacity := 1
  slots := fun _ _ => 0
  pushed := fun _ _ => 0

/-- A whole push, and a copy of it. -/
def quietOps : List (RingOp 2 Nat) :=
  [.beginPush fun _ => 1, .storeWord 0, .storeWord 1, .publish,
    .beginCopy 0 (fun _ => 0), .loadWord 0, .loadWord 1, .finishCopy]

/-- A copy of the first sample, half of it behind the first word of the second
push. -/
def tornOps : List (RingOp 2 Nat) :=
  [.beginPush fun _ => 1, .storeWord 0, .storeWord 1, .publish,
    .beginCopy 0 (fun _ => 0), .beginPush (fun _ => 2), .storeWord 0, .loadWord 0, .loadWord 1,
    .finishCopy]

theorem smallRing_initialized : smallRing.Initialized := ⟨⟨0, rfl⟩, rfl, rfl, rfl⟩

theorem quietOps_untorn :
    (untornSystem.runFrom smallRing quietOps).reader = .returned 0 (some fun _ => 1) ∧
      (untornSystem.runFrom smallRing quietOps).pushed 0 = fun _ => 1 := by
  have hfree (op : RingOp 2 Nat) {s : NdsHostProfRing 2 Nat} (hpush : s.push = none) :
      ¬ s.Rewritten op := by
    cases op with
    | loadWord j =>
        rintro ⟨_, _, _, push, _, hsome, _⟩
        rw [hpush] at hsome
        cases hsome
    | _ => exact id
  have hall : untornSystem.AdmitsAll smallRing quietOps := by
    refine ⟨⟨rfl, id⟩, ⟨?_, id⟩, ⟨?_, id⟩, ⟨⟨_, rfl, by decide⟩, id⟩, ⟨?_, id⟩,
      ⟨⟨_, _, _, rfl⟩, hfree _ rfl⟩, ⟨⟨_, _, _, rfl⟩, hfree _ rfl⟩,
      ⟨⟨_, _, _, rfl, by decide⟩, id⟩, trivial⟩
    · rintro ⟨⟩
    · rintro ⟨⟩
    · rintro _ _ _ ⟨⟩
  have hreach : untornSystem.Reachable smallRing := .start smallRing_initialized
  have hreader : (untornSystem.runFrom smallRing quietOps).reader =
      .returned 0 (some fun _ => 1) := by
    have hcell : ∀ j : Fin 2, (Function.update (Function.update (fun _ => 0) 0 1) 1 1 : Fin 2 → Nat) j =
        1 := by decide
    exact congrArg (fun out => ReaderPhase.returned 0 (some out)) (funext hcell)
  exact ⟨hreader, (copySlot_untorn (hreach.runFrom hall) 0 _ hreader).2.symm⟩

/-- The copy succeeds with a word of either sample. -/
theorem tornOps_torn :
    ringSystem.Reachable (ringSystem.runFrom smallRing tornOps) ∧
      ∃ out, (ringSystem.runFrom smallRing tornOps).reader = .returned 0 (some out) ∧
        out 0 = 2 ∧ out 1 = 1 ∧ (ringSystem.runFrom smallRing tornOps).pushed 0 = fun _ => 1 := by
  have hall : ringSystem.AdmitsAll smallRing tornOps := by
    refine ⟨rfl, ?_, ?_, ⟨_, rfl, by decide⟩, ?_, rfl, ?_, ⟨_, _, _, rfl⟩, ⟨_, _, _, rfl⟩,
      ⟨_, _, _, rfl, by decide⟩, trivial⟩
    · rintro ⟨⟩
    · rintro ⟨⟩
    · rintro _ _ _ ⟨⟩
    · rintro ⟨⟩
  have hreach : ringSystem.Reachable smallRing := .start smallRing_initialized
  exact ⟨hreach.runFrom hall, _, rfl, rfl, rfl, rfl⟩

end NdsHostProfRing

end NdsRecomp.Host
