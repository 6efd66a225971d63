import NdsRecomp.Net.EventRing

/-!
The ring answers what its log says, in every run that attaches no hostname to an
entry left over by a reset.
-/

namespace NdsRecomp.Net

open Library

/-- An entry as it was pushed. -/
def NdsNetTraceEntry.asPushed (e : NdsNetTraceEntry) : NdsNetTraceEntry :=
  { e with hasHostname := false, hostnameRef := 0 }

@[simp] theorem kindMatches_asPushed (filterKind : UInt8) (e : NdsNetTraceEntry) :
    NetRing.kindMatches filterKind e.asPushed = NetRing.kindMatches filterKind e := rfl

@[simp] theorem asPushed_count (e : NdsNetTraceEntry) : e.asPushed.count = e.count := rfl

@[simp] theorem asPushed_entry (event : NetTraceEvent) (stamp : NetStamp) (count : Nat) :
    (event.entry stamp count).asPushed = event.entry stamp count := rfl

namespace NetRing

/-- Ordinals less than a ring apart have slots of their own. -/
theorem slotOf_inj {c c' : Nat} (hc : 0 < c) (hc' : 0 < c') (hlt : c < c' + kNetTraceSize)
    (hlt' : c' < c + kNetTraceSize) (hslot : slotOf c = slotOf c') : c = c' := by
  unfold slotOf kNetTraceSize at hslot
  unfold kNetTraceSize at hlt hlt'
  omega

end NetRing

open NetRing

namespace LoggedRing

/-- What the two rings have to do with the log. -/
structure Mirrors (s : LoggedRing) : Prop where
  seq : s.ring.seq = s.log.entries.length
  traceW : s.ring.traceW = s.ring.seq % kNetTraceSize
  retained : s.ring.retained = min s.ring.seq kNetTraceSize
  counts : ∀ c, 0 < c → c ≤ s.ring.seq → ∃ e, s.log.entries[c - 1]? = some e ∧ e.count = c
  trace : ∀ c, s.log.Retains c →
    s.log.entries[c - 1]? = some (s.ring.trace (slotOf c)).asPushed
  hostnameW : s.ring.hostnameW = s.log.names.length % kNetHostnameSlots
  owners : ∀ p ∈ s.log.names, 0 < p.1 ∧ p.1 ≤ s.ring.seq
  pool : ∀ i < kNetHostnameSlots, ∀ p, s.log.names[i]? = some p →
    s.ring.hostnamePool ((s.log.names.length - 1 - i) % kNetHostnameSlots) =
      ⟨p.1, cutName kNetHostnameMaxLen p.2⟩
  refs : ∀ c, s.log.Retains c →
    (s.ring.trace (slotOf c)).hasHostname = s.log.names.any (·.1 == c) ∧
      ∀ i, s.log.names.findIdx? (·.1 == c) = some i →
        (s.ring.trace (slotOf c)).hostnameRef =
          (s.log.names.length - 1 - i) % kNetHostnameSlots

theorem mirrors_empty (ring : NetRing) : Mirrors ⟨ring.netRingReset, {}⟩ := by
  have hnone {c : Nat} (hc : ({} : NetLog).Retains c) : False := by
    obtain ⟨hpos, hle, -⟩ := hc
    exact absurd hle (Nat.not_le.mpr hpos)
  refine ⟨rfl, rfl, rfl, fun c hc hle => ?_, fun c hc => (hnone hc).elim, rfl,
    fun p hp => (nomatch hp), fun i _ p hp => (nomatch hp), fun c hc => (hnone hc).elim⟩
  exact absurd hle (Nat.not_le.mpr hc)

section Steps

variable {s : LoggedRing} (h : s.Mirrors)

include h

/-- The slot of a retained ordinal holds its entry. -/
theorem Mirrors.count_of_retains {c : Nat} (hc : s.log.Retains c) :
    (s.ring.trace (slotOf c)).count = c := by
  obtain ⟨e, he, hcount⟩ := h.counts c hc.1 (h.seq ▸ hc.2.1)
  rw [h.trace c hc] at he
  obtain rfl := Option.some.inj he
  exact hcount

/-- The slot of an evicted ordinal holds a later one. -/
theorem Mirrors.count_of_evicted {c : Nat} (hpos : 0 < c) (hle : c ≤ s.ring.seq)
    (hevicted : ¬ s.log.Retains c) : (s.ring.trace (slotOf c)).count ≠ c := by
  have hold : c + kNetTraceSize ≤ s.log.entries.length := by
    by_contra hlt
    exact hevicted ⟨hpos, h.seq ▸ hle, by omega⟩
  -- the one retained ordinal that shares the slot
  have hslot : slotOf (c + kNetTraceSize * ((s.log.entries.length - c) / kNetTraceSize)) =
      slotOf c := by
    unfold slotOf
    have hsub : c + kNetTraceSize * ((s.log.entries.length - c) / kNetTraceSize) - 1 =
        c - 1 + kNetTraceSize * ((s.log.entries.length - c) / kNetTraceSize) := by omega
    rw [hsub, Nat.add_mul_mod_self_left]
  have hretained : s.log.Retains
      (c + kNetTraceSize * ((s.log.entries.length - c) / kNetTraceSize)) := by
    unfold NetLog.Retains
    unfold kNetTraceSize at hold ⊢
    omega
  have hcount := h.count_of_retains hretained
  rw [hslot] at hcount
  unfold kNetTraceSize at hcount hold
  omega

theorem Mirrors.push (event : NetTraceEvent) (stamp : NetStamp) :
    (s.next (.push event stamp)).Mirrors := by
  have hseq := h.seq
  have hlength : (s.log.next (.push event stamp)).entries.length = s.log.entries.length + 1 := by
    unfold NetLog.next
    rw [List.length_append]
    rfl
  have hslot : s.ring.traceW = slotOf (s.ring.seq + 1) := h.traceW
  have hlast (c : Nat) (hc : (s.log.next (.push event stamp)).Retains c) :
      c = s.ring.seq + 1 ∨ s.log.Retains c ∧ slotOf c ≠ s.ring.traceW := by
    obtain ⟨hpos, hle, hlt⟩ := hc
    rw [hlength] at hle hlt
    by_cases hnew : c = s.ring.seq + 1
    · exact .inl hnew
    · refine .inr ⟨⟨hpos, by omega, by omega⟩, fun heq => hnew ?_⟩
      exact slotOf_inj hpos (by omega) (by omega) (by omega) (heq.trans hslot)
  have hentries (c : Nat) (hle : c ≤ s.ring.seq) (hpos : 0 < c) :
      (s.log.next (.push event stamp)).entries[c - 1]? = s.log.entries[c - 1]? :=
    List.getElem?_append_left (by omega)
  have hnewest : (s.log.next (.push event stamp)).entries[s.ring.seq + 1 - 1]? =
      some (event.entry stamp (s.ring.seq + 1)) := by
    rw [Nat.add_sub_cancel, hseq]
    exact List.getElem?_concat_length
  refine ⟨?_, ?_, ?_, fun c hpos hle => ?_, fun c hc => ?_, h.hostnameW, fun p hp => ?_, h.pool,
    fun c hc => ?_⟩
  · exact (congrArg (· + 1) hseq).trans hlength.symm
  · change (s.ring.traceW + 1) % kNetTraceSize = (s.ring.seq + 1) % kNetTraceSize
    rw [h.traceW, Nat.mod_add_mod]
  · change (if s.ring.retained < kNetTraceSize then s.ring.retained + 1 else s.ring.retained) =
      min (s.ring.seq + 1) kNetTraceSize
    rw [h.retained]
    split
    · omega
    · omega
  · change c ≤ s.ring.seq + 1 at hle
    by_cases hnew : c = s.ring.seq + 1
    · subst hnew
      exact ⟨_, hnewest, rfl⟩
    · obtain ⟨e, he, hcount⟩ := h.counts c hpos (by omega)
      exact ⟨e, (hentries c (by omega) hpos).trans he, hcount⟩
  · change _ = some (Function.update s.ring.trace s.ring.traceW _ (slotOf c)).asPushed
    obtain rfl | ⟨hold, hne⟩ := hlast c hc
    · rw [← hslot, Function.update_self]
      exact hnewest
    · rw [Function.update_of_ne hne]
      exact (hentries c (hseq ▸ hold.2.1) hold.1).trans (h.trace c hold)
  · obtain ⟨hpos, hle⟩ := h.owners p hp
    exact ⟨hpos, Nat.le_succ_of_le hle⟩
  · obtain rfl | ⟨hold, hne⟩ := hlast c hc
    · have hnone (p : Nat × Hostname) (hp : p ∈ s.log.names) : (p.1 == s.ring.seq + 1) = false := by
        rw [beq_eq_false_iff_ne]
        exact (Nat.lt_succ_of_le (h.owners p hp).2).ne
      refine ⟨?_, fun i hi => ?_⟩
      · change (Function.update s.ring.trace s.ring.traceW _ (slotOf (s.ring.seq + 1))).hasHostname =
          s.log.names.any _
        rw [← hslot, Function.update_self]
        refine (List.any_eq_false.mpr fun p hp => ?_).symm
        rw [hnone p hp]
        exact Bool.false_ne_true
      · change s.log.names.findIdx? _ = some i at hi
        rw [List.findIdx?_eq_none_iff.mpr fun p hp => hnone p hp] at hi
        cases hi
    · change (Function.update s.ring.trace s.ring.traceW _ (slotOf c)).hasHostname = _ ∧ ∀ i, _ →
        (Function.update s.ring.trace s.ring.traceW _ (slotOf c)).hostnameRef = _
      rw [Function.update_of_ne hne]
      exact h.refs c hold

/-- A hostname for a retained entry. -/
theorem Mirrors.attach {count : Nat} (hretained : s.log.Retains count) (hostname : Hostname) :
    (s.next (.setHostname count hostname)).Mirrors := by
  have hcount := h.count_of_retains hretained
  have hlog : s.log.next (.setHostname count hostname) =
      { s.log with names := (count, hostname) :: s.log.names } := if_pos hretained
  have hring : s.ring.netRingSetHostname count hostname =
      { s.ring with
        hostnamePool :=
          Function.update s.ring.hostnamePool s.ring.hostnameW
            ⟨count, cutName kNetHostnameMaxLen hostname⟩
        hostnameW := (s.ring.hostnameW + 1) % kNetHostnameSlots
        trace :=
          Function.update s.ring.trace (slotOf count)
            { s.ring.trace (slotOf count) with
              hasHostname := true, hostnameRef := s.ring.hostnameW } } := by
    unfold netRingSetHostname
    rw [if_neg hretained.1.ne', if_neg (not_not.mpr hcount)]
  unfold LoggedRing.next
  dsimp only
  rw [hlog, hring]
  have hsame {c : Nat} (hc : s.log.Retains c) (hslot : slotOf c = slotOf count) : c = count := by
    obtain ⟨hpos, hle, hlt⟩ := hc
    obtain ⟨hpos', hle', hlt'⟩ := hretained
    exact slotOf_inj hpos hpos' (by omega) (by omega) hslot
  refine ⟨h.seq, h.traceW, h.retained, h.counts, fun c hc => ?_, ?_, fun p hp => ?_,
    fun i hi p hp => ?_, fun c hc => ?_⟩
  · have hbefore := h.trace c hc
    change s.log.entries[c - 1]? =
      some (Function.update s.ring.trace (slotOf count) _ (slotOf c)).asPushed
    by_cases hslot : slotOf c = slotOf count
    · rw [hslot] at hbefore ⊢
      rw [Function.update_self]
      exact hbefore
    · rw [Function.update_of_ne hslot]
      exact hbefore
  · change (s.ring.hostnameW + 1) % kNetHostnameSlots = (s.log.names.length + 1) % kNetHostnameSlots
    rw [h.hostnameW, Nat.mod_add_mod]
  · cases List.mem_cons.mp hp with
    | inl hnew =>
        subst hnew
        exact ⟨hretained.1, h.seq ▸ hretained.2.1⟩
    | inr hold => exact h.owners p hold
  · change Function.update s.ring.hostnamePool s.ring.hostnameW _
      ((s.log.names.length + 1 - 1 - i) % kNetHostnameSlots) = _
    cases i with
    | zero =>
        obtain rfl := Option.some.inj hp
        rw [Nat.add_sub_cancel, Nat.sub_zero, ← h.hostnameW, Function.update_self]
    | succ i =>
        have hold : s.log.names[i]? = some p := hp
        have hlen : i < s.log.names.length := (List.getElem?_eq_some_iff.mp hold).1
        have hindex : s.log.names.length + 1 - 1 - (i + 1) = s.log.names.length - 1 - i := by omega
        rw [hindex, Function.update_of_ne]
        · exact h.pool i (by omega) p hold
        · rw [h.hostnameW]
          unfold kNetHostnameSlots at hi ⊢
          omega
  · obtain ⟨hhas, href⟩ := h.refs c hc
    change (Function.update s.ring.trace (slotOf count) _ (slotOf c)).hasHostname =
        ((count, hostname) :: s.log.names).any _ ∧
      ∀ i, ((count, hostname) :: s.log.names).findIdx? _ = some i →
        (Function.update s.ring.trace (slotOf count) _ (slotOf c)).hostnameRef =
          (s.log.names.length + 1 - 1 - i) % kNetHostnameSlots
    by_cases heq : c = count
    · subst heq
      rw [Function.update_self, List.any_cons, List.findIdx?_cons, beq_self_eq_true, if_pos rfl]
      refine ⟨rfl, fun i hi => ?_⟩
      obtain rfl := Option.some.inj hi
      exact h.hostnameW
    · have hslot : slotOf c ≠ slotOf count := fun hslot => heq (hsame hc hslot)
      have hbeq : (count == c) = false := beq_eq_false_iff_ne.mpr (Ne.symm heq)
      rw [Function.update_of_ne hslot, List.any_cons, List.findIdx?_cons, hbeq]
      refine ⟨hhas, fun i hi => ?_⟩
      obtain ⟨k, hk, rfl⟩ := Option.map_eq_some_iff.mp hi
      rw [href k hk]
      congr 1
      omega

/-- A hostname that finds no entry of its ordinal is dropped. -/
theorem Mirrors.drop {count : Nat} (hretained : ¬ s.log.Retains count) {hostname : Hostname}
    (hfresh : ¬ StaleAttachment s (.setHostname count hostname)) :
    s.next (.setHostname count hostname) = s := by
  have hlog : s.log.next (.setHostname count hostname) = s.log := if_neg hretained
  have hring : s.ring.netRingSetHostname count hostname = s.ring := by
    unfold netRingSetHostname
    split
    · rfl
    rename_i hpos
    rw [if_pos]
    by_cases hle : count ≤ s.ring.seq
    · exact h.count_of_evicted (Nat.pos_of_ne_zero hpos) hle hretained
    · exact fun hcount => hfresh ⟨Nat.lt_of_not_le hle, hcount⟩
  unfold LoggedRing.next
  dsimp only
  rw [hlog, hring]

end Steps

theorem mirrors_invariant : freshSystem.Invariant Mirrors where
  start := by
    rintro s rfl
    exact mirrors_empty {}
  step := by
    rintro s op hs ⟨-, hfresh⟩
    cases op with
    | push event stamp => exact hs.push event stamp
    | setHostname count hostname =>
        by_cases hretained : s.log.Retains count
        · exact hs.attach hretained hostname
        · change (s.next (.setHostname count hostname)).Mirrors
          rwa [hs.drop hretained hfresh]
    | reset => exact mirrors_empty s.ring

/-! ### The answers -/

section Answers

variable {s : LoggedRing} (h : s.Mirrors)

include h

theorem Mirrors.get (c : Nat) :
    (s.ring.netRingGet c).map NdsNetTraceEntry.asPushed = s.log.get c := by
  unfold netRingGet NetLog.get
  by_cases hretained : s.log.Retains c
  · have hrange : ¬ (c = 0 ∨ c > s.ring.seq) := by
      rw [h.seq]
      have := hretained.1
      have := hretained.2.1
      omega
    dsimp only
    rw [if_neg hrange, if_neg (not_not.mpr (h.count_of_retains hretained)), if_pos hretained]
    exact (h.trace c hretained).symm
  · rw [if_neg hretained]
    split
    · rfl
    rename_i hrange
    have hcount := h.count_of_evicted (by omega) (by omega) hretained
    dsimp only
    rw [if_pos hcount]
    rfl

theorem Mirrors.entryBack {i : Nat} (hi : i < s.ring.retained) :
    s.log.newestFirst[i]? = some (s.ring.entryBack i).asPushed := by
  rw [h.retained] at hi
  have hseq := h.seq
  have hindex : (s.ring.traceW + kNetTraceSize - 1 - i) % kNetTraceSize =
      slotOf (s.ring.seq - i) := by
    rw [h.traceW]
    unfold slotOf
    unfold kNetTraceSize at hi ⊢
    omega
  have hretained : s.log.Retains (s.ring.seq - i) := ⟨by omega, by omega, by omega⟩
  unfold NetLog.newestFirst NetRing.entryBack
  rw [hindex, List.getElem?_take, if_pos (by omega), List.getElem?_reverse (by omega),
    ← h.trace _ hretained]
  congr 1
  omega

theorem Mirrors.newestFirst :
    (List.range s.ring.retained).map (fun i => (s.ring.entryBack i).asPushed) =
      s.log.newestFirst := by
  apply List.ext_getElem?
  intro i
  by_cases hi : i < s.ring.retained
  · rw [h.entryBack hi, List.getElem?_map, List.getElem?_range hi]
    rfl
  · have hlength : s.log.newestFirst.length = s.ring.retained := by
      unfold NetLog.newestFirst
      rw [List.length_take, List.length_reverse, h.retained, h.seq, Nat.min_comm]
    rw [List.getElem?_eq_none (by simpa using hi), List.getElem?_eq_none (by omega)]

omit h in
/-- The walk collects the first matches behind `i`, up to the limit. -/
theorem walkBack_eq (ring : NetRing) (maxEntries : Nat) (filterKind : UInt8) (i left : Nat)
    (out : List NdsNetTraceEntry) :
    ring.walkBack maxEntries filterKind i left out =
      out ++ (((List.range' i left).map ring.entryBack).filter
        (kindMatches filterKind)).take (maxEntries - out.length) := by
  induction left generalizing i out with
  | zero => simp [walkBack]
  | succ left ih =>
      unfold walkBack
      rw [List.range'_succ, List.map_cons, List.filter_cons]
      by_cases hfull : out.length < maxEntries
      · rw [if_pos hfull, ih]
        by_cases hmatch : kindMatches filterKind (ring.entryBack i) = true
        · have htake : maxEntries - out.length = maxEntries - (out.length + 1) + 1 := by omega
          rw [if_pos hmatch, if_pos hmatch, htake, List.take_succ_cons, List.length_append,
            List.append_assoc]
          rfl
        · rw [if_neg hmatch, if_neg hmatch]
      · have hzero : maxEntries - out.length = 0 := by omega
        rw [if_neg hfull, hzero, List.take_zero, List.append_nil]

theorem Mirrors.copyRecent (maxEntries : Nat) (filterKind : UInt8) :
    (s.ring.netRingCopyRecent maxEntries filterKind).map NdsNetTraceEntry.asPushed =
      s.log.recent maxEntries filterKind := by
  have hfilter (l : List NdsNetTraceEntry) :
      (l.filter (kindMatches filterKind)).map NdsNetTraceEntry.asPushed =
        (l.map NdsNetTraceEntry.asPushed).filter (kindMatches filterKind) := by
    rw [List.filter_map]
    rfl
  unfold netRingCopyRecent NetLog.recent
  rw [walkBack_eq, List.map_reverse, List.nil_append, List.map_take, hfilter, List.map_map,
    ← List.range_eq_range', ← h.newestFirst]
  rfl

omit h in
theorem find?_take_of_findIdx? {α : Type*} {p : α → Bool} {l : List α} {i : Nat}
    (h : l.findIdx? p = some i) (n : Nat) :
    (l.take n).find? p = if i < n then l[i]? else none := by
  obtain ⟨hlen, hmatch, hfirst⟩ := List.findIdx?_eq_some_iff_getElem.mp h
  split
  · next hin =>
      rw [List.getElem?_eq_getElem hlen, List.find?_eq_some_iff_getElem]
      refine ⟨hmatch, i, by rw [List.length_take]; omega, List.getElem_take, fun j hj => ?_⟩
      rw [List.getElem_take]
      simpa using hfirst j hj
  · next hout =>
      rw [List.find?_eq_none]
      intro a ha
      obtain ⟨j, hj, rfl⟩ := List.mem_iff_getElem.mp ha
      rw [List.length_take] at hj
      rw [List.getElem_take]
      exact hfirst j (by omega)

/-- Where an attachment was put, there is now the newest one of its slot. -/
theorem Mirrors.poolAt {i : Nat} (hlen : i < s.log.names.length) :
    ∃ p, s.log.names[i % kNetHostnameSlots]? = some p ∧
      s.ring.hostnamePool ((s.log.names.length - 1 - i) % kNetHostnameSlots) =
        ⟨p.1, cutName kNetHostnameMaxLen p.2⟩ := by
  have hslots : 0 < kNetHostnameSlots := by decide
  have hnewest := List.getElem?_eq_getElem (lt_of_le_of_lt (Nat.mod_le i kNetHostnameSlots) hlen)
  have hplace : (s.log.names.length - 1 - i) % kNetHostnameSlots =
      (s.log.names.length - 1 - i % kNetHostnameSlots) % kNetHostnameSlots := by
    unfold kNetHostnameSlots
    omega
  exact ⟨_, hnewest, hplace ▸ h.pool _ (Nat.mod_lt _ hslots) _ hnewest⟩

/-- The newest attachment to an ordinal, where it is still in the pool. -/
theorem Mirrors.getHostname (c bufSize : Nat) (hbuf : 0 < bufSize) :
    s.ring.netRingGetHostname c bufSize =
      (s.log.hostname c).map fun name => cutName bufSize (cutName kNetHostnameMaxLen name) := by
  unfold netRingGetHostname NetLog.hostname
  by_cases hretained : s.log.Retains c
  · have hrange : ¬ (bufSize = 0 ∨ c = 0 ∨ c > s.ring.seq) := by
      rw [h.seq]
      have := hretained.1
      have := hretained.2.1
      omega
    obtain ⟨hhas, href⟩ := h.refs c hretained
    have hcount := h.count_of_retains hretained
    dsimp only
    rw [if_neg hrange, if_pos hretained, hcount, hhas]
    cases hindex : s.log.names.findIdx? (·.1 == c) with
    | none =>
        have hnone := List.findIdx?_eq_none_iff.mp hindex
        have hany : s.log.names.any (·.1 == c) = false :=
          List.any_eq_false.mpr fun p hp => by
            rw [hnone p hp]
            exact Bool.false_ne_true
        have hfind : (s.log.names.take kNetHostnameSlots).find? (·.1 == c) = none :=
          List.find?_eq_none.mpr fun p hp => by
            rw [hnone p (List.mem_of_mem_take hp)]
            exact Bool.false_ne_true
        rw [if_pos (.inr hany), hfind]
        rfl
    | some i =>
        obtain ⟨hlen, howner, hfirst⟩ := List.findIdx?_eq_some_iff_getElem.mp hindex
        have hany : s.log.names.any (·.1 == c) = true :=
          List.any_eq_true.mpr ⟨_, List.getElem_mem hlen, howner⟩
        have hslots : 0 < kNetHostnameSlots := by decide
        obtain ⟨p, hp, hpool⟩ := h.poolAt hlen
        rw [if_neg (by simp [hany]), href i hindex,
          if_neg (Nat.not_le.mpr (Nat.mod_lt _ hslots)), hpool,
          find?_take_of_findIdx? hindex]
        dsimp only
        by_cases hrecent : i < kNetHostnameSlots
        · rw [Nat.mod_eq_of_lt hrecent, List.getElem?_eq_getElem hlen] at hp
          obtain rfl := Option.some.inj hp
          rw [if_neg (not_not.mpr (beq_iff_eq.mp howner)), if_pos hrecent,
            List.getElem?_eq_getElem hlen]
          rfl
        · -- a later attachment sits in the slot, and none of those is to `c`
          have hlt : i % kNetHostnameSlots < i :=
            lt_of_lt_of_le (Nat.mod_lt _ hslots) (Nat.not_lt.mp hrecent)
          have hother : p.1 ≠ c := by
            rw [List.getElem?_eq_getElem (hlt.trans hlen)] at hp
            obtain rfl := Option.some.inj hp
            simpa using hfirst _ hlt
          rw [if_pos hother, if_neg hrecent]
          rfl
  · rw [if_neg hretained]
    split
    · rfl
    rename_i hrange
    have hcount := h.count_of_evicted (c := c) (by omega) (by omega) hretained
    dsimp only
    rw [if_pos (.inl hcount)]
    rfl

/-- The oldest ordinal of the debug state is the oldest retained one. -/
theorem Mirrors.debugState :
    s.ring.netRingDebugState =
      ⟨s.log.entries.length, s.log.entries.length - kNetTraceSize + 1, kNetTraceSize⟩ := by
  have hseq := h.seq
  have hretained := h.retained
  have holdest : (if s.ring.retained ≠ 0 then
      (s.ring.trace ((s.ring.traceW + kNetTraceSize - s.ring.retained) % kNetTraceSize)).count
      else s.ring.seq + 1) = s.log.entries.length - kNetTraceSize + 1 := by
    split
    · rename_i hsome
      have hindex : (s.ring.traceW + kNetTraceSize - s.ring.retained) % kNetTraceSize =
          slotOf (s.log.entries.length - kNetTraceSize + 1) := by
        rw [h.traceW]
        unfold slotOf
        unfold kNetTraceSize at hretained ⊢
        omega
      rw [hindex]
      exact h.count_of_retains ⟨Nat.succ_pos _, by omega, by omega⟩
    · unfold kNetTraceSize at hretained ⊢
      omega
  unfold netRingDebugState
  rw [holdest, hseq]

end Answers

end LoggedRing

/-- In every run without a stale attachment the ring answers as its log does. -/
theorem netRing_answers_log {s : LoggedRing} (hs : freshSystem.Reachable s) :
    (∀ count, (s.ring.netRingGet count).map NdsNetTraceEntry.asPushed = s.log.get count) ∧
      (∀ maxEntries filterKind,
        (s.ring.netRingCopyRecent maxEntries filterKind).map NdsNetTraceEntry.asPushed =
          s.log.recent maxEntries filterKind) ∧
      ∀ count bufSize, 0 < bufSize →
        s.ring.netRingGetHostname count bufSize =
          (s.log.hostname count).map fun name =>
            cutName bufSize (cutName kNetHostnameMaxLen name) := by
  have h := hs.invariant LoggedRing.mirrors_invariant
  exact ⟨h.get, h.copyRecent, h.getHostname⟩

/-- Two names for the first of two entries, and one for an ordinal never pushed. -/
def namedOps : List NetRingOp :=
  [.push ⟨20, 0, 0, 0, none, none, 0, 0, 0, 0, 0, 0⟩ {},
    .push ⟨19, 0, 0, 0, none, none, 0, 0, 0, 0, 0, 0⟩ {},
    .setHostname 1 [97], .setHostname 9 [98], .setHostname 1 [99]]

theorem namedOps_answered :
    (freshSystem.runFrom {} namedOps).ring.netRingGetHostname 1 256 = some [99] ∧
      ((freshSystem.runFrom {} namedOps).ring.netRingCopyRecent 4 19).map
        NdsNetTraceEntry.asPushed = (freshSystem.runFrom {} namedOps).log.recent 4 19 := by
  have hall : freshSystem.AdmitsAll {} namedOps :=
    ⟨⟨trivial, id⟩, ⟨trivial, id⟩, ⟨trivial, fun h => absurd h.1 (by decide)⟩,
      ⟨trivial, fun h => absurd h.2 (by decide)⟩,
      ⟨trivial, fun h => absurd h.1 (by decide)⟩, trivial⟩
  have hreach : freshSystem.Reachable {} := .start rfl
  obtain ⟨-, hrecent, hname⟩ := netRing_answers_log (hreach.runFrom hall)
  exact ⟨(hname 1 256 (by decide)).trans (by decide), hrecent 4 19⟩

/-! ### A reset leaves entries that take hostnames -/

/-- A name for the first entry after a reset that left a second one behind. -/
def leftoverOps : List NetRingOp :=
  [.push ⟨20, 0, 0, 0, none, none, 0, 0, 0, 0, 0, 0⟩ {},
    .push ⟨20, 0, 0, 0, none, none, 0, 0, 0, 0, 0, 0⟩ {},
    .reset, .push ⟨20, 0, 0, 0, none, none, 0, 0, 0, 0, 0, 0⟩ {}, .setHostname 1 [97]]

/-- After `k` names for the entry left behind. -/
structure Leftover (s : LoggedRing) (k : Nat) : Prop where
  first : (s.ring.trace 0).count = 1 ∧ (s.ring.trace 0).hasHostname = true ∧
    (s.ring.trace 0).hostnameRef = 0
  second : (s.ring.trace 1).count = 2
  seq : s.ring.seq = 1
  hostnameW : s.ring.hostnameW = (k + 1) % kNetHostnameSlots
  log : s.log = (netRingSystem.runFrom {} leftoverOps).log

/-- The name goes into the pool, and the log knows nothing of it. -/
theorem Leftover.next {s : LoggedRing} {k : Nat} (h : Leftover s k) :
    Leftover (s.next (.setHostname 2 [98])) (k + 1) ∧
      ((s.next (.setHostname 2 [98])).ring.hostnamePool s.ring.hostnameW).ownerCount = 2 := by
  have hring : s.ring.netRingSetHostname 2 [98] =
      { s.ring with
        hostnamePool := Function.update s.ring.hostnamePool s.ring.hostnameW ⟨2, [98]⟩
        hostnameW := (s.ring.hostnameW + 1) % kNetHostnameSlots
        trace :=
          Function.update s.ring.trace 1
            { s.ring.trace 1 with hasHostname := true, hostnameRef := s.ring.hostnameW } } :=
    if_neg (not_not.mpr h.second)
  have hlog : s.log.next (.setHostname 2 [98]) = s.log := by
    rw [h.log]
    rfl
  have hnext : s.next (.setHostname 2 [98]) = ⟨s.ring.netRingSetHostname 2 [98], s.log⟩ :=
    congrArg (LoggedRing.mk _) hlog
  rw [hnext, hring]
  refine ⟨⟨?_, ?_, h.seq, ?_, h.log⟩, ?_⟩
  · dsimp only
    rw [Function.update_of_ne (by decide)]
    exact h.first
  · dsimp only
    rw [Function.update_self]
    exact h.second
  · dsimp only
    rw [h.hostnameW, Nat.mod_add_mod]
  · dsimp only
    rw [Function.update_self]

theorem leftover_runFrom (k : Nat) :
    Leftover (netRingSystem.runFrom {}
      (leftoverOps ++ List.replicate k (.setHostname 2 [98]))) k := by
  induction k with
  | zero => exact ⟨⟨rfl, rfl, rfl⟩, rfl, rfl, rfl, rfl⟩
  | succ k ih =>
      rw [List.replicate_succ', ← List.append_assoc, OpSystem.runFrom_append]
      exact ih.next.1

/-- The last name that fits the pool takes the slot of the first entry's. -/
theorem Leftover.displaced {s : LoggedRing} (h : Leftover s (kNetHostnameSlots - 1)) :
    (s.next (.setHostname 2 [98])).ring.netRingGetHostname 1 256 = none := by
  obtain ⟨hnext, howner⟩ := h.next
  have hplace : s.ring.hostnameW = 0 := h.hostnameW
  obtain ⟨hcount, hhas, href⟩ := hnext.first
  have hslot : slotOf 1 = 0 := rfl
  rw [hplace] at howner
  unfold netRingGetHostname
  dsimp only
  rw [hslot, hnext.seq, hcount, hhas, href, howner]
  rfl

/-- As many names for the entry left behind as the pool has slots: the log still
holds the first entry's name, and the ring has lost it. -/
theorem leftoverOps_displaced :
    ∃ s, netRingSystem.Reachable s ∧ s.log.Retains 1 ∧ s.log.names = [(1, [97])] ∧
      s.log.hostname 1 = some [97] ∧ s.ring.netRingGetHostname 1 256 = none := by
  have hall (s : LoggedRing) (ops : List NetRingOp) : netRingSystem.AdmitsAll s ops := by
    induction ops generalizing s with
    | nil => trivial
    | cons op ops ih => exact ⟨trivial, ih _⟩
  have hlast (k : Nat) : ∃ s, netRingSystem.Reachable s ∧ Leftover s k :=
    ⟨_, OpSystem.Reachable.runFrom (.start rfl) (hall _ _), leftover_runFrom k⟩
  obtain ⟨s, hreach, hs⟩ := hlast (kNetHostnameSlots - 1)
  have hlog := hs.next.1.log
  have hstep : netRingSystem.Reachable (s.next (.setHostname 2 [98])) :=
    @OpSystem.Reachable.step _ _ netRingSystem s (.setHostname 2 [98]) hreach trivial
  refine ⟨_, hstep, ?_, ?_, ?_, hs.displaced⟩
  · rw [hlog]
    decide
  · rw [hlog]
    rfl
  · rw [hlog]
    decide

end NdsRecomp.Net
