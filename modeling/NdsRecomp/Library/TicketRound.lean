import Mathlib.Data.Finset.Card
import Mathlib.Data.Finset.Range
import Mathlib.Data.Finset.Filter
import Mathlib.Logic.Function.Basic
import Mathlib.Data.Finset.Insert

/-!
A round of tickets: threads take the tickets `0 .. n - 1` from one counter,
work on each, and then count it as done. Every interleaving of the three
operations works on a taken ticket once, and when `n` tickets are counted all
of them have been worked on.
-/

namespace NdsRecomp.Library

/-- `held` is the ticket a thread has, and whether it has worked on it;
`worked` is how often each ticket has been worked on. -/
structure TicketRound (Thread : Type*) where
  next : Nat
  done : Nat
  held : Thread → Option (Nat × Bool)
  worked : Nat → Nat

namespace TicketRound

variable {Thread : Type*}

/-- No thread has the ticket. -/
def Free (r : TicketRound Thread) (y : Nat) : Prop := ∀ t w, r.held t ≠ some (y, w)

open Classical in
/-- The tickets that were taken and given back. -/
noncomputable def counted (r : TicketRound Thread) (n : Nat) : Finset Nat :=
  Finset.filter (fun y => y < r.next ∧ r.Free y) (Finset.range n)

structure Sound (r : TicketRound Thread) (n : Nat) : Prop where
  held_lt : ∀ {t y w}, r.held t = some (y, w) → y < n ∧ y < r.next
  held_inj : ∀ {t t' y w w'}, r.held t = some (y, w) → r.held t' = some (y, w') → t = t'
  worked_held : ∀ {t y w}, r.held t = some (y, w) → r.worked y = if w then 1 else 0
  worked_free : ∀ {y}, y < n → y < r.next → r.Free y → r.worked y = 1
  worked_new : ∀ {y}, r.next ≤ y → r.worked y = 0
  done_le : r.done ≤ (r.counted n).card

/-- No completed ticket was missed. -/
def Complete (r : TicketRound Thread) (n : Nat) : Prop := (r.counted n).card ≤ r.done

theorem mem_counted {r : TicketRound Thread} {n y : Nat} :
    y ∈ r.counted n ↔ y < n ∧ y < r.next ∧ r.Free y := by
  classical
  unfold counted
  rw [Finset.mem_filter, Finset.mem_range]

/-- The round as it starts. -/
theorem sound_start {r : TicketRound Thread} {n : Nat} (hnext : r.next = 0) (hdone : r.done = 0)
    (hheld : ∀ t, r.held t = none) (hworked : ∀ y, r.worked y = 0) : r.Sound n where
  held_lt h := by
    rw [hheld] at h
    cases h
  held_inj h := by
    rw [hheld] at h
    cases h
  worked_held h := by
    rw [hheld] at h
    cases h
  worked_free _ h := by
    rw [hnext] at h
    cases h
  worked_new _ := hworked _
  done_le := hdone ▸ Nat.zero_le _

theorem complete_start {r : TicketRound Thread} {n : Nat} (hnext : r.next = 0) : r.Complete n := by
  have hempty : r.counted n = ∅ := by
    apply Finset.eq_empty_of_forall_notMem
    intro y hy
    have hlt := (mem_counted.mp hy).2.1
    rw [hnext] at hlt
    cases hlt
  unfold Complete
  rw [hempty, Finset.card_empty]
  exact Nat.zero_le _

/-- When `n` tickets are counted, each was worked on once, none is out and
none is left. -/
theorem Sound.finished {r : TicketRound Thread} {n : Nat} (h : r.Sound n) (hdone : n ≤ r.done) :
    (∀ y < n, r.worked y = 1) ∧ (∀ t, r.held t = none) ∧ n ≤ r.next := by
  have hall : r.counted n = Finset.range n := by
    apply Finset.eq_of_subset_of_card_le
    · intro y hy
      exact Finset.mem_range.mpr (mem_counted.mp hy).1
    · rw [Finset.card_range]
      exact hdone.trans h.done_le
  have hcounted : ∀ y < n, y < n ∧ y < r.next ∧ r.Free y := by
    intro y hy
    apply mem_counted.mp
    rw [hall]
    exact Finset.mem_range.mpr hy
  refine ⟨fun y hy => ?_, fun t => ?_, ?_⟩
  · obtain ⟨-, hnext, hfree⟩ := hcounted y hy
    exact h.worked_free hy hnext hfree
  · cases hheld : r.held t with
    | none => rfl
    | some ticket =>
        obtain ⟨y, w⟩ := ticket
        obtain ⟨-, -, hfree⟩ := hcounted y (h.held_lt hheld).1
        exact absurd hheld (hfree t w)
  · by_contra hlt
    exact absurd (hcounted r.next (Nat.lt_of_not_le hlt)).2.1 (Nat.lt_irrefl _)

/-- Once all tickets are taken and given back, all are counted. -/
theorem Complete.finished {r : TicketRound Thread} {n : Nat} (h : r.Complete n) (hnext : n ≤ r.next)
    (hheld : ∀ t, r.held t = none) : n ≤ r.done := by
  have hall : r.counted n = Finset.range n := by
    ext y
    rw [mem_counted, Finset.mem_range]
    refine ⟨fun hy => hy.1, fun hy => ⟨hy, hy.trans_le hnext, fun t w => ?_⟩⟩
    rw [hheld t]
    exact (Option.some_ne_none _).symm
  have hcard : (r.counted n).card = n := by rw [hall, Finset.card_range]
  exact hcard.symm.le.trans h

/-! ### Operations -/

/-- The counter passes the last ticket. -/
def pass (r : TicketRound Thread) : TicketRound Thread := { r with next := r.next + 1 }

theorem counted_pass {r : TicketRound Thread} {n : Nat} (hnext : n ≤ r.next) :
    r.pass.counted n = r.counted n := by
  ext y
  rw [mem_counted, mem_counted]
  refine and_congr_right fun hy => ?_
  have hold : y < r.next := hy.trans_le hnext
  have hnew : y < r.pass.next := hold.trans (Nat.lt_succ_self _)
  exact ⟨fun h => ⟨hold, h.2⟩, fun h => ⟨hnew, h.2⟩⟩

theorem Sound.pass {r : TicketRound Thread} {n : Nat} (h : r.Sound n) (hnext : n ≤ r.next) :
    r.pass.Sound n where
  held_lt hheld := ⟨(h.held_lt hheld).1, (h.held_lt hheld).2.trans (Nat.lt_succ_self _)⟩
  held_inj := h.held_inj
  worked_held := h.worked_held
  worked_free hy _ hfree := h.worked_free hy (hy.trans_le hnext) hfree
  worked_new hy := h.worked_new (Nat.le_of_succ_le hy)
  done_le := by
    rw [counted_pass hnext]
    exact h.done_le

theorem Complete.pass {r : TicketRound Thread} {n : Nat} (h : r.Complete n) (hnext : n ≤ r.next) :
    r.pass.Complete n := by
  unfold Complete
  rw [counted_pass hnext]
  exact h

section Threads

variable [DecidableEq Thread]

/-- `t` takes the next ticket. -/
def claim (r : TicketRound Thread) (t : Thread) : TicketRound Thread :=
  { r with next := r.next + 1, held := Function.update r.held t (some (r.next, false)) }

/-- `t` works on ticket `y`. -/
def work (r : TicketRound Thread) (t : Thread) (y : Nat) : TicketRound Thread :=
  { r with
    held := Function.update r.held t (some (y, true))
    worked := Function.update r.worked y (r.worked y + 1) }

/-- `t` gives its ticket back; `k` is what it adds to the count. -/
def giveBack (r : TicketRound Thread) (t : Thread) (k : Nat) : TicketRound Thread :=
  { r with done := r.done + k, held := Function.update r.held t none }

theorem update_held {held : Thread → Option (Nat × Bool)} {t t' : Thread}
    {v : Option (Nat × Bool)} {ticket : Nat × Bool}
    (h : Function.update held t v t' = some ticket) :
    (t' = t ∧ v = some ticket) ∨ (t' ≠ t ∧ held t' = some ticket) := by
  by_cases hthread : t' = t
  · subst hthread
    rw [Function.update_self] at h
    exact Or.inl ⟨rfl, h⟩
  · rw [Function.update_of_ne hthread] at h
    exact Or.inr ⟨hthread, h⟩

theorem free_update {r r' : TicketRound Thread} {t : Thread} {y : Nat}
    {v : Option (Nat × Bool)} (hheld : r'.held = Function.update r.held t v) :
    r'.Free y ↔ (∀ w, v ≠ some (y, w)) ∧ ∀ t' ≠ t, ∀ w, r.held t' ≠ some (y, w) := by
  unfold Free
  rw [hheld]
  constructor
  · intro h
    refine ⟨fun w => ?_, fun t' hne w => ?_⟩
    · have hself := h t w
      rwa [Function.update_self] at hself
    · have hother := h t' w
      rwa [Function.update_of_ne hne] at hother
  · rintro ⟨hself, hother⟩ t' w hheld'
    rcases update_held hheld' with ⟨-, hv⟩ | ⟨hne, hold⟩
    · exact hself w hv
    · exact hother t' hne w hold

theorem counted_claim {r : TicketRound Thread} {n : Nat} {t : Thread} (hfree : r.held t = none) :
    (r.claim t).counted n = r.counted n := by
  ext y
  rw [mem_counted, mem_counted, free_update (v := some (r.next, false)) rfl]
  refine and_congr_right fun _ => ?_
  constructor
  · rintro ⟨hlt, hself, hother⟩
    have hne : y ≠ r.next := fun heq => hself false (heq ▸ rfl)
    refine ⟨Nat.lt_of_le_of_ne (Nat.le_of_lt_succ hlt) hne, fun t' w => ?_⟩
    by_cases hthread : t' = t
    · rw [hthread, hfree]
      exact (Option.some_ne_none _).symm
    · exact hother t' hthread w
  · rintro ⟨hlt, hold⟩
    refine ⟨hlt.trans (Nat.lt_succ_self _), fun w heq => ?_, fun t' _ => hold t'⟩
    have hy : r.next = y := congrArg Prod.fst (Option.some.inj heq)
    omega

theorem Sound.claim {r : TicketRound Thread} {n : Nat} (h : r.Sound n) {t : Thread}
    (hfree : r.held t = none) (hnext : r.next < n) : (r.claim t).Sound n where
  held_lt hheld := by
    rcases update_held hheld with ⟨-, hticket⟩ | ⟨-, hold⟩
    · cases hticket
      exact ⟨hnext, Nat.lt_succ_self _⟩
    · exact ⟨(h.held_lt hold).1, (h.held_lt hold).2.trans (Nat.lt_succ_self _)⟩
  held_inj hleft hright := by
    rcases update_held hleft with ⟨rfl, hticket⟩ | ⟨hne, hold⟩
    · rcases update_held hright with ⟨rfl, -⟩ | ⟨-, hold'⟩
      · rfl
      · cases hticket
        exact absurd (h.held_lt hold').2 (Nat.lt_irrefl _)
    · rcases update_held hright with ⟨rfl, hticket⟩ | ⟨-, hold'⟩
      · cases hticket
        exact absurd (h.held_lt hold).2 (Nat.lt_irrefl _)
      · exact h.held_inj hold hold'
  worked_held hheld := by
    rcases update_held hheld with ⟨-, hticket⟩ | ⟨-, hold⟩
    · cases hticket
      exact h.worked_new (Nat.le_refl _)
    · exact h.worked_held hold
  worked_free {y} hy hlt hyfree := by
    have hin : y ∈ r.counted n := by
      rw [← counted_claim hfree]
      exact mem_counted.mpr ⟨hy, hlt, hyfree⟩
    obtain ⟨-, hlt', hyfree'⟩ := mem_counted.mp hin
    exact h.worked_free hy hlt' hyfree'
  worked_new hy := h.worked_new (Nat.le_of_succ_le hy)
  done_le := by
    rw [counted_claim hfree]
    exact h.done_le

theorem Complete.claim {r : TicketRound Thread} {n : Nat} (h : r.Complete n) {t : Thread}
    (hfree : r.held t = none) : (r.claim t).Complete n := by
  unfold Complete
  rw [counted_claim hfree]
  exact h

theorem counted_work {r : TicketRound Thread} {n : Nat} {t : Thread} {y : Nat} {w : Bool}
    (hheld : r.held t = some (y, w)) : (r.work t y).counted n = r.counted n := by
  ext x
  rw [mem_counted, mem_counted, free_update (v := some (y, true)) rfl]
  refine and_congr_right fun _ => and_congr_right fun _ => ?_
  constructor
  · rintro ⟨hself, hother⟩ t' w'
    by_cases hthread : t' = t
    · rw [hthread, hheld]
      intro heq
      cases heq
      exact hself true rfl
    · exact hother t' hthread w'
  · intro hfree
    refine ⟨fun w' heq => ?_, fun t' _ => hfree t'⟩
    have hy : y = x := congrArg Prod.fst (Option.some.inj heq)
    exact hfree t w (hy ▸ hheld)

theorem Sound.work {r : TicketRound Thread} {n : Nat} (h : r.Sound n) {t : Thread} {y : Nat}
    (hheld : r.held t = some (y, false)) : (r.work t y).Sound n where
  held_lt hheld' := by
    rcases update_held hheld' with ⟨-, hticket⟩ | ⟨-, hold⟩
    · cases hticket
      exact h.held_lt hheld
    · exact h.held_lt hold
  held_inj hleft hright := by
    rcases update_held hleft with ⟨rfl, hticket⟩ | ⟨hne, hold⟩
    · rcases update_held hright with ⟨rfl, -⟩ | ⟨-, hold'⟩
      · rfl
      · cases hticket
        exact h.held_inj hheld hold'
    · rcases update_held hright with ⟨rfl, hticket⟩ | ⟨-, hold'⟩
      · cases hticket
        exact h.held_inj hold hheld
      · exact h.held_inj hold hold'
  worked_held {t' x w} hheld' := by
    rcases update_held hheld' with ⟨-, hticket⟩ | ⟨hne, hold⟩
    · cases hticket
      change Function.update r.worked y (r.worked y + 1) y = 1
      rw [Function.update_self, h.worked_held hheld]
      rfl
    · have hx : x ≠ y := fun heq => hne (h.held_inj hold (heq ▸ hheld))
      change Function.update r.worked y (r.worked y + 1) x = _
      rw [Function.update_of_ne hx]
      exact h.worked_held hold
  worked_free {x} hx hlt hfree := by
    have hin : x ∈ r.counted n := by
      rw [← counted_work hheld]
      exact mem_counted.mpr ⟨hx, hlt, hfree⟩
    obtain ⟨-, hlt', hfree'⟩ := mem_counted.mp hin
    have hne : x ≠ y := fun heq => hfree' t false (heq ▸ hheld)
    change Function.update r.worked y (r.worked y + 1) x = 1
    rw [Function.update_of_ne hne]
    exact h.worked_free hx hlt' hfree'
  worked_new {x} hx := by
    have hlt : y < r.next := (h.held_lt hheld).2
    have hxnext : r.next ≤ x := hx
    change Function.update r.worked y (r.worked y + 1) x = 0
    rw [Function.update_of_ne (by omega)]
    exact h.worked_new hxnext
  done_le := by
    rw [counted_work hheld]
    exact h.done_le

theorem Complete.work {r : TicketRound Thread} {n : Nat} (h : r.Complete n) {t : Thread} {y : Nat}
    (hheld : r.held t = some (y, false)) : (r.work t y).Complete n := by
  unfold Complete
  rw [counted_work hheld]
  exact h

theorem counted_giveBack {r : TicketRound Thread} {n : Nat} (h : r.Sound n) {t : Thread} {y k : Nat}
    (hheld : r.held t = some (y, true)) :
    (r.giveBack t k).counted n = insert y (r.counted n) := by
  obtain ⟨hy, hnext⟩ := h.held_lt hheld
  ext x
  rw [Finset.mem_insert, mem_counted, mem_counted, free_update (v := none) rfl]
  constructor
  · rintro ⟨hx, hlt, -, hother⟩
    by_cases heq : x = y
    · exact Or.inl heq
    · refine Or.inr ⟨hx, hlt, fun t' w => ?_⟩
      by_cases hthread : t' = t
      · rw [hthread, hheld]
        intro hticket
        exact heq (congrArg Prod.fst (Option.some.inj hticket)).symm
      · exact hother t' hthread w
  · rintro (rfl | ⟨hx, hlt, hfree⟩)
    · refine ⟨hy, hnext, fun w => (Option.some_ne_none _).symm, fun t' hne w hheld' => ?_⟩
      exact hne (h.held_inj hheld' hheld)
    · exact ⟨hx, hlt, fun w => (Option.some_ne_none _).symm, fun t' _ => hfree t'⟩

theorem card_giveBack {r : TicketRound Thread} {n : Nat} (h : r.Sound n) {t : Thread} {y k : Nat}
    (hheld : r.held t = some (y, true)) :
    ((r.giveBack t k).counted n).card = (r.counted n).card + 1 := by
  rw [counted_giveBack h hheld]
  apply Finset.card_insert_of_notMem
  intro hin
  exact (mem_counted.mp hin).2.2 t true hheld

theorem Sound.giveBack {r : TicketRound Thread} {n : Nat} (h : r.Sound n) {t : Thread} {y k : Nat}
    (hheld : r.held t = some (y, true)) (hk : k ≤ 1) : (r.giveBack t k).Sound n where
  held_lt hheld' := by
    rcases update_held hheld' with ⟨-, hticket⟩ | ⟨-, hold⟩
    · cases hticket
    · exact h.held_lt hold
  held_inj hleft hright := by
    rcases update_held hleft with ⟨-, hticket⟩ | ⟨-, hold⟩
    · cases hticket
    · rcases update_held hright with ⟨-, hticket⟩ | ⟨-, hold'⟩
      · cases hticket
      · exact h.held_inj hold hold'
  worked_held hheld' := by
    rcases update_held hheld' with ⟨-, hticket⟩ | ⟨-, hold⟩
    · cases hticket
    · exact h.worked_held hold
  worked_free {x} hx hlt hfree := by
    have hin : x ∈ insert y (r.counted n) := by
      rw [← counted_giveBack (k := k) h hheld]
      exact mem_counted.mpr ⟨hx, hlt, hfree⟩
    rcases Finset.mem_insert.mp hin with rfl | hold
    · exact h.worked_held hheld
    · obtain ⟨-, hlt', hfree'⟩ := mem_counted.mp hold
      exact h.worked_free hx hlt' hfree'
  worked_new := h.worked_new
  done_le := by
    rw [card_giveBack h hheld]
    exact Nat.add_le_add h.done_le hk

theorem Complete.giveBack {r : TicketRound Thread} {n : Nat} (h : r.Complete n) (hr : r.Sound n)
    {t : Thread} {y : Nat} (hheld : r.held t = some (y, true)) : (r.giveBack t 1).Complete n := by
  unfold Complete
  rw [card_giveBack hr hheld]
  exact Nat.add_le_add_right h 1

end Threads

/-! ### Rounds whose completions may be watched -/

/-- A sound round; if `strict` holds, no completed ticket was missed either. -/
structure Tracked (r : TicketRound Thread) (n : Nat) (strict : Prop) : Prop where
  sound : r.Sound n
  complete : strict → r.Complete n

variable {strict : Prop}

/-- Two rounds that agree field by field. -/
theorem Tracked.of_eq {r r' : TicketRound Thread} {n : Nat} (h : r.Tracked n strict)
    (hnext : r'.next = r.next) (hdone : r'.done = r.done) (hheld : r'.held = r.held)
    (hworked : ∀ y, r'.worked y = r.worked y) : r'.Tracked n strict := by
  obtain ⟨next, done, held, worked⟩ := r
  obtain ⟨next', done', held', worked'⟩ := r'
  obtain rfl : next' = next := hnext
  obtain rfl : done' = done := hdone
  obtain rfl : held' = held := hheld
  obtain rfl : worked' = worked := funext hworked
  exact h

/-- More tickets are issued. -/
theorem Tracked.grow {r : TicketRound Thread} {n m : Nat} (h : r.Tracked n strict) (hnm : n ≤ m)
    (hnext : r.next ≤ n) : r.Tracked m strict := by
  have hcounted : r.counted m = r.counted n := by
    ext y
    rw [mem_counted, mem_counted]
    exact ⟨fun hy => ⟨hy.2.1.trans_le hnext, hy.2⟩, fun hy => ⟨hy.1.trans_le hnm, hy.2⟩⟩
  refine ⟨?_, fun hstrict => ?_⟩
  · exact {
      held_lt := fun hheld => ⟨(h.sound.held_lt hheld).1.trans_le hnm, (h.sound.held_lt hheld).2⟩
      held_inj := h.sound.held_inj
      worked_held := h.sound.worked_held
      worked_free := fun _ hlt hfree => h.sound.worked_free (hlt.trans_le hnext) hlt hfree
      worked_new := h.sound.worked_new
      done_le := hcounted ▸ h.sound.done_le }
  · unfold Complete
    rw [hcounted]
    exact h.complete hstrict

theorem tracked_start {r : TicketRound Thread} {n : Nat} (hnext : r.next = 0) (hdone : r.done = 0)
    (hheld : ∀ t, r.held t = none) (hworked : ∀ y, r.worked y = 0) : r.Tracked n strict :=
  ⟨sound_start hnext hdone hheld hworked, fun _ => complete_start hnext⟩

theorem Tracked.pass {r : TicketRound Thread} {n : Nat} (h : r.Tracked n strict)
    (hnext : n ≤ r.next) : r.pass.Tracked n strict :=
  ⟨h.sound.pass hnext, fun hstrict => (h.complete hstrict).pass hnext⟩

variable [DecidableEq Thread]

theorem Tracked.claim {r : TicketRound Thread} {n : Nat} (h : r.Tracked n strict) {t : Thread}
    (hfree : r.held t = none) (hnext : r.next < n) : (r.claim t).Tracked n strict :=
  ⟨h.sound.claim hfree hnext, fun hstrict => (h.complete hstrict).claim hfree⟩

theorem Tracked.work {r : TicketRound Thread} {n : Nat} (h : r.Tracked n strict) {t : Thread}
    {y : Nat} (hheld : r.held t = some (y, false)) : (r.work t y).Tracked n strict :=
  ⟨h.sound.work hheld, fun hstrict => (h.complete hstrict).work hheld⟩

theorem Tracked.giveBack {r : TicketRound Thread} {n : Nat} (h : r.Tracked n strict) {t : Thread}
    {y k : Nat} (hheld : r.held t = some (y, true)) (hk : k ≤ 1) (hcounts : strict → k = 1) :
    (r.giveBack t k).Tracked n strict := by
  refine ⟨h.sound.giveBack hheld hk, fun hstrict => ?_⟩
  rw [hcounts hstrict]
  exact (h.complete hstrict).giveBack h.sound hheld

end TicketRound

end NdsRecomp.Library
