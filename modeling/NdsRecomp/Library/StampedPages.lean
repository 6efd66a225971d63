import Mathlib.Tactic

/-!
Pages watched through stamps. A reader notes the stamps of some pages and later
takes a page that still carries its noted stamp to be unchanged. That is right
as long as every step that changes a page changes its stamp, and no step brings
a page back to the stamp noted for it.
-/

namespace NdsRecomp.Library

structure Stamped (State Page Stamp Content : Type*) where
  stamp : State → Page → Stamp
  content : State → Page → Content

namespace Stamped

variable {State Page Stamp Content : Type*} (w : Stamped State Page Stamp Content)

/-- What changes a page changes its stamp. -/
def Honest (s s' : State) : Prop :=
  ∀ page, w.stamp s' page = w.stamp s page → w.content s' page = w.content s page

/-- No noted page is brought back to its noted stamp. -/
def NoReturn (notes : Set (Page × Stamp)) (s s' : State) : Prop :=
  ∀ note ∈ notes, w.stamp s' note.1 = note.2 → w.stamp s note.1 = note.2

/-- A noted page that carries its noted stamp has the content of `base`. -/
def Vouches (notes : Set (Page × Stamp)) (base s : State) : Prop :=
  ∀ note ∈ notes, w.stamp s note.1 = note.2 → w.content s note.1 = w.content base note.1

variable {w} {notes : Set (Page × Stamp)} {base s s' : State}

theorem vouches_self (notes : Set (Page × Stamp)) (s : State) : w.Vouches notes s s :=
  fun _ _ _ => rfl

theorem NoReturn.mono {more : Set (Page × Stamp)} (h : w.NoReturn more s s')
    (hsub : notes ⊆ more) : w.NoReturn notes s s' :=
  fun note hnote => h note (hsub hnote)

/-- One step: a page that carries its noted stamp now carried it before, so the
step left both its stamp and its content alone. -/
theorem Vouches.step (h : w.Vouches notes base s) (hhonest : w.Honest s s')
    (hnoReturn : w.NoReturn notes s s') : w.Vouches notes base s' := by
  intro note hnote hstamp
  have hbefore := hnoReturn note hnote hstamp
  calc w.content s' note.1 = w.content s note.1 := hhonest note.1 (hstamp.trans hbefore.symm)
    _ = w.content base note.1 := h note hnote hbefore

/-! ### Stamps that count -/

/-- Every page's stamp advanced at most `k` times, and a page whose stamp did
not advance kept its content. -/
def Advances (w : Stamped State Page Stamp Content) (next : Stamp → Stamp) (k : Nat)
    (s s' : State) : Prop :=
  ∀ page, ∃ n ≤ k, w.stamp s' page = next^[n] (w.stamp s page) ∧
    (n = 0 → w.content s' page = w.content s page)

variable {next : Stamp → Stamp} {k l : Nat}

theorem Advances.refl (s : State) : w.Advances next k s s :=
  fun _ => ⟨0, Nat.zero_le k, rfl, fun _ => rfl⟩

theorem Advances.mono (h : w.Advances next k s s') (hle : k ≤ l) : w.Advances next l s s' := by
  intro page
  obtain ⟨n, hn, hstamp, hcontent⟩ := h page
  exact ⟨n, hn.trans hle, hstamp, hcontent⟩

theorem Advances.trans {s'' : State} (h : w.Advances next k s s')
    (h' : w.Advances next l s' s'') : w.Advances next (k + l) s s'' := by
  intro page
  obtain ⟨n, hn, hstamp, hcontent⟩ := h page
  obtain ⟨n', hn', hstamp', hcontent'⟩ := h' page
  refine ⟨n' + n, by omega, ?_, ?_⟩
  · rw [hstamp', hstamp, Function.iterate_add_apply]
  · intro hzero
    rw [hcontent' (by omega), hcontent (by omega)]

/-- One advance for every element of a list. -/
theorem Advances.foldl {β : Type*} {f : State → β → State}
    (hstep : ∀ s b, w.Advances next 1 s (f s b)) (bs : List β) (s : State) :
    w.Advances next bs.length s (bs.foldl f s) := by
  induction bs generalizing s with
  | nil => exact .refl s
  | cons b bs ih =>
      rw [List.foldl_cons, List.length_cons, Nat.add_comm]
      exact (hstep s b).trans (ih (f s b))

/-- Stamps that do not come round within `k` advances make `k` advances
honest. -/
theorem Advances.honest (h : w.Advances next k s s')
    (hcycle : ∀ n stamp, 0 < n → n ≤ k → next^[n] stamp ≠ stamp) : w.Honest s s' := by
  intro page hstamp
  obtain ⟨n, hn, hadvanced, hcontent⟩ := h page
  rcases Nat.eq_zero_or_pos n with hzero | hpos
  · exact hcontent hzero
  · exact absurd (hadvanced.symm.trans hstamp) (hcycle n _ hpos hn)

end Stamped

end NdsRecomp.Library
