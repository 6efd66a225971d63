import Mathlib.Tactic

/-!
Streams of self-delimiting frames. A format says what stands at the front of
its input: nothing, one whole frame and the rest, or something broken. Scanning
takes frames until the input ends or breaks.

When every frame has an encoding of which no proper part reads as a frame, a
stream of encodings reads back, and a cut stream reads back exactly when the
cut lies between two frames.
-/

namespace NdsRecomp.Library

inductive Front (α β ε : Type*) where
  | clean
  | frame (a : α) (rest : List β)
  | broken (e : ε)

/-- `front` is also given the number of frames before. -/
structure FrameFormat (α β ε : Type*) where
  front : Nat → List β → Front α β ε
  shrinks : ∀ {i input a rest}, front i input = .frame a rest → rest.length < input.length

namespace FrameFormat

variable {α β ε : Type*} (fmt : FrameFormat α β ε)

/-- The frames taken, and how the scan ended. -/
def scan (i : Nat) (input : List β) : List α × Except ε Unit :=
  match _h : fmt.front i input with
  | .clean => ([], .ok ())
  | .broken e => ([], .error e)
  | .frame a rest =>
      let (frames, status) := scan (i + 1) rest
      (a :: frames, status)
termination_by input.length
decreasing_by exact fmt.shrinks _h

theorem scan_clean {i : Nat} {input : List β} (h : fmt.front i input = .clean) :
    fmt.scan i input = ([], .ok ()) := by
  rw [scan]
  split
  · rfl
  · next heq => exact absurd (h.symm.trans heq) (by simp)
  · next heq => exact absurd (h.symm.trans heq) (by simp)

theorem scan_broken {i : Nat} {input : List β} {e : ε} (h : fmt.front i input = .broken e) :
    fmt.scan i input = ([], .error e) := by
  rw [scan]
  split
  · next heq => exact absurd (h.symm.trans heq) (by simp)
  · next heq =>
      have he := Front.broken.inj (h.symm.trans heq)
      rw [he]
  · next heq => exact absurd (h.symm.trans heq) (by simp)

theorem scan_frame {i : Nat} {input rest : List β} {a : α} (h : fmt.front i input = .frame a rest) :
    fmt.scan i input = (a :: (fmt.scan (i + 1) rest).1, (fmt.scan (i + 1) rest).2) := by
  rw [scan]
  split
  · next heq => exact absurd (h.symm.trans heq) (by simp)
  · next heq => exact absurd (h.symm.trans heq) (by simp)
  · next heq =>
      obtain ⟨ha, hrest⟩ := Front.frame.inj (h.symm.trans heq)
      rw [ha, hrest]

/-- What holds of every frame the format finds holds of every frame taken,
also when the scan breaks later. -/
theorem scan_forall {P : α → Prop}
    (hP : ∀ i input a rest, fmt.front i input = .frame a rest → P a) (i : Nat) (input : List β) :
    ∀ a ∈ (fmt.scan i input).1, P a := by
  induction hn : input.length using Nat.strong_induction_on generalizing i input with
  | _ n ih =>
      subst hn
      intro a ha
      cases hfront : fmt.front i input with
      | clean =>
          rw [fmt.scan_clean hfront] at ha
          cases ha
      | broken e =>
          rw [fmt.scan_broken hfront] at ha
          cases ha
      | frame b rest =>
          rw [fmt.scan_frame hfront] at ha
          rcases List.mem_cons.mp ha with rfl | hmem
          · exact hP i input _ rest hfront
          · exact ih rest.length (fmt.shrinks hfront) (i + 1) rest rfl a hmem

/-- `encode` writes the valid frames so that the format finds each of them
again, and nothing in a part of one. -/
structure Encodes (encode : α → List β) (valid : α → Prop) : Prop where
  clean : ∀ i, fmt.front i [] = .clean
  whole : ∀ i a rest, valid a → fmt.front i (encode a ++ rest) = .frame a rest
  cut : ∀ i a n, valid a → 0 < n → n < (encode a).length →
    ∃ e, fmt.front i ((encode a).take n) = .broken e

variable {fmt} {encode : α → List β} {valid : α → Prop}

theorem Encodes.scan_flatMap (h : fmt.Encodes encode valid) (frames : List α)
    (hvalid : ∀ a ∈ frames, valid a) (i : Nat) :
    fmt.scan i (frames.flatMap encode) = (frames, .ok ()) := by
  induction frames generalizing i with
  | nil => exact fmt.scan_clean (h.clean i)
  | cons a frames ih =>
      have ha : valid a := hvalid a List.mem_cons_self
      have hrest := ih (fun b hb => hvalid b (List.mem_cons_of_mem a hb)) (i + 1)
      rw [List.flatMap_cons, fmt.scan_frame (h.whole i a _ ha), hrest]

/-- The positions between frames. -/
def Boundary (encode : α → List β) (frames : List α) (k n : Nat) : Prop :=
  k ≤ frames.length ∧ n = ((frames.take k).flatMap encode).length

theorem Boundary.succ {a : α} {frames : List α} {k n : Nat} (h : Boundary encode frames k n) :
    Boundary encode (a :: frames) (k + 1) ((encode a).length + n) := by
  refine ⟨Nat.succ_le_succ h.1, ?_⟩
  rw [List.take_succ_cons, List.flatMap_cons, List.length_append, h.2]

/-- Scanning the first `n` elements of a stream: at a boundary it ends cleanly
with the frames before it, elsewhere it breaks. -/
theorem Encodes.scan_take (h : fmt.Encodes encode valid) (frames : List α)
    (hvalid : ∀ a ∈ frames, valid a) (i n : Nat) (hn : n ≤ (frames.flatMap encode).length) :
    (∃ k, Boundary encode frames k n ∧
        fmt.scan i ((frames.flatMap encode).take n) = (frames.take k, .ok ())) ∨
      ((∀ k, ¬ Boundary encode frames k n) ∧
        ∃ k e, fmt.scan i ((frames.flatMap encode).take n) = (frames.take k, .error e)) := by
  induction frames generalizing i n with
  | nil =>
      have hzero : n = 0 := Nat.le_zero.mp hn
      subst hzero
      exact Or.inl ⟨0, ⟨le_refl 0, rfl⟩, fmt.scan_clean (h.clean i)⟩
  | cons a frames ih =>
      have ha : valid a := hvalid a List.mem_cons_self
      rcases Nat.eq_zero_or_pos n with rfl | hpos
      · exact Or.inl ⟨0, ⟨Nat.zero_le _, rfl⟩, fmt.scan_clean (h.clean i)⟩
      rw [List.flatMap_cons] at hn ⊢
      rcases Nat.lt_or_ge n (encode a).length with hinside | hbeyond
      · -- the cut falls inside the first frame
        refine Or.inr ⟨fun k hk => ?_, 0, ?_⟩
        · have hlength := hk.2
          cases k with
          | zero => exact absurd hlength (Nat.pos_iff_ne_zero.mp hpos)
          | succ k =>
              rw [List.take_succ_cons, List.flatMap_cons, List.length_append] at hlength
              omega
        · obtain ⟨e, he⟩ := h.cut i a n ha hpos hinside
          rw [List.take_append_of_le_length (le_of_lt hinside)]
          exact ⟨e, fmt.scan_broken he⟩
      · -- the first frame is whole and the cut falls in the rest
        have hrestLe : n - (encode a).length ≤ (frames.flatMap encode).length := by
          rw [List.length_append] at hn
          omega
        have hsplit : n = (encode a).length + (n - (encode a).length) := by omega
        have hrest := ih (fun b hb => hvalid b (List.mem_cons_of_mem a hb)) (i + 1)
          (n - (encode a).length) hrestLe
        rw [List.take_append, List.take_of_length_le hbeyond, fmt.scan_frame (h.whole i a _ ha)]
        rcases hrest with ⟨k, hk, hscan⟩ | ⟨hno, k, e, hscan⟩
        · refine Or.inl ⟨k + 1, ?_, ?_⟩
          · rw [hsplit]
            exact hk.succ
          · rw [hscan, List.take_succ_cons]
        · refine Or.inr ⟨fun j hj => ?_, k + 1, e, ?_⟩
          · cases j with
            | zero => exact absurd hj.2 (Nat.pos_iff_ne_zero.mp hpos)
            | succ j =>
                refine hno j ⟨Nat.le_of_succ_le_succ hj.1, ?_⟩
                have hlength := hj.2
                rw [List.take_succ_cons, List.flatMap_cons, List.length_append] at hlength
                omega
          · rw [hscan, List.take_succ_cons]

end FrameFormat

end NdsRecomp.Library
