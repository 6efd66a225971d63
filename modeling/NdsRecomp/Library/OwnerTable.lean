import Mathlib.Tactic

/-!
Slots that each hold a set of owners. A control value says in which slots its
owner appears; changing an owner's control takes it out of the slots of the old
value and puts it into those of the new one. Maintained that way, the table is
at all times the one built from the current controls.
-/

namespace NdsRecomp.Library

variable {Owner Control Slot : Type*} {drives : Owner → Control → Slot → Prop}
  {controls : Owner → Control} {table table' : Slot → Set Owner}

/-- Put `owner` into the slots that `control` drives, or take it out of them. -/
def place (drives : Owner → Control → Slot → Prop) (owner : Owner) (control : Control)
    (add : Bool) (table : Slot → Set Owner) : Slot → Set Owner :=
  fun slot => {o |
    (o = owner ∧ drives owner control slot → add = true) ∧
      (¬ (o = owner ∧ drives owner control slot) → o ∈ table slot)}

/-- The table holds exactly what the controls say. -/
def Shows (drives : Owner → Control → Slot → Prop) (controls : Owner → Control)
    (table : Slot → Set Owner) : Prop :=
  ∀ slot owner, owner ∈ table slot ↔ drives owner (controls owner) slot

theorem mem_place_of {owner o : Owner} {control : Control} {add : Bool} {slot : Slot}
    (h : o = owner ∧ drives owner control slot) :
    o ∈ place drives owner control add table slot ↔ add = true :=
  ⟨fun hin => hin.1 h, fun hadd => ⟨fun _ => hadd, fun hne => absurd h hne⟩⟩

theorem mem_place_of_not {owner o : Owner} {control : Control} {add : Bool} {slot : Slot}
    (h : ¬ (o = owner ∧ drives owner control slot)) :
    o ∈ place drives owner control add table slot ↔ o ∈ table slot :=
  ⟨fun hin => hin.2 h, fun hin => ⟨fun heq => absurd heq h, fun _ => hin⟩⟩

/-- Moving one owner from its old control to a new one. -/
theorem Shows.replace [DecidableEq Owner] (h : Shows drives controls table) (owner : Owner)
    (next : Control) :
    Shows drives (Function.update controls owner next)
      (place drives owner next true (place drives owner (controls owner) false table)) := by
  intro slot o
  by_cases howner : o = owner
  · subst howner
    rw [Function.update_self]
    by_cases hnext : drives o next slot
    · rw [mem_place_of ⟨rfl, hnext⟩]
      exact iff_of_true rfl hnext
    · rw [mem_place_of_not fun hand => hnext hand.2]
      refine iff_of_false ?_ hnext
      by_cases hold : drives o (controls o) slot
      · rw [mem_place_of ⟨rfl, hold⟩]
        exact Bool.false_ne_true
      · rw [mem_place_of_not fun hand => hold hand.2]
        exact fun hin => hold ((h slot o).mp hin)
  · rw [Function.update_of_ne howner, mem_place_of_not fun hand => howner hand.1,
      mem_place_of_not fun hand => howner hand.1]
    exact h slot o

theorem mem_foldl_place (owners : List Owner) (table : Slot → Set Owner) (slot : Slot)
    (o : Owner) :
    o ∈ owners.foldl (fun table owner => place drives owner (controls owner) true table)
        table slot ↔
      (o ∈ owners ∧ drives o (controls o) slot) ∨ o ∈ table slot := by
  induction owners generalizing table with
  | nil => simp
  | cons owner owners ih =>
      rw [List.foldl_cons, ih, List.mem_cons]
      by_cases hdrives : o = owner ∧ drives owner (controls owner) slot
      · rw [mem_place_of hdrives]
        obtain ⟨rfl, hdrives⟩ := hdrives
        simp [hdrives]
      · rw [mem_place_of_not hdrives]
        constructor
        · rintro (⟨hmem, hslot⟩ | hslot)
          · exact Or.inl ⟨Or.inr hmem, hslot⟩
          · exact Or.inr hslot
        · rintro (⟨rfl | hmem, hslot⟩ | hslot)
          · exact absurd ⟨rfl, hslot⟩ hdrives
          · exact Or.inl ⟨hmem, hslot⟩
          · exact Or.inr hslot

/-- Placing each owner once from the empty table. -/
theorem shows_build {owners : List Owner} (hall : ∀ owner, owner ∈ owners) :
    Shows drives controls
      (owners.foldl (fun table owner => place drives owner (controls owner) true table)
        fun _ => ∅) := by
  intro slot o
  rw [mem_foldl_place]
  simp [hall o]

theorem Shows.unique (h : Shows drives controls table) (h' : Shows drives controls table')
    (slot : Slot) : table slot = table' slot := by
  ext o
  exact (h slot o).trans (h' slot o).symm

end NdsRecomp.Library
