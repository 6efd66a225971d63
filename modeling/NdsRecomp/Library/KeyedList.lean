import Mathlib.Tactic

/-!
A list of records with distinct keys, edited at the first record of a key.
-/

namespace NdsRecomp.Library

variable {α κ : Type*} [DecidableEq κ] {key : α → κ} {k : κ}

/-- The position of the first record with the key; the length when there is none. -/
def keyIdx (key : α → κ) (k : κ) (l : List α) : Nat := l.findIdx fun a => key a == k

theorem keyIdx_cons (a : α) (l : List α) :
    keyIdx key k (a :: l) = if key a = k then 0 else keyIdx key k l + 1 := by
  unfold keyIdx
  rw [List.findIdx_cons]
  by_cases hkey : key a = k
  · simp [hkey]
  · have hfalse : (key a == k) = false := by simpa using hkey
    rw [if_neg hkey, hfalse]
    rfl

theorem keyIdx_append_new {l : List α} (hnew : ∀ a ∈ l, key a ≠ k) {b : α} (hb : key b = k) :
    keyIdx key k (l ++ [b]) = l.length := by
  induction l with
  | nil => exact (keyIdx_cons b []).trans (if_pos hb)
  | cons a l ih =>
      rw [List.cons_append, keyIdx_cons, if_neg (hnew a List.mem_cons_self),
        ih fun c hc => hnew c (List.mem_cons_of_mem _ hc), List.length_cons]

theorem keyIdx_eq_length {l : List α} : keyIdx key k l = l.length ↔ ∀ a ∈ l, key a ≠ k := by
  unfold keyIdx
  rw [List.findIdx_eq_length]
  simp

theorem mem_eraseIdx_keyIdx {l : List α} (hnodup : (l.map key).Nodup) {a : α} :
    a ∈ l.eraseIdx (keyIdx key k l) ↔ a ∈ l ∧ key a ≠ k := by
  induction l with
  | nil => simp
  | cons b l ih =>
      obtain ⟨hb, hl⟩ := List.nodup_cons.mp hnodup
      rw [keyIdx_cons]
      by_cases hkey : key b = k
      · rw [if_pos hkey, List.eraseIdx_cons_zero]
        constructor
        · intro ha
          exact ⟨List.mem_cons_of_mem _ ha, fun hak => hb (List.mem_map.mpr ⟨a, ha, hak.trans hkey.symm⟩)⟩
        · rintro ⟨ha, hak⟩
          rcases List.mem_cons.mp ha with rfl | ha
          · exact absurd hkey hak
          · exact ha
      · rw [if_neg hkey, List.eraseIdx_cons_succ, List.mem_cons, ih hl, List.mem_cons]
        constructor
        · rintro (rfl | ⟨ha, hak⟩)
          · exact ⟨.inl rfl, hkey⟩
          · exact ⟨.inr ha, hak⟩
        · rintro ⟨rfl | ha, hak⟩
          · exact .inl rfl
          · exact .inr ⟨ha, hak⟩

theorem mem_set_keyIdx {l : List α} (hnodup : (l.map key).Nodup) {b : α} (hb : key b = k)
    (hfound : ∃ c ∈ l, key c = k) {a : α} :
    a ∈ l.set (keyIdx key k l) b ↔ a = b ∨ (a ∈ l ∧ key a ≠ k) := by
  induction l with
  | nil =>
      obtain ⟨c, hc, -⟩ := hfound
      cases hc
  | cons c l ih =>
      obtain ⟨hc, hl⟩ := List.nodup_cons.mp hnodup
      rw [keyIdx_cons]
      by_cases hkey : key c = k
      · rw [if_pos hkey, List.set_cons_zero, List.mem_cons]
        refine or_congr_right ?_
        constructor
        · intro ha
          exact ⟨List.mem_cons_of_mem _ ha, fun hak => hc (List.mem_map.mpr ⟨a, ha, hak.trans hkey.symm⟩)⟩
        · rintro ⟨ha, hak⟩
          rcases List.mem_cons.mp ha with rfl | ha
          · exact absurd hkey hak
          · exact ha
      · have hrest : ∃ c ∈ l, key c = k := by
          obtain ⟨d, hd, hdk⟩ := hfound
          rcases List.mem_cons.mp hd with rfl | hd
          · exact absurd hdk hkey
          · exact ⟨d, hd, hdk⟩
        rw [if_neg hkey, List.set_cons_succ, List.mem_cons, ih hl hrest, List.mem_cons]
        constructor
        · rintro (rfl | rfl | ⟨ha, hak⟩)
          · exact .inr ⟨.inl rfl, hkey⟩
          · exact .inl rfl
          · exact .inr ⟨.inr ha, hak⟩
        · rintro (rfl | ⟨rfl | ha, hak⟩)
          · exact .inr (.inl rfl)
          · exact .inl rfl
          · exact .inr (.inr ⟨ha, hak⟩)

theorem map_set_keyIdx {l : List α} {b : α} (hb : key b = k) :
    (l.set (keyIdx key k l) b).map key = l.map key := by
  induction l with
  | nil => rfl
  | cons c l ih =>
      rw [keyIdx_cons]
      by_cases hkey : key c = k
      · rw [if_pos hkey, List.set_cons_zero, List.map_cons, List.map_cons, hb, hkey]
      · rw [if_neg hkey, List.set_cons_succ, List.map_cons, List.map_cons, ih]

theorem eraseP_eq_eraseIdx_keyIdx (l : List α) :
    (l.eraseP fun a => key a == k) = l.eraseIdx (keyIdx key k l) := by
  induction l with
  | nil => rfl
  | cons b l ih =>
      rw [keyIdx_cons]
      by_cases hkey : key b = k
      · rw [if_pos hkey, List.eraseP_cons_of_pos (by simpa using hkey)]
        rfl
      · rw [if_neg hkey, List.eraseP_cons_of_neg (by simpa using hkey), ih]
        rfl

theorem getElem?_keyIdx {l : List α} {a : α} (h : l[keyIdx key k l]? = some a) :
    a ∈ l ∧ key a = k := by
  refine ⟨List.mem_of_getElem? h, ?_⟩
  obtain ⟨hlt, hget⟩ := List.getElem?_eq_some_iff.mp h
  unfold keyIdx at hlt hget
  have hfound := List.findIdx_getElem (w := hlt)
  rw [hget] at hfound
  simpa using hfound

theorem getElem?_keyIdx_isSome {l : List α} (hfound : ∃ a ∈ l, key a = k) :
    ∃ a, l[keyIdx key k l]? = some a := by
  obtain ⟨a, ha, hak⟩ := hfound
  have hlt : keyIdx key k l < l.length :=
    List.findIdx_lt_length_of_exists ⟨a, ha, by simpa using hak⟩
  exact ⟨_, List.getElem?_eq_getElem hlt⟩

end NdsRecomp.Library
