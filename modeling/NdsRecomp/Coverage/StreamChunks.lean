import NdsRecomp.Coverage.StreamManifest
import Mathlib.Data.List.DropRight

/-!
The window against the text. As long as no window ends inside a number that
already decodes, every turn over the window is the turn over the text; where one
can, a first read of that length makes the reader fail.
-/

namespace NdsRecomp.CoverageManifest

open Window

variable {V : Type} (D : JsonDecoder V) (keys : List JsonPath)

/-- What is relied on of `raw_decode`: a value that ends inside of a prefix is decoded
from the prefix, and a prefix decodes short of its end to something else only inside
a number, before its fraction or its exponent. -/
structure JsonDecoder.Lawful : Prop where
  extend : ∀ {s n obj taken}, D.rawDecode s = some (obj, taken) → taken < n → n ≤ s.length →
    D.rawDecode (s.take n) = some (obj, taken)
  number : ∀ {s n obj taken}, CutAt D s n obj taken → D.asKey obj = none ∧
    (∀ obj' taken', D.rawDecode s = some (obj', taken') → D.asKey obj' = none) ∧
    ∃ c rest, s.drop taken = c :: rest ∧ (c = '.' ∨ c = 'e' ∨ c = 'E')

/-- The member value or element that comes next is not cut by any window. -/
def UncutAt (task : StreamTask) (text : List Char) : Prop :=
  match task with
  | .scalar _ _ | .items _ _ => ∀ n obj taken, ¬ CutAt D (text.dropWhile isSpace) n obj taken
  | _ => True

/-- A turn of the reader of the text. -/
def TextTurn (x y : List StreamTask × List Char) : Prop :=
  ∃ task tasks events, x.1 = task :: tasks ∧
    turn D.asKey keys (textCursor D) task tasks x.2 = .next events y.1 y.2

/-- No member value and no element of a named array can be cut. -/
def Uncut (text : List Char) : Prop :=
  ∀ task tasks rest,
    Relation.ReflTransGen (TextTurn D keys) ([.object []], text) (task :: tasks, rest) →
      UncutAt D task rest

/-! ### Windows that follow the text -/

/-- A window on a text, all of whose reads but the first one leave `rest`. -/
structure Over (rest : List Char) (w : Window) (text : List Char) : Prop where
  sound : w.Sound
  left : w.remaining = text
  leaves : rest.length < (text.dropWhile isSpace).length → w.Leaves rest

theorem follows_over (rest : List Char) :
    Follows (windowCursor D) (textCursor D) (Over rest) where
  peek := fun {w text} h => by
    obtain ⟨hsound, hpeek, hremaining⟩ := peek_spec h.sound
    rw [h.left] at hpeek hremaining
    refine ⟨hpeek, hsound, hremaining, fun hinside => .inl ?_⟩
    change rest.length < ((text.dropWhile isSpace).dropWhile isSpace).length at hinside
    rw [List.dropWhile_idempotent] at hinside
    exact skipSpace_leaves h.sound (h.leaves hinside) (by rw [h.left]; exact hinside)
  take := fun {w text} expected h => by
    rcases take_spec expected h.sound with ⟨hw, ht⟩ | ⟨v, hw, hsound, ht⟩
    · rw [h.left] at ht
      exact .inl ⟨hw, ht⟩
    · rw [h.left] at ht
      refine .inr ⟨v, v.remaining, hw, ht, hsound, rfl, fun hinside => .inl ?_⟩
      have hless : (v.remaining.dropWhile isSpace).length ≤ (text.dropWhile isSpace).length := by
        unfold takeText at ht
        cases hrest : text.dropWhile isSpace with
        | nil =>
            rw [hrest] at ht
            cases ht
        | cons c more =>
            rw [hrest] at ht
            dsimp only at ht
            split at ht
            · rw [← Option.some.inj ht, List.length_cons]
              exact (List.dropWhile_suffix _).length_le.trans (Nat.le_succ _)
            · cases ht
      have hhandle : v.handle = w.skipSpace.handle := by
        unfold take at hw
        dsimp only at hw
        split at hw
        · rw [← Option.some.inj hw]
          rfl
        · cases hw
      have hbefore : rest.length < (text.dropWhile isSpace).length := by omega
      rw [hhandle]
      exact skipSpace_leaves h.sound (h.leaves hbefore) (by rw [h.left]; exact hbefore)

variable {D}

theorem valueText_eq_some {text : List Char} {obj : V} {more : List Char} :
    valueText D text = some (obj, more) ↔ ∃ taken,
      D.rawDecode (text.dropWhile isSpace) = some (obj, taken) ∧
        (text.dropWhile isSpace).drop taken = more := by
  unfold valueText
  rw [Option.map_eq_some_iff]
  constructor
  · rintro ⟨⟨_, taken⟩, hdecoded, heq⟩
    cases heq
    exact ⟨taken, hdecoded, rfl⟩
  · rintro ⟨taken, hdecoded, rfl⟩
    exact ⟨_, hdecoded, rfl⟩

theorem valueText_of_some {text : List Char} {obj : V} {taken : Nat}
    (h : D.rawDecode (text.dropWhile isSpace) = some (obj, taken)) :
    valueText D text = some (obj, (text.dropWhile isSpace).drop taken) :=
  valueText_eq_some.mpr ⟨taken, h, rfl⟩

theorem valueText_of_none {text : List Char} (h : D.rawDecode (text.dropWhile isSpace) = none) :
    valueText D text = none := by
  unfold valueText
  rw [h, Option.map_none]

/-- Sound windows, whatever their reads leave. -/
def Covers (w : Window) (text : List Char) : Prop := w.Sound ∧ w.remaining = text

variable (D) in
theorem follows_covers : Follows (windowCursor D) (textCursor D) Covers where
  peek := fun {w text} h => by
    obtain ⟨hsound, hpeek, hremaining⟩ := peek_spec h.1
    rw [h.2] at hpeek hremaining
    exact ⟨hpeek, hsound, hremaining⟩
  take := fun {w text} expected h => by
    rcases take_spec expected h.1 with ⟨hw, ht⟩ | ⟨v, hw, hsound, ht⟩
    · exact .inl ⟨hw, h.2 ▸ ht⟩
    · exact .inr ⟨v, v.remaining, hw, h.2 ▸ ht, hsound, rfl⟩

/-- A value of the window is the text's, unless the window was cut. -/
theorem value_covers {w : Window} {text : List Char} (h : Covers w text) :
    SameValue (windowCursor D) (textCursor D) Covers w text ∨
    ∃ n obj taken v, CutAt D (text.dropWhile isSpace) n obj taken ∧ w.value D = some (obj, v) := by
  have hspec := value_spec D h.1
  rw [h.2] at hspec
  rcases hspec with ⟨hw, ht⟩ | ⟨obj, taken, v, hw, hsound, hremaining, -, hsame⟩
  · exact .inl (.inl ⟨hw, valueText_of_none ht⟩)
  · rcases hsame with ht | ⟨n, -, hcut⟩
    · exact .inl (.inr ⟨obj, v, _, hw, valueText_of_some ht, hsound, hremaining⟩)
    · exact .inr ⟨n, obj, taken, v, hcut, hw⟩

theorem sameTurn_covers (hD : D.Lawful) {w : Window} {text : List Char} (h : Covers w text)
    (task : StreamTask) (tasks : List StreamTask) (huncut : UncutAt D task text) :
    SameTurn Covers (turn D.asKey keys (windowCursor D) task tasks w)
      (turn D.asKey keys (textCursor D) task tasks text) := by
  refine sameTurn_turn (follows_covers D) h D.asKey keys tasks ?_
  rcases value_covers (D := D) h with hsame | ⟨n, obj, taken, v, hcut, hw⟩
  · exact .inl fun _ => hsame
  · cases task with
    | scalar path name => exact absurd hcut (huncut n obj taken)
    | items path name => exact absurd hcut (huncut n obj taken)
    | member path =>
        -- a number is no key, cut or whole
        obtain ⟨hkey, hwhole, -⟩ := hD.number hcut
        refine .inr ⟨⟨fun obj' w' hw' => ?_, fun obj' t' ht' => ?_⟩, path, rfl⟩
        · have hboth := hw.symm.trans hw'
          rw [← (Prod.mk.inj (Option.some.inj hboth)).1]
          exact hkey
        · obtain ⟨taken', hdecoded, -⟩ := valueText_eq_some.mp ht'
          exact hwhole obj' taken' hdecoded
    | object path => exact .inl fun hdecodes => Bool.noConfusion hdecodes
    | content path name => exact .inl fun hdecodes => Bool.noConfusion hdecodes
    | behind path => exact .inl fun hdecodes => Bool.noConfusion hdecodes

/-- Without a cut, the reader over any window is the reader of the text. -/
theorem streamManifest_uncut (hD : D.Lawful) {text : List Char} (huncut : Uncut D keys text)
    {chunk : Nat} (hchunk : 0 < chunk) (turns : Nat) :
    streamManifest D keys chunk turns text = streamText D keys turns text := by
  refine run_same D.asKey keys (R := Covers) (P := fun tasks rest =>
    Relation.ReflTransGen (TextTurn D keys) ([.object []], text) (tasks, rest))
    (fun task tasks w rest h hreach => sameTurn_covers keys hD h task tasks (huncut _ _ _ hreach))
    (fun task tasks rest events tasks' rest' hreach hturn =>
      hreach.tail ⟨task, tasks, events, rfl, hturn⟩)
    turns ⟨sound_init text hchunk, rfl⟩ .refl

/-! ### The whole text in one chunk -/

theorem value_over {w : Window} {text : List Char} (h : Over [] w text) :
    SameValue (windowCursor D) (textCursor D) (Over []) w text := by
  have hspec := value_spec D h.sound
  have hspent (hmore : 0 < (text.dropWhile isSpace).length) : w.skipSpace.handle = [] :=
    skipSpace_leaves h.sound (h.leaves hmore) (by rw [h.left]; exact hmore)
  rw [h.left] at hspec
  rcases hspec with ⟨hw, ht⟩ | ⟨obj, taken, v, hw, hsound, hremaining, hfewer, hsame⟩
  · exact .inl ⟨hw, valueText_of_none ht⟩
  · rcases hsame with ht | ⟨n, hmore, hcut⟩
    · refine .inr ⟨obj, v, _, hw, valueText_of_some ht, hsound, hremaining, fun hinside => .inl ?_⟩
      have hlength := (List.dropWhile_suffix (l := (text.dropWhile isSpace).drop taken)
        isSpace).length_le
      rw [List.length_drop] at hlength
      rw [hspent (by omega)] at hfewer
      exact List.length_eq_zero_iff.mp (Nat.le_zero.mp hfewer)
    · have hsize := hcut.size
      have hshort := hcut.short
      exact absurd (hspent (by omega)) hmore

theorem over_init (text : List Char) {chunk : Nat} (hchunk : 0 < chunk) :
    Over (text.drop chunk) (Window.init text chunk) text :=
  ⟨sound_init text hchunk, rfl, fun _ => .inr ⟨rfl, rfl⟩⟩

variable (D) in
/-- One chunk for the whole text. -/
theorem streamManifest_whole (text : List Char) {chunk : Nat} (hchunk : text.length < chunk)
    (turns : Nat) : streamManifest D keys chunk turns text = streamText D keys turns text := by
  have hinit := over_init text (Nat.zero_lt_of_lt hchunk)
  rw [List.drop_of_length_le hchunk.le] at hinit
  exact run_same D.asKey keys (P := fun _ _ => True)
    (fun task tasks w rest h _ => sameTurn_turn (follows_over D []) h D.asKey keys tasks
      (.inl fun _ => value_over h))
    (fun _ _ _ _ _ _ _ _ => trivial) turns hinit trivial

end NdsRecomp.CoverageManifest
