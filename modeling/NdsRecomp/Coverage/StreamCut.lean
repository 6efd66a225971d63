import NdsRecomp.Coverage.StreamChunks

/-!
A value that can be cut is cut by a first read of the right length: everything
before it is decoded from the buffer as from the text, and behind what is decoded
of it stands a point or the mark of an exponent, where the reader fails.
-/

namespace NdsRecomp.CoverageManifest

open Window

variable {V : Type} {D : JsonDecoder V} {keys : List JsonPath}

/-- How much of a text is left when its spaces are skipped. -/
def inkLength (text : List Char) : Nat := (text.dropWhile isSpace).length

/-! ### A turn leaves no more than there was -/

theorem takeText_le {expected : Char} {text more : List Char}
    (h : takeText expected text = some more) : inkLength more ≤ inkLength text := by
  unfold inkLength
  unfold takeText at h
  cases hrest : text.dropWhile isSpace with
  | nil =>
      rw [hrest] at h
      cases h
  | cons c rest =>
      rw [hrest] at h
      dsimp only at h
      split at h
      · rw [← Option.some.inj h, List.length_cons]
        exact (List.dropWhile_suffix _).length_le.trans (Nat.le_succ _)
      · cases h

theorem peekText_le (text : List Char) : inkLength (peekText text).2 ≤ inkLength text := by
  unfold inkLength peekText
  rw [List.dropWhile_idempotent]

theorem valueText_le {text more : List Char} {obj : V} (h : valueText D text = some (obj, more)) :
    inkLength more ≤ inkLength text := by
  obtain ⟨taken, -, rfl⟩ := valueText_eq_some.mp h
  refine (List.dropWhile_suffix _).length_le.trans ?_
  rw [List.length_drop]
  exact Nat.sub_le _ _

/-- The text that a turn leaves is within a bound. -/
def Leaving (bound : Nat) (t : Turn (List Char) V) : Prop :=
  ∀ events tasks text, t = .next events tasks text → inkLength text ≤ bound

theorem leaving_takeThen {text : List Char} {bound : Nat} (h : inkLength text ≤ bound)
    (expected : Char) (events : List (StreamEvent V)) (tasks : List StreamTask) :
    Leaving bound (takeThen (textCursor D) expected events tasks text) := by
  intro events' tasks' text' hturn
  unfold takeThen at hturn
  cases htake : (textCursor D).take expected text with
  | none =>
      rw [htake] at hturn
      cases hturn
  | some more =>
      rw [htake] at hturn
      cases hturn
      exact (takeText_le htake).trans h

theorem leaving_commaOr {text : List Char} {bound : Nat} (h : inkLength text ≤ bound) (close : Char)
    (events : List (StreamEvent V)) (again after : List StreamTask) :
    Leaving bound (commaOr (textCursor D) close events again after text) := by
  have hpeek := (peekText_le text).trans h
  unfold commaOr
  dsimp only
  split
  · exact leaving_takeThen hpeek _ _ _
  · exact leaving_takeThen hpeek _ _ _

theorem leaving_openBody {text : List Char} {bound : Nat} (h : inkLength text ≤ bound)
    (first close : Char) (body after : List StreamTask) :
    Leaving bound (openBody (textCursor D) first close body after text) := by
  unfold openBody
  cases htake : (textCursor D).take first text with
  | none =>
      intro _ _ _ hturn
      cases hturn
  | some more =>
      have hpeek := (peekText_le more).trans ((takeText_le htake).trans h)
      dsimp only
      split
      · exact leaving_takeThen hpeek _ _ _
      · intro _ _ _ hturn
        cases hturn
        exact hpeek

theorem leaving_nestedOr {text : List Char} {bound : Nat} (h : inkLength text ≤ bound)
    (path name : JsonPath) (tasks : List StreamTask) :
    Leaving bound (nestedOr keys (textCursor D) path name tasks text) := by
  have hpeek := (peekText_le text).trans h
  unfold nestedOr
  dsimp only
  split
  · split
    · intro _ _ _ hturn
      cases hturn
      exact hpeek
    · intro _ _ _ hturn
      cases hturn
      exact hpeek
  · intro _ _ _ hturn
    cases hturn
    exact h

/-- A turn that decodes a value leaves no more than the value does. -/
theorem decoded_of_turn {task : StreamTask} (hdecodes : task.decodes = true)
    {tasks tasks' : List StreamTask} {text text' : List Char} {events : List (StreamEvent V)}
    (hturn : turn D.asKey keys (textCursor D) task tasks text = .next events tasks' text') :
    ∃ obj more, valueText D text = some (obj, more) ∧ inkLength text' ≤ inkLength more := by
  have hvalue {go : V → List Char → Turn (List Char) V}
      (h : withValue (textCursor D) text go = .next events tasks' text')
      (hgo : ∀ obj more, Leaving (inkLength more) (go obj more)) :
      ∃ obj more, valueText D text = some (obj, more) ∧ inkLength text' ≤ inkLength more := by
    unfold withValue at h
    cases hv : (textCursor D).value text with
    | none =>
        rw [hv] at h
        cases h
    | some r =>
        rw [hv] at h
        exact ⟨r.1, r.2, hv, hgo r.1 r.2 _ _ _ h⟩
  cases task with
  | member path =>
      refine hvalue hturn fun obj more => ?_
      cases D.asKey obj with
      | none =>
          intro _ _ _ h
          cases h
      | some key => exact leaving_takeThen (le_refl _) _ _ _
  | scalar path name =>
      refine hvalue hturn fun obj more _ _ _ h => ?_
      cases h
      exact le_refl _
  | items path name => exact hvalue hturn fun obj more => leaving_commaOr (le_refl _) _ _ _ _
  | object path => exact Bool.noConfusion hdecodes
  | content path name => exact Bool.noConfusion hdecodes
  | behind path => exact Bool.noConfusion hdecodes

theorem turn_le {task : StreamTask} {tasks tasks' : List StreamTask} {text text' : List Char}
    {events : List (StreamEvent V)}
    (hturn : turn D.asKey keys (textCursor D) task tasks text = .next events tasks' text') :
    inkLength text' ≤ inkLength text := by
  by_cases hdecodes : task.decodes = true
  · obtain ⟨obj, more, hvalue, hle⟩ := decoded_of_turn hdecodes hturn
    exact hle.trans (valueText_le hvalue)
  · cases task with
    | object path => exact leaving_openBody (le_refl _) _ _ _ _ _ _ _ hturn
    | behind path => exact leaving_commaOr (le_refl _) _ _ _ _ _ _ _ hturn
    | content path name =>
        have hpeek := peekText_le text
        unfold turn at hturn
        dsimp only at hturn
        split at hturn
        · split at hturn
          · exact leaving_openBody hpeek _ _ _ _ _ _ _ hturn
          · exact leaving_nestedOr hpeek _ _ _ _ _ _ hturn
        · exact leaving_nestedOr (le_refl _) _ _ _ _ _ _ hturn
    | member path => exact absurd rfl hdecodes
    | scalar path name => exact absurd rfl hdecodes
    | items path name => exact absurd rfl hdecodes

theorem path_le {x y : List StreamTask × List Char}
    (hpath : Relation.ReflTransGen (TextTurn D keys) x y) : inkLength y.2 ≤ inkLength x.2 := by
  induction hpath with
  | refl => exact le_refl _
  | tail _ hstep ih =>
      obtain ⟨task, tasks, events, -, hturn⟩ := hstep
      exact (turn_le hturn).trans ih

/-! ### Inside the first read -/

theorem value_inside_over (hD : D.Lawful) {rest text more : List Char} {w : Window} {obj : V}
    (h : Over rest w text) (hvalue : valueText D text = some (obj, more))
    (hinside : rest.length < inkLength more) :
    ∃ v, w.value D = some (obj, v) ∧ Over rest v more := by
  obtain ⟨taken, hdecoded, hmore⟩ := valueText_eq_some.mp hvalue
  have hlength : inkLength more ≤ (text.dropWhile isSpace).length - taken := by
    rw [← List.length_drop, hmore]
    exact (List.dropWhile_suffix _).length_le
  have hbefore : rest.length < (text.dropWhile isSpace).length := by omega
  have hahead := ahead_of_leaves h.sound (h.leaves hbefore) (by rw [h.left]; exact hbefore)
  have hhandle := skipSpace_leaves h.sound (h.leaves hbefore) (by rw [h.left]; exact hbefore)
  rw [h.left] at hahead
  dsimp only at hahead
  have hprefix := hD.extend (n := (text.dropWhile isSpace).length - rest.length) hdecoded
    (by omega) (Nat.sub_le _ _)
  rw [← hahead] at hprefix
  obtain ⟨v, hv, hsound, hkept, hremaining⟩ := value_inside D h.sound hprefix (by
    rw [hahead, List.length_take]
    omega)
  rw [h.left, hmore] at hremaining
  exact ⟨v, hv, hsound, hremaining, fun _ => .inl (hkept.trans hhandle)⟩

/-- A turn that stays inside the first read is the same over the window. -/
theorem turn_over (hD : D.Lawful) {rest text text' : List Char} {w : Window} {task : StreamTask}
    {tasks tasks' : List StreamTask} {events : List (StreamEvent V)} (h : Over rest w text)
    (hturn : turn D.asKey keys (textCursor D) task tasks text = .next events tasks' text')
    (hinside : rest.length < inkLength text') :
    ∃ w', turn D.asKey keys (windowCursor D) task tasks w = .next events tasks' w' ∧
      Over rest w' text' := by
  have hsame : SameTurn (Over rest) (turn D.asKey keys (windowCursor D) task tasks w)
      (turn D.asKey keys (textCursor D) task tasks text) := by
    refine sameTurn_turn (follows_over D rest) h D.asKey keys tasks (.inl fun hdecodes => ?_)
    obtain ⟨obj, more, hvalue, hle⟩ := decoded_of_turn hdecodes hturn
    obtain ⟨v, hv, hover⟩ := value_inside_over hD h hvalue (by omega)
    exact .inr ⟨obj, v, more, hv, hvalue, hover⟩
  rw [hturn] at hsame
  cases hw : turn D.asKey keys (windowCursor D) task tasks w with
  | raised events' =>
      rw [hw] at hsame
      exact hsame.elim
  | next events' tasks'' w' =>
      rw [hw] at hsame
      obtain ⟨rfl, rfl, hover⟩ := hsame
      exact ⟨w', rfl, hover⟩

/-- The reader over the window comes to where the reader of the text comes. -/
theorem reach_over (hD : D.Lawful) {rest : List Char} {x y : List StreamTask × List Char}
    (hpath : Relation.ReflTransGen (TextTurn D keys) x y) (hinside : rest.length < inkLength y.2)
    {w : Window} (h : Over rest w x.2) :
    ∃ turns w', Over rest w' y.2 ∧ ∀ more,
      (run D.asKey keys (windowCursor D) (turns + more) x.1 w).2 =
        (run D.asKey keys (windowCursor D) more y.1 w').2 := by
  induction hpath using Relation.ReflTransGen.head_induction_on generalizing w with
  | refl => exact ⟨0, w, h, fun more => by rw [Nat.zero_add]⟩
  | head hstep hpath ih =>
      obtain ⟨task, tasks, events, hfirst, hturn⟩ := hstep
      obtain ⟨w', hw, hover⟩ := turn_over hD h hturn (hinside.trans_le (path_le hpath))
      obtain ⟨turns, w'', hend, hrun⟩ := ih hover
      refine ⟨turns + 1, w'', hend, fun more => ?_⟩
      rw [hfirst, Nat.add_right_comm, run, hw]
      exact hrun more

/-! ### Behind a cut number -/

theorem commaOr_raises {c close : Char} (hc : c = '.' ∨ c = 'e' ∨ c = 'E')
    (hclose : close = ']' ∨ close = '\x7d') (events : List (StreamEvent V))
    (again after : List StreamTask) (more : List Char) :
    commaOr (textCursor D) close events again after (c :: more) = .raised events := by
  rcases hc with rfl | rfl | rfl <;> rcases hclose with rfl | rfl <;> rfl

theorem commaOr_raises_over {c close : Char} (hc : c = '.' ∨ c = 'e' ∨ c = 'E')
    (hclose : close = ']' ∨ close = '\x7d') (events : List (StreamEvent V))
    (again after : List StreamTask) {more : List Char} {w : Window} (h : Covers w (c :: more)) :
    commaOr (windowCursor D) close events again after w = .raised events := by
  have hsame := sameTurn_commaOr (follows_covers D) h close events again after
  rw [commaOr_raises hc hclose] at hsame
  cases hw : commaOr (windowCursor D) close events again after w with
  | raised events' =>
      rw [hw] at hsame
      exact congrArg _ hsame
  | next events' tasks w' =>
      rw [hw] at hsame
      exact hsame.elim

/-- A value whose window ends where it can be cut fails within two turns. -/
theorem raised_of_cut (hD : D.Lawful) {rest text : List Char} {w : Window} {task : StreamTask}
    (tasks : List StreamTask) (h : Over rest w text) {n : Nat} {obj : V} {taken : Nat}
    (hcut : CutAt D (text.dropWhile isSpace) n obj taken)
    (hrest : rest.length + n = (text.dropWhile isSpace).length)
    (htask : ∃ path name, task = .scalar path name ∨ task = .items path name) :
    (run D.asKey keys (windowCursor D) 2 (task :: tasks) w).2 = .raised := by
  have hshort := hcut.short
  have hbefore : rest.length < (text.dropWhile isSpace).length := by omega
  have hahead := ahead_of_leaves h.sound (h.leaves hbefore) (by rw [h.left]; exact hbefore)
  rw [h.left] at hahead
  dsimp only at hahead
  have hread : (text.dropWhile isSpace).length - rest.length = n := by omega
  have hdecoded := hcut.decoded
  rw [hread] at hahead
  rw [← hahead] at hdecoded
  obtain ⟨v, hv, hsound, -, hremaining⟩ := value_inside D h.sound hdecoded (by
    rw [hahead, List.length_take]
    omega)
  obtain ⟨-, -, c, more, hbehind, hc⟩ := hD.number hcut
  rw [h.left, hbehind] at hremaining
  have hcovers : Covers v (c :: more) := ⟨hsound, hremaining⟩
  have hvalue : (windowCursor D).value w = some (obj, v) := hv
  obtain ⟨path, name, rfl | rfl⟩ := htask
  · have hnext : turn D.asKey keys (windowCursor D) (.scalar path name) tasks w =
        .next [.scalar name obj] (.behind path :: tasks) v := withValue_some hvalue _
    have hraised : turn D.asKey keys (windowCursor D) (.behind path) tasks v = .raised [] :=
      commaOr_raises_over hc (.inr rfl) _ _ _ hcovers
    rw [run, hnext]
    dsimp only
    rw [run, hraised]
  · have hraised : turn D.asKey keys (windowCursor D) (.items path name) tasks w =
        .raised [.item name obj] :=
      (withValue_some hvalue _).trans (commaOr_raises_over hc (.inl rfl) _ _ _ hcovers)
    rw [run, hraised]

/-- A value that can be cut makes the reader fail for some size of the chunks. -/
theorem exists_raising_chunk (hD : D.Lawful) {text : List Char} (hcut : ¬ Uncut D keys text) :
    ∃ chunk turns, 0 < chunk ∧ (streamManifest D keys chunk turns text).2 = .raised := by
  unfold Uncut at hcut
  simp only [not_forall] at hcut
  obtain ⟨task, tasks, left, hpath, hcut⟩ := hcut
  have hvalue : ∃ n obj taken, CutAt D (left.dropWhile isSpace) n obj taken ∧
      ∃ path name, task = .scalar path name ∨ task = .items path name := by
    cases task with
    | scalar path name =>
        simp only [UncutAt, not_forall, not_not] at hcut
        obtain ⟨n, obj, taken, hcut⟩ := hcut
        exact ⟨n, obj, taken, hcut, path, name, .inl rfl⟩
    | items path name =>
        simp only [UncutAt, not_forall, not_not] at hcut
        obtain ⟨n, obj, taken, hcut⟩ := hcut
        exact ⟨n, obj, taken, hcut, path, name, .inr rfl⟩
    | object path => exact absurd trivial hcut
    | member path => exact absurd trivial hcut
    | content path name => exact absurd trivial hcut
    | behind path => exact absurd trivial hcut
  obtain ⟨n, obj, taken, hcut, htask⟩ := hvalue
  have hsize := hcut.size
  have hshort := hcut.short
  have hle : (left.dropWhile isSpace).length ≤ text.length :=
    (path_le hpath).trans (List.dropWhile_suffix _).length_le
  -- the first read ends where the value is cut
  have hchunk : 0 < text.length - ((left.dropWhile isSpace).length - n) := by omega
  have hrest : (text.drop (text.length - ((left.dropWhile isSpace).length - n))).length + n =
      (left.dropWhile isSpace).length := by
    rw [List.length_drop]
    omega
  obtain ⟨turns, w, hover, hrun⟩ := reach_over hD hpath (by
    change _ < (left.dropWhile isSpace).length
    omega) (over_init text hchunk)
  refine ⟨_, turns + 2, hchunk, ?_⟩
  exact (hrun 2).trans (raised_of_cut hD tasks hover hcut hrest htask)

end NdsRecomp.CoverageManifest
