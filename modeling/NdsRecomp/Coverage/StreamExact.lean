import NdsRecomp.Coverage.StreamCut

/-!
The text of a JSON object as the reader takes it apart, with the events of its
members, and the reader on it. The value of a member is decoded whole, unless it is
a named array or an object in which an array is named.

The streaming reader and the size of its chunks. The events are those of the whole
text, and the members of an object text in order, exactly when no member value and
no streamed element can be cut.
-/

namespace NdsRecomp.CoverageManifest

open Window

variable {V : Type} (D : JsonDecoder V) (keys : List JsonPath)

def Spaces (ws : List Char) : Prop := ∀ c ∈ ws, isSpace c = true

/-- What may stand behind a value. -/
def Delimited (rest : List Char) : Prop :=
  rest = [] ∨ ∃ c more, rest = c :: more ∧
    (isSpace c = true ∨ c = ',' ∨ c = ']' ∨ c = '\x7d' ∨ c = ':')

/-- The text of a value, which the decoder reads to its end. -/
structure IsValue (t : List Char) (obj : V) : Prop where
  head : ∃ c more, t = c :: more ∧ isSpace c = false ∧ c ≠ ']'
  decoded : ∀ rest, Delimited rest → D.rawDecode (t ++ rest) = some (obj, t.length)

/-- The texts with the events that are read from them. A text of `member`, `content`
or `items` goes on to the end of the object. -/
inductive Denotes : StreamTask → List Char → List (StreamEvent V) → Prop
  | emptyObject {path ws} : Spaces ws →
      Denotes (.object path) ('\x7b' :: (ws ++ ['\x7d'])) []
  | object {path ws m es} : Spaces ws → Denotes (.member path) m es →
      Denotes (.object path) ('\x7b' :: (ws ++ m)) es
  | member {path t obj key ws ws' content es} : IsValue D ('"' :: t) obj →
      D.asKey obj = some key → Spaces ws → Spaces ws' →
      Denotes (.content path (path ++ key)) content es →
      Denotes (.member path) ('"' :: t ++ (ws ++ ':' :: (ws' ++ content))) es
  | emptyArray {path name ws b es} : name ∈ keys → Spaces ws → Denotes (.behind path) b es →
      Denotes (.content path name) ('[' :: (ws ++ ']' :: b)) es
  | array {path name ws i es} : name ∈ keys → Spaces ws → Denotes (.items path name) i es →
      Denotes (.content path name) ('[' :: (ws ++ i)) es
  | nested {path name o b es es'} : namesBelow keys name = true →
      Denotes (.object (name ++ ['.'])) o es → Denotes (.behind path) b es' →
      Denotes (.content path name) (o ++ b) (es ++ es')
  | scalar {path name c t obj b es} : IsValue D (c :: t) obj → (name ∈ keys → c ≠ '[') →
      (namesBelow keys name = true → c ≠ '\x7b') → Denotes (.behind path) b es →
      Denotes (.content path name) (c :: t ++ b) (.scalar name obj :: es)
  | lastItem {path name t obj ws b es} : IsValue D t obj → Spaces ws → Denotes (.behind path) b es →
      Denotes (.items path name) (t ++ (ws ++ ']' :: b)) (.item name obj :: es)
  | nextItem {path name t obj ws ws' i es} : IsValue D t obj → Spaces ws → Spaces ws' →
      Denotes (.items path name) i es →
      Denotes (.items path name) (t ++ (ws ++ ',' :: (ws' ++ i))) (.item name obj :: es)
  | last {path ws} : Spaces ws → Denotes (.behind path) (ws ++ ['\x7d']) []
  | next {path ws ws' m es} : Spaces ws → Spaces ws' → Denotes (.member path) m es →
      Denotes (.behind path) (ws ++ ',' :: (ws' ++ m)) es

/-! ### The operations behind spaces -/

theorem dropWhile_spaces {ws : List Char} (h : Spaces ws) {c : Char} (hc : isSpace c = false)
    (s : List Char) : (ws ++ c :: s).dropWhile isSpace = c :: s := by
  have hws : ws.dropWhile isSpace = [] := List.dropWhile_eq_nil_iff.mpr h
  have hink : ¬ isSpace c = true := by
    rw [hc]
    exact Bool.false_ne_true
  rw [dropWhile_append_of_nil hws, List.dropWhile_cons_of_neg hink]

theorem takeText_at {ws : List Char} (h : Spaces ws) {c : Char} (hc : isSpace c = false)
    (s : List Char) : takeText c (ws ++ c :: s) = some s := by
  unfold takeText
  rw [dropWhile_spaces h hc]
  exact if_pos rfl

theorem peekText_at {ws : List Char} (h : Spaces ws) {c : Char} (hc : isSpace c = false)
    (s : List Char) : peekText (ws ++ c :: s) = (some c, c :: s) := by
  unfold peekText
  rw [dropWhile_spaces h hc]
  rfl

theorem spaces_nil : Spaces [] := fun _ hmem => (List.not_mem_nil hmem).elim

theorem Spaces.append {ws ws' : List Char} (h : Spaces ws) (h' : Spaces ws') :
    Spaces (ws ++ ws') := fun c hc => (List.mem_append.mp hc).elim (h c) (h' c)

theorem delimited_at {ws : List Char} (h : Spaces ws) {c : Char}
    (hc : c = ',' ∨ c = ']' ∨ c = '\x7d' ∨ c = ':') (s : List Char) : Delimited (ws ++ c :: s) := by
  cases ws with
  | nil => exact .inr ⟨c, s, rfl, .inr hc⟩
  | cons d ws => exact .inr ⟨d, ws ++ c :: s, rfl, .inl (h d List.mem_cons_self)⟩

variable {D keys}

theorem valueText_at {ws t rest : List Char} {obj : V} (h : Spaces ws) (hvalue : IsValue D t obj)
    (hrest : Delimited rest) : valueText D (ws ++ (t ++ rest)) = some (obj, rest) := by
  obtain ⟨c, more, rfl, hc, -⟩ := hvalue.head
  have hskip : (ws ++ (c :: more ++ rest)).dropWhile isSpace = c :: more ++ rest :=
    dropWhile_spaces h hc (more ++ rest)
  refine valueText_eq_some.mpr ⟨(c :: more).length, ?_, ?_⟩
  · rw [hskip]
    exact hvalue.decoded rest hrest
  · rw [hskip]
    exact List.drop_left

theorem Denotes.delimited {path : JsonPath} {b : List Char} {es : List (StreamEvent V)}
    (h : Denotes D keys (.behind path) b es) (rest : List Char) : Delimited (b ++ rest) := by
  cases h with
  | last hws =>
      rw [List.append_assoc]
      exact delimited_at hws (.inr (.inr (.inl rfl))) _
  | next hws _ _ =>
      rw [List.append_assoc]
      exact delimited_at hws (.inl rfl) _

theorem Denotes.member_head {path : JsonPath} {m : List Char} {es : List (StreamEvent V)}
    (h : Denotes D keys (.member path) m es) : ∃ more, m = '"' :: more := by
  cases h
  exact ⟨_, rfl⟩

theorem Denotes.object_head {path : JsonPath} {o : List Char} {es : List (StreamEvent V)}
    (h : Denotes D keys (.object path) o es) : ∃ more, o = '\x7b' :: more := by
  cases h with
  | emptyObject _ => exact ⟨_, rfl⟩
  | object _ _ => exact ⟨_, rfl⟩

theorem Denotes.items_head {path name : JsonPath} {i : List Char} {es : List (StreamEvent V)}
    (h : Denotes D keys (.items path name) i es) :
    ∃ c more, i = c :: more ∧ isSpace c = false ∧ c ≠ ']' := by
  cases h with
  | lastItem hvalue _ _ =>
      obtain ⟨c, more, rfl, hc, hne⟩ := hvalue.head
      exact ⟨c, _, rfl, hc, hne⟩
  | nextItem hvalue _ _ _ =>
      obtain ⟨c, more, rfl, hc, hne⟩ := hvalue.head
      exact ⟨c, _, rfl, hc, hne⟩

/-! ### Running over a text -/

variable (D keys) in
/-- After some turns the events have come and the rest is as from `tasks'` on. -/
def Yields (tasks : List StreamTask) (s : List Char) (es : List (StreamEvent V))
    (tasks' : List StreamTask) (s' : List Char) : Prop :=
  ∃ turns, ∀ more, run D.asKey keys (textCursor D) (turns + more) tasks s =
    (es ++ (run D.asKey keys (textCursor D) more tasks' s').1,
      (run D.asKey keys (textCursor D) more tasks' s').2)

theorem Yields.refl (tasks : List StreamTask) (s : List Char) : Yields D keys tasks s [] tasks s :=
  ⟨0, fun more => by rw [Nat.zero_add, List.nil_append]⟩

theorem Yields.turn {task : StreamTask} {tasks tasks' tasks'' : List StreamTask}
    {s s' s'' : List Char} (es : List (StreamEvent V)) {es' : List (StreamEvent V)}
    (h : turn D.asKey keys (textCursor D) task tasks s = .next es tasks' s')
    (hrest : Yields D keys tasks' s' es' tasks'' s'') :
    Yields D keys (task :: tasks) s (es ++ es') tasks'' s'' := by
  obtain ⟨turns, hrun⟩ := hrest
  refine ⟨turns + 1, fun more => ?_⟩
  rw [Nat.add_right_comm, run, h]
  dsimp only
  rw [hrun, List.append_assoc]

theorem Yields.trans {tasks tasks' tasks'' : List StreamTask} {s s' s'' : List Char}
    {es es' : List (StreamEvent V)} (h : Yields D keys tasks s es tasks' s')
    (h' : Yields D keys tasks' s' es' tasks'' s'') :
    Yields D keys tasks s (es ++ es') tasks'' s'' := by
  obtain ⟨turns, hrun⟩ := h
  obtain ⟨turns', hrun'⟩ := h'
  refine ⟨turns + turns', fun more => ?_⟩
  rw [Nat.add_assoc, hrun, hrun', List.append_assoc]

section Turns

variable {ws ws' : List Char} (hws : Spaces ws) (events : List (StreamEvent V))

include hws

theorem takeThen_at {c : Char} (hc : isSpace c = false) (tasks : List StreamTask)
    (s : List Char) :
    takeThen (textCursor D) c events tasks (ws ++ c :: s) = .next events tasks s := by
  have htake : (textCursor D).take c (ws ++ c :: s) = some s := takeText_at hws hc s
  unfold takeThen
  rw [htake]

theorem commaOr_comma (close : Char) (again after : List StreamTask) (s : List Char) :
    commaOr (textCursor D) close events again after (ws ++ ',' :: s) = .next events again s := by
  have hpeek : (textCursor D).peek (ws ++ ',' :: s) = (some ',', ',' :: s) :=
    peekText_at hws (by decide) s
  unfold commaOr
  rw [hpeek]
  exact takeThen_at (D := D) spaces_nil events (c := ',') (by decide) again s

theorem commaOr_close {close : Char} (hclose : isSpace close = false) (hne : close ≠ ',')
    (again after : List StreamTask) (s : List Char) :
    commaOr (textCursor D) close events again after (ws ++ close :: s) = .next events after s := by
  have hpeek : (textCursor D).peek (ws ++ close :: s) = (some close, close :: s) :=
    peekText_at hws hclose s
  unfold commaOr
  rw [hpeek]
  dsimp only
  rw [if_neg fun heq => hne (Option.some.inj heq)]
  exact takeThen_at spaces_nil events hclose after s

theorem openBody_empty (hws' : Spaces ws') {first close : Char} (hfirst : isSpace first = false)
    (hclose : isSpace close = false) (body after : List StreamTask) (s : List Char) :
    openBody (textCursor D) first close body after (ws ++ first :: (ws' ++ close :: s)) =
      .next [] after s := by
  have htake : (textCursor D).take first (ws ++ first :: (ws' ++ close :: s)) =
      some (ws' ++ close :: s) := takeText_at hws hfirst _
  have hpeek : (textCursor D).peek (ws' ++ close :: s) = (some close, close :: s) :=
    peekText_at hws' hclose s
  unfold openBody
  simp only [htake, hpeek, if_true]
  exact takeThen_at spaces_nil [] hclose after s

theorem openBody_body (hws' : Spaces ws') {first close c : Char} (hfirst : isSpace first = false)
    (hc : isSpace c = false) (hne : c ≠ close) (body after : List StreamTask) (s : List Char) :
    openBody (textCursor D) first close body after (ws ++ first :: (ws' ++ c :: s)) =
      .next [] body (c :: s) := by
  have htake : (textCursor D).take first (ws ++ first :: (ws' ++ c :: s)) =
      some (ws' ++ c :: s) := takeText_at hws hfirst _
  have hpeek : (textCursor D).peek (ws' ++ c :: s) = (some c, c :: s) := peekText_at hws' hc s
  unfold openBody
  simp only [htake, hpeek]
  rw [if_neg fun heq => hne (Option.some.inj heq)]

theorem nestedOr_object {path name : JsonPath} (hname : namesBelow keys name = true)
    (tasks : List StreamTask) (s : List Char) :
    nestedOr keys (textCursor D) path name tasks (ws ++ '\x7b' :: s) =
      .next [] (.object (name ++ ['.']) :: .behind path :: tasks) ('\x7b' :: s) := by
  have hpeek : (textCursor D).peek (ws ++ '\x7b' :: s) = (some '\x7b', '\x7b' :: s) :=
    peekText_at hws (by decide) s
  unfold nestedOr
  rw [if_pos hname, hpeek]
  rfl

variable (D keys) in
/-- A value that is taken whole; its spaces may be skipped already. -/
theorem nestedOr_scalar (path : JsonPath) {name : JsonPath} {c : Char} (hc : isSpace c = false)
    (hname : namesBelow keys name = true → c ≠ '\x7b') (tasks : List StreamTask) (s : List Char) :
    ∃ ws', Spaces ws' ∧ nestedOr keys (textCursor D) path name tasks (ws ++ c :: s) =
      .next [] (.scalar path name :: tasks) (ws' ++ c :: s) := by
  have hpeek : (textCursor D).peek (ws ++ c :: s) = (some c, c :: s) := peekText_at hws hc s
  unfold nestedOr
  by_cases hbelow : namesBelow keys name = true
  · refine ⟨[], spaces_nil, ?_⟩
    rw [if_pos hbelow, hpeek]
    dsimp only
    rw [if_neg fun heq => hname hbelow (Option.some.inj heq)]
    rfl
  · exact ⟨ws, hws, if_neg hbelow⟩

variable (D keys) in
/-- A member's value that is no named array. -/
theorem turn_content (path : JsonPath) {name : JsonPath} {c : Char} (hc : isSpace c = false)
    (hname : name ∈ keys → c ≠ '[') (tasks : List StreamTask) (s : List Char) :
    ∃ ws', Spaces ws' ∧ turn D.asKey keys (textCursor D) (.content path name) tasks (ws ++ c :: s) =
      nestedOr keys (textCursor D) path name tasks (ws' ++ c :: s) := by
  have hpeek : (textCursor D).peek (ws ++ c :: s) = (some c, c :: s) := peekText_at hws hc s
  unfold turn
  by_cases hlisted : name ∈ keys
  · refine ⟨[], spaces_nil, ?_⟩
    simp only [if_pos hlisted, hpeek]
    rw [if_neg fun heq => hname hlisted (Option.some.inj heq)]
    rfl
  · exact ⟨ws, hws, if_neg hlisted⟩

/-- A named array. -/
theorem turn_array {path name : JsonPath} (hname : name ∈ keys) (tasks : List StreamTask)
    (s : List Char) :
    turn D.asKey keys (textCursor D) (.content path name) tasks (ws ++ '[' :: s) =
      openBody (textCursor D) '[' ']' (.items path name :: tasks) (.behind path :: tasks)
        ('[' :: s) := by
  have hpeek : (textCursor D).peek (ws ++ '[' :: s) = (some '[', '[' :: s) :=
    peekText_at hws (by decide) s
  unfold turn
  simp only [if_pos hname, hpeek, if_true]

theorem withValue_at {t rest : List Char} {obj : V} (hvalue : IsValue D t obj)
    (hrest : Delimited rest) (go : V → List Char → Turn (List Char) V) :
    withValue (textCursor D) (ws ++ (t ++ rest)) go = go obj rest :=
  withValue_some (valueText_at hws hvalue hrest) go

end Turns

/-- The reader yields what a text denotes and goes on behind it. -/
theorem Denotes.yields {task : StreamTask} {t : List Char} {es : List (StreamEvent V)}
    (h : Denotes D keys task t es) {ws : List Char} (hws : Spaces ws) (rest : List Char)
    (tasks : List StreamTask) :
    Yields D keys (task :: tasks) (ws ++ (t ++ rest)) es tasks rest := by
  induction h generalizing ws rest tasks with
  | emptyObject hws' =>
      refine Yields.turn [] ?_ (.refl tasks rest)
      simp only [List.cons_append, List.append_assoc, List.nil_append]
      exact openBody_empty hws hws' (by decide) (by decide) _ _ _
  | @object path ws' m es hws' hmember ih =>
      obtain ⟨more, rfl⟩ := hmember.member_head
      refine Yields.turn [] ?_ (ih spaces_nil rest tasks)
      simp only [List.cons_append, List.append_assoc, List.nil_append]
      exact openBody_body hws hws' (by decide) (by decide) (by decide) _ _ _
  | @member path t obj key ws₁ ws₂ content es hvalue hkey hws₁ hws₂ hcontent ih =>
      refine Yields.turn [] ?_ (ih hws₂ rest tasks)
      rw [List.append_assoc]
      refine (withValue_at hws hvalue ?_ _).trans ?_
      · rw [List.append_assoc]
        exact delimited_at hws₁ (.inr (.inr (.inr rfl))) _
      · rw [hkey]
        simp only [List.cons_append, List.append_assoc]
        exact takeThen_at hws₁ [] (by decide) _ _
  | @emptyArray path name ws' b es hname hws' hbehind ih =>
      refine Yields.turn [] ?_ (ih spaces_nil rest tasks)
      simp only [List.cons_append, List.append_assoc, List.nil_append]
      rw [turn_array hws hname]
      exact openBody_empty spaces_nil hws' (by decide) (by decide) _ _ _
  | @array path name ws' i es hname hws' hitems ih =>
      obtain ⟨c, more, rfl, hc, hne⟩ := hitems.items_head
      refine Yields.turn [] ?_ (ih spaces_nil rest tasks)
      simp only [List.cons_append, List.append_assoc, List.nil_append]
      rw [turn_array hws hname]
      exact openBody_body spaces_nil hws' (by decide) hc hne _ _ _
  | @nested path name o b es es' hname hobject hbehind ih ih' =>
      obtain ⟨more, rfl⟩ := hobject.object_head
      have hrest := (ih spaces_nil (b ++ rest) (.behind path :: tasks)).trans
        (ih' spaces_nil rest tasks)
      refine Yields.turn [] ?_ hrest
      simp only [List.cons_append, List.append_assoc, List.nil_append]
      have hbrace : name ∈ keys → '\x7b' ≠ '[' := fun _ => by decide
      obtain ⟨ws', hws', hturn⟩ :=
        turn_content D keys hws path (by decide) hbrace tasks (more ++ (b ++ rest))
      rw [hturn]
      exact nestedOr_object hws' hname tasks _
  | @scalar path name c t obj b es hvalue harray hnested hbehind ih =>
      obtain ⟨d, more, heq, hd, -⟩ := hvalue.head
      obtain ⟨rfl, rfl⟩ := List.cons.inj heq
      obtain ⟨ws₁, hws₁, hturn⟩ :=
        turn_content D keys hws path hd harray tasks (t ++ (b ++ rest))
      obtain ⟨ws₂, hws₂, hwhole⟩ :=
        nestedOr_scalar D keys hws₁ path hd hnested tasks (t ++ (b ++ rest))
      have hvalue : Yields D keys (.scalar path name :: tasks) (ws₂ ++ (c :: t ++ (b ++ rest)))
          ([.scalar name obj] ++ es) tasks rest :=
        Yields.turn [.scalar name obj] (withValue_at hws₂ hvalue (hbehind.delimited rest) _)
          (ih spaces_nil rest tasks)
      refine Yields.turn [] ?_ hvalue
      simp only [List.cons_append, List.append_assoc]
      rw [hturn, hwhole]
  | @lastItem path name t obj ws' b es hvalue hws' hbehind ih =>
      refine Yields.turn [.item name obj] ?_ (ih spaces_nil rest tasks)
      rw [List.append_assoc]
      refine (withValue_at hws hvalue ?_ _).trans ?_
      · rw [List.append_assoc]
        exact delimited_at hws' (.inr (.inl rfl)) _
      · simp only [List.cons_append, List.append_assoc]
        exact commaOr_close hws' _ (by decide) (by decide) _ _ _
  | @nextItem path name t obj ws₁ ws₂ i es hvalue hws₁ hws₂ hitems ih =>
      refine Yields.turn [.item name obj] ?_ (ih hws₂ rest tasks)
      rw [List.append_assoc]
      refine (withValue_at hws hvalue ?_ _).trans ?_
      · rw [List.append_assoc]
        exact delimited_at hws₁ (.inl rfl) _
      · simp only [List.cons_append, List.append_assoc]
        exact commaOr_comma hws₁ _ _ _ _ _
  | @last path ws' hws' =>
      refine Yields.turn [] ?_ (.refl tasks rest)
      rw [List.append_assoc, ← List.append_assoc]
      exact commaOr_close (hws.append hws') [] (by decide) (by decide) _ _ _
  | @next path ws₁ ws₂ m es hws₁ hws₂ hmember ih =>
      refine Yields.turn [] ?_ (ih hws₂ rest tasks)
      rw [List.append_assoc, ← List.append_assoc]
      simp only [List.cons_append, List.append_assoc]
      rw [← List.append_assoc]
      exact commaOr_comma (hws.append hws₁) [] _ _ _ _

/-! ### The size of the chunks -/

/-- A reader that has raised an error yields nothing more. -/
theorem run_raised {σ : Type} {asKey : V → Option (List Char)} {c : Cursor σ V} {turns : Nat}
    {tasks : List StreamTask} {s : σ} (h : (run asKey keys c turns tasks s).2 = .raised)
    (more : Nat) : (run asKey keys c (turns + more) tasks s).2 = .raised := by
  induction turns generalizing tasks s with
  | zero => cases tasks <;> cases h
  | succ turns ih =>
      cases tasks with
      | nil => cases h
      | cons task tasks =>
          rw [Nat.add_right_comm]
          unfold run at h ⊢
          cases hturn : turn asKey keys c task tasks s with
          | raised events => rfl
          | next events tasks' s' =>
              rw [hturn] at h
              exact ih h

theorem run_done {σ : Type} {asKey : V → Option (List Char)} {c : Cursor σ V} (turns : Nat)
    (s : σ) : run asKey keys c turns [] s = ([], .done) := by
  cases turns <;> rfl

/-- An object text is read to its end. -/
theorem streamText_denotes {ws o : List Char} {es : List (StreamEvent V)} (hws : Spaces ws)
    (h : Denotes D keys (.object []) o es) (rest : List Char) :
    ∃ enough, ∀ turns, enough ≤ turns →
      streamText D keys turns (ws ++ (o ++ rest)) = (es, .done) := by
  obtain ⟨enough, hrun⟩ := h.yields hws rest []
  refine ⟨enough, fun turns hturns => ?_⟩
  obtain ⟨more, rfl⟩ := Nat.exists_eq_add_of_le hturns
  refine (hrun more).trans ?_
  rw [run_done, List.append_nil]

variable (keys) in
/-- Whatever the text, the chunks do not matter if no value can be cut; and the
members of an object text come in order for all sizes of the chunks if and only if
none can. -/
theorem streamManifest_exact (hD : D.Lawful) (text : List Char) :
    (Uncut D keys text → ∀ chunk turns, 0 < chunk →
      streamManifest D keys chunk turns text =
        streamManifest D keys (text.length + 1) turns text) ∧
    ∀ ws o rest es, text = ws ++ (o ++ rest) → Spaces ws → Denotes D keys (.object []) o es →
      ∃ enough,
        (∀ turns, enough ≤ turns →
          streamManifest D keys (text.length + 1) turns text = (es, .done)) ∧
        ((∀ chunk turns, 0 < chunk → enough ≤ turns →
          streamManifest D keys chunk turns text = (es, .done)) ↔ Uncut D keys text) := by
  have hwhole (turns : Nat) := streamManifest_whole D keys text (Nat.lt_succ_self _) turns
  refine ⟨fun huncut chunk turns hchunk => ?_, ?_⟩
  · rw [hwhole]
    exact streamManifest_uncut keys hD huncut hchunk turns
  · rintro ws o rest es rfl hws hdenotes
    obtain ⟨enough, htext⟩ := streamText_denotes hws hdenotes rest
    refine ⟨enough, fun turns hturns => (hwhole turns).trans (htext turns hturns), ?_, ?_⟩
    · intro hall
      by_contra hcut
      obtain ⟨chunk, turns, hchunk, hraised⟩ := exists_raising_chunk hD hcut
      have hdone := hall chunk (turns + enough) hchunk (Nat.le_add_left _ _)
      have hlater : (streamManifest D keys chunk (turns + enough) _).2 = .raised :=
        run_raised hraised enough
      rw [hdone] at hlater
      cases hlater
    · intro huncut chunk turns hchunk hturns
      exact (streamManifest_uncut keys hD huncut hchunk turns).trans (htext turns hturns)

/-! ### A text of strings -/

/-- What stands between quotes, for texts without escapes. -/
def decodeQuoted : List Char → Option (List Char × Nat)
  | '"' :: s =>
      let body := s.takeWhile (· ≠ '"')
      if body.length < s.length then some (body, body.length + 2) else none
  | _ => none

def quotedDecoder : JsonDecoder (List Char) where
  rawDecode := decodeQuoted
  asKey := some
  within := fun {s v n} h => by
    unfold decodeQuoted at h
    split at h
    · dsimp only at h
      split at h
      · next hinside =>
          obtain ⟨-, rfl⟩ := Prod.mk.inj (Option.some.inj h)
          rw [List.length_cons]
          omega
      · cases h
    · cases h

theorem takeWhile_take {p : Char → Bool} {l : List Char} {n : Nat}
    (h : (l.takeWhile p).length < n) : (l.take n).takeWhile p = l.takeWhile p := by
  induction l generalizing n with
  | nil => rw [List.take_nil]
  | cons c l ih =>
      cases n with
      | zero => exact absurd h (Nat.not_lt_zero _)
      | succ n =>
          rw [List.take_succ_cons]
          by_cases hc : p c = true
          · rw [List.takeWhile_cons_of_pos hc] at h ⊢
            rw [List.takeWhile_cons_of_pos hc, ih (Nat.lt_of_succ_lt_succ h)]
          · rw [List.takeWhile_cons_of_neg hc, List.takeWhile_cons_of_neg hc]

theorem takeWhile_of_take {p : Char → Bool} {l : List Char} {n : Nat}
    (h : ((l.take n).takeWhile p).length < (l.take n).length) :
    l.takeWhile p = (l.take n).takeWhile p := by
  induction l generalizing n with
  | nil => rw [List.take_nil]
  | cons c l ih =>
      cases n with
      | zero => exact absurd h (Nat.not_lt_zero _)
      | succ n =>
          rw [List.take_succ_cons] at h ⊢
          by_cases hc : p c = true
          · rw [List.takeWhile_cons_of_pos hc] at h ⊢
            rw [List.takeWhile_cons_of_pos hc, ih (Nat.lt_of_succ_lt_succ h)]
          · rw [List.takeWhile_cons_of_neg hc, List.takeWhile_cons_of_neg hc]

theorem decodeQuoted_eq_some {s : List Char} {v : List Char} {n : Nat} :
    decodeQuoted s = some (v, n) ↔ ∃ t, s = '"' :: t ∧ v = t.takeWhile (· ≠ '"') ∧
      v.length < t.length ∧ n = v.length + 2 := by
  constructor
  · intro h
    unfold decodeQuoted at h
    split at h
    · next t =>
        dsimp only at h
        split at h
        · next hinside =>
            obtain ⟨rfl, rfl⟩ := Prod.mk.inj (Option.some.inj h)
            exact ⟨t, rfl, rfl, hinside, rfl⟩
        · cases h
    · cases h
  · rintro ⟨t, rfl, rfl, hinside, rfl⟩
    exact if_pos hinside

/-- A string is never cut. -/
theorem not_cutAt_quoted {s : List Char} {n : Nat} {obj : List Char} {taken : Nat} :
    ¬ CutAt quotedDecoder s n obj taken := by
  rintro ⟨hsize, hshort, hdecoded, hother⟩
  obtain ⟨t, ht, rfl, hinside, rfl⟩ := decodeQuoted_eq_some.mp hdecoded
  cases s with
  | nil =>
      rw [List.take_nil] at ht
      cases ht
  | cons c s =>
      cases n with
      | zero => cases ht
      | succ n =>
          rw [List.take_succ_cons] at ht
          obtain ⟨rfl, rfl⟩ := List.cons.inj ht
          have hsame := takeWhile_of_take hinside
          have hlength : (s.take n).length ≤ s.length := List.length_take_le' _ _
          exact hother (decodeQuoted_eq_some.mpr ⟨s, rfl, hsame.symm, by omega, rfl⟩)

theorem quotedDecoder_lawful : quotedDecoder.Lawful where
  extend := fun {s n obj taken} hdecoded hshort hsize => by
    obtain ⟨t, rfl, rfl, hinside, rfl⟩ := decodeQuoted_eq_some.mp hdecoded
    cases n with
    | zero => exact absurd hshort (Nat.not_lt_zero _)
    | succ n =>
        have hsame : (t.take n).takeWhile (· ≠ '"') = t.takeWhile (· ≠ '"') :=
          takeWhile_take (by omega)
        refine decodeQuoted_eq_some.mpr ⟨t.take n, rfl, hsame.symm, ?_, rfl⟩
        rw [List.length_cons] at hsize
        rw [List.length_take]
        omega
  number := fun hcut => absurd hcut not_cutAt_quoted

/-- The object with one member, read three characters at a time. -/
theorem quotedManifest_streamed :
    streamManifest quotedDecoder [] 3 4 ['\x7b', '"', 'a', '"', ':', '"', 'b', '"', '\x7d'] =
      streamManifest quotedDecoder [] 10 4 ['\x7b', '"', 'a', '"', ':', '"', 'b', '"', '\x7d'] :=
  (streamManifest_exact [] quotedDecoder_lawful
    ['\x7b', '"', 'a', '"', ':', '"', 'b', '"', '\x7d']).1
    (fun task tasks rest _ => by
      cases task with
      | scalar path name => exact fun _ _ _ => not_cutAt_quoted
      | items path name => exact fun _ _ _ => not_cutAt_quoted
      | object path => trivial
      | member path => trivial
      | content path name => trivial
      | behind path => trivial) 3 4 (by decide)

/-! ### A text with a fraction -/

inductive PlainValue where
  | str (s : List Char)
  | int (digits : List Char)
  | float (digits fraction : List Char)
deriving DecidableEq

def PlainValue.asKey : PlainValue → Option (List Char)
  | str s => some s
  | _ => none

/-- Strings without escapes, and numbers without sign and exponent. -/
def decodePlain (s : List Char) : Option (PlainValue × Nat) :=
  match decodeQuoted s with
  | some (body, n) => some (.str body, n)
  | none =>
      let digits := s.takeWhile Char.isDigit
      let fraction := (s.drop (digits.length + 1)).takeWhile Char.isDigit
      if digits = [] then none
      else if s[digits.length]? = some '.' ∧ fraction ≠ [] then
        some (.float digits fraction, digits.length + 1 + fraction.length)
      else some (.int digits, digits.length)

def plainDecoder : JsonDecoder PlainValue where
  rawDecode := decodePlain
  asKey := PlainValue.asKey
  within := fun {s v n} h => by
    have hdigits : (s.takeWhile Char.isDigit).length ≤ s.length :=
      (List.takeWhile_prefix _).length_le
    unfold decodePlain at h
    split at h
    · next hquoted =>
        obtain ⟨-, rfl⟩ := Prod.mk.inj (Option.some.inj h)
        exact quotedDecoder.within hquoted
    · dsimp only at h
      split at h
      · cases h
      · split at h
        · next hfraction =>
            have hprefix := (List.takeWhile_prefix Char.isDigit
              (l := s.drop ((s.takeWhile Char.isDigit).length + 1))).length_le
            have hpoint := (List.getElem?_eq_some_iff.mp hfraction.1).1
            rw [List.length_drop] at hprefix
            obtain ⟨-, rfl⟩ := Prod.mk.inj (Option.some.inj h)
            omega
        · obtain ⟨-, rfl⟩ := Prod.mk.inj (Option.some.inj h)
          exact hdigits

/-- The object text with the member `a` of the value 1.5. -/
def fractionText : List Char := ['\x7b', '"', 'a', '"', ':', '1', '.', '5', '\x7d']

theorem fractionText_cut :
    ¬ ∀ chunk turns, 0 < chunk →
      streamManifest plainDecoder [] chunk turns fractionText =
        streamManifest plainDecoder [] (fractionText.length + 1) turns fractionText := by
  intro h
  have hstatus := congrArg Prod.snd (h 7 5 (by decide))
  -- a first read of seven characters ends behind the point
  exact absurd hstatus (by decide)

end NdsRecomp.CoverageManifest
