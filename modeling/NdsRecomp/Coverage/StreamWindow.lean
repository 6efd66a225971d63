import Mathlib.Tactic

/-!
The window of the streaming manifest reader: a buffer over a text that is read in
chunks, which double while a value does not fit. The decoder of a value is given
as a function of the buffer from the position on, with the length of what it took.
-/

namespace NdsRecomp.CoverageManifest

/-- `json.JSONDecoder.raw_decode`; `none` is a `ValueError`. -/
structure JsonDecoder (V : Type) where
  rawDecode : List Char → Option (V × Nat)
  /-- The characters of a `str`. -/
  asKey : V → Option (List Char)
  within : ∀ {s v n}, rawDecode s = some (v, n) → n ≤ s.length

def isSpace (c : Char) : Bool := c = ' ' || c = '\t' || c = '\r' || c = '\n'

structure Window where
  handle : List Char
  base : Nat
  chunk : Nat
  buf : List Char
  pos : Nat
  eof : Bool

namespace Window

/-- A window over a text, before the first read. -/
def init (text : List Char) (chunk : Nat) : Window := ⟨text, chunk, chunk, [], 0, false⟩

def pull (w : Window) : Bool × Window :=
  if w.eof then (false, w)
  else if w.handle.take w.chunk = [] then (false, { w with eof := true })
  else
    (true, { w with
      handle := w.handle.drop w.chunk
      buf := w.buf.drop w.pos ++ w.handle.take w.chunk
      pos := 0
      chunk := min (w.chunk * 2) (2 ^ 28) })

def settle (w : Window) : Window := { w with chunk := w.base }

/-- The inner loop of `skip_space`. -/
def skipBuffered (w : Window) : Window :=
  { w with pos := w.pos + ((w.buf.drop w.pos).takeWhile isSpace).length }

def skipLoop : Nat → Window → Window
  | 0, w => w
  | reads + 1, w =>
      let w := w.skipBuffered
      if w.pos < w.buf.length then w
      else
        match w.pull with
        | (true, w) => skipLoop reads w
        | (false, w) => w

/-- Every read brings a character. -/
def skipSpace (w : Window) : Window := skipLoop (w.handle.length + 1) w

def peek (w : Window) : Option Char × Window :=
  let w := w.skipSpace
  (w.buf[w.pos]?, w)

def take (expected : Char) (w : Window) : Option Window :=
  let (got, w) := w.peek
  if got = some expected then some { w with pos := w.pos + 1 } else none

variable {V : Type} (D : JsonDecoder V)

def valueLoop : Nat → Window → Option (V × Window)
  | 0, _ => none
  | reads + 1, w =>
      match D.rawDecode (w.buf.drop w.pos) with
      | none =>
          match w.pull with
          | (true, w) => valueLoop reads w
          | (false, _) => none
      | some (obj, taken) =>
          if w.pos + taken < w.buf.length ∨ w.eof then
            some (obj, settle { w with pos := w.pos + taken })
          else
            match w.pull with
            | (true, w) => valueLoop reads w
            | (false, v) => some (obj, settle { v with pos := w.pos + taken })

def value (w : Window) : Option (V × Window) :=
  let w := w.skipSpace
  valueLoop D (w.handle.length + 1) w

/-! ### The text that is left -/

/-- What is buffered, from the position on. -/
def ahead (w : Window) : List Char := w.buf.drop w.pos

def remaining (w : Window) : List Char := w.ahead ++ w.handle

structure Sound (w : Window) : Prop where
  base : 0 < w.base
  chunk : 0 < w.chunk
  eof : w.eof = true → w.handle = []

theorem sound_init (text : List Char) {chunk : Nat} (h : 0 < chunk) : (init text chunk).Sound :=
  ⟨h, h, fun heof => Bool.noConfusion heof⟩

/-- A read that brings nothing is at the end; another one moves characters from the
file to the buffer. -/
theorem pull_cases {w : Window} (h : w.Sound) :
    (w.handle = [] ∧ ∃ v, w.pull = (false, v) ∧ v = { w with eof := true }) ∨
    (w.handle ≠ [] ∧ ∃ v, w.pull = (true, v) ∧ v.Sound ∧ v.remaining = w.remaining ∧
      v.handle.length < w.handle.length ∧ v.ahead = w.ahead ++ w.handle.take w.chunk ∧
      v.handle = w.handle.drop w.chunk) := by
  unfold pull
  by_cases heof : w.eof = true
  · refine .inl ⟨h.eof heof, w, if_pos heof, ?_⟩
    rw [← heof]
  · rw [if_neg heof]
    by_cases hnil : w.handle = []
    · refine .inl ⟨hnil, _, if_pos (by rw [hnil, List.take_nil]), rfl⟩
    · have hchunk := h.chunk
      have hlength : 0 < w.handle.length := List.length_pos_of_ne_nil hnil
      have htake : w.handle.take w.chunk ≠ [] := by
        intro hempty
        have hzero := congrArg List.length hempty
        rw [List.length_take, List.length_nil] at hzero
        omega
      refine .inr ⟨hnil, _, if_neg htake, ⟨h.base, ?_, fun hend => absurd hend heof⟩, ?_, ?_,
        rfl, rfl⟩
      · change 0 < min (w.chunk * 2) (2 ^ 28)
        omega
      · unfold remaining ahead
        dsimp only
        rw [List.drop_zero, List.append_assoc, List.take_append_drop]
      · dsimp only
        rw [List.length_drop]
        omega

theorem drop_takeWhile_length {p : Char → Bool} (l : List Char) :
    l.drop (l.takeWhile p).length = l.dropWhile p := by
  induction l with
  | nil => rfl
  | cons c l ih =>
      by_cases hc : p c = true
      · rw [List.takeWhile_cons_of_pos hc, List.dropWhile_cons_of_pos hc]
        exact ih
      · rw [List.takeWhile_cons_of_neg hc, List.dropWhile_cons_of_neg hc]
        rfl

theorem ahead_skipBuffered (w : Window) : w.skipBuffered.ahead = w.ahead.dropWhile isSpace := by
  unfold skipBuffered ahead
  dsimp only
  rw [← List.drop_drop, drop_takeWhile_length]

theorem ahead_ne_nil_iff {w : Window} : w.ahead ≠ [] ↔ w.pos < w.buf.length := by
  unfold ahead
  rw [Ne, List.drop_eq_nil_iff, Nat.not_le]

theorem dropWhile_append_of_ne_nil {p : Char → Bool} {l l' : List Char}
    (h : l.dropWhile p ≠ []) : (l ++ l').dropWhile p = l.dropWhile p ++ l' := by
  rw [List.dropWhile_append, if_neg]
  rwa [List.isEmpty_iff]

theorem dropWhile_append_of_nil {p : Char → Bool} {l l' : List Char}
    (h : l.dropWhile p = []) : (l ++ l').dropWhile p = l'.dropWhile p := by
  rw [List.dropWhile_append, if_pos]
  rwa [List.isEmpty_iff]

/-- The spaces are gone, and a character is buffered unless the text is at its end. -/
theorem skipLoop_spec (reads : Nat) {w : Window} (h : w.Sound) (hreads : w.handle.length < reads) :
    (skipLoop reads w).Sound ∧
      (skipLoop reads w).remaining = w.remaining.dropWhile isSpace ∧
      ((skipLoop reads w).ahead = [] → (skipLoop reads w).handle = []) := by
  induction reads generalizing w with
  | zero => exact absurd hreads (Nat.not_lt_zero _)
  | succ reads ih =>
      have hskipped : w.skipBuffered.Sound := ⟨h.base, h.chunk, h.eof⟩
      have hahead := ahead_skipBuffered w
      unfold skipLoop
      dsimp only
      by_cases hfront : w.skipBuffered.pos < w.skipBuffered.buf.length
      · have hne : w.skipBuffered.ahead ≠ [] := ahead_ne_nil_iff.mpr hfront
        rw [if_pos hfront]
        refine ⟨hskipped, ?_, fun hnil => absurd hnil hne⟩
        rw [hahead] at hne
        unfold remaining
        rw [hahead, dropWhile_append_of_ne_nil hne]
        rfl
      · have hnil : w.skipBuffered.ahead = [] :=
          not_not.mp fun hne => hfront (ahead_ne_nil_iff.mp hne)
        have hrest :
            w.skipBuffered.remaining.dropWhile isSpace = w.remaining.dropWhile isSpace := by
          unfold remaining
          rw [hnil]
          rw [hahead] at hnil
          rw [dropWhile_append_of_nil hnil]
          rfl
        rw [if_neg hfront]
        rcases pull_cases hskipped with ⟨hend, v, hpull, hv⟩ |
              ⟨hmore, v, hpull, hsound, hremaining, hless, -, -⟩
        · rw [hpull]
          subst hv
          refine ⟨⟨h.base, h.chunk, fun _ => hend⟩, ?_, fun _ => hend⟩
          rw [← hrest]
          change w.skipBuffered.ahead ++ w.skipBuffered.handle = _
          unfold remaining
          rw [hnil, hend]
          rfl
        · rw [hpull]
          have hfewer : v.handle.length < reads := by
            have hsame : w.skipBuffered.handle.length = w.handle.length := rfl
            omega
          obtain ⟨hsound', hremaining', hend⟩ := ih hsound hfewer
          exact ⟨hsound', by rw [hremaining', hremaining, hrest], hend⟩

theorem skipSpace_spec {w : Window} (h : w.Sound) :
    w.skipSpace.Sound ∧ w.skipSpace.remaining = w.remaining.dropWhile isSpace ∧
      (w.skipSpace.ahead = [] → w.skipSpace.handle = []) :=
  skipLoop_spec _ h (Nat.lt_succ_self _)

/-! ### A reader of the whole text -/

def peekText (s : List Char) : Option Char × List Char :=
  ((s.dropWhile isSpace).head?, s.dropWhile isSpace)

def takeText (expected : Char) (s : List Char) : Option (List Char) :=
  match s.dropWhile isSpace with
  | [] => none
  | c :: rest => if c = expected then some rest else none

def valueText (s : List Char) : Option (V × List Char) :=
  (D.rawDecode (s.dropWhile isSpace)).map fun r => (r.1, (s.dropWhile isSpace).drop r.2)

theorem peek_spec {w : Window} (h : w.Sound) :
    w.peek.2.Sound ∧ w.peek.1 = (peekText w.remaining).1 ∧
      w.peek.2.remaining = (peekText w.remaining).2 := by
  obtain ⟨hsound, hremaining, hend⟩ := skipSpace_spec h
  refine ⟨hsound, ?_, hremaining⟩
  unfold peek peekText
  dsimp only
  rw [← hremaining]
  have hhead : w.skipSpace.buf[w.skipSpace.pos]? = w.skipSpace.ahead.head? := by
    unfold ahead
    rw [List.head?_drop]
  rw [hhead]
  unfold remaining
  cases hahead : w.skipSpace.ahead with
  | nil =>
      rw [hend hahead]
      rfl
  | cons c rest => rfl

theorem take_spec (expected : Char) {w : Window} (h : w.Sound) :
    (w.take expected = none ∧ takeText expected w.remaining = none) ∨
    ∃ v, w.take expected = some v ∧ v.Sound ∧ takeText expected w.remaining = some v.remaining := by
  obtain ⟨hsound, hremaining, hend⟩ := skipSpace_spec h
  obtain ⟨-, hgot, -⟩ := peek_spec h
  have htext : (peekText w.remaining).1 = (w.remaining.dropWhile isSpace).head? := rfl
  rw [htext] at hgot
  unfold take takeText
  cases hrest : w.remaining.dropWhile isSpace with
  | nil =>
      rw [hrest] at hgot
      refine .inl ⟨?_, rfl⟩
      dsimp only
      rw [if_neg (by rw [hgot]; exact fun heq => nomatch heq)]
  | cons c rest =>
      rw [hrest] at hgot
      dsimp only
      by_cases hc : c = expected
      · rw [if_pos hc, if_pos (by rw [hgot, hc]; rfl)]
        refine .inr ⟨_, rfl, ⟨hsound.base, hsound.chunk, hsound.eof⟩, ?_⟩
        have hne : w.skipSpace.ahead ≠ [] := by
          intro hnil
          rw [hrest] at hremaining
          unfold remaining at hremaining
          rw [hnil, hend hnil] at hremaining
          exact List.cons_ne_nil _ _ hremaining.symm
        obtain ⟨d, more, hahead⟩ := List.exists_cons_of_ne_nil hne
        have hmore : w.skipSpace.buf.drop (w.skipSpace.pos + 1) = more := by
          rw [← List.drop_drop]
          exact congrArg (List.drop 1) hahead
        rw [hrest] at hremaining
        unfold remaining at hremaining
        rw [hahead] at hremaining
        unfold remaining ahead
        change some rest = some (w.skipSpace.buf.drop (w.skipSpace.pos + 1) ++ w.skipSpace.handle)
        rw [hmore, ← (List.cons.inj hremaining).2]
        rfl
      · rw [if_neg hc, if_neg (by rw [hgot]; exact fun heq => hc (Option.some.inj heq))]
        exact .inl ⟨rfl, rfl⟩

/-- A window whose contents decode short of its end to something else than the text. -/
structure CutAt (s : List Char) (n : Nat) (obj : V) (taken : Nat) : Prop where
  size : n ≤ s.length
  short : taken < n
  decoded : D.rawDecode (s.take n) = some (obj, taken)
  other : D.rawDecode s ≠ some (obj, taken)

theorem valueLoop_spec (reads : Nat) {w : Window} (h : w.Sound) (hreads : w.handle.length < reads) :
    (valueLoop D reads w = none ∧ D.rawDecode w.remaining = none) ∨
    ∃ obj taken v, valueLoop D reads w = some (obj, v) ∧ v.Sound ∧
      v.remaining = w.remaining.drop taken ∧ v.handle.length ≤ w.handle.length ∧
      (D.rawDecode w.remaining = some (obj, taken) ∨
        ∃ n, w.handle ≠ [] ∧ CutAt D w.remaining n obj taken) := by
  induction reads generalizing w with
  | zero => exact absurd hreads (Nat.not_lt_zero _)
  | succ reads ih =>
      have hwhole (hnil : w.handle = []) : w.remaining = w.ahead := by
        unfold remaining
        rw [hnil, List.append_nil]
      have hsettled (obj : V) (taken : Nat) (hdecoded : D.rawDecode w.ahead = some (obj, taken))
          (eof : Bool) (heof : eof = true → w.handle = []) :
          let v := settle { w with pos := w.pos + taken, eof := eof }
          v.Sound ∧ v.remaining = w.remaining.drop taken := by
        refine ⟨⟨h.base, h.base, heof⟩, ?_⟩
        have hwithin : taken ≤ (w.buf.drop w.pos).length := D.within hdecoded
        change w.buf.drop (w.pos + taken) ++ w.handle = (w.buf.drop w.pos ++ w.handle).drop taken
        rw [List.drop_append_of_le_length hwithin, List.drop_drop]
      have hagain (hne : w.handle ≠ []) {v : Window} (hsound : v.Sound)
          (hremaining : v.remaining = w.remaining) (hless : v.handle.length < w.handle.length) :
          (valueLoop D reads v = none ∧ D.rawDecode w.remaining = none) ∨
          ∃ obj taken u, valueLoop D reads v = some (obj, u) ∧ u.Sound ∧
            u.remaining = w.remaining.drop taken ∧ u.handle.length ≤ w.handle.length ∧
            (D.rawDecode w.remaining = some (obj, taken) ∨
              ∃ n, w.handle ≠ [] ∧ CutAt D w.remaining n obj taken) := by
        rw [← hremaining]
        rcases ih hsound (by omega) with hnone | ⟨obj, taken, u, hu, husound, hurest, hfewer, hsame⟩
        · exact .inl hnone
        · refine .inr ⟨obj, taken, u, hu, husound, hurest, by omega, ?_⟩
          rcases hsame with hsame | ⟨n, -, hcut⟩
          · exact .inl hsame
          · exact .inr ⟨n, hne, hcut⟩
      unfold valueLoop
      cases hdecoded : D.rawDecode (w.buf.drop w.pos) with
      | none =>
          dsimp only
          rcases pull_cases h with ⟨hend, v, hpull, -⟩ |
            ⟨hmore, v, hpull, hsound, hremaining, hless, -, -⟩
          · rw [hpull]
            exact .inl ⟨rfl, by rw [hwhole hend]; exact hdecoded⟩
          · rw [hpull]
            exact hagain hmore hsound hremaining hless
      | some r =>
          obtain ⟨obj, taken⟩ := r
          dsimp only
          by_cases htrust : w.pos + taken < w.buf.length ∨ w.eof = true
          · obtain ⟨hsound, hrest⟩ := hsettled obj taken hdecoded w.eof h.eof
            rw [if_pos htrust]
            refine .inr ⟨obj, taken, _, rfl, hsound, hrest, le_refl _, ?_⟩
            by_cases hsame : D.rawDecode w.remaining = some (obj, taken)
            · exact .inl hsame
            · have hmore : w.handle ≠ [] := fun hnil => hsame (by rw [hwhole hnil]; exact hdecoded)
              have htake : w.remaining.take w.ahead.length = w.ahead := List.take_left
              have hlength : w.ahead.length = w.buf.length - w.pos := List.length_drop
              refine .inr ⟨w.ahead.length, hmore, ?_, ?_, by rw [htake]; exact hdecoded, hsame⟩
              · unfold remaining
                rw [List.length_append]
                exact Nat.le_add_right _ _
              · rcases htrust with hlt | heof
                · omega
                · exact absurd (h.eof heof) hmore
          · rw [if_neg htrust]
            rcases pull_cases h with ⟨hend, v, hpull, hv⟩ |
              ⟨hmore, v, hpull, hsound, hremaining, hless, -, -⟩
            · obtain ⟨hsound, hrest⟩ := hsettled obj taken hdecoded true fun _ => hend
              rw [hpull]
              subst hv
              exact .inr ⟨obj, taken, _, rfl, hsound, hrest, le_refl _,
                .inl (by rw [hwhole hend]; exact hdecoded)⟩
            · rw [hpull]
              exact hagain hmore hsound hremaining hless

/-- A value is the one of the text, or a window was cut short. -/
theorem value_spec {w : Window} (h : w.Sound) :
    let s := w.remaining.dropWhile isSpace
    (w.value D = none ∧ D.rawDecode s = none) ∨
    ∃ obj taken v, w.value D = some (obj, v) ∧ v.Sound ∧ v.remaining = s.drop taken ∧
      v.handle.length ≤ w.skipSpace.handle.length ∧
      (D.rawDecode s = some (obj, taken) ∨
        ∃ n, w.skipSpace.handle ≠ [] ∧ CutAt D s n obj taken) := by
  obtain ⟨hsound, hremaining, -⟩ := skipSpace_spec h
  have hloop := valueLoop_spec D _ hsound (Nat.lt_succ_self _)
  rw [hremaining] at hloop
  exact hloop

/-! ### A first read of a known length -/

/-- All reads but the first one leave `rest` in the file, or the first one will. -/
def Leaves (w : Window) (rest : List Char) : Prop :=
  w.handle = rest ∨ w.ahead = [] ∧ w.handle.drop w.chunk = rest

theorem skipLoop_leaves (reads : Nat) {w : Window} (h : w.Sound)
    (hreads : w.handle.length < reads) {rest : List Char} (hleaves : w.Leaves rest)
    (hinside : rest.length < (w.remaining.dropWhile isSpace).length) :
    (skipLoop reads w).handle = rest := by
  induction reads generalizing w with
  | zero => exact absurd hreads (Nat.not_lt_zero _)
  | succ reads ih =>
      have hskipped : w.skipBuffered.Sound := ⟨h.base, h.chunk, h.eof⟩
      have hahead := ahead_skipBuffered w
      unfold skipLoop
      dsimp only
      by_cases hfront : w.skipBuffered.pos < w.skipBuffered.buf.length
      · rw [if_pos hfront]
        rcases hleaves with hhandle | ⟨hempty, -⟩
        · exact hhandle
        · have hne := ahead_ne_nil_iff.mpr hfront
          rw [hahead, hempty] at hne
          exact (hne rfl).elim
      · have hnil : w.skipBuffered.ahead = [] :=
          not_not.mp fun hne => hfront (ahead_ne_nil_iff.mp hne)
        have hspaces : w.ahead.dropWhile isSpace = [] := hahead.symm.trans hnil
        have hrest : w.remaining.dropWhile isSpace = w.handle.dropWhile isSpace :=
          dropWhile_append_of_nil hspaces
        have hlength : (w.handle.dropWhile isSpace).length ≤ w.handle.length :=
          (List.dropWhile_suffix _).length_le
        rw [if_neg hfront]
        rw [hrest] at hinside
        rcases hleaves with hhandle | ⟨-, hdrop⟩
        · rw [hhandle] at hlength hinside
          omega
        · rcases pull_cases hskipped with ⟨hend, v, hpull, hv⟩ |
              ⟨hmore, v, hpull, hsound, hremaining, hless, hgrown, hleft⟩
          · have hend' : w.handle = [] := hend
            rw [hend'] at hinside
            exact absurd hinside (Nat.not_lt_zero _)
          · rw [hpull]
            have hsame : w.skipBuffered.handle.length = w.handle.length := rfl
            refine ih hsound (by omega) (.inl (hleft.trans hdrop)) ?_
            rw [hremaining]
            unfold remaining
            rw [hnil]
            exact hinside

theorem skipSpace_leaves {w : Window} (h : w.Sound) {rest : List Char} (hleaves : w.Leaves rest)
    (hinside : rest.length < (w.remaining.dropWhile isSpace).length) :
    w.skipSpace.handle = rest :=
  skipLoop_leaves _ h (Nat.lt_succ_self _) hleaves hinside

/-- What is buffered of the rest of the text. -/
theorem ahead_of_leaves {w : Window} (h : w.Sound) {rest : List Char} (hleaves : w.Leaves rest)
    (hinside : rest.length < (w.remaining.dropWhile isSpace).length) :
    let s := w.remaining.dropWhile isSpace
    w.skipSpace.ahead = s.take (s.length - rest.length) := by
  obtain ⟨-, hremaining, -⟩ := skipSpace_spec h
  have hhandle := skipSpace_leaves h hleaves hinside
  rw [← hremaining]
  unfold remaining
  dsimp only
  rw [hhandle, List.length_append, Nat.add_sub_cancel, List.take_left]

/-- A value that ends inside of what is buffered is trusted. -/
theorem value_inside {w : Window} (h : w.Sound) {obj : V} {taken : Nat}
    (hdecoded : D.rawDecode w.skipSpace.ahead = some (obj, taken))
    (hshort : taken < w.skipSpace.ahead.length) :
    ∃ v, w.value D = some (obj, v) ∧ v.Sound ∧ v.handle = w.skipSpace.handle ∧
      v.remaining = (w.remaining.dropWhile isSpace).drop taken := by
  obtain ⟨hsound, hremaining, -⟩ := skipSpace_spec h
  have hlength : w.skipSpace.ahead.length = w.skipSpace.buf.length - w.skipSpace.pos :=
    List.length_drop
  refine ⟨settle { w.skipSpace with pos := w.skipSpace.pos + taken }, ?_,
    ⟨hsound.base, hsound.base, hsound.eof⟩, rfl, ?_⟩
  · unfold value
    dsimp only
    unfold valueLoop
    unfold ahead at hdecoded
    rw [hdecoded]
    dsimp only
    rw [if_pos (.inl (by omega))]
  · rw [← hremaining]
    change w.skipSpace.buf.drop (w.skipSpace.pos + taken) ++ w.skipSpace.handle =
      (w.skipSpace.buf.drop w.skipSpace.pos ++ w.skipSpace.handle).drop taken
    have hwithin : taken ≤ (w.skipSpace.buf.drop w.skipSpace.pos).length := hshort.le
    rw [List.drop_append_of_le_length hwithin, List.drop_drop]

end Window

end NdsRecomp.CoverageManifest
