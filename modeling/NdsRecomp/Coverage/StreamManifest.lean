import NdsRecomp.Coverage.StreamWindow
import Mathlib.Logic.Relation

/-!
`stream_manifest` as a generator: a stack of what is still to be read, and one
turn at a time. It runs over a window or over the text itself.
-/

namespace NdsRecomp.CoverageManifest

open Window

abbrev JsonPath := List Char

inductive StreamEvent (V : Type) where
  | scalar (path : JsonPath) (value : V)
  | item (path : JsonPath) (element : V)

/-- What the generator has before it: an object, a member, the value of a member,
one that is taken whole, the elements of an array, what follows a member. -/
inductive StreamTask where
  | object (path : JsonPath)
  | member (path : JsonPath)
  | content (path name : JsonPath)
  | scalar (path name : JsonPath)
  | items (path name : JsonPath)
  | behind (path : JsonPath)
deriving DecidableEq

/-- Whether the next turn decodes a value. -/
def StreamTask.decodes : StreamTask → Bool
  | .member _ => true
  | .scalar _ _ => true
  | .items _ _ => true
  | _ => false

/-- The operations of a window, over any state. -/
structure Cursor (σ V : Type) where
  peek : σ → Option Char × σ
  take : Char → σ → Option σ
  value : σ → Option (V × σ)

inductive Turn (σ V : Type) where
  | next (events : List (StreamEvent V)) (tasks : List StreamTask) (s : σ)
  | raised (events : List (StreamEvent V))

inductive StreamStatus where
  | going (tasks : List StreamTask)
  | done
  | raised
deriving DecidableEq

section Generator

variable {σ V : Type} (asKey : V → Option (List Char)) (keys : List JsonPath) (c : Cursor σ V)

/-- `take`, then on with `tasks`. -/
def takeThen (expected : Char) (events : List (StreamEvent V)) (tasks : List StreamTask) (s : σ) :
    Turn σ V :=
  match c.take expected s with
  | none => .raised events
  | some s => .next events tasks s

/-- A comma is taken and reading goes on with `again`, else `close` and `after`. -/
def commaOr (close : Char) (events : List (StreamEvent V)) (again after : List StreamTask) (s : σ) :
    Turn σ V :=
  let (nxt, s) := c.peek s
  if nxt = some ',' then takeThen c ',' events again s else takeThen c close events after s

/-- The opening character is taken; an empty body is closed at once. -/
def openBody (first close : Char) (body after : List StreamTask) (s : σ) : Turn σ V :=
  match c.take first s with
  | none => .raised []
  | some s =>
      let (nxt, s) := c.peek s
      if nxt = some close then takeThen c close [] after s else .next [] body s

/-- Some array is named below a member. -/
def namesBelow (name : JsonPath) : Bool := keys.any fun k => (name ++ ['.']).isPrefixOf k

/-- An object in which an array is named, or a value taken whole. -/
def nestedOr (path name : JsonPath) (tasks : List StreamTask) (s : σ) : Turn σ V :=
  if namesBelow keys name then
    let (nxt, s) := c.peek s
    if nxt = some '\x7b' then .next [] (.object (name ++ ['.']) :: .behind path :: tasks) s
    else .next [] (.scalar path name :: tasks) s
  else .next [] (.scalar path name :: tasks) s

/-- A value is decoded, or the error goes on. -/
def withValue (s : σ) (go : V → σ → Turn σ V) : Turn σ V :=
  match c.value s with
  | none => .raised []
  | some (obj, s) => go obj s

def turn : StreamTask → List StreamTask → σ → Turn σ V
  | .object path, tasks, s => openBody c '\x7b' '\x7d' (.member path :: tasks) tasks s
  | .member path, tasks, s =>
      withValue c s fun key s =>
        match asKey key with
        | none => .raised []
        | some key => takeThen c ':' [] (.content path (path ++ key) :: tasks) s
  | .content path name, tasks, s =>
      if name ∈ keys then
        let (nxt, s) := c.peek s
        if nxt = some '[' then
          openBody c '[' ']' (.items path name :: tasks) (.behind path :: tasks) s
        else nestedOr keys c path name tasks s
      else nestedOr keys c path name tasks s
  | .scalar path name, tasks, s =>
      withValue c s fun obj s => .next [.scalar name obj] (.behind path :: tasks) s
  | .items path name, tasks, s =>
      withValue c s fun obj s =>
        commaOr c ']' [.item name obj] (.items path name :: tasks) (.behind path :: tasks) s
  | .behind path, tasks, s => commaOr c '\x7d' [] (.member path :: tasks) tasks s

/-- The events of at most `turns` turns, and how far they have come. -/
def run : Nat → List StreamTask → σ → List (StreamEvent V) × StreamStatus
  | _, [], _ => ([], .done)
  | 0, tasks, _ => ([], .going tasks)
  | turns + 1, task :: tasks, s =>
      match turn asKey keys c task tasks s with
      | .raised events => (events, .raised)
      | .next events tasks s =>
          let r := run turns tasks s
          (events ++ r.1, r.2)

end Generator

variable {V : Type} (D : JsonDecoder V) (keys : List JsonPath)

def windowCursor : Cursor Window V := ⟨Window.peek, Window.take, Window.value D⟩

def textCursor : Cursor (List Char) V := ⟨peekText, takeText, valueText D⟩

/-- `stream_manifest` with chunks of a first size, for a number of turns. -/
def streamManifest (chunk turns : Nat) (text : List Char) : List (StreamEvent V) × StreamStatus :=
  run D.asKey keys (windowCursor D) turns [.object []] (Window.init text chunk)

/-- A reader that has the whole text. -/
def streamText (turns : Nat) (text : List Char) : List (StreamEvent V) × StreamStatus :=
  run D.asKey keys (textCursor D) turns [.object []] text

/-! ### The same turn -/

/-- Two turns with the same events and the same tasks, on related states. -/
def SameTurn {σ τ : Type} (R : σ → τ → Prop) : Turn σ V → Turn τ V → Prop
  | .next events tasks s, .next events' tasks' t => events = events' ∧ tasks = tasks' ∧ R s t
  | .raised events, .raised events' => events = events'
  | _, _ => False

/-- Peeking and taking do the same on related states. -/
structure Follows {σ τ : Type} (c : Cursor σ V) (d : Cursor τ V) (R : σ → τ → Prop) : Prop where
  peek : ∀ {s t}, R s t → (c.peek s).1 = (d.peek t).1 ∧ R (c.peek s).2 (d.peek t).2
  take : ∀ {s t} expected, R s t →
    (c.take expected s = none ∧ d.take expected t = none) ∨
    ∃ s' t', c.take expected s = some s' ∧ d.take expected t = some t' ∧ R s' t'

/-- Their values are the same. -/
def SameValue {σ τ : Type} (c : Cursor σ V) (d : Cursor τ V) (R : σ → τ → Prop) (s : σ) (t : τ) :
    Prop :=
  (c.value s = none ∧ d.value t = none) ∨
  ∃ obj s' t', c.value s = some (obj, s') ∧ d.value t = some (obj, t') ∧ R s' t'

/-- Neither is a key. -/
def NoKey {σ τ : Type} (c : Cursor σ V) (d : Cursor τ V) (asKey : V → Option (List Char)) (s : σ)
    (t : τ) : Prop :=
  (∀ obj s', c.value s = some (obj, s') → asKey obj = none) ∧
  ∀ obj t', d.value t = some (obj, t') → asKey obj = none

section Same

variable {σ τ : Type} {c : Cursor σ V} {d : Cursor τ V} {R : σ → τ → Prop} (h : Follows c d R)
  {s : σ} {t : τ}

include h

theorem sameTurn_takeThen (hst : R s t) (expected : Char) (events : List (StreamEvent V))
    (tasks : List StreamTask) :
    SameTurn R (takeThen c expected events tasks s) (takeThen d expected events tasks t) := by
  unfold takeThen
  rcases h.take expected hst with ⟨hs, ht⟩ | ⟨s', t', hs, ht, hnext⟩
  · rw [hs, ht]
    rfl
  · rw [hs, ht]
    exact ⟨rfl, rfl, hnext⟩

theorem sameTurn_commaOr (hst : R s t) (close : Char) (events : List (StreamEvent V))
    (again after : List StreamTask) :
    SameTurn R (commaOr c close events again after s) (commaOr d close events again after t) := by
  obtain ⟨hpeek, hnext⟩ := h.peek hst
  unfold commaOr
  dsimp only
  rw [hpeek]
  split
  · exact sameTurn_takeThen h hnext _ _ _
  · exact sameTurn_takeThen h hnext _ _ _

theorem sameTurn_openBody (hst : R s t) (first close : Char) (body after : List StreamTask) :
    SameTurn R (openBody c first close body after s) (openBody d first close body after t) := by
  unfold openBody
  rcases h.take first hst with ⟨hs, ht⟩ | ⟨s', t', hs, ht, hnext⟩
  · rw [hs, ht]
    rfl
  · rw [hs, ht]
    obtain ⟨hpeek, hbehind⟩ := h.peek hnext
    dsimp only
    rw [hpeek]
    split
    · exact sameTurn_takeThen h hbehind _ _ _
    · exact ⟨rfl, rfl, hbehind⟩

theorem sameTurn_nestedOr (hst : R s t) (keys : List JsonPath) (path name : JsonPath)
    (tasks : List StreamTask) :
    SameTurn R (nestedOr keys c path name tasks s) (nestedOr keys d path name tasks t) := by
  obtain ⟨hpeek, hnext⟩ := h.peek hst
  unfold nestedOr
  dsimp only
  rw [hpeek]
  split
  · split
    · exact ⟨rfl, rfl, hnext⟩
    · exact ⟨rfl, rfl, hnext⟩
  · exact ⟨rfl, rfl, hst⟩

omit h in
theorem sameTurn_withValue (hvalue : SameValue c d R s t) {go : V → σ → Turn σ V}
    {go' : V → τ → Turn τ V} (hgo : ∀ obj s' t', R s' t' → SameTurn R (go obj s') (go' obj t')) :
    SameTurn R (withValue c s go) (withValue d t go') := by
  unfold withValue
  rcases hvalue with ⟨hs, ht⟩ | ⟨obj, s', t', hs, ht, hnext⟩
  · rw [hs, ht]
    rfl
  · rw [hs, ht]
    exact hgo obj s' t' hnext

omit h in
theorem withValue_some {s s' : σ} {obj : V} (hvalue : c.value s = some (obj, s'))
    (go : V → σ → Turn σ V) : withValue c s go = go obj s' := by
  unfold withValue
  rw [hvalue]

omit h in
theorem withValue_raised {s : σ} {go : V → σ → Turn σ V}
    (hgo : ∀ obj s', c.value s = some (obj, s') → go obj s' = .raised []) :
    withValue c s go = .raised [] := by
  unfold withValue
  cases hvalue : c.value s with
  | none => rfl
  | some r => exact hgo r.1 r.2 hvalue

/-- A turn is the same where the value it decodes is, or where neither is the key it
should be. -/
theorem sameTurn_turn (hst : R s t) (asKey : V → Option (List Char)) (keys : List JsonPath)
    {task : StreamTask} (tasks : List StreamTask)
    (hvalue : (task.decodes = true → SameValue c d R s t) ∨
      NoKey c d asKey s t ∧ ∃ path, task = .member path) :
    SameTurn R (turn asKey keys c task tasks s) (turn asKey keys d task tasks t) := by
  rcases hvalue with hvalue | ⟨⟨hs, ht⟩, path, rfl⟩
  · cases task with
    | object path => exact sameTurn_openBody h hst _ _ _ _
    | behind path => exact sameTurn_commaOr h hst _ _ _ _
    | scalar path name => exact sameTurn_withValue (hvalue rfl) fun _ _ _ hnext => ⟨rfl, rfl, hnext⟩
    | items path name =>
        exact sameTurn_withValue (hvalue rfl) fun _ _ _ hnext =>
          sameTurn_commaOr h hnext _ _ _ _
    | member path =>
        refine sameTurn_withValue (hvalue rfl) fun obj s' t' hnext => ?_
        cases asKey obj with
        | none => rfl
        | some key => exact sameTurn_takeThen h hnext _ _ _
    | content path name =>
        obtain ⟨hpeek, hnext⟩ := h.peek hst
        unfold turn
        dsimp only
        rw [hpeek]
        split
        · split
          · exact sameTurn_openBody h hnext _ _ _ _
          · exact sameTurn_nestedOr h hnext keys path name tasks
        · exact sameTurn_nestedOr h hst keys path name tasks
  · -- a value that is no key raises on both sides
    have hleft : turn asKey keys c (.member path) tasks s = .raised [] :=
      withValue_raised fun obj s' hvalue => by rw [hs obj s' hvalue]
    have hright : turn asKey keys d (.member path) tasks t = .raised [] :=
      withValue_raised fun obj t' hvalue => by rw [ht obj t' hvalue]
    rw [hleft, hright]
    rfl

omit h in
/-- Runs are the same where turns are, in all states that have `P`. -/
theorem run_same (asKey : V → Option (List Char)) (keys : List JsonPath)
    {P : List StreamTask → τ → Prop}
    (hturn : ∀ task tasks s t, R s t → P (task :: tasks) t →
      SameTurn R (turn asKey keys c task tasks s) (turn asKey keys d task tasks t))
    (hnext : ∀ task tasks t events tasks' t', P (task :: tasks) t →
      turn asKey keys d task tasks t = .next events tasks' t' → P tasks' t')
    (turns : Nat) {tasks : List StreamTask} {s : σ} {t : τ} (hst : R s t) (hP : P tasks t) :
    run asKey keys c turns tasks s = run asKey keys d turns tasks t := by
  induction turns generalizing tasks s t with
  | zero => cases tasks <;> rfl
  | succ turns ih =>
      cases tasks with
      | nil => rfl
      | cons task tasks =>
          have hsame := hturn task tasks s t hst hP
          unfold run
          cases hs : turn asKey keys c task tasks s with
          | raised events =>
              cases ht : turn asKey keys d task tasks t with
              | raised events' =>
                  rw [hs, ht] at hsame
                  exact congrArg (·, StreamStatus.raised) hsame
              | next events' tasks' t' =>
                  rw [hs, ht] at hsame
                  exact hsame.elim
          | next events tasks' s' =>
              cases ht : turn asKey keys d task tasks t with
              | raised events' =>
                  rw [hs, ht] at hsame
                  exact hsame.elim
              | next events' tasks'' t' =>
                  rw [hs, ht] at hsame
                  obtain ⟨rfl, rfl, hrest⟩ := hsame
                  dsimp only
                  rw [ih hrest (hnext task tasks t _ _ _ hP ht)]

end Same

end NdsRecomp.CoverageManifest
