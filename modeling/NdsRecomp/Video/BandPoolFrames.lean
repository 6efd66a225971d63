import NdsRecomp.Video.BandPool

/-!
Which runs of the band pool composite every frame exactly once. The lines of a
call are a round of tickets for the caller and the helpers. It stays sound as
long as no helper takes a line with the context of an earlier call, which the
reset of `next_y` makes possible for a helper that was delayed in its loop.
-/

namespace NdsRecomp.Video

open Library

/-- The line a helper has taken, and whether it has composited it. -/
def HelperPhase.held : HelperPhase → Option (Nat × Bool)
  | .holding _ _ y => some (y, false)
  | .drawn _ _ y => some (y, true)
  | .starting | .waiting | .woken | .haveCtx _ | .claiming _ _ _ | .signalling => none

def CallerPhase.held : CallerPhase → Option (Nat × Bool)
  | .holding y => some (y, false)
  | .drawn y => some (y, true)
  | .idle | .serial _ | .storeCtx | .storeYEnd | .storeNextY | .storeCompleted | .publish
  | .claiming | .awaiting | .clearCtx => none

/-- From the reset of `next_y` to the return. -/
def CallerPhase.inRound : CallerPhase → Bool
  | .storeCompleted | .publish | .claiming | .holding _ | .drawn _ | .awaiting | .clearCtx => true
  | .idle | .serial _ | .storeCtx | .storeYEnd | .storeNextY => false

/-- The lines a call has composited outside a round. -/
def CallerPhase.serialLines : CallerPhase → Nat
  | .serial y => y
  | _ => 0

/-- Contexts were loaded in this call or before, and lines are held for it. -/
def HelperPhase.Sane (returned : Nat) : HelperPhase → Prop
  | .starting | .waiting | .woken | .signalling => True
  | .haveCtx ctx => ∀ k, ctx = some k → k ≤ returned
  | .claiming ctx yEnd _ => ctx ≤ returned ∧ yEnd = adaptiveLines
  | .holding ctx yEnd _ | .drawn ctx yEnd _ => ctx = returned ∧ yEnd = adaptiveLines

namespace BandState

variable {n : Nat} {s : BandState n} {i : Fin n} {strict : Prop}

def held (s : BandState n) : Option (Fin n) → Option (Nat × Bool)
  | none => s.caller.held
  | some i => (s.helpers i).phase.held

/-- The lines of the call in progress. Completions count from the reset on. -/
def round (s : BandState n) : TicketRound (Option (Fin n)) where
  next := s.pool.nextY
  done := if s.caller = .storeCompleted then 0 else s.pool.completed
  held := s.held
  worked := s.drawCount s.returned

/-- Before the first generation bump no helper has woken. -/
def Fresh (s : BandState n) : Prop :=
  s.pool.generation = 0 ∧ ∀ i, (s.helpers i).phase = .starting ∨
    ((s.helpers i).phase = .waiting ∧ (s.helpers i).seen = 0)

/-- What holds in every state between two steps. With `strict` no completion of
the call in progress has been lost. -/
structure Steady (strict : Prop) (s : BandState n) : Prop where
  past : ∀ k < s.returned, ∀ y < adaptiveLines, s.drawCount k y = 1
  own : ∀ e ∈ s.log, e.during = e.frame ∧ e.line < adaptiveLines
  frame_le : ∀ e ∈ s.log, e.frame ≤ s.returned
  ctx_le : ∀ k, s.pool.ctx = some k → k ≤ s.returned
  sane : ∀ i, (s.helpers i).phase.Sane s.returned
  yEnd : s.Fresh ∨ s.pool.yEnd = adaptiveLines
  reset : s.caller = .storeNextY → s.pool.yEnd = adaptiveLines
  round : s.caller.inRound = true → s.round.Tracked adaptiveLines strict ∧ s.pool.yEnd = adaptiveLines
  outside : s.caller.inRound = false → (∀ t, s.held t = none) ∧
    (adaptiveLines ≤ s.pool.nextY ∨ s.Fresh) ∧ s.caller.serialLines ≤ adaptiveLines ∧
    ∀ x, s.drawCount s.returned x = if x < s.caller.serialLines then 1 else 0
  clear : s.caller = .clearCtx → adaptiveLines ≤ s.pool.completed
  awaits : s.caller = .awaiting → adaptiveLines ≤ s.pool.nextY

/-! ### Frame lemmas -/

theorem round_done (h : s.caller ≠ .storeCompleted) : s.round.done = s.pool.completed := if_neg h

theorem held_setHelper (h : Helper) :
    (s.setHelper i h).held = Function.update s.held (some i) h.phase.held := by
  funext t
  cases t with
  | none => rw [Function.update_of_ne (Option.some_ne_none i).symm]; rfl
  | some j =>
      change (Function.update s.helpers i h j).phase.held = _
      by_cases hj : j = i
      · subst hj
        rw [Function.update_self, Function.update_self]
      · rw [Function.update_of_ne hj, Function.update_of_ne (fun heq => hj (Option.some.inj heq))]
        rfl

theorem held_setCaller (phase : CallerPhase) :
    (s.setCaller phase).held = Function.update s.held none phase.held := by
  funext t
  cases t with
  | none => rw [Function.update_self]; rfl
  | some j => rw [Function.update_of_ne (Option.some_ne_none j)]; rfl

theorem drawCount_composite (ctx y k x : Nat) :
    (s.composite ctx y).drawCount k x = s.drawCount k x + if ctx = k ∧ y = x then 1 else 0 := by
  unfold drawCount composite
  rw [List.countP_cons]
  simp only [decide_eq_true_eq]

theorem worked_composite (y : Nat) :
    (s.composite s.returned y).drawCount s.returned =
      Function.update (s.drawCount s.returned) y (s.drawCount s.returned y + 1) := by
  funext x
  rw [drawCount_composite]
  by_cases hx : x = y
  · subst hx
    rw [Function.update_self, if_pos ⟨rfl, rfl⟩]
  · rw [Function.update_of_ne hx, if_neg (fun h => hx h.2.symm), Nat.add_zero]

/-- No line of a call that has not begun is in the log. -/
theorem drawCount_later (h : ∀ e ∈ s.log, e.frame ≤ s.returned) {k : Nat} (hk : s.returned < k)
    (x : Nat) : s.drawCount k x = 0 := by
  unfold drawCount
  apply List.countP_eq_zero.mpr
  intro e he hmatch
  have hframe := h e he
  simp only [decide_eq_true_eq] at hmatch
  omega

/-- Compositing for the call in progress leaves the earlier calls alone. -/
theorem past_composite (h : ∀ k < s.returned, ∀ y < adaptiveLines, s.drawCount k y = 1) {y k x : Nat}
    (hk : k < s.returned) (hx : x < adaptiveLines) :
    (s.composite s.returned y).drawCount k x = 1 := by
  have hne : ¬ (s.returned = k ∧ y = x) := fun heq => by
    rw [← heq.1] at hk
    exact absurd hk (Nat.lt_irrefl _)
  rw [drawCount_composite, if_neg hne, h k hk x hx]

theorem Fresh.phase (h : s.Fresh) (i : Fin n) :
    (s.helpers i).phase = .starting ∨ (s.helpers i).phase = .waiting := by
  rcases h.2 i with hstarting | ⟨hwaiting, -⟩
  · exact Or.inl hstarting
  · exact Or.inr hwaiting

theorem Fresh.setHelper (h : s.Fresh) {h' : Helper}
    (hphase : h'.phase = .starting ∨ (h'.phase = .waiting ∧ h'.seen = 0)) :
    (s.setHelper i h').Fresh := by
  refine ⟨h.1, fun j => ?_⟩
  change (Function.update s.helpers i h' j).phase = _ ∨
    ((Function.update s.helpers i h' j).phase = _ ∧ (Function.update s.helpers i h' j).seen = 0)
  by_cases hj : j = i
  · subst hj
    rw [Function.update_self]
    exact hphase
  · rw [Function.update_of_ne hj]
    exact h.2 j

theorem sane_setHelper (h : ∀ j, (s.helpers j).phase.Sane s.returned) {h' : Helper}
    (hsane : h'.phase.Sane s.returned) (j : Fin n) :
    ((s.setHelper i h').helpers j).phase.Sane s.returned := by
  change (Function.update s.helpers i h' j).phase.Sane s.returned
  by_cases hj : j = i
  · subst hj
    rw [Function.update_self]
    exact hsane
  · rw [Function.update_of_ne hj]
    exact h j

/-- A caller inside a round, or a helper that has a line, is past the first
generation bump or on its way there. -/
theorem Steady.holder (h : s.Steady strict) {y : Nat} {w : Bool} (hheld : s.held (some i) = some (y, w)) :
    s.caller.inRound = true := by
  cases hround : s.caller.inRound with
  | true => rfl
  | false =>
      have hnone := (h.outside hround).1 (some i)
      rw [hheld] at hnone
      cases hnone

/-! ### Helper steps -/

/-- A helper moves on without touching a line. -/
theorem Steady.setHelper (h : s.Steady strict) {h' : Helper} (hsane : h'.phase.Sane s.returned)
    (hheld : h'.phase.held = (s.helpers i).phase.held)
    (hfresh : s.Fresh → (s.setHelper i h').Fresh) : (s.setHelper i h').Steady strict := by
  have hsame : (s.setHelper i h').held = s.held := by
    rw [held_setHelper, hheld]
    exact Function.update_eq_self (some i) s.held
  exact {
    past := h.past
    own := h.own
    frame_le := h.frame_le
    ctx_le := h.ctx_le
    sane := sane_setHelper h.sane hsane
    yEnd := h.yEnd.imp_left hfresh
    reset := h.reset
    round := fun hround =>
      ⟨(h.round hround).1.of_eq rfl rfl hsame (fun _ => rfl), (h.round hround).2⟩
    outside := fun hround =>
      ⟨fun t => hsame ▸ (h.outside hround).1 t, (h.outside hround).2.1.imp_right hfresh,
        (h.outside hround).2.2⟩
    clear := h.clear
    awaits := h.awaits }

/-- The line counter passes the last line. -/
theorem Steady.takeLine (h : s.Steady strict) (hnext : adaptiveLines ≤ s.pool.nextY) :
    s.takeLine.Steady strict where
  past := h.past
  own := h.own
  frame_le := h.frame_le
  ctx_le := h.ctx_le
  sane := h.sane
  yEnd := h.yEnd
  reset := h.reset
  round hround :=
    ⟨((h.round hround).1.pass hnext).of_eq rfl rfl rfl (fun _ => rfl), (h.round hround).2⟩
  outside hround :=
    ⟨(h.outside hround).1, Or.inl (Nat.le_succ_of_le hnext), (h.outside hround).2.2⟩
  clear := h.clear
  awaits _ := Nat.le_succ_of_le hnext

/-- The state after a helper's step inside a round, given its new round. -/
theorem Steady.inRound_helper (h : s.Steady strict) (hround : s.caller.inRound = true)
    {s' : BandState n} (hlog : s'.log = s.log) (hreturned : s'.returned = s.returned)
    (hcaller : s'.caller = s.caller) (hctx : s'.pool.ctx = s.pool.ctx)
    (hyEnd : s'.pool.yEnd = s.pool.yEnd) (hcompleted : s.pool.completed ≤ s'.pool.completed)
    (hnextY : s.pool.nextY ≤ s'.pool.nextY)
    (hsane : ∀ j, (s'.helpers j).phase.Sane s.returned) (hsound : s'.round.Tracked adaptiveLines strict) :
    s'.Steady strict := by
  have hcount : ∀ k x, s'.drawCount k x = s.drawCount k x := fun k x => by
    unfold drawCount
    rw [hlog]
  exact {
    past := by
      rw [hreturned]
      exact fun k hk y hy => (hcount k y).trans (h.past k hk y hy)
    own := hlog ▸ h.own
    frame_le := by
      rw [hlog, hreturned]
      exact h.frame_le
    ctx_le := by
      rw [hctx, hreturned]
      exact h.ctx_le
    sane := hreturned ▸ hsane
    yEnd := Or.inr (hyEnd.trans (h.round hround).2)
    reset := fun _ => hyEnd.trans (h.round hround).2
    round := fun _ => ⟨hsound, hyEnd.trans (h.round hround).2⟩
    outside := fun hout => by
      rw [hcaller, hround] at hout
      cases hout
    clear := fun hclear => (h.clear (hcaller ▸ hclear)).trans hcompleted
    awaits := fun hawaits => (h.awaits (hcaller ▸ hawaits)).trans hnextY }

theorem round_take {yEnd ctx : Nat} :
    (s.takeLine.setPhase i (.holding ctx yEnd s.pool.nextY)).round.held =
      (s.round.claim (some i)).held := held_setHelper _

/-- A helper takes a line of the call in progress. -/
theorem Steady.helperTakes (h : s.Steady strict) {yEnd : Nat} {didAny : Bool}
    (hphase : (s.helpers i).phase = .claiming s.returned yEnd didAny) (hlt : s.pool.nextY < yEnd) :
    (s.takeLine.setPhase i (.holding s.returned yEnd s.pool.nextY)).Steady strict := by
  have hsane := h.sane i
  rw [hphase] at hsane
  obtain ⟨-, rfl⟩ : s.returned ≤ s.returned ∧ yEnd = adaptiveLines := hsane
  have hround : s.caller.inRound = true := by
    cases hround : s.caller.inRound with
    | true => rfl
    | false =>
        rcases (h.outside hround).2.1 with hpast | hfresh
        · omega
        · rcases hfresh.phase i with hstarting | hwaiting
          · rw [hphase] at hstarting
            cases hstarting
          · rw [hphase] at hwaiting
            cases hwaiting
  have hnone : s.round.held (some i) = none := congrArg HelperPhase.held hphase
  refine h.inRound_helper hround rfl rfl rfl rfl rfl (Nat.le_refl _) (Nat.le_succ _)
    (sane_setHelper h.sane ⟨rfl, rfl⟩) ?_
  exact ((h.round hround).1.claim hnone hlt).of_eq rfl rfl round_take (fun _ => rfl)

/-- A helper composites the line it has taken. -/
theorem Steady.helperDraws (h : s.Steady strict) {ctx yEnd y : Nat}
    (hphase : (s.helpers i).phase = .holding ctx yEnd y) :
    ((s.composite ctx y).setPhase i (.drawn ctx yEnd y)).Steady strict := by
  have hsane := h.sane i
  rw [hphase] at hsane
  obtain ⟨rfl, rfl⟩ : ctx = s.returned ∧ yEnd = adaptiveLines := hsane
  have hheld : s.round.held (some i) = some (y, false) := congrArg HelperPhase.held hphase
  have hround : s.caller.inRound = true := h.holder hheld
  obtain ⟨hsound, hyEnd⟩ := h.round hround
  have hline : y < adaptiveLines := (hsound.sound.held_lt hheld).1
  exact {
    past := fun k hk x hx => past_composite h.past hk hx
    own := List.forall_mem_cons.mpr ⟨⟨rfl, hline⟩, h.own⟩
    frame_le := List.forall_mem_cons.mpr ⟨Nat.le_refl _, h.frame_le⟩
    ctx_le := h.ctx_le
    sane := sane_setHelper (s := s.composite s.returned y) h.sane ⟨rfl, rfl⟩
    yEnd := Or.inr hyEnd
    reset := fun _ => hyEnd
    round := fun _ => ⟨(hsound.work hheld).of_eq rfl rfl (held_setHelper _)
      (congrFun (worked_composite y)), hyEnd⟩
    outside := fun hout => by
      have hin : s.caller.inRound = false := hout
      rw [hround] at hin
      cases hin
    clear := h.clear
    awaits := h.awaits }

/-- A helper counts the line it has composited. -/
theorem Steady.helperCounts (h : s.Steady strict) {ctx yEnd y : Nat}
    (hphase : (s.helpers i).phase = .drawn ctx yEnd y)
    (hcounts : strict → s.caller ≠ .storeCompleted) :
    (s.countLine.setPhase i (.claiming ctx yEnd true)).Steady strict := by
  have hsane := h.sane i
  rw [hphase] at hsane
  obtain ⟨rfl, rfl⟩ : ctx = s.returned ∧ yEnd = adaptiveLines := hsane
  have hheld : s.round.held (some i) = some (y, true) := congrArg HelperPhase.held hphase
  have hround : s.caller.inRound = true := h.holder hheld
  refine h.inRound_helper hround rfl rfl rfl rfl rfl (Nat.le_succ _) (Nat.le_refl _)
    (sane_setHelper h.sane ⟨Nat.le_refl _, rfl⟩) ?_
  have hback := (h.round hround).1.giveBack (k := if s.caller = .storeCompleted then 0 else 1) hheld
    (by split <;> decide) (fun hstrict => if_neg (hcounts hstrict))
  refine hback.of_eq rfl ?_ (held_setHelper _) (fun _ => rfl)
  change (if s.caller = .storeCompleted then 0 else s.pool.completed + 1) =
    (if s.caller = .storeCompleted then 0 else s.pool.completed) +
      if s.caller = .storeCompleted then 0 else 1
  split
  · rfl
  · rfl

theorem Steady.helperStep (h : s.Steady strict) (hown : s.TakesOwnLine (.helper i))
    (hcounts : strict → s.CountsAfterReset (.helper i)) :
    (s.helperStep i).Steady strict := by
  have hbusy : ∀ phase, (s.helpers i).phase = phase → phase ≠ .starting → phase ≠ .waiting →
      ∀ h', s.Fresh → (s.setHelper i h').Fresh := by
    intro phase hphase hstarting hwaiting h' hfresh
    rcases hfresh.phase i with hp | hp
    · exact absurd (hphase.symm.trans hp) hstarting
    · exact absurd (hphase.symm.trans hp) hwaiting
  unfold BandState.helperStep
  cases hphase : (s.helpers i).phase with
  | starting =>
      refine h.setHelper trivial (congrArg HelperPhase.held hphase).symm fun hfresh => ?_
      exact hfresh.setHelper (Or.inr ⟨rfl, hfresh.1⟩)
  | waiting =>
      dsimp only
      split
      · exact h
      · next hgeneration =>
          refine h.setHelper trivial (congrArg HelperPhase.held hphase).symm fun hfresh => ?_
          rcases hfresh.2 i with hstarting | ⟨-, hseen⟩
          · rw [hphase] at hstarting
            cases hstarting
          · exact absurd (hfresh.1.trans hseen.symm) hgeneration
  | woken =>
      exact h.setHelper h.ctx_le (congrArg HelperPhase.held hphase).symm
        (hbusy _ hphase (by decide) (by decide) _)
  | haveCtx ctx =>
      have hfresh := hbusy _ hphase HelperPhase.noConfusion HelperPhase.noConfusion
      have hsane := h.sane i
      rw [hphase] at hsane
      cases ctx with
      | none => exact h.setHelper trivial (congrArg HelperPhase.held hphase).symm (hfresh _)
      | some ctx =>
          rcases h.yEnd with hstill | hyEnd
          · rcases hstill.phase i with hp | hp
            · rw [hphase] at hp
              cases hp
            · rw [hphase] at hp
              cases hp
          · exact h.setHelper ⟨hsane ctx rfl, hyEnd⟩ (congrArg HelperPhase.held hphase).symm (hfresh _)
  | claiming ctx yEnd didAny =>
      dsimp only
      split
      · next hlt =>
          obtain rfl := hown ctx yEnd didAny hphase hlt
          exact h.helperTakes hphase hlt
      · next hge =>
          have hsane := h.sane i
          rw [hphase] at hsane
          have hpast := h.takeLine (hsane.2 ▸ Nat.le_of_not_lt hge)
          have hfresh := hbusy _ hphase HelperPhase.noConfusion HelperPhase.noConfusion
          refine hpast.setHelper ?_ ?_ (hfresh _)
          · cases didAny
            · trivial
            · trivial
          · cases didAny
            · exact (congrArg HelperPhase.held hphase).symm
            · exact (congrArg HelperPhase.held hphase).symm
  | holding ctx yEnd y => exact h.helperDraws hphase
  | drawn ctx yEnd y =>
      exact h.helperCounts hphase fun hstrict => hcounts hstrict ctx yEnd y hphase
  | signalling =>
      exact h.setHelper trivial (congrArg HelperPhase.held hphase).symm
        (hbusy _ hphase (by decide) (by decide) _)

/-! ### Caller steps -/

theorem held_caller {phase : CallerPhase} {pool : BandPool} :
    ((s.setPool pool).setCaller phase).held = Function.update s.held none phase.held :=
  held_setCaller phase

/-- The caller moves between steps outside a round. -/
theorem Steady.outsideCaller (h : s.Steady strict) (hout : s.caller.inRound = false) {phase : CallerPhase}
    {pool : BandPool} (hphase : phase.inRound = false) (hheld : phase.held = none)
    (hlines : phase.serialLines = s.caller.serialLines)
    (hgeneration : pool.generation = s.pool.generation) (hnextY : pool.nextY = s.pool.nextY)
    (hctx : ∀ k, pool.ctx = some k → k ≤ s.returned)
    (hyEnd : s.pool.yEnd = adaptiveLines → pool.yEnd = adaptiveLines)
    (hreset : phase = .storeNextY → pool.yEnd = adaptiveLines) :
    ((s.setPool pool).setCaller phase).Steady strict := by
  have hfresh : s.Fresh → ((s.setPool pool).setCaller phase).Fresh :=
    fun hf => ⟨hgeneration.trans hf.1, hf.2⟩
  obtain ⟨hnone, hnext, hle, hcount⟩ := h.outside hout
  exact {
    past := h.past
    own := h.own
    frame_le := h.frame_le
    ctx_le := hctx
    sane := h.sane
    yEnd := h.yEnd.imp hfresh hyEnd
    reset := hreset
    round := fun hround => by
      have hin : phase.inRound = true := hround
      rw [hphase] at hin
      cases hin
    outside := fun _ => by
      refine ⟨fun t => ?_, ?_, hlines ▸ hle, hlines ▸ hcount⟩
      · rw [held_caller, hheld]
        cases t with
        | none => exact Function.update_self ..
        | some i => exact (Function.update_of_ne (Option.some_ne_none i) ..).trans (hnone (some i))
      · rw [← hnextY] at hnext
        exact hnext.imp_right hfresh
    clear := fun hclear => by
      have hcaller : phase = .clearCtx := hclear
      rw [hcaller] at hphase
      cases hphase
    awaits := fun hawaits => by
      have hcaller : phase = .awaiting := hawaits
      rw [hcaller] at hphase
      cases hphase }

/-- The caller moves inside a round, given the new round. -/
theorem Steady.inRound_caller (h : s.Steady strict) (hround : s.caller.inRound = true)
    {phase : CallerPhase} {pool : BandPool} (hphase : phase.inRound = true)
    (hctx : pool.ctx = s.pool.ctx) (hyEnd : pool.yEnd = s.pool.yEnd)
    (hsound : ((s.setPool pool).setCaller phase).round.Tracked adaptiveLines strict)
    (hclear : phase = .clearCtx → adaptiveLines ≤ pool.completed)
    (hawaits : phase = .awaiting → adaptiveLines ≤ pool.nextY) :
    ((s.setPool pool).setCaller phase).Steady strict where
  past := h.past
  own := h.own
  frame_le := h.frame_le
  ctx_le := by
    intro k hk
    exact h.ctx_le k (hctx ▸ hk)
  sane := h.sane
  yEnd := Or.inr (hyEnd.trans (h.round hround).2)
  reset _ := hyEnd.trans (h.round hround).2
  round _ := ⟨hsound, hyEnd.trans (h.round hround).2⟩
  outside hout := by
    have hin : phase.inRound = false := hout
    rw [hphase] at hin
    cases hin
  clear := hclear
  awaits := hawaits

/-- The caller of a serial call composites its next line. -/
theorem Steady.serialDraws (h : s.Steady strict) {y : Nat} (hcaller : s.caller = .serial y)
    (hlt : y < adaptiveLines) : ((s.composite s.returned y).setCaller (.serial (y + 1))).Steady strict := by
  have hout : s.caller.inRound = false := by rw [hcaller]; rfl
  have hheld : s.caller.held = none := by rw [hcaller]; rfl
  obtain ⟨hnone, hnext, -, hcount⟩ := h.outside hout
  rw [hcaller] at hcount
  exact {
    past := fun k hk x hx => past_composite h.past hk hx
    own := List.forall_mem_cons.mpr ⟨⟨rfl, hlt⟩, h.own⟩
    frame_le := List.forall_mem_cons.mpr ⟨Nat.le_refl _, h.frame_le⟩
    ctx_le := h.ctx_le
    sane := h.sane
    yEnd := h.yEnd
    reset := CallerPhase.noConfusion
    round := fun hround => by cases hround
    outside := fun _ => by
      refine ⟨fun t => ?_, hnext, hlt, fun x => ?_⟩
      · cases t with
        | none => rfl
        | some i => exact hnone (some i)
      · change (s.composite s.returned y).drawCount s.returned x = if x < y + 1 then 1 else 0
        rw [drawCount_composite, hcount x]
        change ((if x < y then 1 else 0) + if s.returned = s.returned ∧ y = x then 1 else 0) = _
        split_ifs
        all_goals omega
    clear := CallerPhase.noConfusion
    awaits := CallerPhase.noConfusion }

/-- The call returns: all its lines are composited and no helper has one. -/
theorem Steady.ret (h : s.Steady strict) (hnone : ∀ i, (s.helpers i).phase.held = none)
    (hnext : adaptiveLines ≤ s.pool.nextY ∨ s.Fresh)
    (hlines : ∀ y < adaptiveLines, s.drawCount s.returned y = 1) : s.ret.Steady strict where
  past k hk y hy := by
    rcases Nat.lt_succ_iff_lt_or_eq.mp hk with hlt | rfl
    · exact h.past k hlt y hy
    · exact hlines y hy
  own := h.own
  frame_le e he := Nat.le_succ_of_le (h.frame_le e he)
  ctx_le k hk := Nat.le_succ_of_le (h.ctx_le k hk)
  sane i := by
    have hsane := h.sane i
    have hheld := hnone i
    change (s.helpers i).phase.Sane (s.returned + 1)
    cases hphase : (s.helpers i).phase with
    | starting | waiting | woken | signalling => trivial
    | haveCtx ctx =>
        rw [hphase] at hsane
        exact fun k hk => Nat.le_succ_of_le (hsane k hk)
    | claiming ctx yEnd didAny =>
        rw [hphase] at hsane
        exact ⟨Nat.le_succ_of_le hsane.1, hsane.2⟩
    | holding ctx yEnd y =>
        rw [hphase] at hheld
        cases hheld
    | drawn ctx yEnd y =>
        rw [hphase] at hheld
        cases hheld
  yEnd := h.yEnd
  reset := CallerPhase.noConfusion
  round hround := by cases hround
  outside _ := by
    refine ⟨fun t => ?_, hnext, Nat.zero_le _, fun x => ?_⟩
    · cases t with
      | none => rfl
      | some i => exact hnone i
    · exact drawCount_later h.frame_le (Nat.lt_succ_self _) x
  clear := CallerPhase.noConfusion
  awaits := CallerPhase.noConfusion

/-- Nulling the context changes nothing that is kept. -/
theorem Steady.dropCtx (h : s.Steady strict) : (s.setPool { s.pool with ctx := none }).Steady strict where
  past := h.past
  own := h.own
  frame_le := h.frame_le
  ctx_le _ hk := by cases hk
  sane := h.sane
  yEnd := h.yEnd
  reset := h.reset
  round hround := ⟨(h.round hround).1.of_eq rfl rfl rfl (fun _ => rfl), (h.round hround).2⟩
  outside := h.outside
  clear := h.clear
  awaits := h.awaits

theorem update_none_self {phase : CallerPhase} (h : s.caller.held = phase.held) :
    Function.update s.held none phase.held = s.held := by
  rw [← h]
  exact Function.update_eq_self none s.held

/-- The caller resets the line counter: a round begins. -/
theorem Steady.beginsRound (h : s.Steady strict) (hcaller : s.caller = .storeNextY) :
    ((s.setPool { s.pool with nextY := 0 }).setCaller .storeCompleted).Steady strict := by
  have hout : s.caller.inRound = false := by rw [hcaller]; rfl
  obtain ⟨hnone, -, -, hcount⟩ := h.outside hout
  rw [hcaller] at hcount
  have hyEnd := h.reset hcaller
  exact {
    past := h.past
    own := h.own
    frame_le := h.frame_le
    ctx_le := h.ctx_le
    sane := h.sane
    yEnd := Or.inr hyEnd
    reset := CallerPhase.noConfusion
    round := fun _ => by
      refine ⟨TicketRound.tracked_start rfl rfl (fun t => ?_) (fun y => ?_), hyEnd⟩
      · cases t with
        | none => rfl
        | some i => exact hnone (some i)
      · exact (hcount y).trans (if_neg (Nat.not_lt_zero _))
    outside := fun hout => by cases hout
    clear := CallerPhase.noConfusion
    awaits := CallerPhase.noConfusion }

/-- The caller composites the line it has taken. -/
theorem Steady.callerDraws (h : s.Steady strict) {y : Nat} (hcaller : s.caller = .holding y) :
    ((s.composite s.returned y).setCaller (.drawn y)).Steady strict := by
  have hround : s.caller.inRound = true := by rw [hcaller]; rfl
  have hheld : s.round.held none = some (y, false) := congrArg CallerPhase.held hcaller
  obtain ⟨hsound, hyEnd⟩ := h.round hround
  have hline : y < adaptiveLines := (hsound.sound.held_lt hheld).1
  have hdone : s.round.done = s.pool.completed :=
    round_done (by rw [hcaller]; exact CallerPhase.noConfusion)
  exact {
    past := fun k hk x hx => past_composite h.past hk hx
    own := List.forall_mem_cons.mpr ⟨⟨rfl, hline⟩, h.own⟩
    frame_le := List.forall_mem_cons.mpr ⟨Nat.le_refl _, h.frame_le⟩
    ctx_le := h.ctx_le
    sane := h.sane
    yEnd := Or.inr hyEnd
    reset := fun _ => hyEnd
    round := fun _ => ⟨(hsound.work hheld).of_eq rfl hdone.symm (held_setCaller _)
      (congrFun (worked_composite y)), hyEnd⟩
    outside := fun hout => by cases hout
    clear := CallerPhase.noConfusion
    awaits := CallerPhase.noConfusion }

theorem Steady.callerStep (h : s.Steady strict) : s.callerStep.Steady strict := by
  unfold BandState.callerStep
  cases hcaller : s.caller with
  | idle => exact h
  | serial y =>
      have hout : s.caller.inRound = false := by rw [hcaller]; rfl
      obtain ⟨hnone, hnext, hle, hcount⟩ := h.outside hout
      rw [hcaller] at hcount
      dsimp only
      split
      · next hlt => exact h.serialDraws hcaller hlt
      · next hge =>
          refine h.ret (fun i => hnone (some i)) hnext fun x hx => ?_
          exact (hcount x).trans (if_pos (hx.trans_le (Nat.le_of_not_lt hge)))
  | storeCtx =>
      refine h.outsideCaller (by rw [hcaller]; rfl) rfl rfl (by rw [hcaller]; rfl) rfl rfl ?_ id
        CallerPhase.noConfusion
      intro k hk
      cases hk
      exact Nat.le_refl _
  | storeYEnd =>
      exact h.outsideCaller (by rw [hcaller]; rfl) rfl rfl (by rw [hcaller]; rfl) rfl rfl h.ctx_le
        (fun _ => rfl) (fun _ => rfl)
  | storeNextY => exact h.beginsRound hcaller
  | storeCompleted =>
      have hround : s.caller.inRound = true := by rw [hcaller]; rfl
      have hdone : s.round.done = 0 := if_pos hcaller
      refine h.inRound_caller hround rfl rfl rfl ?_ CallerPhase.noConfusion
        CallerPhase.noConfusion
      exact (h.round hround).1.of_eq rfl hdone.symm
        (held_caller.trans (update_none_self (by rw [hcaller]; rfl))) (fun _ => rfl)
  | publish =>
      have hround : s.caller.inRound = true := by rw [hcaller]; rfl
      have hdone : s.round.done = s.pool.completed :=
        round_done (by rw [hcaller]; exact CallerPhase.noConfusion)
      refine h.inRound_caller hround rfl rfl rfl ?_ CallerPhase.noConfusion
        CallerPhase.noConfusion
      exact (h.round hround).1.of_eq rfl hdone.symm
        (held_caller.trans (update_none_self (by rw [hcaller]; rfl))) (fun _ => rfl)
  | claiming =>
      have hround : s.caller.inRound = true := by rw [hcaller]; rfl
      have hdone : s.round.done = s.pool.completed :=
        round_done (by rw [hcaller]; exact CallerPhase.noConfusion)
      have hnone : s.round.held none = none := congrArg CallerPhase.held hcaller
      dsimp only
      split
      · next hlt =>
          refine h.inRound_caller hround rfl rfl rfl ?_ CallerPhase.noConfusion
            CallerPhase.noConfusion
          exact ((h.round hround).1.claim hnone hlt).of_eq rfl hdone.symm held_caller (fun _ => rfl)
      · next hge =>
          refine h.inRound_caller hround rfl rfl rfl ?_ CallerPhase.noConfusion
            (fun _ => Nat.le_succ_of_le (Nat.le_of_not_lt hge))
          exact ((h.round hround).1.pass (Nat.le_of_not_lt hge)).of_eq rfl hdone.symm
            (held_caller.trans (update_none_self (by rw [hcaller]; rfl))) (fun _ => rfl)
  | holding y => exact h.callerDraws hcaller
  | drawn y =>
      have hround : s.caller.inRound = true := by rw [hcaller]; rfl
      have hdone : s.round.done = s.pool.completed :=
        round_done (by rw [hcaller]; exact CallerPhase.noConfusion)
      have hheld : s.round.held none = some (y, true) := congrArg CallerPhase.held hcaller
      refine h.inRound_caller hround rfl rfl rfl ?_ CallerPhase.noConfusion
        CallerPhase.noConfusion
      exact ((h.round hround).1.giveBack hheld (Nat.le_refl 1) (fun _ => rfl)).of_eq rfl
        (congrArg Nat.succ hdone.symm) held_caller (fun _ => rfl)
  | awaiting =>
      have hround : s.caller.inRound = true := by rw [hcaller]; rfl
      have hdone : s.round.done = s.pool.completed :=
        round_done (by rw [hcaller]; exact CallerPhase.noConfusion)
      dsimp only
      split
      · exact h
      · next hge =>
          have hsame : ((s.setPool s.pool).setCaller .clearCtx).round.Tracked adaptiveLines strict :=
            (h.round hround).1.of_eq rfl hdone.symm
              (held_caller.trans (update_none_self (by rw [hcaller]; rfl))) (fun _ => rfl)
          have hmoved := h.inRound_caller hround rfl rfl rfl hsame
            (fun _ => Nat.le_of_not_lt hge) CallerPhase.noConfusion
          exact hmoved
  | clearCtx =>
      have hround : s.caller.inRound = true := by rw [hcaller]; rfl
      have hdone : s.round.done = s.pool.completed :=
        round_done (by rw [hcaller]; exact CallerPhase.noConfusion)
      obtain ⟨hlines, hnone, hnext⟩ := (h.round hround).1.sound.finished (hdone ▸ h.clear hcaller)
      exact h.dropCtx.ret (fun i => hnone (some i)) (Or.inl hnext) hlines

theorem Steady.call (h : s.Steady strict) (hidle : s.caller = .idle) (snapshotMatches : Bool) :
    (s.setCaller (if snapshotMatches then .storeCtx else .serial 0)).Steady strict := by
  have hout : s.caller.inRound = false := by rw [hidle]; rfl
  have hlines : s.caller.serialLines = 0 := by rw [hidle]; rfl
  cases snapshotMatches with
  | true =>
      have hmoved : ((s.setPool s.pool).setCaller .storeCtx).Steady strict :=
        h.outsideCaller hout rfl rfl hlines.symm rfl rfl h.ctx_le id CallerPhase.noConfusion
      exact hmoved
  | false =>
      have hmoved : ((s.setPool s.pool).setCaller (.serial 0)).Steady strict :=
        h.outsideCaller hout rfl rfl hlines.symm rfl rfl h.ctx_le id CallerPhase.noConfusion
      exact hmoved

theorem steady_start : (({} : BandState n)).Steady strict where
  past _ hk := by cases hk
  own _ he := by cases he
  frame_le _ he := by cases he
  ctx_le _ hk := by cases hk
  sane _ := trivial
  yEnd := Or.inl ⟨rfl, fun _ => Or.inl rfl⟩
  reset := CallerPhase.noConfusion
  round hround := by cases hround
  outside _ := by
    refine ⟨fun t => ?_, Or.inr ⟨rfl, fun _ => Or.inl rfl⟩, Nat.zero_le _, fun x => rfl⟩
    cases t with
    | none => rfl
    | some i => rfl
  clear := CallerPhase.noConfusion
  awaits := CallerPhase.noConfusion

theorem Steady.disciplined (h : s.Steady strict) : s.Disciplined := ⟨h.past, h.own⟩

end BandState

theorem bandSystem_steady (n : Nat) :
    ((bandSystem n).restrict BandState.TakesOwnLine).Invariant (BandState.Steady False) where
  start := by
    rintro s rfl
    exact BandState.steady_start
  step := by
    rintro s op h ⟨hadmits, hown⟩
    cases op with
    | call snapshotMatches => exact h.call hadmits snapshotMatches
    | caller => exact h.callerStep
    | helper i => exact h.helperStep hown False.elim

/-- No completion is lost when helpers count outside the reset window too. -/
theorem bandSystem_strict (n : Nat) :
    ((bandSystem n).restrict fun s op => s.TakesOwnLine op ∧ s.CountsAfterReset op).Invariant
      (BandState.Steady True) where
  start := by
    rintro s rfl
    exact BandState.steady_start
  step := by
    rintro s op h ⟨hadmits, hown, hcounts⟩
    cases op with
    | call snapshotMatches => exact h.call hadmits snapshotMatches
    | caller => exact h.callerStep
    | helper i => exact h.helperStep hown fun _ => hcounts

theorem reachable_caller {n : Nat} {s : BandState n} (h : (bandSystem n).Reachable s) :
    (bandSystem n).Reachable s.callerStep := by
  have hstep : (bandSystem n).Reachable ((bandSystem n).next s .caller) := .step h trivial
  exact hstep

/-- The caller alone takes, composites and counts `m` lines. -/
theorem caller_draws {n : Nat} {s : BandState n} (h : (bandSystem n).Reachable s)
    (hcaller : s.caller = .claiming) {m : Nat} (hm : s.pool.nextY + m ≤ adaptiveLines) :
    ∃ s', (bandSystem n).Reachable s' ∧ s'.caller = .claiming ∧ s'.helpers = s.helpers ∧
      s'.returned = s.returned ∧ s'.pool.nextY = s.pool.nextY + m ∧
      s'.pool.completed = s.pool.completed + m := by
  induction m with
  | zero => exact ⟨s, h, hcaller, rfl, rfl, rfl, rfl⟩
  | succ m ih =>
      obtain ⟨t, ht, htcaller, hhelpers, hreturned, hnext, hcompleted⟩ := ih (by omega)
      have hlt : t.pool.nextY < adaptiveLines := by omega
      have htake : t.callerStep = t.takeLine.setCaller (.holding t.pool.nextY) := by
        unfold BandState.callerStep
        rw [htcaller]
        exact if_pos hlt
      have htaken : (bandSystem n).Reachable (t.takeLine.setCaller (.holding t.pool.nextY)) :=
        htake ▸ reachable_caller ht
      exact ⟨_, reachable_caller (reachable_caller htaken), rfl, hhelpers, hreturned,
        congrArg Nat.succ hnext, congrArg Nat.succ hcompleted⟩

/-- A helper wakes for the first call and stops before it takes a line. -/
def delayedHelper : BandState 1 :=
  (bandSystem 1).runFrom {} [.helper 0, .call true, .caller, .caller, .caller, .caller, .caller,
    .helper 0, .helper 0, .helper 0]

theorem delayedHelper_reachable : (bandSystem 1).Reachable delayedHelper :=
  OpSystem.Reachable.runFrom (.start rfl)
    ⟨trivial, rfl, trivial, trivial, trivial, trivial, trivial, trivial, trivial, trivial, trivial⟩

end NdsRecomp.Video
