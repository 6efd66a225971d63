import NdsRecomp.Video.LinePool

/-!
Which runs of the scanline pool keep the ring in order. The jobs are tickets for
the scheduler and the workers; a drain run by the scheduler finds every job
counted, so the slots between `g_capture_apply_index` and `head` are the only
ones in use. Two things break this: a drain entered from inside a rendering job,
and a slot reused because some other job was counted.
-/

namespace NdsRecomp.Video

open Library

/-- The job a thread has taken, and whether it has rendered it. -/
def heldBy : List LineFrame → Option (Nat × Bool)
  | .render index _ :: _ => some (index, false)
  | .workerCount index :: _ => some (index, true)
  | .drainCount _ index :: _ => some (index, true)
  | _ => none

/-- The slot at `head` is free, and holds the line about to be published. -/
def LinePool.Latched (p : LinePool) : Prop :=
  p.head < p.captureApplyIndex + kJobSlots ∧ (p.slot p.head).index = p.head

/-- The stacks of a worker that has not entered a drain. -/
def WorkerShape (head : Nat) : List LineFrame → Prop
  | [.claimLoad] | [.headLoad _] | [.sleep] | [.workerCount _] | [.workerSignal] => True
  | [.claimCas c] => c < head
  | [.render index _, .workerCount index'] => index' = index
  | _ => False

/-- What a drain of the scheduler returns to. -/
def LinePool.Resumes (p : LinePool) : List LineFrame → Prop
  | [] | [.submitLatch _] => True
  | [.submitPublish _] => p.Latched
  | _ => False

def SchedulerShape (p : LinePool) : List LineFrame → Prop
  | [] | [.submitCheck _] | [.submitOutstanding _] | [.submitStaged] | [.readFence]
  | [.memoryFence] => True
  | [.submitLatch _] => p.head < p.captureApplyIndex + kJobSlots
  | [.submitPublish _] => p.Latched
  | .drainHead :: base => p.Resumes base
  | .drainDone target :: base => target = p.head ∧ p.Resumes base
  | .drainClaim target :: base => target = p.head ∧ p.Resumes base
  | .drainWait target :: base => target = p.head ∧ p.head ≤ p.claim ∧ p.Resumes base
  | .drainCas target c :: base => target = p.head ∧ c < p.head ∧ p.Resumes base
  | .drainCount target _ :: base => target = p.head ∧ p.Resumes base
  | .drainClear target :: base => target = p.head ∧ p.head ≤ p.done ∧ p.Resumes base
  | .drainApply target :: base => target = p.head ∧ p.head ≤ p.done ∧ p.Resumes base
  | .drainUnstage :: base => p.captureApplyIndex = p.head ∧ p.Resumes base
  | .render index _ :: .drainCount target index' :: base =>
      index' = index ∧ target = p.head ∧ p.Resumes base
  | _ => False

namespace LineState

variable {n : Nat} {s : LineState n} {t : Option (Fin n)}

def round (s : LineState n) : TicketRound (Option (Fin n)) where
  next := s.pool.claim
  done := s.pool.done
  held := fun t => heldBy (s.calls t)
  worked := s.renderCount

/-- The stack a thread may have. -/
def Shaped (p : LinePool) : Option (Fin n) → List LineFrame → Prop
  | none, frames => SchedulerShape p frames
  | some _, frames => WorkerShape p.head frames

structure Orderly (s : LineState n) : Prop where
  round : s.round.Tracked s.pool.head True
  shape : ∀ t, Shaped s.pool t (s.calls t)
  claim_le : s.pool.claim ≤ s.pool.head
  apply_le : s.pool.captureApplyIndex ≤ s.pool.claim
  window : s.pool.head ≤ s.pool.captureApplyIndex + kJobSlots
  held_ge : ∀ {t i w}, s.round.held t = some (i, w) → s.pool.captureApplyIndex ≤ i
  slots : ∀ {i}, s.pool.captureApplyIndex ≤ i → i < s.pool.head → (s.pool.slot i).index = i
  free : ∀ {i}, s.pool.head ≤ i → i < s.pool.captureApplyIndex + kJobSlots →
    (s.pool.slot i).captureCount = 0
  own : ∀ e ∈ s.rendered, e.2 = e.1 ∧ e.1 < s.pool.head
  order : s.applied.Pairwise fun later earlier => earlier.1 < later.1
  applied : ∀ e ∈ s.applied, e.2 = e.1 ∧ e.1 < s.pool.captureApplyIndex

/-! ### Slots -/

theorem slot_setSlot (p : LinePool) (i j : Nat) (job : LineJob) :
    (p.setSlot i job).slot j = if j % kJobSlots = i % kJobSlots then job else p.slot j := by
  unfold LinePool.slot LinePool.setSlot
  by_cases hslot : j % kJobSlots = i % kJobSlots
  · rw [if_pos hslot, hslot]
    exact Function.update_self ..
  · rw [if_neg hslot]
    exact Function.update_of_ne hslot ..

theorem slot_congr (p : LinePool) {i j : Nat} (h : j % kJobSlots = i % kJobSlots) :
    p.slot j = p.slot i := by
  unfold LinePool.slot
  rw [h]

/-- Two indices of one window have different slots. -/
theorem slot_ne (base : Nat) {i j : Nat} (hi : base ≤ i) (hib : i < base + kJobSlots) (hj : base ≤ j)
    (hjb : j < base + kJobSlots) (hne : i ≠ j) : i % kJobSlots ≠ j % kJobSlots := by
  unfold kJobSlots at *
  omega

/-! ### Steps that move frames -/

theorem Resumes.of_eq {p p' : LinePool} {base : List LineFrame} (h : p.Resumes base)
    (hlatched : p.Latched → p'.Latched) : p'.Resumes base := by
  unfold LinePool.Resumes at h ⊢
  split at h
  all_goals first
    | trivial
    | exact hlatched h

/-- A scheduler stack stays what it is while other threads claim and count. -/
theorem schedulerShape_mono {p p' : LinePool} {frames : List LineFrame}
    (h : SchedulerShape p frames) (hhead : p'.head = p.head) (hclaim : p.claim ≤ p'.claim)
    (hdone : p.done ≤ p'.done) (happly : p'.captureApplyIndex = p.captureApplyIndex)
    (hindex : (p'.slot p.head).index = (p.slot p.head).index) : SchedulerShape p' frames := by
  have hlatched : p.Latched → p'.Latched := by
    unfold LinePool.Latched
    rw [hhead, happly, hindex]
    exact id
  unfold SchedulerShape at h ⊢
  split at h
  all_goals first
    | trivial
    | exact hhead ▸ happly ▸ h
    | exact hlatched h
    | exact Resumes.of_eq h hlatched
    | exact ⟨h.1.trans hhead.symm, Resumes.of_eq h.2 hlatched⟩
    | exact ⟨h.1.trans hhead.symm, hhead ▸ h.2.1.trans hclaim, Resumes.of_eq h.2.2 hlatched⟩
    | exact ⟨h.1.trans hhead.symm, hhead ▸ h.2.1.trans hdone, Resumes.of_eq h.2.2 hlatched⟩
    | exact ⟨h.1.trans hhead.symm, hhead ▸ h.2.1, Resumes.of_eq h.2.2 hlatched⟩
    | exact ⟨h.1, h.2.1.trans hhead.symm, Resumes.of_eq h.2.2 hlatched⟩
    | exact ⟨happly.trans (h.1.trans hhead.symm), Resumes.of_eq h.2 hlatched⟩

theorem shaped_mono {p p' : LinePool} {t : Option (Fin n)} {frames : List LineFrame}
    (h : Shaped p t frames) (hhead : p'.head = p.head) (hclaim : p.claim ≤ p'.claim)
    (hdone : p.done ≤ p'.done) (happly : p'.captureApplyIndex = p.captureApplyIndex)
    (hindex : (p'.slot p.head).index = (p.slot p.head).index) : Shaped p' t frames := by
  cases t with
  | none => exact schedulerShape_mono h hhead hclaim hdone happly hindex
  | some i =>
      unfold Shaped
      rw [hhead]
      exact h

theorem held_setCalls (frames : List LineFrame) :
    (s.setCalls t frames).round.held = Function.update s.round.held t (heldBy frames) := by
  funext t'
  change heldBy (Function.update s.calls t frames t') = _
  by_cases hthread : t' = t
  · subst hthread
    rw [Function.update_self, Function.update_self]
  · rw [Function.update_of_ne hthread, Function.update_of_ne hthread]
    rfl

theorem shape_setCalls {p : LinePool} {calls : Option (Fin n) → List LineFrame}
    (h : ∀ t', t' ≠ t → Shaped p t' (calls t')) {frames : List LineFrame}
    (hframes : Shaped p t frames) (t' : Option (Fin n)) :
    Shaped p t' (Function.update calls t frames t') := by
  by_cases hthread : t' = t
  · subst hthread
    rw [Function.update_self]
    exact hframes
  · rw [Function.update_of_ne hthread]
    exact h t' hthread

/-- Steps that touch no counter and no slot: `pool` differs in the flags only. -/
theorem Orderly.quiet (h : s.Orderly) {pool : LinePool} {frames : List LineFrame}
    (hhead : pool.head = s.pool.head) (hclaim : pool.claim = s.pool.claim)
    (hdone : pool.done = s.pool.done) (happly : pool.captureApplyIndex = s.pool.captureApplyIndex)
    (hjobs : pool.jobs = s.pool.jobs) (hheld : heldBy frames = heldBy (s.calls t))
    (hshape : Shaped pool t frames) : ((s.setPool pool).setCalls t frames).Orderly := by
  have hslot : ∀ i, pool.slot i = s.pool.slot i := fun i => by
    unfold LinePool.slot
    rw [hjobs]
  have hsame : ((s.setPool pool).setCalls t frames).round.held = s.round.held := by
    rw [held_setCalls, hheld]
    exact Function.update_eq_self t s.round.held
  exact {
    round := by
      have hround : ((s.setPool pool).setCalls t frames).round.Tracked s.pool.head True :=
        h.round.of_eq hclaim hdone hsame (fun _ => rfl)
      rw [← hhead] at hround
      exact hround
    shape := shape_setCalls (fun t' _ => shaped_mono (h.shape t') hhead hclaim.ge hdone.ge happly
      (congrArg LineJob.index (hslot _))) hshape
    claim_le := hclaim.le.trans (h.claim_le.trans hhead.ge)
    apply_le := happly.le.trans (h.apply_le.trans hclaim.ge)
    window := hhead.le.trans (h.window.trans (Nat.add_le_add_right happly.ge _))
    held_ge := fun hticket => happly.le.trans (h.held_ge (hsame ▸ hticket))
    slots := fun hi hlt =>
      (congrArg LineJob.index (hslot _)).trans (h.slots (happly ▸ hi) (hhead ▸ hlt))
    free := fun hi hlt => (congrArg LineJob.captureCount (hslot _)).trans
      (h.free (hhead ▸ hi) (happly ▸ hlt))
    own := fun e he => ⟨(h.own e he).1, (h.own e he).2.trans_le hhead.ge⟩
    order := h.order
    applied := fun e he => ⟨(h.applied e he).1, (h.applied e he).2.trans_le happly.ge⟩ }

theorem Orderly.move (h : s.Orderly) {frames : List LineFrame}
    (hheld : heldBy frames = heldBy (s.calls t)) (hshape : Shaped s.pool t frames) :
    (s.setCalls t frames).Orderly := by
  have hmoved : ((s.setPool s.pool).setCalls t frames).Orderly :=
    h.quiet rfl rfl rfl rfl rfl hheld hshape
  exact hmoved

/-! ### Steps on jobs -/

/-- A thread takes the next published job. -/
theorem Orderly.claims (h : s.Orderly) {frames : List LineFrame} (hfree : heldBy (s.calls t) = none)
    (hlt : s.pool.claim < s.pool.head) (hheld : heldBy frames = some (s.pool.claim, false))
    (hshape : Shaped s.claimJob.pool t frames) : (s.claimJob.setCalls t frames).Orderly where
  round := by
    refine (h.round.claim hfree hlt).of_eq rfl rfl ?_ (fun _ => rfl)
    rw [held_setCalls, hheld]
    rfl
  shape := by
    have hothers : ∀ t', t' ≠ t → Shaped s.claimJob.pool t' (s.calls t') := fun t' _ =>
      shaped_mono (h.shape t') rfl (Nat.le_succ _) (Nat.le_refl _) rfl rfl
    exact shape_setCalls hothers hshape
  claim_le := hlt
  apply_le := Nat.le_succ_of_le h.apply_le
  window := h.window
  held_ge hticket := by
    rw [held_setCalls, hheld] at hticket
    rcases TicketRound.update_held hticket with ⟨-, heq⟩ | ⟨-, hold⟩
    · cases heq
      exact h.apply_le
    · exact h.held_ge hold
  slots := h.slots
  free := h.free
  own := h.own
  order := h.order
  applied := h.applied

/-- A thread counts the job it has rendered. -/
theorem Orderly.counts (h : s.Orderly) {frames : List LineFrame} {i : Nat}
    (hticket : heldBy (s.calls t) = some (i, true)) (hheld : heldBy frames = none)
    (hshape : Shaped s.countJob.pool t frames) : (s.countJob.setCalls t frames).Orderly where
  round := by
    refine (h.round.giveBack hticket (Nat.le_refl 1) (fun _ => rfl)).of_eq rfl rfl ?_ (fun _ => rfl)
    rw [held_setCalls, hheld]
    rfl
  shape := by
    have hothers : ∀ t', t' ≠ t → Shaped s.countJob.pool t' (s.calls t') := fun t' _ =>
      shaped_mono (h.shape t') rfl (Nat.le_refl _) (Nat.le_succ _) rfl rfl
    exact shape_setCalls hothers hshape
  claim_le := h.claim_le
  apply_le := h.apply_le
  window := h.window
  held_ge hother := by
    rw [held_setCalls, hheld] at hother
    rcases TicketRound.update_held hother with ⟨-, heq⟩ | ⟨-, hold⟩
    · cases heq
    · exact h.held_ge hold
  slots := h.slots
  free := h.free
  own := h.own
  order := h.order
  applied := h.applied

theorem renderCount_finish (index : Nat) (mapped : Bool) :
    (s.finishRender index mapped).renderCount =
      Function.update s.renderCount index (s.renderCount index + 1) := by
  funext x
  unfold renderCount finishRender
  dsimp only
  rw [List.countP_cons]
  by_cases hx : x = index
  · subst hx
    rw [Function.update_self]
    simp
  · rw [Function.update_of_ne hx]
    simp [Ne.symm hx]

theorem staged_index (job : LineJob) (mapped : Bool) : (staged job mapped).index = job.index := by
  unfold staged
  split
  · rfl
  · rfl

/-- A thread finishes rendering: the slot it wrote to is in use. -/
theorem Orderly.renders (h : s.Orderly) {frames : List LineFrame} {i : Nat} {mapped : Bool}
    (hticket : heldBy (s.calls t) = some (i, false)) (hheld : heldBy frames = some (i, true))
    (hshape : Shaped s.pool t frames) : ((s.finishRender i mapped).setCalls t frames).Orderly := by
  obtain ⟨hhead, hclaim⟩ := h.round.sound.held_lt hticket
  have happly : s.pool.captureApplyIndex ≤ i := h.held_ge hticket
  have hindex : ∀ j, ((s.finishRender i mapped).pool.slot j).index = (s.pool.slot j).index := by
    intro j
    change ((s.pool.setSlot i (staged (s.pool.slot i) mapped)).slot j).index = _
    rw [slot_setSlot]
    split
    · next hslot => rw [staged_index, slot_congr s.pool hslot]
    · rfl
  exact {
    round := by
      refine (h.round.work hticket).of_eq rfl rfl ?_ (congrFun (renderCount_finish i mapped))
      rw [held_setCalls, hheld]
      rfl
    shape := by
      have hmono : ∀ {t' : Option (Fin n)} {calls : List LineFrame}, Shaped s.pool t' calls →
          Shaped (s.finishRender i mapped).pool t' calls := fun hold =>
        shaped_mono hold rfl (Nat.le_refl _) (Nat.le_refl _) rfl (hindex _)
      exact shape_setCalls (fun t' _ => hmono (h.shape t')) (hmono hshape)
    claim_le := h.claim_le
    apply_le := h.apply_le
    window := h.window
    held_ge := fun hother => by
      rw [held_setCalls, hheld] at hother
      rcases TicketRound.update_held hother with ⟨-, heq⟩ | ⟨-, hold⟩
      · cases heq
        exact happly
      · exact h.held_ge hold
    slots := fun hj hlt => (hindex _).trans (h.slots hj hlt)
    free := fun {j} hj hlt => by
      change ((s.pool.setSlot i (staged (s.pool.slot i) mapped)).slot j).captureCount = 0
      have hwindow := h.window
      have hjhead : s.pool.head ≤ j := hj
      have hne : j % kJobSlots ≠ i % kJobSlots :=
        slot_ne _ (happly.trans (by omega)) hlt happly (by omega) (by omega)
      rw [slot_setSlot, if_neg hne]
      exact h.free hj hlt
    own := List.forall_mem_cons.mpr ⟨⟨h.slots happly hhead, hhead⟩, h.own⟩
    order := h.order
    applied := h.applied }

/-- A drain that found every job counted applies the next capture. -/
theorem Orderly.applies (h : s.Orderly) (hdone : s.pool.head ≤ s.pool.done)
    (hlt : s.pool.captureApplyIndex < s.pool.head) {frames : List LineFrame}
    (hheld : heldBy frames = heldBy (s.calls t))
    (hother : ∀ t', t' ≠ t → Shaped s.applyNext.pool t' (s.calls t'))
    (hshape : Shaped s.applyNext.pool t frames) : (s.applyNext.setCalls t frames).Orderly := by
  obtain ⟨-, hnone, hclaim⟩ := h.round.sound.finished hdone
  have hclaimed : s.pool.head ≤ s.pool.claim := hclaim
  have hslot : ∀ j, s.applyNext.pool.slot j =
      if j % kJobSlots = s.pool.captureApplyIndex % kJobSlots then
        { s.pool.slot s.pool.captureApplyIndex with captureCount := 0 } else s.pool.slot j := by
    intro j
    exact slot_setSlot ..
  have happlied : s.applyNext.applied =
      if (s.pool.slot s.pool.captureApplyIndex).captureCount = 0 then s.applied
      else (s.pool.captureApplyIndex, (s.pool.slot s.pool.captureApplyIndex).index) :: s.applied :=
    rfl
  have hsame : (s.applyNext.setCalls t frames).round.held = s.round.held := by
    rw [held_setCalls, hheld]
    exact Function.update_eq_self t s.round.held
  exact {
    round := h.round.of_eq rfl rfl hsame (fun _ => rfl)
    shape := shape_setCalls hother hshape
    claim_le := h.claim_le
    apply_le := Nat.succ_le_of_lt (hlt.trans_le hclaimed)
    window := h.window.trans (Nat.add_le_add_right (Nat.le_succ _) _)
    held_ge := fun {t' i w} hticket => by
      rw [hsame, hnone t'] at hticket
      cases hticket
    slots := fun {j} hj hjlt => by
      have hjge : s.pool.captureApplyIndex + 1 ≤ j := hj
      have hjhead : j < s.pool.head := hjlt
      have hwindow := h.window
      change (s.applyNext.pool.slot j).index = j
      rw [hslot, if_neg (slot_ne s.pool.captureApplyIndex (by omega) (by omega)
        (Nat.le_refl _) (by unfold kJobSlots; omega) (by omega))]
      exact h.slots (by omega) hjlt
    free := fun {j} hj hjlt => by
      have hjhead : s.pool.head ≤ j := hj
      have hbound : j < s.pool.captureApplyIndex + 1 + kJobSlots := hjlt
      change (s.applyNext.pool.slot j).captureCount = 0
      rw [hslot]
      split
      · rfl
      · next hne =>
          refine h.free hj (Nat.lt_of_le_of_ne (by omega) fun heq => hne ?_)
          rw [heq]
          exact Nat.add_mod_right _ _
    own := h.own
    order := by
      change s.applyNext.applied.Pairwise _
      rw [happlied]
      split
      · exact h.order
      · exact List.pairwise_cons.mpr ⟨fun e he => (h.applied e he).2, h.order⟩
    applied := by
      have hold : ∀ e ∈ s.applied, e.2 = e.1 ∧ e.1 < s.pool.captureApplyIndex + 1 :=
        fun e he => ⟨(h.applied e he).1, (h.applied e he).2.trans (Nat.lt_succ_self _)⟩
      change ∀ e ∈ s.applyNext.applied, e.2 = e.1 ∧ e.1 < s.pool.captureApplyIndex + 1
      rw [happlied]
      split
      · exact hold
      · exact List.forall_mem_cons.mpr ⟨⟨h.slots (Nat.le_refl _) hlt, Nat.lt_succ_self _⟩, hold⟩ }

/-- The scheduler latches a line into the slot at `head`, which is free. -/
theorem Orderly.latches (h : s.Orderly) (hroom : s.pool.head < s.pool.captureApplyIndex + kJobSlots)
    {job : LineJob} {frames : List LineFrame} (hheld : heldBy frames = heldBy (s.calls none))
    (hshape : SchedulerShape (s.latchLine job).pool frames) :
    ((s.latchLine job).setCalls none frames).Orderly := by
  have happly : s.pool.captureApplyIndex ≤ s.pool.head := h.apply_le.trans h.claim_le
  have hslot : ∀ j, (s.latchLine job).pool.slot j =
      if j % kJobSlots = s.pool.head % kJobSlots then
        { job with index := s.pool.head, captureCount := (s.pool.slot s.pool.head).captureCount }
      else s.pool.slot j := fun j => slot_setSlot ..
  have hsame : ((s.latchLine job).setCalls none frames).round.held = s.round.held := by
    rw [held_setCalls, hheld]
    exact Function.update_eq_self none s.round.held
  exact {
    round := h.round.of_eq rfl rfl hsame (fun _ => rfl)
    shape := by
      have hothers : ∀ t', t' ≠ none → Shaped (s.latchLine job).pool t' (s.calls t') := by
        intro t' hne
        cases t' with
        | none => exact absurd rfl hne
        | some i => exact h.shape (some i)
      exact shape_setCalls hothers hshape
    claim_le := h.claim_le
    apply_le := h.apply_le
    window := h.window
    held_ge := fun hticket => h.held_ge (hsame ▸ hticket)
    slots := fun {j} hj hlt => by
      have hjhead : j < s.pool.head := hlt
      have hjapply : s.pool.captureApplyIndex ≤ j := hj
      change ((s.latchLine job).pool.slot j).index = j
      rw [hslot, if_neg (slot_ne _ hjapply (by omega) happly hroom (by omega))]
      exact h.slots hj hlt
    free := fun {j} hj hlt => by
      change ((s.latchLine job).pool.slot j).captureCount = 0
      rw [hslot]
      split
      · exact h.free (Nat.le_refl _) hroom
      · exact h.free hj hlt
    own := h.own
    order := h.order
    applied := h.applied }

theorem latchLine_latched (hroom : s.pool.head < s.pool.captureApplyIndex + kJobSlots)
    (job : LineJob) : (s.latchLine job).pool.Latched := by
  refine ⟨hroom, ?_⟩
  have hslot : (s.latchLine job).pool.slot s.pool.head =
      { job with index := s.pool.head, captureCount := (s.pool.slot s.pool.head).captureCount } := by
    refine (slot_setSlot ..).trans (if_pos rfl)
  exact congrArg LineJob.index hslot

theorem workerShape_publish {head : Nat} {frames : List LineFrame} (h : WorkerShape head frames) :
    WorkerShape (head + 1) frames := by
  unfold WorkerShape at h ⊢
  split at h
  all_goals first
    | trivial
    | exact Nat.lt_succ_of_lt h

/-- The scheduler publishes the line it has latched. -/
theorem Orderly.publishes (h : s.Orderly) (hlatched : s.pool.Latched) {job : LineJob}
    {frames : List LineFrame} (hheld : heldBy frames = heldBy (s.calls none))
    (hshape : SchedulerShape (s.publish job).pool frames) :
    ((s.publish job).setCalls none frames).Orderly := by
  have hsame : ((s.publish job).setCalls none frames).round.held = s.round.held := by
    rw [held_setCalls, hheld]
    exact Function.update_eq_self none s.round.held
  have hnext : s.round.next ≤ s.pool.head := h.claim_le
  exact {
    round := (h.round.grow (Nat.le_succ _) hnext).of_eq rfl rfl hsame (fun _ => rfl)
    shape := by
      have hothers : ∀ t', t' ≠ none → Shaped (s.publish job).pool t' (s.calls t') := by
        intro t' hne
        cases t' with
        | none => exact absurd rfl hne
        | some i => exact workerShape_publish (h.shape (some i))
      exact shape_setCalls hothers hshape
    claim_le := Nat.le_succ_of_le h.claim_le
    apply_le := h.apply_le
    window := hlatched.1
    held_ge := fun hticket => h.held_ge (hsame ▸ hticket)
    slots := fun {j} hj hlt => by
      rcases Nat.lt_succ_iff_lt_or_eq.mp hlt with hold | rfl
      · exact h.slots hj hold
      · exact hlatched.2
    free := fun {j} hj hlt => h.free (Nat.le_of_succ_le hj) hlt
    own := fun e he => ⟨(h.own e he).1, Nat.lt_succ_of_lt (h.own e he).2⟩
    order := h.order
    applied := h.applied }

/-! ### One step of a thread -/

theorem Orderly.workerStep (h : s.Orderly) {i : Fin n} {frame : LineFrame} {rest : List LineFrame}
    (hcalls : s.calls (some i) = frame :: rest) {spurious mapped : Bool}
    (hfence : ∀ index reads, frame = .render index reads → (s.pool.slot index).displaysVram = true →
      reads < vramPixels → s.pool.stagedCaptures = false) :
    (s.frameStep (some i) rest spurious mapped frame).Orderly := by
  have hshape : WorkerShape s.pool.head (frame :: rest) := hcalls ▸ h.shape (some i)
  have hheld : ∀ ticket, heldBy (frame :: rest) = ticket → heldBy (s.calls (some i)) = ticket :=
    fun _ heq => (congrArg heldBy hcalls).trans heq
  cases frame with
  | claimLoad =>
      cases rest with
      | nil => exact h.move (hheld none rfl).symm trivial
      | cons _ _ => cases hshape
  | headLoad c =>
      cases rest with
      | nil =>
          dsimp only [frameStep]
          split
          · next hlt => exact h.move (hheld none rfl).symm hlt
          · exact h.move (hheld none rfl).symm trivial
      | cons _ _ => cases hshape
  | claimCas c =>
      cases rest with
      | nil =>
          dsimp only [frameStep]
          split
          · exact h.move (hheld none rfl).symm trivial
          · next hwon =>
              obtain rfl : s.pool.claim = c := not_not.mp fun hne => hwon (Or.inr hne)
              exact h.claims (hheld none rfl) hshape rfl rfl
      | cons _ _ => cases hshape
  | sleep =>
      cases rest with
      | nil => exact h.move (hheld none rfl).symm trivial
      | cons _ _ => cases hshape
  | workerCount index =>
      cases rest with
      | nil => exact h.counts (hheld (some (index, true)) rfl) rfl trivial
      | cons _ _ => cases hshape
  | workerSignal =>
      cases rest with
      | nil => exact h.move (hheld none rfl).symm trivial
      | cons _ _ => cases hshape
  | render index reads =>
      cases rest with
      | nil => cases hshape
      | cons below rest =>
          cases rest with
          | cons _ _ => cases below <;> cases hshape
          | nil =>
              cases below with
              | workerCount index' =>
                  obtain rfl : index' = index := hshape
                  dsimp only [frameStep]
                  split
                  · next hpixel =>
                      rw [hfence index' reads rfl hpixel.1 hpixel.2, if_neg Bool.false_ne_true]
                      exact h.move (hheld (some (index', false)) rfl).symm rfl
                  · exact h.renders (hheld (some (index', false)) rfl) rfl trivial
              | _ => cases hshape
  | _ => cases rest <;> cases hshape

theorem resumes_held {p : LinePool} {base : List LineFrame} (h : p.Resumes base) :
    heldBy base = none := by
  unfold LinePool.Resumes at h
  split at h
  all_goals first
    | rfl
    | cases h

/-- After a drain the applied captures have caught up with the ring. -/
theorem resumes_shape {p : LinePool} {base : List LineFrame} (h : p.Resumes base)
    (happly : p.captureApplyIndex = p.head) : SchedulerShape p base := by
  unfold LinePool.Resumes at h
  split at h
  · trivial
  · change p.head < p.captureApplyIndex + kJobSlots
    rw [happly]
    exact Nat.lt_add_of_pos_right (by decide)
  · exact h
  · cases h

theorem applyNext_index (j : Nat) : (s.applyNext.pool.slot j).index = (s.pool.slot j).index := by
  have hslot : s.applyNext.pool.slot j =
      if j % kJobSlots = s.pool.captureApplyIndex % kJobSlots then
        { s.pool.slot s.pool.captureApplyIndex with captureCount := 0 } else s.pool.slot j :=
    slot_setSlot ..
  rw [hslot]
  split
  · next heq => rw [slot_congr s.pool heq]
  · rfl

theorem applyNext_latched (h : s.pool.Latched) : s.applyNext.pool.Latched :=
  ⟨h.1.trans (Nat.add_lt_add_right (Nat.lt_succ_self _) _), (applyNext_index _).trans h.2⟩

theorem Orderly.schedulerStep (h : s.Orderly) {frame : LineFrame} {rest : List LineFrame}
    (hcalls : s.calls none = frame :: rest) {spurious mapped : Bool}
    (hfence : ∀ index reads, frame = .render index reads → (s.pool.slot index).displaysVram = true →
      reads < vramPixels → s.pool.stagedCaptures = false)
    (hroom : ∀ job, frame = .submitCheck job →
      s.pool.head < s.pool.captureApplyIndex + kJobSlots ∨ kJobSlots ≤ s.pool.head - s.pool.done) :
    (s.frameStep none rest spurious mapped frame).Orderly := by
  have hshape : SchedulerShape s.pool (frame :: rest) := hcalls ▸ h.shape none
  have hheld : ∀ ticket, heldBy (frame :: rest) = ticket → ticket = heldBy (s.calls none) :=
    fun _ heq => (congrArg heldBy hcalls |>.trans heq).symm
  have happly : s.pool.captureApplyIndex ≤ s.pool.head := h.apply_le.trans h.claim_le
  cases frame with
  | render index reads =>
      cases rest with
      | nil => cases hshape
      | cons below rest =>
          cases below with
          | drainCount target index' =>
              obtain ⟨rfl, htarget, hbase⟩ : index' = index ∧ target = s.pool.head ∧
                s.pool.Resumes rest := hshape
              dsimp only [frameStep]
              split
              · next hpixel =>
                  rw [hfence index' reads rfl hpixel.1 hpixel.2, if_neg Bool.false_ne_true]
                  exact h.move (hheld _ rfl) ⟨rfl, htarget, hbase⟩
              · exact h.renders (hheld _ rfl).symm rfl ⟨htarget, hbase⟩
          | _ => cases hshape
  | drainHead => exact h.move (hheld none rfl) ⟨rfl, hshape⟩
  | drainDone target =>
      obtain ⟨htarget, hbase⟩ : target = s.pool.head ∧ s.pool.Resumes rest := hshape
      dsimp only [frameStep]
      split
      · next hdone => exact h.move (hheld none rfl) ⟨htarget, htarget ▸ hdone, hbase⟩
      · exact h.move (hheld none rfl) ⟨htarget, hbase⟩
  | drainClaim target =>
      obtain ⟨htarget, hbase⟩ : target = s.pool.head ∧ s.pool.Resumes rest := hshape
      dsimp only [frameStep]
      split
      · next hclaimed => exact h.move (hheld none rfl) ⟨htarget, htarget ▸ hclaimed, hbase⟩
      · next hopen =>
          exact h.move (hheld none rfl) ⟨htarget, htarget ▸ Nat.lt_of_not_le hopen, hbase⟩
  | drainCas target c =>
      obtain ⟨htarget, hlt, hbase⟩ : target = s.pool.head ∧ c < s.pool.head ∧
        s.pool.Resumes rest := hshape
      dsimp only [frameStep]
      split
      · exact h.move (hheld none rfl) ⟨htarget, hbase⟩
      · next hwon =>
          obtain rfl : s.pool.claim = c := not_not.mp fun hne => hwon (Or.inr hne)
          exact h.claims (hheld none rfl).symm hlt rfl ⟨rfl, htarget, hbase⟩
  | drainCount target index => exact h.counts (hheld _ rfl).symm rfl hshape
  | drainWait target =>
      obtain ⟨htarget, hclaimed, hbase⟩ : target = s.pool.head ∧ s.pool.head ≤ s.pool.claim ∧
        s.pool.Resumes rest := hshape
      dsimp only [frameStep]
      split
      · next hdone => exact h.move (hheld none rfl) ⟨htarget, htarget ▸ hdone, hbase⟩
      · exact h.move (hheld none rfl) ⟨htarget, hclaimed, hbase⟩
  | drainClear target => exact h.quiet rfl rfl rfl rfl rfl (hheld none rfl) hshape
  | drainApply target =>
      obtain ⟨htarget, hdone, hbase⟩ : target = s.pool.head ∧ s.pool.head ≤ s.pool.done ∧
        s.pool.Resumes rest := hshape
      dsimp only [frameStep]
      split
      · next hlt =>
          have hothers : ∀ t', t' ≠ none → Shaped s.applyNext.pool t' (s.calls t') := by
            intro t' hne
            cases t' with
            | none => exact absurd rfl hne
            | some i => exact h.shape (some i)
          exact h.applies hdone (htarget ▸ hlt) (hheld none rfl) hothers
            ⟨htarget, hdone, Resumes.of_eq hbase applyNext_latched⟩
      · next hge =>
          have hall : s.pool.captureApplyIndex = s.pool.head :=
            Nat.le_antisymm happly (htarget ▸ Nat.le_of_not_lt hge)
          exact h.quiet rfl rfl rfl rfl rfl (hheld none rfl) ⟨hall, hbase⟩
  | drainUnstage =>
      obtain ⟨hall, hbase⟩ : s.pool.captureApplyIndex = s.pool.head ∧ s.pool.Resumes rest := hshape
      have hnone : heldBy rest = heldBy (s.calls none) := (resumes_held hbase).trans (hheld none rfl)
      exact h.quiet rfl rfl rfl rfl rfl hnone
        (schedulerShape_mono (resumes_shape hbase hall) rfl (Nat.le_refl _) (Nat.le_refl _) rfl rfl)
  | submitCheck job =>
      cases rest with
      | cons _ _ => cases hshape
      | nil =>
          dsimp only [frameStep]
          split
          · exact h.move (hheld none rfl) trivial
          · next hskip =>
              rcases hroom job rfl with hfew | hfull
              · exact h.move (hheld none rfl) hfew
              · exact absurd hfull hskip
  | submitLatch job =>
      cases rest with
      | cons _ _ => cases hshape
      | nil =>
          dsimp only [frameStep]
          split
          · exact h.latches hshape (hheld none rfl) (latchLine_latched hshape job)
          · exact h.latches hshape (hheld none rfl) (latchLine_latched hshape job)
  | submitPublish job =>
      cases rest with
      | cons _ _ => cases hshape
      | nil => exact h.publishes hshape (hheld none rfl) trivial
  | submitOutstanding job =>
      cases rest with
      | cons _ _ => cases hshape
      | nil =>
          dsimp only [frameStep]
          split
          · exact h.quiet rfl rfl rfl rfl rfl (hheld none rfl) trivial
          · exact h.quiet rfl rfl rfl rfl rfl (hheld none rfl) trivial
  | submitStaged =>
      cases rest with
      | cons _ _ => cases hshape
      | nil => exact h.quiet rfl rfl rfl rfl rfl (hheld none rfl) trivial
  | readFence =>
      cases rest with
      | cons _ _ => cases hshape
      | nil =>
          dsimp only [frameStep]
          split
          · exact h.move (hheld none rfl) trivial
          · exact h.move (hheld none rfl) trivial
  | memoryFence =>
      cases rest with
      | cons _ _ => cases hshape
      | nil =>
          dsimp only [frameStep]
          split
          · exact h.move (hheld none rfl) trivial
          · exact h.move (hheld none rfl) trivial
  | _ => cases rest <;> cases hshape

theorem orderly_start : (({} : LineState n)).Orderly where
  round := TicketRound.tracked_start rfl rfl
    (fun t => by
      cases t with
      | none => rfl
      | some i => rfl)
    (fun _ => rfl)
  shape t := by
    cases t with
    | none => trivial
    | some i => trivial
  claim_le := Nat.le_refl _
  apply_le := Nat.le_refl _
  window := Nat.zero_le _
  held_ge _ := Nat.zero_le _
  slots _ hlt := absurd hlt (Nat.not_lt_zero _)
  free _ _ := rfl
  own _ he := by cases he
  order := List.Pairwise.nil
  applied _ he := by cases he

theorem Orderly.step (h : s.Orderly) {op : LineOp n} (hadmits : op.admitted s) (hfenced : s.Fenced op) :
    (s.next op).Orderly := by
  cases op with
  | request r =>
      have hidle : s.calls none = [] := hadmits
      have hnone : none = heldBy (s.calls none) := by
        rw [hidle]
        rfl
      cases r with
      | submit job => exact h.move hnone trivial
      | videoRead => exact h.move hnone trivial
      | videoWrite => exact h.move hnone trivial
      | drain => exact h.move hnone trivial
  | step t spurious mapped =>
      obtain ⟨hfence, hroom⟩ := hfenced
      change (s.threadStep t spurious mapped).Orderly
      unfold threadStep
      cases hcalls : s.calls t with
      | nil => exact h
      | cons frame rest =>
          have hpixel : ∀ index reads, frame = .render index reads →
              (s.pool.slot index).displaysVram = true → reads < vramPixels →
                s.pool.stagedCaptures = false := fun index reads heq =>
            hfence index reads rest (heq ▸ hcalls)
          cases t with
          | none => exact h.schedulerStep hcalls hpixel fun job heq => hroom job rest (heq ▸ hcalls)
          | some i => exact h.workerStep hcalls hpixel

/-! ### What order gives -/

theorem heldBy_render {frames : List LineFrame} {i : Nat} (h : heldBy frames = some (i, false)) :
    ∃ reads rest, frames = .render i reads :: rest := by
  unfold heldBy at h
  split at h
  · cases h
    exact ⟨_, _, rfl⟩
  all_goals cases h

theorem heldBy_busy {frames : List LineFrame} (h : ∀ frame ∈ frames, frame.busy = false) :
    heldBy frames = none := by
  unfold heldBy
  split
  all_goals first
    | rfl
    | exact absurd (h _ List.mem_cons_self) Bool.noConfusion

theorem Orderly.renderCount_cases (h : s.Orderly) {i : Nat} (hi : i < s.pool.claim) :
    (∃ t, s.round.held t = some (i, false)) ∨ s.renderCount i = 1 := by
  by_cases hfree : s.round.Free i
  · exact Or.inr (h.round.sound.worked_free (hi.trans_le h.claim_le) hi hfree)
  · unfold TicketRound.Free at hfree
    push Not at hfree
    obtain ⟨t, w, hticket⟩ := hfree
    cases w with
    | false => exact Or.inl ⟨t, hticket⟩
    | true => exact Or.inr (h.round.sound.worked_held hticket)

/-- The only drains are the scheduler's own. -/
theorem Orderly.drainWait (h : s.Orderly) {target : Nat} {rest : List LineFrame}
    (hcalls : s.calls t = .drainWait target :: rest) :
    t = none ∧ target = s.pool.head ∧ s.pool.head ≤ s.pool.claim ∧ s.pool.Resumes rest := by
  have hshape : Shaped s.pool t (.drainWait target :: rest) := hcalls ▸ h.shape t
  cases t with
  | none => exact ⟨rfl, hshape⟩
  | some i =>
      have hworker : WorkerShape s.pool.head (.drainWait target :: rest) := hshape
      cases rest <;> cases hworker

theorem Orderly.disciplined (h : s.Orderly) : s.Disciplined where
  once i := by
    by_cases hi : i < s.pool.claim
    · rcases h.renderCount_cases hi with ⟨t, hticket⟩ | hone
      · have hzero : s.renderCount i = 0 := h.round.sound.worked_held hticket
        exact hzero.le.trans (Nat.zero_le _)
      · exact hone.le
    · have hzero : s.renderCount i = 0 := h.round.sound.worked_new (Nat.le_of_not_lt hi)
      exact hzero.le.trans (Nat.zero_le _)
  published i hi := by
    rcases h.renderCount_cases hi with ⟨t, hticket⟩ | hone
    · obtain ⟨reads, rest, hframes⟩ := heldBy_render hticket
      exact Or.inl ⟨t, reads, hframes ▸ List.mem_cons_self⟩
    · exact Or.inr hone
  own := h.own
  latch job rest hcalls hhead := by
    have hshape : SchedulerShape s.pool (.submitLatch job :: rest) := hcalls ▸ h.shape none
    cases rest with
    | cons _ _ => cases hshape
    | nil =>
        have hroom : s.pool.head < s.pool.captureApplyIndex + kJobSlots := hshape
        have hold : s.pool.head - kJobSlots < s.pool.captureApplyIndex := by omega
        refine ⟨?_, h.free (Nat.le_refl _) hroom⟩
        rcases h.renderCount_cases (hold.trans_le h.apply_le) with ⟨t, hticket⟩ | hone
        · exact absurd (h.held_ge hticket) (Nat.not_le_of_lt hold)
        · exact hone
  order := h.order
  applied_own e he := (h.applied e he).1
  no_self_wait t target rest hcalls i reads hmem := by
    obtain ⟨-, -, -, hbase⟩ := h.drainWait hcalls
    unfold LinePool.Resumes at hbase
    split at hbase
    · cases hmem
    · cases List.mem_singleton.mp hmem
    · cases List.mem_singleton.mp hmem
    · cases hbase
  finish t target rest hcalls hidle := by
    obtain ⟨rfl, htarget, hclaimed, -⟩ := h.drainWait hcalls
    have hnone : ∀ t', s.round.held t' = none := by
      intro t'
      cases t' with
      | none => exact congrArg heldBy hcalls
      | some i => exact heldBy_busy (hidle (some i) (Option.some_ne_none i))
    rw [htarget]
    exact (h.round.complete trivial).finished hclaimed hnone

end LineState

theorem lineSystem_orderly (n : Nat) :
    ((lineSystem n).restrict LineState.Fenced).Invariant LineState.Orderly where
  start := by
    rintro s rfl
    exact LineState.orderly_start
  step := by
    rintro s op h ⟨hadmits, hfenced⟩
    exact h.step hadmits hfenced

/-- Shows VRAM block 0 and captures into bank 1. -/
def vramCaptureLine : LineJob where
  dispcnt := 0x00020000
  capture := 0x80310000
  cap := true
  capw := 256
  engineA := true

/-- The scheduler has submitted the line. -/
def vramCaptureSubmitted : LineState 1 :=
  (lineSystem 1).runFrom {} [.request (.submit vramCaptureLine), .step none false true,
    .step none false true, .step none false true]

end NdsRecomp.Video
