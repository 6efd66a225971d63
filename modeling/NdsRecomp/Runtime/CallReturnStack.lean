import Mathlib.Data.List.TakeWhile
import NdsRecomp.Library.FinIndex
import NdsRecomp.Library.OpSystem

/-!
The call-return stack: return addresses pushed by calls, looked up by every
transfer that may be a return, and swapped with the slot of a processor when the
scheduler switches to the other one. A stack is its words below the depth, the
newest first.

What a run has pushed and not returned from is kept beside the machine. A frame
that has always been among the most recent half of its processor's frames is found
again; a full stack keeps its newer half only, so another frame may be lost.
-/

namespace NdsRecomp.Runtime

open Library

/-- `NDS_RUNTIME_CALL_STACK_CAPACITY` -/
def kCRS : Nat := 16384

abbrev Crs := List UInt32

/-- The return address with the processor's instruction set. -/
def crsKey (pc : UInt32) (thumb : Bool) : UInt32 := (pc &&& ~~~1) ||| (if thumb then 1 else 0)

def runtimeCallPushReturn (crs : Crs) (returnPc : UInt32) (thumb : Bool) : Crs :=
  crsKey returnPc thumb :: if kCRS ≤ crs.length then crs.take (kCRS / 2) else crs

/-- The scan runs from the newest word; a hit discards the word and all newer ones. -/
def runtimeCallShouldReturn (crs : Crs) (targetPc : UInt32) (thumb : Bool) : Bool × Crs :=
  match crs.dropWhile (· != crsKey targetPc thumb) with
  | [] => (false, crs)
  | _ :: older => (true, older)

def runtimeCallCancelReturn (crs : Crs) (returnPc : UInt32) : Crs :=
  match crs with
  | [] => []
  | newest :: older => if newest &&& ~~~1 = returnPc &&& ~~~1 then older else crs

/-- The words from the bottom, as many as there is room for. -/
def runtimeCallStackRestore (entries : Crs) : Crs := entries.drop (entries.length - kCRS)

/-! ## The processors' slots -/

/-- `g_cur`, the words below `g_crs_depth`, and those of each `g_slot`. -/
structure CrsSlots where
  cur : Option (Fin 2) := none
  live : Crs := []
  slot : Fin 2 → Crs := fun _ => []

namespace CrsSlots

def saveCurrent (s : CrsSlots) : CrsSlots :=
  match s.cur with
  | none => s
  | some cpu => { s with slot := Function.update s.slot cpu s.live }

def switchTo (s : CrsSlots) (cpu : Fin 2) : CrsSlots :=
  if s.cur = some cpu then s
  else
    { s.saveCurrent with
      cur := some cpu
      live := runtimeCallStackRestore (s.saveCurrent.slot cpu) }

/-- The stack of a processor, wherever it is. -/
def stackOf (s : CrsSlots) (cpu : Fin 2) : Crs := if s.cur = some cpu then s.live else s.slot cpu

@[simp]
theorem switchTo_cur (s : CrsSlots) (cpu : Fin 2) : (s.switchTo cpu).cur = some cpu := by
  unfold switchTo
  split
  · next h => exact h
  · rfl

theorem restore_of_le {entries : Crs} (h : entries.length ≤ kCRS) :
    runtimeCallStackRestore entries = entries := by
  rw [runtimeCallStackRestore, Nat.sub_eq_zero_of_le h, List.drop_zero]

theorem saveCurrent_slot (s : CrsSlots) {cpu : Fin 2} : s.saveCurrent.slot cpu = s.stackOf cpu := by
  unfold saveCurrent stackOf
  cases hcur : s.cur with
  | none => rw [if_neg (by simp)]
  | some running =>
      by_cases h : running = cpu
      · subst h
        simp
      · rw [if_neg (by simpa using h)]
        exact Function.update_of_ne (Ne.symm h) ..

theorem switchTo_slot {s : CrsSlots} {cpu : Fin 2} (h : s.cur ≠ some cpu) (other : Fin 2) :
    (s.switchTo cpu).slot other = s.stackOf other := by
  rw [switchTo, if_neg h]
  exact s.saveCurrent_slot

theorem switchTo_live {s : CrsSlots} {cpu : Fin 2} (h : s.cur ≠ some cpu) :
    (s.switchTo cpu).live = runtimeCallStackRestore (s.stackOf cpu) := by
  rw [switchTo, if_neg h, saveCurrent_slot]

/-- A switch moves stacks and changes none. -/
theorem switchTo_stackOf {s : CrsSlots} (hdepth : ∀ cpu, (s.stackOf cpu).length ≤ kCRS)
    (cpu other : Fin 2) : (s.switchTo cpu).stackOf other = s.stackOf other := by
  by_cases hsame : s.cur = some cpu
  · rw [switchTo, if_pos hsame]
  · by_cases hother : cpu = other
    · subst hother
      rw [stackOf, if_pos (s.switchTo_cur cpu), switchTo_live hsame, restore_of_le (hdepth cpu)]
    · rw [stackOf, if_neg (by rw [switchTo_cur]; simpa using hother), switchTo_slot hsame]

end CrsSlots

/-! ## Runs -/

inductive CrsOp
  | push (returnPc : UInt32) (thumb : Bool)
  | shouldReturn (targetPc : UInt32) (thumb : Bool)
  | cancel (returnPc : UInt32)
  | switchTo (cpu : Fin 2)

/-- A frame that was pushed; `recent` while it has always been among the most recent half. -/
structure Frame where
  key : UInt32
  recent : Bool

namespace Frame

def behindHalf (f : Frame) : Frame := { f with recent := false }

/-- The frames behind the most recent half lose their mark. -/
def mark (frames : List Frame) : List Frame :=
  frames.take (kCRS / 2) ++ (frames.drop (kCRS / 2)).map behindHalf

/-- The frames older than the newest one with this key. -/
def olderThan (key : UInt32) (frames : List Frame) : List Frame :=
  (frames.dropWhile (·.key != key)).tail

end Frame

/-- A machine with the frames each processor has not returned from, the newest first. -/
structure CrsSession where
  machine : CrsSlots := {}
  unreturned : Fin 2 → List Frame := fun _ => []

namespace CrsSession

/-- The running processor's frames after an operation. -/
def onCurrent (s : CrsSession) (f : List Frame → List Frame) : Fin 2 → List Frame :=
  match s.machine.cur with
  | none => s.unreturned
  | some cpu => Function.update s.unreturned cpu (f (s.unreturned cpu))

def next (s : CrsSession) : CrsOp → CrsSession
  | .push returnPc thumb =>
    { machine := { s.machine with live := runtimeCallPushReturn s.machine.live returnPc thumb }
      unreturned := s.onCurrent fun frames => Frame.mark (⟨crsKey returnPc thumb, true⟩ :: frames) }
  | .shouldReturn targetPc thumb =>
    let answer := runtimeCallShouldReturn s.machine.live targetPc thumb
    { machine := { s.machine with live := answer.2 }
      unreturned := if answer.1 then s.onCurrent (Frame.olderThan (crsKey targetPc thumb))
        else s.unreturned }
  | .cancel returnPc =>
    let cancelled := runtimeCallCancelReturn s.machine.live returnPc
    { machine := { s.machine with live := cancelled }
      unreturned := if cancelled.length < s.machine.live.length then s.onCurrent List.tail
        else s.unreturned }
  | .switchTo cpu => { s with machine := s.machine.switchTo cpu }

def run (ops : List CrsOp) : CrsSession := ops.foldl next {}

end CrsSession

/-! ## What the stack holds -/

/-- A stack against the frames that are not returned from: their keys from the newest on,
the marked frames among them. -/
structure Holds (crs : Crs) (frames : List Frame) : Prop where
  keys : crs <+: frames.map Frame.key
  lost : ∀ f ∈ frames.drop crs.length, f.recent = false
  depth : crs.length ≤ kCRS

theorem map_key_mark (frames : List Frame) : (Frame.mark frames).map Frame.key = frames.map Frame.key := by
  have hbehind : Frame.key ∘ Frame.behindHalf = Frame.key := rfl
  rw [Frame.mark, List.map_append, List.map_map, hbehind, ← List.map_append, List.take_append_drop]

theorem recent_of_mem_mark_drop {frames : List Frame} {n : Nat}
    (h : kCRS / 2 ≤ n ∨ ∀ f ∈ frames.drop n, f.recent = false) :
    ∀ f ∈ (Frame.mark frames).drop n, f.recent = false := by
  intro f hf
  rw [Frame.mark, List.drop_append, List.mem_append] at hf
  rcases hf with hf | hf
  · rcases h with hn | hlost
    · rw [List.drop_eq_nil_of_le (by rw [List.length_take]; omega)] at hf
      exact absurd hf List.not_mem_nil
    · rw [List.drop_take] at hf
      exact hlost f (List.mem_of_mem_take hf)
  · rw [← List.map_drop] at hf
    obtain ⟨g, _, rfl⟩ := List.mem_map.mp hf
    rfl

theorem Holds.push {crs : Crs} {frames : List Frame} (h : Holds crs frames) (returnPc : UInt32)
    (thumb : Bool) :
    Holds (runtimeCallPushReturn crs returnPc thumb)
      (Frame.mark (⟨crsKey returnPc thumb, true⟩ :: frames)) := by
  unfold runtimeCallPushReturn
  split
  · next hfull =>
      have hkept : (crs.take (kCRS / 2)).length = kCRS / 2 := by
        rw [List.length_take]
        omega
      refine ⟨?_, ?_, ?_⟩
      · rw [map_key_mark, List.map_cons]
        exact List.cons_prefix_cons.mpr ⟨rfl, (List.take_prefix _ _).trans h.keys⟩
      · refine recent_of_mem_mark_drop (.inl ?_)
        rw [List.length_cons, hkept]
        omega
      · rw [List.length_cons, hkept]
        decide
  · next hroom =>
      refine ⟨?_, recent_of_mem_mark_drop (.inr h.lost), ?_⟩
      · rw [map_key_mark, List.map_cons]
        exact List.cons_prefix_cons.mpr ⟨rfl, h.keys⟩
      · rw [List.length_cons]
        omega

/-- A hit of the scan, taken apart. -/
theorem shouldReturn_hit {crs : Crs} {targetPc : UInt32} {thumb : Bool}
    (h : (runtimeCallShouldReturn crs targetPc thumb).1 = true) :
    ∃ newer older, crs = newer ++ crsKey targetPc thumb :: older ∧
      crsKey targetPc thumb ∉ newer ∧ (runtimeCallShouldReturn crs targetPc thumb).2 = older := by
  unfold runtimeCallShouldReturn at h ⊢
  have hsplit := List.takeWhile_append_dropWhile (p := (· != crsKey targetPc thumb)) (l := crs)
  cases hdrop : crs.dropWhile (· != crsKey targetPc thumb) with
  | nil => simp [hdrop] at h
  | cons found older =>
      have hfound : found = crsKey targetPc thumb := by
        have := List.head_dropWhile_not (l := crs) (· != crsKey targetPc thumb) (by simp [hdrop])
        simpa [hdrop] using this
      refine ⟨crs.takeWhile (· != crsKey targetPc thumb), older, ?_, ?_, rfl⟩
      · rw [← hfound, ← hdrop, hfound, hsplit]
      · intro hmem
        simpa using List.mem_takeWhile_imp hmem

theorem shouldReturn_of_mem {crs : Crs} {targetPc : UInt32} {thumb : Bool}
    (h : crsKey targetPc thumb ∈ crs) : (runtimeCallShouldReturn crs targetPc thumb).1 = true := by
  unfold runtimeCallShouldReturn
  cases hdrop : crs.dropWhile (· != crsKey targetPc thumb) with
  | nil =>
      simpa using List.dropWhile_eq_nil_iff.mp hdrop _ h
  | cons found older => rfl

theorem Holds.olderThan {newer older : Crs} {key : UInt32} {frames : List Frame}
    (h : Holds (newer ++ key :: older) frames) (hnew : key ∉ newer) :
    Holds older (Frame.olderThan key frames) := by
  obtain ⟨behind, hbehind⟩ := h.keys
  rw [List.append_assoc] at hbehind
  obtain ⟨front, back, rfl, hfront, hback⟩ := List.map_eq_append_iff.mp hbehind.symm
  obtain ⟨found, rest, rfl, hfound, hrest⟩ := List.map_eq_cons_iff.mp hback
  have hskip : ∀ f ∈ front, (f.key != key) = true := by
    intro f hf
    have hmem : f.key ∈ newer := hfront ▸ List.mem_map_of_mem hf
    exact bne_iff_ne.mpr fun heq => hnew (heq ▸ hmem)
  have hcut : Frame.olderThan key (front ++ found :: rest) = rest := by
    rw [Frame.olderThan, List.dropWhile_append_of_pos hskip,
      List.dropWhile_cons_of_neg (by simp [hfound]), List.tail_cons]
  rw [hcut]
  refine ⟨⟨behind, hrest.symm⟩, fun f hf => h.lost f ?_, ?_⟩
  · have hlength : (newer ++ key :: older).length = (front ++ [found]).length + older.length := by
      rw [← hfront]
      simp only [List.length_append, List.length_map, List.length_cons, List.length_nil]
      omega
    rw [hlength, ← List.drop_drop, List.append_cons front found rest, List.drop_left]
    exact hf
  · have := h.depth
    rw [List.length_append, List.length_cons] at this
    omega

theorem Holds.shouldReturn {crs : Crs} {frames : List Frame} (h : Holds crs frames)
    {targetPc : UInt32} {thumb : Bool}
    (hhit : (runtimeCallShouldReturn crs targetPc thumb).1 = true) :
    Holds (runtimeCallShouldReturn crs targetPc thumb).2
      (Frame.olderThan (crsKey targetPc thumb) frames) := by
  obtain ⟨newer, older, hcrs, hnew, hrest⟩ := shouldReturn_hit hhit
  rw [hrest]
  exact Holds.olderThan (hcrs ▸ h) hnew

theorem shouldReturn_miss {crs : Crs} {targetPc : UInt32} {thumb : Bool}
    (h : ¬ (runtimeCallShouldReturn crs targetPc thumb).1 = true) :
    (runtimeCallShouldReturn crs targetPc thumb).2 = crs := by
  unfold runtimeCallShouldReturn at h ⊢
  split
  · rfl
  · next hdrop =>
      rw [hdrop] at h
      exact absurd rfl h

theorem Holds.tail {newest : UInt32} {older : Crs} {frames : List Frame}
    (h : Holds (newest :: older) frames) : Holds older frames.tail := by
  obtain ⟨behind, hbehind⟩ := h.keys
  obtain ⟨found, rest, rfl, _, hrest⟩ := List.map_eq_cons_iff.mp hbehind.symm
  exact ⟨⟨behind, hrest.symm⟩, h.lost, Nat.le_of_succ_le h.depth⟩

/-- A marked frame is found. -/
theorem Holds.recognised {crs : Crs} {frames : List Frame} (h : Holds crs frames)
    {targetPc : UInt32} {thumb : Bool}
    (hframe : ∃ f ∈ frames, f.recent = true ∧ f.key = crsKey targetPc thumb) :
    (runtimeCallShouldReturn crs targetPc thumb).1 = true := by
  obtain ⟨f, hf, hrecent, hkey⟩ := hframe
  rw [← List.take_append_drop crs.length frames, List.mem_append] at hf
  rcases hf with hf | hf
  · apply shouldReturn_of_mem
    rw [← hkey, List.prefix_iff_eq_take.mp h.keys, ← List.map_take]
    exact List.mem_map_of_mem hf
  · rw [h.lost f hf] at hrecent
    cases hrecent

/-! ## Every run -/

namespace CrsSession

/-- Both processors' stacks hold their frames. -/
def Sound (s : CrsSession) : Prop := ∀ cpu, Holds (s.machine.stackOf cpu) (s.unreturned cpu)

/-- An operation on the stack of the running processor. -/
theorem Sound.onLive {s : CrsSession} (h : s.Sound) {live : Crs} {f : List Frame → List Frame}
    (hlive : ∀ frames, Holds s.machine.live frames → Holds live (f frames)) :
    Sound { machine := { s.machine with live := live }, unreturned := s.onCurrent f } := by
  intro cpu
  have hcpu := h cpu
  unfold CrsSlots.stackOf at hcpu ⊢
  unfold onCurrent
  cases hcur : s.machine.cur with
  | none =>
      rw [hcur] at hcpu
      simpa using hcpu
  | some running =>
      rw [hcur] at hcpu
      by_cases hrunning : running = cpu
      · subst hrunning
        simpa using hlive _ (by simpa using hcpu)
      · rw [if_neg (by simpa using hrunning)] at hcpu ⊢
        change Holds (s.machine.slot cpu) (Function.update s.unreturned running _ cpu)
        rw [Function.update_of_ne (Ne.symm hrunning)]
        exact hcpu

theorem Sound.next {s : CrsSession} (h : s.Sound) (op : CrsOp) : (s.next op).Sound := by
  cases op with
  | push returnPc thumb => exact h.onLive fun _ hlive => hlive.push returnPc thumb
  | shouldReturn targetPc thumb =>
      unfold CrsSession.next
      by_cases hhit : (runtimeCallShouldReturn s.machine.live targetPc thumb).1 = true
      · simp only [hhit, if_true]
        exact h.onLive fun _ hlive => hlive.shouldReturn hhit
      · simp only [hhit, shouldReturn_miss hhit]
        exact h
  | cancel returnPc =>
      unfold CrsSession.next runtimeCallCancelReturn
      cases hlive : s.machine.live with
      | nil =>
          simp only [List.length_nil, lt_irrefl, if_false]
          exact fun cpu => by simpa [CrsSlots.stackOf, hlive] using h cpu
      | cons newest older =>
          by_cases hmatch : newest &&& ~~~1 = returnPc &&& ~~~1
          · simp only [hmatch, if_true, List.length_cons, Nat.lt_succ_self]
            exact h.onLive fun frames hframes => by
              rw [hlive] at hframes
              exact hframes.tail
          · simp only [hmatch, if_false, lt_irrefl]
            exact fun cpu => by simpa [CrsSlots.stackOf, hlive] using h cpu
  | switchTo cpu =>
      intro other
      change Holds ((s.machine.switchTo cpu).stackOf other) (s.unreturned other)
      rw [CrsSlots.switchTo_stackOf fun c => (h c).depth]
      exact h other

theorem run_sound (ops : List CrsOp) : (run ops).Sound := by
  induction ops using List.reverseRecOn with
  | nil => exact fun _ => ⟨⟨[], rfl⟩, fun f hf => absurd hf List.not_mem_nil, Nat.zero_le _⟩
  | append_singleton ops op ih =>
      rw [run, List.foldl_concat]
      exact ih.next op

/-- After every run: depths within the capacity; a return to a frame that has always been
among the most recent half of the processor's frames is recognised; what a recognised
return discards are its frame and those pushed after it; a switch to the other processor and
back changes no stack. -/
theorem callReturns_kept (ops : List CrsOp) :
    (∀ cpu, ((run ops).machine.stackOf cpu).length ≤ kCRS) ∧
    (∀ cpu targetPc thumb, (run ops).machine.cur = some cpu →
      (∃ f ∈ (run ops).unreturned cpu, f.recent = true ∧ f.key = crsKey targetPc thumb) →
      (runtimeCallShouldReturn (run ops).machine.live targetPc thumb).1 = true) ∧
    (∀ targetPc thumb, (runtimeCallShouldReturn (run ops).machine.live targetPc thumb).1 = true →
      ∃ newer older, (run ops).machine.live = newer ++ crsKey targetPc thumb :: older ∧
        crsKey targetPc thumb ∉ newer ∧
        (runtimeCallShouldReturn (run ops).machine.live targetPc thumb).2 = older) ∧
    (∀ cpu other, (run ops).machine.cur = some cpu →
      (((run ops).machine.switchTo other).switchTo cpu).live = (run ops).machine.live ∧
      ∀ c, (((run ops).machine.switchTo other).switchTo cpu).stackOf c =
        (run ops).machine.stackOf c) := by
  have hsound := run_sound ops
  refine ⟨fun cpu => (hsound cpu).depth, ?_, fun _ _ h => shouldReturn_hit h, ?_⟩
  · intro cpu targetPc thumb hcur hframe
    have hlive : (run ops).machine.stackOf cpu = (run ops).machine.live := if_pos hcur
    exact (hlive ▸ hsound cpu).recognised hframe
  · intro cpu other hcur
    have hback : ∀ c, (((run ops).machine.switchTo other).switchTo cpu).stackOf c =
        (run ops).machine.stackOf c := by
      intro c
      have haway := CrsSlots.switchTo_stackOf (fun c => (hsound c).depth) other
      rw [CrsSlots.switchTo_stackOf (fun c => by rw [haway]; exact (hsound c).depth), haway]
    refine ⟨?_, hback⟩
    have hlive := hback cpu
    rwa [CrsSlots.stackOf, if_pos (CrsSlots.switchTo_cur _ _), CrsSlots.stackOf, if_pos hcur] at hlive

/-! ### A frame that fell out of the stack -/

/-- One return address over and over: `n` words on the stack, `k` frames not returned from. -/
structure Uniform (s : CrsSession) (n k : Nat) : Prop where
  cur : s.machine.cur = some 0
  live : s.machine.live = List.replicate n (crsKey 0 false)
  keys : (s.unreturned 0).map Frame.key = List.replicate k (crsKey 0 false)

theorem onCurrent_zero {s : CrsSession} (h : s.machine.cur = some 0) (f : List Frame → List Frame) :
    s.onCurrent f 0 = f (s.unreturned 0) := by
  rw [onCurrent, h]
  exact Function.update_self ..

theorem Uniform.push {s : CrsSession} {n k : Nat} (h : s.Uniform n k) (hn : n < kCRS) :
    (s.next (.push 0 false)).Uniform (n + 1) (k + 1) := by
  refine ⟨h.cur, ?_, ?_⟩
  · change runtimeCallPushReturn s.machine.live 0 false = _
    rw [runtimeCallPushReturn, h.live, if_neg (by rw [List.length_replicate]; omega),
      List.replicate_succ]
  · change (s.onCurrent (fun frames => Frame.mark (⟨crsKey 0 false, true⟩ :: frames)) 0).map
      Frame.key = _
    rw [onCurrent_zero h.cur, map_key_mark, List.map_cons, h.keys, List.replicate_succ]

theorem Uniform.pushFull {s : CrsSession} {k : Nat} (h : s.Uniform kCRS k) :
    (s.next (.push 0 false)).Uniform (kCRS / 2 + 1) (k + 1) := by
  refine ⟨h.cur, ?_, ?_⟩
  · change runtimeCallPushReturn s.machine.live 0 false = _
    rw [runtimeCallPushReturn, h.live, if_pos (by rw [List.length_replicate]),
      List.take_replicate, Nat.min_eq_left (Nat.div_le_self _ _), List.replicate_succ]
  · change (s.onCurrent (fun frames => Frame.mark (⟨crsKey 0 false, true⟩ :: frames)) 0).map
      Frame.key = _
    rw [onCurrent_zero h.cur, map_key_mark, List.map_cons, h.keys, List.replicate_succ]

theorem Uniform.shouldReturn {s : CrsSession} {n k : Nat} (h : s.Uniform (n + 1) (k + 1)) :
    (s.next (.shouldReturn 0 false)).Uniform n k := by
  have hanswer : runtimeCallShouldReturn s.machine.live 0 false =
      (true, List.replicate n (crsKey 0 false)) := by
    rw [runtimeCallShouldReturn, h.live, List.replicate_succ,
      List.dropWhile_cons_of_neg (by simp)]
  obtain ⟨found, rest, hframes, hfound, hrest⟩ :=
    List.map_eq_cons_iff.mp (h.keys.trans List.replicate_succ)
  refine ⟨h.cur, ?_, ?_⟩
  · change (runtimeCallShouldReturn s.machine.live 0 false).2 = _
    rw [hanswer]
  · change ((if (runtimeCallShouldReturn s.machine.live 0 false).1 = true then _ else _ :
      Fin 2 → List Frame) 0).map Frame.key = _
    rw [hanswer, if_pos rfl, onCurrent_zero h.cur, hframes, Frame.olderThan,
      List.dropWhile_cons_of_neg (by simp [hfound]), List.tail_cons, hrest]

theorem Uniform.pushes {s : CrsSession} {n k : Nat} (h : s.Uniform n k) (count : Nat)
    (hroom : n + count ≤ kCRS) :
    ((List.replicate count (.push 0 false)).foldl next s).Uniform (n + count) (k + count) := by
  induction count with
  | zero => exact h
  | succ count ih =>
      rw [List.replicate_succ', List.foldl_concat]
      exact (ih (by omega)).push (by omega)

theorem Uniform.returns {s : CrsSession} {n k : Nat} (count : Nat)
    (h : s.Uniform (n + count) (k + count)) :
    ((List.replicate count (.shouldReturn 0 false)).foldl next s).Uniform n k := by
  induction count generalizing n k with
  | zero => exact h
  | succ count ih =>
      rw [List.replicate_succ', List.foldl_concat]
      refine Uniform.shouldReturn (ih ?_)
      rw [show n + 1 + count = n + (count + 1) by omega,
        show k + 1 + count = k + (count + 1) by omega]
      exact h

/-- One call more than there is room for, and as many returns as are recognised: half a
capacity of frames is left, and the newest of them is not found. -/
theorem recentFrame_lost : ∃ ops cpu targetPc thumb,
    (run ops).machine.cur = some cpu ∧
    (∃ f ∈ ((run ops).unreturned cpu).take (kCRS / 2), f.key = crsKey targetPc thumb) ∧
    (runtimeCallShouldReturn (run ops).machine.live targetPc thumb).1 = false := by
  have hstart : (run [.switchTo 0]).Uniform 0 0 := ⟨rfl, rfl, rfl⟩
  have hpushed := hstart.pushes kCRS (by omega)
  rw [Nat.zero_add] at hpushed
  have hfull := hpushed.pushFull
  have hreturned := Uniform.returns (n := 0) (k := kCRS / 2) (kCRS / 2 + 1)
    (s := ((List.replicate kCRS (.push 0 false)).foldl next (run [.switchTo 0])).next
      (.push 0 false)) (by
    rw [Nat.zero_add, show kCRS / 2 + (kCRS / 2 + 1) = kCRS + 1 by decide]
    exact hfull)
  refine ⟨.switchTo 0 :: (List.replicate kCRS (.push 0 false) ++ .push 0 false ::
    List.replicate (kCRS / 2 + 1) (.shouldReturn 0 false)), 0, 0, false, ?_⟩
  have hrun : run (.switchTo 0 :: (List.replicate kCRS (.push 0 false) ++ .push 0 false ::
      List.replicate (kCRS / 2 + 1) (.shouldReturn 0 false))) =
      (List.replicate (kCRS / 2 + 1) (.shouldReturn 0 false)).foldl next
        (((List.replicate kCRS (.push 0 false)).foldl next (run [.switchTo 0])).next
          (.push 0 false)) := by
    rw [run, List.foldl_cons, List.foldl_append, List.foldl_cons]
    rfl
  rw [hrun]
  obtain ⟨hcur, hlive, hkeys⟩ := hreturned
  refine ⟨hcur, ?_, ?_⟩
  · have hmem : crsKey 0 false ∈ (List.replicate (kCRS / 2) (crsKey 0 false)).take (kCRS / 2) := by
      rw [List.take_replicate, List.mem_replicate]
      exact ⟨by decide, rfl⟩
    rw [← hkeys, ← List.map_take] at hmem
    obtain ⟨f, hf, hkey⟩ := List.mem_map.mp hmem
    exact ⟨f, hf, hkey⟩
  · rw [hlive]
    rfl

end CrsSession

end NdsRecomp.Runtime
