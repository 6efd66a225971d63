import NdsRecomp.Net.Replay

/-!
Replaying a capture written with sanitizing. Sending the recorded raw frames
again never reports a mismatch, and a delivered frame has its addresses back
unless it held the synthetic address of the console to begin with.
-/

namespace NdsRecomp.Net

/-! ### Fields after sanitizing and restoring -/

theorem applied_sanitize_unknown {state : NdsNetSanitizeState} (h : state.identityMac = none)
    (m : Mac) : (sanitizeRule state).applied m = m := by
  unfold FieldRule.applied sanitizeRule
  rw [h]
  rfl

theorem applied_sanitize_known {state : NdsNetSanitizeState} {identity : Mac}
    (h : state.identityMac = some identity) (m : Mac) :
    (sanitizeRule state).applied m =
      if m = identity ∧ m ≠ mapMac identity then mapMac identity else m := by
  unfold FieldRule.applied sanitizeRule
  dsimp only
  rw [h, Option.bind_some]
  split <;> rfl

theorem applied_restore (synthetic real m : Mac) :
    (restoreRule synthetic real).applied m = if m = synthetic then real else m := by
  unfold FieldRule.applied restoreRule
  dsimp only
  split <;> rfl

/-- The synthetic address means the identity: it is the identity, or it is not
at this field. -/
theorem applied_restore_sanitize {state : NdsNetSanitizeState} {identity : Mac} (m : Mac)
    (h : state.identityMac = none ∨ state.identityMac = some identity) :
    (restoreRule (mapMac identity) identity).applied ((sanitizeRule state).applied m) = m ↔
      mapMac identity = identity ∨ m ≠ mapMac identity := by
  rw [applied_restore]
  by_cases hwritten : state.identityMac = some identity ∧ m = identity ∧ m ≠ mapMac identity
  · obtain ⟨hsome, hm, hne⟩ := hwritten
    have hsynthetic : (sanitizeRule state).applied m = mapMac identity :=
      (applied_sanitize_known hsome m).trans (if_pos ⟨hm, hne⟩)
    rw [hsynthetic, if_pos rfl]
    exact iff_of_true hm.symm (Or.inr hne)
  · have hkept : (sanitizeRule state).applied m = m := by
      rcases h with hnone | hsome
      · exact applied_sanitize_unknown hnone m
      · rw [applied_sanitize_known hsome, if_neg fun hand => hwritten ⟨hsome, hand⟩]
    rw [hkept]
    by_cases hsynthetic : m = mapMac identity
    · rw [if_pos hsynthetic, hsynthetic]
      constructor
      · exact fun heq => Or.inl heq.symm
      · rintro (hself | hne)
        · exact hself.symm
        · exact absurd rfl hne
    · rw [if_neg hsynthetic]
      exact iff_of_true rfl (Or.inr hsynthetic)

/-! ### Frames as lists -/

theorem ofFrame_beyond {frame : List UInt8} {i : Nat} (h : frame.length ≤ i) : ofFrame frame i = 0 := by
  unfold ofFrame
  rw [List.getD_eq_getElem?_getD, List.getElem?_eq_none h]
  rfl

theorem ofFrame_toFrame {len : Nat} {f : Bytes} (h : ∀ i, len ≤ i → f i = 0) :
    ofFrame (toFrame len f) = f := by
  funext i
  unfold ofFrame toFrame
  rw [List.getD_eq_getElem?_getD, List.getElem?_map]
  rcases Nat.lt_or_ge i len with hlt | hge
  · rw [List.getElem?_range hlt]
    rfl
  · rw [List.getElem?_eq_none (by rw [List.length_range]; exact hge), h i hge]
    rfl

/-- Sanitizing as a rewrite of the bytes. -/
theorem ofFrame_sanitized (state : NdsNetSanitizeState) (direction : UInt8) (frame : List UInt8) :
    ofFrame (netSanitizer.run state direction frame).1.val =
      if frame.length < 14 then ofFrame frame
      else rewriteFrame
        (sanitizeRule (sanitizeState (ofFrame frame) frame.length direction state))
        (ofFrame frame) frame.length := by
  unfold netSanitizer netSanitizeEthernetFrame
  dsimp only
  by_cases hshort : frame.length < 14
  · rw [if_pos hshort, if_pos hshort]
    exact ofFrame_toFrame fun i hi => ofFrame_beyond hi
  · rw [if_neg hshort, if_neg hshort]
    exact ofFrame_toFrame fun i hi =>
      (rewriteFrame_beyond (Nat.not_lt.mp hshort) hi).trans (ofFrame_beyond hi)

theorem restored_raw (state : NdsNetSanitizeState) (frame : List UInt8) :
    restored false state frame = frame := by
  unfold restored
  split
  · rw [if_neg Bool.false_ne_true]
  · rfl

theorem ofFrame_restored {state : NdsNetSanitizeState} {identity : Mac}
    (h : state.identityMac = some identity) (frame : List UInt8) :
    ofFrame (restored true state frame) =
      if frame.length < 14 then ofFrame frame
      else rewriteFrame (restoreRule (mapMac identity) identity) (ofFrame frame) frame.length := by
  unfold restored netDesanitizeEthernetFrameForReplay
  rw [h]
  dsimp only
  rw [if_pos rfl]
  by_cases hshort : frame.length < 14
  · rw [if_pos hshort]
    exact ofFrame_toFrame fun i hi => ofFrame_beyond hi
  · rw [if_neg hshort]
    exact ofFrame_toFrame fun i hi =>
      (rewriteFrame_beyond (Nat.not_lt.mp hshort) hi).trans (ofFrame_beyond hi)

/-- Every address of the frame, as it was received. -/
def MacsEqual (out frame : List UInt8) : Prop :=
  ∀ q ∈ macPositions (ofFrame frame) frame.length, macAt (ofFrame out) q = macAt (ofFrame frame) q

/-- The synthetic address of a learned identity is no address of the frame. -/
def NoSynthetic (state : NdsNetSanitizeState) (frame : List UInt8) : Prop :=
  ∀ identity, state.identityMac = some identity → mapMac identity = identity ∨
    ∀ q ∈ macPositions (ofFrame frame) frame.length, macAt (ofFrame frame) q ≠ mapMac identity

/-- Sanitizing with one state and restoring with a later one. -/
theorem macsEqual_restored_iff {written replayed : NdsNetSanitizeState} {direction : UInt8}
    {frame : List UInt8}
    (hlater : ∀ identity, (sanitizeState (ofFrame frame) frame.length direction written).identityMac =
      some identity → replayed.identityMac = some identity) :
    MacsEqual (restored true replayed (netSanitizer.run written direction frame).1.val) frame ↔
      NoSynthetic replayed frame := by
  have hlength : (netSanitizer.run written direction frame).1.val.length = frame.length :=
    (netSanitizer.run written direction frame).1.property
  have hsanitized := ofFrame_sanitized written direction frame
  by_cases hshort : frame.length < 14
  · have hnone : macPositions (ofFrame frame) frame.length = [] := if_pos hshort
    unfold MacsEqual NoSynthetic
    rw [hnone]
    exact iff_of_true (fun q hq => by cases hq) fun _ _ => Or.inr fun q hq => by cases hq
  · rw [if_neg hshort] at hsanitized
    generalize hstate : sanitizeState (ofFrame frame) frame.length direction written = state
      at hsanitized hlater
    obtain ⟨hpositions, hfields⟩ := @rewriteFrame_spec (sanitizeRule state) (ofFrame frame)
      frame.length (Nat.not_lt.mp hshort)
    cases hreplayed : replayed.identityMac with
    | none =>
        have hunknown : state.identityMac = none := by
          cases hid : state.identityMac with
          | none => rfl
          | some identity =>
              have hsome := hlater identity hid
              rw [hreplayed] at hsome
              cases hsome
        have hraw : restored true replayed (netSanitizer.run written direction frame).1.val =
            (netSanitizer.run written direction frame).1.val := by
          unfold restored
          rw [hreplayed]
        refine iff_of_true (fun q hq => ?_) fun identity hid => ?_
        · rw [hraw, hsanitized, hfields q hq, applied_sanitize_unknown hunknown]
        · rw [hreplayed] at hid
          cases hid
    | some identity =>
        have hknown : state.identityMac = none ∨ state.identityMac = some identity := by
          cases hid : state.identityMac with
          | none => exact Or.inl rfl
          | some other =>
              have hsame := hlater other hid
              rw [hreplayed] at hsame
              exact Or.inr hsame.symm
        have hrestored := ofFrame_restored hreplayed (netSanitizer.run written direction frame).1.val
        rw [hlength, if_neg hshort, hsanitized] at hrestored
        obtain ⟨-, hback⟩ := @rewriteFrame_spec (restoreRule (mapMac identity) identity)
          (rewriteFrame (sanitizeRule state) (ofFrame frame) frame.length) frame.length
          (Nat.not_lt.mp hshort)
        rw [hpositions] at hback
        have hfield : ∀ q ∈ macPositions (ofFrame frame) frame.length,
            (macAt (ofFrame (restored true replayed
                (netSanitizer.run written direction frame).1.val)) q = macAt (ofFrame frame) q ↔
              mapMac identity = identity ∨ macAt (ofFrame frame) q ≠ mapMac identity) := by
          intro q hq
          rw [hrestored, hback q hq, hfields q hq]
          exact applied_restore_sanitize _ hknown
        unfold MacsEqual NoSynthetic
        rw [hreplayed]
        constructor
        · intro hall other hother
          cases hother
          by_cases hself : mapMac identity = identity
          · exact Or.inl hself
          · exact Or.inr fun q hq => ((hfield q hq).mp (hall q hq)).resolve_left hself
        · intro hno q hq
          refine (hfield q hq).mpr ?_
          rcases hno identity rfl with hself | hne
          · exact Or.inl hself
          · exact Or.inr (hne q hq)

/-! ### The state of the capture writer -/

/-- The sanitizer's state after more sends. -/
def stateAfter (state : NdsNetSanitizeState) (sent : List (List UInt8)) : NdsNetSanitizeState :=
  sent.foldl (fun state data => (comparisonCopy true state data).2) state

theorem comparisonState_sanitized (sent : List (List UInt8)) :
    comparisonState true sent = stateAfter {} sent := rfl

theorem sanitizeState_keeps {f : Bytes} {len : Nat} {direction : UInt8} {state : NdsNetSanitizeState}
    {identity : Mac} (h : state.identityMac = some identity) :
    (sanitizeState f len direction state).identityMac = some identity := by
  unfold sanitizeState NdsNetSanitizeState.learn
  split
  · exact h
  · split
    · rw [h]
      exact h
    · exact h

theorem netSanitizer_state (state : NdsNetSanitizeState) (direction : UInt8) (frame : List UInt8) :
    (netSanitizer.run state direction frame).2 =
      sanitizeState (ofFrame frame) frame.length direction state := by
  unfold netSanitizer netSanitizeEthernetFrame
  dsimp only
  split <;> rfl

theorem comparisonCopy_sanitized (state : NdsNetSanitizeState) (data : List UInt8) :
    comparisonCopy true state data = ((netSanitizer.run state kNdsNetSanitizeDirTx data).1.val,
      sanitizeState (ofFrame data) data.length kNdsNetSanitizeDirTx state) := by
  rw [← netSanitizer_state]
  rfl

/-- An identity once learned stays. -/
theorem stateAfter_keeps {sent : List (List UInt8)} {state : NdsNetSanitizeState} {identity : Mac}
    (h : state.identityMac = some identity) :
    (stateAfter state sent).identityMac = some identity := by
  induction sent generalizing state with
  | nil => exact h
  | cons data sent ih =>
      refine ih ?_
      change (comparisonCopy true state data).2.identityMac = some identity
      rw [comparisonCopy_sanitized]
      exact sanitizeState_keeps h

/-- Received frames teach no identity. -/
theorem sanitizeState_rx {f : Bytes} {len : Nat} {state : NdsNetSanitizeState} :
    sanitizeState f len kNdsNetCaptureDirRx state = state := by
  have hdirection : ¬ kNdsNetCaptureDirRx = kNdsNetSanitizeDirTx := by decide
  unfold sanitizeState
  rw [if_neg hdirection, ite_self]

/-- The frames of the sends. -/
def sends (records : List NdsNetCaptureRecord) : List (List UInt8) :=
  (txRecordsOf records).map NdsNetCaptureRecord.frame

section Writer

variable {w : CaptureWriter NdsNetSanitizeState} {r : NdsNetCaptureRecord}

theorem write_buffer (hw : w.sanitize = true) (hr : r.Valid) :
    (w.buffer netSanitizer r.direction r.frame).1 =
        (netSanitizer.run w.state r.direction r.frame).1.val ∧
      (w.write netSanitizer r.guestCycle r.direction r.frame).state =
        sanitizeState (ofFrame r.frame) r.frame.length r.direction w.state ∧
      (w.write netSanitizer r.guestCycle r.direction r.frame).sanitize = true := by
  have htake : r.frame.take kNdsNetCaptureMaxFrameBytes = r.frame := List.take_of_length_le hr.bounded
  have hbuffer : w.buffer netSanitizer r.direction r.frame =
      ((netSanitizer.run w.state r.direction r.frame).1.val,
        (netSanitizer.run w.state r.direction r.frame).2) := by
    unfold CaptureWriter.buffer
    dsimp only
    rw [htake, if_pos hw]
  unfold CaptureWriter.write
  rw [if_neg (Nat.pos_iff_ne_zero.mp hr.nonempty), hbuffer]
  exact ⟨rfl, netSanitizer_state _ _ _, hw⟩

theorem isTx_direction (h : r.isTx = true) : r.direction = kNdsNetSanitizeDirTx := by
  unfold NdsNetCaptureRecord.isTx at h
  exact beq_iff_eq.mp h

theorem isRx_direction (hr : r.Valid) (h : r.isTx = false) : r.direction = kNdsNetCaptureDirRx := by
  rcases hr.direction with htx | hrx
  · unfold NdsNetCaptureRecord.isTx at h
    rw [htx] at h
    exact absurd h (by decide)
  · exact hrx

/-- The writer's state has learned from the sends alone. -/
theorem writeAll_state {records : List NdsNetCaptureRecord} (hw : w.sanitize = true)
    (hvalid : ∀ r ∈ records, r.Valid) :
    (w.writeAll netSanitizer records).state = stateAfter w.state (sends records) ∧
      (w.writeAll netSanitizer records).sanitize = true := by
  induction records generalizing w with
  | nil => exact ⟨rfl, hw⟩
  | cons r records ih =>
      have hr : r.Valid := hvalid r List.mem_cons_self
      obtain ⟨-, hstate, hsanitize⟩ := write_buffer hw hr
      obtain ⟨hrest, hmode⟩ := ih hsanitize fun q hq => hvalid q (List.mem_cons_of_mem r hq)
      refine ⟨?_, hmode⟩
      refine hrest.trans ?_
      unfold sends txRecordsOf
      cases hdirection : r.isTx with
      | true =>
          rw [List.filter_cons_of_pos hdirection, List.map_cons, hstate, isTx_direction hdirection]
          change stateAfter _ _ = stateAfter (comparisonCopy true w.state r.frame).2 _
          rw [comparisonCopy_sanitized]
      | false =>
          rw [List.filter_cons_of_neg (by simp [hdirection]), hstate, isRx_direction hr hdirection,
            sanitizeState_rx]

/-- A stored record is a raw one, written after the records before it. -/
theorem stored_split {raw before after : List NdsNetCaptureRecord} {record : NdsNetCaptureRecord}
    (h : w.stored netSanitizer raw = before ++ record :: after) :
    ∃ before' r after', raw = before' ++ r :: after' ∧ before = w.stored netSanitizer before' ∧
      record = ⟨r.guestCycle, r.direction,
        ((w.writeAll netSanitizer before').buffer netSanitizer r.direction r.frame).1⟩ := by
  induction raw generalizing w before with
  | nil => cases before <;> cases h
  | cons r raw ih =>
      cases before with
      | nil =>
          obtain ⟨hrecord, -⟩ := List.cons.inj h
          exact ⟨[], r, raw, rfl, rfl, hrecord.symm⟩
      | cons head before =>
          obtain ⟨hhead, htail⟩ := List.cons.inj h
          obtain ⟨before', q, after', hraw, hbefore, hrecord⟩ := ih htail
          refine ⟨r :: before', q, after', by rw [hraw]; rfl, ?_, hrecord⟩
          rw [hbefore, ← hhead]
          rfl

theorem stored_filter_length (direction : UInt8 → Bool) (raw : List NdsNetCaptureRecord) :
    ((w.stored netSanitizer raw).filter fun r => direction r.direction).length =
      (raw.filter fun r => direction r.direction).length := by
  induction raw generalizing w with
  | nil => rfl
  | cons r raw ih =>
      unfold CaptureWriter.stored
      rw [List.filter_cons, List.filter_cons]
      dsimp only
      split
      · rw [List.length_cons, List.length_cons, ih]
      · exact ih

end Writer

/-! ### The replayed session -/

section Replay

variable {options : CaptureOptions} {raw : List NdsNetCaptureRecord} {sent : List (List UInt8)}

theorem sends_append (before after : List NdsNetCaptureRecord) :
    sends (before ++ after) = sends before ++ sends after := by
  unfold sends txRecordsOf
  rw [List.filter_append, List.map_append]

theorem stored_sends_length (w : CaptureWriter NdsNetSanitizeState) (raw : List NdsNetCaptureRecord) :
    (txRecordsOf (w.stored netSanitizer raw)).length = (sends raw).length := by
  unfold sends
  rw [List.length_map]
  exact stored_filter_length (fun direction => direction == kNdsNetCaptureDirTx) raw

/-- Writer and driver have learned the same when they have seen the same sends. -/
theorem writer_state (hoptions : options.sanitize = true) {before : List NdsNetCaptureRecord}
    (hvalid : ∀ r ∈ before, r.Valid) :
    ((CaptureWriter.openFile netSanitizer options).writeAll netSanitizer before).state =
        comparisonState true (sends before) ∧
      ((CaptureWriter.openFile netSanitizer options).writeAll netSanitizer before).sanitize = true :=
  writeAll_state hoptions hvalid

/-- Each raw frame sent again compares equal. -/
theorem agrees_resent (hoptions : options.sanitize = true) (hvalid : ∀ r ∈ raw, r.Valid)
    (hsent : sent <+: sends raw) {k : Nat} (hk : k < sent.length) :
    Agrees (storedRecords netSanitizer options raw) true sent k := by
  have hlength : k < (txRecordsOf (storedRecords netSanitizer options raw)).length := by
    have htotal := stored_sends_length (CaptureWriter.openFile netSanitizer options) raw
    unfold storedRecords
    rw [htotal]
    exact Nat.lt_of_lt_of_le hk hsent.length_le
  obtain ⟨before, after, hsplit, htx, hcount⟩ :=
    txRecordsOf_getElem? (List.getElem?_eq_getElem hlength)
  obtain ⟨before', r, after', hraw, hbefore, hrecord⟩ := stored_split hsplit
  have hr : r.Valid := hvalid r (by rw [hraw]; simp)
  have hvalid' : ∀ q ∈ before', q.Valid := fun q hq => hvalid q (by rw [hraw]; simp [hq])
  have hdirection : r.isTx = true := by
    have hsame := congrArg NdsNetCaptureRecord.isTx hrecord
    rw [htx] at hsame
    exact hsame.symm
  have hsends : sends raw = sends before' ++ r.frame :: sends after' := by
    rw [hraw, sends_append]
    unfold sends txRecordsOf
    rw [List.filter_cons_of_pos hdirection, List.map_cons]
  have hearlier : (sends before').length = k := by
    rw [hcount, hbefore, stored_sends_length]
  obtain ⟨hstate, hmode⟩ := writer_state hoptions hvalid'
  have hhere : (sends raw)[k]? = some r.frame := by
    rw [hsends, ← hearlier, List.getElem?_append_right (le_refl _), Nat.sub_self]
    rfl
  have hbeforeSent : sent.take k = sends before' := by
    obtain ⟨rest, hrest⟩ := hsent
    have htake : (sends raw).take k = sends before' := by
      rw [hsends, ← hearlier, List.take_left]
    rw [← htake, ← hrest, List.take_append_of_le_length (Nat.le_of_lt hk)]
  have hdata : sent[k]? = some r.frame := by
    obtain ⟨rest, hrest⟩ := hsent
    rw [← hrest, List.getElem?_append_left hk] at hhere
    exact hhere
  refine ⟨_, r.frame, List.getElem?_eq_getElem hlength, hdata, ?_⟩
  rw [hbeforeSent, ← hstate, hrecord, comparisonCopy_sanitized, ← isTx_direction hdirection]
  exact (write_buffer hmode hr).1

/-- The receive records of a session. -/
def received (records : List NdsNetCaptureRecord) : List NdsNetCaptureRecord :=
  records.filter fun r => !r.isTx

/-- A delivered frame, against the frame that was received when recording. -/
theorem delivered_original (hoptions : options.sanitize = true) (hvalid : ∀ r ∈ raw, r.Valid)
    {i : Nat} {record : NdsNetCaptureRecord × Nat} {d : Delivery}
    (hrecord : (rxRequired 0 (storedRecords netSanitizer options raw))[i]? = some record)
    (hfaithful : d.Faithful (storedRecords netSanitizer options raw) true record)
    (hframe : d.frame = restored true (comparisonState true d.sent) record.1.frame)
    (hsent : d.sent <+: sends raw) :
    ∃ r, (received raw)[i]? = some r ∧
      (MacsEqual d.frame r.frame ↔ NoSynthetic (comparisonState true d.sent) r.frame) := by
  obtain ⟨before, after, hsplit, hrx, hcount, hi⟩ := rxRequired_getElem? hrecord
  obtain ⟨before', r, after', hraw, hbefore, hstored⟩ := stored_split hsplit
  have hr : r.Valid := hvalid r (by rw [hraw]; simp)
  have hvalid' : ∀ q ∈ before', q.Valid := fun q hq => hvalid q (by rw [hraw]; simp [hq])
  have hdirection : r.isTx = false := by
    have hsame := congrArg NdsNetCaptureRecord.isTx hstored
    rw [hrx] at hsame
    exact hsame.symm
  obtain ⟨hstate, hmode⟩ := writer_state hoptions hvalid'
  have hindex : (received before').length = i := by
    rw [hi, hbefore]
    exact (stored_filter_length (fun direction => !(direction == kNdsNetCaptureDirTx)) before').symm
  refine ⟨r, ?_, ?_⟩
  · unfold received
    rw [hraw, List.filter_append, List.filter_cons_of_pos (by simp [hdirection]), ← hindex]
    unfold received
    rw [List.getElem?_append_right (le_refl _), Nat.sub_self]
    rfl
  · have hwritten : record.1.frame = (netSanitizer.run (comparisonState true (sends before'))
        r.direction r.frame).1.val := by
      rw [← hstate, hstored]
      exact (write_buffer hmode hr).1
    rw [hframe, hwritten]
    refine macsEqual_restored_iff fun identity hidentity => ?_
    rw [isRx_direction hr hdirection, sanitizeState_rx] at hidentity
    -- the sends before the record are among those sent before its delivery
    have hlength : (sends before').length ≤ d.sent.length := by
      have hle := hfaithful.sent
      rw [hcount, hbefore, stored_sends_length] at hle
      omega
    have hearlier : sends before' <+: d.sent := by
      have hraw' : sends before' <+: sends raw := by
        rw [hraw, sends_append]
        exact List.prefix_append _ _
      exact List.prefix_of_prefix_length_le hraw' hsent hlength
    obtain ⟨rest, hrest⟩ := hearlier
    rw [comparisonState_sanitized] at hidentity ⊢
    rw [← hrest]
    unfold stateAfter
    rw [List.foldl_append]
    exact stateAfter_keeps hidentity

end Replay

/-! ### The law -/

/-- Where an accepted frame stands: `k` is accepted exactly when it and all
before it agree. -/
theorem accepted_iff {records : List NdsNetCaptureRecord} {sanitized : Bool} {s : ReplaySession}
    (h : Tracks records sanitized s) {k : Nat} (hk : k < s.sent.length) :
    k < s.driver.txMatched ↔ ∀ j ≤ k, Agrees records sanitized s.sent j := by
  rw [h.matched]
  constructor
  · intro hlt j hj
    exact h.agreed j (Nat.lt_of_le_of_lt hj hlt)
  · intro hall
    by_contra hnot
    cases hmismatch : s.driver.mismatch with
    | none =>
        have hlength := (h.clean hmismatch).1
        omega
    | some m => exact (h.latched m hmismatch).2.2 (hall _ (Nat.not_lt.mp hnot))

theorem mismatch_iff {records : List NdsNetCaptureRecord} {sanitized : Bool} {s : ReplaySession}
    (h : Tracks records sanitized s) :
    s.driver.mismatch.isSome = true ↔ ∃ k < s.sent.length, ¬ Agrees records sanitized s.sent k := by
  cases hmismatch : s.driver.mismatch with
  | none =>
      obtain ⟨hlength, -⟩ := h.clean hmismatch
      refine iff_of_false Bool.false_ne_true ?_
      rintro ⟨k, hk, hdiffers⟩
      exact hdiffers (h.agreed k (hlength ▸ hk))
  | some m =>
      obtain ⟨-, hactual, hdiffers⟩ := h.latched m hmismatch
      exact iff_of_true rfl ⟨_, (List.getElem?_eq_some_iff.mp hactual).1, hdiffers⟩

/-- A replayed session, whatever the order of sends and polls. The `i`-th
delivery is the `i`-th receive record, after its cycle and after the sends that
preceded it; a send is accepted while all agree, and the first that does not is
kept. Over a sanitized capture the same raw sends never differ, and a delivery
has its addresses back exactly when none of them is the synthetic address. -/
theorem replay_causally_faithful (records : List NdsNetCaptureRecord) (sanitized : Bool)
    (events : List ReplayEvent) (s : ReplaySession)
    (hs : s = (ReplaySession.start records sanitized).run events) :
    (∀ (i : Nat) (d : Delivery), s.deliveries[i]? = some d →
      ∃ before record after, records = before ++ record :: after ∧ record.isTx = false ∧
        i = (received before).length ∧ record.guestCycle ≤ d.cycle ∧
        (sanitized = false → d.frame = record.frame) ∧ d.sent <+: s.sent ∧
        (sends before).length ≤ d.sent.length ∧
        ∀ k < (sends before).length, Agrees records sanitized d.sent k) ∧
      (∀ k < s.sent.length,
        (k < s.driver.txMatched ↔ ∀ j ≤ k, Agrees records sanitized s.sent j)) ∧
      (s.driver.mismatch.isSome = true ↔ ∃ k < s.sent.length, ¬ Agrees records sanitized s.sent k) ∧
      (∀ m, s.driver.mismatch = some m → s.sent[m.txFrameIndex]? = some m.actual ∧
        ¬ Agrees records sanitized s.sent m.txFrameIndex ∧
        ∀ k < m.txFrameIndex, Agrees records sanitized s.sent k) ∧
      ∀ (options : CaptureOptions) (raw : List NdsNetCaptureRecord), options.sanitize = true →
        (∀ r ∈ raw, r.Valid) → records = storedRecords netSanitizer options raw →
        sanitized = true → s.sent <+: sends raw →
          s.driver.mismatch = none ∧
            ∀ (i : Nat) (d : Delivery), s.deliveries[i]? = some d →
              ∃ r, (received raw)[i]? = some r ∧
                (MacsEqual d.frame r.frame ↔ NoSynthetic (comparisonState true d.sent) r.frame) := by
  have h : Tracks records sanitized s := hs ▸ tracks_run (tracks_start records sanitized) events
  refine ⟨?_, fun k hk => accepted_iff h hk, mismatch_iff h, ?_, ?_⟩
  · intro i d hd
    obtain ⟨-, hearlier, record, hrecord, hfaithful, -⟩ := h.faithful i d hd
    obtain ⟨before, after, hsplit, hrx, hcount, hi⟩ := rxRequired_getElem? hrecord
    have hsends : record.2 = (sends before).length := by
      rw [hcount, Nat.zero_add]
      exact (List.length_map _).symm
    refine ⟨before, record.1, after, hsplit, hrx, hi, hfaithful.cycle, ?_, hearlier, ?_, ?_⟩
    · rintro rfl
      obtain ⟨state, hframe⟩ := hfaithful.frame
      rw [hframe]
      exact restored_raw state _
    · rw [← hsends]
      exact hfaithful.sent
    · rw [← hsends]
      exact hfaithful.agreed
  · intro m hm
    obtain ⟨hindex, hactual, hdiffers⟩ := h.latched m hm
    rw [hindex]
    exact ⟨hactual, hdiffers, h.agreed⟩
  · rintro options raw hoptions hvalid rfl rfl hsent
    have hclean : s.driver.mismatch = none := by
      by_contra hsome
      obtain ⟨k, hk, hdiffers⟩ := (mismatch_iff h).mp (Option.isSome_iff_ne_none.mpr hsome)
      exact hdiffers (agrees_resent hoptions hvalid hsent hk)
    refine ⟨hclean, fun i d hd => ?_⟩
    obtain ⟨-, hearlier, record, hrecord, hfaithful, hframe⟩ := h.faithful i d hd
    exact delivered_original hoptions hvalid hrecord hfaithful (hframe hclean) (hearlier.trans hsent)

/-- A send and a receive, recorded with sanitizing and replayed: no mismatch. -/
theorem replay_causally_faithful_resent :
    ((ReplaySession.start (storedRecords netSanitizer ⟨true, 0, [], []⟩
        [⟨0, kNdsNetCaptureDirTx, [1]⟩]) true).run [.send 0 0 0 [1]]).driver.mismatch = none := by
  have hvalid : ∀ r ∈ [(⟨0, kNdsNetCaptureDirTx, [1]⟩ : NdsNetCaptureRecord)], r.Valid := by
    intro r hr
    rw [List.mem_singleton.mp hr]
    exact ⟨by decide, by decide, Or.inl rfl⟩
  exact ((replay_causally_faithful _ true [.send 0 0 0 [1]] _ rfl).2.2.2.2 ⟨true, 0, [], []⟩
    [⟨0, kNdsNetCaptureDirTx, [1]⟩] rfl hvalid rfl rfl (List.prefix_refl _)).1

/-- The console's address and, in a received frame, the address it hashes to. -/
def collidingFrame : List UInt8 :=
  List.replicate 6 1 ++ List.ofFn (mapMac fun _ => 0) ++ [0, 0]

/-- The received source is the synthetic address already: restoring turns it
into the console's own. -/
theorem synthetic_source_is_rewritten :
    ((ReplaySession.start (storedRecords netSanitizer ⟨true, 0, [], []⟩
        [⟨0, kNdsNetCaptureDirTx, List.replicate 14 0⟩, ⟨0, kNdsNetCaptureDirRx, collidingFrame⟩])
        true).run [.send 0 0 0 (List.replicate 14 0), .receive 0 0 0]).deliveries.map
          (fun d => (d.index, d.frame)) = [(0, List.replicate 6 1 ++ List.replicate 6 0 ++ [0, 0])] ∧
      collidingFrame ≠ List.replicate 6 1 ++ List.replicate 6 0 ++ [0, 0] := by
  decide

end NdsRecomp.Net
