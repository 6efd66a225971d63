import NdsRecomp.Net.Capture
import NdsRecomp.Net.MacPositions
import Mathlib.Data.List.TakeWhile

/-!
The replay driver: recorded receive frames are delivered when their cycle is
reached and every send that preceded them has been matched; each frame the guest
sends is compared with the recorded one, and the first difference is kept.
-/

namespace NdsRecomp.Net

structure NdsNetReplayMismatch where
  txFrameIndex : Nat
  guestCycle : UInt64
  arm9Pc : UInt32
  arm7Pc : UInt32
  expected : List UInt8
  actual : List UInt8
  reason : String

structure NetReplay where
  /-- `records_[tx_indices_[k]]` -/
  txRecords : List NdsNetCaptureRecord
  /-- `records_[rx_indices_[k]]` with `rx_required_tx_[k]` -/
  rxRecords : List (NdsNetCaptureRecord × Nat)
  expectationsSanitized : Bool
  nextTx : Nat := 0
  nextRx : Nat := 0
  txMatched : Nat := 0
  rxDelivered : Nat := 0
  currentCycle : UInt64 := 0
  currentArm9Pc : UInt32 := 0
  currentArm7Pc : UInt32 := 0
  mismatch : Option NdsNetReplayMismatch := none
  comparisonSanitizeState : NdsNetSanitizeState := {}

def NdsNetCaptureRecord.isTx (r : NdsNetCaptureRecord) : Bool := r.direction == kNdsNetCaptureDirTx

/-- The receive records, each with the number of sends seen before it. -/
def rxRequired (txSeen : Nat) : List NdsNetCaptureRecord → List (NdsNetCaptureRecord × Nat)
  | [] => []
  | r :: records =>
      if r.isTx then rxRequired (txSeen + 1) records else (r, txSeen) :: rxRequired txSeen records

def txRecordsOf (records : List NdsNetCaptureRecord) : List NdsNetCaptureRecord :=
  records.filter NdsNetCaptureRecord.isTx

def hexByte (b : UInt8) : String :=
  let digit (n : Nat) : String := String.singleton (Nat.digitChar n).toUpper
  digit (b.toNat / 16) ++ digit (b.toNat % 16)

/-- What the report says of two frames that differ. -/
def mismatchReason (expected actual : List UInt8) (sanitized : Bool) : String :=
  let suffix := if sanitized then " (compared post-sanitize)" else ""
  if expected.length ≠ actual.length then
    "length mismatch: expected " ++ toString expected.length ++ " bytes, actual " ++
      toString actual.length ++ " bytes" ++ suffix
  else
    let off := ((expected.zip actual).takeWhile fun (e, a) => e == a).length
    "byte mismatch at offset " ++ toString off ++ ": expected 0x" ++ hexByte (expected.getD off 0) ++
      ", actual 0x" ++ hexByte (actual.getD off 0) ++ suffix

/-- A frame of the guest as it is compared, and the sanitizer's state after it. -/
def comparisonCopy (sanitized : Bool) (state : NdsNetSanitizeState) (data : List UInt8) :
    List UInt8 × NdsNetSanitizeState :=
  if sanitized then
    let (out, state') := netSanitizer.run state kNdsNetSanitizeDirTx data
    (out.val, state')
  else (data, state)

/-- A recorded frame with the learned identity put back. -/
def restored (sanitized : Bool) (state : NdsNetSanitizeState) (frame : List UInt8) : List UInt8 :=
  match state.identityMac with
  | some identity =>
      if sanitized then
        toFrame frame.length (netDesanitizeEthernetFrameForReplay (ofFrame frame) frame.length
          (mapMac identity) identity)
      else frame
  | none => frame

namespace NetReplay

def create (records : List NdsNetCaptureRecord) (expectationsSanitized : Bool) : NetReplay where
  txRecords := txRecordsOf records
  rxRecords := rxRequired 0 records
  expectationsSanitized := expectationsSanitized

def setCurrent (r : NetReplay) (cycle : UInt64) (arm9Pc arm7Pc : UInt32) : NetReplay :=
  { r with currentCycle := cycle, currentArm9Pc := arm9Pc, currentArm7Pc := arm7Pc }

def report (r : NetReplay) (expected actual : List UInt8) (reason : String) : NetReplay :=
  { r with mismatch := some ⟨r.nextTx, r.currentCycle, r.currentArm9Pc, r.currentArm7Pc, expected,
      actual, reason⟩ }

/-- `SendPacket`, and what it returns. -/
def sendPacket (r : NetReplay) (data : List UInt8) : NetReplay × Nat :=
  if r.mismatch.isSome then (r, data.length)
  else if data.length = 0 then (r, 0)
  else
    match r.txRecords[r.nextTx]? with
    | none =>
        (r.report [] data ("unexpected TX frame: capture exhausted after " ++
          toString r.txRecords.length ++ " recorded TX frame(s)"), data.length)
    | some expected =>
        let (actual, state) :=
          comparisonCopy r.expectationsSanitized r.comparisonSanitizeState data
        let r := { r with comparisonSanitizeState := state }
        if expected.frame = actual then
          ({ r with nextTx := r.nextTx + 1, txMatched := r.txMatched + 1 }, data.length)
        else
          (r.report expected.frame data
            (mismatchReason expected.frame actual r.expectationsSanitized), data.length)

/-- The frame handed to the callback. -/
def delivered (r : NetReplay) (frame : List UInt8) : List UInt8 :=
  restored r.expectationsSanitized r.comparisonSanitizeState frame

/-- The recorded cycle is reached, and the sends before it are matched. -/
def due (r : NetReplay) (record : NdsNetCaptureRecord × Nat) : Bool :=
  record.1.guestCycle ≤ r.currentCycle && record.2 ≤ r.nextTx

/-- The loop of `RecvCheck` stops at the first record that is not due. -/
def dueRecords (r : NetReplay) : List (NdsNetCaptureRecord × Nat) :=
  (r.rxRecords.drop r.nextRx).takeWhile r.due

/-- `RecvCheck`, and the frames it hands to the callback. -/
def recvCheck (r : NetReplay) : NetReplay × List (List UInt8) :=
  let records := r.dueRecords
  ({ r with nextRx := r.nextRx + records.length, rxDelivered := r.rxDelivered + records.length },
    records.map fun record => r.delivered record.1.frame)

end NetReplay

/-! ### Runs -/

/-- What the guest does, with the cycle and the program counters at that time. -/
inductive ReplayEvent where
  | send (cycle : UInt64) (arm9Pc arm7Pc : UInt32) (data : List UInt8)
  | receive (cycle : UInt64) (arm9Pc arm7Pc : UInt32)

/-- A receive frame at the callback: its ordinal, its bytes, the cycle, and the
frames the guest had sent. -/
structure Delivery where
  index : Nat
  frame : List UInt8
  cycle : UInt64
  sent : List (List UInt8)

/-- A driver with what went in and out of it. -/
structure ReplaySession where
  driver : NetReplay
  sent : List (List UInt8) := []
  deliveries : List Delivery := []

namespace ReplaySession

def start (records : List NdsNetCaptureRecord) (sanitized : Bool) : ReplaySession where
  driver := .create records sanitized

/-- An empty send is no frame. -/
def step (s : ReplaySession) : ReplayEvent → ReplaySession
  | .send cycle arm9Pc arm7Pc data =>
      { s with
        driver := ((s.driver.setCurrent cycle arm9Pc arm7Pc).sendPacket data).1
        sent := if data.length = 0 then s.sent else s.sent ++ [data] }
  | .receive cycle arm9Pc arm7Pc =>
      let (driver, frames) := (s.driver.setCurrent cycle arm9Pc arm7Pc).recvCheck
      { s with
        driver := driver
        deliveries := s.deliveries ++ frames.mapIdx fun i frame =>
          { index := s.driver.nextRx + i, frame := frame, cycle := cycle, sent := s.sent } }

def run (s : ReplaySession) (events : List ReplayEvent) : ReplaySession := events.foldl step s

end ReplaySession

end NdsRecomp.Net

/-!
What a replayed session delivers and reports, over any interleaving of sends and
polls, and what sanitizing a capture leaves of both.
-/

namespace NdsRecomp.Net

/-! ### Comparison -/

/-- The comparison state after the frames sent. -/
def comparisonState (sanitized : Bool) (sent : List (List UInt8)) : NdsNetSanitizeState :=
  sent.foldl (fun state data => (comparisonCopy sanitized state data).2) {}

/-- The `k`-th frame sent equals the `k`-th recorded one, as compared. -/
def Agrees (records : List NdsNetCaptureRecord) (sanitized : Bool) (sent : List (List UInt8))
    (k : Nat) : Prop :=
  ∃ recorded data, (txRecordsOf records)[k]? = some recorded ∧ sent[k]? = some data ∧
    recorded.frame = (comparisonCopy sanitized (comparisonState sanitized (sent.take k)) data).1

section Agreement

variable {records : List NdsNetCaptureRecord} {sanitized : Bool} {sent sent' : List (List UInt8)}
  {k : Nat}

theorem comparisonState_append (data : List UInt8) :
    comparisonState sanitized (sent ++ [data]) =
      (comparisonCopy sanitized (comparisonState sanitized sent) data).2 := by
  unfold comparisonState
  rw [List.foldl_append]
  rfl

/-- Later sends change nothing about earlier ones. -/
theorem agrees_earlier (h : sent <+: sent') (hk : k < sent.length) :
    Agrees records sanitized sent' k ↔ Agrees records sanitized sent k := by
  obtain ⟨rest, rfl⟩ := h
  unfold Agrees
  rw [List.getElem?_append_left hk, List.take_append_of_le_length (Nat.le_of_lt hk)]

theorem agrees_append_length (data : List UInt8) :
    Agrees records sanitized (sent ++ [data]) sent.length ↔
      ∃ recorded, (txRecordsOf records)[sent.length]? = some recorded ∧
        recorded.frame = (comparisonCopy sanitized (comparisonState sanitized sent) data).1 := by
  unfold Agrees
  rw [List.getElem?_concat_length, List.take_left]
  constructor
  · rintro ⟨recorded, d, hrecorded, hd, hframe⟩
    cases hd
    exact ⟨recorded, hrecorded, hframe⟩
  · rintro ⟨recorded, hrecorded, hframe⟩
    exact ⟨recorded, data, hrecorded, rfl, hframe⟩

end Agreement

/-! ### One event -/

/-- What a send can do to the driver. -/
theorem sendPacket_cases (r : NetReplay) (data : List UInt8) :
    (r.mismatch.isSome = true ∧ (r.sendPacket data).1 = r) ∨
      (r.mismatch = none ∧ data.length = 0 ∧ (r.sendPacket data).1 = r) ∨
        (r.mismatch = none ∧ data.length ≠ 0 ∧ ∃ expected, r.txRecords[r.nextTx]? = some expected ∧
          expected.frame =
            (comparisonCopy r.expectationsSanitized r.comparisonSanitizeState data).1 ∧
          (r.sendPacket data).1 =
            { r with
              comparisonSanitizeState :=
                (comparisonCopy r.expectationsSanitized r.comparisonSanitizeState data).2
              nextTx := r.nextTx + 1
              txMatched := r.txMatched + 1 }) ∨
          (r.mismatch = none ∧ data.length ≠ 0 ∧
            (∀ expected, r.txRecords[r.nextTx]? = some expected → expected.frame ≠
              (comparisonCopy r.expectationsSanitized r.comparisonSanitizeState data).1) ∧
            ∃ state m, m.txFrameIndex = r.nextTx ∧ m.actual = data ∧
              (r.sendPacket data).1 =
                { r with comparisonSanitizeState := state, mismatch := some m }) := by
  unfold NetReplay.sendPacket
  cases hmismatch : r.mismatch with
  | some m => exact Or.inl ⟨rfl, rfl⟩
  | none =>
      refine Or.inr ?_
      rw [if_neg (by simp)]
      by_cases hempty : data.length = 0
      · exact Or.inl ⟨rfl, hempty, by rw [if_pos hempty]⟩
      · refine Or.inr ?_
        rw [if_neg hempty]
        cases hrecord : r.txRecords[r.nextTx]? with
        | none =>
            refine Or.inr ⟨rfl, hempty, (fun _ hexpected => by cases hexpected), ?_⟩
            exact ⟨r.comparisonSanitizeState, _, rfl, rfl, rfl⟩
        | some expected =>
            dsimp only
            by_cases hsame : expected.frame =
                (comparisonCopy r.expectationsSanitized r.comparisonSanitizeState data).1
            · refine Or.inl ⟨rfl, hempty, expected, rfl, hsame, ?_⟩
              rw [if_pos hsame]
            · refine Or.inr ⟨rfl, hempty, ?_, ?_⟩
              · intro other hother
                cases hother
                exact hsame
              · rw [if_neg hsame]
                exact ⟨_, _, rfl, rfl, rfl⟩

/-! ### Runs -/

/-- A delivery, at its ordinal: the recorded cycle is reached, the sends that
preceded the record were sent and agree, and the frame is the recorded one with
the identity put back. -/
structure Delivery.Faithful (records : List NdsNetCaptureRecord) (sanitized : Bool) (d : Delivery)
    (record : NdsNetCaptureRecord × Nat) : Prop where
  cycle : record.1.guestCycle ≤ d.cycle
  sent : record.2 ≤ d.sent.length
  agreed : ∀ k < record.2, Agrees records sanitized d.sent k
  frame : ∃ state, d.frame = restored sanitized state record.1.frame

/-- What holds between the driver and the session at any time. -/
structure Tracks (records : List NdsNetCaptureRecord) (sanitized : Bool) (s : ReplaySession) :
    Prop where
  tx : s.driver.txRecords = txRecordsOf records
  rx : s.driver.rxRecords = rxRequired 0 records
  mode : s.driver.expectationsSanitized = sanitized
  matched : s.driver.txMatched = s.driver.nextTx
  bounded : s.driver.nextTx ≤ s.sent.length
  agreed : ∀ k < s.driver.nextTx, Agrees records sanitized s.sent k
  clean : s.driver.mismatch = none → s.driver.nextTx = s.sent.length ∧
    s.driver.comparisonSanitizeState = comparisonState sanitized s.sent
  latched : ∀ m, s.driver.mismatch = some m → m.txFrameIndex = s.driver.nextTx ∧
    s.sent[s.driver.nextTx]? = some m.actual ∧ ¬ Agrees records sanitized s.sent s.driver.nextTx
  delivered : s.driver.nextRx = s.deliveries.length
  faithful : ∀ (i : Nat) (d : Delivery), s.deliveries[i]? = some d → d.index = i ∧ d.sent <+: s.sent ∧
    ∃ record, (rxRequired 0 records)[i]? = some record ∧ d.Faithful records sanitized record ∧
      (s.driver.mismatch = none →
        d.frame = restored sanitized (comparisonState sanitized d.sent) record.1.frame)

section Steps

variable {records : List NdsNetCaptureRecord} {sanitized : Bool} {s : ReplaySession}

theorem tracks_start (records : List NdsNetCaptureRecord) (sanitized : Bool) :
    Tracks records sanitized (.start records sanitized) where
  tx := rfl
  rx := rfl
  mode := rfl
  matched := rfl
  bounded := le_refl _
  agreed := fun k hk => absurd hk (Nat.not_lt_zero k)
  clean := fun _ => ⟨rfl, rfl⟩
  latched := fun m hm => by cases hm
  delivered := rfl
  faithful := fun i d hd => by simp [ReplaySession.start] at hd

theorem Tracks.setCurrent (h : Tracks records sanitized s) (cycle : UInt64) (arm9Pc arm7Pc : UInt32) :
    Tracks records sanitized { s with driver := s.driver.setCurrent cycle arm9Pc arm7Pc } :=
  ⟨h.tx, h.rx, h.mode, h.matched, h.bounded, h.agreed, h.clean, h.latched, h.delivered, h.faithful⟩

theorem getElem?_earlier {α : Type*} {l l' : List α} {k : Nat} {a : α} (h : l <+: l')
    (hk : l[k]? = some a) : l'[k]? = some a := by
  obtain ⟨rest, rfl⟩ := h
  rw [List.getElem?_append_left (List.getElem?_eq_some_iff.mp hk).1]
  exact hk

/-- Once a mismatch is kept, further sends change nothing. -/
theorem Tracks.send_latched (h : Tracks records sanitized s) {sent : List (List UInt8)}
    (hsent : s.sent <+: sent) {m : NdsNetReplayMismatch} (hm : s.driver.mismatch = some m) :
    Tracks records sanitized { s with sent := sent } := by
  obtain ⟨hindex, hactual, hdiffers⟩ := h.latched m hm
  have hlt : s.driver.nextTx < s.sent.length := (List.getElem?_eq_some_iff.mp hactual).1
  refine ⟨h.tx, h.rx, h.mode, h.matched, h.bounded.trans hsent.length_le, ?_, ?_, ?_, h.delivered, ?_⟩
  · intro k hk
    exact (agrees_earlier hsent (Nat.lt_of_lt_of_le hk h.bounded)).mpr (h.agreed k hk)
  · intro hnone
    rw [hm] at hnone
    cases hnone
  · intro m' hm'
    rw [hm] at hm'
    cases hm'
    refine ⟨hindex, getElem?_earlier hsent hactual, fun hagrees => hdiffers ?_⟩
    exact (agrees_earlier hsent hlt).mp hagrees
  · intro i d hd
    obtain ⟨hi, hearlier, record, hrecord, hfaithful, hframe⟩ := h.faithful i d hd
    exact ⟨hi, hearlier.trans hsent, record, hrecord, hfaithful, hframe⟩

theorem Tracks.send (h : Tracks records sanitized s) (data : List UInt8) :
    Tracks records sanitized { s with
      driver := (s.driver.sendPacket data).1
      sent := if data.length = 0 then s.sent else s.sent ++ [data] } := by
  have hearlier : s.sent <+: s.sent ++ [data] := List.prefix_append _ _
  rcases sendPacket_cases s.driver data with ⟨hlatched, hsame⟩ | ⟨hclean, hempty, hsame⟩ |
    ⟨hclean, hdata, expected, hexpected, hframe, hnext⟩ | ⟨hclean, hdata, hdiffers, state, m, hindex, hactual, hnext⟩
  · obtain ⟨m, hm⟩ := Option.isSome_iff_exists.mp hlatched
    rw [hsame]
    refine h.send_latched ?_ hm
    split
    · exact List.prefix_refl _
    · exact hearlier
  · rw [hsame, if_pos hempty]
    exact h
  · obtain ⟨hlength, hstate⟩ := h.clean hclean
    rw [h.mode, hstate] at hframe
    rw [h.tx, hlength] at hexpected
    rw [hnext, if_neg hdata]
    have hhere : Agrees records sanitized (s.sent ++ [data]) s.sent.length :=
      (agrees_append_length data).mpr ⟨expected, hexpected, hframe⟩
    refine ⟨h.tx, h.rx, h.mode, congrArg (· + 1) h.matched, ?_, ?_, ?_, ?_, h.delivered, ?_⟩
    · simp [hlength]
    · intro k hk
      rcases Nat.lt_succ_iff_lt_or_eq.mp hk with hlt | heq
      · exact (agrees_earlier hearlier (Nat.lt_of_lt_of_le hlt h.bounded)).mpr (h.agreed k hlt)
      · rw [heq, hlength]
        exact hhere
    · intro _
      refine ⟨by simp [hlength], ?_⟩
      rw [comparisonState_append, ← hstate, ← h.mode]
    · intro m hm
      rw [hclean] at hm
      cases hm
    · intro i d hd
      obtain ⟨hi, hsent, record, hrecord, hfaithful, hdelivered⟩ := h.faithful i d hd
      exact ⟨hi, hsent.trans hearlier, record, hrecord, hfaithful, fun _ => hdelivered hclean⟩
  · obtain ⟨hlength, hstate⟩ := h.clean hclean
    rw [h.mode, hstate, h.tx, hlength] at hdiffers
    rw [hnext, if_neg hdata]
    refine ⟨h.tx, h.rx, h.mode, h.matched, h.bounded.trans hearlier.length_le, ?_, ?_, ?_, h.delivered, ?_⟩
    · intro k hk
      exact (agrees_earlier hearlier (Nat.lt_of_lt_of_le hk h.bounded)).mpr (h.agreed k hk)
    · intro hnone
      cases hnone
    · intro m' hm'
      cases hm'
      refine ⟨hindex, ?_, ?_⟩
      · rw [hactual, hlength]
        exact List.getElem?_concat_length
      · rw [hlength, agrees_append_length]
        rintro ⟨recorded, hrecorded, hsame⟩
        exact hdiffers recorded hrecorded hsame
    · intro i d hd
      obtain ⟨hi, hsent, record, hrecord, hfaithful, -⟩ := h.faithful i d hd
      exact ⟨hi, hsent.trans hearlier, record, hrecord, hfaithful, fun hnone => by cases hnone⟩

theorem dueRecords_getElem? {r : NetReplay} {j : Nat} {record : NdsNetCaptureRecord × Nat}
    (h : r.dueRecords[j]? = some record) :
    r.rxRecords[r.nextRx + j]? = some record ∧ r.due record = true := by
  unfold NetReplay.dueRecords at h
  constructor
  · rw [← List.getElem?_drop]
    exact getElem?_earlier (List.takeWhile_prefix _) h
  · exact List.mem_takeWhile_imp (List.mem_of_getElem? h)

theorem Tracks.receive (h : Tracks records sanitized s) :
    Tracks records sanitized { s with
      driver := s.driver.recvCheck.1
      deliveries := s.deliveries ++ s.driver.recvCheck.2.mapIdx fun i frame =>
        { index := s.driver.nextRx + i, frame := frame, cycle := s.driver.currentCycle,
          sent := s.sent } } := by
  refine ⟨h.tx, h.rx, h.mode, h.matched, h.bounded, h.agreed, h.clean, h.latched, ?_, ?_⟩
  · simp [NetReplay.recvCheck, h.delivered]
  · intro i d hd
    rcases Nat.lt_or_ge i s.deliveries.length with hold | hnew
    · rw [List.getElem?_append_left hold] at hd
      exact h.faithful i d hd
    · rw [List.getElem?_append_right hnew, List.getElem?_mapIdx] at hd
      obtain ⟨frame, hframe, rfl⟩ := Option.map_eq_some_iff.mp hd
      have hindex : s.driver.nextRx + (i - s.deliveries.length) = i := by
        rw [h.delivered]
        omega
      unfold NetReplay.recvCheck at hframe
      dsimp only at hframe
      rw [List.getElem?_map] at hframe
      obtain ⟨record, hrecord, rfl⟩ := Option.map_eq_some_iff.mp hframe
      obtain ⟨hrx, hdue⟩ := dueRecords_getElem? hrecord
      rw [hindex, h.rx] at hrx
      unfold NetReplay.due at hdue
      rw [Bool.and_eq_true, decide_eq_true_eq, decide_eq_true_eq] at hdue
      refine ⟨hindex, List.prefix_refl _, record, hrx, ⟨hdue.1, hdue.2.trans h.bounded, ?_, ?_⟩, ?_⟩
      · intro k hk
        exact h.agreed k (Nat.lt_of_lt_of_le hk hdue.2)
      · refine ⟨s.driver.comparisonSanitizeState, ?_⟩
        rw [← h.mode]
        rfl
      · intro hclean
        change restored s.driver.expectationsSanitized s.driver.comparisonSanitizeState _ = _
        rw [h.mode, (h.clean hclean).2]

theorem Tracks.step (h : Tracks records sanitized s) (e : ReplayEvent) :
    Tracks records sanitized (s.step e) := by
  cases e with
  | send cycle arm9Pc arm7Pc data => exact (h.setCurrent cycle arm9Pc arm7Pc).send data
  | receive cycle arm9Pc arm7Pc => exact (h.setCurrent cycle arm9Pc arm7Pc).receive

theorem tracks_run (h : Tracks records sanitized s) (events : List ReplayEvent) :
    Tracks records sanitized (s.run events) := by
  induction events generalizing s with
  | nil => exact h
  | cons e events ih => exact ih (h.step e)

end Steps

/-! ### What precedes a record -/

/-- The receive record `i` in the capture, with the sends before it counted. -/
theorem rxRequired_getElem? {records : List NdsNetCaptureRecord} {seen i : Nat}
    {record : NdsNetCaptureRecord × Nat} (h : (rxRequired seen records)[i]? = some record) :
    ∃ before after, records = before ++ record.1 :: after ∧ record.1.isTx = false ∧
      record.2 = seen + (txRecordsOf before).length ∧
      i = (before.filter fun r => !r.isTx).length := by
  induction records generalizing seen i with
  | nil => simp [rxRequired] at h
  | cons r records ih =>
      unfold rxRequired at h
      cases hdirection : r.isTx with
      | true =>
          rw [if_pos hdirection] at h
          obtain ⟨before, after, hsplit, hrx, hcount, hi⟩ := ih h
          refine ⟨r :: before, after, by rw [hsplit]; rfl, hrx, ?_, ?_⟩
          · rw [hcount, txRecordsOf, txRecordsOf, List.filter_cons_of_pos hdirection, List.length_cons]
            omega
          · rw [hi, List.filter_cons_of_neg (by simp [hdirection])]
      | false =>
          rw [hdirection, if_neg Bool.false_ne_true] at h
          cases i with
          | zero =>
              cases h
              exact ⟨[], records, rfl, hdirection, rfl, rfl⟩
          | succ i =>
              obtain ⟨before, after, hsplit, hrx, hcount, hi⟩ := ih h
              refine ⟨r :: before, after, by rw [hsplit]; rfl, hrx, ?_, ?_⟩
              · rw [hcount, txRecordsOf, txRecordsOf,
                  List.filter_cons_of_neg (by simp [hdirection])]
              · rw [hi, List.filter_cons_of_pos (by simp [hdirection]), List.length_cons]

/-- The `k`-th send in the capture. -/
theorem txRecordsOf_getElem? {records : List NdsNetCaptureRecord} {k : Nat} {r : NdsNetCaptureRecord}
    (h : (txRecordsOf records)[k]? = some r) :
    ∃ before after, records = before ++ r :: after ∧ r.isTx = true ∧
      k = (txRecordsOf before).length := by
  induction records generalizing k with
  | nil => simp [txRecordsOf] at h
  | cons head records ih =>
      unfold txRecordsOf at h
      cases hdirection : head.isTx with
      | true =>
          rw [List.filter_cons_of_pos hdirection] at h
          cases k with
          | zero =>
              cases h
              exact ⟨[], records, rfl, hdirection, rfl⟩
          | succ k =>
              obtain ⟨before, after, hsplit, htx, hk⟩ := ih h
              refine ⟨head :: before, after, by rw [hsplit]; rfl, htx, ?_⟩
              rw [hk, txRecordsOf, txRecordsOf, List.filter_cons_of_pos hdirection, List.length_cons]
      | false =>
          rw [List.filter_cons_of_neg (by simp [hdirection])] at h
          obtain ⟨before, after, hsplit, htx, hk⟩ := ih h
          refine ⟨head :: before, after, by rw [hsplit]; rfl, htx, ?_⟩
          rw [hk, txRecordsOf, txRecordsOf, List.filter_cons_of_neg (by simp [hdirection])]

end NdsRecomp.Net
