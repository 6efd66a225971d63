import NdsRecomp.Exec.StoreStamps
import NdsRecomp.Video.CaptureStore

/-!
Write marks and page generations of video memory over runs. Guest stores keep
both; a captured line is stored through a bank pointer and keeps neither, so
the metadata follow every byte exactly in the runs whose captured lines bring
nothing new.
-/

namespace NdsRecomp.Exec

open Library Bus Video VramState

/-! ### One store -/

/-- From `v` to `v'` the metadata followed the bytes of the stores: at most `k`
advances of each page, at least one where a store fell. -/
structure Recorded (k : Nat) (stored : Nat → Bool) (v v' : VramState) : Prop where
  elsewhere : ∀ p < kTotalVram, stored p = false → v'.vram p = v.vram p
  marked : ∀ p < kTotalVram, stored p = true → v'.written p = true
  kept : ∀ p, v.written p = true → v'.written p = true
  advanced : ∀ page, ∃ n ≤ k, v'.generation page = bumpGeneration^[n] (v.generation page) ∧
    ((∃ p < kTotalVram, p / 4096 = page ∧ stored p = true) → 0 < n)

theorem Recorded.refl (k : Nat) (v : VramState) : Recorded k (fun _ => false) v v where
  elsewhere _ _ _ := rfl
  marked _ _ h := by cases h
  kept _ h := h
  advanced page := ⟨0, Nat.zero_le k, rfl, fun ⟨_, _, _, h⟩ => by cases h⟩

theorem Recorded.trans {k l : Nat} {stored stored' : Nat → Bool} {v v' v'' : VramState}
    (h : Recorded k stored v v') (h' : Recorded l stored' v' v'') :
    Recorded (k + l) (fun p => stored p || stored' p) v v'' where
  elsewhere p hp hnone := by
    rw [Bool.or_eq_false_iff] at hnone
    rw [h'.elsewhere p hp hnone.2, h.elsewhere p hp hnone.1]
  marked p hp hsome := by
    rw [Bool.or_eq_true] at hsome
    rcases hsome with hfirst | hsecond
    · exact h'.kept p (h.marked p hp hfirst)
    · exact h'.marked p hp hsecond
  kept p hp := h'.kept p (h.kept p hp)
  advanced page := by
    obtain ⟨n, hn, hgen, hpos⟩ := h.advanced page
    obtain ⟨n', hn', hgen', hpos'⟩ := h'.advanced page
    refine ⟨n' + n, by omega, ?_, ?_⟩
    · rw [hgen', hgen, Function.iterate_add_apply]
    · rintro ⟨p, hp, hpage, hstored⟩
      rw [Bool.or_eq_true] at hstored
      rcases hstored with hfirst | hsecond
      · have := hpos ⟨p, hp, hpage, hfirst⟩
        omega
      · have := hpos' ⟨p, hp, hpage, hsecond⟩
        omega

theorem Recorded.mono {k l : Nat} {stored : Nat → Bool} {v v' : VramState}
    (h : Recorded k stored v v') (hle : k ≤ l) : Recorded l stored v v' where
  elsewhere := h.elsewhere
  marked := h.marked
  kept := h.kept
  advanced page := by
    obtain ⟨n, hn, hrest⟩ := h.advanced page
    exact ⟨n, hn.trans hle, hrest⟩

theorem storePhysical_recorded (v : VramState) (physical : Nat) (value : UInt32) (width : Width) :
    Recorded 1 (covers [physical] width.bytes) v (v.storePhysical physical value width) := by
  have hpos : 0 < width.bytes := by cases width <;> decide
  have hcovers (p : Nat) :
      covers [physical] width.bytes p = true ↔ physical ≤ p ∧ p < physical + width.bytes := by
    unfold covers
    simp
  constructor
  · intro p _ hnone
    have hout : ¬ (physical ≤ p ∧ p < physical + width.bytes) := by
      rw [← hcovers, hnone]
      exact Bool.false_ne_true
    exact if_neg hout
  · intro p hp hsome
    have hin := (hcovers p).mp hsome
    exact if_pos ⟨hin.1, by omega⟩
  · intro p hp
    change fillRange v.written physical _ (fun _ => true) p = true
    unfold fillRange
    split
    · rfl
    · exact hp
  · intro page
    by_cases hpage : physical >>> execPageShift ≤ page ∧
        page ≤ (min kTotalVram (physical + width.bytes) - 1) >>> execPageShift
    · exact ⟨1, le_rfl, if_pos hpage, fun _ => Nat.one_pos⟩
    · refine ⟨0, Nat.zero_le 1, if_neg hpage, ?_⟩
      rintro ⟨p, hp, rfl, hstored⟩
      have hin := (hcovers p).mp hstored
      refine absurd ?_ hpage
      change physical >>> 12 ≤ p / 4096 ∧ p / 4096 ≤ (min kTotalVram (physical + width.bytes) - 1) >>> 12
      rw [Nat.shiftRight_eq_div_pow, Nat.shiftRight_eq_div_pow]
      omega

theorem storeAll_recorded (v : VramState) (stores : List Nat) (value : UInt32) (width : Width) :
    Recorded stores.length (covers stores width.bytes) v (v.storeAll stores value width) := by
  induction stores generalizing v with
  | nil => exact Recorded.refl 0 v
  | cons physical rest ih =>
      have hboth := (storePhysical_recorded v physical value width).trans
        (ih (v.storePhysical physical value width))
      have hcovers : covers (physical :: rest) width.bytes =
          fun p => covers [physical] width.bytes p || covers rest width.bytes p := by
        funext p
        unfold covers
        simp
      rw [hcovers, List.length_cons, Nat.add_comm]
      exact hboth

theorem mappedStores_length (mask : UInt16) (addr : UInt32) :
    (mappedStores mask addr).length ≤ 9 := by
  unfold mappedStores
  rw [List.length_map]
  exact (List.length_filter_le _ _).trans (le_of_eq (List.length_finRange))

theorem videoStores_length (v : VramState) (cpu : NdsCpu) (addr : UInt32) (width : Width) :
    (v.videoStores cpu addr width).length ≤ 9 := by
  unfold videoStores
  cases cpu with
  | arm7 =>
      dsimp only
      split
      · exact mappedStores_length _ _
      · exact Nat.zero_le 9
  | arm9 =>
      dsimp only
      split
      · exact Nat.zero_le 9
      split
      · split
        · exact mappedStores_length _ _
        split
        · split
          · exact Nat.succ_le_succ (Nat.zero_le 8)
          · exact Nat.zero_le 9
        · exact Nat.zero_le 9
      · exact Nat.zero_le 9

theorem ndsVideoWrite_recorded (v : VramState) (cpu : NdsCpu) (addr value : UInt32)
    (width : Width) :
    Recorded 9 (covers (v.videoStores cpu addr width) width.bytes) v
      (v.ndsVideoWrite cpu addr value width) := by
  rw [ndsVideoWrite_eq_storeAll]
  exact (storeAll_recorded v _ value width).mono (videoStores_length v cpu addr width)

theorem ndsVramMap_recorded (v : VramState) (bank : VramBank) (value : UInt8) :
    Recorded 0 (fun _ => false) v (v.ndsVramMap bank value) := by
  obtain ⟨hvram, hwritten, hgeneration⟩ := ndsVramMap_sameBanks v bank value
  constructor
  · intro p _ _
    rw [hvram]
  · intro _ _ h
    cases h
  · intro p hp
    rw [hwritten]
    exact hp
  · intro page
    exact ⟨0, le_rfl, congrFun hgeneration page, fun ⟨_, _, _, h⟩ => by cases h⟩

/-! ### Captured lines -/

theorem storePixels_elsewhere (bank : VramBank) (dst : UInt32) (pixels : List UInt16)
    (bytes : Nat → UInt8) {p : Nat} (h : covers (pixelOffsets bank dst pixels) 2 p = false) :
    storePixels bank dst pixels bytes p = bytes p := by
  induction pixels generalizing dst bytes with
  | nil => rfl
  | cons pixel rest ih =>
      unfold covers at h ih
      rw [pixelOffsets, List.any_cons, Bool.or_eq_false_iff] at h
      rw [storePixels, ih _ _ h.2]
      refine if_neg fun hin => ?_
      have hfirst := h.1
      simp only [Bool.and_eq_false_iff, decide_eq_false_iff_not] at hfirst
      omega

theorem applyStagedCapture_elsewhere (v : VramState) (c : StagedCapture) {p : Nat}
    (h : covers (pixelOffsets c.dstbank c.dstaddr c.pixels) 2 p = false) :
    (applyStagedCapture v c).vram p = v.vram p := by
  unfold applyStagedCapture
  split
  · rfl
  · exact storePixels_elsewhere _ _ _ _ h

theorem applyStagedCapture_metadata (v : VramState) (c : StagedCapture) :
    (applyStagedCapture v c).written = v.written ∧
      (applyStagedCapture v c).generation = v.generation := by
  unfold applyStagedCapture
  split <;> exact ⟨rfl, rfl⟩

/-- The line brings nothing new: its pixels are in memory already, and their bytes
are marked. -/
def BringsNothing (v : VramState) (c : StagedCapture) : Prop :=
  (∀ p < kTotalVram, (applyStagedCapture v c).vram p = v.vram p) ∧
    ∀ p < kTotalVram, covers (pixelOffsets c.dstbank c.dstaddr c.pixels) 2 p = true →
      v.written p = true

/-- What the metadata ask of an operation: a captured line brings nothing new. -/
def CaptureRecorded (s : HardwareVram) (op : HardwareOp) : Prop :=
  op = .apply → ∀ c rest, s.staged = c :: rest → BringsNothing s.vram c

/-! ### Runs -/

/-- Video memory between two resets or loads, as long as no generation wraps. At the
start every byte known to be the guest's is marked. -/
def hardwareVramSystem : OpSystem HardwareVram HardwareOp where
  initial := fun s => ∀ p < kTotalVram, s.produced p = true → s.vram.written p = true
  admits := fun s op =>
    ∀ page, (s.vram.generation page).toNat ≤ ((s.next op).vram.generation page).toNat
  next := HardwareVram.next

/-- Between two states of a run: generations do not go back, and a byte that changed
is marked and its page has advanced. -/
structure Followed (v v' : VramState) : Prop where
  forward : ∀ page, (v.generation page).toNat ≤ (v'.generation page).toNat
  kept : ∀ p < kTotalVram, v.written p = true → v'.written p = true
  changed : ∀ p < kTotalVram, v'.vram p ≠ v.vram p →
    v'.written p = true ∧ (v.generation (p / 4096)).toNat < (v'.generation (p / 4096)).toNat

theorem Followed.refl (v : VramState) : Followed v v where
  forward _ := Nat.le_refl _
  kept _ _ h := h
  changed _ _ h := absurd rfl h

theorem Followed.trans {v v' v'' : VramState} (h : Followed v v') (h' : Followed v' v'') :
    Followed v v'' where
  forward page := (h.forward page).trans (h'.forward page)
  kept p hp hw := h'.kept p hp (h.kept p hp hw)
  changed p hp hne := by
    by_cases hlast : v''.vram p = v'.vram p
    · obtain ⟨hw, hlt⟩ := h.changed p hp (hlast ▸ hne)
      exact ⟨h'.kept p hp hw, hlt.trans_le (h'.forward _)⟩
    · obtain ⟨hw, hlt⟩ := h'.changed p hp hlast
      exact ⟨hw, (h.forward _).trans_lt hlt⟩

theorem Recorded.followed {k : Nat} (hk : k < 4294967295) {stored : Nat → Bool}
    {v v' : VramState} (h : Recorded k stored v v')
    (hwrap : ∀ page, (v.generation page).toNat ≤ (v'.generation page).toNat) :
    Followed v v' where
  forward := hwrap
  kept p _ hp := h.kept p hp
  changed p hp hne := by
    have hstored : stored p = true := by
      by_contra hnot
      rw [Bool.not_eq_true] at hnot
      exact hne (h.elsewhere p hp hnot)
    obtain ⟨n, hn, hgen, hpos⟩ := h.advanced (p / 4096)
    have hfresh := bump_iterate_ne (hpos ⟨p, hp, rfl, hstored⟩) (lt_of_le_of_lt hn hk)
      (v.generation (p / 4096))
    rw [← hgen] at hfresh
    exact ⟨h.marked p hp hstored,
      lt_of_le_of_ne (hwrap _) fun heq => hfresh (UInt32.toNat_inj.mp heq.symm)⟩

/-- Every byte known to be the guest's or its hardware's is marked. -/
def ProducedMarked (s : HardwareVram) : Prop :=
  ∀ p < kTotalVram, s.produced p = true → s.vram.written p = true

section Step

variable {s : HardwareVram} {op : HardwareOp}

theorem next_followed (hadmits : hardwareVramSystem.admits s op) (hrecorded : CaptureRecorded s op) :
    Followed s.vram (s.next op).vram := by
  cases op with
  | write cpu addr value width =>
      exact (ndsVideoWrite_recorded s.vram cpu addr value width).followed (by decide) hadmits
  | map bank value => exact (ndsVramMap_recorded s.vram bank value).followed (by decide) hadmits
  | stage capture line colours => exact Followed.refl _
  | apply =>
      cases hstaged : s.staged with
      | nil =>
          have hsame : s.next .apply = s := by
            unfold HardwareVram.next HardwareVram.apply
            rw [hstaged]
          rw [hsame]
          exact Followed.refl _
      | cons c rest =>
          have hvram : (s.next .apply).vram = applyStagedCapture s.vram c := by
            unfold HardwareVram.next HardwareVram.apply
            rw [hstaged]
          obtain ⟨hbytes, -⟩ := hrecorded rfl c rest hstaged
          obtain ⟨hwritten, -⟩ := applyStagedCapture_metadata s.vram c
          rw [hvram]
          refine ⟨hvram ▸ hadmits, ?_, ?_⟩
          · intro p _ hp
            rw [hwritten]
            exact hp
          · intro p hp hne
            exact absurd (hbytes p hp) hne

theorem next_producedMarked (h : ProducedMarked s) (hrecorded : CaptureRecorded s op) :
    ProducedMarked (s.next op) := by
  cases op with
  | write cpu addr value width =>
      have hwrite := ndsVideoWrite_recorded s.vram cpu addr value width
      intro p hp hproduced
      rcases (Bool.or_eq_true _ _).mp hproduced with hbefore | hnow
      · exact hwrite.kept p (h p hp hbefore)
      · exact hwrite.marked p hp hnow
  | map bank value =>
      intro p hp hproduced
      exact (ndsVramMap_recorded s.vram bank value).kept p (h p hp hproduced)
  | stage capture line colours => exact h
  | apply =>
      cases hstaged : s.staged with
      | nil =>
          have hsame : s.next .apply = s := by
            unfold HardwareVram.next HardwareVram.apply
            rw [hstaged]
          rw [hsame]
          exact h
      | cons c rest =>
          obtain ⟨-, hmarks⟩ := hrecorded rfl c rest hstaged
          obtain ⟨hwritten, -⟩ := applyStagedCapture_metadata s.vram c
          intro p hp hproduced
          unfold HardwareVram.next HardwareVram.apply at hproduced ⊢
          rw [hstaged] at hproduced ⊢
          change (applyStagedCapture s.vram c).written p = true
          rw [hwritten]
          rcases (Bool.or_eq_true _ _).mp hproduced with hbefore | hnow
          · exact h p hp hbefore
          · exact hmarks p hp hnow

end Step

theorem producedMarked_invariant :
    (hardwareVramSystem.restrict CaptureRecorded).Invariant ProducedMarked where
  start _ h := h
  step _ _ h hadmits := next_producedMarked h hadmits.2

theorem run_followed {s : HardwareVram} {ops : List HardwareOp}
    (h : (hardwareVramSystem.restrict CaptureRecorded).AdmitsAll s ops) :
    Followed s.vram ((hardwareVramSystem.restrict CaptureRecorded).runFrom s ops).vram := by
  induction ops generalizing s with
  | nil => exact Followed.refl _
  | cons op ops ih => exact (next_followed h.1.1 h.1.2).trans (ih h.2)

/-- The runs whose captured lines bring nothing new. -/
def recordedVramSystem : OpSystem HardwareVram HardwareOp :=
  hardwareVramSystem.restrict CaptureRecorded

/-- As long as captured lines bring nothing new: a byte that the run changed at any
time is marked at the end and its page's generation differs from the one at the
start; a page whose generation is unchanged kept its bytes throughout; and a range
of bytes that the guest or its hardware stored has provenance. -/
theorem vram_metadata_follows {s : HardwareVram} (hs : recordedVramSystem.Reachable s)
    (ops more : List HardwareOp) (hrun : recordedVramSystem.AdmitsAll s (ops ++ more)) :
    (∀ p < kTotalVram, (recordedVramSystem.runFrom s ops).vram.vram p ≠ s.vram.vram p →
      (recordedVramSystem.runFrom s (ops ++ more)).vram.generation (p / 4096) ≠
          s.vram.generation (p / 4096) ∧
        (recordedVramSystem.runFrom s (ops ++ more)).vram.written p = true) ∧
    (∀ cpu addr p p', s.vram.execPhysicalOffset cpu addr = some p →
      (recordedVramSystem.runFrom s (ops ++ more)).vram.execPhysicalOffset cpu addr = some p' →
      p' / 4096 = p / 4096 →
      (recordedVramSystem.runFrom s (ops ++ more)).vram.execPageGeneration cpu addr =
        s.vram.execPageGeneration cpu addr →
      ∀ q < kTotalVram, q / 4096 = p / 4096 →
        (recordedVramSystem.runFrom s ops).vram.vram q = s.vram.vram q) ∧
    (∀ cpu addr size, size ≠ 0 →
      (∀ i < size, ∃ p < kTotalVram,
        (recordedVramSystem.runFrom s (ops ++ more)).vram.execPhysicalOffset cpu
            (addr + UInt32.ofNat i) = some p ∧
          (recordedVramSystem.runFrom s (ops ++ more)).produced p = true) →
      (recordedVramSystem.runFrom s (ops ++ more)).vram.rangeHasWriteProvenance cpu addr size =
        true) := by
  obtain ⟨hops, hmore⟩ := OpSystem.admitsAll_append hrun
  have hfirst := run_followed hops
  have hsecond := run_followed hmore
  have hreached : ProducedMarked (recordedVramSystem.runFrom s (ops ++ more)) :=
    (hs.runFrom hrun).invariant producedMarked_invariant
  rw [OpSystem.runFrom_append] at hreached ⊢
  have hchanged : ∀ p < kTotalVram,
      (recordedVramSystem.runFrom s ops).vram.vram p ≠ s.vram.vram p →
      (recordedVramSystem.runFrom (recordedVramSystem.runFrom s ops) more).vram.generation
          (p / 4096) ≠ s.vram.generation (p / 4096) ∧
        (recordedVramSystem.runFrom (recordedVramSystem.runFrom s ops) more).vram.written p =
          true := by
    intro p hp hne
    obtain ⟨hwritten, hlt⟩ := hfirst.changed p hp hne
    refine ⟨fun heq => ?_, hsecond.kept p hp hwritten⟩
    have hback := hlt.trans_le (hsecond.forward (p / 4096))
    change _ < ((recordedVramSystem.runFrom _ more).vram.generation (p / 4096)).toNat at hback
    rw [heq] at hback
    exact lt_irrefl _ hback
  refine ⟨hchanged, ?_, ?_⟩
  · intro cpu addr p p' hp hp' hpage hgen q hq hqpage
    by_contra hne
    refine (hchanged q hq hne).1 ?_
    unfold execPageGeneration at hgen
    rw [hp, hp'] at hgen
    change VramState.generation _ (p' >>> 12) = s.vram.generation (p >>> 12) at hgen
    rw [Nat.shiftRight_eq_div_pow, Nat.shiftRight_eq_div_pow] at hgen
    change VramState.generation _ (p' / 4096) = s.vram.generation (p / 4096) at hgen
    rw [hpage] at hgen
    rw [hqpage]
    exact hgen
  · intro cpu addr size hsize hrange
    unfold rangeHasWriteProvenance
    rw [Bool.and_eq_true, List.all_eq_true]
    refine ⟨by simpa using hsize, fun i hi => ?_⟩
    obtain ⟨p, hp, hphysical, hproduced⟩ := hrange i (List.mem_range.mp hi)
    rw [hphysical]
    exact hreached p hp hproduced

private def resetVram : HardwareVram := { vram := {} }

private def lcdcMapped : HardwareVram := resetVram.next (.map 0 0x80)

private theorem map_forward (v : VramState) (bank : VramBank) (value : UInt8) (page : Nat) :
    (v.generation page).toNat ≤ ((v.ndsVramMap bank value).generation page).toNat := by
  rw [(ndsVramMap_sameBanks v bank value).2.2]

private theorem lcdcMapped_generation : lcdcMapped.vram.generation = fun _ => 0 :=
  (ndsVramMap_sameBanks {} 0 0x80).2.2

/-- A word stored in bank A while it is mapped for the processor. -/
theorem vram_metadata_follows_stored :
    (lcdcMapped.next (.write .arm9 0x06800000 0x12345678 .word)).vram.generation 0 ≠ 0 ∧
      (lcdcMapped.next (.write .arm9 0x06800000 0x12345678 .word)).vram.written 0 = true := by
  have hreset : recordedVramSystem.Reachable resetVram := .start fun _ _ h => by cases h
  have hwrite (page : Nat) : (lcdcMapped.vram.generation page).toNat ≤
      ((lcdcMapped.next (.write .arm9 0x06800000 0x12345678 .word)).vram.generation page).toNat := by
    rw [lcdcMapped_generation]
    exact Nat.zero_le _
  have hrun : recordedVramSystem.AdmitsAll resetVram
      ([.map 0 0x80, .write .arm9 0x06800000 0x12345678 .word] ++ []) := by
    refine ⟨⟨map_forward {} 0 0x80, fun h => ?_⟩, ⟨hwrite, fun h => ?_⟩, trivial⟩
    · cases h
    · cases h
  exact (vram_metadata_follows hreset [.map 0 0x80, .write .arm9 0x06800000 0x12345678 .word] []
    hrun).1 0 (by decide) (by decide)

private theorem next_apply_forward (s : HardwareVram) (page : Nat) :
    (s.vram.generation page).toNat ≤ ((s.next .apply).vram.generation page).toNat := by
  change _ ≤ (s.apply.vram.generation page).toNat
  unfold HardwareVram.apply
  cases s.staged with
  | nil => exact Nat.le_refl _
  | cons c rest =>
      change _ ≤ ((applyStagedCapture s.vram c).generation page).toNat
      rw [(applyStagedCapture_metadata s.vram c).2]

private def capturedLine : HardwareVram :=
  lcdcMapped.next (.stage 0x80000000 0 fun _ => 0x8001)

/-- A line captured into bank A changes its first byte, and neither the mark nor
the page generation says so. -/
theorem capture_leaves_metadata_behind :
    hardwareVramSystem.AdmitsAll resetVram
        [.map 0 0x80, .stage 0x80000000 0 fun _ => 0x8001, .apply] ∧
      (capturedLine.next .apply).vram.vram 0 ≠ resetVram.vram.vram 0 ∧
      (capturedLine.next .apply).vram.generation 0 = resetVram.vram.generation 0 ∧
      (capturedLine.next .apply).vram.written 0 = false ∧
      (capturedLine.next .apply).produced 0 = true ∧
      (capturedLine.next .apply).vram.rangeHasWriteProvenance .arm9 0x06800000 1 = false := by
  refine ⟨⟨map_forward {} 0 0x80, fun _ => Nat.le_refl _, next_apply_forward _, trivial⟩, ?_⟩
  set_option maxRecDepth 20000 in decide

end NdsRecomp.Exec
