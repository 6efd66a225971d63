import NdsRecomp.Timing.CodeFetch

/-!
The folded code-fetch cost is the call, in cycles and in the state left behind.
The published words are those of the latch whenever their generation is the
current one; a CP15 write that moves the map leaves the published generation
one step behind, where it cannot match before the next fetch republishes.
-/

namespace NdsRecomp.Timing

open Library Bus

/-- The published words are those the latch and the live ITCM window give. -/
structure CodeFetch.Published (s : CodeFetch) : Prop where
  latched : s.regionCodeTimingValid = true
  classShift : s.codeClassShift = 8 * s.regionCodeTiming.index
  itcmLimit : s.itcmCodeLimit = s.itcmWindow

/-- Nothing is published, the publication is current, or exactly one write has
moved the generation since. -/
structure CodeFetch.TokenSound (s : CodeFetch) : Prop where
  generation : s.timingGeneration ≠ 0
  token : s.pubGen = 0 ∨ s.pubGen = s.timingGeneration ∧ s.Published ∨
    s.timingGeneration = bumpGeneration s.pubGen

/-- A publication whose generation matches describes the current state. -/
theorem CodeFetch.TokenSound.published {s : CodeFetch} (h : s.TokenSound)
    (hcurrent : s.pubGen = s.timingGeneration) : s.Published := by
  rcases h.token with hzero | ⟨_, hpublished⟩ | hbehind
  · exact absurd (hcurrent.symm.trans hzero) h.generation
  · exact hpublished
  · exact absurd (hbehind.symm.trans hcurrent.symm) (bumpGeneration_ne _)

/-! ### The fold -/

theorem inItcm_eq (s : CodeFetch) (addr : UInt32) :
    s.inItcm addr = decide (addr < s.itcmWindow) := by
  simp only [CodeFetch.inItcm, CodeFetch.itcmWindow]
  by_cases henable : s.mem.core.cp15.visible.itcmEnable = true
  · simp [henable]
  · simp [henable]

/-- Byte `i` of the constant is the cost in class `i`. -/
theorem codeK_byte (timing : Arm9CodeTiming) {pc : UInt32} {thumb : Bool}
    (hodd : (thumb && pc &&& 2 != 0) = false) :
    (ndsArm9CodeK pc thumb >>> (8 * timing.index)) &&& 0xFF =
      codeClassCycles timing pc thumb := by
  simp only [ndsArm9CodeK, codeClassCycles, hodd, Bool.false_eq_true, if_false]
  generalize ((pc + (if thumb = true then 4 else 8)) &&& 0x1F != 0) = inLine
  cases inLine <;> cases timing <;> decide

/-- Zero is the sentinel of the odd halfword and of nothing else. -/
theorem codeK_eq_zero_iff (pc : UInt32) (thumb : Bool) :
    ndsArm9CodeK pc thumb = 0 ↔ (thumb && pc &&& 2 != 0) = true := by
  constructor
  · intro hzero
    by_contra hodd
    have hbyte := codeK_byte .itcm (Bool.eq_false_iff.mpr hodd)
    rw [hzero] at hbyte
    exact absurd hbyte (by simp [codeClassCycles, Arm9CodeTiming.index])
  · intro hodd
    unfold ndsArm9CodeK
    rw [if_pos hodd]

/-- Publishing what is already published changes nothing. -/
theorem publish_of_published {s : CodeFetch} (hpublished : s.Published)
    (hcurrent : s.pubGen = s.timingGeneration) : arm9CodeFastPublish s = s := by
  obtain ⟨hlatched, hshift, hlimit⟩ := hpublished
  unfold arm9CodeFastPublish
  rw [← hlimit]
  change (if !s.regionCodeTimingValid then s.setPubGen 0 else
    { s with codeClassShift := 8 * s.regionCodeTiming.index }.setPubGen s.timingGeneration) = s
  rw [if_neg (by simp [hlatched]), ← hshift, ← hcurrent]
  rfl

/-- With a valid latch the class in force is read, and nothing is latched. -/
theorem currentCodeTiming_of_latched {s : CodeFetch} (hlatched : s.regionCodeTimingValid = true)
    (addr : UInt32) :
    arm9CurrentCodeTiming s addr =
      (if s.inItcm addr then .itcm else s.regionCodeTiming, s) := by
  unfold arm9CurrentCodeTiming
  cases s.inItcm addr <;> simp [hlatched]

/-- The fold is the call wherever a matching token means a true publication. -/
theorem numc_eq_codeCycles {s : CodeFetch} (hsound : s.TokenSound) (pc : UInt32) :
    ndsCodeNumc s pc (ndsArm9CodeK pc s.thumb) = runtimeCodeCycles s pc := by
  unfold ndsCodeNumc
  cases hactive : s.mem.active with
  | arm7 => rfl
  | arm9 =>
      by_cases hcurrent : s.pubGen = s.timingGeneration
      · have hpublished := hsound.published hcurrent
        have hnoted : (s.noteCodePc pc).Published := ⟨hpublished.1, hpublished.2, hpublished.3⟩
        rw [if_neg (by simp [hcurrent])]
        unfold runtimeCodeCycles
        simp only [hactive]
        cases hodd : (s.thumb && pc &&& 2 != 0) with
        | true =>
            rw [if_pos ((codeK_eq_zero_iff pc s.thumb).mpr hodd)]
            rfl
        | false =>
            have hk : ndsArm9CodeK pc s.thumb ≠ 0 := by
              rw [Ne, codeK_eq_zero_iff, hodd]
              decide
            rw [if_neg hk, currentCodeTiming_of_latched hnoted.latched]
            simp only [Bool.false_eq_true, if_false]
            have hlimit : (s.noteCodePc pc).itcmCodeLimit = s.itcmCodeLimit := rfl
            rw [publish_of_published hnoted hcurrent, inItcm_eq, ← hnoted.itcmLimit, hlimit]
            -- The live window decides ITCM on both sides; the latch decides the rest.
            by_cases hitcm : pc < s.itcmCodeLimit
            · rw [if_pos hitcm, if_pos (by simpa using hitcm)]
              rfl
            · rw [if_neg hitcm, if_neg (by simpa using hitcm), hpublished.classShift,
                codeK_byte _ hodd]
              rfl
      · rw [if_pos hcurrent]

/-! ### What keeps the token sound -/

/-- The token reads CP15 and its publication, the latch and the published
words, and nothing else. -/
theorem CodeFetch.TokenSound.congr {s t : CodeFetch} (h : s.TokenSound)
    (hcp15 : t.mem.core.cp15 = s.mem.core.cp15) (hpub : t.pubGen = s.pubGen)
    (hvalid : t.regionCodeTimingValid = s.regionCodeTimingValid)
    (htiming : t.regionCodeTiming = s.regionCodeTiming)
    (hshift : t.codeClassShift = s.codeClassShift)
    (hlimit : t.itcmCodeLimit = s.itcmCodeLimit) : t.TokenSound := by
  have hgeneration : t.timingGeneration = s.timingGeneration :=
    congrArg Cp15.timingGeneration hcp15
  have hwindow : t.itcmWindow = s.itcmWindow := by
    unfold CodeFetch.itcmWindow
    rw [hcp15]
  refine ⟨by rw [hgeneration]; exact h.generation, ?_⟩
  rw [hgeneration, hpub]
  rcases h.token with hzero | ⟨hcurrent, hpublished⟩ | hbehind
  · exact .inl hzero
  · refine .inr (.inl ⟨hcurrent, ?_, ?_, ?_⟩)
    · rw [hvalid]
      exact hpublished.latched
    · rw [hshift, htiming]
      exact hpublished.classShift
    · rw [hlimit, hwindow]
      exact hpublished.itcmLimit
  · exact .inr (.inr hbehind)

theorem CodeFetch.TokenSound.unpublished {s : CodeFetch} (hgeneration : s.timingGeneration ≠ 0)
    (hpub : s.pubGen = 0) : s.TokenSound :=
  ⟨hgeneration, .inl hpub⟩

theorem CodeFetch.TokenSound.noteCodePc {s : CodeFetch} (h : s.TokenSound) (pc : UInt32) :
    (s.noteCodePc pc).TokenSound :=
  h.congr rfl rfl rfl rfl rfl rfl

/-- Nothing is published or the publication is current: what a fetch that may
be followed by a CP15 write leaves. -/
structure CodeFetch.Settled (s : CodeFetch) : Prop where
  generation : s.timingGeneration ≠ 0
  token : s.pubGen = 0 ∨ s.pubGen = s.timingGeneration ∧ s.Published

theorem CodeFetch.Settled.sound {s : CodeFetch} (h : s.Settled) : s.TokenSound :=
  ⟨h.generation, h.token.imp_right .inl⟩

theorem publish_settled {s : CodeFetch} (hgeneration : s.timingGeneration ≠ 0) :
    (arm9CodeFastPublish s).Settled := by
  unfold arm9CodeFastPublish
  cases hlatched : s.regionCodeTimingValid with
  | false => exact ⟨hgeneration, .inl rfl⟩
  | true => exact ⟨hgeneration, .inr ⟨rfl, rfl, rfl, rfl⟩⟩

theorem codeTiming_generation (s : CodeFetch) (addr : UInt32) :
    (arm9CodeTiming s addr).2.timingGeneration = s.timingGeneration := by
  simp only [arm9CodeTiming]
  split <;> rfl

theorem latchRegion_generation (s : CodeFetch) (addr : UInt32) :
    (latchRegion s addr).timingGeneration = s.timingGeneration :=
  codeTiming_generation s addr

theorem currentCodeTiming_generation (s : CodeFetch) (addr : UInt32) :
    (arm9CurrentCodeTiming s addr).2.timingGeneration = s.timingGeneration := by
  unfold arm9CurrentCodeTiming
  split
  · rfl
  · cases s.regionCodeTimingValid with
    | true => rfl
    | false => exact latchRegion_generation s addr

theorem codeCycles_sound {s : CodeFetch} (h : s.TokenSound) (pc : UInt32) :
    (runtimeCodeCycles s pc).2.TokenSound := by
  unfold runtimeCodeCycles
  cases s.mem.active with
  | arm7 => exact h.noteCodePc pc
  | arm9 =>
      simp only
      split
      · exact h.noteCodePc pc
      · refine (publish_settled ?_).sound
        rw [currentCodeTiming_generation]
        exact h.generation

/-- An ARM-state fetch of the ARM9 settles the token, whatever it was. -/
theorem codeCycles_settled {s : CodeFetch} (h : s.TokenSound) (pc : UInt32)
    (hactive : s.mem.active = .arm9) (harm : s.thumb = false) :
    (runtimeCodeCycles s pc).2.Settled := by
  unfold runtimeCodeCycles
  simp only [hactive, harm, Bool.false_and, Bool.false_eq_true, if_false]
  refine publish_settled ?_
  rw [currentCodeTiming_generation]
  exact h.generation

/-! ### CP15 writes -/

theorem classSync_generation (cp15 : Cp15) :
    (cp15ClassSync cp15).timingGeneration = cp15.timingGeneration := by
  unfold cp15ClassSync
  split <;> rfl

/-- A register write leaves both generations, and reaches the TCM registers
only through `c1` and `c9`. -/
theorem coprocWriteRegister_token (core : BusCore) (w : CoprocWrite) :
    (coprocWriteRegister core w).arm9CodePubGen = core.arm9CodePubGen ∧
      (coprocWriteRegister core w).cp15.timingGeneration = core.cp15.timingGeneration ∧
      ((w.crn == 1 || w.crn == 9) = false →
        (coprocWriteRegister core w).cp15.visible = core.cp15.visible) := by
  unfold coprocWriteRegister
  split
  · rename_i h1
    split <;> exact ⟨rfl, rfl, by simp [h1]⟩
  split
  · split <;> exact ⟨rfl, rfl, fun _ => rfl⟩
  split
  · exact ⟨rfl, rfl, fun _ => rfl⟩
  split
  · exact ⟨rfl, rfl, fun _ => rfl⟩
  split
  · exact ⟨rfl, rfl, fun _ => rfl⟩
  split
  · rename_i h9
    split
    · exact ⟨rfl, rfl, by simp [h9]⟩
    · split <;> exact ⟨rfl, rfl, by simp [h9]⟩
  · exact ⟨rfl, rfl, fun _ => rfl⟩

/-- A CP15 write leaves the published generation. It either leaves the timing
generation and the TCM registers too, or advances the timing generation. -/
theorem coprocWrite_token (core : BusCore) (w : CoprocWrite) :
    (runtimeCoprocWrite core w).arm9CodePubGen = core.arm9CodePubGen ∧
      ((runtimeCoprocWrite core w).cp15.timingGeneration = core.cp15.timingGeneration ∧
          (runtimeCoprocWrite core w).cp15.visible = core.cp15.visible ∨
        (runtimeCoprocWrite core w).cp15.timingGeneration =
          bumpGeneration core.cp15.timingGeneration) := by
  unfold runtimeCoprocWrite
  split
  · exact ⟨rfl, .inl ⟨rfl, rfl⟩⟩
  split
  · exact ⟨rfl, .inl ⟨rfl, rfl⟩⟩
  simp only
  cases hcounted : (w.crn == 1 || w.crn == 2 || w.crn == 6 || w.crn == 9) with
  | true =>
      rw [if_pos rfl]
      obtain ⟨hpub, hgeneration, _⟩ :=
        coprocWriteRegister_token { core with cp15 := bumpTimingGeneration core.cp15 } w
      split
      · exact ⟨hpub, .inr ((classSync_generation _).trans hgeneration)⟩
      · exact ⟨hpub, .inr hgeneration⟩
  | false =>
      simp only [Bool.or_eq_false_iff] at hcounted
      obtain ⟨⟨⟨h1, h2⟩, h6⟩, h9⟩ := hcounted
      obtain ⟨hpub, hgeneration, hvisible⟩ := coprocWriteRegister_token core w
      simp only [h1, h2, h6, Bool.or_self, Bool.false_eq_true, if_false]
      exact ⟨hpub, .inl ⟨hgeneration, hvisible (by simp [h1, h9])⟩⟩

theorem bumpGeneration_pos (generation : UInt32) : bumpGeneration generation ≠ 0 := by
  unfold bumpGeneration
  split
  · decide
  · rename_i hnext
    simpa using hnext

theorem coprocWrite_generation_ne {core : BusCore} (hgeneration : core.cp15.timingGeneration ≠ 0)
    (w : CoprocWrite) : (runtimeCoprocWrite core w).cp15.timingGeneration ≠ 0 := by
  rcases (coprocWrite_token core w).2 with ⟨hsame, _⟩ | hbumped
  · rw [hsame]
    exact hgeneration
  · rw [hbumped]
    exact bumpGeneration_pos _

/-- One CP15 write after a settled fetch leaves the token at most one step
behind. -/
theorem coprocWriteFetch_sound {s : CodeFetch} (h : s.Settled) (w : CoprocWrite) :
    (coprocWriteFetch s w).TokenSound := by
  obtain ⟨hpub, heffect⟩ := coprocWrite_token s.mem.core w
  refine ⟨coprocWrite_generation_ne h.generation w, ?_⟩
  rcases h.token with hzero | ⟨hcurrent, hpublished⟩
  · exact .inl (hpub.trans hzero)
  rcases heffect with ⟨hsame, hvisible⟩ | hbumped
  · refine .inr (.inl ⟨(hpub.trans hcurrent).trans hsame.symm, hpublished.latched,
      hpublished.classShift, ?_⟩)
    refine hpublished.itcmLimit.trans ?_
    unfold CodeFetch.itcmWindow
    rw [← hvisible]
    rfl
  · refine .inr (.inr ?_)
    exact hbumped.trans (congrArg bumpGeneration (hcurrent.symm.trans hpub.symm))

/-- With nothing published, any number of CP15 writes leaves it so. -/
theorem coprocWrites_unpublished (writes : List CoprocWrite) {s : CodeFetch}
    (hgeneration : s.timingGeneration ≠ 0) (hpub : s.pubGen = 0) :
    (writes.foldl coprocWriteFetch s).TokenSound := by
  induction writes generalizing s with
  | nil => exact .unpublished hgeneration hpub
  | cons w writes ih =>
      exact ih (coprocWrite_generation_ne hgeneration w)
        ((coprocWrite_token s.mem.core w).1.trans hpub)

/-! ### Every step -/

theorem latchCodeTiming_state (s : CodeFetch) (addr : UInt32) :
    (arm9LatchCodeTiming s addr).2 = arm9CodeFastPublish (latchRegion s addr) := by
  simp only [arm9LatchCodeTiming]
  split <;> rfl

theorem refillFetch_sound {s : CodeFetch} (h : s.TokenSound) (target : UInt32) :
    (refillFetch s target).TokenSound := by
  have hturned : CodeFetch.TokenSound { s with thumb := target &&& 1 != 0 } :=
    h.congr rfl rfl rfl rfl rfl rfl
  simp only [refillFetch]
  cases hactive : s.mem.active with
  | arm7 => exact hturned
  | arm9 =>
      rw [latchCodeTiming_state]
      refine (publish_settled ?_).sound
      rw [latchRegion_generation]
      exact hturned.generation

theorem cp15Reset_generation (core : BusCore) :
    (cp15Reset core).cp15.timingGeneration = bumpGeneration core.cp15.timingGeneration :=
  classSync_generation _

theorem cp15Reset_pubGen (core : BusCore) :
    (cp15Reset core).arm9CodePubGen = core.arm9CodePubGen := by
  unfold cp15Reset BusCore.fastRefresh
  rfl

theorem bootFetch_sound (s : CodeFetch) (writes : List CoprocWrite) :
    (bootFetch s writes).TokenSound := by
  simp only [bootFetch]
  generalize resetArm9CodeTiming { s with lastCodePc := fun _ => 0xFFFFFFFF } = reset
  have hgeneration := cp15Reset_generation (busInit reset.mem.core)
  have hpub := cp15Reset_pubGen (busInit reset.mem.core)
  generalize cp15Reset (busInit reset.mem.core) = core at hgeneration hpub
  have hnonzero : core.cp15.timingGeneration ≠ 0 := by
    rw [hgeneration]
    exact bumpGeneration_pos _
  exact coprocWrites_unpublished writes hnonzero hpub

theorem importMpuRegions_generation (cp15 : Cp15) (regions : Vector UInt32 8) :
    (importMpuRegions cp15 regions).timingGeneration = cp15.timingGeneration := by
  unfold importMpuRegions
  induction List.finRange 8 generalizing cp15 with
  | nil => rfl
  | cons i rest ih => exact ih (setMpuRegion cp15 i regions[i])

theorem cp15SavestateImport_generation (core : BusCore) (saved : NdsCp15SaveState) :
    (cp15SavestateImport core saved).cp15.timingGeneration ≠ 0 := by
  unfold cp15SavestateImport BusCore.fastRefresh
  simp only [classSync_generation, importMpuRegions_generation]
  by_cases hzero : saved.timingGeneration = 0
  · simp [hzero]
  · simp [hzero]

theorem cp15SavestateImport_pubGen (core : BusCore) (saved : NdsCp15SaveState) :
    (cp15SavestateImport core saved).arm9CodePubGen = 0 := by
  unfold cp15SavestateImport
  rfl

theorem savestateImportFetch_sound (s : CodeFetch) (saved : NdsCp15SaveState) :
    (savestateImportFetch s saved).TokenSound := by
  simp only [savestateImportFetch]
  exact .unpublished (cp15SavestateImport_generation _ saved)
    (cp15SavestateImport_pubGen _ saved)

/-- In either way of running it, the fetch of an admitted instruction is the
call. -/
theorem fetchInsn_eq {s : CodeFetch} (h : s.TokenSound) {insn : FetchedInsn}
    (hadmitted : insn.Admitted s) : fetchInsn s insn = runtimeCodeCycles s insn.pc := by
  unfold fetchInsn
  split
  · rw [← hadmitted.1]
    exact numc_eq_codeCycles h insn.pc
  · rfl

theorem insn_sound {s : CodeFetch} (h : s.TokenSound) {insn : FetchedInsn}
    (hadmitted : insn.Admitted s) : (s.apply (.insn insn)).TokenSound := by
  simp only [CodeFetch.apply, fetchInsn_eq h hadmitted]
  cases hcoproc : insn.coproc with
  | none => exact codeCycles_sound h insn.pc
  | some w =>
      obtain ⟨hactive, harm⟩ := hadmitted.2 (by simp [hcoproc])
      exact coprocWriteFetch_sound
        (codeCycles_settled h insn.pc hactive (hadmitted.1.trans harm)) w

theorem exmemcnt_core (s : MemTiming) (addr value width : UInt32) :
    (ioWriteExmemcnt s addr value width).core = s.core := by
  unfold ioWriteExmemcnt
  cases s.active <;> rfl

theorem wifiwaitcnt_core (s : MemTiming) (addr value width : UInt32) :
    (ioWriteWifiwaitcnt s addr value width).core = s.core := by
  unfold ioWriteWifiwaitcnt
  split <;> rfl

theorem powcnt_core (s : MemTiming) (addr value width : UInt32) :
    (ioWritePowcnt s addr value width).core = s.core := by
  unfold ioWritePowcnt
  cases s.active <;> rfl

theorem codeFetch_token_invariant : codeFetchSystem.Invariant CodeFetch.TokenSound where
  start := by
    rintro s rfl
    exact .unpublished (by decide) rfl
  step := by
    intro s op h hadmits
    cases op with
    | boot writes => exact bootFetch_sound s writes
    | savestateImport saved => exact savestateImportFetch_sound s saved
    | insn insn => exact insn_sound h hadmits
    | refill target => exact refillFetch_sound h target
    | setThumb thumb => exact h.congr rfl rfl rfl rfl rfl rfl
    | switchTo cpu => exact h.congr rfl rfl rfl rfl rfl rfl
    | wramcntWrite byte => exact h.congr rfl rfl rfl rfl rfl rfl
    | exmemcntWrite addr value width =>
        have hcore := exmemcnt_core s.mem addr value width
        exact h.congr (congrArg BusCore.cp15 hcore) (congrArg BusCore.arm9CodePubGen hcore)
          rfl rfl rfl rfl
    | wifiwaitcntWrite addr value width =>
        have hcore := wifiwaitcnt_core s.mem addr value width
        exact h.congr (congrArg BusCore.cp15 hcore) (congrArg BusCore.arm9CodePubGen hcore)
          rfl rfl rfl rfl
    | powcntWrite addr value width =>
        have hcore := powcnt_core s.mem addr value width
        exact h.congr (congrArg BusCore.cp15 hcore) (congrArg BusCore.arm9CodePubGen hcore)
          rfl rfl rfl rfl
    | ioRestore exmemcnt powercontrol7 wifiwaitcnt => exact h.congr rfl rfl rfl rfl rfl rfl

/-! ### Runs -/

/-- The same operation with its fetch made by the call. -/
def CodeFetchOp.called : CodeFetchOp → CodeFetchOp
  | .insn fetched => .insn { fetched with banked := false }
  | op => op

/-- The cycles of an instruction's fetch; other operations fetch nothing. -/
def fetchCost (s : CodeFetch) : CodeFetchOp → Option UInt32
  | .insn insn => some (fetchInsn s insn).1
  | _ => none

/-- The costs of a run and the state after each operation. -/
def fetchTrace : CodeFetch → List CodeFetchOp → List (Option UInt32 × CodeFetch)
  | _, [] => []
  | s, op :: ops => (fetchCost s op, s.apply op) :: fetchTrace (s.apply op) ops

/-- One operation costs and does the same with the fold and with the call. -/
theorem called_step {s : CodeFetch} (h : s.TokenSound) {op : CodeFetchOp}
    (hadmits : s.admits op) : fetchCost s op.called = fetchCost s op ∧
      s.apply op.called = s.apply op := by
  cases op with
  | insn insn =>
      have hadmitted : insn.Admitted s := hadmits
      have hfetch : fetchInsn s { insn with banked := false } = fetchInsn s insn :=
        (fetchInsn_eq h hadmitted).symm
      constructor
      · exact congrArg (fun fetched => some fetched.1) hfetch
      · simp only [CodeFetchOp.called, CodeFetch.apply, hfetch]
  | boot | savestateImport | refill | setThumb | switchTo | wramcntWrite | exmemcntWrite
  | wifiwaitcntWrite | powcntWrite | ioRestore => exact ⟨rfl, rfl⟩

/-- Over a whole run, the fold and the call leave the same costs and states. -/
theorem called_trace {s : CodeFetch} (h : codeFetchSystem.Reachable s)
    {ops : List CodeFetchOp} (hops : codeFetchSystem.AdmitsAll s ops) :
    fetchTrace s (ops.map CodeFetchOp.called) = fetchTrace s ops := by
  induction ops generalizing s with
  | nil => rfl
  | cons op ops ih =>
      obtain ⟨hcost, hstate⟩ := called_step (h.invariant codeFetch_token_invariant) hops.1
      simp only [List.map_cons, fetchTrace, hcost, hstate]
      exact congrArg (List.cons _) (ih (.step h hops.1) hops.2)

/-- In every reachable state, and over every run from it, the folded code-fetch
cost is the cost of the call and leaves the state the call leaves. -/
theorem code_fetch_fold {s : CodeFetch} (h : codeFetchSystem.Reachable s) :
    (∀ pc thumb, s.thumb = thumb →
      ndsCodeNumc s pc (ndsArm9CodeK pc thumb) = runtimeCodeCycles s pc) ∧
    ∀ ops, codeFetchSystem.AdmitsAll s ops →
      fetchTrace s (ops.map CodeFetchOp.called) = fetchTrace s ops := by
  refine ⟨?_, fun ops hops => called_trace h hops⟩
  rintro pc thumb rfl
  exact numc_eq_codeCycles (h.invariant codeFetch_token_invariant) pc

/-- A run that branches into main RAM, sizes the ITCM from there and branches
on, so that the publication of the last branch is live. -/
def mainRamFetches : List CodeFetchOp :=
  [.boot [], .refill 0x02000000,
    .insn ⟨0x02000000, false, true, some ⟨15, 0, 9, 1, 1, 0x20⟩⟩,
    .insn ⟨0x02000004, false, true, none⟩, .refill 0x02000041]

theorem mainRam_fold :
    (codeFetchSystem.runFrom {} mainRamFetches).pubGen =
      (codeFetchSystem.runFrom {} mainRamFetches).timingGeneration ∧
    (ndsCodeNumc (codeFetchSystem.runFrom {} mainRamFetches) 0x02000040
      (ndsArm9CodeK 0x02000040 true)).1 = 18 ∧
    ndsCodeNumc (codeFetchSystem.runFrom {} mainRamFetches) 0x02000040
        (ndsArm9CodeK 0x02000040 true) =
      runtimeCodeCycles (codeFetchSystem.runFrom {} mainRamFetches) 0x02000040 := by
  refine ⟨by decide, by decide, ?_⟩
  have hadmits : codeFetchSystem.AdmitsAll {} mainRamFetches := by decide
  have hstart : codeFetchSystem.Reachable {} := .start rfl
  exact (code_fetch_fold (hstart.runFrom hadmits)).1 _ _ (by decide)

end NdsRecomp.Timing
