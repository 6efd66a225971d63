import NdsRecomp.Recompiler.SplitFunctions
import Mathlib.Logic.Function.Iterate

/-!
Where the splitting pass cuts, for functions anywhere in the address space. The
pass adds the limit to a 32-bit address and moves a cut behind a BL prefix once.
Beside it stands the walk in unbounded arithmetic; the parts are good exactly
when that walk stays in the address space and no moved cut meets a second pair.
-/

namespace NdsRecomp.Recompiler

open Library Dispatch Bus LiveOverlay

/-- A function as the finder leaves it. -/
structure FinderFunction extends EmitFunction where
  hasIndirectTransfer : Bool

def FinderFunction.part (fn : FinderFunction) (at_ stop : UInt32) (index : Nat) : FinderFunction where
  toEmitFunction := chunk fn.toEmitFunction at_ stop index
  hasIndirectTransfer := fn.hasIndirectTransfer && stop == fn.endAddr

/-- One function's loop for so many turns; nothing when it goes on beyond them. -/
def partsFrom (e : EmissionConfig) (fn : FinderFunction) :
    Nat → UInt32 → Nat → Option (List FinderFunction)
  | 0, at_, _ => if at_ < fn.endAddr then none else some []
  | fuel + 1, at_, index =>
      if at_ < fn.endAddr then
        (partsFrom e fn fuel (chunkEnd e fn.toEmitFunction at_) (index + 1)).map
          (fn.part at_ (chunkEnd e fn.toEmitFunction at_) index :: ·)
      else some []

/-- The parts of each function, in the order `out` holds them. -/
def partGroups (e : EmissionConfig) (fuel : Nat) :
    List FinderFunction → Option (List (List FinderFunction))
  | [] => some []
  | fn :: rest => (partsFrom e fn fuel fn.addr 0).bind fun parts =>
      (partGroups e fuel rest).map (parts :: ·)

/-- `split_functions_for_emission` -/
def splitFinderFunctions (e : EmissionConfig) (fuel : Nat) (funcs : List FinderFunction) :
    Option (List FinderFunction) :=
  if e.maxFunctionBytes = 0 then some funcs else (partGroups e fuel funcs).map List.flatten

theorem partsFrom_eq_splitFrom (e : EmissionConfig) (fn : FinderFunction) (fuel : Nat) (pc : UInt32)
    (index : Nat) :
    (partsFrom e fn fuel pc index).map (·.map FinderFunction.toEmitFunction) =
      splitFrom e fn.toEmitFunction fuel pc index := by
  induction fuel generalizing pc index with
  | zero =>
      unfold partsFrom splitFrom
      split <;> rfl
  | succ fuel ih =>
      unfold partsFrom splitFrom
      split
      · rw [← ih, Option.map_map, Option.map_map]
        rfl
      · rfl

/-! ### What the parts are meant to be -/

/-- The halfword the function holds at a program counter, where the image has it. -/
def halfwordAt (e : EmissionConfig) (fn : FinderFunction) (pc : Nat) : Option UInt16 :=
  let source := fn.source.toNat + (pc - fn.addr.toNat)
  let off := source - e.image.loadAddress.toNat
  if e.image.loadAddress.toNat ≤ source ∧ off + 2 ≤ e.image.bytes.length then
    some ((e.image.bytes.getD off 0).toUInt16 ||| (e.image.bytes.getD (off + 1) 0).toUInt16 <<< 8)
  else none

/-- The halfword at `pc` is readable and decodes to `op`. -/
def decodesAt (op : UInt16 → UInt32 → Bool) (e : EmissionConfig) (fn : FinderFunction) (pc : Nat) :
    Bool :=
  (halfwordAt e fn pc).any fun hw => op hw (UInt32.ofNat pc)

/-- The parts follow one another from `pc` to the end of the function. -/
def PartsTile (stop : UInt32) : UInt32 → List FinderFunction → Prop
  | pc, [] => stop ≤ pc
  | pc, p :: rest => p.addr = pc ∧ p.endAddr ≤ stop ∧ PartsTile stop p.endAddr rest

/-- What is asked of one part. The last part is the one that ends where the
function does. -/
structure GoodPart (isBlSuffix : UInt16 → UInt32 → Bool) (e : EmissionConfig) (fn p : FinderFunction) :
    Prop where
  nonempty : p.addr < p.endAddr
  aligned : StepAligned p.toEmitFunction
  source : p.sourceAddr = if fn.sourceAddr = 0 then 0 else fn.sourceAddr + (p.addr - fn.addr)
  short : p.endAddr.toNat ≤
    p.addr.toNat + (chunkLimit e.maxFunctionBytes fn.toEmitFunction).toNat + 2
  indirect : p.endAddr ≠ fn.endAddr → p.hasIndirectTransfer = false
  pair : p.endAddr ≠ fn.endAddr → fn.thumb = true →
    ¬ (decodesAt e.isBlPrefix e fn (p.endAddr.toNat - 2) = true ∧
      decodesAt isBlSuffix e fn p.endAddr.toNat = true)

structure GoodParts (isBlSuffix : UInt16 → UInt32 → Bool) (e : EmissionConfig) (fn : FinderFunction)
    (parts : List FinderFunction) : Prop where
  tiles : PartsTile fn.endAddr fn.addr parts
  each : ∀ p ∈ parts, GoodPart isBlSuffix e fn p

/-- Some number of turns is enough for every function, and the output holds the
parts of each in order, all of them good. -/
def SplitsWell (isBlSuffix : UInt16 → UInt32 → Bool) (e : EmissionConfig)
    (funcs : List FinderFunction) : Prop :=
  ∃ fuel groups, splitFinderFunctions e fuel funcs = some groups.flatten ∧
    partGroups e fuel funcs = some groups ∧ List.Forall₂ (GoodParts isBlSuffix e) funcs groups

/-! ### The walk in unbounded arithmetic -/

/-- The cut behind `pc`: the limit later, and behind a BL prefix one halfword
further. -/
def cutAfter (e : EmissionConfig) (fn : FinderFunction) (pc : Nat) : Nat :=
  let stop := pc + (chunkLimit e.maxFunctionBytes fn.toEmitFunction).toNat
  if fn.thumb && decodesAt e.isBlPrefix e fn (stop - 2) then stop + 2 else stop

/-- The sum at the cut stays in 32 bits, and a cut moved behind a prefix inside
the function does not have another prefix before it and that one's suffix behind
it. -/
def CutFits (isBlSuffix : UInt16 → UInt32 → Bool) (e : EmissionConfig) (fn : FinderFunction)
    (pc : Nat) : Prop :=
  let stop := pc + (chunkLimit e.maxFunctionBytes fn.toEmitFunction).toNat
  stop < 2 ^ 32 ∧
    (fn.thumb = true → stop + 2 < fn.endAddr.toNat →
      ¬ (decodesAt e.isBlPrefix e fn (stop - 2) = true ∧ decodesAt e.isBlPrefix e fn stop = true ∧
        decodesAt isBlSuffix e fn (stop + 2) = true))

/-- Every cut of the walk that lies in the function fits. -/
def WalkFits (isBlSuffix : UInt16 → UInt32 → Bool) (e : EmissionConfig) (fn : FinderFunction) : Prop :=
  ∀ k, (cutAfter e fn)^[k] fn.addr.toNat < fn.endAddr.toNat →
    CutFits isBlSuffix e fn ((cutAfter e fn)^[k] fn.addr.toNat)

/-! ### One cut -/

section Cut

variable {isBlSuffix : UInt16 → UInt32 → Bool} {e : EmissionConfig} {fn : FinderFunction}
  {pc : UInt32}

/-- The test of the loop reads the halfword before the cut. -/
theorem blPairAt_eq {stop : UInt32} (h : fn.addr.toNat + 2 ≤ stop.toNat) :
    blPairAt e fn.toEmitFunction stop = decodesAt e.isBlPrefix e fn (stop.toNat - 2) := by
  have hoff : (stop - fn.addr).toNat = stop.toNat - fn.addr.toNat :=
    UInt32.toNat_sub_of_le _ _ (UInt32.le_iff_toNat_le.mpr (by omega))
  have hpc : UInt32.ofNat (stop.toNat - 2) = stop - 2 := by
    have htwo : (2 : UInt32).toNat = 2 := rfl
    have hlt := stop.toNat_lt
    rw [← UInt32.toNat_inj, UInt32.toNat_sub_of_le _ _ (UInt32.le_iff_toNat_le.mpr (by omega)), htwo,
      UInt32.toNat_ofNat', Nat.mod_eq_of_lt (by omega)]
  have hsource : fn.source.toNat + (stop - fn.addr).toNat - 2 =
      fn.source.toNat + (stop.toNat - 2 - fn.addr.toNat) := by omega
  unfold blPairAt decodesAt halfwordAt
  rw [hsource, hpc]
  dsimp only
  split
  · next hread => simp [hread.1, hread.2]
  · next hread =>
      rw [Option.any_none, ← Bool.decide_and, decide_eq_false hread, Bool.false_and]

theorem le_cutAfter (e : EmissionConfig) (fn : FinderFunction) (pc : Nat) :
    pc + (chunkLimit e.maxFunctionBytes fn.toEmitFunction).toNat ≤ cutAfter e fn pc := by
  unfold cutAfter
  dsimp only
  split <;> omega

theorem lt_cutAfter (e : EmissionConfig) (fn : FinderFunction) (pc : Nat) : pc < cutAfter e fn pc := by
  have hlimit := chunkLimit_ge e fn.toEmitFunction
  have hpos := fn.step_pos
  have hcut := le_cutAfter e fn pc
  omega

theorem le_iterate_cutAfter (e : EmissionConfig) (fn : FinderFunction) (k pc : Nat) :
    pc ≤ (cutAfter e fn)^[k] pc := by
  induction k generalizing pc with
  | zero => exact Nat.le_refl _
  | succ k ih =>
      rw [Function.iterate_succ_apply]
      exact Nat.le_trans (Nat.le_of_lt (lt_cutAfter e fn pc)) (ih _)

/-- Without a wrap the pass cuts where the walk does, or at the function's end. -/
theorem chunkEnd_toNat (haligned : StepAligned fn.toEmitFunction) (hpc : fn.step ∣ pc.toNat)
    (hafter : fn.addr ≤ pc)
    (hfit : pc.toNat + (chunkLimit e.maxFunctionBytes fn.toEmitFunction).toNat < 2 ^ 32) :
    (chunkEnd e fn.toEmitFunction pc).toNat =
      if pc.toNat + (chunkLimit e.maxFunctionBytes fn.toEmitFunction).toNat < fn.endAddr.toNat then
        cutAfter e fn pc.toNat
      else fn.endAddr.toNat := by
  have hlimit := chunkLimit_ge e fn.toEmitFunction
  have hdvd : fn.step ∣ (chunkLimit e.maxFunctionBytes fn.toEmitFunction).toNat := chunkLimit_dvd
  rw [UInt32.le_iff_toNat_le] at hafter
  have hsum : (pc + chunkLimit e.maxFunctionBytes fn.toEmitFunction).toNat =
      pc.toNat + (chunkLimit e.maxFunctionBytes fn.toEmitFunction).toNat := by
    rw [UInt32.toNat_add, Nat.mod_eq_of_lt hfit]
  unfold chunkEnd
  dsimp only
  rcases wordMin_cases fn.endAddr (pc + chunkLimit e.maxFunctionBytes fn.toEmitFunction) with
    ⟨hmin, hle⟩ | ⟨hmin, hle⟩
  · rw [hsum] at hle
    have hnot : ¬ pc.toNat + (chunkLimit e.maxFunctionBytes fn.toEmitFunction).toNat <
        fn.endAddr.toNat := by omega
    rw [hmin, if_neg hnot]
    simp
  · rw [hsum] at hle
    rw [hmin]
    by_cases hinner : pc.toNat + (chunkLimit e.maxFunctionBytes fn.toEmitFunction).toNat <
        fn.endAddr.toNat
    · rw [if_pos hinner]
      have hbefore : pc + chunkLimit e.maxFunctionBytes fn.toEmitFunction < fn.endAddr := by
        rw [UInt32.lt_iff_toNat_lt, hsum]
        exact hinner
      unfold cutAfter
      dsimp only
      cases hthumb : fn.thumb with
      | false => simp [hsum]
      | true =>
          have hstep : fn.step = 2 := by
            unfold EmitFunction.step
            rw [hthumb]
            rfl
          have hend := haligned.2
          rw [hstep] at hpc hdvd hend hlimit
          have htwo : (fn.addr + 2).toNat = fn.addr.toNat + 2 := by
            rw [UInt32.toNat_add, show (2 : UInt32).toNat = 2 from rfl]
            have := fn.endAddr.toNat_lt
            omega
          have hfirst : fn.addr + 2 ≤ pc + chunkLimit e.maxFunctionBytes fn.toEmitFunction := by
            rw [UInt32.le_iff_toNat_le, hsum, htwo]
            omega
          rw [blPairAt_eq (by rw [hsum]; omega), hsum, decide_eq_true hbefore,
            decide_eq_true hfirst, Bool.true_and, Bool.true_and, Bool.true_and]
          split
          · rw [UInt32.toNat_add, hsum, show (2 : UInt32).toNat = 2 from rfl, Nat.mod_eq_of_lt]
            have := fn.endAddr.toNat_lt
            omega
          · exact hsum
    · have hsame : pc + chunkLimit e.maxFunctionBytes fn.toEmitFunction = fn.endAddr := by
        rw [← UInt32.toNat_inj, hsum]
        omega
      rw [if_neg hinner, hsame]
      simp

/-- A cut whose sum wraps does not lie behind its start. -/
theorem chunkEnd_wraps (e : EmissionConfig) (fn : FinderFunction) {pc : UInt32}
    (hpc : fn.step ∣ pc.toNat)
    (hwrap : 2 ^ 32 ≤ pc.toNat + (chunkLimit e.maxFunctionBytes fn.toEmitFunction).toNat) :
    (chunkEnd e fn.toEmitFunction pc).toNat ≤ pc.toNat := by
  have hdvd : fn.step ∣ (chunkLimit e.maxFunctionBytes fn.toEmitFunction).toNat := chunkLimit_dvd
  have hlimit := (chunkLimit e.maxFunctionBytes fn.toEmitFunction).toNat_lt
  have hlt := pc.toNat_lt
  have hsum : (pc + chunkLimit e.maxFunctionBytes fn.toEmitFunction).toNat =
      pc.toNat + (chunkLimit e.maxFunctionBytes fn.toEmitFunction).toNat - 2 ^ 32 := by
    rw [UInt32.toNat_add]
    omega
  have hmin : (min fn.endAddr (pc + chunkLimit e.maxFunctionBytes fn.toEmitFunction)).toNat ≤
      pc.toNat + (chunkLimit e.maxFunctionBytes fn.toEmitFunction).toNat - 2 ^ 32 := by
    rcases wordMin_cases fn.endAddr (pc + chunkLimit e.maxFunctionBytes fn.toEmitFunction) with
      ⟨h, hle⟩ | ⟨h, -⟩
    · rw [h]; omega
    · rw [h, hsum]
  unfold chunkEnd
  dsimp only
  split
  · next hpair =>
      simp only [Bool.and_eq_true, decide_eq_true_eq] at hpair
      have hstep : fn.step = 2 := by
        unfold EmitFunction.step
        rw [hpair.1.1.1]
        rfl
      rw [hstep] at hpc hdvd
      rw [UInt32.toNat_add, show (2 : UInt32).toNat = 2 from rfl]
      omega
  · omega

end Cut

/-! ### The loop -/

section Loop

variable {isBlSuffix : UInt16 → UInt32 → Bool} {e : EmissionConfig} {fn : FinderFunction}

/-- The chunk a turn pushes, where its cut fits. -/
theorem part_good (haligned : StepAligned fn.toEmitFunction) {pc : UInt32} (index : Nat)
    (hpc : fn.step ∣ pc.toNat) (hafter : fn.addr ≤ pc) (hlt : pc < fn.endAddr)
    (hfit : CutFits isBlSuffix e fn pc.toNat) :
    (chunkEnd e fn.toEmitFunction pc) ≤ fn.endAddr ∧
      GoodPart isBlSuffix e fn (fn.part pc (chunkEnd e fn.toEmitFunction pc) index) := by
  have hstop := chunkEnd_toNat haligned hpc hafter hfit.1
  have hlimit := chunkLimit_ge e fn.toEmitFunction
  have hpos := fn.step_pos
  have hdvd : fn.step ∣ (chunkLimit e.maxFunctionBytes fn.toEmitFunction).toNat := chunkLimit_dvd
  rw [UInt32.lt_iff_toNat_lt] at hlt
  -- what a moved cut knows of the step
  have hthumb : fn.thumb = true → fn.step = 2 := by
    intro h
    unfold EmitFunction.step
    rw [h]
    rfl
  have hend := haligned.2
  have hcut : cutAfter e fn pc.toNat =
      pc.toNat + (chunkLimit e.maxFunctionBytes fn.toEmitFunction).toNat ∨
      (fn.thumb = true ∧ cutAfter e fn pc.toNat =
        pc.toNat + (chunkLimit e.maxFunctionBytes fn.toEmitFunction).toNat + 2) := by
    unfold cutAfter
    dsimp only
    split
    · next h => exact Or.inr ⟨(Bool.and_eq_true _ _ ▸ h).1, rfl⟩
    · exact Or.inl rfl
  have hle : (chunkEnd e fn.toEmitFunction pc).toNat ≤ fn.endAddr.toNat := by
    rw [hstop]
    split
    · rcases hcut with h | ⟨h2, h⟩
      · omega
      · rw [hthumb h2] at hpc hend hdvd
        omega
    · exact Nat.le_refl _
  refine ⟨UInt32.le_iff_toNat_le.mpr hle, ?_, ⟨hpc, ?_⟩, ?_, ?_, ?_, ?_⟩
  · change pc < chunkEnd e fn.toEmitFunction pc
    rw [UInt32.lt_iff_toNat_lt, hstop]
    split
    · exact lt_cutAfter e fn pc.toNat
    · exact hlt
  · change fn.step ∣ (chunkEnd e fn.toEmitFunction pc).toNat
    rw [hstop]
    split
    · rcases hcut with h | ⟨h2, h⟩
      · rw [h]
        exact Nat.dvd_add hpc hdvd
      · rw [h]
        refine Nat.dvd_add (Nat.dvd_add hpc hdvd) ?_
        rw [hthumb h2]
    · exact hend
  · change (if fn.sourceAddr ≠ 0 then fn.sourceAddr + (pc - fn.addr) else fn.sourceAddr) = _
    by_cases hzero : fn.sourceAddr = 0
    · rw [if_neg (not_not_intro hzero), if_pos hzero, hzero]
    · rw [if_pos hzero, if_neg hzero]
      rfl
  · change (chunkEnd e fn.toEmitFunction pc).toNat ≤ pc.toNat + _ + 2
    rw [hstop]
    split
    · rcases hcut with h | ⟨-, h⟩ <;> omega
    · omega
  · intro hne
    change chunkEnd e fn.toEmitFunction pc ≠ fn.endAddr at hne
    change (fn.hasIndirectTransfer && chunkEnd e fn.toEmitFunction pc == fn.endAddr) = false
    rw [beq_eq_false_iff_ne.mpr hne, Bool.and_false]
  · intro hne hmode hboth
    change chunkEnd e fn.toEmitFunction pc ≠ fn.endAddr at hne
    change decodesAt e.isBlPrefix e fn ((chunkEnd e fn.toEmitFunction pc).toNat - 2) = true ∧
      decodesAt isBlSuffix e fn (chunkEnd e fn.toEmitFunction pc).toNat = true at hboth
    rw [ne_eq, ← UInt32.toNat_inj] at hne
    rw [hstop] at hne hle hboth
    split at hne
    · next hinner =>
        rw [if_pos hinner] at hle hboth
        by_cases hmark : decodesAt e.isBlPrefix e fn
            (pc.toNat + (chunkLimit e.maxFunctionBytes fn.toEmitFunction).toNat - 2) = true
        · have hmoved : cutAfter e fn pc.toNat =
              pc.toNat + (chunkLimit e.maxFunctionBytes fn.toEmitFunction).toNat + 2 := by
            unfold cutAfter
            simp [hmode, hmark]
          rw [hmoved] at hne hle hboth
          exact hfit.2 hmode (by omega) ⟨hmark, by simpa using hboth.1, hboth.2⟩
        · have hplain : cutAfter e fn pc.toNat =
              pc.toNat + (chunkLimit e.maxFunctionBytes fn.toEmitFunction).toNat := by
            unfold cutAfter
            simp [hmark]
          rw [hplain] at hboth
          exact hmark hboth.1
    · exact hne rfl

/-- The walk from the chunk's end is the tail of the walk from its start. -/
theorem walk_tail (haligned : StepAligned fn.toEmitFunction) {pc : UInt32}
    (hpc : fn.step ∣ pc.toNat) (hafter : fn.addr ≤ pc)
    (hfit : pc.toNat + (chunkLimit e.maxFunctionBytes fn.toEmitFunction).toNat < 2 ^ 32)
    (Q : Nat → Prop) :
    (∀ k, (cutAfter e fn)^[k] (chunkEnd e fn.toEmitFunction pc).toNat < fn.endAddr.toNat →
        Q ((cutAfter e fn)^[k] (chunkEnd e fn.toEmitFunction pc).toNat)) ↔
      ∀ k, (cutAfter e fn)^[k + 1] pc.toNat < fn.endAddr.toNat →
        Q ((cutAfter e fn)^[k + 1] pc.toNat) := by
  rw [chunkEnd_toNat haligned hpc hafter hfit]
  split
  · simp only [Function.iterate_succ_apply]
  · next hlast =>
      -- behind the last cut neither walk is inside the function
      have hcut := le_cutAfter e fn pc.toNat
      constructor
      · intro _ k hk
        rw [Function.iterate_succ_apply] at hk
        have := le_iterate_cutAfter e fn k (cutAfter e fn pc.toNat)
        omega
      · intro _ k hk
        have := le_iterate_cutAfter e fn k fn.endAddr.toNat
        omega

/-- As many turns as bytes are left are enough where the walk fits. -/
theorem partsFrom_good (haligned : StepAligned fn.toEmitFunction) (fuel : Nat) (pc : UInt32)
    (index : Nat) (hpc : fn.step ∣ pc.toNat) (hafter : fn.addr ≤ pc)
    (hfuel : fn.endAddr.toNat - pc.toNat ≤ fuel)
    (hwalk : ∀ k, (cutAfter e fn)^[k] pc.toNat < fn.endAddr.toNat →
      CutFits isBlSuffix e fn ((cutAfter e fn)^[k] pc.toNat)) :
    ∃ parts, partsFrom e fn fuel pc index = some parts ∧ PartsTile fn.endAddr pc parts ∧
      ∀ p ∈ parts, GoodPart isBlSuffix e fn p := by
  have hdone : ¬ pc < fn.endAddr → PartsTile fn.endAddr pc [] := by
    intro h
    rw [UInt32.lt_iff_toNat_lt] at h
    change fn.endAddr ≤ pc
    rw [UInt32.le_iff_toNat_le]
    omega
  induction fuel generalizing pc index with
  | zero =>
      have hnot : ¬ pc < fn.endAddr := by
        rw [UInt32.lt_iff_toNat_lt]
        omega
      exact ⟨[], if_neg hnot, hdone hnot, by simp⟩
  | succ fuel ih =>
      by_cases hlt : pc < fn.endAddr
      · have hltNat := UInt32.lt_iff_toNat_lt.mp hlt
        have hfit := hwalk 0 hltNat
        obtain ⟨hle, hgood⟩ := part_good haligned index hpc hafter hlt hfit
        have hforward := UInt32.lt_iff_toNat_lt.mp hgood.nonempty
        change pc.toNat < (chunkEnd e fn.toEmitFunction pc).toNat at hforward
        have hafterNat := UInt32.le_iff_toNat_le.mp hafter
        obtain ⟨parts, hparts, htiles, heach⟩ := ih (chunkEnd e fn.toEmitFunction pc) (index + 1)
          hgood.aligned.2 (UInt32.le_iff_toNat_le.mpr (by omega)) (by omega)
          ((walk_tail haligned hpc hafter hfit.1 _).mpr fun k hk => hwalk (k + 1) hk)
          (fun h => by
            rw [UInt32.lt_iff_toNat_lt] at h
            change fn.endAddr ≤ chunkEnd e fn.toEmitFunction pc
            rw [UInt32.le_iff_toNat_le]
            omega)
        refine ⟨fn.part pc (chunkEnd e fn.toEmitFunction pc) index :: parts, ?_, ⟨rfl, hle, htiles⟩, ?_⟩
        · rw [partsFrom, if_pos hlt, hparts]
          rfl
        · intro p hp
          rcases List.mem_cons.mp hp with rfl | hp
          · exact hgood
          · exact heach p hp
      · exact ⟨[], by rw [partsFrom, if_neg hlt], hdone hlt, by simp⟩

/-- Good parts come only from a walk that fits. -/
theorem walk_of_partsFrom (haligned : StepAligned fn.toEmitFunction) {fuel : Nat} {pc : UInt32}
    {index : Nat} {parts : List FinderFunction} (hpc : fn.step ∣ pc.toNat) (hafter : fn.addr ≤ pc)
    (hparts : partsFrom e fn fuel pc index = some parts)
    (hgood : ∀ p ∈ parts, GoodPart isBlSuffix e fn p) (k : Nat)
    (hk : (cutAfter e fn)^[k] pc.toNat < fn.endAddr.toNat) :
    CutFits isBlSuffix e fn ((cutAfter e fn)^[k] pc.toNat) := by
  have hin : pc < fn.endAddr := by
    have := le_iterate_cutAfter e fn k pc.toNat
    rw [UInt32.lt_iff_toNat_lt]
    omega
  induction fuel generalizing pc index parts k with
  | zero =>
      rw [partsFrom, if_pos hin] at hparts
      exact absurd hparts (by simp)
  | succ fuel ih =>
      rw [partsFrom, if_pos hin] at hparts
      obtain ⟨rest, hrest, rfl⟩ := Option.map_eq_some_iff.mp hparts
      rw [List.forall_mem_cons] at hgood
      obtain ⟨hfirst, hothers⟩ := hgood
      have hforward := UInt32.lt_iff_toNat_lt.mp hfirst.nonempty
      change pc.toNat < (chunkEnd e fn.toEmitFunction pc).toNat at hforward
      have hsum : pc.toNat + (chunkLimit e.maxFunctionBytes fn.toEmitFunction).toNat < 2 ^ 32 := by
        by_contra hwrap
        have := chunkEnd_wraps e fn hpc (Nat.not_lt.mp hwrap)
        omega
      have hstop := chunkEnd_toNat haligned hpc hafter hsum
      cases k with
      | zero =>
          refine ⟨hsum, fun hmode hinner hboth => ?_⟩
          change _ + 2 < _ at hinner
          rw [Function.iterate_zero_apply] at hinner hboth
          have hmoved : (chunkEnd e fn.toEmitFunction pc).toNat =
              pc.toNat + (chunkLimit e.maxFunctionBytes fn.toEmitFunction).toNat + 2 := by
            rw [hstop, if_pos (by omega)]
            unfold cutAfter
            simp [hmode, hboth.1]
          have hne : chunkEnd e fn.toEmitFunction pc ≠ fn.endAddr := by
            rw [ne_eq, ← UInt32.toNat_inj]
            omega
          refine hfirst.pair hne hmode ?_
          change decodesAt e.isBlPrefix e fn ((chunkEnd e fn.toEmitFunction pc).toNat - 2) = true ∧
            decodesAt isBlSuffix e fn (chunkEnd e fn.toEmitFunction pc).toNat = true
          rw [hmoved]
          exact ⟨by simpa using hboth.2.1, hboth.2.2⟩
      | succ k =>
          have hbehind : fn.addr ≤ chunkEnd e fn.toEmitFunction pc := by
            rw [UInt32.le_iff_toNat_le] at hafter ⊢
            omega
          refine (walk_tail haligned hpc hafter hsum _).mp (fun j hj => ?_) k hk
          refine ih hfirst.aligned.2 hbehind hrest hothers j hj ?_
          have := le_iterate_cutAfter e fn j (chunkEnd e fn.toEmitFunction pc).toNat
          change chunkEnd e fn.toEmitFunction pc < fn.endAddr
          rw [UInt32.lt_iff_toNat_lt]
          omega

/-- More turns than a loop needs change nothing. -/
theorem partsFrom_mono {fuel more : Nat} (hle : fuel ≤ more) {pc : UInt32} {index : Nat}
    {parts : List FinderFunction} (h : partsFrom e fn fuel pc index = some parts) :
    partsFrom e fn more pc index = some parts := by
  induction fuel generalizing more pc index parts with
  | zero =>
      have hnot : ¬ pc < fn.endAddr := by
        intro hlt
        rw [partsFrom, if_pos hlt] at h
        exact absurd h (by simp)
      rw [partsFrom, if_neg hnot] at h
      cases more with
      | zero => rwa [partsFrom, if_neg hnot]
      | succ more => rwa [partsFrom, if_neg hnot]
  | succ fuel ih =>
      obtain ⟨more, rfl⟩ : ∃ m, more = m + 1 := ⟨more - 1, by omega⟩
      rw [partsFrom] at h ⊢
      split at h
      · next hlt =>
          obtain ⟨rest, hrest, rfl⟩ := Option.map_eq_some_iff.mp h
          rw [if_pos hlt, ih (by omega) hrest]
          rfl
      · next hlt => rwa [if_neg hlt]

end Loop

/-! ### Every function -/

theorem goodParts_iff {isBlSuffix : UInt16 → UInt32 → Bool} {e : EmissionConfig}
    {fn : FinderFunction} (haligned : StepAligned fn.toEmitFunction) :
    (∃ fuel parts, partsFrom e fn fuel fn.addr 0 = some parts ∧ GoodParts isBlSuffix e fn parts) ↔
      WalkFits isBlSuffix e fn := by
  constructor
  · rintro ⟨fuel, parts, hparts, hgood⟩ k hk
    exact walk_of_partsFrom haligned haligned.1 (UInt32.le_refl _) hparts hgood.each k hk
  · intro hwalk
    obtain ⟨parts, hparts, htiles, heach⟩ := partsFrom_good haligned _ fn.addr 0 haligned.1
      (UInt32.le_refl _) (Nat.le_refl _) hwalk
    exact ⟨_, parts, hparts, htiles, heach⟩

theorem partGroups_mono {e : EmissionConfig} {fuel more : Nat} (hle : fuel ≤ more)
    {funcs : List FinderFunction} {groups : List (List FinderFunction)}
    (h : partGroups e fuel funcs = some groups) : partGroups e more funcs = some groups := by
  induction funcs generalizing groups with
  | nil => exact h
  | cons fn rest ih =>
      rw [partGroups, Option.bind_eq_some_iff] at h
      obtain ⟨parts, hparts, h⟩ := h
      obtain ⟨others, hothers, rfl⟩ := Option.map_eq_some_iff.mp h
      rw [partGroups, partsFrom_mono hle hparts, ih hothers]
      rfl

theorem goodGroups_iff {isBlSuffix : UInt16 → UInt32 → Bool} {e : EmissionConfig}
    {funcs : List FinderFunction} (haligned : ∀ fn ∈ funcs, StepAligned fn.toEmitFunction) :
    (∃ fuel groups, partGroups e fuel funcs = some groups ∧
      List.Forall₂ (GoodParts isBlSuffix e) funcs groups) ↔
        ∀ fn ∈ funcs, WalkFits isBlSuffix e fn := by
  induction funcs with
  | nil => exact ⟨fun _ => by simp, fun _ => ⟨0, [], rfl, List.Forall₂.nil⟩⟩
  | cons fn rest ih =>
      rw [List.forall_mem_cons] at haligned ⊢
      rw [← goodParts_iff haligned.1, ← ih haligned.2]
      constructor
      · rintro ⟨fuel, groups, hgroups, hgood⟩
        rw [partGroups, Option.bind_eq_some_iff] at hgroups
        obtain ⟨parts, hparts, hgroups⟩ := hgroups
        obtain ⟨others, hothers, rfl⟩ := Option.map_eq_some_iff.mp hgroups
        obtain ⟨hfirst, hrest⟩ := List.forall₂_cons.mp hgood
        exact ⟨⟨fuel, parts, hparts, hfirst⟩, fuel, others, hothers, hrest⟩
      · rintro ⟨⟨fuel, parts, hparts, hfirst⟩, more, others, hothers, hrest⟩
        refine ⟨max fuel more, parts :: others, ?_, List.Forall₂.cons hfirst hrest⟩
        rw [partGroups, partsFrom_mono (Nat.le_max_left _ _) hparts,
          partGroups_mono (Nat.le_max_right _ _) hothers]
        rfl

theorem SplitsWell.walks {isBlSuffix : UInt16 → UInt32 → Bool} {e : EmissionConfig}
    {funcs : List FinderFunction} (haligned : ∀ fn ∈ funcs, StepAligned fn.toEmitFunction)
    (h : SplitsWell isBlSuffix e funcs) : ∀ fn ∈ funcs, WalkFits isBlSuffix e fn := by
  obtain ⟨fuel, groups, -, hgroups, hgood⟩ := h
  exact (goodGroups_iff haligned).mp ⟨fuel, groups, hgroups, hgood⟩

/-- Splitting ends with good parts for every function exactly when the walk of
each fits: it stays below the top of the address space, and no cut moved behind a
BL prefix lands inside a second pair. -/
theorem splitsWell_iff (isBlSuffix : UInt16 → UInt32 → Bool) (e : EmissionConfig)
    (funcs : List FinderFunction) (hsplit : e.maxFunctionBytes ≠ 0)
    (haligned : ∀ fn ∈ funcs, StepAligned fn.toEmitFunction) :
    SplitsWell isBlSuffix e funcs ↔ ∀ fn ∈ funcs, WalkFits isBlSuffix e fn := by
  refine ⟨fun h => h.walks haligned, fun hwalk => ?_⟩
  obtain ⟨fuel, groups, hgroups, hgood⟩ := (goodGroups_iff haligned).mpr hwalk
  refine ⟨fuel, groups, ?_, hgroups, hgood⟩
  rw [splitFinderFunctions, if_neg hsplit, hgroups]
  rfl

/-- A run over an image with the encodings of the BL pair. -/
def cutRun (image : BankImage) (maxBytes : UInt32) : EmissionConfig where
  image := image
  programSize := UInt32.ofNat image.bytes.length
  fnPrefix := "fn_"
  maxFunctionBytes := maxBytes
  isBlPrefix := fun hw _ => hw >>> 11 == 0x1E
  owned := fun _ _ => false
  precedingRows := []
  coalesceFallthroughs := false
  stableAddressShards := false
  shards := 1

def blSuffix (hw : UInt16) (_ : UInt32) : Bool := hw >>> 11 == 0x1F

/-- A function of the ARM9 BIOS. -/
def biosFunction : FinderFunction where
  addr := 0xFFFF0000
  thumb := false
  name := "swi"
  endAddr := 0xFFFF0010
  hasIndirectTransfer := false

/-- A prefix, then a pair. -/
def pairFunction : FinderFunction where
  addr := 0x02000000
  thumb := true
  name := "pair"
  endAddr := 0x02000008
  hasIndirectTransfer := false

def pairImage : BankImage where
  bytes := [0x00, 0x00, 0x00, 0xF0, 0x00, 0xF0, 0x00, 0xF8]
  loadAddress := 0x02000000

theorem splitsWell_iff_pair :
    SplitsWell blSuffix (cutRun pairImage 8) [pairFunction] ↔
      ∀ fn ∈ [pairFunction], WalkFits blSuffix (cutRun pairImage 8) fn :=
  splitsWell_iff blSuffix (cutRun pairImage 8) [pairFunction] (by decide)
    (List.forall_mem_singleton.mpr ⟨by decide, by decide⟩)

/-- The end of a chunk wraps to 0, and a moved cut lands in the next pair. -/
theorem splitting_cuts_badly :
    ¬ SplitsWell blSuffix (cutRun ⟨[], 0xFFFF0000⟩ 0x10000) [biosFunction] ∧
      ¬ SplitsWell blSuffix (cutRun pairImage 4) [pairFunction] := by
  constructor
  · intro h
    have hwalk := h.walks (List.forall_mem_singleton.mpr ⟨by decide, by decide⟩) biosFunction
      (List.mem_singleton.mpr rfl)
    exact absurd (hwalk 0 (by decide)).1 (by decide)
  · intro h
    have hwalk := h.walks (List.forall_mem_singleton.mpr ⟨by decide, by decide⟩) pairFunction
      (List.mem_singleton.mpr rfl)
    exact (hwalk 0 (by decide)).2 rfl (by decide) ⟨by decide, by decide, by decide⟩

end NdsRecomp.Recompiler
