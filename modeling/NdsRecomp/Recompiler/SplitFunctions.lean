import NdsRecomp.Recompiler.EmissionPlan

/-!
Chunking a function keeps its instructions: when no chunk end wraps past 32 bits
the parts hold the function's program counters in order, each once, and every
part is again a step-aligned range inside the image.
-/

namespace NdsRecomp.Recompiler

open Library Dispatch Bus LiveOverlay

/-- Both ends are multiples of the instruction size. -/
def StepAligned (fn : EmitFunction) : Prop :=
  fn.step ∣ fn.addr.toNat ∧ fn.step ∣ fn.endAddr.toNat

/-- The bytes a function is decoded from are in the image, and the image in the
address space. -/
def InsideImage (image : BankImage) (fn : EmitFunction) : Prop :=
  image.loadAddress ≤ fn.source ∧
    fn.source.toNat + (fn.endAddr.toNat - fn.addr.toNat) ≤
      image.loadAddress.toNat + image.bytes.length ∧
    image.loadAddress.toNat + image.bytes.length ≤ 2 ^ 32

/-- The end of no chunk wraps. -/
def ChunksFit (e : EmissionConfig) (fn : EmitFunction) : Prop :=
  fn.endAddr.toNat + (chunkLimit e.maxFunctionBytes fn).toNat ≤ 2 ^ 32

theorem EmitFunction.step_cases (fn : EmitFunction) :
    (fn.thumb = true ∧ fn.step = 2 ∧ fn.stepWord = 2) ∨
      (fn.thumb = false ∧ fn.step = 4 ∧ fn.stepWord = 4) := by
  unfold step stepWord
  cases fn.thumb
  · exact Or.inr ⟨rfl, rfl, rfl⟩
  · exact Or.inl ⟨rfl, rfl, rfl⟩

theorem EmitFunction.stepWord_toNat (fn : EmitFunction) : fn.stepWord.toNat = fn.step := by
  rcases fn.step_cases with ⟨-, hstep, hword⟩ | ⟨-, hstep, hword⟩
  · rw [hstep, hword]; rfl
  · rw [hstep, hword]; rfl

theorem EmitFunction.step_pos (fn : EmitFunction) : 0 < fn.step := by
  rcases fn.step_cases with ⟨-, hstep, -⟩ | ⟨-, hstep, -⟩ <;> omega

/-! ### Program counters -/

/-- The program counters at the numbers `i .. i + n` of a step. -/
def pcsAt (step i n : Nat) : List UInt32 :=
  (List.range' i n).map fun k => UInt32.ofNat (k * step)

theorem pcsAt_append (step i m n : Nat) :
    pcsAt step i m ++ pcsAt step (i + m) n = pcsAt step i (m + n) := by
  unfold pcsAt
  rw [← List.map_append, List.range'_append_1]

theorem pcs_eq_pcsAt {fn : EmitFunction} {i j : Nat} (haddr : fn.addr.toNat = i * fn.step)
    (hend : fn.endAddr.toNat = j * fn.step) : fn.pcs = pcsAt fn.step i (j - i) := by
  have hcount : (j * fn.step - i * fn.step + fn.step - 1) / fn.step = j - i := by
    rw [← Nat.sub_mul, Nat.add_sub_assoc fn.step_pos, Nat.mul_comm, Nat.mul_add_div fn.step_pos,
      Nat.div_eq_of_lt (Nat.sub_lt fn.step_pos Nat.one_pos), Nat.add_zero]
  unfold EmitFunction.pcs pcsAt
  rw [haddr, hend, hcount, List.range'_eq_map_range, List.map_map]
  apply List.map_congr_left
  intro k _
  rw [Function.comp_apply, Nat.add_mul]

/-! ### One chunk -/

theorem wordMin_cases (a b : UInt32) :
    (min a b = a ∧ a.toNat ≤ b.toNat) ∨ (min a b = b ∧ b.toNat ≤ a.toNat) := by
  change ((if a ≤ b then a else b) = a ∧ _) ∨ ((if a ≤ b then a else b) = b ∧ _)
  by_cases hle : a ≤ b
  · exact Or.inl ⟨if_pos hle, UInt32.le_iff_toNat_le.mp hle⟩
  · refine Or.inr ⟨if_neg hle, ?_⟩
    rw [UInt32.le_iff_toNat_le] at hle
    omega

theorem wordMax_cases (a b : UInt32) :
    (max a b = b ∧ a.toNat ≤ b.toNat) ∨ (max a b = a ∧ b.toNat ≤ a.toNat) := by
  change ((if a ≤ b then b else a) = b ∧ _) ∨ ((if a ≤ b then b else a) = a ∧ _)
  by_cases hle : a ≤ b
  · exact Or.inl ⟨if_pos hle, UInt32.le_iff_toNat_le.mp hle⟩
  · refine Or.inr ⟨if_neg hle, ?_⟩
    rw [UInt32.le_iff_toNat_le] at hle
    omega

section Chunk

variable {e : EmissionConfig} {fn : EmitFunction}

theorem chunkLimit_dvd : fn.step ∣ (chunkLimit e.maxFunctionBytes fn).toNat := by
  have hrest : fn.step ∣ (e.maxFunctionBytes - e.maxFunctionBytes % fn.stepWord).toNat := by
    have hle : e.maxFunctionBytes % fn.stepWord ≤ e.maxFunctionBytes := by
      rw [UInt32.le_iff_toNat_le, UInt32.toNat_mod]
      exact Nat.mod_le _ _
    rw [UInt32.toNat_sub_of_le _ _ hle, UInt32.toNat_mod, fn.stepWord_toNat]
    exact Nat.dvd_sub_mod _
  unfold chunkLimit
  rcases wordMax_cases fn.stepWord (e.maxFunctionBytes - e.maxFunctionBytes % fn.stepWord) with
    ⟨h, -⟩ | ⟨h, -⟩
  · rw [h]
    exact hrest
  · rw [h, fn.stepWord_toNat]

variable (e fn) in
theorem chunkLimit_ge : fn.step ≤ (chunkLimit e.maxFunctionBytes fn).toNat := by
  rw [← fn.stepWord_toNat]
  unfold chunkLimit
  rcases wordMax_cases fn.stepWord (e.maxFunctionBytes - e.maxFunctionBytes % fn.stepWord) with
    ⟨h, hle⟩ | ⟨h, -⟩
  · rw [h]
    exact hle
  · rw [h]

/-- A chunk ends at a multiple of the step, behind its start and not behind the
function's end. -/
theorem chunkEnd_spec (haligned : StepAligned fn) (hfit : ChunksFit e fn) {pc : UInt32}
    (hpc : fn.step ∣ pc.toNat) (hlt : pc < fn.endAddr) :
    fn.step ∣ (chunkEnd e fn pc).toNat ∧ pc.toNat < (chunkEnd e fn pc).toNat ∧
      (chunkEnd e fn pc).toNat ≤ fn.endAddr.toNat := by
  have hlimit := chunkLimit_ge e fn
  have hpos := fn.step_pos
  have hltNat := UInt32.lt_iff_toNat_lt.mp hlt
  unfold ChunksFit at hfit
  have hsum : (pc + chunkLimit e.maxFunctionBytes fn).toNat =
      pc.toNat + (chunkLimit e.maxFunctionBytes fn).toNat := by
    rw [UInt32.toNat_add, Nat.mod_eq_of_lt (by omega)]
  have hstop : ∀ stop : UInt32, stop = min fn.endAddr (pc + chunkLimit e.maxFunctionBytes fn) →
      fn.step ∣ stop.toNat ∧ pc.toNat < stop.toNat ∧ stop.toNat ≤ fn.endAddr.toNat := by
    intro stop hdef
    rcases wordMin_cases fn.endAddr (pc + chunkLimit e.maxFunctionBytes fn) with
      ⟨h, -⟩ | ⟨h, hle⟩
    · rw [hdef, h]
      exact ⟨haligned.2, hltNat, Nat.le_refl _⟩
    · rw [hdef, h]
      refine ⟨?_, ?_, hle⟩
      · rw [hsum]
        exact Nat.dvd_add hpc chunkLimit_dvd
      · rw [hsum]
        omega
  obtain ⟨hdvd, hafter, hle⟩ := hstop _ rfl
  unfold chunkEnd
  dsimp only
  split
  · next hpair =>
      simp only [Bool.and_eq_true, decide_eq_true_eq] at hpair
      obtain ⟨⟨⟨hthumb, hbefore⟩, -⟩, -⟩ := hpair
      have hstep : fn.step = 2 := by
        unfold EmitFunction.step
        rw [hthumb]
        rfl
      have hbefore := UInt32.lt_iff_toNat_lt.mp hbefore
      have hend := haligned.2
      rw [hstep] at hdvd hend ⊢
      have htwo : ((min fn.endAddr (pc + chunkLimit e.maxFunctionBytes fn)) + 2).toNat =
          (min fn.endAddr (pc + chunkLimit e.maxFunctionBytes fn)).toNat + 2 := by
        have hbound := fn.endAddr.toNat_lt
        rw [UInt32.toNat_add, Nat.mod_eq_of_lt (by change _ + 2 < _; omega)]
        rfl
      rw [htwo]
      exact ⟨Nat.dvd_add hdvd (Nat.dvd_refl 2), by omega, by omega⟩
  · exact ⟨hdvd, hafter, hle⟩

@[simp] theorem chunk_step (pc stop : UInt32) (part : Nat) : (chunk fn pc stop part).step = fn.step :=
  rfl

@[simp] theorem chunk_addr (pc stop : UInt32) (part : Nat) : (chunk fn pc stop part).addr = pc := rfl

@[simp] theorem chunk_endAddr (pc stop : UInt32) (part : Nat) :
    (chunk fn pc stop part).endAddr = stop := rfl

/-- A chunk is decoded from where its function holds the same instruction. -/
theorem chunk_source (hinside : InsideImage e.image fn) {pc : UInt32} (hpc : fn.addr ≤ pc)
    (hlt : pc < fn.endAddr) (stop : UInt32) (part : Nat) :
    (chunk fn pc stop part).source.toNat = fn.source.toNat + (pc.toNat - fn.addr.toNat) := by
  obtain ⟨-, hend, hspace⟩ := hinside
  have hlt := UInt32.lt_iff_toNat_lt.mp hlt
  have hoff : (pc - fn.addr).toNat = pc.toNat - fn.addr.toNat := UInt32.toNat_sub_of_le _ _ hpc
  have hpc := UInt32.le_iff_toNat_le.mp hpc
  unfold EmitFunction.source at hend ⊢
  unfold chunk
  dsimp only
  by_cases hzero : fn.sourceAddr = 0
  · rw [if_neg (not_not_intro hzero), if_neg (not_not_intro hzero), if_neg (not_not_intro hzero)]
    omega
  · rw [if_pos hzero] at hend
    have hsum : (fn.sourceAddr + (pc - fn.addr)).toNat =
        fn.sourceAddr.toNat + (pc.toNat - fn.addr.toNat) := by
      rw [UInt32.toNat_add, hoff, Nat.mod_eq_of_lt (by omega)]
    have hsource : fn.sourceAddr.toNat ≠ 0 := fun h => hzero (UInt32.toNat_inj.mp h)
    have hmoved : fn.sourceAddr + (pc - fn.addr) ≠ 0 := by
      intro h
      rw [h] at hsum
      have hz : (0 : UInt32).toNat = 0 := rfl
      omega
    rw [if_pos hzero, if_pos hzero, if_pos hmoved]
    exact hsum

theorem chunk_inside (hinside : InsideImage e.image fn) {pc stop : UInt32} (hpc : fn.addr ≤ pc)
    (hlt : pc < fn.endAddr) (hstop : stop.toNat ≤ fn.endAddr.toNat) (part : Nat) :
    InsideImage e.image (chunk fn pc stop part) := by
  have hsource := chunk_source hinside hpc hlt stop part
  obtain ⟨hbegin, hend, hspace⟩ := hinside
  have hlt := UInt32.lt_iff_toNat_lt.mp hlt
  have hpc := UInt32.le_iff_toNat_le.mp hpc
  have hbegin := UInt32.le_iff_toNat_le.mp hbegin
  refine ⟨?_, ?_, hspace⟩
  · rw [UInt32.le_iff_toNat_le, hsource]
    omega
  · rw [hsource, chunk_addr, chunk_endAddr]
    omega

end Chunk

/-! ### The loop -/

/-- What a part keeps of the domain its function is in. -/
structure PartOf (e : EmissionConfig) (fn part : EmitFunction) : Prop where
  thumb : part.thumb = fn.thumb
  aligned : StepAligned part
  inside : InsideImage e.image part

theorem pcs_of_aligned {fn : EmitFunction} (h : StepAligned fn) :
    fn.pcs = pcsAt fn.step (fn.addr.toNat / fn.step)
      (fn.endAddr.toNat / fn.step - fn.addr.toNat / fn.step) :=
  pcs_eq_pcsAt (Nat.div_mul_cancel h.1).symm (Nat.div_mul_cancel h.2).symm

theorem pcsAt_done {fn : EmitFunction} {pc : UInt32} (hnot : ¬ pc < fn.endAddr) :
    pcsAt fn.step (pc.toNat / fn.step) (fn.endAddr.toNat / fn.step - pc.toNat / fn.step) = [] := by
  rw [UInt32.lt_iff_toNat_lt, Nat.not_lt] at hnot
  rw [Nat.sub_eq_zero_of_le (Nat.div_le_div_right hnot)]
  rfl

/-- From any program counter of the function, the loop ends and its parts hold
the instructions from there on. -/
theorem splitFrom_spec {e : EmissionConfig} {fn : EmitFunction} (haligned : StepAligned fn)
    (hinside : InsideImage e.image fn) (hfit : ChunksFit e fn) (fuel : Nat) (pc : UInt32)
    (part : Nat) (hdvd : fn.step ∣ pc.toNat) (hpc : fn.addr ≤ pc)
    (hfuel : fn.endAddr.toNat - pc.toNat ≤ fuel) :
    ∃ parts, splitFrom e fn fuel pc part = some parts ∧
      parts.flatMap EmitFunction.pcs =
        pcsAt fn.step (pc.toNat / fn.step) (fn.endAddr.toNat / fn.step - pc.toNat / fn.step) ∧
      ∀ p ∈ parts, PartOf e fn p := by
  induction fuel generalizing pc part with
  | zero =>
      have hnot : ¬ pc < fn.endAddr := by
        rw [UInt32.lt_iff_toNat_lt]
        omega
      exact ⟨[], if_neg hnot, (pcsAt_done hnot).symm, by simp⟩
  | succ fuel ih =>
      by_cases hlt : pc < fn.endAddr
      · obtain ⟨hstop, hafter, hle⟩ := chunkEnd_spec haligned hfit hdvd hlt
        have hbehind : fn.addr ≤ chunkEnd e fn pc := by
          rw [UInt32.le_iff_toNat_le] at hpc ⊢
          omega
        obtain ⟨parts, hparts, hpcs, hpart⟩ := ih (chunkEnd e fn pc) (part + 1) hstop hbehind
          (by omega)
        have hchunk : StepAligned (chunk fn pc (chunkEnd e fn pc) part) := ⟨hdvd, hstop⟩
        refine ⟨chunk fn pc (chunkEnd e fn pc) part :: parts, ?_, ?_, ?_⟩
        · rw [splitFrom, if_pos hlt, hparts]
          rfl
        · have hfirst : pc.toNat / fn.step ≤ (chunkEnd e fn pc).toNat / fn.step :=
            Nat.div_le_div_right (Nat.le_of_lt hafter)
          have hlast : (chunkEnd e fn pc).toNat / fn.step ≤ fn.endAddr.toNat / fn.step :=
            Nat.div_le_div_right hle
          rw [List.flatMap_cons, hpcs, pcs_of_aligned hchunk, chunk_step, chunk_addr, chunk_endAddr]
          have hjoin := pcsAt_append fn.step (pc.toNat / fn.step)
            ((chunkEnd e fn pc).toNat / fn.step - pc.toNat / fn.step)
            (fn.endAddr.toNat / fn.step - (chunkEnd e fn pc).toNat / fn.step)
          rw [show pc.toNat / fn.step + ((chunkEnd e fn pc).toNat / fn.step - pc.toNat / fn.step) =
            (chunkEnd e fn pc).toNat / fn.step by omega] at hjoin
          rw [hjoin]
          congr 1
          omega
        · intro p hp
          rcases List.mem_cons.mp hp with rfl | hp
          · exact ⟨rfl, hchunk, chunk_inside hinside hpc hlt hle part⟩
          · exact hpart p hp
      · exact ⟨[], by rw [splitFrom, if_neg hlt], (pcsAt_done hlt).symm, by simp⟩

theorem splitFunction_spec {e : EmissionConfig} {fn : EmitFunction} (haligned : StepAligned fn)
    (hinside : InsideImage e.image fn) (hfit : ChunksFit e fn) :
    ∃ parts, splitFunction e fn = some parts ∧ parts.flatMap EmitFunction.pcs = fn.pcs ∧
      ∀ p ∈ parts, PartOf e fn p := by
  rw [pcs_of_aligned haligned]
  exact splitFrom_spec haligned hinside hfit _ fn.addr 0 haligned.1 (UInt32.le_refl _)
    (Nat.le_refl _)

/-! ### The whole list -/

/-- The keys of a list's instructions. -/
def instructionKeys (funcs : List EmitFunction) : List (UInt32 × Bool) :=
  funcs.flatMap fun fn => fn.pcs.map fun pc => (pc, fn.thumb)

theorem instructionKeys_parts {e : EmissionConfig} {fn : EmitFunction} {parts : List EmitFunction}
    (hpcs : parts.flatMap EmitFunction.pcs = fn.pcs) (hpart : ∀ p ∈ parts, PartOf e fn p) :
    instructionKeys parts = fn.pcs.map fun pc => (pc, fn.thumb) := by
  unfold instructionKeys
  rw [← hpcs, List.map_flatMap]
  apply List.flatMap_congr
  intro p hp
  rw [(hpart p hp).thumb]

/-- The finder functions a bank is emitted from. -/
structure EmissionDomain (e : EmissionConfig) (funcs : List EmitFunction) : Prop where
  aligned : ∀ fn ∈ funcs, StepAligned fn
  inside : ∀ fn ∈ funcs, InsideImage e.image fn
  fit : e.maxFunctionBytes ≠ 0 → ∀ fn ∈ funcs, ChunksFit e fn

theorem splitEach_spec {e : EmissionConfig} {funcs : List EmitFunction}
    (haligned : ∀ fn ∈ funcs, StepAligned fn) (hinside : ∀ fn ∈ funcs, InsideImage e.image fn)
    (hfit : ∀ fn ∈ funcs, ChunksFit e fn) :
    ∃ parts, splitEach e funcs = some parts ∧ instructionKeys parts = instructionKeys funcs ∧
      ∀ p ∈ parts, StepAligned p ∧ InsideImage e.image p := by
  induction funcs with
  | nil => exact ⟨[], rfl, rfl, by simp⟩
  | cons fn rest ih =>
      rw [List.forall_mem_cons] at haligned hinside hfit
      obtain ⟨first, hfirst, hpcs, hpart⟩ := splitFunction_spec haligned.1 hinside.1 hfit.1
      obtain ⟨others, hothers, hkeys, hall⟩ := ih haligned.2 hinside.2 hfit.2
      refine ⟨first ++ others, ?_, ?_, ?_⟩
      · rw [splitEach, hfirst, hothers]
        rfl
      · have happend : instructionKeys (first ++ others) =
            instructionKeys first ++ instructionKeys others := List.flatMap_append
        rw [happend, instructionKeys_parts hpcs hpart, hkeys]
        rfl
      · intro p hp
        rcases List.mem_append.mp hp with hp | hp
        · exact ⟨(hpart p hp).aligned, (hpart p hp).inside⟩
        · exact hall p hp

/-- Splitting ends, keeps every instruction's key, and keeps the parts in the
domain. -/
theorem split_keeps_instructions {e : EmissionConfig} {funcs : List EmitFunction}
    (h : EmissionDomain e funcs) :
    ∃ parts, splitFunctionsForEmission e funcs = some parts ∧
      instructionKeys parts = instructionKeys funcs ∧
      ∀ p ∈ parts, StepAligned p ∧ InsideImage e.image p := by
  unfold splitFunctionsForEmission
  by_cases hzero : e.maxFunctionBytes = 0
  · rw [if_pos hzero]
    exact ⟨funcs, rfl, rfl, fun p hp => ⟨h.aligned p hp, h.inside p hp⟩⟩
  · rw [if_neg hzero]
    exact splitEach_spec h.aligned h.inside (h.fit hzero)

end NdsRecomp.Recompiler
