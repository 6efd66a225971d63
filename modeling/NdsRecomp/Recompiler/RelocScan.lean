import Mathlib.Tactic

/-!
The relocation scan: the startup code of a module is executed in a sealed bus,
and what it wrote outside the module is matched against the module's bytes.

Decoder and interpreter are parameters. An image is one that a 32-bit machine can
hold.
-/

namespace NdsRecomp.Recompiler

/-- Bytes an anchor window must span before a match is trusted. -/
def kMinAnchor : Nat := 64

def kMaxSteps : Nat := 4 * 1024 * 1024

/-- Searches allowed per region. -/
def kMaxAnchorTries : Nat := 512

structure ModuleImage where
  base : UInt32
  size : Nat
  byte : Nat → UInt8
  size_lt : size < 2 ^ 32

/-- `addr >= image_base && addr - image_base < image_size` -/
def ModuleImage.Spans (image : ModuleImage) (addr : UInt32) : Prop :=
  image.base ≤ addr ∧ (addr - image.base).toNat < image.size

instance (image : ModuleImage) (addr : UInt32) : Decidable (image.Spans addr) :=
  inferInstanceAs (Decidable (_ ∧ _))

/-! ### The sealed bus -/

/-- A map from addresses to bytes, in the order of the addresses. -/
structure Shadow where
  entries : List (UInt32 × UInt8) := []
  sorted : entries.Pairwise (·.1 < ·.1) := by simp

def Shadow.find (shadow : Shadow) (addr : UInt32) : Option UInt8 :=
  (shadow.entries.find? (·.1 == addr)).map (·.2)

def Shadow.put (shadow : Shadow) (addr : UInt32) (value : UInt8) : Shadow where
  entries :=
    shadow.entries.filter (·.1 < addr) ++ (addr, value) :: shadow.entries.filter (addr < ·.1)
  sorted := by
    refine List.pairwise_append.mpr ⟨shadow.sorted.filter _, List.pairwise_cons.mpr
      ⟨fun e he => ?_, shadow.sorted.filter _⟩, fun e he f hf => ?_⟩
    · simpa using (List.mem_filter.mp he).2
    · have hlow : e.1 < addr := by simpa using (List.mem_filter.mp he).2
      rcases List.mem_cons.mp hf with rfl | hf
      · exact hlow
      · have hhigh : addr < f.1 := by simpa using (List.mem_filter.mp hf).2
        exact UInt32.lt_trans hlow hhigh

structure RelocBus where
  image : ModuleImage
  shadow : Shadow := {}
  unmappedReads : Nat := 0

namespace RelocBus

def load (bus : RelocBus) (addr : UInt32) : UInt8 × RelocBus :=
  match bus.shadow.find addr with
  | some value => (value, bus)
  | none =>
      if bus.image.Spans addr then (bus.image.byte (addr - bus.image.base).toNat, bus)
      else (0, { bus with unmappedReads := bus.unmappedReads + 1 })

/-- The bytes from `addr` on, lowest first. -/
def loads : Nat → UInt32 → RelocBus → UInt32 × RelocBus
  | 0, _, bus => (0, bus)
  | count + 1, addr, bus =>
      let (low, bus) := bus.load addr
      let (high, bus) := loads count (addr + 1) bus
      (low.toUInt32 ||| (high <<< 8), bus)

def read8 (bus : RelocBus) (addr : UInt32) : UInt32 × RelocBus := loads 1 addr bus

def read16 (bus : RelocBus) (addr : UInt32) : UInt32 × RelocBus := loads 2 addr bus

def read32 (bus : RelocBus) (addr : UInt32) : UInt32 × RelocBus := loads 4 addr bus

def stores : Nat → UInt32 → UInt32 → RelocBus → RelocBus
  | 0, _, _, bus => bus
  | count + 1, addr, value, bus =>
      stores count (addr + 1) (value >>> 8)
        { bus with shadow := bus.shadow.put addr value.toUInt8 }

def write8 (bus : RelocBus) (addr value : UInt32) : RelocBus := stores 1 addr value bus

def write16 (bus : RelocBus) (addr value : UInt32) : RelocBus := stores 2 addr value bus

def write32 (bus : RelocBus) (addr value : UInt32) : RelocBus := stores 4 addr value bus

end RelocBus

/-! ### Execution -/

inductive StepResult where
  | ok
  | swi
  | undefined
  | notImplemented

/-- The decoders and the interpreter. A decoder answers `none` for an undefined
instruction. -/
structure Interpreter (Cpu Instr : Type) where
  reset : Bool → UInt32 → Cpu
  thumb : Cpu → Bool
  r15 : Cpu → UInt32
  decodeThumb : UInt32 → UInt32 → Option Instr
  decodeArm : UInt32 → UInt32 → Option Instr
  step : Cpu → RelocBus → Instr → StepResult × Cpu × RelocBus

structure Execution (Cpu : Type) where
  cpu : Cpu
  bus : RelocBus
  steps : Nat := 0
  stopReason : String := ""

section Execute

variable {Cpu Instr : Type} (interp : Interpreter Cpu Instr)

def inImage (image : ModuleImage) (addr : UInt32) (len : Nat) : Bool :=
  decide (image.base ≤ addr) && decide (addr.toNat - image.base.toNat + len ≤ image.size)

def currentPc (s : Execution Cpu) : UInt32 :=
  interp.r15 s.cpu &&& (if interp.thumb s.cpu then ~~~1 else ~~~3)

def pcInImage (s : Execution Cpu) : Bool :=
  inImage s.bus.image (currentPc interp s) (if interp.thumb s.cpu then 2 else 4)

/-- The instruction at the PC, and the bus behind its fetch. -/
def decodeCurrent (s : Execution Cpu) : Option Instr × RelocBus :=
  let pc := currentPc interp s
  if interp.thumb s.cpu then
    let (half, bus) := s.bus.read16 pc
    (interp.decodeThumb half pc, bus)
  else
    let (word, bus) := s.bus.read32 pc
    (interp.decodeArm word pc, bus)

/-- The execution loop; `left` steps are still allowed. -/
def execute : Nat → Execution Cpu → Execution Cpu
  | 0, s => { s with stopReason := "step-cap" }
  | left + 1, s =>
      if pcInImage interp s then
        match decodeCurrent interp s with
        | (none, bus) => { s with bus, stopReason := "undefined-instruction" }
        | (some ins, bus) =>
            let (result, cpu, bus) := interp.step s.cpu bus ins
            let s := { s with cpu, bus, steps := s.steps + 1 }
            match result with
            | .ok => execute left s
            | .swi => { s with stopReason := "swi" }
            | .undefined => { s with stopReason := "undefined-instruction" }
            | .notImplemented => { s with stopReason := "unimplemented-op" }
      else { s with stopReason := "pc-left-module" }

end Execute

/-! ### Regions -/

structure Region where
  start : UInt32
  bytes : List UInt8

def Region.byte (region : Region) (i : Nat) : UInt8 := region.bytes.getD i 0

/-- A byte behind the newest region joins it, any other starts a region. -/
def addByte (regions : List Region) (addr : UInt32) (byte : UInt8) : List Region :=
  match regions with
  | [] => [⟨addr, [byte]⟩]
  | last :: rest =>
      if addr.toNat = last.start.toNat + last.bytes.length then
        { last with bytes := last.bytes ++ [byte] } :: rest
      else ⟨addr, [byte]⟩ :: last :: rest

/-- The runs of shadow bytes outside the span, newest first. -/
def coalesce (image : ModuleImage) : List (UInt32 × UInt8) → List Region → List Region
  | [], regions => regions
  | (addr, byte) :: entries, regions =>
      coalesce image entries (if image.Spans addr then regions else addByte regions addr byte)

def regionsOf (image : ModuleImage) (shadow : Shadow) : List Region :=
  (coalesce image shadow.entries []).reverse

/-! ### Content match -/

structure RelocCopy where
  runtimeStart : UInt32
  sourceStart : UInt32
  size : UInt32
deriving DecidableEq

/-- The window is one repeated byte. -/
def DegenerateWindow (region : Region) (pos : Nat) : Prop :=
  ∀ i < kMinAnchor, region.byte (pos + i) = region.byte pos

/-- The image has the anchor at `off`. -/
def AnchorAt (image : ModuleImage) (region : Region) (pos off : Nat) : Prop :=
  off + kMinAnchor ≤ image.size ∧ ∀ i < kMinAnchor, image.byte (off + i) = region.byte (pos + i)

instance (region : Region) (pos : Nat) : Decidable (DegenerateWindow region pos) :=
  inferInstanceAs (Decidable (∀ i < kMinAnchor, _))

instance (image : ModuleImage) (region : Region) (pos off : Nat) :
    Decidable (AnchorAt image region pos off) :=
  inferInstanceAs (Decidable (_ ∧ ∀ i < kMinAnchor, _))

/-- `std::search` for the anchor from `start` on. -/
def searchAnchor (image : ModuleImage) (region : Region) (pos start : Nat) : Option Nat :=
  (List.range' start (image.size - start)).find? fun off => decide (AnchorAt image region pos off)

/-- How far region and image agree. -/
def extendMatch (image : ModuleImage) (region : Region) (pos off n : Nat) : Nat :=
  if pos + n < region.bytes.length ∧ off + n < image.size ∧
      region.byte (pos + n) = image.byte (off + n) then
    extendMatch image region pos off (n + 1)
  else n
termination_by region.bytes.length - (pos + n)

structure MatchState where
  pos : Nat := 0
  tries : Nat := 0
  matchedAny : Bool := false
  ambiguous : Bool := false
  copies : List RelocCopy := []

/-- One round of the loop over a region; `none` when the loop is done. -/
def matchStep (image : ModuleImage) (region : Region) (s : MatchState) : Option MatchState :=
  if s.pos + kMinAnchor ≤ region.bytes.length ∧ s.tries < kMaxAnchorTries then
    some <|
      if DegenerateWindow region s.pos then { s with pos := s.pos + 4 }
      else
        let s := { s with tries := s.tries + 1 }
        match searchAnchor image region s.pos 0 with
        | none => { s with pos := s.pos + 4 }
        | some off =>
            match searchAnchor image region s.pos (off + 1) with
            | some _ => { s with ambiguous := true, pos := s.pos + 4 }
            | none =>
                let n := extendMatch image region s.pos off 0
                { s with
                  copies := s.copies ++
                    [⟨region.start + UInt32.ofNat s.pos, image.base + UInt32.ofNat off,
                      UInt32.ofNat n⟩]
                  matchedAny := true
                  pos := s.pos + n }
  else none

theorem searchAnchor_some {image : ModuleImage} {region : Region} {pos start off : Nat}
    (h : searchAnchor image region pos start = some off) :
    AnchorAt image region pos off ∧ ∀ o, start ≤ o → o < off → ¬ AnchorAt image region pos o := by
  obtain ⟨hanchor, -, hfirst⟩ := List.find?_range'_eq_some.mp h
  refine ⟨of_decide_eq_true hanchor, fun o hstart hlt => ?_⟩
  have hnot := hfirst o hstart hlt
  rw [Bool.not_eq_true'] at hnot
  exact of_decide_eq_false hnot

theorem searchAnchor_none {image : ModuleImage} {region : Region} {pos start : Nat}
    (h : searchAnchor image region pos start = none) :
    ∀ o, start ≤ o → ¬ AnchorAt image region pos o := by
  intro o hstart hanchor
  have hin : o < start + (image.size - start) := by
    have hle := hanchor.1
    unfold kMinAnchor at hle
    omega
  have hnot := List.find?_range'_eq_none.mp h o hstart hin
  rw [Bool.not_eq_true'] at hnot
  exact of_decide_eq_false hnot hanchor

theorem extendMatch_ge (image : ModuleImage) (region : Region) (pos off n : Nat) :
    n ≤ extendMatch image region pos off n := by
  fun_induction extendMatch image region pos off n with
  | case1 n h ih => exact (Nat.le_succ n).trans ih
  | case2 n h => exact Nat.le_refl n

/-- What was extended agrees, and lies within both. -/
theorem extendMatch_agrees (image : ModuleImage) (region : Region) (pos off n : Nat)
    (hbefore : ∀ i < n, region.byte (pos + i) = image.byte (off + i))
    (hregion : pos + n ≤ region.bytes.length) (himage : off + n ≤ image.size) :
    (∀ i < extendMatch image region pos off n, region.byte (pos + i) = image.byte (off + i)) ∧
      pos + extendMatch image region pos off n ≤ region.bytes.length ∧
      off + extendMatch image region pos off n ≤ image.size := by
  fun_induction extendMatch image region pos off n with
  | case1 n h ih =>
      refine ih (fun i hi => ?_) h.1 h.2.1
      rcases Nat.lt_succ_iff_lt_or_eq.mp hi with hlt | rfl
      · exact hbefore i hlt
      · exact h.2.2
  | case2 n h => exact ⟨hbefore, hregion, himage⟩

/-- An anchor that fits the region is extended over at least its own bytes. -/
theorem kMinAnchor_le_extendMatch {image : ModuleImage} {region : Region} {pos off : Nat}
    (hanchor : AnchorAt image region pos off) (hfits : pos + kMinAnchor ≤ region.bytes.length) :
    kMinAnchor ≤ extendMatch image region pos off 0 := by
  have hreach (n : Nat) (hn : n ≤ kMinAnchor) :
      extendMatch image region pos off 0 = extendMatch image region pos off n := by
    induction n with
    | zero => rfl
    | succ n ih =>
        have hmatch : pos + n < region.bytes.length ∧ off + n < image.size ∧
            region.byte (pos + n) = image.byte (off + n) :=
          ⟨by omega, by have hle := hanchor.1; omega, (hanchor.2 n hn).symm⟩
        rw [ih (by omega), extendMatch, if_pos hmatch]
  rw [hreach kMinAnchor le_rfl]
  exact extendMatch_ge image region pos off kMinAnchor

/-- Every round moves on. -/
theorem matchStep_progress {image : ModuleImage} {region : Region} {s s' : MatchState}
    (h : matchStep image region s = some s') :
    s.pos < s'.pos ∧ s.pos < region.bytes.length := by
  unfold matchStep at h
  split at h
  case isFalse => cases h
  next hgo =>
  have hfits : s.pos < region.bytes.length := by
    have hle := hgo.1
    unfold kMinAnchor at hle
    omega
  refine ⟨?_, hfits⟩
  obtain rfl := Option.some.inj h
  split
  · exact Nat.lt_add_of_pos_right (by decide)
  dsimp only
  split
  · exact Nat.lt_add_of_pos_right (by decide)
  next off hoff =>
  split
  · exact Nat.lt_add_of_pos_right (by decide)
  · have hlong := kMinAnchor_le_extendMatch (searchAnchor_some hoff).1 hgo.1
    exact Nat.lt_add_of_pos_right (Nat.lt_of_lt_of_le (by decide) hlong)

def matchLoop (image : ModuleImage) (region : Region) (s : MatchState) : MatchState :=
  match _h : matchStep image region s with
  | none => s
  | some s' => matchLoop image region s'
termination_by region.bytes.length - s.pos
decreasing_by
  have hprogress := matchStep_progress _h
  omega

/-! ### The scan -/

structure RelocScanStats where
  steps : Nat := 0
  unmappedReads : Nat := 0
  shadowBytes : Nat := 0
  regionsTotal : Nat := 0
  regionsMatched : Nat := 0
  regionsAmbiguous : Nat := 0
  regionsUnmatched : Nat := 0
  stopReason : String := ""

def countRegion (stats : RelocScanStats) (done : MatchState) : RelocScanStats :=
  if done.matchedAny then { stats with regionsMatched := stats.regionsMatched + 1 }
  else if done.ambiguous then { stats with regionsAmbiguous := stats.regionsAmbiguous + 1 }
  else { stats with regionsUnmatched := stats.regionsUnmatched + 1 }

/-- The copies and statistics of one region more. -/
def matchRegion (image : ModuleImage) (scan : List RelocCopy × RelocScanStats) (region : Region) :
    List RelocCopy × RelocScanStats :=
  let done := matchLoop image region { copies := scan.1 }
  (done.copies, countRegion scan.2 done)

/-- The scan of what an execution left in its bus. -/
def matchRegions (image : ModuleImage) (shadow : Shadow) (stats : RelocScanStats) :
    List RelocCopy × RelocScanStats :=
  let regions := regionsOf image shadow
  regions.foldl (matchRegion image) ([], { stats with regionsTotal := regions.length })

def scanRelocations {Cpu Instr : Type} (interp : Interpreter Cpu Instr) (image : ModuleImage)
    (entryPc : UInt32) : List RelocCopy × RelocScanStats :=
  let cpu := interp.reset (entryPc &&& 1 != 0) (entryPc &&& ~~~1)
  let ran := execute interp kMaxSteps { cpu, bus := { image } }
  matchRegions image ran.bus.shadow
    { steps := ran.steps
      unmappedReads := ran.bus.unmappedReads
      shadowBytes := ran.bus.shadow.entries.length
      stopReason := ran.stopReason }

end NdsRecomp.Recompiler
