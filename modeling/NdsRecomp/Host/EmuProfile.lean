import NdsRecomp.Library.OpSystem

/-!
Host time by region of the emulated phase. A region is an object of the program: it
opens when it is constructed and closes when it is destroyed, so regions nest. Exact
buckets are measured on every entry, sampled ones within a round that the round
sampler has selected.

Beside the globals a run keeps the open regions and the measured boundaries since the
last reset, each with the innermost measured region behind it. What is charged are
the intervals between those boundaries.
-/

namespace NdsRecomp.Host

open Library

inductive NdsEmuBucket
  | execArm9
  | execArm7
  | timersArm9
  | timersArm7
  | display
  | spu
  | wifi
  | rtc
  | sysev
  | nextev
  | ctxsw
  | overlay
  | schedOther
  | geom
  | tier3Arm9
  | tier3Arm7
  | dmaArm9
  | dmaArm7
  | raster2d
  | gpu3dFrame
  deriving DecidableEq

/-- `kExactMask` -/
def NdsEmuBucket.isExact : NdsEmuBucket → Bool
  | geom | tier3Arm9 | tier3Arm7 | dmaArm9 | dmaArm7 | raster2d | gpu3dFrame => true
  | _ => false

/-- A value of `g_cur` or of an entry's token: a bucket or one of the two sentinels. -/
inductive NdsEmuCode
  | bucket (b : NdsEmuBucket)
  | none
  | inactive
  deriving DecidableEq

/-- An accrual, for the theorems: the bucket and the readings it lies between. -/
structure Charge where
  bucket : NdsEmuBucket
  start : Nat
  stop : Nat
  deriving DecidableEq

structure NdsEmuProfile where
  ticks : NdsEmuBucket → Nat := fun _ => 0
  entries : NdsEmuBucket → Nat := fun _ => 0
  sampledRounds : Nat := 0
  rounds : Nat := 0
  reads : Nat := 0

/-- The globals of the timed regions. `charges` and `stray` record what was added to
`ticks`, the newest first, and whether something was added behind its end. -/
structure EmuGlobals where
  profile : NdsEmuProfile := {}
  sampling : Bool := false
  cur : NdsEmuCode := .none
  last : Nat := 0
  roundCounter : UInt64 := 0
  charges : List Charge := []
  stray : Bool := false

namespace EmuGlobals

/-- `ticks[g_cur] += delta > overhead ? delta - overhead : 0` -/
def accrue (overhead t : Nat) (g : EmuGlobals) : EmuGlobals :=
  match g.cur with
  | .bucket b =>
    { g with
      profile := { g.profile with
        ticks := Function.update g.profile.ticks b
          (g.profile.ticks b + (t - g.last - overhead)) }
      charges := ⟨b, g.last, t⟩ :: g.charges }
  | _ => { g with stray := true }

def countRead (g : EmuGlobals) : EmuGlobals :=
  { g with profile := { g.profile with reads := g.profile.reads + 1 } }

def countEntry (bucket : NdsEmuBucket) (g : EmuGlobals) : EmuGlobals :=
  { g with
    profile := { g.profile with
      entries := Function.update g.profile.entries bucket (g.profile.entries bucket + 1) } }

def ndsEmuEnter (overhead : Nat) (g : EmuGlobals) (bucket : NdsEmuBucket) (t : Nat) :
    EmuGlobals × NdsEmuCode :=
  if bucket.isExact = false ∧ g.sampling = false then (g, .inactive)
  else
    let closed := if g.cur ≠ .none then g.countRead.accrue overhead t else g.countRead
    ({ closed.countEntry bucket with cur := .bucket bucket, last := t }, g.cur)

def ndsEmuExit (overhead : Nat) (g : EmuGlobals) (prev : NdsEmuCode) (t : Nat) : EmuGlobals :=
  if prev = .inactive then g
  else { g.countRead.accrue overhead t with cur := prev, last := t }

/-- The modulus selects this round. -/
def selects (modulus : UInt64) (g : EmuGlobals) : Bool :=
  modulus != 0 && g.roundCounter % modulus == 0

def countRound (modulus : UInt64) (g : EmuGlobals) : EmuGlobals :=
  { g with
    profile := { g.profile with rounds := g.profile.rounds + 1 }
    roundCounter := if modulus = 0 then g.roundCounter else g.roundCounter + 1 }

/-- The constructor of `NdsEmuRound`, with `sampling_`. -/
def openRound (modulus : UInt64) (g : EmuGlobals) (t : Nat) : EmuGlobals × Bool :=
  if g.selects modulus = false then (g.countRound modulus, false)
  else if g.cur ≠ .none then (g.countRound modulus, false)
  else
    let counted := ((g.countRound modulus).countEntry .schedOther).countRead
    ({ counted with
      profile := { counted.profile with sampledRounds := counted.profile.sampledRounds + 1 }
      sampling := true
      cur := .bucket .schedOther
      last := t }, true)

/-- The destructor of `NdsEmuRound`. -/
def closeRound (overhead : Nat) (g : EmuGlobals) (sampling : Bool) (t : Nat) : EmuGlobals :=
  if sampling = false then g
  else { g.countRead.accrue overhead t with cur := .none, sampling := false }

def ndsEmuProfileReset (g : EmuGlobals) : EmuGlobals :=
  { g with profile := {}, cur := .none, sampling := false, charges := [] }

end EmuGlobals

/-! ## Regions and boundaries -/

/-- What an open region keeps: `prev_` or `sampling_`. -/
inductive RegionLocal
  | scope (prev : NdsEmuCode)
  | round (sampling : Bool)

/-- An open region. `measured` is whether it ought to be timed; `curBefore`, `start` and
`mark` are the current bucket, the reading and the number of charges when it opened. -/
structure Region where
  bucket : NdsEmuBucket
  held : RegionLocal
  measured : Bool
  curBefore : NdsEmuCode
  start : Nat
  mark : Nat

def Region.isRound (r : Region) : Bool :=
  match r.held with
  | .scope _ => false
  | .round _ => true

/-- The bucket of the innermost measured region, the innermost being the first. -/
def innermost (regions : List Region) : Option NdsEmuBucket :=
  (regions.find? (·.measured)).map (·.bucket)

def codeOf : Option NdsEmuBucket → NdsEmuCode
  | some b => .bucket b
  | none => .none

def sampledRoundOpen (regions : List Region) : Bool := regions.any fun r => r.measured && r.isRound

/-- A measured boundary with the innermost measured region behind it. -/
abbrev Boundary := Nat × Option NdsEmuBucket

def intervalOf (t : Nat) : Boundary → List Charge
  | (start, some b) => [⟨b, start, t⟩]
  | (_, none) => []

/-- The intervals between consecutive boundaries, each with its region; the newest first. -/
def intervals : List Boundary → List Charge
  | [] => []
  | [_] => []
  | newest :: before :: older => intervalOf newest.1 before ++ intervals (before :: older)

/-- What a bucket gets of a list of intervals. -/
def totalOf (overhead : Nat) (b : NdsEmuBucket) (charges : List Charge) : Nat :=
  ((charges.filter fun c => c.bucket = b).map fun c => c.stop - c.start - overhead).sum

/-- The intervals follow one another from `a` to `b`; the newest first. -/
def Tiles (a : Nat) : Nat → List Charge → Prop
  | b, [] => a = b
  | b, c :: older => c.stop = b ∧ c.start ≤ c.stop ∧ Tiles a c.start older

/-! ## Runs -/

structure EmuRun where
  globals : EmuGlobals := {}
  now : Nat := 0
  regions : List Region := []
  boundaries : List Boundary := []

/-- What the program does, with the clock's reading. -/
inductive EmuOp
  | openScope (bucket : NdsEmuBucket) (wanted : Bool) (t : Nat)
  | closeScope (t : Nat)
  | openRound (t : Nat)
  | closeRound (t : Nat)
  | reset

namespace EmuRun

def boundary (s : EmuRun) (measured : Bool) (t : Nat) (regions : List Region) : List Boundary :=
  if measured then (t, innermost regions) :: s.boundaries else s.boundaries

def next (modulus : UInt64) (overhead : Nat) (s : EmuRun) : EmuOp → EmuRun
  | .openScope bucket wanted t =>
    let entered := if wanted then s.globals.ndsEmuEnter overhead bucket t
      else (s.globals, .inactive)
    let measured := wanted && (bucket.isExact || sampledRoundOpen s.regions)
    let regions := { bucket := bucket, held := .scope entered.2, measured := measured
                     curBefore := s.globals.cur, start := t
                     mark := s.globals.charges.length } :: s.regions
    { globals := entered.1, now := t, regions := regions
      boundaries := s.boundary measured t regions }
  | .closeScope t =>
    match s.regions with
    | ⟨_, .scope prev, measured, _, _, _⟩ :: below =>
      { globals := s.globals.ndsEmuExit overhead prev t, now := t, regions := below
        boundaries := s.boundary measured t below }
    | _ => s
  | .openRound t =>
    let opened := s.globals.openRound modulus t
    let measured := s.globals.selects modulus && (innermost s.regions).isNone
    let regions := { bucket := .schedOther, held := .round opened.2, measured := measured
                     curBefore := s.globals.cur, start := t
                     mark := s.globals.charges.length } :: s.regions
    { globals := opened.1, now := t, regions := regions
      boundaries := s.boundary measured t regions }
  | .closeRound t =>
    match s.regions with
    | ⟨_, .round sampling, measured, _, _, _⟩ :: below =>
      { globals := s.globals.closeRound overhead sampling t, now := t, regions := below
        boundaries := s.boundary measured t below }
    | _ => s
  | .reset => { s with globals := s.globals.ndsEmuProfileReset, boundaries := [] }

/-- Readings do not decrease, regions close in the reverse order, and a reset meets no
measured region. -/
def admits (s : EmuRun) : EmuOp → Prop
  | .openScope _ _ t => s.now ≤ t
  | .closeScope t => s.now ≤ t ∧ ∃ r ∈ s.regions.head?, r.isRound = false
  | .openRound t => s.now ≤ t
  | .closeRound t => s.now ≤ t ∧ ∃ r ∈ s.regions.head?, r.isRound = true
  | .reset => innermost s.regions = none

def system (modulus : UInt64) (overhead : Nat) : OpSystem EmuRun EmuOp where
  initial := fun s => s = {}
  admits := admits
  next := next modulus overhead

/-- The operation that closes a region. -/
def closing (r : Region) (t : Nat) : EmuOp := if r.isRound then .closeRound t else .closeScope t

end EmuRun

/-! ## Intervals -/

variable {overhead : Nat}

@[simp] theorem totalOf_nil (b : NdsEmuBucket) : totalOf overhead b [] = 0 := rfl

theorem totalOf_append (b : NdsEmuBucket) (newer older : List Charge) :
    totalOf overhead b (newer ++ older) = totalOf overhead b newer + totalOf overhead b older := by
  simp [totalOf]

theorem totalOf_intervalOf (b : NdsEmuBucket) (t start : Nat) (i : Option NdsEmuBucket) :
    totalOf overhead b (intervalOf t (start, i)) =
      if i = some b then t - start - overhead else 0 := by
  cases i with
  | none => simp [intervalOf]
  | some c => by_cases h : c = b <;> simp [intervalOf, totalOf, h]

/-- The newest boundary and those before it give an interval more. -/
theorem intervals_cons (newest before : Boundary) (older : List Boundary) :
    intervals (newest :: before :: older) =
      intervalOf newest.1 before ++ intervals (before :: older) := rfl

/-- The readings of boundaries, newest first, do not increase. -/
abbrev Ordered (boundaries : List Boundary) : Prop :=
  boundaries.Pairwise fun newer older => older.1 ≤ newer.1

theorem stop_le_of_mem_intervals {boundaries : List Boundary} {newest : Boundary}
    (h : Ordered (newest :: boundaries)) {c : Charge} (hc : c ∈ intervals (newest :: boundaries)) :
    c.stop ≤ newest.1 := by
  induction boundaries generalizing newest with
  | nil => cases hc
  | cons before older ih =>
      have hbefore : before.1 ≤ newest.1 := List.rel_of_pairwise_cons h List.mem_cons_self
      rcases List.mem_append.mp hc with hc | hc
      · obtain ⟨start, _ | b⟩ := before
        · cases hc
        · rw [List.mem_singleton.mp hc]
      · exact (ih (List.pairwise_cons.mp h).2 hc).trans hbefore

/-- Intervals between boundaries do not overlap. -/
theorem intervals_disjoint {boundaries : List Boundary} (h : Ordered boundaries) :
    (intervals boundaries).Pairwise fun newer older => older.stop ≤ newer.start := by
  induction boundaries with
  | nil => exact .nil
  | cons newest boundaries ih =>
      cases boundaries with
      | nil => exact .nil
      | cons before older =>
          have holder := (List.pairwise_cons.mp h).2
          rw [intervals_cons]
          refine List.pairwise_append.mpr ⟨?_, ih holder, ?_⟩
          · obtain ⟨start, _ | b⟩ := before
            · exact .nil
            · exact List.pairwise_singleton _ _
          · intro c hc d hd
            have hd := stop_le_of_mem_intervals holder hd
            obtain ⟨start, _ | b⟩ := before
            · cases hc
            · rw [List.mem_singleton.mp hc]
              exact hd

/-- No total exceeds the newest reading. -/
theorem totalOf_intervals_le {boundaries : List Boundary} {newest : Boundary}
    (h : Ordered (newest :: boundaries)) (b : NdsEmuBucket) :
    totalOf overhead b (intervals (newest :: boundaries)) ≤ newest.1 := by
  induction boundaries generalizing newest with
  | nil => exact Nat.zero_le _
  | cons before older ih =>
      have hbefore : before.1 ≤ newest.1 := List.rel_of_pairwise_cons h List.mem_cons_self
      have hold := ih (List.pairwise_cons.mp h).2
      rw [intervals_cons, totalOf_append, totalOf_intervalOf]
      split <;> omega

/-! ## What an operation charges -/

namespace EmuGlobals

variable {modulus : UInt64} {g g' : EmuGlobals} {t : Nat} {i : Option NdsEmuBucket}

/-- `g'` has charged the time from the last boundary to `t` to the innermost region `i`,
and nothing else. -/
structure Charged (overhead t : Nat) (i : Option NdsEmuBucket) (g g' : EmuGlobals) : Prop where
  stray : g'.stray = g.stray
  charges : g'.charges = intervalOf t (g.last, i) ++ g.charges
  ticks : ∀ b, g'.profile.ticks b =
    g.profile.ticks b + totalOf overhead b (intervalOf t (g.last, i))

theorem accrue_charged (overhead t : Nat) {b : NdsEmuBucket} (hcur : g.cur = .bucket b) :
    g.Charged overhead t (some b) (g.accrue overhead t) := by
  have haccrue : g.accrue overhead t =
      { g with
        profile := { g.profile with
          ticks := Function.update g.profile.ticks b
            (g.profile.ticks b + (t - g.last - overhead)) }
        charges := ⟨b, g.last, t⟩ :: g.charges } := by
    simp only [accrue, hcur]
  rw [haccrue]
  refine ⟨rfl, rfl, fun c => ?_⟩
  rw [totalOf_intervalOf]
  by_cases hc : c = b
  · subst hc
    simp
  · have hbc : b ≠ c := fun h => hc h.symm
    simp [hc, hbc]

/-- An entry that is timed. -/
theorem ndsEmuEnter_charged (overhead t : Nat) {bucket : NdsEmuBucket} (hcur : g.cur = codeOf i)
    (htimed : bucket.isExact = true ∨ g.sampling = true) :
    g.Charged overhead t i (g.ndsEmuEnter overhead bucket t).1 ∧
      (g.ndsEmuEnter overhead bucket t).1.cur = .bucket bucket ∧
      (g.ndsEmuEnter overhead bucket t).1.last = t ∧
      (g.ndsEmuEnter overhead bucket t).1.sampling = g.sampling ∧
      (g.ndsEmuEnter overhead bucket t).2 = g.cur := by
  have hnot : ¬(bucket.isExact = false ∧ g.sampling = false) := by
    rintro ⟨hexact, hsampling⟩
    rcases htimed with h | h
    · rw [hexact] at h; cases h
    · rw [hsampling] at h; cases h
  rw [ndsEmuEnter, if_neg hnot]
  cases i with
  | none =>
      rw [if_neg (by simp [hcur, codeOf])]
      exact ⟨⟨rfl, rfl, fun b => rfl⟩, rfl, rfl, rfl, rfl⟩
  | some b =>
      rw [if_pos (by simp [hcur, codeOf])]
      have h := accrue_charged (g := g.countRead) overhead t hcur
      refine ⟨⟨h.stray, h.charges, h.ticks⟩, rfl, rfl, ?_, rfl⟩
      show (g.countRead.accrue overhead t).sampling = g.sampling
      simp only [accrue, countRead, hcur, codeOf]

theorem ndsEmuEnter_skipped {bucket : NdsEmuBucket} (hexact : bucket.isExact = false)
    (hsampling : g.sampling = false) : g.ndsEmuEnter overhead bucket t = (g, .inactive) := by
  rw [ndsEmuEnter, if_pos ⟨hexact, hsampling⟩]

/-- An exit whose entry was timed. -/
theorem ndsEmuExit_charged (overhead t : Nat) {b : NdsEmuBucket} {prev : NdsEmuCode}
    (hcur : g.cur = .bucket b) (hprev : prev ≠ .inactive) :
    g.Charged overhead t (some b) (g.ndsEmuExit overhead prev t) ∧
      (g.ndsEmuExit overhead prev t).cur = prev ∧ (g.ndsEmuExit overhead prev t).last = t ∧
      (g.ndsEmuExit overhead prev t).sampling = g.sampling := by
  have h := accrue_charged (g := g.countRead) overhead t hcur
  rw [ndsEmuExit, if_neg hprev]
  refine ⟨⟨h.stray, h.charges, h.ticks⟩, rfl, rfl, ?_⟩
  show (g.countRead.accrue overhead t).sampling = g.sampling
  simp only [accrue, countRead, hcur]

theorem closeRound_charged (overhead t : Nat) {b : NdsEmuBucket} (hcur : g.cur = .bucket b) :
    g.Charged overhead t (some b) (g.closeRound overhead true t) ∧
      (g.closeRound overhead true t).cur = .none ∧
      (g.closeRound overhead true t).sampling = false := by
  have h := accrue_charged (g := g.countRead) overhead t hcur
  exact ⟨⟨h.stray, h.charges, h.ticks⟩, rfl, rfl⟩

/-- A round that samples. -/
theorem openRound_sampled (overhead t : Nat) (hselects : g.selects modulus = true)
    (hcur : g.cur = .none) :
    g.Charged overhead t none (g.openRound modulus t).1 ∧
      (g.openRound modulus t).1.cur = .bucket .schedOther ∧ (g.openRound modulus t).1.last = t ∧
      (g.openRound modulus t).1.sampling = true ∧ (g.openRound modulus t).2 = true := by
  have hopen : ¬g.cur ≠ .none := fun h => h hcur
  rw [openRound, if_neg (by simp [hselects]), if_neg hopen]
  exact ⟨⟨rfl, rfl, fun b => rfl⟩, rfl, rfl, rfl, rfl⟩

/-- A round that does not sample only counts itself. -/
theorem openRound_declined (h : g.selects modulus = false ∨ g.cur ≠ .none) :
    g.openRound modulus t = (g.countRound modulus, false) := by
  unfold openRound
  by_cases hselects : g.selects modulus = false
  · rw [if_pos hselects]
  · rw [if_neg hselects, if_pos (h.resolve_left hselects)]

end EmuGlobals

/-! ## The invariant -/

section Nesting

/-- What an open region keeps agrees with the regions it was opened in. -/
def Region.Fits (below : List Region) (r : Region) : Prop :=
  r.curBefore = codeOf (innermost below) ∧
    match r.held with
    | .scope prev => prev = if r.measured then codeOf (innermost below) else .inactive
    | .round sampling => sampling = r.measured ∧ (r.measured = true → innermost below = none)

def Nested : List Region → Prop
  | [] => True
  | r :: below => r.Fits below ∧ Nested below

variable {r : Region} {below : List Region}

theorem innermost_cons :
    innermost (r :: below) = if r.measured then some r.bucket else innermost below := by
  unfold innermost
  cases h : r.measured <;> simp [h]

theorem sampledRoundOpen_cons :
    sampledRoundOpen (r :: below) = ((r.measured && r.isRound) || sampledRoundOpen below) := by
  simp [sampledRoundOpen]

theorem innermost_ne_none {regions : List Region} (hr : r ∈ regions)
    (hmeasured : r.measured = true) : innermost regions ≠ none := by
  simp only [innermost, ne_eq, Option.map_eq_none_iff, List.find?_eq_none]
  exact fun h => h r hr hmeasured

/-- Where nothing is measured no round is. -/
theorem sampledRoundOpen_of_innermost (h : innermost below = none) :
    sampledRoundOpen below = false := by
  simp only [innermost, Option.map_eq_none_iff, List.find?_eq_none] at h
  rw [sampledRoundOpen, List.any_eq_false]
  intro r hr
  simp [h r hr]

theorem codeOf_ne_inactive (i : Option NdsEmuBucket) : codeOf i ≠ .inactive := by
  cases i <;> exact NdsEmuCode.noConfusion

theorem codeOf_eq_none_iff {i : Option NdsEmuBucket} : codeOf i = .none ↔ i = none := by
  cases i <;> simp [codeOf]

end Nesting

namespace EmuRun

variable {modulus : UInt64} {s s' : EmuRun} {t : Nat}

/-- The current bucket is that of the innermost measured region, and sampling is on in a
measured round. -/
structure Stacked (s : EmuRun) : Prop where
  cur : s.globals.cur = codeOf (innermost s.regions)
  sampling : s.globals.sampling = sampledRoundOpen s.regions
  nested : Nested s.regions

/-- What has been charged are the intervals between the boundaries. -/
structure Timed (overhead : Nat) (s : EmuRun) : Prop where
  stray : s.globals.stray = false
  charges : s.globals.charges = intervals s.boundaries
  ticks : ∀ b, s.globals.profile.ticks b = totalOf overhead b s.globals.charges
  ordered : Ordered s.boundaries
  past : ∀ boundary ∈ s.boundaries, boundary.1 ≤ s.now
  newest : ∀ boundary ∈ s.boundaries.head?, boundary.2 = innermost s.regions
  last : innermost s.regions ≠ none → ∃ boundary ∈ s.boundaries.head?, boundary.1 = s.globals.last

/-- The charges since a measured round opened tile its time. -/
def Partitioned (s : EmuRun) : Prop :=
  ∀ r ∈ s.regions, r.measured = true → r.isRound = true →
    ∃ since older, s.globals.charges = since ++ older ∧ older.length = r.mark ∧
      Tiles r.start s.globals.last since

structure Sound (overhead : Nat) (s : EmuRun) : Prop where
  stacked : s.Stacked
  timed : s.Timed overhead
  partitioned : s.Partitioned

/-- What a boundary at `t` adds to the intervals. -/
theorem Timed.intervals_boundary (h : s.Timed overhead) (i : Option NdsEmuBucket) :
    intervals ((t, i) :: s.boundaries) =
      intervalOf t (s.globals.last, innermost s.regions) ++ s.globals.charges := by
  rw [h.charges]
  cases hb : s.boundaries with
  | nil =>
      have hnone : innermost s.regions = none := by
        by_contra hne
        obtain ⟨_, hboundary, -⟩ := h.last hne
        rw [hb] at hboundary
        cases hboundary
      rw [hnone]
      rfl
  | cons before older =>
      have hnewest := h.newest before (by rw [hb]; rfl)
      rw [intervals_cons]
      congr 1
      obtain ⟨start, i⟩ := before
      subst hnewest
      cases hi : innermost s.regions with
      | none => rfl
      | some b =>
          obtain ⟨boundary, hboundary, hlast⟩ := h.last (by rw [hi]; exact Option.some_ne_none b)
          rw [hb] at hboundary
          cases hboundary
          rw [← hlast, hi]

/-- A measured boundary: the time up to it is charged to the region it ends. -/
theorem Timed.atBoundary (h : s.Timed overhead) (ht : s.now ≤ t)
    (hcharged : s.globals.Charged overhead t (innermost s.regions) s'.globals)
    (hboundaries : s'.boundaries = (t, innermost s'.regions) :: s.boundaries) (hnow : s'.now = t)
    (hlast : innermost s'.regions ≠ none → s'.globals.last = t) : s'.Timed overhead where
  stray := hcharged.stray.trans h.stray
  charges := by rw [hcharged.charges, hboundaries, h.intervals_boundary]
  ticks b := by rw [hcharged.ticks, h.ticks, hcharged.charges, totalOf_append, Nat.add_comm]
  ordered := by
    rw [hboundaries]
    exact List.pairwise_cons.mpr ⟨fun boundary hb => (h.past boundary hb).trans ht, h.ordered⟩
  past boundary hb := by
    rw [hnow]
    rw [hboundaries] at hb
    rcases List.mem_cons.mp hb with rfl | hb
    · exact le_refl t
    · exact (h.past boundary hb).trans ht
  newest boundary hb := by
    rw [hboundaries] at hb
    cases hb
    rfl
  last hne := ⟨_, by rw [hboundaries]; rfl, (hlast hne).symm⟩

/-- An operation that is no measured boundary. -/
theorem Timed.unmeasured (h : s.Timed overhead) (ht : s.now ≤ s'.now)
    (hstray : s'.globals.stray = s.globals.stray)
    (hcharges : s'.globals.charges = s.globals.charges)
    (hticks : s'.globals.profile.ticks = s.globals.profile.ticks)
    (hlast : s'.globals.last = s.globals.last) (hboundaries : s'.boundaries = s.boundaries)
    (hregions : innermost s'.regions = innermost s.regions) : s'.Timed overhead where
  stray := hstray.trans h.stray
  charges := by rw [hcharges, hboundaries, h.charges]
  ticks b := by rw [hticks, hcharges, h.ticks]
  ordered := by rw [hboundaries]; exact h.ordered
  past boundary hb := by
    rw [hboundaries] at hb
    exact (h.past boundary hb).trans ht
  newest boundary hb := by
    rw [hboundaries] at hb
    rw [hregions]
    exact h.newest boundary hb
  last hne := by
    rw [hboundaries, hlast]
    exact h.last (by rwa [hregions] at hne)

/-- An interval more. -/
theorem Timed.tiles {start : Nat} {since : List Charge} {b : NdsEmuBucket} (h : s.Timed overhead)
    (hi : innermost s.regions = some b) (ht : s.now ≤ t)
    (htiles : Tiles start s.globals.last since) :
    Tiles start t (intervalOf t (s.globals.last, innermost s.regions) ++ since) := by
  obtain ⟨boundary, hboundary, hlast⟩ := h.last (by rw [hi]; exact Option.some_ne_none b)
  have hpast := (h.past boundary (List.mem_of_mem_head? hboundary)).trans ht
  rw [hi]
  exact ⟨rfl, by rw [← hlast]; exact hpast, htiles⟩

/-- With the time up to `t` charged, the charges of a measured round tile it up to there. -/
theorem Sound.tilesTo {r : Region} (h : s.Sound overhead) (hr : r ∈ s.regions) (ht : s.now ≤ t)
    (hcharged : s.globals.Charged overhead t (innermost s.regions) s'.globals)
    (hmeasured : r.measured = true) (hround : r.isRound = true) :
    ∃ since older, s'.globals.charges = since ++ older ∧ older.length = r.mark ∧
      Tiles r.start t since := by
  obtain ⟨since, older, hcharges, hlength, htiles⟩ := h.partitioned r hr hmeasured hround
  obtain ⟨b, hb⟩ := Option.ne_none_iff_exists'.mp (innermost_ne_none hr hmeasured)
  refine ⟨intervalOf t (s.globals.last, innermost s.regions) ++ since, older, ?_, hlength, ?_⟩
  · rw [hcharged.charges, hcharges, ← List.append_assoc]
  · exact h.timed.tiles hb ht htiles

/-- A measured boundary keeps the invariant where the regions behind it agree. -/
theorem Sound.atBoundary (h : s.Sound overhead) (ht : s.now ≤ t)
    (hcharged : s.globals.Charged overhead t (innermost s.regions) s'.globals)
    (hboundaries : s'.boundaries = (t, innermost s'.regions) :: s.boundaries) (hnow : s'.now = t)
    (hlast : innermost s'.regions ≠ none → s'.globals.last = t) (hstacked : s'.Stacked)
    (hrounds : ∀ r ∈ s'.regions, r.measured = true → r.isRound = true → r ∈ s.regions ∨
      (innermost s.regions = none ∧ r.start = t ∧ r.mark = s.globals.charges.length)) :
    s'.Sound overhead where
  stacked := hstacked
  timed := h.timed.atBoundary ht hcharged hboundaries hnow hlast
  partitioned := by
    intro r hr hmeasured hround
    have hlast := hlast (innermost_ne_none hr hmeasured)
    rcases hrounds r hr hmeasured hround with hold | ⟨hnone, hstart, hmark⟩
    · rw [hlast]
      exact h.tilesTo hold ht hcharged hmeasured hround
    · refine ⟨[], s.globals.charges, ?_, hmark.symm, ?_⟩
      · rw [hcharged.charges, hnone]
        rfl
      · rw [hlast, hstart]
        rfl

/-- So does an operation that is none. -/
theorem Sound.unmeasured (h : s.Sound overhead) (ht : s.now ≤ s'.now)
    (hstray : s'.globals.stray = s.globals.stray)
    (hcharges : s'.globals.charges = s.globals.charges)
    (hticks : s'.globals.profile.ticks = s.globals.profile.ticks)
    (hlast : s'.globals.last = s.globals.last) (hboundaries : s'.boundaries = s.boundaries)
    (hregions : innermost s'.regions = innermost s.regions) (hstacked : s'.Stacked)
    (hrounds : ∀ r ∈ s'.regions, r.measured = true → r ∈ s.regions) : s'.Sound overhead where
  stacked := hstacked
  timed := h.timed.unmeasured ht hstray hcharges hticks hlast hboundaries hregions
  partitioned r hr hmeasured hround := by
    rw [hcharges, hlast]
    exact h.partitioned r (hrounds r hr hmeasured) hmeasured hround

/-- A region that is not measured opens; `g` differs from the globals in counters only. -/
theorem Sound.openUnmeasured {r : Region} {g : EmuGlobals} (h : s.Sound overhead) (ht : s.now ≤ t)
    (hmeasured : r.measured = false) (hfits : r.Fits s.regions) (hcur : g.cur = s.globals.cur)
    (hsampling : g.sampling = s.globals.sampling) (hstray : g.stray = s.globals.stray)
    (hcharges : g.charges = s.globals.charges)
    (hticks : g.profile.ticks = s.globals.profile.ticks) (hlast : g.last = s.globals.last) :
    Sound overhead
      { globals := g, now := t, regions := r :: s.regions, boundaries := s.boundaries } := by
  have hinner : innermost (r :: s.regions) = innermost s.regions := by
    rw [innermost_cons, hmeasured, if_neg Bool.false_ne_true]
  have hopen : sampledRoundOpen (r :: s.regions) = sampledRoundOpen s.regions := by
    rw [sampledRoundOpen_cons, hmeasured, Bool.false_and, Bool.false_or]
  refine h.unmeasured ht hstray hcharges hticks hlast rfl hinner
    ⟨?_, ?_, hfits, h.stacked.nested⟩ ?_
  · exact hcur.trans (h.stacked.cur.trans (by rw [hinner]))
  · exact hsampling.trans (h.stacked.sampling.trans hopen.symm)
  · intro q hq hm
    rcases List.mem_cons.mp hq with rfl | hq
    · rw [hmeasured] at hm
      cases hm
    · exact hq

/-- And one closes. -/
theorem Sound.closeUnmeasured {r : Region} {below : List Region} (h : s.Sound overhead)
    (hregions : s.regions = r :: below) (hmeasured : r.measured = false) (ht : s.now ≤ t) :
    Sound overhead
        { globals := s.globals, now := t, regions := below, boundaries := s.boundaries } ∧
      s.globals.cur = r.curBefore := by
  have hnested := h.stacked.nested
  rw [hregions] at hnested
  have hinner : innermost below = innermost s.regions := by
    rw [hregions, innermost_cons, hmeasured, if_neg Bool.false_ne_true]
  have hopen : sampledRoundOpen below = sampledRoundOpen s.regions := by
    rw [hregions, sampledRoundOpen_cons, hmeasured, Bool.false_and, Bool.false_or]
  have hcur : s.globals.cur = codeOf (innermost below) := by rw [hinner, h.stacked.cur]
  refine ⟨h.unmeasured ht rfl rfl rfl rfl rfl hinner ⟨hcur, ?_, hnested.2⟩ fun q hq _ => ?_, ?_⟩
  · exact h.stacked.sampling.trans hopen.symm
  · rw [hregions]
    exact List.mem_cons_of_mem _ hq
  · exact hcur.trans hnested.1.1.symm

/-! ## Steps -/

theorem Sound.openScope (h : s.Sound overhead) (ht : s.now ≤ t) (bucket : NdsEmuBucket)
    (wanted : Bool) : (s.next modulus overhead (.openScope bucket wanted t)).Sound overhead := by
  obtain ⟨hcur, hsampling, hnested⟩ := h.stacked
  cases hmeasured : wanted && (bucket.isExact || sampledRoundOpen s.regions) with
  | true =>
      obtain ⟨rfl, htimed⟩ := (Bool.and_eq_true _ _).mp hmeasured
      rw [Bool.or_eq_true, ← hsampling] at htimed
      obtain ⟨hcharged, hcur', hlast', hsampling', hprev⟩ :=
        EmuGlobals.ndsEmuEnter_charged overhead t hcur htimed
      refine h.atBoundary ht hcharged ?_ rfl (fun _ => hlast') ⟨?_, ?_, ?_, hnested⟩ ?_
      · simp only [next, hmeasured, EmuRun.boundary, if_true]
      · simp only [next, hmeasured, innermost_cons, if_true]
        exact hcur'
      · simp only [next, sampledRoundOpen_cons, Region.isRound, Bool.and_false, Bool.false_or]
        exact hsampling'.trans hsampling
      · exact ⟨hcur, by simp only [hmeasured, if_true]; exact hprev.trans hcur⟩
      · intro r hr _ hround
        rcases List.mem_cons.mp hr with rfl | hr
        · cases hround
        · exact .inl hr
  | false =>
      have hskipped : (if wanted then s.globals.ndsEmuEnter overhead bucket t
          else (s.globals, .inactive)) = (s.globals, .inactive) := by
        cases wanted with
        | false => rfl
        | true =>
            rw [Bool.true_and, Bool.or_eq_false_iff, ← hsampling] at hmeasured
            exact EmuGlobals.ndsEmuEnter_skipped hmeasured.1 hmeasured.2
      simp only [next, hskipped, hmeasured, EmuRun.boundary, Bool.false_eq_true, if_false]
      exact h.openUnmeasured ht rfl ⟨hcur, rfl⟩ rfl rfl rfl rfl rfl rfl

theorem Sound.openRound (h : s.Sound overhead) (ht : s.now ≤ t) :
    (s.next modulus overhead (.openRound t)).Sound overhead := by
  obtain ⟨hcur, hsampling, hnested⟩ := h.stacked
  cases hmeasured : s.globals.selects modulus && (innermost s.regions).isNone with
  | true =>
      obtain ⟨hselects, hisNone⟩ := (Bool.and_eq_true _ _).mp hmeasured
      have hnone : innermost s.regions = none := Option.isNone_iff_eq_none.mp hisNone
      obtain ⟨hcharged, hcur', hlast', hsampling', hheld⟩ :=
        EmuGlobals.openRound_sampled overhead t hselects
          (hcur.trans (codeOf_eq_none_iff.mpr hnone))
      rw [← hnone] at hcharged
      refine h.atBoundary ht hcharged ?_ rfl (fun _ => hlast') ⟨?_, ?_, ?_, hnested⟩ ?_
      · simp only [next, hmeasured, EmuRun.boundary, if_true]
      · simp only [next, hmeasured, innermost_cons, if_true]
        exact hcur'
      · simp only [next, hmeasured, sampledRoundOpen_cons, Region.isRound, Bool.and_true,
          Bool.true_or]
        exact hsampling'
      · exact ⟨hcur, hheld.trans hmeasured.symm, fun _ => hnone⟩
      · intro r hr _ _
        rcases List.mem_cons.mp hr with rfl | hr
        · exact .inr ⟨hnone, rfl, rfl⟩
        · exact .inl hr
  | false =>
      have hdeclined : s.globals.openRound modulus t =
          (s.globals.countRound modulus, false) := by
        apply EmuGlobals.openRound_declined
        rcases Bool.and_eq_false_iff.mp hmeasured with hselects | hsome
        · exact .inl hselects
        · refine .inr fun hnone => ?_
          rw [codeOf_eq_none_iff.mp (hcur.symm.trans hnone)] at hsome
          cases hsome
      simp only [next, hdeclined, hmeasured, EmuRun.boundary, Bool.false_eq_true, if_false]
      exact h.openUnmeasured ht rfl ⟨hcur, rfl, fun hm => by cases hm⟩ rfl rfl rfl rfl rfl rfl

theorem Sound.closeScope {r : Region} {below : List Region} (h : s.Sound overhead)
    (hregions : s.regions = r :: below) (hscope : r.isRound = false) (ht : s.now ≤ t) :
    (s.next modulus overhead (.closeScope t)).Sound overhead ∧
      (s.next modulus overhead (.closeScope t)).globals.cur = r.curBefore := by
  obtain ⟨hcur, hsampling, hnested⟩ := h.stacked
  obtain ⟨bucket, held, measured, curBefore, start, mark⟩ := r
  cases held with
  | round sampling => cases hscope
  | scope prev =>
      rw [hregions] at hnested
      obtain ⟨⟨hbefore, hprev⟩, hnested⟩ := hnested
      have hopen : sampledRoundOpen s.regions = sampledRoundOpen below := by
        rw [hregions, sampledRoundOpen_cons, hscope, Bool.and_false, Bool.false_or]
      cases measured with
      | true =>
          have hinner : innermost s.regions = some bucket := by
            rw [hregions, innermost_cons, if_pos rfl]
          have hprev : prev = codeOf (innermost below) := hprev
          have hactive : prev ≠ .inactive := by rw [hprev]; exact codeOf_ne_inactive _
          obtain ⟨hcharged, hcur', hlast', hsampling'⟩ :=
            EmuGlobals.ndsEmuExit_charged overhead t
              (hcur.trans (by rw [hinner]; rfl)) hactive
          rw [← hinner] at hcharged
          refine ⟨h.atBoundary ht ?_ ?_ ?_ ?_ ⟨?_, ?_, ?_⟩ ?_, ?_⟩
          all_goals simp only [next, hregions]
          · exact hregions ▸ hcharged
          · rfl
          · exact fun _ => hlast'
          · exact hcur'.trans hprev
          · exact hsampling'.trans (hsampling.trans hopen)
          · exact hnested
          · exact fun r hr _ _ => .inl (List.mem_cons_of_mem _ hr)
          · exact hcur'.trans (hprev.trans hbefore.symm)
      | false =>
          have hprev : prev = .inactive := hprev
          have hexit : s.globals.ndsEmuExit overhead prev t = s.globals := by
            rw [EmuGlobals.ndsEmuExit, if_pos hprev]
          have hclosed := h.closeUnmeasured hregions rfl ht
          simpa only [next, hregions, hexit, EmuRun.boundary, Bool.false_eq_true, if_false]
            using hclosed

theorem Sound.closeRound {r : Region} {below : List Region} (h : s.Sound overhead)
    (hregions : s.regions = r :: below) (hround : r.isRound = true) (ht : s.now ≤ t) :
    (s.next modulus overhead (.closeRound t)).Sound overhead ∧
      (s.next modulus overhead (.closeRound t)).globals.cur = r.curBefore ∧
      (r.measured = true → ∃ since older,
        (s.next modulus overhead (.closeRound t)).globals.charges = since ++ older ∧
          older.length = r.mark ∧ Tiles r.start t since) := by
  obtain ⟨hcur, hsampling, hnested⟩ := h.stacked
  obtain ⟨bucket, held, measured, curBefore, start, mark⟩ := r
  cases held with
  | scope prev => cases hround
  | round sampling =>
      rw [hregions] at hnested
      obtain ⟨⟨hbefore, hheld, houter⟩, hnested⟩ := hnested
      cases measured with
      | true =>
          have hinner : innermost s.regions = some bucket := by
            rw [hregions, innermost_cons, if_pos rfl]
          have hnone : innermost below = none := houter rfl
          have hsampled : sampling = true := hheld
          subst hsampled
          obtain ⟨hcharged, hcur', hsampling'⟩ :=
            EmuGlobals.closeRound_charged overhead t
              (hcur.trans (by rw [hinner]; rfl))
          rw [← hinner] at hcharged
          have hnext : (s.next modulus overhead (.closeRound t)).globals =
              s.globals.closeRound overhead true t := by simp only [next, hregions]
          have hrestored : s.globals.closeRound overhead true t =
              (s.next modulus overhead (.closeRound t)).globals := hnext.symm
          rw [hrestored] at hcharged hcur' hsampling'
          have hbelow : (s.next modulus overhead (.closeRound t)).regions = below := by
            simp only [next, hregions]
          refine ⟨h.atBoundary ht hcharged ?_ ?_ ?_ ⟨?_, ?_, ?_⟩ ?_, ?_, fun hm => ?_⟩
          · simp only [next, hregions, EmuRun.boundary, if_true]
          · simp only [next, hregions]
          · rw [hbelow]
            exact fun hne => absurd hnone hne
          · rw [hbelow, hnone]
            exact hcur'
          · rw [hbelow, sampledRoundOpen_of_innermost hnone]
            exact hsampling'
          · rw [hbelow]
            exact hnested
          · rw [hbelow, hregions]
            exact fun r hr _ _ => .inl (List.mem_cons_of_mem _ hr)
          · rw [hcur', hbefore, hnone]
            rfl
          · exact h.tilesTo (hregions ▸ List.mem_cons_self) ht hcharged hm hround
      | false =>
          have hclose : s.globals.closeRound overhead sampling t = s.globals := by
            rw [EmuGlobals.closeRound, if_pos hheld]
          obtain ⟨hsound, hrestored⟩ := h.closeUnmeasured hregions rfl ht
          have hnext : s.next modulus overhead (.closeRound t) =
              { globals := s.globals, now := t, regions := below, boundaries := s.boundaries } := by
            simp only [next, hregions, hclose, EmuRun.boundary, Bool.false_eq_true, if_false]
          rw [hnext]
          exact ⟨hsound, hrestored, fun hm => by cases hm⟩

theorem Sound.reset (h : s.Sound overhead) (hnone : innermost s.regions = none) :
    (s.next modulus overhead .reset).Sound overhead where
  stacked :=
    { cur := (codeOf_eq_none_iff.mpr hnone).symm
      sampling := (sampledRoundOpen_of_innermost hnone).symm
      nested := h.stacked.nested }
  timed :=
    { stray := h.timed.stray
      charges := rfl
      ticks := fun _ => rfl
      ordered := .nil
      past := fun _ hb => by cases hb
      newest := fun _ hb => by cases hb
      last := fun hne => absurd hnone hne }
  partitioned := fun _ hr hmeasured _ => absurd hnone (innermost_ne_none hr hmeasured)

/-- Every operation keeps the invariant. -/
theorem Sound.step (h : s.Sound overhead) {op : EmuOp} (hop : s.admits op) :
    (s.next modulus overhead op).Sound overhead := by
  cases op with
  | openScope bucket wanted t => exact h.openScope hop bucket wanted
  | closeScope t =>
      obtain ⟨ht, r, hr, hscope⟩ := hop
      exact (h.closeScope (List.eq_cons_of_mem_head? hr) hscope ht).1
  | openRound t => exact h.openRound hop
  | closeRound t =>
      obtain ⟨ht, r, hr, hround⟩ := hop
      exact (h.closeRound (List.eq_cons_of_mem_head? hr) hround ht).1
  | reset => exact h.reset hop

theorem sound_initial : Sound overhead {} where
  stacked := { cur := rfl, sampling := rfl, nested := trivial }
  timed :=
    { stray := rfl
      charges := rfl
      ticks := fun _ => rfl
      ordered := .nil
      past := fun _ hb => by cases hb
      newest := fun _ hb => by cases hb
      last := fun hne => absurd rfl hne }
  partitioned := fun _ hr => by cases hr

theorem system_invariant (modulus : UInt64) (overhead : Nat) :
    (system modulus overhead).Invariant (Sound overhead) where
  start s hs := by
    rw [show s = {} from hs]
    exact sound_initial
  step _ _ h hop := h.step hop

/-- No total has passed the newest reading, so that none has wrapped where readings do not. -/
theorem Timed.ticks_le (h : s.Timed overhead) (b : NdsEmuBucket) :
    s.globals.profile.ticks b ≤ s.now := by
  rw [h.ticks, h.charges]
  have hordered := h.ordered
  have hpast := h.past
  cases hb : s.boundaries with
  | nil => exact Nat.zero_le _
  | cons newest older =>
      rw [hb] at hordered hpast
      exact (totalOf_intervals_le hordered b).trans (hpast newest List.mem_cons_self)

/-- Closing the innermost region, whichever kind it is. -/
theorem Sound.closing {r : Region} {below : List Region} (h : s.Sound overhead)
    (hregions : s.regions = r :: below) (ht : s.now ≤ t) :
    (s.next modulus overhead (closing r t)).globals.cur = r.curBefore ∧
      (r.held = .round true → ∃ since older,
        (s.next modulus overhead (EmuRun.closing r t)).globals.charges = since ++ older ∧
          older.length = r.mark ∧ Tiles r.start t since) := by
  unfold EmuRun.closing
  cases hround : r.isRound with
  | false =>
      refine ⟨(h.closeScope hregions hround ht).2, fun hheld => ?_⟩
      rw [Region.isRound, hheld] at hround
      cases hround
  | true =>
      have hclosed : (s.next modulus overhead (.closeRound t)).Sound overhead ∧ _ :=
        h.closeRound hregions hround ht
      obtain ⟨-, hcur, htiles⟩ := hclosed
      refine ⟨hcur, fun hheld => htiles ?_⟩
      have hfits := h.stacked.nested
      rw [hregions] at hfits
      have hkept := hfits.1.2
      rw [hheld] at hkept
      exact hkept.1.symm

/-- Host time is attributed exclusively. Every accrual has a bucket; what has been charged are
the intervals between the measured boundaries, each once and to the region that was innermost in
it; a closing region restores the bucket it found, and a sampled round that closes has charged
all of its time. -/
theorem attribution_exclusive (modulus : UInt64) (overhead : Nat) {s : EmuRun}
    (h : (system modulus overhead).Reachable s) :
    s.globals.stray = false ∧ s.globals.charges = intervals s.boundaries ∧
      (∀ b, s.globals.profile.ticks b = totalOf overhead b (intervals s.boundaries) ∧
        s.globals.profile.ticks b ≤ s.now) ∧
      (intervals s.boundaries).Pairwise (fun newer older => older.stop ≤ newer.start) ∧
      ∀ r below t, s.regions = r :: below → s.now ≤ t →
        (s.next modulus overhead (closing r t)).globals.cur = r.curBefore ∧
          (r.held = .round true → ∃ since older,
            (s.next modulus overhead (closing r t)).globals.charges = since ++ older ∧
              older.length = r.mark ∧ Tiles r.start t since) := by
  have hsound := h.invariant (system_invariant modulus overhead)
  have htimed := hsound.timed
  refine ⟨htimed.stray, htimed.charges, fun b => ⟨?_, htimed.ticks_le b⟩,
    intervals_disjoint htimed.ordered, fun r below t hregions ht => hsound.closing hregions ht⟩
  rw [htimed.ticks, htimed.charges]

instance decidableAdmits (s : EmuRun) : (op : EmuOp) → Decidable (s.admits op)
  | .openScope _ _ t => inferInstanceAs (Decidable (s.now ≤ t))
  | .closeScope t => inferInstanceAs (Decidable (s.now ≤ t ∧ ∃ r ∈ s.regions.head?, _))
  | .openRound t => inferInstanceAs (Decidable (s.now ≤ t))
  | .closeRound t => inferInstanceAs (Decidable (s.now ≤ t ∧ ∃ r ∈ s.regions.head?, _))
  | .reset => inferInstanceAs (Decidable (innermost s.regions = none))

instance (modulus : UInt64) (overhead : Nat) (s : EmuRun) (op : EmuOp) :
    Decidable ((system modulus overhead).admits s op) := inferInstanceAs (Decidable (s.admits op))

/-- A sampled round in which the first processor runs and the geometry engine within it. -/
def sampledRound : List EmuOp :=
  [.openRound 10, .openScope .execArm9 true 15, .openScope .geom true 20, .closeScope 30,
    .closeScope 40]

theorem sampledRound_exclusive :
    let s := (system 1 2).runFrom {} sampledRound
    s.globals.charges = intervals s.boundaries ∧ s.globals.charges.length = 4 ∧
      s.globals.profile.ticks .execArm9 = 11 := by
  have hreachable : (system 1 2).Reachable ((system 1 2).runFrom {} sampledRound) := by
    exact OpSystem.Reachable.runFrom (.start rfl) (by decide)
  exact ⟨(attribution_exclusive 1 2 hreachable).2.1, by decide, by decide⟩

end EmuRun

end NdsRecomp.Host
