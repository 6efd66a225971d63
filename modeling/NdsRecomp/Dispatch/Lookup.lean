import NdsRecomp.Library.PartitionPoint
import NdsRecomp.Library.KeyedMerge
import NdsRecomp.Library.FirstMax

/-!
The two candidate selections of the dispatcher, as written in the source: one
walks the registered banks and searches each table, the other walks one run of
a merged index. Table indices are natural numbers, and a `const
NdsDispatchEntry*` is the table and row it points at together with the entry
stored there, so that two pointers are equal exactly when they name one row.
-/

namespace NdsRecomp.Dispatch

open Library

/-- An exact byte range a native body was compiled from. -/
structure NdsStaticValidationRange where
  addr : UInt32
  size : UInt32
  expected : Option (List UInt8)
  expected_length : ∀ bytes, expected = some bytes → bytes.length = size.toNat
deriving DecidableEq

/-- `object` stands for the address of the record, so that a validation
predicate may tell two equal records apart. -/
structure NdsStaticValidation where
  object : Nat
  addr : UInt32
  size : UInt32
  expected : Option (List UInt8)
  dependencies : Option (List NdsStaticValidationRange)
  dependencyCount : UInt32
  expected_length : ∀ bytes, expected = some bytes → bytes.length = size.toNat
  dependencies_length : ∀ ranges, dependencies = some ranges →
    ranges.length = dependencyCount.toNat
deriving DecidableEq

/-- A compiled function body, known by its address. -/
abbrev NativeBody := Nat

structure NdsDispatchEntry where
  addr : UInt32
  thumb : UInt8
  fn : NativeBody
  validation : Option NdsStaticValidation
deriving DecidableEq

/-- The address of a dispatch table. -/
abbrev TableId := Nat

/-- A `const NdsDispatchEntry*`. -/
structure DispatchRow where
  table : TableId
  row : Nat
  entry : NdsDispatchEntry
deriving DecidableEq

/-- A table pointer with its `len` entries. A null table is one without
entries. -/
structure NdsDispatchBankView where
  table : TableId
  entries : List NdsDispatchEntry
deriving DecidableEq

def NdsDispatchBankView.len (bank : NdsDispatchBankView) : Nat :=
  bank.entries.length

/-- The addresses `&table[0]`, ..., `&table[len - 1]`. -/
def NdsDispatchBankView.rows (bank : NdsDispatchBankView) : List DispatchRow :=
  bank.entries.mapIdx fun i entry => ⟨bank.table, i, entry⟩

structure NdsDispatchLookupResult where
  selected : Option DispatchRow := none
  inactive : Option DispatchRow := none
  candidateCount : UInt32 := 0
deriving DecidableEq

/-- The predicate with its captured `user` state already applied. -/
abbrev NdsDispatchValidationFn := NdsStaticValidation → UInt32 → Bool → Bool

def ndsDispatchValidationOwnsEntry (validation : NdsStaticValidation)
    (pc : UInt32) (thumb : Bool) : Bool :=
  if validation.expected.isNone || validation.size == 0 then false
  else
    let step : Nat := if thumb then 2 else 4
    let first := validation.addr.toNat
    let last := first + validation.size.toNat
    let entryEnd := pc.toNat + step
    decide (last ≤ 0x100000000) && decide (first ≤ pc.toNat) && decide (entryEnd ≤ last)

def ndsDispatchCandidateRank (row : DispatchRow) : UInt32 :=
  match row.entry.validation with
  | some validation => validation.size
  | none => 0

def ndsDispatchRankWins (best : Option DispatchRow) (bestRank candidateRank : UInt32) :
    Bool :=
  best.isNone || decide (bestRank < candidateRank)

/-- The locals both selections update while they visit candidates. -/
structure CandidateScan where
  best : Option DispatchRow := none
  bestRank : UInt32 := 0
  inactive : Option DispatchRow := none
  candidateCount : UInt32 := 0

/-- One visited candidate; `rejects` is the test on its validation that makes
it inactive. -/
def scanCandidate (rejects : NdsStaticValidation → Bool) (scan : CandidateScan)
    (row : DispatchRow) : CandidateScan :=
  let scan := { scan with candidateCount := scan.candidateCount + 1 }
  if row.entry.validation.any rejects then
    { scan with inactive := some row }
  else
    let rank := ndsDispatchCandidateRank row
    if ndsDispatchRankWins scan.best scan.bestRank rank then
      { scan with best := some row, bestRank := rank }
    else scan

/-- `!validation_live || !validation_live(validation, pc, thumb, user)` -/
def oneRejects (validationLive : Option NdsDispatchValidationFn) (pc : UInt32)
    (thumb : Bool) (validation : NdsStaticValidation) : Bool :=
  match validationLive with
  | none => true
  | some live => !live validation pc thumb

/-- `validation_live && !validation_live(entry->validation, pc, thumb, user)` -/
def indexRejects (validationLive : Option NdsDispatchValidationFn) (pc : UInt32)
    (thumb : Bool) (validation : NdsStaticValidation) : Bool :=
  match validationLive with
  | none => false
  | some live => !live validation pc thumb

/-- The candidate loop of `nds_dispatch_lookup_one`, over the rows from the
lower bound on. -/
def lookupOneLoop (rejects : NdsStaticValidation → Bool) (pc : UInt32) (thumb : Bool) :
    List DispatchRow → CandidateScan → CandidateScan
  | [], scan => scan
  | row :: rows, scan =>
      if row.entry.addr != pc then scan
      else if (row.entry.thumb != 0) != thumb then lookupOneLoop rejects pc thumb rows scan
      else lookupOneLoop rejects pc thumb rows (scanCandidate rejects scan row)

/-- The binary search of `nds_dispatch_lookup_one`. -/
def lookupOneLowerBound (rows : List DispatchRow) (pc : UInt32) : Nat :=
  partitionPoint (fun i => (rows[i]?).any fun row => decide (row.entry.addr < pc)) rows.length

/-- `candidateCount` and `inactive` are the two counters the source passes by
address; the winner is the field `best` of the result. -/
def ndsDispatchLookupOne (bank : NdsDispatchBankView) (pc : UInt32) (thumb : Bool)
    (candidateCount : UInt32) (inactive : Option DispatchRow)
    (validationLive : Option NdsDispatchValidationFn) : CandidateScan :=
  let rows := bank.rows
  let lo := lookupOneLowerBound rows pc
  lookupOneLoop (oneRejects validationLive pc thumb) pc thumb (rows.drop lo)
    { inactive := inactive, candidateCount := candidateCount }

/-- One bank of the chain: its winner meets the winner of the banks before. -/
def chainBank (pc : UInt32) (thumb : Bool)
    (validationLive : Option NdsDispatchValidationFn)
    (result : CandidateScan) (bank : NdsDispatchBankView) : CandidateScan :=
  let one := ndsDispatchLookupOne bank pc thumb result.candidateCount result.inactive
    validationLive
  let result :=
    { result with inactive := one.inactive, candidateCount := one.candidateCount }
  match one.best with
  | none => result
  | some hit =>
      let rank := ndsDispatchCandidateRank hit
      if ndsDispatchRankWins result.best result.bestRank rank then
        { result with best := some hit, bestRank := rank }
      else result

def CandidateScan.result (scan : CandidateScan) : NdsDispatchLookupResult where
  selected := scan.best
  inactive := scan.inactive
  candidateCount := scan.candidateCount

def ndsDispatchLookupChain (banks : List NdsDispatchBankView) (pc : UInt32) (thumb : Bool)
    (validationLive : Option NdsDispatchValidationFn) : NdsDispatchLookupResult :=
  (banks.foldl (chainBank pc thumb validationLive) {}).result

/-- `(uint64_t{addr} << 1) | uint64_t{thumb}` -/
def dispatchKey (addr : UInt32) (thumb : Bool) : UInt64 :=
  (addr.toUInt64 <<< 1) ||| (if thumb then 1 else 0)

def ndsDispatchEntryKey (row : DispatchRow) : UInt64 :=
  dispatchKey row.entry.addr (row.entry.thumb != 0)

/-- Existing rows go first for an equal key. -/
def ndsDispatchIndexAdd (index : List DispatchRow) (bank : NdsDispatchBankView) :
    List DispatchRow :=
  index.merge bank.rows fun old new =>
    decide (ndsDispatchEntryKey old ≤ ndsDispatchEntryKey new)

/-- `std::lower_bound` for a key. -/
def indexLowerBound (index : List DispatchRow) (wanted : UInt64) : Nat :=
  partitionPoint (fun i => (index[i]?).any fun row => decide (ndsDispatchEntryKey row < wanted))
    index.length

def ndsDispatchLookupIndex (index : List DispatchRow) (pc : UInt32) (thumb : Bool)
    (validationLive : Option NdsDispatchValidationFn) : NdsDispatchLookupResult :=
  let wanted := dispatchKey pc thumb
  let run := (index.drop (indexLowerBound index wanted)).takeWhile
    fun row => ndsDispatchEntryKey row == wanted
  (run.foldl (scanCandidate (indexRejects validationLive pc thumb)) {}).result

/-! ### Keys -/

theorem dispatchKey_toNat (addr : UInt32) (thumb : Bool) :
    (dispatchKey addr thumb).toNat = 2 * addr.toNat + thumb.toNat := by
  have hor (b : Nat) (hb : b < 2 ^ 1) : addr.toNat * 2 ||| b = 2 * addr.toNat + b := by
    rw [Nat.mul_comm]
    exact (Nat.two_pow_add_eq_or_of_lt hb addr.toNat).symm
  have hshift : (addr.toUInt64 <<< 1).toNat = addr.toNat * 2 := by
    have haddr := addr.toNat_lt
    rw [UInt64.toNat_shiftLeft, UInt32.toNat_toUInt64]
    simp only [UInt64.reduceToNat, Nat.reduceMod, Nat.shiftLeft_eq, Nat.pow_one]
    omega
  unfold dispatchKey
  rw [UInt64.toNat_or, hshift]
  cases thumb with
  | false => exact hor 0 (by decide)
  | true => exact hor 1 (by decide)

theorem dispatchKey_inj {addr pc : UInt32} {thumb mode : Bool} :
    dispatchKey addr thumb = dispatchKey pc mode ↔ addr = pc ∧ thumb = mode := by
  constructor
  · intro h
    have hnat := congrArg UInt64.toNat h
    rw [dispatchKey_toNat, dispatchKey_toNat] at hnat
    have hthumb : thumb.toNat ≤ 1 := Bool.toNat_le thumb
    have hmode : mode.toNat ≤ 1 := Bool.toNat_le mode
    refine ⟨UInt32.toNat_inj.mp (by omega), ?_⟩
    have hbit : thumb.toNat = mode.toNat := by omega
    cases thumb <;> cases mode <;> simp_all
  · rintro ⟨rfl, rfl⟩
    rfl

/-- Keys as numbers, the order the index is sorted by. -/
def keyNat (row : DispatchRow) : Nat := (ndsDispatchEntryKey row).toNat

theorem keyNat_eq (row : DispatchRow) :
    keyNat row = 2 * row.entry.addr.toNat + (row.entry.thumb != 0).toNat :=
  dispatchKey_toNat _ _

theorem ndsDispatchIndexAdd_eq_mergeByKey (index : List DispatchRow)
    (bank : NdsDispatchBankView) :
    ndsDispatchIndexAdd index bank = mergeByKey keyNat index bank.rows := by
  unfold ndsDispatchIndexAdd mergeByKey
  congr 1

end NdsRecomp.Dispatch
