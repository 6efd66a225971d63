import NdsRecomp.Bus.Backing
import NdsRecomp.Library.OpSystem
import NdsRecomp.Dispatch.Lookup

/-!
Live banks: the tests a loaded bank has to pass, the identity check of a row
against guest memory, and the decision which of the banks of one generation
stay registered. Table and range pointers are compared by content.
-/

namespace NdsRecomp.LiveOverlay

open Bus Dispatch Library

/-! ### Preflight -/

/-- The part of `NdsLiveBankInfo` that preflight reads. A null string or table
is `none`. -/
structure NdsLiveBankInfo where
  flags : UInt32
  staticCpu : UInt32
  cpu : NdsCpu
  bankId : Option String
  candidateId : Option String
  dispatch : Option (List NdsDispatchEntry)

inductive RejectReason where
  | loadUnknownFlags
  | loadStaticCpuMismatch
  | loadMissingBankId
  | loadMissingCandidateId
  | loadNoDispatchRows
  | loadDispatchTooLarge
  | loadRowNullFn
  | loadRowNotOwned
  | loadDependencyInsane
  | loadClosureNotShared
  | loadRowsUnsorted
  | loadRowsDuplicate
  | loadContentConflict
  | dropDuplicateCandidate
  | dropDeclinedLowerTier
  | dropRedundantSubset
  | keptDivergentGeneration
  | dropSupersededGeneration
deriving DecidableEq

def flagDependencyClosure : UInt32 := 1

def cpuNumber : NdsCpu → UInt32
  | .arm9 => 0
  | .arm7 => 1

/-- `addr + size`, in 64 bits. -/
def rangeEnd (addr size : UInt32) : Nat := addr.toNat + size.toNat

def validationOwnsRow (validation : Option NdsStaticValidation) (row : NdsDispatchEntry) : Bool :=
  match validation with
  | none => false
  | some v =>
      let step := if row.thumb ≠ 0 then 2 else 4
      let firstPage := v.addr.toNat / 4096
      let lastPage := (rangeEnd v.addr v.size - 1) / 4096
      v.expected.isSome && v.size != 0 && decide (row.thumb ≤ 1) &&
        decide (row.addr.toNat % step = 0) && decide (rangeEnd v.addr v.size ≤ 2 ^ 32) &&
        decide (v.addr.toNat ≤ row.addr.toNat) &&
        decide (row.addr.toNat + step ≤ rangeEnd v.addr v.size) &&
        decide (lastPage - firstPage < 2)

/-- The loop over the dependency ranges: each has bytes, ends inside the
address space and begins at or after the end of the one before. -/
def rangesSane (previousEnd : Nat) : List NdsStaticValidationRange → Bool
  | [] => true
  | range :: ranges =>
      range.expected.isSome && range.size != 0 && decide (rangeEnd range.addr range.size ≤ 2 ^ 32) &&
        decide (previousEnd ≤ range.addr.toNat) && rangesSane (rangeEnd range.addr range.size) ranges

def ownerCovered (v : NdsStaticValidation) (ranges : List NdsStaticValidationRange) : Bool :=
  ranges.any fun range =>
    decide (range.addr.toNat ≤ v.addr.toNat) &&
      decide (rangeEnd v.addr v.size ≤ rangeEnd range.addr range.size)

def validationDependenciesSane (validation : Option NdsStaticValidation) (requireClosure : Bool) :
    Bool :=
  match validation with
  | none => false
  | some v =>
      if v.dependencyCount = 0 then !requireClosure && v.dependencies.isNone
      else
        match v.dependencies with
        | none => false
        | some ranges =>
            requireClosure && decide (v.dependencyCount ≤ 4096) && rangesSane 0 ranges &&
              ownerCovered v ranges

/-- The dependency closure a row names. -/
def closureOf (row : NdsDispatchEntry) : Option (Option (List NdsStaticValidationRange)) :=
  row.validation.map fun v => v.dependencies

def keyBefore (prev row : NdsDispatchEntry) : Bool :=
  decide (prev.addr < row.addr) || (prev.addr == row.addr && decide (prev.thumb < row.thumb))

def sameKey (prev row : NdsDispatchEntry) : Bool := prev.addr == row.addr && prev.thumb == row.thumb

/-- The tests on one row, given the first row and the one before it. -/
def preflightRow (closure : Bool) (first : NdsDispatchEntry) (prev : Option NdsDispatchEntry)
    (row : NdsDispatchEntry) : Except (RejectReason × String) Unit :=
  if row.fn = 0 then
    .error (.loadRowNullFn, "live bank dispatch row has null function")
  else if validationOwnsRow row.validation row = false then
    .error (.loadRowNotOwned, "live bank dispatch row is not owned by its validation")
  else if validationDependenciesSane row.validation closure = false then
    .error (.loadDependencyInsane,
      if closure then "live bank has an incomplete dependency closure"
      else "live bank has unflagged dependency ranges")
  else if closure = true ∧ closureOf row ≠ closureOf first then
    .error (.loadClosureNotShared, "live bank rows do not share one atomic dependency closure")
  else
    match prev with
    | none => .ok ()
    | some prev =>
        if sameKey prev row then
          .error (.loadRowsDuplicate, "live bank has duplicate dispatch rows inside one candidate")
        else if keyBefore prev row then .ok ()
        else .error (.loadRowsUnsorted, "live bank dispatch rows are not sorted")

def preflightRows (closure : Bool) (first : NdsDispatchEntry) (prev : Option NdsDispatchEntry) :
    List NdsDispatchEntry → Except (RejectReason × String) Unit
  | [] => .ok ()
  | row :: rows => do
      preflightRow closure first prev row
      preflightRows closure first (some row) rows

/-- `!id || !*id` -/
def missingText (id : Option String) : Prop := id = none ∨ id = some ""

instance (id : Option String) : Decidable (missingText id) := inferInstanceAs (Decidable (_ ∨ _))

def preflightLiveBank (info : NdsLiveBankInfo) : Except (RejectReason × String) Unit :=
  if info.flags &&& ~~~flagDependencyClosure ≠ 0 then
    .error (.loadUnknownFlags, "live bank has unknown safety flags")
  else if info.staticCpu ≠ cpuNumber info.cpu then
    .error (.loadStaticCpuMismatch,
      "live bank static CPU build identity does not match its CPU")
  else if missingText info.bankId then .error (.loadMissingBankId, "live bank missing bank_id")
  else if missingText info.candidateId then
    .error (.loadMissingCandidateId, "live bank missing candidate_id")
  else
    match info.dispatch with
    | none | some [] => .error (.loadNoDispatchRows, "live bank has no dispatch rows")
    | some (first :: rows) =>
        if (first :: rows).length > 2 ^ 20 then
          .error (.loadDispatchTooLarge, "live bank dispatch table exceeds the safety limit")
        else preflightRows (info.flags &&& flagDependencyClosure != 0) first none (first :: rows)

/-! ### Identity against guest memory -/

/-- The byte a CPU sees at an address, if it has been written. -/
abbrev GuestMemory := NdsCpu → Nat → Option UInt8

/-- Provenance and equal bytes over a range. -/
def rangeLive (mem : GuestMemory) (cpu : NdsCpu) (addr size : UInt32)
    (expected : Option (List UInt8)) : Bool :=
  match expected with
  | none => false
  | some bytes =>
      size != 0 &&
        (List.range size.toNat).all fun i => mem cpu (addr.toNat + i) == bytes[i]?

def validationIdentityLive (mem : GuestMemory) (cpu : NdsCpu)
    (validation : Option NdsStaticValidation) : Bool :=
  match validation with
  | none => true
  | some v =>
      if v.dependencyCount ≠ 0 then
        match v.dependencies with
        | none => false
        | some ranges => ranges.all fun range => rangeLive mem cpu range.addr range.size range.expected
      else rangeLive mem cpu v.addr v.size v.expected

/-! ### Loaded banks -/

structure LoadedBank where
  bankId : String
  candidateId : String
  generationId : String
  serial : Nat := 0
  generation : Nat := 0
  cpu : NdsCpu
  dispatch : Option (List NdsDispatchEntry)
  contentIdentity : UInt64
  backendTier : UInt32
  registered : Bool := false
  superseded : Bool := false

/-- The rows behind the table pointer. -/
def LoadedBank.rows (bank : LoadedBank) : List NdsDispatchEntry := bank.dispatch.getD []

/-- `register_loaded_bank` -/
def registerLoadedBank (bank : LoadedBank) : LoadedBank :=
  if bank.registered = true ∨ bank.rows = [] then bank else { bank with registered := true }

structure LiveBanks where
  loaded : List LoadedBank := []
  nextBankSerial : Nat := 1
  publicationGeneration : Nat := 0
  banksLoaded : Nat := 0
  banksRejected : Nat := 0
  rowsSuperseded : Nat := 0
  rowsSuperseding : Nat := 0
  lastError : String := ""
  rejects : List RejectReason := []

def sameCandidateKey (a b : LoadedBank) : Bool :=
  decide (a.cpu = b.cpu ∧ a.bankId = b.bankId ∧ a.candidateId = b.candidateId)

/-- The registered residents `commit_prepared_bank` compares with a newcomer. -/
def sameGeneration (resident bank : LoadedBank) : Bool :=
  resident.registered && decide (resident.cpu = bank.cpu ∧ resident.bankId = bank.bankId ∧
    resident.generationId = bank.generationId)

/-- Order of rows by address, then by `thumb != 0`. -/
def rowBefore (a b : NdsDispatchEntry) : Bool :=
  decide (a.addr < b.addr) || (a.addr == b.addr && (a.thumb == 0 && b.thumb != 0))

def sameRowKey (a b : NdsDispatchEntry) : Bool :=
  a.addr == b.addr && ((a.thumb != 0) == (b.thumb != 0))

/-- The linear merge of `dispatch_rows_cover`. -/
def rowsCover : List NdsDispatchEntry → List NdsDispatchEntry → Bool
  | _, [] => true
  | super, want :: sub =>
      match super.dropWhile fun row => rowBefore row want with
      | [] => false
      | row :: rest => sameRowKey row want && rowsCover (row :: rest) sub

def dispatchRowsCover (super sub : LoadedBank) : Bool :=
  match super.dispatch, sub.dispatch with
  | some superRows, some subRows =>
      decide (subRows.length ≤ superRows.length) && rowsCover superRows subRows
  | _, _ => false

/-- The newcomer supersedes the resident. -/
def retires (bank resident : LoadedBank) : Bool :=
  sameGeneration resident bank && dispatchRowsCover bank resident &&
    !decide (bank.backendTier < resident.backendTier)

def retire (bank resident : LoadedBank) : LoadedBank :=
  if retires bank resident then
    { resident with registered := false, superseded := true, dispatch := none }
  else resident

/-- What the second pass notes about a resident. -/
def supersedeNote (bank resident : LoadedBank) : Option RejectReason :=
  if sameGeneration resident bank = false then none
  else if retires bank resident then some .dropSupersededGeneration
  else some .keptDivergentGeneration

namespace LiveBanks

def noteReject (g : LiveBanks) (reason : RejectReason) : LiveBanks :=
  { g with rejects := g.rejects ++ [reason] }

/-- A bank with the same candidate key is there already. -/
def declineKnown (g : LiveBanks) (bank resident : LoadedBank) : LiveBanks :=
  if resident.contentIdentity ≠ bank.contentIdentity then
    { g.noteReject .loadContentConflict with
      lastError := "conflicting live bank content for candidate identity " ++ bank.bankId ++ "/" ++
        bank.candidateId
      banksRejected := g.banksRejected + 1 }
  else g.noteReject .dropDuplicateCandidate

def declineCovered (g : LiveBanks) (bank resident : LoadedBank) : LiveBanks :=
  if resident.backendTier > bank.backendTier then g.noteReject .dropDeclinedLowerTier
  else g.noteReject .dropRedundantSubset

/-- The residents `bank` supersedes go, then `bank` is registered. -/
def adopt (g : LiveBanks) (bank : LoadedBank) : LiveBanks :=
  let retired := g.loaded.filter fun resident => retires bank resident
  { g with
    loaded := g.loaded.map (retire bank) ++
      [registerLoadedBank
        { bank with serial := g.nextBankSerial, generation := g.publicationGeneration + 1 }]
    nextBankSerial := g.nextBankSerial + 1
    publicationGeneration := g.publicationGeneration + 1
    banksLoaded := g.banksLoaded + 1
    rowsSuperseded := g.rowsSuperseded + (retired.map fun r => r.rows.length).sum
    rowsSuperseding := g.rowsSuperseding + retired.length * bank.rows.length
    rejects := g.rejects ++ g.loaded.filterMap (supersedeNote bank) }

def known (g : LiveBanks) (bank : LoadedBank) : Option LoadedBank :=
  g.loaded.find? fun resident => sameCandidateKey resident bank

def coveringResident (g : LiveBanks) (bank : LoadedBank) : Option LoadedBank :=
  g.loaded.find? fun resident => sameGeneration resident bank && dispatchRowsCover resident bank

def commitPreparedBank (g : LiveBanks) (bank : LoadedBank) : LiveBanks × Bool :=
  match g.known bank with
  | some resident =>
      (g.declineKnown bank resident, resident.contentIdentity == bank.contentIdentity)
  | none =>
      match g.coveringResident bank with
      | some resident => (g.declineCovered bank resident, true)
      | none => (g.adopt bank, true)

end LiveBanks

/-- A bank as it leaves the loader: its identity and table come from an
information block that passed preflight, and it is not registered yet. -/
structure Prepared (bank : LoadedBank) : Prop where
  info : ∃ info : NdsLiveBankInfo, preflightLiveBank info = .ok () ∧ bank.cpu = info.cpu ∧
    info.bankId = some bank.bankId ∧ info.candidateId = some bank.candidateId ∧
    bank.dispatch = info.dispatch
  fresh : bank.registered = false ∧ bank.superseded = false

/-- Runs of commits. -/
def liveBankSystem : OpSystem LiveBanks LoadedBank where
  initial := fun g => g = {}
  admits := fun _ bank => Prepared bank
  next := fun g bank => (g.commitPreparedBank bank).1

end NdsRecomp.LiveOverlay
