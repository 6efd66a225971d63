import NdsRecomp.Library.OpSystem
import NdsRecomp.Dispatch.Selection

/-!
The banks of one CPU and the merged index kept beside them. Registration
appends a bank and merges its rows; unregistration removes the bank and every
index pointer into its table. The invariant carried over a run reads the index
one key at a time: the run of a key is the concatenation of the rows the live
banks hold under it, in registration order.
-/

namespace NdsRecomp.Dispatch

open Library

/-- A table the recompiler emitted: its entries are strictly sorted. -/
structure DispatchTable extends NdsDispatchBankView where
  sorted : StrictlySorted entries

/-- The bank chain and the index of one `CpuCtx`. -/
structure DispatchBanks where
  banks : List NdsDispatchBankView := []
  dispatchIndex : List DispatchRow := []

/-- The table part of `nds_register_dispatch`. -/
def DispatchBanks.register (ctx : DispatchBanks) (bank : NdsDispatchBankView) :
    DispatchBanks where
  banks := ctx.banks ++ [bank]
  dispatchIndex := ndsDispatchIndexAdd ctx.dispatchIndex bank

/-- `&table[0]`, ..., `&table[len - 1]` contains the pointer. -/
def pointsInto (table : TableId) (len : Nat) (row : DispatchRow) : Bool :=
  row.table == table && decide (row.row < len)

/-- The table part of `nds_unregister_dispatch`. -/
def DispatchBanks.unregister (ctx : DispatchBanks) (table : TableId) (len : Nat) :
    DispatchBanks where
  banks := ctx.banks.filter fun bank => !(bank.table == table && bank.len == len)
  dispatchIndex := ctx.dispatchIndex.filter fun row => !pointsInto table len row

inductive RegistryOp where
  | register (table : DispatchTable)
  | unregister (table : TableId) (len : Nat)

def DispatchBanks.apply (ctx : DispatchBanks) : RegistryOp → DispatchBanks
  | .register table => ctx.register table.toNdsDispatchBankView
  | .unregister table len => ctx.unregister table len

/-- Unregistration names a table by its address and its length. Registering is
always admitted, a second time too: nothing below needs a table to be
registered once. -/
def DispatchBanks.Admits (ctx : DispatchBanks) : RegistryOp → Prop
  | .register _ => True
  | .unregister table len => ∀ bank ∈ ctx.banks, bank.table = table → bank.len = len

def registrySystem : OpSystem DispatchBanks RegistryOp where
  initial := fun ctx => ctx = {}
  admits := DispatchBanks.Admits
  next := DispatchBanks.apply

/-- The index against the chain, one key at a time. -/
structure DispatchBanks.Indexed (ctx : DispatchBanks) : Prop where
  tables : ∀ bank ∈ ctx.banks, StrictlySorted bank.entries
  sorted : KeySorted keyNat ctx.dispatchIndex
  runs : ∀ k, runAt keyNat k ctx.dispatchIndex =
    runAt keyNat k (ctx.banks.flatMap NdsDispatchBankView.rows)

theorem indexed_empty : DispatchBanks.Indexed {} where
  tables := by simp
  sorted := List.Pairwise.nil
  runs := fun _ => rfl

theorem DispatchBanks.Indexed.register {ctx : DispatchBanks} (h : ctx.Indexed)
    (table : DispatchTable) : (ctx.register table.toNdsDispatchBankView).Indexed where
  tables := by
    intro bank hbank
    rcases List.mem_append.mp hbank with hold | hnew
    · exact h.tables bank hold
    · rw [List.mem_singleton.mp hnew]
      exact table.sorted
  sorted := by
    unfold DispatchBanks.register
    rw [ndsDispatchIndexAdd_eq_mergeByKey]
    exact mergeByKey_sorted h.sorted (rows_keySorted table.sorted)
  runs := by
    intro k
    unfold DispatchBanks.register
    rw [ndsDispatchIndexAdd_eq_mergeByKey,
      runAt_mergeByKey h.sorted (rows_keySorted table.sorted), h.runs, ← runAt_append]
    simp

private theorem rows_filter_pointsInto (bank : NdsDispatchBankView) (table : TableId)
    (len : Nat) (hlen : bank.table = table → bank.len = len) :
    bank.rows.filter (fun row => !pointsInto table len row) =
      if bank.table = table then [] else bank.rows := by
  by_cases htable : bank.table = table
  · rw [if_pos htable]
    apply List.filter_eq_nil_iff.mpr
    intro row hrow
    obtain ⟨i, hi, rfl⟩ := List.mem_mapIdx.mp hrow
    have hbound : i < len := by
      rw [← hlen htable]
      exact hi
    simp [pointsInto, htable, hbound]
  · rw [if_neg htable]
    apply List.filter_eq_self.mpr
    intro row hrow
    obtain ⟨i, _, rfl⟩ := List.mem_mapIdx.mp hrow
    simp [pointsInto, htable]

/-- Erasing the pointers into a table from the concatenated rows leaves the
rows of the banks that remain. -/
private theorem flatMap_rows_filter (banks : List NdsDispatchBankView) (table : TableId)
    (len : Nat) (hlen : ∀ bank ∈ banks, bank.table = table → bank.len = len) :
    (banks.flatMap NdsDispatchBankView.rows).filter (fun row => !pointsInto table len row) =
      (banks.filter fun bank => !(bank.table == table && bank.len == len)).flatMap
        NdsDispatchBankView.rows := by
  induction banks with
  | nil => rfl
  | cons bank banks ih =>
      have hrest := ih fun other hother => hlen other (List.mem_cons_of_mem _ hother)
      have hbank := hlen bank (by simp)
      rw [List.flatMap_cons, List.filter_append, rows_filter_pointsInto bank table len hbank,
        hrest]
      by_cases htable : bank.table = table
      · simp [htable, hbank htable]
      · simp [htable]

theorem DispatchBanks.Indexed.unregister {ctx : DispatchBanks} (h : ctx.Indexed)
    (table : TableId) (len : Nat)
    (hlen : ∀ bank ∈ ctx.banks, bank.table = table → bank.len = len) :
    (ctx.unregister table len).Indexed where
  tables := by
    intro bank hbank
    exact h.tables bank (List.mem_of_mem_filter hbank)
  sorted := h.sorted.filter _
  runs := by
    intro k
    unfold DispatchBanks.unregister
    rw [runAt_filter, h.runs, ← runAt_filter, flatMap_rows_filter ctx.banks table len hlen]

theorem indexed_invariant : registrySystem.Invariant DispatchBanks.Indexed where
  start := by
    rintro ctx rfl
    exact indexed_empty
  step := by
    intro ctx op h hadmits
    cases op with
    | register table => exact h.register table
    | unregister table len => exact h.unregister table len hadmits

/-- Where the index matches the chain, the two lookups agree on everything
they report. -/
theorem DispatchBanks.Indexed.lookups_agree {ctx : DispatchBanks} (h : ctx.Indexed)
    (pc : UInt32) (thumb : Bool) (live : NdsDispatchValidationFn) :
    ndsDispatchLookupIndex ctx.dispatchIndex pc thumb (some live) =
      ndsDispatchLookupChain ctx.banks pc thumb (some live) := by
  have hcandidates : runAt keyNat (dispatchKey pc thumb).toNat
      (ctx.banks.flatMap NdsDispatchBankView.rows) =
        ctx.banks.flatMap (bankCandidates pc thumb) := by
    simp only [runAt, List.filter_flatMap]
    rfl
  rw [lookupIndex_eq_scan h.sorted, lookupChain_eq_scan ctx.banks h.tables, h.runs,
    hcandidates, oneRejects_some_eq_indexRejects]

/-- After any sequence of registrations and unregistrations the index lookup
returns the selected row, the inactive row and the candidate count of the chain
lookup, for every key and every validation predicate. -/
theorem index_lookup_eq_chain_lookup (ctx : DispatchBanks)
    (hreachable : registrySystem.Reachable ctx) (pc : UInt32) (thumb : Bool)
    (live : NdsDispatchValidationFn) :
    ndsDispatchLookupIndex ctx.dispatchIndex pc thumb (some live) =
      ndsDispatchLookupChain ctx.banks pc thumb (some live) :=
  (hreachable.invariant indexed_invariant).lookups_agree pc thumb live

section Witness

private def romTable : DispatchTable where
  table := 1
  entries := [⟨0x02000000, 0, 10, none⟩, ⟨0x02000000, 1, 11, none⟩]
  sorted := by simp [StrictlySorted]

private def overlayTable : DispatchTable where
  table := 2
  entries := [⟨0x02000000, 0, 20, none⟩]
  sorted := by simp [StrictlySorted]

private def overlayRemoved : DispatchBanks :=
  registrySystem.runFrom {} [.register romTable, .register overlayTable, .unregister 1 2]

private theorem overlayRemoved_reachable : registrySystem.Reachable overlayRemoved := by
  refine OpSystem.Reachable.runFrom (.start rfl) ⟨trivial, trivial, ?_, trivial⟩
  intro bank hbank htable
  simp [registrySystem, DispatchBanks.apply, DispatchBanks.register] at hbank
  rcases hbank with rfl | rfl
  · rfl
  · cases htable

/-- Two tables share an address and the older one is withdrawn. -/
theorem lookups_agree_after_withdrawal :
    ndsDispatchLookupIndex overlayRemoved.dispatchIndex 0x02000000 false
        (some fun _ _ _ => false) =
      ndsDispatchLookupChain overlayRemoved.banks 0x02000000 false
        (some fun _ _ _ => false) :=
  index_lookup_eq_chain_lookup overlayRemoved overlayRemoved_reachable 0x02000000 false
    fun _ _ _ => false

end Witness

end NdsRecomp.Dispatch
