import NdsRecomp.Recompiler.EmitDispatch
import Mathlib.Data.String.Basic

/-!
What pruning leaves of the run-time selection. At a pruned key the selection
enters a preceding body exactly when a live preceding row spans at least as much
as the row that was dropped; at any other key it is unchanged unless the bank's
dependency closure shrank.
-/

namespace NdsRecomp.Recompiler

open Library Dispatch Bus LiveOverlay

/-! ### The emitted table -/

theorem dispatchKey_keyNat (row : EmitRow) :
    row.keyNat = 2 * row.addr.toNat + row.fn.thumb.toNat := dispatchKey_toNat _ _

/-- Rows compare by key, then by name. -/
theorem rowBefore_iff {a b : EmitRow} :
    rowBefore a b ↔ a.keyNat < b.keyNat ∨ (a.keyNat = b.keyNat ∧ a.fn.name < b.fn.name) := by
  have ha := Bool.toNat_le a.fn.thumb
  have hb := Bool.toNat_le b.fn.thumb
  unfold rowBefore
  rw [dispatchKey_keyNat, dispatchKey_keyNat]
  by_cases haddr : a.addr = b.addr
  · rw [if_neg (not_not_intro haddr), haddr]
    by_cases hthumb : a.fn.thumb = b.fn.thumb
    · rw [if_neg (not_not_intro hthumb), hthumb]
      simp
    · rw [if_pos hthumb]
      cases hat : a.fn.thumb <;> cases hbt : b.fn.thumb <;> simp_all
  · rw [if_pos haddr, UInt32.lt_iff_toNat_lt]
    have hne : a.addr.toNat ≠ b.addr.toNat := fun heq => haddr (UInt32.toNat_inj.mp heq)
    constructor
    · intro hlt
      exact Or.inl (by omega)
    · rintro (hlt | ⟨heq, -⟩)
      · omega
      · omega

theorem rowLe_iff {a b : EmitRow} :
    rowLe a b ↔ a.keyNat < b.keyNat ∨ (a.keyNat = b.keyNat ∧ a.fn.name ≤ b.fn.name) := by
  unfold rowLe
  rw [rowBefore_iff]
  constructor
  · intro hnot
    rcases Nat.lt_trichotomy a.keyNat b.keyNat with hlt | heq | hgt
    · exact Or.inl hlt
    · exact Or.inr ⟨heq, not_lt.mp fun hname => hnot (Or.inr ⟨heq.symm, hname⟩)⟩
    · exact absurd (Or.inl hgt) hnot
  · rintro (hlt | ⟨heq, hname⟩) (hlt' | ⟨heq', hname'⟩)
    · omega
    · omega
    · omega
    · exact absurd hname' (not_lt.mpr hname)

instance : Std.Total rowLe where
  total a b := by
    rw [rowLe_iff, rowLe_iff]
    rcases Nat.lt_trichotomy a.keyNat b.keyNat with hlt | heq | hgt
    · exact Or.inl (Or.inl hlt)
    · rcases le_total a.fn.name b.fn.name with hab | hba
      · exact Or.inl (Or.inr ⟨heq, hab⟩)
      · exact Or.inr (Or.inr ⟨heq.symm, hba⟩)
    · exact Or.inr (Or.inl hgt)

instance : IsTrans EmitRow rowLe where
  trans a b c := by
    rw [rowLe_iff, rowLe_iff, rowLe_iff]
    rintro (hab | ⟨hab, hname⟩) (hbc | ⟨hbc, hname'⟩)
    · exact Or.inl (hab.trans hbc)
    · exact Or.inl (hbc ▸ hab)
    · exact Or.inl (hab ▸ hbc)
    · exact Or.inr ⟨hab.trans hbc, hname.trans hname'⟩

def sortedRows (funcs : List EmitFunction) (keys : List UInt64) : List EmitRow :=
  (rawRows funcs keys).insertionSort rowLe

theorem sortedRows_keySorted (funcs : List EmitFunction) (keys : List UInt64) :
    KeySorted EmitRow.keyNat (sortedRows funcs keys) := by
  refine (List.pairwise_insertionSort rowLe _).imp fun hle => ?_
  rcases rowLe_iff.mp hle with hlt | ⟨heq, -⟩
  · exact Nat.le_of_lt hlt
  · exact Nat.le_of_eq heq

/-- At most one row at each key: the first of the sorted ones. -/
theorem runAt_emitRows (funcs : List EmitFunction) (keys : List UInt64) (k : Nat) :
    runAt EmitRow.keyNat k (emitRows funcs keys) =
      (runAt EmitRow.keyNat k (sortedRows funcs keys)).take 1 :=
  runAt_uniqueByKey (sortedRows_keySorted funcs keys) k

theorem entry_before (e : BankEmission) (funcs : List EmitFunction) {a b : EmitRow}
    (h : a.keyNat < b.keyNat) :
    (e.entry funcs a).addr < (e.entry funcs b).addr ∨
      ((e.entry funcs a).addr = (e.entry funcs b).addr ∧
        (e.entry funcs a).thumb < (e.entry funcs b).thumb) := by
  have ha := Bool.toNat_le a.fn.thumb
  have hb := Bool.toNat_le b.fn.thumb
  rw [dispatchKey_keyNat, dispatchKey_keyNat] at h
  unfold BankEmission.entry
  dsimp only
  rcases Nat.lt_trichotomy a.addr.toNat b.addr.toNat with hlt | heq | hgt
  · exact Or.inl (UInt32.lt_iff_toNat_lt.mpr hlt)
  · refine Or.inr ⟨UInt32.toNat_inj.mp heq, ?_⟩
    cases hat : a.fn.thumb <;> cases hbt : b.fn.thumb <;> simp_all
  · omega

/-- The emitted table, as the runtime registers it. -/
def BankEmission.emit (e : BankEmission) (funcs : List EmitFunction) (keys : List UInt64) :
    DispatchTable where
  toNdsDispatchBankView := e.view funcs keys
  sorted := by
    unfold BankEmission.view StrictlySorted
    rw [List.pairwise_map]
    exact (uniqueByKey_strict (sortedRows_keySorted funcs keys)).imp fun h => entry_before e funcs h

/-! ### The rows at a key -/

section AtKey

variable {funcs : List EmitFunction} {keys : List UInt64} {key : UInt64}

theorem mem_rawRows {row : EmitRow} :
    row ∈ rawRows funcs keys ↔
      row.fn ∈ funcs ∧ row.addr ∈ row.fn.pcs ∧ row.key ∉ keys := by
  unfold rawRows
  simp only [List.mem_flatMap, List.mem_map, List.mem_filter, Bool.not_eq_true',
    List.contains_eq_mem, decide_eq_false_iff_not]
  constructor
  · rintro ⟨fn, hfn, pc, ⟨hpc, hkey⟩, rfl⟩
    exact ⟨hfn, hpc, hkey⟩
  · rintro ⟨hfn, hpc, hkey⟩
    exact ⟨row.fn, hfn, row.addr, ⟨hpc, hkey⟩, rfl⟩

theorem mem_emitRows {row : EmitRow} (h : row ∈ emitRows funcs keys) : row ∈ rawRows funcs keys :=
  (List.mem_insertionSort rowLe).mp ((uniqueByKey_sublist _ _).subset h)

/-- A pruned key has no row. -/
theorem runAt_pruned (h : key ∈ keys) : runAt EmitRow.keyNat key.toNat (emitRows funcs keys) = [] := by
  refine List.filter_eq_nil_iff.mpr fun row hrow hkey => ?_
  have hsame : row.key = key := UInt64.toNat_inj.mp (of_decide_eq_true hkey)
  exact (mem_rawRows.mp (mem_emitRows hrow)).2.2 (hsame ▸ h)

/-- Two emissions with the same rows at a key keep the same one there. -/
theorem runAt_emitRows_congr {funcs' : List EmitFunction} {keys' : List UInt64}
    (hnames : (funcs.map EmitFunction.name).Nodup)
    (hrows : ((rawRows funcs keys).filter fun r => decide (r.keyNat = key.toNat)).Perm
      ((rawRows funcs' keys').filter fun r => decide (r.keyNat = key.toNat))) :
    runAt EmitRow.keyNat key.toNat (emitRows funcs keys) =
      runAt EmitRow.keyNat key.toNat (emitRows funcs' keys') := by
  rw [runAt_emitRows, runAt_emitRows]
  congr 1
  have hperm : (runAt EmitRow.keyNat key.toNat (sortedRows funcs keys)).Perm
      (runAt EmitRow.keyNat key.toNat (sortedRows funcs' keys')) := by
    refine ((List.perm_insertionSort rowLe _).filter _).trans (hrows.trans ?_)
    exact ((List.perm_insertionSort rowLe _).filter _).symm
  have hsorted : ∀ (fs : List EmitFunction) (ks : List UInt64),
      (runAt EmitRow.keyNat key.toNat (sortedRows fs ks)).Pairwise rowLe := fun fs ks =>
    (List.pairwise_insertionSort rowLe _).filter _
  refine hperm.eq_of_pairwise ?_ (hsorted funcs keys) (hsorted funcs' keys')
  intro a b ha hb hab hba
  have hmem : ∀ r, r ∈ runAt EmitRow.keyNat key.toNat (sortedRows funcs keys) →
      r.fn ∈ funcs ∧ r.keyNat = key.toNat := by
    intro r hr
    obtain ⟨hsort, hkey⟩ := List.mem_filter.mp hr
    exact ⟨(mem_rawRows.mp ((List.mem_insertionSort rowLe).mp hsort)).1, of_decide_eq_true hkey⟩
  obtain ⟨hafn, hakey⟩ := hmem a ha
  obtain ⟨hbfn, hbkey⟩ := hmem b (hperm.mem_iff.mpr hb)
  have hname : a.fn.name = b.fn.name := by
    rcases rowLe_iff.mp hab with hlt | ⟨-, hle⟩
    · omega
    · rcases rowLe_iff.mp hba with hlt | ⟨-, hge⟩
      · omega
      · exact le_antisymm hle hge
  have hfn : a.fn = b.fn := List.inj_on_of_nodup_map hnames hafn hbfn hname
  have haddr : a.addr = b.addr := by
    rw [dispatchKey_keyNat, ← hbkey, dispatchKey_keyNat, hfn] at hakey
    exact UInt32.toNat_inj.mp (by omega)
  cases a
  cases b
  cases hfn
  cases haddr
  rfl

end AtKey

/-! ### The selection -/

/-- The tables of one CPU, registered in this order. -/
def registerAll (tables : List DispatchTable) : DispatchBanks :=
  tables.foldl (fun ctx table => ctx.register table.toNdsDispatchBankView) {}

theorem foldl_register (tables : List DispatchTable) {ctx : DispatchBanks} (h : ctx.Indexed) :
    (tables.foldl (fun ctx table => ctx.register table.toNdsDispatchBankView) ctx).Indexed ∧
      (tables.foldl (fun ctx table => ctx.register table.toNdsDispatchBankView) ctx).banks =
        ctx.banks ++ tables.map DispatchTable.toNdsDispatchBankView := by
  induction tables generalizing ctx with
  | nil => exact ⟨h, (List.append_nil _).symm⟩
  | cons table tables ih =>
      obtain ⟨hindexed, hbanks⟩ := ih (h.register table)
      refine ⟨hindexed, hbanks.trans ?_⟩
      unfold DispatchBanks.register
      rw [List.map_cons, List.append_assoc]
      rfl

section Selection

variable (mem : GuestMemory) (cpu : NdsCpu) (pc : UInt32) (thumb : Bool)

/-- The row is taken at the key: it has no validation or a live one. -/
def rowLive (row : DispatchRow) : Bool :=
  accepts (indexRejects (some (dispatchValidationLive mem cpu)) pc thumb) row

/-- `nds_dispatch_lookup_index` over the tables, with the predicate of the runtime. -/
def selection (tables : List DispatchTable) : Option DispatchRow :=
  (ndsDispatchLookupIndex (registerAll tables).dispatchIndex pc thumb
    (some (dispatchValidationLive mem cpu))).selected

/-- The live rows of a table at the key. -/
def candidates (table : DispatchTable) : List DispatchRow :=
  (runAt keyNat (dispatchKey pc thumb).toNat table.rows).filter (rowLive mem cpu pc thumb)

variable {mem cpu pc thumb}

theorem selection_eq (tables : List DispatchTable) :
    selection mem cpu pc thumb tables =
      firstMaxOf rankNat (tables.flatMap (candidates mem cpu pc thumb)) := by
  obtain ⟨hindexed, hbanks⟩ := foldl_register tables indexed_empty
  have hrun : (runAt keyNat (dispatchKey pc thumb).toNat (registerAll tables).dispatchIndex).filter
      (rowLive mem cpu pc thumb) = tables.flatMap (candidates mem cpu pc thumb) := by
    rw [registerAll, hindexed.runs, hbanks]
    unfold runAt
    rw [List.nil_append, List.flatMap_map, List.filter_flatMap, List.filter_flatMap]
    rfl
  have hranked : ({} : CandidateScan).Ranked := rfl
  have hscan := foldl_scanCandidate
    (indexRejects (some (dispatchValidationLive mem cpu)) pc thumb)
    (runAt keyNat (dispatchKey pc thumb).toNat (registerAll tables).dispatchIndex) hranked
  have hsorted : KeySorted keyNat (registerAll tables).dispatchIndex := hindexed.sorted
  unfold selection
  rw [lookupIndex_eq_scan hsorted]
  refine hscan.2.2.trans ?_
  rw [firstMax_none_left, ← hrun]
  rfl

theorem selection_concat (preceding : List DispatchTable) (own : DispatchTable) :
    selection mem cpu pc thumb (preceding ++ [own]) =
      firstMax rankNat (selection mem cpu pc thumb preceding)
        (firstMaxOf rankNat (candidates mem cpu pc thumb own)) := by
  rw [selection_eq, selection_eq, List.flatMap_append, firstMaxOf_append, List.flatMap_singleton]

theorem selection_mem {preceding : List DispatchTable} {row : DispatchRow}
    (h : selection mem cpu pc thumb preceding = some row) :
    ∃ table ∈ preceding, row ∈ candidates mem cpu pc thumb table := by
  rw [selection_eq] at h
  exact List.mem_flatMap.mp (firstMaxOf_mem rankNat _ h)

theorem selection_max {preceding : List DispatchTable} {table : DispatchTable} {row : DispatchRow}
    (htable : table ∈ preceding) (hrow : row ∈ candidates mem cpu pc thumb table) :
    ∃ best, selection mem cpu pc thumb preceding = some best ∧ rankNat row ≤ rankNat best := by
  rw [selection_eq]
  exact le_firstMaxOf rankNat (List.mem_flatMap.mpr ⟨table, htable, hrow⟩)

end Selection

/-! ### The bank's own row -/

section OwnRow

variable (e : BankEmission) (mem : GuestMemory) (cpu : NdsCpu) (pc : UInt32) (thumb : Bool)

/-- The row the table of these functions holds at the key. -/
def ownRow (funcs : List EmitFunction) (keys : List UInt64) : Option EmitRow :=
  (runAt EmitRow.keyNat (dispatchKey pc thumb).toNat (emitRows funcs keys)).head?

/-- That row is live, with the closure of these functions. -/
def ownLive (funcs : List EmitFunction) (row : EmitRow) : Bool :=
  dispatchValidationLive mem cpu (e.validation funcs row.fn) pc thumb

variable {e mem cpu pc thumb}

theorem rows_map_entry (bank : NdsDispatchBankView) : bank.rows.map DispatchRow.entry = bank.entries := by
  apply List.ext_getElem <;> simp [NdsDispatchBankView.rows]

theorem rows_table {bank : NdsDispatchBankView} {row : DispatchRow} (h : row ∈ bank.rows) :
    row.table = bank.table := by
  obtain ⟨i, hi, rfl⟩ := List.mem_mapIdx.mp h
  rfl

/-- The table's rows at the key, as entries. -/
theorem runAt_emit (funcs : List EmitFunction) (keys : List UInt64) (k : Nat) :
    (runAt keyNat k (e.emit funcs keys).rows).map DispatchRow.entry =
      (runAt EmitRow.keyNat k (emitRows funcs keys)).map (e.entry funcs) := by
  have hkey : ∀ row : EmitRow, (dispatchKey (e.entry funcs row).addr
      ((e.entry funcs row).thumb != 0)).toNat = row.keyNat := by
    intro row
    unfold BankEmission.entry EmitRow.keyNat EmitRow.key EmitFunction.key
    cases row.fn.thumb <;> rfl
  have hrows := rows_map_entry (e.view funcs keys)
  have hfilter : (runAt keyNat k (e.emit funcs keys).rows).map DispatchRow.entry =
      (e.view funcs keys).entries.filter
        fun entry => decide ((dispatchKey entry.addr (entry.thumb != 0)).toNat = k) := by
    rw [← hrows, List.filter_map]
    rfl
  rw [hfilter]
  unfold BankEmission.view runAt
  rw [List.filter_map]
  refine congrArg (List.map (e.entry funcs)) (List.filter_congr fun row _ => ?_)
  change decide ((dispatchKey (e.entry funcs row).addr _).toNat = k) = _
  rw [hkey]

/-- The choice among the bank's live rows at the key. -/
theorem ownChoice (funcs : List EmitFunction) (keys : List UInt64) :
    (ownRow pc thumb funcs keys = none ∧
        firstMaxOf rankNat (candidates mem cpu pc thumb (e.emit funcs keys)) = none) ∨
      ∃ row, ownRow pc thumb funcs keys = some row ∧
        if ownLive e mem cpu pc thumb funcs row then
          ∃ r, firstMaxOf rankNat (candidates mem cpu pc thumb (e.emit funcs keys)) = some r ∧
            r.table = e.table ∧ r.entry = e.entry funcs row ∧ rankNat r = row.fn.size.toNat
        else firstMaxOf rankNat (candidates mem cpu pc thumb (e.emit funcs keys)) = none := by
  have hentries := @runAt_emit e funcs keys (dispatchKey pc thumb).toNat
  have hone : (runAt EmitRow.keyNat (dispatchKey pc thumb).toNat (emitRows funcs keys)).length ≤ 1 := by
    rw [runAt_emitRows]
    exact List.length_take_le _ _
  unfold ownRow candidates
  cases hrun : runAt EmitRow.keyNat (dispatchKey pc thumb).toNat (emitRows funcs keys) with
  | nil =>
      rw [hrun] at hentries
      rw [List.map_eq_nil_iff.mp hentries]
      exact Or.inl ⟨rfl, rfl⟩
  | cons row rest =>
      rw [hrun] at hentries hone
      have hrest : rest = [] := List.length_eq_zero_iff.mp (by simpa using hone)
      rw [hrest] at hentries
      obtain ⟨r, hr, hentry⟩ := List.map_eq_singleton_iff.mp hentries
      have hmem : r ∈ (e.emit funcs keys).rows := by
        have hin : r ∈ runAt keyNat (dispatchKey pc thumb).toNat (e.emit funcs keys).rows := by
          rw [hr]
          exact List.mem_singleton.mpr rfl
        exact (List.mem_filter.mp hin).1
      have hlive : rowLive mem cpu pc thumb r = ownLive e mem cpu pc thumb funcs row := by
        unfold rowLive accepts indexRejects ownLive
        rw [hentry]
        exact Bool.not_not _
      have hrank : rankNat r = row.fn.size.toNat := by
        unfold rankNat ndsDispatchCandidateRank
        rw [hentry]
        rfl
      refine Or.inr ⟨row, rfl, ?_⟩
      rw [hr, List.filter_singleton, hlive]
      cases ownLive e mem cpu pc thumb funcs row with
      | true => exact ⟨r, rfl, rows_table hmem, hentry, hrank⟩
      | false => rfl

end OwnRow

/-! ### Pruning -/

theorem flatMap_filter_of_nil {α β : Type*} {keep : α → Bool} {g : α → List β} {l : List α}
    (h : ∀ a ∈ l, keep a = false → g a = []) : (l.filter keep).flatMap g = l.flatMap g := by
  induction l with
  | nil => rfl
  | cons a l ih =>
      have htail := ih fun b hb => h b (List.mem_cons_of_mem a hb)
      cases hkeep : keep a with
      | true => rw [List.filter_cons_of_pos hkeep, List.flatMap_cons, List.flatMap_cons, htail]
      | false =>
          rw [List.filter_cons_of_neg (by simp [hkeep]), List.flatMap_cons, htail,
            h a List.mem_cons_self hkeep, List.nil_append]

section Pruned

variable {image : BankImage} {tables : List NdsDispatchBankView} {funcs : List EmitFunction}

/-- Every key of a function that is not emitted is pruned. -/
theorem dropped_pruned {fn : EmitFunction} (hfn : fn ∈ funcs)
    (h : (!(decide (shadowed image tables fn ≠ []) &&
      (shadowed image tables fn).length == fn.pcs.length)) = false) {pc : UInt32} (hpc : pc ∈ fn.pcs) :
    fn.key pc ∈ prunedKeys image tables funcs := by
  rw [Bool.not_eq_false', Bool.and_eq_true, beq_iff_eq] at h
  have hall : ∀ q ∈ fn.pcs, ownedByPreceding image tables fn q = true := by
    have hlength := h.2
    unfold shadowed at hlength
    rw [List.length_map] at hlength
    exact List.length_filter_eq_length_iff.mp hlength
  refine List.mem_flatMap.mpr ⟨fn, hfn, ?_⟩
  exact List.mem_map.mpr ⟨pc, List.mem_filter.mpr ⟨hpc, hall pc hpc⟩, rfl⟩

/-- At a key that is not pruned both emissions have the same rows. -/
theorem rawRows_unpruned {key : UInt64} (h : key ∉ prunedKeys image tables funcs) :
    (rawRows (keptFunctions image tables funcs) (prunedKeys image tables funcs)).filter
        (fun r => decide (r.keyNat = key.toNat)) =
      (rawRows funcs []).filter fun r => decide (r.keyNat = key.toNat) := by
  have hrows : ∀ fn ∈ funcs, (((fn.pcs.filter fun pc =>
      !(prunedKeys image tables funcs).contains (fn.key pc)).map fun pc => EmitRow.mk pc fn).filter
        fun r => decide (r.keyNat = key.toNat)) =
      ((fn.pcs.filter fun pc => !([] : List UInt64).contains (fn.key pc)).map
        fun pc => EmitRow.mk pc fn).filter fun r => decide (r.keyNat = key.toNat) := by
    intro fn _
    rw [List.filter_map, List.filter_map, List.filter_filter, List.filter_filter]
    refine congrArg _ (List.filter_congr fun pc _ => ?_)
    by_cases hkey : (EmitRow.mk pc fn).keyNat = key.toNat
    · have hsame : fn.key pc = key := UInt64.toNat_inj.mp hkey
      simp [hkey, hsame, h]
    · simp [hkey]
  unfold rawRows keptFunctions
  rw [List.filter_flatMap, List.filter_flatMap]
  rw [flatMap_filter_of_nil]
  · exact List.flatMap_congr hrows
  · intro fn hfn hdropped
    refine List.filter_eq_nil_iff.mpr fun r hr hkey => ?_
    obtain ⟨pc, hpc, rfl⟩ := List.mem_map.mp hr
    have hsame : fn.key pc = key := UInt64.toNat_inj.mp (of_decide_eq_true hkey)
    exact h (hsame ▸ dropped_pruned hfn hdropped (List.mem_filter.mp hpc).1)

end Pruned

/-! ### Safety -/

/-- The body a row enters. -/
def body (row : DispatchRow) : TableId × NativeBody := (row.table, row.entry.fn)

section Safety

variable (e : BankEmission) (preceding : List DispatchTable) (funcs : List EmitFunction)
  (mem : GuestMemory) (cpu : NdsCpu) (pc : UInt32) (thumb : Bool)

/-- The tables the pruning pass reads. -/
def precedingViews : List NdsDispatchBankView := preceding.map DispatchTable.toNdsDispatchBankView

def pruned : List UInt64 := prunedKeys e.image (precedingViews preceding) funcs

def kept : List EmitFunction := keptFunctions e.image (precedingViews preceding) funcs

/-- The selection with the bank's full table registered last. -/
def selectedFull : Option DispatchRow :=
  selection mem cpu pc thumb (preceding ++ [e.emit funcs []])

/-- The selection with the pruned table registered last. -/
def selectedPruned : Option DispatchRow :=
  selection mem cpu pc thumb
    (preceding ++ [e.emit (kept e preceding funcs) (pruned e preceding funcs)])

/-- Some live preceding row spans at least this much. -/
def Outranked (size : Nat) : Prop :=
  ∃ table ∈ preceding, ∃ p ∈ candidates mem cpu pc thumb table, size ≤ rankNat p

/-- The same body, and it is a preceding one. -/
def EntersPreceding : Prop :=
  (selectedFull e preceding funcs mem cpu pc thumb).map body =
      (selectedPruned e preceding funcs mem cpu pc thumb).map body ∧
    ∃ table ∈ preceding, ∃ p ∈ table.rows, selectedPruned e preceding funcs mem cpu pc thumb = some p

/-- A preceding row is live, and it outranks the bank's own row where that is live. -/
def PrecedingWins : Prop :=
  Outranked preceding mem cpu pc thumb 0 ∧
    ∀ row, ownRow pc thumb funcs [] = some row → ownLive e mem cpu pc thumb funcs row = true →
      Outranked preceding mem cpu pc thumb row.fn.size.toNat

/-- The shrunk closure changes nothing here: the bank's own row is live with
both closures or with none, or a preceding row outranks it. -/
def ClosureAgrees : Prop :=
  ∀ row, ownRow pc thumb funcs [] = some row →
    ownLive e mem cpu pc thumb funcs row = ownLive e mem cpu pc thumb (kept e preceding funcs) row ∨
      Outranked preceding mem cpu pc thumb row.fn.size.toNat

variable {e preceding funcs mem cpu pc thumb}

theorem outranked_iff {size : Nat} :
    Outranked preceding mem cpu pc thumb size ↔
      ∃ best, selection mem cpu pc thumb preceding = some best ∧ size ≤ rankNat best := by
  constructor
  · rintro ⟨table, htable, p, hp, hsize⟩
    obtain ⟨best, hbest, hrank⟩ := selection_max htable hp
    exact ⟨best, hbest, hsize.trans hrank⟩
  · rintro ⟨best, hbest, hsize⟩
    obtain ⟨table, htable, hp⟩ := selection_mem hbest
    exact ⟨table, htable, best, hp, hsize⟩

/-- A row of another table after the preceding ones enters their body exactly
when it is outranked. -/
theorem firstMax_body_iff {r : DispatchRow} (h : ∀ table ∈ preceding, table.table ≠ r.table) :
    (firstMax rankNat (selection mem cpu pc thumb preceding) (some r)).map body =
        (selection mem cpu pc thumb preceding).map body ↔
      Outranked preceding mem cpu pc thumb (rankNat r) := by
  rw [outranked_iff]
  cases hbest : selection mem cpu pc thumb preceding with
  | none =>
      refine iff_of_false (fun heq => by cases heq) ?_
      rintro ⟨best, hnone, -⟩
      cases hnone
  | some best =>
      unfold firstMax
      by_cases hlt : rankNat best < rankNat r
      · dsimp only
        rw [if_pos hlt]
        refine iff_of_false (fun heq => ?_) ?_
        · obtain ⟨table, htable, hmem⟩ := selection_mem hbest
          have hbestTable := rows_table (List.mem_filter.mp (List.mem_filter.mp hmem).1).1
          have hsame : r.table = best.table := congrArg Prod.fst (Option.some.inj heq)
          exact h table htable (hbestTable.symm.trans hsame.symm)
        · rintro ⟨other, hother, hle⟩
          cases hother
          omega
      · dsimp only
        rw [if_neg hlt]
        exact iff_of_true rfl ⟨best, rfl, Nat.not_lt.mp hlt⟩

theorem firstMax_body_congr {best : Option DispatchRow} {r r' : DispatchRow} (hbody : body r = body r')
    (hrank : rankNat r = rankNat r') :
    (firstMax rankNat best (some r)).map body = (firstMax rankNat best (some r')).map body := by
  cases best with
  | none => exact congrArg some hbody
  | some b =>
      unfold firstMax
      dsimp only
      rw [hrank]
      split
      · exact congrArg some hbody
      · rfl

/-- At a pruned key the pruned table has no row. -/
theorem selectedPruned_eq (h : dispatchKey pc thumb ∈ pruned e preceding funcs) :
    selectedPruned e preceding funcs mem cpu pc thumb = selection mem cpu pc thumb preceding := by
  have hnone : ownRow pc thumb (kept e preceding funcs) (pruned e preceding funcs) = none := by
    unfold ownRow
    rw [runAt_pruned h]
    rfl
  unfold selectedPruned
  rw [selection_concat]
  rcases @ownChoice e mem cpu pc thumb (kept e preceding funcs) (pruned e preceding funcs) with
    ⟨-, hchoice⟩ | ⟨row, hrow, -⟩
  · rw [hchoice, firstMax_none_right]
  · rw [hnone] at hrow
    cases hrow

/-- Where the full table's row is live it has to be outranked. -/
theorem selectedFull_body_iff (hown : ∀ table ∈ preceding, table.table ≠ e.table) :
    (selectedFull e preceding funcs mem cpu pc thumb).map body =
        (selection mem cpu pc thumb preceding).map body ↔
      ∀ row, ownRow pc thumb funcs [] = some row → ownLive e mem cpu pc thumb funcs row = true →
        Outranked preceding mem cpu pc thumb row.fn.size.toNat := by
  unfold selectedFull
  rw [selection_concat]
  rcases @ownChoice e mem cpu pc thumb funcs [] with ⟨hrow, hchoice⟩ | ⟨row, hrow, hchoice⟩
  · rw [hchoice, firstMax_none_right, hrow]
    exact iff_of_true rfl fun _ hnone => by cases hnone
  · rw [hrow]
    cases hlive : ownLive e mem cpu pc thumb funcs row with
    | true =>
        rw [hlive, if_pos rfl] at hchoice
        obtain ⟨r, hr, htable, -, hrank⟩ := hchoice
        rw [hr, firstMax_body_iff (htable ▸ hown), hrank]
        constructor
        · rintro hout _ hsome -
          cases hsome
          exact hout
        · exact fun hall => hall row rfl hlive
    | false =>
        rw [hlive, if_neg Bool.false_ne_true] at hchoice
        rw [hchoice, firstMax_none_right]
        refine iff_of_true rfl fun other hsome hlive' => ?_
        cases hsome
        rw [hlive] at hlive'
        cases hlive'

theorem entersPreceding_iff (hown : ∀ table ∈ preceding, table.table ≠ e.table)
    (h : dispatchKey pc thumb ∈ pruned e preceding funcs) :
    EntersPreceding e preceding funcs mem cpu pc thumb ↔
      PrecedingWins e preceding funcs mem cpu pc thumb := by
  unfold EntersPreceding PrecedingWins
  rw [selectedPruned_eq h, selectedFull_body_iff hown]
  rw [and_comm]
  refine and_congr_left fun _ => ?_
  constructor
  · rintro ⟨table, htable, p, -, hp⟩
    exact outranked_iff.mpr ⟨p, hp, Nat.zero_le _⟩
  · intro hout
    obtain ⟨best, hbest, -⟩ := outranked_iff.mp hout
    obtain ⟨table, htable, hmem⟩ := selection_mem hbest
    exact ⟨table, htable, best, (List.mem_filter.mp (List.mem_filter.mp hmem).1).1, hbest⟩

/-- At a key that is not pruned both tables hold the same row. -/
theorem ownRow_unpruned (hnames : (funcs.map EmitFunction.name).Nodup)
    (h : dispatchKey pc thumb ∉ pruned e preceding funcs) :
    ownRow pc thumb (kept e preceding funcs) (pruned e preceding funcs) = ownRow pc thumb funcs [] := by
  unfold ownRow
  refine congrArg List.head? (runAt_emitRows_congr hnames ?_).symm
  exact List.Perm.of_eq (rawRows_unpruned h).symm

theorem unchanged_iff (hown : ∀ table ∈ preceding, table.table ≠ e.table)
    (hnames : (funcs.map EmitFunction.name).Nodup)
    (h : dispatchKey pc thumb ∉ pruned e preceding funcs) :
    (selectedFull e preceding funcs mem cpu pc thumb).map body =
        (selectedPruned e preceding funcs mem cpu pc thumb).map body ↔
      ClosureAgrees e preceding funcs mem cpu pc thumb := by
  have hsame := ownRow_unpruned hnames h
  unfold selectedFull selectedPruned ClosureAgrees
  rw [selection_concat, selection_concat]
  rcases @ownChoice e mem cpu pc thumb funcs [] with ⟨hrow, hchoice⟩ | ⟨row, hrow, hchoice⟩
  · rcases @ownChoice e mem cpu pc thumb (kept e preceding funcs) (pruned e preceding funcs) with
      ⟨-, hchoice'⟩ | ⟨row', hrow', -⟩
    · rw [hchoice, hchoice', hrow]
      exact iff_of_true rfl fun _ hnone => by cases hnone
    · rw [hsame, hrow] at hrow'
      cases hrow'
  · rcases @ownChoice e mem cpu pc thumb (kept e preceding funcs) (pruned e preceding funcs) with
      ⟨hrow', -⟩ | ⟨row', hrow', hchoice'⟩
    · rw [hsame, hrow] at hrow'
      cases hrow'
    · rw [hsame, hrow] at hrow'
      cases hrow'
      rw [hrow]
      have hall : (∀ other, some row = some other →
          ownLive e mem cpu pc thumb funcs other =
              ownLive e mem cpu pc thumb (kept e preceding funcs) other ∨
            Outranked preceding mem cpu pc thumb other.fn.size.toNat) ↔
          ownLive e mem cpu pc thumb funcs row =
              ownLive e mem cpu pc thumb (kept e preceding funcs) row ∨
            Outranked preceding mem cpu pc thumb row.fn.size.toNat := by
        constructor
        · exact fun hev => hev row rfl
        · rintro hrow other hother
          cases hother
          exact hrow
      rw [hall]
      cases hfull : ownLive e mem cpu pc thumb funcs row with
      | true =>
          rw [hfull, if_pos rfl] at hchoice
          obtain ⟨r, hr, htable, hentry, hrank⟩ := hchoice
          cases hcut : ownLive e mem cpu pc thumb (kept e preceding funcs) row with
          | true =>
              rw [hcut, if_pos rfl] at hchoice'
              obtain ⟨r', hr', htable', hentry', hrank'⟩ := hchoice'
              have hbody : body r = body r' := by
                unfold body
                rw [htable, htable', hentry, hentry']
                rfl
              rw [hr, hr']
              refine iff_of_true ?_ (Or.inl rfl)
              exact firstMax_body_congr hbody (hrank.trans hrank'.symm)
          | false =>
              rw [hcut, if_neg Bool.false_ne_true] at hchoice'
              rw [hr, hchoice', firstMax_none_right, firstMax_body_iff (htable ▸ hown), hrank]
              exact (or_iff_right (by decide)).symm
      | false =>
          rw [hfull, if_neg Bool.false_ne_true] at hchoice
          cases hcut : ownLive e mem cpu pc thumb (kept e preceding funcs) row with
          | true =>
              rw [hcut, if_pos rfl] at hchoice'
              obtain ⟨r', hr', htable', -, hrank'⟩ := hchoice'
              rw [hchoice, hr', firstMax_none_right, eq_comm, firstMax_body_iff (htable' ▸ hown), hrank']
              exact (or_iff_right (by decide)).symm
          | false =>
              rw [hcut, if_neg Bool.false_ne_true] at hchoice'
              rw [hchoice, hchoice']
              exact iff_of_true rfl (Or.inl rfl)

theorem surviving_row_emitted {entry : NdsDispatchEntry}
    (h : entry ∈ (e.emit (kept e preceding funcs) (pruned e preceding funcs)).entries) :
    ∃ fn ∈ kept e preceding funcs, entry.fn = e.bodyOf fn.name := by
  obtain ⟨row, hrow, rfl⟩ := List.mem_map.mp h
  exact ⟨row.fn, (mem_rawRows.mp (mem_emitRows hrow)).1, rfl⟩

/-- Without dependency ranges the closure cannot shrink. -/
theorem closureAgrees_open (h : e.closed = false) :
    ClosureAgrees e preceding funcs mem cpu pc thumb := by
  intro row _
  have hsame : ∀ fs, e.validation fs row.fn = e.validation [] row.fn := by
    intro fs
    unfold BankEmission.validation dependencyClosure
    rw [h]
    rfl
  refine Or.inl ?_
  unfold ownLive
  rw [hsame funcs, hsame (kept e preceding funcs)]

/-- A live span without dependency ranges wins over a row that spans no more. -/
theorem precedingWins_of_span {table : DispatchTable} (htable : table ∈ preceding) {p : DispatchRow}
    (hp : p ∈ table.rows) (hkey : keyNat p = (dispatchKey pc thumb).toNat) {v : NdsStaticValidation}
    (hv : p.entry.validation = some v) (hdependencies : v.dependencyCount = 0)
    (howns : ndsDispatchValidationOwnsEntry v pc thumb = true)
    (hlive : rangeLive mem cpu v.addr v.size v.expected = true)
    (hsize : ∀ row, ownRow pc thumb funcs [] = some row → row.fn.size ≤ v.size) :
    PrecedingWins e preceding funcs mem cpu pc thumb := by
  have hvalid : dispatchValidationLive mem cpu v pc thumb = true := by
    unfold dispatchValidationLive
    rw [howns, if_neg (not_not_intro hdependencies), hlive]
    rfl
  have haccept : rowLive mem cpu pc thumb p = true := by
    unfold rowLive accepts
    rw [hv, Option.any_some]
    change (!!dispatchValidationLive mem cpu v pc thumb) = true
    rw [hvalid]
    rfl
  have hmem : p ∈ candidates mem cpu pc thumb table :=
    List.mem_filter.mpr ⟨List.mem_filter.mpr ⟨hp, decide_eq_true hkey⟩, haccept⟩
  have hrank : rankNat p = v.size.toNat := by
    unfold rankNat ndsDispatchCandidateRank
    rw [hv]
  refine ⟨⟨table, htable, p, hmem, Nat.zero_le _⟩, fun row hrow _ => ⟨table, htable, p, hmem, ?_⟩⟩
  rw [hrank]
  exact UInt32.le_iff_toNat_le.mp (hsize row hrow)

theorem offerOwner_row {owner : Option PrecedingOwner} {v : NdsStaticValidation} {o : PrecedingOwner}
    (h : offerOwner owner v = some o) :
    owner = some o ∨ (v.addr = o.addr ∧ v.size = o.size ∧ v.expected = some o.expected) := by
  unfold offerOwner at h
  cases hbytes : v.expected with
  | none =>
      rw [hbytes] at h
      exact Or.inl h
  | some bytes =>
      rw [hbytes] at h
      cases owner with
      | none =>
          cases h
          exact Or.inr ⟨rfl, rfl, rfl⟩
      | some other =>
          dsimp only at h
          split at h
          · exact Or.inl h
          · cases h
            exact Or.inr ⟨rfl, rfl, rfl⟩

/-- The span that justifies pruning is that of a preceding row at the key. -/
theorem precedingOwner_row {owner : PrecedingOwner}
    (h : precedingOwner (precedingViews preceding) (dispatchKey pc thumb) = some owner) :
    ∃ table ∈ preceding, ∃ p ∈ table.rows, ∃ v, keyNat p = (dispatchKey pc thumb).toNat ∧
      p.entry.validation = some v ∧ v.addr = owner.addr ∧ v.size = owner.size ∧
      v.expected = some owner.expected := by
  have hentry : ∃ entry ∈ (precedingViews preceding).flatMap NdsDispatchBankView.entries,
      dispatchKey entry.addr (entry.thumb != 0) = dispatchKey pc thumb ∧
        ∃ v, entry.validation = some v ∧ v.addr = owner.addr ∧ v.size = owner.size ∧
          v.expected = some owner.expected := by
    unfold precedingOwner at h
    generalize (precedingViews preceding).flatMap NdsDispatchBankView.entries = entries at h
    induction entries using List.reverseRecOn with
    | nil => cases h
    | append_singleton entries entry ih =>
        rw [List.foldl_concat] at h
        have hold : _ → ∃ entry' ∈ entries ++ [entry], _ := fun hearlier =>
          (ih hearlier).imp fun entry' hand => ⟨List.mem_append_left _ hand.1, hand.2⟩
        split at h
        · next hkey =>
            cases hv : entry.validation with
            | none =>
                rw [hv] at h
                exact hold h
            | some v =>
                rw [hv] at h
                rcases offerOwner_row h with hearlier | hrow
                · exact hold hearlier
                · exact ⟨entry, List.mem_append_right _ List.mem_cons_self, hkey, v, hv, hrow⟩
        · exact hold h
  obtain ⟨entry, hmem, hkey, v, hv, hspan⟩ := hentry
  obtain ⟨view, hview, hentryMem⟩ := List.mem_flatMap.mp hmem
  obtain ⟨table, htable, rfl⟩ := List.mem_map.mp hview
  rw [← rows_map_entry] at hentryMem
  obtain ⟨p, hp, rfl⟩ := List.mem_map.mp hentryMem
  exact ⟨table, htable, p, hp, v, congrArg UInt64.toNat hkey, hv, hspan⟩

end Safety

/-! ### Two functions that share a key -/

private def landingPad : EmitFunction := ⟨0x02000000, 0, false, "func_b", 0x02000004⟩

private def routine : EmitFunction := ⟨0x02000000, 0, false, "func_a", 0x02000010⟩

private theorem no_dependencies : ∀ ranges : List NdsStaticValidationRange,
    none = some ranges → ranges.length = (0 : UInt32).toNat :=
  fun _ h => nomatch h

private def ownerTable : DispatchTable where
  table := 1
  entries := [⟨0x02000000, 0, 10, some ⟨10, 0x02000000, 8, some (List.replicate 8 0), none, 0,
    fun _ h => by cases h; rfl, no_dependencies⟩⟩]
  sorted := List.pairwise_singleton _ _

private def captureBank : BankEmission where
  image := ⟨List.replicate 16 0, 0x02000000⟩
  closed := false
  table := 2
  bodyOf name := if name = "func_a" then 20 else 21

private def zeroed : GuestMemory := fun _ i =>
  if 0x02000000 ≤ i ∧ i < 0x02000010 then some 0 else none

private theorem ownerTable_other : ∀ table ∈ [ownerTable], table.table ≠ captureBank.table := by
  decide

private theorem owner_candidate :
    Outranked [ownerTable] zeroed .arm9 0x02000000 false 8 := by
  refine ⟨ownerTable, List.mem_cons_self, ⟨1, 0, ownerTable.entries.head (by decide)⟩, ?_, ?_⟩
  · decide
  · decide

end NdsRecomp.Recompiler
