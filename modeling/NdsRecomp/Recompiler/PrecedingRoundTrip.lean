import NdsRecomp.Recompiler.PrecedingOwners

/-!
When reading the files gives back what was written. The keys always come back,
and one file alone gives each validated row an owner with its own span. Over
several files the pools are shared by name, so an owner keeps its bytes exactly
when the last array printed under its name still holds those of such a row.
-/

namespace NdsRecomp.Recompiler.DispatchText

open Library Dispatch

/-! ### Names that are not cut -/

/-- No validation's name reaches the end of its buffer. -/
def BankDispatch.Untruncated (b : BankDispatch) : Prop :=
  ∀ s ∈ b.superblocks,
    ("g_validation_".toList ++ b.fnPrefix ++ '_' :: numeral 10 s.index).length < 128

theorem validationSymbol_untruncated {b : BankDispatch} (hb : b.Untruncated) {s : Superblock}
    (hs : s ∈ b.superblocks) :
    b.validationSymbol s.index =
      "g_validation_".toList ++ b.fnPrefix ++ '_' :: numeral 10 s.index :=
  List.take_of_length_le (Nat.le_of_lt_succ (hb s hs))

theorem numeral_inj {m n : Nat} (h : numeral 10 m = numeral 10 n) : m = n := by
  have hvalue := fun k => (numeral_spec (Nat.one_lt_ofNat : 1 < 10) (by decide) k).1
  rw [← hvalue m, h, hvalue n]

theorem superblocksFrom_index (index : Nat) (blocks : List (EmitFunction × List EmitFunction)) :
    (∀ s ∈ superblocksFrom index blocks, index ≤ s.index) ∧
      (superblocksFrom index blocks).Pairwise fun s t => s.index < t.index := by
  induction blocks generalizing index with
  | nil => exact ⟨fun s hs => absurd hs List.not_mem_nil, List.Pairwise.nil⟩
  | cons block blocks ih =>
      obtain ⟨leader, members⟩ := block
      obtain ⟨hle, hpairwise⟩ := ih (index + (members.length + 1))
      rw [superblocksFrom]
      refine ⟨fun s hs => ?_, List.pairwise_cons.mpr ⟨fun s hs => ?_, hpairwise⟩⟩
      · rcases List.mem_cons.mp hs with rfl | hs
        · exact Nat.le_refl _
        · have := hle s hs
          omega
      · have := hle s hs
        show index < s.index
        omega

/-- The records are those of superblocks, in their order. -/
theorem records_from (b : BankDispatch) :
    (b.records.map ValidationRecord.symbol).Sublist
      (b.superblocks.map fun s => b.validationSymbol s.index) := by
  have hfrom : ∀ blocks : List Superblock,
      ((b.recordsFrom blocks).map ValidationRecord.symbol).Sublist
        (blocks.map fun s => b.validationSymbol s.index) := by
    intro blocks
    induction blocks with
    | nil => exact List.Sublist.slnil
    | cons s blocks ih =>
        rw [BankDispatch.recordsFrom]
        split
        · exact List.nil_sublist _
        · exact ih.cons_cons _
  unfold BankDispatch.records
  split
  · exact hfrom _
  · exact List.nil_sublist _

theorem ranges_from (b : BankDispatch) :
    (b.ranges.map Prod.fst).Pairwise (· ≠ ·) ∧
      ∀ name ∈ b.ranges.map Prod.fst, ∃ i, name = b.rangeSymbol i := by
  have hinj : ∀ i j, b.rangeSymbol i = b.rangeSymbol j → i = j := by
    intro i j heq
    have hnumber := List.append_cancel_left (List.append_cancel_right heq)
    exact numeral_inj (List.cons.inj hnumber).2
  have hfrom : ∀ spans index,
      ((b.rangesFrom index spans).map Prod.fst).Pairwise (· ≠ ·) ∧
        ∀ name ∈ (b.rangesFrom index spans).map Prod.fst,
          ∃ i, index ≤ i ∧ name = b.rangeSymbol i := by
    intro spans
    induction spans with
    | nil => exact fun _ => ⟨List.Pairwise.nil, fun name hname => absurd hname List.not_mem_nil⟩
    | cons span spans ih =>
        intro index
        obtain ⟨hpairwise, hnames⟩ := ih (index + 1)
        rw [BankDispatch.rangesFrom]
        split
        · exact ⟨List.Pairwise.nil, fun name hname => absurd hname List.not_mem_nil⟩
        · rw [List.map_cons]
          refine ⟨List.pairwise_cons.mpr ⟨fun name hname heq => ?_, hpairwise⟩,
            fun name hname => ?_⟩
          · obtain ⟨i, hi, rfl⟩ := hnames name hname
            have := hinj _ _ heq
            omega
          · rcases List.mem_cons.mp hname with rfl | hname
            · exact ⟨index, Nat.le_refl _, rfl⟩
            · obtain ⟨i, hi, rfl⟩ := hnames name hname
              exact ⟨i, by omega, rfl⟩
  obtain ⟨hpairwise, hnames⟩ := hfrom b.mergedSpans 0
  exact ⟨hpairwise, fun name hname => (hnames name hname).imp fun _ h => h.2⟩

/-- Within a file the names meet only where they are cut: a closure's array and a
function's array end in the same numeral, and what stands before it differs in length. -/
theorem distinctArrays_of_untruncated {b : BankDispatch} (hb : b.Untruncated) :
    b.DistinctArrays := by
  have hsymbols : (b.superblocks.map fun s => b.validationSymbol s.index).Nodup := by
    refine List.pairwise_map.mpr ?_
    refine ((superblocksFrom_index 0 b.blocks).2.imp_of_mem ?_)
    intro s t hs ht hlt heq
    rw [validationSymbol_untruncated hb hs, validationSymbol_untruncated hb ht] at heq
    have hindex := numeral_inj (List.cons.inj (List.append_cancel_left heq)).2
    omega
  have hrecords : (b.recordArrays.map Prod.fst).Nodup := by
    unfold BankDispatch.recordArrays
    rw [List.map_map]
    have hnodup := (hsymbols.sublist (records_from b)).map (f := bytesSymbol)
      fun _ _ heq => List.append_cancel_right heq
    rwa [List.map_map] at hnodup
  have hapart : ∀ name ∈ b.recordArrays.map Prod.fst, ∀ i, name ≠ b.rangeSymbol i := by
    intro name hname i heq
    obtain ⟨a, ha, rfl⟩ := List.mem_map.mp hname
    obtain ⟨r, hr, rfl⟩ := List.mem_map.mp ha
    obtain ⟨s, hs, hsymbol⟩ := List.mem_map.mp
      ((records_from b).subset (List.mem_map_of_mem (f := ValidationRecord.symbol) hr))
    have hnumbers : ∀ n : Nat, '_' ∉ numeral 10 n := by
      intro n hmem
      have hdigit := (numeral_spec (Nat.one_lt_ofNat : 1 < 10) (by decide) n).2 '_' hmem
      revert hdigit
      decide
    have hnames : r.symbol = b.closureSymbol ++ '_' :: numeral 10 i := List.append_cancel_right heq
    rw [← hsymbol, validationSymbol_untruncated hb hs] at hnames
    have hsplit := splitLast_append ("g_validation_".toList ++ b.fnPrefix) (hnumbers s.index)
    rw [hnames, splitLast_append b.closureSymbol (hnumbers i)] at hsplit
    have hlength := congrArg (fun p => p.1.length) (Option.some.inj hsplit)
    unfold BankDispatch.closureSymbol at hlength
    simp only [List.length_append] at hlength
    revert hlength
    rw [show "g_validation_closure_".toList.length = 21 from rfl,
      show "g_validation_".toList.length = 13 from rfl]
    omega
  unfold BankDispatch.DistinctArrays BankDispatch.arrays
  rw [List.map_append]
  split
  · obtain ⟨hranges, hnames⟩ := ranges_from b
    refine List.nodup_append.mpr ⟨hrecords, hranges, fun name hname other hother heq => ?_⟩
    obtain ⟨i, rfl⟩ := hnames other hother
    exact hapart name hname i heq
  · rw [List.map_nil, List.append_nil]
    exact hrecords

/-! ### One row a key -/

instance : Std.Total BankDispatch.tableRowLe where
  total r t := Std.Total.total (r := hostRowLe) r.toHostRow t.toHostRow

instance : IsTrans TableRow BankDispatch.tableRowLe where
  trans _ _ _ h h' := IsTrans.trans (r := hostRowLe) _ _ _ h h'

theorem tableRows_sorted (rows : List TableRow) :
    KeySorted BankDispatch.tableRowKey (rows.insertionSort BankDispatch.tableRowLe) := by
  refine (List.pairwise_insertionSort BankDispatch.tableRowLe rows).imp fun hle => ?_
  rcases Prod.Lex.le_iff.mp hle with hlt | ⟨heq, -⟩
  · exact le_of_lt hlt
  · exact le_of_eq heq

theorem rows_distinct (b : BankDispatch) : (b.rows.map TableRow.dispatchKey).Nodup := by
  refine List.pairwise_map.mpr ?_
  refine (uniqueByKey_strict (tableRows_sorted (b.superblocks.flatMap b.superblockRows))).imp ?_
  intro r t hlt heq
  obtain ⟨haddr, hthumb⟩ := dispatchKey_inj.mp heq
  refine ne_of_lt hlt ?_
  unfold BankDispatch.tableRowKey HostRow.key
  rw [haddr, hthumb]

theorem validatedRows_distinct (b : BankDispatch) :
    (b.validatedRows.map ValidatedRow.key).Nodup := by
  have hrows : (b.emittedRows.map TableRow.dispatchKey).Nodup := by
    unfold BankDispatch.emittedRows
    split
    · exact rows_distinct b
    · exact List.nodup_nil
  refine List.pairwise_map.mpr (List.pairwise_filterMap.mpr ?_)
  refine (List.pairwise_map.mp hrows).imp ?_
  intro r t hne v hv w hw heq
  rw [validatedRow_key hv, validatedRow_key hw] at heq
  exact hne heq

/-- The array a validated row points to is printed with its bytes. -/
theorem validatedRow_array {b : BankDispatch} {v : ValidatedRow} (hv : v ∈ b.validatedRows) :
    (v.array, v.expected) ∈ b.arrays := by
  obtain ⟨r, hr, hrow⟩ := List.mem_filterMap.mp hv
  obtain ⟨hwritten, hmem⟩ := mem_emittedRows hr
  obtain ⟨s, hs, hblock⟩ := mem_rows hmem
  obtain ⟨hsame, -, -⟩ := mem_superblockRows hblock
  unfold BankDispatch.validatedRow at hrow
  split at hrow
  · next hvalidate =>
      obtain ⟨bytes, hbytes, rfl⟩ := Option.map_eq_some_iff.mp hrow
      rw [hsame] at hbytes ⊢
      obtain ⟨record, hrecord, hsymbol, -, -, hspan⟩ :=
        record_of_superblock hvalidate hwritten hs
      rw [hspan] at hbytes
      cases hbytes
      refine List.mem_append_left _ (List.mem_map.mpr ⟨record, hrecord, ?_⟩)
      rw [hsymbol]
  · cases hrow

/-! ### The round trip -/

/-- Address, size and bytes are those of the row. -/
structure PrecedingDispatch.Holds (out : PrecedingDispatch) (o : Owner) (v : ValidatedRow) :
    Prop where
  addr : o.addr = v.addr
  size : o.size = v.size
  bytes : out.bytePools o.expected = some v.expected

/-- The validated rows of the files at a key. -/
def rowsRead (files : List BankDispatch) (key : UInt64) : List ValidatedRow :=
  rowsAt key (files.flatMap BankDispatch.validatedRows)

/-- Each file alone gives back its keys and an owner for each validated row; all
together give back the keys and, for each key, an owner that is one of the largest
rows at it. -/
structure RoundTrip (files : List BankDispatch) : Prop where
  single : ∀ b ∈ files,
    (∀ key, key ∈ (readAll [b]).keys ↔ ∃ r ∈ b.emittedRows, r.dispatchKey = key) ∧
      ∀ v ∈ b.validatedRows, ∃ o, (readAll [b]).owners v.key = some o ∧ (readAll [b]).Holds o v
  keys : ∀ key, key ∈ (readAll files).keys ↔
    ∃ b ∈ files, ∃ r ∈ b.emittedRows, r.dispatchKey = key
  owned : ∀ key, rowsRead files key ≠ [] → ∃ o, (readAll files).owners key = some o
  owner : ∀ key o, (readAll files).owners key = some o →
    ∃ v ∈ rowsRead files key, (readAll files).Holds o v ∧ ∀ w ∈ rowsRead files key, w.size ≤ v.size

/-- The last array under the name of a kept row has the bytes of a row at the same
key with the same address and size. -/
def KeepsBytes (files : List BankDispatch) : Prop :=
  ∀ key v, keptRow files key = some v →
    ∃ w ∈ rowsRead files key, w.addr = v.addr ∧ w.size = v.size ∧
      lastArray files v.array = some w.expected

theorem keptRow_mem {files : List BankDispatch} {key : UInt64} {v : ValidatedRow}
    (h : keptRow files key = some v) : v ∈ rowsRead files key := firstMaxOf_mem _ _ h

theorem keptRow_largest {files : List BankDispatch} {key : UInt64} {v w : ValidatedRow}
    (h : keptRow files key = some v) (hw : w ∈ rowsRead files key) : w.size ≤ v.size := by
  obtain ⟨best, hbest, hle⟩ := le_firstMaxOf ValidatedRow.rank hw
  have hsame : best = v := Option.some.inj (hbest.symm.trans h)
  rw [hsame] at hle
  exact UInt32.le_iff_toNat_le.mpr hle

/-- Names with one content each never cost an owner its bytes. -/
theorem keepsBytes_of_oneContent {files : List BankDispatch}
    (h : ∀ a ∈ files.flatMap BankDispatch.arrays, ∀ c ∈ files.flatMap BankDispatch.arrays,
      a.1 = c.1 → a.2 = c.2) : KeepsBytes files := by
  intro key v hv
  have hmem := keptRow_mem hv
  obtain ⟨b, hb, hrow⟩ := List.mem_flatMap.mp (List.mem_filter.mp hmem).1
  have harray : (v.array, v.expected) ∈ files.flatMap BankDispatch.arrays :=
    List.mem_flatMap.mpr ⟨b, hb, validatedRow_array hrow⟩
  refine ⟨v, hmem, rfl, rfl, ?_⟩
  obtain ⟨c, hlast, hc, hname⟩ := lastNamed_exists harray
  unfold lastArray
  rw [hlast, h c hc _ harray hname]

/-- One file alone: the only row at a key is the one kept, and its array is its own. -/
theorem single_roundTrip {b : BankDispatch} (hplain : b.Plain) (hdistinct : b.DistinctArrays) :
    (∀ key, key ∈ (readAll [b]).keys ↔ ∃ r ∈ b.emittedRows, r.dispatchKey = key) ∧
      ∀ v ∈ b.validatedRows,
        ∃ o, (readAll [b]).owners v.key = some o ∧ (readAll [b]).Holds o v := by
  have hread : ReadOf [b] (readAll [b]) :=
    readOf_all (fun c hc => List.mem_singleton.mp hc ▸ hplain)
      fun c hc => List.mem_singleton.mp hc ▸ hdistinct
  refine ⟨fun key => ?_, fun v hv => ?_⟩
  · rw [hread.keys]
    simp
  · have hat : v ∈ rowsRead [b] v.key := by
      unfold rowsRead rowsAt
      rw [List.flatMap_singleton]
      exact List.mem_filter.mpr ⟨hv, beq_self_eq_true _⟩
    obtain ⟨w, hw, -⟩ := le_firstMaxOf ValidatedRow.rank hat
    have hmem := keptRow_mem hw
    unfold rowsRead rowsAt at hmem
    rw [List.flatMap_singleton, List.mem_filter, beq_iff_eq] at hmem
    have hsame : w = v := List.inj_on_of_nodup_map (validatedRows_distinct b) hmem.1 hv hmem.2
    have hlast : lastArray [b] v.array = some v.expected := by
      unfold lastArray
      rw [List.flatMap_singleton]
      exact lastNamed_of_mem hdistinct (validatedRow_array hv)
    refine ⟨v.owner, ?_, rfl, rfl, ?_⟩
    · rw [hread.owners]
      unfold keptRow
      rw [show rowsAt v.key ([b].flatMap BankDispatch.validatedRows) = rowsRead [b] v.key from rfl,
        hw, hsame]
      rfl
    · rw [hread.pools]
      exact hlast

theorem readAll_roundTrip_exact {files : List BankDispatch} (hplain : ∀ b ∈ files, b.Plain)
    (hdistinct : ∀ b ∈ files, b.DistinctArrays) : RoundTrip files ↔ KeepsBytes files := by
  have hread := readOf_all hplain hdistinct
  constructor
  · intro h key v hv
    have howner : (readAll files).owners key = some v.owner := by
      rw [hread.owners, hv]
      rfl
    obtain ⟨w, hw, hholds, -⟩ := h.owner key v.owner howner
    refine ⟨w, hw, hholds.addr.symm, hholds.size.symm, ?_⟩
    rw [← hread.pools]
    exact hholds.bytes
  · intro h
    refine ⟨fun b hb => single_roundTrip (hplain b hb) (hdistinct b hb), hread.keys, ?_, ?_⟩
    · intro key hrows
      obtain ⟨w, hw⟩ := List.exists_mem_of_ne_nil _ hrows
      obtain ⟨v, hv, -⟩ := le_firstMaxOf ValidatedRow.rank hw
      refine ⟨v.owner, ?_⟩
      rw [hread.owners]
      exact congrArg (Option.map ValidatedRow.owner) hv
    · intro key o ho
      rw [hread.owners] at ho
      obtain ⟨v, hv, rfl⟩ := Option.map_eq_some_iff.mp ho
      obtain ⟨w, hw, haddr, hsize, hbytes⟩ := h key v hv
      refine ⟨w, hw, ⟨haddr.symm, hsize.symm, ?_⟩, fun u hu => ?_⟩
      · rw [hread.pools]
        exact hbytes
      · rw [hsize]
        exact keptRow_largest hv hu

/-! ### Two banks that share an array's name -/

/-- A bank whose name starts the way closure arrays do. -/
def closureNamedBank : BankDispatch where
  bank := "closure_m"
  blocks := [({ addr := 0, thumb := false, name := "f", endAddr := 4 }, [])]
  image := ⟨[1, 2, 3, 4], 0⟩
  validateLiveBytes := true
  dependencyClosure := false
  hleRoutines := []
  prunedKeys := []

def closureBank : BankDispatch where
  bank := "m"
  blocks := [({ addr := 8, thumb := false, name := "g", endAddr := 12 }, [])]
  image := ⟨[5, 6, 7, 8], 8⟩
  validateLiveBytes := true
  dependencyClosure := true
  hleRoutines := []
  prunedKeys := []

theorem collidingBanks_plain : ∀ b ∈ [closureNamedBank, closureBank], b.Plain := by
  intro b hb
  simp only [List.mem_cons, List.not_mem_nil, or_false] at hb
  obtain rfl | rfl := hb
  · exact ⟨by decide, by decide, by decide⟩
  · exact ⟨by decide, by decide, by decide⟩

theorem collidingBanks_distinct : ∀ b ∈ [closureNamedBank, closureBank], b.DistinctArrays := by
  intro b hb
  simp only [List.mem_cons, List.not_mem_nil, or_false] at hb
  refine distinctArrays_of_untruncated ?_
  unfold BankDispatch.Untruncated
  obtain rfl | rfl := hb
  · decide
  · decide

/-- The second file's closure array takes the name of the first file's array. -/
theorem closure_array_replaces : ¬ RoundTrip [closureNamedBank, closureBank] := by
  intro h
  have hread := readOf_all collidingBanks_plain collidingBanks_distinct
  have hrows : (rowsRead [closureNamedBank, closureBank] 0).map ValidatedRow.expected =
      [[1, 2, 3, 4]] := by decide
  have hkept : (keptRow [closureNamedBank, closureBank] 0).map ValidatedRow.array =
      some "g_validation_closure_m__0_bytes".toList := by decide
  have hlast : lastArray [closureNamedBank, closureBank] "g_validation_closure_m__0_bytes".toList =
      some [5, 6, 7, 8] := by decide
  obtain ⟨v, hv, harray⟩ := Option.map_eq_some_iff.mp hkept
  obtain ⟨w, hw, hholds, -⟩ := h.owner 0 v.owner (by rw [hread.owners, hv]; rfl)
  have hbytes := hholds.bytes
  rw [hread.pools, show v.owner.expected = v.array from rfl, harray, hlast] at hbytes
  have hmem := List.mem_map_of_mem (f := ValidatedRow.expected) hw
  rw [hrows, ← Option.some.inj hbytes] at hmem
  revert hmem
  decide

theorem readAll_roundTrip_exact_colliding :
    RoundTrip [closureNamedBank, closureBank] ↔ KeepsBytes [closureNamedBank, closureBank] :=
  readAll_roundTrip_exact collidingBanks_plain collidingBanks_distinct

end NdsRecomp.Recompiler.DispatchText
