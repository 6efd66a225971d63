import NdsRecomp.Recompiler.DispatchFiles
import NdsRecomp.Library.FirstMax

/-!
The owners a run of files leaves. A file offers, for each row with a validation,
the row's span; the owner of a key is the first of the largest spans offered, and
its bytes are read through the name of its array, where the last array printed
under that name stands.
-/

namespace NdsRecomp.Recompiler.DispatchText

open Library Dispatch

/-! ### Tables written in order -/

/-- The last entry under a name. -/
def lastNamed {α : Type} (l : List (Line × α)) (name : Line) : Option α :=
  (l.reverse.find? fun a => a.1 == name).map Prod.snd

theorem foldl_update {α : Type} (l : List (Line × α)) (table : Line → Option α) (name : Line) :
    l.foldl (fun (t : Line → Option α) a => Function.update t a.1 (some a.2)) table name =
      (lastNamed l name).or (table name) := by
  induction l generalizing table with
  | nil => rfl
  | cons a l ih =>
      rw [List.foldl_cons, ih]
      unfold lastNamed
      rw [List.reverse_cons, List.find?_append]
      cases l.reverse.find? fun a => a.1 == name with
      | some _ => rfl
      | none =>
          by_cases hname : a.1 = name
          · simp [hname]
          · simp [hname, Function.update_of_ne (Ne.symm hname)]

/-- Under the name of an entry stands the content of one of that name. -/
theorem lastNamed_exists {α : Type} {l : List (Line × α)} {a : Line × α} (ha : a ∈ l) :
    ∃ c, lastNamed l a.1 = some c.2 ∧ c ∈ l ∧ c.1 = a.1 := by
  have hfound : (l.reverse.find? fun c => c.1 == a.1).isSome :=
    List.find?_isSome.mpr ⟨a, List.mem_reverse.mpr ha, beq_self_eq_true _⟩
  obtain ⟨c, hc⟩ := Option.isSome_iff_exists.mp hfound
  have hlast : lastNamed l a.1 = some c.2 := by
    unfold lastNamed
    rw [hc]
    rfl
  have hname : c.1 = a.1 := by simpa using List.find?_some hc
  exact ⟨c, hlast, List.mem_reverse.mp (List.mem_of_find?_eq_some hc), hname⟩

theorem lastNamed_of_mem {α : Type} {l : List (Line × α)} (hl : (l.map Prod.fst).Nodup)
    {a : Line × α} (ha : a ∈ l) : lastNamed l a.1 = some a.2 := by
  obtain ⟨c, hlast, hc, hname⟩ := lastNamed_exists ha
  rw [hlast, List.inj_on_of_nodup_map hl hc ha hname]

theorem setArrays_pools (out : PrecedingDispatch) (arrays : List (Line × List UInt8))
    (name : Line) :
    (setArrays out arrays).bytePools name = (lastNamed arrays name).or (out.bytePools name) := by
  have hpools : (setArrays out arrays).bytePools =
      arrays.foldl (fun (t : Line → Option (List UInt8)) a => Function.update t a.1 (some a.2))
        out.bytePools := by
    induction arrays generalizing out with
    | nil => rfl
    | cons a arrays ih => exact ih (out.setPool a.1 a.2)
  rw [hpools, foldl_update]

theorem setArrays_owners (out : PrecedingDispatch) (arrays : List (Line × List UInt8)) :
    (setArrays out arrays).owners = out.owners ∧ (setArrays out arrays).keys = out.keys := by
  induction arrays generalizing out with
  | nil => exact ⟨rfl, rfl⟩
  | cons a arrays ih => exact ih (out.setPool a.1 a.2)

/-! ### What a file offers -/

/-- A row with a validation: the array it points to, and the span it covers. -/
structure ValidatedRow where
  key : UInt64
  array : Line
  addr : UInt32
  size : UInt32
  expected : List UInt8

namespace BankDispatch

def validatedRow (b : BankDispatch) (r : TableRow) : Option ValidatedRow :=
  if b.validateLiveBytes then
    (b.spanBytes r.block).map fun bytes =>
      ⟨r.dispatchKey, bytesSymbol (b.validationSymbol r.block.index), r.block.leader.addr,
        r.block.size, bytes⟩
  else none

def validatedRows (b : BankDispatch) : List ValidatedRow := b.emittedRows.filterMap b.validatedRow

/-- No two arrays of the file have one name. -/
def DistinctArrays (b : BankDispatch) : Prop := (b.arrays.map Prod.fst).Nodup

end BankDispatch

/-- Each superblock has its record once the loop over the leaders has ended. -/
theorem record_of_superblock {b : BankDispatch} (hvalidate : b.validateLiveBytes = true)
    (hwritten : b.recordsWritten = true) {s : Superblock} (hs : s ∈ b.superblocks) :
    ∃ r ∈ b.records, r.symbol = b.validationSymbol s.index ∧ r.addr = s.leader.addr ∧
      r.size = s.size ∧ b.spanBytes s = some r.expected := by
  have hle : ∀ blocks : List Superblock, (b.recordsFrom blocks).length ≤ blocks.length := by
    intro blocks
    induction blocks with
    | nil => exact Nat.le_refl 0
    | cons t blocks ih =>
        rw [BankDispatch.recordsFrom]
        split
        · exact Nat.zero_le _
        · exact Nat.succ_le_succ ih
  have hfrom : ∀ blocks : List Superblock, (b.recordsFrom blocks).length = blocks.length →
      ∀ s ∈ blocks, ∃ r ∈ b.recordsFrom blocks, r.symbol = b.validationSymbol s.index ∧
        r.addr = s.leader.addr ∧ r.size = s.size ∧ b.spanBytes s = some r.expected := by
    intro blocks
    induction blocks with
    | nil => exact fun _ s hs => absurd hs List.not_mem_nil
    | cons t blocks ih =>
        intro hlength s hs
        rw [BankDispatch.recordsFrom] at hlength ⊢
        split at hlength
        · cases hlength
        · next bytes hbytes =>
            rcases List.mem_cons.mp hs with rfl | hs
            · exact ⟨_, List.mem_cons_self, rfl, rfl, rfl, hbytes⟩
            · obtain ⟨r, hr, hrecord⟩ := ih (Nat.succ.inj hlength) s hs
              exact ⟨r, List.mem_cons_of_mem _ hr, hrecord⟩
  have hrecords : b.records = b.recordsFrom b.superblocks := by
    unfold BankDispatch.records
    exact if_pos hvalidate
  have hlength : b.records.length = b.superblocks.length := by
    unfold BankDispatch.recordsWritten at hwritten
    simpa [hvalidate] using hwritten
  rw [hrecords] at hlength ⊢
  exact hfrom _ hlength s hs

theorem validationTable_record {b : BankDispatch} (hb : b.DistinctArrays) {r : ValidationRecord}
    (hr : r ∈ b.records) : b.validationTable r.symbol = some r.info := by
  have hsymbols : ((b.records.map fun r => (r.symbol, r.info)).map Prod.fst).Nodup := by
    have harrays : (b.recordArrays.map Prod.fst).Nodup := by
      unfold BankDispatch.DistinctArrays BankDispatch.arrays at hb
      rw [List.map_append] at hb
      exact hb.of_append_left
    unfold BankDispatch.recordArrays at harrays
    rw [List.map_map] at harrays ⊢
    exact List.Nodup.of_map (fun symbol => bytesSymbol symbol) (by rwa [List.map_map])
  have htable : b.validationTable r.symbol =
      (lastNamed (b.records.map fun r => (r.symbol, r.info)) r.symbol).or none := by
    rw [← foldl_update _ (fun _ => none), List.foldl_map]
    rfl
  have hlast := lastNamed_of_mem hsymbols (List.mem_map_of_mem hr)
  rw [htable, hlast]
  rfl

theorem mem_emittedRows {b : BankDispatch} {r : TableRow} (hr : r ∈ b.emittedRows) :
    b.recordsWritten = true ∧ r ∈ b.rows := by
  unfold BankDispatch.emittedRows at hr
  split at hr
  · next hwritten =>
      unfold BankDispatch.tableWritten at hwritten
      simp only [Bool.and_eq_true] at hwritten
      exact ⟨hwritten.1.1, hr⟩
  · exact absurd hr List.not_mem_nil

def ValidatedRow.info (v : ValidatedRow) : ValidationInfo := ⟨v.addr, v.size, v.array⟩

def ValidatedRow.owner (v : ValidatedRow) : Owner := ⟨v.addr, v.size, v.array⟩

/-- The reader finds a row's own validation by the names. -/
theorem namedValidation_row {b : BankDispatch} (hb : b.DistinctArrays)
    {pools : Line → Option (List UInt8)} (hpools : ∀ a ∈ b.arrays, pools a.1 = some a.2)
    {r : TableRow} (hr : r ∈ b.emittedRows) :
    namedValidation b.validationTable pools r.validation =
      (b.validatedRow r).map ValidatedRow.info := by
  obtain ⟨hwritten, hrow⟩ := mem_emittedRows hr
  obtain ⟨s, hs, hblock⟩ := mem_rows hrow
  obtain ⟨hsame, hvalidation, -⟩ := mem_superblockRows hblock
  unfold BankDispatch.validatedRow
  rw [hvalidation, hsame]
  unfold BankDispatch.rowValidation
  cases hvalidate : b.validateLiveBytes with
  | false => rfl
  | true =>
      obtain ⟨record, hrecord, hsymbol, haddr, hsize, hbytes⟩ :=
        record_of_superblock hvalidate hwritten hs
      have htable := validationTable_record hb hrecord
      have hpool : pools (bytesSymbol record.symbol) = some record.expected :=
        hpools (bytesSymbol record.symbol, record.expected)
          (List.mem_append_left _ (List.mem_map.mpr ⟨record, hrecord, rfl⟩))
      rw [hsymbol] at htable hpool
      have hinfo : record.info =
          ⟨s.leader.addr, s.size, bytesSymbol (b.validationSymbol s.index)⟩ := by
        unfold ValidationRecord.info
        rw [haddr, hsize, hsymbol]
      have hlength : record.expected.length = s.size.toNat := hsize ▸ record.expected_length
      simp only [if_true, namedValidation, htable, hinfo, hbytes, Option.map_some]
      rw [Option.filter_some, if_pos]
      · rfl
      · simp [hpool, hlength]

/-! ### The rows of a file -/

/-- The span of a row counts by its size. -/
def ValidatedRow.rank (v : ValidatedRow) : Nat := v.size.toNat

/-- The rows at a key. -/
def rowsAt (key : UInt64) (rows : List ValidatedRow) : List ValidatedRow :=
  rows.filter fun v => v.key == key

theorem offer_info (best : Option ValidatedRow) (v : ValidatedRow) :
    offer (best.map ValidatedRow.owner) v.info =
      (firstMax ValidatedRow.rank best (some v)).map ValidatedRow.owner := by
  cases best with
  | none => rfl
  | some w =>
      change (if v.size ≤ w.size then some w.owner else some v.owner) =
        (if w.size.toNat < v.size.toNat then some v else some w).map ValidatedRow.owner
      by_cases hle : v.size ≤ w.size
      · rw [if_pos hle, if_neg (not_lt.mpr (UInt32.le_iff_toNat_le.mp hle))]
        rfl
      · have hlt : w.size.toNat < v.size.toNat := by
          rw [UInt32.le_iff_toNat_le] at hle
          omega
        rw [if_neg hle, if_pos hlt]
        rfl

theorem rowsAt_one (key : UInt64) (v : ValidatedRow) :
    rowsAt key [v] = if v.key = key then [v] else [] := by
  unfold rowsAt
  by_cases h : v.key = key
  · simp [h]
  · simp [h]

theorem validatedRow_key {b : BankDispatch} {r : TableRow} {v : ValidatedRow}
    (h : b.validatedRow r = some v) : v.key = r.dispatchKey := by
  unfold BankDispatch.validatedRow at h
  split at h
  · obtain ⟨bytes, -, rfl⟩ := Option.map_eq_some_iff.mp h
    rfl
  · cases h

section Rows

variable {b : BankDispatch} {table : Line → Option ValidationInfo}
  {pools : Line → Option (List UInt8)}

/-- One row: its key goes in, and its span is offered to the owner of the key. -/
theorem acceptRow_spec {out : PrecedingDispatch} {r : TableRow}
    (h : namedValidation table out.bytePools r.validation =
      (b.validatedRow r).map ValidatedRow.info) :
    (acceptRow table out r).keys = r.dispatchKey :: out.keys ∧
      (acceptRow table out r).bytePools = out.bytePools ∧
      ∀ key best, out.owners key = Option.map ValidatedRow.owner best →
        (acceptRow table out r).owners key =
          (firstMax ValidatedRow.rank best (firstMaxOf ValidatedRow.rank
            (rowsAt key (b.validatedRow r).toList))).map ValidatedRow.owner := by
  unfold acceptRow
  dsimp only
  rw [h]
  cases hrow : b.validatedRow r with
  | none =>
      refine ⟨rfl, rfl, fun key best hbest => ?_⟩
      rw [show firstMaxOf ValidatedRow.rank (rowsAt key (Option.toList none)) = none from rfl,
        firstMax_none_right]
      exact hbest
  | some v =>
      refine ⟨rfl, rfl, fun key best hbest => ?_⟩
      have hkey := validatedRow_key hrow
      unfold PrecedingDispatch.offerAt
      simp only [Option.map_some, Option.toList_some]
      rw [rowsAt_one, hkey]
      by_cases hsame : r.dispatchKey = key
      · rw [if_pos hsame, hsame, Function.update_self, hbest, offer_info]
        rfl
      · rw [if_neg hsame, Function.update_of_ne (Ne.symm hsame), hbest]
        exact congrArg (Option.map ValidatedRow.owner) (firstMax_none_right _ best).symm

/-- By induction on the rows: the pools stay, so every row finds its validation. -/
theorem foldl_acceptRow {rows : List TableRow} {out : PrecedingDispatch}
    (h : ∀ r ∈ rows, namedValidation table out.bytePools r.validation =
      (b.validatedRow r).map ValidatedRow.info) :
    (∀ key, key ∈ (rows.foldl (acceptRow table) out).keys ↔
        key ∈ out.keys ∨ ∃ r ∈ rows, r.dispatchKey = key) ∧
      (rows.foldl (acceptRow table) out).bytePools = out.bytePools ∧
      ∀ key best, out.owners key = Option.map ValidatedRow.owner best →
        (rows.foldl (acceptRow table) out).owners key =
          (firstMax ValidatedRow.rank best (firstMaxOf ValidatedRow.rank
            (rowsAt key (rows.filterMap b.validatedRow)))).map ValidatedRow.owner := by
  induction rows generalizing out with
  | nil =>
      refine ⟨fun key => ?_, rfl, fun key best hbest => ?_⟩
      · simp
      · rw [show firstMaxOf ValidatedRow.rank (rowsAt key (List.filterMap b.validatedRow [])) =
          none from rfl, firstMax_none_right]
        exact hbest
  | cons r rows ih =>
      obtain ⟨hkeys, hpools, howners⟩ := acceptRow_spec (h r List.mem_cons_self)
      obtain ⟨ihkeys, ihpools, ihowners⟩ := ih fun s hs => by
        rw [hpools]
        exact h s (List.mem_cons_of_mem _ hs)
      rw [List.foldl_cons]
      refine ⟨fun key => ?_, ihpools.trans hpools, fun key best hbest => ?_⟩
      · rw [ihkeys, hkeys, List.mem_cons]
        constructor
        · rintro ((rfl | hkey) | ⟨s, hs, hkey⟩)
          · exact Or.inr ⟨r, List.mem_cons_self, rfl⟩
          · exact Or.inl hkey
          · exact Or.inr ⟨s, List.mem_cons_of_mem _ hs, hkey⟩
        · rintro (hkey | ⟨s, hs, hkey⟩)
          · exact Or.inl (Or.inr hkey)
          · rcases List.mem_cons.mp hs with rfl | hs
            · exact Or.inl (Or.inl hkey.symm)
            · exact Or.inr ⟨s, hs, hkey⟩
      · have hsplit : rowsAt key ((r :: rows).filterMap b.validatedRow) =
            rowsAt key (b.validatedRow r).toList ++ rowsAt key (rows.filterMap b.validatedRow) := by
          unfold rowsAt
          rw [← List.filter_append, List.filterMap_cons]
          cases b.validatedRow r <;> rfl
        rw [ihowners key _ (howners key best hbest), firstMax_assoc, hsplit, firstMaxOf_append]

end Rows

/-! ### A run of files -/

/-- The first of the largest spans that the rows at a key cover. -/
def keptRow (files : List BankDispatch) (key : UInt64) : Option ValidatedRow :=
  firstMaxOf ValidatedRow.rank (rowsAt key (files.flatMap BankDispatch.validatedRows))

/-- The bytes of the last array printed under a name. -/
def lastArray (files : List BankDispatch) (name : Line) : Option (List UInt8) :=
  lastNamed (files.flatMap BankDispatch.arrays) name

/-- What the reader holds after the files: keys, owners, and the pools they point into. -/
structure ReadOf (files : List BankDispatch) (out : PrecedingDispatch) : Prop where
  keys : ∀ key, key ∈ out.keys ↔ ∃ b ∈ files, ∃ r ∈ b.emittedRows, r.dispatchKey = key
  owners : ∀ key, out.owners key = (keptRow files key).map ValidatedRow.owner
  pools : ∀ name, out.bytePools name = lastArray files name

theorem readOf_nil : ReadOf [] PrecedingDispatch.empty where
  keys key := by simp [PrecedingDispatch.empty]
  owners _ := rfl
  pools _ := rfl

theorem lastNamed_append {α : Type} (l r : List (Line × α)) (name : Line) :
    lastNamed (l ++ r) name = (lastNamed r name).or (lastNamed l name) := by
  unfold lastNamed
  rw [List.reverse_append, List.find?_append, Option.map_or]

/-- One more file. -/
theorem readOf_step {files : List BankDispatch} {out : PrecedingDispatch} (h : ReadOf files out)
    {b : BankDispatch} (hplain : b.Plain) (hdistinct : b.DistinctArrays) :
    ReadOf (files ++ [b]) (readPrecedingDispatch b.text out) := by
  obtain ⟨hsetOwners, hsetKeys⟩ := setArrays_owners out b.arrays
  have hpools : ∀ a ∈ b.arrays, (setArrays out b.arrays).bytePools a.1 = some a.2 := by
    intro a ha
    rw [setArrays_pools, lastNamed_of_mem hdistinct ha]
    rfl
  have hrows : ∀ r ∈ b.emittedRows, namedValidation b.validationTable
      (setArrays out b.arrays).bytePools r.validation =
      (b.validatedRow r).map ValidatedRow.info :=
    fun r hr => namedValidation_row hdistinct hpools hr
  obtain ⟨hkeys, hsame, howners⟩ := foldl_acceptRow hrows
  rw [read_text hplain]
  refine ⟨fun key => ?_, fun key => ?_, fun name => ?_⟩
  · rw [hkeys, hsetKeys, h.keys]
    simp only [List.mem_append, List.mem_singleton]
    constructor
    · rintro (⟨c, hc, hrow⟩ | hrow)
      · exact ⟨c, Or.inl hc, hrow⟩
      · exact ⟨b, Or.inr rfl, hrow⟩
    · rintro ⟨c, hc | rfl, hrow⟩
      · exact Or.inl ⟨c, hc, hrow⟩
      · exact Or.inr hrow
  · rw [howners key (keptRow files key) (by rw [hsetOwners, h.owners])]
    unfold keptRow rowsAt
    rw [List.flatMap_append, List.filter_append, firstMaxOf_append, List.flatMap_singleton]
    rfl
  · rw [hsame, setArrays_pools, h.pools]
    unfold lastArray
    rw [List.flatMap_append, lastNamed_append, List.flatMap_singleton]

theorem readOf_all {files : List BankDispatch} (hplain : ∀ b ∈ files, b.Plain)
    (hdistinct : ∀ b ∈ files, b.DistinctArrays) : ReadOf files (readAll files) := by
  induction files using List.reverseRecOn with
  | nil => exact readOf_nil
  | append_singleton files b ih =>
      have hfiles := ih (fun c hc => hplain c (List.mem_append_left _ hc))
        fun c hc => hdistinct c (List.mem_append_left _ hc)
      have hb : b ∈ files ++ [b] := by simp
      have hstep := readOf_step hfiles (hplain b hb) (hdistinct b hb)
      unfold readAll at hstep ⊢
      rwa [List.foldl_append]

end NdsRecomp.Recompiler.DispatchText
