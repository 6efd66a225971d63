import NdsRecomp.Recompiler.DispatchRead

/-!
One file read back: its arrays fill the pools, and each row of its table offers
the validation the row names. Over the files of a run the owner kept for a key is
one of the largest, and holds its own bytes as long as no array's name stands for
two contents.
-/

namespace NdsRecomp.Recompiler.DispatchText

open Library Dispatch

/-! ### What is printed on one line -/

/-- The texts put into a file break no line, and the bank's name splits no field. -/
structure BankDispatch.Plain (b : BankDispatch) : Prop where
  bank : PlainName b.bank.toList
  names : ∀ s ∈ b.superblocks, '\n' ∉ s.leader.name.toList
  routines : ∀ r ∈ b.hleRoutines,
    '\n' ∉ r.id.toList ∧ '\n' ∉ r.contentSha1.toList ∧ '\n' ∉ r.descriptorSymbol.toList

theorem plain_underscore (n : Nat) : PlainName ('_' :: numeral 10 n) :=
  (show PlainName ['_'] by decide).append (plain_decimal n)

section Plain

variable {b : BankDispatch} (hb : b.Plain)

include hb

theorem plain_fnPrefix : PlainName b.fnPrefix := by
  unfold BankDispatch.fnPrefix
  rw [String.toList_append]
  exact hb.bank.append (by decide)

theorem plain_validationSymbol (leader : Nat) : PlainName (b.validationSymbol leader) := by
  have hnumber : PlainName ('_' :: numeral 10 leader) := plain_underscore leader
  have hstart : PlainName "g_validation_".toList := by decide
  exact ((hstart.append (plain_fnPrefix hb)).append hnumber).take 127

theorem plain_closureSymbol : PlainName b.closureSymbol :=
  PlainName.append (by decide) (plain_fnPrefix hb)

theorem plain_rangeSymbol (index : Nat) : PlainName (b.rangeSymbol index) := by
  have hnumber : PlainName ('_' :: numeral 10 index) := plain_underscore index
  exact ((plain_closureSymbol hb).append hnumber).append (by decide)

theorem plain_rowValidation (s : Superblock) : PlainName (b.rowValidation s) := by
  unfold BankDispatch.rowValidation
  split
  · exact (show PlainName ['&'] by decide).append (plain_validationSymbol hb s.index)
  · decide

theorem plain_record {r : ValidationRecord} (hr : r ∈ b.records) : PlainName r.symbol := by
  have hfrom : ∀ blocks : List Superblock, ∀ r ∈ b.recordsFrom blocks, PlainName r.symbol := by
    intro blocks
    induction blocks with
    | nil => exact fun r hr => absurd hr List.not_mem_nil
    | cons s blocks ih =>
        intro r hr
        rw [BankDispatch.recordsFrom] at hr
        split at hr
        · exact absurd hr List.not_mem_nil
        · rcases List.mem_cons.mp hr with rfl | hr
          · exact plain_validationSymbol hb s.index
          · exact ih r hr
  unfold BankDispatch.records at hr
  split at hr
  · exact hfrom _ r hr
  · exact absurd hr List.not_mem_nil

theorem plain_recordArray {a : Line × List UInt8} (ha : a ∈ b.recordArrays) : PlainName a.1 := by
  obtain ⟨r, hr, rfl⟩ := List.mem_map.mp ha
  exact (plain_record hb hr).append (by decide)

theorem plain_range {a : Line × List UInt8} (ha : a ∈ b.ranges) : PlainName a.1 := by
  have hfrom : ∀ spans index, ∀ a ∈ b.rangesFrom index spans, PlainName a.1 := by
    intro spans
    induction spans with
    | nil => exact fun _ a ha => absurd ha List.not_mem_nil
    | cons span spans ih =>
        intro index a ha
        rw [BankDispatch.rangesFrom] at ha
        split at ha
        · exact absurd ha List.not_mem_nil
        · rcases List.mem_cons.mp ha with rfl | ha
          · exact plain_rangeSymbol hb index
          · exact ih (index + 1) a ha
  exact hfrom _ _ a ha

end Plain

/-- A row of the table comes from one of the superblocks. -/
theorem mem_rows {b : BankDispatch} {r : TableRow} (hr : r ∈ b.rows) :
    ∃ s ∈ b.superblocks, r ∈ b.superblockRows s :=
  List.mem_flatMap.mp ((List.mem_insertionSort BankDispatch.tableRowLe).mp
    ((uniqueByKey_sublist _ _).subset hr))

theorem mem_superblockRows {b : BankDispatch} {s : Superblock} {r : TableRow}
    (hr : r ∈ b.superblockRows s) :
    r.block = s ∧ r.validation = b.rowValidation s ∧ r.fn = (b.bank ++ "_") ++ s.leader.name := by
  obtain ⟨fn, -, hr⟩ := List.mem_flatMap.mp hr
  obtain ⟨pc, -, rfl⟩ := List.mem_map.mp hr
  exact ⟨rfl, rfl, rfl⟩

/-- A text without a line break. -/
abbrev OneLine (s : Line) : Prop := '\n' ∉ s

theorem OneLine.append {s t : Line} (hs : OneLine s) (ht : OneLine t) : OneLine (s ++ t) :=
  fun hmem => (List.mem_append.mp hmem).elim hs ht

theorem oneLine_pairText (addr : UInt32) (n : Nat) : OneLine (pairText addr n) :=
  .append (by decide) (.append (plain_hex8 addr).newline
    (.append (by decide) (.append (plain_decimal n).newline (by decide))))

theorem oneLine_byteLines (count : Nat) (bytes : List UInt8) :
    ∀ line ∈ byteLines count bytes, OneLine line := by
  induction count generalizing bytes with
  | zero => exact fun line hline => absurd hline List.not_mem_nil
  | succ count ih =>
      intro line hline
      cases bytes with
      | nil => exact absurd hline List.not_mem_nil
      | cons byte bytes =>
          rcases List.mem_cons.mp hline with rfl | hline
          · exact not_mem_byteLine (by decide) _
          · exact ih _ line hline

theorem oneLine_arrayLines {symbol : Line} (h : PlainName symbol) (bytes : List UInt8) :
    ∀ line ∈ arrayLines symbol bytes, OneLine line := by
  unfold arrayLines
  intro line hline
  simp only [List.mem_append, List.mem_cons, List.not_mem_nil, or_false] at hline
  obtain (rfl | hline) | rfl | rfl := hline
  · exact .append (by decide) (.append h.newline (by decide))
  · exact oneLine_byteLines _ _ line hline
  · decide
  · exact List.not_mem_nil

/-- A line the reader passes over, printed as one line. -/
structure Passed (line : Line) : Prop where
  inert : Inert line
  oneLine : OneLine line

namespace Passed

theorem nil : Passed [] := ⟨inert_nil, List.not_mem_nil⟩

theorem text {line : Line} (h : Apart line) (hline : OneLine line) : Passed line :=
  ⟨inert_text h, hline⟩

theorem append {start rest : Line} (h : Apart start) (hstart : OneLine start)
    (hrest : OneLine rest) : Passed (start ++ rest) :=
  ⟨inert_append h rest, hstart.append hrest⟩

end Passed

section Lines

variable {b : BankDispatch} (hb : b.Plain)

include hb

theorem passed_header : ∀ line ∈ b.headerLines, Passed line := by
  intro line hline
  simp only [BankDispatch.headerLines, List.mem_cons, List.not_mem_nil, or_false] at hline
  obtain rfl | rfl | rfl | rfl | rfl | rfl := hline
  · exact .text (by decide) (by decide)
  · exact .text (by decide) (by decide)
  · exact .text (by decide) (by decide)
  · exact .text (by decide) (by decide)
  · rw [String.toList_append]
    exact .append (by decide) (by decide) (.append hb.bank.newline (by decide))
  · exact .nil

/-- The initializers of the ranges look like rows, and stand before the table. -/
theorem passed_rangeTable : ∀ line ∈ b.rangeTable, Passed line := by
  intro line hline
  unfold BankDispatch.rangeTable at hline
  split at hline
  · simp only [List.mem_append, List.mem_cons, List.not_mem_nil, or_false] at hline
    obtain (rfl | hline) | rfl | rfl := hline
    · exact .append (by decide) (by decide)
        (.append (plain_closureSymbol hb).newline (by decide))
    · obtain ⟨i, hi, rfl⟩ := List.mem_mapIdx.mp hline
      exact .append (by decide) (by decide) (.append (oneLine_pairText _ _)
        (.append (plain_rangeSymbol hb i).newline (by decide)))
    · exact .text (by decide) (by decide)
    · exact .nil
  · exact absurd hline List.not_mem_nil

theorem oneLine_closureText : OneLine b.closureText := by
  unfold BankDispatch.closureText
  split
  · exact (plain_closureSymbol hb).newline
  · decide

theorem oneLine_validation {r : ValidationRecord} (hr : r ∈ b.records) :
    OneLine (b.validationLine r) :=
  .append (by decide) (.append (plain_record hb hr).newline (.append (by decide)
    (.append (oneLine_pairText _ _) (.append ((plain_record hb hr).append (by decide)).newline
      (.append (by decide) (.append (oneLine_closureText hb) (.append (by decide)
        (.append (plain_decimal _).newline (by decide)))))))))

theorem descriptor_mem {d : HleRoutine × Line} (hd : d ∈ b.descriptors) :
    d.1 ∈ b.hleRoutines ∧ OneLine d.2 := by
  have hfrom : ∀ routines : List HleRoutine, ∀ d ∈ b.descriptorsFrom routines,
      d.1 ∈ routines ∧ OneLine d.2 := by
    intro routines
    induction routines with
    | nil => exact fun d hd => absurd hd List.not_mem_nil
    | cons routine routines ih =>
        intro d hd
        rw [BankDispatch.descriptorsFrom] at hd
        split at hd
        · exact absurd hd List.not_mem_nil
        · next validation hvalidation =>
            rcases List.mem_cons.mp hd with rfl | hd
            · refine ⟨List.mem_cons_self, ?_⟩
              unfold BankDispatch.routineValidation at hvalidation
              split at hvalidation
              · obtain ⟨s, -, rfl⟩ := Option.map_eq_some_iff.mp hvalidation
                exact (plain_rowValidation hb s).newline
              · cases hvalidation
            · exact ⟨List.mem_cons_of_mem _ (ih d hd).1, (ih d hd).2⟩
  exact hfrom _ d hd

theorem passed_descriptor {d : HleRoutine × Line} (hd : d ∈ b.descriptors) :
    ∀ line ∈ b.descriptorLines d, Passed line := by
  obtain ⟨hmem, hsymbol⟩ := descriptor_mem hb hd
  obtain ⟨hid, hsha, hname⟩ := hb.routines d.1 hmem
  intro line hline
  simp only [BankDispatch.descriptorLines, List.mem_cons, List.not_mem_nil, or_false] at hline
  obtain rfl | rfl | rfl | rfl | rfl := hline
  · exact .append (by decide) (by decide) (.append hname (by decide))
  · exact .append (by decide) (by decide) (.append hid (.append (by decide)
      (.append hb.bank.newline (.append (by decide) (.append (plain_hex8 _).newline
        (.append (by decide) (.append (plain_hex8 _).newline (.append (by decide)
          (.append (plain_decimal _).newline (.append (by decide)
            (.append (plain_decimal _).newline (by decide))))))))))))
  · exact .append (by decide) (by decide) (.append hsha (.append (by decide) hsymbol))
  · exact .text (by decide) (by decide)
  · exact .nil

theorem passed_descriptorTable : ∀ line ∈ b.descriptorTable, Passed line := by
  intro line hline
  simp only [BankDispatch.descriptorTable, List.mem_append, List.mem_cons, List.not_mem_nil,
    or_false, List.mem_map] at hline
  obtain (rfl | ⟨r, hr, rfl⟩) | rfl | rfl | rfl | rfl := hline
  · exact .append (by decide) (by decide) (.append hb.bank.newline (by decide))
  · exact .append (by decide) (by decide) (.append (hb.routines r hr).2.2 (by decide))
  · exact .text (by decide) (by decide)
  · exact .append (by decide) (by decide) (.append hb.bank.newline (.append (by decide)
      (.append (plain_decimal _).newline (by decide))))
  · exact .text (by decide) (by decide)
  · exact .nil

theorem passed_hle : ∀ line ∈ b.hleLines, Passed line := by
  intro line hline
  unfold BankDispatch.hleLines at hline
  split at hline
  · exact absurd hline List.not_mem_nil
  · rcases List.mem_append.mp hline with hline | hline
    · rcases List.mem_append.mp hline with hline | hline
      · rw [List.mem_singleton.mp hline]
        exact .text (by decide) (by decide)
      · obtain ⟨d, hd, hline⟩ := List.mem_flatMap.mp hline
        exact passed_descriptor hb hd line hline
    · split at hline
      · exact passed_descriptorTable hb line hline
      · exact absurd hline List.not_mem_nil

theorem oneLine_row {r : TableRow} (hr : r ∈ b.rows) : OneLine (rowLine r) := by
  obtain ⟨s, hs, hr⟩ := mem_rows hr
  obtain ⟨-, hvalidation, hfn⟩ := mem_superblockRows hr
  have hname : OneLine r.fn.toList := by
    rw [hfn, String.toList_append, String.toList_append]
    exact .append (.append hb.bank.newline (by decide)) (hb.names s hs)
  have hsymbol : OneLine (',' :: ' ' :: r.validation) := by
    rw [hvalidation]
    exact (show OneLine [',', ' '] by decide).append (plain_rowValidation hb s).newline
  exact .append (by decide) (.append (oneLine_pairText _ _) (.append (.append hname hsymbol)
    (by decide)))

theorem oneLine_table : ∀ line ∈ b.tableLines, OneLine line := by
  intro line hline
  simp only [BankDispatch.tableLines, List.mem_append, List.mem_cons, List.not_mem_nil,
    or_false, List.mem_map] at hline
  obtain (rfl | ⟨r, hr, rfl⟩) | rfl | rfl := hline
  · rw [String.toList_append]
    exact .append (by decide) (.append (.append (by decide) hb.bank.newline) (by decide))
  · exact oneLine_row hb hr
  · decide
  · rw [String.toList_append, String.toList_append]
    exact .append (by decide) (.append (.append (.append (by decide) hb.bank.newline) (by decide))
      (.append (by decide) (.append (plain_decimal _).newline (by decide))))

theorem oneLine_lines : ∀ line ∈ b.lines, OneLine line := by
  intro line hline
  unfold BankDispatch.lines at hline
  rcases List.mem_append.mp hline with hline | hline
  · rcases List.mem_append.mp hline with hline | hline
    · exact (passed_header hb line hline).oneLine
    · obtain ⟨a, ha, hline⟩ := List.mem_flatMap.mp hline
      exact oneLine_arrayLines (plain_recordArray hb ha) _ line hline
  split at hline
  · exact absurd hline List.not_mem_nil
  rcases List.mem_append.mp hline with hline | hline
  · obtain ⟨a, ha, hline⟩ := List.mem_flatMap.mp hline
    exact oneLine_arrayLines (plain_range hb ha) _ line hline
  split at hline
  · exact absurd hline List.not_mem_nil
  simp only [List.mem_append, List.mem_flatMap] at hline
  obtain ((hline | ⟨r, hr, hline⟩) | hline) | hline := hline
  · exact (passed_rangeTable hb line hline).oneLine
  · rcases List.mem_cons.mp hline with rfl | hline
    · exact oneLine_validation hb hr
    · rw [List.mem_singleton.mp hline]
      exact List.not_mem_nil
  · exact (passed_hle hb line hline).oneLine
  · split at hline
    · exact absurd hline List.not_mem_nil
    · exact oneLine_table hb line hline

end Lines

/-! ### One file -/

/-- The arrays that are printed, under their names. -/
def BankDispatch.arrays (b : BankDispatch) : List (Line × List UInt8) :=
  b.recordArrays ++ if b.recordsWritten then b.ranges else []

def setArrays (out : PrecedingDispatch) (arrays : List (Line × List UInt8)) : PrecedingDispatch :=
  arrays.foldl (fun out a => out.setPool a.1 a.2) out

def BankDispatch.validationTable (b : BankDispatch) : Line → Option ValidationInfo :=
  b.records.foldl (fun table r => Function.update table r.symbol (some r.info)) fun _ => none

theorem run_arrays {arrays : List (Line × List UInt8)} (h : ∀ a ∈ arrays, PlainName a.1)
    (out : PrecedingDispatch) (table : Line → Option ValidationInfo) :
    run ⟨out, table, none, false⟩ (arrays.flatMap fun a => arrayLines a.1 a.2) =
      ⟨setArrays out arrays, table, none, false⟩ := by
  induction arrays generalizing out with
  | nil => rfl
  | cons a arrays ih =>
      have hfirst : run ⟨out, table, none, false⟩ (arrayLines a.1 a.2) =
          ⟨out.setPool a.1 a.2, table, none, false⟩ :=
        run_array ⟨rfl, rfl⟩ (h a List.mem_cons_self).blank a.2
      rw [List.flatMap_cons, run_append, hfirst, ih fun c hc => h c (List.mem_cons_of_mem _ hc)]
      rfl

theorem run_validations (b : BankDispatch) {records : List ValidationRecord}
    (h : ∀ r ∈ records, PlainName r.symbol) (out : PrecedingDispatch)
    (table : Line → Option ValidationInfo) :
    run ⟨out, table, none, false⟩ (records.flatMap fun r => [b.validationLine r, []]) =
      ⟨out, records.foldl (fun table r => Function.update table r.symbol (some r.info)) table,
        none, false⟩ := by
  induction records generalizing table with
  | nil => rfl
  | cons r records ih =>
      have hfirst : ReadState.readLine ⟨out, table, none, false⟩ (b.validationLine r) =
          ⟨out, Function.update table r.symbol (some r.info), none, false⟩ :=
        readLine_validation ⟨rfl, rfl⟩ b (h r List.mem_cons_self)
      have hblank : run ⟨out, Function.update table r.symbol (some r.info), none, false⟩ [[]] =
          ⟨out, Function.update table r.symbol (some r.info), none, false⟩ :=
        run_inert ⟨rfl, rfl⟩ fun line hline => List.mem_singleton.mp hline ▸ inert_nil
      rw [List.flatMap_cons, run_append, run_cons, hfirst, hblank,
        ih fun s hs => h s (List.mem_cons_of_mem _ hs)]
      rfl

theorem run_table {b : BankDispatch} (hb : b.Plain) (out : PrecedingDispatch)
    (table : Line → Option ValidationInfo) :
    (run ⟨out, table, none, false⟩ b.tableLines).out = b.rows.foldl (acceptRow table) out := by
  have hstart : run ⟨out, table, none, false⟩
      [tableStart ++ (("g_dispatch_" ++ b.bank).toList ++ bytesOpen)] =
      ⟨out, table, none, true⟩ := by
    have hline : tableStart.isPrefixOf
        (tableStart ++ (("g_dispatch_" ++ b.bank).toList ++ bytesOpen)) = true := isPrefixOf_append _ _
    have hbytes : bytesStart.isPrefixOf
        (tableStart ++ (("g_dispatch_" ++ b.bank).toList ++ bytesOpen)) = false :=
      isPrefixOf_apart (by decide) (by decide) _
    have hvalidation : validationStart.isPrefixOf
        (tableStart ++ (("g_dispatch_" ++ b.bank).toList ++ bytesOpen)) = false :=
      isPrefixOf_apart (by decide) (by decide) _
    rw [run_cons, run_nil, readLine_outside rfl]
    unfold ReadState.readOther
    simp only [hbytes, hvalidation, hline, Bool.false_eq_true, if_false, if_true]
  have hrows : run ⟨out, table, none, true⟩ (b.rows.map rowLine) =
      ⟨b.rows.foldl (acceptRow table) out, table, none, true⟩ := by
    refine run_rows (fun r hr => ?_) rfl rfl
    obtain ⟨s, -, hs⟩ := mem_rows hr
    rw [(mem_superblockRows hs).2.1]
    exact plain_rowValidation hb s
  have hclose : ∀ τ : ReadState, τ.collecting = none → τ.readLine "\x7d;".toList = τ :=
    fun τ hτ => readLine_noRow hτ (inert_text (by decide)) (by decide)
  have hlength : ∀ (τ : ReadState) (rest : Line), τ.collecting = none →
      τ.readLine ("const unsigned ".toList ++ rest) = τ :=
    fun τ rest hτ => readLine_noRow hτ (inert_append (by decide) _) rfl
  unfold BankDispatch.tableLines
  rw [run_append, run_append, hstart, hrows, run_cons, run_cons, run_nil, hclose _ rfl,
    hlength _ _ rfl]

/-- Reading a file back: its arrays, then the rows of its table. -/
theorem read_text {b : BankDispatch} (hb : b.Plain) (out : PrecedingDispatch) :
    readPrecedingDispatch b.text out =
      b.emittedRows.foldl (acceptRow b.validationTable) (setArrays out b.arrays) := by
  have hheader : run ⟨out, fun _ => none, none, false⟩ b.headerLines =
      ⟨out, fun _ => none, none, false⟩ :=
    run_inert ⟨rfl, rfl⟩ fun line hline => (passed_header hb line hline).inert
  have hrecords := run_arrays (fun a ha => plain_recordArray hb ha) out fun _ => none
  unfold readPrecedingDispatch BankDispatch.text
  rw [textLines_flatMap (oneLine_lines hb)]
  change (run ⟨out, fun _ => none, none, false⟩ b.lines).out = _
  unfold BankDispatch.lines BankDispatch.emittedRows BankDispatch.tableWritten BankDispatch.arrays
  rw [run_append, run_append, hheader, hrecords]
  cases hwritten : b.recordsWritten with
  | false => simp
  | true =>
      have hranges := run_arrays (fun a ha => plain_range hb ha) (setArrays out b.recordArrays)
        fun _ => none
      have hboth : setArrays out (b.recordArrays ++ b.ranges) =
          setArrays (setArrays out b.recordArrays) b.ranges := List.foldl_append
      simp only [Bool.not_true, Bool.false_eq_true, if_false, if_true, Bool.true_and]
      rw [run_append, hranges, hboth]
      cases hinside : b.rangesWritten with
      | false => simp
      | true =>
          simp only [Bool.not_true, Bool.false_eq_true, if_false, Bool.true_and]
          rw [run_append, run_append, run_append,
            run_inert ⟨rfl, rfl⟩ (fun line hline => (passed_rangeTable hb line hline).inert),
            run_validations b (fun r hr => plain_record hb hr),
            run_inert ⟨rfl, rfl⟩ fun line hline => (passed_hle hb line hline).inert]
          cases b.descriptorsWritten with
          | false => rfl
          | true => exact run_table hb _ _

end NdsRecomp.Recompiler.DispatchText
