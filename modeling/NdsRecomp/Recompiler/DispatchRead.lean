import NdsRecomp.Recompiler.DispatchText
import NdsRecomp.Recompiler.EmittedOnce

/-!
What the reader does with each part the writer prints: a byte array fills its
pool, an initializer records its validation, a row adds its key and offers the
validation it names, and the other lines leave everything as it was.
-/

namespace NdsRecomp.Recompiler.DispatchText

open Library Dispatch

/-! ### Numbers -/

theorem endsNumeral_u (rest : Line) : EndsNumeral ('u' :: rest) := by
  intro c hc
  cases hc
  decide

/-- The initial pair of an initializer or a row is read back. -/
theorem scanPair_pairText (addr : UInt32) {n : Nat} (hn : n < 2 ^ 32) (rest : Line) :
    scanPair (pairText addr n ++ rest) = some (addr, UInt32.ofNat n) := by
  have haddr : scanUnsigned 16
      (hex8 addr ++ 'u' :: (", ".toList ++ (decimal n ++ ("u, ".toList ++ rest)))) =
      some (addr.toNat, 'u' :: (", ".toList ++ (decimal n ++ ("u, ".toList ++ rest)))) :=
    scanUnsigned_padded 8 (by decide) (by decide) (by have := addr.toNat_lt; omega)
      (endsNumeral_u _)
  have hcount : scanUnsigned 10 (decimal n ++ 'u' :: (", ".toList ++ rest)) =
      some (n, 'u' :: (", ".toList ++ rest)) :=
    scanUnsigned_numeral (by decide) (by decide) (by omega) (endsNumeral_u _)
  have hblank : scanUnsigned 10 (' ' :: (decimal n ++ 'u' :: (", ".toList ++ rest))) =
      scanUnsigned 10 (decimal n ++ 'u' :: (", ".toList ++ rest)) := rfl
  have htext : pairText addr n ++ rest = "\x7b0x".toList ++
      (hex8 addr ++ 'u' :: (", ".toList ++ (decimal n ++ ("u, ".toList ++ rest)))) := by
    unfold pairText
    simp only [List.append_assoc]
    rfl
  have hcomma : 'u' :: (", ".toList ++ (decimal n ++ ("u, ".toList ++ rest))) =
      "u,".toList ++ (' ' :: (decimal n ++ 'u' :: (", ".toList ++ rest))) := rfl
  rw [hcomma] at haddr
  unfold scanPair
  rw [htext, scanLiteral_append, hcomma]
  simp only [bind, Option.bind, haddr, scanLiteral_append, hblank, hcount, pure]
  rw [UInt32.ofNat_toNat]

/-! ### Bytes -/

theorem scanBytes_skip {c d : Char} (rest : Line) (h : c ≠ '0' ∨ d ≠ 'x') :
    scanBytes (c :: d :: rest) = scanBytes (d :: rest) := by
  rw [scanBytes.eq_def]
  split
  · next heq =>
      obtain ⟨rfl, htail⟩ := List.cons.inj heq
      obtain ⟨rfl, -⟩ := List.cons.inj htail
      simp at h
  · next _ heq =>
      obtain ⟨-, rfl⟩ := List.cons.inj heq
      rfl
  · next heq => cases heq

theorem paddedByte (byte : UInt8) :
    ∃ c d, paddedNumeral 16 2 byte.toNat = [c, d] ∧ isDigitIn 16 c = true ∧
      isDigitIn 16 d = true := by
  have hlength : (paddedNumeral 16 2 byte.toNat).length = 2 := by
    have hle : (numeral 16 byte.toNat).length ≤ 2 := by
      unfold numeral
      rw [List.length_map, Nat.length_toDigits_le_iff (by decide) (by decide)]
      exact byte.toNat_lt
    unfold paddedNumeral
    rw [List.length_append, List.length_replicate]
    omega
  obtain ⟨c, d, htext⟩ := List.length_eq_two.mp hlength
  have hdigits := paddedNumeral_digits (Nat.one_lt_ofNat : 1 < 16) (le_refl 16) 2 byte.toNat
  rw [htext] at hdigits
  exact ⟨c, d, htext, hdigits c (by simp), hdigits d (by simp)⟩

theorem scanBytes_byteText (byte : UInt8) (rest : Line) :
    scanBytes (byteText byte ++ rest) = byte :: scanBytes (',' :: rest) := by
  obtain ⟨c, d, htext, hc, hd⟩ := paddedByte byte
  have hvalue : scanUnsigned 16 [c, d] = some (byte.toNat, []) := by
    have hpadded : scanUnsigned 16 (paddedNumeral 16 2 byte.toNat ++ []) = some (byte.toNat, []) :=
      scanUnsigned_padded 2 (by decide) (by decide) (by have := byte.toNat_lt; omega)
        (fun c hc => by cases hc)
    rwa [List.append_nil, htext] at hpadded
  have hblank : isBlank c = false := by
    have hrange := digit_range (le_refl 16) hc
    unfold isBlank
    simp
    omega
  have hx : ∀ e : Char, isDigitIn 16 e = true → e ≠ 'x' := by
    rintro e he rfl
    revert he
    decide
  have hline : byteText byte ++ rest = '0' :: 'x' :: c :: d :: 'u' :: ',' :: rest := by
    unfold byteText
    rw [htext]
    rfl
  have htake : ((c :: d :: 'u' :: ',' :: rest).dropWhile isBlank).take 2 = [c, d] := by
    rw [List.dropWhile_cons, hblank]
    rfl
  rw [hline, scanBytes, htake, hvalue]
  simp only [UInt8.ofNat_toNat]
  rw [scanBytes_skip _ (Or.inr (hx d hd)), scanBytes_skip _ (Or.inr (by decide)),
    scanBytes_skip _ (Or.inl (by decide))]

theorem scanBytes_comma (rest : Line) : scanBytes (',' :: rest) = scanBytes rest := by
  cases rest with
  | nil => rfl
  | cons c rest => exact scanBytes_skip rest (Or.inl (by decide))

theorem scanBytes_byteLine (bytes : List UInt8) : scanBytes (byteLine bytes) = bytes := by
  have htexts : ∀ l : List UInt8, scanBytes (l.flatMap byteText) = l := by
    intro l
    induction l with
    | nil => rfl
    | cons byte l ih =>
        rw [List.flatMap_cons, scanBytes_byteText, scanBytes_comma, ih]
  have hspaces : ∀ s : Line, scanBytes (' ' :: s) = scanBytes s := by
    intro s
    cases s with
    | nil => rfl
    | cons c s => exact scanBytes_skip s (Or.inl (by decide))
  unfold byteLine
  rw [show "    ".toList = [' ', ' ', ' ', ' '] from rfl]
  simp only [List.cons_append, List.nil_append, hspaces, htexts]

/-! ### Lines that are passed over -/

/-- None of the three lines the reader acts on outside a byte array. -/
structure Inert (line : Line) : Prop where
  bytes : bytesStart.isPrefixOf line = false
  validation : validationStart.isPrefixOf line = false
  table : tableStart.isPrefixOf line = false

theorem inert_nil : Inert [] := ⟨by decide, by decide, by decide⟩

/-- Text that neither starts one of these lines nor is started by one. -/
abbrev Apart (start : Line) : Prop :=
  ∀ p ∈ [bytesStart, validationStart, tableStart],
    p.isPrefixOf start = false ∧ start.isPrefixOf p = false

/-- A line is inert by what it starts with. -/
theorem inert_append {start : Line} (h : Apart start) (rest : Line) :
    Inert (start ++ rest) where
  bytes := isPrefixOf_apart (h bytesStart (by simp)).1 (h bytesStart (by simp)).2 rest
  validation :=
    isPrefixOf_apart (h validationStart (by simp)).1 (h validationStart (by simp)).2 rest
  table := isPrefixOf_apart (h tableStart (by simp)).1 (h tableStart (by simp)).2 rest

theorem inert_text {start : Line} (h : Apart start) : Inert start := by
  have hline := inert_append h []
  rwa [List.append_nil] at hline

/-- Outside byte arrays and before the table. -/
structure ReadState.Outside (σ : ReadState) : Prop where
  collecting : σ.collecting = none
  inTable : σ.inTable = false

def run (σ : ReadState) (lines : List Line) : ReadState := lines.foldl ReadState.readLine σ

@[simp] theorem run_nil (σ : ReadState) : run σ [] = σ := rfl

@[simp] theorem run_cons (σ : ReadState) (line : Line) (lines : List Line) :
    run σ (line :: lines) = run (σ.readLine line) lines := rfl

@[simp] theorem run_append (σ : ReadState) (l r : List Line) : run σ (l ++ r) = run (run σ l) r :=
  List.foldl_append

theorem readLine_outside {σ : ReadState} (h : σ.collecting = none) (line : Line) :
    σ.readLine line = σ.readOther line := by
  unfold ReadState.readLine
  rw [h]

theorem readOther_inert (σ : ReadState) {line : Line} (h : Inert line) :
    σ.readOther line = if σ.inTable then σ.readRow line else σ := by
  unfold ReadState.readOther
  simp only [h.bytes, h.validation, h.table, Bool.false_eq_true, if_false]

theorem run_inert {σ : ReadState} (hσ : σ.Outside) {lines : List Line}
    (h : ∀ line ∈ lines, Inert line) : run σ lines = σ := by
  induction lines with
  | nil => rfl
  | cons line lines ih =>
      have hline : σ.readLine line = σ := by
        rw [readLine_outside hσ.collecting, readOther_inert σ (h line List.mem_cons_self),
          hσ.inTable]
        rfl
      rw [run_cons, hline]
      exact ih fun l hl => h l (List.mem_cons_of_mem _ hl)

/-! ### A byte array -/

theorem setPool_setPool (out : PrecedingDispatch) (symbol : Line) (a b : List UInt8) :
    (out.setPool symbol a).setPool symbol b = out.setPool symbol b := by
  unfold PrecedingDispatch.setPool
  rw [Function.update_idem]

/-- The opening bracket is found behind a name without blanks. -/
theorem findText_open {symbol : Line} (h : ' ' ∉ symbol) :
    findText bytesOpen (symbol ++ bytesOpen) = some (symbol, bytesOpen) := by
  induction symbol with
  | nil => rfl
  | cons c symbol ih =>
      obtain ⟨hc, hsymbol⟩ : ' ' ≠ c ∧ ' ' ∉ symbol := by simpa using h
      have hnot : bytesOpen.isPrefixOf (c :: (symbol ++ bytesOpen)) = false := by
        cases symbol with
        | nil =>
            rw [show bytesOpen = '[' :: ']' :: " = \x7b".toList from rfl]
            simp [List.isPrefixOf]
        | cons d symbol =>
            cases symbol with
            | nil =>
                rw [show bytesOpen = '[' :: ']' :: ' ' :: "= \x7b".toList from rfl]
                simp [List.isPrefixOf]
            | cons e symbol =>
                obtain ⟨-, he, -⟩ : ' ' ≠ d ∧ ' ' ≠ e ∧ ' ' ∉ symbol := by simpa using hsymbol
                rw [show bytesOpen = '[' :: ']' :: ' ' :: "= \x7b".toList from rfl]
                simp [List.isPrefixOf, he]
      rw [List.cons_append, findText, hnot, ih hsymbol]
      rfl

theorem findText_skip {c : Char} {pattern before : List Char} (rest : List Char)
    (h : c ∉ before) :
    findText (c :: pattern) (before ++ rest) =
      (findText (c :: pattern) rest).map fun found => (before ++ found.1, found.2) := by
  induction before with
  | nil => simp
  | cons d before ih =>
      obtain ⟨hd, hbefore⟩ : c ≠ d ∧ c ∉ before := by simpa using h
      rw [List.cons_append, findText, if_neg, ih hbefore, Option.map_map]
      · rfl
      · simp [List.isPrefixOf, hd]

theorem readLine_arrayStart {σ : ReadState} (hσ : σ.Outside) {symbol : Line} (h : ' ' ∉ symbol) :
    σ.readLine (bytesStart ++ (symbol ++ bytesOpen)) =
      { σ with out := σ.out.setPool symbol [], collecting := some symbol } := by
  have hfind : findText bytesOpen (bytesStart ++ (symbol ++ bytesOpen)) =
      some (bytesStart ++ symbol, bytesOpen) := by
    have hskip : findText bytesOpen (bytesStart ++ (symbol ++ bytesOpen)) =
        (findText bytesOpen (symbol ++ bytesOpen)).map fun found =>
          (bytesStart ++ found.1, found.2) :=
      findText_skip (symbol ++ bytesOpen) (by decide)
    rw [findText_open h] at hskip
    exact hskip
  rw [readLine_outside hσ.collecting]
  unfold ReadState.readOther
  rw [if_pos (isPrefixOf_append bytesStart _), hfind]
  simp only [List.drop_left]

/-- What a line of bytes is made of. -/
theorem mem_byteLine {bytes : List UInt8} {c : Char} (h : c ∈ byteLine bytes) :
    c ∈ [' ', 'x', 'u', ','] ∨ isDigitIn 16 c = true := by
  have hzero : isDigitIn 16 '0' = true := by decide
  unfold byteLine at h
  rcases List.mem_append.mp h with hspaces | hbyte
  · rw [show "    ".toList = List.replicate 4 ' ' from rfl] at hspaces
    rw [List.eq_of_mem_replicate hspaces]
    exact Or.inl (by decide)
  · obtain ⟨byte, -, hmem⟩ := List.mem_flatMap.mp hbyte
    obtain ⟨d, e, htext, hd, he⟩ := paddedByte byte
    have htext' : byteText byte = ['0', 'x', d, e, 'u', ','] := by
      unfold byteText
      rw [htext]
      rfl
    rw [htext'] at hmem
    simp only [List.mem_cons, List.not_mem_nil, or_false] at hmem ⊢
    obtain rfl | rfl | rfl | rfl | rfl | rfl := hmem
    · exact Or.inr hzero
    · exact Or.inl (Or.inr (Or.inl rfl))
    · exact Or.inr hd
    · exact Or.inr he
    · exact Or.inl (Or.inr (Or.inr (Or.inl rfl)))
    · exact Or.inl (Or.inr (Or.inr (Or.inr rfl)))

theorem not_mem_byteLine {c : Char} (h : c ∉ [' ', 'x', 'u', ','] ∧ isDigitIn 16 c = false)
    (bytes : List UInt8) : c ∉ byteLine bytes := by
  intro hmem
  rcases mem_byteLine hmem with hfixed | hdigit
  · exact h.1 hfixed
  · rw [h.2] at hdigit
    cases hdigit

theorem readLine_byteLine {σ : ReadState} {symbol : Line} (hσ : σ.collecting = some symbol)
    {pool : List UInt8} (hpool : σ.out.bytePools symbol = some pool) (bytes : List UInt8) :
    σ.readLine (byteLine bytes) = { σ with out := σ.out.setPool symbol (pool ++ bytes) } := by
  have hfind : findText "\x7d;".toList (byteLine bytes) = none :=
    findText_none (not_mem_byteLine (by decide) bytes)
  unfold ReadState.readLine
  rw [hσ]
  simp only [hfind, hpool, scanBytes_byteLine, Option.isSome_none, Bool.false_eq_true, if_false,
    Option.getD_some]

/-- The pool grows by the bytes printed, line by line. -/
theorem run_byteLines (count : Nat) {bytes : List UInt8} (hcount : bytes.length ≤ count)
    {σ : ReadState} {symbol : Line} (hσ : σ.collecting = some symbol) {pool : List UInt8}
    (hpool : σ.out.bytePools symbol = some pool) :
    run σ (byteLines count bytes) = { σ with out := σ.out.setPool symbol (pool ++ bytes) } := by
  induction count generalizing bytes σ pool with
  | zero =>
      obtain rfl := List.length_eq_zero_iff.mp (Nat.le_zero.mp hcount)
      simp only [byteLines, run_nil, List.append_nil]
      unfold PrecedingDispatch.setPool
      rw [← hpool, Function.update_eq_self]
  | succ count ih =>
      cases bytes with
      | nil =>
          simp only [byteLines, run_nil, List.append_nil]
          unfold PrecedingDispatch.setPool
          rw [← hpool, Function.update_eq_self]
      | cons byte bytes =>
          have hdrop : ((byte :: bytes).drop 16).length ≤ count := by
            rw [List.length_drop]
            rw [List.length_cons] at hcount ⊢
            omega
          have hnext : (σ.out.setPool symbol (pool ++ (byte :: bytes).take 16)).bytePools symbol =
              some (pool ++ (byte :: bytes).take 16) := Function.update_self _ _ _
          have hcollecting : ReadState.collecting
              { σ with out := σ.out.setPool symbol (pool ++ (byte :: bytes).take 16) } =
              some symbol := hσ
          rw [byteLines, run_cons, readLine_byteLine hσ hpool, ih hdrop hcollecting hnext]
          simp only [setPool_setPool, List.append_assoc, List.take_append_drop]

/-- A byte array fills the pool of its name. -/
theorem run_array {σ : ReadState} (hσ : σ.Outside) {symbol : Line} (h : ' ' ∉ symbol)
    (bytes : List UInt8) :
    run σ (arrayLines symbol bytes) = { σ with out := σ.out.setPool symbol bytes } := by
  have hpool : (σ.out.setPool symbol []).bytePools symbol = some [] := Function.update_self _ _ _
  have hend : ReadState.readLine
      ⟨(σ.out.setPool symbol []).setPool symbol ([] ++ bytes), σ.validations, some symbol,
        σ.inTable⟩
        "\x7d;".toList =
      ⟨σ.out.setPool symbol bytes, σ.validations, none, σ.inTable⟩ := by
    unfold ReadState.readLine
    simp only [setPool_setPool, List.nil_append]
    rw [if_pos (by decide)]
  have hblank : run ⟨σ.out.setPool symbol bytes, σ.validations, none, σ.inTable⟩ [[]] =
      ⟨σ.out.setPool symbol bytes, σ.validations, none, σ.inTable⟩ := by
    refine run_inert ⟨?_, ?_⟩ fun line hline => List.mem_singleton.mp hline ▸ inert_nil
    · rfl
    · exact hσ.inTable
  have hbytes : run { σ with out := σ.out.setPool symbol [], collecting := some symbol }
      (byteLines bytes.length bytes) =
      ⟨(σ.out.setPool symbol []).setPool symbol ([] ++ bytes), σ.validations, some symbol,
        σ.inTable⟩ := run_byteLines bytes.length (le_refl _) rfl hpool
  have hstart : run σ [bytesStart ++ (symbol ++ bytesOpen)] =
      { σ with out := σ.out.setPool symbol [], collecting := some symbol } :=
    readLine_arrayStart hσ h
  unfold arrayLines
  rw [run_append, run_append, hstart, hbytes]
  refine (congrArg (fun τ => run τ [[]]) hend).trans ?_
  rw [hblank, hσ.collecting]

/-! ### Names -/

/-- Neither white space nor a comma. -/
def PlainName (s : Line) : Prop := ∀ c ∈ s, isTrimmed c = false ∧ c ≠ ','

instance (s : Line) : Decidable (PlainName s) :=
  List.decidableBAll (fun c => isTrimmed c = false ∧ c ≠ ',') s

namespace PlainName

theorem append {s t : Line} (hs : PlainName s) (ht : PlainName t) : PlainName (s ++ t) :=
  fun c hc => (List.mem_append.mp hc).elim (hs c) (ht c)

theorem take {s : Line} (hs : PlainName s) (n : Nat) : PlainName (s.take n) :=
  fun c hc => hs c (List.mem_of_mem_take hc)

theorem blank {s : Line} (hs : PlainName s) : ' ' ∉ s := fun hc => by
  have hblank := (hs ' ' hc).1
  revert hblank
  decide

theorem newline {s : Line} (hs : PlainName s) : '\n' ∉ s := fun hc => by
  have hnewline := (hs '\n' hc).1
  revert hnewline
  decide

theorem comma {s : Line} (hs : PlainName s) : ',' ∉ s := fun hc => (hs ',' hc).2 rfl

end PlainName

theorem plain_digits {base : Nat} (hbase : base ≤ 16) {s : Line}
    (h : ∀ c ∈ s, isDigitIn base c = true) : PlainName s := by
  intro c hc
  have hrange := digit_range hbase (h c hc)
  constructor
  · by_contra htrim
    rw [Bool.not_eq_false] at htrim
    unfold isTrimmed at htrim
    simp only [Bool.or_eq_true, decide_eq_true_eq] at htrim
    obtain ((rfl | rfl) | rfl) | rfl := htrim
    all_goals
      revert hrange
      decide
  · rintro rfl
    revert hrange
    decide

theorem plain_decimal (n : Nat) : PlainName (decimal n) :=
  plain_digits (by decide) (numeral_spec (Nat.one_lt_ofNat : 1 < 10) (by decide) n).2

theorem plain_hex8 (n : UInt32) : PlainName (hex8 n) :=
  plain_digits (by decide) (paddedNumeral_digits (Nat.one_lt_ofNat : 1 < 16) (le_refl 16) 8 n.toNat)

theorem trimmed_name {s : Line} (h : PlainName s) : trimmed (' ' :: s) = s := by
  have hdrop : ∀ t : Line, PlainName t → t.dropWhile isTrimmed = t := by
    intro t ht
    cases t with
    | nil => rfl
    | cons c t => rw [List.dropWhile_cons, (ht c List.mem_cons_self).1]; rfl
  have hreverse : PlainName s.reverse := fun c hc => h c (List.mem_reverse.mp hc)
  unfold trimmed
  rw [List.dropWhile_cons, show isTrimmed ' ' = true from by decide, if_pos rfl, hdrop s h,
    hdrop _ hreverse, List.reverse_reverse]

/-! ### An initializer -/

theorem takeWhile_name {s : Line} (rest : Line) (h : ' ' ∉ s) :
    (s ++ ' ' :: rest).takeWhile (fun c => c != ' ') = s ∧
      (s ++ ' ' :: rest).dropWhile (fun c => c != ' ') = ' ' :: rest := by
  have hall : ∀ c ∈ s, (c != ' ') = true := by
    intro c hc
    rw [bne_iff_ne]
    rintro rfl
    exact h hc
  rw [List.takeWhile_append_of_pos hall, List.dropWhile_append_of_pos hall]
  simp

def ReadState.setValidation (σ : ReadState) (symbol : Line) (v : ValidationInfo) : ReadState :=
  { σ with validations := Function.update σ.validations symbol (some v) }

def ValidationRecord.info (r : ValidationRecord) : ValidationInfo :=
  ⟨r.addr, r.size, bytesSymbol r.symbol⟩

theorem readLine_validation {σ : ReadState} (hσ : σ.Outside) (b : BankDispatch)
    {r : ValidationRecord} (h : PlainName r.symbol) :
    σ.readLine (b.validationLine r) = σ.setValidation r.symbol r.info := by
  have hbytes : bytesStart.isPrefixOf (b.validationLine r) = false :=
    isPrefixOf_apart (by decide) (by decide) _
  have hstart : validationStart.isPrefixOf (b.validationLine r) = true := isPrefixOf_append _ _
  rw [readLine_outside hσ.collecting]
  unfold ReadState.readOther
  rw [hbytes, hstart]
  unfold ReadState.readValidation BankDispatch.validationLine
  rw [List.drop_left]
  generalize bytesSymbol r.symbol ++ (", ".toList ++ (b.closureText ++ (", ".toList ++
    (decimal b.mergedSpans.length ++ "u\x7d;".toList)))) = rest
  have hname := takeWhile_name ("= ".toList ++ (pairText r.addr r.size.toNat ++ rest)) h.blank
  have hbrace : findText ['\x7b'] (' ' :: ("= ".toList ++ (pairText r.addr r.size.toNat ++ rest))) =
      some (" = ".toList, pairText r.addr r.size.toNat ++ rest) :=
    findText_append _ (by decide : '\x7b' ∉ " = ".toList)
  have hpair := scanPair_pairText r.addr r.size.toNat_lt rest
  have hequals : " = ".toList ++ (pairText r.addr r.size.toNat ++ rest) =
      ' ' :: ("= ".toList ++ (pairText r.addr r.size.toNat ++ rest)) := rfl
  rw [hequals]
  simp only [hname, hbrace, hpair, UInt32.ofNat_toNat, Bool.false_eq_true, if_false, if_true]
  rfl

/-! ### A row -/

/-- `function_key` of the row's address and mode. -/
def TableRow.dispatchKey (r : TableRow) : UInt64 := Dispatch.dispatchKey r.addr r.thumb

/-- A row adds its key and offers the validation it names. -/
def acceptRow (validations : Line → Option ValidationInfo) (out : PrecedingDispatch)
    (r : TableRow) : PrecedingDispatch :=
  let next := { out with keys := r.dispatchKey :: out.keys }
  match namedValidation validations out.bytePools r.validation with
  | none => next
  | some v => next.offerAt r.dispatchKey v

theorem rowTail_rowLine {r : TableRow} (h : PlainName r.validation) :
    rowTail (rowLine r) = some r.validation := by
  have hline : rowLine r = ("    ".toList ++ (pairText r.addr r.thumb.toNat ++
      (r.fn.toList ++ ',' :: ' ' :: r.validation))) ++ '\x7d' :: [','] := by
    unfold rowLine
    simp only [List.append_assoc, List.cons_append]
    rfl
  have hrow : "    ".toList ++ (pairText r.addr r.thumb.toNat ++
      (r.fn.toList ++ ',' :: ' ' :: r.validation)) =
      ("    ".toList ++ (pairText r.addr r.thumb.toNat ++ r.fn.toList)) ++ ',' ::
        ' ' :: r.validation := by
    simp only [List.append_assoc]
  have hcomma : ',' ∉ ' ' :: r.validation := by
    simp only [List.mem_cons, not_or]
    exact ⟨by decide, h.comma⟩
  unfold rowTail
  rw [hline, splitLast_append _ (by decide)]
  simp only [bind, Option.bind]
  rw [hrow, splitLast_append _ hcomma]
  simp only [trimmed_name h, pure]

theorem readLine_row {σ : ReadState} (hσ : σ.collecting = none) (htable : σ.inTable = true)
    {r : TableRow} (h : PlainName r.validation) :
    σ.readLine (rowLine r) = { σ with out := acceptRow σ.validations σ.out r } := by
  have hinert : Inert (rowLine r) := inert_append (by decide) _
  have hscan : scanPair ((rowLine r).dropWhile isBlank) =
      some (r.addr, UInt32.ofNat r.thumb.toNat) := by
    have hmode : r.thumb.toNat < 2 ^ 32 := lt_of_le_of_lt (Bool.toNat_le _) (by decide)
    exact scanPair_pairText r.addr hmode _
  have hthumb : (UInt32.ofNat r.thumb.toNat != 0) = r.thumb := by
    cases r.thumb <;> rfl
  rw [readLine_outside hσ, readOther_inert σ hinert, if_pos htable]
  unfold ReadState.readRow acceptRow TableRow.dispatchKey
  simp only [hscan, hthumb, rowTail_rowLine h, Option.bind_some]
  cases namedValidation σ.validations σ.out.bytePools r.validation <;> rfl

theorem run_rows {rows : List TableRow} (h : ∀ r ∈ rows, PlainName r.validation) {σ : ReadState}
    (hσ : σ.collecting = none) (htable : σ.inTable = true) :
    run σ (rows.map rowLine) = { σ with out := rows.foldl (acceptRow σ.validations) σ.out } := by
  induction rows generalizing σ with
  | nil => rfl
  | cons r rows ih =>
      have hcollecting : ReadState.collecting
          { σ with out := acceptRow σ.validations σ.out r } = none := hσ
      have hintable : ReadState.inTable
          { σ with out := acceptRow σ.validations σ.out r } = true := htable
      rw [List.map_cons, run_cons, readLine_row hσ htable (h r List.mem_cons_self),
        ih (fun s hs => h s (List.mem_cons_of_mem _ hs)) hcollecting hintable, List.foldl_cons]

/-- A line of the table that is no row. -/
theorem readLine_noRow {σ : ReadState} (hσ : σ.collecting = none) {line : Line} (h : Inert line)
    (hscan : scanPair (line.dropWhile isBlank) = none) : σ.readLine line = σ := by
  rw [readLine_outside hσ, readOther_inert σ h]
  unfold ReadState.readRow
  rw [hscan]
  split <;> rfl

end NdsRecomp.Recompiler.DispatchText
