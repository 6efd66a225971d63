import NdsRecomp.Library.FormattedText
import NdsRecomp.Recompiler.EmissionPlan

/-!
`<bank>_dispatch.c` as the recompiler writes it and reads it back. The writer
prints byte arrays, validation initializers, dependency ranges and the row table;
the reader goes over the lines again and keeps, for each key, the row with the
largest span. The bytes of all files read stand in one map, under the names of
their arrays, and an owner points into it.
-/

namespace NdsRecomp.Recompiler.DispatchText

open Library Dispatch

abbrev Line := List Char

/-! ### The bank -/

/-- `ResolvedHleRoutine`, as far as the descriptor prints it. -/
structure HleRoutine where
  id : String
  address : UInt32
  endAddress : UInt32
  thumb : Bool
  instructionCount : UInt32
  contentSha1 : String
  descriptorSymbol : String

/-- A leader with its index in the function list, and the functions coalesced into it. -/
structure Superblock where
  index : Nat
  leader : EmitFunction
  members : List EmitFunction

namespace Superblock

def functions (s : Superblock) : List EmitFunction := s.leader :: s.members

def size (s : Superblock) : UInt32 := (s.members.getLastD s.leader).endAddr - s.leader.addr

end Superblock

/-- The arguments of `write_bank_dispatch`. -/
structure BankDispatch where
  bank : String
  blocks : List (EmitFunction × List EmitFunction)
  image : BankImage
  validateLiveBytes : Bool
  dependencyClosure : Bool
  hleRoutines : List HleRoutine
  prunedKeys : List UInt64

/-- Where a validation's bytes are printed, and what they are. -/
structure ValidationRecord where
  symbol : Line
  addr : UInt32
  size : UInt32
  expected : List UInt8
  expected_length : expected.length = size.toNat

/-- A row of the table as it is printed, and the superblock its function is in. -/
structure TableRow extends HostRow where
  validation : Line
  block : Superblock

def superblocksFrom : Nat → List (EmitFunction × List EmitFunction) → List Superblock
  | _, [] => []
  | index, (leader, members) :: rest =>
      ⟨index, leader, members⟩ :: superblocksFrom (index + (members.length + 1)) rest

def bytesSymbol (symbol : Line) : Line := symbol ++ "_bytes".toList

namespace BankDispatch

def fnPrefix (b : BankDispatch) : Line := (b.bank ++ "_").toList

def superblocks (b : BankDispatch) : List Superblock := superblocksFrom 0 b.blocks

/-- `snprintf` into `char symbol[128]`. -/
def validationSymbol (b : BankDispatch) (leader : Nat) : Line :=
  ("g_validation_".toList ++ b.fnPrefix ++ '_' :: numeral 10 leader).take 127

/-- `validation_symbols[index]`, the same for all functions of a superblock. -/
def rowValidation (b : BankDispatch) (s : Superblock) : Line :=
  if b.validateLiveBytes then '&' :: b.validationSymbol s.index else ['0']

/-! ### Validations -/

/-- The span's bytes; with dependency closures only where the source is the address. -/
def spanBytes (b : BankDispatch) (s : Superblock) : Option (List UInt8) :=
  if b.dependencyClosure ∧ s.leader.source ≠ s.leader.addr then none
  else b.image.slice s.leader.source s.size.toNat

theorem spanBytes_length {b : BankDispatch} {s : Superblock} {bytes : List UInt8}
    (h : b.spanBytes s = some bytes) : bytes.length = s.size.toNat := by
  unfold spanBytes at h
  split at h
  · cases h
  · exact BankImage.slice_length h

/-- The loop over the leaders returns at the first span outside the image. -/
def recordsFrom (b : BankDispatch) : List Superblock → List ValidationRecord
  | [] => []
  | s :: rest =>
      match h : b.spanBytes s with
      | none => []
      | some bytes =>
          ⟨b.validationSymbol s.index, s.leader.addr, s.size, bytes, spanBytes_length h⟩ ::
            b.recordsFrom rest

def records (b : BankDispatch) : List ValidationRecord :=
  if b.validateLiveBytes then b.recordsFrom b.superblocks else []

def recordsWritten (b : BankDispatch) : Bool :=
  !b.validateLiveBytes || b.records.length == b.superblocks.length

/-! ### The dependency closure -/

/-- One interval behind the sorted ones before it. -/
def mergeSpan (merged : List (UInt32 × UInt32)) (span : UInt32 × UInt32) : List (UInt32 × UInt32) :=
  match merged.getLast? with
  | some back =>
      if back.2 < span.1 then merged ++ [span]
      else merged.dropLast ++ [(back.1, max back.2 span.2)]
  | none => [span]

def spanLe (a b : UInt32 × UInt32) : Prop := a.1 < b.1 ∨ (a.1 = b.1 ∧ a.2 ≤ b.2)

instance : DecidableRel spanLe := fun _ _ => inferInstanceAs (Decidable (_ ∨ _))

def mergedSpans (b : BankDispatch) : List (UInt32 × UInt32) :=
  if b.validateLiveBytes && b.dependencyClosure then
    ((b.records.map fun r => (r.addr, r.addr + r.size)).insertionSort spanLe).foldl mergeSpan []
  else []

def closureSymbol (b : BankDispatch) : Line := "g_validation_closure_".toList ++ b.fnPrefix

def rangeSymbol (b : BankDispatch) (index : Nat) : Line :=
  b.closureSymbol ++ '_' :: numeral 10 index ++ "_bytes".toList

/-- The ranges up to the first one outside the image, each under its array's name. -/
def rangesFrom (b : BankDispatch) : Nat → List (UInt32 × UInt32) → List (Line × List UInt8)
  | _, [] => []
  | index, span :: rest =>
      match b.image.slice span.1 (span.2 - span.1).toNat with
      | none => []
      | some bytes => (b.rangeSymbol index, bytes) :: b.rangesFrom (index + 1) rest

def ranges (b : BankDispatch) : List (Line × List UInt8) := b.rangesFrom 0 b.mergedSpans

def rangesWritten (b : BankDispatch) : Bool := b.ranges.length == b.mergedSpans.length

/-! ### HLE descriptors -/

def sameFunction (fn : EmitFunction) (routine : HleRoutine) : Bool :=
  fn.addr == routine.address && fn.endAddr == routine.endAddress && fn.thumb == routine.thumb

def routineValidation (b : BankDispatch) (routine : HleRoutine) : Option Line :=
  if b.validateLiveBytes then
    (b.superblocks.find? fun s => s.functions.any fun fn => sameFunction fn routine).map
      b.rowValidation
  else none

/-- The routines up to the first one without a validation. -/
def descriptorsFrom (b : BankDispatch) : List HleRoutine → List (HleRoutine × Line)
  | [] => []
  | routine :: rest =>
      match b.routineValidation routine with
      | none => []
      | some validation => (routine, validation) :: b.descriptorsFrom rest

def descriptors (b : BankDispatch) : List (HleRoutine × Line) := b.descriptorsFrom b.hleRoutines

def descriptorsWritten (b : BankDispatch) : Bool := b.descriptors.length == b.hleRoutines.length

/-! ### Rows -/

def superblockRows (b : BankDispatch) (s : Superblock) : List TableRow :=
  s.functions.flatMap fun fn =>
    (fn.pcs.filter fun pc => !b.prunedKeys.contains (fn.key pc)).map fun pc =>
      ⟨⟨pc, fn.thumb, (b.bank ++ "_") ++ s.leader.name⟩, b.rowValidation s, s⟩

def tableRowLe (r t : TableRow) : Prop := hostRowLe r.toHostRow t.toHostRow

instance : DecidableRel tableRowLe := fun r t =>
  inferInstanceAs (Decidable (hostRowLe r.toHostRow t.toHostRow))

def tableRowKey (r : TableRow) : Nat ×ₗ Bool := r.toHostRow.key

def rows (b : BankDispatch) : List TableRow :=
  uniqueByKey tableRowKey ((b.superblocks.flatMap b.superblockRows).insertionSort tableRowLe)

/-- The table is reached when nothing before it made the writer return. -/
def tableWritten (b : BankDispatch) : Bool :=
  b.recordsWritten && b.rangesWritten && b.descriptorsWritten

def emittedRows (b : BankDispatch) : List TableRow := if b.tableWritten then b.rows else []

/-! ### The text -/

end BankDispatch

def hex8 (n : UInt32) : Line := paddedNumeral 16 8 n.toNat

def decimal (n : Nat) : Line := numeral 10 n

def byteText (byte : UInt8) : Line := "0x".toList ++ paddedNumeral 16 2 byte.toNat ++ "u,".toList

def byteLine (bytes : List UInt8) : Line := "    ".toList ++ bytes.flatMap byteText

/-- Sixteen bytes a line; the count is a bound on the lines. -/
def byteLines : Nat → List UInt8 → List Line
  | 0, _ => []
  | _ + 1, [] => []
  | count + 1, byte :: bytes =>
      byteLine ((byte :: bytes).take 16) :: byteLines count ((byte :: bytes).drop 16)

def bytesStart : Line := "static const uint8_t ".toList

def bytesOpen : Line := "[] = \x7b".toList

def validationStart : Line := "static const NdsStaticValidation ".toList

def tableStart : Line := "const NdsDispatchEntry ".toList

def arrayLines (symbol : Line) (bytes : List UInt8) : List Line :=
  [bytesStart ++ (symbol ++ bytesOpen)] ++ byteLines bytes.length bytes ++ ["\x7d;".toList, []]

/-- The initializer's address and size, as the rows' address and mode. -/
def pairText (addr : UInt32) (n : Nat) : Line :=
  "\x7b0x".toList ++ (hex8 addr ++ ("u, ".toList ++ (decimal n ++ "u, ".toList)))

def rowLine (r : TableRow) : Line :=
  "    ".toList ++ (pairText r.addr r.thumb.toNat ++
    (r.fn.toList ++ ',' :: ' ' :: r.validation ++ "\x7d,".toList))

namespace BankDispatch

def headerLines (b : BankDispatch) : List Line :=
  ["/* AUTO-GENERATED by nds_recompile. DO NOT EDIT. */".toList,
   "/* \x7bguest addr, thumb-bit, generated fn\x7d sorted by address; the".toList,
   "   runtime binary-searches by (addr, CPSR.T) per CPU. */".toList,
   "#include \"runtime_arm.h\"".toList,
   "#include \"".toList ++ (b.bank ++ ".h\"").toList,
   []]

def recordArrays (b : BankDispatch) : List (Line × List UInt8) :=
  b.records.map fun r => (bytesSymbol r.symbol, r.expected)

def rangeLine (b : BankDispatch) (index : Nat) (span : UInt32 × UInt32) : Line :=
  "    ".toList ++ (pairText span.1 (span.2 - span.1).toNat ++
    (b.rangeSymbol index ++ "\x7d,".toList))

def rangeTable (b : BankDispatch) : List Line :=
  if b.validateLiveBytes && b.dependencyClosure then
    ["static const NdsStaticValidationRange ".toList ++ (b.closureSymbol ++ bytesOpen)] ++
      b.mergedSpans.mapIdx b.rangeLine ++ ["\x7d;".toList, []]
  else []

def closureText (b : BankDispatch) : Line := if b.dependencyClosure then b.closureSymbol else ['0']

def validationLine (b : BankDispatch) (r : ValidationRecord) : Line :=
  validationStart ++ (r.symbol ++ (" = ".toList ++ (pairText r.addr r.size.toNat ++
    (bytesSymbol r.symbol ++ (", ".toList ++ (b.closureText ++ (", ".toList ++
      (decimal b.mergedSpans.length ++ "u\x7d;".toList))))))))

def descriptorLines (b : BankDispatch) (d : HleRoutine × Line) : List Line :=
  ["const NdsHleProfileDescriptor ".toList ++ (d.1.descriptorSymbol.toList ++ " = \x7b".toList),
   "    \"".toList ++ (d.1.id.toList ++ ("\", \"".toList ++ (b.bank.toList ++
     ("\", 0x".toList ++ (hex8 d.1.address ++ ("u, 0x".toList ++ (hex8 d.1.endAddress ++
       ("u, ".toList ++ (decimal d.1.thumb.toNat ++ ("u, ".toList ++
         (decimal d.1.instructionCount.toNat ++ "u,".toList))))))))))),
   "    \"".toList ++ (d.1.contentSha1.toList ++ ("\", ".toList ++ d.2)),
   "\x7d;".toList, []]

def descriptorTable (b : BankDispatch) : List Line :=
  ["const NdsHleProfileDescriptor* const g_hle_profile_".toList ++ (b.bank.toList ++ bytesOpen)] ++
    b.hleRoutines.map (fun r => "    &".toList ++ (r.descriptorSymbol.toList ++ ",".toList)) ++
    ["\x7d;".toList,
     "const unsigned g_hle_profile_".toList ++ (b.bank.toList ++ ("_len = ".toList ++
       (decimal b.hleRoutines.length ++ "u;".toList))),
     "#endif".toList, []]

def hleLines (b : BankDispatch) : List Line :=
  if b.hleRoutines.isEmpty then []
  else ["#ifdef NDS_PROFILE_HLE_HEAT".toList] ++ b.descriptors.flatMap b.descriptorLines ++
    if b.descriptorsWritten then b.descriptorTable else []

def tableLines (b : BankDispatch) : List Line :=
  [tableStart ++ (("g_dispatch_" ++ b.bank).toList ++ bytesOpen)] ++ b.rows.map rowLine ++
    ["\x7d;".toList,
     "const unsigned ".toList ++ (("g_dispatch_" ++ b.bank ++ "_len").toList ++ (" = ".toList ++
       (decimal b.rows.length ++ "u;".toList)))]

/-- `write_bank_dispatch`: what is written before it returns. -/
def lines (b : BankDispatch) : List Line :=
  b.headerLines ++ b.recordArrays.flatMap (fun a => arrayLines a.1 a.2) ++
    if !b.recordsWritten then []
    else b.ranges.flatMap (fun a => arrayLines a.1 a.2) ++
      if !b.rangesWritten then []
      else b.rangeTable ++ b.records.flatMap (fun r => [b.validationLine r, []]) ++ b.hleLines ++
        if !b.descriptorsWritten then [] else b.tableLines

def text (b : BankDispatch) : List Char := b.lines.flatMap fun line => line ++ ['\n']

end BankDispatch

/-! ### Reading -/

structure ValidationInfo where
  addr : UInt32
  size : UInt32
  bytes : Line

/-- `PrecedingOwner`: the expected bytes are a pointer to the array of that name. -/
structure Owner where
  addr : UInt32
  size : UInt32
  expected : Line

structure PrecedingDispatch where
  keys : List UInt64
  owners : UInt64 → Option Owner
  bytePools : Line → Option (List UInt8)

def PrecedingDispatch.empty : PrecedingDispatch := ⟨[], fun _ => none, fun _ => none⟩

/-- The locals of `read_preceding_dispatch` and what it writes to. -/
structure ReadState where
  out : PrecedingDispatch
  validations : Line → Option ValidationInfo
  collecting : Option Line
  inTable : Bool

/-- Each `0x` with `%2x` behind it, up to the first without digits. -/
def scanBytes : Line → List UInt8
  | '0' :: 'x' :: rest =>
      match scanUnsigned 16 ((rest.dropWhile isBlank).take 2) with
      | none => []
      | some (value, _) => UInt8.ofNat value :: scanBytes rest
  | _ :: rest => scanBytes rest
  | [] => []

/-- `sscanf(s, "\x7b0x%Xu, %uu,", &first, &second) == 2` -/
def scanPair (s : Line) : Option (UInt32 × UInt32) := do
  let s ← scanLiteral "\x7b0x".toList s
  let (first, s) ← scanUnsigned 16 s
  let s ← scanLiteral "u,".toList s
  let (second, _) ← scanUnsigned 10 s
  return (UInt32.ofNat first, UInt32.ofNat second)

def isTrimmed (c : Char) : Bool := c = ' ' || c = '\t' || c = '\r' || c = '\n'

def trimmed (s : Line) : Line :=
  (((s.dropWhile isTrimmed).reverse).dropWhile isTrimmed).reverse

/-- The text behind the last comma before the last brace. -/
def rowTail (line : Line) : Option Line := do
  let (before, _) ← splitLast '\x7d' line
  let (_, tail) ← splitLast ',' before
  return trimmed tail

/-- The validation a row's tail names, where its array has as many bytes as it says. -/
def namedValidation (validations : Line → Option ValidationInfo)
    (pools : Line → Option (List UInt8)) : Line → Option ValidationInfo
  | '&' :: symbol =>
      (validations symbol).filter fun v =>
        (pools v.bytes).any fun pool => pool.length == v.size.toNat
  | _ => none

/-- An owner gives way to a larger span only. -/
def offer (owner : Option Owner) (v : ValidationInfo) : Option Owner :=
  match owner with
  | some o => if v.size ≤ o.size then some o else some ⟨v.addr, v.size, v.bytes⟩
  | none => some ⟨v.addr, v.size, v.bytes⟩

def PrecedingDispatch.offerAt (out : PrecedingDispatch) (key : UInt64) (v : ValidationInfo) :
    PrecedingDispatch :=
  { out with owners := Function.update out.owners key (offer (out.owners key) v) }

def PrecedingDispatch.setPool (out : PrecedingDispatch) (symbol : Line) (bytes : List UInt8) :
    PrecedingDispatch :=
  { out with bytePools := Function.update out.bytePools symbol (some bytes) }

def ReadState.readRow (σ : ReadState) (line : Line) : ReadState :=
  match scanPair (line.dropWhile isBlank) with
  | none => σ
  | some (addr, thumb) =>
      let key := dispatchKey addr (thumb != 0)
      let out := { σ.out with keys := key :: σ.out.keys }
      match (rowTail line).bind (namedValidation σ.validations out.bytePools) with
      | none => { σ with out := out }
      | some v => { σ with out := out.offerAt key v }

def ReadState.readValidation (σ : ReadState) (line : Line) : ReadState :=
  let rest := line.drop validationStart.length
  let symbol := rest.takeWhile fun c => c != ' '
  match findText ['\x7b'] (rest.dropWhile fun c => c != ' ') with
  | none => σ
  | some (_, initializer) =>
      match scanPair initializer with
      | none => σ
      | some (addr, size) =>
          let info : ValidationInfo := ⟨addr, size, bytesSymbol symbol⟩
          { σ with validations := Function.update σ.validations symbol (some info) }

/-- A line outside a byte array. -/
def ReadState.readOther (σ : ReadState) (line : Line) : ReadState :=
  match if bytesStart.isPrefixOf line then findText bytesOpen line else none with
  | some (before, _) =>
      let symbol := before.drop bytesStart.length
      { σ with out := σ.out.setPool symbol [], collecting := some symbol }
  | none =>
      if validationStart.isPrefixOf line then σ.readValidation line
      else if tableStart.isPrefixOf line then { σ with inTable := true }
      else if σ.inTable then σ.readRow line else σ

def ReadState.readLine (σ : ReadState) (line : Line) : ReadState :=
  match σ.collecting with
  | some symbol =>
      if (findText "\x7d;".toList line).isSome then { σ with collecting := none }
      else
        let pool := (σ.out.bytePools symbol).getD [] ++ scanBytes line
        { σ with out := σ.out.setPool symbol pool }
  | none => σ.readOther line

/-- `read_preceding_dispatch` -/
def readPrecedingDispatch (text : List Char) (out : PrecedingDispatch) : PrecedingDispatch :=
  ((textLines text).foldl ReadState.readLine ⟨out, fun _ => none, none, false⟩).out

/-- The files of `--preceding-dispatch`, in order. -/
def readAll (files : List BankDispatch) : PrecedingDispatch :=
  files.foldl (fun out b => readPrecedingDispatch b.text out) PrecedingDispatch.empty

end NdsRecomp.Recompiler.DispatchText
