import NdsRecomp.Recompiler.ConfigNumbers
import NdsRecomp.Recompiler.JumpTables

/-!
The config sections and `load_config`, over the reader of their numeric fields.
With the helper of the source it is the loader; with the strict reader, and every
optional string a string, it says what a config is.
-/

namespace NdsRecomp.Recompiler

structure ConfigProgram where
  name : String
  id : String
  loadAddress : UInt32
  size : UInt32
  entryPc : UInt32
  authoritativeEntryPoints : Bool

structure ConfigIdentity where
  sha1 : String
  md5 : String

structure ConfigExtraFunc where
  addr : UInt32
  size : UInt32
  mode : CpuMode
  name : String
  kind : String
  note : String

structure ConfigDataRange where
  start : UInt32
  stop : UInt32
  note : String

structure ConfigCodeCopy where
  runtimeStart : UInt32
  sourceStart : UInt32
  size : UInt32
  name : String
  note : String

structure ConfigExcludeFunc where
  addr : UInt32
  reason : String

structure Config where
  program : ConfigProgram
  identity : ConfigIdentity
  extraFuncs : List ConfigExtraFunc
  dataRanges : List ConfigDataRange
  codeCopies : List ConfigCodeCopy
  jumpTables : List ConfigJumpTable
  excludeFuncs : List ConfigExcludeFunc

/-! ### Texts -/

/-- `%X` -/
def hexText (n : Nat) : String := String.ofList ((Nat.toDigits 16 n).map Char.toUpper)

/-- `%08X` -/
def hexText8 (n : Nat) : String :=
  String.ofList (List.replicate (8 - (Nat.toDigits 16 n).length) '0') ++ hexText n

def entryAt (label : String) (i : Nat) : String := label ++ " entry " ++ toString i

/-- `if (!cond) { fprintf(stderr, …); return false; }` -/
def orFail {α : Type} (cond : Bool) (text : String) (next : Except String α) : Except String α :=
  if cond then next else .error text

def parseMode (s : String) : Option CpuMode :=
  if s = "arm" then some .arm else if s = "thumb" then some .thumb else none

def parseJtFormat (s : String) : Option JumpTableFormat :=
  if s = "abs32" then some .abs32
  else if s = "abs16" then some .abs16
  else if s = "pcrel_arm" then some .pcrelArm
  else if s = "pcrel_thumb" then some .pcrelThumb
  else none

def parseJtMode (s : String) : Option JumpTableEntriesMode :=
  if s = "arm" then some .arm
  else if s = "thumb" then some .thumb
  else if s = "auto" then some .auto
  else none

/-- Why a format does not go with an entries mode. -/
def formatConflict : JumpTableFormat → String
  | .pcrelArm => "pcrel_arm requires entries_mode = \"arm\""
  | .pcrelThumb => "pcrel_thumb requires entries_mode = \"thumb\""
  | .abs16 => "abs16 does not support entries_mode = \"auto\" (16-bit pointers don't span " ++
      "the interworking address space)"
  | .abs32 => ""

/-! ### One entry of each section -/

section Entries

variable (rd : U32Reader) (at_ : String) (t : TomlTable)

/-- An entry of `parse_entry_points`. The optional strings come last, and what
they leave in `ok` is not looked at. -/
def entryPoint : Except String ConfigExtraFunc :=
  let addr := rd t "addr" true {}
  orFail addr.2.ok (at_ ++ ": " ++ addr.2.err) <|
  let size := rd t "size" false addr.2
  orFail size.2.ok (at_ ++ ": " ++ size.2.err) <|
  let modeS := getStringField t "mode" true size.2
  match parseMode modeS.1 with
  | none => .error (at_ ++ ": mode must be \"arm\" or \"thumb\" (got " ++ modeS.1 ++ ")")
  | some mode =>
      orFail modeS.2.ok (at_ ++ ": mode must be \"arm\" or \"thumb\" (got " ++ modeS.1 ++ ")") <|
      let alignment : UInt32 := if mode = .thumb then 2 else 4
      orFail (size.1 == 0 || (!decide (size.1 < alignment) && size.1 % alignment == 0))
        (at_ ++ ": size 0x" ++ hexText size.1.toNat ++ " is not a non-zero multiple of the " ++
          toString alignment ++ "-byte instruction width") <|
      let name := getStringField t "name" false modeS.2
      let kind := getStringField t "kind" false name.2
      let note := getStringField t "note" false kind.2
      .ok ⟨addr.1, size.1, mode, name.1, kind.1, note.1⟩

def dataRange : Except String ConfigDataRange :=
  let start := rd t "start" true {}
  let stop := rd t "end" true start.2
  orFail stop.2.ok (at_ ++ ": " ++ stop.2.err) <|
  orFail (decide (start.1 < stop.1))
    (at_ ++ ": start (0x" ++ hexText8 start.1.toNat ++ ") must be strictly less than end (0x" ++
      hexText8 stop.1.toNat ++ ")") <|
  let note := getStringField t "note" false stop.2
  .ok ⟨start.1, stop.1, note.1⟩

def codeCopy : Except String ConfigCodeCopy :=
  let runtimeStart := rd t "runtime_start" true {}
  let sourceStart := rd t "source_start" true runtimeStart.2
  let size := rd t "size" true sourceStart.2
  orFail size.2.ok (at_ ++ ": " ++ size.2.err) <|
  orFail (size.1 != 0) (at_ ++ ": size must be non-zero") <|
  let name := getStringField t "name" false size.2
  let note := getStringField t "note" false name.2
  .ok ⟨runtimeStart.1, sourceStart.1, size.1, name.1, note.1⟩

/-- An entry of `parse_jump_tables`; its note is read like its name and kept
nowhere else. -/
def jumpTable : Except String ConfigJumpTable :=
  let addr := rd t "addr" true {}
  let stride := rd t "stride" true addr.2
  let count := rd t "count" true stride.2
  orFail count.2.ok (at_ ++ ": " ++ count.2.err) <|
  let formatS := getStringField t "format" true count.2
  let formatText := at_ ++ ": format must be one of abs32 / abs16 / pcrel_arm / pcrel_thumb (got " ++
    formatS.1 ++ ")"
  match parseJtFormat formatS.1 with
  | none => .error formatText
  | some format =>
      orFail formatS.2.ok formatText <|
      let modeS := getStringField t "entries_mode" true formatS.2
      let modeText := at_ ++ ": entries_mode must be arm / thumb / auto (got " ++ modeS.1 ++ ")"
      match parseJtMode modeS.1 with
      | none => .error modeText
      | some mode =>
          orFail modeS.2.ok modeText <|
          if h : formatAllows format mode = true then
            .ok ⟨addr.1, stride.1, count.1, format, mode,
              (getStringField t "name" false modeS.2).1.toList, h⟩
          else .error (at_ ++ ": " ++ formatConflict format)

def excludeFunc : Except String ConfigExcludeFunc :=
  let addr := rd t "addr" true {}
  orFail addr.2.ok (at_ ++ ": " ++ addr.2.err) <|
  let reason := getStringField t "reason" true addr.2
  orFail (reason.2.ok && reason.1 != "") (at_ ++ ": reason is required") <|
  .ok ⟨addr.1, reason.1⟩

def programSection (lib : TomlLibrary) : Except String ConfigProgram :=
  let name := getStringField t "name" false {}
  let id := getStringField t "id" false name.2
  let loadAddress := rd t "load_address" true id.2
  let size := rd t "size" true loadAddress.2
  let entryPc := rd t "entry_pc" true size.2
  orFail entryPc.2.ok ("[program]: " ++ entryPc.2.err) <|
  match t.lookup "authoritative_entry_points" with
  | none => .ok ⟨name.1, id.1, loadAddress.1, size.1, entryPc.1, false⟩
  | some node =>
      match lib.bool node with
      | none => .error "[program]: key 'authoritative_entry_points' must be a boolean"
      | some value => .ok ⟨name.1, id.1, loadAddress.1, size.1, entryPc.1, value⟩

end Entries

def identitySection (t : TomlTable) : Except String ConfigIdentity :=
  let sha1 := getStringField t "sha1" true {}
  let md5 := getStringField t "md5" false sha1.2
  orFail md5.2.ok ("[identity]: " ++ md5.2.err) <|
  orFail (sha1.1 != "") "[identity].sha1 is required" <|
  .ok ⟨sha1.1, md5.1⟩

/-! ### Sections -/

/-- The entries of an array, up to the first one that fails. -/
def parseArrayFrom {α : Type} (label : String) (entry : String → TomlTable → Except String α) :
    Nat → List TomlNode → Except String (List α)
  | _, [] => .ok []
  | i, node :: rest =>
      match node.asTable with
      | none => .error (entryAt label i ++ " is not a table")
      | some t => do
          let e ← entry (entryAt label i) t
          let others ← parseArrayFrom label entry (i + 1) rest
          .ok (e :: others)

/-- A section that is there is parsed; one that is not an array is skipped. -/
def parseSection {α : Type} (root : TomlTable) (name : String)
    (entry : String → TomlTable → Except String α) : Except String (List α) :=
  match (root.lookup name).bind TomlNode.asArray with
  | none => .ok []
  | some arr => parseArrayFrom ("[[" ++ name ++ "]]") entry 0 arr

def firstError : List (Bool × String) → Except String Unit
  | [] => .ok ()
  | (cond, text) :: rest => orFail cond text (firstError rest)

/-- `validate_cross_section` -/
def validateCrossSection (cfg : Config) : Except String Unit := do
  let start := cfg.program.loadAddress.toNat
  let stop := start + cfg.program.size.toNat
  orFail (!(cfg.program.authoritativeEntryPoints && cfg.extraFuncs.isEmpty))
    "[program].authoritative_entry_points requires at least one [[entry_point]]" (.ok ())
  firstError (cfg.extraFuncs.flatMap fun ef =>
    [(!(cfg.program.authoritativeEntryPoints && ef.size == 0),
        "[program].authoritative_entry_points requires an exact size for [[entry_point]] 0x" ++
          hexText8 ef.addr.toNat),
      (!(ef.size != 0 && (decide (ef.addr.toNat < start) ||
          decide (stop < ef.addr.toNat + ef.size.toNat))),
        "[[entry_point]] 0x" ++ hexText8 ef.addr.toNat ++ " size 0x" ++ hexText ef.size.toNat ++
          " lies outside the program image [0x" ++ hexText8 start ++ ", 0x" ++ hexText8 stop ++ ")")])
  firstError (cfg.excludeFuncs.flatMap fun ex => cfg.extraFuncs.map fun ef =>
    (ef.addr != ex.addr,
      "address 0x" ++ hexText8 ex.addr.toNat ++
        " is declared in BOTH [[extra_func]] and [[exclude_func]] — contradictory intent"))
  firstError (cfg.extraFuncs.flatMap fun ef => cfg.dataRanges.map fun dr =>
    (!(decide (dr.start ≤ ef.addr) && decide (ef.addr < dr.stop)),
      "[[extra_func]] at 0x" ++ hexText8 ef.addr.toNat ++ " falls inside [[data_range]] [0x" ++
        hexText8 dr.start.toNat ++ ", 0x" ++ hexText8 dr.stop.toNat ++ ")" ++
        (if dr.note = "" then "" else " — ") ++ dr.note))

/-- A section that has to be a table. -/
def tableSection (path : String) (root : TomlTable) (name : String) : Except String TomlTable :=
  match (root.lookup name).bind TomlNode.asTable with
  | none => .error ("[" ++ name ++ "] table missing in " ++ path)
  | some t => .ok t

/-- The loader, over the reader of its numbers. -/
def loadWith (rd : U32Reader) (lib : TomlLibrary) (path : String) (root : TomlTable) :
    Except String Config := do
  let programT ← tableSection path root "program"
  let program ← programSection rd programT lib
  let identityT ← tableSection path root "identity"
  let identity ← identitySection identityT
  let entryPoints ← parseSection root "entry_point" (entryPoint rd)
  let extraFuncs ← parseSection root "extra_func" (entryPoint rd)
  let dataRanges ← parseSection root "data_range" (dataRange rd)
  let codeCopies ← parseSection root "code_copy" (codeCopy rd)
  let jumpTables ← parseSection root "jump_table" (jumpTable rd)
  let excludeFuncs ← parseSection root "exclude_func" (excludeFunc rd)
  let cfg : Config := ⟨program, identity, entryPoints ++ extraFuncs, dataRanges, codeCopies,
    jumpTables, excludeFuncs⟩
  validateCrossSection cfg
  .ok cfg

/-- `load_config`, behind the TOML parser. -/
def loadConfig (lib : TomlLibrary) (path : String) (root : TomlTable) : Except String Config :=
  loadWith (getU32Field lib) lib path root

/-! ### What a config is -/

/-- The numeric fields of each section. -/
def numericSections : List (String × List String) :=
  [("entry_point", ["addr", "size"]), ("extra_func", ["addr", "size"]),
    ("data_range", ["start", "end"]), ("code_copy", ["runtime_start", "source_start", "size"]),
    ("jump_table", ["addr", "stride", "count"]), ("exclude_func", ["addr"])]

def programNumbers : List String := ["load_address", "size", "entry_pc"]

/-- The optional strings read behind the last check of an entry. -/
def lateTexts : List (String × List String) :=
  [("entry_point", ["name", "kind", "note"]), ("extra_func", ["name", "kind", "note"]),
    ("data_range", ["note"]), ("code_copy", ["name", "note"]), ("jump_table", ["name", "note"])]

/-- The entries of a section that are tables. -/
def sectionTables (root : TomlTable) (name : String) : List TomlTable :=
  (((root.lookup name).bind TomlNode.asArray).getD []).filterMap TomlNode.asTable

def PlainNumbers (lib : TomlLibrary) (t : TomlTable) (keys : List String) : Prop :=
  ∀ key ∈ keys, ∀ node, t.lookup key = some node → ¬ Loose lib node

/-- No numeric field of the config holds a loose node. -/
structure FieldsPlain (lib : TomlLibrary) (root : TomlTable) : Prop where
  program : ∀ t, (root.lookup "program").bind TomlNode.asTable = some t →
    PlainNumbers lib t programNumbers
  sections : ∀ s ∈ numericSections, ∀ t ∈ sectionTables root s.1, PlainNumbers lib t s.2

/-- Every optional string that is there is a string. -/
def textsPlain (root : TomlTable) : Bool :=
  lateTexts.all fun s => (sectionTables root s.1).all fun t =>
    s.2.all fun key => ((t.lookup key).map fun node => node.asText.isSome).getD true

/-- The config of the exact values, and nothing where any field is in error. -/
def exactConfig (lib : TomlLibrary) (path : String) (root : TomlTable) : Option Config :=
  if textsPlain root then (loadWith strictU32Field lib path root).toOption else none

/-- The loader gives the config of the exact values or none. -/
def LoadsExactly (lib : TomlLibrary) (path : String) (root : TomlTable) : Prop :=
  (loadConfig lib path root).toOption = exactConfig lib path root

/-! ### Readers that agree -/

theorem orFail_eq_ok {α : Type} {cond : Bool} {text : String} {next : Except String α} {a : α} :
    orFail cond text next = .ok a ↔ cond = true ∧ next = .ok a := by
  unfold orFail
  cases cond <;> simp

theorem bind_eq_ok {α β : Type} {x : Except String α} {f : α → Except String β} {b : β} :
    (x >>= f) = .ok b ↔ ∃ a, x = .ok a ∧ f a = .ok b := by
  cases x with
  | error e => exact ⟨fun h => (nomatch h), fun ⟨_, h, _⟩ => (nomatch h)⟩
  | ok a => exact ⟨fun h => ⟨a, rfl, h⟩, fun ⟨_, h, hf⟩ => by cases h; exact hf⟩

theorem parseArrayFrom_congr {α : Type} {label : String}
    {entry other : String → TomlTable → Except String α} {arr : List TomlNode}
    (h : ∀ t ∈ arr.filterMap TomlNode.asTable, ∀ at_, entry at_ t = other at_ t) (i : Nat) :
    parseArrayFrom label entry i arr = parseArrayFrom label other i arr := by
  induction arr generalizing i with
  | nil => rfl
  | cons node rest ih =>
      unfold parseArrayFrom
      cases htable : node.asTable with
      | none => rfl
      | some t =>
          rw [List.filterMap_cons, htable, List.forall_mem_cons] at h
          dsimp only
          rw [h.1, ih h.2]

theorem parseArrayFrom_ok {α : Type} {label : String} {entry : String → TomlTable → Except String α}
    {arr : List TomlNode} {i : Nat} {out : List α} (h : parseArrayFrom label entry i arr = .ok out) :
    ∀ t ∈ arr.filterMap TomlNode.asTable, ∃ at_ e, entry at_ t = .ok e := by
  induction arr generalizing i out with
  | nil => simp
  | cons node rest ih =>
      unfold parseArrayFrom at h
      cases htable : node.asTable with
      | none =>
          rw [htable] at h
          cases h
      | some t =>
          rw [htable] at h
          dsimp only at h
          obtain ⟨e, he, h⟩ := bind_eq_ok.mp h
          obtain ⟨others, hothers, -⟩ := bind_eq_ok.mp h
          rw [List.filterMap_cons, htable, List.forall_mem_cons]
          exact ⟨⟨_, e, he⟩, ih hothers⟩

theorem parseSection_congr {α : Type} {root : TomlTable} {name : String}
    {entry other : String → TomlTable → Except String α}
    (h : ∀ t ∈ sectionTables root name, ∀ at_, entry at_ t = other at_ t) :
    parseSection root name entry = parseSection root name other := by
  unfold sectionTables at h
  unfold parseSection
  cases harr : (root.lookup name).bind TomlNode.asArray with
  | none => rfl
  | some arr =>
      rw [harr, Option.getD_some] at h
      exact parseArrayFrom_congr h 0

theorem parseSection_ok {α : Type} {root : TomlTable} {name : String}
    {entry : String → TomlTable → Except String α} {out : List α}
    (h : parseSection root name entry = .ok out) :
    ∀ t ∈ sectionTables root name, ∃ at_ e, entry at_ t = .ok e := by
  unfold parseSection at h
  unfold sectionTables
  cases harr : (root.lookup name).bind TomlNode.asArray with
  | none => simp
  | some arr =>
      rw [harr] at h
      exact parseArrayFrom_ok h

section Agree

variable {rd other : U32Reader} {at_ : String} {t : TomlTable}

theorem entryPoint_congr (h : ∀ key ∈ ["addr", "size"], rd t key = other t key) :
    entryPoint rd at_ t = entryPoint other at_ t := by
  unfold entryPoint
  rw [h "addr" (by simp), h "size" (by simp)]

theorem dataRange_congr (h : ∀ key ∈ ["start", "end"], rd t key = other t key) :
    dataRange rd at_ t = dataRange other at_ t := by
  unfold dataRange
  rw [h "start" (by simp), h "end" (by simp)]

theorem codeCopy_congr (h : ∀ key ∈ ["runtime_start", "source_start", "size"],
    rd t key = other t key) : codeCopy rd at_ t = codeCopy other at_ t := by
  unfold codeCopy
  rw [h "runtime_start" (by simp), h "source_start" (by simp), h "size" (by simp)]

theorem jumpTable_congr (h : ∀ key ∈ ["addr", "stride", "count"], rd t key = other t key) :
    jumpTable rd at_ t = jumpTable other at_ t := by
  unfold jumpTable
  rw [h "addr" (by simp), h "stride" (by simp), h "count" (by simp)]

theorem excludeFunc_congr (h : ∀ key ∈ ["addr"], rd t key = other t key) :
    excludeFunc rd at_ t = excludeFunc other at_ t := by
  unfold excludeFunc
  rw [h "addr" (by simp)]

theorem programSection_congr {lib : TomlLibrary}
    (h : ∀ key ∈ programNumbers, rd t key = other t key) :
    programSection rd t lib = programSection other t lib := by
  unfold programSection
  rw [h "load_address" (by simp [programNumbers]), h "size" (by simp [programNumbers]),
    h "entry_pc" (by simp [programNumbers])]

end Agree

theorem tableSection_ok {path : String} {root : TomlTable} {name : String} {t : TomlTable}
    (h : tableSection path root name = .ok t) :
    (root.lookup name).bind TomlNode.asTable = some t := by
  unfold tableSection at h
  split at h
  · cases h
  · next heq =>
      cases h
      exact heq

/-- Without a loose node the loader is the strict one. -/
theorem loadConfig_eq_strict {lib : TomlLibrary} {path : String} {root : TomlTable}
    (h : FieldsPlain lib root) : loadConfig lib path root = loadWith strictU32Field lib path root := by
  have hread : ∀ s ∈ numericSections, ∀ t ∈ sectionTables root s.1, ∀ key ∈ s.2,
      getU32Field lib t key = strictU32Field t key :=
    fun s hs t ht key hkey => getU32Field_eq_strict (h.sections s hs t ht key hkey)
  have hentry : ∀ name ∈ ["entry_point", "extra_func"],
      parseSection root name (entryPoint (getU32Field lib)) =
        parseSection root name (entryPoint strictU32Field) := by
    intro name hname
    refine parseSection_congr fun t ht _ =>
      entryPoint_congr (hread (name, ["addr", "size"]) ?_ t ht)
    rcases List.mem_pair.mp hname with rfl | rfl <;> simp [numericSections]
  have hdata : parseSection root "data_range" (dataRange (getU32Field lib)) =
      parseSection root "data_range" (dataRange strictU32Field) :=
    parseSection_congr fun t ht _ =>
      dataRange_congr (hread ("data_range", ["start", "end"]) (by simp [numericSections]) t ht)
  have hcopy : parseSection root "code_copy" (codeCopy (getU32Field lib)) =
      parseSection root "code_copy" (codeCopy strictU32Field) :=
    parseSection_congr fun t ht _ =>
      codeCopy_congr (hread ("code_copy", ["runtime_start", "source_start", "size"])
        (by simp [numericSections]) t ht)
  have hjump : parseSection root "jump_table" (jumpTable (getU32Field lib)) =
      parseSection root "jump_table" (jumpTable strictU32Field) :=
    parseSection_congr fun t ht _ =>
      jumpTable_congr (hread ("jump_table", ["addr", "stride", "count"])
        (by simp [numericSections]) t ht)
  have hexclude : parseSection root "exclude_func" (excludeFunc (getU32Field lib)) =
      parseSection root "exclude_func" (excludeFunc strictU32Field) :=
    parseSection_congr fun t ht _ =>
      excludeFunc_congr (hread ("exclude_func", ["addr"]) (by simp [numericSections]) t ht)
  unfold loadConfig loadWith
  rw [hentry "entry_point" (by simp), hentry "extra_func" (by simp), hdata, hcopy, hjump, hexclude]
  cases hprogram : tableSection path root "program" with
  | error e => rfl
  | ok t =>
      have hsame : programSection (getU32Field lib) t lib = programSection strictU32Field t lib :=
        programSection_congr fun key hkey =>
          getU32Field_eq_strict (h.program t (tableSection_ok hprogram) key hkey)
      change (programSection (getU32Field lib) t lib >>= _) =
        (programSection strictU32Field t lib >>= _)
      rw [hsame]

/-! ### What the strict loader accepts -/

section Accepts

variable {lib : TomlLibrary} {at_ : String} {t : TomlTable}

theorem plainNumbers_nil : PlainNumbers lib t [] := fun _ h => (nomatch h)

theorem plainNumbers_cons {key : String} {keys : List String}
    (h : ∀ node, t.lookup key = some node → ¬ Loose lib node) (hrest : PlainNumbers lib t keys) :
    PlainNumbers lib t (key :: keys) :=
  List.forall_mem_cons.mpr ⟨h, hrest⟩

theorem entryPoint_plain {e : ConfigExtraFunc} (h : entryPoint strictU32Field at_ t = .ok e) :
    PlainNumbers lib t ["addr", "size"] := by
  unfold entryPoint at h
  obtain ⟨haddr, h⟩ := orFail_eq_ok.mp h
  obtain ⟨hsize, -⟩ := orFail_eq_ok.mp h
  exact plainNumbers_cons (strictU32Field_ok haddr).2
    (plainNumbers_cons (strictU32Field_ok hsize).2 plainNumbers_nil)

theorem dataRange_plain {r : ConfigDataRange} (h : dataRange strictU32Field at_ t = .ok r) :
    PlainNumbers lib t ["start", "end"] := by
  unfold dataRange at h
  obtain ⟨hstop, hstopPlain⟩ := strictU32Field_ok (orFail_eq_ok.mp h).1
  obtain ⟨-, hstartPlain⟩ := strictU32Field_ok hstop
  exact plainNumbers_cons hstartPlain (plainNumbers_cons hstopPlain plainNumbers_nil)

theorem codeCopy_plain {c : ConfigCodeCopy} (h : codeCopy strictU32Field at_ t = .ok c) :
    PlainNumbers lib t ["runtime_start", "source_start", "size"] := by
  unfold codeCopy at h
  obtain ⟨hsize, hsizePlain⟩ := strictU32Field_ok (orFail_eq_ok.mp h).1
  obtain ⟨hsource, hsourcePlain⟩ := strictU32Field_ok hsize
  obtain ⟨-, hruntimePlain⟩ := strictU32Field_ok hsource
  exact plainNumbers_cons hruntimePlain
    (plainNumbers_cons hsourcePlain (plainNumbers_cons hsizePlain plainNumbers_nil))

theorem jumpTable_plain {jt : ConfigJumpTable} (h : jumpTable strictU32Field at_ t = .ok jt) :
    PlainNumbers lib t ["addr", "stride", "count"] := by
  unfold jumpTable at h
  obtain ⟨hcount, hcountPlain⟩ := strictU32Field_ok (orFail_eq_ok.mp h).1
  obtain ⟨hstride, hstridePlain⟩ := strictU32Field_ok hcount
  obtain ⟨-, haddrPlain⟩ := strictU32Field_ok hstride
  exact plainNumbers_cons haddrPlain
    (plainNumbers_cons hstridePlain (plainNumbers_cons hcountPlain plainNumbers_nil))

theorem excludeFunc_plain {x : ConfigExcludeFunc} (h : excludeFunc strictU32Field at_ t = .ok x) :
    PlainNumbers lib t ["addr"] := by
  unfold excludeFunc at h
  exact plainNumbers_cons (strictU32Field_ok (orFail_eq_ok.mp h).1).2 plainNumbers_nil

theorem programSection_plain {p : ConfigProgram} (h : programSection strictU32Field t lib = .ok p) :
    PlainNumbers lib t programNumbers := by
  unfold programSection at h
  obtain ⟨hentry, hentryPlain⟩ := strictU32Field_ok (orFail_eq_ok.mp h).1
  obtain ⟨hsize, hsizePlain⟩ := strictU32Field_ok hentry
  obtain ⟨-, hloadPlain⟩ := strictU32Field_ok hsize
  exact plainNumbers_cons hloadPlain
    (plainNumbers_cons hsizePlain (plainNumbers_cons hentryPlain plainNumbers_nil))

end Accepts

/-- What the strict loader accepts holds no loose node. -/
theorem fieldsPlain_of_strict {lib : TomlLibrary} {path : String} {root : TomlTable} {cfg : Config}
    (h : loadWith strictU32Field lib path root = .ok cfg) : FieldsPlain lib root := by
  unfold loadWith at h
  obtain ⟨programT, hprogramT, h⟩ := bind_eq_ok.mp h
  obtain ⟨program, hprogram, h⟩ := bind_eq_ok.mp h
  obtain ⟨identityT, -, h⟩ := bind_eq_ok.mp h
  obtain ⟨identity, -, h⟩ := bind_eq_ok.mp h
  obtain ⟨entryPoints, hentry, h⟩ := bind_eq_ok.mp h
  obtain ⟨extraFuncs, hextra, h⟩ := bind_eq_ok.mp h
  obtain ⟨dataRanges, hdata, h⟩ := bind_eq_ok.mp h
  obtain ⟨codeCopies, hcopy, h⟩ := bind_eq_ok.mp h
  obtain ⟨jumpTables, hjump, h⟩ := bind_eq_ok.mp h
  obtain ⟨excludeFuncs, hexclude, -⟩ := bind_eq_ok.mp h
  refine ⟨fun t ht => ?_, ?_⟩
  · rw [tableSection_ok hprogramT] at ht
    cases ht
    exact programSection_plain hprogram
  · have heach : ∀ {α : Type} {name : String} {entry : String → TomlTable → Except String α}
        {out : List α} {keys : List String},
        parseSection root name entry = .ok out →
        (∀ at_ t e, entry at_ t = .ok e → PlainNumbers lib t keys) →
        ∀ t ∈ sectionTables root name, PlainNumbers lib t keys := by
      intro α name entry out keys hparse hplain t ht
      obtain ⟨at_, e, he⟩ := parseSection_ok hparse t ht
      exact hplain at_ t e he
    simp only [numericSections, List.forall_mem_cons]
    refine ⟨heach hentry fun _ _ _ => entryPoint_plain, heach hextra fun _ _ _ => entryPoint_plain,
      heach hdata fun _ _ _ => dataRange_plain, heach hcopy fun _ _ _ => codeCopy_plain,
      heach hjump fun _ _ _ => jumpTable_plain, heach hexclude fun _ _ _ => excludeFunc_plain,
      fun s hs => (nomatch hs)⟩

/-! ### Exactness -/

section Exactness

variable {lib : TomlLibrary} {path : String} {root : TomlTable}

theorem loadsExactly_of_plain (h : FieldsPlain lib root) (htexts : textsPlain root = true) :
    LoadsExactly lib path root := by
  unfold LoadsExactly exactConfig
  rw [loadConfig_eq_strict h, htexts]
  rfl

theorem LoadsExactly.plain (h : LoadsExactly lib path root) {cfg : Config}
    (hload : loadConfig lib path root = .ok cfg) :
    FieldsPlain lib root ∧ textsPlain root = true := by
  unfold LoadsExactly exactConfig at h
  rw [hload] at h
  by_cases htexts : textsPlain root = true
  · rw [if_pos htexts] at h
    cases hstrict : loadWith strictU32Field lib path root with
    | error e =>
        rw [hstrict] at h
        cases h
    | ok other => exact ⟨fieldsPlain_of_strict hstrict, htexts⟩
  · rw [if_neg htexts] at h
    cases h

/-- What the loader refuses, the strict one refuses too. -/
theorem loadsExactly_of_error {e : String} (hload : loadConfig lib path root = .error e) :
    LoadsExactly lib path root := by
  unfold LoadsExactly exactConfig
  cases hstrict : loadWith strictU32Field lib path root with
  | error e' =>
      rw [hload]
      split <;> rfl
  | ok cfg =>
      rw [loadConfig_eq_strict (fieldsPlain_of_strict hstrict), hstrict] at hload
      cases hload

end Exactness

/-- Of one field that is there: the helper stores the exact value or fails exactly
where the node is not loose. Of a whole file: the loader gives the config of the
exact values, or none where any field is in error, exactly if what it accepts
holds no loose node and no optional field that is not a string. -/
theorem loadsExactly_iff (lib : TomlLibrary) (path : String) (root : TomlTable) :
    (∀ (t : TomlTable) (key : String) (node : TomlNode) (required : Bool),
      t.lookup key = some node →
        (((getU32Field lib t key required {}).1 = (strictU32Field t key required {}).1 ∧
          (getU32Field lib t key required {}).2.ok = (strictU32Field t key required {}).2.ok) ↔
            ¬ Loose lib node)) ∧
    (LoadsExactly lib path root ↔
      ∀ cfg, loadConfig lib path root = .ok cfg → FieldsPlain lib root ∧ textsPlain root = true) := by
  constructor
  · intro t key node required hnode
    constructor
    · rintro ⟨-, hok⟩ hloose
      obtain ⟨hkept, hrefused⟩ := loose_taken hnode hloose required {}
      rw [hkept, hrefused] at hok
      cases hok
    · intro hplain
      rw [getU32Field_eq_strict fun other hother => by
        rw [hnode] at hother
        cases hother
        exact hplain]
      exact ⟨rfl, rfl⟩
  · constructor
    · exact fun h cfg hload => h.plain hload
    · intro h
      cases hload : loadConfig lib path root with
      | error e => exact loadsExactly_of_error hload
      | ok cfg => exact loadsExactly_of_plain (h cfg hload).1 (h cfg hload).2

/-- The library's conversions of booleans. -/
def permissiveToml : TomlLibrary where
  int64
    | .integer v => some v
    | .boolean b => some (if b then 1 else 0)
    | _ => none
  int64_integer := fun _ => rfl
  int64_text := fun _ => rfl
  bool
    | .boolean b => some b
    | .integer v => some (v != 0)
    | _ => none
  ulongBits := 64
  ulongBits_ge := by decide

/-- A file that excludes a function at 33 bits. -/
def wideAddress : TomlTable :=
  [("program", .table [("load_address", .integer 0x02000000), ("size", .integer 0x1000),
      ("entry_pc", .integer 0x02000000)]),
    ("identity", .table [("sha1", .text "da39a3ee")]),
    ("exclude_func", .array [.table [("addr", .integer 0x102000000), ("reason", .text "data")]])]

/-- The file loads, with the address cut to 32 bits. -/
theorem wideAddress_taken : ¬ LoadsExactly permissiveToml "game.toml" wideAddress := by
  intro h
  have hload : (loadConfig permissiveToml "game.toml" wideAddress).isOk = true := by
    decide
  cases hcfg : loadConfig permissiveToml "game.toml" wideAddress with
  | error e =>
      rw [hcfg] at hload
      cases hload
  | ok cfg =>
      have hplain := (h.plain hcfg).1.sections ("exclude_func", ["addr"]) (by simp [numericSections])
        [("addr", .integer 0x102000000), ("reason", .text "data")] (List.mem_singleton.mpr rfl)
        "addr" (List.mem_singleton.mpr rfl) (.integer 0x102000000) rfl
      exact hplain ⟨rfl, Or.inl rfl⟩

end NdsRecomp.Recompiler
