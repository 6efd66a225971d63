import NdsRecomp.Library.KeyedUnique
import NdsRecomp.Dispatch.Registry
import NdsRecomp.LiveOverlay.Banks
import Mathlib.Data.List.Sort

/-!
The dispatch table the recompiler emits for a content-validated bank, and the
pruning pass before it: keys that a bank registered earlier already owns get no
row, and a function with no row left is not emitted.
-/

namespace NdsRecomp.Recompiler

open Library Dispatch Bus LiveOverlay

/-- A function as the finder and the splitting pass leave it. -/
structure EmitFunction where
  addr : UInt32
  sourceAddr : UInt32 := 0
  thumb : Bool
  name : String
  endAddr : UInt32
deriving DecidableEq

namespace EmitFunction

def step (fn : EmitFunction) : Nat := if fn.thumb then 2 else 4

/-- `for (pc = addr; pc < end_addr; pc += step)` -/
def pcs (fn : EmitFunction) : List UInt32 :=
  (List.range ((fn.endAddr.toNat - fn.addr.toNat + fn.step - 1) / fn.step)).map fun i =>
    UInt32.ofNat (fn.addr.toNat + i * fn.step)

def size (fn : EmitFunction) : UInt32 := fn.endAddr - fn.addr

def source (fn : EmitFunction) : UInt32 := if fn.sourceAddr ≠ 0 then fn.sourceAddr else fn.addr

/-- `function_key` -/
def key (fn : EmitFunction) (pc : UInt32) : UInt64 := dispatchKey pc fn.thumb

end EmitFunction

structure BankImage where
  bytes : List UInt8
  loadAddress : UInt32

/-- The image's bytes at a guest range, where it holds all of them. -/
def BankImage.slice (image : BankImage) (addr : UInt32) (size : Nat) : Option (List UInt8) :=
  if image.loadAddress ≤ addr ∧ addr.toNat - image.loadAddress.toNat + size ≤ image.bytes.length then
    some ((image.bytes.drop (addr.toNat - image.loadAddress.toNat)).take size)
  else none

theorem BankImage.slice_length {image : BankImage} {addr : UInt32} {size : Nat} {bytes : List UInt8}
    (h : image.slice addr size = some bytes) : bytes.length = size := by
  unfold slice at h
  split at h
  · next hinside =>
      cases h
      rw [List.length_take, List.length_drop]
      omega
  · cases h

/-! ### Validations -/

/-- One interval after the sorted ones before it. -/
def mergeInterval (merged : List (Nat × Nat)) (interval : Nat × Nat) : List (Nat × Nat) :=
  match merged.getLast? with
  | some back =>
      if back.2 < interval.1 then merged ++ [interval]
      else merged.dropLast ++ [(back.1, max back.2 interval.2)]
  | none => [interval]

def intervalLe (a b : Nat × Nat) : Prop := a.1 < b.1 ∨ (a.1 = b.1 ∧ a.2 ≤ b.2)

instance : DecidableRel intervalLe := fun _ _ => inferInstanceAs (Decidable (_ ∨ _))

def closureRange (image : BankImage) (interval : Nat × Nat) : NdsStaticValidationRange where
  addr := UInt32.ofNat interval.1
  size := UInt32.ofNat (interval.2 - interval.1)
  expected := image.slice (UInt32.ofNat interval.1) (UInt32.ofNat (interval.2 - interval.1)).toNat
  expected_length := fun _ h => BankImage.slice_length h

/-- The merged ranges of all functions, with `--validated-live-direct-calls`. -/
def dependencyClosure (image : BankImage) (closed : Bool) (funcs : List EmitFunction) :
    List NdsStaticValidationRange :=
  if closed then
    (((funcs.map fun fn => (fn.addr.toNat, fn.addr.toNat + fn.size.toNat)).insertionSort
      intervalLe).foldl mergeInterval []).map (closureRange image)
  else []

/-- `dependencyCount` is 32 bits wide; a longer list is no table. -/
def validationOf (image : BankImage) (closure : List NdsStaticValidationRange) (body : NativeBody)
    (fn : EmitFunction) : NdsStaticValidation where
  object := body
  addr := fn.addr
  size := fn.size
  expected := image.slice fn.source fn.size.toNat
  dependencies := if 0 < closure.length ∧ closure.length < 2 ^ 32 then some closure else none
  dependencyCount := UInt32.ofNat closure.length
  expected_length := fun _ h => BankImage.slice_length h
  dependencies_length := by
    intro ranges h
    split at h
    · next hlt =>
        cases h
        exact (UInt32.toNat_ofNat_of_lt' hlt.2).symm
    · cases h

/-! ### Rows -/

structure EmitRow where
  addr : UInt32
  fn : EmitFunction
deriving DecidableEq

def EmitRow.key (row : EmitRow) : UInt64 := row.fn.key row.addr

def EmitRow.keyNat (row : EmitRow) : Nat := row.key.toNat

/-- The comparison the rows are sorted by. -/
def rowBefore (a b : EmitRow) : Prop :=
  if a.addr ≠ b.addr then a.addr < b.addr
  else if a.fn.thumb ≠ b.fn.thumb then a.fn.thumb < b.fn.thumb
  else a.fn.name < b.fn.name

instance : DecidableRel rowBefore := fun _ _ => by
  unfold rowBefore
  exact inferInstance

def rowLe (a b : EmitRow) : Prop := ¬ rowBefore b a

instance : DecidableRel rowLe := fun _ _ => inferInstanceAs (Decidable (¬ _))

def rawRows (funcs : List EmitFunction) (prunedKeys : List UInt64) : List EmitRow :=
  funcs.flatMap fun fn =>
    (fn.pcs.filter fun pc => !prunedKeys.contains (fn.key pc)).map fun pc => ⟨pc, fn⟩

/-- `std::sort`, then `std::unique` by key. -/
def emitRows (funcs : List EmitFunction) (prunedKeys : List UInt64) : List EmitRow :=
  uniqueByKey EmitRow.keyNat ((rawRows funcs prunedKeys).insertionSort rowLe)

/-- What a bank is emitted from, and the addresses its bodies are linked at. -/
structure BankEmission where
  image : BankImage
  closed : Bool
  table : TableId
  bodyOf : String → NativeBody

def BankEmission.validation (e : BankEmission) (funcs : List EmitFunction) (fn : EmitFunction) :
    NdsStaticValidation :=
  validationOf e.image (dependencyClosure e.image e.closed funcs) (e.bodyOf fn.name) fn

def BankEmission.entry (e : BankEmission) (funcs : List EmitFunction) (row : EmitRow) :
    NdsDispatchEntry where
  addr := row.addr
  thumb := if row.fn.thumb then 1 else 0
  fn := e.bodyOf row.fn.name
  validation := some (e.validation funcs row.fn)

/-- `write_bank_dispatch` -/
def BankEmission.view (e : BankEmission) (funcs : List EmitFunction) (prunedKeys : List UInt64) :
    NdsDispatchBankView where
  table := e.table
  entries := (emitRows funcs prunedKeys).map (e.entry funcs)

/-! ### Pruning -/

structure PrecedingOwner where
  addr : UInt32
  size : UInt32
  expected : List UInt8

/-- A validated row of a preceding table at the key: the larger span stays. -/
def offerOwner (owner : Option PrecedingOwner) (v : NdsStaticValidation) : Option PrecedingOwner :=
  match v.expected with
  | none => owner
  | some bytes =>
      match owner with
      | some o => if v.size ≤ o.size then some o else some ⟨v.addr, v.size, bytes⟩
      | none => some ⟨v.addr, v.size, bytes⟩

/-- `owners[key]` after `read_preceding_dispatch` of every table. -/
def precedingOwner (tables : List NdsDispatchBankView) (key : UInt64) : Option PrecedingOwner :=
  (tables.flatMap NdsDispatchBankView.entries).foldl (fun owner entry =>
    if dispatchKey entry.addr (entry.thumb != 0) = key then
      match entry.validation with
      | some v => offerOwner owner v
      | none => owner
    else owner) none

def ownerCovers (image : BankImage) (owner : PrecedingOwner) (fn : EmitFunction) : Bool :=
  owner.size != 0 && !(fn.sourceAddr != 0 && fn.sourceAddr != fn.addr) &&
    decide (owner.addr ≤ fn.addr) && decide (fn.addr < fn.endAddr) &&
    decide (fn.endAddr.toNat ≤ owner.addr.toNat + owner.size.toNat) &&
    (image.slice owner.addr owner.size.toNat == some owner.expected)

/-- `owned_by_preceding` -/
def ownedByPreceding (image : BankImage) (tables : List NdsDispatchBankView) (fn : EmitFunction)
    (pc : UInt32) : Bool :=
  match precedingOwner tables (fn.key pc) with
  | some owner => ownerCovers image owner fn
  | none => false

def shadowed (image : BankImage) (tables : List NdsDispatchBankView) (fn : EmitFunction) :
    List UInt64 :=
  (fn.pcs.filter (ownedByPreceding image tables fn)).map fn.key

def prunedKeys (image : BankImage) (tables : List NdsDispatchBankView) (funcs : List EmitFunction) :
    List UInt64 :=
  funcs.flatMap (shadowed image tables)

/-- The functions that keep a row, and those that have none to begin with. -/
def keptFunctions (image : BankImage) (tables : List NdsDispatchBankView)
    (funcs : List EmitFunction) : List EmitFunction :=
  funcs.filter fun fn =>
    !(decide (shadowed image tables fn ≠ []) &&
      (shadowed image tables fn).length == fn.pcs.length)

/-! ### Liveness at run time -/

/-- A range ends inside the address space, has been written, and holds the bytes. -/
def dependencyLive (mem : GuestMemory) (cpu : NdsCpu) (range : NdsStaticValidationRange) : Bool :=
  decide (range.addr.toNat + range.size.toNat ≤ 2 ^ 32) &&
    rangeLive mem cpu range.addr range.size range.expected

/-- `dispatch_validation_live` -/
def dispatchValidationLive (mem : GuestMemory) (cpu : NdsCpu) : NdsDispatchValidationFn :=
  fun v pc thumb =>
    ndsDispatchValidationOwnsEntry v pc thumb &&
      if v.dependencyCount ≠ 0 then
        match v.dependencies with
        | none => false
        | some ranges => ranges.all (dependencyLive mem cpu)
      else rangeLive mem cpu v.addr v.size v.expected

end NdsRecomp.Recompiler
