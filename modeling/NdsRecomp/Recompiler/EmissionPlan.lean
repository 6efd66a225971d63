import NdsRecomp.Library.IndexRanges
import NdsRecomp.Recompiler.EmitDispatch
import Mathlib.Data.String.Basic

/-!
One bank's emission: finder functions are split into chunks, pruned, planned into
superblocks, and written as a dispatch table and body shards. The Thumb decoder
belongs to another repository, so whether a halfword is a BL prefix is a
parameter.
-/

namespace NdsRecomp.Recompiler

open Library Dispatch Bus LiveOverlay

/-- The options and inputs of one run over a bank. -/
structure EmissionConfig where
  image : BankImage
  /-- `cfg.program.size`. -/
  programSize : UInt32
  fnPrefix : String
  /-- `--max-function-bytes`; 0 does not split. -/
  maxFunctionBytes : UInt32
  /-- `ThumbDecoder::decode(hw, pc).op == BL_prefix`. -/
  isBlPrefix : UInt16 → UInt32 → Bool
  /-- `owned_by_preceding`; false everywhere without `--prune-preceding-owned`. -/
  owned : EmitFunction → UInt32 → Bool
  precedingRows : List UInt64
  coalesceFallthroughs : Bool
  stableAddressShards : Bool
  shards : UInt32

/-! ### Splitting -/

def EmitFunction.stepWord (fn : EmitFunction) : UInt32 := if fn.thumb then 2 else 4

def chunkLimit (maxBytes : UInt32) (fn : EmitFunction) : UInt32 :=
  max fn.stepWord (maxBytes - maxBytes % fn.stepWord)

/-- The halfword before the boundary is there and is the first of a BL pair. -/
def blPairAt (e : EmissionConfig) (fn : EmitFunction) (chunkEnd : UInt32) : Bool :=
  let source := fn.source.toNat + (chunkEnd - fn.addr).toNat - 2
  let off := source - e.image.loadAddress.toNat
  decide (e.image.loadAddress.toNat ≤ source) && decide (off + 2 ≤ e.image.bytes.length) &&
    e.isBlPrefix
      ((e.image.bytes.getD off 0).toUInt16 ||| (e.image.bytes.getD (off + 1) 0).toUInt16 <<< 8)
      (chunkEnd - 2)

def chunkEnd (e : EmissionConfig) (fn : EmitFunction) (at_ : UInt32) : UInt32 :=
  let stop := min fn.endAddr (at_ + chunkLimit e.maxFunctionBytes fn)
  if fn.thumb && decide (stop < fn.endAddr) && decide (fn.addr + 2 ≤ stop) && blPairAt e fn stop then
    stop + 2
  else stop

def chunk (fn : EmitFunction) (at_ stop : UInt32) (part : Nat) : EmitFunction where
  addr := at_
  sourceAddr := if fn.sourceAddr ≠ 0 then fn.sourceAddr + (at_ - fn.addr) else fn.sourceAddr
  thumb := fn.thumb
  name := if part ≠ 0 then fn.name ++ "_chunk_" ++ toString part else fn.name
  endAddr := stop

/-- The chunking loop for so many turns; nothing when it goes on beyond them. -/
def splitFrom (e : EmissionConfig) (fn : EmitFunction) :
    Nat → UInt32 → Nat → Option (List EmitFunction)
  | 0, at_, _ => if at_ < fn.endAddr then none else some []
  | fuel + 1, at_, part =>
      if at_ < fn.endAddr then
        (splitFrom e fn fuel (chunkEnd e fn at_) (part + 1)).map
          (chunk fn at_ (chunkEnd e fn at_) part :: ·)
      else some []

/-- Every turn whose end does not wrap moves forward, so as many turns as the
function has bytes are enough. -/
def splitFunction (e : EmissionConfig) (fn : EmitFunction) : Option (List EmitFunction) :=
  splitFrom e fn (fn.endAddr.toNat - fn.addr.toNat) fn.addr 0

def splitEach (e : EmissionConfig) : List EmitFunction → Option (List EmitFunction)
  | [] => some []
  | fn :: rest => (splitFunction e fn).bind fun parts => (splitEach e rest).map (parts ++ ·)

def splitFunctionsForEmission (e : EmissionConfig) (funcs : List EmitFunction) :
    Option (List EmitFunction) :=
  if e.maxFunctionBytes = 0 then some funcs else splitEach e funcs

/-! ### Pruning -/

def shadowedBy (owned : EmitFunction → UInt32 → Bool) (fn : EmitFunction) : List UInt64 :=
  (fn.pcs.filter (owned fn)).map fn.key

def prunedBy (owned : EmitFunction → UInt32 → Bool) (funcs : List EmitFunction) : List UInt64 :=
  funcs.flatMap (shadowedBy owned)

def keptBy (owned : EmitFunction → UInt32 → Bool) (funcs : List EmitFunction) :
    List EmitFunction :=
  funcs.filter fun fn =>
    !(decide (shadowedBy owned fn ≠ []) && (shadowedBy owned fn).length == fn.pcs.length)

/-- The pruning of a content-validated bank is the one its preceding tables give. -/
theorem keptFunctions_eq (image : BankImage) (tables : List NdsDispatchBankView)
    (funcs : List EmitFunction) :
    keptFunctions image tables funcs = keptBy (ownedByPreceding image tables) funcs := rfl

/-! ### Superblocks -/

def pageOf (addr : UInt32) : UInt32 := addr &&& 0xFFFFF000

/-- `key_counts[function_key(fn.addr, fn.mode)]` -/
def keyCount (funcs : List EmitFunction) (fn : EmitFunction) : Nat :=
  funcs.countP fun other => other.key other.addr == fn.key fn.addr

/-- Identity mapped, not empty, inside the page, and alone at its key. -/
def fitsPage (funcs : List EmitFunction) (page : UInt32) (fn : EmitFunction) : Prop :=
  fn.source = fn.addr ∧ fn.addr < fn.endAddr ∧ fn.endAddr.toNat ≤ page.toNat + 4096 ∧
    keyCount funcs fn = 1

instance (funcs : List EmitFunction) (page : UInt32) : DecidablePred (fitsPage funcs page) :=
  fun _ => inferInstanceAs (Decidable (_ ∧ _))

/-- The test that keeps `next` in the block `prev` is in. -/
def joinsBlock (e : EmissionConfig) (funcs : List EmitFunction) (page : UInt32)
    (prev next : EmitFunction) : Prop :=
  prev.endAddr = next.addr ∧ prev.thumb = next.thumb ∧ pageOf next.addr = page ∧
    fitsPage funcs page next ∧ next.key next.addr ∉ e.precedingRows

instance (e : EmissionConfig) (funcs : List EmitFunction) (page : UInt32)
    (prev next : EmitFunction) : Decidable (joinsBlock e funcs page prev next) :=
  inferInstanceAs (Decidable (_ ∧ _))

/-- The functions that join the block after `prev`, and the rest. -/
def joinedRun (e : EmissionConfig) (funcs : List EmitFunction) (page : UInt32) :
    EmitFunction → List EmitFunction → List EmitFunction × List EmitFunction
  | _, [] => ([], [])
  | prev, next :: rest =>
      if joinsBlock e funcs page prev next then
        (next :: (joinedRun e funcs page next rest).1, (joinedRun e funcs page next rest).2)
      else ([], next :: rest)

/-- The outer loop, with the functions left; each turn takes at least one. -/
def superblocksFrom (e : EmissionConfig) (funcs : List EmitFunction) :
    Nat → List EmitFunction → List (List EmitFunction)
  | 0, _ => []
  | _ + 1, [] => []
  | fuel + 1, head :: rest =>
      if fitsPage funcs (pageOf head.addr) head then
        (head :: (joinedRun e funcs (pageOf head.addr) head rest).1) ::
          superblocksFrom e funcs fuel (joinedRun e funcs (pageOf head.addr) head rest).2
      else [head] :: superblocksFrom e funcs fuel rest

/-- The plan as the runs of functions that share a leader. -/
def buildSuperblocks (e : EmissionConfig) (funcs : List EmitFunction) :
    List (List EmitFunction) :=
  if e.coalesceFallthroughs then superblocksFrom e funcs funcs.length funcs
  else funcs.map fun fn => [fn]

/-! ### Shards -/

/-- The order of `--stable-address-shards`: source address, address, mode. -/
def stableLe (a b : EmitFunction) : Prop :=
  toLex (a.source.toNat, toLex (a.addr.toNat, a.thumb)) ≤
    toLex (b.source.toNat, toLex (b.addr.toNat, b.thumb))

instance : DecidableRel stableLe := fun _ _ => inferInstanceAs (Decidable (_ ≤ _))

def sourceOutside (e : EmissionConfig) (fn : EmitFunction) : Bool :=
  decide (fn.source < e.image.loadAddress) ||
    decide (e.image.loadAddress.toNat + e.programSize.toNat ≤ fn.source.toNat)

def shardCount (e : EmissionConfig) : Nat := if e.shards = 0 then 1 else e.shards.toNat

def bandEnd (e : EmissionConfig) (shard : Nat) : Nat :=
  e.image.loadAddress.toNat + e.programSize.toNat * (shard + 1) / shardCount e

/-- One range a band: the functions whose source lies below its end. -/
def stableRanges (e : EmissionConfig) : List Nat → Nat → List EmitFunction → List (Nat × Nat)
  | [], _, _ => []
  | shard :: shards, first, rest =>
      let taken := (rest.takeWhile fun fn => decide (fn.source.toNat < bandEnd e shard)).length
      (first, first + taken) :: stableRanges e shards (first + taken) (rest.drop taken)

def weight (fn : EmitFunction) : Nat := max 1 fn.size.toNat

/-- How many more functions go in a shard that weighs so much. -/
def shardRest (target : Nat) : Nat → List EmitFunction → Nat
  | _, [] => 0
  | w, fn :: rest => if w < target then shardRest target (w + weight fn) rest + 1 else 0

/-- The first function goes in whatever it weighs. -/
def shardLength (target : Nat) : List EmitFunction → Nat
  | [] => 0
  | fn :: rest => shardRest target (weight fn) rest + 1

def weightOf (funcs : List EmitFunction) : Nat := (funcs.map weight).sum

/-- The ranges of the remaining shards, each aiming at its share of what is left. -/
def weightedRanges : Nat → Nat → List EmitFunction → List (Nat × Nat)
  | 0, _, _ => []
  | remaining + 1, first, rest =>
      if rest = [] then []
      else
        let target := (weightOf rest + (remaining + 1) - 1) / (remaining + 1)
        let taken := shardLength target rest
        (first, first + taken) :: weightedRanges remaining (first + taken) (rest.drop taken)

def shardRanges (e : EmissionConfig) (funcs : List EmitFunction) : List (Nat × Nat) :=
  if e.stableAddressShards then stableRanges e (List.range (shardCount e)) 0 funcs
  else weightedRanges (shardCount e) 0 funcs

/-! ### Bodies and rows -/

/-- A host function: the entry it compares R15 with, the cases of its resume
switch, and its labels in order, each with the mode it is lowered in. -/
structure HostBody where
  name : String
  entry : UInt32
  cases_ : List UInt32
  labels : List (UInt32 × Bool)
deriving DecidableEq

/-- The instruction that runs first when the body is called with this R15. -/
def HostBody.enterAt (body : HostBody) (r15 : UInt32) : Option (UInt32 × Bool) :=
  if r15 = body.entry then body.labels.head?
  else if r15 ∈ body.cases_ then body.labels.find? fun label => label.1 == r15
  else none

/-- `source_offset_for` succeeds. -/
def sourceOffsetFor (image : BankImage) (fn : EmitFunction) (pc : UInt32) : Bool :=
  let source : Int := fn.source.toNat + ((pc.toNat : Int) - fn.addr.toNat)
  decide ((image.loadAddress.toNat : Int) ≤ source) &&
    decide (source - image.loadAddress.toNat + fn.step ≤ image.bytes.length)

/-- `emit_function_body`: a label for each instruction up to the image's end. -/
def bodyLabels (image : BankImage) (fn : EmitFunction) : List (UInt32 × Bool) :=
  (fn.pcs.takeWhile (sourceOffsetFor image fn)).map fun pc => (pc, fn.thumb)

/-- The body of a block. One function alone has the switch of `emit_function_body`,
whose cases are those of `emit_resume_switch` for a block of one. -/
def hostBody (e : EmissionConfig) (head : EmitFunction) (members : List EmitFunction) : HostBody where
  name := e.fnPrefix ++ head.name
  entry := head.addr
  cases_ := head.pcs.tail ++ members.flatMap EmitFunction.pcs
  labels := (head :: members).flatMap (bodyLabels e.image)

/-- Each block's body, under the index of its leader. -/
def bodiesFrom (e : EmissionConfig) : Nat → List (List EmitFunction) → List (Nat × HostBody)
  | _, [] => []
  | index, [] :: blocks => bodiesFrom e index blocks
  | index, (head :: members) :: blocks =>
      (index, hostBody e head members) ::
        bodiesFrom e (index + (members.length + 1)) blocks

/-- `write_bank_body`: the bodies of the leaders in the shard's range. -/
def shardBodies (e : EmissionConfig) (blocks : List (List EmitFunction)) (range : Nat × Nat) :
    List HostBody :=
  (inRange range (bodiesFrom e 0 blocks)).map Prod.snd

structure HostRow where
  addr : UInt32
  thumb : Bool
  fn : String
deriving DecidableEq

def HostRow.key (row : HostRow) : Nat ×ₗ Bool := toLex (row.addr.toNat, row.thumb)

/-- Address, mode, host name. -/
def hostRowLe (a b : HostRow) : Prop :=
  toLex (a.key, a.fn) ≤ toLex (b.key, b.fn)

instance : DecidableRel hostRowLe := fun _ _ => inferInstanceAs (Decidable (_ ≤ _))

def blockRows (e : EmissionConfig) (keys : List UInt64) : List EmitFunction → List HostRow
  | [] => []
  | head :: members =>
      (head :: members).flatMap fun fn =>
        (fn.pcs.filter fun pc => !keys.contains (fn.key pc)).map fun pc =>
          ⟨pc, fn.thumb, e.fnPrefix ++ head.name⟩

/-- The rows of `write_bank_dispatch`, sorted, one for each key. -/
def hostRows (e : EmissionConfig) (keys : List UInt64) (blocks : List (List EmitFunction)) :
    List HostRow :=
  uniqueByKey HostRow.key ((blocks.flatMap (blockRows e keys)).insertionSort hostRowLe)

structure Emission where
  functions : List EmitFunction
  superblocks : List (List EmitFunction)
  rows : List HostRow
  shards : List (List HostBody)

/-- What is emitted once the pruned functions are gone and the rest are in order. -/
def emitOrdered (e : EmissionConfig) (keys : List UInt64) (funcs : List EmitFunction) : Emission where
  functions := funcs
  superblocks := buildSuperblocks e funcs
  rows := hostRows e keys (buildSuperblocks e funcs)
  shards := (shardRanges e funcs).map (shardBodies e (buildSuperblocks e funcs))

def emissionOrder (e : EmissionConfig) (funcs : List EmitFunction) : List EmitFunction :=
  if e.stableAddressShards then funcs.insertionSort stableLe else funcs

/-- The whole bank; nothing when the splitting does not end or a source lies
outside the image under stable sharding. -/
def emitBank (e : EmissionConfig) (funcs : List EmitFunction) : Option Emission :=
  (splitFunctionsForEmission e funcs).bind fun parts =>
    if e.stableAddressShards && (keptBy e.owned parts).any (sourceOutside e) then none
    else some (emitOrdered e (prunedBy e.owned parts) (emissionOrder e (keptBy e.owned parts)))

end NdsRecomp.Recompiler
