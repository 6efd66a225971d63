import NdsRecomp.Library.FinIndex

/-!
The directly addressed memories of the two CPUs and the write provenance kept
beside them: for every byte whether a store has materialised it, and for every
4 KiB page a generation that every store to the page advances. The two BIOS
images are neither written nor tracked.
-/

namespace NdsRecomp.Bus

inductive NdsCpu where
  | arm9
  | arm7
deriving DecidableEq, Repr

/-- Access width: one, two or four bytes. -/
inductive Width where
  | byte
  | half
  | word
deriving DecidableEq, Repr

def Width.bytes : Width → Nat
  | .byte => 1
  | .half => 2
  | .word => 4

inductive Backing where
  | mainRam
  | itcm
  | dtcm
  | sharedWram
  | arm7Wram
  | arm9Bios
  | arm7Bios
deriving DecidableEq, Repr

def Backing.size : Backing → Nat
  | .mainRam => 4 * 1024 * 1024
  | .itcm => 32 * 1024
  | .dtcm => 16 * 1024
  | .sharedWram => 32 * 1024
  | .arm7Wram => 64 * 1024
  | .arm9Bios => 4 * 1024
  | .arm7Bios => 16 * 1024

/-- The backings that have `written` and `generation` vectors. -/
def Backing.tracked : Backing → Bool
  | .arm9Bios | .arm7Bios => false
  | _ => true

def execPageShift : Nat := 12
def execPageSize : Nat := 4096

/-- A `uint8_t*` into one of the backings. -/
structure BackingPtr where
  backing : Backing
  offset : Nat
deriving DecidableEq, Repr

structure BusMemory where
  data : Backing → Nat → UInt8
  written : Backing → Nat → Bool
  generation : Backing → Nat → UInt32

/-- `++generation`, skipping zero. -/
def bumpGeneration (generation : UInt32) : UInt32 :=
  if generation + 1 == 0 then 1 else generation + 1

theorem bumpGeneration_ne (generation : UInt32) : bumpGeneration generation ≠ generation := by
  unfold bumpGeneration
  split
  · rintro rfl
    simp_all
  · intro h
    have hnat := congrArg UInt32.toNat h
    have hlt := generation.toNat_lt
    rw [UInt32.toNat_add, UInt32.toNat_one] at hnat
    omega

/-- Replace `len` consecutive values from `offset` on. -/
def fillRange {α : Type*} (f : Nat → α) (offset len : Nat) (value : Nat → α) : Nat → α :=
  fun i => if offset ≤ i ∧ i < offset + len then value (i - offset) else f i

/-- Byte `i` of a little-endian value. -/
def valueByte (value : UInt32) (i : Nat) : UInt8 :=
  (value >>> UInt32.ofNat (8 * i)).toUInt8

/-- `memcpy(&v, p, len)` for `len` at most four. -/
def loadBytes (bytes : Nat → UInt8) (offset : Nat) : Nat → UInt32
  | 0 => 0
  | len + 1 => loadBytes bytes offset len ||| (bytes (offset + len)).toUInt32 <<< UInt32.ofNat (8 * len)

namespace BusMemory

def load (mem : BusMemory) (p : BackingPtr) (width : Width) : UInt32 :=
  loadBytes (mem.data p.backing) p.offset width.bytes

/-- `memcpy(p, &value, width)` -/
def store (mem : BusMemory) (p : BackingPtr) (width : Width) (value : UInt32) : BusMemory :=
  { mem with
    data := Function.update mem.data p.backing
      (fillRange (mem.data p.backing) p.offset width.bytes (valueByte value)) }

/-- Advance the generation of the pages `first ≤ page ≤ last` of a backing. -/
def bumpPages (mem : BusMemory) (backing : Backing) (first last : Nat) : BusMemory :=
  { mem with
    generation := Function.update mem.generation backing fun page =>
      if first ≤ page ∧ page ≤ last then bumpGeneration (mem.generation backing page)
      else mem.generation backing page }

def markWritten (mem : BusMemory) (p : BackingPtr) (len : Nat) : BusMemory :=
  { mem with
    written := Function.update mem.written p.backing
      (fillRange (mem.written p.backing) p.offset len fun _ => true) }

end BusMemory

end NdsRecomp.Bus
