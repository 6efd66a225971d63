import NdsRecomp.Library.OpSystem
import NdsRecomp.Bus.FastEqualsSlow
import NdsRecomp.Exec.StoreStamps
import NdsRecomp.Runtime.StaticGuard

/-!
The machine the caches live in: the two memories and their maps, and the state
of the dispatcher. Its steps are everything that can come between two uses of a
cached answer: guest stores, remaps, table registrations, lookups, entering and
leaving native bodies, and the switches of the scheduler. Loads change none of
this and are not steps.
-/

namespace NdsRecomp.Runtime

open Library Bus Dispatch Exec Video

structure RuntimeState where
  ctx : NdsCpu → CpuCtx
  cache : NdsCpu → Nat → CachedStaticLookup
  linkEpoch : UInt32
  linkGuards : Nat
  linkSlots : Nat → NdsLinkSlot
  staticGuard : Option StaticExecutionGuard
  savedGuards : List (Option StaticExecutionGuard)
  thumb : Bool
  forceTier3 : Bool
  directLink : Bool
  inlineLeaves : Bool
  yieldPollHint : Bool

structure MachineDev where
  vram : VramState
  rt : RuntimeState

abbrev Machine := BusState MachineDev

/-- What a content check of the machine reads. -/
def memoriesOf (s : Machine) : Memories := ⟨s.core, s.mem, s.dev.vram⟩

def withRt (s : Machine) (rt : RuntimeState) : Machine := { s with dev := { s.dev with rt } }

/-! ### Stores -/

/-- `runtime_note_code_write` -/
def runtimeNoteCodeWrite (s : Machine) : Machine :=
  match s.dev.rt.staticGuard with
  | none => s
  | some guard =>
      let after := revalidateGuard (memoriesOf s) s.active guard
      withRt s { s.dev.rt with
        staticGuard := some after
        yieldPollHint := s.dev.rt.yieldPollHint || (after.invalidated && !guard.invalidated) }

def vramMapAt (s : Machine) (bank : Nat) (byte : UInt8) : Machine :=
  if h : bank < 9 then
    { s with dev := { s.dev with vram := s.dev.vram.ndsVramMap ⟨bank, h⟩ byte } }
  else s

/-- One byte of the VRAMCNT/WRAMCNT window. -/
def ioWriteByte (s : Machine) (a : UInt32) (byte : UInt8) : Machine :=
  if a ≥ 0x04000240 ∧ a ≤ 0x04000246 then vramMapAt s (a - 0x04000240).toNat byte
  else if a = 0x04000247 then { s with core := wramcntWrite s.core byte }
  else if a ≥ 0x04000248 ∧ a ≤ 0x04000249 then vramMapAt s (a - 0x04000241).toNat byte
  else s

/-- `nds_io_write` as far as memory maps go: the window belongs to the ARM9, and
no other register moves memory. -/
def machineIoWrite (s : Machine) (addr : UInt32) (width : Width) (value : UInt32) : Machine :=
  if addr ≥ 0x04000240 ∧ addr < 0x0400024A then
    match s.active with
    | .arm7 => s
    | .arm9 =>
        (List.range width.bytes).foldl
          (fun s i => ioWriteByte s (addr + UInt32.ofNat i) (valueByte value i)) s
  else s

/-- The bus of the machine. Its loads are not used. -/
def machineDevices : BusDevices MachineDev where
  videoRead := fun s _ _ => (0, s)
  videoWrite := fun s addr width value =>
    { s with dev :=
      { s.dev with vram := s.dev.vram.ndsVideoWrite s.active addr value width } }
  gbaRead := fun _ _ _ => 0
  wifiRead := fun s _ _ => (0, s)
  wifiWrite := fun s _ _ _ => s
  ioRead := fun s _ _ => (0, s)
  ioWrite := machineIoWrite
  noteCodeWrite := runtimeNoteCodeWrite
  noteCodeWrite_mem := by
    intro s
    unfold runtimeNoteCodeWrite
    split
    · rfl
    · rfl
  noteLiveWrite := fun s _ _ _ _ => s

def store (s : Machine) (addr : UInt32) (width : Width) (value : UInt32) : Machine :=
  busWrite machineDevices s addr width value

/-- `bus_device_write16` and `bus_device_write32` -/
def deviceStore (s : Machine) (cpu : NdsCpu) (addr : UInt32) (width : Width) (value : UInt32) :
    Machine :=
  { store { s with active := cpu } addr width value with active := s.active }

/-! ### Tables -/

def clearDispatchCacheCpu (rt : RuntimeState) (cpu : NdsCpu) : RuntimeState :=
  { rt with cache := Function.update rt.cache cpu fun _ => .empty }

def clearDispatchCacheAll (rt : RuntimeState) : RuntimeState :=
  { rt with cache := fun _ _ => .empty }

/-- `++g_link_epoch` skipping zero, and the guard pool emptied. -/
def linkEpochBump (rt : RuntimeState) : RuntimeState :=
  { rt with linkEpoch := bumpGeneration rt.linkEpoch, linkGuards := 0 }

/-- `++ctx.dispatch_epoch`; where it comes round the cache is cleared. -/
def dispatchEpochBump (rt : RuntimeState) (cpu : NdsCpu) : RuntimeState :=
  let c := rt.ctx cpu
  if c.dispatchEpoch + 1 = 0 then
    let rt := clearDispatchCacheCpu rt cpu
    { rt with ctx := Function.update rt.ctx cpu { c with dispatchEpoch := 1 } }
  else
    { rt with ctx := Function.update rt.ctx cpu { c with dispatchEpoch := c.dispatchEpoch + 1 } }

/-- Both registrations change the tables of one CPU and then invalidate. -/
def changeTables (rt : RuntimeState) (cpu : NdsCpu) (tables : DispatchBanks) : RuntimeState :=
  dispatchEpochBump
    (linkEpochBump { rt with ctx := Function.update rt.ctx cpu { rt.ctx cpu with tables } }) cpu

def ndsRegisterDispatch (rt : RuntimeState) (cpu : NdsCpu) (table : DispatchTable) :
    RuntimeState :=
  changeTables rt cpu ((rt.ctx cpu).tables.register table.toNdsDispatchBankView)

def ndsUnregisterDispatch (rt : RuntimeState) (cpu : NdsCpu) (table : TableId) (len : Nat) :
    RuntimeState :=
  changeTables rt cpu ((rt.ctx cpu).tables.unregister table len)

def runtimeInit (rt : RuntimeState) : RuntimeState :=
  linkEpochBump (clearDispatchCacheAll
    { rt with ctx := fun _ => {}, staticGuard := none, yieldPollHint := true })

/-- `runtime_savestate_invalidate_host_caches` -/
def invalidateHostCaches (rt : RuntimeState) : RuntimeState :=
  linkEpochBump (clearDispatchCacheAll { rt with staticGuard := none, yieldPollHint := true })

/-! ### Lookups -/

def staticBiosPc (cpu : NdsCpu) (pc : UInt32) : Bool :=
  match cpu with
  | .arm9 => decide (pc ≥ 0xFFFF0000) && decide (pc < 0xFFFF1000)
  | .arm7 => decide (pc < 0x00004000)

/-- `lookup_static_cached_impl` for the active CPU. -/
def machineLookupImpl (s : Machine) (pc : UInt32) (thumb : Bool) :
    Option CachedStaticLookup × Machine :=
  let rt := s.dev.rt
  let i := cacheSlotIndex pc thumb
  let (answer, slot) := lookupStaticCachedImpl (memoriesOf s) s.active (rt.ctx s.active)
    (rt.cache s.active i) pc thumb
  (answer, withRt s { rt with
    cache := Function.update rt.cache s.active (Function.update (rt.cache s.active) i slot) })

/-- The forced miss, applied after the real lookup. -/
def forcedMiss (s : Machine) (pc : UInt32) (hit : Option CachedStaticLookup) :
    Option CachedStaticLookup :=
  if !s.dev.rt.forceTier3 || staticBiosPc s.active pc then hit else none

/-- `lookup_static_cached` -/
def lookupStaticCached (s : Machine) (pc : UInt32) (thumb : Bool) :
    Option CachedStaticLookup × Machine :=
  let (hit, s') := machineLookupImpl s pc thumb
  (forcedMiss s pc hit, s')

/-! ### Entering and leaving bodies -/

/-- The constructor of `StaticGuardScope`. -/
def scopeEnter (s : Machine) : Machine :=
  withRt s { s.dev.rt with
    savedGuards := s.dev.rt.staticGuard :: s.dev.rt.savedGuards, staticGuard := none }

def setGuard (s : Machine) (guard : StaticExecutionGuard) : Machine :=
  withRt s { s.dev.rt with staticGuard := some guard }

/-- `prepare`: the body that is entered, if one is. -/
def prepare (s : Machine) (found : Option CachedStaticLookup) : Option NativeBody × Machine :=
  match found with
  | none => (none, s)
  | some hit =>
      match hit.fn, cachedStaticGuard (memoriesOf s) s.active hit with
      | some fn, some guard => (some fn, setGuard s guard)
      | _, _ => (none, s)

/-- `prepare_linked` -/
def prepareLinked (s : Machine) (slot : NdsLinkSlot) : Option NativeBody × Machine :=
  let guard : StaticExecutionGuard :=
    match slot.guard with
    | none => .empty
    | some guard => ⟨some guard.validation, guard.pages, false⟩
  (slot.fn, setGuard s guard)

/-- `link_enabled() && link_slot_admit(...)` -/
def linkAdmits (s : Machine) (i : Nat) : Bool :=
  s.dev.rt.directLink && linkSlotAdmit (memoriesOf s) (s.dev.rt.linkSlots i) s.dev.rt.linkEpoch
    s.active s.dev.rt.thumb

/-- `runtime_inline_leaf_admit` -/
def runtimeInlineLeafAdmit (s : Machine) (i : Nat) (expected : NativeBody) : Bool :=
  let slot := s.dev.rt.linkSlots i
  s.dev.rt.inlineLeaves && s.dev.rt.directLink && slot.fn == some expected &&
    linkSlotReady slot s.dev.rt.linkEpoch s.active s.dev.rt.thumb &&
    linkGuardLive (memoriesOf s) s.active slot.guard

/-- The offered slot is refilled only where its target is the one resolved. -/
def refillOffered (s : Machine) (offered : Option Nat) (pc : UInt32)
    (found : Option CachedStaticLookup) : Machine :=
  match offered with
  | none => s
  | some i =>
      let rt := s.dev.rt
      let slot := rt.linkSlots i
      if rt.directLink && slot.targetPc &&& ~~~1 == pc &&
          (slot.targetPc &&& 1 != 0) == rt.thumb then
        let (slot, linkGuards) := linkSlotFill slot found rt.linkEpoch s.active rt.linkGuards
        withRt s { rt with linkSlots := Function.update rt.linkSlots i slot, linkGuards }
      else s

/-- `target_pc & (thumb ? ~1u : ~3u)` -/
def dispatchPc (targetPc : UInt32) (thumb : Bool) : UInt32 :=
  targetPc &&& (if thumb then ~~~1 else ~~~3)

/-- One round of `runtime_dispatch_impl` past its slice test, up to the entry of
a native body. Without one the interpreter runs, inside the scope and without
a guard. -/
def dispatchEnter (s : Machine) (offered : Option Nat) (targetPc : UInt32) :
    Option NativeBody × Machine :=
  let thumb := s.dev.rt.thumb
  let pc := dispatchPc targetPc thumb
  let s := scopeEnter s
  match offered.filter (linkAdmits s) with
  | some i => prepareLinked s (s.dev.rt.linkSlots i)
  | none =>
      let (found, s) := lookupStaticCached s pc thumb
      prepare (refillOffered s offered pc found) found

/-- The destructor of `StaticGuardScope`. -/
def dispatchLeave (s : Machine) : Machine :=
  match s.dev.rt.savedGuards with
  | [] => s
  | saved :: rest =>
      let restored := saved.map (revalidateGuard (memoriesOf s) s.active)
      withRt s { s.dev.rt with
        staticGuard := restored
        savedGuards := rest
        yieldPollHint := s.dev.rt.yieldPollHint || restored.any fun g => g.invalidated }

/-! ### The system -/

inductive MachineOp where
  | store (addr : UInt32) (width : Width) (value : UInt32)
  | deviceStore (cpu : NdsCpu) (addr : UInt32) (width : Width) (value : UInt32)
  | coprocWrite (w : CoprocWrite)
  | register (cpu : NdsCpu) (table : DispatchTable)
  | unregister (cpu : NdsCpu) (table : TableId) (len : Nat)
  | runtimeInit
  | invalidateHostCaches
  | lookup (pc : UInt32) (thumb : Bool)
  | dispatchEnter (offered : Option Nat) (targetPc : UInt32)
  | dispatchLeave
  | setThumb (thumb : Bool)
  | switchTo (cpu : NdsCpu) (thumb : Bool)
  | setForceTier3 (on : Bool)
  | setDeepTrace (on : Bool)
  | yieldPolled

def machineNext (s : Machine) : MachineOp → Machine
  | .store addr width value => store s addr width value
  | .deviceStore cpu addr width value => deviceStore s cpu addr width value
  | .coprocWrite w => { s with core := runtimeCoprocWrite s.core w }
  | .register cpu table => withRt s (ndsRegisterDispatch s.dev.rt cpu table)
  | .unregister cpu table len => withRt s (ndsUnregisterDispatch s.dev.rt cpu table len)
  | .runtimeInit => withRt s (runtimeInit s.dev.rt)
  | .invalidateHostCaches => withRt s (invalidateHostCaches s.dev.rt)
  | .lookup pc thumb => (lookupStaticCached s pc thumb).2
  | .dispatchEnter offered targetPc => (dispatchEnter s offered targetPc).2
  | .dispatchLeave => dispatchLeave s
  | .setThumb thumb => withRt s { s.dev.rt with thumb }
  | .switchTo cpu thumb => { withRt s { s.dev.rt with thumb } with active := cpu }
  | .setForceTier3 on => withRt s { s.dev.rt with forceTier3 := on }
  | .setDeepTrace on => { s with deepTrace := on }
  | .yieldPolled => withRt s { s.dev.rt with yieldPollHint := false }

/-- No native body or dispatch is on the host stack. -/
def Idle (s : Machine) : Prop := s.dev.rt.staticGuard = none ∧ s.dev.rt.savedGuards = []

/-- The scheduler switches CPUs, other bus masters store and the runtime is
reset between slices; tables are registered there too. -/
def machineAdmits (s : Machine) : MachineOp → Prop
  | .deviceStore .. | .register .. | .unregister .. | .runtimeInit | .invalidateHostCaches
  | .switchTo .. => Idle s
  | _ => True

/-- A machine after `bus_init` and `runtime_init`; what the memories hold does
not matter. -/
structure Booted (s : Machine) : Prop where
  core : s.core = busInit {}
  idle : Idle s
  ctx : s.dev.rt.ctx = fun _ => {}
  cache : s.dev.rt.cache = fun _ _ => .empty
  slots : ∀ i, (s.dev.rt.linkSlots i).fn = none ∧ (s.dev.rt.linkSlots i).guard = none

def machineSystem : OpSystem Machine MachineOp where
  initial := Booted
  admits := machineAdmits
  next := machineNext

end NdsRecomp.Runtime
