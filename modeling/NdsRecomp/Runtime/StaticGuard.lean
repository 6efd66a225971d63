import NdsRecomp.Runtime.DispatchCache

/-!
The two other holders of a page snapshot: the guard of the body that is
executing, and the link slot of a call site.
-/

namespace NdsRecomp.Runtime

open Bus Dispatch Exec

/-! ### Execution guards -/

structure StaticExecutionGuard where
  validation : Option NdsStaticValidation
  pages : PageSnapshot
  invalidated : Bool

/-- The guard of a body without a validation. -/
def StaticExecutionGuard.empty : StaticExecutionGuard := ⟨none, .empty, false⟩

def armStaticGuard (m : Memories) (cpu : NdsCpu) (validation : Option NdsStaticValidation) :
    Option StaticExecutionGuard :=
  match validation with
  | none => some .empty
  | some v =>
      (cacheValidationPages m cpu .empty v).map fun pages => ⟨some v, pages, false⟩

/-- A cached answer hands its snapshot on. -/
def cachedStaticGuard (m : Memories) (cpu : NdsCpu) (cached : CachedStaticLookup) :
    Option StaticExecutionGuard :=
  match cached.validation with
  | none => some .empty
  | some v =>
      if cached.pages.records.isEmpty then armStaticGuard m cpu (some v)
      else some ⟨some v, cached.pages, false⟩

def guardGenerationChanged (m : Memories) (cpu : NdsCpu) (guard : StaticExecutionGuard) : Bool :=
  guard.validation.isSome && !snapshotCurrent m cpu guard.pages

/-- The generations read again. -/
def PageSnapshot.refresh (m : Memories) (cpu : NdsCpu) (snap : PageSnapshot) : PageSnapshot where
  records := snap.records.map fun r =>
    { r with generation := liveGeneration m cpu r, origin := m.seenPage cpu r.pageAddr }
  bounded := by
    rw [List.length_map]
    exact snap.bounded

/-- `refresh_guard_after_generation_change`; `none` is its `false`. -/
def refreshGuard (m : Memories) (cpu : NdsCpu) (guard : StaticExecutionGuard) :
    Option StaticExecutionGuard :=
  match guard.validation with
  | none => some guard
  | some v =>
      if m.validationIdentityLive cpu v then some { guard with pages := guard.pages.refresh m cpu }
      else none

/-- What both `runtime_note_code_write` and the unwinding of a scope do to a
guard: where a generation moved, prove the bytes again or give the guard up. -/
def revalidateGuard (m : Memories) (cpu : NdsCpu) (guard : StaticExecutionGuard) :
    StaticExecutionGuard :=
  if !guard.invalidated && guardGenerationChanged m cpu guard then
    match refreshGuard m cpu guard with
    | some refreshed => refreshed
    | none => { guard with invalidated := true }
  else guard

/-! ### Link slots -/

structure LinkGuard where
  validation : NdsStaticValidation
  pages : PageSnapshot

/-- A call site's slot. The guard record the source points to is kept in the
slot; the pool it lives in is only counted. -/
structure NdsLinkSlot where
  fn : Option NativeBody := none
  key : UInt32 := 0
  targetPc : UInt32
  guard : Option LinkGuard := none

def kLinkGuardCap : Nat := 65536

def cpuBit : NdsCpu → UInt32
  | .arm9 => 0
  | .arm7 => 1

/-- `(g_link_epoch << 1) | g_nds_active` -/
def linkKey (linkEpoch : UInt32) (cpu : NdsCpu) : UInt32 := (linkEpoch <<< 1) ||| cpuBit cpu

def linkSlotReady (slot : NdsLinkSlot) (linkEpoch : UInt32) (cpu : NdsCpu) (thumb : Bool) :
    Bool :=
  slot.key == linkKey linkEpoch cpu && slot.fn.isSome && thumb == (slot.targetPc &&& 1 != 0)

/-- `link_guard_live` of the slot's guard, if it has one. -/
def linkGuardLive (m : Memories) (cpu : NdsCpu) (guard : Option LinkGuard) : Bool :=
  guard.all fun g => snapshotCurrent m cpu g.pages

def linkSlotAdmit (m : Memories) (slot : NdsLinkSlot) (linkEpoch : UInt32) (cpu : NdsCpu)
    (thumb : Bool) : Bool :=
  linkSlotReady slot linkEpoch cpu thumb && linkGuardLive m cpu slot.guard

/-- `link_slot_fill`: the slot and the number of guards in the pool. -/
def linkSlotFill (slot : NdsLinkSlot) (hit : Option CachedStaticLookup) (linkEpoch : UInt32)
    (cpu : NdsCpu) (linkGuards : Nat) : NdsLinkSlot × Nat :=
  let cleared := { slot with fn := none, guard := none, key := 0 }
  match hit with
  | none => (cleared, linkGuards)
  | some hit =>
      if hit.fn.isNone then (cleared, linkGuards)
      else
        match hit.validation with
        | none => ({ cleared with fn := hit.fn, key := linkKey linkEpoch cpu }, linkGuards)
        | some v =>
            if hit.pages.records.isEmpty || decide (linkGuards ≥ kLinkGuardCap) then
              (cleared, linkGuards)
            else
              ({ cleared with
                  fn := hit.fn
                  key := linkKey linkEpoch cpu
                  guard := some ⟨v, hit.pages⟩ }, linkGuards + 1)

end NdsRecomp.Runtime
