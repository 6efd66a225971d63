import NdsRecomp.Bus.Backing

/-!
The windows and TCM mirrors `bus_fast_refresh` publishes for the inline bus and
timing paths, computed from the CP15 state and WRAMCNT. A window carries three
parallel pointers: bytes, write marks and page generations.
-/

namespace NdsRecomp.Bus

/-- `Cp15State`: the CP15 fields the bus reads. -/
structure Cp15State where
  control : UInt32 := 0
  highVectors : Bool := false
  itcmEnable : Bool := false
  dtcmEnable : Bool := false
  itcmSize : UInt32 := 0
  dtcmBase : UInt32 := 0
  dtcmSize : UInt32 := 0
deriving DecidableEq, Repr

/-- `written` points into the write marks of the backing and `gen` at a page of
its generations; both are parallel to `data`. -/
structure NdsBusFastWin where
  data : Option BackingPtr := none
  written : Option BackingPtr := none
  gen : Option BackingPtr := none
  mask : UInt32 := 0
deriving DecidableEq, Repr

/-- `g_memt_*` and `g_busf_*`. -/
structure BusFast where
  memtItcmLimit : UInt32 := 0
  memtDtcmBase : UInt32 := 0
  memtDtcmSize : UInt32 := 0
  main : NdsBusFastWin := {}
  wramLo : NdsCpu → NdsBusFastWin := fun _ => {}
  wramHi : NdsCpu → NdsBusFastWin := fun _ => {}
  itcm : NdsBusFastWin := {}
  dtcm : NdsBusFastWin := {}
  itcmLimit : UInt32 := 0
  dtcmBase : UInt32 := 0
  dtcmLimit : UInt32 := 0

/-- A window over a whole backing from `base` on; `base` is page aligned. -/
def backingWin (backing : Backing) (base : Nat) (mask : UInt32) : NdsBusFastWin where
  data := some ⟨backing, base⟩
  written := some ⟨backing, base⟩
  gen := some ⟨backing, base >>> execPageShift⟩
  mask := mask

/-- The lambda `shared_win`. -/
def sharedWin (base : Nat) (mask : UInt32) : NdsBusFastWin :=
  backingWin .sharedWram base mask

/-- 0x03000000..0x037FFFFF, by WRAMCNT. -/
def wramLoWindow (wramcnt : UInt8) : NdsCpu → NdsBusFastWin :=
  let mode := wramcnt &&& 3
  if mode == 0 then fun
    | .arm9 => sharedWin 0 0x7FFF
    | .arm7 => backingWin .arm7Wram 0 0xFFFF
  else if mode == 1 then fun
    | .arm9 => sharedWin 0x4000 0x3FFF
    | .arm7 => sharedWin 0 0x3FFF
  else if mode == 2 then fun
    | .arm9 => sharedWin 0 0x3FFF
    | .arm7 => sharedWin 0x4000 0x3FFF
  else fun
    | .arm9 => {}
    | .arm7 => sharedWin 0 0x7FFF

/-- `bus_fast_refresh`. With the backings not yet allocated it publishes only
the timing mirrors and disables every window. -/
def busFastRefresh (allocated : Bool) (cp15 : Cp15State) (wramcnt : UInt8) : BusFast :=
  let timing : BusFast :=
    { memtItcmLimit := if cp15.itcmEnable then cp15.itcmSize else 0
      memtDtcmBase := cp15.dtcmBase
      memtDtcmSize := if cp15.dtcmEnable then cp15.dtcmSize else 0 }
  if !allocated then timing
  else
    { timing with
      main := backingWin .mainRam 0 0x003FFFFF
      wramHi := fun _ => backingWin .arm7Wram 0 0x0000FFFF
      wramLo := wramLoWindow wramcnt
      itcm := backingWin .itcm 0 0x00007FFF
      dtcm := backingWin .dtcm 0 0x00003FFF
      itcmLimit :=
        if cp15.itcmEnable && cp15.itcmSize != 0 then min cp15.itcmSize 0x02000000 else 0
      dtcmBase := cp15.dtcmBase
      dtcmLimit :=
        if cp15.dtcmEnable && cp15.dtcmSize != 0 then min cp15.dtcmSize 0x4000 else 0 }

variable (allocated : Bool) (cp15 : Cp15State) (wramcnt : UInt8)

@[simp] theorem busFastRefresh_memtItcmLimit :
    (busFastRefresh allocated cp15 wramcnt).memtItcmLimit =
      if cp15.itcmEnable then cp15.itcmSize else 0 := by
  cases allocated <;> rfl

@[simp] theorem busFastRefresh_memtDtcmBase :
    (busFastRefresh allocated cp15 wramcnt).memtDtcmBase = cp15.dtcmBase := by
  cases allocated <;> rfl

@[simp] theorem busFastRefresh_memtDtcmSize :
    (busFastRefresh allocated cp15 wramcnt).memtDtcmSize =
      if cp15.dtcmEnable then cp15.dtcmSize else 0 := by
  cases allocated <;> rfl

end NdsRecomp.Bus
