import NdsRecomp.Io.DmaTotals

/-!
Every split of a channel's transactions moves the same units. The invariant
counts whole transactions and the units of the one in progress; requests,
suspensions, stalls and the other channels leave it, a unit advances it, and a
completion carries it to the next transaction.
-/

namespace NdsRecomp.Io

open Library Bus

namespace DmaBank

variable {cpu : NdsCpu} {ch : Fin 4} {P : DmaChannel → Prop}

@[simp] theorem update_channel_self (bank : DmaBank) (ch : Fin 4) (d : DmaChannel) :
    (bank.update ch d).channel ch = d :=
  Function.update_self ..

theorem update_channel_of_ne {c : Fin 4} (hother : ch ≠ c) (bank : DmaBank) (d : DmaChannel) :
    (bank.update c d).channel ch = bank.channel ch :=
  Function.update_of_ne hother _ _

/-- What a request keeps of one channel, when starting the channel keeps it. -/
theorem dmaStart_channel {bank : DmaBank} (h : P (bank.channel ch))
    (hstart : ∀ d, P d → d.running = false → d.enabled = true → P (d.start cpu ch))
    (c : Fin 4) (cycles : UInt64) : P ((bank.dmaStart cpu c cycles).channel ch) := by
  unfold DmaBank.dmaStart
  dsimp only
  split
  · exact h
  · rename_i hready
    rw [not_or, Bool.not_eq_true, Bool.not_eq_false] at hready
    change P ((bank.update c _).channel ch)
    rcases eq_or_ne ch c with rfl | hother
    · rw [update_channel_self]
      exact hstart _ h hready.1 hready.2
    · rw [update_channel_of_ne hother]
      exact h

theorem ndsDmaTrigger_channel {bank : DmaBank} (h : P (bank.channel ch))
    (hstart : ∀ d, P d → d.running = false → d.enabled = true → P (d.start cpu ch))
    (mode : UInt8) (cycles : UInt64) : P ((bank.ndsDmaTrigger cpu mode cycles).channel ch) := by
  unfold DmaBank.ndsDmaTrigger
  induction List.finRange 4 generalizing bank with
  | nil => exact h
  | cons c rest ih =>
      apply ih
      dsimp only
      split
      · exact dmaStart_channel h hstart c cycles
      · exact h

theorem triggers_channel {bank : DmaBank} (h : P (bank.channel ch))
    (hstart : ∀ d, P d → d.running = false → d.enabled = true → P (d.start cpu ch))
    (modes : List UInt8) (cycles : UInt64) :
    P ((modes.foldl (fun bank mode => bank.ndsDmaTrigger cpu mode cycles) bank).channel ch) := by
  induction modes generalizing bank with
  | nil => exact h
  | cons mode modes ih => exact ih (ndsDmaTrigger_channel h hstart mode cycles)

/-- Requests do not reach a channel that is running. -/
theorem triggers_running {bank : DmaBank} (hrunning : (bank.channel ch).running = true)
    (modes : List UInt8) (cycles : UInt64) :
    (modes.foldl (fun bank mode => bank.ndsDmaTrigger cpu mode cycles) bank).channel ch =
      bank.channel ch := by
  refine triggers_channel (P := fun d => d = bank.channel ch) rfl ?_ modes cycles
  rintro d rfl hidle
  exact absurd (hidle.symm.trans hrunning) (by decide)

end DmaBank

namespace DmaMachine

variable {World : Type*} (bus : DmaBus World) (cpu : NdsCpu) (ch : Fin 4)

/-- From `m₀` to `m`, channel `ch` has made `t` whole transactions and `k`
units of the next: the channel is where that leaves it, it has moved exactly
those units in order, and it has raised its interrupt once a transaction if its
control word asks for it. -/
structure Totals (m₀ m : DmaMachine World) (t k : Nat) : Prop where
  follows : (m₀.bank.channel ch).Follows cpu ch (m.bank.channel ch) t k
  moved : m.moved ch = m₀.moved ch ++
    (List.range (t * (m₀.bank.channel ch).units cpu ch + k)).map fun i =>
      (m₀.bank.channel ch).unitAt cpu ch (i / (m₀.bank.channel ch).units cpu ch)
        (i % (m₀.bank.channel ch).units cpu ch)
  irqs : m.irqs ch = m₀.irqs ch +
    if (m₀.bank.channel ch).cnt &&& 0x40000000 ≠ 0 then t else 0

/-- Between calls a transaction is never left with no unit to move, and a
channel that does not repeat makes one transaction. -/
structure AtRest (m₀ m : DmaMachine World) (t k : Nat) : Prop where
  totals : Totals cpu ch m₀ m t k
  unfinished : k < (m₀.bank.channel ch).units cpu ch
  single : (m₀.bank.channel ch).repeats ∨ t = 0 ∨ t = 1 ∧ k = 0

variable {bus cpu ch} {m₀ m : DmaMachine World} {t k : Nat}

theorem Totals.of_same {m' : DmaMachine World} (h : Totals cpu ch m₀ m t k)
    (hfollows : (m₀.bank.channel ch).Follows cpu ch (m'.bank.channel ch) t k)
    (hmoved : m'.moved ch = m.moved ch) (hirqs : m'.irqs ch = m.irqs ch) :
    Totals cpu ch m₀ m' t k :=
  ⟨hfollows, hmoved.trans h.moved, hirqs.trans h.irqs⟩

theorem Totals.start (h : Totals cpu ch m₀ m t k) (c : Fin 4) :
    Totals cpu ch m₀ { m with bank := m.bank.dmaStart cpu c m.cycles } t k :=
  h.of_same
    (DmaBank.dmaStart_channel (P := fun d => (m₀.bank.channel ch).Follows cpu ch d t k)
      h.follows (fun _ hd _ henabled => hd.start henabled) c _)
    rfl rfl

theorem Totals.trigger (h : Totals cpu ch m₀ m t k) (mode : UInt8) :
    Totals cpu ch m₀ (m.trigger cpu mode) t k :=
  h.of_same
    (DmaBank.ndsDmaTrigger_channel (P := fun d => (m₀.bank.channel ch).Follows cpu ch d t k)
      h.follows (fun _ hd _ henabled => hd.start henabled) mode _)
    rfl rfl

/-! ### The other channels -/

theorem Totals.update_other {c : Fin 4} (h : Totals cpu ch m₀ m t k) (hother : ch ≠ c)
    (d : DmaChannel) : Totals cpu ch m₀ (m.update c d) t k := by
  refine h.of_same ?_ rfl rfl
  rw [DmaMachine.update, DmaBank.update_channel_of_ne hother]
  exact h.follows

theorem Totals.moveUnit_other {c : Fin 4} (h : Totals cpu ch m₀ m t k) (hother : ch ≠ c) :
    Totals cpu ch m₀ (m.moveUnit bus cpu c) t k := by
  refine h.of_same ?_ (Function.update_of_ne hother _ _) rfl
  change (m₀.bank.channel ch).Follows cpu ch ((DmaBank.update _ c _).channel ch) t k
  rw [DmaBank.update_channel_of_ne hother]
  exact DmaBank.triggers_channel (P := fun d => (m₀.bank.channel ch).Follows cpu ch d t k)
    h.follows (fun _ hd _ henabled => hd.start henabled) _ _

theorem Totals.unitLoop_other {c : Fin 4} (hother : ch ≠ c) (target : UInt64) (fuel : Nat)
    {m : DmaMachine World} (h : Totals cpu ch m₀ m t k) (request : UInt32) :
    Totals cpu ch m₀ (unitLoop bus cpu target c fuel request m).1 t k := by
  induction fuel generalizing m request with
  | zero => exact h
  | succ fuel ih =>
      have hmoved : Totals cpu ch m₀ (m.moveUnit bus cpu c) t k := h.moveUnit_other hother
      simp only [unitLoop]
      split
      · exact h
      split
      · exact hmoved
      split
      · exact hmoved
      · exact ih hmoved (request - 1)

theorem Totals.finishRun_other {c : Fin 4} (h : Totals cpu ch m₀ m t k) (hother : ch ≠ c)
    (gamecard gxfifo : Bool) (request : UInt32) :
    Totals cpu ch m₀ (m.finishRun bus cpu c gamecard gxfifo request) t k := by
  unfold finishRun
  simp only
  split
  · split
    · exact h.update_other hother _
    split
    · split
      · exact (h.update_other hother _).trigger 7
      · exact h.update_other hother _
    · exact h
  · refine (h.update_other hother (m.bank.channel c).complete).of_same ?_ rfl ?_
    · exact (h.update_other hother _).follows
    · unfold DmaMachine.complete
      dsimp only
      split
      · exact Function.update_of_ne hother _ _
      · rfl

/-! ### The channel itself -/

/-- A transaction in progress is the first one, or one of a repeating channel. -/
theorem Totals.repeats_or_first (h : Totals cpu ch m₀ m t k)
    (henabled : (m₀.bank.channel ch).enabled = true)
    (hprogress : (m.bank.channel ch).inProgress = true) :
    (m₀.bank.channel ch).repeats ∨ t = 0 := by
  by_contra hneither
  rw [not_or] at hneither
  have hcnt := h.follows.cnt
  rw [if_neg (by tauto), (h.follows.active hprogress).1] at hcnt
  unfold DmaChannel.enabled at henabled
  rw [hcnt, UInt32.and_assoc, show ~~~(0x80000000 : UInt32) &&& 0x80000000 = 0 by decide,
    UInt32.and_zero] at henabled
  exact absurd henabled (by decide)

theorem moveUnit_channel (bus : DmaBus World) (cpu : NdsCpu)
    (hrunning : (m.bank.channel ch).running = true) :
    (m.moveUnit bus cpu ch).bank.channel ch = (m.bank.channel ch).moveUnit := by
  change (DmaBank.update _ ch _).channel ch = _
  rw [DmaBank.update_channel_self, DmaBank.triggers_running hrunning]

/-- One unit of the channel is the next of its transaction. -/
theorem Totals.moveUnit (h : Totals cpu ch m₀ m t k)
    (hunfinished : k < (m₀.bank.channel ch).units cpu ch)
    (hrunning : (m.bank.channel ch).running = true)
    (hprogress : (m.bank.channel ch).inProgress = true)
    (hremaining : (m.bank.channel ch).remaining ≠ 0) :
    Totals cpu ch m₀ (m.moveUnit bus cpu ch) t (k + 1) := by
  refine ⟨?_, ?_, h.irqs⟩
  · rw [moveUnit_channel bus cpu hrunning]
    exact h.follows.moveUnit hprogress hremaining
  · have hpos : 0 < (m₀.bank.channel ch).units cpu ch := DmaChannel.units_pos
    have hdiv : (t * (m₀.bank.channel ch).units cpu ch + k) /
        (m₀.bank.channel ch).units cpu ch = t := by
      rw [Nat.add_comm, Nat.add_mul_div_right _ _ hpos, Nat.div_eq_of_lt hunfinished,
        Nat.zero_add]
    have hmod : (t * (m₀.bank.channel ch).units cpu ch + k) %
        (m₀.bank.channel ch).units cpu ch = k := by
      rw [Nat.add_comm, Nat.add_mul_mod_self_right, Nat.mod_eq_of_lt hunfinished]
    change Function.update m.moved ch (m.moved ch ++ [_]) ch = _
    rw [Function.update_self, h.follows.nextUnit hprogress, h.moved, ← Nat.add_assoc,
      List.range_succ, List.map_append, List.map_singleton, hdiv, hmod, List.append_assoc]

/-- The loop leaves the channel running, further on in the same transaction. -/
theorem Totals.unitLoop (bus : DmaBus World) (target : UInt64) (fuel : Nat) {m : DmaMachine World} {k : Nat}
    (h : Totals cpu ch m₀ m t k) (hrunning : (m.bank.channel ch).running = true)
    (hprogress : (m.bank.channel ch).inProgress = true) (request : UInt32) :
    ∃ k', k ≤ k' ∧
      Totals cpu ch m₀ (unitLoop bus cpu target ch fuel request m).1 t k' ∧
      ((unitLoop bus cpu target ch fuel request m).1.bank.channel ch).inProgress = true ∧
      (0 < fuel → (m.bank.channel ch).remaining ≠ 0 → m.cycles < target → k < k') := by
  induction fuel generalizing m k request with
  | zero => exact ⟨k, Nat.le_refl k, h, hprogress, fun hfuel => absurd hfuel (by simp)⟩
  | succ fuel ih =>
      simp only [DmaMachine.unitLoop]
      by_cases hstop : (m.bank.channel ch).remaining = 0 ∨ target ≤ m.cycles
      · rw [if_pos hstop]
        refine ⟨k, Nat.le_refl k, h, hprogress, fun _ hremaining htime => ?_⟩
        rcases hstop with hzero | hlate
        · exact absurd hzero hremaining
        · exact absurd htime (UInt64.not_lt.mpr hlate)
      rw [if_neg hstop]
      rw [not_or] at hstop
      have hunfinished : k < (m₀.bank.channel ch).units cpu ch := by
        have hcount := (h.follows.active hprogress).2.1
        have hpos : (m.bank.channel ch).remaining.toNat ≠ 0 :=
          fun hzero => hstop.1 (UInt32.toNat_inj.mp hzero)
        omega
      have hmoved : Totals cpu ch m₀ (m.moveUnit bus cpu ch) t (k + 1) :=
        h.moveUnit hunfinished hrunning hprogress hstop.1
      have hchannel := moveUnit_channel bus cpu hrunning
      have hrunning' : ((m.moveUnit bus cpu ch).bank.channel ch).running = true := by
        rw [hchannel]
        exact hrunning
      have hprogress' : ((m.moveUnit bus cpu ch).bank.channel ch).inProgress = true := by
        rw [hchannel]
        exact hprogress
      split
      · exact ⟨k + 1, by omega, hmoved, hprogress', fun _ _ _ => by omega⟩
      split
      · exact ⟨k + 1, by omega, hmoved, hprogress', fun _ _ _ => by omega⟩
      · obtain ⟨k', hle, htotals, hstill, _⟩ := ih hmoved hrunning' hprogress' (request - 1)
        exact ⟨k', by omega, htotals, hstill, fun _ _ _ => by omega⟩

/-- The end of a call: the transaction goes on, or it is complete and counted. -/
theorem Totals.finishRun (bus : DmaBus World) (h : Totals cpu ch m₀ m t k)
    (henabled : (m₀.bank.channel ch).enabled = true)
    (hprogress : (m.bank.channel ch).inProgress = true) (gamecard gxfifo : Bool)
    (request : UInt32) :
    ∃ t' k', t * (m₀.bank.channel ch).units cpu ch + k =
        t' * (m₀.bank.channel ch).units cpu ch + k' ∧
      AtRest cpu ch m₀ (m.finishRun bus cpu ch gamecard gxfifo request) t' k' := by
  have hfirst := h.repeats_or_first henabled hprogress
  have hcount := (h.follows.active hprogress).2.1
  have hsuspended : Totals cpu ch m₀ (m.update ch (m.bank.channel ch).suspend) t k := by
    refine h.of_same ?_ rfl rfl
    rw [DmaMachine.update, DmaBank.update_channel_self]
    exact h.follows.suspend
  unfold DmaMachine.finishRun
  simp only
  by_cases hremaining : (m.bank.channel ch).remaining ≠ 0
  · have hunfinished : k < (m₀.bank.channel ch).units cpu ch := by
      have hpos : (m.bank.channel ch).remaining.toNat ≠ 0 :=
        fun hzero => hremaining (UInt32.toNat_inj.mp hzero)
      omega
    refine ⟨t, k, rfl, ?_, hunfinished, hfirst.imp_right .inl⟩
    rw [if_pos hremaining]
    split
    · exact hsuspended
    split
    · split
      · exact hsuspended.trigger 7
      · exact hsuspended
    · exact h
  · rw [if_neg hremaining]
    obtain ⟨hk, hfollows⟩ := h.follows.complete hprogress (not_not.mp hremaining)
    have htotal : t * (m₀.bank.channel ch).units cpu ch + k =
        (t + 1) * (m₀.bank.channel ch).units cpu ch + 0 := by
      rw [hk, Nat.add_mul, Nat.one_mul, Nat.add_zero]
    refine ⟨t + 1, 0, htotal, ⟨?_, ?_, ?_⟩, DmaChannel.units_pos, ?_⟩
    · change (m₀.bank.channel ch).Follows cpu ch ((DmaBank.update _ ch _).channel ch) (t + 1) 0
      rw [DmaBank.update_channel_self]
      exact hfollows
    · rw [← htotal]
      exact h.moved
    · have hirqs := h.irqs
      simp only [DmaMachine.complete, (h.follows.active hprogress).1]
      split
      · rename_i hraise
        rw [if_pos hraise] at hirqs
        rw [Function.update_self, hirqs, Nat.add_assoc]
      · rename_i hraise
        rw [if_neg hraise] at hirqs
        exact hirqs
    · exact hfirst.imp_right fun hzero => .inr ⟨by omega, rfl⟩

theorem AtRest.of_totals {m' : DmaMachine World} (h : AtRest cpu ch m₀ m t k)
    (htotals : Totals cpu ch m₀ m' t k) : AtRest cpu ch m₀ m' t k :=
  ⟨htotals, h.unfinished, h.single⟩

/-- One channel's part of a call leaves the channel at rest, no unit taken
back; of a running channel with time and bus, at least one unit moves. -/
theorem AtRest.runChannel (bus : DmaBus World) (h : AtRest cpu ch m₀ m t k)
    (henabled : (m₀.bank.channel ch).enabled = true) (target : UInt64) (c : Fin 4) :
    ∃ t' k', AtRest cpu ch m₀ (m.runChannel bus cpu target c) t' k' ∧
      (c = ch → m.held bus cpu ch = false → (m.bank.channel ch).running = true →
        m.cycles < target → t * (m₀.bank.channel ch).units cpu ch + k <
          t' * (m₀.bank.channel ch).units cpu ch + k') := by
  unfold DmaMachine.runChannel
  simp only
  by_cases hheld : m.held bus cpu c = true
  · rw [if_pos hheld]
    refine ⟨t, k, h, fun hc hfree => ?_⟩
    rw [hc, hfree] at hheld
    cases hheld
  rw [if_neg hheld]
  by_cases hskip : (m.bank.channel c).running = false ∨ target ≤ m.cycles
  · rw [if_pos hskip]
    refine ⟨t, k, h, fun hc _ hrunning htime => ?_⟩
    rcases hskip with hidle | hlate
    · rw [hc, hrunning] at hidle
      cases hidle
    · exact absurd htime (UInt64.not_lt.mpr hlate)
  rw [if_neg hskip]
  rw [not_or, Bool.not_eq_false] at hskip
  rcases eq_or_ne ch c with rfl | hother
  · have hprogress : (m.bank.channel ch).inProgress = true := by
      by_contra hidle
      have hstopped := (h.totals.follows.idle (Bool.not_eq_true _ ▸ hidle)).2.1
      exact absurd (hstopped.symm.trans hskip.1) (by decide)
    obtain ⟨k', hle, htotals, hstill, hmoves⟩ := h.totals.unitLoop bus target
      (m.bank.channel ch).remaining.toNat hskip.1 hprogress
      ((m.bank.channel ch).requestUnits cpu)
    obtain ⟨t'', k'', htotal, hrest⟩ := htotals.finishRun bus henabled hstill
      ((m.bank.channel ch).isGamecard cpu) ((m.bank.channel ch).isGxfifo cpu)
      (unitLoop bus cpu target ch (m.bank.channel ch).remaining.toNat
        ((m.bank.channel ch).requestUnits cpu) m).2
    refine ⟨t'', k'', hrest, fun _ _ _ htime => ?_⟩
    have hcount := (h.totals.follows.active hprogress).2.1
    have hpos : 0 < (m.bank.channel ch).remaining.toNat := by
      have hunfinished := h.unfinished
      omega
    have hk := hmoves hpos (fun hzero => by simp [hzero] at hpos) htime
    omega
  · refine ⟨t, k, h.of_totals ?_, fun hc => absurd hc.symm hother⟩
    exact (h.totals.unitLoop_other hother target _ _).finishRun_other hother _ _ _

theorem AtRest.ndsDmaRun (bus : DmaBus World) (h : AtRest cpu ch m₀ m t k)
    (henabled : (m₀.bank.channel ch).enabled = true) (target : UInt64) :
    ∃ t' k', AtRest cpu ch m₀ (m.ndsDmaRun bus cpu target) t' k' := by
  unfold DmaMachine.ndsDmaRun
  induction List.finRange 4 generalizing m t k with
  | nil => exact ⟨t, k, h⟩
  | cons c rest ih =>
      obtain ⟨t', k', hrest, _⟩ := h.runChannel bus henabled target c
      exact ih hrest

theorem AtRest.apply (bus : DmaBus World) (h : AtRest cpu ch m₀ m t k)
    (henabled : (m₀.bank.channel ch).enabled = true) (op : DmaOp World) :
    ∃ t' k', AtRest cpu ch m₀ (m.apply bus cpu op) t' k' := by
  cases op with
  | start c => exact ⟨t, k, h.of_totals (h.totals.start c)⟩
  | trigger mode => exact ⟨t, k, h.of_totals (h.totals.trigger mode)⟩
  | run target => exact h.ndsDmaRun bus henabled target
  | elapse world cycles =>
      exact ⟨t, k, h.of_totals (h.totals.of_same h.totals.follows rfl rfl)⟩

/-- The channel before its first request. -/
theorem AtRest.self (hprogress : (m₀.bank.channel ch).inProgress = false)
    (hrunning : (m₀.bank.channel ch).running = false) : AtRest cpu ch m₀ m₀ 0 0 where
  totals :=
    { follows := .self hprogress hrunning
      moved := by simp
      irqs := by simp }
  unfinished := DmaChannel.units_pos
  single := .inr (.inl rfl)

/-- Whatever the requests, the calls and what the machine does between them, an
enabled channel has moved exactly the units of some whole transactions and of
part of one more, in order and at their addresses; it has raised its interrupt
once for each whole transaction, and is disabled once one is whole unless it
repeats. A call that finds it running, with time and the bus, moves it on. -/
theorem dma_transaction_totals (bus : DmaBus World) (cpu : NdsCpu) (ch : Fin 4)
    {m₀ : DmaMachine World}
    (henabled : (m₀.bank.channel ch).enabled = true)
    (hprogress : (m₀.bank.channel ch).inProgress = false)
    (hrunning : (m₀.bank.channel ch).running = false) (ops : List (DmaOp World)) :
    ∃ t k, AtRest cpu ch m₀ (ops.foldl (apply bus cpu) m₀) t k ∧
      ∀ target, (ops.foldl (apply bus cpu) m₀).held bus cpu ch = false →
        ((ops.foldl (apply bus cpu) m₀).bank.channel ch).running = true →
        (ops.foldl (apply bus cpu) m₀).cycles < target →
        ∃ t' k', AtRest cpu ch m₀ ((ops.foldl (apply bus cpu) m₀).runChannel bus cpu target ch)
            t' k' ∧
          t * (m₀.bank.channel ch).units cpu ch + k <
            t' * (m₀.bank.channel ch).units cpu ch + k' := by
  have hrun (ops : List (DmaOp World)) : ∀ (m : DmaMachine World) (t k : Nat),
      AtRest cpu ch m₀ m t k → ∃ t' k', AtRest cpu ch m₀ (ops.foldl (apply bus cpu) m) t' k' := by
    induction ops with
    | nil => exact fun m t k h => ⟨t, k, h⟩
    | cons op ops ih =>
        intro m t k h
        obtain ⟨t', k', hnext⟩ := h.apply bus henabled op
        exact ih _ t' k' hnext
  obtain ⟨t, k, hrest⟩ := hrun ops m₀ 0 0 (.self hprogress hrunning)
  refine ⟨t, k, hrest, fun target hfree hgoing htime => ?_⟩
  obtain ⟨t', k', hnext, hmoves⟩ := hrest.runChannel bus henabled target ch
  exact ⟨t', k', hnext, hmoves rfl hfree hgoing htime⟩

/-- A bus with four cycles a unit, on which nothing else happens. -/
def quietBus : DmaBus Unit where
  unitCycles := fun _ _ => 4
  read := fun world _ _ => (0, world)
  write := fun world _ _ _ => world
  raised := fun _ => []
  gxfifoStalled := fun _ => false
  gxfifoRequests := fun _ => false

/-- Channel 1 of the ARM9, enabled to read three words from the card. -/
def cardMachine : DmaMachine Unit where
  bank :=
    { channel := fun _ =>
        { src := 0x04100010, dst := 0x02000000, cnt := 0xED000003, curSrc := 0x04100010
          curDst := 0x02000000, srcInc := 0, dstInc := 1, startMode := 5 } }
  cycles := 0
  world := ()
  moved := fun _ => []
  irqs := fun _ => 0

/-- One request and one call for each word. -/
def cardRequests : List (DmaOp Unit) :=
  [.trigger 5, .run 100, .trigger 5, .run 200, .trigger 5, .run 300]

theorem cardRequests_totals :
    (cardRequests.foldl (apply quietBus .arm9) cardMachine).moved 1 =
        [⟨0x04100010, 0x02000000, 4⟩, ⟨0x04100010, 0x02000004, 4⟩, ⟨0x04100010, 0x02000008, 4⟩] ∧
      (cardRequests.foldl (apply quietBus .arm9) cardMachine).irqs 1 = 1 ∧
      ∃ t k, AtRest .arm9 1 cardMachine (cardRequests.foldl (apply quietBus .arm9) cardMachine)
        t k := by
  have hidle : (cardMachine.bank.channel 1).inProgress = false := rfl
  obtain ⟨t, k, hrest, _⟩ := dma_transaction_totals quietBus .arm9 1 rfl hidle rfl cardRequests
  set_option maxRecDepth 20000 in
  exact ⟨by decide, by decide, t, k, hrest⟩

end DmaMachine

end NdsRecomp.Io
