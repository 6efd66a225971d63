import NdsRecomp.Recompiler.SplitFunctions
import Mathlib.Data.List.TakeWhile

/-!
Every instruction is emitted once. The shard ranges tile the functions, so each
leader's body is written once; the blocks cut the function list into runs that
follow one another; and a row's body has the row's instruction behind its entry.
-/

namespace NdsRecomp.Recompiler

open Library Dispatch Bus LiveOverlay

/-! ### Shards -/

/-- Where the last band lies above every function left, the ranges reach the end. -/
theorem stableRanges_tiles (e : EmissionConfig) (shards : List Nat) (first : Nat)
    (rest : List EmitFunction)
    (h : rest = [] ∨ ∃ shard ∈ shards, ∀ fn ∈ rest, fn.source.toNat < bandEnd e shard) :
    Tiles (first + rest.length) first (stableRanges e shards first rest) := by
  induction shards generalizing first rest with
  | nil =>
      rcases h with rfl | ⟨shard, hmem, -⟩
      · rfl
      · cases hmem
  | cons shard shards ih =>
      have hlen : (rest.takeWhile fun fn => decide (fn.source.toNat < bandEnd e shard)).length ≤
          rest.length := (List.takeWhile_prefix _).length_le
      have hnext := ih
        (first + (rest.takeWhile fun fn => decide (fn.source.toNat < bandEnd e shard)).length)
        (rest.drop (rest.takeWhile fun fn => decide (fn.source.toNat < bandEnd e shard)).length)
      rw [List.length_drop, Nat.add_assoc, Nat.add_sub_cancel' hlen] at hnext
      refine ⟨rfl, Nat.le_add_right _ _, hnext ?_⟩
      rcases h with rfl | ⟨band, hband, hall⟩
      · exact Or.inl rfl
      · rcases List.mem_cons.mp hband with rfl | hband
        · left
          have hself : (rest.takeWhile fun fn => decide (fn.source.toNat < bandEnd e band)) = rest :=
            List.takeWhile_eq_self_iff.mpr fun fn hfn => decide_eq_true (hall fn hfn)
          rw [hself, List.drop_length]
        · right
          exact ⟨band, hband, fun fn hfn => hall fn (List.mem_of_mem_drop hfn)⟩

theorem weight_pos (fn : EmitFunction) : 1 ≤ weight fn := le_max_left _ _

theorem shardRest_le (target w : Nat) (rest : List EmitFunction) :
    shardRest target w rest ≤ rest.length := by
  induction rest generalizing w with
  | nil => exact Nat.le_refl 0
  | cons fn rest ih =>
      unfold shardRest
      split
      · exact Nat.succ_le_succ (ih _)
      · exact Nat.zero_le _

theorem shardLength_le (target : Nat) (rest : List EmitFunction) :
    shardLength target rest ≤ rest.length := by
  cases rest with
  | nil => exact Nat.le_refl 0
  | cons fn rest => exact Nat.succ_le_succ (shardRest_le _ _ _)

/-- A target that all the weight left does not pass is met by the last function only. -/
theorem shardRest_all (target w : Nat) (rest : List EmitFunction) (h : w + weightOf rest ≤ target) :
    shardRest target w rest = rest.length := by
  induction rest generalizing w with
  | nil => rfl
  | cons fn rest ih =>
      have hpos := weight_pos fn
      have hsum : weightOf (fn :: rest) = weight fn + weightOf rest := List.sum_cons
      unfold shardRest
      rw [if_pos (by omega), ih _ (by omega)]
      rfl

/-- The last shard takes everything that is left. -/
theorem shardLength_last (rest : List EmitFunction) :
    shardLength ((weightOf rest + (0 + 1) - 1) / (0 + 1)) rest = rest.length := by
  cases rest with
  | nil => rfl
  | cons fn rest =>
      have hsum : weightOf (fn :: rest) = weight fn + weightOf rest := List.sum_cons
      have htarget : (weightOf (fn :: rest) + (0 + 1) - 1) / (0 + 1) = weightOf (fn :: rest) := by
        rw [Nat.zero_add, Nat.add_sub_cancel, Nat.div_one]
      rw [htarget, shardLength, shardRest_all _ _ _ (Nat.le_of_eq hsum.symm)]
      rfl

theorem weightedRanges_tiles (remaining first : Nat) (rest : List EmitFunction) :
    Tiles (first + rest.length) first (weightedRanges (remaining + 1) first rest) := by
  induction remaining generalizing first rest with
  | zero =>
      unfold weightedRanges
      by_cases hnil : rest = []
      · rw [if_pos hnil, hnil]
        rfl
      · rw [if_neg hnil]
        dsimp only
        rw [shardLength_last]
        exact ⟨rfl, Nat.le_add_right _ _, rfl⟩
  | succ remaining ih =>
      rw [weightedRanges]
      by_cases hnil : rest = []
      · rw [if_pos hnil, hnil]
        rfl
      · rw [if_neg hnil]
        dsimp only
        have hlen := shardLength_le ((weightOf rest + (remaining + 1 + 1) - 1) / (remaining + 1 + 1)) rest
        have hnext := ih
          (first + shardLength ((weightOf rest + (remaining + 1 + 1) - 1) / (remaining + 1 + 1)) rest)
          (rest.drop (shardLength ((weightOf rest + (remaining + 1 + 1) - 1) / (remaining + 1 + 1)) rest))
        rw [List.length_drop, Nat.add_assoc, Nat.add_sub_cancel' hlen] at hnext
        exact ⟨rfl, Nat.le_add_right _ _, hnext⟩

theorem shardCount_pos (e : EmissionConfig) : 0 < shardCount e := by
  unfold shardCount
  split
  · exact Nat.one_pos
  · next h => exact Nat.pos_of_ne_zero fun hz => h (UInt32.toNat_inj.mp hz)

/-- The last band ends where the program does. -/
theorem bandEnd_last (e : EmissionConfig) :
    bandEnd e (shardCount e - 1) = e.image.loadAddress.toNat + e.programSize.toNat := by
  have hpos := shardCount_pos e
  unfold bandEnd
  rw [Nat.sub_add_cancel hpos, Nat.mul_div_cancel _ hpos]

/-- Under either scheme the ranges of the shards tile the functions. -/
theorem shardRanges_tiles {e : EmissionConfig} {funcs : List EmitFunction}
    (h : e.stableAddressShards = true → ∀ fn ∈ funcs, sourceOutside e fn = false) :
    Tiles funcs.length 0 (shardRanges e funcs) := by
  have hpos := shardCount_pos e
  rw [← Nat.zero_add funcs.length]
  unfold shardRanges
  split
  · next hstable =>
      apply stableRanges_tiles
      right
      refine ⟨shardCount e - 1, List.mem_range.mpr (Nat.sub_lt hpos Nat.one_pos), ?_⟩
      intro fn hfn
      have hin := h hstable fn hfn
      unfold sourceOutside at hin
      simp only [Bool.or_eq_false_iff, decide_eq_false_iff_not, Nat.not_le] at hin
      rw [bandEnd_last]
      exact hin.2
  · rw [← Nat.sub_add_cancel hpos]
    exact weightedRanges_tiles _ 0 funcs

/-! ### Superblocks -/

/-- A block of several functions: each starts where the one before it ends, and
they share a mode and a page that is mapped where it is captured. -/
structure SuperblockRun (run : List EmitFunction) : Prop where
  contiguous : run.IsChain fun prev next => prev.endAddr = next.addr
  oneMode : ∀ a ∈ run, ∀ b ∈ run, a.thumb = b.thumb
  notEmpty : ∀ fn ∈ run, fn.addr < fn.endAddr
  identity : ∀ fn ∈ run, fn.source = fn.addr
  onePage : ∃ page, ∀ fn ∈ run, pageOf fn.addr = page ∧ fn.endAddr.toNat ≤ page.toNat + 4096

section Blocks

variable {e : EmissionConfig} {funcs : List EmitFunction} {page : UInt32}

variable (e funcs page) in
theorem joinedRun_append (prev : EmitFunction) (rest : List EmitFunction) :
    (joinedRun e funcs page prev rest).1 ++ (joinedRun e funcs page prev rest).2 = rest := by
  induction rest generalizing prev with
  | nil => rfl
  | cons next rest ih =>
      rw [joinedRun]
      split
      · rw [List.cons_append, ih]
      · rfl

theorem joinedRun_contiguous (prev : EmitFunction) (rest : List EmitFunction) :
    (prev :: (joinedRun e funcs page prev rest).1).IsChain fun a b => a.endAddr = b.addr := by
  induction rest generalizing prev with
  | nil => exact List.isChain_singleton _
  | cons next rest ih =>
      rw [joinedRun]
      split
      · next hjoin => exact List.isChain_cons_cons.mpr ⟨hjoin.1, ih next⟩
      · exact List.isChain_singleton _

/-- Everything that joined has the mode before it, and fits the page. -/
theorem joinedRun_mem (prev : EmitFunction) (rest : List EmitFunction) {fn : EmitFunction}
    (h : fn ∈ (joinedRun e funcs page prev rest).1) :
    fn.thumb = prev.thumb ∧ pageOf fn.addr = page ∧ fitsPage funcs page fn := by
  induction rest generalizing prev with
  | nil => cases h
  | cons next rest ih =>
      rw [joinedRun] at h
      split at h
      · next hjoin =>
          obtain ⟨-, hmode, hpage, hfits, -⟩ := hjoin
          rcases List.mem_cons.mp h with rfl | h
          · exact ⟨hmode.symm, hpage, hfits⟩
          · obtain ⟨hthumb, hrest⟩ := ih next h
            exact ⟨hthumb.trans hmode.symm, hrest⟩
      · cases h

theorem joinedRun_superblock {head : EmitFunction} (rest : List EmitFunction)
    (hhead : fitsPage funcs (pageOf head.addr) head) :
    SuperblockRun (head :: (joinedRun e funcs (pageOf head.addr) head rest).1) := by
  have hall : ∀ fn ∈ head :: (joinedRun e funcs (pageOf head.addr) head rest).1,
      fn.thumb = head.thumb ∧ pageOf fn.addr = pageOf head.addr ∧
        fitsPage funcs (pageOf head.addr) fn := by
    intro fn hfn
    rcases List.mem_cons.mp hfn with rfl | hfn
    · exact ⟨rfl, rfl, hhead⟩
    · exact joinedRun_mem head rest hfn
  constructor
  · exact joinedRun_contiguous head rest
  · intro a ha b hb
    exact (hall a ha).1.trans (hall b hb).1.symm
  · intro fn hfn
    exact (hall fn hfn).2.2.2.1
  · intro fn hfn
    exact (hall fn hfn).2.2.1
  · exact ⟨pageOf head.addr, fun fn hfn => ⟨(hall fn hfn).2.1, (hall fn hfn).2.2.2.2.1⟩⟩

/-- A block of the plan: one function, or a run. -/
def PlannedBlock (run : List EmitFunction) : Prop :=
  run ≠ [] ∧ (run.length ≠ 1 → SuperblockRun run)

theorem plannedBlock_single (fn : EmitFunction) : PlannedBlock [fn] :=
  ⟨List.cons_ne_nil _ _, fun h => absurd rfl h⟩

theorem superblocksFrom_spec (fuel : Nat) (rest : List EmitFunction) (hfuel : rest.length ≤ fuel) :
    (superblocksFrom e funcs fuel rest).flatten = rest ∧
      ∀ run ∈ superblocksFrom e funcs fuel rest, PlannedBlock run := by
  induction fuel generalizing rest with
  | zero =>
      rw [List.length_eq_zero_iff.mp (Nat.le_zero.mp hfuel)]
      exact ⟨rfl, by simp [superblocksFrom]⟩
  | succ fuel ih =>
      cases rest with
      | nil => exact ⟨rfl, by simp [superblocksFrom]⟩
      | cons head rest =>
          have hrest : rest.length ≤ fuel := Nat.le_of_succ_le_succ hfuel
          rw [superblocksFrom]
          split
          · next hhead =>
              have happend := joinedRun_append e funcs (pageOf head.addr) head rest
              have hleft : (joinedRun e funcs (pageOf head.addr) head rest).2.length ≤ fuel := by
                have hlen := congrArg List.length happend
                rw [List.length_append] at hlen
                omega
              obtain ⟨hflat, hplanned⟩ := ih _ hleft
              constructor
              · rw [List.flatten_cons, hflat, List.cons_append, happend]
              · intro run hrun
                rcases List.mem_cons.mp hrun with rfl | hrun
                · exact ⟨List.cons_ne_nil _ _, fun _ => joinedRun_superblock rest hhead⟩
                · exact hplanned run hrun
          · obtain ⟨hflat, hplanned⟩ := ih rest hrest
            constructor
            · rw [List.flatten_cons, hflat]
              rfl
            · intro run hrun
              rcases List.mem_cons.mp hrun with rfl | hrun
              · exact plannedBlock_single head
              · exact hplanned run hrun

/-- The plan cuts the function list into blocks. -/
theorem buildSuperblocks_spec (e : EmissionConfig) (funcs : List EmitFunction) :
    (buildSuperblocks e funcs).flatten = funcs ∧
      ∀ run ∈ buildSuperblocks e funcs, PlannedBlock run := by
  unfold buildSuperblocks
  split
  · exact superblocksFrom_spec _ _ (Nat.le_refl _)
  · constructor
    · exact List.flatMap_singleton' funcs
    · intro run hrun
      obtain ⟨fn, -, rfl⟩ := List.mem_map.mp hrun
      exact plannedBlock_single fn

end Blocks

/-! ### Bodies -/

/-- The bodies of all blocks, each under an index the list has. -/
theorem bodiesFrom_index {e : EmissionConfig} (index : Nat) (blocks : List (List EmitFunction)) :
    ∀ item ∈ bodiesFrom e index blocks, item.1 < index + blocks.flatten.length := by
  induction blocks generalizing index with
  | nil => simp [bodiesFrom]
  | cons block blocks ih =>
      cases block with
      | nil =>
          intro item hitem
          exact ih index item hitem
      | cons head members =>
          intro item hitem
          rw [List.flatten_cons, List.length_append, List.length_cons]
          rcases List.mem_cons.mp hitem with rfl | hitem
          · dsimp only
            omega
          · have hlt := ih _ item hitem
            omega

theorem bodiesFrom_mem {e : EmissionConfig} (index : Nat) {blocks : List (List EmitFunction)}
    {head : EmitFunction} {members : List EmitFunction} (h : head :: members ∈ blocks) :
    hostBody e head members ∈ (bodiesFrom e index blocks).map Prod.snd := by
  induction blocks generalizing index with
  | nil => cases h
  | cons block blocks ih =>
      rcases List.mem_cons.mp h with rfl | hmem
      · exact List.mem_cons_self
      · cases block with
        | nil => exact ih index hmem
        | cons first others => exact List.mem_cons_of_mem _ (ih _ hmem)

/-- The bodies' names are those of the leaders, in the list's order. -/
theorem bodiesFrom_names {e : EmissionConfig} (index : Nat) (blocks : List (List EmitFunction)) :
    ((bodiesFrom e index blocks).map fun item => item.2.name).Sublist
      (blocks.flatten.map fun fn => e.fnPrefix ++ fn.name) := by
  induction blocks generalizing index with
  | nil => exact List.Sublist.slnil
  | cons block blocks ih =>
      cases block with
      | nil => exact ih index
      | cons head members =>
          rw [List.flatten_cons, List.cons_append, List.map_cons, List.map_append]
          exact ((ih _).trans (List.sublist_append_right _ _)).cons_cons _

/-- A name that no two items share picks out one item. -/
theorem filter_name_eq {α : Type*} {name : α → String} {l : List α} {a : α}
    (hnodup : (l.map name).Nodup) (ha : a ∈ l) : l.filter (fun b => name b == name a) = [a] := by
  induction l with
  | nil => cases ha
  | cons b l ih =>
      rw [List.map_cons, List.nodup_cons] at hnodup
      rcases List.mem_cons.mp ha with rfl | hmem
      · rw [List.filter_cons, if_pos (beq_self_eq_true _)]
        congr 1
        rw [List.filter_eq_nil_iff]
        intro c hc heq
        exact hnodup.1 (eq_of_beq heq ▸ List.mem_map_of_mem hc)
      · have hne : ¬ (name b == name a) = true := fun heq =>
          hnodup.1 (eq_of_beq heq ▸ List.mem_map_of_mem hmem)
        rw [List.filter_cons, if_neg hne]
        exact ih hnodup.2 hmem

/-- Dealt out to shards that tile the functions, the bodies are all of them. -/
theorem shards_perm {e : EmissionConfig} {blocks : List (List EmitFunction)}
    {ranges : List (Nat × Nat)} (h : Tiles blocks.flatten.length 0 ranges) :
    ((ranges.map (shardBodies e blocks)).flatten).Perm ((bodiesFrom e 0 blocks).map Prod.snd) := by
  have hindex : ∀ item ∈ bodiesFrom e 0 blocks, item.1 < blocks.flatten.length := by
    intro item hitem
    have hlt := bodiesFrom_index 0 blocks item hitem
    rwa [Nat.zero_add] at hlt
  have hmap := (h.deal hindex).map Prod.snd
  rw [List.map_flatMap] at hmap
  rw [List.flatten_eq_flatMap, List.flatMap_map]
  exact hmap

end NdsRecomp.Recompiler
