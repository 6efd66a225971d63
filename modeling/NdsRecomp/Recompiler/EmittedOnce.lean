import NdsRecomp.Recompiler.EmissionCoverage

/-!
A row of the dispatch table names one body, and that body has the row's
instruction behind its entry: it is the first label, or a case of the resume
switch jumps to it.
-/

namespace NdsRecomp.Recompiler

open Library Dispatch Bus LiveOverlay

/-! ### Entering a body -/

theorem mem_pcs_bounds {fn : EmitFunction} (haligned : StepAligned fn) {pc : UInt32}
    (h : pc ∈ fn.pcs) :
    fn.addr.toNat ≤ pc.toNat ∧ pc.toNat + fn.step ≤ fn.endAddr.toNat := by
  rw [pcs_of_aligned haligned] at h
  obtain ⟨k, hk, rfl⟩ := List.mem_map.mp h
  obtain ⟨hfirst, hlast⟩ := List.mem_range'_1.mp hk
  have hbegin := Nat.div_mul_cancel haligned.1
  have hend := Nat.div_mul_cancel haligned.2
  have hafter : fn.addr.toNat / fn.step * fn.step ≤ k * fn.step := Nat.mul_le_mul_right _ hfirst
  have hbefore : (k + 1) * fn.step ≤ fn.endAddr.toNat / fn.step * fn.step :=
    Nat.mul_le_mul_right _ (by omega)
  have hbound := fn.endAddr.toNat_lt
  have hpos := fn.step_pos
  rw [Nat.add_mul, Nat.one_mul] at hbefore
  rw [UInt32.toNat_ofNat_of_lt' (by change _ < 2 ^ 32; omega)]
  omega

/-- Inside the image every instruction gets its label. -/
theorem bodyLabels_eq {image : BankImage} {fn : EmitFunction} (haligned : StepAligned fn)
    (hinside : InsideImage image fn) :
    bodyLabels image fn = fn.pcs.map fun pc => (pc, fn.thumb) := by
  unfold bodyLabels
  congr 1
  rw [List.takeWhile_eq_self_iff]
  intro pc hpc
  obtain ⟨hafter, hbefore⟩ := mem_pcs_bounds haligned hpc
  obtain ⟨hbegin, hend, -⟩ := hinside
  have hbegin := UInt32.le_iff_toNat_le.mp hbegin
  unfold sourceOffsetFor
  simp only [Bool.and_eq_true, decide_eq_true_eq]
  omega

theorem pcs_head {fn : EmitFunction} (h : fn.addr < fn.endAddr) :
    fn.pcs = fn.addr :: fn.pcs.tail := by
  have hlt := UInt32.lt_iff_toNat_lt.mp h
  have hcount : 0 < (fn.endAddr.toNat - fn.addr.toNat + fn.step - 1) / fn.step :=
    Nat.div_pos (by omega) fn.step_pos
  obtain ⟨n, hn⟩ := Nat.exists_eq_succ_of_ne_zero (Nat.pos_iff_ne_zero.mp hcount)
  unfold EmitFunction.pcs
  rw [hn, List.range_succ_eq_map, List.map_cons, List.tail_cons, Nat.zero_mul, Nat.add_zero,
    UInt32.ofNat_toNat]

theorem find_label {labels : List (UInt32 × Bool)} {pc : UInt32} {thumb : Bool}
    (hmem : (pc, thumb) ∈ labels) (hmode : ∀ label ∈ labels, label.2 = thumb) :
    (labels.find? fun label => label.1 == pc) = some (pc, thumb) := by
  have hsome : (labels.find? fun label => label.1 == pc).isSome :=
    List.find?_isSome.mpr ⟨_, hmem, beq_self_eq_true pc⟩
  obtain ⟨label, hlabel⟩ := Option.isSome_iff_exists.mp hsome
  have haddr : label.1 = pc := eq_of_beq (List.find?_eq_some_iff_append.mp hlabel).1
  have hthumb := hmode label (List.mem_of_find?_eq_some hlabel)
  rw [hlabel, ← haddr, ← hthumb]

/-- What a block owes to the plan and to the domain. -/
theorem PlannedBlock.member {head fn : EmitFunction} {members : List EmitFunction}
    (h : PlannedBlock (head :: members)) (hfn : fn ∈ head :: members) :
    fn.thumb = head.thumb ∧ (fn = head ∨ head.addr < head.endAddr) := by
  by_cases hone : (head :: members).length = 1
  · have hnil : members = [] := List.length_eq_zero_iff.mp (Nat.succ.inj hone)
    rw [hnil, List.mem_singleton] at hfn
    rw [hfn]
    exact ⟨rfl, Or.inl rfl⟩
  · have hrun := h.2 hone
    exact ⟨hrun.oneMode fn hfn head List.mem_cons_self,
      Or.inr (hrun.notEmpty head List.mem_cons_self)⟩

/-- Called with R15 at any instruction of its block, a body goes on there. -/
theorem enterAt_hostBody {e : EmissionConfig} {head fn : EmitFunction}
    {members : List EmitFunction} (hplanned : PlannedBlock (head :: members))
    (hdomain : ∀ g ∈ head :: members, StepAligned g ∧ InsideImage e.image g)
    (hfn : fn ∈ head :: members) {pc : UInt32} (hpc : pc ∈ fn.pcs) :
    (hostBody e head members).enterAt pc = some (pc, fn.thumb) := by
  have hlabels : (hostBody e head members).labels =
      (head :: members).flatMap fun g => g.pcs.map fun pc => (pc, head.thumb) := by
    apply List.flatMap_congr
    intro g hg
    rw [bodyLabels_eq (hdomain g hg).1 (hdomain g hg).2, (hplanned.member hg).1]
  have hmem : (pc, head.thumb) ∈ (hostBody e head members).labels := by
    rw [hlabels]
    exact List.mem_flatMap.mpr ⟨fn, hfn, List.mem_map_of_mem hpc⟩
  have hmode : ∀ label ∈ (hostBody e head members).labels, label.2 = head.thumb := by
    intro label hlabel
    rw [hlabels] at hlabel
    obtain ⟨g, -, hg⟩ := List.mem_flatMap.mp hlabel
    obtain ⟨other, -, rfl⟩ := List.mem_map.mp hg
    rfl
  obtain ⟨hthumb, hhead⟩ := hplanned.member hfn
  rw [hthumb]
  have hnonempty : head.addr < head.endAddr := by
    rcases hhead with rfl | hlt
    · have hbounds := mem_pcs_bounds (hdomain fn hfn).1 hpc
      have hpos := fn.step_pos
      rw [UInt32.lt_iff_toNat_lt]
      omega
    · exact hlt
  unfold HostBody.enterAt
  by_cases hentry : pc = (hostBody e head members).entry
  · rw [if_pos hentry, hlabels, List.flatMap_cons, pcs_head hnonempty]
    rw [hentry]
    rfl
  · have hcase : pc ∈ (hostBody e head members).cases_ := by
      refine List.mem_append.mpr ?_
      rcases List.mem_cons.mp hfn with rfl | hfn
      · rw [pcs_head hnonempty] at hpc
        rcases List.mem_cons.mp hpc with heq | htail
        · exact absurd heq hentry
        · exact Or.inl htail
      · exact Or.inr (List.mem_flatMap.mpr ⟨fn, hfn, hpc⟩)
    rw [if_neg hentry, if_pos hcase]
    exact find_label hmem hmode

/-! ### The table -/

instance : Std.Total hostRowLe where
  total _ _ := le_total _ _

instance : IsTrans HostRow hostRowLe where
  trans _ _ _ := le_trans

theorem hostRows_sorted (rows : List HostRow) :
    KeySorted HostRow.key (rows.insertionSort hostRowLe) := by
  refine (List.pairwise_insertionSort hostRowLe rows).imp fun hle => ?_
  rcases Prod.Lex.le_iff.mp hle with hlt | ⟨heq, -⟩
  · exact le_of_lt hlt
  · exact le_of_eq heq

section Rows

variable {e : EmissionConfig} {keys : List UInt64} {blocks : List (List EmitFunction)}

theorem mem_blockRows {row : HostRow} :
    row ∈ blocks.flatMap (blockRows e keys) ↔
      ∃ head members, head :: members ∈ blocks ∧ ∃ fn ∈ head :: members,
        row.addr ∈ fn.pcs ∧ fn.key row.addr ∉ keys ∧ row.thumb = fn.thumb ∧
          row.fn = e.fnPrefix ++ head.name := by
  rw [List.mem_flatMap]
  constructor
  · rintro ⟨block, hblock, hrow⟩
    cases block with
    | nil => cases hrow
    | cons head members =>
        unfold blockRows at hrow
        obtain ⟨fn, hfn, hmem⟩ := List.mem_flatMap.mp hrow
        obtain ⟨pc, hpc, rfl⟩ := List.mem_map.mp hmem
        obtain ⟨hpc, hkey⟩ := List.mem_filter.mp hpc
        refine ⟨head, members, hblock, fn, hfn, hpc, ?_, rfl, rfl⟩
        simpa using hkey
  · rintro ⟨head, members, hblock, fn, hfn, hpc, hkey, hthumb, hname⟩
    refine ⟨head :: members, hblock, ?_⟩
    unfold blockRows
    refine List.mem_flatMap.mpr ⟨fn, hfn, List.mem_map.mpr ⟨row.addr, ?_, ?_⟩⟩
    · exact List.mem_filter.mpr ⟨hpc, by simpa using hkey⟩
    · rw [← hthumb, ← hname]

theorem mem_hostRows {row : HostRow} (h : row ∈ hostRows e keys blocks) :
    row ∈ blocks.flatMap (blockRows e keys) :=
  (List.mem_insertionSort hostRowLe).mp ((uniqueByKey_sublist _ _).subset h)

variable (e keys blocks) in
/-- The table has a row at a key exactly when some block has. -/
theorem hostRows_key (key : Nat ×ₗ Bool) :
    (∃ row ∈ hostRows e keys blocks, row.key = key) ↔
      ∃ row ∈ blocks.flatMap (blockRows e keys), row.key = key := by
  constructor
  · rintro ⟨row, hrow, hkey⟩
    exact ⟨row, mem_hostRows hrow, hkey⟩
  · rintro ⟨row, hrow, hkey⟩
    have hrun := runAt_uniqueByKey (hostRows_sorted (blocks.flatMap (blockRows e keys))) key
    have hmem : row ∈ runAt HostRow.key key
        ((blocks.flatMap (blockRows e keys)).insertionSort hostRowLe) :=
      List.mem_filter.mpr ⟨(List.mem_insertionSort hostRowLe).mpr hrow, decide_eq_true hkey⟩
    obtain ⟨first, rest, hcons⟩ := List.exists_cons_of_ne_nil (List.ne_nil_of_mem hmem)
    rw [hcons, List.take_succ_cons, List.take_zero] at hrun
    have hfirst : first ∈ runAt HostRow.key key (hostRows e keys blocks) := by
      unfold hostRows
      rw [hrun]
      exact List.mem_cons_self
    obtain ⟨hin, hfirstKey⟩ := List.mem_filter.mp hfirst
    exact ⟨first, hin, of_decide_eq_true hfirstKey⟩

theorem hostRow_key_iff (row : HostRow) (pc : UInt32) (thumb : Bool) :
    row.key = toLex (pc.toNat, thumb) ↔ row.addr = pc ∧ row.thumb = thumb := by
  unfold HostRow.key
  rw [toLex_inj, Prod.mk.injEq, UInt32.toNat_inj]

end Rows

/-! ### The emission -/

theorem emissionOrder_perm (e : EmissionConfig) (funcs : List EmitFunction) :
    (emissionOrder e funcs).Perm funcs := by
  unfold emissionOrder
  split
  · exact List.perm_insertionSort stableLe funcs
  · exact List.Perm.refl funcs

/-- A function with an instruction that is not pruned is kept. -/
theorem keptBy_of_not_pruned {owned : EmitFunction → UInt32 → Bool} {parts : List EmitFunction}
    {fn : EmitFunction} (hfn : fn ∈ parts) {pc : UInt32} (hpc : pc ∈ fn.pcs)
    (hkey : fn.key pc ∉ prunedBy owned parts) : fn ∈ keptBy owned parts := by
  refine List.mem_filter.mpr ⟨hfn, ?_⟩
  rw [Bool.not_eq_true', Bool.and_eq_false_iff]
  right
  rw [beq_eq_false_iff_ne]
  intro hlen
  unfold shadowedBy at hlen
  rw [List.length_map, List.length_filter_eq_length_iff] at hlen
  apply hkey
  refine List.mem_flatMap.mpr ⟨fn, hfn, List.mem_map_of_mem ?_⟩
  exact List.mem_filter.mpr ⟨hpc, hlen pc hpc⟩

theorem mem_instructionKeys {funcs : List EmitFunction} {pc : UInt32} {thumb : Bool} :
    (pc, thumb) ∈ instructionKeys funcs ↔ ∃ fn ∈ funcs, pc ∈ fn.pcs ∧ fn.thumb = thumb := by
  unfold instructionKeys
  rw [List.mem_flatMap]
  constructor
  · rintro ⟨fn, hfn, hmem⟩
    obtain ⟨pc', hpc, heq⟩ := List.mem_map.mp hmem
    cases heq
    exact ⟨fn, hfn, hpc, rfl⟩
  · rintro ⟨fn, hfn, hpc, rfl⟩
    exact ⟨fn, hfn, List.mem_map_of_mem hpc⟩

/-- What an emission owes to the functions it is made of and to their parts. -/
structure EmissionCovers (e : EmissionConfig) (funcs parts : List EmitFunction)
    (out : Emission) : Prop where
  functions : out.functions.Perm (keptBy e.owned parts)
  sorted : out.rows.Pairwise fun a b =>
    a.addr < b.addr ∨ (a.addr = b.addr ∧ a.thumb < b.thumb)
  keys : ∀ pc thumb, (∃ row ∈ out.rows, row.addr = pc ∧ row.thumb = thumb) ↔
    (∃ fn ∈ funcs, pc ∈ fn.pcs ∧ fn.thumb = thumb) ∧
      dispatchKey pc thumb ∉ prunedBy e.owned parts
  /-- Among the bodies of all shards one has the name of the row, and it is entered. -/
  bodies : ∀ row ∈ out.rows, ∃ body,
    out.shards.flatten.filter (fun b => b.name == row.fn) = [body] ∧
      body.enterAt row.addr = some (row.addr, row.thumb)
  blocks : out.superblocks.flatten = out.functions ∧
    ∀ run ∈ out.superblocks, run ≠ [] ∧ (run.length ≠ 1 → SuperblockRun run)

theorem emitOrdered_bodies {e : EmissionConfig} {keys : List UInt64} {funcs : List EmitFunction}
    (hdomain : ∀ fn ∈ funcs, StepAligned fn ∧ InsideImage e.image fn)
    (hsource : e.stableAddressShards = true → ∀ fn ∈ funcs, sourceOutside e fn = false)
    (hnames : (funcs.map EmitFunction.name).Nodup) {row : HostRow}
    (hrow : row ∈ (emitOrdered e keys funcs).rows) :
    ∃ body, (emitOrdered e keys funcs).shards.flatten.filter (fun b => b.name == row.fn) = [body] ∧
      body.enterAt row.addr = some (row.addr, row.thumb) := by
  obtain ⟨hflat, hplanned⟩ := buildSuperblocks_spec e funcs
  obtain ⟨head, members, hblock, fn, hfn, hpc, -, hthumb, hname⟩ :=
    mem_blockRows.mp (mem_hostRows hrow)
  refine ⟨hostBody e head members, ?_, ?_⟩
  · have htiles := shardRanges_tiles hsource
    rw [← congrArg List.length hflat] at htiles
    have hperm := shards_perm (e := e) htiles
    have hprefixed : (((bodiesFrom e 0 (buildSuperblocks e funcs)).map Prod.snd).map
        HostBody.name).Nodup := by
      have hsub := bodiesFrom_names (e := e) 0 (buildSuperblocks e funcs)
      rw [hflat] at hsub
      rw [List.map_map]
      refine hsub.nodup ?_
      rw [← Function.comp_def (fun name => e.fnPrefix ++ name) EmitFunction.name, ← List.map_map]
      exact hnames.map fun a b h => (String.append_right_inj _).mp h
    have hone := filter_name_eq hprefixed (bodiesFrom_mem (e := e) 0 hblock)
    rw [hname]
    exact List.perm_singleton.mp ((hperm.filter _).trans (List.Perm.of_eq hone))
  · rw [hthumb]
    refine enterAt_hostBody (hplanned _ hblock) (fun g hg => hdomain g ?_) hfn hpc
    rw [← hflat]
    exact List.mem_flatten.mpr ⟨_, hblock, hg⟩

theorem emitOrdered_keys {e : EmissionConfig} {parts funcs : List EmitFunction}
    (hperm : funcs.Perm (keptBy e.owned parts)) (pc : UInt32) (thumb : Bool) :
    (∃ row ∈ (emitOrdered e (prunedBy e.owned parts) funcs).rows,
        row.addr = pc ∧ row.thumb = thumb) ↔
      (pc, thumb) ∈ instructionKeys parts ∧ dispatchKey pc thumb ∉ prunedBy e.owned parts := by
  obtain ⟨hflat, -⟩ := buildSuperblocks_spec e funcs
  have hkey := hostRows_key e (prunedBy e.owned parts) (buildSuperblocks e funcs)
    (toLex (pc.toNat, thumb))
  simp only [hostRow_key_iff] at hkey
  refine hkey.trans ?_
  rw [mem_instructionKeys]
  constructor
  · rintro ⟨row, hrow, rfl, rfl⟩
    obtain ⟨head, members, hblock, fn, hfn, hpc, hnot, hthumb, -⟩ := mem_blockRows.mp hrow
    have hmem : fn ∈ funcs := by
      rw [← hflat]
      exact List.mem_flatten.mpr ⟨_, hblock, hfn⟩
    have hpart : fn ∈ parts := (List.mem_filter.mp (hperm.subset hmem)).1
    rw [hthumb]
    exact ⟨⟨fn, hpart, hpc, rfl⟩, hnot⟩
  · rintro ⟨⟨fn, hpart, hpc, rfl⟩, hnot⟩
    have hmem : fn ∈ (buildSuperblocks e funcs).flatten := by
      rw [hflat]
      exact hperm.symm.subset (keptBy_of_not_pruned hpart hpc hnot)
    obtain ⟨block, hblock, hfn⟩ := List.mem_flatten.mp hmem
    cases block with
    | nil => cases hfn
    | cons head members =>
        exact ⟨⟨pc, fn.thumb, e.fnPrefix ++ head.name⟩,
          mem_blockRows.mpr ⟨head, members, hblock, fn, hfn, hpc, hnot, rfl, rfl⟩, rfl, rfl⟩

theorem emitOrdered_sorted (e : EmissionConfig) (keys : List UInt64) (funcs : List EmitFunction) :
    (emitOrdered e keys funcs).rows.Pairwise fun a b =>
      a.addr < b.addr ∨ (a.addr = b.addr ∧ a.thumb < b.thumb) := by
  refine (uniqueByKey_strict (hostRows_sorted _)).imp fun {a b} hlt => ?_
  rcases Prod.Lex.lt_iff.mp hlt with haddr | ⟨haddr, hthumb⟩
  · exact Or.inl (UInt32.lt_iff_toNat_lt.mpr haddr)
  · exact Or.inr ⟨UInt32.toNat_inj.mp haddr, hthumb⟩

/-- Splitting always ends. The emission is refused only for a source outside the
image under stable sharding; otherwise, when the parts have distinct names, every
instruction that is not pruned has one row, whose body is written once and holds it. -/
theorem emission_covers_once (e : EmissionConfig) (funcs : List EmitFunction)
    (hdomain : EmissionDomain e funcs) :
    ∃ parts, splitFunctionsForEmission e funcs = some parts ∧
      (emitBank e funcs = none ↔ e.stableAddressShards = true ∧
        ∃ fn ∈ keptBy e.owned parts, sourceOutside e fn = true) ∧
      ((parts.map EmitFunction.name).Nodup →
        ∀ out, emitBank e funcs = some out → EmissionCovers e funcs parts out) := by
  obtain ⟨parts, hsplit, hkeys, hparts⟩ := split_keeps_instructions hdomain
  have hbank : emitBank e funcs =
      if e.stableAddressShards && (keptBy e.owned parts).any (sourceOutside e) then none
      else some (emitOrdered e (prunedBy e.owned parts)
        (emissionOrder e (keptBy e.owned parts))) := by
    unfold emitBank
    rw [hsplit]
    rfl
  refine ⟨parts, hsplit, ?_, ?_⟩
  · rw [hbank, ite_eq_left_iff]
    simp only [reduceCtorEq, imp_false, Decidable.not_not, Bool.and_eq_true, List.any_eq_true]
  · intro hnames out hout
    rw [hbank] at hout
    split at hout
    · cases hout
    next hinside =>
    cases hout
    have hperm := emissionOrder_perm e (keptBy e.owned parts)
    have hsource : e.stableAddressShards = true →
        ∀ fn ∈ emissionOrder e (keptBy e.owned parts), sourceOutside e fn = false := by
      intro hstable fn hfn
      rw [hstable, Bool.true_and, Bool.not_eq_true, List.any_eq_false] at hinside
      exact Bool.eq_false_iff.mpr (hinside fn (hperm.subset hfn))
    have hkept : (keptBy e.owned parts).Sublist parts := List.filter_sublist
    have hordered : ((emissionOrder e (keptBy e.owned parts)).map EmitFunction.name).Nodup :=
      (hperm.map _).nodup_iff.mpr ((hkept.map _).nodup hnames)
    constructor
    · exact hperm
    · exact emitOrdered_sorted e _ _
    · intro pc thumb
      refine (emitOrdered_keys hperm pc thumb).trans ?_
      rw [hkeys, mem_instructionKeys]
    · intro row hrow
      exact emitOrdered_bodies (fun fn hfn => hparts fn (hkept.subset (hperm.subset hfn))) hsource
        hordered hrow
    · exact buildSuperblocks_spec e _

/-! ### Two functions of one bank -/

private def smallBank (maxBytes : UInt32) (coalesce : Bool) : EmissionConfig where
  image := ⟨List.replicate 16 0, 0x02000000⟩
  programSize := 16
  fnPrefix := "arm9_"
  maxFunctionBytes := maxBytes
  isBlPrefix := fun _ _ => false
  owned := fun _ _ => false
  precedingRows := []
  coalesceFallthroughs := coalesce
  stableAddressShards := false
  shards := 2

private def twoFunctions (name : String) : List EmitFunction :=
  [⟨0x02000000, 0, false, "f", 0x02000008⟩, ⟨0x02000008, 0, false, name, 0x0200000C⟩]

private def movedFunction : EmitFunction := ⟨0x037F8000, 0x02000000, false, "g", 0x037F8008⟩

instance (fn : EmitFunction) : Decidable (StepAligned fn) := inferInstanceAs (Decidable (_ ∧ _))

instance (image : BankImage) (fn : EmitFunction) : Decidable (InsideImage image fn) :=
  inferInstanceAs (Decidable (_ ∧ _))

instance (e : EmissionConfig) (fn : EmitFunction) : Decidable (ChunksFit e fn) :=
  inferInstanceAs (Decidable (_ ≤ _))

private theorem domain_of_decide {e : EmissionConfig} {funcs : List EmitFunction}
    (h : ∀ fn ∈ funcs, StepAligned fn ∧ InsideImage e.image fn ∧ ChunksFit e fn) :
    EmissionDomain e funcs :=
  ⟨fun fn hfn => (h fn hfn).1, fun fn hfn => (h fn hfn).2.1, fun _ fn hfn => (h fn hfn).2.2⟩

/-- Two functions, chunked and coalesced over two shards. -/
theorem emission_covers_once_small :
    ∃ parts out, splitFunctionsForEmission (smallBank 4 true) (twoFunctions "g") = some parts ∧
      emitBank (smallBank 4 true) (twoFunctions "g") = some out ∧
      EmissionCovers (smallBank 4 true) (twoFunctions "g") parts out := by
  obtain ⟨parts, hsplit, hrefused, hcovers⟩ :=
    emission_covers_once (smallBank 4 true) (twoFunctions "g")
      (domain_of_decide (by decide))
  have hnames : (splitFunctionsForEmission (smallBank 4 true) (twoFunctions "g")).map
      (fun parts => decide (parts.map EmitFunction.name).Nodup) = some true := by decide
  rw [hsplit, Option.map_some, Option.some_inj, decide_eq_true_eq] at hnames
  cases hbank : emitBank (smallBank 4 true) (twoFunctions "g") with
  | none => exact absurd (hrefused.mp hbank).1 (by decide)
  | some out => exact ⟨parts, out, hsplit, rfl, hcovers hnames out hbank⟩

/-- A chunk of half the address space, for a function at its middle. -/
private def halfBank : EmissionConfig :=
  { smallBank 0x80000000 false with image := ⟨List.replicate 16 0, 0x80000000⟩ }

private def middleFunction : EmitFunction := ⟨0x80000000, 0, false, "f", 0x80000010⟩

/-- The first chunk ends at 0, the second where the function starts. -/
private theorem wrapped_split_goes_on (fuel part : Nat) :
    splitFrom halfBank middleFunction fuel 0x80000000 part = none ∧
      splitFrom halfBank middleFunction fuel 0 part = none := by
  induction fuel generalizing part with
  | zero => exact ⟨rfl, rfl⟩
  | succ fuel ih =>
      have hdown : chunkEnd halfBank middleFunction 0x80000000 = 0 := by decide
      have hup : chunkEnd halfBank middleFunction 0 = 0x80000000 := by decide
      constructor
      · rw [splitFrom, if_pos (by decide), hdown, (ih (part + 1)).2]
        rfl
      · rw [splitFrom, if_pos (by decide), hup, (ih (part + 1)).1]
        rfl

private theorem exists_of_any {α : Type*} {o : Option α} {p : α → Bool} (h : o.any p = true) :
    ∃ a, o = some a ∧ p a = true := by
  cases o with
  | none => cases h
  | some a => exact ⟨a, rfl, h⟩

/-- A function that is captured elsewhere is a block of its own that is not identity
mapped. Of functions with distinct names, the second chunk of one can take the name
of the other, and both bodies are written. A chunk end that wraps never ends the loop. -/
theorem moved_block_and_shared_chunk_name :
    (EmissionDomain (smallBank 0 true) [movedFunction] ∧
      ∃ out, emitBank (smallBank 0 true) [movedFunction] = some out ∧
        ∃ run ∈ out.superblocks, ¬ SuperblockRun run) ∧
    (EmissionDomain (smallBank 4 false) (twoFunctions "f_chunk_1") ∧
      ((twoFunctions "f_chunk_1").map EmitFunction.name).Nodup ∧
      ∃ out, emitBank (smallBank 4 false) (twoFunctions "f_chunk_1") = some out ∧
        ∃ row ∈ out.rows, (out.shards.flatten.filter fun b => b.name == row.fn).length = 2) ∧
    (StepAligned middleFunction ∧ InsideImage halfBank.image middleFunction ∧
      ∀ fuel, splitFrom halfBank middleFunction fuel middleFunction.addr 0 = none) := by
  refine ⟨⟨domain_of_decide (by decide), ?_⟩,
    ⟨domain_of_decide (by decide), by decide, ?_⟩,
    ⟨by decide, by decide, fun fuel => (wrapped_split_goes_on fuel 0).1⟩⟩
  · have hrun : (emitBank (smallBank 0 true) [movedFunction]).any
        (fun out => decide ([movedFunction] ∈ out.superblocks)) = true := by decide
    obtain ⟨out, hout, hmem⟩ := exists_of_any hrun
    refine ⟨out, hout, [movedFunction], of_decide_eq_true hmem, fun h => ?_⟩
    exact absurd (h.identity movedFunction List.mem_cons_self) (by decide)
  · have hrow : (emitBank (smallBank 4 false) (twoFunctions "f_chunk_1")).any (fun out =>
        out.rows.any fun row =>
          (out.shards.flatten.filter fun b => b.name == row.fn).length == 2) = true := by
      decide
    obtain ⟨out, hout, hany⟩ := exists_of_any hrow
    obtain ⟨row, hmem, hlen⟩ := List.any_eq_true.mp hany
    exact ⟨out, hout, row, hmem, eq_of_beq hlen⟩

end NdsRecomp.Recompiler
