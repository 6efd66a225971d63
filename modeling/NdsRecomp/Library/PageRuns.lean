import Mathlib.Tactic

/-!
Blocks of memory joined to runs. A sorted list is cut in one pass: a run goes on
while the next block begins one length of the run's first block behind the last
one, and both are the only ones at their addresses. All blocks lie at their
offsets and no run can be continued if and only if blocks that follow one another
are neighbours in the list and those inside of a run are of one length.
-/

namespace NdsRecomp.Library.PageRuns

variable {α : Type}

/-! ### Cutting -/

section Cut

variable (link : α → α → α → Bool)

/-- The open run's further members, and the runs behind it, each with its first
member apart. -/
def cutFrom (first last : α) : List α → List α × List (α × List α)
  | [] => ([], [])
  | y :: ys =>
      if link first last y then
        let r := cutFrom first y ys
        (y :: r.1, r.2)
      else
        let r := cutFrom y y ys
        ([], (y, r.1) :: r.2)

def cut : List α → List (α × List α)
  | [] => []
  | x :: xs =>
      let r := cutFrom link x x xs
      (x, r.1) :: r.2

def members (run : α × List α) : List α := run.1 :: run.2

/-- A run in its place in the list: every step inside is a link of the run, the
step behind it is none. -/
def InPlace (l : List α) (run : α × List α) : Prop :=
  ∃ before after, l = before ++ members run ++ after ∧
    (∀ pre x y post, members run = pre ++ x :: y :: post → link run.1 x y = true) ∧
    ∀ pre x y post, members run = pre ++ [x] → after = y :: post → link run.1 x y = false

theorem cutFrom_flatten (first last : α) (l : List α) :
    (cutFrom link first last l).1 ++ (cutFrom link first last l).2.flatMap members = l := by
  induction l generalizing first last with
  | nil => rfl
  | cons y ys ih =>
      unfold cutFrom
      split
      · exact congrArg (y :: ·) (ih first y)
      · exact congrArg (y :: ·) (ih y y)

/-- The runs put together are the list. -/
theorem cut_flatten (l : List α) : (cut link l).flatMap members = l := by
  cases l with
  | nil => rfl
  | cons x xs => exact congrArg (x :: ·) (cutFrom_flatten link x x xs)

theorem InPlace.shift {l : List α} {run : α × List α} (h : InPlace link l run) (front : List α) :
    InPlace link (front ++ l) run := by
  obtain ⟨before, after, rfl, hinside, hbehind⟩ := h
  exact ⟨front ++ before, after, by simp only [List.append_assoc], hinside, hbehind⟩

/-- The open run's links, the first of them from its last member so far. -/
theorem cutFrom_open (first last : α) (l : List α) :
    ∃ after, l = (cutFrom link first last l).1 ++ after ∧
      (∀ pre x y post, last :: (cutFrom link first last l).1 = pre ++ x :: y :: post →
        link first x y = true) ∧
      ∀ pre x y post, last :: (cutFrom link first last l).1 = pre ++ [x] → after = y :: post →
        link first x y = false := by
  induction l generalizing last with
  | nil =>
      refine ⟨[], rfl, fun pre x y post h => ?_,
        fun _ _ _ _ _ h => (List.cons_ne_nil _ _ h.symm).elim⟩
      have hlength := congrArg List.length h
      simp [cutFrom] at hlength
      omega
  | cons z ys ih =>
      unfold cutFrom
      by_cases hlink : link first last z = true
      · rw [if_pos hlink]
        obtain ⟨after, hsplit, hinside, hbehind⟩ := ih z
        refine ⟨after, congrArg (z :: ·) hsplit, fun pre x y post h => ?_,
          fun pre x y post h hafter => ?_⟩
        · cases pre with
          | nil =>
              obtain ⟨rfl, hrest⟩ := List.cons.inj h
              obtain ⟨rfl, -⟩ := List.cons.inj hrest
              exact hlink
          | cons p pre => exact hinside pre x y post (List.cons.inj h).2
        · cases pre with
          | nil => exact (List.cons_ne_nil _ _ (List.cons.inj h).2).elim
          | cons p pre => exact hbehind pre x y post (List.cons.inj h).2 hafter
      · rw [if_neg hlink]
        refine ⟨z :: ys, rfl, fun pre x y post h => ?_, fun pre x y post h hafter => ?_⟩
        · have hlength := congrArg List.length h
          simp at hlength
          omega
        · cases pre with
          | nil =>
              obtain ⟨rfl, -⟩ := List.cons.inj h
              obtain ⟨rfl, -⟩ := List.cons.inj hafter
              exact Bool.eq_false_iff.mpr hlink
          | cons p pre =>
              have hnil := List.append_eq_nil_iff.mp (List.cons.inj h).2.symm
              exact (List.cons_ne_nil _ _ hnil.2).elim

theorem inPlace_first (x : α) (l : List α) :
    InPlace link (x :: l) (x, (cutFrom link x x l).1) := by
  obtain ⟨after, hsplit, hinside, hbehind⟩ := cutFrom_open link x x l
  exact ⟨[], after, congrArg (x :: ·) hsplit, hinside, hbehind⟩

theorem cutFrom_inPlace (first last : α) (l : List α) {run : α × List α}
    (hrun : run ∈ (cutFrom link first last l).2) : InPlace link l run := by
  induction l generalizing first last with
  | nil => exact (List.not_mem_nil hrun).elim
  | cons y ys ih =>
      unfold cutFrom at hrun
      split at hrun
      · exact (ih first y hrun).shift link [y]
      · rcases List.mem_cons.mp hrun with rfl | htail
        · exact inPlace_first link y ys
        · exact (ih y y htail).shift link [y]

theorem cut_inPlace (l : List α) {run : α × List α} (hrun : run ∈ cut link l) :
    InPlace link l run := by
  cases l with
  | nil => exact (List.not_mem_nil hrun).elim
  | cons x xs =>
      rcases List.mem_cons.mp hrun with rfl | htail
      · exact inPlace_first link x xs
      · exact (cutFrom_inPlace link x x xs htail).shift link [x]

end Cut

/-! ### Blocks -/

section Blocks

variable (addr size : α → Nat) (single : α → Bool)

/-- The step of a run: the stride is the length of its first block. -/
def link (first last y : α) : Bool :=
  single last && decide (addr y = addr last + size first) && single y

/-- The list is in the order of the addresses, and a single block is alone at its own. -/
structure Sorted (l : List α) : Prop where
  order : l.Pairwise fun x y => addr x ≤ addr y
  nodup : l.Nodup
  alone : ∀ x ∈ l, single x = true → ∀ y ∈ l, addr y = addr x → y = x

/-- `y` begins where `x` ends, without a doubt. -/
structure Follows (x y : α) : Prop where
  left : single x = true
  right : single y = true
  ne : y ≠ x
  meets : addr y = addr x + size x

/-- No block of the list begins between the two. -/
def NoneBetween (l : List α) (x y : α) : Prop := ∀ z ∈ l, ¬ (addr x < addr z ∧ addr z < addr y)

structure Regular (l : List α) : Prop where
  next : ∀ x ∈ l, ∀ y ∈ l, Follows addr size single x y → NoneBetween addr l x y
  even : ∀ w ∈ l, ∀ x ∈ l, ∀ y ∈ l, Follows addr size single w x → single y = true → y ≠ x →
    NoneBetween addr l x y → addr y = addr x + size w ∨ addr y = addr x + size x →
    size x = size w

def total (l : List α) : Nat := (l.map size).sum

/-- Every block lies at its offset. -/
def Placed (run : α × List α) : Prop :=
  ∀ before x after, members run = before ++ x :: after → addr x = addr run.1 + total size before

/-- No block outside continues the run, at either end. -/
structure Maximal (l : List α) (run : α × List α) : Prop where
  ends : ∀ before x, members run = before ++ [x] → ∀ y ∈ l, y ∉ members run →
    addr y = addr run.1 + total size (members run) → ¬ (single x = true ∧ single y = true)
  starts : ∀ w ∈ l, w ∉ members run → addr w + size w = addr run.1 →
    ¬ (single w = true ∧ single run.1 = true)

variable {addr size single} {l : List α}

theorem link_iff {first last y : α} : link addr size single first last y = true ↔
    single last = true ∧ addr y = addr last + size first ∧ single y = true := by
  unfold link
  rw [Bool.and_eq_true, Bool.and_eq_true, decide_eq_true_eq, and_assoc]

theorem total_append_singleton (before : List α) (x : α) :
    total size (before ++ [x]) = total size before + size x := by
  simp [total]

theorem Sorted.le_of_before (h : Sorted addr single l) {front back : List α} {x : α}
    (hl : l = front ++ x :: back) {z : α} (hz : z ∈ front) : addr z ≤ addr x := by
  have horder := h.order
  rw [hl] at horder
  exact (List.pairwise_append.mp horder).2.2 z hz x List.mem_cons_self

theorem Sorted.le_of_after (h : Sorted addr single l) {front back : List α} {x : α}
    (hl : l = front ++ x :: back) {z : α} (hz : z ∈ back) : addr x ≤ addr z := by
  have horder := h.order
  rw [hl] at horder
  exact (List.pairwise_cons.mp (List.pairwise_append.mp horder).2.1).1 z hz

theorem Sorted.noneBetween (h : Sorted addr single l) {front back : List α} {x y : α}
    (hl : l = front ++ x :: y :: back) : NoneBetween addr l x y := by
  intro z hz hbetween
  rw [hl] at hz
  rcases List.mem_append.mp hz with hfront | hz
  · have hle := h.le_of_before hl hfront
    omega
  · rcases List.mem_cons.mp hz with rfl | hz
    · omega
    · rcases List.mem_cons.mp hz with rfl | hback
      · omega
      · have hnext : l = (front ++ [x]) ++ y :: back := by rw [hl, List.append_assoc]; rfl
        have hle := h.le_of_after hnext hback
        omega

/-- With nothing between, the block behind is the next one of the list. -/
theorem Sorted.next_of_noneBetween (h : Sorted addr single l) {front back : List α} {x y : α}
    (hl : l = front ++ x :: back) (hy : y ∈ l) (hx : single x = true) (hsingle : single y = true)
    (hlt : addr x < addr y) (hnone : NoneBetween addr l x y) : ∃ rest, back = y :: rest := by
  have hyBack : y ∈ back := by
    rw [hl] at hy
    rcases List.mem_append.mp hy with hfront | hy
    · have hle := h.le_of_before hl hfront
      omega
    · rcases List.mem_cons.mp hy with rfl | hback
      · omega
      · exact hback
  cases hback : back with
  | nil =>
      rw [hback] at hyBack
      exact (List.not_mem_nil hyBack).elim
  | cons z rest =>
      rw [hback] at hyBack hl
      have hxmem : x ∈ l := hl ▸ List.mem_append_right _ List.mem_cons_self
      have hzmem : z ∈ l :=
        hl ▸ List.mem_append_right _ (List.mem_cons_of_mem _ List.mem_cons_self)
      rcases List.mem_cons.mp hyBack with rfl | hrest
      · exact ⟨rest, rfl⟩
      · have hlow := h.le_of_after hl (z := z) List.mem_cons_self
        have hnext : l = (front ++ [x]) ++ z :: rest := by rw [hl, List.append_assoc]; rfl
        have hhigh := h.le_of_after hnext hrest
        by_cases hzx : addr z = addr x
        · have hsame := h.alone x hxmem hx z hzmem hzx
          have hnodup := h.nodup
          rw [hl, hsame] at hnodup
          exact ((List.nodup_cons.mp hnodup.of_append_right).1 List.mem_cons_self).elim
        · by_cases hzy : addr z = addr y
          · exact ⟨rest, by rw [h.alone y hy hsingle z hzmem hzy]⟩
          · exact (hnone z hzmem ⟨by omega, by omega⟩).elim

theorem Sorted.lt_of_follows (h : Sorted addr single l) {x y : α} (hx : x ∈ l) (hy : y ∈ l)
    (hxy : Follows addr size single x y) : addr x < addr y := by
  have hmeets := hxy.meets
  have hne : addr y ≠ addr x := fun heq => hxy.ne (h.alone x hx hxy.left y hy heq)
  omega

theorem Sorted.ne_of_adjacent (h : Sorted addr single l) {front back : List α} {x y : α}
    (hl : l = front ++ x :: y :: back) : y ≠ x := by
  rintro rfl
  have hnodup := h.nodup
  rw [hl] at hnodup
  exact (List.nodup_cons.mp hnodup.of_append_right).1 List.mem_cons_self

/-- The list around a member of a run. -/
theorem split_at {before after pre rest : List α} {run : α × List α} {x : α}
    (hl : l = before ++ members run ++ after) (hmembers : members run = pre ++ x :: rest) :
    l = (before ++ pre) ++ x :: (rest ++ after) := by
  rw [hl, hmembers]
  simp only [List.append_assoc, List.cons_append]

theorem mem_of_inPlace {f : α → α → α → Bool} {run : α × List α} (h : InPlace f l run) {x : α}
    (hx : x ∈ members run) : x ∈ l := by
  obtain ⟨before, after, rfl, -, -⟩ := h
  exact List.mem_append_left _ (List.mem_append_right _ hx)

/-- The neighbours of a run are linked by its first length. -/
theorem follows_of_link (h : Sorted addr single l) {front back : List α} {first x y : α}
    (hl : l = front ++ x :: y :: back) (hlink : link addr size single first x y = true)
    (hsize : size x = size first) : Follows addr size single x y :=
  have hsteps := link_iff.mp hlink
  ⟨hsteps.1, hsteps.2.2, h.ne_of_adjacent hl, hsize ▸ hsteps.2.1⟩

section Sufficient

variable {run : α × List α}

/-- In a regular list only the last block of a run may have another length. -/
theorem size_inside (h : Sorted addr single l) (hreg : Regular addr size single l)
    (hplace : InPlace (link addr size single) l run) {pre post : List α} {x y : α}
    (hmembers : members run = pre ++ x :: y :: post) : size x = size run.1 := by
  obtain ⟨before, after, hl, hinside, -⟩ := hplace
  induction pre using List.reverseRecOn generalizing x y post with
  | nil => rw [(List.cons.inj hmembers).1]
  | append_singleton pre w ih =>
      have hprevious : members run = pre ++ w :: x :: y :: post := by
        rw [hmembers, List.append_assoc, List.singleton_append]
      have hsize := ih hprevious
      have hlw := split_at hl hprevious
      have hlx := split_at hl hmembers
      have hwx := follows_of_link h hlw (hinside _ _ _ _ hprevious) hsize
      have hxy := link_iff.mp (hinside _ _ _ _ hmembers)
      have hw : w ∈ l := hlw ▸ List.mem_append_right _ List.mem_cons_self
      have hx : x ∈ l := hlx ▸ List.mem_append_right _ List.mem_cons_self
      have hy : y ∈ l :=
        hlx ▸ List.mem_append_right _ (List.mem_cons_of_mem _ List.mem_cons_self)
      rw [← hsize]
      refine hreg.even w hw x hx y hy hwx hxy.2.2 (h.ne_of_adjacent hlx) (h.noneBetween hlx) ?_
      exact .inl (hsize ▸ hxy.2.1)

theorem placed_of_regular (h : Sorted addr single l) (hreg : Regular addr size single l)
    (hplace : InPlace (link addr size single) l run) : Placed addr size run := by
  intro pre x post hmembers
  induction pre using List.reverseRecOn generalizing x post with
  | nil =>
      rw [← (List.cons.inj hmembers).1]
      rfl
  | append_singleton pre w ih =>
      have hprevious : members run = pre ++ w :: x :: post := by
        rw [hmembers, List.append_assoc, List.singleton_append]
      have hsize := size_inside h hreg hplace hprevious
      have haddr := ih w (x :: post) hprevious
      obtain ⟨-, -, -, hinside, -⟩ := hplace
      have hstep := (link_iff.mp (hinside _ _ _ _ hprevious)).2.1
      rw [total_append_singleton]
      omega

theorem ends_of_regular (h : Sorted addr single l) (hreg : Regular addr size single l)
    (hplace : InPlace (link addr size single) l run) {pre : List α} {x y : α}
    (hmembers : members run = pre ++ [x]) (hy : y ∈ l) (hout : y ∉ members run)
    (hmeets : addr y = addr run.1 + total size (members run)) :
    ¬ (single x = true ∧ single y = true) := by
  rintro ⟨hx, hsingle⟩
  have haddr := placed_of_regular h hreg hplace pre x [] hmembers
  rw [hmembers, total_append_singleton] at hmeets
  have hxRun : x ∈ members run := hmembers ▸ List.mem_append_right _ List.mem_cons_self
  have hxmem : x ∈ l := mem_of_inPlace hplace hxRun
  have hxy : Follows addr size single x y :=
    ⟨hx, hsingle, fun heq => hout (heq ▸ hxRun), by omega⟩
  have hnone := hreg.next x hxmem y hy hxy
  have hsize : size x = size run.1 := by
    induction pre using List.reverseRecOn with
    | nil => rw [(List.cons.inj hmembers).1]
    | append_singleton pre w _ =>
        have hprevious : members run = pre ++ w :: [x] := by
          rw [hmembers, List.append_assoc, List.singleton_append]
        have hsize := size_inside h hreg hplace hprevious
        have hw : w ∈ l :=
          mem_of_inPlace hplace (hprevious ▸ List.mem_append_right _ List.mem_cons_self)
        obtain ⟨before, after, hl, hinside, -⟩ := hplace
        have hwx := follows_of_link h (split_at hl hprevious) (hinside _ _ _ _ hprevious) hsize
        rw [← hsize]
        exact hreg.even w hw x hxmem y hy hwx hsingle hxy.ne hnone (.inr hxy.meets)
  obtain ⟨before, after, hl, -, hbehind⟩ := hplace
  have hsplit := split_at hl hmembers
  obtain ⟨rest, hrest⟩ :=
    h.next_of_noneBetween hsplit hy hx hsingle (h.lt_of_follows hxmem hy hxy) hnone
  have hnot := hbehind pre x y rest hmembers hrest
  rw [link_iff.mpr ⟨hx, hsize ▸ hxy.meets, hsingle⟩] at hnot
  exact Bool.noConfusion hnot

end Sufficient

/-! ### All runs -/

theorem exists_run (addr size : α → Nat) (single : α → Bool) {x : α} (hx : x ∈ l) :
    ∃ run ∈ cut (link addr size single) l, ∃ pre post, members run = pre ++ x :: post := by
  rw [← cut_flatten (link addr size single) l] at hx
  obtain ⟨run, hrun, hmem⟩ := List.mem_flatMap.mp hx
  obtain ⟨pre, post, hmembers⟩ := List.append_of_mem hmem
  exact ⟨run, hrun, pre, post, hmembers⟩

/-- A block is in one run only. -/
theorem Sorted.run_unique (h : Sorted addr single l) {run run' : α × List α}
    (hrun : run ∈ cut (link addr size single) l) (hrun' : run' ∈ cut (link addr size single) l)
    {x : α} (hx : x ∈ members run) (hx' : x ∈ members run') : run = run' := by
  have hnodup := h.nodup
  rw [← cut_flatten (link addr size single) l] at hnodup
  by_contra hne
  have : Std.Symm (Function.onFun List.Disjoint (members (α := α))) :=
    ⟨fun _ _ hdisjoint => hdisjoint.symm⟩
  exact (List.nodup_flatMap.mp hnodup).2.forall hrun hrun' hne hx hx'

theorem starts_of_regular (h : Sorted addr single l) (hreg : Regular addr size single l)
    {run : α × List α} (hrun : run ∈ cut (link addr size single) l) {w : α} (hw : w ∈ l)
    (hout : w ∉ members run) (hmeets : addr w + size w = addr run.1) :
    ¬ (single w = true ∧ single run.1 = true) := by
  rintro ⟨hsingle, hfirst⟩
  have hfirstRun : run.1 ∈ members run := List.mem_cons_self
  have hfirstMem : run.1 ∈ l := mem_of_inPlace (cut_inPlace _ l hrun) hfirstRun
  obtain ⟨run', hrun', pre, post, hmembers⟩ := exists_run addr size single hw
  have hwRun : w ∈ members run' := hmembers ▸ List.mem_append_right _ List.mem_cons_self
  -- the run of `w` is another one, so it does not have the first block
  have hfirstOut : run.1 ∉ members run' := fun hmem =>
    hout (h.run_unique hrun hrun' hfirstRun hmem ▸ hwRun)
  have hplace := cut_inPlace _ l hrun'
  cases post with
  | nil =>
      have haddr := placed_of_regular h hreg hplace pre w [] hmembers
      refine ends_of_regular h hreg hplace hmembers hfirstMem hfirstOut ?_ ⟨hsingle, hfirst⟩
      rw [hmembers, total_append_singleton]
      omega
  | cons x post =>
      have hwFirst : Follows addr size single w run.1 :=
        ⟨hsingle, hfirst, fun heq => hout (heq ▸ hfirstRun), hmeets.symm⟩
      obtain ⟨before, after, hl, -, -⟩ := hplace
      obtain ⟨rest, hrest⟩ := h.next_of_noneBetween (split_at hl hmembers) hfirstMem hsingle hfirst
        (h.lt_of_follows hw hfirstMem hwFirst) (hreg.next w hw _ hfirstMem hwFirst)
      refine hfirstOut ?_
      rw [hmembers, ← (List.cons.inj hrest).1]
      exact List.mem_append_right _ (List.mem_cons_of_mem _ List.mem_cons_self)

section Necessary

variable (hexact : ∀ run ∈ cut (link addr size single) l,
  Placed addr size run ∧ Maximal addr size single l run)

include hexact

/-- Where all runs are exact, blocks that follow one another are neighbours in one. -/
theorem neighbours_of_follows (h : Sorted addr single l) {x y : α} (hx : x ∈ l) (hy : y ∈ l)
    (hxy : Follows addr size single x y) :
    ∃ run ∈ cut (link addr size single) l, ∃ pre post, members run = pre ++ x :: y :: post := by
  obtain ⟨run, hrun, pre, post, hmembers⟩ := exists_run addr size single hx
  obtain ⟨hplaced, hmaximal⟩ := hexact run hrun
  have haddr := hplaced pre x post hmembers
  have hmeets := hxy.meets
  have hlt := h.lt_of_follows hx hy hxy
  have hplace := cut_inPlace _ l hrun
  cases post with
  | nil =>
      refine (hmaximal.ends pre x hmembers y hy (fun hmem => ?_) ?_ ⟨hxy.left, hxy.right⟩).elim
      · obtain ⟨before, after, hl, -, -⟩ := hplace
        have hsplit := split_at hl hmembers
        rw [hmembers] at hmem
        rcases List.mem_append.mp hmem with hpre | hlast
        · have hle := h.le_of_before hsplit (List.mem_append_right _ hpre)
          omega
        · exact hxy.ne (List.mem_singleton.mp hlast)
      · rw [hmembers, total_append_singleton]
        omega
  | cons z post =>
      have hnext : members run = (pre ++ [x]) ++ z :: post := by
        rw [hmembers, List.append_assoc, List.singleton_append]
      have haddrNext := hplaced _ z post hnext
      rw [total_append_singleton] at haddrNext
      have hz : z ∈ l :=
        mem_of_inPlace hplace (hnext ▸ List.mem_append_right _ List.mem_cons_self)
      have hsame : z = y := h.alone y hy hxy.right z hz (by omega)
      exact ⟨run, hrun, pre, post, hsame ▸ hmembers⟩

theorem regular_of_exact (h : Sorted addr single l) : Regular addr size single l where
  next := fun x hx y hy hxy => by
    obtain ⟨run, hrun, pre, post, hmembers⟩ := neighbours_of_follows hexact h hx hy hxy
    obtain ⟨before, after, hl, -, -⟩ := cut_inPlace _ l hrun
    exact h.noneBetween (split_at hl hmembers)
  even := fun w hw x hx y hy hwx hsingle hne hnone hmeets => by
    obtain ⟨run, hrun, pre, post, hmembers⟩ := neighbours_of_follows hexact h hw hx hwx
    obtain ⟨hplaced, hmaximal⟩ := hexact run hrun
    have hplace := cut_inPlace _ l hrun
    obtain ⟨before, after, hl, hinside, hbehind⟩ := hplace
    -- the stride of the run is the length of `w`
    have hstride := (link_iff.mp (hinside _ _ _ _ hmembers)).2.1
    have hwAddr := hwx.meets
    have hlast : members run = (pre ++ [w]) ++ x :: post := by
      rw [hmembers, List.append_assoc, List.singleton_append]
    have haddr := hplaced _ x post hlast
    cases post with
    | cons z post =>
        have hstep := (link_iff.mp (hinside _ _ _ _ hlast)).2.1
        have hnext : members run = ((pre ++ [w]) ++ [x]) ++ z :: post := by
          rw [hmembers]
          simp
        have haddrNext := hplaced _ z post hnext
        rw [total_append_singleton] at haddrNext
        omega
    | nil =>
        have hsplit := split_at hl hlast
        rcases hmeets with hmeets | hmeets
        · -- one stride behind, the run would have gone on
          have hne' : addr y ≠ addr x := fun heq => hne (h.alone x hx hwx.right y hy heq)
          obtain ⟨rest, hrest⟩ :=
            h.next_of_noneBetween hsplit hy hwx.right hsingle (by omega) hnone
          have hnot := hbehind _ x y rest hlast hrest
          rw [link_iff.mpr ⟨hwx.right, by omega, hsingle⟩] at hnot
          exact Bool.noConfusion hnot
        · -- at the end of the run, it could be continued
          have hxy : Follows addr size single x y := ⟨hwx.right, hsingle, hne, hmeets⟩
          have hlt := h.lt_of_follows hx hy hxy
          refine (hmaximal.ends _ x hlast y hy (fun hmem => ?_) ?_ ⟨hwx.right, hsingle⟩).elim
          · rw [hlast] at hmem
            rcases List.mem_append.mp hmem with hpre | hlast
            · have hle := h.le_of_before hsplit (List.mem_append_right _ hpre)
              omega
            · exact hne (List.mem_singleton.mp hlast)
          · rw [hlast, total_append_singleton]
            omega

end Necessary

/-- The runs of a list are exact if and only if the list is regular. -/
theorem runs_exact_iff (h : Sorted addr single l) :
    (∀ run ∈ cut (link addr size single) l,
      Placed addr size run ∧ Maximal addr size single l run) ↔ Regular addr size single l := by
  refine ⟨fun hexact => regular_of_exact hexact h, fun hreg run hrun => ?_⟩
  have hplace := cut_inPlace _ l hrun
  exact ⟨placed_of_regular h hreg hplace,
    fun pre x hmembers y hy hout hmeets => ends_of_regular h hreg hplace hmembers hy hout hmeets,
    fun w hw hout hmeets => starts_of_regular h hreg hrun hw hout hmeets⟩

end Blocks

end NdsRecomp.Library.PageRuns
