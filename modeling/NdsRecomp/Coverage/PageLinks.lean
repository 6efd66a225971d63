import Mathlib
import NdsRecomp.Coverage.PageStore

/-!
How the indices of the page store stay in step with the pages: what one
capture can do, and that each of its outcomes keeps the links.
-/

namespace NdsRecomp.CoverageManifest

open Bus

variable {Digest : Type}

def PageKey.address (key : PageKey Digest) : PageAddress := (key.cpu, key.addr)

namespace CoverageStore

/-- The pages without what is recorded on them. -/
def contents (s : CoverageStore Digest) : List (PageKey Digest × List UInt8) :=
  s.pages.map fun page => (page.key, page.bytes)

/-- The content index names exactly the stored pages, each under its key, and
so do the address lists; both bounds hold. -/
structure PagesLinked (sha1 : List UInt8 → Digest) (s : CoverageStore Digest) : Prop where
  indexed : ∀ key i, s.pageIndex key = some i ↔ ∃ bytes, s.contents[i]? = some (key, bytes)
  listed : ∀ a i, i ∈ s.pagesByAddr a ↔ ∃ c, s.contents[i]? = some c ∧ c.1.address = a
  nodup : ∀ a, (s.pagesByAddr a).Nodup
  digest : ∀ (i : Nat) c, s.contents[i]? = some c → c.1.digest = sha1 c.2
  versions : ∀ a, (s.pagesByAddr a).length ≤ kMaxVersionsPerAddress
  captured : s.captured = s.contents.length
  capacity : s.contents.length ≤ kMaxPages

variable {sha1 : List UInt8 → Digest} {s s' : CoverageStore Digest}

/-- The links see only the contents and the two indices. -/
theorem PagesLinked.congr (h : s.PagesLinked sha1) (hcontents : s'.contents = s.contents)
    (hindex : s'.pageIndex = s.pageIndex) (haddr : s'.pagesByAddr = s.pagesByAddr)
    (hcaptured : s'.captured = s.captured) : s'.PagesLinked sha1 := by
  obtain ⟨indexed, listed, nodup, digest, versions, captured, capacity⟩ := h
  constructor <;> simp only [hcontents, hindex, haddr, hcaptured] <;> assumption

theorem pagesLinked_empty (hpages : s.pages = []) (hindex : s.pageIndex = fun _ => none)
    (haddr : s.pagesByAddr = fun _ => []) (hcaptured : s.captured = 0) : s.PagesLinked sha1 := by
  have hcontents : s.contents = [] := by
    unfold contents
    rw [hpages, List.map_nil]
  constructor <;> simp [hcontents, hindex, haddr, hcaptured]

theorem contents_length (s : CoverageStore Digest) : s.contents.length = s.pages.length :=
  List.length_map _

theorem contents_getElem? (s : CoverageStore Digest) (i : Nat) :
    s.contents[i]? = s.pages[i]?.map fun page => (page.key, page.bytes) := List.getElem?_map

/-- A change that leaves a page its key and bytes. -/
def KeepsContent (f : StoredPage Digest → StoredPage Digest) : Prop :=
  ∀ page, (f page).key = page.key ∧ (f page).bytes = page.bytes

theorem touchPage_contents (s : CoverageStore Digest) (i : Nat)
    {f : StoredPage Digest → StoredPage Digest} (hf : KeepsContent f) :
    (s.touchPage i f).contents = s.contents := by
  apply List.ext_getElem?
  intro j
  rw [contents_getElem?, contents_getElem?]
  unfold touchPage
  rw [List.getElem?_modify]
  cases s.pages[j]? with
  | none => rfl
  | some page =>
      by_cases hij : i = j
      · obtain ⟨hkey, hbytes⟩ := hf page
        simp only [hij, if_true, Option.map_some, Option.map_eq_map]
        exact congrArg some (Prod.ext hkey hbytes)
      · simp [hij]

theorem PagesLinked.touchPage (h : s.PagesLinked sha1) (i : Nat)
    {f : StoredPage Digest → StoredPage Digest} (hf : KeepsContent f) :
    (s.touchPage i f).PagesLinked sha1 :=
  h.congr (touchPage_contents s i hf) rfl rfl rfl

theorem PagesLinked.setCache (h : s.PagesLinked sha1) (cpu : NdsCpu) (cache : CoverageExecCache) :
    (s.setCache cpu cache).PagesLinked sha1 := h.congr rfl rfl rfl rfl

theorem PagesLinked.setStored (h : s.PagesLinked sha1) (cpu : NdsCpu) (i : Nat) :
    (s.setStored cpu i).PagesLinked sha1 := h.congr rfl rfl rfl rfl

theorem PagesLinked.resolveTo (h : s.PagesLinked sha1) (cpu : NdsCpu) (i : Nat) :
    (s.resolveTo cpu i).PagesLinked sha1 :=
  have hf : KeepsContent fun page : StoredPage Digest =>
      { page with executions := page.executions + 1 } := fun _ => ⟨rfl, rfl⟩
  h.congr (touchPage_contents s i hf) rfl rfl rfl

/-- Two keys of one address differ in their content only. -/
theorem PagesLinked.unique (h : s.PagesLinked sha1) {key : PageKey Digest} {i j : Nat}
    {b b' : List UInt8} (hi : s.contents[i]? = some (key, b))
    (hj : s.contents[j]? = some (key, b')) : i = j :=
  Option.some.inj (((h.indexed key i).mpr ⟨b, hi⟩).symm.trans ((h.indexed key j).mpr ⟨b', hj⟩))

/-- The cache names the page, and no stored version of it yet. -/
def openedCache (base : UInt32) (view : PageView) : CoverageExecCache where
  base := base
  generation := view.generation
  epoch := view.epoch
  valid := true

def opened (s : CoverageStore Digest) (cpu : NdsCpu) (base : UInt32) (view : PageView) :
    CoverageStore Digest := s.setCache cpu (openedCache base view)

/-- Once a version is found or stored, the cache names that too. -/
theorem setStored_cache {cpu : NdsCpu} {base : UInt32} {view : PageView}
    (h : s'.cache = (s.opened cpu base view).cache) (i : Nat) :
    (s'.setStored cpu i).cache =
      Function.update s.cache cpu { openedCache base view with storedIndex := some i } := by
  have hown : s'.cache cpu = openedCache base view := by
    rw [h]
    exact Function.update_self _ _ _
  unfold setStored setCache
  rw [hown, h]
  exact Function.update_idem _ _ _

theorem PagesLinked.opened (h : s.PagesLinked sha1) (cpu : NdsCpu) (base : UInt32)
    (view : PageView) : (s.opened cpu base view).PagesLinked sha1 := h.congr rfl rfl rfl rfl

theorem oldestVersion_mem {indices : List Nat} {i : Nat}
    (h : s.oldestVersion indices = some i) : i ∈ indices := by
  unfold oldestVersion at h
  dsimp only at h
  induction indices using List.reverseRecOn generalizing i with
  | nil => cases h
  | append_singleton indices next ih =>
      rw [List.foldl_append, List.foldl_cons, List.foldl_nil] at h
      split at h
      · obtain rfl := Option.some.inj h
        simp
      · next oldest holdest =>
          split at h
          · obtain rfl := Option.some.inj h
            simp
          · obtain rfl := Option.some.inj h
            simp [ih holdest]

theorem oldestVersion_ne_none {indices : List Nat} (h : indices ≠ []) :
    s.oldestVersion indices ≠ none := by
  unfold oldestVersion
  dsimp only
  induction indices using List.reverseRecOn with
  | nil => exact absurd rfl h
  | append_singleton indices next _ =>
      rw [List.foldl_append, List.foldl_cons, List.foldl_nil]
      split
      · simp
      · split <;> simp

/-- A stored version with the resident bytes has the resident content's key. -/
theorem PagesLinked.storedVersion_key (h : s.PagesLinked sha1) {cpu : NdsCpu} {base : UInt32}
    {view : PageView} {i : Nat} (hi : s.storedVersion (cpu, base) view.bytes = some i) :
    s.pageIndex (keyOf sha1 cpu base view) = some i := by
  unfold storedVersion at hi
  have hlisted := (h.listed _ i).mp (List.mem_of_find?_eq_some hi)
  have hbytes := List.find?_some hi
  obtain ⟨c, hc, haddress⟩ := hlisted
  rw [contents_getElem?] at hc
  obtain ⟨page, hpage, rfl⟩ := Option.map_eq_some_iff.mp hc
  rw [hpage, Option.any_some, beq_iff_eq] at hbytes
  have hdigest := h.digest i (page.key, page.bytes) (by rw [contents_getElem?, hpage]; rfl)
  rw [h.indexed]
  refine ⟨page.bytes, ?_⟩
  rw [contents_getElem?, hpage, Option.map_some]
  have hkey : page.key = keyOf sha1 cpu base view := by
    unfold PageKey.address at haddress
    obtain ⟨hcpu, haddr⟩ := Prod.mk.inj haddress
    dsimp only at hcpu haddr hdigest
    cases hk : page.key with
    | mk addr cpu' digest =>
        rw [hk] at hcpu haddr hdigest
        subst hcpu haddr hdigest
        rw [hbytes]
        rfl
  rw [hkey]

/-- A current cache is valid and names the page's base. -/
theorem current_named {cache : CoverageExecCache} {base generation : UInt32}
    (h : cache.current base generation = true) : cache.valid = true ∧ cache.base = base := by
  unfold CoverageExecCache.current at h
  rw [Bool.and_eq_true, Bool.and_eq_true, beq_iff_eq] at h
  exact h.1

/-- A flush leaves the store or starts a new part. -/
theorem flushPart_cases (s : CoverageStore Digest) (writeOk : Bool) :
    (s.flushPart writeOk).1 = s ∨ (s.flushPart writeOk).1 = s.startPart := by
  unfold flushPart
  split
  · exact Or.inl rfl
  split
  · exact Or.inl rfl
  split
  · exact Or.inl rfl
  · exact Or.inr rfl

theorem flushPart_of_nonempty (h : s.pages ≠ []) (writeOk : Bool) :
    s.flushPart writeOk =
      if s.outBase = "" ∨ writeOk = false then (s, false) else (s.startPart, true) := by
  have hpages : ¬ (s.pages.isEmpty = true ∧ 0 < s.partIndex) := fun hempty =>
    h (List.isEmpty_iff.mp hempty.1)
  unfold flushPart
  rw [if_neg hpages]
  by_cases houtput : s.outBase = ""
  · rw [if_pos houtput, if_pos (Or.inl houtput)]
  · rw [if_neg houtput]
    cases writeOk <;> simp [houtput]

variable [DecidableEq Digest]

theorem pushPage_contents (s : CoverageStore Digest) (key : PageKey Digest) (bytes : List UInt8) :
    (s.pushPage key bytes).contents = s.contents ++ [(key, bytes)] := by
  unfold contents pushPage setStored setCache
  rw [List.map_append]
  rfl

theorem pushPage_pageIndex (s : CoverageStore Digest) (key : PageKey Digest) (bytes : List UInt8)
    (k : PageKey Digest) : (s.pushPage key bytes).pageIndex k =
      if k = key then some s.pages.length else s.pageIndex k := by
  have hfunction : (s.pushPage key bytes).pageIndex =
      Function.update s.pageIndex key (some s.pages.length) := rfl
  rw [hfunction, Function.update_apply]

/-- A list with one more element, read at an index. -/
theorem getElem?_concat_eq_some {α : Type*} {l : List α} {a c : α} {i : Nat} :
    (l ++ [a])[i]? = some c ↔ l[i]? = some c ∨ (i = l.length ∧ c = a) := by
  rw [List.getElem?_append]
  by_cases hi : i < l.length
  · simp [hi, Nat.ne_of_lt hi]
  · by_cases heq : i = l.length
    · simp [heq, eq_comm]
    · have hbeyond : i - l.length ≠ 0 := by omega
      simp [hi, heq, hbeyond]

theorem PagesLinked.pushPage (h : s.PagesLinked sha1) {key : PageKey Digest} {bytes : List UInt8}
    (hnew : s.pageIndex key = none) (hdigest : key.digest = sha1 bytes)
    (hversions : (s.pagesByAddr key.address).length < kMaxVersionsPerAddress)
    (hcapacity : s.captured < kMaxPages) : (s.pushPage key bytes).PagesLinked sha1 := by
  have hcontents := pushPage_contents s key bytes
  have hlength : s.pages.length = s.contents.length := (contents_length s).symm
  have haddr : (s.pushPage key bytes).pagesByAddr = Function.update s.pagesByAddr key.address
      (s.pagesByAddr key.address ++ [s.contents.length]) := by
    rw [← hlength]
    rfl
  constructor
  · intro k i
    rw [pushPage_pageIndex, hcontents, hlength]
    simp only [getElem?_concat_eq_some, Prod.mk.injEq]
    by_cases hk : k = key
    · subst hk
      have hold (bytes : List UInt8) : s.contents[i]? ≠ some (k, bytes) := fun hc => by
        have := (h.indexed k i).mpr ⟨bytes, hc⟩
        rw [hnew] at this
        cases this
      simp [hold, eq_comm]
    · rw [if_neg hk, h.indexed]
      simp [hk]
  · intro a i
    rw [haddr, hcontents]
    simp only [getElem?_concat_eq_some]
    by_cases ha : a = key.address
    · subst ha
      rw [Function.update_self, List.mem_append, h.listed, List.mem_singleton]
      constructor
      · rintro (⟨c, hc, hca⟩ | rfl)
        · exact ⟨c, Or.inl hc, hca⟩
        · exact ⟨(key, bytes), Or.inr ⟨rfl, rfl⟩, rfl⟩
      · rintro ⟨c, hc | ⟨rfl, rfl⟩, hca⟩
        · exact Or.inl ⟨c, hc, hca⟩
        · exact Or.inr rfl
    · rw [Function.update_of_ne ha, h.listed]
      constructor
      · rintro ⟨c, hc, hca⟩
        exact ⟨c, Or.inl hc, hca⟩
      · rintro ⟨c, hc | ⟨rfl, rfl⟩, hca⟩
        · exact ⟨c, hc, hca⟩
        · exact absurd hca.symm ha
  · intro a
    rw [haddr]
    by_cases ha : a = key.address
    · subst ha
      rw [Function.update_self, List.nodup_append]
      refine ⟨h.nodup _, List.nodup_singleton _, fun i hi j hj hij => ?_⟩
      obtain ⟨c, hc, -⟩ := (h.listed _ i).mp hi
      have hlt := (List.getElem?_eq_some_iff.mp hc).1
      rw [List.mem_singleton] at hj
      omega
    · rw [Function.update_of_ne ha]
      exact h.nodup a
  · intro i c hc
    rw [hcontents, getElem?_concat_eq_some] at hc
    rcases hc with hc | ⟨-, rfl⟩
    · exact h.digest i c hc
    · exact hdigest
  · intro a
    rw [haddr]
    by_cases ha : a = key.address
    · subst ha
      rw [Function.update_self, List.length_append, List.length_singleton]
      exact hversions
    · rw [Function.update_of_ne ha]
      exact h.versions a
  · rw [hcontents, List.length_append, List.length_singleton]
    exact congrArg (· + 1) h.captured
  · rw [hcontents, List.length_append, List.length_singleton, ← h.captured]
    exact hcapacity

theorem replacePage_contents (s : CoverageStore Digest) (i : Nat) (key : PageKey Digest)
    (bytes : List UInt8) :
    (s.replacePage i key bytes).contents = s.contents.set i (key, bytes) := by
  unfold contents replacePage setStored setCache
  rw [List.map_set]
  rfl

theorem replacePage_pageIndex (s : CoverageStore Digest) (i : Nat) (key : PageKey Digest)
    (bytes : List UInt8) (k : PageKey Digest) : (s.replacePage i key bytes).pageIndex k =
      if k = key then some i else if s.pageIndex k = some i then none else s.pageIndex k := by
  have hfunction : (s.replacePage i key bytes).pageIndex = Function.update
      (fun k => if s.pageIndex k = some i then none else s.pageIndex k) key (some i) := rfl
  rw [hfunction, Function.update_apply]

theorem PagesLinked.replacePage (h : s.PagesLinked sha1) {key : PageKey Digest}
    {bytes : List UInt8} {i : Nat} (hnew : s.pageIndex key = none)
    (hdigest : key.digest = sha1 bytes) (hi : i ∈ s.pagesByAddr key.address) :
    (s.replacePage i key bytes).PagesLinked sha1 := by
  have hcontents := replacePage_contents s i key bytes
  obtain ⟨old, hold, haddress⟩ := (h.listed _ i).mp hi
  have hlt := (List.getElem?_eq_some_iff.mp hold).1
  have hat (j : Nat) : (s.contents.set i (key, bytes))[j]? =
      if i = j then some (key, bytes) else s.contents[j]? := by
    rw [List.getElem?_set, if_pos hlt]
  have haddr : (s.replacePage i key bytes).pagesByAddr = s.pagesByAddr := rfl
  have hcaptured : (s.replacePage i key bytes).captured = s.captured := rfl
  constructor
  · intro k j
    rw [replacePage_pageIndex, hcontents]
    simp only [hat]
    by_cases hk : k = key
    · subst hk
      rw [if_pos rfl]
      by_cases hij : i = j
      · simp [hij]
      · have hnone (b : List UInt8) : s.contents[j]? ≠ some (k, b) := fun hc => by
          have := (h.indexed k j).mpr ⟨b, hc⟩
          rw [hnew] at this
          cases this
        simp [hij, hnone]
    · rw [if_neg hk]
      by_cases hij : i = j
      · subst hij
        have hkey (b : List UInt8) : (key, bytes) ≠ (k, b) := fun heq => hk (congrArg Prod.fst heq).symm
        simp [hkey]
      · simp only [hij, if_false]
        split
        · next hki =>
            constructor
            · intro hfalse
              cases hfalse
            · intro hj
              have hkj := (h.indexed k j).mpr hj
              rw [hki] at hkj
              exact absurd (Option.some.inj hkj) hij
        · exact h.indexed k j
  · intro a j
    rw [haddr, hcontents, h.listed]
    simp only [hat]
    by_cases hij : i = j
    · subst hij
      simp only [if_true, hold, Option.some.injEq, exists_eq_left']
      rw [haddress]
    · simp [hij]
  · rw [haddr]
    exact h.nodup
  · intro j c hc
    rw [hcontents, hat] at hc
    split at hc
    · obtain rfl := Option.some.inj hc
      exact hdigest
    · exact h.digest j c hc
  · rw [haddr]
    exact h.versions
  · rw [hcontents, hcaptured, List.length_set]
    exact h.captured
  · rw [hcontents, List.length_set]
    exact h.capacity

/-! ### What a capture can do -/

/-- A new content meets a full store whose part can be written. -/
structure Rotates (sha1 : List UInt8 → Digest) (s : CoverageStore Digest) (cpu : NdsCpu)
    (base : UInt32) (view : PageView) : Prop where
  stale : (s.cache cpu).current base view.generation = false
  writable : view.writable = true
  fresh : s.storedVersion (cpu, base) view.bytes = none
  unknown : s.pageIndex (keyOf sha1 cpu base view) = none
  versions : (s.pagesByAddr (cpu, base)).length < kMaxVersionsPerAddress
  full : kMaxPages ≤ s.captured
  output : s.outBase ≠ ""
  writes : view.writeOk = true

inductive CaptureOutcome (sha1 : List UInt8 → Digest) (s : CoverageStore Digest) (cpu : NdsCpu)
    (base : UInt32) (view : PageView) : CoverageStore Digest → Prop where
  | current (h : (s.cache cpu).current base view.generation = true) :
      CaptureOutcome sha1 s cpu base view
        ({ s with revisits := s.revisits + 1 }.setCache cpu
          { s.cache cpu with epoch := view.epoch })
  | unwritable (h : (s.cache cpu).current base view.generation = false)
      (hwritable : view.writable = false) :
      CaptureOutcome sha1 s cpu base view (s.opened cpu base view)
  | resolved (i : Nat) (h : (s.cache cpu).current base view.generation = false)
      (hwritable : view.writable = true)
      (hi : s.pageIndex (keyOf sha1 cpu base view) = some i) :
      CaptureOutcome sha1 s cpu base view ((s.opened cpu base view).resolveTo cpu i)
  | dropped (h : (s.cache cpu).current base view.generation = false)
      (hwritable : view.writable = true)
      (hnew : s.pageIndex (keyOf sha1 cpu base view) = none)
      (hfull : kMaxPages ≤ s.captured) (hnot : ¬ s.Rotates sha1 cpu base view) :
      CaptureOutcome sha1 s cpu base view (s.opened cpu base view).drop
  | replaced (i : Nat) (h : (s.cache cpu).current base view.generation = false)
      (hwritable : view.writable = true)
      (hnew : s.pageIndex (keyOf sha1 cpu base view) = none)
      (hversions : kMaxVersionsPerAddress ≤ (s.pagesByAddr (cpu, base)).length)
      (hi : i ∈ s.pagesByAddr (cpu, base)) :
      CaptureOutcome sha1 s cpu base view
        ((s.opened cpu base view).replacePage i (keyOf sha1 cpu base view) view.bytes)
  | pushed (h : (s.cache cpu).current base view.generation = false)
      (hwritable : view.writable = true)
      (hnew : s.pageIndex (keyOf sha1 cpu base view) = none)
      (hversions : (s.pagesByAddr (cpu, base)).length < kMaxVersionsPerAddress)
      (hcapacity : s.captured < kMaxPages) :
      CaptureOutcome sha1 s cpu base view
        ((s.opened cpu base view).pushPage (keyOf sha1 cpu base view) view.bytes)
  | rotated (h : s.Rotates sha1 cpu base view) :
      CaptureOutcome sha1 s cpu base view
        ((s.opened cpu base view).startPart.pushPage (keyOf sha1 cpu base view) view.bytes)

/-- One call of `coverage_capture_exec_page`. -/
theorem captureExecPage_outcome (h : s.PagesLinked sha1) (cpu : NdsCpu) (base : UInt32)
    (view : PageView) :
    CaptureOutcome sha1 s cpu base view (s.captureExecPage sha1 cpu base view) := by
  unfold captureExecPage
  split
  · next hcurrent => exact .current hcurrent
  next hstale =>
  rw [Bool.not_eq_true] at hstale
  dsimp only
  split
  · next hwritable => exact .unwritable hstale hwritable
  next hwritable =>
  rw [Bool.not_eq_false] at hwritable
  have hopened : s.setCache cpu
      { base := base, generation := view.generation, epoch := view.epoch, valid := true } =
      s.opened cpu base view := rfl
  have hstored : (s.opened cpu base view).storedVersion (cpu, base) view.bytes =
      s.storedVersion (cpu, base) view.bytes := rfl
  have hlisted : (s.opened cpu base view).pageIndex (keyOf sha1 cpu base view) =
      s.pageIndex (keyOf sha1 cpu base view) := rfl
  rw [hopened, hstored, hlisted]
  cases hversion : s.storedVersion (cpu, base) view.bytes with
  | some i => exact .resolved i hstale hwritable (h.storedVersion_key hversion)
  | none =>
      cases hindex : s.pageIndex (keyOf sha1 cpu base view) with
      | some i => exact .resolved i hstale hwritable hindex
      | none =>
          dsimp only
          unfold storeNew
          split
          · next hversions =>
              have hversions : kMaxVersionsPerAddress ≤ (s.pagesByAddr (cpu, base)).length :=
                hversions
              split
              · next hnone =>
                  refine absurd hnone (oldestVersion_ne_none fun hempty => ?_)
                  have hempty : s.pagesByAddr (cpu, base) = [] := hempty
                  rw [hempty] at hversions
                  exact absurd hversions (by decide)
              · next i hi =>
                  exact .replaced i hstale hwritable hindex hversions (oldestVersion_mem hi)
          next hversions =>
          have hversions : (s.pagesByAddr (cpu, base)).length < kMaxVersionsPerAddress :=
            Nat.lt_of_not_le hversions
          split
          · next hfull =>
              have hfull : kMaxPages ≤ s.captured := hfull
              have hpages : (s.opened cpu base view).pages ≠ [] := by
                intro hempty
                have hnil : s.pages = [] := hempty
                have hcaptured := h.captured
                rw [contents_length, hnil, List.length_nil] at hcaptured
                rw [hcaptured] at hfull
                exact absurd hfull (by decide)
              rw [flushPart_of_nonempty hpages]
              by_cases hwrites : s.outBase = "" ∨ view.writeOk = false
              · have hwrites' : (s.opened cpu base view).outBase = "" ∨ view.writeOk = false := hwrites
                rw [if_pos hwrites']
                refine .dropped hstale hwritable hindex hfull fun hrotates => ?_
                rcases hwrites with houtput | hwrite
                · exact hrotates.output houtput
                · rw [hrotates.writes] at hwrite
                  cases hwrite
              · have hwrites' : ¬ ((s.opened cpu base view).outBase = "" ∨ view.writeOk = false) :=
                  hwrites
                rw [if_neg hwrites']
                rw [not_or, Bool.not_eq_false] at hwrites
                exact .rotated ⟨hstale, hwritable, hversion, hindex, hversions, hfull, hwrites.1,
                  hwrites.2⟩
          · next hroom =>
              exact .pushed hstale hwritable hindex hversions (Nat.lt_of_not_le hroom)

/-- Every outcome keeps the links. -/
theorem CaptureOutcome.pagesLinked {cpu : NdsCpu} {base : UInt32} {view : PageView}
    (hout : CaptureOutcome sha1 s cpu base view s') (h : s.PagesLinked sha1) :
    s'.PagesLinked sha1 := by
  cases hout with
  | current _ => exact h.congr rfl rfl rfl rfl
  | unwritable _ _ => exact h.opened cpu base view
  | resolved i _ _ _ => exact (h.opened cpu base view).resolveTo cpu i
  | dropped _ _ _ _ _ => exact h.congr rfl rfl rfl rfl
  | replaced i _ _ hnew _ hi => exact (h.opened cpu base view).replacePage hnew rfl hi
  | pushed _ _ hnew hversions hcapacity =>
      exact (h.opened cpu base view).pushPage hnew rfl hversions hcapacity
  | rotated _ =>
      have hempty : (s.opened cpu base view).startPart.PagesLinked sha1 :=
        pagesLinked_empty rfl rfl rfl rfl
      exact hempty.pushPage rfl rfl (Nat.zero_lt_succ 7) (Nat.zero_lt_succ 8191)

theorem captureExecPage_of_rotates {cpu : NdsCpu} {base : UInt32} {view : PageView}
    (h : s.PagesLinked sha1) (hrotates : s.Rotates sha1 cpu base view) :
    s.captureExecPage sha1 cpu base view =
      (s.opened cpu base view).startPart.pushPage (keyOf sha1 cpu base view) view.bytes := by
  have hout := captureExecPage_outcome h cpu base view
  generalize s.captureExecPage sha1 cpu base view = result at hout
  cases hout with
  | rotated _ => rfl
  | current hcurrent => exact absurd (hcurrent.symm.trans hrotates.stale) (by decide)
  | unwritable _ hwritable => exact absurd (hwritable.symm.trans hrotates.writable) (by decide)
  | resolved i _ _ hi => exact absurd (hi.symm.trans hrotates.unknown) (by simp)
  | dropped _ _ _ _ hnot => exact absurd hrotates hnot
  | replaced i _ _ _ hversions _ => exact absurd hrotates.versions (Nat.not_lt.mpr hversions)
  | pushed _ _ _ _ hcapacity => exact absurd hrotates.full (Nat.not_le.mpr hcapacity)

end CoverageStore

end NdsRecomp.CoverageManifest
