import UnifiedRuntime.Lib.Extents
import UnifiedRuntime.Sanitizer.AsanHeap
import UnifiedRuntime.Sanitizer.AsanRuns

/-!
# The entries of `m_AllocationMap`

`MapInv` says that the entries are blocks without a common byte, that what the
quarantine holds is in the map, and how the registered globals are found in it by
their keys. It is kept by every operation but two: a `urUSMFree` of a device global
puts its entry into the quarantine, where `unregisterProgram` erases it; and between
`pfnProgramRelease` and `unregisterProgram` the map has globals whose memory the
driver may hand out again.
-/

namespace UnifiedRuntime.Sanitizer

open Function (update update_of_ne update_self)
open HeapState

/-! ## Blocks -/

/-- Memory of the driver: not empty, not at the null address, and one can point past
its end. -/
structure Chunk.IsBlock (x : Chunk) : Prop where
  begin_pos : 0 < x.allocBegin
  size_pos : 0 < x.allocSize
  range : x.allocBegin + x.allocSize < 2 ^ 64

instance (x : Chunk) : Decidable x.IsBlock :=
  decidable_of_iff (0 < x.allocBegin ∧ 0 < x.allocSize ∧ x.allocBegin + x.allocSize < 2 ^ 64)
    ⟨fun h => ⟨h.1, h.2.1, h.2.2⟩, fun h => ⟨h.1, h.2, h.3⟩⟩

def Chunk.Apart (x y : Chunk) : Prop := ¬ Overlaps x.toAllocInfo y.toAllocInfo

instance (x y : Chunk) : Decidable (x.Apart y) := inferInstanceAs (Decidable (¬ _))

theorem Chunk.Apart.symm {x y : Chunk} (h : x.Apart y) : y.Apart x := fun ho => h ⟨ho.2, ho.1⟩

theorem Chunk.Apart.begin_ne {x y : Chunk} (h : x.Apart y) (hx : x.IsBlock) (hy : y.IsBlock) :
    x.allocBegin ≠ y.allocBegin := by
  intro he
  have h1 := hx.size_pos
  have h2 := hy.size_pos
  exact h ⟨by omega, by omega⟩

/-! ## What the driver promises, and which calls are safe -/

/-- Nothing of the block is allocated. -/
def HeapState.IsNew (s : HeapState) (x : Chunk) : Prop :=
  x.IsBlock ∧ ∀ id ∈ s.heap, x.Apart (s.infos id)

instance (s : HeapState) (x : Chunk) : Decidable (s.IsNew x) :=
  inferInstanceAs (Decidable (_ ∧ _))

/-- A global of the program that is registered already. -/
def HeapState.IsOwn (s : HeapState) (program : ProgramId) (x : Chunk) : Prop :=
  ∃ g ∈ s.globals program,
    (s.infos g).allocBegin = x.allocBegin ∧ (s.infos g).allocSize = x.allocSize

/-- The block is not where a registered global was whose program the driver has
released. -/
def HeapState.NoStaleGlobal (s : HeapState) (x : Chunk) : Prop :=
  ∀ id ∈ s.allocationMap, (s.infos id).isGlobal = true → id ∉ s.heap → x.Apart (s.infos id)

instance (s : HeapState) (x : Chunk) : Decidable (s.NoStaleGlobal x) :=
  inferInstanceAs (Decidable (∀ id ∈ s.allocationMap, _ → _ → _))

/-- `P` of every global when it is registered. -/
def EachGlobal (P : HeapState → Chunk → Prop) (program : ProgramId) :
    List Chunk → HeapState → Prop
  | [], _ => True
  | x :: xs, s => P s x ∧ EachGlobal P program xs (s.registerGlobal program x)

/-- The driver's allocations are disjoint while they are live. -/
def HeapOp.Legal (m : AsanSetup) (s : HeapState) : HeapOp → Prop
  | .allocateMemory r answer =>
    ∀ allocBegin, answer = some allocBegin → s.IsNew { r.info m allocBegin with isGlobal := false }
  | .registerProgram program context spirKernels reads =>
    spirKernels = true →
      EachGlobal (fun s x => x.IsBlock ∧ (s.IsOwn program x ∨ s.IsNew x)) program
        (readGlobals context reads) s
  | .releaseMemory .. | .driverProgramRelease _ | .unregisterProgram _ => True

/-- No device global is freed, and no memory of a released program is handed out
before the program is unregistered. -/
def HeapOp.Safe (m : AsanSetup) (s : HeapState) : HeapOp → Prop
  | .allocateMemory r answer =>
    ∀ allocBegin, answer = some allocBegin →
      s.NoStaleGlobal { r.info m allocBegin with isGlobal := false }
  | .registerProgram program context spirKernels reads =>
    spirKernels = true →
      EachGlobal (fun s x => s.IsOwn program x ∨ s.NoStaleGlobal x) program
        (readGlobals context reads) s
  | .releaseMemory context address _ =>
    ∀ id, s.released context address = some id → (s.infos id).isGlobal = false
  | .driverProgramRelease _ | .unregisterProgram _ => True

/-! ## The invariant -/

structure MapInv (s : HeapState) : Prop where
  freshMap : ∀ id ∈ s.allocationMap, id < s.nextInfo
  freshHeap : ∀ id ∈ s.heap, id < s.nextInfo
  freshGlobals : ∀ p, ∀ g ∈ s.globals p, g < s.nextInfo
  block : ∀ id ∈ s.allocationMap, (s.infos id).IsBlock
  heapBlock : ∀ id ∈ s.heap, (s.infos id).IsBlock
  apart : s.allocationMap.Pairwise fun i j => (s.infos i).Apart (s.infos j)
  /-- The quarantine of a device has released chunks of that device. -/
  held : ∀ d, ∀ id ∈ (s.quarantine.map d).list, id ∈ s.allocationMap ∧
    (s.infos id).isGlobal = false ∧ (s.infos id).isReleased = true ∧ (s.infos id).device = d
  heldOnce : ∀ d, (s.quarantine.map d).list.Nodup
  allocated : ∀ id ∈ s.allocationMap, (s.infos id).isGlobal = false → id ∈ s.heap
  keyed : ∀ p, ∀ g ∈ s.globals p, ∃ j ∈ s.allocationMap,
    (s.infos j).allocBegin = (s.infos g).allocBegin ∧ (s.infos j).isGlobal = true
  own : ∀ p q, ∀ g ∈ s.globals p, ∀ g' ∈ s.globals q,
    (s.infos g).allocBegin = (s.infos g').allocBegin → p = q

theorem MapInv.init (m : AsanSetup) (noChunk : Chunk) : MapInv (.init m noChunk) where
  freshMap := by simp [HeapState.init]
  freshHeap := by simp [HeapState.init]
  freshGlobals := by simp [HeapState.init]
  block := by simp [HeapState.init]
  heapBlock := by simp [HeapState.init]
  apart := by simp [HeapState.init]
  held := by simp [HeapState.init, Quarantine.init, QuarantineCache.empty]
  heldOnce := by simp [HeapState.init, Quarantine.init, QuarantineCache.empty]
  allocated := by simp [HeapState.init]
  keyed := by simp [HeapState.init]
  own := by simp [HeapState.init]

namespace MapInv

variable {s s' : HeapState}

/-- Two entries with the same key are one. -/
theorem eq_of_begin (h : MapInv s) {i j : InfoId} (hi : i ∈ s.allocationMap)
    (hj : j ∈ s.allocationMap) (he : (s.infos i).allocBegin = (s.infos j).allocBegin) :
    i = j := by
  by_contra hne
  have : Std.Symm fun i j => (s.infos i).Apart (s.infos j) := ⟨fun _ _ => Chunk.Apart.symm⟩
  have hap := h.apart.forall hi hj hne
  exact hap.begin_ne (h.block i hi) (h.block j hj) he

/-! ### Adding an entry -/

/-- A new entry, and perhaps the global of a program that it is. -/
structure Adds (s s' : HeapState) (x : Chunk) : Prop where
  infos : s'.infos = update s.infos s.nextInfo x
  nextInfo : s'.nextInfo = s.nextInfo + 1
  map : s'.allocationMap = s.nextInfo :: s.allocationMap
  heap : s'.heap = s.nextInfo :: s.heap
  quarantine : s'.quarantine = s.quarantine
  globals : s'.globals = s.globals ∨ (x.isGlobal = true ∧ ∃ p,
    s'.globals = update s.globals p (s.nextInfo :: s.globals p))

variable {x : Chunk}

theorem Adds.old (ha : Adds s s' x) {id : InfoId} (hid : id < s.nextInfo) :
    s'.infos id = s.infos id := by
  rw [ha.infos, update_of_ne (Nat.ne_of_lt hid)]

theorem Adds.new (ha : Adds s s' x) : s'.infos s.nextInfo = x := by
  rw [ha.infos, update_self]

/-- A global that is registered was registered before, or is the new one. -/
theorem Adds.mem_globals (ha : Adds s s' x) {p : ProgramId} {g : InfoId}
    (hg : g ∈ s'.globals p) : g ∈ s.globals p ∨
      (g = s.nextInfo ∧ x.isGlobal = true ∧ ∀ q, s.nextInfo ∈ s'.globals q → s.nextInfo ∉ s.globals q →
        q = p) := by
  rcases ha.globals with hsame | ⟨hx, q, hq⟩
  · rw [hsame] at hg
    exact .inl hg
  · by_cases hpq : p = q
    · subst hpq
      rw [hq, update_self] at hg
      rcases List.mem_cons.mp hg with rfl | hg
      · refine .inr ⟨rfl, hx, fun r hr hnot => ?_⟩
        by_contra hne
        rw [hq, update_of_ne hne] at hr
        exact hnot hr
      · exact .inl hg
    · rw [hq, update_of_ne hpq] at hg
      exact .inl hg

theorem added (h : MapInv s) (hx : x.IsBlock)
    (hap : ∀ id ∈ s.allocationMap, x.Apart (s.infos id)) (ha : Adds s s' x) : MapInv s' := by
  have hold : ∀ id ∈ s.allocationMap, s'.infos id = s.infos id := fun id hid =>
    ha.old (h.freshMap id hid)
  have hglob : ∀ p, ∀ g ∈ s.globals p, s'.infos g = s.infos g := fun p g hg =>
    ha.old (h.freshGlobals p g hg)
  have hne : ∀ id ∈ s.allocationMap, x.allocBegin ≠ (s.infos id).allocBegin := fun id hid =>
    (hap id hid).begin_ne hx (h.block id hid)
  -- the key of the new block is nobody's
  have hkey : ∀ p, ∀ g ∈ s.globals p, x.allocBegin ≠ (s.infos g).allocBegin := by
    intro p g hg he
    obtain ⟨j, hj, hjg, -⟩ := h.keyed p g hg
    exact hne j hj (he.trans hjg.symm)
  refine ⟨?_, ?_, ?_, ?_, ?_, ?_, ?_, ?_, ?_, ?_, ?_⟩
  · intro id hid
    rw [ha.map] at hid
    rw [ha.nextInfo]
    rcases List.mem_cons.mp hid with rfl | hid
    · exact Nat.lt_succ_self _
    · exact Nat.lt_succ_of_lt (h.freshMap id hid)
  · intro id hid
    rw [ha.heap] at hid
    rw [ha.nextInfo]
    rcases List.mem_cons.mp hid with rfl | hid
    · exact Nat.lt_succ_self _
    · exact Nat.lt_succ_of_lt (h.freshHeap id hid)
  · intro p g hg
    rw [ha.nextInfo]
    rcases ha.mem_globals hg with hg | ⟨rfl, -⟩
    · exact Nat.lt_succ_of_lt (h.freshGlobals p g hg)
    · exact Nat.lt_succ_self _
  · intro id hid
    rw [ha.map] at hid
    rcases List.mem_cons.mp hid with rfl | hid
    · rw [ha.new]
      exact hx
    · rw [hold id hid]
      exact h.block id hid
  · intro id hid
    rw [ha.heap] at hid
    rcases List.mem_cons.mp hid with rfl | hid
    · rw [ha.new]
      exact hx
    · rw [ha.old (h.freshHeap id hid)]
      exact h.heapBlock id hid
  · rw [ha.map]
    refine List.pairwise_cons.mpr ⟨fun id hid => ?_, h.apart.imp_of_mem fun hi hj hij => ?_⟩
    · rw [ha.new, hold id hid]
      exact hap id hid
    · rw [hold _ hi, hold _ hj]
      exact hij
  · intro d id hid
    rw [ha.quarantine] at hid
    obtain ⟨hmem, hrest⟩ := h.held d id hid
    rw [hold id hmem, ha.map]
    exact ⟨List.mem_cons_of_mem _ hmem, hrest⟩
  · intro d
    rw [ha.quarantine]
    exact h.heldOnce d
  · intro id hid hg
    rw [ha.map] at hid
    rw [ha.heap]
    rcases List.mem_cons.mp hid with rfl | hid
    · exact List.mem_cons_self
    · rw [hold id hid] at hg
      exact List.mem_cons_of_mem _ (h.allocated id hid hg)
  · intro p g hg
    rw [ha.map]
    rcases ha.mem_globals hg with hg | ⟨rfl, hxg, -⟩
    · obtain ⟨j, hj, hjg, hjglob⟩ := h.keyed p g hg
      refine ⟨j, List.mem_cons_of_mem _ hj, ?_⟩
      rw [hold j hj, hglob p g hg]
      exact ⟨hjg, hjglob⟩
    · refine ⟨s.nextInfo, List.mem_cons_self, rfl, ?_⟩
      rw [ha.new]
      exact hxg
  · intro p q g hg g' hg' he
    have hnot : ∀ r, s.nextInfo ∉ s.globals r := fun r hr =>
      Nat.lt_irrefl _ (h.freshGlobals r _ hr)
    rcases ha.mem_globals hg with hgo | ⟨rfl, -, huniq⟩ <;>
      rcases ha.mem_globals hg' with hgo' | ⟨rfl, -, huniq'⟩
    · rw [hglob p g hgo, hglob q g' hgo'] at he
      exact h.own p q g hgo g' hgo' he
    · rw [hglob p g hgo, ha.new] at he
      exact absurd he.symm (hkey p g hgo)
    · rw [hglob q g' hgo', ha.new] at he
      exact absurd he (hkey q g' hgo')
    · exact huniq' p hg (hnot p)

/-- An entry whose key is nobody's is put into the map. -/
theorem emplace_map (hx : ∀ id ∈ s.allocationMap, x.allocBegin ≠ (s.infos id).allocBegin) :
    (s.emplace x).allocationMap = s.nextInfo :: s.allocationMap := by
  have hany : (s.allocationMap.any fun id => (s.infos id).allocBegin == x.allocBegin) = false := by
    rw [List.any_eq_false]
    intro id hid he
    exact hx id hid (beq_iff_eq.mp he).symm
  unfold emplace
  simp [hany]

/-- The new block has nothing in common with any entry. -/
theorem apart_of_new (h : MapInv s) (hnew : s.IsNew x) (hstale : s.NoStaleGlobal x) :
    ∀ id ∈ s.allocationMap, x.Apart (s.infos id) := by
  intro id hid
  by_cases hheap : id ∈ s.heap
  · exact hnew.2 id hheap
  · cases hg : (s.infos id).isGlobal with
    | false => exact absurd (h.allocated id hid hg) hheap
    | true => exact hstale id hid hg hheap

theorem keys_of_apart (h : MapInv s) (hx : x.IsBlock)
    (hap : ∀ id ∈ s.allocationMap, x.Apart (s.infos id)) :
    ∀ id ∈ s.allocationMap, x.allocBegin ≠ (s.infos id).allocBegin :=
  fun id hid => (hap id hid).begin_ne hx (h.block id hid)

theorem allocateMemory (h : MapInv s) (m : AsanSetup) (r : AllocRequest) (answer : Option Nat)
    (hl : (HeapOp.allocateMemory r answer).Legal m s)
    (hs : (HeapOp.allocateMemory r answer).Safe m s) : MapInv (s.allocateMemory m r answer) := by
  unfold HeapState.allocateMemory
  split
  · exact h
  · cases answer with
    | none => exact h
    | some allocBegin =>
      have hnew := hl allocBegin rfl
      have hap := h.apart_of_new hnew (hs allocBegin rfl)
      exact h.added hnew.1 hap ⟨rfl, rfl, emplace_map (h.keys_of_apart hnew.1 hap), rfl, rfl,
        .inl rfl⟩

/-! ### Globals -/

/-- A global that was registered before leaves the map alone. -/
theorem registerGlobal_own (h : MapInv s) {program : ProgramId} (hx : x.IsBlock)
    (hown : s.IsOwn program x) : MapInv (s.registerGlobal program x) := by
  obtain ⟨g₀, hg₀, hbegin, -⟩ := hown
  obtain ⟨j, hj, hjg, hjglob⟩ := h.keyed program g₀ hg₀
  have hany : (s.allocationMap.any fun id => (s.infos id).allocBegin == x.allocBegin) = true :=
    List.any_eq_true.mpr ⟨j, hj, beq_iff_eq.mpr (hjg.trans hbegin)⟩
  have hmap : (s.registerGlobal program x).allocationMap = s.allocationMap := by
    simp [HeapState.registerGlobal, emplace, hany]
  have hold : ∀ id, id < s.nextInfo → (s.registerGlobal program x).infos id = s.infos id :=
    fun id hid => update_of_ne (Nat.ne_of_lt hid) ..
  have hnew : (s.registerGlobal program x).infos s.nextInfo = x := update_self ..
  have hmem : ∀ p, ∀ g ∈ (s.registerGlobal program x).globals p,
      g ∈ s.globals p ∨ (g = s.nextInfo ∧ p = program) := by
    intro p g hg
    by_cases hp : p = program
    · subst hp
      simp only [HeapState.registerGlobal, update_self] at hg
      rcases List.mem_cons.mp hg with rfl | hg
      · exact .inr ⟨rfl, rfl⟩
      · exact .inl hg
    · simp only [HeapState.registerGlobal, update_of_ne hp] at hg
      exact .inl hg
  have hheap : s.heap ⊆ (s.registerGlobal program x).heap := by
    intro id hid
    simp only [HeapState.registerGlobal, buildGlobal]
    split
    · exact hid
    · exact List.mem_cons_of_mem _ hid
  have hmemHeap : ∀ id ∈ (s.registerGlobal program x).heap, id = s.nextInfo ∨ id ∈ s.heap := by
    intro id hid
    simp only [HeapState.registerGlobal, buildGlobal] at hid
    split at hid
    · exact .inr hid
    · exact List.mem_cons.mp hid
  refine ⟨?_, ?_, ?_, ?_, ?_, ?_, ?_, h.heldOnce, ?_, ?_, ?_⟩
  · intro id hid
    rw [hmap] at hid
    exact Nat.lt_succ_of_lt (h.freshMap id hid)
  · intro id hid
    rcases hmemHeap id hid with rfl | hid
    · exact Nat.lt_succ_self _
    · exact Nat.lt_succ_of_lt (h.freshHeap id hid)
  · intro p g hg
    rcases hmem p g hg with hg | ⟨rfl, -⟩
    · exact Nat.lt_succ_of_lt (h.freshGlobals p g hg)
    · exact Nat.lt_succ_self _
  · intro id hid
    rw [hmap] at hid
    rw [hold id (h.freshMap id hid)]
    exact h.block id hid
  · intro id hid
    rcases hmemHeap id hid with rfl | hid
    · rw [hnew]
      exact hx
    · rw [hold id (h.freshHeap id hid)]
      exact h.heapBlock id hid
  · rw [hmap]
    refine h.apart.imp_of_mem fun hi hk hik => ?_
    rw [hold _ (h.freshMap _ hi), hold _ (h.freshMap _ hk)]
    exact hik
  · intro d id hid
    obtain ⟨hid', hrest⟩ := h.held d id hid
    rw [hmap, hold id (h.freshMap id hid')]
    exact ⟨hid', hrest⟩
  · intro id hid hglob
    rw [hmap] at hid
    rw [hold id (h.freshMap id hid)] at hglob
    exact hheap (h.allocated id hid hglob)
  · intro p g hg
    rw [hmap]
    rcases hmem p g hg with hg | ⟨rfl, -⟩
    · obtain ⟨k, hk, hkg, hkglob⟩ := h.keyed p g hg
      exact ⟨k, hk, by rw [hold k (h.freshMap k hk), hold g (h.freshGlobals p g hg)]; exact hkg,
        by rw [hold k (h.freshMap k hk)]; exact hkglob⟩
    · refine ⟨j, hj, ?_, ?_⟩
      · rw [hold j (h.freshMap j hj), hnew, hjg, hbegin]
      · rw [hold j (h.freshMap j hj)]
        exact hjglob
  · -- the new global has the key of the one it was before
    have hkey : ∀ p, ∀ g ∈ (s.registerGlobal program x).globals p, ∃ g' ∈ s.globals p,
        (s.infos g').allocBegin = ((s.registerGlobal program x).infos g).allocBegin := by
      intro p g hg
      rcases hmem p g hg with hg | ⟨rfl, rfl⟩
      · exact ⟨g, hg, by rw [hold g (h.freshGlobals p g hg)]⟩
      · exact ⟨g₀, hg₀, by rw [hnew, hbegin]⟩
    intro p q g hg g' hg' he
    obtain ⟨i, hi, hie⟩ := hkey p g hg
    obtain ⟨k, hk, hke⟩ := hkey q g' hg'
    exact h.own p q i hi k hk (by rw [hie, hke, he])

/-- The block of a new global is nobody's in the driver. -/
theorem buildGlobal_new (h : MapInv s) (hnew : s.IsNew x) (id : InfoId) :
    s.buildGlobal x id = id :: s.heap := by
  have hany : (s.heap.any fun j => (s.infos j).allocBegin == x.allocBegin) = false := by
    rw [List.any_eq_false]
    intro j hj he
    exact (hnew.2 j hj).begin_ne hnew.1 (h.heapBlock j hj) (beq_iff_eq.mp he).symm
  simp [buildGlobal, hany]

theorem registerGlobal_new (h : MapInv s) {program : ProgramId} (hnew : s.IsNew x)
    (hstale : s.NoStaleGlobal x) (hglob : x.isGlobal = true) :
    MapInv (s.registerGlobal program x) := by
  have hap := h.apart_of_new hnew hstale
  exact h.added hnew.1 hap ⟨rfl, rfl, emplace_map (h.keys_of_apart hnew.1 hap),
    h.buildGlobal_new hnew _, rfl, .inr ⟨hglob, program, rfl⟩⟩

theorem readGlobals_isGlobal (context : ContextId) (reads : List (Device × GlobalsRead)) :
    ∀ x ∈ readGlobals context reads, x.isGlobal = true := by
  induction reads with
  | nil => simp [readGlobals]
  | cons d rest ih =>
    obtain ⟨device, read⟩ := d
    cases read with
    | noMetadata => exact ih
    | readFailed => simp [readGlobals]
    | globals infos =>
      intro x hx
      rcases List.mem_append.mp hx with hx | hx
      · obtain ⟨g, -, rfl⟩ := List.mem_map.mp hx
        rfl
      · exact ih x hx

theorem registerGlobals (program : ProgramId) (xs : List Chunk)
    (hglob : ∀ x ∈ xs, x.isGlobal = true) : ∀ {s : HeapState}, MapInv s →
    EachGlobal (fun s x => x.IsBlock ∧ (s.IsOwn program x ∨ s.IsNew x)) program xs s →
    EachGlobal (fun s x => s.IsOwn program x ∨ s.NoStaleGlobal x) program xs s →
    MapInv (xs.foldl (fun s x => s.registerGlobal program x) s) := by
  induction xs with
  | nil => exact fun h _ _ => h
  | cons x xs ih =>
    intro s h hl hs
    refine ih (fun y hy => hglob y (List.mem_cons_of_mem _ hy)) ?_ hl.2 hs.2
    rcases hl.1.2 with hown | hnew
    · exact h.registerGlobal_own hl.1.1 hown
    · rcases hs.1 with hown | hstale
      · exact h.registerGlobal_own hl.1.1 hown
      · exact h.registerGlobal_new hnew hstale (hglob x List.mem_cons_self)

theorem registerProgram (h : MapInv s) (m : AsanSetup) (program : ProgramId)
    (context : ContextId) (spirKernels : Bool) (reads : List (Device × GlobalsRead))
    (hl : (HeapOp.registerProgram program context spirKernels reads).Legal m s)
    (hs : (HeapOp.registerProgram program context spirKernels reads).Safe m s) :
    MapInv (s.registerProgram program context spirKernels reads) := by
  unfold HeapState.registerProgram
  split
  · next hk =>
    exact registerGlobals program _ (readGlobals_isGlobal context reads) h (hl hk) (hs hk)
  · exact h

/-! ### Removing entries -/

/-- Entries of chunks, not of globals, that leave the map and perhaps the driver. -/
structure Removes (s s' : HeapState) (dead : List InfoId) : Prop where
  blocks : ∀ id, (s'.infos id).allocBegin = (s.infos id).allocBegin ∧
    (s'.infos id).allocSize = (s.infos id).allocSize ∧
    (s'.infos id).isGlobal = (s.infos id).isGlobal
  nextInfo : s'.nextInfo = s.nextInfo
  map : s'.allocationMap = s.allocationMap.filter (· ∉ dead)
  heap : ∀ id, id ∈ s'.heap → id ∈ s.heap
  kept : ∀ id, id ∈ s.heap → id ∉ dead → id ∈ s'.heap
  globals : s'.globals = s.globals
  chunks : ∀ id ∈ dead, (s.infos id).isGlobal = false
  held : ∀ d, ∀ id ∈ (s'.quarantine.map d).list, id ∈ s.allocationMap ∧ id ∉ dead ∧
    (s'.infos id).isGlobal = false ∧ (s'.infos id).isReleased = true ∧ (s'.infos id).device = d
  heldOnce : ∀ d, (s'.quarantine.map d).list.Nodup

theorem removed (h : MapInv s) {dead : List InfoId} (hr : Removes s s' dead) : MapInv s' := by
  have hblock : ∀ id, (s.infos id).IsBlock → (s'.infos id).IsBlock := by
    intro id hb
    obtain ⟨h1, h2, -⟩ := hr.blocks id
    exact ⟨by rw [h1]; exact hb.begin_pos, by rw [h2]; exact hb.size_pos,
      by rw [h1, h2]; exact hb.range⟩
  have hapart : ∀ i j, (s.infos i).Apart (s.infos j) → (s'.infos i).Apart (s'.infos j) := by
    intro i j hij
    unfold Chunk.Apart Overlaps at hij ⊢
    rw [(hr.blocks i).1, (hr.blocks i).2.1, (hr.blocks j).1, (hr.blocks j).2.1]
    exact hij
  have hmem : ∀ id, id ∈ s'.allocationMap ↔ id ∈ s.allocationMap ∧ id ∉ dead := by
    intro id
    rw [hr.map, List.mem_filter, decide_eq_true_eq]
  refine ⟨?_, ?_, ?_, ?_, ?_, ?_, ?_, hr.heldOnce, ?_, ?_, ?_⟩
  · intro id hid
    rw [hr.nextInfo]
    exact h.freshMap id ((hmem id).mp hid).1
  · intro id hid
    rw [hr.nextInfo]
    exact h.freshHeap id (hr.heap id hid)
  · intro p g hg
    rw [hr.globals] at hg
    rw [hr.nextInfo]
    exact h.freshGlobals p g hg
  · intro id hid
    exact hblock id (h.block id ((hmem id).mp hid).1)
  · intro id hid
    exact hblock id (h.heapBlock id (hr.heap id hid))
  · rw [hr.map]
    exact (h.apart.filter _).imp fun hij => hapart _ _ hij
  · intro d id hid
    obtain ⟨hm, hd, hrest⟩ := hr.held d id hid
    exact ⟨(hmem id).mpr ⟨hm, hd⟩, hrest⟩
  · intro id hid hg
    obtain ⟨hm, hd⟩ := (hmem id).mp hid
    rw [(hr.blocks id).2.2] at hg
    exact hr.kept id (h.allocated id hm hg) hd
  · intro p g hg
    rw [hr.globals] at hg
    obtain ⟨j, hj, hjg, hjglob⟩ := h.keyed p g hg
    have hd : j ∉ dead := by
      intro hd
      rw [hr.chunks j hd] at hjglob
      cases hjglob
    refine ⟨j, (hmem j).mpr ⟨hj, hd⟩, ?_, ?_⟩
    · rw [(hr.blocks j).1, (hr.blocks g).1, hjg]
    · rw [(hr.blocks j).2.2, hjglob]
  · intro p q g hg g' hg' he
    rw [hr.globals] at hg hg'
    rw [(hr.blocks g).1, (hr.blocks g').1] at he
    exact h.own p q g hg g' hg' he

end MapInv

/-! ## Releases -/

section Release

variable {m : AsanSetup} {s : HeapState} {context : ContextId} {frees : InfoId → Bool}
  {id : InfoId}

/-- The lookup is the search of an ordered map. -/
theorem findAllocInfoByAddress_eq (address : Nat) :
    s.findAllocInfoByAddress address
      = Extents.locate (fun id => (s.infos id).allocBegin)
        (fun id => add64 (s.infos id).allocBegin (s.infos id).allocSize) s.allocationMap address := by
  unfold HeapState.findAllocInfoByAddress Extents.locate
  cases (s.allocationMap.filter fun id => decide ((s.infos id).allocBegin ≤ address)).argmax
    fun id => (s.infos id).allocBegin with
  | none => rfl
  | some id => rfl

theorem findAllocInfoByAddress_some {address : Nat}
    (h : s.findAllocInfoByAddress address = some id) :
    id ∈ s.allocationMap ∧ (s.infos id).allocBegin ≤ address ∧
      address < add64 (s.infos id).allocBegin (s.infos id).allocSize := by
  rw [findAllocInfoByAddress_eq] at h
  exact Extents.locate_some h

theorem released_some {address : Nat} (h : s.released context address = some id) :
    id ∈ s.allocationMap ∧ (s.infos id).context = context ∧
      (s.infos id).isReleased = false := by
  unfold HeapState.released at h
  split at h
  · cases h
  · next x hx =>
    obtain ⟨hc, h⟩ := Option.ite_none_left_eq_some.mp h
    obtain ⟨-, h⟩ := Option.ite_none_left_eq_some.mp h
    obtain ⟨hr, ⟨⟩⟩ := Option.ite_none_left_eq_some.mp h
    exact ⟨(findAllocInfoByAddress_some hx).1, not_not.mp hc, Bool.eq_false_iff.mpr hr⟩

theorem markReleased_same (x : InfoId) : ((s.markReleased id).infos x).allocBegin
      = (s.infos x).allocBegin ∧
    ((s.markReleased id).infos x).allocSize = (s.infos x).allocSize ∧
    ((s.markReleased id).infos x).isGlobal = (s.infos x).isGlobal ∧
    ((s.markReleased id).infos x).context = (s.infos x).context ∧
    ((s.markReleased id).infos x).device = (s.infos x).device ∧
    ((s.markReleased id).infos x).getRedzoneSize = (s.infos x).getRedzoneSize := by
  unfold HeapState.markReleased
  by_cases hx : x = id
  · subst hx
    simp [Chunk.getRedzoneSize]
  · simp [update_of_ne hx]

theorem markReleased_isReleased (x : InfoId) : ((s.markReleased id).infos x).isReleased
    = if x = id then true else (s.infos x).isReleased := by
  unfold HeapState.markReleased
  by_cases hx : x = id
  · subst hx
    simp
  · simp [hx]

/-! ### The loop over the release list -/

/-- What the loop leaves alone. -/
theorem freeLoop_same (l : List InfoId) (s : HeapState) :
    (freeLoop m context frees l s).1.infos = s.infos ∧
    (freeLoop m context frees l s).1.nextInfo = s.nextInfo ∧
    (freeLoop m context frees l s).1.quarantine = s.quarantine ∧
    (freeLoop m context frees l s).1.globals = s.globals ∧
    (freeLoop m context frees l s).1.evicted = s.evicted := by
  induction l generalizing s with
  | nil => exact ⟨rfl, rfl, rfl, rfl, rfl⟩
  | cons id rest ih =>
    unfold freeLoop
    split
    · exact ih _
    · exact ⟨rfl, rfl, rfl, rfl, rfl⟩

/-- The chunks whose free succeeds before one fails leave the map and the driver. -/
theorem freeLoop_dead (l : List InfoId) (s : HeapState) :
    (freeLoop m context frees l s).1.allocationMap
      = s.allocationMap.filter (· ∉ l.takeWhile frees) ∧
    (freeLoop m context frees l s).1.heap = s.heap.filter (· ∉ l.takeWhile frees) := by
  induction l generalizing s with
  | nil => simp [freeLoop]
  | cons id rest ih =>
    unfold freeLoop
    by_cases hf : frees id = true
    · simp only [hf, if_true, List.takeWhile_cons_of_pos]
      refine ⟨(ih _).1.trans ?_, (ih _).2.trans ?_⟩
      · simp only [HeapState.erase, realFreed, updateStats, List.filter_filter]
        refine List.filter_congr fun x _ => ?_
        simp [Bool.and_comm]
      · simp only [HeapState.erase, realFreed, updateStats, afterFree, if_true,
          List.filter_filter]
        refine List.filter_congr fun x _ => ?_
        simp [Bool.and_comm]
    · have hf' : frees id = false := Bool.eq_false_iff.mpr hf
      simp [hf', realFreed, updateStats, afterFree]

/-! ### `retire` -/

/-- The chunks that must leave the quarantine of the device to make room. -/
def HeapState.toEvict (s : HeapState) (id : InfoId) : List InfoId :=
  ((s.quarantine.map (s.infos id).device).evict s.allocSize s.quarantine.maxSize
    (s.allocSize id)).1

/-- What stays in the quarantine of the device. -/
def HeapState.staying (s : HeapState) (id : InfoId) : List InfoId :=
  ((s.quarantine.map (s.infos id).device).evict s.allocSize s.quarantine.maxSize
    (s.allocSize id)).2.list

theorem toEvict_append (s : HeapState) (id : InfoId) :
    s.toEvict id ++ s.staying id = (s.quarantine.map (s.infos id).device).list :=
  QuarantineCache.evictLoop_append ..

theorem putQuarantine_snd : (s.putQuarantine id).2 = s.toEvict id := rfl

theorem putQuarantine_list (d : Option Device) :
    ((s.putQuarantine id).1.quarantine.map d).list
      = if d = (s.infos id).device then s.staying id ++ [id] else (s.quarantine.map d).list := by
  by_cases hd : d = (s.infos id).device
  · subst hd
    simp only [HeapState.putQuarantine, Quarantine.put, update_self, if_true]
    rfl
  · simp [HeapState.putQuarantine, Quarantine.put, update_of_ne hd, if_neg hd]

theorem markReleased_allocSize : (s.markReleased id).allocSize = s.allocSize := by
  funext x
  unfold HeapState.allocSize
  rw [(markReleased_same x).2.1]

theorem toEvict_markReleased : (s.markReleased id).toEvict id = s.toEvict id := by
  unfold HeapState.toEvict
  rw [markReleased_allocSize, (markReleased_same id).2.2.2.2.1]
  rfl

theorem staying_markReleased : (s.markReleased id).staying id = s.staying id := by
  unfold HeapState.staying
  rw [markReleased_allocSize, (markReleased_same id).2.2.2.2.1]
  rfl

/-- The state of `retire` after the loop. -/
def HeapState.looped (m : AsanSetup) (s : HeapState) (context : ContextId) (id : InfoId)
    (frees : InfoId → Bool) : HeapState :=
  (freeLoop m context frees (s.toEvict id) ((s.markReleased id).putQuarantine id).1).1

theorem looped_infos (x : InfoId) :
    (s.looped m context id frees).infos x = (s.markReleased id).infos x := by
  unfold HeapState.looped
  rw [(freeLoop_same _ _).1]
  rfl

theorem looped_list (d : Option Device) :
    ((s.looped m context id frees).quarantine.map d).list
      = if d = (s.infos id).device then s.staying id ++ [id] else (s.quarantine.map d).list := by
  unfold HeapState.looped
  rw [(freeLoop_same _ _).2.2.1, putQuarantine_list, (markReleased_same id).2.2.2.2.1,
    staying_markReleased]
  rfl

/-- The statistics apart, `retire` leaves what the loop left. -/
theorem retire_looped (hq : m.maxQuarantineSizeMB ≠ 0) :
    s.retire m context id frees = s.looped m context id frees ∨
      ∃ f, s.retire m context id frees = (s.looped m context id frees).updateStats context f := by
  unfold HeapState.retire
  rw [if_neg hq]
  simp only [putQuarantine_snd, toEvict_markReleased]
  split
  · exact .inr ⟨_, rfl⟩
  · exact .inl rfl

/-- A chunk that may be released is in no quarantine. -/
theorem MapInv.not_held (h : MapInv s) (hr : (s.infos id).isReleased = false)
    (d : Option Device) : id ∉ (s.quarantine.map d).list := by
  intro hid
  rw [(h.held d id hid).2.2.1] at hr
  cases hr

/-- The loop frees a first part of the blocks to evict and stops at a failure. -/
theorem MapInv.removes_looped (h : MapInv s) (hid : id ∈ s.allocationMap)
    (hrel : (s.infos id).isReleased = false) (hglob : (s.infos id).isGlobal = false) :
    Removes s (s.looped m context id frees) ((s.toEvict id).takeWhile frees) := by
  have hsplit := toEvict_append s id
  have hnodup := h.heldOnce (s.infos id).device
  rw [← hsplit] at hnodup
  -- the quarantine is what is evicted and what stays
  obtain ⟨-, hstay, hdisj⟩ := List.nodup_append.mp hnodup
  have hdead : ∀ x ∈ (s.toEvict id).takeWhile frees, x ∈ s.toEvict id := fun x hx =>
    (List.takeWhile_sublist _).subset hx
  have hevict : ∀ x ∈ s.toEvict id, x ∈ (s.quarantine.map (s.infos id).device).list := by
    intro x hx
    rw [← hsplit]
    exact List.mem_append_left _ hx
  have hkeep : ∀ x ∈ s.staying id, x ∈ (s.quarantine.map (s.infos id).device).list := by
    intro x hx
    rw [← hsplit]
    exact List.mem_append_right _ hx
  have hloop := @freeLoop_dead m context frees (s.toEvict id)
    ((s.markReleased id).putQuarantine id).1
  refine ⟨fun x => ?_, ?_, hloop.1, fun x hx => ?_, fun x hx hd => ?_, ?_, fun x hx => ?_,
    fun d x hx => ?_, fun d => ?_⟩
  · rw [looped_infos]
    obtain ⟨h1, h2, h3, -⟩ := @markReleased_same s id x
    exact ⟨h1, h2, h3⟩
  · exact (freeLoop_same _ _).2.1
  · rw [HeapState.looped, hloop.2] at hx
    exact (List.mem_filter.mp hx).1
  · rw [HeapState.looped, hloop.2]
    exact List.mem_filter.mpr ⟨hx, decide_eq_true hd⟩
  · exact (freeLoop_same _ _).2.2.2.1
  · exact (h.held _ x (hevict x (hdead x hx))).2.1
  · rw [looped_list] at hx
    rw [looped_infos, (markReleased_same x).2.2.1, markReleased_isReleased,
      (markReleased_same x).2.2.2.2.1]
    split at hx
    · next hd =>
      rcases List.mem_append.mp hx with hx | hx
      · obtain ⟨h1, h2, h3, h4⟩ := h.held _ x (hkeep x hx)
        have hne : x ≠ id := by
          rintro rfl
          exact h.not_held hrel _ (hkeep x hx)
        rw [if_neg hne]
        exact ⟨h1, fun hd' => hdisj x (hdead x hd') x hx rfl, h2, h3, hd ▸ h4⟩
      · obtain rfl := List.mem_singleton.mp hx
        rw [if_pos rfl]
        exact ⟨hid, fun hd' => h.not_held hrel _ (hevict x (hdead x hd')), hglob, rfl, hd.symm⟩
    · next hd =>
      obtain ⟨h1, h2, h3, h4⟩ := h.held d x hx
      have hne : x ≠ id := by
        rintro rfl
        exact h.not_held hrel d hx
      rw [if_neg hne]
      refine ⟨h1, fun hd' => hd ?_, h2, h3, h4⟩
      rw [← h4, (h.held _ x (hevict x (hdead x hd'))).2.2.2]
  · rw [looped_list]
    split
    · refine List.nodup_append.mpr ⟨hstay, List.nodup_singleton _, fun x hx y hy hxy => ?_⟩
      rw [List.mem_singleton.mp hy] at hxy
      rw [hxy] at hx
      exact h.not_held hrel _ (hkeep id hx)
    · exact h.heldOnce d

theorem MapInv.updateStats (h : MapInv s) (context : ContextId) (f : AsanStats → AsanStats) :
    MapInv (s.updateStats context f) := by
  obtain ⟨h1, h2, h3, h4, h5, h6, h7, h8, h9, h10, h11⟩ := h
  exact ⟨h1, h2, h3, h4, h5, h6, h7, h8, h9, h10, h11⟩

/-- `retire` without a quarantine. -/
def HeapState.freedNow (m : AsanSetup) (s : HeapState) (context : ContextId) (id : InfoId)
    (frees : InfoId → Bool) : HeapState :=
  { ((s.markReleased id).realFreed m context id).erase id with
    heap := s.afterFree id (frees id) }

theorem retire_freedNow (hq : m.maxQuarantineSizeMB = 0) :
    s.retire m context id frees = s.freedNow m context id frees := by
  unfold HeapState.retire
  rw [if_pos hq]
  rfl

theorem MapInv.removes_freedNow (h : MapInv s) (hrel : (s.infos id).isReleased = false)
    (hglob : (s.infos id).isGlobal = false) :
    Removes s (s.freedNow m context id frees) [id] := by
  have hinfos : ∀ x, (s.freedNow m context id frees).infos x = (s.markReleased id).infos x :=
    fun _ => rfl
  refine ⟨fun x => ?_, rfl, ?_, fun x hx => ?_, fun x hx hd => ?_, rfl, ?_, fun d x hx => ?_,
    h.heldOnce⟩
  · obtain ⟨h1, h2, h3, -⟩ := @markReleased_same s id x
    exact ⟨h1, h2, h3⟩
  · refine List.filter_congr fun x _ => ?_
    simp
  · simp only [HeapState.freedNow, afterFree] at hx
    split at hx
    · exact (List.mem_filter.mp hx).1
    · exact hx
  · simp only [HeapState.freedNow, afterFree]
    split
    · exact List.mem_filter.mpr ⟨hx, by simpa using hd⟩
    · exact hx
  · intro x hx
    rw [List.mem_singleton.mp hx]
    exact hglob
  · obtain ⟨h1, h2, h3, h4⟩ := h.held d x hx
    have hne : x ≠ id := by
      rintro rfl
      exact h.not_held hrel d hx
    refine ⟨h1, by simpa using hne, ?_⟩
    rw [hinfos, (markReleased_same x).2.2.1, markReleased_isReleased, if_neg hne,
      (markReleased_same x).2.2.2.2.1]
    exact ⟨h2, h3, h4⟩

/-- A released block goes into the quarantine or is freed at once. -/
theorem MapInv.retire (h : MapInv s) (hid : id ∈ s.allocationMap)
    (hrel : (s.infos id).isReleased = false) (hglob : (s.infos id).isGlobal = false) :
    MapInv (s.retire m context id frees) := by
  by_cases hq : m.maxQuarantineSizeMB = 0
  · rw [retire_freedNow hq]
    exact h.removed (h.removes_freedNow hrel hglob)
  · have hloop := h.removed (@MapInv.removes_looped m s context frees id h hid hrel hglob)
    rcases @retire_looped m s context frees id hq
      with he | ⟨f, he⟩
    · rw [he]
      exact hloop
    · rw [he]
      exact hloop.updateStats context f

theorem MapInv.releaseMemory (h : MapInv s) (address : Nat)
    (hs : (HeapOp.releaseMemory context address frees).Safe m s) :
    MapInv (s.releaseMemory m context address frees) := by
  unfold HeapState.releaseMemory
  split
  · exact h
  · next id hid =>
    obtain ⟨hmem, -, hrel⟩ := released_some hid
    exact h.retire hmem hrel (hs id hid)

end Release

/-! ## Programs that go away -/

section Unregister

variable {s : HeapState} {program : ProgramId}

theorem keyOf_iff (id : InfoId) : s.keyOf program id = true ↔
    ∃ g ∈ s.globals program, (s.infos g).allocBegin = (s.infos id).allocBegin := by
  unfold HeapState.keyOf
  simp

/-- An entry with the key of a program's global is a global's. -/
theorem MapInv.isGlobal_of_keyOf (h : MapInv s) {id : InfoId} (hid : id ∈ s.allocationMap)
    (hk : s.keyOf program id = true) : (s.infos id).isGlobal = true := by
  obtain ⟨g, hg, he⟩ := (keyOf_iff id).mp hk
  obtain ⟨j, hj, hjg, hjglob⟩ := h.keyed program g hg
  rwa [← h.eq_of_begin hj hid (hjg.trans he)]

theorem MapInv.unregisterProgram (h : MapInv s) (program : ProgramId) :
    MapInv (s.unregisterProgram program) := by
  have hmem : ∀ id, id ∈ (s.unregisterProgram program).allocationMap ↔
      id ∈ s.allocationMap ∧ s.keyOf program id = false := by
    intro id
    simp [HeapState.unregisterProgram]
  have hglobals : ∀ p, ∀ g ∈ (s.unregisterProgram program).globals p,
      p ≠ program ∧ g ∈ s.globals p := by
    intro p g hg
    by_cases hp : p = program
    · subst hp
      simp [HeapState.unregisterProgram] at hg
    · simp only [HeapState.unregisterProgram, update_of_ne hp] at hg
      exact ⟨hp, hg⟩
  refine ⟨fun id hid => h.freshMap id ((hmem id).mp hid).1, h.freshHeap,
    fun p g hg => h.freshGlobals p g (hglobals p g hg).2,
    fun id hid => h.block id ((hmem id).mp hid).1, h.heapBlock, h.apart.filter _, ?_, h.heldOnce,
    fun id hid => h.allocated id ((hmem id).mp hid).1, ?_, ?_⟩
  · intro d id hid
    obtain ⟨hm, hglob, hrest⟩ := h.held d id hid
    refine ⟨(hmem id).mpr ⟨hm, Bool.eq_false_iff.mpr fun hk => ?_⟩, hglob, hrest⟩
    -- what the quarantine holds is not a global's
    rw [h.isGlobal_of_keyOf hm hk] at hglob
    cases hglob
  · intro p g hg
    obtain ⟨hp, hg⟩ := hglobals p g hg
    obtain ⟨j, hj, hjg, hjglob⟩ := h.keyed p g hg
    refine ⟨j, (hmem j).mpr ⟨hj, Bool.eq_false_iff.mpr fun hk => ?_⟩, hjg, hjglob⟩
    obtain ⟨g', hg', he⟩ := (keyOf_iff j).mp hk
    exact hp (h.own p program g hg g' hg' (hjg.symm.trans he.symm))
  · intro p q g hg g' hg' he
    exact h.own p q g (hglobals p g hg).2 g' (hglobals q g' hg').2 he

theorem MapInv.driverProgramRelease (h : MapInv s) (program : ProgramId) :
    MapInv (s.driverProgramRelease program) := by
  have hsub : ∀ id ∈ (s.driverProgramRelease program).heap, id ∈ s.heap := fun id hid =>
    (List.mem_filter.mp hid).1
  refine ⟨h.freshMap, fun id hid => h.freshHeap id (hsub id hid), h.freshGlobals, h.block,
    fun id hid => h.heapBlock id (hsub id hid), h.apart, h.held, h.heldOnce, fun id hid hg => ?_,
    h.keyed, h.own⟩
  refine List.mem_filter.mpr ⟨h.allocated id hid hg, ?_⟩
  have hg' : (s.infos id).isGlobal = false := hg
  simp [hg']

end Unregister

/-! ## The lookup -/

/-- The lookup finds the entry an address lies in. -/
theorem MapInv.find_iff {s : HeapState} (h : MapInv s) (address : Nat) (id : InfoId) :
    s.findAllocInfoByAddress address = some id ↔ id ∈ s.allocationMap ∧
      (s.infos id).allocBegin ≤ address ∧
      address < (s.infos id).allocBegin + (s.infos id).allocSize := by
  have hend : ∀ x ∈ s.allocationMap, add64 (s.infos x).allocBegin (s.infos x).allocSize
      = (s.infos x).allocBegin + (s.infos x).allocSize := fun x hx => add64_eq (h.block x hx).range
  rw [findAllocInfoByAddress_eq, Extents.locate_iff]
  · refine and_congr_right fun hmem => ?_
    rw [hend id hmem]
  · intro x hx
    have hpos := (h.block x hx).size_pos
    simp only [hend x hx]
    omega
  · intro x hx y hy hne
    have : Std.Symm fun i j => (s.infos i).Apart (s.infos j) := ⟨fun _ _ => Chunk.Apart.symm⟩
    have hap : ¬ Overlaps _ _ := h.apart.forall hx hy hne
    simp only [Extents.Apart, hend x hx, hend y hy]
    unfold Overlaps at hap
    omega

/-! ## Runs -/

section Runs

variable {m : AsanSetup}

/-- The states of runs whose operations all meet `ok`. -/
inductive HeapReached (m : AsanSetup) (ok : HeapState → HeapOp → Prop) : HeapState → Prop where
  | init (noChunk : Chunk) : HeapReached m ok (.init m noChunk)
  | step {s : HeapState} (op : HeapOp) : HeapReached m ok s → op.Legal m s → ok s op →
      HeapReached m ok (s.step m op)

theorem HeapReached.allocate {ok : HeapState → HeapOp → Prop} {s : HeapState}
    (h : HeapReached m ok s) (r : AllocRequest) (allocBegin : Nat)
    (hnew : s.IsNew { r.info m allocBegin with isGlobal := false })
    (hok : ok s (.allocateMemory r (some allocBegin))) :
    HeapReached m ok (s.allocateMemory m r (some allocBegin)) := by
  refine .step (.allocateMemory r (some allocBegin)) h (fun b hb => ?_) hok
  obtain rfl := Option.some.inj hb
  exact hnew

theorem MapInv.step {s : HeapState} (h : MapInv s) (op : HeapOp) (hl : op.Legal m s)
    (hs : op.Safe m s) : MapInv (s.step m op) := by
  cases op with
  | allocateMemory r answer => exact h.allocateMemory m r answer hl hs
  | releaseMemory context address frees => exact h.releaseMemory address hs
  | registerProgram program context spirKernels reads =>
    exact h.registerProgram m program context spirKernels reads hl hs
  | driverProgramRelease program => exact h.driverProgramRelease program
  | unregisterProgram program => exact h.unregisterProgram program

theorem HeapReached.mapInv {s : HeapState} (h : HeapReached m (fun s op => op.Safe m s) s) :
    MapInv s := by
  induction h with
  | init noChunk => exact .init m noChunk
  | step op _ hl hs ih => exact ih.step op hl hs

/-- **The allocation map is in order**: its intervals are disjoint, it has what the
quarantine holds, and the lookup finds the entry of every address in an interval. -/
theorem allocation_map_ordered {s : HeapState}
    (h : HeapReached m (fun s op => op.Safe m s) s) :
    (s.allocationMap.Pairwise fun i j => Disjoint
      (Set.Ico (s.infos i).allocBegin ((s.infos i).allocBegin + (s.infos i).allocSize))
      (Set.Ico (s.infos j).allocBegin ((s.infos j).allocBegin + (s.infos j).allocSize))) ∧
    (∀ d, ∀ id ∈ (s.quarantine.map d).list, id ∈ s.allocationMap) ∧
    (∀ address id, s.findAllocInfoByAddress address = some id ↔ id ∈ s.allocationMap ∧
      address ∈ Set.Ico (s.infos id).allocBegin
        ((s.infos id).allocBegin + (s.infos id).allocSize)) := by
  have hm := h.mapInv
  refine ⟨hm.apart.imp fun {i j} hij => ?_, fun d id hid => (hm.held d id hid).1, hm.find_iff⟩
  rw [Set.disjoint_left]
  rintro x ⟨hi, hi'⟩ ⟨hj, hj'⟩
  exact hij ⟨by omega, by omega⟩

/-! A program with one global, on a device with a quarantine. -/

def oneQuarantine : AsanSetup := { oneCpu with maxQuarantineSizeMB := 1 }

def noChunk : Chunk := { (sixteenBytes 0).info oneQuarantine 0 with isGlobal := false }

/-- Sixteen bytes and their redzone at address 4096. -/
def oneGlobal : List (Device × GlobalsRead) := [(0, .globals [⟨16, 64, 4096⟩])]

theorem oneGlobal_legal : (HeapOp.registerProgram 1 0 true oneGlobal).Legal oneQuarantine
    (.init oneQuarantine noChunk) := by
  intro _
  exact ⟨⟨by decide, .inr (by decide)⟩, trivial⟩

theorem oneGlobal_reached :
    HeapReached oneQuarantine (fun s op => op.Safe oneQuarantine s)
      ((HeapState.init oneQuarantine noChunk).registerProgram 1 0 true oneGlobal) :=
  .step (.registerProgram 1 0 true oneGlobal) (.init noChunk) oneGlobal_legal
    fun _ => ⟨.inr fun _ hid => absurd hid List.not_mem_nil, trivial⟩

/-- Two blocks beside a global, of which the first is released into the quarantine. -/
theorem allocation_map_ordered_two_blocks :
    ∃ s, HeapReached oneQuarantine (fun s op => op.Safe oneQuarantine s) s ∧
      s.allocationMap = [2, 1, 0] ∧ (s.quarantine.map (some 0)).list = [1] ∧
      (s.allocationMap.Pairwise fun i j => Disjoint
        (Set.Ico (s.infos i).allocBegin ((s.infos i).allocBegin + (s.infos i).allocSize))
        (Set.Ico (s.infos j).allocBegin ((s.infos j).allocBegin + (s.infos j).allocSize))) ∧
      (∀ d, ∀ id ∈ (s.quarantine.map d).list, id ∈ s.allocationMap) ∧
      ∀ address id, s.findAllocInfoByAddress address = some id ↔ id ∈ s.allocationMap ∧
        address ∈ Set.Ico (s.infos id).allocBegin
          ((s.infos id).allocBegin + (s.infos id).allocSize) := by
  have hsafe : ∀ {s : HeapState} {b : Nat},
      s.NoStaleGlobal { (sixteenBytes 0).info oneQuarantine b with isGlobal := false } →
      (HeapOp.allocateMemory (sixteenBytes 0) (some b)).Safe oneQuarantine s := by
    intro s b h b' hb
    obtain rfl := Option.some.inj hb
    exact h
  have hone := oneGlobal_reached.allocate (sixteenBytes 0) 65536 (by decide +kernel)
    (hsafe (by decide +kernel))
  have htwo := hone.allocate (sixteenBytes 0) 131072 (by decide +kernel)
    (hsafe (by decide +kernel))
  have hreleased := HeapReached.step (.releaseMemory 0 65552 fun _ => true) htwo trivial
    fun id hid => by
      obtain rfl : 1 = id := by
        refine Option.some.inj (Eq.trans ?_ hid)
        decide +kernel
      decide +kernel
  exact ⟨_, hreleased, by decide +kernel, by decide +kernel, allocation_map_ordered hreleased⟩

/-- A global that is freed stays in the quarantine when its program is unregistered;
and the memory of a released program may be handed out while its globals are still in
the map. -/
theorem allocation_map_out_of_order :
    (∃ s, HeapReached oneQuarantine (fun _ _ => True) s ∧
      0 ∈ (s.quarantine.map (some 0)).list ∧ 0 ∉ s.allocationMap) ∧
    (∃ s, HeapReached oneQuarantine (fun _ _ => True) s ∧ ∃ i ∈ s.allocationMap,
      ∃ j ∈ s.allocationMap, i ≠ j ∧ Overlaps (s.infos i).toAllocInfo (s.infos j).toAllocInfo) := by
  have hregistered : HeapReached oneQuarantine (fun _ _ => True) _ :=
    .step (.registerProgram 1 0 true oneGlobal) (.init noChunk) oneGlobal_legal trivial
  constructor
  · have hfreed := HeapReached.step (.releaseMemory 0 4096 fun _ => true) hregistered trivial trivial
    exact ⟨_, .step (.unregisterProgram 1) hfreed trivial trivial, by decide +kernel,
      by decide +kernel⟩
  · have hreleased := HeapReached.step (.driverProgramRelease 1) hregistered trivial trivial
    exact ⟨_, hreleased.allocate (sixteenBytes 0) 4104 (by decide +kernel) trivial, 1,
      by decide +kernel, 0, by decide +kernel, by decide, by decide +kernel⟩

end Runs

end UnifiedRuntime.Sanitizer
