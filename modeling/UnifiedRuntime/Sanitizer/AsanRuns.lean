import UnifiedRuntime.Lib.Replay
import UnifiedRuntime.Sanitizer.AsanShadow

/-!
# The shadow at a launch

Runs of `allocateMemory`, `releaseMemory` and launches over any number of
contexts. The lists of pending `AllocInfo`s belong to a context and a device,
while the shadow belongs to a kind of device and addresses come back from the
quarantine for any context. So an entry of a chunk that is long gone can be
flushed over the shadow of a newer one: `AsanCall.Safe` excludes that memory is
handed out again while an entry for it waits in a list that the new chunk is
not appended to.

In all other runs the last entry of a list that touches a live chunk is the one
of the chunk itself.
-/

namespace UnifiedRuntime.Sanitizer

open Function (update update_of_ne update_self)
open AsanState

inductive AsanCall where
  | allocateMemory (r : AllocRequest) (answer : Option Nat)
  | releaseMemory (context : ContextId) (address : Nat) (frees : InfoId → Bool)
  | launch (context : ContextId) (device : Device) (flush : Flush)

/-- The devices that see a chunk. -/
def AllocInfo.targets (m : AsanSetup) (ai : AllocInfo) : List Device :=
  m.targets ai.context ai.device

/-- What the driver promises of the memory it returns: whole granules in a range
of the platform, apart from everything that was not freed. -/
structure DriverMemory (m : AsanSetup) (s : AsanState) (r : AllocRequest) (allocBegin : Nat) :
    Prop where
  aligned : allocBegin % 16 = 0
  range : allocBegin + r.neededSize m ≤ 2 ^ 64
  canonical : ∀ d ∈ m.targets r.context r.device,
    Canonical (m.deviceType d) allocBegin (allocBegin + r.neededSize m)
  apart : ∀ id ∈ s.heap, ¬ Overlaps (s.infos id) (r.info m allocBegin)

/-- The calls that can be made, and how the driver can answer. -/
def AsanCall.Legal (m : AsanSetup) (s : AsanState) : AsanCall → Prop
  | .allocateMemory r answer => ∀ allocBegin, answer = some allocBegin → DriverMemory m s r allocBegin
  | .releaseMemory .. => True
  | .launch context device _ => device ∈ m.deviceList context

/-- No entry for the memory of a new chunk waits in a list of another context or
device with the same shadow. -/
def NoStaleEntry (m : AsanSetup) (s : AsanState) (r : AllocRequest) (allocBegin : Nat) : Prop :=
  ∀ c d, ¬ (c = r.context ∧ d ∈ m.targets r.context r.device) →
    (∃ d' ∈ m.targets r.context r.device, m.deviceType d' = m.deviceType d) →
    ∀ id ∈ s.allocInfosMap c d, ¬ Overlaps (s.infos id) (r.info m allocBegin)

/-- Every live chunk of the list still waits for all devices with this shadow. -/
def AllWaiting (m : AsanSetup) (s : AsanState) (context : ContextId) (device : Device) : Prop :=
  ∀ id ∈ s.allocInfosMap context device, (s.infos id).isReleased = false →
    ∀ d ∈ (s.infos id).targets m, m.deviceType d = m.deviceType device →
      id ∈ s.allocInfosMap context d

/-- The calls that meet no defect. -/
def AsanCall.Safe (m : AsanSetup) (s : AsanState) : AsanCall → Prop
  | .allocateMemory r answer => ∀ allocBegin, answer = some allocBegin →
      r.Fits m ∧ NoStaleEntry m s r allocBegin
  | .releaseMemory .. => True
  | .launch _ _ .success => True
  | .launch context device (.failure ..) => AllWaiting m s context device

def AsanCall.run (m : AsanSetup) (s : AsanState) : AsanCall → AsanState
  | .allocateMemory r answer => (s.allocateMemory m r answer).1
  | .releaseMemory context address frees => s.releaseMemory m context address frees
  | .launch context device flush => s.updateShadowMemory m context device flush

/-- Before the first allocation. The shadow can hold anything. -/
def AsanState.start (infos : InfoId → AllocInfo) (shadow : DeviceType → Nat → UInt8) :
    AsanState where
  infos := infos
  nextInfo := 0
  allocInfosMap := fun _ _ => []
  allocationMap := []
  quarantine := fun _ => []
  shadow := shadow
  heap := []

/-- The states that calls of a kind reach. -/
inductive AsanReached (m : AsanSetup) (Kind : AsanState → AsanCall → Prop) : AsanState → Prop where
  | start (infos : InfoId → AllocInfo) (shadow : DeviceType → Nat → UInt8) :
      AsanReached m Kind (.start infos shadow)
  | call {s : AsanState} (c : AsanCall) : AsanReached m Kind s → c.Legal m s → Kind s c →
      AsanReached m Kind (c.run m s)

/-- A chunk that was allocated and not released. -/
def AsanState.Live (s : AsanState) (id : InfoId) : Prop :=
  id < s.nextInfo ∧ (s.infos id).isReleased = false

/-- Two entries are for memory that overlaps. -/
def AsanState.Clash (s : AsanState) (id id' : InfoId) : Prop :=
  Overlaps (s.infos id) (s.infos id')

/-- What holds of every state that safe calls reach. -/
structure AsanInv (m : AsanSetup) (s : AsanState) : Prop where
  listed : ∀ c d, ∀ id ∈ s.allocInfosMap c d,
    id < s.nextInfo ∧ (s.infos id).context = c ∧ d ∈ (s.infos id).targets m
  mapped : ∀ id ∈ s.allocationMap, id < s.nextInfo
  quarantined : ∀ k, ∀ id ∈ s.quarantine k, id < s.nextInfo ∧ (s.infos id).isReleased = true
  laid : ∀ id, id < s.nextInfo → Laid (s.infos id)
  canonical : ∀ id, id < s.nextInfo → ∀ d ∈ (s.infos id).targets m,
    (s.infos id).Canonical (m.deviceType d)
  heapLt : ∀ id ∈ s.heap, id < s.nextInfo
  liveHeap : ∀ id, s.Live id → id ∈ s.heap
  apart : ∀ id ∈ s.heap, ∀ id' ∈ s.heap, id ≠ id' → ¬ s.Clash id id'
  settled : ∀ id, s.Live id → ∀ c d,
    (∃ d' ∈ (s.infos id).targets m, m.deviceType d' = m.deviceType d) →
    Settled s.Clash id (s.allocInfosMap c d)
  decoded : ∀ id, s.Live id → ∀ d ∈ (s.infos id).targets m,
    id ∉ s.allocInfosMap (s.infos id).context d →
    Decodes (m.deviceType d) (s.shadow (m.deviceType d)) (s.infos id)

variable {m : AsanSetup} {s : AsanState}

theorem AsanInv.start (infos : InfoId → AllocInfo) (shadow : DeviceType → Nat → UInt8) :
    AsanInv m (.start infos shadow) := by
  have hlt : ∀ {id : InfoId} {P : Prop}, id < (AsanState.start infos shadow).nextInfo → P :=
    fun h => absurd h (Nat.not_lt_zero _)
  exact ⟨fun _ _ _ h => absurd h List.not_mem_nil, fun _ h => absurd h List.not_mem_nil,
    fun _ _ h => absurd h List.not_mem_nil, fun _ h => hlt h, fun _ h => hlt h,
    fun _ h => absurd h List.not_mem_nil, fun _ h => hlt h.1,
    fun _ h => absurd h List.not_mem_nil, fun _ h => hlt h.1, fun _ h => hlt h.1⟩

theorem mem_insertAllocInfo (s : AsanState) {context c : ContextId} {devices : List Device}
    {d : Device} {id x : InfoId} :
    x ∈ s.insertAllocInfo context devices id c d ↔
      x ∈ s.allocInfosMap c d ∨ c = context ∧ d ∈ devices ∧ x = id := by
  unfold insertAllocInfo
  by_cases hc : c = context
  · rw [if_pos hc, List.mem_append, List.mem_replicate, ← Nat.pos_iff_ne_zero]
    simp [hc]
  · simp [hc]

/-! ## Allocation -/

section Allocation

variable {r : AllocRequest} {allocBegin : Nat}

theorem insertChunk_old {id : InfoId} (hid : id < s.nextInfo) :
    (s.insertChunk m r allocBegin).infos id = s.infos id :=
  update_of_ne (Nat.ne_of_lt hid) _ _

theorem insertChunk_new : (s.insertChunk m r allocBegin).infos s.nextInfo = r.info m allocBegin :=
  update_self _ _ _

/-- A live chunk is the new one or an old one. -/
theorem insertChunk_live {id : InfoId} (hl : (s.insertChunk m r allocBegin).Live id) :
    s.Live id ∨ id = s.nextInfo := by
  rcases Nat.lt_succ_iff_lt_or_eq.mp hl.1 with hlt | he
  · have hrel := hl.2
    rw [insertChunk_old hlt] at hrel
    exact .inl ⟨hlt, hrel⟩
  · exact .inr he

/-- The lists of a new chunk: its entries settle those they are appended to, and
no other list has an entry for its memory. -/
theorem AsanInv.settled_new (h : AsanInv m s) (hstale : NoStaleEntry m s r allocBegin)
    {c : ContextId} {d : Device}
    (hshadow : ∃ d' ∈ m.targets r.context r.device, m.deviceType d' = m.deviceType d) :
    Settled (s.insertChunk m r allocBegin).Clash s.nextInfo
      (s.insertAllocInfo r.context (m.targets r.context r.device) s.nextInfo c d) := by
  by_cases hc : c = r.context ∧ d ∈ m.targets r.context r.device
  · unfold insertAllocInfo
    rw [if_pos hc.1]
    refine settled_append_of_mem (List.mem_replicate.mpr ⟨?_, rfl⟩) (settled_replicate _) _
    exact Nat.pos_iff_ne_zero.mp (List.count_pos_iff.mpr hc.2)
  · refine settled_of_forall fun id hid hclash => ?_
    have hid' : id ∈ s.allocInfosMap c d :=
      ((mem_insertAllocInfo s).mp hid).resolve_right fun hn => hc ⟨hn.1, hn.2.1⟩
    unfold AsanState.Clash at hclash
    rw [insertChunk_old (h.listed c d id hid').1, insertChunk_new] at hclash
    exact hstale c d hc hshadow id hid' hclash

/-- The lists of an old chunk: the new entries are for memory elsewhere. -/
theorem AsanInv.settled_old (h : AsanInv m s) (hmem : DriverMemory m s r allocBegin)
    {id : InfoId} (hl : s.Live id) {c : ContextId} {d : Device}
    (hs : Settled s.Clash id (s.allocInfosMap c d)) :
    Settled (s.insertChunk m r allocBegin).Clash id
      (s.insertAllocInfo r.context (m.targets r.context r.device) s.nextInfo c d) := by
  have hold : Settled (s.insertChunk m r allocBegin).Clash id (s.allocInfosMap c d) := by
    refine hs.mono fun e he hclash => ?_
    unfold AsanState.Clash at hclash ⊢
    rw [insertChunk_old (h.listed c d e he).1, insertChunk_old hl.1] at hclash
    exact hclash
  unfold insertAllocInfo
  split
  next =>
    refine hold.append fun x hx hclash => ?_
    rw [(List.mem_replicate.mp hx).2] at hclash
    unfold AsanState.Clash at hclash
    rw [insertChunk_new, insertChunk_old hl.1] at hclash
    exact hmem.apart id (h.liveHeap id hl) hclash.symm
  next => exact hold

/-- **A new chunk.** -/
theorem AsanInv.insertChunk (h : AsanInv m s) (hlaid : Laid (r.info m allocBegin))
    (hmem : DriverMemory m s r allocBegin) (hstale : NoStaleEntry m s r allocBegin) :
    AsanInv m (s.insertChunk m r allocBegin) := by
  -- every field for the new chunk, and for the others as before
  have hcase : ∀ id, id < s.nextInfo + 1 → id < s.nextInfo ∨ id = s.nextInfo :=
    fun id hid => Nat.lt_succ_iff_lt_or_eq.mp hid
  have hheap : ∀ id ∈ s.heap, (s.insertChunk m r allocBegin).infos id = s.infos id :=
    fun id hid => insertChunk_old (h.heapLt id hid)
  refine ⟨?_, ?_, ?_, ?_, ?_, ?_, ?_, ?_, ?_, ?_⟩
  · intro c d id hid
    rcases (mem_insertAllocInfo s).mp hid with hid | ⟨rfl, hd, rfl⟩
    · obtain ⟨hlt, hrest⟩ := h.listed c d id hid
      rw [insertChunk_old hlt]
      exact ⟨Nat.lt_succ_of_lt hlt, hrest⟩
    · rw [insertChunk_new]
      exact ⟨Nat.lt_succ_self _, rfl, hd⟩
  · intro id hid
    have hid' : id ∈ s.nextInfo :: s.allocationMap := by
      have hm : id ∈ if s.allocationMap.any fun id => (s.infos id).allocBegin == allocBegin then
          s.allocationMap else s.nextInfo :: s.allocationMap := hid
      split at hm
      next => exact List.mem_cons_of_mem _ hm
      next => exact hm
    rcases List.mem_cons.mp hid' with rfl | hid'
    · exact Nat.lt_succ_self _
    · exact Nat.lt_succ_of_lt (h.mapped id hid')
  · intro k id hid
    obtain ⟨hlt, hrel⟩ := h.quarantined k id hid
    rw [insertChunk_old hlt]
    exact ⟨Nat.lt_succ_of_lt hlt, hrel⟩
  · intro id hid
    rcases hcase id hid with hlt | rfl
    · rw [insertChunk_old hlt]
      exact h.laid id hlt
    · rw [insertChunk_new]
      exact hlaid
  · intro id hid d hd
    rcases hcase id hid with hlt | rfl
    · rw [insertChunk_old hlt] at hd ⊢
      exact h.canonical id hlt d hd
    · rw [insertChunk_new] at hd ⊢
      exact hmem.canonical d hd
  · intro id hid
    rcases List.mem_cons.mp hid with rfl | hid
    · exact Nat.lt_succ_self _
    · exact Nat.lt_succ_of_lt (h.heapLt id hid)
  · intro id hl
    rcases insertChunk_live hl with hl | rfl
    · exact List.mem_cons_of_mem _ (h.liveHeap id hl)
    · exact List.mem_cons_self
  · intro id hid id' hid' hne hclash
    unfold AsanState.Clash at hclash
    rcases List.mem_cons.mp hid with rfl | hid <;> rcases List.mem_cons.mp hid' with rfl | hid'
    · exact hne rfl
    · rw [insertChunk_new, hheap id' hid'] at hclash
      exact hmem.apart id' hid' hclash.symm
    · rw [insertChunk_new, hheap id hid] at hclash
      exact hmem.apart id hid hclash
    · rw [hheap id hid, hheap id' hid'] at hclash
      exact h.apart id hid id' hid' hne hclash
  · intro id hl c d hshadow
    rcases insertChunk_live hl with hl | rfl
    · rw [insertChunk_old hl.1] at hshadow
      exact h.settled_old hmem hl (h.settled id hl c d hshadow)
    · rw [insertChunk_new] at hshadow
      exact h.settled_new hstale hshadow
  · intro id hl d hd hnot
    rcases insertChunk_live hl with hl | rfl
    · rw [insertChunk_old hl.1] at hd hnot ⊢
      exact h.decoded id hl d hd fun hm => hnot ((mem_insertAllocInfo s).mpr (.inl hm))
    · -- the entry of the new chunk is in the list
      rw [insertChunk_new] at hd hnot
      exact absurd ((mem_insertAllocInfo s).mpr (.inr ⟨rfl, hd, rfl⟩)) hnot

theorem AsanInv.allocateMemory (h : AsanInv m s) {answer : Option Nat}
    (hd : ∀ allocBegin, answer = some allocBegin → DriverMemory m s r allocBegin)
    (hsafe : ∀ allocBegin, answer = some allocBegin → r.Fits m ∧ NoStaleEntry m s r allocBegin) :
    AsanInv m (s.allocateMemory m r answer).1 := by
  unfold AsanState.allocateMemory
  split
  next => exact h
  next ha =>
    cases answer with
    | none => exact h
    | some allocBegin =>
      have hmem := hd allocBegin rfl
      obtain ⟨hfits, hstale⟩ := hsafe allocBegin rfl
      have hlaid := AllocRequest.info_laid (not_not.mp ha) hfits hmem.aligned hmem.range
      exact h.insertChunk hlaid hmem hstale

end Allocation

/-! ## Release -/

section Release

variable {id : InfoId}

/-- Marking a chunk changes nothing else about it. -/
theorem markReleased_info (x : InfoId) :
    (s.markReleased m id).infos x =
      if x = id then { s.infos id with isReleased := true } else s.infos x := by
  show update s.infos id _ x = _
  split
  next he => rw [he, update_self]
  next he => rw [update_of_ne he]

theorem markReleased_clash (x y : InfoId) :
    (s.markReleased m id).Clash x y ↔ s.Clash x y := by
  unfold AsanState.Clash Overlaps
  rw [markReleased_info, markReleased_info]
  split <;> split <;> simp_all

theorem markReleased_live {x : InfoId} (hl : (s.markReleased m id).Live x) :
    s.Live x ∧ x ≠ id ∧ (s.markReleased m id).infos x = s.infos x := by
  have hrel := hl.2
  rw [markReleased_info] at hrel
  split at hrel
  next => exact absurd hrel (by simp)
  next he => exact ⟨⟨hl.1, hrel⟩, he, by rw [markReleased_info, if_neg he]⟩

theorem markReleased_targets (x : InfoId) :
    ((s.markReleased m id).infos x).targets m = (s.infos x).targets m ∧
    ((s.markReleased m id).infos x).context = (s.infos x).context := by
  rw [markReleased_info]
  split
  next he =>
    subst he
    exact ⟨rfl, rfl⟩
  next => exact ⟨rfl, rfl⟩

/-- **A released chunk.** Its entries are for memory that no live chunk has. -/
theorem AsanInv.markReleased (h : AsanInv m s) (hl : s.Live id) :
    AsanInv m (s.markReleased m id) := by
  refine ⟨?_, h.mapped, ?_, ?_, ?_, h.heapLt, ?_, ?_, ?_, ?_⟩
  · intro c d x hx
    rw [(markReleased_targets x).1, (markReleased_targets x).2]
    rcases (mem_insertAllocInfo s).mp hx with hx | ⟨rfl, hd, rfl⟩
    · exact h.listed c d x hx
    · exact ⟨hl.1, rfl, hd⟩
  · intro k x hx
    obtain ⟨hlt, hrel⟩ := h.quarantined k x hx
    refine ⟨hlt, ?_⟩
    rw [markReleased_info]
    split
    next => rfl
    next => exact hrel
  · intro x hx
    rw [markReleased_info]
    split
    next =>
      have hlaid := h.laid id hl.1
      exact ⟨hlaid.1, hlaid.2, hlaid.3, hlaid.4, hlaid.5, hlaid.6, hlaid.7⟩
    next => exact h.laid x hx
  · intro x hx d hd
    rw [(markReleased_targets x).1] at hd
    rw [markReleased_info]
    split
    next he => exact h.canonical id hl.1 d (he ▸ hd)
    next => exact h.canonical x hx d hd
  · intro x hx
    exact h.liveHeap x (markReleased_live hx).1
  · intro x hx y hy hne hclash
    exact h.apart x hx y hy hne ((markReleased_clash x y).mp hclash)
  · intro x hx c d hshadow
    obtain ⟨hlx, hne, -⟩ := markReleased_live hx
    rw [(markReleased_targets x).1] at hshadow
    have hold : Settled (s.markReleased m id).Clash x (s.allocInfosMap c d) :=
      (h.settled x hlx c d hshadow).mono fun e _ hc => (markReleased_clash e x).mp hc
    show Settled _ x (s.insertAllocInfo _ _ id c d)
    unfold insertAllocInfo
    split
    next =>
      refine hold.append fun y hy hclash => ?_
      rw [(List.mem_replicate.mp hy).2, markReleased_clash] at hclash
      exact h.apart id (h.liveHeap id hl) x (h.liveHeap x hlx) (fun he => hne he.symm) hclash
    next => exact hold
  · intro x hx d hd hnot
    obtain ⟨hlx, hne, hinfo⟩ := markReleased_live hx
    rw [hinfo] at hd hnot ⊢
    exact h.decoded x hlx d hd fun hm => hnot ((mem_insertAllocInfo s).mpr (.inl hm))

/-- Chunks that are not live may leave the map and the heap. -/
theorem AsanInv.shrink (h : AsanInv m s) {allocationMap heap : List InfoId}
    {quarantine : Option Device → List InfoId} (hmap : allocationMap ⊆ s.allocationMap)
    (hheap : heap ⊆ s.heap) (hlive : ∀ id, s.Live id → id ∈ heap)
    (hq : ∀ k, ∀ id ∈ quarantine k, id < s.nextInfo ∧ (s.infos id).isReleased = true) :
    AsanInv m { s with
      allocationMap := allocationMap
      heap := heap
      quarantine := quarantine } :=
  ⟨h.listed, fun id hid => h.mapped id (hmap hid), hq, h.laid, h.canonical,
    fun id hid => h.heapLt id (hheap hid), hlive,
    fun id hid id' hid' => h.apart id (hheap hid) id' (hheap hid'), h.settled, h.decoded⟩

theorem dequeue_mem (maxSize allocSize : Nat) : ∀ queue : List InfoId,
    (s.dequeue maxSize allocSize queue).1 ⊆ queue ∧ (s.dequeue maxSize allocSize queue).2 ⊆ queue
  | [] => ⟨fun _ h => h, fun _ h => h⟩
  | id :: rest => by
    obtain ⟨h₁, h₂⟩ := dequeue_mem maxSize allocSize rest
    unfold dequeue
    split
    next => exact ⟨List.cons_subset_cons id h₁, fun x hx => List.mem_cons_of_mem _ (h₂ hx)⟩
    next => exact ⟨List.nil_subset _, fun _ h => h⟩

theorem AsanInv.retire (h : AsanInv m s) (hl : s.Live id) (frees : InfoId → Bool) :
    AsanInv m (s.retire m id frees) := by
  have hm := h.markReleased hl
  have hrel : ((s.markReleased m id).infos id).isReleased = true := by
    rw [markReleased_info, if_pos rfl]
  unfold AsanState.retire
  split
  next =>
    refine hm.shrink (List.filter_sublist.subset) ?_ (fun x hx => ?_) hm.quarantined
    · split
      next => exact List.filter_sublist.subset
      next => exact List.Subset.refl _
    · have hheap := hm.liveHeap x hx
      split
      next =>
        refine List.mem_filter.mpr ⟨hheap, ?_⟩
        simpa using (markReleased_live hx).2.1
      next => exact hheap
  next =>
    have hsplit := dequeue_mem (s := s.markReleased m id) (m.maxQuarantineSizeMB * 1024 * 1024)
      ((s.markReleased m id).infos id).allocSize
      ((s.markReleased m id).quarantine ((s.markReleased m id).infos id).device)
    refine hm.shrink (List.filter_sublist.subset) (List.filter_sublist.subset) (fun x hx => ?_) ?_
    · -- what the quarantine gives up was released
      refine List.mem_filter.mpr ⟨hm.liveHeap x hx, ?_⟩
      rw [decide_eq_true_eq]
      intro hev
      have hold := hsplit.1 ((List.takeWhile_sublist _).subset hev)
      have hr := (hm.quarantined _ x hold).2
      exact absurd (hx.2.symm.trans hr) (by simp)
    · intro k x hx
      by_cases hk : k = ((s.markReleased m id).infos id).device
      · subst hk
        simp only [update_self] at hx
        rcases List.mem_append.mp hx with hx | hx
        · exact hm.quarantined _ x (hsplit.2 hx)
        · obtain rfl := List.mem_singleton.mp hx
          exact ⟨hl.1, hrel⟩
      · simp only [update_of_ne hk] at hx
        exact hm.quarantined k x hx

theorem findAllocInfoByAddress_mem {address : Nat}
    (h : s.findAllocInfoByAddress address = some id) : id ∈ s.allocationMap := by
  unfold findAllocInfoByAddress at h
  split at h
  next => exact absurd h (by simp)
  next x hx =>
    split at h
    next => exact absurd h (by simp)
    next =>
      obtain rfl := Option.some.inj h
      exact (List.mem_filter.mp (List.argmax_mem hx)).1

theorem AsanInv.releaseMemory (h : AsanInv m s) (context : ContextId) (address : Nat)
    (frees : InfoId → Bool) : AsanInv m (s.releaseMemory m context address frees) := by
  unfold AsanState.releaseMemory
  split
  next => exact h
  next id hfind =>
    split
    next => exact h
    next =>
      split
      next => exact h
      next =>
        split
        next => exact h
        next hrel =>
          have hid := h.mapped id (findAllocInfoByAddress_mem hfind)
          exact h.retire ⟨hid, Bool.eq_false_iff.mpr hrel⟩ frees

end Release

/-! ## Launch -/

section Launch

variable {context : ContextId} {device : Device}

/-- The calls of a flush, chunk by chunk. -/
theorem poisoned_poisons (t : DeviceType) (s : AsanState) (ids : List InfoId) :
    ∀ shadow : Nat → UInt8, poisoned t shadow (s.poisons ids) =
      ids.foldl (fun sh id => poisoned t sh (s.infos id).enqueueAllocInfo) shadow := by
  induction ids with
  | nil => exact fun _ => rfl
  | cons id ids ih =>
    intro shadow
    rw [List.foldl_cons, ← ih]
    unfold poisoned poisons
    rw [List.flatMap_cons, List.foldl_append]

/-- A list is flushed: the live chunks it touches decode. -/
theorem AsanInv.flushed (h : AsanInv m s) {id : InfoId} (hl : s.Live id) {d : Device}
    (hd : d ∈ (s.infos id).targets m) (ht : m.deviceType d = m.deviceType device)
    (hor : id ∈ s.allocInfosMap context device ∨
      Decodes (m.deviceType device) (s.shadow (m.deviceType device)) (s.infos id)) :
    Decodes (m.deviceType device) (poisoned (m.deviceType device) (s.shadow (m.deviceType device))
      (s.poisons (s.allocInfosMap context device))) (s.infos id) := by
  have hc := h.canonical id hl.1 d hd
  rw [ht] at hc
  rw [poisoned_poisons]
  refine (h.settled id hl context device ⟨d, hd, ht⟩).replay
    (fun shadow => Decodes (m.deviceType device) shadow (s.infos id)) ?_ ?_ hor
  · intro shadow
    exact (h.laid id hl.1).inChunk.decodes hc hl.2
  · intro e he shadow hclash hdec
    obtain ⟨hlt, -, htarget⟩ := h.listed context device e he
    exact hdec.frame (h.laid e hlt).inChunk hc (h.canonical e hlt device htarget) hclash

/-- What a flush that breaks off leaves of a chunk that is not in its list. -/
theorem AsanInv.brokenOff_decodes (h : AsanInv m s) {id : InfoId} (hl : s.Live id) {d : Device}
    (hd : d ∈ (s.infos id).targets m) (ht : m.deviceType d = m.deviceType device)
    (hnot : id ∉ s.allocInfosMap context device)
    (hdec : Decodes (m.deviceType device) (s.shadow (m.deviceType device)) (s.infos id))
    (done : Nat) (left : Nat → UInt8) :
    Decodes (m.deviceType device) (s.brokenOff (m.deviceType device)
      (s.poisons (s.allocInfosMap context device)) done left) (s.infos id) := by
  have hc := h.canonical id hl.1 d hd
  rw [ht] at hc
  have hclash := (h.settled id hl context device ⟨d, hd, ht⟩).not_clash hnot
  intro x hx hx'
  -- no call of the flush covers the shadow of this chunk
  have hcov : ∀ p ∈ s.poisons (s.allocInfosMap context device),
      p.covers (m.deviceType device) (memToShadow (m.deviceType device) x) = false := by
    intro p hp
    obtain ⟨e, he, hpe⟩ := List.mem_flatMap.mp hp
    obtain ⟨hlt, -, htarget⟩ := h.listed context device e he
    exact not_covers (h.laid e hlt).inChunk hc (h.canonical e hlt device htarget) (hclash e he) hpe hx hx'
  have hsame : s.brokenOff (m.deviceType device) (s.poisons (s.allocInfosMap context device)) done
      left (memToShadow (m.deviceType device) x) =
      s.shadow (m.deviceType device) (memToShadow (m.deviceType device) x) := by
    unfold brokenOff
    cases hp : (s.poisons (s.allocInfosMap context device))[done]? with
    | none => exact poisoned_eq hcov
    | some p =>
      simp only
      rw [hcov p (List.mem_of_getElem? hp)]
      exact poisoned_eq fun q hq => hcov q ((List.take_sublist _ _).subset hq)
  rw [hsame]
  exact hdec x hx hx'

/-- The list of the device is worked off, which decodes its chunks; other devices of its type share
the shadow. -/
theorem AsanInv.launch_success (h : AsanInv m s) :
    AsanInv m (s.updateShadowMemory m context device .success) := by
  refine ⟨fun c d id hid => ?_, h.mapped, h.quarantined, h.laid, h.canonical, h.heapLt,
    h.liveHeap, h.apart, fun id hl c d hshadow => ?_, fun id hl d hd hnot => ?_⟩
  · have hm : id ∈ if c = context ∧ d = device then [] else s.allocInfosMap c d := hid
    split at hm
    next => exact absurd hm List.not_mem_nil
    next => exact h.listed c d id hm
  · show Settled s.Clash id (if c = context ∧ d = device then [] else s.allocInfosMap c d)
    split
    next => exact trivial
    next => exact h.settled id hl c d hshadow
  · have hn : id ∉ if (s.infos id).context = context ∧ d = device then []
        else s.allocInfosMap (s.infos id).context d := hnot
    show Decodes (m.deviceType d) (update s.shadow (m.deviceType device) _
      (m.deviceType d)) (s.infos id)
    by_cases ht : m.deviceType d = m.deviceType device
    · rw [ht, update_self]
      refine h.flushed hl hd ht ?_
      by_cases hin : id ∈ s.allocInfosMap context device
      · exact .inl hin
      · right
        rw [← ht]
        refine h.decoded id hl d hd fun hm => ?_
        split at hn
        next he => exact hin (he.1 ▸ he.2 ▸ hm)
        next => exact hn hm
    · rw [update_of_ne ht]
      refine h.decoded id hl d hd fun hm => ?_
      rw [if_neg fun he => ht (by rw [he.2])] at hn
      exact hn hm

/-- The list stays whole, and its chunks wait for every device that shares the shadow. -/
theorem AsanInv.launch_failure (h : AsanInv m s) (hsafe : AllWaiting m s context device)
    (done : Nat) (left : Nat → UInt8) :
    AsanInv m (s.updateShadowMemory m context device (.failure done left)) := by
  refine ⟨h.listed, h.mapped, h.quarantined, h.laid, h.canonical, h.heapLt, h.liveHeap, h.apart,
    h.settled, fun id hl d hd hnot => ?_⟩
  show Decodes (m.deviceType d) (update s.shadow (m.deviceType device) _
    (m.deviceType d)) (s.infos id)
  have hdec := h.decoded id hl d hd hnot
  by_cases ht : m.deviceType d = m.deviceType device
  · rw [ht, update_self]
    rw [ht] at hdec
    refine h.brokenOff_decodes hl hd ht (fun hin => hnot ?_) hdec done left
    -- an entry of the broken list waits for this device too
    show id ∈ s.allocInfosMap (s.infos id).context d
    rw [(h.listed context device id hin).2.1]
    exact hsafe id hin hl.2 d hd ht
  · rw [update_of_ne ht]
    exact hdec

end Launch

/-! ## Runs -/

/-- **One call.** -/
theorem AsanCall.run_inv (h : AsanInv m s) (c : AsanCall) (hl : c.Legal m s) (hs : c.Safe m s) :
    AsanInv m (c.run m s) := by
  cases c with
  | allocateMemory r answer => exact h.allocateMemory hl hs
  | releaseMemory context address frees => exact h.releaseMemory context address frees
  | launch context device flush =>
    cases flush with
    | success => exact h.launch_success
    | failure done left => exact h.launch_failure hs done left

theorem asanReached_inv (h : AsanReached m (fun s c => c.Safe m s) s) : AsanInv m s := by
  induction h with
  | start infos shadow => exact AsanInv.start infos shadow
  | call c _ hl hs ih => exact c.run_inv ih hl hs

/-- A kernel of the context on the device sees the user memory of every live
allocation that the context has there, and nothing else of its chunk. -/
def ShadowAtLaunch (m : AsanSetup) (s : AsanState) : Prop :=
  ∀ context, ∀ device ∈ m.deviceList context, ∀ id, s.Live id → (s.infos id).context = context →
    device ∈ (s.infos id).targets m →
    Decodes (m.deviceType device)
      ((s.updateShadowMemory m context device .success).shadow (m.deviceType device)) (s.infos id)

/-- A released entry that waits for the memory of a live chunk, in a list that is
flushed to a shadow of this chunk, is followed by the entry of the chunk. -/
def StaleSettled (m : AsanSetup) (s : AsanState) : Prop :=
  ∀ id, s.Live id → ∀ context device,
    (∃ d ∈ (s.infos id).targets m, m.deviceType d = m.deviceType device) →
    ∀ before stale after, s.allocInfosMap context device = before ++ stale :: after →
      (s.infos stale).isReleased = true → s.Clash stale id → id ∈ after

/-- **The shadow at a launch.** In every state that safe calls reach. -/
theorem shadow_at_launch (h : AsanReached m (fun s c => c.Safe m s) s) :
    ShadowAtLaunch m s ∧ StaleSettled m s := by
  have hi := asanReached_inv h
  refine ⟨fun context device _ id hl hctx hd => ?_,
    fun id hl context device hshadow before stale after heq hrel hclash => ?_⟩
  · refine (hi.launch_success).decoded id hl device hd fun hm => ?_
    have hn : id ∈ if (s.infos id).context = context ∧ device = device then []
        else s.allocInfosMap (s.infos id).context device := hm
    rw [if_pos ⟨hctx, rfl⟩] at hn
    exact absurd hn List.not_mem_nil
  · have hs := hi.settled id hl context device hshadow
    rw [heq] at hs
    rcases hs.split hclash with rfl | hm
    · exact absurd (hl.2.symm.trans hrel) (by simp)
    · exact hm

/-- One CPU device in every context, no quarantine. -/
def oneCpu : AsanSetup where
  minRZSize := 16
  maxRZSize := 2048
  maxQuarantineSizeMB := 0
  deviceList := fun _ => [0]
  deviceType := fun _ => .cpu
  alignment := fun _ => 16
  alignment_pow := fun _ => ⟨4, rfl⟩

/-- Sixteen bytes of device USM. -/
def sixteenBytes (context : ContextId) : AllocRequest where
  context := context
  device := some 0
  align := 0
  size := 16
  type := .deviceUsm
  host := by simp

/-- Nothing is allocated, the shadow is zero. -/
def emptyAsan : AsanState := .start (fun _ => (sixteenBytes 0).info oneCpu 0) fun _ _ => 0

theorem sixteenBytes_fits (context : ContextId) : (sixteenBytes context).Fits oneCpu := by
  have hfits : ∀ c, ((sixteenBytes c).Fits oneCpu ↔ (sixteenBytes 0).Fits oneCpu) := fun _ => Iff.rfl
  rw [hfits]
  unfold AllocRequest.Fits
  decide +kernel

/-- A chunk at address 4096. -/
theorem sixteenBytes_memory {s : AsanState} (context : ContextId) (h : s.heap = []) :
    DriverMemory oneCpu s (sixteenBytes context) 4096 := by
  have hsize : (sixteenBytes context).neededSize oneCpu = 48 := by
    have hsame : (sixteenBytes context).neededSize oneCpu = (sixteenBytes 0).neededSize oneCpu := rfl
    rw [hsame]
    decide +kernel
  refine ⟨rfl, by rw [hsize]; norm_num, fun d _ => ?_, fun id hid => ?_⟩
  · show 4096 + (sixteenBytes context).neededSize oneCpu ≤ 2 ^ 47
    rw [hsize]
    norm_num
  · rw [h] at hid
    exact absurd hid List.not_mem_nil

/-- Two chunks are allocated, a launch poisons their redzones, and one of them is released. -/
theorem shadow_at_launch_released :
    ∃ s, AsanReached oneCpu (fun s c => c.Safe oneCpu s) s ∧ s.Live 1 ∧
      (s.infos 0).isReleased = true ∧ s.allocInfosMap 0 0 = [0] ∧
      ShadowAtLaunch oneCpu s ∧ StaleSettled oneCpu s := by
  have hlegal : (AsanCall.allocateMemory (sixteenBytes 0) (some 4096)).Legal oneCpu emptyAsan := by
    intro b hb
    obtain rfl := Option.some.inj hb
    exact sixteenBytes_memory 0 rfl
  have hsafe : (AsanCall.allocateMemory (sixteenBytes 0) (some 4096)).Safe oneCpu emptyAsan := by
    intro b _
    exact ⟨sixteenBytes_fits 0, fun _ _ _ _ id hid => absurd hid List.not_mem_nil⟩
  have hone : AsanReached oneCpu (fun s c => c.Safe oneCpu s) _ := .call _ (.start _ _) hlegal hsafe
  have htwo := AsanReached.call (.allocateMemory (sixteenBytes 0) (some 8192)) hone
    (fun b hb => by
      obtain rfl := Option.some.inj hb
      have hcanonical : 8192 + (sixteenBytes 0).neededSize oneCpu ≤ 2 ^ 47 := by decide +kernel
      exact ⟨rfl, by decide +kernel, fun _ _ => hcanonical, by decide +kernel⟩)
    (fun b hb => by
      obtain rfl := Option.some.inj hb
      refine ⟨sixteenBytes_fits 0, fun c d _ _ id hid => ?_⟩
      -- only the first chunk waits in a list, and it is elsewhere
      have hid : id ∈ if c = 0 then [] ++ List.replicate _ 0 else [] := hid
      obtain rfl : id = 0 := by
        split at hid
        · exact List.eq_of_mem_replicate hid
        · cases hid
      decide +kernel)
  have hdevice : 0 ∈ oneCpu.deviceList 0 := by decide
  have hlaunched := AsanReached.call (.launch 0 0 .success) htwo hdevice trivial
  have hreleased := AsanReached.call (.releaseMemory 0 4112 fun _ => true) hlaunched trivial trivial
  exact ⟨_, hreleased, ⟨by decide +kernel, by decide +kernel⟩, by decide +kernel, by decide +kernel,
    shadow_at_launch hreleased⟩

/-- Calls of any kind. -/
def anyAsanCall : AsanState → AsanCall → Prop := fun _ _ => True

/-- Context 0 allocates and releases, context 1 gets the same memory. -/
def handedOn : AsanState :=
  (((emptyAsan.allocateMemory oneCpu (sixteenBytes 0) (some 4096)).1.releaseMemory oneCpu 0 4112
    fun _ => true).allocateMemory oneCpu (sixteenBytes 1) (some 4096)).1

/-- Context 1 launches, and then context 0. -/
def flushedLate : AsanState :=
  (handedOn.updateShadowMemory oneCpu 1 0 .success).updateShadowMemory oneCpu 0 0 .success

/-- Not in every run. The entry of the released chunk waits in the list of
context 0 while context 1 already has the memory; the next launch of context 0
poisons it, and no launch of context 1 undoes that. -/
theorem shadow_stale_at_launch :
    (AsanReached oneCpu anyAsanCall handedOn ∧ ¬ StaleSettled oneCpu handedOn) ∧
    AsanReached oneCpu anyAsanCall flushedLate ∧ ¬ ShadowAtLaunch oneCpu flushedLate := by
  have hnew : AsanReached oneCpu anyAsanCall emptyAsan := .start _ _
  have halloc : ∀ {s : AsanState} (c : ContextId), s.heap = [] → AsanReached oneCpu anyAsanCall s →
      AsanReached oneCpu anyAsanCall
        (s.allocateMemory oneCpu (sixteenBytes c) (some 4096)).1 := by
    intro s c hheap hs
    refine .call (.allocateMemory (sixteenBytes c) (some 4096)) hs (fun b hb => ?_) trivial
    obtain rfl := Option.some.inj hb
    exact sixteenBytes_memory c hheap
  have hreleased := AsanReached.call (.releaseMemory 0 4112 fun _ => true) (halloc 0 rfl hnew)
    trivial trivial
  have hhanded : AsanReached oneCpu anyAsanCall handedOn :=
    halloc 1 (by decide +kernel) hreleased
  have hfirst := AsanReached.call (.launch 1 0 .success) hhanded (List.mem_singleton.mpr rfl) trivial
  have hlate : AsanReached oneCpu anyAsanCall flushedLate :=
    AsanReached.call (.launch 0 0 .success) hfirst (List.mem_singleton.mpr rfl) trivial
  have hlive : handedOn.Live 1 := ⟨by decide +kernel, by decide +kernel⟩
  refine ⟨⟨hhanded, fun hs => ?_⟩, hlate, fun hs => ?_⟩
  · have hmem : 1 ∈ ([] : List InfoId) := hs 1 hlive 0 0 ⟨0, List.mem_singleton.mpr rfl, rfl⟩
      [0] 0 [] (by decide +kernel) (by decide +kernel) (by unfold AsanState.Clash; decide +kernel)
    exact absurd hmem List.not_mem_nil
  · have hdec := hs 1 0 (List.mem_singleton.mpr rfl) 1 hlive (by decide +kernel)
      (List.mem_singleton.mpr rfl) 4112 (by decide +kernel) (by decide +kernel)
    exact absurd hdec (by decide +kernel)

end UnifiedRuntime.Sanitizer
