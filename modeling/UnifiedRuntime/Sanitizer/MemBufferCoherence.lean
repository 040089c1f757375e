import UnifiedRuntime.Sanitizer.MemBuffer

/-!
# Coherence of a sanitizer buffer

What every driver call of `getHandle` does to the allocations, whether it
succeeds or fails: it makes or fills the memory of one key and leaves the memory
of every other key alone (`Fills`). A buffer is `Coherent` when the last synced
device has the latest writes; a call keeps that, and returns memory that has
them.
-/

namespace UnifiedRuntime.Sanitizer

namespace MemBuffer

variable {s s' s'' : MemBuffer} {key key' : Option Device} {b : Block}

/-- Every pointer of the map is a block of its own that was not released. -/
structure Owned (s : MemBuffer) : Prop where
  lt : ∀ k b, s.allocation k = some b → b < s.next
  live : ∀ k b, s.allocation k = some b → b ∈ s.live
  inj : ∀ k k' b, s.allocation k = some b → s.allocation k' = some b → k = k'

/-- At most the memory of `key` was made or filled. -/
structure Fills (key : Option Device) (s s' : MemBuffer) : Prop where
  context : s'.context = s.context
  size : s'.size = s.size
  hostPtr : s'.hostPtr = s.hostPtr
  lastSyncedDevice : s'.lastSyncedDevice = s.lastSyncedDevice
  refCount : s'.refCount = s.refCount
  kept : ∀ k b, s.allocation k = some b → s'.allocation k = some b
  other : ∀ k, k ≠ key → s'.allocation k = s.allocation k
  memory : ∀ k b, k ≠ key → s.allocation k = some b → s'.memory b = s.memory b
  mem : ∀ k, k ∈ s.allocations → k ∈ s'.allocations
  memOther : ∀ k, k ≠ key → k ∈ s'.allocations → k ∈ s.allocations
  owned : Owned s'

theorem Fills.refl (h : Owned s) : Fills key s s :=
  ⟨rfl, rfl, rfl, rfl, rfl, fun _ _ hb => hb, fun _ _ => rfl, fun _ _ _ _ => rfl,
    fun _ hk => hk, fun _ _ hk => hk, h⟩

theorem Fills.trans (h : Fills key s s') (h' : Fills key s' s'') : Fills key s s'' where
  context := h'.context.trans h.context
  size := h'.size.trans h.size
  hostPtr := h'.hostPtr.trans h.hostPtr
  lastSyncedDevice := h'.lastSyncedDevice.trans h.lastSyncedDevice
  refCount := h'.refCount.trans h.refCount
  kept := fun k b hb => h'.kept k b (h.kept k b hb)
  other := fun k hk => (h'.other k hk).trans (h.other k hk)
  memory := fun k b hk hb => (h'.memory k b hk (h.kept k b hb)).trans (h.memory k b hk hb)
  mem := fun k hk => h'.mem k (h.mem k hk)
  memOther := fun k hk hm => h.memOther k hk (h'.memOther k hk hm)
  owned := h'.owned

theorem allocation_insert (s : MemBuffer) (key k : Option Device) (ptr : Option Block) :
    ((s.allocations.insert key ptr).lookup k).join =
      if k = key then ptr else s.allocation k := by
  split
  next h =>
    subst h
    rw [AList.lookup_insert]
    rfl
  next h =>
    rw [AList.lookup_insert_ne h]
    rfl

/-- An entry that is made is null, as one that is missing is read. -/
theorem touch_allocation (s : MemBuffer) (key k : Option Device) :
    (s.touch key).allocation k = s.allocation k := by
  unfold touch
  split
  next => rfl
  next h =>
    show ((s.allocations.insert key none).lookup k).join = _
    rw [allocation_insert]
    split
    next hk =>
      subst hk
      unfold allocation
      rw [AList.lookup_eq_none.mpr h]
      rfl
    next => rfl

theorem mem_touch (s : MemBuffer) (key k : Option Device) :
    k ∈ (s.touch key).allocations ↔ k ∈ s.allocations ∨ k = key := by
  unfold touch
  split
  next h =>
    refine ⟨.inl, fun hk => hk.elim id fun he => he ▸ h⟩
  next => exact (AList.mem_insert _).trans or_comm

theorem touch_fields (s : MemBuffer) (key : Option Device) :
    (s.touch key).context = s.context ∧ (s.touch key).size = s.size ∧
    (s.touch key).hostPtr = s.hostPtr ∧
    (s.touch key).lastSyncedDevice = s.lastSyncedDevice ∧
    (s.touch key).refCount = s.refCount ∧ (s.touch key).memory = s.memory ∧
    (s.touch key).next = s.next ∧ (s.touch key).live = s.live := by
  unfold touch
  split
  next => exact ⟨rfl, rfl, rfl, rfl, rfl, rfl, rfl, rfl⟩
  next => exact ⟨rfl, rfl, rfl, rfl, rfl, rfl, rfl, rfl⟩

theorem touch_fills (h : Owned s) (key : Option Device) : Fills key s (s.touch key) := by
  obtain ⟨hc, hs, hh, hl, hr, hm, hn, hlive⟩ := s.touch_fields key
  refine ⟨hc, hs, hh, hl, hr, fun k b hb => ?_, fun k _ => s.touch_allocation key k,
    fun k b _ _ => by rw [hm], fun k hk => (s.mem_touch key k).mpr (.inl hk), fun k hne hk => ?_,
    ⟨fun k b hb => ?_, fun k b hb => ?_, fun k k' b hb hb' => ?_⟩⟩
  · rw [touch_allocation]
    exact hb
  · exact ((s.mem_touch key k).mp hk).resolve_right hne
  · rw [touch_allocation] at hb
    rw [hn]
    exact h.lt k b hb
  · rw [touch_allocation] at hb
    rw [hlive]
    exact h.live k b hb
  · rw [touch_allocation] at hb hb'
    exact h.inj k k' b hb hb'

/-- An allocation that succeeds is a fresh block, and nobody else's. -/
theorem allocateMemory_some (h : Owned s) (hkey : s.allocation key = none) (found : Contents) :
    ∃ s₁, s.allocateMemory key (some found) = (s₁, some s.next) ∧ Fills key s s₁ ∧
      s₁.allocation key = some s.next := by
  refine ⟨_, rfl, ?_, ?_⟩
  · refine ⟨rfl, rfl, rfl, rfl, rfl, fun k b hb => ?_, fun k hk => ?_, fun k b hk hb => ?_,
      fun k hk => (AList.mem_insert _).mpr (.inr hk),
      fun k hne hk => ((AList.mem_insert _).mp hk).resolve_left hne, ⟨fun k b hb => ?_, fun k b hb => ?_, fun k k' b hb hb' => ?_⟩⟩
    · refine (allocation_insert s key k (some s.next)).trans ?_
      rw [if_neg fun he => by rw [he, hkey] at hb; exact absurd hb (by simp)]
      exact hb
    · exact (allocation_insert s key k (some s.next)).trans (if_neg hk)
    · have hlt := h.lt k b hb
      exact Function.update_of_ne (Nat.ne_of_lt hlt) _ _
    · have hb' := (allocation_insert s key k (some s.next)).symm.trans hb
      show b < s.next + 1
      split at hb'
      next => exact Option.some.inj hb' ▸ Nat.lt_succ_self s.next
      next => exact Nat.lt_succ_of_lt (h.lt k b hb')
    · have hb' := (allocation_insert s key k (some s.next)).symm.trans hb
      show b ∈ s.next :: s.live
      split at hb'
      next => exact List.mem_cons.mpr (.inl (Option.some.inj hb').symm)
      next => exact List.mem_cons_of_mem _ (h.live k b hb')
    · have h₁ := (allocation_insert s key k (some s.next)).symm.trans hb
      have h₂ := (allocation_insert s key k' (some s.next)).symm.trans hb'
      -- the new block is above every other one
      split at h₁ <;> split at h₂
      next hk hk' => exact hk.trans hk'.symm
      next => exact absurd (Option.some.inj h₁).symm (Nat.ne_of_lt (h.lt k' b h₂))
      next => exact absurd (Option.some.inj h₂).symm (Nat.ne_of_lt (h.lt k b h₁))
      next => exact h.inj k k' b h₁ h₂
  · exact (allocation_insert s key key (some s.next)).trans (if_pos rfl)

/-- A copy fills the block of its key, also when it fails. -/
theorem enqueueUSMMemcpy_fills (h : Owned s) (hb : s.allocation key = some b) (src : Contents)
    (c : Copied) : Fills key s (s.enqueueUSMMemcpy b src c).1 := by
  have hframe : ∀ left : Contents,
      Fills key s { s with memory := Function.update s.memory b left } := by
    intro left
    refine ⟨rfl, rfl, rfl, rfl, rfl, fun _ _ hk => hk, fun _ _ => rfl, fun k b' hk hb' => ?_,
      fun _ hk => hk, fun _ _ hk => hk, ⟨h.lt, h.live, h.inj⟩⟩
    refine Function.update_of_ne (fun he => hk ?_) _ _
    exact h.inj k key b (he ▸ hb') hb
  cases c with
  | success => exact hframe _
  | failure left => exact hframe left

/-- A copy that succeeds copies the whole buffer. -/
theorem enqueueUSMMemcpy_true {src : Contents} {c : Copied}
    (h : s.enqueueUSMMemcpy b src c = (s', true)) :
    ∀ i, i < s.size → s'.memory b i = src i := by
  cases c with
  | failure left => exact absurd (congrArg Prod.snd h) (by simp [enqueueUSMMemcpy])
  | success =>
    intro i hi
    rw [show s' = _ from (congrArg Prod.fst h).symm]
    show Function.update s.memory b (copied s.size src (s.memory b)) b i = src i
    rw [Function.update_self]
    exact if_pos hi

/-- The outcome of `deviceAllocation` where the device has no memory yet. -/
structure Prepared (drv : BufferDriver) (device : Device) (s s' : MemBuffer)
    (r : Option Block) : Prop where
  fills : Fills (some device) s s'
  handle : ∀ b, r = some b → s'.allocation (some device) = some b
  filled : ∀ b, r = some b → Holds s'.cells s'.initial (s'.memory b)
  null : s'.allocation (some device) = none ↔ drv.allocate = none

theorem holds_initial_none (hh : s.hostPtr = none) (content : Contents) :
    Holds s.cells s.initial content := by
  unfold initial
  rw [hh]
  exact holds_unwritten

theorem deviceAllocation_prepared (h : Owned s) {device : Device}
    (hnone : s.allocation (some device) = none) (drv : BufferDriver) :
    Prepared drv device s (s.deviceAllocation drv device).1 (s.deviceAllocation drv device).2 := by
  unfold deviceAllocation
  rw [hnone]
  cases hd : drv.allocate with
  | none =>
    refine ⟨.refl h,
      fun _ hb => absurd hb (by simp [allocateMemory]),
      fun _ hb => absurd hb (by simp [allocateMemory]), ⟨fun _ => hd, fun _ => hnone⟩⟩
  | some found =>
    obtain ⟨s₁, heq, hf, hat⟩ := allocateMemory_some h hnone found
    simp only [heq]
    cases hh : s₁.hostPtr with
    | none =>
      refine ⟨hf, fun b hb => hb ▸ hat, fun b _ => holds_initial_none hh _, ?_⟩
      simp [hat, hd]
    | some host =>
      have hc := enqueueUSMMemcpy_fills hf.owned hat host drv.copyHostPtr
      simp only
      cases hcopy : s₁.enqueueUSMMemcpy s.next host drv.copyHostPtr with
      | mk s₂ done =>
        rw [hcopy] at hc
        have hat₂ : s₂.allocation (some device) = some s.next := hc.kept _ _ hat
        have hnull : s₂.allocation (some device) = none ↔ drv.allocate = none := by
          simp [hat₂, hd]
        cases done with
        | false =>
          exact ⟨hf.trans hc, fun _ hb => absurd hb (by simp), fun _ hb => absurd hb (by simp),
            hnull⟩
        | true =>
          refine ⟨hf.trans hc, fun b hb => hb ▸ hat₂, fun b hb => ?_, hnull⟩
          obtain rfl := Option.some.inj hb
          intro i hi v hv
          have hsize : i < s₁.size := hc.size ▸ hi
          rw [enqueueUSMMemcpy_true hcopy i hsize]
          unfold initial at hv
          rw [hc.hostPtr, hh] at hv
          exact Option.some.inj hv

/-- The outcome of `hostAllocation`: memory of the host, which stays where it
was. -/
theorem hostAllocation_fills (h : Owned s) (drv : BufferDriver) :
    Fills none s (s.hostAllocation drv).1 ∧
    (∀ b, (s.hostAllocation drv).2 = some b → (s.hostAllocation drv).1.allocation none = some b) ∧
    ((s.hostAllocation drv).1.allocation none = none ↔
      s.allocation none = none ∧ drv.allocateHost = none) := by
  unfold hostAllocation
  cases hn : s.allocation none with
  | some block =>
    refine ⟨.refl h, fun b hb => hb ▸ hn, ?_⟩
    simp [hn]
  | none =>
    cases hd : drv.allocateHost with
    | none =>
      refine ⟨.refl h, fun b hb => absurd hb (by simp [allocateMemory]), ?_⟩
      simp [allocateMemory, hn]
    | some found =>
      obtain ⟨s₁, heq, hf, hat⟩ := allocateMemory_some h hn found
      simp only [heq]
      refine ⟨hf, fun b hb => hb ▸ hat, ?_⟩
      simp [hat]

/-- A migration fills the memory of the host and then that of the device. Where
it succeeds, the device has what the last synced one has. -/
theorem migrate_spec (h : Owned s) (drv : BufferDriver) {device last : Device}
    {handle memHandle : Block}
    (hhandle : s.allocation (some device) = some handle)
    (hlast : s.allocation (some last) = some memHandle) :
    ∃ s₁, Fills none s s₁ ∧ Fills (some device) s₁ (s.migrate drv memHandle handle).1 ∧
      none ∈ s₁.allocations ∧ (s₁.allocation none = none ↔ s.allocation none = none ∧ drv.allocateHost = none) ∧
      ((s.migrate drv memHandle handle).2 = true → ∀ i, i < s.size →
        (s.migrate drv memHandle handle).1.memory handle i = s.memory memHandle i) := by
  have ht := touch_fills h none
  have hnull : (s.touch none).allocation none = s.allocation none := touch_allocation s none none
  have hmem : none ∈ (s.touch none).allocations := (s.mem_touch none none).mpr (.inr rfl)
  obtain ⟨hf, hat, hiff⟩ := hostAllocation_fills ht.owned drv
  rw [hnull] at hiff
  unfold migrate
  cases hhost : (s.touch none).hostAllocation drv with
  | mk s₁ r =>
    rw [hhost] at hf hat hiff
    have hs₁ := ht.trans hf
    -- what the copy to the device may read and write, whatever happens before
    have hh₁ : s₁.allocation (some device) = some handle := hs₁.kept _ _ hhandle
    cases r with
    | none => exact ⟨s₁, hs₁, .refl hs₁.owned, hf.mem none hmem, hiff, fun hb => absurd hb (by simp)⟩
    | some host =>
      have hn₁ : s₁.allocation none = some host := hat host rfl
      have hc := enqueueUSMMemcpy_fills hs₁.owned hn₁ (s₁.memory memHandle) drv.copyToHost
      simp only
      cases hcopy : s₁.enqueueUSMMemcpy host (s₁.memory memHandle) drv.copyToHost with
      | mk s₂ done =>
        rw [hcopy] at hc
        have hs₂ := hs₁.trans hc
        have hn₂ : s₂.allocation none = some host := hc.kept _ _ hn₁
        have hh₂ : s₂.allocation (some device) = some handle := hc.kept _ _ hh₁
        have hmem₂ : none ∈ s₂.allocations := hc.mem none (hf.mem none hmem)
        have hiff₂ : s₂.allocation none = none ↔ s.allocation none = none ∧
            drv.allocateHost = none := by
          rw [← hiff, hn₂, hn₁]
        cases done with
        | false =>
          exact ⟨s₂, hs₂, .refl hs₂.owned, hmem₂, hiff₂, fun hb => absurd hb (by simp)⟩
        | true =>
          refine ⟨s₂, hs₂, enqueueUSMMemcpy_fills hs₂.owned hh₂ _ _, hmem₂, hiff₂, fun hdone i hi => ?_⟩
          have hend : s₂.enqueueUSMMemcpy handle (s₂.memory host) drv.copyToDevice =
              ((s₂.enqueueUSMMemcpy handle (s₂.memory host) drv.copyToDevice).1, true) :=
            Prod.ext rfl hdone
          have hi₁ : i < s₁.size := hs₁.size ▸ hi
          have hi₂ : i < s₂.size := hs₂.size ▸ hi
          calc (s₂.enqueueUSMMemcpy handle (s₂.memory host) drv.copyToDevice).1.memory handle i
              = s₂.memory host i := enqueueUSMMemcpy_true hend i hi₂
            _ = s₁.memory memHandle i := enqueueUSMMemcpy_true hcopy i hi₁
            _ = s.memory memHandle i := by rw [hs₁.memory (some last) memHandle (by simp) hlast]

/-- The last synced device has the latest writes. While none was synced,
nothing was written. -/
structure Coherent (s : MemBuffer) (latest : Nat → Option Byte) : Prop where
  owned : Owned s
  unsynced : s.lastSyncedDevice = none → latest = s.initial
  synced : ∀ d b, s.lastSyncedDevice = some (d, b) →
    s.allocation (some d) = some b ∧ Holds s.cells latest (s.memory b)

variable {latest : Nat → Option Byte}

theorem Fills.initial (h : Fills key s s') : s'.initial = s.initial := by
  unfold MemBuffer.initial
  rw [h.hostPtr]

theorem Fills.cells (h : Fills key s s') : s'.cells = s.cells := by
  unfold MemBuffer.cells
  rw [h.size]

/-- Memory of a device that is not the last synced one may change. -/
theorem Coherent.fills (h : Coherent s latest) (hf : Fills key s s')
    (hkey : ∀ d b, s.lastSyncedDevice = some (d, b) → some d ≠ key) : Coherent s' latest := by
  refine ⟨hf.owned, fun hn => ?_, fun d b hd => ?_⟩
  · rw [hf.lastSyncedDevice] at hn
    rw [hf.initial]
    exact h.unsynced hn
  · rw [hf.lastSyncedDevice] at hd
    obtain ⟨hat, hold⟩ := h.synced d b hd
    refine ⟨hf.kept _ _ hat, ?_⟩
    rw [hf.cells, hf.memory (some d) b (hkey d b hd) hat]
    exact hold

/-- A device with the latest writes becomes the last synced one. -/
theorem Coherent.sync (h : Coherent s latest) {device : Device}
    (hat : s.allocation (some device) = some b) (hold : Holds s.cells latest (s.memory b)) :
    Coherent (s.sync device b).1 latest := by
  refine ⟨⟨h.owned.lt, h.owned.live, h.owned.inj⟩, fun hn => absurd hn (by simp [MemBuffer.sync]),
    fun d b' hd => ?_⟩
  obtain ⟨rfl, rfl⟩ := Prod.mk.inj (Option.some.inj hd)
  exact ⟨hat, hold⟩

/-- The outcome of a call for a device. -/
structure Obtained (latest : Nat → Option Byte) (device : Device) (s s' : MemBuffer)
    (r : Option Block) : Prop where
  coherent : Coherent s' latest
  context : s'.context = s.context
  size : s'.size = s.size
  hostPtr : s'.hostPtr = s.hostPtr
  refCount : s'.refCount = s.refCount
  handle : ∀ b, r = some b → s'.lastSyncedDevice = some (device, b)

/-- The last part of a call, where the device has memory. -/
theorem syncHandle_obtained (h : Coherent s latest) (drv : BufferDriver) {device : Device}
    {handle : Block} (hat : s.allocation (some device) = some handle)
    (hfresh : s.lastSyncedDevice = none → Holds s.cells latest (s.memory handle)) :
    Obtained latest device s (s.syncHandle drv device handle).1
      (s.syncHandle drv device handle).2 := by
  have hsync : ∀ {s₁ : MemBuffer}, Coherent s₁ latest → s₁.context = s.context →
      s₁.size = s.size → s₁.hostPtr = s.hostPtr → s₁.refCount = s.refCount →
      s₁.allocation (some device) = some handle → Holds s₁.cells latest (s₁.memory handle) →
      Obtained latest device s (s₁.sync device handle).1 (s₁.sync device handle).2 := by
    intro s₁ h₁ hc hs hh hr hat₁ hold
    refine ⟨h₁.sync hat₁ hold, hc, hs, hh, hr, fun b hb => ?_⟩
    exact congrArg some (congrArg (Prod.mk device) (Option.some.inj hb))
  unfold syncHandle
  cases hl : s.lastSyncedDevice with
  | none => exact hsync h rfl rfl rfl rfl hat (hfresh hl)
  | some p =>
    obtain ⟨last, memHandle⟩ := p
    obtain ⟨hlast, hold⟩ := h.synced last memHandle hl
    simp only
    split
    next he =>
      subst he
      obtain rfl := Option.some.inj (hat.symm.trans hlast)
      exact hsync h rfl rfl rfl rfl hat hold
    next hne =>
      obtain ⟨s₁, hf, hg, -, -, hcopy⟩ := migrate_spec h.owned drv hat hlast
      have hkey : ∀ d b, s.lastSyncedDevice = some (d, b) → some d ≠ none := by
        intro d b _
        simp
      have h₁ := h.fills hf hkey
      cases hm : s.migrate drv memHandle handle with
      | mk s₂ done =>
        rw [hm] at hg hcopy
        have h₂ : Coherent s₂ latest := by
          refine h₁.fills hg fun d b hd => ?_
          rw [hf.lastSyncedDevice, hl] at hd
          obtain ⟨rfl, -⟩ := Prod.mk.inj (Option.some.inj hd)
          exact fun he => hne (Option.some.inj he).symm
        have hc := hg.context.trans hf.context
        have hs := hg.size.trans hf.size
        have hh := hg.hostPtr.trans hf.hostPtr
        have hr := hg.refCount.trans hf.refCount
        cases done with
        | false => exact ⟨h₂, hc, hs, hh, hr, fun _ hb => absurd hb (by simp [syncIf])⟩
        | true =>
          refine hsync h₂ hc hs hh hr (hg.kept _ _ (hf.kept _ _ hat)) ?_
          rw [hg.cells, hf.cells]
          exact hold.mono fun i hi => hcopy rfl i hi

/-- The calls that do not take up a device whose copy from the host pointer
failed: while no device was synced, the device has no memory yet. -/
def Untouched (s : MemBuffer) (device : Device) : Prop :=
  s.lastSyncedDevice = none → s.hostPtr ≠ none → s.allocation (some device) = none

theorem touch_of_allocation (hb : s.allocation key = some b) : s.touch key = s := by
  refine if_pos ?_
  by_contra hn
  unfold allocation at hb
  rw [AList.lookup_eq_none.mpr hn] at hb
  exact absurd hb (by simp)

/-- **One call.** Whether it succeeds or fails, the buffer stays coherent, and
the block it returns is the one of the last synced device. -/
theorem getHandle_obtained (h : Coherent s latest) (drv : BufferDriver) (device : Option Device)
    (hu : s.Untouched (s.target device)) :
    Obtained latest (s.target device) s (s.getHandle drv device).1 (s.getHandle drv device).2 := by
  unfold getHandle
  cases hat : s.allocation (some (s.target device)) with
  | some handle =>
    rw [touch_of_allocation hat]
    unfold deviceAllocation
    rw [hat]
    refine syncHandle_obtained h drv hat fun hn => ?_
    have hhost : s.hostPtr = none := by
      by_contra hne
      exact absurd (hat.symm.trans (hu hn hne)) (by simp)
    rw [h.unsynced hn]
    exact holds_initial_none hhost _
  | none =>
    have ht := touch_fills h.owned (some (s.target device))
    have hnone : (s.touch (some (s.target device))).allocation (some (s.target device)) = none :=
      (s.touch_allocation _ _).trans hat
    have hp := deviceAllocation_prepared ht.owned hnone drv
    cases hd : (s.touch (some (s.target device))).deviceAllocation drv (s.target device) with
    | mk s₁ r =>
      rw [hd] at hp
      have hf := ht.trans hp.fills
      -- the last synced device has memory, so it is another one
      have hkey : ∀ d b, s.lastSyncedDevice = some (d, b) → some d ≠ some (s.target device) := by
        intro d b hl he
        have hb := (h.synced d b hl).1
        rw [he, hat] at hb
        exact absurd hb (by simp)
      have h₁ := h.fills hf hkey
      cases r with
      | none =>
        exact ⟨h₁, hf.context, hf.size, hf.hostPtr, hf.refCount, fun _ hb => absurd hb (by simp)⟩
      | some handle =>
        have ho := syncHandle_obtained h₁ drv (hp.handle handle rfl) fun hn => by
          rw [h₁.unsynced hn]
          exact hp.filled handle rfl
        exact ⟨ho.coherent, ho.context.trans hf.context, ho.size.trans hf.size,
          ho.hostPtr.trans hf.hostPtr, ho.refCount.trans hf.refCount, ho.handle⟩

end MemBuffer

end UnifiedRuntime.Sanitizer
