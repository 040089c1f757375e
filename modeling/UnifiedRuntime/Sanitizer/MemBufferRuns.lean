import UnifiedRuntime.Sanitizer.MemBufferCoherence

/-!
# Runs of a sanitizer buffer

A run creates a buffer and then asks for handles, writes through them, cuts
sub-buffers and releases the buffer, with any driver call failing at any time.
`Call.Safe` says, of the state a call meets, that it does not run into one of
the defects of `MemBuffer`:

- a device whose first copy from the host pointer failed keeps its memory, and
  a later call returns it without the data;
- a write through a handle that was returned for another device than the last
  one is lost at the next migration;
- `urMemRelease` frees the memory of a buffer that still has sub-buffers, and
  `LastSyncedDevice` keeps pointing to it;
- the sum that `urMemBufferPartition` checks wraps.

A failed allocation does no harm to later calls, but leaves a null pointer in
`Allocations`, which `free` releases.
-/

namespace UnifiedRuntime.Sanitizer

namespace MemBuffer

/-! ## Null pointers in `Allocations` -/

variable {s s' : MemBuffer} {key k : Option Device}

/-- An entry without memory. -/
def Null (s : MemBuffer) (k : Option Device) : Prop :=
  k ∈ s.allocations ∧ s.allocation k = none

theorem Fills.null_other (h : Fills key s s') (hk : k ≠ key) : s'.Null k ↔ s.Null k := by
  unfold Null
  rw [h.other k hk]
  exact and_congr_left' ⟨h.memOther k hk, h.mem k⟩

theorem not_null_of_allocation {b : Block} (hb : s.allocation k = some b) : ¬ s.Null k := by
  intro h
  exact absurd (hb.symm.trans h.2) (by simp)

theorem syncIf_null (device : Device) (handle : Block) (p : MemBuffer × Bool) :
    (syncIf device handle p).1.Null k ↔ p.1.Null k := by
  obtain ⟨s, done⟩ := p
  cases done with
  | false => exact Iff.rfl
  | true => exact Iff.rfl

/-- The call has to migrate data. -/
def migrating (s : MemBuffer) (device : Device) : Bool :=
  match s.lastSyncedDevice with
  | none => false
  | some (last, _) => device ≠ last

/-- The allocations that a call asks for, with the driver's answers. -/
def attempts (s : MemBuffer) (drv : BufferDriver) (device : Device) :
    List (Option Device × Option Contents) :=
  (if (s.allocation (some device)).isNone then [(some device, drv.allocate)] else []) ++
  (if ((s.touch (some device)).deviceAllocation drv device).2.isSome && s.migrating device &&
      (s.allocation none).isNone then [(none, drv.allocateHost)] else [])

/-- The keys whose last allocation failed, after one more attempt. -/
def note (unallocated : List (Option Device)) (a : Option Device × Option Contents) :
    List (Option Device) :=
  if a.2.isNone then a.1 :: unallocated else unallocated.filter (· ≠ a.1)

theorem mem_note (l : List (Option Device)) (a : Option Device × Option Contents) :
    k ∈ note l a ↔ if k = a.1 then a.2 = none else k ∈ l := by
  unfold note
  cases ha : a.2 with
  | none =>
    rw [if_pos Option.isNone_none]
    split
    next he => simp [he]
    next he => simp [he]
  | some found =>
    rw [if_neg (by simp)]
    split
    next he => simp [he]
    next he => simp [he]

/-- The rest of a call makes no entry, unless it migrates data. -/
theorem syncHandle_null (h : Owned s) (drv : BufferDriver) {device : Device} {handle : Block}
    (hat : s.allocation (some device) = some handle)
    (hlast : ∀ d b, s.lastSyncedDevice = some (d, b) → s.allocation (some d) = some b) :
    (s.syncHandle drv device handle).1.Null k ↔
      if k = none ∧ s.migrating device = true then
        s.allocation none = none ∧ drv.allocateHost = none
      else s.Null k := by
  unfold syncHandle migrating
  cases hl : s.lastSyncedDevice with
  | none =>
    rw [if_neg (by simp)]
    exact Iff.rfl
  | some p =>
    obtain ⟨last, memHandle⟩ := p
    simp only
    by_cases hd : device = last
    · rw [if_pos hd, if_neg (by simp [hd])]
      exact Iff.rfl
    · rw [if_neg hd]
      obtain ⟨s₁, hf, hg, hmem, hnull, -⟩ := migrate_spec h drv hat (hlast last memHandle hl)
      rw [syncIf_null]
      by_cases hk : k = none
      · subst hk
        rw [if_pos (by simp [hd]), hg.null_other (by simp), ← hnull]
        exact and_iff_right hmem
      · rw [if_neg (fun hn => hk hn.1)]
        by_cases hkd : k = some device
        · subst hkd
          have hat₂ := hg.kept _ _ (hf.kept _ _ hat)
          exact iff_of_false (not_null_of_allocation hat₂) (not_null_of_allocation hat)
        · exact (hg.null_other hkd).trans (hf.null_other hk)

/-- A call leaves a null entry where its last attempt to allocate failed. -/
theorem getHandle_null {latest : Nat → Option Byte} (h : Coherent s latest) (drv : BufferDriver)
    (device : Option Device) {unallocated : List (Option Device)}
    (hnull : ∀ k, k ∈ unallocated ↔ s.Null k) (k : Option Device) :
    k ∈ (s.attempts drv (s.target device)).foldl note unallocated ↔
      (s.getHandle drv device).1.Null k := by
  unfold getHandle attempts
  rw [List.foldl_append]
  cases hat : s.allocation (some (s.target device)) with
  | some handle =>
    have hda : s.deviceAllocation drv (s.target device) = (s, some handle) := by
      unfold deviceAllocation
      rw [hat]
    rw [touch_of_allocation hat, hda]
    rw [syncHandle_null h.owned drv hat fun d b hl => (h.synced d b hl).1]
    simp only [Option.isNone_some, Bool.false_eq_true, if_false, List.foldl_nil,
      Option.isSome_some, Bool.true_and, Bool.and_eq_true]
    split
    next hm =>
      rw [List.foldl_cons, List.foldl_nil, mem_note]
      by_cases hk : k = none
      · rw [if_pos hk, if_pos ⟨hk, hm.1⟩]
        simp [Option.isNone_iff_eq_none.mp hm.2]
      · rw [if_neg hk, if_neg fun hn => hk hn.1]
        exact hnull k
    next hm =>
      rw [List.foldl_nil, hnull k]
      split
      next hk =>
        obtain ⟨rfl, hmig⟩ := hk
        have hsome : s.allocation none ≠ none := fun hn => hm ⟨hmig, by rw [hn]; rfl⟩
        exact iff_of_false (fun hn => hsome hn.2) fun hn => hsome hn.1
      next => exact Iff.rfl
  | none =>
    have ht := touch_fills h.owned (some (s.target device))
    have hnone : (s.touch (some (s.target device))).allocation (some (s.target device)) = none :=
      (s.touch_allocation _ _).trans hat
    have hp := deviceAllocation_prepared ht.owned hnone drv
    have hkey : ∀ d b, s.lastSyncedDevice = some (d, b) → some d ≠ some (s.target device) := by
      intro d b hl he
      have hb := (h.synced d b hl).1
      rw [he, hat] at hb
      exact absurd hb (by simp)
    cases hd : (s.touch (some (s.target device))).deviceAllocation drv (s.target device) with
    | mk s₁ r =>
      rw [hd] at hp
      have hf := ht.trans hp.fills
      have h₁ := h.fills hf hkey
      have hmem : some (s.target device) ∈ s₁.allocations :=
        hp.fills.mem _ ((s.mem_touch _ _).mpr (.inr rfl))
      -- the first attempt decides on the entry of the device
      have hfirst : ∀ k, k ∈ note unallocated (some (s.target device), drv.allocate) ↔
          s₁.Null k := by
        intro k
        rw [mem_note]
        split
        next hk =>
          rw [hk, ← hp.null]
          exact (and_iff_right hmem).symm
        next hk => exact (hnull k).trans (hf.null_other hk).symm
      simp only [Option.isNone_none, if_true, List.foldl_cons, List.foldl_nil]
      cases r with
      | none =>
        exact hfirst k
      | some handle =>
        rw [syncHandle_null h₁.owned drv (hp.handle handle rfl)
          fun d b hl => (h₁.synced d b hl).1]
        have hmig : s₁.migrating (s.target device) = s.migrating (s.target device) := by
          unfold migrating
          rw [hf.lastSyncedDevice]
        have hhost : s₁.allocation none = s.allocation none := hf.other none (by simp)
        rw [hmig, hhost]
        simp only [Option.isSome_some, Bool.true_and, Bool.and_eq_true]
        split
        next hm =>
          rw [List.foldl_cons, List.foldl_nil, mem_note]
          by_cases hk : k = none
          · rw [if_pos hk, if_pos ⟨hk, hm.1⟩]
            simp [Option.isNone_iff_eq_none.mp hm.2]
          · rw [if_neg hk, if_neg fun hn => hk hn.1]
            exact hfirst k
        next hm =>
          rw [List.foldl_nil, hfirst k]
          split
          next hk =>
            obtain ⟨rfl, hmig'⟩ := hk
            have hsome : s.allocation none ≠ none := fun hn => hm ⟨hmig', by rw [hn]; rfl⟩
            refine iff_of_false (fun hn => hsome ?_) fun hn => hsome hn.1
            exact hhost.symm.trans hn.2
          next => exact Iff.rfl

/-! ## `free` -/

theorem passed_sublist (releases : Option Block → Bool) :
    ∀ l : List (Option Block), (passed releases l).Sublist l
  | [] => .slnil
  | ptr :: rest => by
    unfold passed
    split
    next => exact (passed_sublist releases rest).cons_cons ptr
    next => exact (List.nil_sublist rest).cons_cons ptr

theorem mem_pointers (s : MemBuffer) (ptr : Option Block) :
    ptr ∈ s.pointers ↔ ∃ k ∈ s.allocations, s.allocation k = ptr := by
  unfold pointers
  rw [List.mem_map]
  constructor
  · intro h
    obtain ⟨⟨k, p⟩, hmem, rfl⟩ := h
    have hl := AList.mem_lookup_iff.mpr hmem
    refine ⟨k, AList.lookup_isSome.mp (Option.isSome_of_mem hl), ?_⟩
    unfold allocation
    rw [Option.mem_def.mp hl]
    rfl
  · intro h
    obtain ⟨k, hk, rfl⟩ := h
    obtain ⟨p, hp⟩ := Option.isSome_iff_exists.mp (AList.lookup_isSome.mpr hk)
    refine ⟨⟨k, p⟩, AList.mem_lookup_iff.mp hp, ?_⟩
    unfold allocation
    rw [hp]
    rfl

/-- No pointer stands twice in a map without null pointers. -/
theorem pointers_nodup (h : Owned s) (hnull : ∀ k, ¬ s.Null k) : s.pointers.Nodup := by
  have hentries : s.allocations.entries.Nodup :=
    List.Nodup.of_map Sigma.fst s.allocations.nodupKeys
  refine hentries.map_on fun x hx y hy hxy => ?_
  have hat : ∀ e ∈ s.allocations.entries, e.1 ∈ s.allocations ∧ s.allocation e.1 = e.2 := by
    intro e he
    have hl := AList.mem_lookup_iff.mpr he
    refine ⟨AList.lookup_isSome.mp (Option.isSome_of_mem hl), ?_⟩
    unfold allocation
    rw [Option.mem_def.mp hl]
    rfl
  obtain ⟨hmx, hax⟩ := hat x hx
  have hay := (hat y hy).2
  cases hp : x.2 with
  | none => exact absurd ⟨hmx, hax.trans hp⟩ (hnull x.1)
  | some b =>
    have hkey := h.inj x.1 y.1 b (hax.trans hp) (hay.trans (hxy.symm.trans hp))
    exact Sigma.ext hkey (heq_of_eq hxy)

/-- A pointer that `free` may release. -/
def Releasable (s : MemBuffer) (ptr : Option Block) : Prop :=
  ∃ b ∈ s.live, ptr = some b

/-- `free` releases blocks of the buffer, each once. -/
def FreesOwn (s : MemBuffer) : Prop :=
  ∀ releases, (passed releases s.pointers).Nodup ∧
    ∀ ptr ∈ passed releases s.pointers, s.Releasable ptr

theorem freesOwn_iff (h : Owned s) : s.FreesOwn ↔ ∀ k, ¬ s.Null k := by
  constructor
  · intro hf k hk
    -- with every release succeeding, all pointers are passed
    have hall : ∀ l : List (Option Block), passed (fun _ => true) l = l := by
      intro l
      induction l with
      | nil => rfl
      | cons ptr rest ih =>
        unfold passed
        rw [if_pos rfl, ih]
    have hmem := (s.mem_pointers none).mpr ⟨k, hk.1, hk.2⟩
    rw [← hall s.pointers] at hmem
    obtain ⟨b, -, hb⟩ := (hf _).2 none hmem
    exact absurd hb (by simp)
  · intro hnull releases
    have hsub := passed_sublist releases s.pointers
    refine ⟨(pointers_nodup h hnull).sublist hsub, fun ptr hptr => ?_⟩
    obtain ⟨k, hk, rfl⟩ := (s.mem_pointers ptr).mp (hsub.subset hptr)
    cases hb : s.allocation k with
    | none => exact absurd ⟨hk, hb⟩ (hnull k)
    | some b => exact ⟨b, h.live k b hb, rfl⟩

/-- A write into a block. -/
def store (s : MemBuffer) (b : Block) (w : Nat → Option Byte) : MemBuffer :=
  { s with memory := Function.update s.memory b (overlay w (s.memory b)) }

/-- A write through the handle of the last synced device. -/
theorem Coherent.store {latest : Nat → Option Byte} (h : Coherent s latest) {d : Device}
    {b : Block} (hl : s.lastSyncedDevice = some (d, b)) (w : Nat → Option Byte) :
    Coherent (s.store b w) (overwrite w latest) := by
  refine ⟨⟨h.owned.lt, h.owned.live, h.owned.inj⟩, fun hn => ?_, fun d' b' hd => ?_⟩
  · exact absurd (hl.symm.trans hn) (by simp)
  · obtain ⟨rfl, rfl⟩ := Prod.mk.inj (Option.some.inj (hl.symm.trans hd))
    obtain ⟨hat, hold⟩ := h.synced d b hl
    refine ⟨hat, ?_⟩
    show Holds s.cells _ (Function.update s.memory b (overlay w (s.memory b)) b)
    rw [Function.update_self]
    exact hold.overlay w

end MemBuffer

/-! ## Sub-buffers -/

/-- A handle of a sub-buffer points to where it begins. -/
theorem MemHandle.getHandle_eq (drv : BufferDriver) (device : Option Device) (s : MemBuffer) :
    ∀ mem : MemHandle, mem.getHandle drv device s =
      ((s.getHandle drv device).1, (s.getHandle drv device).2.map fun b => ⟨b, mem.start⟩)
  | .buffer _ => by
    unfold MemHandle.getHandle
    cases s.getHandle drv device with
    | mk s₁ r => cases r <;> rfl
  | .subBuffer parent origin _ => by
    unfold MemHandle.getHandle
    rw [getHandle_eq drv device s parent]
    cases (s.getHandle drv device).2 <;> rfl

/-! ## Runs -/

/-- The buffer with what its user knows of it. `returned` are the handles the
calls have returned, `latest` the last byte written to each cell, `unallocated`
the keys whose last allocation failed. -/
structure Session where
  buffer : MemBuffer
  handles : List MemHandle
  returned : List (MemHandle × Ptr)
  latest : Nat → Option Byte
  unallocated : List (Option Device)

/-- A write relative to a handle, of at most `size` bytes, as a write of the
whole. -/
def placed (start size : Nat) (w : Nat → Option Byte) : Nat → Option Byte :=
  fun i => if start ≤ i ∧ i < start + size then w (i - start) else none

inductive Call where
  | urMemBufferPartition (parent : MemHandle) (origin size : Nat)
  | getHandle (mem : MemHandle) (device : Option Device) (drv : BufferDriver)
  | write (mem : MemHandle) (ptr : Ptr) (w : Nat → Option Byte)
  | urMemRetain
  | urMemRelease (releases : Option Block → Bool)

namespace Session

/-- A new buffer. -/
def new (context : BufferContext) (size : Nat) (hostPtr : Option Contents)
    (memory : Block → Contents) : Session where
  buffer := .new context size hostPtr memory
  handles := [.buffer size]
  returned := []
  latest := (MemBuffer.new context size hostPtr memory).initial
  unallocated := []

def urMemBufferPartition (σ : Session) (parent : MemHandle) (origin size : Nat) : Session :=
  match parent.urMemBufferPartition origin size with
  | none => σ
  | some sub => { σ with handles := sub :: σ.handles }

def getHandle (σ : Session) (mem : MemHandle) (device : Option Device) (drv : BufferDriver) :
    Session where
  buffer := (mem.getHandle drv device σ.buffer).1
  handles := σ.handles
  returned := ((mem.getHandle drv device σ.buffer).2.map (mem, ·)).toList ++ σ.returned
  latest := σ.latest
  unallocated :=
    (σ.buffer.attempts drv (σ.buffer.target device)).foldl MemBuffer.note σ.unallocated

def write (σ : Session) (mem : MemHandle) (ptr : Ptr) (w : Nat → Option Byte) : Session :=
  { σ with
    buffer := σ.buffer.store ptr.block (placed ptr.offset mem.size w)
    latest := overwrite (placed mem.start mem.size w) σ.latest }

def urMemRetain (σ : Session) : Session :=
  { σ with buffer := { σ.buffer with refCount := σ.buffer.refCount + 1 } }

/-- `urMemRelease` of the buffer. The last one frees its memory and, when that
succeeds, erases its handle. -/
def urMemRelease (σ : Session) (releases : Option Block → Bool) : Session :=
  let buffer := { σ.buffer with refCount := σ.buffer.refCount - 1 }
  if buffer.refCount ≠ 0 then { σ with buffer := buffer }
  else
    { σ with
      buffer := buffer.free releases
      handles :=
        if buffer.pointers.all releases then σ.handles.filter (· ≠ .buffer buffer.size)
        else σ.handles }

end Session

def Call.run (σ : Session) : Call → Session
  | .urMemBufferPartition parent origin size => σ.urMemBufferPartition parent origin size
  | .getHandle mem device drv => σ.getHandle mem device drv
  | .write mem ptr w => σ.write mem ptr w
  | .urMemRetain => σ.urMemRetain
  | .urMemRelease releases => σ.urMemRelease releases

/-- The calls a user may make: on handles that exist, and writes through handles
that were returned. -/
def Call.Legal (σ : Session) : Call → Prop
  | .urMemBufferPartition parent _ _ => parent ∈ σ.handles
  | .getHandle mem _ _ => mem ∈ σ.handles
  | .write mem ptr _ => (mem, ptr) ∈ σ.returned
  | .urMemRetain => 0 < σ.buffer.refCount
  | .urMemRelease _ => 0 < σ.buffer.refCount

/-- The calls that meet no defect. -/
def Call.Safe (σ : Session) : Call → Prop
  | .urMemBufferPartition _ origin size => origin + size < 2 ^ 64
  | .getHandle _ device _ =>
    0 < σ.buffer.refCount ∧ σ.buffer.Untouched (σ.buffer.target device)
  | .write _ ptr _ =>
    0 < σ.buffer.refCount ∧ ∃ d, σ.buffer.lastSyncedDevice = some (d, ptr.block)
  | .urMemRetain => True
  | .urMemRelease _ => True

/-- The sessions that calls of a kind reach. -/
inductive SessionReached (Kind : Session → Call → Prop) : Session → Prop where
  | new (context : BufferContext) (size : Nat) (hostPtr : Option Contents)
      (memory : Block → Contents) : SessionReached Kind (.new context size hostPtr memory)
  | call {σ : Session} (c : Call) : SessionReached Kind σ → c.Legal σ → Kind σ c →
      SessionReached Kind (c.run σ)

/-- What holds of every session that safe calls reach. -/
structure SessionInv (σ : Session) : Prop where
  coherent : 0 < σ.buffer.refCount → σ.buffer.Coherent σ.latest
  null : 0 < σ.buffer.refCount → ∀ k, k ∈ σ.unallocated ↔ σ.buffer.Null k
  inside : ∀ mem ∈ σ.handles, mem.start + mem.size ≤ σ.buffer.size
  returned : ∀ r ∈ σ.returned, r.2.offset = r.1.start

theorem SessionInv.new (context : BufferContext) (size : Nat) (hostPtr : Option Contents)
    (memory : Block → Contents) : SessionInv (.new context size hostPtr memory) := by
  refine ⟨fun _ => ⟨⟨?_, ?_, ?_⟩, fun _ => rfl, fun _ _ hl => absurd hl (by simp [Session.new,
    MemBuffer.new])⟩, fun _ k => ⟨fun hk => absurd hk List.not_mem_nil, fun hk => ?_⟩,
    fun mem hm => ?_, fun _ hr => absurd hr List.not_mem_nil⟩
  · intro k b hb
    exact absurd hb (by simp [MemBuffer.allocation, Session.new, MemBuffer.new])
  · intro k b hb
    exact absurd hb (by simp [MemBuffer.allocation, Session.new, MemBuffer.new])
  · intro k k' b hb
    exact absurd hb (by simp [MemBuffer.allocation, Session.new, MemBuffer.new])
  · exact absurd hk.1 (AList.notMem_empty k)
  · obtain rfl := List.mem_singleton.mp hm
    exact Nat.le_of_eq (Nat.zero_add size)

variable {σ : Session}

theorem SessionInv.urMemBufferPartition (h : SessionInv σ) {parent : MemHandle} {origin size : Nat}
    (hp : parent ∈ σ.handles) (hsafe : origin + size < 2 ^ 64) :
    SessionInv (σ.urMemBufferPartition parent origin size) := by
  unfold Session.urMemBufferPartition MemHandle.urMemBufferPartition
  split
  next => exact h
  next sub heq =>
    split at heq
    next => exact absurd heq (by simp)
    next hle =>
      obtain rfl := Option.some.inj heq
      refine ⟨h.coherent, h.null, fun mem hm => ?_, h.returned⟩
      rcases List.mem_cons.mp hm with rfl | hm
      · have hin := h.inside parent hp
        show parent.start + origin + size ≤ σ.buffer.size
        omega
      · exact h.inside mem hm

/-- What a call gives, in a session that safe calls reach. -/
theorem SessionInv.obtained (h : SessionInv σ) (device : Option Device) (drv : BufferDriver)
    (hsafe : 0 < σ.buffer.refCount ∧ σ.buffer.Untouched (σ.buffer.target device)) :
    MemBuffer.Obtained σ.latest (σ.buffer.target device) σ.buffer
      (σ.buffer.getHandle drv device).1 (σ.buffer.getHandle drv device).2 :=
  MemBuffer.getHandle_obtained (h.coherent hsafe.1) drv device hsafe.2

theorem SessionInv.getHandle (h : SessionInv σ) (mem : MemHandle) {device : Option Device}
    (drv : BufferDriver)
    (hsafe : 0 < σ.buffer.refCount ∧ σ.buffer.Untouched (σ.buffer.target device)) :
    SessionInv (σ.getHandle mem device drv) := by
  have ho := h.obtained device drv hsafe
  unfold Session.getHandle
  rw [MemHandle.getHandle_eq]
  refine ⟨fun _ => ho.coherent, fun _ k => ?_, fun m hm => ?_, fun r hr => ?_⟩
  · exact MemBuffer.getHandle_null (h.coherent hsafe.1) drv device (h.null hsafe.1) k
  · rw [ho.size]
    exact h.inside m hm
  · rcases List.mem_append.mp hr with hr | hr
    · obtain ⟨ptr, hptr, rfl⟩ := Option.mem_map.mp (Option.mem_toList.mp hr)
      obtain ⟨b, -, rfl⟩ := Option.mem_map.mp hptr
      rfl
    · exact h.returned r hr

theorem SessionInv.write (h : SessionInv σ) {mem : MemHandle} {ptr : Ptr}
    (hr : (mem, ptr) ∈ σ.returned) (w : Nat → Option Byte)
    (hsafe : 0 < σ.buffer.refCount ∧ ∃ d, σ.buffer.lastSyncedDevice = some (d, ptr.block)) :
    SessionInv (σ.write mem ptr w) := by
  obtain ⟨hpos, d, hl⟩ := hsafe
  have hoff : ptr.offset = mem.start := h.returned _ hr
  refine ⟨fun _ => ?_, h.null, h.inside, h.returned⟩
  show MemBuffer.Coherent (σ.buffer.store ptr.block (placed ptr.offset mem.size w))
    (overwrite (placed mem.start mem.size w) σ.latest)
  rw [hoff]
  exact (h.coherent hpos).store hl _

/-- The count of references says nothing about the memory. -/
theorem MemBuffer.Coherent.setRefCount {s : MemBuffer} {latest : Nat → Option Byte}
    (h : s.Coherent latest) (n : Nat) : { s with refCount := n }.Coherent latest :=
  ⟨⟨h.owned.lt, h.owned.live, h.owned.inj⟩, h.unsynced, h.synced⟩

theorem free_fields (s : MemBuffer) (releases : Option Block → Bool) :
    (s.free releases).refCount = s.refCount ∧ (s.free releases).size = s.size := by
  unfold MemBuffer.free
  split
  next => exact ⟨rfl, rfl⟩
  next => exact ⟨rfl, rfl⟩

theorem SessionInv.urMemRelease (h : SessionInv σ) (hpos : 0 < σ.buffer.refCount)
    (releases : Option Block → Bool) : SessionInv (σ.urMemRelease releases) := by
  unfold Session.urMemRelease
  simp only
  split
  next =>
    exact ⟨fun _ => (h.coherent hpos).setRefCount _, fun _ => h.null hpos, h.inside, h.returned⟩
  next hzero =>
    have hf := free_fields { σ.buffer with refCount := σ.buffer.refCount - 1 } releases
    -- nothing is said of a buffer that was freed
    have hdead : ∀ {P : Prop},
        0 < ({ σ.buffer with refCount := σ.buffer.refCount - 1 }.free releases).refCount → P := by
      intro P hp
      rw [hf.1] at hp
      exact absurd (Nat.pos_iff_ne_zero.mp hp) hzero
    refine ⟨hdead, hdead, fun mem hm => ?_, h.returned⟩
    rw [hf.2]
    refine h.inside mem ?_
    split at hm
    next => exact (List.mem_filter.mp hm).1
    next => exact hm

/-- **One call.** -/
theorem Call.run_inv (h : SessionInv σ) (c : Call) (hl : c.Legal σ) (hs : c.Safe σ) :
    SessionInv (c.run σ) := by
  cases c with
  | urMemBufferPartition parent origin size => exact h.urMemBufferPartition hl hs
  | getHandle mem device drv => exact h.getHandle mem drv hs
  | write mem ptr w => exact h.write hl w hs
  | urMemRetain =>
    exact ⟨fun _ => (h.coherent hl).setRefCount _, fun _ => h.null hl, h.inside, h.returned⟩
  | urMemRelease releases => exact h.urMemRelease hl releases

theorem sessionReached_inv (h : SessionReached (fun σ c => c.Safe σ) σ) : SessionInv σ := by
  induction h with
  | new context size hostPtr memory => exact SessionInv.new context size hostPtr memory
  | call c _ hl hs ih => exact c.run_inv ih hl hs

/-- A handle to an allocation of the buffer with the bytes written last, or those
of the host pointer where nothing was written. -/
structure Served (latest : Nat → Option Byte) (mem : MemHandle) (s : MemBuffer) (ptr : Ptr) :
    Prop where
  allocated : ptr.block ∈ s.live
  inside : ptr.offset + mem.size ≤ s.size
  contents : ∀ i, i < mem.size → ∀ v, latest (mem.start + i) = some v →
    s.memory ptr.block (ptr.offset + i) = v

/-- Every handle a call returns next is served. -/
def ServesLatest (σ : Session) (Kind : Session → Call → Prop) : Prop :=
  ∀ mem ∈ σ.handles, ∀ device drv, Kind σ (.getHandle mem device drv) →
    ∀ s ptr, mem.getHandle drv device σ.buffer = (s, some ptr) → Served σ.latest mem s ptr

theorem SessionInv.serves (h : SessionInv σ) : ServesLatest σ fun σ c => c.Safe σ := by
  intro mem hm device drv hsafe s ptr heq
  have ho := h.obtained device drv hsafe
  rw [MemHandle.getHandle_eq] at heq
  obtain ⟨rfl, hptr⟩ := Prod.mk.inj heq
  obtain ⟨b, hb, rfl⟩ := Option.map_eq_some_iff.mp hptr
  obtain ⟨hat, hold⟩ := ho.coherent.synced _ b (ho.handle b hb)
  have hin := h.inside mem hm
  have hsize := ho.size
  refine ⟨ho.coherent.owned.live _ b hat, ?_, fun i hi v hv => ?_⟩
  · show mem.start + mem.size ≤ _
    rw [hsize]
    exact hin
  · refine hold (mem.start + i) ?_ v hv
    show mem.start + i < _
    omega

/-- **Coherence of a sanitizer buffer.** In every session that safe calls reach,
the next safe `getHandle` returns an allocation with the latest writes, whatever
failed before. `free` passes to `releaseMemory` only blocks of the buffer, each
once, exactly when no device and not the host is left with a failed allocation. -/
theorem memBuffer_coherent (h : SessionReached (fun σ c => c.Safe σ) σ) :
    ServesLatest σ (fun σ c => c.Safe σ) ∧
    (0 < σ.buffer.refCount → (σ.buffer.FreesOwn ↔ σ.unallocated = [])) := by
  have hi := sessionReached_inv h
  refine ⟨hi.serves, fun hpos => ?_⟩
  rw [MemBuffer.freesOwn_iff (hi.coherent hpos).owned, List.eq_nil_iff_forall_not_mem]
  exact forall_congr' fun k => not_congr (hi.null hpos k).symm

/-- Every call succeeds; a new allocation is filled with zeros. -/
def obligingDriver : BufferDriver where
  allocate := some fun _ => 0
  copyHostPtr := .success
  allocateHost := some fun _ => 0
  copyToHost := .success
  copyToDevice := .success

/-- The copy from the host pointer fails. -/
def failingCopy : BufferDriver := { obligingDriver with copyHostPtr := .failure fun _ => 0 }

/-- There is no memory for the device. -/
def failingAllocation : BufferDriver := { obligingDriver with allocate := none }

def twoDeviceContext : BufferContext := ⟨[0, 1], by simp⟩

/-- A buffer of one byte over a host pointer to the byte 7. -/
def overHostPtr : Session := .new twoDeviceContext 1 (some fun _ => 7) fun _ _ => 0

/-- A first allocation that fails, and a call that gets the byte of the host. -/
theorem memBuffer_coherent_retry :
    ∃ σ, SessionReached (fun σ c => c.Safe σ) σ ∧ σ.latest 0 = some 7 ∧
      ServesLatest σ (fun σ c => c.Safe σ) := by
  have hnew : SessionReached (fun σ c => c.Safe σ) overHostPtr := .new _ _ _ _
  have hrun := SessionReached.call (.getHandle (.buffer 1) (some 0) failingAllocation) hnew
    (List.mem_singleton.mpr rfl) ⟨Nat.one_pos, fun _ _ => rfl⟩
  exact ⟨_, hrun, rfl, (memBuffer_coherent hrun).1⟩

/-- Calls of any kind. -/
def anyCall : Session → Call → Prop := fun _ _ => True

/-- Not every run is coherent. When the first copy from the host pointer fails,
the next call for the same device returns memory without the byte of the host;
and after an allocation that failed, `free` releases a null pointer. -/
theorem memBuffer_incoherent :
    (∃ σ, SessionReached anyCall σ ∧ ¬ ServesLatest σ anyCall) ∧
    ∃ σ, SessionReached anyCall σ ∧ 0 < σ.buffer.refCount ∧ ¬ σ.buffer.FreesOwn := by
  have hnew : SessionReached anyCall overHostPtr := .new _ _ _ _
  have hmem : MemHandle.buffer 1 ∈ overHostPtr.handles := List.mem_singleton.mpr rfl
  have hcopy := SessionReached.call (.getHandle (.buffer 1) (some 0) failingCopy) hnew hmem trivial
  have halloc := SessionReached.call (.getHandle (.buffer 1) (some 0) failingAllocation) hnew hmem
    trivial
  refine ⟨⟨_, hcopy, fun hs => ?_⟩, ⟨_, halloc, Nat.one_pos, fun hf => ?_⟩⟩
  · have hserved := hs (.buffer 1) hmem (some 0) obligingDriver trivial _ ⟨0, 0⟩ rfl
    exact absurd (hserved.contents 0 Nat.one_pos 7 rfl) (by decide)
  · obtain ⟨b, -, hb⟩ := (hf fun _ => true).2 none (by decide)
    exact absurd hb (by simp)

end UnifiedRuntime.Sanitizer
