import UnifiedRuntime.LevelZero.Buffer

/-!
# The end of a buffer of the Level Zero adapter

`urMemRelease` frees the allocations of a buffer one after another, in the order
in which the map yields them. Where the buffer stands for a native pointer of the
caller, an allocation that goes back to the pool is first copied to that pointer;
one that was made without the pool is not. A failure ends the loop, and
`urMemRelease` does not look at what the loop returned.

`visited` and `finalSource` say beforehand how far the loop comes and which memory
the native pointer ends up with. Main results: `free_events` (what is copied and
freed, in order), `free_native` (the contents of the native pointer).
-/

namespace UnifiedRuntime.LevelZero

open BufferState

/-- How a call that frees memory ends. With indirect accesses tracked a kernel may
still refer to the memory, which is then freed later. -/
inductive FreeAnswer where
  | freed
  | deferred
  | failed
  deriving DecidableEq

/-- What the driver and the pool answer `free`, for each allocation. -/
structure ReleaseDriver where
  /-- `zeCommandListAppendMemoryCopy` to the native pointer. -/
  copyBack : Option Device → Bool
  /-- `USMFreeHelper`. -/
  usmFree : Option Device → FreeAnswer
  /-- `ZeMemFreeHelper`. -/
  memFree : Option Device → FreeAnswer

/-- What happens to memory while a buffer is released. -/
inductive ReleaseEvent where
  | copied (dst src : ZeHandle)
  | freed (h : ZeHandle)

/-- A buffer being released, with the events so far. -/
structure Releasing where
  state : BufferState
  events : List ReleaseEvent

namespace Releasing

/-- `ZeHandle = nullptr; this->isFreed = true`. -/
def forget (r : Releasing) (k : Option Device) : Releasing :=
  { r with state :=
      { r.state.setAllocation k { r.state.allocations k with zeHandle := none } with
        isFreed := true } }

/-- The copy to `DeviceMappedHostNativePtr`, where that is set. -/
def copyBack (r : Releasing) (native : Option ZeHandle) (h : ZeHandle) : Releasing :=
  match native with
  | none => r
  | some p => ⟨r.state.copyAll p h, r.events ++ [.copied p h]⟩

/-- A call that frees memory; the flag says whether the loop goes on. -/
def freeMemory (r : Releasing) (k : Option Device) (h : ZeHandle) : FreeAnswer → Releasing × Bool
  | .freed => (forget { r with events := r.events ++ [.freed h] } k, true)
  | .deferred => (r.forget k, true)
  | .failed => (r, false)

/-- One turn of the loop of `_ur_buffer::free`. -/
def freeAllocation (drv : ReleaseDriver) (native : Option ZeHandle) (r : Releasing)
    (k : Option Device) : Releasing × Bool :=
  match (r.state.allocations k).zeHandle with
  -- the real allocation wasn't made
  | none => (r, true)
  | some h =>
    match (r.state.allocations k).releaseAction with
    | .keep => (r.forget k, true)
    | .free =>
      if native.isSome && !drv.copyBack k then (r, false)
      else (r.copyBack native h).freeMemory k h (drv.usmFree k)
    | .freeNative => r.freeMemory k h (drv.memFree k)
    | .unimport => (r.forget k, true)

/-- `_ur_buffer::free`, over the allocations in the order of the map. -/
def free (drv : ReleaseDriver) (native : Option ZeHandle) : List (Option Device) → Releasing →
    Releasing × Bool
  | [], r => (r, true)
  | k :: ks, r =>
    match r.freeAllocation drv native k with
    | (r, false) => (r, false)
    | (r, true) => free drv native ks r

end Releasing

/-- The last `urMemRelease` of a buffer. -/
def urMemRelease (drv : ReleaseDriver) (native : Option ZeHandle) (order : List (Option Device))
    (s : BufferState) : Releasing :=
  (Releasing.free drv native order ⟨s, []⟩).1

/-! ## What the loop does, said beforehand -/

/-- The contents of this allocation are copied to the native pointer, if its turn comes. -/
def copiesBack (drv : ReleaseDriver) (s : BufferState) (k : Option Device) : Bool :=
  (s.allocations k).zeHandle.isSome && (s.allocations k).releaseAction == .free && drv.copyBack k

/-- The loop goes on after this allocation. -/
def passes (drv : ReleaseDriver) (s : BufferState) (k : Option Device) : Bool :=
  match (s.allocations k).zeHandle, (s.allocations k).releaseAction with
  | none, _ => true
  | some _, .free => drv.copyBack k && drv.usmFree k != .failed
  | some _, .freeNative => drv.memFree k != .failed
  | some _, .keep => true
  | some _, .unimport => true

/-- The allocations whose turn comes: up to the first that ends the loop. -/
def visited (drv : ReleaseDriver) (s : BufferState) (order : List (Option Device)) :
    List (Option Device) :=
  order.take ((order.takeWhile (passes drv s)).length + 1)

/-- The memory whose contents the native pointer has in the end: that of the last
allocation copied to it, or its own. -/
def finalSource (drv : ReleaseDriver) (s : BufferState) (native : ZeHandle)
    (order : List (Option Device)) : ZeHandle :=
  (((visited drv s order).filter (copiesBack drv s)).getLast?.bind
    fun k => (s.allocations k).zeHandle).getD native

/-- What happens at the turn of one allocation. -/
def allocationEvents (drv : ReleaseDriver) (native : ZeHandle) (s : BufferState)
    (k : Option Device) : List ReleaseEvent :=
  match (s.allocations k).zeHandle, (s.allocations k).releaseAction with
  | none, _ => []
  | some h, .free =>
    if drv.copyBack k then
      .copied native h :: (if drv.usmFree k = .freed then [.freed h] else [])
    else []
  | some h, .freeNative => if drv.memFree k = .freed then [.freed h] else []
  | some _, .keep => []
  | some _, .unimport => []

theorem visited_cons (drv : ReleaseDriver) (s : BufferState) (k : Option Device)
    (ks : List (Option Device)) :
    visited drv s (k :: ks) = if passes drv s k then k :: visited drv s ks else [k] := by
  unfold visited
  rw [List.takeWhile_cons]
  split
  next => rw [List.length_cons, List.take_succ_cons]
  next => rfl

/-- The source with one more allocation in front: it counts only if nothing is
copied after it. -/
theorem finalSource_cons (drv : ReleaseDriver) (s : BufferState) (native : ZeHandle)
    (k : Option Device) (ks : List (Option Device)) :
    finalSource drv s native (k :: ks) =
      if passes drv s k then
        finalSource drv s
          (if copiesBack drv s k then (s.allocations k).zeHandle.getD native else native) ks
      else if copiesBack drv s k then (s.allocations k).zeHandle.getD native else native := by
  unfold finalSource
  rw [visited_cons]
  by_cases hp : passes drv s k = true
  · rw [if_pos hp, List.filter_cons]
    split
    next hc =>
      rw [List.getLast?_cons]
      cases hl : ((visited drv s ks).filter (copiesBack drv s)).getLast? with
      | none => rfl
      | some k' =>
        -- a later copy: its allocation has memory, so the default does not matter
        have hmem := List.mem_of_getLast? hl
        have hcopies := (List.mem_filter.mp hmem).2
        unfold copiesBack at hcopies
        cases hh : (s.allocations k').zeHandle with
        | none => simp [hh] at hcopies
        | some h => simp [hh]
    next hc => rfl
  · rw [if_neg hp, if_neg hp]
    by_cases hc : copiesBack drv s k = true
    · simp [hc]
    · simp [hc]

/-! ## The loop -/

/-- `r` is in the middle of the loop over `s`: the allocations still to come are as
they were, and so is all memory but that of the native pointer. -/
structure Midway (s : BufferState) (p : ZeHandle) (ks : List (Option Device)) (r : Releasing) :
    Prop where
  size : r.state.size = s.size
  allocations : ∀ k ∈ ks, r.state.allocations k = s.allocations k
  memory : ∀ h, h ≠ p → r.state.memory h = s.memory h

/-- The native memory is not an allocation of the pool. -/
def PoolApart (s : BufferState) (p : ZeHandle) : Prop :=
  ∀ k h, (s.allocations k).zeHandle = some h → (s.allocations k).releaseAction = .free → h ≠ p

/-- What one turn of the loop leaves. -/
structure Turn (drv : ReleaseDriver) (s : BufferState) (p : ZeHandle) (k : Option Device)
    (r : Releasing) (res : Releasing × Bool) : Prop where
  goesOn : res.2 = passes drv s k
  events : res.1.events = r.events ++ allocationEvents drv p s k
  size : res.1.state.size = r.state.size
  allocations : ∀ k', k' ≠ k → res.1.state.allocations k' = r.state.allocations k'
  memory : ∀ h, h ≠ p → res.1.state.memory h = r.state.memory h
  native : ∀ i, i < r.state.size → res.1.state.memory p i =
    r.state.memory (if copiesBack drv s k then (s.allocations k).zeHandle.getD p else p) i

theorem forget_allocations (r : Releasing) {k k' : Option Device} (h : k' ≠ k) :
    (r.forget k).state.allocations k' = r.state.allocations k' :=
  Function.update_of_ne h ..

theorem copyBack_memory_ne (r : Releasing) {p h h' : ZeHandle} (hne : h' ≠ p) :
    (r.copyBack (some p) h).state.memory h' = r.state.memory h' :=
  Function.update_of_ne hne ..

theorem copyBack_memory_self (r : Releasing) (p h : ZeHandle) {i : Nat} (hi : i < r.state.size) :
    (r.copyBack (some p) h).state.memory p i = r.state.memory h i := by
  show Function.update r.state.memory p _ p i = _
  rw [Function.update_self]
  unfold overlay
  dsimp only
  rw [if_pos hi]
  rfl

/-- A turn that copies nothing and frees `h`, or tries to. -/
theorem freeMemory_turn {drv : ReleaseDriver} {s : BufferState} {p : ZeHandle}
    {k : Option Device} {r : Releasing} {h : ZeHandle} {ans : FreeAnswer}
    (hpasses : passes drv s k = (ans != .failed))
    (hevents : allocationEvents drv p s k = if ans = .freed then [.freed h] else [])
    (hcopies : copiesBack drv s k = false) : Turn drv s p k r (r.freeMemory k h ans) := by
  cases ans with
  | freed =>
    refine ⟨hpasses.symm, ?_, rfl, fun k' hne => forget_allocations _ hne, fun _ _ => rfl, ?_⟩
    · rw [hevents]
      rfl
    · intro i hi
      rw [hcopies]
      rfl
  | deferred =>
    refine ⟨hpasses.symm, ?_, rfl, fun k' hne => forget_allocations _ hne, fun _ _ => rfl, ?_⟩
    · rw [hevents]
      exact (List.append_nil _).symm
    · intro i hi
      rw [hcopies]
      rfl
  | failed =>
    refine ⟨hpasses.symm, ?_, rfl, fun _ _ => rfl, fun _ _ => rfl, ?_⟩
    · rw [hevents]
      exact (List.append_nil _).symm
    · intro i hi
      rw [hcopies]
      rfl

/-- **One turn.** -/
theorem freeAllocation_turn (drv : ReleaseDriver) {s : BufferState} {p : ZeHandle}
    {k : Option Device} {r : Releasing} (hk : r.state.allocations k = s.allocations k) :
    Turn drv s p k r (r.freeAllocation drv (some p) k) := by
  unfold Releasing.freeAllocation
  rw [hk]
  cases hh : (s.allocations k).zeHandle with
  | none =>
    have hcopies : copiesBack drv s k = false := by simp [copiesBack, hh]
    refine ⟨by simp [passes, hh], by simp [allocationEvents, hh], rfl, fun _ _ => rfl,
      fun _ _ => rfl, ?_⟩
    intro i hi
    rw [hcopies]
    rfl
  | some h =>
    cases ha : (s.allocations k).releaseAction with
    | keep =>
      have hcopies : copiesBack drv s k = false := by simp [copiesBack, ha]
      refine ⟨by simp [passes, hh, ha], by simp [allocationEvents, hh, ha, Releasing.forget], rfl,
        fun k' hne => forget_allocations _ hne, fun _ _ => rfl, ?_⟩
      intro i hi
      rw [hcopies]
      rfl
    | unimport =>
      have hcopies : copiesBack drv s k = false := by simp [copiesBack, ha]
      refine ⟨by simp [passes, hh, ha], by simp [allocationEvents, hh, ha, Releasing.forget], rfl,
        fun k' hne => forget_allocations _ hne, fun _ _ => rfl, ?_⟩
      intro i hi
      rw [hcopies]
      rfl
    | freeNative =>
      exact freeMemory_turn (by simp [passes, hh, ha]) (by simp [allocationEvents, hh, ha])
        (by simp [copiesBack, ha])
    | free =>
      cases hcopy : drv.copyBack k with
      | false =>
        -- the copy fails, and with it the loop
        have hcopies : copiesBack drv s k = false := by simp [copiesBack, hcopy]
        refine ⟨by simp [passes, hh, ha, hcopy], by simp [allocationEvents, hh, ha, hcopy], rfl,
          fun _ _ => rfl, fun _ _ => rfl, ?_⟩
        intro i hi
        rw [hcopies]
        rfl
      | true =>
        have hcopies : copiesBack drv s k = true := by simp [copiesBack, hh, ha, hcopy]
        have hnative : ∀ i, i < r.state.size → (r.copyBack (some p) h).state.memory p i =
            r.state.memory (if copiesBack drv s k then (some h).getD p else p) i := by
          intro i hi
          rw [hcopies]
          exact copyBack_memory_self r p h hi
        have hmemory : ∀ h', h' ≠ p →
            (r.copyBack (some p) h).state.memory h' = r.state.memory h' :=
          fun h' hne => copyBack_memory_ne r hne
        show Turn drv s p k r ((r.copyBack (some p) h).freeMemory k h (drv.usmFree k))
        rw [← hh] at hnative
        cases hfree : drv.usmFree k with
        | freed =>
          refine ⟨by simp [passes, hh, ha, hcopy, hfree, Releasing.freeMemory], ?_, rfl,
            fun k' hne => forget_allocations _ hne, hmemory, hnative⟩
          simp [allocationEvents, hh, ha, hcopy, hfree, Releasing.freeMemory, Releasing.forget,
            Releasing.copyBack]
        | deferred =>
          refine ⟨by simp [passes, hh, ha, hcopy, hfree, Releasing.freeMemory], ?_, rfl,
            fun k' hne => forget_allocations _ hne, hmemory, hnative⟩
          simp [allocationEvents, hh, ha, hcopy, hfree, Releasing.freeMemory, Releasing.forget,
            Releasing.copyBack]
        | failed =>
          refine ⟨by simp [passes, hh, ha, hfree, Releasing.freeMemory], ?_, rfl,
            fun _ _ => rfl, hmemory, hnative⟩
          simp [allocationEvents, hh, ha, hcopy, hfree, Releasing.freeMemory, Releasing.copyBack]

/-- The loop over allocations that are still as they were in `s`: its events, and
the contents of the native pointer if they are those of `src` so far. -/
theorem free_spec (drv : ReleaseDriver) (s : BufferState) (p : ZeHandle)
    (hapart : PoolApart s p) (ks : List (Option Device)) :
    ∀ (r : Releasing) (src : ZeHandle), ks.Nodup → Midway s p ks r →
      (∀ i, i < s.size → r.state.memory p i = s.memory src i) →
      (r.free drv (some p) ks).1.events =
          r.events ++ (visited drv s ks).flatMap (allocationEvents drv p s) ∧
        ∀ i, i < s.size →
          (r.free drv (some p) ks).1.state.memory p i = s.memory (finalSource drv s src ks) i := by
  induction ks with
  | nil =>
    intro r src _ _ hsrc
    exact ⟨(List.append_nil _).symm, hsrc⟩
  | cons k ks ih =>
    intro r src hnodup hmid hsrc
    obtain ⟨hk, hks⟩ := List.nodup_cons.mp hnodup
    have hturn := freeAllocation_turn drv (p := p) (hmid.allocations k (List.mem_cons_self ..))
    have hsrc' : ∀ i, i < s.size → (r.freeAllocation drv (some p) k).1.state.memory p i =
        s.memory (if copiesBack drv s k then (s.allocations k).zeHandle.getD src else src) i := by
      intro i hi
      rw [hturn.native i (by rw [hmid.size]; exact hi)]
      split
      next hc =>
        -- a pool allocation is not the native memory
        unfold copiesBack at hc
        cases hh : (s.allocations k).zeHandle with
        | none => simp [hh] at hc
        | some h =>
          have ha : (s.allocations k).releaseAction = .free := by
            simp only [hh, Option.isSome_some, Bool.true_and, Bool.and_eq_true, beq_iff_eq] at hc
            exact hc.1
          show r.state.memory h i = s.memory h i
          rw [hmid.memory h (hapart k h hh ha)]
      next => exact hsrc i hi
    rw [visited_cons, finalSource_cons]
    cases hres : r.freeAllocation drv (some p) k with
    | mk r₁ goesOn =>
      rw [hres] at hturn hsrc'
      have hgoes : goesOn = passes drv s k := hturn.goesOn
      cases goesOn with
      | false =>
        rw [← hgoes, if_neg Bool.false_ne_true]
        unfold Releasing.free
        rw [hres]
        refine ⟨?_, hsrc'⟩
        rw [List.flatMap_cons, List.flatMap_nil, List.append_nil]
        exact hturn.events
      | true =>
        have hmid₁ : Midway s p ks r₁ := by
          refine ⟨hturn.size.trans hmid.size, fun k' hk' => ?_, fun h hne => ?_⟩
          · have hne : k' ≠ k := fun he => hk (he ▸ hk')
            exact (hturn.allocations k' hne).trans
              (hmid.allocations k' (List.mem_cons_of_mem _ hk'))
          · exact (hturn.memory h hne).trans (hmid.memory h hne)
        obtain ⟨hevents, hmemory⟩ := ih r₁ _ hks hmid₁ hsrc'
        rw [← hgoes, if_pos rfl]
        unfold Releasing.free
        rw [hres]
        refine ⟨?_, hmemory⟩
        show (r₁.free drv (some p) ks).1.events = _
        rw [hevents, hturn.events, List.flatMap_cons, List.append_assoc]

/-- **The events of a release**, allocation by allocation. -/
theorem free_events (drv : ReleaseDriver) {s : BufferState} {p : ZeHandle}
    (hapart : PoolApart s p) {order : List (Option Device)} (hnodup : order.Nodup) :
    (urMemRelease drv (some p) order s).events =
      (visited drv s order).flatMap (allocationEvents drv p s) := by
  have hmid : Midway s p order ⟨s, []⟩ := ⟨rfl, fun _ _ => rfl, fun _ _ => rfl⟩
  have h := (free_spec drv s p hapart order ⟨s, []⟩ p hnodup hmid fun _ _ => rfl).1
  exact h

/-- **The contents of the native pointer** after a release. -/
theorem free_native (drv : ReleaseDriver) {s : BufferState} {p : ZeHandle}
    (hapart : PoolApart s p) {order : List (Option Device)} (hnodup : order.Nodup) {i : Nat}
    (hi : i < s.size) :
    (urMemRelease drv (some p) order s).state.memory p i =
      s.memory (finalSource drv s p order) i := by
  have hmid : Midway s p order ⟨s, []⟩ := ⟨rfl, fun _ _ => rfl, fun _ _ => rfl⟩
  exact (free_spec drv s p hapart order ⟨s, []⟩ p hnodup hmid fun _ _ => rfl).2 i hi

end UnifiedRuntime.LevelZero
