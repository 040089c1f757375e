import UnifiedRuntime.LevelZero.EventPoolRelease

/-!
# Runs of event creation and destruction

A step of a run is one call: the creation of an event, what the adapter stores in
it afterwards, the release of a reference. `StepMeets` is what the code does not
check. The driver makes the event once its slot is taken; an event that does not
own its driver event is not deleted with one the destructor destroys; and the
last event of a pool still says which cache the pool was made for.

The last one fails for the events of a command-buffer without profiling: they are
made without a queue and without timestamps, and an event without a queue is
taken to have timestamps when it is destroyed.

Main result: `eventPools_exact`.
-/

namespace UnifiedRuntime.LevelZero.EventPool

open Function (update update_of_ne update_self)

/-! ## One call -/

theorem Books.withEvents {cfg : Config} {s : State} (h : Books cfg s) (events : EventState)
    (he : events.eventCaches = s.eventCaches) : Books cfg { s with toEventState := events } := by
  refine { h with
    directory := h.directory.congr rfl rfl rfl
    shelved := h.shelved
    eventCaches := ?_ }
  intro k
  show events.eventCaches k = []
  rw [he]
  exact h.eventCaches k

theorem Books.modifyEvent {cfg : Config} {s : State} (h : Books cfg s) (id : EventId)
    (f : Event → Event) : Books cfg (s.modifyEvent id f) :=
  h.withEvents _ rfl

@[simp] theorem State.modifyEvent_events_self (s : State) (id : EventId) (f : Event → Event) :
    (s.modifyEvent id f).events id = f (s.events id) :=
  update_self ..

theorem State.modifyEvent_events_ne (s : State) {id id' : EventId} (f : Event → Event)
    (hne : id' ≠ id) : (s.modifyEvent id f).events id' = s.events id' :=
  update_of_ne hne ..

/-- A new object holds a driver event no other object holds. -/
theorem Books.assign {cfg : Config} {s : State} (h : Books cfg s) (id : EventId) {sl : Slot}
    (hmem : sl ∈ s.live) (hfree : ∀ id', s.slot id' ≠ some sl) :
    Books cfg { s with slot := update s.slot id (some sl) } := by
  refine { h with
    directory := h.directory.congr rfl rfl rfl
    shelved := h.shelved
    holds := ?_
    apart := ?_ }
  · intro id' sl' h'
    change update s.slot id (some sl) id' = some sl' at h'
    by_cases hid : id' = id
    · rw [hid, update_self] at h'
      rw [← Option.some.inj h']
      exact hmem
    · rw [update_of_ne hid] at h'
      exact h.holds id' sl' h'
  · intro id₁ id₂ sl' h₁ h₂
    change update s.slot id (some sl) id₁ = some sl' at h₁
    change update s.slot id (some sl) id₂ = some sl' at h₂
    by_cases hid₁ : id₁ = id <;> by_cases hid₂ : id₂ = id
    · rw [hid₁, hid₂]
    · rw [hid₁, update_self] at h₁
      rw [update_of_ne hid₂, ← Option.some.inj h₁] at h₂
      exact absurd h₂ (hfree id₂)
    · rw [hid₂, update_self] at h₂
      rw [update_of_ne hid₁, ← Option.some.inj h₂] at h₁
      exact absurd h₁ (hfree id₁)
    · rw [update_of_ne hid₁] at h₁
      rw [update_of_ne hid₂] at h₂
      exact h.apart id₁ id₂ sl' h₁ h₂

/-- With the caching of events disabled there is nothing in their caches. -/
theorem Books.cacheMiss {cfg : Config} {s : State} (h : Books cfg s) (a : Attributes) :
    s.getEventFromContextCache a = none := by
  unfold EventState.getEventFromContextCache
  dsimp only
  rw [h.eventCaches]

/-- **Creation.** -/
theorem Books.eventCreate {cfg : Config} {s : State} (h : Books cfg s)
    (hoff : cfg.disableEventsCaching = true) (a : CreateArgs) {ans : CreateAnswers}
    (hans : ans.zeEventCreate = true) : Books cfg (s.eventCreate cfg a ans).1 := by
  unfold State.eventCreate
  dsimp only
  rw [h.cacheMiss]
  cases hg : s.getFreeSlotInExistingOrNewPool cfg (a.attributes cfg.toEventConfig)
      ans.zeEventPoolCreate with
  | mk s₁ r =>
    obtain ⟨hslot, -, -, hfail, hgrant⟩ := h.getFreeSlot hoff _ hg
    cases r with
    | none => exact hfail rfl
    | some sl =>
      obtain ⟨-, hfree, -, hbooks⟩ := hgrant sl rfl
      dsimp only
      rw [if_pos hans]
      split
      next =>
        have hnobody : ∀ id', s₁.slot id' ≠ some sl := by
          intro id' hid
          rw [hslot] at hid
          exact hfree (h.holds id' sl hid)
        have hnew := hbooks.assign s₁.nextEvent (List.mem_cons_self ..) hnobody
        exact hnew.withEvents _ rfl
      next => exact hbooks

/-- What the release of the last reference to an event must find. -/
structure LastMeets (cfg : Config) (s : State) (id : EventId) (ans : ReleaseAnswers) : Prop where
  /-- An owned driver event is destroyed, and its slot given back. -/
  owned : s.memFreeFails id ans = false → (s.events id).ownNativeHandle = true →
    ans.zeEventDestroy ≠ .error → KeepsCache cfg s id
  /-- One that is not owned is left alone. -/
  unowned : s.memFreeFails id ans = false → (s.events id).ownNativeHandle = false →
    s.destructorDestroys cfg id = false

/-- Everything else about the other events is as it was. -/
structure Frame (s s' : State) (id : EventId) : Prop where
  slot : ∀ id', id' ≠ id → s'.slot id' = s.slot id'
  events : ∀ id', id' ≠ id → s'.events id' = s.events id'

theorem Frame.trans {s s' s'' : State} {id : EventId} (h : Frame s s' id)
    (h' : Frame s' s'' id) : Frame s s'' id :=
  ⟨fun id' hne => (h'.slot id' hne).trans (h.slot id' hne),
    fun id' hne => (h'.events id' hne).trans (h.events id' hne)⟩

theorem frame_modifyEvent (s : State) (id : EventId) (f : Event → Event) :
    Frame s (s.modifyEvent id f) id :=
  ⟨fun _ _ => rfl, fun _ hne => s.modifyEvent_events_ne f hne⟩

theorem frame_forgetSlot (s : State) (id : EventId) : Frame s (s.forgetSlot id) id :=
  ⟨fun _ hne => update_of_ne hne .., fun _ _ => rfl⟩

/-- An object that holds nothing destroys nothing. -/
theorem destructorDestroys_forgetSlot (cfg : Config) (s : State) (id : EventId) :
    (s.forgetSlot id).destructorDestroys cfg id = false := by
  unfold State.destructorDestroys State.forgetSlot
  dsimp only
  rw [update_self]
  rfl

section
variable {cfg : Config} {s : State} (h : Books cfg s) (hoff : cfg.disableEventsCaching = true)

include h hoff

/-- **The release of the last reference**, up to the proxy. -/
theorem Books.releaseLast {id : EventId} {ans : ReleaseAnswers}
    (hmeets : LastMeets cfg s id ans) :
    ∃ s' goesOn, s.releaseLast cfg id ans = .ok (s', goesOn) ∧ Books cfg s' ∧ Frame s s' id ∧
      (goesOn = true → s'.destructorDestroys cfg id = false) := by
  unfold State.releaseLast
  cases hfree : s.memFreeFails id ans with
  | true => exact ⟨s, false, rfl, h, ⟨fun _ _ => rfl, fun _ _ => rfl⟩, nofun⟩
  | false =>
    dsimp only
    rw [State.modifyEvent_events_self, hoff, Bool.and_true]
    have h₁ := h.modifyEvent id Event.freeCommandData
    have hframe := frame_modifyEvent s id Event.freeCommandData
    have hown : (s.events id).freeCommandData.ownNativeHandle = (s.events id).ownNativeHandle :=
      rfl
    cases howned : (s.events id).ownNativeHandle with
    | false =>
      rw [hown, howned]
      refine ⟨_, true, rfl, h₁, hframe, fun _ => ?_⟩
      -- the destructor looks at nothing that was freed
      have hdestroys := hmeets.unowned hfree howned
      unfold State.destructorDestroys at hdestroys ⊢
      rw [State.modifyEvent_events_self]
      exact hdestroys
    | true =>
      rw [hown, howned]
      by_cases herror : ans.zeEventDestroy = .error
      · rw [herror]
        exact ⟨_, false, rfl, h₁.forgetSlot id, hframe.trans (frame_forgetSlot _ id), nofun⟩
      · have hkeeps : KeepsCache cfg (s.modifyEvent id Event.freeCommandData) id := by
          intro sl hsl hone
          rw [State.modifyEvent_events_self]
          exact hmeets.owned hfree howned herror sl hsl hone
        obtain ⟨s₂, hdecrement, hbooks, hevents, hslots⟩ := h₁.decrement hkeeps
        rw [hdecrement]
        have hframe₂ : Frame (s.modifyEvent id Event.freeCommandData) (s₂.forgetSlot id) id := by
          refine ⟨fun id' hne => ?_, fun id' _ => ?_⟩
          · rw [hslots]
            exact update_of_ne hne ..
          · show s₂.events id' = _
            rw [hevents]
        refine ⟨s₂.forgetSlot id, true, ?_, hbooks, hframe.trans hframe₂,
          fun _ => destructorDestroys_forgetSlot cfg s₂ id⟩
        cases hdestroy : ans.zeEventDestroy with
        | success => rfl
        | uninitialized => rfl
        | error => exact absurd hdestroy herror

/-- **The deletion of an event object.** -/
theorem Books.disposeEvent {id : EventId}
    (hdestroys : s.destructorDestroys cfg id = false) :
    Books cfg (s.disposeEvent cfg id) ∧ Frame s (s.disposeEvent cfg id) id := by
  unfold State.disposeEvent State.deleteEvent
  rw [hoff, hdestroys]
  exact ⟨h.forgetSlot id, frame_forgetSlot s id⟩

/-- What the release of a reference must find. -/
def ReferenceMeets (cfg : Config) (s : State) (id : EventId) (ans : ReleaseAnswers) : Prop :=
  (s.events id).decrement.refCount = 0 →
    LastMeets cfg (s.modifyEvent id Event.decrement) id ans

theorem Books.releaseReference {id : EventId} {ans : ReleaseAnswers}
    (hmeets : ReferenceMeets cfg s id ans) :
    ∃ s' ok, s.releaseReference cfg id ans = .ok (s', ok) ∧ Books cfg s' ∧ Frame s s' id := by
  unfold State.releaseReference
  dsimp only
  rw [State.modifyEvent_events_self]
  have h₁ := h.modifyEvent id Event.decrement
  have hframe := frame_modifyEvent s id Event.decrement
  split
  next hlast =>
    obtain ⟨s₂, goesOn, hrelease, h₂, hframe₂, hdestroys⟩ := h₁.releaseLast hoff (hmeets hlast)
    rw [hrelease]
    cases goesOn with
    | false => exact ⟨s₂, false, rfl, h₂, hframe.trans hframe₂⟩
    | true =>
      obtain ⟨h₃, hframe₃⟩ := h₂.disposeEvent hoff (hdestroys rfl)
      exact ⟨_, true, rfl, h₃, (hframe.trans hframe₂).trans hframe₃⟩
  next => exact ⟨_, true, rfl, h₁, hframe⟩

/-- What `urEventReleaseInternal` must find: the proxy is released in the state the
event's own driver event has left. -/
def ReleaseMeets (cfg : Config) (s : State) (id : EventId)
    (answers : EventId → ReleaseAnswers) : Prop :=
  ReferenceMeets cfg s id (answers id) ∧
    ∀ s' p, (s.modifyEvent id Event.decrement).releaseLast cfg id (answers id) = .ok (s', true) →
      (s'.events id).hostVisibleEvent = some p → p ≠ id → ReferenceMeets cfg s' p (answers p)

theorem Books.urEventReleaseInternal {id : EventId}
    {answers : EventId → ReleaseAnswers} (hmeets : ReleaseMeets cfg s id answers) :
    ∃ s' ok, s.urEventReleaseInternal cfg id answers = .ok (s', ok) ∧ Books cfg s' := by
  unfold State.urEventReleaseInternal
  dsimp only
  rw [State.modifyEvent_events_self]
  have h₁ := h.modifyEvent id Event.decrement
  split
  next hlast =>
    obtain ⟨s₂, goesOn, hrelease, h₂, -, hdestroys⟩ := h₁.releaseLast hoff (hmeets.1 hlast)
    rw [hrelease]
    cases goesOn with
    | false => exact ⟨s₂, false, rfl, h₂⟩
    | true =>
      dsimp only
      cases hproxy : (s₂.events id).hostVisibleEvent with
      | none => exact ⟨_, true, rfl, (h₂.disposeEvent hoff (hdestroys rfl)).1⟩
      | some p =>
        dsimp only
        by_cases hself : p = id
        · rw [if_pos hself]
          exact ⟨_, true, rfl, (h₂.disposeEvent hoff (hdestroys rfl)).1⟩
        · rw [if_neg hself]
          obtain ⟨s₃, ok, hproxyRelease, h₃, hframe⟩ :=
            h₂.releaseReference hoff (hmeets.2 s₂ p hrelease hproxy hself)
          rw [hproxyRelease]
          cases ok with
          | false => exact ⟨s₃, false, rfl, h₃⟩
          | true =>
            -- the release of the proxy leaves the event itself as it was
            have hdestroys₃ : s₃.destructorDestroys cfg id = false := by
              have hbefore := hdestroys rfl
              unfold State.destructorDestroys at hbefore ⊢
              rw [hframe.slot id (Ne.symm hself), hframe.events id (Ne.symm hself)]
              exact hbefore
            exact ⟨_, true, rfl, (h₃.disposeEvent hoff hdestroys₃).1⟩
  next => exact ⟨_, true, rfl, h₁⟩

/-! ## Runs -/

/-- What a call needs that the code does not check. -/
def StepMeets (cfg : Config) (s : State) : Op → Prop
  | .eventCreate _ ans => ans.zeEventCreate = true
  | .associate .. => True
  | .use .. => True
  | .release id answers => ReleaseMeets cfg s id answers

def RunMeets (cfg : Config) (s : State) : List Op → Prop
  | [] => True
  | op :: ops => StepMeets cfg s op ∧ ∀ s', step cfg s op = .ok s' → RunMeets cfg s' ops

theorem Books.step {op : Op} (hmeets : StepMeets cfg s op) :
    ∃ s', step cfg s op = .ok s' ∧ Books cfg s' := by
  cases op with
  | eventCreate a ans => exact ⟨_, rfl, h.eventCreate hoff a hmeets⟩
  | associate id q commandType commandList isInternal isMultiDevice =>
    exact ⟨_, rfl, h.modifyEvent id _⟩
  | use id u => exact ⟨_, rfl, h.modifyEvent id _⟩
  | release id answers =>
    obtain ⟨s', ok, hrelease, hbooks⟩ := h.urEventReleaseInternal hoff hmeets
    refine ⟨s', ?_, hbooks⟩
    show (s.urEventReleaseInternal cfg id answers).map Prod.fst = .ok s'
    rw [hrelease]
    rfl

end

theorem Books.run {cfg : Config} (hoff : cfg.disableEventsCaching = true) (ops : List Op) :
    ∀ {s : State}, Books cfg s → RunMeets cfg s ops →
      ∃ s', run cfg s ops = .ok s' ∧ Books cfg s' := by
  induction ops with
  | nil =>
    intro s h _
    exact ⟨s, rfl, h⟩
  | cons op ops ih =>
    intro s h hmeets
    obtain ⟨s₁, hstep, h₁⟩ := h.step hoff hmeets.1
    obtain ⟨s₂, hrun, h₂⟩ := ih h₁ (hmeets.2 s₁ hstep)
    refine ⟨s₂, ?_, h₂⟩
    unfold EventPool.run
    rw [hstep]
    exact hrun

theorem books_init (cfg : Config) : Books cfg .init where
  directory := ⟨le_rfl, nofun, nofun, fun _ _ => rfl⟩
  eventCaches := fun _ => rfl
  unreleased := fun _ => rfl
  known := nofun
  index := nofun
  available_le := fun _ => Nat.zero_le _
  availableNull := rfl
  holds := nofun
  apart := nofun
  shelved := shelved_empty
  own := nofun
  nullFront := fun _ => List.not_mem_nil
  idle := nofun
  used := fun _ hp => absurd hp (Nat.not_lt_zero _)

/-- The counters and the caches say what they are for. -/
structure PoolsExact (cfg : Config) (s : State) : Prop where
  /-- The next slot, for any attributes and whatever the driver answers. -/
  freeSlot : ∀ a poolCreate s' p i,
    s.getFreeSlotInExistingOrNewPool cfg a poolCreate = (s', some (p, i)) →
      i < cfg.maxNumEventsPerPool ∧ (p, i) ∉ s.live ∧
        zeEventPoolDesc cfg (s'.created p) = zeEventPoolDesc cfg a
  /-- A pool is in one cache, once. -/
  once : ∀ p k, (s.zeEventPoolCache k).count (some p) ≤ 1
  oneCache : ∀ p k k', some p ∈ s.zeEventPoolCache k → some p ∈ s.zeEventPoolCache k' → k = k'
  /-- That is the cache of its attributes. -/
  ownCache : ∀ p k, some p ∈ s.zeEventPoolCache k →
    s.cacheAt (cacheKey cfg (s.created p)) = some k
  unreleased : ∀ p, s.unreleased p = s.liveIn p

theorem count_reduceOption (l : List (Option PoolId)) (p : PoolId) :
    l.reduceOption.count p = l.count (some p) := by
  induction l with
  | nil => rfl
  | cons x l ih =>
    cases x with
    | none =>
      rw [List.reduceOption_cons_of_none, ih,
        List.count_cons_of_ne (Option.some_ne_none p).symm]
    | some q =>
      rw [List.reduceOption_cons_of_some, List.count_cons, List.count_cons, ih]
      simp

theorem Books.exact {cfg : Config} {s : State} (h : Books cfg s)
    (hoff : cfg.disableEventsCaching = true) : PoolsExact cfg s where
  freeSlot := by
    intro a poolCreate s' p i hg
    obtain ⟨-, -, -, -, hgrant⟩ := h.getFreeSlot hoff a hg
    obtain ⟨hrange, hfree, hkey, -⟩ := hgrant (p, i) rfl
    exact ⟨hrange, hfree, zeEventPoolDesc_of_key hkey⟩
  once := by
    intro p k
    rw [← count_reduceOption]
    exact List.nodup_iff_count_le_one.mp (h.shelved.once k) p
  oneCache := fun _ _ _ hk hk' => h.oneCache hk hk'
  ownCache := fun p k hp => (h.own k p hp).2
  unreleased := h.unreleased

/-- **Event pools.** With the caching of events disabled, no call of a run ends the
process, and wherever the run stops the counters and the caches are exact: the next
slot is free, every pool is in the cache of its attributes at most once, and the
unreleased events are the live ones. -/
theorem eventPools_exact (cfg : Config) (hoff : cfg.disableEventsCaching = true) (ops : List Op)
    (hmeets : RunMeets cfg .init ops) : ∃ s, run cfg .init ops = .ok s ∧ PoolsExact cfg s := by
  obtain ⟨s, hrun, hbooks⟩ := (books_init cfg).run hoff ops hmeets
  exact ⟨s, hrun, hbooks.exact hoff⟩

/-- One device, queues without profiling, and pools of one event. -/
def smallPools : Config where
  queues := fun _ => ⟨0, false, true, false, false, false, true⟩
  disableEventsCaching := true
  zeDevice := id
  devices := [0]
  discardEvents := fun _ => false
  maxNumEventsEnv := some 1

/-- An event of a command-buffer that is not profiled. -/
def commandBufferEvent : CreateArgs := ⟨none, false, false, false, true, false⟩

/-- Of two user events, each in a pool of its own, the first is released, and a third one takes the
slot that it leaves. -/
def threeUserEvents : List Op :=
  [.eventCreate ⟨none, false, true, false, false, false⟩ ⟨true, true, true⟩,
    .eventCreate ⟨none, false, true, false, false, false⟩ ⟨true, true, true⟩,
    .release 0 fun _ => ⟨true, .success⟩,
    .eventCreate ⟨none, false, true, false, false, false⟩ ⟨true, true, true⟩]

theorem eventPools_exact_three :
    ∃ s, run smallPools .init threeUserEvents = .ok s ∧ PoolsExact smallPools s := by
  refine eventPools_exact smallPools rfl _
    ⟨rfl, fun s hs => ⟨rfl, fun t ht => ⟨?_, fun _ _ => ⟨rfl, fun _ _ => trivial⟩⟩⟩⟩
  obtain rfl := Except.ok.inj hs
  obtain rfl := Except.ok.inj ht
  refine ⟨fun _ => ⟨?_, nofun⟩, ?_⟩
  · intro _ _ _ sl hsl _
    obtain rfl := Option.some.inj hsl
    rfl
  · intro s' p hlast hp hne
    -- a host-visible event has no other proxy
    obtain ⟨rfl, -⟩ := Prod.mk.inj (Except.ok.inj hlast)
    exact absurd (Option.some.inj hp).symm hne

/-- **An event of a command-buffer ends the process.** It is made for the cache
without timestamps, and its pool is to go back to the one with them, where there
was no pool yet. -/
theorem eventPools_emptyFront :
    ¬ ∃ s, run smallPools .init
      [.eventCreate commandBufferEvent ⟨true, true, true⟩,
        .release 0 fun _ => ⟨true, .success⟩] = .ok s ∧ PoolsExact smallPools s := by
  intro ⟨s, hrun, _⟩
  exact absurd hrun nofun

end UnifiedRuntime.LevelZero.EventPool
