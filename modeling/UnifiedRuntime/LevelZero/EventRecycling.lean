import UnifiedRuntime.LevelZero.Event

/-!
# Recycled events

An event that comes out of the cache should be as good as new: made with the
attributes the caller asks for, and with the observable state of a new object.
`reset` leaves out some fields, and the cache an event is filed in is computed
from its fields and not from what it was made with, so this holds only of runs
that keep clear of both. `Recyclable` says which steps do, and
`event_recycled` is the result for them.
-/

namespace UnifiedRuntime.LevelZero

open EventState

/-! ## The cache index -/

theorem testBit_flag (b : Bool) (k n : Nat) :
    (if b then 1 <<< k else 0 : Nat).testBit n = (decide (n = k) && b) := by
  cases b with
  | false => simp
  | true =>
    rw [if_pos rfl, Nat.one_shiftLeft, Nat.testBit_two_pow]
    simp [eq_comm]

theorem eventCacheIndex_testBit (h p c i : Bool) (d : Option Device) (n : Nat) :
    (eventCacheIndex h p d c i).testBit n = ((decide (n = 0) && h) || (decide (n = 1) && p) ||
      (decide (n = 2) && c) || (decide (n = 3) && i) ||
      d.any fun id => decide (n = 4) || (decide (5 ≤ n) && id.testBit (n - 5))) := by
  unfold eventCacheIndex
  simp only [Nat.testBit_or, testBit_flag]
  cases d with
  | none => simp
  | some id =>
    have h4 := testBit_flag true 4 n
    simp only [if_true, Bool.and_true] at h4
    simp only [Nat.testBit_or, Nat.testBit_shiftLeft, h4, Option.any_some]

/-- Different requests look in different caches. -/
theorem eventCacheIndex_inj {h h' p p' c c' i i' : Bool} {d d' : Option Device}
    (he : eventCacheIndex h p d c i = eventCacheIndex h' p' d' c' i') :
    h = h' ∧ p = p' ∧ d = d' ∧ c = c' ∧ i = i' := by
  have hbit : ∀ n, (eventCacheIndex h p d c i).testBit n
      = (eventCacheIndex h' p' d' c' i').testBit n := fun n => by rw [he]
  simp only [eventCacheIndex_testBit] at hbit
  refine ⟨by simpa using hbit 0, by simpa using hbit 1, ?_, by simpa using hbit 2,
    by simpa using hbit 3⟩
  have h4 := hbit 4
  cases d with
  | none =>
    cases d' with
    | none => rfl
    | some id' => exact absurd h4 (by simp)
  | some id =>
    cases d' with
    | none => exact absurd h4 (by simp)
    | some id' =>
      refine congrArg some (Nat.eq_of_testBit_eq fun n => ?_)
      have hn := hbit (n + 5)
      simpa using hn

/-! ## Observable state -/

/-- What a user of an event, or the adapter itself, can tell of it. -/
structure Observable where
  timestamps : Option (Nat × Nat)
  profilingEnabled : Bool
  isInnerBatchedEvent : Bool
  isDiscarded : Bool
  waitList : List EventId
  completed : Bool
  cleanedUp : Bool
  urQueue : Option QueueId
  commandType : CommandType
  commandData : Option Nat
  commandList : Option Nat
  completionBatch : Option Nat
  refCount : Nat
  refCountExternal : Nat
  hostVisible : Bool
  counterBasedEventsEnabled : Bool
  interruptBasedEventsEnabled : Bool
  ownNativeHandle : Bool
  /-- Counter-based events are re-armed by the next command that signals them. -/
  signalled : Bool
  deriving DecidableEq

def Event.observe (cfg : EventConfig) (id : EventId) (e : Event) : Observable where
  timestamps := if e.isTimestamped then
    some (e.recordEventStartTimestamp, e.recordEventEndTimestamp) else none
  profilingEnabled := e.isProfilingEnabled cfg.queues
  isInnerBatchedEvent := e.isInnerBatchedEvent
  isDiscarded := e.isDiscarded
  waitList := e.waitList
  completed := e.completed
  cleanedUp := e.cleanedUp
  urQueue := e.urQueue
  commandType := e.commandType
  commandData := e.commandData
  commandList := e.commandList
  completionBatch := e.completionBatch
  refCount := e.refCount
  refCountExternal := e.refCountExternal
  hostVisible := e.isHostVisible id
  counterBasedEventsEnabled := e.counterBasedEventsEnabled
  interruptBasedEventsEnabled := e.interruptBasedEventsEnabled
  ownNativeHandle := e.ownNativeHandle
  signalled := !e.counterBasedEventsEnabled && e.signalled

/-- The kind of command list matters to counter-based events only. -/
def Attributes.Match (a b : Attributes) : Prop :=
  a.hostVisible = b.hostVisible ∧ a.profiling = b.profiling ∧ a.device = b.device ∧
    a.counterBased = b.counterBased ∧ a.interruptBased = b.interruptBased ∧
    (a.counterBased = true → a.immediate = b.immediate)

instance (a b : Attributes) : Decidable (a.Match b) := inferInstanceAs (Decidable (_ ∧ _))

/-- **As good as new**: the attributes asked for, and the state of a new object. -/
def AsGoodAsNew (cfg : EventConfig) (id : EventId) (e : Event) (asked : Attributes) : Prop :=
  e.attrs.Match asked ∧ e.observe cfg id = (Event.create id asked).observe cfg id

/-! ## Runs -/

/-- The calls that make, use and release events. -/
inductive EventStep where
  /-- `urExtEventCreate`. -/
  | userEvent
  /-- The events of a command-buffer. -/
  | commandBufferEvent (hostVisible counterBased profiling : Bool)
  /-- The barrier event of a completion batch. -/
  | completionBatchEvent (q : QueueId)
  | associate (q : QueueId) (commandType : CommandType) (commandList : Option Nat)
      (isInternal isMultiDevice : Bool) (hostVisible : Option Bool)
      (queueCached : Option (Attributes × Bool))
  | use (id : EventId) (u : Use)
  | release (id : EventId)

def EventStep.run (cfg : EventConfig) (s : EventState) : EventStep → EventState
  | .userEvent =>
    let (s, id) := s.eventCreate cfg ⟨none, false, true, false, false, false⟩
    s.modify id fun e => { e with refCountExternal := e.refCountExternal + 1, signalled := true }
  | .commandBufferEvent hostVisible counterBased profiling =>
    (s.eventCreate cfg ⟨none, false, hostVisible, counterBased, !profiling, false⟩).1
  | .completionBatchEvent q => (s.eventCreate cfg ⟨some q, false, true, false, false, false⟩).1
  | .associate q commandType commandList isInternal isMultiDevice hostVisible queueCached =>
    (s.createEventAndAssociateQueue cfg q commandType commandList isInternal isMultiDevice
      hostVisible queueCached).1
  | .use id u => s.modify id (u.apply ·)
  | .release id => s.urEventReleaseInternal cfg id

/-- Somebody holds a reference to the event. -/
def EventState.Held (s : EventState) (id : EventId) : Prop :=
  id < s.nextEvent ∧ 0 < (s.events id).refCount

/-- Whoever uses or releases an event holds a reference to it, and so does an
event to its host-visible proxy. -/
def EventStep.Enabled (s : EventState) : EventStep → Prop
  | .use id u => s.Held id ∧ ∀ p ∈ u.proxy, (s.events id).hostVisibleEvent = none ∧ p ≠ id
  | .release id => s.Held id ∧
      ∀ p ∈ (s.events id).hostVisibleEvent, p ≠ id → s.Held p
  | _ => True

instance (s : EventState) (id : EventId) : Decidable (s.Held id) :=
  inferInstanceAs (Decidable (_ ∧ _))

instance (s : EventState) : (t : EventStep) → Decidable (t.Enabled s)
  | .use .. => inferInstanceAs (Decidable (_ ∧ _))
  | .release _ => inferInstanceAs (Decidable (_ ∧ _))
  | .userEvent => instDecidableTrue
  | .commandBufferEvent .. => instDecidableTrue
  | .completionBatchEvent _ => instDecidableTrue
  | .associate .. => instDecidableTrue

/-- Nothing is left on the event that `reset` does not put back. -/
def Event.Clean (e : Event) : Prop :=
  e.isTimestamped = false ∧ e.isInnerBatchedEvent = false ∧ e.isDiscarded = false

/-- Dropping a reference does not cache an event that is not clean. -/
def ReleasesClean (cfg : EventConfig) (s : EventState) (id : EventId) : Prop :=
  (s.events id).refCount = 1 → cfg.disableEventsCaching = false →
    (s.events id).ownNativeHandle = true → (s.events id).Clean

/-- The steps after which the cache is right: counter-based events are for one
kind of command list, no profiling is disabled behind the queue's back, no event
is made for a queue it is not associated with, and what is cached is clean. -/
def EventStep.Recyclable (cfg : EventConfig) (immediate : Bool) (s : EventState) :
    EventStep → Prop
  | .userEvent => True
  | .commandBufferEvent _ counterBased profiling =>
    profiling = true ∧ (counterBased = true → immediate = true)
  | .completionBatchEvent _ => False
  | .associate q .. => (cfg.queues q).counterBasedEventsEnabled = true →
      (cfg.queues q).usingImmCmdLists = immediate
  | .use _ _ => True
  | .release id => ReleasesClean cfg s id ∧
      ∀ p, (s.events id).hostVisibleEvent = some p → ReleasesClean cfg s p

/-- A context without events. -/
def EventState.init (e : Event) : EventState := ⟨fun _ => e, 0, fun _ => []⟩

/-- The states of a context's events in the runs whose steps all meet `ok`. -/
inductive EventReached (cfg : EventConfig) (ok : EventState → EventStep → Prop) :
    EventState → Prop where
  | init (e : Event) : EventReached cfg ok (.init e)
  | step {s : EventState} (t : EventStep) : EventReached cfg ok s → t.Enabled s → ok s t →
      EventReached cfg ok (t.run cfg s)

/-! ## The invariant -/

/-- The object agrees with its driver event. -/
structure Sound (immediate : Bool) (id : EventId) (e : Event) : Prop where
  counter : e.counterBasedEventsEnabled = e.attrs.counterBased
  interrupt : e.interruptBasedEventsEnabled = e.attrs.interruptBased
  host : e.isHostVisible id = e.attrs.hostVisible
  kind : e.attrs.counterBased = true → e.attrs.immediate = immediate

/-- It would be filed where it belongs. -/
structure Placed (cfg : EventConfig) (e : Event) : Prop where
  profiling : e.attrs.profiling = e.isProfilingEnabled cfg.queues
  device : e.attrs.device = e.cacheDevice cfg.queues

def Attributes.cacheIndex (a : Attributes) : Nat :=
  eventCacheIndex a.hostVisible a.profiling a.device a.counterBased a.interruptBased

/-- An event in cache `i`. -/
structure Cached (s : EventState) (i : Nat) (id : EventId) : Prop where
  lt : id < s.nextEvent
  free : (s.events id).refCount = 0
  own : (s.events id).ownNativeHandle = true
  clean : (s.events id).Clean
  index : i = (s.events id).attrs.cacheIndex

/-- The invariant, with one event left out that a step is working on. -/
structure InvBut (cfg : EventConfig) (immediate : Bool) (s : EventState) (skip : EventId) :
    Prop where
  lt : skip < s.nextEvent
  sound : ∀ id < s.nextEvent, id ≠ skip → (s.events id).isDiscarded = false →
    Sound immediate id (s.events id)
  placed : ∀ id < s.nextEvent, id ≠ skip → (s.events id).isDiscarded = false →
    0 < (s.events id).refCount → Placed cfg (s.events id)
  shelved : Shelved s.eventCaches
  cached : ∀ i, ∀ id ∈ s.eventCaches i, id ≠ skip ∧ Cached s i id

structure EventInv (cfg : EventConfig) (immediate : Bool) (s : EventState) : Prop where
  sound : ∀ id < s.nextEvent, (s.events id).isDiscarded = false → Sound immediate id (s.events id)
  placed : ∀ id < s.nextEvent, (s.events id).isDiscarded = false →
    0 < (s.events id).refCount → Placed cfg (s.events id)
  shelved : Shelved s.eventCaches
  cached : ∀ i, ∀ id ∈ s.eventCaches i, Cached s i id

section Steps

variable {cfg : EventConfig} {immediate : Bool} {s : EventState}

theorem modify_self (s : EventState) (id : EventId) (f : Event → Event) :
    (s.modify id f).events id = f (s.events id) := Function.update_self ..

theorem modify_ne (s : EventState) {id j : EventId} (f : Event → Event) (h : j ≠ id) :
    (s.modify id f).events j = s.events j := Function.update_of_ne h ..

/-- A held event is in no cache. -/
theorem EventInv.but (h : EventInv cfg immediate s) {id : EventId} (hid : s.Held id) :
    InvBut cfg immediate s id := by
  refine ⟨hid.1, fun j hj _ => h.sound j hj, fun j hj _ => h.placed j hj, h.shelved,
    fun i j hj => ⟨?_, h.cached i j hj⟩⟩
  intro he
  have hfree := (h.cached i j hj).free
  rw [he] at hfree
  exact absurd hid.2 (by omega)

/-- Working on the event left out. -/
theorem InvBut.modify {id : EventId} (h : InvBut cfg immediate s id) (f : Event → Event) :
    InvBut cfg immediate (s.modify id f) id := by
  refine ⟨h.lt, fun j hj hne => ?_, fun j hj hne => ?_, h.shelved, fun i j hj => ?_⟩
  · rw [modify_ne s f hne]
    exact h.sound j hj hne
  · rw [modify_ne s f hne]
    exact h.placed j hj hne
  · obtain ⟨hne, hc⟩ := h.cached i j hj
    have heq := modify_ne s f hne
    exact ⟨hne, hc.lt, by rw [heq]; exact hc.free, by rw [heq]; exact hc.own,
      by rw [heq]; exact hc.clean, by rw [heq]; exact hc.index⟩

/-- Putting the event back. -/
theorem InvBut.done {id : EventId} (h : InvBut cfg immediate s id)
    (hsound : (s.events id).isDiscarded = false → Sound immediate id (s.events id))
    (hplaced : (s.events id).isDiscarded = false → 0 < (s.events id).refCount →
      Placed cfg (s.events id)) : EventInv cfg immediate s := by
  refine ⟨fun j hj => ?_, fun j hj => ?_, h.shelved, fun i j hj => (h.cached i j hj).2⟩
  · by_cases hne : j = id
    · rw [hne]
      exact hsound
    · exact h.sound j hj hne
  · by_cases hne : j = id
    · rw [hne]
      exact hplaced
    · exact h.placed j hj hne

/-- Forgetting about one more event. -/
theorem EventInv.addEvent (h : EventInv cfg immediate s) (e : Event) :
    InvBut cfg immediate (s.addEvent e).1 (s.addEvent e).2 := by
  have hne : ∀ j, j < s.nextEvent → (s.addEvent e).1.events j = s.events j :=
    fun j hj => Function.update_of_ne (Nat.ne_of_lt hj) ..
  have hlt : ∀ j, j < s.nextEvent + 1 → j ≠ s.nextEvent → j < s.nextEvent :=
    fun j hj hj' => lt_of_le_of_ne (Nat.le_of_lt_succ hj) hj'
  refine ⟨Nat.lt_succ_self _, fun j hj hj' => ?_, fun j hj hj' => ?_, h.shelved, fun i j hj => ?_⟩
  · rw [hne j (hlt j hj hj')]
    exact h.sound j (hlt j hj hj')
  · rw [hne j (hlt j hj hj')]
    exact h.placed j (hlt j hj hj')
  · have hc := h.cached i j hj
    have heq := hne j hc.lt
    exact ⟨Nat.ne_of_lt hc.lt, hc.lt.trans (Nat.lt_succ_self _), by rw [heq]; exact hc.free,
      by rw [heq]; exact hc.own, by rw [heq]; exact hc.clean, by rw [heq]; exact hc.index⟩

/-- `reset` puts back everything observable that a clean event has. -/
theorem reset_observe (cfg : EventConfig) {id : EventId} {e : Event} {asked : Attributes} (hclean : e.Clean)
    (hown : e.ownNativeHandle = true) (hsound : Sound immediate id e)
    (hmatch : e.attrs.Match asked) :
    AsGoodAsNew cfg id (e.reset id) asked ∧ Sound immediate id (e.reset id) := by
  obtain ⟨hts, hinner, hdisc⟩ := hclean
  have ⟨hh, _, _, hc, hi, _⟩ := hmatch
  have hstart : e.recordEventStartTimestamp = 0 := by
    simpa [Event.isTimestamped] using hts
  have hvis : (e.reset id).isHostVisible id = e.isHostVisible id := by
    unfold Event.reset Event.isHostVisible
    dsimp only
    split
    · rfl
    · next hno =>
      rw [Bool.not_eq_true] at hno
      rw [hno]
      rfl
  refine ⟨⟨hmatch, ?_⟩, ⟨hsound.counter, hsound.interrupt, hvis.trans hsound.host, hsound.kind⟩⟩
  have hcreate : (Event.create id asked).isHostVisible id = asked.hostVisible := by
    unfold Event.create Event.isHostVisible
    cases asked.hostVisible <;> simp
  unfold Event.observe
  rw [hvis, hcreate, hsound.host, hh]
  simp only [Event.reset, Event.create, Event.isTimestamped, Event.isProfilingEnabled, hstart,
    hinner, hdisc, hown, hsound.counter, hsound.interrupt, hc, hi]
  cases asked.counterBased <;> simp

/-- What comes out of the cache. -/
theorem getEventFromContextCache_spec (h : EventInv cfg immediate s) {asked : Attributes}
    (hkind : asked.counterBased = true → asked.immediate = immediate) {s' : EventState}
    {id : EventId} (heq : s.getEventFromContextCache asked = some (s', id)) :
    AsGoodAsNew cfg id (s'.events id) asked ∧ Sound immediate id (s'.events id) ∧
      InvBut cfg immediate s' id := by
  unfold getEventFromContextCache at heq
  dsimp only at heq
  split at heq
  · exact absurd heq (by simp)
  · next front rest hcache =>
    obtain ⟨rfl, rfl⟩ := Prod.mk.inj (Option.some.inj heq)
    have hmem : front ∈ s.eventCaches asked.cacheIndex := by
      rw [Attributes.cacheIndex, hcache]
      exact List.mem_cons_self ..
    have hc := h.cached _ front hmem
    have hsound := h.sound front hc.lt hc.clean.2.2
    obtain ⟨hh, hp, hd, hcb, hi⟩ := eventCacheIndex_inj hc.index
    have hmatch : (s.events front).attrs.Match asked := by
      refine ⟨hh.symm, hp.symm, hd.symm, hcb.symm, hi.symm, fun hcount => ?_⟩
      rw [hsound.kind hcount, hkind (hcb.trans hcount)]
    have hgood := reset_observe cfg hc.clean hc.own hsound hmatch
    have hbut : InvBut cfg immediate
        { s with eventCaches := Function.update s.eventCaches asked.cacheIndex rest } front := by
      have hsub : rest.Sublist (s.eventCaches asked.cacheIndex) := by
        rw [show s.eventCaches asked.cacheIndex = front :: rest from hcache]
        exact List.sublist_cons_self ..
      refine ⟨hc.lt, fun j hj _ => h.sound j hj, fun j hj _ => h.placed j hj,
        h.shelved.take hsub, fun i j hj => ⟨fun he => ?_, ?_⟩⟩
      · exact h.shelved.front_gone hcache ⟨i, he ▸ hj⟩
      · have hj' : j ∈ s.eventCaches i := by
          rcases mem_update_shelf.mp hj with ⟨rfl, hmem'⟩ | ⟨-, hmem'⟩
          · exact hsub.subset hmem'
          · exact hmem'
        obtain ⟨h1, h2, h3, h4, h5⟩ := h.cached i j hj'
        exact ⟨h1, h2, h3, h4, h5⟩
    refine ⟨?_, ?_, hbut.modify _⟩
    · rw [modify_self]
      exact hgood.1
    · rw [modify_self]
      exact hgood.2

theorem create_sound (id : EventId) {asked : Attributes}
    (hkind : asked.counterBased = true → asked.immediate = immediate) :
    Sound immediate id (.create id asked) := by
  refine ⟨rfl, rfl, ?_, hkind⟩
  unfold Event.create Event.isHostVisible
  cases asked.hostVisible <;> simp

theorem match_refl (a : Attributes) : a.Match a := ⟨rfl, rfl, rfl, rfl, rfl, fun _ => rfl⟩

/-- An event out of `EventCreate` is as good as new, wherever it comes from. -/
theorem eventCreate_spec (h : EventInv cfg immediate s) {a : CreateArgs}
    (hkind : a.counterBasedEventEnabled = true → (a.attributes cfg).immediate = immediate) :
    let r := s.eventCreate cfg a
    AsGoodAsNew cfg r.2 (r.1.events r.2) (a.attributes cfg) ∧
      Sound immediate r.2 (r.1.events r.2) ∧ InvBut cfg immediate r.1 r.2 := by
  intro r
  unfold r eventCreate
  split
  · next r' heq => exact getEventFromContextCache_spec h hkind heq
  · have hself : (s.addEvent (.create s.nextEvent (a.attributes cfg))).1.events s.nextEvent
        = .create s.nextEvent (a.attributes cfg) := Function.update_self ..
    refine ⟨?_, ?_, h.addEvent _⟩
    · show AsGoodAsNew cfg s.nextEvent ((s.addEvent _).1.events s.nextEvent) _
      rw [hself]
      exact ⟨match_refl _, rfl⟩
    · show Sound immediate s.nextEvent ((s.addEvent _).1.events s.nextEvent)
      rw [hself]
      exact create_sound _ hkind

/-- A new event without a queue is where it belongs. -/
theorem placed_of_queueless {e : Event} {a : CreateArgs} {id : EventId}
    (h : AsGoodAsNew cfg id e (a.attributes cfg)) (hq : a.queue = none)
    (hp : a.forceDisableProfiling = false) : Placed cfg e := by
  obtain ⟨⟨-, hprof, hdev, -⟩, hobs⟩ := h
  have hqueue : e.urQueue = none := congrArg Observable.urQueue hobs
  refine ⟨?_, ?_⟩
  · rw [hprof, Event.isProfilingEnabled, hqueue]
    simp [CreateArgs.attributes, hq, hp]
  · rw [hdev, Event.cacheDevice, hqueue]
    simp [CreateArgs.attributes, hq]

theorem associate_inv (h : EventInv cfg immediate s) {q : QueueId} {commandType : CommandType}
    {commandList : Option Nat} {isInternal isMultiDevice : Bool} {hostVisible : Option Bool}
    {queueCached : Option (Attributes × Bool)}
    (hkind : (cfg.queues q).counterBasedEventsEnabled = true →
      (cfg.queues q).usingImmCmdLists = immediate) :
    EventInv cfg immediate (s.createEventAndAssociateQueue cfg q commandType commandList isInternal
      isMultiDevice hostVisible queueCached).1 := by
  unfold createEventAndAssociateQueue
  cases isInternal with
  | true =>
    -- an internal event is discarded, so nothing is asked of it
    have hbut : ∀ r : EventState × EventId, InvBut cfg immediate r.1 r.2 → ∀ f : Event → Event,
        (∀ e, (f e).isDiscarded = true) → EventInv cfg immediate (r.1.modify r.2 f) := by
      intro r hr f hf
      have hdisc : ((r.1.modify r.2 f).events r.2).isDiscarded = true := by
        rw [modify_self]
        exact hf _
      exact (hr.modify f).done (fun hd => absurd (hdisc.symm.trans hd) (by simp))
        (fun hd => absurd (hdisc.symm.trans hd) (by simp))
    simp only [if_true]
    split
    · exact hbut _ (h.addEvent _) _ fun _ => rfl
    · exact hbut _ (eventCreate_spec h (by simpa [associateArgs, CreateArgs.attributes] using
        hkind)).2.2 _ fun _ => rfl
  | false =>
    simp only [Bool.false_eq_true, if_false]
    obtain ⟨hgood, hsound, hbut⟩ := eventCreate_spec h
      (a := associateArgs cfg q false isMultiDevice hostVisible)
      (by simpa [associateArgs, CreateArgs.attributes] using hkind)
    refine (hbut.modify _).done (fun _ => ?_) (fun _ _ => ?_)
    · rw [modify_self]
      exact ⟨hsound.counter, hsound.interrupt, hsound.host, hsound.kind⟩
    · rw [modify_self]
      obtain ⟨⟨-, hprof, hdev, -⟩, -⟩ := hgood
      exact ⟨hprof.trans (by simp [associateArgs, CreateArgs.attributes, Event.isProfilingEnabled]),
        hdev.trans (by simp [associateArgs, CreateArgs.attributes, Event.cacheDevice])⟩

/-- What a use leaves alone. -/
theorem use_spec (id : EventId) (e : Event) (u : Use)
    (hproxy : ∀ p ∈ u.proxy, e.hostVisibleEvent = none ∧ p ≠ id) :
    (u.apply e).attrs = e.attrs ∧ (u.apply e).urQueue = e.urQueue ∧
      (u.apply e).isMultiDevice = e.isMultiDevice ∧ (u.apply e).isDiscarded = e.isDiscarded ∧
      (u.apply e).counterBasedEventsEnabled = e.counterBasedEventsEnabled ∧
      (u.apply e).interruptBasedEventsEnabled = e.interruptBasedEventsEnabled ∧
      (u.apply e).isHostVisible id = e.isHostVisible id ∧ e.refCount ≤ (u.apply e).refCount := by
  cases u with
  | setProxy p =>
    obtain ⟨hnone, hne⟩ := hproxy p rfl
    refine ⟨rfl, rfl, rfl, rfl, rfl, rfl, ?_, Nat.le_refl _⟩
    simp [Use.apply, Event.isHostVisible, hnone, hne]
  | retain => exact ⟨rfl, rfl, rfl, rfl, rfl, rfl, rfl, Nat.le_succ _⟩
  | retainExternal => exact ⟨rfl, rfl, rfl, rfl, rfl, rfl, rfl, Nat.le_succ _⟩
  | _ => exact ⟨rfl, rfl, rfl, rfl, rfl, rfl, rfl, Nat.le_refl _⟩

theorem use_inv (h : EventInv cfg immediate s) {id : EventId} {u : Use}
    (hen : (EventStep.use id u).Enabled s) : EventInv cfg immediate (s.modify id (u.apply ·)) := by
  obtain ⟨hheld, hproxy⟩ := hen
  obtain ⟨ha, hq, hm, hd, hc, hi, hv, -⟩ := use_spec id (s.events id) u hproxy
  have hself := modify_self s id (u.apply ·)
  refine ((h.but hheld).modify _).done (fun hdisc => ?_) (fun hdisc _ => ?_)
  · rw [hself] at hdisc ⊢
    have hs := h.sound id hheld.1 (hd ▸ hdisc)
    exact ⟨hc.trans (ha ▸ hs.counter), hi.trans (ha ▸ hs.interrupt), hv.trans (ha ▸ hs.host),
      ha ▸ hs.kind⟩
  · rw [hself] at hdisc ⊢
    have hp := h.placed id hheld.1 (hd ▸ hdisc) hheld.2
    refine ⟨?_, ?_⟩
    · rw [ha, hp.profiling, Event.isProfilingEnabled, Event.isProfilingEnabled, hq]
    · rw [ha, hp.device, Event.cacheDevice, Event.cacheDevice, hq, hm]

/-! ### Releasing -/

/-- An event nobody refers to is filed where it belongs, or gone. -/
theorem dispose_inv (h : EventInv cfg immediate s) {id : EventId} (hlt : id < s.nextEvent)
    (hout : ¬ Waits s.eventCaches id) (hfree : (s.events id).refCount = 0)
    (hplaced : (s.events id).isDiscarded = false → Placed cfg (s.events id))
    (hclean : cfg.disableEventsCaching = false → (s.events id).ownNativeHandle = true →
      (s.events id).Clean) :
    EventInv cfg immediate (s.dispose cfg id) := by
  have hbut : InvBut cfg immediate s id := ⟨hlt, fun j hj _ => h.sound j hj,
    fun j hj _ => h.placed j hj, h.shelved,
    fun i j hj => ⟨fun he => hout ⟨i, he ▸ hj⟩, h.cached i j hj⟩⟩
  have hsound := h.sound id hlt
  unfold dispose
  have hself := modify_self s id Event.freeCommandData
  have hs : Sound immediate id (s.events id) → Sound immediate id (s.events id).freeCommandData :=
    fun hs => ⟨hs.counter, hs.interrupt, hs.host, hs.kind⟩
  have hp : Placed cfg (s.events id) → Placed cfg (s.events id).freeCommandData :=
    fun hp => ⟨hp.profiling, hp.device⟩
  have hinv : EventInv cfg immediate (s.modify id Event.freeCommandData) := by
    refine (hbut.modify _).done (fun hdisc => ?_) (fun hdisc _ => ?_)
    · rw [hself] at hdisc ⊢
      exact hs (hsound hdisc)
    · rw [hself] at hdisc ⊢
      exact hp (hplaced hdisc)
  dsimp only
  split
  · exact hinv
  · next hkeep =>
    rw [hself, Bool.or_eq_true, not_or, Bool.not_eq_true, Bool.not_eq_true,
      Bool.not_eq_false'] at hkeep
    obtain ⟨hcaching, hown⟩ := hkeep
    have hc : (s.events id).Clean := hclean hcaching hown
    have hsnd := hs (hsound hc.2.2)
    have hpl := hp (hplaced hc.2.2)
    have hindex : eventCacheIndex ((s.events id).freeCommandData.isHostVisible id)
        ((s.events id).freeCommandData.isProfilingEnabled cfg.queues)
        ((s.events id).freeCommandData.cacheDevice cfg.queues)
        (s.events id).freeCommandData.counterBasedEventsEnabled
        (s.events id).freeCommandData.interruptBasedEventsEnabled
        = (s.events id).attrs.cacheIndex := by
      rw [hsnd.host, hsnd.counter, hsnd.interrupt, ← hpl.profiling, ← hpl.device]
      rfl
    unfold addEventToContextCache
    dsimp only
    rw [hself, hindex]
    refine ⟨hinv.sound, hinv.placed, hinv.shelved.put _ hout, fun i j hj => ?_⟩
    have hkept : Cached (s.modify id Event.freeCommandData) i j ∨
        (i = (s.events id).attrs.cacheIndex ∧ j = id) := by
      rcases mem_update_shelf.mp hj with ⟨rfl, hmem⟩ | ⟨-, hmem⟩
      · rcases List.mem_append.mp hmem with hmem | hmem
        · exact .inl (hinv.cached _ j hmem)
        · exact .inr ⟨rfl, List.mem_singleton.mp hmem⟩
      · exact .inl (hinv.cached i j hmem)
    rcases hkept with ⟨h1, h2, h3, h4, h5⟩ | ⟨rfl, rfl⟩
    · exact ⟨h1, h2, h3, h4, h5⟩
    · refine ⟨hlt, ?_, ?_, ?_, ?_⟩
      · exact (congrArg Event.refCount hself).trans hfree
      · exact (congrArg Event.ownNativeHandle hself).trans hown
      · exact (congrArg Event.Clean hself).mpr hc
      · exact congrArg (fun e => e.attrs.cacheIndex) hself.symm

/-- Dropping a reference, before anything is disposed of. -/
theorem decrement_inv (h : EventInv cfg immediate s) {id : EventId} (hheld : s.Held id) :
    EventInv cfg immediate (s.modify id Event.decrement) := by
  have hself := modify_self s id Event.decrement
  refine ((h.but hheld).modify _).done (fun hdisc => ?_) (fun hdisc _ => ?_)
  · rw [hself] at hdisc ⊢
    have hs := h.sound id hheld.1 hdisc
    exact ⟨hs.counter, hs.interrupt, hs.host, hs.kind⟩
  · rw [hself] at hdisc ⊢
    have hp := h.placed id hheld.1 hdisc hheld.2
    exact ⟨hp.profiling, hp.device⟩

theorem not_waits_of_held (h : EventInv cfg immediate s) {id : EventId} (hheld : s.Held id) :
    ¬ Waits s.eventCaches id := by
  intro ⟨i, hi⟩
  have hfree := (h.cached i id hi).free
  exact absurd hheld.2 (by rw [hfree]; exact Nat.lt_irrefl 0)

theorem releaseReference_inv (h : EventInv cfg immediate s) {id : EventId} (hheld : s.Held id)
    (hclean : ReleasesClean cfg s id) : EventInv cfg immediate (s.releaseReference cfg id) := by
  have hdec := decrement_inv h hheld
  have hself := modify_self s id Event.decrement
  unfold releaseReference
  dsimp only
  split
  · next hzero =>
    have hone : (s.events id).refCount = 1 := by
      rw [hself] at hzero
      have hzero : (s.events id).refCount - 1 = 0 := hzero
      have hpos : 0 < (s.events id).refCount := hheld.2
      omega
    refine dispose_inv hdec hheld.1 (not_waits_of_held h hheld) hzero (fun hdisc => ?_)
      (fun hcache hown => ?_)
    · rw [hself] at hdisc ⊢
      have hp := h.placed id hheld.1 hdisc hheld.2
      exact ⟨hp.profiling, hp.device⟩
    · rw [hself] at hown ⊢
      exact hclean hone hcache hown
  · exact hdec

/-- Releasing one event leaves the others where they were. -/
theorem releaseReference_other (cfg : EventConfig) (s : EventState) {p id : EventId} (hne : id ≠ p) :
    (s.releaseReference cfg p).events id = s.events id ∧
      (s.releaseReference cfg p).nextEvent = s.nextEvent ∧
      (Waits (s.releaseReference cfg p).eventCaches id → Waits s.eventCaches id) := by
  unfold releaseReference
  dsimp only
  split
  · unfold dispose
    dsimp only
    split
    · exact ⟨(modify_ne _ _ hne).trans (modify_ne _ _ hne), rfl, fun h => h⟩
    · refine ⟨(modify_ne _ _ hne).trans (modify_ne _ _ hne), rfl, fun h => ?_⟩
      rcases waits_put h with h | h
      · exact h
      · exact absurd h hne
  · exact ⟨modify_ne _ _ hne, rfl, fun h => h⟩

theorem release_inv (h : EventInv cfg immediate s) {id : EventId}
    (hen : (EventStep.release id).Enabled s)
    (hok : (EventStep.release id).Recyclable cfg immediate s) :
    EventInv cfg immediate (s.urEventReleaseInternal cfg id) := by
  obtain ⟨hheld, hproxy⟩ := hen
  obtain ⟨hclean, hpclean⟩ := hok
  have hdec := decrement_inv h hheld
  have hself := modify_self s id Event.decrement
  unfold urEventReleaseInternal
  dsimp only
  generalize hs₁ : (s.modify id Event.decrement) = s₁ at *
  split
  · next hzero =>
    have hone : (s.events id).refCount = 1 := by
      rw [hself] at hzero
      have hzero : (s.events id).refCount - 1 = 0 := hzero
      have hpos : 0 < (s.events id).refCount := hheld.2
      omega
    have hout : ¬ Waits s₁.eventCaches id := by
      rw [← hs₁]
      exact not_waits_of_held h hheld
    have hlt : id < s₁.nextEvent := by rw [← hs₁]; exact hheld.1
    have hplaced : (s₁.events id).isDiscarded = false → Placed cfg (s₁.events id) := by
      rw [hself]
      intro hdisc
      have hp := h.placed id hheld.1 hdisc hheld.2
      exact ⟨hp.profiling, hp.device⟩
    have hc : cfg.disableEventsCaching = false → (s₁.events id).ownNativeHandle = true →
        (s₁.events id).Clean := by
      rw [hself]
      exact hclean hone
    split
    · exact dispose_inv hdec hlt hout hzero hplaced hc
    · next p hp =>
      split
      · exact dispose_inv hdec hlt hout hzero hplaced hc
      · next hne =>
        -- the proxy goes first; it is another event
        have hp' : (s.events id).hostVisibleEvent = some p := by rw [hself] at hp; exact hp
        have hpe : s₁.events p = s.events p := by rw [← hs₁]; exact modify_ne _ _ hne
        have hpheld : s₁.Held p := by
          have hh := hproxy p hp' hne
          exact ⟨by rw [← hs₁]; exact hh.1, by rw [hpe]; exact hh.2⟩
        have hprel : ReleasesClean cfg s₁ p := by
          unfold ReleasesClean
          rw [hpe]
          exact hpclean p hp'
        have hinv := releaseReference_inv hdec hpheld hprel
        obtain ⟨he, hn, hw⟩ := releaseReference_other cfg s₁ (Ne.symm hne : id ≠ p)
        refine dispose_inv hinv (by rw [hn]; exact hlt) (fun hwait => hout (hw hwait))
          (by rw [he]; exact hzero) (by rw [he]; exact hplaced) (by rw [he]; exact hc)
  · exact hdec

theorem event_step_inv (h : EventInv cfg immediate s) {t : EventStep} (hen : t.Enabled s)
    (hok : t.Recyclable cfg immediate s) : EventInv cfg immediate (t.run cfg s) := by
  cases t with
  | userEvent =>
    obtain ⟨hgood, hsound, hbut⟩ := eventCreate_spec h
      (a := ⟨none, false, true, false, false, false⟩) (fun hc => absurd hc (by simp))
    unfold EventStep.run
    refine (hbut.modify _).done (fun _ => ?_) (fun _ _ => ?_)
    · rw [modify_self]
      exact ⟨hsound.counter, hsound.interrupt, hsound.host, hsound.kind⟩
    · rw [modify_self]
      have hp := placed_of_queueless hgood rfl rfl
      exact ⟨hp.profiling, hp.device⟩
  | commandBufferEvent hostVisible counterBased profiling =>
    obtain ⟨rfl, hkind⟩ := hok
    obtain ⟨hgood, hsound, hbut⟩ := eventCreate_spec h
      (a := ⟨none, false, hostVisible, counterBased, !true, false⟩) (fun hc => (hkind hc).symm)
    exact hbut.done (fun _ => hsound) (fun _ _ => placed_of_queueless hgood rfl rfl)
  | completionBatchEvent q => exact absurd hok id
  | associate q commandType commandList isInternal isMultiDevice hostVisible queueCached =>
    exact associate_inv h hok
  | use id u => exact use_inv h hen
  | release id => exact release_inv h hen hok

theorem event_reached_inv
    (h : EventReached cfg (fun s t => t.Recyclable cfg immediate s) s) :
    EventInv cfg immediate s := by
  induction h with
  | init e =>
    exact ⟨fun j hj => absurd hj (Nat.not_lt_zero j), fun j hj => absurd hj (Nat.not_lt_zero j),
      shelved_empty, fun _ _ hj => absurd hj List.not_mem_nil⟩
  | step t _ hen hok ih => exact event_step_inv ih hen hok

/-- **A recycled event is as good as new.** In every state that recyclable steps
reach, whatever the cache hands out for a request (of the run's one kind of
command list, if it is counter-based) has the attributes asked for and the
observable state of a new event. -/
theorem event_recycled (h : EventReached cfg (fun s t => t.Recyclable cfg immediate s) s)
    {a : CreateArgs}
    (hkind : a.counterBasedEventEnabled = true → (a.attributes cfg).immediate = immediate)
    {s' : EventState} {id : EventId}
    (heq : s.getEventFromContextCache (a.attributes cfg) = some (s', id)) :
    AsGoodAsNew cfg id (s'.events id) (a.attributes cfg) :=
  (getEventFromContextCache_spec (event_reached_inv h) hkind heq).1

end Steps

/-! ## Runs that are not -/

instance (cfg : EventConfig) (id : EventId) (e : Event) (a : Attributes) :
    Decidable (AsGoodAsNew cfg id e a) := inferInstanceAs (Decidable (_ ∧ _))

/-- Steps of any kind. -/
def anyEventStep : EventState → EventStep → Prop := fun _ _ => True

/-- Run a list of steps, each of which must be enabled. -/
def runEvents (cfg : EventConfig) : EventState → List EventStep → Option EventState
  | s, [] => some s
  | s, t :: ts => if t.Enabled s then runEvents cfg (t.run cfg s) ts else none

theorem reached_runEvents {cfg : EventConfig} : ∀ {ts : List EventStep} {s s' : EventState},
    EventReached cfg anyEventStep s → runEvents cfg s ts = some s' →
      EventReached cfg anyEventStep s' := by
  intro ts
  induction ts with
  | nil => intro s s' h heq; exact Option.some.inj heq ▸ h
  | cons t ts ih =>
    intro s s' h heq
    unfold runEvents at heq
    split at heq
    · next hen => exact ih (.step t h hen trivial) heq
    · exact absurd heq (by simp)

/-- Two queues of one device without profiling, both with counter-based events:
queue 0 has regular command lists, the others immediate ones. -/
def mixedQueues : EventConfig where
  queues := fun q => ⟨0, false, q != 0, true, false, false, false⟩
  disableEventsCaching := false

def blankEvent : Event := .create 0 ⟨false, false, none, false, false, false⟩

/-- A reachable cache hands out an event that is not what was asked for. -/
def HandsOutStale (cfg : EventConfig) (a : CreateArgs) : Prop :=
  ∃ s s' id, EventReached cfg anyEventStep s ∧
    s.getEventFromContextCache (a.attributes cfg) = some (s', id) ∧
    ¬ AsGoodAsNew cfg id (s'.events id) (a.attributes cfg)

theorem handsOutStale_of_run {cfg : EventConfig} {a : CreateArgs} (ts : List EventStep)
    {s s' : EventState} {id : EventId} (hrun : runEvents cfg (.init blankEvent) ts = some s)
    (hget : s.getEventFromContextCache (a.attributes cfg) = some (s', id))
    (hbad : ¬ AsGoodAsNew cfg id (s'.events id) (a.attributes cfg)) : HandsOutStale cfg a :=
  ⟨s, s', id, reached_runEvents (.init _) hrun, hget, hbad⟩

theorem event_recycled_user :
    ∃ s s' id, EventReached mixedQueues (fun s t => t.Recyclable mixedQueues true s) s ∧
      s.getEventFromContextCache (CreateArgs.attributes mixedQueues
        ⟨none, false, true, false, false, false⟩) = some (s', id) ∧
      AsGoodAsNew mixedQueues id (s'.events id) (CreateArgs.attributes mixedQueues
        ⟨none, false, true, false, false, false⟩) := by
  have hnew : EventReached mixedQueues (fun s t => t.Recyclable mixedQueues true s) _ :=
    .step .userEvent (.init blankEvent) trivial trivial
  have hdone : EventReached mixedQueues (fun s t => t.Recyclable mixedQueues true s) _ :=
    .step (.release 0) hnew (by decide) ⟨fun _ _ _ => ⟨rfl, rfl, rfl⟩, fun p hp => by
      rw [← Option.some.inj (show some 0 = some p from hp)]
      exact fun _ _ _ => ⟨rfl, rfl, rfl⟩⟩
  exact ⟨_, _, _, hdone, rfl, event_recycled hdone (fun hc => absurd hc (by decide)) rfl⟩

/-- Events that are not as good as new. After a timestamp recording the next user
of the event finds it timestamped. A command-buffer without profiling leaves
events without it among those with it, and a completion batch leaves an event of
one device among those of all. Two queues with different kinds of command lists
exchange their counter-based events. -/
theorem event_not_recycled :
    HandsOutStale mixedQueues ⟨some 0, true, false, true, false, false⟩ ∧
    HandsOutStale mixedQueues ⟨none, false, false, false, false, false⟩ ∧
    HandsOutStale mixedQueues ⟨none, false, true, false, false, false⟩ ∧
    HandsOutStale mixedQueues ⟨some 0, false, false, true, false, false⟩ := by
  refine ⟨?_, ?_, ?_, ?_⟩
  · exact handsOutStale_of_run [.associate 0 .timestampRecording none false true none none,
      .use 0 (.recordTimestamp 5), .release 0, .release 0] rfl rfl (by decide)
  · exact handsOutStale_of_run [.commandBufferEvent false false false, .release 0] rfl rfl
      (by decide)
  · exact handsOutStale_of_run [.completionBatchEvent 0, .release 0] rfl rfl (by decide)
  · exact handsOutStale_of_run [.associate 1 .other none false false none none, .release 0,
      .release 0] rfl rfl (by decide)

end UnifiedRuntime.LevelZero
