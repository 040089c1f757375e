import Mathlib.Algebra.Group.Nat.Defs
import Mathlib.Data.List.Basic
import Mathlib.Data.List.Perm.Basic

/-!
# Building a wait list

`createAndRetainUrZeEventList` collects the events that a command of the queue `cur` waits for and
takes a reference to each. The caller holds the lock of `cur`; at an event of another queue that
lock is dropped and the other queue's lock taken instead, and a call in between can fail.

Other threads run while the lock of `cur` is not held, so what the loop finds at an event and how
the calls it makes there end are arguments, `Found`, one for each place of the wait list. The
locks that this thread holds and the references it takes are in `ListState`.

The calls at an event that fail after an event has been retained, or with the other queue's lock
held, leave references or the lock of `cur` behind; a multi-device event leaves a reference to the
event it stands for.

- `visit_ok`, `visit_multiDevice`, `visit_error`: one turn of the loop.
- `loop_of_unharmed`, `loop_of_harmed`: what the loop leaves.
- `createAndRetain_iff`: when the function is atomic and keeps the locks.
-/

namespace UnifiedRuntime.LevelZero.WaitList

/-! ## Data -/

inductive UrResult where
  | outOfHostMemory
  | other (code : Nat)
deriving DecidableEq

/-- A call returns an error, or an exception leaves it. -/
inductive Failure where
  | result (r : UrResult)
  | exception
deriving DecidableEq

/-- How a call ends: `none` is success. -/
abbrev Answer := Option Failure

structure Device where
  id : Nat
  /-- The root device of a sub-device. -/
  rootDevice : Option Nat
  useDriverInOrderLists : Bool
deriving DecidableEq

/-- The device itself, or the root device of a sub-device. -/
def Device.root (d : Device) : Nat := d.rootDevice.getD d.id

/-- What is fixed when a queue is created. -/
structure Queue where
  id : Nat
  device : Device
  isInOrderQueue : Bool
  usingImmCmdLists : Bool
  isDiscardEvents : Bool
  /-- `ZeEventsScope` is `AllHostVisible`. -/
  allHostVisible : Bool
deriving DecidableEq

structure Event where
  id : Nat
  zeEvent : Nat
  urQueue : Option Queue
  isMultiDevice : Bool
  isDiscarded : Bool

structure CommandList where
  isCopy : Bool
  eventList : List Nat

/-- `OpenCommandList` of the two batches of a queue. -/
structure OpenLists where
  compute : Option CommandList
  copy : Option CommandList

/-- `ReuseDiscardedEvents` and `FilterEventWaitList`. -/
structure Environment where
  reuseDiscardedEvents : Bool
  filterEventWaitList : Bool

/-- The queue of the command on entry. `none` is the end of `CommandListMap`. -/
structure Entry where
  lastCommandEvent : Option Event
  openLists : OpenLists
  lastUsedCommandList : Option Nat
  /-- The list of the group's next index, for the engine the command uses. -/
  nextImmCmdList : Option Nat
  /-- The event that `signalEventFromCmdListIfLastEventDiscarded` makes. -/
  glueEvent : Except Failure Event
  /-- `LastCommandEvent` after `executeOpenCommandList`. -/
  executed : Except Failure (Option Event)
  /-- Do both `new` succeed? -/
  allocates : Bool

/-- What the loop finds at an event, and how the calls there end. -/
structure Found where
  event : Event
  completed : Bool
  /-- Has its host-visible event been signalled, if it has one? -/
  hostVisible : Option Bool
  /-- The open lists of the event's queue. -/
  openLists : OpenLists
  submit : Answer
  getCommandList : Answer
  createEvent : Except Failure Event
  appendBarrier : Answer
  executeCommandList : Answer

/-- The list, the references taken for it and the queues whose locks this thread holds. -/
structure ListState where
  length : Nat
  zeEventList : List Nat
  urEventList : List Event
  retained : List Event
  locked : List Queue

namespace ListState

/-- The caller holds the lock of its queue. -/
def start (cur : Queue) : ListState where
  length := 0
  zeEventList := []
  urEventList := []
  retained := []
  locked := [cur]

/-- `RefCount.increment`. -/
def retain (s : ListState) (e : Event) : ListState := { s with retained := s.retained ++ [e] }

/-- The event takes the next place, with a reference. -/
def push (s : ListState) (e : Event) : ListState :=
  { s with
    zeEventList := s.zeEventList ++ [e.zeEvent]
    urEventList := s.urEventList ++ [e]
    retained := s.retained ++ [e] }

/-- `TmpListLength`. -/
def tmpListLength (s : ListState) : Nat := s.urEventList.length % 2 ^ 32

def publish (s : ListState) : ListState := { s with length := s.tmpListLength }

/-- Another queue's lock is taken, and that of `cur` dropped before. -/
def enter (s : ListState) (cur : Queue) : Option Queue → ListState
  | some q => if q = cur then s else { s with locked := q :: s.locked.erase cur }
  | none => s

/-- `QueueLock` goes out of scope. -/
def dropQueueLock (s : ListState) (cur : Queue) : Option Queue → ListState
  | some q => if q = cur then s else { s with locked := s.locked.erase q }
  | none => s

/-- `QueueLock.reset` and `CurQueue->Mutex.lock`. -/
def leave (s : ListState) (cur : Queue) : Option Queue → ListState
  | some q => if q = cur then s else { s with locked := cur :: s.locked.erase q }
  | none => s

end ListState

/-! ## The calls at an event -/

def eventOpenCommandList (q : Queue) (l : OpenLists) (e : Event) : Option CommandList :=
  if q.usingImmCmdLists then none
  else (l.compute.filter (e.id ∈ ·.eventList)).or (l.copy.filter (e.id ∈ ·.eventList))

section

variable (env : Environment) (cur : Queue) (useCopyEngine : Bool)

def Found.skipped (f : Found) : Bool :=
  f.completed || (env.filterEventWaitList && f.hostVisible == some true)

/-- The open list of the event's queue is executed, unless the command goes into it too. -/
def Found.submits (f : Found) : Answer :=
  match f.event.urQueue with
  | some q =>
    match eventOpenCommandList q f.openLists f.event with
    | some l => if q = cur ∧ l.isCopy = useCopyEngine then none else f.submit
    | none => none
  | none =>
    -- The result of `executeAllOpenCommandLists` is not looked at.
    if cur.allHostVisible then none
    else if f.submit = some .exception then f.submit else none

def Found.takesCommandList (f : Found) : Answer :=
  match f.event.urQueue with
  | some q => if q.device ≠ cur.device then f.getCommandList else none
  | none => none

def Found.needsMultiDevice (f : Found) : Bool :=
  match f.event.urQueue with
  | some q => q.device.root != cur.device.root && !f.event.isMultiDevice
  | none => false

/-- The event, or a multi-device event that is signalled after it, goes into the list. -/
def addEvent (s : ListState) (f : Found) : ListState × Answer :=
  if f.needsMultiDevice cur then
    match f.createEvent with
    | .error r => (s, some r)
    | .ok multiDeviceEvent =>
      let s := s.retain f.event
      match f.appendBarrier.or f.executeCommandList with
      | some r => (s, some r)
      | none => (s.push multiDeviceEvent, none)
  else (s.push f.event, none)

def waitFor (s : ListState) (f : Found) : ListState × Answer :=
  match (f.submits cur useCopyEngine).or (f.takesCommandList cur) with
  | some r => (s, some r)
  | none => addEvent cur s f

/-- One turn of the loop. -/
def visit (s : ListState) (f : Found) : ListState × Answer :=
  if f.skipped env then (s, none)
  else
    match waitFor cur useCopyEngine (s.enter cur f.event.urQueue) f with
    | (s, some r) => (s.dropQueueLock cur f.event.urQueue, some r)
    | (s, none) => (s.leave cur f.event.urQueue, none)

def loop : List Found → ListState → ListState × Answer
  | [], s => (s, none)
  | f :: fs, s =>
    match visit env cur useCopyEngine s f with
    | (s, some r) => (s, some r)
    | (s, none) => loop fs s

/-! ## The function -/

/-- What it leaves as `LastCommandEvent`; its result is not looked at. -/
def signalEventFromCmdListIfLastEventDiscarded (c : Entry) (last : Event) :
    Except Failure (Option Event) :=
  if env.reuseDiscardedEvents && cur.isInOrderQueue && cur.isDiscardEvents && last.isDiscarded then
    match c.glueEvent with
    | .ok e => .ok (some e)
    | .error (.result _) => .ok (some last)
    | .error .exception => .error .exception
  else .ok (some last)

/-- The steps before the list is filled, and `LastCommandEvent` after them. -/
def prepare (c : Entry) : Except Failure (Option Event) :=
  match c.lastCommandEvent with
  | none => .ok none
  | some last =>
    if !cur.isInOrderQueue then .ok (some last)
    else if cur.usingImmCmdLists then
      if env.reuseDiscardedEvents && cur.isDiscardEvents && c.lastUsedCommandList != none &&
          c.lastUsedCommandList != c.nextImmCmdList then
        signalEventFromCmdListIfLastEventDiscarded env cur c last
      else .ok (some last)
    else
      match eventOpenCommandList cur c.openLists last with
      | some l => if l.isCopy != useCopyEngine then c.executed else .ok (some last)
      | none => .ok (some last)

def includeLastCommandEvent (c : Entry) (last : Option Event) : Bool :=
  match last with
  | none => false
  | some e =>
    cur.isInOrderQueue &&
    !(env.reuseDiscardedEvents && cur.isDiscardEvents && e.isDiscarded) &&
    -- The driver keeps the order within a list.
    (!(cur.device.useDriverInOrderLists && cur.usingImmCmdLists) ||
      (c.lastUsedCommandList != none && c.nextImmCmdList != c.lastUsedCommandList))

/-- The list starts with the last command event, if it is included. -/
def firstEvents (c : Entry) (last : Option Event) : List Event :=
  if includeLastCommandEvent env cur c last then last.toList else []

def waitListEmptyOrAllEventsFromSameQueue (eventList : List Found) : Bool :=
  eventList.all (·.event.urQueue == some cur)

/-- The driver keeps the order of the queue, and no other queue is involved. -/
def driverKeepsOrder (eventList : List Found) : Bool :=
  cur.device.useDriverInOrderLists && cur.isInOrderQueue &&
    waitListEmptyOrAllEventsFromSameQueue cur eventList

/-- The body of `try`. -/
def fill (c : Entry) (last : Option Event) (eventList : List Found) : ListState × Answer :=
  let first := firstEvents env cur c last
  if (!first.isEmpty || !eventList.isEmpty) && !c.allocates then
    (ListState.start cur, some .exception)
  else
    let s := first.foldl ListState.push (ListState.start cur)
    if driverKeepsOrder cur eventList then (s.publish, none)
    else
      match loop env cur useCopyEngine eventList s with
      | (s, some r) => (s, some r)
      | (s, none) => (s.publish, none)

/-- `catch (...)`. -/
def Failure.caught : Failure → Failure
  | .result r => .result r
  | .exception => .result .outOfHostMemory

def createAndRetainUrZeEventList (c : Entry) (eventList : List Found) : ListState × Answer :=
  match prepare env cur useCopyEngine c with
  | .error r => (ListState.start cur, some r)
  | .ok last =>
    let (s, r) := fill env cur useCopyEngine c last eventList
    (s, r.map Failure.caught)

end

/-! ## Atomic lists -/

/-- The events the caller sees in the list. -/
def ListState.listed (s : ListState) : List Event := s.urEventList.take s.length

/-- **Atomic and balanced**: the lock of `cur` is held and no other; a success has retained what
is listed, as often as it is listed, and a failure nothing. -/
structure Atomic (cur : Queue) (r : ListState × Answer) : Prop where
  locks : r.1.locked = [cur]
  length : r.2 = none → r.1.length = r.1.retained.length
  success : r.2 = none → r.1.retained.Perm r.1.listed
  failure : r.2 ≠ none → r.1.retained = [] ∧ r.1.length = 0

section

variable {env : Environment} {cur : Queue} {useCopyEngine : Bool}

/-- The first call at the event that fails. -/
def Found.failure (cur : Queue) (useCopyEngine : Bool) (f : Found) : Answer :=
  ((f.submits cur useCopyEngine).or (f.takesCommandList cur)).or
    (if f.needsMultiDevice cur then
      match f.createEvent with
      | .error r => some r
      | .ok _ => f.appendBarrier.or f.executeCommandList
    else none)

/-- The lock of `cur` is held while the event is looked at. -/
def Found.keepsLock (cur : Queue) (f : Found) : Bool :=
  f.event.urQueue == none || f.event.urQueue == some cur

/-- The loop goes past the event. -/
def Found.passed (env : Environment) (cur : Queue) (useCopyEngine : Bool) (f : Found) : Bool :=
  f.skipped env || f.failure cur useCopyEngine == none

/-- If the loop comes to the event, with `before` before it, then either all calls there succeed
and no multi-device event is needed, or the lock of `cur` is held and nothing has been retained. -/
def UnharmedAt (env : Environment) (cur : Queue) (useCopyEngine : Bool) (included : Bool)
    (before : List Found) (f : Found) : Prop :=
  (∀ g ∈ before, g.passed env cur useCopyEngine) → f.skipped env = false →
    if f.failure cur useCopyEngine = none then f.needsMultiDevice cur = false
    else f.keepsLock cur ∧ included = false ∧ ∀ g ∈ before, g.skipped env

def Unharmed (env : Environment) (cur : Queue) (useCopyEngine : Bool) (included : Bool)
    (eventList : List Found) : Prop :=
  ∀ before f after, eventList = before ++ f :: after →
    UnharmedAt env cur useCopyEngine included before f

/-! ## An event -/

variable {s : ListState} {last : Option Event}

theorem addEvent_ok {f : Found} (h : f.needsMultiDevice cur = false) :
    addEvent cur s f = (s.push f.event, none) := by
  simp [addEvent, h]

/-- At an event where all calls succeed it goes into the list. -/
theorem waitFor_ok {f : Found} (h : f.failure cur useCopyEngine = none)
    (hm : f.needsMultiDevice cur = false) :
    waitFor cur useCopyEngine s f = (s.push f.event, none) := by
  obtain ⟨hbefore, -⟩ := Option.or_eq_none_iff.mp h
  simp only [waitFor, hbefore]
  exact addEvent_ok hm

/-- A multi-device event goes into the list in place of the event, and both are retained. -/
theorem waitFor_multiDevice {f : Found}
    (h : f.failure cur useCopyEngine = none) (hm : f.needsMultiDevice cur = true) :
    ∃ e, ∀ s, waitFor cur useCopyEngine s f = ((s.retain f.event).push e, none) := by
  obtain ⟨hbefore, hadd⟩ := Option.or_eq_none_iff.mp h
  rw [if_pos hm] at hadd
  simp only [waitFor, hbefore, addEvent, if_pos hm]
  cases hcreate : f.createEvent with
  | error r => simp [hcreate] at hadd
  | ok e =>
    simp only [hcreate] at hadd
    simp only [hadd]
    exact ⟨e, fun _ => rfl⟩

/-- A failure adds nothing to the list, and takes or drops no lock. Only for a multi-device event
it leaves a reference. -/
theorem waitFor_error {f : Found} {r : Failure} (h : f.failure cur useCopyEngine = some r) :
    ∃ more, (f.needsMultiDevice cur = false → more = []) ∧
      waitFor cur useCopyEngine s f = ({ s with retained := s.retained ++ more }, some r) := by
  unfold waitFor
  cases hbefore : (f.submits cur useCopyEngine).or (f.takesCommandList cur) with
  | some r' =>
    rw [Found.failure, hbefore] at h
    rw [← Option.some.inj h]
    exact ⟨[], fun _ => rfl, by simp⟩
  | none =>
    rw [Found.failure, hbefore, Option.none_or] at h
    by_cases hm : f.needsMultiDevice cur
    · rw [if_pos hm] at h
      simp only [addEvent, if_pos hm]
      cases hcreate : f.createEvent with
      | error r' =>
        simp only [hcreate] at h
        rw [← Option.some.inj h]
        exact ⟨[], fun _ => rfl, by simp⟩
      | ok e =>
        simp only [hcreate] at h
        simp only [h]
        exact ⟨[f.event], fun hno => absurd hm (by simp [hno]), rfl⟩
    · rw [if_neg hm] at h
      cases h

/-! ## The locks -/

/-- The queue that is locked in place of `cur`. -/
theorem other_of_not_keepsLock {f : Found} (h : f.keepsLock cur = false) :
    ∃ q, f.event.urQueue = some q ∧ q ≠ cur := by
  unfold Found.keepsLock at h
  cases hq : f.event.urQueue with
  | none => simp [hq] at h
  | some q =>
    refine ⟨q, rfl, fun he => ?_⟩
    simp [hq, he] at h

theorem needsMultiDevice_of_keepsLock {f : Found} (h : f.keepsLock cur = true) :
    f.needsMultiDevice cur = false := by
  unfold Found.keepsLock at h
  unfold Found.needsMultiDevice
  cases hq : f.event.urQueue with
  | none => rfl
  | some q =>
    obtain rfl : q = cur := by simpa [hq] using h
    simp

theorem enter_keepsLock {f : Found} (h : f.keepsLock cur = true) :
    s.enter cur f.event.urQueue = s ∧ s.leave cur f.event.urQueue = s ∧
      s.dropQueueLock cur f.event.urQueue = s := by
  unfold Found.keepsLock at h
  cases hq : f.event.urQueue with
  | none => exact ⟨rfl, rfl, rfl⟩
  | some q =>
    obtain rfl : q = cur := by simpa [hq] using h
    simp [ListState.enter, ListState.leave, ListState.dropQueueLock]

/-! ## One turn -/

theorem visit_skipped {f : Found} (h : f.skipped env = true) :
    visit env cur useCopyEngine s f = (s, none) := by
  simp [visit, h]

/-- A turn that goes on leaves the locks as it found them. -/
theorem visit_of_waitFor {f : Found} (add : ListState → ListState)
    (hs : f.skipped env = false) (hlocked : s.locked = [cur])
    (hadd : ∀ l, add { s with locked := l } = { add s with locked := l })
    (hwait : ∀ s, waitFor cur useCopyEngine s f = (add s, none)) :
    visit env cur useCopyEngine s f = (add s, none) := by
  simp only [visit, hs, Bool.false_eq_true, if_false, hwait]
  cases hk : f.keepsLock cur with
  | true => rw [(enter_keepsLock hk).1, (enter_keepsLock hk).2.1]
  | false =>
    obtain ⟨q, hq, hne⟩ := other_of_not_keepsLock hk
    have hsame : { add s with locked := [cur] } = add s := by
      rw [← hadd, ← hlocked]
    have hback : cur :: ((q :: [cur].erase cur).erase q) = [cur] := by simp
    simp only [hq, ListState.enter, ListState.leave, if_neg hne]
    rw [hadd, hlocked, hback, hsame]

theorem visit_ok {f : Found} (hlocked : s.locked = [cur])
    (hs : f.skipped env = false) (h : f.failure cur useCopyEngine = none)
    (hm : f.needsMultiDevice cur = false) :
    visit env cur useCopyEngine s f = (s.push f.event, none) :=
  visit_of_waitFor (·.push f.event) hs hlocked (fun _ => rfl) fun _ => waitFor_ok h hm

/-- After a turn with a multi-device event more is retained than listed. -/
theorem visit_multiDevice {f : Found} (hlocked : s.locked = [cur])
    (hs : f.skipped env = false) (h : f.failure cur useCopyEngine = none)
    (hm : f.needsMultiDevice cur = true) :
    ∃ e, visit env cur useCopyEngine s f = ((s.retain f.event).push e, none) := by
  obtain ⟨e, he⟩ := waitFor_multiDevice h hm
  exact ⟨e, visit_of_waitFor (fun s => (s.retain f.event).push e) hs hlocked (fun _ => rfl) he⟩

/-- After a turn that fails, the lock of `cur` is held if it was kept. -/
theorem visit_error {f : Found} {r : Failure} (hlocked : s.locked = [cur])
    (hs : f.skipped env = false) (h : f.failure cur useCopyEngine = some r) :
    ∃ more, (f.keepsLock cur = true → more = []) ∧
      visit env cur useCopyEngine s f =
        ({ s with
          retained := s.retained ++ more
          locked := if f.keepsLock cur then [cur] else [] }, some r) := by
  obtain ⟨more, hnone, hmore⟩ := @waitFor_error _ _ (s.enter cur f.event.urQueue) _ _ h
  refine ⟨more, fun hk => hnone (needsMultiDevice_of_keepsLock hk), ?_⟩
  simp only [visit, hs, Bool.false_eq_true, if_false, hmore]
  cases hk : f.keepsLock cur with
  | true =>
    obtain ⟨henter, -, -⟩ := @enter_keepsLock _ s _ hk
    obtain ⟨-, -, hdrop⟩ := @enter_keepsLock _ { s with retained := s.retained ++ more } _ hk
    rw [henter, hdrop, if_pos rfl, ← hlocked]
  | false =>
    obtain ⟨q, hq, hne⟩ := other_of_not_keepsLock hk
    simp [hq, ListState.enter, ListState.dropQueueLock, if_neg hne, hlocked]

/-! ## The condition, event by event -/

/-- A split of a list with a first element is at that element or behind it. -/
theorem forall_split_cons {α : Type} {a : α} {l : List α} {p : List α → α → Prop} :
    (∀ before x after, a :: l = before ++ x :: after → p before x) ↔
      p [] a ∧ ∀ before x after, l = before ++ x :: after → p (a :: before) x := by
  constructor
  · intro h
    exact ⟨h [] a l rfl, fun before x after hl => h (a :: before) x after (by rw [hl]; rfl)⟩
  · intro ⟨hhead, htail⟩ before x after hl
    cases before with
    | nil =>
      obtain ⟨rfl, -⟩ := List.cons.inj hl
      exact hhead
    | cons b before =>
      obtain ⟨rfl, hrest⟩ := List.cons.inj hl
      exact htail before x after hrest

section

variable {included : Bool} {f : Found} {fs : List Found}

theorem unharmed_nil : Unharmed env cur useCopyEngine included [] := by
  intro before f after h
  simp at h

theorem unharmed_skipped (hs : f.skipped env = true) :
    Unharmed env cur useCopyEngine included (f :: fs) ↔
      Unharmed env cur useCopyEngine included fs := by
  unfold Unharmed
  rw [forall_split_cons]
  simp [UnharmedAt, hs, Found.passed]

theorem unharmed_ok (hs : f.skipped env = false) (h : f.failure cur useCopyEngine = none) :
    Unharmed env cur useCopyEngine included (f :: fs) ↔
      f.needsMultiDevice cur = false ∧ Unharmed env cur useCopyEngine true fs := by
  unfold Unharmed
  rw [forall_split_cons]
  simp [UnharmedAt, hs, h, Found.passed]

theorem unharmed_error {r : Failure} (hs : f.skipped env = false)
    (h : f.failure cur useCopyEngine = some r) :
    Unharmed env cur useCopyEngine included (f :: fs) ↔
      f.keepsLock cur = true ∧ included = false := by
  unfold Unharmed
  rw [forall_split_cons]
  simp [UnharmedAt, hs, h, Found.passed]

end

/-! ## The loop -/

/-- The events of the wait list that are not skipped. -/
def awaited (env : Environment) (eventList : List Found) : List Event :=
  (eventList.filter fun f => !f.skipped env).map (·.event)

theorem foldl_push (es : List Event) (s : ListState) :
    es.foldl ListState.push s =
      { s with
        zeEventList := s.zeEventList ++ es.map (·.zeEvent)
        urEventList := s.urEventList ++ es
        retained := s.retained ++ es } := by
  induction es generalizing s with
  | nil => simp
  | cons e es ih =>
    rw [List.foldl_cons, ih]
    simp [ListState.push]

/-- **An unharmed loop** lists and retains the events it waits for, or fails with nothing done. -/
theorem loop_of_unharmed {included : Bool} (fs : List Found)
    (hlocked : s.locked = [cur]) (hincluded : included = false → s.retained = [])
    (h : Unharmed env cur useCopyEngine included fs) :
    (loop env cur useCopyEngine fs s = ((awaited env fs).foldl ListState.push s, none) ∧
        ∀ f ∈ fs, f.passed env cur useCopyEngine) ∨
      (∃ r, loop env cur useCopyEngine fs s = (s, some r)) ∧ s.retained = [] ∧
        ¬ ∀ f ∈ fs, f.passed env cur useCopyEngine := by
  induction fs generalizing s included with
  | nil => exact .inl ⟨rfl, by simp⟩
  | cons f fs ih =>
    cases hs : f.skipped env with
    | true =>
      have hrest := ih hlocked hincluded ((unharmed_skipped hs).mp h)
      simpa [loop, visit_skipped hs, awaited, hs, Found.passed] using hrest
    | false =>
      cases hf : f.failure cur useCopyEngine with
      | none =>
        obtain ⟨hm, h⟩ := (unharmed_ok hs hf).mp h
        rcases @ih (s.push f.event) true hlocked nofun h with ⟨hloop, hall⟩ | ⟨-, hnil, -⟩
        · refine .inl ⟨?_, ?_⟩
          · simp [loop, visit_ok hlocked hs hf hm, hloop, awaited, hs]
          · simpa [Found.passed, hf] using hall
        · simp [ListState.push] at hnil
      | some r =>
        obtain ⟨hk, rfl⟩ := (unharmed_error hs hf).mp h
        obtain ⟨more, hnone, hvisit⟩ := @visit_error _ _ _ s _ _ hlocked hs hf
        obtain rfl := hnone hk
        refine .inr ⟨⟨r, ?_⟩, hincluded rfl, ?_⟩
        · simp [loop, hvisit, hk, ← hlocked]
        · simp [Found.passed, hs, hf]

/-- Something is left behind: the lock of `cur` is not held, more is retained than listed, or
something is retained after a failure. -/
def Harmed (cur : Queue) (r : ListState × Answer) : Prop :=
  r.1.locked ≠ [cur] ∨ r.1.urEventList.length < r.1.retained.length ∨
    r.2 ≠ none ∧ r.1.retained ≠ []

/-- What is retained and not listed stays so. -/
theorem loop_excess (fs : List Found) (hlocked : s.locked = [cur])
    (h : s.urEventList.length < s.retained.length) :
    Harmed cur (loop env cur useCopyEngine fs s) := by
  induction fs generalizing s with
  | nil => exact .inr (.inl h)
  | cons f fs ih =>
    cases hs : f.skipped env with
    | true =>
      simp only [loop, visit_skipped hs]
      exact ih hlocked h
    | false =>
      cases hf : f.failure cur useCopyEngine with
      | none =>
        cases hm : f.needsMultiDevice cur with
        | false =>
          simp only [loop, visit_ok hlocked hs hf hm]
          exact ih hlocked (by simp [ListState.push]; omega)
        | true =>
          obtain ⟨e, he⟩ := visit_multiDevice hlocked hs hf hm
          simp only [loop, he]
          exact ih hlocked (by simp [ListState.push, ListState.retain]; omega)
      | some r =>
        obtain ⟨more, -, hvisit⟩ := @visit_error _ _ _ s _ _ hlocked hs hf
        simp only [loop, hvisit]
        exact .inr (.inl (by simp; omega))

/-- **A harmed loop** leaves something behind. -/
theorem loop_of_harmed {included : Bool} (fs : List Found)
    (hlocked : s.locked = [cur]) (hincluded : included = true → s.retained ≠ [])
    (hle : s.urEventList.length ≤ s.retained.length)
    (h : ¬ Unharmed env cur useCopyEngine included fs) :
    Harmed cur (loop env cur useCopyEngine fs s) := by
  induction fs generalizing s included with
  | nil => exact absurd unharmed_nil h
  | cons f fs ih =>
    cases hs : f.skipped env with
    | true =>
      simp only [loop, visit_skipped hs]
      exact ih hlocked hincluded hle ((unharmed_skipped hs).not.mp h)
    | false =>
      cases hf : f.failure cur useCopyEngine with
      | none =>
        cases hm : f.needsMultiDevice cur with
        | false =>
          have hrest : ¬ Unharmed env cur useCopyEngine true fs :=
            fun hrest => h ((unharmed_ok hs hf).mpr ⟨hm, hrest⟩)
          simp only [loop, visit_ok hlocked hs hf hm]
          exact ih hlocked (fun _ => by simp [ListState.push]) (by simpa [ListState.push]) hrest
        | true =>
          obtain ⟨e, he⟩ := visit_multiDevice hlocked hs hf hm
          simp only [loop, he]
          exact loop_excess fs hlocked (by simp [ListState.push, ListState.retain]; omega)
      | some r =>
        obtain ⟨more, -, hvisit⟩ := @visit_error _ _ _ s _ _ hlocked hs hf
        simp only [loop, hvisit]
        cases hk : f.keepsLock cur with
        | false => exact .inl (by simp)
        | true =>
          have hinc : included = true := by
            by_contra hno
            exact h ((unharmed_error hs hf).mpr ⟨hk, by simpa using hno⟩)
          exact .inr (.inr ⟨Option.some_ne_none r, by simp [hincluded hinc]⟩)

/-! ## The function -/

/-- A harmed result is not atomic, whatever the function does with it. -/
theorem not_atomic_of_harmed {r : ListState × Answer} {answer : Answer}
    (h : Harmed cur r) (hlocked : s.locked = r.1.locked) (hretained : s.retained = r.1.retained)
    (hlength : answer = none → s.length ≤ r.1.urEventList.length)
    (hanswer : answer = none ↔ r.2 = none) : ¬ Atomic cur (s, answer) := by
  intro hatomic
  have hlocks := hatomic.locks
  have hlen := hatomic.length
  have hfailure := hatomic.failure
  dsimp only at hlocks hlen hfailure
  rw [hretained] at hlen hfailure
  rcases h with h | h | ⟨hne, h⟩
  · exact h (hlocked ▸ hlocks)
  · by_cases hnone : answer = none
    · have := hlen hnone
      have := hlength hnone
      omega
    · rw [(hfailure hnone).1] at h
      exact absurd h (by simp)
  · exact h (hfailure fun hnone => hne (hanswer.mp hnone)).1

/-- Listing and retaining the same events is atomic if their number fits into `Length`. -/
theorem atomic_publish_iff (es : List Event) :
    Atomic cur ((es.foldl ListState.push (ListState.start cur)).publish, none) ↔
      es.length < 2 ^ 32 := by
  rw [foldl_push]
  constructor
  · intro h
    have hlength := h.length rfl
    simp only [ListState.publish, ListState.tmpListLength, ListState.start, List.nil_append]
      at hlength
    omega
  · intro h
    have hmod : es.length % 2 ^ 32 = es.length := Nat.mod_eq_of_lt h
    refine ⟨rfl, fun _ => ?_, fun _ => ?_, fun hne => absurd rfl hne⟩
    · show ([] ++ es).length % 2 ^ 32 = ([] ++ es).length
      rw [List.nil_append, hmod]
    · show ([] ++ es).Perm (([] ++ es).take (([] ++ es).length % 2 ^ 32))
      rw [List.nil_append, hmod, List.take_length]

theorem atomic_start (r : Failure) : Atomic cur (ListState.start cur, some r) :=
  ⟨rfl, nofun, nofun, fun _ => ⟨rfl, rfl⟩⟩

theorem firstEvents_eq_nil {c : Entry} :
    firstEvents env cur c last = [] ↔ includeLastCommandEvent env cur c last = false := by
  unfold firstEvents
  cases last with
  | none => simp [includeLastCommandEvent]
  | some e => simp

theorem firstEvents_length (c : Entry) (last : Option Event) :
    (firstEvents env cur c last).length ≤ 1 := by
  unfold firstEvents
  split
  · cases last <;> simp
  · simp

/-- The loop does no harm, and when it comes to its end the number of events fits into 32 bits. -/
def HarmlessFrom (env : Environment) (cur : Queue) (useCopyEngine : Bool) (c : Entry)
    (last : Option Event) (eventList : List Found) : Prop :=
  Unharmed env cur useCopyEngine (includeLastCommandEvent env cur c last) eventList ∧
    ((∀ f ∈ eventList, f.passed env cur useCopyEngine) →
      (firstEvents env cur c last).length + (awaited env eventList).length < 2 ^ 32)

/-- When the wait list is built atomically: the function does not come to the loop, or the loop is
harmless. -/
def AtomicWhen (env : Environment) (cur : Queue) (useCopyEngine : Bool) (c : Entry)
    (eventList : List Found) : Prop :=
  ∀ last, prepare env cur useCopyEngine c = .ok last → c.allocates = true →
    driverKeepsOrder cur eventList = false → HarmlessFrom env cur useCopyEngine c last eventList

/-- The body of `try` when the memory is there and the loop runs. -/
theorem fill_atomic {c : Entry} {eventList : List Found}
    (hallocates : c.allocates = true) (horder : driverKeepsOrder cur eventList = false) :
    Atomic cur ((fill env cur useCopyEngine c last eventList).1,
        (fill env cur useCopyEngine c last eventList).2.map Failure.caught) ↔
      HarmlessFrom env cur useCopyEngine c last eventList := by
  simp only [fill, hallocates, Bool.not_true, Bool.and_false, Bool.false_eq_true, if_false, horder]
  have hstart := @foldl_push (firstEvents env cur c last) (ListState.start cur)
  generalize hs : (firstEvents env cur c last).foldl ListState.push (ListState.start cur) = s
  rw [hs] at hstart
  have hlocked : s.locked = [cur] := by rw [hstart]; rfl
  have hlist : s.urEventList = s.retained := by rw [hstart]; rfl
  have hretained : s.retained = firstEvents env cur c last := by rw [hstart]; rfl
  by_cases h : Unharmed env cur useCopyEngine (includeLastCommandEvent env cur c last) eventList
  · have hincluded : includeLastCommandEvent env cur c last = false → s.retained = [] :=
      fun hno => hretained.trans (firstEvents_eq_nil.mpr hno)
    rcases loop_of_unharmed eventList hlocked hincluded h with
      ⟨hloop, hall⟩ | ⟨⟨r, hloop⟩, hnil, hnot⟩
    · rw [hloop, ← hs, ← List.foldl_append]
      dsimp only [Option.map]
      rw [atomic_publish_iff, List.length_append]
      exact ⟨fun hlt => ⟨h, fun _ => hlt⟩, fun hlt => hlt.2 hall⟩
    · rw [hloop]
      have hempty : s = ListState.start cur := by
        rw [← hs, hretained.symm.trans hnil]
        rfl
      rw [hempty]
      exact ⟨fun _ => ⟨h, fun hall => absurd hall hnot⟩, fun _ => atomic_start _⟩
  · have hincluded : includeLastCommandEvent env cur c last = true → s.retained ≠ [] := by
      intro hyes hnil
      rw [hretained, firstEvents_eq_nil, hyes] at hnil
      cases hnil
    have hharmed := loop_of_harmed eventList hlocked hincluded (Nat.le_of_eq (by rw [hlist])) h
    refine ⟨fun hatomic => ?_, fun hboth => absurd hboth.1 h⟩
    generalize loop env cur useCopyEngine eventList s = r at hharmed hatomic
    obtain ⟨s', answer⟩ := r
    cases answer with
    | none =>
      exact absurd hatomic (not_atomic_of_harmed hharmed rfl rfl
        (fun _ => Nat.mod_le s'.urEventList.length _) (by simp))
    | some r => exact absurd hatomic (not_atomic_of_harmed hharmed rfl rfl nofun (by simp))

/-- Without memory nothing is done, unless none is needed. -/
theorem fill_no_memory {c : Entry} {eventList : List Found} (hallocates : c.allocates = false) :
    Atomic cur ((fill env cur useCopyEngine c last eventList).1,
      (fill env cur useCopyEngine c last eventList).2.map Failure.caught) := by
  simp only [fill, hallocates, Bool.not_false, Bool.and_true]
  split
  next => exact atomic_start _
  next hnone =>
    have hempty : firstEvents env cur c last = [] ∧ eventList = [] := by simpa using hnone
    have hpublish := (@atomic_publish_iff cur []).mpr (by decide)
    rw [hempty.1, hempty.2]
    split <;> exact hpublish

/-- Where the driver keeps the order, at most the last command event is listed. -/
theorem fill_driverKeepsOrder {c : Entry} {eventList : List Found}
    (hallocates : c.allocates = true) (horder : driverKeepsOrder cur eventList = true) :
    Atomic cur ((fill env cur useCopyEngine c last eventList).1,
      (fill env cur useCopyEngine c last eventList).2.map Failure.caught) := by
  simp only [fill, hallocates, Bool.not_true, Bool.and_false, Bool.false_eq_true, if_false, horder,
    if_true]
  have hle := @firstEvents_length env cur c last
  exact (atomic_publish_iff _).mpr (by omega)

/-- **A wait list is built atomically**, with the locks balanced, exactly when no event of another
queue fails, nothing fails after an event has been retained, and no multi-device event is needed. -/
theorem createAndRetain_iff (env : Environment) (cur : Queue) (useCopyEngine : Bool) (c : Entry)
    (eventList : List Found) :
    Atomic cur (createAndRetainUrZeEventList env cur useCopyEngine c eventList) ↔
      AtomicWhen env cur useCopyEngine c eventList := by
  unfold createAndRetainUrZeEventList AtomicWhen
  cases hprepare : prepare env cur useCopyEngine c with
  | error r => exact ⟨fun _ => nofun, fun _ => atomic_start r⟩
  | ok last =>
    cases hallocates : c.allocates with
    | false => exact ⟨fun _ _ _ => nofun, fun _ => fill_no_memory hallocates⟩
    | true =>
      cases horder : driverKeepsOrder cur eventList with
      | true => exact ⟨fun _ _ _ _ => nofun, fun _ => fill_driverKeepsOrder hallocates horder⟩
      | false =>
        rw [fill_atomic hallocates horder]
        constructor
        · intro h l hl _ _
          exact Except.ok.inj hl ▸ h
        · intro h
          exact h last rfl rfl rfl

/-- A queue, and an event of a queue with another number. -/
def queueOf (id : Nat) : Queue := ⟨id, ⟨0, none, false⟩, false, false, false, true⟩

def eventOf (queue : Nat) : Event := ⟨7, 7, some (queueOf queue), false, false⟩

/-- A queue waits for an event in an open batch of another queue, and executing that batch fails:
the lock of the waiting queue is not held any more. -/
theorem createAndRetain_unlocks :
    ¬ Atomic (queueOf 0) (createAndRetainUrZeEventList ⟨false, true⟩ (queueOf 0) false
      ⟨none, ⟨none, none⟩, none, none, .ok (eventOf 1), .ok none, true⟩
      [⟨eventOf 1, false, some false, ⟨some ⟨false, [7]⟩, none⟩, some (.result (.other 1)), none,
        .ok (eventOf 1), none, none⟩]) := by
  intro h
  exact absurd h.locks (by decide)

end

end UnifiedRuntime.LevelZero.WaitList
