import Mathlib

/-!
# Events and their pools in the v2 adapter

A queue borrows an event pool from the cache of its context (`event_pool_cache.cpp`)
and gives it back when it is destroyed. `event_pool::allocate` hands out an event of
the pool's freelist, which is filled with 64 new events when it is empty; each has a
driver event of the pool's provider (`event_provider_normal.cpp`). The last release of
an event puts it back into the freelist of the pool it came from; an event that waits
for a timestamp stays with its queue until the queue is finished (`event.cpp`).

Vectors that are used at their back are lists with the back first.
-/

namespace UnifiedRuntime.LevelZeroV2

open Function (update)

/-! ## Driver events -/

/-- `EVENTS_BURST`, of the pools and of the provider's. -/
def eventsBurst : Nat := 64

/-- `std::sort` of the provider's pools, those with the most free events at the back. -/
structure ProviderSort where
  sort : List (List Nat) → List (List Nat)
  perm : ∀ pools, (sort pools).Perm pools
  sorted : ∀ pools, (sort pools).Pairwise fun a b => b.length ≤ a.length

/-- The freelists of a `provider_normal`, the number of the next driver event, and how
many pools the driver can still create in this call. -/
structure Provider where
  pools : List (List Nat)
  nextZe : Nat
  budget : Nat

namespace Provider

/-- `createProviderPool` with its `emplace_back`. -/
def createProviderPool (v : Provider) : Option Provider :=
  if v.budget = 0 then none
  else
    some ⟨(List.range' v.nextZe eventsBurst).reverse :: v.pools, v.nextZe + eventsBurst,
      v.budget - 1⟩

/-- `provider_pool::allocate` of the pool at the back. -/
def popBack : List (List Nat) → Option (Nat × List (List Nat))
  | (z :: free) :: pools => some (z, free :: pools)
  | [] :: _ | [] => none

/-- The end of `provider_normal::allocate`: the new pool is at the back. -/
def allocateNew (v : Provider) : Provider × Option Nat :=
  match v.createProviderPool with
  | none => (v, none)
  | some v =>
    match popBack v.pools with
    | some (z, pools) => (⟨pools, v.nextZe, v.budget⟩, some z)
    | none => (v, none)

/-- `provider_normal::allocate`; it fails where the driver creates no pool. -/
def allocate (sort : ProviderSort) (v : Provider) : Provider × Option Nat :=
  if v.pools.isEmpty then v.allocateNew
  else
    match popBack v.pools with
    | some (z, pools) => (⟨pools, v.nextZe, v.budget⟩, some z)
    | none =>
      let v : Provider := ⟨sort.sort v.pools, v.nextZe, v.budget⟩
      match popBack v.pools with
      | some (z, pools) => (⟨pools, v.nextZe, v.budget⟩, some z)
      | none => v.allocateNew

end Provider

/-! ## Events -/

/-- `event_flags_t`. -/
structure EventFlags where
  counter : Bool
  profilingEnabled : Bool

def EventFlags.bits (flags : EventFlags) : Nat :=
  (if flags.counter then 1 else 0) ||| (if flags.profilingEnabled then 2 else 0)

/-- A driver event of a provider, or of the application. -/
inductive ZeEvent where
  | pooled (z : Nat)
  | native (z : Nat)

/-- `UR_COMMAND_FORCE_UINT32`. -/
def commandForceUint32 : Nat := 0x7fffffff

/-- `ur_event_handle_t_`; `signaled` is the state of the driver's event. -/
structure Event where
  pool : Option Nat
  zeEvent : ZeEvent
  flags : EventFlags
  refCount : Nat
  hQueue : Option Nat
  commandType : Nat
  startTimestamp : Nat
  endTimestamp : Nat
  signaled : Bool

namespace Event

def new (pool : Option Nat) (zeEvent : ZeEvent) (flags : EventFlags) : Event :=
  ⟨pool, zeEvent, flags, 1, none, commandForceUint32, 0, 0, false⟩

def resetQueueAndCommand (ev : Event) (hQueue : Option Nat) (commandType : Nat) : Event :=
  { ev with
    hQueue := hQueue
    commandType := commandType
    startTimestamp := 0
    endTimestamp := 0 }

def isTimestamped (ev : Event) : Bool := ev.startTimestamp ≠ 0

/-- `getEventEndTimestamp`: `timestamp` is what it reads, 0 while the event is not ready. -/
def getEventEndTimestamp (ev : Event) (timestamp : Nat) : Nat :=
  if ev.endTimestamp ≠ 0 then ev.endTimestamp else timestamp

/-- `reset`, for events that are not counter-based. -/
def reset (ev : Event) : Event :=
  if ev.flags.counter then ev else { ev with signaled := false }

end Event

/-! ## Pools and queues -/

/-- `event_pool`, with the index of the cache it goes back to. -/
structure EventPool where
  index : Nat
  flags : EventFlags
  provider : List (List Nat)
  freelist : List Nat

/-- The part of a queue that holds events. -/
structure EventQueue where
  pool : Nat
  deferredEvents : List Nat

/-- The events of a context. `held` are the events that someone has references to,
`abandoned` those of destroyed queues that could not be finished. -/
structure EventState where
  events : Nat → Option Event
  pools : Nat → Option EventPool
  cache : Nat → List Nat
  queues : Nat → Option EventQueue
  held : List Nat
  abandoned : List Nat
  nextEvent : Nat
  nextZe : Nat
  nextPool : Nat

/-- A build with assertions or without, and the devices of the platform. -/
structure EventBuild where
  debug : Bool
  maxDevices : Nat

/-- The pool of the context for native events. -/
def nativeEventsPool : Nat := 0

/-- What the driver does in an allocation. -/
structure EventDriver where
  sort : ProviderSort
  budget : Nat

/-- The loop of `event_pool::allocate`: what it changes. -/
structure Filling where
  events : Nat → Option Event
  provider : Provider
  freelist : List Nat
  nextEvent : Nat

namespace Filling

def one (sort : ProviderSort) (p : Nat) (flags : EventFlags) (f : Filling) : Filling × Bool :=
  match f.provider.allocate sort with
  | (v, none) => ({ f with provider := v }, false)
  | (v, some z) =>
    (⟨update f.events f.nextEvent (some (.new (some p) (.pooled z) flags)), v,
      f.nextEvent :: f.freelist, f.nextEvent + 1⟩, true)

def fill (sort : ProviderSort) (p : Nat) (flags : EventFlags) : Nat → Filling → Filling × Bool
  | 0, f => (f, true)
  | n + 1, f =>
    match f.one sort p flags with
    | (f, false) => (f, false)
    | (f, true) => fill sort p flags n f

end Filling

namespace EventState

/-- A context has its pool for native events and nothing else. -/
def init : EventState where
  events := fun _ => none
  pools := update (fun _ => none) nativeEventsPool (some ⟨0, ⟨false, true⟩, [], []⟩)
  cache := fun _ => []
  queues := fun _ => none
  held := []
  abandoned := []
  nextEvent := 0
  nextZe := 0
  nextPool := 1

/-- `event_descriptor::index`. -/
def cacheIndex (device : Nat) (flags : EventFlags) : Nat := flags.bits ||| (device <<< 2)

/-- `event_pool_cache::borrow` by a new queue. -/
def borrow (b : EventBuild) (s : EventState) (q device : Nat) (flags : EventFlags) :
    Option EventState :=
  let index := cacheIndex device flags
  if (s.queues q).isSome then none
  else if b.maxDevices * 4 ≤ index then some s
  else
    match s.cache index with
    | [] =>
      some { s with
        pools := update s.pools s.nextPool (some ⟨index, flags, [], []⟩)
        queues := update s.queues q (some ⟨s.nextPool, []⟩)
        nextPool := s.nextPool + 1 }
    | p :: rest =>
      some { s with
        cache := update s.cache index rest
        queues := update s.queues q (some ⟨p, []⟩) }

/-- The freelist of a pool after the loop of `allocate`, which runs if it is empty. -/
def filled (s : EventState) (p : Nat) (pool : EventPool) (d : EventDriver) : Filling × Bool :=
  let f : Filling := ⟨s.events, ⟨pool.provider, s.nextZe, d.budget⟩, pool.freelist, s.nextEvent⟩
  if pool.freelist.isEmpty then f.fill d.sort p pool.flags eventsBurst else (f, true)

/-- The state after the loop. -/
def refill (s : EventState) (p : Nat) (pool : EventPool) (f : Filling) : EventState :=
  { s with
    events := f.events
    pools := update s.pools p
      (some { pool with provider := f.provider.pools, freelist := f.freelist })
    nextEvent := f.nextEvent
    nextZe := f.provider.nextZe }

/-- The end of `allocate`: the event at the back of the freelist. -/
def pop (b : EventBuild) (s : EventState) (p : Nat) (pool : EventPool) (e : Nat)
    (rest : List Nat) : EventState :=
  { s with
    -- only builds with assertions reset the event here
    events := if b.debug then
        update s.events e
          ((s.events e).map fun ev => ev.resetQueueAndCommand none commandForceUint32)
      else s.events
    pools := update s.pools p (some { pool with freelist := rest })
    held := e :: s.held }

/-- `event_pool::allocate`; it throws where the provider does. -/
def allocate (b : EventBuild) (s : EventState) (p : Nat) (d : EventDriver) :
    Option (EventState × Option Nat) :=
  match s.pools p with
  | none => none
  | some pool =>
    let r := s.filled p pool d
    let s := s.refill p pool r.1
    if !r.2 then some (s, none)
    else
      match r.1.freelist with
      | [] => none
      | e :: rest =>
        some (s.pop b p { pool with provider := r.1.provider.pools } e rest, some e)

def modify (s : EventState) (e : Nat) (f : Event → Event) : EventState :=
  { s with events := update s.events e ((s.events e).map f) }

/-- `getSignalEvent` of a queue. -/
def getSignalEvent (b : EventBuild) (s : EventState) (q commandType : Nat) (d : EventDriver) :
    Option (EventState × Option Nat) :=
  (s.queues q).bind fun queue => (s.allocate b queue.pool d).map fun
    | (s, none) => (s, none)
    | (s, some e) => (s.modify e fun ev => ev.resetQueueAndCommand (some q) commandType, some e)

/-- `urEventCreateWithNativeHandle` without a handle. -/
def createNative (b : EventBuild) (s : EventState) (d : EventDriver) :
    Option (EventState × Option Nat) :=
  (s.allocate b nativeEventsPool d).map fun
    | (s, none) => (s, none)
    | (s, some e) => (s.modify e fun ev => { ev with signaled := true }, some e)

/-- `urEventCreateWithNativeHandle` of the application's event. -/
def createWithNativeHandle (s : EventState) (z : Nat) : EventState :=
  { s with
    events := update s.events s.nextEvent (some (.new none (.native z) ⟨false, true⟩))
    held := s.nextEvent :: s.held
    nextEvent := s.nextEvent + 1 }

/-- `event_pool::free`. -/
def free (s : EventState) (p e : Nat) : EventState :=
  { s.modify e fun ev => { ev.reset with refCount := ev.refCount + 1 } with
    pools := update s.pools p
      ((s.pools p).map fun pool => { pool with freelist := e :: pool.freelist }) }

/-- `forceRelease`: an event without a pool is deleted. -/
def forceRelease (s : EventState) (e : Nat) : EventState :=
  match (s.events e).bind Event.pool with
  | some p => s.free p e
  | none => { s with events := update s.events e none }

/-- `urEventRetain`. -/
def retain (s : EventState) (e : Nat) : Option EventState :=
  if e ∈ s.held then some (s.modify e fun ev => { ev with refCount := ev.refCount + 1 }) else none

/-- `deferEventFree` of the event's queue, which must exist. -/
def deferEventFree (s : EventState) (e : Nat) (ev : Event) : Option EventState :=
  ev.hQueue.bind fun q => (s.queues q).map fun queue =>
    { s with
      queues := update s.queues q
        (some { queue with deferredEvents := queue.deferredEvents ++ [e] }) }

/-- `urEventRelease` by someone who has a reference; `timestamp` is what the end
timestamp reads. -/
def release (s : EventState) (e timestamp : Nat) : Option EventState :=
  if e ∈ s.held then
    (s.events e).bind fun ev =>
      let s := s.modify e fun ev => { ev with refCount := ev.refCount - 1 }
      if ev.refCount - 1 ≠ 0 then some s
      else
        let s := { s with held := s.held.erase e }
        if ev.isTimestamped then
          let s := s.modify e fun ev =>
            { ev with endTimestamp := ev.getEventEndTimestamp timestamp }
          if ev.getEventEndTimestamp timestamp = 0 then s.deferEventFree e ev
          else some (s.forceRelease e)
        else some (s.forceRelease e)
  else none

/-- `queueFinish`; the driver may fail to wait. -/
def queueFinish (s : EventState) (q : Nat) (ok : Bool) : Option EventState :=
  (s.queues q).map fun queue =>
    if ok then
      let s := queue.deferredEvents.foldl forceRelease s
      { s with queues := update s.queues q (some { queue with deferredEvents := [] }) }
    else s

/-- The destructor of a queue finishes it and gives its pool back. -/
def destroyQueue (s : EventState) (q : Nat) (ok : Bool) : Option EventState :=
  (s.queueFinish q ok).bind fun s => (s.queues q).bind fun queue =>
    (s.pools queue.pool).map fun pool =>
      { s with
        queues := update s.queues q none
        abandoned := queue.deferredEvents ++ s.abandoned
        cache := update s.cache pool.index (queue.pool :: s.cache pool.index) }

end EventState

/-! ## Runs -/

/-- `used` gives a pooled event a queue and a command again, `recorded` a start timestamp;
both are the holder's. -/
inductive EventOp where
  | borrow (q device : Nat) (flags : EventFlags)
  | allocate (q : Nat) (d : EventDriver)
  | getSignalEvent (q commandType : Nat) (d : EventDriver)
  | createNative (d : EventDriver)
  | createWithNativeHandle (z : Nat)
  | resetQueueAndCommand (e q commandType : Nat)
  | recordStartTimestamp (e timestamp : Nat)
  | retain (e : Nat)
  | release (e timestamp : Nat)
  | queueFinish (q : Nat) (ok : Bool)
  | destroyQueue (q : Nat) (ok : Bool)

namespace EventState

/-- The holder of a pooled event changes it. -/
def use (s : EventState) (e : Nat) (f : Event → Event) : Option EventState :=
  if e ∈ s.held ∧ ((s.events e).bind Event.pool).isSome then some (s.modify e f) else none

/-- A step, with the event that is handed out. -/
def step (b : EventBuild) (s : EventState) : EventOp → Option (EventState × Option Nat)
  | .borrow q device flags => (s.borrow b q device flags).map fun s => (s, none)
  | .allocate q d => (s.queues q).bind fun queue => s.allocate b queue.pool d
  | .getSignalEvent q commandType d => s.getSignalEvent b q commandType d
  | .createNative d => s.createNative b d
  | .createWithNativeHandle z => some (s.createWithNativeHandle z, some s.nextEvent)
  | .resetQueueAndCommand e q commandType =>
    (s.use e fun ev => ev.resetQueueAndCommand (some q) commandType).map fun s => (s, none)
  | .recordStartTimestamp e timestamp =>
    (s.use e fun ev => { ev with startTimestamp := timestamp }).map fun s => (s, none)
  | .retain e => (s.retain e).map fun s => (s, none)
  | .release e timestamp => (s.release e timestamp).map fun s => (s, none)
  | .queueFinish q ok => (s.queueFinish q ok).map fun s => (s, none)
  | .destroyQueue q ok => (s.destroyQueue q ok).map fun s => (s, none)

def run (b : EventBuild) (s : EventState) : List EventOp → Option EventState
  | [] => some s
  | op :: ops => (s.step b op).bind fun r => r.1.run b ops

end EventState

end UnifiedRuntime.LevelZeroV2
