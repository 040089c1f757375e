import UnifiedRuntime.LevelZero.Event

/-!
# Event pools of the Level Zero context

The driver makes events in pools, and `getFreeSlotInExistingOrNewPool` hands out
the slots of a pool one after another. Two counters belong to a pool: the slots
not handed out yet, and the events not destroyed yet. When the second reaches
zero the first starts over.

The pools with room wait in caches, one for every combination of attributes and
device. The head of a cache is the pool in use. With the caching of events
disabled a full pool leaves its cache, and the destruction of its last event
puts it back at the tail; which cache that is, is computed from what the event
object says at that time.
-/

namespace UnifiedRuntime.LevelZero.EventPool

open Function (update)

/-- A `ze_event_pool_handle_t` that is not null. -/
abbrev PoolId := Nat
abbrev ZeDevice := Nat

/-- A driver event: its pool and its index in it. -/
abbrev Slot := PoolId × Nat

structure Config extends EventConfig where
  zeDevice : Device → ZeDevice
  /-- `Devices` of the context. -/
  devices : List Device
  /-- `isDiscardEvents` of a queue. -/
  discardEvents : QueueId → Bool
  /-- `UR_L0_MAX_NUMBER_OF_EVENTS_PER_EVENT_POOL`, read by `atoi`. -/
  maxNumEventsEnv : Option Int

/-- `MaxNumEventsPerPool`, a `uint32_t`. -/
def Config.maxNumEventsPerPool (cfg : Config) : Nat :=
  let result := (cfg.maxNumEventsEnv.getD 256 % 2 ^ 32).toNat
  if result ≤ 0 then 256 else result

theorem Config.maxNumEventsPerPool_pos (cfg : Config) : 0 < cfg.maxNumEventsPerPool := by
  unfold maxNumEventsPerPool
  dsimp only
  split <;> omega

/-! ## The descriptor of a pool -/

inductive CounterBasedFlag where
  | immediate
  | nonImmediate

/-- What `zeEventPoolCreate` is given. -/
structure ZeEventPoolDesc where
  count : Nat
  hostVisible : Bool
  kernelTimestamp : Bool
  counterBasedExt : Option CounterBasedFlag
  eventSyncMode : Bool
  devices : List ZeDevice

def zeEventPoolDesc (cfg : Config) (a : Attributes) : ZeEventPoolDesc where
  count := cfg.maxNumEventsPerPool
  hostVisible := a.hostVisible
  kernelTimestamp := a.profiling
  counterBasedExt :=
    if a.counterBased then some (if a.immediate then .immediate else .nonImmediate) else none
  eventSyncMode := a.interruptBased
  devices := match a.device with
    | some d => [cfg.zeDevice d]
    | none => cfg.devices.map cfg.zeDevice

/-! ## The caches -/

inductive EventPoolCacheType where
  | hostVisibleCacheType
  | hostInvisibleCacheType
  | hostVisibleCounterBasedRegularCacheType
  | hostInvisibleCounterBasedRegularCacheType
  | hostVisibleCounterBasedImmediateCacheType
  | hostInvisibleCounterBasedImmediateCacheType
  | hostVisibleInterruptBasedRegularCacheType
  | hostInvisibleInterruptBasedRegularCacheType
  | hostVisibleInterruptBasedImmediateCacheType
  | hostInvisibleInterruptBasedImmediateCacheType
  | hostVisibleInterruptAndCounterBasedRegularCacheType
  | hostInvisibleInterruptAndCounterBasedRegularCacheType
  | hostVisibleInterruptAndCounterBasedImmediateCacheType
  | hostInvisibleInterruptAndCounterBasedImmediateCacheType

/-- The value of the enumerator. -/
def EventPoolCacheType.toNat : EventPoolCacheType → Nat
  | .hostVisibleCacheType => 0
  | .hostInvisibleCacheType => 1
  | .hostVisibleCounterBasedRegularCacheType => 2
  | .hostInvisibleCounterBasedRegularCacheType => 3
  | .hostVisibleCounterBasedImmediateCacheType => 4
  | .hostInvisibleCounterBasedImmediateCacheType => 5
  | .hostVisibleInterruptBasedRegularCacheType => 6
  | .hostInvisibleInterruptBasedRegularCacheType => 7
  | .hostVisibleInterruptBasedImmediateCacheType => 8
  | .hostInvisibleInterruptBasedImmediateCacheType => 9
  | .hostVisibleInterruptAndCounterBasedRegularCacheType => 10
  | .hostInvisibleInterruptAndCounterBasedRegularCacheType => 11
  | .hostVisibleInterruptAndCounterBasedImmediateCacheType => 12
  | .hostInvisibleInterruptAndCounterBasedImmediateCacheType => 13

def calculateCacheIndex (hostVisible counterBased usingImmediate interruptBased : Bool) :
    EventPoolCacheType :=
  if interruptBased then
    if counterBased then
      if hostVisible then
        if usingImmediate then .hostVisibleInterruptAndCounterBasedImmediateCacheType
        else .hostVisibleInterruptAndCounterBasedRegularCacheType
      else
        if usingImmediate then .hostInvisibleInterruptAndCounterBasedImmediateCacheType
        else .hostInvisibleInterruptAndCounterBasedRegularCacheType
    else
      if hostVisible then
        if usingImmediate then .hostVisibleInterruptBasedImmediateCacheType
        else .hostVisibleInterruptBasedRegularCacheType
      else
        if usingImmediate then .hostInvisibleInterruptBasedImmediateCacheType
        else .hostInvisibleInterruptBasedRegularCacheType
  else
    if counterBased && hostVisible && !usingImmediate then
      .hostVisibleCounterBasedRegularCacheType
    else if counterBased && !hostVisible && !usingImmediate then
      .hostInvisibleCounterBasedRegularCacheType
    else if counterBased && hostVisible && usingImmediate then
      .hostVisibleCounterBasedImmediateCacheType
    else if counterBased && !hostVisible && usingImmediate then
      .hostInvisibleCounterBasedImmediateCacheType
    else if !counterBased && hostVisible then .hostVisibleCacheType
    else .hostInvisibleCacheType

/-- The index among the caches for all devices, and among the device maps. -/
def cacheIndex (a : Attributes) : Nat :=
  let cacheType := calculateCacheIndex a.hostVisible a.counterBased a.immediate a.interruptBased
  if a.profiling then cacheType.toNat * 2 else cacheType.toNat * 2 + 1

/-- What decides which cache attributes belong to. -/
def cacheKey (cfg : Config) (a : Attributes) : Nat × Option ZeDevice :=
  (cacheIndex a, a.device.map cfg.zeDevice)

/-! ## The state of a context -/

/-- The events of a context and their pools. -/
structure State extends EventState where
  /-- `ZeEventPoolCache`. A null pointer is `none`. -/
  zeEventPoolCache : Nat → List (Option PoolId)
  /-- Its length; there is nothing past the end. -/
  numCaches : Nat
  zeEventPoolCacheDeviceMap : Nat → ZeDevice → Option Nat
  /-- `NumEventsAvailableInEventPool`; `operator[]` makes a missing entry zero. -/
  available : Option PoolId → Nat
  /-- `NumEventsUnreleasedInEventPool`. -/
  unreleased : PoolId → Nat
  /-- The attributes each pool was made for. -/
  created : PoolId → Attributes
  nextPool : PoolId
  /-- The driver event of an object, until it is destroyed. -/
  slot : EventId → Option Slot
  /-- The driver events there are. -/
  live : List Slot

/-- What ends the process. -/
inductive Fault where
  /-- `die`: the pool has no unreleased event. -/
  | die
  /-- `front` of an empty list, which is undefined. -/
  | frontOfEmptyCache

/-- What `zeEventDestroy` answers. -/
inductive ZeResult where
  | success
  | uninitialized
  | error
  deriving DecidableEq

/-- The attributes `decrementUnreleasedEventsInPool` reads off an event. -/
def attributesNow (cfg : Config) (id : EventId) (e : Event) : Attributes where
  hostVisible := e.isHostVisible id
  profiling := e.isProfilingEnabled cfg.queues
  device := e.cacheDevice cfg.queues
  counterBased := e.counterBasedEventsEnabled
  immediate := e.urQueue.all fun q => (cfg.queues q).usingImmCmdLists
  interruptBased := e.interruptBasedEventsEnabled

namespace State

def setCache (s : State) (k : Nat) (l : List (Option PoolId)) : State :=
  { s with zeEventPoolCache := update s.zeEventPoolCache k l }

def modifyEvent (s : State) (id : EventId) (f : Event → Event) : State :=
  { s with toEventState := s.modify id f }

/-- The cache of a key, where there is one. -/
def cacheAt (s : State) (key : Nat × Option ZeDevice) : Option Nat :=
  match key.2 with
  | none => some key.1
  | some d => s.zeEventPoolCacheDeviceMap key.1 d

/-- The index of the cache for these attributes, which is made where it is missing. -/
def getZeEventPoolCache (cfg : Config) (s : State) (a : Attributes) : State × Nat :=
  match a.device.map cfg.zeDevice with
  | none => (s, cacheIndex a)
  | some d =>
    match s.zeEventPoolCacheDeviceMap (cacheIndex a) d with
    | some n => (s, n)
    | none =>
      ({ s with
        zeEventPoolCache := update s.zeEventPoolCache s.numCaches []
        numCaches := s.numCaches + 1
        zeEventPoolCacheDeviceMap := update s.zeEventPoolCacheDeviceMap (cacheIndex a)
          (update (s.zeEventPoolCacheDeviceMap (cacheIndex a)) d (some s.numCaches)) },
        s.numCaches)

/-- The cache once its head is a pool with room, or a null pointer. -/
def withRoom (cfg : Config) (available : Option PoolId → Nat) (cache : List (Option PoolId)) :
    List (Option PoolId) :=
  let cache := match cache with
    | [] => []
    | front :: rest =>
      if available front = 0 then
        -- a full pool comes back when its last event is destroyed
        if cfg.disableEventsCaching then rest else none :: front :: rest
      else front :: rest
  if cache = [] then [none] else cache

/-- A slot of the pool at the head of a cache, which is made where the head is null. -/
def takeFront (cfg : Config) (s : State) (k : Nat) (a : Attributes) (poolCreate : Bool) :
    State × Option Slot :=
  match s.zeEventPoolCache k with
  | [] => (s, none)
  | none :: rest =>
    if poolCreate then
      ({ s.setCache k (some s.nextPool :: rest) with
        available := update s.available (some s.nextPool) (cfg.maxNumEventsPerPool - 1)
        unreleased := update s.unreleased s.nextPool 1
        created := update s.created s.nextPool a
        nextPool := s.nextPool + 1 },
        some (s.nextPool, 0))
    else (s, none)
  | some pool :: _ =>
    ({ s with
      available := update s.available (some pool) (s.available (some pool) - 1)
      unreleased := update s.unreleased pool (s.unreleased pool + 1) },
      some (pool, cfg.maxNumEventsPerPool - s.available (some pool)))

/-- `none` is the failure of `zeEventPoolCreate`. -/
def getFreeSlotInExistingOrNewPool (cfg : Config) (s : State) (a : Attributes)
    (poolCreate : Bool) : State × Option Slot :=
  let (s, k) := s.getZeEventPoolCache cfg a
  let s := s.setCache k (withRoom cfg s.available (s.zeEventPoolCache k))
  s.takeFront cfg k a poolCreate

/-- `--NumEventsUnreleasedInEventPool`. -/
def countDown (s : State) (pool : PoolId) : State :=
  { s with unreleased := update s.unreleased pool (s.unreleased pool - 1) }

/-- All slots of a pool can be handed out again. -/
def startOver (cfg : Config) (s : State) (pool : PoolId) : State :=
  { s with available := update s.available (some pool) cfg.maxNumEventsPerPool }

/-- Put the empty pool to the cache of the pools. -/
def giveBack (cfg : Config) (s : State) (k : Nat) (pool : PoolId) : Except Fault State :=
  match s.zeEventPoolCache k with
  | [] => .error .frontOfEmptyCache
  | front :: rest =>
    .ok ((if front ≠ some pool then s.setCache k (front :: rest ++ [some pool]) else s).startOver
      cfg pool)

/-- One event less in the pool; the pool goes back to the cache with the last. -/
def decrementUnreleasedEventsInPool (cfg : Config) (s : State) (id : EventId) :
    Except Fault State :=
  match s.slot id with
  | none => .ok s
  | some (pool, _) =>
    let (s, k) := s.getZeEventPoolCache cfg (attributesNow cfg id (s.events id))
    if s.unreleased pool = 0 then .error .die
    else if (s.countDown pool).unreleased pool = 0 then (s.countDown pool).giveBack cfg k pool
    else .ok (s.countDown pool)

end State

/-! ## Creation and destruction -/

/-- What the driver and the allocator answer `EventCreate`. -/
structure CreateAnswers where
  zeEventPoolCreate : Bool
  zeEventCreate : Bool
  newEvent : Bool

/-- What the driver answers while an event is destroyed. -/
structure ReleaseAnswers where
  /-- `ZeMemFreeHelper`, for the memory of an unmap. -/
  zeMemFree : Bool
  zeEventDestroy : ZeResult

namespace State

def eventCreate (cfg : Config) (s : State) (a : CreateArgs) (ans : CreateAnswers) :
    State × Option EventId :=
  let attrs := a.attributes cfg.toEventConfig
  match s.getEventFromContextCache attrs with
  | some (events, id) => ({ s with toEventState := events }, some id)
  | none =>
    match s.getFreeSlotInExistingOrNewPool cfg attrs ans.zeEventPoolCreate with
    | (s, none) => (s, none)
    | (s, some slot) =>
      if ans.zeEventCreate then
        let s := { s with live := slot :: s.live }
        if ans.newEvent then
          let (events, id) := s.addEvent (.create s.nextEvent attrs)
          ({ s with toEventState := events, slot := update s.slot id (some slot) },
            some id)
        else (s, none)
      else (s, none)

/-- The object holds no driver event any more. -/
def forgetSlot (s : State) (id : EventId) : State :=
  { s with slot := update s.slot id none }

/-- The driver event of the object is destroyed. -/
def eraseEvent (s : State) (id : EventId) : State :=
  { s with live := match s.slot id with
      | none => s.live
      | some slot => s.live.erase slot }

/-- Does the release stop at the memory of an unmap? -/
def memFreeFails (s : State) (id : EventId) (ans : ReleaseAnswers) : Bool :=
  (s.events id).commandType = .memUnmap && (s.events id).commandData.isSome && !ans.zeMemFree

/-- `urEventReleaseInternal` up to the host-visible proxy, for an event nobody
refers to. The flag says whether it goes on. -/
def releaseLast (cfg : Config) (s : State) (id : EventId) (ans : ReleaseAnswers) :
    Except Fault (State × Bool) :=
  if s.memFreeFails id ans then .ok (s, false)
  else
    let s := s.modifyEvent id Event.freeCommandData
    if (s.events id).ownNativeHandle && cfg.disableEventsCaching then
      match ans.zeEventDestroy with
      | .error => .ok (s.forgetSlot id, false)
      | .success | .uninitialized =>
        match (s.eraseEvent id).decrementUnreleasedEventsInPool cfg id with
        | .error f => .error f
        | .ok s => .ok (s.forgetSlot id, true)
    else .ok (s, true)

/-- Does the destructor of an event destroy a driver event? -/
def destructorDestroys (cfg : Config) (s : State) (id : EventId) : Bool :=
  (s.slot id).isSome && (s.events id).completed &&
    (s.events id).urQueue.any fun q => !cfg.discardEvents q

/-- `~ur_event_handle_t_`. -/
def deleteEvent (cfg : Config) (s : State) (id : EventId) : State :=
  (if s.destructorDestroys cfg id then s.eraseEvent id else s).forgetSlot id

/-- The end of `urEventReleaseInternal`. -/
def disposeEvent (cfg : Config) (s : State) (id : EventId) : State :=
  if cfg.disableEventsCaching || !(s.events id).ownNativeHandle then s.deleteEvent cfg id
  else { s with toEventState := s.addEventToContextCache cfg.toEventConfig id }

/-- The release of a reference to a proxy, which is host-visible itself. -/
def releaseReference (cfg : Config) (s : State) (id : EventId) (ans : ReleaseAnswers) :
    Except Fault (State × Bool) :=
  let s := s.modifyEvent id Event.decrement
  if (s.events id).refCount = 0 then
    match s.releaseLast cfg id ans with
    | .error f => .error f
    | .ok (s, false) => .ok (s, false)
    | .ok (s, true) => .ok (s.disposeEvent cfg id, true)
  else .ok (s, true)

def urEventReleaseInternal (cfg : Config) (s : State) (id : EventId)
    (answers : EventId → ReleaseAnswers) : Except Fault (State × Bool) :=
  let s := s.modifyEvent id Event.decrement
  if (s.events id).refCount = 0 then
    match s.releaseLast cfg id (answers id) with
    | .error f => .error f
    | .ok (s, false) => .ok (s, false)
    | .ok (s, true) =>
      match (s.events id).hostVisibleEvent with
      | none => .ok (s.disposeEvent cfg id, true)
      | some p =>
        if p = id then .ok (s.disposeEvent cfg id, true)
        else
          match s.releaseReference cfg p (answers p) with
          | .error f => .error f
          | .ok (s, false) => .ok (s, false)
          | .ok (s, true) => .ok (s.disposeEvent cfg id, true)
  else .ok (s, true)

/-- What `createEventAndAssociateQueue` stores in an event. -/
def associate (s : State) (id : EventId) (q : QueueId) (commandType : CommandType)
    (commandList : Option Nat) (isInternal isMultiDevice : Bool) : State :=
  s.modifyEvent id fun e =>
    { e with
      urQueue := some q
      commandType := commandType
      isDiscarded := isInternal
      isMultiDevice := isMultiDevice
      commandList := commandList
      ownNativeHandle := if isInternal then false else e.ownNativeHandle
      refCount := e.refCount + (if commandList.isSome then 1 else 0) + (if isInternal then 0 else 1)
      refCountExternal := e.refCountExternal + (if isInternal then 0 else 1) }

/-- A new context. -/
def init : State where
  events := fun _ => .create 0 ⟨false, false, none, false, false, false⟩
  nextEvent := 0
  eventCaches := fun _ => []
  zeEventPoolCache := fun _ => []
  numCaches := 30
  zeEventPoolCacheDeviceMap := fun _ _ => none
  available := fun _ => 0
  unreleased := fun _ => 0
  created := fun _ => ⟨false, false, none, false, false, false⟩
  nextPool := 0
  slot := fun _ => none
  live := []

end State

/-- What happens to the events of a context. -/
inductive Op where
  | eventCreate (a : CreateArgs) (ans : CreateAnswers)
  | associate (id : EventId) (q : QueueId) (commandType : CommandType) (commandList : Option Nat)
      (isInternal isMultiDevice : Bool)
  /-- What the rest of the adapter does to an event it holds. -/
  | use (id : EventId) (u : Use)
  | release (id : EventId) (answers : EventId → ReleaseAnswers)

def step (cfg : Config) (s : State) : Op → Except Fault State
  | .eventCreate a ans => .ok (s.eventCreate cfg a ans).1
  | .associate id q commandType commandList isInternal isMultiDevice =>
    .ok (s.associate id q commandType commandList isInternal isMultiDevice)
  | .use id u => .ok (s.modifyEvent id fun e => u.apply e)
  | .release id answers => (s.urEventReleaseInternal cfg id answers).map Prod.fst

def run (cfg : Config) (s : State) : List Op → Except Fault State
  | [] => .ok s
  | op :: ops => (step cfg s op).bind fun s' => run cfg s' ops

end UnifiedRuntime.LevelZero.EventPool
