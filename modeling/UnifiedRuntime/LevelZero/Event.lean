import UnifiedRuntime.Lib.Shelves
import UnifiedRuntime.LevelZero.Buffer

/-!
# Events of the Level Zero adapter and their cache

`ur_event_handle_t_` wraps a Level Zero event. When the last reference to one is
dropped the object is not destroyed but filed in one of the context's event
caches, and `EventCreate` takes it from there before it asks the driver for a
new event. The cache an event is filed in is computed from the fields it has at
that moment; the cache it is looked for in, from the arguments of `EventCreate`.

`Attributes` is what the driver's event was created with: it cannot be changed
afterwards. Everything else is a field of the object, set by the functions that
use it, and put back by `reset` when the object leaves the cache.
-/

namespace UnifiedRuntime.LevelZero

abbrev EventId := Nat
abbrev QueueId := Nat

/-- What the event code reads of a queue. -/
structure QueueConfig where
  device : Device
  profiling : Bool
  usingImmCmdLists : Bool
  counterBasedEventsEnabled : Bool
  interruptBasedEventsEnabled : Bool
  /-- `ZeEventsScope == AllHostVisible`. -/
  allHostVisible : Bool
  inOrder : Bool

/-- The properties of a driver event. `immediate` is the kind of command list a
counter-based event is for. -/
structure Attributes where
  hostVisible : Bool
  profiling : Bool
  device : Option Device
  counterBased : Bool
  immediate : Bool
  interruptBased : Bool

inductive CommandType where
  | user
  | kernelLaunch
  | memUnmap
  | timestampRecording
  | eventsWait
  | commandBufferEnqueue
  | other
  deriving DecidableEq

/-- `ur_event_handle_t_`. -/
structure Event where
  attrs : Attributes
  /-- Has the driver event been signalled since it was last reset? -/
  signalled : Bool := false
  hostVisibleEvent : Option EventId
  urQueue : Option QueueId := none
  commandType : CommandType := .user
  commandData : Option Nat := none
  commandList : Option Nat := none
  waitList : List EventId := []
  cleanedUp : Bool := false
  completed : Bool := false
  isDiscarded : Bool := false
  isMultiDevice : Bool := false
  isInnerBatchedEvent : Bool := false
  zeBatchedQueue : Option Nat := none
  isCreatingHostProxyEvent : Bool := false
  recordEventStartTimestamp : Nat := 0
  recordEventEndTimestamp : Nat := 0
  refCountExternal : Nat := 0
  refCount : Nat := 1
  completionBatch : Option Nat := none
  counterBasedEventsEnabled : Bool
  interruptBasedEventsEnabled : Bool
  ownNativeHandle : Bool := true

namespace Event

/-- The object `EventCreate` makes when the cache has none. -/
def create (id : EventId) (attrs : Attributes) : Event where
  attrs := attrs
  hostVisibleEvent := if attrs.hostVisible then some id else none
  counterBasedEventsEnabled := attrs.counterBased
  interruptBasedEventsEnabled := attrs.interruptBased

/-- The object `resetDiscardedEvent` puts around the driver event of a discarded
event; its flags are those of a new object, whatever the driver event is. -/
def rewrap (id : EventId) (attrs : Attributes) (hostVisible : Bool) : Event where
  attrs := attrs
  hostVisibleEvent := if hostVisible then some id else none
  counterBasedEventsEnabled := false
  interruptBasedEventsEnabled := false

def isHostVisible (id : EventId) (e : Event) : Bool := e.hostVisibleEvent == some id

def isTimestamped (e : Event) : Bool := e.recordEventStartTimestamp != 0

/-- `isProfilingEnabled`: user events are tentatively assumed to be. -/
def isProfilingEnabled (queues : QueueId → QueueConfig) (e : Event) : Bool :=
  e.urQueue.all fun q => (queues q).profiling

/-- The device the cache is for. -/
def cacheDevice (queues : QueueId → QueueConfig) (e : Event) : Option Device :=
  if e.isMultiDevice then none else e.urQueue.map fun q => (queues q).device

/-- Free the memory of an unmap or the timestamps of a command-buffer. -/
def freeCommandData (e : Event) : Event :=
  { e with commandData := if e.commandType = .memUnmap ∨ e.commandType = .commandBufferEnqueue
      then none else e.commandData }

/-- `RefCount.decrementAndTest`, the count. -/
def decrement (e : Event) : Event := { e with refCount := e.refCount - 1 }

/-- `ur_event_handle_t_::reset`. -/
def reset (id : EventId) (e : Event) : Event :=
  { e with
    urQueue := none
    cleanedUp := false
    completed := false
    commandData := none
    commandType := .user
    waitList := []
    refCountExternal := 0
    refCount := 1
    commandList := none
    completionBatch := none
    hostVisibleEvent := if e.isHostVisible id then e.hostVisibleEvent else none
    signalled := if e.counterBasedEventsEnabled then e.signalled else false }

end Event

/-- The index `getEventCache` computes. -/
def eventCacheIndex (hostVisible withProfiling : Bool) (device : Option Device)
    (counter interrupt : Bool) : Nat :=
  (if hostVisible then 1 <<< 0 else 0) ||| (if withProfiling then 1 <<< 1 else 0) |||
    (if counter then 1 <<< 2 else 0) ||| (if interrupt then 1 <<< 3 else 0) |||
    (match device with
      | none => 0
      | some id => (1 <<< 4) ||| (id <<< 5))

/-- The events of a context. -/
structure EventState where
  events : EventId → Event
  /-- Objects made so far. -/
  nextEvent : EventId
  /-- `EventCaches`. -/
  eventCaches : Nat → List EventId

/-- The queues of the context, and `DisableEventsCaching`. -/
structure EventConfig where
  queues : QueueId → QueueConfig
  disableEventsCaching : Bool

/-- The arguments of `EventCreate`. -/
structure CreateArgs where
  queue : Option QueueId
  isMultiDevice : Bool
  hostVisible : Bool
  counterBasedEventEnabled : Bool
  forceDisableProfiling : Bool
  interruptBasedEventEnabled : Bool

/-- The attributes a call of `EventCreate` asks for. -/
def CreateArgs.attributes (cfg : EventConfig) (a : CreateArgs) : Attributes where
  hostVisible := a.hostVisible
  profiling := if a.forceDisableProfiling then false
    else a.queue.all fun q => (cfg.queues q).profiling
  device := if a.isMultiDevice then none else a.queue.map fun q => (cfg.queues q).device
  counterBased := a.counterBasedEventEnabled
  immediate := a.queue.all fun q => (cfg.queues q).usingImmCmdLists
  interruptBased := a.interruptBasedEventEnabled

namespace EventState

/-- Change one event. -/
def modify (s : EventState) (id : EventId) (f : Event → Event) : EventState :=
  { s with events := Function.update s.events id (f (s.events id)) }

def getEventFromContextCache (s : EventState) (attrs : Attributes) :
    Option (EventState × EventId) :=
  let index := eventCacheIndex attrs.hostVisible attrs.profiling attrs.device attrs.counterBased
    attrs.interruptBased
  match s.eventCaches index with
  | [] => none
  | id :: rest =>
    some ({ s with eventCaches := Function.update s.eventCaches index rest }.modify id
      (Event.reset id), id)

/-- A new event object. -/
def addEvent (s : EventState) (e : Event) : EventState × EventId :=
  ({ s with events := Function.update s.events s.nextEvent e, nextEvent := s.nextEvent + 1 },
    s.nextEvent)

def eventCreate (cfg : EventConfig) (s : EventState) (a : CreateArgs) : EventState × EventId :=
  match s.getEventFromContextCache (a.attributes cfg) with
  | some r => r
  | none => s.addEvent (.create s.nextEvent (a.attributes cfg))

/-- The arguments `createEventAndAssociateQueue` passes on. -/
def associateArgs (cfg : EventConfig) (q : QueueId) (isInternal isMultiDevice : Bool)
    (hostVisible : Option Bool) : CreateArgs where
  queue := some q
  isMultiDevice := isMultiDevice
  hostVisible := hostVisible.getD (if isInternal then false else (cfg.queues q).allHostVisible)
  counterBasedEventEnabled := (cfg.queues q).counterBasedEventsEnabled
  forceDisableProfiling := false
  interruptBasedEventEnabled := (cfg.queues q).interruptBasedEventsEnabled

/-- `createEventAndAssociateQueue`. An internal event may come from the queue's
own cache, which holds objects made by `resetDiscardedEvent` (`queueCached` says
around what). -/
def createEventAndAssociateQueue (cfg : EventConfig) (s : EventState) (q : QueueId)
    (commandType : CommandType) (commandList : Option Nat) (isInternal isMultiDevice : Bool)
    (hostVisible : Option Bool) (queueCached : Option (Attributes × Bool)) : EventState × EventId :=
  let (s, id) := match (if isInternal then queueCached else none) with
    | some (attrs, visible) => s.addEvent (.rewrap s.nextEvent attrs visible)
    | none => s.eventCreate cfg (associateArgs cfg q isInternal isMultiDevice hostVisible)
  (s.modify id fun e =>
    { e with
      urQueue := some q
      commandType := commandType
      isDiscarded := isInternal
      isMultiDevice := isMultiDevice
      commandList := commandList
      ownNativeHandle := if isInternal then false else e.ownNativeHandle
      refCount := e.refCount + (if commandList.isSome then 1 else 0) + (if isInternal then 0 else 1)
      refCountExternal := e.refCountExternal + (if isInternal then 0 else 1) }, id)

/-- `addEventToContextCache`. -/
def addEventToContextCache (cfg : EventConfig) (s : EventState) (id : EventId) : EventState :=
  let e := s.events id
  let index := eventCacheIndex (e.isHostVisible id) (e.isProfilingEnabled cfg.queues)
    (e.cacheDevice cfg.queues) e.counterBasedEventsEnabled e.interruptBasedEventsEnabled
  { s with eventCaches := Function.update s.eventCaches index (s.eventCaches index ++ [id]) }

/-- The end of `urEventReleaseInternal`, for an event nobody refers to. -/
def dispose (cfg : EventConfig) (s : EventState) (id : EventId) : EventState :=
  let s := s.modify id Event.freeCommandData
  if cfg.disableEventsCaching || !(s.events id).ownNativeHandle then s
  else s.addEventToContextCache cfg id

/-- `decrementAndTest`, and what follows when the count reaches zero. -/
def releaseReference (cfg : EventConfig) (s : EventState) (id : EventId) : EventState :=
  let s := s.modify id Event.decrement
  if (s.events id).refCount = 0 then s.dispose cfg id else s

/-- `urEventReleaseInternal`: the last reference to an event also drops the one it
has to its host-visible proxy, which is host-visible itself. -/
def urEventReleaseInternal (cfg : EventConfig) (s : EventState) (id : EventId) : EventState :=
  let s := s.modify id Event.decrement
  if (s.events id).refCount = 0 then
    match (s.events id).hostVisibleEvent with
    | none => s.dispose cfg id
    | some p => (if p = id then s else s.releaseReference cfg p).dispose cfg id
  else s

end EventState

/-- What the enqueue, wait, query and cleanup paths do to an event they hold. -/
inductive Use where
  /-- `WaitList = TmpWaitList` of any enqueue. -/
  | setWaitList (l : List EventId)
  /-- `CommandData`: the kernel of a launch, the memory of an unmap, the
  timestamps of a command-buffer. -/
  | setCommandData (t : CommandType) (d : Option Nat)
  /-- `urEnqueueTimestampRecordingExp`. -/
  | recordTimestamp (start : Nat)
  /-- A profiling query or `clearEndTimeRecordings` stores the end time. -/
  | recordEndTimestamp (stop : Nat)
  /-- `setSignalEvent` of a batched command without a signal event. -/
  | innerBatched (zeQueue : Nat)
  /-- `getOrCreateHostVisibleEvent`, or the last command of a batch. -/
  | setProxy (p : EventId)
  | complete
  /-- `CleanupCompletedEvent`. -/
  | cleanUp
  | setCompletionBatch (b : Nat)
  /-- `insertActiveBarriers` lets its internal event own the driver event. -/
  | ownNativeHandle
  | retain
  | retainExternal
  /-- The driver signals the event. -/
  | signal

/-- The proxy a use sets up. -/
def Use.proxy : Use → Option EventId
  | .setProxy p => some p
  | _ => none

def Use.apply (e : Event) : Use → Event
  | .setWaitList l => { e with waitList := l }
  | .setCommandData t d => { e with commandType := t, commandData := d }
  | .recordTimestamp start =>
    { e with recordEventEndTimestamp := 0, recordEventStartTimestamp := start }
  | .recordEndTimestamp stop => { e with recordEventEndTimestamp := stop }
  | .innerBatched zeQueue => { e with isInnerBatchedEvent := true, zeBatchedQueue := some zeQueue }
  | .setProxy p => { e with hostVisibleEvent := some p }
  | .complete => { e with completed := true }
  | .cleanUp => { e with
      commandData := if e.commandType = .kernelLaunch then none else e.commandData
      waitList := []
      cleanedUp := true }
  | .setCompletionBatch b => { e with completionBatch := some b }
  | .ownNativeHandle => { e with ownNativeHandle := true }
  | .retain => { e with refCount := e.refCount + 1 }
  | .retainExternal => { e with refCount := e.refCount + 1, refCountExternal := e.refCountExternal + 1 }
  | .signal => { e with signalled := true }

end UnifiedRuntime.LevelZero
