import UnifiedRuntime.Lib.StreamOrder
import UnifiedRuntime.Streams.Pool

/-!
# Queues over streams (CUDA and HIP): the calls of one thread

The sequential half of the stream bookkeeping: choosing a stream for a command,
waiting for the events of its wait list, recording its event, barriers and
`urQueueFinish`. What the adapters tell the driver is a log of stream
operations (`StreamOp`); what a command waits for is read off that log.

A world has any number of queues, each with its own vectors of streams or made
from a native stream; the handle of a native stream is arbitrary, so two queues
may share one. Native events are numbered in the order in which they are
recorded for the first time.
-/

namespace UnifiedRuntime.Streams

open Function (update)

/-- `ur_event_handle_t_`. A stream handle of 0 is the null stream. -/
structure Event where
  /-- `Queue`; an interop event has none. -/
  queue : Option Nat
  /-- `Stream`. -/
  stream : Nat
  /-- `StreamToken`. -/
  token : Nat
  /-- `EventID`, counted by the event's queue. -/
  id : Nat
  /-- `EvEnd`. -/
  native : Nat
  /-- `IsInterop`. -/
  isInterop : Bool
deriving DecidableEq

/-- `ur_queue_handle_t_`. `since` is a ghost: the tokens drawn since the last
finish. -/
structure Queue where
  pool : Kind → Pool
  since : Kind → Nat
  /-- `ComputeStreams` and `TransferStreams`. -/
  streams : Kind → Nat → Nat
  /-- `ComputeAppliedBarrier` and `TransferAppliedBarrier`. -/
  applied : Kind → Nat → Bool
  barrierEvent : Option Nat
  barrierTmpEvent : Option Nat
  eventCount : Nat

/-- The vectors of a queue given by their pools. -/
def poolsOf (compute transfer : Pool) : Kind → Pool
  | .compute => compute
  | .transfer => transfer

/-- `urQueueCreate`: any number of compute and transfer streams, none created. -/
def Queue.create (n m : Nat) : Queue :=
  { pool := poolsOf (.new n) (.new m), since := fun _ => 0, streams := fun _ _ => 0,
    applied := fun _ _ => false, barrierEvent := none, barrierTmpEvent := none, eventCount := 0 }

/-- `urQueueCreateWithNativeHandle`: one compute stream, the given one. -/
def Queue.createWithNativeHandle (stream : Nat) : Queue :=
  { Queue.create 1 0 with
    pool := poolsOf .ofNative (.new 0)
    streams := fun _ _ => stream }

namespace Queue

def setPool (x : Queue) (k : Kind) (p : Pool) : Queue :=
  { x with pool := update x.pool k p }

/-- The stream of the next slot is created. -/
def createStream (k : Kind) (x : Queue) (handle : Nat) : Queue :=
  { x.setPool k (x.pool k).create with
    streams := update x.streams k
      (update (x.streams k) (x.pool k).created handle) }

/-- The next token is drawn. -/
def drawToken (k : Kind) (x : Queue) : Queue :=
  { x.setPool k (x.pool k).draw with since := update x.since k (x.since k + 1) }

/-- `AppliedBarrier[slot] = true`. -/
def apply (k : Kind) (slot : Nat) (x : Queue) : Queue :=
  { x with applied := update x.applied k (update (x.applied k) slot true) }

/-- One vector after `syncStreams</*ResetUsed=*/true>`. -/
def finishPool (a : Adapter) (k : Kind) (x : Queue) : Queue :=
  { x.setPool k ((x.pool k).syncForFinish a) with since := update x.since k 0 }

end Queue

/-- The queues of a program, the thread's `ScopedStream` (0 when there is none),
what the driver was told and the events made so far. -/
structure World where
  queues : Nat → Queue
  /-- `getThreadLocalStream()`. -/
  threadStream : Nat
  nextStream : Nat
  nextEvent : Nat
  ops : List (StreamOp Nat Nat Nat)
  events : List Event

namespace World

/-- Tell the driver. -/
def emit (w : World) (op : StreamOp Nat Nat Nat) : World := { w with ops := op :: w.ops }

def setQueue (w : World) (q : Nat) (x : Queue) : World :=
  { w with queues := update w.queues q x }

/-! ## Choosing a stream -/

/-- `computeStreamWaitForBarrierIfNeeded` and `transferStreamWaitForBarrierIfNeeded`. -/
def streamWaitForBarrierIfNeeded (k : Kind) (w : World) (q stream slot : Nat) : World :=
  match (w.queues q).barrierEvent with
  | some b =>
    if (w.queues q).applied k slot then w
    else (w.emit (.wait stream b)).setQueue q ((w.queues q).apply k slot)
  | none => w

/-- The creation block: the next missing stream of the vector is created. -/
def createStream (k : Kind) (w : World) (q : Nat) : World :=
  if ((w.queues q).pool k).created < ((w.queues q).pool k).size then
    { w.setQueue q ((w.queues q).createStream k w.nextStream) with nextStream := w.nextStream + 1 }
  else w

/-- `StreamIndex++`. -/
def drawToken (k : Kind) (w : World) (q : Nat) : World := w.setQueue q ((w.queues q).drawToken k)

/-- `DelayCompute[slot] = value`. -/
def setDelay (w : World) (q slot : Nat) (value : Bool) : World :=
  w.setQueue q ((w.queues q).setPool .compute
    (((w.queues q).pool .compute).setDelay slot value))

/-- The loop of `getNextComputeStream`: streams are created and tokens drawn
until one is not delayed. -/
def nextToken : Nat → World → Nat → Option (World × Nat)
  | 0, _, _ => none
  | rounds + 1, w, q =>
    let w₁ := w.createStream .compute q
    let token := ((w₁.queues q).pool .compute).index
    let slot := ((w₁.queues q).pool .compute).slot token
    let w₂ := w₁.drawToken .compute q
    if ((w₂.queues q).pool .compute).delay slot then
      nextToken rounds (w₂.setDelay q slot false) q
    else some (w₂, token)

/-- `getNextComputeStream(uint32_t *StreamToken)`. Every further round of the
loop clears a delay flag, so one more round than there are streams is enough.
Under a `ScopedStream` the token is not written. -/
def getNextComputeStream (w : World) (q : Nat) : Option (World × Nat × Option Nat) :=
  if w.threadStream ≠ 0 then some (w, w.threadStream, none)
  else
    (nextToken (((w.queues q).pool .compute).size + 1) w q).map fun (w', token) =>
      let slot := ((w'.queues q).pool .compute).slot token
      let stream := (w'.queues q).streams .compute slot
      (w'.streamWaitForBarrierIfNeeded .compute q stream slot, stream, some token)

/-- Can the queue put a command on the stream of this event? -/
def reusable (w : World) (q : Nat) (e : Event) : Bool :=
  decide (e.queue = some q) && ((w.queues q).pool .compute).canReuseStream e.token

/-- The overload of `getNextComputeStream` with a wait list. -/
def getNextComputeStreamFor (w : World) (q : Nat) (waitList : List Event) :
    Option (World × Nat × Option Nat) :=
  if w.threadStream ≠ 0 then some (w, w.threadStream, none)
  else
    match waitList.find? (w.reusable q) with
    | some e =>
      let slot := ((w.queues q).pool .compute).slot e.token
      some ((w.setDelay q slot true).streamWaitForBarrierIfNeeded .compute q e.stream slot,
        e.stream, some e.token)
    | none => w.getNextComputeStream q

/-- `getNextTransferStream`. -/
def getNextTransferStream (w : World) (q : Nat) : Option (World × Nat) :=
  if w.threadStream ≠ 0 then some (w, w.threadStream)
  else if ((w.queues q).pool .transfer).size = 0 then
    (w.getNextComputeStream q).map fun (w', stream, _) => (w', stream)
  else
    let w₁ := w.createStream .transfer q
    let slot := ((w₁.queues q).pool .transfer).slot ((w₁.queues q).pool .transfer).index
    let w₂ := w₁.drawToken .transfer q
    let stream := (w₂.queues q).streams .transfer slot
    some (w₂.streamWaitForBarrierIfNeeded .transfer q stream slot, stream)

/-- Which of the three functions an entry point asks for its stream. -/
inductive StreamChoice
  | listed
  | compute
  | transfer
deriving DecidableEq

/-- The stream an entry point uses, and the token it has written to its
`StreamToken` (only the overload with a wait list is given one). -/
def takeStream (w : World) (q : Nat) (waitList : List Event) :
    StreamChoice → Option (World × Nat × Option Nat)
  | .listed => w.getNextComputeStreamFor q waitList
  | .compute => (w.getNextComputeStream q).map fun (w', stream, _) => (w', stream, some noToken)
  | .transfer => (w.getNextTransferStream q).map fun (w', stream) => (w', stream, some noToken)

/-! ## Events -/

/-- `makeNative`, `start` and `record` of a command's event. The process dies when
the event counter of the queue comes round. -/
def recordEvent (w : World) (q stream token : Nat) : Option World :=
  if (w.queues q).eventCount + 1 = uint32Values then none
  else
    some { (w.emit (.record w.nextEvent stream)).setQueue q
        { w.queues q with eventCount := (w.queues q).eventCount + 1 } with
      nextEvent := w.nextEvent + 1
      events :=
        { queue := some q, stream, token, id := (w.queues q).eventCount + 1,
          native := w.nextEvent, isInterop := false } :: w.events }

/-- The application records a native event on a stream and makes an event of it
(`urEventCreateWithNativeHandle`). -/
def makeWithNative (w : World) (stream : Nat) : World :=
  { w.emit (.record w.nextEvent stream) with
    nextEvent := w.nextEvent + 1
    events :=
      { queue := none, stream := 0, token := noToken, id := 0, native := w.nextEvent,
        isInterop := true } :: w.events }

end World

/-- The order `forLatestEvents` sorts by: streams together, newest first. -/
def Event.notAfter (e f : Event) : Prop :=
  ¬ (f.stream < e.stream ∨ (f.stream = e.stream ∧ e.id < f.id))

instance : DecidableRel Event.notAfter := fun _ _ => inferInstanceAs (Decidable (¬ _))

/-- The loop of `forLatestEvents`: the events it calls its function on. -/
def skipSeen (first : Bool) (lastSeenStream : Nat) : List Event → List Event
  | [] => []
  | e :: rest =>
    if first = false ∧ e.isInterop = false ∧ e.stream = lastSeenStream then
      skipSeen false lastSeenStream rest
    else e :: skipSeen false e.stream rest

/-- `forLatestEvents`: the latest event of each stream, and every interop event. -/
def latestEvents (waitList : List Event) : List Event :=
  skipSeen true 0 (waitList.insertionSort Event.notAfter)

namespace World

/-- What the driver answers during `enqueueEventsWait`: which events a query finds
completed (HIP only) and which `StreamWaitEvent` calls succeed. -/
structure Answers where
  completed : Event → Bool
  waited : Event → Bool

/-- The loop of `enqueueEventsWait`; `false` when a wait could not be recorded. -/
def waitForEvents (a : Adapter) (ans : Answers) (stream : Nat) :
    World → List Event → World × Bool
  | w, [] => (w, true)
  | w, e :: rest =>
    if a = .hip ∧ e.isInterop = false ∧ ans.completed e then
      waitForEvents a ans stream (w.emit (.observe e.native)) rest
    else if e.stream = stream then waitForEvents a ans stream w rest
    else if ans.waited e then waitForEvents a ans stream (w.emit (.wait stream e.native)) rest
    else (w, false)

/-- `enqueueEventsWait`; an empty list is a null pointer. -/
def enqueueEventsWait (a : Adapter) (ans : Answers) (w : World) (stream : Nat)
    (waitList : List Event) : World × Bool :=
  waitForEvents a ans stream w (latestEvents waitList)

/-! ## Barriers and finish -/

/-- The streams of a vector that `syncStreams` looks at. -/
def syncedStreams (a : Adapter) (w : World) (q : Nat) (k : Kind) : List Nat :=
  if ((w.queues q).pool k).size = 0 then []
  else (((w.queues q).pool k).syncSlots a).map ((w.queues q).streams k)

/-- The function a barrier gives to `syncStreams`: `stream` waits for each of the
others. -/
def gather (tmp stream : Nat) : World → List Nat → World
  | w, [] => w
  | w, s :: rest =>
    if stream = s then gather tmp stream w rest
    else gather tmp stream ((w.emit (.record tmp s)).emit (.wait stream tmp)) rest

/-- A barrier event of the queue is created the first time it is needed. -/
def ensureBarrierEvent (w : World) (q : Nat) : World × Nat :=
  match (w.queues q).barrierEvent with
  | some b => (w, b)
  | none =>
    ({ w.setQueue q { w.queues q with barrierEvent := some w.nextEvent } with
      nextEvent := w.nextEvent + 1 }, w.nextEvent)

def ensureBarrierTmpEvent (w : World) (q : Nat) : World × Nat :=
  match (w.queues q).barrierTmpEvent with
  | some b => (w, b)
  | none =>
    ({ w.setQueue q { w.queues q with barrierTmpEvent := some w.nextEvent } with
      nextEvent := w.nextEvent + 1 }, w.nextEvent)

/-- The branch of a barrier without a wait list. -/
def waitForAll (a : Adapter) (w : World) (q stream : Nat) : World :=
  let (w₁, tmp) := w.ensureBarrierTmpEvent q
  let w₂ := gather tmp stream w₁
    (w₁.syncedStreams a q .compute ++ w₁.syncedStreams a q .transfer)
  w₂.setQueue q ((w₂.queues q).setPool .compute
    (((w₂.queues q).pool .compute).syncForBarrier a))

/-- Does the barrier take the event for synchronised? A missing queue has no
streams; `hasBeenSynchronized` returns for `noToken` before it looks at one. -/
def hasBeenSynchronized (w : World) (e : Event) : Bool :=
  match e.queue with
  | some q => ((w.queues q).pool .compute).hasBeenSynchronized e.token
  | none => false

/-- The branch of a barrier with a wait list. -/
def waitForListed (stream : Nat) : World → List Event → World
  | w, [] => w
  | w, e :: rest =>
    if w.hasBeenSynchronized e then waitForListed stream w rest
    else waitForListed stream (w.emit (.wait stream e.native)) rest

/-- The end of a barrier: the barrier event is recorded and no stream has waited
for it yet. -/
def raiseBarrier (w : World) (q b stream : Nat) : World :=
  (w.emit (.record b stream)).setQueue q { w.queues q with applied := fun _ _ => false }

/-- `urEnqueueEventsWaitWithBarrier` (and `urEnqueueEventsWait`). `garbage` is what
an unwritten `StreamToken` happens to hold. -/
def urEnqueueEventsWaitWithBarrier (a : Adapter) (w : World) (q : Nat) (waitList : List Event)
    (garbage : Nat) (wantsEvent : Bool) : Option World :=
  (w.takeStream q waitList .listed).bind fun (w₁, stream, token) =>
    let (w₂, b) := w₁.ensureBarrierEvent q
    let w₃ :=
      if waitList = [] then w₂.waitForAll a q stream
      else waitForListed stream w₂ (latestEvents waitList)
    let w₄ := w₃.raiseBarrier q b stream
    if wantsEvent then w₄.recordEvent q stream (token.getD garbage) else some w₄

/-- Wait on the host for the given streams. -/
def syncAll : World → List Nat → World
  | w, [] => w
  | w, s :: rest => syncAll (w.emit (.sync s)) rest

/-- One body of `urQueueFinish`. -/
def finishPool (a : Adapter) (k : Kind) (w : World) (q : Nat) : World :=
  if ((w.queues q).pool k).size = 0 then w
  else
    (syncAll w (w.syncedStreams a q k)).setQueue q ((w.queues q).finishPool a k)

/-- `urQueueFinish`. -/
def urQueueFinish (a : Adapter) (w : World) (q : Nat) : World :=
  finishPool a .transfer (finishPool a .compute w q) q

/-- A command of an entry point all of whose driver calls succeed: a stream, the
wait list, the work, the event, and a wait for the stream if it is blocking. -/
def submit (a : Adapter) (w : World) (q : Nat) (choice : StreamChoice) (waitList : List Event)
    (completed : Event → Bool) (garbage c : Nat) (wantsEvent blocking : Bool) : Option World :=
  (w.takeStream q waitList choice).bind fun (w₁, stream, token) =>
    let w₂ := (w₁.enqueueEventsWait a ⟨completed, fun _ => true⟩ stream waitList).1
    let w₃ := w₂.emit (.launch stream c)
    let w₄ := if wantsEvent then w₃.recordEvent q stream (token.getD garbage) else some w₃
    if blocking then w₄.map fun w₅ => w₅.emit (.sync stream) else w₄

end World

end UnifiedRuntime.Streams
