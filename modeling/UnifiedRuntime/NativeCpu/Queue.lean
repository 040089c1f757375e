import Mathlib.Logic.Function.Basic
import Mathlib.Data.List.Basic

/-!
# Queues, events and kernels of the Native CPU adapter

One thread calls the entry points, and the threads of the pool run the tasks that launches have
left behind. The other commands run on the calling thread, in the call. An event is made for
every launch, and for another command if one is asked for. It is done when somebody has waited
for it: it leaves the set of its queue then, and the callback of a launch runs.

Handles are numbers. A call whose waits take time is taken when they are over; a launch on an
in-order queue is in two parts, `launch` and `unblock`.
-/

namespace UnifiedRuntime.NativeCpu.Queue

/-- `ur_event_handle_t_`. `requested` says whether the application has got the handle, and
`deleted` counts the deletes; neither is part of the code. -/
structure Event where
  done : Bool
  refCount : Nat
  requested : Bool
  deleted : Nat

/-- A command that has been enqueued, with its event and its tasks that have not finished;
`emptyBarrier` marks a barrier with an empty wait list. -/
structure Command where
  queue : Nat
  kernel : Option Nat
  waits : List Nat
  emptyBarrier : Bool
  tasks : Nat
  event : Option Event

/-- `ur_queue_handle_t_`; `events` is a set. -/
structure QueueState where
  inOrder : Bool
  events : List Nat
  refCount : Nat
  alive : Bool

/-- The reference count of a `ur_kernel_handle_t_`. -/
structure KernelState where
  refCount : Nat
  alive : Bool

/-- `blocked` is the launch that the calling thread waits for; `fault` is set when something
that has been deleted is touched. -/
structure Host where
  commands : Nat → Option Command
  next : Nat
  queues : Nat → QueueState
  nextQueue : Nat
  kernels : Nat → KernelState
  nextKernel : Nat
  blocked : Option Nat
  fault : Bool

namespace Host

def init : Host :=
  ⟨fun _ => none, 0, fun _ => ⟨true, [], 0, false⟩, 0, fun _ => ⟨0, false⟩, 0, none, false⟩

/-- A command and its event. -/
def eventOf (s : Host) (e : Nat) : Option (Command × Event) :=
  match s.commands e with
  | some c => c.event.map fun ev => (c, ev)
  | none => none

def setEvent (s : Host) (e : Nat) (c : Command) (ev : Event) : Host :=
  { s with commands := Function.update s.commands e (some { c with event := some ev }) }

def setQueue (s : Host) (q : Nat) (queue : QueueState) : Host :=
  { s with queues := Function.update s.queues q queue }

def touchFault (s : Host) (bad : Bool) : Host := { s with fault := s.fault || bad }

/-- The kernel that a callback clears the local arguments of is gone. -/
def kernelGone (s : Host) (kernel : Option Nat) : Bool :=
  match kernel with
  | some k => !(s.kernels k).alive
  | none => false

/-- `ur_event_handle_t_::wait`, once the tasks of the event have finished. -/
def wait (s : Host) (e : Nat) : Host :=
  match s.eventOf e with
  | none => s
  | some (c, ev) =>
    if ev.deleted ≠ 0 then s.touchFault true
    else if ev.done then s
    else
      let queue := s.queues c.queue
      let s := s.touchFault (!queue.alive || s.kernelGone c.kernel)
      (s.setQueue c.queue { queue with events := queue.events.erase e }).setEvent e c
        { ev with done := true }

/-- `urEventWait`. -/
def waitAll (s : Host) (events : List Nat) : Host := events.foldl wait s

/-- The loop of `finish`: an event that is waited for leaves the set. -/
def drain (q : Nat) : Nat → Host → Host
  | 0, s => s
  | n + 1, s =>
    match (s.queues q).events with
    | [] => s
    | e :: _ => drain q n (s.wait e)

/-- `ur_queue_handle_t_::finish`. -/
def finish (s : Host) (q : Nat) : Host :=
  let s := drain q (s.queues q).events.length s
  s.setQueue q { s.queues q with events := [] }

/-- A command is enqueued, with its event in the set of the queue. -/
def enqueue (s : Host) (c : Command) : Host :=
  let queue := s.queues c.queue
  { s with
    commands := Function.update s.commands s.next (some c)
    next := s.next + 1
    queues :=
      if c.event.isSome then
        Function.update s.queues c.queue { queue with events := queue.events ++ [s.next] }
      else s.queues }

def newEvent (requested : Bool) : Event := ⟨false, 1, requested, 0⟩

/-- `urEnqueueKernelLaunch`. -/
def launch (s : Host) (q k : Nat) (waits : List Nat) (phEvent : Bool) (tasks : Nat) : Host :=
  let s := s.waitAll waits
  let event := s.next
  let s := s.enqueue ⟨q, some k, waits, false, tasks, some (newEvent phEvent)⟩
  if (s.queues q).inOrder then { s with blocked := some event } else s

/-- `withTimingEvent`. -/
def withTimingEvent (s : Host) (q : Nat) (waits : List Nat) (emptyBarrier phEvent : Bool) : Host :=
  let s := s.waitAll waits
  s.enqueue ⟨q, none, waits, emptyBarrier, 0, if phEvent then some (newEvent true) else none⟩

/-- The destructor of an event, and its memory. -/
def deleteEvent (s : Host) (e : Nat) : Host :=
  let s := s.wait e
  match s.eventOf e with
  | none => s
  | some (c, ev) => s.setEvent e c { ev with deleted := ev.deleted + 1 }

/-- `urEventRelease`. -/
def releaseEvent (s : Host) (e : Nat) : Host :=
  match s.eventOf e with
  | none => s
  | some (c, ev) =>
    let s' := s.setEvent e c { ev with refCount := ev.refCount - 1 }
    if ev.refCount - 1 = 0 then s'.deleteEvent e else s'

/-- `urEventRetain`. -/
def retainEvent (s : Host) (e : Nat) : Host :=
  match s.eventOf e with
  | none => s
  | some (c, ev) => s.setEvent e c { ev with refCount := ev.refCount + 1 }

/-- `urEventGetInfo` and `urEventGetProfilingInfo` read the event. -/
def query (s : Host) (e : Nat) : Host :=
  match s.eventOf e with
  | none => s
  | some (_, ev) => s.touchFault (ev.deleted ≠ 0)

def setKernel (s : Host) (k : Nat) (kernel : KernelState) : Host :=
  { s with kernels := Function.update s.kernels k kernel }

/-- `urKernelRelease`. -/
def releaseKernel (s : Host) (k : Nat) : Host :=
  let kernel := s.kernels k
  s.setKernel k { refCount := kernel.refCount - 1, alive := kernel.refCount - 1 ≠ 0 }

/-- `urQueueRelease`; the destructor finishes the queue. -/
def releaseQueue (s : Host) (q : Nat) : Host :=
  let queue := s.queues q
  let s := s.setQueue q { queue with refCount := queue.refCount - 1 }
  if queue.refCount - 1 = 0 then
    let s := s.finish q
    s.setQueue q { s.queues q with alive := false }
  else s

/-- A task runs to its end. -/
def task (s : Host) (e : Nat) : Host :=
  match s.commands e with
  | none => s
  | some c =>
    { s with commands := Function.update s.commands e (some { c with tasks := c.tasks - 1 }) }

end Host

/-! ## Calls -/

/-- The calls of the application, the end of a launch on an in-order queue, and the tasks. -/
inductive Call where
  | createQueue (inOrder : Bool)
  | createKernel
  | launch (q k : Nat) (waits : List Nat) (phEvent : Bool) (tasks : Nat)
  | unblock
  | command (q : Nat) (waits : List Nat) (phEvent : Bool)
  | barrier (q : Nat) (waits : List Nat) (phEvent : Bool)
  | wait (events : List Nat)
  | finish (q : Nat)
  | retainEvent (e : Nat)
  | releaseEvent (e : Nat)
  | query (e : Nat)
  | retainKernel (k : Nat)
  | releaseKernel (k : Nat)
  | retainQueue (q : Nat)
  | releaseQueue (q : Nat)
  | task (e : Nat)

namespace Host

def step (s : Host) : Call → Host
  | .createQueue inOrder =>
    { s.setQueue s.nextQueue ⟨inOrder, [], 1, true⟩ with nextQueue := s.nextQueue + 1 }
  | .createKernel => { s.setKernel s.nextKernel ⟨1, true⟩ with nextKernel := s.nextKernel + 1 }
  | .launch q k waits phEvent tasks => s.launch q k waits phEvent tasks
  | .unblock =>
    match s.blocked with
    | some e => { s.wait e with blocked := none }
    | none => s
  | .command q waits phEvent => s.withTimingEvent q waits false phEvent
  | .barrier q waits phEvent => s.withTimingEvent q waits waits.isEmpty phEvent
  | .wait events => s.waitAll events
  | .finish q => s.finish q
  | .retainEvent e => s.retainEvent e
  | .releaseEvent e => s.releaseEvent e
  | .query e => s.query e
  | .retainKernel k =>
    s.setKernel k { s.kernels k with refCount := (s.kernels k).refCount + 1 }
  | .releaseKernel k => s.releaseKernel k
  | .retainQueue q => s.setQueue q { s.queues q with refCount := (s.queues q).refCount + 1 }
  | .releaseQueue q => s.releaseQueue q
  | .task e => s.task e

/-! ## When a call can be made -/

/-- The application holds a reference to the event. -/
def Held (s : Host) (e : Nat) : Prop :=
  ∃ c ev, s.eventOf e = some (c, ev) ∧ ev.requested = true ∧ 0 < ev.refCount

/-- The tasks of a command have finished, and with them its futures. -/
def Complete (s : Host) (e : Nat) : Prop := ∀ c, s.commands e = some c → c.tasks = 0

/-- A wait for the event comes back: the event is done, or the tasks of its command have
finished. -/
def Returns (s : Host) (e : Nat) : Prop :=
  ∀ c ev, s.eventOf e = some (c, ev) → ev.done = false → c.tasks = 0

/-- The application waits for events that it holds, and the waits come back. -/
def Waits (s : Host) (events : List Nat) : Prop := ∀ e ∈ events, s.Held e ∧ s.Returns e

def HoldsQueue (s : Host) (q : Nat) : Prop := (s.queues q).alive = true ∧ 0 < (s.queues q).refCount

def HoldsKernel (s : Host) (k : Nat) : Prop :=
  (s.kernels k).alive = true ∧ 0 < (s.kernels k).refCount

/-- A finish comes back when the waits for the events in the set do. -/
def Finishes (s : Host) (q : Nat) : Prop := ∀ e ∈ (s.queues q).events, s.Returns e

end Host

/-- The application uses what it holds references to, and a call is taken when its waits come
back; while it waits for a launch, only tasks run. -/
def Allowed (s : Host) : Call → Prop
  | .createQueue _ => s.blocked = none
  | .createKernel => s.blocked = none
  | .launch q k waits _ _ => s.blocked = none ∧ s.HoldsQueue q ∧ s.HoldsKernel k ∧ s.Waits waits
  | .unblock => ∃ e, s.blocked = some e ∧ s.Returns e
  | .command q waits _ => s.blocked = none ∧ s.HoldsQueue q ∧ s.Waits waits
  | .barrier q waits _ => s.blocked = none ∧ s.HoldsQueue q ∧ s.Waits waits
  | .wait events => s.blocked = none ∧ s.Waits events
  | .finish q => s.blocked = none ∧ s.HoldsQueue q ∧ s.Finishes q
  | .retainEvent e => s.blocked = none ∧ s.Held e
  | .releaseEvent e => s.blocked = none ∧ s.Held e ∧
    ∀ c ev, s.eventOf e = some (c, ev) → ev.refCount = 1 → s.Returns e
  | .query e => s.blocked = none ∧ s.Held e
  | .retainKernel k => s.blocked = none ∧ s.HoldsKernel k
  | .releaseKernel k => s.blocked = none ∧ s.HoldsKernel k
  | .retainQueue q => s.blocked = none ∧ s.HoldsQueue q
  | .releaseQueue q => s.blocked = none ∧ s.HoldsQueue q ∧
    ((s.queues q).refCount = 1 → s.Finishes q)
  | .task e => ∃ c, s.commands e = some c ∧ 0 < c.tasks

end UnifiedRuntime.NativeCpu.Queue
