import Mathlib

/-!
# Completion batches

An out-of-order immediate command list does not ask for each of its events whether it has
completed. `ur_completion_batches` collects them in batches: the active batch takes the new
events, a full one is sealed with a barrier on the command list, and when the barrier's event is
signalled all the batch's events leave the event list together.

The batches are a `std::list`, whose nodes stay where they are and are never erased, so that
an iterator is the number of its node here. An event carries the iterator of its batch.

The barriers run on the device. A state has those that have not completed, and which of the
Level Zero events are signalled; what no code reads (the positions on the command list, the
barriers that have completed, the events that have left the list) is kept to say what should be.
-/

namespace UnifiedRuntime.LevelZero.Completion

/-! ## Data -/

inductive BatchState where
  | empty
  | accumulating
  | sealed
  | completed
deriving DecidableEq

/-- `ur_completion_batch`; `barrierEvent` says that the event has been made. -/
structure CompletionBatch where
  barrierEvent : Bool
  st : BatchState
  numEvents : Nat

def CompletionBatch.new : CompletionBatch := ⟨false, .empty, 0⟩

/-- An event, with the position of its command on the command list. -/
structure Event where
  position : Nat
  completionBatch : Nat

/-- A barrier on the command list that signals the event of the batch. -/
structure Barrier where
  batch : Nat
  position : Nat

inductive UrResult where
  | success
  | outOfResources
  | failed
deriving DecidableEq

/-- `CompletionEventsPerBatch` and `CompletionBatchesMax`. -/
structure Limits where
  eventsPerBatch : Nat
  batchesMax : Nat

/-- A command list with its `ur_completion_batches`, and the device. -/
structure CommandList where
  batch : Nat → CompletionBatch
  count : Nat
  sealed : List Nat
  active : Nat
  eventList : List Event
  /-- the next position on the command list -/
  next : Nat
  /-- the Level Zero events of the batches -/
  signalled : Nat → Bool
  pending : List Barrier
  /-- positions of the barriers that have completed -/
  done : List Nat
  /-- the position of a batch's last barrier -/
  sealedAt : Nat → Nat
  /-- moved to the cleanup list as a batch -/
  moved : List Event
  /-- taken from the list by others -/
  taken : List Event

/-- What the driver answers in a call: for the queries and resets of a batch's event, and when
the event is made and the barrier appended. -/
structure Answers where
  queries : Nat → Bool
  resets : Nat → Bool
  createEvent : Bool
  appendBarrier : Bool

namespace CommandList

/-! ## One batch -/

def setBatch (s : CommandList) (i : Nat) (b : CompletionBatch) : CommandList :=
  { s with batch := Function.update s.batch i b }

/-- `ur_completion_batch::use`. -/
def use (s : CommandList) (i : Nat) : CommandList :=
  s.setBatch i { s.batch i with st := .accumulating }

/-- `ur_completion_batch::reset`: the batch is empty whatever the driver says. -/
def reset (s : CommandList) (i : Nat) (ok : Bool) : CommandList × UrResult :=
  let s' := s.setBatch i { s.batch i with st := .empty, numEvents := 0 }
  if (s.batch i).barrierEvent then
    if ok then ({ s' with signalled := Function.update s'.signalled i false }, .success)
    else (s', .failed)
  else (s', .success)

/-- `ur_completion_batch::queryState`. -/
def queryState (s : CommandList) (i : Nat) (ok : Bool) : CommandList × BatchState :=
  if (s.batch i).st = .sealed ∧ (s.signalled i && ok) = true then
    (s.setBatch i { s.batch i with st := .completed }, .completed)
  else (s, (s.batch i).st)

/-- `EventCreate` for the barrier of a batch. -/
def createEvent (s : CommandList) (i : Nat) : CommandList :=
  { s.setBatch i { s.batch i with barrierEvent := true } with
    signalled := Function.update s.signalled i false }

/-- The event of a batch, made where it is not there yet. -/
def ensureEvent (s : CommandList) (i : Nat) (ans : Answers) : Option CommandList :=
  if (s.batch i).barrierEvent then some s
  else if ans.createEvent then some (s.createEvent i)
  else none

/-- `zeCommandListAppendBarrier`, and the batch is sealed. -/
def appendBarrier (s : CommandList) (i : Nat) (ans : Answers) : CommandList × UrResult :=
  if ans.appendBarrier then
    ({ s.setBatch i { s.batch i with st := .sealed } with
        pending := s.pending ++ [⟨i, s.next⟩]
        sealedAt := Function.update s.sealedAt i s.next
        next := s.next + 1 }, .success)
  else (s, .failed)

/-- `ur_completion_batch::seal`. -/
def sealBatch (s : CommandList) (i : Nat) (ans : Answers) : CommandList × UrResult :=
  match s.ensureEvent i ans with
  | some s => s.appendBarrier i ans
  | none => (s, .failed)

/-! ## All batches -/

/-- `ur_completion_batches::append`, and the event list's `push_back`. -/
def append (s : CommandList) : CommandList :=
  { s.setBatch s.active { s.batch s.active with numEvents := (s.batch s.active).numEvents + 1 } with
    eventList := s.eventList ++ [⟨s.next, s.active⟩]
    next := s.next + 1 }

/-- `moveCompletedEvents`. -/
def moveCompletedEvents (s : CommandList) (it : Nat) : CommandList :=
  { s with
    eventList := s.eventList.filter (·.completionBatch != it)
    moved := s.moved ++ s.eventList.filter (·.completionBatch == it) }

/-- The loop of `cleanup`, over the sealed batches. -/
def cleanupLoop (ans : Answers) : List Nat → Bool → CommandList → CommandList × UrResult
  | [], cleaned, s => (s, if cleaned then .success else .outOfResources)
  | oldest :: rest, cleaned, s =>
    let q := s.queryState oldest (ans.queries oldest)
    if q.2 = .completed then
      let r := ({ q.1 with sealed := rest }.moveCompletedEvents oldest).reset oldest
        (ans.resets oldest)
      if r.2 = .success then cleanupLoop ans rest true r.1 else r
    else (q.1, if cleaned then .success else .outOfResources)

def cleanup (s : CommandList) (ans : Answers) : CommandList × UrResult :=
  cleanupLoop ans s.sealed false s

/-- `findFirstEmptyBatchOrCreate`. -/
def findFirstEmptyBatchOrCreate (s : CommandList) (limits : Limits) : CommandList × Option Nat :=
  match (List.range s.count).find? fun i => (s.batch i).st = .empty with
  | some i => (s, some i)
  | none =>
    if s.count < limits.batchesMax then
      ({ s.setBatch s.count .new with count := s.count + 1 }, some s.count)
    else (s, none)

/-- `isFull` of the active batch. -/
def isFull (s : CommandList) (limits : Limits) : Bool :=
  limits.eventsPerBatch ≤ (s.batch s.active).numEvents

/-- Seal the active batch and go on with another. -/
def switch (s : CommandList) (next : Nat) (ans : Answers) : CommandList × UrResult :=
  let r := s.sealBatch s.active ans
  if r.2 = .success then
    ({ r.1 with sealed := r.1.sealed ++ [r.1.active], active := next }.use next, .success)
  else r

/-- `tryCleanup`; what `cleanup` returns is dropped. -/
def tryCleanup (s : CommandList) (limits : Limits) (ans : Answers) : CommandList × UrResult :=
  let s := (s.cleanup ans).1
  if s.isFull limits then
    match s.findFirstEmptyBatchOrCreate limits with
    | (s, none) => (s, .outOfResources)
    | (s, some next) => s.switch next ans
  else (s, .success)

/-- The loop of `forceReset`, which does not look at the results. -/
def resetAll (resets : Nat → Bool) (s : CommandList) : CommandList :=
  (List.range s.count).foldl (fun s i => (s.reset i (resets i)).1) s

def forceReset (s : CommandList) (resets : Nat → Bool) : CommandList :=
  { s.resetAll resets with sealed := [], active := 0 }.use 0

/-! ## Steps -/

/-- The device completes the `k`-th of the barriers that are left. -/
def complete (s : CommandList) (k : Nat) : CommandList :=
  match s.pending[k]? with
  | some b =>
    { s with
      pending := s.pending.eraseIdx k
      signalled := Function.update s.signalled b.batch true
      done := b.position :: s.done }
  | none => s

/-- All barriers complete. -/
def completeAll (s : CommandList) : CommandList :=
  { s with
    pending := []
    signalled := fun i => s.signalled i || s.pending.any (·.batch == i)
    done := s.pending.map (·.position) ++ s.done }

/-- After a synchronisation of the command list: the events are cleaned up and the batches
reset. -/
def synchronize (s : CommandList) (resets : Nat → Bool) : CommandList :=
  { s.completeAll with eventList := [], taken := s.taken ++ s.eventList }.forceReset resets

/-- Others take events off the list (events found complete one by one, or all of them). -/
def take (s : CommandList) (keep : Event → Bool) : CommandList :=
  { s with
    eventList := s.eventList.filter keep
    taken := s.taken ++ s.eventList.filter fun e => !keep e }

/-- The constructor: one batch, which is active. -/
def new : CommandList :=
  CommandList.use
    { batch := fun _ => .new, count := 1, sealed := [], active := 0, eventList := [], next := 0
      signalled := fun _ => false, pending := [], done := [], sealedAt := fun _ => 0
      moved := [], taken := [] } 0

end CommandList

inductive Op where
  | append
  | tryCleanup (ans : Answers)
  | complete (k : Nat)
  | synchronize (resets : Nat → Bool)
  | take (keep : Event → Bool)

def CommandList.step (limits : Limits) (s : CommandList) : Op → CommandList
  | .append => s.append
  | .tryCleanup ans => (s.tryCleanup limits ans).1
  | .complete k => s.complete k
  | .synchronize resets => s.synchronize resets
  | .take keep => s.take keep

def CommandList.run (limits : Limits) (s : CommandList) (ops : List Op) : CommandList :=
  ops.foldl (CommandList.step limits) s

/-! ## What should be -/

/-- **The batches and the events are in order**: the active batch and no other accumulates; the
queue has the sealed batches, in the order of their barriers; no event has left the list twice
or is still on it; and those on it are of the active batch or of a sealed one. -/
structure Orderly (s : CommandList) : Prop where
  active : s.active < s.count
  accumulating : ∀ i < s.count, (s.batch i).st = .accumulating ↔ i = s.active
  sealed : ∀ i, i ∈ s.sealed ↔ i < s.count ∧ (s.batch i).st = .sealed
  order : s.sealed.Pairwise fun i j => s.sealedAt i < s.sealedAt j
  once : ((s.moved ++ s.taken ++ s.eventList).map (·.position)).Nodup
  stays : ∀ e ∈ s.eventList, e.completionBatch < s.count ∧
    ((s.batch e.completionBatch).st = .accumulating ∨ (s.batch e.completionBatch).st = .sealed)

/-- **An event is moved after a barrier behind its command has completed.** -/
def MovedInTime (s : CommandList) : Prop :=
  ∀ e ∈ s.moved, ∃ p ∈ s.done, e.position < p

/-- The condition on a call: the active batch, if it is going to be sealed, has an event that is
not signalled. -/
def Op.Meets (limits : Limits) (s : CommandList) : Op → Prop
  | .tryCleanup ans =>
    s.isFull limits = true → ans.appendBarrier = true → (s.batch s.active).barrierEvent = true →
      s.signalled s.active = false
  | _ => True

/-- Every call of a run meets the condition. -/
def AllMeet (limits : Limits) : CommandList → List Op → Prop
  | _, [] => True
  | s, op :: ops => op.Meets limits s ∧ AllMeet limits (s.step limits op) ops

/-- The driver resets every event that it is asked to. -/
def Op.Resets : Op → Prop
  | .tryCleanup ans => ∀ i, ans.resets i = true
  | .synchronize resets => ∀ i, resets i = true
  | _ => True

end UnifiedRuntime.LevelZero.Completion
