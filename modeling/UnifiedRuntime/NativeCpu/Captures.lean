import UnifiedRuntime.NativeCpu.KernelArgs

/-!
# What the tasks of a launch read

A task has a copy of the kernel object. The copy has its own pointers, but the storage behind
them and the pool are those of the kernel. When an event is waited for, its callback clears the
list of local arguments of the kernel itself.

A launch has been dealt out to threads when it returns on an out-of-order queue, and its tasks
run at any time after that; without the OCK passes it has run when it returns.
-/

namespace UnifiedRuntime.NativeCpu.Captures

/-! ## The system -/

/-- A task that has not finished. `args` is not part of the code: what each index was set to
when the launch was enqueued. -/
structure Task where
  kernel : Kernel
  threadId : UInt64
  resized : Bool
  event : Nat
  args : Nat → Option Arg

/-- A kernel, the tasks of its launches, and the events that were waited for. -/
structure System where
  ock : Bool
  numThreads : UInt64
  world : World
  tasks : List Task
  nextEvent : Nat
  done : List Nat

def System.init (ock : Bool) (numThreads : UInt64) : System :=
  ⟨ock, numThreads, .create, [], 0, []⟩

/-- The pointers that a task passes; the tasks of resized work-groups leave local memory out. -/
def Task.getArgs (t : Task) (numThreads : UInt64) : List Ptr :=
  if t.resized then t.kernel.Args.Indices
  else (t.kernel.handleLocalArgs numThreads t.threadId).Args.Indices

inductive Call where
  | arg (call : ArgCall)
  | launch (ok resized : Bool) (threads : List UInt64)
  | finish (task : Nat)
  | wait (event : Nat)

namespace System

/-- The kernel of a launch, with its pool sized. -/
def sized (s : System) (ok : Bool) : World := s.world.updateMemPool s.numThreads ok

/-- The kernel whose arguments the calls on the enqueuing thread read: all of them without the
OCK passes, and those peeled off resized work-groups. -/
def inlineKernel (s : System) (ok resized : Bool) : Option Kernel :=
  if !s.ock then some ((s.sized ok).kernel.handleLocalArgs 1 0)
  else if resized then some (s.sized ok).kernel
  else none

/-- `urEnqueueKernelLaunch`, as far as it concerns the kernel. -/
def launch (s : System) (ok resized : Bool) (threads : List UInt64) : System :=
  let w := s.sized ok
  if !s.ock then
    { s with
      world := { w with kernel := w.kernel.handleLocalArgs 1 0 }
      nextEvent := s.nextEvent + 1 }
  else
    { s with
      world := w
      tasks := s.tasks ++ threads.map fun threadId =>
        ⟨w.kernel.copy, threadId, resized, s.nextEvent, w.last⟩
      nextEvent := s.nextEvent + 1 }

/-- `ur_event_handle_t_::wait` behind the futures: the callback runs once. -/
def wait (s : System) (event : Nat) : System :=
  if event ∈ s.done then s
  else
    { s with
      world := { s.world with kernel := { s.world.kernel with localArgInfo := [] } }
      done := event :: s.done }

def step (s : System) : Call → System
  | .arg call => { s with world := s.world.step call }
  | .launch ok resized threads => s.launch ok resized threads
  | .finish task => { s with tasks := s.tasks.eraseIdx task }
  | .wait event => s.wait event

end System

/-- The calls that set an argument. -/
def IsSet : ArgCall → Prop
  | .setValue _ _ _ => True
  | .setPointer _ _ => True
  | .setMemObj _ _ => True
  | .setLocal _ _ => True
  | .updateMemPool _ _ => False
  | .retain => False
  | .release => False

/-- Work-groups are resized only without local arguments, the threads are the pool's, and a wait
comes back when the tasks of the event have finished. -/
def Allowed (s : System) : Call → Prop
  | .arg call => IsSet call
  | .launch _ resized threads => (resized = true → s.world.kernel.hasLocalArgs = false) ∧
    ∀ threadId ∈ threads, threadId < s.numThreads
  | .finish task => task < s.tasks.length
  | .wait event => event < s.nextEvent ∧ ∀ t ∈ s.tasks, t.event ≠ event

/-! ## Arguments that are passed -/

/-- Memory for local arguments is in a live block. -/
def InBlock (h : Heap) (p : Ptr) (size : Nat) : Prop :=
  ∃ id offset bytes, p = .block id offset ∧ h.blocks id = some bytes ∧
    offset + size ≤ bytes.length

/-- **The arguments are passed**: every index has what it was set to. -/
def Passes (h : Heap) (pointers : List Ptr) (args : Nat → Option Arg) : Prop :=
  ∀ i arg, args i = some arg → match arg with
    | .value bytes => ∃ id, pointers.getD i .null = .block id 0 ∧ h.blocks id = some bytes
    | .pointer p => pointers.getD i .null = p
    | .localMem size => size = 0 ∨ InBlock h (pointers.getD i .null) size.toNat

/-- Two ranges of memory have no byte in common. -/
def PtrsApart (p : Ptr) (size : Nat) (p' : Ptr) (size' : Nat) : Prop :=
  ∀ id offset offset', p = .block id offset → p' = .block id offset' →
    offset + size ≤ offset' ∨ offset' + size' ≤ offset

/-- The local memory of an index and that of an index of another list are apart. -/
def LocalsApart (pointers : List Ptr) (args : Nat → Option Arg) (i : Nat)
    (pointers' : List Ptr) (args' : Nat → Option Arg) (j : Nat) : Prop :=
  ∀ size size', args i = some (.localMem size) → args' j = some (.localMem size') →
    PtrsApart (pointers.getD i .null) size.toNat (pointers'.getD j .null) size'.toNat

/-- **The tasks read what was captured**, and those of different threads, which may run at the
same time, have local memory of their own. -/
structure Captured (s : System) : Prop where
  passes : ∀ t ∈ s.tasks, Passes s.world.heap (t.getArgs s.numThreads) t.args
  within : ∀ t ∈ s.tasks, ∀ i j, i ≠ j →
    LocalsApart (t.getArgs s.numThreads) t.args i (t.getArgs s.numThreads) t.args j
  between : ∀ t ∈ s.tasks, ∀ t' ∈ s.tasks, t.threadId ≠ t'.threadId → ∀ i j,
    LocalsApart (t.getArgs s.numThreads) t.args i (t'.getArgs s.numThreads) t'.args j

/-- What a launch runs itself is passed the arguments, too. -/
def InlineRight (s : System) : Call → Prop
  | .launch ok resized _ => ∀ k, s.inlineKernel ok resized = some k →
    Passes (s.sized ok).heap k.Args.Indices s.world.last ∧ ∀ i j, i ≠ j →
      LocalsApart k.Args.Indices s.world.last i k.Args.Indices s.world.last j
  | _ => True

def Right (s : System) (call : Call) : Prop := Captured (s.step call) ∧ InlineRight s call

/-! ## The condition -/

/-- The bytes that local arguments take for all threads. -/
def total (info : List LocalArgInfo) (numThreads : Nat) : Nat :=
  (info.map fun entry => entry.argSize.toNat * numThreads).sum

/-- The pool fits a launch with local arguments: its size can be told, there is memory for it,
and there are no tasks with other local arguments. -/
structure PoolFits (s : System) (ok : Bool) : Prop where
  fits : total s.world.kernel.localArgInfo s.numThreads.toNat < 2 ^ 64
  threads : s.numThreads ≠ 0
  memory : ok = true
  same : ∀ t ∈ s.tasks, t.kernel.localArgInfo = [] ∨
    t.kernel.localArgInfo = s.world.kernel.localArgInfo

/-- **When a call is right**: setting an argument is right for the kernel, and a value does not
take the place of one that a task has yet to read; the local arguments of a launch have been set
since the last event that was waited for, and the pool fits. -/
def Fine (s : System) : Call → Prop
  | .arg call => NativeCpu.Fine s.world call ∧ match call with
    | .setValue i arg _ => arg.length = 0 ∨ ∀ t ∈ s.tasks, ∀ bytes, t.args i = some (.value bytes) →
      t.kernel.Args.pointerAt i = s.world.pointerAt i → bytes = arg
    | _ => True
  | .launch ok _ _ =>
    (∀ i size, s.world.last i = some (.localMem size) →
      s.world.kernel.localSize i = some size) ∧
    (s.world.kernel.localArgInfo ≠ [] → PoolFits s ok)
  | .finish _ => True
  | .wait _ => True

end UnifiedRuntime.NativeCpu.Captures
