import UnifiedRuntime.Lib.Overlay
import UnifiedRuntime.Streams.Pool

/-!
# Buffers of a context (CUDA and HIP)

A buffer has one allocation on each device of its context, or a single pinned
one that every device sees. The handle remembers the queue that wrote last and,
for every device, whether the contents were migrated there since; kernel
launches migrate and record, writes and fills record, copies do neither, and a
read goes to the device of the last writer. A sub-buffer is a handle of its own:
it copies its parent's size and pointers and starts with fresh bookkeeping.

Commands run in the order in which they are enqueued. Next to the memory a world
keeps what was last written to each byte (`latest`) and what the commands read.
-/

namespace UnifiedRuntime.Buffers

open Function (update)
open Streams (Adapter)

abbrev Byte := UInt8
abbrev Contents := Nat → Byte

/-- A `size_t` has 64 bits, and so has a pointer: sums that do not fit wrap. -/
def wrap (n : Nat) : Nat := n % 2 ^ 64

/-! ## The bytes of a command -/

/-- A rectangle in a buffer, as the `Rect` entry points are given it. -/
structure Rect where
  x : Nat
  y : Nat
  z : Nat
  width : Nat
  height : Nat
  depth : Nat
  rowPitch : Nat
  slicePitch : Nat

namespace Rect

/-- `setCopyRectParams` (CUDA) and `commonEnqueueMemBufferCopyRect` (HIP): what a
row pitch of 0 stands for. -/
def pitch (a : Adapter) (r : Rect) : Nat :=
  if r.rowPitch = 0 then
    match a with
    | .cuda => wrap (r.width + r.x)
    | .hip => r.width
  else r.rowPitch

/-- The same for the slice pitch. -/
def slice (a : Adapter) (r : Rect) : Nat :=
  if r.slicePitch = 0 then
    match a with
    | .cuda => wrap (wrap (r.height + r.y) * r.pitch a)
    | .hip => wrap (r.height * r.pitch a)
  else r.slicePitch

/-- Where `cuMemcpy3DAsync` finds the byte `(i, j, k)` of the rectangle. -/
def address (a : Adapter) (r : Rect) (i j k : Nat) : Nat :=
  wrap (((r.z + k) * (r.slice a / r.pitch a) + (r.y + j)) * r.pitch a + (r.x + i))

/-- All bytes of the rectangle, row by row. -/
def offsets (a : Adapter) (r : Rect) : List Nat :=
  (List.range r.depth).flatMap fun k =>
    (List.range r.height).flatMap fun j =>
      (List.range r.width).map fun i => r.address a i j k

end Rect

/-- The bytes of a range; one that passes a check by wrapping ends before it begins. -/
def rangeOffsets (offset size : Nat) : List Nat :=
  (List.range size).map fun k => wrap (offset + k)

/-- The `k`-th byte of the source goes to the `k`-th of the offsets. -/
def cells (offsets : List Nat) (source : Nat → Byte) : List (Nat × Byte) :=
  offsets.zipIdx.map fun p => (p.1, source p.2)

/-- What the cells write behind a pointer. -/
def writesOf (base : Nat) (cs : List (Nat × Byte)) : Nat → Option Byte :=
  fun i => (cs.find? fun c => decide (wrap (base + c.1) = i)).map (·.2)

/-! ## Handles -/

/-- `ur_mem_handle_t_` with a `BufferMem`. -/
structure Mem where
  /-- `Parent`. -/
  parent : Option Nat
  /-- The buffer into whose allocations `Ptrs` point, … -/
  root : Nat
  /-- … and how far. -/
  offset : Nat
  /-- `Size`. A sub-buffer has its parent's. -/
  size : Nat
  /-- `pRegion->size`. The source does not keep it. -/
  region : Nat
  /-- Is `MemAllocMode` `AllocHostPtr`? -/
  pinned : Bool
  /-- Is `HostPtr` set? -/
  hostPtr : Bool
  /-- `HaveMigratedToDeviceSinceLastWrite`. -/
  migrated : Nat → Bool
  /-- `LastQueueWritingToMemObj`. -/
  lastQueue : Option Nat
  refCount : Nat

/-- Where a device finds the buffer: pinned memory is the same for all of them. -/
def Mem.place (m : Mem) (d : Nat) : Nat := if m.pinned then 0 else d

/-- The byte is one of the handle's region, and one of the buffer: a partition whose
sum wraps makes a region that begins in front of it. -/
def Mem.Within (m : Mem) (o : Nat) : Prop := o < m.region ∧ wrap (m.offset + o) < m.size

instance (m : Mem) (o : Nat) : Decidable (m.Within o) := inferInstanceAs (Decidable (_ ∧ _))

/-- The devices of a context and the device of each queue. -/
structure Context where
  devices : Nat
  device : Nat → Nat
  device_lt : ∀ q, device q < devices

/-- The handles `0 … count - 1` and everything they refer to. -/
structure World where
  context : Context
  count : Nat
  mems : Nat → Mem
  /-- What is in each buffer's allocations. -/
  memory : Nat → Nat → Contents
  /-- What `HostPtr` points at, now and when the buffer was created. -/
  host : Nat → Contents
  initial : Nat → Contents
  /-- The value last written to each byte of a buffer, if any. -/
  latest : Nat → Nat → Option Byte
  /-- Every byte read so far, and what should have been read. -/
  observed : List (Byte × Option Byte)
  /-- How many bytes outside of the regions were touched. -/
  strays : Nat
  /-- Reads in flight: the queue they were enqueued on, and the one they run on. -/
  pending : List (Nat × Nat)
  /-- Reads a finish of their queue returned without. -/
  missed : List (Nat × Nat)
  /-- The references that buffers hold on queues. -/
  queueRefs : Nat → Nat

namespace World

/-- The device of a queue. -/
def device (w : World) (q : Nat) : Nat := w.context.device q

def setMem (w : World) (h : Nat) (m : Mem) : World :=
  { w with mems := update w.mems h m }

/-- Bytes are accessed through a handle. -/
def touch (w : World) (h : Nat) (offsets : List Nat) : World :=
  { w with strays := w.strays + (offsets.filter fun o => decide (¬ (w.mems h).Within o)).length }

/-- Bytes are written through a handle on a device. -/
def poke (w : World) (h d : Nat) (cs : List (Nat × Byte)) : World :=
  let m := w.mems h
  let writes := writesOf m.offset cs
  { w.touch h (cs.map (·.1)) with
    memory := update w.memory m.root
      (update (w.memory m.root) (m.place d)
        (overlay writes (w.memory m.root (m.place d))))
    latest := update w.latest m.root (overwrite writes (w.latest m.root)) }

/-- A byte as a device has it. -/
def byteAt (w : World) (h d o : Nat) : Byte :=
  w.memory (w.mems h).root ((w.mems h).place d) (wrap ((w.mems h).offset + o))

/-- Bytes are read through a handle on a device. -/
def peek (w : World) (h d : Nat) (offsets : List Nat) : World :=
  { w.touch h offsets with
    observed := offsets.map (fun o =>
      (w.byteAt h d o, w.latest (w.mems h).root (wrap ((w.mems h).offset + o)))) ++ w.observed }

/-! ## Bookkeeping -/

/-- `urQueueRetain`. -/
def retainQueue (w : World) (q : Nat) : World :=
  { w with queueRefs := update w.queueRefs q (w.queueRefs q + 1) }

/-- `urQueueRelease`. -/
def releaseQueue (w : World) (q : Nat) : World :=
  { w with queueRefs := update w.queueRefs q (w.queueRefs q - 1) }

/-- The reference on the queue that wrote last is dropped. -/
def releaseWriter (w : World) (h : Nat) : World :=
  match (w.mems h).lastQueue with
  | some old => w.releaseQueue old
  | none => w

/-- The queue is recorded, and its device alone has the contents. -/
def markWritten (w : World) (h q : Nat) : World :=
  w.setMem h
    { w.mems h with
      lastQueue := some q
      migrated := fun d => decide (d = w.device q) }

/-- `setLastQueueWritingToMemObj`: CUDA retains the new queue first, HIP releases
the old one first. -/
def setLastQueueWritingToMemObj : Adapter → World → Nat → Nat → World
  | .cuda, w, h, q => ((w.retainQueue q).releaseWriter h).markWritten h q
  | .hip, w, h, q => ((w.releaseWriter h).retainQueue q).markWritten h q

/-- All `Size` bytes behind the handle's pointer on the device are replaced. -/
def copyTo (w : World) (h d : Nat) (source : Contents) : World :=
  let m := w.mems h
  { w.touch h (List.range m.size) with
    memory := update w.memory m.root
      (update (w.memory m.root) (m.place d) fun i =>
        if wrap (i + (2 ^ 64 - m.offset)) < m.size then source i
        else w.memory m.root (m.place d) i) }

/-- `enqueueMigrateBufferToDevice`. For pinned memory `HostPtr` is the allocation
itself. -/
def enqueueMigrateBufferToDevice (w : World) (h d : Nat) : World :=
  let m := w.mems h
  match m.lastQueue with
  | none =>
    if m.hostPtr then
      w.copyTo h d (if m.pinned then w.memory m.root 0 else w.host m.root)
    else w
  | some q =>
    if w.device q ≠ d then w.copyTo h d (w.memory m.root (m.place (w.device q))) else w

/-- `enqueueMigrateMemoryToDeviceIfNeeded`. -/
def enqueueMigrateMemoryToDeviceIfNeeded (w : World) (h d : Nat) : World :=
  if (w.mems h).migrated d then w
  else
    let w' := w.enqueueMigrateBufferToDevice h d
    w'.setMem h { w'.mems h with migrated := update (w'.mems h).migrated d true }

/-! ## Creating, releasing -/

/-- `urMemBufferCreate`. `copyIn` stands for either flag that wants the contents of
`host`; `junk` is what fresh allocations hold. -/
def urMemBufferCreate (w : World) (size : Nat) (copyIn pinned : Bool) (host : Contents)
    (junk : Nat → Contents) : World :=
  if size = 0 then w
  else
    { w with
      count := w.count + 1
      mems := update w.mems w.count
        { parent := none, root := w.count, offset := 0, size, region := size, pinned,
          hostPtr := copyIn || pinned, migrated := fun _ => false, lastQueue := none, refCount := 1 }
      -- the initial copy of pinned memory is from the pinned memory itself
      memory := update w.memory w.count
        (if copyIn && !pinned then fun d i => if i < size then host i else junk d i else junk)
      host := update w.host w.count host
      initial := update w.initial w.count host
      latest := update w.latest w.count
        (if copyIn then fun i => if i < size then some (host i) else none else fun _ => none) }

/-- `urMemBufferPartition`. The sum that is compared wraps. -/
def urMemBufferPartition (w : World) (h origin size : Nat) : World :=
  let m := w.mems h
  if m.parent.isSome ∨ size = 0 ∨ ¬ wrap (origin + size) ≤ m.size then w
  else
    { w with
      count := w.count + 1
      mems := update (update w.mems h { m with refCount := m.refCount + 1 })
        w.count
        { m with
          parent := some h, offset := wrap (m.offset + origin), region := size,
          migrated := fun _ => false, lastQueue := none, refCount := 1 } }

/-- `urMemRetain`. -/
def urMemRetain (w : World) (h : Nat) : World :=
  w.setMem h { w.mems h with refCount := (w.mems h).refCount + 1 }

/-- `urMemRelease`. The destructor of a sub-buffer releases the parent. -/
def urMemRelease (w : World) (h : Nat) : World :=
  let w' := w.setMem h { w.mems h with refCount := (w.mems h).refCount - 1 }
  match (w.mems h).parent with
  | some p =>
    if (w.mems h).refCount = 1 then
      w'.setMem p { w'.mems p with refCount := (w'.mems p).refCount - 1 }
    else w'
  | none => w'

/-! ## Commands -/

/-- What the writing entry points do once the arguments are checked. -/
def enqueueWrite (a : Adapter) (w : World) (q h : Nat) (offsets : List Nat)
    (source : Nat → Byte) : World :=
  (setLastQueueWritingToMemObj a w h q).poke h (w.device q) (cells offsets source)

/-- `urEnqueueMemBufferWrite`. HIP checks no bounds. -/
def urEnqueueMemBufferWrite (a : Adapter) (w : World) (q h offset size : Nat)
    (source : Nat → Byte) : World :=
  if a = .cuda ∧ ¬ wrap (offset + size) ≤ (w.mems h).size then w
  else w.enqueueWrite a q h (rangeOffsets offset size) source

/-- `urEnqueueMemBufferWriteRect`. -/
def urEnqueueMemBufferWriteRect (a : Adapter) (w : World) (q h : Nat) (r : Rect)
    (source : Nat → Byte) : World :=
  w.enqueueWrite a q h (r.offsets a) source

/-- `urEnqueueMemBufferFill`. -/
def urEnqueueMemBufferFill (a : Adapter) (w : World) (q h : Nat) (pattern : List Byte)
    (offset size : Nat) : World :=
  if ¬ wrap (size + offset) ≤ (w.mems h).size then w
  else
    w.enqueueWrite a q h (rangeOffsets offset (size / pattern.length * pattern.length))
      fun k => pattern.getD (k % pattern.length) 0

/-- The queue a read runs on. -/
def readQueue (w : World) (q h : Nat) : Nat :=
  match (w.mems h).lastQueue with
  | some last => if w.device last ≠ w.device q then last else q
  | none => q

/-- What the reading entry points do once the arguments are checked. -/
def enqueueRead (w : World) (q h : Nat) (offsets : List Nat) (blocking : Bool) : World :=
  let w' := w.peek h (w.device (w.readQueue q h)) offsets
  if blocking then w' else { w' with pending := (q, w.readQueue q h) :: w'.pending }

/-- `urEnqueueMemBufferRead`. HIP checks no bounds. -/
def urEnqueueMemBufferRead (a : Adapter) (w : World) (q h offset size : Nat) (blocking : Bool) :
    World :=
  if a = .cuda ∧ ¬ wrap (offset + size) ≤ (w.mems h).size then w
  else w.enqueueRead q h (rangeOffsets offset size) blocking

/-- The assertions on one side of `urEnqueueMemBufferReadRect` (HIP). -/
def pitchesValid (width height rowPitch slicePitch : Nat) : Prop :=
  ¬ (rowPitch ≠ 0 ∧ rowPitch < width) ∧
    ¬ (slicePitch ≠ 0 ∧ slicePitch < wrap (height * rowPitch)) ∧
    ¬ (slicePitch ≠ 0 ∧ slicePitch % rowPitch ≠ 0)

instance (width height rowPitch slicePitch : Nat) :
    Decidable (pitchesValid width height rowPitch slicePitch) :=
  inferInstanceAs (Decidable (_ ∧ _ ∧ _))

/-- `urEnqueueMemBufferReadRect`. Only HIP looks at the pitches. -/
def urEnqueueMemBufferReadRect (a : Adapter) (w : World) (q h : Nat) (r : Rect)
    (hostRowPitch hostSlicePitch : Nat) (blocking : Bool) : World :=
  if a = .hip ∧ ¬ (r.width ≠ 0 ∧ r.height ≠ 0 ∧
      pitchesValid r.width r.height r.rowPitch r.slicePitch ∧
      pitchesValid r.width r.height hostRowPitch hostSlicePitch) then w
  else w.enqueueRead q h (r.offsets a) blocking

/-- What the copying entry points do: both buffers as the queue's device has them. -/
def enqueueCopy (w : World) (q src dst : Nat) (srcOffsets dstOffsets : List Nat) : World :=
  let d := w.device q
  (w.peek src d srcOffsets).poke dst d (cells dstOffsets fun k =>
    w.byteAt src d (srcOffsets.getD k 0))

/-- `urEnqueueMemBufferCopy`. -/
def urEnqueueMemBufferCopy (w : World) (q src dst srcOffset dstOffset size : Nat) : World :=
  if ¬ wrap (size + dstOffset) ≤ (w.mems dst).size ∨
      ¬ wrap (size + srcOffset) ≤ (w.mems src).size then w
  else w.enqueueCopy q src dst (rangeOffsets srcOffset size) (rangeOffsets dstOffset size)

/-- `urEnqueueMemBufferCopyRect`; the rectangles have the same region. -/
def urEnqueueMemBufferCopyRect (a : Adapter) (w : World) (q src dst : Nat) (r : Rect)
    (x y z rowPitch slicePitch : Nat) : World :=
  w.enqueueCopy q src dst (r.offsets a)
    ({ r with x, y, z, rowPitch, slicePitch }.offsets a)

end World

/-! ## Kernels -/

/-- The access a kernel argument is set with; without properties none is given. -/
inductive Access
  | unspecified
  | readWrite
  | writeOnly
  | readOnly
deriving DecidableEq

/-- A memory argument, and what the kernel does through it. -/
structure Arg where
  mem : Nat
  access : Access
  reads : List Nat
  writes : List (Nat × Byte)

/-- `urKernelSetArgMemObj`: do the flags it stores include writing? Without
properties CUDA takes `UR_MEM_FLAG_READ_WRITE`, HIP takes 0. -/
def Access.writes : Adapter → Access → Bool
  | .cuda, .unspecified => true
  | .hip, .unspecified => false
  | _, .readWrite => true
  | _, .writeOnly => true
  | _, .readOnly => false

namespace World

/-- One round of the loop over `MemObjArgs`. -/
def prepareArg (a : Adapter) (w : World) (q : Nat) (arg : Arg) : World :=
  let w' := w.enqueueMigrateMemoryToDeviceIfNeeded arg.mem (w.device q)
  if arg.access.writes a then setLastQueueWritingToMemObj a w' arg.mem q else w'

/-- The loop, for contexts with several devices. -/
def prepareArgs (a : Adapter) (w : World) (q : Nat) (args : List Arg) : World :=
  if 1 < w.context.devices then args.foldl (fun w arg => w.prepareArg a q arg) w else w

/-- What the kernel reads, and then what it writes. -/
def runKernel (w : World) (d : Nat) (args : List Arg) : World :=
  args.foldl (fun w arg => w.poke arg.mem d arg.writes)
    (args.foldl (fun w arg => w.peek arg.mem d arg.reads) w)

/-- `urEnqueueKernelLaunch`. -/
def urEnqueueKernelLaunch (a : Adapter) (w : World) (q : Nat) (args : List Arg) : World :=
  (w.prepareArgs a q args).runKernel (w.device q) args

/-- `urQueueFinish`: the reads that run on the queue are over. -/
def urQueueFinish (w : World) (q : Nat) : World :=
  let left := w.pending.filter fun p => decide (p.2 ≠ q)
  { w with
    pending := left
    missed := left.filter (fun p => decide (p.1 = q)) ++ w.missed }

/-- The program changes the memory it created a buffer from. -/
def writeHost (w : World) (r : Nat) (contents : Contents) : World :=
  { w with host := update w.host r contents }

end World

end UnifiedRuntime.Buffers
