import UnifiedRuntime.Lib.Overlay

/-!
# `MemBuffer` of the address sanitizer

The sanitizer layer serves a buffer by USM allocations, one a device, made when
the device first asks for the buffer. `getHandle` migrates the contents from
the device that was served last, through an allocation on the host. Every
driver call can fail, and each failure leaves its own intermediate state.

A `char *` is a block and an offset into it; the null pointer is `none`. A copy
that fails leaves any contents in its destination.
-/

namespace UnifiedRuntime.Sanitizer

abbrev Device := Nat
abbrev Byte := UInt8
abbrev Block := Nat
abbrev Contents := Nat → Byte

/-- `std::unordered_map<ur_device_handle_t, char *>`; the null device is the
host. -/
abbrev Allocations := AList fun _ : Option Device => Option Block

/-- The devices of a context. `getHandle` asserts that there is one. -/
structure BufferContext where
  devices : List Device
  nonempty : devices ≠ []

/-- How a blocking `urEnqueueUSMMemcpy` goes. -/
inductive Copied where
  | success
  | failure (left : Contents)

/-- How the driver calls of one `getHandle` go. An allocation that succeeds
comes with what happens to be in it. -/
structure BufferDriver where
  allocate : Option Contents
  copyHostPtr : Copied
  allocateHost : Option Contents
  copyToHost : Copied
  copyToDevice : Copied

/-- A buffer that owns its allocations. `live` are the blocks that
`allocateMemory` returned for it and that were not released. -/
structure MemBuffer where
  context : BufferContext
  size : Nat
  hostPtr : Option Contents
  allocations : Allocations
  lastSyncedDevice : Option (Device × Block)
  refCount : Nat
  memory : Block → Contents
  next : Block
  live : List Block

namespace MemBuffer

/-- The bytes of the buffer. -/
def cells (s : MemBuffer) : Set Nat := {i | i < s.size}

/-- What a new buffer holds. -/
def initial (s : MemBuffer) : Nat → Option Byte :=
  match s.hostPtr with
  | none => fun _ => none
  | some host => fun i => some (host i)

/-- `urMemBufferCreate` before it copies anything: a buffer without
allocations. -/
def new (context : BufferContext) (size : Nat) (hostPtr : Option Contents)
    (memory : Block → Contents) : MemBuffer where
  context := context
  size := size
  hostPtr := hostPtr
  allocations := ∅
  lastSyncedDevice := none
  refCount := 1
  memory := memory
  next := 0
  live := []

/-- The pointer of an entry, null also where there is no entry. -/
def allocation (s : MemBuffer) (key : Option Device) : Option Block :=
  (s.allocations.lookup key).join

/-- `Allocations[key]`: an entry that is missing is made, with a null
pointer. -/
def touch (s : MemBuffer) (key : Option Device) : MemBuffer :=
  if key ∈ s.allocations then s
  else { s with allocations := s.allocations.insert key none }

/-- `allocateMemory` into the entry of `key`, which it leaves alone when it
fails. -/
def allocateMemory (s : MemBuffer) (key : Option Device) :
    Option Contents → MemBuffer × Option Block
  | none => (s, none)
  | some found =>
    ({ s with
        allocations := s.allocations.insert key (some s.next)
        memory := Function.update s.memory s.next found
        next := s.next + 1
        live := s.next :: s.live }, some s.next)

/-- `size` bytes of a source over a block. -/
def copied (size : Nat) (src dst : Contents) : Contents :=
  fun i => if i < size then src i else dst i

/-- `urEnqueueUSMMemcpy` of the whole buffer; whether it succeeded. -/
def enqueueUSMMemcpy (s : MemBuffer) (dst : Block) (src : Contents) :
    Copied → MemBuffer × Bool
  | .success =>
    ({ s with memory := Function.update s.memory dst (copied s.size src (s.memory dst)) }, true)
  | .failure left => ({ s with memory := Function.update s.memory dst left }, false)

/-- The device of a call, the first one of the context for the null device. -/
def target (s : MemBuffer) (device : Option Device) : Device :=
  device.getD (s.context.devices.head s.context.nonempty)

/-- The first part of `getHandle`: memory of the device, made and filled from
the host pointer when there is none. -/
def deviceAllocation (s : MemBuffer) (drv : BufferDriver) (device : Device) :
    MemBuffer × Option Block :=
  match s.allocation (some device) with
  | some block => (s, some block)
  | none =>
    match s.allocateMemory (some device) drv.allocate with
    | (s₁, none) => (s₁, none)
    | (s₁, some block) =>
      match s₁.hostPtr with
      | none => (s₁, some block)
      | some host =>
        match s₁.enqueueUSMMemcpy block host drv.copyHostPtr with
        | (s₂, true) => (s₂, some block)
        | (s₂, false) => (s₂, none)

/-- The memory on the host that migrations go through. -/
def hostAllocation (s : MemBuffer) (drv : BufferDriver) : MemBuffer × Option Block :=
  match s.allocation none with
  | some block => (s, some block)
  | none => s.allocateMemory none drv.allocateHost

/-- The second part: the contents of the last synced device through the host
to the device asked for; whether it succeeded. -/
def migrate (s : MemBuffer) (drv : BufferDriver) (last handle : Block) : MemBuffer × Bool :=
  match (s.touch none).hostAllocation drv with
  | (s₁, none) => (s₁, false)
  | (s₁, some host) =>
    match s₁.enqueueUSMMemcpy host (s₁.memory last) drv.copyToHost with
    | (s₂, false) => (s₂, false)
    | (s₂, true) => s₂.enqueueUSMMemcpy handle (s₂.memory host) drv.copyToDevice

/-- `LastSyncedDevice = {Device, Handle}` and the handle returned. -/
def sync (s : MemBuffer) (device : Device) (handle : Block) : MemBuffer × Option Block :=
  ({ s with lastSyncedDevice := some (device, handle) }, some handle)

/-- `sync`, unless what comes before it failed. -/
def syncIf (device : Device) (handle : Block) : MemBuffer × Bool → MemBuffer × Option Block
  | (s, false) => (s, none)
  | (s, true) => s.sync device handle

/-- The rest of `getHandle` once the device has memory: data is migrated unless
the device is the one that was synced last. -/
def syncHandle (s : MemBuffer) (drv : BufferDriver) (device : Device) (handle : Block) :
    MemBuffer × Option Block :=
  match s.lastSyncedDevice with
  | none => s.sync device handle
  | some (last, memHandle) =>
    if device = last then s.sync device handle
    else syncIf device handle (s.migrate drv memHandle handle)

/-- `MemBuffer::getHandle` of a buffer that is not a sub-buffer. -/
def getHandle (s : MemBuffer) (drv : BufferDriver) (device : Option Device) :
    MemBuffer × Option Block :=
  match (s.touch (some (s.target device))).deviceAllocation drv (s.target device) with
  | (s₁, none) => (s₁, none)
  | (s₁, some handle) => s₁.syncHandle drv (s.target device) handle

/-- The pointers of `Allocations`, in some order. -/
def pointers (s : MemBuffer) : List (Option Block) :=
  s.allocations.entries.map (·.2)

/-- The pointers that `free` passes to `releaseMemory`: it stops at the first
one that cannot be released. -/
def passed (releases : Option Block → Bool) : List (Option Block) → List (Option Block)
  | [] => []
  | ptr :: rest => if releases ptr then ptr :: passed releases rest else [ptr]

/-- `MemBuffer::free`. -/
def free (s : MemBuffer) (releases : Option Block → Bool) : MemBuffer :=
  let gone := passed releases s.pointers
  let live := s.live.filter fun b => some b ∉ gone
  if s.pointers.all releases then { s with allocations := ∅, live := live }
  else { s with live := live }

end MemBuffer

/-- A `char *` that is not null. -/
structure Ptr where
  block : Block
  offset : Nat

/-- A `ur_mem_handle_t`: the buffer, or a sub-buffer of it. A sub-buffer has no
allocations of its own. -/
inductive MemHandle where
  | buffer (size : Nat)
  | subBuffer (parent : MemHandle) (origin size : Nat)
  deriving DecidableEq

namespace MemHandle

def size : MemHandle → Nat
  | buffer size => size
  | subBuffer _ _ size => size

/-- Where a sub-buffer begins in the buffer. -/
def start : MemHandle → Nat
  | buffer _ => 0
  | subBuffer parent origin _ => parent.start + origin

/-- `MemBuffer::getHandle`. -/
def getHandle (drv : BufferDriver) (device : Option Device) (s : MemBuffer) :
    MemHandle → MemBuffer × Option Ptr
  | buffer _ =>
    match s.getHandle drv device with
    | (s₁, none) => (s₁, none)
    | (s₁, some block) => (s₁, some ⟨block, 0⟩)
  | subBuffer parent origin _ =>
    match parent.getHandle drv device s with
    | (s₁, none) => (s₁, none)
    | (s₁, some ptr) => (s₁, some ⟨ptr.block, ptr.offset + origin⟩)

/-- `urMemBufferPartition`. The sum is a `size_t`. -/
def urMemBufferPartition (parent : MemHandle) (origin size : Nat) : Option MemHandle :=
  if parent.size < (origin + size) % 2 ^ 64 then none
  else some (subBuffer parent origin size)

end MemHandle

end UnifiedRuntime.Sanitizer
