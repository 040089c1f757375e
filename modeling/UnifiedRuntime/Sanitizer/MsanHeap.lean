import UnifiedRuntime.Lib.Extents
import UnifiedRuntime.Sanitizer.Asan

/-!
# `m_AllocationMap` and the buffers of the memory sanitizer

`allocateMemory` records device memory in a map by its address and poisons its
shadow; `releaseMemory` takes the entry that the address lies in out of the map
and frees. A buffer has one allocation a device, made when the device first asks
for it, and migrates its data through an allocation on the host.

`live` is the driver's side. Of the bytes of a block the model keeps whether they
hold a value and whether the shadow says so; a copy that fails leaves no value.
-/

namespace UnifiedRuntime.Sanitizer

structure MsanAllocInfo where
  allocBegin : Nat
  allocSize : Nat
  context : ContextId
  device : Device
  deriving DecidableEq

/-- Memory of the driver. Host and shared memory has no owner here. -/
structure DriverBlock where
  begin : Nat
  size : Nat
  owner : Option (ContextId × Device)
  deriving DecidableEq

def MsanAllocInfo.block (ai : MsanAllocInfo) : DriverBlock where
  begin := ai.allocBegin
  size := ai.allocSize
  owner := some (ai.context, ai.device)

/-- An allocation that succeeds; the result of poisoning it is not looked at. -/
structure AllocAnswer where
  begin : Nat
  poisons : Bool

structure MsanHeap where
  allocationMap : List MsanAllocInfo
  live : List DriverBlock
  /-- What the shadow says of the bytes of a block. -/
  initialised : Block → Nat → Bool
  /-- The bytes of a block that hold a value. -/
  written : Block → Nat → Bool

namespace MsanHeap

/-! ## The driver -/

def driverAlloc (s : MsanHeap) (b : DriverBlock) : MsanHeap :=
  { s with live := b :: s.live, written := Function.update s.written b.begin fun _ => false }

def driverFree (s : MsanHeap) (frees : DriverBlock → Bool) : MsanHeap :=
  { s with live := s.live.filter fun b => !frees b }

/-- `urEnqueueUSMMemcpy` of `size` bytes to the begin of a block. -/
def enqueueUSMMemcpy (s : MsanHeap) (dst : Block) (src : Nat → Bool) (size : Nat) (ok : Bool) :
    MsanHeap :=
  let bytes := fun i => if i < size then ok && src i else s.written dst i
  { s with written := Function.update s.written dst bytes }

/-- The shadow of `size` bytes from the begin of a block on, poisoned or not. -/
def enqueuePoisonShadow (s : MsanHeap) (block : Block) (size : Nat) (value ok : Bool) :
    MsanHeap :=
  let bytes := fun i => if ok && decide (i < size) then value else s.initialised block i
  { s with initialised := Function.update s.initialised block bytes }

/-! ## The interceptor -/

/-- `m_AllocationMap.emplace`, which keeps an entry that has the key already. -/
def emplace (s : MsanHeap) (ai : MsanAllocInfo) : MsanHeap :=
  if s.allocationMap.any fun x => x.allocBegin == ai.allocBegin then s
  else { s with allocationMap := ai :: s.allocationMap }

def allocateMemory (s : MsanHeap) (context : ContextId) (device : Option Device)
    (type : AllocType) (size : Nat) : Option AllocAnswer → MsanHeap × Option Block
  | none => (s, none)
  | some a =>
    match type, device with
    | .deviceUsm, some d =>
      let s := s.driverAlloc ⟨a.begin, size, some (context, d)⟩
      let s := s.emplace ⟨a.begin, size, context, d⟩
      (s.enqueuePoisonShadow a.begin size false a.poisons, some a.begin)
    | _, _ => (s.driverAlloc ⟨a.begin, size, none⟩, some a.begin)

def findAllocInfoByAddress (s : MsanHeap) (address : Nat) : Option MsanAllocInfo :=
  Extents.locate MsanAllocInfo.allocBegin (fun ai => add64 ai.allocBegin ai.allocSize)
    s.allocationMap address

/-- `m_AllocationMap.erase` of an iterator. -/
def erase (s : MsanHeap) (ai : MsanAllocInfo) : MsanHeap :=
  { s with allocationMap := s.allocationMap.filter fun x => x.allocBegin != ai.allocBegin }

/-- `releaseMemory`. The driver's answer is the block it frees, or `none`. -/
def releaseMemory (s : MsanHeap) (ptr : Nat) (freed : Option DriverBlock) : MsanHeap :=
  let s' := match s.findAllocInfoByAddress ptr with
    | some ai => s.erase ai
    | none => s
  s'.driverFree fun b => freed == some b

end MsanHeap

/-! ## Buffers -/

structure MsanBuffer where
  contextId : ContextId
  context : BufferContext
  size : Nat
  hostPtr : Bool
  allocations : Allocations
  lastSyncedDevice : Option (Device × Block)
  refCount : Int

/-- How the driver calls of one `getHandle` go. -/
structure HandleAnswer where
  allocate : Option AllocAnswer
  copyHostPtr : Bool
  unpoison : Bool
  allocateHost : Option Block
  copyToHost : Bool
  copyToDevice : Bool

namespace MsanBuffer

def new (contextId : ContextId) (context : BufferContext) (size : Nat) (hostPtr : Bool) :
    MsanBuffer where
  contextId := contextId
  context := context
  size := size
  hostPtr := hostPtr
  allocations := ∅
  lastSyncedDevice := none
  refCount := 1

/-- The pointer of an entry, null also where there is no entry. -/
def allocation (b : MsanBuffer) (key : Option Device) : Option Block :=
  (b.allocations.lookup key).join

/-- `Allocations[key]`. -/
def touch (b : MsanBuffer) (key : Option Device) : MsanBuffer :=
  if key ∈ b.allocations then b
  else { b with allocations := b.allocations.insert key none }

def setAllocation (b : MsanBuffer) (key : Option Device) (block : Block) : MsanBuffer :=
  { b with allocations := b.allocations.insert key (some block) }

/-- The device of a call, the first one of the context for the null device. -/
def target (b : MsanBuffer) (device : Option Device) : Device :=
  device.getD (b.context.devices.head b.context.nonempty)

end MsanBuffer

/-- What a call on a buffer works on. -/
structure MsanCall where
  heap : MsanHeap
  buffer : MsanBuffer

namespace MsanCall

/-- The first part of `getHandle`: memory of the device, made and filled from the
host pointer when there is none. -/
def deviceAllocation (c : MsanCall) (a : HandleAnswer) (device : Device) :
    MsanCall × Option Block :=
  match c.buffer.allocation (some device) with
  | some block => (c, some block)
  | none =>
    let b := c.buffer.touch (some device)
    match c.heap.allocateMemory b.contextId (some device) .deviceUsm b.size a.allocate with
    | (s, none) => (⟨s, b⟩, none)
    | (s, some block) =>
      let b := b.setAllocation (some device) block
      if !b.hostPtr then (⟨s, b⟩, some block)
      else
        let s := s.enqueueUSMMemcpy block (fun _ => true) b.size a.copyHostPtr
        if !a.copyHostPtr then (⟨s, b⟩, none)
        else
          let s := s.enqueuePoisonShadow block b.size true a.unpoison
          (⟨s, b⟩, if a.unpoison then some block else none)

/-- The memory on the host that migrations go through. -/
def hostAllocation (c : MsanCall) (a : HandleAnswer) : MsanCall × Option Block :=
  match c.buffer.allocation none with
  | some block => (c, some block)
  | none =>
    match a.allocateHost with
    | none => (⟨c.heap, c.buffer.touch none⟩, none)
    | some block =>
      let s := c.heap.driverAlloc ⟨block, c.buffer.size, none⟩
      (⟨s, c.buffer.setAllocation none block⟩, some block)

/-- The second part: the data of the last synced device through the host to the
device asked for; whether it succeeded. -/
def migrate (c : MsanCall) (a : HandleAnswer) (last handle : Block) : MsanCall × Bool :=
  match c.hostAllocation a with
  | (c, none) => (c, false)
  | (c, some host) =>
    let s := c.heap.enqueueUSMMemcpy host (c.heap.written last) c.buffer.size a.copyToHost
    if !a.copyToHost then (⟨s, c.buffer⟩, false)
    else
      (⟨s.enqueueUSMMemcpy handle (s.written host) c.buffer.size a.copyToDevice, c.buffer⟩,
        a.copyToDevice)

/-- `LastSyncedDevice = {Device, Handle}` and the handle returned. -/
def sync (c : MsanCall) (device : Device) (handle : Block) : MsanCall × Option Block :=
  (⟨c.heap, { c.buffer with lastSyncedDevice := some (device, handle) }⟩, some handle)

/-- The rest of `getHandle` once the device has memory. -/
def syncHandle (c : MsanCall) (a : HandleAnswer) (device : Device) (handle : Block) :
    MsanCall × Option Block :=
  match c.buffer.lastSyncedDevice with
  | none => c.sync device handle
  | some (last, memHandle) =>
    if device = last then c.sync device handle
    else
      let r := c.migrate a memHandle handle
      if r.2 then r.1.sync device handle else (r.1, none)

/-- `MemBuffer::getHandle` of a buffer that is not a sub-buffer; that of a sub-buffer is its
parent's. -/
def getHandle (c : MsanCall) (a : HandleAnswer) (device : Option Device) :
    MsanCall × Option Block :=
  match c.deviceAllocation a (c.buffer.target device) with
  | (c', none) => (c', none)
  | (c', some handle) => c'.syncHandle a (c.buffer.target device) handle

/-- The loop over `Allocations` in `MemBuffer::free`. Whether the free of a pointer succeeds
is the driver's answer. -/
def freeLoop (ok : Option Block → Bool) : MsanHeap → List (Option Block) → MsanHeap × Bool
  | s, [] => (s, true)
  | s, ptr :: ptrs =>
    if ok ptr then freeLoop ok (s.driverFree fun b => ptr == some b.begin) ptrs else (s, false)

/-- `MemBuffer::free`, with the pointers in the order of the iteration. -/
def free (c : MsanCall) (ptrs : List (Option Block)) (ok : Option Block → Bool) :
    MsanCall × Bool :=
  let r := freeLoop ok c.heap ptrs
  if r.2 then (⟨r.1, { c.buffer with allocations := ∅ }⟩, true) else (⟨r.1, c.buffer⟩, false)

end MsanCall

/-- One round of the loop in `urMemBufferCreate` that copies the host's data to a device. -/
structure CopyAnswer where
  device : Device
  handle : HandleAnswer
  copies : Bool
  unpoisons : Bool

/-- The loop; an error ends the call. -/
def MsanCall.copyLoop : MsanCall → List CopyAnswer → MsanCall × Bool
  | c, [] => (c, true)
  | c, a :: as =>
    match c.getHandle a.handle (some a.device) with
    | (c, none) => (c, false)
    | (c, some block) =>
      let s := c.heap.enqueueUSMMemcpy block (fun _ => true) c.buffer.size a.copies
      if !a.copies then (⟨s, c.buffer⟩, false)
      else
        let s := s.enqueuePoisonShadow block c.buffer.size true a.unpoisons
        if !a.unpoisons then (⟨s, c.buffer⟩, false) else copyLoop ⟨s, c.buffer⟩ as

end UnifiedRuntime.Sanitizer
