import UnifiedRuntime.Lib.Overlay

/-!
# Buffers of the Level Zero adapter

`_ur_buffer` keeps one allocation a device, plus one for the host, and moves the
contents between them as commands ask for the buffer on one device or another.
`getBufferZeHandle` is where that happens: it picks the device, allocates,
decides whether the allocation has to be filled from the last valid one, copies
peer to peer or through the host, and marks the other allocations invalid when
the access announced is not read-only.

This file is that function, the two constructors that put data into a buffer,
and the commands that call it. A memory allocation is a number (`ZeHandle`) and
`memory` is what each one holds; a pointer is an allocation and an offset. The
driver's answers (does this call succeed, can these devices reach each other)
are parameters of every command.

Commands take effect in the order they are enqueued: wait lists order the work
of the queues and do not change which allocation a command works on.
-/

namespace UnifiedRuntime.LevelZero

abbrev Device := Nat
abbrev ZeHandle := Nat
abbrev Byte := UInt8
abbrev Ptr := ZeHandle × Nat

/-- `access_mode_t`. -/
inductive AccessMode where
  | unknown
  | readWrite
  | readOnly
  | writeOnly
  deriving DecidableEq

/-- What `free` does with an allocation. -/
inductive ReleaseAction where
  | keep
  | unimport
  | free
  | freeNative
  deriving DecidableEq

/-- `allocation_t`; the default is the entry `operator[]` creates. -/
structure Allocation where
  zeHandle : Option ZeHandle := none
  valid : Bool := false
  releaseAction : ReleaseAction := .free

/-- What the buffer code reads of a context and of the environment. -/
structure Context where
  devices : List Device
  devices_ne : devices ≠ []
  /-- `ZE_DEVICE_PROPERTY_FLAG_INTEGRATED`. -/
  integrated : Device → Bool
  singleRootDevice : Option Device
  /-- `UR_L0_SINGLE_ROOT_DEVICE_BUFFER_MIGRATION`, on by default. -/
  singleRootDeviceBufferMigration : Bool
  /-- `DisjointPoolConfigInstance.EnableBuffers`. -/
  enableBuffers : Bool

/-- `Devices[0]`. -/
def Context.firstDevice (ctx : Context) : Device := ctx.devices.head ctx.devices_ne

/-- One integrated device: the buffer stays in host memory. -/
def Context.onHost (ctx : Context) : Bool :=
  ctx.devices.length == 1 && ctx.integrated ctx.firstDevice

/-- The device whose allocation serves `device`, when that is another one. -/
def Context.sharedRoot (ctx : Context) (device : Device) : Option Device :=
  if ctx.singleRootDeviceBufferMigration then none
  else ctx.singleRootDevice.filter (· != device)

/-- The driver calls of `getBufferZeHandle` and the map command. -/
inductive DriverCall where
  | memAllocDevice
  | memAllocHost
  | memAllocMap
  | waitOnEvents
  | canAccessPeer
  | copyToHost
  | copyToDevice

/-- How the driver answers the calls of one command. -/
structure Driver where
  succeeds : DriverCall → Bool
  canAccessPeer : Device → Device → Bool

/-- Ways a call does not return a handle. -/
inductive Fault where
  /-- `die`. -/
  | die
  /-- A result other than `UR_RESULT_SUCCESS`. -/
  | urResult
  /-- The calls of `getZeHandle` to itself do not end. -/
  | recursion

/-- `_ur_buffer::Mapping` with its key. -/
structure Mapping where
  ptr : Ptr
  offset : Nat
  size : Nat

/-- A sub-buffer: a window on the buffer that remembers the handles it gave out. -/
structure SubBuffer where
  origin : Nat
  allocations : Device → Option Ptr
  last : Option Device
  mappings : List Mapping

/-- Still store the allocation info in the sub-buffer, for `getZeHandlePtr`. -/
def SubBuffer.record (b : SubBuffer) (device : Device) (ptr : Ptr) : SubBuffer :=
  { b with allocations := Function.update b.allocations device (some ptr), last := some device }

/-- A buffer, its sub-buffers and the memory its allocations live in. -/
structure BufferState where
  size : Nat
  /-- `Allocations`; `none` is the host. -/
  allocations : Option Device → Allocation
  /-- `LastDeviceWithValidAllocation`. -/
  last : Option Device
  onHost : Bool
  isFreed : Bool
  mapHostPtr : Option ZeHandle
  mappings : List Mapping
  subs : Nat → SubBuffer
  memory : ZeHandle → Nat → Byte
  /-- The next allocation the driver hands out. -/
  nextHandle : ZeHandle

namespace BufferState

def setAllocation (s : BufferState) (k : Option Device) (a : Allocation) : BufferState :=
  { s with allocations := Function.update s.allocations k a }

/-- Bytes stored to an allocation. -/
def store (s : BufferState) (h : ZeHandle) (writes : Nat → Option Byte) : BufferState :=
  { s with memory := Function.update s.memory h (overlay writes (s.memory h)) }

/-- `zeCommandListAppendMemoryCopy` of the whole buffer. -/
def copyAll (s : BufferState) (dst src : ZeHandle) : BufferState :=
  s.store dst fun i => if i < s.size then some (s.memory src i) else none

/-- `Allocation.Valid = true; LastDeviceWithValidAllocation = Device`. -/
def markValid (s : BufferState) (device : Device) : BufferState :=
  { s.setAllocation (some device) { s.allocations (some device) with valid := true } with
    last := some device }

/-- The loop at the end of `getBufferZeHandle`: only the allocation of
`LastDeviceWithValidAllocation` stays valid. -/
def invalidateOthers (s : BufferState) : BufferState :=
  { s with allocations := fun k =>
      if k ≠ s.last then { s.allocations k with valid := false } else s.allocations k }

/-- A fresh allocation for key `k`, recorded with how to release it. -/
def allocate (s : BufferState) (k : Option Device) (valid : Bool) (action : ReleaseAction) :
    BufferState :=
  { s.setAllocation k ⟨some s.nextHandle, valid, action⟩ with nextHandle := s.nextHandle + 1 }

/-- The entry of a failed allocation: only the release action was written. -/
def setReleaseAction (s : BufferState) (k : Option Device) (action : ReleaseAction) :
    BufferState :=
  s.setAllocation k { s.allocations k with releaseAction := action }

end BufferState

def Context.releaseAction (ctx : Context) : ReleaseAction :=
  if ctx.enableBuffers then .free else .freeNative

/-! ## `getBufferZeHandle` -/

/-- The host allocation for copies; it may already exist, for example with an
imported host pointer. -/
def hostAllocation (ctx : Context) (drv : Driver) (s : BufferState) :
    BufferState × Except Fault ZeHandle :=
  match (s.allocations none).zeHandle with
  | some host => (s, .ok host)
  | none =>
    if drv.succeeds .memAllocHost = false then
      (s.setReleaseAction none ctx.releaseAction, .error .urResult)
    else (s.allocate none false ctx.releaseAction, .ok s.nextHandle)

/-- Fill the host allocation unless its data is still valid. -/
def fillHost (drv : Driver) (s : BufferState) (src host : ZeHandle) :
    BufferState × Except Fault Unit :=
  if (s.allocations none).valid = true then (s, .ok ())
  else if drv.succeeds .copyToHost = false then (s, .error .urResult)
  else ((s.copyAll host src).setAllocation none { s.allocations none with valid := true }, .ok ())

/-- Peer to peer copy is not possible, so copy through the host. -/
def copyThroughHost (ctx : Context) (drv : Driver) (s : BufferState) (src dst : ZeHandle) :
    BufferState × Except Fault Unit :=
  match hostAllocation ctx drv s with
  | (s, .error e) => (s, .error e)
  | (s, .ok host) =>
    match fillHost drv s src host with
    | (s, .error e) => (s, .error e)
    | (s, .ok ()) =>
      if drv.succeeds .copyToDevice = false then (s, .error .urResult)
      else (s.copyAll dst host, .ok ())

/-- Copy the valid data to the allocation `dst` of `device`. -/
def copyValidData (ctx : Context) (drv : Driver) (s : BufferState) (device : Device)
    (src dst : ZeHandle) : BufferState × Except Fault Unit :=
  if drv.succeeds .waitOnEvents = false then (s, .error .urResult)
  else if drv.succeeds .canAccessPeer = false then (s, .error .urResult)
  else if s.last.any (drv.canAccessPeer device) then
    if drv.succeeds .copyToDevice = false then (s, .error .urResult)
    else (s.copyAll dst src, .ok ())
  else copyThroughHost ctx drv s src dst

/-- The calls `getZeHandle` makes to itself. -/
abbrev GetZeHandle := BufferState → AccessMode → Option Device → BufferState × Except Fault ZeHandle

/-- If some prior access invalidated this allocation then make it valid again. -/
def makeValid (ctx : Context) (drv : Driver) (getZeHandle : GetZeHandle) (s : BufferState)
    (mode : AccessMode) (device : Device) (h : ZeHandle) : BufferState × Except Fault Unit :=
  if (s.allocations (some device)).valid = true then (s, .ok ())
  else if s.last = some device then (s, .error .die)
  else if mode = .writeOnly ∨ s.last = none then (s.markValid device, .ok ())
  else
    match getZeHandle s .readOnly s.last with
    | (s, .error e) => (s, .error e)
    | (s, .ok src) =>
      if src = h then (s.markValid device, .ok ())
      else match copyValidData ctx drv s device src h with
        | (s, .error e) => (s, .error e)
        | (s, .ok ()) => (s.markValid device, .ok ())

/-- The tail of the function, once the device has an allocation. -/
def accessAllocation (ctx : Context) (drv : Driver) (getZeHandle : GetZeHandle) (s : BufferState)
    (mode : AccessMode) (device : Device) (h : ZeHandle) : BufferState × Except Fault ZeHandle :=
  match makeValid ctx drv getZeHandle s mode device h with
  | (s, .error e) => (s, .error e)
  | (s, .ok ()) => (if mode ≠ .readOnly then s.invalidateOthers else s, .ok h)

/-- A buffer represented by a single host allocation. -/
def getHostHandle (ctx : Context) (drv : Driver) (s : BufferState) (device : Device) :
    BufferState × Except Fault ZeHandle :=
  let share (s : BufferState) (h : ZeHandle) : BufferState × Except Fault ZeHandle :=
    ({ s.setAllocation (some device) { s.allocations none with releaseAction := .keep } with
        last := some device }, .ok h)
  match (s.allocations none).zeHandle with
  | some h => share s h
  | none =>
    if drv.succeeds .memAllocHost = false then
      (s.setReleaseAction none ctx.releaseAction, .error .urResult)
    else share (s.allocate none true ctx.releaseAction) s.nextHandle

/-- The device an access is for. -/
def selectDevice (ctx : Context) (last device : Option Device) : Device :=
  (device.or last).getD ctx.firstDevice

/-- One call of `getBufferZeHandle` on the buffer, over the calls it makes to itself. -/
def getZeHandleBody (ctx : Context) (drv : Driver) (getZeHandle : GetZeHandle) (s : BufferState)
    (mode : AccessMode) (device? : Option Device) : BufferState × Except Fault ZeHandle :=
  let device := selectDevice ctx s.last device?
  if s.isFreed then (s, .error .die)
  else if s.onHost then getHostHandle ctx drv s device
  else match (s.allocations (some device)).zeHandle with
    | some h => accessAllocation ctx drv getZeHandle s mode device h
    | none =>
      match ctx.sharedRoot device with
      | some root =>
        -- all devices have one root: its allocation serves them all
        match getZeHandle s mode (some root) with
        | (s, .error e) => (s, .error e)
        | (s, .ok h) => (s.setAllocation (some device) ⟨some h, true, .keep⟩, .ok h)
      | none =>
        if drv.succeeds .memAllocDevice = false then
          (s.setReleaseAction (some device) ctx.releaseAction, .error .urResult)
        else
          accessAllocation ctx drv getZeHandle
            (s.allocate (some device) (s.allocations (some device)).valid ctx.releaseAction)
            mode device s.nextHandle

def getZeHandleDepth (ctx : Context) (drv : Driver) : Nat → GetZeHandle
  | 0, s, _, _ => (s, .error .recursion)
  | n + 1, s, mode, device => getZeHandleBody ctx drv (getZeHandleDepth ctx drv n) s mode device

/-- `getBufferZeHandle` on the buffer. It goes at most to the shared root and
from there to the source of a copy, so three calls deep. -/
def getZeHandle (ctx : Context) (drv : Driver) : GetZeHandle := getZeHandleDepth ctx drv 3

/-- `getBufferZeHandle` on the buffer (`none`) or on one of its sub-buffers. -/
def getBufferZeHandle (ctx : Context) (drv : Driver) (s : BufferState) (sub : Option Nat)
    (mode : AccessMode) (device? : Option Device) : BufferState × Except Fault Ptr :=
  match sub with
  | none =>
    match getZeHandle ctx drv s mode device? with
    | (s, .error e) => (s, .error e)
    | (s, .ok h) => (s, .ok (h, 0))
  | some i =>
    let device := selectDevice ctx (s.subs i).last device?
    match getZeHandle ctx drv s mode (some device) with
    | (s, .error e) => (s, .error e)
    | (s, .ok h) =>
      let ptr := (h, (s.subs i).origin)
      ({ s with subs := Function.update s.subs i ((s.subs i).record device ptr) }, .ok ptr)

/-! ## Creating a buffer -/

/-- The contents a buffer is created with. -/
inductive Creation where
  /-- `urMemBufferCreate` without host data. -/
  | empty (size : Nat)
  /-- `urMemBufferCreate` with host data that is used in place (`useHostPtr`, and
  perhaps imported to USM) or copied. -/
  | hostData (size : Nat) (data : Nat → Byte) (useHostPtr imported : Bool)
  /-- `urMemBufferCreateWithNativeHandle` of device memory. -/
  | nativeDevice (size : Nat) (data : Nat → Byte) (device : Device) (own : Bool)
  /-- `urMemBufferCreateWithNativeHandle` of host or shared memory. -/
  | nativeHost (size : Nat) (data : Nat → Byte) (own : Bool)

/-- A buffer object before any constructor body has run. Handle `0` is the memory
the caller brings. -/
def BufferState.raw (size : Nat) (data : Nat → Byte) (onHost : Bool)
    (subs : Nat → SubBuffer) (memory : ZeHandle → Nat → Byte) : BufferState where
  size := size
  allocations := fun _ => {}
  last := none
  onHost := onHost
  isFreed := false
  mapHostPtr := none
  mappings := []
  subs := subs
  memory := Function.update memory 0 data
  nextHandle := 1

/-- Fill the first device's allocation with the caller's data. -/
def copyInitialData (ctx : Context) (drv : Driver) (s : BufferState) (device? : Option Device) :
    BufferState × Except Fault Unit :=
  match getZeHandle ctx drv s .writeOnly device? with
  | (s, .error e) => (s, .error e)
  | (s, .ok h) => (s.copyAll h 0, .ok ())

/-- The constructors and creation functions. `subs` are the windows of the
sub-buffers that will be made (making one touches nothing of its parent) and
`memory` is what the driver's memory holds before anyone writes it. -/
def create (ctx : Context) (drv : Driver) (subs : Nat → SubBuffer)
    (memory : ZeHandle → Nat → Byte) : Creation → BufferState × Except Fault Unit
  | .empty size => (.raw size (memory 0) ctx.onHost subs memory, .ok ())
  | .hostData size data useHostPtr imported =>
    let s := BufferState.raw size data ctx.onHost subs memory
    let s := if useHostPtr then { s with mapHostPtr := some 0 } else s
    let s := if useHostPtr && imported then s.setAllocation none ⟨some 0, true, .unimport⟩ else s
    if s.onHost && useHostPtr && imported then
      match getZeHandle ctx drv s .writeOnly (some ctx.firstDevice) with
      | (s, .error e) => (s, .error e)
      | (s, .ok _) => (s, .ok ())
    else copyInitialData ctx drv s (some ctx.firstDevice)
  | .nativeDevice size data device own =>
    let s := BufferState.raw size data false subs memory
    ({ s.setAllocation (some device) ⟨some 0, true, if own then .freeNative else .keep⟩ with
        last := some device }, .ok ())
  | .nativeHost size data own =>
    let s := BufferState.raw size data ctx.onHost subs memory
    let s := s.setAllocation none ⟨some 0, true, if own then .freeNative else .keep⟩
    if s.onHost then ({ s with mapHostPtr := some 0 }, .ok ())
    else copyInitialData ctx drv s none

/-- What has been written to the bytes of a new buffer. -/
def Creation.latest : Creation → Nat → Option Byte
  | .empty _ => fun _ => none
  | .hostData _ data _ _ => fun i => some (data i)
  | .nativeDevice _ data _ _ => fun i => some (data i)
  | .nativeHost _ data _ => fun i => some (data i)

/-! ## Commands -/

/-- What a command read and wrote on the device, by byte of the buffer. -/
structure Effect where
  reads : List (Nat × Byte) := []
  writes : Nat → Option Byte := fun _ => none

/-- The bytes `data` from position `start` on. -/
def bytesFrom (start : Nat) (data : List Byte) : Nat → Option Byte :=
  fun i => if start ≤ i then data[i - start]? else none

/-- The bytes a command reads at `start`. -/
def BufferState.load (s : BufferState) (h : ZeHandle) (start size : Nat) : List (Nat × Byte) :=
  (List.range size).map fun i => (start + i, s.memory h (start + i))

/-- One end of `urEnqueueMemBufferCopy`: this buffer (or a sub-buffer) at an
offset, or another buffer. -/
inductive CopyEnd where
  | own (sub : Option Nat) (offset : Nat)
  | other

/-- `ur_map_flags_t`. -/
structure MapFlags where
  read : Bool
  write : Bool
  writeInvalidateRegion : Bool

/-- Translate the host access mode info. -/
def MapFlags.accessMode (f : MapFlags) : AccessMode :=
  if f.writeInvalidateRegion then .writeOnly
  else if f.read then (if f.write then .readWrite else .readOnly)
  else if f.write then .writeOnly
  else .unknown

/-- A kernel's work on the buffer: the bytes it reads, and the bytes it writes
as a function of the values it read. -/
structure Kernel where
  reads : List Nat
  writes : List Byte → Nat → Option Byte

/-- The commands that use a buffer, on a queue of `device`. -/
inductive Command where
  | memBufferRead (device : Device) (sub : Option Nat) (offset size : Nat)
  | memBufferWrite (device : Device) (sub : Option Nat) (offset : Nat) (data : List Byte)
  | memBufferFill (device : Device) (sub : Option Nat) (pattern : List Byte) (offset size : Nat)
  /-- `data` is what the source holds when it is another buffer. -/
  | memBufferCopy (device : Device) (src dst : CopyEnd) (size : Nat) (data : List Byte)
  | memBufferMap (device : Device) (sub : Option Nat) (flags : MapFlags) (offset size : Nat)
  /-- The application stores into a mapped region. -/
  | hostStore (sub : Option Nat) (ptr : Ptr) (offset : Nat) (data : List Byte)
  | memUnmap (device : Device) (sub : Option Nat) (ptr : Ptr)
  /-- A launch with the buffer and its sub-buffers as arguments. -/
  | kernelLaunch (device : Device) (args : List (Option Nat × AccessMode)) (kernel : Kernel)

def BufferState.mappingsOf (s : BufferState) : Option Nat → List Mapping
  | none => s.mappings
  | some i => (s.subs i).mappings

def BufferState.originOf (s : BufferState) : Option Nat → Nat
  | none => 0
  | some i => (s.subs i).origin

def BufferState.setMappings (s : BufferState) (sub : Option Nat) (ms : List Mapping) :
    BufferState :=
  match sub with
  | none => { s with mappings := ms }
  | some i => { s with subs := Function.update s.subs i { s.subs i with mappings := ms } }

/-- `Mappings.insert`: a pointer can be mapped once. -/
def insertMapping (s : BufferState) (sub : Option Nat) (m : Mapping) (eff : Effect) :
    BufferState × Except Fault Effect :=
  if (s.mappingsOf sub).any (·.ptr == m.ptr) then (s, .error .urResult)
  else (s.setMappings sub (m :: s.mappingsOf sub), .ok eff)

def urEnqueueMemBufferRead (ctx : Context) (drv : Driver) (s : BufferState) (device : Device)
    (sub : Option Nat) (offset size : Nat) : BufferState × Except Fault Effect :=
  match getBufferZeHandle ctx drv s sub .readOnly (some device) with
  | (s, .error e) => (s, .error e)
  | (s, .ok (h, o)) => (s, .ok { reads := s.load h (o + offset) size })

/-- A command that gets the buffer write-only and stores `data` at `offset`. -/
def enqueueStore (ctx : Context) (drv : Driver) (s : BufferState) (device : Device)
    (sub : Option Nat) (offset : Nat) (data : List Byte) : BufferState × Except Fault Effect :=
  match getBufferZeHandle ctx drv s sub .writeOnly (some device) with
  | (s, .error e) => (s, .error e)
  | (s, .ok (h, o)) =>
    let writes := bytesFrom (o + offset) data
    (s.store h writes, .ok { writes := writes })

def urEnqueueMemBufferWrite (ctx : Context) (drv : Driver) (s : BufferState) (device : Device)
    (sub : Option Nat) (offset : Nat) (data : List Byte) : BufferState × Except Fault Effect :=
  enqueueStore ctx drv s device sub offset data

/-- The bytes of a fill: the pattern repeated. -/
def fillBytes (pattern : List Byte) (size : Nat) : List Byte :=
  (List.range size).map fun i => pattern.getD (i % pattern.length) 0

def urEnqueueMemBufferFill (ctx : Context) (drv : Driver) (s : BufferState) (device : Device)
    (sub : Option Nat) (pattern : List Byte) (offset size : Nat) :
    BufferState × Except Fault Effect :=
  enqueueStore ctx drv s device sub offset (fillBytes pattern size)

def urEnqueueMemBufferCopy (ctx : Context) (drv : Driver) (s : BufferState) (device : Device)
    (src dst : CopyEnd) (size : Nat) (data : List Byte) : BufferState × Except Fault Effect :=
  match src with
  | .other =>
    match dst with
    | .other => (s, .ok {})
    | .own sub offset => enqueueStore ctx drv s device sub offset (data.take size)
  | .own srcSub srcOffset =>
    match dst with
    | .other => urEnqueueMemBufferRead ctx drv s device srcSub srcOffset size
    | .own dstSub dstOffset =>
      match getBufferZeHandle ctx drv s srcSub .readOnly (some device) with
      | (s, .error e) => (s, .error e)
      | (s, .ok (hsrc, osrc)) =>
        match getBufferZeHandle ctx drv s dstSub .writeOnly (some device) with
        | (s, .error e) => (s, .error e)
        | (s, .ok (hdst, odst)) =>
          let reads := s.load hsrc (osrc + srcOffset) size
          let writes := bytesFrom (odst + dstOffset) (reads.map Prod.snd)
          (s.store hdst writes, .ok { reads := reads, writes := writes })

/-- The host memory a map hands to the application. -/
def mapMemory (drv : Driver) (s : BufferState) (sub : Option Nat) (offset : Nat) :
    BufferState × Except Fault Ptr :=
  match (if sub = none then s.mapHostPtr else none) with
  | some host => (s, .ok (host, offset))
  | none =>
    if drv.succeeds .memAllocMap = false then (s, .error .urResult)
    else ({ s with nextHandle := s.nextHandle + 1 }, .ok (s.nextHandle, 0))

/-- Map on an integrated device: the buffer is in host memory already. -/
def mapOnHost (ctx : Context) (drv : Driver) (s : BufferState) (device : Device)
    (mode : AccessMode) (offset size : Nat) : BufferState × Except Fault Effect :=
  match getBufferZeHandle ctx drv s none mode (some device) with
  | (s, .error e) => (s, .error e)
  | (s, .ok (h, o)) =>
    let region := s.load h (o + offset) size
    match s.mapHostPtr with
    | none => insertMapping s none ⟨(h, o + offset), offset, size⟩ { reads := region }
    | some host =>
      let s := if h ≠ host ∧ mode ≠ .writeOnly then
        s.store host (bytesFrom offset (region.map Prod.snd)) else s
      insertMapping s none ⟨(host, offset), offset, size⟩ { reads := region }

def urEnqueueMemBufferMap (ctx : Context) (drv : Driver) (s : BufferState) (device : Device)
    (sub : Option Nat) (flags : MapFlags) (offset size : Nat) : BufferState × Except Fault Effect :=
  let mode := flags.accessMode
  if mode = .unknown then (s, .error .urResult)
  else if sub = none ∧ s.onHost then mapOnHost ctx drv s device mode offset size
  else match mapMemory drv s sub offset with
    | (s, .error e) => (s, .error e)
    | (s, .ok ptr) =>
      -- take a shortcut if the host is not going to read buffer's data
      if mode = .writeOnly then insertMapping s sub ⟨ptr, offset, size⟩ {}
      else match getBufferZeHandle ctx drv s sub mode (some device) with
        | (s, .error e) => (s, .error e)
        | (s, .ok (h, o)) =>
          let region := s.load h (o + offset) size
          insertMapping (s.store ptr.1 (bytesFrom ptr.2 (region.map Prod.snd))) sub
            ⟨ptr, offset, size⟩ { reads := region }

/-- The application's store; outside its mapping it would be no use of the buffer. -/
def storeMapped (s : BufferState) (sub : Option Nat) (ptr : Ptr) (offset : Nat)
    (data : List Byte) : BufferState × Except Fault Effect :=
  match (s.mappingsOf sub).find? (·.ptr == ptr) with
  | none => (s, .ok {})
  | some m =>
    if offset + data.length ≤ m.size then
      (s.store ptr.1 (bytesFrom (ptr.2 + offset) data), .ok {})
    else (s, .ok {})

def urEnqueueMemUnmap (ctx : Context) (drv : Driver) (s : BufferState) (device : Device)
    (sub : Option Nat) (ptr : Ptr) : BufferState × Except Fault Effect :=
  match (s.mappingsOf sub).find? (·.ptr == ptr) with
  | none => (s, .error .urResult)
  | some m =>
    let s := s.setMappings sub ((s.mappingsOf sub).filter (·.ptr != ptr))
    match getBufferZeHandle ctx drv s sub .writeOnly (some device) with
    | (s, .error e) => (s, .error e)
    | (s, .ok (h, o)) =>
      let writes := bytesFrom (o + m.offset) ((s.load ptr.1 ptr.2 m.size).map Prod.snd)
      -- in host memory there is something to copy only from a host pointer of the user
      if sub = none ∧ s.onHost ∧ s.mapHostPtr = none then (s, .ok { writes := writes })
      else (s.store h writes, .ok { writes := writes })

/-- The pending arguments of a kernel, all on the queue's device. -/
def setPendingArguments (ctx : Context) (drv : Driver) (device : Device) :
    BufferState → Option ZeHandle → List (Option Nat × AccessMode) →
      BufferState × Except Fault (Option ZeHandle)
  | s, h?, [] => (s, .ok h?)
  | s, _, (sub, mode) :: args =>
    match getBufferZeHandle ctx drv s sub mode (some device) with
    | (s, .error e) => (s, .error e)
    | (s, .ok (h, _)) => setPendingArguments ctx drv device s (some h) args

/-- The launch, and the kernel's accesses as far as the arguments announce them. -/
def urEnqueueKernelLaunch (ctx : Context) (drv : Driver) (s : BufferState) (device : Device)
    (args : List (Option Nat × AccessMode)) (kernel : Kernel) :
    BufferState × Except Fault Effect :=
  match setPendingArguments ctx drv device s none args with
  | (s, .error e) => (s, .error e)
  | (s, .ok none) => (s, .ok {})
  | (s, .ok (some h)) =>
    let reads := if args.any (·.2 != .writeOnly) then
      kernel.reads.map fun i => (i, s.memory h i) else []
    let writes := if args.any (·.2 != .readOnly) then
      kernel.writes (reads.map Prod.snd) else fun _ => none
    (s.store h writes, .ok { reads := reads, writes := writes })

def Command.run (ctx : Context) (drv : Driver) (s : BufferState) :
    Command → BufferState × Except Fault Effect
  | .memBufferRead device sub offset size => urEnqueueMemBufferRead ctx drv s device sub offset size
  | .memBufferWrite device sub offset data =>
    urEnqueueMemBufferWrite ctx drv s device sub offset data
  | .memBufferFill device sub pattern offset size =>
    urEnqueueMemBufferFill ctx drv s device sub pattern offset size
  | .memBufferCopy device src dst size data =>
    urEnqueueMemBufferCopy ctx drv s device src dst size data
  | .memBufferMap device sub flags offset size =>
    urEnqueueMemBufferMap ctx drv s device sub flags offset size
  | .hostStore sub ptr offset data => storeMapped s sub ptr offset data
  | .memUnmap device sub ptr => urEnqueueMemUnmap ctx drv s device sub ptr
  | .kernelLaunch device args kernel => urEnqueueKernelLaunch ctx drv s device args kernel

/-- The latest writes after a command. -/
def latestAfter (latest : Nat → Option Byte) : Except Fault Effect → Nat → Option Byte
  | .error _ => latest
  | .ok eff => overwrite eff.writes latest

end UnifiedRuntime.LevelZero
