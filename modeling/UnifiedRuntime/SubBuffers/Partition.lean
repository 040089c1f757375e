import UnifiedRuntime.Lib.Extents

/-!
# `urMemBufferPartition`

Three implementations: the v2 adapter's and the CUDA adapter's, and the one with
which the address sanitizer serves the buffers that it keeps itself. Sizes and
offsets are `size_t`.

The v2 adapter compares the origin and the size with the parent's size, each on
its own. The other two compare their sum, which may wrap. The CUDA adapter makes
no sub-buffers of sub-buffers; its sub-buffer is a copy of its parent with moved
pointers: it has the parent's `Size`, and `urMemGetInfo` answers what the driver
says of the pointer.
-/

namespace UnifiedRuntime.SubBuffers

open Windows (Window InRange)

/-! ## The arguments -/

/-- `ur_buffer_region_t`. -/
structure Region where
  origin : UInt64
  size : UInt64

def Region.window (r : Region) : Window := ⟨r.origin.toNat, r.size.toNat⟩

/-- `ur_mem_flags_t`. -/
structure MemFlags where
  readWrite : Bool
  writeOnly : Bool
  readOnly : Bool
  useHostPointer : Bool
  allocHostPointer : Bool
  allocCopyHostPointer : Bool
deriving DecidableEq

/-- `ur_buffer_create_type_t`. -/
inductive BufferCreateType where
  | region
  | forceUint32
deriving DecidableEq

/-- The results that `urMemBufferPartition` fails with. -/
inductive Error where
  | invalidEnumeration
  | invalidMemObject
  | invalidValue
  | invalidBufferSize
  | outOfHostMemory

/-! ## The v2 adapter -/

namespace V2

/-- `device_access_mode_t`. -/
inductive AccessMode where
  | readWrite
  | readOnly
  | writeOnly
deriving DecidableEq

def getDeviceAccessMode (memFlag : MemFlags) : AccessMode :=
  if memFlag.readWrite then .readWrite
  else if memFlag.readOnly then .readOnly
  else if memFlag.writeOnly then .writeOnly
  else .readWrite

def isAccessCompatible (requested actual : AccessMode) : Bool :=
  requested == actual || actual == .readWrite

/-- `ur_mem_buffer_t`: one with memory of its own, or a `ur_mem_sub_buffer_t`. -/
inductive Buffer where
  | root (size : UInt64) (accessMode : AccessMode)
  | sub (hParent : Buffer) (offset size : UInt64) (accessMode : AccessMode)

namespace Buffer

def getSize : Buffer → UInt64
  | root size _ => size
  | sub _ _ size _ => size

def accessMode : Buffer → AccessMode
  | root _ mode => mode
  | sub _ _ _ mode => mode

/-- The buffer that has the memory. -/
def base : Buffer → Buffer
  | root size mode => root size mode
  | sub hParent _ _ _ => hParent.base

/-- `getDevicePtr` and `mapHostPtr`: at which offset of the memory an offset is. -/
def ptrOffset : Buffer → UInt64 → UInt64
  | root _ _, offset => offset
  | sub hParent o _ _, offset => hParent.ptrOffset (offset + o)

end Buffer

/-- `urMemGetInfo` of `UR_MEM_INFO_SIZE`. -/
def memInfoSize (hMem : Buffer) : UInt64 := hMem.getSize

def urMemBufferPartition (hMem : Buffer) (flags : MemFlags) (createType : BufferCreateType)
    (pRegion : Region) : Except Error Buffer :=
  if createType ≠ .region then .error .invalidEnumeration
  else if ¬ (pRegion.origin < hMem.getSize ∧ pRegion.size ≤ hMem.getSize) then
    .error .invalidBufferSize
  else if ¬ isAccessCompatible (getDeviceAccessMode flags) hMem.accessMode then
    .error .invalidValue
  else .ok (.sub hMem pRegion.origin pRegion.size (getDeviceAccessMode flags))

/-- The checks that do not look at the region pass. -/
def Admitted (hMem : Buffer) (flags : MemFlags) (createType : BufferCreateType) : Prop :=
  createType = .region ∧ isAccessCompatible (getDeviceAccessMode flags) hMem.accessMode

end V2

/-! ## The address sanitizer -/

namespace Asan

/-- `MemBuffer`, as far as its size and place go. -/
inductive MemBuffer where
  | buffer (size : UInt64)
  | subBuffer (parent : MemBuffer) (origin size : UInt64)

namespace MemBuffer

def size : MemBuffer → UInt64
  | buffer size => size
  | subBuffer _ _ size => size

/-- `getHandle`: at which offset of the allocation an offset is. -/
def handleOffset : MemBuffer → Nat → Nat
  | buffer _, offset => offset
  | subBuffer parent origin _, offset => parent.handleOffset (offset + origin.toNat)

end MemBuffer

/-- `urMemGetInfo` of `UR_MEM_INFO_SIZE`. -/
def memInfoSize (b : MemBuffer) : UInt64 := b.size

/-- `urMemBufferPartition`, of a buffer that the sanitizer knows. -/
def urMemBufferPartition (parentBuffer : MemBuffer) (pRegion : Region) : Except Error MemBuffer :=
  if parentBuffer.size < pRegion.origin + pRegion.size then .error .invalidBufferSize
  else .ok (.subBuffer parentBuffer pRegion.origin pRegion.size)

end Asan

/-! ## The CUDA adapter -/

namespace Cuda

/-- `BufferMem` with the handle's flags, and with its pointer on one of the devices. A
sub-buffer is constructed from its parent's by moving the pointers. -/
inductive BufferMem where
  | buffer (ptr size : UInt64) (memFlags : MemFlags)
  | sub (parent : BufferMem) (subBufferOffset : UInt64)

namespace BufferMem

def isSubBuffer : BufferMem → Bool
  | buffer _ _ _ => false
  | sub _ _ => true

/-- `Size`. -/
def getSize : BufferMem → UInt64
  | buffer _ size _ => size
  | sub parent _ => parent.getSize

/-- `MemFlags`. -/
def memFlags : BufferMem → MemFlags
  | buffer _ _ flags => flags
  | sub parent _ => parent.memFlags

def getPtr : BufferMem → UInt64
  | buffer ptr _ _ => ptr
  | sub parent o => parent.getPtr + o

end BufferMem

/-- `urMemGetInfo` of `UR_MEM_INFO_SIZE`: the size that `cuMemGetAddressRange` returns for
the pointer. -/
def memInfoSize (cuMemGetAddressRange : UInt64 → UInt64) (b : BufferMem) : UInt64 :=
  cuMemGetAddressRange b.getPtr

/-- What the driver's documentation says of `cuMemGetAddressRange`: for every pointer into an
allocation it returns the size that the allocation was made with. -/
def RangeOf (cuMemGetAddressRange : UInt64 → UInt64) (b : BufferMem) : Prop :=
  b.isSubBuffer = false →
    ∀ offset, offset < b.getSize → cuMemGetAddressRange (b.getPtr + offset) = b.getSize

/-- Flags 0 stand for `UR_MEM_FLAG_READ_WRITE`. -/
def defaultFlags (flags : MemFlags) : MemFlags :=
  if flags = ⟨false, false, false, false, false, false⟩ then { flags with readWrite := true }
  else flags

/-- The checks of the flags. -/
def flagsAccepted (parent flags : MemFlags) : Bool :=
  !(flags.allocCopyHostPointer || flags.allocHostPointer || flags.useHostPointer) &&
  !(parent.writeOnly && (flags.readWrite || flags.readOnly)) &&
  !(parent.readOnly && (flags.readWrite || flags.writeOnly))

/-- `urMemBufferPartition`. `allocated` is what came of allocating on all the devices. -/
def urMemBufferPartition (hBuffer : BufferMem) (flags : MemFlags)
    (createType : BufferCreateType) (pRegion : Region) (allocated : Except Error Unit) :
    Except Error BufferMem :=
  if hBuffer.isSubBuffer then .error .invalidMemObject
  else if ¬ flagsAccepted hBuffer.memFlags (defaultFlags flags) then .error .invalidValue
  else if createType ≠ .region then .error .invalidEnumeration
  else if pRegion.size = 0 then .error .invalidBufferSize
  else if ¬ pRegion.origin + pRegion.size ≤ hBuffer.getSize then .error .invalidBufferSize
  else
    match allocated with
    | .error err => .error err
    | .ok _ => .ok (.sub hBuffer pRegion.origin)

/-- The checks that do not look at the region pass, and the devices have memory. -/
def Admitted (hBuffer : BufferMem) (flags : MemFlags) (createType : BufferCreateType)
    (allocated : Except Error Unit) : Prop :=
  hBuffer.isSubBuffer = false ∧ flagsAccepted hBuffer.memFlags (defaultFlags flags) ∧ createType = .region ∧
    allocated = .ok ()

end Cuda

end UnifiedRuntime.SubBuffers
