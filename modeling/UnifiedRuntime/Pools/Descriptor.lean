import Mathlib

/-!
# Descriptors of the USM pools

A pool handle keeps one memory pool for each `pool_descriptor`, made for the host and for all
devices of the context with their sub-devices, and finds the pool of an allocation by a descriptor
again. Descriptors of different devices are equal if the devices have one native handle.

Sub-devices are those that partitioning by CSLICE returns; a device can have others, from other
ways of partitioning. A device tree has both, and what the device answers to the two queries.
The hash functions of the standard library are parameters, and so is the adapter's
`urDeviceGetNativeHandle`.
-/

namespace UnifiedRuntime.Pools.Manager

/-! ## Data -/

/-- A result that is not `UR_RESULT_SUCCESS`. -/
inductive Error where
  | unsupportedFeature
  | invalidArgument
  | other (code : Nat)
deriving DecidableEq

/-- A handle of a device, not null. -/
abbrev Device := Nat

abbrev NativeHandle := Nat

/-- `urDeviceGetNativeHandle`. -/
abbrev GetNativeHandle := Device → Except Error NativeHandle

inductive UsmType where
  | host
  | device
  | shared
deriving DecidableEq

/-- `pool_descriptor`; the device may be null. -/
structure PoolDescriptor where
  poolHandle : Nat
  hContext : Nat
  hDevice : Option Device
  type : UsmType
  deviceReadOnly : Bool

/-- A device and what it answers: to the query of the compute units, to the question how many
devices a partition has, and to the partition itself. -/
structure Node where
  handle : Device
  maxComputeUnits : Except Error Unit
  partitionCount : Except Error Unit
  partition : Except Error Unit

/-- A device with the devices that its partition by CSLICE has, and its other sub-devices. -/
inductive DeviceTree where
  | node (n : Node) (cslices others : List DeviceTree)

/-- A context and its answers to the two queries. -/
structure Context where
  handle : Nat
  numDevices : Except Error Unit
  getDevices : Except Error Unit
  devices : List DeviceTree

/-! ## Equality and hash -/

def isSharedAllocationReadOnlyOnDevice (desc : PoolDescriptor) : Bool :=
  desc.type == .shared && desc.deviceReadOnly

/-- The native handle of a descriptor's device, 0 for none. -/
def nativeOf (native : GetNativeHandle) : Option Device → Except Error NativeHandle
  | none => .ok 0
  | some device => native device

/-- `pool_descriptor::operator==`. -/
def equal (native : GetNativeHandle) (lhs rhs : PoolDescriptor) : Except Error Bool := do
  let lhsNative ← nativeOf native lhs.hDevice
  let rhsNative ← nativeOf native rhs.hDevice
  pure (lhsNative == rhsNative && lhs.type == rhs.type &&
    (isSharedAllocationReadOnlyOnDevice lhs == isSharedAllocationReadOnlyOnDevice rhs) &&
    lhs.poolHandle == rhs.poolHandle)

/-- `std::hash` of the parts. -/
structure Hashes where
  type : UsmType → UInt64
  native : NativeHandle → UInt64
  bool : Bool → UInt64
  pool : Nat → UInt64

/-- `std::hash<usm::pool_descriptor>`. -/
def hash (hashes : Hashes) (native : GetNativeHandle) (desc : PoolDescriptor) :
    Except Error UInt64 := do
  let nativeHandle ← nativeOf native desc.hDevice
  pure (0 ^^^ hashes.type desc.type ^^^ hashes.native nativeHandle ^^^
    hashes.bool (isSharedAllocationReadOnlyOnDevice desc) ^^^ hashes.pool desc.poolHandle)

/-! ## The devices of a context -/

/-- `urGetSubDevices`, up to its result. -/
def Node.urGetSubDevices (n : Node) : Except Error Unit := do
  n.maxComputeUnits
  n.partitionCount
  n.partition

mutual

/-- `addPoolsForDevicesRec`. -/
def addPoolsForDevicesRec : DeviceTree → Except Error (List Device)
  | .node n cslices _ => do
    n.urGetSubDevices
    let rest ← addPoolsForDevices cslices
    pure (n.handle :: rest)

/-- The loop over devices. -/
def addPoolsForDevices : List DeviceTree → Except Error (List Device)
  | [] => pure []
  | t :: ts => do
    let first ← addPoolsForDevicesRec t
    let rest ← addPoolsForDevices ts
    pure (first ++ rest)

end

def DeviceTree.handle : DeviceTree → Device
  | .node n _ _ => n.handle

/-- `urGetAllDevicesAndSubDevices`; no error is `UR_RESULT_SUCCESS`. -/
def urGetAllDevicesAndSubDevices (context : Context) : Option Error × List Device :=
  match context.numDevices with
  | .error e => (some e, [])
  | .ok () =>
    if context.devices = [] then (none, [])
    else match context.getDevices with
    | .error e => (some e, [])
    | .ok () =>
      match addPoolsForDevices context.devices with
      -- main devices when sub-devices are unsupported
      | .error .unsupportedFeature =>
        (some .unsupportedFeature, context.devices.map DeviceTree.handle)
      | .error e => (some e, [])
      | .ok devicesAndSubDevices => (none, devicesAndSubDevices)

/-! ## The descriptors of a pool handle -/

def hostDescriptor (poolHandle hContext : Nat) : PoolDescriptor :=
  ⟨poolHandle, hContext, none, .host, false⟩

/-- The descriptors of one device. -/
def deviceDescriptors (poolHandle hContext : Nat) (device : Device) : List PoolDescriptor :=
  [⟨poolHandle, hContext, some device, .device, false⟩,
    ⟨poolHandle, hContext, some device, .shared, false⟩,
    ⟨poolHandle, hContext, some device, .shared, true⟩]

/-- `pool_descriptor::create`. -/
def create (poolHandle : Nat) (context : Context) : Option Error × List PoolDescriptor :=
  match urGetAllDevicesAndSubDevices context with
  | (some e, _) => (some e, [])
  | (none, devices) =>
    (none, hostDescriptor poolHandle context.handle ::
      devices.flatMap (deviceDescriptors poolHandle context.handle))

/-! ## The pool manager -/

abbrev Pool := Nat

/-- `descToPoolMap`. -/
abbrev PoolMap := List (PoolDescriptor × Pool)

/-- An exception, or one that leaves a `noexcept` function. -/
inductive Stop where
  | thrown (e : Error)
  | terminated

/-- The comparison with an element; only those of the same hash are compared. -/
def sameEntry (hashes : Hashes) (native : GetNativeHandle) (code : UInt64) (desc : PoolDescriptor)
    (entry : PoolDescriptor × Pool) : Except Error Bool := do
  let entryCode ← hash hashes native entry.1
  if entryCode = code then equal native entry.1 desc else pure false

/-- `descToPoolMap.find`. -/
def find (hashes : Hashes) (native : GetNativeHandle) (map : PoolMap) (desc : PoolDescriptor) :
    Except Error (Option Pool) := do
  let code ← hash hashes native desc
  let found ← map.findM? (sameEntry hashes native code desc)
  pure (found.map Prod.snd)

/-- `addPool`, which is `noexcept`. -/
def addPool (hashes : Hashes) (native : GetNativeHandle) (map : PoolMap) (desc : PoolDescriptor)
    (pool : Pool) : Except Stop (PoolMap × Option Error) :=
  match find hashes native map desc with
  | .error _ => .error .terminated
  | .ok (some _) => .ok (map, some .invalidArgument)
  | .ok none => .ok (map ++ [(desc, pool)], none)

/-- The loop of `ur_usm_pool_handle_t_`; the result of `addPool` is not looked at. -/
def addPools (hashes : Hashes) (native : GetNativeHandle)
    (makePool : PoolDescriptor → Except Error Pool) (map : PoolMap) :
    List PoolDescriptor → Except Stop PoolMap
  | [] => .ok map
  | desc :: descriptors => do
    let pool ← (makePool desc).mapError .thrown
    let (map, _) ← addPool hashes native map desc pool
    addPools hashes native makePool map descriptors

/-- The constructor of `ur_usm_pool_handle_t_`. -/
def urUsmPoolHandle (hashes : Hashes) (native : GetNativeHandle)
    (makePool : PoolDescriptor → Except Error Pool) (poolHandle : Nat) (context : Context) :
    Except Stop PoolMap :=
  match create poolHandle context with
  | (some e, _) => .error (.thrown e)
  | (none, descriptors) => addPools hashes native makePool [] descriptors

/-- `ur_usm_pool_handle_t_::getPool`, in which `value()` throws if there is none. -/
def getPool (hashes : Hashes) (native : GetNativeHandle) (map : PoolMap) (desc : PoolDescriptor) :
    Except Stop Pool :=
  match find hashes native map desc with
  | .error _ => .error .terminated
  | .ok none => .error (.thrown (.other 0))
  | .ok (some pool) => .ok pool

end UnifiedRuntime.Pools.Manager
