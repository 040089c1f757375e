import Mathlib.Logic.Function.Basic
import UnifiedRuntime.Lib.Assoc
import UnifiedRuntime.Pools.Config

/-!
# USM pools of the application

A context has memory pools for all devices of its device trees, by Level Zero handle. The
application creates pools of its own; each of them has memory pools for the devices that the
context was created with, by device.

Pools of UMF and pool handles are numbers. UMF gives a new pool whenever it is asked for one, and
knows for a pointer which pool it came from. Memory may be short: an allocation comes with the
pointer that UMF returns, or without.
-/

namespace UnifiedRuntime.LevelZero.UsmPools

open Pools (Configs MemType PoolConfig)
open Assoc (emplace)

/-- A `ur_device_handle_t`, or the `ZeDevice` of one. -/
abbrev Device := Nat

abbrev Ptr := Nat

/-- A device with its `SubDevices`. -/
inductive DeviceTree where
  | node (device : Device) (subDevices : List DeviceTree)

def DeviceTree.device : DeviceTree → Device
  | .node device _ => device

/-- What the context is created with, and the settings of the environment. -/
structure Setup where
  devices : List DeviceTree
  singleRootDevice : Option Device
  zeDevice : Device → Nat
  disjointPoolConfigInstance : Configs
  useUSMAllocator : Bool

/-- `Context->Devices`. -/
def Setup.Devices (setup : Setup) : List Device := setup.devices.map DeviceTree.device

/-! ## UMF -/

/-- What a pool of UMF was made for: the memory of its provider, its parameters if it is not a
proxy, and the handle it belongs to. -/
structure Made where
  kind : MemType
  config : Option PoolConfig
  handle : Option Nat

/-- `byPtr` is `umfPoolByPtr`. -/
structure Umf where
  next : Nat
  made : Nat → Option Made
  byPtr : Ptr → Option Nat

/-- `umf::poolMakeUniqueFromOps`. -/
def Umf.make (umf : Umf) (made : Made) : Umf :=
  { umf with next := umf.next + 1, made := Function.update umf.made umf.next (some made) }

/-- A map of pools; `operator[]` leaves an entry without one. -/
abbrev PoolMap := List (Device × Option Nat)

/-- The maps that contexts and pool handles have. -/
structure DevicePools where
  deviceMemPools : PoolMap
  sharedMemPools : PoolMap
  sharedReadOnlyMemPools : PoolMap

namespace DevicePools

def empty : DevicePools := ⟨[], [], []⟩

/-- The map for memory of a kind; there is one pool for the host. -/
def map (pools : DevicePools) : MemType → PoolMap
  | .host => []
  | .device => pools.deviceMemPools
  | .shared => pools.sharedMemPools
  | .sharedReadOnly => pools.sharedReadOnlyMemPools

/-- Pools for a device: of device memory, of shared memory, and of shared memory that the device
only reads. -/
def add (pools : DevicePools) (umf : Umf) (key : Device) (config : MemType → Option PoolConfig)
    (handle : Option Nat) : DevicePools × Umf :=
  let umf₁ := umf.make ⟨.device, config .device, handle⟩
  let umf₂ := umf₁.make ⟨.shared, config .shared, handle⟩
  let umf₃ := umf₂.make ⟨.sharedReadOnly, config .sharedReadOnly, handle⟩
  (⟨emplace pools.deviceMemPools key (some umf.next),
    emplace pools.sharedMemPools key (some umf₁.next),
    emplace pools.sharedReadOnlyMemPools key (some umf₂.next)⟩, umf₃)

/-- `operator[]` on the map for memory of a kind. -/
def index (pools : DevicePools) (kind : MemType) (key : Device) : DevicePools :=
  match kind with
  | .host => pools
  | .device => { pools with deviceMemPools := emplace pools.deviceMemPools key none }
  | .shared => { pools with sharedMemPools := emplace pools.sharedMemPools key none }
  | .sharedReadOnly =>
    { pools with sharedReadOnlyMemPools := emplace pools.sharedReadOnlyMemPools key none }

/-- What is found for a key; an entry may be without a pool. -/
def get (pools : DevicePools) (kind : MemType) (key : Device) : Option Nat :=
  ((pools.map kind).lookup key).join

end DevicePools

/-! ## Contexts -/

/-- `ur_usm_pool_handle_t_`; `chain` is not part of the code: the chain that the pool was
created with. -/
structure UsmPool where
  handle : Nat
  refCount : Nat
  zeroInit : Bool
  disjointPoolConfigs : Configs
  devicePools : DevicePools
  hostMemPool : Nat
  chain : List (Option (Nat × Nat))

/-- The pools of a context; `through` is not part of the code: the pool that the application
allocated a pointer from. -/
structure Context where
  memPools : DevicePools
  memProxyPools : DevicePools
  hostMemPool : Nat
  hostMemProxyPool : Nat
  usmPoolHandles : List UsmPool
  nextHandle : Nat
  umf : Umf
  through : Ptr → Option Nat

namespace Context

/-- The parameters of the context's pools. -/
def configOf (setup : Setup) (kind : MemType) : Option PoolConfig :=
  some (setup.disjointPoolConfigInstance kind)

/-- `createUSMAllocators`. -/
def createUSMAllocators (setup : Setup) (c : Context) (device : Device) : Context :=
  let (memPools, umf) := c.memPools.add c.umf (setup.zeDevice device) (configOf setup) none
  let (memProxyPools, umf) := c.memProxyPools.add umf (setup.zeDevice device) (fun _ => none) none
  { c with memPools, memProxyPools, umf }

mutual

/-- `createUSMAllocatorsRecursive`. -/
def createUSMAllocatorsRecursive (setup : Setup) (c : Context) : DeviceTree → Context
  | .node device subDevices =>
    createUSMAllocatorsAll setup (c.createUSMAllocators setup device) subDevices

/-- The loops over devices. -/
def createUSMAllocatorsAll (setup : Setup) (c : Context) : List DeviceTree → Context
  | [] => c
  | t :: ts => createUSMAllocatorsAll setup (createUSMAllocatorsRecursive setup c t) ts

end

/-- Nothing has been created yet. -/
def blank : Context :=
  ⟨.empty, .empty, 0, 0, [], 0, ⟨0, fun _ => none, fun _ => none⟩, fun _ => none⟩

/-- The pools for the host. -/
def createHostPools (setup : Setup) (c : Context) : Context :=
  let umf := c.umf.make ⟨.host, configOf setup .host, none⟩
  { c with
    hostMemPool := c.umf.next
    hostMemProxyPool := umf.next
    umf := umf.make ⟨.host, none, none⟩ }

/-- The pools for the root device, unless there are some. -/
def createRootPools (setup : Setup) (c : Context) : Context :=
  match setup.singleRootDevice with
  | none => c
  | some root =>
    match c.memPools.deviceMemPools.lookup (setup.zeDevice root) with
    | some _ => c
    | none => c.createUSMAllocators setup root

/-- `ur_context_handle_t_::initialize`, as far as the pools go. -/
def initializePools (setup : Setup) : Context :=
  ((blank.createUSMAllocatorsAll setup setup.devices).createHostPools setup).createRootPools setup

/-! ## Pools of the application -/

/-- The loop over the chain: the limits of an entry, or no result for one of another type. -/
def readChain (configs : Configs) : List (Option (Nat × Nat)) → Option Configs
  | [] => some configs
  | some (maxPoolableSize, minDriverAllocSize) :: chain =>
    readChain ((configs.setAll maxPoolableSize .maxPoolableSize).setAll minDriverAllocSize
      .slabMinSize) chain
  | none :: _ => none

/-- The loop over the devices of the context. -/
def makeDevicePools (setup : Setup) (handle : Nat) (pools : DevicePools × Umf) :
    List Device → DevicePools × Umf
  | [] => pools
  | device :: devices =>
    makeDevicePools setup handle
      (pools.1.add pools.2 device (configOf setup) (some handle)) devices

/-- `urUSMPoolCreate`, with the constructor of the handle. -/
def urUSMPoolCreate (setup : Setup) (c : Context) (zeroInit : Bool)
    (chain : List (Option (Nat × Nat))) : Context :=
  match readChain setup.disjointPoolConfigInstance chain with
  | none => c
  | some configs =>
    let umf := c.umf.make ⟨.host, configOf setup .host, some c.nextHandle⟩
    let pools := makeDevicePools setup c.nextHandle (.empty, umf) setup.Devices
    { c with
      usmPoolHandles := c.usmPoolHandles ++
        [⟨c.nextHandle, 1, zeroInit, configs, pools.1, c.umf.next, chain⟩]
      nextHandle := c.nextHandle + 1
      umf := pools.2 }

def pool? (c : Context) (handle : Nat) : Option UsmPool :=
  c.usmPoolHandles.find? fun pool => pool.handle == handle

def setPool (c : Context) (pool : UsmPool) : Context :=
  { c with
    usmPoolHandles := c.usmPoolHandles.map fun p => if p.handle = pool.handle then pool else p }

/-- `urUSMPoolRetain`. -/
def urUSMPoolRetain (c : Context) (handle : Nat) : Context :=
  match c.pool? handle with
  | none => c
  | some pool => c.setPool { pool with refCount := pool.refCount + 1 }

/-- The pool of a pointer was made for the handle. -/
def isFrom (c : Context) (handle : Nat) (ptr : Ptr) : Bool :=
  match c.umf.byPtr ptr with
  | none => false
  | some u => (c.umf.made u).any fun made => made.handle = some handle

/-- `urUSMPoolRelease`; UMF forgets the pointers of pools that are destroyed. -/
def urUSMPoolRelease (c : Context) (handle : Nat) : Context :=
  match c.pool? handle with
  | none => c
  | some pool =>
    if pool.refCount - 1 = 0 then
      { c with
        usmPoolHandles := c.usmPoolHandles.filter fun p => p.handle ≠ handle
        umf := { c.umf with
          byPtr := fun ptr => if c.isFrom handle ptr then none else c.umf.byPtr ptr }
        through := fun ptr => if c.isFrom handle ptr then none else c.through ptr }
    else c.setPool { pool with refCount := pool.refCount - 1 }

/-! ## Allocation -/

/-- A `ur_usm_desc_t`: the alignment, and the flags of the chained `ur_usm_device_desc_t`s. -/
structure UsmDesc where
  align : UInt32
  deviceFlags : List UInt32

/-- `UR_USM_DEVICE_MEM_FLAG_DEVICE_READ_ONLY`. -/
def deviceReadOnlyFlag : UInt32 := 4

/-- The flags of the last descriptor of the chain count. -/
def deviceReadOnly (desc : Option UsmDesc) : Bool :=
  match desc with
  | none => false
  | some desc => (desc.deviceFlags.getLast?.getD 0) &&& deviceReadOnlyFlag ≠ 0

def alignmentOk (desc : Option UsmDesc) : Bool :=
  match desc with
  | none => true
  | some desc => desc.align = 0 || (desc.align ≤ 65536 && desc.align &&& (desc.align - 1) = 0)

/-- `hPoolInternal`, and the context after the lookup; without a result the device has no
pools. -/
def hPoolInternal (setup : Setup) (c : Context) (kind : MemType) (device : Device)
    (pool : Option Nat) : Option (Context × Option Nat) :=
  if !setup.useUSMAllocator then
    match kind with
    | .host => some (c, some c.hostMemProxyPool)
    | _ => ((c.memProxyPools.map kind).lookup (setup.zeDevice device)).map fun u => (c, u)
  else
    match pool with
    | some handle =>
      match c.pool? handle with
      | none => none
      | some pool =>
        match kind with
        | .host => some (c, some pool.hostMemPool)
        | _ =>
          let devicePools := pool.devicePools.index kind device
          some (c.setPool { pool with devicePools }, devicePools.get kind device)
    | none =>
      match kind with
      | .host => some (c, some c.hostMemPool)
      | _ => ((c.memPools.map kind).lookup (setup.zeDevice device)).map fun u => (c, u)

/-- An allocation; `answer` is what `umfPoolAlignedMalloc` returns for a pool. -/
def alloc (setup : Setup) (c : Context) (kind : MemType) (device : Device) (desc : Option UsmDesc)
    (pool : Option Nat) (answer : Option Ptr) : Context :=
  if !alignmentOk desc then c
  else
    match hPoolInternal setup c kind device pool with
    | none => c
    | some (c, none) => c
    | some (c, some u) =>
      match answer with
      | none => c
      | some ptr =>
        { c with
          umf := { c.umf with byPtr := Function.update c.umf.byPtr ptr (some u) }
          through := Function.update c.through ptr pool }

/-- The memory that an entry point allocates: `urUSMHostAlloc`, `urUSMDeviceAlloc` and
`urUSMSharedAlloc`. -/
inductive Entry where
  | host
  | device (device : Device)
  | shared (device : Device)

def Entry.kind (desc : Option UsmDesc) : Entry → MemType
  | .host => .host
  | .device _ => .device
  | .shared _ => if deviceReadOnly desc then .sharedReadOnly else .shared

/-- The device, null for the host. -/
def Entry.on : Entry → Device
  | .host => 0
  | .device d => d
  | .shared d => d

/-- `urUSMFree`. -/
def urUSMFree (c : Context) (ptr : Ptr) : Context :=
  match c.umf.byPtr ptr with
  | none => c
  | some _ =>
    { c with
      umf := { c.umf with byPtr := Function.update c.umf.byPtr ptr none }
      through := Function.update c.through ptr none }

/-! ## The query -/

def searchMatchingPool (map : PoolMap) (u : Nat) : Bool :=
  map.any fun poolPair => poolPair.2 = some u

/-- `UR_USM_ALLOC_INFO_POOL`. -/
def allocInfoPool (c : Context) (ptr : Ptr) : Option Nat :=
  match c.umf.byPtr ptr with
  | none => none
  | some u =>
    (c.usmPoolHandles.find? fun pool =>
      searchMatchingPool pool.devicePools.deviceMemPools u ||
        searchMatchingPool pool.devicePools.sharedMemPools u || pool.hostMemPool = u).map
      UsmPool.handle

end Context

/-! ## Runs -/

inductive Call where
  | create (zeroInit : Bool) (chain : List (Option (Nat × Nat)))
  | retain (handle : Nat)
  | release (handle : Nat)
  | alloc (entry : Context.Entry) (desc : Option Context.UsmDesc) (pool : Option Nat)
      (answer : Option Ptr)
  | free (ptr : Ptr)

def step (setup : Setup) (c : Context) : Call → Context
  | .create zeroInit chain => c.urUSMPoolCreate setup zeroInit chain
  | .retain handle => c.urUSMPoolRetain handle
  | .release handle => c.urUSMPoolRelease handle
  | .alloc entry desc pool answer =>
    c.alloc setup (entry.kind desc) entry.on desc pool answer
  | .free ptr => c.urUSMFree ptr

/-- Pools are used while they are there, and new memory is nobody's. -/
def Allowed (c : Context) : Call → Prop
  | .create _ _ => True
  | .retain handle => (c.pool? handle).isSome
  | .release handle => (c.pool? handle).isSome
  | .alloc _ _ pool answer =>
    (∀ handle, pool = some handle → (c.pool? handle).isSome) ∧
      ∀ ptr, answer = some ptr → c.umf.byPtr ptr = none
  | .free _ => True

/-! ## Right calls -/

/-- The memory pool is one of the pool's, for memory of the kind. -/
def UsmPool.Has (pool : UsmPool) (kind : MemType) (u : Nat) : Prop :=
  match kind with
  | .host => pool.hostMemPool = u
  | kind => ∃ device, (device, some u) ∈ pool.devicePools.map kind

/-- The limits of the last entry of a chain. -/
def lastLimits (chain : List (Option (Nat × Nat))) : Option (Nat × Nat) := chain.getLast?.join

/-- The parameters have the limits. -/
def HasLimits (config : PoolConfig) (limits : Nat × Nat) : Prop :=
  config.maxPoolableSize = limits.1 ∧ config.slabMinSize = limits.2

/-- A lookup finds a pool that is not null. -/
def Finds (setup : Setup) (c : Context) (kind : MemType) (device : Device)
    (pool : Option Nat) : Prop :=
  ∃ c' u, c.hPoolInternal setup kind device pool = some (c', some u)

/-- **A call is right**: an allocation from a pool finds a memory pool where the context's own
work, memory pools have the limits of the chain, and the query reports the pool of a pointer. -/
structure Right (setup : Setup) (c : Context) (call : Call) : Prop where
  covers : ∀ entry desc handle answer, call = .alloc entry desc (some handle) answer →
    Context.alignmentOk desc = true →
    Finds setup c (entry.kind desc) entry.on none →
    Finds setup c (entry.kind desc) entry.on (some handle)
  configured : ∀ pool ∈ (step setup c call).usmPoolHandles, ∀ kind u, pool.Has kind u →
    ∀ limits, lastLimits pool.chain = some limits →
    ∃ made config, (step setup c call).umf.made u = some made ∧ made.config = some config ∧
      HasLimits config limits
  reports : ∀ ptr handle, (step setup c call).through ptr = some handle →
    (step setup c call).allocInfoPool ptr = some handle

/-! ## The condition -/

mutual

/-- A device and all its sub-devices. -/
def DeviceTree.all : DeviceTree → List Device
  | .node device subDevices => device :: allDevices subDevices

def allDevices : List DeviceTree → List Device
  | [] => []
  | t :: ts => t.all ++ allDevices ts

end

/-- The device has the `ZeDevice` of one in the context's trees, or of its root device. -/
def Setup.Covered (setup : Setup) (device : Device) : Prop :=
  ∃ d ∈ allDevices setup.devices ++ setup.singleRootDevice.toList,
    setup.zeDevice d = setup.zeDevice device

/-- **When a call is right**: a chain gives the limits that the settings of the environment have
already; an allocation from a pool is on a device that the context was created with, if it is on
one that the context's own pools cover; and no memory is returned for one that is shared and
read-only, nor for any that is left to a proxy pool because the allocator is off. -/
def Fine (setup : Setup) : Call → Prop
  | .create _ chain => Context.readChain setup.disjointPoolConfigInstance chain ≠ none →
    ∀ limits, lastLimits chain = some limits →
      ∀ kind, kind = .host ∨ setup.devices ≠ [] →
        HasLimits (setup.disjointPoolConfigInstance kind) limits
  | .alloc entry desc pool answer =>
    pool.isSome → Context.alignmentOk desc = true →
      if setup.useUSMAllocator then entry.kind desc ≠ .host →
        (setup.Covered entry.on → entry.on ∈ setup.Devices) ∧
          (entry.kind desc = .sharedReadOnly → entry.on ∈ setup.Devices → answer = none)
      else entry.kind desc = .host ∨ setup.Covered entry.on → answer = none
  | _ => True

end UnifiedRuntime.LevelZero.UsmPools
