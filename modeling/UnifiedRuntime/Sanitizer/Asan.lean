import UnifiedRuntime.Sanitizer.Shadow
import UnifiedRuntime.Sanitizer.MemBuffer

/-!
# `AsanInterceptor`: allocations, quarantine and deferred poisoning

`allocateMemory` puts redzones around the memory it gets from the driver and
appends an `AllocInfo` to a list of the context for each device that can see
it. `releaseMemory` appends the same `AllocInfo`, now released, and hands the
memory to the quarantine of the device, which frees the oldest chunks when it
is full. `updateShadowMemory` flushes the list of one context and one device
before a kernel is launched.

An `AllocInfo` is shared between the lists, the map and the quarantine: the
state keeps them in a table, and the rest refers to its indices.
-/

namespace UnifiedRuntime.Sanitizer

abbrev ContextId := Nat
abbrev InfoId := Nat

/-- The kinds of memory that `allocateMemory` and `releaseMemory` handle. -/
inductive AllocType where
  | deviceUsm
  | hostUsm
  | sharedUsm
  | memBuffer

def AllocType.redzoneMagic : AllocType → UInt8
  | deviceUsm => 0x81
  | hostUsm => 0x82
  | sharedUsm => 0x83
  | memBuffer => 0x84

def AllocType.deallocatedMagic : AllocType → UInt8
  | deviceUsm => 0x91
  | hostUsm => 0x92
  | sharedUsm => 0x93
  | memBuffer => 0x93

structure AllocInfo where
  allocBegin : Nat
  userBegin : Nat
  userEnd : Nat
  allocSize : Nat
  type : AllocType
  isReleased : Bool
  context : ContextId
  device : Option Device

/-! ## Sizes -/

/-- `RoundUpTo` for a boundary that is a power of two. -/
def roundUpTo (x boundary : Nat) : Nat :=
  add64 x (boundary - 1) / boundary * boundary

def rzSize2Log (size : Nat) : Nat := Nat.log2 size - 4

def rzLog2Size (log : Nat) : Nat := 16 * 2 ^ log

def computeRZLog (size minSize maxSize : Nat) : Nat :=
  let log :=
    if size ≤ 64 - 16 then 0
    else if size ≤ 128 - 32 then 1
    else if size ≤ 512 - 64 then 2
    else if size ≤ 4096 - 128 then 3
    else if size ≤ 2 ^ 14 - 256 then 4
    else if size ≤ 2 ^ 15 - 512 then 5
    else if size ≤ 2 ^ 16 - 1024 then 6
    else 7
  min (max log (rzSize2Log minSize)) (rzSize2Log maxSize)

/-- The options of the layer and what it knows of the devices. `RoundUpTo`
asserts that an alignment is a power of two. -/
structure AsanSetup where
  minRZSize : Nat
  maxRZSize : Nat
  maxQuarantineSizeMB : Nat
  deviceList : ContextId → List Device
  deviceType : Device → DeviceType
  alignment : Device → Nat
  alignment_pow : ∀ d, ∃ k, alignment d = 2 ^ k

/-- A call of `allocateMemory`. The callers pass the null device for host USM and
only for it. -/
structure AllocRequest where
  context : ContextId
  device : Option Device
  align : Nat
  size : Nat
  type : AllocType
  host : type = .hostUsm ↔ device = none

/-- The devices whose lists get an `AllocInfo`. -/
def AsanSetup.targets (m : AsanSetup) (context : ContextId) : Option Device → List Device
  | some d => [d]
  | none => m.deviceList context

namespace AllocRequest

variable (m : AsanSetup) (r : AllocRequest)

/-- `Alignment`, at least `MinAlignment`. -/
def alignment : Nat :=
  let a := if r.align = 0 then (r.device.map m.alignment).getD 16 else r.align
  if a < 16 then 16 else a

def rzSize : Nat := rzLog2Size (computeRZLog r.size m.minRZSize m.maxRZSize)

def neededSize : Nat :=
  let size := add64 (roundUpTo r.size (r.alignment m)) (r.rzSize m * 2)
  if 16 < r.alignment m then add64 size (r.alignment m) else size

def userBegin (allocBegin : Nat) : Nat :=
  let user := add64 allocBegin (r.rzSize m)
  if user % r.alignment m = 0 then user else roundUpTo user (r.alignment m)

/-- The `AllocInfo` of memory that the driver returned. -/
def info (allocBegin : Nat) : AllocInfo where
  allocBegin := allocBegin
  userBegin := r.userBegin m allocBegin
  userEnd := add64 (r.userBegin m allocBegin) r.size
  allocSize := r.neededSize m
  type := r.type
  isReleased := false
  context := r.context
  device := r.device

end AllocRequest

/-! ## Poisoning -/

/-- `enqueueAllocInfo`: its calls of `EnqueuePoisonShadow`. -/
def AllocInfo.enqueueAllocInfo (ai : AllocInfo) : List Poison :=
  if ai.isReleased then [⟨ai.allocBegin, ai.allocSize, ai.type.deallocatedMagic⟩]
  else
    let tailBegin := roundUpTo ai.userEnd 16
    let tailEnd := add64 ai.allocBegin ai.allocSize
    [⟨ai.allocBegin, ai.allocSize, 0⟩] ++
    (if tailBegin ≠ ai.userEnd then [⟨ai.userEnd, 1, UInt8.ofNat (ai.userEnd % 16)⟩] else []) ++
    [⟨ai.allocBegin, sub64 ai.userBegin ai.allocBegin, ai.type.redzoneMagic⟩,
      ⟨tailBegin, sub64 tailEnd tailBegin, ai.type.redzoneMagic⟩]

/-- The shadow after calls of `EnqueuePoisonShadow` that succeed. -/
def poisoned (t : DeviceType) (shadow : Nat → UInt8) (ps : List Poison) : Nat → UInt8 :=
  ps.foldl (fun sh p => p.apply t sh) shadow

/-! ## The interceptor -/

/-- `heap` are the chunks that the driver has not been asked to free. -/
structure AsanState where
  infos : InfoId → AllocInfo
  nextInfo : InfoId
  allocInfosMap : ContextId → Device → List InfoId
  allocationMap : List InfoId
  quarantine : Option Device → List InfoId
  shadow : DeviceType → Nat → UInt8
  heap : List InfoId

namespace AsanState

variable (m : AsanSetup) (s : AsanState)

/-- `insertAllocInfo`: an entry for every device of the list. -/
def insertAllocInfo (context : ContextId) (devices : List Device) (id : InfoId) :
    ContextId → Device → List InfoId :=
  fun c d =>
    if c = context then s.allocInfosMap c d ++ List.replicate (devices.count d) id
    else s.allocInfosMap c d

/-- The rest of `allocateMemory` once the driver has returned memory. -/
def insertChunk (r : AllocRequest) (allocBegin : Nat) : AsanState where
  infos := Function.update s.infos s.nextInfo (r.info m allocBegin)
  nextInfo := s.nextInfo + 1
  allocInfosMap := s.insertAllocInfo r.context (m.targets r.context r.device) s.nextInfo
  -- `emplace` keeps an entry that has the key already
  allocationMap :=
    if s.allocationMap.any fun id => (s.infos id).allocBegin == allocBegin then s.allocationMap
    else s.nextInfo :: s.allocationMap
  quarantine := s.quarantine
  shadow := s.shadow
  heap := s.nextInfo :: s.heap

/-- `allocateMemory`, with the memory that the driver returns or `none` when it
fails. -/
def allocateMemory (r : AllocRequest) (answer : Option Nat) : AsanState × Option Nat :=
  if r.align &&& (r.align - 1) ≠ 0 then (s, none)
  else
    match answer with
    | none => (s, none)
    | some allocBegin => (s.insertChunk m r allocBegin, some (r.userBegin m allocBegin))

/-- `findAllocInfoByAddress`: the chunk with the greatest address up to this
one, if the address lies in it. -/
def findAllocInfoByAddress (address : Nat) : Option InfoId :=
  match (s.allocationMap.filter fun id => decide ((s.infos id).allocBegin ≤ address)).argmax
      fun id => (s.infos id).allocBegin with
  | none => none
  | some id =>
    if add64 (s.infos id).allocBegin (s.infos id).allocSize ≤ address then none else some id

/-- The chunks that `Quarantine::put` dequeues, and those that stay. -/
def dequeue (maxSize allocSize : Nat) : List InfoId → List InfoId × List InfoId
  | [] => ([], [])
  | id :: rest =>
    if maxSize < ((id :: rest).map fun i => (s.infos i).allocSize).sum + allocSize then
      (id :: (dequeue maxSize allocSize rest).1, (dequeue maxSize allocSize rest).2)
    else ([], id :: rest)

/-- `IsReleased = true` and the entry in the lists. -/
def markReleased (id : InfoId) : AsanState :=
  { s with
    infos := Function.update s.infos id { s.infos id with isReleased := true }
    allocInfosMap :=
      s.insertAllocInfo (s.infos id).context (m.targets (s.infos id).context (s.infos id).device)
        id }

/-- Chunks that the driver was asked to free, and erased from the map. -/
def freeChunks (ids : List InfoId) : AsanState :=
  { s with
    allocationMap := s.allocationMap.filter (· ∉ ids)
    heap := s.heap.filter (· ∉ ids) }

/-- The rest of `releaseMemory` for a chunk that may be released. `frees` says
which calls of `urUSMFree` succeed; the first failure ends the loop. -/
def retire (id : InfoId) (frees : InfoId → Bool) : AsanState :=
  let s := s.markReleased m id
  if m.maxQuarantineSizeMB = 0 then
    { s with
      allocationMap := s.allocationMap.filter (· ≠ id)
      heap := if frees id then s.heap.filter (· ≠ id) else s.heap }
  else
    let queue := s.quarantine (s.infos id).device
    let split := s.dequeue (m.maxQuarantineSizeMB * 1024 * 1024) (s.infos id).allocSize queue
    { s with
      quarantine :=
        Function.update s.quarantine (s.infos id).device (split.2 ++ [id]) }.freeChunks
      (split.1.takeWhile frees)

/-- `releaseMemory`. Errors of the user are reported and change nothing. -/
def releaseMemory (context : ContextId) (address : Nat) (frees : InfoId → Bool) : AsanState :=
  match s.findAllocInfoByAddress address with
  | none => s
  | some id =>
    if (s.infos id).context ≠ context then s
    else if address ≠ (s.infos id).userBegin then s
    else if (s.infos id).isReleased then s
    else s.retire m id frees

/-- How the calls of `EnqueuePoisonShadow` of one flush go. The call that fails
leaves anything in its part of the shadow. -/
inductive Flush where
  | success
  | failure (done : Nat) (left : Nat → UInt8)

/-- The calls of a flush. -/
def poisons (ids : List InfoId) : List Poison :=
  ids.flatMap fun id => (s.infos id).enqueueAllocInfo

/-- The shadow after a flush that failed at the call `done`. -/
def brokenOff (t : DeviceType) (ps : List Poison) (done : Nat) (left : Nat → UInt8) :
    Nat → UInt8 :=
  match ps[done]? with
  | none => poisoned t (s.shadow t) ps
  | some p => fun n => if p.covers t n then left n else poisoned t (s.shadow t) (ps.take done) n

/-- `updateShadowMemory`. The list is only cleared when every call succeeded. -/
def updateShadowMemory (context : ContextId) (device : Device) : Flush → AsanState
  | .success =>
    { s with
      shadow := Function.update s.shadow (m.deviceType device)
        (poisoned (m.deviceType device) (s.shadow (m.deviceType device))
          (s.poisons (s.allocInfosMap context device)))
      allocInfosMap := fun c d =>
        if c = context ∧ d = device then [] else s.allocInfosMap c d }
  | .failure done left =>
    { s with
      shadow := Function.update s.shadow (m.deviceType device)
        (s.brokenOff (m.deviceType device) (s.poisons (s.allocInfosMap context device))
          done left) }

end AsanState

end UnifiedRuntime.Sanitizer
