import UnifiedRuntime.Sanitizer.Asan
import UnifiedRuntime.Sanitizer.Quarantine

/-!
# `m_AllocationMap`, the quarantine and the statistics

The part of `AsanInterceptor` that gives memory back: `allocateMemory` and
`releaseMemory` once more, now with the sizes the quarantine records, the
statistics of the contexts and the calls of `urUSMFree`, and the device globals that
`registerProgram` and `unregisterProgram` put into the same map. The lists for the
shadow are those of `AsanState` and are left out.

`heap` is the driver's side: the blocks that are allocated there.
-/

namespace UnifiedRuntime.Sanitizer

/-! ## The state -/

abbrev ProgramId := Nat

/-- An `AllocInfo`, which may be a device global's: then its type is `DEVICE_GLOBAL`
and `type` says nothing. -/
structure Chunk extends AllocInfo where
  isGlobal : Bool

def Chunk.getRedzoneSize (x : Chunk) : Nat := sub64 x.allocSize (sub64 x.userEnd x.userBegin)

/-- `AsanStats`. The counters are `uptr`; one that underflows is negative here. -/
structure AsanStats where
  usmMalloced : Int
  usmMallocedRedzones : Int
  usmFreed : Int

namespace AsanStats

def updateUSMMalloced (st : AsanStats) (mallocedSize redzoneSize : Nat) : AsanStats :=
  { st with
    usmMalloced := st.usmMalloced + mallocedSize
    usmMallocedRedzones := st.usmMallocedRedzones + redzoneSize }

def updateUSMFreed (st : AsanStats) (freedSize : Nat) : AsanStats :=
  { st with usmFreed := st.usmFreed + freedSize }

def updateUSMRealFreed (st : AsanStats) (m : AsanSetup) (freedSize redzoneSize : Nat) :
    AsanStats where
  usmMalloced := st.usmMalloced - freedSize
  usmMallocedRedzones := st.usmMallocedRedzones - redzoneSize
  usmFreed := if m.maxQuarantineSizeMB = 0 then st.usmFreed else st.usmFreed - freedSize

end AsanStats

/-- A call of `urUSMFree` for a chunk that was in the quarantine. -/
structure DriverFree where
  chunk : InfoId
  context : ContextId
  succeeded : Bool

/-- `AllocInfo`s are shared: a table, and their indices elsewhere. An iterator of the
map is the index of its entry. `evicted` are the chunks that left the quarantine and
`frees` the calls of `urUSMFree` for them, both in their order. -/
structure HeapState where
  infos : InfoId → Chunk
  nextInfo : InfoId
  allocationMap : List InfoId
  quarantine : Quarantine (Option Device) InfoId
  stats : ContextId → AsanStats
  globals : ProgramId → List InfoId
  heap : List InfoId
  evicted : List InfoId
  frees : List DriverFree

namespace HeapState

variable (m : AsanSetup) (s : HeapState)

/-- `AllocSize` as the quarantine adds it up. -/
def allocSize (id : InfoId) : UInt64 := UInt64.ofNat (s.infos id).allocSize

/-- `m_AllocationMap.emplace`, which keeps an entry that has the key already. -/
def emplace (x : Chunk) : HeapState :=
  { s with
    infos := Function.update s.infos s.nextInfo x
    nextInfo := s.nextInfo + 1
    allocationMap :=
      if s.allocationMap.any fun id => (s.infos id).allocBegin == x.allocBegin then s.allocationMap
      else s.nextInfo :: s.allocationMap }

def updateStats (context : ContextId) (f : AsanStats → AsanStats) : HeapState :=
  { s with stats := Function.update s.stats context (f (s.stats context)) }

/-- `allocateMemory`, with the memory that the driver returns or `none` when it
fails. -/
def allocateMemory (r : AllocRequest) (answer : Option Nat) : HeapState :=
  if r.align &&& (r.align - 1) ≠ 0 then s
  else
    match answer with
    | none => s
    | some allocBegin =>
      let x : Chunk := { r.info m allocBegin with isGlobal := false }
      let s' := s.updateStats r.context
        (·.updateUSMMalloced (r.neededSize m) (sub64 (r.neededSize m) r.size))
      { s'.emplace x with heap := s.nextInfo :: s.heap }

/-- `findAllocInfoByAddress`: the entry before the first one beyond the address, if
the address lies in it. -/
def findAllocInfoByAddress (address : Nat) : Option InfoId :=
  match (s.allocationMap.filter fun id => decide ((s.infos id).allocBegin ≤ address)).argmax
      fun id => (s.infos id).allocBegin with
  | none => none
  | some id =>
    if address < (s.infos id).allocBegin ∨
        add64 (s.infos id).allocBegin (s.infos id).allocSize ≤ address then none
    else some id

/-- `IsReleased = true`. -/
def markReleased (id : InfoId) : HeapState :=
  { s with infos := Function.update s.infos id { s.infos id with isReleased := true } }

/-- `UpdateUSMRealFreed` for a chunk, in the statistics of some context. -/
def realFreed (context : ContextId) (id : InfoId) : HeapState :=
  s.updateStats context
    (·.updateUSMRealFreed m (s.infos id).allocSize (s.infos id).getRedzoneSize)

/-- What the driver has left of a chunk after `urUSMFree`. -/
def afterFree (id : InfoId) (succeeded : Bool) : List InfoId :=
  if succeeded then s.heap.filter (· ≠ id) else s.heap

/-- `m_AllocationMap.erase` of an iterator. -/
def erase (id : InfoId) : HeapState :=
  { s with allocationMap := s.allocationMap.filter (· ≠ id) }

/-- The loop over the release list. The context is that of the release; a free that
fails ends the loop. -/
def freeLoop (context : ContextId) (frees : InfoId → Bool) : List InfoId → HeapState →
    HeapState × Bool
  | [], s => (s, true)
  | id :: rest, s =>
    let s := s.realFreed m context id
    let s := { s with
      heap := s.afterFree id (frees id)
      frees := s.frees ++ [⟨id, context, frees id⟩] }
    if frees id then freeLoop context frees rest (s.erase id) else (s, false)

/-- `m_Quarantine->put` for a chunk. -/
def putQuarantine (id : InfoId) : HeapState × List InfoId :=
  let (quarantine, releaseList) := s.quarantine.put s.allocSize (s.infos id).device id
  ({ s with quarantine, evicted := s.evicted ++ releaseList }, releaseList)

/-- The rest of `releaseMemory` for a chunk that may be released. `frees` says
which calls of `urUSMFree` succeed. -/
def retire (context : ContextId) (id : InfoId) (frees : InfoId → Bool) : HeapState :=
  let s := s.markReleased id
  if m.maxQuarantineSizeMB = 0 then
    let s := (s.realFreed m context id).erase id
    { s with heap := s.afterFree id (frees id) }
  else
    let (s, releaseList) := s.putQuarantine id
    let (s, done) := freeLoop m context frees releaseList s
    if done then s.updateStats context (·.updateUSMFreed (s.infos id).allocSize) else s

/-- The chunk that a call of `releaseMemory` releases. Errors of the user are reported
and change nothing. -/
def released (context : ContextId) (address : Nat) : Option InfoId :=
  match s.findAllocInfoByAddress address with
  | none => none
  | some id =>
    if (s.infos id).context ≠ context then none
    else if address ≠ (s.infos id).userBegin then none
    else if (s.infos id).isReleased then none
    else some id

def releaseMemory (context : ContextId) (address : Nat) (frees : InfoId → Bool) : HeapState :=
  match s.released context address with
  | none => s
  | some id => s.retire m context id frees

end HeapState

/-! ## Device globals -/

structure DeviceGlobalInfo where
  size : Nat
  sizeWithRedZone : Nat
  addr : Nat

/-- What `registerDeviceGlobals` finds on one device: no metadata, metadata that it
cannot read, or the globals. -/
inductive GlobalsRead where
  | noMetadata
  | readFailed
  | globals (infos : List DeviceGlobalInfo)

def DeviceGlobalInfo.chunk (g : DeviceGlobalInfo) (context : ContextId) (device : Device) :
    Chunk where
  allocBegin := g.addr
  userBegin := g.addr
  userEnd := add64 g.addr g.size
  allocSize := g.sizeWithRedZone
  type := .deviceUsm
  isReleased := false
  context := context
  device := some device
  isGlobal := true

/-- The globals that are registered: those of the devices before the first one that
cannot be read. -/
def readGlobals (context : ContextId) : List (Device × GlobalsRead) → List Chunk
  | [] => []
  | (device, .globals infos) :: rest =>
    infos.map (·.chunk context device) ++ readGlobals context rest
  | (_, .noMetadata) :: rest => readGlobals context rest
  | (_, .readFailed) :: _ => []

namespace HeapState

variable (s : HeapState)

/-- The block is allocated in the driver since the program was built, and may have
been registered before. -/
def buildGlobal (x : Chunk) (id : InfoId) : List InfoId :=
  if s.heap.any fun j => (s.infos j).allocBegin == x.allocBegin then s.heap else id :: s.heap

/-- One global of `registerDeviceGlobals`. -/
def registerGlobal (program : ProgramId) (x : Chunk) : HeapState :=
  { s.emplace x with
    globals := Function.update s.globals program (s.nextInfo :: s.globals program)
    heap := s.buildGlobal x s.nextInfo }

/-- `registerProgram`. Without its kernels' metadata nothing is registered. -/
def registerProgram (program : ProgramId) (context : ContextId) (spirKernels : Bool)
    (reads : List (Device × GlobalsRead)) : HeapState :=
  if spirKernels then
    (readGlobals context reads).foldl (fun s x => s.registerGlobal program x) s
  else s

/-- The key of an entry is that of a global of the program. -/
def keyOf (program : ProgramId) (id : InfoId) : Bool :=
  (s.globals program).any fun g => (s.infos g).allocBegin == (s.infos id).allocBegin

/-- `unregisterProgram`, which erases by key. -/
def unregisterProgram (program : ProgramId) : HeapState :=
  { s with
    allocationMap := s.allocationMap.filter fun id => !s.keyOf program id
    globals := Function.update s.globals program [] }

/-- The driver's part of `urProgramRelease`, before `unregisterProgram`: the blocks of
the program's globals are free. -/
def driverProgramRelease (program : ProgramId) : HeapState :=
  { s with heap := s.heap.filter fun id => !((s.infos id).isGlobal && s.keyOf program id) }

end HeapState

inductive HeapOp where
  | allocateMemory (r : AllocRequest) (answer : Option Nat)
  | releaseMemory (context : ContextId) (address : Nat) (frees : InfoId → Bool)
  | registerProgram (program : ProgramId) (context : ContextId) (spirKernels : Bool)
      (reads : List (Device × GlobalsRead))
  | driverProgramRelease (program : ProgramId)
  | unregisterProgram (program : ProgramId)

def HeapState.step (m : AsanSetup) (s : HeapState) : HeapOp → HeapState
  | .allocateMemory r answer => s.allocateMemory m r answer
  | .releaseMemory context address frees => s.releaseMemory m context address frees
  | .registerProgram program context spirKernels reads =>
    s.registerProgram program context spirKernels reads
  | .driverProgramRelease program => s.driverProgramRelease program
  | .unregisterProgram program => s.unregisterProgram program

/-- A new interceptor. -/
def HeapState.init (m : AsanSetup) (noChunk : Chunk) : HeapState where
  infos := fun _ => noChunk
  nextInfo := 0
  allocationMap := []
  quarantine := .init (UInt64.ofNat (m.maxQuarantineSizeMB * 1024 * 1024))
  stats := fun _ => ⟨0, 0, 0⟩
  globals := fun _ => []
  heap := []
  evicted := []
  frees := []

end UnifiedRuntime.Sanitizer
