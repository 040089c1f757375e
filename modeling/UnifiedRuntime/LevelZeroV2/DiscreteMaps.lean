import UnifiedRuntime.LevelZeroV2.Memory

/-!
# Maps of a discrete buffer

`mapHostPtr` and `unmapHostPtr` of one discrete buffer, with what `Memory` leaves out: the
calls of the pool and of the copy may throw, and a mapping that is erased runs the deleter of
its pointer.

The deleter's flag `ownsAlloc` is `bool(mapToPtr)`, which is set for the application's pointer
and not for the memory that the pool gave. `mapToPtr` is set by the constructor and never
again, so the flag is the same for every mapping.

The protocol keeps its own account of a run, from the calls and from what they return: the
bytes of the buffer, and for each live mapping what is to be seen through it.
-/

namespace UnifiedRuntime.LevelZeroV2.Maps

/-- Memory, the buffer, the names that are not in use, and how often the pool was given a
block back. -/
structure MapState where
  mem : Memory
  buffer : DiscreteBuffer
  maps : Nat
  freed : Block → Nat

/-- A call returns (a map with its pointer) or throws. -/
inductive Answer where
  | mapped (p : Ptr)
  | done
  | thrown

/-- `hostAllocations.emplace_back`, and the copy. -/
def pushMapping (s : MapState) (ptr : Ptr) (flags : MapFlags) (offset size : Nat)
    (copies : Bool) : MapState × Answer :=
  let s' := { s with buffer := { s.buffer with
    hostAllocations := s.buffer.hostAllocations ++ [⟨ptr, size, offset, flags⟩] } }
  match s.buffer.getActiveDeviceAlloc offset with
  | some src =>
    if flags.read then
      if copies then ({ s' with mem := s.mem.copy ptr src size }, .mapped ptr)
      else (s', .thrown)
    else (s', .mapped ptr)
  | none => (s', .mapped ptr)

/-- `mapHostPtr` of the buffer `b`; `allocates` and `copies` say whether the pool has memory
and the copy can be appended. -/
def mapHostPtr (b : Nat) (s : MapState) (flags : MapFlags) (offset size : Nat)
    (allocates copies : Bool) : MapState × Answer :=
  match s.buffer.mapToPtr with
  | some blk => pushMapping s ⟨blk, 0⟩ flags offset size copies
  | none =>
    if allocates then
      pushMapping { s with maps := s.maps + 1 } ⟨.mapped b s.maps, 0⟩ flags offset size copies
    else (s, .thrown)

/-- `hostAllocations.erase(hostAlloc)` with the deleter of the pointer. -/
def eraseMapping (s : MapState) (p : Ptr) : MapState :=
  let ownsAlloc := s.buffer.mapToPtr.isSome
  { s with
    buffer := { s.buffer with
      hostAllocations := s.buffer.hostAllocations.eraseP (·.ptr == p) }
    freed :=
      if ownsAlloc then Function.update s.freed p.block (s.freed p.block + 1) else s.freed }

/-- Copy back what the mapping has and erase it. -/
def writeBack (s : MapState) (p : Ptr) (hostAlloc : HostAllocation) (copies : Bool) :
    MapState × Answer :=
  match s.buffer.getActiveDeviceAlloc hostAlloc.offset with
  | some dst =>
    if copies then
      (eraseMapping { s with mem := s.mem.copy dst hostAlloc.ptr hostAlloc.size } p, .done)
    else (s, .thrown)
  | none => (eraseMapping s p, .done)

/-- `!activeAllocationDevice && shouldMigrateToDevice`. -/
def needsAlloc (m : DiscreteBuffer) (hostAlloc : HostAllocation) : Bool :=
  m.activeAllocationDevice.isNone && !hostAlloc.flags.writeInvalidateRegion

/-- `unmapHostPtr`. -/
def unmapHostPtr (c : MemContext) (b : Nat) (s : MapState) (p : Ptr) (allocates copies : Bool) :
    MapState × Answer :=
  match s.buffer.hostAllocations.find? (·.ptr == p) with
  | none => (s, .thrown)
  | some hostAlloc =>
    if needsAlloc s.buffer hostAlloc then
      if allocates then
        writeBack { s with buffer := s.buffer.allocateOnDevice b c.firstDevice } p hostAlloc copies
      else (s, .thrown)
    else writeBack s p hostAlloc copies

/-- The host writes a byte through a mapping that it has. -/
def hostWrite (s : MapState) (p : Ptr) (i byte : Nat) : MapState :=
  if s.buffer.hostAllocations.any (fun e => e.ptr == p && i < e.size) then
    { s with mem := s.mem.store (p.add i) 1 fun _ => some byte }
  else s

/-! ## The protocol -/

/-- A live mapping, with what is to be seen through it. -/
structure LiveMap where
  entry : HostAllocation
  view : Nat → Option Nat

def LiveMap.ptr (m : LiveMap) : Ptr := m.entry.ptr

/-- Neither flag that lets the host write. -/
def LiveMap.readOnly (m : LiveMap) : Bool :=
  !m.entry.flags.write && !m.entry.flags.writeInvalidateRegion

/-- The bytes of the buffer and the live mappings; a byte that is `none` may be anything. -/
structure Protocol where
  contents : Nat → Option Nat
  live : List LiveMap

/-- What a mapping has replaces its region, unless it is read-only. -/
def LiveMap.writtenBack (m : LiveMap) (contents : Nat → Option Nat) : Nat → Option Nat := fun i =>
  if m.readOnly = false ∧ m.entry.offset ≤ i ∧ i < m.entry.offset + m.entry.size then
    m.view (i - m.entry.offset)
  else contents i

/-- The host has written the byte. -/
def LiveMap.wrote (p : Ptr) (i byte : Nat) (m : LiveMap) : LiveMap :=
  if m.ptr = p ∧ i < m.entry.size then { m with view := Function.update m.view i (some byte) }
  else m

inductive MapCall where
  | map (flags : MapFlags) (offset size : Nat) (allocates copies : Bool)
  | unmap (p : Ptr) (allocates copies : Bool)
  | hostWrite (p : Ptr) (i byte : Nat)

/-- **What a call means**, given what it returned. -/
def Protocol.step (t : Protocol) : MapCall → Answer → Protocol
  | .map flags offset size _ _, .mapped p =>
    { t with live := t.live ++ [⟨⟨p, size, offset, flags⟩, fun i => t.contents (offset + i)⟩] }
  | .unmap p _ _, .done =>
    match t.live.find? (·.ptr == p) with
    | some m => ⟨m.writtenBack t.contents, t.live.eraseP (·.ptr == p)⟩
    | none => t
  | .hostWrite p i byte, _ => { t with live := t.live.map (LiveMap.wrote p i byte) }
  | _, _ => t

/-- What a call does. -/
def MapState.step (c : MemContext) (b : Nat) (s : MapState) : MapCall → MapState × Answer
  | .map flags offset size allocates copies => mapHostPtr b s flags offset size allocates copies
  | .unmap p allocates copies => unmapHostPtr c b s p allocates copies
  | .hostWrite p i byte => (hostWrite s p i byte, .done)

/-- The buffer, the protocol's account, and the pointers that have been unmapped. -/
structure MapRun where
  state : MapState
  protocol : Protocol
  unmapped : List Ptr

/-- The pointer of an unmap that succeeded. -/
def unmappedBy : MapCall → Answer → List Ptr
  | .unmap p _ _, .done => [p]
  | _, _ => []

def MapRun.step (c : MemContext) (b : Nat) (r : MapRun) (op : MapCall) : MapRun :=
  let next := r.state.step c b op
  ⟨next.1, r.protocol.step op next.2, r.unmapped ++ unmappedBy op next.2⟩

def MapRun.run (c : MemContext) (b : Nat) (r : MapRun) (ops : List MapCall) : MapRun :=
  ops.foldl (MapRun.step c b) r

/-- A byte of the buffer, where it has an allocation. -/
def deviceByte (s : MapState) (i : Nat) : Option Nat :=
  (s.buffer.getActiveDeviceAlloc i).bind fun p => s.mem.byteAt p 0

/-- The start of a run. -/
def MapRun.start (s : MapState) : MapRun := ⟨s, ⟨deviceByte s, []⟩, []⟩

/-! ## Agreement with the protocol -/

/-- **Mappings show and change their own bytes**: the buffer has the protocol's bytes, the
mappings are the protocol's, and through each the protocol's view is seen. -/
structure Agrees (s : MapState) (t : Protocol) : Prop where
  contents : ∀ i v, t.contents i = some v → deviceByte s i = some v
  live : s.buffer.hostAllocations = t.live.map LiveMap.entry
  view : ∀ m ∈ t.live, ∀ i v, i < m.entry.size → m.view i = some v →
    s.mem.byteAt m.ptr i = some v

/-- **Memory is freed by its owner**: the application's never, and the memory of a mapping that
is no longer live exactly once. -/
structure OwnershipRight (b : Nat) (s : MapState) : Prop where
  user : ∀ blk, s.buffer.mapToPtr = some blk → s.freed blk = 0
  staging : s.buffer.mapToPtr = none → ∀ k < s.maps,
    s.freed (.mapped b k) =
      if ∃ e ∈ s.buffer.hostAllocations, e.ptr.block = .mapped b k then 0 else 1

/-- A buffer that was just made: no mapping, and memory of its own. -/
structure Start (b : Nat) (s : MapState) : Prop where
  unmapped : s.buffer.hostAllocations = []
  fresh : s.maps = 0
  unfreed : ∀ blk, s.freed blk = 0
  /-- the application's memory is neither the device's nor the pool's -/
  user : ∀ blk, s.buffer.mapToPtr = some blk →
    (∀ d, blk ≠ .device b d) ∧ ∀ k, blk ≠ .mapped b k
  active : ∀ d, s.buffer.activeAllocationDevice = some d → ∃ blk,
    s.buffer.deviceAllocations d = some blk ∧ s.buffer.mapToPtr ≠ some blk ∧
      ∀ k, blk ≠ .mapped b k

/-- The condition on a call: a map of bytes that the buffer has is one for reading, its copy is
appended, and the application's pointer is lent to one mapping at a time; what an unmap of a
read-only mapping copies is what the buffer has, and an unmap that discards the region has an
allocation to copy to, or nothing to copy. -/
def MapCall.Meets (s : MapState) (t : Protocol) : MapCall → Prop
  | .map flags offset size _ copies =>
    (flags.read = true ∨ ∀ i < size, t.contents (offset + i) = none) ∧
    (flags.read = true → s.buffer.activeAllocationDevice.isSome = true → copies = true) ∧
    (s.buffer.mapToPtr.isSome = true → t.live = [])
  | .unmap p _ copies => ∀ m, t.live.find? (·.ptr == p) = some m →
    (copies = true → m.readOnly = true →
      ∀ i v, i < m.entry.size → t.contents (m.entry.offset + i) = some v → m.view i = some v) ∧
    (m.entry.flags.writeInvalidateRegion = true → s.buffer.activeAllocationDevice = none →
      ∀ i < m.entry.size, m.view i = none)
  | .hostWrite _ _ _ => True

/-- Every call of a run meets the condition. -/
def AllMeet (c : MemContext) (b : Nat) : MapRun → List MapCall → Prop
  | _, [] => True
  | r, op :: ops => op.Meets r.state r.protocol ∧ AllMeet c b (r.step c b op) ops

end UnifiedRuntime.LevelZeroV2.Maps
