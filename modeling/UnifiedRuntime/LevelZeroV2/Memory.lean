import Mathlib

/-!
# Memory buffers of the v2 adapter

`memory.cpp` has an integrated buffer, whose allocation the host and the device share,
a discrete buffer, which has an allocation on a device and copies for the host's maps,
and sub-buffers, which are a range of another buffer. Commands get at the bytes with
`getDevicePtr`, maps with `mapHostPtr` and `unmapHostPtr`.

Commands run one after the other here. A byte that nobody has written is `none`. The
allocations have names of their own; those of maps are never given back (the deleter's
`ownsAlloc` is set for the application's pointer and not for these).
-/

namespace UnifiedRuntime.LevelZeroV2

open Function (update)

/-! ## Memory -/

/-- An allocation for buffer `b`: of an integrated buffer, the application's (a host
pointer or native memory), on a device, for the map `k`. -/
inductive Block where
  | shared (b : Nat)
  | user (b : Nat)
  | device (b d : Nat)
  | mapped (b k : Nat)
deriving DecidableEq

structure Ptr where
  block : Block
  offset : Nat
deriving DecidableEq

def Ptr.add (p : Ptr) (n : Nat) : Ptr := ⟨p.block, p.offset + n⟩

abbrev Memory := Block → Nat → Option Nat

namespace Memory

/-- Stores the first `n` bytes of `data`. -/
def store (mem : Memory) (p : Ptr) (n : Nat) (data : Nat → Option Nat) : Memory := fun blk i =>
  if blk = p.block ∧ p.offset ≤ i ∧ i < p.offset + n then data (i - p.offset) else mem blk i

/-- The `i`-th byte from a pointer. -/
def byteAt (mem : Memory) (p : Ptr) (i : Nat) : Option Nat := mem p.block (p.offset + i)

/-- `zeCommandListAppendMemoryCopy`. -/
def copy (mem : Memory) (dst src : Ptr) (n : Nat) : Memory := mem.store dst n (mem.byteAt src)

end Memory

/-! ## Buffers -/

/-- `ur_map_flags_t`. -/
structure MapFlags where
  read : Bool
  write : Bool
  writeInvalidateRegion : Bool
deriving DecidableEq

/-- `host_allocation_desc_t`. -/
structure HostAllocation where
  ptr : Ptr
  size : Nat
  offset : Nat
  flags : MapFlags
deriving DecidableEq

/-- `ur_discrete_buffer_handle_t`. -/
structure DiscreteBuffer where
  size : Nat
  deviceAllocations : Nat → Option Block
  activeAllocationDevice : Option Nat
  mapToPtr : Option Block
  hostAllocations : List HostAllocation

/-- A buffer that is not a sub-buffer. -/
inductive RootBuffer where
  | integrated (size : Nat) (ptr : Block)
  | discrete (m : DiscreteBuffer)

def RootBuffer.size : RootBuffer → Nat
  | .integrated size _ => size
  | .discrete m => m.size

/-- A buffer or a sub-buffer (of a buffer or sub-buffer). -/
inductive BufferHandle where
  | root (b : Nat)
  | sub (hParent : BufferHandle) (offset size : Nat)

/-- The first device of the context, and which devices can access which. -/
structure MemContext where
  firstDevice : Nat
  p2p : Nat → Nat → Bool

/-- Memory, buffers, and the pointers that the application has from its maps. -/
structure MemState where
  mem : Memory
  buffers : Nat → Option RootBuffer
  ptrs : Nat → Option Ptr
  maps : Nat

namespace DiscreteBuffer

def allocateOnDevice (m : DiscreteBuffer) (b d : Nat) : DiscreteBuffer :=
  { m with
    deviceAllocations := update m.deviceAllocations d (some (.device b d))
    activeAllocationDevice := some d }

def getActiveDeviceAlloc (m : DiscreteBuffer) (offset : Nat) : Option Ptr :=
  (m.activeAllocationDevice.bind m.deviceAllocations).map fun blk => ⟨blk, offset⟩

/-- `getDevicePtr`; it throws if the device has no access to the active one's memory. -/
def getDevicePtr (c : MemContext) (m : DiscreteBuffer) (b d offset : Nat) :
    Option (DiscreteBuffer × Ptr) :=
  let m := if m.activeAllocationDevice.isNone then m.allocateOnDevice b d else m
  m.activeAllocationDevice.bind fun active =>
    if active = d ∨ c.p2p d active = true then
      (m.getActiveDeviceAlloc offset).map fun p => (m, p)
    else none

end DiscreteBuffer

namespace MemState

def setBuffer (s : MemState) (b : Nat) (root : RootBuffer) : MemState :=
  { s with buffers := update s.buffers b (some root) }

def getDevicePtr (c : MemContext) (s : MemState) (d : Nat) : BufferHandle → Nat →
    Option (MemState × Ptr)
  | .root b, offset =>
    (s.buffers b).bind fun
      | .integrated _ ptr => some (s, ⟨ptr, 0⟩)
      | .discrete m =>
        (m.getDevicePtr c b d offset).map fun r => (s.setBuffer b (.discrete r.1), r.2)
  | .sub hParent start _, offset => s.getDevicePtr c d hParent (offset + start)

/-- `mapHostPtr` of a discrete buffer. -/
def mapDiscrete (s : MemState) (b : Nat) (m : DiscreteBuffer) (flags : MapFlags)
    (offset size : Nat) : MemState × Ptr :=
  let ptr : Ptr := ⟨m.mapToPtr.getD (.mapped b s.maps), 0⟩
  let s' := s.setBuffer b (.discrete { m with
    hostAllocations := m.hostAllocations ++ [⟨ptr, size, offset, flags⟩] })
  match m.getActiveDeviceAlloc offset with
  | some src => if flags.read then ({ s' with mem := s.mem.copy ptr src size }, ptr) else (s', ptr)
  | none => (s', ptr)

def mapHostPtr (s : MemState) (flags : MapFlags) : BufferHandle → Nat → Nat →
    Option (MemState × Ptr)
  | .root b, offset, size =>
    (s.buffers b).map fun
      | .integrated _ ptr => (s, ⟨ptr, 0⟩)
      | .discrete m => s.mapDiscrete b m flags offset size
  | .sub hParent start _, offset, size => s.mapHostPtr flags hParent (offset + start) size

/-- `unmapHostPtr` of a discrete buffer. -/
def unmapDiscrete (c : MemContext) (s : MemState) (b : Nat) (m : DiscreteBuffer) (p : Ptr) :
    Option MemState :=
  (m.hostAllocations.find? fun e => e.ptr == p).map fun hostAlloc =>
    let shouldMigrateToDevice := !hostAlloc.flags.writeInvalidateRegion
    let m :=
      if m.activeAllocationDevice.isNone && shouldMigrateToDevice then
        m.allocateOnDevice b c.firstDevice
      else m
    let s := s.setBuffer b (.discrete { m with
      hostAllocations := m.hostAllocations.erase hostAlloc })
    match m.getActiveDeviceAlloc hostAlloc.offset with
    | some dst => { s with mem := s.mem.copy dst hostAlloc.ptr hostAlloc.size }
    | none => s

def unmapHostPtr (c : MemContext) (s : MemState) : BufferHandle → Ptr → Option MemState
  | .root b, p =>
    (s.buffers b).bind fun
      | .integrated _ _ => some s
      | .discrete m => s.unmapDiscrete c b m p
  | .sub hParent _ _, p => s.unmapHostPtr c hParent p

end MemState

/-! ## Creation -/

/-- How a buffer is made: from a host pointer or without, or from native memory of the
host or of a device. -/
inductive CreateKind where
  | integrated (hostPtr : Bool)
  | integratedImported
  | discrete (hostPtr : Bool)
  | discreteNative (d : Nat)
  | discreteNativeHost

/-- The application's memory is part of the buffer from the start. -/
def CreateKind.hasContents : CreateKind → Bool
  | .integrated hostPtr | .discrete hostPtr => hostPtr
  | .integratedImported | .discreteNative _ | .discreteNativeHost => true

/-- The constructors. -/
def MemState.create (c : MemContext) (s : MemState) (b size : Nat) : CreateKind → MemState
  | .integrated hostPtr =>
    let s := s.setBuffer b (.integrated size (.shared b))
    if hostPtr then { s with mem := s.mem.copy ⟨.shared b, 0⟩ ⟨.user b, 0⟩ size } else s
  | .integratedImported => s.setBuffer b (.integrated size (.user b))
  | .discrete hostPtr =>
    let m : DiscreteBuffer := ⟨size, fun _ => none, none, none, []⟩
    if hostPtr then
      let s := s.setBuffer b
        (.discrete { m.allocateOnDevice b c.firstDevice with mapToPtr := some (.user b) })
      { s with mem := s.mem.copy ⟨.device b c.firstDevice, 0⟩ ⟨.user b, 0⟩ size }
    else s.setBuffer b (.discrete m)
  | .discreteNative d =>
    s.setBuffer b (.discrete
      ⟨size, update (fun _ => none) d (some (.user b)), some d, none, []⟩)
  | .discreteNativeHost =>
    -- the host's memory is written back on release; nothing is read from it here
    s.setBuffer b (.discrete
      (DiscreteBuffer.allocateOnDevice ⟨size, fun _ => none, none, none, []⟩ b c.firstDevice))

/-! ## Steps -/

namespace BufferHandle

def rootOf : BufferHandle → Nat
  | .root b => b
  | .sub hParent _ _ => hParent.rootOf

/-- Where a handle starts in its root. -/
def origin : BufferHandle → Nat
  | .root _ => 0
  | .sub hParent offset _ => hParent.origin + offset

/-- The size of a handle. -/
def size (sizes : Nat → Option Nat) : BufferHandle → Option Nat
  | .root b => sizes b
  | .sub _ _ size => some size

/-- The sub-buffers are within their parents. -/
def InRange (sizes : Nat → Option Nat) : BufferHandle → Prop
  | .root b => (sizes b).isSome
  | .sub hParent offset size =>
    hParent.InRange sizes ∧ ∃ n, hParent.size sizes = some n ∧ offset + size ≤ n

/-- The bytes are within the handle. -/
def Has (sizes : Nat → Option Nat) (h : BufferHandle) (offset n : Nat) : Prop :=
  h.InRange sizes ∧ ∃ m, h.size sizes = some m ∧ offset + n ≤ m

end BufferHandle

/-- A write or read at `index` from the pointer for `offset`: commands have index 0,
kernels offset 0. The map `k` is the application's `k`-th. -/
inductive BufferOp where
  | create (b size : Nat) (kind : CreateKind)
  | write (d : Nat) (h : BufferHandle) (offset index : Nat) (bytes : List Nat)
  | read (d : Nat) (h : BufferHandle) (offset index n : Nat)
  | copy (d : Nat) (hSrc hDst : BufferHandle) (srcOffset dstOffset n : Nat)
  | map (h : BufferHandle) (flags : MapFlags) (offset size : Nat)
  | unmap (h : BufferHandle) (k : Nat)
  | hostWrite (k i byte : Nat)
  | hostRead (k i : Nat)

/-- What the step of the code does, with the bytes it returns. -/
def MemState.step (c : MemContext) (s : MemState) : BufferOp →
    Option (MemState × List (Option Nat))
  | .create b size kind =>
    if (s.buffers b).isSome then none else some (s.create c b size kind, [])
  | .write d h offset index bytes =>
    (s.getDevicePtr c d h offset).map fun (s, p) =>
      ({ s with mem := s.mem.store (p.add index) bytes.length fun i => bytes[i]? }, [])
  | .read d h offset index n =>
    (s.getDevicePtr c d h offset).map fun (s, p) =>
      (s, (List.range n).map (s.mem.byteAt (p.add index)))
  | .copy d hSrc hDst srcOffset dstOffset n =>
    (s.getDevicePtr c d hSrc srcOffset).bind fun (s, src) =>
      (s.getDevicePtr c d hDst dstOffset).map fun (s, dst) =>
        ({ s with mem := s.mem.copy dst src n }, [])
  | .map h flags offset size =>
    (s.mapHostPtr flags h offset size).map fun (s, p) =>
      ({ s with ptrs := update s.ptrs s.maps (some p), maps := s.maps + 1 }, [])
  | .unmap h k =>
    (s.ptrs k).bind fun p => (s.unmapHostPtr c h p).map fun s => (s, [])
  | .hostWrite k i byte =>
    (s.ptrs k).map fun p => ({ s with mem := s.mem.store (p.add i) 1 fun _ => some byte }, [])
  | .hostRead k i => (s.ptrs k).map fun p => (s, [s.mem.byteAt p i])

/-! ## Plain arrays -/

/-- A mapped range of a buffer, and which of its bytes the host has written. -/
structure Window where
  buffer : Nat
  offset : Nat
  size : Nat
  flags : MapFlags
  written : Nat → Bool

def Window.writable (w : Window) : Bool := w.flags.write || w.flags.writeInvalidateRegion

/-- Each buffer is an array of bytes; a map is a window on it. -/
structure PlainState where
  sizes : Nat → Option Nat
  arrays : Nat → Nat → Option Nat
  windows : Nat → Option Window
  maps : Nat

namespace PlainState

def setBytes (t : PlainState) (b start n : Nat) (data : Nat → Option Nat) : PlainState :=
  { t with
    arrays := fun b' i =>
      if b' = b ∧ start ≤ i ∧ i < start + n then data (i - start) else t.arrays b' i }

def step (user : Nat → Nat → Option Nat) (t : PlainState) : BufferOp →
    PlainState × List (Option Nat)
  | .create b size kind =>
    ({ t with
        sizes := update t.sizes b (some size)
        arrays := update t.arrays b fun i => if kind.hasContents then user b i else none },
      [])
  | .write _ h offset index bytes =>
    (t.setBytes h.rootOf (h.origin + offset + index) bytes.length fun i => bytes[i]?, [])
  | .read _ h offset index n =>
    (t, (List.range n).map fun i => t.arrays h.rootOf (h.origin + offset + index + i))
  | .copy _ hSrc hDst srcOffset dstOffset n =>
    (t.setBytes hDst.rootOf (hDst.origin + dstOffset) n fun i =>
      t.arrays hSrc.rootOf (hSrc.origin + srcOffset + i), [])
  | .map h flags offset size =>
    let w : Window := ⟨h.rootOf, h.origin + offset, size, flags, fun _ => false⟩
    let t' : PlainState :=
      { t with windows := update t.windows t.maps (some w), maps := t.maps + 1 }
    -- what the region had is discarded
    if flags.writeInvalidateRegion then (t'.setBytes w.buffer w.offset size fun _ => none, [])
    else (t', [])
  | .unmap _ k => ({ t with windows := update t.windows k none }, [])
  | .hostWrite k i byte =>
    match t.windows k with
    | some w =>
      let w' : Window := { w with written := update w.written i true }
      ({ t.setBytes w.buffer (w.offset + i) 1 fun _ => some byte with
        windows := update t.windows k (some w') }, [])
    | none => (t, [])
  | .hostRead k i => (t, [(t.windows k).bind fun w => t.arrays w.buffer (w.offset + i)])

end PlainState

/-! ## Conditions -/

/-- The window has some of the bytes. -/
def Window.Overlaps (w : Window) (b start n : Nat) : Prop :=
  w.buffer = b ∧ ∃ i, (w.offset ≤ i ∧ i < w.offset + w.size) ∧ start ≤ i ∧ i < start + n

namespace PlainState

/-- No window has any of the bytes. -/
def Unmapped (t : PlainState) (b start n : Nat) : Prop :=
  ∀ k w, t.windows k = some w → ¬ w.Overlaps b start n

/-- No window that the host may write has any of the bytes. -/
def Unwritten (t : PlainState) (b start n : Nat) : Prop :=
  ∀ k w, t.windows k = some w → w.writable = true → ¬ w.Overlaps b start n

/-- The host can read the byte through the window. -/
def Readable (t : PlainState) (w : Window) (i : Nat) : Prop :=
  w.flags.read = true ∨ w.written i = true ∨ t.arrays w.buffer (w.offset + i) = none

end PlainState

/-- What an operation may be: its bytes are in range, and its map is there. -/
def BufferOp.Legal (t : PlainState) : BufferOp → Prop
  | .create _ _ _ => True
  | .write _ h offset index bytes => h.Has t.sizes (offset + index) bytes.length
  | .read _ h offset index n => h.Has t.sizes (offset + index) n
  | .copy _ hSrc hDst srcOffset dstOffset n =>
    hSrc.Has t.sizes srcOffset n ∧ hDst.Has t.sizes dstOffset n
  | .map h _ offset size => h.Has t.sizes offset size
  | .unmap h k => h.InRange t.sizes ∧ ∃ w, t.windows k = some w ∧ w.buffer = h.rootOf
  | .hostWrite k i _ => ∃ w, t.windows k = some w ∧ i < w.size ∧ w.writable = true
  | .hostRead k i => ∃ w, t.windows k = some w ∧ i < w.size

/-- An integrated buffer is used from its start; of a discrete buffer `P`. -/
def MemState.ByKind (s : MemState) (b start : Nat) (P : DiscreteBuffer → Prop) : Prop :=
  match s.buffers b with
  | some (.integrated _ _) => start = 0
  | some (.discrete m) => P m
  | none => True

/-- The condition on a step. -/
def BufferOp.Meets (s : MemState) (t : PlainState) : BufferOp → Prop
  | .create _ _ kind => kind ≠ .discreteNativeHost
  | .write _ h offset index bytes =>
    s.ByKind h.rootOf (h.origin + offset) fun _ =>
      t.Unmapped h.rootOf (h.origin + offset + index) bytes.length
  | .read _ h offset index n =>
    s.ByKind h.rootOf (h.origin + offset) fun _ =>
      t.Unwritten h.rootOf (h.origin + offset + index) n
  | .copy _ hSrc hDst srcOffset dstOffset n =>
    (s.ByKind hSrc.rootOf (hSrc.origin + srcOffset) fun _ =>
      t.Unwritten hSrc.rootOf (hSrc.origin + srcOffset) n) ∧
    s.ByKind hDst.rootOf (hDst.origin + dstOffset) fun _ =>
      t.Unmapped hDst.rootOf (hDst.origin + dstOffset) n
  | .map h flags offset size =>
    s.ByKind h.rootOf (h.origin + offset) fun m =>
      -- the application's pointer is lent to one map at a time
      (m.mapToPtr.isSome → ∀ k w, t.windows k = some w → w.buffer ≠ h.rootOf) ∧
      if flags.write || flags.writeInvalidateRegion then
        t.Unmapped h.rootOf (h.origin + offset) size
      else t.Unwritten h.rootOf (h.origin + offset) size
  | .unmap h k => ∀ w, t.windows k = some w →
    s.ByKind h.rootOf 0 fun m => (∀ i, i < w.size → t.Readable w i) ∧
      (m.activeAllocationDevice.isSome ∨ w.flags.writeInvalidateRegion = false ∨
        ∀ i, i < w.size → t.arrays w.buffer (w.offset + i) = none)
  | .hostWrite _ _ _ => True
  | .hostRead k i => ∀ w, t.windows k = some w → s.ByKind w.buffer 0 fun _ => t.Readable w i

/-! ## Runs -/

/-- The buffers and the arrays side by side: what every operation of a run returned. -/
def runBoth (c : MemContext) (user : Nat → Nat → Option Nat) (s : MemState) (t : PlainState) :
    List BufferOp → Option (MemState × PlainState × List (List (Option Nat) × List (Option Nat)))
  | [] => some (s, t, [])
  | op :: ops => (s.step c op).bind fun (s, bytes) =>
      let r := t.step user op
      (runBoth c user s r.1 ops).map fun (s, t, outs) => (s, t, (bytes, r.2) :: outs)

/-- Every operation of a run is legal and meets the condition. -/
def AllMeet (c : MemContext) (user : Nat → Nat → Option Nat) (s : MemState) (t : PlainState) :
    List BufferOp → Prop
  | [] => True
  | op :: ops => op.Legal t ∧ op.Meets s t ∧
      ∀ r, s.step c op = some r → AllMeet c user r.1 (t.step user op).1 ops

/-- The operations of a run are legal. -/
def AllLegal (user : Nat → Nat → Option Nat) (t : PlainState) : List BufferOp → Prop
  | [] => True
  | op :: ops => op.Legal t ∧ AllLegal user (t.step user op).1 ops

/-- No buffers; the application's memory. -/
def MemState.init (user : Nat → Nat → Option Nat) : MemState where
  mem := fun
    | .user b => user b
    | .shared _ | .device _ _ | .mapped _ _ => fun _ => none
  buffers := fun _ => none
  ptrs := fun _ => none
  maps := 0

def PlainState.init : PlainState := ⟨fun _ => none, fun _ _ => none, fun _ => none, 0⟩

/-- A byte of the array is the byte that is returned. -/
def Returns (bytes plain : List (Option Nat)) : Prop :=
  bytes.length = plain.length ∧ ∀ i v : Nat, plain[i]? = some (some v) → bytes[i]? = some (some v)

end UnifiedRuntime.LevelZeroV2
