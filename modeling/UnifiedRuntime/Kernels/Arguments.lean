import Mathlib.Algebra.BigOperators.Group.Finset.Basic
import UnifiedRuntime.Lib.AlignedLayout
import UnifiedRuntime.Lib.NarrowLoop
import UnifiedRuntime.Lib.StridedFill
import UnifiedRuntime.Streams.Pool

/-!
# Kernel arguments (CUDA and HIP)

A kernel handle has the bytes of its arguments in one storage, which an argument keeps its place in,
and for arguments in local memory their sizes with and without padding; the offset of such an
argument is its value. Both adapters have a copy of this code. That of HIP has no memory of the
work-group.

The vectors have the size `numArgs` (that of pointers one more, for the implicit offset); entries
behind it are what `resize` fills them with. Memory that a vector cannot have is not modelled.
-/

namespace UnifiedRuntime.Kernels

open Function (update)
open PatternFill (byteOf)
open Streams (Adapter)

/-- `MaxParamBytes`. -/
abbrev maxParamBytes : Nat := 4000

/-- An element of `ArgPointers`. -/
inductive ArgPointer where
  /-- `&ImplicitOffsetArgs`. -/
  | implicitOffset
  /-- `&Storage[pos]`. -/
  | storage (pos : Nat)
deriving DecidableEq

/-- `mem_obj_arg`. -/
structure MemObjArg where
  mem : Nat
  index : Nat
  accessFlags : UInt32

/-- `arguments`. -/
structure Arguments where
  storage : Nat → UInt8
  paramSizes : Nat → Nat
  argPointers : Nat → ArgPointer
  numArgs : Nat
  insertPos : Nat
  alignedLocalMemSize : Nat → Nat
  originalLocalMemSize : Nat → Nat
  workGroupMemory : Nat
  memObjArgs : List MemObjArg

/-- The eight bytes of a `size_t`. -/
def sizeBytes (value : Nat) : List UInt8 := (List.range 8).map (byteOf value)

/-- `std::min(MaxAlignment, Size)`. -/
def alignment (size : Nat) : Nat := min 128 size

namespace Arguments

/-- Kernels begin with the implicit offset only; the storage has no values yet. -/
def init (storage : Nat → UInt8) : Arguments where
  storage := storage
  paramSizes := fun _ => 0
  argPointers := fun _ => .implicitOffset
  numArgs := 0
  insertPos := 0
  alignedLocalMemSize := fun _ => 0
  originalLocalMemSize := fun _ => 0
  workGroupMemory := 0
  memObjArgs := []

/-- `std::memcpy` to an argument. It must not leave the object that it points into. -/
def memcpy (a : Arguments) (dst : ArgPointer) (arg : List UInt8) : Except Stop Arguments :=
  match dst with
  | .storage pos =>
    if pos + arg.length ≤ maxParamBytes then .ok
      { a with storage := fun p =>
          if pos ≤ p ∧ p < pos + arg.length then arg.getD (p - pos) 0 else a.storage p }
    else .error .fault
  | .implicitOffset => if arg.length ≤ 12 then .ok a else .error .fault

/-- `addArg`. -/
def addArg (asserts : Bool) (a : Arguments) (index : Nat) (arg : List UInt8) (localSize : Nat) :
    Except Stop Arguments := do
  let a := { a with numArgs := max a.numArgs (index + 1) }
  if a.paramSizes index = 0 then
    let a ← { a with paramSizes := update a.paramSizes index arg.length }.memcpy
      (.storage a.insertPos) arg
    return { a with
      argPointers := update a.argPointers index (.storage a.insertPos)
      alignedLocalMemSize := update a.alignedLocalMemSize index localSize
      insertPos := a.insertPos + arg.length }
  else
    let a ← a.memcpy (a.argPointers index) arg
    if asserts && arg.length != a.paramSizes index then .error .fault
    else return { a with alignedLocalMemSize := update a.alignedLocalMemSize index localSize }

/-- `calcAlignedLocalArgument`: the size with padding and the offset. -/
def calcAlignedLocalArgument (a : Arguments) (index size : Nat) : Arguments × Nat × Nat :=
  let localOffset :=
    (a.workGroupMemory + ∑ k ∈ Finset.range index, a.alignedLocalMemSize k) % 2 ^ 64
  let pad := localOffset % alignment size
  let alignedLocalOffset :=
    if pad ≠ 0 then (localOffset + (alignment size - pad)) % 2 ^ 64 else localOffset
  ({ a with originalLocalMemSize := update a.originalLocalMemSize index size },
    (size + (alignedLocalOffset + 2 ^ 64 - localOffset)) % 2 ^ 64, alignedLocalOffset)

/-- A round of `updateLocalArgOffset`. -/
def updateLocalArg (a : Arguments) (succIndex : Nat) : Except Stop Arguments :=
  let originalLocalSize := a.originalLocalMemSize succIndex
  if originalLocalSize = 0 then .ok a
  else
    let r := a.calcAlignedLocalArgument succIndex originalLocalSize
    { r.1 with
      alignedLocalMemSize := update r.1.alignedLocalMemSize succIndex r.2.1 }.memcpy
        (r.1.argPointers succIndex) (sizeBytes r.2.2)

/-- The rounds of `updateLocalArgOffset`. -/
def updateLocalArgs : Nat → Arguments → Nat → Except Stop Arguments
  | 0, a, _ => .ok a
  | rounds + 1, a, succIndex => do
    let a ← a.updateLocalArg succIndex
    updateLocalArgs rounds a (succIndex + 1)

/-- `updateLocalArgOffset`. -/
def updateLocalArgOffset (a : Arguments) (startIndex : Nat) : Except Stop Arguments :=
  updateLocalArgs (a.numArgs - startIndex) a startIndex

/-- `addLocalArg`. -/
def addLocalArg (asserts : Bool) (a : Arguments) (index size : Nat) : Except Stop Arguments := do
  let r := a.calcAlignedLocalArgument index size
  let a ← addArg asserts r.1 index (sizeBytes r.2.2) r.2.1
  a.updateLocalArgOffset (index + 1)

/-- The loop of `addMemObjArg`: the first one with the index is overwritten, or it is appended. -/
def putMemObjArg (arg : MemObjArg) : List MemObjArg → List MemObjArg
  | [] => [arg]
  | x :: rest => if x.index = arg.index then arg :: rest else x :: putMemObjArg arg rest

/-- `addMemObjArg`. -/
def addMemObjArg (a : Arguments) (index mem : Nat) (flags : UInt32) : Arguments :=
  { a with memObjArgs := putMemObjArg ⟨mem, index, flags⟩ a.memObjArgs }

/-- `setWorkGroupMemory`. -/
def setWorkGroupMemory (a : Arguments) (memSize : Nat) : Except Stop Arguments :=
  if a.workGroupMemory = memSize then .ok a
  else { a with workGroupMemory := memSize }.updateLocalArgOffset 0

/-- `getLocalSize`, which adds up in 32 bits. -/
def getLocalSize (a : Arguments) : Nat :=
  ((∑ k ∈ Finset.range a.numArgs, a.alignedLocalMemSize k) + a.workGroupMemory) % 2 ^ 32

end Arguments

/-! ## Entry points -/

/-- `setKernelArg`; the index becomes an `int`. -/
def setKernelArg (asserts : Bool) (a : Arguments) (index : Nat) (arg : List UInt8) :
    Except Stop Arguments :=
  if 2 ^ 31 ≤ index then .error .fault else a.addArg asserts index arg 0

/-- `setKernelLocalArg`. -/
def setKernelLocalArg (asserts : Bool) (a : Arguments) (index size : Nat) : Except Stop Arguments :=
  if 2 ^ 31 ≤ index then .error .fault else a.addLocalArg asserts index size

/-- `UR_MEM_FLAG_READ_WRITE`. -/
def readWrite : UInt32 := 1

/-- `UR_MEM_FLAG_WRITE_ONLY`. -/
def writeOnly : UInt32 := 2

/-- `Properties ? Properties->memoryAccess : ..` -/
def memAccess (adapter : Adapter) (properties : Option UInt32) : UInt32 :=
  match adapter with
  | .cuda => properties.getD readWrite
  | .hip => properties.getD 0

/-- Calls on a kernel. -/
inductive Call where
  | setArgValue (index : Nat) (value : List UInt8)
  | setArgPointer (index : Nat) (ptr : UInt64)
  /-- The memory object and its pointer or surface on the device, where it has one. -/
  | setArgMemObj (index : Nat) (mem : Option (Nat × Option UInt64)) (properties : Option UInt32)
  | setArgSampler (index : Nat) (props : UInt32)
  | setArgLocal (index size : Nat)
  | launch (manyDevices : Bool) (workGroupMemory : Nat)

/-- The bytes of a value of 32 bits. -/
def wordBytes (value : UInt32) : List UInt8 := (List.range 4).map (byteOf value.toNat)

/-- What a launch hands to the driver and does to memory objects. -/
structure Launch where
  args : Arguments
  localSize : Nat
  migrated : List Nat
  written : List Nat

/-- `enqueueKernelLaunch` of the CUDA adapter and `urEnqueueKernelLaunch` of the HIP adapter. -/
def enqueueKernelLaunch (adapter : Adapter) (a : Arguments) (manyDevices : Bool)
    (workGroupMemory : Nat) : Except Stop Launch := do
  let a ← match adapter with
    | .cuda => if workGroupMemory ≠ 0 then a.setWorkGroupMemory workGroupMemory else .ok a
    | .hip => .ok a
  let memObjArgs := if manyDevices then a.memObjArgs else []
  return {
    args := a
    localSize := a.getLocalSize
    migrated := memObjArgs.map (·.mem)
    written := (memObjArgs.filter fun m => m.accessFlags &&& (readWrite ||| writeOnly) != 0).map
      (·.mem) }

/-- The call on the arguments; a call that only returns an error leaves them. -/
def callArguments (adapter : Adapter) (asserts : Bool) (a : Arguments) :
    Call → Except Stop Arguments
  | .setArgValue index value =>
    if adapter = .cuda ∧ value.length = 0 then .ok a else setKernelArg asserts a index value
  | .setArgPointer index ptr => setKernelArg asserts a index (sizeBytes ptr.toNat)
  | .setArgMemObj index none _ => setKernelArg asserts a index []
  | .setArgMemObj index (some (mem, ptr)) properties =>
    let a := a.addMemObjArg index mem (memAccess adapter properties)
    match ptr with
    | none => .ok a
    | some ptr => setKernelArg asserts a index (sizeBytes ptr.toNat)
  | .setArgSampler index props => setKernelArg asserts a index (wordBytes props)
  | .setArgLocal index size =>
    if size = 0 then .ok a else setKernelLocalArg asserts a index size
  | .launch manyDevices workGroupMemory =>
    (enqueueKernelLaunch adapter a manyDevices workGroupMemory).map (·.args)

/-! ## Argument values -/

/-- The value of an argument: its bytes, or the size of its local memory. -/
inductive Arg where
  | bytes (value : List UInt8)
  | localMem (size : Nat)
deriving DecidableEq

/-- What was set last at each index, and the memory object there. -/
structure History where
  arg : Nat → Option Arg
  mem : Nat → Option Nat

namespace History

def init : History := ⟨fun _ => none, fun _ => none⟩

/-- Another argument at an index, which is no memory object. -/
def set (h : History) (index : Nat) (arg : Arg) : History :=
  ⟨update h.arg index (some arg), update h.mem index none⟩

/-- A call is noted unless it only returned an error. The null memory object is a null pointer. -/
def call (adapter : Adapter) (h : History) : Call → History
  | .setArgValue index value =>
    if adapter = .cuda ∧ value.length = 0 then h else h.set index (.bytes value)
  | .setArgPointer index ptr => h.set index (.bytes (sizeBytes ptr.toNat))
  | .setArgMemObj index none _ => h.set index (.bytes (sizeBytes 0))
  | .setArgMemObj index (some (mem, ptr)) _ =>
    { arg := match ptr with
        | none => h.arg
        | some ptr => update h.arg index (some (.bytes (sizeBytes ptr.toNat)))
      mem := update h.mem index (some mem) }
  | .setArgSampler index props => h.set index (.bytes (wordBytes props))
  | .setArgLocal index size => if size = 0 then h else h.set index (.localMem size)
  | .launch _ _ => h

end History

/-- The argument at an index, as the driver reads it. -/
def Arguments.Holds (a : Arguments) (index : Nat) (value : List UInt8) : Prop :=
  ∃ pos, a.argPointers index = .storage pos ∧ pos + value.length ≤ maxParamBytes ∧
    ∀ k < value.length, a.storage (pos + k) = value.getD k 0

/-- **A launch has the arguments that were set last**, local memory without overlaps, and only
memory objects that are arguments still. `offset` is where each local argument lies. -/
structure LaunchRight (h : History) (workGroupMemory : Nat) (l : Launch) : Prop where
  values : ∀ index value, h.arg index = some (.bytes value) → l.args.Holds index value
  locals : ∃ offset : Nat → Nat, ∀ index size, h.arg index = some (.localMem size) →
    l.args.Holds index (sizeBytes (offset index)) ∧ min 128 size ∣ offset index ∧
      workGroupMemory ≤ offset index ∧ offset index + size ≤ l.localSize ∧
        ∀ index' size', index' ≠ index → h.arg index' = some (.localMem size') →
          offset index + size ≤ offset index' ∨ offset index' + size' ≤ offset index
  migrated : ∀ mem ∈ l.migrated, ∃ index, h.mem index = some mem
  written : ∀ mem ∈ l.written, ∃ index, h.mem index = some mem

/-- **Every call of the run is defined and every launch right.** -/
def RunRight (adapter : Adapter) (asserts : Bool) : Arguments → History → List Call → Prop
  | _, _, [] => True
  | a, h, call :: calls =>
    (∀ manyDevices workGroupMemory, call = .launch manyDevices workGroupMemory →
      ∃ l, enqueueKernelLaunch adapter a manyDevices workGroupMemory = .ok l ∧
        LaunchRight h (match adapter with | .cuda => workGroupMemory | .hip => 0) l) ∧
    ∃ a', callArguments adapter asserts a call = .ok a' ∧
      RunRight adapter asserts a' (h.call adapter call) calls

end UnifiedRuntime.Kernels
