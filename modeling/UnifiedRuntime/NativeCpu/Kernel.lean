import UnifiedRuntime.Lib.OwnedHeap

/-!
# Kernel objects of the Native CPU adapter

`ur_kernel_handle_t_` keeps a pointer for every argument: to storage of its own for values, the
user's for the others. For local memory the pointer is a placeholder; the argument is on a list,
and its pointer is put in before a work-group runs, into a pool that has room for the threads.

An argument's bytes are a list, and an allocation has the allocator's answer with it.
-/

namespace UnifiedRuntime.NativeCpu

/-- `local_arg_info_t`. -/
structure LocalArgInfo where
  argIndex : Nat
  argSize : UInt64

/-! ## The arguments -/

/-- `ur_kernel_handle_t_::arguments`. -/
structure Arguments where
  Indices : List Ptr
  ParamSizes : List Nat
  OwnsMem : List Bool

/-- `std::vector::resize` to more elements. -/
def resize {α : Type} (l : List α) (n : Nat) (a : α) : List α := l ++ List.replicate (n - l.length) a

namespace Arguments

/-- The pointer at an index. -/
def pointerAt (a : Arguments) (index : Nat) : Ptr := a.Indices.getD index .null

/-- The first part of `addArg`, which makes room for the value. -/
def reserve (a : Arguments) (h : Heap) (index size : Nat) (ok : Bool) : Arguments × Heap :=
  if index + 1 > a.Indices.length then
    let out := h.malloc size ok
    ({ Indices := (resize a.Indices (index + 1) .null).set index out.2
       OwnsMem := (resize a.OwnsMem (index + 1) false).set index true
       ParamSizes := (resize a.ParamSizes (index + 1) 0).set index size }, out.1)
  else if a.ParamSizes.getD index 0 ≠ size then
    let out := h.realloc (a.pointerAt index) size ok
    ({ a with
        Indices := a.Indices.set index out.2
        ParamSizes := a.ParamSizes.set index size }, out.1)
  else (a, h)

def addArg (a : Arguments) (h : Heap) (index : Nat) (arg : List UInt8) (ok : Bool) :
    Arguments × Heap :=
  let out := a.reserve h index arg.length ok
  (out.1, out.2.write (out.1.pointerAt index) arg)

/-- `sizeof(uint8_t *)`. -/
def pointerSize : Nat := 8

def addPtrArg (a : Arguments) (index : Nat) (arg : Ptr) : Arguments :=
  let a :=
    if index + 1 > a.Indices.length then
      { Indices := resize a.Indices (index + 1) .null
        OwnsMem := (resize a.OwnsMem (index + 1) false).set index false
        ParamSizes := (resize a.ParamSizes (index + 1) 0).set index pointerSize }
    else a
  { a with Indices := a.Indices.set index arg }

/-- `deallocate`. -/
def deallocate (a : Arguments) (h : Heap) : Heap :=
  (List.range a.Indices.length).foldl
    (fun h index => if a.OwnsMem.getD index false then h.free (a.pointerAt index) else h) h

end Arguments

/-! ## The kernel -/

/-- `ur_kernel_handle_t_`. -/
structure Kernel where
  Args : Arguments
  localArgInfo : List LocalArgInfo
  localMemPool : Ptr
  localMemPoolSize : UInt64
  refCount : UInt32

namespace Kernel

def create : Kernel := ⟨⟨[], [], []⟩, [], .null, 0, 1⟩

/-- The copy constructor: the count starts anew, and is incremented. -/
def copy (k : Kernel) : Kernel := { k with refCount := 1 + 1 }

/-- The destructor. -/
def destroy (k : Kernel) (h : Heap) : Heap :=
  if k.refCount - 1 = 0 then k.Args.deallocate (h.free k.localMemPool) else h

/-- The size that the pool is to have. -/
def reqSize (localArgInfo : List LocalArgInfo) (numParallelThreads : UInt64) : UInt64 :=
  localArgInfo.foldl (fun size entry => size + entry.argSize * numParallelThreads) 0

def updateMemPool (k : Kernel) (h : Heap) (numParallelThreads : UInt64) (ok : Bool) :
    Kernel × Heap :=
  let size := reqSize k.localArgInfo numParallelThreads
  if size = 0 ∨ size = k.localMemPoolSize then (k, h)
  else
    let out := h.realloc k.localMemPool size.toNat ok
    ({ k with localMemPool := out.2, localMemPoolSize := size }, out.1)

def hasLocalArgs (k : Kernel) : Bool := !k.localArgInfo.isEmpty

/-- The loop of `handleLocalArgs`, from an offset on. -/
def placeLocals (pool : Ptr) (numParallelThread threadId : UInt64) :
    List LocalArgInfo → UInt64 → List Ptr → List Ptr
  | [], _, Indices => Indices
  | entry :: rest, offset, Indices =>
    placeLocals pool numParallelThread threadId rest (offset + entry.argSize * numParallelThread)
      (Indices.set entry.argIndex (pool.add (offset + entry.argSize * threadId).toNat))

def handleLocalArgs (k : Kernel) (numParallelThread threadId : UInt64) : Kernel :=
  { k with
    Args := { k.Args with
      Indices := placeLocals k.localMemPool numParallelThread threadId k.localArgInfo 0
        k.Args.Indices } }

end Kernel

/-! ## The entry points -/

/-- What an argument was set to. -/
inductive Arg where
  | value (bytes : List UInt8)
  | pointer (p : Ptr)
  | localMem (size : UInt64)

/-- A pointer that the user passes. -/
def userPtr? : Option Nat → Ptr
  | none => .null
  | some addr => .user addr

/-- A kernel with its heap. `last` is not part of the code: what each index was set to last. -/
structure World where
  kernel : Kernel
  heap : Heap
  last : Nat → Option Arg
  alive : Bool

namespace World

def create : World := ⟨.create, .empty, fun _ => none, true⟩

/-- The argument list with what an index is set to. -/
def record (w : World) (index : Nat) (arg : Arg) : Nat → Option Arg :=
  Function.update w.last index (some arg)

/-- `urKernelSetArgValue`. -/
def setArgValue (w : World) (index : Nat) (arg : List UInt8) (ok : Bool) : World :=
  if arg.length = 0 then w
  else
    let out := w.kernel.Args.addArg w.heap index arg ok
    { w with kernel := { w.kernel with Args := out.1 }, heap := out.2, last := w.record index (.value arg) }

/-- `urKernelSetArgPointer` and `urKernelSetArgMemObj` behind their checks. -/
def addPtrArg (w : World) (index : Nat) (p : Ptr) : World :=
  { w with
    kernel := { w.kernel with Args := w.kernel.Args.addPtrArg index p }
    last := w.record index (.pointer p) }

/-- `urKernelSetArgPointer`. -/
def setArgPointer (w : World) (index : Nat) (arg : Option Nat) : World :=
  if arg = none then w else w.addPtrArg index (userPtr? arg)

/-- `urKernelSetArgMemObj`; an object that is null has a null pointer. -/
def setArgMemObj (w : World) (index : Nat) (mem : Option Nat) : World :=
  w.addPtrArg index (userPtr? mem)

/-- `urKernelSetArgLocal`. -/
def setArgLocal (w : World) (index : Nat) (size : UInt64) : World :=
  { w with
    kernel := { w.kernel with
      Args := w.kernel.Args.addPtrArg index .null
      localArgInfo := w.kernel.localArgInfo ++ [⟨index, size⟩] }
    last := w.record index (.localMem size) }

/-- The pool is sized for a launch. -/
def updateMemPool (w : World) (numParallelThreads : UInt64) (ok : Bool) : World :=
  let out := w.kernel.updateMemPool w.heap numParallelThreads ok
  { w with kernel := out.1, heap := out.2 }

/-- `urKernelRetain`. -/
def retain (w : World) : World :=
  { w with kernel := { w.kernel with refCount := w.kernel.refCount + 1 } }

/-- `urKernelRelease`: `decrementOrDelete`. -/
def release (w : World) : World :=
  let kernel := { w.kernel with refCount := w.kernel.refCount - 1 }
  if kernel.refCount = 0 then { w with kernel, heap := kernel.destroy w.heap, alive := false }
  else { w with kernel }

end World

/-- The calls on a kernel. -/
inductive ArgCall where
  | setValue (index : Nat) (arg : List UInt8) (ok : Bool)
  | setPointer (index : Nat) (arg : Option Nat)
  | setMemObj (index : Nat) (mem : Option Nat)
  | setLocal (index : Nat) (size : UInt64)
  | updateMemPool (numParallelThreads : UInt64) (ok : Bool)
  | retain
  | release

def World.step (w : World) : ArgCall → World
  | .setValue index arg ok => w.setArgValue index arg ok
  | .setPointer index arg => w.setArgPointer index arg
  | .setMemObj index mem => w.setArgMemObj index mem
  | .setLocal index size => w.setArgLocal index size
  | .updateMemPool numParallelThreads ok => w.updateMemPool numParallelThreads ok
  | .retain => w.retain
  | .release => w.release

end UnifiedRuntime.NativeCpu
