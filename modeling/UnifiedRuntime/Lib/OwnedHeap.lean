import Mathlib.Logic.Function.Basic

/-!
# A heap with the pointers' origins

A pointer is null, points into memory of the user, or into a block that `malloc` or `realloc`
has handed out. Blocks are numbered in the order in which they are handed out, and a number is
not used again. What is done to the user's memory is recorded, as are the frees. An access
outside live memory is a fault.
-/

namespace UnifiedRuntime

open Function (update update_idem update_self)

inductive Ptr where
  | null
  | user (addr : Nat)
  | block (id offset : Nat)
deriving DecidableEq

/-- Pointer arithmetic; from null it gets nowhere. -/
def Ptr.add : Ptr → Nat → Ptr
  | .null, _ => .null
  | .user addr, n => .user (addr + n)
  | .block id offset, n => .block id (offset + n)

structure Heap where
  blocks : Nat → Option (List UInt8)
  next : Nat
  freed : List Nat
  touched : List Nat
  faulted : Bool

namespace Heap

def empty : Heap := ⟨fun _ => none, 0, [], [], false⟩

/-- `ok` is the allocator's answer. -/
def malloc (h : Heap) (size : Nat) (ok : Bool) : Heap × Ptr :=
  if ok then
    ({ h with
        blocks := update h.blocks h.next (some (List.replicate size 0))
        next := h.next + 1 }, .block h.next 0)
  else (h, .null)

def fault (h : Heap) : Heap := { h with faulted := true }

def touch (h : Heap) (addr : Nat) : Heap := { h with touched := addr :: h.touched }

def free (h : Heap) : Ptr → Heap
  | .null => h
  | .user addr => h.touch addr
  | .block id offset =>
    if offset = 0 ∧ (h.blocks id).isSome then
      { h with blocks := update h.blocks id none, freed := id :: h.freed }
    else h.fault

/-- The bytes of a block that gets another size. -/
def resized (old : List UInt8) (size : Nat) : List UInt8 :=
  old.take size ++ List.replicate (size - old.length) 0

/-- A block moves to a new one of the other size. -/
def realloc (h : Heap) (p : Ptr) (size : Nat) (ok : Bool) : Heap × Ptr :=
  match p with
  | .null => h.malloc size ok
  | .user addr => (h.touch addr).malloc size ok
  | .block id offset =>
    match h.blocks id with
    | none => (h.fault, .null)
    | some old =>
      if offset ≠ 0 then (h.fault, .null)
      else if ok then
        ({ h with
            blocks := update (update h.blocks id none) h.next
              (some (resized old size))
            next := h.next + 1 }, .block h.next 0)
      else (h, .null)

/-- `memcpy` of `bytes` to `p`. -/
def write (h : Heap) (p : Ptr) (bytes : List UInt8) : Heap :=
  match p with
  | .null => if bytes = [] then h else h.fault
  | .user addr => h.touch addr
  | .block id offset =>
    match h.blocks id with
    | none => h.fault
    | some old =>
      if offset + bytes.length ≤ old.length then
        { h with
          blocks := update h.blocks id
            (some (old.take offset ++ bytes ++ old.drop (offset + bytes.length))) }
      else h.fault

/-- No memory of the user was touched, and no access failed. -/
structure Clean (h : Heap) : Prop where
  touched : h.touched = []
  faulted : h.faulted = false

/-- Numbers from `next` on have not been handed out. -/
def Fresh (h : Heap) : Prop := ∀ id, h.next ≤ id → h.blocks id = none

variable {h : Heap} {id size : Nat} {old bytes : List UInt8} {p : Ptr}

theorem Fresh.lt (hf : h.Fresh) (hid : h.blocks id = some old) : id < h.next := by
  by_contra hge
  rw [hf id (Nat.le_of_not_lt hge)] at hid
  cases hid

theorem resized_length (old : List UInt8) (size : Nat) : (resized old size).length = size := by
  unfold resized
  rw [List.length_append, List.length_take, List.length_replicate]
  omega

/-- A block is overwritten whole. -/
theorem write_whole (hid : h.blocks id = some old) (hlen : bytes.length = old.length) :
    h.write (.block id 0) bytes =
      { h with blocks := update h.blocks id (some bytes) } := by
  unfold write
  dsimp only
  rw [hid]
  dsimp only
  rw [if_pos (by omega), List.take_zero, List.nil_append, Nat.zero_add, hlen, List.drop_length,
    List.append_nil]

/-- The heap with a block at `next`, in which `bytes` were written, in the place of the one at
`p`. -/
def replaced (h : Heap) (p : Ptr) (bytes : List UInt8) : Heap :=
  { h with
    blocks := update
      (match p with
        | .block id _ => update h.blocks id none
        | _ => h.blocks) h.next (some bytes)
    next := h.next + 1 }

/-- **A new block that is written whole.** -/
theorem malloc_write (h : Heap) (bytes : List UInt8) :
    (h.malloc bytes.length true).1.write (h.malloc bytes.length true).2 bytes =
      h.replaced .null bytes := by
  have hblock : (h.malloc bytes.length true).1.blocks h.next =
      some (List.replicate bytes.length 0) := update_self _ _ _
  show (h.malloc bytes.length true).1.write (.block h.next 0) bytes = _
  rw [write_whole hblock (List.length_replicate ..).symm]
  congr 1
  exact update_idem _ _ _

/-- **A block of another size that is written whole.** -/
theorem realloc_write (hid : h.blocks id = some old) :
    (h.realloc (.block id 0) bytes.length true).2 = .block h.next 0 ∧
      (h.realloc (.block id 0) bytes.length true).1.write
        (h.realloc (.block id 0) bytes.length true).2 bytes = h.replaced (.block id 0) bytes := by
  have hre : h.realloc (.block id 0) bytes.length true =
      (h.replaced (.block id 0) (resized old bytes.length), .block h.next 0) := by
    unfold realloc
    dsimp only
    rw [hid]
    rfl
  have hblock : (h.replaced (.block id 0) (resized old bytes.length)).blocks h.next =
      some (resized old bytes.length) := update_self _ _ _
  rw [hre]
  refine ⟨rfl, ?_⟩
  rw [write_whole hblock (resized_length old bytes.length).symm]
  congr 1
  exact update_idem _ _ _

end Heap

end UnifiedRuntime
