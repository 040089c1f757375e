import Mathlib

/-!
# The reference counts of the validation layer

`RefCountContext` (`validation/ur_leak_check.hpp`) keeps a count for every handle
an application creates, retains and releases, and a count of the adapters among
them. `updateRefCount` is the one function that changes them, in four ways; when
no adapter is left it reports every count it still has and drops them all. The
stack of an entry's first call is only printed and is left out.

`Ledger` says what the counts are for: how often a handle was created, retained
and released since that came out even.
-/

namespace UnifiedRuntime.Validation

/-- A handle is an address and the type the application uses it with. -/
structure Handle (τ : Type) where
  ptr : Nat
  type : τ
deriving DecidableEq

attribute [ext] Handle

structure RefRuntimeInfo (τ : Type) where
  refCount : Int
  type : τ

inductive RefCountUpdateType where
  | createOrIncrease | create | increase | decrease

/-- What the context logs about a handle. -/
inductive Message where
  | alreadyExists (ptr : Nat)
  | retainNonexistent (ptr : Nat)
  | releaseNonexistent (ptr : Nat)
  | changed (ptr : Nat) (refCount : Int)
  | retained (refCount : Int) (ptr : Nat)

structure RefCountContext (τ : Type) where
  counts : AList fun _ : Nat => RefRuntimeInfo τ
  adapterCount : Int

/-- What a call leaves, what it logs, and the report if it makes one. -/
structure Update (τ : Type) where
  context : RefCountContext τ
  log : List Message
  report : Option (List Message)

variable {τ : Type}

namespace RefCountContext

def init : RefCountContext τ := ⟨∅, 0⟩

def logInvalidReferences (c : RefCountContext τ) : List Message :=
  c.counts.entries.map fun e => .retained e.2.refCount e.1

/-- The `switch` of `updateRefCount`: the new context, the entry `it` points to and
what is logged, or the error of a call that returns at once. -/
def updateEntry (c : RefCountContext τ) (handle : Handle τ) (type : RefCountUpdateType)
    (isAdapterHandle : Bool) :
    Except Message (RefCountContext τ × RefRuntimeInfo τ × List Message) :=
  let ptr := handle.ptr
  match type with
  | .createOrIncrease =>
    match c.counts.lookup ptr with
    | none =>
      let it : RefRuntimeInfo τ := ⟨1, handle.type⟩
      .ok (⟨c.counts.insert ptr it,
        if isAdapterHandle then c.adapterCount + 1 else c.adapterCount⟩, it, [])
    | some it =>
      let it := { it with refCount := it.refCount + 1 }
      .ok (⟨c.counts.insert ptr it, c.adapterCount⟩, it, [])
  | .create =>
    match c.counts.lookup ptr with
    | none =>
      let it : RefRuntimeInfo τ := ⟨1, handle.type⟩
      .ok (⟨c.counts.insert ptr it, c.adapterCount⟩, it, [])
    | some _ => .error (.alreadyExists ptr)
  | .increase =>
    match c.counts.lookup ptr with
    | none => .error (.retainNonexistent ptr)
    | some it =>
      let it := { it with refCount := it.refCount + 1 }
      .ok (⟨c.counts.insert ptr it, c.adapterCount⟩, it, [])
  | .decrease =>
    let it : RefRuntimeInfo τ :=
      match c.counts.lookup ptr with
      | none => ⟨-1, handle.type⟩
      | some it => { it with refCount := it.refCount - 1 }
    let counts := c.counts.insert ptr it
    if it.refCount < 0 then .ok (⟨counts, c.adapterCount⟩, it, [.releaseNonexistent ptr])
    else if it.refCount = 0 ∧ isAdapterHandle then .ok (⟨counts, c.adapterCount - 1⟩, it, [])
    else .ok (⟨counts, c.adapterCount⟩, it, [])

def updateRefCount (c : RefCountContext τ) (handle : Handle τ) (type : RefCountUpdateType)
    (isAdapterHandle : Bool) : Update τ :=
  match c.updateEntry handle type isAdapterHandle with
  | .error m => ⟨c, [m], none⟩
  | .ok (c', it, log) =>
    let log := log ++ [.changed handle.ptr it.refCount]
    let c' := if it.refCount = 0 then { c' with counts := c'.counts.erase handle.ptr } else c'
    -- no more active adapters, so any references still held are leaked
    if c'.adapterCount = 0 then ⟨{ c' with counts := ∅ }, log, some c'.logInvalidReferences⟩
    else ⟨c', log, none⟩

def createRefCount (c : RefCountContext τ) (handle : Handle τ) : Update τ :=
  c.updateRefCount handle .create false

def incrementRefCount (c : RefCountContext τ) (handle : Handle τ) (isAdapterHandle : Bool) :
    Update τ :=
  c.updateRefCount handle .increase isAdapterHandle

def decrementRefCount (c : RefCountContext τ) (handle : Handle τ) (isAdapterHandle : Bool) :
    Update τ :=
  c.updateRefCount handle .decrease isAdapterHandle

def createOrIncrementRefCount (c : RefCountContext τ) (handle : Handle τ)
    (isAdapterHandle : Bool) : Update τ :=
  c.updateRefCount handle .createOrIncrease isAdapterHandle

def isReferenceValid [DecidableEq τ] (c : RefCountContext τ) (handle : Handle τ) : Bool :=
  match c.counts.lookup handle.ptr with
  | none => false
  | some it => if it.refCount < 1 then false else decide (it.type = handle.type)

end RefCountContext

/-- The public calls of the context. -/
inductive RefCall (τ : Type) where
  | createRefCount (handle : Handle τ)
  | incrementRefCount (handle : Handle τ) (isAdapterHandle : Bool)
  | decrementRefCount (handle : Handle τ) (isAdapterHandle : Bool)
  | createOrIncrementRefCount (handle : Handle τ) (isAdapterHandle : Bool)

namespace RefCall

def handle : RefCall τ → Handle τ
  | createRefCount h | incrementRefCount h _ | decrementRefCount h _
  | createOrIncrementRefCount h _ => h

def update : RefCall τ → RefCountUpdateType
  | createRefCount _ => .create
  | incrementRefCount _ _ => .increase
  | decrementRefCount _ _ => .decrease
  | createOrIncrementRefCount _ _ => .createOrIncrease

def isAdapterHandle : RefCall τ → Bool
  | createRefCount _ => false
  | incrementRefCount _ b | decrementRefCount _ b | createOrIncrementRefCount _ b => b

end RefCall

def RefCountContext.call (c : RefCountContext τ) : RefCall τ → Update τ
  | .createRefCount h => c.createRefCount h
  | .incrementRefCount h b => c.incrementRefCount h b
  | .decrementRefCount h b => c.decrementRefCount h b
  | .createOrIncrementRefCount h b => c.createOrIncrementRefCount h b

theorem RefCountContext.call_eq (c : RefCountContext τ) (k : RefCall τ) :
    c.call k = c.updateRefCount k.handle k.update k.isAdapterHandle := by
  cases k <;> rfl

end UnifiedRuntime.Validation
