import Mathlib

/-!
# The command list cache of the v2 adapter

`command_list_cache.cpp`: a hash map from descriptors to stacks of command lists. A
list that is given back goes to the stack of the descriptor it was asked for with; a
request takes the top of the stack of its descriptor, or has the driver create a list.

The map looks in the bucket of a descriptor's hash for a key that `operator==` takes
for the descriptor. `operator==` leaves out `CopyOffloadEnabled`, and for immediate
lists `Ordinal`, which is hashed. Where a hash has its bucket and in which order the
entries are found is the map's own affair (`Layout`).
-/

namespace UnifiedRuntime.LevelZeroV2

/-! ## Descriptors -/

inductive QueueMode where
  | default | synchronous | asynchronous
deriving DecidableEq

inductive QueuePriority where
  | normal | low | high
deriving DecidableEq

/-- `immediate_command_list_descriptor_t`. -/
structure ImmediateDesc where
  zeDevice : Nat
  isInOrder : Bool
  ordinal : Nat
  copyOffloadEnabled : Bool
  mode : QueueMode
  priority : QueuePriority
  index : Option Nat
deriving DecidableEq

/-- `regular_command_list_descriptor_t`. -/
structure RegularDesc where
  zeDevice : Nat
  isInOrder : Bool
  ordinal : Nat
  copyOffloadEnabled : Bool
deriving DecidableEq

/-- `command_list_descriptor_t`. -/
inductive CommandListDesc where
  | immediate (desc : ImmediateDesc)
  | regular (desc : RegularDesc)
deriving DecidableEq

/-- The `operator==` of the immediate descriptors. -/
def ImmediateDesc.equal (lhs rhs : ImmediateDesc) : Bool :=
  lhs.zeDevice == rhs.zeDevice && lhs.isInOrder == rhs.isInOrder && lhs.mode == rhs.mode &&
    lhs.priority == rhs.priority && lhs.index == rhs.index

/-- The `operator==` of the regular descriptors. -/
def RegularDesc.equal (lhs rhs : RegularDesc) : Bool :=
  lhs.zeDevice == rhs.zeDevice && lhs.ordinal == rhs.ordinal && lhs.isInOrder == rhs.isInOrder

/-- The `operator==` of the variant. -/
def CommandListDesc.equal : CommandListDesc → CommandListDesc → Bool
  | .immediate lhs, .immediate rhs => lhs.equal rhs
  | .regular lhs, .regular rhs => lhs.equal rhs
  | .immediate _, .regular _ | .regular _, .immediate _ => false

/-- What `command_list_descriptor_hash_t` combines. -/
inductive HashedFields where
  | immediate (zeDevice ordinal : Nat) (isInOrder : Bool) (mode : QueueMode)
      (priority : QueuePriority) (index : Option Nat)
  | regular (zeDevice : Nat) (isInOrder : Bool) (ordinal : Nat)
deriving DecidableEq

def CommandListDesc.hashed : CommandListDesc → HashedFields
  | .immediate d => .immediate d.zeDevice d.ordinal d.isInOrder d.mode d.priority d.index
  | .regular d => .regular d.zeDevice d.isInOrder d.ordinal

/-! ## Driver -/

/-- `ze_command_queue_desc_t` with its offload hint. -/
structure ZeQueueDesc where
  ordinal : Nat
  index : Nat
  inOrder : Bool
  explicitOnly : Bool
  mode : QueueMode
  priority : QueuePriority
  copyOffloadEnabled : Bool
deriving DecidableEq

/-- `ze_command_list_desc_t` with its offload hint. -/
structure ZeListDesc where
  commandQueueGroupOrdinal : Nat
  inOrder : Bool
  copyOffloadEnabled : Bool
deriving DecidableEq

/-- The call that creates a list. -/
inductive ZeCreate where
  | immediate (zeDevice : Nat) (desc : ZeQueueDesc)
  | regular (zeDevice : Nat) (desc : ZeListDesc)
deriving DecidableEq

def createCommandList : CommandListDesc → ZeCreate
  | .immediate d =>
    .immediate d.zeDevice
      ⟨d.ordinal, d.index.getD 0, d.isInOrder, d.index.isSome, d.mode, d.priority,
        d.copyOffloadEnabled⟩
  | .regular d => .regular d.zeDevice ⟨d.ordinal, d.isInOrder, d.copyOffloadEnabled⟩

/-- A list as the driver has it; an immediate list keeps no commands. -/
structure ZeCommandList where
  create : ZeCreate
  isOpen : Bool
  commands : List Nat
deriving DecidableEq

/-! ## Cache -/

/-- An entry of `ZeCommandListCache`: a key and its stack, the top first. -/
abbrev CacheEntry := CommandListDesc × List Nat

/-- How the map is laid out at a call: the bucket of a hash and the order of the entries. -/
structure Layout where
  bucket : HashedFields → Nat
  arrange : List CacheEntry → List CacheEntry
  perm : ∀ es, (arrange es).Perm es

/-- A layout that leaves the entries in their order. -/
def Layout.ofBucket (bucket : HashedFields → Nat) : Layout := ⟨bucket, id, fun _ => .refl _⟩

/-- A key that `find` and `try_emplace` take for the descriptor. -/
def Layout.finds (L : Layout) (desc : CommandListDesc) (e : CacheEntry) : Bool :=
  L.bucket e.1.hashed == L.bucket desc.hashed && e.1.equal desc

/-- The driver's lists, the cache, and the handles that are out with the descriptor
their deleter has captured. -/
structure CommandLists where
  zeLists : Nat → Option ZeCommandList
  cache : List CacheEntry
  held : List (Nat × CommandListDesc)

/-- What a request did: whether the driver's create was called, and the list. -/
structure Got where
  created : Bool
  list : Option Nat
deriving DecidableEq

namespace CommandLists

def init : CommandLists := ⟨fun _ => none, [], []⟩

/-- `getCommandList`, with the handle the driver creates. The stack that is found may not
be empty, and the driver makes no handle twice. -/
def getCommandList (s : CommandLists) (desc : CommandListDesc) (L : Layout)
    (fresh : Option Nat) : Option (CommandLists × Got) :=
  match (L.arrange s.cache).find? (L.finds desc) with
  | none =>
    match fresh with
    | none => some (s, ⟨true, none⟩)
    | some l =>
      if (s.zeLists l).isSome then none
      else
        some (⟨Function.update s.zeLists l (some ⟨createCommandList desc, true, []⟩), s.cache,
          (l, desc) :: s.held⟩, ⟨true, some l⟩)
  | some (_, []) => none
  | some (key, l :: rest) =>
    let others := s.cache.erase (key, l :: rest)
    -- an entry goes with its last list
    let cache := if rest.isEmpty then others else (key, rest) :: others
    some (⟨s.zeLists, cache, (l, desc) :: s.held⟩, ⟨false, some l⟩)

def getImmediateCommandList (s : CommandLists) (zeDevice : Nat) (isInOrder : Bool)
    (ordinal : Nat) (copyOffloadEnable : Bool) (mode : QueueMode) (priority : QueuePriority)
    (index : Option Nat) (L : Layout) (fresh : Option Nat) : Option (CommandLists × Got) :=
  s.getCommandList
    (.immediate ⟨zeDevice, isInOrder, ordinal, copyOffloadEnable, mode, priority, index⟩) L fresh

def getRegularCommandList (s : CommandLists) (zeDevice : Nat) (isInOrder : Bool) (ordinal : Nat)
    (copyOffloadEnable : Bool) (L : Layout) (fresh : Option Nat) : Option (CommandLists × Got) :=
  s.getCommandList (.regular ⟨zeDevice, isInOrder, ordinal, copyOffloadEnable⟩) L fresh

def addCommandList (s : CommandLists) (desc : CommandListDesc) (L : Layout) (l : Nat) :
    CommandLists :=
  match (L.arrange s.cache).find? (L.finds desc) with
  | none => { s with cache := (desc, [l]) :: s.cache }
  | some (key, stack) => { s with cache := (key, l :: stack) :: s.cache.erase (key, stack) }

/-- The deleter of a handle. -/
def release (s : CommandLists) (l : Nat) (L : Layout) : Option CommandLists :=
  match s.held.find? fun h => h.1 == l with
  | none => none
  | some (l, desc) => some ({ s with held := s.held.erase (l, desc) }.addCommandList desc L l)

/-- The holder of a list appends a command; the driver refuses it on a closed list. -/
def append (s : CommandLists) (l command : Nat) : Option CommandLists :=
  match s.held.find? fun h => h.1 == l, s.zeLists l with
  | some _, some z =>
    match z.create with
    | .immediate _ _ => some s
    | .regular _ _ =>
      if z.isOpen then
        some { s with
          zeLists := Function.update s.zeLists l
            (some { z with commands := z.commands ++ [command] }) }
      else some s
  | _, _ => none

/-- `zeCommandListClose` by the holder of a list. -/
def close (s : CommandLists) (l : Nat) : Option CommandLists :=
  match s.held.find? fun h => h.1 == l, s.zeLists l with
  | some _, some z =>
    some { s with zeLists := Function.update s.zeLists l (some { z with isOpen := false }) }
  | _, _ => none

end CommandLists

/-! ## Runs -/

inductive CacheOp where
  | getImmediate (desc : ImmediateDesc) (L : Layout) (fresh : Option Nat)
  | getRegular (desc : RegularDesc) (L : Layout) (fresh : Option Nat)
  | release (l : Nat) (L : Layout)
  | append (l command : Nat)
  | close (l : Nat)

namespace CommandLists

/-- A step, with what a request did. -/
def step (s : CommandLists) : CacheOp → Option (CommandLists × Option Got)
  | .getImmediate d L fresh =>
    (s.getImmediateCommandList d.zeDevice d.isInOrder d.ordinal d.copyOffloadEnabled d.mode
      d.priority d.index L fresh).map fun r => (r.1, some r.2)
  | .getRegular d L fresh =>
    (s.getRegularCommandList d.zeDevice d.isInOrder d.ordinal d.copyOffloadEnabled L fresh).map
      fun r => (r.1, some r.2)
  | .release l L => (s.release l L).map fun s' => (s', none)
  | .append l command => (s.append l command).map fun s' => (s', none)
  | .close l => (s.close l).map fun s' => (s', none)

def run (s : CommandLists) : List CacheOp → Option CommandLists
  | [] => some s
  | op :: ops => (s.step op).bind fun r => r.1.run ops

/-! ## Where lists are -/

/-- The lists that are in the cache. -/
def stored (s : CommandLists) : List Nat := s.cache.flatMap fun e => e.2

/-- The lists that are out. -/
def out (s : CommandLists) : List Nat := s.held.map fun h => h.1

/-- Each list of the driver is held by one caller or stored once. -/
structure OwnedOnce (s : CommandLists) : Prop where
  nodup : (s.stored ++ s.out).Nodup
  owned : ∀ l, (s.zeLists l).isSome ↔ l ∈ s.stored ++ s.out

/-- A request is served with a list for its descriptor, created only if none is in the
cache; a regular list is open and empty. -/
structure ServedExactly (s : CommandLists) (desc : CommandListDesc) (s' : CommandLists)
    (got : Got) : Prop where
  descriptor : ∀ l, got.list = some l →
    ∃ z, s'.zeLists l = some z ∧ z.create = createCommandList desc
  created : got.created = true → ∀ l ∈ s.stored, ∀ z, s.zeLists l = some z →
    z.create ≠ createCommandList desc
  fresh : (∃ d, desc = .regular d) → ∀ l, got.list = some l →
    ∃ z, s'.zeLists l = some z ∧ z.isOpen = true ∧ z.commands = []

end CommandLists

/-- The descriptor of a request. -/
def CacheOp.desc : CacheOp → Option CommandListDesc
  | .getImmediate d _ _ => some (.immediate d)
  | .getRegular d _ _ => some (.regular d)
  | .release _ _ | .append _ _ | .close _ => none

/-- No other key is taken for the descriptor. -/
def CommandLists.Distinguished (s : CommandLists) (desc : CommandListDesc) (L : Layout) : Prop :=
  ∀ e ∈ s.cache, L.finds desc e = true → e.1 = desc

/-- The condition on a step: no other key is taken for the descriptor, and a regular
list comes back open and empty. -/
def CacheOp.Meets (s : CommandLists) : CacheOp → Prop
  | .getImmediate d L _ => s.Distinguished (.immediate d) L
  | .getRegular d L _ => s.Distinguished (.regular d) L
  | .release l L => ∀ desc, (l, desc) ∈ s.held → s.Distinguished desc L ∧
      ((∃ d, desc = .regular d) → ∀ z, s.zeLists l = some z → z.isOpen = true ∧ z.commands = [])
  | .append _ _ | .close _ => True

/-- Every step of a run meets the condition. -/
def CommandLists.AllMeet (s : CommandLists) : List CacheOp → Prop
  | [] => True
  | op :: ops => op.Meets s ∧ ∀ r, s.step op = some r → r.1.AllMeet ops

end UnifiedRuntime.LevelZeroV2
