import UnifiedRuntime.Lib.Str

/-!
# Queue groups and their indices

A queue has a group of compute queues and a group of copy queues, for each host thread if it is
asked to. `ur_queue_handle_t_` restricts each group to a range of indices, by the device, the
`computeIndex` property or the environment, and commands take the indices of the range in turn.
The copy group has the main copy engine first and the link copy engines after it;
`getQueueIndex` turns an index into the ordinal of a native group and an index there.

An ordinal or index of -1 is `none`. `uint32_t` and `size_t` are numbers with explicit wrapping.
A queue that is not created (an exception, `die`, or an assertion that is compiled in) is `none`.
-/

namespace UnifiedRuntime.LevelZero.QueueGroups

/-! ## The environment -/

abbrev intMax : Int := 2 ^ 31 - 1

/-- A conversion to `uint32_t`. -/
def toU32 (v : Int) : Nat := (v % 2 ^ 32).toNat

/-- A conversion to `int`. -/
def toI32 (v : Int) : Int := (v + 2 ^ 31) % 2 ^ 32 - 2 ^ 31

/-- The number that a string begins with: space, a sign and digits; `none` without digits. -/
def leadingInt (s : Str) : Option Int :=
  let (negative, rest) :=
    match s.dropWhile Str.isSpace with
    | '-' :: rest => (true, rest)
    | '+' :: rest => (false, rest)
    | rest => (false, rest)
  let digits := rest.takeWhile Char.isDigit
  if digits.isEmpty then none
  else some (if negative then -(Str.decimal digits : Int) else Str.decimal digits)

/-- `std::stoi`. -/
def stoi (s : Str) : Except Str.StdException Int :=
  match leadingInt s with
  | none => .error .invalidArgument
  | some v => if -(2 ^ 31) ≤ v ∧ v ≤ intMax then .ok v else .error .outOfRange

/-- `std::atoi`, the `int` of what `strtol` returns. -/
def atoi (s : Str) : Int :=
  toI32 (max (-(2 ^ 63)) (min ((leadingInt s).getD 0) (2 ^ 63 - 1)))

/-- `getRangeOfAllowedComputeEngines`, of the `UR_` variable or else of the `SYCL_PI_` one. -/
def getRangeOfAllowedComputeEngines (env : Option Str) : Int × Int :=
  match env with
  | none => (0, 0)
  | some s => if 0 ≤ atoi s then (atoi s, atoi s) else (0, intMax)

/-- `getRangeOfAllowedCopyEngines`, of the variable that is set. -/
def getRangeOfAllowedCopyEngines (env : Option Str) (immCommandListUsed : Bool) :
    Except Str.StdException (Int × Int) :=
  match env with
  | none => .ok (if immCommandListUsed then (0, 0) else (0, intMax))
  | some copyEngineRange =>
    match Str.find copyEngineRange ':' 0 with
    | none => do
      let useCopyEngine ← stoi copyEngineRange
      pure (if useCopyEngine ≠ 0 then (0, intMax) else (-1, -1))
    | some pos => do
      let lower ← stoi (Str.substr copyEngineRange 0 (some pos))
      let upper ← stoi (Str.substr copyEngineRange (pos + 1) none)
      pure (if lower > upper ∨ lower < -1 ∨ upper < -1 then (0, intMax) else (lower, upper))

/-! ## Devices -/

/-- The properties of a native group. -/
structure GroupProperties where
  compute : Bool
  copy : Bool
  numQueues : UInt32

/-- `queue_group_info_t`. -/
structure QueueGroupInfo where
  zeOrdinal : Option Nat
  zeIndex : Option Nat
  numQueues : UInt32

def QueueGroupInfo.unavailable : QueueGroupInfo := ⟨none, none, 0⟩

inductive QueueType where
  | mainCopy
  | linkCopy
  | compute
deriving DecidableEq

/-- The queue groups of a device. -/
structure Device where
  compute : QueueGroupInfo
  mainCopy : QueueGroupInfo
  linkCopy : QueueGroupInfo
  immCommandListUsed : Bool

def Device.queueGroup (d : Device) : QueueType → QueueGroupInfo
  | .mainCopy => d.mainCopy
  | .linkCopy => d.linkCopy
  | .compute => d.compute

def Device.hasMainCopyEngine (d : Device) : Bool := d.mainCopy.zeOrdinal.isSome

def Device.hasLinkCopyEngine (d : Device) : Bool := d.linkCopy.zeOrdinal.isSome

/-- The first native group for compute, from number `i` on. -/
def computeGroupInfo (i : Nat) : List GroupProperties → QueueGroupInfo
  | [] => .unavailable
  | p :: ps => if p.compute then ⟨some i, none, p.numQueues⟩ else computeGroupInfo (i + 1) ps

/-- The loop over the native groups for copies only: one with a single queue is the main one,
another ends the loop. -/
def copyGroupInfos (i : Nat) (main : QueueGroupInfo) :
    List GroupProperties → QueueGroupInfo × QueueGroupInfo
  | [] => (main, .unavailable)
  | p :: ps =>
    if !p.compute && p.copy then
      if p.numQueues = 1 then copyGroupInfos (i + 1) ⟨some i, none, p.numQueues⟩ ps
      else (main, ⟨some i, none, p.numQueues⟩)
    else copyGroupInfos (i + 1) main ps

/-- `ur_device_handle_t_::initialize`, with ordinal and index for a sub-sub-device. -/
def initializeDevice (copyEnv : Option Str) (immCommandListUsed : Bool) (groups : List GroupProperties)
    (subSubDevice : Option (Nat × Nat)) : Option Device :=
  let compute := computeGroupInfo 0 groups
  match subSubDevice with
  | some (ordinal, index) =>
    some ⟨⟨some ordinal, some index, compute.numQueues⟩, .unavailable, .unavailable,
      immCommandListUsed⟩
  | none =>
    if compute.zeOrdinal = none then none
    else match getRangeOfAllowedCopyEngines copyEnv immCommandListUsed with
    | .error _ => none
    | .ok (lower, upper) =>
      let copies := if lower ≠ -1 ∨ upper ≠ -1 then copyGroupInfos 0 .unavailable groups
        else (.unavailable, .unavailable)
      some ⟨compute, copies.1, copies.2, immCommandListUsed⟩

/-! ## The groups of a queue -/

/-- `ur_queue_group_t`, with the number of its `ZeQueues`. -/
structure QueueGroup where
  type : QueueType
  zeQueues : Nat
  lowerIndex : Nat
  upperIndex : Nat
  nextIndex : Nat
deriving DecidableEq

/-- `(std::min)((size_t)FilterUpperIndex, FilterLowerIndex + Queues.size() - 1)`, assigned to a
`uint32_t`. -/
def filterUpperIndex (lower upper zeQueues : Nat) : Nat :=
  min upper ((lower + zeQueues + 2 ^ 64 - 1) % 2 ^ 64) % 2 ^ 32

/-- The compute group of the constructor. -/
def computeGroup (asserts : Bool) (computeEnv : Option Str) (d : Device) (computeQueues : Nat)
    (forceComputeIndex : Int) : Option QueueGroup :=
  match d.compute.zeIndex with
  | some index =>
    if asserts && decide (0 < forceComputeIndex) then none
    else some ⟨.compute, computeQueues, index, index, index⟩
  | none =>
    if 0 ≤ forceComputeIndex then
      let index := toU32 forceComputeIndex
      some ⟨.compute, computeQueues, index, index, index⟩
    else
      let range := getRangeOfAllowedComputeEngines computeEnv
      let lower := toU32 range.1
      let upper := filterUpperIndex lower (toU32 range.2) computeQueues
      if lower ≤ upper then some ⟨.compute, computeQueues, lower, upper, lower⟩ else none

/-- The copy group of the constructor; without `ZeQueues` it is not used. -/
def copyGroup (copyEnv : Option Str) (d : Device) (copyQueues : Nat) : Option QueueGroup :=
  match getRangeOfAllowedCopyEngines copyEnv d.immCommandListUsed with
  | .error _ => none
  | .ok (first, second) =>
    if first < 0 ∨ second < 0 then some ⟨.mainCopy, 0, 0, 0, 0⟩
    else
      let lower := toU32 first
      let upper := filterUpperIndex lower (toU32 second) copyQueues
      if lower ≤ upper then some ⟨.mainCopy, copyQueues, lower, upper, lower⟩
      else some ⟨.mainCopy, 0, 0, 0, 0⟩

/-- The groups that the constructor leaves, for the thread that creates the queue. -/
structure Queue where
  compute : QueueGroup
  copy : QueueGroup
deriving DecidableEq

/-- The `int` of the `computeIndex` property, -1 for the default. -/
def forceComputeIndex : Option UInt32 → Int
  | some index => toI32 index.toNat
  | none => -1

/-- `NumCopyGroups`: the queues of the main and of the link group. -/
def Device.numCopyQueues (d : Device) : Nat :=
  (if d.hasMainCopyEngine then d.mainCopy.numQueues.toNat else 0) +
    if d.hasLinkCopyEngine then d.linkCopy.numQueues.toNat else 0

/-- `urQueueCreate`, with the `computeIndex` property. -/
def urQueueCreate (asserts : Bool) (computeEnv copyEnv : Option Str) (d : Device)
    (computeIndex : Option UInt32) : Option Queue := do
  let compute ← computeGroup asserts computeEnv d d.compute.numQueues.toNat
    (forceComputeIndex computeIndex)
  let copy ← copyGroup copyEnv d d.numCopyQueues
  pure ⟨compute, copy⟩

/-! ## Taking an index -/

/-- What `getQueueIndex` returns. -/
structure Index where
  index : Nat
  queueGroupOrdinal : Nat
  queueIndex : Nat

/-- The type of the native group behind an index. -/
def indexType (d : Device) (type : QueueType) (index : Nat) : QueueType :=
  if type ≠ .compute then
    if index = 0 && d.hasMainCopyEngine then .mainCopy else .linkCopy
  else .compute

/-- The ordinal and the native index of an index; an ordinal of -1 as `uint32_t`. -/
def nativeIndex (d : Device) (type : QueueType) (index : Nat) : Nat × Nat :=
  let queueType := indexType d type index
  let ordinal := ((d.queueGroup queueType).zeOrdinal).getD (2 ^ 32 - 1)
  if queueType = .linkCopy && d.hasMainCopyEngine then
    (ordinal, (index + 2 ^ 32 - 1) % 2 ^ 32)
  else (ordinal, index)

/-- `++NextIndex; if (NextIndex > UpperIndex) NextIndex = LowerIndex;` -/
def QueueGroup.advance (g : QueueGroup) : QueueGroup :=
  let nextIndex := (g.nextIndex + 1) % 2 ^ 32
  { g with nextIndex := if g.upperIndex < nextIndex then g.lowerIndex else nextIndex }

/-- `getQueueIndex`. -/
def getQueueIndex (d : Device) (g : QueueGroup) (queryOnly : Bool) : QueueGroup × Index :=
  let currentIndex := g.nextIndex
  let native := nativeIndex d g.type currentIndex
  (if queryOnly then g else g.advance, ⟨currentIndex, native.1, native.2⟩)

/-! ## Groups of threads -/

/-- `pi_queue_group_by_tid_t`, with the master entry first. -/
abbrev GroupsByTid := List (Nat × QueueGroup)

/-- `get()`, which copies an entry for a thread that has none; `tid` is that of the thread, or the
same for all. -/
def GroupsByTid.get (groups : GroupsByTid) (tid : Nat) (master : QueueGroup) : QueueGroup :=
  match groups.lookup tid with
  | some g => g
  | none => master

/-- A thread takes an index, or asks for it; `entry` is the one that `begin()` points to. -/
structure Step where
  tid : Nat
  queryOnly : Bool
  entry : Nat

def GroupsByTid.step (d : Device) (groups : GroupsByTid) (s : Step) : GroupsByTid :=
  match groups[s.entry]? with
  | none => groups
  | some master =>
    let g := groups.get s.tid master.2
    (s.tid, (getQueueIndex d g s.queryOnly).1) :: groups.filter fun e => e.1 ≠ s.tid

def GroupsByTid.run (d : Device) (groups : GroupsByTid) (steps : List Step) : GroupsByTid :=
  steps.foldl (GroupsByTid.step d) groups

end UnifiedRuntime.LevelZero.QueueGroups
