import UnifiedRuntime.Lib.Except

/-!
# Work-groups of a kernel

`calculateKernelWorkDimensions` splits a global size into groups, with the local size that the
application gives or with one that is suggested: by the driver where all sizes fit into 32 bits,
and by counting down from the device's limit to a divisor in each dimension otherwise.
`urEnqueueCooperativeKernelLaunchExp` has the computation a second time.

The size arrays have one entry for each dimension; a read beyond the last and a division by
zero are faults. In the source a `uint32_t` cast of a local size is checked by an `assert`
only; it cuts the size off here.
-/

namespace UnifiedRuntime.LevelZero.WorkGroup

/-! ## Data -/

/-- An array of three. -/
abbrev Three (α : Type) := Fin 3 → α

inductive UrResult where
  | invalidValue
  | invalidWorkGroupSize
  | driver (code : Nat)

inductive Fault where
  | outOfRange
  | divisionByZero

/-- An error is returned, or something undefined happens. -/
inductive Failure where
  | result (r : UrResult)
  | undefined (f : Fault)

abbrev Result (α : Type) := Except Failure α

/-- `maxGroupSizeX`, `maxGroupSizeY`, `maxGroupSizeZ` and `maxTotalGroupSize`. -/
structure Limits where
  maxGroupSize : Three UInt32
  maxTotalGroupSize : UInt32

/-- `ZeThreadGroupDimensions` and `WG`. -/
structure WorkGroups where
  groupCount : Three UInt32
  wg : Three UInt32

/-- `zeKernelSuggestGroupSize`. -/
abbrev SuggestGroupSize := Three UInt64 → Except UrResult (Three UInt32)

/-! ## Reading the sizes -/

def read (sizes : List UInt64) (i : Nat) : Result UInt64 :=
  match sizes[i]? with
  | some size => .ok size
  | none => .error (.undefined .outOfRange)

/-- The sizes of `workDim` dimensions, and 1 in the others. -/
def padded (workDim : Nat) (sizes : List UInt64) : Three UInt64 := fun i =>
  if i.val < workDim then sizes.getD i.val 1 else 1

/-- `GlobalWorkSize3D`: `std::copy` of `WorkDim` entries over ones. -/
def globalWorkSize3D (workDim : Nat) (globalWorkSize : List UInt64) : Result (Three UInt64) :=
  if 3 < workDim ∨ globalWorkSize.length < workDim then .error (.undefined .outOfRange)
  else .ok (padded workDim globalWorkSize)

/-- `for (int I : {0, 1, 2})`. -/
def forThree {α : Type} (f : Fin 3 → Result α) : Result (Three α) := do
  let x ← f 0
  let y ← f 1
  let z ← f 2
  pure ![x, y, z]

/-! ## The suggested size -/

/-- `while (GlobalWorkSize3D[I] % GroupSize[I]) --GroupSize[I];` -/
def countDown (globalWorkSize : Nat) : Nat → Nat
  | 0 => 0
  | groupSize + 1 =>
    if globalWorkSize % (groupSize + 1) = 0 then groupSize + 1
    else countDown globalWorkSize groupSize

/-- One dimension of the computed size. -/
def suggestDimension (maxGroupSize : UInt32) (globalWorkSize : UInt64) : Result UInt32 :=
  let groupSize := min maxGroupSize.toNat globalWorkSize.toNat
  if groupSize = 0 then .error (.undefined .divisionByZero)
  else
    let groupSize := countDown globalWorkSize.toNat groupSize
    if 2 ^ 32 - 1 < globalWorkSize.toNat / groupSize then
      .error (.result .invalidWorkGroupSize)
    else .ok (UInt32.ofNat groupSize)

/-- `getSuggestedLocalWorkSize`. -/
def getSuggestedLocalWorkSize (suggest : SuggestGroupSize) (limits : Limits)
    (globalWorkSize : Three UInt64) : Result (Three UInt32) :=
  if ∀ i, (globalWorkSize i).toNat ≤ 2 ^ 32 - 1 then
    (suggest globalWorkSize).mapError .result
  else forThree fun i => suggestDimension (limits.maxGroupSize i) (globalWorkSize i)

/-! ## The number of groups -/

/-- `ur_cast<uint32_t>(GlobalWorkSize3D[I] / WG[I])`. -/
def divide (globalWorkSize : UInt64) (wg : UInt32) : Result UInt32 :=
  if wg = 0 then .error (.undefined .divisionByZero)
  else .ok (globalWorkSize / wg.toUInt64).toUInt32

/-- The non-uniform group size case is an error. -/
def checkUniform (globalWorkSize : Three UInt64) (r : WorkGroups) : Result WorkGroups :=
  if globalWorkSize 0 ≠ (r.groupCount 0).toUInt64 * (r.wg 0).toUInt64 then
    .error (.result .invalidWorkGroupSize)
  else if globalWorkSize 1 ≠ (r.groupCount 1).toUInt64 * (r.wg 1).toUInt64 then
    .error (.result .invalidWorkGroupSize)
  else if globalWorkSize 2 ≠ (r.groupCount 2).toUInt64 * (r.wg 2).toUInt64 then
    .error (.result .invalidWorkGroupSize)
  else .ok r

/-- The `switch` over the work dimension, from group counts of 1. -/
def groupCounts (workDim : Nat) (globalWorkSize : Three UInt64) (wg : Three UInt32) :
    Result WorkGroups :=
  match workDim with
  | 3 => do
    let x ← divide (globalWorkSize 0) (wg 0)
    let y ← divide (globalWorkSize 1) (wg 1)
    let z ← divide (globalWorkSize 2) (wg 2)
    checkUniform globalWorkSize ⟨![x, y, z], wg⟩
  | 2 => do
    let x ← divide (globalWorkSize 0) (wg 0)
    let y ← divide (globalWorkSize 1) (wg 1)
    checkUniform globalWorkSize ⟨![x, y, 1], ![wg 0, wg 1, 1]⟩
  | 1 => do
    let x ← divide (globalWorkSize 0) (wg 0)
    checkUniform globalWorkSize ⟨![x, 1, 1], ![wg 0, 1, 1]⟩
  | _ => .error (.result .invalidValue)

/-! ## The two computations -/

/-- The local size that is given, of `workDim` entries. -/
def givenLocalWorkSize (workDim : Nat) (localWorkSize : List UInt64) : Result (Three UInt32) := do
  let x ← read localWorkSize 0
  let y ← if 2 ≤ workDim then read localWorkSize 1 else pure 1
  let z ← if workDim = 3 then read localWorkSize 2 else pure 1
  pure ![x.toUInt32, y.toUInt32, z.toUInt32]

/-- `calculateKernelWorkDimensions`; there is a kernel to ask for a size. -/
def calculateKernelWorkDimensions (suggest : SuggestGroupSize) (limits : Limits) (workDim : Nat)
    (globalWorkSize : Option (List UInt64)) (localWorkSize : Option (List UInt64)) :
    Result WorkGroups :=
  match globalWorkSize with
  | none => .error (.result .invalidValue)
  | some sizes => do
    let globalWorkSize ← globalWorkSize3D workDim sizes
    let wg ← match localWorkSize with
      | some l => givenLocalWorkSize workDim l
      | none => getSuggestedLocalWorkSize suggest limits globalWorkSize
    groupCounts workDim globalWorkSize wg

/-- `UR_ASSERT(LocalWorkSize[I] < (std::numeric_limits<uint32_t>::max)(), ..)`. -/
def assertFits (localWorkSize : UInt64) : Result Unit :=
  if localWorkSize.toNat < 2 ^ 32 - 1 then .ok () else .error (.result .invalidValue)

/-- The local size of a cooperative launch, three entries in every case. -/
def cooperativeLocalWorkSize (localWorkSize : List UInt64) : Result (Three UInt32) := do
  let x ← read localWorkSize 0
  assertFits x
  let y ← read localWorkSize 1
  assertFits y
  let z ← read localWorkSize 2
  assertFits z
  pure ![x.toUInt32, y.toUInt32, z.toUInt32]

/-- The computation of `urEnqueueCooperativeKernelLaunchExp`. -/
def cooperativeWorkDimensions (suggest : SuggestGroupSize) (limits : Limits) (workDim : Nat)
    (globalWorkSize : List UInt64) (localWorkSize : Option (List UInt64)) : Result WorkGroups := do
  let globalWorkSize ← globalWorkSize3D workDim globalWorkSize
  let wg ← match localWorkSize with
    | some l => cooperativeLocalWorkSize l
    | none => getSuggestedLocalWorkSize suggest limits globalWorkSize
  groupCounts workDim globalWorkSize wg

end UnifiedRuntime.LevelZero.WorkGroup
