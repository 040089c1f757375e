import UnifiedRuntime.Common.LocalSizeGuess
import UnifiedRuntime.Cuda.KernelParams

/-!
# The sizes of a launch

The CUDA and the HIP adapter have `setKernelParams` and the launch behind it in common, but for the
checks of a local size that is asked for. Only the first dimension of the range is looked at for a
range without work. Sizes have 64 bits, and the driver is given 32 of them.

A kernel that has no function with an offset parameter has no implicit offset.

- `covers_iff`: when blocks of a size that divides the range make up the range.
- `launchSizes_iff`: when a launch is as it was asked for.
-/

namespace UnifiedRuntime.LaunchSizes

open Cuda (ParamsResult)

inductive Adapter where
  | cuda
  | hip

/-- What is read of the device and the kernel. `maxPotentialBlockSize` is the driver's answer, and
`localMemory` what the checks of the local memory end with; none of it is read where the adapter
does not ask for it. -/
structure Limits where
  maxBlockDim : Nat → UInt64
  maxWorkGroupSize : UInt64
  maxRegsPerBlock : UInt64
  reqdThreadsPerBlock : Nat → UInt64
  maxThreadsPerBlock : Nat → UInt64
  maxLinearThreadsPerBlock : UInt64
  regsPerThread : UInt64
  maxPotentialBlockSize : Except ParamsResult UInt64
  offsetVariant : Bool
  localMemory : Option ParamsResult

structure Request where
  workDim : Nat
  globalWorkOffset : Option (Nat → UInt64)
  globalWorkSize : Nat → UInt64
  localWorkSize : Option (Nat → UInt64)

/-! ## The functions -/

/-- `IsValid`. The HIP adapter has the pointer where it means the size. -/
def isValid (limits : Limits) (globalWorkSize localWorkSize : Nat → UInt64) (dim : Nat) :
    Adapter → Except Stop Bool
  | .cuda => .ok <|
    !(limits.reqdThreadsPerBlock dim != 0 && localWorkSize dim != limits.reqdThreadsPerBlock dim) &&
    !(limits.maxThreadsPerBlock dim != 0 &&
      decide (limits.maxThreadsPerBlock dim < localWorkSize dim)) &&
    !decide (limits.maxBlockDim dim < localWorkSize dim) &&
    localWorkSize dim != 0 && globalWorkSize dim % localWorkSize dim == 0
  | .hip =>
    if ¬ (limits.reqdThreadsPerBlock dim = 0 ∨
        localWorkSize dim = limits.reqdThreadsPerBlock dim) then .ok false
    else if ¬ localWorkSize dim ≤ limits.maxBlockDim dim then .ok false
    else if localWorkSize dim = 0 then .error .fault
    else .ok (globalWorkSize dim % localWorkSize dim == 0)

/-- The loop over the dimensions, up to the first that is not valid. -/
def areValid (check : Nat → Except Stop Bool) : Nat → Except Stop Bool
  | 0 => .ok true
  | dims + 1 => (areValid check dims).bind fun valid => if valid then check dims else .ok false

/-- `KernelLocalWorkGroupSize`. -/
def groupSize (localWorkSize : Nat → UInt64) : Nat → UInt64
  | 0 => 1
  | dims + 1 => groupSize localWorkSize dims * localWorkSize dims

/-- The checks of the CUDA adapter for all dimensions together. -/
def groupChecks (limits : Limits) (size : UInt64) : Adapter → Option ParamsResult
  | .hip => none
  | .cuda =>
    if limits.maxLinearThreadsPerBlock ≠ 0 ∧ limits.maxLinearThreadsPerBlock < size then
      some .invalidWorkGroupSize
    else if limits.maxRegsPerBlock < size * limits.regsPerThread then some .outOfResources
    else none

/-- The total size that a guess keeps to. -/
def maxBlockSize (limits : Limits) : Adapter → Except ParamsResult UInt64
  | .cuda => limits.maxPotentialBlockSize
  | .hip => .ok (limits.maxBlockDim 0)

/-- `ThreadsPerBlock` as it is set before the checks. -/
def padded (workDim : Nat) (localWorkSize : Nat → UInt64) (dim : Nat) : UInt64 :=
  if dim < workDim then localWorkSize dim else if dim = 0 then 32 else 1

/-- `GlobalSizeNormalized`. -/
def normalized (req : Request) (dim : Nat) : Nat :=
  if dim < req.workDim then (req.globalWorkSize dim).toNat else 1

/-- `guessLocalWorkSize`. -/
def guessLocalWorkSize (limits : Limits) (req : Request) (maxBlockSize : UInt64) :
    Except Stop (Nat → UInt64) :=
  (roundToHighestFactorOfGlobalSizeIn3d ⟨normalized req 0, normalized req 1, normalized req 2⟩
    ⟨(limits.maxBlockDim 0).toNat, (limits.maxBlockDim 1).toNat, (limits.maxBlockDim 2).toNat⟩
    maxBlockSize.toNat).map fun s dim =>
      UInt64.ofNat (if dim = 0 then s.x else if dim = 1 then s.y else s.z)

/-- `ThreadsPerBlock`, where it is not turned down. -/
def chooseBlock (adapter : Adapter) (limits : Limits) (req : Request) :
    Except Stop (Except ParamsResult (Nat → UInt64)) :=
  match req.localWorkSize with
  | some l =>
    (areValid (isValid limits req.globalWorkSize l · adapter) req.workDim).map fun valid =>
      if !valid then .error .invalidWorkGroupSize
      else match groupChecks limits (groupSize l req.workDim) adapter with
        | some result => .error result
        | none => .ok (padded req.workDim l)
  | none =>
    match maxBlockSize limits adapter with
    | .error result => .ok (.error result)
    | .ok size => (guessLocalWorkSize limits req size).map .ok

/-- What the driver is given. -/
structure Launch where
  withOffset : Bool
  gridDim : Nat → UInt32
  blockDim : Nat → UInt32
  implicitOffset : Nat → UInt32

def Request.offset (req : Request) (dim : Nat) : UInt64 :=
  match req.globalWorkOffset with
  | none => 0
  | some offset => offset dim

/-- The rest of `setKernelParams`, with the sizes as the driver has them. -/
def launchWith (limits : Limits) (req : Request) (threads : Nat → UInt64) :
    Except Stop (Except ParamsResult Launch) :=
  if limits.maxWorkGroupSize < threads 0 * threads 1 * threads 2 then
    .ok (.error .invalidWorkGroupSize)
  else if ∃ dim < req.workDim, threads dim = 0 then .error .fault
  else match limits.localMemory with
    | some result => .ok (.error result)
    | none => .ok (.ok {
        withOffset := limits.offsetVariant && decide (∃ dim < req.workDim, req.offset dim ≠ 0)
        gridDim := fun dim => if dim < req.workDim then
          ((req.globalWorkSize dim + threads dim - 1) / threads dim).toUInt32 else 1
        blockDim := fun dim => (threads dim).toUInt32
        implicitOffset := fun dim => if dim < req.workDim then (req.offset dim).toUInt32 else 0 })

def setKernelParams (adapter : Adapter) (limits : Limits) (req : Request) :
    Except Stop (Except ParamsResult Launch) :=
  (chooseBlock adapter limits req).bind fun block =>
    match block with
    | .error result => .ok (.error result)
    | .ok threads => launchWith limits req threads

inductive Launched where
  | invalidWorkDimension
  | refused (result : ParamsResult)
  | wait
  | launch (launch : Launch)

def Launched.ofParams : Except ParamsResult Launch → Launched
  | .error result => .refused result
  | .ok l => .launch l

/-- `enqueueKernelLaunch`, and `urEnqueueKernelLaunch` of the HIP adapter. -/
def enqueueKernelLaunch (adapter : Adapter) (limits : Limits) (req : Request) :
    Except Stop Launched :=
  if req.workDim = 0 ∨ 4 ≤ req.workDim then .ok .invalidWorkDimension
  else if req.globalWorkSize 0 = 0 then .ok .wait
  else (setKernelParams adapter limits req).map Launched.ofParams

/-! ## Launches as asked -/

/-- A launch has the range, keeps to the limits of the device and has the offset. -/
structure AsAsked (limits : Limits) (req : Request) (l : Launch) : Prop where
  range : ∀ dim < req.workDim,
    (l.gridDim dim).toNat * (l.blockDim dim).toNat = (req.globalWorkSize dim).toNat
  block : ∀ dim < req.workDim, (l.blockDim dim).toNat ≤ (limits.maxBlockDim dim).toNat
  total : (l.blockDim 0).toNat * (l.blockDim 1).toNat * (l.blockDim 2).toNat ≤
    limits.maxWorkGroupSize.toNat
  offset : limits.offsetVariant = true → ∀ dim < req.workDim,
    (if l.withOffset then (l.implicitOffset dim).toNat else 0) = (req.offset dim).toNat

/-- **What a call may do.** -/
def Right (limits : Limits) (req : Request) : Except Stop Launched → Prop
  | .error _ => False
  | .ok .wait => ∃ dim < req.workDim, req.globalWorkSize dim = 0
  | .ok (.launch l) => AsAsked limits req l
  | .ok _ => True

/-- No local size of 0 gets to where it divides. -/
def ExplicitDefined (limits : Limits) (req : Request) : Adapter → Prop
  | .cuda => True
  | .hip => ∀ l, req.localWorkSize = some l → ∀ dim < req.workDim,
    (∀ d < dim, isValid limits req.globalWorkSize l d .hip = .ok true) →
      limits.reqdThreadsPerBlock dim = 0 → l dim ≠ 0

/-- A guess is made where neither the range nor a limit is 0. -/
def GuessDefined (adapter : Adapter) (limits : Limits) (req : Request) : Prop :=
  req.localWorkSize = none → ∀ size, maxBlockSize limits adapter = .ok size →
    size ≠ 0 ∧ limits.maxBlockDim 0 ≠ 0 ∧ limits.maxBlockDim 1 ≠ 0 ∧
      (1 < req.workDim → req.globalWorkSize 1 ≠ 0) ∧
      (2 < req.workDim → req.globalWorkSize 2 ≠ 0 ∧ limits.maxBlockDim 2 ≠ 0)

/-- 32 bits are enough. -/
structure Fits (limits : Limits) (req : Request) (threads : Nat → UInt64) : Prop where
  range : ∀ dim < req.workDim, req.globalWorkSize dim = 0 ∨ (threads dim).toNat < 2 ^ 32 ∧
    (req.globalWorkSize dim).toNat / (threads dim).toNat < 2 ^ 32
  total : ((threads 0).toNat % 2 ^ 32) * ((threads 1).toNat % 2 ^ 32) *
    ((threads 2).toNat % 2 ^ 32) ≤ limits.maxWorkGroupSize.toNat
  offset : limits.offsetVariant = true → ∀ dim < req.workDim, (req.offset dim).toNat < 2 ^ 32

/-- Nothing is divided by 0, and a block that is not turned down fits. -/
structure Fine (adapter : Adapter) (limits : Limits) (req : Request) : Prop where
  explicit : ExplicitDefined limits req adapter
  guess : GuessDefined adapter limits req
  fits : ∀ threads, chooseBlock adapter limits req = .ok (.ok threads) →
    threads 0 * threads 1 * threads 2 ≤ limits.maxWorkGroupSize → limits.localMemory = none →
      Fits limits req threads

/-! ## Blocks -/

/-- **Blocks that divide the range make up the range** if 32 bits are enough for both. -/
theorem covers_iff {g t : UInt64} (ht : t ≠ 0) (hdvd : t.toNat ∣ g.toNat) :
    ((g + t - 1) / t).toUInt32.toNat * t.toUInt32.toNat = g.toNat ↔
      g = 0 ∨ t.toNat < 2 ^ 32 ∧ g.toNat / t.toNat < 2 ^ 32 := by
  have hpos : 0 < t.toNat := Nat.pos_of_ne_zero fun h => ht (UInt64.toNat_inj.mp h)
  have hg := g.toNat_lt
  have htlt := t.toNat_lt
  obtain ⟨q, hq⟩ := hdvd
  have hquot : g.toNat / t.toNat = q := by rw [hq, Nat.mul_div_cancel_left q hpos]
  have hsum : (g + t - 1).toNat = (g.toNat + t.toNat - 1) % 2 ^ 64 := by
    show (2 ^ 64 - 1 + (g.toNat + t.toNat) % 2 ^ 64) % 2 ^ 64 = _
    omega
  have hzero : g = 0 ↔ q = 0 := by
    rw [← UInt64.toNat_inj, hq]
    constructor
    · exact fun h => (Nat.mul_eq_zero.mp h).resolve_left (by omega)
    · intro h
      rw [h]
      rfl
  rw [UInt64.toNat_toUInt32, UInt64.toNat_toUInt32, UInt64.toNat_div, hsum, hquot, hzero]
  by_cases hwrap : g.toNat + t.toNat - 1 < 2 ^ 64
  · have hblocks : (g.toNat + t.toNat - 1) / t.toNat = q := by
      rw [hq, show t.toNat * q + t.toNat - 1 = t.toNat - 1 + t.toNat * q by omega,
        Nat.add_mul_div_left _ _ hpos, Nat.div_eq_of_lt (by omega), Nat.zero_add]
    rw [Nat.mod_eq_of_lt hwrap, hblocks, hq]
    constructor
    · intro hmul
      by_contra hbig
      push Not at hbig
      have hqpos : 0 < q := Nat.pos_of_ne_zero hbig.1
      have hqle := Nat.mod_le q (2 ^ 32)
      by_cases hlt : t.toNat < 2 ^ 32
      · rw [Nat.mod_eq_of_lt hlt, Nat.mul_comm] at hmul
        exact absurd (Nat.eq_of_mul_eq_mul_left hpos hmul) (by omega)
      · have htmod : t.toNat % 2 ^ 32 < t.toNat := by omega
        have hle : q % 2 ^ 32 * (t.toNat % 2 ^ 32) ≤ q * (t.toNat % 2 ^ 32) :=
          Nat.mul_le_mul_right _ hqle
        have hlt' : q * (t.toNat % 2 ^ 32) < q * t.toNat := Nat.mul_lt_mul_of_pos_left htmod hqpos
        rw [hmul, Nat.mul_comm t.toNat] at hle
        omega
    · intro hsmall
      rcases hsmall with hzero | ⟨hlt, hqlt⟩
      · rw [hzero, Nat.zero_mul, Nat.mul_zero]
      · rw [Nat.mod_eq_of_lt hlt, Nat.mod_eq_of_lt hqlt, Nat.mul_comm]
  · -- the sum wraps, and no block is left
    have hsmall : (g.toNat + t.toNat - 1) % 2 ^ 64 < t.toNat := by omega
    rw [Nat.div_eq_of_lt hsmall]
    refine iff_of_false (fun h => ?_) fun h => ?_
    · omega
    · rcases h with h | ⟨hlt, hqlt⟩
      · rw [h] at hq
        omega
      · have hle : t.toNat * q ≤ (2 ^ 32 - 1) * (2 ^ 32 - 1) :=
          Nat.mul_le_mul (by omega) (by omega)
        omega

/-! ## Local sizes -/

variable {adapter : Adapter} {limits : Limits} {req : Request} {g l threads : Nat → UInt64}
  {dim dims : Nat} {check : Nat → Except Stop Bool}

theorem areValid_true : areValid check dims = .ok true ↔ ∀ dim < dims, check dim = .ok true := by
  induction dims with
  | zero => exact iff_of_true rfl fun _ h => absurd h (Nat.not_lt_zero _)
  | succ dims ih =>
    rw [areValid, Nat.forall_lt_succ_right, ← ih]
    cases areValid check dims with
    | error stop => exact iff_of_false nofun fun h => nomatch h.1
    | ok valid =>
      cases valid with
      | false => exact iff_of_false nofun fun h => nomatch h.1
      | true => exact (and_iff_right rfl).symm

/-- The loop ends at the first dimension that fails, so a stop behind it is not met. -/
theorem areValid_error : (∃ stop, areValid check dims = .error stop) ↔
    ∃ dim < dims, (∀ d < dim, check d = .ok true) ∧ ∃ stop, check dim = .error stop := by
  induction dims with
  | zero => exact iff_of_false nofun fun ⟨_, h, _⟩ => absurd h (Nat.not_lt_zero _)
  | succ dims ih =>
    rw [areValid]
    have hearlier : (∃ dim < dims + 1, (∀ d < dim, check d = .ok true) ∧
        ∃ stop, check dim = .error stop) ↔ (∃ stop, areValid check dims = .error stop) ∨
          areValid check dims = .ok true ∧ ∃ stop, check dims = .error stop := by
      rw [ih, areValid_true]
      constructor
      · intro ⟨dim, hlt, hstop⟩
        rcases Nat.lt_succ_iff_lt_or_eq.mp hlt with hdim | rfl
        · exact .inl ⟨dim, hdim, hstop⟩
        · exact .inr hstop
      · intro h
        rcases h with ⟨dim, hdim, hstop⟩ | hstop
        · exact ⟨dim, by omega, hstop⟩
        · exact ⟨dims, by omega, hstop⟩
    rw [hearlier]
    cases areValid check dims with
    | error stop => exact iff_of_true ⟨stop, rfl⟩ (.inl ⟨stop, rfl⟩)
    | ok valid =>
      cases valid with
      | false => exact iff_of_false nofun (by simp)
      | true => exact ⟨fun h => .inr ⟨rfl, h⟩, fun h => (h.resolve_left nofun).2⟩

/-- A local size that is valid. -/
theorem isValid_true (h : isValid limits g l dim adapter = .ok true) :
    l dim ≠ 0 ∧ (l dim).toNat ≤ (limits.maxBlockDim dim).toNat ∧
      (l dim).toNat ∣ (g dim).toNat := by
  have hdvd : g dim % l dim = 0 → (l dim).toNat ∣ (g dim).toNat := by
    intro hmod
    have hnat := congrArg UInt64.toNat hmod
    exact Nat.dvd_of_mod_eq_zero hnat
  unfold isValid at h
  cases adapter with
  | cuda =>
    have hall := Except.ok.inj h
    simp only [Bool.and_eq_true, Bool.not_eq_true', decide_eq_false_iff_not, bne_iff_ne,
      beq_iff_eq, UInt64.not_lt] at hall
    exact ⟨hall.1.2, UInt64.le_iff_toNat_le.mp hall.1.1.2, hdvd hall.2⟩
  | hip =>
    dsimp only at h
    split at h
    next => cases h
    next =>
      split at h
      next => cases h
      next hle =>
        split at h
        next => cases h
        next hne =>
          exact ⟨hne, UInt64.le_iff_toNat_le.mp (not_not.mp hle),
            hdvd (beq_iff_eq.mp (Except.ok.inj h))⟩

/-- **Where a local size divides by 0.** -/
theorem isValid_error : (∃ stop, isValid limits g l dim adapter = .error stop) ↔
    adapter = .hip ∧ limits.reqdThreadsPerBlock dim = 0 ∧ l dim = 0 := by
  unfold isValid
  cases adapter with
  | cuda => exact iff_of_false nofun fun h => nomatch h.1
  | hip =>
    dsimp only
    by_cases hreqd : limits.reqdThreadsPerBlock dim = 0 ∨ l dim = limits.reqdThreadsPerBlock dim
    · rw [if_neg (not_not.mpr hreqd)]
      by_cases hzero : l dim = 0
      · have hle : l dim ≤ limits.maxBlockDim dim := by
          rw [hzero]
          exact UInt64.zero_le
        rw [if_neg (not_not.mpr hle), if_pos hzero]
        have : limits.reqdThreadsPerBlock dim = 0 := by
          rcases hreqd with h | h
          · exact h
          · rw [← h, hzero]
        exact iff_of_true ⟨_, rfl⟩ ⟨rfl, this, hzero⟩
      · refine iff_of_false (fun ⟨stop, h⟩ => ?_) fun h => hzero h.2.2
        split at h
        next => cases h
        next => cases h
    · rw [if_pos hreqd]
      exact iff_of_false nofun fun h => hreqd (.inl h.2.1)

/-! ## The block -/

theorem normalized_zero : normalized req dim = 0 ↔
    dim < req.workDim ∧ req.globalWorkSize dim = 0 := by
  unfold normalized
  split
  next h => exact ⟨fun hz => ⟨h, UInt64.toNat_inj.mp hz⟩, fun hz => congrArg UInt64.toNat hz.2⟩
  next h => exact iff_of_false nofun fun hz => h hz.1

theorem toNat_zero {u : UInt64} : u.toNat = 0 ↔ u = 0 :=
  ⟨fun h => UInt64.toNat_inj.mp h, fun h => congrArg UInt64.toNat h⟩

/-- What the guess divides by. -/
theorem guess_error {size : UInt64} :
    (∃ stop, guessLocalWorkSize limits req size = .error stop) ↔
      (0 < req.workDim ∧ req.globalWorkSize 0 = 0) ∨ size = 0 ∨ limits.maxBlockDim 0 = 0 ∨
        (1 < req.workDim ∧ req.globalWorkSize 1 = 0) ∨ limits.maxBlockDim 1 = 0 := by
  have hfault := roundIn3d_fault ⟨normalized req 0, normalized req 1, normalized req 2⟩
    ⟨(limits.maxBlockDim 0).toNat, (limits.maxBlockDim 1).toNat, (limits.maxBlockDim 2).toNat⟩
    size.toNat
  simp only [normalized_zero, toNat_zero] at hfault
  rw [← hfault]
  unfold guessLocalWorkSize
  cases roundToHighestFactorOfGlobalSizeIn3d _ _ size.toNat with
  | error stop => exact iff_of_true ⟨stop, rfl⟩ ⟨stop, rfl⟩
  | ok s => exact iff_of_false nofun nofun

/-- **When the block is chosen without a division by 0.** -/
theorem chooseBlock_error (adapter : Adapter) (limits : Limits) (hpos : 0 < req.workDim)
    (hrange : req.globalWorkSize 0 ≠ 0) :
    (∃ stop, chooseBlock adapter limits req = .error stop) ↔
      ¬ (ExplicitDefined limits req adapter ∧ (req.localWorkSize = none →
        ∀ size, maxBlockSize limits adapter = .ok size → size ≠ 0 ∧ limits.maxBlockDim 0 ≠ 0 ∧
          limits.maxBlockDim 1 ≠ 0 ∧ (1 < req.workDim → req.globalWorkSize 1 ≠ 0))) := by
  unfold chooseBlock
  cases hlocal : req.localWorkSize with
  | some l =>
    have hmap : (∃ stop, ((areValid (isValid limits req.globalWorkSize l · adapter)
        req.workDim).map fun valid => if !valid then Except.error .invalidWorkGroupSize
          else match groupChecks limits (groupSize l req.workDim) adapter with
            | some result => .error result
            | none => .ok (padded req.workDim l)) = .error stop) ↔
        ∃ stop, areValid (isValid limits req.globalWorkSize l · adapter) req.workDim =
          .error stop := by
      cases areValid (isValid limits req.globalWorkSize l · adapter) req.workDim with
      | error stop => exact iff_of_true ⟨stop, rfl⟩ ⟨stop, rfl⟩
      | ok valid => exact iff_of_false nofun nofun
    simp only [hmap, areValid_error, isValid_error, reduceCtorEq, false_implies, and_true]
    unfold ExplicitDefined
    cases adapter with
    | cuda => exact iff_of_false (fun ⟨_, _, _, h, _⟩ => nomatch h) fun h => h trivial
    | hip =>
      rw [hlocal]
      push Not
      constructor
      · intro ⟨dim, hdim, hvalid, _, hreqd, hzero⟩
        exact ⟨l, rfl, dim, hdim, hvalid, hreqd, hzero⟩
      · intro ⟨l', heq, dim, hdim, hvalid, hreqd, hzero⟩
        obtain rfl := Option.some.inj heq
        exact ⟨dim, hdim, hvalid, rfl, hreqd, hzero⟩
  | none =>
    have hexplicit : ExplicitDefined limits req adapter := by
      cases adapter with
      | cuda => trivial
      | hip =>
        intro l hl
        rw [hlocal] at hl
        cases hl
    rw [and_iff_right hexplicit]
    cases maxBlockSize limits adapter with
    | error result => exact iff_of_false nofun fun h => h nofun
    | ok size =>
      have hmap : (∃ stop, ((guessLocalWorkSize limits req size).map Except.ok :
          Except Stop (Except ParamsResult (Nat → UInt64))) = .error stop) ↔
          ∃ stop, guessLocalWorkSize limits req size = .error stop := by
        cases guessLocalWorkSize limits req size with
        | error stop => exact iff_of_true ⟨stop, rfl⟩ ⟨stop, rfl⟩
        | ok s => exact iff_of_false nofun nofun
      simp only [hmap, guess_error, hpos, hrange, Except.ok.injEq, forall_eq', true_implies]
      tauto

/-- What is known of the block in a dimension of the range. -/
structure Chosen (limits : Limits) (req : Request) (threads : Nat → UInt64) (dim : Nat) :
    Prop where
  limit : (threads dim).toNat ≤ (limits.maxBlockDim dim).toNat
  dvd : threads dim ≠ 0 → (threads dim).toNat ∣ (req.globalWorkSize dim).toNat
  zero : threads dim = 0 ↔ req.localWorkSize = none ∧ dim = 2 ∧
    (req.globalWorkSize 2 = 0 ∨ limits.maxBlockDim 2 = 0)

/-- A guess for a dimension, as a `size_t`. -/
theorem Chosen.of_guess {n : Nat} (hn : threads dim = UInt64.ofNat n)
    (hrange : n ≤ (req.globalWorkSize dim).toNat) (hlimit : n ≤ (limits.maxBlockDim dim).toNat)
    (hdvd : 0 < n → n ∣ (req.globalWorkSize dim).toNat)
    (hzero : n = 0 ↔ req.localWorkSize = none ∧ dim = 2 ∧
      (req.globalWorkSize 2 = 0 ∨ limits.maxBlockDim 2 = 0)) :
    Chosen limits req threads dim := by
  have htoNat : (threads dim).toNat = n := by
    rw [hn]
    exact UInt64.toNat_ofNat_of_lt' (Nat.lt_of_le_of_lt hrange (UInt64.toNat_lt _))
  refine ⟨?_, ?_, ?_⟩
  · rw [htoNat]
    exact hlimit
  · intro hne
    rw [htoNat]
    refine hdvd (Nat.pos_of_ne_zero ?_)
    rw [← htoNat]
    exact toNat_zero.not.mpr hne
  · rw [← toNat_zero, htoNat, hzero]

/-- **The block that is chosen.** -/
theorem chooseBlock_ok (h : chooseBlock adapter limits req = .ok (.ok threads))
    (hdim : dim < req.workDim) (hthree : req.workDim < 4) : Chosen limits req threads dim := by
  unfold chooseBlock at h
  -- a given size passes its checks, a missing one is guessed
  cases hlocal : req.localWorkSize with
  | some l =>
    rw [hlocal] at h
    dsimp only at h
    cases hvalid : areValid (isValid limits req.globalWorkSize l · adapter) req.workDim with
    | error stop =>
      rw [hvalid] at h
      cases h
    | ok valid =>
      rw [hvalid] at h
      cases valid with
      | false => cases h
      | true =>
        have hblock := Except.ok.inj h
        dsimp only at hblock
        rw [Bool.not_true, if_neg Bool.false_ne_true] at hblock
        split at hblock
        next => cases hblock
        next =>
          obtain rfl := Except.ok.inj hblock
          obtain ⟨hne, hlimit, hdvd⟩ := isValid_true (areValid_true.mp hvalid dim hdim)
          have hpadded : padded req.workDim l dim = l dim := if_pos hdim
          refine ⟨by rw [hpadded]; exact hlimit, fun _ => by rw [hpadded]; exact hdvd, ?_⟩
          rw [hpadded, hlocal]
          exact iff_of_false hne fun h => nomatch h.1
  | none =>
    rw [hlocal] at h
    cases hsize : maxBlockSize limits adapter with
    | error result =>
      rw [hsize] at h
      cases h
    | ok size =>
      rw [hsize] at h
      dsimp only at h
      unfold guessLocalWorkSize at h
      cases hround : roundToHighestFactorOfGlobalSizeIn3d
        ⟨normalized req 0, normalized req 1, normalized req 2⟩ ⟨(limits.maxBlockDim 0).toNat,
          (limits.maxBlockDim 1).toNat, (limits.maxBlockDim 2).toNat⟩ size.toNat with
      | error stop =>
        rw [hround] at h
        cases h
      | ok s =>
        rw [hround] at h
        obtain rfl := Except.ok.inj (Except.ok.inj h)
        obtain ⟨hpos, hdvd, hrange, hlimit, _⟩ := roundIn3d_ok hround
        have hnormal : normalized req dim = (req.globalWorkSize dim).toNat := if_pos hdim
        -- only the third dimension may have no thread
        obtain rfl | rfl | rfl : dim = 0 ∨ dim = 1 ∨ dim = 2 := by omega
        · rw [hnormal] at hdvd hrange
          exact .of_guess rfl hrange.1 hlimit.1 (fun _ => hdvd.1)
            (iff_of_false (Nat.ne_of_gt hpos.1) (by simp))
        · rw [hnormal] at hdvd hrange
          exact .of_guess rfl hrange.2.1 hlimit.2.1 (fun _ => hdvd.2.1)
            (iff_of_false (Nat.ne_of_gt hpos.2.1) (by simp))
        · rw [hnormal] at hdvd hrange
          refine .of_guess rfl hrange.2.2 hlimit.2.2 hdvd.2.2 ?_
          have hzero := not_congr hpos.2.2
          rw [Nat.pos_iff_ne_zero, not_not, hnormal] at hzero
          show s.z = 0 ↔ _
          rw [hzero, hlocal, not_and_or, Nat.not_lt, Nat.not_lt, Nat.le_zero, Nat.le_zero,
            toNat_zero, toNat_zero]
          simp

/-- A guess has a total size, and is a block where nothing is divided by 0. -/
theorem chooseBlock_guess {block : Except ParamsResult (Nat → UInt64)} {size : UInt64}
    (h : chooseBlock adapter limits req = .ok block) (hlocal : req.localWorkSize = none) :
    maxBlockSize limits adapter = .ok size → ∃ threads, block = .ok threads := by
  intro hsize
  unfold chooseBlock at h
  rw [hlocal, hsize] at h
  dsimp only at h
  cases hguess : guessLocalWorkSize limits req size with
  | error stop =>
    rw [hguess] at h
    cases h
  | ok threads =>
    rw [hguess] at h
    exact ⟨threads, (Except.ok.inj h).symm⟩

/-- **A guess is defined if no size of the range is 0 in it.** -/
theorem guessDefined_iff {block : Except ParamsResult (Nat → UInt64)} (hpos : 0 < req.workDim)
    (hthree : req.workDim < 4) (hrange : req.globalWorkSize 0 ≠ 0)
    (h : chooseBlock adapter limits req = .ok block) : ExplicitDefined limits req adapter ∧
      (GuessDefined adapter limits req ↔
        ∀ threads, block = .ok threads → ∀ dim < req.workDim, threads dim ≠ 0) := by
  have herror := (chooseBlock_error adapter limits hpos hrange).not.mp
    fun ⟨stop, hstop⟩ => by rw [h] at hstop; cases hstop
  obtain ⟨hexplicit, hguess⟩ := not_not.mp herror
  refine ⟨hexplicit, fun hdefined threads hthreads dim hdim hzero => ?_,
    fun hblock hlocal size hsize => ?_⟩
  · subst hthreads
    obtain ⟨hlocal, rfl, hz⟩ := (chooseBlock_ok h hdim hthree).zero.mp hzero
    cases hsize : maxBlockSize limits adapter with
    | error result =>
      unfold chooseBlock at h
      rw [hlocal, hsize] at h
      cases h
    | ok size =>
      obtain ⟨_, _, _, _, hlast⟩ := hdefined hlocal size hsize
      rcases hz with hz | hz
      · exact (hlast hdim).1 hz
      · exact (hlast hdim).2 hz
  · obtain ⟨h1, h2, h3, h4⟩ := hguess hlocal size hsize
    obtain ⟨threads, rfl⟩ := chooseBlock_guess h hlocal hsize
    refine ⟨h1, h2, h3, h4, fun hdim => ?_⟩
    have hz := (chooseBlock_ok h hdim hthree).zero.not.mp (hblock threads rfl 2 hdim)
    rw [hlocal] at hz
    simp only [true_and] at hz
    exact not_or.mp hz

/-! ## The launch -/

/-- The offset gets through if it has 32 bits. -/
theorem offset_iff : (∀ dim < req.workDim,
    (if decide (∃ dim < req.workDim, req.offset dim ≠ 0) then (req.offset dim).toUInt32.toNat
      else 0) = (req.offset dim).toNat) ↔ ∀ dim < req.workDim, (req.offset dim).toNat < 2 ^ 32 := by
  refine forall₂_congr fun dim hdim => ?_
  by_cases hany : ∃ dim < req.workDim, req.offset dim ≠ 0
  · rw [if_pos (decide_eq_true hany), UInt64.toNat_toUInt32]
    exact ⟨fun h => by omega, fun h => Nat.mod_eq_of_lt h⟩
  · have hzero : req.offset dim = 0 := not_not.mp fun hne => hany ⟨dim, hdim, hne⟩
    rw [if_neg (by rw [decide_eq_true_eq]; exact hany), hzero]
    exact iff_of_true rfl (by decide)

/-- **A block that is not turned down** is launched as asked for if it fits. -/
theorem launchWith_right (hchosen : ∀ dim < req.workDim, Chosen limits req threads dim)
    (hne : ∀ dim < req.workDim, threads dim ≠ 0) :
    Right limits req ((launchWith limits req threads).map Launched.ofParams) ↔
      (threads 0 * threads 1 * threads 2 ≤ limits.maxWorkGroupSize →
        limits.localMemory = none → Fits limits req threads) := by
  unfold launchWith
  by_cases htotal : limits.maxWorkGroupSize < threads 0 * threads 1 * threads 2
  · rw [if_pos htotal]
    exact iff_of_true trivial fun hle => absurd htotal (UInt64.not_lt.mpr hle)
  rw [if_neg htotal, if_neg fun ⟨dim, hdim, hzero⟩ => hne dim hdim hzero]
  cases hmemory : limits.localMemory with
  | some result => exact iff_of_true trivial nofun
  | none =>
    simp only [UInt64.not_lt.mp htotal, true_implies]
    have hrange : ∀ dim < req.workDim,
        ((if dim < req.workDim then ((req.globalWorkSize dim + threads dim - 1) /
          threads dim).toUInt32 else 1).toNat * (threads dim).toUInt32.toNat =
            (req.globalWorkSize dim).toNat ↔
          req.globalWorkSize dim = 0 ∨ (threads dim).toNat < 2 ^ 32 ∧
            (req.globalWorkSize dim).toNat / (threads dim).toNat < 2 ^ 32) := by
      intro dim hdim
      rw [if_pos hdim]
      exact covers_iff (hne dim hdim) ((hchosen dim hdim).dvd (hne dim hdim))
    have hoffset : ∀ dim < req.workDim, (if dim < req.workDim then (req.offset dim).toUInt32
        else 0).toNat = (req.offset dim).toUInt32.toNat := by
      intro dim hdim
      rw [if_pos hdim]
    constructor
    · intro h
      refine ⟨fun dim hdim => (hrange dim hdim).mp (h.range dim hdim), ?_, fun hvariant => ?_⟩
      · have htotal := h.total
        exact htotal
      · refine offset_iff.mp fun dim hdim => ?_
        have hdim' := h.offset hvariant dim hdim
        simp only [hvariant, Bool.true_and, hoffset dim hdim] at hdim'
        exact hdim'
    · intro h
      refine ⟨fun dim hdim => (hrange dim hdim).mpr (h.range dim hdim), fun dim hdim => ?_, ?_,
        fun hvariant dim hdim => ?_⟩
      · show (threads dim).toUInt32.toNat ≤ _
        exact Nat.le_trans (Nat.mod_le _ _) (hchosen dim hdim).limit
      · exact h.total
      · simp only [hvariant, Bool.true_and, hoffset dim hdim]
        exact offset_iff.mpr (h.offset hvariant) dim hdim

/-- **When a call is right**: nothing is divided by 0, and 32 bits are enough for what the driver is
given. -/
theorem launchSizes_iff (adapter : Adapter) (limits : Limits) (req : Request) :
    Right limits req (enqueueKernelLaunch adapter limits req) ↔
      (0 < req.workDim → req.workDim < 4 → req.globalWorkSize 0 ≠ 0 →
        Fine adapter limits req) := by
  unfold enqueueKernelLaunch
  by_cases hdims : req.workDim = 0 ∨ 4 ≤ req.workDim
  · rw [if_pos hdims]
    exact iff_of_true trivial fun hpos hthree => by omega
  rw [if_neg hdims]
  have hpos : 0 < req.workDim := by omega
  have hthree : req.workDim < 4 := by omega
  by_cases hrange : req.globalWorkSize 0 = 0
  · rw [if_pos hrange]
    exact iff_of_true ⟨0, hpos, hrange⟩ fun _ _ h => absurd hrange h
  simp only [hpos, hthree, hrange, ne_eq, not_false_eq_true, true_implies]
  have herror := chooseBlock_error adapter limits hpos hrange
  unfold setKernelParams
  cases hblock : chooseBlock adapter limits req with
  | error stop =>
    refine iff_of_false (fun h => h) fun h => ?_
    refine herror.mp ⟨stop, hblock⟩ ⟨h.explicit, fun hlocal size hsize => ?_⟩
    obtain ⟨h1, h2, h3, h4, _⟩ := h.guess hlocal size hsize
    exact ⟨h1, h2, h3, h4⟩
  | ok block =>
    obtain ⟨hexplicit, hguess⟩ := guessDefined_iff hpos hthree hrange hblock
    cases block with
    | error result =>
      refine iff_of_true trivial ⟨hexplicit, hguess.mpr nofun, fun threads h => ?_⟩
      rw [hblock] at h
      cases h
    | ok threads =>
      have hright := launchWith_right (fun dim hdim => chooseBlock_ok hblock hdim hthree)
      by_cases hne : ∀ dim < req.workDim, threads dim ≠ 0
      · refine (hright hne).trans ⟨fun h => ⟨hexplicit, hguess.mpr ?_, ?_⟩, fun h => ?_⟩
        · intro threads' heq
          rwa [← Except.ok.inj heq]
        · intro threads' heq
          rw [hblock] at heq
          obtain rfl := Except.ok.inj (Except.ok.inj heq)
          exact h
        · exact h.fits threads hblock
      · refine iff_of_false ?_ fun h => hne (hguess.mp h.guess threads rfl)
        have hzero : ∃ dim < req.workDim, threads dim = 0 := by
          push Not at hne
          exact hne
        have htotal : threads 0 * threads 1 * threads 2 = 0 := by
          obtain ⟨dim, hdim, hz⟩ := hzero
          obtain rfl | rfl | rfl : dim = 0 ∨ dim = 1 ∨ dim = 2 := by omega
          · rw [hz, UInt64.zero_mul, UInt64.zero_mul]
          · rw [hz, UInt64.mul_zero, UInt64.zero_mul]
          · rw [hz, UInt64.mul_zero]
        have hfault : launchWith limits req threads = .error .fault := by
          unfold launchWith
          rw [htotal, if_neg (UInt64.not_lt.mpr UInt64.zero_le), if_pos hzero]
        show ¬ Right limits req ((launchWith limits req threads).map Launched.ofParams)
        rw [hfault]
        exact fun h => h

/-- Limits of a device. -/
def usualLimits : Limits where
  maxBlockDim := fun _ => 1024
  maxWorkGroupSize := 1024
  maxRegsPerBlock := 65536
  reqdThreadsPerBlock := fun _ => 0
  maxThreadsPerBlock := fun _ => 0
  maxLinearThreadsPerBlock := 0
  regsPerThread := 32
  maxPotentialBlockSize := .ok 1024
  offsetVariant := true
  localMemory := none

/-- A range of one row without columns, and no local size. -/
def emptyRow : Request := ⟨2, none, fun dim => if dim = 0 then 1 else 0, none⟩

theorem empty_dimension_divides :
    enqueueKernelLaunch .cuda usualLimits emptyRow = .error .fault ∧
      ¬ Right usualLimits emptyRow (enqueueKernelLaunch .cuda usualLimits emptyRow) := by
  have hfault : enqueueKernelLaunch .cuda usualLimits emptyRow = .error .fault := rfl
  refine ⟨hfault, ?_⟩
  exact fun h => h

end UnifiedRuntime.LaunchSizes
