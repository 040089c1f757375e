import UnifiedRuntime.Lib.NarrowLoop

/-!
# Kernel launches of the Native CPU adapter

`urEnqueueKernelLaunch` calls the kernel for every work-group (with the OCK passes, which put
the loop over the work-items into the kernel) or for every work-item. The calls are made by
the caller, or by tasks for the threads of the pool. There are four ways to split them up.

The counters of the loops are `unsigned`, the bounds `size_t`. A task that does not end is
treated like a loop that does not end.
-/

namespace UnifiedRuntime.NativeCpu

/-- What `urEnqueueKernelLaunch` returns other than success. -/
inductive UrError where
  | invalidNullPointer
  | invalidWorkDimension
  | unsupportedFeature
  | invalidWorkGroupSize

/-- `std::array<size_t, 3>`. -/
abbrev RangeT := Fin 3 → UInt64

/-- The instance behind the numbers of dimensions. -/
theorem neZero_three : NeZero 3 := ⟨by decide⟩

attribute [local instance] neZero_three

/-! ## `native_cpu::state` -/

structure State where
  MGlobal_id : RangeT
  MGlobal_range : RangeT
  MWorkGroup_size : RangeT
  MWorkGroup_id : RangeT
  MLocal_id : RangeT
  MNumGroups : RangeT
  MGlobalOffset : RangeT

namespace State

/-- The constructor; a local size of zero is divided by. -/
def new (globalR localR globalO : RangeT) : Except Stop State :=
  if ∃ d, localR d = 0 then .error .fault
  else .ok
    { MGlobal_id := fun _ => 0
      MGlobal_range := globalR
      MWorkGroup_size := localR
      MWorkGroup_id := fun _ => 0
      MLocal_id := fun _ => 0
      MNumGroups := fun d => globalR d / localR d
      MGlobalOffset := globalO }

/-- `update` for a work-item. -/
def updateItem (s : State) (group loc : RangeT) : State :=
  { s with
    MWorkGroup_id := group
    MLocal_id := loc
    MGlobal_id := fun d => s.MWorkGroup_size d * group d + loc d + s.MGlobalOffset d }

/-- `update` for a work-group. -/
def updateGroup (s : State) (group : RangeT) : State := { s with MWorkGroup_id := group }

end State

/-- Loop counters as a `RangeT`. -/
def counters (g0 g1 g2 : UInt32) : RangeT := ![g0.toUInt64, g1.toUInt64, g2.toUInt64]

/-! ## The arguments -/

/-- What a launch reads of the kernel. -/
structure KernelInfo where
  reqdWGSize : Option (Fin 3 → UInt32)
  maxWGSize : Option (Fin 3 → UInt32)
  maxLinearWGSize : Option UInt64
  hasLocalArgs : Bool

/-- The pointers are to `workDim` elements at least. -/
structure LaunchArgs where
  workDim : UInt32
  pGlobalWorkOffset : Option (Nat → UInt64)
  pGlobalWorkSize : Nat → UInt64
  pLocalWorkSize : Option (Nat → UInt64)

/-- `native_cpu::NDRDescT`. -/
structure NDRDesc where
  GlobalOffset : RangeT
  GlobalSize : RangeT
  LocalSize : RangeT

namespace NDRDesc

/-- The local size in a dimension that was given. -/
def givenLocal (pLocalWorkSize : Option (Nat → UInt64)) (d : Nat) : UInt64 :=
  match pLocalWorkSize with
  | some l => l d
  | none => 1

def new (workDim : UInt32) (pGlobalWorkOffset pGlobalWorkSize : Nat → UInt64)
    (pLocalWorkSize : Option (Nat → UInt64)) : NDRDesc :=
  { GlobalOffset := fun d => if d.val < workDim.toNat then pGlobalWorkOffset d else 0
    GlobalSize := fun d => if d.val < workDim.toNat then pGlobalWorkSize d else 1
    LocalSize := fun d =>
      if d.val < workDim.toNat then givenLocal pLocalWorkSize d
      else if givenLocal pLocalWorkSize 0 ≠ 0 then 1 else 0 }

end NDRDesc

/-- The dimensions in use. -/
def LaunchArgs.dims (a : LaunchArgs) : List (Fin 3) :=
  (List.finRange 3).filter fun d => d.val < a.workDim.toNat

/-- The constraints of the kernel on a local size that was given. -/
def workGroupSizeAllowed (k : KernelInfo) (dims : List (Fin 3)) (l : Nat → UInt64) : Bool :=
  let totalNumWIs := dims.foldl (fun n d => n * l d) 1
  (dims.all fun d =>
    (match k.reqdWGSize with
      | some reqd => l d == (reqd d).toUInt64
      | none => true) &&
    (match k.maxWGSize with
      | some max => !decide ((max d).toUInt64 < l d)
      | none => true)) &&
  (match k.maxLinearWGSize with
    | some max => !decide (max < totalNumWIs)
    | none => true)

/-- A local size is checked only if one is given. -/
def LaunchArgs.workGroupSizeAllowed (a : LaunchArgs) (k : KernelInfo) : Bool :=
  match a.pLocalWorkSize with
  | some l => NativeCpu.workGroupSizeAllowed k a.dims l
  | none => true

/-- The checks before anything is done. -/
def LaunchArgs.check (a : LaunchArgs) (k : KernelInfo) : Except UrError NDRDesc :=
  match a.pGlobalWorkOffset with
  | none => .error .invalidNullPointer
  | some pGlobalWorkOffset =>
    if ¬ 0 < a.workDim then .error .invalidWorkDimension
    else if ¬ a.workDim < 4 then .error .invalidWorkDimension
    else if a.pGlobalWorkSize 0 = 0 then .error .unsupportedFeature
    else if a.workGroupSizeAllowed k then
      .ok (.new a.workDim pGlobalWorkOffset a.pGlobalWorkSize a.pLocalWorkSize)
    else .error .invalidWorkGroupSize

/-! ## The launch -/

/-- A call of the kernel by the caller, or the calls of a task for the pool. -/
inductive Job where
  | inline (call : State)
  | task (calls : List State)

def Job.calls : Job → List State
  | .inline call => [call]
  | .task calls => calls

/-- `tp.schedule_task`; a pool without threads has no best worker. -/
def scheduleTask (numThreads : UInt64) (calls : Except Stop (List State)) :
    Except Stop (List Job) :=
  if numThreads = 0 then .error .fault else calls.map fun cs => [.task cs]

/-- The two outer loops. -/
def forPairs {α : Type} (count : RangeT) (fuel : Nat)
    (body : UInt32 → UInt32 → Except Stop (List α)) : Except Stop (List α) :=
  narrowFor (fun g2 => narrowFor (fun g1 => body g1 g2) (count 1) fuel) (count 2) fuel

/-- All three loops. -/
def forGroups {α : Type} (count : RangeT) (fuel : Nat)
    (body : UInt32 → UInt32 → UInt32 → Except Stop (List α)) : Except Stop (List α) :=
  forPairs count fuel fun g1 g2 => narrowFor (fun g0 => body g0 g1 g2) (count 0) fuel

/-- Without the OCK passes: one call for every work-item. -/
def launchSerial (ndr : NDRDesc) (state : State) (numWG : RangeT) (fuel : Nat) :
    Except Stop (List Job) :=
  forGroups numWG fuel fun g0 g1 g2 =>
    forGroups ndr.LocalSize fuel fun local0 local1 local2 =>
      .ok [.inline (state.updateItem (counters g0 g1 g2) (counters local0 local1 local2))]

def getResizedState (ndr : NDRDesc) (itemsPerThread : UInt64) : Except Stop State :=
  State.new ndr.GlobalSize ![itemsPerThread, ndr.LocalSize 1, ndr.LocalSize 2] ndr.GlobalOffset

/-- Work-groups of one item: the threads get large groups, and the rest is peeled off. -/
def launchResized (ndr : NDRDesc) (state : State) (numWG : RangeT) (numThreads : UInt64)
    (fuel : Nat) : Except Stop (List Job) :=
  if numThreads = 0 then .error .fault
  else
    let itemsPerThread := ndr.GlobalSize 0 / numThreads
    forPairs numWG fuel fun g1 g2 => do
      let tasks ← narrowFor (fun g0 => scheduleTask numThreads <|
        (getResizedState ndr itemsPerThread).map fun resized =>
          [resized.updateGroup (counters g0 g1 g2)]) numThreads fuel
      let peeled ← narrowLoop (fun g0 => .ok [.inline (state.updateGroup (counters g0 g1 g2))]) 1
        (numWG 0) fuel (numThreads * itemsPerThread).toUInt32
      return tasks ++ peeled

/-- A task for every pair of group numbers in dimensions 1 and 2. -/
def launchOuter (state : State) (numWG : RangeT) (numThreads : UInt64) (fuel : Nat) :
    Except Stop (List Job) :=
  forPairs numWG fuel fun g1 g2 => scheduleTask numThreads <|
    narrowFor (fun g0 => .ok [state.updateGroup (counters g0 g1 g2)]) (numWG 0) fuel

/-- `groups[index]`. -/
def groupAt (groups : List State) (index : UInt64) : Except Stop (List State) :=
  match groups[index.toNat]? with
  | some call => .ok [call]
  | none => .error .fault

/-- As many work-groups for every thread as come out even, and a task for the rest. -/
def dealGroups (groups : List State) (numThreads : UInt64) (fuel : Nat) :
    Except Stop (List Job) :=
  if numThreads = 0 then .error .fault
  else do
    let numGroups := UInt64.ofNat groups.length
    let groupsPerThread := numGroups / numThreads
    let remainder := numGroups % numThreads
    let tasks ← narrowFor (fun thread => scheduleTask numThreads <|
      narrowFor (fun i => groupAt groups (thread.toUInt64 * groupsPerThread + i.toUInt64))
        groupsPerThread fuel) numThreads fuel
    if remainder = 0 then return tasks
    else
      let last ← scheduleTask numThreads <| narrowFor (fun i =>
        groupAt groups (numThreads * groupsPerThread + i.toUInt64)) remainder fuel
      return tasks ++ last

/-- The work-groups are listed and dealt out. -/
def launchGrouped (state : State) (numWG : RangeT) (numThreads : UInt64) (fuel : Nat) :
    Except Stop (List Job) := do
  let groups ← forGroups numWG fuel fun g0 g1 g2 => .ok [state.updateGroup (counters g0 g1 g2)]
  dealGroups groups numThreads fuel

/-- `isLocalSizeOne`. -/
def NDRDesc.isLocalSizeOne (ndr : NDRDesc) : Bool :=
  ndr.LocalSize 0 == 1 && ndr.LocalSize 1 == 1 && ndr.LocalSize 2 == 1

/-- The numbers of work-groups. -/
def NDRDesc.numWG (ndr : NDRDesc) : RangeT := fun d => ndr.GlobalSize d / ndr.LocalSize d

/-- How the launch is split up; `ock` is `NATIVECPU_USE_OCK`. -/
def NDRDesc.launchFrom (ndr : NDRDesc) (ock : Bool) (numThreads : UInt64) (k : KernelInfo)
    (state : State) (fuel : Nat) : Except Stop (List Job) :=
  if !ock then launchSerial ndr state ndr.numWG fuel
  else if ndr.isLocalSizeOne && decide (numThreads < ndr.GlobalSize 0) && !k.hasLocalArgs then
    launchResized ndr state ndr.numWG numThreads fuel
  else if numThreads ≤ ndr.numWG 1 * ndr.numWG 2 then launchOuter state ndr.numWG numThreads fuel
  else launchGrouped state ndr.numWG numThreads fuel

/-- The part after the checks. -/
def NDRDesc.launch (ndr : NDRDesc) (ock : Bool) (numThreads : UInt64) (k : KernelInfo)
    (fuel : Nat) : Except Stop (List Job) := do
  let state ← State.new ndr.GlobalSize ndr.LocalSize ndr.GlobalOffset
  ndr.launchFrom ock numThreads k state fuel

/-- `urEnqueueKernelLaunch`: rejected, or the jobs. -/
def urEnqueueKernelLaunch (ock : Bool) (numThreads : UInt64) (k : KernelInfo) (a : LaunchArgs)
    (fuel : Nat) : Except UrError (Except Stop (List Job)) :=
  (a.check k).map fun ndr => ndr.launch ock numThreads k fuel

/-! ## What is run -/

/-- The work-items of one call: with the OCK passes the kernel loops over its work-group, and
without them it runs the item of the state. -/
def State.items (ock : Bool) (s : State) : List RangeT :=
  if ock then
    (List.range (s.MWorkGroup_size 2).toNat).flatMap fun l2 =>
      (List.range (s.MWorkGroup_size 1).toNat).flatMap fun l1 =>
        (List.range (s.MWorkGroup_size 0).toNat).flatMap fun l0 =>
          [fun d => s.MWorkGroup_size d * s.MWorkGroup_id d +
            UInt64.ofNat ((![l0, l1, l2] : Fin 3 → Nat) d) + s.MGlobalOffset d]
  else [s.MGlobal_id]

/-- The work-items that a launch runs, by their global ids. -/
def executed (ock : Bool) (jobs : List Job) : List RangeT :=
  (jobs.flatMap Job.calls).flatMap (State.items ock)

/-- The global ids of an ND-range. -/
def NDRDesc.globalIds (ndr : NDRDesc) : List RangeT :=
  (List.range (ndr.GlobalSize 2).toNat).flatMap fun i2 =>
    (List.range (ndr.GlobalSize 1).toNat).flatMap fun i1 =>
      (List.range (ndr.GlobalSize 0).toNat).flatMap fun i0 =>
        [fun d => UInt64.ofNat ((![i0, i1, i2] : Fin 3 → Nat) d) + ndr.GlobalOffset d]

end UnifiedRuntime.NativeCpu
