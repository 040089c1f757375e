import UnifiedRuntime.Cuda.KernelParams
import UnifiedRuntime.Kernels.ArgumentRuns

/-!
# Updates of kernel commands (CUDA)

A kernel command of a command-buffer has a node, to which the driver copies the arguments, and a
handle with the kernel and the range. An update puts new arguments into the kernel object, which
other commands and direct launches use as well, and reads all arguments from there.

Only kernel commands are modelled, and a kernel of which the range is empty has none. What the
driver makes of a call is given with it.
-/

namespace UnifiedRuntime.Cuda

open Kernels (Arguments Arg History LaunchRight sizeBytes alignment)

/-! ## Commands -/

inductive UpdateResult where
  | success
  | invalidOperation
  | invalidValue
  | invalidWorkDimension
  | params (result : ParamsResult)
  /-- Errors of the driver. -/
  | failed
deriving DecidableEq

/-- What the driver has copied for a node. -/
structure NodeParams where
  kernel : Nat
  config : LaunchConfig
  sharedMemBytes : Nat
  args : Arguments

/-- `kernel_command_handle`, with the parameters of its node. -/
structure KernelCommand where
  kernel : Nat
  validKernelHandles : List Nat
  workDim : Nat
  globalWorkOffset : Nat → Nat
  globalWorkSize : Nat → Nat
  localWorkSize : Nat → Nat
  node : NodeParams

/-- The dimensions of the range are copied, those behind are set to 0. -/
def copyDims (workDim : Nat) (values : Nat → Nat) : Nat → Nat := fun dim =>
  if dim < workDim then values dim else 0

/-- `isNullLocalSize`. -/
def KernelCommand.isNullLocalSize (command : KernelCommand) : Bool :=
  command.localWorkSize 0 == 0 && command.localWorkSize 1 == 0 && command.localWorkSize 2 == 0

/-- The local size that an update hands on. -/
def KernelCommand.providedLocalSize (command : KernelCommand) : Option (Nat → Nat) :=
  if command.isNullLocalSize then none else some command.localWorkSize

/-- A new argument: a value, a null memory object, or a memory object without memory on the
device. -/
inductive NewArg where
  | set (index : Nat) (arg : Arg)
  | nullMemObj (index : Nat)
  | fails
deriving DecidableEq

/-- `ur_exp_command_buffer_update_kernel_launch_desc_t`. A memory object may be null or have no
memory on the device; a value without a pointer is local memory. -/
structure UpdateDesc where
  hNewKernel : Option Nat
  newWorkDim : Nat
  newMemObjArgs : List (Nat × Option (Option UInt64))
  newPointerArgs : List (Nat × UInt64)
  newValueArgs : List (Nat × Arg)
  newGlobalWorkOffset : Option (Nat → Nat)
  newGlobalWorkSize : Option (Nat → Nat)
  newLocalWorkSize : Option (Nat → Nat)

/-- The arguments in the order in which they are set. -/
def UpdateDesc.newArgs (desc : UpdateDesc) : List NewArg :=
  desc.newPointerArgs.map (fun x => .set x.1 (.bytes (sizeBytes x.2.toNat))) ++
    desc.newMemObjArgs.map (fun x =>
      match x.2 with
      | none => .nullMemObj x.1
      | some none => .fails
      | some (some ptr) => .set x.1 (.bytes (sizeBytes ptr.toNat))) ++
    desc.newValueArgs.map fun x => .set x.1 x.2

/-- Kernel objects and the commands of a command-buffer. -/
structure UpdateState where
  kernels : Nat → Arguments
  commands : List KernelCommand
  isUpdatable : Bool
  finalized : Bool

/-- The device, the kernels, whether assertions are on, and what the memory of a new command holds. -/
structure UpdateEnv where
  device : DeviceLimits
  guess : Guess
  limits : Nat → KernelLimits
  asserts : Bool
  uninitialized : Nat → Nat

/-! ## Functions -/

/-- `urCommandBufferAppendKernelLaunchExp`. -/
def appendKernelLaunch (env : UpdateEnv) (s : UpdateState) (hKernel workDim : Nat)
    (globalWorkOffset globalWorkSize : Nat → Nat) (localWorkSize : Option (Nat → Nat))
    (kernelAlternatives : List Nat) (phCommand attributeSet nodeAdded : Bool) :
    UpdateResult × UpdateState :=
  if phCommand && !s.isUpdatable then (.invalidOperation, s)
  else if workDim = 0 ∨ 3 < workDim then (.invalidWorkDimension, s)
  else if hKernel ∈ kernelAlternatives then (.invalidValue, s)
  else if globalWorkSize 0 = 0 then (.success, s)
  else
    let localSize := (s.kernels hKernel).getLocalSize
    match setKernelParams env.device env.guess (env.limits hKernel) localSize workDim
        globalWorkOffset globalWorkSize localWorkSize attributeSet with
    | .error result => (.params result, s)
    | .ok config =>
      if !nodeAdded then (.failed, s)
      else (.success, { s with commands := s.commands ++ [{
        kernel := hKernel
        validKernelHandles := hKernel :: kernelAlternatives
        workDim := workDim
        globalWorkOffset := copyDims workDim globalWorkOffset
        globalWorkSize := copyDims workDim globalWorkSize
        localWorkSize := match localWorkSize with
          | some localWorkSize => fun dim =>
            if dim < workDim then localWorkSize dim else env.uninitialized dim
          | none => fun _ => 0
        node := ⟨hKernel, config, localSize, s.kernels hKernel⟩ }] })

/-- `urCommandBufferFinalizeExp`. -/
def finalizeGraph (s : UpdateState) (instantiated : Bool) : UpdateResult × UpdateState :=
  if s.finalized then (.invalidOperation, s)
  else if instantiated then (.success, { s with finalized := true }) else (.failed, s)

/-- `validateCommandDesc`. -/
def validateCommandDesc (s : UpdateState) (command : KernelCommand) (desc : UpdateDesc) :
    UpdateResult :=
  if !s.finalized || !s.isUpdatable then .invalidOperation
  else if desc.newWorkDim ≠ command.workDim ∧
      (desc.newGlobalWorkOffset.isNone ∨ desc.newGlobalWorkSize.isNone) then .invalidValue
  else if desc.hNewKernel.any fun kernel => kernel ∉ command.validKernelHandles then .invalidValue
  else .success

/-- `updateCommand`. -/
def updateCommand (command : KernelCommand) (desc : UpdateDesc) : KernelCommand :=
  let workDim := if desc.newWorkDim ≠ 0 then desc.newWorkDim else command.workDim
  { command with
    kernel := desc.hNewKernel.getD command.kernel
    workDim := workDim
    globalWorkOffset := match desc.newGlobalWorkOffset with
      | some offset => copyDims workDim offset
      | none => command.globalWorkOffset
    globalWorkSize := match desc.newGlobalWorkSize with
      | some size => copyDims workDim size
      | none => command.globalWorkSize
    localWorkSize := match desc.newLocalWorkSize, desc.newGlobalWorkSize with
      | some localSize, _ => copyDims workDim localSize
      | none, some _ => fun _ => 0
      | none, none => command.localWorkSize }

/-- The setters that `updateKernelArguments` calls; the padding of empty local memory is divided
by 0. -/
def setNewArg (asserts : Bool) (a : Arguments) (index : Nat) : Arg → Except Stop Arguments
  | .bytes value => Kernels.setKernelArg asserts a index value
  | .localMem size =>
    if size = 0 then .error .fault else Kernels.setKernelLocalArg asserts a index size

/-- `updateKernelArguments`, and whether it succeeds. -/
def updateKernelArguments (asserts : Bool) : Arguments → List NewArg →
    Except Stop (Bool × Arguments)
  | a, [] => .ok (true, a)
  | a, .set index arg :: rest => do
    let a ← setNewArg asserts a index arg
    updateKernelArguments asserts a rest
  | a, .nullMemObj index :: rest => do
    let a ← Kernels.setKernelArg asserts a index []
    updateKernelArguments asserts a rest
  | a, .fails :: _ => .ok (false, a)

/-- `urCommandBufferUpdateKernelLaunchExp`. -/
def updateKernelLaunch (env : UpdateEnv) (s : UpdateState) (c : Nat) (desc : UpdateDesc)
    (attributeSet nodeSet : Bool) : Except Stop (UpdateResult × UpdateState) :=
  match s.commands[c]? with
  | none => .error .fault
  | some command => do
    if validateCommandDesc s command desc ≠ .success then
      return (validateCommandDesc s command desc, s)
    let command := updateCommand command desc
    let (set, a) ← updateKernelArguments env.asserts (s.kernels command.kernel) desc.newArgs
    let s := { s with
      kernels := Function.update s.kernels command.kernel a
      commands := s.commands.set c command }
    if !set then return (.failed, s)
    match setKernelParams env.device env.guess (env.limits command.kernel) a.getLocalSize
        command.workDim command.globalWorkOffset command.globalWorkSize command.providedLocalSize
        attributeSet with
    | .error result => return (.params result, s)
    | .ok config =>
      if !nodeSet then return (.failed, s)
      let updated := { command with node := ⟨command.kernel, config, a.getLocalSize, a⟩ }
      return (.success, { s with commands := s.commands.set c updated })

/-! ## Calls -/

/-- Calls on kernels, among them direct launches, and on the command-buffer. -/
inductive UpdateCall where
  | kernel (hKernel : Nat) (call : Kernels.Call)
  | append (hKernel workDim : Nat) (globalWorkOffset globalWorkSize : Nat → Nat)
      (localWorkSize : Option (Nat → Nat)) (kernelAlternatives : List Nat)
      (phCommand attributeSet nodeAdded : Bool)
  | finalize (instantiated : Bool)
  | update (c : Nat) (desc : UpdateDesc) (attributeSet nodeSet : Bool)

def UpdateState.step (env : UpdateEnv) (s : UpdateState) :
    UpdateCall → Except Stop (UpdateResult × UpdateState)
  | .kernel hKernel call =>
    (Kernels.callArguments .cuda env.asserts (s.kernels hKernel) call).map fun a =>
      (.success, { s with kernels := Function.update s.kernels hKernel a })
  | .append hKernel workDim offset size localSize alternatives phCommand attributeSet nodeAdded =>
    .ok (appendKernelLaunch env s hKernel workDim offset size localSize alternatives phCommand
      attributeSet nodeAdded)
  | .finalize instantiated => .ok (finalizeGraph s instantiated)
  | .update c desc attributeSet nodeSet => updateKernelLaunch env s c desc attributeSet nodeSet

/-! ## Commands and their updates -/

/-- What a command is to run with. -/
structure Recorded where
  kernel : Nat
  workDim : Nat
  offset : Nat → Nat
  size : Nat → Nat
  localSize : Option (Nat → Nat)
  args : Nat → Option Arg

/-- The arguments after new ones are set, as far as the first that fails. -/
def setArgs : (Nat → Option Arg) → List NewArg → Nat → Option Arg
  | args, [] => args
  | args, .set index arg :: rest => setArgs (Function.update args index (some arg)) rest
  | args, .nullMemObj index :: rest =>
    setArgs (Function.update args index (some (.bytes (sizeBytes 0)))) rest
  | args, .fails :: _ => args

/-- **An update changes what the descriptor mentions.** Another kernel has the arguments that come
with it; where the size of the range is given, so is the local size or it is chosen. -/
def Recorded.update (r : Recorded) (desc : UpdateDesc) : Recorded where
  kernel := desc.hNewKernel.getD r.kernel
  workDim := if desc.newWorkDim ≠ 0 then desc.newWorkDim else r.workDim
  offset := desc.newGlobalWorkOffset.getD r.offset
  size := desc.newGlobalWorkSize.getD r.size
  localSize := match desc.newLocalWorkSize, desc.newGlobalWorkSize with
    | some localSize, _ => some localSize
    | none, some _ => none
    | none, none => r.localSize
  args := setArgs (if desc.hNewKernel.getD r.kernel = r.kernel then r.args else fun _ => none)
    desc.newArgs

/-- What was set last on each kernel, and what each command is to run with. -/
structure Expected where
  hist : Nat → History
  recorded : List Recorded

/-- Updates that succeed change their command and nothing else. -/
def Expected.call (g : Expected) (call : UpdateCall) (result : UpdateResult) : Expected :=
  match call with
  | .kernel hKernel call =>
    { g with hist := Function.update g.hist hKernel ((g.hist hKernel).call .cuda call) }
  | .append hKernel workDim offset size localSize _ _ _ _ =>
    if result = .success ∧ size 0 ≠ 0 then
      { g with recorded := g.recorded ++
          [⟨hKernel, workDim, offset, size, localSize, (g.hist hKernel).arg⟩] }
    else g
  | .finalize _ => g
  | .update c desc _ _ =>
    if result = .success then
      { g with recorded := g.recorded.modify c fun r => r.update desc }
    else g

/-- The handle of a command is what was recorded. -/
structure HandleRight (r : Recorded) (command : KernelCommand) : Prop where
  kernel : command.kernel = r.kernel
  workDim : command.workDim = r.workDim
  dims : r.workDim ≤ 3
  offset : ∀ dim < r.workDim, command.globalWorkOffset dim = r.offset dim
  size : ∀ dim < r.workDim, command.globalWorkSize dim = r.size dim
  localSize : SameLocalSize r.workDim command.providedLocalSize r.localSize

/-- **A command is what was recorded**: its handle, and what its node runs with. -/
structure CommandRight (env : UpdateEnv) (r : Recorded) (command : KernelCommand) : Prop where
  handle : HandleRight r command
  nodeKernel : command.node.kernel = r.kernel
  nodeConfig : setKernelParams env.device env.guess (env.limits r.kernel)
    command.node.sharedMemBytes r.workDim r.offset r.size r.localSize true =
      .ok command.node.config
  nodeArgs : LaunchRight ⟨r.args, fun _ => none⟩ 0
    ⟨command.node.args, command.node.sharedMemBytes, [], []⟩

/-- All commands are. -/
structure StateRight (env : UpdateEnv) (g : Expected) (s : UpdateState) : Prop where
  length : s.commands.length = g.recorded.length
  command : ∀ (c : Nat) r command, g.recorded[c]? = some r → s.commands[c]? = some command →
    CommandRight env r command

/-- Handles and nodes that a call leaves as they are. -/
def Unchanged (s : UpdateState) (result : UpdateResult) (s' : UpdateState) : UpdateCall → Prop
  | .kernel _ _ | .finalize _ => s'.commands = s.commands
  | .append _ _ _ _ _ _ _ _ _ => ∀ c < s.commands.length, s'.commands[c]? = s.commands[c]?
  | .update c _ _ _ => (result ≠ .success → s'.commands = s.commands) ∧
      ∀ j ≠ c, s'.commands[j]? = s.commands[j]?

/-- **Every call of the run is defined, every direct launch has the arguments that were set on the
kernel, and every command is what was recorded and updated.** -/
def UpdatesRight (env : UpdateEnv) : Expected → UpdateState → List UpdateCall → Prop
  | g, s, [] => StateRight env g s
  | g, s, call :: calls => StateRight env g s ∧
    (∀ hKernel manyDevices workGroupMemory,
      call = .kernel hKernel (.launch manyDevices workGroupMemory) →
      ∃ l, Kernels.enqueueKernelLaunch .cuda (s.kernels hKernel) manyDevices workGroupMemory = .ok l ∧
        LaunchRight (g.hist hKernel) workGroupMemory l) ∧
    ∃ result s', s.step env call = .ok (result, s') ∧ Unchanged s result s' call ∧
      UpdatesRight env (g.call call result) s' calls

/-! ## Careful calls -/

/-- New arguments for which there is room, none of them null or empty. -/
def CarefulArgs (asserts : Bool) : Arguments → List NewArg → Prop
  | _, [] | _, .fails :: _ => True
  | _, .nullMemObj _ :: _ => False
  | a, .set index arg :: rest =>
    (match arg with
      | .bytes value => a.Settable asserts index value.length
      | .localMem size => size ≠ 0 ∧ index < 2 ^ 31 ∧ a.Fits asserts index 8 ∧
          layoutEnd alignment a.workGroupMemory (Function.update a.originalLocalMemSize index size)
            (max a.numArgs (index + 1)) < 2 ^ 64) ∧
      ∀ a', setNewArg asserts a index arg = .ok a' → CarefulArgs asserts a' rest

/-- The update gets to the node: the memory objects have memory, the kernel can be launched so and
the driver takes all. -/
def Accepted (env : UpdateEnv) (a : Arguments) (command : KernelCommand) (desc : UpdateDesc)
    (attributeSet nodeSet : Bool) : Prop :=
  NewArg.fails ∉ desc.newArgs ∧ nodeSet = true ∧
    ∃ config, setKernelParams env.device env.guess (env.limits command.kernel) a.getLocalSize
      command.workDim command.globalWorkOffset command.globalWorkSize command.providedLocalSize
      attributeSet = .ok config

/-- **A careful update**: the kernel object has the arguments that the command is to have, the new
ones as well as the others, and an update that fails changes nothing in the handle. -/
structure CarefulUpdate (env : UpdateEnv) (a : Arguments) (h : History) (r : Recorded)
    (command : KernelCommand) (desc : UpdateDesc) (attributeSet nodeSet : Bool) : Prop where
  workDim : desc.newWorkDim ≤ 3
  localSize : ∀ l, desc.newLocalWorkSize = some l →
    ∃ dim < (updateCommand command desc).workDim, l dim ≠ 0
  args : CarefulArgs env.asserts a desc.newArgs
  given : setArgs h.arg desc.newArgs = h.arg
  others : ∀ index arg, (r.update desc).args index = some arg → h.arg index = some arg
  fits : layoutEnd alignment a.workGroupMemory a.originalLocalMemSize a.numArgs < 2 ^ 32
  accepted : ¬ Accepted env a (updateCommand command desc) desc attributeSet nodeSet →
    updateCommand command desc = command

/-- Careful calls; commands are appended before the command-buffer is finalized. -/
def UpdateState.Careful (env : UpdateEnv) (g : Expected) (s : UpdateState) : UpdateCall → Prop
  | .kernel hKernel call => (s.kernels hKernel).Careful .cuda env.asserts call
  | .append hKernel _ _ _ _ _ _ _ _ => s.finalized = false ∧
      layoutEnd alignment (s.kernels hKernel).workGroupMemory
        (s.kernels hKernel).originalLocalMemSize (s.kernels hKernel).numArgs < 2 ^ 32
  | .finalize _ => True
  | .update c desc attributeSet nodeSet => ∃ command r, s.commands[c]? = some command ∧
      g.recorded[c]? = some r ∧ (validateCommandDesc s command desc = .success →
        CarefulUpdate env (s.kernels (updateCommand command desc).kernel)
          (g.hist (updateCommand command desc).kernel) r command desc attributeSet nodeSet)

/-- No command yet, and kernels without arguments. -/
def UpdateState.init (storage : Nat → Nat → UInt8) (isUpdatable : Bool) : UpdateState where
  kernels := fun hKernel => .init (storage hKernel)
  commands := []
  isUpdatable := isUpdatable
  finalized := false

def Expected.init : Expected := ⟨fun _ => .init, []⟩

end UnifiedRuntime.Cuda
