import Mathlib

/-!
# Kernel arguments in the sanitizer layers

The set functions of the ASan and MSan layers (`asan_ddi.cpp`, `msan_ddi.cpp`)
record some arguments beside the driver: buffers of the layer in `BufferArgs`, and
for ASan pointers in `PointerArgs` and local memory in `LocalArgs`. Nothing takes an
entry out of these maps. `prepareLaunch` validates the pointers, sets the buffers and
counts the local memory from the maps, whatever was set for the same index since.

MSan does not intercept `urKernelSetArgLocal` and `urKernelSetArgPointer`; there they
are the driver's.
-/

namespace UnifiedRuntime.Sanitizer

/-! ## Calls -/

inductive Layer where
  | asan | msan
deriving DecidableEq

/-- The values of the set functions; a value's bytes are read as a number. -/
inductive ArgValue where
  | value (argSize bytes : Nat)
  | memObj (handle : Nat)
  | localMem (argSize : Nat)
  | pointer (p : Nat)

/-- A call of a set function: `buffers` is the layer's map of buffers at that time, and
the driver accepts the argument or fails. -/
structure ArgCall where
  argIndex : Nat
  arg : ArgValue
  buffers : Nat → Option Nat
  accepted : Bool

structure LocalArgsInfo where
  size : Nat
  sizeWithRedZone : Nat
deriving DecidableEq

/-- An argument as the driver has it. -/
inductive DriverArg where
  | value (argSize bytes : Nat)
  | memObj (handle : Nat)
  | localMem (argSize : Nat)
  | pointer (p : Nat)
deriving DecidableEq

/-- `GetSizeAndRedzoneSizeForLocal` with granularity and alignment 16. -/
def getSizeAndRedzoneSizeForLocal (size : Nat) : Nat :=
  let res :=
    if size ≤ 4 then 16
    else if size ≤ 16 then 32
    else if size ≤ 128 then size + 32
    else if size ≤ 512 then size + 64
    else if size ≤ 4096 then size + 128
    else size + 256
  (max res 32 + 15) / 16 * 16

/-- The options of the layer and the kernel; an instrumented kernel has one argument
more than the application knows, the last one. -/
structure KernelSetup where
  layer : Layer
  detectKernelArguments : Bool
  isInstrumented : Bool
  argNums : Nat

/-- The driver's arguments of a kernel and its `KernelInfo`. -/
structure KernelArgs where
  args : Nat → Option DriverArg
  bufferArgs : AList fun _ : Nat => Nat
  pointerArgs : AList fun _ : Nat => Nat
  localArgs : AList fun _ : Nat => LocalArgsInfo

namespace KernelArgs

def init : KernelArgs := ⟨fun _ => none, ∅, ∅, ∅⟩

/-- The driver's set function. -/
def pfnSetArg (s : KernelArgs) (index : Nat) (arg : DriverArg) (accepted : Bool) : KernelArgs :=
  if accepted then { s with args := Function.update s.args index (some arg) } else s

def urKernelSetArgValue (s : KernelArgs) (argIndex argSize bytes : Nat)
    (buffers : Nat → Option Nat) (accepted : Bool) : KernelArgs :=
  -- a value of the size of a handle may be a buffer
  match (if argSize = 8 then buffers bytes else none) with
  | some b => { s with bufferArgs := s.bufferArgs.insert argIndex b }
  | none => s.pfnSetArg argIndex (.value argSize bytes) accepted

def urKernelSetArgMemObj (s : KernelArgs) (argIndex handle : Nat) (buffers : Nat → Option Nat)
    (accepted : Bool) : KernelArgs :=
  match buffers handle with
  | some b => { s with bufferArgs := s.bufferArgs.insert argIndex b }
  | none => s.pfnSetArg argIndex (.memObj handle) accepted

def urKernelSetArgLocal (m : KernelSetup) (s : KernelArgs) (argIndex argSize : Nat)
    (accepted : Bool) : KernelArgs :=
  match m.layer with
  | .msan => s.pfnSetArg argIndex (.localMem argSize) accepted
  | .asan =>
    let argSizeWithRZ := getSizeAndRedzoneSizeForLocal argSize
    { s with localArgs := s.localArgs.insert argIndex ⟨argSize, argSizeWithRZ⟩ }.pfnSetArg
      argIndex (.localMem argSizeWithRZ) accepted

def urKernelSetArgPointer (m : KernelSetup) (s : KernelArgs) (argIndex p : Nat)
    (accepted : Bool) : KernelArgs :=
  match m.layer with
  | .msan => s.pfnSetArg argIndex (.pointer p) accepted
  | .asan =>
    let s :=
      if m.detectKernelArguments then { s with pointerArgs := s.pointerArgs.insert argIndex p }
      else s
    s.pfnSetArg argIndex (.pointer p) accepted

def setArg (m : KernelSetup) (s : KernelArgs) (c : ArgCall) : KernelArgs :=
  match c.arg with
  | .value argSize bytes => s.urKernelSetArgValue c.argIndex argSize bytes c.buffers c.accepted
  | .memObj handle => s.urKernelSetArgMemObj c.argIndex handle c.buffers c.accepted
  | .localMem argSize => s.urKernelSetArgLocal m c.argIndex argSize c.accepted
  | .pointer p => s.urKernelSetArgPointer m c.argIndex p c.accepted

end KernelArgs

/-! ## `prepareLaunch` -/

/-- What a launch meets: the buffers' memory on its device, which pointers end the
process, which of the buffers' pointers the driver accepts, the launch info and whether
setting it and the rest succeed. -/
structure LaunchEnv where
  getHandle : Nat → Option Nat
  fatal : Nat → Bool
  accepts : Nat → Bool
  launchInfo : Nat
  restSucceeds : Bool

/-- What `prepareLaunch` validates, sets from `BufferArgs` and counts, and whether the
kernel is launched after it. -/
structure Prepared where
  state : KernelArgs
  validated : List (Nat × Nat)
  buffers : List (Nat × Nat)
  counted : List (Nat × LocalArgsInfo)
  launched : Bool

namespace KernelArgs

/-- The entries of a map as pairs. -/
def pairs {β : Type} (l : AList fun _ : Nat => β) : List (Nat × β) :=
  l.entries.map fun e => (e.1, e.2)

/-- The loop over `BufferArgs`: an error of `getHandle` ends it, one of
`pfnSetArgPointer` is only logged. -/
def setBuffers (l : LaunchEnv) : List (Nat × Nat) → (Nat → Option DriverArg) →
    (Nat → Option DriverArg) × Bool
  | [], args => (args, true)
  | (index, b) :: rest, args =>
    match l.getHandle b with
    | none => (args, false)
    | some p =>
      setBuffers l rest
        (if l.accepts index then Function.update args index (some (.pointer p)) else args)

/-- The pointers `prepareLaunch` validates. -/
def pointersToValidate (m : KernelSetup) (s : KernelArgs) : List (Nat × Nat) :=
  if m.layer = .asan ∧ m.detectKernelArguments then
    (pairs s.pointerArgs).filter fun x => decide (x.2 ≠ 0)
  else []

def prepareLaunch (m : KernelSetup) (s : KernelArgs) (l : LaunchEnv) : Prepared :=
  let validated := s.pointersToValidate m
  if validated.any fun x => l.fatal x.2 then ⟨s, validated, [], [], false⟩
  else
    let buffers := pairs s.bufferArgs
    let r := setBuffers l buffers s.args
    let s := { s with args := r.1 }
    if !r.2 then ⟨s, validated, buffers, [], false⟩
    else if !m.isInstrumented then ⟨s, validated, buffers, [], true⟩
    else
      match m.layer with
      | .msan => ⟨s, validated, buffers, [], l.restSucceeds⟩
      | .asan =>
        -- the launch info is the last argument
        let s := { s with
          args := Function.update s.args (m.argNums - 1) (some (.pointer l.launchInfo)) }
        ⟨s, validated, buffers, pairs s.localArgs, l.restSucceeds⟩

end KernelArgs

inductive KernelEvent where
  | setArg (c : ArgCall)
  | launch (l : LaunchEnv)

namespace KernelArgs

def event (m : KernelSetup) (s : KernelArgs) : KernelEvent → KernelArgs
  | .setArg c => s.setArg m c
  | .launch l => (s.prepareLaunch m l).state

def run (m : KernelSetup) (evs : List KernelEvent) : KernelArgs :=
  evs.foldl (event m) init

end KernelArgs

/-! ## What the arguments are -/

/-- What a call gives its index. -/
inductive Setting where
  | buffer (b : Nat)
  | value (argSize bytes : Nat)
  | memObj (handle : Nat)
  | localMem (argSize : Nat)
  | pointer (p : Nat)
deriving DecidableEq

namespace ArgCall

/-- The buffer of the layer that a call is about. -/
def buffer (c : ArgCall) : Option Nat :=
  match c.arg with
  | .value argSize bytes => if argSize = 8 then c.buffers bytes else none
  | .memObj handle => c.buffers handle
  | .localMem _ | .pointer _ => none

/-- The setting, unless the driver failed. -/
def setting (c : ArgCall) : Option Setting :=
  match c.buffer with
  | some b => some (.buffer b)
  | none =>
    if c.accepted then
      match c.arg with
      | .value argSize bytes => some (.value argSize bytes)
      | .memObj handle => some (.memObj handle)
      | .localMem argSize => some (.localMem argSize)
      | .pointer p => some (.pointer p)
    else none

end ArgCall

/-- The last call that meets a condition. -/
def lastCall (P : ArgCall → Bool) (calls : List ArgCall) : Option ArgCall :=
  calls.reverse.find? P

/-- What was recorded last for an index by the calls that record something. -/
def lastRecorded {α : Type} (f : ArgCall → Option α) (calls : List ArgCall) (index : Nat) :
    Option α :=
  (lastCall (fun c => decide (c.argIndex = index) && (f c).isSome) calls).bind f

/-- The argument the application has set. -/
def lastSetting (calls : List ArgCall) (index : Nat) : Option Setting :=
  lastRecorded ArgCall.setting calls index

/-- The set calls of a run. -/
def setCalls (evs : List KernelEvent) : List ArgCall :=
  evs.filterMap fun
    | .setArg c => some c
    | .launch _ => none

/-- The argument the driver should have: local memory is enlarged by ASan's redzone. -/
def Setting.driverArg (m : KernelSetup) (l : LaunchEnv) : Setting → Option DriverArg
  | .buffer b => (l.getHandle b).map .pointer
  | .value argSize bytes => some (.value argSize bytes)
  | .memObj handle => some (.memObj handle)
  | .localMem argSize =>
    match m.layer with
    | .asan => some (.localMem (getSizeAndRedzoneSizeForLocal argSize))
    | .msan => some (.localMem argSize)
  | .pointer p => some (.pointer p)

/-- The argument is the one the sanitizer adds. -/
def KernelSetup.IsHidden (m : KernelSetup) (index : Nat) : Prop :=
  m.layer = .asan ∧ m.isInstrumented = true ∧ index = m.argNums - 1

/-- **The last writer wins** at a launch. -/
structure LastWriterWins (m : KernelSetup) (calls : List ArgCall) (l : LaunchEnv)
    (r : Prepared) : Prop where
  inForce : r.launched = true → ∀ index x, ¬ m.IsHidden index →
    lastSetting calls index = some x → r.state.args index = x.driverArg m l
  buffers : ∀ x ∈ r.buffers, lastSetting calls x.1 = some (.buffer x.2)
  validated : ∀ x ∈ r.validated, lastSetting calls x.1 = some (.pointer x.2)
  counted : ∀ x ∈ r.counted, lastSetting calls x.1 = some (.localMem x.2.size)

end UnifiedRuntime.Sanitizer
