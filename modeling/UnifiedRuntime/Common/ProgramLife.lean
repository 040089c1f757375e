import UnifiedRuntime.Cuda.MaxRegisters

/-!
# The life of a program (CUDA and HIP)

A build loads the binary of a program into a module of the driver, whose handle overwrites that of
the build before. The status of a program is set when a module is loaded and stays when the next
build fails. What `urProgramLink` gives a program for its binary belongs to the link state, which is
destroyed before the call returns. HIP does not look at what its `buildProgram` returns.

- `Program.Inv`: a program has one module, or none.
- `programs_right`: what a program reports and what becomes of its modules, when it is built once.
-/

namespace UnifiedRuntime.ProgramLife

open Cuda

/-! ## Results and exceptions -/

inductive Adapter where
  | cuda
  | hip
deriving DecidableEq

/-- What a call of the driver reports; `deinitialized` is `CUDA_ERROR_DEINITIALIZED`. -/
inductive DriverResult where
  | success
  | deinitialized
  | error
deriving DecidableEq

/-- A `ur_result_t`; `driver` is what `mapErrorUR` makes of a `DriverResult`. -/
inductive CallResult where
  | success
  | invalidContext
  | invalidDevice
  | invalidOperation
  | invalidProgram
  | invalidSize
  | unsupportedFeature
  | outOfResources
  | programBuildFailure
  | driver
deriving DecidableEq

inductive Thrown where
  | result (r : CallResult)
  | std (e : Str.StdException)

/-- What a function returns, or throws. -/
abbrev Outcome := Except Thrown CallResult

variable (adapter : Adapter)

/-- `checkErrorUR`: CUDA lets `CUDA_ERROR_DEINITIALIZED` pass. -/
def checkErrorUR : DriverResult → Except Thrown Unit
  | .success => .ok ()
  | .deinitialized => if adapter = .cuda then .ok () else .error (.result .driver)
  | .error => .error (.result .driver)

/-- `catch (ur_result_t Err)`. -/
def catchResult : Thrown → Outcome
  | .result r => .ok r
  | .std e => .error (.std e)

/-! ## Programs -/

/-- Where the bytes of a binary are: with the caller, in a link state, or in the program. -/
inductive Origin where
  | caller (buffer : Nat)
  | linkState (link : Nat)
  | executableCache

inductive BinaryType where
  | none
  | compiledObject
  | executable

inductive BuildStatus where
  | none
  | error
  | success
deriving DecidableEq

/-- A module of the driver: what it was loaded from, by which build, and how often it was
unloaded. -/
structure LoadedModule where
  binary : Option Origin
  request : Nat
  unloads : Nat

/-- `ur_program_handle_t_`. The last three fields are what the driver and the caller know: the
modules that were loaded, `Module` being one of them, the builds that were asked for, and whether
the object is gone. -/
structure Program where
  refCount : Nat
  device : Nat
  binary : Option Origin
  isRelocatable : Bool
  binaryType : BinaryType
  buildOptions : Str
  buildStatus : BuildStatus
  module : Option Nat
  modules : List LoadedModule
  requests : Nat
  deleted : Bool

/-- The constructor. -/
def Program.new (device : Nat) (isRelocatable : Bool) : Program :=
  { refCount := 1, device, binary := none, isRelocatable, binaryType := .none, buildOptions := [],
    buildStatus := .none, module := none, modules := [], requests := 0, deleted := false }

/-- `setBinary`. -/
def Program.setBinary (P : Program) (source : Origin) : CallResult × Program :=
  if P.binary = none then (.success, { P with binary := some source }) else (.invalidOperation, P)

/-- `cuModuleLoadDataEx` and `hipModuleLoadDataEx`, which set `Module` when they succeed. -/
def Program.moduleLoadDataEx (P : Program) : DriverResult → Program
  | .success =>
    { P with
      module := some P.modules.length
      modules := P.modules ++ [⟨P.binary, P.requests, 0⟩] }
  | _ => P

/-- `cuModuleUnload` and `hipModuleUnload`. -/
def Program.moduleUnload (P : Program) : DriverResult → Program
  | .success =>
    match P.module with
    | some m =>
      { P with modules := P.modules.modify m fun M => { M with unloads := M.unloads + 1 } }
    | none => P
  | _ => P

/-- How `finalizeRelocatable` ends: it throws when a call to COMGR fails, and returns an error when
the link does. -/
inductive Finalized where
  | done
  | thrown
  | failed

def Program.finalizeRelocatable (P : Program) : Finalized → Outcome × Program
  | .done => (.ok .success, { P with binary := some .executableCache })
  | .thrown => (.error (.result .driver), P)
  | .failed => (.ok .programBuildFailure, P)

/-- A build: its options, and what the driver does. -/
structure Build where
  options : Option Str
  active : DriverResult
  finalized : Finalized
  load : DriverResult

/-- The end of `buildProgram`. -/
def Program.load (P : Program) (load : DriverResult) : Outcome × Program :=
  let P := P.moduleLoadDataEx load
  match checkErrorUR adapter load with
  | .error e => (.error e, P)
  | .ok () => (.ok .success, { P with buildStatus := .success })

/-- `buildProgram` of CUDA, which throws when it cannot read the register limit. -/
def Program.buildCuda (P : Program) (options : Option Str) (load : DriverResult) :
    Outcome × Program :=
  let stored := options.getD P.buildOptions
  match MaxRegisters.buildProgram P.buildOptions options with
  | .error e => (.error (.std e), { P with buildOptions := stored })
  | .ok _ => { P with buildOptions := stored }.load .cuda load

/-- `buildProgram` of HIP. -/
def Program.buildHip (P : Program) (options : Option Str) (finalized : Finalized)
    (load : DriverResult) : Outcome × Program :=
  let stored := options.getD P.buildOptions
  if P.isRelocatable then
    match P.finalizeRelocatable finalized with
    | (.error e, P) => (.error e, P)
    | (.ok .success, P) => { P with isRelocatable := false, buildOptions := stored }.load .hip load
    | (.ok _, P) => (.ok .programBuildFailure, { P with buildStatus := .error })
  else { P with buildOptions := stored }.load .hip load

def Program.buildProgram (P : Program) (build : Build) : Outcome × Program :=
  match adapter with
  | .cuda => P.buildCuda build.options build.load
  | .hip => P.buildHip build.options build.finalized build.load

/-- `urProgramBuild`. What `buildProgram` returns is ignored. -/
def urProgramBuild (build : Build) (P : Program) : Outcome × Program :=
  let P := { P with requests := P.requests + 1 }
  match checkErrorUR adapter build.active with
  | .error e => (catchResult e, P)
  | .ok () =>
    match P.buildProgram adapter build with
    | (.error e, P) => (catchResult e, P)
    | (.ok _, P) => (.ok .success, { P with binaryType := .executable })

/-- `urProgramCompile`, which throws what `urProgramBuild` returns. -/
def urProgramCompile (build : Build) (P : Program) : Outcome × Program :=
  match urProgramBuild adapter build P with
  | (.ok .success, P) => (.ok .success, { P with binaryType := .compiledObject })
  | (.ok r, P) => (.error (.result r), P)
  | (.error e, P) => (.error e, P)

/-- `urProgramRetain`. -/
def urProgramRetain (P : Program) : Outcome × Program :=
  if P.refCount = 0 then (.ok .invalidProgram, P)
  else (.ok .success, { P with refCount := P.refCount + 1 })

/-- Whether the last release unloads a module: CUDA looks at the status, HIP at the handle. -/
def Program.unloads (P : Program) : Bool :=
  match adapter with
  | .cuda => P.buildStatus = .success
  | .hip => P.module.isSome

/-- `urProgramRelease`. -/
def urProgramRelease (active unload : DriverResult) (P : Program) : Outcome × Program :=
  if P.refCount = 0 then (.ok .invalidProgram, P)
  else if P.refCount - 1 ≠ 0 then (.ok .success, { P with refCount := P.refCount - 1 })
  else
    let P := { P with refCount := 0, deleted := true }
    match checkErrorUR adapter active with
    | .error _ => (.ok .outOfResources, P)
    | .ok () =>
      if P.unloads adapter then
        match checkErrorUR adapter unload with
        | .error _ => (.ok .outOfResources, P.moduleUnload unload)
        | .ok () => (.ok .success, P.moduleUnload unload)
      else if adapter = .cuda ∧ P.buildStatus ≠ .none then (.ok .invalidProgram, P)
      else (.ok .success, P)

/-! ## Creation and linking -/

/-- `links` counts how often each link state was destroyed, `freed` are the buffers that the caller
has given back. -/
structure State where
  programs : List Program
  links : List Nat
  freed : Nat → Bool

def State.init : State := { programs := [], links := [], freed := fun _ => false }

variable (s : State)

/-- A check of `createProgram` fails: CUDA throws what it returns. -/
def refused (result : CallResult) : Outcome :=
  match adapter with
  | .cuda => .error (.result result)
  | .hip => .ok result

/-- `urProgramCreateWithBinary` for a context with these devices. HIP takes a size of zero for a
string, and reads from the metadata whether the program is relocatable. -/
def urProgramCreateWithBinary (devices : List Nat) (numDevices device size buffer : Nat)
    (needFinalization : Bool) : Outcome × State :=
  if numDevices > 1 then (.ok .unsupportedFeature, s)
  else if device ∉ devices then (refused adapter .invalidContext, s)
  else if adapter = .cuda ∧ size = 0 then (refused adapter .invalidSize, s)
  else
    let P := Program.new device (adapter = .hip && needFinalization)
    let P := (P.setBinary (.caller buffer)).2
    (.ok .success, { s with programs := s.programs ++ [{ P with binaryType := .compiledObject }] })

/-- A link: its options, the programs with what `cuLinkAddData` reports of them, and what the other
calls report. -/
structure Link where
  options : Option Str
  active : DriverResult
  create : DriverResult
  inputs : List (Nat × DriverResult)
  complete : DriverResult
  load : DriverResult
  destroy : DriverResult

/-- The loop over the programs. -/
def addData : List (Nat × DriverResult) → Except Thrown Unit
  | [] => .ok ()
  | input :: inputs =>
    match checkErrorUR .cuda input.2 with
    | .error e => .error e
    | .ok () => addData inputs

/-- The inner `try` of `urProgramLink`. The result of `setBinary` is overwritten. -/
def Link.link (l : Link) (link : Nat) (P : Program) : Outcome × Program :=
  match addData l.inputs with
  | .error e => (.error e, P)
  | .ok () =>
    match checkErrorUR .cuda l.complete with
    | .error e => (.error e, P)
    | .ok () =>
      let P := (P.setBinary (.linkState link)).2
      match { P with requests := P.requests + 1 }.buildCuda l.options l.load with
      | (.error e, P) => (.error e, P)
      | (.ok r, P) => (.ok r, { P with binaryType := .executable })

/-- `urProgramLink`. -/
def urProgramLink (l : Link) : Outcome × State :=
  if adapter = .hip then (.ok .unsupportedFeature, s)
  else
    let devices := l.inputs.filterMap fun input => (s.programs[input.1]?).map Program.device
    if devices.any (some · ≠ devices.head?) then (.ok .invalidDevice, s)
    else
      match checkErrorUR .cuda l.active with
      | .error e => (catchResult e, s)
      | .ok () =>
        match checkErrorUR .cuda l.create with
        | .error e => (catchResult e, s)
        | .ok () =>
          let (r, P) := l.link s.links.length (.new (devices.headD 0) false)
          let links := s.links ++ [if l.destroy = .success then 1 else 0]
          -- the link state is destroyed on both ways out, and `RetProgram` unless it is returned
          match checkErrorUR .cuda l.destroy, r with
          | .ok (), .ok r => (.ok r, { s with programs := s.programs ++ [P], links })
          | .ok (), .error e | .error e, _ =>
            (catchResult e,
              { s with programs := s.programs ++ [{ P with deleted := true }], links })

/-! ## Runs -/

inductive Call where
  | create (devices : List Nat) (numDevices device size buffer : Nat) (needFinalization : Bool)
  | build (handle : Nat) (build : Build)
  | compile (handle : Nat) (build : Build)
  | link (l : Link)
  | retain (handle : Nat)
  | release (handle : Nat) (active unload : DriverResult)
  | freeBuffer (buffer : Nat)

/-- A call on the program of a handle, if it is there. -/
def State.on (handle : Nat) (f : Program → Outcome × Program) : Option (Outcome × State) :=
  match s.programs[handle]? with
  | some P =>
    if P.deleted then none
    else some ((f P).1, { s with programs := s.programs.set handle (f P).2 })
  | none => none

def step : Call → Option (Outcome × State)
  | .create devices numDevices device size buffer needFinalization =>
    some (urProgramCreateWithBinary adapter s devices numDevices device size buffer
      needFinalization)
  | .build handle build => s.on handle (urProgramBuild adapter build)
  | .compile handle build => s.on handle (urProgramCompile adapter build)
  | .link l => some (urProgramLink adapter s l)
  | .retain handle => s.on handle urProgramRetain
  | .release handle active unload => s.on handle (urProgramRelease adapter active unload)
  | .freeBuffer buffer =>
    some (.ok .success, { s with freed := fun b => if b = buffer then true else s.freed b })

/-- The states of runs in which every call is allowed. -/
inductive Reached (allowed : State → Call → Prop) : State → Prop where
  | init : Reached allowed .init
  | next {s s' : State} {call : Call} {r : Outcome} (h : Reached allowed s)
      (hallowed : allowed s call) (hstep : step adapter s call = some (r, s')) : Reached allowed s'

/-! ## Modules and their builds -/

def Origin.Readable : Origin → Prop
  | .caller buffer => s.freed buffer = false
  | .linkState link => s.links[link]? = some 0
  | .executableCache => True

/-- A live module is loaded from the last build that was asked for. -/
def Program.Live (P : Program) : Prop :=
  ∃ M ∈ P.modules, M.unloads = 0 ∧ M.request = P.requests

/-- **What a program reports** is so, and its modules live as long as it does. -/
structure Program.Right (P : Program) : Prop where
  status : P.deleted = false → (P.buildStatus = .success ↔ P.Live)
  executable : P.deleted = false → P.binaryType = .executable → P.Live
  modules : ∀ M ∈ P.modules, M.unloads = if P.deleted then 1 else 0
  binary : P.deleted = false → ∀ origin, P.binary = some origin → origin.Readable s

structure Right : Prop where
  programs : ∀ P ∈ s.programs, P.Right s
  links : ∀ destroyed ∈ s.links, destroyed = 1

/-- The module of a program is the one that its last build has loaded from its binary. -/
def Program.Loaded (P : Program) : Prop :=
  ∃ m, P.module = some m ∧ P.modules[m]? = some ⟨P.binary, P.requests, 0⟩

/-- The program that a call builds. -/
def Call.built : Call → Option Nat
  | .build handle _ => some handle
  | .compile handle _ => some handle
  | .link _ => some s.programs.length
  | _ => none

/-- A build or a link that returns success has loaded a module. -/
def CallRight (s : State) (call : Call) (r : Outcome) (s' : State) : Prop :=
  ∀ handle, call.built s = some handle → r = .ok .success →
    ∃ P, s'.programs[handle]? = some P ∧ P.Loaded

/-- A program is built when it has no module, CUDA does not shut down meanwhile, and a relocatable
program of HIP can be linked. -/
def Build.Careful (build : Build) (P : Program) : Prop :=
  P.buildStatus ≠ .success ∧ (adapter = .cuda → build.load ≠ .deinitialized) ∧
    (adapter = .hip → P.isRelocatable = true → build.finalized ≠ .failed)

def Link.results (l : Link) : List DriverResult :=
  l.create :: l.complete :: l.load :: l.inputs.map Prod.snd

/-- **The condition.** No program is built again once it has a module, no link succeeds, the last
release reaches the driver, and the caller keeps the binaries. -/
def Call.Careful (s : State) : Call → Prop
  | .create _ _ _ _ buffer _ => s.freed buffer = false
  | .build handle b | .compile handle b => ∀ P, s.programs[handle]? = some P → b.Careful adapter P
  | .link l =>
    adapter = .cuda → l.destroy = .success ∧ l.create ≠ .deinitialized ∧ .error ∈ l.results
  | .retain _ => True
  | .release handle active unload =>
    ∀ P, s.programs[handle]? = some P → P.refCount = 1 → P.buildStatus = .success →
      active = .success ∧ unload = .success
  | .freeBuffer buffer =>
    ∀ P ∈ s.programs, P.deleted = false → P.binary ≠ some (.caller buffer)

/-! ## One program -/

variable {adapter s} {P P' : Program} {build : Build} {r : Outcome} {freed : Nat → Bool}

/-- A program that has no module. -/
structure Program.Unbuilt (P : Program) : Prop where
  buildStatus : P.buildStatus = .none
  module : P.module = none
  modules : P.modules = []
  binaryType : P.binaryType ≠ .executable

/-- A program with the module that its last build has loaded from its binary. -/
structure Program.Built (P : Program) : Prop where
  buildStatus : P.buildStatus = .success
  module : P.module = some 0
  modules : P.modules = [⟨P.binary, P.requests, 0⟩]

/-- Where the binary of a program may be. -/
def Program.Kept (freed : Nat → Bool) (P : Program) : Prop :=
  P.binary = some .executableCache ∨ ∃ buffer, P.binary = some (.caller buffer) ∧
    freed buffer = false

/-- What holds of a program in a careful run. -/
structure Program.Inv (freed : Nat → Bool) (P : Program) : Prop where
  live : P.deleted = false → (P.Unbuilt ∨ P.Built) ∧ P.Kept freed
  deleted : P.deleted = true → ∀ M ∈ P.modules, M.unloads = 1

theorem Program.Built.loaded (h : P.Built) : P.Loaded := by
  refine ⟨0, h.module, ?_⟩
  rw [h.modules]
  rfl

theorem Program.Built.live (h : P.Built) : P.Live := by
  refine ⟨⟨P.binary, P.requests, 0⟩, ?_, rfl, rfl⟩
  rw [h.modules]
  exact List.mem_singleton.2 rfl

theorem Program.Unbuilt.not_live (h : P.Unbuilt) : ¬ P.Live := by
  rintro ⟨M, hmem, -⟩
  rw [h.modules] at hmem
  cases hmem

theorem Program.Inv.right (h : P.Inv s.freed) : P.Right s where
  status := by
    intro hlive
    rcases (h.live hlive).1 with hunbuilt | hbuilt
    · rw [hunbuilt.buildStatus]
      exact iff_of_false (by decide) hunbuilt.not_live
    · exact iff_of_true hbuilt.buildStatus hbuilt.live
  executable := by
    intro hlive htype
    rcases (h.live hlive).1 with hunbuilt | hbuilt
    · exact absurd htype hunbuilt.binaryType
    · exact hbuilt.live
  modules := by
    intro M hM
    cases hdeleted : P.deleted with
    | true => exact h.deleted hdeleted M hM
    | false =>
      rcases (h.live hdeleted).1 with hunbuilt | hbuilt
      · rw [hunbuilt.modules] at hM
        cases hM
      · rw [hbuilt.modules, List.mem_singleton] at hM
        rw [hM]
        rfl
  binary := by
    intro hlive origin horigin
    rcases (h.live hlive).2 with hcache | ⟨buffer, hcaller, hkept⟩
    · obtain rfl := Option.some.inj (hcache.symm.trans horigin)
      trivial
    · obtain rfl := Option.some.inj (hcaller.symm.trans horigin)
      exact hkept

theorem checkErrorUR_ok {load : DriverResult} (hload : adapter = .cuda → load ≠ .deinitialized)
    (h : checkErrorUR adapter load = .ok ()) : load = .success := by
  cases load with
  | success => rfl
  | error => cases h
  | deinitialized =>
    cases adapter with
    | cuda => exact absurd rfl (hload rfl)
    | hip => cases h

theorem checkErrorUR_error {r : DriverResult} {e : Thrown}
    (h : checkErrorUR adapter r = .error e) : e ≠ .result .success := by
  rintro rfl
  cases r with
  | success => cases h
  | error => cases h
  | deinitialized => cases adapter <;> cases h

/-- What a build makes of a program without a module: it loads one, or it throws. -/
structure Building (P : Program) (r : Outcome × Program) : Prop where
  deleted : r.2.deleted = P.deleted
  binary : r.2.binary = P.binary ∨ r.2.binary = some .executableCache
  built : ∀ c, r.1 = .ok c → r.2.Built
  unbuilt : ∀ e, r.1 = .error e → e ≠ .result .success ∧ r.2.Unbuilt

theorem Building.thrown {e : Thrown} (he : e ≠ .result .success) (h : P'.Unbuilt)
    (hdeleted : P'.deleted = P.deleted) (hbinary : P'.binary = P.binary) :
    Building P (.error e, P') where
  deleted := hdeleted
  binary := .inl hbinary
  built := by
    intro c hc
    cases hc
  unbuilt := by
    intro e' he'
    obtain rfl := Except.error.inj he'
    exact ⟨he, h⟩

theorem Program.Unbuilt.load (h : P.Unbuilt) {load : DriverResult}
    (hload : adapter = .cuda → load ≠ .deinitialized) : Building P (P.load adapter load) := by
  unfold Program.load
  cases hcheck : checkErrorUR adapter load with
  | ok u =>
    rw [checkErrorUR_ok hload hcheck]
    refine ⟨rfl, .inl rfl, ?_, ?_⟩
    · intro c _
      exact ⟨rfl, by simp [moduleLoadDataEx, h.modules], by simp [moduleLoadDataEx, h.modules]⟩
    · intro e he
      cases he
  | error e =>
    -- the driver leaves the handle as it is
    have hsame : P.moduleLoadDataEx load = P := by
      cases load with
      | success => cases hcheck
      | deinitialized => rfl
      | error => rfl
    rw [hsame]
    exact .thrown (checkErrorUR_error hcheck) h rfl rfl

theorem Building.of_binary {P₁ : Program} {made : Outcome × Program} (h : Building P₁ made)
    (hdeleted : P₁.deleted = P.deleted)
    (hbinary : P₁.binary = P.binary ∨ P₁.binary = some .executableCache) : Building P made where
  deleted := h.deleted.trans hdeleted
  binary := by
    rcases h.binary with hsame | hcache
    · rwa [hsame]
    · exact .inr hcache
  built := h.built
  unbuilt := h.unbuilt

/-- The options, and what is finalized, do not matter. -/
theorem Program.Unbuilt.congr (h : P.Unbuilt) (options : Str) (relocatable : Bool)
    (binary : Option Origin) (requests : Nat) :
    { P with buildOptions := options, isRelocatable := relocatable, binary, requests }.Unbuilt :=
  ⟨h.buildStatus, h.module, h.modules, h.binaryType⟩

theorem Program.Unbuilt.buildCuda (h : P.Unbuilt) (options : Option Str) {load : DriverResult}
    (hload : load ≠ .deinitialized) : Building P (P.buildCuda options load) := by
  unfold Program.buildCuda
  cases MaxRegisters.buildProgram P.buildOptions options with
  | error e => exact .thrown nofun (h.congr _ _ _ _) rfl rfl
  | ok stored =>
    refine Building.of_binary (Program.Unbuilt.load (h.congr _ _ _ _) ?_) rfl (.inl rfl)
    intro _
    exact hload

theorem Program.Unbuilt.buildHip (h : P.Unbuilt) (options : Option Str) {finalized : Finalized}
    (hfinalized : P.isRelocatable = true → finalized ≠ .failed) (load : DriverResult) :
    Building P (P.buildHip options finalized load) := by
  have hhip : Adapter.hip = .cuda → load ≠ .deinitialized := nofun
  unfold Program.buildHip
  by_cases hrelocatable : P.isRelocatable = true
  · rw [if_pos hrelocatable]
    cases finalized with
    | failed => exact absurd rfl (hfinalized hrelocatable)
    | thrown => exact .thrown nofun h rfl rfl
    | done =>
      exact Building.of_binary ((h.congr _ false (some .executableCache) _).load hhip) rfl
        (.inr rfl)
  · rw [if_neg hrelocatable]
    exact Building.of_binary ((h.congr _ _ _ _).load hhip) rfl (.inl rfl)

/-- **A build** of a program without a module. -/
theorem Program.Unbuilt.buildProgram (h : P.Unbuilt) (hcareful : build.Careful adapter P) :
    Building P (P.buildProgram adapter build) := by
  obtain ⟨-, hload, hfinalized⟩ := hcareful
  cases adapter with
  | cuda => exact h.buildCuda build.options (hload rfl)
  | hip => exact h.buildHip build.options (hfinalized rfl) build.load

theorem Program.Inv.unbuilt (h : P.Inv freed) (hlive : P.deleted = false)
    (hstatus : P.buildStatus ≠ .success) : P.Unbuilt :=
  (h.live hlive).1.resolve_right fun hbuilt => hstatus hbuilt.buildStatus

theorem Program.Kept.congr (h : P.Kept freed)
    (hbinary : P'.binary = P.binary ∨ P'.binary = some .executableCache) : P'.Kept freed := by
  rcases hbinary with hsame | hcache
  · unfold Program.Kept
    rwa [hsame]
  · exact .inl hcache

/-- What a careful build or compile of a program leaves. -/
structure AfterBuild (freed : Nat → Bool) (r : Outcome × Program) : Prop where
  inv : r.2.Inv freed
  success : r.1 = .ok .success → r.2.Built

theorem Program.Inv.of_live (hlive : P.deleted = false)
    (hbuilt : P.Unbuilt ∨ P.Built) (hkept : P.Kept freed) : P.Inv freed where
  live := fun _ => ⟨hbuilt, hkept⟩
  deleted := by
    intro hdeleted
    rw [hlive] at hdeleted
    cases hdeleted

theorem catchResult_ne {e : Thrown} (he : e ≠ .result .success) :
    catchResult e ≠ .ok .success := by
  cases e with
  | std e => nofun
  | result r =>
    intro h
    exact he (congrArg Thrown.result (Except.ok.inj h))

/-- **`urProgramBuild`** keeps the invariant, and returns success for a program that is loaded. -/
theorem urProgramBuild_built (h : P.Inv freed) (hlive : P.deleted = false)
    (hcareful : build.Careful adapter P) : AfterBuild freed (urProgramBuild adapter build P) := by
  have hunbuilt := (h.unbuilt hlive hcareful.1).congr P.buildOptions P.isRelocatable P.binary
    (P.requests + 1)
  have hkept := (h.live hlive).2
  unfold urProgramBuild
  dsimp only
  cases hactive : checkErrorUR adapter build.active with
  | error e =>
    refine ⟨.of_live hlive (.inl hunbuilt) hkept, ?_⟩
    intro hsuccess
    exact absurd hsuccess (catchResult_ne (checkErrorUR_error hactive))
  | ok u =>
    have hbuilding := @Program.Unbuilt.buildProgram adapter _ build hunbuilt hcareful
    generalize Program.buildProgram adapter _ build = made at hbuilding
    obtain ⟨outcome, P'⟩ := made
    obtain ⟨hdeleted, hbinary, hbuilt, hthrown⟩ := hbuilding
    replace hlive : P'.deleted = false := hdeleted.trans hlive
    replace hkept : P'.Kept freed := hkept.congr hbinary
    cases outcome with
    | error e =>
      -- a build that throws has loaded nothing
      obtain ⟨he, hunbuilt⟩ := hthrown e rfl
      refine ⟨.of_live hlive (.inl hunbuilt) hkept, ?_⟩
      intro hsuccess
      exact absurd hsuccess (catchResult_ne he)
    | ok c =>
      obtain ⟨hstatus, hmodule, hmodules⟩ := hbuilt c rfl
      exact ⟨.of_live hlive (.inr ⟨hstatus, hmodule, hmodules⟩) hkept,
        fun _ => ⟨hstatus, hmodule, hmodules⟩⟩

theorem urProgramCompile_built (h : P.Inv freed) (hlive : P.deleted = false)
    (hcareful : build.Careful adapter P) : AfterBuild freed (urProgramCompile adapter build P) := by
  have hbuild := urProgramBuild_built h hlive hcareful
  unfold urProgramCompile
  generalize urProgramBuild adapter build P = made at hbuild
  obtain ⟨outcome, P'⟩ := made
  obtain ⟨hinv, hbuilt⟩ := hbuild
  cases outcome with
  | error e => exact ⟨hinv, nofun⟩
  | ok c =>
    by_cases hc : c = .success
    · obtain rfl := hc
      obtain ⟨hstatus, hmodule, hmodules⟩ := hbuilt rfl
      refine ⟨⟨?_, hinv.deleted⟩, fun _ => ⟨hstatus, hmodule, hmodules⟩⟩
      intro hlive'
      exact ⟨.inr ⟨hstatus, hmodule, hmodules⟩, (hinv.live hlive').2⟩
    · cases c with
      | success => exact absurd rfl hc
      | _ => exact ⟨hinv, nofun⟩

/-! ## Retain, release and link -/

theorem Program.Inv.setRefCount (h : P.Inv freed) (n : Nat) :
    { P with refCount := n }.Inv freed := by
  refine ⟨fun hlive => ⟨?_, (h.live hlive).2⟩, h.deleted⟩
  rcases (h.live hlive).1 with hunbuilt | hbuilt
  · exact .inl ⟨hunbuilt.buildStatus, hunbuilt.module, hunbuilt.modules, hunbuilt.binaryType⟩
  · exact .inr ⟨hbuilt.buildStatus, hbuilt.module, hbuilt.modules⟩

theorem urProgramRetain_inv (h : P.Inv freed) :
    (urProgramRetain P).2.Inv freed := by
  unfold urProgramRetain
  split
  · exact h
  · exact h.setRefCount _

theorem Program.Inv.of_deleted (hdeleted : P.deleted = true)
    (hmodules : ∀ M ∈ P.modules, M.unloads = 1) : P.Inv freed where
  live := by
    intro hlive
    rw [hdeleted] at hlive
    cases hlive
  deleted := fun _ => hmodules

/-- **The last release** unloads the module of a program that has one, and no other one. -/
theorem urProgramRelease_inv {active unload : DriverResult} (h : P.Inv freed)
    (hlive : P.deleted = false) (hcareful : P.refCount = 1 → P.buildStatus = .success →
      active = .success ∧ unload = .success) :
    (urProgramRelease adapter active unload P).2.Inv freed := by
  unfold urProgramRelease
  split
  · exact h
  · split
    · exact h.setRefCount _
    · rcases (h.live hlive).1 with hunbuilt | hbuilt
      · -- neither adapter finds a module
        have hgone : { P with refCount := 0, deleted := true }.Inv freed := by
          refine .of_deleted rfl ?_
          intro M hM
          rw [hunbuilt.modules] at hM
          cases hM
        have hnone : { P with refCount := 0, deleted := true }.unloads adapter = false := by
          cases adapter with
          | cuda => simp [Program.unloads, hunbuilt.buildStatus]
          | hip => simp [Program.unloads, hunbuilt.module]
        dsimp only
        rw [hnone]
        cases checkErrorUR adapter active with
        | error e => exact hgone
        | ok u =>
          rw [if_neg (by decide), if_neg (by simp [hunbuilt.buildStatus])]
          exact hgone
      · obtain ⟨rfl, rfl⟩ := hcareful (by omega) hbuilt.buildStatus
        have hsome : { P with refCount := 0, deleted := true }.unloads adapter = true := by
          cases adapter with
          | cuda => simp [Program.unloads, hbuilt.buildStatus]
          | hip => simp [Program.unloads, hbuilt.module]
        dsimp only [checkErrorUR]
        rw [hsome]
        refine .of_deleted ?_ ?_
        · simp [Program.moduleUnload, hbuilt.module]
        · simp [Program.moduleUnload, hbuilt.module, hbuilt.modules]

theorem addData_ok {inputs : List (Nat × DriverResult)} (h : addData inputs = .ok ()) :
    .error ∉ inputs.map Prod.snd := by
  induction inputs with
  | nil => exact List.not_mem_nil
  | cons input inputs ih =>
    obtain ⟨program, r⟩ := input
    cases r with
    | error => cases h
    | success => simpa using ih h
    | deinitialized => simpa using ih h

theorem addData_error {inputs : List (Nat × DriverResult)} {e : Thrown}
    (h : addData inputs = .error e) : e ≠ .result .success := by
  induction inputs with
  | nil => cases h
  | cons input inputs ih =>
    unfold addData at h
    cases hcheck : checkErrorUR .cuda input.2 with
    | error e' =>
      rw [hcheck] at h
      exact Except.error.inj h ▸ checkErrorUR_error hcheck
    | ok u =>
      rw [hcheck] at h
      exact ih h

theorem Program.buildCuda_error (P : Program) (options : Option Str) :
    ∃ e P', P.buildCuda options .error = (.error e, P') ∧ e ≠ .result .success ∧
      P'.modules = P.modules := by
  unfold Program.buildCuda
  cases MaxRegisters.buildProgram P.buildOptions options with
  | error e => exact ⟨_, _, rfl, nofun, rfl⟩
  | ok stored => exact ⟨_, _, rfl, @checkErrorUR_error .cuda .error _ rfl, rfl⟩

/-- A link in which the driver fails throws, and no module is loaded. -/
theorem Link.link_error (l : Link) (link device : Nat) (hcreate : l.create ≠ .error)
    (hfails : .error ∈ l.results) :
    ∃ e P, l.link link (.new device false) = (.error e, P) ∧ e ≠ .result .success ∧
      P.modules = [] := by
  unfold Link.link
  cases hinputs : addData l.inputs with
  | error e => exact ⟨e, _, rfl, addData_error hinputs, rfl⟩
  | ok u =>
    cases hcomplete : checkErrorUR .cuda l.complete with
    | error e => exact ⟨e, _, rfl, checkErrorUR_error hcomplete, rfl⟩
    | ok u =>
      have hload : l.load = .error := by
        have hcompleted : l.complete ≠ .error := by
          intro h
          rw [h] at hcomplete
          cases hcomplete
        simp only [Link.results, List.mem_cons, hcreate.symm, hcompleted.symm, addData_ok hinputs,
          or_false, false_or] at hfails
        exact hfails.symm
      obtain ⟨e, P, hbuild, he, hmodules⟩ := Program.buildCuda_error
        { ((Program.new device false).setBinary (.linkState link)).2 with requests := 0 + 1 }
        l.options
      refine ⟨e, P, ?_, he, hmodules⟩
      rw [hload]
      dsimp only
      erw [hbuild]

/-! ## Runs -/

structure Inv (s : State) : Prop where
  programs : ∀ P ∈ s.programs, P.Inv s.freed
  links : ∀ destroyed ∈ s.links, destroyed = 1

variable {s' : State} {handle : Nat} {call : Call}

theorem Inv.right (h : Inv s) : Right s :=
  ⟨fun P hP => (h.programs P hP).right, h.links⟩

theorem Inv.append (h : Inv s) (hP : P.Inv s.freed) (links : List Nat)
    (hlinks : ∀ destroyed ∈ links, destroyed = 1) :
    Inv { s with programs := s.programs ++ [P], links := s.links ++ links } where
  programs := by
    intro P' hP'
    rcases List.mem_append.1 hP' with hold | hnew
    · exact h.programs P' hold
    · rw [List.mem_singleton.1 hnew]
      exact hP
  links := by
    intro destroyed hmem
    rcases List.mem_append.1 hmem with hold | hnew
    · exact h.links destroyed hold
    · exact hlinks destroyed hnew

theorem on_some {f : Program → Outcome × Program} (h : s.on handle f = some (r, s')) :
    ∃ P, s.programs[handle]? = some P ∧ P.deleted = false ∧ r = (f P).1 ∧
      s' = { s with programs := s.programs.set handle (f P).2 } := by
  unfold State.on at h
  split at h
  · rename_i P hP
    obtain ⟨hlive, heq⟩ := Option.ite_none_left_eq_some.1 h
    cases heq
    exact ⟨P, hP, Bool.eq_false_iff.2 hlive, rfl, rfl⟩
  · cases h

theorem Inv.set (h : Inv s) (hP : P.Inv s.freed) (handle : Nat) :
    Inv { s with programs := s.programs.set handle P } where
  programs := by
    intro P' hP'
    rcases List.mem_or_eq_of_mem_set hP' with hold | rfl
    · exact h.programs P' hold
    · exact hP
  links := h.links

theorem Inv.create (h : Inv s) {devices : List Nat} {numDevices device size buffer : Nat}
    {needFinalization : Bool} (hkept : s.freed buffer = false) :
    Inv (urProgramCreateWithBinary adapter s devices numDevices device size buffer
      needFinalization).2 := by
  unfold urProgramCreateWithBinary
  split
  · exact h
  · split
    · exact h
    · split
      · exact h
      · have hP : { ((Program.new device (adapter = Adapter.hip && needFinalization)).setBinary
            (.caller buffer)).2 with binaryType := .compiledObject }.Inv s.freed :=
          .of_live rfl (.inl ⟨rfl, rfl, rfl, nofun⟩) (.inr ⟨buffer, rfl, hkept⟩)
        simpa using h.append hP [] nofun

/-- A careful link returns no program. -/
theorem Inv.link (h : Inv s) {l : Link} (hcareful : (Call.link l).Careful adapter s) :
    Inv (urProgramLink adapter s l).2 ∧ (urProgramLink adapter s l).1 ≠ .ok .success := by
  unfold urProgramLink
  cases adapter with
  | hip => exact ⟨h, nofun⟩
  | cuda =>
    obtain ⟨hdestroy, -, hfails⟩ := hcareful rfl
    rw [if_neg (by decide)]
    dsimp only
    split
    · exact ⟨h, nofun⟩
    · cases hactive : checkErrorUR .cuda l.active with
      | error e => exact ⟨h, catchResult_ne (checkErrorUR_error hactive)⟩
      | ok u =>
        cases hcreate : checkErrorUR .cuda l.create with
        | error e => exact ⟨h, catchResult_ne (checkErrorUR_error hcreate)⟩
        | ok u =>
          have hcreated : l.create ≠ .error := by
            intro herror
            rw [herror] at hcreate
            cases hcreate
          obtain ⟨e, P, hlink, he, hmodules⟩ := l.link_error s.links.length
            ((l.inputs.filterMap fun input =>
              (s.programs[input.1]?).map Program.device).headD 0) hcreated hfails
          have hgone : { P with deleted := true }.Inv s.freed := by
            refine .of_deleted rfl ?_
            intro M hM
            rw [hmodules] at hM
            cases hM
          rw [hlink, hdestroy]
          refine ⟨h.append hgone _ ?_, catchResult_ne he⟩
          intro destroyed hmem
          exact List.mem_singleton.1 hmem

/-- **A careful call** keeps the invariant, and returns success only for what it has loaded. -/
theorem Inv.step (h : Inv s) (hcareful : call.Careful adapter s)
    (hstep : ProgramLife.step adapter s call = some (r, s')) :
    Inv s' ∧ CallRight s call r s' := by
  -- a build or a compile changes its own program only
  have hbuilt : ∀ {handle f} (hon : s.on handle f = some (r, s')),
      call.built s = some handle →
      (∀ P, s.programs[handle]? = some P → P.Inv s.freed → P.deleted = false →
        AfterBuild s.freed (f P)) →
      Inv s' ∧ CallRight s call r s' := by
    intro handle f hon hcall hafter
    obtain ⟨P, hP, hlive, rfl, rfl⟩ := on_some hon
    obtain ⟨hinv, hsuccess⟩ := hafter P hP (h.programs P (List.mem_of_getElem? hP)) hlive
    refine ⟨h.set hinv handle, ?_⟩
    intro handle' hhandle hr
    obtain rfl := Option.some.inj (hcall.symm.trans hhandle)
    refine ⟨(f P).2, ?_, (hsuccess hr).loaded⟩
    exact List.getElem?_set_self (List.getElem?_eq_some_iff.1 hP).1
  cases call with
  | create devices numDevices device size buffer needFinalization =>
    have hinv := @Inv.create adapter s h devices numDevices device size buffer needFinalization
      hcareful
    rw [Option.some.inj hstep] at hinv
    exact ⟨hinv, nofun⟩
  | build handle build =>
    refine hbuilt hstep rfl ?_
    intro P hP hPinv hlive
    exact urProgramBuild_built hPinv hlive (hcareful P hP)
  | compile handle build =>
    refine hbuilt hstep rfl ?_
    intro P hP hPinv hlive
    exact urProgramCompile_built hPinv hlive (hcareful P hP)
  | link l =>
    obtain ⟨hinv, hne⟩ := h.link hcareful
    rw [Option.some.inj hstep] at hinv hne
    refine ⟨hinv, ?_⟩
    intro handle _ hr
    exact absurd hr hne
  | retain handle =>
    obtain ⟨P, hP, -, rfl, rfl⟩ := on_some hstep
    exact ⟨h.set (urProgramRetain_inv (h.programs P (List.mem_of_getElem? hP))) handle, nofun⟩
  | release handle active unload =>
    obtain ⟨P, hP, hlive, rfl, rfl⟩ := on_some hstep
    have hPinv := h.programs P (List.mem_of_getElem? hP)
    exact ⟨h.set (urProgramRelease_inv hPinv hlive (hcareful P hP)) handle, nofun⟩
  | freeBuffer buffer =>
    cases Option.some.inj hstep
    refine ⟨⟨?_, h.links⟩, nofun⟩
    intro P hP
    refine ⟨?_, (h.programs P hP).deleted⟩
    intro hlive
    obtain ⟨hstate, hkept⟩ := (h.programs P hP).live hlive
    refine ⟨hstate, hkept.imp_right ?_⟩
    rintro ⟨buffer', hbinary, hfreed⟩
    refine ⟨buffer', hbinary, ?_⟩
    have hne : buffer' ≠ buffer := by
      rintro rfl
      exact hcareful P hP hlive hbinary
    exact (if_neg hne).trans hfreed

theorem Reached.inv (h : Reached adapter (Call.Careful adapter) s) : Inv s := by
  induction h with
  | init => exact ⟨nofun, nofun⟩
  | next _ hcareful hstep ih => exact (ih.step hcareful hstep).1

/-- **Careful runs**: what every program reports is so, its module is unloaded once, and a careful
call returns success only for what it has loaded. -/
theorem programs_right (h : Reached adapter (Call.Careful adapter) s) :
    Right s ∧ ∀ call r s', call.Careful adapter s → step adapter s call = some (r, s') →
      CallRight s call r s' := by
  refine ⟨h.inv.right, ?_⟩
  intro call r s' hcareful hstep
  exact (h.inv.step hcareful hstep).2

/-- A program of CUDA that is built once. -/
theorem programs_right_built : ∃ s, s.programs.map Program.buildStatus = [.success] ∧ Right s := by
  have hcreate := @Reached.next .cuda (Call.Careful .cuda) _ _ (.create [0] 1 0 8 0 false) _ .init
    rfl rfl
  have hbuild := @Reached.next .cuda (Call.Careful .cuda) _ _
    (.build 0 ⟨none, .success, .done, .success⟩) _ hcreate ?_ rfl
  · exact ⟨_, rfl, (programs_right hbuild).1⟩
  · intro P hP
    cases hP
    exact ⟨nofun, nofun, nofun⟩

/-- **What goes wrong**: a program of CUDA whose second build fails still reports success, and HIP
returns success for a relocatable program that cannot be linked. -/
theorem failed_rebuild :
    (∃ s, Reached .cuda (fun _ _ => True) s ∧ ¬ Right s) ∧
    ∃ s call r s', Reached .hip (fun _ _ => True) s ∧ step .hip s call = some (r, s') ∧
      ¬ CallRight s call r s' := by
  constructor
  · have hcreate := @Reached.next .cuda (fun _ _ => True) _ _ (.create [0] 1 0 8 0 false) _ .init
      trivial rfl
    have hbuild := @Reached.next .cuda (fun _ _ => True) _ _
      (.build 0 ⟨none, .success, .done, .success⟩) _ hcreate trivial rfl
    refine ⟨_, @Reached.next .cuda (fun _ _ => True) _ _
      (.build 0 ⟨none, .success, .done, .error⟩) _ hbuild trivial rfl, ?_⟩
    intro h
    obtain ⟨M, hM, -, hrequest⟩ := ((h.programs _ List.mem_cons_self).status rfl).1 rfl
    cases List.mem_singleton.1 hM
    cases hrequest
  · refine ⟨_, .build 0 ⟨none, .success, .failed, .success⟩, _, _, @Reached.next .hip
      (fun _ _ => True) _ _ (.create [0] 1 0 8 0 true) _ .init trivial rfl, rfl, ?_⟩
    intro h
    obtain ⟨P, hP, m, hmodule, -⟩ := h 0 rfl rfl
    cases hP
    cases hmodule

end UnifiedRuntime.ProgramLife
