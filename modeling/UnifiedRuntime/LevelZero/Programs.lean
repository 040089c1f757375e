import UnifiedRuntime.LevelZero.Program

/-!
# Building, compiling and linking programs

The programs of a context and what the driver has given out for them. What the driver does with a
module is an answer that comes with the call, one for each device. The driver keeps a record of
its modules and build logs: what a module was created from, how often it was destroyed, and whether
a log was destroyed after its module.
-/

namespace UnifiedRuntime.LevelZero.Programs

inductive ProgramResult where
  | success
  | invalidOperation
  | invalidProgram
  | invalidValue
  | invalidDevice
  | buildFailure
  | linkFailure
  | driver (code : Nat)

/-- The errors of `ze_result_t`. -/
inductive ZeFailure where
  | moduleBuildFailure
  | moduleLinkFailure
  | other (code : Nat)
deriving DecidableEq

def ze2urResult : ZeFailure → ProgramResult
  | .moduleBuildFailure => .buildFailure
  | .moduleLinkFailure => .linkFailure
  | .other code => .driver code

/-! ## The driver -/

/-- The code and the flags of one input of a module. -/
abbrev Input := Option (List UInt8) × String

/-- A module, maybe of a creation that failed; one that was handed in has the ownership it came
with. -/
structure Module where
  device : ZeDevice
  inputs : List Input
  failed : Bool := false
  destroyed : Nat := 0
  handedIn : Option Bool := none

/-- A build log of a module, if one was created. -/
structure BuildLog where
  owner : Option ZeModule
  destroyed : Nat := 0
  late : Bool := false

/-- What becomes of one device: the error of `zeModuleCreate`, whether it sets the module in spite
of an error, whether it gives a log, the error of `checkUnresolvedSymbols`, and whether
`zeModuleDynamicLink` gives a log there. -/
structure Answer where
  create : Option ZeFailure := none
  setsModule : Bool := false
  givesLog : Bool := true
  symbols : Option ZeFailure := none
  linkLog : Bool := false

structure Driver where
  modules : List Module
  logs : List BuildLog

namespace Driver

def addLog (driver : Driver) (owner : Option ZeModule) (gives : Bool) :
    Driver × Option ZeBuildLog :=
  if gives then ({ driver with logs := driver.logs ++ [{ owner := owner }] },
    some driver.logs.length)
  else (driver, none)

/-- `zeModuleCreate`. -/
def create (driver : Driver) (d : ZeDevice) (inputs : List Input) (a : Answer) :
    Driver × Option ZeModule × Option ZeBuildLog :=
  if a.create.isNone || a.setsModule then
    let added := Driver.addLog
      { driver with modules := driver.modules ++
          [{ device := d, inputs := inputs, failed := a.create.isSome }] }
      (some driver.modules.length) a.givesLog
    (added.1, some driver.modules.length, added.2)
  else
    let added := driver.addLog none a.givesLog
    (added.1, none, added.2)

/-- `checkUnresolvedSymbols`: a log of the link is put where the other is. -/
def checkUnresolvedSymbols (driver : Driver) (m : ZeModule) (log : Option ZeBuildLog) (a : Answer) :
    Driver × Option ZeBuildLog :=
  if a.linkLog then driver.addLog (some m) true else (driver, log)

/-- `zeModuleDestroy`. -/
def destroyModule (driver : Driver) (m : ZeModule) : Driver :=
  { driver with
    modules := driver.modules.modify m fun info => { info with destroyed := info.destroyed + 1 } }

def isDestroyed (driver : Driver) (m : ZeModule) : Bool :=
  driver.modules[m]?.any (·.destroyed != 0)

/-- `zeModuleBuildLogDestroy`. -/
def destroyLog (driver : Driver) (log : ZeBuildLog) : Driver :=
  { driver with
    logs := driver.logs.modify log fun info => { info with
      destroyed := info.destroyed + 1
      late := info.late || info.owner.any driver.isDestroyed } }

/-- Nothing happens for a null handle. -/
def destroyModule? (driver : Driver) : Option ZeModule → Driver
  | none => driver
  | some m => driver.destroyModule m

def destroyLog? (driver : Driver) : Option ZeBuildLog → Driver
  | none => driver
  | some log => driver.destroyLog log

end Driver

/-! ## `urProgramBuildExp` -/

/-- The module of one device, and what the result is set to. -/
def buildModule (options : String) (d : ZeDevice) (code : List UInt8) (a : Answer) (p : Program)
    (driver : Driver) : Option ProgramResult × Program × Driver :=
  match driver.create d [(some code, options)] a, a.create with
  | (driver', m, log), some e =>
    (some (ze2urResult e), (p.setState d .Invalid).setBuildLog d log, driver'.destroyModule? m)
  | (driver', m, log), none =>
    match driver'.checkUnresolvedSymbols (m.getD 0) log a, a.symbols with
    | (driver'', log'), some e =>
      (some (if e = .moduleLinkFailure then .buildFailure else ze2urResult e),
        ((p.setState d .Invalid).setZeModule d none).setBuildLog d log', driver''.destroyModule? m)
    | (driver'', log'), none =>
      (none, ((p.setState d .Exe).setZeModule d m).setBuildLog d log', driver'')

/-- One device: the end of the loop, or what the result is set to. -/
def buildDevice (options : String) (d : ZeDevice) (a : Answer) (p : Program) (driver : Driver) :
    Except ProgramResult (Option ProgramResult) × Program × Driver :=
  match (p.getState d).1 with
  | .Exe => (.ok none, (p.getState d).2, driver)
  | .Object | .Invalid => (.error .invalidOperation, (p.getState d).2, driver)
  | .IL | .Native =>
    match (p.getState d).2.getCode d with
    | none => (.error .invalidProgram, (p.getState d).2, driver)
    | some code =>
      match buildModule options d code a (p.getState d).2 driver with
      | (failed, p', driver') => (.ok failed, p', driver')

def buildDevices (options : String) : List (ZeDevice × Answer) → ProgramResult → Program →
    Driver → ProgramResult × Program × Driver
  | [], result, p, driver => (result, p, driver)
  | (d, a) :: rest, result, p, driver =>
    match buildDevice options d a p driver with
    | (.error result', p', driver') => (result', p', driver')
    | (.ok failed, p', driver') => buildDevices options rest (failed.getD result) p' driver'

def relaxedOption : String := " -ze-opt-greater-than-4GB-buffer-required"

/-- The options of a build. -/
def buildOptions (relaxed : Bool) (options : Option String) : String :=
  options.getD "" ++ if relaxed then relaxedOption else ""

def urProgramBuildExp (relaxed : Bool) (devices : List (ZeDevice × Answer))
    (options : Option String) (p : Program) (driver : Driver) : ProgramResult × Program × Driver :=
  buildDevices (buildOptions relaxed options) devices .success p driver

/-! ## `urProgramCompileExp` -/

/-- The options of a device that is compiled. -/
def compileOptions (relaxed : Bool) (options : Option String) (d : ZeDevice) (p : Program) :
    Program :=
  match options with
  | none => p
  | some options =>
    if relaxed then (p.setBuildOptions d options).appendBuildOptions d relaxedOption
    else p.setBuildOptions d options

def urProgramCompileExp (relaxed : Bool) (options : Option String) : List ZeDevice → Program →
    ProgramResult × Program
  | [], p => (.success, p)
  | d :: devices, p =>
    if (p.getState d).1 ≠ .IL then (.invalidOperation, (p.getState d).2)
    else urProgramCompileExp relaxed options devices
      ((compileOptions relaxed options d ((p.getState d).2.setState d .Object)).setState d .Object)

/-! ## `urProgramLinkExp` -/

/-- The states of one input: whether all are as they should be. -/
def objectStates : List ZeDevice → Program → Bool × Program
  | [], p => (true, p)
  | d :: devices, p =>
    if (p.getState d).1 ≠ .Object then (false, (p.getState d).2)
    else objectStates devices (p.getState d).2

/-- The states of the inputs, up to the first that is not as it should be. -/
def checkInputs (devices : List ZeDevice) : List Nat → List Program → Bool × List Program
  | [], programs => (true, programs)
  | i :: inputs, programs =>
    match programs[i]? with
    | none => (false, programs)
    | some p =>
      let programs' := programs.set i (objectStates devices p).2
      if (objectStates devices p).1 then checkInputs devices inputs programs'
      else (false, programs')

/-- What is linked for a device: the code of each input, with its flags. -/
def linkInputs (programs : List Program) (inputs : List Nat) (d : ZeDevice) : List Input :=
  inputs.map fun i =>
    ((programs[i]?).bind (·.spirvCode), (((programs[i]?).bind (·.find d)).getD {}).buildFlags)

/-- One device of the new program: an end of the loop, or the result so far. -/
def linkDevice (inputs : ZeDevice → List Input) (d : ZeDevice) (a : Answer) (p : Program)
    (driver : Driver) : Except ProgramResult ProgramResult × Program × Driver :=
  match driver.create d (inputs d) a, a.create with
  | (driver', m, log), some e =>
    if e ≠ .moduleBuildFailure then (.error (ze2urResult e), p, driver')
    else (.ok (ze2urResult e),
      ((p.setZeModule d m).setBuildLog d log).setState d .Invalid, driver')
  | (driver', m, log), none =>
    match driver'.checkUnresolvedSymbols (m.getD 0) log a, a.symbols with
    | (driver'', _), some e => (.error (ze2urResult e), p, driver'')
    | (driver'', log'), none =>
      (.ok .success, ((p.setZeModule d m).setBuildLog d log').setState d .Exe, driver'')

def linkDevices (inputs : ZeDevice → List Input) : List (ZeDevice × Answer) → ProgramResult →
    Program → Driver → ProgramResult × Program × Driver
  | [], result, p, driver => (result, p, driver)
  | (d, a) :: rest, _, p, driver =>
    match linkDevice inputs d a p driver with
    | (.error result', p', driver') => (result', p', driver')
    | (.ok result', p', driver') => linkDevices inputs rest result' p' driver'

/-! ## The calls -/

/-- The programs of a context. -/
structure World where
  devices : List ZeDevice
  /-- The sub-devices of `devices` are valid as well. -/
  isValidDevice : ZeDevice → Bool
  relaxed : Bool
  programs : List Program
  driver : Driver

inductive Call where
  | createWithIL (code : List UInt8)
  | createWithBinary (binaries : List (ZeDevice × List UInt8))
  | createWithNativeHandle (owned : Bool)
  | build (program : Nat) (devices : List (ZeDevice × Answer)) (options : Option String)
  | compile (program : Nat) (devices : List ZeDevice) (options : Option String)
  | link (devices : List (ZeDevice × Answer)) (programs : List Nat) (options : String)
      (extension : Bool)
  /-- Other calls ask for the state of a device. -/
  | getState (program : Nat) (device : ZeDevice)
  | retain (program : Nat)
  | release (program : Nat)

/-- `ur_program_handle_t_` in IL and in Invalid state. -/
def newProgram (devices : List ZeDevice) (state : ProgramState) (code : Option (List UInt8)) :
    Program :=
  devices.foldl (fun p d => p.setState d state)
    { associatedDevices := devices, spirvCode := code }

/-- `ur_program_handle_t_` in Native state. -/
def newNative (binaries : List (ZeDevice × List UInt8)) : Program :=
  binaries.foldl (fun p b => p.modify b.1 fun data =>
      { data with state := .Native, binary := some b.2 })
    { associatedDevices := binaries.map (·.1) }

/-- `ur_release_program_resources`: the logs first. -/
def releaseResources (p : Program) (driver : Driver) : Program × Driver :=
  if p.resourcesReleased then (p, driver)
  else
    let driver := p.deviceDataMap.foldl (fun driver e => driver.destroyLog? e.2.zeBuildLog) driver
    let driver := if p.ownZeModule then driver.destroyModule? p.interopZeModule else driver
    let driver := p.deviceDataMap.foldl (fun driver e => driver.destroyModule? e.2.zeModule) driver
    ({ p with deviceDataMap := [], resourcesReleased := true }, driver)

namespace World

/-- A program and the driver after a call. -/
def put (w : World) (i : Nat) (p : Program) (driver : Driver) : World :=
  { w with programs := w.programs.set i p, driver := driver }

def link (w : World) (devices : List (ZeDevice × Answer)) (inputs : List Nat) (options : String)
    (extension : Bool) : ProgramResult × World :=
  if ¬ ∀ e ∈ devices, w.isValidDevice e.1 = true then (.invalidDevice, w)
  else if options ≠ "" then
    (.linkFailure, { w with programs := w.programs ++ [newProgram w.devices .Invalid none] })
  else
    match checkInputs (devices.map (·.1)) inputs w.programs with
    | (false, programs) => (.invalidOperation, { w with programs := programs })
    | (true, programs) =>
      if ¬ extension ∧ inputs.length ≠ 1 then (.invalidValue, { w with programs := programs })
      else
        match linkDevices (linkInputs programs inputs) devices .success
          { associatedDevices := w.devices } w.driver with
        | (result, p, driver) =>
          (result, { w with programs := programs ++ [p], driver := driver })

/-- A call, with its result. -/
def call (w : World) : Call → ProgramResult × World
  | .createWithIL code =>
    (.success, { w with programs := w.programs ++ [newProgram w.devices .IL (some code)] })
  | .createWithBinary binaries =>
    if ¬ ∀ b ∈ binaries, w.isValidDevice b.1 = true then (.invalidDevice, w)
    else (.success, { w with programs := w.programs ++ [newNative binaries] })
  | .createWithNativeHandle owned =>
    (.success, { w with
      programs := w.programs ++ [{
        associatedDevices := w.devices.take 1
        interopZeModule := some w.driver.modules.length
        ownZeModule := owned }]
      driver := { w.driver with
        modules := w.driver.modules ++ [{
          device := w.devices.headD 0, inputs := [], handedIn := some owned }] } })
  | .build i devices options =>
    match w.programs[i]? with
    | none => (.invalidProgram, w)
    | some p =>
      match urProgramBuildExp w.relaxed devices options p w.driver with
      | (result, p', driver') => (result, w.put i p' driver')
  | .compile i devices options =>
    match w.programs[i]? with
    | none => (.invalidProgram, w)
    | some p =>
      match urProgramCompileExp w.relaxed options devices p with
      | (result, p') => (result, w.put i p' w.driver)
  | .link devices inputs options extension => w.link devices inputs options extension
  | .getState i d =>
    match w.programs[i]? with
    | none => (.invalidProgram, w)
    | some p => (.success, w.put i (p.getState d).2 w.driver)
  | .retain i =>
    (.success, { w with programs := w.programs.modify i fun p =>
      { p with refCount := p.refCount + 1 } })
  | .release i =>
    match w.programs[i]? with
    | none => (.invalidProgram, w)
    | some p =>
      if p.refCount = 1 then
        match releaseResources { p with refCount := 0 } w.driver with
        | (p', driver') => (.success, w.put i p' driver')
      else (.success, w.put i { p with refCount := p.refCount - 1 } w.driver)

end World

end UnifiedRuntime.LevelZero.Programs
