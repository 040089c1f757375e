import UnifiedRuntime.Lib.Assoc

/-!
# Programs of the Level Zero adapter

A program has a record for each device. A record that is asked for and not there is made with the
defaults, by the question after the state as well.
-/

namespace UnifiedRuntime.LevelZero

/-- `ze_device_handle_t`. -/
abbrev ZeDevice := Nat

/-- `ze_module_handle_t`. -/
abbrev ZeModule := Nat

/-- `ze_module_build_log_handle_t`. -/
abbrev ZeBuildLog := Nat

/-- `ur_program_handle_t_::state`. -/
inductive ProgramState where
  | IL
  | Native
  | Object
  | Exe
  | Invalid
deriving DecidableEq

/-- `ur_program_handle_t_::DeviceData`. The default state is the first. -/
structure DeviceData where
  zeBuildLog : Option ZeBuildLog := none
  zeModule : Option ZeModule := none
  binary : Option (List UInt8) := none
  buildFlags : String := ""
  state : ProgramState := .IL
deriving DecidableEq

/-- `ur_program_handle_t_`. -/
structure Program where
  associatedDevices : List ZeDevice
  deviceDataMap : List (ZeDevice × DeviceData) := []
  spirvCode : Option (List UInt8) := none
  interopZeModule : Option ZeModule := none
  ownZeModule : Bool := true
  resourcesReleased : Bool := false
  refCount : Nat := 1

namespace Program

/-- `DeviceDataMap.find(ZeDevice)`. -/
def find (p : Program) (d : ZeDevice) : Option DeviceData := p.deviceDataMap.lookup d

/-- `DeviceDataMap[ZeDevice]` is changed, or made only. -/
def modify (p : Program) (d : ZeDevice) (f : DeviceData → DeviceData) : Program :=
  { p with deviceDataMap := Assoc.modify ({} : DeviceData) f p.deviceDataMap d }

def getState (p : Program) (d : ZeDevice) : ProgramState × Program :=
  if (p.find d).isNone && p.interopZeModule.isSome then (.Exe, p)
  else (((p.find d).getD {}).state, p.modify d id)

def getZeModuleHandle (p : Program) (d : ZeDevice) : Option ZeModule :=
  match p.find d with
  | none => p.interopZeModule
  | some data => data.zeModule

/-- `getCode`, for a device. -/
def getCode (p : Program) (d : ZeDevice) : Option (List UInt8) :=
  match p.find d with
  | none => none
  | some data => if data.state = .IL then p.spirvCode else data.binary

/-- `getCodeSize`, for a device. -/
def getCodeSize (p : Program) (d : ZeDevice) : Nat := ((p.getCode d).getD []).length

def setState (p : Program) (d : ZeDevice) (state : ProgramState) : Program :=
  p.modify d fun data => { data with state := state }

def setZeModule (p : Program) (d : ZeDevice) (zeModule : Option ZeModule) : Program :=
  p.modify d fun data => { data with zeModule := zeModule }

def setBuildLog (p : Program) (d : ZeDevice) (zeBuildLog : Option ZeBuildLog) : Program :=
  p.modify d fun data => { data with zeBuildLog := zeBuildLog }

def setBuildOptions (p : Program) (d : ZeDevice) (options : String) : Program :=
  p.modify d fun data => { data with buildFlags := options }

def appendBuildOptions (p : Program) (d : ZeDevice) (options : String) : Program :=
  p.modify d fun data => { data with buildFlags := data.buildFlags ++ options }

variable {p : Program} {d d' : ZeDevice} {f : DeviceData → DeviceData}

@[simp] theorem find_modify : (p.modify d f).find d' =
    if d' = d then some (f ((p.find d).getD {})) else p.find d' :=
  Assoc.lookup_modify ({} : DeviceData) f p.deviceDataMap d d'

/-- **What a question after the state leaves**: every record, and maybe a new one. -/
theorem find_getState : (p.getState d).2.find d' =
    if d' = d ∧ p.interopZeModule = none then some ((p.find d).getD {}) else p.find d' := by
  unfold getState
  cases hfind : p.find d with
  | none =>
    cases hinterop : p.interopZeModule with
    | none => simp [hfind]
    | some m => simp
  | some data =>
    by_cases hd : d' = d
    · subst hd
      simp [hfind]
    · simp [hd]

/-- A record that is there stays as it is. -/
theorem getState_some {data : DeviceData} (h : p.find d = some data) :
    p.getState d = (data.state, p) := by
  have hmodify : p.modify d id = p := by
    unfold modify
    rw [Assoc.modify_eq_self h rfl]
  unfold getState
  rw [h, hmodify, Option.isNone_some, Bool.false_and, if_neg Bool.false_ne_true, Option.getD_some]

end Program

end UnifiedRuntime.LevelZero
