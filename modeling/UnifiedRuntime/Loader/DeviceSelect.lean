import UnifiedRuntime.Loader.EnvMap
import UnifiedRuntime.Lib.Sweep

/-!
# `urDeviceGetSelected`

The device selector of `source/loader/ur_lib.cpp`, step by step: the terms of
`ONEAPI_DEVICE_SELECTOR` become accept and discard filters, the platform's
devices are listed at three depths, the discard filters empty the lists and the
accept filters then take what is left, in order.

The adapter below the loader is what the function calls on it: the root
handles of `urDeviceGet`, the type of `urDeviceGetInfo` and the sub-devices of
`urDevicePartition`. A partition that fails leaves the lambda of the `for_each`
with an error code nobody reads, so it is an empty partition here.
-/

namespace UnifiedRuntime.Loader

open Str

/-- `ur_device_type_t`. -/
inductive DeviceType where
  | default
  | all
  | gpu
  | cpu
  | fpga
  | mca
  | vpu
  | forceUint32
  deriving DecidableEq

/-- `ur_platform_backend_t`. -/
inductive PlatformBackend where
  | unknown
  | levelZero
  | opencl
  | cuda
  | hip
  | nativeCpu
  | forceUint32

/-- The results `urDeviceGetSelected` can return. -/
inductive UrResult where
  | success
  | invalidValue
  | invalidNullHandle
  | invalidNullPointer
  | invalidSize
  | invalidEnumeration
  | invalidPlatform
  | deviceNotFound
  | adapterSpecific
  deriving DecidableEq

abbrev DeviceHandle := Nat

/-- What the adapter answers about a platform. -/
structure Platform where
  roots : List DeviceHandle
  deviceType : DeviceHandle → DeviceType
  partition : DeviceHandle → List DeviceHandle

inductive DevicePartLevel where
  | root
  | sub
  | subSub
  deriving DecidableEq

/-- `ULONG_MAX`, the identifier that stands for every device. -/
def deviceIdTypeALL : Nat := 2 ^ 64 - 1

/-- A filter, or a device at its position in the tree. -/
structure DeviceSpec where
  level : DevicePartLevel
  hwType : DeviceType
  rootId : Nat
  subId : Nat
  subsubId : Nat
  urDeviceHandle : DeviceHandle
  deriving DecidableEq

/-- Why no list of devices comes back: a result code, or an exception of the
number conversions or of `getenv_to_map` that the caller in `ur_libapi.cpp`
turns into a result code. -/
inductive SelectFailure where
  | result (r : UrResult)
  | exception (e : StdException)
  | env (e : EnvError)

/-- The name the selector knows a backend by. -/
def platformBackendName : PlatformBackend → Str
  | .unknown => "*".toList
  | .levelZero => "level_zero".toList
  | .opencl => "opencl".toList
  | .cuda => "cuda".toList
  | .hip => "hip".toList
  | .nativeCpu => "*".toList
  | .forceUint32 => "".toList

/-! ## Reading the filters -/

def getRootHardwareType (input : Str) : DeviceType :=
  let lowerInput := tolower input
  if lowerInput = "cpu".toList then .cpu
  else if lowerInput = "gpu".toList then .gpu
  else if lowerInput = "fpga".toList then .fpga
  else .all

def getDeviceId (input : Str) : Except StdException Nat :=
  if input.all Char.isDigit then stoul input else .ok deviceIdTypeALL

/-- One round of the `filterString` loop. -/
def readFilterString (filterString : Str) : Except StdException DeviceSpec :=
  match find filterString '.' 0 with
  | some locationDot1 => do
    let firstPart := substr filterString 0 (some locationDot1)
    let hardwareType := getRootHardwareType firstPart
    let firstDeviceId ← getDeviceId firstPart
    let locationDot2 := find filterString '.' (locationDot1 + 1)
    -- the count runs from the first dot to the second, so the piece of a
    -- three-part filter ends in the second dot
    let secondPart := substr filterString (locationDot1 + 1)
      (locationDot2.map (· - locationDot1))
    let secondDeviceId ← getDeviceId secondPart
    match locationDot2 with
    | some locationDot2 =>
      let thirdPart := substr filterString (locationDot2 + 1) none
      let thirdDeviceId ← getDeviceId thirdPart
      pure ⟨.subSub, hardwareType, firstDeviceId, secondDeviceId, thirdDeviceId, 0⟩
    | none => pure ⟨.sub, hardwareType, firstDeviceId, secondDeviceId, 0, 0⟩
  | none => do
    let hardwareType := getRootHardwareType filterString
    let firstDeviceId ← getDeviceId filterString
    pure ⟨.root, hardwareType, firstDeviceId, 0, 0, 0⟩

/-- The `"*."` scan: every `"*."` must open a `"*.*"`. -/
def badWildcard : Str → Bool
  | '*' :: '.' :: s => if s.head? = some '*' then badWildcard s else true
  | _ :: s => badWildcard s
  | [] => false

/-- `acceptDeviceList` and `discardDeviceList`. -/
structure DeviceLists where
  accept : List DeviceSpec
  discard : List DeviceSpec

/-- Does the term's backend name this platform? -/
def backendMatches (platformName backend : Str) : Bool :=
  front backend == '*' || tolower platformName == tolower backend

/-- Split a key into its discard mark and its backend. -/
def termBackend (key : Str) : Bool × Str :=
  if front key == '!' then (true, key.tail) else (false, key)

/-- The checks a term passes before its filters are read; `none` is the
`continue` of a term that has an empty filter string. -/
def checkTerm (platformName : Str) (backend : Str) (filterStrings : List Str) :
    Except SelectFailure (Option (List Str)) :=
  if !backendMatches platformName backend then .error (.result .invalidValue)
  else if filterStrings.length = 0 then .error (.result .invalidValue)
  else if filterStrings.any List.isEmpty then .ok none
  else if filterStrings.any (fun s => 2 < s.count '.') then .error (.result .invalidValue)
  else if filterStrings.any badWildcard then .error (.result .invalidValue)
  else .ok (some filterStrings)

def DeviceLists.push (lists : DeviceLists) (discard : Bool) (spec : DeviceSpec) : DeviceLists :=
  if discard then { lists with discard := lists.discard ++ [spec] }
  else { lists with accept := lists.accept ++ [spec] }

/-- Push the filters of one term, in order. -/
def pushFilters (discard : Bool) (lists : DeviceLists) (filterString : Str) :
    Except SelectFailure DeviceLists :=
  match readFilterString filterString with
  | .ok spec => .ok (lists.push discard spec)
  | .error e => .error (.exception e)

/-- One round of the loop over `mapODS`. -/
def readTerm (platformName : Str) (lists : DeviceLists) (termPair : Str × List Str) :
    Except SelectFailure DeviceLists :=
  if termPair.1.isEmpty then .ok lists
  else do
    let (discard, backend) := termBackend termPair.1
    match ← checkTerm platformName backend termPair.2 with
    | none => pure lists
    | some filterStrings => filterStrings.foldlM (pushFilters discard) lists

/-- The loop over `mapODS`. -/
def readTerms (platformName : Str) (mapODS : EnvVarMap) : Except SelectFailure DeviceLists :=
  mapODS.entries.foldlM (readTerm platformName) ⟨[], []⟩

/-- `"*:*"`, the accept term of a selector that only discards. -/
def acceptAllRoots : DeviceSpec := ⟨.root, .all, deviceIdTypeALL, 0, 0, 0⟩

/-! ## Listing the devices -/

/-- Keep the devices of the requested type. -/
def keepDeviceType (deviceType : DeviceType) (device : DeviceSpec) : Bool :=
  deviceType == .all || deviceType == .default || deviceType == device.hwType

def rootDevices (p : Platform) (deviceType : DeviceType) : List DeviceSpec :=
  (p.roots.zipIdx.map fun (h, i) =>
    ⟨.root, p.deviceType h, i, deviceIdTypeALL, deviceIdTypeALL, h⟩).filter
      (keepDeviceType deviceType)

/-- Both `for_each` loops below: the partition of each device, counted from 0. -/
def partitionDevices (p : Platform) (spec : DeviceSpec → Nat → DeviceHandle → DeviceSpec)
    (devices : List DeviceSpec) : List DeviceSpec :=
  devices.flatMap fun device =>
    (p.partition device.urDeviceHandle).zipIdx.map fun (h, i) => spec device i h

def subDevices (p : Platform) : List DeviceSpec → List DeviceSpec :=
  partitionDevices p fun device i h =>
    ⟨.sub, device.hwType, device.rootId, i, deviceIdTypeALL, h⟩

def subSubDevices (p : Platform) : List DeviceSpec → List DeviceSpec :=
  partitionDevices p fun device i h =>
    ⟨.subSub, device.hwType, device.rootId, device.subId, i, h⟩

/-- The three vectors the filters work on. -/
structure DevicePools where
  rootDevices : List DeviceSpec
  subDevices : List DeviceSpec
  subSubDevices : List DeviceSpec

def devicePools (p : Platform) (deviceType : DeviceType) : DevicePools :=
  let roots := rootDevices p deviceType
  let subs := subDevices p roots
  ⟨roots, subs, subSubDevices p subs⟩

/-! ## Applying the filters -/

def applyFilter (filter device : DeviceSpec) : Bool :=
  if filter.rootId = deviceIdTypeALL then
    filter.hwType == device.hwType || filter.hwType == .all
  else if filter.rootId ≠ device.rootId then false
  else if filter.level = .root then true
  else if filter.subId = deviceIdTypeALL then true
  else if filter.subId ≠ device.subId then false
  else if filter.level = .sub then true
  else if filter.subsubId = deviceIdTypeALL then true
  else filter.subsubId == device.subsubId

/-- The vector a filter of this depth works on. -/
def DevicePools.at (pools : DevicePools) : DevicePartLevel → List DeviceSpec
  | .root => pools.rootDevices
  | .sub => pools.subDevices
  | .subSub => pools.subSubDevices

/-- `erase(remove_if(..), end)` on the vector of the filter's depth. -/
def DevicePools.removeIf (pools : DevicePools) (filter : DeviceSpec) : DevicePools :=
  match filter.level with
  | .root => { pools with
      rootDevices := pools.rootDevices.filter (!applyFilter filter ·) }
  | .sub => { pools with
      subDevices := pools.subDevices.filter (!applyFilter filter ·) }
  | .subSub => { pools with
      subSubDevices := pools.subSubDevices.filter (!applyFilter filter ·) }

/-- The discard loop. -/
def applyDiscards (discards : List DeviceSpec) (pools : DevicePools) : DevicePools :=
  discards.foldl DevicePools.removeIf pools

/-- The accept loop: what a filter removes it also selects. -/
def applyAccepts (accepts : List DeviceSpec) (pools : DevicePools) :
    DevicePools × List DeviceHandle :=
  accepts.foldl (fun (pools, selected) accept =>
    (pools.removeIf accept,
      selected ++ ((pools.at accept.level).filter (applyFilter accept)).map (·.urDeviceHandle)))
    (pools, [])

/-- The body of the function up to `selectedDevices`. `none` is the early
return of a variable in which no term was understood. -/
def selectedDevices (backend : PlatformBackend) (mapODS : EnvVarMap) (p : Platform)
    (deviceType : DeviceType) : Except SelectFailure (Option (List DeviceHandle)) := do
  let lists ← readTerms (platformBackendName backend) mapODS
  if lists.accept.isEmpty && lists.discard.isEmpty then pure none
  else
    let accepts := if lists.accept.isEmpty then [acceptAllRoots] else lists.accept
    pure (some (applyAccepts accepts
      (applyDiscards lists.discard (devicePools p deviceType))).2)

/-- An unset variable is `"*:*"`. -/
def defaultODS : EnvVarMap := .single "*".toList ["*".toList]

/-- The selection of `urDeviceGetSelected` when `ONEAPI_DEVICE_SELECTOR` is
`env`, on a platform of the given backend. -/
def urDeviceGetSelected (env : Option Str) (backend : PlatformBackend) (p : Platform)
    (deviceType : DeviceType) : Except SelectFailure (Option (List DeviceHandle)) :=
  match getenvToMap "ONEAPI_DEVICE_SELECTOR".toList env false with
  | .error e => .error (.env e)
  | .ok maybeEnvVarMap =>
    selectedDevices backend (maybeEnvVarMap.getD defaultODS) p deviceType

end UnifiedRuntime.Loader
