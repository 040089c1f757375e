import UnifiedRuntime.Loader.DeviceSelect

/-!
# What a selector says

The documented meaning of `ONEAPI_DEVICE_SELECTOR`, written without looking at
how `urDeviceGetSelected` computes it: a filter string is one to three parts
around dots, a part is `*`, a decimal index or a hardware type, and a filter
selects the devices at its depth that match it part by part.

`selectedDevices` agrees with this reading on some filters and not on others,
and `Faithful` says on which. The second part of a three-part filter is cut with
the dot that follows it and so never reads as a number: `0.1.2` is taken for
`0.*.*`. A hardware type in the first part decides the match alone, whatever
stands below it, and a hardware type in a lower part is taken for `*`. The
largest `unsigned long` is the code's own mark for "every device".
-/

namespace UnifiedRuntime.Loader

open Str

/-- The hardware types a selector can name. -/
inductive HardwareName where
  | cpu
  | gpu
  | fpga
  deriving DecidableEq

def HardwareName.deviceType : HardwareName → DeviceType
  | .cpu => .cpu
  | .gpu => .gpu
  | .fpga => .fpga

/-- One part of a filter. -/
inductive Part where
  | star
  | index (n : Nat)
  | hardware (t : HardwareName)
  deriving DecidableEq

/-- A filter, by depth. -/
inductive Filter where
  | root (r : Part)
  | sub (r s : Part)
  | subSub (r s t : Part)

def Part.read (s : Str) : Option Part :=
  if s = ['*'] then some .star
  else if s ≠ [] ∧ s.all Char.isDigit then some (.index (decimal s))
  else if tolower s = "cpu".toList then some (.hardware .cpu)
  else if tolower s = "gpu".toList then some (.hardware .gpu)
  else if tolower s = "fpga".toList then some (.hardware .fpga)
  else none

def Filter.read (s : Str) : Option Filter :=
  match s.splitOn '.' with
  | [a] => (Part.read a).map .root
  | [a, b] => (Part.read a).bind fun r => (Part.read b).map (.sub r)
  | [a, b, c] => (Part.read a).bind fun r => (Part.read b).bind fun s =>
      (Part.read c).map (.subSub r s)
  | _ => none

/-- A part matches a position of the device, or the device's hardware type. -/
def Part.matches (hwType : DeviceType) (pos : Nat) : Part → Bool
  | .star => true
  | .index n => n == pos
  | .hardware t => t.deviceType == hwType

def Filter.level : Filter → DevicePartLevel
  | .root _ => .root
  | .sub _ _ => .sub
  | .subSub _ _ _ => .subSub

def Filter.matches (d : DeviceSpec) : Filter → Bool
  | .root r => d.level == .root && r.matches d.hwType d.rootId
  | .sub r s => d.level == .sub && r.matches d.hwType d.rootId && s.matches d.hwType d.subId
  | .subSub r s t => d.level == .subSub && r.matches d.hwType d.rootId &&
      s.matches d.hwType d.subId && t.matches d.hwType d.subsubId

/-- All devices of the platform that have the requested type, by depth. -/
def DevicePools.all (pools : DevicePools) : List DeviceSpec :=
  pools.rootDevices ++ pools.subDevices ++ pools.subSubDevices

/-- The filters of the accept or of the discard terms, in the map's order. -/
def EnvVarMap.filters (m : EnvVarMap) (discard : Bool) : List Filter :=
  m.entries.flatMap fun e =>
    if (termBackend e.1).1 = discard then e.2.filterMap Filter.read else []

/-- The accept filters; a selector that only discards accepts every root. -/
def EnvVarMap.accepts (m : EnvVarMap) : List Filter :=
  if m.filters false = [] then [.root .star] else m.filters false

/-- **The documented selection**: the matches of each accept filter that no
discard filter matches, one filter after the other, each device once. -/
def documentedSelection (m : EnvVarMap) (p : Platform) (deviceType : DeviceType) :
    List DeviceHandle :=
  ((m.accepts.flatMap fun f =>
    (devicePools p deviceType).all.filter fun d =>
      f.matches d && !(m.filters true).any (·.matches d)).eraseDups).map (·.urDeviceHandle)

/-- A part that is no number, or a number below the code's mark for "all". -/
def Part.Small : Part → Prop
  | .index n => n < deviceIdTypeALL
  | _ => True

/-- A part below a hardware type that adds nothing to it. -/
def Part.Under (t : HardwareName) : Part → Prop
  | .star => True
  | .index _ => False
  | .hardware t' => t' = t

/-- The filters the code reads as documented. -/
def Filter.Faithful : Filter → Prop
  | .root r => r.Small
  | .sub .star s => s = .star
  | .sub (.index n) s => n < deviceIdTypeALL ∧ s.Small ∧ ∀ t, s ≠ .hardware t
  | .sub (.hardware t) s => s.Under t
  | .subSub .star s t => s = .star ∧ t = .star
  | .subSub (.index n) s t => n < deviceIdTypeALL ∧ s = .star ∧ t = .star
  | .subSub (.hardware h) s t => s.Under h ∧ t.Under h

/-- A star above something that is no star: the `"*."` check refuses it. -/
def Part.BadBelow : Part → Part → Prop
  | .star, s => s ≠ .star
  | _, _ => False

/-- A number that `stoul` cannot represent. -/
def Part.Overflows : Part → Prop
  | .index n => 2 ^ 64 ≤ n
  | _ => False

/-- The filters for which the code returns an error and no list. The second
part of a three-part filter is never converted, so it cannot overflow. -/
def Filter.Rejected : Filter → Prop
  | .root r => r.Overflows
  | .sub r s => r.BadBelow s ∨ r.Overflows ∨ s.Overflows
  | .subSub r s t => r.BadBelow s ∨ s.BadBelow t ∨ r.Overflows ∨ t.Overflows

/-- Every filter string of the map. -/
def EnvVarMap.filterStrings (m : EnvVarMap) : List Str := m.entries.flatMap (·.2)

/-- A selector whose every term is for this backend and has filters. -/
structure EnvVarMap.Names (backend : PlatformBackend) (m : EnvVarMap) : Prop where
  nonempty : m.entries ≠ []
  key : ∀ e ∈ m.entries, e.1 ≠ []
  backend : ∀ e ∈ m.entries,
    backendMatches (platformBackendName backend) (termBackend e.1).2 = true
  filters : ∀ e ∈ m.entries, e.2 ≠ []
  grammar : ∀ s ∈ m.filterStrings, (Filter.read s).isSome

/-- The handles of a platform, at all three depths. -/
def Platform.handles (p : Platform) : List DeviceHandle :=
  p.roots ++ p.roots.flatMap p.partition ++ (p.roots.flatMap p.partition).flatMap p.partition

/-- A device tree: no handle stands at two places. -/
def Platform.Tree (p : Platform) : Prop := p.handles.Nodup

/-- Every list the selector produces is the documented one, without repeats. -/
def SelectsAsDocumented (backend : PlatformBackend) (m : EnvVarMap) : Prop :=
  ∀ (p : Platform) (deviceType : DeviceType) (l : List DeviceHandle), p.Tree →
    selectedDevices backend m p deviceType = .ok (some l) →
      l = documentedSelection m p deviceType ∧ l.Nodup

end UnifiedRuntime.Loader
