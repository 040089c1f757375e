import UnifiedRuntime.Lib.Str

/-!
# `parseDisjointPoolConfig`

The configuration string of the USM pools (`source/common/umf_pools`), read as
`EnableBuffers;MaxPoolSize;limits;limits…`. A piece that is empty or starts with a digit is
`EnableBuffers` the first time and `MaxPoolSize` the second; every other piece is a list of up
to three limits behind an optional memory type.

`MemParser` declares `bool ParamWasSet` without a value, and `ParamParser` leaves it alone
where nothing stands before a comma. What the flag then holds is an argument here, for each
list of limits: a value, or nothing at all, and then reading it is a fault. An index beyond the
string and an exception of `std::stoi` are the other faults.
-/

namespace UnifiedRuntime.Pools

open Str

inductive PoolFault where
  | outOfRange
  | exception (e : StdException)
  | unsetFlag

/-- `DisjointPoolMemType`; `All` is `none` of these. -/
inductive MemType where
  | host
  | device
  | shared
  | sharedReadOnly
deriving DecidableEq

/-- The settings that a list of limits can name, in its order. -/
inductive Limit where
  | maxPoolableSize
  | capacity
  | slabMinSize
deriving DecidableEq

/-- `umf_disjoint_pool_config_t`, but for the pointer to the shared limits. -/
structure PoolConfig where
  slabMinSize : Nat
  maxPoolableSize : Nat
  capacity : Nat
  minBucketSize : Nat
  poolTrace : Int
  name : String

def PoolConfig.get (c : PoolConfig) : Limit → Nat
  | .maxPoolableSize => c.maxPoolableSize
  | .capacity => c.capacity
  | .slabMinSize => c.slabMinSize

def PoolConfig.set (c : PoolConfig) (n : Nat) : Limit → PoolConfig
  | .maxPoolableSize => { c with maxPoolableSize := n }
  | .capacity => { c with capacity := n }
  | .slabMinSize => { c with slabMinSize := n }

abbrev Configs := MemType → PoolConfig

def Configs.set (cs : Configs) (t : MemType) (n : Nat) (l : Limit) : Configs :=
  fun t' => if t' = t then (cs t').set n l else cs t'

/-- The loop `for (auto &Config : AllConfigs.Configs)`. -/
def Configs.setAll (cs : Configs) (n : Nat) (l : Limit) : Configs := fun t => (cs t).set n l

def kb : Nat := 1024
def mb : Nat := 1024 * 1024
def gb : Nat := 1024 * 1024 * 1024

/-- The constructor of `DisjointPoolAllConfigs`. -/
def defaultConfigs (trace : Int) : Configs
  | .host => ⟨64 * kb, 2 * mb, 4, 64, trace, "Host"⟩
  | .device => ⟨64 * kb, 4 * mb, 4, 512, trace, "Device"⟩
  | .shared => ⟨2 * mb, 0, 0, 512, trace, "Shared"⟩
  | .sharedReadOnly => ⟨2 * mb, 4 * mb, 4, 512, trace, "SharedReadOnly"⟩

/-- `(std::numeric_limits<size_t>::max)()`. -/
def sizeMax : Nat := 2 ^ 64 - 1

/-- What is returned: `limits` is the size that the shared limits are created with. -/
structure AllConfigs where
  enableBuffers : Nat
  limits : Nat
  configs : Configs

/-! ## `GetValue` -/

/-- `std::stoi` on decimal digits, `int` having 32 bits. -/
def stoi (s : Str) : Except StdException Nat :=
  if s.isEmpty then .error .invalidArgument
  else if decimal s < 2 ^ 31 then .ok (decimal s)
  else .error .outOfRange

/-- `Param[Length - 1]`: for length zero the index wraps around. -/
def charBefore (param : Str) (length : Nat) : Except PoolFault Char :=
  if length = 0 then .error .outOfRange
  else
    match param[length - 1]? with
    | some c => .ok c
    | none => .error .outOfRange

/-- One of the three tests for a suffix. -/
def stripSuffix (param : Str) (suffix : Char) (unit : Nat) (r : Nat × Nat) :
    Except PoolFault (Nat × Nat) := do
  let c ← charBefore param r.1
  pure (if c.toLower = suffix then (r.1 - 1, unit) else r)

/-- `GetValue`: the setting that the first `length` characters make of `setting`. -/
def getValue (param : Str) (length : Nat) (setting : Nat) : Except PoolFault Nat := do
  let r ← stripSuffix param 'k' kb (length, 1)
  let r ← stripSuffix param 'm' mb r
  let r ← stripSuffix param 'g' gb r
  let theNumber := substr param 0 (some r.1)
  if theNumber.all Char.isDigit then
    match stoi theNumber with
    | .ok n => pure (n * r.2 % 2 ^ 64)
    | .error e => .error (.exception e)
  else pure setting

/-! ## Limits -/

structure ParamResult where
  params : Str
  setting : Nat
  paramWasSet : Option Bool
  more : Bool

/-- `ParamParser`; a flag that is not set is `none`. -/
def paramParser (params : Str) (setting : Nat) (paramWasSet : Option Bool) :
    Except PoolFault ParamResult :=
  if params.length = 0 then .ok ⟨params, setting, some false, false⟩
  else
    match find params ',' 0 with
    | some pos =>
      if 0 < pos then do
        let setting ← getValue params pos setting
        pure ⟨params.drop (pos + 1), setting, some true, true⟩
      else .ok ⟨params.drop (pos + 1), setting, paramWasSet, true⟩
    | none => do
      let setting ← getValue params params.length setting
      pure ⟨params, setting, some true, false⟩

/-- Read the flag, whose storage holds `unset` before it is set. -/
def readFlag (unset paramWasSet : Option Bool) : Except PoolFault Bool :=
  match paramWasSet.or unset with
  | some b => .ok b
  | none => .error .unsetFlag

structure MemState where
  params : Str
  configs : Configs
  paramWasSet : Option Bool
  more : Bool

/-- One of the three blocks of `MemParser`. -/
def memBlock (unset : Option Bool) (memType : Option MemType) (l : Limit) (s : MemState) :
    Except PoolFault MemState := do
  let lm := memType.getD .host
  let r ← paramParser s.params ((s.configs lm).get l) s.paramWasSet
  let configs := s.configs.set lm r.setting l
  let wasSet ← readFlag unset r.paramWasSet
  let configs := if wasSet && memType.isNone then configs.setAll ((configs lm).get l) l else configs
  pure ⟨r.params, configs, r.paramWasSet, r.more⟩

/-- `if (More)`: the second and the third block. -/
def nextBlock (unset : Option Bool) (memType : Option MemType) (l : Limit) (s : MemState) :
    Except PoolFault MemState :=
  if s.more then memBlock unset memType l s else .ok s

/-- `MemParser`. -/
def memParser (unset : Option Bool) (configs : Configs) (params : Str) (memType : Option MemType) :
    Except PoolFault Configs := do
  let s ← memBlock unset memType .maxPoolableSize ⟨params, configs, none, true⟩
  let s ← nextBlock unset memType .capacity s
  let s ← nextBlock unset memType .slabMinSize s
  pure s.configs

/-- The memory type a list of limits starts with, and what follows it. -/
def memTypeOf (params : Str) : Option MemType × Str :=
  if "host:".toList.isPrefixOf params then (some .host, params.drop 5)
  else if "device:".toList.isPrefixOf params then (some .device, params.drop 7)
  else if "shared:".toList.isPrefixOf params then (some .shared, params.drop 7)
  else if "read_only_shared:".toList.isPrefixOf params then
    (some .sharedReadOnly, params.drop 17)
  else (none, params)

/-- `MemTypeParser`. -/
def memTypeParser (unset : Option Bool) (configs : Configs) (params : Str) :
    Except PoolFault Configs :=
  memParser unset configs (memTypeOf params).2 (memTypeOf params).1

/-! ## The main loop -/

theorem find_lt {s : Str} {c : Char} {start pos : Nat} (h : find s c start = some pos) :
    start ≤ pos ∧ pos < s.length := by
  obtain ⟨i, hi, rfl⟩ := Option.map_eq_some_iff.mp h
  obtain ⟨hlt, -⟩ := List.findIdx?_eq_some_iff_getElem.mp hi
  rw [List.length_drop] at hlt
  omega

/-- The pieces `Param` that the loop cuts out, from `start` on. -/
def paramsFrom (config : Str) (start : Nat) : List Str :=
  match h : find config ';' start with
  | none => [substr config start none]
  | some stop => substr config start (some (stop - start)) :: paramsFrom config (stop + 1)
termination_by config.length - start
decreasing_by
  have hlt := find_lt h
  omega

structure ParseState where
  configs : Configs
  enableBuffers : Nat
  maxSize : Nat
  enableBuffersSet : Bool
  maxSizeSet : Bool
  /-- how many lists of limits have been read -/
  limits : Nat

/-- `Param == "" || isdigit(Param[0])`. -/
def isNumber (param : Str) : Bool := param.isEmpty || (front param).isDigit

/-- A number that may be left out. -/
def getNumber (param : Str) (setting : Nat) : Except PoolFault Nat :=
  if param.isEmpty then .ok setting else getValue param param.length setting

/-- One round of the loop. -/
def parseParam (unset : Nat → Option Bool) (s : ParseState) (param : Str) :
    Except PoolFault ParseState :=
  if !s.enableBuffersSet && isNumber param then do
    let n ← getNumber param s.enableBuffers
    pure { s with enableBuffers := n, enableBuffersSet := true }
  else if !s.maxSizeSet && isNumber param then do
    let n ← getNumber param s.maxSize
    pure { s with maxSize := n, maxSizeSet := true }
  else do
    let configs ← memTypeParser (unset s.limits) s.configs param
    pure { s with configs := configs, limits := s.limits + 1 }

/-- `parseDisjointPoolConfig`, the unset flags holding `unset`. -/
def parseDisjointPoolConfig (unset : Nat → Option Bool) (config : Str) (trace : Int) :
    Except PoolFault AllConfigs := do
  let s ← (paramsFrom config 0).foldlM (parseParam unset)
    ⟨defaultConfigs trace, 1, sizeMax, false, false, 0⟩
  pure ⟨s.enableBuffers, s.maxSize, s.configs⟩

end UnifiedRuntime.Pools
