import UnifiedRuntime.Lib.Except
import UnifiedRuntime.Loader.DeviceSelect
import UnifiedRuntime.Loader.EnvScan

/-!
# The call `urDeviceGetSelected`

`DeviceSelect` has what the function selects. Here is the function around it, with its
argument checks, its early returns and its two outputs, and the entry point of
`ur_libapi.cpp` that turns an exception into a result code.

A call fetches handles or counts them. The count is written by a call that asks for no
handles; a call that asks for handles and also gives `pNumDevices` ends in
`UR_RESULT_ERROR_ADAPTER_SPECIFIC`, with everything written. A variable in which no term
was understood ends in a success that writes nothing.

- `entry_eq`: a call is its argument checks and then what the environment and the adapter
  say, which is the same for all calls for one device type.
- `getSelected_protocol`: exactly when a call keeps the protocol.
-/

namespace UnifiedRuntime.Loader

open Str

/-! ## The function -/

/-- What the adapter answers: the backend to `urPlatformGetInfo` and the devices to
`urDeviceGet`; `none` where the query fails. -/
structure Answers where
  backend : Option PlatformBackend
  devices : Option Platform

/-- The arguments; of a handle or a pointer, whether it is given. -/
structure SelectCall where
  hPlatform : Bool
  deviceType : DeviceType
  numEntries : Nat
  fits : numEntries < 2 ^ 32
  phDevices : Bool
  pNumDevices : Bool

/-- `ur_result_t`, of the function or of the handler around it. -/
inductive ResultCode where
  | of (r : UrResult)
  | unknown
  deriving DecidableEq

/-- What a call returns and what it writes: the number at `pNumDevices`, if it writes one,
and the handles at the start of `phDevices`. -/
structure SelectReturn where
  result : ResultCode
  pNumDevices : Option Nat
  phDevices : List DeviceHandle
  deriving DecidableEq

/-- A return that writes nothing. -/
def SelectReturn.code (r : ResultCode) : SelectReturn := ⟨r, none, []⟩

/-- The basic validation of the argument values. -/
def checkArguments (c : SelectCall) : Option UrResult :=
  if !c.hPlatform then some .invalidNullHandle
  else if 0 < c.numEntries && !c.phDevices then some .invalidNullPointer
  else if c.numEntries = 0 && !c.pNumDevices then some .invalidSize
  else
    match c.deviceType with
    | .all | .gpu | .default | .cpu | .fpga | .mca => none
    | .vpu | .forceUint32 => some .invalidEnumeration

/-- The end of the function: the size of the vector or its content. -/
def returnSelected (c : SelectCall) (selectedDevices : List DeviceHandle) : SelectReturn :=
  if c.numEntries = 0 then ⟨.of .success, some (selectedDevices.length % 2 ^ 32), []⟩
  else
    let numToCopy := min c.numEntries selectedDevices.length
    let copied := selectedDevices.take numToCopy
    if c.pNumDevices then ⟨.of .adapterSpecific, some (numToCopy % 2 ^ 32), copied⟩
    else ⟨.of .success, none, copied⟩

/-- `ur_lib::urDeviceGetSelected`, when `ONEAPI_DEVICE_SELECTOR` is `env`. -/
def libDeviceGetSelected (env : Option Str) (a : Answers) (c : SelectCall) :
    Except SelectFailure SelectReturn :=
  match checkArguments c with
  | some r => .error (.result r)
  | none =>
    match getenvToMap "ONEAPI_DEVICE_SELECTOR".toList env false with
    | .error e => .error (.env e)
    | .ok maybeEnvVarMap =>
      match a.backend with
      | none => .error (.result .invalidPlatform)
      | some backend =>
        match readTerms (platformBackendName backend) (maybeEnvVarMap.getD defaultODS) with
        | .error e => .error e
        | .ok lists =>
          -- nothing in env var was understood as a valid term
          if lists.accept.isEmpty && lists.discard.isEmpty then .ok (.code (.of .success))
          else
            match a.devices with
            | none => .error (.result .deviceNotFound)
            | some p =>
              let accepts := if lists.accept.isEmpty then [acceptAllRoots] else lists.accept
              .ok (returnSelected c (applyAccepts accepts
                (applyDiscards lists.discard (devicePools p c.deviceType))).2)

/-- `exceptionToResult`, or the result that was returned. Taking a character off an empty
string is no exception, and nothing is known of the call: `none`. -/
def SelectFailure.toReturn : SelectFailure → Option SelectReturn
  | .result r => some (.code (.of r))
  | .exception _ => some (.code .unknown)
  | .env (.invalidArgument _) => some (.code .unknown)
  | .env .popBackEmpty => none

/-- The entry point in `ur_libapi.cpp`. -/
def entryDeviceGetSelected (env : Option Str) (a : Answers) (c : SelectCall) :
    Option SelectReturn :=
  match libDeviceGetSelected env a c with
  | .ok r => some r
  | .error e => e.toReturn

/-! ## What the environment and the adapter say -/

/-- What comes of the environment and the adapter, before the outputs are looked at. -/
inductive Situation where
  | failed (e : SelectFailure)
  | ignored
  | selected (l : List DeviceHandle)

/-- The situation of every call for one device type. -/
def situation (env : Option Str) (a : Answers) (dt : DeviceType) : Situation :=
  match getenvToMap "ONEAPI_DEVICE_SELECTOR".toList env false with
  | .error e => .failed (.env e)
  | .ok maybeEnvVarMap =>
    match a.backend with
    | none => .failed (.result .invalidPlatform)
    | some backend =>
      match readTerms (platformBackendName backend) (maybeEnvVarMap.getD defaultODS) with
      | .error e => .failed e
      | .ok lists =>
        if lists.accept.isEmpty && lists.discard.isEmpty then .ignored
        else
          match a.devices with
          | none => .failed (.result .deviceNotFound)
          | some p =>
            let accepts := if lists.accept.isEmpty then [acceptAllRoots] else lists.accept
            .selected (applyAccepts accepts
              (applyDiscards lists.discard (devicePools p dt))).2

/-- What a call makes of its situation. -/
def Situation.answer (c : SelectCall) : Situation → Option SelectReturn
  | .failed e => e.toReturn
  | .ignored => some (.code (.of .success))
  | .selected l => some (returnSelected c l)

/-- The selected devices; none where there is no selection. -/
def Situation.devices : Situation → List DeviceHandle
  | .selected l => l
  | _ => []

variable {env : Option Str} {a : Answers} {c : SelectCall} {dt : DeviceType}

/-- **A call is its checks and then its situation.** -/
theorem entry_eq (env : Option Str) (a : Answers) (c : SelectCall) :
    entryDeviceGetSelected env a c =
      match checkArguments c with
      | some r => some (.code (.of r))
      | none => (situation env a c.deviceType).answer c := by
  unfold entryDeviceGetSelected libDeviceGetSelected situation
  cases checkArguments c with
  | some r => rfl
  | none =>
    cases getenvToMap "ONEAPI_DEVICE_SELECTOR".toList env false with
    | error e => rfl
    | ok m =>
      cases a.backend with
      | none => rfl
      | some b =>
        dsimp only
        cases readTerms (platformBackendName b) (m.getD defaultODS) with
        | error e => rfl
        | ok lists =>
          dsimp only
          cases lists.accept.isEmpty && lists.discard.isEmpty with
          | true => rfl
          | false =>
            cases a.devices with
            | none => rfl
            | some p => rfl

/-! ## When no term is understood -/

/-- The loop over the terms passes this one by: its backend is the platform's and one of its
filter strings is empty. (A term without a key is passed by too, but no variable has one.) -/
def Skipped (backend : PlatformBackend) (termPair : Str × List Str) : Prop :=
  termPair.1 = [] ∨
    backendMatches (platformBackendName backend) (termBackend termPair.1).2 = true ∧
      [] ∈ termPair.2

/-- The variable has only terms that are passed by, or none. -/
def NoTerm (env : Option Str) (backend : PlatformBackend) : Prop :=
  ∃ m, getenvToMap "ONEAPI_DEVICE_SELECTOR".toList env false = .ok m ∧
    ∀ e ∈ (m.getD defaultODS).entries, Skipped backend e

def DeviceLists.size (lists : DeviceLists) : Nat := lists.accept.length + lists.discard.length

theorem push_size (lists : DeviceLists) (discard : Bool) (spec : DeviceSpec) :
    (lists.push discard spec).size = lists.size + 1 := by
  unfold DeviceLists.size
  cases discard with
  | true =>
    show lists.accept.length + (lists.discard ++ [spec]).length = _
    rw [List.length_append, List.length_singleton]
    omega
  | false =>
    show (lists.accept ++ [spec]).length + lists.discard.length = _
    rw [List.length_append, List.length_singleton]
    omega

/-- Every filter string of a term is one more filter. -/
theorem pushFilters_size {discard : Bool} {lists lists' : DeviceLists} {s : Str}
    (h : pushFilters discard lists s = .ok lists') : lists.size < lists'.size := by
  unfold pushFilters at h
  split at h
  next spec _ =>
    obtain rfl := Except.ok.inj h
    rw [push_size]
    omega
  next => cases h

/-- A term that is read either is passed by or adds a filter. -/
theorem readTerm_size {backend : PlatformBackend} {lists lists' : DeviceLists}
    {e : Str × List Str} (h : readTerm (platformBackendName backend) lists e = .ok lists') :
    (Skipped backend e ∧ lists'.size = lists.size) ∨
      (¬ Skipped backend e ∧ lists.size < lists'.size) := by
  unfold readTerm at h
  split at h
  next hkey =>
    obtain rfl := Except.ok.inj h
    exact Or.inl ⟨Or.inl (List.isEmpty_iff.mp hkey), rfl⟩
  next hkey =>
    rw [List.isEmpty_iff] at hkey
    obtain ⟨r, hr, hrest⟩ := except_bind_ok h
    unfold checkTerm at hr
    split at hr
    next => cases hr
    next hb =>
      rw [Bool.not_eq_true, Bool.not_eq_false'] at hb
      split at hr
      next => cases hr
      next hlen =>
        split at hr
        next hempty =>
          obtain rfl := Except.ok.inj hr
          obtain rfl := Except.ok.inj hrest
          obtain ⟨s, hs, hnil⟩ := List.any_eq_true.mp hempty
          obtain rfl := List.isEmpty_iff.mp hnil
          exact Or.inl ⟨Or.inr ⟨hb, hs⟩, rfl⟩
        next hfull =>
          have hskip : ¬ Skipped backend e := by
            rintro (hk | ⟨-, hnil⟩)
            · exact hkey hk
            · exact hfull (List.any_eq_true.mpr ⟨[], hnil, rfl⟩)
          split at hr
          next => cases hr
          next =>
            split at hr
            next => cases hr
            next =>
              obtain rfl := Except.ok.inj hr
              refine Or.inr ⟨hskip, ?_⟩
              -- the first filter string already makes the lists longer
              obtain ⟨hle, hiff⟩ := @foldlM_size _ _ _ (pushFilters (termBackend e.1).1)
                DeviceLists.size (fun _ => False)
                (fun _ _ _ hp => Or.inr ⟨id, pushFilters_size hp⟩) _ _ _ hrest
              have hne : lists'.size ≠ lists.size := by
                rw [Ne, hiff]
                intro hall
                exact hlen (by
                  cases hcase : e.2 with
                  | nil => rfl
                  | cons s rest => exact (hall s (by rw [hcase]; exact List.mem_cons_self)).elim)
              omega

variable {e : SelectFailure} {lists : DeviceLists}

theorem readTerm_skip {backend : PlatformBackend} {e : Str × List Str}
    (h : Skipped backend e) : readTerm (platformBackendName backend) lists e = .ok lists := by
  unfold readTerm
  split
  next => rfl
  next hkey =>
    rw [List.isEmpty_iff] at hkey
    obtain ⟨hb, hnil⟩ := h.resolve_left hkey
    have hcheck : checkTerm (platformBackendName backend) (termBackend e.1).2 e.2 = .ok none := by
      unfold checkTerm
      rw [hb, if_neg (by simp), if_neg (List.length_pos_of_mem hnil).ne',
        if_pos (List.any_eq_true.mpr ⟨[], hnil, rfl⟩)]
    dsimp only
    rw [hcheck]
    rfl

/-- The loop leaves both lists empty exactly if it passes every term by. -/
theorem readTerms_empty {backend : PlatformBackend} {m : EnvVarMap}
    (h : readTerms (platformBackendName backend) m = .ok lists) :
    (lists.accept.isEmpty && lists.discard.isEmpty) = true ↔
      ∀ e ∈ m.entries, Skipped backend e := by
  obtain ⟨-, hiff⟩ := @foldlM_size _ _ _ (readTerm (platformBackendName backend))
    DeviceLists.size (Skipped backend) (fun _ _ _ hr => readTerm_size hr) _ _ _ h
  rw [← hiff, Bool.and_eq_true, List.isEmpty_iff, List.isEmpty_iff]
  show _ ↔ lists.accept.length + lists.discard.length = 0
  rw [Nat.add_eq_zero_iff, List.length_eq_zero_iff, List.length_eq_zero_iff]

/-! ## Failures -/

/-- A failure that the entry point reports by an error code, with nothing written. -/
def SelectFailure.Coded (e : SelectFailure) : Prop :=
  ∃ r, e.toReturn = some (.code r) ∧ r ≠ .of .success

theorem coded_invalidValue : (SelectFailure.result .invalidValue).Coded :=
  ⟨_, rfl, by decide⟩

theorem pushFilters_coded {discard : Bool} {s : Str}
    (h : pushFilters discard lists s = .error e) : e.Coded := by
  unfold pushFilters at h
  split at h
  next => cases h
  next err _ =>
    obtain rfl := Except.error.inj h
    exact ⟨.unknown, rfl, by decide⟩

theorem checkTerm_coded {name backend : Str} {strs : List Str}
    (h : checkTerm name backend strs = .error e) : e.Coded := by
  unfold checkTerm at h
  split at h
  next => exact Except.error.inj h ▸ coded_invalidValue
  next =>
    split at h
    next => exact Except.error.inj h ▸ coded_invalidValue
    next =>
      split at h
      next => cases h
      next =>
        split at h
        next => exact Except.error.inj h ▸ coded_invalidValue
        next =>
          split at h
          next => exact Except.error.inj h ▸ coded_invalidValue
          next => cases h

theorem readTerm_coded {name : Str} {t : Str × List Str}
    (h : readTerm name lists t = .error e) : e.Coded := by
  unfold readTerm at h
  split at h
  next => cases h
  next =>
    rcases except_bind_error h with hcheck | ⟨r, -, hrest⟩
    · exact checkTerm_coded hcheck
    · cases r with
      | none => cases hrest
      | some strs => exact foldlM_error_of (fun _ _ _ hp => pushFilters_coded hp) hrest

/-- Whatever is wrong with a term is reported by a code. -/
theorem readTerms_coded {name : Str} {m : EnvVarMap} (h : readTerms name m = .error e) : e.Coded :=
  foldlM_error_of (fun _ _ _ hr => readTerm_coded hr) h

/-- The first entry of the variable that is not fine is a quote character on its own. -/
def LoneQuote (env : Option Str) : Prop :=
  ∃ s, env = some s ∧ firstProblem (mapChecks false [] (getlines ';' s)) = .loneQuote

/-- The one text on which `pop_back` meets an empty string. -/
theorem getenvToMap_loneQuote {name : Str} :
    getenvToMap name env false = .error .popBackEmpty ↔ LoneQuote env := by
  constructor
  · intro h
    cases env with
    | none => cases h
    | some s =>
      refine ⟨s, rfl, ?_⟩
      obtain ⟨hfine, hbad, -⟩ := @getenvToMap_scan name s false
      cases hp : firstProblem (mapChecks false [] (getlines ';' s)) with
      | fine =>
        obtain ⟨m, hm, -⟩ := hfine hp
        rw [hm] at h
        cases h
      | malformed =>
        rw [hbad hp] at h
        exact absurd (Except.error.inj h).symm (throwWrongFormatMap_ne name s)
      | loneQuote => rfl
  · rintro ⟨s, rfl, h⟩
    exact (@getenvToMap_scan name s false).2.2 h

/-! ## The situations -/

/-- **A failure has a code, except for a lone quote.** -/
theorem situation_failed (h : situation env a dt = .failed e) :
    e.Coded ∨ (e = .env .popBackEmpty ∧ LoneQuote env) := by
  unfold situation at h
  cases hm : getenvToMap "ONEAPI_DEVICE_SELECTOR".toList env false with
  | error err =>
    rw [hm] at h
    obtain rfl := Situation.failed.inj h
    cases err with
    | invalidArgument what => exact Or.inl ⟨.unknown, rfl, by decide⟩
    | popBackEmpty => exact Or.inr ⟨rfl, getenvToMap_loneQuote.mp hm⟩
  | ok m =>
    rw [hm] at h
    dsimp only at h
    refine Or.inl ?_
    split at h
    next =>
      obtain rfl := Situation.failed.inj h
      exact ⟨_, rfl, by decide⟩
    next b _ =>
      split at h
      next err hread =>
        obtain rfl := Situation.failed.inj h
        exact readTerms_coded hread
      next lists _ =>
        split at h
        next => cases h
        next =>
          split at h
          next =>
            obtain rfl := Situation.failed.inj h
            exact ⟨_, rfl, by decide⟩
          next => cases h

theorem situation_loneQuote (h : LoneQuote env) :
    situation env a dt = .failed (.env .popBackEmpty) := by
  unfold situation
  rw [getenvToMap_loneQuote.mpr h]

/-- **Nothing is selected and nothing fails exactly if there is no term to understand.** -/
theorem situation_ignored : situation env a dt = .ignored ↔
    ∃ b, a.backend = some b ∧ NoTerm env b := by
  unfold situation NoTerm
  cases getenvToMap "ONEAPI_DEVICE_SELECTOR".toList env false with
  | error err =>
    refine ⟨fun h => ?_, fun ⟨_, _, _, hm, _⟩ => ?_⟩
    · cases h
    · cases hm
  | ok m =>
    cases hb : a.backend with
    | none =>
      refine ⟨fun h => ?_, fun ⟨_, hb, _⟩ => ?_⟩
      · cases h
      · cases hb
    | some b =>
      dsimp only
      have hskip : (∃ b', some b = some b' ∧ ∃ m', (Except.ok m : Except EnvError _) = .ok m' ∧
          ∀ e ∈ (m'.getD defaultODS).entries, Skipped b' e) ↔
          ∀ e ∈ (m.getD defaultODS).entries, Skipped b e := by
        constructor
        · rintro ⟨b', hb', m', hm', h⟩
          obtain rfl := Option.some.inj hb'
          obtain rfl := Except.ok.inj hm'
          exact h
        · intro h
          exact ⟨b, rfl, m, rfl, h⟩
      rw [hskip]
      cases hread : readTerms (platformBackendName b) (m.getD defaultODS) with
      | error err =>
        refine ⟨fun h => ?_, fun h => ?_⟩
        · cases h
        · rw [readTerms, foldlM_skip fun e he => readTerm_skip (h e he)] at hread
          cases hread
      | ok lists =>
        rw [← readTerms_empty hread]
        dsimp only
        cases lists.accept.isEmpty && lists.discard.isEmpty with
        | true => exact ⟨fun _ => rfl, fun _ => rfl⟩
        | false =>
          refine ⟨fun h => ?_, fun h => ?_⟩
          · rw [if_neg (by simp)] at h
            split at h
            next => cases h
            next => cases h
          · cases h

/-! ## The protocol -/

/-- The devices that calls for this device type select. -/
def selection (env : Option Str) (a : Answers) (dt : DeviceType) : List DeviceHandle :=
  (situation env a dt).devices

/-- The count query that goes with a call. -/
def SelectCall.countQuery (c : SelectCall) : SelectCall :=
  { c with numEntries := 0, fits := by omega, phDevices := false, pNumDevices := true }

/-- The call fetches as many entries as its count query reports. -/
def SelectCall.FetchesAll (c : SelectCall) (env : Option Str) (a : Answers) : Prop :=
  c.phDevices = true ∧ 0 < c.numEntries ∧
    ∃ q, entryDeviceGetSelected env a c.countQuery = some q ∧ q.result = .of .success ∧
      q.pNumDevices = some c.numEntries

/-- A call returns a code; after a success the outputs it was given hold the selection; and
the fetch after a count query succeeds with all of it. -/
def KeepsProtocol (env : Option Str) (a : Answers) (c : SelectCall) : Prop :=
  ∃ r, entryDeviceGetSelected env a c = some r ∧
    (r.result = .of .success →
      (c.pNumDevices = true → r.pNumDevices = some (selection env a c.deviceType).length) ∧
      (c.phDevices = true →
        r.phDevices = (selection env a c.deviceType).take c.numEntries)) ∧
    (c.FetchesAll env a →
      r.result = .of .success ∧ r.phDevices = selection env a c.deviceType)

/-- When a call whose arguments are valid keeps the protocol. -/
structure Sound (env : Option Str) (a : Answers) (c : SelectCall) : Prop where
  quote : ¬ LoneQuote env
  term : ∀ b, a.backend = some b → NoTerm env b → c.pNumDevices = false
  /-- the count query: the number fits -/
  count : c.numEntries = 0 → (selection env a c.deviceType).length < 2 ^ 32
  /-- the fetch of what the count query reports: the number fits, and is not asked for again -/
  fetch : 0 < c.numEntries → c.numEntries = (selection env a c.deviceType).length % 2 ^ 32 →
    (selection env a c.deviceType).length < 2 ^ 32 ∧ c.pNumDevices = false

theorem checkArguments_eq_none : checkArguments c = none ↔
    c.hPlatform = true ∧ (0 < c.numEntries → c.phDevices = true) ∧
      (c.numEntries = 0 → c.pNumDevices = true) ∧
      c.deviceType ≠ .vpu ∧ c.deviceType ≠ .forceUint32 := by
  unfold checkArguments
  split
  next h => simp_all
  next hp =>
    split
    next h => simp_all
    next hd =>
      split
      next h => simp_all
      next hn =>
        split <;> simp_all

theorem checkArguments_ne_success : checkArguments c ≠ some .success := by
  unfold checkArguments
  split
  next => simp
  next =>
    split
    next => simp
    next =>
      split
      next => simp
      next => split <;> simp

theorem countQuery_valid (h : checkArguments c = none) : checkArguments c.countQuery = none := by
  rw [checkArguments_eq_none] at h ⊢
  obtain ⟨hp, -, -, ht⟩ := h
  exact ⟨hp, fun h => absurd h (Nat.lt_irrefl 0), fun _ => rfl, ht⟩

/-- A valid count query fails with the situation, or reports the number modulo 2^32. -/
theorem fetchesAll_iff (h : checkArguments c = none) : c.FetchesAll env a ↔
    c.phDevices = true ∧ 0 < c.numEntries ∧ ∃ l, situation env a c.deviceType = .selected l ∧
      c.numEntries = l.length % 2 ^ 32 := by
  unfold SelectCall.FetchesAll
  rw [entry_eq, countQuery_valid h]
  refine and_congr_right fun _ => and_congr_right fun _ => ?_
  show (∃ q, (situation env a c.deviceType).answer c.countQuery = some q ∧ _) ↔ _
  constructor
  · rintro ⟨q, hq, hsuccess, hnum⟩
    cases hs : situation env a c.deviceType with
    | failed e =>
      rw [hs] at hq
      rcases situation_failed hs with ⟨r, hr, hne⟩ | ⟨rfl, -⟩
      · obtain rfl := Option.some.inj (hr.symm.trans hq)
        exact absurd hsuccess hne
      · cases hq
    | ignored =>
      rw [hs] at hq
      obtain rfl := Option.some.inj hq
      cases hnum
    | selected l =>
      rw [hs] at hq
      obtain rfl := Option.some.inj hq
      exact ⟨l, rfl, (Option.some.inj hnum).symm⟩
  · rintro ⟨l, hl, hn⟩
    rw [hl, hn]
    exact ⟨_, rfl, rfl, rfl⟩

/-- Calls with an invalid argument get its code. -/
theorem keepsProtocol_invalid {r : UrResult} (h : checkArguments c = some r) :
    KeepsProtocol env a c := by
  refine ⟨.code (.of r), ?_, ?_, ?_⟩
  · rw [entry_eq, h]
  · intro hs
    obtain rfl := ResultCode.of.inj hs
    exact absurd h checkArguments_ne_success
  · rintro ⟨hd, hn, q, hq, hs, -⟩
    rw [entry_eq] at hq
    cases hc : checkArguments c.countQuery with
    | some r' =>
      rw [hc] at hq
      obtain rfl := Option.some.inj hq
      obtain rfl := ResultCode.of.inj hs
      exact absurd hc checkArguments_ne_success
    | none =>
      rw [checkArguments_eq_none] at hc
      obtain ⟨hp, -, -, ht⟩ := hc
      have hnone : checkArguments c = none :=
        checkArguments_eq_none.mpr ⟨hp, fun _ => hd, fun h0 => by omega, ht⟩
      rw [hnone] at h
      cases h

theorem not_loneQuote {s : Situation} (hs : situation env a dt = s)
    (h : s ≠ .failed (.env .popBackEmpty)) : ¬ LoneQuote env :=
  fun hl => h (hs.symm.trans (situation_loneQuote hl))

/-- Without a selection there is nothing to count and nothing to fetch. -/
theorem sound_empty (hsel : selection env a c.deviceType = []) (hquote : ¬ LoneQuote env)
    (hterm : ∀ b, a.backend = some b → NoTerm env b → c.pNumDevices = false) : Sound env a c := by
  refine ⟨hquote, hterm, fun _ => ?_, fun h0 hn => ?_⟩
  · rw [hsel]
    exact Nat.two_pow_pos 32
  · rw [hsel] at hn
    exact absurd hn h0.ne'

/-- A selector that cannot be read: the failure is all that the call reports. -/
theorem keepsProtocol_failed (h : checkArguments c = none)
    (hs : situation env a c.deviceType = .failed e) :
    KeepsProtocol env a c ↔ Sound env a c := by
  have hentry : entryDeviceGetSelected env a c = e.toReturn := by
    rw [entry_eq, h, hs]
    rfl
  have hsel : selection env a c.deviceType = [] := congrArg Situation.devices hs
  rcases situation_failed hs with ⟨r, hr, hne⟩ | ⟨rfl, hl⟩
  · refine ⟨fun _ => sound_empty hsel (not_loneQuote hs ?_) ?_, fun _ => ⟨.code r, ?_, ?_, ?_⟩⟩
    · intro he
      obtain rfl := Situation.failed.inj he
      cases hr
    · intro b hb hno
      have hig : situation env a c.deviceType = .ignored := situation_ignored.mpr ⟨b, hb, hno⟩
      rw [hs] at hig
      cases hig
    · rw [hentry, hr]
    · exact fun hsucc => absurd hsucc hne
    · rw [fetchesAll_iff h]
      rintro ⟨-, -, l, hl, -⟩
      rw [hs] at hl
      cases hl
  · refine ⟨?_, fun hsound => absurd hl hsound.quote⟩
    rintro ⟨r, hr, -⟩
    rw [hentry] at hr
    cases hr

theorem keepsProtocol_ignored (h : checkArguments c = none)
    (hs : situation env a c.deviceType = .ignored) : KeepsProtocol env a c ↔ Sound env a c := by
  have hentry : entryDeviceGetSelected env a c = some (.code (.of .success)) := by
    rw [entry_eq, h, hs]
    rfl
  have hsel : selection env a c.deviceType = [] := congrArg Situation.devices hs
  constructor
  · rintro ⟨r, hr, hout, -⟩
    obtain rfl := Option.some.inj (hentry.symm.trans hr)
    refine sound_empty hsel (not_loneQuote hs (by simp)) fun _ _ _ => ?_
    -- the early return leaves the number unwritten
    by_contra hn
    rw [Bool.not_eq_false] at hn
    cases (hout rfl).1 hn
  · intro hsound
    obtain ⟨b, hb, hno⟩ := situation_ignored.mp hs
    refine ⟨_, hentry, fun _ => ⟨fun hn => ?_, fun _ => ?_⟩, ?_⟩
    · rw [hsound.term b hb hno] at hn
      cases hn
    · rw [hsel, List.take_nil]
      rfl
    · rw [fetchesAll_iff h]
      rintro ⟨-, -, l, hl, -⟩
      rw [hs] at hl
      cases hl

/-- Devices are selected. The cases are those of the two outputs, each of which may be null. -/
theorem keepsProtocol_selected (h : checkArguments c = none) {l : List DeviceHandle}
    (hs : situation env a c.deviceType = .selected l) :
    KeepsProtocol env a c ↔ Sound env a c := by
  have hentry : entryDeviceGetSelected env a c = some (returnSelected c l) := by
    rw [entry_eq, h, hs]
    rfl
  have hsel : selection env a c.deviceType = l := congrArg Situation.devices hs
  obtain ⟨-, hdev, hnum, -⟩ := checkArguments_eq_none.mp h
  have hquote : ¬ LoneQuote env := not_loneQuote hs (by simp)
  have hterm : ∀ b, a.backend = some b → NoTerm env b → c.pNumDevices = false := by
    intro b hb hno
    have hig : situation env a c.deviceType = .ignored := situation_ignored.mpr ⟨b, hb, hno⟩
    rw [hs] at hig
    cases hig
  have hfetch : c.FetchesAll env a ↔
      c.phDevices = true ∧ 0 < c.numEntries ∧ c.numEntries = l.length % 2 ^ 32 := by
    rw [fetchesAll_iff h]
    refine and_congr_right fun _ => and_congr_right fun _ => ⟨?_, fun hn => ⟨l, hs, hn⟩⟩
    rintro ⟨l', hl', hn⟩
    obtain rfl := Situation.selected.inj (hs.symm.trans hl')
    exact hn
  by_cases h0 : c.numEntries = 0
  · have hret : returnSelected c l = ⟨.of .success, some (l.length % 2 ^ 32), []⟩ := if_pos h0
    constructor
    · rintro ⟨r, hr, hout, -⟩
      obtain rfl := Option.some.inj (hentry.symm.trans hr)
      rw [hret, hsel] at hout
      have hlen := Option.some.inj ((hout rfl).1 (hnum h0))
      refine ⟨hquote, hterm, fun _ => ?_, fun hpos => absurd hpos (by omega)⟩
      rw [hsel, ← hlen]
      exact Nat.mod_lt _ (Nat.two_pow_pos 32)
    · intro hsound
      have hlen := hsound.count h0
      rw [hsel] at hlen
      refine ⟨_, hentry, ?_, ?_⟩
      · rw [hret, hsel, h0]
        refine fun _ => ⟨fun _ => ?_, fun _ => rfl⟩
        show some (l.length % 2 ^ 32) = some l.length
        rw [Nat.mod_eq_of_lt hlen]
      · rintro ⟨-, hpos, -⟩
        omega
  · have hpos : 0 < c.numEntries := Nat.pos_of_ne_zero h0
    have htake : l.take (min c.numEntries l.length) = l.take c.numEntries := by
      rw [← List.take_take, List.take_length]
    cases hp : c.pNumDevices with
    | true =>
      have hret : returnSelected c l = ⟨.of .adapterSpecific,
          some (min c.numEntries l.length % 2 ^ 32), l.take (min c.numEntries l.length)⟩ := by
        unfold returnSelected
        rw [if_neg h0]
        rw [if_pos hp]
      constructor
      · rintro ⟨r, hr, -, hall⟩
        obtain rfl := Option.some.inj (hentry.symm.trans hr)
        refine ⟨hquote, hterm, fun h => absurd h h0, fun _ hn => ?_⟩
        rw [hsel] at hn
        have hsucc := (hall (hfetch.mpr ⟨hdev hpos, hpos, hn⟩)).1
        rw [hret] at hsucc
        cases hsucc
      · intro hsound
        refine ⟨_, hentry, ?_, ?_⟩
        · rw [hret]
          intro hsucc
          cases hsucc
        · rw [hfetch]
          rintro ⟨-, -, hn⟩
          rw [← hsel] at hn
          have hnone := (hsound.fetch hpos hn).2
          rw [hp] at hnone
          cases hnone
    | false =>
      have hret : returnSelected c l =
          ⟨.of .success, none, l.take (min c.numEntries l.length)⟩ := by
        unfold returnSelected
        rw [if_neg h0]
        rw [if_neg (by rw [hp]; simp)]
      constructor
      · rintro ⟨r, hr, -, hall⟩
        obtain rfl := Option.some.inj (hentry.symm.trans hr)
        refine ⟨hquote, hterm, fun h => absurd h h0, fun _ hn => ⟨?_, hp⟩⟩
        rw [hsel] at hn ⊢
        have hfull := (hall (hfetch.mpr ⟨hdev hpos, hpos, hn⟩)).2
        rw [hret, hsel] at hfull
        -- the fetch wrote `numEntries` handles and the selection has no more
        have hlen := congrArg List.length hfull
        rw [List.length_take] at hlen
        omega
      · intro hsound
        refine ⟨_, hentry, ?_, ?_⟩
        · rw [hret, hsel, hp, htake]
          refine fun _ => ⟨fun hn => ?_, fun _ => rfl⟩
          cases hn
        · rw [hfetch, hret, hsel, htake]
          rintro ⟨-, -, hn⟩
          refine ⟨rfl, ?_⟩
          rw [← hsel] at hn
          have hlen := (hsound.fetch hpos hn).1
          rw [Nat.mod_eq_of_lt hlen, hsel] at hn
          rw [hn]
          exact List.take_length

/-- **Exactly when a call keeps the protocol**: it is one with invalid arguments, or the first
entry that is not fine is no lone quote, no number is asked for if there is no term to
understand, the number of selected devices fits into its type, and the fetch of what the count
query reports does not ask for the number again. -/
theorem getSelected_protocol (env : Option Str) (a : Answers) (c : SelectCall) :
    KeepsProtocol env a c ↔ (checkArguments c = none → Sound env a c) := by
  cases h : checkArguments c with
  | some r =>
    refine ⟨fun _ hn => ?_, fun _ => keepsProtocol_invalid h⟩
    cases hn
  | none =>
    have hcases : KeepsProtocol env a c ↔ Sound env a c := by
      cases hs : situation env a c.deviceType with
      | failed e => exact keepsProtocol_failed h hs
      | ignored => exact keepsProtocol_ignored h hs
      | selected l => exact keepsProtocol_selected h hs
    rw [hcases]
    exact ⟨fun hsound _ => hsound, fun hsound => hsound rfl⟩

/-- A platform with one GPU. -/
def oneGpu : Answers := ⟨some .levelZero, some ⟨[1], fun _ => .gpu, fun _ => []⟩⟩

/-- An empty variable, and a term that has an empty filter string, end in a success without a
number; a fetch of the one device that also gives `pNumDevices` ends in an error. -/
theorem getSelected_unkept :
    (∀ env ∈ [some [], some "*:''".toList],
      ¬ KeepsProtocol env oneGpu ⟨true, .all, 0, by decide, false, true⟩) ∧
    ¬ KeepsProtocol none oneGpu ⟨true, .all, 1, by decide, true, true⟩ := by
  constructor
  · intro env henv
    have hentry : entryDeviceGetSelected env oneGpu ⟨true, .all, 0, by decide, false, true⟩ =
        some (.code (.of .success)) := by
      simp only [List.mem_cons, List.not_mem_nil, or_false] at henv
      rcases henv with rfl | rfl
      · decide
      · decide
    rintro ⟨r, hr, hout, -⟩
    obtain rfl := Option.some.inj (hentry.symm.trans hr)
    cases (hout rfl).1 rfl
  · have hentry : entryDeviceGetSelected none oneGpu ⟨true, .all, 1, by decide, true, true⟩ =
        some ⟨.of .adapterSpecific, some 1, [1]⟩ := by decide
    have hquery : entryDeviceGetSelected none oneGpu ⟨true, .all, 0, by decide, false, true⟩ =
        some ⟨.of .success, some 1, []⟩ := by decide
    rintro ⟨r, hr, -, hall⟩
    obtain rfl := Option.some.inj (hentry.symm.trans hr)
    cases (hall ⟨rfl, Nat.one_pos, _, hquery, rfl, rfl⟩).1

end UnifiedRuntime.Loader
