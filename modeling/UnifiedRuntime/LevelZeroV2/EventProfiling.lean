import UnifiedRuntime.Lib.Counter

/-!
# Profiling times of the v2 adapter's events

The times of an event come from a device counter of which some low bits are valid. A
recorded timestamp (`event_profiling_data_t`) has its start adjusted when it is
recorded and its end when it is first asked for; for other events
`urEventGetProfilingInfo` queries the driver for the counters of start and end each
time.

Both adjust the end with `adjustEndEventTimestamp`, which takes a start that is adjusted
for the resolution. The query of the end hands it one that is only masked.

Main results:
- `adjustEnd_iff`: when the adjusted end is the start and the elapsed ticks, in the
  resolution's unit: never if the counter restarted or the end was corrected for that.
- `getEventEndTimestamp_recorded`: earlier queries do not change what is returned.
- `profiling_iff`: the exact condition for both paths.
-/

namespace UnifiedRuntime.LevelZeroV2.Profiling

/-! ## The device -/

/-- What a device says of its timer. -/
structure Device where
  timerResolution : UInt64
  kernelTimestampValidBits : Nat
  validBits_le : kernelTimestampValidBits ≤ 64

/-- `getTimestampMask`. -/
def Device.getTimestampMask (d : Device) : UInt64 :=
  if d.kernelTimestampValidBits = 64 then ~~~0
  else (1 <<< UInt64.ofNat d.kernelTimestampValidBits) - 1

/-- `urDeviceGetGlobalTimestamps`, from the driver's count. -/
def Device.globalTimestamp (d : Device) (deviceClockCount : UInt64) : UInt64 :=
  (deviceClockCount &&& d.getTimestampMask) * d.timerResolution

/-! ## Recorded timestamps -/

def adjustEndEventTimestamp (adjustedStartTimestamp endTimestamp timestampMaxValue
    timerResolution : UInt64) : UInt64 :=
  let adjustedTimestamp := (endTimestamp &&& timestampMaxValue) * timerResolution
  if adjustedTimestamp < adjustedStartTimestamp then
    adjustedTimestamp + timestampMaxValue * timerResolution
  else adjustedTimestamp

/-- `event_profiling_data_t`. -/
structure EventProfilingData where
  adjustedEventStartTimestamp : UInt64
  recordEventEndTimestamp : UInt64
  adjustedEventEndTimestamp : UInt64
  zeTimerResolution : UInt64
  timestampMaxValue : UInt64

namespace EventProfilingData

def new : EventProfilingData := ⟨0, 0, 0, 0, 0⟩

/-- `recordStartTimestamp`, on the driver's count. -/
def recordStartTimestamp (p : EventProfilingData) (d : Device) (deviceClockCount : UInt64) :
    EventProfilingData :=
  { p with
    zeTimerResolution := d.timerResolution
    timestampMaxValue := d.getTimestampMask
    adjustedEventStartTimestamp := d.globalTimestamp deviceClockCount }

/-- The driver writes the end through `eventEndTimestampAddr`. -/
def writeEnd (p : EventProfilingData) (count : UInt64) : EventProfilingData :=
  { p with recordEventEndTimestamp := count }

def getEventStartTimestmap (p : EventProfilingData) : UInt64 := p.adjustedEventStartTimestamp

def recordingStarted (p : EventProfilingData) : Bool := p.adjustedEventStartTimestamp != 0

/-- `getEventEndTimestamp`; `ready` is what `zeEventQueryStatus` says. -/
def getEventEndTimestamp (p : EventProfilingData) (ready : Bool) : UInt64 × EventProfilingData :=
  if p.adjustedEventEndTimestamp ≠ 0 then (p.adjustedEventEndTimestamp, p)
  else if !ready then (0, p)
  else
    let adjusted := adjustEndEventTimestamp p.adjustedEventStartTimestamp
      p.recordEventEndTimestamp p.timestampMaxValue p.zeTimerResolution
    (adjusted, { p with adjustedEventEndTimestamp := adjusted })

/-- What is left after some more queries. -/
def afterQueries (p : EventProfilingData) : List Bool → EventProfilingData
  | [] => p
  | ready :: rest => (p.getEventEndTimestamp ready).2.afterQueries rest

end EventProfilingData

/-! ## `urEventGetProfilingInfo` -/

/-- `ur_profiling_info_t`. -/
inductive ProfilingInfo where
  | commandQueued
  | commandSubmit
  | commandStart
  | commandEnd
  | commandComplete
  | other

inductive Error where
  | profilingInfoNotAvailable
  | invalidValue
  /-- What the driver's query failed with. -/
  | driver (code : Nat)

/-- The counters of `ze_kernel_timestamp_result_t` that are read. -/
structure KernelTimestamp where
  kernelStart : UInt64
  kernelEnd : UInt64

/-- What `urEventGetProfilingInfo` reads of an event; the queue by its device. -/
structure Event where
  profilingEnabled : Bool
  hQueue : Option Device
  profilingData : EventProfilingData

/-- The driver's part in a call: `zeEventQueryStatus` and `zeEventQueryKernelTimestamp`. -/
structure DriverAnswers where
  ready : Bool
  kernelTimestamp : Except Error KernelTimestamp

namespace Event

def isTimestamped (e : Event) : Bool := e.profilingData.recordingStarted

/-- The answer for an event with recorded timestamps. -/
def recordedInfo (e : Event) (ready : Bool) : ProfilingInfo → Except Error UInt64
  | .commandQueued | .commandSubmit => .ok e.profilingData.getEventStartTimestmap
  | .commandEnd | .commandStart | .commandComplete =>
    .ok (e.profilingData.getEventEndTimestamp ready).1
  | .other => .error .invalidValue

/-- The answer for any other event, of a queue on device `d`. -/
def queriedInfo (d : Device) (kernelTimestamp : Except Error KernelTimestamp) :
    ProfilingInfo → Except Error UInt64
  | .commandStart => kernelTimestamp.map fun ts =>
    (ts.kernelStart &&& d.getTimestampMask) * d.timerResolution
  | .commandEnd | .commandComplete => kernelTimestamp.map fun ts =>
    -- The start is masked here, not scaled.
    adjustEndEventTimestamp (ts.kernelStart &&& d.getTimestampMask) ts.kernelEnd
      d.getTimestampMask d.timerResolution
  | .commandQueued | .commandSubmit => .ok 0
  | .other => .error .invalidValue

/-- `urEventGetProfilingInfo`. -/
def urEventGetProfilingInfo (e : Event) (drv : DriverAnswers) (propName : ProfilingInfo) :
    Except Error UInt64 :=
  if !e.profilingEnabled && !e.isTimestamped then .error .profilingInfoNotAvailable
  else if e.isTimestamped then e.recordedInfo drv.ready propName
  else
    match e.hQueue with
    | none => .error .profilingInfoNotAvailable
    | some d => queriedInfo d drv.kernelTimestamp propName

end Event

/-! ## Ticks -/

namespace Device

variable (d : Device)

/-- How many values the valid bits have. -/
def range : Nat := 2 ^ d.kernelTimestampValidBits

/-- The valid bits of a counter. -/
def ticks (count : UInt64) : Nat := count.toNat % d.range

/-- The ticks from one counter reading to the next, with at most one restart between. -/
def elapsed (c₀ c₁ : UInt64) : Nat := Counter.elapsed d.range (d.ticks c₀) (d.ticks c₁)

/-- A counter's ticks in the unit of the resolution, before the product wraps. -/
def time (count : UInt64) : Nat := d.ticks count * d.timerResolution.toNat

variable {d}

theorem range_pos : 0 < d.range := Nat.two_pow_pos _

theorem ticks_lt (count : UInt64) : d.ticks count < d.range := Nat.mod_lt _ range_pos

/-- The mask is the greatest value of the valid bits. -/
theorem getTimestampMask_toNat : d.getTimestampMask.toNat = d.range - 1 := by
  unfold getTimestampMask range
  split
  next h =>
    rw [h]
    decide
  next h =>
    have hlt : d.kernelTimestampValidBits < 64 := by
      have := d.validBits_le
      omega
    have hpow : 2 ^ d.kernelTimestampValidBits < 2 ^ 64 := Nat.pow_lt_pow_right (by decide) hlt
    have hbits : (UInt64.ofNat d.kernelTimestampValidBits).toNat = d.kernelTimestampValidBits := by
      exact Nat.mod_eq_of_lt (by omega)
    have hshift : (1 <<< UInt64.ofNat d.kernelTimestampValidBits : UInt64).toNat =
        2 ^ d.kernelTimestampValidBits := by
      rw [UInt64.toNat_shiftLeft, hbits, Nat.mod_eq_of_lt hlt, Nat.shiftLeft_eq,
        UInt64.toNat_one, Nat.one_mul, Nat.mod_eq_of_lt hpow]
    have hone : (1 : UInt64) ≤ 1 <<< UInt64.ofNat d.kernelTimestampValidBits := by
      rw [UInt64.le_iff_toNat_le, hshift]
      exact Nat.one_le_two_pow
    rw [UInt64.toNat_sub_of_le _ _ hone, hshift]
    rfl

/-- Masking a counter gives its ticks. -/
theorem and_mask_toNat (count : UInt64) :
    (count &&& d.getTimestampMask).toNat = d.ticks count := by
  rw [UInt64.toNat_and, getTimestampMask_toNat]
  exact Nat.and_two_pow_sub_one_eq_mod _ _

/-- A masked and scaled counter. -/
theorem scaled_toNat (count : UInt64) :
    ((count &&& d.getTimestampMask) * d.timerResolution).toNat = d.time count % 2 ^ 64 := by
  rw [UInt64.toNat_mul, and_mask_toNat]
  rfl

/-- Words and the greatest value of the valid bits have no common divisor. -/
theorem coprime_mask (h : 1 < d.range) : Nat.Coprime (2 ^ 64) (d.range - 1) := by
  apply Nat.Coprime.pow_left
  rw [Nat.coprime_two_left]
  have hpos : d.kernelTimestampValidBits ≠ 0 := by
    intro h0
    unfold range at h
    rw [h0] at h
    omega
  have heven : Even d.range := (Nat.even_pow.mpr ⟨even_two, hpos⟩)
  exact Nat.Even.sub_odd (Nat.le_of_lt h) heven odd_one

end Device

/-! ## The end -/

variable {d : Device} {c₀ c₁ st : UInt64}

/-- The end is the start and the elapsed ticks in the resolution's unit, over the naturals. -/
def TimesRight (d : Device) (c₀ c₁ startTime endTime : UInt64) : Prop :=
  endTime.toNat = startTime.toNat + d.elapsed c₀ c₁ * d.timerResolution.toNat

/-- The adjusted end, in naturals. -/
theorem adjustEnd_toNat :
    (adjustEndEventTimestamp st c₁ d.getTimestampMask d.timerResolution).toNat =
      if d.time c₁ % 2 ^ 64 < st.toNat then
        (d.time c₁ % 2 ^ 64 + (d.range - 1) * d.timerResolution.toNat) % 2 ^ 64
      else d.time c₁ % 2 ^ 64 := by
  unfold adjustEndEventTimestamp
  dsimp only
  rw [← Device.scaled_toNat]
  split
  next h =>
    rw [if_pos (UInt64.lt_iff_toNat_lt.mp h), UInt64.toNat_add,
      UInt64.toNat_mul d.getTimestampMask, Device.getTimestampMask_toNat, Nat.add_mod_mod]
  next h => rw [if_neg fun hlt => h (UInt64.lt_iff_toNat_lt.mpr hlt)]

/-- **When the adjusted end is right**, whatever start `st` it is compared with: the counter
did not restart, both products lose the same multiple of the word size, and the end is not
taken for one after a restart. -/
theorem adjustEnd_iff (hres : d.timerResolution ≠ 0) (hst : d.range = 1 → st = 0) :
    TimesRight d c₀ c₁ (d.globalTimestamp c₀)
        (adjustEndEventTimestamp st c₁ d.getTimestampMask d.timerResolution) ↔
      d.ticks c₀ ≤ d.ticks c₁ ∧ d.time c₀ / 2 ^ 64 = d.time c₁ / 2 ^ 64 ∧
        st.toNat ≤ d.time c₁ % 2 ^ 64 := by
  have hs := Device.ticks_lt (d := d) c₀
  have he := Device.ticks_lt (d := d) c₁
  have hpos : 0 < d.timerResolution.toNat :=
    Nat.pos_of_ne_zero fun h => hres (UInt64.toNat_inj.mp h)
  unfold TimesRight Device.globalTimestamp
  rw [adjustEnd_toNat, Device.scaled_toNat]
  split
  next hlt =>
    -- The correction adds one tick too few, so it is never right.
    have hone : 1 < d.range := by
      by_contra hle
      rw [hst (by omega)] at hlt
      exact Nat.not_lt_zero _ hlt
    have hne := Counter.corrected_ne hone hs he hpos d.timerResolution.toNat_lt
      (Device.coprime_mask hone)
    refine ⟨fun heq => absurd heq hne, fun h => ?_⟩
    omega
  next hge =>
    have hiff := Counter.plain_iff (W := 2 ^ 64) (Nat.two_pow_pos 64) hs he hpos
    refine ⟨fun heq => ?_, fun h => hiff.mpr ⟨h.1, h.2.1⟩⟩
    obtain ⟨hle, hdiv⟩ := hiff.mp heq
    exact ⟨hle, hdiv, by omega⟩

/-- Against the scaled start the end is corrected only if the products lose different
multiples. -/
theorem adjustEnd_global_iff (hres : d.timerResolution ≠ 0) :
    TimesRight d c₀ c₁ (d.globalTimestamp c₀) (adjustEndEventTimestamp (d.globalTimestamp c₀) c₁
        d.getTimestampMask d.timerResolution) ↔
      d.ticks c₀ ≤ d.ticks c₁ ∧ d.time c₀ / 2 ^ 64 = d.time c₁ / 2 ^ 64 := by
  rw [adjustEnd_iff hres]
  · refine ⟨fun h => ⟨h.1, h.2.1⟩, fun ⟨hle, hdiv⟩ => ⟨hle, hdiv, ?_⟩⟩
    have htime : d.time c₀ ≤ d.time c₁ := Nat.mul_le_mul_right _ hle
    unfold Device.globalTimestamp
    rw [Device.scaled_toNat]
    omega
  · intro hone
    have hzero : d.ticks c₀ = 0 := by
      have := Device.ticks_lt (d := d) c₀
      omega
    apply UInt64.toNat_inj.mp
    unfold Device.globalTimestamp
    rw [Device.scaled_toNat]
    unfold Device.time
    rw [hzero, Nat.zero_mul]
    rfl

/-! ## Recorded timestamps -/

namespace EventProfilingData

/-- A query before the driver is done changes nothing. -/
theorem afterQueries_early (p : EventProfilingData) (h : p.adjustedEventEndTimestamp = 0) :
    ∀ n, p.afterQueries (List.replicate n false) = p
  | 0 => rfl
  | n + 1 => by
    have hsame : (p.getEventEndTimestamp false).2 = p := by
      unfold getEventEndTimestamp
      simp [h]
    show (p.getEventEndTimestamp false).2.afterQueries (List.replicate n false) = p
    rw [hsame]
    exact afterQueries_early p h n

/-- The end that a query adjusts. -/
def adjustedEnd (p : EventProfilingData) : UInt64 :=
  adjustEndEventTimestamp p.adjustedEventStartTimestamp p.recordEventEndTimestamp
    p.timestampMaxValue p.zeTimerResolution

/-- What is kept of the end is what a query would adjust. -/
def Cached (p : EventProfilingData) : Prop :=
  p.adjustedEventEndTimestamp ≠ 0 → p.adjustedEventEndTimestamp = p.adjustedEnd

/-- One query: it keeps the start, the end that would be adjusted, and the cache right. -/
theorem Cached.query {p : EventProfilingData} (h : p.Cached) (ready : Bool) :
    (p.getEventEndTimestamp ready).2.Cached ∧
      (p.getEventEndTimestamp ready).2.adjustedEnd = p.adjustedEnd ∧
      (p.getEventEndTimestamp ready).2.getEventStartTimestmap = p.getEventStartTimestmap := by
  unfold getEventEndTimestamp
  split
  next => exact ⟨h, rfl, rfl⟩
  next =>
    split
    next => exact ⟨h, rfl, rfl⟩
    next => exact ⟨fun _ => rfl, rfl, rfl⟩

theorem Cached.queries : ∀ {p : EventProfilingData}, p.Cached → ∀ readies : List Bool,
    (p.afterQueries readies).Cached ∧ (p.afterQueries readies).adjustedEnd = p.adjustedEnd ∧
      (p.afterQueries readies).getEventStartTimestmap = p.getEventStartTimestmap
  | _, h, [] => ⟨h, rfl, rfl⟩
  | p, h, ready :: rest => by
    obtain ⟨hc, hend, hstart⟩ := h.query ready
    obtain ⟨hc', hend', hstart'⟩ := hc.queries rest
    exact ⟨hc', hend'.trans hend, hstart'.trans hstart⟩

/-- A query when the driver is done. -/
theorem Cached.ready {p : EventProfilingData} (h : p.Cached) :
    (p.getEventEndTimestamp true).1 = p.adjustedEnd := by
  unfold getEventEndTimestamp
  split
  next hne => exact h hne
  next => rfl

/-- The start is recorded, `early` queries come before the driver writes the end, and more
queries after. -/
def recorded (d : Device) (c₀ c₁ : UInt64) (early : Nat) (later : List Bool) :
    EventProfilingData :=
  (((new.recordStartTimestamp d c₀).afterQueries (List.replicate early false)).writeEnd
    c₁).afterQueries later

variable (d c₀ c₁)

/-- **Queries do not disturb** a recording: the start stays, and the end is adjusted from the
counter that the driver wrote. -/
theorem getEventEndTimestamp_recorded (early : Nat) (later : List Bool) :
    (recorded d c₀ c₁ early later).getEventStartTimestmap = d.globalTimestamp c₀ ∧
      ((recorded d c₀ c₁ early later).getEventEndTimestamp true).1 =
        adjustEndEventTimestamp (d.globalTimestamp c₀) c₁ d.getTimestampMask
          d.timerResolution := by
  unfold recorded
  rw [afterQueries_early _ rfl]
  have hfresh : ((new.recordStartTimestamp d c₀).writeEnd c₁).Cached := fun h => absurd rfl h
  obtain ⟨hc, hend, hstart⟩ := hfresh.queries later
  exact ⟨hstart, hc.ready.trans hend⟩

end EventProfilingData

open EventProfilingData in
/-- Recorded timestamps. -/
theorem recorded_iff (hres : d.timerResolution ≠ 0) (early : Nat) (later : List Bool) :
    TimesRight d c₀ c₁ (recorded d c₀ c₁ early later).getEventStartTimestmap
        ((recorded d c₀ c₁ early later).getEventEndTimestamp true).1 ↔
      d.ticks c₀ ≤ d.ticks c₁ ∧ d.time c₀ / 2 ^ 64 = d.time c₁ / 2 ^ 64 := by
  obtain ⟨hstart, hend⟩ := getEventEndTimestamp_recorded d c₀ c₁ early later
  rw [hstart, hend]
  exact adjustEnd_global_iff hres

/-! ## `urEventGetProfilingInfo` -/

variable {e : Event} {drv : DriverAnswers}

/-- What is returned for an event of a queue on `d` that has no recording. -/
theorem info_queried (hprof : e.profilingEnabled = true) (hts : e.isTimestamped = false)
    (hq : e.hQueue = some d) (propName : ProfilingInfo) :
    e.urEventGetProfilingInfo drv propName = Event.queriedInfo d drv.kernelTimestamp propName := by
  unfold Event.urEventGetProfilingInfo
  rw [hprof, hts, hq]
  rfl

/-- What is returned for an event with a recording. -/
theorem info_recorded (hts : e.isTimestamped = true) (propName : ProfilingInfo) :
    e.urEventGetProfilingInfo drv propName = e.recordedInfo drv.ready propName := by
  unfold Event.urEventGetProfilingInfo
  rw [hts]
  cases e.profilingEnabled with
  | false => rfl
  | true => rfl

/-- On the query path, with the counters that the driver has. -/
theorem queried_iff (hres : d.timerResolution ≠ 0) :
    TimesRight d c₀ c₁ (d.globalTimestamp c₀)
        (adjustEndEventTimestamp (c₀ &&& d.getTimestampMask) c₁ d.getTimestampMask
          d.timerResolution) ↔
      d.ticks c₀ ≤ d.ticks c₁ ∧ d.time c₀ / 2 ^ 64 = d.time c₁ / 2 ^ 64 ∧
        d.ticks c₀ ≤ d.time c₁ % 2 ^ 64 := by
  rw [adjustEnd_iff hres, Device.and_mask_toNat]
  intro hone
  apply UInt64.toNat_inj.mp
  rw [Device.and_mask_toNat]
  show d.ticks c₀ = 0
  have := Device.ticks_lt (d := d) c₀
  omega

/-- **The profiling times are right exactly** if the counter did not restart between start
and end and the two products lose the same multiple of the word size; on the query path
also only if the masked start is not above the product of the end. -/
theorem profiling_iff (d : Device) (hres : d.timerResolution ≠ 0) (c₀ c₁ : UInt64) :
    (∀ early later,
      let p := EventProfilingData.recorded d c₀ c₁ early later
      TimesRight d c₀ c₁ p.getEventStartTimestmap (p.getEventEndTimestamp true).1 ↔
        d.ticks c₀ ≤ d.ticks c₁ ∧ d.time c₀ / 2 ^ 64 = d.time c₁ / 2 ^ 64) ∧
    (∀ early later profilingEnabled hQueue kernelTimestamp,
      let p := EventProfilingData.recorded d c₀ c₁ early later
      let e : Event := ⟨profilingEnabled, hQueue, p⟩
      let drv : DriverAnswers := ⟨true, kernelTimestamp⟩
      e.isTimestamped = true →
        e.urEventGetProfilingInfo drv .commandSubmit = .ok p.getEventStartTimestmap ∧
        e.urEventGetProfilingInfo drv .commandEnd = .ok (p.getEventEndTimestamp true).1 ∧
        e.urEventGetProfilingInfo drv .commandStart = e.urEventGetProfilingInfo drv .commandEnd) ∧
    (∀ (e : Event) ready,
      let drv : DriverAnswers := ⟨ready, .ok ⟨c₀, c₁⟩⟩
      e.profilingEnabled = true → e.isTimestamped = false → e.hQueue = some d →
        ∃ startTime endTime, e.urEventGetProfilingInfo drv .commandStart = .ok startTime ∧
          e.urEventGetProfilingInfo drv .commandEnd = .ok endTime ∧
          (TimesRight d c₀ c₁ startTime endTime ↔
            d.ticks c₀ ≤ d.ticks c₁ ∧ d.time c₀ / 2 ^ 64 = d.time c₁ / 2 ^ 64 ∧
              d.ticks c₀ ≤ d.time c₁ % 2 ^ 64)) := by
  refine ⟨fun early later => recorded_iff hres early later, ?_, ?_⟩
  · intro early later profilingEnabled hQueue kernelTimestamp p e drv hts
    rw [info_recorded hts, info_recorded hts, info_recorded hts]
    exact ⟨rfl, rfl, rfl⟩
  · intro e ready drv hprof hts hq
    rw [info_queried hprof hts hq, info_queried hprof hts hq]
    exact ⟨_, _, rfl, rfl, queried_iff hres⟩

/-- 32 valid bits, a tick every 83 nanoseconds. -/
def gpu : Device := ⟨83, 32, by decide⟩

/-- An event with profiling of a queue on it. -/
def profiled : Event := ⟨true, some gpu, .new⟩

/-- Start and end lie 100 ticks apart. -/
theorem profiling_iff_forward :
    TimesRight gpu 100 200
      (EventProfilingData.recorded gpu 100 200 1 [true]).getEventStartTimestmap
      ((EventProfilingData.recorded gpu 100 200 1 [true]).getEventEndTimestamp true).1 ∧
    (∃ startTime endTime,
      profiled.urEventGetProfilingInfo ⟨true, .ok ⟨100, 200⟩⟩ .commandStart = .ok startTime ∧
      profiled.urEventGetProfilingInfo ⟨true, .ok ⟨100, 200⟩⟩ .commandEnd = .ok endTime ∧
      TimesRight gpu 100 200 startTime endTime) := by
  have hall := profiling_iff gpu (by decide) 100 200
  refine ⟨(hall.1 1 [true]).mpr ⟨by decide, by decide⟩, ?_⟩
  obtain ⟨startTime, endTime, hstart, hend, hiff⟩ := hall.2.2 profiled true rfl rfl rfl
  exact ⟨startTime, endTime, hstart, hend, hiff.mpr ⟨by decide, by decide, by decide⟩⟩

/-- The counter restarts: the start is 10 ticks before, the end 5 after. -/
theorem profiling_iff_fails :
    ¬ TimesRight gpu 0xfffffff6 5
      (EventProfilingData.recorded gpu 0xfffffff6 5 0 []).getEventStartTimestmap
      ((EventProfilingData.recorded gpu 0xfffffff6 5 0 []).getEventEndTimestamp true).1 ∧
    ¬ ∃ startTime endTime,
      profiled.urEventGetProfilingInfo ⟨true, .ok ⟨0xfffffff6, 5⟩⟩ .commandStart = .ok startTime ∧
      profiled.urEventGetProfilingInfo ⟨true, .ok ⟨0xfffffff6, 5⟩⟩ .commandEnd = .ok endTime ∧
      TimesRight gpu 0xfffffff6 5 startTime endTime := by
  constructor
  · rw [recorded_iff (by decide)]
    exact fun h => absurd h.1 (by decide)
  · rintro ⟨startTime, endTime, hstart, hend, hright⟩
    have hs := Except.ok.inj hstart
    have he := Except.ok.inj hend
    subst hs he
    exact absurd ((queried_iff (by decide)).mp hright).1 (by decide)

end UnifiedRuntime.LevelZeroV2.Profiling
