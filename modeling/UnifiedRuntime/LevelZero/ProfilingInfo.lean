import UnifiedRuntime.LevelZeroV2.EventProfiling
import UnifiedRuntime.Lib.ListLoops

/-!
# Profiling times of command-buffers and recorded timestamps

A command-buffer keeps the counters of all its commands, in the order of its sync-points. The
queries look for the smallest start and the greatest end among the counters as they are, and
mask, correct and scale what they have found. A recorded timestamp has its start from the host
when it is enqueued; the driver writes its end into the queue, and a query of the event or the
queue itself collects it from there.

- `command_buffer_iff`: when a command-buffer's times are right.
- `fine_iff_of_wide`: the same where scaling loses nothing.
-/

namespace UnifiedRuntime.LevelZero.Profiling

open LevelZeroV2.Profiling (Device KernelTimestamp adjustEndEventTimestamp)

/-! ## The code -/

inductive ProfilingInfo where
  | commandQueued
  | commandSubmit
  | commandStart
  | commandEnd
  | other

inductive Error where
  | profilingInfoNotAvailable
  | invalidValue
  | unknown
  /-- What the driver's query failed with. -/
  | driver (code : Nat)

/-- `command_buffer_profiling_t`; the first timestamp is always read. -/
structure CommandBufferProfiling where
  first : KernelTimestamp
  rest : List KernelTimestamp

/-- The start that is the smallest as it is. -/
def CommandBufferProfiling.minStart (p : CommandBufferProfiling) : UInt64 :=
  p.rest.foldl (fun minStart ts => if ts.kernelStart < minStart then ts.kernelStart else minStart)
    p.first.kernelStart

/-- The end that is the greatest as it is, and the start that goes with it. -/
def CommandBufferProfiling.maxEnd (p : CommandBufferProfiling) : UInt64 × UInt64 :=
  p.rest.foldl (fun last ts => if last.1 < ts.kernelEnd then (ts.kernelEnd, ts.kernelStart) else last)
    (p.first.kernelEnd, p.first.kernelStart)

/-- The end of a command from its counters. -/
def contextEndTime (d : Device) (kernelStart kernelEnd : UInt64) : UInt64 :=
  let contextStartTime := kernelStart &&& d.getTimestampMask
  let contextEndTime := kernelEnd &&& d.getTimestampMask
  (if contextEndTime ≤ contextStartTime then contextEndTime + d.getTimestampMask
    else contextEndTime) * d.timerResolution

/-- What the queries read of an event: `commandData` is there for a command-buffer. -/
structure Event where
  profilingEnabled : Bool
  hasQueue : Bool
  commandData : Option (Option CommandBufferProfiling)
  recordEventStartTimestamp : UInt64
  recordEventEndTimestamp : UInt64

def Event.isTimestamped (e : Event) : Bool := e.recordEventStartTimestamp != 0

/-- A queue with its events, and its `EndTimeRecordings`. -/
structure Queue where
  device : Device
  events : Nat → Event
  endTimeRecordings : Nat → Option UInt64

namespace Queue

/-- The end that a recording gives; the words that v2 has a function for. -/
def recordedEnd (q : Queue) (e : Nat) (recording : UInt64) : UInt64 :=
  adjustEndEventTimestamp (q.events e).recordEventStartTimestamp recording
    q.device.getTimestampMask q.device.timerResolution

/-- The end goes to the event, and the recording is gone. -/
def collect (q : Queue) (e : Nat) (contextEndTime : UInt64) : Queue :=
  { q with
    events := Function.update q.events e
      { q.events e with recordEventEndTimestamp := contextEndTime }
    endTimeRecordings := Function.update q.endTimeRecordings e none }

/-- The query of the end of a recorded timestamp, which is that of the start, too. -/
def recordedQuery (q : Queue) (e : Nat) : Except Error UInt64 × Queue :=
  if (q.events e).recordEventEndTimestamp ≠ 0 then
    (.ok (q.events e).recordEventEndTimestamp, q)
  else
    match q.endTimeRecordings e with
    | none => (.error .unknown, q)
    | some recording =>
      -- no results yet
      if (recording &&& q.device.getTimestampMask) * q.device.timerResolution = 0 then (.ok 0, q)
      else (.ok (q.recordedEnd e recording), q.collect e (q.recordedEnd e recording))

/-- The times of a command-buffer. -/
def commandBufferInfo (d : Device) (p : CommandBufferProfiling) :
    ProfilingInfo → Except Error UInt64
  | .commandStart => .ok ((p.minStart &&& d.getTimestampMask) * d.timerResolution)
  | .commandEnd => .ok (contextEndTime d p.maxEnd.2 p.maxEnd.1)
  | _ => .error .invalidValue

/-- The times of another command, from the driver. -/
def kernelInfo (d : Device) (kernelTimestamp : Except Error KernelTimestamp) :
    ProfilingInfo → Except Error UInt64
  | .commandStart => kernelTimestamp.map fun ts =>
    (ts.kernelStart &&& d.getTimestampMask) * d.timerResolution
  | .commandEnd => kernelTimestamp.map fun ts => contextEndTime d ts.kernelStart ts.kernelEnd
  | .commandQueued | .commandSubmit => .ok 0
  | .other => .error .invalidValue

/-- `urEventGetProfilingInfo`; the driver has the counters of a command. -/
def urEventGetProfilingInfo (q : Queue) (e : Nat) (kernelTimestamp : Except Error KernelTimestamp)
    (propName : ProfilingInfo) : Except Error UInt64 × Queue :=
  let event := q.events e
  if !event.profilingEnabled && !event.isTimestamped then (.error .profilingInfoNotAvailable, q)
  else if event.isTimestamped && event.hasQueue then
    match propName with
    | .commandQueued | .commandSubmit => (.ok event.recordEventStartTimestamp, q)
    | .commandEnd | .commandStart => q.recordedQuery e
    | .other => (.error .invalidValue, q)
  else
    match event.commandData with
    | some (some p) => (commandBufferInfo q.device p propName, q)
    | some none => (.error .profilingInfoNotAvailable, q)
    | none => (kernelInfo q.device kernelTimestamp propName, q)

/-- `urEnqueueTimestampRecordingExp`, up to the command for the driver. -/
def urEnqueueTimestampRecordingExp (q : Queue) (e : Nat) (deviceClockCount : UInt64) : Queue :=
  { q with
    events := Function.update q.events e
      { q.events e with
        recordEventEndTimestamp := 0
        recordEventStartTimestamp := q.device.globalTimestamp deviceClockCount }
    endTimeRecordings := Function.update q.endTimeRecordings e (some 0) }

/-- The driver writes the end. -/
def writeEnd (q : Queue) (e : Nat) (count : UInt64) : Queue :=
  { q with endTimeRecordings := Function.update q.endTimeRecordings e (some count) }

/-- `clearEndTimeRecordings`. -/
def clearEndTimeRecordings (q : Queue) : Queue :=
  { q with
    events := fun e =>
      match q.endTimeRecordings e with
      | none => q.events e
      | some recording =>
        { q.events e with recordEventEndTimestamp := q.recordedEnd e recording }
    endTimeRecordings := fun _ => none }

/-- What may come between the driver's end and a query. -/
inductive Call where
  | query (e : Nat) (kernelTimestamp : Except Error KernelTimestamp) (propName : ProfilingInfo)
  | clear

def step (q : Queue) : Call → Queue
  | .query e kernelTimestamp propName => (q.urEventGetProfilingInfo e kernelTimestamp propName).2
  | .clear => q.clearEndTimeRecordings

/-- An early query: the driver has not written yet, and so the queue is not cleared. -/
def IsQuery : Call → Prop
  | .query _ _ _ => True
  | .clear => False

/-- A timestamp is recorded: at `c₀` by the host, and at `c₁` by the driver. -/
def recorded (q : Queue) (e : Nat) (c₀ c₁ : UInt64) (early later : List Call) : Queue :=
  later.foldl step
    ((early.foldl step (q.urEnqueueTimestampRecordingExp e c₀)).writeEnd e c₁)

end Queue

/-! ## The times of a command -/

/-- The counters of a command, and the ticks that they were read at. -/
structure Measured (d : Device) where
  counters : KernelTimestamp
  start : Nat
  stop : Nat
  start_ticks : d.ticks counters.kernelStart = start % d.range
  stop_ticks : d.ticks counters.kernelEnd = stop % d.range
  le : start ≤ stop

/-- The commands run from `t₀` to `t₁`, less than a full round of the counter. -/
structure Span {d : Device} (ms : List (Measured d)) (t₀ t₁ : Nat) : Prop where
  earliest : ∀ m ∈ ms, t₀ ≤ m.start
  first : ∃ m ∈ ms, m.start = t₀
  latest : ∀ m ∈ ms, m.stop ≤ t₁
  last : ∃ m ∈ ms, m.stop = t₁
  within : t₁ < t₀ + d.range

/-- **The times are right**: the start is the scaled one of `t₀`, and the end is later by the
ticks to `t₁` in the resolution's unit. -/
def TimesRight (d : Device) (t₀ t₁ : Nat) (startTime endTime : Except Error UInt64) : Prop :=
  ∃ s e, startTime = .ok s ∧ endTime = .ok e ∧
    s.toNat = t₀ % d.range * d.timerResolution.toNat % 2 ^ 64 ∧
    e.toNat = s.toNat + (t₁ - t₀) * d.timerResolution.toNat

/-- The event of a command-buffer with profiling. -/
def IsCommandBuffer {d : Device} (event : Event) (first : Measured d) (rest : List (Measured d)) :
    Prop :=
  event.profilingEnabled = true ∧ (event.isTimestamped && event.hasQueue) = false ∧
    event.commandData = some (some ⟨first.counters, rest.map Measured.counters⟩)

/-! ## The condition -/

/-- Two counts of ticks scale to the same word. -/
def Alike (d : Device) (x y : Nat) : Prop :=
  x * d.timerResolution.toNat % 2 ^ 64 = y * d.timerResolution.toNat % 2 ^ 64

/-- `m` is the first command with the greatest end counter. -/
def FirstGreatestEnd {d : Device} (ms : List (Measured d)) (m : Measured d) : Prop :=
  ∃ before after, ms = before ++ m :: after ∧
    (∀ m' ∈ before, m'.counters.kernelEnd < m.counters.kernelEnd) ∧
    ∀ m' ∈ after, m'.counters.kernelEnd ≤ m.counters.kernelEnd

/-- **When a command-buffer's times are right**: scaling loses the same multiple of 2^64 at both
ends; a smallest start counter scales like the earliest start; and the greatest end counter
scales like the latest end if it is above the start of its command, and does so with the mask
added if it is not. -/
structure Fine {d : Device} (ms : List (Measured d)) (t₀ t₁ : Nat) : Prop where
  fits : t₀ % d.range * d.timerResolution.toNat / 2 ^ 64 =
    (t₀ % d.range + (t₁ - t₀)) * d.timerResolution.toNat / 2 ^ 64
  start : ∀ m ∈ ms, (∀ m' ∈ ms, m.counters.kernelStart ≤ m'.counters.kernelStart) →
    Alike d (m.start % d.range) (t₀ % d.range)
  stop : ∀ m, FirstGreatestEnd ms m →
    if m.start % d.range < m.stop % d.range then
      Alike d (m.stop % d.range) (t₀ % d.range + (t₁ - t₀))
    else Alike d (m.stop % d.range + (d.range - 1)) (t₀ % d.range + (t₁ - t₀))

/-- Scaling loses nothing, for twice the counter's range. -/
def Wide (d : Device) : Prop := 2 * d.range * d.timerResolution.toNat ≤ 2 ^ 64

/-- **Where scaling loses nothing**: a smallest start counter is one of the earliest start, and
the greatest end counter that of the latest end, of a command that took some time, with no
restart of the counter at all. The mask that is added for a restart is right for one that is one
tick short of a full round. -/
structure Plain {d : Device} (ms : List (Measured d)) (t₀ t₁ : Nat) : Prop where
  start : ∀ m ∈ ms, (∀ m' ∈ ms, m.counters.kernelStart ≤ m'.counters.kernelStart) → m.start = t₀
  stop : ∀ m, FirstGreatestEnd ms m →
    (m.start < m.stop ∧ m.stop = t₁ ∧ t₀ % d.range + (t₁ - t₀) < d.range) ∨
    (m.start = t₀ ∧ m.stop = t₀ ∧ t₁ = t₀ + (d.range - 1))

/-! ## Command-buffers -/

variable {d : Device} {first m : Measured d} {rest ms : List (Measured d)} {t₀ t₁ : Nat} {q : Queue}
  {e : Nat}

def StartBelow (m m' : Measured d) : Prop := m.counters.kernelStart < m'.counters.kernelStart

instance : DecidableRel (StartBelow (d := d)) := fun m m' =>
  inferInstanceAs (Decidable (m.counters.kernelStart < m'.counters.kernelStart))

def EndAbove (m m' : Measured d) : Prop := m'.counters.kernelEnd < m.counters.kernelEnd

instance : DecidableRel (EndAbove (d := d)) := fun m m' =>
  inferInstanceAs (Decidable (m'.counters.kernelEnd < m.counters.kernelEnd))

/-- The loop for the start. -/
theorem minStart_eq : ∀ (rest : List (Measured d)) (first : Measured d),
    (CommandBufferProfiling.mk first.counters (rest.map Measured.counters)).minStart =
      (firstBest StartBelow first rest).counters.kernelStart
  | [], _ => rfl
  | m :: rest, first => by
    have hrest := minStart_eq rest (if StartBelow m first then m else first)
    have hstart : (if StartBelow m first then m else first).counters.kernelStart =
        if m.counters.kernelStart < first.counters.kernelStart then m.counters.kernelStart
        else first.counters.kernelStart := by
      show (if m.counters.kernelStart < first.counters.kernelStart then m
        else first).counters.kernelStart = _
      split
      · rfl
      · rfl
    unfold CommandBufferProfiling.minStart at hrest ⊢
    rw [List.map_cons, List.foldl_cons, ← hstart]
    exact hrest

/-- The loop for the end. -/
theorem maxEnd_eq : ∀ (rest : List (Measured d)) (first : Measured d),
    (CommandBufferProfiling.mk first.counters (rest.map Measured.counters)).maxEnd =
      ((firstBest EndAbove first rest).counters.kernelEnd,
        (firstBest EndAbove first rest).counters.kernelStart)
  | [], _ => rfl
  | m :: rest, first => by
    have hrest := maxEnd_eq rest (if EndAbove m first then m else first)
    have hlast : ((if EndAbove m first then m else first).counters.kernelEnd,
        (if EndAbove m first then m else first).counters.kernelStart) =
        if first.counters.kernelEnd < m.counters.kernelEnd then
          (m.counters.kernelEnd, m.counters.kernelStart)
        else (first.counters.kernelEnd, first.counters.kernelStart) := by
      show ((if first.counters.kernelEnd < m.counters.kernelEnd then m
        else first).counters.kernelEnd, (if first.counters.kernelEnd < m.counters.kernelEnd then m
        else first).counters.kernelStart) = _
      split
      · rfl
      · rfl
    unfold CommandBufferProfiling.maxEnd at hrest ⊢
    rw [List.map_cons, List.foldl_cons, ← hlast]
    exact hrest

/-- A smallest start counter. -/
theorem startBelow_best (first : Measured d) (rest : List (Measured d)) :
    firstBest StartBelow first rest ∈ first :: rest ∧ ∀ m ∈ first :: rest,
      (firstBest StartBelow first rest).counters.kernelStart ≤ m.counters.kernelStart := by
  obtain ⟨before, after, hsplit, hbefore, hafter⟩ := firstBest_split
    (fun x y z (hxy : StartBelow x y) (hyz : StartBelow y z) => UInt64.lt_trans hxy hyz)
    (fun x y z hxy hyz => UInt64.not_lt.mpr
      (UInt64.le_trans (UInt64.not_lt.mp hyz) (UInt64.not_lt.mp hxy))) rest first
  rw [hsplit]
  refine ⟨List.mem_append_right _ List.mem_cons_self, fun m hm => ?_⟩
  rcases List.mem_append.mp hm with hm | hm
  · exact UInt64.le_of_lt (hbefore m hm)
  · rcases List.mem_cons.mp hm with rfl | hm
    · exact UInt64.le_refl _
    · exact UInt64.not_lt.mp (hafter m hm)

theorem endAbove_best (first : Measured d) (rest : List (Measured d)) :
    FirstGreatestEnd (first :: rest) (firstBest EndAbove first rest) := by
  obtain ⟨before, after, hsplit, hbefore, hafter⟩ := firstBest_split
    (fun x y z (hxy : EndAbove x y) (hyz : EndAbove y z) => UInt64.lt_trans hyz hxy)
    (fun x y z hxy hyz => UInt64.not_lt.mpr
      (UInt64.le_trans (UInt64.not_lt.mp hxy) (UInt64.not_lt.mp hyz))) rest first
  exact ⟨before, after, hsplit, hbefore, fun m hm => UInt64.not_lt.mp (hafter m hm)⟩

theorem FirstGreatestEnd.unique {m' : Measured d} (h : FirstGreatestEnd ms m)
    (h' : FirstGreatestEnd ms m') : m = m' := by
  obtain ⟨before, after, hsplit, hbefore, hafter⟩ := h
  obtain ⟨before', after', hsplit', hbefore', hafter'⟩ := h'
  have hbest : BestAt EndAbove before m after :=
    ⟨hbefore, fun y hy => UInt64.not_lt.mpr (hafter y hy)⟩
  exact hbest.unique ⟨hbefore', fun y hy => UInt64.not_lt.mpr (hafter' y hy)⟩
    (hsplit.symm.trans hsplit')

/-- The end of a command, in naturals. -/
theorem contextEndTime_toNat (m : Measured d) :
    (contextEndTime d m.counters.kernelStart m.counters.kernelEnd).toNat =
      (if m.start % d.range < m.stop % d.range then m.stop % d.range
        else m.stop % d.range + (d.range - 1)) * d.timerResolution.toNat % 2 ^ 64 := by
  have hmask := @Device.getTimestampMask_toNat d
  have hstart := (Device.and_mask_toNat (d := d) m.counters.kernelStart).trans m.start_ticks
  have hstop := (Device.and_mask_toNat (d := d) m.counters.kernelEnd).trans m.stop_ticks
  unfold contextEndTime
  dsimp only
  by_cases hlt : m.start % d.range < m.stop % d.range
  · rw [if_pos hlt, if_neg, UInt64.toNat_mul, hstop]
    rw [UInt64.le_iff_toNat_le]
    omega
  · rw [if_neg hlt, if_pos, UInt64.toNat_mul, UInt64.toNat_add, hstop, hmask, Nat.mod_mul_mod]
    rw [UInt64.le_iff_toNat_le]
    omega

/-- **When a command-buffer's times are right.** -/
theorem command_buffer_iff (hevent : IsCommandBuffer (q.events e) first rest)
    (hd : q.device = d) (kernelTimestamp : Except Error KernelTimestamp) :
    TimesRight d t₀ t₁ (q.urEventGetProfilingInfo e kernelTimestamp .commandStart).1
        (q.urEventGetProfilingInfo e kernelTimestamp .commandEnd).1 ↔
      Fine (first :: rest) t₀ t₁ := by
  obtain ⟨hprofiling, hrecorded, hdata⟩ := hevent
  let low := firstBest StartBelow first rest
  let high := firstBest EndAbove first rest
  obtain ⟨hlow, hsmallest⟩ := startBelow_best first rest
  have hhigh := endAbove_best first rest
  -- the times of a command-buffer are the least start and the greatest end
  have hinfo : ∀ propName, (q.urEventGetProfilingInfo e kernelTimestamp propName).1 =
      Queue.commandBufferInfo d ⟨first.counters, rest.map Measured.counters⟩ propName := by
    intro propName
    unfold Queue.urEventGetProfilingInfo
    dsimp only
    rw [hprofiling, hrecorded, hdata, hd]
    rfl
  have hstart : ((low.counters.kernelStart &&& d.getTimestampMask) * d.timerResolution).toNat =
      low.start % d.range * d.timerResolution.toNat % 2 ^ 64 := by
    rw [Device.scaled_toNat]
    unfold Device.time
    rw [low.start_ticks]
  rw [hinfo, hinfo]
  unfold Queue.commandBufferInfo
  rw [minStart_eq, maxEnd_eq]
  have hend := contextEndTime_toNat high
  constructor
  · rintro ⟨s, w, hs, hw, hsr, hwr⟩
    obtain rfl := Except.ok.inj hs
    obtain rfl := Except.ok.inj hw
    have halike : Alike d (low.start % d.range) (t₀ % d.range) := hstart.symm.trans hsr
    rw [hsr, hend, Counter.scaled_add_iff (Nat.two_pow_pos 64)] at hwr
    refine ⟨hwr.1, fun m hm hleast => ?_, fun m hm => ?_⟩
    · have hsame : m.counters.kernelStart = low.counters.kernelStart :=
        UInt64.le_antisymm (hleast _ hlow) (hsmallest m hm)
      have hticks := m.start_ticks
      rw [hsame, low.start_ticks] at hticks
      rw [← hticks]
      exact halike
    · obtain rfl := hm.unique hhigh
      have hstop := hwr.2
      split at hstop
      next hlt =>
        rw [if_pos hlt]
        exact hstop
      next hlt =>
        rw [if_neg hlt]
        exact hstop
  · intro hfine
    have halike := hfine.start low hlow hsmallest
    refine ⟨_, _, rfl, rfl, hstart.trans halike, ?_⟩
    have hsr : ((low.counters.kernelStart &&& d.getTimestampMask) * d.timerResolution).toNat =
        t₀ % d.range * d.timerResolution.toNat % 2 ^ 64 := hstart.trans halike
    rw [hsr, hend, Counter.scaled_add_iff (Nat.two_pow_pos 64)]
    refine ⟨hfine.fits, ?_⟩
    have hstop := hfine.stop high hhigh
    split
    next hlt =>
      rw [if_pos hlt] at hstop
      exact hstop
    next hlt =>
      rw [if_neg hlt] at hstop
      exact hstop

/-! ## Where scaling loses nothing -/

/-- Counts of one round are told apart by their readings. -/
theorem eq_of_mod_eq {N x y : Nat} (hx : t₀ ≤ x) (hxN : x < t₀ + N) (hy : t₀ ≤ y)
    (hyN : y < t₀ + N) (heq : x % N = y % N) : x = y := by
  have hxd := Counter.elapsed_mod hx hxN
  rw [heq, Counter.elapsed_mod hy hyN] at hxd
  omega

theorem reading_of_lt {N x : Nat} (hx : t₀ ≤ x) (hlt : t₀ % N + (x - t₀) < N) :
    x % N = t₀ % N + (x - t₀) := by
  have hsum : x % N = (t₀ % N + (x - t₀)) % N := by
    rw [Nat.mod_add_mod]
    congr 1
    omega
  rw [hsum, Nat.mod_eq_of_lt hlt]

theorem Wide.scaled_lt (hwide : Wide d) (hres : d.timerResolution ≠ 0) {x : Nat}
    (hx : x < 2 * d.range) : x * d.timerResolution.toNat < 2 ^ 64 := by
  have hpos : 0 < d.timerResolution.toNat :=
    Nat.pos_of_ne_zero fun h => hres (UInt64.toNat_inj.mp h)
  exact Nat.lt_of_lt_of_le (Nat.mul_lt_mul_of_pos_right hx hpos) hwide

theorem Wide.alike_iff (hwide : Wide d) (hres : d.timerResolution ≠ 0) {x y : Nat}
    (hx : x < 2 * d.range) (hy : y < 2 * d.range) : Alike d x y ↔ x = y := by
  have hpos : 0 < d.timerResolution.toNat :=
    Nat.pos_of_ne_zero fun h => hres (UInt64.toNat_inj.mp h)
  unfold Alike
  rw [Nat.mod_eq_of_lt (hwide.scaled_lt hres hx), Nat.mod_eq_of_lt (hwide.scaled_lt hres hy)]
  exact ⟨fun heq => Nat.eq_of_mul_eq_mul_right hpos heq, fun heq => by rw [heq]⟩

theorem FirstGreatestEnd.mem (h : FirstGreatestEnd ms m) : m ∈ ms := by
  obtain ⟨before, after, hsplit, -, -⟩ := h
  rw [hsplit]
  exact List.mem_append_right _ List.mem_cons_self

/-- The end of one command, corrected or not, where scaling loses nothing. -/
theorem Wide.stop_iff (hwide : Wide d) (hres : d.timerResolution ≠ 0) (hstart : t₀ ≤ m.start)
    (hstop : m.stop ≤ t₁) (hwithin : t₁ < t₀ + d.range) :
    (if m.start % d.range < m.stop % d.range then
      Alike d (m.stop % d.range) (t₀ % d.range + (t₁ - t₀))
    else Alike d (m.stop % d.range + (d.range - 1)) (t₀ % d.range + (t₁ - t₀))) ↔
      (m.start < m.stop ∧ m.stop = t₁ ∧ t₀ % d.range + (t₁ - t₀) < d.range) ∨
      (m.start = t₀ ∧ m.stop = t₀ ∧ t₁ = t₀ + (d.range - 1)) := by
  have hle := m.le
  have hrange := Device.range_pos (d := d)
  have ht₀ := Nat.mod_lt t₀ hrange
  have hreading := Nat.mod_lt m.stop hrange
  split
  next hlt =>
    rw [hwide.alike_iff hres (by omega) (by omega)]
    constructor
    · intro heq
      have hround : t₀ % d.range + (t₁ - t₀) < d.range := by omega
      have hlast : m.stop % d.range = t₁ % d.range :=
        heq.trans (reading_of_lt (by omega) hround).symm
      refine .inl ⟨?_, eq_of_mod_eq (by omega) (by omega) (by omega) hwithin hlast, hround⟩
      refine Nat.lt_of_le_of_ne hle fun hsame => ?_
      rw [hsame] at hlt
      exact absurd hlt (Nat.lt_irrefl _)
    · rintro (⟨-, hlast, hround⟩ | ⟨hfirst, hlast, -⟩)
      · rw [hlast]
        exact reading_of_lt (by omega) hround
      · rw [hfirst, hlast] at hlt
        exact absurd hlt (Nat.lt_irrefl _)
  next hge =>
    rw [hwide.alike_iff hres (by omega) (by omega)]
    constructor
    · intro heq
      -- both sides count on from the readings to the latest end
      have hcounts : m.stop + (d.range - 1) ≡ t₁ [MOD d.range] := by
        calc m.stop + (d.range - 1) ≡ m.stop % d.range + (d.range - 1) [MOD d.range] :=
              (Nat.mod_modEq _ _).symm.add_right _
          _ = t₀ % d.range + (t₁ - t₀) := heq
          _ ≡ t₀ + (t₁ - t₀) [MOD d.range] := (Nat.mod_modEq _ _).add_right _
          _ = t₁ := by omega
      have hlast : m.stop + (d.range - 1) = t₁ :=
        eq_of_mod_eq (show t₁ ≤ m.stop + (d.range - 1) by omega) (by omega) (Nat.le_refl _)
          (by omega) hcounts
      exact .inr ⟨by omega, by omega, by omega⟩
    · rintro (⟨hsome, hlast, hround⟩ | ⟨-, hlast, hshort⟩)
      · have hs : m.start % d.range = t₀ % d.range + (m.start - t₀) :=
          reading_of_lt hstart (by omega)
        have he : m.stop % d.range = t₀ % d.range + (m.stop - t₀) :=
          reading_of_lt (by omega) (by omega)
        omega
      · rw [hlast]
        omega

/-- **When a command-buffer's times are right where scaling loses nothing.** -/
theorem fine_iff_of_wide (hspan : Span ms t₀ t₁) (hwide : Wide d) (hres : d.timerResolution ≠ 0) :
    Fine ms t₀ t₁ ↔ Plain ms t₀ t₁ := by
  have hrange := Device.range_pos (d := d)
  have ht₀ := Nat.mod_lt t₀ hrange
  have hwithin := hspan.within
  have hstart : ∀ m ∈ ms, (Alike d (m.start % d.range) (t₀ % d.range) ↔ m.start = t₀) := by
    intro m hm
    have hm₀ := hspan.earliest m hm
    have hm₁ := hspan.latest m hm
    have hmle := m.le
    have hreading := Nat.mod_lt m.start hrange
    rw [hwide.alike_iff hres (by omega) (by omega)]
    refine ⟨fun heq => ?_, fun heq => by rw [heq]⟩
    exact eq_of_mod_eq hm₀ (by omega) (Nat.le_refl _) (by omega) heq
  have hstop := fun m (hm : FirstGreatestEnd ms m) =>
    hwide.stop_iff hres (hspan.earliest m hm.mem) (hspan.latest m hm.mem) hwithin
  constructor
  · intro h
    exact ⟨fun m hm hleast => (hstart m hm).mp (h.start m hm hleast),
      fun m hm => (hstop m hm).mp (h.stop m hm)⟩
  · intro h
    refine ⟨?_, fun m hm hleast => (hstart m hm).mpr (h.start m hm hleast),
      fun m hm => (hstop m hm).mpr (h.stop m hm)⟩
    rw [Nat.div_eq_of_lt (hwide.scaled_lt hres (by omega)),
      Nat.div_eq_of_lt (hwide.scaled_lt hres (by omega))]

end UnifiedRuntime.LevelZero.Profiling
