import UnifiedRuntime.LevelZero.ProfilingInfo

/-!
# Who collects a recorded timestamp

The end of a recorded timestamp waits in the queue until a query of the event or the clearing of
the queue takes it to the event. Queries before that find a 0 there and leave it.

- `Written.run`: after the driver has written, the end is still in the queue, or it is at the
  event and corrected.
- `recorded_iff`: when the times are right, whoever collects the end.
- `profiling_times_iff`: the same, with the times of command-buffers.
-/

namespace UnifiedRuntime.LevelZero.Profiling

open Function (update_of_ne update_self)
open LevelZeroV2.Profiling (Device KernelTimestamp adjustEndEventTimestamp adjustEnd_global_iff)

variable {d : Device} {q : Queue} {e t₀ t₁ : Nat}

/-! ## Recorded timestamps -/

/-- What the queue `q` on `d` has of the event `e`, which is no command-buffer's. -/
structure Holds (d : Device) (e : Nat) (start endTime : UInt64) (recording : Option UInt64)
    (q : Queue) : Prop where
  device : q.device = d
  hasQueue : (q.events e).hasQueue = true
  commandData : (q.events e).commandData = none
  start : (q.events e).recordEventStartTimestamp = start
  endTime : (q.events e).recordEventEndTimestamp = endTime
  recording : q.endTimeRecordings e = recording

namespace Queue

/-- What a query changes: it collects a recording that the driver has written. -/
theorem query_cases (q : Queue) (e : Nat) (kernelTimestamp : Except Error KernelTimestamp)
    (propName : ProfilingInfo) :
    (q.urEventGetProfilingInfo e kernelTimestamp propName).2 = q ∨
      ∃ recording, q.endTimeRecordings e = some recording ∧
        (recording &&& q.device.getTimestampMask) * q.device.timerResolution ≠ 0 ∧
        (q.urEventGetProfilingInfo e kernelTimestamp propName).2 =
          q.collect e (q.recordedEnd e recording) := by
  have hrecorded : (q.recordedQuery e).2 = q ∨
      ∃ recording, q.endTimeRecordings e = some recording ∧
        (recording &&& q.device.getTimestampMask) * q.device.timerResolution ≠ 0 ∧
        (q.recordedQuery e).2 = q.collect e (q.recordedEnd e recording) := by
    unfold recordedQuery
    split
    next => exact .inl rfl
    next =>
      split
      next => exact .inl rfl
      next recording hrecording =>
        split
        next => exact .inl rfl
        next hwritten => exact .inr ⟨recording, hrecording, hwritten, rfl⟩
  unfold urEventGetProfilingInfo
  dsimp only
  split
  next => exact .inl rfl
  next =>
    split
    next =>
      cases propName with
      | commandQueued => exact .inl rfl
      | commandSubmit => exact .inl rfl
      | commandStart => exact hrecorded
      | commandEnd => exact hrecorded
      | other => exact .inl rfl
    next =>
      split
      next => exact .inl rfl
      next => exact .inl rfl
      next => exact .inl rfl

end Queue

variable {start endTime c₀ c₁ : UInt64} {recording : Option UInt64}

/-- Another queue with the same event, up to its end. -/
theorem Holds.of_event (h : Holds d e start endTime recording q) {q' : Queue} {w : UInt64}
    {recording' : Option UInt64} (hdevice : q'.device = q.device)
    (hevent : q'.events e = { q.events e with recordEventEndTimestamp := w })
    (hrecording : q'.endTimeRecordings e = recording') : Holds d e start w recording' q' := by
  refine ⟨hdevice.trans h.device, ?_, ?_, ?_, ?_, hrecording⟩
  · rw [hevent]
    exact h.hasQueue
  · rw [hevent]
    exact h.commandData
  · rw [hevent]
    exact h.start
  · rw [hevent]

theorem Holds.event_eq (h : Holds d e start endTime recording q) :
    q.events e = { q.events e with recordEventEndTimestamp := endTime } := by
  rw [← h.endTime]

theorem Holds.collect_other (h : Holds d e start endTime recording q) {e' : Nat} (hne : e ≠ e')
    (w : UInt64) : Holds d e start endTime recording (q.collect e' w) :=
  h.of_event rfl ((update_of_ne hne _ _).trans h.event_eq)
    ((update_of_ne hne _ _).trans h.recording)

theorem Holds.collect_self (h : Holds d e start endTime recording q) (w : UInt64) :
    Holds d e start w none (q.collect e w) :=
  h.of_event rfl (update_self _ _ _) (update_self _ _ _)

/-- What is recorded for `c₁` when the start is `start`. -/
def endFor (d : Device) (start c₁ : UInt64) : UInt64 :=
  adjustEndEventTimestamp start c₁ d.getTimestampMask d.timerResolution

theorem Holds.recordedEnd_eq (h : Holds d e start endTime recording q) (c₁ : UInt64) :
    q.recordedEnd e c₁ = endFor d start c₁ := by
  unfold Queue.recordedEnd endFor
  rw [h.start, h.device]

/-- Queries before the driver writes change nothing. -/
theorem Holds.early (h : Holds d e start 0 (some 0) q) {c : Queue.Call} (hc : Queue.IsQuery c) :
    Holds d e start 0 (some 0) (q.step c) := by
  cases c with
  | clear => exact absurd hc id
  | query e' kernelTimestamp propName =>
    show Holds d e start 0 (some 0) (q.urEventGetProfilingInfo e' kernelTimestamp propName).2
    obtain hsame | ⟨recording, hrecording, hwritten, hcollect⟩ :=
      q.query_cases e' kernelTimestamp propName
    · rw [hsame]
      exact h
    · rw [hcollect]
      refine h.collect_other ?_ _
      rintro rfl
      -- the entry is still the initial 0
      rw [h.recording] at hrecording
      obtain rfl := Option.some.inj hrecording
      rw [UInt64.zero_and, UInt64.zero_mul] at hwritten
      exact hwritten rfl

theorem Holds.early_run : ∀ (early : List Queue.Call) {q : Queue},
    Holds d e start 0 (some 0) q → (∀ c ∈ early, Queue.IsQuery c) →
      Holds d e start 0 (some 0) (early.foldl Queue.step q)
  | [], _, h, _ => h
  | c :: early, _, h, hall =>
    early_run early (h.early (hall c List.mem_cons_self)) fun c hc =>
      hall c (List.mem_cons_of_mem _ hc)

/-- The driver has written `c₁`, and it is collected or not. -/
def Written (d : Device) (e : Nat) (start c₁ : UInt64) (q : Queue) : Prop :=
  Holds d e start 0 (some c₁) q ∨ Holds d e start (endFor d start c₁) none q

/-- A query of any event, or the clearing of all, leaves the end or collects it. -/
theorem Written.step (h : Written d e start c₁ q) (c : Queue.Call) :
    Written d e start c₁ (q.step c) := by
  cases c with
  | query e' kernelTimestamp propName =>
    show Written d e start c₁ (q.urEventGetProfilingInfo e' kernelTimestamp propName).2
    obtain hsame | ⟨recording, hrecording, -, hcollect⟩ :=
      q.query_cases e' kernelTimestamp propName
    · rw [hsame]
      exact h
    · rw [hcollect]
      by_cases he : e = e'
      · subst he
        rcases h with h | h
        · rw [h.recording] at hrecording
          obtain rfl := Option.some.inj hrecording
          rw [h.recordedEnd_eq]
          exact .inr (h.collect_self _)
        · rw [h.recording] at hrecording
          exact absurd hrecording nofun
      · exact h.imp (fun h => h.collect_other he _) fun h => h.collect_other he _
  | clear =>
    rcases h with h | h
    · have hevent : (q.step .clear).events e =
          { q.events e with recordEventEndTimestamp := endFor d start c₁ } := by
        rw [← h.recordedEnd_eq]
        simp [Queue.step, Queue.clearEndTimeRecordings, h.recording]
      exact .inr (h.of_event rfl hevent rfl)
    · have hevent : (q.step .clear).events e = q.events e := by
        simp [Queue.step, Queue.clearEndTimeRecordings, h.recording]
      exact .inr (h.of_event rfl (hevent.trans h.event_eq) rfl)

theorem Written.run : ∀ (later : List Queue.Call) {q : Queue}, Written d e start c₁ q →
    Written d e start c₁ (later.foldl Queue.step q)
  | [], _, h => h
  | c :: later, _, h => run later (h.step c)

/-- A recording, whatever is asked early and collected later. -/
theorem written_recorded (hd : q.device = d) (hqueue : (q.events e).hasQueue = true)
    (hdata : (q.events e).commandData = none) (c₀ c₁ : UInt64) {early : List Queue.Call}
    (hearly : ∀ c ∈ early, Queue.IsQuery c) (later : List Queue.Call) :
    Written d e (d.globalTimestamp c₀) c₁ (q.recorded e c₀ c₁ early later) := by
  have hevent : (q.urEnqueueTimestampRecordingExp e c₀).events e =
      { q.events e with
        recordEventEndTimestamp := 0
        recordEventStartTimestamp := q.device.globalTimestamp c₀ } := update_self _ _ _
  have henqueued : Holds d e (d.globalTimestamp c₀) 0 (some 0)
      (q.urEnqueueTimestampRecordingExp e c₀) := by
    refine ⟨hd, ?_, ?_, ?_, ?_, update_self _ _ _⟩
    · rw [hevent]
      exact hqueue
    · rw [hevent]
      exact hdata
    · rw [hevent, ← hd]
    · rw [hevent]
  obtain ⟨hd', hqueue', hdata', hstart', hend', -⟩ := Holds.early_run early henqueued hearly
  exact Written.run later (.inl ⟨hd', hqueue', hdata', hstart', hend', update_self _ _ _⟩)

/-- What is reported as the submission: the start. -/
theorem Holds.submit (h : Holds d e start endTime recording q) (hstart : start ≠ 0)
    (kernelTimestamp : Except Error KernelTimestamp) :
    (q.urEventGetProfilingInfo e kernelTimestamp .commandSubmit).1 = .ok start := by
  have hts : (q.events e).isTimestamped = true := by
    unfold Event.isTimestamped
    rw [h.start]
    exact bne_iff_ne.mpr hstart
  unfold Queue.urEventGetProfilingInfo
  dsimp only
  rw [hts, h.hasQueue, h.start, Bool.not_true, Bool.and_false]
  rfl

/-- The start and the end are one query. -/
theorem Holds.query (h : Holds d e start endTime recording q) (hstart : start ≠ 0)
    (kernelTimestamp : Except Error KernelTimestamp) {propName : ProfilingInfo}
    (hprop : propName = .commandStart ∨ propName = .commandEnd) :
    (q.urEventGetProfilingInfo e kernelTimestamp propName).1 = (q.recordedQuery e).1 := by
  have hts : (q.events e).isTimestamped = true := by
    unfold Event.isTimestamped
    rw [h.start]
    exact bne_iff_ne.mpr hstart
  unfold Queue.urEventGetProfilingInfo
  dsimp only
  rw [hts, h.hasQueue, Bool.not_true, Bool.and_false]
  rcases hprop with rfl | rfl
  · rfl
  · rfl

theorem Holds.recordedQuery_pending (h : Holds d e start 0 (some c₁) q) :
    (q.recordedQuery e).1 =
      .ok (if (c₁ &&& d.getTimestampMask) * d.timerResolution = 0 then 0 else endFor d start c₁) := by
  unfold Queue.recordedQuery
  rw [if_neg (fun hne => hne h.endTime), h.recording, h.device]
  dsimp only
  split
  next => rfl
  next => rw [h.recordedEnd_eq]

theorem Holds.recordedQuery_collected (h : Holds d e start endTime none q) (hne : endTime ≠ 0) :
    (q.recordedQuery e).1 = .ok endTime := by
  unfold Queue.recordedQuery
  rw [h.endTime, if_pos hne]

/-- Without a start the event does not count as a recorded one. -/
theorem Holds.not_timestamped (h : Holds d e 0 endTime recording q) :
    ∃ error, (q.urEventGetProfilingInfo e (.error .unknown) .commandEnd).1 = .error error := by
  have hts : (q.events e).isTimestamped = false := by
    unfold Event.isTimestamped
    rw [h.start]
    rfl
  unfold Queue.urEventGetProfilingInfo
  dsimp only
  rw [hts, h.commandData]
  cases (q.events e).profilingEnabled with
  | false => exact ⟨_, rfl⟩
  | true => exact ⟨_, rfl⟩

section
variable (hres : d.timerResolution ≠ 0) (hd : q.device = d)
  (hqueue : (q.events e).hasQueue = true) (hdata : (q.events e).commandData = none)
  (ht₀ : d.ticks c₀ = t₀ % d.range) (ht₁ : d.ticks c₁ = t₁ % d.range) (hle : t₀ ≤ t₁)
  (hwithin : t₁ < t₀ + d.range) {early : List Queue.Call} (hearly : ∀ c ∈ early, Queue.IsQuery c)

include hres hd hqueue hdata ht₀ ht₁ hle hwithin hearly

/-- **When a recorded timestamp's times are right, whoever collects it**: the start is not 0, the
counter does not restart, and the scaled counters lose the same multiple of 2^64. The start is
what is reported as the submission. -/
theorem recorded_iff :
    (∀ later kernelTimestamp, TimesRight d t₀ t₁
        ((q.recorded e c₀ c₁ early later).urEventGetProfilingInfo e kernelTimestamp
          .commandSubmit).1
        ((q.recorded e c₀ c₁ early later).urEventGetProfilingInfo e kernelTimestamp
          .commandEnd).1) ↔
      d.globalTimestamp c₀ ≠ 0 ∧ d.ticks c₀ ≤ d.ticks c₁ ∧
        d.time c₀ / 2 ^ 64 = d.time c₁ / 2 ^ 64 := by
  have hglobal : (d.globalTimestamp c₀).toNat =
      t₀ % d.range * d.timerResolution.toNat % 2 ^ 64 := by
    unfold Device.globalTimestamp
    rw [Device.scaled_toNat]
    unfold Device.time
    rw [ht₀]
  have helapsed : d.elapsed c₀ c₁ = t₁ - t₀ := by
    unfold Device.elapsed
    rw [ht₀, ht₁, Counter.elapsed_mod hle hwithin]
  have hright := @adjustEnd_global_iff d c₀ c₁ hres
  unfold LevelZeroV2.Profiling.TimesRight at hright
  rw [helapsed] at hright
  have hwritten := written_recorded hd hqueue hdata c₀ c₁ hearly
  constructor
  · intro hall
    have hpending : Holds d e (d.globalTimestamp c₀) 0 (some c₁) (q.recorded e c₀ c₁ early []) := by
      rcases hwritten [] with h | h
      · exact h
      · have hsome : (q.recorded e c₀ c₁ early []).endTimeRecordings e = some c₁ :=
          update_self _ _ _
        rw [h.recording] at hsome
        exact absurd hsome nofun
    have hstart : d.globalTimestamp c₀ ≠ 0 := by
      intro hzero
      rw [hzero] at hpending
      obtain ⟨error, herror⟩ := hpending.not_timestamped
      obtain ⟨s, w, -, hw, -, -⟩ := hall [] (.error .unknown)
      rw [herror] at hw
      exact absurd hw nofun
    obtain ⟨s, w, hs, hw, -, hwr⟩ := hall [] (.error .unknown)
    rw [hpending.submit hstart] at hs
    rw [hpending.query hstart _ (.inr rfl), hpending.recordedQuery_pending] at hw
    obtain rfl := Except.ok.inj hs
    obtain rfl := Except.ok.inj hw
    refine ⟨hstart, hright.mp ?_⟩
    split at hwr
    next =>
      -- the start is not 0, and so the end is not
      have hpos : (d.globalTimestamp c₀).toNat ≠ 0 := fun h => hstart (UInt64.toNat_inj.mp h)
      rw [UInt64.toNat_zero] at hwr
      omega
    next => exact hwr
  · rintro ⟨hstart, hticks, hdiv⟩ later kernelTimestamp
    have hend := hright.mpr ⟨hticks, hdiv⟩
    have hpos : (d.globalTimestamp c₀).toNat ≠ 0 := fun h => hstart (UInt64.toNat_inj.mp h)
    have hne : endFor d (d.globalTimestamp c₀) c₁ ≠ 0 := by
      intro hzero
      unfold endFor at hzero
      rw [hzero, UInt64.toNat_zero] at hend
      omega
    refine ⟨d.globalTimestamp c₀, endFor d (d.globalTimestamp c₀) c₁, ?_, ?_, hglobal, hend⟩
    · rcases hwritten later with h | h
      · exact h.submit hstart _
      · exact h.submit hstart _
    · rcases hwritten later with h | h
      · rw [h.query hstart _ (.inr rfl), h.recordedQuery_pending, if_neg]
        intro hzero
        have htime : d.time c₀ ≤ d.time c₁ := Nat.mul_le_mul_right _ hticks
        have hscaled := Device.scaled_toNat (d := d) c₁
        rw [hzero, UInt64.toNat_zero] at hscaled
        have hscaled₀ := Device.scaled_toNat (d := d) c₀
        change (d.globalTimestamp c₀).toNat = _ at hscaled₀
        omega
      · rw [h.query hstart _ (.inr rfl), h.recordedQuery_collected hne]

/-- The query of the start gives the end. The two are right as the times of the recording only if
no time went by. -/
theorem recorded_start_iff :
    (∀ later kernelTimestamp, TimesRight d t₀ t₁
        ((q.recorded e c₀ c₁ early later).urEventGetProfilingInfo e kernelTimestamp
          .commandStart).1
        ((q.recorded e c₀ c₁ early later).urEventGetProfilingInfo e kernelTimestamp
          .commandEnd).1) ↔
      d.globalTimestamp c₀ ≠ 0 ∧ t₀ = t₁ := by
  have hpos : 0 < d.timerResolution.toNat :=
    Nat.pos_of_ne_zero fun h => hres (UInt64.toNat_inj.mp h)
  have hwritten := written_recorded hd hqueue hdata c₀ c₁ hearly
  have hsame : d.globalTimestamp c₀ ≠ 0 → ∀ later kernelTimestamp,
      ((q.recorded e c₀ c₁ early later).urEventGetProfilingInfo e kernelTimestamp
          .commandStart).1 =
        ((q.recorded e c₀ c₁ early later).urEventGetProfilingInfo e kernelTimestamp
          .commandEnd).1 := by
    intro hstart later kernelTimestamp
    rcases hwritten later with h | h
    · rw [h.query hstart _ (.inl rfl), h.query hstart _ (.inr rfl)]
    · rw [h.query hstart _ (.inl rfl), h.query hstart _ (.inr rfl)]
  constructor
  · intro hall
    have hstart : d.globalTimestamp c₀ ≠ 0 := by
      intro hzero
      rw [hzero] at hwritten
      obtain ⟨s, w, -, hw, -⟩ := hall [] (.error .unknown)
      obtain ⟨error, herror⟩ : ∃ error, ((q.recorded e c₀ c₁ early []).urEventGetProfilingInfo e
          (.error .unknown) .commandEnd).1 = .error error := by
        rcases hwritten [] with h | h
        · exact h.not_timestamped
        · exact h.not_timestamped
      rw [herror] at hw
      exact absurd hw nofun
    obtain ⟨s, w, hs, hw, -, hwr⟩ := hall [] (.error .unknown)
    rw [hsame hstart, hw] at hs
    obtain rfl := Except.ok.inj hs
    have hnone : t₁ - t₀ = 0 := by
      by_contra hne
      have := Nat.mul_pos (Nat.pos_of_ne_zero hne) hpos
      omega
    exact ⟨hstart, by omega⟩
  · rintro ⟨hstart, rfl⟩ later kernelTimestamp
    have hticks : d.ticks c₀ = d.ticks c₁ := ht₀.trans ht₁.symm
    have htime : d.time c₀ = d.time c₁ := by
      unfold Device.time
      rw [hticks]
    have hright := (recorded_iff hres hd hqueue hdata ht₀ ht₁ hle hwithin hearly).mpr
      ⟨hstart, Nat.le_of_eq hticks, by rw [htime]⟩ later kernelTimestamp
    obtain ⟨s, w, -, hw, hsr, hwr⟩ := hright
    rw [hsame hstart, hw]
    rw [Nat.sub_self, Nat.zero_mul] at hwr
    exact ⟨w, w, rfl, rfl, hwr.trans hsr, by rw [Nat.sub_self, Nat.zero_mul, Nat.add_zero]⟩

end

/-- **The profiling times are right exactly** if, for a command-buffer, its counters are `Fine`,
which is `Plain` where scaling loses nothing, and for a recorded timestamp, whoever collects it, if
its start is not 0, the counter does not restart, and scaling loses the same at both ends. -/
theorem profiling_times_iff (d : Device) (hres : d.timerResolution ≠ 0) (t₀ t₁ : Nat) :
    (∀ (first : Measured d) rest (q : Queue) e kernelTimestamp, Span (first :: rest) t₀ t₁ → q.device = d →
      IsCommandBuffer (q.events e) first rest →
        (TimesRight d t₀ t₁ (q.urEventGetProfilingInfo e kernelTimestamp .commandStart).1
            (q.urEventGetProfilingInfo e kernelTimestamp .commandEnd).1 ↔
          Fine (first :: rest) t₀ t₁) ∧
        (Wide d → (Fine (first :: rest) t₀ t₁ ↔ Plain (first :: rest) t₀ t₁))) ∧
    (∀ (q : Queue) e c₀ c₁ early, q.device = d → (q.events e).hasQueue = true →
      (q.events e).commandData = none → d.ticks c₀ = t₀ % d.range → d.ticks c₁ = t₁ % d.range →
      t₀ ≤ t₁ → t₁ < t₀ + d.range → (∀ c ∈ early, Queue.IsQuery c) →
        let times := fun propName later kernelTimestamp =>
          ((q.recorded e c₀ c₁ early later).urEventGetProfilingInfo e kernelTimestamp propName).1
        ((∀ later kernelTimestamp, TimesRight d t₀ t₁ (times .commandSubmit later kernelTimestamp)
            (times .commandEnd later kernelTimestamp)) ↔
          d.globalTimestamp c₀ ≠ 0 ∧ d.ticks c₀ ≤ d.ticks c₁ ∧
            d.time c₀ / 2 ^ 64 = d.time c₁ / 2 ^ 64) ∧
        ((∀ later kernelTimestamp, TimesRight d t₀ t₁ (times .commandStart later kernelTimestamp)
            (times .commandEnd later kernelTimestamp)) ↔
          d.globalTimestamp c₀ ≠ 0 ∧ t₀ = t₁)) := by
  constructor
  · intro first rest q e kernelTimestamp hspan hd hevent
    exact ⟨command_buffer_iff hevent hd kernelTimestamp,
      fun hwide => fine_iff_of_wide hspan hwide hres⟩
  · intro q e c₀ c₁ early hd hqueue hdata ht₀ ht₁ hle hwithin hearly
    exact ⟨recorded_iff hres hd hqueue hdata ht₀ ht₁ hle hwithin hearly,
      recorded_start_iff hres hd hqueue hdata ht₀ ht₁ hle hwithin hearly⟩

/-! ## With 32 valid bits and a tick every 83 nanoseconds -/

open LevelZeroV2.Profiling (gpu)

/-- A queue with the events of one command-buffer. -/
def buffered (first : Measured gpu) (rest : List (Measured gpu)) : Queue where
  device := gpu
  events := fun _ => ⟨true, true, some (some ⟨first.counters, rest.map Measured.counters⟩), 0, 0⟩
  endTimeRecordings := fun _ => none

/-- A queue with profiling. -/
def idle : Queue := ⟨gpu, fun _ => ⟨true, true, none, 0, 0⟩, fun _ => none⟩

def longer : Measured gpu := ⟨⟨100, 300⟩, 100, 300, by decide, by decide, by decide⟩

def shorter : Measured gpu := ⟨⟨150, 200⟩, 150, 200, by decide, by decide, by decide⟩

/-- Two commands of which one lies within the other, and a recording that the queue collects. -/
theorem profiling_times_iff_forward :
    TimesRight gpu 100 300
      ((buffered shorter [longer]).urEventGetProfilingInfo 0 (.error .unknown) .commandStart).1
      ((buffered shorter [longer]).urEventGetProfilingInfo 0 (.error .unknown) .commandEnd).1 ∧
    TimesRight gpu 100 300
      ((idle.recorded 0 100 300 [] [.clear]).urEventGetProfilingInfo 0 (.error .unknown)
        .commandSubmit).1
      ((idle.recorded 0 100 300 [] [.clear]).urEventGetProfilingInfo 0 (.error .unknown)
        .commandEnd).1 := by
  obtain ⟨hbuffer, hrecorded⟩ := profiling_times_iff gpu (by decide) 100 300
  constructor
  · have hspan : Span [shorter, longer] 100 300 :=
      ⟨by decide, ⟨longer, by simp, rfl⟩, by decide, ⟨longer, by simp, rfl⟩, by decide⟩
    obtain ⟨hfine, hplain⟩ := hbuffer shorter [longer] (buffered shorter [longer]) 0
      (.error .unknown) hspan rfl ⟨rfl, rfl, rfl⟩
    refine hfine.mpr ((hplain (by unfold Wide; decide)).mpr ⟨?_, ?_⟩)
    · intro m hm hleast
      rcases List.mem_cons.mp hm with rfl | hm
      · exact absurd (hleast longer (by simp)) (by decide)
      · rw [List.mem_singleton.mp hm]
        rfl
    · intro m hm
      have hlast : FirstGreatestEnd [shorter, longer] longer := ⟨[shorter], [], rfl, by decide, nofun⟩
      rw [hm.unique hlast]
      exact .inl ⟨by decide, rfl, by decide⟩
  · obtain ⟨hiff, -⟩ := hrecorded idle 0 100 300 [] rfl rfl rfl rfl rfl (by decide) (by decide)
      nofun
    exact hiff.mpr ⟨by decide, by decide, by decide⟩ [.clear] (.error .unknown)

/-- The counter restarts 10 ticks after the start. -/
def restarting : Measured gpu :=
  ⟨⟨0xfffffff6, 5⟩, 0xfffffff6, 2 ^ 32 + 5, by decide, by decide, by decide⟩

/-- A command that takes less than a tick. -/
def instant : Measured gpu := ⟨⟨100, 100⟩, 100, 100, by decide, by decide, by decide⟩

/-- A command-buffer of one command: over a restart it ends one tick early, and one that takes
less than a tick ends a round less one tick late. A recording over a restart ends one tick
early, too. -/
theorem profiling_times_wrong :
    (Span [restarting] 0xfffffff6 (2 ^ 32 + 5) ∧
      ¬ TimesRight gpu 0xfffffff6 (2 ^ 32 + 5)
        ((buffered restarting []).urEventGetProfilingInfo 0 (.error .unknown) .commandStart).1
        ((buffered restarting []).urEventGetProfilingInfo 0 (.error .unknown) .commandEnd).1) ∧
    (Span [instant] 100 100 ∧
      ¬ TimesRight gpu 100 100
        ((buffered instant []).urEventGetProfilingInfo 0 (.error .unknown) .commandStart).1
        ((buffered instant []).urEventGetProfilingInfo 0 (.error .unknown) .commandEnd).1) ∧
    ¬ TimesRight gpu 0xfffffff6 (2 ^ 32 + 5)
      ((idle.recorded 0 0xfffffff6 5 [] []).urEventGetProfilingInfo 0 (.error .unknown)
        .commandSubmit).1
      ((idle.recorded 0 0xfffffff6 5 [] []).urEventGetProfilingInfo 0 (.error .unknown)
        .commandEnd).1 := by
  have hwrong : ∀ {t₀ t₁ : Nat} {startTime endTime : Except Error UInt64} (s w : UInt64),
      startTime = .ok s → endTime = .ok w →
        w.toNat ≠ s.toNat + (t₁ - t₀) * gpu.timerResolution.toNat →
          ¬ TimesRight gpu t₀ t₁ startTime endTime := by
    intro t₀ t₁ startTime endTime s w hs hw hne ⟨s', w', hs', hw', _, hright⟩
    rw [hs] at hs'
    rw [hw] at hw'
    obtain rfl := Except.ok.inj hs'
    obtain rfl := Except.ok.inj hw'
    exact hne hright
  refine ⟨⟨⟨by decide, ⟨restarting, by simp, rfl⟩, by decide, ⟨restarting, by simp, rfl⟩, by decide⟩,
    hwrong _ _ rfl rfl (by decide)⟩,
    ⟨⟨by decide, ⟨instant, by simp, rfl⟩, by decide, ⟨instant, by simp, rfl⟩, by decide⟩,
    hwrong _ _ rfl rfl (by decide)⟩, ?_⟩
  refine hwrong (0xfffffff6 * 83) (0xfffffff6 * 83 + 14 * 83) rfl ?_ (by decide)
  rfl

end UnifiedRuntime.LevelZero.Profiling
