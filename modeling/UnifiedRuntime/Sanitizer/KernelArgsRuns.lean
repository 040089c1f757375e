import UnifiedRuntime.Sanitizer.KernelArgs

/-!
# Which argument is in force

The maps of `KernelInfo` have what was recorded last for each index and each kind of
argument (`Recorded`), the driver what it was given last. The last writer wins at a
launch exactly when these agree: when for every index the last call of a kind that is
recorded is the last call of all (`last_writer_wins`).
-/

namespace UnifiedRuntime.Sanitizer

open KernelArgs

/-! ## The last call -/

theorem lastCall_concat (P : ArgCall → Bool) (calls : List ArgCall) (c : ArgCall) :
    lastCall P (calls ++ [c]) = if P c then some c else lastCall P calls := by
  unfold lastCall
  split <;> simp_all

theorem lastRecorded_concat {α : Type} (f : ArgCall → Option α) (calls : List ArgCall)
    (c : ArgCall) (index : Nat) : lastRecorded f (calls ++ [c]) index =
      if c.argIndex = index ∧ (f c).isSome then f c else lastRecorded f calls index := by
  unfold lastRecorded
  rw [lastCall_concat]
  by_cases hi : c.argIndex = index <;> by_cases hf : (f c).isSome = true <;> simp [hi, hf]

/-- A call about another index changes nothing. -/
theorem lastRecorded_concat_ne {α : Type} (f : ArgCall → Option α) (calls : List ArgCall)
    {c : ArgCall} {index : Nat} (h : c.argIndex ≠ index) :
    lastRecorded f (calls ++ [c]) index = lastRecorded f calls index := by
  rw [lastRecorded_concat, if_neg fun hc => h hc.1]

theorem lastRecorded_concat_some {α : Type} {f : ArgCall → Option α} (calls : List ArgCall)
    {c : ArgCall} {a : α} (h : f c = some a) :
    lastRecorded f (calls ++ [c]) c.argIndex = some a := by
  rw [lastRecorded_concat, if_pos ⟨rfl, by rw [h]; rfl⟩, h]

theorem lastRecorded_concat_none {α : Type} {f : ArgCall → Option α} (calls : List ArgCall)
    {c : ArgCall} (h : f c = none) (index : Nat) :
    lastRecorded f (calls ++ [c]) index = lastRecorded f calls index := by
  rw [lastRecorded_concat, if_neg fun hc => by rw [h] at hc; exact absurd hc.2 (by simp)]

/-! ## What is recorded -/

namespace ArgCall

def pointerOf (c : ArgCall) : Option Nat :=
  match c.arg with
  | .pointer p => some p
  | .value _ _ | .memObj _ | .localMem _ => none

def localOf (c : ArgCall) : Option Nat :=
  match c.arg with
  | .localMem argSize => some argSize
  | .value _ _ | .memObj _ | .pointer _ => none

end ArgCall

/-- What the maps and the driver have after some calls. -/
structure Recorded (m : KernelSetup) (s : KernelArgs) (calls : List ArgCall) : Prop where
  buffers : ∀ i, s.bufferArgs.lookup i = lastRecorded ArgCall.buffer calls i
  pointers : m.layer = .asan → m.detectKernelArguments = true →
    ∀ i, s.pointerArgs.lookup i = lastRecorded ArgCall.pointerOf calls i
  locals : m.layer = .asan → ∀ i, s.localArgs.lookup i
    = (lastRecorded ArgCall.localOf calls i).map fun n => ⟨n, getSizeAndRedzoneSizeForLocal n⟩
  /-- Where no buffer was ever recorded the driver has what it was given last. -/
  args : ∀ i, ¬ m.IsHidden i → s.bufferArgs.lookup i = none →
    ∀ x, lastSetting calls i = some x → ∀ l, s.args i = x.driverArg m l

theorem Recorded.init (m : KernelSetup) : Recorded m KernelArgs.init [] where
  buffers := fun _ => rfl
  pointers := fun _ _ _ => rfl
  locals := fun _ _ => rfl
  args := fun _ _ _ _ h => by cases h

section SetArg

variable {m : KernelSetup} {s : KernelArgs} {calls : List ArgCall} {c : ArgCall}

/-- An argument that is given to the driver. -/
theorem args_pfnSetArg (s : KernelArgs) (index : Nat) (arg : DriverArg) (accepted : Bool) (i : Nat) :
    (s.pfnSetArg index arg accepted).args i
      = if accepted = true ∧ i = index then some arg else s.args i := by
  unfold pfnSetArg
  by_cases ha : accepted = true
  · by_cases hi : i = index
    · subst hi
      simp [ha]
    · simp [ha, hi]
  · simp [ha]

theorem pfnSetArg_maps (s : KernelArgs) (index : Nat) (arg : DriverArg) (accepted : Bool) :
    (s.pfnSetArg index arg accepted).bufferArgs = s.bufferArgs ∧
    (s.pfnSetArg index arg accepted).pointerArgs = s.pointerArgs ∧
    (s.pfnSetArg index arg accepted).localArgs = s.localArgs := by
  unfold pfnSetArg
  split <;> exact ⟨rfl, rfl, rfl⟩

/-- A call with a buffer of the layer records it and stops there. -/
theorem setArg_buffer {b : Nat} (h : c.buffer = some b) :
    s.setArg m c = { s with bufferArgs := s.bufferArgs.insert c.argIndex b } := by
  unfold KernelArgs.setArg
  unfold ArgCall.buffer at h
  cases ha : c.arg with
  | value argSize bytes =>
    rw [ha] at h
    simp only [urKernelSetArgValue]
    simp only at h
    rw [h]
  | memObj handle =>
    rw [ha] at h
    simp only [urKernelSetArgMemObj]
    simp only at h
    rw [h]
  | localMem argSize | pointer p =>
    rw [ha] at h
    cases h

/-- The argument of a call without a buffer, as the driver is given it. -/
def ArgCall.direct (m : KernelSetup) (c : ArgCall) : DriverArg :=
  match c.arg with
  | .value argSize bytes => .value argSize bytes
  | .memObj handle => .memObj handle
  | .localMem argSize =>
    match m.layer with
    | .asan => .localMem (getSizeAndRedzoneSizeForLocal argSize)
    | .msan => .localMem argSize
  | .pointer p => .pointer p

theorem setting_direct (hb : c.buffer = none) (x : Setting) (hx : c.setting = some x) :
    c.accepted = true ∧ ∀ l, x.driverArg m l = some (c.direct m) := by
  unfold ArgCall.setting at hx
  rw [hb] at hx
  obtain ⟨hacc, hx⟩ := Option.ite_none_right_eq_some.mp hx
  refine ⟨hacc, fun l => ?_⟩
  unfold ArgCall.direct
  cases ha : c.arg with
  | localMem argSize =>
    rw [ha] at hx
    obtain rfl := Option.some.inj hx
    unfold Setting.driverArg
    cases m.layer <;> rfl
  | value argSize bytes | memObj handle | pointer p =>
    rw [ha] at hx
    obtain rfl := Option.some.inj hx
    rfl

/-- A call without a buffer is passed on; ASan has recorded pointers and local memory. -/
theorem setArg_direct (hb : c.buffer = none) :
    (∀ i, (s.setArg m c).args i
      = if c.accepted = true ∧ i = c.argIndex then some (c.direct m) else s.args i) ∧
    (s.setArg m c).bufferArgs = s.bufferArgs ∧
    (m.layer = .asan → m.detectKernelArguments = true → (s.setArg m c).pointerArgs
      = c.pointerOf.elim s.pointerArgs fun p => s.pointerArgs.insert c.argIndex p) ∧
    (m.layer = .asan → (s.setArg m c).localArgs = c.localOf.elim s.localArgs fun n =>
      s.localArgs.insert c.argIndex ⟨n, getSizeAndRedzoneSizeForLocal n⟩) := by
  unfold KernelArgs.setArg ArgCall.pointerOf ArgCall.localOf ArgCall.direct
  unfold ArgCall.buffer at hb
  cases ha : c.arg with
  | value argSize bytes =>
    rw [ha] at hb
    simp only [urKernelSetArgValue, hb]
    obtain ⟨h1, h2, h3⟩ := pfnSetArg_maps s c.argIndex (.value argSize bytes) c.accepted
    exact ⟨args_pfnSetArg _ _ _ _, h1, fun _ _ => h2, fun _ => h3⟩
  | memObj handle =>
    rw [ha] at hb
    simp only [urKernelSetArgMemObj, hb]
    obtain ⟨h1, h2, h3⟩ := pfnSetArg_maps s c.argIndex (.memObj handle) c.accepted
    exact ⟨args_pfnSetArg _ _ _ _, h1, fun _ _ => h2, fun _ => h3⟩
  | localMem argSize =>
    simp only [urKernelSetArgLocal]
    cases hl : m.layer with
    | asan =>
      exact ⟨args_pfnSetArg _ _ _ _, (pfnSetArg_maps _ _ _ _).1,
        fun _ _ => (pfnSetArg_maps _ _ _ _).2.1, fun _ => (pfnSetArg_maps _ _ _ _).2.2⟩
    | msan =>
      obtain ⟨h1, -, -⟩ := pfnSetArg_maps s c.argIndex (.localMem argSize) c.accepted
      exact ⟨args_pfnSetArg _ _ _ _, h1, fun h => by simp at h, fun h => by simp at h⟩
  | pointer p =>
    simp only [urKernelSetArgPointer]
    cases hl : m.layer with
    | asan =>
      cases hd : m.detectKernelArguments with
      | true =>
        exact ⟨args_pfnSetArg _ _ _ _, (pfnSetArg_maps _ _ _ _).1,
          fun _ _ => (pfnSetArg_maps _ _ _ _).2.1, fun _ => (pfnSetArg_maps _ _ _ _).2.2⟩
      | false =>
        obtain ⟨h1, -, h3⟩ := pfnSetArg_maps s c.argIndex (.pointer p) c.accepted
        exact ⟨args_pfnSetArg _ _ _ _, h1, fun _ h => by simp at h, fun _ => h3⟩
    | msan =>
      obtain ⟨h1, -, -⟩ := pfnSetArg_maps s c.argIndex (.pointer p) c.accepted
      exact ⟨args_pfnSetArg _ _ _ _, h1, fun h => by simp at h, fun h => by simp at h⟩

theorem pointerOf_of_buffer {b : Nat} (h : c.buffer = some b) : c.pointerOf = none ∧
    c.localOf = none := by
  unfold ArgCall.buffer at h
  unfold ArgCall.pointerOf ArgCall.localOf
  cases ha : c.arg with
  | value argSize bytes | memObj handle => exact ⟨rfl, rfl⟩
  | localMem argSize | pointer p =>
    rw [ha] at h
    cases h

/-- A map that is changed like its calls are recorded. -/
theorem lookup_concat {α β : Type} {f : ArgCall → Option α} {g : α → β}
    {l l' : AList fun _ : Nat => β} (h : ∀ i, l.lookup i = (lastRecorded f calls i).map g)
    (hl' : l' = (f c).elim l fun a => l.insert c.argIndex (g a)) (i : Nat) :
    l'.lookup i = (lastRecorded f (calls ++ [c]) i).map g := by
  subst hl'
  cases hf : f c with
  | none =>
    rw [lastRecorded_concat_none calls hf]
    exact h i
  | some a =>
    by_cases hi : i = c.argIndex
    · subst hi
      rw [lastRecorded_concat_some calls hf]
      exact AList.lookup_insert l
    · rw [lastRecorded_concat_ne f calls (Ne.symm hi), ← h i]
      exact AList.lookup_insert_ne hi

theorem Recorded.setArg (h : Recorded m s calls) (c : ArgCall) :
    Recorded m (s.setArg m c) (calls ++ [c]) := by
  have hid : ∀ {f : ArgCall → Option Nat} {l : AList fun _ : Nat => Nat},
      (∀ i, l.lookup i = lastRecorded f calls i) →
      ∀ i, l.lookup i = (lastRecorded f calls i).map id := fun hl i => by
    rw [hl i, Option.map_id, id]
  cases hb : c.buffer with
  | some b =>
    obtain ⟨hp, hloc⟩ := pointerOf_of_buffer hb
    rw [setArg_buffer hb]
    refine ⟨fun i => ?_, fun hm hd i => ?_, fun hm i => ?_, fun i hh hnone x hx l => ?_⟩
    · have hins : s.bufferArgs.insert c.argIndex b
          = c.buffer.elim s.bufferArgs fun a => s.bufferArgs.insert c.argIndex (id a) := by
        rw [hb]
        rfl
      have hl := lookup_concat (hid h.buffers) hins i
      rwa [Option.map_id] at hl
    · rw [lastRecorded_concat_none calls hp]
      exact h.pointers hm hd i
    · rw [lastRecorded_concat_none calls hloc]
      exact h.locals hm i
    · by_cases hi : i = c.argIndex
      · subst hi
        rw [AList.lookup_insert] at hnone
        cases hnone
      · rw [AList.lookup_insert_ne hi] at hnone
        rw [lastSetting, lastRecorded_concat_ne _ calls (Ne.symm hi)] at hx
        exact h.args i hh hnone x hx l
  | none =>
    obtain ⟨hargs, hbuf, hpo, hlo⟩ := setArg_direct (m := m) (s := s) hb
    refine ⟨fun i => ?_, fun hm hd i => ?_, fun hm i => ?_, fun i hh hnone x hx l => ?_⟩
    · rw [hbuf, lastRecorded_concat_none calls hb]
      exact h.buffers i
    · have hl := lookup_concat (g := id) (hid (h.pointers hm hd)) (hpo hm hd) i
      rwa [Option.map_id] at hl
    · exact lookup_concat (h.locals hm) (hlo hm) i
    · rw [hbuf] at hnone
      rw [hargs i]
      rw [lastSetting, lastRecorded_concat] at hx
      by_cases hc : c.argIndex = i ∧ c.setting.isSome = true
      · rw [if_pos hc] at hx
        obtain ⟨hacc, hdirect⟩ := setting_direct (m := m) hb x hx
        rw [if_pos ⟨hacc, hc.1.symm⟩, hdirect l]
      · rw [if_neg hc] at hx
        have hno : ¬ (c.accepted = true ∧ i = c.argIndex) := by
          rintro ⟨hacc, rfl⟩
          refine hc ⟨rfl, ?_⟩
          unfold ArgCall.setting
          rw [hb]
          simp only [hacc, if_true]
          cases c.arg <;> rfl
        rw [if_neg hno]
        exact h.args i hh hnone x hx l

end SetArg

/-! ## Launches -/

section Launch

variable {m : KernelSetup} {s : KernelArgs} {calls : List ArgCall} {l : LaunchEnv}

theorem mem_pairs {β : Type} (a : AList fun _ : Nat => β) (x : Nat × β) :
    x ∈ pairs a ↔ a.lookup x.1 = some x.2 := by
  unfold pairs
  rw [List.mem_map]
  constructor
  · rintro ⟨e, he, rfl⟩
    exact AList.mem_lookup_iff.mpr he
  · intro h
    exact ⟨⟨x.1, x.2⟩, AList.mem_lookup_iff.mp h, rfl⟩

theorem not_mem_pairs {β : Type} {a : AList fun _ : Nat => β} {i : Nat}
    (h : a.lookup i = none) : i ∉ (pairs a).map Prod.fst := by
  intro hin
  obtain ⟨e, he, rfl⟩ := List.mem_map.mp hin
  rw [(mem_pairs _ _).mp he] at h
  cases h

theorem pairs_nodup {β : Type} (a : AList fun _ : Nat => β) : ((pairs a).map Prod.fst).Nodup := by
  unfold pairs
  rw [List.map_map]
  exact a.keys_nodup

/-- The loop changes the arguments of its buffers only. -/
theorem setBuffers_ne (l : LaunchEnv) (es : List (Nat × Nat)) (args : Nat → Option DriverArg)
    {i : Nat} (hi : i ∉ es.map Prod.fst) : (setBuffers l es args).1 i = args i := by
  induction es generalizing args with
  | nil => rfl
  | cons e rest ih =>
    rw [List.map_cons, List.mem_cons, not_or] at hi
    unfold setBuffers
    split
    · rfl
    · rw [ih _ hi.2]
      split
      · exact Function.update_of_ne hi.1 ..
      · rfl

/-- A loop without errors sets every buffer whose pointer the driver accepts. -/
theorem setBuffers_mem (es : List (Nat × Nat)) (hes : (es.map Prod.fst).Nodup)
    (args : Nat → Option DriverArg) (hdone : (setBuffers l es args).2 = true) {i b : Nat}
    (hi : (i, b) ∈ es) : (setBuffers l es args).1 i
      = if l.accepts i = true then (l.getHandle b).map .pointer else args i := by
  induction es generalizing args with
  | nil => cases hi
  | cons e rest ih =>
    obtain ⟨index, b'⟩ := e
    rw [List.map_cons, List.nodup_cons] at hes
    unfold setBuffers at hdone ⊢
    cases hh : l.getHandle b' with
    | none =>
      rw [hh] at hdone
      cases hdone
    | some p =>
      rw [hh] at hdone
      rcases List.mem_cons.mp hi with he | hrest
      · cases he
        rw [setBuffers_ne l rest _ hes.1, hh]
        split
        · exact Function.update_self ..
        · rfl
      · -- the rest does not set the index again
        have hne : i ≠ index := by
          rintro rfl
          exact hes.1 (List.mem_map.mpr ⟨(i, b), hrest, rfl⟩)
        rw [ih hes.2 _ hdone hrest]
        split
        · rfl
        · split
          · exact Function.update_of_ne hne ..
          · rfl

/-- What `prepareLaunch` leaves of the arguments. -/
structure LaunchArgs (m : KernelSetup) (s : KernelArgs) (l : LaunchEnv) (r : Prepared) : Prop where
  maps : r.state.bufferArgs = s.bufferArgs ∧ r.state.pointerArgs = s.pointerArgs ∧
    r.state.localArgs = s.localArgs
  args : (∀ i, ¬ m.IsHidden i → r.state.args i = s.args i) ∨
    ∀ i, ¬ m.IsHidden i → r.state.args i = (setBuffers l (pairs s.bufferArgs) s.args).1 i
  launched : r.launched = true → (setBuffers l (pairs s.bufferArgs) s.args).2 = true ∧
    (∀ i, ¬ m.IsHidden i → r.state.args i = (setBuffers l (pairs s.bufferArgs) s.args).1 i) ∧
    r.buffers = pairs s.bufferArgs ∧
    (m.layer = .asan → m.isInstrumented = true → r.counted = pairs s.localArgs)
  validated : r.validated = s.pointersToValidate m
  buffers : r.buffers = [] ∨ r.buffers = pairs s.bufferArgs
  counted : r.counted = [] ∨ (m.layer = .asan ∧ m.isInstrumented = true ∧
    r.counted = pairs s.localArgs)

theorem prepareLaunch_spec (m : KernelSetup) (s : KernelArgs) (l : LaunchEnv) :
    LaunchArgs m s l (s.prepareLaunch m l) := by
  unfold prepareLaunch
  simp only
  split
  · exact ⟨⟨rfl, rfl, rfl⟩, .inl fun _ _ => rfl, fun h => (by cases h), rfl, .inl rfl, .inl rfl⟩
  · split
    · exact ⟨⟨rfl, rfl, rfl⟩, .inr fun _ _ => rfl, fun h => (by cases h), rfl, .inr rfl,
      .inl rfl⟩
    · next hdone =>
      have hd : (setBuffers l (pairs s.bufferArgs) s.args).2 = true := by simpa using hdone
      split
      · next hi =>
        have hno : m.isInstrumented = false := by simpa using hi
        exact ⟨⟨rfl, rfl, rfl⟩, .inr fun _ _ => rfl,
          fun _ => ⟨hd, fun _ _ => rfl, rfl, fun _ h => (by rw [hno] at h; cases h)⟩, rfl, .inr rfl,
          .inl rfl⟩
      · next hi =>
        have hyes : m.isInstrumented = true := by simpa using hi
        cases hl : m.layer with
        | msan =>
          exact ⟨⟨rfl, rfl, rfl⟩, .inr fun _ _ => rfl,
            fun _ => ⟨hd, fun _ _ => rfl, rfl, fun h => (by rw [hl] at h; cases h)⟩, rfl, .inr rfl,
            .inl rfl⟩
        | asan =>
          have hne : ∀ i, ¬ m.IsHidden i → i ≠ m.argNums - 1 := fun i hi he => hi ⟨hl, hyes, he⟩
          have hargs : ∀ i, ¬ m.IsHidden i →
              Function.update (setBuffers l (pairs s.bufferArgs) s.args).1 (m.argNums - 1)
                (some (.pointer l.launchInfo)) i
              = (setBuffers l (pairs s.bufferArgs) s.args).1 i := fun i hi =>
            Function.update_of_ne (hne i hi) ..
          exact ⟨⟨rfl, rfl, rfl⟩, .inr hargs, fun _ => ⟨hd, hargs, rfl, fun _ _ => rfl⟩, rfl,
            .inr rfl, .inr ⟨hl, hyes, rfl⟩⟩

theorem Recorded.launch (h : Recorded m s calls) (l : LaunchEnv) :
    Recorded m (s.prepareLaunch m l).state calls := by
  have hp := prepareLaunch_spec m s l
  obtain ⟨hb, hpo, hlo⟩ := hp.maps
  refine ⟨fun i => by rw [hb]; exact h.buffers i, fun hm hd i => by rw [hpo]; exact h.pointers hm hd i,
    fun hm i => by rw [hlo]; exact h.locals hm i, fun i hh hnone x hx l' => ?_⟩
  rw [hb] at hnone
  have hkeep := h.args i hh hnone x hx l'
  rcases hp.args with ha | ha
  · rw [ha i hh, hkeep]
  · rw [ha i hh, setBuffers_ne l _ _ (not_mem_pairs hnone), hkeep]

theorem recorded_run (m : KernelSetup) (evs : List KernelEvent) :
    Recorded m (KernelArgs.run m evs) (setCalls evs) := by
  induction evs using List.reverseRecOn with
  | nil => exact .init m
  | append_singleton evs ev ih =>
    have hrun : KernelArgs.run m (evs ++ [ev]) = (KernelArgs.run m evs).event m ev := by
      simp [KernelArgs.run]
    rw [hrun]
    cases ev with
    | setArg c =>
      have hcalls : setCalls (evs ++ [.setArg c]) = setCalls evs ++ [c] := by
        simp [setCalls]
      rw [hcalls]
      exact ih.setArg c
    | launch l =>
      have hcalls : setCalls (evs ++ [.launch l]) = setCalls evs := by
        simp [setCalls]
      rw [hcalls]
      exact ih.launch l

/-! ## The last writer -/

/-- For every index the last call of a kind that is recorded is the last call: of a
buffer, of a pointer where they are validated, of local memory where it is counted. -/
structure KindsAgree (m : KernelSetup) (calls : List ArgCall) : Prop where
  buffers : ∀ i b, lastRecorded ArgCall.buffer calls i = some b →
    lastSetting calls i = some (.buffer b)
  pointers : m.layer = .asan → m.detectKernelArguments = true → ∀ i p, p ≠ 0 →
    lastRecorded ArgCall.pointerOf calls i = some p → lastSetting calls i = some (.pointer p)
  locals : m.layer = .asan → m.isInstrumented = true → ∀ i n,
    lastRecorded ArgCall.localOf calls i = some n → lastSetting calls i = some (.localMem n)

theorem mem_pointersToValidate (x : Nat × Nat) : x ∈ s.pointersToValidate m ↔
    m.layer = .asan ∧ m.detectKernelArguments = true ∧
      s.pointerArgs.lookup x.1 = some x.2 ∧ x.2 ≠ 0 := by
  unfold pointersToValidate
  split
  · next h => simp [mem_pairs, h.1, h.2]
  · next h =>
    constructor
    · intro hx
      cases hx
    · rintro ⟨h1, h2, -⟩
      exact absurd ⟨h1, h2⟩ h

/-- Where the driver refuses the pointer of a buffer it has it already. -/
def BuffersSettable (m : KernelSetup) (s : KernelArgs) (l : LaunchEnv) : Prop :=
  ∀ i b, ¬ m.IsHidden i → s.bufferArgs.lookup i = some b →
    l.accepts i = true ∨ s.args i = (l.getHandle b).map .pointer

/-- The argument of a recorded buffer after a launch. -/
theorem args_of_buffer (hl : (s.prepareLaunch m l).launched = true) {i b : Nat}
    (hh : ¬ m.IsHidden i) (hb : s.bufferArgs.lookup i = some b) :
    (s.prepareLaunch m l).state.args i
      = if l.accepts i = true then (l.getHandle b).map .pointer else s.args i := by
  obtain ⟨hdone, hargs, -⟩ := (prepareLaunch_spec m s l).launched hl
  rw [hargs i hh]
  exact setBuffers_mem _ (pairs_nodup _) _ hdone ((mem_pairs _ (i, b)).mpr hb)

theorem LastWriterWins.of_kindsAgree (h : Recorded m s calls) (hk : KindsAgree m calls)
    (ha : BuffersSettable m s l) : LastWriterWins m calls l (s.prepareLaunch m l) := by
  have hp := prepareLaunch_spec m s l
  refine ⟨fun hl i x hh hx => ?_, fun x hx => ?_, fun x hx => ?_, fun x hx => ?_⟩
  · cases hb : s.bufferArgs.lookup i with
    | none =>
      obtain ⟨-, hargs, -⟩ := hp.launched hl
      rw [hargs i hh, setBuffers_ne l _ _ (not_mem_pairs hb)]
      exact h.args i hh hb x hx l
    | some b =>
      -- the entry is the last setting, which the loop has just set
      have hlast := hk.buffers i b ((h.buffers i).symm.trans hb)
      rw [hlast] at hx
      obtain rfl := Option.some.inj hx
      rw [args_of_buffer hl hh hb]
      split
      · rfl
      · next hno => exact (ha i b hh hb).resolve_left hno
  · rcases hp.buffers with he | he
    · rw [he] at hx
      cases hx
    · rw [he, mem_pairs, h.buffers] at hx
      exact hk.buffers _ _ hx
  · rw [hp.validated, mem_pointersToValidate] at hx
    obtain ⟨hm, hd, hl, hne⟩ := hx
    rw [h.pointers hm hd] at hl
    exact hk.pointers hm hd _ _ hne hl
  · rcases hp.counted with he | ⟨hm, hi, he⟩
    · rw [he] at hx
      cases hx
    · rw [he, mem_pairs, h.locals hm, Option.map_eq_some_iff] at hx
      obtain ⟨n, hn, hx⟩ := hx
      rw [← hx]
      exact hk.locals hm hi _ _ hn

theorem KindsAgree.of_lastWriterWins (h : Recorded m s calls)
    (hl : (s.prepareLaunch m l).launched = true)
    (hw : LastWriterWins m calls l (s.prepareLaunch m l)) : KindsAgree m calls := by
  have hp := prepareLaunch_spec m s l
  obtain ⟨-, -, hbuf, hcount⟩ := hp.launched hl
  refine ⟨fun i b hb => ?_, fun hm hd i p hne hpt => ?_, fun hm hi i n hn => ?_⟩
  · refine hw.buffers (i, b) ?_
    rw [hbuf, mem_pairs, h.buffers]
    exact hb
  · refine hw.validated (i, p) ?_
    rw [hp.validated, mem_pointersToValidate]
    exact ⟨hm, hd, (h.pointers hm hd i).trans hpt, hne⟩
  · refine hw.counted (i, ⟨n, getSizeAndRedzoneSizeForLocal n⟩) ?_
    rw [hcount hm hi, mem_pairs, h.locals hm i, hn]
    rfl

theorem BuffersSettable.of_lastWriterWins (h : Recorded m s calls)
    (hl : (s.prepareLaunch m l).launched = true)
    (hw : LastWriterWins m calls l (s.prepareLaunch m l)) : BuffersSettable m s l := by
  intro i b hh hb
  have hlast := (KindsAgree.of_lastWriterWins h hl hw).buffers i b ((h.buffers i).symm.trans hb)
  have hargs := hw.inForce hl i _ hh hlast
  rw [args_of_buffer hl hh hb] at hargs
  by_cases hacc : l.accepts i = true
  · exact .inl hacc
  · rw [if_neg hacc] at hargs
    exact .inr hargs

/-- **The last writer wins at a launch** exactly when for every index the last call that
is recorded is the last call, and the driver takes the buffers. -/
theorem last_writer_wins (m : KernelSetup) (evs : List KernelEvent) (l : LaunchEnv)
    (hl : ((KernelArgs.run m evs).prepareLaunch m l).launched = true) :
    LastWriterWins m (setCalls evs) l ((KernelArgs.run m evs).prepareLaunch m l) ↔
      KindsAgree m (setCalls evs) ∧ BuffersSettable m (KernelArgs.run m evs) l :=
  have h := recorded_run m evs
  ⟨fun hw => ⟨.of_lastWriterWins h hl hw, .of_lastWriterWins h hl hw⟩,
    fun ⟨hk, ha⟩ => .of_kindsAgree h hk ha⟩

end Launch

/-- Buffer 7 at index 0 and a pointer at index 1. -/
def vectorCalls : List KernelEvent :=
  [.setArg ⟨0, .memObj 7, fun h => if h = 7 then some 1 else none, true⟩,
    .setArg ⟨1, .pointer 64, fun _ => none, true⟩]

/-- A launch that meets no error. -/
def vectorLaunch : LaunchEnv := ⟨fun _ => some 4096, fun _ => false, fun _ => true, 512, true⟩

theorem lastRecorded_vectorCalls {α : Type} (f : ArgCall → Option α) {i : Nat} (hi : 1 < i) :
    lastRecorded f (setCalls vectorCalls) i = none := by
  have h0 : 0 ≠ i := by omega
  have h1 : 1 ≠ i := by omega
  simp [lastRecorded, lastCall, setCalls, vectorCalls, h0, h1]

theorem last_writer_wins_vector :
    LastWriterWins ⟨.asan, true, true, 3⟩ (setCalls vectorCalls) vectorLaunch
      ((KernelArgs.run ⟨.asan, true, true, 3⟩ vectorCalls).prepareLaunch ⟨.asan, true, true, 3⟩
        vectorLaunch) := by
  have hcases : ∀ i : Nat, i = 0 ∨ i = 1 ∨ 1 < i := by omega
  refine (last_writer_wins _ vectorCalls vectorLaunch (by decide)).mpr
    ⟨⟨fun i b hb => ?_, fun _ _ i p _ hp => ?_, fun _ _ i n hn => ?_⟩, fun _ _ _ _ => .inl rfl⟩
  · rcases hcases i with rfl | rfl | hi
    · obtain rfl : 1 = b := Option.some.inj hb
      decide
    · cases hb
    · rw [lastRecorded_vectorCalls _ hi] at hb
      cases hb
  · rcases hcases i with rfl | rfl | hi
    · cases hp
    · obtain rfl : 64 = p := Option.some.inj hp
      decide
    · rw [lastRecorded_vectorCalls _ hi] at hp
      cases hp
  · rcases hcases i with rfl | rfl | hi
    · cases hn
    · cases hn
    · rw [lastRecorded_vectorCalls _ hi] at hn
      cases hn

/-- A value replaces the buffer at index 0. -/
def replacedBuffer : List KernelEvent :=
  vectorCalls ++ [.setArg ⟨0, .value 4 1, fun _ => none, true⟩]

/-- A value replaces the pointer at index 1. -/
def replacedPointer : List KernelEvent :=
  vectorCalls ++ [.setArg ⟨1, .value 8 1, fun _ => none, true⟩]

/-- A pointer replaces local memory at index 0. -/
def replacedLocal : List KernelEvent :=
  [.setArg ⟨0, .localMem 100, fun _ => none, true⟩, .setArg ⟨0, .pointer 64, fun _ => none, true⟩]

/-- The launch sets the buffer over the value in both layers, and ASan validates the
pointer and counts the local memory that were replaced. -/
theorem last_writer_loses :
    (∀ layer, ((KernelArgs.run ⟨layer, true, true, 3⟩ replacedBuffer).prepareLaunch
        ⟨layer, true, true, 3⟩ vectorLaunch).launched = true ∧
      lastSetting (setCalls replacedBuffer) 0 = some (.value 4 1) ∧
      ((KernelArgs.run ⟨layer, true, true, 3⟩ replacedBuffer).prepareLaunch
        ⟨layer, true, true, 3⟩ vectorLaunch).state.args 0 = some (.pointer 4096)) ∧
    (1, 64) ∈ ((KernelArgs.run ⟨.asan, true, true, 3⟩ replacedPointer).prepareLaunch
      ⟨.asan, true, true, 3⟩ vectorLaunch).validated ∧
    lastSetting (setCalls replacedPointer) 1 = some (.value 8 1) ∧
    (0, ⟨100, 144⟩) ∈ ((KernelArgs.run ⟨.asan, true, true, 3⟩ replacedLocal).prepareLaunch
      ⟨.asan, true, true, 3⟩ vectorLaunch).counted ∧
    lastSetting (setCalls replacedLocal) 0 = some (.pointer 64) ∧
    ¬ ∀ m evs l, ((KernelArgs.run m evs).prepareLaunch m l).launched = true →
      LastWriterWins m (setCalls evs) l ((KernelArgs.run m evs).prepareLaunch m l) := by
  refine ⟨fun layer => by cases layer <;> decide, by decide, by decide, by decide, by decide,
    fun h => ?_⟩
  have hw := h ⟨.msan, true, true, 3⟩ replacedBuffer vectorLaunch (by decide)
  have hargs := hw.inForce (by decide) 0 (.value 4 1) (fun hh => by cases hh.1) (by decide)
  exact absurd hargs (by decide)

end UnifiedRuntime.Sanitizer
