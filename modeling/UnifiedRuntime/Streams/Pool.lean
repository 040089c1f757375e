import UnifiedRuntime.Lib.RoundRobin

/-!
# A queue's pool of streams (CUDA and HIP)

An out-of-order queue of the CUDA and HIP adapters owns a vector of compute
streams and one of transfer streams, created on first use and handed out round
robin. Which of them have work that was not yet waited for is not recorded; it
is inferred from three `uint32_t` values: the number of created streams, the
index of the next token and the index at the last `urQueueFinish`.

The two adapters have separate copies of this code. They differ in one
comparison of `syncStreams` (`<=` in CUDA, `<` in HIP), kept here as the
`Adapter` argument of `syncSlots`.
-/

namespace UnifiedRuntime.Streams

/-- The number of values of a `uint32_t`. -/
abbrev uint32Values : Nat := 4294967296

/-- `std::numeric_limits<uint32_t>::max()`: the token of an event that is not on
a compute stream. -/
abbrev noToken : Nat := 4294967295

/-- Which of the two copies of the bookkeeping. -/
inductive Adapter
  | cuda
  | hip
deriving DecidableEq

/-- The two vectors of streams. -/
inductive Kind
  | compute
  | transfer
deriving DecidableEq

/-- One of the two vectors of streams of a queue, with its counters. Slots are
positions in the vector. The transfer pool does not use `delay`. -/
structure Pool where
  /-- `ComputeStreams.size()`. -/
  size : Nat
  /-- `NumComputeStreams`. -/
  created : Nat
  /-- `ComputeStreamIndex`, the next token. -/
  index : Nat
  /-- `LastSyncComputeStreams`. -/
  lastSync : Nat
  /-- `DelayCompute`. -/
  delay : Nat → Bool

/-- A pool of a new queue. -/
def Pool.new (size : Nat) : Pool :=
  { size, created := 0, index := 0, lastSync := 0, delay := fun _ => false }

/-- The pool of a queue made from a native stream: its one stream exists. -/
def Pool.ofNative : Pool := { Pool.new 1 with created := 1 }

namespace Pool

/-- `hasBeenSynchronized`. -/
def hasBeenSynchronized (p : Pool) (token : Nat) : Bool :=
  if token = noToken then false else decide (token < p.lastSync)

/-- `canReuseStream`. -/
def canReuseStream (p : Pool) (token : Nat) : Bool :=
  if token = noToken then false
  else
    decide ((p.index + uint32Values - token) % uint32Values ≤ p.size) &&
      !p.hasBeenSynchronized token

/-- The block of `getNextComputeStream` that creates the next missing stream. -/
def create (p : Pool) : Pool :=
  if p.created < p.size then { p with created := p.created + 1 } else p

/-- `ComputeStreamIndex++`. -/
def draw (p : Pool) : Pool := { p with index := (p.index + 1) % uint32Values }

/-- The slot of a token. -/
def slot (p : Pool) (token : Nat) : Nat := token % p.size

/-- `DelayCompute[i] = value`. -/
def setDelay (p : Pool) (i : Nat) (value : Bool) : Pool :=
  { p with delay := Function.update p.delay i value }

/-- The end of the range `syncStreams` looks at. -/
def syncEnd (p : Pool) : Nat := if p.created < p.size then p.created else p.index

/-- Is the range `[start, stop)` walked without going round? -/
def straight : Adapter → Nat → Nat → Bool
  | .cuda, start, stop => decide (start ≤ stop)
  | .hip, start, stop => decide (start < stop)

/-- The slots that `syncStreams` calls its function on, in order. -/
def syncSlots (a : Adapter) (p : Pool) : List Nat :=
  if p.size ≤ (p.syncEnd + uint32Values - p.lastSync) % uint32Values then List.range' 0 p.size
  else if straight a (p.lastSync % p.size) (p.syncEnd % p.size) then
    List.range' (p.lastSync % p.size) (p.syncEnd % p.size - p.lastSync % p.size)
  else
    List.range' (p.lastSync % p.size) (p.size - p.lastSync % p.size) ++
      List.range' 0 (p.syncEnd % p.size)

/-- `Delay[i] = false` for the walked slots. -/
def clearDelays (p : Pool) (slots : List Nat) : Pool :=
  { p with delay := fun i => if i ∈ slots then false else p.delay i }

/-- `syncStreams` of a barrier: only the delay flags change. -/
def syncForBarrier (a : Adapter) (p : Pool) : Pool := p.clearDelays (p.syncSlots a)

/-- `syncStreams</*ResetUsed=*/true>`. -/
def syncForFinish (a : Adapter) (p : Pool) : Pool :=
  { p.clearDelays (p.syncSlots a) with lastSync := p.syncEnd }

/-! ## Fields after an update -/

@[simp] theorem create_size (p : Pool) : p.create.size = p.size := by
  unfold create
  split <;> rfl

@[simp] theorem create_index (p : Pool) : p.create.index = p.index := by
  unfold create
  split <;> rfl

@[simp] theorem create_lastSync (p : Pool) : p.create.lastSync = p.lastSync := by
  unfold create
  split <;> rfl

theorem create_created (p : Pool) :
    p.create.created = if p.created < p.size then p.created + 1 else p.created := by
  unfold create
  split <;> rfl

@[simp] theorem draw_size (p : Pool) : p.draw.size = p.size := rfl
@[simp] theorem draw_created (p : Pool) : p.draw.created = p.created := rfl
@[simp] theorem draw_lastSync (p : Pool) : p.draw.lastSync = p.lastSync := rfl
@[simp] theorem draw_index (p : Pool) : p.draw.index = (p.index + 1) % uint32Values := rfl
@[simp] theorem syncForFinish_index (a : Adapter) (p : Pool) :
    (p.syncForFinish a).index = p.index := rfl
@[simp] theorem syncForFinish_lastSync (a : Adapter) (p : Pool) :
    (p.syncForFinish a).lastSync = p.syncEnd := rfl

/-! ## The window since the last finish

`since` counts the tokens drawn since the last `urQueueFinish`; the source has no
such count. -/

/-- The counters of `p` are those of a pool that drew `since` tokens since its
last finish. -/
structure Counts (p : Pool) (since : Nat) : Prop where
  lastSync_lt : p.lastSync < uint32Values
  index_eq : p.index = (p.lastSync + since) % uint32Values

/-- `token` was drawn since the last finish. -/
def InWindow (p : Pool) (since token : Nat) : Prop :=
  Drawn uint32Values p.lastSync since token

/-- The number of created streams says as much as the index does: no stream was
created for a token that is not yet drawn. -/
def Settled (p : Pool) : Prop := p.created < p.size → p.created = p.index

/-- What a reader of the counters can rely on. -/
def Readable (p : Pool) (since : Nat) : Prop :=
  p.Settled ∧ Covered uint32Values p.size p.lastSync since

instance (p : Pool) : Decidable p.Settled := inferInstanceAs (Decidable (_ → _))

instance (p : Pool) (since : Nat) : Decidable (p.Readable since) :=
  inferInstanceAs (Decidable (_ ∧ _))

theorem counts_new (n : Nat) : (Pool.new n).Counts 0 :=
  ⟨show 0 < uint32Values by decide, rfl⟩

theorem counts_ofNative : Pool.ofNative.Counts 0 := ⟨by decide, rfl⟩

variable {p : Pool} {since token : Nat}

theorem Counts.index_lt (h : p.Counts since) : p.index < uint32Values := by
  rw [h.index_eq]
  exact Nat.mod_lt _ (by decide)

theorem Counts.draw (h : p.Counts since) : p.draw.Counts (since + 1) := by
  refine ⟨h.lastSync_lt, ?_⟩
  rw [draw_index, h.index_eq]
  exact counter_next _ _ _

/-- The token that is about to be drawn is in the window afterwards. -/
theorem Counts.index_inWindow (h : p.Counts since) : p.InWindow (since + 1) p.index := by
  rw [h.index_eq]
  exact drawn_last _ _ _

theorem Settled.syncEnd (h : p.Settled) : p.syncEnd = p.index := by
  unfold Pool.syncEnd
  split
  next hlt => exact h hlt
  next => rfl

/-- After a finish the window is empty. -/
theorem Counts.finish (h : p.Counts since) (hs : p.Settled) (a : Adapter) :
    (p.syncForFinish a).Counts 0 := by
  refine ⟨?_, ?_⟩
  · rw [syncForFinish_lastSync, hs.syncEnd]
    exact h.index_lt
  · rw [syncForFinish_lastSync, syncForFinish_index, hs.syncEnd, Nat.add_zero,
      Nat.mod_eq_of_lt h.index_lt]

/-- HIP's strict comparison only makes the walk longer. -/
theorem mem_syncSlots_of_ringRange {a : Adapter} {i : Nat}
    (hlt : (p.syncEnd + uint32Values - p.lastSync) % uint32Values < p.size)
    (hi : i ∈ ringRange p.size (p.lastSync % p.size) (p.syncEnd % p.size)) :
    i ∈ p.syncSlots a := by
  unfold syncSlots
  rw [if_neg (by omega)]
  cases a with
  | cuda =>
    unfold ringRange at hi
    simpa only [straight, decide_eq_true_eq] using hi
  | hip =>
    simp only [straight, decide_eq_true_eq]
    rw [mem_ringRange] at hi
    split
    next h =>
      rw [if_pos (by omega)] at hi
      rw [List.mem_range'_1]
      omega
    next h =>
      rw [List.mem_append, List.mem_range'_1, List.mem_range'_1]
      split at hi <;> omega

/-- **`syncStreams` reaches the stream of every token of the window.** -/
theorem Counts.slot_mem_syncSlots (h : p.Counts since) (hr : p.Readable since) (a : Adapter)
    (hn : 0 < p.size) (ht : p.InWindow since token) : p.slot token ∈ p.syncSlots a := by
  have hend : p.syncEnd = (p.lastSync + since) % uint32Values := by
    rw [hr.1.syncEnd, h.index_eq]
  have hdist : (p.syncEnd + uint32Values - p.lastSync) % uint32Values = since % uint32Values := by
    rw [hend]
    exact counter_distance since h.lastSync_lt
  by_cases hall : p.size ≤ since % uint32Values
  · -- the walk takes the whole vector
    unfold syncSlots
    rw [if_pos (by rw [hdist]; exact hall), List.mem_range'_1]
    have := Nat.mod_lt token hn
    unfold slot
    omega
  · refine mem_syncSlots_of_ringRange (by omega) ?_
    rw [hend]
    exact mem_ringRange_of_covered hr.2 (by omega) ht

end Pool

end UnifiedRuntime.Streams
