import UnifiedRuntime.Cuda.CommandBufferFill
import UnifiedRuntime.Hip.LargePattern

/-!
# Fills in command-buffers and in queues

The HIP adapter has its own copy of the helper, which makes one node for the sizes 1, 2 and 4 only,
and takes no events. The entry points for buffers take requests where only one of offset and size
is a multiple of the pattern's size.

- `fillNodes_eq`: the nodes are those of the CUDA adapter.
- `fillsAgree_iff`: when fills in command-buffers are right, and those of queues the same.
-/

namespace UnifiedRuntime.Hip

open PatternFill
open Cuda (Memset MemsetNodeParams CommandBuffer UrResult backendWordSize useOnlyFirstValue
  patternSizeIsValid addFill decomposedNodes oneNode runNodes AppendFills)

/-! ## The functions -/

/-- The nodes of `enqueueCommandBufferFillHelper`; a pattern of no bytes is divided by. -/
def fillNodes (pattern : Nat → UInt8) (dstPtr patternSize size : UInt64) (fuel : Nat) :
    Except Stop (MemsetNodeParams × List MemsetNodeParams) :=
  if patternSize = 0 then .error .fault
  else if patternSize = 1 ∨ patternSize = 2 ∨ patternSize = 4 then
    .ok (oneNode pattern dstPtr patternSize size, [])
  else decomposedNodes pattern dstPtr patternSize size fuel

/-- `enqueueCommandBufferFillHelper`. -/
def enqueueCommandBufferFillHelper (cb : CommandBuffer) (dstDevice : UInt64)
    (pattern : Nat → UInt8) (patternSize size : UInt64) (syncPointWaitList : List UInt32)
    (fuel : Nat) : Except Stop (UrResult × CommandBuffer × Option UInt32) :=
  addFill (fillNodes pattern dstDevice patternSize size) cb syncPointWaitList [] false fuel

/-- `urCommandBufferAppendMemBufferFillExp`; `ptr` is the buffer on the device. -/
def urCommandBufferAppendMemBufferFillExp (cb : CommandBuffer) (ptr : UInt64)
    (pPattern : Option (Nat → UInt8)) (patternSize offset size : UInt64)
    (syncPointWaitList : List UInt32) (fuel : Nat) :
    Except Stop (UrResult × CommandBuffer × Option UInt32) :=
  if patternSize = 0 then .error .fault
  else
    let argsAreMultiplesOfPatternSize := offset % patternSize == 0 || size % patternSize == 0
    match pPattern with
    | none => .ok (.invalidSize, cb, none)
    | some pattern =>
      if argsAreMultiplesOfPatternSize && patternSizeIsValid patternSize then
        enqueueCommandBufferFillHelper cb (ptr + offset) pattern patternSize size
          syncPointWaitList fuel
      else .ok (.invalidSize, cb, none)

/-- `urCommandBufferAppendUSMFillExp`. -/
def urCommandBufferAppendUSMFillExp (cb : CommandBuffer) (pPtr : UInt64)
    (pPattern : Option (Nat → UInt8)) (patternSize size : UInt64)
    (syncPointWaitList : List UInt32) (fuel : Nat) :
    Except Stop (UrResult × CommandBuffer × Option UInt32) :=
  match pPattern with
  | none => .ok (.invalidSize, cb, none)
  | some pattern =>
    if patternSizeIsValid patternSize then
      enqueueCommandBufferFillHelper cb pPtr pattern patternSize size syncPointWaitList fuel
    else .ok (.invalidSize, cb, none)

/-- `urEnqueueMemBufferFill`; `ptr` is the buffer on the device. -/
def urEnqueueMemBufferFill (copies : Bool) (bufferSize ptr : UInt64) (pPattern : Nat → UInt8)
    (patternSize offset size : UInt64) (fuel : Nat) : Except Stop (UrResult × List Call) :=
  if size + offset ≤ bufferSize then
    (fillBySize copies patternSize size pPattern (ptr + offset) fuel).map
      fun calls => (.success, calls)
  else .ok (.invalidSize, [])

/-- `urEnqueueUSMFill`. -/
def urEnqueueUSMFill (copies : Bool) (ptr : UInt64) (pPattern : Nat → UInt8)
    (patternSize size : UInt64) (fuel : Nat) : Except Stop (UrResult × List Call) :=
  (fillBySize copies patternSize size pPattern ptr fuel).map fun calls => (.success, calls)

/-! ## Requests -/

/-- Where a fill goes. -/
inductive Target where
  | buffer (bufferSize ptr offset : UInt64)
  | usm (ptr : UInt64)

/-- A fill that is asked for. -/
structure Request where
  pattern : Nat → UInt8
  patternSize : UInt64
  size : UInt64
  target : Target

namespace Request

/-- The first byte. -/
def start (r : Request) : UInt64 :=
  match r.target with
  | .buffer _ ptr offset => ptr + offset
  | .usm ptr => ptr

/-- Does the queue's check of the bounds pass? -/
def inBounds (r : Request) : Bool :=
  match r.target with
  | .buffer bufferSize _ offset => r.size + offset ≤ bufferSize
  | .usm _ => true

/-- The checks of the command-buffer's entry points; for USM also what the specification asks
for. -/
def Accepted (r : Request) : Prop :=
  patternSizeIsValid r.patternSize = true ∧
    match r.target with
    | .buffer _ _ offset => offset % r.patternSize = 0 ∨ r.size % r.patternSize = 0
    | .usm _ => r.size % r.patternSize = 0

/-- The fill is appended to a command-buffer of the CUDA adapter. -/
def cudaAppend (r : Request) (cb : CommandBuffer) (syncPoints : List UInt32) (events : List Nat)
    (retEvent : Bool) (fuel : Nat) : Except Stop (UrResult × CommandBuffer × Option UInt32) :=
  match r.target with
  | .buffer _ ptr offset =>
    Cuda.urCommandBufferAppendMemBufferFillExp cb ptr (some r.pattern) r.patternSize offset r.size
      syncPoints events retEvent fuel
  | .usm ptr =>
    Cuda.urCommandBufferAppendUSMFillExp cb ptr (some r.pattern) r.patternSize r.size syncPoints
      events retEvent fuel

/-- The fill is appended to a command-buffer of the HIP adapter, which ignores events. -/
def hipAppend (r : Request) (cb : CommandBuffer) (syncPoints : List UInt32) (fuel : Nat) :
    Except Stop (UrResult × CommandBuffer × Option UInt32) :=
  match r.target with
  | .buffer _ ptr offset =>
    urCommandBufferAppendMemBufferFillExp cb ptr (some r.pattern) r.patternSize offset r.size
      syncPoints fuel
  | .usm ptr =>
    urCommandBufferAppendUSMFillExp cb ptr (some r.pattern) r.patternSize r.size syncPoints fuel

/-- The fill is enqueued on the CUDA adapter. -/
def cudaEnqueue (r : Request) : Except Stop (UrResult × List Memset) :=
  match r.target with
  | .buffer bufferSize ptr offset =>
    Cuda.urEnqueueMemBufferFill bufferSize ptr r.pattern r.patternSize offset r.size
  | .usm ptr => Cuda.urEnqueueUSMFill ptr r.pattern r.patternSize r.size

/-- The fill is enqueued on the HIP adapter. -/
def hipEnqueue (copies : Bool) (r : Request) (fuel : Nat) : Except Stop (UrResult × List Call) :=
  match r.target with
  | .buffer bufferSize ptr offset =>
    urEnqueueMemBufferFill copies bufferSize ptr r.pattern r.patternSize offset r.size fuel
  | .usm ptr => urEnqueueUSMFill copies ptr r.pattern r.patternSize r.size fuel

end Request

/-! ## Fills that agree -/

/-- **Fills in command-buffers** repeat the pattern, node behind node, and write what queues do. -/
structure FillsAgree (copies : Bool) (r : Request) : Prop where
  cuda : AppendFills (fun write => Tiles r.pattern r.start r.patternSize.toNat r.size.toNat write ∧
    ∃ calls, r.cudaEnqueue = .ok (.success, calls) ∧ Cuda.runAll calls = write) r.cudaAppend
  hip : AppendFills (fun write => Tiles r.pattern r.start r.patternSize.toNat r.size.toNat write ∧
    (∃ fuel calls, r.hipEnqueue copies fuel = .ok (.success, calls)) ∧
    ∀ fuel calls, r.hipEnqueue copies fuel = .ok (.success, calls) →
      runAll r.pattern calls = write) fun cb syncPoints _ _ => r.hipAppend cb syncPoints

/-- Words reach the end of the range, and behind the last whole pattern the pattern goes on as it
began. -/
def WordsReachEnd (r : Request) : Prop :=
  r.size.toNat % (backendWordSize r.patternSize.toUInt32).toNat = 0 ∧
    ∀ i < r.size.toNat % r.patternSize.toNat,
      r.pattern i = r.pattern (i % (backendWordSize r.patternSize.toUInt32).toNat)

/-- The copies of a HIP queue, where it makes them, have offsets of 32 bits. -/
def CopiesFit (copies : Bool) (r : Request) : Prop :=
  copies = true → useOnlyFirstValue r.pattern (backendWordSize r.patternSize.toUInt32)
      (r.patternSize.toUInt32 / backendWordSize r.patternSize.toUInt32) = false →
    r.size.toNat / r.patternSize.toNat * r.patternSize.toNat < 2 ^ 32 + r.patternSize.toNat

/-! ## Steps -/

variable {copies : Bool} {r : Request}

/-- **Both helpers make the same nodes** for sizes that the entry points take. -/
theorem fillNodes_eq {patternSize : UInt64} (pattern : Nat → UInt8) (dstPtr size : UInt64)
    (hvalid : patternSizeIsValid patternSize = true) :
    fillNodes pattern dstPtr patternSize size = Cuda.fillNodes pattern dstPtr patternSize size := by
  obtain ⟨hzero, hcases⟩ := Cuda.patternSize_cases hvalid
  funext fuel
  unfold fillNodes Cuda.fillNodes
  rw [if_neg hzero, if_neg hzero]
  refine if_congr ⟨fun h => ?_, fun h => ?_⟩ rfl rfl
  · rcases h with h | h | h
    · rw [h]
      decide
    · rw [h]
      decide
    · rw [h]
      decide
  · rcases hcases with h | h | h | ⟨hlarge, -⟩
    · exact .inl h
    · exact .inr (.inl h)
    · exact .inr (.inr h)
    · exact absurd h hlarge

theorem Request.Accepted.ne_zero (h : r.Accepted) : r.patternSize ≠ 0 :=
  (Cuda.patternSize_cases h.1).1

theorem Request.Accepted.multiples (h : r.Accepted) {bufferSize ptr offset : UInt64}
    (ht : r.target = .buffer bufferSize ptr offset) :
    (offset % r.patternSize == 0 || r.size % r.patternSize == 0) = true := by
  have hmul := h.2
  rw [ht] at hmul
  rw [Bool.or_eq_true, beq_iff_eq, beq_iff_eq]
  exact hmul

/-- An accepted fill of the CUDA adapter is added. -/
theorem Request.Accepted.cudaAppend_eq (h : r.Accepted) :
    r.cudaAppend = addFill (Cuda.fillNodes r.pattern r.start r.patternSize r.size) := by
  funext cb syncPoints events retEvent fuel
  unfold Request.cudaAppend Request.start
  cases ht : r.target with
  | usm ptr =>
    show Cuda.urCommandBufferAppendUSMFillExp cb ptr (some r.pattern) _ _ _ _ _ _ = _
    unfold Cuda.urCommandBufferAppendUSMFillExp
    dsimp only
    rw [if_pos h.1]
    rfl
  | buffer bufferSize ptr offset =>
    show Cuda.urCommandBufferAppendMemBufferFillExp cb ptr (some r.pattern) _ _ _ _ _ _ _ = _
    unfold Cuda.urCommandBufferAppendMemBufferFillExp
    rw [if_neg h.ne_zero]
    rw [h.multiples ht, h.1]
    rfl

/-- An accepted fill of the HIP adapter is added with the same nodes and no events. -/
theorem Request.Accepted.hipAppend_eq (h : r.Accepted) (cb : CommandBuffer)
    (syncPoints : List UInt32) (fuel : Nat) : r.hipAppend cb syncPoints fuel =
      addFill (Cuda.fillNodes r.pattern r.start r.patternSize r.size) cb syncPoints [] false
        fuel := by
  unfold Request.hipAppend Request.start
  rw [← fillNodes_eq _ _ _ h.1]
  cases ht : r.target with
  | usm ptr =>
    show urCommandBufferAppendUSMFillExp cb ptr (some r.pattern) _ _ _ _ = _
    unfold urCommandBufferAppendUSMFillExp
    dsimp only
    rw [if_pos h.1]
    rfl
  | buffer bufferSize ptr offset =>
    show urCommandBufferAppendMemBufferFillExp cb ptr (some r.pattern) _ _ _ _ _ = _
    unfold urCommandBufferAppendMemBufferFillExp
    rw [if_neg h.ne_zero]
    rw [h.multiples ht, h.1]
    rfl

theorem map_success_iff {α : Type} {fills : Except Stop (List α)} {calls : List α} :
    fills.map (fun calls => (UrResult.success, calls)) = .ok (.success, calls) ↔
      fills = .ok calls := by
  cases fills with
  | error e => simp [Except.map]
  | ok out => simp [Except.map]

/-- What the CUDA adapter enqueues. -/
theorem cudaEnqueue_iff {calls : List Memset} : r.cudaEnqueue = .ok (.success, calls) ↔
    r.inBounds = true ∧ Cuda.fillBySize r.patternSize r.size r.pattern r.start = .ok calls := by
  unfold Request.cudaEnqueue Request.inBounds Request.start
  cases r.target with
  | usm ptr => exact map_success_iff.trans (and_iff_right rfl).symm
  | buffer bufferSize ptr offset =>
    unfold Cuda.urEnqueueMemBufferFill
    by_cases hin : r.size + offset ≤ bufferSize
    · simp [hin, map_success_iff]
    · simp [hin]

/-- What the HIP adapter enqueues. -/
theorem hipEnqueue_iff {fuel : Nat} {calls : List Call} :
    r.hipEnqueue copies fuel = .ok (.success, calls) ↔ r.inBounds = true ∧
      fillBySize copies r.patternSize r.size r.pattern r.start fuel = .ok calls := by
  unfold Request.hipEnqueue Request.inBounds Request.start
  cases r.target with
  | usm ptr => exact map_success_iff.trans (and_iff_right rfl).symm
  | buffer bufferSize ptr offset =>
    unfold urEnqueueMemBufferFill
    by_cases hin : r.size + offset ≤ bufferSize
    · simp [hin, map_success_iff]
    · simp [hin]

/-! ## Both adapters -/

/-- The nodes of an accepted fill end for patterns below 4 GiB, and are right if the range that is
filled with words is. -/
theorem appendFills_iff {right : (Bytes → Bytes) → Prop} (h : r.Accepted) :
    AppendFills right (addFill (Cuda.fillNodes r.pattern r.start r.patternSize r.size)) ↔
      r.patternSize.toNat < 2 ^ 32 ∧ ∃ write, right write ∧
        Filled r.pattern r.start r.patternSize.toNat (backendWordSize r.patternSize.toUInt32).toNat
          r.size.toNat write := by
  rw [Cuda.addFill_iff, Cuda.fillNodes_ends r.pattern r.start r.size h.1]
  refine and_congr_right fun hlt => ?_
  constructor
  · intro hall
    obtain ⟨fuel, params, hparams⟩ := (Cuda.fillNodes_ends r.pattern r.start r.size h.1).mpr hlt
    exact ⟨_, hall fuel params hparams, Cuda.fillNodes_filled h.1 hparams⟩
  · intro ⟨write, hwrite, hfilled⟩ fuel params hparams
    rw [← hfilled.unique (Cuda.fillNodes_filled h.1 hparams)]
    exact hwrite

/-- A range that is filled with words has the pattern. -/
theorem tiles_iff_wordsReachEnd {write : Bytes → Bytes} (h : r.Accepted)
    (hfilled : Filled r.pattern r.start r.patternSize.toNat
      (backendWordSize r.patternSize.toUInt32).toNat r.size.toNat write)
    (hlt : r.patternSize.toNat < 2 ^ 32) :
    Tiles r.pattern r.start r.patternSize.toNat r.size.toNat write ↔ WordsReachEnd r := by
  obtain ⟨-, -, hdvd⟩ := Cuda.backendWordSize_spec r.patternSize.toUInt32
  have hpos : 0 < r.patternSize.toNat :=
    Nat.pos_of_ne_zero fun hzero => h.ne_zero (UInt64.toNat_inj.mp hzero)
  rw [UInt64.toNat_toUInt32, Nat.mod_eq_of_lt hlt] at hdvd
  exact hfilled.tiles_iff hpos hdvd r.size.toNat_lt

/-- **The CUDA adapter** makes the same writes with both, if words reach the end. -/
theorem cuda_iff (h : r.Accepted) :
    AppendFills (fun write => Tiles r.pattern r.start r.patternSize.toNat r.size.toNat write ∧
        ∃ calls, r.cudaEnqueue = .ok (.success, calls) ∧ Cuda.runAll calls = write) r.cudaAppend ↔
      r.inBounds = true ∧ r.patternSize.toNat < 2 ^ 32 ∧ WordsReachEnd r := by
  rw [h.cudaAppend_eq, appendFills_iff h]
  constructor
  · intro ⟨hlt, write, ⟨htiles, calls, hcalls, _⟩, hfilled⟩
    exact ⟨(cudaEnqueue_iff.mp hcalls).1, hlt, (tiles_iff_wordsReachEnd h hfilled hlt).mp htiles⟩
  · intro ⟨hin, hlt, hend⟩
    obtain ⟨calls, hcalls, hfilled⟩ :=
      Cuda.fillBySize_filled r.size r.pattern r.start h.ne_zero hlt
    exact ⟨hlt, Cuda.runAll calls, ⟨(tiles_iff_wordsReachEnd h hfilled hlt).mpr hend, calls,
      cudaEnqueue_iff.mpr ⟨hin, hcalls⟩, rfl⟩, hfilled⟩

/-- **The HIP adapter** does so if its copies fit as well. -/
theorem hip_iff (h : r.Accepted) :
    AppendFills (fun write => Tiles r.pattern r.start r.patternSize.toNat r.size.toNat write ∧
        (∃ fuel calls, r.hipEnqueue copies fuel = .ok (.success, calls)) ∧
        ∀ fuel calls, r.hipEnqueue copies fuel = .ok (.success, calls) →
          runAll r.pattern calls = write) (fun cb syncPoints _ _ => r.hipAppend cb syncPoints) ↔
      r.inBounds = true ∧ r.patternSize.toNat < 2 ^ 32 ∧ WordsReachEnd r ∧
        CopiesFit copies r := by
  have happend : (fun cb syncPoints (_ : List Nat) (_ : Bool) => r.hipAppend cb syncPoints) =
      fun cb syncPoints _ _ =>
        addFill (Cuda.fillNodes r.pattern r.start r.patternSize r.size) cb syncPoints [] false := by
    funext cb syncPoints _ _ fuel
    exact h.hipAppend_eq cb syncPoints fuel
  rw [happend, Cuda.addFill_alone_iff, appendFills_iff h]
  have hfills := @fillBySize_iff copies r.patternSize r.size r.pattern r.start h.ne_zero
  constructor
  · intro ⟨hlt, write, ⟨htiles, ⟨fuel, calls, hcalls⟩, hall⟩, hfilled⟩
    obtain ⟨hin, hfill⟩ := hipEnqueue_iff.mp hcalls
    refine ⟨hin, hlt, (tiles_iff_wordsReachEnd h hfilled hlt).mp htiles, (hfills hlt).mp ?_⟩
    refine ⟨⟨fuel, calls, hfill⟩, fun fuel calls hfill => ?_⟩
    rw [hall fuel calls (hipEnqueue_iff.mpr ⟨hin, hfill⟩)]
    exact hfilled
  · intro ⟨hin, hlt, hend, hfit⟩
    have hqueue := (hfills hlt).mpr hfit
    obtain ⟨fuel, calls, hfill⟩ := hqueue.ends
    have hfilled := hqueue.writes fuel calls hfill
    refine ⟨hlt, runAll r.pattern calls, ⟨(tiles_iff_wordsReachEnd h hfilled hlt).mpr hend,
      ⟨fuel, calls, hipEnqueue_iff.mpr ⟨hin, hfill⟩⟩, fun fuel' calls' hcalls' => ?_⟩, hfilled⟩
    exact (hqueue.writes fuel' calls' (hipEnqueue_iff.mp hcalls').2).unique hfilled

/-- **When fills in command-buffers are right and those of queues the same.** -/
theorem fillsAgree_iff (copies : Bool) (r : Request) (h : r.Accepted) :
    FillsAgree copies r ↔ r.inBounds = true ∧ r.patternSize.toNat < 2 ^ 32 ∧ WordsReachEnd r ∧
      CopiesFit copies r := by
  rw [← hip_iff h]
  refine ⟨fun hagree => hagree.hip, fun hhip => ⟨(cuda_iff h).mpr ?_, hhip⟩⟩
  obtain ⟨hin, hlt, hend, -⟩ := (hip_iff h).mp hhip
  exact ⟨hin, hlt, hend⟩

theorem fillsAgree_eight :
    FillsAgree true ⟨UInt8.ofNat, 8, 16, .buffer 64 4096 8⟩ :=
  (fillsAgree_iff true ⟨UInt8.ofNat, 8, 16, .buffer 64 4096 8⟩
    ⟨by decide, Or.inl (by decide)⟩).mpr
    ⟨by decide, by decide, ⟨by decide, by decide⟩, fun _ _ => by decide⟩

/-- Six bytes at offset 0 with a pattern of four. -/
def sixBytes : Request := ⟨UInt8.ofNat, 4, 6, .buffer 64 4096 0⟩

/-- The last two of them are not written. -/
theorem fillsAgree_wrong : sixBytes.Accepted ∧ sixBytes.inBounds = true ∧
    ¬ FillsAgree false sixBytes := by
  have haccepted : sixBytes.Accepted := ⟨by decide, Or.inl (by decide)⟩
  refine ⟨haccepted, by decide, fun h => ?_⟩
  have hend := ((hip_iff haccepted).mp h.hip).2.2.1
  exact absurd hend.1 (by decide)

end UnifiedRuntime.Hip
