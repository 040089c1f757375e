import Mathlib.Data.Nat.Bitwise
import UnifiedRuntime.Cuda.LargePattern

/-!
# Fills in CUDA command-buffers

A command-buffer is a graph. A fill of up to four bytes is one memset node; a larger pattern has
a node that sets the range to the pattern's first four bytes, and then one for each other byte of
the pattern, each behind the one before. Node handles are the order in which nodes were added.

A driver call that fails throws; the nodes here are those of a driver that takes all. The loop over
the pattern has a counter of 32 bits.

- `addChain_spec`: the nodes of a chain depend on their predecessors.
- `fillNodes_ends`, `fillNodes_filled`: the chain ends for patterns below 4 GiB, and what it
  writes.
- `addFill_iff`: such a chain is added to every command-buffer.
-/

namespace UnifiedRuntime.Cuda

open PatternFill

/-! ## Graphs -/

/-- `CUDA_MEMSET_NODE_PARAMS`. -/
structure MemsetNodeParams where
  dst : UInt64
  pitch : UInt64
  value : Nat
  elementSize : UInt32
  width : UInt64
  height : UInt64

def MemsetNodeParams.run (p : MemsetNodeParams) : Bytes → Bytes :=
  setRows (fun o => byteOf p.value (o % p.elementSize.toNat)) p.dst p.pitch.toNat
    (p.width.toNat * p.elementSize.toNat) p.height.toNat

inductive NodeKind where
  | memset (params : MemsetNodeParams)
  | eventWait (event : Nat)
  | eventRecord (event : Nat)
  | other

structure GraphNode where
  kind : NodeKind
  dependencies : List Nat

inductive UrResult where
  | success
  | invalidValue
  | invalidSize

/-- `ur_exp_command_buffer_handle_t_`: its graph, sync-points and the events that were made. -/
structure CommandBuffer where
  nodes : List GraphNode
  syncPoints : UInt32 → Option Nat
  nextSyncPoint : UInt32
  nextEvent : Nat

namespace CommandBuffer

/-- `cuGraphAddMemsetNode` and the like, which return the new node. -/
def addNode (cb : CommandBuffer) (kind : NodeKind) (dependencies : List Nat) :
    CommandBuffer × Nat :=
  ({ cb with nodes := cb.nodes ++ [⟨kind, dependencies⟩] }, cb.nodes.length)

/-- `getNodesFromSyncPoints`. -/
def getNodesFromSyncPoints (cb : CommandBuffer) (syncPointWaitList : List UInt32) :
    Option (List Nat) :=
  syncPointWaitList.mapM cb.syncPoints

/-- `addWaitNodes`: a node for each event, which are the new dependencies. -/
def addWaitNodes (cb : CommandBuffer) (depsList : List Nat) :
    List Nat → CommandBuffer × List Nat
  | [] => (cb, [])
  | event :: events =>
    let r := cb.addNode (.eventWait event) depsList
    let r' := addWaitNodes r.1 depsList events
    (r'.1, r.2 :: r'.2)

/-- `addSignalNode`. -/
def addSignalNode (cb : CommandBuffer) (depNode : Nat) : CommandBuffer × Nat :=
  ({ cb with nextEvent := cb.nextEvent + 1 } : CommandBuffer).addNode (.eventRecord cb.nextEvent)
    [depNode]

/-- `addSyncPoint`. -/
def addSyncPoint (cb : CommandBuffer) (node : Nat) : CommandBuffer × UInt32 :=
  ({ cb with
      syncPoints := Function.update cb.syncPoints cb.nextSyncPoint (some node)
      nextSyncPoint := cb.nextSyncPoint + 1 }, cb.nextSyncPoint)

/-- Memset nodes, each of which depends on the one before. -/
def addChain (cb : CommandBuffer) (depsList : List Nat) (params : MemsetNodeParams) :
    List MemsetNodeParams → CommandBuffer × Nat
  | [] => cb.addNode (.memset params) depsList
  | next :: rest =>
    let r := cb.addNode (.memset params) depsList
    addChain r.1 [r.2] next rest

end CommandBuffer

/-! ## The functions -/

/-- The node for the first four bytes, and those for the others. -/
def decomposedNodes (pattern : Nat → UInt8) (dstPtr patternSize size : UInt64) (fuel : Nat) :
    Except Stop (MemsetNodeParams × List MemsetNodeParams) :=
  let numberOfSteps := patternSize
  let first : MemsetNodeParams :=
    { dst := dstPtr, elementSize := 4, height := size / 4, pitch := 4, value := word pattern 0 4
      width := 1 }
  (narrowLoop (fun step => .ok [
      { dst := dstPtr + step.toUInt64, elementSize := 1, height := size / numberOfSteps
        pitch := numberOfSteps, value := (pattern step.toNat).toNat, width := 1 }])
    1 numberOfSteps fuel 4).map fun steps => (first, steps)

/-- One node for the whole fill. -/
def oneNode (pattern : Nat → UInt8) (dstPtr patternSize size : UInt64) : MemsetNodeParams :=
  { dst := dstPtr
    elementSize := patternSize.toUInt32
    height := size / patternSize
    pitch := patternSize
    width := 1
    value :=
      if patternSize = 1 then word pattern 0 1
      else if patternSize = 2 then word pattern 0 2
      else if patternSize = 4 then word pattern 0 4
      else 0 }

/-- The nodes of `enqueueCommandBufferFillHelper`; a pattern of no bytes is divided by. -/
def fillNodes (pattern : Nat → UInt8) (dstPtr patternSize size : UInt64) (fuel : Nat) :
    Except Stop (MemsetNodeParams × List MemsetNodeParams) :=
  if patternSize = 0 then .error .fault
  else if patternSize ≤ 4 then .ok (oneNode pattern dstPtr patternSize size, [])
  else decomposedNodes pattern dstPtr patternSize size fuel

/-- The rest of `enqueueCommandBufferFillHelper`, around its memset nodes, with the sync-point that
it returns. -/
def addFill (nodes : Nat → Except Stop (MemsetNodeParams × List MemsetNodeParams))
    (cb : CommandBuffer) (syncPointWaitList : List UInt32) (eventWaitList : List Nat)
    (retEvent : Bool) (fuel : Nat) : Except Stop (UrResult × CommandBuffer × Option UInt32) :=
  match cb.getNodesFromSyncPoints syncPointWaitList with
  | none => .ok (.invalidValue, cb, none)
  | some depsList =>
    let waits := if eventWaitList.isEmpty then (cb, depsList)
      else cb.addWaitNodes depsList eventWaitList
    (nodes fuel).map fun params =>
      let chain := waits.1.addChain waits.2 params.1 params.2
      let signal := if retEvent then chain.1.addSignalNode chain.2 else chain
      let r := signal.1.addSyncPoint signal.2
      (.success, r.1, some r.2)

/-- `enqueueCommandBufferFillHelper`. -/
def enqueueCommandBufferFillHelper (cb : CommandBuffer) (dstDevice : UInt64)
    (pattern : Nat → UInt8) (patternSize size : UInt64) (syncPointWaitList : List UInt32)
    (eventWaitList : List Nat) (retEvent : Bool) (fuel : Nat) :
    Except Stop (UrResult × CommandBuffer × Option UInt32) :=
  addFill (fillNodes pattern dstDevice patternSize size) cb syncPointWaitList eventWaitList retEvent
    fuel

/-- Is the pattern size a positive power of two? -/
def patternSizeIsValid (patternSize : UInt64) : Bool :=
  (patternSize &&& (patternSize - 1)) == 0 && 0 < patternSize

/-- `urCommandBufferAppendMemBufferFillExp`; `ptr` is the buffer on the device. -/
def urCommandBufferAppendMemBufferFillExp (cb : CommandBuffer) (ptr : UInt64)
    (pPattern : Option (Nat → UInt8)) (patternSize offset size : UInt64)
    (syncPointWaitList : List UInt32) (eventWaitList : List Nat) (retEvent : Bool) (fuel : Nat) :
    Except Stop (UrResult × CommandBuffer × Option UInt32) :=
  if patternSize = 0 then .error .fault
  else
    let argsAreMultiplesOfPatternSize := offset % patternSize == 0 || size % patternSize == 0
    match pPattern with
    | none => .ok (.invalidSize, cb, none)
    | some pattern =>
      if argsAreMultiplesOfPatternSize && patternSizeIsValid patternSize then
        enqueueCommandBufferFillHelper cb (ptr + offset) pattern patternSize size
          syncPointWaitList eventWaitList retEvent fuel
      else .ok (.invalidSize, cb, none)

/-- `urCommandBufferAppendUSMFillExp`. -/
def urCommandBufferAppendUSMFillExp (cb : CommandBuffer) (pPtr : UInt64)
    (pPattern : Option (Nat → UInt8)) (patternSize size : UInt64)
    (syncPointWaitList : List UInt32) (eventWaitList : List Nat) (retEvent : Bool) (fuel : Nat) :
    Except Stop (UrResult × CommandBuffer × Option UInt32) :=
  match pPattern with
  | none => .ok (.invalidSize, cb, none)
  | some pattern =>
    if patternSizeIsValid patternSize then
      enqueueCommandBufferFillHelper cb pPtr pattern patternSize size syncPointWaitList
        eventWaitList retEvent fuel
    else .ok (.invalidSize, cb, none)

/-- `urEnqueueMemBufferFill`; `ptr` is the buffer on the device. -/
def urEnqueueMemBufferFill (bufferSize ptr : UInt64) (pPattern : Nat → UInt8)
    (patternSize offset size : UInt64) : Except Stop (UrResult × List Memset) :=
  if size + offset ≤ bufferSize then
    (fillBySize patternSize size pPattern (ptr + offset)).map fun calls => (.success, calls)
  else .ok (.invalidSize, [])

/-- `urEnqueueUSMFill`. -/
def urEnqueueUSMFill (ptr : UInt64) (pPattern : Nat → UInt8) (patternSize size : UInt64) :
    Except Stop (UrResult × List Memset) :=
  (fillBySize patternSize size pPattern ptr).map fun calls => (.success, calls)

/-! ## Chains -/

/-- What the nodes of a chain write, one after another. -/
def runNodes (params : List MemsetNodeParams) (mem : Bytes) : Bytes :=
  params.foldl (fun mem p => p.run mem) mem

/-- The nodes of a chain that begins at handle `base`: the first depends on what it is given, every
other one on its predecessor. -/
def chainNodes (base : Nat) (depsList : List Nat) : List MemsetNodeParams → List GraphNode
  | [] => []
  | params :: rest => ⟨.memset params, depsList⟩ :: chainNodes (base + 1) [base] rest

/-- **A chain is added**, and its last node returned. -/
theorem addChain_spec : ∀ (rest : List MemsetNodeParams) (params : MemsetNodeParams)
    (cb : CommandBuffer) (depsList : List Nat),
    cb.addChain depsList params rest =
      ({ cb with nodes := cb.nodes ++ chainNodes cb.nodes.length depsList (params :: rest) },
        cb.nodes.length + rest.length)
  | [], params, cb, depsList => rfl
  | next :: rest, params, cb, depsList => by
    rw [CommandBuffer.addChain]
    dsimp only [CommandBuffer.addNode]
    have hlength : (cb.nodes ++ [(⟨.memset params, depsList⟩ : GraphNode)]).length =
        cb.nodes.length + 1 := List.length_append
    rw [addChain_spec rest next]
    rw [hlength, List.append_assoc, Nat.add_assoc, Nat.add_comm 1]
    rfl

/-! ## What the nodes write -/

variable {pattern : Nat → UInt8} {dstPtr patternSize size : UInt64} {mem : Bytes}

/-- A valid size is 1, 2 or 4, or a multiple of 4. -/
theorem patternSize_cases (h : patternSizeIsValid patternSize = true) :
    patternSize ≠ 0 ∧ (patternSize = 1 ∨ patternSize = 2 ∨ patternSize = 4 ∨
      ¬ patternSize ≤ 4 ∧ 4 ∣ patternSize.toNat) := by
  obtain ⟨hand, hpos⟩ := Bool.and_eq_true_iff.mp h
  have hpos : 0 < patternSize.toNat := UInt64.lt_iff_toNat_lt.mp (of_decide_eq_true hpos)
  have hpow : patternSize.toNat.isPowerOfTwo := by
    refine (Nat.and_sub_one_eq_zero_iff_isPowerOfTwo (by omega)).mp ?_
    have hnat := congrArg UInt64.toNat (beq_iff_eq.mp hand)
    have hone : (1 : UInt64) ≤ patternSize := UInt64.le_iff_toNat_le.mpr hpos
    rw [UInt64.toNat_and, UInt64.toNat_sub_of_le _ _ hone] at hnat
    exact hnat
  obtain ⟨k, hk⟩ := hpow
  have hcase : ∀ n : UInt64, patternSize.toNat = n.toNat → patternSize = n :=
    fun _ h => UInt64.toNat_inj.mp h
  refine ⟨fun hzero => ?_, ?_⟩
  · rw [hzero] at hpos
    exact absurd hpos (by decide)
  · match k with
    | 0 => exact .inl (hcase 1 hk)
    | 1 => exact .inr (.inl (hcase 2 hk))
    | 2 => exact .inr (.inr (.inl (hcase 4 hk)))
    | k + 3 =>
      have hfour : (4 : UInt64).toNat = 4 := rfl
      have height : patternSize.toNat = 8 * 2 ^ k := by
        rw [hk, Nat.pow_add, Nat.mul_comm]
      refine .inr (.inr (.inr ⟨?_, 2 * 2 ^ k, by omega⟩))
      rw [UInt64.le_iff_toNat_le]
      omega

/-- Rows of the pattern's first word. -/
theorem wordNode_run {params : MemsetNodeParams} {w : Nat} (hw : 0 < w)
    (hfit : params.height.toNat * w ≤ 2 ^ 64) (helement : params.elementSize.toNat = w)
    (hpitch : params.pitch.toNat = w) (hwidth : params.width = 1)
    (hvalue : params.value = word pattern 0 w) :
    params.run mem =
      set (fun o => pattern (o % w)) params.dst (params.height.toNat * w) mem := by
  have hone : (1 : UInt64).toNat * w = w := Nat.one_mul w
  unfold MemsetNodeParams.run
  rw [helement, hpitch, hwidth, hone, hvalue, setRows_whole hw hfit]
  refine set_congr fun o _ => ?_
  rw [Nat.mod_mod, byteOf_word (Nat.mod_lt o hw), Nat.zero_add]

/-- **One node** writes a pattern of up to four bytes. -/
theorem oneNode_filled (pattern : Nat → UInt8) (dstPtr : UInt64)
    (hP : patternSize = 1 ∨ patternSize = 2 ∨ patternSize = 4) :
    Filled pattern dstPtr patternSize.toNat patternSize.toNat size.toNat
      (runNodes [oneNode pattern dstPtr patternSize size]) := by
  have hpos : 0 < patternSize.toNat := by
    rcases hP with rfl | rfl | rfl
    · decide
    · decide
    · decide
  have helement : patternSize.toUInt32.toNat = patternSize.toNat := by
    rcases hP with rfl | rfl | rfl
    · decide
    · decide
    · decide
  have hvalue : (oneNode pattern dstPtr patternSize size).value =
      word pattern 0 patternSize.toNat := by
    rcases hP with rfl | rfl | rfl
    · rfl
    · rfl
    · rfl
  have hle := Nat.div_mul_le_self size.toNat patternSize.toNat
  have hsize := size.toNat_lt
  have hheight : (oneNode pattern dstPtr patternSize size).height.toNat =
      size.toNat / patternSize.toNat := UInt64.toNat_div _ _
  intro mem a
  show (oneNode pattern dstPtr patternSize size).run mem a = _
  rw [wordNode_run hpos (by rw [hheight]; omega) helement rfl rfl hvalue]
  exact set_filled dvd_rfl hpos (fun r hr => by rw [Nat.mod_eq_of_lt hr]) mem a

/-- The node for the first four bytes. -/
def firstNode (pattern : Nat → UInt8) (dstPtr size : UInt64) : MemsetNodeParams :=
  { dst := dstPtr, elementSize := 4, height := size / 4, pitch := 4, value := word pattern 0 4
    width := 1 }

/-- The node for byte `k` of the pattern. -/
def byteNode (pattern : Nat → UInt8) (dstPtr patternSize size : UInt64) (k : Nat) :
    MemsetNodeParams :=
  { dst := dstPtr + UInt64.ofNat k, elementSize := 1, height := size / patternSize
    pitch := patternSize, value := (pattern k).toNat, width := 1 }

theorem byteNode_run {k : Nat} :
    (byteNode pattern dstPtr patternSize size k).run mem =
      setRows (fun i => pattern (k + i)) (dstPtr + UInt64.ofNat k) patternSize.toNat 1
        (size.toNat / patternSize.toNat) mem := by
  refine setRows_congr fun i hi => ?_
  rw [Nat.lt_one_iff.mp hi]
  show byteOf (pattern k).toNat 0 = pattern k
  unfold byteOf
  rw [Nat.pow_zero, Nat.div_one, UInt8.ofNat_toNat]

/-- **When the loop over the pattern ends**, and its nodes. -/
theorem decomposedNodes_iff {fuel : Nat} {params : MemsetNodeParams × List MemsetNodeParams}
    (hfour : 4 ≤ patternSize.toNat) :
    decomposedNodes pattern dstPtr patternSize size fuel = .ok params ↔
      patternSize.toNat < 2 ^ 32 ∧ patternSize.toNat - 4 < fuel ∧
        params = (firstNode pattern dstPtr size,
          (List.range (patternSize.toNat - 4)).map fun k =>
            byteNode pattern dstPtr patternSize size (4 + k)) := by
  have hcounter : (4 : UInt32).toNat = 4 := rfl
  have hone : (1 : UInt64).toNat = 1 := rfl
  have hnode : ∀ k < patternSize.toNat - 4, patternSize.toNat < 2 ^ 32 →
      MemsetNodeParams.mk (dstPtr + (UInt32.ofNat (4 + k)).toUInt64) patternSize
          (pattern (UInt32.ofNat (4 + k)).toNat).toNat 1 1 (size / patternSize) =
        byteNode pattern dstPtr patternSize size (4 + k) := by
    intro k hk hlt
    have hstep : (UInt32.ofNat (4 + k)).toNat = 4 + k := UInt32.toNat_ofNat_of_lt' (by
      show _ < 2 ^ 32
      omega)
    have hplace : (UInt32.ofNat (4 + k)).toUInt64 = UInt64.ofNat (4 + k) := by
      apply UInt64.toNat.inj
      rw [UInt32.toNat_toUInt64, hstep, UInt64.toNat_ofNat', Nat.mod_eq_of_lt (by omega)]
    unfold byteNode
    rw [hplace, hstep]
  have hloop := @narrowLoop_hits MemsetNodeParams (fun step => .ok [
    MemsetNodeParams.mk (dstPtr + step.toUInt64) patternSize (pattern step.toNat).toNat 1 1
      (size / patternSize)]) 1 patternSize
  unfold decomposedNodes
  dsimp only
  constructor
  · intro h
    obtain ⟨steps, hsteps, rfl⟩ := except_map_ok h
    obtain ⟨hlt, hfuel, f, hf, rfl⟩ := (hloop (m := patternSize.toNat - 4) (by decide)
      (by rw [hone]; omega)).mp hsteps
    refine ⟨hlt, hfuel, Prod.ext rfl ?_⟩
    rw [List.map_eq_flatMap]
    refine List.flatMap_congr fun k hk => ?_
    have hk' := List.mem_range.mp hk
    have hround := hf k hk'
    rw [hcounter, hone, Nat.mul_one] at hround
    rw [← Except.ok.inj hround, hnode k hk' hlt]
  · rintro ⟨hlt, hfuel, rfl⟩
    rw [(hloop (m := patternSize.toNat - 4) (by decide) (by rw [hone]; omega)).mpr
      ⟨hlt, hfuel, fun k => [byteNode pattern dstPtr patternSize size (4 + k)], fun k hk => ?_, rfl⟩]
    · rw [← List.map_eq_flatMap]
      rfl
    · rw [hcounter, hone, Nat.mul_one, hnode k hk hlt]

/-- **The decomposed nodes** write a pattern that is a multiple of four bytes. -/
theorem decomposedNodes_filled (pattern : Nat → UInt8) (dstPtr : UInt64)
    (hfour : 4 ∣ patternSize.toNat) (hpos : 0 < patternSize.toNat) :
    Filled pattern dstPtr patternSize.toNat 4 size.toNat (runNodes
      (firstNode pattern dstPtr size ::
        (List.range (patternSize.toNat - 4)).map fun k =>
          byteNode pattern dstPtr patternSize size (4 + k))) := by
  have hsize := size.toNat_lt
  have hheight : (firstNode pattern dstPtr size).height.toNat = size.toNat / 4 :=
    UInt64.toNat_div _ _
  have hcolumns : ∀ mem, ((List.range (patternSize.toNat - 4)).map fun k =>
      byteNode pattern dstPtr patternSize size (4 + k)).foldl (fun mem p => p.run mem) mem =
        setColumns pattern dstPtr patternSize.toNat (size.toNat / patternSize.toNat)
          (evenColumns 4 1 (patternSize.toNat - 4)) mem := by
    intro mem
    unfold setColumns evenColumns
    rw [List.foldl_map, List.foldl_map]
    refine List.foldl_ext _ _ _ fun mem k _ => ?_
    rw [byteNode_run, Nat.mul_one]
  intro mem a
  unfold runNodes
  rw [List.foldl_cons, hcolumns, wordNode_run (w := 4) (by decide) (by omega) rfl rfl
    rfl rfl]
  exact columns_filled Nat.one_pos (by omega) hfour hpos (Nat.le_of_lt hsize) mem a

/-- **The nodes of a fill** come to an end for patterns below 4 GiB. -/
theorem fillNodes_ends (pattern : Nat → UInt8) (dstPtr size : UInt64)
    (hvalid : patternSizeIsValid patternSize = true) :
    (∃ fuel params, fillNodes pattern dstPtr patternSize size fuel = .ok params) ↔
      patternSize.toNat < 2 ^ 32 := by
  obtain ⟨hzero, hcases⟩ := patternSize_cases hvalid
  have hfour : (4 : UInt64).toNat = 4 := rfl
  unfold fillNodes
  simp only [if_neg hzero]
  by_cases hle : patternSize ≤ 4
  · simp only [if_pos hle]
    rw [UInt64.le_iff_toNat_le] at hle
    exact ⟨fun _ => by omega, fun _ => ⟨0, _, rfl⟩⟩
  · simp only [if_neg hle]
    rw [UInt64.le_iff_toNat_le] at hle
    constructor
    · rintro ⟨fuel, params, h⟩
      exact ((decomposedNodes_iff (by omega)).mp h).1
    · intro hlt
      exact ⟨patternSize.toNat, _, (decomposedNodes_iff (by omega)).mpr ⟨hlt, by omega, rfl⟩⟩

/-- **What they write.** -/
theorem fillNodes_filled {fuel : Nat} {params : MemsetNodeParams × List MemsetNodeParams}
    (hvalid : patternSizeIsValid patternSize = true)
    (h : fillNodes pattern dstPtr patternSize size fuel = .ok params) :
    Filled pattern dstPtr patternSize.toNat (backendWordSize patternSize.toUInt32).toNat size.toNat
      (runNodes (params.1 :: params.2)) := by
  obtain ⟨hzero, hcases⟩ := patternSize_cases hvalid
  have hone : ∀ w : UInt64, w = 1 ∨ w = 2 ∨ w = 4 →
      (backendWordSize w.toUInt32).toNat = w.toNat ∧ w ≤ 4 := by
    rintro w (rfl | rfl | rfl)
    · decide
    · decide
    · decide
  have hsmall : patternSize = 1 ∨ patternSize = 2 ∨ patternSize = 4 →
      Filled pattern dstPtr patternSize.toNat (backendWordSize patternSize.toUInt32).toNat
        size.toNat (runNodes (params.1 :: params.2)) := by
    intro hP
    obtain ⟨hword, hle⟩ := hone patternSize hP
    unfold fillNodes at h
    rw [if_neg hzero, if_pos hle] at h
    rw [← Except.ok.inj h, hword]
    exact oneNode_filled pattern dstPtr hP
  rcases hcases with hP | hP | hP | ⟨hlarge, hdvd⟩
  · exact hsmall (.inl hP)
  · exact hsmall (.inr (.inl hP))
  · exact hsmall (.inr (.inr hP))
  · unfold fillNodes at h
    rw [if_neg hzero, if_neg hlarge] at h
    rw [UInt64.le_iff_toNat_le] at hlarge
    obtain ⟨hlt, -, rfl⟩ := (decomposedNodes_iff (by omega)).mp h
    have hword : (backendWordSize patternSize.toUInt32).toNat = 4 := by
      unfold backendWordSize
      rw [if_pos]
      · rfl
      · apply UInt32.toNat_inj.mp
        rw [UInt32.toNat_mod, UInt64.toNat_toUInt32, Nat.mod_eq_of_lt hlt]
        exact Nat.mod_eq_zero_of_dvd hdvd
    rw [hword]
    exact decomposedNodes_filled pattern dstPtr hdvd (by omega)

/-! ## What is added to the command-buffer -/

/-- A fill is added behind `depsList`: a node for each event that is waited for, the chain, and a
node that records the event to return. The sync-point is for the last of them. -/
def AddsFill (right : (Bytes → Bytes) → Prop) (cb cb' : CommandBuffer) (depsList : List Nat)
    (syncPoint : UInt32) : Prop :=
  ∃ (events : List Nat) (params : MemsetNodeParams) (rest : List MemsetNodeParams)
    (signal : List GraphNode) (last : Nat),
    let base := cb.nodes.length + events.length
    cb'.nodes = cb.nodes ++ events.map (fun event => ⟨.eventWait event, depsList⟩) ++
        chainNodes base (if events.isEmpty then depsList else List.range' cb.nodes.length events.length)
          (params :: rest) ++ signal ∧
      right (runNodes (params :: rest)) ∧ cb'.syncPoints syncPoint = some last ∧
      (signal = [] ∧ last = base + rest.length ∨
        ∃ event, signal = [⟨.eventRecord event, [base + rest.length]⟩] ∧
          last = base + rest.length + 1)

/-- **A fill ends and is added** to every command-buffer, behind sync-points that it has. -/
structure AppendFills (right : (Bytes → Bytes) → Prop) (append : CommandBuffer → List UInt32 →
    List Nat → Bool → Nat → Except Stop (UrResult × CommandBuffer × Option UInt32)) : Prop where
  ends : ∀ cb syncPoints events retEvent, (cb.getNodesFromSyncPoints syncPoints).isSome →
    ∃ fuel cb' syncPoint,
      append cb syncPoints events retEvent fuel = .ok (.success, cb', some syncPoint)
  adds : ∀ cb syncPoints events retEvent fuel cb' syncPoint depsList,
    cb.getNodesFromSyncPoints syncPoints = some depsList →
      append cb syncPoints events retEvent fuel = .ok (.success, cb', some syncPoint) →
        AddsFill right cb cb' depsList syncPoint

theorem addWaitNodes_spec : ∀ (events : List Nat) (cb : CommandBuffer) (depsList : List Nat),
    cb.addWaitNodes depsList events =
      ({ cb with nodes := cb.nodes ++ events.map fun event => ⟨.eventWait event, depsList⟩ },
        List.range' cb.nodes.length events.length)
  | [], cb, depsList => by
    rw [List.map_nil, List.append_nil]
    rfl
  | event :: events, cb, depsList => by
    have hlength : (cb.nodes ++ [(⟨.eventWait event, depsList⟩ : GraphNode)]).length =
        cb.nodes.length + 1 := List.length_append
    rw [CommandBuffer.addWaitNodes]
    dsimp only [CommandBuffer.addNode]
    rw [addWaitNodes_spec events]
    rw [hlength, List.append_assoc]
    rfl

/-- The memset nodes of a list of nodes. -/
def memsets (nodes : List GraphNode) : List MemsetNodeParams :=
  nodes.filterMap fun node => match node.kind with
    | .memset params => some params
    | _ => none

theorem memsets_chainNodes : ∀ (params : List MemsetNodeParams) (base : Nat) (depsList : List Nat),
    memsets (chainNodes base depsList params) = params
  | [], _, _ => rfl
  | params :: rest, base, depsList => by
    show params :: memsets (chainNodes (base + 1) [base] rest) = params :: rest
    rw [memsets_chainNodes rest]

theorem memsets_waits (events depsList : List Nat) :
    memsets (events.map fun event => ⟨.eventWait event, depsList⟩) = [] := by
  unfold memsets
  rw [List.filterMap_map]
  exact List.filterMap_eq_nil_iff.mpr fun _ _ => rfl

/-- The memset nodes that a fill adds are those of its chain. -/
theorem AddsFill.right {right : (Bytes → Bytes) → Prop} {cb cb' : CommandBuffer}
    {depsList : List Nat} {syncPoint : UInt32} (h : AddsFill right cb cb' depsList syncPoint) :
    right (runNodes (memsets (cb'.nodes.drop cb.nodes.length))) := by
  obtain ⟨events, params, rest, signal, last, hnodes, hright, -, hsignal⟩ := h
  have hnone : memsets signal = [] := by
    rcases hsignal with ⟨rfl, -⟩ | ⟨event, rfl, -⟩
    · rfl
    · rfl
  have hsplit : ∀ l l' : List GraphNode, memsets (l ++ l') = memsets l ++ memsets l' := fun _ _ =>
    List.filterMap_append
  rw [hnodes, List.append_assoc, List.append_assoc, List.drop_left, hsplit, hsplit, memsets_waits,
    memsets_chainNodes, hnone, List.append_nil]
  exact hright

theorem syncPoints_nil (cb : CommandBuffer) : cb.getNodesFromSyncPoints [] = some [] := rfl

/-- A fill whose nodes end. -/
theorem addFill_adds {nodes : Nat → Except Stop (MemsetNodeParams × List MemsetNodeParams)}
    {cb : CommandBuffer} {syncPoints : List UInt32} {depsList : List Nat} {fuel : Nat}
    {params : MemsetNodeParams × List MemsetNodeParams} (events : List Nat) (retEvent : Bool)
    (hdeps : cb.getNodesFromSyncPoints syncPoints = some depsList)
    (hparams : nodes fuel = .ok params) :
    ∃ cb' syncPoint, addFill nodes cb syncPoints events retEvent fuel =
        .ok (.success, cb', some syncPoint) ∧
      ∀ right : (Bytes → Bytes) → Prop, right (runNodes (params.1 :: params.2)) →
        AddsFill right cb cb' depsList syncPoint := by
  have hwaits : (if events.isEmpty = true then (cb, depsList)
      else cb.addWaitNodes depsList events) =
        ({ cb with nodes := cb.nodes ++ events.map fun event => ⟨.eventWait event, depsList⟩ },
          if events.isEmpty then depsList else List.range' cb.nodes.length events.length) := by
    cases events with
    | nil =>
      rw [List.map_nil, List.append_nil]
      rfl
    | cons event events =>
      rw [addWaitNodes_spec]
      rfl
  have hlength : (cb.nodes ++ events.map fun event =>
      (⟨.eventWait event, depsList⟩ : GraphNode)).length = cb.nodes.length + events.length := by
    rw [List.length_append, List.length_map]
  have hchain : ∀ (base : Nat) (deps : List Nat) (ps : List MemsetNodeParams),
      (chainNodes base deps ps).length = ps.length := by
    intro base deps ps
    induction ps generalizing base deps with
    | nil => rfl
    | cons p ps ih => rw [chainNodes, List.length_cons, List.length_cons, ih]
  unfold addFill
  rw [hdeps]
  rw [hparams]
  refine ⟨_, _, rfl, fun right hright => ?_⟩
  rw [hwaits, addChain_spec]
  rw [hlength]
  cases retEvent with
  | false =>
    refine ⟨events, params.1, params.2, [], _, ?_, hright, Function.update_self .., .inl ⟨rfl, rfl⟩⟩
    rw [List.append_nil]
    rfl
  | true =>
    refine ⟨events, params.1, params.2, [⟨.eventRecord cb.nextEvent, [_]⟩], _, rfl, hright,
      Function.update_self .., .inr ⟨cb.nextEvent, rfl, ?_⟩⟩
    show List.length (_ ++ chainNodes _ _ _) = _
    rw [List.length_append, hlength, hchain]
    rfl

variable {right : (Bytes → Bytes) → Prop}
  {nodes : Nat → Except Stop (MemsetNodeParams × List MemsetNodeParams)}

/-- A fill that takes no events is added: its nodes end and are right. -/
theorem AppendFills.nodes_right
    (h : AppendFills right fun cb syncPoints _ _ => addFill nodes cb syncPoints [] false) :
    (∃ fuel params, nodes fuel = .ok params) ∧
      ∀ fuel params, nodes fuel = .ok params → right (runNodes (params.1 :: params.2)) := by
  let cb : CommandBuffer := ⟨[], fun _ => none, 0, 0⟩
  constructor
  · obtain ⟨fuel, cb', syncPoint, hadd⟩ := h.ends cb [] [] false rfl
    obtain ⟨params, hparams, -⟩ := except_map_ok hadd
    exact ⟨fuel, params, hparams⟩
  · intro fuel params hparams
    obtain ⟨cb', syncPoint, hadd, hadds⟩ := addFill_adds [] false (syncPoints_nil cb) hparams
    have hright := (h.adds cb [] [] false fuel cb' syncPoint [] rfl hadd).right
    have hown := (hadds (fun write => write = runNodes (params.1 :: params.2)) rfl).right
    rw [hown] at hright
    exact hright

/-- Nodes that end and are right. -/
theorem appendFills_of_nodes (h : (∃ fuel params, nodes fuel = .ok params) ∧
    ∀ fuel params, nodes fuel = .ok params → right (runNodes (params.1 :: params.2))) :
    AppendFills right (addFill nodes) := by
  obtain ⟨⟨fuel, params, hparams⟩, hright⟩ := h
  constructor
  · intro cb syncPoints events retEvent hsome
    obtain ⟨depsList, hdeps⟩ := Option.isSome_iff_exists.mp hsome
    obtain ⟨cb', syncPoint, hadd, -⟩ := addFill_adds events retEvent hdeps hparams
    exact ⟨fuel, cb', syncPoint, hadd⟩
  · intro cb syncPoints events retEvent fuel cb' syncPoint depsList hdeps hadd
    have hend : ∃ params, nodes fuel = .ok params := by
      unfold addFill at hadd
      rw [hdeps] at hadd
      obtain ⟨params, hparams, -⟩ := except_map_ok hadd
      exact ⟨params, hparams⟩
    obtain ⟨params, hparams⟩ := hend
    obtain ⟨cb₁, syncPoint₁, hadd₁, hadds⟩ := addFill_adds events retEvent hdeps hparams
    obtain ⟨-, hout⟩ := Prod.mk.inj (Except.ok.inj (hadd₁.symm.trans hadd))
    obtain ⟨rfl, hsync⟩ := Prod.mk.inj hout
    rw [← Option.some.inj hsync]
    exact hadds right (hright fuel params hparams)

theorem AppendFills.alone (h : AppendFills right (addFill nodes)) :
    AppendFills right fun cb syncPoints _ _ => addFill nodes cb syncPoints [] false :=
  ⟨fun cb syncPoints _ _ hsome => h.ends cb syncPoints [] false hsome,
    fun cb syncPoints _ _ => h.adds cb syncPoints [] false⟩

/-- **A fill is added with its chain**, if the nodes end and are right. -/
theorem addFill_iff : AppendFills right (addFill nodes) ↔
    (∃ fuel params, nodes fuel = .ok params) ∧
      ∀ fuel params, nodes fuel = .ok params → right (runNodes (params.1 :: params.2)) :=
  ⟨fun h => h.alone.nodes_right, appendFills_of_nodes⟩

/-- So it is for a helper that takes no events. -/
theorem addFill_alone_iff :
    AppendFills right (fun cb syncPoints _ _ => addFill nodes cb syncPoints [] false) ↔
      AppendFills right (addFill nodes) :=
  ⟨fun h => appendFills_of_nodes h.nodes_right, fun h => h.alone⟩

end UnifiedRuntime.Cuda
