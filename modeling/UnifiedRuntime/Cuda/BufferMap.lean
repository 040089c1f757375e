import UnifiedRuntime.Lib.Assoc
import UnifiedRuntime.Lib.GuardedRuns

/-!
# Mapped buffers of the CUDA adapter

A buffer keeps what is mapped by the pointer that a map returned. Buffers with a host pointer return
it with the offset added, others memory of their own. Mapped memory is read from the buffer by a map
and written back by an unmap; pinned buffers are on the host and need neither.

The buffer is on one device and no sub-buffer. Commands take effect when they are enqueued; what the
driver and the queue make of a command is given with the call.

- `bufferMaps_right`: runs of careful calls are right.
-/

namespace UnifiedRuntime.Cuda

open Assoc (emplace)

/-! ## Buffers -/

/-- `UR_MEM_FLAG_USE_HOST_POINTER`. -/
def useHostPointer : UInt32 := 8

/-- `UR_MEM_FLAG_ALLOC_HOST_POINTER`. -/
def allocHostPointer : UInt32 := 16

/-- `UR_MEM_FLAG_ALLOC_COPY_HOST_POINTER`. -/
def allocCopyHostPointer : UInt32 := 32

/-- `UR_MAP_FLAG_READ`. -/
def mapRead : UInt32 := 1

/-- `UR_MAP_FLAG_WRITE`. -/
def mapWrite : UInt32 := 2

/-- `UR_MAP_FLAG_WRITE_INVALIDATE_REGION`. -/
def mapWriteInvalidate : UInt32 := 4

/-- `BufferMem::AllocMode`. -/
inductive AllocMode where
  | classic
  | useHostPtr
  | copyIn
  | allocHostPtr
deriving DecidableEq

/-- `BufferMem::BufferMap`; its memory is that at the pointer. -/
structure BufferMap where
  mapSize : Nat
  mapOffset : Nat
  mapFlags : UInt32
deriving DecidableEq

/-- `BufferMem`; 0 is `nullptr`. -/
structure BufferMem where
  hostPtr : Nat
  size : Nat
  ptrToBufferMap : List (Nat × BufferMap)
  memAllocMode : AllocMode

inductive MapResult where
  | success
  | invalidHostPtr
  | invalidBufferSize
  | invalidSize
  | invalidMemObject
  /-- Errors of the driver, of the queue and of events. -/
  | failed
deriving DecidableEq

/-- `urMemBufferCreate`, as far as the buffer goes; `provided` is what the provider of host memory
allocates. -/
def urMemBufferCreate (flags : UInt32) (size pHost : Nat) (provided : Option Nat) :
    Except MapResult BufferMem :=
  if flags &&& (useHostPointer ||| allocCopyHostPointer) ≠ 0 ∧ pHost = 0 then .error .invalidHostPtr
  else if size = 0 then .error .invalidBufferSize
  -- `EnableUseHostPtr` is a constant `false`
  else if flags &&& allocHostPointer ≠ 0 then
    match provided with
    | none => .error .failed
    | some hostPtr => .ok ⟨hostPtr, size, [], .allocHostPtr⟩
  else if flags &&& allocCopyHostPointer ≠ 0 then .ok ⟨pHost, size, [], .copyIn⟩
  else .ok ⟨pHost, size, [], .classic⟩

namespace BufferMem

/-- `getMapDetails`. -/
def getMapDetails (b : BufferMem) (map : Nat) : Option BufferMap := b.ptrToBufferMap.lookup map

/-- `unmap`. -/
def unmap (b : BufferMem) (mapPtr : Nat) : BufferMem :=
  { b with ptrToBufferMap := b.ptrToBufferMap.filter (·.1 ≠ mapPtr) }

def isPinned (b : BufferMem) : Bool := b.memAllocMode == .allocHostPtr

end BufferMem

/-! ## Memory -/

/-- A buffer, the memory of the host and the allocation on the device. -/
structure MapState where
  buffer : BufferMem
  host : Nat → UInt8
  device : Nat → UInt8

/-- Bytes are copied to `dst`. -/
def copyTo (mem : Nat → UInt8) (dst n : Nat) (src : Nat → UInt8) : Nat → UInt8 := fun q =>
  if dst ≤ q ∧ q < dst + n then src (q - dst) else mem q

/-- How a command ends: an error may come in front of the copy or behind it. -/
inductive Outcome where
  | succeeds
  | failsBefore
  | failsAfter
deriving DecidableEq

def Outcome.result : Outcome → MapResult
  | .succeeds => .success
  | .failsBefore | .failsAfter => .failed

namespace MapState

variable (s : MapState)

/-- Does `cuMemHostGetDevicePointer` give the address on the device? -/
def onHost : Bool :=
  s.buffer.memAllocMode == .allocHostPtr || s.buffer.memAllocMode == .useHostPtr

/-- The bytes of the buffer. -/
def content (i : Nat) : UInt8 := if s.onHost then s.host (s.buffer.hostPtr + i) else s.device i

/-- `urEnqueueMemBufferRead`. -/
def urEnqueueMemBufferRead (offset size pDst : Nat) (outcome : Outcome) : MapResult × MapState :=
  if s.buffer.size < (offset + size) % 2 ^ 64 then (.invalidSize, s)
  else if outcome = .failsBefore then (.failed, s)
  else (outcome.result,
    { s with host := copyTo s.host pDst size fun k => s.content (offset + k) })

/-- `urEnqueueMemBufferWrite`. -/
def urEnqueueMemBufferWrite (offset size pSrc : Nat) (outcome : Outcome) : MapResult × MapState :=
  if s.buffer.size < (offset + size) % 2 ^ 64 then (.invalidSize, s)
  else if outcome = .failsBefore then (.failed, s)
  else if s.onHost then (outcome.result,
    { s with host := copyTo s.host (s.buffer.hostPtr + offset) size fun k => s.host (pSrc + k) })
  else (outcome.result,
    { s with device := copyTo s.device offset size fun k => s.host (pSrc + k) })

/-- `mapToPtr`; `allocated` is the memory that `std::make_unique` gets, which it clears. An entry
that the pointer has already stays. -/
def mapToPtr (mapSize mapOffset : Nat) (mapFlags : UInt32) (allocated : Nat) : Nat × MapState :=
  let map := BufferMap.mk mapSize mapOffset mapFlags
  if s.buffer.hostPtr = 0 then
    (allocated,
      { s with
        buffer.ptrToBufferMap := emplace s.buffer.ptrToBufferMap allocated map
        host := copyTo s.host allocated mapSize fun _ => 0 })
  else
    (s.buffer.hostPtr + mapOffset,
      { s with
        buffer.ptrToBufferMap :=
          emplace s.buffer.ptrToBufferMap (s.buffer.hostPtr + mapOffset) map })

/-- `urEnqueueMemBufferMap`: the result, the pointer and the state behind it. -/
def urEnqueueMemBufferMap (mapFlags : UInt32) (offset size allocated : Nat) (outcome : Outcome) :
    MapResult × Option Nat × MapState :=
  if s.buffer.size < (offset + size) % 2 ^ 64 then (.invalidSize, none, s)
  else
    let mapped := s.mapToPtr size offset mapFlags allocated
    if mapped.1 = 0 then (.invalidMemObject, none, mapped.2)
    else if !s.buffer.isPinned && (mapFlags &&& mapRead != 0 || mapFlags &&& mapWrite != 0) then
      let read := mapped.2.urEnqueueMemBufferRead offset size mapped.1 outcome
      (read.1, some mapped.1, read.2)
    else (outcome.result, some mapped.1, mapped.2)

/-- `urEnqueueMemUnmap`: the result and the state behind it. -/
def urEnqueueMemUnmap (mappedPtr : Nat) (outcome : Outcome) : MapResult × MapState :=
  match s.buffer.getMapDetails mappedPtr with
  | none => (.invalidMemObject, s)
  | some map =>
    let written :=
      if !s.buffer.isPinned && map.mapFlags &&& mapWrite != 0 then
        s.urEnqueueMemBufferWrite map.mapOffset map.mapSize mappedPtr outcome
      else (outcome.result, s)
    (written.1, { written.2 with buffer := written.2.buffer.unmap mappedPtr })

end MapState

/-! ## Calls -/

/-- Calls, and what happens between them: the application writes to memory of the host, and other
commands to the buffer. -/
inductive MapCall where
  | map (mapFlags : UInt32) (offset size allocated : Nat) (outcome : Outcome)
  | unmap (mappedPtr : Nat) (outcome : Outcome)
  | hostWrite (ptr : Nat) (value : UInt8)
  | bufferWrite (i : Nat) (value : UInt8)

def MapState.step (s : MapState) : MapCall → MapState
  | .map mapFlags offset size allocated outcome =>
    (s.urEnqueueMemBufferMap mapFlags offset size allocated outcome).2.2
  | .unmap mappedPtr outcome => (s.urEnqueueMemUnmap mappedPtr outcome).2
  | .hostWrite ptr value => { s with host := Function.update s.host ptr value }
  | .bufferWrite i value =>
    if s.onHost then { s with host := Function.update s.host (s.buffer.hostPtr + i) value }
    else { s with device := Function.update s.device i value }

/-- Maps are of a range in the buffer, and memory for a map is not that of another one. -/
def MapState.Allowed (s : MapState) : MapCall → Prop
  | .map _ offset size allocated _ => offset + size ≤ s.buffer.size ∧ allocated ≠ 0 ∧
      ∀ e ∈ s.buffer.ptrToBufferMap, e.1 ≠ allocated
  | .unmap _ _ | .hostWrite _ _ => True
  | .bufferWrite i _ => i < s.buffer.size

/-! ## Mappings and memory -/

def writable (flags : UInt32) : Bool := flags &&& (mapWrite ||| mapWriteInvalidate) != 0

def writeInvalidate (flags : UInt32) : Bool := flags &&& mapWriteInvalidate != 0

/-- **A mapping shows the bytes of its range**, unless it is to be overwritten. Nothing else is
written, in particular not memory that was only copied from. -/
structure Shown (s s' : MapState) (result : MapResult) (ptr : Nat) (map : BufferMap) : Prop where
  shows : result = .success → writeInvalidate map.mapFlags = false → ∀ k < map.mapSize,
    s'.host (ptr + k) = s.content (map.mapOffset + k)
  buffer : ∀ i < s.buffer.size, s'.content i = s.content i
  outside : ∀ q, q < ptr ∨ ptr + map.mapSize ≤ q → s'.host q = s.host q
  copiedFrom : s.buffer.memAllocMode = .copyIn → ∀ k < s.buffer.size,
    s'.host (s.buffer.hostPtr + k) = s.host (s.buffer.hostPtr + k)

/-- **An unmap writes the range of a writable mapping back**, and nothing else. -/
structure WrittenBack (s s' : MapState) (result : MapResult) (ptr : Nat) (map : BufferMap) :
    Prop where
  written : result = .success → writable map.mapFlags = true → ∀ k < map.mapSize,
    s'.content (map.mapOffset + k) = s.host (ptr + k)
  others : ∀ i, writable map.mapFlags = false ∨ i < map.mapOffset ∨
    map.mapOffset + map.mapSize ≤ i → s'.content i = s.content i
  host : s'.host = s.host

/-- **Every call of the run is right.** `live` is what was mapped and is not unmapped yet: each map
adds a mapping, and an unmap takes one with its pointer, or is rejected where there is none. Where
writing back fails, the mapping stays. -/
def MapsRight : List (Nat × BufferMap) → MapState → List MapCall → Prop
  | _, _, [] => True
  | live, s, .map mapFlags offset size allocated outcome :: calls =>
    let r := s.urEnqueueMemBufferMap mapFlags offset size allocated outcome
    ∃ ptr, r.2.1 = some ptr ∧ Shown s r.2.2 r.1 ptr ⟨size, offset, mapFlags⟩ ∧
      MapsRight ((ptr, ⟨size, offset, mapFlags⟩) :: live) r.2.2 calls
  | live, s, .unmap ptr outcome :: calls =>
    let r := s.urEnqueueMemUnmap ptr outcome
    (∀ m ∈ live, m.1 ≠ ptr) ∧ r.1 = .invalidMemObject ∧ r.2 = s ∧ MapsRight live r.2 calls ∨
    ∃ m ∈ live, m.1 = ptr ∧ r.1 ≠ .invalidMemObject ∧ WrittenBack s r.2 r.1 ptr m.2 ∧
      if r.1 ≠ .success ∧ s.buffer.isPinned = false ∧ writable m.2.mapFlags = true then
        r.2.buffer.getMapDetails ptr ≠ none ∧ MapsRight live r.2 calls
      else MapsRight (live.erase m) r.2 calls
  | live, s, call :: calls => MapsRight live (s.step call) calls

/-! ## Careful calls -/

/-- **Calls after which mappings and memory agree**: a pointer is not mapped twice at a time, a buffer that was
copied from its host pointer is not read there, something is read for a mapping that is shown, and a
mapping that is to be overwritten can be written as well. Writing back does not fail. -/
def MapState.Careful (s : MapState) : MapCall → Prop
  | .map mapFlags offset size _ outcome =>
    (s.buffer.hostPtr ≠ 0 → ∀ e ∈ s.buffer.ptrToBufferMap, e.1 ≠ s.buffer.hostPtr + offset) ∧
    (s.buffer.memAllocMode = .copyIn → size = 0 ∨ outcome = .failsBefore ∨
      mapFlags &&& mapRead = 0 ∧ mapFlags &&& mapWrite = 0) ∧
    (s.buffer.isPinned = true ∨ size = 0 ∨ outcome ≠ .succeeds ∨ mapFlags &&& mapRead ≠ 0 ∨
      mapFlags &&& mapWrite ≠ 0 ∨ writeInvalidate mapFlags = true)
  | .unmap ptr outcome => ∀ map, s.buffer.getMapDetails ptr = some map →
    s.buffer.isPinned = true ∨ writable map.mapFlags = false ∨
      outcome = .succeeds ∧ (map.mapFlags &&& mapWrite ≠ 0 ∨ map.mapSize = 0)
  | .hostWrite _ _ | .bufferWrite _ _ => True

instance (s : MapState) : (call : MapCall) → Decidable (s.Allowed call)
  | .map _ _ _ _ _ => inferInstanceAs (Decidable (_ ∧ _ ∧ _))
  | .unmap _ _ | .hostWrite _ _ => inferInstanceAs (Decidable True)
  | .bufferWrite _ _ => inferInstanceAs (Decidable (_ < _))

instance (s : MapState) : (call : MapCall) → Decidable (s.Careful call)
  | .map _ _ _ _ _ => inferInstanceAs (Decidable ((_ → _) ∧ (_ → _) ∧ _))
  | .unmap ptr outcome => inferInstanceAs (Decidable (∀ map ∈ s.buffer.getMapDetails ptr,
      s.buffer.isPinned = true ∨ writable map.mapFlags = false ∨
        outcome = .succeeds ∧ (map.mapFlags &&& mapWrite ≠ 0 ∨ map.mapSize = 0)))
  | .hostWrite _ _ | .bufferWrite _ _ => inferInstanceAs (Decidable True)

/-! ## The invariant -/

/-- **What is registered is what is mapped**, in the buffer and with a pointer of its own. -/
structure MapInv (live : List (Nat × BufferMap)) (b : BufferMem) : Prop where
  perm : live.Perm b.ptrToBufferMap
  nodup : (b.ptrToBufferMap.map (·.1)).Nodup
  range : ∀ e ∈ b.ptrToBufferMap, e.2.mapOffset + e.2.mapSize ≤ b.size
  backed : b.hostPtr ≠ 0 → ∀ e ∈ b.ptrToBufferMap, e.1 = b.hostPtr + e.2.mapOffset
  mode : b.memAllocMode ≠ .useHostPtr
  pinned : b.isPinned = true → b.hostPtr ≠ 0
  copied : b.memAllocMode = .copyIn → b.hostPtr ≠ 0

variable {s s' : MapState} {live : List (Nat × BufferMap)} {flags : UInt32}
  {offset size allocated ptr : Nat} {outcome : Outcome} {map : BufferMap}

/-- A mask of two flags finds neither. -/
theorem and_or_eq_zero (x y z : UInt32) : x &&& (y ||| z) = 0 ↔ x &&& y = 0 ∧ x &&& z = 0 := by
  have hdistrib : x &&& (y ||| z) = x &&& y ||| x &&& z := by
    rw [← UInt32.toBitVec_inj]
    exact BitVec.and_or_distrib_left
  rw [hdistrib, UInt32.or_eq_zero_iff]

theorem mapInv_create {pHost : Nat} {provided : Option Nat} {b : BufferMem}
    (hprovided : ∀ p, provided = some p → p ≠ 0)
    (hcreate : urMemBufferCreate flags size pHost provided = .ok b) : MapInv [] b := by
  unfold urMemBufferCreate at hcreate
  split at hcreate
  next => cases hcreate
  next hhost =>
  split at hcreate
  next => cases hcreate
  next =>
  split at hcreate
  next =>
    cases provided with
    | none => cases hcreate
    | some p =>
      obtain rfl := Except.ok.inj hcreate
      exact ⟨List.Perm.refl _, List.nodup_nil, fun _ he => (List.not_mem_nil he).elim,
        fun _ _ he => (List.not_mem_nil he).elim, nofun, fun _ => hprovided p rfl, nofun⟩
  next =>
  split at hcreate
  next hcopy =>
    obtain rfl := Except.ok.inj hcreate
    refine ⟨List.Perm.refl _, List.nodup_nil, fun _ he => (List.not_mem_nil he).elim,
      fun _ _ he => (List.not_mem_nil he).elim, nofun, nofun, fun _ hnull => hhost ⟨?_, hnull⟩⟩
    intro hzero
    exact hcopy ((and_or_eq_zero _ _ _).mp hzero).2
  next =>
    obtain rfl := Except.ok.inj hcreate
    exact ⟨List.Perm.refl _, List.nodup_nil, fun _ he => (List.not_mem_nil he).elim,
      fun _ _ he => (List.not_mem_nil he).elim, nofun, nofun, nofun⟩

theorem MapInv.onHost (h : MapInv live s.buffer) : s.onHost = s.buffer.isPinned := by
  unfold MapState.onHost
  rw [beq_eq_false_iff_ne.mpr h.mode, Bool.or_false]
  rfl

theorem copyTo_in {mem src : Nat → UInt8} {dst n k : Nat} (hk : k < n) :
    copyTo mem dst n src (dst + k) = src k := by
  unfold copyTo
  rw [if_pos (by omega), Nat.add_sub_cancel_left]

theorem copyTo_out {mem src : Nat → UInt8} {dst n q : Nat} (hq : q < dst ∨ dst + n ≤ q) :
    copyTo mem dst n src q = mem q := by
  unfold copyTo
  rw [if_neg (by omega)]

/-! ## Maps -/

/-- A mapping is registered; buffers with a host pointer map their memory. -/
structure Registered (s s' : MapState) (ptr : Nat) (map : BufferMap) : Prop where
  ptr_ne : ptr ≠ 0
  buffer : s'.buffer =
    { s.buffer with ptrToBufferMap := s.buffer.ptrToBufferMap ++ [(ptr, map)] }
  fresh : ∀ e ∈ s.buffer.ptrToBufferMap, e.1 ≠ ptr
  device : s'.device = s.device
  outside : ∀ q, q < ptr ∨ ptr + map.mapSize ≤ q → s'.host q = s.host q
  backed : s.buffer.hostPtr ≠ 0 → s'.host = s.host ∧ ptr = s.buffer.hostPtr + map.mapOffset

theorem mapToPtr_spec (hallowed : s.Allowed (.map flags offset size allocated outcome))
    (hcareful : s.Careful (.map flags offset size allocated outcome)) :
    Registered s (s.mapToPtr size offset flags allocated).2
      (s.mapToPtr size offset flags allocated).1 ⟨size, offset, flags⟩ := by
  obtain ⟨_, hne, hfresh⟩ := hallowed
  unfold MapState.mapToPtr
  by_cases hnull : s.buffer.hostPtr = 0
  · rw [if_pos hnull]
    refine ⟨hne, ?_, hfresh, rfl, fun q hq => ?_, fun hhost => absurd hnull hhost⟩
    · rw [Assoc.emplace_of_fresh hfresh]
    · exact @copyTo_out s.host (fun _ => 0) allocated size q hq
  · rw [if_neg hnull]
    have hfresh' := hcareful.1 hnull
    refine ⟨?_, ?_, hfresh', rfl, fun _ _ => rfl, fun _ => ⟨rfl, rfl⟩⟩
    · omega
    · rw [Assoc.emplace_of_fresh hfresh']

theorem Registered.inv (h : Registered s s' ptr map) (hinv : MapInv live s.buffer)
    (hrange : map.mapOffset + map.mapSize ≤ s.buffer.size) :
    MapInv ((ptr, map) :: live) s'.buffer := by
  rw [h.buffer]
  constructor
  · exact (hinv.perm.cons _).trans (List.perm_append_singleton _ _).symm
  · rw [List.map_append]
    refine List.nodup_append.mpr ⟨hinv.nodup, List.pairwise_singleton _ _, fun a ha b hb => ?_⟩
    obtain ⟨e, he, rfl⟩ := List.mem_map.mp ha
    rw [List.mem_singleton.mp hb]
    exact h.fresh e he
  · intro e he
    rcases List.mem_append.mp he with he | he
    · exact hinv.range e he
    · rw [List.mem_singleton.mp he]
      exact hrange
  · intro hhost e he
    rcases List.mem_append.mp he with he | he
    · exact hinv.backed hhost e he
    · rw [List.mem_singleton.mp he]
      exact (h.backed hhost).2
  · exact hinv.mode
  · exact hinv.pinned
  · exact hinv.copied

/-- A registered mapping leaves the buffer. -/
theorem Registered.content (h : Registered s s' ptr map) (hinv : MapInv live s.buffer) (i : Nat) :
    s'.content i = s.content i := by
  have hsame : s'.onHost = s.onHost := by
    unfold MapState.onHost
    rw [h.buffer]
  unfold MapState.content
  rw [hsame, h.device, h.buffer]
  split
  next hhost =>
    rw [hinv.onHost] at hhost
    rw [(h.backed (hinv.pinned hhost)).1]
  next => rfl

/-- **A careful map shows the range.** -/
theorem map_right (hinv : MapInv live s.buffer)
    (hallowed : s.Allowed (.map flags offset size allocated outcome))
    (hcareful : s.Careful (.map flags offset size allocated outcome)) :
    ∃ ptr, (s.urEnqueueMemBufferMap flags offset size allocated outcome).2.1 = some ptr ∧
      Shown s (s.urEnqueueMemBufferMap flags offset size allocated outcome).2.2
        (s.urEnqueueMemBufferMap flags offset size allocated outcome).1 ptr
        ⟨size, offset, flags⟩ ∧
      MapInv ((ptr, ⟨size, offset, flags⟩) :: live)
        (s.urEnqueueMemBufferMap flags offset size allocated outcome).2.2.buffer := by
  have hreg := mapToPtr_spec hallowed hcareful
  obtain ⟨hrange, _, _⟩ := hallowed
  obtain ⟨_, hcopied, hreads⟩ := hcareful
  have hinv' := hreg.inv hinv hrange
  have hcontent := hreg.content hinv
  obtain ⟨mapped, hmapped⟩ : ∃ mapped, s.mapToPtr size offset flags allocated = mapped := ⟨_, rfl⟩
  rw [hmapped] at hreg hinv' hcontent
  have hsize : mapped.2.buffer.size = s.buffer.size := by rw [hreg.buffer]
  have hmode : s.buffer.memAllocMode = .copyIn → mapped.2.host = s.host :=
    fun hcopy => (hreg.backed (hinv.copied hcopy)).1
  unfold MapState.urEnqueueMemBufferMap
  rw [if_neg (by omega), hmapped, if_neg hreg.ptr_ne]
  refine ⟨mapped.1, ?_, ?_, ?_⟩
  · split <;> rfl
  · -- pinned memory is mapped where it is, other memory may be read first
    by_cases hpinned : s.buffer.isPinned = true
    · rw [hpinned, Bool.not_true, Bool.false_and, if_neg Bool.false_ne_true]
      obtain ⟨hhost, hptr⟩ := hreg.backed (hinv.pinned hpinned)
      refine ⟨fun _ _ k _ => ?_, fun i _ => hcontent i, hreg.outside, fun _ k _ => by rw [hhost]⟩
      unfold MapState.content
      rw [hinv.onHost, hpinned, if_pos rfl, hhost, hptr, Nat.add_assoc]
    · rw [Bool.not_eq_true] at hpinned
      rw [hpinned, Bool.not_false, Bool.true_and]
      split
      next hflags =>
        unfold MapState.urEnqueueMemBufferRead
        rw [if_neg (by omega)]
        by_cases hbefore : outcome = .failsBefore
        · rw [if_pos hbefore]
          exact ⟨fun hresult => (by cases hresult), fun i _ => hcontent i, hreg.outside,
            fun hcopy k _ => by rw [hmode hcopy]⟩
        · rw [if_neg hbefore]
          refine ⟨fun _ _ k hk => ?_, fun i _ => ?_, fun q hq => ?_, fun hcopy k _ => ?_⟩
          · dsimp only
            rw [copyTo_in hk]
            exact hcontent _
          · refine Eq.trans ?_ (hcontent i)
            unfold MapState.content MapState.onHost
            have hhost := hinv'.onHost
            unfold MapState.onHost at hhost
            have hpinned' : mapped.2.buffer.isPinned = false := by
              rw [hreg.buffer]
              exact hpinned
            rw [hhost, hpinned', if_neg Bool.false_ne_true, if_neg Bool.false_ne_true]
          · dsimp only
            rw [copyTo_out hq]
            exact hreg.outside q hq
          · rcases hcopied hcopy with hzero | hbad | ⟨hread, hwrite⟩
            · dsimp only
              rw [copyTo_out (by omega), hmode hcopy]
            · exact absurd hbad hbefore
            · rw [hread, hwrite] at hflags
              exact absurd hflags (by decide)
      next hflags =>
        refine ⟨fun hresult hinvalidate k hk => ?_, fun i _ => hcontent i, hreg.outside,
          fun hcopy k _ => by rw [hmode hcopy]⟩
        rw [Bool.or_eq_true, bne_iff_ne, bne_iff_ne, not_or, not_not, not_not] at hflags
        dsimp only at hk hinvalidate
        rcases hreads with h | h | h | h | h | h
        · rw [hpinned] at h
          cases h
        · omega
        · cases outcome with
          | succeeds => exact absurd rfl h
          | failsBefore => cases hresult
          | failsAfter => cases hresult
        · exact absurd hflags.1 h
        · exact absurd hflags.2 h
        · rw [hinvalidate] at h
          cases h
  · split
    next =>
      have hbuffer : (mapped.2.urEnqueueMemBufferRead offset size mapped.1 outcome).2.buffer =
          mapped.2.buffer := by
        unfold MapState.urEnqueueMemBufferRead
        split
        · rfl
        · split <;> rfl
      rw [hbuffer]
      exact hinv'
    next => exact hinv'

/-! ## Unmaps -/

theorem MapInv.unmap (hinv : MapInv live s.buffer) (hmem : (ptr, map) ∈ s.buffer.ptrToBufferMap) :
    MapInv (live.erase (ptr, map)) (s.buffer.unmap ptr) := by
  have hsub : ∀ e ∈ (s.buffer.unmap ptr).ptrToBufferMap, e ∈ s.buffer.ptrToBufferMap :=
    fun e he => List.mem_of_mem_filter he
  constructor
  · unfold BufferMem.unmap
    rw [Assoc.filter_key_eq_erase hinv.nodup hmem]
    exact hinv.perm.erase _
  · exact hinv.nodup.sublist (List.filter_sublist.map _)
  · exact fun e he => hinv.range e (hsub e he)
  · exact fun hhost e he => hinv.backed hhost e (hsub e he)
  · exact hinv.mode
  · exact hinv.pinned
  · exact hinv.copied

/-- **A careful unmap writes the range back.** -/
theorem unmap_right (hinv : MapInv live s.buffer) (hmap : s.buffer.getMapDetails ptr = some map)
    (hcareful : s.Careful (.unmap ptr outcome)) :
    (s.urEnqueueMemUnmap ptr outcome).1 ≠ .invalidMemObject ∧
      WrittenBack s (s.urEnqueueMemUnmap ptr outcome).2 (s.urEnqueueMemUnmap ptr outcome).1 ptr map ∧
      (s.buffer.isPinned = false → writable map.mapFlags = true →
        (s.urEnqueueMemUnmap ptr outcome).1 = .success) ∧
      MapInv (live.erase (ptr, map)) (s.urEnqueueMemUnmap ptr outcome).2.buffer := by
  have hmem := Assoc.mem_of_lookup hmap
  have hrange := hinv.range _ hmem
  have hresult : outcome.result ≠ .invalidMemObject := by
    cases outcome <;> decide
  dsimp only at hrange
  unfold MapState.urEnqueueMemUnmap
  rw [hmap]
  dsimp only
  by_cases hpinned : s.buffer.isPinned = true
  · rw [hpinned]
    refine ⟨hresult, ⟨fun _ _ k _ => ?_, fun i _ => rfl, rfl⟩,
      fun hfalse => (by cases hfalse), hinv.unmap hmem⟩
    have hptr : ptr = s.buffer.hostPtr + map.mapOffset := hinv.backed (hinv.pinned hpinned) _ hmem
    show s.content (map.mapOffset + k) = s.host (ptr + k)
    unfold MapState.content
    rw [hinv.onHost, hpinned, if_pos rfl, hptr, Nat.add_assoc]
  · rw [Bool.not_eq_true] at hpinned
    have hdevice : s.onHost = false := hinv.onHost.trans hpinned
    rw [hpinned, Bool.not_false, Bool.true_and]
    by_cases hwrite : map.mapFlags &&& mapWrite = 0
    · rw [if_neg (by rw [hwrite]; decide)]
      refine ⟨hresult, ⟨fun _ hwritable k hk => ?_, fun i _ => rfl, rfl⟩, fun _ hwritable => ?_,
        hinv.unmap hmem⟩
      -- a mapping to be overwritten is written back with this flag only
      all_goals
        rcases hcareful map hmap with h | h | ⟨hsucceeds, h⟩
        · rw [hpinned] at h
          cases h
        · rw [hwritable] at h
          cases h
      · rcases h with h | h
        · exact absurd hwrite h
        · omega
      · rw [hsucceeds]
        rfl
    · have hwritable : writable map.mapFlags = true := by
        unfold writable
        rw [bne_iff_ne, ne_eq, and_or_eq_zero]
        exact fun hzero => hwrite hzero.1
      have hsucceeds : outcome = .succeeds := by
        rcases hcareful map hmap with h | h | ⟨h, _⟩
        · rw [hpinned] at h
          cases h
        · rw [hwritable] at h
          cases h
        · exact h
      rw [if_pos (bne_iff_ne.mpr hwrite)]
      unfold MapState.urEnqueueMemBufferWrite
      rw [if_neg (by omega), hsucceeds, if_neg (by decide), hdevice, if_neg Bool.false_ne_true]
      refine ⟨nofun, ⟨fun _ _ k hk => ?_, fun i hi => ?_, rfl⟩, fun _ _ => rfl, hinv.unmap hmem⟩
      · unfold MapState.content
        rw [if_neg (show ¬ MapState.onHost _ = true from ?_)]
        · dsimp only
          exact copyTo_in hk
        · exact ne_true_of_eq_false hdevice
      · unfold MapState.content
        rw [if_neg (show ¬ MapState.onHost _ = true from ?_), hdevice]
        · dsimp only
          refine copyTo_out (hi.resolve_left fun hno => ?_)
          rw [hwritable] at hno
          cases hno
        · exact ne_true_of_eq_false hdevice

/-! ## Runs -/

/-- What happens between calls leaves the buffer object. -/
theorem step_bufferWrite_buffer (s : MapState) (i : Nat) (value : UInt8) :
    (s.step (.bufferWrite i value)).buffer = s.buffer := by
  unfold MapState.step
  dsimp only
  split <;> rfl

theorem MapInv.run (hinv : MapInv live s.buffer) {calls : List MapCall}
    (hallowed : Along MapState.step MapState.Allowed s calls)
    (hcareful : Along MapState.step MapState.Careful s calls) : MapsRight live s calls := by
  induction calls generalizing live s with
  | nil => exact trivial
  | cons call calls ih =>
    obtain ⟨hallow, hallowed⟩ := hallowed
    obtain ⟨hcare, hcareful⟩ := hcareful
    cases call with
    | map flags offset size allocated outcome =>
      obtain ⟨ptr, hptr, hshown, hinv'⟩ := map_right hinv hallow hcare
      exact ⟨ptr, hptr, hshown, ih hinv' hallowed hcareful⟩
    | unmap ptr outcome =>
      cases hmap : s.buffer.getMapDetails ptr with
      | none =>
        have hnone : s.urEnqueueMemUnmap ptr outcome = (.invalidMemObject, s) := by
          unfold MapState.urEnqueueMemUnmap
          rw [hmap]
        have hsame : s.step (.unmap ptr outcome) = s := congrArg Prod.snd hnone
        rw [hsame] at hallowed hcareful
        refine .inl ⟨fun m hm hkey => ?_, congrArg Prod.fst hnone, hsame, ?_⟩
        · have hall := List.lookup_eq_none_iff.mp hmap m (hinv.perm.mem_iff.mp hm)
          exact (bne_iff_ne.mp hall) hkey.symm
        · rw [hnone]
          exact ih hinv hallowed hcareful
      | some map =>
        obtain ⟨hresult, hwritten, hsuccess, hinv'⟩ := unmap_right hinv hmap hcare
        refine .inr ⟨(ptr, map), hinv.perm.mem_iff.mpr (Assoc.mem_of_lookup hmap), rfl, hresult,
          hwritten, ?_⟩
        rw [if_neg fun hfails => hfails.1 (hsuccess hfails.2.1 hfails.2.2)]
        exact ih hinv' hallowed hcareful
    | hostWrite ptr value => exact ih hinv hallowed hcareful
    | bufferWrite i value =>
      exact ih (by rw [step_bufferWrite_buffer]; exact hinv) hallowed hcareful

/-- **Runs of careful calls on a buffer are right**, whatever it is created from. -/
theorem bufferMaps_right (flags : UInt32) (size pHost : Nat) (provided : Option Nat) (b : BufferMem)
    (hprovided : ∀ p, provided = some p → p ≠ 0)
    (hcreate : urMemBufferCreate flags size pHost provided = .ok b) (host device : Nat → UInt8)
    (calls : List MapCall) (hallowed : Along MapState.step MapState.Allowed ⟨b, host, device⟩ calls)
    (hcareful : Along MapState.step MapState.Careful ⟨b, host, device⟩ calls) :
    MapsRight [] ⟨b, host, device⟩ calls :=
  MapInv.run (s := ⟨b, host, device⟩) (mapInv_create hprovided hcreate) hallowed hcareful

/-- Overlapping mappings of a plain buffer, one of them written and unmapped first. -/
theorem bufferMaps_overlapping :
    MapsRight [] ⟨⟨0, 64, [], .classic⟩, fun _ => 7, fun i => UInt8.ofNat i⟩
      [.map 1 0 32 1000 .succeeds, .map 3 16 32 2000 .succeeds, .hostWrite 2004 9,
        .bufferWrite 3 1, .unmap 2000 .succeeds, .unmap 2000 .succeeds, .unmap 1000 .failsBefore] :=
  bufferMaps_right 1 64 0 none _ nofun rfl _ _ _ (by decide) (by decide)

/-- **A mapping that is to be overwritten** is not written back. -/
theorem bufferMaps_invalidated :
    let s : MapState := ⟨⟨0, 64, [], .classic⟩, fun _ => 0, fun _ => 0⟩
    let calls : List MapCall :=
      [.map mapWriteInvalidate 0 8 1000 .succeeds, .hostWrite 1000 5, .unmap 1000 .succeeds]
    urMemBufferCreate 1 64 0 none = .ok s.buffer ∧ Along MapState.step MapState.Allowed s calls ∧
      ¬ MapsRight [] s calls := by
  refine ⟨rfl, by decide, fun hright => ?_⟩
  obtain ⟨ptr, hptr, _, hrest⟩ := hright
  obtain rfl : 1000 = ptr := Option.some.inj hptr
  rcases hrest with ⟨hnone, _⟩ | ⟨m, hm, _, _, hback, _⟩
  · exact hnone _ List.mem_cons_self rfl
  · rw [List.mem_singleton.mp hm] at hback
    have hbyte := hback.written rfl rfl 0 (by decide)
    exact absurd hbyte (by decide)

end UnifiedRuntime.Cuda
