import UnifiedRuntime.Sanitizer.MsanHeap

/-!
# The allocation map over runs

Allocations, frees and buffers in any order. The map has exactly the live device
allocations as long as a free takes from the driver what it takes out of the map:
`MemBuffer::free` does not look at the map, and `releaseMemory` takes the entry of
any pointer into an allocation out, whatever the driver does with the pointer.
-/

namespace UnifiedRuntime.Sanitizer

/-! ## Blocks -/

namespace DriverBlock

/-- The address behind the block. -/
def endAddr (b : DriverBlock) : Nat := b.begin + b.size

def Contains (b : DriverBlock) (address : Nat) : Prop := b.begin ≤ address ∧ address < b.endAddr

abbrev Apart : DriverBlock → DriverBlock → Prop := Extents.Apart begin endAddr

/-- A block is not empty, and the address behind it is one. -/
structure Proper (b : DriverBlock) : Prop where
  pos : 0 < b.size
  fits : b.endAddr < 2 ^ 64

theorem Proper.lt {b : DriverBlock} (h : b.Proper) : b.begin < b.endAddr := by
  have hpos := h.pos
  unfold endAddr
  omega

end DriverBlock

theorem MsanAllocInfo.block_injective {ai ai' : MsanAllocInfo} (h : ai.block = ai'.block) :
    ai = ai' := by
  obtain ⟨b, n, c, d⟩ := ai
  obtain ⟨rfl, rfl, rfl, rfl⟩ := h
  rfl

namespace MsanHeap

/-- What the driver gives out does not overlap what is in use. -/
structure Fresh (s : MsanHeap) (b : DriverBlock) : Prop where
  proper : b.Proper
  apart : ∀ x ∈ s.live, b.Apart x

/-! ## The invariant -/

/-- The map has the device memory of the driver. -/
structure Inv (s : MsanHeap) : Prop where
  proper : ∀ b ∈ s.live, b.Proper
  apart : s.live.Pairwise DriverBlock.Apart
  same : ∀ ai, ai ∈ s.allocationMap ↔ ai.block ∈ s.live
  mapApart : s.allocationMap.Pairwise fun ai ai' => ai.block.Apart ai'.block

variable {s s' : MsanHeap}

/-- The bytes do not matter. -/
theorem Inv.congr (h : s.Inv) (hmap : s'.allocationMap = s.allocationMap)
    (hlive : s'.live = s.live) : s'.Inv := by
  obtain ⟨h₁, h₂, h₃, h₄⟩ := h
  exact ⟨by rwa [hlive], by rwa [hlive], by rwa [hlive, hmap], by rwa [hmap]⟩

theorem Inv.apart_of_ne (h : s.Inv) {b b' : DriverBlock} (hb : b ∈ s.live) (hb' : b' ∈ s.live)
    (hne : b ≠ b') : b.Apart b' := by
  have : Std.Symm DriverBlock.Apart := ⟨fun _ _ => Extents.Apart.symm⟩
  exact h.apart.forall hb hb' hne

/-- Two entries with one key are one. -/
theorem Inv.keyed (h : s.Inv) {ai ai' : MsanAllocInfo} (ha : ai ∈ s.allocationMap)
    (ha' : ai' ∈ s.allocationMap) (hkey : ai.allocBegin = ai'.allocBegin) : ai = ai' := by
  by_contra hne
  have hb := (h.same ai).mp ha
  have hb' := (h.same ai').mp ha'
  have hap := h.apart_of_ne hb hb' fun he => hne (MsanAllocInfo.block_injective he)
  exact hap.lo_ne (h.proper _ hb).lt (h.proper _ hb').lt hkey

theorem Inv.driverAlloc (h : s.Inv) {b : DriverBlock} (hf : s.Fresh b) (hown : b.owner = none) :
    (s.driverAlloc b).Inv := by
  refine ⟨fun x hx => ?_, List.pairwise_cons.mpr ⟨hf.apart, h.apart⟩, fun ai => ?_, h.mapApart⟩
  · rcases List.mem_cons.mp hx with rfl | hx
    · exact hf.proper
    · exact h.proper x hx
  · show ai ∈ s.allocationMap ↔ ai.block ∈ b :: s.live
    rw [List.mem_cons, h.same]
    refine (or_iff_right fun he => ?_).symm
    rw [← he] at hown
    cases hown

/-- An entry for new device memory. -/
theorem Inv.driverAlloc_emplace (h : s.Inv) (ai : MsanAllocInfo) (hf : s.Fresh ai.block) :
    ((s.driverAlloc ai.block).emplace ai).Inv := by
  -- no live block begins there, so there is no entry
  have hnew : (s.allocationMap.any fun x => x.allocBegin == ai.allocBegin) = false := by
    rw [List.any_eq_false]
    intro x hx hkey
    have hb := (h.same x).mp hx
    exact (hf.apart _ hb).lo_ne hf.proper.lt (h.proper _ hb).lt (beq_iff_eq.mp hkey).symm
  have heq : (s.driverAlloc ai.block).emplace ai = { s.driverAlloc ai.block with
      allocationMap := ai :: s.allocationMap } := by
    unfold emplace
    rw [if_neg]
    · rfl
    · simpa [MsanHeap.driverAlloc] using hnew
  rw [heq]
  refine ⟨fun x hx => ?_, List.pairwise_cons.mpr ⟨hf.apart, h.apart⟩, fun x => ?_,
    List.pairwise_cons.mpr ⟨fun x hx => hf.apart _ ((h.same x).mp hx), h.mapApart⟩⟩
  · rcases List.mem_cons.mp hx with rfl | hx
    · exact hf.proper
    · exact h.proper x hx
  · show x ∈ ai :: s.allocationMap ↔ x.block ∈ ai.block :: s.live
    rw [List.mem_cons, List.mem_cons, h.same]
    exact or_congr_left ⟨congrArg _, MsanAllocInfo.block_injective⟩

theorem Inv.allocateMemory (h : s.Inv) (context : ContextId) (device : Option Device)
    (type : AllocType) (size : Nat) (answer : Option AllocAnswer)
    (hf : ∀ a, answer = some a → ∀ owner, s.Fresh ⟨a.begin, size, owner⟩) :
    (s.allocateMemory context device type size answer).1.Inv := by
  unfold MsanHeap.allocateMemory
  split
  next => exact h
  next a =>
    split
    next d =>
      exact (h.driverAlloc_emplace ⟨a.begin, size, context, d⟩ (hf a rfl _)).congr rfl rfl
    next => exact h.driverAlloc (hf a rfl none) rfl

/-- Memory that no entry is about may go. -/
theorem Inv.driverFree (h : s.Inv) {frees : DriverBlock → Bool}
    (hkeep : ∀ ai ∈ s.allocationMap, frees ai.block = false) : (s.driverFree frees).Inv := by
  refine ⟨fun b hb => h.proper b (List.mem_filter.mp hb).1, h.apart.filter _, fun ai => ?_,
    h.mapApart⟩
  show ai ∈ s.allocationMap ↔ ai.block ∈ s.live.filter fun b => !frees b
  rw [List.mem_filter, ← h.same]
  constructor
  · intro ha
    exact ⟨ha, by rw [hkeep ai ha]; rfl⟩
  · exact fun ha => ha.1

/-- The lookup, in terms of the blocks. -/
theorem Inv.find_iff (h : s.Inv) {address : Nat} {ai : MsanAllocInfo} :
    s.findAllocInfoByAddress address = some ai ↔
      ai ∈ s.allocationMap ∧ ai.block.Contains address := by
  have hend : ∀ x ∈ s.allocationMap, add64 x.allocBegin x.allocSize = x.block.endAddr :=
    fun x hx => add64_eq (h.proper _ ((h.same x).mp hx)).fits
  unfold findAllocInfoByAddress
  rw [Extents.locate_iff]
  · constructor
    · rintro ⟨hmem, hlo, hhi⟩
      rw [hend ai hmem] at hhi
      exact ⟨hmem, hlo, hhi⟩
    · rintro ⟨hmem, hlo, hhi⟩
      exact ⟨hmem, hlo, by rwa [hend ai hmem]⟩
  · intro x hx
    rw [hend x hx]
    exact (h.proper _ ((h.same x).mp hx)).lt
  · intro x hx y hy hne
    simp only [Extents.Apart, hend x hx, hend y hy]
    exact h.apart_of_ne ((h.same x).mp hx) ((h.same y).mp hy)
      fun he => hne (MsanAllocInfo.block_injective he)

/-- The driver frees the device memory that the pointer lies in, if there is any. -/
def FreesFound (s : MsanHeap) (ptr : Nat) (freed : Option DriverBlock) : Prop :=
  ∀ ai ∈ s.allocationMap, ai.block.Contains ptr → freed = some ai.block

theorem Inv.releaseMemory (h : s.Inv) {ptr : Nat} {freed : Option DriverBlock}
    (hl : ∀ b, freed = some b → b ∈ s.live ∧ b.Contains ptr) (hok : s.FreesFound ptr freed) :
    (s.releaseMemory ptr freed).Inv := by
  unfold MsanHeap.releaseMemory
  cases hfind : s.findAllocInfoByAddress ptr with
  | none =>
    -- the pointer lies in no recorded memory
    refine h.driverFree fun ai ha => ?_
    rw [beq_eq_false_iff_ne]
    intro he
    have hin := h.find_iff.mpr ⟨ha, (hl _ he).2⟩
    rw [hfind] at hin
    cases hin
  | some ai =>
    obtain ⟨ha, hc⟩ := h.find_iff.mp hfind
    obtain rfl := hok ai ha hc
    have hmem : ∀ x, x ∈ (s.erase ai).allocationMap ↔ x ∈ s.allocationMap ∧ x ≠ ai := by
      intro x
      show x ∈ s.allocationMap.filter _ ↔ _
      rw [List.mem_filter, bne_iff_ne]
      exact and_congr_right fun hx => not_congr ⟨h.keyed hx ha, congrArg _⟩
    refine ⟨fun b hb => h.proper b (List.mem_filter.mp hb).1, h.apart.filter _, fun x => ?_,
      h.mapApart.filter _⟩
    rw [show (((s.erase ai).driverFree fun b => some ai.block == some b).allocationMap)
      = (s.erase ai).allocationMap from rfl, hmem]
    show _ ↔ x.block ∈ s.live.filter fun b => !(some ai.block == some b)
    rw [List.mem_filter, h.same]
    refine and_congr_right fun _ => ?_
    simp only [Bool.not_eq_true', beq_eq_false_iff_ne, ne_eq, Option.some.injEq]
    exact not_congr ⟨fun he => he ▸ rfl, fun he => (MsanAllocInfo.block_injective he).symm⟩

/-- **The map of allocations is exact**: its entries are the live device memory, they lie apart, and the
lookup is exact. -/
structure Exact (s : MsanHeap) : Prop where
  same : ∀ ai, ai ∈ s.allocationMap ↔ ai.block ∈ s.live
  apart : s.allocationMap.Pairwise fun ai ai' => ai.block.Apart ai'.block
  find : ∀ address ai, s.findAllocInfoByAddress address = some ai ↔
    ai.block ∈ s.live ∧ ai.block.Contains address

theorem Inv.exact (h : s.Inv) : s.Exact :=
  ⟨h.same, h.mapApart, fun address ai => by rw [h.find_iff, h.same]⟩

end MsanHeap

/-! ## Buffers -/

namespace MsanCall

/-- What the driver gives out in a call. -/
structure Legal (c : MsanCall) (a : HandleAnswer) : Prop where
  allocate : ∀ p, a.allocate = some p → ∀ owner, c.heap.Fresh ⟨p.begin, c.buffer.size, owner⟩
  host : ∀ h, a.allocateHost = some h → c.heap.Fresh ⟨h, c.buffer.size, none⟩
  both : ∀ p h, a.allocate = some p → a.allocateHost = some h →
    ∀ owner, DriverBlock.Apart ⟨h, c.buffer.size, none⟩ ⟨p.begin, c.buffer.size, owner⟩

variable {c : MsanCall} {a : HandleAnswer}

theorem allocateMemory_live (s : MsanHeap) (context : ContextId) (d : Device) (size : Nat)
    (answer : Option AllocAnswer) :
    (s.allocateMemory context (some d) .deviceUsm size answer).1.live
      = (answer.map fun p => ⟨p.begin, size, some (context, d)⟩).toList ++ s.live := by
  cases answer with
  | none => rfl
  | some p =>
    show ((s.driverAlloc _).emplace _).live = _
    unfold MsanHeap.emplace
    split
    next => rfl
    next => rfl

/-- What the first part does to the driver's blocks and to the buffer. -/
theorem deviceAllocation_live (d : Device) :
    ((c.deviceAllocation a d).1.heap.live = c.heap.live ∨
      ∃ p owner, a.allocate = some p ∧
        (c.deviceAllocation a d).1.heap.live = ⟨p.begin, c.buffer.size, owner⟩ :: c.heap.live) ∧
    (c.deviceAllocation a d).1.buffer.size = c.buffer.size := by
  unfold deviceAllocation
  split
  next => exact ⟨.inl rfl, rfl⟩
  next =>
    have hsize : (c.buffer.touch (some d)).size = c.buffer.size := by
      unfold MsanBuffer.touch
      split
      next => rfl
      next => rfl
    have hlive := allocateMemory_live c.heap (c.buffer.touch (some d)).contextId d
      (c.buffer.touch (some d)).size a.allocate
    simp only
    generalize hr : c.heap.allocateMemory (c.buffer.touch (some d)).contextId (some d) .deviceUsm
      (c.buffer.touch (some d)).size a.allocate = r at hlive
    obtain ⟨s, block⟩ := r
    have hor : s.live = c.heap.live ∨ ∃ p owner, a.allocate = some p ∧
        s.live = ⟨p.begin, c.buffer.size, owner⟩ :: c.heap.live := by
      cases hal : a.allocate with
      | none =>
        rw [hal] at hlive
        exact .inl hlive
      | some p =>
        rw [hal, hsize] at hlive
        exact .inr ⟨p, _, rfl, hlive⟩
    cases block with
    | none => exact ⟨hor, hsize⟩
    | some block =>
      simp only
      split
      next => exact ⟨hor, hsize⟩
      next =>
        split
        next => exact ⟨hor, hsize⟩
        next => exact ⟨hor, hsize⟩

theorem deviceAllocation_inv (h : c.heap.Inv) (hl : c.Legal a) (d : Device) :
    (c.deviceAllocation a d).1.heap.Inv := by
  unfold deviceAllocation
  split
  next => exact h
  next =>
    have hsize : (c.buffer.touch (some d)).size = c.buffer.size := by
      unfold MsanBuffer.touch
      split
      next => rfl
      next => rfl
    have hinv := h.allocateMemory (c.buffer.touch (some d)).contextId (some d) .deviceUsm
      (c.buffer.touch (some d)).size a.allocate (by rw [hsize]; exact hl.allocate)
    simp only
    generalize c.heap.allocateMemory (c.buffer.touch (some d)).contextId (some d) .deviceUsm
      (c.buffer.touch (some d)).size a.allocate = r at hinv
    obtain ⟨s, block⟩ := r
    cases block with
    | none => exact hinv
    | some block =>
      simp only
      split
      next => exact hinv
      next =>
        split
        next => exact hinv.congr rfl rfl
        next => exact hinv.congr rfl rfl

theorem migrate_inv (h : c.heap.Inv)
    (hl : ∀ p, a.allocateHost = some p → c.heap.Fresh ⟨p, c.buffer.size, none⟩)
    (last handle : Block) : (c.migrate a last handle).1.heap.Inv := by
  have hhost : (c.hostAllocation a).1.heap.Inv := by
    unfold hostAllocation
    split
    next => exact h
    next =>
      split
      next => exact h
      next p hp => exact h.driverAlloc (hl p hp) rfl
  unfold migrate
  split
  next c' heq =>
    rw [heq] at hhost
    exact hhost
  next c' host heq =>
    rw [heq] at hhost
    split
    next => exact hhost.congr rfl rfl
    next => exact hhost.congr rfl rfl

/-- The host's memory is apart from what was there and from the device's. -/
theorem Legal.host_after (hl : c.Legal a) (d : Device) (p : Block) (hp : a.allocateHost = some p) :
    (c.deviceAllocation a d).1.heap.Fresh ⟨p, (c.deviceAllocation a d).1.buffer.size, none⟩ := by
  obtain ⟨hlive, hsize⟩ := deviceAllocation_live (c := c) (a := a) d
  have hf := hl.host p hp
  rw [hsize]
  refine ⟨hf.proper, fun x hx => ?_⟩
  rcases hlive with heq | ⟨q, owner, hq, heq⟩
  · rw [heq] at hx
    exact hf.apart x hx
  · rw [heq] at hx
    rcases List.mem_cons.mp hx with rfl | hx
    · exact hl.both q p hq hp owner
    · exact hf.apart x hx

/-- **`getHandle`** keeps the map exact, whatever the driver calls in it do. -/
theorem getHandle_inv (h : c.heap.Inv) (hl : c.Legal a) (device : Option Device) :
    (c.getHandle a device).1.heap.Inv := by
  have hinv := deviceAllocation_inv h hl (c.buffer.target device)
  have hhost := hl.host_after (c.buffer.target device)
  unfold getHandle
  generalize c.deviceAllocation a (c.buffer.target device) = r at hinv hhost
  obtain ⟨c', block⟩ := r
  cases block with
  | none => exact hinv
  | some handle =>
    simp only at hinv hhost ⊢
    unfold syncHandle
    split
    next => exact hinv
    next =>
      split
      next => exact hinv
      next =>
        have hm := migrate_inv hinv hhost
        simp only
        split
        next => exact hm _ _
        next => exact hm _ _

/-- A block after the host's data was copied to it. -/
def filled (c : MsanCall) (block : Block) : MsanCall where
  heap := (c.heap.enqueueUSMMemcpy block (fun _ => true) c.buffer.size true).enqueuePoisonShadow
    block c.buffer.size true true
  buffer := c.buffer

/-- What the driver gives out in the loop of `urMemBufferCreate`. -/
def LegalCopies : MsanCall → List CopyAnswer → Prop
  | _, [] => True
  | c, a :: as => c.Legal a.handle ∧ ∀ block,
    (c.getHandle a.handle (some a.device)).2 = some block →
      LegalCopies ((c.getHandle a.handle (some a.device)).1.filled block) as

theorem copyLoop_inv (as : List CopyAnswer) (h : c.heap.Inv) (hl : c.LegalCopies as) :
    (c.copyLoop as).1.heap.Inv := by
  induction as generalizing c with
  | nil => exact h
  | cons a as ih =>
    obtain ⟨hl, hnext⟩ := hl
    have hinv := getHandle_inv h hl (some a.device)
    unfold copyLoop
    generalize c.getHandle a.handle (some a.device) = r at hinv hnext
    obtain ⟨c', block⟩ := r
    cases block with
    | none => exact hinv
    | some block =>
      cases hcopies : a.copies with
      | false => exact hinv.congr rfl rfl
      | true =>
        cases hunpoisons : a.unpoisons with
        | false => exact hinv.congr rfl rfl
        | true => exact ih (hinv.congr rfl rfl) (hnext block rfl)

/-- The pointers that `free` gives back before one is refused are not the map's. -/
theorem freeLoop_inv {ok : Option Block → Bool} (ptrs : List (Option Block)) {s : MsanHeap}
    (h : s.Inv) (hok : ∀ ptr ∈ ptrs.takeWhile ok, ∀ ai ∈ s.allocationMap,
      ptr ≠ some ai.allocBegin) : (freeLoop ok s ptrs).1.Inv := by
  induction ptrs generalizing s with
  | nil => exact h
  | cons ptr ptrs ih =>
    unfold freeLoop
    cases hptr : ok ptr with
    | false => exact h
    | true =>
      rw [List.takeWhile_cons_of_pos hptr] at hok
      refine ih (h.driverFree fun ai ha => ?_) fun p hp => hok p (List.mem_cons_of_mem _ hp)
      exact beq_eq_false_iff_ne.mpr (hok ptr List.mem_cons_self ai ha)

end MsanCall

/-! ## Runs -/

/-- The interceptor with its buffers. A sub-buffer has no allocations of its own. -/
structure MsanSystem where
  heap : MsanHeap
  buffers : Nat → Option MsanBuffer

/-- The entry points, with the driver's answers. -/
inductive MsanStep where
  | usmAlloc (context : ContextId) (device : Option Device) (type : AllocType) (size : Nat)
    (answer : Option AllocAnswer)
  | usmFree (ptr : Nat) (freed : Option DriverBlock)
  | bufferCreate (id : Nat) (contextId : ContextId) (context : BufferContext) (size : Nat)
    (hostPtr : Bool) (copies : List CopyAnswer)
  | bufferUse (id : Nat) (device : Option Device) (a : HandleAnswer)
  | bufferRetain (id : Nat)
  | bufferRelease (id : Nat) (ptrs : List (Option Block)) (ok : Option Block → Bool)

namespace MsanSystem

def setBuffer (s : MsanSystem) (id : Nat) (c : MsanCall) : MsanSystem where
  heap := c.heap
  buffers := Function.update s.buffers id (some c.buffer)

/-- `urMemRelease`. -/
def release (s : MsanSystem) (id : Nat) (b : MsanBuffer) (ptrs : List (Option Block))
    (ok : Option Block → Bool) : MsanSystem :=
  let c : MsanCall := ⟨s.heap, { b with refCount := b.refCount - 1 }⟩
  if c.buffer.refCount ≠ 0 then s.setBuffer id c else s.setBuffer id (c.free ptrs ok).1

def exec (s : MsanSystem) : MsanStep → MsanSystem
  | .usmAlloc context device type size answer =>
    { s with heap := (s.heap.allocateMemory context device type size answer).1 }
  | .usmFree ptr freed => { s with heap := s.heap.releaseMemory ptr freed }
  | .bufferCreate id contextId context size hostPtr copies =>
    let r := (⟨s.heap, .new contextId context size hostPtr⟩ : MsanCall).copyLoop copies
    if r.2 then s.setBuffer id r.1 else { s with heap := r.1.heap }
  | .bufferUse id device a =>
    match s.buffers id with
    | none => s
    | some b => s.setBuffer id ((⟨s.heap, b⟩ : MsanCall).getHandle a device).1
  | .bufferRetain id =>
    match s.buffers id with
    | none => s
    | some b => s.setBuffer id ⟨s.heap, { b with refCount := b.refCount + 1 }⟩
  | .bufferRelease id ptrs ok =>
    match s.buffers id with
    | none => s
    | some b => s.release id b ptrs ok

/-- Blocks that the driver gives out are not empty and lie apart from those in use; what it
frees is a block that the pointer lies in. -/
def Legal (s : MsanSystem) : MsanStep → Prop
  | .usmAlloc _ _ _ size answer =>
    ∀ a, answer = some a → ∀ owner, s.heap.Fresh ⟨a.begin, size, owner⟩
  | .usmFree ptr freed => ∀ b, freed = some b → b ∈ s.heap.live ∧ b.Contains ptr
  | .bufferCreate _ contextId context size hostPtr copies =>
    (⟨s.heap, .new contextId context size hostPtr⟩ : MsanCall).LegalCopies copies
  | .bufferUse id _ a => ∀ b, s.buffers id = some b → (⟨s.heap, b⟩ : MsanCall).Legal a
  | .bufferRetain _ => True
  | .bufferRelease id ptrs _ => ∀ b, s.buffers id = some b →
    ptrs.Perm (b.allocations.entries.map (·.2))

/-- The condition: the driver frees the recorded memory that a pointer lies in, and a buffer
that is released gives back no recorded memory. -/
def Ok (s : MsanSystem) : MsanStep → Prop
  | .usmFree ptr freed => s.heap.FreesFound ptr freed
  | .bufferRelease id ptrs ok => ∀ b, s.buffers id = some b → b.refCount = 1 →
    ∀ ptr ∈ ptrs.takeWhile ok, ∀ ai ∈ s.heap.allocationMap, ptr ≠ some ai.allocBegin
  | _ => True

/-- Nothing is allocated. -/
def init (bytes : Block → Nat → Bool) : MsanSystem where
  heap := ⟨[], [], bytes, bytes⟩
  buffers := fun _ => none

/-- The states of runs whose steps all meet the condition. -/
inductive Reached : MsanSystem → Prop where
  | init (bytes : Block → Nat → Bool) : Reached (init bytes)
  | step {s : MsanSystem} {a : MsanStep} : Reached s → s.Legal a → s.Ok a → Reached (s.exec a)

theorem inv_exec {s : MsanSystem} (h : s.heap.Inv) {a : MsanStep} (hl : s.Legal a)
    (hok : s.Ok a) : (s.exec a).heap.Inv := by
  cases a with
  | usmAlloc context device type size answer => exact h.allocateMemory _ _ _ _ _ hl
  | usmFree ptr freed => exact h.releaseMemory hl hok
  | bufferCreate id contextId context size hostPtr copies =>
    have hinv := MsanCall.copyLoop_inv (c := ⟨s.heap, .new contextId context size hostPtr⟩)
      copies h hl
    unfold exec
    simp only
    split
    next => exact hinv
    next => exact hinv
  | bufferUse id device a =>
    simp only [exec]
    split
    next => exact h
    next b hb => exact MsanCall.getHandle_inv (c := ⟨s.heap, b⟩) h (hl b hb) device
  | bufferRetain id =>
    simp only [exec]
    split
    next => exact h
    next => exact h
  | bufferRelease id ptrs ok =>
    simp only [exec]
    split
    next => exact h
    next b hb =>
      simp only [release]
      split
      next => exact h
      next hcount =>
        have hinv := MsanCall.freeLoop_inv ptrs h (hok b hb (by omega))
        simp only [MsanCall.free]
        split
        next => exact hinv
        next => exact hinv

theorem Reached.inv {s : MsanSystem} (h : Reached s) : s.heap.Inv := by
  induction h with
  | init bytes =>
    exact ⟨fun b hb => (nomatch hb), .nil, fun ai => ⟨(fun h => nomatch h), (fun h => nomatch h)⟩,
      .nil⟩
  | step _ hl hok ih => exact inv_exec ih hl hok

/-- **The allocation map** has exactly the live device allocations in every run whose steps
meet the condition. -/
theorem allocationMap_exact {s : MsanSystem} (h : Reached s) : s.heap.Exact := h.inv.exact

/-- Blocks from 4096 and from 8192 on. -/
def firstPage : MsanStep := .usmAlloc 0 (some 1) .deviceUsm 16 (some ⟨4096, true⟩)

def secondPage : MsanStep := .usmAlloc 0 (some 2) .deviceUsm 32 (some ⟨8192, true⟩)

theorem firstPage_legal (bytes : Block → Nat → Bool) : (init bytes).Legal firstPage := by
  intro a ha owner
  obtain rfl := Option.some.inj ha
  have hpos : 0 < 16 := by omega
  have hfits : 4096 + 16 < 2 ^ 64 := by omega
  exact ⟨⟨hpos, hfits⟩, fun x hx => (nomatch hx)⟩

/-- Of two allocations the driver frees the first. -/
theorem allocationMap_exact_freed :
    let s := ((init fun _ _ => false).exec firstPage).exec secondPage
    let t := s.exec (.usmFree 4096 (some ⟨4096, 16, some (0, 1)⟩))
    s.heap.Exact ∧ t.heap.Exact ∧ t.heap.allocationMap = [⟨8192, 32, 0, 2⟩] := by
  intro s t
  have hfirst := Reached.step (.init fun _ _ => false) (firstPage_legal _) trivial
  have hlegal : ((init fun _ _ => false).exec firstPage).Legal secondPage := by
    intro a ha owner
    obtain rfl := Option.some.inj ha
    have hpos : 0 < 32 := by omega
    have hfits : 8192 + 32 < 2 ^ 64 := by omega
    have happart : 4096 + 16 ≤ 8192 := by omega
    refine ⟨⟨hpos, hfits⟩, fun x hx => ?_⟩
    obtain rfl := List.mem_singleton.mp hx
    exact .inr happart
  have hsecond := hfirst.step hlegal trivial
  refine ⟨allocationMap_exact hsecond, allocationMap_exact (hsecond.step ?_ ?_), rfl⟩
  · intro b hb
    obtain rfl := Option.some.inj hb
    exact ⟨by decide, by decide, by decide⟩
  · intro ai ha hin
    rcases List.mem_cons.mp ha with rfl | ha
    · exact absurd hin.1 (by decide)
    · obtain rfl := List.mem_singleton.mp ha
      rfl

/-- A buffer's memory is gone, and its entry is not. Then the driver gives the address out for
a larger allocation on another device: the entry stays as it is. And an entry goes although
the driver refuses the free. -/
theorem allocationMap_wrong :
    let s := (((init fun _ _ => false).exec
        (.bufferCreate 0 0 ⟨[1], by decide⟩ 16 false [])).exec
      (.bufferUse 0 none ⟨some ⟨4096, true⟩, true, true, none, true, true⟩)).exec
        (.bufferRelease 0 [some 4096] fun _ => true)
    let t := s.exec (.usmAlloc 0 (some 2) .deviceUsm 64 (some ⟨4096, true⟩))
    let u := ((init fun _ _ => false).exec firstPage).exec (.usmFree 4100 none)
    (s.heap.allocationMap = [⟨4096, 16, 0, 1⟩] ∧ s.heap.live = []) ∧
    (t.heap.findAllocInfoByAddress 4096 = some ⟨4096, 16, 0, 1⟩ ∧
      t.heap.findAllocInfoByAddress 4120 = none ∧ t.heap.live = [⟨4096, 64, some (0, 2)⟩]) ∧
    u.heap.allocationMap = [] ∧ u.heap.live = [⟨4096, 16, some (0, 1)⟩] := by
  decide

end MsanSystem

end UnifiedRuntime.Sanitizer
