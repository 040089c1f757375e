import Mathlib

/-!
# The quarantine

`QuarantineCache` and `Quarantine` (`asan/asan_quarantine.hpp`, `.cpp`): for each
device a queue of chunks and their total size. `Quarantine::put` dequeues the oldest
chunks until there is room for the new one, or none is left, and returns them to be
freed. Sizes are `uptr`, so that sums wrap around; `sum_allocSize_lt` is why that
does not happen to chunks that are blocks of memory.
-/

namespace UnifiedRuntime.Sanitizer

section Cache

variable {δ ε : Type}

structure QuarantineCache (ε : Type) where
  list : List ε
  size : UInt64

namespace QuarantineCache

variable (allocSize : ε → UInt64)

def empty : QuarantineCache ε := ⟨[], 0⟩

def enqueue (c : QuarantineCache ε) (it : ε) : QuarantineCache ε :=
  ⟨c.list ++ [it], c.size + allocSize it⟩

/-- The loop of `Quarantine::put` over the chunks of a cache of some size: the
`DequeueList` and what is left. `dequeue` takes the first chunk and its size off. -/
def evictLoop (maxSize new : UInt64) : List ε → UInt64 → List ε × QuarantineCache ε
  | [], size => ([], ⟨[], size⟩)
  | it :: rest, size =>
    if maxSize < size + new then
      let r := evictLoop maxSize new rest (size - allocSize it)
      (it :: r.1, r.2)
    else ([], ⟨it :: rest, size⟩)

def evict (maxSize new : UInt64) (c : QuarantineCache ε) : List ε × QuarantineCache ε :=
  evictLoop allocSize maxSize new c.list c.size

end QuarantineCache

structure Quarantine (δ ε : Type) where
  map : δ → QuarantineCache ε
  maxSize : UInt64

namespace Quarantine

variable [DecidableEq δ] (allocSize : ε → UInt64)

def init (maxSize : UInt64) : Quarantine δ ε := ⟨fun _ => .empty, maxSize⟩

/-- `Quarantine::put`, with the list it returns. -/
def put (q : Quarantine δ ε) (device : δ) (it : ε) : Quarantine δ ε × List ε :=
  let (dequeueList, cache) := (q.map device).evict allocSize q.maxSize (allocSize it)
  ({ q with map := Function.update q.map device (cache.enqueue allocSize it) }, dequeueList)

end Quarantine

/-! ## One put -/

namespace QuarantineCache

variable {allocSize : ε → UInt64}

/-- The recorded size is that of the elements. -/
def Sized (allocSize : ε → UInt64) (c : QuarantineCache ε) : Prop :=
  c.size = (c.list.map allocSize).sum

theorem evictLoop_append (maxSize new : UInt64) (list : List ε) (size : UInt64) :
    (evictLoop allocSize maxSize new list size).1
      ++ (evictLoop allocSize maxSize new list size).2.list = list := by
  induction list generalizing size with
  | nil => rfl
  | cons it rest ih =>
    unfold evictLoop
    split
    · simp [ih]
    · rfl

theorem evictLoop_sized (maxSize new : UInt64) (list : List ε) :
    (evictLoop allocSize maxSize new list (list.map allocSize).sum).2.Sized allocSize := by
  induction list with
  | nil => rfl
  | cons it rest ih =>
    unfold evictLoop
    split
    · have hrest : ((it :: rest).map allocSize).sum - allocSize it
          = (rest.map allocSize).sum := by
        rw [List.map_cons, List.sum_cons, UInt64.add_comm, UInt64.add_sub_cancel]
      rw [hrest]
      exact ih
    · rfl

/-- The loop ends with room for the chunk, or with an empty cache. -/
theorem evictLoop_room (maxSize new : UInt64) (list : List ε) (size : UInt64) :
    (evictLoop allocSize maxSize new list size).2.size + new ≤ maxSize ∨
      (evictLoop allocSize maxSize new list size).2.list = [] := by
  induction list generalizing size with
  | nil => exact .inr rfl
  | cons it rest ih =>
    unfold evictLoop
    split
    · exact ih _
    · next h => exact .inl (UInt64.not_lt.mp h)

theorem Sized.enqueue {c : QuarantineCache ε} (hc : c.Sized allocSize) (it : ε) :
    (c.enqueue allocSize it).Sized allocSize := by
  unfold Sized at hc ⊢
  simp [QuarantineCache.enqueue, hc]

/-- One put: what is returned and what is kept is the old cache, the size stays that of
the elements, and there is room or only the new chunk. -/
theorem put_spec {c : QuarantineCache ε} (hc : c.Sized allocSize) (maxSize : UInt64) (it : ε) :
    let r := c.evict allocSize maxSize (allocSize it)
    r.1 ++ r.2.list = c.list ∧ (r.2.enqueue allocSize it).Sized allocSize ∧
      ((r.2.enqueue allocSize it).size ≤ maxSize ∨ (r.2.enqueue allocSize it).list = [it]) := by
  intro r
  have hr : r.2.Sized allocSize := by
    have h := @evictLoop_sized _ allocSize maxSize (allocSize it) c.list
    rwa [← hc] at h
  refine ⟨evictLoop_append maxSize (allocSize it) c.list c.size, hr.enqueue it, ?_⟩
  rcases @evictLoop_room _ allocSize maxSize (allocSize it) c.list c.size
    with hroom | hnone
  · exact .inl hroom
  · right
    have hnil : r.2.list = [] := hnone
    simp [enqueue, hnil]

end QuarantineCache

/-! ## Sums of block sizes -/

section Blocks

variable (start : ε → Nat) (allocSize : ε → UInt64)

/-- The chunks are blocks of the address space, none of them at the null address and
no two of them with a common byte. -/
structure Blocks (l : List ε) : Prop where
  disjoint : l.Pairwise fun a b => Disjoint
    (Finset.Ico (start a) (start a + (allocSize a).toNat))
    (Finset.Ico (start b) (start b + (allocSize b).toNat))
  within : ∀ it ∈ l, 0 < start it ∧ start it + (allocSize it).toNat ≤ 2 ^ 64

variable {start allocSize}

theorem card_blocks {l : List ε} (h : Blocks start allocSize l) :
    ∃ bytes : Finset Nat, bytes.card = (l.map fun it => (allocSize it).toNat).sum ∧
      ∀ x, x ∈ bytes ↔ ∃ it ∈ l, x ∈ Finset.Ico (start it) (start it + (allocSize it).toNat) := by
  induction l with
  | nil => exact ⟨∅, by simp, by simp⟩
  | cons it rest ih =>
    obtain ⟨hd, hrest⟩ := List.pairwise_cons.mp h.disjoint
    obtain ⟨bytes, hcard, hmem⟩ := ih ⟨hrest, fun i hi => h.within i (List.mem_cons_of_mem _ hi)⟩
    have hdisj : Disjoint (Finset.Ico (start it) (start it + (allocSize it).toNat)) bytes := by
      rw [Finset.disjoint_left]
      intro x hx hb
      obtain ⟨i, hi, hxi⟩ := (hmem x).mp hb
      exact Finset.disjoint_left.mp (hd i hi) hx hxi
    refine ⟨Finset.Ico (start it) (start it + (allocSize it).toNat) ∪ bytes, ?_, fun x => ?_⟩
    · rw [Finset.card_union_of_disjoint hdisj, Nat.card_Ico, List.map_cons, List.sum_cons]
      omega
    · rw [Finset.mem_union, hmem x]
      simp

/-- Blocks have less than the whole address space. -/
theorem sum_allocSize_lt {l : List ε} (h : Blocks start allocSize l) :
    (l.map fun it => (allocSize it).toNat).sum < 2 ^ 64 := by
  obtain ⟨bytes, hcard, hmem⟩ := card_blocks h
  have hsub : bytes ⊆ Finset.Ico 1 (2 ^ 64) := by
    intro x hx
    obtain ⟨it, hit, hx⟩ := (hmem x).mp hx
    have hw := h.within it hit
    rw [Finset.mem_Ico] at hx ⊢
    omega
  have hle := Finset.card_le_card hsub
  rw [Nat.card_Ico] at hle
  omega

theorem toNat_sum (l : List ε) :
    (l.map allocSize).sum.toNat = (l.map fun it => (allocSize it).toNat).sum % 2 ^ 64 := by
  induction l with
  | nil => rfl
  | cons it rest ih =>
    rw [List.map_cons, List.sum_cons, List.map_cons, List.sum_cons, UInt64.toNat_add, ih,
      Nat.add_mod_mod]

theorem QuarantineCache.Sized.toNat_size {c : QuarantineCache ε} (hc : c.Sized allocSize)
    (h : Blocks start allocSize c.list) :
    c.size.toNat = (c.list.map fun it => (allocSize it).toNat).sum := by
  rw [hc, toNat_sum, Nat.mod_eq_of_lt (sum_allocSize_lt h)]

end Blocks

/-! ## Runs -/

section Runs

variable [DecidableEq δ] (allocSize : ε → UInt64)

/-- A quarantine and, for each device, all the chunks it has returned. -/
structure History (δ ε : Type) where
  quarantine : Quarantine δ ε
  released : δ → List ε

def History.put (h : History δ ε) (device : δ) (it : ε) : History δ ε :=
  let r := h.quarantine.put allocSize device it
  ⟨r.1, Function.update h.released device (h.released device ++ r.2)⟩

def History.run (maxSize : UInt64) (puts : List (δ × ε)) : History δ ε :=
  puts.foldl (fun h p => h.put allocSize p.1 p.2) ⟨.init maxSize, fun _ => []⟩

/-- The chunks that were put for a device. -/
def putsOf (puts : List (δ × ε)) (device : δ) : List ε :=
  (puts.filter fun p => p.1 = device).map Prod.snd

theorem putsOf_append (puts : List (δ × ε)) (p : δ × ε) (device : δ) :
    putsOf (puts ++ [p]) device
      = if p.1 = device then putsOf puts device ++ [p.2] else putsOf puts device := by
  unfold putsOf
  by_cases h : p.1 = device <;> simp [h]

/-- What a device's cache and the chunks it has returned are, after some puts. -/
structure Conserved (allocSize : ε → UInt64) (maxSize : UInt64) (puts : List ε)
    (released : List ε) (c : QuarantineCache ε) : Prop where
  /-- Every chunk that was put is in exactly one place, in the order of the puts. -/
  fifo : released ++ c.list = puts
  sized : c.Sized allocSize
  bounded : c.size ≤ maxSize ∨ ∃ it, c.list = [it] ∧ puts.getLast? = some it

variable {allocSize}

theorem History.put_max (h : History δ ε) (device : δ) (it : ε) :
    (h.put allocSize device it).quarantine.maxSize = h.quarantine.maxSize := rfl

theorem Conserved.put {maxSize : UInt64} {puts released : List ε} {c : QuarantineCache ε}
    (h : Conserved allocSize maxSize puts released c) (it : ε) :
    let r := c.evict allocSize maxSize (allocSize it)
    Conserved allocSize maxSize (puts ++ [it]) (released ++ r.1) (r.2.enqueue allocSize it) := by
  intro r
  obtain ⟨happ, hsized, hroom⟩ := QuarantineCache.put_spec h.sized maxSize it
  refine ⟨?_, hsized, hroom.imp_right fun hl => ⟨it, hl, by simp⟩⟩
  calc released ++ r.1 ++ (r.2.list ++ [it])
      = released ++ (r.1 ++ r.2.list) ++ [it] := by simp
    _ = released ++ c.list ++ [it] := by rw [happ]
    _ = puts ++ [it] := by rw [h.fifo]

/-- **Run lemma.** What was put is released, kept, or too large to be kept. -/
theorem History.run_conserved (maxSize : UInt64) (puts : List (δ × ε)) :
    (run allocSize maxSize puts).quarantine.maxSize = maxSize ∧
    ∀ device, Conserved allocSize maxSize (putsOf puts device)
      ((run allocSize maxSize puts).released device)
      ((run allocSize maxSize puts).quarantine.map device) := by
  induction puts using List.reverseRecOn with
  | nil =>
    refine ⟨rfl, fun device => ⟨rfl, rfl, .inl ?_⟩⟩
    exact UInt64.zero_le
  | append_singleton puts p ih =>
    obtain ⟨hmax, ih⟩ := ih
    have hrun : run allocSize maxSize (puts ++ [p])
        = (run allocSize maxSize puts).put allocSize p.1 p.2 := by
      simp [run]
    refine ⟨by rw [hrun, History.put_max, hmax], fun device => ?_⟩
    rw [hrun, putsOf_append]
    by_cases hd : p.1 = device
    · subst hd
      have hput := (ih p.1).put p.2
      simp only [if_pos, History.put, Quarantine.put, Function.update_self, hmax]
      exact hput
    · rw [if_neg hd]
      simp only [History.put, Quarantine.put, Function.update_of_ne (Ne.symm hd)]
      exact ih device

/-- **The quarantine conserves the chunks**, for any devices, sizes and maximum. The
recorded size is the sum in `uptr`; of chunks that are blocks of memory it is the sum. -/
theorem quarantine_conserves (maxSize : UInt64) (puts : List (δ × ε)) (device : δ) :
    let h := History.run allocSize maxSize puts
    let c := h.quarantine.map device
    h.released device ++ c.list = putsOf puts device ∧
    c.size = (c.list.map allocSize).sum ∧
    (∀ start, Blocks start allocSize c.list →
      c.size.toNat = (c.list.map fun it => (allocSize it).toNat).sum) ∧
    (c.size ≤ maxSize ∨ ∃ it, c.list = [it] ∧ (putsOf puts device).getLast? = some it) := by
  intro h c
  have hc := (@History.run_conserved _ _ _ allocSize maxSize puts).2 device
  exact ⟨hc.fifo, hc.sized, fun _ hb => hc.sized.toNat_size hb, hc.bounded⟩

end Runs

end Cache

end UnifiedRuntime.Sanitizer
