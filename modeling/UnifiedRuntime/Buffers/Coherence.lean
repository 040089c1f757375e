import UnifiedRuntime.Buffers.Mem

/-!
# Which device has the current contents

The bookkeeping of one handle says for which devices it takes the contents for
current. A buffer is one thing and its sub-buffers are others, so a device is
`Current` when every handle of the buffer takes it for current, and a device is
`Alone` when each other device is taken for stale by some handle.

`CoherentAt`: on every device that is current the allocation `Holds` the latest
writes. A write keeps this when its device is current, or the write covers the
buffer, and the device is alone afterwards (`coherentAt_poke`); recording the
queue makes the device alone; a migration may copy only through a handle that
covers the buffer, from a device that is current.
-/

namespace UnifiedRuntime.Buffers

open Function (update update_of_ne update_self)
open Streams (Adapter)

/-- The handle takes the device for current. -/
def Mem.Current (m : Mem) (d : Nat) : Prop := m.lastQueue = none ∨ m.migrated d = true

instance (m : Mem) (d : Nat) : Decidable (m.Current d) := inferInstanceAs (Decidable (_ ∨ _))

/-- The handle after `setLastQueueWritingToMemObj`. -/
def Mem.written (m : Mem) (q d : Nat) : Mem :=
  { m with lastQueue := some q, migrated := fun d' => decide (d' = d) }

namespace World

/-- Every handle of the buffer takes the device for current. -/
def Current (w : World) (r d : Nat) : Prop :=
  (w.mems r).pinned = true ∨ ∀ h, h < w.count → (w.mems h).root = r → (w.mems h).Current d

/-- Every other device is taken for stale by some handle. -/
def Alone (w : World) (r d : Nat) : Prop :=
  (w.mems r).pinned = true ∨ ∀ d', d' < w.context.devices → d' ≠ d → ¬ w.Current r d'

instance (w : World) (r d : Nat) : Decidable (w.Current r d) :=
  inferInstanceAs (Decidable (_ ∨ ∀ h, h < w.count → _ → _))

instance (w : World) (r d : Nat) : Decidable (w.Alone r d) :=
  inferInstanceAs (Decidable (_ ∨ ∀ d', d' < w.context.devices → _ → _))

/-- No handle of the buffer has recorded a write. -/
def Unwritten (w : World) (r : Nat) : Prop :=
  ∀ h, h < w.count → (w.mems h).root = r → (w.mems h).lastQueue = none

instance (w : World) (r : Nat) : Decidable (w.Unwritten r) :=
  inferInstanceAs (Decidable (∀ h, h < w.count → _ → _))

/-- The bytes of a buffer. -/
def bytes (w : World) (r : Nat) : Set Nat := fun i => i < (w.mems r).size

/-- The device's allocation has the latest writes. -/
def Holding (w : World) (r d : Nat) : Prop :=
  Holds (w.bytes r) (w.latest r) (w.memory r ((w.mems r).place d))

structure CoherentAt (w : World) (r : Nat) : Prop where
  current : ∀ d, d < w.context.devices → w.Current r d → w.Holding r d
  /-- Before the first recorded write the contents are the initial ones. -/
  initial : 1 < w.context.devices → (w.mems r).pinned = false → w.Unwritten r →
    Holds (w.bytes r) (w.latest r) (w.initial r)

/-- What a handle shares with its buffer. -/
structure MemOk (w : World) (h : Nat) : Prop where
  root_lt : (w.mems h).root < w.count
  root_root : (w.mems (w.mems h).root).root = (w.mems h).root
  root_size : (w.mems (w.mems h).root).size = (w.mems h).size
  root_pinned : (w.mems (w.mems h).root).pinned = (w.mems h).pinned
  writer : ∀ q, (w.mems h).lastQueue = some q → (w.mems h).migrated (w.device q) = true

/-- **The invariant of the memory.** -/
structure Coherent (w : World) : Prop where
  mems : ∀ h, h < w.count → w.MemOk h
  buffers : ∀ r, r < w.count → (w.mems r).root = r → w.CoherentAt r

/-! ## Frames -/

/-- The two worlds have the same handles, up to the bookkeeping of one. -/
structure SameHandles (h : Nat) (w w' : World) : Prop where
  context : w'.context = w.context
  count : w'.count = w.count
  others : ∀ h', h' ≠ h → w'.mems h' = w.mems h'
  root : (w'.mems h).root = (w.mems h).root
  offset : (w'.mems h).offset = (w.mems h).offset
  size : (w'.mems h).size = (w.mems h).size
  region : (w'.mems h).region = (w.mems h).region
  pinned : (w'.mems h).pinned = (w.mems h).pinned

namespace SameHandles

variable {w w' w'' : World} {h h' : Nat}

/-- What happens to memory alone leaves the handles the same. -/
theorem of_mems (hc : w'.context = w.context) (hn : w'.count = w.count) (hm : w'.mems = w.mems) :
    SameHandles h w w' := by
  refine ⟨hc, hn, fun h' _ => by rw [hm], ?_, ?_, ?_, ?_, ?_⟩ <;> rw [hm]

theorem trans (h₁ : SameHandles h w w') (h₂ : SameHandles h w' w'') : SameHandles h w w'' :=
  ⟨h₂.context.trans h₁.context, h₂.count.trans h₁.count,
    fun h' hne => (h₂.others h' hne).trans (h₁.others h' hne),
    h₂.root.trans h₁.root, h₂.offset.trans h₁.offset, h₂.size.trans h₁.size, h₂.region.trans h₁.region,
    h₂.pinned.trans h₁.pinned⟩

variable (hs : SameHandles h w w')

include hs

/-- A field of the handle that does not change. -/
theorem field_eq {β : Type} {f : Mem → β} (hf : f (w'.mems h) = f (w.mems h)) (h' : Nat) :
    f (w'.mems h') = f (w.mems h') := by
  by_cases heq : h' = h
  · subst heq
    exact hf
  · rw [hs.others h' heq]

theorem root_eq (h' : Nat) : (w'.mems h').root = (w.mems h').root := hs.field_eq hs.root h'

theorem size_eq (h' : Nat) : (w'.mems h').size = (w.mems h').size := hs.field_eq hs.size h'

theorem pinned_eq (h' : Nat) : (w'.mems h').pinned = (w.mems h').pinned := hs.field_eq hs.pinned h'

theorem offset_eq (h' : Nat) : (w'.mems h').offset = (w.mems h').offset := hs.field_eq hs.offset h'

theorem region_eq (h' : Nat) : (w'.mems h').region = (w.mems h').region := hs.field_eq hs.region h'

theorem within (h' : Nat) {o : Nat} (hw : (w.mems h').Within o) : (w'.mems h').Within o := by
  unfold Mem.Within at hw ⊢
  rw [hs.region_eq, hs.offset_eq, hs.size_eq]
  exact hw

/-- The handle's bytes stay where they are. -/
theorem place_eq (h' d : Nat) : (w'.mems h').place d = (w.mems h').place d := by
  unfold Mem.place
  rw [hs.pinned_eq]

theorem bytes_eq (r : Nat) : w'.bytes r = w.bytes r := by
  unfold bytes
  rw [hs.size_eq]

/-- The handles of another buffer are as they were. -/
theorem all_iff {r : Nat} (hr : (w.mems h).root ≠ r) (p : Mem → Prop) :
    (∀ h', h' < w'.count → (w'.mems h').root = r → p (w'.mems h')) ↔
      ∀ h', h' < w.count → (w.mems h').root = r → p (w.mems h') := by
  rw [hs.count]
  refine forall_congr' fun h' => forall_congr' fun _ => ?_
  rw [hs.root_eq]
  refine forall_congr' fun hroot => ?_
  rw [hs.others h' fun heq => hr (heq ▸ hroot)]

/-- A handle of another buffer does not change who is current. -/
theorem current_iff {r : Nat} (hr : (w.mems h).root ≠ r) (d : Nat) :
    w'.Current r d ↔ w.Current r d := by
  unfold Current
  rw [hs.pinned_eq]
  exact or_congr Iff.rfl (hs.all_iff hr (·.Current d))

/-- The handle decides nothing for other buffers. -/
theorem unwritten_iff {r : Nat} (hr : (w.mems h).root ≠ r) : w'.Unwritten r ↔ w.Unwritten r :=
  hs.all_iff hr (·.lastQueue = none)

/-- Only the handle itself has something to show: that the device of its queue is marked. -/
theorem memOk {h' : Nat} (hok : w.MemOk h')
    (hw : h' = h → ∀ q, (w'.mems h).lastQueue = some q → (w'.mems h).migrated (w.device q) = true) :
    w'.MemOk h' := by
  refine ⟨?_, ?_, ?_, ?_, fun q hq => ?_⟩
  · rw [hs.root_eq, hs.count]
    exact hok.root_lt
  · rw [hs.root_eq, hs.root_eq]
    exact hok.root_root
  · rw [hs.root_eq, hs.size_eq, hs.size_eq]
    exact hok.root_size
  · rw [hs.root_eq, hs.pinned_eq, hs.pinned_eq]
    exact hok.root_pinned
  · have hdev : w'.device q = w.device q := by
      unfold device
      rw [hs.context]
    rw [hdev]
    by_cases heq : h' = h
    · subst heq
      exact hw rfl q hq
    · rw [hs.others h' heq] at hq ⊢
      exact hok.writer q hq

/-- Another buffer whose contents are the same. -/
theorem coherentAt {r : Nat} (hr : (w.mems h).root ≠ r)
    (hmem : w'.memory r = w.memory r) (hlat : w'.latest r = w.latest r)
    (hini : w'.initial r = w.initial r) (hco : w.CoherentAt r) : w'.CoherentAt r := by
  refine ⟨fun d hd hcur => ?_, fun hdev hpin hun => ?_⟩
  · unfold Holding
    rw [hs.bytes_eq, hlat, hmem, hs.place_eq]
    rw [hs.context] at hd
    exact hco.current d hd ((hs.current_iff hr d).mp hcur)
  · rw [hs.bytes_eq, hlat, hini]
    rw [hs.context] at hdev
    rw [hs.pinned_eq] at hpin
    exact hco.initial hdev hpin ((hs.unwritten_iff hr).mp hun)

end SameHandles

/-! ## Writing -/

/-- The cells write every byte of the buffer. -/
def Covers (w : World) (r base : Nat) (cs : List (Nat × Byte)) : Prop :=
  ∀ i, i < (w.mems r).size → (writesOf base cs i).isSome

variable {w w' : World} {h r d q : Nat} {a : Adapter}

theorem sameHandles_poke (w : World) (h d : Nat) (cs : List (Nat × Byte)) :
    SameHandles h w (w.poke h d cs) := .of_mems rfl rfl rfl

/-- A buffer without a recorded write is taken for current on every device. -/
theorem Current.of_unwritten (hu : w.Unwritten r) (d : Nat) : w.Current r d :=
  .inr fun h hlt hr => .inl (hu h hlt hr)

/-- **A write to a device that has the contents, and that is alone.** -/
theorem coherentAt_poke {cs : List (Nat × Byte)} (hok : w.MemOk h) (hr : (w.mems h).root = r)
    (hd : d < w.context.devices)
    (hat : w.Holding r d ∨ w.Covers r (w.mems h).offset cs) (halone : w.Alone r d) :
    (w.poke h d cs).CoherentAt r := by
  subst hr
  have hplace : ∀ d', (w.mems (w.mems h).root).place d' = (w.mems h).place d' := by
    intro d'
    unfold Mem.place
    rw [hok.root_pinned]
  have hhold : (w.poke h d cs).Holding (w.mems h).root d := by
    show Holds (w.bytes _) (update w.latest _ _ _) (update w.memory _ _ _ _)
    rw [update_self, update_self]
    show Holds _ _ (update (w.memory (w.mems h).root) _ _
      ((w.mems (w.mems h).root).place d))
    rw [hplace, update_self]
    rcases hat with hat | hcov
    · unfold Holding at hat
      rw [hplace] at hat
      exact hat.overlay _
    · -- what the allocation held does not matter
      intro i hi v hv
      obtain ⟨b, hb⟩ := Option.isSome_iff_exists.mp (hcov i hi)
      simp only [overwrite, hb, Option.some_or, Option.some.injEq] at hv
      simp [overlay, hb, hv]
  refine ⟨fun d' hd' hcur => ?_, fun hdev hpin hun => ?_⟩
  · rcases halone with hp | halone
    · -- all devices see the same memory
      unfold Holding at hhold ⊢
      have : ((w.poke h d cs).mems (w.mems h).root).place d' =
          ((w.poke h d cs).mems (w.mems h).root).place d := by
        show (w.mems (w.mems h).root).place d' = (w.mems (w.mems h).root).place d
        unfold Mem.place
        rw [hp, if_pos rfl, if_pos rfl]
      rw [this]
      exact hhold
    · by_cases heq : d' = d
      · subst heq
        exact hhold
      · exact absurd hcur (halone d' hd' heq)
  · rcases halone with hp | halone
    · exact absurd (hp.symm.trans hpin) (by simp)
    · -- some other device is stale, so a write was recorded
      have hall : ∀ d', w.Current (w.mems h).root d' := fun d' => Current.of_unwritten hun d'
      by_cases hd0 : d = 0
      · exact absurd (hall 1) (halone 1 hdev (by omega))
      · exact absurd (hall 0) (halone 0 (by omega) (by omega))

/-- A write keeps the invariant if that of every other buffer holds before it. -/
theorem coherent_poke {cs : List (Nat × Byte)} (hmems : ∀ h', h' < w.count → w.MemOk h')
    (hothers : ∀ r, r < w.count → (w.mems r).root = r → (w.mems h).root ≠ r → w.CoherentAt r)
    (hh : h < w.count) (hd : d < w.context.devices)
    (hat : w.Holding (w.mems h).root d ∨ w.Covers (w.mems h).root (w.mems h).offset cs)
    (halone : w.Alone (w.mems h).root d) : (w.poke h d cs).Coherent := by
  have hs := sameHandles_poke w h d cs
  refine ⟨fun h' hlt => hs.memOk (hmems h' hlt) fun _ q hq => (hmems h hh).writer q hq,
    fun r hlt hroot => ?_⟩
  by_cases hr : (w.mems h).root = r
  · subst hr
    exact coherentAt_poke (hmems h hh) rfl hd hat halone
  · refine hs.coherentAt hr ?_ ?_ rfl (hothers r hlt hroot hr)
    · show update w.memory _ _ r = _
      rw [update_of_ne (Ne.symm hr)]
    · show update w.latest _ _ r = _
      rw [update_of_ne (Ne.symm hr)]

/-! ## Recording the queue -/

/-- Besides the references only the handle changes. -/
theorem setLastQueue_eq (a : Adapter) (w : World) (h q : Nat) :
    ∃ refs, setLastQueueWritingToMemObj a w h q =
      { w with
        queueRefs := refs
        mems := update w.mems h ((w.mems h).written q (w.device q)) } := by
  have hrelease : ∀ w : World, ∃ refs, w.releaseWriter h = { w with queueRefs := refs } := by
    intro w
    unfold releaseWriter
    split <;> exact ⟨_, rfl⟩
  cases a with
  | cuda =>
    obtain ⟨refs, heq⟩ := hrelease (w.retainQueue q)
    exact ⟨refs, by rw [setLastQueueWritingToMemObj, heq]; rfl⟩
  | hip =>
    obtain ⟨refs, heq⟩ := hrelease w
    exact ⟨_, by rw [setLastQueueWritingToMemObj, heq]; rfl⟩

/-- A handle may change in its queue, its flags and its count. -/
theorem sameHandles_setMem {m : Mem} (hroot : m.root = (w.mems h).root)
    (hoffset : m.offset = (w.mems h).offset) (hsize : m.size = (w.mems h).size)
    (hregion : m.region = (w.mems h).region) (hpinned : m.pinned = (w.mems h).pinned)
    (hc : w'.context = w.context) (hn : w'.count = w.count)
    (hm : w'.mems = update w.mems h m) : SameHandles h w w' := by
  refine ⟨hc, hn, fun h' hne => ?_, ?_, ?_, ?_, ?_, ?_⟩ <;> rw [hm]
  · rw [update_of_ne hne]
  all_goals rwa [update_self]

theorem sameHandles_setLastQueue (a : Adapter) (w : World) (h q : Nat) :
    SameHandles h w (setLastQueueWritingToMemObj a w h q) := by
  obtain ⟨refs, heq⟩ := setLastQueue_eq a w h q
  rw [heq]
  exact sameHandles_setMem (m := (w.mems h).written q (w.device q))
    rfl rfl rfl rfl rfl rfl rfl rfl

/-- Afterwards the device of the queue is the only one with its flag set. -/
theorem setLastQueue_mems (a : Adapter) (w : World) (h q : Nat) :
    (setLastQueueWritingToMemObj a w h q).mems h = (w.mems h).written q (w.device q) := by
  obtain ⟨refs, heq⟩ := setLastQueue_eq a w h q
  rw [heq]
  exact update_self ..

/-- The device of the recorded queue is alone. -/
theorem alone_setLastQueue (a : Adapter) (hh : h < w.count) (hr : (w.mems h).root = r) :
    (setLastQueueWritingToMemObj a w h q).Alone r (w.device q) := by
  have hs := sameHandles_setLastQueue a w h q
  by_cases hp : (w.mems r).pinned = true
  · left
    rwa [hs.pinned_eq]
  · refine .inr fun d' _ hne hcur => ?_
    rcases hcur with hp' | hall
    · rw [hs.pinned_eq] at hp'
      exact hp hp'
    · have := hall h (by rw [hs.count]; exact hh) (by rw [hs.root_eq]; exact hr)
      rw [setLastQueue_mems] at this
      rcases this with hn | hm
      · exact absurd hn (by simp [Mem.written])
      · exact hne (by simpa [Mem.written] using hm)

/-- The queue that is recorded is the one whose device gets the flag. -/
theorem memOk_setLastQueue (a : Adapter) {h' : Nat} (hok : w.MemOk h') :
    (setLastQueueWritingToMemObj a w h q).MemOk h' := by
  refine (sameHandles_setLastQueue a w h q).memOk hok fun _ q' hq' => ?_
  rw [setLastQueue_mems] at hq' ⊢
  obtain rfl : q = q' := Option.some.inj hq'
  simp [Mem.written]

/-- The record of one buffer says nothing about another. -/
theorem setLastQueue_coherentAt (a : Adapter) (hr : (w.mems h).root ≠ r) (hco : w.CoherentAt r) :
    (setLastQueueWritingToMemObj a w h q).CoherentAt r := by
  obtain ⟨refs, heq⟩ := setLastQueue_eq a w h q
  refine (sameHandles_setLastQueue a w h q).coherentAt hr ?_ ?_ ?_ hco <;> rw [heq]

/-- Recording a queue whose device has the contents. -/
theorem Coherent.setLastQueue (hco : w.Coherent) (a : Adapter) (hh : h < w.count)
    (hcur : w.Current (w.mems h).root (w.device q)) :
    (setLastQueueWritingToMemObj a w h q).Coherent := by
  have hs := sameHandles_setLastQueue a w h q
  refine ⟨fun h' hlt => memOk_setLastQueue a (hco.mems h' (hs.count ▸ hlt)), fun r hlt hroot => ?_⟩
  rw [hs.count] at hlt
  rw [hs.root_eq] at hroot
  by_cases hr : (w.mems h).root = r
  · subst hr
    have hat := hco.buffers _ hlt hroot
    obtain ⟨refs, heq⟩ := setLastQueue_eq a w h q
    have hsame : ∀ d, (setLastQueueWritingToMemObj a w h q).Holding (w.mems h).root d ↔
        w.Holding (w.mems h).root d := by
      intro d
      unfold Holding
      rw [hs.bytes_eq, hs.place_eq, heq]
    refine ⟨fun d hd hcur' => (hsame d).mpr ?_, fun _ hpin hun => ?_⟩
    · rw [hs.context] at hd
      rcases alone_setLastQueue (q := q) a hh rfl with hp | halone
      · rw [hs.pinned_eq] at hp
        exact hat.current d hd (.inl hp)
      · by_cases hd' : d = w.device q
        · subst hd'
          exact hat.current _ hd hcur
        · exact absurd hcur' (halone d (by rw [hs.context]; exact hd) hd')
    · have := hun h (by rw [hs.count]; exact hh) (by rw [hs.root_eq])
      rw [setLastQueue_mems] at this
      exact absurd this (by simp [Mem.written])
  · exact setLastQueue_coherentAt a hr (hco.buffers r hlt hroot)

/-- **What the writing entry points keep.** -/
theorem Coherent.enqueueWrite (hco : w.Coherent) (a : Adapter) (hh : h < w.count)
    (offsets : List Nat) (source : Nat → Byte)
    (hat : w.Current (w.mems h).root (w.device q) ∨
      w.Covers (w.mems h).root (w.mems h).offset (cells offsets source)) :
    (w.enqueueWrite a q h offsets source).Coherent := by
  have hs := sameHandles_setLastQueue a w h q
  have hok := hco.mems h hh
  have hd := w.context.device_lt q
  obtain ⟨refs, heq⟩ := setLastQueue_eq a w h q
  refine coherent_poke (fun h' hlt => memOk_setLastQueue a (hco.mems h' (hs.count ▸ hlt)))
    (fun r hlt hroot hr => ?_) (by rw [hs.count]; exact hh) (by rw [hs.context]; exact hd) ?_ ?_
  · rw [hs.count] at hlt
    rw [hs.root_eq] at hroot hr
    exact setLastQueue_coherentAt a hr (hco.buffers r hlt hroot)
  · rw [hs.root_eq, hs.offset_eq]
    rcases hat with hcur | hcov
    · left
      have := (hco.buffers _ hok.root_lt hok.root_root).current _ hd hcur
      unfold Holding at this ⊢
      rw [hs.bytes_eq, hs.place_eq, heq]
      exact this
    · right
      intro i hi
      rw [hs.size_eq] at hi
      exact hcov i hi
  · rw [hs.root_eq]
    exact alone_setLastQueue a hh rfl

end World

end UnifiedRuntime.Buffers
