import UnifiedRuntime.Buffers.Commands
import UnifiedRuntime.Lib.Holders

/-!
# The references buffers hold on queues

`setLastQueueWritingToMemObj` takes a reference on the queue it records and drops
the one on the queue before. `RefsOk`: the references on a queue are as many as
the live handles that have it recorded. The destructor drops none, so this is
kept only when a handle dies with nothing recorded (`ReleaseSafe`).
-/

namespace UnifiedRuntime.Buffers

open Function (update update_of_ne update_self)
open Streams (Adapter)

/-- Does a live handle have the queue recorded? -/
def Mem.holds (m : Mem) (q : Nat) : Nat := if 0 < m.refCount ∧ m.lastQueue = some q then 1 else 0

namespace World

variable {w w' : World} {h q : Nat} {a : Adapter}

/-- The handle exists and has not been destroyed. -/
def Live (w : World) (h : Nat) : Prop := h < w.count ∧ 0 < (w.mems h).refCount

instance (w : World) (h : Nat) : Decidable (w.Live h) := inferInstanceAs (Decidable (_ ∧ _))

structure RefsOk (w : World) : Prop where
  fresh : ∀ h, w.count ≤ h → (w.mems h).refCount = 0
  counted : ∀ q, Counted (fun h => (w.mems h).holds q) (w.queueRefs q)

/-- A handle that dies has no queue recorded, and neither has the parent it takes
with it. -/
def ReleaseSafe (w : World) (h : Nat) : Prop :=
  (w.mems h).refCount = 1 → (w.mems h).lastQueue = none ∧
    ∀ p ∈ (w.mems h).parent, (w.mems p).refCount = 1 → (w.mems p).lastQueue = none

/-- **No queue is referenced but by live handles.** -/
theorem RefsOk.dropped (hr : w.RefsOk)
    (hq : ∀ h, w.Live h → (w.mems h).lastQueue ≠ some q) : w.queueRefs q = 0 := by
  refine (hr.counted q).unique (Counted.none.congr fun h => ?_)
  refine if_neg fun ⟨hpos, hlast⟩ => hq h ⟨?_, hpos⟩ hlast
  by_contra hlt
  have := hr.fresh h (by omega)
  omega

/-- Nothing that counts has changed. -/
theorem RefsOk.congr (hr : w.RefsOk) (hfresh : ∀ h, w'.count ≤ h → (w'.mems h).refCount = 0)
    (hholds : ∀ h q, (w'.mems h).holds q = (w.mems h).holds q)
    (hrefs : w'.queueRefs = w.queueRefs) : w'.RefsOk := by
  refine ⟨hfresh, fun q => ?_⟩
  rw [hrefs]
  exact (hr.counted q).congr fun h => hholds h q

/-- References depend on counts and recorded queues, not on bytes and flags. -/
theorem RefsOk.of_mems (hr : w.RefsOk) (hcount : w'.count = w.count)
    (hrefCount : ∀ h, (w'.mems h).refCount = (w.mems h).refCount)
    (hlast : ∀ h, (w'.mems h).lastQueue = (w.mems h).lastQueue)
    (hrefs : w'.queueRefs = w.queueRefs) : w'.RefsOk := by
  refine hr.congr (fun h hle => ?_) (fun h q => ?_) hrefs
  · rw [hrefCount]
    exact hr.fresh h (hcount ▸ hle)
  · unfold Mem.holds
    rw [hrefCount, hlast]

/-- The queue that was recorded loses the handle's reference. -/
theorem counted_drop (hr : w.RefsOk) (hh : w.Live h) {old : Nat}
    (hlast : (w.mems h).lastQueue = some old) (q : Nat) :
    Counted (fun h' => if h' = h then 0 else (w.mems h').holds q)
      (update w.queueRefs old (w.queueRefs old - 1) q) := by
  by_cases hq : q = old
  · subst hq
    rw [update_self]
    refine (hr.counted q).lose (a := h) 1 ?_ fun x hx => if_neg hx
    rw [if_pos rfl]
    exact (if_pos ⟨hh.2, hlast⟩).symm
  · rw [update_of_ne hq]
    refine (hr.counted q).congr fun x => ?_
    split
    next hx =>
      subst hx
      refine (if_neg fun hboth => hq ?_).symm
      exact Option.some.inj (hboth.2.symm.trans hlast)
    next => rfl

/-- … and the new one gains one. -/
theorem counted_take {refs : Nat → Nat} {holds : Nat → Nat → Nat} (h q : Nat)
    (hc : ∀ q', Counted (fun h' => if h' = h then 0 else holds h' q') (refs q')) (q' : Nat) :
    Counted (fun h' => if h' = h then (if q' = q then 1 else 0) else holds h' q')
      (update refs q (refs q + 1) q') := by
  by_cases hq : q' = q
  · subst hq
    rw [update_self]
    refine (hc q').gain (a := h) 1 ?_ fun x hx => ?_
    · rw [if_pos rfl, if_pos rfl, if_pos rfl]
    · rw [if_neg hx, if_neg hx]
  · rw [update_of_ne hq]
    refine (hc q').congr fun x => ?_
    by_cases hx : x = h
    · rw [if_pos hx, if_pos hx, if_neg hq]
    · rw [if_neg hx, if_neg hx]

/-- The references after the two calls, in either order. -/
theorem counted_setLastQueue (a : Adapter) (hr : w.RefsOk) (hh : w.Live h) (q q' : Nat) :
    Counted (fun h' => if h' = h then (if q' = q then 1 else 0) else (w.mems h').holds q')
      ((setLastQueueWritingToMemObj a w h q).queueRefs q') := by
  cases hlast : (w.mems h).lastQueue with
  | none =>
    have hnone : ∀ q', Counted (fun h' => if h' = h then 0 else (w.mems h').holds q')
        (w.queueRefs q') := by
      intro q'
      refine (hr.counted q').congr fun x => ?_
      split
      next hx =>
        subst hx
        exact (if_neg fun hboth => absurd (hlast.symm.trans hboth.2) (by simp)).symm
      next => rfl
    have htake := counted_take h q hnone q'
    cases a <;> simp only [setLastQueueWritingToMemObj, markWritten, setMem, releaseWriter,
      retainQueue, hlast] <;> exact htake
  | some old =>
    have htake := counted_take h q (counted_drop hr hh hlast) q'
    have hpos : w.queueRefs old ≠ 0 := by
      refine (hr.counted old).pos (x := h) ?_
      rw [Mem.holds, if_pos ⟨hh.2, hlast⟩]
      exact Nat.one_ne_zero
    cases a with
    | hip =>
      simp only [setLastQueueWritingToMemObj, markWritten, setMem, releaseWriter, retainQueue,
        releaseQueue, hlast]
      exact htake
    | cuda =>
      -- taking first and dropping then comes to the same
      have heq : update (update w.queueRefs q (w.queueRefs q + 1)) old
          (update w.queueRefs q (w.queueRefs q + 1) old - 1) =
          update (update w.queueRefs old (w.queueRefs old - 1)) q
            (update w.queueRefs old (w.queueRefs old - 1) q + 1) := by
        funext x
        simp only [Function.update_apply]
        split_ifs <;> subst_vars <;> first | rfl | omega
      simp only [setLastQueueWritingToMemObj, markWritten, setMem, releaseWriter, retainQueue,
        releaseQueue, hlast]
      rw [heq]
      exact htake

/-- The handle exchanges the queue it counts for; every other handle counts as before. -/
theorem RefsOk.setLastQueue (hr : w.RefsOk) (hh : w.Live h) :
    (setLastQueueWritingToMemObj a w h q).RefsOk := by
  obtain ⟨refs, heq⟩ := setLastQueue_eq a w h q
  have hmem : ∀ h', h' ≠ h → (setLastQueueWritingToMemObj a w h q).mems h' = w.mems h' := by
    intro h' hne
    rw [heq]
    exact update_of_ne hne ..
  refine ⟨fun h' hle => ?_, fun q' => ?_⟩
  · have hle' : w.count ≤ h' := by
      rw [heq] at hle
      exact hle
    have hlt := hh.1
    rw [hmem h' (by omega)]
    exact hr.fresh h' hle'
  · refine (counted_setLastQueue a hr hh q q').congr fun x => ?_
    split
    next hx =>
      subst hx
      rw [setLastQueue_mems]
      unfold Mem.holds Mem.written
      have := hh.2
      by_cases hq : q' = q
      · rw [if_pos hq, if_pos ⟨this, by rw [hq]⟩]
      · rw [if_neg hq, if_neg fun hboth => hq (Option.some.inj hboth.2).symm]
    next hx => rw [hmem x hx]

/-! ## What the commands leave alone -/

/-- No handle dies, and no read is waited for. -/
structure Idle (w w' : World) : Prop where
  count : w'.count = w.count
  refCount : ∀ h, (w'.mems h).refCount = (w.mems h).refCount
  pending : w'.pending = w.pending
  missed : w'.missed = w.missed

namespace Idle

variable {w'' : World}

theorem refl (w : World) : Idle w w := ⟨rfl, fun _ => rfl, rfl, rfl⟩

theorem trans (h₁ : Idle w w') (h₂ : Idle w' w'') : Idle w w'' :=
  ⟨h₂.count.trans h₁.count, fun h => (h₂.refCount h).trans (h₁.refCount h),
    h₂.pending.trans h₁.pending, h₂.missed.trans h₁.missed⟩

theorem live (hi : Idle w w') (hh : w.Live h) : w'.Live h := by
  unfold Live
  rw [hi.count, hi.refCount]
  exact hh

end Idle

theorem idle_poke (w : World) (h d : Nat) (cs : List (Nat × Byte)) : Idle w (w.poke h d cs) :=
  ⟨rfl, fun _ => rfl, rfl, rfl⟩

theorem idle_peek (w : World) (h d : Nat) (offsets : List Nat) : Idle w (w.peek h d offsets) :=
  ⟨rfl, fun _ => rfl, rfl, rfl⟩

/-- References on queues move, those on buffers do not. -/
theorem idle_setLastQueue (a : Adapter) (w : World) (h q : Nat) :
    Idle w (setLastQueueWritingToMemObj a w h q) := by
  obtain ⟨refs, heq⟩ := setLastQueue_eq a w h q
  rw [heq]
  refine ⟨rfl, fun h' => ?_, rfl, rfl⟩
  show (update w.mems h _ h').refCount = _
  by_cases hne : h' = h
  · subst hne
    rw [update_self]
    rfl
  · rw [update_of_ne hne]

/-- A migration sets one flag of one handle. -/
theorem migrate_eq (w : World) (h d : Nat) : ∃ memory strays flags,
    w.enqueueMigrateMemoryToDeviceIfNeeded h d =
      { w with
        memory := memory
        strays := strays
        mems := update w.mems h { w.mems h with migrated := flags } } := by
  have hbuffer : ∃ memory strays, w.enqueueMigrateBufferToDevice h d =
      { w with memory := memory, strays := strays } := by
    unfold enqueueMigrateBufferToDevice
    dsimp only
    split
    · split
      · exact ⟨_, _, rfl⟩
      · exact ⟨w.memory, w.strays, rfl⟩
    · split
      · exact ⟨_, _, rfl⟩
      · exact ⟨w.memory, w.strays, rfl⟩
  unfold enqueueMigrateMemoryToDeviceIfNeeded
  split
  · refine ⟨w.memory, w.strays, (w.mems h).migrated, ?_⟩
    rw [Function.update_eq_self]
  · obtain ⟨memory, strays, heq⟩ := hbuffer
    rw [heq]
    exact ⟨_, _, _, rfl⟩

/-- Neither the count of a handle nor its recorded queue depends on a migration. -/
theorem migrate_bookkeeping (w : World) (h d h' : Nat) :
    ((w.enqueueMigrateMemoryToDeviceIfNeeded h d).mems h').refCount = (w.mems h').refCount ∧
      ((w.enqueueMigrateMemoryToDeviceIfNeeded h d).mems h').lastQueue = (w.mems h').lastQueue := by
  obtain ⟨memory, strays, flags, heq⟩ := migrate_eq w h d
  rw [heq]
  show (update w.mems h _ h').refCount = _ ∧ (update w.mems h _ h').lastQueue = _
  by_cases hne : h' = h
  · subst hne
    rw [update_self]
    exact ⟨rfl, rfl⟩
  · rw [update_of_ne hne]
    exact ⟨rfl, rfl⟩

theorem idle_migrate (w : World) (h d : Nat) :
    Idle w (w.enqueueMigrateMemoryToDeviceIfNeeded h d) := by
  obtain ⟨memory, strays, flags, heq⟩ := migrate_eq w h d
  refine ⟨?_, fun h' => (migrate_bookkeeping w h d h').1, ?_, ?_⟩ <;> rw [heq]

theorem RefsOk.migrate (hr : w.RefsOk) (h d : Nat) :
    (w.enqueueMigrateMemoryToDeviceIfNeeded h d).RefsOk := by
  obtain ⟨memory, strays, flags, heq⟩ := migrate_eq w h d
  refine hr.of_mems (idle_migrate w h d).count (fun h' => (migrate_bookkeeping w h d h').1)
    (fun h' => (migrate_bookkeeping w h d h').2) ?_
  rw [heq]

theorem idle_prepareArg (a : Adapter) (w : World) (q : Nat) (arg : Arg) :
    Idle w (w.prepareArg a q arg) := by
  unfold World.prepareArg
  split
  · exact (idle_migrate w _ _).trans (idle_setLastQueue a _ _ _)
  · exact idle_migrate w _ _

theorem RefsOk.prepareArg (hr : w.RefsOk) {arg : Arg} (hh : w.Live arg.mem) :
    (w.prepareArg a q arg).RefsOk := by
  unfold World.prepareArg
  split
  · exact (hr.migrate _ _).setLastQueue ((idle_migrate w _ _).live hh)
  · exact hr.migrate _ _

theorem idle_prepareArgs (a : Adapter) (w : World) (q : Nat) (args : List Arg) :
    Idle w (w.prepareArgs a q args) := by
  unfold World.prepareArgs
  split
  next hdev =>
    clear hdev
    induction args generalizing w with
    | nil => exact Idle.refl w
    | cons arg rest ih => exact (idle_prepareArg a w q arg).trans (ih _)
  next => exact Idle.refl w

/-- Induction on the arguments, all of which stay alive. -/
theorem RefsOk.prepareArgs (hr : w.RefsOk) {args : List Arg} (hh : ∀ arg ∈ args, w.Live arg.mem) :
    (w.prepareArgs a q args).RefsOk := by
  unfold World.prepareArgs
  split
  next hdev =>
    clear hdev
    induction args generalizing w with
    | nil => exact hr
    | cons arg rest ih =>
      have hi := idle_prepareArg a w q arg
      exact ih (hr.prepareArg (hh arg List.mem_cons_self))
        fun x hx => hi.live (hh x (List.mem_cons_of_mem arg hx))
  next => exact hr

/-- The kernel itself touches no bookkeeping. -/
theorem runKernel_bookkeeping (w : World) (d : Nat) (args : List Arg) :
    Idle w (w.runKernel d args) ∧ (w.runKernel d args).mems = w.mems ∧
      (w.runKernel d args).queueRefs = w.queueRefs := by
  have hreads : ∀ (l : List Arg) (w : World),
      Idle w (l.foldl (fun w arg => w.peek arg.mem d arg.reads) w) ∧
        (l.foldl (fun w arg => w.peek arg.mem d arg.reads) w).mems = w.mems ∧
        (l.foldl (fun w arg => w.peek arg.mem d arg.reads) w).queueRefs = w.queueRefs := by
    intro l
    induction l with
    | nil => exact fun w => ⟨Idle.refl w, rfl, rfl⟩
    | cons arg rest ih =>
      intro w
      obtain ⟨hi, hm, hq⟩ := ih (w.peek arg.mem d arg.reads)
      exact ⟨(idle_peek ..).trans hi, hm, hq⟩
  have hwrites : ∀ (l : List Arg) (w : World),
      Idle w (l.foldl (fun w arg => w.poke arg.mem d arg.writes) w) ∧
        (l.foldl (fun w arg => w.poke arg.mem d arg.writes) w).mems = w.mems ∧
        (l.foldl (fun w arg => w.poke arg.mem d arg.writes) w).queueRefs = w.queueRefs := by
    intro l
    induction l with
    | nil => exact fun w => ⟨Idle.refl w, rfl, rfl⟩
    | cons arg rest ih =>
      intro w
      obtain ⟨hi, hm, hq⟩ := ih (w.poke arg.mem d arg.writes)
      exact ⟨(idle_poke ..).trans hi, hm, hq⟩
  obtain ⟨hi₁, hm₁, hq₁⟩ := hreads args w
  obtain ⟨hi₂, hm₂, hq₂⟩ := hwrites args _
  exact ⟨hi₁.trans hi₂, hm₂.trans hm₁, hq₂.trans hq₁⟩

theorem idle_urEnqueueKernelLaunch (a : Adapter) (w : World) (q : Nat) (args : List Arg) :
    Idle w (w.urEnqueueKernelLaunch a q args) :=
  (idle_prepareArgs a w q args).trans (runKernel_bookkeeping ..).1

theorem RefsOk.urEnqueueKernelLaunch (hr : w.RefsOk) {args : List Arg}
    (hh : ∀ arg ∈ args, w.Live arg.mem) : (w.urEnqueueKernelLaunch a q args).RefsOk := by
  have hr₁ := hr.prepareArgs (a := a) (q := q) hh
  obtain ⟨hi, hm, hq⟩ := runKernel_bookkeeping (w.prepareArgs a q args) (w.device q) args
  refine hr₁.of_mems hi.count hi.refCount (fun h => ?_) hq
  show (((w.prepareArgs a q args).runKernel (w.device q) args).mems h).lastQueue = _
  rw [hm]

theorem idle_enqueueWrite (a : Adapter) (w : World) (q h : Nat) (offsets : List Nat)
    (source : Nat → Byte) : Idle w (w.enqueueWrite a q h offsets source) :=
  (idle_setLastQueue a w h q).trans (idle_poke ..)

theorem RefsOk.enqueueWrite (hr : w.RefsOk) (hh : w.Live h) (offsets : List Nat)
    (source : Nat → Byte) : (w.enqueueWrite a q h offsets source).RefsOk :=
  (hr.setLastQueue hh).of_mems rfl (fun _ => rfl) (fun _ => rfl) rfl

theorem RefsOk.enqueueRead (hr : w.RefsOk) (q h : Nat) (offsets : List Nat) (blocking : Bool) :
    (w.enqueueRead q h offsets blocking).RefsOk := by
  unfold World.enqueueRead
  split <;> exact ⟨hr.fresh, hr.counted⟩

theorem idle_enqueueCopy (w : World) (q src dst : Nat) (srcOffsets dstOffsets : List Nat) :
    Idle w (w.enqueueCopy q src dst srcOffsets dstOffsets) :=
  (idle_peek ..).trans (idle_poke ..)

theorem RefsOk.enqueueCopy (hr : w.RefsOk) (src dst : Nat) (srcOffsets dstOffsets : List Nat) :
    (w.enqueueCopy q src dst srcOffsets dstOffsets).RefsOk :=
  hr.of_mems rfl (fun _ => rfl) (fun _ => rfl) rfl

/-- One more reference on a live handle. -/
theorem holds_retain (hh : w.Live h) (q : Nat) :
    (update w.mems h { w.mems h with refCount := (w.mems h).refCount + 1 } h).holds q =
      (w.mems h).holds q := by
  have hpos := hh.2
  rw [update_self]
  unfold Mem.holds
  dsimp only
  by_cases hlast : (w.mems h).lastQueue = some q
  · rw [if_pos ⟨by omega, hlast⟩, if_pos ⟨hpos, hlast⟩]
  · rw [if_neg fun hboth => hlast hboth.2, if_neg fun hboth => hlast hboth.2]

/-- **A handle whose queue was forgotten before it dies takes no reference with it.** -/
theorem RefsOk.urMemRelease (hr : w.RefsOk) (hh : w.Live h) (hsafe : w.ReleaseSafe h) :
    (w.urMemRelease h).RefsOk := by
  -- dropping one reference on a handle
  have hdrop : ∀ (w : World) (h : Nat), w.RefsOk →
      ((w.mems h).refCount = 1 → (w.mems h).lastQueue = none) →
      (w.setMem h { w.mems h with refCount := (w.mems h).refCount - 1 }).RefsOk := by
    intro w h hr hsafe
    refine hr.congr (fun h' hle => ?_) (fun h' q => ?_) rfl
    · have := hr.fresh h' hle
      show (update w.mems h _ h').refCount = 0
      by_cases hne : h' = h
      · subst hne
        rw [update_self]
        dsimp only
        omega
      · rw [update_of_ne hne]
        exact this
    · show (update w.mems h _ h').holds q = _
      by_cases hne : h' = h
      · subst hne
        rw [update_self]
        unfold Mem.holds
        dsimp only
        by_cases hone : (w.mems h').refCount = 1
        · have hnone := hsafe hone
          rw [if_neg (by omega), if_neg fun hboth => ?_]
          rw [hnone] at hboth
          exact absurd hboth.2 (by simp)
        · by_cases hlast : (w.mems h').lastQueue = some q
          · by_cases hpos : 0 < (w.mems h').refCount
            · rw [if_pos ⟨by omega, hlast⟩, if_pos ⟨hpos, hlast⟩]
            · rw [if_neg (by omega), if_neg (by omega)]
          · rw [if_neg fun hboth => hlast hboth.2, if_neg fun hboth => hlast hboth.2]
      · rw [update_of_ne hne]
  have hr₁ := hdrop w h hr fun hone => (hsafe hone).1
  unfold World.urMemRelease
  split
  next p hp =>
    split
    next hone =>
      refine hdrop _ p hr₁ fun hone' => ?_
      by_cases hne : p = h
      · subst hne
        simp only [setMem, update_self] at hone' ⊢
        omega
      · simp only [setMem, update_of_ne hne] at hone' ⊢
        exact (hsafe hone).2 p hp hone'
    next => exact hr₁
  next => exact hr₁

end World

end UnifiedRuntime.Buffers
