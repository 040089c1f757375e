import UnifiedRuntime.LevelZero.Buffer

/-!
# Coherence of the buffer's allocations

Every byte of a buffer has a latest write. A buffer is `Coherent` when the last
used device has a valid allocation and every allocation marked valid holds the
latest writes, so that a read on any device, from a valid allocation or through
the copy that makes one valid, sees them.

The code keeps this in most runs and not in all. After `getBufferZeHandle` with
an access that is not read-only, the only allocation left valid is that of
`LastDeviceWithValidAllocation`, which is updated only when the access found its
own allocation invalid; and a write-only access leaves an invalid allocation
unfilled even when the command then writes a part of it. `KeepsLatest` and
`KeepsContents` name the accesses that do not run into either. Over commands
whose accesses are all of that kind the invariant is preserved
(`command_coherent`), whatever the devices, the modes and the driver's answers.
-/

namespace UnifiedRuntime.LevelZero

open Function (update update_of_ne update_self)
open BufferState

abbrev Latest := Nat → Option Byte

/-- The cells of a buffer. -/
abbrev BufferState.cells (s : BufferState) : Set Nat := Set.Iio s.size

/-- **The property.** The last used device has a valid allocation, and every
valid allocation holds the latest writes. -/
structure Coherent (s : BufferState) (latest : Latest) : Prop where
  lastValid : ∀ d, s.last = some d → (s.allocations (some d)).valid = true
  holds : ∀ k, (s.allocations k).valid = true →
    ∃ h, (s.allocations k).zeHandle = some h ∧ Holds s.cells latest (s.memory h)

/-- What `getBufferZeHandle` relies on and keeps. -/
structure Core (s : BufferState) (latest : Latest) : Prop extends Coherent s latest where
  notFreed : s.isFreed = false
  discrete : s.onHost = false
  unwritten : s.last = none → (∀ i, latest i = none) ∧ ∀ d, (s.allocations (some d)).valid = false
  handleLt : ∀ k h, (s.allocations k).zeHandle = some h → h < s.nextHandle

/-- Mapped memory is never an allocation of a device. -/
structure Inv (s : BufferState) (latest : Latest) : Prop extends Core s latest where
  mapHost : ∀ p, s.mapHostPtr = some p →
    p < s.nextHandle ∧ ∀ d, (s.allocations (some d)).zeHandle ≠ some p
  mapped : ∀ sub, ∀ m ∈ s.mappingsOf sub,
    m.ptr.1 < s.nextHandle ∧ ∀ d, (s.allocations (some d)).zeHandle ≠ some m.ptr.1

/-- What an access leaves alone, and where handles come from. -/
structure Frame (s s' : BufferState) : Prop where
  size : s'.size = s.size
  onHost : s'.onHost = s.onHost
  mapHostPtr : s'.mapHostPtr = s.mapHostPtr
  mappings : ∀ sub, s'.mappingsOf sub = s.mappingsOf sub
  origin : ∀ i, (s'.subs i).origin = (s.subs i).origin
  next : s.nextHandle ≤ s'.nextHandle
  handles : ∀ k h, (s'.allocations k).zeHandle = some h → s.nextHandle ≤ h ∨
    ∃ k', (s.allocations k').zeHandle = some h ∧ (k' = none → k = none)

theorem Frame.refl (s : BufferState) : Frame s s :=
  ⟨rfl, rfl, rfl, fun _ => rfl, fun _ => rfl, Nat.le_refl _, fun k _ hk => .inr ⟨k, hk, id⟩⟩

theorem Frame.trans {a b c : BufferState} (hab : Frame a b) (hbc : Frame b c) : Frame a c := by
  refine ⟨hbc.size.trans hab.size, hbc.onHost.trans hab.onHost,
    hbc.mapHostPtr.trans hab.mapHostPtr, fun sub => (hbc.mappings sub).trans (hab.mappings sub),
    fun i => (hbc.origin i).trans (hab.origin i), hab.next.trans hbc.next, ?_⟩
  intro k h hk
  rcases hbc.handles k h hk with hge | ⟨k', hk', hkk'⟩
  · exact .inl (hab.next.trans hge)
  · rcases hab.handles k' h hk' with hge | ⟨k'', hk'', hkk''⟩
    · exact .inl hge
    · exact .inr ⟨k'', hk'', fun h => hkk' (hkk'' h)⟩

/-- The mapping half of the invariant follows the frame. -/
theorem Inv.of_frame {s s' : BufferState} {latest latest' : Latest} (h : Inv s latest)
    (hf : Frame s s') (hc : Core s' latest') : Inv s' latest' := by
  have hold : ∀ p, p < s.nextHandle → (∀ d, (s.allocations (some d)).zeHandle ≠ some p) →
      ∀ d, (s'.allocations (some d)).zeHandle ≠ some p := by
    intro p hp hd d hs'
    rcases hf.handles _ p hs' with hge | ⟨k', hk', hkk'⟩
    · exact absurd hge (Nat.not_le.mpr hp)
    · cases k' with
      | none => exact absurd (hkk' rfl) (by simp)
      | some d' => exact hd d' hk'
  refine ⟨hc, ?_, ?_⟩
  · intro p hp
    rw [hf.mapHostPtr] at hp
    obtain ⟨hlt, hd⟩ := h.mapHost p hp
    exact ⟨hlt.trans_le hf.next, hold p hlt hd⟩
  · intro sub m hm
    rw [hf.mappings] at hm
    obtain ⟨hlt, hd⟩ := h.mapped sub m hm
    exact ⟨hlt.trans_le hf.next, hold _ hlt hd⟩

/-! ## The elementary updates -/

theorem store_frame (s : BufferState) (h : ZeHandle) (w : Nat → Option Byte) :
    Frame s (s.store h w) :=
  ⟨rfl, rfl, rfl, fun sub => by cases sub <;> rfl, fun _ => rfl, Nat.le_refl _,
    fun k _ hk => .inr ⟨k, hk, id⟩⟩

/-- An update of the allocation table that brings no handle of its own. -/
theorem frame_of_allocations {s s' : BufferState}
    (h : s' = { s with allocations := s'.allocations, last := s'.last })
    (hh : ∀ k h, (s'.allocations k).zeHandle = some h →
      ∃ k', (s.allocations k').zeHandle = some h ∧ (k' = none → k = none)) : Frame s s' := by
  refine ⟨?_, ?_, ?_, ?_, ?_, ?_, fun k p hk => .inr (hh k p hk)⟩
  all_goals rw [h]
  · intro sub
    cases sub <;> rfl
  · intro i
    rfl

theorem setAllocation_at (s : BufferState) (k : Option Device) (a : Allocation) :
    (s.setAllocation k a).allocations k = a := update_self ..

theorem setAllocation_ne (s : BufferState) {k k' : Option Device} (a : Allocation) (h : k' ≠ k) :
    (s.setAllocation k a).allocations k' = s.allocations k' := update_of_ne h ..

theorem markValid_zeHandle (s : BufferState) (d : Device) (k : Option Device) :
    ((s.markValid d).allocations k).zeHandle = (s.allocations k).zeHandle := by
  by_cases hk : k = some d
  · rw [hk, show (s.markValid d).allocations (some d) = _ from setAllocation_at ..]
  · exact congrArg Allocation.zeHandle (setAllocation_ne s _ hk)

theorem markValid_valid (s : BufferState) (d : Device) {k : Option Device}
    (h : ((s.markValid d).allocations k).valid = true) :
    k = some d ∨ (s.allocations k).valid = true := by
  by_cases hk : k = some d
  · exact .inl hk
  · rw [show (s.markValid d).allocations k = s.allocations k from setAllocation_ne s _ hk] at h
    exact .inr h

theorem markValid_self (s : BufferState) (d : Device) :
    ((s.markValid d).allocations (some d)).valid = true :=
  congrArg Allocation.valid (setAllocation_at ..)

theorem markValid_frame (s : BufferState) (d : Device) : Frame s (s.markValid d) :=
  frame_of_allocations rfl fun k h hk => ⟨k, by rw [← markValid_zeHandle s d k]; exact hk, id⟩

/-- An allocation that holds the latest writes may be marked valid. -/
theorem markValid_core {s : BufferState} {latest : Latest} (hc : Core s latest) {d : Device}
    {h : ZeHandle} (hh : (s.allocations (some d)).zeHandle = some h)
    (hold : Holds s.cells latest (s.memory h)) : Core (s.markValid d) latest := by
  refine ⟨⟨?_, ?_⟩, hc.notFreed, hc.discrete, ?_, ?_⟩
  · intro d' hd'
    rw [← Option.some.inj (show some d = some d' from hd')]
    exact markValid_self s d
  · intro k hk
    rw [markValid_zeHandle]
    rcases markValid_valid s d hk with rfl | hk
    · exact ⟨h, hh, hold⟩
    · exact hc.holds k hk
  · intro hlast
    exact absurd (show some d = none from hlast) (by simp)
  · intro k p hk
    rw [markValid_zeHandle] at hk
    exact hc.handleLt k p hk

theorem invalidateOthers_zeHandle (s : BufferState) (k : Option Device) :
    (s.invalidateOthers.allocations k).zeHandle = (s.allocations k).zeHandle := by
  show (if k ≠ s.last then { s.allocations k with valid := false }
    else s.allocations k : Allocation).zeHandle = _
  split <;> rfl

/-- Only the allocation of the last device stays valid. -/
theorem invalidateOthers_valid {s : BufferState} {k : Option Device}
    (h : (s.invalidateOthers.allocations k).valid = true) :
    k = s.last ∧ (s.allocations k).valid = true := by
  unfold invalidateOthers at h
  dsimp only at h
  split at h
  · exact absurd h (by simp)
  · next hk => exact ⟨not_not.mp hk, h⟩

theorem invalidateOthers_last {s : BufferState} {d : Device} (h : s.last = some d) :
    s.invalidateOthers.allocations (some d) = s.allocations (some d) := by
  exact if_neg (fun hne => hne h.symm)

theorem invalidateOthers_frame (s : BufferState) : Frame s s.invalidateOthers :=
  frame_of_allocations rfl fun k h hk =>
    ⟨k, by rw [← invalidateOthers_zeHandle s k]; exact hk, id⟩

theorem invalidateOthers_core {s : BufferState} {latest : Latest} (hc : Core s latest) :
    Core s.invalidateOthers latest := by
  refine ⟨⟨?_, ?_⟩, hc.notFreed, hc.discrete, ?_, ?_⟩
  · intro d hd
    rw [invalidateOthers_last (s := s) hd]
    exact hc.lastValid d hd
  · intro k hk
    rw [invalidateOthers_zeHandle]
    exact hc.holds k (invalidateOthers_valid hk).2
  · intro hlast
    refine ⟨(hc.unwritten hlast).1, fun d => ?_⟩
    rw [Bool.eq_false_iff]
    intro hd
    exact absurd ((hc.unwritten hlast).2 d) (by rw [(invalidateOthers_valid hd).2]; simp)
  · intro k p hk
    rw [invalidateOthers_zeHandle] at hk
    exact hc.handleLt k p hk

/-- A store that leaves every valid allocation with the writes it should hold. -/
theorem store_core {s : BufferState} {latest latest' : Latest} (hc : Core s latest) {h : ZeHandle}
    {w : Nat → Option Byte}
    (hh : ∀ k h', (s.allocations k).valid = true → (s.allocations k).zeHandle = some h' →
      Holds s.cells latest' ((s.store h w).memory h'))
    (hun : s.last = none → ∀ i, latest' i = none) : Core (s.store h w) latest' := by
  refine ⟨⟨hc.lastValid, ?_⟩, hc.notFreed, hc.discrete,
    fun hl => ⟨hun hl, (hc.unwritten hl).2⟩, hc.handleLt⟩
  intro k hk
  obtain ⟨h', hh', -⟩ := hc.holds k hk
  exact ⟨h', hh', hh k h' hk hh'⟩

theorem store_memory_self (s : BufferState) (h : ZeHandle) (w : Nat → Option Byte) :
    (s.store h w).memory h = overlay w (s.memory h) := update_self ..

theorem store_memory_ne (s : BufferState) {h h' : ZeHandle} (w : Nat → Option Byte)
    (hne : h' ≠ h) : (s.store h w).memory h' = s.memory h' := update_of_ne hne ..

theorem copyAll_holds {s : BufferState} {latest : Latest} (dst src : ZeHandle)
    (h : Holds s.cells latest (s.memory src)) :
    Holds s.cells latest ((s.copyAll dst src).memory dst) := by
  refine h.mono fun i hi => ?_
  unfold copyAll
  rw [store_memory_self, overlay, if_pos (Set.mem_Iio.mp hi)]
  rfl

theorem copyAll_core {s : BufferState} {latest : Latest} (hc : Core s latest) (dst src : ZeHandle)
    (h : Holds s.cells latest (s.memory src)) : Core (s.copyAll dst src) latest := by
  refine store_core hc ?_ fun hl => (hc.unwritten hl).1
  intro k h' hk hh'
  by_cases hd : h' = dst
  · rw [hd]
    exact copyAll_holds dst src h
  · rw [store_memory_ne s _ hd]
    obtain ⟨h'', hh'', hold⟩ := hc.holds k hk
    rw [hh'] at hh''
    exact Option.some.inj hh'' ▸ hold

theorem setReleaseAction_core {s : BufferState} (k : Option Device) (a : ReleaseAction) :
    Frame s (s.setReleaseAction k a) ∧
      ∀ latest, Core s latest → Core (s.setReleaseAction k a) latest := by
  have hz : ∀ k', ((s.setReleaseAction k a).allocations k').zeHandle
      = (s.allocations k').zeHandle ∧
      ((s.setReleaseAction k a).allocations k').valid = (s.allocations k').valid := by
    intro k'
    by_cases hk : k' = k
    · rw [hk, setReleaseAction, setAllocation_at]
      exact ⟨rfl, rfl⟩
    · rw [setReleaseAction, setAllocation_ne s _ hk]
      exact ⟨rfl, rfl⟩
  refine ⟨frame_of_allocations rfl fun k' h hk => ⟨k', by rw [← (hz k').1]; exact hk, id⟩, ?_⟩
  intro latest hc
  refine ⟨⟨?_, ?_⟩, hc.notFreed, hc.discrete, ?_, ?_⟩
  · intro d hd
    rw [(hz _).2]
    exact hc.lastValid d hd
  · intro k' hk'
    rw [(hz _).2] at hk'
    rw [(hz _).1]
    exact hc.holds k' hk'
  · intro hl
    exact ⟨(hc.unwritten hl).1, fun d => by rw [(hz _).2]; exact (hc.unwritten hl).2 d⟩
  · intro k' p hk'
    rw [(hz _).1] at hk'
    exact hc.handleLt k' p hk'

theorem allocate_at (s : BufferState) (k : Option Device) (v : Bool) (a : ReleaseAction) :
    (s.allocate k v a).allocations k = ⟨some s.nextHandle, v, a⟩ := update_self ..

theorem allocate_ne (s : BufferState) {k k' : Option Device} (v : Bool) (a : ReleaseAction)
    (h : k' ≠ k) : (s.allocate k v a).allocations k' = s.allocations k' :=
  update_of_ne h ..

/-- A fresh allocation, not valid yet. -/
theorem allocate_core {s : BufferState} {latest : Latest} (hc : Core s latest) (k : Option Device)
    (a : ReleaseAction) (hk : (s.allocations k).zeHandle = none) :
    Core (s.allocate k false a) latest := by
  have hne : ∀ k', (s.allocations k').valid = true → k' ≠ k := by
    intro k' hk' he
    obtain ⟨h, hh, -⟩ := hc.holds k' hk'
    rw [he, hk] at hh
    exact absurd hh (by simp)
  have hval : ∀ k', ((s.allocate k false a).allocations k').valid = true →
      (s.allocate k false a).allocations k' = s.allocations k' := by
    intro k' hk'
    by_cases he : k' = k
    · rw [he, allocate_at] at hk'
      exact absurd hk' (by simp)
    · exact allocate_ne s _ _ he
  refine ⟨⟨?_, ?_⟩, hc.notFreed, hc.discrete, ?_, ?_⟩
  · intro d hd
    have hv := hc.lastValid d hd
    rw [allocate_ne s _ _ (hne _ hv)]
    exact hv
  · intro k' hk'
    have hold := hval k' hk'
    rw [hold] at hk' ⊢
    exact hc.holds k' hk'
  · intro hl
    refine ⟨(hc.unwritten hl).1, fun d => ?_⟩
    rw [Bool.eq_false_iff]
    intro hd
    have hd' := hd
    rw [hval _ hd, (hc.unwritten hl).2 d] at hd'
    exact absurd hd' (by simp)
  · intro k' p hp
    show p < s.nextHandle + 1
    by_cases he : k' = k
    · rw [he, allocate_at] at hp
      exact (Option.some.inj hp) ▸ Nat.lt_succ_self _
    · rw [allocate_ne s _ _ he] at hp
      exact (hc.handleLt k' p hp).trans (Nat.lt_succ_self _)

theorem allocate_frame (s : BufferState) (k : Option Device) (v : Bool) (a : ReleaseAction) :
    Frame s (s.allocate k v a) := by
  refine ⟨rfl, rfl, rfl, fun sub => by cases sub <;> rfl, fun _ => rfl, Nat.le_succ _, ?_⟩
  intro k' h hk'
  by_cases he : k' = k
  · rw [he, allocate_at] at hk'
    exact .inl (Option.some.inj hk').le
  · rw [allocate_ne s _ _ he] at hk'
    exact .inr ⟨k', hk', id⟩

/-! ## Copying the valid data -/

theorem Coherent.holds_of_valid {s : BufferState} {latest : Latest} (hc : Coherent s latest)
    {k : Option Device} {h : ZeHandle} (hv : (s.allocations k).valid = true)
    (hh : (s.allocations k).zeHandle = some h) : Holds s.cells latest (s.memory h) := by
  obtain ⟨h', hh', hold⟩ := hc.holds k hv
  rw [hh] at hh'
  exact Option.some.inj hh' ▸ hold

/-- The memory copies are made from. -/
def IsSource (s : BufferState) (src : ZeHandle) : Prop :=
  ∃ l, s.last = some l ∧ (s.allocations (some l)).zeHandle = some src

theorem IsSource.holds {s : BufferState} {src : ZeHandle} (h : IsSource s src) {latest : Latest}
    (hc : Core s latest) : Holds s.cells latest (s.memory src) := by
  obtain ⟨l, hl, hsrc⟩ := h
  exact hc.holds_of_valid (hc.lastValid l hl) hsrc

/-- A step that may fail and touches nothing a device has. -/
structure Spares (s : BufferState) {α : Type} (res : BufferState × Except Fault α) : Prop where
  frame : Frame s res.1
  last : res.1.last = s.last
  devices : ∀ d, res.1.allocations (some d) = s.allocations (some d)
  core : ∀ latest, Core s latest → Core res.1 latest
  fails : ∀ e, res.2 = .error e → e = .urResult

theorem Spares.error {α : Type} (s : BufferState) :
    Spares s ((s, .error .urResult) : BufferState × Except Fault α) :=
  ⟨Frame.refl s, rfl, fun _ => rfl, fun _ h => h, fun _ he => (Except.error.inj he).symm⟩

theorem Spares.ok {α : Type} (s : BufferState) (a : α) : Spares s (s, .ok a) :=
  ⟨Frame.refl s, rfl, fun _ => rfl, fun _ h => h, fun _ he => absurd he (by simp)⟩

theorem Spares.copyAll {s : BufferState} {dst src : ZeHandle}
    (hsrc : ∀ latest, Core s latest → Holds s.cells latest (s.memory src)) :
    Spares s (s.copyAll dst src, .ok ()) :=
  ⟨store_frame .., rfl, fun _ => rfl, fun latest hc => copyAll_core hc dst src (hsrc latest hc),
    fun _ he => absurd he (by simp)⟩

theorem Spares.trans {α β : Type} {s : BufferState} {a : BufferState × Except Fault α}
    {b : BufferState × Except Fault β} (hab : Spares s a) (hb : Spares a.1 b) : Spares s b :=
  ⟨hab.frame.trans hb.frame, hb.last.trans hab.last,
    fun d => (hb.devices d).trans (hab.devices d),
    fun latest h => hb.core latest (hab.core latest h), hb.fails⟩

theorem Spares.isSource {α : Type} {s : BufferState} {res : BufferState × Except Fault α}
    (h : Spares s res) {src : ZeHandle} (hs : IsSource s src) : IsSource res.1 src := by
  obtain ⟨l, hl, hsrc⟩ := hs
  exact ⟨l, h.last.trans hl, by rw [h.devices]; exact hsrc⟩

theorem hostAllocation_spec (ctx : Context) (drv : Driver) (s : BufferState) :
    Spares s (hostAllocation ctx drv s) ∧ ∀ host, (hostAllocation ctx drv s).2 = .ok host →
      ((hostAllocation ctx drv s).1.allocations none).zeHandle = some host := by
  unfold hostAllocation
  split
  · next host hhost =>
    exact ⟨.ok s host, fun h hh => by rw [hhost, Except.ok.inj hh]⟩
  · next hnone =>
    split
    · obtain ⟨hf, hc⟩ := setReleaseAction_core (s := s) none ctx.releaseAction
      exact ⟨⟨hf, rfl, fun d => setAllocation_ne s _ (by simp), hc,
        fun e he => (Except.error.inj he).symm⟩, fun h hh => absurd hh (by simp)⟩
    · refine ⟨⟨allocate_frame .., rfl, fun d => allocate_ne s _ _ (by simp),
        fun _ h => allocate_core h none _ hnone, fun e he => absurd he (by simp)⟩, fun h hh => ?_⟩
      rw [allocate_at, ← Except.ok.inj hh]

theorem setHostValid_core {s : BufferState} {latest : Latest} (hc : Core s latest) {host : ZeHandle}
    (hh : (s.allocations none).zeHandle = some host)
    (hold : Holds s.cells latest (s.memory host)) :
    Core (s.setAllocation none { s.allocations none with valid := true }) latest := by
  refine ⟨⟨?_, ?_⟩, hc.notFreed, hc.discrete, ?_, ?_⟩
  · intro d hl
    exact hc.lastValid d hl
  · intro k hk
    cases k with
    | none =>
      exact ⟨host, hh, hold⟩
    | some d =>
      exact hc.holds _ hk
  · intro hl
    exact ⟨(hc.unwritten hl).1, fun d => (hc.unwritten hl).2 d⟩
  · intro k p hk
    cases k with
    | none =>
      exact hc.handleLt none p hk
    | some d =>
      exact hc.handleLt _ p hk

theorem setHostValid_frame (s : BufferState) :
    Frame s (s.setAllocation none { s.allocations none with valid := true }) := by
  refine frame_of_allocations rfl fun k h hk => ?_
  cases k with
  | none =>
    exact ⟨none, hk, id⟩
  | some d =>
    exact ⟨some d, hk, id⟩

/-- After the fill the host allocation is valid. -/
theorem fillHost_spec (drv : Driver) {s : BufferState} {src host : ZeHandle}
    (hh : (s.allocations none).zeHandle = some host) (hsrc : IsSource s src) :
    Spares s (fillHost drv s src host) ∧ ((fillHost drv s src host).2 = .ok () →
      ((fillHost drv s src host).1.allocations none).valid = true ∧
      ((fillHost drv s src host).1.allocations none).zeHandle = some host) := by
  unfold fillHost
  split
  · next hv => exact ⟨.ok s (), fun _ => ⟨hv, hh⟩⟩
  · split
    · exact ⟨.error s, fun he => absurd he (by simp)⟩
    · refine ⟨⟨(store_frame ..).trans (setHostValid_frame (s.copyAll host src)), rfl,
        fun d => setAllocation_ne _ _ (by simp), ?_, fun e he => absurd he (by simp)⟩, ?_⟩
      · intro latest hc
        exact setHostValid_core (copyAll_core hc host src (hsrc.holds hc)) hh
          (copyAll_holds host src (hsrc.holds hc))
      · intro _
        show (((s.copyAll host src).setAllocation none _).allocations none).valid = true ∧ _
        exact ⟨rfl, hh⟩

/-- A copy that succeeds leaves the latest writes in `dst`. -/
structure Copied (s : BufferState) (dst : ZeHandle)
    (res : BufferState × Except Fault Unit) : Prop extends Spares s res where
  holds : ∀ latest, Core s latest → res.2 = .ok () → Holds s.cells latest (res.1.memory dst)

theorem Copied.error (s : BufferState) (dst : ZeHandle) : Copied s dst (s, .error .urResult) :=
  ⟨Spares.error s, fun _ _ he => absurd he (by simp)⟩

theorem Copied.copyAll {s : BufferState} {dst src : ZeHandle}
    (hsrc : ∀ latest, Core s latest → Holds s.cells latest (s.memory src)) :
    Copied s dst (s.copyAll dst src, .ok ()) :=
  ⟨Spares.copyAll hsrc, fun latest hc _ => copyAll_holds dst src (hsrc latest hc)⟩

theorem Copied.after {α : Type} {s : BufferState} {a : BufferState × Except Fault α}
    {dst : ZeHandle} {b : BufferState × Except Fault Unit} (hab : Spares s a)
    (hb : Copied a.1 dst b) : Copied s dst b := by
  refine ⟨hab.trans hb.toSpares, fun latest hc he => ?_⟩
  have hcells : s.cells = a.1.cells := by rw [cells, cells, hab.frame.size]
  rw [hcells]
  exact hb.holds latest (hab.core latest hc) he

/-- Copying through the host leaves in `dst` what a direct copy would. -/
theorem copyThroughHost_copied (ctx : Context) (drv : Driver) {s : BufferState}
    {src dst : ZeHandle} (hsrc : IsSource s src) :
    Copied s dst (copyThroughHost ctx drv s src dst) := by
  obtain ⟨hsp, hok⟩ := hostAllocation_spec ctx drv s
  unfold copyThroughHost
  split
  · next s₁ e heq =>
    rw [heq] at hsp
    rw [hsp.fails e rfl]
    exact Copied.after hsp (.error s₁ dst)
  · next s₁ host heq =>
    rw [heq] at hsp hok
    obtain ⟨hfill, hvalid⟩ := fillHost_spec drv (hok host rfl) (hsp.isSource hsrc)
    refine Copied.after hsp ?_
    split
    · next s₂ e heq₂ =>
      rw [heq₂] at hfill
      rw [hfill.fails e rfl]
      exact Copied.after hfill (.error s₂ dst)
    · next s₂ heq₂ =>
      rw [heq₂] at hfill hvalid
      refine Copied.after hfill ?_
      split
      · exact .error s₂ dst
      · obtain ⟨hv, hh⟩ := hvalid rfl
        exact .copyAll fun latest hc => hc.holds_of_valid hv hh

theorem copyValidData_copied (ctx : Context) (drv : Driver) {s : BufferState} (device : Device)
    {src : ZeHandle} (dst : ZeHandle) (hsrc : IsSource s src) :
    Copied s dst (copyValidData ctx drv s device src dst) := by
  unfold copyValidData
  split
  · exact .error s dst
  split
  · exact .error s dst
  split
  · split
    · exact .error s dst
    · exact .copyAll fun latest hc => hsrc.holds hc
  · exact copyThroughHost_copied ctx drv hsrc

/-! ## One access -/

/-- The device whose allocation serves an access of `device`. -/
def target (ctx : Context) (s : BufferState) (device : Device) : Device :=
  if (s.allocations (some device)).zeHandle = none then (ctx.sharedRoot device).getD device
  else device

/-- An access that is not read-only finds its allocation invalid, or the same
memory as the one the invalidation spares. -/
def KeepsLatest (s : BufferState) (mode : AccessMode) (t : Device) : Prop :=
  mode ≠ .readOnly → (s.allocations (some t)).valid = true →
    ∀ l, s.last = some l → (s.allocations (some l)).zeHandle = (s.allocations (some t)).zeHandle

/-- A write-only access finds its allocation valid (or in the memory of one that
is), or nothing was ever written. -/
def KeepsContents (s : BufferState) (mode : AccessMode) (t : Device) : Prop :=
  mode = .writeOnly → (s.allocations (some t)).valid = true ∨ s.last = none ∨
    ∃ h, IsSource s h ∧ (s.allocations (some t)).zeHandle = some h

/-- Nothing is lost when the access does not fill its allocation. -/
def Keeps (s : BufferState) (latest : Latest) (mode : AccessMode) (t : Device) : Prop :=
  KeepsContents s mode t ∨ ∀ i, latest i = none

/-- Every valid allocation is in this memory. -/
def Exclusive (s : BufferState) (h : ZeHandle) : Prop :=
  ∀ k, (s.allocations k).valid = true → (s.allocations k).zeHandle = some h

/-- The state a command works in once it has its handle. -/
structure Granted (latest : Latest) (mode : AccessMode) (device : Device) (s : BufferState)
    (h : ZeHandle) : Prop where
  core : Core s latest
  holds : Holds s.cells latest (s.memory h)
  handle : (s.allocations (some device)).zeHandle = some h
  used : s.last ≠ none
  exclusive : mode ≠ .readOnly → Exclusive s h

/-- The outcome of an access. -/
structure Accessed (latest : Latest) (s : BufferState) (mode : AccessMode) (device : Device)
    (res : BufferState × Except Fault ZeHandle) : Prop where
  frame : Frame s res.1
  fails : ∀ e, res.2 = .error e → e = .urResult ∧ ∀ l, Core s l → Core res.1 l
  granted : ∀ h, res.2 = .ok h → Granted latest mode device res.1 h
  same : ∀ h h', (s.allocations (some device)).zeHandle = some h → res.2 = .ok h' → h' = h
  stays : ∀ h, (s.allocations (some device)).zeHandle = some h → Exclusive s h →
    Exclusive res.1 h

section Access

variable (ctx : Context) (drv : Driver) {s : BufferState} {latest : Latest}

theorem Core.exists_source (hc : Core s latest) (hl : s.last ≠ none) : ∃ src, IsSource s src := by
  obtain ⟨l, hl⟩ := Option.ne_none_iff_exists'.mp hl
  obtain ⟨h, hh, -⟩ := hc.holds _ (hc.lastValid l hl)
  exact ⟨h, l, hl, hh⟩

/-- The call for the source of a copy returns it and changes nothing. -/
theorem getZeHandleDepth_source (hc : Core s latest) {src : ZeHandle} (h : IsSource s src)
    (n : Nat) : getZeHandleDepth ctx drv (n + 1) s .readOnly s.last = (s, .ok src) := by
  obtain ⟨l, hl, hsrc⟩ := h
  have hdev : selectDevice ctx s.last s.last = l := by rw [hl]; rfl
  have hv := hc.lastValid l hl
  unfold getZeHandleDepth getZeHandleBody
  simp only [hdev, hc.notFreed, hc.discrete, hsrc, Bool.false_eq_true, if_false]
  unfold accessAllocation makeValid
  rw [if_pos hv]
  rfl

/-- The allocation is valid afterwards, and it is the last used one unless it
was valid before. -/
structure MadeValid (latest : Latest) (s : BufferState) (device : Device) (h : ZeHandle)
    (res : BufferState × Except Fault Unit) : Prop where
  frame : Frame s res.1
  handles : ∀ d, (res.1.allocations (some d)).zeHandle = (s.allocations (some d)).zeHandle
  fails : ∀ e, res.2 = .error e → e = .urResult ∧ ∀ l, Core s l → Core res.1 l
  core : res.2 = .ok () → Core res.1 latest
  valid : res.2 = .ok () → (res.1.allocations (some device)).valid = true
  last : res.2 = .ok () → res.1.last = some device ∨
    res.1 = s ∧ (s.allocations (some device)).valid = true
  stays : Exclusive s h → Exclusive res.1 h

variable {mode : AccessMode} {device : Device}

theorem MadeValid.markValid {a : BufferState} {h : ZeHandle} (hf : Frame s a)
    (hd : ∀ d, (a.allocations (some d)).zeHandle = (s.allocations (some d)).zeHandle)
    (hc : Core a latest) (hh : (a.allocations (some device)).zeHandle = some h)
    (hold : Holds a.cells latest (a.memory h)) (hex : Exclusive s h → Exclusive a h) :
    MadeValid latest s device h (a.markValid device, .ok ()) := by
  refine ⟨hf.trans (markValid_frame ..), fun d => (markValid_zeHandle ..).trans (hd d),
    fun _ he => absurd he (by simp), fun _ => markValid_core hc hh hold,
    fun _ => markValid_self .., fun _ => .inl rfl, fun hs k hk => ?_⟩
  rw [markValid_zeHandle]
  rcases markValid_valid a device hk with rfl | hk
  · exact hh
  · exact hex hs k hk

theorem makeValid_spec (hc : Core s latest) {h : ZeHandle}
    (hh : (s.allocations (some device)).zeHandle = some h) (hkeep : Keeps s latest mode device)
    (n : Nat) :
    MadeValid latest s device h
      (makeValid ctx drv (getZeHandleDepth ctx drv (n + 1)) s mode device h) := by
  unfold makeValid
  split
  · next hv =>
    exact ⟨Frame.refl s, fun _ => rfl, fun _ he => absurd he (by simp), fun _ => hc, fun _ => hv,
      fun _ => .inr ⟨rfl, hv⟩, id⟩
  split
  · next hv hlast =>
    -- the last used device always has a valid allocation
    exact absurd (hc.lastValid device hlast) hv
  split
  · next hv _ hmode =>
    refine .markValid (Frame.refl s) (fun _ => rfl) hc hh ?_ id
    have hun : (∀ i, latest i = none) → Holds s.cells latest (s.memory h) := by
      intro hl
      rw [show latest = fun _ => none from funext hl]
      exact holds_unwritten
    rcases hmode with hmode | hl
    · rcases hkeep with hkeep | hl
      · rcases hkeep hmode with hv' | hl | ⟨h', hsrc, hh'⟩
        · exact absurd hv' hv
        · exact hun (hc.unwritten hl).1
        · rw [hh] at hh'
          exact Option.some.inj hh' ▸ hsrc.holds hc
      · exact hun hl
    · exact hun (hc.unwritten hl).1
  · next hmode =>
    obtain ⟨src, hsrc⟩ := hc.exists_source (fun hl => hmode (.inr hl))
    rw [getZeHandleDepth_source ctx drv hc hsrc]
    dsimp only
    split
    · next hsame =>
      exact .markValid (Frame.refl s) (fun _ => rfl) hc hh (hsame ▸ hsrc.holds hc) id
    · next hne =>
      -- a copy is made only from other memory
      have hex : ¬ Exclusive s h := by
        intro hs
        obtain ⟨l, hl, hsrc⟩ := hsrc
        rw [hs _ (hc.lastValid l hl)] at hsrc
        exact hne (Option.some.inj hsrc).symm
      have hcopy := copyValidData_copied ctx drv device h hsrc
      split
      · next s₁ e heq =>
        rw [heq] at hcopy
        exact ⟨hcopy.frame, fun d => by rw [hcopy.devices d],
          fun e' he' => ⟨Except.error.inj he' ▸ hcopy.fails e rfl, hcopy.core⟩,
          fun he => absurd he (by simp), fun he => absurd he (by simp),
          fun he => absurd he (by simp), fun hs => absurd hs hex⟩
      · next s₁ heq =>
        rw [heq] at hcopy
        have hcells : s₁.cells = s.cells := by rw [cells, hcopy.frame.size]
        have hh₁ : (s₁.allocations (some device)).zeHandle = some h := by
          rw [hcopy.devices]
          exact hh
        refine .markValid hcopy.frame (fun d => by rw [hcopy.devices d]) (hcopy.core _ hc) hh₁ ?_
          fun hs => absurd hs hex
        rw [hcells]
        exact hcopy.holds latest hc rfl

theorem accessAllocation_spec (hc : Core s latest)
    {h : ZeHandle} (hh : (s.allocations (some device)).zeHandle = some h)
    (hlatest : KeepsLatest s mode device) (hkeep : Keeps s latest mode device) (n : Nat) :
    Accessed latest s mode device
      (accessAllocation ctx drv (getZeHandleDepth ctx drv (n + 1)) s mode device h) := by
  -- first the copy that makes the allocation valid, then what the mode does to the others
  have hmade := makeValid_spec ctx drv hc hh hkeep n
  unfold accessAllocation
  split
  · next s₁ e heq =>
    rw [heq] at hmade
    exact ⟨hmade.frame, fun e' he' => by rw [← Except.error.inj he']; exact hmade.fails e rfl,
      fun _ he => absurd he (by simp), fun _ _ _ he => absurd he (by simp),
      fun p hp hs => Option.some.inj (hh.symm.trans hp) ▸ hmade.stays
        (Option.some.inj (hp.symm.trans hh) ▸ hs)⟩
  · next s₁ heq =>
    rw [heq] at hmade
    have hc₁ := hmade.core rfl
    have hh₁ : (s₁.allocations (some device)).zeHandle = some h := (hmade.handles device).trans hh
    have hold := hc₁.holds_of_valid (hmade.valid rfl) hh₁
    have hsame : ∀ p p', (s.allocations (some device)).zeHandle = some p →
        (Except.ok h : Except Fault ZeHandle) = .ok p' → p' = p := by
      intro p p' hp hp'
      rw [hh] at hp
      rw [← Option.some.inj hp, Except.ok.inj hp']
    have hstays : ∀ p, (s.allocations (some device)).zeHandle = some p → Exclusive s p →
        Exclusive s₁ p := by
      intro p hp hs
      rw [hh] at hp
      rw [← Option.some.inj hp] at hs ⊢
      exact hmade.stays hs
    have hused : s₁.last ≠ none := by
      intro hl
      exact absurd (hmade.valid rfl) (by rw [(hc₁.unwritten hl).2 device]; simp)
    split
    · next hmode =>
      refine ⟨hmade.frame.trans (invalidateOthers_frame s₁), fun _ he => absurd he (by simp), ?_,
        hsame, fun p hp hs k hk => ?_⟩
      swap
      · rw [invalidateOthers_zeHandle]
        exact hstays p hp hs k (invalidateOthers_valid hk).2
      intro h' hh'
      rw [← Except.ok.inj hh']
      refine ⟨invalidateOthers_core hc₁, hold, ?_, hused, fun _ => ?_⟩
      · rw [invalidateOthers_zeHandle]
        exact hh₁
      · -- what the invalidation spares is the memory of this access
        intro k hk
        rw [invalidateOthers_zeHandle, (invalidateOthers_valid hk).1]
        rcases hmade.last rfl with hl | ⟨rfl, hv⟩
        · rw [hl]
          exact hh₁
        · obtain ⟨l, hl⟩ := Option.ne_none_iff_exists'.mp hused
          rw [hl, hlatest hmode hv l hl]
          exact hh
    · next hmode =>
      refine ⟨hmade.frame, fun _ he => absurd he (by simp), fun h' hh' => ?_, hsame,
        hstays⟩
      rw [← Except.ok.inj hh']
      exact ⟨hc₁, hold, hh₁, hused, fun hne => absurd hne hmode⟩

/-- An access served by the device's own allocation. -/
theorem getZeHandleBody_direct (hc : Core s latest) (device? : Option Device)
    (hdev : selectDevice ctx s.last device? = device)
    (hroot : (s.allocations (some device)).zeHandle = none → ctx.sharedRoot device = none)
    (hlatest : KeepsLatest s mode device) (hkeep : Keeps s latest mode device) (n : Nat) :
    Accessed latest s mode device
      (getZeHandleBody ctx drv (getZeHandleDepth ctx drv (n + 1)) s mode device?) := by
  unfold getZeHandleBody
  simp only [hdev, hc.notFreed, hc.discrete, Bool.false_eq_true, if_false]
  split
  · next h hh => exact accessAllocation_spec ctx drv hc hh hlatest hkeep n
  · next hnone =>
    have hv : (s.allocations (some device)).valid = false := by
      rw [Bool.eq_false_iff]
      intro hv
      obtain ⟨h, hh, -⟩ := hc.holds _ hv
      exact absurd hh (by rw [hnone]; simp)
    rw [hroot hnone]
    dsimp only
    split
    · obtain ⟨hf, hc'⟩ := setReleaseAction_core (s := s) (some device) ctx.releaseAction
      exact ⟨hf, fun e he => ⟨(Except.error.inj he).symm, hc'⟩, fun _ he => absurd he (by simp),
        fun _ _ _ he => absurd he (by simp), fun _ hp => absurd hp (by rw [hnone]; simp)⟩
    · rw [hv]
      have hat := allocate_at s (some device) false ctx.releaseAction
      have hlatest' : KeepsLatest (s.allocate (some device) false ctx.releaseAction) mode device :=
        fun _ hv' => absurd hv' (by rw [hat]; simp)
      have hkeep' : Keeps (s.allocate (some device) false ctx.releaseAction) latest mode device := by
        refine hkeep.imp_left fun hkeep hmode => ?_
        rcases hkeep hmode with hv' | hl | ⟨h', -, hh'⟩
        · exact absurd hv' (by rw [hv]; simp)
        · exact .inr (.inl hl)
        · exact absurd hh' (by rw [hnone]; simp)
      have hacc := accessAllocation_spec ctx drv
        (allocate_core hc (some device) ctx.releaseAction hnone) (congrArg Allocation.zeHandle hat)
        hlatest' hkeep' n
      exact ⟨(allocate_frame ..).trans hacc.frame, fun e he => ⟨(hacc.fails e he).1,
        fun l hl => (hacc.fails e he).2 l (allocate_core hl _ _ hnone)⟩, hacc.granted,
        fun _ _ hp => absurd hp (by rw [hnone]; simp),
        fun _ hp => absurd hp (by rw [hnone]; simp)⟩

/-- The device shares the memory of its root from now on. -/
theorem share_spec {root : Device} (device : Device) {h : ZeHandle}
    (hg : Granted latest mode root s h) :
    Frame s (s.setAllocation (some device) ⟨some h, true, .keep⟩) ∧
      Granted latest mode device (s.setAllocation (some device) ⟨some h, true, .keep⟩) h := by
  have hc := hg.core
  refine ⟨frame_of_allocations rfl fun k p hk => ?_, ⟨⟨⟨?_, ?_⟩, hc.notFreed, hc.discrete, ?_, ?_⟩,
    hg.holds, congrArg _ (setAllocation_at ..), hg.used, ?_⟩⟩
  · by_cases he : k = some device
    · rw [he, setAllocation_at] at hk
      exact ⟨some root, hg.handle.trans hk, fun hn => absurd hn (by simp)⟩
    · rw [setAllocation_ne s _ he] at hk
      exact ⟨k, hk, id⟩
  · intro d hd
    by_cases he : some d = some device
    · rw [he, setAllocation_at]
    · rw [setAllocation_ne s _ he]
      exact hc.lastValid d hd
  · intro k hk
    by_cases he : k = some device
    · rw [he, setAllocation_at]
      exact ⟨h, rfl, hg.holds⟩
    · rw [setAllocation_ne s _ he] at hk ⊢
      exact hc.holds k hk
  · intro hl
    exact absurd hl hg.used
  · intro k p hk
    by_cases he : k = some device
    · rw [he, setAllocation_at] at hk
      exact hc.handleLt _ p (hg.handle.trans hk)
    · rw [setAllocation_ne s _ he] at hk
      exact hc.handleLt k p hk
  · intro hmode k hk
    by_cases he : k = some device
    · rw [he, setAllocation_at]
    · rw [setAllocation_ne s _ he] at hk ⊢
      exact hg.exclusive hmode k hk

theorem sharedRoot_root {device root : Device} (h : ctx.sharedRoot device = some root) :
    ctx.sharedRoot root = none := by
  unfold Context.sharedRoot at h ⊢
  split at h
  · exact absurd h (by simp)
  · next hm =>
    rw [(Option.filter_eq_some_iff.mp h).1]
    simp

/-- **One access.** Under the two conditions every outcome of `getZeHandle` is a
driver error that changes nothing of the contents, or a handle whose memory
holds the latest writes. -/
theorem getZeHandle_spec (hc : Core s latest) (device? : Option Device)
    (hdev : selectDevice ctx s.last device? = device)
    (hlatest : KeepsLatest s mode (target ctx s device))
    (hkeep : Keeps s latest mode (target ctx s device)) :
    Accessed latest s mode device (getZeHandle ctx drv s mode device?) := by
  unfold getZeHandle getZeHandleDepth
  by_cases hroot : (s.allocations (some device)).zeHandle = none → ctx.sharedRoot device = none
  · have ht : target ctx s device = device := by
      unfold target
      split
      · next hnone => rw [hroot hnone]; rfl
      · rfl
    rw [ht] at hlatest hkeep
    exact getZeHandleBody_direct ctx drv hc device? hdev hroot hlatest hkeep 1
  · obtain ⟨hnone, hsome⟩ := Classical.not_imp.mp hroot
    obtain ⟨root, hr⟩ := Option.ne_none_iff_exists'.mp hsome
    have ht : target ctx s device = root := by
      unfold target
      rw [if_pos hnone, hr]
      rfl
    rw [ht] at hlatest hkeep
    have hacc : Accessed latest s mode root (getZeHandleDepth ctx drv 2 s mode (some root)) :=
      getZeHandleBody_direct ctx drv hc (some root) rfl (fun _ => sharedRoot_root ctx hr) hlatest
        hkeep 0
    unfold getZeHandleBody
    simp only [hdev, hc.notFreed, hc.discrete, hnone, hr, Bool.false_eq_true, if_false]
    split
    · next s₁ e heq =>
      rw [heq] at hacc
      exact ⟨hacc.frame, fun e' he' => by rw [← Except.error.inj he']; exact hacc.fails e rfl,
        fun _ he => absurd he (by simp), fun _ _ _ he => absurd he (by simp),
        fun _ hp => absurd hp (by rw [hnone]; simp)⟩
    · next s₁ h heq =>
      rw [heq] at hacc
      obtain ⟨hf, hg⟩ := share_spec device (hacc.granted h rfl)
      exact ⟨hacc.frame.trans hf, fun _ he => absurd he (by simp),
        fun h' hh' => Except.ok.inj hh' ▸ hg, fun _ _ hp => absurd hp (by rw [hnone]; simp),
        fun _ hp => absurd hp (by rw [hnone]; simp)⟩

/-- An access through a sub-buffer is an access of the buffer. -/
theorem getBufferZeHandle_spec (hc : Core s latest) (sub : Option Nat)
    (hlatest : KeepsLatest s mode (target ctx s device))
    (hkeep : Keeps s latest mode (target ctx s device)) :
    Accessed latest s mode device ((getBufferZeHandle ctx drv s sub mode (some device)).1,
      (getBufferZeHandle ctx drv s sub mode (some device)).2.map Prod.fst) := by
  have hacc := getZeHandle_spec ctx drv hc (some device) rfl hlatest hkeep
  unfold getBufferZeHandle
  cases sub with
  | none =>
    dsimp only
    split
    · next s₁ e heq => rw [heq] at hacc; exact hacc
    · next s₁ h heq => rw [heq] at hacc; exact hacc
  | some i =>
    dsimp only [selectDevice, Option.or, Option.getD]
    split
    · next s₁ e heq => rw [heq] at hacc; exact hacc
    · next s₁ h heq =>
      rw [heq] at hacc
      obtain ⟨hf, -, hg, hsame, hstays⟩ := hacc
      have hg := hg h rfl
      have hsubs : ∀ j, ((update s₁.subs i ((s₁.subs i).record device
          (h, (s₁.subs i).origin))) j).mappings = (s₁.subs j).mappings ∧
          ((update s₁.subs i ((s₁.subs i).record device
          (h, (s₁.subs i).origin))) j).origin = (s₁.subs j).origin := by
        intro j
        by_cases hj : j = i
        · rw [hj, update_self]
          exact ⟨rfl, rfl⟩
        · rw [update_of_ne hj]
          exact ⟨rfl, rfl⟩
      refine ⟨⟨hf.size, hf.onHost, hf.mapHostPtr, fun k => ?_, fun j => ?_, hf.next, hf.handles⟩,
        fun _ he => absurd he (by simp [Except.map]), fun h' hh' => ?_, hsame, hstays⟩
      · rw [← hf.mappings k]
        cases k with
        | none => rfl
        | some j => exact (hsubs j).1
      · exact (hsubs j).2.trans (hf.origin j)
      · rw [← Except.ok.inj hh']
        exact ⟨⟨⟨hg.core.lastValid, hg.core.holds⟩, hg.core.notFreed, hg.core.discrete,
          hg.core.unwritten, hg.core.handleLt⟩, hg.holds, hg.handle, hg.used, hg.exclusive⟩

/-- The pointer is offset by the sub-buffer's origin. -/
theorem getBufferZeHandle_origin (hc : Core s latest) {sub : Option Nat}
    (hlatest : KeepsLatest s mode (target ctx s device))
    (hkeep : Keeps s latest mode (target ctx s device)) {s₁ : BufferState} {p : Ptr}
    (h : getBufferZeHandle ctx drv s sub mode (some device) = (s₁, .ok p)) :
    p.2 = s.originOf sub := by
  have hf := (getZeHandle_spec ctx drv hc (some device) rfl hlatest hkeep).frame
  unfold getBufferZeHandle at h
  cases sub with
  | none =>
    dsimp only at h
    split at h
    · exact absurd (Prod.mk.inj h).2 (by simp)
    · rw [← Except.ok.inj (Prod.mk.inj h).2]
      rfl
  | some i =>
    dsimp only [selectDevice, Option.or, Option.getD] at h
    split at h
    · exact absurd (Prod.mk.inj h).2 (by simp)
    · next s₂ h₂ heq =>
      rw [heq] at hf
      rw [← Except.ok.inj (Prod.mk.inj h).2]
      exact hf.origin i

end Access

end UnifiedRuntime.LevelZero
