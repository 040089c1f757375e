import UnifiedRuntime.LevelZero.BufferRelease
import UnifiedRuntime.LevelZero.BufferRuns

/-!
# Buffers that stand for a native pointer

`urMemBufferCreateWithNativeHandle` of host or shared memory makes the caller's
pointer the host allocation of the buffer and, unless the buffer can stay there,
copies its contents to an allocation of a device. `DeviceMappedHostNativePtr`
remembers the pointer for the release.

Whatever commands follow, the pointer stays the host allocation, with the release
action it was given, and no device has it. So a release frees it only if it is
owned. What it holds in the end is another matter: the contents of the pool
allocation that the loop comes to last, current or not, and without the pool what
the commands happen to have left there.

Main results: `interopReached_native` (the invariant), `interop_writtenBack_iff`.
-/

namespace UnifiedRuntime.LevelZero

open BufferState

/-! ## The native pointer during a run -/

/-- The native memory is handle `0`. -/
structure NativeKept (ctx : Context) (own : Bool) (s : BufferState) : Prop where
  handle : (s.allocations none).zeHandle = some 0
  action : (s.allocations none).releaseAction = if own then .freeNative else .keep
  apart : ∀ d, (s.allocations (some d)).zeHandle ≠ some 0
  next : 0 < s.nextHandle
  discrete : s.onHost = false
  /-- Without the pool no allocation is released to it. -/
  unpooled : ctx.enableBuffers = false → ∀ d, (s.allocations (some d)).zeHandle ≠ none →
    (s.allocations (some d)).releaseAction ≠ .free

/-- The outcome of a call: the pointer is kept, and is not what a device gets. -/
structure KeepsNative (ctx : Context) (own : Bool) (res : BufferState × Except Fault ZeHandle) : Prop where
  kept : NativeKept ctx own res.1
  device : ∀ h, res.2 = .ok h → h ≠ 0

section Access

variable {ctx : Context} {drv : Driver} {own : Bool} {s : BufferState}

variable (h : NativeKept ctx own s)

include h

/-- Only the allocations, the next handle and the kind of context matter. -/
theorem NativeKept.congr {s' : BufferState}
    (ha : s'.allocations = s.allocations) (hn : s.nextHandle ≤ s'.nextHandle)
    (ho : s'.onHost = s.onHost) : NativeKept ctx own s' := by
  refine ⟨?_, ?_, ?_, h.next.trans_le hn, ho.trans h.discrete, ?_⟩
  · rw [ha]
    exact h.handle
  · rw [ha]
    exact h.action
  · rw [ha]
    exact h.apart
  · rw [ha]
    exact h.unpooled

theorem NativeKept.store (p : ZeHandle) (w : Nat → Option Byte) :
    NativeKept ctx own (s.store p w) :=
  h.congr rfl le_rfl rfl

/-- An allocation of a device changes. -/
theorem NativeKept.setDevice (d : Device) {a : Allocation}
    (ha : a.zeHandle ≠ some 0)
    (hfree : ctx.enableBuffers = false → a.zeHandle ≠ none → a.releaseAction ≠ .free) :
    NativeKept ctx own (s.setAllocation (some d) a) := by
  have hdevice : ∀ d', (d' = d ∧ (s.setAllocation (some d) a).allocations (some d') = a) ∨
      (s.setAllocation (some d) a).allocations (some d') = s.allocations (some d') := by
    intro d'
    by_cases hd : d' = d
    · refine .inl ⟨hd, ?_⟩
      rw [hd, setAllocation_at]
    · exact .inr (setAllocation_ne s a (fun he => hd (Option.some.inj he)))
  refine ⟨?_, ?_, ?_, h.next, h.discrete, ?_⟩
  · exact h.handle
  · exact h.action
  · intro d'
    rcases hdevice d' with ⟨-, he⟩ | he
    · rw [he]
      exact ha
    · rw [he]
      exact h.apart d'
  · intro hpool d'
    rcases hdevice d' with ⟨-, he⟩ | he
    · rw [he]
      exact hfree hpool
    · rw [he]
      exact h.unpooled hpool d'

/-- The data of the host allocation becomes valid. -/
theorem NativeKept.setHostValid (v : Bool) :
    NativeKept ctx own (s.setAllocation none { s.allocations none with valid := v }) := by
  refine ⟨?_, ?_, ?_, h.next, h.discrete, ?_⟩
  · exact h.handle
  · exact h.action
  · intro d
    exact h.apart d
  · intro hpool d
    exact h.unpooled hpool d

theorem NativeKept.markValid (d : Device) :
    NativeKept ctx own (s.markValid d) :=
  (h.setDevice d (a := { s.allocations (some d) with valid := true }) (h.apart d)
    fun hpool => h.unpooled hpool d).congr rfl le_rfl rfl

theorem NativeKept.invalidateOthers :
    NativeKept ctx own s.invalidateOthers := by
  have hfields : ∀ k, (s.invalidateOthers.allocations k).zeHandle = (s.allocations k).zeHandle ∧
      (s.invalidateOthers.allocations k).releaseAction = (s.allocations k).releaseAction := by
    intro k
    unfold BufferState.invalidateOthers
    dsimp only
    split
    next => exact ⟨rfl, rfl⟩
    next => exact ⟨rfl, rfl⟩
  refine ⟨?_, ?_, ?_, h.next, h.discrete, ?_⟩
  · rw [(hfields none).1]
    exact h.handle
  · rw [(hfields none).2]
    exact h.action
  · intro d
    rw [(hfields (some d)).1]
    exact h.apart d
  · intro hpool d
    rw [(hfields (some d)).1, (hfields (some d)).2]
    exact h.unpooled hpool d

omit h in
/-- `free_native` is what is done without the pool. -/
theorem releaseAction_unpooled (hpool : ctx.enableBuffers = false) : ctx.releaseAction ≠ .free := by
  unfold Context.releaseAction
  rw [hpool, if_neg Bool.false_ne_true]
  exact nofun

theorem NativeKept.setReleaseAction (d : Device) :
    NativeKept ctx own (s.setReleaseAction (some d) ctx.releaseAction) :=
  h.setDevice d (a := { s.allocations (some d) with releaseAction := ctx.releaseAction })
    (h.apart d) fun hpool _ => releaseAction_unpooled hpool

/-- A fresh allocation is not the native memory. -/
theorem NativeKept.allocate (d : Device) (v : Bool) :
    NativeKept ctx own (s.allocate (some d) v ctx.releaseAction) := by
  have hfresh : (some s.nextHandle : Option ZeHandle) ≠ some 0 := by
    intro he
    exact Nat.lt_irrefl 0 (Option.some.inj he ▸ h.next)
  exact (h.setDevice d (a := ⟨some s.nextHandle, v, ctx.releaseAction⟩) hfresh
    fun hpool _ => releaseAction_unpooled hpool).congr rfl (Nat.le_succ _) rfl

theorem NativeKept.copyThroughHost (src dst : ZeHandle) :
    NativeKept ctx own (copyThroughHost ctx drv s src dst).1 := by
  unfold LevelZero.copyThroughHost hostAllocation
  rw [h.handle]
  dsimp only
  -- the host allocation is there
  have hfill : NativeKept ctx own (fillHost drv s src 0).1 := by
    unfold fillHost
    split
    next => exact h
    next =>
      split
      next => exact h
      next => exact (h.store 0 _).setHostValid true
  cases hres : fillHost drv s src 0 with
  | mk s₁ r =>
    rw [hres] at hfill
    cases r with
    | error e => exact hfill
    | ok _ =>
      dsimp only
      split
      next => exact hfill
      next => exact hfill.store dst _

theorem NativeKept.copyValidData (device : Device) (src dst : ZeHandle) :
    NativeKept ctx own (copyValidData ctx drv s device src dst).1 := by
  unfold LevelZero.copyValidData
  split
  next => exact h
  next =>
    split
    next => exact h
    next =>
      split
      next =>
        split
        next => exact h
        next => exact h.store dst _
      next => exact h.copyThroughHost src dst

/-- The calls a call makes to itself keep the pointer. -/
def KeepsCalls (ctx : Context) (own : Bool) (getZeHandle : GetZeHandle) : Prop :=
  ∀ s mode device, NativeKept ctx own s → KeepsNative ctx own (getZeHandle s mode device)

theorem NativeKept.makeValid (drv : Driver) {g : GetZeHandle} (hg : KeepsCalls ctx own g)
    (mode : AccessMode) (device : Device) (dst : ZeHandle) :
    NativeKept ctx own (makeValid ctx drv g s mode device dst).1 := by
  unfold LevelZero.makeValid
  split
  next => exact h
  next =>
    split
    next => exact h
    next =>
      split
      next => exact h.markValid device
      next =>
        have hcall := (hg s .readOnly s.last h).kept
        cases hres : g s .readOnly s.last with
        | mk s₁ r =>
          rw [hres] at hcall
          cases r with
          | error e => exact hcall
          | ok src =>
            dsimp only
            split
            next => exact hcall.markValid device
            next =>
              have hcopy : NativeKept ctx own (LevelZero.copyValidData ctx drv s₁ device src dst).1 :=
                hcall.copyValidData device src dst
              cases hcopied : LevelZero.copyValidData ctx drv s₁ device src dst with
              | mk s₂ r₂ =>
                rw [hcopied] at hcopy
                cases r₂ with
                | error e => exact hcopy
                | ok _ => exact hcopy.markValid device

theorem NativeKept.accessAllocation {g : GetZeHandle}
    (hg : KeepsCalls ctx own g) (mode : AccessMode) (device : Device) {dst : ZeHandle}
    (hdst : dst ≠ 0) : KeepsNative ctx own (accessAllocation ctx drv g s mode device dst) := by
  unfold LevelZero.accessAllocation
  have hvalid := h.makeValid drv hg mode device dst
  cases hres : LevelZero.makeValid ctx drv g s mode device dst with
  | mk s₁ r =>
    rw [hres] at hvalid
    cases r with
    | error e => exact ⟨hvalid, nofun⟩
    | ok _ =>
      refine ⟨?_, fun h' he => ?_⟩
      · dsimp only
        split
        next => exact hvalid.invalidateOthers
        next => exact hvalid
      · rw [← Except.ok.inj he]
        exact hdst

theorem NativeKept.getZeHandleBody {g : GetZeHandle}
    (hg : KeepsCalls ctx own g) (mode : AccessMode) (device? : Option Device) :
    KeepsNative ctx own (getZeHandleBody ctx drv g s mode device?) := by
  unfold LevelZero.getZeHandleBody
  split
  next => exact ⟨h, nofun⟩
  next =>
    rw [if_neg (by rw [h.discrete]; exact Bool.false_ne_true)]
    cases hz : (s.allocations (some (selectDevice ctx s.last device?))).zeHandle with
    | some dst =>
      exact h.accessAllocation hg mode _ fun he => h.apart _ (hz.trans (congrArg some he))
    | none =>
      cases hroot : ctx.sharedRoot (selectDevice ctx s.last device?) with
      | some root =>
        have hcall := hg s mode (some root) h
        dsimp only
        cases hres : g s mode (some root) with
        | mk s₁ r =>
          rw [hres] at hcall
          cases r with
          | error e => exact ⟨hcall.kept, nofun⟩
          | ok p =>
            have hp := hcall.device p rfl
            refine ⟨hcall.kept.setDevice _ (fun he => hp (Option.some.inj he)) fun _ _ => nofun,
              fun h' he => ?_⟩
            rw [← Except.ok.inj he]
            exact hp
      | none =>
        dsimp only
        split
        next => exact ⟨h.setReleaseAction _, nofun⟩
        next =>
          exact (h.allocate _ _).accessAllocation hg mode _ fun he =>
            Nat.lt_irrefl 0 (he ▸ h.next)

omit h in
theorem keepsCalls_depth (drv : Driver) (n : Nat) : KeepsCalls ctx own (getZeHandleDepth ctx drv n) := by
  induction n with
  | zero =>
    intro s mode device h
    exact ⟨h, nofun⟩
  | succ n ih =>
    intro s mode device h
    exact h.getZeHandleBody ih mode device

/-- **An access keeps the pointer.** -/
theorem NativeKept.getBufferZeHandle (drv : Driver) (sub : Option Nat) (mode : AccessMode)
    (device? : Option Device) : NativeKept ctx own (getBufferZeHandle ctx drv s sub mode device?).1 := by
  unfold LevelZero.getBufferZeHandle
  cases sub with
  | none =>
    have hcall : NativeKept ctx own (getZeHandle ctx drv s mode device?).1 :=
      (keepsCalls_depth drv 3 s mode device? h).kept
    cases hres : getZeHandle ctx drv s mode device? with
    | mk s₁ r =>
      rw [hres] at hcall
      cases r with
      | error e => exact hcall
      | ok p => exact hcall
  | some i =>
    have hcall : NativeKept ctx own
        (getZeHandle ctx drv s mode (some (selectDevice ctx (s.subs i).last device?))).1 :=
      (keepsCalls_depth drv 3 s mode _ h).kept
    dsimp only
    cases hres : getZeHandle ctx drv s mode
        (some (selectDevice ctx (s.subs i).last device?)) with
    | mk s₁ r =>
      rw [hres] at hcall
      cases r with
      | error e => exact hcall
      | ok p => exact hcall.congr rfl le_rfl rfl

/-! ## Commands -/

theorem NativeKept.setMappings (sub : Option Nat) (ms : List Mapping) :
    NativeKept ctx own (s.setMappings sub ms) := by
  cases sub with
  | none => exact h.congr rfl le_rfl rfl
  | some i => exact h.congr rfl le_rfl rfl

theorem NativeKept.insertMapping (sub : Option Nat) (m : Mapping)
    (eff : Effect) : NativeKept ctx own (insertMapping s sub m eff).1 := by
  unfold LevelZero.insertMapping
  split
  next => exact h
  next => exact h.setMappings sub _

theorem NativeKept.urEnqueueMemBufferRead (device : Device)
    (sub : Option Nat) (offset size : Nat) :
    NativeKept ctx own (urEnqueueMemBufferRead ctx drv s device sub offset size).1 := by
  unfold LevelZero.urEnqueueMemBufferRead
  have haccess := h.getBufferZeHandle drv sub .readOnly (some device)
  cases hres : LevelZero.getBufferZeHandle ctx drv s sub .readOnly (some device) with
  | mk s₁ r =>
    rw [hres] at haccess
    cases r with
    | error e => exact haccess
    | ok p => exact haccess

theorem NativeKept.enqueueStore (device : Device) (sub : Option Nat)
    (offset : Nat) (data : List Byte) :
    NativeKept ctx own (enqueueStore ctx drv s device sub offset data).1 := by
  unfold LevelZero.enqueueStore
  have haccess := h.getBufferZeHandle drv sub .writeOnly (some device)
  cases hres : LevelZero.getBufferZeHandle ctx drv s sub .writeOnly (some device) with
  | mk s₁ r =>
    rw [hres] at haccess
    cases r with
    | error e => exact haccess
    | ok p => exact haccess.store p.1 _

theorem NativeKept.urEnqueueMemBufferCopy (device : Device)
    (src dst : CopyEnd) (size : Nat) (data : List Byte) :
    NativeKept ctx own (urEnqueueMemBufferCopy ctx drv s device src dst size data).1 := by
  unfold LevelZero.urEnqueueMemBufferCopy
  cases src with
  | other =>
    cases dst with
    | other => exact h
    | own sub offset => exact h.enqueueStore device sub offset _
  | own srcSub srcOffset =>
    cases dst with
    | other => exact h.urEnqueueMemBufferRead device srcSub srcOffset size
    | own dstSub dstOffset =>
      have hsrc := h.getBufferZeHandle drv srcSub .readOnly (some device)
      dsimp only
      cases hres : LevelZero.getBufferZeHandle ctx drv s srcSub .readOnly (some device) with
      | mk s₁ r =>
        rw [hres] at hsrc
        cases r with
        | error e => exact hsrc
        | ok p =>
          have hdst := hsrc.getBufferZeHandle drv dstSub .writeOnly
            (some device)
          dsimp only
          cases hres₂ : LevelZero.getBufferZeHandle ctx drv s₁ dstSub .writeOnly
              (some device) with
          | mk s₂ r₂ =>
            rw [hres₂] at hdst
            cases r₂ with
            | error e => exact hdst
            | ok q => exact hdst.store q.1 _

/-- Memory for a mapping is not an allocation. -/
theorem NativeKept.mapMemory (drv : Driver) (sub : Option Nat) (offset : Nat) :
    NativeKept ctx own (mapMemory drv s sub offset).1 := by
  unfold LevelZero.mapMemory
  split
  next => exact h
  next =>
    split
    next => exact h
    next => exact h.congr rfl (Nat.le_succ _) rfl

theorem NativeKept.urEnqueueMemBufferMap (device : Device)
    (sub : Option Nat) (flags : MapFlags) (offset size : Nat) :
    NativeKept ctx own (urEnqueueMemBufferMap ctx drv s device sub flags offset size).1 := by
  unfold LevelZero.urEnqueueMemBufferMap
  dsimp only
  split
  next => exact h
  next =>
    rw [if_neg fun hc => absurd hc.2 (by rw [h.discrete]; exact Bool.false_ne_true)]
    have hmap := h.mapMemory drv sub offset
    cases hres : LevelZero.mapMemory drv s sub offset with
    | mk s₁ r =>
      rw [hres] at hmap
      cases r with
      | error e => exact hmap
      | ok ptr =>
        dsimp only
        split
        next => exact hmap.insertMapping sub _ _
        next =>
          have haccess := hmap.getBufferZeHandle drv sub flags.accessMode
            (some device)
          cases hres₂ : LevelZero.getBufferZeHandle ctx drv s₁ sub flags.accessMode
              (some device) with
          | mk s₂ r₂ =>
            rw [hres₂] at haccess
            cases r₂ with
            | error e => exact haccess
            | ok p => exact (haccess.store ptr.1 _).insertMapping sub _ _

theorem NativeKept.storeMapped (sub : Option Nat) (ptr : Ptr)
    (offset : Nat) (data : List Byte) : NativeKept ctx own (storeMapped s sub ptr offset data).1 := by
  unfold LevelZero.storeMapped
  split
  next => exact h
  next =>
    split
    next => exact h.store ptr.1 _
    next => exact h

theorem NativeKept.urEnqueueMemUnmap (device : Device) (sub : Option Nat)
    (ptr : Ptr) : NativeKept ctx own (urEnqueueMemUnmap ctx drv s device sub ptr).1 := by
  unfold LevelZero.urEnqueueMemUnmap
  split
  next => exact h
  next m _ =>
    dsimp only
    have hunmapped := h.setMappings sub ((s.mappingsOf sub).filter (·.ptr != ptr))
    have haccess := hunmapped.getBufferZeHandle drv sub .writeOnly
      (some device)
    cases hres : LevelZero.getBufferZeHandle ctx drv
        (s.setMappings sub ((s.mappingsOf sub).filter (·.ptr != ptr))) sub .writeOnly
        (some device) with
    | mk s₁ r =>
      rw [hres] at haccess
      cases r with
      | error e => exact haccess
      | ok p =>
        dsimp only
        split
        next => exact haccess
        next => exact haccess.store p.1 _

omit h in
theorem NativeKept.setPendingArguments (drv : Driver) (device : Device)
    (args : List (Option Nat × AccessMode)) :
    ∀ {s : BufferState} (h? : Option ZeHandle), NativeKept ctx own s →
      NativeKept ctx own (setPendingArguments ctx drv device s h? args).1 := by
  induction args with
  | nil =>
    intro s h? h
    exact h
  | cons a args ih =>
    intro s h? h
    unfold LevelZero.setPendingArguments
    have haccess := h.getBufferZeHandle drv a.1 a.2 (some device)
    cases hres : LevelZero.getBufferZeHandle ctx drv s a.1 a.2 (some device) with
    | mk s₁ r =>
      rw [hres] at haccess
      cases r with
      | error e => exact haccess
      | ok p => exact ih (some p.1) haccess

theorem NativeKept.urEnqueueKernelLaunch (device : Device)
    (args : List (Option Nat × AccessMode)) (kernel : Kernel) :
    NativeKept ctx own (urEnqueueKernelLaunch ctx drv s device args kernel).1 := by
  unfold LevelZero.urEnqueueKernelLaunch
  have hargs := NativeKept.setPendingArguments drv device args none h
  cases hres : LevelZero.setPendingArguments ctx drv device s none args with
  | mk s₁ r =>
    rw [hres] at hargs
    cases r with
    | error e => exact hargs
    | ok h? =>
      cases h? with
      | none => exact hargs
      | some p => exact hargs.store p _

/-- **A command keeps the pointer**, whatever it is and however it ends. -/
theorem NativeKept.command (c : Command) :
    NativeKept ctx own (c.run ctx drv s).1 := by
  cases c with
  | memBufferRead device sub offset size => exact h.urEnqueueMemBufferRead device sub offset size
  | memBufferWrite device sub offset data => exact h.enqueueStore device sub offset data
  | memBufferFill device sub pattern offset size => exact h.enqueueStore device sub offset _
  | memBufferCopy device src dst size data =>
    exact h.urEnqueueMemBufferCopy device src dst size data
  | memBufferMap device sub flags offset size =>
    exact h.urEnqueueMemBufferMap device sub flags offset size
  | hostStore sub ptr offset data => exact h.storeMapped sub ptr offset data
  | memUnmap device sub ptr => exact h.urEnqueueMemUnmap device sub ptr
  | kernelLaunch device args kernel => exact h.urEnqueueKernelLaunch device args kernel

end Access

/-! ## Runs -/

/-- The states of a buffer that stands for a native pointer, with the latest writes:
its creation, and then any commands. -/
inductive InteropReached (ctx : Context) (own : Bool) : BufferState → Latest → Prop where
  | create (drv : Driver) (subs : Nat → SubBuffer) (memory : ZeHandle → Nat → Byte) (size : Nat)
      (data : Nat → Byte) {s : BufferState} :
      create ctx drv subs memory (.nativeHost size data own) = (s, .ok ()) →
      InteropReached ctx own s fun i => some (data i)
  | command {s : BufferState} {latest : Latest} (drv : Driver) (c : Command) :
      InteropReached ctx own s latest →
      InteropReached ctx own (c.run ctx drv s).1 (latestAfter latest (c.run ctx drv s).2)

/-- A buffer that stands for a native pointer and needs a device proxy, at the end of
any run. -/
structure InteropBuffer (ctx : Context) where
  state : BufferState
  latest : Latest
  own : Bool
  proxied : ctx.onHost = false
  reached : InteropReached ctx own state latest

/-- The native pointer, when the constructor has run. -/
theorem nativeHost_kept {ctx : Context} (hproxied : ctx.onHost = false) {own : Bool}
    {drv : Driver} {subs : Nat → SubBuffer} {memory : ZeHandle → Nat → Byte} {size : Nat}
    {data : Nat → Byte} {s : BufferState}
    (hcreate : create ctx drv subs memory (.nativeHost size data own) = (s, .ok ())) :
    NativeKept ctx own s := by
  have hnew : NativeKept ctx own ((BufferState.raw size data ctx.onHost subs memory).setAllocation none
      ⟨some 0, true, if own then .freeNative else .keep⟩) := by
    refine ⟨?_, ?_, ?_, Nat.one_pos, hproxied, ?_⟩
    · rw [setAllocation_at]
    · rw [setAllocation_at]
    · intro d
      exact nofun
    · intro _ d hd
      exact absurd rfl hd
  unfold LevelZero.create copyInitialData at hcreate
  dsimp only at hcreate
  rw [if_neg (by rw [hnew.discrete]; exact Bool.false_ne_true)] at hcreate
  have haccess := (keepsCalls_depth drv 3 _ .writeOnly none hnew).kept
  cases hres : getZeHandleDepth ctx drv 3
      ((BufferState.raw size data ctx.onHost subs memory).setAllocation none
        ⟨some 0, true, if own then .freeNative else .keep⟩) .writeOnly none with
  | mk s₁ r =>
    unfold getZeHandle at hcreate
    rw [hres] at haccess hcreate
    cases r with
    | error e => exact absurd (congrArg Prod.snd hcreate) nofun
    | ok h =>
      obtain ⟨rfl, -⟩ := Prod.mk.inj hcreate
      exact haccess.store h _

/-- **The native pointer is kept** in every run. -/
theorem interopReached_native {ctx : Context} (hproxied : ctx.onHost = false) {own : Bool}
    {s : BufferState} {latest : Latest} (h : InteropReached ctx own s latest) :
    NativeKept ctx own s := by
  induction h with
  | create drv subs memory size data hcreate => exact nativeHost_kept hproxied hcreate
  | command drv c _ ih => exact ih.command c

/-! ## The release -/

/-- An order in which the map of the allocations may yield them. -/
structure VisitOrder (s : BufferState) where
  keys : List (Option Device)
  nodup : keys.Nodup
  covers : ∀ k, (s.allocations k).zeHandle ≠ none → k ∈ keys

/-- **The property.** The native pointer has the latest writes, it is not freed before
they are copied to it, and it is freed only if it is owned. -/
structure WrittenBack {ctx : Context} (b : InteropBuffer ctx) (r : Releasing) : Prop where
  contents : Holds b.state.cells b.latest (r.state.memory 0)
  inTime : r.events.Pairwise fun e e' => e = .freed 0 → ∀ src, e' ≠ .copied 0 src
  onlyOwned : .freed 0 ∈ r.events → b.own = true

/-- The allocation the loop comes to last, among those copied back, has the latest
writes (or the native memory, if none is), and an owned native pointer that is freed
comes after them. -/
structure CurrentLast {ctx : Context} (b : InteropBuffer ctx) (drv : ReleaseDriver)
    (keys : List (Option Device)) : Prop where
  source : Holds b.state.cells b.latest (b.state.memory (finalSource drv b.state 0 keys))
  nativeLast : b.own = true → drv.memFree none = .freed →
    (visited drv b.state keys).Pairwise fun k k' => k = none → copiesBack drv b.state k' = false

section Release

variable {ctx : Context} {drv : ReleaseDriver} {own : Bool} {s : BufferState}

theorem NativeKept.poolApart (h : NativeKept ctx own s) : PoolApart s 0 := by
  intro k p hk ha he
  rw [he] at hk
  cases k with
  | none =>
    rw [h.action] at ha
    cases own with
    | false => exact absurd ha nofun
    | true => exact absurd ha nofun
  | some d => exact h.apart d hk

/-- The native memory is freed at the turn of the host allocation, if it is owned. -/
theorem NativeKept.freed_mem (drv : ReleaseDriver) (h : NativeKept ctx own s) (k : Option Device) :
    .freed 0 ∈ allocationEvents drv 0 s k ↔ k = none ∧ own = true ∧ drv.memFree none = .freed := by
  cases k with
  | none =>
    have hevents : allocationEvents drv 0 s none =
        if own then (if drv.memFree none = .freed then [.freed 0] else []) else [] := by
      unfold allocationEvents
      rw [h.handle, h.action]
      cases own <;> rfl
    rw [hevents]
    cases own with
    | false => simp
    | true => cases hans : drv.memFree none <;> simp
  | some d =>
    refine ⟨fun hmem => ?_, fun hnone => absurd hnone.1 (Option.some_ne_none d)⟩
    -- a device does not have the native memory
    cases hh : (s.allocations (some d)).zeHandle with
    | none => simp [allocationEvents, hh] at hmem
    | some p =>
      have hp : 0 ≠ p := fun he => h.apart d (hh.trans (congrArg some he.symm))
      cases ha : (s.allocations (some d)).releaseAction with
      | keep => simp [allocationEvents, hh, ha] at hmem
      | unimport => simp [allocationEvents, hh, ha] at hmem
      | free =>
        cases hcopy : drv.copyBack (some d) <;> cases hfree : drv.usmFree (some d) <;>
          simp [allocationEvents, hh, ha, hcopy, hfree, hp] at hmem
      | freeNative =>
        cases hfree : drv.memFree (some d) <;>
          simp [allocationEvents, hh, ha, hfree, hp] at hmem

/-- A turn copies to the native pointer just if the allocation is copied back. -/
theorem copied_mem (p : ZeHandle) (k : Option Device) :
    (∃ src, .copied p src ∈ allocationEvents drv p s k) ↔ copiesBack drv s k = true := by
  cases hh : (s.allocations k).zeHandle with
  | none => simp [allocationEvents, copiesBack, hh]
  | some h =>
    cases ha : (s.allocations k).releaseAction with
    | keep => simp [allocationEvents, copiesBack, hh, ha]
    | unimport => simp [allocationEvents, copiesBack, hh, ha]
    | free => cases hcopy : drv.copyBack k <;> simp [allocationEvents, copiesBack, hh, ha, hcopy]
    | freeNative =>
      cases hfree : drv.memFree k <;> simp [allocationEvents, copiesBack, hh, ha, hfree]

/-- Within one turn nothing is copied after the native memory is freed. -/
theorem NativeKept.turn_inTime (h : NativeKept ctx own s) (k : Option Device) :
    (allocationEvents drv 0 s k).Pairwise
      fun e e' => e = .freed 0 → ∀ src, e' ≠ .copied 0 src := by
  by_cases hcopies : copiesBack drv s k = true
  · -- it is a device's turn
    have hnot : .freed 0 ∉ allocationEvents drv 0 s k := by
      intro hmem
      obtain ⟨rfl, hown, -⟩ := (h.freed_mem drv k).mp hmem
      unfold copiesBack at hcopies
      rw [h.action, hown] at hcopies
      simp at hcopies
    refine List.pairwise_of_forall_mem_list ?_
    intro e he e' _ hfreed
    exact absurd (hfreed ▸ he) hnot
  · refine List.pairwise_of_forall_mem_list ?_
    intro e _ e' he' _ src hcopied
    exact hcopies ((copied_mem 0 k).mp ⟨src, hcopied ▸ he'⟩)

/-- **In time**: what the order of the turns has to do with it. -/
theorem NativeKept.inTime_iff (h : NativeKept ctx own s) (keys : List (Option Device)) :
    (keys.flatMap (allocationEvents drv 0 s)).Pairwise
        (fun e e' => e = .freed 0 → ∀ src, e' ≠ .copied 0 src) ↔
      (own = true → drv.memFree none = .freed →
        keys.Pairwise fun k k' => k = none → copiesBack drv s k' = false) := by
  rw [List.pairwise_flatMap]
  constructor
  · intro ⟨_, hpairs⟩ hown hfreed
    refine hpairs.imp ?_
    intro k k' hkk' hnone
    have hmem := (h.freed_mem drv k).mpr ⟨hnone, hown, hfreed⟩
    rw [Bool.eq_false_iff]
    intro hcopies
    obtain ⟨src, hsrc⟩ := (copied_mem 0 k').mpr hcopies
    exact hkk' _ hmem _ hsrc rfl src rfl
  · intro hlast
    refine ⟨fun k _ => h.turn_inTime k, ?_⟩
    by_cases hboth : own = true ∧ drv.memFree none = .freed
    · refine (hlast hboth.1 hboth.2).imp ?_
      intro k k' hkk' e he e' he' hfreed src hcopied
      rw [hfreed] at he
      rw [hcopied] at he'
      have hnone := ((h.freed_mem drv k).mp he).1
      have hcopies := (copied_mem 0 k').mp ⟨src, he'⟩
      rw [hkk' hnone] at hcopies
      exact absurd hcopies nofun
    · -- the native memory is not freed at all
      refine List.pairwise_of_forall ?_
      intro k k' e he e' _ hfreed
      rw [hfreed] at he
      exact absurd ((h.freed_mem drv k).mp he).2 hboth

end Release

/-- **Interop buffers.** After any run, whatever the pool setting, the order of the
allocations and the answers of the driver: the release writes the buffer back just
if what the loop copies last is current and an owned pointer is freed after that. -/
theorem interop_writtenBack_iff (ctx : Context) (b : InteropBuffer ctx) (drv : ReleaseDriver)
    (order : VisitOrder b.state) :
    WrittenBack b (urMemRelease drv (some 0) order.keys b.state) ↔
      CurrentLast b drv order.keys := by
  have hkept := interopReached_native b.proxied b.reached
  have hevents := free_events drv hkept.poolApart order.nodup
  have hnative : ∀ i ∈ b.state.cells,
      (urMemRelease drv (some 0) order.keys b.state).state.memory 0 i =
        b.state.memory (finalSource drv b.state 0 order.keys) i :=
    fun i hi => free_native drv hkept.poolApart order.nodup hi
  constructor
  · intro ⟨hcontents, hinTime, _⟩
    refine ⟨hcontents.mono fun i hi => (hnative i hi).symm, ?_⟩
    rw [hevents] at hinTime
    exact (hkept.inTime_iff _).mp hinTime
  · intro ⟨hsource, hlast⟩
    refine ⟨hsource.mono hnative, ?_, ?_⟩
    · rw [hevents]
      exact (hkept.inTime_iff _).mpr hlast
    · rw [hevents]
      intro hmem
      obtain ⟨k, _, hk⟩ := List.mem_flatMap.mp hmem
      exact ((hkept.freed_mem drv k).mp hk).2.1

/-! ## Runs that are not written back -/

/-- One discrete device, and buffers that do not come from the pool. -/
def noPool : Context where
  devices := [0]
  devices_ne := by simp
  integrated := fun _ => false
  singleRootDevice := none
  singleRootDeviceBufferMigration := true
  enableBuffers := false

/-- A driver and a pool on which every call succeeds. -/
def obligingRelease : ReleaseDriver := ⟨fun _ => true, fun _ => .freed, fun _ => .freed⟩

/-- A pointer to the byte `1` is made a buffer, and a device stores `7`. -/
def interopWrite (ctx : Context) (device : Device) : BufferState :=
  ((Command.memBufferWrite device none 0 [7]).run ctx obliging
    (create ctx obliging noSubBuffers (fun _ _ => 0) (.nativeHost 1 (fun _ => 1) false)).1).1

def unpooledWrite : InteropBuffer noPool where
  state := interopWrite noPool 0
  latest := _
  own := false
  proxied := rfl
  reached := .command obliging (.memBufferWrite 0 none 0 [7])
    (.create obliging noSubBuffers (fun _ _ => 0) 1 (fun _ => 1) rfl)

def secondDeviceWrite : InteropBuffer twoDevices where
  state := interopWrite twoDevices 1
  latest := _
  own := false
  proxied := rfl
  reached := .command obliging (.memBufferWrite 1 none 0 [7])
    (.create obliging noSubBuffers (fun _ _ => 0) 1 (fun _ => 1) rfl)

def unpooledOrder : VisitOrder unpooledWrite.state where
  keys := [some 0, none]
  nodup := by decide
  covers := by
    intro k hk
    rcases k with _ | _ | d
    · decide
    · decide
    · exact absurd rfl hk

/-- The device that has the data comes first. -/
def currentFirst : VisitOrder secondDeviceWrite.state where
  keys := [some 1, some 0, none]
  nodup := by decide
  covers := by
    intro k hk
    rcases k with _ | _ | _ | d
    · decide
    · decide
    · decide
    · exact absurd rfl hk

/-- **Not every buffer is written back**: without the pool the pointer keeps what it
had, and with two devices it gets what the one that comes last has. -/
theorem interop_notWrittenBack :
    ¬ WrittenBack unpooledWrite
        (urMemRelease obligingRelease (some 0) unpooledOrder.keys unpooledWrite.state) ∧
      ¬ WrittenBack secondDeviceWrite
        (urMemRelease obligingRelease (some 0) currentFirst.keys secondDeviceWrite.state) := by
  refine ⟨?_, ?_⟩
  · intro h
    exact absurd (h.contents 0 (by decide) 7 rfl) (by decide)
  · intro h
    exact absurd (h.contents 0 (by decide) 7 rfl) (by decide)

end UnifiedRuntime.LevelZero
