import UnifiedRuntime.Buffers.QueueRefs

/-!
# Runs over the buffers of a context

Any number of buffers and sub-buffers are created, written, filled, copied,
read, passed to kernels and released, on queues of any of the devices. `Safe` is
the condition under which the bookkeeping of the handles finds the latest
contents and no byte outside of a region is touched; `Local` asks that a read
that does not block runs on the queue it was enqueued on; `Dropped` that a handle
dies with no queue recorded. `cuda_buffers_coherent` and `hip_buffers_coherent`
are the main facts.
-/

namespace UnifiedRuntime.Buffers

open Function (update update_of_ne update_self)
open Streams (Adapter)

/-- The calls of a program. -/
inductive Call
  | create (size : Nat) (copyIn pinned : Bool) (host : Contents) (junk : Nat → Contents)
  | partition (h origin size : Nat)
  | writeHost (r : Nat) (contents : Contents)
  | write (q h offset size : Nat) (source : Nat → Byte)
  | writeRect (q h : Nat) (r : Rect) (source : Nat → Byte)
  | fill (q h : Nat) (pattern : List Byte) (offset size : Nat)
  | read (q h offset size : Nat) (blocking : Bool)
  | readRect (q h : Nat) (r : Rect) (hostRowPitch hostSlicePitch : Nat) (blocking : Bool)
  | copy (q src dst srcOffset dstOffset size : Nat)
  | copyRect (q src dst : Nat) (r : Rect) (x y z rowPitch slicePitch : Nat)
  | launch (q : Nat) (args : List Arg)
  | finish (q : Nat)
  | retain (h : Nat)
  | release (h : Nat)

namespace World

/-- One call; `none` when a handle does not exist any more, or a kernel writes
through an argument that was set for reading. -/
def step (a : Adapter) (w : World) : Call → Option World
  | .create size copyIn pinned host junk => some (w.urMemBufferCreate size copyIn pinned host junk)
  | .partition h origin size =>
    if w.Live h then some (w.urMemBufferPartition h origin size) else none
  | .writeHost r contents => some (w.writeHost r contents)
  | .write q h offset size source =>
    if w.Live h then some (w.urEnqueueMemBufferWrite a q h offset size source) else none
  | .writeRect q h r source =>
    if w.Live h then some (w.urEnqueueMemBufferWriteRect a q h r source) else none
  | .fill q h pattern offset size =>
    if w.Live h then some (w.urEnqueueMemBufferFill a q h pattern offset size) else none
  | .read q h offset size blocking =>
    if w.Live h then some (w.urEnqueueMemBufferRead a q h offset size blocking) else none
  | .readRect q h r hostRowPitch hostSlicePitch blocking =>
    if w.Live h then
      some (w.urEnqueueMemBufferReadRect a q h r hostRowPitch hostSlicePitch blocking)
    else none
  | .copy q src dst srcOffset dstOffset size =>
    if w.Live src ∧ w.Live dst then
      some (w.urEnqueueMemBufferCopy q src dst srcOffset dstOffset size)
    else none
  | .copyRect q src dst r x y z rowPitch slicePitch =>
    if w.Live src ∧ w.Live dst then
      some (w.urEnqueueMemBufferCopyRect a q src dst r x y z rowPitch slicePitch)
    else none
  | .launch q args =>
    if ∀ arg ∈ args, w.Live arg.mem ∧ (arg.access = .readOnly → arg.writes = []) then
      some (w.urEnqueueKernelLaunch a q args)
    else none
  | .finish q => some (w.urQueueFinish q)
  | .retain h => if w.Live h then some (w.urMemRetain h) else none
  | .release h => if w.Live h then some (w.urMemRelease h) else none

/-! ## The conditions -/

/-- The copy reads and writes on the queue's device, which has to be current for
both buffers, and alone for the destination. -/
def CopySafe (w : World) (q src dst : Nat) (srcOffsets dstOffsets : List Nat) : Prop :=
  w.ReadSafe src (w.device q) srcOffsets ∧ w.WriteSafe dst (w.device q) dstOffsets ∧
    w.Alone (w.mems dst).root (w.device q)

/-- **What the bookkeeping relies on**, for the calls that pass their checks. -/
def Safe (a : Adapter) (w : World) : Call → Prop
  | .create _ copyIn pinned _ _ => ¬ (copyIn = true ∧ pinned = true)
  | .write q h offset size _ =>
    (a = .cuda → wrap (offset + size) ≤ (w.mems h).size) →
      w.WriteSafe h (w.device q) (rangeOffsets offset size)
  | .writeRect q h r _ => w.WriteSafe h (w.device q) (r.offsets a)
  | .fill q h pattern offset size =>
    wrap (size + offset) ≤ (w.mems h).size → w.WriteSafe h (w.device q)
      (rangeOffsets offset (size / pattern.length * pattern.length))
  | .read q h offset size _ =>
    (a = .cuda → wrap (offset + size) ≤ (w.mems h).size) →
      w.ReadSafe h (w.device (w.readQueue q h)) (rangeOffsets offset size)
  | .readRect q h r _ _ _ => w.ReadSafe h (w.device (w.readQueue q h)) (r.offsets a)
  | .copy q src dst srcOffset dstOffset size =>
    wrap (size + dstOffset) ≤ (w.mems dst).size → wrap (size + srcOffset) ≤ (w.mems src).size →
      w.CopySafe q src dst (rangeOffsets srcOffset size) (rangeOffsets dstOffset size)
  | .copyRect q src dst r x y z rowPitch slicePitch =>
    w.CopySafe q src dst (r.offsets a) ({ r with x, y, z, rowPitch, slicePitch }.offsets a)
  | .launch q args => w.LaunchSafe a q args
  | _ => True

/-- A read that does not block stays on its queue. -/
def Local (w : World) : Call → Prop
  | .read q h _ _ blocking => blocking = false → w.readQueue q h = q
  | .readRect q h _ _ _ blocking => blocking = false → w.readQueue q h = q
  | _ => True

/-- A handle dies with no queue recorded. -/
def Dropped (w : World) : Call → Prop
  | .release h => w.ReleaseSafe h
  | _ => True

/-- Nothing was created, read or recorded yet. -/
structure Initial (w : World) : Prop where
  count : w.count = 0
  mems : ∀ h, (w.mems h).refCount = 0
  observed : w.observed = []
  strays : w.strays = 0
  pending : w.pending = []
  missed : w.missed = []
  queueRefs : w.queueRefs = fun _ => 0

/-- The worlds that calls meeting a condition lead to. -/
inductive Reached (a : Adapter) (P : World → Call → Prop) : World → Prop
  | start {w : World} : w.Initial → Reached a P w
  | step {w w' : World} {c : Call} :
      Reached a P w → P w c → w.step a c = some w' → Reached a P w'

/-! ## Handles come and go -/

variable {w w' : World} {h r d q : Nat} {a : Adapter}

/-- There are more handles, and the others differ in their reference counts. -/
structure Extended (w w' : World) : Prop where
  context : w'.context = w.context
  count : w.count ≤ w'.count
  old : ∀ h, h < w.count → ∃ n, w'.mems h = { w.mems h with refCount := n }
  new : ∀ h, w.count ≤ h → h < w'.count → (w'.mems h).lastQueue = none
  memory : ∀ r, r < w.count → w'.memory r = w.memory r
  latest : ∀ r, r < w.count → w'.latest r = w.latest r
  initial : ∀ r, r < w.count → w'.initial r = w.initial r

namespace Extended

theorem root (he : Extended w w') (hh : h < w.count) : (w'.mems h).root = (w.mems h).root := by
  obtain ⟨n, hn⟩ := he.old h hh
  rw [hn]

theorem size (he : Extended w w') (hh : h < w.count) : (w'.mems h).size = (w.mems h).size := by
  obtain ⟨n, hn⟩ := he.old h hh
  rw [hn]

theorem pinned (he : Extended w w') (hh : h < w.count) :
    (w'.mems h).pinned = (w.mems h).pinned := by
  obtain ⟨n, hn⟩ := he.old h hh
  rw [hn]

/-- An old handle points to old handles, which are as they were. -/
theorem memOk (he : Extended w w') (hh : h < w.count) (hok : w.MemOk h) : w'.MemOk h := by
  obtain ⟨n, hn⟩ := he.old h hh
  have hroot := he.root hh
  have hlt := hok.root_lt
  refine ⟨?_, ?_, ?_, ?_, fun q hq => ?_⟩
  · rw [hroot]
    exact Nat.lt_of_lt_of_le hlt he.count
  · rw [hroot, he.root hlt]
    exact hok.root_root
  · rw [hroot, he.size hlt, he.size hh]
    exact hok.root_size
  · rw [hroot, he.pinned hlt, he.pinned hh]
    exact hok.root_pinned
  · have hdev : w'.device q = w.device q := congrArg (fun c => c.device q) he.context
    rw [hdev]
    rw [hn] at hq ⊢
    exact hok.writer q hq

/-- A new handle takes part in the answer too, so it has to be current itself. -/
theorem current_iff (he : Extended w w') (hr : r < w.count) (d : Nat)
    (hnew : ∀ h, w.count ≤ h → h < w'.count → (w'.mems h).Current d) :
    w'.Current r d ↔ w.Current r d := by
  unfold Current
  rw [he.pinned hr]
  refine or_congr Iff.rfl ⟨fun hall h hlt hroot => ?_, fun hall h hlt hroot => ?_⟩
  · have := hall h (Nat.lt_of_lt_of_le hlt he.count) ((he.root hlt).trans hroot)
    obtain ⟨n, hn⟩ := he.old h hlt
    rwa [hn] at this
  · by_cases hlt' : h < w.count
    · have := hall h hlt' ((he.root hlt').symm.trans hroot)
      obtain ⟨n, hn⟩ := he.old h hlt'
      rw [hn]
      exact this
    · exact hnew h (by omega) hlt

/-- New handles have nothing recorded, which makes them current on every device. -/
theorem coherentAt (he : Extended w w') (hr : r < w.count) (hco : w.CoherentAt r) :
    w'.CoherentAt r := by
  have hbytes : w'.bytes r = w.bytes r := by
    unfold bytes
    rw [he.size hr]
  refine ⟨fun d hd hcur => ?_, fun hdev hpin hun => ?_⟩
  · have hcur' := (he.current_iff hr d fun h hle hlt => .inl (he.new h hle hlt)).mp hcur
    have hhold := hco.current d (he.context ▸ hd) hcur'
    unfold Holding Mem.place at hhold ⊢
    rw [hbytes, he.latest r hr, he.memory r hr, he.pinned hr]
    exact hhold
  · rw [hbytes, he.latest r hr, he.initial r hr]
    refine hco.initial (he.context ▸ hdev) ((he.pinned hr).symm.trans hpin) fun h hlt hroot => ?_
    have := hun h (Nat.lt_of_lt_of_le hlt he.count) ((he.root hlt).trans hroot)
    obtain ⟨n, hn⟩ := he.old h hlt
    rwa [hn] at this

/-- The old buffers stay coherent; the new handles have to be looked at. -/
theorem coherent (he : Extended w w') (hco : w.Coherent)
    (hnew : ∀ h, w.count ≤ h → h < w'.count →
      w'.MemOk h ∧ ((w'.mems h).root = h → w'.CoherentAt h)) : w'.Coherent := by
  refine ⟨fun h hlt => ?_, fun r hlt hroot => ?_⟩
  · by_cases hh : h < w.count
    · exact he.memOk hh (hco.mems h hh)
    · exact (hnew h (by omega) hlt).1
  · by_cases hh : r < w.count
    · exact he.coherentAt hh (hco.buffers r hh ((he.root hh).symm.trans hroot))
    · exact (hnew r (by omega) hlt).2 hroot

end Extended

theorem extended_setMem (w : World) (h n : Nat) :
    Extended w (w.setMem h { w.mems h with refCount := n }) := by
  refine ⟨rfl, Nat.le_refl _, fun h' _ => ?_, fun h' hle hlt => absurd hlt (by
    show ¬ h' < w.count
    omega), fun _ _ => rfl, fun _ _ => rfl, fun _ _ => rfl⟩
  show ∃ n', update w.mems h _ h' = _
  by_cases hne : h' = h
  · subst hne
    exact ⟨n, update_self ..⟩
  · exact ⟨(w.mems h').refCount, update_of_ne hne ..⟩

/-- Counting references moves no bytes. -/
theorem Coherent.setRefCount (hco : w.Coherent) (h n : Nat) :
    (w.setMem h { w.mems h with refCount := n }).Coherent :=
  (extended_setMem w h n).coherent hco fun h' hle hlt => absurd hlt (by
    show ¬ h' < w.count
    omega)

/-- A buffer is created: its allocations have what the program gave. -/
theorem Coherent.create (hco : w.Coherent) {size : Nat} {copyIn pinned : Bool}
    (hsafe : ¬ (copyIn = true ∧ pinned = true)) (host : Contents) (junk : Nat → Contents) :
    (w.urMemBufferCreate size copyIn pinned host junk).Coherent := by
  unfold urMemBufferCreate
  split
  next => exact hco
  next =>
    refine Extended.coherent (w := w) ⟨rfl, Nat.le_succ _, fun h' hlt => ?_, fun h' hle hlt => ?_,
      fun r hr => ?_, fun r hr => ?_, fun r hr => ?_⟩ hco fun h' hle hlt => ?_
    · exact ⟨(w.mems h').refCount, update_of_ne (by omega) ..⟩
    · obtain rfl : h' = w.count := by
        have : h' < w.count + 1 := hlt
        omega
      dsimp only
      rw [update_self]
    · exact update_of_ne (by omega) ..
    · exact update_of_ne (by omega) ..
    · exact update_of_ne (by omega) ..
    · obtain rfl : h' = w.count := by
        have : h' < w.count + 1 := hlt
        omega
      refine ⟨⟨?_, ?_, ?_, ?_, fun q hq => ?_⟩, fun _ =>
        ⟨fun d _ _ => ?_, fun _ _ _ => ?_⟩⟩ <;> dsimp only at * <;>
          try simp only [update_self]
      · exact Nat.lt_succ_self _
      · exact absurd hq (by simp)
      · -- every device got the contents, or there are none yet
        unfold Holding bytes
        simp only [update_self]
        cases copyIn with
        | false => exact holds_unwritten
        | true =>
          cases pinned with
          | true => exact absurd ⟨rfl, rfl⟩ hsafe
          | false =>
            intro i hi v hv
            have hi : i < size := hi
            simp only [if_pos, if_pos hi, Option.some.injEq] at hv
            simp [hi, hv]
      · unfold bytes
        simp only [update_self]
        cases copyIn with
        | false => exact holds_unwritten
        | true =>
          intro i hi v hv
          have hi : i < size := hi
          simp only [if_pos, if_pos hi, Option.some.injEq] at hv
          exact hv

/-- A sub-buffer starts with nothing recorded, so it takes every device for current. -/
theorem Coherent.partition (hco : w.Coherent) (hh : h < w.count) (origin size : Nat) :
    (w.urMemBufferPartition h origin size).Coherent := by
  unfold urMemBufferPartition
  dsimp only
  split
  next => exact hco
  next =>
    have hok := hco.mems h hh
    -- the buffers that there were only gain a reference
    have he : Extended w
        { w with
          count := w.count + 1
          mems := update (update w.mems h
            { w.mems h with refCount := (w.mems h).refCount + 1 }) w.count
            { w.mems h with
              parent := some h, offset := wrap ((w.mems h).offset + origin), region := size,
              migrated := fun _ => false, lastQueue := none, refCount := 1 } } := by
      refine ⟨rfl, Nat.le_succ _, fun h' hlt => ?_, fun h' hle hlt => ?_, fun _ _ => rfl,
        fun _ _ => rfl, fun _ _ => rfl⟩
      · dsimp only
        rw [update_of_ne (by omega)]
        by_cases hne : h' = h
        · subst hne
          exact ⟨_, update_self ..⟩
        · exact ⟨(w.mems h').refCount, update_of_ne hne ..⟩
      · obtain rfl : h' = w.count := by
          have : h' < w.count + 1 := hlt
          omega
        dsimp only
        rw [update_self]
    refine he.coherent hco fun h' hle hlt => ?_
    obtain rfl : h' = w.count := by
      have : h' < w.count + 1 := hlt
      omega
    have hne : (w.mems h).root ≠ w.count := by
      have := hok.root_lt
      omega
    refine ⟨⟨?_, ?_, ?_, ?_, fun q hq => ?_⟩, fun hself => ?_⟩
    · dsimp only
      rw [update_self]
      exact Nat.lt_succ_of_lt hok.root_lt
    · have := he.root hok.root_lt
      dsimp only at this ⊢
      rw [update_self]
      rw [this]
      exact hok.root_root
    · have := he.size hok.root_lt
      dsimp only at this ⊢
      rw [update_self]
      rw [this]
      exact hok.root_size
    · have := he.pinned hok.root_lt
      dsimp only at this ⊢
      rw [update_self]
      rw [this]
      exact hok.root_pinned
    · exact absurd hq (by simp)
    · dsimp only at hself
      rw [update_self] at hself
      exact absurd hself hne

/-! ## What each call keeps -/

theorem Good.of_quiet (hg : w.Good) (hq : Quiet w w') (hco : w'.Coherent) : w'.Good :=
  ⟨hco, hq.faithful hg.faithful, hq.strays.trans hg.strays⟩

theorem Good.setRefCount (hg : w.Good) (h n : Nat) :
    (w.setMem h { w.mems h with refCount := n }).Good :=
  hg.of_quiet ⟨rfl, rfl, rfl, rfl⟩ (hg.coherent.setRefCount h n)

theorem quiet_create (w : World) (size : Nat) (copyIn pinned : Bool) (host : Contents)
    (junk : Nat → Contents) : Quiet w (w.urMemBufferCreate size copyIn pinned host junk) := by
  unfold urMemBufferCreate
  split <;> exact ⟨rfl, rfl, rfl, rfl⟩

/-- A sub-buffer is a view of its parent: no bytes are copied. -/
theorem quiet_partition (w : World) (h origin size : Nat) :
    Quiet w (w.urMemBufferPartition h origin size) := by
  unfold urMemBufferPartition
  dsimp only
  split <;> exact ⟨rfl, rfl, rfl, rfl⟩

theorem quiet_release (w : World) (h : Nat) : Quiet w (w.urMemRelease h) := by
  unfold urMemRelease
  split
  · split <;> exact ⟨rfl, rfl, rfl, rfl⟩
  · exact ⟨rfl, rfl, rfl, rfl⟩

/-- Counts go down, for the parent as well; the bytes stay. -/
theorem Good.release (hg : w.Good) (h : Nat) : (w.urMemRelease h).Good := by
  have h₁ := hg.setRefCount h ((w.mems h).refCount - 1)
  unfold urMemRelease
  split
  · split
    · exact h₁.setRefCount _ _
    · exact h₁
  · exact h₁

/-- What a call does after its checks, and what the conditions say of it then. -/
inductive Stepped (a : Adapter) (w : World) (c : Call) : World → Prop
  | refused : Stepped a w c w
  | create {size : Nat} {copyIn pinned : Bool} {host : Contents} {junk : Nat → Contents}
      (hsafe : w.Safe a c → ¬ (copyIn = true ∧ pinned = true)) :
      Stepped a w c (w.urMemBufferCreate size copyIn pinned host junk)
  | partition {h origin size : Nat} (hl : w.Live h) :
      Stepped a w c (w.urMemBufferPartition h origin size)
  | writeHost {r : Nat} {contents : Contents} : Stepped a w c (w.writeHost r contents)
  | write {q h : Nat} {offsets : List Nat} {source : Nat → Byte} (hl : w.Live h)
      (hsafe : w.Safe a c → w.WriteSafe h (w.device q) offsets) :
      Stepped a w c (w.enqueueWrite a q h offsets source)
  | read {q h : Nat} {offsets : List Nat} {blocking : Bool} (hl : w.Live h)
      (hsafe : w.Safe a c → w.ReadSafe h (w.device (w.readQueue q h)) offsets)
      (hlocal : w.Local c → blocking = false → w.readQueue q h = q) :
      Stepped a w c (w.enqueueRead q h offsets blocking)
  | copy {q src dst : Nat} {srcOffsets dstOffsets : List Nat} (hl : w.Live src ∧ w.Live dst)
      (hsafe : w.Safe a c → w.CopySafe q src dst srcOffsets dstOffsets) :
      Stepped a w c (w.enqueueCopy q src dst srcOffsets dstOffsets)
  | launch {q : Nat} {args : List Arg} (hl : ∀ arg ∈ args, w.Live arg.mem)
      (hsafe : w.Safe a c → w.LaunchSafe a q args) :
      Stepped a w c (w.urEnqueueKernelLaunch a q args)
  | finish {q : Nat} : Stepped a w c (w.urQueueFinish q)
  | retain {h : Nat} (hl : w.Live h) : Stepped a w c (w.urMemRetain h)
  | release {h : Nat} (hl : w.Live h) (hdropped : w.Dropped c → w.ReleaseSafe h) :
      Stepped a w c (w.urMemRelease h)

variable {P : World → Call → Prop} {c : Call}

/-- A command whose check passes; the conditions ask for what it passes only. -/
theorem Stepped.ite {p : Prop} [Decidable p] {w₁ : World}
    (h : ¬ p → Stepped a w c w₁) : Stepped a w c (if p then w else w₁) := by
  split
  next => exact .refused
  next hp => exact h hp

/-- A call is made on live handles only. -/
theorem Stepped.of_live {p : Prop} [Decidable p] {w₁ : World}
    (hs : (if p then some w₁ else none) = some w') (h : p → Stepped a w c w₁) :
    Stepped a w c w' := by
  obtain ⟨hp, ⟨⟩⟩ := Option.ite_none_right_eq_some.mp hs
  exact h hp

/-- **Inversion of a step**: later lemmas take their cases from here. -/
theorem step_cases (hs : w.step a c = some w') : Stepped a w c w' := by
  cases c with
  | create => exact Option.some.inj hs ▸ .create id
  | partition => exact .of_live hs .partition
  | writeHost => exact Option.some.inj hs ▸ .writeHost
  | write =>
    exact .of_live hs fun hl => .ite fun hok => .write hl fun hsafe =>
      hsafe fun ha => not_not.mp fun hlt => hok ⟨ha, hlt⟩
  | writeRect => exact .of_live hs fun hl => .write hl id
  | fill =>
    exact .of_live hs fun hl => .ite fun hok => .write hl fun hsafe => hsafe (not_not.mp hok)
  | read =>
    exact .of_live hs fun hl => .ite fun hok => .read hl (fun hsafe =>
      hsafe fun ha => not_not.mp fun hlt => hok ⟨ha, hlt⟩) id
  | readRect => exact .of_live hs fun hl => .ite fun _ => .read hl id id
  | copy =>
    exact .of_live hs fun hl => .ite fun hok => .copy hl fun hsafe => hsafe (by omega) (by omega)
  | copyRect => exact .of_live hs fun hl => .copy hl id
  | launch => exact .of_live hs fun hl => .launch (fun arg harg => (hl arg harg).1) id
  | finish => exact Option.some.inj hs ▸ .finish
  | retain => exact .of_live hs .retain
  | release => exact .of_live hs fun hl => .release hl id

/-- **Step lemma.** A safe call keeps what was read right and within the regions. -/
theorem Good.step (hg : w.Good) (hsafe : w.Safe a c) (hs : w.step a c = some w') : w'.Good := by
  cases step_cases hs with
  | refused => exact hg
  | create hcopy => exact hg.of_quiet (quiet_create ..) (hg.coherent.create (hcopy hsafe) _ _)
  | partition hl => exact hg.of_quiet (quiet_partition ..) (hg.coherent.partition hl.1 _ _)
  | writeHost =>
    exact hg.of_quiet ⟨rfl, rfl, rfl, rfl⟩
      (SameMems.coherent (w := w) ⟨rfl, rfl, rfl⟩ rfl rfl rfl hg.coherent)
  | write hl hwrite => exact hg.enqueueWrite a hl.1 _ (hwrite hsafe)
  | read hl hread => exact hg.enqueueRead hl.1 (hread hsafe)
  | copy hl hcopy =>
    obtain ⟨hr, hw, halone⟩ := hcopy hsafe
    exact hg.enqueueCopy hl.1.1 hl.2.1 hr hw halone
  | launch hl hlaunch =>
    exact hg.urEnqueueKernelLaunch (fun arg harg => (hl arg harg).1) (hlaunch hsafe)
  | finish =>
    exact ⟨SameMems.coherent (w := w) ⟨rfl, rfl, rfl⟩ rfl rfl rfl hg.coherent, hg.faithful,
      hg.strays⟩
  | retain => exact hg.setRefCount _ _
  | release => exact hg.release _

/-- At the start there is no buffer, and nothing was read. -/
theorem initial_good (h : w.Initial) : w.Good := by
  refine ⟨⟨fun h' hlt => absurd hlt ?_, fun r hlt => absurd hlt ?_⟩, fun p hp => ?_, h.strays⟩
  · have := h.count
    omega
  · have := h.count
    omega
  · rw [h.observed] at hp
    exact absurd hp List.not_mem_nil

/-- Induction on the run: each call is safe in the world it is made in. -/
theorem Reached.good (hP : ∀ w c, P w c → w.Safe a c) (h : w.Reached a P) : w.Good := by
  induction h with
  | start hi => exact initial_good hi
  | step _ hp hs ih => exact ih.step (hP _ _ hp) hs

/-! ## References and reads in flight -/

/-- The references are right, and every read in flight is on its own queue. -/
structure Settled (w : World) : Prop where
  pending : ∀ p ∈ w.pending, p.1 = p.2
  missed : w.missed = []

theorem Settled.idle (hs : w.Settled) (hi : Idle w w') : w'.Settled := by
  refine ⟨?_, hi.missed.trans hs.missed⟩
  rw [hi.pending]
  exact hs.pending

theorem Settled.quiet (hs : w.Settled) (hq : Quiet w w') : w'.Settled := by
  refine ⟨?_, hq.missed.trans hs.missed⟩
  rw [hq.pending]
  exact hs.pending

/-- A read that may stay in flight is on its own queue. -/
theorem Settled.enqueueRead (hs : w.Settled) {offsets : List Nat} {blocking : Bool}
    (hlocal : blocking = false → w.readQueue q h = q) :
    (w.enqueueRead q h offsets blocking).Settled := by
  unfold World.enqueueRead
  split
  next => exact hs.idle (idle_peek ..)
  next hb =>
    refine ⟨fun p hp => ?_, hs.missed⟩
    rcases List.mem_cons.mp hp with rfl | hp
    · exact (hlocal (by simpa using hb)).symm
    · exact hs.pending p hp

/-- A read that was enqueued on the queue runs on it, so the wait misses none. -/
theorem Settled.urQueueFinish (hs : w.Settled) (q : Nat) : (w.urQueueFinish q).Settled := by
  refine ⟨fun p hp => hs.pending p (List.mem_filter.mp hp).1, ?_⟩
  -- what is left runs on other queues, so it was enqueued on them
  have hnone : (w.pending.filter fun p => decide (p.2 ≠ q)).filter (fun p => decide (p.1 = q)) =
      [] := by
    rw [List.filter_eq_nil_iff]
    intro p hp hq
    obtain ⟨hmem, hne⟩ := List.mem_filter.mp hp
    have := hs.pending p hmem
    simp only [decide_eq_true_eq] at hq hne
    exact hne (this ▸ hq)
  show _ ++ w.missed = []
  rw [hnone, hs.missed]
  rfl

theorem Settled.step (h : w.Settled) (hlocal : w.Local c) (hs : w.step a c = some w') :
    w'.Settled := by
  cases step_cases hs with
  | refused => exact h
  | create => exact h.quiet (quiet_create ..)
  | partition => exact h.quiet (quiet_partition ..)
  | writeHost => exact ⟨h.pending, h.missed⟩
  | write => exact h.idle (idle_enqueueWrite ..)
  | read _ _ hread => exact h.enqueueRead (hread hlocal)
  | copy => exact h.idle (idle_enqueueCopy ..)
  | launch => exact h.idle (idle_urEnqueueKernelLaunch ..)
  | finish => exact h.urQueueFinish _
  | retain => exact ⟨h.pending, h.missed⟩
  | release => exact h.quiet (quiet_release ..)

/-- The new handle has no queue recorded, so it counts for none. -/
theorem RefsOk.create (hr : w.RefsOk) (size : Nat) (copyIn pinned : Bool) (host : Contents)
    (junk : Nat → Contents) : (w.urMemBufferCreate size copyIn pinned host junk).RefsOk := by
  unfold urMemBufferCreate
  split
  next => exact hr
  next =>
    refine hr.congr (fun h' hle => ?_) (fun h' q => ?_) rfl
    · have hle' : w.count + 1 ≤ h' := hle
      show (update w.mems _ _ h').refCount = 0
      rw [update_of_ne (by omega)]
      exact hr.fresh h' (by omega)
    · show (update w.mems _ _ h').holds q = _
      by_cases hne : h' = w.count
      · subst hne
        have := hr.fresh w.count (Nat.le_refl _)
        rw [Mem.holds, Mem.holds, if_neg (by simp), if_neg (by omega)]
      · rw [update_of_ne hne]

/-- The sub-buffer counts for no queue; the parent gains a reference and was alive before. -/
theorem RefsOk.partition (hr : w.RefsOk) (hh : w.Live h) (origin size : Nat) :
    (w.urMemBufferPartition h origin size).RefsOk := by
  unfold urMemBufferPartition
  dsimp only
  split
  next => exact hr
  next =>
    have hlt := hh.1
    refine hr.congr (fun h' hle => ?_) (fun h' q => ?_) rfl
    · have hle' : w.count + 1 ≤ h' := hle
      show (update (update w.mems h _) _ _ h').refCount = 0
      rw [update_of_ne (by omega), update_of_ne (by omega)]
      exact hr.fresh h' (by omega)
    · show (update (update w.mems h _) _ _ h').holds q = _
      by_cases hne : h' = w.count
      · subst hne
        have := hr.fresh w.count (Nat.le_refl _)
        rw [Mem.holds, Mem.holds, if_neg (by simp), if_neg (by omega)]
      · rw [update_of_ne hne]
        by_cases heq : h' = h
        · subst heq
          exact holds_retain hh q
        · rw [update_of_ne heq]

theorem RefsOk.retain (hr : w.RefsOk) (hh : w.Live h) : (w.urMemRetain h).RefsOk := by
  have hlt := hh.1
  refine hr.congr (fun h' hle => ?_) (fun h' q => ?_) rfl
  · have hle' : w.count ≤ h' := hle
    show (update w.mems h _ h').refCount = 0
    rw [update_of_ne (by omega)]
    exact hr.fresh h' hle'
  · show (update w.mems h _ h').holds q = _
    by_cases heq : h' = h
    · subst heq
      exact holds_retain hh q
    · rw [update_of_ne heq]

/-- The condition is used at a release alone. -/
theorem RefsOk.step (hr : w.RefsOk) (hdropped : w.Dropped c)
    (hs : w.step a c = some w') : w'.RefsOk := by
  cases step_cases hs with
  | refused => exact hr
  | create => exact hr.create ..
  | partition hl => exact hr.partition hl ..
  | writeHost => exact ⟨hr.fresh, hr.counted⟩
  | write hl => exact hr.enqueueWrite hl ..
  | read => exact hr.enqueueRead ..
  | copy => exact hr.enqueueCopy ..
  | launch hl => exact hr.urEnqueueKernelLaunch hl
  | finish => exact ⟨hr.fresh, hr.counted⟩
  | retain hl => exact hr.retain hl
  | release hl hrelease => exact hr.urMemRelease hl (hrelease hdropped)

theorem Reached.settled (hP : ∀ w c, P w c → w.Local c) (h : w.Reached a P) : w.Settled := by
  induction h with
  | start hi =>
    refine ⟨fun p hp => ?_, hi.missed⟩
    rw [hi.pending] at hp
    exact absurd hp List.not_mem_nil
  | step _ hp hs ih => exact ih.step (hP _ _ hp) hs

theorem Reached.refsOk (hP : ∀ w c, P w c → w.Dropped c) (h : w.Reached a P) : w.RefsOk := by
  induction h with
  | @start w hi =>
    refine ⟨fun h _ => hi.mems h, fun q => ?_⟩
    rw [hi.queueRefs]
    refine Counted.none.congr fun h => if_neg ?_
    have := hi.mems h
    omega
  | step _ hp hs ih => exact ih.step (hP _ _ hp) hs

/-! ## Runs that can be evaluated -/

instance (w : World) (h : Nat) (offsets : List Nat) : Decidable (w.InRegion h offsets) :=
  inferInstanceAs (Decidable (∀ o ∈ offsets, _))

instance (w : World) (h : Nat) : Decidable (w.Whole h) := inferInstanceAs (Decidable (_ ∧ _))

instance (w : World) (h d : Nat) : (last : Option Nat) → Decidable (w.SourceSafe h d last)
  | none => inferInstanceAs (Decidable (_ → _ ∧ (_ ∨ _ ∧ ∀ i, i < _ → _)))
  | some _ => inferInstanceAs (Decidable (_ ∨ _ ∧ _))

instance (w : World) (h d : Nat) : Decidable (w.MigrateSafe h d) :=
  inferInstanceAs (Decidable (_ ∨ _))

instance (w : World) (h d : Nat) (offsets : List Nat) : Decidable (w.ReadSafe h d offsets) :=
  inferInstanceAs (Decidable (_ ∧ _))

instance (w : World) (h d : Nat) (offsets : List Nat) : Decidable (w.WriteSafe h d offsets) :=
  inferInstanceAs (Decidable (_ ∧ (_ ∨ ∀ i, i < _ → ∃ o ∈ offsets, _)))

instance (w : World) (q src dst : Nat) (srcOffsets dstOffsets : List Nat) :
    Decidable (w.CopySafe q src dst srcOffsets dstOffsets) :=
  inferInstanceAs (Decidable (_ ∧ _ ∧ _))

instance decidablePrepareSafe (a : Adapter) (q : Nat) :
    (w : World) → (args : List Arg) → Decidable (PrepareSafe a q w args)
  | _, [] => .isTrue trivial
  | w, arg :: rest =>
    have := decidablePrepareSafe a q (w.prepareArg a q arg) rest
    inferInstanceAs (Decidable (w.MigrateSafe arg.mem (w.device q) ∧
      (_ → World.Current _ _ _) ∧ PrepareSafe a q (w.prepareArg a q arg) rest))

instance (w : World) (d : Nat) (args : List Arg) : Decidable (w.RunSafe d args) :=
  inferInstanceAs (Decidable (∀ arg ∈ args, _ ∧ (arg.writes ≠ [] → _ ∧ _)))

instance (a : Adapter) (w : World) (q : Nat) (args : List Arg) :
    Decidable (w.LaunchSafe a q args) :=
  inferInstanceAs (Decidable ((_ → _) ∧ _))

instance (a : Adapter) (w : World) : (c : Call) → Decidable (w.Safe a c)
  | .create .. => inferInstanceAs (Decidable (¬ (_ ∧ _)))
  | .write .. => inferInstanceAs (Decidable ((_ → _) → _))
  | .writeRect .. => inferInstanceAs (Decidable (World.WriteSafe _ _ _ _))
  | .fill .. => inferInstanceAs (Decidable (_ → _))
  | .read .. => inferInstanceAs (Decidable ((_ → _) → _))
  | .readRect .. => inferInstanceAs (Decidable (World.ReadSafe _ _ _ _))
  | .copy .. => inferInstanceAs (Decidable (_ → _ → _))
  | .copyRect .. => inferInstanceAs (Decidable (World.CopySafe _ _ _ _ _ _))
  | .launch .. => inferInstanceAs (Decidable (World.LaunchSafe _ _ _ _))
  | .partition .. | .writeHost .. | .finish _ | .retain _ | .release _ => .isTrue trivial

instance (w : World) : (c : Call) → Decidable (w.Local c)
  | .read .. | .readRect .. => inferInstanceAs (Decidable (_ → _))
  | .create .. | .write .. | .writeRect .. | .fill .. | .copy .. | .copyRect .. | .launch ..
  | .partition .. | .writeHost .. | .finish _ | .retain _ | .release _ => .isTrue trivial

instance (w : World) (h : Nat) : Decidable (w.ReleaseSafe h) :=
  inferInstanceAs (Decidable (_ → _ ∧ ∀ p ∈ _, _ → _))

instance (w : World) : (c : Call) → Decidable (w.Dropped c)
  | .release _ => inferInstanceAs (Decidable (World.ReleaseSafe _ _))
  | .read .. | .readRect .. | .create .. | .write .. | .writeRect .. | .fill .. | .copy ..
  | .copyRect .. | .launch .. | .partition .. | .writeHost .. | .finish _ | .retain _ =>
    .isTrue trivial

/-- Two devices; the queues take turns. -/
def twoDevices : Context :=
  { devices := 2, device := fun q => q % 2, device_lt := fun q => Nat.mod_lt q (by decide) }

/-- A context without buffers. -/
def init (context : Context) : World :=
  { context, count := 0,
    mems := fun _ =>
      { parent := none, root := 0, offset := 0, size := 0, region := 0, pinned := false,
        hostPtr := false, migrated := fun _ => false, lastQueue := none, refCount := 0 }
    memory := fun _ _ _ => 0, host := fun _ _ => 0, initial := fun _ _ => 0,
    latest := fun _ _ => none, observed := [], strays := 0, pending := [], missed := [],
    queueRefs := fun _ => 0 }

theorem initial_init (context : Context) : (init context).Initial :=
  ⟨rfl, fun _ => rfl, rfl, rfl, rfl, rfl, rfl⟩

def run (a : Adapter) (w : World) : List Call → Option World
  | [] => some w
  | c :: rest => (w.step a c).bind fun w' => w'.run a rest

/-- The same, stopping at a call that does not meet the condition. -/
def runSafe (a : Adapter) (P : World → Call → Prop) [∀ w c, Decidable (P w c)] (w : World) :
    List Call → Option World
  | [] => some w
  | c :: rest => if P w c then (w.step a c).bind fun w' => w'.runSafe a P rest else none

theorem Reached.runSafe [∀ w c, Decidable (P w c)]
    (h : w.Reached a P) (calls : List Call) (hrun : w.runSafe a P calls = some w') :
    w'.Reached a P := by
  induction calls generalizing w with
  | nil =>
    obtain rfl := Option.some.inj hrun
    exact h
  | cons c rest ih =>
    obtain ⟨hp, hrest⟩ := Option.ite_none_right_eq_some.mp hrun
    obtain ⟨w₁, hstep, hrest⟩ := Option.bind_eq_some_iff.mp hrest
    exact ih (h.step hp hstep) hrest

end World

/-! ## CUDA -/

/-- **CUDA buffers are coherent.** Every byte read is the one last written on any
device, no byte outside of a region is touched, and no finish returns without a
read of its queue. -/
theorem cuda_buffers_coherent {w : World}
    (h : w.Reached .cuda fun w c => w.Safe .cuda c ∧ w.Local c) :
    w.Faithful ∧ w.strays = 0 ∧ w.missed = [] :=
  ⟨(h.good fun _ _ hp => hp.1).faithful, (h.good fun _ _ hp => hp.1).strays,
    (h.settled fun _ _ hp => hp.2).missed⟩

/-- A buffer and a sub-buffer of it, filled on one device, used by a kernel on the
other, copied and read. -/
def sharedCalls : List Call :=
  [.create 4 true false (fun i => .ofNat i) (fun _ _ => 0), .partition 0 2 2,
    .fill 0 0 [7] 0 2, .launch 1 [⟨0, .readWrite, [0, 1, 2, 3], [(3, 9)]⟩],
    .read 1 1 0 2 false, .create 2 false false (fun _ => 0) (fun _ _ => 5), .finish 1,
    .write 1 2 0 2 (fun _ => 1), .copy 1 0 2 2 0 2, .read 1 2 0 2 true]

theorem cuda_buffers_coherent_shared : ∃ w : World,
    (World.init World.twoDevices).runSafe .cuda (fun w c => w.Safe .cuda c ∧ w.Local c)
      sharedCalls = some w ∧
      w.observed.map (·.1) = [2, 9, 2, 9, 2, 9, 7, 7, 2, 3] ∧
      w.Faithful ∧ w.strays = 0 ∧ w.missed = [] :=
  ⟨_, rfl, by decide +kernel, cuda_buffers_coherent
    ((World.Reached.start (World.initial_init World.twoDevices)).runSafe sharedCalls rfl)⟩

/-- Two halves of a buffer are written on two devices; a sub-buffer is written
behind its region; an offset wraps past the check; and a read goes to the queue that
wrote last. -/
theorem cuda_buffers_incoherent :
    ((World.init World.twoDevices).run .cuda
        [.create 2 true false (fun _ => 1) (fun _ _ => 0), .write 0 0 0 1 (fun _ => 7),
          .write 1 0 1 1 (fun _ => 8), .read 1 0 0 2 true]).map
      (fun w => w.observed) = some [(1, some 7), (8, some 8)] ∧
    ((World.init World.twoDevices).run .cuda
        [.create 4 true false (fun _ => 1) (fun _ _ => 0), .partition 0 0 2,
          .write 0 1 2 2 (fun _ => 7)]).map (fun w => w.strays) = some 2 ∧
    ((World.init World.twoDevices).run .cuda
        [.create 8 true false (fun _ => 1) (fun _ _ => 0),
          .write 0 0 (2 ^ 64 - 1) 2 (fun _ => 7)]).map (fun w => w.strays) = some 1 ∧
    ((World.init World.twoDevices).run .cuda
        [.create 2 true false (fun _ => 1) (fun _ _ => 0), .write 0 0 0 2 (fun _ => 7),
          .read 1 0 0 2 false, .finish 1]).map (fun w => w.missed) = some [(1, 0)] := by
  decide

/-! ## HIP -/

/-- **HIP buffers are coherent.** Every byte read is the one last written on any
device, no byte outside of a region is touched, and a queue is referenced only by
live buffers last written on it. -/
theorem hip_buffers_coherent {w : World}
    (h : w.Reached .hip fun w c => w.Safe .hip c ∧ w.Dropped c) :
    w.Faithful ∧ w.strays = 0 ∧
      ∀ q, (∀ h, w.Live h → (w.mems h).lastQueue ≠ some q) → w.queueRefs q = 0 :=
  ⟨(h.good fun _ _ hp => hp.1).faithful, (h.good fun _ _ hp => hp.1).strays,
    fun _ hq => (h.refsOk fun _ _ hp => hp.2).dropped hq⟩

theorem hip_buffers_coherent_shared : ∃ w : World,
    (World.init World.twoDevices).runSafe .hip (fun w c => w.Safe .hip c ∧ w.Dropped c)
      (sharedCalls ++ [.release 1]) = some w ∧
      w.observed.map (·.1) = [2, 9, 2, 9, 2, 9, 7, 7, 2, 3] ∧
      w.Faithful ∧ w.strays = 0 ∧
      ∀ q, (∀ h, w.Live h → (w.mems h).lastQueue ≠ some q) → w.queueRefs q = 0 :=
  ⟨_, rfl, by decide +kernel, hip_buffers_coherent
    ((World.Reached.start (World.initial_init World.twoDevices)).runSafe
      (sharedCalls ++ [.release 1]) rfl)⟩

/-- Two halves of a buffer are written on two devices; a copy goes to the other
device than the last write; a sub-buffer is written behind its region; another one
begins in front of its buffer; pinned memory never gets the contents to copy in; and
a released buffer keeps its reference on the queue. -/
theorem hip_buffers_incoherent :
    ((World.init World.twoDevices).run .hip
        [.create 2 true false (fun _ => 1) (fun _ _ => 0), .write 0 0 0 1 (fun _ => 7),
          .write 1 0 1 1 (fun _ => 8), .read 1 0 0 2 true]).map
      (fun w => w.observed) = some [(1, some 7), (8, some 8)] ∧
    ((World.init World.twoDevices).run .hip
        [.create 1 true false (fun _ => 1) (fun _ _ => 0), .create 1 true false (fun _ => 2)
            (fun _ _ => 0), .write 0 1 0 1 (fun _ => 7), .copy 1 0 1 0 0 1, .read 1 1 0 1 true]).map
      (fun w => w.observed.head?) = some (some (7, some 1)) ∧
    ((World.init World.twoDevices).run .hip
        [.create 4 true false (fun _ => 1) (fun _ _ => 0), .partition 0 0 2,
          .write 0 1 2 2 (fun _ => 7)]).map (fun w => w.strays) = some 2 ∧
    ((World.init World.twoDevices).run .hip
        [.create 8 true false (fun _ => 1) (fun _ _ => 0), .partition 0 (2 ^ 64 - 1) 2,
          .write 0 1 0 2 (fun _ => 7)]).map (fun w => w.strays) = some 1 ∧
    ((World.init World.twoDevices).run .hip
        [.create 1 true true (fun _ => 1) (fun _ _ => 0), .read 0 0 0 1 true]).map
      (fun w => w.observed) = some [(0, some 1)] ∧
    ((World.init World.twoDevices).run .hip
        [.create 1 true false (fun _ => 1) (fun _ _ => 0), .write 0 0 0 1 (fun _ => 7),
          .release 0]).map (fun w => ((w.mems 0).refCount, w.queueRefs 0)) = some (0, 1) := by
  decide

/-! ## References -/

/-- The live buffers last written on a queue. -/
def World.writtenOn (w : World) (q : Nat) : Finset Nat :=
  (Finset.range w.count).filter fun h => 0 < (w.mems h).refCount ∧ (w.mems h).lastQueue = some q

/-- **The references on a queue** are as many as the live buffers last written on it. -/
theorem queue_references_counted {a : Adapter} {w : World} (h : w.Reached a World.Dropped)
    (q : Nat) : w.queueRefs q = (w.writtenOn q).card := by
  have hr := h.refsOk fun _ _ hp => hp
  refine (hr.counted q).unique ⟨Finset.val _, fun h => ?_, rfl⟩
  rw [Multiset.count_eq_of_nodup (Finset.nodup _)]
  refine if_congr ?_ rfl rfl
  rw [Finset.mem_val, World.writtenOn, Finset.mem_filter, Finset.mem_range, and_iff_right_iff_imp]
  -- a handle that does not exist holds nothing
  intro hheld
  by_contra hlt
  have := hr.fresh h (by omega)
  omega

theorem queue_references_counted_shared : ∃ w : World,
    (World.init World.twoDevices).runSafe .cuda World.Dropped sharedCalls = some w ∧
      w.queueRefs 1 = (w.writtenOn 1).card :=
  ⟨_, rfl, queue_references_counted (a := .cuda)
    ((World.Reached.start (World.initial_init World.twoDevices)).runSafe sharedCalls rfl) 1⟩

end UnifiedRuntime.Buffers
