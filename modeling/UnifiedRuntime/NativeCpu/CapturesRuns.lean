import UnifiedRuntime.NativeCpu.Captures

/-!
# Launches capture their arguments

The pool is cut up by local argument and then by thread, so that tasks that agree on the list
of local arguments have ranges of their own. A task is ready as long as the storage of its
values and the pool that it knows are left alone.

- `slot_lt`, `slots_apart`: where the ranges of a list are.
- `Ready.passes`, `Ready.apart`: what a task that is ready is passed.
- `Inv.step`: one call that meets the condition.
- `captures_right`: all of it for a run.
-/

namespace UnifiedRuntime.NativeCpu.Captures

/-! ## The pool's layout -/

variable {info before after : List LocalArgInfo} {i j m : Nat} {size : UInt64} {h : Heap}
  {k : Kernel} {args : Nat → Option Arg}

theorem total_append (l l' : List LocalArgInfo) (m : Nat) :
    total (l ++ l') m = total l m + total l' m := by
  unfold total
  rw [List.map_append, List.sum_append]

theorem total_cons (entry : LocalArgInfo) (l : List LocalArgInfo) (m : Nat) :
    total (entry :: l) m = entry.argSize.toNat * m + total l m := rfl

theorem total_mono (info : List LocalArgInfo) {m n : Nat} (hmn : m ≤ n) :
    total info m ≤ total info n := by
  induction info with
  | nil => exact Nat.le_refl _
  | cons entry l ih =>
    exact Nat.add_le_add (Nat.mul_le_mul_left _ hmn) ih

/-- The entry that counts for an index, and where its ranges start. -/
structure Slot (info : List LocalArgInfo) (i : Nat) (size : UInt64) (m start : Nat) : Prop where
  split : ∃ before after, info = before ++ ⟨i, size⟩ :: after ∧
    (∀ entry ∈ after, entry.argIndex ≠ i) ∧ start = total before m

theorem slot_of_localSize (hsize : k.localSize i = some size) (m : Nat) :
    ∃ start, Slot k.localArgInfo i size m start := by
  obtain ⟨⟨index, argSize⟩, hfind, hargSize⟩ := Option.map_eq_some_iff.mp hsize
  obtain ⟨hindex, back, front, hrev, hnone⟩ := List.find?_eq_some_iff_append.mp hfind
  have hindex : index = i := beq_iff_eq.mp hindex
  subst hindex hargSize
  refine ⟨total front.reverse m, front.reverse, back.reverse, ?_, ?_, rfl⟩
  · rw [← List.reverse_reverse k.localArgInfo, hrev, List.reverse_append, List.reverse_cons,
      List.append_assoc]
    rfl
  · intro entry hentry heq
    have hno := hnone entry (List.mem_reverse.mp hentry)
    rw [heq] at hno
    simp at hno

theorem localSize_none (hnone : k.localSize i = none) :
    ∀ entry ∈ k.localArgInfo, entry.argIndex ≠ i := by
  intro entry hentry heq
  have hfind := List.find?_eq_none.mp (Option.map_eq_none_iff.mp hnone) entry
    (List.mem_reverse.mpr hentry)
  exact hfind (beq_iff_eq.mpr heq)

/-- A range of a slot is inside the pool. -/
theorem slot_lt {start t : Nat} (hslot : Slot info i size m start) (ht : t < m) :
    start + size.toNat * t + size.toNat ≤ total info m := by
  obtain ⟨before, after, rfl, -, rfl⟩ := hslot.split
  have hmul : size.toNat * (t + 1) ≤ size.toNat * m := Nat.mul_le_mul_left _ ht
  rw [Nat.mul_succ] at hmul
  rw [total_append]
  show _ ≤ total before m + (size.toNat * m + total after m)
  omega

/-- **Slots of different indices are apart**, for all threads. -/
theorem slots_apart {size' : UInt64} {start start' t t' : Nat} (hslot : Slot info i size m start)
    (hslot' : Slot info j size' m start') (hij : i ≠ j) (ht : t < m) (ht' : t' < m) :
    start + size.toNat * t + size.toNat ≤ start' + size'.toNat * t' ∨
      start' + size'.toNat * t' + size'.toNat ≤ start + size.toNat * t := by
  obtain ⟨before, after, hinfo, -, rfl⟩ := hslot.split
  obtain ⟨before', after', hinfo', -, rfl⟩ := hslot'.split
  have hmul : size.toNat * (t + 1) ≤ size.toNat * m := Nat.mul_le_mul_left _ ht
  have hmul' : size'.toNat * (t' + 1) ≤ size'.toNat * m := Nat.mul_le_mul_left _ ht'
  rw [Nat.mul_succ] at hmul hmul'
  rcases List.append_eq_append_iff.mp (hinfo.symm.trans hinfo') with
    ⟨mid, hbefore, hmid⟩ | ⟨mid, hbefore, hmid⟩
  · cases mid with
    | nil =>
      exact absurd (congrArg LocalArgInfo.argIndex (List.cons.inj hmid).1) hij
    | cons entry mid =>
      obtain rfl := (List.cons.inj hmid).1
      rw [hbefore, total_append]
      left
      show _ ≤ total before m + (size.toNat * m + total mid m) + _
      omega
  · cases mid with
    | nil =>
      exact absurd (congrArg LocalArgInfo.argIndex (List.cons.inj hmid).1).symm hij
    | cons entry mid =>
      obtain rfl := (List.cons.inj hmid).1
      rw [hbefore, total_append]
      right
      show _ ≤ total before' m + (size'.toNat * m + total mid m) + _
      omega

/-- The slots of one index are one slot. -/
theorem slot_unique {size' : UInt64} {start start' : Nat} (hslot : Slot info i size m start)
    (hslot' : Slot info i size' m start') : size = size' ∧ start = start' := by
  obtain ⟨before, after, hinfo, hafter, rfl⟩ := hslot.split
  obtain ⟨before', after', hinfo', hafter', rfl⟩ := hslot'.split
  rcases List.append_eq_append_iff.mp (hinfo.symm.trans hinfo') with
    ⟨mid, hbefore, hmid⟩ | ⟨mid, hbefore, hmid⟩
  · cases mid with
    | nil =>
      rw [List.append_nil] at hbefore
      exact ⟨congrArg LocalArgInfo.argSize (List.cons.inj hmid).1, by rw [hbefore]⟩
    | cons entry mid =>
      have hmem : (⟨i, size'⟩ : LocalArgInfo) ∈ after := by
        rw [(List.cons.inj hmid).2]
        exact List.mem_append_right _ List.mem_cons_self
      exact absurd rfl (hafter _ hmem)
  · cases mid with
    | nil =>
      rw [List.append_nil] at hbefore
      exact ⟨(congrArg LocalArgInfo.argSize (List.cons.inj hmid).1).symm, by rw [hbefore]⟩
    | cons entry mid =>
      have hmem : (⟨i, size⟩ : LocalArgInfo) ∈ after' := by
        rw [(List.cons.inj hmid).2]
        exact List.mem_append_right _ List.mem_cons_self
      exact absurd rfl (hafter' _ hmem)

/-! ## Placing the local arguments -/

variable {pool : Ptr} {numThreads threadId offset : UInt64} {Indices : List Ptr}

/-- The offset behind some entries. -/
theorem offset_toNat : ∀ (info : List LocalArgInfo) (offset : UInt64),
    offset.toNat + total info numThreads.toNat < 2 ^ 64 →
      (info.foldl (fun size entry => size + entry.argSize * numThreads) offset).toNat =
        offset.toNat + total info numThreads.toNat
  | [], offset, _ => rfl
  | entry :: info, offset, hfit => by
    rw [total_cons] at hfit ⊢
    have hnext : (offset + entry.argSize * numThreads).toNat =
        offset.toNat + entry.argSize.toNat * numThreads.toNat := by
      rw [UInt64.toNat_add, UInt64.toNat_mul]
      omega
    rw [List.foldl_cons, offset_toNat info _ (by omega)]
    omega

theorem reqSize_toNat (hfit : total info numThreads.toNat < 2 ^ 64) :
    (Kernel.reqSize info numThreads).toNat = total info numThreads.toNat := by
  have hzero : (0 : UInt64).toNat = 0 := rfl
  exact (offset_toNat info 0 (by omega)).trans (by omega)

theorem placeLocals_length : ∀ (info : List LocalArgInfo) (offset : UInt64) (Indices : List Ptr),
    (Kernel.placeLocals pool numThreads threadId info offset Indices).length = Indices.length
  | [], _, _ => rfl
  | entry :: info, offset, Indices => by
    unfold Kernel.placeLocals
    rw [placeLocals_length info, List.length_set]

theorem placeLocals_other : ∀ (info : List LocalArgInfo) (offset : UInt64) (Indices : List Ptr),
    (∀ entry ∈ info, entry.argIndex ≠ i) →
      (Kernel.placeLocals pool numThreads threadId info offset Indices).getD i .null =
        Indices.getD i .null
  | [], _, _, _ => rfl
  | entry :: info, offset, Indices, hother => by
    unfold Kernel.placeLocals
    rw [placeLocals_other info _ _ fun e he => hother e (List.mem_cons_of_mem _ he),
      getD_set_ne (hother entry List.mem_cons_self)]

theorem placeLocals_at : ∀ (before : List LocalArgInfo) (offset : UInt64) (Indices : List Ptr),
    i < Indices.length → (∀ entry ∈ after, entry.argIndex ≠ i) →
      (Kernel.placeLocals pool numThreads threadId (before ++ ⟨i, size⟩ :: after) offset
        Indices).getD i .null =
        pool.add (before.foldl (fun size entry => size + entry.argSize * numThreads) offset +
          size * threadId).toNat
  | [], offset, Indices, hi, hafter => by
    rw [List.nil_append]
    unfold Kernel.placeLocals
    rw [placeLocals_other _ _ _ hafter, getD_set_self hi]
    rfl
  | entry :: before, offset, Indices, hi, hafter => by
    rw [List.cons_append]
    unfold Kernel.placeLocals
    rw [placeLocals_at before _ _ (by rw [List.length_set]; exact hi) hafter]
    rfl

/-- **Where the memory of a local argument is.** -/
theorem handleLocalArgs_at {start : Nat} (hi : i < k.Args.Indices.length)
    (hslot : Slot k.localArgInfo i size numThreads.toNat start)
    (hfit : total k.localArgInfo numThreads.toNat < 2 ^ 64)
    (hthread : threadId.toNat < numThreads.toNat) :
    (k.handleLocalArgs numThreads threadId).Args.Indices.getD i .null =
      k.localMemPool.add (start + size.toNat * threadId.toNat) := by
  have hlt := slot_lt hslot hthread
  obtain ⟨before, after, hinfo, hafter, rfl⟩ := hslot.split
  have hzero : (0 : UInt64).toNat = 0 := rfl
  show (Kernel.placeLocals _ _ _ k.localArgInfo 0 _).getD i .null = _
  rw [hinfo, placeLocals_at before 0 _ hi hafter, UInt64.toNat_add, UInt64.toNat_mul,
    offset_toNat before 0 (by omega)]
  congr 1
  omega

/-! ## Tasks that are ready -/

/-- The kernel has what its indices were set to. -/
structure Ready (h : Heap) (k : Kernel) (args : Nat → Option Arg) : Prop where
  set : ∀ i arg, args i = some arg → i < k.Args.Indices.length
  values : ∀ i bytes, args i = some (.value bytes) →
    ∃ id, k.Args.pointerAt i = .block id 0 ∧ h.blocks id = some bytes
  pointers : ∀ i p, args i = some (.pointer p) → k.Args.pointerAt i = p
  entries : ∀ i arg, args i = some arg → (∀ size, arg ≠ .localMem size) → k.localSize i = none
  locals : ∀ i size, args i = some (.localMem size) → k.localSize i = some size

/-- The pool has room for the local arguments of all threads. -/
structure PoolReady (h : Heap) (n : Nat) (k : Kernel) : Prop where
  fits : total k.localArgInfo n < 2 ^ 64
  block : total k.localArgInfo n = 0 ∨ ∃ id bytes, k.localMemPool = .block id 0 ∧
    h.blocks id = some bytes ∧ total k.localArgInfo n ≤ bytes.length

theorem Ready.nonempty (hr : Ready h k args) (hlocal : args i = some (.localMem size)) :
    k.localArgInfo ≠ [] := by
  intro hnil
  have hsize := hr.locals i size hlocal
  unfold Kernel.localSize at hsize
  rw [hnil] at hsize
  cases hsize

/-- **What a kernel that is ready passes** to a thread. -/
theorem Ready.passes {n : Nat} (hr : Ready h k args)
    (hpool : k.localArgInfo ≠ [] → PoolReady h n k ∧ numThreads.toNat ≤ n)
    (hthread : threadId.toNat < numThreads.toNat) :
    Passes h (k.handleLocalArgs numThreads threadId).Args.Indices args := by
  have hkept : ∀ i arg, args i = some arg → (∀ size, arg ≠ .localMem size) →
      (k.handleLocalArgs numThreads threadId).Args.Indices.getD i .null = k.Args.pointerAt i :=
    fun i arg hlast hnot => placeLocals_other _ _ _ (localSize_none (hr.entries i arg hlast hnot))
  intro i arg hlast
  cases arg with
  | value bytes =>
    obtain ⟨id, hptr, hblock⟩ := hr.values i bytes hlast
    exact ⟨id, (hkept i _ hlast (fun _ => nofun)).trans hptr, hblock⟩
  | pointer p => exact (hkept i _ hlast (fun _ => nofun)).trans (hr.pointers i p hlast)
  | localMem size =>
    obtain ⟨⟨hfits, hblock⟩, hn⟩ := hpool (hr.nonempty hlast)
    obtain ⟨start, hslot⟩ := slot_of_localSize (hr.locals i size hlast) numThreads.toNat
    have hlt := slot_lt hslot hthread
    have hmono := total_mono k.localArgInfo hn
    rcases hblock with hnone | ⟨id, bytes, hid, hbytes, hlen⟩
    · left
      exact UInt64.toNat.inj (show size.toNat = 0 by omega)
    · right
      refine ⟨id, start + size.toNat * threadId.toNat, bytes, ?_, hbytes, by omega⟩
      rw [handleLocalArgs_at (hr.set i _ hlast) hslot (by omega) hthread, hid]
      show Ptr.block id (0 + _) = _
      rw [Nat.zero_add]

/-- **The local memory of threads is apart** where the kernels agree on the list. -/
theorem Ready.apart {k' : Kernel} {args' : Nat → Option Arg} {threadId' : UInt64}
    (hr : Ready h k args) (hr' : Ready h k' args') (hinfo : k'.localArgInfo = k.localArgInfo)
    (hpool : k'.localMemPool = k.localMemPool)
    (hfits : total k.localArgInfo numThreads.toNat < 2 ^ 64)
    (hthread : threadId.toNat < numThreads.toNat) (hthread' : threadId'.toNat < numThreads.toNat)
    (hne : i ≠ j ∨ threadId ≠ threadId') :
    LocalsApart (k.handleLocalArgs numThreads threadId).Args.Indices args i
      (k'.handleLocalArgs numThreads threadId').Args.Indices args' j := by
  intro size size' hlocal hlocal' id o o' hp hp'
  obtain ⟨start, hslot⟩ := slot_of_localSize (hr.locals i size hlocal) numThreads.toNat
  obtain ⟨start', hslot'⟩ := slot_of_localSize (hr'.locals j size' hlocal') numThreads.toNat
  rw [handleLocalArgs_at (hr.set i _ hlocal) hslot hfits hthread] at hp
  rw [handleLocalArgs_at (hr'.set j _ hlocal') hslot' (by rw [hinfo]; exact hfits) hthread',
    hpool] at hp'
  rw [hinfo] at hslot'
  cases hblock : k.localMemPool with
  | null =>
    rw [hblock] at hp
    cases hp
  | user addr =>
    rw [hblock] at hp
    cases hp
  | block pid base =>
    rw [hblock] at hp hp'
    obtain ⟨rfl, rfl⟩ := Ptr.block.inj hp
    obtain ⟨-, rfl⟩ := Ptr.block.inj hp'
    by_cases hij : i = j
    · subst hij
      obtain ⟨rfl, rfl⟩ := slot_unique hslot hslot'
      -- the ranges of one slot go by the thread
      have hthreads : threadId.toNat ≠ threadId'.toNat := fun heq =>
        hne.resolve_left (not_not_intro rfl) (UInt64.toNat.inj heq)
      rcases Nat.lt_or_gt_of_ne hthreads with hlt | hgt
      · have hmul : size.toNat * (threadId.toNat + 1) ≤ size.toNat * threadId'.toNat :=
          Nat.mul_le_mul_left _ hlt
        rw [Nat.mul_succ] at hmul
        omega
      · have hmul : size.toNat * (threadId'.toNat + 1) ≤ size.toNat * threadId.toNat :=
          Nat.mul_le_mul_left _ hgt
        rw [Nat.mul_succ] at hmul
        omega
    · have hslots := slots_apart hslot hslot' hij hthread hthread'
      omega

/-! ## The invariant -/

variable {s : System} {t : Task} {w w' : World}

/-- **A task that can run**: it is ready, the storage of its values is no other index's and not
the pool, and the pool it knows is the kernel's. -/
structure TaskInv (w : World) (n : UInt64) (t : Task) : Prop where
  ready : Ready w.heap t.kernel t.args
  owned : ∀ i j bytes bytes', t.args i = some (.value bytes) → w.last j = some (.value bytes') →
    w.pointerAt j = t.kernel.Args.pointerAt i → j = i
  apart : ∀ i bytes id offset, t.args i = some (.value bytes) →
    t.kernel.Args.pointerAt i = .block id 0 → w.kernel.localMemPool ≠ .block id offset
  pool : t.kernel.localArgInfo ≠ [] → total t.kernel.localArgInfo n.toNat < 2 ^ 64 ∧
    t.kernel.localMemPool = w.kernel.localMemPool ∧
    (total t.kernel.localArgInfo n.toNat = 0 ∨
      w.kernel.localMemPoolSize.toNat = total t.kernel.localArgInfo n.toNat)
  resized : t.resized = true → t.kernel.localArgInfo = []
  thread : t.threadId < n

structure Inv (s : System) : Prop where
  kept : Kept s.world
  live : s.world.kernel.localMemPoolSize ≠ 0 → s.world.kernel.localMemPool ≠ .null
  tasks : ∀ t ∈ s.tasks, TaskInv s.world s.numThreads t
  same : ∀ t ∈ s.tasks, ∀ t' ∈ s.tasks, t.kernel.localArgInfo ≠ [] →
    t'.kernel.localArgInfo ≠ [] → t'.kernel.localArgInfo = t.kernel.localArgInfo

theorem Inv.init (ock : Bool) (numThreads : UInt64) : Inv (.init ock numThreads) where
  kept := NativeCpu.Inv.create.kept
  live := fun h => absurd rfl h
  tasks := nofun
  same := nofun

/-- The pool of a task has room. -/
theorem Inv.poolReady (hinv : Inv s) (ht : t ∈ s.tasks) (hinfo : t.kernel.localArgInfo ≠ []) :
    PoolReady s.world.heap s.numThreads.toNat t.kernel := by
  obtain ⟨hfits, hpool, hsize⟩ := (hinv.tasks t ht).pool hinfo
  refine ⟨hfits, ?_⟩
  rcases hsize with hzero | hsize
  · exact Or.inl hzero
  · by_cases hnone : s.world.kernel.localMemPoolSize = 0
    · left
      rw [← hsize, hnone]
      rfl
    · rcases hinv.kept.pool with hnull | ⟨id, bytes, hid, hbytes, hlen⟩
      · exact absurd hnull (hinv.live hnone)
      · exact Or.inr ⟨id, bytes, hpool.trans hid, hbytes, by omega⟩

/-- A task without local arguments passes the pointers of its kernel. -/
theorem handleLocalArgs_nil (hinfo : k.localArgInfo = []) (n threadId : UInt64) :
    (k.handleLocalArgs n threadId).Args.Indices = k.Args.Indices := by
  show Kernel.placeLocals _ _ _ k.localArgInfo 0 _ = _
  rw [hinfo]
  rfl

theorem TaskInv.getArgs (h : TaskInv w numThreads t) :
    t.getArgs numThreads = (t.kernel.handleLocalArgs numThreads t.threadId).Args.Indices := by
  unfold Task.getArgs
  split
  next hresized => exact (handleLocalArgs_nil (h.resized hresized) numThreads t.threadId).symm
  next => rfl

/-- **The invariant is enough.** -/
theorem Inv.captured (hinv : Inv s) : Captured s := by
  have hthread : ∀ t ∈ s.tasks, t.threadId.toNat < s.numThreads.toNat := fun t ht =>
    UInt64.lt_iff_toNat_lt.mp (hinv.tasks t ht).thread
  have happart : ∀ t ∈ s.tasks, ∀ t' ∈ s.tasks, ∀ i j, i ≠ j ∨ t.threadId ≠ t'.threadId →
      LocalsApart (t.getArgs s.numThreads) t.args i (t'.getArgs s.numThreads) t'.args j := by
    intro t ht t' ht' i j hne size size' hlocal hlocal'
    have hinfo := (hinv.tasks t ht).ready.nonempty hlocal
    have hinfo' := (hinv.tasks t' ht').ready.nonempty hlocal'
    rw [(hinv.tasks t ht).getArgs, (hinv.tasks t' ht').getArgs]
    obtain ⟨hfits, hpool, -⟩ := (hinv.tasks t ht).pool hinfo
    obtain ⟨-, hpool', -⟩ := (hinv.tasks t' ht').pool hinfo'
    exact (hinv.tasks t ht).ready.apart (hinv.tasks t' ht').ready
      (hinv.same t ht t' ht' hinfo hinfo') (hpool'.trans hpool.symm) hfits (hthread t ht)
      (hthread t' ht') hne size size' hlocal hlocal'
  refine ⟨fun t ht => ?_, fun t ht i j hij => happart t ht t ht i j (Or.inl hij),
    fun t ht t' ht' hne i j => happart t ht t' ht' i j (Or.inr hne)⟩
  rw [(hinv.tasks t ht).getArgs]
  exact (hinv.tasks t ht).ready.passes (fun hinfo => ⟨hinv.poolReady ht hinfo, Nat.le_refl _⟩)
    (hthread t ht)

/-! ## Setting arguments -/

/-- The storage of a task's value, when a value is set. -/
theorem TaskInv.stored (h : TaskInv w numThreads t) (hkept : Kept w) {arg : List UInt8}
    (hroom : w.Owned i ∨ ∀ id, w.pointerAt i ≠ .block id 0) (hs : Stored w w' i arg)
    (hcaptured : ∀ bytes, t.args i = some (.value bytes) →
      t.kernel.Args.pointerAt i = w.pointerAt i → bytes = arg) :
    TaskInv w' numThreads t := by
  obtain ⟨id, hptr, hblock, hid, hothers⟩ := hs.block
  have hvalue : ∀ j bytes, t.args j = some (.value bytes) →
      ∃ id', t.kernel.Args.pointerAt j = .block id' 0 ∧ w'.heap.blocks id' = some bytes := by
    intro j bytes hlast
    obtain ⟨id', hptr', hblock'⟩ := h.ready.values j bytes hlast
    refine ⟨id', hptr', ?_⟩
    have hlt := hkept.fresh.lt hblock'
    by_cases hsame : w.pointerAt i = .block id' 0
    · -- the index has the storage that the task reads, and the value that is there stays
      obtain ⟨bytes', hbytes'⟩ : w.Owned i :=
        hroom.resolve_right fun hnone => hnone id' hsame
      obtain rfl := h.owned j i bytes bytes' hlast hbytes' (hsame.trans hptr'.symm)
      have harg := hcaptured bytes hlast (hptr'.trans hsame.symm)
      subst harg
      obtain ⟨hparam, id'', hptr'', hblock'', -⟩ := hkept.values i bytes' hbytes'
      obtain ⟨rfl, -⟩ := Ptr.block.inj (hsame.symm.trans hptr'')
      obtain rfl := Option.some.inj (hblock'.symm.trans hblock'')
      have hplace := hs.inPlace (hkept.set i _ hbytes') hparam
      obtain ⟨rfl, -⟩ := Ptr.block.inj (hptr.symm.trans (hplace.trans hsame))
      exact hblock
    · refine (hothers id' ?_ hsame).trans hblock'
      rintro rfl
      rcases hid with hge | ⟨-, heq⟩
      · omega
      · exact hsame heq
  refine
    { ready := ⟨h.ready.set, hvalue, h.ready.pointers, h.ready.entries, h.ready.locals⟩
      owned := fun j j' bytes bytes' hlast hlast' heq => ?_
      apart := fun j bytes id' offset hlast hptr' => ?_
      pool := ?_
      resized := h.resized
      thread := h.thread }
  · obtain ⟨id', hptr', hblock'⟩ := h.ready.values j bytes hlast
    rw [hs.last] at hlast'
    rcases World.last_record hlast' with ⟨rfl, -⟩ | ⟨hne, hold⟩
    · rw [hptr, hptr'] at heq
      obtain ⟨rfl, -⟩ := Ptr.block.inj heq
      rcases hid with hge | ⟨-, hcur⟩
      · have hlt := hkept.fresh.lt hblock'
        omega
      · obtain ⟨bytes'', hbytes''⟩ : w.Owned j' :=
          hroom.resolve_right fun hnone => hnone id hcur
        exact h.owned j j' bytes bytes'' hlast hbytes'' (hcur.trans hptr'.symm)
    · rw [(hs.others j' hne).1] at heq
      exact h.owned j j' bytes bytes' hlast hold heq
  · rw [hs.pool]
    exact h.apart j bytes id' offset hlast hptr'
  · rw [hs.pool, hs.poolSize]
    exact h.pool

/-- A pointer that is put at an index leaves the tasks alone. -/
theorem TaskInv.pointed (h : TaskInv w numThreads t) {p : Ptr} {info : List LocalArgInfo}
    {a : Arg} (ha : ∀ bytes, a ≠ .value bytes) : TaskInv (w.pointed i p info a) numThreads t := by
  refine ⟨h.ready, fun j j' bytes bytes' hlast hlast' heq => ?_, h.apart, h.pool, h.resized,
    h.thread⟩
  rcases World.last_record hlast' with ⟨-, heq'⟩ | ⟨hne, hold⟩
  · exact absurd heq'.symm (ha bytes')
  · have hsame := ((addPtrArg_spec w.kernel.Args i p).2.2.2 j' hne).1
    exact h.owned j j' bytes bytes' hlast hold (hsame.symm.trans heq)

/-- A world in which the tasks, the values and the pool are as they were. -/
theorem Inv.world (hinv : Inv s) (hkept : Kept w)
    (hpool : w.kernel.localMemPool = s.world.kernel.localMemPool)
    (hsize : w.kernel.localMemPoolSize = s.world.kernel.localMemPoolSize)
    (htasks : ∀ t ∈ s.tasks, TaskInv w s.numThreads t) : Inv { s with world := w } := by
  refine ⟨hkept, ?_, htasks, hinv.same⟩
  show w.kernel.localMemPoolSize ≠ 0 → w.kernel.localMemPool ≠ .null
  rw [hpool, hsize]
  exact hinv.live

/-- **Setting an argument.** -/
theorem Inv.arg (hinv : Inv s) : ∀ (call : ArgCall), IsSet call → Fine s (.arg call) →
    Inv { s with world := s.world.step call }
  | .setValue i arg ok, _, ⟨hfine, hcaptured⟩ => by
    show Inv { s with world := s.world.setArgValue i arg ok }
    by_cases hlen : arg.length = 0
    · unfold World.setArgValue
      rw [if_pos hlen]
      exact hinv
    · obtain ⟨hentry, hroom⟩ := hfine.resolve_left hlen
      have hs := hinv.kept.room hlen hroom
      have howned : s.world.Owned i ∨ ∀ id, s.world.pointerAt i ≠ .block id 0 := by
        unfold World.Room at hroom
        split at hroom
        next hnew =>
          right
          intro id
          rw [pointerAt_ge hnew]
          exact nofun
        next =>
          split at hroom
          · exact Or.inl hroom
          · rcases hroom.2 with howned | hnull
            · exact Or.inl howned
            · right
              intro id
              rw [hnull]
              exact nofun
      exact hinv.world (hinv.kept.stored hentry howned hs) hs.pool hs.poolSize fun t ht =>
        (hinv.tasks t ht).stored hinv.kept howned hs (hcaptured.resolve_left hlen t ht)
  | .setPointer i arg, _, ⟨hfine, _⟩ => by
    show Inv { s with world := s.world.setArgPointer i arg }
    unfold World.setArgPointer
    split
    · exact hinv
    next hnull =>
      exact hinv.world (hinv.kept.addPtrArg (hfine.resolve_left hnull) _) rfl rfl fun t ht =>
        (hinv.tasks t ht).pointed (fun _ => nofun)
  | .setMemObj i mem, _, ⟨hfine, _⟩ =>
    hinv.world (hinv.kept.addPtrArg hfine _) rfl rfl fun t ht =>
      (hinv.tasks t ht).pointed (fun _ => nofun)
  | .setLocal i size, _, _ =>
    hinv.world (hinv.kept.setArgLocal i size) rfl rfl fun t ht =>
      (hinv.tasks t ht).pointed (fun _ => nofun)

/-! ## Launches -/

variable {ok resized : Bool} {threads : List UInt64}

/-- The kernel of a launch, with the tasks that were there. -/
structure Sized (s : System) (w : World) : Prop where
  kept : Kept w
  live : w.kernel.localMemPoolSize ≠ 0 → w.kernel.localMemPool ≠ .null
  tasks : ∀ t ∈ s.tasks, TaskInv w s.numThreads t
  last : w.last = s.world.last
  info : w.kernel.localArgInfo = s.world.kernel.localArgInfo
  pool : w.kernel.localArgInfo ≠ [] → total w.kernel.localArgInfo s.numThreads.toNat = 0 ∨
    w.kernel.localMemPoolSize.toNat = total w.kernel.localArgInfo s.numThreads.toNat

/-- A task without local arguments does not mind another pool. -/
theorem TaskInv.repooled (h : TaskInv w numThreads t) (hnil : t.kernel.localArgInfo = [])
    (hlast : w'.last = w.last) (hptr : ∀ j, w'.pointerAt j = w.pointerAt j)
    (hblocks : ∀ id, (w.heap.blocks id).isSome → (∀ o, w.kernel.localMemPool ≠ .block id o) →
      w'.heap.blocks id = w.heap.blocks id ∧ ∀ o, w'.kernel.localMemPool ≠ .block id o) :
    TaskInv w' numThreads t := by
  have hvalue : ∀ i bytes id, t.args i = some (.value bytes) →
      t.kernel.Args.pointerAt i = .block id 0 → w.heap.blocks id = some bytes →
      w'.heap.blocks id = some bytes ∧ ∀ o, w'.kernel.localMemPool ≠ .block id o := by
    intro i bytes id hlast hid hbytes
    obtain ⟨hkept, hne⟩ := hblocks id (by rw [hbytes]; rfl) fun o =>
      h.apart i bytes id o hlast hid
    exact ⟨hkept.trans hbytes, hne⟩
  refine
    { ready := ⟨h.ready.set, fun i bytes hlast => ?_, h.ready.pointers, h.ready.entries,
        h.ready.locals⟩
      owned := fun i j bytes bytes' hi hj heq => ?_
      apart := fun i bytes id offset hlast hid => ?_
      pool := fun hne => absurd hnil hne
      resized := h.resized
      thread := h.thread }
  · obtain ⟨id, hid, hbytes⟩ := h.ready.values i bytes hlast
    exact ⟨id, hid, (hvalue i bytes id hlast hid hbytes).1⟩
  · rw [hlast] at hj
    exact h.owned i j bytes bytes' hi hj ((hptr j).symm.trans heq)
  · obtain ⟨id', hid', hbytes⟩ := h.ready.values i bytes hlast
    obtain ⟨rfl, -⟩ := Ptr.block.inj (hid.symm.trans hid')
    exact (hvalue i bytes id hlast hid hbytes).2 offset

/-- **Sizing the pool** for a launch that it fits. -/
theorem Inv.sized (hinv : Inv s)
    (hfits : s.world.kernel.localArgInfo ≠ [] → PoolFits s ok) : Sized s (s.sized ok) := by
  have hkept := hinv.kept.updateMemPool s.numThreads ok
  have hreq : s.world.kernel.localArgInfo ≠ [] →
      (Kernel.reqSize s.world.kernel.localArgInfo s.numThreads).toNat =
        total s.world.kernel.localArgInfo s.numThreads.toNat := fun hne =>
    reqSize_toNat (hfits hne).fits
  unfold System.sized
  rcases updateMemPool_cases s.world s.numThreads ok with ⟨hsame, heq⟩ | ⟨⟨hzero, hother⟩, heq⟩
  · rw [heq]
    refine ⟨hinv.kept, hinv.live, hinv.tasks, rfl, rfl, fun hne => ?_⟩
    rcases hsame with hzero | hsame
    · left
      rw [← hreq hne, hzero]
      rfl
    · right
      rw [← hreq hne, hsame]
  · have hne : s.world.kernel.localArgInfo ≠ [] := by
      intro hnil
      rw [hnil] at hzero
      exact hzero rfl
    obtain ⟨-, -, rfl, hsame⟩ := hfits hne
    -- a task with local arguments has the same, so the pool would have their size
    have hnil : ∀ t ∈ s.tasks, t.kernel.localArgInfo = [] := by
      intro t ht
      rcases hsame t ht with hnil | hinfo
      · exact hnil
      · obtain ⟨-, -, hsize⟩ := (hinv.tasks t ht).pool (by rw [hinfo]; exact hne)
        rw [hinfo, ← hreq hne] at hsize
        rcases hsize with h0 | hsize
        · exact absurd (UInt64.toNat.inj h0) hzero
        · exact absurd (UInt64.toNat.inj hsize).symm hother
    have hpool : s.world.kernel.localMemPool = .null ∨ ∃ id old,
        s.world.kernel.localMemPool = .block id 0 ∧ s.world.heap.blocks id = some old := by
      rcases hinv.kept.pool with hnull | ⟨id, old, hid, hold, -⟩
      · exact Or.inl hnull
      · exact Or.inr ⟨id, old, hid, hold⟩
    obtain ⟨-, -, -, hblocks, old, hnew, -, -⟩ := realloc_pool
      (Kernel.reqSize s.world.kernel.localArgInfo s.numThreads).toNat hinv.kept.fresh
      hinv.kept.clean hpool true
    rw [heq] at hkept ⊢
    refine ⟨hkept, fun _ => ?_, fun t ht => ?_, rfl, rfl, fun _ => Or.inr (hreq hne)⟩
    · show (Heap.realloc _ _ _ _).2 ≠ .null
      rw [hnew]
      exact nofun
    · exact (hinv.tasks t ht).repooled (hnil t ht) rfl (fun _ => rfl) hblocks

/-- The kernel itself is ready, if its local arguments are on the list. -/
theorem ready_of_kept (hkept : Kept w)
    (hlocals : ∀ i size, w.last i = some (.localMem size) → w.kernel.localSize i = some size) :
    Ready w.heap w.kernel w.last where
  set := hkept.set
  values := fun i bytes hlast => by
    obtain ⟨-, id, hptr, hblock, -⟩ := hkept.values i bytes hlast
    exact ⟨id, hptr, hblock⟩
  pointers := hkept.pointers
  entries := hkept.entries
  locals := hlocals

theorem Inv.sized_ready (hinv : Inv s) (hfine : Fine s (.launch ok resized threads)) : Sized s (s.sized ok) ∧
    Ready (s.sized ok).heap (s.sized ok).kernel (s.sized ok).last ∧
    ((s.sized ok).kernel.localArgInfo ≠ [] →
      PoolReady (s.sized ok).heap s.numThreads.toNat (s.sized ok).kernel ∧ s.numThreads ≠ 0) := by
  obtain ⟨hlocals, hfits⟩ := hfine
  have hsized := hinv.sized hfits
  refine ⟨hsized, ready_of_kept hsized.kept fun i size hlast => ?_, fun hne => ?_⟩
  · have hsize := hlocals i size hlast
    unfold Kernel.localSize at hsize ⊢
    rw [hsized.info]
    exact hsize
  · have hpool := hsized.pool hne
    have hfits := hfits (by rw [← hsized.info]; exact hne)
    refine ⟨⟨by rw [hsized.info]; exact hfits.fits, ?_⟩, hfits.threads⟩
    rcases hpool with hzero | hsize
    · exact Or.inl hzero
    · by_cases hnone : (s.sized ok).kernel.localMemPoolSize = 0
      · left
        rw [← hsize, hnone]
        rfl
      · rcases hsized.kept.pool with hnull | ⟨id, bytes, hid, hbytes, hlen⟩
        · exact absurd hnull (hsized.live hnone)
        · exact Or.inr ⟨id, bytes, hid, hbytes, by omega⟩

/-- **What a launch runs itself** is passed the arguments. -/
theorem Inv.inline (hinv : Inv s) (hfine : Fine s (.launch ok resized threads))
    (hallowed : Allowed s (.launch ok resized threads)) :
    InlineRight s (.launch ok resized threads) := by
  obtain ⟨hsized, hready, hpool⟩ := hinv.sized_ready hfine
  have hthread : (0 : UInt64).toNat < (1 : UInt64).toNat := by decide
  have hone : (s.sized ok).kernel.localArgInfo ≠ [] →
      (1 : UInt64).toNat ≤ s.numThreads.toNat := by
    intro hne
    exact Nat.pos_of_ne_zero fun h0 => (hpool hne).2 (UInt64.toNat.inj h0)
  have hpasses := hready.passes (fun hne => ⟨(hpool hne).1, hone hne⟩) hthread
  have happart : ∀ i j, i ≠ j → LocalsApart
      ((s.sized ok).kernel.handleLocalArgs 1 0).Args.Indices (s.sized ok).last i
      ((s.sized ok).kernel.handleLocalArgs 1 0).Args.Indices (s.sized ok).last j := by
    intro i j hij size size' hlocal
    have hne := hready.nonempty hlocal
    have hfits := Nat.lt_of_le_of_lt (total_mono _ (hone hne)) (hpool hne).1.fits
    exact hready.apart hready rfl rfl hfits hthread hthread (Or.inl hij) size size' hlocal
  intro k hk
  have hindices : k.Args.Indices =
      ((s.sized ok).kernel.handleLocalArgs 1 0).Args.Indices := by
    unfold System.inlineKernel at hk
    split at hk
    · exact congrArg (·.Args.Indices) (Option.some.inj hk).symm
    · split at hk
      next hresized =>
        have hnil : (s.sized ok).kernel.localArgInfo = [] := by
          rw [hsized.info]
          have hnone := hallowed.1 hresized
          unfold Kernel.hasLocalArgs at hnone
          simpa using hnone
        rw [← Option.some.inj hk, handleLocalArgs_nil hnil]
      · cases hk
  rw [hindices]
  exact ⟨hpasses, happart⟩

/-- **A launch** that the pool fits. -/
theorem Inv.launch (hinv : Inv s) (hfine : Fine s (.launch ok resized threads))
    (hallowed : Allowed s (.launch ok resized threads)) :
    Inv (s.launch ok resized threads) := by
  obtain ⟨hsized, hready, hpool⟩ := hinv.sized_ready hfine
  unfold System.launch
  split
  next =>
    -- the placeholders of the local arguments are replaced, the other pointers are not
    have hother : ∀ i a, (s.sized ok).last i = some a → (∀ size, a ≠ .localMem size) →
        ((s.sized ok).kernel.handleLocalArgs 1 0).Args.pointerAt i =
          (s.sized ok).pointerAt i := fun i a hlast hnot =>
      placeLocals_other _ _ _ (localSize_none (hready.entries i a hlast hnot))
    have hlength : ((s.sized ok).kernel.handleLocalArgs 1 0).Args.Indices.length =
        (s.sized ok).length := placeLocals_length _ _ _
    have hkept := hsized.kept
    refine ⟨⟨hkept.sizes.trans hlength.symm, hkept.fresh, hkept.clean, hkept.freed,
      fun i a hlast => ?_, fun i bytes hlast => ?_, fun i j bytes bytes' hi hj heq => ?_,
      fun i p hlast => ?_, hkept.entries, hkept.pool⟩, hsized.live, fun t ht => ?_, hinv.same⟩
    · exact Nat.lt_of_lt_of_eq (hkept.set i a hlast) hlength.symm
    · obtain ⟨hparam, id, hptr, hrest⟩ := hkept.values i bytes hlast
      exact ⟨hparam, id, (hother i _ hlast (fun _ => nofun)).trans hptr, hrest⟩
    · refine hkept.distinct i j bytes bytes' hi hj ?_
      rw [← hother i _ hi (fun _ => nofun), ← hother j _ hj (fun _ => nofun)]
      exact heq
    · exact (hother i _ hlast (fun _ => nofun)).trans (hkept.pointers i p hlast)
    · have htask := hsized.tasks t ht
      refine ⟨htask.ready, fun i j bytes bytes' hi hj heq => ?_, htask.apart, htask.pool,
        htask.resized, htask.thread⟩
      exact htask.owned i j bytes bytes' hi hj
        ((hother j _ hj (fun _ => nofun)).symm.trans heq)
  next =>
    have hnew : ∀ threadId ∈ threads, TaskInv (s.sized ok) s.numThreads
        ⟨(s.sized ok).kernel.copy, threadId, resized, s.nextEvent, (s.sized ok).last⟩ := by
      intro threadId hthread
      refine ⟨⟨hready.set, hready.values, hready.pointers, hready.entries, hready.locals⟩,
        fun i j bytes bytes' hi hj heq => ?_, fun i bytes id offset hlast hid => ?_,
        fun hne => ⟨(hpool hne).1.fits, rfl, hsized.pool hne⟩, fun hresized => ?_,
        hallowed.2 threadId hthread⟩
      · exact hsized.kept.distinct j i bytes' bytes hj hi heq
      · obtain ⟨-, id', hptr, -, hapart⟩ := hsized.kept.values i bytes hlast
        obtain ⟨rfl, -⟩ := Ptr.block.inj (hid.symm.trans hptr)
        exact hapart offset
      · show (s.sized ok).kernel.localArgInfo = []
        rw [hsized.info]
        have hnone := hallowed.1 hresized
        unfold Kernel.hasLocalArgs at hnone
        simpa using hnone
    -- the old tasks with local arguments agree with the launch
    have hsame : ∀ t ∈ s.tasks, t.kernel.localArgInfo ≠ [] →
        (s.sized ok).kernel.localArgInfo ≠ [] →
        t.kernel.localArgInfo = (s.sized ok).kernel.localArgInfo := by
      intro t ht hne hne'
      rw [hsized.info] at hne' ⊢
      exact ((hfine.2 hne').same t ht).resolve_left hne
    refine ⟨hsized.kept, hsized.live, fun t ht => ?_, fun t ht t' ht' hne hne' => ?_⟩
    · rcases List.mem_append.mp ht with hold | hmem
      · exact hsized.tasks t hold
      · obtain ⟨threadId, hthread, rfl⟩ := List.mem_map.mp hmem
        exact hnew threadId hthread
    · rcases List.mem_append.mp ht with hold | hmem
      · rcases List.mem_append.mp ht' with hold' | hmem'
        · exact hinv.same t hold t' hold' hne hne'
        · obtain ⟨threadId', -, rfl⟩ := List.mem_map.mp hmem'
          exact (hsame t hold hne hne').symm
      · obtain ⟨threadId, -, rfl⟩ := List.mem_map.mp hmem
        rcases List.mem_append.mp ht' with hold' | hmem'
        · exact hsame t' hold' hne' hne
        · obtain ⟨threadId', -, rfl⟩ := List.mem_map.mp hmem'
          rfl

/-! ## Runs -/

/-- **One call** that meets the condition keeps the invariant. -/
theorem Inv.step (hinv : Inv s) : ∀ (call : Call), Allowed s call → Fine s call →
    Inv (s.step call)
  | .arg call, hallowed, hfine => hinv.arg call hallowed hfine
  | .launch ok resized threads, hallowed, hfine => hinv.launch hfine hallowed
  | .finish task, _, _ => by
    have hsub : ∀ t ∈ s.tasks.eraseIdx task, t ∈ s.tasks := fun t ht =>
      List.mem_of_mem_eraseIdx ht
    exact ⟨hinv.kept, hinv.live, fun t ht => hinv.tasks t (hsub t ht),
      fun t ht t' ht' => hinv.same t (hsub t ht) t' (hsub t' ht')⟩
  | .wait event, _, _ => by
    show Inv (s.wait event)
    unfold System.wait
    split
    · exact hinv
    · -- the tasks have lists of their own
      have hkept := hinv.kept
      let w : World := { s.world with kernel := { s.world.kernel with localArgInfo := [] } }
      have hw : Inv { s with world := w } := hinv.world
        ⟨hkept.sizes, hkept.fresh, hkept.clean, hkept.freed, hkept.set, hkept.values,
          hkept.distinct, hkept.pointers, fun _ _ _ _ => rfl, hkept.pool⟩ rfl rfl
        fun t ht => ⟨(hinv.tasks t ht).ready, (hinv.tasks t ht).owned, (hinv.tasks t ht).apart,
          (hinv.tasks t ht).pool, (hinv.tasks t ht).resized, (hinv.tasks t ht).thread⟩
      exact ⟨hw.kept, hw.live, hw.tasks, hw.same⟩

/-- A call that meets the condition is right. -/
theorem Inv.right (hinv : Inv s) (call : Call) (hallowed : Allowed s call)
    (hfine : Fine s call) : Right s call := by
  refine ⟨(hinv.step call hallowed hfine).captured, ?_⟩
  cases call with
  | launch ok resized threads => exact hinv.inline hfine hallowed
  | arg call => trivial
  | finish task => trivial
  | wait event => trivial

/-- **Launches capture their arguments**: in every run whose calls all meet the condition, every
task reads what the arguments were when its launch was enqueued, in whatever order the tasks
run. -/
theorem captures_right (ock : Bool) (numThreads : UInt64) (calls : List Call)
    (hallowed : Along System.step Allowed (.init ock numThreads) calls)
    (hfine : Along System.step Fine (.init ock numThreads) calls) :
    Along System.step Right (.init ock numThreads) calls := by
  have hboth := hallowed.and hfine
  have hinv := (hboth.invariant (fun s call (hinv : Inv s) hcall => hinv.step call hcall.1 hcall.2)
    (Inv.init ock numThreads)).1
  exact (hinv.and hboth).mono fun s call hcall => hcall.1.right call hcall.2.1 hcall.2.2

/-- A launch of two tasks with a value and local memory, and a value for another index. -/
theorem captures_right_two : Along System.step Right (.init true 2)
    [.arg (.setValue 0 [7] true), .arg (.setLocal 1 4), .launch true false [0, 1],
      .arg (.setValue 2 [1] true), .finish 0] := by
  have hthreads : ∀ threadId ∈ ([0, 1] : List UInt64), threadId < 2 := by
    intro threadId hmem
    rcases List.mem_cons.mp hmem with rfl | hmem
    · decide
    · rw [List.mem_singleton.mp hmem]
      decide
  have hnew : ∀ (w : World) (i : Nat) (ok : Bool), w.length ≤ i → ok = true → w.Room i 1 ok := by
    intro w i ok hi hok
    unfold World.Room
    rw [if_pos hi]
    exact hok
  refine captures_right true 2 _ ⟨trivial, trivial, ⟨nofun, hthreads⟩, trivial, ?_, trivial⟩
    ⟨⟨Or.inr ⟨rfl, hnew _ _ _ (by decide) rfl⟩, Or.inr nofun⟩, ⟨trivial, trivial⟩, ⟨?_, fun _ => ?_⟩,
      ⟨Or.inr ⟨rfl, hnew _ _ _ (by decide) rfl⟩, Or.inr fun t ht bytes hbytes => ?_⟩, trivial,
      trivial⟩
  · show (0 : Nat) < 2
    decide
  · intro i size hlast
    rcases World.last_record hlast with ⟨rfl, heq⟩ | ⟨-, hlast⟩
    · rw [Arg.localMem.inj heq]
      rfl
    · rcases World.last_record hlast with ⟨-, heq⟩ | ⟨-, hlast⟩
      · cases heq
      · cases hlast
  · refine ⟨?_, by decide, rfl, nofun⟩
    show 4 * 2 + 0 < 2 ^ 64
    omega
  · obtain ⟨threadId, -, rfl⟩ := List.mem_map.mp ht
    cases hbytes

/-- A value that is set while a task is pending. -/
def setPending : List Call :=
  [.arg (.setValue 0 [7] true), .launch true false [0], .arg (.setValue 0 [8] true)]

/-- A launch that makes the pool grow while a task is pending. -/
def growPending : List Call :=
  [.arg (.setLocal 0 4), .launch true false [0], .arg (.setLocal 1 4), .launch true false [0]]

/-- Two launches, the second when the event of the first has been waited for. -/
def launchAgain : List Call :=
  [.arg (.setLocal 0 4), .launch true false [0], .finish 0, .wait 0, .launch true false [0]]

/-- A value that is set while a task is pending is read by the task, a task reads a pool that a
later launch has replaced, and the second of two launches passes no local memory once the first
has been waited for. -/
theorem captures_wrong :
    (Along System.step Allowed (.init true 1) setPending ∧
      ¬ Along System.step Right (.init true 1) setPending) ∧
    (Along System.step Allowed (.init true 1) growPending ∧
      ¬ Along System.step Right (.init true 1) growPending) ∧
    Along System.step Allowed (.init true 1) launchAgain ∧
      ¬ Along System.step Right (.init true 1) launchAgain := by
  have hthread : ∀ threadId ∈ ([0] : List UInt64), threadId < 1 := by
    intro threadId hmem
    rw [List.mem_singleton.mp hmem]
    decide
  refine ⟨⟨⟨trivial, ⟨nofun, hthread⟩, trivial, trivial⟩, fun h => ?_⟩,
    ⟨⟨trivial, ⟨nofun, hthread⟩, trivial, ⟨nofun, hthread⟩, trivial⟩, fun h => ?_⟩,
    ⟨trivial, ⟨nofun, hthread⟩, Nat.one_pos, ⟨Nat.one_pos, nofun⟩, ⟨nofun, hthread⟩, trivial⟩,
    fun h => ?_⟩
  · obtain ⟨id, hptr, hblock⟩ := h.2.2.1.1.passes _ List.mem_cons_self 0 (.value [7]) rfl
    obtain ⟨rfl, -⟩ := Ptr.block.inj hptr
    exact absurd hblock (by decide)
  · rcases h.2.2.2.1.1.passes _ List.mem_cons_self 0 (.localMem 4) rfl with h0 | hin
    · exact absurd h0 (by decide)
    · obtain ⟨id, offset, bytes, hptr, hblock, -⟩ := hin
      obtain ⟨rfl, -⟩ := Ptr.block.inj hptr
      cases hblock
  · rcases h.2.2.2.2.1.1.passes _ List.mem_cons_self 0 (.localMem 4) rfl with h0 | hin
    · exact absurd h0 (by decide)
    · obtain ⟨id, offset, bytes, hptr, -, -⟩ := hin
      cases hptr

end UnifiedRuntime.NativeCpu.Captures
