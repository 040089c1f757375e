import UnifiedRuntime.Sanitizer.MsanHeapRuns

/-!
# What a migration says of the bytes

`getHandle` moves the data of a buffer to another device, through the host. New
memory is poisoned, and unpoisoned again when it is filled from the host pointer;
the copies that migrate the data move no shadow. So the shadow on the device is
right after a migration exactly when it was right for the data that arrives: the
theorem says which states these are, and from it what holds over runs.
-/

namespace UnifiedRuntime.Sanitizer

open Function (update update_of_ne update_self)

namespace MsanBuffer

theorem touch_allocation (b : MsanBuffer) (key k : Option Device) :
    (b.touch key).allocation k = b.allocation k := by
  unfold touch
  split
  next => rfl
  next hnone =>
    unfold allocation
    by_cases hk : k = key
    · subst hk
      rw [AList.lookup_insert, AList.lookup_eq_none.mpr hnone]
      rfl
    · rw [AList.lookup_insert_ne hk]

theorem touch_size (b : MsanBuffer) (key : Option Device) : (b.touch key).size = b.size := by
  unfold touch
  split
  next => rfl
  next => rfl

theorem touch_hostPtr (b : MsanBuffer) (key : Option Device) :
    (b.touch key).hostPtr = b.hostPtr := by
  unfold touch
  split
  next => rfl
  next => rfl

theorem touch_lastSyncedDevice (b : MsanBuffer) (key : Option Device) :
    (b.touch key).lastSyncedDevice = b.lastSyncedDevice := by
  unfold touch
  split
  next => rfl
  next => rfl

theorem setAllocation_self (b : MsanBuffer) (key : Option Device) (block : Block) :
    (b.setAllocation key block).allocation key = some block := by
  unfold allocation setAllocation
  rw [AList.lookup_insert]
  rfl

theorem setAllocation_other (b : MsanBuffer) {key k : Option Device} (block : Block)
    (hk : k ≠ key) : (b.setAllocation key block).allocation k = b.allocation k := by
  unfold allocation setAllocation
  rw [AList.lookup_insert_ne hk]

end MsanBuffer

namespace MsanCall

/-! ## A buffer's blocks -/

/-- The pointers of a buffer are blocks of the driver's, each its own. -/
structure Inv (c : MsanCall) : Prop where
  proper : ∀ x ∈ c.heap.live, x.Proper
  owned : ∀ key block, c.buffer.allocation key = some block → ∃ x ∈ c.heap.live, x.begin = block
  distinct : ∀ key key' block, c.buffer.allocation key = some block →
    c.buffer.allocation key' = some block → key = key'
  synced : ∀ d block, c.buffer.lastSyncedDevice = some (d, block) →
    c.buffer.allocation (some d) = some block

/-- A call that works for some keys leaves the blocks of the others. -/
structure Spares (c c' : MsanCall) (keys : Option Device → Prop) : Prop where
  inv : c'.Inv
  size : c'.buffer.size = c.buffer.size
  lastSyncedDevice : c'.buffer.lastSyncedDevice = c.buffer.lastSyncedDevice
  allocation : ∀ key, ¬ keys key → c'.buffer.allocation key = c.buffer.allocation key
  bytes : ∀ key block, ¬ keys key → c.buffer.allocation key = some block →
    c'.heap.written block = c.heap.written block ∧
      c'.heap.initialised block = c.heap.initialised block

variable {c c' c'' : MsanCall} {keys keys' : Option Device → Prop} {a : HandleAnswer}

theorem Spares.mono (h : Spares c c' keys) (hk : ∀ key, keys key → keys' key) :
    Spares c c' keys' :=
  ⟨h.inv, h.size, h.lastSyncedDevice, fun key hkey => h.allocation key fun hc => hkey (hk key hc),
    fun key block hkey => h.bytes key block fun hc => hkey (hk key hc)⟩

theorem Spares.trans (h : Spares c c' keys) (h' : Spares c' c'' keys) : Spares c c'' keys := by
  refine ⟨h'.inv, h'.size.trans h.size, h'.lastSyncedDevice.trans h.lastSyncedDevice,
    fun key hk => (h'.allocation key hk).trans (h.allocation key hk), fun key block hk hb => ?_⟩
  obtain ⟨h₁, h₂⟩ := h.bytes key block hk hb
  obtain ⟨h₁', h₂'⟩ := h'.bytes key block hk (by rw [h.allocation key hk, hb])
  exact ⟨h₁'.trans h₁, h₂'.trans h₂⟩

/-- New memory for a key that had none. -/
theorem Inv.newBlock (h : c.Inv) {s : MsanHeap} {key : Option Device} {x : DriverBlock}
    (hf : c.heap.Fresh x) (hlive : s.live = x :: c.heap.live)
    (hbytes : ∀ block, block ≠ x.begin → s.written block = c.heap.written block ∧
      s.initialised block = c.heap.initialised block) (b : MsanBuffer) (hsize : b.size = c.buffer.size)
    (hlast : b.lastSyncedDevice = c.buffer.lastSyncedDevice)
    (halloc : ∀ k, b.allocation k = c.buffer.allocation k)
    (hnone : c.buffer.allocation key = none) :
    Spares c ⟨s, b.setAllocation key x.begin⟩ (· = key) := by
  have hne : ∀ k block, c.buffer.allocation k = some block → block ≠ x.begin := by
    intro k block hk heq
    obtain ⟨y, hy, rfl⟩ := h.owned k block hk
    exact (hf.apart y hy).lo_ne hf.proper.lt (h.proper y hy).lt heq.symm
  have hself := b.setAllocation_self key x.begin
  have hother : ∀ k, k ≠ key → (b.setAllocation key x.begin).allocation k
      = c.buffer.allocation k := by
    intro k hk
    rw [b.setAllocation_other _ hk, halloc]
  refine ⟨⟨fun y hy => ?_, fun k block hk => ?_, fun k k' block hk hk' => ?_,
    fun d block hd => ?_⟩, hsize, hlast, hother, fun k block hk hb => hbytes block (hne k block hb)⟩
  · simp only [hlive] at hy
    rcases List.mem_cons.mp hy with rfl | hy
    · exact hf.proper
    · exact h.proper y hy
  · rw [hlive]
    by_cases hkey : k = key
    · rw [hkey, hself] at hk
      exact ⟨x, List.mem_cons_self, Option.some.inj hk⟩
    · rw [hother k hkey] at hk
      obtain ⟨y, hy, heq⟩ := h.owned k block hk
      exact ⟨y, List.mem_cons_of_mem _ hy, heq⟩
  · by_cases hkey : k = key
    · by_cases hkey' : k' = key
      · rw [hkey, hkey']
      · rw [hkey, hself] at hk
        rw [hother k' hkey'] at hk'
        exact absurd (Option.some.inj hk).symm (hne k' block hk')
    · rw [hother k hkey] at hk
      by_cases hkey' : k' = key
      · rw [hkey', hself] at hk'
        exact absurd (Option.some.inj hk').symm (hne k block hk)
      · rw [hother k' hkey'] at hk'
        exact h.distinct k k' block hk hk'
  · have hd' := h.synced d block (hlast ▸ hd)
    rw [hother, hd']
    rintro rfl
    rw [hd'] at hnone
    cases hnone

/-- An entry with a null pointer. -/
theorem Inv.touch (h : c.Inv) (key : Option Device) :
    Spares c ⟨c.heap, c.buffer.touch key⟩ (· = key) := by
  have htouch := c.buffer.touch_allocation key
  refine ⟨⟨h.proper, fun k block hk => ?_, fun k k' block hk hk' => ?_, fun d block hd => ?_⟩,
    c.buffer.touch_size _, c.buffer.touch_lastSyncedDevice _, fun k _ => htouch k,
    fun _ _ _ _ => ⟨rfl, rfl⟩⟩
  · exact h.owned k block ((htouch k).symm.trans hk)
  · exact h.distinct k k' block ((htouch k).symm.trans hk) ((htouch k').symm.trans hk')
  · exact (htouch _).trans (h.synced d block ((c.buffer.touch_lastSyncedDevice _).symm.trans hd))

variable {block : Block}

/-- A copy into a block of one key, or its shadow. -/
theorem Inv.ofBytes (h : c.Inv) {s : MsanHeap} {key : Option Device}
    (hkey : c.buffer.allocation key = some block) (hlive : s.live = c.heap.live)
    (hbytes : ∀ x, x ≠ block → s.written x = c.heap.written x ∧
      s.initialised x = c.heap.initialised x) :
    Spares c ⟨s, c.buffer⟩ (· = key) := by
  refine ⟨⟨?_, ?_, h.distinct, h.synced⟩, rfl, rfl, fun _ _ => rfl, fun k x hk hx => ?_⟩
  · rw [hlive]
    exact h.proper
  · rw [hlive]
    exact h.owned
  · refine hbytes x ?_
    rintro rfl
    exact hk (h.distinct k key x hx hkey)

/-! ## Memory of the device -/

theorem emplace_bytes (s : MsanHeap) (ai : MsanAllocInfo) :
    (s.emplace ai).written = s.written ∧ (s.emplace ai).initialised = s.initialised ∧
      (s.emplace ai).live = s.live := by
  unfold MsanHeap.emplace
  split
  next => exact ⟨rfl, rfl, rfl⟩
  next => exact ⟨rfl, rfl, rfl⟩

/-- New device memory and its shadow. -/
theorem allocateMemory_spec (s : MsanHeap) (context : ContextId) (d : Device) (size : Nat)
    (p : AllocAnswer) :
    ∃ s', s.allocateMemory context (some d) .deviceUsm size (some p) = (s', some p.begin) ∧
      s'.live = ⟨p.begin, size, some (context, d)⟩ :: s.live ∧
      (∀ block, block ≠ p.begin → s'.written block = s.written block ∧
        s'.initialised block = s.initialised block) ∧
      (∀ i, s'.written p.begin i = false) ∧
      ∀ i, i < size → s'.initialised p.begin i = (!p.poisons && s.initialised p.begin i) := by
  refine ⟨_, rfl, ?_, fun block hb => ⟨?_, ?_⟩, fun i => ?_, fun i hi => ?_⟩
  · exact (emplace_bytes _ _).2.2
  · simp only [MsanHeap.enqueuePoisonShadow, (emplace_bytes _ _).1]
    exact update_of_ne hb ..
  · simp only [MsanHeap.enqueuePoisonShadow, (emplace_bytes _ _).2.1]
    exact update_of_ne hb ..
  · simp [MsanHeap.enqueuePoisonShadow, (emplace_bytes _ _).1, MsanHeap.driverAlloc]
  · simp only [MsanHeap.enqueuePoisonShadow, (emplace_bytes _ _).2.1, MsanHeap.driverAlloc,
      update_self, decide_eq_true hi, Bool.and_true]
    cases p.poisons with
    | true => rfl
    | false => rfl

/-- What the shadow will say of the device's bytes before any data is migrated. -/
def mark (c : MsanCall) (a : HandleAnswer) (d : Device) (i : Nat) : Bool :=
  match c.buffer.allocation (some d), a.allocate with
  | some block, _ => c.heap.initialised block i
  | none, some p => c.buffer.hostPtr || (!p.poisons && c.heap.initialised p.begin i)
  | none, none => false

/-- Which of them will hold a value. -/
def value (c : MsanCall) (d : Device) (i : Nat) : Bool :=
  match c.buffer.allocation (some d) with
  | some block => c.heap.written block i
  | none => c.buffer.hostPtr

/-- The driver calls for the device's memory succeed, where there are any. -/
def Provides (c : MsanCall) (a : HandleAnswer) (d : Device) : Prop :=
  c.buffer.allocation (some d) = none → a.allocate.isSome = true ∧
    (c.buffer.hostPtr = true → a.copyHostPtr = true ∧ a.unpoison = true)

/-- The first part of `getHandle`. -/
structure Serves (c : MsanCall) (a : HandleAnswer) (d : Device) (r : MsanCall × Option Block) :
    Prop where
  spares : Spares c r.1 (· = some d)
  served : ∀ block, r.2 = some block → c.Provides a d ∧
    r.1.buffer.allocation (some d) = some block ∧
    ∀ i, i < c.buffer.size → r.1.heap.initialised block i = c.mark a d i ∧
      r.1.heap.written block i = c.value d i
  refused : r.2 = none → ¬ c.Provides a d ∧ c.buffer.allocation (some d) = none
  same : ∀ block, c.buffer.allocation (some d) = some block → r = (c, some block)

theorem deviceAllocation_serves (h : c.Inv) (hl : c.Legal a) (d : Device) :
    Serves c a d (c.deviceAllocation a d) := by
  unfold deviceAllocation
  cases halloc : c.buffer.allocation (some d) with
  | some block =>
    refine ⟨⟨h, rfl, rfl, fun _ _ => rfl, fun _ _ _ _ => ⟨rfl, rfl⟩⟩, fun b hb => ?_,
      (fun h => nomatch h), fun b hb => ?_⟩
    · obtain rfl := Option.some.inj hb
      refine ⟨fun hn => ?_, halloc, fun i _ => ?_⟩
      · rw [halloc] at hn
        cases hn
      · unfold mark value
        rw [halloc]
        exact ⟨rfl, rfl⟩
    · rw [halloc] at hb
      rw [Option.some.inj hb]
  | none =>
    have htouch := c.buffer.touch_allocation (some d)
    simp only
    -- the allocation, the copy from the host and the shadow may fail, in this order
    cases hans : a.allocate with
    | none =>
      show Serves c a d (⟨c.heap, c.buffer.touch (some d)⟩, none)
      refine ⟨h.touch (some d), (fun _ hb => nomatch hb), fun _ => ⟨fun hp => ?_, halloc⟩,
        fun b hb => by rw [halloc] at hb; cases hb⟩
      have hsome := (hp halloc).1
      rw [hans] at hsome
      cases hsome
    | some p =>
      obtain ⟨s, heq, hlive, hother, hwritten, hmark⟩ := allocateMemory_spec c.heap
        (c.buffer.touch (some d)).contextId d (c.buffer.touch (some d)).size p
      rw [heq]
      simp only
      have hsize := c.buffer.touch_size (some d)
      have hhost : ((c.buffer.touch (some d)).setAllocation (some d) p.begin).hostPtr
          = c.buffer.hostPtr := c.buffer.touch_hostPtr _
      have hsize' : ((c.buffer.touch (some d)).setAllocation (some d) p.begin).size
          = c.buffer.size := hsize
      have hfresh := hl.allocate p hans (some ((c.buffer.touch (some d)).contextId, d))
      rw [hsize] at hlive hmark
      have hspares := h.newBlock hfresh hlive hother (c.buffer.touch (some d)) hsize
        (c.buffer.touch_lastSyncedDevice _) htouch halloc
      have hself := (c.buffer.touch (some d)).setAllocation_self (some d) p.begin
      rw [hhost, hsize']
      cases hptr : c.buffer.hostPtr with
      | false =>
        refine ⟨hspares, fun b hb => ?_, (fun h => nomatch h), fun b hb => by
          rw [halloc] at hb; cases hb⟩
        obtain rfl := Option.some.inj hb
        refine ⟨fun _ => ⟨by rw [hans]; rfl, fun hp => ?_⟩, hself, fun i hi => ?_⟩
        · rw [hptr] at hp
          cases hp
        · unfold mark value
          rw [halloc, hans, hptr]
          exact ⟨hmark i hi, hwritten i⟩
      | true =>
        cases hcopy : a.copyHostPtr with
        | false =>
          refine ⟨hspares.trans (hspares.inv.ofBytes hself rfl fun x hx =>
            ⟨update_of_ne hx .., rfl⟩), (fun _ hb => nomatch hb), fun _ =>
            ⟨fun hp => ?_, halloc⟩, fun b hb => by rw [halloc] at hb; cases hb⟩
          have hbad := ((hp halloc).2 hptr).1
          rw [hcopy] at hbad
          cases hbad
        | true =>
          have hfilled := hspares.trans (hspares.inv.ofBytes
            (s := (s.enqueueUSMMemcpy p.begin (fun _ => true) c.buffer.size true).enqueuePoisonShadow
              p.begin c.buffer.size true a.unpoison) hself rfl fun x hx =>
            ⟨update_of_ne hx .., update_of_ne hx ..⟩)
          cases hun : a.unpoison with
          | false =>
            rw [hun] at hfilled
            refine ⟨hfilled, (fun _ hb => nomatch hb), fun _ => ⟨fun hp => ?_, halloc⟩,
              fun b hb => by rw [halloc] at hb; cases hb⟩
            have hbad := ((hp halloc).2 hptr).2
            rw [hun] at hbad
            cases hbad
          | true =>
            rw [hun] at hfilled
            refine ⟨hfilled, fun b hb => ?_, (fun h => nomatch h), fun b hb => by
              rw [halloc] at hb; cases hb⟩
            obtain rfl := Option.some.inj hb
            refine ⟨fun _ => ⟨by rw [hans]; rfl, fun _ => ⟨hcopy, hun⟩⟩, hself, fun i hi => ?_⟩
            unfold mark value
            rw [halloc, hans, hptr]
            simp [MsanHeap.enqueuePoisonShadow, MsanHeap.enqueueUSMMemcpy, hi]

/-! ## Migration -/

/-- The driver calls of a migration succeed. -/
def Migrates (c : MsanCall) (a : HandleAnswer) : Prop :=
  (c.buffer.allocation none = none → a.allocateHost.isSome = true) ∧
    a.copyToHost = true ∧ a.copyToDevice = true

theorem hostAllocation_spec (h : c.Inv)
    (hl : ∀ p, a.allocateHost = some p → c.heap.Fresh ⟨p, c.buffer.size, none⟩) :
    Spares c (c.hostAllocation a).1 (· = none) ∧
    (∀ host, (c.hostAllocation a).2 = some host →
      (c.hostAllocation a).1.buffer.allocation none = some host ∧
        (c.buffer.allocation none = none → a.allocateHost.isSome = true)) ∧
    ((c.hostAllocation a).2 = none → ¬ c.Migrates a) := by
  unfold hostAllocation
  cases halloc : c.buffer.allocation none with
  | some host =>
    refine ⟨⟨h, rfl, rfl, fun _ _ => rfl, fun _ _ _ _ => ⟨rfl, rfl⟩⟩, fun p hp => ?_,
      (fun h => nomatch h)⟩
    obtain rfl := Option.some.inj hp
    exact ⟨halloc, (fun h => nomatch h)⟩
  | none =>
    cases hans : a.allocateHost with
    | none =>
      refine ⟨h.touch none, (fun _ hp => nomatch hp), fun _ hm => ?_⟩
      have hsome := hm.1 halloc
      rw [hans] at hsome
      cases hsome
    | some p =>
      have hbytes : ∀ block, block ≠ p →
          (c.heap.driverAlloc ⟨p, c.buffer.size, none⟩).written block = c.heap.written block ∧
          (c.heap.driverAlloc ⟨p, c.buffer.size, none⟩).initialised block
            = c.heap.initialised block := fun block hb => ⟨update_of_ne hb .., rfl⟩
      refine ⟨h.newBlock (hl p hans) rfl hbytes c.buffer rfl rfl (fun _ => rfl) halloc,
        fun host hh => ?_, (fun h => nomatch h)⟩
      obtain rfl := Option.some.inj hh
      exact ⟨c.buffer.setAllocation_self none p, fun _ => rfl⟩

/-- What a migration does: the data is that of the last synced device, the shadow what it
was. -/
structure Moves (c : MsanCall) (a : HandleAnswer) (d : Device) (src handle : Block)
    (r : MsanCall × Bool) : Prop where
  spares : Spares c r.1 fun key => key = some d ∨ key = none
  allocation : r.1.buffer.allocation (some d) = some handle
  moved : r.2 = true → c.Migrates a ∧
    ∀ i, i < c.buffer.size → r.1.heap.written handle i = c.heap.written src i
  failed : r.2 = false → ¬ c.Migrates a
  shadow : r.1.heap.initialised handle = c.heap.initialised handle

theorem migrate_moves (h : c.Inv)
    (hl : ∀ p, a.allocateHost = some p → c.heap.Fresh ⟨p, c.buffer.size, none⟩)
    {d last : Device} {src handle : Block} (hd : c.buffer.allocation (some d) = some handle)
    (hlast : c.buffer.allocation (some last) = some src) :
    Moves c a d src handle (c.migrate a src handle) := by
  obtain ⟨hspares, hhost, hnone⟩ := hostAllocation_spec h hl
  unfold migrate
  generalize c.hostAllocation a = r at hspares hhost hnone
  obtain ⟨c₁, host⟩ := r
  have hd₁ := (hspares.allocation (some d) (by simp)).trans hd
  have hshadow₁ := (hspares.bytes (some d) handle (by simp) hd).2
  have hsrc₁ := (hspares.bytes (some last) src (by simp) hlast).1
  have hwide : Spares c c₁ fun key => key = some d ∨ key = none := hspares.mono fun _ => .inr
  cases host with
  | none =>
    exact ⟨hwide, hd₁, (fun h => nomatch h), fun _ => hnone rfl, hshadow₁⟩
  | some host =>
    obtain ⟨hkey, hsome⟩ := hhost host rfl
    have hto := hspares.inv.ofBytes (s := c₁.heap.enqueueUSMMemcpy host (c₁.heap.written src)
        c₁.buffer.size a.copyToHost) hkey rfl fun x hx => ⟨update_of_ne hx .., rfl⟩
    have hto' := hwide.trans (hto.mono fun _ => .inr)
    cases hcopy : a.copyToHost with
    | false =>
      rw [hcopy] at hto'
      refine ⟨hto', hd₁, (fun h => nomatch h), fun _ hm => ?_, hshadow₁⟩
      have hbad := hm.2.1
      rw [hcopy] at hbad
      cases hbad
    | true =>
      rw [hcopy] at hto hto'
      have hback := hto.inv.ofBytes (s := (c₁.heap.enqueueUSMMemcpy host (c₁.heap.written src)
        c₁.buffer.size true).enqueueUSMMemcpy handle ((c₁.heap.enqueueUSMMemcpy host
          (c₁.heap.written src) c₁.buffer.size true).written host) c₁.buffer.size a.copyToDevice)
        hd₁ rfl fun x hx => ⟨update_of_ne hx .., rfl⟩
      refine ⟨hto'.trans (hback.mono fun _ => .inl), hd₁, fun hdev => ⟨⟨hsome, hcopy, hdev⟩,
        fun i hi => ?_⟩, fun hdev hm => ?_, hshadow₁⟩
      · have hi₁ : i < c₁.buffer.size := by
          rw [hspares.size]
          exact hi
        rw [show a.copyToDevice = true from hdev, ← hsrc₁]
        simp [MsanHeap.enqueueUSMMemcpy, hi₁]
      · have hbad := hm.2.2
        rw [show a.copyToDevice = false from hdev] at hbad
        cases hbad

/-! ## `getHandle` -/

/-- The shadow is right on the device that was synced last. -/
def Tracks (c : MsanCall) : Prop :=
  ∀ d block, c.buffer.lastSyncedDevice = some (d, block) →
    ∀ i, i < c.buffer.size → c.heap.initialised block i = c.heap.written block i

/-- The condition on a call: where its driver calls succeed, the shadow of the device's memory
says already what the data that arrives is. -/
def MigrationOk (c : MsanCall) (a : HandleAnswer) (d : Device) : Prop :=
  c.Provides a d →
    match c.buffer.lastSyncedDevice with
    | none => ∀ i, i < c.buffer.size → c.mark a d i = c.value d i
    | some (last, src) => d ≠ last → c.Migrates a →
      ∀ i, i < c.buffer.size → c.mark a d i = c.heap.written src i

theorem Spares.tracks (h : Spares c c' keys) (hinv : c.Inv) (ht : c.Tracks)
    (hk : ∀ d block, c.buffer.lastSyncedDevice = some (d, block) → ¬ keys (some d)) :
    c'.Tracks := by
  intro d block hd i hi
  rw [h.lastSyncedDevice] at hd
  obtain ⟨h₁, h₂⟩ := h.bytes (some d) block (hk d block hd) (hinv.synced d block hd)
  rw [h.size] at hi
  rw [h₁, h₂]
  exact ht d block hd i hi

theorem tracks_sync {d : Device} : (c.sync d block).1.Tracks ↔
      ∀ i, i < c.buffer.size → c.heap.initialised block i = c.heap.written block i := by
  constructor
  · intro h
    exact h d block rfl
  · rintro h d' block' hd
    obtain ⟨rfl, rfl⟩ := Prod.mk.inj (Option.some.inj hd)
    exact h

theorem Inv.sync (h : c.Inv) {d : Device}
    (hd : c.buffer.allocation (some d) = some block) : (c.sync d block).1.Inv := by
  refine ⟨h.proper, h.owned, h.distinct, fun d' block' hd' => ?_⟩
  obtain ⟨rfl, rfl⟩ := Prod.mk.inj (Option.some.inj hd')
  exact hd

/-- What a call of `getHandle` does to the buffer's blocks and to the shadow. -/
structure Handles (c : MsanCall) (a : HandleAnswer) (d : Device) (r : MsanCall × Option Block) :
    Prop where
  inv : r.1.Inv
  tracks : r.1.Tracks ↔ c.MigrationOk a d
  synced : ∀ block, r.2 = some block → r.1.buffer.lastSyncedDevice = some (d, block) ∧
    r.1.buffer.size = c.buffer.size
  moved : ∀ block last src, r.2 = some block → c.buffer.lastSyncedDevice = some (last, src) →
    d ≠ last → ∀ i, i < c.buffer.size → r.1.heap.written block i = c.heap.written src i

/-- The cases are those of the code: no allocation, the first use, the same device, another one. -/
theorem getHandle_handles (h : c.Inv) (ht : c.Tracks) (hl : c.Legal a) (device : Option Device) :
    Handles c a (c.buffer.target device) (c.getHandle a device) := by
  have hserves := deviceAllocation_serves h hl (c.buffer.target device)
  have hhost := hl.host_after (c.buffer.target device)
  unfold getHandle
  generalize c.deviceAllocation a (c.buffer.target device) = r at hserves hhost
  generalize c.buffer.target device = d at hserves
  obtain ⟨c₁, block⟩ := r
  obtain ⟨hspares, hserved, hrefused, hsame⟩ := hserves
  cases block with
  | none =>
    obtain ⟨hnot, hnone⟩ := hrefused rfl
    have ht' : c₁.Tracks := hspares.tracks h ht fun d' block hd' hkey => by
      have hd := h.synced d' block hd'
      rw [hkey, hnone] at hd
      cases hd
    exact ⟨hspares.inv, iff_of_true ht' fun hp => absurd hp hnot, (fun _ hb => nomatch hb),
      fun _ _ _ hb => nomatch hb⟩
  | some handle =>
    obtain ⟨hprov, hd, hbytes⟩ := hserved handle rfl
    have hlastEq := hspares.lastSyncedDevice
    have hsize := hspares.size
    have hinv := hspares.inv
    simp only at hlastEq hsize hinv hd hbytes hhost ⊢
    unfold syncHandle
    rw [hlastEq]
    -- nothing is copied for the first device
    cases hlast : c.buffer.lastSyncedDevice with
    | none =>
      refine ⟨hinv.sync hd, ?_, fun b hb => ?_, fun _ _ _ _ hs => by rw [hlast] at hs; cases hs⟩
      · unfold MigrationOk
        rw [hlast, tracks_sync, hsize]
        simp only [hprov, true_implies]
        exact forall₂_congr fun i hi => by rw [(hbytes i hi).1, (hbytes i hi).2]
      · obtain rfl := Option.some.inj hb
        exact ⟨rfl, hsize⟩
    | some p =>
      obtain ⟨last, src⟩ := p
      have hsrc := h.synced last src hlast
      simp only
      by_cases hdl : d = last
      · -- the device that was synced last
        subst hdl
        obtain ⟨rfl, -⟩ := Prod.mk.inj (hsame src hsrc)
        rw [if_pos rfl]
        have hsrc' : src = handle := Option.some.inj (hsrc.symm.trans hd)
        subst hsrc'
        refine ⟨hinv.sync hd, iff_of_true ?_ ?_, fun b hb => ?_, fun _ _ _ _ hs hne => ?_⟩
        · exact tracks_sync.mpr (ht d src hlast)
        · intro _
          rw [hlast]
          exact fun hne => absurd rfl hne
        · obtain rfl := Option.some.inj hb
          exact ⟨rfl, rfl⟩
        · obtain ⟨rfl, -⟩ := Prod.mk.inj (Option.some.inj (hlast.symm.trans hs))
          exact absurd rfl hne
      · rw [if_neg hdl]
        have hkeyLast : ¬ some last = some d := fun hc => hdl (Option.some.inj hc).symm
        have hlast₁ := (hspares.allocation (some last) hkeyLast).trans hsrc
        have hsrc₁ := (hspares.bytes (some last) src hkeyLast hsrc).1
        have hmig : c₁.Migrates a ↔ c.Migrates a := by
          unfold Migrates
          rw [hspares.allocation none (by simp)]
        have hmoves := migrate_moves hinv hhost hd hlast₁
        generalize c₁.migrate a src handle = m at hmoves ⊢
        obtain ⟨c₂, ok⟩ := m
        obtain ⟨hspares₂, hd₂, hmoved, hfailed, hshadow⟩ := hmoves
        have hsize₂ : c₂.buffer.size = c.buffer.size := hspares₂.size.trans hsize
        -- a copy that fails leaves the bytes where they were
        cases ok with
        | false =>
          have hnot := hfailed rfl
          rw [hmig] at hnot
          refine ⟨hspares₂.inv, iff_of_true ?_ ?_, (fun _ hb => nomatch hb),
            fun _ _ _ hb => nomatch hb⟩
          · refine ((hspares.mono fun _ => .inl).trans hspares₂).tracks h ht ?_
            intro d' block hd' hkey
            obtain ⟨rfl, -⟩ := Prod.mk.inj (Option.some.inj (hlast.symm.trans hd'))
            rcases hkey with hkey | hkey
            · exact hkeyLast hkey
            · cases hkey
          · intro _
            rw [hlast]
            exact fun _ hm => absurd hm hnot
        | true =>
          obtain ⟨hm, hdata⟩ := hmoved rfl
          have hwritten : ∀ i, i < c.buffer.size → c₂.heap.written handle i
              = c.heap.written src i := by
            intro i hi
            rw [hdata i (by rw [hsize]; exact hi), hsrc₁]
          refine ⟨hspares₂.inv.sync hd₂, ?_, fun b hb => ?_, fun b l s hb hs _ i hi => ?_⟩
          · unfold MigrationOk
            rw [hlast]
            simp only [if_true, tracks_sync, hsize₂, hprov, hdl, hmig.mp hm, true_implies,
              ne_eq, not_false_eq_true]
            refine forall₂_congr fun i hi => ?_
            rw [hwritten i hi, hshadow, (hbytes i hi).1]
          · obtain rfl := Option.some.inj hb
            exact ⟨rfl, hsize₂⟩
          · obtain rfl := Option.some.inj hb
            obtain ⟨rfl, rfl⟩ := Prod.mk.inj (Option.some.inj (hlast.symm.trans hs))
            exact hwritten i hi

/-! ## Runs -/

/-- A device writes bytes of a block: values or what holds none. The shadow is updated with
them. -/
def write (c : MsanCall) (block : Block) (bytes : Nat → Option Bool) : MsanCall where
  heap := { c.heap with
    written := update c.heap.written block fun i =>
      (bytes i).getD (c.heap.written block i)
    initialised := update c.heap.initialised block fun i =>
      (bytes i).getD (c.heap.initialised block i) }
  buffer := c.buffer

theorem write_inv (h : c.Inv) {d : Device}
    (hd : c.buffer.allocation (some d) = some block) (bytes : Nat → Option Bool) :
    (c.write block bytes).Inv :=
  (h.ofBytes (s := (c.write block bytes).heap) hd rfl fun _ hx =>
    ⟨update_of_ne hx .., update_of_ne hx ..⟩).inv

theorem write_tracks (ht : c.Tracks) (block : Block) (bytes : Nat → Option Bool) :
    (c.write block bytes).Tracks := by
  intro d b hd i hi
  have hold := ht d b hd i hi
  simp only [write]
  by_cases hb : b = block
  · subst hb
    rw [update_self, update_self, hold]
  · rw [update_of_ne hb, update_of_ne hb, hold]

/-- A block that was filled from the host and unpoisoned. -/
theorem filled_tracks (h : c.Inv) {d : Device} (hd : c.buffer.lastSyncedDevice = some (d, block)) :
    (c.filled block).Inv ∧ (c.filled block).Tracks := by
  refine ⟨(h.ofBytes (s := (c.filled block).heap) (h.synced d block hd) rfl fun _ hx =>
    ⟨update_of_ne hx .., update_of_ne hx ..⟩).inv, fun d' b hd' i hi => ?_⟩
  obtain ⟨rfl, rfl⟩ := Prod.mk.inj (Option.some.inj (hd.symm.trans hd'))
  have hi' : i < c.buffer.size := hi
  simp [filled, MsanHeap.enqueuePoisonShadow, MsanHeap.enqueueUSMMemcpy, hi']

/-- Induction on the copies: each fills the block that its handle has been given. -/
theorem copyLoop_tracks (as : List CopyAnswer) (h : c.Inv) (ht : c.Tracks)
    (hl : c.LegalCopies as) (hdone : (c.copyLoop as).2 = true) :
    (c.copyLoop as).1.Inv ∧ (c.copyLoop as).1.Tracks := by
  induction as generalizing c with
  | nil => exact ⟨h, ht⟩
  | cons a as ih =>
    obtain ⟨hl, hnext⟩ := hl
    have hhandles := getHandle_handles h ht hl (some a.device)
    unfold copyLoop at hdone ⊢
    generalize c.getHandle a.handle (some a.device) = r at hhandles hnext hdone
    obtain ⟨c', block⟩ := r
    cases block with
    | none => cases hdone
    | some block =>
      have hfilled := filled_tracks hhandles.inv (hhandles.synced block rfl).1
      cases hcopies : a.copies with
      | false =>
        rw [hcopies] at hdone
        cases hdone
      | true =>
        cases hun : a.unpoisons with
        | false =>
          rw [hcopies, hun] at hdone
          cases hdone
        | true =>
          rw [hcopies, hun] at hdone
          exact ih hfilled.1 hfilled.2 (hnext block rfl) hdone

/-- A buffer after `urMemBufferCreate` and any calls of `getHandle` that meet the condition,
writes of devices, and whatever leaves its blocks alone. -/
inductive Reached : MsanCall → Prop where
  | create (s : MsanHeap) (contextId : ContextId) (context : BufferContext) (size : Nat)
      (hostPtr : Bool) (copies : List CopyAnswer) (hs : ∀ x ∈ s.live, x.Proper)
      (hl : LegalCopies ⟨s, .new contextId context size hostPtr⟩ copies)
      (hdone : (copyLoop ⟨s, .new contextId context size hostPtr⟩ copies).2 = true) :
      Reached (copyLoop ⟨s, .new contextId context size hostPtr⟩ copies).1
  | getHandle {c : MsanCall} {a : HandleAnswer} (device : Option Device) (h : Reached c)
      (hl : c.Legal a) (hok : c.MigrationOk a (c.buffer.target device)) :
      Reached (c.getHandle a device).1
  | write {c : MsanCall} {d : Device} {block : Block} (bytes : Nat → Option Bool) (h : Reached c)
      (hd : c.buffer.allocation (some d) = some block) : Reached (c.write block bytes)
  | other {c : MsanCall} {s : MsanHeap} (h : Reached c)
      (hs : Spares c ⟨s, c.buffer⟩ fun _ => False) : Reached ⟨s, c.buffer⟩

theorem Reached.tracks (h : Reached c) : c.Inv ∧ c.Tracks := by
  induction h with
  | create s contextId context size hostPtr copies hs hl hdone =>
    refine copyLoop_tracks copies ⟨hs, ?_, ?_, ?_⟩ ?_ hl hdone
    · exact fun _ _ hk => nomatch hk
    · exact fun _ _ _ hk => nomatch hk
    · exact fun _ _ hd => nomatch hd
    · exact fun _ _ hd => nomatch hd
  | getHandle device _ hl hok ih =>
    have hh := getHandle_handles ih.1 ih.2 hl device
    exact ⟨hh.inv, hh.tracks.mpr hok⟩
  | write bytes _ hd ih => exact ⟨write_inv ih.1 hd bytes, write_tracks ih.2 _ bytes⟩
  | other _ hs ih => exact ⟨hs.inv, hs.tracks ih.1 ih.2 fun _ _ _ hk => hk⟩

/-- **Migration.** In the runs whose calls meet the condition the shadow of the device that was
synced last is right, and after a migration it says of each byte what it said on the device the
data came from. The condition on a call is exact. -/
theorem migration_exact (h : Reached c) :
    c.Tracks ∧
    (∀ a device block last src, c.Legal a → c.MigrationOk a (c.buffer.target device) →
      (c.getHandle a device).2 = some block →
      c.buffer.lastSyncedDevice = some (last, src) → c.buffer.target device ≠ last →
      ∀ i, i < c.buffer.size →
        (c.getHandle a device).1.heap.initialised block i = c.heap.initialised src i) ∧
    ∀ a device, c.Legal a →
      ((c.getHandle a device).1.Tracks ↔ c.MigrationOk a (c.buffer.target device)) := by
  obtain ⟨hinv, ht⟩ := h.tracks
  refine ⟨ht, fun a device block last src hl hok hres hlast hne i hi => ?_,
    fun a device hl => (getHandle_handles hinv ht hl device).tracks⟩
  have hh := getHandle_handles hinv ht hl device
  obtain ⟨hsynced, hsize⟩ := hh.synced block hres
  calc (c.getHandle a device).1.heap.initialised block i
      = (c.getHandle a device).1.heap.written block i :=
        hh.tracks.mpr hok _ block hsynced i (by rw [hsize]; exact hi)
    _ = c.heap.written src i := hh.moved block last src hres hlast hne i hi
    _ = c.heap.initialised src i := (ht last src hlast i hi).symm

/-- A buffer of one byte on an empty heap whose shadow says nothing is initialised. -/
def oneByte (hostPtr : Bool) : MsanCall :=
  ⟨⟨[], [], fun _ _ => false, fun _ _ => false⟩, .new 0 ⟨[1, 2], by decide⟩ 1 hostPtr⟩

/-- All driver calls succeed. -/
def givesOut (device host : Block) : HandleAnswer :=
  ⟨some ⟨device, true⟩, true, true, some host, true, true⟩

/-- Memory behind all that is allocated. -/
theorem givesOut_legal {c : MsanCall} {device host : Block} (hsize : c.buffer.size = 1)
    (hlive : ∀ x ∈ c.heap.live, x.endAddr ≤ device ∧ x.endAddr ≤ host)
    (hd : device + 1 < 2 ^ 64) (hh : host + 1 < 2 ^ 64)
    (hapart : host + 1 ≤ device ∨ device + 1 ≤ host) : c.Legal (givesOut device host) := by
  refine ⟨fun p hp owner => ?_, fun b hb => ?_, fun p b hp hb owner => ?_⟩
  · obtain rfl := Option.some.inj hp
    rw [hsize]
    exact ⟨⟨Nat.one_pos, hd⟩, fun x hx => .inr (hlive x hx).1⟩
  · obtain rfl := Option.some.inj hb
    rw [hsize]
    exact ⟨⟨Nat.one_pos, hh⟩, fun x hx => .inr (hlive x hx).2⟩
  · obtain rfl := Option.some.inj hp
    obtain rfl := Option.some.inj hb
    rw [hsize]
    exact hapart

/-- The buffer with a host pointer, in use on device 1. -/
def usedOnce : MsanCall := ((oneByte true).getHandle (givesOut 4096 8192) (some 1)).1

theorem usedOnce_reached : Reached usedOnce := by
  have hstart : Reached (oneByte true) :=
    .create ⟨[], [], fun _ _ => false, fun _ _ => false⟩ 0 ⟨[1, 2], by decide⟩ 1 true []
      (fun x hx => nomatch hx) trivial rfl
  have hl : (oneByte true).Legal (givesOut 4096 8192) :=
    givesOut_legal rfl (fun x hx => nomatch hx) (by decide) (by decide) (by decide)
  refine .getHandle (some 1) hstart hl fun _ i hi => ?_
  rfl

theorem usedOnce_legal : usedOnce.Legal (givesOut 12288 8192) := by
  refine givesOut_legal rfl (fun x hx => ?_) (by decide) (by decide) (by decide)
  obtain rfl := List.mem_singleton.mp hx
  exact ⟨by decide, by decide⟩

/-- The buffer migrates from device 1 to device 2, where it has no memory yet: its byte, which
came from the host pointer, is initialised on both. -/
theorem migration_exact_second :
    usedOnce.Tracks ∧ usedOnce.buffer.lastSyncedDevice = some (1, 4096) ∧
      (usedOnce.getHandle (givesOut 12288 8192) (some 2)).2 = some 12288 ∧
      usedOnce.heap.initialised 4096 0 = true ∧
      (usedOnce.getHandle (givesOut 12288 8192) (some 2)).1.heap.initialised 12288 0 = true ∧
      (usedOnce.getHandle (givesOut 12288 8192) (some 2)).1.Tracks := by
  obtain ⟨htracks, hsame, hexact⟩ := migration_exact usedOnce_reached
  have hok : usedOnce.MigrationOk (givesOut 12288 8192) 2 := by
    intro _ _ _ i hi
    obtain rfl : i = 0 := Nat.lt_one_iff.mp hi
    rfl
  have hmoved := hsame (givesOut 12288 8192) (some 2) 12288 1 4096 usedOnce_legal hok rfl rfl
    (by decide) 0 Nat.one_pos
  have hbyte : usedOnce.heap.initialised 4096 0 = true := rfl
  exact ⟨htracks, rfl, rfl, hbyte, hmoved.trans hbyte, (hexact _ (some 2) usedOnce_legal).mpr hok⟩

/-- A byte that device 1 wrote is not initialised on device 2; and one that came from the host
pointer and was overwritten with nothing is initialised there. -/
theorem migration_wrong :
    let first := ((oneByte false).getHandle (givesOut 4096 8192) (some 1)).1.write 4096
      fun _ => some true
    let second := ((oneByte true).getHandle (givesOut 4096 8192) (some 1)).1.write 4096
      fun _ => some false
    (first.heap.initialised 4096 0 = true ∧
      (first.getHandle (givesOut 12288 8192) (some 2)).2 = some 12288 ∧
      (first.getHandle (givesOut 12288 8192) (some 2)).1.heap.initialised 12288 0 = false) ∧
    second.heap.initialised 4096 0 = false ∧
      (second.getHandle (givesOut 12288 8192) (some 2)).1.heap.initialised 12288 0 = true := by
  decide

end MsanCall

end UnifiedRuntime.Sanitizer
