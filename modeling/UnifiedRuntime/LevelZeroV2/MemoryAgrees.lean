import UnifiedRuntime.LevelZeroV2.Memory

/-!
# Where the bytes of a buffer are

An integrated buffer has its bytes in its allocation, and its maps are that allocation.
A discrete buffer has the bytes that are not in a window the host may write on its
active device, and those of a window in the window's copy, where they were copied or the
host has written them (`DiscreteAgrees`).
-/

namespace UnifiedRuntime.LevelZeroV2

open Function (update update_of_ne update_self)

/-! ## Blocks -/

/-- The buffer an allocation is for. -/
def Block.buffer : Block → Nat
  | .shared b | .user b | .device b _ | .mapped b _ => b

namespace Memory

/-- A store leaves the other blocks alone. -/
theorem store_ne (mem : Memory) (p : Ptr) (n : Nat) (data : Nat → Option Nat) {blk : Block}
    (h : blk ≠ p.block) (i : Nat) : mem.store p n data blk i = mem blk i := by
  unfold store
  rw [if_neg fun hc => h hc.1]

theorem store_in (mem : Memory) (p : Ptr) (data : Nat → Option Nat) {n i : Nat} (hi : i < n) :
    mem.store p n data p.block (p.offset + i) = data i := by
  unfold store
  rw [if_pos ⟨rfl, by omega, by omega⟩, Nat.add_sub_cancel_left]

theorem store_out (mem : Memory) (p : Ptr) (data : Nat → Option Nat) {n i : Nat}
    (h : ¬ (p.offset ≤ i ∧ i < p.offset + n)) (blk : Block) :
    mem.store p n data blk i = mem blk i := by
  unfold store
  rw [if_neg fun hc => h hc.2]

theorem copy_in (mem : Memory) (dst src : Ptr) {n i : Nat} (hi : i < n) :
    mem.copy dst src n dst.block (dst.offset + i) = mem src.block (src.offset + i) :=
  store_in mem dst (mem.byteAt src) hi

end Memory

/-! ## Agreement -/

/-- The block on the active device. -/
def DiscreteBuffer.home (m : DiscreteBuffer) : Option Block :=
  m.activeAllocationDevice.bind m.deviceAllocations

structure IntegratedAgrees (s : MemState) (t : PlainState) (b size : Nat) (ptr : Block) : Prop where
  block : ptr.buffer = b
  windows : ∀ k w, t.windows k = some w → w.buffer = b →
    w.offset = 0 ∧ w.size ≤ size ∧ s.ptrs k = some ⟨ptr, 0⟩
  bytes : ∀ i v, i < size → t.arrays b i = some v → s.mem ptr i = some v

structure DiscreteAgrees (s : MemState) (t : PlainState) (b : Nat) (m : DiscreteBuffer) : Prop where
  active : m.activeAllocationDevice.isSome → m.home.isSome
  homeBlock : ∀ blk, m.home = some blk →
    blk.buffer = b ∧ (∀ k, blk ≠ .mapped b k) ∧ m.mapToPtr ≠ some blk
  mapTo : ∀ blk, m.mapToPtr = some blk → blk = .user b
  ptrs : ∀ k w, t.windows k = some w → w.buffer = b →
    s.ptrs k = some ⟨m.mapToPtr.getD (.mapped b k), 0⟩
  entries : ∀ e, e ∈ m.hostAllocations ↔ ∃ k w, t.windows k = some w ∧ w.buffer = b ∧
    e = ⟨⟨m.mapToPtr.getD (.mapped b k), 0⟩, w.size, w.offset, w.flags⟩
  nodup : (m.hostAllocations.map HostAllocation.ptr).Nodup
  single : m.mapToPtr.isSome → ∀ k k' w w', t.windows k = some w → t.windows k' = some w' →
    w.buffer = b → w'.buffer = b → k = k'
  range : ∀ k w, t.windows k = some w → w.buffer = b → w.offset + w.size ≤ m.size
  exclusive : ∀ k k' w w', k ≠ k' → t.windows k = some w → t.windows k' = some w' →
    w.buffer = b → w.writable = true → ¬ w'.Overlaps b w.offset w.size
  onDevice : ∀ i v, i < m.size → t.Unwritten b i 1 → t.arrays b i = some v →
    ∃ blk, m.home = some blk ∧ s.mem blk i = some v
  inWindow : ∀ k w i v, t.windows k = some w → w.buffer = b → i < w.size →
    (w.flags.read = true ∨ w.written i = true) → t.arrays b (w.offset + i) = some v →
    s.mem (m.mapToPtr.getD (.mapped b k)) i = some v

/-- The buffer holds the bytes of its array. -/
def Agrees (s : MemState) (t : PlainState) (b : Nat) : RootBuffer → Prop
  | .integrated size ptr => IntegratedAgrees s t b size ptr
  | .discrete m => DiscreteAgrees s t b m

structure MemAgrees (user : Nat → Nat → Option Nat) (s : MemState) (t : PlainState) : Prop where
  sizes : ∀ b, t.sizes b = (s.buffers b).map RootBuffer.size
  maps : t.maps = s.maps
  fresh : ∀ k, s.maps ≤ k → t.windows k = none
  known : ∀ k w, t.windows k = some w → (s.buffers w.buffer).isSome
  buffers : ∀ b root, s.buffers b = some root → Agrees s t b root
  userMem : ∀ b, s.buffers b = none → s.mem (.user b) = user b

section Frame

variable {user : Nat → Nat → Option Nat} {s s' : MemState} {t t' : PlainState} {b : Nat}

theorem Unwritten.congr (hw : ∀ k w, w.buffer = b → (t'.windows k = some w ↔ t.windows k = some w))
    {start n : Nat} : t'.Unwritten b start n ↔ t.Unwritten b start n := by
  constructor
  all_goals
    intro h k w hk hwr ho
    have hb := ho.1
  · exact h k w ((hw k w hb).mpr hk) hwr ho
  · exact h k w ((hw k w hb).mp hk) hwr ho

/-- What an agreement is about: the blocks, the array and the windows of the buffer. -/
theorem Agrees.frame {root : RootBuffer} (h : Agrees s t b root)
    (hmem : ∀ blk : Block, blk.buffer = b → s'.mem blk = s.mem blk)
    (hptrs : ∀ k w, t.windows k = some w → w.buffer = b → s'.ptrs k = s.ptrs k)
    (harr : t'.arrays b = t.arrays b)
    (hw : ∀ k w, w.buffer = b → (t'.windows k = some w ↔ t.windows k = some w)) :
    Agrees s' t' b root := by
  have hw' : ∀ {k w}, t'.windows k = some w → w.buffer = b → t.windows k = some w :=
    fun hk hb => (hw _ _ hb).mp hk
  have hun : ∀ {start n}, t'.Unwritten b start n ↔ t.Unwritten b start n := Unwritten.congr hw
  cases root with
  | integrated size ptr =>
    refine ⟨h.block, fun k w hk hb => ?_, fun i v hi hv => ?_⟩
    · rw [hptrs k w (hw' hk hb) hb]
      exact h.windows k w (hw' hk hb) hb
    · rw [hmem ptr h.block]
      exact h.bytes i v hi (harr ▸ hv)
  | discrete m =>
    refine ⟨h.active, h.homeBlock, h.mapTo, fun k w hk hb => ?_, fun e => ?_, h.nodup,
      fun hm k k' w w' hk hk' hb hb' => h.single hm k k' w w' (hw' hk hb) (hw' hk' hb') hb hb',
      fun k w hk hb => h.range k w (hw' hk hb) hb,
      fun k k' w w' hne hk hk' hb hwr ho =>
        h.exclusive k k' w w' hne (hw' hk hb) (hw' hk' ho.1) hb hwr ho,
      fun i v hi hu hv => ?_, fun k w i v hk hb hi hr hv => ?_⟩
    · rw [hptrs k w (hw' hk hb) hb]
      exact h.ptrs k w (hw' hk hb) hb
    · rw [h.entries e]
      constructor
      · rintro ⟨k, w, hk, hb, he⟩
        exact ⟨k, w, (hw k w hb).mpr hk, hb, he⟩
      · rintro ⟨k, w, hk, hb, he⟩
        exact ⟨k, w, hw' hk hb, hb, he⟩
    · obtain ⟨blk, hblk, hbyte⟩ := h.onDevice i v hi (hun.mp hu) (harr ▸ hv)
      exact ⟨blk, hblk, by rw [hmem blk (h.homeBlock blk hblk).1]; exact hbyte⟩
    · have hblk : (m.mapToPtr.getD (.mapped b k)).buffer = b := by
        cases hm : m.mapToPtr with
        | none => rfl
        | some blk =>
          rw [h.mapTo blk hm]
          rfl
      rw [hmem _ hblk]
      exact h.inWindow k w i v (hw' hk hb) hb hi hr (harr ▸ hv)

/-- A step changes one buffer. -/
theorem MemAgrees.change (hA : MemAgrees user s t) (b : Nat) (root : RootBuffer)
    (hbufs : s'.buffers = update s.buffers b (some root))
    (hsizes : t'.sizes = update t.sizes b (some root.size))
    (hmem : ∀ blk : Block, blk.buffer ≠ b → s'.mem blk = s.mem blk)
    (hptrs : ∀ k w, t.windows k = some w → w.buffer ≠ b → s'.ptrs k = s.ptrs k)
    (harr : ∀ b', b' ≠ b → t'.arrays b' = t.arrays b')
    (hw : ∀ k w, w.buffer ≠ b → (t'.windows k = some w ↔ t.windows k = some w))
    (hmaps : t'.maps = s'.maps) (hfresh : ∀ k, s'.maps ≤ k → t'.windows k = none)
    (hag : Agrees s' t' b root) : MemAgrees user s' t' := by
  refine ⟨fun b' => ?_, hmaps, hfresh, fun k w hk => ?_, fun b' root' hb' => ?_, fun b' hb' => ?_⟩
  · rw [hsizes, hbufs]
    by_cases hb : b' = b
    · subst hb
      rw [update_self, update_self]
      rfl
    · rw [update_of_ne hb, update_of_ne hb]
      exact hA.sizes b'
  · rw [hbufs]
    by_cases hb : w.buffer = b
    · rw [hb, update_self]
      rfl
    · rw [update_of_ne hb]
      exact hA.known k w ((hw k w hb).mp hk)
  · rw [hbufs] at hb'
    by_cases hb : b' = b
    · subst hb
      rw [update_self] at hb'
      obtain rfl := Option.some.inj hb'
      exact hag
    · rw [update_of_ne hb] at hb'
      exact (hA.buffers b' root' hb').frame (fun blk hblk => hmem blk (hblk ▸ hb))
        (fun k w hk hwb => hptrs k w hk (hwb ▸ hb)) (harr b' hb) fun k w hwb => hw k w (hwb ▸ hb)
  · rw [hbufs] at hb'
    by_cases hb : b' = b
    · subst hb
      rw [update_self] at hb'
      cases hb'
    · rw [update_of_ne hb] at hb'
      rw [hmem (.user b') hb]
      exact hA.userMem b' hb'

end Frame

/-! ## Allocating on a device -/

section Device

variable {c : MemContext} {user : Nat → Nat → Option Nat} {s s' : MemState} {t : PlainState}
  {b d : Nat} {m m' : DiscreteBuffer}

theorem allocateOnDevice_home (m : DiscreteBuffer) (b d : Nat) :
    (m.allocateOnDevice b d).home = some (.device b d) :=
  update_self ..

theorem getActiveDeviceAlloc_eq (m : DiscreteBuffer) (offset : Nat) :
    m.getActiveDeviceAlloc offset = m.home.map fun blk => ⟨blk, offset⟩ := rfl

/-- A buffer without an allocation gets one. -/
theorem DiscreteAgrees.allocate (h : DiscreteAgrees s t b m) (hm : m.activeAllocationDevice = none)
    (d : Nat) : DiscreteAgrees s t b (m.allocateOnDevice b d) := by
  have hhome : m.home = none := by
    unfold DiscreteBuffer.home
    rw [hm]
    rfl
  refine ⟨fun _ => by rw [allocateOnDevice_home]; rfl, fun blk hblk => ?_, h.mapTo, h.ptrs, h.entries,
    h.nodup, h.single, h.range, h.exclusive, fun i v hi hu hv => ?_, h.inWindow⟩
  · rw [allocateOnDevice_home] at hblk
    obtain rfl := Option.some.inj hblk
    refine ⟨rfl, fun k hk => (by cases hk), fun hmap => ?_⟩
    cases h.mapTo _ hmap
  · -- nothing was on a device
    obtain ⟨blk, hblk, -⟩ := h.onDevice i v hi hu hv
    rw [hhome] at hblk
    cases hblk

/-- `getDevicePtr` of a discrete buffer: the byte of the block on the active device. -/
theorem discrete_getDevicePtr {offset : Nat} {p : Ptr} (h : DiscreteAgrees s t b m)
    (hp : m.getDevicePtr c b d offset = some (m', p)) :
    DiscreteAgrees s t b m' ∧ m'.size = m.size ∧ ∃ blk, m'.home = some blk ∧ p = ⟨blk, offset⟩ := by
  obtain ⟨active, hactive, hp⟩ := Option.bind_eq_some_iff.mp hp
  obtain ⟨-, hp⟩ := Option.ite_none_right_eq_some.mp hp
  obtain ⟨p', hp', heq⟩ := Option.map_eq_some_iff.mp hp
  obtain ⟨rfl, rfl⟩ := Prod.mk.inj heq
  obtain ⟨blk, hblk, hp'⟩ := Option.map_eq_some_iff.mp hp'
  split at hblk
  · next hnone =>
    have hm : m.activeAllocationDevice = none := Option.isNone_iff_eq_none.mp hnone
    rw [if_pos hnone]
    exact ⟨h.allocate hm d, rfl, blk, hblk, hp'.symm⟩
  · next hsome =>
    rw [if_neg hsome]
    exact ⟨h, rfl, blk, hblk, hp'.symm⟩

end Device

/-! ## Pointers of handles -/

/-- Where the bytes of a buffer are on the devices. -/
def RootBuffer.home : RootBuffer → Option Block
  | .integrated _ ptr => some ptr
  | .discrete m => m.home

section Handles

variable {c : MemContext} {user : Nat → Nat → Option Nat} {s s' : MemState} {t : PlainState}
  {d : Nat} {h : BufferHandle} {offset : Nat} {p : Ptr}

/-- What `getDevicePtr` finds: the byte of the root, or the start of an integrated one. -/
structure Found (s s' : MemState) (t : PlainState) (b start : Nat) (p : Ptr) : Prop where
  mem : s'.mem = s.mem ∧ s'.ptrs = s.ptrs ∧ s'.maps = s.maps
  root : ∃ root root', s.buffers b = some root ∧ s'.buffers = update s.buffers b (some root') ∧
    root'.size = root.size ∧ Agrees s t b root' ∧
    ((∃ size ptr, root = .integrated size ptr ∧ root' = root ∧ p = ⟨ptr, 0⟩) ∨
      ∃ m m' blk, root = .discrete m ∧ root' = .discrete m' ∧ m'.home = some blk ∧ p = ⟨blk, start⟩)

theorem getDevicePtr_found (hA : ∀ b root, s.buffers b = some root → Agrees s t b root)
    (hp : s.getDevicePtr c d h offset = some (s', p)) :
    Found s s' t h.rootOf (h.origin + offset) p := by
  induction h generalizing offset with
  | root b =>
    obtain ⟨root, hroot, hp⟩ := Option.bind_eq_some_iff.mp hp
    have hag := hA b root hroot
    cases root with
    | integrated size ptr =>
      obtain ⟨rfl, rfl⟩ := Prod.mk.inj (Option.some.inj hp)
      exact ⟨⟨rfl, rfl, rfl⟩, _, _, hroot, (Function.update_eq_self_iff.mpr hroot.symm).symm, rfl, hag,
        .inl ⟨size, ptr, rfl, rfl, rfl⟩⟩
    | discrete m =>
      obtain ⟨⟨m', p'⟩, hm, heq⟩ := Option.map_eq_some_iff.mp hp
      obtain ⟨rfl, rfl⟩ := Prod.mk.inj heq
      obtain ⟨hag', hsize, blk, hblk, hp'⟩ := discrete_getDevicePtr hag hm
      have hzero : (BufferHandle.root b).origin + offset = offset := Nat.zero_add offset
      rw [hzero]
      exact ⟨⟨rfl, rfl, rfl⟩, _, .discrete m', hroot, rfl, hsize, hag',
        .inr ⟨m, m', blk, rfl, rfl, hblk, hp'⟩⟩
  | sub hParent start size ih =>
    have horigin : (BufferHandle.sub hParent start size).origin + offset
        = hParent.origin + (offset + start) := by
      simp only [BufferHandle.origin]
      omega
    rw [horigin]
    exact ih hp

/-- The bytes of a handle are in its root. -/
theorem has_root {sizes : Nat → Option Nat} {n : Nat} (hh : h.Has sizes offset n) :
    ∃ m, sizes h.rootOf = some m ∧ h.origin + offset + n ≤ m := by
  induction h generalizing offset with
  | root b =>
    obtain ⟨-, m, hm, hle⟩ := hh
    have hzero : (BufferHandle.root b).origin = 0 := rfl
    exact ⟨m, hm, by omega⟩
  | sub hParent start size ih =>
    obtain ⟨⟨hin, k, hk, hks⟩, m, hm, hle⟩ := hh
    obtain rfl : size = m := Option.some.inj hm
    obtain ⟨m', hm', hle'⟩ := ih (show hParent.Has sizes (start + offset) n from ⟨hin, k, hk, by omega⟩)
    have horigin : (BufferHandle.sub hParent start size).origin = hParent.origin + start := rfl
    exact ⟨m', hm', by omega⟩

/-- Finding a pointer keeps the agreement. -/
theorem MemAgrees.found (hA : MemAgrees user s t) {b start : Nat} (hf : Found s s' t b start p) :
    MemAgrees user s' t := by
  obtain ⟨⟨hmem, hptrs, hmaps⟩, root, root', hroot, hbufs, hsize, hag, -⟩ := hf
  have hisSome : ∀ b', (s'.buffers b').isSome = (s.buffers b').isSome := fun b' => by
    rw [hbufs]
    by_cases hb : b' = b
    · subst hb
      simp [hroot]
    · rw [update_of_ne hb]
  have hframe : ∀ {b' root}, Agrees s t b' root → Agrees s' t b' root := fun h =>
    h.frame (fun blk _ => by rw [hmem]) (fun k _ _ _ => by rw [hptrs]) rfl fun _ _ _ => .rfl
  refine ⟨fun b' => ?_, hA.maps.trans hmaps.symm, fun k hk => hA.fresh k (hmaps ▸ hk),
    fun k w hk => by rw [hisSome]; exact hA.known k w hk, fun b' root₁ hb' => ?_, fun b' hb' => ?_⟩
  · rw [hA.sizes b', hbufs]
    by_cases hb : b' = b
    · subst hb
      rw [update_self, hroot, Option.map_some, Option.map_some, hsize]
    · rw [update_of_ne hb]
  · rw [hbufs] at hb'
    by_cases hb : b' = b
    · subst hb
      rw [update_self] at hb'
      obtain rfl := Option.some.inj hb'
      exact hframe hag
    · rw [update_of_ne hb] at hb'
      exact hframe (hA.buffers b' root₁ hb')
  · rw [hmem]
    refine hA.userMem b' (Option.not_isSome_iff_eq_none.mp ?_)
    rw [← hisSome, hb']
    simp

end Handles

end UnifiedRuntime.LevelZeroV2
