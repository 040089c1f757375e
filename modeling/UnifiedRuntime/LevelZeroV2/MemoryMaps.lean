import UnifiedRuntime.LevelZeroV2.MemoryCommands

/-!
# Maps of buffers

A map opens a window on the buffer (`DiscreteAgrees.openWindow`), the host reads and
writes its copy, and an unmap gives the copy's bytes to the device and closes the window
(`DiscreteAgrees.closeWindow`).
-/

namespace UnifiedRuntime.LevelZeroV2

open Function (update update_of_ne update_self)

/-! ## Windows -/

section Maps

variable {c : MemContext} {user : Nat → Nat → Option Nat} {s s' : MemState} {t t' : PlainState}
  {b start : Nat} {p : Ptr} {h : BufferHandle} {m : DiscreteBuffer}

/-- A map is one of the root, from where the handle's bytes are. -/
theorem mapHostPtr_cases {flags : MapFlags} {offset size : Nat}
    (hp : s.mapHostPtr flags h offset size = some (s', p)) :
    (∃ n ptr, s.buffers h.rootOf = some (.integrated n ptr) ∧ s' = s ∧ p = ⟨ptr, 0⟩) ∨
      ∃ m, s.buffers h.rootOf = some (.discrete m) ∧
        (s', p) = s.mapDiscrete h.rootOf m flags (h.origin + offset) size := by
  induction h generalizing offset with
  | root b =>
    obtain ⟨root, hroot, heq⟩ := Option.map_eq_some_iff.mp hp
    cases root with
    | integrated n ptr =>
      obtain ⟨rfl, rfl⟩ := Prod.mk.inj heq
      exact .inl ⟨n, ptr, hroot, rfl, rfl⟩
    | discrete m =>
      refine .inr ⟨m, hroot, ?_⟩
      have hzero : (BufferHandle.root b).origin + offset = offset := Nat.zero_add offset
      rw [hzero]
      exact heq.symm
  | sub hParent start n ih =>
    have horigin : (BufferHandle.sub hParent start n).origin + offset
        = hParent.origin + (offset + start) := by
      simp only [BufferHandle.origin]
      omega
    rw [horigin]
    exact ih hp

theorem unmapHostPtr_cases (hp : s.unmapHostPtr c h p = some s') :
    (∃ n ptr, s.buffers h.rootOf = some (.integrated n ptr) ∧ s' = s) ∨
      ∃ m, s.buffers h.rootOf = some (.discrete m) ∧
        s.unmapDiscrete c h.rootOf m p = some s' := by
  induction h with
  | root b =>
    obtain ⟨root, hroot, heq⟩ := Option.bind_eq_some_iff.mp hp
    cases root with
    | integrated n ptr => exact .inl ⟨n, ptr, hroot, (Option.some.inj heq).symm⟩
    | discrete m => exact .inr ⟨m, hroot, heq⟩
  | sub hParent start n ih => exact ih hp

theorem Window.Overlaps.symm {w w' : Window} (hw : w.buffer = b)
    (ho : w'.Overlaps b w.offset w.size) : w.Overlaps b w'.offset w'.size := by
  obtain ⟨-, i, hi, hi'⟩ := ho
  exact ⟨hw, i, hi', hi⟩

theorem Unmapped.unwritten {n : Nat} (hu : t.Unmapped b start n) : t.Unwritten b start n :=
  fun k w hk _ => hu k w hk

/-- The copy of a window is not on the device. -/
theorem DiscreteAgrees.home_ne (hag : DiscreteAgrees s t b m) {blk : Block} (hhome : m.home = some blk)
    (k : Nat) : blk ≠ m.mapToPtr.getD (.mapped b k) := by
  obtain ⟨-, hmapped, hto⟩ := hag.homeBlock blk hhome
  cases hm : m.mapToPtr with
  | none => exact hmapped k
  | some blk' =>
    intro heq
    rw [hm] at hto
    exact hto (congrArg some heq.symm)

/-- Two windows of a buffer have two copies. -/
theorem DiscreteAgrees.copies_ne (hag : DiscreteAgrees s t b m) {k k' : Nat} {w w' : Window}
    (hk : t.windows k = some w) (hk' : t.windows k' = some w') (hb : w.buffer = b)
    (hb' : w'.buffer = b) (hne : k ≠ k') :
    m.mapToPtr.getD (.mapped b k) ≠ m.mapToPtr.getD (.mapped b k') := by
  cases hm : m.mapToPtr with
  | none =>
    intro heq
    cases heq
    exact hne rfl
  | some blk =>
    exact absurd (hag.single (by rw [hm]; rfl) k k' w w' hk hk' hb hb') hne

/-- A map adds an entry, and copies the bytes if it is to read them. -/
theorem mapDiscrete_spec (s : MemState) (b : Nat) (m : DiscreteBuffer) (flags : MapFlags)
    (offset size : Nat) :
    let r := s.mapDiscrete b m flags offset size
    r.2 = ⟨m.mapToPtr.getD (.mapped b s.maps), 0⟩ ∧ r.1.ptrs = s.ptrs ∧ r.1.maps = s.maps ∧
      r.1.buffers = update s.buffers b (some (.discrete { m with
        hostAllocations := m.hostAllocations ++ [⟨r.2, size, offset, flags⟩] })) ∧
      (∀ blk, blk ≠ r.2.block → r.1.mem blk = s.mem blk) ∧
      ∀ blk i, m.home = some blk → flags.read = true → i < size →
        r.1.mem r.2.block i = s.mem blk (offset + i) := by
  intro r
  have hr : r = s.mapDiscrete b m flags offset size := rfl
  simp only [MemState.mapDiscrete] at hr
  rw [getActiveDeviceAlloc_eq] at hr
  clear_value r
  cases hhome : m.home with
  | none =>
    rw [hhome] at hr
    obtain rfl := hr
    exact ⟨rfl, rfl, rfl, rfl, fun _ _ => rfl, fun blk i hblk => by cases hblk⟩
  | some blk =>
    rw [hhome] at hr
    cases hread : flags.read with
    | false =>
      simp only [Option.map_some, hread] at hr
      obtain rfl := hr
      exact ⟨rfl, rfl, rfl, rfl, fun _ _ => rfl, fun blk i _ hf => by cases hf⟩
    | true =>
      simp only [Option.map_some, hread] at hr
      obtain rfl := hr
      refine ⟨rfl, rfl, rfl, rfl, fun blk' hne => funext fun i =>
        Memory.store_ne _ _ _ _ hne i, fun blk' i hblk _ hi => ?_⟩
      obtain rfl := Option.some.inj hblk
      have hin := Memory.copy_in s.mem ⟨m.mapToPtr.getD (.mapped b s.maps), 0⟩ ⟨blk, offset⟩ hi
      simpa using hin

/-- **A map opens a window.** The copy has the bytes if the host may read them, and the
device still has those of no writable window. -/
theorem DiscreteAgrees.openWindow (hag : DiscreteAgrees s t b m) {w : Window}
    (hmaps : t.windows s.maps = none) (hb : w.buffer = b) (hle : w.offset + w.size ≤ m.size)
    (hfresh : ∀ i, w.written i = false)
    (hlent : m.mapToPtr.isSome → ∀ k w', t.windows k = some w' → w'.buffer ≠ b)
    (hunw : t.Unwritten b w.offset w.size)
    (hunm : w.writable = true → t.Unmapped b w.offset w.size)
    (hw : t'.windows = update t.windows s.maps (some w))
    (harr : ∀ i v, t'.arrays b i = some v → t.arrays b i = some v)
    (hptrs : s'.ptrs = update s.ptrs s.maps (some ⟨m.mapToPtr.getD (.mapped b s.maps), 0⟩))
    (hmem : ∀ blk, blk ≠ m.mapToPtr.getD (.mapped b s.maps) → s'.mem blk = s.mem blk)
    (hcopied : ∀ blk i, m.home = some blk → w.flags.read = true → i < w.size →
      s'.mem (m.mapToPtr.getD (.mapped b s.maps)) i = s.mem blk (w.offset + i)) :
    DiscreteAgrees s' t' b { m with hostAllocations := m.hostAllocations ++
      [⟨⟨m.mapToPtr.getD (.mapped b s.maps), 0⟩, w.size, w.offset, w.flags⟩] } := by
  -- the windows afterwards
  have hnew : t'.windows s.maps = some w := by rw [hw, update_self]
  have hold : ∀ {k}, k ≠ s.maps → t'.windows k = t.windows k := fun hk => by
    rw [hw, update_of_ne hk]
  have hkept : ∀ {k w'}, t.windows k = some w' → k ≠ s.maps := by
    rintro k w' hk rfl
    rw [hmaps] at hk
    cases hk
  have hcases : ∀ {k w'}, t'.windows k = some w' →
      (k = s.maps ∧ w' = w) ∨ (k ≠ s.maps ∧ t.windows k = some w') := by
    intro k w' hk
    by_cases hkm : k = s.maps
    · subst hkm
      exact .inl ⟨rfl, Option.some.inj (hk.symm.trans hnew)⟩
    · exact .inr ⟨hkm, hold hkm ▸ hk⟩
  have hun : ∀ {start n}, t'.Unwritten b start n → t.Unwritten b start n := fun h k w' hk =>
    h k w' ((hold (hkept hk)).trans hk)
  -- the new copy is not one of the others
  have hcopy : ∀ {k w'}, t.windows k = some w' → w'.buffer = b →
      m.mapToPtr.getD (.mapped b k) ≠ m.mapToPtr.getD (.mapped b s.maps) := by
    intro k w' hk hb'
    cases hm : m.mapToPtr with
    | none =>
      intro heq
      cases heq
      exact hkept hk rfl
    | some blk => exact absurd hb' (hlent (by rw [hm]; rfl) k w' hk)
  refine ⟨hag.active, hag.homeBlock, hag.mapTo, fun k w' hk hb' => ?_, fun e => ?_, ?_,
    fun hm k k' w₁ w₂ hk hk' hb₁ hb₂ => ?_, fun k w' hk hb' => ?_,
    fun k k' w₁ w₂ hne hk hk' hb₁ hwr => ?_, fun i v hi hu hv => ?_, fun k w' i v hk hb' hi hr hv => ?_⟩
  · rw [hptrs]
    rcases hcases hk with ⟨rfl, rfl⟩ | ⟨hkm, hk⟩
    · rw [update_self]
    · rw [update_of_ne hkm]
      exact hag.ptrs k w' hk hb'
  · rw [List.mem_append, hag.entries e, List.mem_singleton]
    constructor
    · rintro (⟨k, w', hk, hb', he⟩ | he)
      · exact ⟨k, w', (hold (hkept hk)).trans hk, hb', he⟩
      · exact ⟨s.maps, w, hnew, hb, he⟩
    · rintro ⟨k, w', hk, hb', he⟩
      rcases hcases hk with ⟨rfl, rfl⟩ | ⟨-, hk⟩
      · exact .inr he
      · exact .inl ⟨k, w', hk, hb', he⟩
  · rw [List.map_append, List.nodup_append]
    refine ⟨hag.nodup, by simp, fun p hp p' hp' => ?_⟩
    obtain ⟨e, he, rfl⟩ := List.mem_map.mp hp
    obtain ⟨k, w', hk, hb', rfl⟩ := (hag.entries e).mp he
    obtain rfl := List.mem_singleton.mp hp'
    intro heq
    exact hcopy hk hb' (congrArg Ptr.block heq)
  · -- a pointer of the application is lent once
    rcases hcases hk with ⟨rfl, rfl⟩ | ⟨-, hk⟩
    · rcases hcases hk' with ⟨rfl, rfl⟩ | ⟨-, hk'⟩
      · rfl
      · exact absurd hb₂ (hlent hm k' w₂ hk')
    · exact absurd hb₁ (hlent hm k w₁ hk)
  · rcases hcases hk with ⟨rfl, rfl⟩ | ⟨-, hk⟩
    · exact hle
    · exact hag.range k w' hk hb'
  · rcases hcases hk with ⟨rfl, rfl⟩ | ⟨-, hk⟩
    · rcases hcases hk' with ⟨rfl, rfl⟩ | ⟨-, hk'⟩
      · exact absurd rfl hne
      · exact hunm hwr k' w₂ hk'
    · rcases hcases hk' with ⟨rfl, rfl⟩ | ⟨-, hk'⟩
      · exact fun ho => hunw k w₁ hk hwr (ho.symm hb₁)
      · exact hag.exclusive k k' w₁ w₂ hne hk hk' hb₁ hwr
  · obtain ⟨blk, hblk, hbyte⟩ := hag.onDevice i v hi (hun hu) (harr i v hv)
    refine ⟨blk, hblk, ?_⟩
    rw [hmem blk (hag.home_ne hblk s.maps)]
    exact hbyte
  · have hv₀ := harr _ v hv
    rcases hcases hk with ⟨rfl, rfl⟩ | ⟨-, hk⟩
    · -- a map for reading has copied the byte from the device
      have hread : w'.flags.read = true := by
        rcases hr with hr | hr
        · exact hr
        · rw [hfresh i] at hr
          cases hr
      obtain ⟨blk, hblk, hbyte⟩ := hag.onDevice _ v (by omega) (Unwritten.sub hunw hi) hv₀
      have hc := hcopied blk i hblk hread hi
      exact hc.trans hbyte
    · have hne := hcopy hk hb'
      have hbyte := hag.inWindow k w' i v hk hb' hi hr hv₀
      exact (congrFun (hmem _ hne) i).trans hbyte

variable {out : List (Option Nat)}

theorem step_map (hA : MemAgrees user s t) {flags : MapFlags} {offset size : Nat}
    (hl : (BufferOp.map h flags offset size).Legal t)
    (hm : (BufferOp.map h flags offset size).Meets s t)
    (hs : s.step c (.map h flags offset size) = some (s', out)) :
    MemAgrees user s' (t.step user (.map h flags offset size)).1 ∧ out = [] := by
  obtain ⟨⟨s₁, p⟩, hp, heq⟩ := Option.map_eq_some_iff.mp hs
  obtain ⟨rfl, rfl⟩ := Prod.mk.inj heq
  refine ⟨?_, rfl⟩
  obtain ⟨n, hn, hle⟩ := has_root hl
  rw [hA.sizes h.rootOf] at hn
  generalize ht' : (t.step user (.map h flags offset size)).1 = t'
  -- what the map does to the windows and the arrays
  let w : Window := ⟨h.rootOf, h.origin + offset, size, flags, fun _ => false⟩
  have hplain : t'.sizes = t.sizes ∧ t'.windows = update t.windows s.maps (some w) ∧
      t'.maps = s.maps + 1 ∧ (∀ b', b' ≠ h.rootOf → t'.arrays b' = t.arrays b') ∧
      ∀ i v, t'.arrays h.rootOf i = some v → t.arrays h.rootOf i = some v := by
    rw [← ht', ← hA.maps]
    simp only [PlainState.step]
    split
    · refine ⟨rfl, rfl, rfl, fun b' hb' => ?_, fun i v hv => ?_⟩
      · exact funext fun i => if_neg fun hc => hb' hc.1
      by_cases hi : h.origin + offset ≤ i ∧ i < h.origin + offset + size
      · rw [setBytes_in _ _ _ _ _ hi] at hv
        cases hv
      · rw [setBytes_out _ _ _ _ _ hi] at hv
        exact hv
    · exact ⟨rfl, rfl, rfl, fun _ _ => rfl, fun _ _ hv => hv⟩
  obtain ⟨hsizes, hw, hmaps, harr, hsub⟩ := hplain
  have hnone : t.windows s.maps = none := hA.fresh s.maps Nat.le.refl
  have hfresh : ∀ k, s.maps + 1 ≤ k → t'.windows k = none := fun k hk => by
    rw [hw, update_of_ne (by omega)]
    exact hA.fresh k (by omega)
  have hother : ∀ k w', w'.buffer ≠ h.rootOf → (t'.windows k = some w' ↔ t.windows k = some w') := by
    intro k w' hb'
    rw [hw]
    by_cases hk : k = s.maps
    · subst hk
      rw [update_self, hnone]
      refine ⟨fun heq => ?_, fun heq => (by cases heq)⟩
      obtain rfl := Option.some.inj heq
      exact absurd rfl hb'
    · rw [update_of_ne hk]
  have hptrs : ∀ (q : Ptr) k w', t.windows k = some w' →
      update s.ptrs s.maps (some q) k = s.ptrs k := by
    rintro q k w' hk
    refine update_of_ne ?_ ..
    rintro rfl
    rw [hnone] at hk
    cases hk
  have hupdate : ∀ root, s.buffers h.rootOf = some root →
      t.sizes = update t.sizes h.rootOf (some root.size) := fun root hroot => by
    refine (Function.update_eq_self_iff.mpr ?_).symm
    rw [hA.sizes, hroot]
    rfl
  rcases mapHostPtr_cases hp with ⟨size', ptr, hroot, rfl, rfl⟩ | ⟨m, hroot, hmap⟩
  · -- an integrated buffer is mapped from its start
    rw [hroot] at hn
    have hzero := (byKind_integrated hroot).mp hm
    obtain rfl : size' = n := Option.some.inj hn
    have hag := hA.buffers _ _ hroot
    refine hA.change h.rootOf (.integrated size' ptr)
      (Function.update_eq_self_iff.mpr hroot.symm).symm (hsizes.trans (hupdate _ hroot))
      (fun _ _ => rfl) (fun k w' hk _ => hptrs _ k w' hk) harr hother hmaps hfresh
      ⟨hag.block, fun k w' hk hb' => ?_, fun i v hi hv => hag.bytes i v hi (hsub i v hv)⟩
    rw [hw] at hk
    by_cases hkm : k = s₁.maps
    · subst hkm
      rw [update_self] at hk
      obtain rfl := Option.some.inj hk
      exact ⟨hzero, by show size ≤ size'; omega, update_self ..⟩
    · rw [update_of_ne hkm] at hk
      obtain ⟨ho, hsz, hpt⟩ := hag.windows k w' hk hb'
      exact ⟨ho, hsz, (update_of_ne hkm ..).trans hpt⟩
  · rw [hroot] at hn
    obtain ⟨hlent, hfree⟩ := (byKind_discrete hroot).mp hm
    obtain rfl : m.size = n := Option.some.inj hn
    obtain ⟨hp₂, hptrs₁, hmaps₁, hbufs₁, hmem₁, hcopied⟩ :=
      mapDiscrete_spec s h.rootOf m flags (h.origin + offset) size
    rw [← hmap] at hp₂ hptrs₁ hmaps₁ hbufs₁ hmem₁ hcopied
    simp only at hp₂ hptrs₁ hmaps₁ hbufs₁ hmem₁ hcopied
    obtain rfl := hp₂
    have hag : DiscreteAgrees s t h.rootOf m := hA.buffers _ _ hroot
    have hblk : (m.mapToPtr.getD (.mapped h.rootOf s.maps)).buffer = h.rootOf := by
      cases hto : m.mapToPtr with
      | none => rfl
      | some blk =>
        rw [hag.mapTo blk hto]
        rfl
    have hunw : t.Unwritten h.rootOf (h.origin + offset) size := by
      split at hfree
      · exact Unmapped.unwritten hfree
      · exact hfree
    have hunm : w.writable = true → t.Unmapped h.rootOf (h.origin + offset) size := fun hwr =>
      (if_pos hwr).mp hfree
    have hsize := hupdate _ hroot
    refine hA.change h.rootOf _ hbufs₁ (hsizes.trans hsize)
      (fun blk hne => hmem₁ blk fun heq => hne (heq ▸ hblk)) (fun k w' hk _ => ?_) harr hother
      (by rw [hmaps₁, hmaps]) (fun k hk => hfresh k (by rwa [hmaps₁] at hk)) ?_
    · simp only [hptrs₁, hmaps₁]
      exact hptrs _ k w' hk
    · refine hag.openWindow (w := w) hnone rfl hle (fun _ => rfl) hlent hunw hunm hw hsub ?_ hmem₁
        fun blk i hblk' hr hi => hcopied blk i hblk' hr hi
      simp [hptrs₁, hmaps₁]

/-- **An unmap closes a window**, and gives the device the bytes of its copy. -/
theorem DiscreteAgrees.closeWindow (hag : DiscreteAgrees s t b m) {k : Nat} {w : Window}
    {e : HostAllocation}
    (he : e = ⟨⟨m.mapToPtr.getD (.mapped b k), 0⟩, w.size, w.offset, w.flags⟩)
    (hk : t.windows k = some w) (hb : w.buffer = b) (hread : ∀ i, i < w.size → t.Readable w i)
    (hhome : m.home.isSome ∨ ∀ i, i < w.size → t.arrays b (w.offset + i) = none)
    (hw : t'.windows = update t.windows k none) (harr : t'.arrays = t.arrays)
    (hptrs : s'.ptrs = s.ptrs) (hmem : ∀ blk, m.home ≠ some blk → s'.mem blk = s.mem blk)
    (hout : ∀ blk i, m.home = some blk → ¬ (w.offset ≤ i ∧ i < w.offset + w.size) →
      s'.mem blk i = s.mem blk i)
    (hcopied : ∀ blk i, m.home = some blk → i < w.size →
      s'.mem blk (w.offset + i) = s.mem (m.mapToPtr.getD (.mapped b k)) i) :
    DiscreteAgrees s' t' b { m with hostAllocations := m.hostAllocations.erase e } := by
  subst he
  -- the other windows stay as they are
  have hleft : ∀ {k' w'}, t'.windows k' = some w' ↔ k' ≠ k ∧ t.windows k' = some w' := by
    intro k' w'
    rw [hw]
    by_cases hkk : k' = k
    · subst hkk
      rw [update_self]
      exact ⟨fun h => (by cases h), fun h => absurd rfl h.1⟩
    · rw [update_of_ne hkk]
      exact ⟨fun h => ⟨hkk, h⟩, fun h => h.2⟩
  refine ⟨hag.active, hag.homeBlock, hag.mapTo, fun k' w' hk' hb' => ?_, fun e => ?_, ?_,
    fun hm k₁ k₂ w₁ w₂ h₁ h₂ => hag.single hm k₁ k₂ w₁ w₂ (hleft.mp h₁).2 (hleft.mp h₂).2,
    fun k' w' hk' => hag.range k' w' (hleft.mp hk').2,
    fun k₁ k₂ w₁ w₂ hne h₁ h₂ => hag.exclusive k₁ k₂ w₁ w₂ hne (hleft.mp h₁).2 (hleft.mp h₂).2,
    fun i v hi hu hv => ?_, fun k' w' i v hk' hb' hi hr hv => ?_⟩
  · rw [hptrs]
    exact hag.ptrs k' w' (hleft.mp hk').2 hb'
  · -- the entry of the window is the one that goes
    have hnd : m.hostAllocations.Nodup := List.Nodup.of_map _ hag.nodup
    rw [hnd.mem_erase_iff, hag.entries e]
    constructor
    · rintro ⟨hne, k', w', hk', hb', rfl⟩
      refine ⟨k', w', hleft.mpr ⟨?_, hk'⟩, hb', rfl⟩
      rintro rfl
      obtain rfl : w = w' := Option.some.inj (hk.symm.trans hk')
      exact hne rfl
    · rintro ⟨k', w', hk', hb', rfl⟩
      obtain ⟨hne, hk'⟩ := hleft.mp hk'
      refine ⟨fun heq => ?_, k', w', hk', hb', rfl⟩
      exact hag.copies_ne hk' hk hb' hb hne (congrArg (fun e => e.ptr.block) heq)
  · exact hag.nodup.sublist (List.erase_sublist.map _)
  · rw [harr] at hv
    by_cases hi' : w.offset ≤ i ∧ i < w.offset + w.size
    · -- the byte is the copy's
      obtain ⟨j, rfl⟩ := Nat.exists_eq_add_of_le hi'.1
      have hj : j < w.size := by omega
      have hbyte : s.mem (m.mapToPtr.getD (.mapped b k)) j = some v := by
        rcases hread j hj with hr | hr | hr
        · exact hag.inWindow k w j v hk hb hj (.inl hr) hv
        · exact hag.inWindow k w j v hk hb hj (.inr hr) hv
        · rw [hb, hv] at hr
          cases hr
      rcases hhome with hhome | hnone
      · obtain ⟨blk, hblk⟩ := Option.isSome_iff_exists.mp hhome
        exact ⟨blk, hblk, (hcopied blk j hblk hj).trans hbyte⟩
      · rw [hnone j hj] at hv
        cases hv
    · have hu' : t.Unwritten b i 1 := fun k' w' hk' hwr ho => by
        by_cases hkk : k' = k
        · subst hkk
          obtain rfl : w = w' := Option.some.inj (hk.symm.trans hk')
          obtain ⟨-, j, hj, hj'⟩ := ho
          exact hi' ⟨by omega, by omega⟩
        · exact hu k' w' (hleft.mpr ⟨hkk, hk'⟩) hwr ho
      obtain ⟨blk, hblk, hbyte⟩ := hag.onDevice i v hi hu' hv
      exact ⟨blk, hblk, (hout blk i hblk hi').trans hbyte⟩
  · rw [harr] at hv
    have hkept := hag.inWindow k' w' i v (hleft.mp hk').2 hb' hi hr hv
    have hne : m.home ≠ some (m.mapToPtr.getD (.mapped b k')) := fun hh => hag.home_ne hh k' rfl
    exact (congrFun (hmem _ hne) i).trans hkept

/-- An unmap takes the first entry of the pointer, and writes its copy to the device. -/
theorem unmapDiscrete_spec (hag : DiscreteAgrees s t b m) {e : HostAllocation}
    (he : e ∈ m.hostAllocations) (hs : s.unmapDiscrete c b m e.ptr = some s') :
    ∃ m', DiscreteAgrees s t b m' ∧ m'.size = m.size ∧ m'.hostAllocations = m.hostAllocations ∧
      m'.mapToPtr = m.mapToPtr ∧
      (m.activeAllocationDevice.isSome ∨ e.flags.writeInvalidateRegion = false →
        m'.home.isSome) ∧
      s'.ptrs = s.ptrs ∧ s'.maps = s.maps ∧
      s'.buffers = update s.buffers b
        (some (.discrete { m' with hostAllocations := m'.hostAllocations.erase e })) ∧
      (m'.home = none ∧ s'.mem = s.mem ∨ ∃ blk, m'.home = some blk ∧
        s'.mem = s.mem.copy ⟨blk, e.offset⟩ e.ptr e.size) := by
  obtain ⟨e', hfind, hcopy⟩ := Option.map_eq_some_iff.mp hs
  -- the pointers of the entries differ
  have he' : e' ∈ m.hostAllocations := List.mem_of_find?_eq_some hfind
  have hptr : e'.ptr = e.ptr := by simpa using List.find?_some hfind
  obtain rfl : e' = e := List.inj_on_of_nodup_map hag.nodup he' he hptr
  generalize hm' : (if m.activeAllocationDevice.isNone && !e'.flags.writeInvalidateRegion then
    m.allocateOnDevice b c.firstDevice else m) = m'
  have hkeep : DiscreteAgrees s t b m' ∧ m'.size = m.size ∧
      m'.hostAllocations = m.hostAllocations ∧ m'.mapToPtr = m.mapToPtr ∧
      (m.activeAllocationDevice.isSome ∨ e'.flags.writeInvalidateRegion = false →
        m'.home.isSome) := by
    rw [← hm']
    split
    · next hcond =>
      rw [Bool.and_eq_true] at hcond
      refine ⟨hag.allocate (Option.isNone_iff_eq_none.mp hcond.1) _, rfl, rfl, rfl, fun _ => ?_⟩
      rw [allocateOnDevice_home]
      rfl
    · next hcond =>
      refine ⟨hag, rfl, rfl, rfl, fun h => hag.active ?_⟩
      cases hact : m.activeAllocationDevice with
      | some d => rfl
      | none =>
        rw [hact] at h hcond
        rcases h with h | h
        · exact h
        · rw [h] at hcond
          exact absurd rfl hcond
  obtain ⟨hag', hsize, hentries, hto, hhome⟩ := hkeep
  refine ⟨m', hag', hsize, hentries, hto, hhome, ?_⟩
  simp only [hm', getActiveDeviceAlloc_eq] at hcopy
  cases hblk : m'.home with
  | none =>
    rw [hblk] at hcopy
    obtain rfl := hcopy
    exact ⟨rfl, rfl, rfl, .inl ⟨rfl, rfl⟩⟩
  | some blk =>
    rw [hblk] at hcopy
    obtain rfl := hcopy
    exact ⟨rfl, rfl, rfl, .inr ⟨blk, rfl, rfl⟩⟩

/-- Changing the windows of one buffer. -/
theorem windows_update_ne {k : Nat} {w : Window} {o : Option Window} (hk : t.windows k = some w)
    (hb : w.buffer = b) (ho : ∀ w', o = some w' → w'.buffer = b) (k' : Nat) (w' : Window)
    (hb' : w'.buffer ≠ b) :
    update t.windows k o k' = some w' ↔ t.windows k' = some w' := by
  by_cases hkk : k' = k
  · subst hkk
    rw [update_self, hk]
    constructor
    · exact fun heq => absurd (ho w' heq) hb'
    · intro heq
      obtain rfl := Option.some.inj heq
      exact absurd hb hb'
  · rw [update_of_ne hkk]

theorem DiscreteAgrees.copy_buffer (hag : DiscreteAgrees s t b m) (k : Nat) :
    (m.mapToPtr.getD (.mapped b k)).buffer = b := by
  cases hto : m.mapToPtr with
  | none => rfl
  | some blk =>
    rw [hag.mapTo blk hto]
    rfl

theorem step_unmap (hA : MemAgrees user s t) {k : Nat}
    (hl : (BufferOp.unmap h k).Legal t) (hm : (BufferOp.unmap h k).Meets s t)
    (hs : s.step c (.unmap h k) = some (s', out)) :
    MemAgrees user s' (t.step user (.unmap h k)).1 ∧ out = [] := by
  obtain ⟨p, hp, hs⟩ := Option.bind_eq_some_iff.mp hs
  obtain ⟨s₁, hs₁, heq⟩ := Option.map_eq_some_iff.mp hs
  obtain ⟨rfl, rfl⟩ := Prod.mk.inj heq
  refine ⟨?_, rfl⟩
  obtain ⟨-, w, hk, hb⟩ := hl
  have hother := windows_update_ne hk hb (o := none) fun w' h => by cases h
  have hfresh : ∀ k', s.maps ≤ k' → update t.windows k none k' = none := fun k' hk' => by
    by_cases hkk : k' = k
    · rw [hkk, update_self]
    · rw [update_of_ne hkk]
      exact hA.fresh k' hk'
  have hsizes : ∀ root, s.buffers h.rootOf = some root →
      t.sizes = update t.sizes h.rootOf (some root.size) := fun root hroot => by
    refine (Function.update_eq_self_iff.mpr ?_).symm
    rw [hA.sizes, hroot]
    rfl
  rcases unmapHostPtr_cases hs₁ with ⟨n, ptr, hroot, rfl⟩ | ⟨m, hroot, hun⟩
  · have hag := hA.buffers _ _ hroot
    refine hA.change h.rootOf (.integrated n ptr)
      (Function.update_eq_self_iff.mpr hroot.symm).symm (hsizes _ hroot) (fun _ _ => rfl)
      (fun _ _ _ _ => rfl) (fun _ _ => rfl) hother hA.maps hfresh
      ⟨hag.block, fun k' w' hk' hb' => ?_, hag.bytes⟩
    have hk' : update t.windows k none k' = some w' := hk'
    by_cases hkk : k' = k
    · subst hkk
      rw [update_self] at hk'
      cases hk'
    · rw [update_of_ne hkk] at hk'
      exact hag.windows k' w' hk' hb'
  · have hag : DiscreteAgrees s t h.rootOf m := hA.buffers _ _ hroot
    obtain ⟨hread, hdevice⟩ := (byKind_discrete hroot).mp (hm w hk)
    -- the pointer is that of the window's entry
    have hp' := hag.ptrs k w hk hb
    obtain rfl : p = ⟨m.mapToPtr.getD (.mapped h.rootOf k), 0⟩ := Option.some.inj (hp.symm.trans hp')
    have he := (hag.entries _).mpr ⟨k, w, hk, hb, rfl⟩
    obtain ⟨m', hag', hsize, hentries, hto, hhome, hptrs, hmaps, hbufs, hmem⟩ :=
      unmapDiscrete_spec hag he hun
    have hsize' := hsizes _ hroot
    refine hA.change h.rootOf _ hbufs ?_ (fun blk hne => ?_) (fun _ _ _ _ => by rw [hptrs])
      (fun _ _ => rfl) hother (hA.maps.trans hmaps.symm) (fun k' hk' => hfresh k' (hmaps ▸ hk')) ?_
    · exact hsize'.trans (by simp [RootBuffer.size, hsize])
    · rcases hmem with ⟨-, hmem⟩ | ⟨blk', hblk', hmem⟩
      · rw [hmem]
      · rw [hmem]
        have hb' := (hag'.homeBlock blk' hblk').1
        exact funext fun i => Memory.store_ne _ _ _ _ (fun heq => hne (by rw [heq]; exact hb')) i
    · refine hag'.closeWindow (by rw [hto]) hk hb hread ?_ rfl rfl hptrs (fun blk hne => ?_)
        (fun blk i hblk hi => ?_) (fun blk i hblk hi => ?_)
      · rcases hdevice with hdev | hinv | hnone
        · exact .inl (hhome (.inl hdev))
        · exact .inl (hhome (.inr hinv))
        · rw [hb] at hnone
          exact .inr hnone
      · rcases hmem with ⟨-, hmem⟩ | ⟨blk', hblk', hmem⟩
        · rw [hmem]
        · rw [hmem]
          refine funext fun i => Memory.store_ne _ _ _ _ ?_ i
          rintro rfl
          exact hne hblk'
      · rcases hmem with ⟨hnone, -⟩ | ⟨blk', hblk', hmem⟩
        · rw [hblk] at hnone
          cases hnone
        · rw [hmem]
          exact Memory.store_out _ _ _ hi blk
      · rcases hmem with ⟨hnone, -⟩ | ⟨blk', hblk', hmem⟩
        · rw [hblk] at hnone
          cases hnone
        · obtain rfl : blk' = blk := Option.some.inj (hblk'.symm.trans hblk)
          rw [hmem, hto]
          have hin := Memory.copy_in s.mem ⟨blk', w.offset⟩
            ⟨m.mapToPtr.getD (.mapped h.rootOf k), 0⟩ hi
          simpa using hin

/-- **A write of the host** goes to the copy of its window. -/
theorem DiscreteAgrees.hostWrite (hag : DiscreteAgrees s t b m) {k i byte : Nat} {w : Window}
    (hk : t.windows k = some w) (hb : w.buffer = b) (hi : i < w.size) (hwr : w.writable = true)
    (hw : t'.windows = update t.windows k
      (some { w with written := update w.written i true }))
    (hin : t'.arrays b (w.offset + i) = some byte)
    (hout : ∀ j, j ≠ w.offset + i → t'.arrays b j = t.arrays b j) (hptrs : s'.ptrs = s.ptrs)
    (hmem : s'.mem = s.mem.store ⟨m.mapToPtr.getD (.mapped b k), i⟩ 1 fun _ => some byte) :
    DiscreteAgrees s' t' b m := by
  -- the windows are where they were
  have hcases : ∀ {k' w'}, t'.windows k' = some w' → ∃ w₀, t.windows k' = some w₀ ∧
      w'.buffer = w₀.buffer ∧ w'.offset = w₀.offset ∧ w'.size = w₀.size ∧ w'.flags = w₀.flags ∧
      (k' ≠ k → w' = w₀) ∧ (k' = k → w'.written = update w.written i true) := by
    intro k' w' hk'
    rw [hw] at hk'
    by_cases hkk : k' = k
    · subst hkk
      rw [update_self] at hk'
      obtain rfl := Option.some.inj hk'
      exact ⟨w, hk, rfl, rfl, rfl, rfl, fun hne => absurd rfl hne, fun _ => rfl⟩
    · rw [update_of_ne hkk] at hk'
      exact ⟨w', hk', rfl, rfl, rfl, rfl, fun _ => rfl, fun heq => absurd heq hkk⟩
  have hconv : ∀ {k' w₀}, t.windows k' = some w₀ → ∃ w', t'.windows k' = some w' ∧
      w'.buffer = w₀.buffer ∧ w'.offset = w₀.offset ∧ w'.size = w₀.size ∧ w'.flags = w₀.flags := by
    intro k' w₀ hk'
    rw [hw]
    by_cases hkk : k' = k
    · subst hkk
      obtain rfl : w = w₀ := Option.some.inj (hk.symm.trans hk')
      exact ⟨_, update_self .., rfl, rfl, rfl, rfl⟩
    · exact ⟨w₀, (update_of_ne hkk ..).trans hk', rfl, rfl, rfl, rfl⟩
  have hun : ∀ {start n}, t'.Unwritten b start n → t.Unwritten b start n := by
    intro start n h k' w₀ hk' hwr' ho
    obtain ⟨w', hk₁, hbuf, hoff, hsz, hfl⟩ := hconv hk'
    refine h k' w' hk₁ ?_ ?_
    · simpa [Window.writable, hfl] using hwr'
    · simpa [Window.Overlaps, hbuf, hoff, hsz] using ho
  refine ⟨hag.active, hag.homeBlock, hag.mapTo, fun k' w' hk' hb' => ?_, fun e => ?_, hag.nodup,
    fun hm k₁ k₂ w₁ w₂ h₁ h₂ hb₁ hb₂ => ?_, fun k' w' hk' hb' => ?_,
    fun k₁ k₂ w₁ w₂ hne h₁ h₂ hb₁ hwr₁ => ?_, fun j v hj hu hv => ?_,
    fun k' w' j v hk' hb' hj hr hv => ?_⟩
  · rw [hptrs]
    obtain ⟨w₀, hk₀, hbuf, -⟩ := hcases hk'
    exact hag.ptrs k' w₀ hk₀ (hbuf ▸ hb')
  · rw [hag.entries e]
    constructor
    · rintro ⟨k', w₀, hk₀, hb', he⟩
      obtain ⟨w', hk', hbuf, hoff, hsz, hfl⟩ := hconv hk₀
      exact ⟨k', w', hk', hbuf.trans hb', by rw [he, hoff, hsz, hfl]⟩
    · rintro ⟨k', w', hk', hb', he⟩
      obtain ⟨w₀, hk₀, hbuf, hoff, hsz, hfl, -⟩ := hcases hk'
      exact ⟨k', w₀, hk₀, hbuf ▸ hb', by rw [he, hoff, hsz, hfl]⟩
  · obtain ⟨w₁', h₁', hbuf₁, -⟩ := hcases h₁
    obtain ⟨w₂', h₂', hbuf₂, -⟩ := hcases h₂
    exact hag.single hm k₁ k₂ w₁' w₂' h₁' h₂' (hbuf₁ ▸ hb₁) (hbuf₂ ▸ hb₂)
  · obtain ⟨w₀, hk₀, hbuf, hoff, hsz, -⟩ := hcases hk'
    rw [hoff, hsz]
    exact hag.range k' w₀ hk₀ (hbuf ▸ hb')
  · obtain ⟨w₁', h₁', hbuf₁, hoff₁, hsz₁, hfl₁, -⟩ := hcases h₁
    obtain ⟨w₂', h₂', hbuf₂, hoff₂, hsz₂, -⟩ := hcases h₂
    have hex := hag.exclusive k₁ k₂ w₁' w₂' hne h₁' h₂' (hbuf₁ ▸ hb₁)
      (by simpa [Window.writable, hfl₁] using hwr₁)
    simpa [Window.Overlaps, hbuf₂, hoff₁, hsz₁, hoff₂, hsz₂] using hex
  · -- the byte is in a window that the host may write
    have hne : j ≠ w.offset + i := by
      rintro rfl
      obtain ⟨w', hk', hbuf, hoff, hsz, hfl⟩ := hconv hk
      refine hu k w' hk' (by simpa [Window.writable, hfl] using hwr) ⟨hbuf.trans hb, w.offset + i, ?_, ?_⟩
      · omega
      · omega
    rw [hout j hne] at hv
    obtain ⟨blk, hblk, hbyte⟩ := hag.onDevice j v hj (hun hu) hv
    refine ⟨blk, hblk, ?_⟩
    rw [hmem, Memory.store_ne _ _ _ _ (hag.home_ne hblk k)]
    exact hbyte
  · obtain ⟨w₀, hk₀, hbuf, hoff, hsz, hfl, hsame, hwritten⟩ := hcases hk'
    rw [hmem]
    by_cases hkk : k' = k
    · subst hkk
      obtain rfl : w = w₀ := Option.some.inj (hk.symm.trans hk₀)
      rw [hoff] at hv
      by_cases hij : j = i
      · subst hij
        rw [hin] at hv
        obtain rfl := Option.some.inj hv
        have hst := Memory.store_in s.mem ⟨m.mapToPtr.getD (.mapped b k'), j⟩
          (fun _ => some byte) Nat.one_pos
        simpa using hst
      · rw [hout _ (by omega)] at hv
        rw [Memory.store_out _ _ _ (by simp only; omega)]
        refine hag.inWindow k' w j v hk hb (by omega) ?_ hv
        rw [hwritten rfl, update_of_ne hij, hfl] at hr
        exact hr
    · obtain rfl := hsame hkk
      -- another window has none of the host's bytes
      have hne : w'.offset + j ≠ w.offset + i := fun heq =>
        hag.exclusive k k' w w' (Ne.symm hkk) hk hk₀ hb hwr
          ⟨hb', w'.offset + j, ⟨by omega, by omega⟩, by omega, by omega⟩
      rw [hout _ hne] at hv
      rw [Memory.store_ne _ _ _ _ (hag.copies_ne hk₀ hk hb' hb hkk)]
      exact hag.inWindow k' w' j v hk₀ hb' hj hr hv

theorem step_hostWrite (hA : MemAgrees user s t) {k i byte : Nat}
    (hl : (BufferOp.hostWrite k i byte).Legal t)
    (hs : s.step c (.hostWrite k i byte) = some (s', out)) :
    MemAgrees user s' (t.step user (.hostWrite k i byte)).1 ∧ out = [] := by
  obtain ⟨p, hp, heq⟩ := Option.map_eq_some_iff.mp hs
  obtain ⟨rfl, rfl⟩ := Prod.mk.inj heq
  refine ⟨?_, rfl⟩
  obtain ⟨w, hk, hi, hwr⟩ := hl
  obtain ⟨root, hroot⟩ := Option.isSome_iff_exists.mp (hA.known k w hk)
  have hag := hA.buffers _ root hroot
  simp only [PlainState.step, hk]
  -- the new array
  have hin : ∀ t₀ : PlainState, (t₀.setBytes w.buffer (w.offset + i) 1 fun _ => some byte).arrays
      w.buffer (w.offset + i) = some byte := fun t₀ => setBytes_in _ _ _ _ _ ⟨by omega, by omega⟩
  have hout : ∀ j, j ≠ w.offset + i →
      (t.setBytes w.buffer (w.offset + i) 1 fun _ => some byte).arrays w.buffer j
        = t.arrays w.buffer j := fun j hj => setBytes_out _ _ _ _ _ (by omega) _
  have hblk : p.block.buffer = w.buffer := by
    cases root with
    | integrated n ptr =>
      obtain ⟨-, -, hpt⟩ := hag.windows k w hk rfl
      obtain rfl := Option.some.inj (hp.symm.trans hpt)
      exact hag.block
    | discrete m =>
      obtain rfl := Option.some.inj (hp.symm.trans (hag.ptrs k w hk rfl))
      exact DiscreteAgrees.copy_buffer hag k
  refine hA.change w.buffer root
    (Function.update_eq_self_iff.mpr hroot.symm).symm ?_ (fun blk hne => funext fun j => ?_)
    (fun _ _ _ _ => rfl) (fun b' hb' => setBytes_ne t (w.offset + i) 1 (fun _ => some byte) hb')
    (windows_update_ne hk rfl fun w' h => ?_) hA.maps (fun k' hk' => ?_) ?_
  · have hsize := hA.sizes w.buffer
    rw [hroot] at hsize
    exact (Function.update_eq_self_iff.mpr hsize.symm).symm
  · have hblk' : blk ≠ (p.add i).block := by
      rintro rfl
      exact hne hblk
    exact Memory.store_ne s.mem (p.add i) 1 (fun _ => some byte) hblk' j
  · obtain rfl := Option.some.inj h
    rfl
  · have hkk : k' ≠ k := by
      rintro rfl
      rw [hA.fresh k' hk'] at hk
      cases hk
    exact (update_of_ne hkk ..).trans (hA.fresh k' hk')
  · cases root with
    | integrated n ptr =>
      obtain ⟨hoff, hsz, hpt⟩ := hag.windows k w hk rfl
      obtain rfl := Option.some.inj (hp.symm.trans hpt)
      refine ⟨hag.block, fun k' w' hk' hb' => ?_, fun j v hj hv => ?_⟩
      · by_cases hkk : k' = k
        · subst hkk
          have hk' := (update_self ..).symm.trans hk'
          obtain rfl := Option.some.inj hk'
          exact ⟨hoff, hsz, hpt⟩
        · exact hag.windows k' w' ((update_of_ne hkk ..).symm.trans hk') hb'
      · by_cases hij : j = i
        · subst hij
          have harr := hin t
          obtain rfl : byte = v := Option.some.inj (harr.symm.trans (by simpa [hoff] using hv))
          have hst := Memory.store_in s.mem (Ptr.add ⟨ptr, 0⟩ j) (fun _ => some byte) Nat.one_pos
          simpa [Ptr.add] using hst
        · have hv' := (hout j (by omega)).symm.trans hv
          have hst := Memory.store_out s.mem (Ptr.add ⟨ptr, 0⟩ i) (fun _ => some byte)
            (show ¬ (_ ≤ j ∧ j < _ + 1) by simp only [Ptr.add]; omega) ptr
          exact hst.trans (hag.bytes j v hj hv')
    | discrete m =>
      have hag' : DiscreteAgrees s t w.buffer m := hag
      obtain rfl := Option.some.inj (hp.symm.trans (hag'.ptrs k w hk rfl))
      refine hag'.hostWrite hk rfl hi hwr rfl (hin t) hout rfl ?_
      simp [Ptr.add]

theorem step_hostRead (hA : MemAgrees user s t) {k i : Nat}
    (hl : (BufferOp.hostRead k i).Legal t) (hm : (BufferOp.hostRead k i).Meets s t)
    (hs : s.step c (.hostRead k i) = some (s', out)) :
    MemAgrees user s' (t.step user (.hostRead k i)).1 ∧
      Returns out (t.step user (.hostRead k i)).2 := by
  obtain ⟨p, hp, heq⟩ := Option.map_eq_some_iff.mp hs
  obtain ⟨rfl, rfl⟩ := Prod.mk.inj heq
  obtain ⟨w, hk, hi⟩ := hl
  obtain ⟨root, hroot⟩ := Option.isSome_iff_exists.mp (hA.known k w hk)
  have hag := hA.buffers _ root hroot
  refine ⟨hA, rfl, fun j v hv => ?_⟩
  simp only [PlainState.step, hk, Option.bind_some, List.getElem?_singleton] at hv ⊢
  obtain ⟨hj, hv⟩ := Option.ite_none_right_eq_some.mp hv
  rw [if_pos hj]
  have hv := Option.some.inj hv
  refine congrArg some ?_
  cases root with
  | integrated n ptr =>
    obtain ⟨hoff, hsz, hpt⟩ := hag.windows k w hk rfl
    obtain rfl := Option.some.inj (hp.symm.trans hpt)
    rw [hoff, Nat.zero_add] at hv
    simpa [Memory.byteAt] using hag.bytes i v (by omega) hv
  | discrete m =>
    have hag' : DiscreteAgrees s t w.buffer m := hag
    obtain rfl := Option.some.inj (hp.symm.trans (hag'.ptrs k w hk rfl))
    have hread := (byKind_discrete hroot).mp (hm w hk)
    have hseen : w.flags.read = true ∨ w.written i = true := by
      rcases hread with hr | hr | hr
      · exact .inl hr
      · exact .inr hr
      · rw [hv] at hr
        cases hr
    simpa [Memory.byteAt] using hag'.inWindow k w i v hk rfl hi hseen hv

end Maps

end UnifiedRuntime.LevelZeroV2
