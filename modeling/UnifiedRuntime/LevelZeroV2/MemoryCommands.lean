import UnifiedRuntime.LevelZeroV2.MemoryAgrees

/-!
# Commands on buffers

A write, a read or a copy goes to the bytes of the arrays, where an integrated buffer is
used from its start and no window is in the way.
-/

namespace UnifiedRuntime.LevelZeroV2

section Bytes

variable {user : Nat → Nat → Option Nat} {s s' : MemState} {t t' : PlainState} {b start n : Nat}
  {root : RootBuffer} {blk : Block}

theorem setBytes_in (t : PlainState) (b start n : Nat) (data : Nat → Option Nat) {i : Nat}
    (hi : start ≤ i ∧ i < start + n) : (t.setBytes b start n data).arrays b i = data (i - start) :=
  if_pos ⟨rfl, hi.1, hi.2⟩

theorem setBytes_out (t : PlainState) (b start n : Nat) (data : Nat → Option Nat) {i : Nat}
    (hi : ¬ (start ≤ i ∧ i < start + n)) (b' : Nat) :
    (t.setBytes b start n data).arrays b' i = t.arrays b' i :=
  if_neg fun h => hi h.2

theorem setBytes_ne (t : PlainState) (start n : Nat) (data : Nat → Option Nat) {b' : Nat}
    (hb : b' ≠ b) : (t.setBytes b start n data).arrays b' = t.arrays b' :=
  funext fun _ => if_neg fun h => hb h.1

theorem Unwritten.sub (h : t.Unwritten b start n) {i : Nat} (hi : i < n) :
    t.Unwritten b (start + i) 1 := by
  rintro k w hk hwr ⟨hb, j, hj, hj₁, hj₂⟩
  exact h k w hk hwr ⟨hb, j, hj, by omega, by omega⟩

/-- The bytes at a handle's pointer are those of the array. -/
theorem MemAgrees.read (hA : MemAgrees user s t) (hroot : s.buffers b = some root)
    (hhome : root.home = some blk) (hle : start + n ≤ root.size)
    (hun : (∃ m, root = .discrete m) → t.Unwritten b start n) {i v : Nat} (hi : i < n)
    (hv : t.arrays b (start + i) = some v) : s.mem blk (start + i) = some v := by
  have hag := hA.buffers b root hroot
  cases root with
  | integrated size ptr =>
    obtain rfl := Option.some.inj hhome
    have hlt : start + i < size := by
      have hle' : start + n ≤ size := hle
      omega
    exact hag.bytes _ v hlt hv
  | discrete m =>
    have hlt : start + i < m.size := by
      have hle' : start + n ≤ m.size := hle
      omega
    obtain ⟨blk', hblk', hbyte⟩ := hag.onDevice _ v hlt (Unwritten.sub (hun ⟨m, rfl⟩) hi) hv
    obtain rfl : blk' = blk := Option.some.inj (hblk'.symm.trans hhome)
    exact hbyte

/-- Writing the bytes at a handle's pointer. -/
theorem MemAgrees.write (hA : MemAgrees user s t) (hroot : s.buffers b = some root)
    (hhome : root.home = some blk) (data data' : Nat → Option Nat)
    (hun : (∃ m, root = .discrete m) → t.Unmapped b start n)
    (hdata : ∀ i v, i < n → data' i = some v → data i = some v) :
    MemAgrees user { s with mem := s.mem.store ⟨blk, start⟩ n data } (t.setBytes b start n data') := by
  have hag := hA.buffers b root hroot
  have hblk : blk.buffer = b := by
    cases root with
    | integrated size ptr =>
      obtain rfl := Option.some.inj hhome
      exact hag.block
    | discrete m => exact (hag.homeBlock blk hhome).1
  -- what the block holds afterwards
  have hbyte : ∀ i v, (t.arrays b i = some v → s.mem blk i = some v) →
      (t.setBytes b start n data').arrays b i = some v →
      s.mem.store ⟨blk, start⟩ n data blk i = some v := by
    intro i v hold hv
    by_cases hi : start ≤ i ∧ i < start + n
    · rw [setBytes_in t b start n data' hi] at hv
      have hin := Memory.store_in s.mem ⟨blk, start⟩ data (show i - start < n by omega)
      rw [show start + (i - start) = i by omega] at hin
      rw [hin]
      exact hdata _ v (by omega) hv
    · rw [setBytes_out t b start n data' hi] at hv
      rw [Memory.store_out _ _ _ hi]
      exact hold hv
  refine hA.change b root ?_ ?_ (fun blk' hne => funext fun i => ?_)
    (fun _ _ _ _ => rfl) (fun b' hb' => setBytes_ne t start n data' hb') (fun _ _ _ => .rfl) hA.maps
    hA.fresh ?_
  · exact (Function.update_eq_self_iff.mpr hroot.symm).symm
  · have hsize := hA.sizes b
    rw [hroot] at hsize
    exact (Function.update_eq_self_iff.mpr hsize.symm).symm
  · exact Memory.store_ne _ _ _ _ (fun hb => hne (by rw [hb]; exact hblk)) i
  · cases root with
    | integrated size ptr =>
      obtain rfl := Option.some.inj hhome
      exact ⟨hag.block, hag.windows, fun i v hi hv => hbyte i v (hag.bytes i v hi) hv⟩
    | discrete m =>
      have hfree := hun ⟨m, rfl⟩
      refine ⟨hag.active, hag.homeBlock, hag.mapTo, hag.ptrs, hag.entries, hag.nodup, hag.single,
        hag.range, hag.exclusive, fun i v hi hu hv => ?_, fun k w i v hk hb hi hr hv => ?_⟩
      · refine ⟨blk, hhome, hbyte i v (fun hold => ?_) hv⟩
        obtain ⟨blk', hblk', hmem⟩ := hag.onDevice i v hi hu hold
        obtain rfl : blk' = blk := Option.some.inj (hblk'.symm.trans hhome)
        exact hmem
      · -- a window has none of the bytes
        have hout : ¬ (start ≤ w.offset + i ∧ w.offset + i < start + n) := fun hin =>
          hfree k w hk ⟨hb, w.offset + i, ⟨by omega, by omega⟩, hin.1, hin.2⟩
        rw [setBytes_out t b start n data' hout] at hv
        have hne : m.mapToPtr.getD (.mapped b k) ≠ blk := by
          obtain ⟨-, hmapped, hto⟩ := hag.homeBlock blk hhome
          cases hm : m.mapToPtr with
          | none => exact fun heq => hmapped k heq.symm
          | some blk' => exact fun heq => hto (by rw [hm]; exact congrArg some heq)
        have hmem := hag.inWindow k w i v hk hb hi hr hv
        rw [← hmem]
        exact Memory.store_ne _ _ _ _ hne i

end Bytes

/-! ## Commands -/

section Commands

variable {c : MemContext} {user : Nat → Nat → Option Nat} {s s' : MemState} {t t' : PlainState}
  {b start : Nat} {p : Ptr} {Q : Prop}

theorem byKind_integrated {n : Nat} {ptr : Block} {P : DiscreteBuffer → Prop}
    (hroot : s.buffers b = some (.integrated n ptr)) : s.ByKind b start P ↔ start = 0 := by
  unfold MemState.ByKind
  rw [hroot]

theorem byKind_discrete {m : DiscreteBuffer} {P : DiscreteBuffer → Prop}
    (hroot : s.buffers b = some (.discrete m)) : s.ByKind b start P ↔ P m := by
  unfold MemState.ByKind
  rw [hroot]

/-- The pointer is that of the byte where the buffer is used as it can be. -/
theorem Found.target (hf : Found s s' t b start p) (hk : s.ByKind b start fun _ => Q) :
    ∃ root blk, s'.buffers b = some root ∧ root.home = some blk ∧ p = ⟨blk, start⟩ ∧
      ((∃ m, root = .discrete m) → Q) := by
  obtain ⟨-, root, root', hroot, hbufs, -, -, hkind⟩ := hf
  have hroot' : s'.buffers b = some root' := by rw [hbufs, Function.update_self]
  unfold MemState.ByKind at hk
  rw [hroot] at hk
  rcases hkind with ⟨size, ptr, rfl, rfl, rfl⟩ | ⟨m, m', blk, rfl, rfl, hhome, rfl⟩
  · obtain rfl : start = 0 := hk
    exact ⟨_, ptr, hroot', rfl, rfl, fun ⟨m, hm⟩ => by cases hm⟩
  · exact ⟨_, blk, hroot', hhome, rfl, fun _ => hk⟩

/-- Finding a pointer leaves the kinds of the buffers. -/
theorem Found.byKind (hf : Found s s' t b start p) {b' start' : Nat}
    (hk : s.ByKind b' start' fun _ => Q) : s'.ByKind b' start' fun _ => Q := by
  obtain ⟨-, root, root', hroot, hbufs, -, -, hkind⟩ := hf
  unfold MemState.ByKind at hk ⊢
  rw [hbufs]
  by_cases hb : b' = b
  · subst hb
    rw [Function.update_self]
    rw [hroot] at hk
    rcases hkind with ⟨size, ptr, rfl, rfl, -⟩ | ⟨m, m', blk, rfl, rfl, -⟩
    · exact hk
    · exact hk
  · rw [Function.update_of_ne hb]
    exact hk

theorem MemAgrees.size_of_root (hA : MemAgrees user s t) {root : RootBuffer}
    (hroot : s.buffers b = some root) {n m : Nat} (hm : t.sizes b = some m) (hn : n ≤ m) :
    n ≤ root.size := by
  rw [hA.sizes b, hroot] at hm
  obtain rfl := Option.some.inj hm
  exact hn

theorem step_write (hA : MemAgrees user s t) {d offset index : Nat} {h : BufferHandle}
    {bytes : List Nat} {out : List (Option Nat)}
    (hm : (BufferOp.write d h offset index bytes).Meets s t)
    (hs : s.step c (.write d h offset index bytes) = some (s', out)) :
    MemAgrees user s' (t.step user (.write d h offset index bytes)).1 ∧ out = [] := by
  obtain ⟨⟨s₁, p⟩, hp, heq⟩ := Option.map_eq_some_iff.mp hs
  obtain ⟨rfl, rfl⟩ := Prod.mk.inj heq
  have hf := getDevicePtr_found hA.buffers hp
  obtain ⟨root, blk, hroot, hhome, rfl, hun⟩ := hf.target hm
  exact ⟨(hA.found hf).write hroot hhome _ _ hun fun i v _ hv => hv, rfl⟩

theorem returns_map {n : Nat} {f g : Nat → Option Nat}
    (h : ∀ i v, i < n → g i = some v → f i = some v) :
    Returns ((List.range n).map f) ((List.range n).map g) := by
  refine ⟨by simp, fun i v hv => ?_⟩
  rw [List.getElem?_map, Option.map_eq_some_iff] at hv
  obtain ⟨j, hj, hgj⟩ := hv
  have hlt : i < n := by
    have := (List.getElem?_eq_some_iff.mp hj).1
    rwa [List.length_range] at this
  rw [List.getElem?_range hlt] at hj
  obtain rfl := Option.some.inj hj
  rw [List.getElem?_map, List.getElem?_range hlt, Option.map_some, h i v hlt hgj]

theorem step_read (hA : MemAgrees user s t) {d offset index n : Nat} {h : BufferHandle}
    {out : List (Option Nat)} (hl : (BufferOp.read d h offset index n).Legal t)
    (hm : (BufferOp.read d h offset index n).Meets s t)
    (hs : s.step c (.read d h offset index n) = some (s', out)) :
    MemAgrees user s' (t.step user (.read d h offset index n)).1 ∧
      Returns out (t.step user (.read d h offset index n)).2 := by
  obtain ⟨⟨s₁, p⟩, hp, heq⟩ := Option.map_eq_some_iff.mp hs
  obtain ⟨rfl, rfl⟩ := Prod.mk.inj heq
  have hf := getDevicePtr_found hA.buffers hp
  obtain ⟨root, blk, hroot, hhome, rfl, hun⟩ := hf.target hm
  have hA₁ := hA.found hf
  refine ⟨hA₁, returns_map fun i v hi hv => ?_⟩
  obtain ⟨m, hm, hle⟩ := has_root hl
  exact hA₁.read hroot hhome (hA₁.size_of_root hroot hm (by omega)) hun hi hv

theorem step_copy (hA : MemAgrees user s t) {d srcOffset dstOffset n : Nat}
    {hSrc hDst : BufferHandle} {out : List (Option Nat)}
    (hl : (BufferOp.copy d hSrc hDst srcOffset dstOffset n).Legal t)
    (hm : (BufferOp.copy d hSrc hDst srcOffset dstOffset n).Meets s t)
    (hs : s.step c (.copy d hSrc hDst srcOffset dstOffset n) = some (s', out)) :
    MemAgrees user s' (t.step user (.copy d hSrc hDst srcOffset dstOffset n)).1 ∧ out = [] := by
  obtain ⟨⟨s₁, src⟩, hsrc, hs⟩ := Option.bind_eq_some_iff.mp hs
  obtain ⟨⟨s₂, dst⟩, hdst, heq⟩ := Option.map_eq_some_iff.mp hs
  obtain ⟨rfl, rfl⟩ := Prod.mk.inj heq
  have hf₁ := getDevicePtr_found hA.buffers hsrc
  have hA₁ := hA.found hf₁
  have hf₂ := getDevicePtr_found hA₁.buffers hdst
  obtain ⟨root, blk, hroot, hhome, rfl, hun⟩ := hf₁.target hm.1
  obtain ⟨root', blk', hroot', hhome', rfl, hun'⟩ := hf₂.target (hf₁.byKind hm.2)
  -- the source holds its bytes before the destination is found
  have hbytes : ∀ i v, i < n → t.arrays hSrc.rootOf (hSrc.origin + srcOffset + i) = some v →
      s₂.mem.byteAt ⟨blk, hSrc.origin + srcOffset⟩ i = some v := by
    intro i v hi hv
    obtain ⟨m, hsize, hle⟩ := has_root hl.1
    rw [hf₂.mem.1]
    exact hA₁.read hroot hhome (hA₁.size_of_root hroot hsize (by omega)) hun hi hv
  exact ⟨(hA₁.found hf₂).write hroot' hhome' _ _ hun' hbytes, rfl⟩

end Commands

end UnifiedRuntime.LevelZeroV2
