import UnifiedRuntime.LevelZeroV2.MemoryMaps

/-!
# Buffers as arrays

A run whose operations meet the condition returns the bytes of plain arrays
(`buffers_as_arrays`).
-/

namespace UnifiedRuntime.LevelZeroV2

/-! ## Creation -/

section Create

variable {c : MemContext} {user : Nat → Nat → Option Nat} {s s' : MemState} {t : PlainState}
  {b : Nat} {m : DiscreteBuffer}

/-- A buffer without windows. -/
theorem DiscreteAgrees.fresh (hw : ∀ k w, t.windows k = some w → w.buffer ≠ b)
    (hentries : m.hostAllocations = [])
    (hactive : m.activeAllocationDevice.isSome → m.home.isSome)
    (hhome : ∀ blk, m.home = some blk →
      blk.buffer = b ∧ (∀ k, blk ≠ .mapped b k) ∧ m.mapToPtr ≠ some blk)
    (hto : ∀ blk, m.mapToPtr = some blk → blk = .user b)
    (hbytes : ∀ i v, i < m.size → t.arrays b i = some v →
      ∃ blk, m.home = some blk ∧ s.mem blk i = some v) : DiscreteAgrees s t b m := by
  refine ⟨hactive, hhome, hto, fun k w hk hb => absurd hb (hw k w hk), fun e => ?_, ?_,
    fun _ k k' w w' hk _ hb => absurd hb (hw k w hk), fun k w hk hb => absurd hb (hw k w hk),
    fun k k' w w' _ hk _ hb => absurd hb (hw k w hk), fun i v hi _ hv => hbytes i v hi hv,
    fun k w i v hk hb => absurd hb (hw k w hk)⟩
  · rw [hentries]
    refine ⟨fun he => (by cases he), fun ⟨k, w, hk, hb, _⟩ => absurd hb (hw k w hk)⟩
  · rw [hentries]
    exact List.nodup_nil

/-- What a constructor leaves. -/
structure CreatedRoot (s s' : MemState) (b size : Nat) (root : RootBuffer) : Prop where
  buffers : s'.buffers = Function.update s.buffers b (some root)
  size : root.size = size
  others : ∀ blk : Block, blk.buffer ≠ b → s'.mem blk = s.mem blk
  ptrs : s'.ptrs = s.ptrs ∧ s'.maps = s.maps

/-- **A new buffer** has the application's bytes, unless it is over native memory of the
host. -/
theorem create_agrees {size : Nat} {kind : CreateKind} (hkind : kind ≠ .discreteNativeHost)
    (hw : ∀ k w, t.windows k = some w → w.buffer ≠ b) (huser : s.mem (.user b) = user b)
    (harr : t.arrays b = fun i => if kind.hasContents then user b i else none) :
    ∃ root, CreatedRoot s (s.create c b size kind) b size root ∧
      Agrees (s.create c b size kind) t b root := by
  have hcopied : ∀ (blk : Block) i, i < size →
      s.mem.copy ⟨blk, 0⟩ ⟨.user b, 0⟩ size blk i = user b i := by
    intro blk i hi
    have hin := Memory.copy_in s.mem ⟨blk, 0⟩ ⟨.user b, 0⟩ hi
    simpa [huser] using hin
  -- the blocks of other buffers are not written
  have hothers : ∀ blk : Block, blk.buffer = b → ∀ blk' : Block, blk'.buffer ≠ b →
      s.mem.copy ⟨blk, 0⟩ ⟨.user b, 0⟩ size blk' = s.mem blk' := by
    intro blk hb blk' hne
    refine funext fun i => Memory.store_ne _ _ _ _ ?_ i
    rintro rfl
    exact hne hb
  cases kind with
  | integrated hostPtr =>
    cases hostPtr with
    | false =>
      refine ⟨.integrated size (.shared b), ⟨rfl, rfl, fun _ _ => rfl, rfl, rfl⟩, rfl,
        fun k w hk hb => absurd hb (hw k w hk), fun i v _ hv => ?_⟩
      rw [harr] at hv
      cases hv
    | true =>
      refine ⟨.integrated size (.shared b), ⟨rfl, rfl, hothers _ rfl, rfl, rfl⟩, rfl,
        fun k w hk hb => absurd hb (hw k w hk), fun i v hi hv => ?_⟩
      rw [harr] at hv
      exact (hcopied (.shared b) i hi).trans hv
  | integratedImported =>
    refine ⟨.integrated size (.user b), ⟨rfl, rfl, fun _ _ => rfl, rfl, rfl⟩, rfl,
      fun k w hk hb => absurd hb (hw k w hk), fun i v _ hv => ?_⟩
    rw [harr] at hv
    exact (congrFun huser i).trans hv
  | discrete hostPtr =>
    cases hostPtr with
    | false =>
      refine ⟨.discrete ⟨size, fun _ => none, none, none, []⟩,
        ⟨rfl, rfl, fun _ _ => rfl, rfl, rfl⟩,
        DiscreteAgrees.fresh hw rfl (fun h => (by cases h)) (fun _ h => (by cases h))
          (fun _ h => (by cases h)) fun i v _ hv => ?_⟩
      rw [harr] at hv
      cases hv
    | true =>
      refine ⟨_, ⟨rfl, rfl, hothers (.device b c.firstDevice) rfl, rfl, rfl⟩,
        DiscreteAgrees.fresh hw rfl (fun _ => ?_) (fun blk hblk => ?_) (fun blk hblk => ?_)
          fun i v hi hv => ⟨.device b c.firstDevice, allocateOnDevice_home _ b _, ?_⟩⟩
      · exact (congrArg Option.isSome (allocateOnDevice_home _ b c.firstDevice)).trans rfl
      · obtain rfl := Option.some.inj ((allocateOnDevice_home _ b c.firstDevice).symm.trans hblk)
        exact ⟨rfl, fun k h => (by cases h), fun h => by cases h⟩
      · exact (Option.some.inj hblk).symm
      · rw [harr] at hv
        exact (hcopied (.device b c.firstDevice) i hi).trans hv
  | discreteNative d =>
    have hhome : ∀ m : DiscreteBuffer, m.activeAllocationDevice = some d →
        m.deviceAllocations d = some (.user b) → m.home = some (.user b) := by
      intro m hact hdev
      unfold DiscreteBuffer.home
      rw [hact]
      exact hdev
    have hd : (Function.update (fun _ => none) d (some (.user b)) : Nat → Option Block) d
      = some (.user b) := Function.update_self ..
    refine ⟨_, ⟨rfl, rfl, fun _ _ => rfl, rfl, rfl⟩,
      DiscreteAgrees.fresh hw rfl (fun _ => ?_) (fun blk hblk => ?_) (fun _ h => (by cases h))
        fun i v hi hv => ⟨.user b, hhome _ rfl hd, ?_⟩⟩
    · rw [hhome _ rfl hd]
      rfl
    · rw [hhome _ rfl hd] at hblk
      obtain rfl := Option.some.inj hblk
      exact ⟨rfl, fun k h => (by cases h), fun h => by cases h⟩
    · rw [harr] at hv
      exact (congrFun huser i).trans hv
  | discreteNativeHost => exact absurd rfl hkind

theorem step_create (hA : MemAgrees user s t) {size : Nat} {kind : CreateKind}
    {out : List (Option Nat)} (hm : (BufferOp.create b size kind).Meets s t)
    (hs : s.step c (.create b size kind) = some (s', out)) :
    MemAgrees user s' (t.step user (.create b size kind)).1 ∧ out = [] := by
  obtain ⟨hnone, heq⟩ := Option.ite_none_left_eq_some.mp hs
  obtain ⟨rfl, rfl⟩ := Prod.mk.inj (Option.some.inj heq)
  have hb : s.buffers b = none := Option.not_isSome_iff_eq_none.mp hnone
  have hw : ∀ k w, (t.step user (.create b size kind)).1.windows k = some w → w.buffer ≠ b := by
    rintro k w hk rfl
    have := hA.known k w hk
    rw [hb] at this
    cases this
  have harr : (t.step user (.create b size kind)).1.arrays b
      = fun i => if kind.hasContents then user b i else none := Function.update_self ..
  obtain ⟨root, hcr, hag⟩ := create_agrees hm hw (hA.userMem b hb) harr
  refine ⟨?_, rfl⟩
  refine hA.change b root hcr.buffers ?_ hcr.others (fun _ _ _ _ => by rw [hcr.ptrs.1])
    (fun b' hb' => Function.update_of_ne hb' ..) (fun _ _ _ => .rfl)
    (hA.maps.trans hcr.ptrs.2.symm) (fun k hk => hA.fresh k (hcr.ptrs.2 ▸ hk)) hag
  rw [hcr.size]
  rfl

end Create

/-! ## Runs -/

section Runs

variable {c : MemContext} {user : Nat → Nat → Option Nat} {s s' : MemState} {t t' : PlainState}

theorem MemAgrees.init (user : Nat → Nat → Option Nat) :
    MemAgrees user (MemState.init user) PlainState.init where
  sizes := fun _ => rfl
  maps := rfl
  fresh := fun _ _ => rfl
  known := fun k w hk => by cases hk
  buffers := fun b root hb => by cases hb
  userMem := fun _ _ => rfl

theorem Returns.nil : Returns [] [] := ⟨rfl, fun i v h => by cases h⟩

/-- **One operation** keeps the agreement and returns the bytes of the arrays. -/
theorem MemAgrees.step (hA : MemAgrees user s t) {op : BufferOp} {out : List (Option Nat)}
    (hl : op.Legal t) (hm : op.Meets s t) (hs : s.step c op = some (s', out)) :
    MemAgrees user s' (t.step user op).1 ∧ Returns out (t.step user op).2 := by
  cases op with
  | create b size kind =>
    obtain ⟨hA', rfl⟩ := step_create hA hm hs
    exact ⟨hA', .nil⟩
  | write d h offset index bytes =>
    obtain ⟨hA', rfl⟩ := step_write hA hm hs
    exact ⟨hA', .nil⟩
  | read d h offset index n => exact step_read hA hl hm hs
  | copy d hSrc hDst srcOffset dstOffset n =>
    obtain ⟨hA', rfl⟩ := step_copy hA hl hm hs
    exact ⟨hA', .nil⟩
  | map h flags offset size =>
    obtain ⟨hA', rfl⟩ := step_map hA hl hm hs
    refine ⟨hA', ?_⟩
    unfold PlainState.step
    simp only
    split
    · exact .nil
    · exact .nil
  | unmap h k =>
    obtain ⟨hA', rfl⟩ := step_unmap hA hl hm hs
    exact ⟨hA', .nil⟩
  | hostWrite k i byte =>
    obtain ⟨hA', rfl⟩ := step_hostWrite hA hl hs
    obtain ⟨w, hk, -⟩ := hl
    refine ⟨hA', ?_⟩
    simp only [PlainState.step, hk]
    exact .nil
  | hostRead k i => exact step_hostRead hA hl hm hs

theorem MemAgrees.run (hA : MemAgrees user s t) {ops : List BufferOp}
    {outs : List (List (Option Nat) × List (Option Nat))} (hm : AllMeet c user s t ops)
    (hr : runBoth c user s t ops = some (s', t', outs)) :
    MemAgrees user s' t' ∧ ∀ o ∈ outs, Returns o.1 o.2 := by
  induction ops generalizing s t outs with
  | nil =>
    obtain ⟨rfl, heq⟩ := Prod.mk.inj (Option.some.inj hr)
    obtain ⟨rfl, rfl⟩ := Prod.mk.inj heq
    exact ⟨hA, fun o ho => by cases ho⟩
  | cons op ops ih =>
    obtain ⟨hlegal, hmeets, hrest⟩ := hm
    obtain ⟨⟨s₁, out⟩, hs, hr₁⟩ := Option.bind_eq_some_iff.mp hr
    obtain ⟨⟨s₂, t₂, outs₂⟩, hr₂, heq⟩ := Option.map_eq_some_iff.mp hr₁
    obtain ⟨rfl, heq₂⟩ := Prod.mk.inj heq
    obtain ⟨rfl, rfl⟩ := Prod.mk.inj heq₂
    obtain ⟨hA₁, hout⟩ := hA.step hlegal hmeets hs
    obtain ⟨hA₂, houts⟩ := ih hA₁ (hrest _ hs) hr₂
    refine ⟨hA₂, fun o ho => ?_⟩
    rcases List.mem_cons.mp ho with rfl | ho
    · exact hout
    · exact houts o ho

/-- Where `getDevicePtr` points: to the byte, if the buffer is discrete or the byte is its
first. -/
theorem getDevicePtr_addresses (hA : ∀ b root, s.buffers b = some root → Agrees s t b root)
    {d offset : Nat} {h : BufferHandle} {p : Ptr}
    (hp : s.getDevicePtr c d h offset = some (s', p)) :
    ∃ blk, (s'.buffers h.rootOf).bind RootBuffer.home = some blk ∧
      (p = ⟨blk, h.origin + offset⟩ ↔ s.ByKind h.rootOf (h.origin + offset) fun _ => True) := by
  obtain ⟨-, root, root', hroot, hbufs, -, -, hkind⟩ := getDevicePtr_found hA hp
  rw [hbufs, Function.update_self]
  rcases hkind with ⟨size, ptr, rfl, rfl, rfl⟩ | ⟨m, m', blk, rfl, rfl, hhome, rfl⟩
  · refine ⟨ptr, rfl, ?_⟩
    rw [byKind_integrated hroot]
    constructor
    · exact fun heq => (congrArg Ptr.offset heq).symm
    · intro hzero
      rw [hzero]
  · refine ⟨blk, hhome, ?_⟩
    rw [byKind_discrete hroot]
    exact ⟨fun _ => trivial, fun _ => rfl⟩

end Runs

/-- **Buffers are arrays.** A run whose operations meet the condition returns the bytes of
plain arrays, and `getDevicePtr` points to the byte of a buffer where it is discrete or
the byte is its first. -/
theorem buffers_as_arrays (c : MemContext) (user : Nat → Nat → Option Nat) (ops : List BufferOp)
    (s : MemState) (t : PlainState) (outs : List (List (Option Nat) × List (Option Nat)))
    (hm : AllMeet c user (MemState.init user) PlainState.init ops)
    (hr : runBoth c user (MemState.init user) PlainState.init ops = some (s, t, outs)) :
    (∀ o ∈ outs, Returns o.1 o.2) ∧
      ∀ (d : Nat) (h : BufferHandle) (offset : Nat) (s' : MemState) (p : Ptr),
        s.getDevicePtr c d h offset = some (s', p) →
        ∃ blk, (s'.buffers h.rootOf).bind RootBuffer.home = some blk ∧
          (p = ⟨blk, h.origin + offset⟩ ↔ s.ByKind h.rootOf (h.origin + offset) fun _ => True) := by
  obtain ⟨hA, houts⟩ := (MemAgrees.init user).run hm hr
  exact ⟨houts, fun d h offset s' p hp => getDevicePtr_addresses hA.buffers hp⟩

/-- A discrete buffer, written through a sub-buffer and a map. -/
def mapAndWrite : List BufferOp :=
  [.create 0 4 (.discrete true), .write 0 (.sub (.root 0) 1 3) 1 0 [7],
    .map (.root 0) ⟨true, true, false⟩ 0 2, .hostWrite 0 0 9, .unmap (.root 0) 0,
    .read 0 (.root 0) 0 0 4]

theorem buffers_as_arrays_map :
    ∃ s t, runBoth ⟨0, fun _ _ => false⟩ (fun _ i => some i) (MemState.init fun _ i => some i)
      PlainState.init mapAndWrite = some (s, t, [([], []), ([], []), ([], []), ([], []), ([], []),
        ([some 9, some 1, some 7, some 3], [some 9, some 1, some 7, some 3])]) ∧
      ∀ o ∈ [([], []), ([], []), ([], []), ([], []), ([], []),
        ([some 9, some 1, some 7, some 3], [some 9, some 1, some 7, some 3])],
        Returns o.1 o.2 := by
  refine ⟨_, _, rfl, (buffers_as_arrays ⟨0, fun _ _ => false⟩ (fun _ i => some i) mapAndWrite _ _ _
    ?_ rfl).1⟩
  refine ⟨trivial, (by simp [BufferOp.Meets]), fun r hr => ?_⟩
  obtain rfl := Option.some.inj hr
  refine ⟨⟨⟨rfl, 4, rfl, by decide⟩, 3, rfl, by decide⟩, fun k w hk => (by cases hk), fun r hr => ?_⟩
  obtain rfl := Option.some.inj hr
  refine ⟨⟨rfl, 4, rfl, by decide⟩, ⟨fun _ k w hk => (by cases hk), fun k w hk => (by cases hk)⟩,
    fun r hr => ?_⟩
  obtain rfl := Option.some.inj hr
  refine ⟨⟨_, rfl, by decide, rfl⟩, trivial, fun r hr => ?_⟩
  obtain rfl := Option.some.inj hr
  refine ⟨⟨rfl, _, rfl, rfl⟩, fun w hk => ?_, fun r hr => ?_⟩
  · obtain rfl := Option.some.inj hk
    exact ⟨fun i _ => .inl rfl, .inl rfl⟩
  obtain rfl := Option.some.inj hr
  refine ⟨⟨rfl, 4, rfl, by decide⟩, fun k w hk => ?_, fun r hr => trivial⟩
  -- no window is left
  cases k with
  | zero => cases hk
  | succ k => cases hk

/-- A write into an integrated buffer, a map for writing some of the bytes of a discrete
buffer, and a map that discards what the buffer had. -/
def writeAtOffset : List BufferOp :=
  [.create 0 4 (.integrated false), .write 0 (.root 0) 0 0 [1, 2, 3, 4],
    .write 0 (.root 0) 1 0 [9], .read 0 (.root 0) 0 0 4]

def mapForWriting : List BufferOp :=
  [.create 0 2 (.discrete false), .write 0 (.root 0) 0 0 [1, 2],
    .map (.root 0) ⟨false, true, false⟩ 0 2, .hostWrite 0 0 9, .unmap (.root 0) 0,
    .read 0 (.root 0) 0 0 2]

def mapInvalidated : List BufferOp :=
  [.create 0 2 (.discrete false), .map (.root 0) ⟨false, false, true⟩ 0 2, .hostWrite 0 0 9,
    .hostWrite 0 1 8, .unmap (.root 0) 0, .read 0 (.root 0) 0 0 2]

/-- The write at 1 goes to the start, the byte that the host did not write is lost, and so
are those that it wrote. -/
theorem buffers_not_arrays :
    [writeAtOffset, mapForWriting, mapInvalidated].Forall fun ops =>
      AllLegal (fun _ _ => none) PlainState.init ops ∧
        ∃ s t outs, runBoth ⟨0, fun _ _ => false⟩ (fun _ _ => none)
          (MemState.init fun _ _ => none) PlainState.init ops = some (s, t, outs) ∧
          ¬ ∀ o ∈ outs, Returns o.1 o.2 := by
  refine ⟨?_, ?_, ?_⟩
  · refine ⟨⟨trivial, ⟨rfl, 4, rfl, by decide⟩, ⟨rfl, 4, rfl, by decide⟩, ⟨rfl, 4, rfl, by decide⟩,
      trivial⟩, _, _, [([], []), ([], []), ([], []), ([some 9, some 2, some 3, some 4],
        [some 1, some 9, some 3, some 4])], rfl, fun h => ?_⟩
    have h₀ := (h _ (List.mem_of_getElem? (i := 3) rfl)).2 0 1 rfl
    exact absurd h₀ (by decide)
  · refine ⟨⟨trivial, ⟨rfl, 2, rfl, by decide⟩, ⟨rfl, 2, rfl, by decide⟩, ⟨_, rfl, by decide, rfl⟩,
      ⟨rfl, _, rfl, rfl⟩, ⟨rfl, 2, rfl, by decide⟩, trivial⟩, _, _, [([], []), ([], []), ([], []),
        ([], []), ([], []), ([some 9, none], [some 9, some 2])], rfl, fun h => ?_⟩
    have h₁ := (h _ (List.mem_of_getElem? (i := 5) rfl)).2 1 2 rfl
    exact absurd h₁ (by decide)
  · refine ⟨⟨trivial, ⟨rfl, 2, rfl, by decide⟩, ⟨_, rfl, by decide, rfl⟩, ⟨_, rfl, by decide, rfl⟩,
      ⟨rfl, _, rfl, rfl⟩, ⟨rfl, 2, rfl, by decide⟩, trivial⟩, _, _, [([], []), ([], []), ([], []),
        ([], []), ([], []), ([none, none], [some 9, some 8])], rfl, fun h => ?_⟩
    have h₀ := (h _ (List.mem_of_getElem? (i := 5) rfl)).2 0 9 rfl
    exact absurd h₀ (by decide)

end UnifiedRuntime.LevelZeroV2
