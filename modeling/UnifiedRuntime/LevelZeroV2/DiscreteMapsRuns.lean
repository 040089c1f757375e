import UnifiedRuntime.LevelZeroV2.DiscreteMaps
import UnifiedRuntime.LevelZeroV2.MemoryAgrees

/-!
# Runs of maps and unmaps

Two invariants carry a run. Where the mappings are and what has been freed (`Placed`) holds in
every run; that the mappings show and change their own bytes (`Agrees`) is kept by the calls
that meet the condition.

- `unmapHostPtr_thrown`: an unmap that fails leaves the mappings.
- `Placed.ownership`: memory is freed by its owner exactly until the first unmap.
- `Agrees.map`, `Agrees.unmap`, `Agrees.hostWrite`: one call.
- `discrete_maps`: all of it for a run.
-/

namespace UnifiedRuntime.LevelZeroV2.Maps

open Function (update update_of_ne update_self)

variable {c : MemContext} {b : Nat} {s s' : MapState} {t : Protocol} {p : Ptr} {flags : MapFlags}
  {offset size : Nat} {allocates copies : Bool}

/-! ## What the calls do -/

/-- **A failed unmap leaves the mappings.** -/
theorem unmapHostPtr_thrown (h : (unmapHostPtr c b s p allocates copies).2 = .thrown) :
    (unmapHostPtr c b s p allocates copies).1.buffer.hostAllocations =
      s.buffer.hostAllocations := by
  have hback : ∀ (s₁ : MapState) (e : HostAllocation),
      (writeBack s₁ p e copies).2 = .thrown → (writeBack s₁ p e copies).1 = s₁ := by
    intro s₁ e hthrown
    unfold writeBack at hthrown ⊢
    cases hactive : s₁.buffer.getActiveDeviceAlloc e.offset with
    | none =>
      rw [hactive] at hthrown
      cases hthrown
    | some dst =>
      rw [hactive] at hthrown
      cases copies with
      | true => cases hthrown
      | false => rfl
  unfold unmapHostPtr at h ⊢
  cases hfind : s.buffer.hostAllocations.find? (·.ptr == p) with
  | none => rfl
  | some e =>
    rw [hfind] at h
    dsimp only at h ⊢
    split at h
    next hneeds =>
      rw [if_pos hneeds]
      split at h
      next halloc =>
        rw [if_pos halloc, hback _ e h]
        rfl
      next halloc => rw [if_neg halloc]
    next hneeds => rw [if_neg hneeds, hback _ e h]

/-- `mapHostPtr` does nothing, or it has a new entry for its memory. -/
theorem mapHostPtr_state (b : Nat) (s : MapState) (flags : MapFlags) (offset size : Nat)
    (allocates copies : Bool) :
    (mapHostPtr b s flags offset size allocates copies = (s, .thrown) ∧
        s.buffer.mapToPtr = none) ∨
      ∃ ptr maps, (s.buffer.mapToPtr = some ptr.block ∧ ptr.offset = 0 ∧ maps = s.maps ∨
          s.buffer.mapToPtr = none ∧ ptr = ⟨.mapped b s.maps, 0⟩ ∧ maps = s.maps + 1) ∧
        mapHostPtr b s flags offset size allocates copies =
          pushMapping { s with maps := maps } ptr flags offset size copies := by
  unfold mapHostPtr
  cases hptr : s.buffer.mapToPtr with
  | some blk => exact Or.inr ⟨⟨blk, 0⟩, s.maps, Or.inl ⟨rfl, rfl, rfl⟩, rfl⟩
  | none =>
    cases allocates with
    | true => exact Or.inr ⟨_, _, Or.inr ⟨rfl, rfl, rfl⟩, rfl⟩
    | false => exact Or.inl ⟨rfl, rfl⟩

/-- What `pushMapping` leaves, but for the memory. -/
theorem pushMapping_state (s : MapState) (ptr : Ptr) (flags : MapFlags) (offset size : Nat)
    (copies : Bool) : ∃ mem, (pushMapping s ptr flags offset size copies).1 =
      { s with
        mem := mem
        buffer := { s.buffer with
          hostAllocations := s.buffer.hostAllocations ++ [⟨ptr, size, offset, flags⟩] } } := by
  unfold pushMapping
  cases s.buffer.getActiveDeviceAlloc offset with
  | none => exact ⟨s.mem, rfl⟩
  | some src =>
    cases flags.read with
    | false => exact ⟨s.mem, rfl⟩
    | true =>
      cases copies with
      | true => exact ⟨_, rfl⟩
      | false => exact ⟨s.mem, rfl⟩

/-- `unmapHostPtr` throws, with or without a new allocation on the device, or it erases the
entry that it found. -/
theorem unmapHostPtr_state (c : MemContext) (b : Nat) (s : MapState) (p : Ptr)
    (allocates copies : Bool) :
    ∃ buffer mem, (buffer = s.buffer ∨ s.buffer.activeAllocationDevice = none ∧
        buffer = s.buffer.allocateOnDevice b c.firstDevice) ∧
      (unmapHostPtr c b s p allocates copies = ({ s with buffer := buffer }, .thrown) ∨
        (∃ e, s.buffer.hostAllocations.find? (·.ptr == p) = some e) ∧
        unmapHostPtr c b s p allocates copies =
          (eraseMapping { s with buffer := buffer, mem := mem } p, .done)) := by
  have hback : ∀ (s₁ : MapState) (e : HostAllocation), ∃ mem,
      writeBack s₁ p e copies = (s₁, .thrown) ∨
        writeBack s₁ p e copies = (eraseMapping { s₁ with mem := mem } p, .done) := by
    intro s₁ e
    unfold writeBack
    cases s₁.buffer.getActiveDeviceAlloc e.offset with
    | none => exact ⟨s₁.mem, Or.inr rfl⟩
    | some dst =>
      cases copies with
      | true => exact ⟨_, Or.inr rfl⟩
      | false => exact ⟨s₁.mem, Or.inl rfl⟩
  unfold unmapHostPtr
  cases hfind : s.buffer.hostAllocations.find? (·.ptr == p) with
  | none => exact ⟨s.buffer, s.mem, Or.inl rfl, Or.inl rfl⟩
  | some e =>
    dsimp only
    split
    next hneeds =>
      split
      next =>
        have hnone : s.buffer.activeAllocationDevice = none := by
          unfold needsAlloc at hneeds
          rw [Bool.and_eq_true, Option.isNone_iff_eq_none] at hneeds
          exact hneeds.1
        obtain ⟨mem, h | h⟩ :=
          hback { s with buffer := s.buffer.allocateOnDevice b c.firstDevice } e
        · exact ⟨_, mem, Or.inr ⟨hnone, rfl⟩, Or.inl h⟩
        · exact ⟨_, mem, Or.inr ⟨hnone, rfl⟩, Or.inr ⟨⟨e, rfl⟩, h⟩⟩
      next => exact ⟨s.buffer, s.mem, Or.inl rfl, Or.inl rfl⟩
    next =>
      obtain ⟨mem, h | h⟩ := hback s e
      · exact ⟨s.buffer, mem, Or.inl rfl, Or.inl h⟩
      · exact ⟨s.buffer, mem, Or.inl rfl, Or.inr ⟨⟨e, rfl⟩, h⟩⟩

/-! ## Where the mappings are -/

/-- The places of the buffer's memory and of its mappings, and what has been freed. -/
structure Placed (b : Nat) (s : MapState) (unmapped : List Ptr) : Prop where
  user : ∀ blk, s.buffer.mapToPtr = some blk →
    (∀ d, blk ≠ .device b d) ∧ ∀ k, blk ≠ .mapped b k
  active : ∀ d, s.buffer.activeAllocationDevice = some d → ∃ blk,
    s.buffer.deviceAllocations d = some blk ∧ s.buffer.mapToPtr ≠ some blk ∧
      ∀ k, blk ≠ .mapped b k
  lent : ∀ blk, s.buffer.mapToPtr = some blk → ∀ e ∈ s.buffer.hostAllocations, e.ptr = ⟨blk, 0⟩
  staged : s.buffer.mapToPtr = none → ∀ e ∈ s.buffer.hostAllocations,
    ∃ k < s.maps, e.ptr = ⟨.mapped b k, 0⟩
  distinct : s.buffer.mapToPtr = none → (s.buffer.hostAllocations.map (·.ptr)).Nodup
  freedUser : ∀ blk, s.buffer.mapToPtr = some blk → s.freed blk = unmapped.length
  freedStaging : s.buffer.mapToPtr = none → ∀ blk, s.freed blk = 0
  all : s.buffer.mapToPtr = none → ∀ k < s.maps,
    (∃ e ∈ s.buffer.hostAllocations, e.ptr = ⟨.mapped b k, 0⟩) ∨ ⟨.mapped b k, 0⟩ ∈ unmapped
  gone : s.buffer.mapToPtr = none → ∀ q ∈ unmapped,
    (∃ k < s.maps, q = ⟨.mapped b k, 0⟩) ∧ ∀ e ∈ s.buffer.hostAllocations, e.ptr ≠ q

variable {unmapped : List Ptr}

theorem Start.placed (h : Start b s) : Placed b s [] where
  user := h.user
  active := h.active
  lent := by
    intro blk _ e he
    rw [h.unmapped] at he
    cases he
  staged := by
    intro _ e he
    rw [h.unmapped] at he
    cases he
  distinct := by
    intro _
    rw [h.unmapped]
    exact List.nodup_nil
  freedUser := fun blk _ => h.unfreed blk
  freedStaging := fun _ => h.unfreed
  all := by
    intro _ k hk
    rw [h.fresh] at hk
    cases hk
  gone := by
    intro _ q hq
    cases hq

/-- **Memory is freed by its owner exactly if nothing has been unmapped.** -/
theorem Placed.ownership (h : Placed b s unmapped) : OwnershipRight b s ↔ unmapped = [] := by
  constructor
  · intro hright
    by_contra hne
    obtain ⟨q, hq⟩ := List.exists_mem_of_ne_nil _ hne
    cases hptr : s.buffer.mapToPtr with
    | some blk =>
      have hfreed := h.freedUser blk hptr
      rw [hright.user blk hptr] at hfreed
      exact hne (List.length_eq_zero_iff.mp hfreed.symm)
    | none =>
      obtain ⟨⟨k, hk, rfl⟩, hgone⟩ := h.gone hptr q hq
      have hfreed := hright.staging hptr k hk
      rw [h.freedStaging hptr, if_neg] at hfreed
      · cases hfreed
      · rintro ⟨e, he, hblock⟩
        obtain ⟨k', -, heq⟩ := h.staged hptr e he
        rw [heq] at hblock
        exact hgone e he (heq.trans (congrArg (Ptr.mk · 0) hblock))
  · rintro rfl
    refine ⟨fun blk hptr => h.freedUser blk hptr, fun hptr k hk => ?_⟩
    obtain ⟨e, he, heq⟩ := (h.all hptr k hk).resolve_right List.not_mem_nil
    rw [h.freedStaging hptr, if_pos ⟨e, he, by rw [heq]⟩]

theorem Placed.mem_irrelevant (h : Placed b s unmapped) (mem : Memory) :
    Placed b { s with mem := mem } unmapped :=
  ⟨h.user, h.active, h.lent, h.staged, h.distinct, h.freedUser, h.freedStaging, h.all, h.gone⟩

theorem Placed.allocate (h : Placed b s unmapped) (d : Nat) :
    Placed b { s with buffer := s.buffer.allocateOnDevice b d } unmapped where
  user := h.user
  active := by
    intro d' hd'
    obtain rfl := Option.some.inj hd'
    refine ⟨.device b d, update_self .., ?_, fun k => by simp⟩
    intro hptr
    exact (h.user _ hptr).1 d rfl
  lent := h.lent
  staged := h.staged
  distinct := h.distinct
  freedUser := h.freedUser
  freedStaging := h.freedStaging
  all := h.all
  gone := h.gone

theorem Placed.push (h : Placed b s unmapped) {ptr : Ptr} {maps : Nat} (e : HostAllocation)
    (he : e.ptr = ptr)
    (hptr : s.buffer.mapToPtr = some ptr.block ∧ ptr.offset = 0 ∧ maps = s.maps ∨
      s.buffer.mapToPtr = none ∧ ptr = ⟨.mapped b s.maps, 0⟩ ∧ maps = s.maps + 1) :
    Placed b { s with
      maps := maps
      buffer := { s.buffer with
        hostAllocations := s.buffer.hostAllocations ++ [e] } } unmapped := by
  subst he
  -- the pointer of the user, or new staging memory
  rcases hptr with ⟨hmap, hoff, rfl⟩ | ⟨hmap, heq, rfl⟩
  · have hnone : s.buffer.mapToPtr ≠ none := by
      rw [hmap]
      simp
    refine ⟨h.user, h.active, ?_, fun hn => absurd hn hnone, fun hn => absurd hn hnone,
      h.freedUser, h.freedStaging, fun hn => absurd hn hnone, fun hn => absurd hn hnone⟩
    intro blk hblk e' he'
    rcases List.mem_append.mp he' with he' | he'
    · exact h.lent blk hblk e' he'
    · obtain rfl := List.mem_singleton.mp he'
      have hsome : some e'.ptr.block = some blk := hmap.symm.trans hblk
      cases hp : e'.ptr with
      | mk block off =>
        rw [hp] at hsome hoff
        obtain rfl := Option.some.inj hsome
        exact congrArg (Ptr.mk block) hoff
  · have hsome : ∀ blk, s.buffer.mapToPtr ≠ some blk := by
      intro blk
      rw [hmap]
      simp
    have hnew : ∀ e' ∈ s.buffer.hostAllocations, e'.ptr ≠ e.ptr := by
      intro e' he' hsame
      obtain ⟨k, hk, hk'⟩ := h.staged hmap e' he'
      rw [hk', heq] at hsame
      simp only [Ptr.mk.injEq, Block.mapped.injEq, true_and, and_true] at hsame
      omega
    refine ⟨h.user, h.active, fun blk hblk => absurd hblk (hsome blk), fun _ e' he' => ?_,
      fun _ => ?_, fun blk hblk => absurd hblk (hsome blk), h.freedStaging, fun _ k hk => ?_,
      fun _ q hq => ?_⟩
    · rcases List.mem_append.mp he' with he' | he'
      · obtain ⟨k, hk, hk'⟩ := h.staged hmap e' he'
        exact ⟨k, Nat.lt_succ_of_lt hk, hk'⟩
      · obtain rfl := List.mem_singleton.mp he'
        exact ⟨s.maps, Nat.lt_succ_self _, heq⟩
    · show ((s.buffer.hostAllocations ++ [e]).map (·.ptr)).Nodup
      rw [List.map_append, List.nodup_append]
      refine ⟨h.distinct hmap, List.nodup_singleton _, ?_⟩
      intro q hq q' hq' hsame
      obtain ⟨e', he', rfl⟩ := List.mem_map.mp hq
      obtain rfl := List.mem_singleton.mp hq'
      exact hnew e' he' hsame
    · by_cases hlast : k = s.maps
      · subst hlast
        exact Or.inl ⟨e, List.mem_append_right _ List.mem_cons_self, heq⟩
      · have hlt : k < s.maps := by
          show k < s.maps
          have hk' : k < s.maps + 1 := hk
          omega
        rcases h.all hmap k hlt with ⟨e', he', hk'⟩ | hmem
        · exact Or.inl ⟨e', List.mem_append_left _ he', hk'⟩
        · exact Or.inr hmem
    · obtain ⟨⟨k, hk, rfl⟩, hgone⟩ := h.gone hmap q hq
      refine ⟨⟨k, Nat.lt_succ_of_lt hk, rfl⟩, fun e' he' hsame => ?_⟩
      rcases List.mem_append.mp he' with he' | he'
      · exact hgone e' he' hsame
      · obtain rfl := List.mem_singleton.mp he'
        rw [heq] at hsame
        simp only [Ptr.mk.injEq, Block.mapped.injEq, true_and, and_true] at hsame
        omega

/-- Where the pointers differ, an erased one is gone. -/
theorem ptr_ne_of_mem_eraseP : ∀ {es : List HostAllocation}, (es.map (·.ptr)).Nodup →
    ∀ e ∈ es.eraseP (·.ptr == p), e.ptr ≠ p
  | [], _, e, he => by cases he
  | x :: es, hnodup, e, he => by
    rw [List.map_cons, List.nodup_cons] at hnodup
    rw [List.eraseP_cons] at he
    by_cases hx : x.ptr = p
    · rw [hx, beq_self_eq_true] at he
      rintro rfl
      exact hnodup.1 (hx ▸ List.mem_map_of_mem he)
    · have hfalse : (x.ptr == p) = false := beq_eq_false_iff_ne.mpr hx
      rw [hfalse] at he
      rcases List.mem_cons.mp he with rfl | he
      · exact hx
      · exact ptr_ne_of_mem_eraseP hnodup.2 e he

theorem Placed.erase (h : Placed b s unmapped) {e : HostAllocation}
    (hfind : s.buffer.hostAllocations.find? (·.ptr == p) = some e) :
    Placed b (eraseMapping s p) (unmapped ++ [p]) := by
  have he : e ∈ s.buffer.hostAllocations := List.mem_of_find?_eq_some hfind
  have hep : e.ptr = p := by
    have hbeq := List.find?_some hfind
    simpa using hbeq
  have hsub : ∀ e' ∈ s.buffer.hostAllocations.eraseP (·.ptr == p),
      e' ∈ s.buffer.hostAllocations := fun e' he' => List.mem_of_mem_eraseP he'
  have hfreed : ∀ blk, s.buffer.mapToPtr = some blk → (eraseMapping s p).freed blk =
      s.freed blk + 1 := by
    intro blk hblk
    have hp : p = ⟨blk, 0⟩ := hep ▸ h.lent blk hblk e he
    show (if s.buffer.mapToPtr.isSome then update s.freed p.block (s.freed p.block + 1)
      else s.freed) blk = _
    rw [hblk, hp]
    exact update_self ..
  refine ⟨h.user, h.active, fun blk hblk e' he' => h.lent blk hblk e' (hsub e' he'),
    fun hn e' he' => h.staged hn e' (hsub e' he'),
    fun hn => (h.distinct hn).sublist (List.eraseP_sublist.map _), fun blk hblk => ?_,
    fun hn blk => ?_, fun hn k hk => ?_, fun hn q hq => ?_⟩
  · rw [hfreed blk hblk, h.freedUser blk hblk, List.length_append, List.length_singleton]
  · have hnone : s.buffer.mapToPtr = none := hn
    show (if s.buffer.mapToPtr.isSome then _ else s.freed) blk = 0
    rw [hnone]
    exact h.freedStaging hnone blk
  · rcases h.all hn k hk with ⟨e', he', hk'⟩ | hmem
    · by_cases hsame : e'.ptr = p
      · refine Or.inr (List.mem_append_right _ ?_)
        rw [← hsame, hk']
        exact List.mem_cons_self
      · refine Or.inl ⟨e', ?_, hk'⟩
        exact (List.mem_eraseP_of_neg (by simpa using hsame)).mpr he'
    · exact Or.inr (List.mem_append_left _ hmem)
  · rcases List.mem_append.mp hq with hq | hq
    · obtain ⟨hk, hgone⟩ := h.gone hn q hq
      exact ⟨hk, fun e' he' => hgone e' (hsub e' he')⟩
    · obtain rfl := List.mem_singleton.mp hq
      refine ⟨?_, ptr_ne_of_mem_eraseP (h.distinct hn)⟩
      obtain ⟨k, hk, hk'⟩ := h.staged hn e he
      exact ⟨k, hk, hep ▸ hk'⟩

/-- **One call keeps the places.** -/
theorem Placed.step (h : Placed b s unmapped) (op : MapCall) :
    Placed b (s.step c b op).1 (unmapped ++ unmappedBy op (s.step c b op).2) := by
  cases op with
  | map flags offset size allocates copies =>
    have hnil : ∀ answer, unmappedBy (.map flags offset size allocates copies) answer = [] :=
      fun _ => rfl
    rw [hnil, List.append_nil]
    show Placed b (mapHostPtr b s flags offset size allocates copies).1 unmapped
    rcases mapHostPtr_state b s flags offset size allocates copies with
      ⟨heq, -⟩ | ⟨ptr, maps, hptr, heq⟩
    · rw [heq]
      exact h
    · obtain ⟨mem, hstate⟩ :=
        pushMapping_state { s with maps := maps } ptr flags offset size copies
      rw [heq, hstate]
      exact (h.push ⟨ptr, size, offset, flags⟩ rfl hptr).mem_irrelevant mem
  | unmap p allocates copies =>
    show Placed b (unmapHostPtr c b s p allocates copies).1
      (unmapped ++ unmappedBy _ (unmapHostPtr c b s p allocates copies).2)
    obtain ⟨buffer, mem, hbuffer, hout⟩ := unmapHostPtr_state c b s p allocates copies
    have hplaced : Placed b { s with buffer := buffer } unmapped := by
      rcases hbuffer with rfl | ⟨-, rfl⟩
      · exact h
      · exact h.allocate c.firstDevice
    have hentries : buffer.hostAllocations = s.buffer.hostAllocations := by
      rcases hbuffer with rfl | ⟨-, rfl⟩
      · rfl
      · rfl
    rcases hout with heq | ⟨⟨e, he⟩, heq⟩
    · rw [heq]
      show Placed b _ (unmapped ++ [])
      rw [List.append_nil]
      exact hplaced
    · have hfind : buffer.hostAllocations.find? (·.ptr == p) = some e := by
        rw [hentries]
        exact he
      rw [heq]
      exact (hplaced.mem_irrelevant mem).erase hfind
  | hostWrite p i byte =>
    show Placed b (hostWrite s p i byte) (unmapped ++ [])
    rw [List.append_nil]
    unfold hostWrite
    split
    next => exact h.mem_irrelevant _
    next => exact h

/-- **A run keeps the places.** -/
theorem MapRun.placed : ∀ (ops : List MapCall) {r : MapRun}, Placed b r.state r.unmapped →
    Placed b (r.run c b ops).state (r.run c b ops).unmapped
  | [], _, h => h
  | op :: ops, _, h => MapRun.placed ops (h.step op)

/-! ## What is seen through the mappings -/

theorem deviceByte_eq (s : MapState) (i : Nat) :
    deviceByte s i = s.buffer.home.bind fun blk => s.mem blk i := by
  unfold deviceByte
  rw [getActiveDeviceAlloc_eq]
  cases s.buffer.home with
  | none => rfl
  | some blk => rfl

/-- The buffer's block holds no mapping. -/
theorem Placed.home_ne (h : Placed b s unmapped) {blk : Block} (hhome : s.buffer.home = some blk)
    {e : HostAllocation} (he : e ∈ s.buffer.hostAllocations) : blk ≠ e.ptr.block := by
  obtain ⟨d, hd, hblk⟩ := Option.bind_eq_some_iff.mp hhome
  obtain ⟨blk', hblk', huser, hstaged⟩ := h.active d hd
  obtain rfl := Option.some.inj (hblk.symm.trans hblk')
  cases hptr : s.buffer.mapToPtr with
  | some u =>
    rw [h.lent u hptr e he]
    rintro rfl
    exact huser hptr
  | none =>
    obtain ⟨k, -, hk⟩ := h.staged hptr e he
    rw [hk]
    exact hstaged k

/-- Two mappings with memory of their own are apart. -/
theorem Placed.ptr_offset (h : Placed b s unmapped) {e : HostAllocation}
    (he : e ∈ s.buffer.hostAllocations) : e.ptr.offset = 0 := by
  cases hptr : s.buffer.mapToPtr with
  | some u => rw [h.lent u hptr e he]
  | none =>
    obtain ⟨k, -, hk⟩ := h.staged hptr e he
    rw [hk]

theorem Agrees.mem_entries (h : Agrees s t) {m : LiveMap} (hm : m ∈ t.live) :
    m.entry ∈ s.buffer.hostAllocations := by
  rw [h.live]
  exact List.mem_map_of_mem hm

/-- Mappings at different pointers are in different blocks. -/
theorem Placed.block_ne (h : Placed b s unmapped) {e e' : HostAllocation}
    (he : e ∈ s.buffer.hostAllocations) (he' : e' ∈ s.buffer.hostAllocations)
    (hne : e.ptr ≠ e'.ptr) : e.ptr.block ≠ e'.ptr.block := by
  intro hblock
  have hoff := (h.ptr_offset he).trans (h.ptr_offset he').symm
  cases hp : e.ptr with
  | mk blk off =>
    cases hp' : e'.ptr with
    | mk blk' off' =>
      rw [hp, hp'] at hblock hoff hne
      exact hne (by rw [show blk = blk' from hblock, show off = off' from hoff])

/-- The memory of a map that meets the condition: the bytes are there, and the other blocks
are as they were. -/
theorem pushMapping_spec (h : Agrees s t) (ptr : Ptr)
    (hread : flags.read = true ∨ ∀ i < size, t.contents (offset + i) = none)
    (hcopies : flags.read = true → s.buffer.activeAllocationDevice.isSome = true → copies = true) :
    ∃ mem, pushMapping s ptr flags offset size copies =
        ({ s with
          mem := mem
          buffer := { s.buffer with
            hostAllocations := s.buffer.hostAllocations ++ [⟨ptr, size, offset, flags⟩] } },
          .mapped ptr) ∧
      (∀ blk, blk ≠ ptr.block → ∀ i, mem blk i = s.mem blk i) ∧
      ∀ i v, i < size → t.contents (offset + i) = some v → mem.byteAt ptr i = some v := by
  unfold pushMapping
  rw [getActiveDeviceAlloc_eq]
  cases hhome : s.buffer.home with
  | none =>
    refine ⟨s.mem, rfl, fun _ _ _ => rfl, fun i v _ hv => ?_⟩
    have hbyte := h.contents _ v hv
    rw [deviceByte_eq, hhome] at hbyte
    cases hbyte
  | some blk =>
    cases hr : flags.read with
    | false =>
      refine ⟨s.mem, rfl, fun _ _ _ => rfl, fun i v hi hv => ?_⟩
      rw [hr] at hread
      rcases hread with hread | hnone
      · cases hread
      · rw [hnone i hi] at hv
        cases hv
    | true =>
      have hactive : s.buffer.activeAllocationDevice.isSome = true := by
        obtain ⟨d, hd, -⟩ := Option.bind_eq_some_iff.mp hhome
        rw [hd]
        rfl
      rw [hcopies hr hactive]
      refine ⟨s.mem.copy ptr ⟨blk, offset⟩ size, rfl, fun blk' hne i => ?_, fun i v hi hv => ?_⟩
      · exact Memory.store_ne _ _ _ _ hne i
      · have hbyte := h.contents _ v hv
        rw [deviceByte_eq, hhome] at hbyte
        show s.mem.copy ptr ⟨blk, offset⟩ size ptr.block (ptr.offset + i) = some v
        rw [Memory.copy_in _ _ _ hi]
        exact hbyte

/-- **A map that meets the condition.** -/
theorem Agrees.map (h : Agrees s t) (hp : Placed b s unmapped)
    (hm : (MapCall.map flags offset size allocates copies).Meets s t) :
    Agrees (s.step c b (.map flags offset size allocates copies)).1
      (t.step (.map flags offset size allocates copies)
        (s.step c b (.map flags offset size allocates copies)).2) := by
  obtain ⟨hread, hcopies, hlent⟩ := hm
  show Agrees (mapHostPtr b s flags offset size allocates copies).1
    (t.step _ (mapHostPtr b s flags offset size allocates copies).2)
  rcases mapHostPtr_state b s flags offset size allocates copies with
    ⟨heq, -⟩ | ⟨ptr, maps, hptr, heq⟩
  · rw [heq]
    exact h
  · have hpush := hp.push ⟨ptr, size, offset, flags⟩ rfl hptr
    have hagrees : Agrees { s with maps := maps } t := ⟨h.contents, h.live, h.view⟩
    have hplaced : ∀ blk, s.buffer.home = some blk → blk ≠ ptr.block := fun blk hblk =>
      hpush.home_ne hblk (List.mem_append_right _ List.mem_cons_self)
    obtain ⟨mem, hout, hother, hbytes⟩ :=
      @pushMapping_spec _ _ flags offset size copies hagrees ptr hread hcopies
    rw [heq, hout]
    refine ⟨fun i v hv => ?_, ?_, fun m hm i v hi hv => ?_⟩
    · have hbyte := h.contents i v hv
      rw [deviceByte_eq] at hbyte ⊢
      obtain ⟨blk, hblk, hbyte⟩ := Option.bind_eq_some_iff.mp hbyte
      have hhome : ({ s.buffer with
        hostAllocations := s.buffer.hostAllocations ++ [⟨ptr, size, offset, flags⟩] } :
          DiscreteBuffer).home = some blk := hblk
      show ({ s.buffer with
        hostAllocations := s.buffer.hostAllocations ++ [⟨ptr, size, offset, flags⟩] } :
          DiscreteBuffer).home.bind (fun blk => mem blk i) = some v
      rw [hhome]
      show mem blk i = some v
      rw [hother blk (hplaced blk hblk)]
      exact hbyte
    · show s.buffer.hostAllocations ++ [_] = (t.live ++ [_]).map LiveMap.entry
      rw [List.map_append, ← h.live]
      rfl
    · have hm' : m ∈ t.live ++ [⟨⟨ptr, size, offset, flags⟩, fun i => t.contents (offset + i)⟩] :=
        hm
      rcases List.mem_append.mp hm' with hold | hnew
      · have hne : m.ptr.block ≠ ptr.block := by
          rcases hptr with ⟨hmap, -, -⟩ | ⟨hmap, hmapped, -⟩
          · rw [hlent (by rw [hmap]; rfl)] at hold
            cases hold
          · obtain ⟨k, hk, hk'⟩ := hp.staged hmap m.entry (h.mem_entries hold)
            have hmptr : m.ptr = ⟨.mapped b k, 0⟩ := hk'
            rw [hmptr, hmapped]
            intro hblock
            simp only [Block.mapped.injEq, true_and] at hblock
            omega
        show mem m.ptr.block (m.ptr.offset + i) = some v
        rw [hother _ hne]
        exact h.view m hold i v hi hv
      · obtain rfl := List.mem_singleton.mp hnew
        exact hbytes i v hi hv

/-- **The host writes through a mapping.** -/
theorem Agrees.hostWrite (h : Agrees s t) (hp : Placed b s unmapped) (i byte : Nat) :
    Agrees (Maps.hostWrite s p i byte) (t.step (.hostWrite p i byte) .done) := by
  have hentry : ∀ m : LiveMap, (m.wrote p i byte).entry = m.entry := by
    intro m
    unfold LiveMap.wrote
    split
    next => rfl
    next => rfl
  have hlive : s.buffer.hostAllocations =
      (t.live.map (LiveMap.wrote p i byte)).map LiveMap.entry := by
    rw [List.map_map, h.live]
    exact List.map_congr_left fun m _ => (hentry m).symm
  unfold Maps.hostWrite
  split
  next hany =>
    obtain ⟨e, he, hep⟩ := List.any_eq_true.mp hany
    simp only [Bool.and_eq_true, beq_iff_eq, decide_eq_true_eq] at hep
    obtain ⟨rfl, -⟩ := hep
    refine ⟨fun j v hv => ?_, hlive, fun m' hm' j v hj hv => ?_⟩
    · have hbyte := h.contents j v hv
      rw [deviceByte_eq] at hbyte ⊢
      obtain ⟨blk, hblk, hbyte⟩ := Option.bind_eq_some_iff.mp hbyte
      have hstored : s.mem.store (e.ptr.add i) 1 (fun _ => some byte) blk j = some v := by
        rw [Memory.store_ne s.mem (e.ptr.add i) 1 _ (hp.home_ne hblk he)]
        exact hbyte
      show s.buffer.home.bind (fun blk => s.mem.store (e.ptr.add i) 1 (fun _ => some byte) blk j)
        = some v
      rw [hblk]
      exact hstored
    · have hmem : m' ∈ t.live.map (LiveMap.wrote e.ptr i byte) := hm'
      obtain ⟨m, hm, rfl⟩ := List.mem_map.mp hmem
      have hview := h.view m hm j
      rw [hentry] at hj
      have hptr : (m.wrote e.ptr i byte).ptr = m.ptr := congrArg HostAllocation.ptr (hentry m)
      rw [hptr]
      show s.mem.store (e.ptr.add i) 1 (fun _ => some byte) m.ptr.block (m.ptr.offset + j) = some v
      -- two mappings share their pointer or have blocks of their own
      by_cases hsame : m.ptr = e.ptr
      · rw [hsame] at hview ⊢
        by_cases hij : j = i
        · subst hij
          unfold LiveMap.wrote at hv
          rw [if_pos ⟨hsame, hj⟩] at hv
          have hupdate : update m.view j (some byte) j = some byte :=
            update_self ..
          have hbyte : some byte = some v := hupdate.symm.trans hv
          rw [← hbyte]
          exact Memory.store_in s.mem (e.ptr.add j) (fun _ => some byte) Nat.one_pos
        · have hold : m.view j = some v := by
            unfold LiveMap.wrote at hv
            split at hv
            next =>
              have hupdate : update m.view i (some byte) j = m.view j :=
                update_of_ne hij _ _
              exact hupdate.symm.trans hv
            next => exact hv
          have hout : ¬ ((e.ptr.add i).offset ≤ e.ptr.offset + j ∧
              e.ptr.offset + j < (e.ptr.add i).offset + 1) := by
            show ¬ (e.ptr.offset + i ≤ e.ptr.offset + j ∧ e.ptr.offset + j < e.ptr.offset + i + 1)
            omega
          rw [Memory.store_out s.mem _ _ hout]
          exact hview v hj hold
      · have hold : m.view j = some v := by
          unfold LiveMap.wrote at hv
          rw [if_neg fun hc => hsame hc.1] at hv
          exact hv
        have hne : m.ptr.block ≠ (e.ptr.add i).block :=
          hp.block_ne (h.mem_entries hm) he hsame
        rw [Memory.store_ne s.mem _ _ _ hne]
        exact hview v hj hold
  next hany =>
    have hsame : ∀ m ∈ t.live, m.wrote p i byte = m := by
      intro m hm
      unfold LiveMap.wrote
      rw [if_neg]
      rintro ⟨hptr, hi⟩
      refine hany (List.any_eq_true.mpr ⟨m.entry, h.mem_entries hm, ?_⟩)
      simp only [Bool.and_eq_true, beq_iff_eq, decide_eq_true_eq]
      exact ⟨hptr, hi⟩
    have heq : t.live.map (LiveMap.wrote p i byte) = t.live := by
      rw [List.map_congr_left hsame, List.map_id']
    show Agrees s { t with live := t.live.map (LiveMap.wrote p i byte) }
    rw [heq]
    exact h

/-- A buffer without an allocation gets one. -/
theorem Agrees.allocate (h : Agrees s t) (hhome : s.buffer.home = none) (d : Nat) :
    Agrees { s with buffer := s.buffer.allocateOnDevice b d } t where
  contents := by
    intro i v hv
    have hbyte := h.contents i v hv
    rw [deviceByte_eq, hhome] at hbyte
    cases hbyte
  live := h.live
  view := h.view

theorem Agrees.find (h : Agrees s t) (p : Ptr) :
    s.buffer.hostAllocations.find? (·.ptr == p) =
      (t.live.find? (·.ptr == p)).map LiveMap.entry := by
  rw [h.live, List.find?_map]
  rfl

theorem Agrees.erased (h : Agrees s t) (p : Ptr) :
    s.buffer.hostAllocations.eraseP (·.ptr == p) =
      (t.live.eraseP (·.ptr == p)).map LiveMap.entry := by
  rw [h.live, List.eraseP_map]
  rfl

/-- What the mapping has is copied to its region of the buffer. -/
theorem Agrees.writeBack {m : LiveMap} (h : Agrees s t) (hp : Placed b s unmapped)
    (hfind : t.live.find? (·.ptr == p) = some m)
    (hread : copies = true → m.readOnly = true → ∀ i v, i < m.entry.size →
      t.contents (m.entry.offset + i) = some v → m.view i = some v)
    (hnone : s.buffer.home = none → ∀ i < m.entry.size, m.view i = none) :
    Agrees (Maps.writeBack s p m.entry copies).1
      (t.step (.unmap p allocates copies) (Maps.writeBack s p m.entry copies).2) := by
  have hm : m ∈ t.live := List.mem_of_find?_eq_some hfind
  have hstep : t.step (.unmap p allocates copies) .done =
      ⟨m.writtenBack t.contents, t.live.eraseP (·.ptr == p)⟩ := by
    simp [Protocol.step, hfind]
  unfold Maps.writeBack
  rw [getActiveDeviceAlloc_eq]
  cases hhome : s.buffer.home with
  | none =>
    show Agrees (eraseMapping s p) (t.step _ .done)
    rw [hstep]
    refine ⟨fun i v hv => ?_, h.erased p, fun m' hm' => h.view m' (List.mem_of_mem_eraseP hm')⟩
    -- neither the buffer nor the mapping has a byte
    exfalso
    have hback : m.writtenBack t.contents i = some v := hv
    unfold LiveMap.writtenBack at hback
    split at hback
    next hin =>
      rw [hnone hhome (i - m.entry.offset) (by omega)] at hback
      cases hback
    next =>
      have hbyte := h.contents i v hback
      rw [deviceByte_eq, hhome] at hbyte
      cases hbyte
  | some blk =>
    cases copies with
    | false => exact h
    | true =>
      show Agrees (eraseMapping
        { s with mem := s.mem.copy ⟨blk, m.entry.offset⟩ m.entry.ptr m.entry.size } p)
        (t.step _ .done)
      rw [hstep]
      refine ⟨fun i v hv => ?_, h.erased p, fun m' hm' i v hi hv => ?_⟩
      · have hback : m.writtenBack t.contents i = some v := hv
        unfold LiveMap.writtenBack at hback
        have hhome' : (eraseMapping
            { s with mem := s.mem.copy ⟨blk, m.entry.offset⟩ m.entry.ptr m.entry.size }
            p).buffer.home = some blk := hhome
        rw [deviceByte_eq, hhome']
        show s.mem.copy ⟨blk, m.entry.offset⟩ m.entry.ptr m.entry.size blk i = some v
        by_cases hin : m.entry.offset ≤ i ∧ i < m.entry.offset + m.entry.size
        · obtain ⟨k, rfl⟩ := Nat.exists_eq_add_of_le hin.1
          have hk : k < m.entry.size := by omega
          have hview : m.view k = some v := by
            split at hback
            next =>
              rw [Nat.add_sub_cancel_left] at hback
              exact hback
            next hro =>
              refine hread rfl ?_ k v hk hback
              cases hm : m.readOnly with
              | true => rfl
              | false => exact absurd ⟨hm, hin⟩ hro
          rw [Memory.copy_in s.mem ⟨blk, m.entry.offset⟩ _ hk]
          exact h.view m hm k v hk hview
        · rw [if_neg fun hc => hin hc.2] at hback
          have hbyte := h.contents i v hback
          rw [deviceByte_eq, hhome] at hbyte
          unfold Memory.copy
          rw [Memory.store_out s.mem ⟨blk, m.entry.offset⟩ _ hin]
          exact hbyte
      · have hlive : m' ∈ t.live := List.mem_of_mem_eraseP hm'
        have hne : m'.ptr.block ≠ blk :=
          Ne.symm (hp.home_ne hhome (h.mem_entries hlive))
        show s.mem.copy ⟨blk, m.entry.offset⟩ m.entry.ptr m.entry.size m'.ptr.block
          (m'.ptr.offset + i) = some v
        unfold Memory.copy
        rw [Memory.store_ne s.mem ⟨blk, m.entry.offset⟩ _ _ hne]
        exact h.view m' hlive i v hi hv

/-- The buffer has a block exactly if a device is active. -/
theorem Placed.home_none (h : Placed b s unmapped) (hhome : s.buffer.home = none) :
    s.buffer.activeAllocationDevice = none := by
  cases hactive : s.buffer.activeAllocationDevice with
  | none => rfl
  | some d =>
    obtain ⟨blk, hblk, -⟩ := h.active d hactive
    unfold DiscreteBuffer.home at hhome
    rw [hactive] at hhome
    exact absurd (hblk.symm.trans hhome) (by simp)

/-- **An unmap that meets the condition.** -/
theorem Agrees.unmap (h : Agrees s t) (hp : Placed b s unmapped)
    (hm : (MapCall.unmap p allocates copies).Meets s t) :
    Agrees (s.step c b (.unmap p allocates copies)).1
      (t.step (.unmap p allocates copies) (s.step c b (.unmap p allocates copies)).2) := by
  show Agrees (unmapHostPtr c b s p allocates copies).1
    (t.step _ (unmapHostPtr c b s p allocates copies).2)
  cases hfind : t.live.find? (·.ptr == p) with
  | none =>
    have hthrown : unmapHostPtr c b s p allocates copies = (s, .thrown) := by
      unfold unmapHostPtr
      rw [h.find p, hfind]
      rfl
    rw [hthrown]
    exact h
  | some m =>
    obtain ⟨hread, hdiscard⟩ := hm m hfind
    have hfound : unmapHostPtr c b s p allocates copies =
        if needsAlloc s.buffer m.entry then
          if allocates then
            Maps.writeBack { s with buffer := s.buffer.allocateOnDevice b c.firstDevice } p
              m.entry copies
          else (s, .thrown)
        else Maps.writeBack s p m.entry copies := by
      unfold unmapHostPtr
      rw [h.find p, hfind]
      rfl
    rw [hfound]
    cases hneeds : needsAlloc s.buffer m.entry with
    | true =>
      have hinactive : s.buffer.activeAllocationDevice = none := by
        unfold needsAlloc at hneeds
        rw [Bool.and_eq_true, Option.isNone_iff_eq_none] at hneeds
        exact hneeds.1
      have hhome : s.buffer.home = none := by
        unfold DiscreteBuffer.home
        rw [hinactive]
        rfl
      cases allocates with
      | false =>
        exact h
      | true =>
        refine (h.allocate hhome c.firstDevice).writeBack (hp.allocate c.firstDevice) hfind hread ?_
        intro hnone
        have hnone' : (s.buffer.allocateOnDevice b c.firstDevice).home = none := hnone
        rw [allocateOnDevice_home] at hnone'
        cases hnone'
    | false =>
      refine h.writeBack hp hfind hread fun hhome => ?_
      have hinactive := hp.home_none hhome
      refine hdiscard ?_ hinactive
      unfold needsAlloc at hneeds
      rw [hinactive] at hneeds
      simpa using hneeds

/-- **One call that meets the condition.** -/
theorem Agrees.step (h : Agrees s t) (hp : Placed b s unmapped) (op : MapCall)
    (hm : op.Meets s t) :
    Agrees (s.step c b op).1 (t.step op (s.step c b op).2) := by
  cases op with
  | map flags offset size allocates copies => exact h.map hp hm
  | unmap p allocates copies => exact h.unmap hp hm
  | hostWrite p i byte => exact h.hostWrite hp i byte

/-- **A run of calls that meet the condition.** -/
theorem MapRun.agrees : ∀ (ops : List MapCall) {r : MapRun}, Agrees r.state r.protocol →
    Placed b r.state r.unmapped → AllMeet c b r ops →
    Agrees (r.run c b ops).state (r.run c b ops).protocol
  | [], _, h, _, _ => h
  | op :: ops, _, h, hp, hm => MapRun.agrees ops (h.step hp op hm.1) (hp.step op) hm.2

/-! ## Whole runs -/

theorem Start.agrees (h : Start b s) : Agrees s (MapRun.start s).protocol where
  contents := fun _ _ hv => hv
  live := h.unmapped
  view := by
    intro m hm
    cases hm

/-- **Maps of a discrete buffer.** In every state of every run an unmap that fails leaves the
mappings; memory is freed by its owner exactly until an unmap succeeds; and if every call meets
the condition, each mapping shows and changes its own bytes. -/
theorem discrete_maps (c : MemContext) (h : Start b s) (ops : List MapCall) :
    (∀ p allocates copies,
      (unmapHostPtr c b ((MapRun.start s).run c b ops).state p allocates copies).2 = .thrown →
      (unmapHostPtr c b ((MapRun.start s).run c b ops).state p allocates
          copies).1.buffer.hostAllocations =
        ((MapRun.start s).run c b ops).state.buffer.hostAllocations) ∧
    (OwnershipRight b ((MapRun.start s).run c b ops).state ↔
      ((MapRun.start s).run c b ops).unmapped = []) ∧
    (AllMeet c b (MapRun.start s) ops →
      Agrees ((MapRun.start s).run c b ops).state ((MapRun.start s).run c b ops).protocol) := by
  have hplaced : Placed b (MapRun.start s).state (MapRun.start s).unmapped := h.placed
  refine ⟨fun p allocates copies hthrown => unmapHostPtr_thrown hthrown, ?_, fun hmeet => ?_⟩
  · exact (MapRun.placed ops hplaced).ownership
  · exact MapRun.agrees ops h.agrees hplaced hmeet

/-- A buffer of four bytes on a device, made with the application's pointer or without. -/
def fourBytes (mapToPtr : Option Block) : MapState where
  mem := fun blk i => if blk = .device 0 0 ∧ i < 4 then some i else none
  buffer :=
    { size := 4
      deviceAllocations := fun d => if d = 0 then some (.device 0 0) else none
      activeAllocationDevice := some 0
      mapToPtr := mapToPtr
      hostAllocations := [] }
  maps := 0
  freed := fun _ => 0

def oneDevice : MemContext := ⟨0, fun _ _ => false⟩

theorem fourBytes_start {mapToPtr : Option Block} (h : ∀ blk, mapToPtr = some blk → blk = .user 0) :
    Start 0 (fourBytes mapToPtr) where
  unmapped := rfl
  fresh := rfl
  unfreed := fun _ => rfl
  user := by
    intro blk hblk
    obtain rfl := h blk hblk
    exact ⟨nofun, nofun⟩
  active := by
    intro d hd
    obtain rfl := Option.some.inj hd
    refine ⟨.device 0 0, rfl, fun hblk => ?_, nofun⟩
    cases h _ hblk

/-- Two bytes are mapped, the first is written, and they are unmapped. -/
def mapWriteUnmap (flags : MapFlags) : List MapCall :=
  [.map flags 1 2 true true, .hostWrite ⟨.mapped 0 0, 0⟩ 0 9, .unmap ⟨.mapped 0 0, 0⟩ true true]

theorem discrete_maps_written :
    AllMeet oneDevice 0 (MapRun.start (fourBytes none)) (mapWriteUnmap ⟨true, true, false⟩) ∧
    deviceByte ((MapRun.start (fourBytes none)).run oneDevice 0
      (mapWriteUnmap ⟨true, true, false⟩)).state 1 = some 9 := by
  have hmeet : AllMeet oneDevice 0 (MapRun.start (fourBytes none))
      (mapWriteUnmap ⟨true, true, false⟩) := by
    refine ⟨⟨Or.inl rfl, fun _ _ => rfl, fun h => absurd h Bool.false_ne_true⟩, trivial, ?_,
      trivial⟩
    intro m hm
    obtain rfl := Option.some.inj hm
    exact ⟨fun _ h => absurd h Bool.false_ne_true, fun h => absurd h Bool.false_ne_true⟩
  refine ⟨hmeet, ?_⟩
  exact ((discrete_maps oneDevice (@fourBytes_start none nofun) _).2.2 hmeet).contents 1 9 rfl

/-- Memory from the pool is not given back and the application's is; a map that is not for
reading shows other bytes; and of two maps at the application's pointer the second one's bytes
are what both show. -/
theorem discrete_maps_unkept :
    Start 0 (fourBytes none) ∧ Start 0 (fourBytes (some (.user 0))) ∧
    ¬ OwnershipRight 0 ((MapRun.start (fourBytes none)).run oneDevice 0
      (mapWriteUnmap ⟨true, true, false⟩)).state ∧
    ¬ OwnershipRight 0 ((MapRun.start (fourBytes (some (.user 0)))).run oneDevice 0
      [.map ⟨true, true, false⟩ 0 4 true true, .unmap ⟨.user 0, 0⟩ true true]).state ∧
    ¬ Agrees ((MapRun.start (fourBytes none)).run oneDevice 0
        [.map ⟨false, true, false⟩ 1 2 true true]).state
      ((MapRun.start (fourBytes none)).run oneDevice 0
        [.map ⟨false, true, false⟩ 1 2 true true]).protocol ∧
    ¬ Agrees ((MapRun.start (fourBytes (some (.user 0)))).run oneDevice 0
        [.map ⟨true, false, false⟩ 0 2 true true, .map ⟨true, false, false⟩ 2 2 true true]).state
      ((MapRun.start (fourBytes (some (.user 0)))).run oneDevice 0
        [.map ⟨true, false, false⟩ 0 2 true true,
          .map ⟨true, false, false⟩ 2 2 true true]).protocol := by
  refine ⟨@fourBytes_start none nofun, fourBytes_start fun _ h => (Option.some.inj h).symm,
    fun h => ?_, fun h => ?_, fun h => ?_, fun h => ?_⟩
  · have hfreed := h.staging rfl 0 Nat.one_pos
    cases hfreed
  · have hfreed := h.user (.user 0) rfl
    cases hfreed
  · have hbyte := h.view _ List.mem_cons_self 0 1 Nat.two_pos rfl
    cases hbyte
  · have hbyte := h.view _ List.mem_cons_self 0 0 Nat.two_pos rfl
    cases hbyte

end UnifiedRuntime.LevelZeroV2.Maps
