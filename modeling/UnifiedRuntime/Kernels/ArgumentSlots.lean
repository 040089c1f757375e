import UnifiedRuntime.Kernels.Arguments

/-!
# The places of kernel arguments

What the functions on arguments do while each argument has a place of its own in the storage and the
sizes with padding add up to the layout of the sizes without.

- `addArg_spec`: an argument is put into its place, and no other is changed.
- `updateLocalArgOffset_spec`: local arguments get their offsets.
-/

namespace UnifiedRuntime.Kernels

open Function (update update_of_ne update_self)
open PatternFill (byteOf)

variable {a a' : Arguments} {i index size n : Nat} {arg value : List UInt8} {asserts : Bool}

theorem alignment_pos (h : size ≠ 0) : 0 < alignment size := by
  unfold alignment
  omega

/-! ## Places -/

namespace Arguments

/-- **Each argument has a place of its own**, in front of `InsertPos`. -/
structure Slots (a : Arguments) : Prop where
  insert : a.insertPos ≤ maxParamBytes
  slot : ∀ i, a.paramSizes i ≠ 0 →
    ∃ pos, a.argPointers i = .storage pos ∧ pos + a.paramSizes i ≤ a.insertPos
  disjoint : ∀ i j p q, i ≠ j → a.paramSizes i ≠ 0 → a.paramSizes j ≠ 0 →
    a.argPointers i = .storage p → a.argPointers j = .storage q →
      p + a.paramSizes i ≤ q ∨ q + a.paramSizes j ≤ p

theorem Slots.congr (h : a.Slots) (hsizes : a'.paramSizes = a.paramSizes)
    (hpointers : a'.argPointers = a.argPointers) (hpos : a'.insertPos = a.insertPos) :
    a'.Slots := by
  obtain ⟨hinsert, hslot, hdisjoint⟩ := h
  constructor
  · rw [hpos]
    exact hinsert
  · rw [hsizes, hpointers, hpos]
    exact hslot
  · rw [hsizes, hpointers]
    exact hdisjoint

/-- What an argument holds is its own where its place is. -/
theorem Holds.congr (h : a.Holds i value) (hpointers : a'.argPointers i = a.argPointers i)
    (hstorage : ∀ pos, a.argPointers i = .storage pos → ∀ k < value.length,
      a'.storage (pos + k) = a.storage (pos + k)) : a'.Holds i value := by
  obtain ⟨pos, hpos, hroom, hbytes⟩ := h
  exact ⟨pos, hpointers.trans hpos, hroom, fun k hk => (hstorage pos hpos k hk).trans (hbytes k hk)⟩

/-- The storage after bytes are copied to a place. -/
def write (storage : Nat → UInt8) (pos : Nat) (arg : List UInt8) : Nat → UInt8 := fun p =>
  if pos ≤ p ∧ p < pos + arg.length then arg.getD (p - pos) 0 else storage p

theorem write_in {storage : Nat → UInt8} {pos k : Nat} (hk : k < arg.length) :
    write storage pos arg (pos + k) = arg.getD k 0 := by
  unfold write
  rw [if_pos (by omega), Nat.add_sub_cancel_left]

theorem write_out {storage : Nat → UInt8} {pos p : Nat} (hp : p < pos ∨ pos + arg.length ≤ p) :
    write storage pos arg p = storage p := by
  unfold write
  rw [if_neg (by omega)]

/-- **Bytes are copied into a place**, and no other argument is changed. -/
theorem memcpy_spec (h : a.Slots) (hi : a.paramSizes i ≠ 0) (hle : arg.length ≤ a.paramSizes i) :
    ∃ storage, a.memcpy (a.argPointers i) arg = .ok { a with storage := storage } ∧
      ({ a with storage := storage } : Arguments).Holds i arg ∧
      ∀ j ≠ i, ∀ value : List UInt8, value.length ≤ a.paramSizes j → a.Holds j value →
        ({ a with storage := storage } : Arguments).Holds j value := by
  obtain ⟨pos, hpos, hend⟩ := h.slot i hi
  have hinsert := h.insert
  refine ⟨write a.storage pos arg, ?_, ⟨pos, hpos, by omega, fun k hk => write_in hk⟩,
    fun j hj value hvalue hholds => ?_⟩
  · rw [hpos]
    unfold memcpy
    dsimp only
    rw [if_pos (by omega)]
    rfl
  · refine hholds.congr rfl fun q hq k hk => ?_
    have hne : a.paramSizes j ≠ 0 := by omega
    have hapart := h.disjoint i j pos q (fun heq => hj heq.symm) hi hne hpos hq
    exact write_out (by omega)

/-! ## Arguments -/

/-- There is room for an argument: behind the others, or in the place it has. A build with
assertions wants the size to be the same. -/
def Fits (asserts : Bool) (a : Arguments) (index n : Nat) : Prop :=
  (a.paramSizes index = 0 → a.insertPos + n ≤ maxParamBytes) ∧
    (a.paramSizes index ≠ 0 →
      n ≤ a.paramSizes index ∧ (asserts = true → n = a.paramSizes index))

/-- An argument was put into its place. -/
structure Put (a a' : Arguments) (index : Nat) (arg : List UInt8) (localSize : Nat) : Prop where
  slots : a'.Slots
  holds : a'.Holds index arg
  room : arg.length ≤ a'.paramSizes index
  others : ∀ j ≠ index, a'.paramSizes j = a.paramSizes j ∧
    ∀ value : List UInt8, value.length ≤ a.paramSizes j → a.Holds j value → a'.Holds j value
  aligned : a'.alignedLocalMemSize = update a.alignedLocalMemSize index localSize
  original : a'.originalLocalMemSize = a.originalLocalMemSize
  memory : a'.workGroupMemory = a.workGroupMemory
  memObjArgs : a'.memObjArgs = a.memObjArgs
  numArgs : a'.numArgs = max a.numArgs (index + 1)

/-- **`addArg` puts an argument into its place.** -/
theorem addArg_spec (h : a.Slots) (hfits : a.Fits asserts index arg.length) (localSize : Nat) :
    ∃ a', a.addArg asserts index arg localSize = .ok a' ∧ a.Put a' index arg localSize := by
  by_cases hnew : a.paramSizes index = 0
  · have hroom := hfits.1 hnew
    unfold addArg
    rw [if_pos hnew]
    unfold memcpy
    dsimp only
    rw [if_pos hroom]
    refine ⟨_, rfl, ?_⟩
    have hother : ∀ j ≠ index, update a.paramSizes index arg.length j = a.paramSizes j :=
      fun j hj => update_of_ne hj ..
    have hpointer : ∀ j ≠ index,
        update a.argPointers index (.storage a.insertPos) j = a.argPointers j :=
      fun j hj => update_of_ne hj ..
    constructor
    · refine ⟨hroom, fun i hi => ?_, fun i j p q hij hi hj hp hq => ?_⟩
      · dsimp only at hi ⊢
        by_cases heq : i = index
        · rw [heq, update_self, update_self]
          exact ⟨a.insertPos, rfl, Nat.le_refl _⟩
        · rw [hother i heq] at hi ⊢
          rw [hpointer i heq]
          obtain ⟨pos, hpos, hend⟩ := h.slot i hi
          exact ⟨pos, hpos, by omega⟩
      · dsimp only at hi hj hp hq ⊢
        -- a new place is behind all others
        have hbehind : ∀ k r, k ≠ index → a.paramSizes k ≠ 0 → a.argPointers k = .storage r →
            r + a.paramSizes k ≤ a.insertPos := by
          intro k r _ hk hr
          obtain ⟨pos, hpos, hend⟩ := h.slot k hk
          obtain rfl := ArgPointer.storage.inj (hpos.symm.trans hr)
          exact hend
        by_cases hi' : i = index
        · rw [hi', update_self] at hp
          obtain rfl := ArgPointer.storage.inj hp
          have hj' : j ≠ index := fun heq => hij (hi'.trans heq.symm)
          rw [hother j hj'] at hj ⊢
          rw [hpointer j hj'] at hq
          exact .inr (hbehind j q hj' hj hq)
        · rw [hother i hi'] at hi ⊢
          rw [hpointer i hi'] at hp
          by_cases hj' : j = index
          · rw [hj', update_self] at hq
            obtain rfl := ArgPointer.storage.inj hq
            exact .inl (hbehind i p hi' hi hp)
          · rw [hother j hj'] at hj ⊢
            rw [hpointer j hj'] at hq
            exact h.disjoint i j p q hij hi hj hp hq
    · exact ⟨a.insertPos, update_self .., hroom, fun k hk => write_in hk⟩
    · exact Nat.le_of_eq (update_self (f := a.paramSizes) index arg.length).symm
    · refine fun j hj => ⟨hother j hj, fun value hvalue hholds => ?_⟩
      refine hholds.congr (hpointer j hj) fun pos hpos k hk => ?_
      obtain ⟨pos', hpos', hend⟩ := h.slot j (by omega)
      obtain rfl := ArgPointer.storage.inj (hpos'.symm.trans hpos)
      exact write_out (.inl (by omega))
    · rfl
    · rfl
    · rfl
    · rfl
    · rfl
  · obtain ⟨hle, hassert⟩ := hfits.2 hnew
    have hgrown : ({ a with numArgs := max a.numArgs (index + 1) } : Arguments).Slots :=
      h.congr rfl rfl rfl
    obtain ⟨storage, hcopy, hholds, hkept⟩ := memcpy_spec hgrown hnew hle
    unfold addArg
    rw [if_neg hnew, hcopy]
    dsimp only [bind, Except.bind]
    rw [if_neg]
    · refine ⟨_, rfl, hgrown.congr rfl rfl rfl, ?_, hle, fun j hj => ⟨rfl, fun value hv hh => ?_⟩,
        rfl, rfl, rfl, rfl, rfl⟩
      · exact hholds.congr rfl fun _ _ _ _ => rfl
      · exact (hkept j hj value hv (hh.congr rfl fun _ _ _ _ => rfl)).congr rfl fun _ _ _ _ => rfl
    · intro hdiff
      obtain ⟨hon, hne⟩ := Bool.and_eq_true_iff.mp hdiff
      exact bne_iff_ne.mp hne (hassert hon)

/-! ## The layout of local memory -/

/-- The sizes in front of an index add up to the layout. -/
def SumsTo (a : Arguments) (i : Nat) : Prop :=
  a.workGroupMemory + ∑ k ∈ Finset.range i, a.alignedLocalMemSize k =
    layoutEnd alignment a.workGroupMemory a.originalLocalMemSize i

/-- Where the layout has a local argument. -/
def localOffset (a : Arguments) (i : Nat) : Nat :=
  offsetAt alignment a.workGroupMemory a.originalLocalMemSize i

/-- **The size with padding and the offset** are those of the layout. -/
theorem calcAlignedLocalArgument_spec (hsize : size ≠ 0) (hsum : a.workGroupMemory +
      ∑ k ∈ Finset.range i, a.alignedLocalMemSize k =
        layoutEnd alignment a.workGroupMemory (update a.originalLocalMemSize i size) i)
    (hfits : layoutEnd alignment a.workGroupMemory
      (update a.originalLocalMemSize i size) (i + 1) < 2 ^ 64) :
    let a' := { a with originalLocalMemSize := update a.originalLocalMemSize i size }
    a.calcAlignedLocalArgument i size =
      (a', a'.localOffset i + size - layoutEnd alignment a'.workGroupMemory
        a'.originalLocalMemSize i, a'.localOffset i) := by
  have hown : update a.originalLocalMemSize i size i = size := update_self ..
  have hend : offsetAt alignment a.workGroupMemory (update a.originalLocalMemSize i size) i +
      size = layoutEnd alignment a.workGroupMemory
        (update a.originalLocalMemSize i size) (i + 1) := by
    have := @offsetAt_add alignment a.workGroupMemory
      (update a.originalLocalMemSize i size) i (by rw [hown]; exact hsize)
    rwa [hown] at this
  have hle : layoutEnd alignment a.workGroupMemory (update a.originalLocalMemSize i size) i ≤
      offsetAt alignment a.workGroupMemory (update a.originalLocalMemSize i size) i :=
    layoutEnd_le_offsetAt
  have hoffset : offsetAt alignment a.workGroupMemory
      (update a.originalLocalMemSize i size) i =
      alignUp (alignment size) (layoutEnd alignment a.workGroupMemory
        (update a.originalLocalMemSize i size) i) := by
    unfold offsetAt
    rw [hown]
  unfold calcAlignedLocalArgument localOffset
  rw [hsum]
  dsimp only
  generalize offsetAt alignment a.workGroupMemory (update a.originalLocalMemSize i size) i =
    offset at *
  generalize layoutEnd alignment a.workGroupMemory
    (update a.originalLocalMemSize i size) i = start at *
  rw [Nat.mod_eq_of_lt (show start < 2 ^ 64 by omega)]
  have hpad : (if start % alignment size ≠ 0 then
      (start + (alignment size - start % alignment size)) % 2 ^ 64 else start) = offset := by
    rw [hoffset]
    unfold alignUp at hoffset ⊢
    split
    next h =>
      rw [if_pos h] at hoffset
      exact Nat.mod_eq_of_lt (by omega)
    next => rfl
  rw [hpad]
  refine Prod.ext rfl (Prod.ext ?_ rfl)
  show (size + (offset + 2 ^ 64 - start)) % 2 ^ 64 = offset + size - start
  omega

/-- **The size with padding** goes to the sum. -/
theorem sumsTo_update {b b' : Arguments} (hne : b.originalLocalMemSize i ≠ 0)
    (hsums : ∀ k ≤ i, b.SumsTo k) (hmemory : b'.workGroupMemory = b.workGroupMemory)
    (horiginal : b'.originalLocalMemSize = b.originalLocalMemSize)
    (haligned : b'.alignedLocalMemSize = update b.alignedLocalMemSize i
      (b.localOffset i + b.originalLocalMemSize i -
        layoutEnd alignment b.workGroupMemory b.originalLocalMemSize i)) :
    ∀ k ≤ i + 1, b'.SumsTo k := by
  -- sizes in front of the argument are as before
  have hbefore : ∀ m ≤ i, ∑ x ∈ Finset.range m, b'.alignedLocalMemSize x =
      ∑ x ∈ Finset.range m, b.alignedLocalMemSize x := by
    intro m hm
    rw [haligned]
    refine Finset.sum_congr rfl fun x hx => update_of_ne ?_ ..
    have := Finset.mem_range.mp hx
    omega
  intro k hk
  unfold SumsTo
  rw [hmemory, horiginal]
  rcases Nat.lt_succ_iff_lt_or_eq.mp (Nat.lt_succ_of_le hk) with hlt | rfl
  · rw [hbefore k (Nat.le_of_lt_succ hlt)]
    exact hsums k (Nat.le_of_lt_succ hlt)
  · have hsum := hsums i (Nat.le_refl i)
    have hend := @offsetAt_add alignment b.workGroupMemory b.originalLocalMemSize i hne
    have hle : layoutEnd alignment b.workGroupMemory b.originalLocalMemSize i ≤
        b.localOffset i := layoutEnd_le_offsetAt
    unfold Arguments.localOffset at hle haligned
    rw [Finset.sum_range_succ, hbefore i (Nat.le_refl i), haligned, update_self,
      ← Nat.add_assoc, hsum]
    omega

/-- What the loop over local arguments keeps. -/
structure SameShape (a a' : Arguments) : Prop where
  sizes : a'.paramSizes = a.paramSizes
  pointers : a'.argPointers = a.argPointers
  numArgs : a'.numArgs = a.numArgs
  insertPos : a'.insertPos = a.insertPos
  original : a'.originalLocalMemSize = a.originalLocalMemSize
  memory : a'.workGroupMemory = a.workGroupMemory
  memObjArgs : a'.memObjArgs = a.memObjArgs
  others : ∀ j, a.originalLocalMemSize j = 0 → a'.alignedLocalMemSize j = a.alignedLocalMemSize j ∧
    ∀ value : List UInt8, value.length ≤ a.paramSizes j → a.Holds j value → a'.Holds j value

theorem SameShape.refl (a : Arguments) : a.SameShape a :=
  ⟨rfl, rfl, rfl, rfl, rfl, rfl, rfl, fun _ _ => ⟨rfl, fun _ _ h => h⟩⟩

theorem SameShape.trans {a'' : Arguments} (h : a.SameShape a') (h' : a'.SameShape a'') :
    a.SameShape a'' where
  sizes := h'.sizes.trans h.sizes
  pointers := h'.pointers.trans h.pointers
  numArgs := h'.numArgs.trans h.numArgs
  insertPos := h'.insertPos.trans h.insertPos
  original := h'.original.trans h.original
  memory := h'.memory.trans h.memory
  memObjArgs := h'.memObjArgs.trans h.memObjArgs
  others := fun j hj => by
    obtain ⟨haligned, hholds⟩ := h.others j hj
    obtain ⟨haligned', hholds'⟩ := h'.others j (by rw [h.original]; exact hj)
    refine ⟨haligned'.trans haligned, fun value hv hh => ?_⟩
    exact hholds' value (by rw [h.sizes]; exact hv) (hholds value hv hh)

theorem SameShape.slots (h : a.SameShape a') (hslots : a.Slots) : a'.Slots :=
  hslots.congr h.sizes h.pointers h.insertPos

/-- **Arguments are laid out below `i`**: the sizes add up, and each local argument holds its
offset. -/
structure LaidOut (a : Arguments) (i : Nat) : Prop where
  sums : ∀ k ≤ i, a.SumsTo k
  held : ∀ j < i, a.originalLocalMemSize j ≠ 0 → a.Holds j (sizeBytes (a.localOffset j))

/-- What the layout asks for: local arguments have eight bytes, and others no padding. -/
structure Layable (a : Arguments) : Prop where
  slots : a.Slots
  eight : ∀ i, a.originalLocalMemSize i ≠ 0 → 8 ≤ a.paramSizes i
  plain : ∀ i, a.originalLocalMemSize i = 0 → a.alignedLocalMemSize i = 0

theorem SameShape.layable (h : a.SameShape a') (hl : a.Layable) : a'.Layable := by
  constructor
  · exact h.slots hl.slots
  · rw [h.original, h.sizes]
    exact hl.eight
  · intro i hi
    rw [h.original] at hi
    exact (h.others i hi).1.trans (hl.plain i hi)

/-- **One round**: the next argument is laid out as well. -/
theorem updateLocalArg_spec (h : a.Layable) (hlaid : a.LaidOut i)
    (hfits : layoutEnd alignment a.workGroupMemory a.originalLocalMemSize (i + 1) < 2 ^ 64) :
    ∃ a', a.updateLocalArg i = .ok a' ∧ a.SameShape a' ∧ a'.LaidOut (i + 1) := by
  have hsum := hlaid.sums i (Nat.le_refl i)
  unfold updateLocalArg
  by_cases hzero : a.originalLocalMemSize i = 0
  · rw [if_pos hzero]
    refine ⟨a, rfl, SameShape.refl a, fun k hk => ?_, fun j hj hne => ?_⟩
    · rcases Nat.lt_succ_iff_lt_or_eq.mp (Nat.lt_succ_of_le hk) with hlt | rfl
      · exact hlaid.sums k (Nat.le_of_lt_succ hlt)
      · unfold SumsTo at hsum ⊢
        rw [Finset.sum_range_succ, h.plain i hzero, Nat.add_zero, hsum, layoutEnd_succ_zero hzero]
    · have hlt : j < i := by
        rcases Nat.lt_succ_iff_lt_or_eq.mp hj with hlt | rfl
        · exact hlt
        · exact absurd hzero hne
      exact hlaid.held j hlt hne
  · rw [if_neg hzero]
    have hupdate : update a.originalLocalMemSize i (a.originalLocalMemSize i) =
        a.originalLocalMemSize := Function.update_eq_self ..
    have hcalc := @calcAlignedLocalArgument_spec a i (a.originalLocalMemSize i) hzero
      (by rw [hupdate]; exact hsum) (by rw [hupdate]; exact hfits)
    rw [hupdate] at hcalc
    rw [hcalc]
    have height := h.eight i hzero
    obtain ⟨padded, hpadded⟩ : ∃ padded, padded = a.localOffset i + a.originalLocalMemSize i -
        layoutEnd alignment a.workGroupMemory a.originalLocalMemSize i := ⟨_, rfl⟩
    rw [← hpadded]
    have hslots : ({ a with
        alignedLocalMemSize := update a.alignedLocalMemSize i padded } : Arguments).Slots :=
      h.slots.congr rfl rfl rfl
    obtain ⟨storage, hcopy, hholds, hkept⟩ := @memcpy_spec _ i (sizeBytes (a.localOffset i)) hslots
      (show a.paramSizes i ≠ 0 by omega) height
    have hsame : ∀ j ≠ i, ∀ value : List UInt8, value.length ≤ a.paramSizes j → a.Holds j value →
        ({ a with
          storage := storage
          alignedLocalMemSize := update a.alignedLocalMemSize i padded } :
            Arguments).Holds j value :=
      fun j hj value hv hh => hkept j hj value hv (hh.congr rfl fun _ _ _ _ => rfl)
    refine ⟨_, hcopy, ⟨rfl, rfl, rfl, rfl, rfl, rfl, rfl, fun j hj => ?_⟩, fun k hk => ?_,
      fun j hj hne => ?_⟩
    · have hji : j ≠ i := fun heq => hzero (heq ▸ hj)
      exact ⟨update_of_ne hji .., hsame j hji⟩
    · refine sumsTo_update hzero hlaid.sums ?_ ?_ ?_ k hk
      · rfl
      · rfl
      · rw [hpadded]
    · rcases Nat.lt_succ_iff_lt_or_eq.mp hj with hlt | rfl
      · have height' := h.eight j hne
        exact hsame j (Nat.ne_of_lt hlt) _ height'
          (hlaid.held j hlt hne)
      · exact hholds.congr rfl fun _ _ _ _ => rfl

/-- **The loop** lays out all arguments from `i` on. -/
theorem updateLocalArgs_spec : ∀ (rounds : Nat) {a : Arguments} {i : Nat}, a.Layable →
    a.LaidOut i →
    layoutEnd alignment a.workGroupMemory a.originalLocalMemSize (i + rounds) < 2 ^ 64 →
    ∃ a', updateLocalArgs rounds a i = .ok a' ∧ a.SameShape a' ∧ a'.LaidOut (i + rounds)
  | 0, a, i, _, hlaid, _ => ⟨a, rfl, SameShape.refl a, hlaid⟩
  | rounds + 1, a, i, h, hlaid, hfits => by
    have hnext : i + 1 + rounds = i + (rounds + 1) := by omega
    have hle : layoutEnd alignment a.workGroupMemory a.originalLocalMemSize (i + 1) ≤
        layoutEnd alignment a.workGroupMemory a.originalLocalMemSize (i + (rounds + 1)) :=
      layoutEnd_mono (by omega)
    obtain ⟨a₁, hround, hsame, hlaid₁⟩ := updateLocalArg_spec h hlaid (by omega)
    obtain ⟨a₂, hrest, hsame', hlaid₂⟩ := updateLocalArgs_spec rounds (hsame.layable h) hlaid₁
      (by rw [hsame.memory, hsame.original, hnext]; exact hfits)
    rw [hnext] at hlaid₂
    refine ⟨a₂, ?_, hsame.trans hsame', hlaid₂⟩
    unfold updateLocalArgs
    rw [hround]
    exact hrest

/-- Nothing is laid out behind the last local argument. -/
theorem LaidOut.extend {m : Nat} (h : a.LaidOut i) (hl : a.Layable)
    (hbeyond : ∀ k, i ≤ k → a.originalLocalMemSize k = 0) : a.LaidOut m := by
  constructor
  · intro k hk
    induction k with
    | zero => exact h.sums 0 (Nat.zero_le i)
    | succ k ih =>
      by_cases hki : k + 1 ≤ i
      · exact h.sums (k + 1) hki
      · have hzero := hbeyond k (by omega)
        have hsum := ih (by omega)
        unfold SumsTo at hsum ⊢
        rw [Finset.sum_range_succ, hl.plain k hzero, Nat.add_zero, hsum, layoutEnd_succ_zero hzero]
  · intro j _ hne
    refine h.held j ?_ hne
    by_contra hge
    exact hne (hbeyond j (Nat.le_of_not_lt hge))

/-- **`updateLocalArgOffset` lays out all arguments.** -/
theorem updateLocalArgOffset_spec (h : a.Layable) (hlaid : a.LaidOut i) (hi : i ≤ a.numArgs)
    (hfits : layoutEnd alignment a.workGroupMemory a.originalLocalMemSize a.numArgs < 2 ^ 64) :
    ∃ a', a.updateLocalArgOffset i = .ok a' ∧ a.SameShape a' ∧ a'.LaidOut a.numArgs := by
  have hsum : i + (a.numArgs - i) = a.numArgs := by omega
  obtain ⟨a', hloop, hsame, hlaid'⟩ := updateLocalArgs_spec (a.numArgs - i) h hlaid
    (by rw [hsum]; exact hfits)
  rw [hsum] at hlaid'
  exact ⟨a', hloop, hsame, hlaid'⟩

end Arguments

end UnifiedRuntime.Kernels
