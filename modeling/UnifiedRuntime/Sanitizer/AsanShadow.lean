import UnifiedRuntime.Sanitizer.Asan

/-!
# The shadow of one allocation

What `allocateMemory` lays out around the memory of the user, and what
`enqueueAllocInfo` makes of it: the shadow of a chunk that is not released
decodes to its user range, and the calls for one chunk do not touch the shadow
of a chunk elsewhere.
-/

namespace UnifiedRuntime.Sanitizer

/-- A chunk in whole granules: at least one of redzone, user memory from the start
of a granule, and at least one of redzone. -/
structure Laid (ai : AllocInfo) : Prop where
  beginAligned : ai.allocBegin % 16 = 0
  sizeAligned : ai.allocSize % 16 = 0
  userAligned : ai.userBegin % 16 = 0
  begin_le : ai.allocBegin + 16 ≤ ai.userBegin
  user_le : ai.userBegin ≤ ai.userEnd
  end_le : ai.userEnd + 16 ≤ ai.allocBegin + ai.allocSize
  range : ai.allocBegin + ai.allocSize ≤ 2 ^ 64

/-- A chunk that the user's memory is inside of, with or without redzones. Addresses and
sizes are `uptr`, so no chunk is the whole address space. -/
structure InChunk (ai : AllocInfo) : Prop where
  beginAligned : ai.allocBegin % 16 = 0
  sizeAligned : ai.allocSize % 16 = 0
  userAligned : ai.userBegin % 16 = 0
  begin_le : ai.allocBegin ≤ ai.userBegin
  user_le : ai.userBegin ≤ ai.userEnd
  end_le : ai.userEnd ≤ ai.allocBegin + ai.allocSize
  range : ai.allocBegin + ai.allocSize ≤ 2 ^ 64
  userEnd_lt : ai.userEnd < 2 ^ 64
  notAll : ai.userEnd = 0 → ai.allocSize < 2 ^ 64

theorem Laid.inChunk {ai : AllocInfo} (h : Laid ai) : InChunk ai := by
  have h₁ := h.begin_le
  have h₂ := h.user_le
  have h₃ := h.end_le
  have h₄ := h.range
  exact ⟨h.beginAligned, h.sizeAligned, h.userAligned, by omega, h₂, by omega, h₄, by omega,
    by omega⟩

/-! ## Layout -/

theorem roundUpTo_spec {x b : Nat} (hb : 0 < b) (hx : x + (b - 1) < 2 ^ 64) :
    x ≤ roundUpTo x b ∧ roundUpTo x b ≤ x + (b - 1) ∧ b ∣ roundUpTo x b := by
  unfold roundUpTo
  rw [add64_eq hx]
  refine ⟨?_, Nat.div_mul_le_self _ _, Nat.dvd_mul_left _ _⟩
  have hlt := Nat.lt_div_mul_add (a := x + (b - 1)) hb
  omega

namespace AllocRequest

variable {m : AsanSetup} {r : AllocRequest}

/-- The request's alignment passes the check of `allocateMemory`. -/
def Aligned (r : AllocRequest) : Prop := r.align &&& (r.align - 1) = 0

/-- The sizes that `allocateMemory` computes do not wrap. -/
def Fits (m : AsanSetup) (r : AllocRequest) : Prop :=
  r.size + (r.alignment m - 1) < 2 ^ 64 ∧
  roundUpTo r.size (r.alignment m) + r.rzSize m * 2 +
    (if 16 < r.alignment m then r.alignment m else 0) < 2 ^ 64

/-- A power of two that is not below 16 is a multiple of it. -/
theorem sixteen_dvd_pow {a : Nat} (h : ∃ k, a = 2 ^ k) (ha : ¬ a < 16) : 16 ∣ a := by
  obtain ⟨k, rfl⟩ := h
  have hk : 4 ≤ k := by
    by_contra hk
    have hlt : 2 ^ k < 2 ^ 4 := Nat.pow_lt_pow_right (by omega) (by omega)
    omega
  exact Nat.pow_dvd_pow 2 hk

theorem alignment_spec (h : r.Aligned) : 16 ≤ r.alignment m ∧ 16 ∣ r.alignment m := by
  have hpow : ∃ k, (if r.align = 0 then (r.device.map m.alignment).getD 16 else r.align) =
      2 ^ k := by
    by_cases hz : r.align = 0
    · rw [if_pos hz]
      cases r.device with
      | none => exact ⟨4, rfl⟩
      | some d => exact m.alignment_pow d
    · rw [if_neg hz]
      exact (Nat.and_sub_one_eq_zero_iff_isPowerOfTwo hz).mp h
  unfold alignment
  generalize (if r.align = 0 then (r.device.map m.alignment).getD 16 else r.align) = a at hpow ⊢
  by_cases ha : a < 16
  · exact ⟨by simp [ha], by simp [ha]⟩
  · simp only [ha, if_false]
    exact ⟨by omega, sixteen_dvd_pow hpow ha⟩

theorem rzSize_spec : 16 ≤ r.rzSize m ∧ 16 ∣ r.rzSize m := by
  exact ⟨Nat.le_mul_of_pos_right 16 (Nat.two_pow_pos _), Nat.dvd_mul_right _ _⟩

theorem neededSize_eq (h : r.Fits m) :
    r.neededSize m = roundUpTo r.size (r.alignment m) + r.rzSize m * 2 +
      (if 16 < r.alignment m then r.alignment m else 0) := by
  unfold neededSize
  have hfit := h.2
  split at hfit
  next hlt =>
    rw [if_pos hlt, if_pos hlt, add64_eq (a := roundUpTo _ _) (by omega), add64_eq hfit]
  next hge =>
    rw [if_neg hge, if_neg hge, add64_eq (by omega)]
    rfl

/-- Where the memory of the user begins. -/
theorem userBegin_spec (ha : r.Aligned) (hf : r.Fits m) {allocBegin : Nat}
    (halign : allocBegin % 16 = 0) (hrange : allocBegin + r.neededSize m ≤ 2 ^ 64) :
    r.userBegin m allocBegin % 16 = 0 ∧ allocBegin + 16 ≤ r.userBegin m allocBegin ∧
    r.userBegin m allocBegin + roundUpTo r.size (r.alignment m) + 16 ≤
      allocBegin + r.neededSize m := by
  obtain ⟨hA, hdvd⟩ := alignment_spec (m := m) ha
  obtain ⟨hrz, hrzdvd⟩ := rzSize_spec (m := m) (r := r)
  rw [neededSize_eq hf] at hrange ⊢
  unfold userBegin
  have hadd : add64 allocBegin (r.rzSize m) = allocBegin + r.rzSize m := add64_eq (by omega)
  simp only [hadd]
  split
  next => exact ⟨by omega, by omega, by omega⟩
  next hne =>
    -- a boundary of 16 is met already
    have hlt : 16 < r.alignment m := by
      refine Nat.lt_of_le_of_ne hA fun he => hne ?_
      rw [← he]
      omega
    rw [if_pos hlt] at hrange ⊢
    obtain ⟨hle, hge, hd⟩ := roundUpTo_spec (x := allocBegin + r.rzSize m) (b := r.alignment m)
      (by omega) (by omega)
    exact ⟨Nat.mod_eq_zero_of_dvd (hdvd.trans hd), by omega, by omega⟩

/-- **Layout.** -/
theorem info_laid (ha : r.Aligned) (hf : r.Fits m) {allocBegin : Nat}
    (halign : allocBegin % 16 = 0) (hrange : allocBegin + r.neededSize m ≤ 2 ^ 64) :
    Laid (r.info m allocBegin) := by
  obtain ⟨hA, hdvd⟩ := alignment_spec (m := m) ha
  obtain ⟨hu, hle, hend⟩ := userBegin_spec ha hf halign hrange
  obtain ⟨hsize, -, hround⟩ := roundUpTo_spec (x := r.size) (b := r.alignment m) (by omega) hf.1
  have hneeded : r.neededSize m % 16 = 0 := by
    rw [neededSize_eq hf]
    have h₁ : roundUpTo r.size (r.alignment m) % 16 = 0 :=
      Nat.mod_eq_zero_of_dvd (hdvd.trans hround)
    have h₂ : r.rzSize m % 16 = 0 := Nat.mod_eq_zero_of_dvd rzSize_spec.2
    split
    next => omega
    next => omega
  have hadd : add64 (r.userBegin m allocBegin) r.size = r.userBegin m allocBegin + r.size :=
    add64_eq (by omega)
  refine ⟨halign, hneeded, hu, hle, ?_, ?_, hrange⟩
  · show r.userBegin m allocBegin ≤ add64 (r.userBegin m allocBegin) r.size
    omega
  · show add64 (r.userBegin m allocBegin) r.size + 16 ≤ allocBegin + r.neededSize m
    omega

end AllocRequest

/-! ## Flushing one chunk -/

variable {t : DeviceType} {ai other : AllocInfo} {shadow : Nat → UInt8}

/-- The shadow says of every byte of the chunk whether it is the user's. -/
def Decodes (t : DeviceType) (shadow : Nat → UInt8) (ai : AllocInfo) : Prop :=
  ∀ x, ai.allocBegin ≤ x → x < ai.allocBegin + ai.allocSize →
    (Accessible (shadow (memToShadow t x)) (x % 16) ↔ ai.userBegin ≤ x ∧ x < ai.userEnd)

/-- The end of the last granule with user memory. -/
def AllocInfo.tailBegin (ai : AllocInfo) : Nat := (ai.userEnd + 15) / 16 * 16

theorem InChunk.left_eq (h : InChunk ai) :
    sub64 ai.userBegin ai.allocBegin = ai.userBegin - ai.allocBegin := by
  have h₁ := h.begin_le
  have h₂ := h.user_le
  have h₃ := h.userEnd_lt
  unfold sub64
  omega

/-- The right redzone. `RoundUpTo` wraps when the user's memory ends in the last granule of
the address space; the redzone has no bytes then. -/
theorem InChunk.right_cases (h : InChunk ai) :
    roundUpTo ai.userEnd 16 = ai.tailBegin ∧
        sub64 (add64 ai.allocBegin ai.allocSize) (roundUpTo ai.userEnd 16)
          = ai.allocBegin + ai.allocSize - ai.tailBegin ∨
      roundUpTo ai.userEnd 16 ≠ ai.userEnd ∧ ai.tailBegin = ai.allocBegin + ai.allocSize ∧
        sub64 (add64 ai.allocBegin ai.allocSize) (roundUpTo ai.userEnd 16) = 0 := by
  have h₁ := h.beginAligned
  have h₂ := h.sizeAligned
  have h₃ := h.end_le
  have h₄ := h.range
  have h₆ := h.notAll
  by_cases hwrap : ai.userEnd + 15 < 2 ^ 64
  · have htail : roundUpTo ai.userEnd 16 = ai.tailBegin := by
      unfold roundUpTo AllocInfo.tailBegin
      rw [add64_eq (by omega)]
    refine .inl ⟨htail, ?_⟩
    rw [htail]
    unfold sub64 add64 AllocInfo.tailBegin
    rcases Nat.lt_or_eq_of_le h₄ with hlt | heq
    · omega
    · have hpos : ai.userEnd ≠ 0 := fun hz => by
        have hle := h.begin_le
        have hle' := h.user_le
        omega
      omega
  · have htail : roundUpTo ai.userEnd 16 = 0 := by
      unfold roundUpTo add64
      omega
    refine .inr ⟨by omega, ?_, ?_⟩
    · unfold AllocInfo.tailBegin
      omega
    · unfold sub64 add64
      omega

/-- The calls of `EnqueuePoisonShadow` for a chunk stay inside it. -/
theorem InChunk.inside (h : InChunk ai) {p : Poison} (hp : p ∈ ai.enqueueAllocInfo) :
    p.size = 0 ∨ ai.allocBegin ≤ p.ptr ∧ p.ptr + p.size ≤ ai.allocBegin + ai.allocSize := by
  have h₁ := h.begin_le
  have h₂ := h.user_le
  have h₃ := h.end_le
  have h₄ := h.beginAligned
  have h₅ := h.sizeAligned
  have htail : ai.tailBegin = (ai.userEnd + 15) / 16 * 16 := rfl
  unfold AllocInfo.enqueueAllocInfo at hp
  split at hp
  next =>
    obtain rfl := List.mem_singleton.mp hp
    exact .inr ⟨Nat.le_refl _, Nat.le_refl _⟩
  next =>
    simp only [h.left_eq] at hp
    rcases List.mem_append.mp hp with hp | hp
    · rcases List.mem_append.mp hp with hp | hp
      · obtain rfl := List.mem_singleton.mp hp
        exact .inr ⟨Nat.le_refl _, Nat.le_refl _⟩
      · split at hp
        next hne =>
          obtain rfl := List.mem_singleton.mp hp
          -- the last granule is not full, so its end is not that of the chunk
          have hpart : ai.userEnd % 16 ≠ 0 := by
            rcases h.right_cases with ⟨heq, -⟩ | ⟨-, heq, -⟩
            · omega
            · have h₇ := h.userEnd_lt
              unfold roundUpTo add64 at hne
              omega
          show 1 = 0 ∨ ai.allocBegin ≤ ai.userEnd ∧ ai.userEnd + 1 ≤ _
          omega
        next => exact absurd hp List.not_mem_nil
    · rcases List.mem_cons.mp hp with rfl | hp
      · show _ ∨ ai.allocBegin ≤ ai.allocBegin ∧
          ai.allocBegin + (ai.userBegin - ai.allocBegin) ≤ _
        omega
      · obtain rfl := List.mem_singleton.mp hp
        rcases h.right_cases with ⟨htb, hsize⟩ | ⟨-, -, hsize⟩
        · right
          simp only [htb] at hsize ⊢
          omega
        · exact .inl hsize

/-- The chunks have an address in common. -/
def Overlaps (ai other : AllocInfo) : Prop :=
  ai.allocBegin < other.allocBegin + other.allocSize ∧
    other.allocBegin < ai.allocBegin + ai.allocSize

instance (ai other : AllocInfo) : Decidable (Overlaps ai other) :=
  inferInstanceAs (Decidable (_ ∧ _))

/-- The chunk is where the platform of a device allocates from. -/
def AllocInfo.Canonical (t : DeviceType) (ai : AllocInfo) : Prop :=
  Sanitizer.Canonical t ai.allocBegin (ai.allocBegin + ai.allocSize)

/-- The calls for one chunk leave the shadow of another one alone. -/
theorem not_covers (ho : InChunk other) (hc : ai.Canonical t) (hco : other.Canonical t)
    (hover : ¬ Overlaps other ai) {p : Poison} (hp : p ∈ other.enqueueAllocInfo) {x : Nat}
    (hx : ai.allocBegin ≤ x) (hx' : x < ai.allocBegin + ai.allocSize) :
    p.covers t (memToShadow t x) = false := by
  rcases ho.inside hp with hzero | ⟨hb, he⟩
  · unfold Poison.covers
    simp [hzero]
  · rw [Bool.eq_false_iff]
    intro hcov
    obtain ⟨hpos, hlo, hhi⟩ := (covers_iff hco hc hb he hx hx').mp hcov
    -- the address is in a granule of the other chunk, so in the chunk
    have h₁ := ho.beginAligned
    have h₂ := ho.sizeAligned
    refine hover ⟨?_, ?_⟩
    · omega
    · omega

theorem poisoned_eq {ps : List Poison} {n : Nat} :
    ∀ {shadow : Nat → UInt8}, (∀ p ∈ ps, p.covers t n = false) → poisoned t shadow ps n = shadow n := by
  induction ps with
  | nil => exact fun _ => rfl
  | cons p ps ih =>
    intro shadow h
    have hp : p.apply t shadow n = shadow n := by
      unfold Poison.apply
      rw [h p List.mem_cons_self]
      rfl
    exact (ih fun q hq => h q (List.mem_cons_of_mem _ hq)).trans hp

/-- Flushing another chunk. -/
theorem Decodes.frame (ho : InChunk other) (hc : ai.Canonical t)
    (hco : other.Canonical t) (hover : ¬ Overlaps other ai) (hd : Decodes t shadow ai) :
    Decodes t (poisoned t shadow other.enqueueAllocInfo) ai := by
  intro x hx hx'
  rw [poisoned_eq fun p hp => not_covers ho hc hco hover hp hx hx']
  exact hd x hx hx'

theorem redzoneMagic_not_accessible (type : AllocType) (k : Nat) :
    ¬ Accessible type.redzoneMagic k := by
  have hmagic : 128 ≤ type.redzoneMagic.toNat := by
    cases type <;> decide
  unfold Accessible
  omega

theorem apply_at {p : Poison} (hc : ai.Canonical t) (hb : ai.allocBegin ≤ p.ptr)
    (he : p.ptr + p.size ≤ ai.allocBegin + ai.allocSize) {x : Nat} (hx : ai.allocBegin ≤ x)
    (hx' : x < ai.allocBegin + ai.allocSize) :
    p.apply t shadow (memToShadow t x) =
      if 0 < p.size ∧ p.ptr / 16 ≤ x / 16 ∧ x / 16 ≤ (p.ptr + p.size - 1) / 16 then p.value
      else shadow (memToShadow t x) := by
  unfold Poison.apply
  have hiff := covers_iff hc hc hb he hx hx'
  split
  next hcov => rw [if_pos (hiff.mp hcov)]
  next hcov => rw [if_neg fun hn => hcov (hiff.mpr hn)]

/-- The left redzone. -/
theorem apply_left (h : InChunk ai) (hc : ai.Canonical t) (v : UInt8) {x : Nat}
    (hx : ai.allocBegin ≤ x) (hx' : x < ai.allocBegin + ai.allocSize) :
    Poison.apply t ⟨ai.allocBegin, sub64 ai.userBegin ai.allocBegin, v⟩ shadow (memToShadow t x)
      = if x < ai.userBegin then v else shadow (memToShadow t x) := by
  have h₂ := h.userAligned
  have h₄ := h.user_le
  have h₅ := h.end_le
  rw [h.left_eq, apply_at hc (by simp only; omega) (by simp only; omega) hx hx']
  simp only
  by_cases hlt : x < ai.userBegin
  · rw [if_pos hlt, if_pos (by omega)]
  · rw [if_neg hlt, if_neg (by omega)]

/-- The right redzone. -/
theorem apply_right (h : InChunk ai) (hc : ai.Canonical t) (v : UInt8) {x : Nat}
    (hx : ai.allocBegin ≤ x) (hx' : x < ai.allocBegin + ai.allocSize) :
    Poison.apply t ⟨roundUpTo ai.userEnd 16,
        sub64 (add64 ai.allocBegin ai.allocSize) (roundUpTo ai.userEnd 16), v⟩ shadow
        (memToShadow t x)
      = if ai.tailBegin ≤ x then v else shadow (memToShadow t x) := by
  have h₁ := h.beginAligned
  have h₂ := h.sizeAligned
  have h₃ := h.begin_le
  have h₄ := h.user_le
  have h₅ := h.end_le
  have htail : ai.tailBegin = (ai.userEnd + 15) / 16 * 16 := rfl
  rcases h.right_cases with ⟨htb, hsize⟩ | ⟨-, htb, hsize⟩
  · rw [apply_at hc (by simp only; omega) (by simp only; omega) hx hx']
    simp only
    by_cases hge : ai.tailBegin ≤ x
    · rw [if_pos hge, if_pos (by omega)]
    · rw [if_neg hge, if_neg (by omega)]
  · rw [hsize, if_neg (by omega)]
    unfold Poison.apply Poison.covers
    simp

/-- The granule in which the user's memory ends. -/
theorem apply_last (h : InChunk ai) (hc : ai.Canonical t) (v : UInt8)
    (hpart : ai.userEnd % 16 ≠ 0) {x : Nat} (hx : ai.allocBegin ≤ x)
    (hx' : x < ai.allocBegin + ai.allocSize) :
    Poison.apply t ⟨ai.userEnd, 1, v⟩ shadow (memToShadow t x)
      = if x / 16 = ai.userEnd / 16 then v else shadow (memToShadow t x) := by
  have h₁ := h.beginAligned
  have h₂ := h.sizeAligned
  have h₃ := h.begin_le
  have h₄ := h.user_le
  have h₅ := h.end_le
  rw [apply_at hc (by simp only; omega) (by simp only; omega) hx hx']
  simp only
  by_cases heq : x / 16 = ai.userEnd / 16
  · rw [if_pos heq, if_pos (by omega)]
  · rw [if_neg heq, if_neg (by omega)]

theorem apply_whole (hc : ai.Canonical t) (v : UInt8) {x : Nat} (hx : ai.allocBegin ≤ x)
    (hx' : x < ai.allocBegin + ai.allocSize) :
    Poison.apply t ⟨ai.allocBegin, ai.allocSize, v⟩ shadow (memToShadow t x) = v := by
  rw [apply_at hc (Nat.le_refl _) (Nat.le_refl _) hx hx']
  simp only
  rw [if_pos (by omega)]

/-- The last granule is left out of the redzone when it is not full. -/
theorem InChunk.part_iff (h : InChunk ai) :
    roundUpTo ai.userEnd 16 ≠ ai.userEnd ↔ ai.userEnd % 16 ≠ 0 := by
  have htail : ai.tailBegin = (ai.userEnd + 15) / 16 * 16 := rfl
  rcases h.right_cases with ⟨heq, -⟩ | ⟨hne, heq, -⟩
  · omega
  · have h₄ := h.userEnd_lt
    unfold roundUpTo add64 at hne ⊢
    omega

/-- **A chunk that is not released.** Left redzone, user memory, the granule
where the user memory ends, right redzone. -/
theorem InChunk.decodes (h : InChunk ai) (hc : ai.Canonical t) (hr : ai.isReleased = false) :
    Decodes t (poisoned t shadow ai.enqueueAllocInfo) ai := by
  intro x hx hx'
  have htail : ai.tailBegin = (ai.userEnd + 15) / 16 * 16 := rfl
  have hrz := redzoneMagic_not_accessible ai.type (x % 16)
  unfold AllocInfo.enqueueAllocInfo
  simp only [hr, Bool.false_eq_true, if_false]
  unfold poisoned
  -- the redzones are written last
  rw [List.foldl_append, List.foldl_cons, List.foldl_cons, List.foldl_nil,
    apply_right h hc _ hx hx', apply_left h hc _ hx hx']
  split
  next hright => exact iff_of_false hrz (by omega)
  next hright =>
    split
    next hleft => exact iff_of_false hrz (by omega)
    next hleft =>
      rw [List.foldl_append, List.foldl_cons, List.foldl_nil]
      by_cases hpart : ai.userEnd % 16 ≠ 0
      · rw [if_pos (h.part_iff.mpr hpart), List.foldl_cons, List.foldl_nil,
          apply_last h hc _ hpart hx hx', apply_whole hc _ hx hx']
        have hval : (UInt8.ofNat (ai.userEnd % 16)).toNat = ai.userEnd % 16 := by
          rw [UInt8.toNat_ofNat']
          omega
        split
        next hlast =>
          unfold Accessible
          omega
        next hlast => exact iff_of_true (.inl rfl) (by omega)
      · rw [if_neg fun hne => hpart (h.part_iff.mp hne), List.foldl_nil, apply_whole hc _ hx hx']
        exact iff_of_true (.inl rfl) (by omega)

end UnifiedRuntime.Sanitizer
