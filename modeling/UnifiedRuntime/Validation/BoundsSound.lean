import UnifiedRuntime.Validation.Bounds

/-!
# When the bounds checks are sound

A check is sound for a command and a size if its success means that every byte of the
command lies below the size. Each check succeeds from some size on, its demand; the
bytes need the extent of the command's box. So a check is unsound for the sizes from
the demand up to the extent, and sound for all sizes if there are none.

- `sound_bounds_iff`: ranges of a buffer, unless `size + offset` wraps to an accepted sum.
- `sound_rect_iff`, `sound_rect_all_iff`: rectangles.
- `sound_usm_iff`, `sound_2d_iff`: from USM pointers, with the pointer's position in its
  allocation, which is not looked at.
- `pixelsInside_iff`: images, unless a sum wraps.
-/

namespace UnifiedRuntime.Validation.Bounds

/-- Success means that all cells of the box are below the size. -/
def Sound (r : Result) (b : StridedBox) (n : UInt64) : Prop :=
  r = .success → ∀ x, b.Cell x → x < n.toNat

variable {r : Result} {b : StridedBox} {n : UInt64} {demand : Nat}

/-- Sound exactly for the sizes outside the gap. -/
theorem sound_iff (hr : r = .success ↔ demand ≤ n.toNat) :
    Sound r b n ↔ n.toNat < demand ∨ b.extent ≤ n.toNat := by
  unfold Sound
  rw [hr, StridedBox.cells_lt_iff]
  omega

/-- **Sound for every size**: there is no gap. -/
theorem sound_all_iff {check : UInt64 → Result}
    (hr : ∀ n, check n = .success ↔ demand ≤ n.toNat) :
    (∀ n, Sound (check n) b n) ↔ 2 ^ 64 ≤ demand ∨ b.extent ≤ demand := by
  constructor
  · intro hall
    rcases Nat.lt_or_ge demand (2 ^ 64) with hlt | hge
    · have hn : (UInt64.ofNat demand).toNat = demand := by
        exact Nat.mod_eq_of_lt hlt
      have hs := (sound_iff (hr (UInt64.ofNat demand))).mp (hall _)
      omega
    · exact Or.inl hge
  · intro hcond n
    rw [sound_iff (hr n)]
    have hlt := n.toNat_lt
    omega

/-! ## Ranges of a buffer -/

variable {offset size : UInt64}

theorem bounds_success_iff :
    bounds (.value n) offset size = .success ↔ (size + offset).toNat ≤ n.toNat := by
  show (if size + offset > n then Result.invalidSize else .success) = .success ↔ _
  split
  next h =>
    have hlt := UInt64.lt_iff_toNat_lt.mp h
    simp only [reduceCtorEq, false_iff]
    omega
  next h =>
    have hle := UInt64.le_iff_toNat_le.mp (UInt64.not_lt.mp h)
    simp only [true_iff]
    exact hle

/-- A range ends below a size where the wrapped sum does, if nothing wraps. -/
theorem range_le_iff (hle : (size + offset).toNat ≤ n.toNat) :
    offset.toNat + size.toNat ≤ n.toNat ↔ offset.toNat + size.toNat < 2 ^ 64 := by
  have hn := n.toNat_lt
  rw [UInt64.toNat_add] at hle
  refine ⟨fun h => by omega, fun h => ?_⟩
  omega

/-- **Ranges of a buffer.** -/
theorem sound_bounds_iff :
    Sound (bounds (.value n) offset size) (.run offset.toNat size.toNat) n ↔
      size = 0 ∨ n < size + offset ∨ offset.toNat + size.toNat < 2 ^ 64 := by
  rw [sound_iff bounds_success_iff, StridedBox.extent_run]
  by_cases h0 : size = 0
  · subst h0
    exact iff_of_true (Or.inr (Nat.zero_le _)) (Or.inl rfl)
  · have hne : size.toNat ≠ 0 := fun h => h0 (UInt64.toNat_inj.mp h)
    rw [if_neg hne]
    by_cases hlt : n < size + offset
    · exact iff_of_true (Or.inl hlt) (Or.inr (Or.inl hlt))
    · have hle := range_le_iff (UInt64.le_iff_toNat_le.mp (UInt64.not_lt.mp hlt))
      constructor
      · rintro (h | h)
        · exact absurd h hlt
        · exact Or.inr (Or.inr (hle.mp h))
      · rintro (h | h | h)
        · exact absurd h h0
        · exact absurd h hlt
        · exact Or.inr (hle.mpr h)

/-! ## Rectangles -/

variable {origin : RectOffset} {region : RectRegion} {p : Pitches}

/-- The product that is compared with the buffer's size. -/
def rectProduct (origin : RectOffset) (region : RectRegion) : UInt64 :=
  (region.width + origin.x) * (region.height + origin.y) * (region.depth + origin.z)

/-- The least size that the check accepts. -/
def rectDemand (origin : RectOffset) (region : RectRegion) : Nat :=
  max (max (origin.x.toNat + 1) (max (origin.y.toNat + 1) (origin.z.toNat + 1)))
    (rectProduct origin region).toNat

theorem boundsRect_success_iff :
    boundsRect (.value n) origin region = .success ↔ rectDemand origin region ≤ n.toNat := by
  unfold rectDemand
  show (if origin.x ≥ n ∨ origin.y ≥ n ∨ origin.z ≥ n then Result.invalidSize
    else if rectProduct origin region > n then .invalidSize else .success) = .success ↔ _
  simp only [ge_iff_le, gt_iff_lt, UInt64.le_iff_toNat_le, UInt64.lt_iff_toNat_lt]
  split
  next h =>
    simp only [reduceCtorEq, false_iff]
    omega
  next h =>
    split
    next hp =>
      simp only [reduceCtorEq, false_iff]
      omega
    next hp =>
      simp only [true_iff]
      omega

/-- **Rectangles**, for one size … -/
theorem sound_rect_iff :
    Sound (boundsRect (.value n) origin region) (rectBox origin region p) n ↔
      n.toNat < rectDemand origin region ∨ (rectBox origin region p).extent ≤ n.toNat :=
  sound_iff boundsRect_success_iff

/-- … and for all of them. -/
theorem sound_rect_all_iff :
    (∀ n, Sound (boundsRect (.value n) origin region) (rectBox origin region p) n) ↔
      2 ^ 64 ≤ rectDemand origin region ∨
        (rectBox origin region p).extent ≤ rectDemand origin region :=
  sound_all_iff fun _ => boundsRect_success_iff

/-! ## The rectangle commands -/

/-- Reads and writes: the command is rejected or the size is not in the gap. -/
theorem sound_readRect_iff {host : Pitches} :
    Sound (checkReadRect (.value n) origin region p host) (rectBox origin region p) n ↔
      readRectSizes p host region = false ∨ n.toNat < rectDemand origin region ∨
        (rectBox origin region p).extent ≤ n.toNat := by
  unfold checkReadRect
  cases hsizes : readRectSizes p host region with
  | false =>
    refine iff_of_true (fun h => ?_) (Or.inl rfl)
    exact absurd h (by simp)
  | true =>
    show Sound (boundsRect (.value n) origin region) _ n ↔ _
    rw [sound_rect_iff]
    simp

/-- Copies succeed if the sizes and both checks do. -/
theorem checkCopyRect_success_iff {nSrc nDst : UInt64} {srcOrigin dstOrigin : RectOffset}
    {src dst : Pitches} :
    checkCopyRect (.value nSrc) (.value nDst) srcOrigin dstOrigin region src dst = .success ↔
      copyRectSizes src dst region = true ∧ rectDemand srcOrigin region ≤ nSrc.toNat ∧
        rectDemand dstOrigin region ≤ nDst.toNat := by
  unfold checkCopyRect
  rw [← boundsRect_success_iff, ← boundsRect_success_iff]
  cases hsizes : copyRectSizes src dst region with
  | false => simp
  | true =>
    cases hsrc : boundsRect (.value nSrc) srcOrigin region with
    | success => simp
    | invalidSize => simp
    | failed code => simp

/-- Copies: both boxes. -/
theorem sound_copyRect_iff {nSrc nDst : UInt64} {srcOrigin dstOrigin : RectOffset}
    {src dst : Pitches} :
    (Sound (checkCopyRect (.value nSrc) (.value nDst) srcOrigin dstOrigin region src dst)
        (rectBox srcOrigin region src) nSrc ∧
      Sound (checkCopyRect (.value nSrc) (.value nDst) srcOrigin dstOrigin region src dst)
        (rectBox dstOrigin region dst) nDst) ↔
      copyRectSizes src dst region = false ∨ nSrc.toNat < rectDemand srcOrigin region ∨
        nDst.toNat < rectDemand dstOrigin region ∨
        ((rectBox srcOrigin region src).extent ≤ nSrc.toNat ∧
          (rectBox dstOrigin region dst).extent ≤ nDst.toNat) := by
  unfold Sound
  rw [checkCopyRect_success_iff, StridedBox.cells_lt_iff, StridedBox.cells_lt_iff]
  cases copyRectSizes src dst region with
  | false => simp
  | true =>
    simp only [true_and, Bool.true_eq_false, false_or]
    omega

/-! ## USM pointers -/

variable {usmType : UsmType} {pos pitch width height : UInt64}

theorem boundsUSM_success_iff (ht : usmType ≠ .unknown) :
    boundsUSM (.value ()) (.value usmType) (.value n) offset size = .success ↔
      (size + offset).toNat ≤ n.toNat := by
  rw [← bounds_success_iff]
  show (if usmType = .unknown then Result.success else bounds (.value n) offset size) =
    .success ↔ _
  rw [if_neg ht]

/-- **From a USM pointer** that is `pos` into an allocation of size `n`. -/
theorem sound_usm_iff (ht : usmType ≠ .unknown) :
    Sound (boundsUSM (.value ()) (.value usmType) (.value n) offset size)
        (.run (pos.toNat + offset.toNat) size.toNat) n ↔
      size = 0 ∨ n < size + offset ∨ pos.toNat + offset.toNat + size.toNat ≤ n.toNat := by
  rw [sound_iff (boundsUSM_success_iff ht), StridedBox.extent_run, ← UInt64.lt_iff_toNat_lt]
  by_cases h0 : size = 0
  · subst h0
    exact iff_of_true (Or.inr (Nat.zero_le _)) (Or.inl rfl)
  · have hne : size.toNat ≠ 0 := fun h => h0 (UInt64.toNat_inj.mp h)
    rw [if_neg hne]
    simp [h0]

/-- **2D commands**: the check is of `pitch * height` bytes. -/
theorem sound_2d_iff (ht : usmType ≠ .unknown) :
    Sound (bounds2D (.value ()) (.value usmType) (.value n) pitch height)
        (box2D pos pitch width height) n ↔
      n < pitch * height ∨ (box2D pos pitch width height).extent ≤ n.toNat := by
  unfold bounds2D
  rw [sound_iff (boundsUSM_success_iff ht), UInt64.add_zero, UInt64.lt_iff_toNat_lt]

/-! ## Images -/

variable {depth : UInt64}

/-- A dimension of a region: accepted, it lies inside exactly if its sum does not wrap. -/
theorem boundsImage_success_iff :
    boundsImage (.value width) (.value height) (.value depth) origin region = .success ↔
      region.width + origin.x ≤ width ∧ region.height + origin.y ≤ orOne height ∧
        region.depth + origin.z ≤ orOne depth := by
  show (if region.width + origin.x > width then Result.invalidSize
    else if region.height + origin.y > orOne height then .invalidSize
    else if region.depth + origin.z > orOne depth then .invalidSize else .success) =
      .success ↔ _
  split
  next h =>
    simp only [reduceCtorEq, false_iff]
    exact fun hle => absurd hle.1 (UInt64.not_le.mpr h)
  next h =>
    split
    next h' =>
      simp only [reduceCtorEq, false_iff]
      exact fun hle => absurd hle.2.1 (UInt64.not_le.mpr h')
    next h' =>
      split
      next h'' =>
        simp only [reduceCtorEq, false_iff]
        exact fun hle => absurd hle.2.2 (UInt64.not_le.mpr h'')
      next h'' =>
        simp only [true_iff]
        exact ⟨UInt64.not_lt.mp h, UInt64.not_lt.mp h', UInt64.not_lt.mp h''⟩

/-- The pixels of a region that is not empty. -/
theorem pixelsInside_iff_le (hw : region.width ≠ 0) (hh : region.height ≠ 0)
    (hd : region.depth ≠ 0) :
    PixelsInside width height depth origin region ↔
      origin.x.toNat + region.width.toNat ≤ width.toNat ∧
        origin.y.toNat + region.height.toNat ≤ (orOne height).toNat ∧
        origin.z.toNat + region.depth.toNat ≤ (orOne depth).toNat := by
  have hw' : region.width.toNat ≠ 0 := fun h => hw (UInt64.toNat_inj.mp h)
  have hh' : region.height.toNat ≠ 0 := fun h => hh (UInt64.toNat_inj.mp h)
  have hd' : region.depth.toNat ≠ 0 := fun h => hd (UInt64.toNat_inj.mp h)
  constructor
  · intro hall
    obtain ⟨hx, hy, hz⟩ := hall (region.width.toNat - 1) (region.height.toNat - 1)
      (region.depth.toNat - 1) (by omega) (by omega) (by omega)
    omega
  · rintro ⟨hx, hy, hz⟩ i j k hi hj hk
    omega

/-- **Images**: a success is right if the region is empty or no sum wraps. -/
theorem pixelsInside_iff :
    (boundsImage (.value width) (.value height) (.value depth) origin region = .success →
        PixelsInside width height depth origin region) ↔
      region.width = 0 ∨ region.height = 0 ∨ region.depth = 0 ∨
        width < region.width + origin.x ∨ orOne height < region.height + origin.y ∨
        orOne depth < region.depth + origin.z ∨
        (origin.x.toNat + region.width.toNat < 2 ^ 64 ∧
          origin.y.toNat + region.height.toNat < 2 ^ 64 ∧
          origin.z.toNat + region.depth.toNat < 2 ^ 64) := by
  rw [boundsImage_success_iff]
  by_cases hempty : region.width = 0 ∨ region.height = 0 ∨ region.depth = 0
  · refine iff_of_true (fun _ i j k hi hj hk => ?_) (by tauto)
    rcases hempty with h | h | h
    · rw [h] at hi
      exact absurd hi (Nat.not_lt_zero i)
    · rw [h] at hj
      exact absurd hj (Nat.not_lt_zero j)
    · rw [h] at hk
      exact absurd hk (Nat.not_lt_zero k)
  · rw [not_or, not_or] at hempty
    obtain ⟨hw, hh, hd⟩ := hempty
    rw [pixelsInside_iff_le hw hh hd]
    by_cases hx : region.width + origin.x ≤ width
    · by_cases hy : region.height + origin.y ≤ orOne height
      · by_cases hz : region.depth + origin.z ≤ orOne depth
        · rw [range_le_iff (UInt64.le_iff_toNat_le.mp hx),
            range_le_iff (UInt64.le_iff_toNat_le.mp hy), range_le_iff (UInt64.le_iff_toNat_le.mp hz)]
          have hx' := UInt64.not_lt.mpr hx
          have hy' := UInt64.not_lt.mpr hy
          have hz' := UInt64.not_lt.mpr hz
          tauto
        · have hz' := UInt64.not_le.mp hz
          tauto
      · have hy' := UInt64.not_le.mp hy
        tauto
    · have hx' := UInt64.not_le.mp hx
      tauto

/-! ## All checks -/

/-- **When the bounds checks are sound**, for every size, offset, origin, region and pitch. -/
theorem bounds_sound (n nSrc nDst pos offset size pitch width height depth : UInt64)
    (usmType : UsmType) (origin srcOrigin dstOrigin : RectOffset) (region : RectRegion)
    (p host src dst : Pitches) :
    (Sound (bounds (.value n) offset size) (.run offset.toNat size.toNat) n ↔
      size = 0 ∨ n < size + offset ∨ offset.toNat + size.toNat < 2 ^ 64) ∧
    (Sound (boundsRect (.value n) origin region) (rectBox origin region p) n ↔
      n.toNat < rectDemand origin region ∨ (rectBox origin region p).extent ≤ n.toNat) ∧
    ((∀ k, Sound (boundsRect (.value k) origin region) (rectBox origin region p) k) ↔
      2 ^ 64 ≤ rectDemand origin region ∨
        (rectBox origin region p).extent ≤ rectDemand origin region) ∧
    (Sound (checkReadRect (.value n) origin region p host) (rectBox origin region p) n ↔
      readRectSizes p host region = false ∨ n.toNat < rectDemand origin region ∨
        (rectBox origin region p).extent ≤ n.toNat) ∧
    ((Sound (checkCopyRect (.value nSrc) (.value nDst) srcOrigin dstOrigin region src dst)
        (rectBox srcOrigin region src) nSrc ∧
      Sound (checkCopyRect (.value nSrc) (.value nDst) srcOrigin dstOrigin region src dst)
        (rectBox dstOrigin region dst) nDst) ↔
      copyRectSizes src dst region = false ∨ nSrc.toNat < rectDemand srcOrigin region ∨
        nDst.toNat < rectDemand dstOrigin region ∨
        ((rectBox srcOrigin region src).extent ≤ nSrc.toNat ∧
          (rectBox dstOrigin region dst).extent ≤ nDst.toNat)) ∧
    (usmType ≠ .unknown →
      (Sound (boundsUSM (.value ()) (.value usmType) (.value n) offset size)
          (.run (pos.toNat + offset.toNat) size.toNat) n ↔
        size = 0 ∨ n < size + offset ∨ pos.toNat + offset.toNat + size.toNat ≤ n.toNat) ∧
      (Sound (bounds2D (.value ()) (.value usmType) (.value n) pitch height)
          (box2D pos pitch width height) n ↔
        n < pitch * height ∨ (box2D pos pitch width height).extent ≤ n.toNat)) ∧
    ((boundsImage (.value width) (.value height) (.value depth) origin region = .success →
        PixelsInside width height depth origin region) ↔
      region.width = 0 ∨ region.height = 0 ∨ region.depth = 0 ∨
        width < region.width + origin.x ∨ orOne height < region.height + origin.y ∨
        orOne depth < region.depth + origin.z ∨
        (origin.x.toNat + region.width.toNat < 2 ^ 64 ∧
          origin.y.toNat + region.height.toNat < 2 ^ 64 ∧
          origin.z.toNat + region.depth.toNat < 2 ^ 64)) :=
  ⟨sound_bounds_iff, sound_rect_iff, sound_rect_all_iff, sound_readRect_iff, sound_copyRect_iff,
    fun ht => ⟨sound_usm_iff ht, sound_2d_iff ht⟩, pixelsInside_iff⟩

/-- The checks from USM pointers, for a range and for rows, at an allocation of 64 bytes. -/
theorem bounds_sound_usm :
    Sound (boundsUSM (.value ()) (.value .device) (.value 64) 0 16) (.run (32 + 0) 16) 64 ∧
    Sound (bounds2D (.value ()) (.value .device) (.value 64) 16 4) (box2D 0 16 8 4) 64 := by
  have hrange := (bounds_sound 64 64 64 32 0 16 0 0 0 0 .device ⟨0, 0, 0⟩ ⟨0, 0, 0⟩ ⟨0, 0, 0⟩
    ⟨0, 0, 0⟩ ⟨0, 0⟩ ⟨0, 0⟩ ⟨0, 0⟩ ⟨0, 0⟩).2.2.2.2.2.1 (by simp)
  have hrows := (bounds_sound 64 64 64 0 0 0 16 8 4 0 .device ⟨0, 0, 0⟩ ⟨0, 0, 0⟩ ⟨0, 0, 0⟩
    ⟨0, 0, 0⟩ ⟨0, 0⟩ ⟨0, 0⟩ ⟨0, 0⟩ ⟨0, 0⟩).2.2.2.2.2.1 (by simp)
  refine ⟨hrange.1.mpr ?_, hrows.2.mpr ?_⟩
  · exact Or.inr (Or.inr (by decide))
  · exact Or.inr (by decide)

/-- Commands that are let through: a range whose sum wraps to 8, rows 64 bytes apart in a
buffer of 64, a range from the middle of an allocation, rows whose bytes are 2 ^ 64, and a
region of an image whose sum wraps to 8. -/
theorem bounds_sound_fails :
    ¬ Sound (bounds (.value 64) 0xfffffffffffffff8 16) (.run 0xfffffffffffffff8 16) 64 ∧
    ¬ Sound (checkReadRect (.value 64) ⟨0, 0, 0⟩ ⟨4, 2, 1⟩ ⟨64, 0⟩ ⟨0, 0⟩)
      (rectBox ⟨0, 0, 0⟩ ⟨4, 2, 1⟩ ⟨64, 0⟩) 64 ∧
    ¬ Sound (boundsUSM (.value ()) (.value .device) (.value 64) 0 48) (.run (32 + 0) 48) 64 ∧
    ¬ Sound (bounds2D (.value ()) (.value .device) (.value 64) 0x8000000000000000 2)
      (box2D 0 0x8000000000000000 1 2) 64 ∧
    ¬ (boundsImage (.value 16) (.value 0) (.value 0) ⟨0xfffffffffffffff8, 0, 0⟩ ⟨16, 1, 1⟩ =
        .success → PixelsInside 16 0 0 ⟨0xfffffffffffffff8, 0, 0⟩ ⟨16, 1, 1⟩) := by
  refine ⟨?_, ?_, ?_, ?_, ?_⟩
  · exact fun h => absurd (sound_bounds_iff.mp h) (by decide)
  · exact fun h => absurd (sound_readRect_iff.mp h) (by decide)
  · exact fun h => absurd ((@sound_usm_iff 64 0 48 .device 32 (by simp)).mp h) (by decide)
  · exact fun h => absurd ((sound_2d_iff (by simp)).mp h) (by decide)
  · exact fun h => absurd (pixelsInside_iff.mp h) (by decide)

end UnifiedRuntime.Validation.Bounds
