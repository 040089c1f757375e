import UnifiedRuntime.LevelZero.RegionParams

/-!
# Rectangular copies of the native CPU adapter

Every byte of the region is copied by itself, and its offset computed anew. A pitch of 0 stands for
rows, or slices, without gaps.

- `impl_eq`: the bytes that are copied, where both sides lie in memory.
-/

namespace UnifiedRuntime.NativeCpu

open LevelZero.RegionParams (RectOffset RectRegion urBox row slice)

/-! ## The functions -/

/-- The offset and the pitches of one side. -/
structure RectSide where
  offset : RectOffset
  rowPitch : UInt64
  slicePitch : UInt64

/-- `if (BufferRowPitch == 0) BufferRowPitch = region.width;` and the same for the host. -/
def rowPitch (region : RectRegion) (s : RectSide) : UInt64 :=
  if s.rowPitch = 0 then region.width else s.rowPitch

/-- `if (BufferSlicePitch == 0) BufferSlicePitch = BufferRowPitch * region.height;` and the same for
the host. -/
def slicePitch (region : RectRegion) (s : RectSide) : UInt64 :=
  if s.slicePitch = 0 then rowPitch region s * region.height else s.slicePitch

/-- `buff_orign` and `host_origin`. -/
def rectOrigin (region : RectRegion) (s : RectSide) (w h d : UInt64) : UInt64 :=
  (d + s.offset.z) * slicePitch region s + (h + s.offset.y) * rowPitch region s + w + s.offset.x

/-- The places of a region, in the order of the loops. -/
def places (region : RectRegion) : List (Nat × Nat × Nat) :=
  (List.range region.width.toNat).flatMap fun w =>
    (List.range region.height.toNat).flatMap fun h =>
      (List.range region.depth.toNat).map fun d => (w, h, d)

/-- `enqueueMemBufferReadWriteRect_impl`: where each byte is read and where it is written. -/
def enqueueMemBufferReadWriteRectImpl (isRead : Bool) (region : RectRegion)
    (buffer host : RectSide) : List (UInt64 × UInt64) :=
  (places region).map fun c =>
    let buffOrign := rectOrigin region buffer (.ofNat c.1) (.ofNat c.2.1) (.ofNat c.2.2)
    let hostOrigin := rectOrigin region host (.ofNat c.1) (.ofNat c.2.1) (.ofNat c.2.2)
    if isRead then (buffOrign, hostOrigin) else (hostOrigin, buffOrign)

/-! ## Sides that lie in memory -/

namespace RectSide

/-- The rectangle of a side. -/
def box (s : RectSide) (region : RectRegion) : StridedBox :=
  urBox s.offset region s.rowPitch s.slicePitch

/-- **What is asked of a side**: the region is not empty, pitches are 0 or large enough, and the
rectangle lies in memory. -/
structure Valid (region : RectRegion) (s : RectSide) : Prop where
  width : 0 < region.width.toNat
  height : 0 < region.height.toNat
  depth : 0 < region.depth.toNat
  rowPitch : s.rowPitch = 0 ∨ region.width.toNat ≤ s.rowPitch.toNat
  slicePitch : s.slicePitch = 0 ∨ (s.box region).row * region.height.toNat ≤ s.slicePitch.toNat
  inMemory : (s.box region).extent < 2 ^ 64

variable {region : RectRegion} {s : RectSide}

theorem rowPitch_toNat (region : RectRegion) (s : RectSide) :
    (NativeCpu.rowPitch region s).toNat = (s.box region).row := by
  show _ = row s.rowPitch region
  unfold NativeCpu.rowPitch row
  split
  next => rfl
  next => rfl

namespace Valid

/-- The last byte is below the end of memory. -/
theorem bound (h : s.Valid region) :
    s.offset.z.toNat * (s.box region).slice + s.offset.y.toNat * (s.box region).row +
        s.offset.x.toNat + (region.depth.toNat - 1) * (s.box region).slice +
      (region.height.toNat - 1) * (s.box region).row + region.width.toNat < 2 ^ 64 := by
  have hin := h.inMemory
  have hw : (s.box region).width ≠ 0 := Nat.ne_of_gt h.width
  have hh : (s.box region).height ≠ 0 := Nat.ne_of_gt h.height
  have hd : (s.box region).depth ≠ 0 := Nat.ne_of_gt h.depth
  unfold StridedBox.extent at hin
  rw [if_neg] at hin
  · exact hin
  · intro hempty
    rcases hempty with hzero | hzero | hzero
    · exact hw hzero
    · exact hh hzero
    · exact hd hzero

theorem row_pos (h : s.Valid region) : 0 < (s.box region).row := by
  show 0 < row s.rowPitch region
  unfold row
  split
  next => exact h.width
  next hne => exact Nat.pos_of_ne_zero fun hzero => hne (UInt64.toNat_inj.mp hzero)

/-- Where there is another slice, or the first is not at 0, the slice pitch fits. -/
theorem slicePitch_toNat (h : s.Valid region)
    (hslices : 1 < region.depth.toNat ∨ 0 < s.offset.z.toNat) :
    (NativeCpu.slicePitch region s).toNat = (s.box region).slice := by
  have hbound := h.bound
  have hfits : (s.box region).slice < 2 ^ 64 := by
    have hle : 1 * (s.box region).slice ≤
        (s.offset.z.toNat + (region.depth.toNat - 1)) * (s.box region).slice :=
      Nat.mul_le_mul_right _ (by omega)
    rw [Nat.add_mul] at hle
    omega
  have hslice : (s.box region).slice = slice s.rowPitch s.slicePitch region := rfl
  have hrow : (s.box region).row = row s.rowPitch region := rfl
  rw [hslice] at hfits ⊢
  unfold NativeCpu.slicePitch
  unfold slice at hfits ⊢
  split
  next hzero =>
    rw [if_pos hzero] at hfits
    rw [UInt64.toNat_mul, rowPitch_toNat, hrow, Nat.mul_comm, Nat.mod_eq_of_lt hfits]
  next => rfl

/-- **The offset of a byte** is that of its place in the rectangle. -/
theorem rectOrigin_toNat (h : s.Valid region) {i j k : Nat} (hi : i < region.width.toNat)
    (hj : j < region.height.toNat) (hk : k < region.depth.toNat) :
    (rectOrigin region s (.ofNat i) (.ofNat j) (.ofNat k)).toNat = (s.box region).offset i j k := by
  have hlt : (s.box region).offset i j k < 2 ^ 64 :=
    Nat.lt_trans (StridedBox.offset_lt_extent hi hj hk) h.inMemory
  have hplace : (s.box region).offset i j k =
      (k + s.offset.z.toNat) * (s.box region).slice + (j + s.offset.y.toNat) * (s.box region).row +
        i + s.offset.x.toNat := by
    show s.offset.z.toNat * (s.box region).slice + s.offset.y.toNat * (s.box region).row +
      s.offset.x.toNat + k * (s.box region).slice + j * (s.box region).row + i = _
    rw [Nat.add_mul, Nat.add_mul]
    omega
  have hslice : (k + s.offset.z.toNat) * (NativeCpu.slicePitch region s).toNat =
      (k + s.offset.z.toNat) * (s.box region).slice := by
    rcases Nat.eq_zero_or_pos (k + s.offset.z.toNat) with hzero | hpos
    · rw [hzero, Nat.zero_mul, Nat.zero_mul]
    · rw [h.slicePitch_toNat (by omega)]
  have heq : rectOrigin region s (.ofNat i) (.ofNat j) (.ofNat k) =
      UInt64.ofNat ((k + s.offset.z.toNat) * (NativeCpu.slicePitch region s).toNat +
        (j + s.offset.y.toNat) * (NativeCpu.rowPitch region s).toNat + i + s.offset.x.toNat) := by
    simp [rectOrigin]
  rw [heq, hslice, rowPitch_toNat, ← hplace, UInt64.toNat_ofNat', Nat.mod_eq_of_lt hlt]

end Valid

end RectSide

/-- **What is copied**: each byte of the region, from its place to its place. -/
theorem impl_eq (isRead : Bool) {region : RectRegion} {src dst : RectSide}
    (hsrc : src.Valid region) (hdst : dst.Valid region) :
    (enqueueMemBufferReadWriteRectImpl isRead region (if isRead then src else dst)
      (if isRead then dst else src)).map (fun c => (c.1.toNat, c.2.toNat)) =
      (places region).map fun c => ((src.box region).offset c.1 c.2.1 c.2.2,
        (dst.box region).offset c.1 c.2.1 c.2.2) := by
  unfold enqueueMemBufferReadWriteRectImpl
  rw [List.map_map]
  refine List.map_congr_left fun c hc => ?_
  have hplace : c.1 < region.width.toNat ∧ c.2.1 < region.height.toNat ∧
      c.2.2 < region.depth.toNat := by
    obtain ⟨w, hw, hc⟩ := List.mem_flatMap.mp hc
    obtain ⟨h, hh, hc⟩ := List.mem_flatMap.mp hc
    obtain ⟨d, hd, rfl⟩ := List.mem_map.mp hc
    exact ⟨List.mem_range.mp hw, List.mem_range.mp hh, List.mem_range.mp hd⟩
  obtain ⟨hi, hj, hk⟩ := hplace
  have hs := hsrc.rectOrigin_toNat hi hj hk
  have hd := hdst.rectOrigin_toNat hi hj hk
  cases isRead with
  | true => exact Prod.ext hs hd
  | false => exact Prod.ext hs hd

end UnifiedRuntime.NativeCpu
