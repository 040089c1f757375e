import UnifiedRuntime.Lib.StridedBox

/-!
# Regions of a rectangular copy

`ur2zeRegionParams` turns origins, region and pitches of 64 bits into the copy regions and
pitches of Level Zero, which have 32 bits. `ur_cast` checks with an `assert` that it loses
nothing, and a build without assertions cuts the value off. A row pitch is assigned to a
`uint32_t` without the cast, and a slice pitch is cut off where it is handed to the driver.
`enqueueCommandBufferMemCopyRectHelper` has the translation a second time.

Offsets are counted from the pointer of either side, without bound.

- `ur2zeRegionParams_defined`: only a coordinate is ever refused, by an assertion.
- `commandBuffer_same`: the second translation is the same.
- `regionParams_iff`: when the translation addresses the bytes of the rectangle.
-/

namespace UnifiedRuntime.LevelZero.RegionParams

/-! ## Data -/

/-- `ur_rect_offset_t`. -/
structure RectOffset where
  x : UInt64
  y : UInt64
  z : UInt64

/-- `ur_rect_region_t`. -/
structure RectRegion where
  width : UInt64
  height : UInt64
  depth : UInt64

/-- The arguments of a rectangular copy. -/
structure RectCopy where
  srcOrigin : RectOffset
  dstOrigin : RectOffset
  region : RectRegion
  srcRowPitch : UInt64
  dstRowPitch : UInt64
  srcSlicePitch : UInt64
  dstSlicePitch : UInt64

/-- `ze_copy_region_t`. -/
structure ZeCopyRegion where
  originX : UInt32
  originY : UInt32
  originZ : UInt32
  width : UInt32
  height : UInt32
  depth : UInt32

/-- `ze_region_params`; the pitches are `size_t`. -/
structure ZeRegionParams where
  dstRegion : ZeCopyRegion
  dstPitch : UInt64
  dstSlicePitch : UInt64
  srcRegion : ZeCopyRegion
  srcPitch : UInt64
  srcSlicePitch : UInt64

/-- The regions and pitches that `zeCommandListAppendMemoryCopyRegion` takes. -/
structure CopyRegion where
  dstRegion : ZeCopyRegion
  dstPitch : UInt32
  dstSlicePitch : UInt32
  srcRegion : ZeCopyRegion
  srcPitch : UInt32
  srcSlicePitch : UInt32

/-! ## The translation -/

/-- `ur_cast<uint32_t>`; nothing is returned where its assertion fails. -/
def urCast (asserts : Bool) (value : UInt64) : Option UInt32 :=
  if asserts && !decide (value.toNat < 2 ^ 32) then none else some value.toUInt32

/-- `uint32_t SrcPitch = SrcRowPitch; if (SrcPitch == 0) SrcPitch = ..` -/
def rowPitch (asserts : Bool) (pitch : UInt64) (region : RectRegion) : Option UInt32 :=
  if pitch.toUInt32 = 0 then urCast asserts region.width else some pitch.toUInt32

/-- `if (SrcSlicePitch == 0) SrcSlicePitch = ..`, a product of 32 bits. -/
def slicePitch (asserts : Bool) (pitch : UInt64) (region : RectRegion) (row : UInt32) :
    Option UInt64 :=
  if pitch = 0 then (urCast asserts region.height).map fun height => (height * row).toUInt64
  else some pitch

def ur2zeRegionParams (asserts : Bool) (r : RectCopy) : Option ZeRegionParams := do
  let srcOriginX ← urCast asserts r.srcOrigin.x
  let srcOriginY ← urCast asserts r.srcOrigin.y
  let srcOriginZ ← urCast asserts r.srcOrigin.z
  let srcPitch ← rowPitch asserts r.srcRowPitch r.region
  let srcSlicePitch ← slicePitch asserts r.srcSlicePitch r.region srcPitch
  let dstOriginX ← urCast asserts r.dstOrigin.x
  let dstOriginY ← urCast asserts r.dstOrigin.y
  let dstOriginZ ← urCast asserts r.dstOrigin.z
  let dstPitch ← rowPitch asserts r.dstRowPitch r.region
  let dstSlicePitch ← slicePitch asserts r.dstSlicePitch r.region dstPitch
  let width ← urCast asserts r.region.width
  let height ← urCast asserts r.region.height
  let depth ← urCast asserts r.region.depth
  pure {
    dstRegion := ⟨dstOriginX, dstOriginY, dstOriginZ, width, height, depth⟩
    dstPitch := dstPitch.toUInt64
    dstSlicePitch := dstSlicePitch
    srcRegion := ⟨srcOriginX, srcOriginY, srcOriginZ, width, height, depth⟩
    srcPitch := srcPitch.toUInt64
    srcSlicePitch := srcSlicePitch }

/-- The call that the queues make with the result. -/
def ZeRegionParams.append (p : ZeRegionParams) : CopyRegion where
  dstRegion := p.dstRegion
  dstPitch := p.dstPitch.toUInt32
  dstSlicePitch := p.dstSlicePitch.toUInt32
  srcRegion := p.srcRegion
  srcPitch := p.srcPitch.toUInt32
  srcSlicePitch := p.srcSlicePitch.toUInt32

/-- `enqueueCommandBufferMemCopyRectHelper`, with the answer of `createSyncPointAndGetZeEvents`,
up to the call. -/
def enqueueCommandBufferMemCopyRectHelper (asserts : Bool) (syncPoint : Except Nat Unit)
    (r : RectCopy) : Option (Except Nat CopyRegion) := do
  let srcOriginX ← urCast asserts r.srcOrigin.x
  let srcOriginY ← urCast asserts r.srcOrigin.y
  let srcOriginZ ← urCast asserts r.srcOrigin.z
  let srcPitch ← rowPitch asserts r.srcRowPitch r.region
  let srcSlicePitch ← slicePitch asserts r.srcSlicePitch r.region srcPitch
  let dstOriginX ← urCast asserts r.dstOrigin.x
  let dstOriginY ← urCast asserts r.dstOrigin.y
  let dstOriginZ ← urCast asserts r.dstOrigin.z
  let dstPitch ← rowPitch asserts r.dstRowPitch r.region
  let dstSlicePitch ← slicePitch asserts r.dstSlicePitch r.region dstPitch
  let width ← urCast asserts r.region.width
  let height ← urCast asserts r.region.height
  let depth ← urCast asserts r.region.depth
  let zeSrcRegion : ZeCopyRegion := ⟨srcOriginX, srcOriginY, srcOriginZ, width, height, depth⟩
  let zeDstRegion : ZeCopyRegion := ⟨dstOriginX, dstOriginY, dstOriginZ, width, height, depth⟩
  pure (syncPoint.map fun _ =>
    ⟨zeDstRegion, dstPitch, dstSlicePitch.toUInt32, zeSrcRegion, srcPitch, srcSlicePitch.toUInt32⟩)

/-! ## The bytes of a side -/

/-- The pitch of rows and of slices, with the defaults of the region. -/
def row (pitch : UInt64) (region : RectRegion) : Nat :=
  if pitch = 0 then region.width.toNat else pitch.toNat

def slice (pitch slicePitch : UInt64) (region : RectRegion) : Nat :=
  if slicePitch = 0 then region.height.toNat * row pitch region else slicePitch.toNat

/-- The rectangle of one side. -/
def urBox (origin : RectOffset) (region : RectRegion) (pitch slicePitch : UInt64) : StridedBox where
  start := origin.z.toNat * slice pitch slicePitch region +
    origin.y.toNat * row pitch region + origin.x.toNat
  width := region.width.toNat
  height := region.height.toNat
  depth := region.depth.toNat
  row := row pitch region
  slice := slice pitch slicePitch region

/-- What the driver addresses. -/
def zeBox (region : ZeCopyRegion) (pitch slicePitch : UInt32) : StridedBox where
  start := region.originZ.toNat * slicePitch.toNat + region.originY.toNat * pitch.toNat +
    region.originX.toNat
  width := region.width.toNat
  height := region.height.toNat
  depth := region.depth.toNat
  row := pitch.toNat
  slice := slicePitch.toNat

/-- **Every coordinate and pitch of a side has its value.** -/
structure Keeps (origin : RectOffset) (region : RectRegion) (pitch slicePitch : UInt64)
    (zeRegion : ZeCopyRegion) (zePitch zeSlicePitch : UInt32) : Prop where
  x : zeRegion.originX.toNat = origin.x.toNat
  y : zeRegion.originY.toNat = origin.y.toNat
  z : zeRegion.originZ.toNat = origin.z.toNat
  width : zeRegion.width.toNat = region.width.toNat
  height : zeRegion.height.toNat = region.height.toNat
  depth : zeRegion.depth.toNat = region.depth.toNat
  row : zePitch.toNat = row pitch region
  slice : zeSlicePitch.toNat = slice pitch slicePitch region

/-- The bytes are then those of the rectangle. -/
theorem Keeps.zeBox_eq {origin : RectOffset} {region : RectRegion} {pitch slicePitch : UInt64}
    {zeRegion : ZeCopyRegion} {zePitch zeSlicePitch : UInt32}
    (h : Keeps origin region pitch slicePitch zeRegion zePitch zeSlicePitch) :
    zeBox zeRegion zePitch zeSlicePitch = urBox origin region pitch slicePitch := by
  unfold zeBox urBox
  rw [h.x, h.y, h.z, h.width, h.height, h.depth, h.row, h.slice]

/-! ## Values that fit -/

/-- The coordinates of both sides fit into 32 bits. -/
def CoordinatesFit (r : RectCopy) : Prop :=
  (r.srcOrigin.x.toNat < 2 ^ 32 ∧ r.srcOrigin.y.toNat < 2 ^ 32 ∧ r.srcOrigin.z.toNat < 2 ^ 32) ∧
    (r.dstOrigin.x.toNat < 2 ^ 32 ∧ r.dstOrigin.y.toNat < 2 ^ 32 ∧ r.dstOrigin.z.toNat < 2 ^ 32) ∧
      r.region.width.toNat < 2 ^ 32 ∧ r.region.height.toNat < 2 ^ 32 ∧
        r.region.depth.toNat < 2 ^ 32

/-- So do the pitches, given or by default. -/
def PitchesFit (r : RectCopy) : Prop :=
  (row r.srcRowPitch r.region < 2 ^ 32 ∧ slice r.srcRowPitch r.srcSlicePitch r.region < 2 ^ 32) ∧
    row r.dstRowPitch r.region < 2 ^ 32 ∧ slice r.dstRowPitch r.dstSlicePitch r.region < 2 ^ 32

variable {asserts : Bool} {r : RectCopy} {p : ZeRegionParams} {v w : UInt64}

theorem toUInt32_toNat (h : v.toNat < 2 ^ 32) : v.toUInt32.toNat = v.toNat := by
  exact Nat.mod_eq_of_lt h

theorem urCast_of_lt (h : v.toNat < 2 ^ 32) : urCast asserts v = some v.toUInt32 := by
  unfold urCast
  rw [decide_eq_true h, Bool.not_true, Bool.and_false]
  rfl

theorem urCast_some {c : UInt32} (h : urCast true v = some c) : v.toNat < 2 ^ 32 := by
  unfold urCast at h
  by_cases hlt : v.toNat < 2 ^ 32
  · exact hlt
  · rw [decide_eq_false hlt] at h
    cases h

/-- A pitch that fits is used as it is, or replaced by the width. -/
theorem rowPitch_of_lt {region : RectRegion} (hwidth : region.width.toNat < 2 ^ 32)
    (h : row v region < 2 ^ 32) :
    ∃ c, rowPitch asserts v region = some c ∧ c.toNat = row v region := by
  unfold rowPitch
  unfold row at h ⊢
  by_cases hzero : v = 0
  · have hcut : v.toUInt32 = 0 := congrArg UInt64.toUInt32 hzero
    rw [if_pos hcut, if_pos hzero, urCast_of_lt hwidth]
    exact ⟨_, rfl, toUInt32_toNat hwidth⟩
  · rw [if_neg hzero] at h ⊢
    have hne : v.toUInt32 ≠ 0 := fun hcut =>
      hzero (UInt64.toNat.inj ((toUInt32_toNat h).symm.trans (congrArg UInt32.toNat hcut)))
    rw [if_neg hne]
    exact ⟨_, rfl, toUInt32_toNat h⟩

theorem slicePitch_of_lt {region : RectRegion} {c : UInt32}
    (hheight : region.height.toNat < 2 ^ 32) (hc : c.toNat = row v region)
    (h : slice v w region < 2 ^ 32) :
    ∃ s, slicePitch asserts w region c = some s ∧ s.toUInt32.toNat = slice v w region := by
  unfold slicePitch
  unfold slice at h ⊢
  by_cases hzero : w = 0
  · rw [if_pos hzero] at h ⊢
    rw [if_pos hzero, urCast_of_lt hheight]
    refine ⟨_, rfl, ?_⟩
    show ((region.height.toUInt32 * c).toUInt64).toUInt32.toNat = _
    rw [UInt32.toUInt32_toUInt64, UInt32.toNat_mul, toUInt32_toNat hheight, hc]
    exact Nat.mod_eq_of_lt h
  · rw [if_neg hzero] at h ⊢
    rw [if_neg hzero]
    exact ⟨_, rfl, toUInt32_toNat h⟩

/-! ## The translation as a whole -/

/-- Where assertions are compiled in, a translation is returned for coordinates that fit. -/
theorem coordinatesFit_of_some (h : ur2zeRegionParams true r = some p) : CoordinatesFit r := by
  obtain ⟨_, hsx, h⟩ := Option.bind_eq_some_iff.mp h
  obtain ⟨_, hsy, h⟩ := Option.bind_eq_some_iff.mp h
  obtain ⟨_, hsz, h⟩ := Option.bind_eq_some_iff.mp h
  obtain ⟨_, -, h⟩ := Option.bind_eq_some_iff.mp h
  obtain ⟨_, -, h⟩ := Option.bind_eq_some_iff.mp h
  obtain ⟨_, hdx, h⟩ := Option.bind_eq_some_iff.mp h
  obtain ⟨_, hdy, h⟩ := Option.bind_eq_some_iff.mp h
  obtain ⟨_, hdz, h⟩ := Option.bind_eq_some_iff.mp h
  obtain ⟨_, -, h⟩ := Option.bind_eq_some_iff.mp h
  obtain ⟨_, -, h⟩ := Option.bind_eq_some_iff.mp h
  obtain ⟨_, hw, h⟩ := Option.bind_eq_some_iff.mp h
  obtain ⟨_, hh, h⟩ := Option.bind_eq_some_iff.mp h
  obtain ⟨_, hd, h⟩ := Option.bind_eq_some_iff.mp h
  exact ⟨⟨urCast_some hsx, urCast_some hsy, urCast_some hsz⟩,
    ⟨urCast_some hdx, urCast_some hdy, urCast_some hdz⟩,
    urCast_some hw, urCast_some hh, urCast_some hd⟩

/-- The coordinates as they are cast, with pitches. -/
def castParams (r : RectCopy) (srcRow dstRow : UInt32) (srcSlice dstSlice : UInt64) :
    ZeRegionParams where
  dstRegion := ⟨r.dstOrigin.x.toUInt32, r.dstOrigin.y.toUInt32, r.dstOrigin.z.toUInt32,
    r.region.width.toUInt32, r.region.height.toUInt32, r.region.depth.toUInt32⟩
  dstPitch := dstRow.toUInt64
  dstSlicePitch := dstSlice
  srcRegion := ⟨r.srcOrigin.x.toUInt32, r.srcOrigin.y.toUInt32, r.srcOrigin.z.toUInt32,
    r.region.width.toUInt32, r.region.height.toUInt32, r.region.depth.toUInt32⟩
  srcPitch := srcRow.toUInt64
  srcSlicePitch := srcSlice

/-- Where no cast and no pitch fails, this is the translation. -/
theorem ur2zeRegionParams_some {srcRow dstRow : UInt32} {srcSlice dstSlice : UInt64}
    (hcast : asserts = false ∨ CoordinatesFit r)
    (hsr : rowPitch asserts r.srcRowPitch r.region = some srcRow)
    (hss : slicePitch asserts r.srcSlicePitch r.region srcRow = some srcSlice)
    (hdr : rowPitch asserts r.dstRowPitch r.region = some dstRow)
    (hds : slicePitch asserts r.dstSlicePitch r.region dstRow = some dstSlice) :
    ur2zeRegionParams asserts r = some (castParams r srcRow dstRow srcSlice dstSlice) := by
  have hval : ∀ v : UInt64, (CoordinatesFit r → v.toNat < 2 ^ 32) →
      urCast asserts v = some v.toUInt32 := by
    intro v hv
    rcases hcast with rfl | hfit
    · rfl
    · exact urCast_of_lt (hv hfit)
  unfold ur2zeRegionParams
  rw [hval r.srcOrigin.x fun h => h.1.1, hval r.srcOrigin.y fun h => h.1.2.1,
    hval r.srcOrigin.z fun h => h.1.2.2, hval r.dstOrigin.x fun h => h.2.1.1,
    hval r.dstOrigin.y fun h => h.2.1.2.1, hval r.dstOrigin.z fun h => h.2.1.2.2,
    hval r.region.width fun h => h.2.2.1, hval r.region.height fun h => h.2.2.2.1,
    hval r.region.depth fun h => h.2.2.2.2, hsr, hdr]
  simp only [Option.bind_eq_bind, Option.bind_some, hss, hds]
  rfl

/-- **Only a coordinate that does not fit is noticed**, and only by an assertion. -/
theorem ur2zeRegionParams_defined (hcast : asserts = false ∨ CoordinatesFit r) :
    ∃ p, ur2zeRegionParams asserts r = some p := by
  have hval : ∀ v : UInt64, (CoordinatesFit r → v.toNat < 2 ^ 32) →
      urCast asserts v = some v.toUInt32 := by
    intro v hv
    rcases hcast with rfl | hfit
    · rfl
    · exact urCast_of_lt (hv hfit)
  have hrow : ∀ v, ∃ c, rowPitch asserts v r.region = some c := by
    intro v
    unfold rowPitch
    split
    next => exact ⟨_, hval _ fun h => h.2.2.1⟩
    next => exact ⟨_, rfl⟩
  have hslice : ∀ v c, ∃ s, slicePitch asserts v r.region c = some s := by
    intro v c
    unfold slicePitch
    split
    next => exact ⟨_, congrArg (Option.map _) (hval _ fun h => h.2.2.2.1)⟩
    next => exact ⟨_, rfl⟩
  obtain ⟨srcRow, hsr⟩ := hrow r.srcRowPitch
  obtain ⟨srcSlice, hss⟩ := hslice r.srcSlicePitch srcRow
  obtain ⟨dstRow, hdr⟩ := hrow r.dstRowPitch
  obtain ⟨dstSlice, hds⟩ := hslice r.dstSlicePitch dstRow
  exact ⟨_, ur2zeRegionParams_some hcast hsr hss hdr hds⟩

/-- Both sides keep their values. -/
def Exact (r : RectCopy) (c : CopyRegion) : Prop :=
  Keeps r.srcOrigin r.region r.srcRowPitch r.srcSlicePitch c.srcRegion c.srcPitch c.srcSlicePitch ∧
    Keeps r.dstOrigin r.region r.dstRowPitch r.dstSlicePitch c.dstRegion c.dstPitch c.dstSlicePitch

/-- **Values that fit are kept.** -/
theorem exact_of_fits (hcoords : CoordinatesFit r) (hpitches : PitchesFit r) :
    ∃ p, ur2zeRegionParams asserts r = some p ∧ Exact r p.append := by
  have hfit := hcoords
  obtain ⟨⟨hsx, hsy, hsz⟩, ⟨hdx, hdy, hdz⟩, hw, hh, hd⟩ := hcoords
  obtain ⟨⟨hsrcRow, hsrcSlice⟩, hdstRow, hdstSlice⟩ := hpitches
  obtain ⟨srcRow, hsr, hsrNat⟩ := @rowPitch_of_lt asserts _ _ hw hsrcRow
  obtain ⟨srcSlice, hss, hssNat⟩ := @slicePitch_of_lt asserts _ _ _ _ hh hsrNat hsrcSlice
  obtain ⟨dstRow, hdr, hdrNat⟩ := @rowPitch_of_lt asserts _ _ hw hdstRow
  obtain ⟨dstSlice, hds, hdsNat⟩ := @slicePitch_of_lt asserts _ _ _ _ hh hdrNat hdstSlice
  refine ⟨_, ur2zeRegionParams_some (Or.inr hfit) hsr hss hdr hds, ?_, ?_⟩
  · exact ⟨toUInt32_toNat hsx, toUInt32_toNat hsy, toUInt32_toNat hsz, toUInt32_toNat hw,
      toUInt32_toNat hh, toUInt32_toNat hd,
      (congrArg UInt32.toNat (UInt32.toUInt32_toUInt64 srcRow)).trans hsrNat, hssNat⟩
  · exact ⟨toUInt32_toNat hdx, toUInt32_toNat hdy, toUInt32_toNat hdz, toUInt32_toNat hw,
      toUInt32_toNat hh, toUInt32_toNat hd,
      (congrArg UInt32.toNat (UInt32.toUInt32_toUInt64 dstRow)).trans hdrNat, hdsNat⟩

theorem bind_map_step {α β γ : Type} {x : Option α} {f : α → Option γ} {g : α → Option β}
    {k : β → γ} (h : ∀ a, f a = (g a).map k) : (x >>= f) = (x >>= g).map k := by
  cases x with
  | none => rfl
  | some a => exact h a

/-- **The translation of a command buffer is the same.** -/
theorem commandBuffer_same (asserts : Bool) (syncPoint : Except Nat Unit) (r : RectCopy) :
    enqueueCommandBufferMemCopyRectHelper asserts syncPoint r =
      (ur2zeRegionParams asserts r).map fun p => syncPoint.map fun _ => p.append := by
  iterate 13 refine bind_map_step fun _ => ?_
  simp [ZeRegionParams.append]

/-- **The translation is right**: what it returns keeps every value and so addresses the bytes of
the rectangle, what does not fit is refused, and the second translation is the same. -/
structure Translates (asserts : Bool) (r : RectCopy) : Prop where
  exact : ∀ p, ur2zeRegionParams asserts r = some p → Exact r p.append
  srcBytes : ∀ p, ur2zeRegionParams asserts r = some p → ∀ a,
    (zeBox p.append.srcRegion p.append.srcPitch p.append.srcSlicePitch).Cell a ↔
      (urBox r.srcOrigin r.region r.srcRowPitch r.srcSlicePitch).Cell a
  dstBytes : ∀ p, ur2zeRegionParams asserts r = some p → ∀ a,
    (zeBox p.append.dstRegion p.append.dstPitch p.append.dstSlicePitch).Cell a ↔
      (urBox r.dstOrigin r.region r.dstRowPitch r.dstSlicePitch).Cell a
  refuses : ¬ (CoordinatesFit r ∧ PitchesFit r) → ur2zeRegionParams asserts r = none
  accepts : CoordinatesFit r ∧ PitchesFit r → ∃ p, ur2zeRegionParams asserts r = some p
  same : ∀ syncPoint, enqueueCommandBufferMemCopyRectHelper asserts syncPoint r =
    (ur2zeRegionParams asserts r).map fun p => syncPoint.map fun _ => p.append

theorem translates_of_fits (hcoords : CoordinatesFit r) (hpitches : PitchesFit r) :
    Translates asserts r := by
  obtain ⟨p, hp, hexact⟩ := @exact_of_fits asserts r hcoords hpitches
  have heq : ∀ p', ur2zeRegionParams asserts r = some p' → p = p' := fun p' hp' =>
    Option.some.inj (hp.symm.trans hp')
  refine ⟨fun p' hp' => ?_, fun p' hp' a => ?_, fun p' hp' a => ?_,
    fun h => absurd ⟨hcoords, hpitches⟩ h, fun _ => ⟨p, hp⟩,
    fun syncPoint => commandBuffer_same asserts syncPoint r⟩
  · rw [← heq p' hp']
    exact hexact
  · rw [← heq p' hp', hexact.1.zeBox_eq]
  · rw [← heq p' hp', hexact.2.zeBox_eq]

theorem translates_of_none (hnone : ur2zeRegionParams asserts r = none)
    (hnot : ¬ (CoordinatesFit r ∧ PitchesFit r)) : Translates asserts r := by
  refine ⟨fun p hp => ?_, fun p hp => ?_, fun p hp => ?_, fun _ => hnone,
    fun h => absurd h hnot, fun syncPoint => commandBuffer_same asserts syncPoint r⟩
  · cases hnone.symm.trans hp
  · cases hnone.symm.trans hp
  · cases hnone.symm.trans hp

/-- **The translation of a rectangle, exactly.** It is right just if all coordinates and pitches
fit into 32 bits, or a coordinate does not and the assertions are compiled in. -/
theorem regionParams_iff (asserts : Bool) (r : RectCopy) :
    Translates asserts r ↔
      CoordinatesFit r ∧ PitchesFit r ∨ asserts = true ∧ ¬ CoordinatesFit r := by
  constructor
  · intro h
    by_cases hfit : CoordinatesFit r ∧ PitchesFit r
    · exact Or.inl hfit
    · have hnone := h.refuses hfit
      have hstopped : ¬ (asserts = false ∨ CoordinatesFit r) := fun hcast => by
        obtain ⟨p, hp⟩ := ur2zeRegionParams_defined hcast
        cases hnone.symm.trans hp
      rw [not_or, Bool.not_eq_false] at hstopped
      exact Or.inr hstopped
  · rintro (⟨hcoords, hpitches⟩ | ⟨rfl, hcoords⟩)
    · exact translates_of_fits hcoords hpitches
    · refine translates_of_none ?_ fun h => hcoords h.1
      cases hout : ur2zeRegionParams true r with
      | none => rfl
      | some p => exact absurd (coordinatesFit_of_some hout) hcoords

/-- A row pitch beyond 32 bits is cut off in every build, and so is a product of height and
width; a coordinate is cut off where assertions are left out. -/
theorem regionParams_cut :
    ¬ Translates true ⟨⟨0, 0, 0⟩, ⟨0, 0, 0⟩, ⟨16, 2, 1⟩, 0x100000010, 16, 0x200000020, 32⟩ ∧
      ¬ Translates true ⟨⟨0, 0, 0⟩, ⟨0, 0, 0⟩, ⟨65536, 65536, 2⟩, 0, 0, 0, 0⟩ ∧
      ¬ Translates false ⟨⟨0x100000000, 0, 0⟩, ⟨0, 0, 0⟩, ⟨16, 2, 1⟩, 16, 16, 32, 32⟩ := by
  refine ⟨fun h => ?_, fun h => ?_, fun h => ?_⟩
  · exact absurd (h.exact _ rfl).1.row (by decide)
  · exact absurd (h.exact _ rfl).1.slice (by decide)
  · exact absurd (h.exact _ rfl).1.x (by decide)

end UnifiedRuntime.LevelZero.RegionParams
