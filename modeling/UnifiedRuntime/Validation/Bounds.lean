import UnifiedRuntime.Lib.StridedBox

/-!
# Bounds checks of the validation layer

`ur_validation_layer.cpp` checks ranges of buffers, rectangles in buffers, ranges from a
USM pointer and regions of images against the sizes that the adapter reports. All of it
is arithmetic on `size_t`. The commands call the checks after checks of their own, for
rectangles of the row and slice pitches, which the bounds check is not given.
-/

namespace UnifiedRuntime.Validation.Bounds

/-! ## Queries and results -/

/-- What a query of the adapter comes back with. -/
inductive Query (α : Type) where
  | value (a : α)
  | unsupported
  | failed (code : Nat)

inductive Result where
  | success
  | invalidSize
  /-- A query's failure, which is passed on. -/
  | failed (code : Nat)

/-- `RETURN_ON_FAILURE`: where an adapter does not support the query nothing is checked. -/
def Query.andThen {α : Type} (q : Query α) (check : α → Result) : Result :=
  match q with
  | .value a => check a
  | .unsupported => .success
  | .failed code => .failed code

/-- `ur_rect_offset_t`. -/
structure RectOffset where
  x : UInt64
  y : UInt64
  z : UInt64

/-- `ur_rect_region_t`. -/
structure RectRegion where
  width : UInt64
  height : UInt64
  depth : UInt64

/-- `ur_usm_type_t`. -/
inductive UsmType where
  | unknown
  | host
  | device
  | shared
deriving DecidableEq

/-! ## The checks -/

/-- `bounds(buffer, offset, size)`. -/
def bounds (bufferSize : Query UInt64) (offset size : UInt64) : Result :=
  bufferSize.andThen fun bufferSize =>
    if size + offset > bufferSize then .invalidSize else .success

/-- `bounds(buffer, offset, region)`. -/
def boundsRect (bufferSize : Query UInt64) (offset : RectOffset) (region : RectRegion) : Result :=
  bufferSize.andThen fun bufferSize =>
    if offset.x ≥ bufferSize ∨ offset.y ≥ bufferSize ∨ offset.z ≥ bufferSize then .invalidSize
    else if (region.width + offset.x) * (region.height + offset.y) * (region.depth + offset.z) >
        bufferSize then .invalidSize
    else .success

/-- `bounds(queue, ptr, offset, size)`. The queries are of the queue's context and of the
type and the size of the allocation that the pointer is in. -/
def boundsUSM (context : Query Unit) (usmType : Query UsmType) (allocSize : Query UInt64)
    (offset size : UInt64) : Result :=
  context.andThen fun _ => usmType.andThen fun usmType =>
    if usmType = .unknown then .success
    else
      allocSize.andThen fun allocSize =>
        if size + offset > allocSize then .invalidSize else .success

/-- What stands for a height or depth of 0. -/
def orOne (n : UInt64) : UInt64 := if n = 0 then 1 else n

/-- `boundsImage`. -/
def boundsImage (width height depth : Query UInt64) (origin : RectOffset) (region : RectRegion) :
    Result :=
  width.andThen fun width =>
    if region.width + origin.x > width then .invalidSize
    else
      height.andThen fun height =>
        if region.height + origin.y > orOne height then .invalidSize
        else
          depth.andThen fun depth =>
            if region.depth + origin.z > orOne depth then .invalidSize else .success

/-! ## The commands' own checks of sizes -/

/-- The pitches of one side of a rectangle command. -/
structure Pitches where
  rowPitch : UInt64
  slicePitch : UInt64

/-- What a row pitch of 0 stands for. -/
def Pitches.row (p : Pitches) (region : RectRegion) : UInt64 :=
  if p.rowPitch ≠ 0 then p.rowPitch else region.width

/-- What a slice pitch of 0 stands for. -/
def Pitches.slice (p : Pitches) (region : RectRegion) : Nat :=
  if p.slicePitch ≠ 0 then p.slicePitch.toNat else region.height.toNat * (p.row region).toNat

/-- The checks of one side's pitches. -/
def Pitches.accepted (p : Pitches) (region : RectRegion) : Bool :=
  !(p.rowPitch != 0 && decide (p.rowPitch < region.width)) &&
  !(p.slicePitch != 0 && decide (p.slicePitch < region.height * p.row region)) &&
  !(p.slicePitch != 0 && p.slicePitch % p.row region != 0)

/-- `urEnqueueMemBufferReadRect` and `WriteRect`, up to the bounds check. The width is tested
twice and the depth not at all. -/
def readRectSizes (buffer host : Pitches) (region : RectRegion) : Bool :=
  !(region.width == 0 || region.height == 0 || region.width == 0) &&
  buffer.accepted region && host.accepted region

/-- `urEnqueueMemBufferCopyRect`, up to the bounds checks. -/
def copyRectSizes (src dst : Pitches) (region : RectRegion) : Bool :=
  !(region.width == 0 || region.height == 0 || region.depth == 0) &&
  src.accepted region && dst.accepted region

/-- `urEnqueueMemBufferReadRect` and `WriteRect`, as far as sizes go. -/
def checkReadRect (bufferSize : Query UInt64) (bufferOrigin : RectOffset) (region : RectRegion)
    (buffer host : Pitches) : Result :=
  if !readRectSizes buffer host region then .invalidSize
  else boundsRect bufferSize bufferOrigin region

/-- `urEnqueueMemBufferCopyRect`, as far as sizes go. -/
def checkCopyRect (srcSize dstSize : Query UInt64) (srcOrigin dstOrigin : RectOffset)
    (region : RectRegion) (src dst : Pitches) : Result :=
  if !copyRectSizes src dst region then .invalidSize
  else
    match boundsRect srcSize srcOrigin region with
    | .success => boundsRect dstSize dstOrigin region
    | r => r

/-- The bounds check of one side of a 2D command. -/
def bounds2D (context : Query Unit) (usmType : Query UsmType) (allocSize : Query UInt64)
    (pitch height : UInt64) : Result :=
  boundsUSM context usmType allocSize 0 (pitch * height)

/-! ## What the commands address -/

/-- The bytes of a rectangle in a buffer. -/
def rectBox (offset : RectOffset) (region : RectRegion) (p : Pitches) : StridedBox where
  start := offset.z.toNat * p.slice region + offset.y.toNat * (p.row region).toNat +
    offset.x.toNat
  width := region.width.toNat
  height := region.height.toNat
  depth := region.depth.toNat
  row := (p.row region).toNat
  slice := p.slice region

/-- The bytes of a 2D command on a pointer that is `pos` into its allocation. -/
def box2D (pos pitch width height : UInt64) : StridedBox :=
  ⟨pos.toNat, width.toNat, height.toNat, 1, pitch.toNat, 0⟩

/-- The pixels of a region of an image lie in the image. -/
def PixelsInside (width height depth : UInt64) (origin : RectOffset) (region : RectRegion) : Prop :=
  ∀ i j k, i < region.width.toNat → j < region.height.toNat → k < region.depth.toNat →
    origin.x.toNat + i < width.toNat ∧ origin.y.toNat + j < (orOne height).toNat ∧
      origin.z.toNat + k < (orOne depth).toNat

end UnifiedRuntime.Validation.Bounds
