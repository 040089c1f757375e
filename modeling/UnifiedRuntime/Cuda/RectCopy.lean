import UnifiedRuntime.Lib.NarrowLoop
import UnifiedRuntime.NativeCpu.RectCopy

/-!
# Rectangular copies of the CUDA adapter

The driver has the slice pitch as a number of rows, which is a quotient. A row pitch of 0 stands for
rows that end with the region, wherever in the row it starts, and so it is with slices.

What parameters the driver takes is open here.

- `sameBytes_iff`: a quotient that leaves nothing addresses the slices.
- `rectCopies_iff`: when the driver copies the rectangle, as the native CPU adapter does.
-/

namespace UnifiedRuntime.Cuda

open LevelZero.RegionParams (RectOffset RectRegion)
open NativeCpu (RectSide places enqueueMemBufferReadWriteRectImpl)

/-! ## The driver -/

/-- `CUmemorytype`. -/
inductive MemoryType where
  | host
  | device
  | array
  | unified
deriving DecidableEq

/-- The fields of `CUDA_MEMCPY3D` for one side. -/
structure MemcpySide where
  xInBytes : UInt64
  y : UInt64
  z : UInt64
  memoryType : MemoryType
  host : UInt64
  device : UInt64
  pitch : UInt64
  height : UInt64

/-- `CUDA_MEMCPY3D`. -/
structure Memcpy3D where
  src : MemcpySide
  dst : MemcpySide
  widthInBytes : UInt64
  height : UInt64
  depth : UInt64

namespace MemcpySide

/-- Where offsets are counted from. -/
def base (s : MemcpySide) : UInt64 :=
  match s.memoryType with
  | .host => s.host
  | .device => s.device
  | _ => 0

/-- What the driver addresses: `(z * height + y) * pitch + xInBytes` is the first byte, and a slice
is `height` rows. -/
def box (p : Memcpy3D) (s : MemcpySide) : StridedBox where
  start := (s.z.toNat * s.height.toNat + s.y.toNat) * s.pitch.toNat + s.xInBytes.toNat
  width := p.widthInBytes.toNat
  height := p.height.toNat
  depth := p.depth.toNat
  row := s.pitch.toNat
  slice := s.height.toNat * s.pitch.toNat

end MemcpySide

/-! ## The functions -/

/-- `(!src_row_pitch) ? region.width + src_offset.x : src_row_pitch` and the same for `dst`. -/
def rowPitch (region : RectRegion) (s : RectSide) : UInt64 :=
  if s.rowPitch = 0 then region.width + s.offset.x else s.rowPitch

/-- `(!src_slice_pitch) ? ((region.height + src_offset.y) * src_row_pitch) : src_slice_pitch` and the
same for `dst`. -/
def slicePitch (region : RectRegion) (s : RectSide) : UInt64 :=
  if s.slicePitch = 0 then (region.height + s.offset.y) * rowPitch region s else s.slicePitch

/-- The fields that `setCopyRectParams` sets for one side; it divides by the row pitch. -/
def sideParams (region : RectRegion) (ptr : UInt64) (type : MemoryType) (s : RectSide) :
    Except Stop MemcpySide :=
  if rowPitch region s = 0 then .error .fault
  else .ok
    { xInBytes := s.offset.x
      y := s.offset.y
      z := s.offset.z
      memoryType := type
      host := if type = .host then ptr else 0
      device := if type = .device then ptr else 0
      pitch := rowPitch region s
      height := slicePitch region s / rowPitch region s }

def setCopyRectParams (region : RectRegion) (srcPtr : UInt64) (srcType : MemoryType)
    (src : RectSide) (dstPtr : UInt64) (dstType : MemoryType) (dst : RectSide) :
    Except Stop Memcpy3D := do
  let srcParams ← sideParams region srcPtr srcType src
  let dstParams ← sideParams region dstPtr dstType dst
  return ⟨srcParams, dstParams, region.width, region.height, region.depth⟩

inductive RectResult where
  | success
  | invalidMemObject
  | driverError

/-- `commonEnqueueMemBufferCopyRect`, with what the driver copies. `takes` is the answer of
`cuMemcpy3DAsync`. -/
def commonEnqueueMemBufferCopyRect (takes : Memcpy3D → Bool) (region : RectRegion)
    (srcPtr : UInt64) (srcType : MemoryType) (src : RectSide) (dstPtr : UInt64)
    (dstType : MemoryType) (dst : RectSide) : Except Stop (RectResult × Option Memcpy3D) :=
  if ¬ (srcType = .device ∨ srcType = .host) then .ok (.invalidMemObject, none)
  else if ¬ (dstType = .device ∨ dstType = .host) then .ok (.invalidMemObject, none)
  else (setCopyRectParams region srcPtr srcType src dstPtr dstType dst).map fun params =>
    if takes params then (.success, some params) else (.driverError, none)

/-! ## The rectangle -/

/-- A side of the driver's copy has the bytes of the rectangle, each at its place. -/
def SameBytes (region : RectRegion) (ptr : UInt64) (s : RectSide) (p : Memcpy3D)
    (side : MemcpySide) : Prop :=
  side.base = ptr ∧ ∀ i < region.width.toNat, ∀ j < region.height.toNat, ∀ k < region.depth.toNat,
    (side.box p).offset i j k = (s.box region).offset i j k

/-- Pitches of 0 have the same values in both adapters. -/
def SameDefaults (region : RectRegion) (s : RectSide) : Prop :=
  rowPitch region s = NativeCpu.rowPitch region s ∧
    slicePitch region s = NativeCpu.slicePitch region s

/-- **The driver copies the rectangle**, and the native CPU adapter the same bytes. -/
structure RectCopies (takes : Memcpy3D → Bool) (region : RectRegion) (srcPtr : UInt64)
    (srcType : MemoryType) (src : RectSide) (dstPtr : UInt64) (dstType : MemoryType)
    (dst : RectSide) : Prop where
  cuda : ∃ p, commonEnqueueMemBufferCopyRect takes region srcPtr srcType src dstPtr dstType dst =
      .ok (.success, some p) ∧
    SameBytes region srcPtr src p p.src ∧ SameBytes region dstPtr dst p p.dst
  defaults : SameDefaults region src ∧ SameDefaults region dst
  native : ∀ isRead, (enqueueMemBufferReadWriteRectImpl isRead region (if isRead then src else dst)
      (if isRead then dst else src)).map (fun c => (c.1.toNat, c.2.toNat)) =
    (places region).map fun c => ((src.box region).offset c.1 c.2.1 c.2.2,
      (dst.box region).offset c.1 c.2.1 c.2.2)

/-- A default is only used at the origin, and a slice pitch is whole rows where there is more than
the first slice. -/
structure Agrees (region : RectRegion) (s : RectSide) : Prop where
  row : s.rowPitch = 0 → s.offset.x = 0
  slice : s.slicePitch = 0 → s.offset.y = 0
  whole : s.slicePitch ≠ 0 → (s.box region).row ∣ s.slicePitch.toNat ∨
    region.depth.toNat = 1 ∧ s.offset.z.toNat = 0

/-- A side with the defaults of the native CPU adapter. -/
def urSide (region : RectRegion) (ptr : UInt64) (type : MemoryType) (s : RectSide) : MemcpySide where
  xInBytes := s.offset.x
  y := s.offset.y
  z := s.offset.z
  memoryType := type
  host := if type = .host then ptr else 0
  device := if type = .device then ptr else 0
  pitch := NativeCpu.rowPitch region s
  height := NativeCpu.slicePitch region s / NativeCpu.rowPitch region s

/-! ## One side -/

variable {region : RectRegion} {s : RectSide} {ptr : UInt64} {type : MemoryType}

/-- **Defaults are the same at the origin.** -/
theorem sameDefaults_iff (h : s.Valid region) : SameDefaults region s ↔
    (s.rowPitch = 0 → s.offset.x = 0) ∧ (s.slicePitch = 0 → s.offset.y = 0) := by
  have hrow : rowPitch region s = NativeCpu.rowPitch region s ↔
      (s.rowPitch = 0 → s.offset.x = 0) := by
    unfold rowPitch NativeCpu.rowPitch
    by_cases hzero : s.rowPitch = 0
    · rw [if_pos hzero, if_pos hzero]
      constructor
      · intro heq _
        exact UInt64.add_eq_left.mp heq
      · intro hx
        exact UInt64.add_eq_left.mpr (hx hzero)
    · rw [if_neg hzero, if_neg hzero]
      exact ⟨fun _ hp => absurd hp hzero, fun _ => rfl⟩
  unfold SameDefaults
  rw [hrow]
  refine and_congr_right fun hx => ?_
  unfold slicePitch NativeCpu.slicePitch
  by_cases hzero : s.slicePitch = 0
  · rw [if_pos hzero, if_pos hzero, hrow.mpr hx, UInt64.add_mul, UInt64.mul_comm region.height,
      UInt64.add_eq_left]
    constructor
    · intro hmul _
      -- the rows before the region are in memory
      have hbound := h.bound
      have hpos := h.row_pos
      have hnat := congrArg UInt64.toNat hmul
      rw [UInt64.toNat_mul, RectSide.rowPitch_toNat, Nat.mod_eq_of_lt (by omega)] at hnat
      rcases Nat.mul_eq_zero.mp hnat with hy | hr
      · exact UInt64.toNat_inj.mp hy
      · omega
    · intro hy
      rw [hy hzero, UInt64.zero_mul]
  · rw [if_neg hzero, if_neg hzero]
    exact ⟨fun _ hp => absurd hp hzero, fun _ => rfl⟩

/-- **With the same defaults the slices are addressed** if they are whole rows. -/
theorem sameBytes_iff {p : Memcpy3D} (h : s.Valid region)
    (htype : type = .device ∨ type = .host) :
    SameBytes region ptr s p (urSide region ptr type s) ↔
      (s.slicePitch ≠ 0 → (s.box region).row ∣ s.slicePitch.toNat ∨
        region.depth.toNat = 1 ∧ s.offset.z.toNat = 0) := by
  have hbase : (urSide region ptr type s).base = ptr := by
    rcases htype with rfl | rfl
    · rfl
    · rfl
  have hrow : ((urSide region ptr type s).box p).row = (s.box region).row :=
    RectSide.rowPitch_toNat region s
  -- the driver takes the slice for whole rows
  have hquot : ((urSide region ptr type s).box p).slice =
      (NativeCpu.slicePitch region s).toNat / (s.box region).row * (s.box region).row := by
    show (NativeCpu.slicePitch region s / NativeCpu.rowPitch region s).toNat *
      (NativeCpu.rowPitch region s).toNat = _
    rw [UInt64.toNat_div, RectSide.rowPitch_toNat]
  have hstart : ((urSide region ptr type s).box p).start = (s.box region).start ↔
      s.offset.z.toNat * ((urSide region ptr type s).box p).slice =
        s.offset.z.toNat * (s.box region).slice := by
    show (s.offset.z.toNat * (urSide region ptr type s).height.toNat + s.offset.y.toNat) *
        ((urSide region ptr type s).box p).row + s.offset.x.toNat =
      s.offset.z.toNat * (s.box region).slice + s.offset.y.toNat * (s.box region).row +
        s.offset.x.toNat ↔ s.offset.z.toNat * ((urSide region ptr type s).height.toNat *
          ((urSide region ptr type s).box p).row) = _
    rw [hrow, Nat.add_mul, Nat.mul_assoc]
    omega
  unfold SameBytes
  rw [StridedBox.offsets_agree_iff h.width h.height h.depth, hstart]
  have hdepth := h.depth
  constructor
  · intro ⟨_, hz, _, hslices⟩ hne
    by_cases hone : region.depth.toNat = 1 ∧ s.offset.z.toNat = 0
    · exact .inr hone
    · have hmore : 1 < region.depth.toNat ∨ 0 < s.offset.z.toNat := by omega
      have hslice : ((urSide region ptr type s).box p).slice = (s.box region).slice := by
        rcases hmore with hd | hz'
        · exact hslices hd
        · exact Nat.eq_of_mul_eq_mul_left hz' hz
      rw [hquot, h.slicePitch_toNat hmore] at hslice
      have hown : (s.box region).slice = s.slicePitch.toNat := if_neg hne
      rw [← hown]
      exact .inl (Nat.dvd_of_mod_eq_zero (by
        have := Nat.div_add_mod' (s.box region).slice (s.box region).row
        omega))
  · intro hwhole
    by_cases hone : region.depth.toNat = 1 ∧ s.offset.z.toNat = 0
    · rw [hone.1, hone.2, Nat.zero_mul, Nat.zero_mul]
      exact ⟨hbase, rfl, fun _ => hrow, fun hlt => absurd hlt (Nat.lt_irrefl 1)⟩
    · have hmore : 1 < region.depth.toNat ∨ 0 < s.offset.z.toNat := by omega
      have hdvd : (s.box region).row ∣ (s.box region).slice := by
        by_cases hzero : s.slicePitch = 0
        · have hown : (s.box region).slice = region.height.toNat * (s.box region).row :=
            if_pos hzero
          rw [hown]
          exact Nat.dvd_mul_left _ _
        · have hown : (s.box region).slice = s.slicePitch.toNat := if_neg hzero
          rw [hown]
          exact (hwhole hzero).resolve_right hone
      have hslice : ((urSide region ptr type s).box p).slice = (s.box region).slice := by
        rw [hquot, h.slicePitch_toNat hmore]
        exact Nat.div_mul_cancel hdvd
      exact ⟨hbase, by rw [hslice], fun _ => hrow, fun _ => hslice⟩

/-- With the same defaults these are the parameters. -/
theorem sideParams_eq (h : s.Valid region) (hsame : SameDefaults region s) :
    sideParams region ptr type s = .ok (urSide region ptr type s) := by
  have hpos : NativeCpu.rowPitch region s ≠ 0 := by
    intro hzero
    have hnat := congrArg UInt64.toNat hzero
    rw [RectSide.rowPitch_toNat] at hnat
    exact absurd hnat (Nat.ne_of_gt h.row_pos)
  unfold sideParams
  rw [hsame.1, hsame.2, if_neg hpos]
  rfl

/-! ## Both sides -/

/-- **When the driver copies the rectangle**: it takes the parameters, defaults are used at the
origin only, and slices are whole rows. -/
theorem rectCopies_iff (takes : Memcpy3D → Bool) (region : RectRegion) (srcPtr : UInt64)
    (srcType : MemoryType) (src : RectSide) (dstPtr : UInt64) (dstType : MemoryType)
    (dst : RectSide) (hsrcType : srcType = .device ∨ srcType = .host)
    (hdstType : dstType = .device ∨ dstType = .host) (hsrc : src.Valid region)
    (hdst : dst.Valid region) :
    RectCopies takes region srcPtr srcType src dstPtr dstType dst ↔
      takes ⟨urSide region srcPtr srcType src, urSide region dstPtr dstType dst, region.width,
        region.height, region.depth⟩ = true ∧ Agrees region src ∧ Agrees region dst := by
  have hcommon : SameDefaults region src → SameDefaults region dst →
      commonEnqueueMemBufferCopyRect takes region srcPtr srcType src dstPtr dstType dst =
        let params : Memcpy3D := ⟨urSide region srcPtr srcType src, urSide region dstPtr dstType dst,
          region.width, region.height, region.depth⟩
        .ok (if takes params then (.success, some params) else (.driverError, none)) := by
    intro hs hd
    unfold commonEnqueueMemBufferCopyRect setCopyRectParams
    rw [if_neg (not_not.mpr hsrcType), if_neg (not_not.mpr hdstType), sideParams_eq hsrc hs,
      sideParams_eq hdst hd]
    rfl
  constructor
  · intro h
    obtain ⟨p, hp, hsame⟩ := h.cuda
    rw [hcommon h.defaults.1 h.defaults.2] at hp
    dsimp only at hp
    split at hp
    next htakes =>
      obtain rfl := Option.some.inj (Prod.mk.inj (Except.ok.inj hp)).2
      obtain ⟨hsx, hsy⟩ := (sameDefaults_iff hsrc).mp h.defaults.1
      obtain ⟨hdx, hdy⟩ := (sameDefaults_iff hdst).mp h.defaults.2
      exact ⟨htakes, ⟨hsx, hsy, (sameBytes_iff hsrc hsrcType).mp hsame.1⟩,
        ⟨hdx, hdy, (sameBytes_iff hdst hdstType).mp hsame.2⟩⟩
    next => cases hp
  · intro ⟨htakes, hs, hd⟩
    have hsame := (sameDefaults_iff hsrc).mpr ⟨hs.row, hs.slice⟩
    have hsame' := (sameDefaults_iff hdst).mpr ⟨hd.row, hd.slice⟩
    refine ⟨⟨⟨urSide region srcPtr srcType src, urSide region dstPtr dstType dst, region.width,
      region.height, region.depth⟩, ?_, (sameBytes_iff hsrc hsrcType).mpr hs.whole,
      (sameBytes_iff hdst hdstType).mpr hd.whole⟩, ⟨hsame, hsame'⟩,
      fun isRead => NativeCpu.impl_eq isRead hsrc hdst⟩
    rw [hcommon hsame hsame']
    dsimp only
    rw [if_pos htakes]

/-- A driver that asks for a pitch that holds the row, and a height that holds the slice. -/
def strictDriver (p : Memcpy3D) : Bool :=
  [p.src, p.dst].all fun s =>
    p.widthInBytes.toNat + s.xInBytes.toNat ≤ s.pitch.toNat &&
      p.height.toNat + s.y.toNat ≤ s.height.toNat

theorem rectCopies_slices : RectCopies strictDriver ⟨4, 2, 2⟩ 4096 .device ⟨⟨8, 1, 1⟩, 16, 64⟩ 8192
    .host ⟨⟨0, 0, 0⟩, 0, 0⟩ :=
  (rectCopies_iff strictDriver ⟨4, 2, 2⟩ 4096 .device ⟨⟨8, 1, 1⟩, 16, 64⟩ 8192 .host
    ⟨⟨0, 0, 0⟩, 0, 0⟩ (.inl rfl) (.inr rfl)
    ⟨by decide, by decide, by decide, by decide, by decide, by decide⟩
    ⟨by decide, by decide, by decide, by decide, by decide, by decide⟩).mpr
    ⟨by decide, ⟨by decide, by decide, fun _ => .inl (by decide)⟩,
      ⟨by decide, by decide, by decide⟩⟩

/-- Two rows of four bytes from byte 4 on, without pitches: the driver has rows of eight bytes. -/
theorem rectCopies_wrong : RectSide.Valid ⟨4, 2, 1⟩ ⟨⟨4, 0, 0⟩, 0, 0⟩ ∧
    RectSide.Valid ⟨4, 2, 1⟩ ⟨⟨0, 0, 0⟩, 0, 0⟩ ∧
    ¬ RectCopies (fun _ => true) ⟨4, 2, 1⟩ 4096 .device ⟨⟨4, 0, 0⟩, 0, 0⟩ 8192 .host
      ⟨⟨0, 0, 0⟩, 0, 0⟩ := by
  refine ⟨⟨by decide, by decide, by decide, by decide, by decide, by decide⟩,
    ⟨by decide, by decide, by decide, by decide, by decide, by decide⟩, fun h => ?_⟩
  exact absurd h.defaults.1.1 (by decide)

end UnifiedRuntime.Cuda
