import UnifiedRuntime.Cuda.RectCopy

/-!
# Rectangular copies of the HIP adapter

Queues and command-buffers have a translation each. For queues a pitch of 0 stands for rows, or
slices, without gaps; for command-buffers for rows that end with the region. Both divide the slice
pitch by the row pitch. Of the three entry points of a queue only the one for reads checks its
pitches, and there the slice pitch is divided by the row pitch as it was given.

- `queueParams_ok`, `setCopyRectParams_ok`, `readChecks_ok`: divisions by zero.
- `queue_ok`: which requests a queue takes and what it makes of them.
- `hipRect_iff`: when all is right.
-/

namespace UnifiedRuntime.Hip

open LevelZero.RegionParams (RectOffset RectRegion)
open NativeCpu (RectSide)
open Cuda (MemoryType MemcpySide Memcpy3D SameBytes SameDefaults Agrees urSide)

/-! ## Queues -/

/-- The fields of `HIP_MEMCPY3D` for one side. -/
def sideParams (region : RectRegion) (ptr : UInt64) (type : MemoryType) (s : RectSide) :
    Except Stop MemcpySide :=
  if NativeCpu.rowPitch region s = 0 then .error .fault else .ok (urSide region ptr type s)

/-- What `commonEnqueueMemBufferCopyRect` hands to `hipDrvMemcpy3DAsync`. -/
def queueParams (region : RectRegion) (srcPtr : UInt64) (srcType : MemoryType) (src : RectSide)
    (dstPtr : UInt64) (dstType : MemoryType) (dst : RectSide) : Except Stop Memcpy3D := do
  let srcParams ← sideParams region srcPtr srcType src
  let dstParams ← sideParams region dstPtr dstType dst
  return ⟨srcParams, dstParams, region.width, region.height, region.depth⟩

/-- The checks of one slice pitch. -/
def sliceChecks (region : RectRegion) (s : RectSide) : Except Stop Bool :=
  if s.slicePitch ≠ 0 ∧ s.slicePitch < region.height * s.rowPitch then .ok false
  else if s.slicePitch = 0 then .ok true
  else if s.rowPitch = 0 then .error .fault
  else .ok (s.slicePitch % s.rowPitch == 0)

/-- The row pitches and the region pass. -/
def rowChecks (region : RectRegion) (buffer host : RectSide) : Bool :=
  !(region.width == 0 || region.height == 0 || region.width == 0) &&
    !(buffer.rowPitch != 0 && decide (buffer.rowPitch < region.width)) &&
    !(host.rowPitch != 0 && decide (host.rowPitch < region.width))

/-- The checks of `urEnqueueMemBufferReadRect`. -/
def readChecks (region : RectRegion) (buffer host : RectSide) : Except Stop Bool :=
  if !rowChecks region buffer host then .ok false
  else (sliceChecks region buffer).bind fun accepted =>
    if !accepted then .ok false else sliceChecks region host

/-- The entry points: `MemBufferReadRect`, `MemBufferWriteRect` and `MemBufferCopyRect`. -/
inductive RectRequest where
  | read
  | write
  | copy
deriving DecidableEq

def RectRequest.srcType : RectRequest → MemoryType
  | .write => .host
  | _ => .device

def RectRequest.dstType : RectRequest → MemoryType
  | .read => .host
  | _ => .device

/-- `urEnqueueMemBufferReadRect`, `urEnqueueMemBufferWriteRect` and `urEnqueueMemBufferCopyRect`; no
copy is made for a request that is refused. -/
def enqueueRect (request : RectRequest) (region : RectRegion) (srcPtr : UInt64) (src : RectSide)
    (dstPtr : UInt64) (dst : RectSide) : Except Stop (Option Memcpy3D) := do
  let accepted ← if request = .read then readChecks region src dst else .ok true
  if !accepted then return none
  let params ← queueParams region srcPtr request.srcType src dstPtr request.dstType dst
  return some params

/-! ## Command-buffers -/

/-- `hipPitchedPtr` and `hipPos` of one side. -/
structure PitchedPtr where
  ptr : UInt64
  pitch : UInt64
  xsize : UInt64
  ysize : UInt64
  x : UInt64
  y : UInt64
  z : UInt64

inductive MemcpyKind where
  | deviceToDevice
  | deviceToHost
  | hostToDevice
  | hostToHost

/-- `hipMemcpy3DParms`. -/
structure Memcpy3DParms where
  src : PitchedPtr
  dst : PitchedPtr
  extent : RectRegion
  kind : MemcpyKind

/-- A slice is `ysize` rows of `pitch` bytes. -/
def PitchedPtr.side (p : PitchedPtr) : MemcpySide :=
  ⟨p.x, p.y, p.z, .device, 0, p.ptr, p.pitch, p.ysize⟩

/-- `setCopyRectParams` for one side; the pitches that are 0 are those of the CUDA adapter. -/
def pitchedPtr (region : RectRegion) (ptr : UInt64) (s : RectSide) : Except Stop PitchedPtr :=
  if Cuda.rowPitch region s = 0 then .error .fault
  else .ok ⟨ptr, Cuda.rowPitch region s, Cuda.rowPitch region s,
    Cuda.slicePitch region s / Cuda.rowPitch region s, s.offset.x, s.offset.y, s.offset.z⟩

def memcpyKind (srcType dstType : MemoryType) : MemcpyKind :=
  if srcType = .device then if dstType = .device then .deviceToDevice else .deviceToHost
  else if dstType = .device then .hostToDevice else .hostToHost

def setCopyRectParams (region : RectRegion) (srcPtr : UInt64) (srcType : MemoryType)
    (src : RectSide) (dstPtr : UInt64) (dstType : MemoryType) (dst : RectSide) :
    Except Stop Memcpy3DParms := do
  let srcParams ← pitchedPtr region srcPtr src
  let dstParams ← pitchedPtr region dstPtr dst
  return ⟨srcParams, dstParams, region, memcpyKind srcType dstType⟩

/-! ## Right copies -/

/-- **A request is right**: nothing is divided by zero, and where the rectangles lie in memory a
queue that takes it and a command-buffer have their bytes, with the same defaults. -/
structure RectRight (request : RectRequest) (region : RectRegion) (srcPtr : UInt64)
    (src : RectSide) (dstPtr : UInt64) (dst : RectSide) : Prop where
  queue : ∃ params, enqueueRect request region srcPtr src dstPtr dst = .ok params ∧
    ∀ p, params = some p → src.Valid region → dst.Valid region →
      SameBytes region srcPtr src p p.src ∧ SameBytes region dstPtr dst p p.dst
  append : ∃ p, setCopyRectParams region srcPtr request.srcType src dstPtr request.dstType dst =
      .ok p ∧
    (src.Valid region → dst.Valid region → ∀ whole : Memcpy3D, whole.widthInBytes = p.extent.width →
      whole.height = p.extent.height → whole.depth = p.extent.depth →
      SameBytes region srcPtr src whole p.src.side ∧ SameBytes region dstPtr dst whole p.dst.side ∧
        SameDefaults region src ∧ SameDefaults region dst)

/-- A slice pitch that is given is whole rows. -/
def WholeRows (region : RectRegion) (s : RectSide) : Prop :=
  s.slicePitch ≠ 0 → region.height * s.rowPitch ≤ s.slicePitch ∧ s.slicePitch % s.rowPitch = 0

/-- A slice pitch is not asked for without a row pitch, where the checks come to it. -/
def ReadDefined (region : RectRegion) (buffer host : RectSide) : Prop :=
  rowChecks region buffer host = true →
    (buffer.slicePitch ≠ 0 → buffer.rowPitch ≠ 0) ∧
      (WholeRows region buffer → host.slicePitch ≠ 0 → host.rowPitch ≠ 0)

/-- Rows have a pitch or bytes, from the start of a row and from the region's; a read of no bytes is
refused. -/
def HasRows (request : RectRequest) (region : RectRegion) (s : RectSide) : Prop :=
  s.rowPitch = 0 → region.width + s.offset.x ≠ 0 ∧ (request = .read ∨ region.width ≠ 0)

/-! ## The checks of reads -/

variable {request : RectRequest} {region : RectRegion} {s src dst buffer host : RectSide}
  {ptr srcPtr dstPtr : UInt64} {type srcType dstType : MemoryType}

theorem sliceChecks_fault (hslice : s.slicePitch ≠ 0) (hrow : s.rowPitch = 0) :
    sliceChecks region s = .error .fault := by
  unfold sliceChecks
  simp [hslice, hrow]

theorem sliceChecks_ok (hrow : s.slicePitch ≠ 0 → s.rowPitch ≠ 0) : ∃ accepted,
    sliceChecks region s = .ok accepted ∧ (accepted = true ↔ WholeRows region s) := by
  unfold sliceChecks WholeRows
  by_cases hslice : s.slicePitch = 0
  · simp [hslice]
  · by_cases hlt : s.slicePitch < region.height * s.rowPitch
    · simp [hslice, hlt]
    · simp [hslice, hlt, hrow hslice, UInt64.not_lt.mp hlt]

/-- **What reads check is defined** unless a slice pitch comes without a row pitch. -/
theorem readChecks_ok : (∃ accepted, readChecks region buffer host = .ok accepted) ↔
    ReadDefined region buffer host := by
  unfold readChecks ReadDefined
  cases rowChecks region buffer host with
  | false => exact iff_of_true ⟨false, rfl⟩ nofun
  | true =>
    by_cases hbuffer : buffer.slicePitch ≠ 0 → buffer.rowPitch ≠ 0
    · obtain ⟨accepted, heq, haccepted⟩ := sliceChecks_ok hbuffer
      rw [heq]
      show (∃ b, (if !accepted then .ok false else sliceChecks region host) = .ok b) ↔ _
      cases accepted with
      | false =>
        refine iff_of_true ⟨false, rfl⟩ fun _ => ⟨hbuffer, fun hwhole => ?_⟩
        exact absurd (haccepted.mpr hwhole) Bool.false_ne_true
      | true =>
        constructor
        · intro ⟨b, hb⟩ _
          refine ⟨hbuffer, fun _ hslice hrow => ?_⟩
          cases (sliceChecks_fault hslice hrow).symm.trans hb
        · intro h
          obtain ⟨b, hb, -⟩ := sliceChecks_ok ((h rfl).2 (haccepted.mp rfl))
          exact ⟨b, hb⟩
    · push Not at hbuffer
      rw [sliceChecks_fault hbuffer.1 hbuffer.2]
      exact iff_of_false nofun fun h => (h rfl).1 hbuffer.1 hbuffer.2

/-- Reads that pass are of some bytes. -/
theorem width_of_readChecks (h : readChecks region buffer host = .ok true) : region.width ≠ 0 := by
  unfold readChecks rowChecks at h
  intro hwidth
  rw [hwidth] at h
  cases h

/-! ## Both translations -/

/-- Both sides divide, and the copy is made of what they give. -/
theorem sides_ok {α β : Type} {m n : UInt64} {x y : α} {f : α → α → β} {p : β} :
    (do
      let srcParams ← (if m = 0 then Except.error Stop.fault else .ok x)
      let dstParams ← (if n = 0 then Except.error Stop.fault else .ok y)
      return f srcParams dstParams) = Except.ok p ↔ (m ≠ 0 ∧ n ≠ 0) ∧ p = f x y := by
  by_cases hsrc : m = 0
  · rw [if_pos hsrc]
    exact iff_of_false nofun fun h => h.1.1 hsrc
  · rw [if_neg hsrc]
    by_cases hdst : n = 0
    · rw [if_pos hdst]
      exact iff_of_false nofun fun h => h.1.2 hdst
    · rw [if_neg hdst]
      constructor
      · intro hp
        exact ⟨⟨hsrc, hdst⟩, (Except.ok.inj hp).symm⟩
      · intro ⟨_, hp⟩
        rw [hp]
        rfl

/-- **Queues** divide by the width. -/
theorem queueParams_ok {p : Memcpy3D} :
    queueParams region srcPtr srcType src dstPtr dstType dst = .ok p ↔
      (NativeCpu.rowPitch region src ≠ 0 ∧ NativeCpu.rowPitch region dst ≠ 0) ∧
        p = ⟨urSide region srcPtr srcType src, urSide region dstPtr dstType dst, region.width,
          region.height, region.depth⟩ := sides_ok

/-- The fields of `hipMemcpy3DParms` for one side. -/
def pitched (region : RectRegion) (ptr : UInt64) (s : RectSide) : PitchedPtr :=
  ⟨ptr, Cuda.rowPitch region s, Cuda.rowPitch region s,
    Cuda.slicePitch region s / Cuda.rowPitch region s, s.offset.x, s.offset.y, s.offset.z⟩

/-- **Command-buffers** divide by where the region ends. -/
theorem setCopyRectParams_ok {p : Memcpy3DParms} :
    setCopyRectParams region srcPtr srcType src dstPtr dstType dst = .ok p ↔
      (Cuda.rowPitch region src ≠ 0 ∧ Cuda.rowPitch region dst ≠ 0) ∧
        p = ⟨pitched region srcPtr src, pitched region dstPtr dst, region,
          memcpyKind srcType dstType⟩ := sides_ok

theorem rowPitch_ne_zero_iff : NativeCpu.rowPitch region s ≠ 0 ↔
    (s.rowPitch = 0 → region.width ≠ 0) := by
  unfold NativeCpu.rowPitch
  by_cases hrow : s.rowPitch = 0
  · simp [hrow]
  · simp [hrow]

theorem end_ne_zero_iff : Cuda.rowPitch region s ≠ 0 ↔
    (s.rowPitch = 0 → region.width + s.offset.x ≠ 0) := by
  unfold Cuda.rowPitch
  by_cases hrow : s.rowPitch = 0
  · simp [hrow]
  · simp [hrow]

/-- **A queue** takes a read that passes the checks and every other request, and makes the copy of
the driver from it; nothing is divided by zero in a request that it refuses. -/
theorem queue_ok {P : Memcpy3D → Prop} :
    (∃ params, enqueueRect request region srcPtr src dstPtr dst = .ok params ∧
        ∀ p, params = some p → P p) ↔
      (request = .read → ReadDefined region src dst) ∧
        (request = .read ∧ readChecks region src dst ≠ .ok true ∨
          (NativeCpu.rowPitch region src ≠ 0 ∧ NativeCpu.rowPitch region dst ≠ 0) ∧
            P ⟨urSide region srcPtr request.srcType src, urSide region dstPtr request.dstType dst,
              region.width, region.height, region.depth⟩) := by
  have hcopy : (∃ params, (do
        let params ← queueParams region srcPtr request.srcType src dstPtr request.dstType dst
        return some params) = Except.ok params ∧ ∀ p, params = some p → P p) ↔
      (NativeCpu.rowPitch region src ≠ 0 ∧ NativeCpu.rowPitch region dst ≠ 0) ∧
        P ⟨urSide region srcPtr request.srcType src, urSide region dstPtr request.dstType dst,
          region.width, region.height, region.depth⟩ := by
    constructor
    · intro ⟨params, hparams, hp⟩
      obtain ⟨p, hok, heq⟩ := except_bind_ok hparams
      obtain ⟨hrows, rfl⟩ := queueParams_ok.mp hok
      exact ⟨hrows, hp _ (Except.ok.inj heq).symm⟩
    · intro ⟨hrows, hp⟩
      rw [queueParams_ok.mpr ⟨hrows, rfl⟩]
      exact ⟨_, rfl, fun p heq => Option.some.inj heq ▸ hp⟩
  unfold enqueueRect
  by_cases hread : request = .read
  · rw [if_pos hread]
    cases hchecks : readChecks region src dst with
    | error e =>
      refine iff_of_false (fun ⟨_, hok, _⟩ => nomatch hok) fun ⟨hdefined, _⟩ => ?_
      obtain ⟨accepted, hok⟩ := readChecks_ok.mpr (hdefined hread)
      cases hchecks.symm.trans hok
    | ok accepted =>
      rw [and_iff_right fun _ => readChecks_ok.mp ⟨accepted, hchecks⟩]
      cases accepted with
      | false => exact iff_of_true ⟨none, rfl, nofun⟩ (.inl ⟨hread, nofun⟩)
      | true =>
        rw [or_iff_right fun h => h.2 rfl]
        exact hcopy
  · rw [if_neg hread, and_iff_right fun h => absurd h hread, or_iff_right fun h => hread h.1]
    exact hcopy

/-- With the same defaults a side of a command-buffer's copy is one of the driver's. -/
theorem pitched_side (h : SameDefaults region s) :
    (pitched region ptr s).side = urSide region ptr .device s := by
  unfold pitched
  rw [h.1, h.2]
  rfl

/-- **When one side of a command-buffer's copy is right.** -/
theorem agrees_iff {whole : Memcpy3D} (h : s.Valid region) :
    SameBytes region ptr s whole (pitched region ptr s).side ∧ SameDefaults region s ↔
      Agrees region s := by
  constructor
  · intro ⟨hwhole, hsame⟩
    obtain ⟨hx, hy⟩ := (Cuda.sameDefaults_iff h).mp hsame
    rw [pitched_side hsame] at hwhole
    exact ⟨hx, hy, (Cuda.sameBytes_iff h (.inl rfl)).mp hwhole⟩
  · intro hagrees
    have hsame := (Cuda.sameDefaults_iff h).mpr ⟨hagrees.row, hagrees.slice⟩
    rw [pitched_side hsame]
    exact ⟨(Cuda.sameBytes_iff h (.inl rfl)).mpr hagrees.whole, hsame⟩

theorem RectRequest.types (request : RectRequest) :
    (request.srcType = .device ∨ request.srcType = .host) ∧
      (request.dstType = .device ∨ request.dstType = .host) := by
  cases request <;> decide

/-- **When HIP copies the rectangle**: no row is empty, defaults are used at the origin only, and
slices are whole rows; a read does not divide by the pitch that is left open. -/
theorem hipRect_iff (request : RectRequest) (region : RectRegion) (srcPtr : UInt64)
    (src : RectSide) (dstPtr : UInt64) (dst : RectSide) :
    RectRight request region srcPtr src dstPtr dst ↔
      (request = .read → ReadDefined region src dst) ∧ HasRows request region src ∧
        HasRows request region dst ∧
        (src.Valid region → dst.Valid region → Agrees region src ∧ Agrees region dst) := by
  have htypes := request.types
  constructor
  · intro h
    obtain ⟨hread, hqueue⟩ := queue_ok.mp h.queue
    obtain ⟨p, hp, happend⟩ := h.append
    obtain ⟨⟨hsrcEnd, hdstEnd⟩, rfl⟩ := setCopyRectParams_ok.mp hp
    have hrows : ∀ s, s = src ∨ s = dst → s.rowPitch = 0 →
        request = .read ∨ region.width ≠ 0 := by
      intro s hs hrow
      rcases hqueue with ⟨hrefused, -⟩ | ⟨⟨hsrcRow, hdstRow⟩, -⟩
      · exact .inl hrefused
      · rcases hs with rfl | rfl
        · exact .inr (rowPitch_ne_zero_iff.mp hsrcRow hrow)
        · exact .inr (rowPitch_ne_zero_iff.mp hdstRow hrow)
    refine ⟨hread, fun hrow => ⟨end_ne_zero_iff.mp hsrcEnd hrow, hrows src (.inl rfl) hrow⟩,
      fun hrow => ⟨end_ne_zero_iff.mp hdstEnd hrow, hrows dst (.inr rfl) hrow⟩, fun hsrc hdst => ?_⟩
    let whole : Memcpy3D := ⟨(pitched region srcPtr src).side, (pitched region dstPtr dst).side,
      region.width, region.height, region.depth⟩
    obtain ⟨hpitched, hpitched', hdefaults, hdefaults'⟩ := happend hsrc hdst whole rfl rfl rfl
    exact ⟨(agrees_iff hsrc).mp ⟨hpitched, hdefaults⟩, (agrees_iff hdst).mp ⟨hpitched', hdefaults'⟩⟩
  · intro ⟨hread, hsrcRows, hdstRows, hagrees⟩
    refine ⟨queue_ok.mpr ⟨hread, ?_⟩, ⟨_, setCopyRectParams_ok.mpr
      ⟨⟨end_ne_zero_iff.mpr fun hrow => (hsrcRows hrow).1,
        end_ne_zero_iff.mpr fun hrow => (hdstRows hrow).1⟩, rfl⟩, fun hsrc hdst whole _ _ _ => ?_⟩⟩
    · by_cases hrefused : request = .read ∧ readChecks region src dst ≠ .ok true
      · exact .inl hrefused
      · have hwidth : ∀ s, HasRows request region s → NativeCpu.rowPitch region s ≠ 0 :=
          fun s hs => rowPitch_ne_zero_iff.mpr fun hrow => by
            rcases (hs hrow).2 with hreq | hne
            · exact width_of_readChecks (not_not.mp fun hnot => hrefused ⟨hreq, hnot⟩)
            · exact hne
        refine .inr ⟨⟨hwidth src hsrcRows, hwidth dst hdstRows⟩, fun hsrc hdst => ?_⟩
        obtain ⟨hs, hd⟩ := hagrees hsrc hdst
        exact ⟨(Cuda.sameBytes_iff hsrc htypes.1).mpr hs.whole,
          (Cuda.sameBytes_iff hdst htypes.2).mpr hd.whole⟩
    · obtain ⟨hs, hd⟩ := hagrees hsrc hdst
      obtain ⟨hpitched, hdefaults⟩ := (agrees_iff hsrc).mpr hs
      obtain ⟨hpitched', hdefaults'⟩ := (agrees_iff hdst).mpr hd
      exact ⟨hpitched, hpitched', hdefaults, hdefaults'⟩

/-- A read with all pitches on one side and none on the other, and a write of which the host's
slice pitch alone is given. -/
theorem hipRect_slices :
    RectRight .read ⟨4, 2, 2⟩ 4096 ⟨⟨8, 1, 1⟩, 16, 64⟩ 8192 ⟨⟨0, 0, 0⟩, 0, 0⟩ ∧
      RectRight .write ⟨4, 2, 1⟩ 4096 ⟨⟨0, 0, 0⟩, 0, 8⟩ 8192 ⟨⟨0, 0, 0⟩, 0, 0⟩ := by
  constructor
  · refine (hipRect_iff .read ⟨4, 2, 2⟩ 4096 ⟨⟨8, 1, 1⟩, 16, 64⟩ 8192 ⟨⟨0, 0, 0⟩, 0, 0⟩).mpr
      ⟨fun _ _ => ⟨by decide, fun _ => by decide⟩, ?_, ?_, fun _ _ => ?_⟩
    · intro hrow
      exact absurd hrow (by decide)
    · intro _
      exact ⟨by decide, .inl rfl⟩
    · exact ⟨⟨by decide, by decide, fun _ => .inl (by decide)⟩, ⟨by decide, by decide, by decide⟩⟩
  · refine (hipRect_iff .write ⟨4, 2, 1⟩ 4096 ⟨⟨0, 0, 0⟩, 0, 8⟩ 8192 ⟨⟨0, 0, 0⟩, 0, 0⟩).mpr
      ⟨nofun, fun _ => ⟨by decide, .inr (by decide)⟩, fun _ => ⟨by decide, .inr (by decide)⟩,
        fun _ _ => ?_⟩
    exact ⟨⟨by decide, by decide, fun _ => .inl (by decide)⟩, ⟨by decide, by decide, by decide⟩⟩

/-- A read of two rows of four bytes with a slice pitch of eight and no row pitch. -/
theorem read_divides : RectSide.Valid ⟨4, 2, 1⟩ ⟨⟨0, 0, 0⟩, 0, 8⟩ ∧
    RectSide.Valid ⟨4, 2, 1⟩ ⟨⟨0, 0, 0⟩, 0, 0⟩ ∧
    ¬ RectRight .read ⟨4, 2, 1⟩ 4096 ⟨⟨0, 0, 0⟩, 0, 8⟩ 8192 ⟨⟨0, 0, 0⟩, 0, 0⟩ := by
  refine ⟨⟨by decide, by decide, by decide, by decide, by decide, by decide⟩,
    ⟨by decide, by decide, by decide, by decide, by decide, by decide⟩, fun h => ?_⟩
  obtain ⟨params, hparams, -⟩ := h.queue
  cases hparams

end UnifiedRuntime.Hip
