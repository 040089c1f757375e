import UnifiedRuntime.SubBuffers.Partition

/-!
# Sub-buffers inside their parents

A sub-buffer is proper if it reports its region's size, its region ends inside the
parent, and its accessors turn whatever is in range for it into something that is in
range for the parent.

- `V2.keeps_iff`: the v2 adapter's are, but for a region whose origin and size each
  pass while their sum is beyond the parent.
- `Asan.keeps_iff`: the sanitizer's are unless the sum wraps to at most the parent's size.
- `Cuda.keeps_iff`: the CUDA adapter's are only where the region is the whole parent.
- `V2.Made.inRange`, `Asan.Made.inRange`: through any number of sub-buffers of
  sub-buffers, an access in range stays in range of the memory.
-/

namespace UnifiedRuntime.SubBuffers

open Windows (Window InRange Nested innerSize place)

/-- What a sub-buffer of region `r` has to be. `reach` is what its accessors make of an
offset, as an offset into the parent. -/
structure Proper (parentSize : UInt64) (r : Region) (reported : UInt64) (reach : UInt64 → Nat) :
    Prop where
  size : reported = r.size
  within : r.window.Within parentSize.toNat
  access : ∀ off len : UInt64, InRange reported.toNat off.toNat len.toNat →
    InRange parentSize.toNat (reach off) len.toNat

variable {parentSize reported : UInt64} {r : Region} {reach : UInt64 → Nat}

/-- Accessors that add the origin carry a region inside the parent. -/
theorem Proper.of_within (hsize : reported = r.size) (hin : r.window.Within parentSize.toNat)
    (hreach : ∀ off : UInt64, off.toNat + r.origin.toNat < 2 ^ 64 →
      reach off = off.toNat + r.origin.toNat) :
    Proper parentSize r reported reach := by
  refine ⟨hsize, hin, fun off len ha => ?_⟩
  subst hsize
  have hland : InRange parentSize.toNat (off.toNat + r.origin.toNat) len.toNat := hin.inRange ha
  have hlt := parentSize.toNat_lt
  have hsum : off.toNat + r.origin.toNat < 2 ^ 64 := by
    unfold InRange at hland
    omega
  rw [hreach off hsum]
  exact hland

/-- A sum of two words that does not wrap. -/
theorem toNat_add_eq {a b : UInt64} (h : a.toNat + b.toNat < 2 ^ 64) :
    (a + b).toNat = a.toNat + b.toNat := by
  exact Nat.mod_eq_of_lt h

/-! ## The v2 adapter -/

namespace V2

/-- The offset that the accessors of a sub-buffer hand to its parent. -/
def Buffer.forward : Buffer → UInt64 → UInt64
  | .root _ _, offset => offset
  | .sub _ o _ _, offset => offset + o

/-- If the call succeeds, its sub-buffer is proper. -/
def Keeps (hMem : Buffer) (flags : MemFlags) (createType : BufferCreateType) (r : Region) : Prop :=
  ∀ sub, urMemBufferPartition hMem flags createType r = .ok sub →
    Proper hMem.getSize r (memInfoSize sub) fun off => (sub.forward off).toNat

variable {hMem sub : Buffer} {flags : MemFlags} {createType : BufferCreateType}

theorem partition_ok_iff :
    urMemBufferPartition hMem flags createType r = .ok sub ↔
      Admitted hMem flags createType ∧ r.origin < hMem.getSize ∧ r.size ≤ hMem.getSize ∧
        sub = .sub hMem r.origin r.size (getDeviceAccessMode flags) := by
  unfold urMemBufferPartition Admitted
  split
  next hty => simp [hty]
  next hty =>
    split
    next hin => simp only [reduceCtorEq, false_iff]; tauto
    next hin =>
      split
      next hacc => simp [hacc]
      next hacc =>
        simp only [Except.ok.injEq]
        constructor
        · rintro rfl
          tauto
        · rintro ⟨-, -, -, rfl⟩
          rfl

/-- **The v2 adapter's sub-buffers are proper exactly** if one of the two comparisons
rejects the region or it ends inside the parent. -/
theorem keeps_iff :
    Keeps hMem flags createType r ↔
      ¬ Admitted hMem flags createType ∨ hMem.getSize ≤ r.origin ∨ hMem.getSize < r.size ∨
        r.origin.toNat + r.size.toNat ≤ hMem.getSize.toNat := by
  constructor
  · intro hk
    by_cases hadm : Admitted hMem flags createType
    · by_cases ho : r.origin < hMem.getSize
      · by_cases hs : r.size ≤ hMem.getSize
        · have hp := hk _ (partition_ok_iff.mpr ⟨hadm, ho, hs, rfl⟩)
          exact Or.inr (Or.inr (Or.inr hp.within))
        · exact Or.inr (Or.inr (Or.inl (UInt64.not_le.mp hs)))
      · exact Or.inr (Or.inl (UInt64.not_lt.mp ho))
    · exact Or.inl hadm
  · intro hcond sub hok
    obtain ⟨hadm, ho, hs, rfl⟩ := partition_ok_iff.mp hok
    have hin : r.window.Within hMem.getSize.toNat := by
      rcases hcond with hcond | hcond | hcond | hcond
      · exact absurd hadm hcond
      · exact absurd ho (UInt64.not_lt.mpr hcond)
      · exact absurd hs (UInt64.not_le.mpr hcond)
      · exact hcond
    exact Proper.of_within rfl hin fun off hlt => toNat_add_eq hlt

/-- The windows of a sub-buffer, innermost first. -/
def Buffer.windows : Buffer → List Window
  | .root _ _ => []
  | .sub hParent offset size _ => ⟨offset.toNat, size.toNat⟩ :: hParent.windows

/-- Made by partitions whose regions ended inside the parent. -/
inductive Made : Buffer → Prop
  | root (size : UInt64) (mode : AccessMode) : Made (.root size mode)
  | partition {hMem sub : Buffer} {flags : MemFlags} {createType : BufferCreateType} {r : Region}
      (h : Made hMem) (hok : urMemBufferPartition hMem flags createType r = .ok sub)
      (hin : r.origin.toNat + r.size.toNat ≤ hMem.getSize.toNat) : Made sub

theorem innerSize_windows (b : Buffer) :
    innerSize b.base.getSize.toNat b.windows = b.getSize.toNat := by
  cases b with
  | root size mode => rfl
  | sub hParent offset size mode => rfl

theorem Made.nested (h : Made sub) : Nested sub.base.getSize.toNat sub.windows := by
  induction h with
  | root size mode => trivial
  | @partition hMem sub flags createType r _ hok hin ih =>
    obtain ⟨-, -, -, rfl⟩ := partition_ok_iff.mp hok
    refine ⟨?_, ih⟩
    show Window.Within _ (innerSize hMem.base.getSize.toNat hMem.windows)
    rw [innerSize_windows]
    exact hin

/-- The accessors' `size_t` sums are the windows' offsets. -/
theorem Made.ptrOffset_eq (h : Made sub) {off len : UInt64}
    (ha : InRange sub.getSize.toNat off.toNat len.toNat) :
    (sub.ptrOffset off).toNat = place sub.windows off.toNat := by
  induction h generalizing off with
  | root size mode => rfl
  | @partition hMem sub flags createType r _ hok hin ih =>
    obtain ⟨-, -, -, rfl⟩ := partition_ok_iff.mp hok
    have hw : r.window.Within hMem.getSize.toNat := hin
    have hland : InRange hMem.getSize.toNat (off.toNat + r.origin.toNat) len.toNat := hw.inRange ha
    have hsum : (off + r.origin).toNat = off.toNat + r.origin.toNat := by
      apply toNat_add_eq
      have hlt := hMem.getSize.toNat_lt
      unfold InRange at hland
      omega
    show (hMem.ptrOffset (off + r.origin)).toNat = place hMem.windows (off.toNat + r.origin.toNat)
    rw [← hsum] at hland ⊢
    exact ih hland

/-- **Through the accessors of all sub-buffers** an access in range is in range of the
memory. -/
theorem Made.inRange (h : Made sub) {off len : UInt64}
    (ha : InRange sub.getSize.toNat off.toNat len.toNat) :
    InRange sub.base.getSize.toNat (sub.ptrOffset off).toNat len.toNat := by
  rw [h.ptrOffset_eq ha]
  apply h.nested.inRange
  rw [innerSize_windows]
  exact ha

end V2

/-! ## The address sanitizer -/

namespace Asan

/-- The offset that `getHandle` makes of one, in the parent. -/
def MemBuffer.forward : MemBuffer → Nat → Nat
  | .buffer _, offset => offset
  | .subBuffer _ origin _, offset => offset + origin.toNat

/-- If the call succeeds, its sub-buffer is proper. -/
def Keeps (parentBuffer : MemBuffer) (r : Region) : Prop :=
  ∀ sub, urMemBufferPartition parentBuffer r = .ok sub →
    Proper parentBuffer.size r (memInfoSize sub) fun off => sub.forward off.toNat

variable {parentBuffer sub : MemBuffer}

theorem partition_ok_iff :
    urMemBufferPartition parentBuffer r = .ok sub ↔
      r.origin + r.size ≤ parentBuffer.size ∧ sub = .subBuffer parentBuffer r.origin r.size := by
  unfold urMemBufferPartition
  split
  next hlt => simp [UInt64.not_le.mpr hlt]
  next hge => simp [UInt64.not_lt.mp hge, eq_comm]

/-- A region that passes lies in the parent exactly if the sum is the region's end. -/
theorem within_iff (hle : r.origin + r.size ≤ parentBuffer.size) :
    r.window.Within parentBuffer.size.toNat ↔ r.origin.toNat + r.size.toNat < 2 ^ 64 := by
  have hlt := parentBuffer.size.toNat_lt
  show r.origin.toNat + r.size.toNat ≤ parentBuffer.size.toNat ↔ _
  refine ⟨fun h => by omega, fun h => ?_⟩
  have hnat := UInt64.le_iff_toNat_le.mp hle
  rwa [toNat_add_eq h] at hnat

/-- **The sanitizer's sub-buffers are proper exactly** if the sum that it compares does not
wrap, or is too large all the same. -/
theorem keeps_iff :
    Keeps parentBuffer r ↔
      parentBuffer.size < r.origin + r.size ∨ r.origin.toNat + r.size.toNat < 2 ^ 64 := by
  constructor
  · intro hk
    by_cases hle : r.origin + r.size ≤ parentBuffer.size
    · have hp := hk _ (partition_ok_iff.mpr ⟨hle, rfl⟩)
      exact Or.inr ((within_iff hle).mp hp.within)
    · exact Or.inl (UInt64.not_le.mp hle)
  · intro hcond sub hok
    obtain ⟨hle, rfl⟩ := partition_ok_iff.mp hok
    have hin : r.window.Within parentBuffer.size.toNat := by
      rcases hcond with hcond | hcond
      · exact absurd hle (UInt64.not_le.mpr hcond)
      · exact (within_iff hle).mpr hcond
    exact Proper.of_within rfl hin fun _ _ => rfl

/-- The windows of a sub-buffer, innermost first. -/
def MemBuffer.windows : MemBuffer → List Window
  | .buffer _ => []
  | .subBuffer parent origin size => ⟨origin.toNat, size.toNat⟩ :: parent.windows

/-- The buffer that has the allocations. -/
def MemBuffer.base : MemBuffer → MemBuffer
  | .buffer size => .buffer size
  | .subBuffer parent _ _ => parent.base

/-- Made by partitions whose sums did not wrap. -/
inductive Made : MemBuffer → Prop
  | buffer (size : UInt64) : Made (.buffer size)
  | partition {parentBuffer sub : MemBuffer} {r : Region} (h : Made parentBuffer)
      (hok : urMemBufferPartition parentBuffer r = .ok sub)
      (hsum : r.origin.toNat + r.size.toNat < 2 ^ 64) : Made sub

theorem innerSize_windows (b : MemBuffer) :
    innerSize b.base.size.toNat b.windows = b.size.toNat := by
  cases b with
  | buffer size => rfl
  | subBuffer parent origin size => rfl

theorem Made.nested (h : Made sub) : Nested sub.base.size.toNat sub.windows := by
  induction h with
  | buffer size => trivial
  | @partition parentBuffer sub r _ hok hsum ih =>
    obtain ⟨hle, rfl⟩ := partition_ok_iff.mp hok
    refine ⟨?_, ih⟩
    show Window.Within _ (innerSize parentBuffer.base.size.toNat parentBuffer.windows)
    rw [innerSize_windows]
    exact (within_iff hle).mpr hsum

theorem handleOffset_eq (b : MemBuffer) (off : Nat) :
    b.handleOffset off = place b.windows off := by
  induction b generalizing off with
  | buffer size => rfl
  | subBuffer parent origin size ih => exact ih _

/-- **Through all sub-buffers** an access in range is in range of the allocation. -/
theorem Made.inRange (h : Made sub) {off len : Nat} (ha : InRange sub.size.toNat off len) :
    InRange sub.base.size.toNat (sub.handleOffset off) len := by
  rw [handleOffset_eq]
  apply h.nested.inRange
  rw [innerSize_windows]
  exact ha

end Asan

/-! ## The CUDA adapter -/

namespace Cuda

/-- The offset that a sub-buffer's pointer makes of one, in the parent. -/
def BufferMem.forward : BufferMem → Nat → Nat
  | .buffer _ _ _, offset => offset
  | .sub _ o, offset => offset + o.toNat

/-- If the call succeeds, its sub-buffer is proper. -/
def Keeps (cuMemGetAddressRange : UInt64 → UInt64) (hBuffer : BufferMem) (flags : MemFlags)
    (createType : BufferCreateType) (r : Region) (allocated : Except Error Unit) : Prop :=
  ∀ sub, urMemBufferPartition hBuffer flags createType r allocated = .ok sub →
    Proper hBuffer.getSize r (memInfoSize cuMemGetAddressRange sub) fun off =>
      sub.forward off.toNat

variable {cuMemGetAddressRange : UInt64 → UInt64} {hBuffer sub : BufferMem} {flags : MemFlags}
  {createType : BufferCreateType} {allocated : Except Error Unit}

theorem partition_ok_iff :
    urMemBufferPartition hBuffer flags createType r allocated = .ok sub ↔
      Admitted hBuffer flags createType allocated ∧ r.size ≠ 0 ∧
        r.origin + r.size ≤ hBuffer.getSize ∧ sub = .sub hBuffer r.origin := by
  unfold urMemBufferPartition Admitted
  split
  next hsub => simp [hsub]
  next hsub =>
    have hroot : hBuffer.isSubBuffer = false := Bool.eq_false_iff.mpr hsub
    split
    next hflags => simp [hflags]
    next hflags =>
      split
      next hty => simp [hty]
      next hty =>
        split
        next hzero => simp [hzero]
        next hzero =>
          split
          next hle => simp only [reduceCtorEq, false_iff]; tauto
          next hle =>
            cases allocated with
            | error err => simp
            | ok u =>
              simp only [Except.ok.injEq]
              constructor
              · rintro rfl
                exact ⟨⟨hroot, not_not.mp hflags, not_not.mp hty, trivial⟩, hzero, not_not.mp hle,
                  rfl⟩
              · rintro ⟨-, -, -, rfl⟩
                rfl

/-- A region that is not empty and lies in the parent begins inside of it, where the driver
knows the parent's allocation. -/
theorem reported_eq (hrange : RangeOf cuMemGetAddressRange hBuffer)
    (hroot : hBuffer.isSubBuffer = false) (hzero : r.size ≠ 0)
    (hin : r.window.Within hBuffer.getSize.toNat) :
    memInfoSize cuMemGetAddressRange (.sub hBuffer r.origin) = hBuffer.getSize := by
  have hle : r.origin.toNat + r.size.toNat ≤ hBuffer.getSize.toNat := hin
  have hpos : r.size.toNat ≠ 0 := fun h => hzero (UInt64.toNat_inj.mp h)
  exact hrange hroot r.origin (UInt64.lt_iff_toNat_lt.mpr (by omega))

/-- The parent's size is the region's inside the parent only for the whole parent. -/
theorem within_whole (hsize : hBuffer.getSize = r.size)
    (hin : r.window.Within hBuffer.getSize.toNat) : r.origin = 0 := by
  have hle : r.origin.toNat + r.size.toNat ≤ hBuffer.getSize.toNat := hin
  rw [hsize] at hle
  apply UInt64.toNat_inj.mp
  show r.origin.toNat = 0
  omega

/-- **The CUDA adapter's sub-buffers are proper exactly** if the region is rejected or is
the whole parent. -/
theorem keeps_iff (hrange : RangeOf cuMemGetAddressRange hBuffer) :
    Keeps cuMemGetAddressRange hBuffer flags createType r allocated ↔
      ¬ Admitted hBuffer flags createType allocated ∨ r.size = 0 ∨
        hBuffer.getSize < r.origin + r.size ∨ (r.origin = 0 ∧ r.size = hBuffer.getSize) := by
  constructor
  · intro hk
    by_cases hadm : Admitted hBuffer flags createType allocated
    · by_cases hzero : r.size = 0
      · exact Or.inr (Or.inl hzero)
      · by_cases hle : r.origin + r.size ≤ hBuffer.getSize
        · have hp := hk _ (partition_ok_iff.mpr ⟨hadm, hzero, hle, rfl⟩)
          have hsize : hBuffer.getSize = r.size :=
            (reported_eq hrange hadm.1 hzero hp.within).symm.trans hp.size
          exact Or.inr (Or.inr (Or.inr ⟨within_whole hsize hp.within, hsize.symm⟩))
        · exact Or.inr (Or.inr (Or.inl (UInt64.not_le.mp hle)))
    · exact Or.inl hadm
  · intro hcond sub hok
    obtain ⟨hadm, hzero, hle, rfl⟩ := partition_ok_iff.mp hok
    rcases hcond with hcond | hcond | hcond | ⟨horigin, hsize⟩
    · exact absurd hadm hcond
    · exact absurd hcond hzero
    · exact absurd hle (UInt64.not_le.mpr hcond)
    · have hin : r.window.Within hBuffer.getSize.toNat := by
        show r.origin.toNat + r.size.toNat ≤ hBuffer.getSize.toNat
        rw [horigin, hsize]
        show 0 + hBuffer.getSize.toNat ≤ _
        omega
      exact Proper.of_within ((reported_eq hrange hadm.1 hzero hin).trans hsize.symm) hin
        fun _ _ => rfl

end Cuda

/-! ## The three together -/

/-- **When sub-buffers stay inside their parents**: the exact conditions for each of the
implementations, and what they give for chains of sub-buffers. The driver's function is the
one that its documentation describes. -/
theorem subBuffers_inside (hMem sub : V2.Buffer) (parentBuffer asanSub : Asan.MemBuffer)
    (hBuffer : Cuda.BufferMem) (flags : MemFlags) (createType : BufferCreateType) (r : Region)
    (allocated : Except Error Unit) (off len : UInt64) (asanOff asanLen : Nat)
    (cuMemGetAddressRange : UInt64 → UInt64)
    (hrange : Cuda.RangeOf cuMemGetAddressRange hBuffer) :
    (V2.Keeps hMem flags createType r ↔
      ¬ V2.Admitted hMem flags createType ∨ hMem.getSize ≤ r.origin ∨ hMem.getSize < r.size ∨
        r.origin.toNat + r.size.toNat ≤ hMem.getSize.toNat) ∧
    (Asan.Keeps parentBuffer r ↔
      parentBuffer.size < r.origin + r.size ∨ r.origin.toNat + r.size.toNat < 2 ^ 64) ∧
    (Cuda.Keeps cuMemGetAddressRange hBuffer flags createType r allocated ↔
      ¬ Cuda.Admitted hBuffer flags createType allocated ∨ r.size = 0 ∨
        hBuffer.getSize < r.origin + r.size ∨ (r.origin = 0 ∧ r.size = hBuffer.getSize)) ∧
    (V2.Made sub →
      InRange sub.getSize.toNat off.toNat len.toNat →
      InRange sub.base.getSize.toNat (sub.ptrOffset off).toNat len.toNat) ∧
    (Asan.Made asanSub → InRange asanSub.size.toNat asanOff asanLen →
      InRange asanSub.base.size.toNat (asanSub.handleOffset asanOff) asanLen) :=
  ⟨V2.keeps_iff, Asan.keeps_iff, Cuda.keeps_iff hrange, fun h ha => h.inRange ha,
    fun h ha => h.inRange ha⟩

/-- `UR_MEM_FLAG_READ_WRITE`. -/
def readWriteFlags : MemFlags := ⟨true, false, false, false, false, false⟩

/-- The driver with one allocation, of 64 bytes at 4096. -/
def oneAllocation (ptr : UInt64) : UInt64 := if 4096 ≤ ptr ∧ ptr < 4160 then 64 else 0

theorem oneAllocation_range :
    Cuda.RangeOf oneAllocation (.buffer 4096 64 readWriteFlags) := by
  intro _ offset hlt
  have hlt' : offset.toNat < 64 := UInt64.lt_iff_toNat_lt.mp hlt
  refine if_pos ⟨UInt64.le_iff_toNat_le.mpr ?_, UInt64.lt_iff_toNat_lt.mpr ?_⟩
  · show 4096 ≤ (4096 + offset.toNat) % 2 ^ 64
    omega
  · show (4096 + offset.toNat) % 2 ^ 64 < 4160
    omega

/-- Regions that are accepted and should not be, or are reported with another size: 8 bytes
from the fourth of 8 on (v2), 16 bytes from 8 before the end of the address space on (the
sanitizer) and 16 bytes of 64 (CUDA). -/
theorem subBuffers_inside_fails :
    ¬ V2.Keeps (.root 8 .readWrite) readWriteFlags .region ⟨4, 8⟩ ∧
    ¬ Asan.Keeps (.buffer 64) ⟨0xfffffffffffffff8, 16⟩ ∧
    ¬ Cuda.Keeps oneAllocation (.buffer 4096 64 readWriteFlags) readWriteFlags .region ⟨16, 16⟩
      (.ok ()) := by
  refine ⟨?_, ?_, ?_⟩
  · rw [V2.keeps_iff]
    unfold V2.Admitted
    decide
  · rw [Asan.keeps_iff]
    decide
  · rw [Cuda.keeps_iff oneAllocation_range]
    rintro (h | h | h | h)
    · exact h ⟨rfl, by decide, rfl, rfl⟩
    · exact absurd h (by decide)
    · exact absurd h (by decide)
    · exact absurd h (by decide)

/-- A sub-buffer of a sub-buffer, 16 bytes of the 64; and on CUDA the whole of the 64 is proper
as a sub-buffer and has no sub-buffers of its own. -/
theorem subBuffers_inside_nested :
    InRange 64 ((V2.Buffer.sub (.sub (.root 64 .readWrite) 16 32 .readWrite) 8 16
        .readWrite).ptrOffset 4).toNat 12 ∧
    InRange 64 ((Asan.MemBuffer.subBuffer (.subBuffer (.buffer 64) 16 32) 8 16).handleOffset 4)
      12 ∧
    Cuda.Keeps oneAllocation (.buffer 4096 64 readWriteFlags) readWriteFlags .region ⟨0, 64⟩
      (.ok ()) ∧
    Cuda.urMemBufferPartition (.sub (.buffer 4096 64 readWriteFlags) 0) readWriteFlags .region
      ⟨0, 64⟩ (.ok ()) = .error .invalidMemObject := by
  have v2Outer : V2.Made (.sub (.root 64 .readWrite) 16 32 .readWrite) :=
    @V2.Made.partition _ _ readWriteFlags .region ⟨16, 32⟩ (.root 64 .readWrite) rfl (by decide)
  have v2Inner : V2.Made (.sub (.sub (.root 64 .readWrite) 16 32 .readWrite) 8 16 .readWrite) :=
    @V2.Made.partition _ _ readWriteFlags .region ⟨8, 16⟩ v2Outer rfl (by decide)
  have asanOuter : Asan.Made (.subBuffer (.buffer 64) 16 32) :=
    @Asan.Made.partition _ _ ⟨16, 32⟩ (.buffer 64) rfl (by decide)
  have asanInner : Asan.Made (.subBuffer (.subBuffer (.buffer 64) 16 32) 8 16) :=
    @Asan.Made.partition _ _ ⟨8, 16⟩ asanOuter rfl (by decide)
  have hin : InRange 16 4 12 := by
    show 4 + 12 ≤ 16
    omega
  obtain ⟨-, -, cuda, v2, asan⟩ := subBuffers_inside (.root 64 .readWrite)
    (.sub (.sub (.root 64 .readWrite) 16 32 .readWrite) 8 16 .readWrite) (.buffer 64)
    (.subBuffer (.subBuffer (.buffer 64) 16 32) 8 16) (.buffer 4096 64 readWriteFlags)
    readWriteFlags .region ⟨0, 64⟩ (.ok ()) 4 12 4 12 oneAllocation oneAllocation_range
  exact ⟨v2 v2Inner hin, asan asanInner hin, cuda.mpr (.inr (.inr (.inr ⟨rfl, rfl⟩))), rfl⟩

end UnifiedRuntime.SubBuffers
