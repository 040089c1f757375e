import UnifiedRuntime.Lib.AlignedLayout
import UnifiedRuntime.Sanitizer.Shadow

/-!
# The shadow layouts of the GPUs

`MemToShadow` of PVC and DG2 as the source has it, with masks and the begin of
the reservation. On 64-bit addresses it is the begin plus the offset that
`Shadow.lean` uses, and the offset stays below the size of the shadow.

The comments list the ranges that USM of each kind comes from. On PVC they list
them twice: the mapping is for a driver that is run with
`AllocateHostAllocationsInHeapExtendedHost=0`.
-/

namespace UnifiedRuntime.Sanitizer

inductive GpuLayout where
  | pvc
  | dg2

def GpuLayout.deviceType : GpuLayout → DeviceType
  | .pvc => .gpuPvc
  | .dg2 => .gpuDg2

/-- `GetShadowSize`. -/
def getShadowSize : DeviceType → Nat
  | .cpu => 0x80000000000
  | .gpuPvc => 0x180000000000
  | .gpuDg2 => 0x100000000000

/-- `ShadowMemoryPVC::MemToShadow`. -/
def memToShadowPVC (shadowBegin ptr : Nat) : Nat :=
  if ptr &&& 0xFF00000000000000 ≠ 0 then
    add64 (add64 shadowBegin 0x80000000000) ((ptr &&& 0xFFFFFFFFFFFF) >>> 4)
  else -- only consider 47bit VA
    add64 shadowBegin ((ptr &&& 0x7FFFFFFFFFFF) >>> 4)

/-- `ShadowMemoryDG2::MemToShadow`. -/
def memToShadowDG2 (shadowBegin ptr : Nat) : Nat :=
  if ptr &&& 0xFFFF000000000000 ≠ 0 then
    add64 (add64 shadowBegin 0x80000000000) ((ptr &&& 0x7FFFFFFFFFFF) >>> 4)
  else
    add64 shadowBegin (ptr >>> 4)

def GpuLayout.memToShadow : GpuLayout → Nat → Nat → Nat
  | .pvc => memToShadowPVC
  | .dg2 => memToShadowDG2

/-! ## The offset in the shadow -/

theorem memToShadow_lt (layout : GpuLayout) (ptr : Nat) (hptr : ptr < 2 ^ 64) :
    memToShadow layout.deviceType ptr < getShadowSize layout.deviceType := by
  cases layout with
  | pvc =>
    show (if 2 ^ 56 ≤ ptr then 2 ^ 43 + ptr % 2 ^ 48 / 16 else ptr % 2 ^ 47 / 16) < 0x180000000000
    split
    next => omega
    next => omega
  | dg2 =>
    show (if 2 ^ 48 ≤ ptr then 2 ^ 43 + ptr % 2 ^ 47 / 16 else ptr / 16) < 0x100000000000
    split
    next => omega
    next => omega

/-- The masks of the source are remainders. -/
theorem GpuLayout.memToShadow_eq (layout : GpuLayout) {shadowBegin ptr : Nat}
    (hfit : shadowBegin + getShadowSize layout.deviceType ≤ 2 ^ 64) (hptr : ptr < 2 ^ 64) :
    layout.memToShadow shadowBegin ptr
      = shadowBegin + Sanitizer.memToShadow layout.deviceType ptr := by
  have hlt := memToShadow_lt layout ptr hptr
  cases layout with
  | pvc =>
    have hmask : ptr &&& 0xFF00000000000000 ≠ 0 ↔ 2 ^ 56 ≤ ptr := and_high_mask_ne_zero 56 8 hptr
    have h₄₈ : ptr &&& 0xFFFFFFFFFFFF = ptr % 2 ^ 48 := Nat.and_two_pow_sub_one_eq_mod ptr 48
    have h₄₇ : ptr &&& 0x7FFFFFFFFFFF = ptr % 2 ^ 47 := Nat.and_two_pow_sub_one_eq_mod ptr 47
    simp only [GpuLayout.deviceType, getShadowSize, Sanitizer.memToShadow] at hfit hlt ⊢
    simp only [GpuLayout.memToShadow, memToShadowPVC, hmask, h₄₈, h₄₇, Nat.shiftRight_eq_div_pow]
    split
    next hge =>
      have hin : add64 shadowBegin 0x80000000000 = shadowBegin + 0x80000000000 :=
        add64_eq (by omega)
      rw [add64_eq (by omega)]
      omega
    next hlow =>
      rw [add64_eq (by omega)]
  | dg2 =>
    have hmask : ptr &&& 0xFFFF000000000000 ≠ 0 ↔ 2 ^ 48 ≤ ptr := and_high_mask_ne_zero 48 16 hptr
    have h₄₇ : ptr &&& 0x7FFFFFFFFFFF = ptr % 2 ^ 47 := Nat.and_two_pow_sub_one_eq_mod ptr 47
    simp only [GpuLayout.deviceType, getShadowSize, Sanitizer.memToShadow] at hfit hlt ⊢
    simp only [GpuLayout.memToShadow, memToShadowDG2, hmask, h₄₇, Nat.shiftRight_eq_div_pow]
    split
    next hge =>
      have hin : add64 shadowBegin 0x80000000000 = shadowBegin + 0x80000000000 :=
        add64_eq (by omega)
      rw [add64_eq (by omega)]
      omega
    next hlow =>
      rw [add64_eq (by omega)]

/-! ## The ranges of USM -/

inductive UsmKind where
  | host
  | shared
  | device
  deriving DecidableEq

/-- The first and the last address of a kind of USM. `extendedHost` is the driver's
`AllocateHostAllocationsInHeapExtendedHost`. -/
def usmRange (extendedHost : Bool) : GpuLayout → UsmKind → Nat × Nat
  | .pvc, .host => (0, if extendedHost then 0x00ffffffffffffff else 0x00007fffffffffff)
  | .pvc, .shared => (0, 0x00007fffffffffff)
  | .pvc, .device => (0xff00000000000000, 0xff00ffffffffffff)
  | .dg2, .host => (0, 0x00007fffffffffff)
  | .dg2, .shared => (0, 0x00007fffffffffff)
  | .dg2, .device => (0xffff800000000000, 0xffffffffffffffff)

def InUsm (extendedHost : Bool) (layout : GpuLayout) (kind : UsmKind) (a : Nat) : Prop :=
  (usmRange extendedHost layout kind).1 ≤ a ∧ a ≤ (usmRange extendedHost layout kind).2

/-- The map is safe for these ranges, and no two granules share a byte. -/
structure SeparatesGranules (extendedHost : Bool) (layout : GpuLayout) (shadowBegin : Nat) :
    Prop where
  inShadow : ∀ kind a, InUsm extendedHost layout kind a →
    shadowBegin ≤ layout.memToShadow shadowBegin a ∧
      layout.memToShadow shadowBegin a < shadowBegin + getShadowSize layout.deviceType
  sameByte : ∀ kind a b, InUsm extendedHost layout kind a → InUsm extendedHost layout kind b →
    (layout.memToShadow shadowBegin a = layout.memToShadow shadowBegin b ↔ a / 16 = b / 16)
  apart : ∀ kind a b, kind ≠ .device → InUsm extendedHost layout kind a →
    InUsm extendedHost layout .device b →
      layout.memToShadow shadowBegin a ≠ layout.memToShadow shadowBegin b

theorem InUsm.lt {extendedHost : Bool} {layout : GpuLayout} {kind : UsmKind} {a : Nat}
    (h : InUsm extendedHost layout kind a) : a < 2 ^ 64 := by
  obtain ⟨-, h⟩ := h
  cases extendedHost <;> cases layout <;> cases kind <;> simp [usmRange] at h <;> omega

/-- USM of the host or shared, with the driver's extended heap: 47 bits of the address are
kept. -/
theorem memToShadow_host {extendedHost : Bool} {layout : GpuLayout} {kind : UsmKind} {a : Nat}
    (h : InUsm extendedHost layout kind a) (hkind : kind ≠ .device) :
    memToShadow layout.deviceType a = a % 2 ^ 47 / 16 := by
  obtain ⟨-, h⟩ := h
  cases layout with
  | pvc =>
    have hle : a ≤ 0x00ffffffffffffff := by
      cases kind with
      | host => cases extendedHost <;> simp [usmRange] at h <;> omega
      | shared => simp only [usmRange] at h; omega
      | device => exact absurd rfl hkind
    simp only [GpuLayout.deviceType, memToShadow]
    rw [if_neg (by omega)]
  | dg2 =>
    have hle : a ≤ 0x00007fffffffffff := by
      cases kind with
      | host => exact h
      | shared => exact h
      | device => exact absurd rfl hkind
    simp only [GpuLayout.deviceType, memToShadow]
    rw [if_neg (by omega)]
    omega

/-- USM of a device: its range is as long as its part of the shadow. -/
theorem memToShadow_device {extendedHost : Bool} {layout : GpuLayout} {a : Nat}
    (h : InUsm extendedHost layout .device a) :
    memToShadow layout.deviceType a
      = 2 ^ 43 + (a - (usmRange extendedHost layout .device).1) / 16 := by
  obtain ⟨hlo, hhi⟩ := h
  cases layout with
  | pvc =>
    simp only [usmRange, GpuLayout.deviceType, memToShadow] at *
    rw [if_pos (by omega)]
    omega
  | dg2 =>
    simp only [usmRange, GpuLayout.deviceType, memToShadow] at *
    rw [if_pos (by omega)]
    omega

/-- The begin of a device's range is that of a granule. -/
theorem usmRange_device_aligned (extendedHost : Bool) (layout : GpuLayout) :
    16 ∣ (usmRange extendedHost layout .device).1 := by
  cases layout with
  | pvc => exact ⟨0xff0000000000000, rfl⟩
  | dg2 => exact ⟨0xffff80000000000, rfl⟩

/-- **The maps are range-safe and separate granules** for the ranges they were made for. With
the extended heap on PVC they still keep to the shadow and devices apart from hosts, but two
granules of the host share a byte when they are `2 ^ 47` bytes apart. -/
theorem memToShadow_separates (layout : GpuLayout) (shadowBegin : Nat)
    (hfit : shadowBegin + getShadowSize layout.deviceType ≤ 2 ^ 64) :
    SeparatesGranules false layout shadowBegin ∧
      (∀ kind a, InUsm true layout kind a →
        shadowBegin ≤ layout.memToShadow shadowBegin a ∧
          layout.memToShadow shadowBegin a < shadowBegin + getShadowSize layout.deviceType) ∧
      (∀ kind a b, kind ≠ .device → InUsm true layout kind a → InUsm true layout kind b →
        (layout.memToShadow shadowBegin a = layout.memToShadow shadowBegin b ↔
          a % 2 ^ 47 / 16 = b % 2 ^ 47 / 16)) ∧
      ∀ kind a b, kind ≠ .device → InUsm true layout kind a → InUsm true layout .device b →
        layout.memToShadow shadowBegin a ≠ layout.memToShadow shadowBegin b := by
  have hin : ∀ e kind a, InUsm e layout kind a →
      shadowBegin ≤ layout.memToShadow shadowBegin a ∧
        layout.memToShadow shadowBegin a < shadowBegin + getShadowSize layout.deviceType := by
    intro e kind a ha
    have hlt := memToShadow_lt layout a ha.lt
    rw [layout.memToShadow_eq hfit ha.lt]
    omega
  have hhost : ∀ e kind a b, kind ≠ .device → InUsm e layout kind a → InUsm e layout kind b →
      (layout.memToShadow shadowBegin a = layout.memToShadow shadowBegin b ↔
        a % 2 ^ 47 / 16 = b % 2 ^ 47 / 16) := by
    intro e kind a b hkind ha hb
    rw [layout.memToShadow_eq hfit ha.lt, layout.memToShadow_eq hfit hb.lt,
      memToShadow_host ha hkind, memToShadow_host hb hkind]
    omega
  have hapart : ∀ e kind a b, kind ≠ .device → InUsm e layout kind a → InUsm e layout .device b →
      layout.memToShadow shadowBegin a ≠ layout.memToShadow shadowBegin b := by
    intro e kind a b hkind ha hb
    rw [layout.memToShadow_eq hfit ha.lt, layout.memToShadow_eq hfit hb.lt,
      memToShadow_host ha hkind, memToShadow_device hb]
    omega
  refine ⟨⟨hin false, fun kind a b ha hb => ?_, hapart false⟩, hin true, hhost true, hapart true⟩
  by_cases hkind : kind = .device
  · subst hkind
    have halign := usmRange_device_aligned false layout
    have hlo := ha.1
    have hlo' := hb.1
    rw [layout.memToShadow_eq hfit ha.lt, layout.memToShadow_eq hfit hb.lt,
      memToShadow_device ha, memToShadow_device hb]
    omega
  · have hle : ∀ x, InUsm false layout kind x → x ≤ 0x00007fffffffffff := by
      rintro x ⟨-, hx⟩
      cases layout <;> cases kind <;> first | exact hx | exact absurd rfl hkind
    have ha' := hle a ha
    have hb' := hle b hb
    rw [hhost false kind a b hkind ha hb]
    omega

theorem memToShadow_separates_pvc :
    SeparatesGranules false .pvc 0xff00400000000000 :=
  (memToShadow_separates .pvc 0xff00400000000000 (by decide)).1

/-- With the extended heap of PVC the first granule and the one `2 ^ 47` bytes on share a
byte. -/
theorem memToShadow_not_separates :
    ¬ SeparatesGranules true .pvc 0xff00400000000000 := by
  intro h
  have hsame := h.sameByte .host 0 (2 ^ 47) ⟨by decide, by decide⟩ ⟨by decide, by decide⟩
  exact absurd (hsame.mp (by decide)) (by decide)

end UnifiedRuntime.Sanitizer
