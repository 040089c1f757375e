import UnifiedRuntime.Sanitizer.ShadowLayouts

/-!
# The shadow of the memory sanitizer

Every byte has a shadow byte of its own. On the CPU the address and its shadow
differ by a mask, which takes the three parts of the application's memory to
three parts of the shadow. On a GPU the shadow is reserved inside the range of
device USM and is half or a quarter of it: what lies below the reservation is
moved up to its begin, what lies above is moved down to its end. The second
distance is taken from the last address of the range instead of its end, so
everything above lands one byte too far.
-/

namespace UnifiedRuntime.Sanitizer

/-! ## The maps -/

/-- `MsanShadowMemoryCPU::MemToShadow`. -/
def msanMemToShadowCPU (ptr : Nat) : Nat := ptr ^^^ 0x500000000000

/-- `MemToShadow` of the GPU layouts, with the first and the last address of their device
USM. -/
def msanMemToShadowGPU (first last shadowBegin shadowEnd ptr : Nat) : Nat :=
  if ptr < shadowBegin then
    add64 ptr (sub64 shadowBegin first)
  else
    sub64 ptr (sub64 last shadowEnd)

def msanMemToShadowPVC : Nat → Nat → Nat → Nat :=
  msanMemToShadowGPU 0xff00000000000000 0xff00ffffffffffff

def msanMemToShadowDG2 : Nat → Nat → Nat → Nat :=
  msanMemToShadowGPU 0xffff800000000000 0xffffffffffffffff

/-- `GetShadowSize` of the GPU layouts. -/
def GpuLayout.msanShadowSize : GpuLayout → Nat
  | .pvc => 0x800000000000
  | .dg2 => 0x400000000000

/-- A layout of the sanitizer. On a GPU the driver chooses where the reservation begins. -/
inductive MsanLayout where
  | cpu
  | gpu (layout : GpuLayout) (shadowBegin : Nat)

namespace MsanLayout

def shadowBegin : MsanLayout → Nat
  | .cpu => 0x010000000000
  | .gpu _ shadowBegin => shadowBegin

def shadowEnd : MsanLayout → Nat
  | .cpu => 0x510000000000
  | .gpu layout shadowBegin => shadowBegin + layout.msanShadowSize

def memToShadow : MsanLayout → Nat → Nat
  | .cpu => msanMemToShadowCPU
  | .gpu .pvc shadowBegin =>
    msanMemToShadowPVC shadowBegin (shadowEnd (.gpu .pvc shadowBegin))
  | .gpu .dg2 shadowBegin =>
    msanMemToShadowDG2 shadowBegin (shadowEnd (.gpu .dg2 shadowBegin))

/-- The parts of the application's memory on the CPU: app-1, app-2, the allocator's and
app-3. -/
def cpuRanges : List (Nat × Nat) :=
  [(0x000000000000, 0x010000000000),
   (0x510000000000, 0x600000000000),
   (0x700000000000, 0x740000000000),
   (0x740000000000, 0x800000000000)]

/-- An address in one of the ranges that the comments on the layouts give. -/
def InRange : MsanLayout → Nat → Prop
  | .cpu, a => ∃ r ∈ cpuRanges, r.1 ≤ a ∧ a < r.2
  | .gpu layout _, a => ∃ kind, InUsm true layout kind a

/-- A byte of the application: in one of the ranges, and not in the shadow. -/
def App (l : MsanLayout) (a : Nat) : Prop :=
  l.InRange a ∧ ¬ (l.shadowBegin ≤ a ∧ a < l.shadowEnd)

/-- The shadow of `[p, p + n)` is in the reservation and runs along with it. -/
structure Shadows (l : MsanLayout) (p n : Nat) : Prop where
  inShadow : ∀ i, i < n → l.shadowBegin ≤ l.memToShadow (p + i) ∧
    l.memToShadow (p + i) < l.shadowEnd
  contiguous : ∀ i, i < n → l.memToShadow (p + i) = l.memToShadow p + i

/-- What the maps are good for. On a GPU that is USM of the device, as they assert, as far
from an end of its range as the shadow is long, and without the last address. -/
def Reaches : MsanLayout → Nat → Nat → Prop
  | .cpu, _, _ => True
  | .gpu layout shadowBegin, p, n =>
    (usmRange true layout .device).1 ≤ p ∧
      (p < shadowBegin ∧ p + n ≤ (usmRange true layout .device).1 + layout.msanShadowSize ∨
        shadowBegin ≤ p ∧ p + n ≤ (usmRange true layout .device).2 ∧
          (usmRange true layout .device).2 ≤ p + layout.msanShadowSize)

/-! ## The CPU -/

/-- Inside `2 ^ 44` aligned bytes the mask adds a constant. -/
theorem msanMemToShadowCPU_eq (ptr : Nat) :
    msanMemToShadowCPU ptr = (ptr / 2 ^ 44 ^^^ 5) * 2 ^ 44 + ptr % 2 ^ 44 :=
  xor_high_mask 44 5 ptr

theorem cpu_app {a : Nat} (h : App .cpu a) :
    (a / 2 ^ 44 = 0 ∧ a < 0x010000000000) ∨ (a / 2 ^ 44 = 5 ∧ 0x510000000000 ≤ a) ∨
      a / 2 ^ 44 = 7 := by
  obtain ⟨⟨r, hr, hlo, hhi⟩, -⟩ := h
  simp only [cpuRanges, List.mem_cons, List.not_mem_nil, or_false] at hr
  rcases hr with rfl | rfl | rfl | rfl
  · omega
  · omega
  · omega
  · omega

/-- The three parts of the shadow. -/
theorem cpu_shadow {a : Nat} (h : App .cpu a) :
    (a / 2 ^ 44 = 0 ∧ a < 0x010000000000 ∧ msanMemToShadowCPU a = a + 0x500000000000) ∨
      (a / 2 ^ 44 = 5 ∧ 0x510000000000 ≤ a ∧ msanMemToShadowCPU a + 0x500000000000 = a) ∨
      a / 2 ^ 44 = 7 ∧ msanMemToShadowCPU a + 0x500000000000 = a := by
  have heq := msanMemToShadowCPU_eq a
  rcases cpu_app h with ⟨hq, hlt⟩ | ⟨hq, hge⟩ | hq
  · have hx : (0 : Nat) ^^^ 5 = 5 := by decide
    rw [hq] at heq
    exact .inl ⟨hq, hlt, by omega⟩
  · have hx : (5 : Nat) ^^^ 5 = 0 := by decide
    rw [hq] at heq
    exact .inr (.inl ⟨hq, hge, by omega⟩)
  · have hx : (7 : Nat) ^^^ 5 = 2 := by decide
    rw [hq] at heq
    exact .inr (.inr ⟨hq, by omega⟩)

theorem cpu_injective {a b : Nat} (ha : App .cpu a) (hb : App .cpu b)
    (heq : msanMemToShadowCPU a = msanMemToShadowCPU b) : a = b := by
  have ha' := cpu_shadow ha
  have hb' := cpu_shadow hb
  omega

theorem cpu_shadows {p n : Nat} (h : ∀ i, i < n → App .cpu (p + i)) : Shadows .cpu p n := by
  refine ⟨fun i hi => ?_, fun i hi => ?_⟩
  · have hs := cpu_shadow (h i hi)
    show 0x010000000000 ≤ msanMemToShadowCPU (p + i) ∧ msanMemToShadowCPU (p + i) < 0x510000000000
    omega
  · show msanMemToShadowCPU (p + i) = msanMemToShadowCPU p + i
    have hp := cpu_shadow (h 0 (by omega))
    have hs := cpu_shadow (h i hi)
    simp only [Nat.add_zero] at hp
    -- the bytes between are the application's too, so all are in one part
    have hend : p + i < 0x010000000000 ∨ 0x010000000000 ≤ p := by
      by_contra hc
      have hmid := cpu_app (h (0x010000000000 - p) (by omega))
      omega
    omega

/-! ## The GPUs -/

/-- The first and the last address of a layout's device USM. -/
def first (layout : GpuLayout) : Nat := (usmRange true layout .device).1
def last (layout : GpuLayout) : Nat := (usmRange true layout .device).2

theorem memToShadow_gpu (layout : GpuLayout) (b : Nat) :
    memToShadow (.gpu layout b) = msanMemToShadowGPU (first layout) (last layout) b
      (b + layout.msanShadowSize) := by
  cases layout <;> rfl

/-- The shadow is half as long as the range. -/
theorem last_eq (layout : GpuLayout) :
    last layout + 1 = first layout + 2 * layout.msanShadowSize ∧ last layout < 2 ^ 64 := by
  cases layout <;> decide

/-- USM that is not the device's is far below its range, and its range from the end of the
address space. -/
theorem below_first {layout : GpuLayout} {kind : UsmKind} {a : Nat}
    (h : InUsm true layout kind a) (hkind : kind ≠ .device) :
    a < first layout ∧ a + layout.msanShadowSize < last layout ∧
      first layout + layout.msanShadowSize < 2 ^ 64 := by
  obtain ⟨-, h⟩ := h
  cases layout with
  | pvc =>
    have hle : a ≤ 0x00ffffffffffffff := by
      cases kind with
      | host => exact h
      | shared => exact Nat.le_trans h (by decide)
      | device => exact absurd rfl hkind
    simp only [first, last, usmRange, GpuLayout.msanShadowSize]
    omega
  | dg2 =>
    have hle : a ≤ 0x00007fffffffffff := by
      cases kind with
      | host => exact h
      | shared => exact h
      | device => exact absurd rfl hkind
    simp only [first, last, usmRange, GpuLayout.msanShadowSize]
    omega

/-- An address outside the shadow, below it or above it. -/
theorem msanMemToShadowGPU_cases (first last b e ptr : Nat) (hptr : ¬ (b ≤ ptr ∧ ptr < e))
    (hbe : b ≤ e) (he : e ≤ 2 ^ 64) (hp : ptr < 2 ^ 64) (hf : first < 2 ^ 64)
    (hl : last < 2 ^ 64) :
    ∃ k, (ptr < b ∧ msanMemToShadowGPU first last b e ptr + first + k * 2 ^ 64
          = ptr + b + 2 ^ 64 ∨
        e ≤ ptr ∧ msanMemToShadowGPU first last b e ptr + last + k * 2 ^ 64 = ptr + e + 2 ^ 64) ∧
      msanMemToShadowGPU first last b e ptr < 2 ^ 64 ∧ k ≤ 2 := by
  unfold msanMemToShadowGPU add64 sub64
  split
  next hlt =>
    refine ⟨(ptr + (b + 2 ^ 64 - first) % 2 ^ 64) / 2 ^ 64 + (b + 2 ^ 64 - first) / 2 ^ 64,
      .inl ⟨hlt, ?_⟩, by omega, by omega⟩
    omega
  next hge =>
    have hpe : e ≤ ptr := by omega
    generalize hd : (last + 2 ^ 64 - e) % 2 ^ 64 = d
    refine ⟨(ptr + 2 ^ 64 - d) / 2 ^ 64 + 1 - (last + 2 ^ 64 - e) / 2 ^ 64, .inr ⟨hpe, ?_⟩,
      by omega, by omega⟩
    omega

variable {layout : GpuLayout} {b : Nat}

theorem gpu_cases (hfit : b + layout.msanShadowSize ≤ 2 ^ 64) {a : Nat} (ha : a < 2 ^ 64)
    (hout : ¬ (b ≤ a ∧ a < b + layout.msanShadowSize)) :
    ∃ k, (a < b ∧ memToShadow (.gpu layout b) a + first layout + k * 2 ^ 64 = a + b + 2 ^ 64 ∨
        b + layout.msanShadowSize ≤ a ∧ memToShadow (.gpu layout b) a + last layout + k * 2 ^ 64
          = a + (b + layout.msanShadowSize) + 2 ^ 64) ∧
      memToShadow (.gpu layout b) a < 2 ^ 64 ∧ k ≤ 2 := by
  have hlast := last_eq layout
  have hsize : 0 < layout.msanShadowSize := by cases layout <;> decide
  rw [memToShadow_gpu]
  exact msanMemToShadowGPU_cases _ _ _ _ _ hout (Nat.le_add_right _ _) hfit ha (by omega)
    hlast.2

/-- Of two addresses on both sides of the shadow, their distance is at least its size and
would have to be one less. -/
theorem gpu_injective (hfit : b + layout.msanShadowSize ≤ 2 ^ 64) {x y : Nat} (hx : x < 2 ^ 64)
    (hy : y < 2 ^ 64) (hx' : ¬ (b ≤ x ∧ x < b + layout.msanShadowSize))
    (hy' : ¬ (b ≤ y ∧ y < b + layout.msanShadowSize))
    (heq : memToShadow (.gpu layout b) x = memToShadow (.gpu layout b) y) : x = y := by
  have hlast := (last_eq layout).1
  obtain ⟨k, hk, -, -⟩ := gpu_cases hfit hx hx'
  obtain ⟨j, hj, -, -⟩ := gpu_cases hfit hy hy'
  have hsize : 0 < layout.msanShadowSize := by cases layout <;> decide
  rcases hk with ⟨hxb, hk⟩ | ⟨hxe, hk⟩ <;> rcases hj with ⟨hyb, hj⟩ | ⟨hye, hj⟩
  · omega
  · omega
  · omega
  · omega

theorem InRange.lt {l : MsanLayout} {a : Nat} (h : l.InRange a) : a < 2 ^ 64 := by
  cases l with
  | cpu =>
    obtain ⟨r, hr, -, hhi⟩ := h
    simp only [cpuRanges, List.mem_cons, List.not_mem_nil, or_false] at hr
    rcases hr with rfl | rfl | rfl | rfl
    all_goals
      omega
  | gpu layout b =>
    obtain ⟨kind, h⟩ := h
    exact h.lt

/-- An address with its shadow in the reservation. -/
theorem gpu_inShadow (hfit : b + layout.msanShadowSize ≤ 2 ^ 64) {a : Nat}
    (h : App (.gpu layout b) a) :
    (b ≤ memToShadow (.gpu layout b) a ∧
        memToShadow (.gpu layout b) a < b + layout.msanShadowSize) ↔
      first layout ≤ a ∧ (a < b ∧ a < first layout + layout.msanShadowSize ∨
        b ≤ a ∧ a < last layout ∧ last layout ≤ a + layout.msanShadowSize) := by
  obtain ⟨hrange, hout⟩ := h
  have hlast := last_eq layout
  obtain ⟨k, hk, hlt, -⟩ := gpu_cases hfit hrange.lt hout
  obtain ⟨kind, hin⟩ := hrange
  by_cases hkind : kind = .device
  · subst hkind
    have hhi : a ≤ last layout := hin.2
    rcases hk with ⟨hab, hk⟩ | ⟨hae, hk⟩
    · omega
    · omega
  · -- memory that is not the device's: the map takes it out of the reservation
    have hb := below_first hin hkind
    rcases hk with ⟨hab, hk⟩ | ⟨hae, hk⟩
    · omega
    · omega

theorem gpu_shadows (hfit : b + layout.msanShadowSize ≤ 2 ^ 64) {p n : Nat} (hn : 0 < n)
    (h : ∀ i, i < n → App (.gpu layout b) (p + i)) :
    Shadows (.gpu layout b) p n ↔ Reaches (.gpu layout b) p n := by
  have hp := h 0 hn
  have hq := h (n - 1) (by omega)
  have hsize : 0 < layout.msanShadowSize := by cases layout <;> decide
  -- the allocation lies on one side of the shadow
  have hside : p + n ≤ b ∨ b + layout.msanShadowSize ≤ p := by
    by_contra hc
    have hmid : ¬ (b ≤ p + (b - p) ∧ p + (b - p) < b + layout.msanShadowSize) :=
      (h (b - p) (by omega)).2
    omega
  show Shadows (.gpu layout b) p n ↔ first layout ≤ p ∧
    (p < b ∧ p + n ≤ first layout + layout.msanShadowSize ∨
      b ≤ p ∧ p + n ≤ last layout ∧ last layout ≤ p + layout.msanShadowSize)
  constructor
  · intro hs
    have hp' := (gpu_inShadow hfit hp).mp (hs.inShadow 0 hn)
    have hq' := (gpu_inShadow hfit hq).mp (hs.inShadow (n - 1) (by omega))
    omega
  · intro hr
    have hin : ∀ i, i < n → b ≤ memToShadow (.gpu layout b) (p + i) ∧
        memToShadow (.gpu layout b) (p + i) < b + layout.msanShadowSize := by
      intro i hi
      refine (gpu_inShadow hfit (h i hi)).mpr ?_
      omega
    refine ⟨hin, fun i hi => ?_⟩
    have hpin := hin 0 hn
    have hiin := hin i hi
    obtain ⟨j, hj, -, -⟩ := gpu_cases hfit (h 0 hn).1.lt (h 0 hn).2
    obtain ⟨k, hk, -, -⟩ := gpu_cases hfit (h i hi).1.lt (h i hi).2
    simp only [Nat.add_zero] at hj hpin
    rcases hj with ⟨hpb, hj⟩ | ⟨hpe, hj⟩ <;> rcases hk with ⟨hib, hk⟩ | ⟨hie, hk⟩
    · omega
    · omega
    · omega
    · omega

/-! ## The maps on their ranges -/

/-- **The maps are injective, and right for what they reach.** On the CPU that is everything;
on a GPU whose shadow is inside the range of device USM it is every allocation of device USM
without the last address. -/
theorem maps_exact (l : MsanLayout) (hfit : l.shadowEnd ≤ 2 ^ 64) :
    (∀ x y, l.App x → l.App y → l.memToShadow x = l.memToShadow y → x = y) ∧
      (∀ p n, 0 < n → (∀ i, i < n → l.App (p + i)) → (l.Shadows p n ↔ l.Reaches p n)) ∧
      ∀ layout b, l = .gpu layout b → first layout ≤ b → l.shadowEnd ≤ last layout + 1 →
        ∀ p n, 0 < n → (∀ i, i < n → l.App (p + i)) →
          (l.Shadows p n ↔ first layout ≤ p ∧ p + n ≤ last layout) := by
  cases l with
  | cpu =>
    refine ⟨fun x y => cpu_injective, fun p n _ h => ?_, fun layout b hl => by cases hl⟩
    exact iff_of_true (cpu_shadows h) trivial
  | gpu layout b =>
    have hfit' : b + layout.msanShadowSize ≤ 2 ^ 64 := hfit
    refine ⟨fun x y hx hy => gpu_injective hfit' hx.1.lt hy.1.lt hx.2 hy.2,
      fun p n hn h => gpu_shadows hfit' hn h, fun layout' b' hl hfirst hend p n hn h => ?_⟩
    cases hl
    have hend' : b + layout.msanShadowSize ≤ last layout + 1 := hend
    have hlast := (last_eq layout).1
    have hout : ¬ (b ≤ p + 0 ∧ p + 0 < b + layout.msanShadowSize) := (h 0 hn).2
    have hmid : b < p + n → b ≤ p := by
      intro hlt
      by_contra hc
      have hsize : 0 < layout.msanShadowSize := by cases layout <;> decide
      have hmid : ¬ (b ≤ p + (b - p) ∧ p + (b - p) < b + layout.msanShadowSize) :=
        (h (b - p) (by omega)).2
      omega
    rw [gpu_shadows hfit' hn h]
    show first layout ≤ p ∧ (p < b ∧ p + n ≤ first layout + layout.msanShadowSize ∨
      b ≤ p ∧ p + n ≤ last layout ∧ last layout ≤ p + layout.msanShadowSize) ↔ _
    omega

/-- The first page of a PVC's device USM, with the shadow in the middle of the range. -/
theorem maps_exact_page : Shadows (.gpu .pvc 0xff00400000000000) 0xff00000000000000 4096 := by
  refine ((maps_exact (.gpu .pvc 0xff00400000000000) (by decide)).2.2 .pvc 0xff00400000000000 rfl
    (by decide) (by decide) 0xff00000000000000 4096 (by decide) fun i hi => ?_).mpr
      ⟨by decide, by decide⟩
  refine ⟨⟨.device, ?_⟩, ?_⟩
  · show 0xff00000000000000 ≤ 0xff00000000000000 + i ∧
      0xff00000000000000 + i ≤ 0xff00ffffffffffff
    omega
  · show ¬ (0xff00400000000000 ≤ 0xff00000000000000 + i ∧ _)
    omega

/-- The last address of PVC's device USM has its shadow byte behind the reservation. -/
theorem last_address_outside :
    App (.gpu .pvc 0xff00400000000000) 0xff00ffffffffffff ∧
      memToShadow (.gpu .pvc 0xff00400000000000) 0xff00ffffffffffff
        = shadowEnd (.gpu .pvc 0xff00400000000000) ∧
      ¬ Shadows (.gpu .pvc 0xff00400000000000) 0xff00ffffffffffff 1 := by
  refine ⟨⟨⟨.device, by decide, by decide⟩, by decide⟩, by decide, fun h => ?_⟩
  exact absurd (h.inShadow 0 (by decide)).2 (by decide)

end MsanLayout

end UnifiedRuntime.Sanitizer
