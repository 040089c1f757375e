import Mathlib

/-!
# Boxes with strides

A box of `depth` slices of `height` rows of `width` cells in linear memory: rows lie
`row` cells apart, slices `slice`. Its extent is the cell behind the last one, so that
the box lies below `n` exactly if its extent does. An empty box has no cells and
extent 0.
-/

namespace UnifiedRuntime

structure StridedBox where
  start : Nat
  width : Nat
  height : Nat
  depth : Nat
  row : Nat
  slice : Nat

namespace StridedBox

variable (b : StridedBox)

/-- The cells of the box. -/
def Cell (x : Nat) : Prop :=
  ∃ i j k, i < b.width ∧ j < b.height ∧ k < b.depth ∧ x = b.start + k * b.slice + j * b.row + i

/-- It has no cells. -/
def Empty : Prop := b.width = 0 ∨ b.height = 0 ∨ b.depth = 0

instance : Decidable b.Empty := inferInstanceAs (Decidable (_ ∨ _ ∨ _))

/-- The cell behind the last one. -/
def extent : Nat :=
  if b.Empty then 0
  else b.start + (b.depth - 1) * b.slice + (b.height - 1) * b.row + b.width

/-- `n` cells in a row. -/
def run (start n : Nat) : StridedBox := ⟨start, n, 1, 1, 0, 0⟩

variable {b} {n start : Nat}

/-- **The box lies below `n` exactly if its extent does.** -/
theorem cells_lt_iff : (∀ x, b.Cell x → x < n) ↔ b.extent ≤ n := by
  unfold extent
  split
  next hempty =>
    refine ⟨fun _ => Nat.zero_le n, fun _ x hx => ?_⟩
    obtain ⟨i, j, k, hi, hj, hk, -⟩ := hx
    rcases hempty with h | h | h
    · omega
    · omega
    · omega
  next hne =>
    unfold Empty at hne
    constructor
    · intro hall
      have hlast := hall _ ⟨b.width - 1, b.height - 1, b.depth - 1, by omega, by omega, by omega, rfl⟩
      omega
    · rintro hle x ⟨i, j, k, hi, hj, hk, rfl⟩
      have hslice : k * b.slice ≤ (b.depth - 1) * b.slice := Nat.mul_le_mul_right _ (by omega)
      have hrow : j * b.row ≤ (b.height - 1) * b.row := Nat.mul_le_mul_right _ (by omega)
      omega

/-- The cell at a place of the box. -/
def offset (b : StridedBox) (i j k : Nat) : Nat := b.start + k * b.slice + j * b.row + i

/-- **Boxes of one size have the same cells at every place** if they start alike and lie alike
where there is more than one row or slice. -/
theorem offsets_agree_iff {b c : StridedBox} {w h d : Nat} (hw : 0 < w) (hh : 0 < h) (hd : 0 < d) :
    (∀ i < w, ∀ j < h, ∀ k < d, b.offset i j k = c.offset i j k) ↔
      b.start = c.start ∧ (1 < h → b.row = c.row) ∧ (1 < d → b.slice = c.slice) := by
  unfold offset
  constructor
  · intro hall
    have hstart := hall 0 hw 0 hh 0 hd
    simp only [Nat.zero_mul, Nat.add_zero] at hstart
    refine ⟨hstart, fun hone => ?_, fun hone => ?_⟩
    · have hrow := hall 0 hw 1 hone 0 hd
      omega
    · have hslice := hall 0 hw 0 hh 1 hone
      omega
  · intro ⟨hstart, hrow, hslice⟩ i _ j hj k hk
    have hrows : j * b.row = j * c.row := by
      rcases Nat.eq_zero_or_pos j with rfl | hpos
      · rw [Nat.zero_mul, Nat.zero_mul]
      · rw [hrow (by omega)]
    have hslices : k * b.slice = k * c.slice := by
      rcases Nat.eq_zero_or_pos k with rfl | hpos
      · rw [Nat.zero_mul, Nat.zero_mul]
      · rw [hslice (by omega)]
    rw [hstart, hrows, hslices]

/-- The cells of a box are below its extent. -/
theorem offset_lt_extent {i j k : Nat} (hi : i < b.width) (hj : j < b.height) (hk : k < b.depth) :
    b.offset i j k < b.extent :=
  cells_lt_iff.mpr (Nat.le_refl b.extent) _ ⟨i, j, k, hi, hj, hk, rfl⟩

theorem extent_run : (run start n).extent = if n = 0 then 0 else start + n := by
  unfold extent Empty run
  by_cases h : n = 0
  · simp
  · simp

end StridedBox

end UnifiedRuntime
