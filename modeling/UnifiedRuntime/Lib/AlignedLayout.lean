import Mathlib

/-!
# Alignment: layouts and masks

Pieces of memory one behind another, each at the next multiple of an alignment that depends on its
size. Pieces of size 0 take no place.

What `&&&` and `^^^` with the bits from a position on do, in terms of division and remainder: the
bits below the position and those above it can be looked at one after the other.

- `offsetAt_dvd`, `offsetAt_add`: where a piece lies and where it ends.
- `pieces_disjoint`: pieces do not overlap.
- `and_high_mask`, `xor_high_mask`: the bits from a position on.
-/

namespace UnifiedRuntime

/-- The next multiple of `a`. -/
def alignUp (a n : Nat) : Nat := if n % a ≠ 0 then n + (a - n % a) else n

theorem le_alignUp (a n : Nat) : n ≤ alignUp a n := by
  unfold alignUp
  split
  next => omega
  next => exact Nat.le_refl n

theorem dvd_alignUp {a : Nat} (ha : 0 < a) (n : Nat) : a ∣ alignUp a n := by
  have hmod := Nat.mod_lt n ha
  have hsplit := Nat.div_add_mod n a
  unfold alignUp
  split
  next =>
    refine ⟨n / a + 1, ?_⟩
    rw [Nat.mul_add]
    omega
  next h => exact Nat.dvd_of_mod_eq_zero (not_not.mp h)

variable {align : Nat → Nat} {start : Nat} {sizes sizes' : Nat → Nat} {i j n m : Nat}

/-- The end of the first pieces. -/
def layoutEnd (align : Nat → Nat) (start : Nat) (sizes : Nat → Nat) : Nat → Nat
  | 0 => start
  | n + 1 =>
    if sizes n = 0 then layoutEnd align start sizes n
    else alignUp (align (sizes n)) (layoutEnd align start sizes n) + sizes n

/-- Where a piece lies. -/
def offsetAt (align : Nat → Nat) (start : Nat) (sizes : Nat → Nat) (i : Nat) : Nat :=
  alignUp (align (sizes i)) (layoutEnd align start sizes i)

theorem layoutEnd_succ_zero (h : sizes n = 0) :
    layoutEnd align start sizes (n + 1) = layoutEnd align start sizes n := if_pos h

/-- A piece ends where the first pieces do. -/
theorem offsetAt_add (h : sizes i ≠ 0) :
    offsetAt align start sizes i + sizes i = layoutEnd align start sizes (i + 1) := (if_neg h).symm

theorem layoutEnd_le_offsetAt : layoutEnd align start sizes i ≤ offsetAt align start sizes i :=
  le_alignUp _ _

theorem offsetAt_dvd (h : 0 < align (sizes i)) : align (sizes i) ∣ offsetAt align start sizes i :=
  dvd_alignUp h _

theorem layoutEnd_le_succ : layoutEnd align start sizes n ≤ layoutEnd align start sizes (n + 1) := by
  by_cases h : sizes n = 0
  · rw [layoutEnd_succ_zero h]
  · rw [← offsetAt_add h]
    exact Nat.le_trans layoutEnd_le_offsetAt (Nat.le_add_right _ _)

theorem layoutEnd_mono (h : n ≤ m) : layoutEnd align start sizes n ≤ layoutEnd align start sizes m := by
  induction h with
  | refl => exact Nat.le_refl _
  | step _ ih => exact Nat.le_trans ih layoutEnd_le_succ

theorem start_le_layoutEnd : start ≤ layoutEnd align start sizes n :=
  layoutEnd_mono (Nat.zero_le n)

theorem layoutEnd_congr (h : ∀ k < n, sizes k = sizes' k) :
    layoutEnd align start sizes n = layoutEnd align start sizes' n := by
  induction n with
  | zero => rfl
  | succ n ih =>
    rw [layoutEnd, layoutEnd, h n (Nat.lt_succ_self n), ih fun k hk => h k (Nat.lt_succ_of_lt hk)]

theorem offsetAt_congr (h : ∀ k ≤ i, sizes k = sizes' k) :
    offsetAt align start sizes i = offsetAt align start sizes' i := by
  unfold offsetAt
  rw [h i (Nat.le_refl i), layoutEnd_congr fun k hk => h k (Nat.le_of_lt hk)]

/-- Nothing is laid out behind the last piece. -/
theorem layoutEnd_tail (hle : n ≤ m) (h : ∀ k, n ≤ k → k < m → sizes k = 0) :
    layoutEnd align start sizes m = layoutEnd align start sizes n := by
  induction hle with
  | refl => rfl
  | @step m hle ih =>
    rw [layoutEnd_succ_zero (h m hle (Nat.lt_succ_self m)),
      ih fun k hk hkm => h k hk (Nat.lt_succ_of_lt hkm)]

/-- **A piece ends before a later one begins.** -/
theorem pieces_disjoint (hij : i < j) (hi : sizes i ≠ 0) :
    offsetAt align start sizes i + sizes i ≤ offsetAt align start sizes j := by
  rw [offsetAt_add hi]
  exact Nat.le_trans (layoutEnd_mono hij) layoutEnd_le_offsetAt

/-- A piece ends within the layout. -/
theorem offsetAt_add_le (hin : i < n) (hi : sizes i ≠ 0) :
    offsetAt align start sizes i + sizes i ≤ layoutEnd align start sizes n := by
  rw [offsetAt_add hi]
  exact layoutEnd_mono hin

/-! ## Masks -/

/-- The bits from `k` on stay, those below are cleared. -/
theorem and_high_mask (k w : Nat) {p : Nat} (hp : p < 2 ^ (k + w)) :
    p &&& (2 ^ w - 1) * 2 ^ k = p / 2 ^ k * 2 ^ k := by
  have hdiv : (p &&& (2 ^ w - 1) * 2 ^ k) / 2 ^ k = p / 2 ^ k := by
    rw [Nat.and_div_two_pow, Nat.mul_div_cancel _ (by positivity), Nat.and_two_pow_sub_one_eq_mod]
    refine Nat.mod_eq_of_lt (Nat.div_lt_of_lt_mul ?_)
    rwa [← Nat.pow_add]
  have hmod : (p &&& (2 ^ w - 1) * 2 ^ k) % 2 ^ k = 0 := by
    rw [Nat.and_mod_two_pow, Nat.mul_mod_left, Nat.and_zero]
  have h := Nat.div_add_mod (p &&& (2 ^ w - 1) * 2 ^ k) (2 ^ k)
  rw [hdiv, hmod, Nat.mul_comm] at h
  exact h.symm

/-- Some bit from `k` on is set. -/
theorem and_high_mask_ne_zero (k w : Nat) {p : Nat} (hp : p < 2 ^ (k + w)) :
    p &&& (2 ^ w - 1) * 2 ^ k ≠ 0 ↔ 2 ^ k ≤ p := by
  rw [and_high_mask k w hp]
  constructor
  · intro h
    by_contra hlt
    exact h (by rw [Nat.div_eq_of_lt (by omega), Nat.zero_mul])
  · intro h
    have hpos : 0 < p / 2 ^ k := Nat.div_pos h (by positivity)
    have := Nat.mul_pos hpos (show 0 < 2 ^ k by positivity)
    omega

/-- The bits below `k` stay, those from `k` on are changed. -/
theorem xor_high_mask (k m p : Nat) :
    p ^^^ m * 2 ^ k = (p / 2 ^ k ^^^ m) * 2 ^ k + p % 2 ^ k := by
  have hdiv : (p ^^^ m * 2 ^ k) / 2 ^ k = p / 2 ^ k ^^^ m := by
    rw [Nat.xor_div_two_pow, Nat.mul_div_cancel _ (by positivity)]
  have hmod : (p ^^^ m * 2 ^ k) % 2 ^ k = p % 2 ^ k := by
    rw [Nat.xor_mod_two_pow, Nat.mul_mod_left, Nat.xor_zero]
  have h := Nat.div_add_mod (p ^^^ m * 2 ^ k) (2 ^ k)
  rw [hdiv, hmod, Nat.mul_comm] at h
  exact h.symm

end UnifiedRuntime
