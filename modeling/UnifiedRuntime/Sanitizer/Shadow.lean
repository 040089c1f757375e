import Mathlib

/-!
# Shadow memory

Sixteen bytes of memory have one shadow byte, with the meaning that the comment
on `enqueueAllocInfo` gives: none of them is accessible when it is negative, all
are when it is 0, and the first `k` are when it is `k`.

`MemToShadow` folds the address ranges of a platform into one array. On the
ranges that the drivers allocate from it keeps apart what lies in different
granules, and runs along with the addresses.
-/

namespace UnifiedRuntime.Sanitizer

/-- The kinds of devices that have a shadow memory; one for each kind. -/
inductive DeviceType where
  | cpu
  | gpuPvc
  | gpuDg2
  deriving DecidableEq

/-- `MemToShadow`, relative to `ShadowBegin`. The masks of the source are
remainders: `Ptr & 0xFF00000000000000` is not 0 from `2 ^ 56` on. -/
def memToShadow : DeviceType → Nat → Nat
  | .cpu, p => p / 16
  | .gpuPvc, p => if 2 ^ 56 ≤ p then 2 ^ 43 + p % 2 ^ 48 / 16 else p % 2 ^ 47 / 16
  | .gpuDg2, p => if 2 ^ 48 ≤ p then 2 ^ 43 + p % 2 ^ 47 / 16 else p / 16

/-- `uptr` addition and subtraction. -/
def add64 (a b : Nat) : Nat := (a + b) % 2 ^ 64
def sub64 (a b : Nat) : Nat := (a + 2 ^ 64 - b) % 2 ^ 64

theorem add64_eq {a b : Nat} (h : a + b < 2 ^ 64) : add64 a b = a + b := Nat.mod_eq_of_lt h

/-- A range `[b, e)` of one of the kinds that a platform allocates USM from, as
the comments on the shadow memory layouts give them. -/
def Canonical : DeviceType → Nat → Nat → Prop
  | .cpu, _, e => e ≤ 2 ^ 47
  | .gpuPvc, b, e => e ≤ 2 ^ 47 ∨ 0xff00 * 2 ^ 48 ≤ b ∧ e ≤ 0xff01 * 2 ^ 48
  | .gpuDg2, b, e => e ≤ 2 ^ 47 ∨ 0xffff8 * 2 ^ 44 ≤ b ∧ e ≤ 2 ^ 64

variable {t : DeviceType} {b e b' e' : Nat}

theorem Canonical.le (h : Canonical t b e) : e ≤ 2 ^ 64 := by
  cases t with
  | cpu => exact Nat.le_trans h (by norm_num)
  | gpuPvc => rcases h with h | h <;> omega
  | gpuDg2 => rcases h with h | h <;> omega

/-- In a canonical range the shadow runs along with the addresses. Of two
canonical ranges, either both do at the same distance, or their shadows are
apart. -/
theorem memToShadow_pair (h : Canonical t b e) (h' : Canonical t b' e') :
    (∃ k, (∀ x, b ≤ x → x < e → x / 16 = memToShadow t x + k) ∧
      ∀ x, b' ≤ x → x < e' → x / 16 = memToShadow t x + k) ∨
    (∀ x y, b ≤ x → x < e → b' ≤ y → y < e' →
      memToShadow t x < memToShadow t y ∧ x / 16 < y / 16) ∨
    ∀ x y, b ≤ x → x < e → b' ≤ y → y < e' →
      memToShadow t y < memToShadow t x ∧ y / 16 < x / 16 := by
  cases t with
  | cpu =>
    refine .inl ⟨0, fun x _ _ => rfl, fun x _ _ => rfl⟩
  | gpuPvc =>
    simp only [memToShadow]
    rcases h with h | h <;> rcases h' with h' | h'
    · refine .inl ⟨0, fun x _ hx => ?_, fun x _ hx => ?_⟩
      · rw [if_neg (by omega)]
        omega
      · rw [if_neg (by omega)]
        omega
    · refine .inr (.inl fun x y _ hx hy hy' => ?_)
      rw [if_neg (by omega), if_pos (by omega)]
      omega
    · refine .inr (.inr fun x y hx hx' _ hy => ?_)
      rw [if_neg (by omega), if_pos (by omega)]
      omega
    · refine .inl ⟨0xff00 * 2 ^ 44 - 2 ^ 43, fun x hx hx' => ?_, fun x hx hx' => ?_⟩
      · rw [if_pos (by omega)]
        omega
      · rw [if_pos (by omega)]
        omega
  | gpuDg2 =>
    simp only [memToShadow]
    rcases h with h | h <;> rcases h' with h' | h'
    · refine .inl ⟨0, fun x _ hx => ?_, fun x _ hx => ?_⟩
      · rw [if_neg (by omega)]
        omega
      · rw [if_neg (by omega)]
        omega
    · refine .inr (.inl fun x y _ hx hy hy' => ?_)
      rw [if_neg (by omega), if_pos (by omega)]
      omega
    · refine .inr (.inr fun x y hx hx' _ hy => ?_)
      rw [if_neg (by omega), if_pos (by omega)]
      omega
    · refine .inl ⟨0xffff0 * 2 ^ 40, fun x hx hx' => ?_, fun x hx hx' => ?_⟩
      · rw [if_pos (by omega)]
        omega
      · rw [if_pos (by omega)]
        omega

/-- A call of `EnqueuePoisonShadow`. -/
structure Poison where
  ptr : Nat
  size : Nat
  value : UInt8

/-- The shadow bytes a call sets. -/
def Poison.covers (t : DeviceType) (p : Poison) (n : Nat) : Bool :=
  p.size ≠ 0 && decide (memToShadow t p.ptr ≤ n) &&
    decide (n ≤ memToShadow t (sub64 (add64 p.ptr p.size) 1))

/-- `EnqueuePoisonShadow`. Pages of a GPU's shadow are mapped and zeroed when
they are first used, which a shadow that is zero from the start has the same
bytes as. -/
def Poison.apply (t : DeviceType) (p : Poison) (shadow : Nat → UInt8) : Nat → UInt8 :=
  fun n => if p.covers t n then p.value else shadow n

/-- The last byte of a range that is not empty. -/
theorem sub64_add64 {ptr size : Nat} (hsize : 0 < size) (hle : ptr + size ≤ 2 ^ 64) :
    sub64 (add64 ptr size) 1 = ptr + size - 1 := by
  unfold sub64 add64
  omega

/-- A call for a part of a canonical range sets the shadow bytes of the granules
of that part, and no others. -/
theorem covers_iff (h : Canonical t b e) (h' : Canonical t b' e') {p : Poison} {x : Nat}
    (hb : b ≤ p.ptr) (he : p.ptr + p.size ≤ e) (hx : b' ≤ x) (hx' : x < e') :
    p.covers t (memToShadow t x) = true ↔
      0 < p.size ∧ p.ptr / 16 ≤ x / 16 ∧ x / 16 ≤ (p.ptr + p.size - 1) / 16 := by
  unfold Poison.covers
  by_cases hsize : p.size = 0
  · simp [hsize]
  · have hle := h.le
    rw [sub64_add64 (by omega) (by omega)]
    have hpos : 0 < p.size := Nat.pos_of_ne_zero hsize
    simp only [Bool.and_eq_true, decide_eq_true_eq, ne_eq, hsize, not_false_eq_true, true_and,
      hpos]
    rcases memToShadow_pair h h' with ⟨k, hk, hk'⟩ | hlt | hgt
    · have h₁ := hk p.ptr hb (by omega)
      have h₂ := hk (p.ptr + p.size - 1) (by omega) (by omega)
      have h₃ := hk' x hx hx'
      omega
    · -- the shadows are apart, and so are the granules
      have h₁ := hlt (p.ptr + p.size - 1) x (by omega) (by omega) hx hx'
      omega
    · have h₁ := hgt p.ptr x hb (by omega) hx hx'
      omega

/-- The byte at offset `k` of a granule with this shadow byte is accessible. -/
def Accessible (shadow : UInt8) (k : Nat) : Prop :=
  shadow.toNat = 0 ∨ shadow.toNat < 128 ∧ k < shadow.toNat

instance (shadow : UInt8) (k : Nat) : Decidable (Accessible shadow k) :=
  inferInstanceAs (Decidable (_ ∨ _ ∧ _))

end UnifiedRuntime.Sanitizer
