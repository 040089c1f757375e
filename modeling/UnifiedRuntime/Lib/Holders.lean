import Mathlib

/-!
# Counting the holders of a shared object

A reference-counted object is held from many kinds of places, each of which may
hold it several times; `holds h` is how often place `h` does. `Counted holds n` says
that there are finitely many references in all, and that they are `n`.

Counts are not compared as sums but by what changed: `Counted.shift` takes the
references that were dropped and those that were taken.
-/

namespace UnifiedRuntime

variable {η : Type}

/-- All places together hold `n` references. -/
def Counted [DecidableEq η] (holds : η → Nat) (n : Nat) : Prop :=
  ∃ m : Multiset η, (∀ h, m.count h = holds h) ∧ m.card = n

variable [DecidableEq η] {holds holds' : η → Nat} {n n' : Nat}

namespace Counted

theorem none : Counted (fun _ : η => 0) 0 := ⟨0, fun h => Multiset.count_zero h, rfl⟩

/-- The places determine the count. -/
theorem unique (h : Counted holds n) (h' : Counted holds n') : n = n' := by
  obtain ⟨m, hm, rfl⟩ := h
  obtain ⟨m', hm', rfl⟩ := h'
  have heq : m = m' := Multiset.ext.mpr fun x => (hm x).trans (hm' x).symm
  rw [heq]

/-- The places that let go of the object and those that took it. -/
theorem shift (h : Counted holds n) (dropped taken : Multiset η)
    (hholds : ∀ x, holds' x + dropped.count x = holds x + taken.count x)
    (hn : n' + dropped.card = n + taken.card) : Counted holds' n' := by
  obtain ⟨m, hm, rfl⟩ := h
  have hle : dropped ≤ m + taken := by
    refine Multiset.le_iff_count.mpr fun x => ?_
    rw [Multiset.count_add, hm]
    have := hholds x
    omega
  refine ⟨m + taken - dropped, fun x => ?_, ?_⟩
  · rw [Multiset.count_sub, Multiset.count_add, hm]
    have := hholds x
    omega
  · rw [Multiset.card_sub hle, Multiset.card_add]
    omega

/-- Whoever holds the object is counted. -/
theorem le (h : Counted holds n) (x : η) : holds x ≤ n := by
  obtain ⟨m, hm, rfl⟩ := h
  rw [← hm]
  exact Multiset.count_le_card x m

/-- One place takes references. -/
theorem gain (h : Counted holds n) {a : η} (k : Nat) (ha : holds' a = holds a + k)
    (hrest : ∀ x, x ≠ a → holds' x = holds x) : Counted holds' (n + k) := by
  refine h.shift 0 (Multiset.replicate k a) (fun x => ?_) (by simp)
  rw [Multiset.count_replicate]
  by_cases hx : a = x
  · subst hx
    simp [ha]
  · simp [hx, hrest x (Ne.symm hx)]

/-- One place drops references. -/
theorem lose (h : Counted holds n) {a : η} (k : Nat) (ha : holds' a + k = holds a)
    (hrest : ∀ x, x ≠ a → holds' x = holds x) : Counted holds' (n - k) := by
  have hle := h.le a
  refine h.shift (Multiset.replicate k a) 0 (fun x => ?_) (by simp; omega)
  rw [Multiset.count_replicate]
  by_cases hx : a = x
  · subst hx
    simp [ha]
  · simp [hx, hrest x (Ne.symm hx)]

theorem congr (h : Counted holds n) (heq : ∀ x, holds' x = holds x) : Counted holds' n := by
  rw [show holds' = holds from funext heq]
  exact h

theorem pos (h : Counted holds n) {x : η} (hx : holds x ≠ 0) : n ≠ 0 := by
  have := h.le x
  omega

end Counted

end UnifiedRuntime
