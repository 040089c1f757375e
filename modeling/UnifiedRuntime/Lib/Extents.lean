import Mathlib

/-!
# Intervals that lie apart, and intervals inside others

Things that occupy intervals of the naturals, no two of which overlap, and the
search for the one that a number lies in: the last that begins up to the number,
if it reaches beyond it.

A window shows a part of something that has a size, and there may be windows on
what a window shows. An access through the innermost one lands behind the
offsets of all of them. Where every window lies in what it is a window on,
nothing that is in range inside can be out of range outside.

- `Extents.locate_iff`: the search is exact.
- `Windows.Nested.inRange`: through nested windows nothing gets out of range.
-/

namespace UnifiedRuntime.Extents

variable {α : Type} (lo hi : α → Nat)

/-- One ends before the other begins. -/
def Apart (a b : α) : Prop := hi a ≤ lo b ∨ hi b ≤ lo a

/-- The predecessor search of an ordered map. -/
def locate (l : List α) (x : Nat) : Option α :=
  match (l.filter fun a => decide (lo a ≤ x)).argmax lo with
  | none => none
  | some a => if x < lo a ∨ hi a ≤ x then none else some a

variable {lo hi} {l : List α} {a b : α} {x : Nat}

theorem Apart.symm (h : Apart lo hi a b) : Apart lo hi b a := Or.symm h

/-- They do not begin at the same number. -/
theorem Apart.lo_ne (h : Apart lo hi a b) (ha : lo a < hi a) (hb : lo b < hi b) :
    lo a ≠ lo b := by
  rcases h with h | h
  · omega
  · omega

/-- What is found is in the list and has the number. -/
theorem locate_some (h : locate lo hi l x = some a) : a ∈ l ∧ lo a ≤ x ∧ x < hi a := by
  unfold locate at h
  split at h
  next => cases h
  next b hb =>
    obtain ⟨hin, ⟨⟩⟩ := Option.ite_none_left_eq_some.mp h
    rw [not_or, Nat.not_lt, Nat.not_le] at hin
    exact ⟨(List.mem_filter.mp (List.argmax_mem hb)).1, hin⟩

/-- **The search is exact** where the list's members lie apart. -/
theorem locate_iff (hpos : ∀ b ∈ l, lo b < hi b)
    (hapart : ∀ b ∈ l, ∀ c ∈ l, b ≠ c → Apart lo hi b c) :
    locate lo hi l x = some a ↔ a ∈ l ∧ lo a ≤ x ∧ x < hi a := by
  refine ⟨locate_some, fun ⟨hmem, hlo, hhi⟩ => ?_⟩
  have hin : a ∈ l.filter fun b => decide (lo b ≤ x) :=
    List.mem_filter.mpr ⟨hmem, decide_eq_true hlo⟩
  unfold locate
  split
  next hnone =>
    rw [List.argmax_eq_none] at hnone
    rw [hnone] at hin
    cases hin
  next b hb =>
    obtain ⟨hbmem, hblo⟩ := List.mem_filter.mp (List.argmax_mem hb)
    have hblo := of_decide_eq_true hblo
    have hle : lo a ≤ lo b := List.le_of_mem_argmax (f := lo) hin hb
    -- the last that begins up to the number begins in the one the number lies in
    have hba : b = a := by
      by_contra hne
      have hposb := hpos b hbmem
      rcases hapart b hbmem a hmem hne with h | h
      · omega
      · omega
    subst hba
    rw [if_neg (by omega)]

end UnifiedRuntime.Extents

namespace UnifiedRuntime.Windows

/-- The part of something that begins at `offset` and has `size` cells. -/
structure Window where
  offset : Nat
  size : Nat

/-- An access to `len` cells from `off` on, to something of size `n`. -/
def InRange (n off len : Nat) : Prop := off + len ≤ n

/-- The window does not reach beyond the `n` cells of what it is on. -/
def Window.Within (w : Window) (n : Nat) : Prop := w.offset + w.size ≤ n

/-- What the innermost window shows has this size (`n` if there is none). -/
def innerSize (n : Nat) : List Window → Nat
  | [] => n
  | w :: _ => w.size

/-- Each window, innermost first, lies within what it is on. -/
def Nested (n : Nat) : List Window → Prop
  | [] => True
  | w :: ws => w.Within (innerSize n ws) ∧ Nested n ws

/-- Where an access at `off` of the innermost window lands. -/
def place : List Window → Nat → Nat
  | [], off => off
  | w :: ws, off => place ws (off + w.offset)

variable {w : Window} {ws : List Window} {n off len : Nat}

theorem Window.Within.inRange (h : w.Within n) (ha : InRange w.size off len) :
    InRange n (off + w.offset) len := by
  unfold Window.Within at h
  unfold InRange at ha ⊢
  omega

/-- **Through nested windows nothing gets out of range.** -/
theorem Nested.inRange (h : Nested n ws) (ha : InRange (innerSize n ws) off len) :
    InRange n (place ws off) len := by
  induction ws generalizing off with
  | nil => exact ha
  | cons w ws ih =>
    show InRange n (place ws (off + w.offset)) len
    exact ih h.2 (h.1.inRange ha)

end UnifiedRuntime.Windows
