import Mathlib.Algebra.Group.Nat.Defs
import Mathlib.Data.List.Basic
import Mathlib.Data.List.Range

/-!
# Filling memory with a pattern

Memory is a function of 64-bit addresses, which wrap. A range is filled copy by copy, each
behind the one before.

- `put_offset`: what one copy writes, in offsets from the start of the range.
- `putTiles_eq`: copies that follow one another repeat the pattern.
- `repeats_le`: what repeats the pattern over a range has written to its end.
-/

namespace UnifiedRuntime.PatternFill

abbrev Bytes := UInt64 → UInt8

/-- The memory after `size` bytes of `data` are written from `dst` on. -/
def put (data : Bytes) (dst size : UInt64) (mem : Bytes) : Bytes := fun a =>
  if a - dst < size then data (a - dst) else mem a

/-- The memory after the first `n` copies from `dst` on. -/
def putTiles (pattern : Bytes) (dst patternSize : UInt64) (n : Nat) (mem : Bytes) : Bytes :=
  (List.range n).foldl
    (fun mem k => put pattern (dst + UInt64.ofNat (k * patternSize.toNat)) patternSize mem) mem

/-- The bytes from `dst` on are the pattern again and again, and the others are as before. -/
def Repeats (pattern : Bytes) (dst patternSize size : UInt64) (write : Bytes → Bytes) : Prop :=
  ∀ mem a, write mem a =
    if a - dst < size then pattern ((a - dst) % patternSize) else mem a

variable {pattern data mem : Bytes} {dst size patternSize : UInt64}

theorem sub_add_offset (a dst k : UInt64) : a - (dst + k) = a - dst - k := by
  apply UInt64.toNat.inj
  rw [UInt64.toNat_sub, UInt64.toNat_add, UInt64.toNat_sub, UInt64.toNat_sub]
  have hp := dst.toNat_lt
  have hk := k.toNat_lt
  omega

/-- **What is written at `k` bytes from the start**, in offsets that do not wrap. -/
theorem put_offset {k : UInt64} (hk : k.toNat + size.toNat < 2 ^ 64) (a : UInt64) :
    put data (dst + k) size mem a =
      if k.toNat ≤ (a - dst).toNat ∧ (a - dst).toNat < k.toNat + size.toNat then
        data (a - dst - k)
      else mem a := by
  have hnat : (a - dst - k).toNat = (2 ^ 64 - k.toNat + (a - dst).toNat) % 2 ^ 64 :=
    UInt64.toNat_sub _ _
  have hd := (a - dst).toNat_lt
  unfold put
  rw [sub_add_offset]
  by_cases hin : k.toNat ≤ (a - dst).toNat ∧ (a - dst).toNat < k.toNat + size.toNat
  · rw [if_pos hin, if_pos]
    rw [UInt64.lt_iff_toNat_lt]
    omega
  · rw [if_neg hin, if_neg]
    rw [UInt64.lt_iff_toNat_lt]
    omega

/-- Nothing is written outside the range. -/
theorem put_other (hsize : dst.toNat + size.toNat ≤ 2 ^ 64) {a : UInt64}
    (ha : a.toNat < dst.toNat ∨ dst.toNat + size.toNat ≤ a.toNat) :
    put data dst size mem a = mem a := by
  have hnat : (a - dst).toNat = (2 ^ 64 - dst.toNat + a.toNat) % 2 ^ 64 := UInt64.toNat_sub _ _
  have hlt := a.toNat_lt
  unfold put
  rw [if_neg]
  rw [UInt64.lt_iff_toNat_lt]
  omega

/-- In the copy that starts at `k` patterns, an offset is taken modulo the pattern. -/
theorem offset_mod {o p : UInt64} {k : Nat} (hlo : k * p.toNat ≤ o.toNat)
    (hhi : o.toNat < k * p.toNat + p.toNat) :
    o - UInt64.ofNat (k * p.toNat) = o % p := by
  have ho := o.toNat_lt
  have hk : (UInt64.ofNat (k * p.toNat)).toNat = k * p.toNat :=
    UInt64.toNat_ofNat_of_lt' (Nat.lt_of_le_of_lt hlo ho)
  obtain ⟨r, hr⟩ := Nat.exists_eq_add_of_le hlo
  apply UInt64.toNat.inj
  rw [UInt64.toNat_sub_of_le _ _ (UInt64.le_iff_toNat_le.mpr (by rw [hk]; exact hlo)), hk,
    UInt64.toNat_mod, hr, Nat.add_sub_cancel_left, Nat.mul_comm, Nat.mul_add_mod,
    Nat.mod_eq_of_lt (by omega)]

/-- **Copies that follow one another** repeat the pattern, and leave the rest as it was. -/
theorem putTiles_eq {n : Nat} (hn : n * patternSize.toNat < 2 ^ 64) (a : UInt64) :
    putTiles pattern dst patternSize n mem a =
      if (a - dst).toNat < n * patternSize.toNat then pattern ((a - dst) % patternSize)
      else mem a := by
  induction n with
  | zero => rw [Nat.zero_mul]; rfl
  | succ n ih =>
    have hsucc : (n + 1) * patternSize.toNat = n * patternSize.toNat + patternSize.toNat :=
      Nat.succ_mul _ _
    have hk : (UInt64.ofNat (n * patternSize.toNat)).toNat = n * patternSize.toNat :=
      UInt64.toNat_ofNat_of_lt' (by
        show _ < 2 ^ 64
        omega)
    have hlast : putTiles pattern dst patternSize (n + 1) mem =
        put pattern (dst + UInt64.ofNat (n * patternSize.toNat)) patternSize
          (putTiles pattern dst patternSize n mem) := by
      unfold putTiles
      rw [List.range_succ, List.foldl_append]
      rfl
    rw [hlast, put_offset (by omega), ih (by omega), hk]
    by_cases hin : n * patternSize.toNat ≤ (a - dst).toNat ∧
        (a - dst).toNat < n * patternSize.toNat + patternSize.toNat
    · rw [if_pos hin, if_pos (by omega), offset_mod hin.1 hin.2]
    · rw [if_neg hin]
      by_cases hbefore : (a - dst).toNat < n * patternSize.toNat
      · rw [if_pos hbefore, if_pos (by omega)]
      · rw [if_neg hbefore, if_neg (by omega)]

/-- A range that is written up to `m` bytes only is no longer than that. -/
theorem repeats_le {m : Nat} {write : Bytes → Bytes}
    (hwrite : ∀ mem a, write mem a =
      if (a - dst).toNat < m then pattern ((a - dst) % patternSize) else mem a)
    (h : Repeats pattern dst patternSize size write) : size.toNat ≤ m := by
  by_contra hlt
  have hsize := size.toNat_lt
  have hoff : (dst + UInt64.ofNat m - dst).toNat = m := by
    have hm : (UInt64.ofNat m).toNat = m := UInt64.toNat_ofNat_of_lt' (by
      show _ < 2 ^ 64
      omega)
    have hd := dst.toNat_lt
    rw [UInt64.toNat_sub, UInt64.toNat_add]
    omega
  -- a memory that differs from the pattern everywhere
  have hbyte := h (fun a => pattern ((a - dst) % patternSize) + 1) (dst + UInt64.ofNat m)
  rw [hwrite, if_neg (by omega), if_pos (UInt64.lt_iff_toNat_lt.mpr (by omega))] at hbyte
  have hnat := congrArg UInt8.toNat hbyte
  rw [UInt8.toNat_add] at hnat
  have hone : (1 : UInt8).toNat = 1 := rfl
  omega

/-- Copies repeat the pattern over a range exactly if they are enough for it. -/
theorem putTiles_repeats_iff (pattern : Bytes) (dst : UInt64) {n : Nat} (hle : n * patternSize.toNat ≤ size.toNat) :
    Repeats pattern dst patternSize size (putTiles pattern dst patternSize n) ↔
      n * patternSize.toNat = size.toNat := by
  have hsize := size.toNat_lt
  have hwrite := fun mem => @putTiles_eq pattern mem dst patternSize n (by omega)
  constructor
  · intro h
    exact Nat.le_antisymm hle (repeats_le hwrite h)
  · intro heq mem a
    rw [hwrite, heq]
    exact if_congr UInt64.lt_iff_toNat_lt.symm rfl rfl

end UnifiedRuntime.PatternFill
