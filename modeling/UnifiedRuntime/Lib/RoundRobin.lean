import Mathlib

/-!
# Round robin over a ring of slots with a wrapping counter

A counter with `M` values hands out tokens; token `t` stands for slot `t % n` of
a ring of `n` slots. `Drawn M start d t` says that `t` is one of the `d` tokens
handed out since the counter stood at `start`.

A reader of the ring knows `start` and the counter's present value only. It
walks over the slots between the two (`ringRange`), or over all of them when the
two are at least `n` apart, and this reaches the slot of every token drawn in
between as long as the window is *covered* (`Covered`): the counter has not lost
a whole turn, and a turn of the counter is a number of turns of the ring (or did
not end in the window). `mem_ringRange_of_covered` is the main fact.
-/

namespace UnifiedRuntime

/-- `t` is one of the `d` tokens drawn since the counter stood at `start`. -/
def Drawn (M start d t : Nat) : Prop := ∃ k, k < d ∧ t = (start + k) % M

theorem Drawn.mono {M start d d' t : Nat} (h : Drawn M start d t) (hd : d ≤ d') :
    Drawn M start d' t := by
  obtain ⟨k, hk, ht⟩ := h
  exact ⟨k, by omega, ht⟩

/-- The token drawn last. -/
theorem drawn_last (M start d : Nat) : Drawn M start (d + 1) ((start + d) % M) :=
  ⟨d, by omega, rfl⟩

/-- The distance a reader of the counter computes. -/
theorem counter_distance {M start : Nat} (d : Nat) (hs : start < M) :
    ((start + d) % M + M - start) % M = d % M := by
  have h : (start + d) % M + M - start = (start + d) % M + (M - start) := by omega
  rw [h, Nat.mod_add_mod]
  have h' : start + d + (M - start) = d + M := by omega
  rw [h', Nat.add_mod_right]

/-- The counter after one more token. -/
theorem counter_next (M start d : Nat) : ((start + d) % M + 1) % M = (start + (d + 1)) % M := by
  rw [Nat.mod_add_mod, Nat.add_assoc]

/-! ## Walking over a part of the ring -/

/-- The slots from `a` up to `b`, round the ring when `b` comes first. -/
def ringRange (n a b : Nat) : List Nat :=
  if a ≤ b then List.range' a (b - a) else List.range' a (n - a) ++ List.range' 0 b

theorem mem_ringRange {n a b i : Nat} :
    i ∈ ringRange n a b ↔ if a ≤ b then a ≤ i ∧ i < b else (a ≤ i ∧ i < n) ∨ i < b := by
  unfold ringRange
  by_cases h : a ≤ b
  · rw [if_pos h, if_pos h, List.mem_range'_1]
    omega
  · rw [if_neg h, if_neg h, List.mem_append, List.mem_range'_1, List.mem_range'_1]
    omega

/-- Fewer than `n` steps from a slot stay inside the walk. -/
theorem mem_ringRange_of_lt {n s d k : Nat} (hd : d < n) (hk : k < d) :
    (s + k) % n ∈ ringRange n (s % n) ((s + d) % n) := by
  have hslot : ∀ j, j ≤ d → (s + j) % n = if n ≤ s % n + j then s % n + j - n else s % n + j := by
    intro j hj
    rw [Nat.add_mod_eq_ite, Nat.mod_eq_of_lt (show j < n by omega)]
  rw [mem_ringRange, hslot k (by omega), hslot d (by omega)]
  -- the walk either stays below the end of the ring or goes round it once
  split_ifs <;> omega

/-- **Covered.** The window of `d` tokens from `start` on can be read off the
counter: either the reader sees at least `n` of them and takes every slot, or the
counter has not come round and its turn does not tear the ring. -/
def Covered (M n start d : Nat) : Prop :=
  n ≤ d % M ∨ (d < M ∧ (n ∣ M ∨ start + d < M))

instance (M n start d : Nat) : Decidable (Covered M n start d) :=
  inferInstanceAs (Decidable (_ ∨ _))

/-- Every drawn token's slot is on the walk. -/
theorem mem_ringRange_of_covered {M n start d t : Nat} (hc : Covered M n start d)
    (hd : d % M < n) (ht : Drawn M start d t) :
    t % n ∈ ringRange n (start % n) ((start + d) % M % n) := by
  obtain ⟨k, hk, rfl⟩ := ht
  rcases hc with hc | ⟨hdM, hturn⟩
  · omega
  · rw [Nat.mod_eq_of_lt hdM] at hd
    rcases hturn with hdvd | hlt
    · rw [Nat.mod_mod_of_dvd _ hdvd, Nat.mod_mod_of_dvd _ hdvd]
      exact mem_ringRange_of_lt hd hk
    · rw [Nat.mod_eq_of_lt (show start + k < M by omega), Nat.mod_eq_of_lt hlt]
      exact mem_ringRange_of_lt hd hk

end UnifiedRuntime
