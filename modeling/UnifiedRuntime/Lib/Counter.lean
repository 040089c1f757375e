import Mathlib

/-!
# Scaled readings of a counter

A counter that runs from 0 to `N - 1` and starts over is read twice, at `s` and
then at `e`, no full round later. The readings are scaled to a unit of `res` in
words of `W` values. When is the difference of the scaled readings the number of
ticks between them, in that unit?

Without a restart between the readings it is if both scaled readings lose the same
multiples of `W`. With a restart it never is, and adding the scaled maximum `N - 1`
to the second reading never makes up for one.
-/

namespace UnifiedRuntime.Counter

/-- The ticks from a reading of `s` to the next one of `e`. -/
def elapsed (N s e : Nat) : Nat := (e + N - s) % N

variable {W N s e res : Nat}

theorem elapsed_of_le (he : e < N) (h : s ≤ e) : elapsed N s e = e - s := by
  unfold elapsed
  rw [show e + N - s = e - s + N by omega, Nat.add_mod_right, Nat.mod_eq_of_lt (by omega)]

theorem elapsed_of_lt (hs : s < N) (h : e < s) : elapsed N s e = e + N - s := by
  unfold elapsed
  rw [Nat.mod_eq_of_lt (by omega)]

/-- Two counts, less than a full round apart. -/
theorem elapsed_mod {t₀ t₁ : Nat} (h : t₀ ≤ t₁) (hlt : t₁ < t₀ + N) :
    elapsed N (t₀ % N) (t₁ % N) = t₁ - t₀ := by
  have hN : 0 < N := by omega
  have hle := Nat.mod_lt t₀ hN
  unfold elapsed
  have hsum : t₁ % N + N - t₀ % N ≡ t₁ - t₀ [MOD N] := by
    apply Nat.ModEq.add_right_cancel' (t₀ % N)
    rw [Nat.sub_add_cancel (by omega)]
    calc t₁ % N + N ≡ t₁ [MOD N] := by
          show (t₁ % N + N) % N = t₁ % N
          rw [Nat.add_mod_right, Nat.mod_mod]
      _ = t₁ - t₀ + t₀ := (Nat.sub_add_cancel h).symm
      _ ≡ t₁ - t₀ + t₀ % N [MOD N] := (Nat.mod_modEq t₀ N).symm.add_left _
  rw [hsum, Nat.mod_eq_of_lt (by omega)]

/-- Without a restart: both readings lose the same multiples of `W`. -/
theorem scaled_eq_iff (hW : 0 < W) (h : s ≤ e) :
    e * res % W = s * res % W + (e - s) * res ↔ s * res / W = e * res / W := by
  have hsum : s * res + (e - s) * res = e * res := by
    rw [← Nat.add_mul]
    congr 1
    omega
  have hs := Nat.div_add_mod (s * res) W
  have he := Nat.div_add_mod (e * res) W
  constructor
  · intro heq
    apply Nat.eq_of_mul_eq_mul_left hW
    omega
  · intro hdiv
    rw [hdiv] at hs
    omega

/-- A reading of `x` is the one of `m` and `l` ticks if those lose no more multiples of `W`, and
the reading is that of `m + l`. -/
theorem scaled_add_iff (hW : 0 < W) {m l x : Nat} :
    x * res % W = m * res % W + l * res ↔
      m * res / W = (m + l) * res / W ∧ x * res % W = (m + l) * res % W := by
  have hplain := @scaled_eq_iff W m (m + l) res hW (Nat.le_add_right m l)
  rw [Nat.add_sub_cancel_left] at hplain
  constructor
  · intro heq
    have hlt : m * res % W + l * res < W := by
      rw [← heq]
      exact Nat.mod_lt _ hW
    have hsum : (m + l) * res % W = m * res % W + l * res := by
      rw [Nat.add_mul, ← Nat.mod_add_mod, Nat.mod_eq_of_lt hlt]
    exact ⟨hplain.mp hsum, heq.trans hsum.symm⟩
  · rintro ⟨hdiv, heq⟩
    exact heq.trans (hplain.mpr hdiv)

/-- The second reading is never ahead by the ticks of a full round more. -/
theorem scaled_ne (hres : 0 < res) (hs : s < N) :
    e * res % W ≠ s * res % W + (e + N - s) * res := by
  intro heq
  have hsum : s * res + (e + N - s) * res = e * res + N * res := by
    rw [← Nat.add_mul, ← Nat.add_mul]
    congr 1
    omega
  have hround : N * res ≤ s * res := by
    have hquot := Nat.div_add_mod (e * res) W
    omega
  exact absurd (Nat.le_of_mul_le_mul_right hround hres) (Nat.not_le.mpr hs)

/-- **Adding the maximum does not make up for a restart**, and is wrong without one. -/
theorem corrected_ne (hN : 1 < N) (hs : s < N) (he : e < N) (hres : 0 < res) (hresW : res < W)
    (hco : Nat.Coprime W (N - 1)) :
    (e * res % W + (N - 1) * res) % W ≠ s * res % W + elapsed N s e * res := by
  intro heq
  have hmod : e * res + (N - 1) * res ≡ s * res + elapsed N s e * res [MOD W] := by
    have hl : e * res % W + (N - 1) * res ≡ e * res + (N - 1) * res [MOD W] :=
      (Nat.mod_modEq (e * res) W).add_right _
    have hr : s * res % W + elapsed N s e * res ≡ s * res + elapsed N s e * res [MOD W] :=
      (Nat.mod_modEq (s * res) W).add_right _
    have hmid : e * res % W + (N - 1) * res ≡ s * res % W + elapsed N s e * res [MOD W] := by
      rw [← heq]
      exact (Nat.mod_modEq _ W).symm
    exact hl.symm.trans (hmid.trans hr)
  rw [← Nat.add_mul, ← Nat.add_mul] at hmod
  rcases Nat.lt_or_ge e s with hlt | hle
  · -- The maximum is one short of a full round.
    rw [elapsed_of_lt hs hlt, show s + (e + N - s) = e + (N - 1) + 1 by omega, Nat.add_mul _ 1,
      Nat.one_mul] at hmod
    have hdvd : res ≡ 0 [MOD W] := (Nat.ModEq.add_left_cancel' _ hmod).symm
    have hres0 := Nat.le_of_dvd hres (Nat.modEq_zero_iff_dvd.mp hdvd)
    omega
  · rw [elapsed_of_le he hle, show s + (e - s) = e by omega, Nat.add_mul] at hmod
    have hdvd : (N - 1) * res ≡ 0 [MOD W] := Nat.ModEq.add_left_cancel' _ hmod
    have hdvd' : W ∣ res := hco.dvd_of_dvd_mul_left (Nat.modEq_zero_iff_dvd.mp hdvd)
    have hres0 := Nat.le_of_dvd hres hdvd'
    omega

/-- The uncorrected second reading: right without a restart and with equal losses. -/
theorem plain_iff (hW : 0 < W) (hs : s < N) (he : e < N) (hres : 0 < res) :
    e * res % W = s * res % W + elapsed N s e * res ↔ s ≤ e ∧ s * res / W = e * res / W := by
  rcases Nat.lt_or_ge e s with hlt | hle
  · rw [elapsed_of_lt hs hlt]
    refine ⟨fun heq => absurd heq (scaled_ne hres hs), fun h => ?_⟩
    omega
  · rw [elapsed_of_le he hle, scaled_eq_iff hW hle]
    exact ⟨fun h => ⟨hle, h⟩, fun h => h.2⟩

end UnifiedRuntime.Counter
