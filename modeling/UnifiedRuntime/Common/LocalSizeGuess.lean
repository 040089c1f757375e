import Mathlib.Data.Nat.Find
import UnifiedRuntime.Lib.NarrowLoop

/-!
# Guesses of a local size

Where no local size is asked for, each adapter takes one that divides the range. All numbers stay
below the sizes they start from, so none wraps.
-/

namespace UnifiedRuntime

def isPowerOf2 (value : Nat) : Bool := value != 0 && value &&& (value - 1) == 0

/-- `roundToHighestFactorOfGlobalSize`: down by one until the range is divided, or 1 is left. -/
def roundToHighestFactorOfGlobalSize (threadsPerBlock globalWorkSize : Nat) : Nat :=
  Nat.findGreatest (fun t => ¬ (1 < t ∧ globalWorkSize % t ≠ 0)) threadsPerBlock

/-- The loops for the first dimension, which go down by one as well. -/
def roundToPowerOf2 (threadsPerBlock globalWorkSize : Nat) : Nat :=
  Nat.findGreatest (fun t => ¬ (1 < t ∧ globalWorkSize % t ≠ 0) ∧
    ¬ (isPowerOf2 t = false ∧ 32 < t)) threadsPerBlock

/-- The sizes in three dimensions. -/
structure Sizes (α : Type) where
  x : α
  y : α
  z : α

/-- `roundToHighestFactorOfGlobalSizeIn3d`, with its divisions. -/
def roundToHighestFactorOfGlobalSizeIn3d (globalSize maxBlockDim : Sizes Nat) (maxBlockSize : Nat) :
    Except Stop (Sizes Nat) :=
  let x := roundToPowerOf2 (min globalSize.x (min maxBlockSize maxBlockDim.x)) globalSize.x
  if x = 0 then .error .fault
  else
    let y := roundToHighestFactorOfGlobalSize
      (min globalSize.y (min (maxBlockSize / x) maxBlockDim.y)) globalSize.y
    if y * x = 0 then .error .fault
    else .ok ⟨x, y, roundToHighestFactorOfGlobalSize
      (min globalSize.z (min (maxBlockSize / (y * x)) maxBlockDim.z)) globalSize.z⟩

/-! ## One dimension -/

variable {t g : Nat}

theorem roundToHighestFactor_le : roundToHighestFactorOfGlobalSize t g ≤ t := Nat.findGreatest_le t

theorem roundToHighestFactor_pos : 0 < roundToHighestFactorOfGlobalSize t g ↔ 0 < t := by
  constructor
  · exact fun h => Nat.lt_of_lt_of_le h roundToHighestFactor_le
  · exact fun h => Nat.le_findGreatest h fun h => absurd h.1 (Nat.lt_irrefl 1)

/-- **What is left divides the range.** -/
theorem roundToHighestFactor_dvd (h : 0 < t) : roundToHighestFactorOfGlobalSize t g ∣ g := by
  have hspec := Nat.findGreatest_spec (P := fun t => ¬ (1 < t ∧ g % t ≠ 0)) (m := 1) h
    fun h => absurd h.1 (Nat.lt_irrefl 1)
  have hpos := (roundToHighestFactor_pos (g := g)).mpr h
  by_cases hone : 1 < roundToHighestFactorOfGlobalSize t g
  · exact Nat.dvd_of_mod_eq_zero (not_not.mp fun hmod => hspec ⟨hone, hmod⟩)
  · rw [show roundToHighestFactorOfGlobalSize t g = 1 by omega]
    exact Nat.one_dvd g

theorem roundToPowerOf2_le : roundToPowerOf2 t g ≤ t := Nat.findGreatest_le t

theorem roundToPowerOf2_pos : 0 < roundToPowerOf2 t g ↔ 0 < t := by
  constructor
  · exact fun h => Nat.lt_of_lt_of_le h roundToPowerOf2_le
  · exact fun h => Nat.le_findGreatest h
      ⟨fun h => absurd h.1 (Nat.lt_irrefl 1), fun h => absurd h.2 (by omega)⟩

theorem roundToPowerOf2_dvd (h : 0 < t) : roundToPowerOf2 t g ∣ g := by
  have hspec := Nat.findGreatest_spec (P := fun t => ¬ (1 < t ∧ g % t ≠ 0) ∧
      ¬ (isPowerOf2 t = false ∧ 32 < t)) (m := 1) h
    ⟨fun h => absurd h.1 (Nat.lt_irrefl 1), fun h => absurd h.2 (by omega)⟩
  have hpos := (roundToPowerOf2_pos (g := g)).mpr h
  by_cases hone : 1 < roundToPowerOf2 t g
  · exact Nat.dvd_of_mod_eq_zero (not_not.mp fun hmod => hspec.1 ⟨hone, hmod⟩)
  · rw [show roundToPowerOf2 t g = 1 by omega]
    exact Nat.one_dvd g

/-! ## Three dimensions -/

variable {globalSize maxBlockDim s : Sizes Nat} {maxBlockSize : Nat}

/-- **When nothing is divided by zero.** -/
theorem roundIn3d_fault (globalSize maxBlockDim : Sizes Nat) (maxBlockSize : Nat) :
    (∃ stop, roundToHighestFactorOfGlobalSizeIn3d globalSize maxBlockDim maxBlockSize =
      .error stop) ↔ globalSize.x = 0 ∨ maxBlockSize = 0 ∨ maxBlockDim.x = 0 ∨ globalSize.y = 0 ∨
        maxBlockDim.y = 0 := by
  unfold roundToHighestFactorOfGlobalSizeIn3d
  dsimp only
  have hx := roundToPowerOf2_pos (t := min globalSize.x (min maxBlockSize maxBlockDim.x))
    (g := globalSize.x)
  have hle := roundToPowerOf2_le (t := min globalSize.x (min maxBlockSize maxBlockDim.x))
    (g := globalSize.x)
  generalize roundToPowerOf2 (min globalSize.x (min maxBlockSize maxBlockDim.x)) globalSize.x = x
    at hx hle ⊢
  by_cases hzero : x = 0
  · rw [if_pos hzero]
    exact iff_of_true ⟨_, rfl⟩ (by omega)
  · have hquot : 0 < maxBlockSize / x := Nat.div_pos (by omega) (by omega)
    have hy := roundToHighestFactor_pos
      (t := min globalSize.y (min (maxBlockSize / x) maxBlockDim.y)) (g := globalSize.y)
    generalize roundToHighestFactorOfGlobalSize
      (min globalSize.y (min (maxBlockSize / x) maxBlockDim.y)) globalSize.y = y at hy ⊢
    rw [if_neg hzero]
    by_cases hmul : y * x = 0
    · have : y = 0 := (Nat.mul_eq_zero.mp hmul).resolve_right hzero
      rw [if_pos hmul]
      exact iff_of_true ⟨_, rfl⟩ (by omega)
    · have : y ≠ 0 := fun h => hmul (by rw [h, Nat.zero_mul])
      rw [if_neg hmul]
      exact iff_of_false nofun (by omega)

/-- What is known of a guess; the last size is 0 only for a range or a limit that is. -/
structure Guessed (globalSize maxBlockDim : Sizes Nat) (maxBlockSize : Nat) (s : Sizes Nat) :
    Prop where
  pos : 0 < s.x ∧ 0 < s.y ∧ (0 < s.z ↔ 0 < globalSize.z ∧ 0 < maxBlockDim.z)
  dvd : s.x ∣ globalSize.x ∧ s.y ∣ globalSize.y ∧ (0 < s.z → s.z ∣ globalSize.z)
  range : s.x ≤ globalSize.x ∧ s.y ≤ globalSize.y ∧ s.z ≤ globalSize.z
  limit : s.x ≤ maxBlockDim.x ∧ s.y ≤ maxBlockDim.y ∧ s.z ≤ maxBlockDim.z
  total : s.x * s.y * s.z ≤ maxBlockSize

/-- **What a guess is.** -/
theorem roundIn3d_ok
    (h : roundToHighestFactorOfGlobalSizeIn3d globalSize maxBlockDim maxBlockSize = .ok s) :
    Guessed globalSize maxBlockDim maxBlockSize s := by
  unfold roundToHighestFactorOfGlobalSizeIn3d at h
  have hx := roundToPowerOf2_pos (t := min globalSize.x (min maxBlockSize maxBlockDim.x))
    (g := globalSize.x)
  have hxle := roundToPowerOf2_le (t := min globalSize.x (min maxBlockSize maxBlockDim.x))
    (g := globalSize.x)
  have hxdvd := roundToPowerOf2_dvd (t := min globalSize.x (min maxBlockSize maxBlockDim.x))
    (g := globalSize.x)
  generalize roundToPowerOf2 (min globalSize.x (min maxBlockSize maxBlockDim.x)) globalSize.x = x
    at h hx hxle hxdvd
  -- each dimension divides what is left by the ones before it
  by_cases hxzero : x = 0
  · rw [if_pos hxzero] at h
    cases h
  rw [if_neg hxzero] at h
  have hy := roundToHighestFactor_pos
    (t := min globalSize.y (min (maxBlockSize / x) maxBlockDim.y)) (g := globalSize.y)
  have hyle := roundToHighestFactor_le
    (t := min globalSize.y (min (maxBlockSize / x) maxBlockDim.y)) (g := globalSize.y)
  have hydvd := roundToHighestFactor_dvd
    (t := min globalSize.y (min (maxBlockSize / x) maxBlockDim.y)) (g := globalSize.y)
  generalize roundToHighestFactorOfGlobalSize
    (min globalSize.y (min (maxBlockSize / x) maxBlockDim.y)) globalSize.y = y
    at h hy hyle hydvd
  by_cases hmul : y * x = 0
  · rw [if_pos hmul] at h
    cases h
  rw [if_neg hmul] at h
  obtain rfl := Except.ok.inj h
  rw [Nat.le_min, Nat.le_min] at hxle hyle
  have hypos : 0 < y := Nat.pos_of_ne_zero fun h => hmul (by rw [h, Nat.zero_mul])
  have hyx : y * x ≤ maxBlockSize := Nat.le_trans (Nat.mul_le_mul_right x hyle.2.1)
    (Nat.div_mul_le_self maxBlockSize x)
  have hquot : 0 < maxBlockSize / (y * x) := Nat.div_pos hyx (Nat.pos_of_ne_zero hmul)
  have hz := roundToHighestFactor_pos (g := globalSize.z)
    (t := min globalSize.z (min (maxBlockSize / (y * x)) maxBlockDim.z))
  have hzle := roundToHighestFactor_le (g := globalSize.z)
    (t := min globalSize.z (min (maxBlockSize / (y * x)) maxBlockDim.z))
  have hzdvd := roundToHighestFactor_dvd (g := globalSize.z)
    (t := min globalSize.z (min (maxBlockSize / (y * x)) maxBlockDim.z))
  generalize roundToHighestFactorOfGlobalSize
    (min globalSize.z (min (maxBlockSize / (y * x)) maxBlockDim.z)) globalSize.z = z
    at hz hzle hzdvd
  rw [Nat.le_min, Nat.le_min] at hzle
  have hxpos : 0 < x := Nat.pos_of_ne_zero hxzero
  refine ⟨⟨hxpos, hypos, ?_⟩, ⟨hxdvd (hx.mp hxpos), hydvd (hy.mp hypos), fun hpos => ?_⟩,
    ⟨hxle.1, hyle.1, hzle.1⟩, ⟨hxle.2.2, hyle.2.2, hzle.2.2⟩, ?_⟩
  · rw [hz, Nat.lt_min, Nat.lt_min]
    exact and_congr_right fun _ => and_iff_right hquot
  · exact hzdvd (hz.mp hpos)
  · calc x * y * z = z * (y * x) := by rw [Nat.mul_comm x y, Nat.mul_comm]
      _ ≤ maxBlockSize / (y * x) * (y * x) := Nat.mul_le_mul_right _ hzle.2.1
      _ ≤ maxBlockSize := Nat.div_mul_le_self maxBlockSize (y * x)

end UnifiedRuntime
