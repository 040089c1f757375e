import UnifiedRuntime.Common.LocalSizeGuess

/-!
# The loops behind a guessed local size

`roundToHighestFactorOfGlobalSizeIn3d` as its loops compute it, on `size_t`. The size of the first
dimension is rounded to a divisor again and again, until it is a power of two or small enough.

- `roundToHighestFactor_toNat`, `firstSize_toNat`: what the loops find.
- `guess_largest`: what the sizes are.
-/

namespace UnifiedRuntime.LocalSizeLoops

theorem toNat_pred {t : UInt64} (h : 1 < t) : (t - 1).toNat = t.toNat - 1 ∧ 1 < t.toNat := by
  have hlt : 1 < t.toNat := UInt64.lt_iff_toNat_lt.mp h
  have hle : (1 : UInt64) ≤ t := UInt64.le_iff_toNat_le.mpr (Nat.le_of_lt hlt)
  exact ⟨UInt64.toNat_sub_of_le t 1 hle, hlt⟩

/-- `roundToHighestFactorOfGlobalSize`. -/
def roundToHighestFactorOfGlobalSize (threadsPerBlock globalWorkSize : UInt64) : UInt64 :=
  if _ : 1 < threadsPerBlock ∧ globalWorkSize % threadsPerBlock ≠ 0 then
    roundToHighestFactorOfGlobalSize (threadsPerBlock - 1) globalWorkSize
  else threadsPerBlock
termination_by threadsPerBlock.toNat
decreasing_by
  have hpred := toNat_pred (by assumption : 1 < threadsPerBlock ∧ _).1
  omega

def isPowerOf2 (value : UInt64) : Bool := value != 0 && value &&& (value - 1) == 0

variable {t g : UInt64}

/-- **The loop** goes down to the divisor that is described by `LocalSizeGuess`. -/
theorem roundToHighestFactor_toNat : (roundToHighestFactorOfGlobalSize t g).toNat =
    UnifiedRuntime.roundToHighestFactorOfGlobalSize t.toNat g.toNat := by
  induction t using roundToHighestFactorOfGlobalSize.induct g with
  | case1 t h ih =>
    obtain ⟨hpred, hlt⟩ := toNat_pred h.1
    have hsucc : t.toNat - 1 + 1 = t.toNat := Nat.sub_add_cancel (Nat.le_of_lt hlt)
    have hdown := Nat.findGreatest_of_not (P := fun s => ¬ (1 < s ∧ g.toNat % s ≠ 0))
      (n := t.toNat - 1) fun hstop => by
        rw [hsucc] at hstop
        refine hstop ⟨hlt, fun hmod => h.2 ?_⟩
        exact UInt64.toNat_inj.mp hmod
    rw [hsucc] at hdown
    rw [roundToHighestFactorOfGlobalSize, dif_pos h, ih, hpred]
    exact hdown.symm
  | case2 t h =>
    rw [roundToHighestFactorOfGlobalSize, dif_neg h]
    refine (Nat.findGreatest_eq fun hgo => h ⟨UInt64.lt_iff_toNat_lt.mpr hgo.1, fun hmod => ?_⟩).symm
    rw [← UInt64.toNat_mod, hmod] at hgo
    exact hgo.2 rfl

theorem roundToHighestFactor_toNat_le :
    (roundToHighestFactorOfGlobalSize t g).toNat ≤ t.toNat := by
  rw [roundToHighestFactor_toNat]
  exact roundToHighestFactor_le

theorem one_lt_of_thirtyTwo (h : 32 < t) : 1 < t := by
  exact Nat.lt_trans (by decide) h

/-- The loop over the first dimension. -/
def firstSize (threadsPerBlock globalSize : UInt64) : UInt64 :=
  let rounded := roundToHighestFactorOfGlobalSize threadsPerBlock globalSize
  if _ : isPowerOf2 rounded = false ∧ 32 < rounded then
    if rounded - 1 ≠ 0 then firstSize (rounded - 1) globalSize else rounded - 1
  else rounded
termination_by threadsPerBlock.toNat
decreasing_by
  have hpred := toNat_pred (one_lt_of_thirtyTwo (by assumption : _ ∧ 32 < rounded).2)
  have hle : rounded.toNat ≤ threadsPerBlock.toNat := roundToHighestFactor_toNat_le
  change (rounded - 1).toNat < threadsPerBlock.toNat
  omega

/-- `roundToHighestFactorOfGlobalSizeIn3d`, with its divisions. -/
def roundToHighestFactorOfGlobalSizeIn3d (globalSize maxBlockDim : Sizes UInt64)
    (maxBlockSize : UInt64) : Except Stop (Sizes UInt64) :=
  let x := firstSize (min globalSize.x (min maxBlockSize maxBlockDim.x)) globalSize.x
  if x = 0 then .error .fault
  else
    let y := roundToHighestFactorOfGlobalSize
      (min globalSize.y (min (maxBlockSize / x) maxBlockDim.y)) globalSize.y
    if y * x = 0 then .error .fault
    else .ok ⟨x, y, roundToHighestFactorOfGlobalSize
      (min globalSize.z (min (maxBlockSize / (y * x)) maxBlockDim.z)) globalSize.z⟩

/-! ## The first dimension -/

theorem isPowerOf2_toNat : isPowerOf2 t = UnifiedRuntime.isPowerOf2 t.toNat := by
  unfold isPowerOf2 UnifiedRuntime.isPowerOf2
  by_cases hzero : t = 0
  · rw [hzero]
    rfl
  · have hne : t.toNat ≠ 0 := fun h => hzero (UInt64.toNat_inj.mp h)
    have hle : (1 : UInt64) ≤ t := UInt64.le_iff_toNat_le.mpr (Nat.one_le_iff_ne_zero.mpr hne)
    have hand : (t &&& (t - 1)).toNat = t.toNat &&& (t.toNat - 1) := by
      rw [UInt64.toNat_and, UInt64.toNat_sub_of_le t 1 hle]
      rfl
    rw [bne_iff_ne.mpr hzero, bne_iff_ne.mpr hne, ← hand, Bool.eq_iff_iff, Bool.true_and,
      Bool.true_and, beq_iff_eq, beq_iff_eq]
    exact UInt64.toNat_inj.symm

theorem isPowerOf2_iff {n : Nat} : UnifiedRuntime.isPowerOf2 n = true ↔ n.isPowerOfTwo := by
  unfold UnifiedRuntime.isPowerOf2
  rw [← Nat.ne_zero_and_sub_one_eq_zero_iff_isPowerOfTwo, Bool.and_eq_true, bne_iff_ne,
    beq_iff_eq]

/-- Where the first loop stops. -/
theorem divides_round {t g : Nat} : ¬ (1 < UnifiedRuntime.roundToHighestFactorOfGlobalSize t g ∧
    g % UnifiedRuntime.roundToHighestFactorOfGlobalSize t g ≠ 0) := by
  rintro ⟨hlt, hmod⟩
  have hpos : 0 < t := roundToHighestFactor_pos.mp (Nat.lt_of_succ_lt hlt)
  exact hmod (Nat.mod_eq_zero_of_dvd (roundToHighestFactor_dvd hpos))

/-- Nothing is missed between the start of the first loop and its end. -/
theorem roundToPowerOf2_round (t g : Nat) : roundToPowerOf2 t g =
    roundToPowerOf2 (UnifiedRuntime.roundToHighestFactorOfGlobalSize t g) g := by
  refine Nat.findGreatest_eq_iff.mpr ⟨Nat.le_trans roundToPowerOf2_le roundToHighestFactor_le,
    fun hne => Nat.findGreatest_of_ne_zero rfl hne, fun n hlt hle hstop => ?_⟩
  by_cases hn : n ≤ UnifiedRuntime.roundToHighestFactorOfGlobalSize t g
  · exact Nat.findGreatest_is_greatest hlt hn hstop
  · exact Nat.findGreatest_is_greatest (Nat.lt_of_not_le hn) hle hstop.1

/-- **The loops together** find the greatest divisor that is a power of two or small. -/
theorem firstSize_toNat : (firstSize t g).toNat = roundToPowerOf2 t.toNat g.toNat := by
  have hlow : ∀ r : UInt64, ¬ (isPowerOf2 r = false ∧ 32 < r) ↔
      ¬ (UnifiedRuntime.isPowerOf2 r.toNat = false ∧ 32 < r.toNat) := by
    intro r
    rw [isPowerOf2_toNat]
    rfl
  induction t using firstSize.induct g with
  | case1 t rounded h hnext ih =>
    obtain ⟨hpred, hlt⟩ := toNat_pred (one_lt_of_thirtyTwo h.2)
    have hround : UnifiedRuntime.roundToHighestFactorOfGlobalSize t.toNat g.toNat = rounded.toNat :=
      roundToHighestFactor_toNat.symm
    have hsucc : rounded.toNat - 1 + 1 = rounded.toNat := Nat.sub_add_cancel (Nat.le_of_lt hlt)
    have hdown := Nat.findGreatest_of_not (P := fun s => ¬ (1 < s ∧ g.toNat % s ≠ 0) ∧
      ¬ (UnifiedRuntime.isPowerOf2 s = false ∧ 32 < s)) (n := rounded.toNat - 1) fun hstop => by
        rw [hsucc] at hstop
        exact (hlow rounded).mpr hstop.2 h
    rw [hsucc] at hdown
    rw [firstSize, dif_pos h, if_pos hnext, ih, hpred, roundToPowerOf2_round t.toNat,
      hround]
    exact hdown.symm
  | case2 t rounded h hnext =>
    obtain ⟨hpred, -⟩ := toNat_pred (one_lt_of_thirtyTwo h.2)
    have hlt : 32 < rounded.toNat := UInt64.lt_iff_toNat_lt.mp h.2
    have hzero : (rounded - 1).toNat = 0 := by rw [not_not.mp hnext]; rfl
    omega
  | case3 t rounded h =>
    have hround : UnifiedRuntime.roundToHighestFactorOfGlobalSize t.toNat g.toNat = rounded.toNat :=
      roundToHighestFactor_toNat.symm
    have hdvd := divides_round (t := t.toNat) (g := g.toNat)
    rw [hround] at hdvd
    rw [firstSize, dif_neg h, roundToPowerOf2_round t.toNat, hround]
    exact (Nat.findGreatest_eq ⟨hdvd, (hlow rounded).mp h⟩).symm

/-! ## Three dimensions -/

def Sizes.toNat (s : Sizes UInt64) : Sizes Nat := ⟨s.x.toNat, s.y.toNat, s.z.toNat⟩

theorem toNat_min {a b : UInt64} : (min a b).toNat = min a.toNat b.toNat := by
  by_cases h : a ≤ b
  · rw [show min a b = a from if_pos h]
    exact (Nat.min_eq_left (UInt64.le_iff_toNat_le.mp h)).symm
  · rw [show min a b = b from if_neg h]
    exact (Nat.min_eq_right (Nat.le_of_not_le fun hle => h (UInt64.le_iff_toNat_le.mpr hle))).symm

/-- **The sizes are those of `LocalSizeGuess`**: nothing overflows. -/
theorem roundIn3d_toNat (globalSize maxBlockDim : Sizes UInt64) (maxBlockSize : UInt64) :
    (roundToHighestFactorOfGlobalSizeIn3d globalSize maxBlockDim maxBlockSize).map Sizes.toNat =
      UnifiedRuntime.roundToHighestFactorOfGlobalSizeIn3d (Sizes.toNat globalSize)
        (Sizes.toNat maxBlockDim) maxBlockSize.toNat := by
  unfold roundToHighestFactorOfGlobalSizeIn3d UnifiedRuntime.roundToHighestFactorOfGlobalSizeIn3d
  dsimp only [Sizes.toNat]
  have hx := firstSize_toNat (t := min globalSize.x (min maxBlockSize maxBlockDim.x))
    (g := globalSize.x)
  rw [toNat_min, toNat_min] at hx
  rw [← hx]
  generalize firstSize (min globalSize.x (min maxBlockSize maxBlockDim.x)) globalSize.x = x
  by_cases hzero : x = 0
  · rw [hzero]
    rfl
  have hxne : x.toNat ≠ 0 := fun h => hzero (UInt64.toNat_inj.mp h)
  have hy := roundToHighestFactor_toNat (g := globalSize.y)
    (t := min globalSize.y (min (maxBlockSize / x) maxBlockDim.y))
  have hyle := roundToHighestFactor_toNat_le (g := globalSize.y)
    (t := min globalSize.y (min (maxBlockSize / x) maxBlockDim.y))
  rw [toNat_min, toNat_min, UInt64.toNat_div] at hy hyle
  rw [if_neg hzero, if_neg hxne, ← hy]
  generalize roundToHighestFactorOfGlobalSize
    (min globalSize.y (min (maxBlockSize / x) maxBlockDim.y)) globalSize.y = y at hyle ⊢
  -- the second size is a part of what the first leaves
  have hmul : (y * x).toNat = y.toNat * x.toNat := by
    have hle : y.toNat * x.toNat ≤ maxBlockSize.toNat := calc
      y.toNat * x.toNat ≤ maxBlockSize.toNat / x.toNat * x.toNat :=
        Nat.mul_le_mul_right _ (Nat.le_trans hyle
          (Nat.le_trans (Nat.min_le_right _ _) (Nat.min_le_left _ _)))
      _ ≤ maxBlockSize.toNat := Nat.div_mul_le_self _ _
    exact Nat.mod_eq_of_lt (Nat.lt_of_le_of_lt hle maxBlockSize.toNat_lt)
  have hiff : y * x = 0 ↔ y.toNat * x.toNat = 0 := by
    rw [← hmul]
    exact UInt64.toNat_inj.symm
  by_cases hprod : y * x = 0
  · rw [if_pos hprod, if_pos (hiff.mp hprod)]
    rfl
  have hz := roundToHighestFactor_toNat (g := globalSize.z)
    (t := min globalSize.z (min (maxBlockSize / (y * x)) maxBlockDim.z))
  rw [toNat_min, toNat_min, UInt64.toNat_div, hmul] at hz
  rw [if_neg hprod, if_neg (fun h => hprod (hiff.mpr h)), ← hz]
  rfl

/-! ## The largest local size -/

/-- All sizes and limits are at least 1. -/
structure OneOrMore (globalSize maxBlockDim : Sizes UInt64) (maxBlockSize : UInt64) : Prop where
  global : 1 ≤ globalSize.x ∧ 1 ≤ globalSize.y ∧ 1 ≤ globalSize.z
  limits : 1 ≤ maxBlockDim.x ∧ 1 ≤ maxBlockDim.y ∧ 1 ≤ maxBlockDim.z
  total : 1 ≤ maxBlockSize

/-- **The sizes divide the range and keep the limits**, and the first is as large as it can be. -/
structure Largest (globalSize maxBlockDim : Sizes Nat) (maxBlockSize : Nat) (s : Sizes Nat) :
    Prop where
  pos : 1 ≤ s.x ∧ 1 ≤ s.y ∧ 1 ≤ s.z
  dvd : s.x ∣ globalSize.x ∧ s.y ∣ globalSize.y ∧ s.z ∣ globalSize.z
  limit : s.x ≤ maxBlockDim.x ∧ s.y ≤ maxBlockDim.y ∧ s.z ≤ maxBlockDim.z
  total : s.x * s.y * s.z ≤ maxBlockSize
  first : s.x.isPowerOfTwo ∨ s.x ≤ 32
  largest : ∀ n, n ∣ globalSize.x → n ≤ min globalSize.x (min maxBlockSize maxBlockDim.x) →
    n.isPowerOfTwo ∨ n ≤ 32 → n ≤ s.x

/-- The first size of a guess. -/
theorem first_of_guess {globalSize maxBlockDim s : Sizes Nat} {maxBlockSize : Nat}
    (h : UnifiedRuntime.roundToHighestFactorOfGlobalSizeIn3d globalSize maxBlockDim maxBlockSize =
      .ok s) :
    s.x = roundToPowerOf2 (min globalSize.x (min maxBlockSize maxBlockDim.x)) globalSize.x := by
  unfold UnifiedRuntime.roundToHighestFactorOfGlobalSizeIn3d at h
  dsimp only at h
  split at h
  · cases h
  · split at h
    · cases h
    · exact (congrArg Sizes.x (Except.ok.inj h)).symm

/-- **A guess**: the loops end without a fault. -/
theorem guess_largest (globalSize maxBlockDim : Sizes UInt64) (maxBlockSize : UInt64)
    (h : OneOrMore globalSize maxBlockDim maxBlockSize) :
    ∃ s, roundToHighestFactorOfGlobalSizeIn3d globalSize maxBlockDim maxBlockSize = .ok s ∧
      Largest (Sizes.toNat globalSize) (Sizes.toNat maxBlockDim) maxBlockSize.toNat
        (Sizes.toNat s) := by
  have hone : ∀ {u : UInt64}, 1 ≤ u → 0 < u.toNat := UInt64.le_iff_toNat_le.mp
  have hsame := roundIn3d_toNat globalSize maxBlockDim maxBlockSize
  cases hcall : roundToHighestFactorOfGlobalSizeIn3d globalSize maxBlockDim maxBlockSize with
  | error stop =>
    rw [hcall] at hsame
    have hfault := (roundIn3d_fault _ _ _).mp ⟨stop, hsame.symm⟩
    have hx := hone h.global.1
    have hy := hone h.global.2.1
    have hlx := hone h.limits.1
    have hly := hone h.limits.2.1
    have htotal := hone h.total
    dsimp only [Sizes.toNat] at hfault
    omega
  | ok s =>
    rw [hcall] at hsame
    have hguess := roundIn3d_ok hsame.symm
    have hfirst := first_of_guess hsame.symm
    have hz : 0 < (Sizes.toNat s).z := hguess.pos.2.2.mpr ⟨hone h.global.2.2, hone h.limits.2.2⟩
    refine ⟨s, rfl, ⟨hguess.pos.1, hguess.pos.2.1, hz⟩,
      ⟨hguess.dvd.1, hguess.dvd.2.1, hguess.dvd.2.2 hz⟩, hguess.limit, hguess.total, ?_, ?_⟩
    · have hne : (Sizes.toNat s).x ≠ 0 := Nat.ne_of_gt hguess.pos.1
      have hstop := (Nat.findGreatest_of_ne_zero hfirst.symm hne).2
      by_cases hle : (Sizes.toNat s).x ≤ 32
      · exact .inr hle
      · refine .inl (isPowerOf2_iff.mp ?_)
        cases hpow : UnifiedRuntime.isPowerOf2 (Sizes.toNat s).x with
        | true => rfl
        | false => exact absurd ⟨hpow, Nat.lt_of_not_le hle⟩ hstop
    · intro n hdvd hle hshape
      rw [hfirst]
      refine Nat.le_findGreatest hle ⟨fun hgo => hgo.2 (Nat.mod_eq_zero_of_dvd hdvd), fun hgo => ?_⟩
      rcases hshape with hpow | hsmall
      · rw [isPowerOf2_iff.mpr hpow] at hgo
        exact nomatch hgo.1
      · exact absurd hgo.2 (Nat.not_lt_of_le hsmall)

/-- A range of 96 by 6. -/
theorem guess_largest_two : ∃ s,
    roundToHighestFactorOfGlobalSizeIn3d ⟨96, 6, 1⟩ ⟨1024, 1024, 64⟩ 128 = .ok s ∧
      Largest ⟨96, 6, 1⟩ ⟨1024, 1024, 64⟩ 128 (Sizes.toNat s) :=
  guess_largest ⟨96, 6, 1⟩ ⟨1024, 1024, 64⟩ 128 ⟨by decide, by decide, by decide⟩

end UnifiedRuntime.LocalSizeLoops
