import UnifiedRuntime.LevelZero.WorkGroupExact

/-!
# The results of the two computations

The sizes come from the application, from the driver or from the device's limits; each way has
its own inputs on which a wrong size is accepted or the computation is undefined.

- `countDown_eq`: the computed size is the largest divisor within the limit.
- `sound_given`, `sound_suggested`, `sound_computed`: when a success is right.
- `complete_given`, `complete_suggested`, `complete_computed`: when an error is right.
- `workGroups_exact`: both, and when the computation of a cooperative launch is the same.
-/

namespace UnifiedRuntime.LevelZero.WorkGroup

variable {suggest : SuggestGroupSize} {limits : Limits} {workDim : Nat} {size : Three UInt64}
  {wg : Three UInt32} {α : Type} {l : List UInt64}

/-! ## Three dimensions -/

theorem forThree_ok {f : Fin 3 → Result α} {g : Three α} (h : ∀ i, f i = .ok (g i)) :
    forThree f = .ok g := by
  unfold forThree
  rw [h 0, h 1, h 2]
  exact congrArg Except.ok (three_ext rfl rfl rfl)

variable {i : Fin 3}

/-- The first dimension that fails is the failure of all. -/
theorem forThree_error {f : Fin 3 → Result α} {e : Failure} (h : f i = .error e)
    (hbefore : ∀ j, j < i → ∃ x, f j = .ok x) : forThree f = .error e := by
  unfold forThree
  match i with
  | 0 =>
    rw [h]
    rfl
  | 1 =>
    obtain ⟨x, hx⟩ := hbefore 0 (by decide)
    rw [hx, h]
    rfl
  | 2 =>
    obtain ⟨x, hx⟩ := hbefore 0 (by decide)
    obtain ⟨y, hy⟩ := hbefore 1 (by decide)
    rw [hx, hy, h]
    rfl

/-- All dimensions are computed, or one is the first to fail. -/
theorem forThree_cases (f : Fin 3 → Result α) :
    (∃ g, (∀ i, f i = .ok (g i)) ∧ forThree f = .ok g) ∨
      ∃ i e, f i = .error e ∧ (∀ j, j < i → ∃ x, f j = .ok x) ∧ forThree f = .error e := by
  by_cases hall : ∀ i, ∃ x, f i = .ok x
  · choose g hg using hall
    exact Or.inl ⟨g, hg, forThree_ok hg⟩
  · obtain ⟨i, hi, hmin⟩ := WellFounded.has_min (@wellFounded_lt (Fin 3) _ _)
      {i | ¬ ∃ x, f i = .ok x} (not_forall.mp hall)
    have hbefore : ∀ j, j < i → ∃ x, f j = .ok x := fun j hj => not_not.mp fun hn => hmin j hn hj
    cases hfi : f i with
    | ok x => exact absurd ⟨x, hfi⟩ hi
    | error e => exact Or.inr ⟨i, e, hfi, hbefore, forThree_error hfi hbefore⟩

/-! ## The computed size -/

/-- **Counting down finds the largest divisor.** -/
theorem countDown_eq (g n : Nat) : countDown g n = Nat.findGreatest (· ∣ g) n := by
  induction n with
  | zero => rfl
  | succ n ih =>
    unfold countDown
    rw [Nat.findGreatest_succ, ih]
    by_cases hdvd : n + 1 ∣ g
    · rw [if_pos (Nat.mod_eq_zero_of_dvd hdvd), if_pos hdvd]
    · rw [if_neg fun hmod => hdvd (Nat.dvd_of_mod_eq_zero hmod), if_neg hdvd]

/-- The largest size within the limit that divides the range. -/
def largestDivisor (limits : Limits) (size : Three UInt64) (i : Fin 3) : Nat :=
  Nat.findGreatest (· ∣ (size i).toNat) (limits.maxGroupSize i).toNat

/-- With it there are less than 2 ^ 32 groups. -/
def Fits (limits : Limits) (size : Three UInt64) (i : Fin 3) : Prop :=
  (size i).toNat / largestDivisor limits size i < 2 ^ 32

theorem largestDivisor_dvd (hmax : limits.maxGroupSize i ≠ 0) :
    largestDivisor limits size i ∣ (size i).toNat :=
  Nat.findGreatest_spec (m := 1) (P := (· ∣ (size i).toNat))
    (Nat.pos_of_ne_zero fun h0 => hmax (UInt32.toNat.inj h0)) (Nat.one_dvd _)

theorem largestDivisor_pos (hmax : limits.maxGroupSize i ≠ 0) : 0 < largestDivisor limits size i :=
  Nat.le_findGreatest (Nat.pos_of_ne_zero fun h0 => hmax (UInt32.toNat.inj h0)) (Nat.one_dvd _)

theorem largestDivisor_le :
    largestDivisor limits size i ≤ (limits.maxGroupSize i).toNat := Nat.findGreatest_le _

theorem le_largestDivisor {k : Nat} (hdvd : k ∣ (size i).toNat)
    (hle : k ≤ (limits.maxGroupSize i).toNat) : k ≤ largestDivisor limits size i :=
  Nat.le_findGreatest hle hdvd

/-- A range of one has only the size one. -/
theorem largestDivisor_one (hmax : limits.maxGroupSize i ≠ 0) (hone : size i = 1) :
    largestDivisor limits size i = 1 := by
  have hdvd := @largestDivisor_dvd _ size _ hmax
  rw [hone] at hdvd
  exact Nat.dvd_one.mp hdvd

theorem largestDivisor_toNat :
    (UInt32.ofNat (largestDivisor limits size i)).toNat = largestDivisor limits size i :=
  UInt32.toNat_ofNat_of_lt' (Nat.lt_of_le_of_lt largestDivisor_le (limits.maxGroupSize i).toNat_lt)

theorem suggestDimension_fault (h : ¬ (limits.maxGroupSize i ≠ 0 ∧ size i ≠ 0)) :
    suggestDimension (limits.maxGroupSize i) (size i) =
      .error (.undefined .divisionByZero) := by
  have hmin : min (limits.maxGroupSize i).toNat (size i).toNat = 0 := by
    by_cases hmax : limits.maxGroupSize i = 0
    · rw [hmax]
      exact Nat.zero_min _
    · have hzero : size i = 0 := not_not.mp fun hn => h ⟨hmax, hn⟩
      rw [hzero]
      exact Nat.min_zero _
  unfold suggestDimension
  rw [hmin]
  rfl

/-- Larger candidates than the range do not matter. -/
theorem countDown_min (hsize : size i ≠ 0) :
    countDown (size i).toNat (min (limits.maxGroupSize i).toNat (size i).toNat) =
      largestDivisor limits size i := by
  have hpos : 0 < (size i).toNat := Nat.pos_of_ne_zero fun h0 => hsize (UInt64.toNat.inj h0)
  rw [countDown_eq]
  unfold largestDivisor
  by_cases hle : (limits.maxGroupSize i).toNat ≤ (size i).toNat
  · rw [Nat.min_eq_left hle]
  · rw [Nat.min_eq_right (Nat.le_of_not_le hle)]
    refine Nat.le_antisymm (Nat.findGreatest_mono_right _ (Nat.le_of_not_le hle)) ?_
    have hself : (size i).toNat ≤ Nat.findGreatest (· ∣ (size i).toNat) (size i).toNat :=
      Nat.le_findGreatest le_rfl (Nat.dvd_refl _)
    refine Nat.le_trans (Nat.le_of_dvd hpos ?_) hself
    exact Nat.findGreatest_spec (m := (size i).toNat) (P := (· ∣ (size i).toNat))
      (Nat.le_of_not_le hle) (Nat.dvd_refl _)

theorem suggestDimension_eq (hmax : limits.maxGroupSize i ≠ 0) (hsize : size i ≠ 0) :
    (suggestDimension (limits.maxGroupSize i) (size i) =
        .ok (UInt32.ofNat (largestDivisor limits size i)) ∧ Fits limits size i) ∨
      suggestDimension (limits.maxGroupSize i) (size i) =
        .error (.result .invalidWorkGroupSize) ∧ ¬ Fits limits size i := by
  have hmin : min (limits.maxGroupSize i).toNat (size i).toNat ≠ 0 := by
    have hpos := Nat.pos_of_ne_zero fun h0 => hmax (UInt32.toNat.inj h0)
    have hpos' := Nat.pos_of_ne_zero fun h0 => hsize (UInt64.toNat.inj h0)
    exact Nat.pos_iff_ne_zero.mp (Nat.lt_min.mpr ⟨hpos, hpos'⟩)
  unfold suggestDimension
  dsimp only
  rw [if_neg hmin, countDown_min hsize]
  unfold Fits
  split
  next hlt => exact Or.inr ⟨rfl, by omega⟩
  next hlt => exact Or.inl ⟨rfl, by omega⟩

theorem suggestDimension_cases (limits : Limits) (size : Three UInt64) (i : Fin 3) :
    (suggestDimension (limits.maxGroupSize i) (size i) = .error (.undefined .divisionByZero) ∧
        ¬ (limits.maxGroupSize i ≠ 0 ∧ size i ≠ 0)) ∨
      (limits.maxGroupSize i ≠ 0 ∧ size i ≠ 0) ∧
        (suggestDimension (limits.maxGroupSize i) (size i) =
            .ok (UInt32.ofNat (largestDivisor limits size i)) ∧ Fits limits size i ∨
          suggestDimension (limits.maxGroupSize i) (size i) =
            .error (.result .invalidWorkGroupSize) ∧ ¬ Fits limits size i) := by
  by_cases h : limits.maxGroupSize i ≠ 0 ∧ size i ≠ 0
  · exact Or.inr ⟨h, suggestDimension_eq h.1 h.2⟩
  · exact Or.inl ⟨suggestDimension_fault h, h⟩

/-- A dimension that is computed has the largest divisor. -/
theorem suggestDimension_ok {w : UInt32}
    (h : suggestDimension (limits.maxGroupSize i) (size i) = .ok w) :
    limits.maxGroupSize i ≠ 0 ∧ size i ≠ 0 ∧ Fits limits size i ∧
      w = UInt32.ofNat (largestDivisor limits size i) := by
  rcases suggestDimension_cases limits size i with ⟨hout, -⟩ | ⟨hne, ⟨hout, hfits⟩ | ⟨hout, -⟩⟩
  · rw [hout] at h
    cases h
  · rw [hout] at h
    exact ⟨hne.1, hne.2, hfits, (Except.ok.inj h).symm⟩
  · rw [hout] at h
    cases h

/-- When the computed size is right: nothing is divided by zero before a dimension does not fit,
and if all fit, the sizes are not too large together. -/
structure ComputedWhen (limits : Limits) (size : Three UInt64) : Prop where
  divides : ∀ i, (∀ j, j < i → Fits limits size j) → limits.maxGroupSize i ≠ 0 ∧ size i ≠ 0
  product : (∀ i, Fits limits size i) →
    largestDivisor limits size 0 * largestDivisor limits size 1 * largestDivisor limits size 2 ≤
      limits.maxTotalGroupSize.toNat

/-- What is computed splits the range. -/
theorem computed_splits (h : ∀ i, limits.maxGroupSize i ≠ 0 ∧ Fits limits size i) :
    Splits workDim size fun i => UInt32.ofNat (largestDivisor limits size i) := by
  intro i _
  rw [largestDivisor_toNat]
  exact ⟨largestDivisor_dvd (h i).1, (h i).2⟩

theorem computed_used (h : ∀ i, limits.maxGroupSize i ≠ 0)
    (hone : ∀ i : Fin 3, workDim ≤ i.val → size i = 1) (i : Fin 3) :
    (used workDim (fun i => UInt32.ofNat (largestDivisor limits size i)) i).toNat =
      largestDivisor limits size i := by
  unfold used
  split
  next => exact largestDivisor_toNat
  next hi => rw [largestDivisor_one (h i) (hone i (Nat.le_of_not_lt hi))]; rfl

/-! ## A size that is given -/

/-- The local size as it is read, cut to 32 bits. -/
def given (workDim : Nat) (l : List UInt64) : Three UInt32 := fun i => (padded workDim l i).toUInt32

theorem givenLocalWorkSize_ok (hdim : 1 ≤ workDim ∧ workDim ≤ 3) (hlen : l.length = workDim) :
    givenLocalWorkSize workDim l = .ok (given workDim l) := by
  have hcases : workDim = 1 ∨ workDim = 2 ∨ workDim = 3 := by omega
  have hthree : ∀ g : Three UInt32, g = ![g 0, g 1, g 2] := by
    intro g
    funext i
    match i with
    | 0 | 1 | 2 => rfl
  rw [hthree (given workDim l)]
  rcases hcases with rfl | rfl | rfl
  · obtain ⟨a, rfl⟩ := List.length_eq_one_iff.mp hlen
    rfl
  · obtain ⟨a, b, rfl⟩ := List.length_eq_two.mp hlen
    rfl
  · obtain ⟨a, b, c, rfl⟩ := List.length_eq_three.mp hlen
    rfl

theorem given_used (workDim : Nat) (l : List UInt64) :
    used workDim (given workDim l) = given workDim l := by
  funext i
  unfold used
  split
  next => rfl
  next hi => unfold given padded; rw [if_neg hi]; rfl

theorem given_toNat (workDim : Nat) (l : List UInt64) (i : Fin 3) :
    (given workDim l i).toNat = (padded workDim l i).toNat % 2 ^ 32 := UInt64.toNat_toUInt32 _

/-- The size that is used is the one that was given, where nothing is cut off. -/
theorem given_hasLocalSize :
    HasLocalSize workDim (some l) (used workDim (given workDim l)) ↔
      ∀ i, (padded workDim l i).toNat < 2 ^ 32 := by
  rw [given_used]
  constructor
  · intro h i
    have hi := h l rfl i
    rw [given_toNat] at hi
    omega
  · rintro h l' hl i
    obtain rfl := Option.some.inj hl
    exact Nat.mod_eq_of_lt (h i)

/-- When a given size is right: no entry is cut to zero, and if the entries split the range they
are within the limits and nothing was cut off. -/
def GivenWhen (limits : Limits) (workDim : Nat) (size : Three UInt64) (l : List UInt64) : Prop :=
  (∀ i : Fin 3, i.val < workDim → given workDim l i ≠ 0) ∧
    (Splits workDim size (given workDim l) →
      WithinLimits limits workDim (given workDim l) ∧ ∀ i, (padded workDim l i).toNat < 2 ^ 32)

/-! ## A size of the driver -/

/-- When a suggestion is right: it is not zero, and if it splits the range it is within the
limits. -/
def SuggestedWhen (suggest : SuggestGroupSize) (limits : Limits) (workDim : Nat)
    (size : Three UInt64) : Prop :=
  ∀ wg, suggest size = .ok wg → (∀ i : Fin 3, i.val < workDim → wg i ≠ 0) ∧
    (Splits workDim size wg → WithinLimits limits workDim wg)

/-- When an error on the driver's answer is right: the device has a limit of zero, or the driver
suggests sizes and these split the range. -/
def AnswersWhen (suggest : SuggestGroupSize) (limits : Limits) (workDim : Nat)
    (size : Three UInt64) : Prop :=
  (∀ i : Fin 3, i.val < workDim → limits.maxGroupSize i ≠ 0) → limits.maxTotalGroupSize ≠ 0 →
    ∃ wg, suggest size = .ok wg ∧
      ((∀ i : Fin 3, i.val < workDim → wg i ≠ 0) → Splits workDim size wg)

/-- A range of 32-bit sizes always has the decomposition into groups of one. -/
theorem decomposes_ones (hsmall : ∀ i, (size i).toNat ≤ 2 ^ 32 - 1) :
    (∃ r, Decomposes limits workDim size r ∧ HasLocalSize workDim none r.wg) ↔
      (∀ i : Fin 3, i.val < workDim → limits.maxGroupSize i ≠ 0) ∧
        limits.maxTotalGroupSize ≠ 0 := by
  constructor
  · rintro ⟨r, hdec, -⟩
    have hpos : ∀ i, 0 < (r.wg i).toNat := fun i => Nat.pos_of_ne_zero fun h0 =>
      hdec.nonzero i (UInt32.toNat.inj h0)
    constructor
    · intro i hi hzero
      have hle := hdec.within i hi
      rw [hzero] at hle
      exact absurd (hpos i) (Nat.not_lt.mpr hle)
    · intro hzero
      have hle := hdec.product
      rw [hzero] at hle
      exact absurd (Nat.mul_pos (Nat.mul_pos (hpos 0) (hpos 1)) (hpos 2)) (Nat.not_lt.mpr hle)
  · rintro ⟨hmax, htotal⟩
    refine ⟨⟨fun i => (size i).toUInt32, fun _ => 1⟩, ⟨fun i => ?_, fun i hi => ?_, ?_, fun i => ?_⟩,
      nofun⟩
    · exact (by decide : (1 : UInt32) ≠ 0)
    · exact Nat.pos_of_ne_zero fun h0 => hmax i hi (UInt32.toNat.inj h0)
    · exact Nat.pos_of_ne_zero fun h0 => htotal (UInt32.toNat.inj h0)
    · have hi := hsmall i
      show (size i).toUInt32.toNat * 1 = (size i).toNat
      rw [Nat.mul_one, UInt64.toNat_toUInt32, Nat.mod_eq_of_lt (by omega)]

/-! ## Each way, exactly -/

section
variable (hdim : 1 ≤ workDim ∧ workDim ≤ 3) (hone : ∀ i : Fin 3, workDim ≤ i.val → size i = 1)

include hdim hone

theorem sound_given (hlen : l.length = workDim) :
    Sound limits workDim size (some l)
      (givenLocalWorkSize workDim l >>= groupCounts workDim size) ↔
        GivenWhen limits workDim size l := by
  rw [sound_choice hdim hone, givenLocalWorkSize_ok hdim hlen]
  constructor
  · rintro ⟨-, h⟩
    obtain ⟨hne, hright⟩ := h _ rfl
    exact ⟨hne, fun hs => ⟨(hright hs).1, given_hasLocalSize.mp (hright hs).2⟩⟩
  · rintro ⟨hne, hright⟩
    refine ⟨nofun, fun wg hwg => ?_⟩
    obtain rfl := Except.ok.inj hwg
    exact ⟨hne, fun hs => ⟨(hright hs).1, given_hasLocalSize.mpr (hright hs).2⟩⟩

/-- **A given size that is refused does not split the range.** -/
theorem complete_given (hlen : l.length = workDim) :
    Complete limits workDim size (some l)
      (givenLocalWorkSize workDim l >>= groupCounts workDim size) := by
  rw [complete_choice hdim hone, givenLocalWorkSize_ok hdim hlen]
  rintro (⟨e, he⟩ | ⟨wg, hwg, -, hnot⟩) ⟨r, hdec, hlocal⟩
  · cases he
  · obtain rfl := Except.ok.inj hwg
    have heq : r.wg = given workDim l := by
      funext i
      refine UInt32.toNat.inj ?_
      have hlt := (r.wg i).toNat_lt
      have hi := hlocal l rfl i
      rw [given_toNat, ← hi, Nat.mod_eq_of_lt hlt]
    rw [← heq] at hnot
    exact hnot hdec.splits

theorem sound_suggested :
    Sound limits workDim size none
      ((suggest size).mapError .result >>= groupCounts workDim size) ↔
        SuggestedWhen suggest limits workDim size := by
  rw [sound_choice hdim hone]
  unfold SuggestedWhen
  cases hout : suggest size with
  | error e =>
    constructor
    · intro _ wg hwg
      cases hwg
    · intro _
      exact ⟨nofun, nofun⟩
  | ok wg =>
    constructor
    · rintro ⟨-, h⟩ wg' hwg
      obtain rfl := Except.ok.inj hwg
      exact ⟨(h wg rfl).1, fun hs => ((h wg rfl).2 hs).1⟩
    · intro h
      refine ⟨nofun, fun wg' hwg => ?_⟩
      obtain rfl := Except.ok.inj hwg
      exact ⟨(h wg rfl).1, fun hs => ⟨(h wg rfl).2 hs, nofun⟩⟩

theorem complete_suggested (hsmall : ∀ i, (size i).toNat ≤ 2 ^ 32 - 1) :
    Complete limits workDim size none
      ((suggest size).mapError .result >>= groupCounts workDim size) ↔
        AnswersWhen suggest limits workDim size := by
  rw [complete_choice hdim hone, decomposes_ones hsmall]
  unfold AnswersWhen
  cases hout : suggest size with
  | error e =>
    constructor
    · intro h hmax htotal
      exact absurd ⟨hmax, htotal⟩ (h (Or.inl ⟨e, rfl⟩))
    · rintro h - ⟨hmax, htotal⟩
      obtain ⟨wg, hwg, -⟩ := h hmax htotal
      cases hwg
  | ok wg =>
    constructor
    · intro h hmax htotal
      refine ⟨wg, rfl, fun hne => not_not.mp fun hnot => ?_⟩
      exact h (Or.inr ⟨wg, rfl, hne, hnot⟩) ⟨hmax, htotal⟩
    · rintro h (⟨e, he⟩ | ⟨wg', hwg, hne, hnot⟩) ⟨hmax, htotal⟩
      · cases he
      · obtain rfl := Except.ok.inj hwg
        obtain ⟨wg', hwg, hsplits⟩ := h hmax htotal
        obtain rfl := Except.ok.inj hwg
        exact hnot (hsplits hne)

theorem sound_computed :
    Sound limits workDim size none
        ((forThree fun i => suggestDimension (limits.maxGroupSize i) (size i)) >>=
          groupCounts workDim size) ↔ ComputedWhen limits size := by
  rw [sound_choice hdim hone]
  rcases forThree_cases fun i => suggestDimension (limits.maxGroupSize i) (size i) with
    ⟨g, hg, hout⟩ | ⟨i, e, hi, hbefore, hout⟩
  · have hall := fun i => suggestDimension_ok (hg i)
    obtain rfl : g = fun i => UInt32.ofNat (largestDivisor limits size i) :=
      funext fun i => (hall i).2.2.2
    have hsplits := @computed_splits _ workDim _ fun i => ⟨(hall i).1, (hall i).2.2.1⟩
    have hused := computed_used (fun i => (hall i).1) hone
    rw [hout]
    constructor
    · rintro ⟨-, hright⟩
      refine ⟨fun i _ => ⟨(hall i).1, (hall i).2.1⟩, fun _ => ?_⟩
      have hproduct := ((hright _ rfl).2 hsplits).1.2
      rwa [hused, hused, hused] at hproduct
    · rintro ⟨-, hproduct⟩
      refine ⟨nofun, fun wg hwg => ?_⟩
      obtain rfl := Except.ok.inj hwg
      refine ⟨fun i _ hzero => ?_, fun _ => ⟨⟨fun i _ => ?_, ?_⟩, nofun⟩⟩
      · have hpos := @largestDivisor_pos _ size _ (hall i).1
        have hcast : UInt32.ofNat (largestDivisor limits size i) = 0 := hzero
        rw [← largestDivisor_toNat, hcast] at hpos
        exact absurd hpos (Nat.lt_irrefl 0)
      · rw [largestDivisor_toNat]
        exact largestDivisor_le
      · rw [hused, hused, hused]
        exact hproduct fun i => (hall i).2.2.1
  · rw [hout]
    have hok : ∀ j, j < i → limits.maxGroupSize j ≠ 0 ∧ size j ≠ 0 ∧ Fits limits size j := by
      intro j hj
      obtain ⟨x, hx⟩ := hbefore j hj
      obtain ⟨hmax, hsize, hfits, -⟩ := suggestDimension_ok hx
      exact ⟨hmax, hsize, hfits⟩
    rcases suggestDimension_cases limits size i with
      ⟨hfault, hbad⟩ | ⟨hne, ⟨hfine, -⟩ | ⟨herr, hfits⟩⟩
    · obtain rfl := Except.error.inj (hi.symm.trans hfault)
      constructor
      · intro h
        exact absurd rfl (h.1 _)
      · intro h
        exact absurd (h.1 i fun j hj => (hok j hj).2.2) hbad
    · exact absurd (hi.symm.trans hfine) (by simp)
    · obtain rfl := Except.error.inj (hi.symm.trans herr)
      refine ⟨fun _ => ⟨fun i' hi' => ?_, fun h => absurd (h i) hfits⟩, fun _ => ⟨nofun, nofun⟩⟩
      rcases lt_trichotomy i' i with hlt | rfl | hlt
      · exact ⟨(hok i' hlt).1, (hok i' hlt).2.1⟩
      · exact hne
      · exact absurd (hi' i hlt) hfits

/-- **A range for which no size is computed has no decomposition.** -/
theorem complete_computed :
    Complete limits workDim size none
      ((forThree fun i => suggestDimension (limits.maxGroupSize i) (size i)) >>=
        groupCounts workDim size) := by
  rw [complete_choice hdim hone]
  rcases forThree_cases fun i => suggestDimension (limits.maxGroupSize i) (size i) with
    ⟨g, hg, hout⟩ | ⟨i, e, hi, -, hout⟩
  · have hall := fun i => suggestDimension_ok (hg i)
    obtain rfl : g = fun i => UInt32.ofNat (largestDivisor limits size i) :=
      funext fun i => (hall i).2.2.2
    rw [hout]
    rintro (⟨e, he⟩ | ⟨wg, hwg, -, hnot⟩)
    · cases he
    · obtain rfl := Except.ok.inj hwg
      exact absurd (computed_splits fun i => ⟨(hall i).1, (hall i).2.2.1⟩) hnot
  · rw [hout]
    rintro (⟨e', he⟩ | ⟨wg, hwg, -⟩)
    · obtain rfl := Except.error.inj he
      rcases suggestDimension_cases limits size i with
        ⟨hfault, -⟩ | ⟨hne, ⟨hfine, -⟩ | ⟨-, hfits⟩⟩
      · cases hi.symm.trans hfault
      · cases hi.symm.trans hfine
      · rintro ⟨r, hdec, -⟩
        by_cases hlt : i.val < workDim
        · -- the size of the decomposition is a candidate
          obtain ⟨hdvd, hcount⟩ := hdec.splits i hlt
          have hle := le_largestDivisor hdvd (hdec.within i hlt)
          have hpos : 0 < (r.wg i).toNat := Nat.pos_of_ne_zero fun h0 =>
            hdec.nonzero i (UInt32.toNat.inj h0)
          exact hfits (Nat.lt_of_le_of_lt (Nat.div_le_div_left hle hpos) hcount)
        · have hsize := hone i (Nat.le_of_not_lt hlt)
          refine hfits ?_
          unfold Fits
          rw [largestDivisor_one hne.1 hsize, hsize]
          decide
    · cases hwg

/-- What the last part can fail with. -/
theorem groupCounts_error_cases {e : Failure}
    (h : groupCounts workDim size wg = .error e) :
    e = .undefined .divisionByZero ∨ e = .result .invalidWorkGroupSize := by
  rcases groupCounts_cases hdim hone wg with ⟨hout, -⟩ | ⟨-, ⟨hout, -⟩ | ⟨hout, -⟩⟩
  · exact Or.inl (Except.error.inj (h.symm.trans hout))
  · cases h.symm.trans hout
  · exact Or.inr (Except.error.inj (h.symm.trans hout))

/-- No entry beyond the last is read to suggest a size. -/
theorem suggested_inRange :
    (getSuggestedLocalWorkSize suggest limits size >>= groupCounts workDim size) ≠
      .error (.undefined .outOfRange) := by
  intro h
  rcases except_bind_error h with hchoose | ⟨wg, -, hcounts⟩
  · unfold getSuggestedLocalWorkSize at hchoose
    split at hchoose
    next =>
      cases hout : suggest size with
      | error e =>
        rw [hout] at hchoose
        cases hchoose
      | ok wg =>
        rw [hout] at hchoose
        cases hchoose
    next =>
      rcases forThree_cases fun i => suggestDimension (limits.maxGroupSize i) (size i) with
        ⟨g, -, hout⟩ | ⟨i, e, hi, -, hout⟩
      · cases hchoose.symm.trans hout
      · obtain rfl := Except.error.inj (hchoose.symm.trans hout)
        rcases suggestDimension_cases limits size i with ⟨hd, -⟩ | ⟨-, ⟨hd, -⟩ | ⟨hd, -⟩⟩
        · cases hi.symm.trans hd
        · cases hi.symm.trans hd
        · cases hi.symm.trans hd
  · rcases groupCounts_error_cases hdim hone hcounts with he | he
    · cases he
    · cases he

end

/-! ## The whole computation -/

/-- The local size that is divided by. -/
def chosenLocalWorkSize (suggest : SuggestGroupSize) (limits : Limits) (workDim : Nat)
    (size : Three UInt64) : Option (List UInt64) → Result (Three UInt32)
  | some l => givenLocalWorkSize workDim l
  | none => getSuggestedLocalWorkSize suggest limits size

theorem calculate_eq {sizes : List UInt64} (hdim : 1 ≤ workDim ∧ workDim ≤ 3)
    (hsizes : sizes.length = workDim) (localWorkSize : Option (List UInt64)) :
    calculateKernelWorkDimensions suggest limits workDim (some sizes) localWorkSize =
      chosenLocalWorkSize suggest limits workDim (padded workDim sizes) localWorkSize >>=
        groupCounts workDim (padded workDim sizes) := by
  have hcopy : globalWorkSize3D workDim sizes = .ok (padded workDim sizes) := by
    exact if_neg (by omega)
  unfold calculateKernelWorkDimensions
  dsimp only
  rw [hcopy]
  cases localWorkSize with
  | none => rfl
  | some l => rfl

theorem padded_one (workDim : Nat) (sizes : List UInt64) (i : Fin 3) (hi : workDim ≤ i.val) :
    padded workDim sizes i = 1 := if_neg (Nat.not_lt.mpr hi)

/-- **When a success is right.** -/
def SoundWhen (suggest : SuggestGroupSize) (limits : Limits) (workDim : Nat) (size : Three UInt64) :
    Option (List UInt64) → Prop
  | some l => GivenWhen limits workDim size l
  | none =>
    if ∀ i, (size i).toNat ≤ 2 ^ 32 - 1 then SuggestedWhen suggest limits workDim size
    else ComputedWhen limits size

/-- **When an error is right.** -/
def CompleteWhen (suggest : SuggestGroupSize) (limits : Limits) (workDim : Nat)
    (size : Three UInt64) (localWorkSize : Option (List UInt64)) : Prop :=
  localWorkSize = none → (∀ i, (size i).toNat ≤ 2 ^ 32 - 1) →
    AnswersWhen suggest limits workDim size

/-! ## The cooperative launch -/

/-- **The computation of a cooperative launch is the same**, and reads nothing else. -/
def Same (suggest : SuggestGroupSize) (limits : Limits) (workDim : Nat)
    (sizes : List UInt64) (localWorkSize : Option (List UInt64)) : Prop :=
  cooperativeWorkDimensions suggest limits workDim sizes localWorkSize ≠
      .error (.undefined .outOfRange) ∧
    cooperativeWorkDimensions suggest limits workDim sizes localWorkSize =
      calculateKernelWorkDimensions suggest limits workDim (some sizes) localWorkSize

def SameWhen (workDim : Nat) (localWorkSize : Option (List UInt64)) : Prop :=
  ∀ l, localWorkSize = some l → workDim = 3 ∧ ∀ a ∈ l, a.toNat < 2 ^ 32 - 1

theorem cooperative_eq {sizes : List UInt64} (hdim : 1 ≤ workDim ∧ workDim ≤ 3)
    (hsizes : sizes.length = workDim) (l : List UInt64) :
    cooperativeWorkDimensions suggest limits workDim sizes (some l) =
      cooperativeLocalWorkSize l >>= groupCounts workDim (padded workDim sizes) := by
  have hcopy : globalWorkSize3D workDim sizes = .ok (padded workDim sizes) := by
    exact if_neg (by omega)
  unfold cooperativeWorkDimensions
  rw [hcopy]
  rfl

/-- Either all entries are there and fit, or one that is read is missing or does not fit. -/
theorem cooperativeLocalWorkSize_cases (hdim : 1 ≤ workDim ∧ workDim ≤ 3)
    (hlen : l.length = workDim) :
    (workDim = 3 ∧ (∀ a ∈ l, a.toNat < 2 ^ 32 - 1) ∧
        cooperativeLocalWorkSize l = .ok (given workDim l)) ∨
      ¬ (workDim = 3 ∧ ∀ a ∈ l, a.toNat < 2 ^ 32 - 1) ∧
        (cooperativeLocalWorkSize l = .error (.undefined .outOfRange) ∨
          cooperativeLocalWorkSize l = .error (.result .invalidValue)) := by
  have hfits : ∀ a, a.toNat < 2 ^ 32 - 1 ∧ assertFits a = .ok () ∨
      ¬ a.toNat < 2 ^ 32 - 1 ∧ assertFits a = .error (.result .invalidValue) := by
    intro a
    by_cases h : a.toNat < 2 ^ 32 - 1
    · exact Or.inl ⟨h, if_pos h⟩
    · exact Or.inr ⟨h, if_neg h⟩
  have hcases : workDim = 1 ∨ workDim = 2 ∨ workDim = 3 := by omega
  rcases hcases with rfl | rfl | rfl
  · obtain ⟨a, rfl⟩ := List.length_eq_one_iff.mp hlen
    refine Or.inr ⟨fun h => absurd h.1 (by decide), ?_⟩
    rcases hfits a with ⟨-, ha⟩ | ⟨-, ha⟩
    · exact Or.inl (by simp [cooperativeLocalWorkSize, read, ha, bind, Except.bind])
    · exact Or.inr (by simp [cooperativeLocalWorkSize, read, ha, bind, Except.bind])
  · obtain ⟨a, b, rfl⟩ := List.length_eq_two.mp hlen
    refine Or.inr ⟨fun h => absurd h.1 (by decide), ?_⟩
    rcases hfits a with ⟨-, ha⟩ | ⟨-, ha⟩
    · rcases hfits b with ⟨-, hb⟩ | ⟨-, hb⟩
      · exact Or.inl (by simp [cooperativeLocalWorkSize, read, ha, hb, bind, Except.bind])
      · exact Or.inr (by simp [cooperativeLocalWorkSize, read, ha, hb, bind, Except.bind])
    · exact Or.inr (by simp [cooperativeLocalWorkSize, read, ha, bind, Except.bind])
  · obtain ⟨a, b, c, rfl⟩ := List.length_eq_three.mp hlen
    rcases hfits a with ⟨hla, ha⟩ | ⟨hna, ha⟩
    · rcases hfits b with ⟨hlb, hb⟩ | ⟨hnb, hb⟩
      · rcases hfits c with ⟨hlc, hc⟩ | ⟨hnc, hc⟩
        · have hall : ∀ x ∈ [a, b, c], x.toNat < 2 ^ 32 - 1 := by
            intro x hx
            simp only [List.mem_cons, List.not_mem_nil, or_false] at hx
            rcases hx with rfl | rfl | rfl
            · exact hla
            · exact hlb
            · exact hlc
          refine Or.inl ⟨rfl, hall, ?_⟩
          have hgiven := givenLocalWorkSize_ok hdim hlen
          rw [← hgiven]
          simp [cooperativeLocalWorkSize, givenLocalWorkSize, read, ha, hb, hc, bind, Except.bind]
        · refine Or.inr ⟨fun h => hnc (h.2 c (by simp)), Or.inr ?_⟩
          simp [cooperativeLocalWorkSize, read, ha, hb, hc, bind, Except.bind]
      · refine Or.inr ⟨fun h => hnb (h.2 b (by simp)), Or.inr ?_⟩
        simp [cooperativeLocalWorkSize, read, ha, hb, bind, Except.bind]
    · refine Or.inr ⟨fun h => hna (h.2 a (by simp)), Or.inr ?_⟩
      simp [cooperativeLocalWorkSize, read, ha, bind, Except.bind]

/-! ## The whole computation, exactly -/

section
variable {sizes : List UInt64} (hdim : 1 ≤ workDim ∧ workDim ≤ 3) (hsizes : sizes.length = workDim)
  (localWorkSize : Option (List UInt64))
  (hlocal : ∀ l, localWorkSize = some l → l.length = workDim)

include hdim hsizes hlocal

theorem sound_iff :
    Sound limits workDim (padded workDim sizes) localWorkSize
        (calculateKernelWorkDimensions suggest limits workDim (some sizes) localWorkSize) ↔
      SoundWhen suggest limits workDim (padded workDim sizes) localWorkSize := by
  have hone := padded_one workDim sizes
  rw [calculate_eq hdim hsizes]
  cases localWorkSize with
  | some l => exact sound_given hdim hone (hlocal l rfl)
  | none =>
    unfold chosenLocalWorkSize SoundWhen getSuggestedLocalWorkSize
    dsimp only
    split
    next => exact sound_suggested hdim hone
    next => exact sound_computed hdim hone

theorem complete_iff :
    Complete limits workDim (padded workDim sizes) localWorkSize
        (calculateKernelWorkDimensions suggest limits workDim (some sizes) localWorkSize) ↔
      CompleteWhen suggest limits workDim (padded workDim sizes) localWorkSize := by
  have hone := padded_one workDim sizes
  rw [calculate_eq hdim hsizes]
  cases localWorkSize with
  | some l => exact iff_of_true (complete_given hdim hone (hlocal l rfl)) nofun
  | none =>
    unfold chosenLocalWorkSize getSuggestedLocalWorkSize
    dsimp only
    split
    next hsmall =>
      rw [complete_suggested hdim hone hsmall]
      exact ⟨fun h _ _ => h, fun h => h rfl hsmall⟩
    next hlarge =>
      exact iff_of_true (complete_computed hdim hone) fun _ hsmall => absurd hsmall hlarge

theorem same_iff :
    Same suggest limits workDim sizes localWorkSize ↔ SameWhen workDim localWorkSize := by
  have hone := padded_one workDim sizes
  cases localWorkSize with
  | none =>
    have heq : cooperativeWorkDimensions suggest limits workDim sizes none =
        calculateKernelWorkDimensions suggest limits workDim (some sizes) none := rfl
    refine iff_of_true ⟨?_, heq⟩ nofun
    rw [heq, calculate_eq hdim hsizes]
    exact suggested_inRange hdim hone
  | some l =>
    have hlen := hlocal l rfl
    have hcalc : calculateKernelWorkDimensions suggest limits workDim (some sizes) (some l) =
        groupCounts workDim (padded workDim sizes) (given workDim l) := by
      rw [calculate_eq hdim hsizes]
      show givenLocalWorkSize workDim l >>= _ = _
      rw [givenLocalWorkSize_ok hdim hlen]
      rfl
    unfold Same
    rw [hcalc, cooperative_eq hdim hsizes]
    rcases cooperativeLocalWorkSize_cases hdim hlen with
      ⟨hthree, hfits, hout⟩ | ⟨hnot, hout | hout⟩
    · rw [hout]
      refine iff_of_true ⟨fun h => ?_, rfl⟩ fun l' hl' => ?_
      · rcases groupCounts_error_cases hdim hone h with he | he
        · cases he
        · cases he
      · obtain rfl := Option.some.inj hl'
        exact ⟨hthree, hfits⟩
    · rw [hout]
      exact iff_of_false (fun h => h.1 rfl) fun h => hnot (h l rfl)
    · rw [hout]
      refine iff_of_false (fun h => ?_) fun h => hnot (h l rfl)
      rcases groupCounts_error_cases hdim hone h.2.symm with he | he
      · cases he
      · cases he

end

/-- **The work-groups, exactly.** For every range and every local size with an entry for each
dimension, a success is a decomposition of the range just under `SoundWhen`, an error means that
there is none just under `CompleteWhen`, and the computation of a cooperative launch is the same
just under `SameWhen`. -/
theorem workGroups_exact (suggest : SuggestGroupSize) (limits : Limits) (workDim : Nat)
    (sizes : List UInt64) (localWorkSize : Option (List UInt64))
    (hdim : 1 ≤ workDim ∧ workDim ≤ 3) (hsizes : sizes.length = workDim)
    (hlocal : ∀ l, localWorkSize = some l → l.length = workDim) :
    (Sound limits workDim (padded workDim sizes) localWorkSize
        (calculateKernelWorkDimensions suggest limits workDim (some sizes) localWorkSize) ↔
      SoundWhen suggest limits workDim (padded workDim sizes) localWorkSize) ∧
    (Complete limits workDim (padded workDim sizes) localWorkSize
        (calculateKernelWorkDimensions suggest limits workDim (some sizes) localWorkSize) ↔
      CompleteWhen suggest limits workDim (padded workDim sizes) localWorkSize) ∧
    (Same suggest limits workDim sizes localWorkSize ↔ SameWhen workDim localWorkSize) :=
  ⟨sound_iff hdim hsizes localWorkSize hlocal, complete_iff hdim hsizes localWorkSize hlocal,
    same_iff hdim hsizes localWorkSize hlocal⟩

/-- A range of 64 items in groups of 16, which the driver suggests or the application gives. -/
theorem workGroups_exact_sixteen :
    (Sound ⟨![1024, 1024, 64], 1024⟩ 1 (padded 1 [64]) none
        (calculateKernelWorkDimensions (fun _ => .ok ![16, 1, 1]) ⟨![1024, 1024, 64], 1024⟩ 1
          (some [64]) none) ↔
      SoundWhen (fun _ => .ok ![16, 1, 1]) ⟨![1024, 1024, 64], 1024⟩ 1 (padded 1 [64]) none) ∧
    Same (fun _ => .ok ![16, 1, 1]) ⟨![1024, 1024, 64], 1024⟩ 3 [64, 1, 1] (some [16, 1, 1]) := by
  refine ⟨(workGroups_exact _ _ 1 [64] none (by decide) rfl nofun).1, ?_⟩
  refine (workGroups_exact _ _ 3 [64, 1, 1] (some [16, 1, 1]) (by decide) rfl ?_).2.2.mpr ?_
  · intro l hl
    obtain rfl := Option.some.inj hl
    rfl
  · intro l hl
    obtain rfl := Option.some.inj hl
    exact ⟨rfl, by simp⟩

/-- A local size of zero is divided by, one beyond the limit is accepted, the computed sizes are
together too large, and a cooperative launch in one dimension reads a second entry. -/
theorem workGroups_wrong :
    calculateKernelWorkDimensions (fun _ => .ok ![1, 1, 1]) ⟨![1024, 1024, 64], 1024⟩ 1
        (some [64]) (some [0]) = .error (.undefined .divisionByZero) ∧
      ¬ Sound ⟨![8, 8, 8], 16⟩ 1 (padded 1 [64]) (some [64])
        (calculateKernelWorkDimensions (fun _ => .ok ![1, 1, 1]) ⟨![8, 8, 8], 16⟩ 1
          (some [64]) (some [64])) ∧
      ¬ Sound ⟨![8, 8, 8], 16⟩ 2 (padded 2 [2 ^ 33, 8]) none
        (calculateKernelWorkDimensions (fun _ => .ok ![1, 1, 1]) ⟨![8, 8, 8], 16⟩ 2
          (some [2 ^ 33, 8]) none) ∧
      cooperativeWorkDimensions (fun _ => .ok ![1, 1, 1]) ⟨![1024, 1024, 64], 1024⟩ 1
        [64] (some [16]) = .error (.undefined .outOfRange) := by
  refine ⟨rfl, fun h => ?_, fun h => ?_, rfl⟩
  · exact absurd (h.2 _ rfl).1.product (by decide)
  · exact absurd (h.2 _ rfl).1.product (by decide)

end UnifiedRuntime.LevelZero.WorkGroup
