import UnifiedRuntime.LevelZero.WorkGroup

/-!
# When the work-groups split the range

The last part of both computations is the same: `groupCounts` divides by each size, and its
result depends only on whether the sizes split the range. What comes before it chooses the
sizes.

- `groupCounts_fault`, `groupCounts_ok`, `groupCounts_error`: the last part.
- `sound_choice`, `complete_choice`: when the result is right and when an error is, for any
  choice of sizes.
-/

namespace UnifiedRuntime.LevelZero.WorkGroup

variable {suggest : SuggestGroupSize} {limits : Limits} {workDim : Nat} {size : Three UInt64}
  {wg : Three UInt32} {α : Type}

/-! ## Decompositions of the range -/

/-- **The groups are a decomposition of the range** that the device can run. -/
structure Decomposes (limits : Limits) (workDim : Nat) (size : Three UInt64) (r : WorkGroups) :
    Prop where
  nonzero : ∀ i, r.wg i ≠ 0
  within : ∀ i : Fin 3, i.val < workDim → (r.wg i).toNat ≤ (limits.maxGroupSize i).toNat
  product : (r.wg 0).toNat * (r.wg 1).toNat * (r.wg 2).toNat ≤ limits.maxTotalGroupSize.toNat
  exact : ∀ i, (r.groupCount i).toNat * (r.wg i).toNat = (size i).toNat

/-- The groups have the local size that was given. -/
def HasLocalSize (workDim : Nat) (localWorkSize : Option (List UInt64)) (wg : Three UInt32) :
    Prop :=
  ∀ l, localWorkSize = some l → ∀ i, (wg i).toNat = (padded workDim l i).toNat

/-- **A success is right**, and nothing undefined happens. -/
def Sound (limits : Limits) (workDim : Nat) (size : Three UInt64)
    (localWorkSize : Option (List UInt64)) (out : Result WorkGroups) : Prop :=
  (∀ f, out ≠ .error (.undefined f)) ∧
    ∀ r, out = .ok r → Decomposes limits workDim size r ∧ HasLocalSize workDim localWorkSize r.wg

/-- **An error is right**: there is no decomposition. -/
def Complete (limits : Limits) (workDim : Nat) (size : Three UInt64)
    (localWorkSize : Option (List UInt64)) (out : Result WorkGroups) : Prop :=
  ∀ e, out = .error (.result e) →
    ¬ ∃ r, Decomposes limits workDim size r ∧ HasLocalSize workDim localWorkSize r.wg

/-! ## The last part -/

theorem three_ext {f g : Three α} (h₀ : f 0 = g 0) (h₁ : f 1 = g 1) (h₂ : f 2 = g 2) : f = g := by
  funext i
  match i with
  | 0 => exact h₀
  | 1 => exact h₁
  | 2 => exact h₂

/-- In each dimension the size divides the range, into less than 2 ^ 32 groups. -/
def Splits (workDim : Nat) (size : Three UInt64) (wg : Three UInt32) : Prop :=
  ∀ i : Fin 3, i.val < workDim →
    (wg i).toNat ∣ (size i).toNat ∧ (size i).toNat / (wg i).toNat < 2 ^ 32

/-- The sizes that are used, and the group counts. -/
def used (workDim : Nat) (wg : Three UInt32) : Three UInt32 := fun i =>
  if i.val < workDim then wg i else 1

def counts (workDim : Nat) (size : Three UInt64) (wg : Three UInt32) : Three UInt32 := fun i =>
  if i.val < workDim then (size i / (wg i).toUInt64).toUInt32 else 1

theorem quotient_toNat (g : UInt64) (w : UInt32) :
    (g / w.toUInt64).toUInt32.toNat = g.toNat / w.toNat % 2 ^ 32 := by
  rw [UInt64.toNat_toUInt32, UInt64.toNat_div, UInt32.toNat_toUInt64]

/-- The comparison of the non-uniform case, in numbers. -/
theorem uniform_iff {g : UInt64} {w : UInt32} (hw : w ≠ 0) :
    g = (g / w.toUInt64).toUInt32.toUInt64 * w.toUInt64 ↔
      w.toNat ∣ g.toNat ∧ g.toNat / w.toNat < 2 ^ 32 := by
  have hpos : 0 < w.toNat := Nat.pos_of_ne_zero fun h0 => hw (UInt32.toNat.inj h0)
  have hbound : g.toNat / w.toNat % 2 ^ 32 * w.toNat < 2 ^ 64 := by
    have hw' := w.toNat_lt
    calc g.toNat / w.toNat % 2 ^ 32 * w.toNat
        ≤ (2 ^ 32 - 1) * w.toNat := Nat.mul_le_mul_right _ (by omega)
      _ ≤ (2 ^ 32 - 1) * (2 ^ 32 - 1) := Nat.mul_le_mul_left _ (by omega)
      _ < 2 ^ 64 := by omega
  have hproduct : ((g / w.toUInt64).toUInt32.toUInt64 * w.toUInt64).toNat =
      g.toNat / w.toNat % 2 ^ 32 * w.toNat := by
    exact Nat.mod_eq_of_lt hbound
  rw [← UInt64.toNat_inj, hproduct]
  constructor
  · intro heq
    have hdvd : w.toNat ∣ g.toNat := ⟨_, heq.trans (Nat.mul_comm _ _)⟩
    refine ⟨hdvd, ?_⟩
    have hquot : g.toNat / w.toNat = g.toNat / w.toNat % 2 ^ 32 := by
      conv_lhs => rw [heq]
      exact Nat.mul_div_cancel _ hpos
    omega
  · rintro ⟨hdvd, hlt⟩
    rw [Nat.mod_eq_of_lt hlt, Nat.div_mul_cancel hdvd]

theorem divide_ok {g : UInt64} {w : UInt32} (hw : w ≠ 0) :
    divide g w = .ok (g / w.toUInt64).toUInt32 := if_neg hw

theorem checkUniform_ok {r : WorkGroups}
    (h : ∀ i, size i = (r.groupCount i).toUInt64 * (r.wg i).toUInt64) :
    checkUniform size r = .ok r := by
  unfold checkUniform
  rw [if_neg (not_not.mpr (h 0)), if_neg (not_not.mpr (h 1)), if_neg (not_not.mpr (h 2))]

theorem checkUniform_error {r : WorkGroups}
    (h : ¬ ∀ i, size i = (r.groupCount i).toUInt64 * (r.wg i).toUInt64) :
    checkUniform size r = .error (.result .invalidWorkGroupSize) := by
  unfold checkUniform
  split
  next => rfl
  next h0 =>
    split
    next => rfl
    next h1 =>
      split
      next => rfl
      next h2 =>
        refine absurd (fun i => ?_) h
        match i with
        | 0 => exact not_not.mp h0
        | 1 => exact not_not.mp h1
        | 2 => exact not_not.mp h2

section
variable (hdim : 1 ≤ workDim ∧ workDim ≤ 3) (hone : ∀ i : Fin 3, workDim ≤ i.val → size i = 1)

include hdim

/-- The `switch`, where nothing is divided by zero. -/
theorem groupCounts_eq (hne : ∀ i : Fin 3, i.val < workDim → wg i ≠ 0) :
    groupCounts workDim size wg =
      checkUniform size ⟨counts workDim size wg, used workDim wg⟩ := by
  have hcases : workDim = 1 ∨ workDim = 2 ∨ workDim = 3 := by omega
  unfold groupCounts
  rcases hcases with rfl | rfl | rfl
  · rw [divide_ok (hne 0 Nat.one_pos)]
    exact congrArg (checkUniform size)
      (congrArg₂ WorkGroups.mk (three_ext rfl rfl rfl) (three_ext rfl rfl rfl))
  · have h0 := hne 0 (by show 0 < 2; omega)
    have h1 := hne 1 (by show 1 < 2; omega)
    rw [divide_ok h0, divide_ok h1]
    exact congrArg (checkUniform size)
      (congrArg₂ WorkGroups.mk (three_ext rfl rfl rfl) (three_ext rfl rfl rfl))
  · have h0 := hne 0 (by show 0 < 3; omega)
    have h1 := hne 1 (by show 1 < 3; omega)
    have h2 := hne 2 (by show 2 < 3; omega)
    rw [divide_ok h0, divide_ok h1, divide_ok h2]
    exact congrArg (checkUniform size)
      (congrArg₂ WorkGroups.mk (three_ext rfl rfl rfl) (three_ext rfl rfl rfl))

theorem groupCounts_fault {i : Fin 3} (hi : i.val < workDim) (hzero : wg i = 0) :
    groupCounts workDim size wg = .error (.undefined .divisionByZero) := by
  have hdivide : ∀ (g : UInt64) (w : UInt32), divide g w = .error (.undefined .divisionByZero) ∨
      ∃ c, w ≠ 0 ∧ divide g w = .ok c := by
    intro g w
    unfold divide
    split
    next => exact Or.inl rfl
    next hw => exact Or.inr ⟨_, hw, rfl⟩
  have hcases : workDim = 1 ∨ workDim = 2 ∨ workDim = 3 := by omega
  -- the first division by zero is the one that happens
  rcases hcases with rfl | rfl | rfl
  · unfold groupCounts
    rcases hdivide (size 0) (wg 0) with h0 | ⟨c0, hne0, h0⟩
    · rw [h0]
      rfl
    · match i with
      | 0 => exact absurd hzero hne0
  · unfold groupCounts
    rcases hdivide (size 0) (wg 0) with h0 | ⟨c0, hne0, h0⟩
    · rw [h0]
      rfl
    rcases hdivide (size 1) (wg 1) with h1 | ⟨c1, hne1, h1⟩
    · rw [h0, h1]
      rfl
    match i with
    | 0 => exact absurd hzero hne0
    | 1 => exact absurd hzero hne1
  · unfold groupCounts
    rcases hdivide (size 0) (wg 0) with h0 | ⟨c0, hne0, h0⟩
    · rw [h0]
      rfl
    rcases hdivide (size 1) (wg 1) with h1 | ⟨c1, hne1, h1⟩
    · rw [h0, h1]
      rfl
    rcases hdivide (size 2) (wg 2) with h2 | ⟨c2, hne2, h2⟩
    · rw [h0, h1, h2]
      rfl
    match i with
    | 0 => exact absurd hzero hne0
    | 1 => exact absurd hzero hne1
    | 2 => exact absurd hzero hne2

omit hdim

/-- A decomposition splits the range. -/
theorem Decomposes.splits {r : WorkGroups} (h : Decomposes limits workDim size r) :
    Splits workDim size r.wg := by
  intro i _
  have hpos : 0 < (r.wg i).toNat := Nat.pos_of_ne_zero fun h0 =>
    h.nonzero i (UInt32.toNat.inj h0)
  have hexact := h.exact i
  refine ⟨⟨_, hexact.symm.trans (Nat.mul_comm _ _)⟩, ?_⟩
  rw [← hexact, Nat.mul_div_cancel _ hpos]
  exact (r.groupCount i).toNat_lt

include hone

/-- Dimensions that are not there have one group of one. -/
theorem uniform_splits (hne : ∀ i : Fin 3, i.val < workDim → wg i ≠ 0) :
    (∀ i, size i = (counts workDim size wg i).toUInt64 * (used workDim wg i).toUInt64) ↔
      Splits workDim size wg := by
  refine forall_congr' fun i => ?_
  unfold counts used
  by_cases hi : i.val < workDim
  · rw [if_pos hi, if_pos hi, uniform_iff (hne i hi)]
    exact ⟨fun h _ => h, fun h => h hi⟩
  · rw [if_neg hi, if_neg hi, hone i (Nat.le_of_not_lt hi)]
    exact ⟨fun _ h => absurd h hi, fun _ => rfl⟩

/-- The sizes that are used are within the limits, one by one and together. -/
structure WithinLimits (limits : Limits) (workDim : Nat) (wg : Three UInt32) : Prop where
  each : ∀ i : Fin 3, i.val < workDim → (wg i).toNat ≤ (limits.maxGroupSize i).toNat
  product : (used workDim wg 0).toNat * (used workDim wg 1).toNat * (used workDim wg 2).toNat ≤
    limits.maxTotalGroupSize.toNat

theorem decomposes_iff (hne : ∀ i : Fin 3, i.val < workDim → wg i ≠ 0)
    (hsplits : Splits workDim size wg) :
    Decomposes limits workDim size ⟨counts workDim size wg, used workDim wg⟩ ↔
      WithinLimits limits workDim wg := by
  have hused : ∀ i : Fin 3, i.val < workDim → used workDim wg i = wg i := fun i hi => if_pos hi
  constructor
  · intro h
    refine ⟨fun i hi => ?_, h.product⟩
    have hwithin := h.within i hi
    dsimp only at hwithin
    rwa [hused i hi] at hwithin
  · rintro ⟨hwithin, hproduct⟩
    refine ⟨fun i => ?_, fun i hi => ?_, hproduct, fun i => ?_⟩
    · show used workDim wg i ≠ 0
      unfold used
      split
      next hi => exact hne i hi
      next => decide
    · show (used workDim wg i).toNat ≤ _
      rw [hused i hi]
      exact hwithin i hi
    · show (counts workDim size wg i).toNat * (used workDim wg i).toNat = (size i).toNat
      unfold counts used
      by_cases hi : i.val < workDim
      · obtain ⟨hdvd, hlt⟩ := hsplits i hi
        rw [if_pos hi, if_pos hi, quotient_toNat, Nat.mod_eq_of_lt hlt, Nat.div_mul_cancel hdvd]
      · rw [if_neg hi, if_neg hi, hone i (Nat.le_of_not_lt hi)]
        rfl

include hdim

theorem groupCounts_ok (hne : ∀ i : Fin 3, i.val < workDim → wg i ≠ 0)
    (hsplits : Splits workDim size wg) :
    groupCounts workDim size wg = .ok ⟨counts workDim size wg, used workDim wg⟩ := by
  rw [groupCounts_eq hdim hne]
  exact checkUniform_ok ((uniform_splits hone hne).mpr hsplits)

theorem groupCounts_error (hne : ∀ i : Fin 3, i.val < workDim → wg i ≠ 0)
    (hsplits : ¬ Splits workDim size wg) :
    groupCounts workDim size wg = .error (.result .invalidWorkGroupSize) := by
  rw [groupCounts_eq hdim hne]
  exact checkUniform_error fun h => hsplits ((uniform_splits hone hne).mp h)

/-- What the `switch` can return. -/
theorem groupCounts_cases (wg : Three UInt32) :
    (groupCounts workDim size wg = .error (.undefined .divisionByZero) ∧
        ¬ ∀ i : Fin 3, i.val < workDim → wg i ≠ 0) ∨
      (∀ i : Fin 3, i.val < workDim → wg i ≠ 0) ∧
        (groupCounts workDim size wg = .ok ⟨counts workDim size wg, used workDim wg⟩ ∧
            Splits workDim size wg ∨
          groupCounts workDim size wg = .error (.result .invalidWorkGroupSize) ∧
            ¬ Splits workDim size wg) := by
  by_cases hne : ∀ i : Fin 3, i.val < workDim → wg i ≠ 0
  · refine Or.inr ⟨hne, ?_⟩
    by_cases hsplits : Splits workDim size wg
    · exact Or.inl ⟨groupCounts_ok hdim hone hne hsplits, hsplits⟩
    · exact Or.inr ⟨groupCounts_error hdim hone hne hsplits, hsplits⟩
  · refine Or.inl ⟨?_, hne⟩
    obtain ⟨i, hi⟩ := not_forall.mp hne
    obtain ⟨hlt, hzero⟩ := Classical.not_imp.mp hi
    exact groupCounts_fault hdim hlt (not_not.mp hzero)

/-! ## Any choice of sizes -/

/-- **When the result is right**, for any way to choose the sizes. -/
theorem sound_choice (choose : Result (Three UInt32)) (l : Option (List UInt64)) :
    Sound limits workDim size l (choose >>= groupCounts workDim size) ↔
      (∀ f, choose ≠ .error (.undefined f)) ∧ ∀ wg, choose = .ok wg →
        (∀ i : Fin 3, i.val < workDim → wg i ≠ 0) ∧
        (Splits workDim size wg →
          WithinLimits limits workDim wg ∧ HasLocalSize workDim l (used workDim wg)) := by
  cases choose with
  | error e =>
    constructor
    · rintro ⟨hfault, -⟩
      refine ⟨fun f hf => hfault f (congrArg Except.error (Except.error.inj hf)), fun _ h => ?_⟩
      cases h
    · rintro ⟨hfault, -⟩
      refine ⟨fun f hf => hfault f (congrArg Except.error (Except.error.inj hf)), fun _ h => ?_⟩
      cases h
  | ok wg =>
    have hbind : ((.ok wg : Result (Three UInt32)) >>= groupCounts workDim size) =
        groupCounts workDim size wg := rfl
    rw [hbind]
    have hok : ∀ wg', (Except.ok wg : Result (Three UInt32)) = .ok wg' → wg = wg' := fun _ h =>
      Except.ok.inj h
    rcases groupCounts_cases hdim hone wg with
      ⟨hout, hzero⟩ | ⟨hne, ⟨hout, hsplits⟩ | ⟨hout, hsplits⟩⟩
    · rw [hout]
      exact ⟨fun h => absurd rfl (h.1 _), fun h => absurd (h.2 wg rfl).1 hzero⟩
    · rw [hout]
      constructor
      · rintro ⟨-, hright⟩
        refine ⟨nofun, fun wg' h => ?_⟩
        obtain rfl := hok wg' h
        obtain ⟨hdec, hlocal⟩ := hright _ rfl
        exact ⟨hne, fun _ => ⟨(decomposes_iff hone hne hsplits).mp hdec, hlocal⟩⟩
      · rintro ⟨-, hright⟩
        refine ⟨nofun, fun r h => ?_⟩
        obtain rfl := Except.ok.inj h
        obtain ⟨hwithin, hlocal⟩ := (hright wg rfl).2 hsplits
        exact ⟨(decomposes_iff hone hne hsplits).mpr hwithin, hlocal⟩
    · rw [hout]
      constructor
      · intro _
        refine ⟨nofun, fun wg' h => ?_⟩
        obtain rfl := hok wg' h
        exact ⟨hne, fun h => absurd h hsplits⟩
      · intro _
        exact ⟨nofun, nofun⟩

/-- **When an error is right**: it came with the choice, or from sizes that do not split the
range. -/
theorem complete_choice (choose : Result (Three UInt32)) (l : Option (List UInt64)) :
    Complete limits workDim size l (choose >>= groupCounts workDim size) ↔
      ((∃ e, choose = .error (.result e)) ∨ ∃ wg, choose = .ok wg ∧
        (∀ i : Fin 3, i.val < workDim → wg i ≠ 0) ∧ ¬ Splits workDim size wg) →
      ¬ ∃ r, Decomposes limits workDim size r ∧ HasLocalSize workDim l r.wg := by
  cases choose with
  | error e =>
    constructor
    · rintro h (⟨r, hr⟩ | ⟨wg, hwg, -⟩)
      · exact h r (congrArg Except.error (Except.error.inj hr))
      · cases hwg
    · intro h r hr
      exact h (Or.inl ⟨r, congrArg Except.error (Except.error.inj hr)⟩)
  | ok wg =>
    have hbind : ((.ok wg : Result (Three UInt32)) >>= groupCounts workDim size) =
        groupCounts workDim size wg := rfl
    rw [hbind]
    rcases groupCounts_cases hdim hone wg with
      ⟨hout, hzero⟩ | ⟨hne, ⟨hout, hsplits⟩ | ⟨hout, hsplits⟩⟩
    · rw [hout]
      constructor
      · rintro _ (⟨r, hr⟩ | ⟨wg', hwg, hne, -⟩)
        · cases hr
        · obtain rfl := Except.ok.inj hwg
          exact absurd hne hzero
      · intro _ r hr
        cases hr
    · rw [hout]
      constructor
      · rintro _ (⟨r, hr⟩ | ⟨wg', hwg, -, hnot⟩)
        · cases hr
        · obtain rfl := Except.ok.inj hwg
          exact absurd hsplits hnot
      · intro _ r hr
        cases hr
    · rw [hout]
      constructor
      · intro h _
        exact h _ rfl
      · intro h r _
        exact h (Or.inr ⟨wg, rfl, hne, hsplits⟩)

end

end UnifiedRuntime.LevelZero.WorkGroup
