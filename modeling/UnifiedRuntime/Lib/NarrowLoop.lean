import UnifiedRuntime.Lib.Except

/-!
# Loops with a narrow counter

`for (unsigned i = from; i < bound; i += step)` with a `bound` of 64 bits. The counter has 32
bits, so it starts over where the bound is beyond them, and the loop never ends. What the
rounds put out is collected; a round can fail.

A loop has fuel, one for each look at the condition. It is the same for the loops inside.
-/

namespace UnifiedRuntime

/-- Why nothing comes out of a piece of code. -/
inductive Stop where
  | outOfFuel
  | fault
deriving DecidableEq

variable {α : Type}

def narrowLoop (body : UInt32 → Except Stop (List α)) (step bound : UInt64) :
    Nat → UInt32 → Except Stop (List α)
  | 0, _ => .error .outOfFuel
  | fuel + 1, i =>
    if i.toUInt64 < bound then do
      let out ← body i
      let rest ← narrowLoop body step bound fuel (i.toUInt64 + step).toUInt32
      return out ++ rest
    else .ok []

/-- `for (unsigned i = 0; i < bound; i++)`. -/
def narrowFor (body : UInt32 → Except Stop (List α)) (bound : UInt64) (fuel : Nat) :
    Except Stop (List α) :=
  narrowLoop body 1 bound fuel 0

variable {body : UInt32 → Except Stop (List α)} {step bound : UInt64} {out : List α}

/-- The counter before the `k`-th round, which may have started over. -/
def counterAt (i : UInt32) (step : UInt64) (k : Nat) : UInt32 :=
  UInt32.ofNat (i.toNat + k * step.toNat)

theorem counterAt_zero (i : UInt32) : counterAt i step 0 = i := by
  unfold counterAt
  rw [Nat.zero_mul, Nat.add_zero, UInt32.ofNat_toNat]

theorem counterAt_succ (i : UInt32) (k : Nat) :
    counterAt (i.toUInt64 + step).toUInt32 step k = counterAt i step (k + 1) := by
  apply UInt32.toNat_inj.mp
  unfold counterAt
  rw [UInt32.toNat_ofNat', UInt32.toNat_ofNat', UInt64.toNat_toUInt32, UInt64.toNat_add,
    UInt32.toNat_toUInt64, Nat.succ_mul]
  omega

theorem counterAt_lt_iff (i : UInt32) (k : Nat) :
    (counterAt i step k).toUInt64 < bound ↔ (i.toNat + k * step.toNat) % 2 ^ 32 < bound.toNat := by
  unfold counterAt
  rw [UInt64.lt_iff_toNat_lt, UInt32.toNat_toUInt64, UInt32.toNat_ofNat']

/-- What a loop that ends has done: the rounds before the first counter that is not below the
bound. -/
theorem narrowLoop_iff : ∀ {fuel : Nat} {i : UInt32} {out : List α},
    narrowLoop body step bound fuel i = .ok out ↔
      ∃ (n : Nat) (f : Nat → List α), n < fuel ∧
        (∀ k < n, (counterAt i step k).toUInt64 < bound ∧ body (counterAt i step k) = .ok (f k)) ∧
        ¬ (counterAt i step n).toUInt64 < bound ∧ out = (List.range n).flatMap f
  | 0, i, out => by
    constructor
    · intro h
      cases h
    · rintro ⟨n, f, hn, -⟩
      exact absurd hn (Nat.not_lt_zero n)
  | fuel + 1, i, out => by
    rw [narrowLoop]
    split
    next hlt =>
      constructor
      · intro h
        -- the rounds of the rest are counted from the second one on
        obtain ⟨first, hfirst, h⟩ := except_bind_ok h
        obtain ⟨rest, hrest, h⟩ := except_bind_ok h
        obtain rfl := Except.ok.inj h
        obtain ⟨n, f, hn, hrounds, hend, rfl⟩ := narrowLoop_iff.mp hrest
        refine ⟨n + 1, fun k => k.casesOn first f, Nat.succ_lt_succ hn, fun k hk => ?_, ?_, ?_⟩
        · cases k with
          | zero =>
            rw [counterAt_zero]
            exact ⟨hlt, hfirst⟩
          | succ k =>
            rw [← counterAt_succ]
            exact hrounds k (Nat.lt_of_succ_lt_succ hk)
        · rw [← counterAt_succ]
          exact hend
        · rw [List.range_succ_eq_map, List.flatMap_cons, List.flatMap_map]
          rfl
      · rintro ⟨n, f, hn, hrounds, hend, rfl⟩
        cases n with
        | zero =>
          rw [counterAt_zero] at hend
          exact absurd hlt hend
        | succ n =>
          have hfirst := (hrounds 0 (Nat.succ_pos n)).2
          rw [counterAt_zero] at hfirst
          have hrest : narrowLoop body step bound fuel (i.toUInt64 + step).toUInt32 =
              .ok ((List.range n).flatMap fun k => f (k + 1)) := by
            refine narrowLoop_iff.mpr ⟨n, _, Nat.lt_of_succ_lt_succ hn, fun k hk => ?_, ?_, rfl⟩
            · rw [counterAt_succ]
              exact hrounds (k + 1) (Nat.succ_lt_succ hk)
            · rw [counterAt_succ]
              exact hend
          rw [hfirst, hrest, List.range_succ_eq_map, List.flatMap_cons, List.flatMap_map]
          rfl
    next hge =>
      constructor
      · intro h
        obtain rfl := Except.ok.inj h
        refine ⟨0, fun _ => [], Nat.succ_pos fuel, fun k hk => absurd hk (Nat.not_lt_zero k), ?_,
          rfl⟩
        rw [counterAt_zero]
        exact hge
      · rintro ⟨n, f, -, hrounds, -, rfl⟩
        cases n with
        | zero => rfl
        | succ n =>
          have hlt := (hrounds 0 (Nat.succ_pos n)).1
          rw [counterAt_zero] at hlt
          exact absurd hlt hge

/-- **A loop to a bound that the steps hit** ends exactly if the bound fits the counter and all
rounds end. -/
theorem narrowLoop_hits {fuel m : Nat} {i : UInt32} (hstep : 0 < step.toNat)
    (hm : bound.toNat = i.toNat + m * step.toNat) :
    narrowLoop body step bound fuel i = .ok out ↔
      bound.toNat < 2 ^ 32 ∧ m < fuel ∧ ∃ f : Nat → List α,
        (∀ k < m, body (UInt32.ofNat (i.toNat + k * step.toNat)) = .ok (f k)) ∧
        out = (List.range m).flatMap f := by
  have hmul : ∀ {k n : Nat}, k < n → k * step.toNat < n * step.toNat := fun hk =>
    Nat.mul_lt_mul_of_pos_right hk hstep
  rw [narrowLoop_iff]
  simp only [counterAt_lt_iff]
  constructor
  · rintro ⟨n, f, hn, hrounds, hend, rfl⟩
    have hfits : bound.toNat < 2 ^ 32 := by
      omega
    have hnm : n = m := by
      rcases Nat.lt_trichotomy n m with hlt | heq | hgt
      · have := hmul hlt
        omega
      · exact heq
      · have := (hrounds m hgt).1
        omega
    subst hnm
    exact ⟨hfits, hn, f, fun k hk => (hrounds k hk).2, rfl⟩
  · rintro ⟨hfits, hfuel, f, hbody, rfl⟩
    refine ⟨m, f, hfuel, fun k hk => ⟨?_, hbody k hk⟩, ?_, rfl⟩
    · have := hmul hk
      omega
    · omega

/-- From zero by one. -/
theorem narrowFor_iff {fuel : Nat} :
    narrowFor body bound fuel = .ok out ↔
      bound.toNat < 2 ^ 32 ∧ bound.toNat < fuel ∧ ∃ f : Nat → List α,
        (∀ k < bound.toNat, body (UInt32.ofNat k) = .ok (f k)) ∧
        out = (List.range bound.toNat).flatMap f := by
  have hone : (1 : UInt64).toNat = 1 := rfl
  have hzero : (0 : UInt32).toNat = 0 := rfl
  unfold narrowFor
  rw [narrowLoop_hits (m := bound.toNat) (by decide) (by rw [hone]; omega)]
  simp

/-- Rounds that cannot fail. -/
theorem narrowFor_pure {fuel : Nat} {f : UInt32 → List α} :
    narrowFor (fun i => .ok (f i)) bound fuel = .ok out ↔
      bound.toNat < 2 ^ 32 ∧ bound.toNat < fuel ∧
        out = (List.range bound.toNat).flatMap fun k => f (UInt32.ofNat k) := by
  rw [narrowFor_iff]
  constructor
  · rintro ⟨hbound, hfuel, g, hg, rfl⟩
    refine ⟨hbound, hfuel, List.flatMap_congr fun k hk => ?_⟩
    exact (Except.ok.inj (hg k (List.mem_range.mp hk))).symm
  · rintro ⟨hbound, hfuel, rfl⟩
    exact ⟨hbound, hfuel, _, fun _ _ => rfl, rfl⟩

end UnifiedRuntime
