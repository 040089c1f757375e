import UnifiedRuntime.Loader.EnvMap
import UnifiedRuntime.Lib.Except
import UnifiedRuntime.Sanitizer.Asan

/-!
# `UR_LAYER_ASAN_OPTIONS`

`AsanOptions` reads the options of the layer from the environment. Of the two sizes for
redzones only one bound each is looked at: `redzone` is raised to 16 and `max_redzone`
lowered to 2048. `ComputeRZLog` takes their logarithms and asserts that they are powers
of two from 16 to 2048, which the options need not be.
-/

namespace UnifiedRuntime.Sanitizer

open Loader Str

/-- What the constructor may end with instead: `die`, or a `pop_back` on an empty string
while the environment is read. -/
inductive OptionsError where
  | die
  | popBackEmpty

structure AsanOptions where
  debug : Bool
  minRZSize : Nat
  maxRZSize : Nat
  maxQuarantineSizeMB : Nat
  detectLocals : Bool
  detectPrivates : Bool
  printStats : Bool
  detectKernelArguments : Bool
  detectLeaks : Bool
  haltOnError : Bool

def AsanOptions.default : AsanOptions where
  debug := false
  minRZSize := 16
  maxRZSize := 2048
  maxQuarantineSizeMB := 8
  detectLocals := true
  detectPrivates := true
  printStats := false
  detectKernelArguments := true
  detectLeaks := true
  haltOnError := true

/-- The first value of an option. Each key has one. -/
def optionValue (map : EnvVarMap) (name : String) : Option Str :=
  (map.entries.find? fun e => e.1 == name.toList).map fun e => e.2.headD []

def isTrue (s : Str) : Bool := s == "1".toList || s == "true".toList
def isFalse (s : Str) : Bool := s == "0".toList || s == "false".toList

/-- The `SetBoolOption` lambda; `opt` is the value so far. -/
def setBoolOption (map : EnvVarMap) (name : String) (opt : Bool) : Except OptionsError Bool :=
  match optionValue map name with
  | none => .ok opt
  | some value =>
    if isTrue (tolower value) then .ok true
    else if isFalse (tolower value) then .ok false
    else .error .die

/-- A number, or `die`. -/
def numberOption (value : Str) : Except OptionsError Nat :=
  match stoulPrefix value with
  | .ok n => .ok n
  | .error _ => .error .die

def quarantineOption (map : EnvVarMap) (opt : Nat) : Except OptionsError Nat :=
  match optionValue map "quarantine_size_mb" with
  | none => .ok opt
  | some value => do
    let n ← numberOption value
    if n > 2 ^ 32 - 1 then .error .die else .ok n

def redzoneOption (map : EnvVarMap) (opt : Nat) : Except OptionsError Nat :=
  match optionValue map "redzone" with
  | none => .ok opt
  | some value => do
    let n ← numberOption value
    .ok (if n < 16 then 16 else n)

def maxRedzoneOption (map : EnvVarMap) (opt : Nat) : Except OptionsError Nat :=
  match optionValue map "max_redzone" with
  | none => .ok opt
  | some value => do
    let n ← numberOption value
    .ok (if n > 2048 then 2048 else n)

/-- The constructor once the environment is read. -/
def readOptions (map : EnvVarMap) : Except OptionsError AsanOptions := do
  let o := AsanOptions.default
  let debug ← setBoolOption map "debug" o.debug
  let detectKernelArguments ← setBoolOption map "detect_kernel_arguments" o.detectKernelArguments
  let detectLocals ← setBoolOption map "detect_locals" o.detectLocals
  let detectPrivates ← setBoolOption map "detect_privates" o.detectPrivates
  let printStats ← setBoolOption map "print_stats" o.printStats
  let detectLeaks ← setBoolOption map "detect_leaks" o.detectLeaks
  let haltOnError ← setBoolOption map "halt_on_error" o.haltOnError
  let maxQuarantineSizeMB ← quarantineOption map o.maxQuarantineSizeMB
  let minRZSize ← redzoneOption map o.minRZSize
  let maxRZSize ← maxRedzoneOption map o.maxRZSize
  .ok ⟨debug, minRZSize, maxRZSize, maxQuarantineSizeMB, detectLocals, detectPrivates, printStats,
    detectKernelArguments, detectLeaks, haltOnError⟩

/-- The variable as a map; what is not one ends in `die`. -/
def optionsMap (env : Option Str) : Except OptionsError (Option EnvVarMap) :=
  match getenvToMap "UR_LAYER_ASAN_OPTIONS".toList env true with
  | .error (.invalidArgument _) => .error .die
  | .error .popBackEmpty => .error .popBackEmpty
  | .ok map => .ok map

/-- The constructor; `env` is the variable, `none` when it is not set. -/
def AsanOptions.new (env : Option Str) : Except OptionsError AsanOptions := do
  match ← optionsMap env with
  | none => .ok AsanOptions.default
  | some map => readOptions map

/-! ## `ComputeRZLog` with its assertions -/

def isPowerOfTwo (x : Nat) : Bool := x &&& (x - 1) == 0 && x != 0

/-- `RZLog2Size`; `none` where it asserts. -/
def assertRZLog2Size (log : Nat) : Option Nat := if log < 8 then some (rzLog2Size log) else none

/-- `RZSize2Log`. -/
def assertRZSize2Log (size : Nat) : Option Nat :=
  if 16 ≤ size ∧ size ≤ 2048 ∧ isPowerOfTwo size = true then
    if assertRZLog2Size (rzSize2Log size) = some size then some (rzSize2Log size) else none
  else none

def assertComputeRZLog (size minSize maxSize : Nat) : Option Nat := do
  let _ ← assertRZSize2Log minSize
  let _ ← assertRZSize2Log maxSize
  some (computeRZLog size minSize maxSize)

/-! ## Usable redzones -/

/-- The sizes are powers of two in their range and order, and give a redzone between them
to an allocation of every size. -/
structure UsableRedzones (o : AsanOptions) : Prop where
  minPow : ∃ k, o.minRZSize = 2 ^ k
  maxPow : ∃ k, o.maxRZSize = 2 ^ k
  min_le : 16 ≤ o.minRZSize
  le : o.minRZSize ≤ o.maxRZSize
  max_le : o.maxRZSize ≤ 2048
  redzone : ∀ size, ∃ log, assertComputeRZLog size o.minRZSize o.maxRZSize = some log ∧ log ≤ 7 ∧
    o.minRZSize ≤ rzLog2Size log ∧ rzLog2Size log ≤ o.maxRZSize

/-- The number that is given for an option. -/
def Given (map : Option EnvVarMap) (name : String) (n : Nat) : Prop :=
  ∃ m value, map = some m ∧ optionValue m name = some value ∧ stoulPrefix value = .ok n

/-- What has to be given: powers of two, in order. -/
structure PowersGiven (map : Option EnvVarMap) : Prop where
  min : ∀ n, Given map "redzone" n → n < 16 ∨ (∃ k, n = 2 ^ k) ∧ n ≤ 2048
  max : ∀ n, Given map "max_redzone" n → 2048 < n ∨ (∃ k, n = 2 ^ k) ∧ 16 ≤ n
  order : ∀ a b, Given map "redzone" a → Given map "max_redzone" b → a < 16 ∨ a ≤ b

/-- The powers of two from 16 to 2048. -/
theorem redzone_pow {n k : Nat} (hk : n = 2 ^ k) (hlo : 16 ≤ n) (hhi : n ≤ 2048) :
    4 ≤ k ∧ k ≤ 11 := by
  constructor
  · by_contra hlt
    have h : 2 ^ k < 2 ^ 4 := Nat.pow_lt_pow_right (by omega) (by omega)
    omega
  · by_contra hlt
    have h : 2 ^ 11 < 2 ^ k := Nat.pow_lt_pow_right (by omega) (by omega)
    omega

theorem isPowerOfTwo_pow (k : Nat) : isPowerOfTwo (2 ^ k) = true := by
  unfold isPowerOfTwo
  simp

/-- The assertions of `RZSize2Log` on a power of two. -/
theorem assertRZSize2Log_pow {k : Nat} (hlo : 4 ≤ k) (hhi : k ≤ 11) :
    assertRZSize2Log (2 ^ k) = some (k - 4) := by
  have hlog : rzSize2Log (2 ^ k) = k - 4 := by
    unfold rzSize2Log
    rw [Nat.log2_two_pow]
  have hsize : rzLog2Size (k - 4) = 2 ^ k := by
    unfold rzLog2Size
    rw [show (16 : Nat) = 2 ^ 4 by rfl, ← Nat.pow_add]
    congr 1
    omega
  have h₁ : 2 ^ 4 ≤ 2 ^ k := Nat.pow_le_pow_right (by omega) hlo
  have h₂ : 2 ^ k ≤ 2 ^ 11 := Nat.pow_le_pow_right (by omega) hhi
  have hchecked : assertRZLog2Size (k - 4) = some (2 ^ k) := by
    unfold assertRZLog2Size
    rw [if_pos (show k - 4 < 8 by omega), hsize]
  unfold assertRZSize2Log
  rw [if_pos ⟨by omega, by omega, isPowerOfTwo_pow k⟩, hlog, if_pos hchecked]

/-- **Sizes that are powers of two in order are usable.** -/
theorem usableRedzones_of_pow {o : AsanOptions} {a b : Nat} (ha : o.minRZSize = 2 ^ a)
    (hb : o.maxRZSize = 2 ^ b) (hlo : 16 ≤ o.minRZSize) (hle : o.minRZSize ≤ o.maxRZSize)
    (hhi : o.maxRZSize ≤ 2048) : UsableRedzones o := by
  obtain ⟨ha₄, ha₁₁⟩ := redzone_pow ha hlo (hle.trans hhi)
  obtain ⟨hb₄, hb₁₁⟩ := redzone_pow hb (hlo.trans hle) hhi
  have hab : a ≤ b := by
    rw [ha, hb] at hle
    exact (Nat.pow_le_pow_iff_right (by omega)).mp hle
  refine ⟨⟨a, ha⟩, ⟨b, hb⟩, hlo, hle, hhi, fun size => ?_⟩
  have hminlog : rzSize2Log o.minRZSize = a - 4 := by
    unfold rzSize2Log
    rw [ha, Nat.log2_two_pow]
  have hmaxlog : rzSize2Log o.maxRZSize = b - 4 := by
    unfold rzSize2Log
    rw [hb, Nat.log2_two_pow]
  have hclamp : a - 4 ≤ computeRZLog size o.minRZSize o.maxRZSize ∧
      computeRZLog size o.minRZSize o.maxRZSize ≤ b - 4 := by
    unfold computeRZLog
    rw [hminlog, hmaxlog]
    exact ⟨le_min (le_max_right _ _) (by omega), min_le_right _ _⟩
  have hsize : ∀ k, 4 ≤ k → rzLog2Size (k - 4) = 2 ^ k := by
    intro k hk
    unfold rzLog2Size
    rw [show (16 : Nat) = 2 ^ 4 by rfl, ← Nat.pow_add]
    congr 1
    omega
  have hmono : ∀ i j, i ≤ j → rzLog2Size i ≤ rzLog2Size j := fun i j hij =>
    Nat.mul_le_mul_left 16 (Nat.pow_le_pow_right (by omega) hij)
  refine ⟨computeRZLog size o.minRZSize o.maxRZSize, ?_, by omega, ?_, ?_⟩
  · unfold assertComputeRZLog
    rw [ha, hb, assertRZSize2Log_pow ha₄ ha₁₁, assertRZSize2Log_pow hb₄ hb₁₁]
    rfl
  · calc o.minRZSize = rzLog2Size (a - 4) := ha.trans (hsize a ha₄).symm
      _ ≤ _ := hmono _ _ hclamp.1
  · calc _ ≤ rzLog2Size (b - 4) := hmono _ _ hclamp.2
      _ = o.maxRZSize := (hsize b hb₄).trans hb.symm

/-! ## Accepted strings -/

/-- What an option is after its default `opt` and a given number. -/
def Reads (map : Option EnvVarMap) (name : String) (opt : Nat) (adjust : Nat → Nat) (n : Nat) :
    Prop :=
  ((∀ k, ¬ Given map name k) ∧ n = opt) ∨ ∃ k, Given map name k ∧ n = adjust k

theorem Given.unique {map : Option EnvVarMap} {name : String} {a b : Nat} (ha : Given map name a)
    (hb : Given map name b) : a = b := by
  obtain ⟨m, value, rfl, hv, ha⟩ := ha
  obtain ⟨m', value', hm, hv', hb⟩ := hb
  obtain rfl := Option.some.inj hm
  obtain rfl := Option.some.inj (hv.symm.trans hv')
  exact Except.ok.inj (ha.symm.trans hb)

theorem numberOption_ok {value : Str} {n : Nat} (h : numberOption value = .ok n) :
    stoulPrefix value = .ok n := by
  unfold numberOption at h
  split at h
  next k hk => rw [hk, Except.ok.inj h]
  next => cases h

/-- One of the numeric options. -/
theorem reads_of_ok {map : EnvVarMap} {name : String} {opt n : Nat} {adjust : Nat → Nat}
    (h : (match optionValue map name with
      | none => .ok opt
      | some value => do
        let k ← numberOption value
        .ok (adjust k)) = (.ok n : Except OptionsError Nat)) :
    Reads (some map) name opt adjust n := by
  split at h
  next hnone =>
    refine .inl ⟨?_, (Except.ok.inj h).symm⟩
    rintro k ⟨m, value, hm, hv, -⟩
    obtain rfl := Option.some.inj hm
    rw [hnone] at hv
    cases hv
  next value hv =>
    cases hk : numberOption value with
    | error e =>
      rw [hk] at h
      cases h
    | ok k =>
      rw [hk] at h
      exact .inr ⟨k, ⟨map, value, rfl, hv, numberOption_ok hk⟩, (Except.ok.inj h).symm⟩

/-- The sizes of options that are accepted. -/
theorem readOptions_sizes {map : EnvVarMap} {o : AsanOptions} (h : readOptions map = .ok o) :
    redzoneOption map 16 = .ok o.minRZSize ∧ maxRedzoneOption map 2048 = .ok o.maxRZSize := by
  -- eight options come before the two
  iterate 8 obtain ⟨_, -, h⟩ := except_bind_ok h
  obtain ⟨a, ha, h⟩ := except_bind_ok h
  obtain ⟨b, hb, h⟩ := except_bind_ok h
  obtain rfl := Except.ok.inj h
  exact ⟨ha, hb⟩

/-- What the options of an accepted string are. -/
theorem sizes_read {env : Option Str} {map : Option EnvVarMap} {o : AsanOptions}
    (hmap : optionsMap env = .ok map) (h : AsanOptions.new env = .ok o) :
    Reads map "redzone" 16 (fun n => if n < 16 then 16 else n) o.minRZSize ∧
      Reads map "max_redzone" 2048 (fun n => if n > 2048 then 2048 else n) o.maxRZSize := by
  obtain ⟨map', hmap', h⟩ := except_bind_ok h
  obtain rfl : map = map' := Except.ok.inj (hmap.symm.trans hmap')
  cases map with
  | none =>
    obtain rfl := Except.ok.inj h
    have hnone : ∀ name k, ¬ Given none name k := by
      rintro name k ⟨m, value, hm, -⟩
      cases hm
    exact ⟨.inl ⟨hnone _, rfl⟩, .inl ⟨hnone _, rfl⟩⟩
  | some m =>
    obtain ⟨hmin, hmax⟩ := readOptions_sizes h
    exact ⟨reads_of_ok hmin, reads_of_ok hmax⟩

/-- **Accepted options give usable redzones** exactly when the given sizes are powers of two
in order. -/
theorem accepted_redzones_usable (env : Option Str) (map : Option EnvVarMap) (o : AsanOptions)
    (hmap : optionsMap env = .ok map) (h : AsanOptions.new env = .ok o) :
    UsableRedzones o ↔ PowersGiven map := by
  obtain ⟨hmin, hmax⟩ := sizes_read hmap h
  constructor
  · intro hu
    obtain ⟨a, ha⟩ := hu.minPow
    obtain ⟨b, hb⟩ := hu.maxPow
    have h₁ := hu.min_le
    have h₂ := hu.le
    have h₃ := hu.max_le
    have hmin' : ∀ n, Given map "redzone" n → o.minRZSize = if n < 16 then 16 else n := by
      intro n hn
      rcases hmin with ⟨hnone, -⟩ | ⟨k, hk, heq⟩
      · exact absurd hn (hnone n)
      · rw [heq, hk.unique hn]
    have hmax' : ∀ n, Given map "max_redzone" n →
        o.maxRZSize = if n > 2048 then 2048 else n := by
      intro n hn
      rcases hmax with ⟨hnone, -⟩ | ⟨k, hk, heq⟩
      · exact absurd hn (hnone n)
      · rw [heq, hk.unique hn]
    refine ⟨fun n hn => ?_, fun n hn => ?_, fun m n hm hn => ?_⟩
    · have heq := hmin' n hn
      split at heq
      next hlt => exact .inl hlt
      next hge => exact .inr ⟨⟨a, heq.symm.trans ha⟩, by omega⟩
    · have heq := hmax' n hn
      split at heq
      next hgt => exact .inl hgt
      next hle => exact .inr ⟨⟨b, heq.symm.trans hb⟩, by omega⟩
    · have heq₁ := hmin' m hm
      have heq₂ := hmax' n hn
      split at heq₁
      next hlt => exact .inl hlt
      next =>
        split at heq₂
        next => exact .inr (by omega)
        next => exact .inr (by omega)
  · intro hp
    -- the two sizes, each a power of two in its range
    have h₁ : (∃ k, o.minRZSize = 2 ^ k) ∧ 16 ≤ o.minRZSize ∧ o.minRZSize ≤ 2048 := by
      rcases hmin with ⟨-, heq⟩ | ⟨n, hn, heq⟩
      · rw [heq]
        exact ⟨⟨4, rfl⟩, by omega, by omega⟩
      · rcases hp.min n hn with hlt | ⟨⟨k, hk⟩, hle⟩
        · simp only [hlt, if_true] at heq
          rw [heq]
          exact ⟨⟨4, rfl⟩, by omega, by omega⟩
        · by_cases hlt : n < 16
          · simp only [hlt, if_true] at heq
            rw [heq]
            exact ⟨⟨4, rfl⟩, by omega, by omega⟩
          · simp only [hlt, if_false] at heq
            exact ⟨⟨k, heq.trans hk⟩, by omega, by omega⟩
    have h₂ : (∃ k, o.maxRZSize = 2 ^ k) ∧ 16 ≤ o.maxRZSize ∧ o.maxRZSize ≤ 2048 := by
      rcases hmax with ⟨-, heq⟩ | ⟨n, hn, heq⟩
      · rw [heq]
        exact ⟨⟨11, rfl⟩, by omega, by omega⟩
      · by_cases hgt : n > 2048
        · simp only [hgt, if_true] at heq
          rw [heq]
          exact ⟨⟨11, rfl⟩, by omega, by omega⟩
        · simp only [hgt, if_false] at heq
          rcases hp.max n hn with hgt' | ⟨⟨k, hk⟩, hle⟩
          · exact absurd hgt' hgt
          · exact ⟨⟨k, heq.trans hk⟩, by omega, by omega⟩
    have hle : o.minRZSize ≤ o.maxRZSize := by
      rcases hmin with ⟨-, heq⟩ | ⟨m, hm, heq⟩
      · omega
      · by_cases hlt : m < 16
        · simp only [hlt, if_true] at heq
          omega
        · simp only [hlt, if_false] at heq
          rcases hmax with ⟨-, heq'⟩ | ⟨n, hn, heq'⟩
          · omega
          · have hord := hp.order m n hm hn
            by_cases hgt : n > 2048
            · simp only [hgt, if_true] at heq'
              omega
            · simp only [hgt, if_false] at heq'
              omega
    obtain ⟨⟨a, ha⟩, hlo, -⟩ := h₁
    obtain ⟨⟨b, hb⟩, -, hhi⟩ := h₂
    exact usableRedzones_of_pow ha hb hlo hle hhi

theorem accepted_redzones_usable_64 :
    AsanOptions.new (some "redzone:64;max_redzone:512".toList)
        = .ok { AsanOptions.default with minRZSize := 64, maxRZSize := 512 } ∧
      UsableRedzones { AsanOptions.default with minRZSize := 64, maxRZSize := 512 } := by
  have hnew : AsanOptions.new (some "redzone:64;max_redzone:512".toList)
      = .ok { AsanOptions.default with minRZSize := 64, maxRZSize := 512 } := by rfl
  refine ⟨hnew, (accepted_redzones_usable _ _ _ rfl hnew).mpr ⟨fun n hn => ?_, fun n hn => ?_,
    fun a b ha hb => ?_⟩⟩
  · have hn' : n = 64 := hn.unique ⟨_, "64".toList, rfl, rfl, rfl⟩
    exact .inr ⟨⟨6, hn'⟩, by omega⟩
  · have hn' : n = 512 := hn.unique ⟨_, "512".toList, rfl, rfl, rfl⟩
    exact .inr ⟨⟨9, hn'⟩, by omega⟩
  · have ha' : a = 64 := ha.unique ⟨_, "64".toList, rfl, rfl, rfl⟩
    have hb' : b = 512 := hb.unique ⟨_, "512".toList, rfl, rfl, rfl⟩
    omega

/-- A size that is not a power of two, one beyond 2048, a largest size below 16, and sizes
out of order are accepted. -/
theorem accepted_redzones_unusable :
    ["redzone:17", "redzone:4096", "max_redzone:8", "redzone:256;max_redzone:64"].Forall fun s =>
      ∃ o, AsanOptions.new (some s.toList) = .ok o ∧ ¬ UsableRedzones o := by
  refine ⟨?_, ?_, ?_, ?_⟩
  · refine ⟨{ AsanOptions.default with minRZSize := 17 }, rfl, fun h => ?_⟩
    obtain ⟨k, hk⟩ := h.minPow
    have hk' : 17 = 2 ^ k := hk
    obtain ⟨hlo, hhi⟩ := redzone_pow hk' (by omega) (by omega)
    interval_cases k <;> omega
  · refine ⟨{ AsanOptions.default with minRZSize := 4096 }, rfl, fun h => ?_⟩
    exact absurd (h.le.trans h.max_le) (by decide)
  · refine ⟨{ AsanOptions.default with maxRZSize := 8 }, rfl, fun h => ?_⟩
    exact absurd (h.min_le.trans h.le) (by decide)
  · refine ⟨{ AsanOptions.default with minRZSize := 256, maxRZSize := 64 }, rfl, fun h => ?_⟩
    exact absurd h.le (by decide)

end UnifiedRuntime.Sanitizer
