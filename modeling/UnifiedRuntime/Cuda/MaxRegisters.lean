import UnifiedRuntime.Lib.Str

/-!
# The register limit of a build

The CUDA adapter looks for the option `maxrregcount` with `find_first_of`, which finds the first
character that is one of its letters. What it takes for the number of the option stands behind the
first `=` after that.

- `getMaxRegisters_none`, `getMaxRegisters_delimited`: what is found in any string.
- `maxRegisters_iff`: when it is what was asked for.
-/

namespace UnifiedRuntime.Cuda.MaxRegisters

open Str

/-! ## The code -/

def optionName : Str := "maxrregcount".toList

/-- `s.find_first_of(set)`: the first character that is in the set. -/
def findFirstOf (s set : Str) : Option Nat := s.findIdx? (set.contains ·)

/-- The digit loop: the position behind the digits. -/
def skipDigits (s : Str) (pos : Nat) : Nat :=
  if h : pos < s.length then
    if s[pos].isDigit then skipDigits s (pos + 1) else pos
  else pos
termination_by s.length - pos

/-- `std::stoi` on a string of decimal digits. -/
def stoi (s : Str) : Except StdException Nat :=
  if s.isEmpty then .error .invalidArgument
  else if decimal s < 2 ^ 31 then .ok (decimal s)
  else .error .outOfRange

/-- `getMaxRegistersJitOptionValue`: the value, if the function returns true. -/
def getMaxRegistersJitOptionValue (buildOptions : Str) : Except StdException (Option UInt32) :=
  match findFirstOf buildOptions optionName with
  | none => .ok none
  | some optionPos =>
    match find buildOptions '=' (optionPos + 1) with
    | none => .ok none
    | some delimPos =>
      let startPos := delimPos + 1
      if startPos ≥ buildOptions.length then .ok none
      else
        let valueString :=
          substr buildOptions startPos (some (skipDigits buildOptions startPos - startPos))
        if valueString.isEmpty then .ok none
        else (stoi valueString).map fun value => some (UInt32.ofNat value)

/-- The options of `cuModuleLoadDataEx`. -/
inductive JitOption where
  | infoLogBuffer
  | infoLogBufferSizeBytes (size : Nat)
  | errorLogBuffer
  | errorLogBufferSizeBytes (size : Nat)
  | maxRegisters (value : UInt32)

def maxLogSize : Nat := 8192

/-- `buildProgram` up to the call of the driver: the options of the program, which stay as they are
when none are given, and those of the driver. -/
def buildProgram (stored : Str) (buildOptions : Option Str) :
    Except StdException (Str × List JitOption) := do
  let stored := buildOptions.getD stored
  let options := [.infoLogBuffer, .infoLogBufferSizeBytes maxLogSize, .errorLogBuffer,
    .errorLogBufferSizeBytes maxLogSize]
  if stored.isEmpty then return (stored, options)
  match ← getMaxRegistersJitOptionValue stored with
  | none => return (stored, options)
  | some maxRegs => return (stored, options ++ [.maxRegisters maxRegs])

/-! ## Options and limits -/

/-- The decimal number at the start of a string. -/
def number (s : Str) : Option Nat :=
  if (s.takeWhile Char.isDigit).isEmpty then none else some (decimal (s.takeWhile Char.isDigit))

/-- A string gives a limit: the name of the option, `=` and a number are in it. -/
def GivesLimit (s : Str) (limit : Nat) : Prop :=
  ∃ pre rest, s = pre ++ (optionName ++ '=' :: rest) ∧ number rest = some limit

/-- **The driver has the limit of the string**, and none if that gives none. -/
structure Limited (s : Str) (options : List JitOption) : Prop where
  asked : ∀ value, .maxRegisters value ∈ options → GivesLimit s value.toNat
  passed : (∃ limit, GivesLimit s limit) → ∃ value, .maxRegisters value ∈ options

/-- Where a string is cut: at its first character that is a letter of the name, and at the first `=`
after that. -/
structure Cut (s pre : Str) (c : Char) (mid rest : Str) : Prop where
  eq : s = pre ++ c :: (mid ++ '=' :: rest)
  noLetter : ∀ x ∈ pre, x ∉ optionName
  letter : c ∈ optionName
  noDelim : '=' ∉ mid

/-- The number there, if there is one, is small and given to the option, by this `=` or by another;
if there is none then the option is not in the string. -/
def Careful (s : Str) : Prop :=
  ∀ pre c mid rest, Cut s pre c mid rest →
    match number rest with
    | none => ∀ limit, ¬ GivesLimit s limit
    | some limit => limit < 2 ^ 31 ∧ GivesLimit s limit

/-! ## Pieces of a string -/

variable {s pre mid rest before : Str} {c : Char} {limit : Nat}

theorem name_letter : 'm' ∈ optionName := by
  decide

/-- A string has its first letter of the name somewhere, or none. -/
theorem exists_letter (s : Str) :
    (∀ x ∈ s, x ∉ optionName) ∨
      ∃ pre c t, s = pre ++ c :: t ∧ (∀ x ∈ pre, x ∉ optionName) ∧ c ∈ optionName := by
  induction s with
  | nil => exact .inl (by simp)
  | cons x s ih =>
    by_cases hx : x ∈ optionName
    · exact .inr ⟨[], x, s, rfl, by simp, hx⟩
    · rcases ih with hnone | ⟨pre, c, t, rfl, hpre, hc⟩
      · refine .inl ?_
        simpa [hx] using hnone
      · refine .inr ⟨x :: pre, c, t, rfl, ?_, hc⟩
        simpa [hx] using hpre

theorem findFirstOf_none (hs : ∀ x ∈ s, x ∉ optionName) : findFirstOf s optionName = none := by
  unfold findFirstOf
  rw [List.findIdx?_eq_none_iff]
  intro x hx
  simpa using hs x hx

theorem findFirstOf_letter {t : Str} (hpre : ∀ x ∈ pre, x ∉ optionName) (hc : c ∈ optionName) :
    findFirstOf (pre ++ c :: t) optionName = some pre.length := by
  have hnone := findFirstOf_none hpre
  unfold findFirstOf at hnone ⊢
  rw [List.findIdx?_append, hnone, List.findIdx?_cons]
  simp [hc]

theorem skipDigits_append (before rest : Str) :
    skipDigits (before ++ rest) before.length =
      before.length + (rest.takeWhile Char.isDigit).length := by
  induction rest generalizing before with
  | nil =>
    rw [skipDigits, dif_neg (by simp)]
    rfl
  | cons c rest ih =>
    have hlt : before.length < (before ++ c :: rest).length := by simp
    have hget : (before ++ c :: rest)[before.length] = c := by simp
    rw [skipDigits, dif_pos hlt]
    by_cases hc : c.isDigit = true
    · have h := ih (before ++ [c])
      simp only [List.append_assoc, List.singleton_append, List.length_append,
        List.length_singleton] at h
      rw [hget, if_pos hc, List.takeWhile_cons_of_pos hc, List.length_cons]
      omega
    · rw [hget, if_neg hc, List.takeWhile_cons_of_neg hc]
      rfl

/-- What is read behind the delimiter. -/
theorem valueString_eq (before rest : Str) :
    substr (before ++ rest) before.length
        (some (skipDigits (before ++ rest) before.length - before.length)) =
      rest.takeWhile Char.isDigit := by
  rw [skipDigits_append, Nat.add_sub_cancel_left, substr, List.drop_left]
  exact (List.prefix_iff_eq_take.1 (List.takeWhile_prefix _)).symm

/-! ## What is found -/

/-- **Where a string is cut** the number is taken, or the function throws. -/
theorem getMaxRegisters_delimited (h : Cut s pre c mid rest) :
    getMaxRegistersJitOptionValue s =
      match number rest with
      | none => .ok none
      | some limit =>
        if limit < 2 ^ 31 then .ok (some (UInt32.ofNat limit)) else .error .outOfRange := by
  have hletter : findFirstOf s optionName = some pre.length := by
    rw [h.eq]
    exact findFirstOf_letter h.noLetter h.letter
  have hdelim : find s '=' (pre.length + 1) = some (pre.length + 1 + mid.length) := by
    have hfind := find_delim (pre ++ [c]) rest h.noDelim
    simpa [h.eq] using hfind
  obtain ⟨before, hs, hstart⟩ : ∃ before : Str, s = before ++ rest ∧
      pre.length + 1 + mid.length + 1 = before.length := by
    refine ⟨pre ++ c :: (mid ++ ['=']), by simp [h.eq], ?_⟩
    simp
    omega
  unfold getMaxRegistersJitOptionValue
  simp only [hletter, hdelim]
  rw [hstart, hs, valueString_eq]
  unfold number stoi
  by_cases hdigits : (rest.takeWhile Char.isDigit).isEmpty = true
  · simp [hdigits]
  · have hrest : rest ≠ [] := by
      rintro rfl
      exact hdigits rfl
    have hinside : ¬ before.length ≥ (before ++ rest).length := by
      have hpos := List.length_pos_iff.2 hrest
      rw [List.length_append]
      omega
    rw [if_neg hinside]
    simp only [if_neg hdigits]
    split <;> rfl

/-- The `=` of an option stands behind the first letter. -/
theorem GivesLimit.delim_mem {t : Str} (hlimit : GivesLimit (pre ++ c :: t) limit)
    (hpre : ∀ x ∈ pre, x ∉ optionName) : '=' ∈ t := by
  obtain ⟨pre', rest, heq, -⟩ := hlimit
  have hname : optionName = 'm' :: "axrregcount".toList := rfl
  rw [hname] at heq
  rcases List.append_eq_append_iff.1 heq with ⟨between, -, hrest⟩ | ⟨between, rfl, hrest⟩
  · cases between with
    | nil =>
      obtain ⟨-, rfl⟩ := List.cons.inj hrest
      simp
    | cons x between =>
      obtain ⟨-, rfl⟩ := List.cons.inj hrest
      simp
  · cases between with
    | nil =>
      obtain ⟨-, rfl⟩ := List.cons.inj hrest
      simp
    | cons x between =>
      -- the letter would be before the first one
      obtain ⟨rfl, -⟩ := List.cons.inj hrest
      exact absurd name_letter (hpre _ (by simp))

/-- **A string that is not cut** has no value, nor a limit. -/
theorem getMaxRegisters_none (hs : ¬ ∃ pre c mid rest, Cut s pre c mid rest) :
    getMaxRegistersJitOptionValue s = .ok none ∧ ∀ limit, ¬ GivesLimit s limit := by
  rcases exists_letter s with hnone | ⟨pre, c, t, rfl, hpre, hc⟩
  · refine ⟨by rw [getMaxRegistersJitOptionValue, findFirstOf_none hnone], ?_⟩
    rintro limit ⟨pre, rest, rfl, -⟩
    exact hnone 'm' (List.mem_append_right _ (List.mem_append_left _ name_letter)) name_letter
  · have hdelim : '=' ∉ t := by
      intro hmem
      obtain ⟨mid, rest, rfl, hmid⟩ := List.eq_append_cons_of_mem hmem
      exact hs ⟨pre, c, mid, rest, ⟨rfl, hpre, hc, hmid⟩⟩
    constructor
    · have hfind := find_none (pre ++ [c]) hdelim
      simp only [List.append_assoc, List.singleton_append, List.length_append,
        List.length_singleton] at hfind
      simp [getMaxRegistersJitOptionValue, findFirstOf_letter hpre hc, hfind]
    · intro limit hlimit
      exact hdelim (hlimit.delim_mem hpre)

/-- What the driver has when the function returns. -/
theorem buildProgram_ok {stored : Str} {given : Option Str} {value : Option UInt32}
    (h : getMaxRegistersJitOptionValue (given.getD stored) = .ok value) :
    ∃ options, buildProgram stored given = .ok (given.getD stored, options) ∧
      ∀ v, .maxRegisters v ∈ options ↔ value = some v := by
  unfold buildProgram
  by_cases hempty : (given.getD stored).isEmpty = true
  · have hvalue : value = none := by
      rw [List.isEmpty_iff.1 hempty] at h
      exact (Except.ok.inj h).symm
    refine ⟨_, if_pos hempty, ?_⟩
    simp [hvalue]
  · cases value with
    | none =>
      simp only [hempty, h]
      exact ⟨_, rfl, by simp⟩
    | some value =>
      simp only [hempty, h]
      exact ⟨_, rfl, by simp [eq_comm]⟩

theorem buildProgram_error {stored : Str} {given : Option Str} {e : StdException}
    (h : getMaxRegistersJitOptionValue (given.getD stored) = .error e) :
    buildProgram stored given = .error e := by
  unfold buildProgram
  by_cases hempty : (given.getD stored).isEmpty = true
  · rw [List.isEmpty_iff.1 hempty] at h
    cases h
  · simp only [hempty, h]
    rfl

/-- **The driver has the limit that the options give** if the number behind the first `=` after the
first letter is small and that of the option. -/
theorem maxRegisters_iff (stored : Str) (given : Option Str) :
    (∃ options, buildProgram stored given = .ok (given.getD stored, options) ∧
      Limited (given.getD stored) options) ↔ Careful (given.getD stored) := by
  constructor
  · rintro ⟨options, hbuild, hlimited⟩ pre c mid rest hcut
    -- what stands behind the first `=` is what the driver gets
    have hvalue := getMaxRegisters_delimited hcut
    cases hnumber : number rest with
    | none =>
      simp only [hnumber] at hvalue
      obtain ⟨options', hbuild', hmem⟩ := buildProgram_ok hvalue
      obtain ⟨-, rfl⟩ := Prod.mk.inj (Except.ok.inj (hbuild.symm.trans hbuild'))
      intro limit hlimit
      obtain ⟨v, hv⟩ := hlimited.passed ⟨limit, hlimit⟩
      cases (hmem v).1 hv
    | some limit =>
      simp only [hnumber] at hvalue
      by_cases hsmall : limit < 2 ^ 31
      · rw [if_pos hsmall] at hvalue
        obtain ⟨options', hbuild', hmem⟩ := buildProgram_ok hvalue
        obtain ⟨-, rfl⟩ := Prod.mk.inj (Except.ok.inj (hbuild.symm.trans hbuild'))
        have hasked := hlimited.asked _ ((hmem _).2 rfl)
        rw [UInt32.toNat_ofNat_of_lt' (Nat.lt_trans hsmall (by decide))] at hasked
        exact ⟨hsmall, hasked⟩
      · rw [if_neg hsmall] at hvalue
        rw [buildProgram_error hvalue] at hbuild
        cases hbuild
  · intro hcareful
    by_cases hcut : ∃ pre c mid rest, Cut (given.getD stored) pre c mid rest
    · obtain ⟨pre, c, mid, rest, hcut⟩ := hcut
      have hvalue := getMaxRegisters_delimited hcut
      have hnumber := hcareful pre c mid rest hcut
      cases hlimit : number rest with
      | none =>
        simp only [hlimit] at hvalue hnumber
        obtain ⟨options, hbuild, hmem⟩ := buildProgram_ok hvalue
        refine ⟨options, hbuild, ?_, ?_⟩
        · intro v hv
          cases (hmem v).1 hv
        · rintro ⟨limit, hgives⟩
          exact absurd hgives (hnumber limit)
      | some limit =>
        simp only [hlimit] at hvalue hnumber
        rw [if_pos hnumber.1] at hvalue
        obtain ⟨options, hbuild, hmem⟩ := buildProgram_ok hvalue
        refine ⟨options, hbuild, ?_, fun _ => ⟨_, (hmem _).2 rfl⟩⟩
        intro v hv
        obtain rfl := Option.some.inj ((hmem v).1 hv)
        rw [UInt32.toNat_ofNat_of_lt' (Nat.lt_trans hnumber.1 (by decide))]
        exact hnumber.2
    · -- no `=` behind one of the letters: nothing is found, and nothing was asked for
      obtain ⟨hvalue, hnone⟩ := getMaxRegisters_none hcut
      obtain ⟨options, hbuild, hmem⟩ := buildProgram_ok hvalue
      refine ⟨options, hbuild, ?_, ?_⟩
      · intro v hv
        cases (hmem v).1 hv
      · rintro ⟨limit, hgives⟩
        exact absurd hgives (hnone limit)

/-- An option that has nothing to do with registers. -/
def optLevel : Str := "-opt=3".toList

/-- The driver has a limit of three registers. -/
theorem optLevel_limits :
    (∃ options, buildProgram [] (some optLevel) = .ok (optLevel, options) ∧
        .maxRegisters 3 ∈ options) ∧
      ¬ ∃ options, buildProgram [] (some optLevel) = .ok (optLevel, options) ∧
        Limited optLevel options := by
  have hcut : Cut optLevel ['-'] 'o' ['p', 't'] ['3'] := by
    refine ⟨rfl, ?_, ?_, ?_⟩
    · intro x hx
      obtain rfl := List.mem_singleton.1 hx
      decide
    · decide
    · decide
  have hnumber : number ['3'] = some 3 := by decide
  have hvalue : getMaxRegistersJitOptionValue ((some optLevel).getD []) = .ok (some 3) := by
    have h := getMaxRegisters_delimited hcut
    rw [hnumber] at h
    exact h.trans (if_pos (by norm_num))
  obtain ⟨options, hbuild, hmem⟩ := buildProgram_ok hvalue
  refine ⟨⟨options, hbuild, (hmem 3).2 rfl⟩, ?_⟩
  rintro ⟨options', hbuild', hlimited⟩
  obtain ⟨-, rfl⟩ := Prod.mk.inj (Except.ok.inj (hbuild.symm.trans hbuild'))
  -- the name alone is longer than the string
  obtain ⟨pre, rest, heq, -⟩ := hlimited.asked 3 ((hmem 3).2 rfl)
  have hlength := congrArg List.length heq
  simp only [List.length_append, List.length_cons] at hlength
  have hname : optionName.length = 12 := rfl
  have hshort : optLevel.length = 6 := rfl
  omega

end UnifiedRuntime.Cuda.MaxRegisters
