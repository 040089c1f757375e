import UnifiedRuntime.Lib.Lines
import UnifiedRuntime.Loader.EnvMap

/-!
# Lists and maps from the environment, for any string

`getenv_to_vec` and `getenv_to_map` look at the entries of a variable one after the other.
An entry is fine, malformed (the documented exception), or a quote character on its own:
that passes for a quoted value, and taking both quotes off it takes a character off an
empty string. The first entry that is not fine decides.

- `getenvToVec_scan`, `getenvToMap_scan`: what comes of any string, by its first entry
  that is not fine.
- `getenv_total`: the documented outcomes are the only ones exactly if that entry is not
  a lone quote.
-/

namespace UnifiedRuntime.Loader

open Str

/-! ## `getenv_to_vec` -/

/-- `throw_wrong_format_vec`. -/
def throwWrongFormatVec (envVarName envVarValue : Str) : EnvError :=
  .invalidArgument
    ("Wrong format of the ".toList ++ envVarName ++ " environment variable value: '".toList
      ++ envVarValue ++ ("'\nProper format is: " ++
        "ENV_VAR=\"value_1\",\"value_2\",\"value_3\"").toList)

/-- The `has_semicolon` lambda. -/
def hasSemicolon (str : Str) : Bool := (find str ';' 0).isSome

/-- One round of the loop. -/
def readEntry (envVarName envVar value : Str) : Except EnvError Str :=
  if value.isEmpty || (!isQuoted value && (hasColon value || hasSemicolon value)) then
    .error (throwWrongFormatVec envVarName envVar)
  else if isQuoted value then
    -- `erase(cbegin())`, then `erase(cend() - 1)`
    if value.length = 1 then .error .popBackEmpty else .ok value.tail.dropLast
  else .ok value

/-- `getenv_to_vec`, the value of the variable being `env` (`none` when unset). -/
def getenvToVec (envVarName : Str) (env : Option Str) : Except EnvError (Option (List Str)) :=
  match env with
  | none => .ok none
  | some envVar => do
    let valuesVec ← (getlines ',' envVar).mapM (readEntry envVarName envVar)
    pure (some valuesVec)

/-! ## What an entry is -/

inductive Check where
  | fine
  | malformed
  | loneQuote
deriving DecidableEq

/-- The first check that is not fine decides. -/
def firstProblem : List Check → Check
  | [] => .fine
  | .fine :: cs => firstProblem cs
  | c :: _ => c

/-- A value without its enclosing quotes. -/
def unquote (value : Str) : Str := if isQuoted value then value.tail.dropLast else value

/-- The checks of a value, given what is malformed. -/
def quoteCheck (bad : Bool) (value : Str) : Check :=
  if bad then .malformed
  else if isQuoted value && value.length == 1 then .loneQuote
  else .fine

/-- A value of `getenv_to_vec`. -/
def entryCheck (value : Str) : Check :=
  quoteCheck (value.isEmpty || (!isQuoted value && (hasColon value || hasSemicolon value))) value

/-- A value of `getenv_to_map`. -/
def valueCheck (value : Str) : Check :=
  quoteCheck (value.isEmpty || (hasColon value && !isQuoted value)) value

/-- What a check makes of reading. -/
def Check.outcome {α : Type} (thrown : EnvError) (a : α) : Check → Except EnvError α
  | .fine => .ok a
  | .malformed => .error thrown
  | .loneQuote => .error .popBackEmpty

variable {envVarName envVar value : Str}

theorem readEntry_eq : readEntry envVarName envVar value =
    (entryCheck value).outcome (throwWrongFormatVec envVarName envVar) (unquote value) := by
  unfold readEntry entryCheck quoteCheck unquote
  split
  next => rfl
  next =>
    cases hq : isQuoted value with
    | false => rfl
    | true =>
      by_cases hlen : value.length = 1
      · simp [hlen, Check.outcome]
      · simp [hlen, Check.outcome]

theorem readValue_eq : readValue envVarName envVar value =
    (valueCheck value).outcome (throwWrongFormatMap envVarName envVar) (unquote value) := by
  unfold readValue valueCheck quoteCheck unquote
  split
  next => rfl
  next =>
    cases hq : isQuoted value with
    | false => rfl
    | true =>
      by_cases hlen : value.length = 1
      · simp [hlen, Check.outcome]
      · simp [hlen, Check.outcome]

/-- A list of values is read up to the first one that is not fine. -/
theorem mapM_outcome {read : Str → Except EnvError Str} {check : Str → Check} {thrown : EnvError}
    (hread : ∀ v, read v = (check v).outcome thrown (unquote v)) : ∀ l : List Str,
    l.mapM read = (firstProblem (l.map check)).outcome thrown (l.map unquote)
  | [] => rfl
  | v :: l => by
    rw [List.mapM_cons, hread v, mapM_outcome hread l, List.map_cons, List.map_cons]
    cases check v with
    | malformed => rfl
    | loneQuote => rfl
    | fine =>
      show (firstProblem (l.map check)).outcome thrown (l.map unquote) >>= _ =
        (firstProblem (l.map check)).outcome thrown _
      cases firstProblem (l.map check) with
      | fine => rfl
      | malformed => rfl
      | loneQuote => rfl

/-- **`getenv_to_vec` of any string.** -/
theorem getenvToVec_scan : getenvToVec envVarName (some envVar) =
    (firstProblem ((getlines ',' envVar).map entryCheck)).outcome
      (throwWrongFormatVec envVarName envVar) (some ((getlines ',' envVar).map unquote)) := by
  show (getlines ',' envVar).mapM (readEntry envVarName envVar) >>= _ = _
  rw [mapM_outcome (fun _ => readEntry_eq) (getlines ',' envVar)]
  cases firstProblem ((getlines ',' envVar).map entryCheck) with
  | fine => rfl
  | malformed => rfl
  | loneQuote => rfl

/-! ## Keys and values -/

theorem firstProblem_append (cs ds : List Check) :
    firstProblem (cs ++ ds) =
      match firstProblem cs with
      | .fine => firstProblem ds
      | c => c := by
  induction cs with
  | nil => rfl
  | cons c cs ih =>
    cases c with
    | fine => exact ih
    | malformed => rfl
    | loneQuote => rfl

theorem firstProblem_eq_fine {cs : List Check} : firstProblem cs = .fine ↔ ∀ c ∈ cs, c = .fine := by
  induction cs with
  | nil => simp [firstProblem]
  | cons c cs ih =>
    cases c with
    | fine => simpa [firstProblem] using ih
    | malformed => simp [firstProblem]
    | loneQuote => simp [firstProblem]

/-- The key of a piece. -/
def keyOf (keyValue : Str) : Str := (getline ':' keyValue).1

/-- The text behind it, of one line. -/
def valuesText (keyValue : Str) : Str := (getline '\n' (getline ':' keyValue).2).1

/-- The entry that a piece is read to. -/
def entryOf (keyValue : Str) : Str × List Str :=
  (keyOf keyValue, (getlines ',' (valuesText keyValue)).map unquote)

/-- A piece is malformed as a whole; `seen` are the keys so far. -/
def badPiece (rejectEmpty : Bool) (seen : List Str) (keyValue : Str) : Bool :=
  (rejectEmpty && !hasColon keyValue) || (keyOf keyValue).isEmpty ||
    (rejectEmpty && (valuesText keyValue).isEmpty) || decide (keyOf keyValue ∈ seen)

/-- The checks of a piece and its values. -/
def pieceChecks (rejectEmpty : Bool) (seen : List Str) (keyValue : Str) : List Check :=
  if badPiece rejectEmpty seen keyValue then [.malformed]
  else (getlines ',' (valuesText keyValue)).map valueCheck

/-- The checks of all pieces, in the order in which they are made. -/
def mapChecks (rejectEmpty : Bool) : List Str → List Str → List Check
  | _, [] => []
  | seen, keyValue :: rest =>
    pieceChecks rejectEmpty seen keyValue ++ mapChecks rejectEmpty (keyOf keyValue :: seen) rest

/-- `seen` are the keys of the map. -/
def Keys (m : EnvVarMap) (seen : List Str) : Prop := ∀ k, k ∈ seen ↔ ∃ e ∈ m.entries, e.1 = k

variable {rejectEmpty : Bool} {m : EnvVarMap} {seen : List Str}

/-- `readKeyValue`, by the key and the text of the values. -/
theorem readKeyValue_eq (envVarName envVar : Str) (rejectEmpty : Bool) (m : EnvVarMap)
    (keyValue : Str) : readKeyValue envVarName envVar rejectEmpty m keyValue =
      if rejectEmpty && !hasColon keyValue then .error (throwWrongFormatMap envVarName envVar)
      else if (keyOf keyValue).isEmpty || (rejectEmpty && (valuesText keyValue).isEmpty) then
        .error (throwWrongFormatMap envVarName envVar)
      else if h : ∀ x ∈ m.entries, x.1 ≠ keyOf keyValue then
        (getlines ',' (valuesText keyValue)).mapM (readValue envVarName envVar) >>= fun valuesVec =>
          .ok (m.insert (keyOf keyValue) valuesVec h)
      else .error (throwWrongFormatMap envVarName envVar) := rfl

/-- One piece: what is thrown, or the map with its entry. -/
theorem readKeyValue_scan (hk : Keys m seen) (keyValue : Str) :
    (firstProblem (pieceChecks rejectEmpty seen keyValue) = .fine →
      ∃ m', readKeyValue envVarName envVar rejectEmpty m keyValue = .ok m' ∧
        ∀ e, e ∈ m'.entries ↔ e = entryOf keyValue ∨ e ∈ m.entries) ∧
    (firstProblem (pieceChecks rejectEmpty seen keyValue) = .malformed →
      readKeyValue envVarName envVar rejectEmpty m keyValue =
        .error (throwWrongFormatMap envVarName envVar)) ∧
    (firstProblem (pieceChecks rejectEmpty seen keyValue) = .loneQuote →
      readKeyValue envVarName envVar rejectEmpty m keyValue = .error .popBackEmpty) := by
  have hdup : (∀ x ∈ m.entries, x.1 ≠ keyOf keyValue) ↔ keyOf keyValue ∉ seen := by
    rw [hk]
    exact ⟨fun h ⟨e, he, heq⟩ => h e he heq, fun h e he heq => h ⟨e, he, heq⟩⟩
  by_cases hbad : badPiece rejectEmpty seen keyValue = true
  · have hthrow : readKeyValue envVarName envVar rejectEmpty m keyValue =
        .error (throwWrongFormatMap envVarName envVar) := by
      unfold badPiece at hbad
      simp only [Bool.or_eq_true, decide_eq_true_eq] at hbad
      rw [readKeyValue_eq]
      split
      next => rfl
      next hcolon =>
        split
        next => rfl
        next hempty =>
          rw [dif_neg]
          intro hfree
          rw [Bool.or_eq_true] at hempty
          tauto
    have hchecks : pieceChecks rejectEmpty seen keyValue = [.malformed] := if_pos hbad
    rw [hchecks]
    refine ⟨fun h => ?_, fun _ => hthrow, fun h => ?_⟩
    · cases h
    · cases h
  · have hchecks : pieceChecks rejectEmpty seen keyValue =
        (getlines ',' (valuesText keyValue)).map valueCheck := if_neg hbad
    unfold badPiece at hbad
    simp only [Bool.or_eq_true, not_or, decide_eq_true_eq] at hbad
    obtain ⟨⟨⟨hcolon, hkey⟩, hvalues⟩, hfree⟩ := hbad
    rw [hchecks, readKeyValue_eq, if_neg hcolon,
      if_neg (by rw [Bool.or_eq_true, not_or]; exact ⟨hkey, hvalues⟩), dif_pos (hdup.mpr hfree),
      mapM_outcome (fun _ => readValue_eq) (getlines ',' (valuesText keyValue))]
    cases firstProblem ((getlines ',' (valuesText keyValue)).map valueCheck) with
    | fine =>
      refine ⟨fun _ => ⟨_, rfl, fun e => mem_insertEntry⟩, fun h => ?_, fun h => ?_⟩
      · cases h
      · cases h
    | malformed =>
      refine ⟨fun h => ?_, fun _ => rfl, fun h => ?_⟩
      · cases h
      · cases h
    | loneQuote =>
      refine ⟨fun h => ?_, fun h => ?_, fun _ => rfl⟩
      · cases h
      · cases h

theorem Keys.insert {m' : EnvVarMap} {keyValue : Str} (hk : Keys m seen)
    (h : ∀ e, e ∈ m'.entries ↔ e = entryOf keyValue ∨ e ∈ m.entries) :
    Keys m' (keyOf keyValue :: seen) := by
  intro k
  rw [List.mem_cons, hk]
  constructor
  · rintro (rfl | ⟨e, he, rfl⟩)
    · exact ⟨entryOf keyValue, (h _).mpr (Or.inl rfl), rfl⟩
    · exact ⟨e, (h e).mpr (Or.inr he), rfl⟩
  · rintro ⟨e, he, rfl⟩
    rcases (h e).mp he with rfl | he
    · exact Or.inl rfl
    · exact Or.inr ⟨e, he, rfl⟩

/-- The loop over the pieces. -/
theorem foldlM_scan (pieces : List Str) (hk : Keys m seen) :
    (firstProblem (mapChecks rejectEmpty seen pieces) = .fine →
      ∃ m', pieces.foldlM (readKeyValue envVarName envVar rejectEmpty) m = .ok m' ∧
        ∀ e, e ∈ m'.entries ↔ e ∈ pieces.map entryOf ∨ e ∈ m.entries) ∧
    (firstProblem (mapChecks rejectEmpty seen pieces) = .malformed →
      pieces.foldlM (readKeyValue envVarName envVar rejectEmpty) m =
        .error (throwWrongFormatMap envVarName envVar)) ∧
    (firstProblem (mapChecks rejectEmpty seen pieces) = .loneQuote →
      pieces.foldlM (readKeyValue envVarName envVar rejectEmpty) m = .error .popBackEmpty) := by
  induction pieces generalizing m seen with
  | nil =>
    refine ⟨fun _ => ⟨m, rfl, fun e => by simp⟩, fun h => ?_, fun h => ?_⟩
    · cases h
    · cases h
  | cons keyValue rest ih =>
    obtain ⟨hfine, hbad, hlone⟩ :=
      @readKeyValue_scan envVarName envVar rejectEmpty m seen hk keyValue
    rw [List.foldlM_cons]
    unfold mapChecks
    rw [firstProblem_append]
    cases hp : firstProblem (pieceChecks rejectEmpty seen keyValue) with
    | malformed =>
      rw [hbad hp]
      refine ⟨fun h => ?_, fun _ => rfl, fun h => ?_⟩
      · cases h
      · cases h
    | loneQuote =>
      rw [hlone hp]
      refine ⟨fun h => ?_, fun h => ?_, fun _ => rfl⟩
      · cases h
      · cases h
    | fine =>
      obtain ⟨m₁, hm₁, hmem⟩ := hfine hp
      rw [hm₁]
      obtain ⟨hfine', hbad', hlone'⟩ := ih (hk.insert hmem)
      refine ⟨fun h => ?_, hbad', hlone'⟩
      obtain ⟨m', hm', hmem'⟩ := hfine' h
      refine ⟨m', hm', fun e => ?_⟩
      rw [hmem', hmem, List.map_cons, List.mem_cons]
      tauto

theorem Keys.empty : Keys .empty [] := fun k => by simp [EnvVarMap.empty]

/-- **`getenv_to_map` of any string.** -/
theorem getenvToMap_scan :
    (firstProblem (mapChecks rejectEmpty [] (getlines ';' envVar)) = .fine →
      ∃ m', getenvToMap envVarName (some envVar) rejectEmpty = .ok (some m') ∧
        ∀ e, e ∈ m'.entries ↔ e ∈ (getlines ';' envVar).map entryOf) ∧
    (firstProblem (mapChecks rejectEmpty [] (getlines ';' envVar)) = .malformed →
      getenvToMap envVarName (some envVar) rejectEmpty =
        .error (throwWrongFormatMap envVarName envVar)) ∧
    (firstProblem (mapChecks rejectEmpty [] (getlines ';' envVar)) = .loneQuote →
      getenvToMap envVarName (some envVar) rejectEmpty = .error .popBackEmpty) := by
  obtain ⟨hfine, hbad, hlone⟩ :=
    @foldlM_scan envVarName envVar rejectEmpty .empty [] (getlines ';' envVar) Keys.empty
  have heq : getenvToMap envVarName (some envVar) rejectEmpty =
      ((getlines ';' envVar).foldlM (readKeyValue envVarName envVar rejectEmpty) .empty >>=
        fun map => pure (some map)) := rfl
  rw [heq]
  refine ⟨fun h => ?_, fun h => ?_, fun h => ?_⟩
  · obtain ⟨m', hm', hmem⟩ := hfine h
    refine ⟨m', ?_, fun e => ?_⟩
    · rw [hm']
      rfl
    · rw [hmem]
      simp [EnvVarMap.empty]
  · rw [hbad h]
    rfl
  · rw [hlone h]
    rfl

/-! ## Quoted values -/

/-- A value that passes for quoted and is not one character is a text between quotes. -/
theorem isQuoted_iff (hlen : value.length ≠ 1) : isQuoted value = true ↔
    ∃ q text, (q = '\'' ∨ q = '"') ∧ value = q :: (text ++ [q]) := by
  constructor
  · intro h
    unfold isQuoted at h
    cases value with
    | nil => simp at h
    | cons c rest =>
      have hne : rest ≠ [] := fun h0 => hlen (by rw [h0]; rfl)
      obtain ⟨text, z, rfl⟩ : ∃ text z, rest = text ++ [z] :=
        ⟨_, _, (List.dropLast_concat_getLast hne).symm⟩
      have hlast : (c :: (text ++ [z])).getLast? = some z := by
        rw [← List.cons_append]
        exact List.getLast?_concat
      rw [hlast] at h
      simp only [Bool.or_eq_true, Bool.and_eq_true, beq_iff_eq, Option.some.injEq] at h
      rcases h with ⟨rfl, rfl⟩ | ⟨rfl, rfl⟩
      · exact ⟨'\'', text, Or.inl rfl, rfl⟩
      · exact ⟨'"', text, Or.inr rfl, rfl⟩
  · rintro ⟨q, text, hq, rfl⟩
    have hlast : (q :: (text ++ [q])).getLast? = some q := by
      rw [← List.cons_append]
      exact List.getLast?_concat
    unfold isQuoted
    rw [hlast]
    rcases hq with rfl | rfl
    · rfl
    · rfl

/-- Taking off the quotes leaves the text between them. -/
theorem unquote_quoted {q : Char} (hq : q = '\'' ∨ q = '"') (text : Str) :
    unquote (q :: (text ++ [q])) = text := by
  unfold unquote
  rw [if_pos ((isQuoted_iff (by simp)).mpr ⟨q, text, hq, rfl⟩), List.tail_cons,
    List.dropLast_concat]

/-! ## Totality -/

/-- What may come of reading a variable: a result that is right, or what is documented to be
thrown. -/
def Documented {α : Type} (thrown : EnvError) (right : α → Prop) (r : Except EnvError α) : Prop :=
  (∃ a, r = .ok a ∧ right a) ∨ r = .error thrown

/-- The result of `getenv_to_vec` has every entry without its enclosing quotes … -/
def VecRight (envVar : Str) (r : Option (List Str)) : Prop :=
  r = some ((getlines ',' envVar).map unquote)

/-- … and that of `getenv_to_map` the entry of every piece. -/
def MapRight (envVar : Str) (r : Option EnvVarMap) : Prop :=
  ∃ m, r = some m ∧ ∀ e, e ∈ m.entries ↔ e ∈ (getlines ';' envVar).map entryOf

theorem throwWrongFormatMap_ne (envVarName envVar : Str) :
    EnvError.popBackEmpty ≠ throwWrongFormatMap envVarName envVar := by
  unfold throwWrongFormatMap
  simp

theorem throwWrongFormatVec_ne (envVarName envVar : Str) :
    EnvError.popBackEmpty ≠ throwWrongFormatVec envVarName envVar := by
  unfold throwWrongFormatVec
  simp

theorem not_documented {α : Type} {thrown : EnvError} {right : α → Prop} {r : Except EnvError α}
    (hne : EnvError.popBackEmpty ≠ thrown) (hr : r = .error .popBackEmpty) :
    ¬ Documented thrown right r := by
  subst hr
  rintro (⟨a, h, -⟩ | h)
  · cases h
  · exact hne (Except.error.inj h)

/-- **Reading a list or a map is total exactly** if the first entry that is not fine is not a
quote character on its own. -/
theorem getenv_total (envVarName envVar : Str) :
    (Documented (throwWrongFormatVec envVarName envVar) (VecRight envVar)
        (getenvToVec envVarName (some envVar)) ↔
      firstProblem ((getlines ',' envVar).map entryCheck) ≠ .loneQuote) ∧
    (∀ rejectEmpty, Documented (throwWrongFormatMap envVarName envVar) (MapRight envVar)
        (getenvToMap envVarName (some envVar) rejectEmpty) ↔
      firstProblem (mapChecks rejectEmpty [] (getlines ';' envVar)) ≠ .loneQuote) := by
  constructor
  · rw [getenvToVec_scan]
    cases firstProblem ((getlines ',' envVar).map entryCheck) with
    | fine => exact iff_of_true (Or.inl ⟨_, rfl, rfl⟩) (by simp)
    | malformed => exact iff_of_true (Or.inr rfl) (by simp)
    | loneQuote => exact iff_of_false (not_documented (throwWrongFormatVec_ne _ _) rfl) (by simp)
  · intro rejectEmpty
    obtain ⟨hfine, hbad, hlone⟩ := @getenvToMap_scan envVarName envVar rejectEmpty
    cases h : firstProblem (mapChecks rejectEmpty [] (getlines ';' envVar)) with
    | fine =>
      obtain ⟨m', hm', hmem⟩ := hfine h
      exact iff_of_true (Or.inl ⟨_, hm', m', rfl, hmem⟩) (by simp)
    | malformed => exact iff_of_true (Or.inr (hbad h)) (by simp)
    | loneQuote =>
      exact iff_of_false (not_documented (throwWrongFormatMap_ne _ _) (hlone h)) (by simp)

/-- A quote on its own, in a list and in a map. -/
theorem getenv_total_fails :
    ¬ Documented (throwWrongFormatVec ['V'] ['\'']) (VecRight ['\''])
      (getenvToVec ['V'] (some ['\''])) ∧
    ¬ Documented (throwWrongFormatMap ['V'] ['k', ':', '"']) (MapRight ['k', ':', '"'])
      (getenvToMap ['V'] (some ['k', ':', '"']) true) :=
  ⟨not_documented (throwWrongFormatVec_ne _ _) rfl, not_documented (throwWrongFormatMap_ne _ _) rfl⟩

end UnifiedRuntime.Loader
