import UnifiedRuntime.Lib.Str

/-!
# `getenv_to_map`

`source/common/ur_util.hpp` reads `KEY:v1,v2;KEY2:v3` into a
`std::map<std::string, std::vector<std::string>>`. The adapter registry and the
device selector both call it on `ONEAPI_DEVICE_SELECTOR`, so this is the one
grammar the two interpreters of that variable share.

`std::map` iterates in key order, which is why `EnvVarMap` carries the order of
its keys as a field: a term list read back out of the map is sorted, whatever
the order in the variable was.

A quoted value of one character (`'` alone) satisfies `is_quoted`, so the
closing `pop_back` runs on an empty string. That call is undefined in C++ and is
a failure of its own here, apart from the documented `invalid_argument`.
-/

namespace UnifiedRuntime.Loader

open Str

/-- How reading the variable can fail. -/
inductive EnvError where
  | invalidArgument (what : Str)
  | popBackEmpty

/-- `std::map<std::string, std::vector<std::string>>`: entries in key order. -/
structure EnvVarMap where
  entries : List (Str × List Str)
  sorted : entries.Pairwise (fun a b => a.1 < b.1)

/-- Place an entry before the first larger key. -/
def insertEntry (e : Str × List Str) : List (Str × List Str) → List (Str × List Str)
  | [] => [e]
  | e' :: es => if e.1 < e'.1 then e :: e' :: es else e' :: insertEntry e es

theorem mem_insertEntry {e x : Str × List Str} : ∀ {es : List (Str × List Str)},
    x ∈ insertEntry e es ↔ x = e ∨ x ∈ es := by
  intro es
  induction es with
  | nil => simp [insertEntry]
  | cons e' es ih =>
    unfold insertEntry
    split
    · simp
    · rw [List.mem_cons, ih, List.mem_cons]
      exact or_left_comm

theorem insertEntry_sorted {e : Str × List Str} : ∀ {es : List (Str × List Str)},
    es.Pairwise (fun a b => a.1 < b.1) → (∀ x ∈ es, x.1 ≠ e.1) →
      (insertEntry e es).Pairwise (fun a b => a.1 < b.1) := by
  intro es
  induction es with
  | nil => intro _ _; exact List.pairwise_singleton _ _
  | cons e' es ih =>
    intro hs hne
    obtain ⟨hhead, htail⟩ := List.pairwise_cons.mp hs
    unfold insertEntry
    split
    · next hlt =>
      refine List.pairwise_cons.mpr ⟨?_, hs⟩
      intro x hx
      rcases List.mem_cons.mp hx with rfl | hx
      · exact hlt
      · exact lt_trans hlt (hhead x hx)
    · next hge =>
      refine List.pairwise_cons.mpr ⟨?_, ih htail (fun x hx => hne x (List.mem_cons_of_mem _ hx))⟩
      intro x hx
      rcases mem_insertEntry.mp hx with rfl | hx
      · exact lt_of_le_of_ne (not_lt.mp hge) (hne e' (List.mem_cons_self ..))
      · exact hhead x hx

/-- `map[key] = values_vec` for a key the map does not hold. -/
def EnvVarMap.insert (m : EnvVarMap) (key : Str) (values : List Str)
    (h : ∀ x ∈ m.entries, x.1 ≠ key) : EnvVarMap :=
  ⟨insertEntry (key, values) m.entries, insertEntry_sorted m.sorted h⟩

def EnvVarMap.empty : EnvVarMap := ⟨[], List.Pairwise.nil⟩

/-- The map with the one entry `key ↦ values`. -/
def EnvVarMap.single (key : Str) (values : List Str) : EnvVarMap :=
  ⟨[(key, values)], List.pairwise_singleton _ _⟩

/-- `throw_wrong_format_map`. -/
def throwWrongFormatMap (envVarName envVarValue : Str) : EnvError :=
  .invalidArgument
    ("Wrong format of the ".toList ++ envVarName ++ " environment variable value: '".toList
      ++ envVarValue ++ ("'\nProper format is: " ++
        "ENV_VAR=\"param_1:value_1,value_2;param_2:value_1\"").toList)

/-- The `is_quoted` lambda; `str` is not empty where it is called. -/
def isQuoted (str : Str) : Bool :=
  (front str == '\'' && str.getLast? == some '\'') ||
    (front str == '"' && str.getLast? == some '"')

/-- The `has_colon` lambda. -/
def hasColon (str : Str) : Bool := (find str ':' 0).isSome

/-- One round of the inner loop, over the values of a key. -/
def readValue (envVarName envVar value : Str) : Except EnvError Str :=
  if value.isEmpty || (hasColon value && !isQuoted value) then
    .error (throwWrongFormatMap envVarName envVar)
  else if isQuoted value then
    if value.length = 1 then .error .popBackEmpty else .ok value.tail.dropLast
  else .ok value

/-- One round of the outer loop, over the `;`-separated pairs. -/
def readKeyValue (envVarName envVar : Str) (rejectEmpty : Bool) (map : EnvVarMap)
    (keyValue : Str) : Except EnvError EnvVarMap :=
  if rejectEmpty && !hasColon keyValue then .error (throwWrongFormatMap envVarName envVar)
  else
    let (key, rest) := getline ':' keyValue
    -- the second `getline` has the default delimiter
    let values := (getline '\n' rest).1
    if key.isEmpty || (rejectEmpty && values.isEmpty) then
      .error (throwWrongFormatMap envVarName envVar)
    else if h : ∀ x ∈ map.entries, x.1 ≠ key then do
      let valuesVec ← (getlines ',' values).mapM (readValue envVarName envVar)
      pure (map.insert key valuesVec h)
    else .error (throwWrongFormatMap envVarName envVar)

/-- `getenv_to_map`, the value of the variable being `env` (`none` when unset). -/
def getenvToMap (envVarName : Str) (env : Option Str) (rejectEmpty : Bool) :
    Except EnvError (Option EnvVarMap) :=
  match env with
  | none => .ok none
  | some envVar => do
    let map ← (getlines ';' envVar).foldlM (readKeyValue envVarName envVar rejectEmpty) .empty
    pure (some map)

end UnifiedRuntime.Loader
