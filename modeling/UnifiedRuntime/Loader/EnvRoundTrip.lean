import UnifiedRuntime.Loader.EnvScan

/-!
# `getenv_to_map` reads back what is rendered

A map is rendered as `key:v1,v2;key2:…`, in any order of its keys and each value between
quotes or not. Reading it gives the map back unless a value has a line break in it, where
the second `getline` of a piece stops, or a value without quotes is empty or a quote
character.

What is not of the grammar is rejected, but for what the splitting drops without looking
at it: a last `;`, a last comma of a piece, everything behind a piece's line break.

- `roundTrip_iff`: the exact condition for a rendered map.
- `rejected_iff`, `rejected_of_plain`: when a malformed string is rejected.
-/

namespace UnifiedRuntime.Loader

open Str

/-! ## Rendering -/

inductive Quoting where
  | plain
  | single
  | double
deriving DecidableEq

def Quoting.wrap : Quoting → Str → Str
  | .plain, v => v
  | .single, v => '\'' :: (v ++ ['\''])
  | .double, v => '"' :: (v ++ ['"'])

/-- A key and its values, each with its quoting. -/
abbrev Rendered := Str × List (Quoting × Str)

def Rendered.values (e : Rendered) : List Str := e.2.map fun v => v.1.wrap v.2

def Rendered.text (e : Rendered) : Str := e.1 ++ ':' :: [','].intercalate e.values

/-- The entry that is rendered. -/
def Rendered.entry (e : Rendered) : Str × List Str := (e.1, e.2.map Prod.snd)

def render (es : List Rendered) : Str := [';'].intercalate (es.map Rendered.text)

/-- Without the delimiters. -/
def DelimiterFree (s : Str) : Prop := ';' ∉ s ∧ ':' ∉ s ∧ ',' ∉ s

/-- What is rendered: keys that are not empty, lists that are not empty, no delimiters, and
no value that is a text between quotes. -/
structure Renderable (es : List Rendered) : Prop where
  key : ∀ e ∈ es, e.1 ≠ [] ∧ DelimiterFree e.1
  values : ∀ e ∈ es, e.2 ≠ []
  value : ∀ e ∈ es, ∀ v ∈ e.2, DelimiterFree v.2 ∧ (v.2.length ≠ 1 → isQuoted v.2 = false)

/-- No value has a line break, and none without quotes is empty or a quote character. -/
def Readable (es : List Rendered) : Prop :=
  ∀ e ∈ es, ∀ v ∈ e.2, '\n' ∉ v.2 ∧ (v.1 = .plain → v.2 ≠ [] ∧ isQuoted v.2 = false)

/-! ## Reading a rendered value -/

variable {v : Quoting × Str} {e : Rendered} {es : List Rendered}

theorem hasColon_iff {s : Str} : hasColon s = true ↔ ':' ∈ s := by
  unfold hasColon find
  simp

theorem hasColon_eq_false {s : Str} (h : ':' ∉ s) : hasColon s = false := by
  rw [← Bool.not_eq_true, hasColon_iff]
  exact h

/-- Wrapping adds no characters but quotes. -/
theorem mem_wrap {q : Quoting} {s : Str} {c : Char} (h : c ∈ q.wrap s) :
    c ∈ s ∨ c = '\'' ∨ c = '"' := by
  cases q with
  | plain => exact Or.inl h
  | single =>
    rcases List.mem_cons.mp h with rfl | h
    · exact Or.inr (Or.inl rfl)
    · rcases List.mem_append.mp h with h | h
      · exact Or.inl h
      · exact Or.inr (Or.inl (List.mem_singleton.mp h))
  | double =>
    rcases List.mem_cons.mp h with rfl | h
    · exact Or.inr (Or.inr rfl)
    · rcases List.mem_append.mp h with h | h
      · exact Or.inl h
      · exact Or.inr (Or.inr (List.mem_singleton.mp h))

theorem not_mem_wrap {q : Quoting} {s : Str} {c : Char} (h : c ∉ s) (hs : c ≠ '\'') (hd : c ≠ '"') :
    c ∉ q.wrap s := fun hc => by
  rcases mem_wrap hc with h' | h' | h'
  · exact h h'
  · exact hs h'
  · exact hd h'

/-- A value between quotes is fine and read as what is between them. -/
theorem check_quoted {q : Char} {s : Str} (hq : q = '\'' ∨ q = '"') :
    valueCheck (q :: (s ++ [q])) = .fine ∧ unquote (q :: (s ++ [q])) = s := by
  have hquoted : isQuoted (q :: (s ++ [q])) = true :=
    (isQuoted_iff (by simp)).mpr ⟨q, s, hq, rfl⟩
  refine ⟨?_, unquote_quoted hq s⟩
  unfold valueCheck quoteCheck
  rw [hquoted]
  simp

/-- A value without quotes. -/
theorem check_plain {s : Str} (hcolon : ':' ∉ s) :
    (isQuoted s = false → unquote s = s) ∧
      (valueCheck s = .fine ↔ s ≠ [] ∧ (isQuoted s = true → s.length ≠ 1)) := by
  constructor
  · intro hq
    unfold unquote
    rw [hq]
    rfl
  · unfold valueCheck quoteCheck
    rw [hasColon_eq_false hcolon]
    cases s with
    | nil => simp
    | cons c s => simp

/-- **A rendered value** is fine exactly if it is readable, and is then read as the value. -/
theorem check_wrap (hfree : DelimiterFree v.2) (hw : v.2.length ≠ 1 → isQuoted v.2 = false) :
    (valueCheck (v.1.wrap v.2) = .fine ↔ (v.1 = .plain → v.2 ≠ [] ∧ isQuoted v.2 = false)) ∧
      ((v.1 = .plain → isQuoted v.2 = false) → unquote (v.1.wrap v.2) = v.2) := by
  obtain ⟨q, s⟩ := v
  cases q with
  | plain =>
    obtain ⟨hun, hcheck⟩ := check_plain hfree.2.1
    refine ⟨?_, fun h => hun (h rfl)⟩
    show valueCheck s = .fine ↔ _
    rw [hcheck]
    constructor
    · rintro ⟨hne, hlen⟩ -
      refine ⟨hne, ?_⟩
      rw [← Bool.not_eq_true]
      intro hq
      exact absurd (hw (hlen hq)) (by rw [hq]; simp)
    · intro h
      obtain ⟨hne, hq⟩ := h rfl
      refine ⟨hne, fun hq' => ?_⟩
      rw [hq] at hq'
      cases hq'
  | single =>
    obtain ⟨hcheck, hun⟩ := check_quoted (s := s) (Or.inl rfl)
    refine ⟨iff_of_true hcheck fun h => ?_, fun _ => hun⟩
    cases h
  | double =>
    obtain ⟨hcheck, hun⟩ := check_quoted (s := s) (Or.inr rfl)
    refine ⟨iff_of_true hcheck fun h => ?_, fun _ => hun⟩
    cases h

/-! ## Reading a rendered entry -/

theorem takeWhile_append_delim {d : Char} {a : Str} (rest : Str) (h : d ∉ a) :
    (a ++ d :: rest).takeWhile (· != d) = a := by
  rw [List.takeWhile_append_of_pos]
  · simp
  · intro c hc
    rw [bne_iff_ne]
    rintro rfl
    exact h hc

theorem getline_append_delim {d : Char} {a : Str} (rest : Str) (h : d ∉ a) :
    getline d (a ++ d :: rest) = (a, rest) := by
  have hall : ∀ c ∈ a, (c != d) = true := by
    intro c hc
    rw [bne_iff_ne]
    rintro rfl
    exact h hc
  unfold getline
  rw [takeWhile_append_delim rest h, List.dropWhile_append_of_pos hall]
  simp

theorem takeWhile_of_not_mem {d : Char} {a : Str} (h : d ∉ a) : a.takeWhile (· != d) = a := by
  rw [List.takeWhile_eq_self_iff]
  intro c hc
  rw [bne_iff_ne]
  rintro rfl
  exact h hc

theorem keyOf_text (h : ':' ∉ e.1) : keyOf e.text = e.1 := by
  unfold keyOf Rendered.text
  rw [getline_append_delim _ h]

theorem valuesText_text (h : ':' ∉ e.1) :
    valuesText e.text = ([','].intercalate e.values).takeWhile (· != '\n') := by
  unfold valuesText Rendered.text
  rw [getline_append_delim _ h]
  rfl

theorem mem_intercalate {c d : Char} : ∀ {ps : List Str}, c ∈ [d].intercalate ps →
    c = d ∨ ∃ p ∈ ps, c ∈ p
  | [], h => absurd h List.not_mem_nil
  | [p], h => by
    rw [List.intercalate_singleton] at h
    exact Or.inr ⟨p, List.mem_cons_self, h⟩
  | p :: q :: ps, h => by
    rw [List.intercalate_cons_cons, List.append_assoc, List.mem_append, List.mem_append,
      List.mem_singleton] at h
    rcases h with h | rfl | h
    · exact Or.inr ⟨p, List.mem_cons_self, h⟩
    · exact Or.inl rfl
    · rcases mem_intercalate h with rfl | ⟨r, hr, hc⟩
      · exact Or.inl rfl
      · exact Or.inr ⟨r, List.mem_cons_of_mem _ hr, hc⟩

theorem not_mem_values {c : Char} (h : ∀ v ∈ e.2, c ∉ v.2) (hs : c ≠ '\'') (hd : c ≠ '"') :
    ∀ p ∈ e.values, c ∉ p := by
  intro p hp
  obtain ⟨v, hv, rfl⟩ := List.mem_map.mp hp
  exact not_mem_wrap (h v hv) hs hd

/-- Without line breaks the values are all of the text. -/
theorem valuesText_eq (hkey : ':' ∉ e.1) (h : ∀ v ∈ e.2, '\n' ∉ v.2) :
    valuesText e.text = [','].intercalate e.values := by
  rw [valuesText_text hkey]
  refine takeWhile_of_not_mem fun hmem => ?_
  rcases mem_intercalate hmem with h' | ⟨p, hp, hc⟩
  · exact absurd h' (by decide)
  · exact not_mem_values h (by decide) (by decide) p hp hc

/-- **A readable entry** is read as it is. -/
theorem entryOf_text (hr : Renderable es) (he : e ∈ es) (hread : Readable es) :
    getlines ',' (valuesText e.text) = e.values ∧ entryOf e.text = e.entry ∧
      ∀ p ∈ e.values, valueCheck p = .fine := by
  have hkey := (hr.key e he).2.2.1
  have hfine : ∀ p ∈ e.values, valueCheck p = .fine := by
    intro p hp
    obtain ⟨v, hv, rfl⟩ := List.mem_map.mp hp
    obtain ⟨hfree, hw⟩ := hr.value e he v hv
    exact (check_wrap hfree hw).1.mpr (hread e he v hv).2
  have hlines : getlines ',' (valuesText e.text) = e.values := by
    rw [valuesText_eq hkey fun v hv => (hread e he v hv).1, getlines_intercalate]
    · refine closed_of_all fun p hp h0 => ?_
      have hcheck := hfine p hp
      rw [h0] at hcheck
      cases hcheck
    · exact not_mem_values (fun v hv => (hr.value e he v hv).1.2.2) (by decide) (by decide)
  refine ⟨hlines, ?_, hfine⟩
  unfold entryOf
  rw [keyOf_text hkey, hlines]
  unfold Rendered.values
  rw [List.map_map]
  refine congrArg (Prod.mk e.1) (List.map_congr_left fun v hv => ?_)
  obtain ⟨hfree, hw⟩ := hr.value e he v hv
  exact (check_wrap hfree hw).2 fun hq => ((hread e he v hv).2 hq).2

/-- An entry that is read as it is has no line break in its values … -/
theorem no_lineBreak (hkey : ':' ∉ e.1) (heq : entryOf e.text = e.entry) :
    ∀ v ∈ e.2, '\n' ∉ v.2 := by
  intro v hv hmem
  have hlist : (getlines ',' (valuesText e.text)).map unquote = e.2.map Prod.snd :=
    congrArg Prod.snd heq
  have hin : v.2 ∈ (getlines ',' (valuesText e.text)).map unquote := by
    rw [hlist]
    exact List.mem_map_of_mem hv
  obtain ⟨p, hp, hpv⟩ := List.mem_map.mp hin
  have hmemp : '\n' ∈ p := by
    rw [← hpv] at hmem
    unfold unquote at hmem
    split at hmem
    next => exact List.mem_of_mem_tail (List.mem_of_mem_dropLast hmem)
    next => exact hmem
  have htext := mem_of_mem_getlines hp hmemp
  rw [valuesText_text hkey] at htext
  exact absurd (List.mem_takeWhile_imp htext) (by decide)

/-- … and its values are readable without quotes where they have none. -/
theorem readable_of_entryOf (hr : Renderable es) (he : e ∈ es) (heq : entryOf e.text = e.entry)
    (hfine : ∀ p ∈ getlines ',' (valuesText e.text), valueCheck p = .fine) :
    ∀ v ∈ e.2, '\n' ∉ v.2 ∧ (v.1 = .plain → v.2 ≠ [] ∧ isQuoted v.2 = false) := by
  have hkey := (hr.key e he).2.2.1
  have hbreak := no_lineBreak hkey heq
  have hclosed : getlines ',' (valuesText e.text) = closed e.values := by
    rw [valuesText_eq hkey hbreak, getlines_intercalate]
    exact not_mem_values (fun v hv => (hr.value e he v hv).1.2.2) (by decide) (by decide)
  have hlength : (closed e.values).length = e.values.length := by
    have hlist : (getlines ',' (valuesText e.text)).map unquote = e.2.map Prod.snd :=
      congrArg Prod.snd heq
    have hlen := congrArg List.length hlist
    rw [List.length_map, List.length_map, hclosed] at hlen
    rw [hlen]
    exact (List.length_map _).symm
  rw [hclosed, closed_of_length hlength] at hfine
  intro v hv
  obtain ⟨hfree, hw⟩ := hr.value e he v hv
  exact ⟨hbreak v hv, (check_wrap hfree hw).1.mp (hfine _ (List.mem_map_of_mem hv))⟩

/-! ## The checks of all pieces -/

variable {rejectEmpty : Bool} {seen pieces : List Str}

theorem pieceChecks_fine {p : Str} : firstProblem (pieceChecks rejectEmpty seen p) = .fine ↔
    badPiece rejectEmpty seen p = false ∧
      ∀ v ∈ getlines ',' (valuesText p), valueCheck v = .fine := by
  unfold pieceChecks
  cases badPiece rejectEmpty seen p with
  | true => simp [firstProblem]
  | false =>
    show firstProblem ((getlines ',' (valuesText p)).map valueCheck) = .fine ↔ _
    rw [firstProblem_eq_fine]
    simp

theorem firstProblem_eq_fine_of_not_mem {cs : List Check} {c : Check} (h : c ∉ cs)
    (heq : firstProblem cs = c) : c = .fine := by
  induction cs with
  | nil => exact heq.symm
  | cons x cs ih =>
    rw [List.mem_cons, not_or] at h
    cases x with
    | fine => exact ih h.2 heq
    | malformed => exact absurd heq.symm h.1
    | loneQuote => exact absurd heq.symm h.1

theorem mapChecks_cons_fine {p : Str} :
    firstProblem (mapChecks rejectEmpty seen (p :: pieces)) = .fine ↔
      firstProblem (pieceChecks rejectEmpty seen p) = .fine ∧
        firstProblem (mapChecks rejectEmpty (keyOf p :: seen) pieces) = .fine := by
  show firstProblem (pieceChecks rejectEmpty seen p ++ _) = .fine ↔ _
  rw [firstProblem_append]
  cases firstProblem (pieceChecks rejectEmpty seen p) with
  | fine => simp
  | malformed => simp
  | loneQuote => simp

/-- Where nothing is wrong, every piece is right: its form, its values, and a key of its own. -/
theorem pieces_of_fine (h : firstProblem (mapChecks rejectEmpty seen pieces) = .fine) :
    (∀ p ∈ pieces, badPiece rejectEmpty [] p = false ∧
      ∀ v ∈ getlines ',' (valuesText p), valueCheck v = .fine) ∧
    (pieces.map keyOf).Nodup ∧ ∀ p ∈ pieces, keyOf p ∉ seen := by
  induction pieces generalizing seen with
  | nil => simp
  | cons p pieces ih =>
    obtain ⟨hp, hrest⟩ := mapChecks_cons_fine.mp h
    obtain ⟨hbad, hvalues⟩ := pieceChecks_fine.mp hp
    obtain ⟨hall, hnd, hseen⟩ := ih hrest
    have hform : badPiece rejectEmpty [] p = false ∧ keyOf p ∉ seen := by
      unfold badPiece at hbad ⊢
      simpa using hbad
    refine ⟨fun q hq => ?_, ?_, fun q hq => ?_⟩
    · rcases List.mem_cons.mp hq with rfl | hq
      · exact ⟨hform.1, hvalues⟩
      · exact hall q hq
    · refine List.nodup_cons.mpr ⟨fun hmem => ?_, hnd⟩
      obtain ⟨q, hq, hqp⟩ := List.mem_map.mp hmem
      exact hseen q hq (hqp ▸ List.mem_cons_self)
    · rcases List.mem_cons.mp hq with rfl | hq
      · exact hform.2
      · exact fun hmem => hseen q hq (List.mem_cons_of_mem _ hmem)

/-- The pieces of a readable rendering. -/
theorem mapChecks_render {all : List Rendered} (hr : Renderable all) (hread : Readable all)
    (hsub : ∀ e ∈ es, e ∈ all) (hnd : (es.map Prod.fst).Nodup) (hseen : ∀ e ∈ es, e.1 ∉ seen) :
    firstProblem (mapChecks rejectEmpty seen (es.map Rendered.text)) = .fine := by
  induction es generalizing seen with
  | nil => rfl
  | cons e es ih =>
    have he := hsub e List.mem_cons_self
    have hkey := hr.key e he
    obtain ⟨hlines, -, hfine⟩ := entryOf_text hr he hread
    obtain ⟨hnot, hnd'⟩ := List.nodup_cons.mp (List.map_cons (f := Prod.fst) ▸ hnd)
    rw [List.map_cons, mapChecks_cons_fine]
    refine ⟨pieceChecks_fine.mpr ⟨?_, hlines ▸ hfine⟩, ih (fun x hx => hsub x
      (List.mem_cons_of_mem _ hx)) hnd' fun x hx => ?_⟩
    · have hcolon : hasColon e.text = true := by
        rw [hasColon_iff]
        exact List.mem_append_right _ List.mem_cons_self
      have hvalues : valuesText e.text ≠ [] := by
        intro h0
        rw [h0] at hlines
        exact hr.values e he (List.map_eq_nil_iff.mp hlines.symm)
      unfold badPiece
      rw [hcolon, keyOf_text hkey.2.2.1]
      have hnotin := hseen e List.mem_cons_self
      have hne := hkey.1
      simp [hnotin, hne, hvalues]
    · rw [keyOf_text hkey.2.2.1]
      intro hmem
      rcases List.mem_cons.mp hmem with heq | hmem
      · exact hnot (heq ▸ List.mem_map_of_mem hx)
      · exact hseen x (List.mem_cons_of_mem _ hx) hmem

/-! ## The round trip -/

variable {m m' : EnvVarMap}

theorem EnvVarMap.nodup (m : EnvVarMap) : m.entries.Nodup :=
  m.sorted.imp fun h heq => by rw [heq] at h; exact lt_irrefl _ h

theorem EnvVarMap.keys_nodup (m : EnvVarMap) : (m.entries.map Prod.fst).Nodup :=
  List.pairwise_map.mpr (m.sorted.imp fun h => ne_of_lt h)

/-- Maps with the same entries are equal. -/
theorem EnvVarMap.ext_mem (h : ∀ e, e ∈ m.entries ↔ e ∈ m'.entries) : m = m' := by
  have hp : m.entries.Perm m'.entries := (List.perm_ext_iff_of_nodup m.nodup m'.nodup).mpr h
  have heq := hp.eq_of_pairwise (fun a b _ _ hab hba => absurd (lt_trans hab hba) (lt_irrefl _))
    m.sorted m'.sorted
  cases m
  cases m'
  cases heq
  rfl

theorem EnvVarMap.eq_of_key {a b : Str × List Str} (ha : a ∈ m.entries) (hb : b ∈ m.entries)
    (h : a.1 = b.1) : a = b :=
  List.inj_on_of_nodup_map m.keys_nodup ha hb h

/-- The pieces of a rendering are its entries' texts. -/
theorem getlines_render (hr : Renderable es) :
    getlines ';' (render es) = es.map Rendered.text := by
  unfold render
  rw [getlines_intercalate]
  · refine closed_of_all fun p hp h0 => ?_
    obtain ⟨e, -, rfl⟩ := List.mem_map.mp hp
    unfold Rendered.text at h0
    simp at h0
  · intro p hp hmem
    obtain ⟨e, he, rfl⟩ := List.mem_map.mp hp
    rcases List.mem_append.mp hmem with hmem | hmem
    · exact (hr.key e he).2.1 hmem
    · rcases List.mem_cons.mp hmem with hmem | hmem
      · exact absurd hmem (by decide)
      · rcases mem_intercalate hmem with hmem | ⟨q, hq, hc⟩
        · exact absurd hmem (by decide)
        · exact not_mem_values (fun v hv => (hr.value e he v hv).1.1) (by decide) (by decide)
            q hq hc

/-- **Reading gives back the map exactly** if the rendering is readable. -/
theorem roundTrip_iff {envVarName : Str} (hp : (es.map Rendered.entry).Perm m.entries)
    (hr : Renderable es) :
    getenvToMap envVarName (some (render es)) rejectEmpty = .ok (some m) ↔ Readable es := by
  obtain ⟨hfine, hbad, hlone⟩ := @getenvToMap_scan envVarName (render es) rejectEmpty
  rw [getlines_render hr] at hfine hbad hlone
  constructor
  · intro hok
    have hchecks : firstProblem (mapChecks rejectEmpty [] (es.map Rendered.text)) = .fine := by
      cases h : firstProblem (mapChecks rejectEmpty [] (es.map Rendered.text)) with
      | fine => rfl
      | malformed =>
        rw [hbad h] at hok
        cases hok
      | loneQuote =>
        rw [hlone h] at hok
        cases hok
    obtain ⟨m₁, hm₁, hmem⟩ := hfine hchecks
    rw [hok] at hm₁
    obtain rfl := Option.some.inj (Except.ok.inj hm₁)
    intro e he
    have hread : entryOf e.text ∈ m.entries :=
      (hmem _).mpr (List.mem_map_of_mem (List.mem_map_of_mem he))
    have hentry : e.entry ∈ m.entries := hp.mem_iff.mp (List.mem_map_of_mem he)
    have heq := EnvVarMap.eq_of_key hread hentry (keyOf_text (hr.key e he).2.2.1)
    exact readable_of_entryOf hr he heq
      ((pieces_of_fine hchecks).1 e.text (List.mem_map_of_mem he)).2
  · intro hread
    have hnd : (es.map Prod.fst).Nodup := by
      have hkeys := ((hp.map Prod.fst).nodup_iff).mpr m.keys_nodup
      rw [List.map_map] at hkeys
      exact hkeys
    have hchecks := @mapChecks_render es rejectEmpty [] es hr hread (fun _ he => he) hnd
      fun _ _ => List.not_mem_nil
    obtain ⟨m₁, hm₁, hmem⟩ := hfine hchecks
    rw [hm₁]
    have hsame : m₁ = m := by
      refine EnvVarMap.ext_mem fun x => ?_
      rw [hmem, ← hp.mem_iff, List.map_map]
      have hmaps : es.map (entryOf ∘ Rendered.text) = es.map Rendered.entry :=
        List.map_congr_left fun e he => (entryOf_text hr he hread).2.1
      rw [hmaps]
    rw [hsame]

/-! ## What is rejected -/

/-- Everything behind the first colon of a piece. -/
def behindColon (keyValue : Str) : Str := (getline ':' keyValue).2

/-- Not of the grammar: a piece without a colon, with an empty key or an empty value, or a
key that occurs twice. The empty string is the empty map. -/
def Malformed (s : Str) : Prop :=
  s ≠ [] ∧ ((∃ p ∈ s.splitOn ';', ':' ∉ p) ∨ (∃ p ∈ s.splitOn ';', keyOf p = []) ∨
    (∃ p ∈ s.splitOn ';', [] ∈ (behindColon p).splitOn ',') ∨ ¬ ((s.splitOn ';').map keyOf).Nodup)

/-- The documented exception, with empty values not allowed. -/
def Rejected (envVarName s : Str) : Prop :=
  getenvToMap envVarName (some s) true = .error (throwWrongFormatMap envVarName s)

/-- **A malformed string is rejected exactly** if the first entry that is not fine, of those
that are looked at, is a malformed one. -/
theorem rejected_iff (envVarName s : Str) :
    (Malformed s → Rejected envVarName s) ↔
      ¬ Malformed s ∨ firstProblem (mapChecks true [] (getlines ';' s)) = .malformed := by
  obtain ⟨hfine, hbad, hlone⟩ := @getenvToMap_scan envVarName s true
  have hrej : Rejected envVarName s ↔
      firstProblem (mapChecks true [] (getlines ';' s)) = .malformed := by
    refine ⟨fun h => ?_, hbad⟩
    unfold Rejected at h
    cases hc : firstProblem (mapChecks true [] (getlines ';' s)) with
    | malformed => rfl
    | fine =>
      obtain ⟨m₁, hm₁, -⟩ := hfine hc
      rw [hm₁] at h
      cases h
    | loneQuote =>
      rw [hlone hc] at h
      exact absurd (Except.error.inj h) (throwWrongFormatMap_ne _ _)
  tauto

/-- A lone quote among the checks is one of the values. -/
theorem loneQuote_value (h : firstProblem (mapChecks rejectEmpty seen pieces) = .loneQuote) :
    ∃ p ∈ pieces, ∃ v ∈ getlines ',' (valuesText p), valueCheck v = .loneQuote := by
  induction pieces generalizing seen with
  | nil => cases h
  | cons p pieces ih =>
    have hsplit : firstProblem (pieceChecks rejectEmpty seen p ++
        mapChecks rejectEmpty (keyOf p :: seen) pieces) = .loneQuote := h
    rw [firstProblem_append] at hsplit
    cases hp : firstProblem (pieceChecks rejectEmpty seen p) with
    | fine =>
      rw [hp] at hsplit
      obtain ⟨q, hq, hv⟩ := ih hsplit
      exact ⟨q, List.mem_cons_of_mem _ hq, hv⟩
    | malformed =>
      rw [hp] at hsplit
      cases hsplit
    | loneQuote =>
      have hmem : Check.loneQuote ∈ pieceChecks rejectEmpty seen p := by
        by_contra hnot
        cases firstProblem_eq_fine_of_not_mem hnot hp
      unfold pieceChecks at hmem
      split at hmem
      next => simp at hmem
      next =>
        obtain ⟨v, hv, hcheck⟩ := List.mem_map.mp hmem
        exact ⟨p, List.mem_cons_self, v, hv, hcheck⟩

/-- Nothing in the string is dropped by the splitting, and no value is a lone quote. -/
structure Plain (s : Str) : Prop where
  pieces : s.getLast? ≠ some ';'
  lines : '\n' ∉ s
  values : ∀ p ∈ s.splitOn ';', (behindColon p).getLast? ≠ some ','
  quotes : ∀ p ∈ s.splitOn ';', ∀ v ∈ (behindColon p).splitOn ',', valueCheck v ≠ .loneQuote

theorem mem_of_mem_splitOn {d c : Char} {s p : Str} (hp : p ∈ s.splitOn d) (hc : c ∈ p) : c ∈ s := by
  by_cases hs : s = []
  · subst hs
    rw [List.splitOn_nil, List.mem_singleton] at hp
    rw [hp] at hc
    exact absurd hc List.not_mem_nil
  · have hjoin : [d].intercalate (s.splitOn d) = s := List.intercalate_splitOn d
    rw [← hjoin]
    generalize s.splitOn d = ps at hp ⊢
    induction ps with
    | nil => exact absurd hp List.not_mem_nil
    | cons q ps ih =>
      cases ps with
      | nil =>
        rw [List.intercalate_singleton, ← List.mem_singleton.mp hp]
        exact hc
      | cons r ps =>
        rcases List.mem_cons.mp hp with rfl | hp
        · exact List.mem_append_left _ hc
        · exact List.mem_append_right _ (List.mem_append_right _ (ih hp))

/-- Without line breaks a piece's values are everything behind its colon. -/
theorem valuesText_of_no_lineBreak {p : Str} (h : '\n' ∉ p) : valuesText p = behindColon p := by
  refine takeWhile_of_not_mem fun hmem => h ?_
  exact (List.dropWhile_sublist _).subset (List.mem_of_mem_tail hmem)

/-- **Where the splitting drops nothing** malformed strings are rejected. -/
theorem rejected_of_plain {envVarName s : Str} (hp : Plain s) (hm : Malformed s) :
    Rejected envVarName s := by
  obtain ⟨hne, hm⟩ := hm
  have hpieces : getlines ';' s = s.splitOn ';' := getlines_eq_splitOn hne hp.pieces
  have htext : ∀ p ∈ s.splitOn ';', valuesText p = behindColon p := fun p hmem =>
    valuesText_of_no_lineBreak fun hc => hp.lines (mem_of_mem_splitOn hmem hc)
  -- The values of a piece whose text is not empty are its pieces around the commas.
  have hvalues : ∀ p ∈ s.splitOn ';', valuesText p ≠ [] →
      getlines ',' (valuesText p) = (behindColon p).splitOn ',' := by
    intro p hmem h0
    rw [htext p hmem] at h0 ⊢
    exact getlines_eq_splitOn h0 (hp.values p hmem)
  apply @getenvToMap_scan envVarName s true |>.2.1
  rw [hpieces]
  cases hc : firstProblem (mapChecks true [] (s.splitOn ';')) with
  | malformed => rfl
  | loneQuote =>
    obtain ⟨p, hmem, v, hv, hlone⟩ := loneQuote_value hc
    by_cases h0 : valuesText p = []
    · rw [h0] at hv
      exact absurd hv List.not_mem_nil
    · rw [hvalues p hmem h0] at hv
      exact absurd hlone (hp.quotes p hmem v hv)
  | fine =>
    obtain ⟨hall, hnd, -⟩ := pieces_of_fine hc
    have hform : ∀ p ∈ s.splitOn ';', ':' ∈ p ∧ keyOf p ≠ [] ∧ valuesText p ≠ [] := by
      intro p hmem
      have hbad := (hall p hmem).1
      unfold badPiece at hbad
      simpa [hasColon_iff, and_assoc] using hbad
    rcases hm with ⟨p, hmem, hcolon⟩ | ⟨p, hmem, hkey⟩ | ⟨p, hmem, hempty⟩ | hdup
    · exact absurd (hform p hmem).1 hcolon
    · exact absurd hkey (hform p hmem).2.1
    · rw [← hvalues p hmem (hform p hmem).2.2] at hempty
      cases (hall p hmem).2 [] hempty
    · exact absurd hnd hdup

/-! ## Both directions -/

/-- **Rendering and reading**: when a rendered map is read back, and when a malformed string
is rejected. -/
theorem getenvToMap_roundTrip (envVarName : Str) (rejectEmpty : Bool) (m : EnvVarMap)
    (es : List Rendered) (s : Str) :
    ((es.map Rendered.entry).Perm m.entries → Renderable es →
      (getenvToMap envVarName (some (render es)) rejectEmpty = .ok (some m) ↔ Readable es)) ∧
    ((Malformed s → Rejected envVarName s) ↔
      ¬ Malformed s ∨ firstProblem (mapChecks true [] (getlines ';' s)) = .malformed) ∧
    (Plain s → Malformed s → Rejected envVarName s) :=
  ⟨fun hp hr => roundTrip_iff hp hr, rejected_iff envVarName s, fun hp hm => rejected_of_plain hp hm⟩

/-- `k:'a',b`. -/
def twoValues : List Rendered := [(['k'], [(.single, ['a']), (.plain, ['b'])])]

/-- A map with two values, and a string without a colon. -/
theorem getenvToMap_roundTrip_two :
    getenvToMap ['V'] (some (render twoValues)) true = .ok (some (.single ['k'] [['a'], ['b']])) ∧
    Rejected ['V'] ['k'] := by
  constructor
  · refine ((getenvToMap_roundTrip ['V'] true (.single ['k'] [['a'], ['b']]) twoValues []).1
      (List.Perm.refl _) ⟨?_, ?_, ?_⟩).mpr ?_
    · unfold DelimiterFree
      decide
    · decide
    · unfold DelimiterFree
      decide
    · unfold Readable
      decide
  · refine (getenvToMap_roundTrip ['V'] true (.single ['k'] []) [] ['k']).2.2 ⟨by decide, by decide, ?_, ?_⟩ ?_
    · decide
    · decide
    · exact ⟨by decide, Or.inl (by decide)⟩

/-- `k:a␤b`, with a line break in its value. -/
def brokenValue : List Rendered := [(['k'], [(.plain, ['a', '\n', 'b'])])]

/-- The map with the broken value is read as another one, and `k:v;` is not rejected. -/
theorem getenvToMap_roundTrip_fails :
    getenvToMap ['V'] (some (render brokenValue)) true ≠
      .ok (some (.single ['k'] [['a', '\n', 'b']])) ∧
    ¬ (Malformed ['k', ':', 'v', ';'] → Rejected ['V'] ['k', ':', 'v', ';']) := by
  constructor
  · intro h
    have hvalues := congrArg
      (fun r => r.toOption.map fun m => m.map fun m : EnvVarMap => m.entries) h
    exact absurd hvalues (by decide)
  · rw [rejected_iff]
    rintro (h | h)
    · exact h ⟨by decide, Or.inl (by decide)⟩
    · exact absurd h (by decide)

end UnifiedRuntime.Loader
