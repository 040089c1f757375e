import UnifiedRuntime.Lib.Except
import UnifiedRuntime.Pools.Reading

/-!
# Pool configurations of any string

Which texts `parseDisjointPoolConfig` reads as numbers depends on the string alone, not on
what has been read before. So whether it comes to an end is a question about each of these
texts, and about the flag: a list of limits that starts with a comma makes `MemParser` look at
a flag that nothing has set.

- `memParser_good`, `loop_good`: without such a list, and with texts that are good, a
  configuration comes back, and each of its sizes is a default or written in the string.
- `memParser_unset`, `loop_ok`: a list that starts with a comma is a fault.
- `parse_total`: exactly when the parser is total on a string.
-/

namespace UnifiedRuntime.Pools

open Str

/-! ## What is read -/

inductive Role where
  | enableBuffers
  | maxSize
  | limits
deriving DecidableEq

/-- What each piece is for, given what has been set. -/
def classify : Bool → Bool → List Str → List (Role × Str)
  | _, _, [] => []
  | enableBuffersSet, maxSizeSet, param :: rest =>
    if !enableBuffersSet && isNumber param then
      (.enableBuffers, param) :: classify true maxSizeSet rest
    else if !maxSizeSet && isNumber param then
      (.maxSize, param) :: classify enableBuffersSet true rest
    else (.limits, param) :: classify enableBuffersSet maxSizeSet rest

/-- The texts among the first `n` pieces. -/
def fieldTexts (n : Nat) (params : Str) : List Str :=
  ((params.splitOn ',').take n).filter (!·.isEmpty)

/-- The texts of a piece that `GetValue` is called on. -/
def textsOf : Role × Str → List Str
  | (.limits, param) => fieldTexts 3 (memTypeOf param).2
  | (_, param) => if param.isEmpty then [] else [param]

/-- The pieces of a configuration with what they are for. -/
def roles (config : Str) : List (Role × Str) := classify false false (config.splitOn ';')

def texts (config : Str) : List Str := (roles config).flatMap textsOf

/-- The lists of limits, without their memory types. -/
def limitLists (config : Str) : List Str :=
  (roles config).filterMap fun r => if r.1 = .limits then some (memTypeOf r.2).2 else none

theorem fieldTexts_none {a : Str} (ha : ',' ∉ a) (n : Nat) :
    fieldTexts (n + 1) (joined a none) = if a.isEmpty then [] else [a] := by
  show ((a.splitOn ',').take (n + 1)).filter _ = _
  rw [List.splitOn_eq_singleton ha, List.take_of_length_le (by simp)]
  cases a with
  | nil => rfl
  | cons x a => rfl

theorem fieldTexts_some {a rest : Str} (ha : ',' ∉ a) (n : Nat) :
    fieldTexts (n + 1) (joined a (some rest)) =
      (if a.isEmpty then [] else [a]) ++ fieldTexts n rest := by
  show (((a ++ ',' :: rest).splitOn ',').take (n + 1)).filter _ = _
  rw [List.splitOn_append_cons_self_of_not_mem ha]
  cases a with
  | nil => rfl
  | cons x a => rfl

theorem ne_nil_of_mem_fieldTexts {n : Nat} {params text : Str} (h : text ∈ fieldTexts n params) :
    text ≠ [] := by
  obtain ⟨-, hne⟩ := List.mem_filter.mp h
  rintro rfl
  cases hne

theorem ne_nil_of_mem_texts {config text : Str} (h : text ∈ texts config) : text ≠ [] := by
  obtain ⟨⟨role, param⟩, -, htext⟩ := List.mem_flatMap.mp h
  have hnumber : text ∈ (if param.isEmpty then ([] : List Str) else [param]) → text ≠ [] := by
    intro hmem
    split at hmem
    next => cases hmem
    next hne =>
      obtain rfl := List.mem_singleton.mp hmem
      rwa [List.isEmpty_iff] at hne
  cases role with
  | enableBuffers => exact hnumber htext
  | maxSize => exact hnumber htext
  | limits => exact ne_nil_of_mem_fieldTexts htext

/-! ## A list of limits -/

/-- Every setting satisfies `W`. -/
def Sized (W : Limit → Nat → Prop) (cs : Configs) : Prop := ∀ t l, W l ((cs t).get l)

variable {W : Limit → Nat → Prop} {cs : Configs} {memType : Option MemType} {l : Limit}

theorem Sized.setAll (h : Sized W cs) {n : Nat} (hn : W l n) : Sized W (cs.setAll n l) := by
  intro t l'
  show W l' (((cs t).set n l).get l')
  rw [PoolConfig.get_set]
  split
  next hl => exact hl ▸ hn
  next => exact h t l'

theorem Sized.assign (h : Sized W cs) {n : Nat} (hn : W l n) :
    Sized W (assign memType n l cs) := by
  cases memType with
  | none => exact h.setAll hn
  | some t =>
    intro t' l'
    show W l' ((cs.set t n l t').get l')
    unfold Configs.set
    split
    next => exact h.setAll hn t' l'
    next => exact h t' l'

theorem Sized.copyHost (h : Sized W cs) : Sized W (copyHost l cs) := h.setAll (h .host l)

/-- A text is good and the size that it writes satisfies `W`. -/
def Fine (W : Limit → Nat → Prop) (text : Str) : Prop :=
  Good text ∧ ∀ n, writtenSize text = some n → ∀ l, W l n

theorem Fine.getValue {text : Str} (h : Fine W text) (hne : text ≠ []) {setting : Nat}
    (hs : W l setting) : ∃ n, getValue text text.length setting = .ok n ∧ W l n := by
  refine ⟨_, getValue_good hne h.1 setting, ?_⟩
  cases hw : writtenSize text with
  | none => exact hs
  | some n => exact h.2 n hw l

/-- **One block**, where the flag is set or about to be. -/
theorem memBlock_good {s : MemState} {n : Nat} (hsized : Sized W s.configs)
    (hflag : s.paramWasSet ≠ none ∨ s.params.head? ≠ some ',')
    (hfine : ∀ text ∈ fieldTexts (n + 1) s.params, Fine W text) :
    ∃ s', memBlock none memType l s = .ok s' ∧ Sized W s'.configs ∧ s'.paramWasSet ≠ none ∧
      (s'.more = true → ∀ text ∈ fieldTexts n s'.params, Fine W text) := by
  obtain ⟨a, tail, hp, ha⟩ := exists_joined s.params
  rw [hp] at hfine
  by_cases hne : a = []
  · subst hne
    cases tail with
    | none =>
      refine ⟨_, memBlock_nil hp, hsized, by simp, fun h => ?_⟩
      cases h
    | some rest =>
      have hset : ∃ b, s.paramWasSet = some b := by
        refine Option.ne_none_iff_exists'.mp (hflag.resolve_right ?_)
        rw [hp]
        exact fun h => h rfl
      obtain ⟨b, hb⟩ := hset
      rw [memBlock_omitted hp, hb]
      refine ⟨_, rfl, ?_, by simp, fun _ => ?_⟩
      · split
        next => exact hsized.copyHost
        next => exact hsized
      · exact hfine
  · have hmem : a ∈ fieldTexts (n + 1) (joined a tail) := by
      cases tail with
      | none =>
        rw [fieldTexts_none ha, if_neg (by rwa [List.isEmpty_iff])]
        exact List.mem_cons_self
      | some rest =>
        rw [fieldTexts_some ha, if_neg (by rwa [List.isEmpty_iff])]
        exact List.mem_append_left _ List.mem_cons_self
    obtain ⟨m, hm, hwm⟩ := (hfine a hmem).getValue hne (hsized (memType.getD .host) l)
    refine ⟨_, memBlock_given hp ha hne hm, hsized.assign hwm, by simp, fun hmore => ?_⟩
    cases tail with
    | none => cases hmore
    | some rest =>
      rw [fieldTexts_some ha] at hfine
      exact fun text htext => hfine text (List.mem_append_right _ htext)

theorem nextBlock_good {s : MemState} {n : Nat} (hsized : Sized W s.configs)
    (hflag : s.paramWasSet ≠ none)
    (hfine : s.more = true → ∀ text ∈ fieldTexts (n + 1) s.params, Fine W text) :
    ∃ s', nextBlock none memType l s = .ok s' ∧ Sized W s'.configs ∧ s'.paramWasSet ≠ none ∧
      (s'.more = true → ∀ text ∈ fieldTexts n s'.params, Fine W text) := by
  unfold nextBlock
  split
  next hmore => exact memBlock_good hsized (Or.inl hflag) (hfine hmore)
  next hmore => exact ⟨s, rfl, hsized, hflag, fun h => absurd h hmore⟩

/-- **A list of limits that does not start with a comma.** -/
theorem memParser_good {params : Str} (hsized : Sized W cs) (hcomma : params.head? ≠ some ',')
    (hfine : ∀ text ∈ fieldTexts 3 params, Fine W text) :
    ∃ cs', memParser none cs params memType = .ok cs' ∧ Sized W cs' := by
  obtain ⟨s₁, h₁, hsized₁, hflag₁, hfine₁⟩ := @memBlock_good W memType .maxPoolableSize
    ⟨params, cs, none, true⟩ 2 hsized (Or.inr hcomma) hfine
  obtain ⟨s₂, h₂, hsized₂, hflag₂, hfine₂⟩ := @nextBlock_good W memType .capacity s₁ 1
    hsized₁ hflag₁ hfine₁
  obtain ⟨s₃, h₃, hsized₃, -⟩ := @nextBlock_good W memType .slabMinSize s₂ 0
    hsized₂ hflag₂ hfine₂
  refine ⟨s₃.configs, ?_, hsized₃⟩
  unfold memParser
  rw [h₁]
  show (nextBlock none memType .capacity s₁ >>= _) = _
  rw [h₂]
  show (nextBlock none memType .slabMinSize s₂ >>= _) = _
  rw [h₃]
  rfl

/-- **A list of limits that starts with one.** -/
theorem memParser_unset {params : Str} (hcomma : params.head? = some ',') :
    memParser none cs params memType = .error .unsetFlag := by
  obtain ⟨rest, rfl⟩ : ∃ rest, params = joined [] (some rest) := by
    cases params with
    | nil => cases hcomma
    | cons c rest =>
      obtain rfl := Option.some.inj hcomma
      exact ⟨rest, rfl⟩
  rfl

/-! ## The loop -/

/-- The sizes of a state. -/
structure SizedState (B M : Nat → Prop) (W : Limit → Nat → Prop) (s : ParseState) : Prop where
  enableBuffers : B s.enableBuffers
  maxSize : M s.maxSize
  configs : Sized W s.configs

variable {B M : Nat → Prop}

/-- The text is good and the size that it writes is one for every setting. -/
def FineAll (B M : Nat → Prop) (W : Limit → Nat → Prop) (text : Str) : Prop :=
  Good text ∧ ∀ n, writtenSize text = some n → B n ∧ M n ∧ ∀ l, W l n

/-- An empty parameter keeps the setting, any other is read. -/
theorem getNumber_good {P : Nat → Prop} {param : Str} {setting : Nat} (hs : P setting)
    (hfine : ∀ text ∈ (if param.isEmpty then ([] : List Str) else [param]),
      Good text ∧ ∀ n, writtenSize text = some n → P n) :
    ∃ n, getNumber param setting = .ok n ∧ P n := by
  unfold getNumber
  split
  next => exact ⟨setting, rfl, hs⟩
  next hne =>
    rw [if_neg hne] at hfine
    obtain ⟨hgood, hsize⟩ := hfine param List.mem_cons_self
    refine ⟨_, getValue_good (by rwa [List.isEmpty_iff] at hne) hgood setting, ?_⟩
    cases hw : writtenSize param with
    | none => exact hs
    | some n => exact hsize n hw

/-- **The loop over pieces that are fine.** -/
theorem loop_good : ∀ (params : List Str) {s : ParseState}, SizedState B M W s →
    (∀ r ∈ classify s.enableBuffersSet s.maxSizeSet params,
      (r.1 = .limits → (memTypeOf r.2).2.head? ≠ some ',') ∧
        ∀ text ∈ textsOf r, FineAll B M W text) →
    ∃ s', params.foldlM (parseParam fun _ => none) s = .ok s' ∧ SizedState B M W s'
  | [], s, hs, _ => ⟨s, rfl, hs⟩
  | param :: rest, s, hs, h => by
    rw [List.foldlM_cons]
    unfold classify at h
    unfold parseParam
    by_cases hb : (!s.enableBuffersSet && isNumber param) = true
    · rw [if_pos hb] at h ⊢
      obtain ⟨hhead, htail⟩ := List.forall_mem_cons.mp h
      obtain ⟨n, hn, hBn⟩ := getNumber_good hs.enableBuffers fun text htext =>
        ⟨(hhead.2 text htext).1, fun k hk => ((hhead.2 text htext).2 k hk).1⟩
      rw [hn]
      exact loop_good rest ⟨hBn, hs.maxSize, hs.configs⟩ htail
    · rw [if_neg hb] at h ⊢
      by_cases hm : (!s.maxSizeSet && isNumber param) = true
      · rw [if_pos hm] at h ⊢
        obtain ⟨hhead, htail⟩ := List.forall_mem_cons.mp h
        obtain ⟨n, hn, hMn⟩ := getNumber_good hs.maxSize fun text htext =>
          ⟨(hhead.2 text htext).1, fun k hk => ((hhead.2 text htext).2 k hk).2.1⟩
        rw [hn]
        exact loop_good rest ⟨hs.enableBuffers, hMn, hs.configs⟩ htail
      · rw [if_neg hm] at h ⊢
        obtain ⟨hhead, htail⟩ := List.forall_mem_cons.mp h
        obtain ⟨cs', hcs', hsized⟩ := @memParser_good W s.configs (memTypeOf param).1
          (memTypeOf param).2 hs.configs (hhead.1 rfl) fun text htext =>
            ⟨(hhead.2 text htext).1, fun k hk => ((hhead.2 text htext).2 k hk).2.2⟩
        have hmem : memTypeParser none s.configs param = .ok cs' := hcs'
        rw [hmem]
        exact loop_good rest ⟨hs.enableBuffers, hs.maxSize, hsized⟩ htail

/-- **A loop that ends has met no list that starts with a comma.** -/
theorem loop_ok : ∀ (params : List Str) {s s' : ParseState},
    params.foldlM (parseParam fun _ => none) s = .ok s' →
    ∀ r ∈ classify s.enableBuffersSet s.maxSizeSet params,
      r.1 = .limits → (memTypeOf r.2).2.head? ≠ some ','
  | [], s, s', _ => fun r hr => absurd hr List.not_mem_nil
  | param :: rest, s, s', h => by
    obtain ⟨s₁, hparam, hrest⟩ := except_bind_ok h
    have ih := loop_ok rest hrest
    unfold classify
    unfold parseParam at hparam
    by_cases hb : (!s.enableBuffersSet && isNumber param) = true
    · rw [if_pos hb] at hparam ⊢
      obtain ⟨n, -, hn⟩ := except_bind_ok hparam
      obtain rfl := Except.ok.inj hn
      refine List.forall_mem_cons.mpr ⟨fun hr => ?_, ih⟩
      cases hr
    · rw [if_neg hb] at hparam ⊢
      by_cases hm : (!s.maxSizeSet && isNumber param) = true
      · rw [if_pos hm] at hparam ⊢
        obtain ⟨n, -, hn⟩ := except_bind_ok hparam
        obtain rfl := Except.ok.inj hn
        refine List.forall_mem_cons.mpr ⟨fun hr => ?_, ih⟩
        cases hr
      · rw [if_neg hm] at hparam ⊢
        obtain ⟨cs', hcs', hn⟩ := except_bind_ok hparam
        obtain rfl := Except.ok.inj hn
        refine List.forall_mem_cons.mpr ⟨fun _ hcomma => ?_, ih⟩
        unfold memTypeParser at hcs'
        rw [memParser_unset hcomma] at hcs'
        cases hcs'

/-! ## Totality -/

/-- A number of the configuration is `d` or the size that a text of the string writes. -/
def DefaultOrWritten (config : Str) (d : Nat → Prop) (n : Nat) : Prop :=
  d n ∨ ∃ text ∈ texts config, writtenSize text = some n

/-- The parser returns, with unset flags that must not be read; every size is a default or
written in the string; and what each text makes of a setting is the size that it writes, with
no wrap-around, or the setting. -/
structure TotalOn (config : Str) (trace : Int) : Prop where
  returns : ∃ r, parseDisjointPoolConfig (fun _ => none) config trace = .ok r ∧
    DefaultOrWritten config (· = 1) r.enableBuffers ∧
    DefaultOrWritten config (· = sizeMax) r.limits ∧
    Sized (fun l => DefaultOrWritten config fun n => ∃ t, n = (defaultConfigs trace t).get l)
      r.configs
  value : ∀ text ∈ texts config, ∀ setting,
    getValue text text.length setting = .ok ((writtenSize text).getD setting)

theorem mem_limitLists {config : Str} {P : Str → Prop} : (∀ params ∈ limitLists config, P params) ↔
    ∀ r ∈ roles config, r.1 = .limits → P (memTypeOf r.2).2 := by
  constructor
  · intro h r hr hlim
    refine h _ (List.mem_filterMap.mpr ⟨r, hr, ?_⟩)
    rw [if_pos hlim]
  · intro h params hp
    obtain ⟨r, hr, heq⟩ := List.mem_filterMap.mp hp
    split at heq
    next hlim =>
      obtain rfl := Option.some.inj heq
      exact h r hr hlim
    next => cases heq

/-- **Exactly when the parser is total on a string**: no list of limits starts with a comma, and
every text that is read is good. -/
theorem parse_total (config : Str) (trace : Int) : TotalOn config trace ↔
    (∀ params ∈ limitLists config, params.head? ≠ some ',') ∧
      ∀ text ∈ texts config, Good text := by
  constructor
  · intro h
    refine ⟨mem_limitLists.mpr ?_, fun text htext => ?_⟩
    · obtain ⟨r, hr, -⟩ := h.returns
      obtain ⟨s, hs, -⟩ := except_bind_ok hr
      rw [paramsFrom_eq] at hs
      exact loop_ok _ hs
    · exact (getValue_exact (ne_nil_of_mem_texts htext)).mp (h.value text htext)
  · rintro ⟨hcomma, hgood⟩
    refine ⟨?_, fun text htext =>
      (getValue_exact (ne_nil_of_mem_texts htext)).mpr (hgood text htext)⟩
    have hstart : SizedState (DefaultOrWritten config (· = 1))
        (DefaultOrWritten config (· = sizeMax))
        (fun l => DefaultOrWritten config fun n => ∃ t, n = (defaultConfigs trace t).get l)
        ⟨defaultConfigs trace, 1, sizeMax, false, false, 0⟩ :=
      ⟨Or.inl rfl, Or.inl rfl, fun t l => Or.inl ⟨t, rfl⟩⟩
    obtain ⟨s, hs, hsized⟩ := loop_good (config.splitOn ';') hstart fun r hr =>
      ⟨fun hlim => mem_limitLists.mp hcomma r hr hlim, fun text htext => by
        have hmem : text ∈ texts config := List.mem_flatMap.mpr ⟨r, hr, htext⟩
        exact ⟨hgood text hmem, fun n hn =>
          ⟨Or.inr ⟨text, hmem, hn⟩, Or.inr ⟨text, hmem, hn⟩, fun _ => Or.inr ⟨text, hmem, hn⟩⟩⟩⟩
    refine ⟨⟨s.enableBuffers, s.maxSize, s.configs⟩, ?_, hsized.enableBuffers, hsized.maxSize,
      hsized.configs⟩
    unfold parseDisjointPoolConfig
    rw [paramsFrom_eq, hs]
    rfl

/-- A suffix on its own indexes the string before its start or converts nothing, a size of 4 GB
in bytes is no `int`, two suffixes multiply once, and nothing before a comma leaves the flag
unset. -/
theorem parse_partial :
    ¬ TotalOn "k".toList 0 ∧ ¬ TotalOn "g".toList 0 ∧ ¬ TotalOn ";4294967296".toList 0 ∧
      ¬ TotalOn "1mk".toList 0 ∧ ¬ TotalOn ",5".toList 0 := by
  refine ⟨fun h => ?_, fun h => ?_, fun h => ?_, fun h => ?_, fun h => ?_⟩
  · have hv := h.value "k".toList (by decide) 0
    have hfault : getValue "k".toList 1 0 = .error .outOfRange := rfl
    cases hfault.symm.trans hv
  · have hv := h.value "g".toList (by decide) 0
    have hfault : getValue "g".toList 1 0 = .error (.exception .invalidArgument) := rfl
    cases hfault.symm.trans hv
  · have hv := h.value "4294967296".toList (by decide) 0
    have hfault : getValue "4294967296".toList 10 0 = .error (.exception .outOfRange) := rfl
    cases hfault.symm.trans hv
  · have hv := h.value "1mk".toList (by decide) 0
    have hvalue : getValue "1mk".toList 3 0 = .ok (1024 * 1024) := rfl
    cases hvalue.symm.trans hv
  · obtain ⟨r, hr, -⟩ := h.returns
    unfold parseDisjointPoolConfig at hr
    rw [paramsFrom_eq] at hr
    cases hr

end UnifiedRuntime.Pools
