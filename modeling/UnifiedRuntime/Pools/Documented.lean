import UnifiedRuntime.Pools.Grammar

/-!
# When a pool configuration is read as documented

The parser and the documentation agree on every setting that is given, and on the host's
settings altogether. They part where an entry copies the host's setting over a type that has
another one, and they meet again at the next entry that gives this setting to the type.

- `host_documented`: the host's settings are always right.
- `setting_documented`: a setting of any type is right exactly if the last entry to touch it
  gave it, or copied the value that was there.
- `parse_documented`: exactly when the parser does what is documented.
-/

namespace UnifiedRuntime.Pools

open Str

variable {b : Bool} {e : TypeLimits} {t : MemType} {l l' : Limit} {cs cs' : Configs}

/-! ## One setting -/

/-- The entry gives the setting to the type. -/
def TypeLimits.sets (e : TypeLimits) (t : MemType) (l : Limit) : Bool :=
  (e.limits.given l).isSome && (e.memType.isNone || e.memType == some t)

/-- The entry writes the setting of the type. -/
def TypeLimits.touches (b : Bool) (e : TypeLimits) (t : MemType) (l : Limit) : Bool :=
  e.sets t l || e.copies b l

theorem setAll_get {n : Nat} :
    ((cs.setAll n l) t).get l' = if l' = l then n else (cs t).get l' :=
  PoolConfig.get_set (cs t) n l l'

/-- A value goes to all types, or to the one that the entry names. -/
theorem assign_get {memType : Option MemType} {n : Nat} : ((assign memType n l cs) t).get l' =
    if l' = l ∧ (memType.isNone || memType == some t) = true then n else (cs t).get l' := by
  cases memType with
  | none =>
    show ((cs.setAll n l) t).get l' = _
    rw [setAll_get]
    simp
  | some t' =>
    show ((cs.set t' n l) t).get l' = _
    unfold Configs.set
    split
    next h =>
      subst h
      simp
    next h =>
      rw [if_neg]
      rintro ⟨-, htype⟩
      simp only [Option.isNone_some, Bool.false_or, beq_iff_eq, Option.some.injEq] at htype
      exact h htype.symm

theorem read_some {v : Size} (h : e.limits.given l = some v) :
    e.read b l cs = assign e.memType v.value l cs := by
  unfold TypeLimits.read
  rw [h]

theorem read_none (h : e.limits.given l = none) :
    e.read b l cs = if e.copies b l then copyHost l cs else cs := by
  unfold TypeLimits.read
  rw [h]

theorem copyHost_get :
    ((copyHost l cs) t).get l' = if l' = l then (cs .host).get l else (cs t).get l' :=
  setAll_get

/-- What an entry does to another setting: nothing. -/
theorem read_get_ne (h : l' ≠ l) : ((e.read b l cs) t).get l' = (cs t).get l' := by
  cases hgiven : e.limits.given l with
  | some v => rw [read_some hgiven, assign_get, if_neg fun h' => h h'.1]
  | none =>
    rw [read_none hgiven]
    split
    next => rw [copyHost_get, if_neg h]
    next => rfl

theorem apply_get_ne (h : l' ≠ l) : ((e.apply l cs) t).get l' = (cs t).get l' := by
  unfold TypeLimits.apply
  cases e.limits.given l with
  | none => rfl
  | some v =>
    show ((assign e.memType v.value l cs) t).get l' = _
    rw [assign_get, if_neg fun h' => h h'.1]

theorem readAll_get : ((e.readAll b cs) t).get l = ((e.read b l cs) t).get l := by
  have hread : ∀ cs' : Configs, (∀ t', (cs' t').get l = (cs t').get l) →
      ((e.read b l cs') t).get l = ((e.read b l cs) t).get l := by
    intro cs' h
    cases hgiven : e.limits.given l with
    | some v => rw [read_some hgiven, read_some hgiven, assign_get, assign_get, h]
    | none =>
      rw [read_none hgiven, read_none hgiven]
      split
      next => rw [copyHost_get, copyHost_get, h, h]
      next => exact h t
  unfold TypeLimits.readAll
  cases l with
  | maxPoolableSize => rw [read_get_ne (by simp), read_get_ne (by simp)]
  | capacity =>
    rw [read_get_ne (by simp)]
    exact hread _ fun t' => read_get_ne (by simp)
  | slabMinSize =>
    exact hread _ fun t' => (read_get_ne (by simp)).trans (read_get_ne (by simp))

theorem applyAll_get : ((e.applyAll cs) t).get l = ((e.apply l cs) t).get l := by
  have happly : ∀ cs' : Configs, (cs' t).get l = (cs t).get l →
      ((e.apply l cs') t).get l = ((e.apply l cs) t).get l := by
    intro cs' h
    unfold TypeLimits.apply
    cases e.limits.given l with
    | none => exact h
    | some v =>
      show ((assign e.memType v.value l cs') t).get l = ((assign e.memType v.value l cs) t).get l
      rw [assign_get, assign_get, h]
  unfold TypeLimits.applyAll
  cases l with
  | maxPoolableSize => rw [apply_get_ne (by simp), apply_get_ne (by simp)]
  | capacity =>
    rw [apply_get_ne (by simp)]
    exact happly _ (apply_get_ne (by simp))
  | slabMinSize => exact happly _ ((apply_get_ne (by simp)).trans (apply_get_ne (by simp)))

theorem given_of_copies (h : e.copies b l = true) : e.limits.given l = none := by
  obtain ⟨memType, ⟨x₁, rest⟩⟩ := e
  cases l with
  | maxPoolableSize =>
    simp only [TypeLimits.copies, Bool.and_eq_true, Option.isNone_iff_eq_none] at h
    exact h.1.2
  | capacity =>
    unfold TypeLimits.copies at h
    dsimp only at h
    split at h
    next => rfl
    next => cases h
  | slabMinSize => cases h

theorem not_sets_of_copies (h : e.copies b l = true) : e.sets t l = false := by
  unfold TypeLimits.sets
  rw [given_of_copies h]
  rfl

/-- A setting that is given is given alike by the parser and by the documentation. -/
theorem readAll_sets (h : e.sets t l = true) :
    ((e.readAll b cs) t).get l = ((e.applyAll cs') t).get l := by
  unfold TypeLimits.sets at h
  rw [Bool.and_eq_true] at h
  obtain ⟨v, hv⟩ := Option.isSome_iff_exists.mp h.1
  rw [readAll_get, applyAll_get, read_some hv]
  unfold TypeLimits.apply
  rw [hv]
  show ((assign e.memType v.value l cs) t).get l = ((assign e.memType v.value l cs') t).get l
  rw [assign_get, assign_get, if_pos ⟨rfl, h.2⟩, if_pos ⟨rfl, h.2⟩]

/-- A copy is the host's … -/
theorem readAll_copies (h : e.copies b l = true) :
    ((e.readAll b cs) t).get l = (cs .host).get l := by
  rw [readAll_get, read_none (given_of_copies h), if_pos h, copyHost_get, if_pos rfl]

/-- … and otherwise a setting stays. -/
theorem readAll_not_touches (h : e.touches b t l = false) :
    ((e.readAll b cs) t).get l = (cs t).get l := by
  unfold TypeLimits.touches TypeLimits.sets at h
  rw [Bool.or_eq_false_iff] at h
  rw [readAll_get]
  cases hv : e.limits.given l with
  | some v =>
    rw [read_some hv, assign_get, if_neg]
    rintro ⟨-, htype⟩
    have hsets := h.1
    rw [hv, htype] at hsets
    cases hsets
  | none => rw [read_none hv, if_neg (by rw [h.2]; simp)]

/-- The documentation leaves a setting that is not given. -/
theorem applyAll_not_sets (h : e.sets t l = false) :
    ((e.applyAll cs) t).get l = (cs t).get l := by
  unfold TypeLimits.sets at h
  rw [applyAll_get]
  unfold TypeLimits.apply
  cases hv : e.limits.given l with
  | none => rfl
  | some v =>
    show ((assign e.memType v.value l cs) t).get l = _
    rw [assign_get, if_neg]
    rintro ⟨-, htype⟩
    rw [hv, htype] at h
    cases h

/-! ## All entries -/

variable {g : Nat → Bool} {trace : Int} {es : List TypeLimits}

/-- What the parser makes of the first entries. -/
def performed (g : Nat → Bool) (trace : Int) (es : List TypeLimits) : Configs :=
  readEntries g 0 es (defaultConfigs trace)

theorem readEntries_append (e : TypeLimits) : ∀ (es : List TypeLimits) (i : Nat) (cs : Configs),
    readEntries g i (es ++ [e]) cs =
      e.readAll (g (i + es.length)) (readEntries g i es cs)
  | [], _, _ => rfl
  | e' :: es, i, cs => by
    show readEntries g (i + 1) (es ++ [e]) _ = e.readAll (g (i + (es.length + 1))) _
    rw [readEntries_append e es (i + 1)]
    have hlen : i + 1 + es.length = i + (es.length + 1) := by omega
    rw [hlen]
    rfl

theorem performed_append (es : List TypeLimits) (e : TypeLimits) :
    performed g trace (es ++ [e]) = e.readAll (g es.length) (performed g trace es) := by
  unfold performed
  rw [readEntries_append, Nat.zero_add]

theorem documented_append (es : List TypeLimits) (e : TypeLimits) :
    documented trace (es ++ [e]) = e.applyAll (documented trace es) := by
  unfold documented
  rw [List.foldl_append]
  rfl

/-- **The host's settings are right.** -/
theorem host_documented (l : Limit) (es : List TypeLimits) :
    ((performed g trace es) .host).get l = ((documented trace es) .host).get l := by
  induction es using List.reverseRecOn with
  | nil => rfl
  | append_singleton es e ih =>
    rw [performed_append, documented_append]
    by_cases hs : e.sets .host l = true
    · exact readAll_sets hs
    · rw [Bool.not_eq_true] at hs
      rw [applyAll_not_sets hs, ← ih]
      by_cases hc : e.copies (g es.length) l = true
      · exact readAll_copies hc
      · rw [Bool.not_eq_true] at hc
        exact readAll_not_touches (by unfold TypeLimits.touches; rw [hs, hc]; rfl)

/-- If the last entry to touch a setting of the type copied it, it copied what was there: the
host had the value that the type is documented to have. -/
def Kept (g : Nat → Bool) (trace : Int) (es : List TypeLimits) (t : MemType) (l : Limit) : Prop :=
  ∀ pre e post, es = pre ++ e :: post → e.copies (g pre.length) l = true →
    (∀ mid e' post', post = mid ++ e' :: post' →
      e'.touches (g (pre.length + 1 + mid.length)) t l = false) →
    ((documented trace pre) .host).get l = ((documented trace pre) t).get l

/-- The entries up to one before the last. -/
theorem append_eq_cases {e e' : TypeLimits} {pre post : List TypeLimits}
    (h : es ++ [e] = pre ++ e' :: post) :
    (pre = es ∧ e' = e ∧ post = []) ∨ ∃ post', post = post' ++ [e] ∧ es = pre ++ e' :: post' := by
  rcases List.eq_nil_or_concat post with rfl | ⟨post', e'', rfl⟩
  · obtain ⟨hpre, he⟩ := List.append_inj' h rfl
    exact Or.inl ⟨hpre.symm, (List.cons.inj he).1.symm, rfl⟩
  · have hsplit : es ++ [e] = (pre ++ e' :: post') ++ [e''] := by
      rw [h]
      simp
    obtain ⟨hes, he⟩ := List.append_inj' hsplit rfl
    obtain rfl := (List.cons.inj he).1
    exact Or.inr ⟨post', List.concat_eq_append, hes⟩

/-- An entry that touches the setting decides alone. -/
theorem kept_append_touched (ht : e.touches (g es.length) t l = true)
    (hc : e.copies (g es.length) l = true →
      ((documented trace es) .host).get l = ((documented trace es) t).get l) :
    Kept g trace (es ++ [e]) t l := by
  intro pre e' post hes hcopy hlast
  rcases append_eq_cases hes with ⟨rfl, rfl, rfl⟩ | ⟨post', rfl, rfl⟩
  · exact hc hcopy
  · have hno := hlast post' e [] rfl
    have hlen : pre.length + 1 + post'.length = (pre ++ e' :: post').length := by
      rw [List.length_append, List.length_cons]
      omega
    rw [hlen, ht] at hno
    cases hno

/-- An entry that does not touch the setting leaves the decision to those before it. -/
theorem kept_append_untouched (ht : e.touches (g es.length) t l = false) :
    Kept g trace (es ++ [e]) t l ↔ Kept g trace es t l := by
  constructor
  · intro h pre e' post hes hcopy hlast
    refine h pre e' (post ++ [e]) (by rw [hes]; simp) hcopy ?_
    intro mid e'' post' hpost
    rcases append_eq_cases hpost with ⟨rfl, rfl, rfl⟩ | ⟨post'', rfl, hpost'⟩
    · have hlen : pre.length + 1 + mid.length = es.length := by
        rw [hes, List.length_append, List.length_cons]
        omega
      rw [hlen]
      exact ht
    · exact hlast mid e'' post'' hpost'
  · intro h pre e' post hes hcopy hlast
    rcases append_eq_cases hes with ⟨rfl, rfl, rfl⟩ | ⟨post', rfl, hes'⟩
    · unfold TypeLimits.touches at ht
      rw [hcopy, Bool.or_true] at ht
      cases ht
    · refine h pre e' post' hes' hcopy fun mid e'' post'' hpost => ?_
      exact hlast mid e'' (post'' ++ [e]) (by rw [hpost]; simp)

/-- **A setting is right exactly if it is kept.** -/
theorem setting_documented (t : MemType) (l : Limit) (es : List TypeLimits) :
    ((performed g trace es) t).get l = ((documented trace es) t).get l ↔ Kept g trace es t l := by
  induction es using List.reverseRecOn with
  | nil =>
    refine ⟨fun _ pre e post hes => ?_, fun _ => rfl⟩
    exact absurd hes (by simp)
  | append_singleton es e ih =>
    rw [performed_append, documented_append]
    by_cases hs : e.sets t l = true
    · have ht : e.touches (g es.length) t l = true := by
        unfold TypeLimits.touches
        rw [hs, Bool.true_or]
      refine ⟨fun _ => kept_append_touched ht fun hc => ?_, fun _ => readAll_sets hs⟩
      rw [not_sets_of_copies hc] at hs
      cases hs
    · rw [Bool.not_eq_true] at hs
      rw [applyAll_not_sets hs]
      by_cases hc : e.copies (g es.length) l = true
      · have ht : e.touches (g es.length) t l = true := by
          unfold TypeLimits.touches
          rw [hc, Bool.or_true]
        rw [readAll_copies hc, host_documented]
        refine ⟨fun h => kept_append_touched ht fun _ => h, fun h => ?_⟩
        exact h es e [] rfl hc fun mid e' post' hnil => absurd hnil (by simp)
      · rw [Bool.not_eq_true] at hc
        have ht : e.touches (g es.length) t l = false := by
          unfold TypeLimits.touches
          rw [hs, hc]
          rfl
        rw [readAll_not_touches ht, ih, kept_append_untouched ht]

/-! ## The configuration -/

/-- What is no setting of a pool. -/
def Configs.fixed (cs : Configs) (t : MemType) : Nat × Int × String :=
  ((cs t).minBucketSize, (cs t).poolTrace, (cs t).name)

theorem PoolConfig.fixed_set (c : PoolConfig) (n : Nat) (l : Limit) :
    ((c.set n l).minBucketSize, (c.set n l).poolTrace, (c.set n l).name) =
      (c.minBucketSize, c.poolTrace, c.name) := by
  cases l with
  | maxPoolableSize => rfl
  | capacity => rfl
  | slabMinSize => rfl

theorem assign_fixed {memType : Option MemType} {n : Nat} :
    (assign memType n l cs).fixed t = cs.fixed t := by
  cases memType with
  | none => exact PoolConfig.fixed_set (cs t) n l
  | some t' =>
    show (cs.set t' n l).fixed t = cs.fixed t
    unfold Configs.fixed Configs.set
    split
    next => exact PoolConfig.fixed_set (cs t) n l
    next => rfl

theorem read_fixed : (e.read b l cs).fixed t = cs.fixed t := by
  cases hgiven : e.limits.given l with
  | some v => rw [read_some hgiven, assign_fixed]
  | none =>
    rw [read_none hgiven]
    split
    next => exact PoolConfig.fixed_set (cs t) _ l
    next => rfl

theorem apply_fixed : (e.apply l cs).fixed t = cs.fixed t := by
  unfold TypeLimits.apply
  cases e.limits.given l with
  | none => rfl
  | some v => exact assign_fixed

theorem performed_fixed (es : List TypeLimits) :
    (performed g trace es).fixed t = (defaultConfigs trace).fixed t := by
  induction es using List.reverseRecOn with
  | nil => rfl
  | append_singleton es e ih =>
    rw [performed_append]
    unfold TypeLimits.readAll
    rw [read_fixed, read_fixed, read_fixed, ih]

theorem documented_fixed (es : List TypeLimits) :
    (documented trace es).fixed t = (defaultConfigs trace).fixed t := by
  induction es using List.reverseRecOn with
  | nil => rfl
  | append_singleton es e ih =>
    rw [documented_append]
    unfold TypeLimits.applyAll
    rw [apply_fixed, apply_fixed, apply_fixed, ih]

/-- The configurations of the parser and of the documentation are told apart by a setting. -/
theorem performed_eq_iff : performed g trace es = documented trace es ↔
    ∀ t l, ((performed g trace es) t).get l = ((documented trace es) t).get l := by
  refine ⟨fun h t l => by rw [h], fun h => funext fun t => ?_⟩
  have hfixed := (@performed_fixed t g trace es).trans (documented_fixed es).symm
  unfold Configs.fixed at hfixed
  rw [Prod.mk.injEq, Prod.mk.injEq] at hfixed
  have hmax := h t .maxPoolableSize
  have hcapacity := h t .capacity
  have hslab := h t .slabMinSize
  cases hp : performed g trace es t with
  | mk =>
    cases hd : documented trace es t with
    | mk =>
      rw [hp, hd] at hfixed hmax hcapacity hslab
      rw [PoolConfig.mk.injEq]
      exact ⟨hslab, hmax, hcapacity, hfixed⟩

/-- **Exactly when a configuration of the grammar is read as documented**, the unset flags
holding `g`: the number of every size is an `int`, and every setting of every type is kept. -/
theorem parse_documented (g : Nat → Bool) (d : Settings) (trace : Int) :
    parseDisjointPoolConfig (fun i => some (g i)) d.text trace = .ok (d.meaning trace) ↔
      d.Ints ∧ ∀ t l, Kept g trace d.entries t l := by
  by_cases hint : d.Ints
  · rw [parse_text hint, Except.ok.injEq, AllConfigs.mk.injEq]
    show _ ∧ _ ∧ performed g trace d.entries = documented trace d.entries ↔ _
    rw [performed_eq_iff]
    constructor
    · rintro ⟨-, -, h⟩
      exact ⟨hint, fun t l => (setting_documented t l d.entries).mp (h t l)⟩
    · rintro ⟨-, h⟩
      exact ⟨rfl, rfl, fun t l => (setting_documented t l d.entries).mpr (h t l)⟩
  · rw [parse_long hint]
    constructor
    · intro h
      cases h
    · intro h
      exact absurd h.1 hint

/-- A size without a suffix. -/
def plainSize (digits : Str) (h : digits.all Char.isDigit = true ∧ digits ≠ [] ∧
    decimal digits * 1 < 2 ^ 64) : Size :=
  ⟨digits, none, h.1, h.2.1, fun _ hc => absurd hc (by simp), h.2.2⟩

/-- A size with a suffix. -/
def suffixedSize (digits : Str) (c : Char) (h : digits.all Char.isDigit = true ∧ digits ≠ [] ∧
    (unitOf c).isSome = true ∧ decimal digits * (unitOf c).getD 1 < 2 ^ 64) : Size :=
  ⟨digits, some c, h.1, h.2.1, fun _ hc => Option.some.inj hc ▸ h.2.2.1, h.2.2.2⟩

/-- `1M,,64K`. -/
def withoutCapacity : TypeLimits :=
  ⟨none, some (suffixedSize ['1'] 'M' (by decide)),
    some (none, some (some (suffixedSize ['6', '4'] 'K' (by decide))))⟩

/-- `1;32M;1M,,64K`. -/
def omittedCapacity : Settings :=
  ⟨some (plainSize ['1'] (by decide)),
    some (some (suffixedSize ['3', '2'] 'M' (by decide)), [withoutCapacity])⟩

/-- `1;4294967296`. -/
def fourGigabytes : Settings :=
  ⟨some (plainSize ['1'] (by decide)),
    some (some (plainSize "4294967296".toList (by decide)), [])⟩

theorem withoutCapacity_shared (b : Bool) :
    ((withoutCapacity.readAll b (defaultConfigs 0)) .shared).capacity = 4 :=
  @readAll_copies b withoutCapacity .shared .capacity (defaultConfigs 0) rfl

/-- Whatever the unset flags hold, the omitted capacity of `1;32M;1M,,64K` turns the pools of
shared memory on, with the host's capacity, and a pool size of 4 GB is no `int`. -/
theorem parse_undocumented :
    (omittedCapacity.text = "1;32M;1M,,64K".toList ∧ ∀ g : Nat → Bool,
      parseDisjointPoolConfig (fun i => some (g i)) omittedCapacity.text 0 ≠
        .ok (omittedCapacity.meaning 0)) ∧
    (fourGigabytes.text = "1;4294967296".toList ∧ ∀ g : Nat → Bool,
      parseDisjointPoolConfig (fun i => some (g i)) fourGigabytes.text 0 ≠
        .ok (fourGigabytes.meaning 0)) := by
  refine ⟨⟨by decide, fun g h => ?_⟩, by decide, fun g h => ?_⟩
  · have hint : omittedCapacity.Ints := by
      refine ⟨fun v hv => ?_, fun v hv => ?_, ?_⟩
      · obtain rfl := Option.some.inj hv
        decide
      · obtain rfl := Option.some.inj hv
        decide
      · show ∀ e ∈ [withoutCapacity], ∀ v ∈ e.limits.sizes, decimal v.digits < 2 ^ 31
        decide
    rw [parse_text hint] at h
    have hcapacity : ((withoutCapacity.readAll (g 0) (defaultConfigs 0)) .shared).capacity =
        ((documented 0 [withoutCapacity]) .shared).capacity :=
      congrArg (fun r : AllConfigs => (r.configs .shared).capacity) (Except.ok.inj h)
    rw [withoutCapacity_shared] at hcapacity
    exact absurd hcapacity (by decide)
  · have hlong : ¬ fourGigabytes.Ints := by
      rintro ⟨-, hlong, -⟩
      exact absurd (hlong _ rfl) (by decide)
    rw [parse_long hlong] at h
    cases h

end UnifiedRuntime.Pools
