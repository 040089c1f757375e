import UnifiedRuntime.Lib.Except
import UnifiedRuntime.Pools.Reading

/-!
# Pool configurations of the documented grammar

    [EnableBuffers][;[MaxPoolSize][;memtypelimits]...]
    memtypelimits: [<memtype>:]<limits>
    limits:        [MaxPoolableSize][,[Capacity][,[SlabMinSize]]]

A configuration is a term of this grammar, with its text and with what it means: the defaults,
and every setting that is given in the order in which it is given.

`MemParser` keeps one flag for the three settings. In an entry without a memory type, a setting
that is left out before a comma is taken as given if the flag is still up from the setting
before it (or, for the first setting, if the storage of the flag happens to hold `true`), and
then the host's value goes to every memory type.

- `memParser_text`: what an entry does.
- `paramsFrom_text`: the pieces of the string are those of the grammar.
- `parse_text`, `parse_long`: what the parser returns, unless a number is no `int`.
-/

namespace UnifiedRuntime.Pools

open Str

/-! ## The grammar -/

/-- A size, which fits into its setting. -/
structure Size where
  digits : Str
  suffix : Option Char
  isDigits : digits.all Char.isDigit = true
  nonempty : digits ≠ []
  isSuffix : ∀ c ∈ suffix, (unitOf c).isSome = true
  fits : decimal digits * (suffix.bind unitOf).getD 1 < 2 ^ 64

def Size.text (v : Size) : Str := v.digits ++ v.suffix.toList

def Size.value (v : Size) : Nat := decimal v.digits * (v.suffix.bind unitOf).getD 1

/-- A size that may be left out. -/
def sizeText (x : Option Size) : Str := x.elim [] Size.text

/-- `[MaxPoolableSize][,[Capacity][,[SlabMinSize]]]`. -/
structure Limits where
  maxPoolableSize : Option Size
  rest : Option (Option Size × Option (Option Size))

def Limits.tail (ls : Limits) : Option Str :=
  ls.rest.map fun r => joined (sizeText r.1) (r.2.map sizeText)

def Limits.text (ls : Limits) : Str := joined (sizeText ls.maxPoolableSize) ls.tail

/-- The setting that is given. -/
def Limits.given (ls : Limits) : Limit → Option Size
  | .maxPoolableSize => ls.maxPoolableSize
  | .capacity => ls.rest.bind (·.1)
  | .slabMinSize => (ls.rest.bind (·.2)).join

/-- `[<memtype>:]<limits>`. -/
structure TypeLimits where
  memType : Option MemType
  limits : Limits

/-- The memory type and its colon. -/
def typeText : Option MemType → Str
  | some .host => "host:".toList
  | some .device => "device:".toList
  | some .shared => "shared:".toList
  | some .sharedReadOnly => "read_only_shared:".toList
  | none => []

def TypeLimits.text (e : TypeLimits) : Str := typeText e.memType ++ e.limits.text

/-- `[EnableBuffers][;[MaxPoolSize][;memtypelimits]...]`. -/
structure Settings where
  enableBuffers : Option Size
  rest : Option (Option Size × List TypeLimits)

/-- The pieces around `;`. -/
def Settings.pieces (d : Settings) : List Str :=
  sizeText d.enableBuffers ::
    (d.rest.elim [] fun r => sizeText r.1 :: r.2.map TypeLimits.text)

def Settings.text (d : Settings) : Str := List.intercalate [';'] d.pieces

def Settings.entries (d : Settings) : List TypeLimits := d.rest.elim [] (·.2)

def Settings.maxPoolSize (d : Settings) : Option Size := d.rest.bind (·.1)

/-! ## What it means -/

/-- A setting that is given replaces the old one, for its memory type or for all. -/
def TypeLimits.apply (e : TypeLimits) (l : Limit) (cs : Configs) : Configs :=
  (e.limits.given l).elim cs fun v => assign e.memType v.value l cs

def TypeLimits.applyAll (e : TypeLimits) (cs : Configs) : Configs :=
  e.apply .slabMinSize (e.apply .capacity (e.apply .maxPoolableSize cs))

/-- The settings after some entries. -/
def documented (trace : Int) (es : List TypeLimits) : Configs :=
  es.foldl (fun cs e => e.applyAll cs) (defaultConfigs trace)

/-- **What a configuration means.** -/
def Settings.meaning (d : Settings) (trace : Int) : AllConfigs where
  enableBuffers := d.enableBuffers.elim 1 Size.value
  limits := d.maxPoolSize.elim sizeMax Size.value
  configs := documented trace d.entries

/-! ## What the parser makes of it -/

/-- The entry gives the host's setting to every memory type, although it does not give the
setting. The flag holds `b` before it is set. -/
def TypeLimits.copies (b : Bool) (e : TypeLimits) : Limit → Bool
  | .maxPoolableSize =>
    e.memType.isNone && b && e.limits.maxPoolableSize.isNone && e.limits.rest.isSome
  | .capacity =>
    match e.limits.rest with
    | some (none, some _) => e.memType.isNone && (e.limits.maxPoolableSize.isSome || b)
    | _ => false
  | .slabMinSize => false

def TypeLimits.read (b : Bool) (e : TypeLimits) (l : Limit) (cs : Configs) : Configs :=
  match e.limits.given l with
  | some v => assign e.memType v.value l cs
  | none => if e.copies b l then copyHost l cs else cs

def TypeLimits.readAll (b : Bool) (e : TypeLimits) (cs : Configs) : Configs :=
  e.read b .slabMinSize (e.read b .capacity (e.read b .maxPoolableSize cs))

/-- The entries from the `i`-th on. -/
def readEntries (unset : Nat → Bool) (i : Nat) : List TypeLimits → Configs → Configs
  | [], cs => cs
  | e :: es, cs => readEntries unset (i + 1) es (e.readAll (unset i) cs)

/-! ## Texts -/

theorem Size.letters (v : Size) : Letters v.suffix.toList := by
  cases h : v.suffix with
  | none => exact letters_nil
  | some c =>
    obtain ⟨unit, hu⟩ := Option.isSome_iff_exists.mp (v.isSuffix c h)
    exact letters_singleton hu

theorem Size.text_ne_nil (v : Size) : v.text ≠ [] :=
  List.append_ne_nil_of_left_ne_nil v.nonempty _

theorem Size.multiplier (v : Size) :
    multiplierOf v.suffix.toList = (v.suffix.bind unitOf).getD 1 := by
  cases v.suffix with
  | none => rfl
  | some c => rfl

/-- **The value of a size, if its number is an `int`.** -/
theorem getValue_size (v : Size) (setting : Nat) :
    getValue v.text v.text.length setting =
      if decimal v.digits < 2 ^ 31 then .ok v.value else .error (.exception .outOfRange) := by
  unfold Size.text
  rw [(getValue_number v.isDigits v.letters v.text_ne_nil setting).2 v.nonempty, v.multiplier,
    Nat.mod_eq_of_lt v.fits]
  rfl

/-- The characters of a size are digits and letters. -/
theorem Size.mem_text {v : Size} {c : Char} (h : c ∈ v.text) :
    c.isDigit = true ∨ (unitOf c).isSome = true := by
  rcases List.mem_append.mp h with hd | hs
  · exact Or.inl (List.all_eq_true.mp v.isDigits c hd)
  · exact Or.inr (v.isSuffix c (Option.mem_toList.mp hs))

theorem not_mem_sizeText {c : Char} (hd : c.isDigit = false) (hu : unitOf c = none)
    (x : Option Size) : c ∉ sizeText x := by
  cases x with
  | none => exact List.not_mem_nil
  | some v =>
    intro h
    rcases Size.mem_text h with h | h
    · rw [hd] at h
      cases h
    · rw [hu] at h
      cases h

theorem comma_not_mem (x : Option Size) : ',' ∉ sizeText x :=
  not_mem_sizeText (by decide) (by decide) x

/-- A size that may be left out passes for a number. -/
theorem isNumber_sizeText (x : Option Size) : isNumber (sizeText x) = true := by
  cases x with
  | none => rfl
  | some v =>
    obtain ⟨c, rest, hc⟩ := List.exists_cons_of_ne_nil v.nonempty
    have hdigit : c.isDigit = true :=
      List.all_eq_true.mp v.isDigits c (hc ▸ List.mem_cons_self)
    show ((v.digits ++ v.suffix.toList).isEmpty ||
      (front (v.digits ++ v.suffix.toList)).isDigit) = true
    rw [hc]
    exact hdigit

/-- `std::stoi` throws from 2^31 on, whatever unit follows the digits. -/
theorem getNumber_sizeText (x : Option Size) (setting : Nat) :
    getNumber (sizeText x) setting =
      if ∀ v ∈ x, decimal v.digits < 2 ^ 31 then .ok (x.elim setting Size.value)
      else .error (.exception .outOfRange) := by
  unfold getNumber
  cases x with
  | none => rfl
  | some v =>
    have hne : ¬ (sizeText (some v)).isEmpty = true := by
      rw [List.isEmpty_iff]
      exact v.text_ne_nil
    rw [if_neg hne]
    show getValue v.text v.text.length setting = _
    rw [getValue_size]
    simp

/-! ## An entry -/

/-- What a block makes of the settings: the size that it reads, or the host's setting. -/
def blockConfigs (memType : Option MemType) (l : Limit) (x : Option Size) (copy : Bool)
    (cs : Configs) : Configs :=
  match x with
  | some v => assign memType v.value l cs
  | none => if copy && memType.isNone then copyHost l cs else cs

/-- The flag after a block. -/
def blockFlag (x : Option Size) (comma : Bool) (flag : Option Bool) : Option Bool :=
  if x.isSome then some true else if comma then flag else some false

variable {b : Bool} {memType : Option MemType} {l : Limit} {s : MemState}

theorem memBlock_size {x : Option Size} {tail : Option Str}
    (hp : s.params = joined (sizeText x) tail) (hint : ∀ v ∈ x, decimal v.digits < 2 ^ 31) :
    memBlock (some b) memType l s = .ok ⟨tail.getD (sizeText x),
      blockConfigs memType l x (tail.isSome && s.paramWasSet.getD b) s.configs,
      blockFlag x tail.isSome s.paramWasSet, tail.isSome⟩ := by
  cases x with
  | some v =>
    have hvalue := getValue_size v ((s.configs (memType.getD .host)).get l)
    rw [if_pos (hint v rfl)] at hvalue
    rw [memBlock_given hp (comma_not_mem _) v.text_ne_nil hvalue]
    rfl
  | none =>
    cases tail with
    | none =>
      rw [memBlock_nil hp]
      rfl
    | some rest =>
      rw [memBlock_omitted hp]
      cases hflag : s.paramWasSet with
      | none => rfl
      | some b' => rfl

/-- A number too long for `std::stoi` ends the parse with its exception. -/
theorem memBlock_long {x : Option Size} {tail : Option Str}
    (hp : s.params = joined (sizeText x) tail) (hint : ¬ ∀ v ∈ x, decimal v.digits < 2 ^ 31) :
    memBlock (some b) memType l s = .error (.exception .outOfRange) := by
  cases x with
  | some v =>
    have hvalue := getValue_size v ((s.configs (memType.getD .host)).get l)
    rw [if_neg fun h => hint (by simpa using h)] at hvalue
    exact memBlock_fails hp (comma_not_mem _) v.text_ne_nil hvalue
  | none => exact absurd (fun v hv => by cases hv) hint

theorem nextBlock_size {x : Option Size} {tail : Option Str} (hmore : s.more = true)
    (hp : s.params = joined (sizeText x) tail) (hint : ∀ v ∈ x, decimal v.digits < 2 ^ 31) :
    nextBlock (some b) memType l s = .ok ⟨tail.getD (sizeText x),
      blockConfigs memType l x (tail.isSome && s.paramWasSet.getD b) s.configs,
      blockFlag x tail.isSome s.paramWasSet, tail.isSome⟩ := by
  unfold nextBlock
  rw [if_pos hmore]
  exact memBlock_size hp hint

theorem nextBlock_long {x : Option Size} {tail : Option Str} (hmore : s.more = true)
    (hp : s.params = joined (sizeText x) tail) (hint : ¬ ∀ v ∈ x, decimal v.digits < 2 ^ 31) :
    nextBlock (some b) memType l s = .error (.exception .outOfRange) := by
  unfold nextBlock
  rw [if_pos hmore]
  exact memBlock_long hp hint

/-- The sizes of an entry. -/
def Limits.sizes (ls : Limits) : List Size :=
  ls.maxPoolableSize.toList ++ (ls.rest.elim [] fun r => r.1.toList ++ r.2.join.toList)

theorem ok_bind {α β ε : Type} (a : α) (f : α → Except ε β) : (Except.ok a >>= f) = f a := rfl

/-- **An entry is read setting by setting.** -/
theorem memParser_text {ls : Limits} (hint : ∀ v ∈ ls.sizes, decimal v.digits < 2 ^ 31)
    (b : Bool) (cs : Configs) (memType : Option MemType) :
    memParser (some b) cs ls.text memType = .ok (TypeLimits.readAll b ⟨memType, ls⟩ cs) := by
  obtain ⟨x₁, rest⟩ := ls
  have h₁ : ∀ v ∈ x₁, decimal v.digits < 2 ^ 31 := fun v hv =>
    hint v (List.mem_append_left _ (Option.mem_toList.mpr hv))
  unfold memParser
  cases rest with
  | none =>
    rw [@memBlock_size b memType .maxPoolableSize ⟨(Limits.mk x₁ none).text, cs, none, true⟩ x₁
      none rfl h₁]
    cases x₁ with
    | some v => rfl
    | none => cases memType <;> cases b <;> rfl
  | some r =>
    obtain ⟨x₂, slab⟩ := r
    have h₂ : ∀ v ∈ x₂, decimal v.digits < 2 ^ 31 := fun v hv =>
      hint v (List.mem_append_right _ (List.mem_append_left _ (Option.mem_toList.mpr hv)))
    rw [@memBlock_size b memType .maxPoolableSize
      ⟨(Limits.mk x₁ (some (x₂, slab))).text, cs, none, true⟩ x₁
      (some (joined (sizeText x₂) (slab.map sizeText))) rfl h₁]
    rw [ok_bind]
    rw [nextBlock_size rfl rfl h₂]
    rw [ok_bind]
    cases slab with
    | none =>
      cases x₁ <;> cases x₂ <;> cases memType <;> cases b <;> rfl
    | some x₃ =>
      have h₃ : ∀ v ∈ x₃, decimal v.digits < 2 ^ 31 := fun v hv =>
        hint v (List.mem_append_right _ (List.mem_append_right _ (Option.mem_toList.mpr hv)))
      rw [@nextBlock_size b memType .slabMinSize _ x₃ none rfl rfl h₃]
      cases x₁ <;> cases x₂ <;> cases x₃ <;> cases memType <;> cases b <;> rfl

/-- A number that is no `int` ends the parser. -/
theorem memParser_long {ls : Limits} (hint : ¬ ∀ v ∈ ls.sizes, decimal v.digits < 2 ^ 31)
    (b : Bool) (cs : Configs) (memType : Option MemType) :
    memParser (some b) cs ls.text memType = .error (.exception .outOfRange) := by
  obtain ⟨x₁, rest⟩ := ls
  unfold memParser
  by_cases h₁ : ∀ v ∈ x₁, decimal v.digits < 2 ^ 31
  · cases rest with
    | none =>
      refine absurd (fun v hv => h₁ v ?_) hint
      rcases List.mem_append.mp hv with hv | hv
      · exact Option.mem_toList.mp hv
      · cases hv
    | some r =>
      obtain ⟨x₂, slab⟩ := r
      rw [@memBlock_size b memType .maxPoolableSize
        ⟨(Limits.mk x₁ (some (x₂, slab))).text, cs, none, true⟩ x₁
        (some (joined (sizeText x₂) (slab.map sizeText))) rfl h₁]
      rw [ok_bind]
      by_cases h₂ : ∀ v ∈ x₂, decimal v.digits < 2 ^ 31
      · rw [nextBlock_size rfl rfl h₂]
        rw [ok_bind]
        have h₃ : ¬ ∀ v ∈ slab.join, decimal v.digits < 2 ^ 31 := by
          intro h₃
          refine hint fun v hv => ?_
          rcases List.mem_append.mp hv with hv | hv
          · exact h₁ v (Option.mem_toList.mp hv)
          · rcases List.mem_append.mp hv with hv | hv
            · exact h₂ v (Option.mem_toList.mp hv)
            · exact h₃ v (Option.mem_toList.mp hv)
        cases slab with
        | none => exact absurd (fun v hv => by cases hv) h₃
        | some x₃ =>
          rw [@nextBlock_long b memType .slabMinSize _ x₃ none rfl rfl h₃]
          rfl
      · rw [nextBlock_long rfl rfl h₂]
        rfl
  · rw [@memBlock_long b memType .maxPoolableSize ⟨(Limits.mk x₁ rest).text, cs, none, true⟩ x₁
      (Limits.mk x₁ rest).tail rfl h₁]
    rfl

/-! ## The string -/

theorem head_of_isPrefixOf {c : Char} {p s : Str} (hp : p.head? = some c)
    (h : p.isPrefixOf s = true) : s.head? = some c := by
  obtain ⟨rest, rfl⟩ := List.isPrefixOf_iff_prefix.mp h
  obtain ⟨c', p', rfl⟩ : ∃ c' p', p = c' :: p' := by
    cases p with
    | nil => cases hp
    | cons c' p' => exact ⟨c', p', rfl⟩
  exact hp

/-- Limits start with a digit or a comma, if with anything. -/
theorem Limits.head_text {ls : Limits} {c : Char} (h : ls.text.head? = some c) :
    c.isDigit = true ∨ c = ',' := by
  obtain ⟨x₁, rest⟩ := ls
  cases x₁ with
  | some v =>
    obtain ⟨c', digits, hc⟩ := List.exists_cons_of_ne_nil v.nonempty
    have hhead : (Limits.mk (some v) rest).text.head? = some c' := by
      show (joined (v.digits ++ v.suffix.toList) _).head? = some c'
      rw [hc]
      cases rest <;> rfl
    rw [hhead] at h
    obtain rfl := Option.some.inj h
    exact Or.inl (List.all_eq_true.mp v.isDigits _ (hc ▸ List.mem_cons_self))
  | none =>
    cases rest with
    | none => cases h
    | some r => exact Or.inr (Option.some.inj h).symm

theorem Limits.not_isPrefixOf {ls : Limits} {c : Char} {p : Str} (hp : p.head? = some c)
    (hd : c.isDigit = false) (hc : c ≠ ',') : ¬ p.isPrefixOf ls.text = true := by
  intro h
  rcases ls.head_text (head_of_isPrefixOf hp h) with hdigit | hcomma
  · rw [hd] at hdigit
    cases hdigit
  · exact hc hcomma

/-- The memory type is told from what follows it. -/
theorem memTypeOf_text (e : TypeLimits) : memTypeOf e.text = (e.memType, e.limits.text) := by
  obtain ⟨memType, ls⟩ := e
  cases memType with
  | some t =>
    cases t with
    | host => rfl
    | device => rfl
    | shared => rfl
    | sharedReadOnly => rfl
  | none =>
    have hhost : ¬ "host:".toList.isPrefixOf ls.text = true :=
      Limits.not_isPrefixOf rfl (by decide) (by decide)
    have hdevice : ¬ "device:".toList.isPrefixOf ls.text = true :=
      Limits.not_isPrefixOf rfl (by decide) (by decide)
    have hshared : ¬ "shared:".toList.isPrefixOf ls.text = true :=
      Limits.not_isPrefixOf rfl (by decide) (by decide)
    have hread : ¬ "read_only_shared:".toList.isPrefixOf ls.text = true :=
      Limits.not_isPrefixOf rfl (by decide) (by decide)
    show memTypeOf ls.text = (none, ls.text)
    unfold memTypeOf
    rw [if_neg hhost, if_neg hdevice, if_neg hshared, if_neg hread]

theorem semicolon_not_mem_joined {a : Str} {tail : Option Str} (ha : ';' ∉ a)
    (htail : ∀ rest ∈ tail, ';' ∉ rest) : ';' ∉ joined a tail := by
  cases tail with
  | none => exact ha
  | some rest =>
    intro h
    rcases List.mem_append.mp h with h | h
    · exact ha h
    · rcases List.mem_cons.mp h with h | h
      · cases h
      · exact htail rest rfl h

theorem semicolon_not_mem_text (e : TypeLimits) : ';' ∉ e.text := by
  have hsize : ∀ x : Option Size, ';' ∉ sizeText x := not_mem_sizeText (by decide) (by decide)
  obtain ⟨memType, ⟨x₁, rest⟩⟩ := e
  intro h
  rcases List.mem_append.mp h with h | h
  · have hnot : ∀ t, ';' ∉ typeText t := by
      intro t
      rcases t with _ | t
      · exact List.not_mem_nil
      · cases t <;> decide
    exact hnot memType h
  · refine semicolon_not_mem_joined (hsize x₁) ?_ h
    intro text htext
    obtain ⟨r, -, rfl⟩ := Option.map_eq_some_iff.mp htext
    refine semicolon_not_mem_joined (hsize r.1) ?_
    intro text' htext'
    obtain ⟨x₃, -, rfl⟩ := Option.map_eq_some_iff.mp htext'
    exact hsize x₃

/-- **The loop sees the pieces of the grammar.** -/
theorem paramsFrom_text (d : Settings) : paramsFrom d.text 0 = d.pieces := by
  rw [paramsFrom_eq]
  refine List.splitOn_intercalate ';' ?_ (by simp [Settings.pieces])
  have hsize : ∀ x : Option Size, ';' ∉ sizeText x := not_mem_sizeText (by decide) (by decide)
  intro p hp
  rcases List.mem_cons.mp hp with rfl | hp
  · exact hsize _
  · cases hrest : d.rest with
    | none =>
      rw [hrest] at hp
      cases hp
    | some r =>
      rw [hrest] at hp
      rcases List.mem_cons.mp hp with rfl | hp
      · exact hsize _
      · obtain ⟨e, -, rfl⟩ := List.mem_map.mp hp
        exact semicolon_not_mem_text e

variable {g : Nat → Bool} {st : ParseState}

/-- Behind the two numbers every piece is an entry. -/
theorem parseParam_entry (e : TypeLimits) (hb : st.enableBuffersSet = true)
    (hm : st.maxSizeSet = true) : parseParam (fun i => some (g i)) st e.text =
      if ∀ v ∈ e.limits.sizes, decimal v.digits < 2 ^ 31 then
        .ok { st with configs := e.readAll (g st.limits) st.configs, limits := st.limits + 1 }
      else .error (.exception .outOfRange) := by
  unfold parseParam memTypeParser
  rw [if_neg (by rw [hb]; simp), if_neg (by rw [hm]; simp), memTypeOf_text]
  split
  next hint =>
    rw [memParser_text hint]
    rfl
  next hint =>
    rw [memParser_long hint]
    rfl

/-- **The loop reads the entries in their order.** Once the two leading parameters are set, only
limits are left. -/
theorem loop_entries : ∀ (es : List TypeLimits) {st : ParseState}, st.enableBuffersSet = true →
    st.maxSizeSet = true → (es.map TypeLimits.text).foldlM (parseParam fun i => some (g i)) st =
      if ∀ e ∈ es, ∀ v ∈ e.limits.sizes, decimal v.digits < 2 ^ 31 then
        .ok { st with
          configs := readEntries g st.limits es st.configs, limits := st.limits + es.length }
      else .error (.exception .outOfRange)
  | [], st, _, _ => by
    rfl
  | e :: es, st, hb, hm => by
    rw [List.map_cons, List.foldlM_cons, parseParam_entry e hb hm]
    by_cases hint : ∀ v ∈ e.limits.sizes, decimal v.digits < 2 ^ 31
    · have hrun := @loop_entries es ⟨e.readAll (g st.limits) st.configs, st.enableBuffers,
        st.maxSize, st.enableBuffersSet, st.maxSizeSet, st.limits + 1⟩ hb hm
      rw [if_pos hint, ok_bind, hrun]
      by_cases hrest : ∀ e ∈ es, ∀ v ∈ e.limits.sizes, decimal v.digits < 2 ^ 31
      · rw [if_pos hrest, if_pos (List.forall_mem_cons.mpr ⟨hint, hrest⟩)]
        have hlen : st.limits + 1 + es.length = st.limits + (e :: es).length := by
          rw [List.length_cons]
          omega
        rw [hlen]
        rfl
      · rw [if_neg hrest, if_neg fun h => hrest (List.forall_mem_cons.mp h).2]
    · rw [if_neg hint, if_neg fun h => hint (List.forall_mem_cons.mp h).1]
      rfl

/-- Every number of the configuration is an `int`. -/
def Settings.Ints (d : Settings) : Prop :=
  (∀ v ∈ d.enableBuffers, decimal v.digits < 2 ^ 31) ∧
    (∀ v ∈ d.maxPoolSize, decimal v.digits < 2 ^ 31) ∧
      ∀ e ∈ d.entries, ∀ v ∈ e.limits.sizes, decimal v.digits < 2 ^ 31

/-- The first piece is `EnableBuffers` and the second `MaxPoolSize`. -/
theorem parseParam_first (x : Option Size) (hb : st.enableBuffersSet = false) :
    parseParam (fun i => some (g i)) st (sizeText x) =
      if ∀ v ∈ x, decimal v.digits < 2 ^ 31 then
        .ok { st with
          enableBuffers := x.elim st.enableBuffers Size.value, enableBuffersSet := true }
      else .error (.exception .outOfRange) := by
  unfold parseParam
  rw [if_pos (by rw [hb, isNumber_sizeText]; rfl), getNumber_sizeText]
  split
  next => rfl
  next => rfl

theorem parseParam_second (x : Option Size) (hb : st.enableBuffersSet = true)
    (hm : st.maxSizeSet = false) : parseParam (fun i => some (g i)) st (sizeText x) =
      if ∀ v ∈ x, decimal v.digits < 2 ^ 31 then
        .ok { st with maxSize := x.elim st.maxSize Size.value, maxSizeSet := true }
      else .error (.exception .outOfRange) := by
  unfold parseParam
  rw [if_neg (by rw [hb]; simp), if_pos (by rw [hm, isNumber_sizeText]; rfl), getNumber_sizeText]
  split
  next => rfl
  next => rfl

/-- **What the parser returns**, if the numbers are `int`s … -/
theorem parse_text {d : Settings} (hint : d.Ints) (g : Nat → Bool) (trace : Int) :
    parseDisjointPoolConfig (fun i => some (g i)) d.text trace =
      .ok ⟨d.enableBuffers.elim 1 Size.value, d.maxPoolSize.elim sizeMax Size.value,
        readEntries g 0 d.entries (defaultConfigs trace)⟩ := by
  obtain ⟨eb, rest⟩ := d
  obtain ⟨h₁, h₂, h₃⟩ := hint
  unfold parseDisjointPoolConfig
  rw [paramsFrom_text]
  unfold Settings.pieces
  rw [List.foldlM_cons, parseParam_first eb rfl, if_pos h₁, ok_bind]
  cases rest with
  | none => rfl
  | some r =>
    have hsecond : ∀ v ∈ r.1, decimal v.digits < 2 ^ 31 := h₂
    have hentries : ∀ e ∈ r.2, ∀ v ∈ e.limits.sizes, decimal v.digits < 2 ^ 31 := h₃
    dsimp only [Option.elim]
    rw [List.foldlM_cons, parseParam_second r.1 rfl rfl, if_pos hsecond, ok_bind,
      loop_entries r.2 rfl rfl, if_pos hentries]
    rfl

/-- … and if one is not. -/
theorem parse_long {d : Settings} (hint : ¬ d.Ints) (g : Nat → Bool) (trace : Int) :
    parseDisjointPoolConfig (fun i => some (g i)) d.text trace =
      .error (.exception .outOfRange) := by
  obtain ⟨eb, rest⟩ := d
  unfold parseDisjointPoolConfig
  rw [paramsFrom_text]
  unfold Settings.pieces
  rw [List.foldlM_cons, parseParam_first eb rfl]
  by_cases h₁ : ∀ v ∈ eb, decimal v.digits < 2 ^ 31
  · rw [if_pos h₁, ok_bind]
    cases rest with
    | none =>
      refine absurd ⟨h₁, ?_, ?_⟩ hint
      · intro v hv
        cases hv
      · intro e he
        cases he
    | some r =>
      dsimp only [Option.elim]
      rw [List.foldlM_cons, parseParam_second r.1 rfl rfl]
      by_cases h₂ : ∀ v ∈ r.1, decimal v.digits < 2 ^ 31
      · have h₃ : ¬ ∀ e ∈ r.2, ∀ v ∈ e.limits.sizes, decimal v.digits < 2 ^ 31 :=
          fun h₃ => hint ⟨h₁, h₂, h₃⟩
        rw [if_pos h₂, ok_bind, loop_entries r.2 rfl rfl, if_neg h₃]
        rfl
      · rw [if_neg h₂]
        rfl
  · rw [if_neg h₁]
    rfl

end UnifiedRuntime.Pools
