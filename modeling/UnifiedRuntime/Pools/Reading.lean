import UnifiedRuntime.Pools.Config

/-!
# What the pieces of a pool configuration are read as

The loop over `Start` and `End` cuts the string around `;` and the three calls of
`ParamParser` cut a list of limits around `,`. Between them `GetValue` takes up to three
suffix letters off the end of a text, a `k`, then an `m`, then a `g`, and converts what is
left if it has only digits.

- `paramsFrom_eq`: the pieces are those of `splitOn`.
- `getValue_number`, `getValue_other`: every text is digits and suffix letters, and then what
  is read is known, or it is not, and then the setting stays.
- `memBlock_given`, `memBlock_omitted`, `memBlock_nil`: a block of `MemParser`, by what stands
  at the start of the string.
-/

namespace UnifiedRuntime.Pools

open Str

/-- A string has a first delimiter or none. -/
theorem first_delim (c : Char) (s : Str) :
    c ∉ s ∨ ∃ a rest, s = a ++ c :: rest ∧ c ∉ a := by
  by_cases h : c ∈ s
  · obtain ⟨a, rest, hs, ha⟩ := List.eq_append_cons_of_mem h
    exact Or.inr ⟨a, rest, hs, ha⟩
  · exact Or.inl h

/-- The main loop cuts the text at its semicolons. -/
theorem paramsFrom_append (s : Str) : ∀ pre : Str,
    paramsFrom (pre ++ s) pre.length = s.splitOn ';' := by
  induction h : s.length using Nat.strong_induction_on generalizing s with
  | _ n ih =>
    intro pre
    unfold paramsFrom
    rcases first_delim ';' s with hs | ⟨a, rest, rfl, ha⟩
    · have hfind := find_none pre hs
      split
      next =>
        rw [List.splitOn_eq_singleton hs]
        unfold substr
        rw [List.drop_left]
      next stop hstop =>
        rw [hfind] at hstop
        cases hstop
    · have hfind := find_delim pre rest ha
      split
      next hnone =>
        rw [hfind] at hnone
        cases hnone
      next stop hstop =>
        rw [hfind] at hstop
        obtain rfl := Option.some.inj hstop
        rw [List.splitOn_append_cons_self_of_not_mem ha]
        refine congrArg₂ List.cons ?_ ?_
        · unfold substr
          rw [List.drop_left, Nat.add_sub_cancel_left]
          exact List.take_left
        · have hpre : pre ++ (a ++ ';' :: rest) = (pre ++ a ++ [';']) ++ rest := by simp
          have hlen : pre.length + a.length + 1 = (pre ++ a ++ [';']).length := by simp; omega
          rw [hpre, hlen]
          refine ih rest.length ?_ rest rfl _
          rw [← h, List.length_append, List.length_cons]
          omega

/-- **The main loop sees the pieces around `;`.** -/
theorem paramsFrom_eq (config : Str) : paramsFrom config 0 = config.splitOn ';' :=
  paramsFrom_append config []

/-! ## `GetValue` -/

/-- `text` without the letter `c` at its end, and the multiplier. -/
def stripped (c : Char) (unit : Nat) (r : Str × Nat) : Str × Nat :=
  if r.1.getLast?.map Char.toLower = some c then (r.1.dropLast, unit) else r

theorem stripped_concat {c x : Char} {unit m : Nat} {p : Str} :
    stripped c unit (p ++ [x], m) = if x.toLower = c then (p, unit) else (p ++ [x], m) := by
  unfold stripped
  rw [List.getLast?_concat, List.dropLast_concat, Option.map_some]
  simp

theorem stripped_prefix {c : Char} {unit m : Nat} {p : Str} :
    (stripped c unit (p, m)).1 <+: p := by
  unfold stripped
  split
  next => exact List.dropLast_prefix p
  next => exact List.prefix_rfl

theorem stripSuffix_initial {text p : Str} {c : Char} {unit m : Nat} (hp : p <+: text)
    (hne : p ≠ []) : stripSuffix text c unit (p.length, m) =
      .ok ((stripped c unit (p, m)).1.length, (stripped c unit (p, m)).2) := by
  obtain ⟨p, x, rfl⟩ : ∃ p' x, p = p' ++ [x] := ⟨_, _, (List.dropLast_concat_getLast hne).symm⟩
  obtain ⟨rest, rfl⟩ := hp
  have hchar : charBefore (p ++ [x] ++ rest) (p ++ [x]).length = .ok x := by
    unfold charBefore
    have hlen : (p ++ [x]).length = p.length + 1 := by simp
    rw [hlen, if_neg (by omega), Nat.add_sub_cancel]
    have hget : (p ++ [x] ++ rest)[p.length]? = some x := by simp
    rw [hget]
  unfold stripSuffix
  rw [hchar, stripped_concat]
  show Except.ok _ = _
  have hlen : (p ++ [x]).length - 1 = p.length := by simp
  rw [hlen]
  split
  next => rfl
  next => rfl

/-- `GetValue` looks at the first `length` characters only. -/
theorem getValue_initial {text p : Str} (hp : p <+: text) (hne : p ≠ []) (setting : Nat) :
    getValue text p.length setting =
      if (stripped 'k' kb (p, 1)).1 = [] then .error .outOfRange
      else if (stripped 'm' mb (stripped 'k' kb (p, 1))).1 = [] then .error .outOfRange
      else
        let r := stripped 'g' gb (stripped 'm' mb (stripped 'k' kb (p, 1)))
        if r.1.all Char.isDigit then
          match stoi r.1 with
          | .ok n => .ok (n * r.2 % 2 ^ 64)
          | .error e => .error (.exception e)
        else .ok setting := by
  have hk : (stripped 'k' kb (p, 1)).1 <+: text := stripped_prefix.trans hp
  have hm : (stripped 'm' mb (stripped 'k' kb (p, 1))).1 <+: text := stripped_prefix.trans hk
  have hg : (stripped 'g' gb (stripped 'm' mb (stripped 'k' kb (p, 1)))).1 <+: text :=
    stripped_prefix.trans hm
  unfold getValue
  rw [stripSuffix_initial hp hne]
  show (stripSuffix text 'm' mb _ >>= _) = _
  split
  next h =>
    rw [h]
    rfl
  next hne₁ =>
    rw [stripSuffix_initial hk hne₁]
    show (stripSuffix text 'g' gb _ >>= _) = _
    split
    next h =>
      rw [h]
      rfl
    next hne₂ =>
      rw [stripSuffix_initial hm hne₂]
      have hnum : substr text 0
          (some (stripped 'g' gb (stripped 'm' mb (stripped 'k' kb (p, 1)))).1.length) =
          (stripped 'g' gb (stripped 'm' mb (stripped 'k' kb (p, 1)))).1 := by
        obtain ⟨rest, hrest⟩ := hg
        rw [← hrest]
        exact List.take_left
      dsimp only [bind, Except.bind]
      rw [hnum]
      rfl

theorem getValue_take {text p : Str} (hp : p <+: text) (hne : p ≠ []) (setting : Nat) :
    getValue text p.length setting = getValue p p.length setting := by
  rw [getValue_initial hp hne, getValue_initial List.prefix_rfl hne]

/-- The letter `c`, or nothing. -/
def OptLetter (c : Char) (s : Str) : Prop := s = [] ∨ ∃ x, s = [x] ∧ x.toLower = c

/-- What `GetValue` takes off the end of a text. -/
def Letters (s : Str) : Prop :=
  ∃ g m k, s = g ++ m ++ k ∧ OptLetter 'g' g ∧ OptLetter 'm' m ∧ OptLetter 'k' k

/-- The multiplier of a suffix letter. -/
def unitOf (c : Char) : Option Nat :=
  if c.toLower = 'k' then some kb
  else if c.toLower = 'm' then some mb
  else if c.toLower = 'g' then some gb
  else none

/-- The multiplier that the letters leave: that of the first, which is taken off last. -/
def multiplierOf (letters : Str) : Nat := (letters.head?.bind unitOf).getD 1

theorem stripped_digits {c : Char} {unit m : Nat} {digits : Str}
    (hd : digits.all Char.isDigit = true) (hc : c.isDigit = false) :
    stripped c unit (digits, m) = (digits, m) := by
  unfold stripped
  rw [if_neg]
  intro h
  obtain ⟨x, hx, hlower⟩ := Option.map_eq_some_iff.mp h
  have hxd : x.isDigit = true := List.all_eq_true.mp hd x (List.mem_of_getLast? hx)
  rw [toLower_of_isDigit hxd] at hlower
  rw [hlower, hc] at hxd
  cases hxd

theorem stripped_optLetter {c : Char} {unit m : Nat} {p s : Str} (hs : OptLetter c s)
    (hp : stripped c unit (p, m) = (p, m)) :
    stripped c unit (p ++ s, m) = (p, if s = [] then m else unit) := by
  rcases hs with rfl | ⟨x, rfl, hx⟩
  · rw [List.append_nil, hp, if_pos rfl]
  · rw [stripped_concat, if_pos hx, if_neg (by simp)]

/-- The three letters are taken off digits. -/
theorem stripped_all {digits g m k : Str} (hd : digits.all Char.isDigit = true)
    (hg : OptLetter 'g' g) (hm : OptLetter 'm' m) (hk : OptLetter 'k' k) :
    (stripped 'k' kb (digits ++ g ++ m ++ k, 1)).1 = digits ++ g ++ m ∧
    (stripped 'm' mb (stripped 'k' kb (digits ++ g ++ m ++ k, 1))).1 = digits ++ g ∧
    stripped 'g' gb (stripped 'm' mb (stripped 'k' kb (digits ++ g ++ m ++ k, 1))) =
      (digits, multiplierOf (g ++ m ++ k)) := by
  have hk' : stripped 'k' kb (digits ++ g ++ m, 1) = (digits ++ g ++ m, 1) := by
    rcases hm with rfl | ⟨x, rfl, hx⟩
    · rw [List.append_nil]
      rcases hg with rfl | ⟨x, rfl, hx⟩
      · rw [List.append_nil]
        exact stripped_digits hd (by decide)
      · rw [stripped_concat, if_neg (by rw [hx]; decide)]
    · rw [stripped_concat, if_neg (by rw [hx]; decide)]
  have hm' : ∀ n, stripped 'm' mb (digits ++ g, n) = (digits ++ g, n) := by
    intro n
    rcases hg with rfl | ⟨x, rfl, hx⟩
    · rw [List.append_nil]
      exact stripped_digits hd (by decide)
    · rw [stripped_concat, if_neg (by rw [hx]; decide)]
  have hg' : ∀ n, stripped 'g' gb (digits, n) = (digits, n) := fun n =>
    stripped_digits hd (by decide)
  rw [stripped_optLetter hk hk', stripped_optLetter hm (hm' _), stripped_optLetter hg (hg' _)]
  refine ⟨rfl, rfl, congrArg (Prod.mk digits) ?_⟩
  -- the multiplier is the one of the last letter taken off
  unfold multiplierOf
  rcases hg with rfl | ⟨x, rfl, hx⟩
  · rcases hm with rfl | ⟨y, rfl, hy⟩
    · rcases hk with rfl | ⟨z, rfl, hz⟩
      · rfl
      · simp [unitOf, hz]
    · simp [unitOf, hy]
  · simp [unitOf, hx]

/-- Digits and letters: a number, or a fault. -/
theorem getValue_number {digits letters : Str} (hd : digits.all Char.isDigit = true)
    (hl : Letters letters) (hne : digits ++ letters ≠ []) (setting : Nat) :
    (digits = [] → ∃ e, getValue (digits ++ letters) (digits ++ letters).length setting =
      .error e) ∧
    (digits ≠ [] → getValue (digits ++ letters) (digits ++ letters).length setting =
      if decimal digits < 2 ^ 31 then .ok (decimal digits * multiplierOf letters % 2 ^ 64)
      else .error (.exception .outOfRange)) := by
  obtain ⟨g, m, k, rfl, hg, hm, hk⟩ := hl
  have htext : digits ++ (g ++ m ++ k) = digits ++ g ++ m ++ k := by simp
  rw [htext] at hne ⊢
  obtain ⟨h₁, h₂, h₃⟩ := stripped_all hd hg hm hk
  rw [getValue_initial List.prefix_rfl hne, h₁, h₂, h₃]
  constructor
  · rintro rfl
    split
    next => exact ⟨_, rfl⟩
    next =>
      split
      next => exact ⟨_, rfl⟩
      next => exact ⟨.exception .invalidArgument, rfl⟩
  · intro hdigits
    rw [if_neg (by simp [hdigits]), if_neg (by simp [hdigits])]
    rw [if_pos hd]
    unfold stoi
    rw [if_neg (by rwa [List.isEmpty_iff])]
    split
    next n hn =>
      split at hn
      next hlt =>
        obtain rfl := Except.ok.inj hn
        rw [if_pos hlt]
      next => cases hn
    next e he =>
      split at he
      next => cases he
      next hlt =>
        obtain rfl := Except.error.inj he
        rw [if_neg hlt]

theorem stripped_fst {c : Char} {unit m : Nat} {p : Str} :
    ∃ s, p = (stripped c unit (p, m)).1 ++ s ∧ OptLetter c s := by
  unfold stripped
  split
  next h =>
    obtain ⟨x, hx, hc⟩ := Option.map_eq_some_iff.mp h
    refine ⟨[x], ?_, Or.inr ⟨x, rfl, hc⟩⟩
    obtain ⟨p', rfl⟩ := List.getLast?_eq_some_iff.mp hx
    rw [List.dropLast_concat]
  next => exact ⟨[], (List.append_nil p).symm, Or.inl rfl⟩

/-- Any other text leaves the setting. -/
theorem getValue_other {text : Str} (hne : text ≠ [])
    (h : ∀ digits letters, text = digits ++ letters → digits.all Char.isDigit = true →
      ¬ Letters letters) (setting : Nat) : getValue text text.length setting = .ok setting := by
  obtain ⟨k, hk, hk'⟩ := @stripped_fst 'k' kb 1 text
  obtain ⟨m, hm, hm'⟩ := @stripped_fst 'm' mb (stripped 'k' kb (text, 1)).2
    (stripped 'k' kb (text, 1)).1
  obtain ⟨g, hg, hg'⟩ := @stripped_fst 'g' gb (stripped 'm' mb (stripped 'k' kb (text, 1))).2
    (stripped 'm' mb (stripped 'k' kb (text, 1))).1
  rw [Prod.mk.eta] at hm hg
  have hnum : ¬ (stripped 'g' gb (stripped 'm' mb (stripped 'k' kb (text, 1)))).1.all
      Char.isDigit = true := by
    intro hall
    refine h _ (g ++ m ++ k) ?_ hall ⟨g, m, k, rfl, hg', hm', hk'⟩
    rw [← List.append_assoc, ← List.append_assoc, ← hg, ← hm, ← hk]
  -- so what is left is not empty, and nothing before it was
  have hleft : (stripped 'g' gb (stripped 'm' mb (stripped 'k' kb (text, 1)))).1 ≠ [] := by
    intro h0
    rw [h0] at hnum
    exact hnum rfl
  have h₂ : (stripped 'm' mb (stripped 'k' kb (text, 1))).1 ≠ [] := by
    intro h0
    rw [h0] at hg
    exact hleft (List.append_eq_nil_iff.mp hg.symm).1
  have h₁ : (stripped 'k' kb (text, 1)).1 ≠ [] := by
    intro h0
    rw [h0] at hm
    exact h₂ (List.append_eq_nil_iff.mp hm.symm).1
  rw [getValue_initial List.prefix_rfl hne, if_neg h₁, if_neg h₂]
  rw [if_neg hnum]

/-! ## The size a text writes -/

/-- The decimal number times the multiplier of the suffix, if the text is that. -/
def writtenSize (text : Str) : Option Nat :=
  match text.getLast?.bind unitOf with
  | some unit =>
    if text.dropLast ≠ [] ∧ text.dropLast.all Char.isDigit = true then
      some (decimal text.dropLast * unit)
    else none
  | none =>
    if text ≠ [] ∧ text.all Char.isDigit = true then some (decimal text) else none

theorem unitOf_digit {c : Char} (h : c.isDigit = true) : unitOf c = none := by
  have hne : ∀ d : Char, d.isDigit = false → c ≠ d := by
    rintro d hd rfl
    rw [h] at hd
    cases hd
  unfold unitOf
  rw [toLower_of_isDigit h, if_neg (hne _ (by decide)), if_neg (hne _ (by decide)),
    if_neg (hne _ (by decide))]

theorem isDigit_of_unitOf {c : Char} {unit : Nat} (h : unitOf c = some unit) :
    c.isDigit = false := by
  by_contra hd
  rw [Bool.not_eq_false] at hd
  rw [unitOf_digit hd] at h
  cases h

theorem unitOf_le {c : Char} {unit : Nat} (h : unitOf c = some unit) : unit ≤ 2 ^ 30 := by
  unfold unitOf at h
  split at h
  next =>
    obtain rfl := Option.some.inj h
    decide
  next =>
    split at h
    next =>
      obtain rfl := Option.some.inj h
      decide
    next =>
      split at h
      next =>
        obtain rfl := Option.some.inj h
        decide
      next => cases h

theorem writtenSize_digits {digits : Str} (hd : digits.all Char.isDigit = true)
    (hne : digits ≠ []) : writtenSize digits = some (decimal digits) := by
  have hlast : digits.getLast?.bind unitOf = none := by
    cases hx : digits.getLast? with
    | none => rfl
    | some x => exact unitOf_digit (List.all_eq_true.mp hd x (List.mem_of_getLast? hx))
  unfold writtenSize
  rw [hlast]
  exact if_pos ⟨hne, hd⟩

theorem writtenSize_suffix {digits : Str} {x : Char} {unit : Nat} (hx : unitOf x = some unit) :
    writtenSize (digits ++ [x]) =
      if digits ≠ [] ∧ digits.all Char.isDigit = true then some (decimal digits * unit)
      else none := by
  unfold writtenSize
  rw [List.getLast?_concat, Option.bind_some, hx, List.dropLast_concat]

/-- What is a size is digits with at most one letter behind them. -/
theorem writtenSize_isSome {text : Str} {n : Nat} (h : writtenSize text = some n) :
    ∃ digits letters, text = digits ++ letters ∧ digits ≠ [] ∧ digits.all Char.isDigit = true ∧
      (letters = [] ∨ ∃ x unit, letters = [x] ∧ unitOf x = some unit) := by
  unfold writtenSize at h
  split at h
  next unit hu =>
    split at h
    next hd =>
      obtain ⟨x, hx, hux⟩ := Option.bind_eq_some_iff.mp hu
      obtain ⟨text', rfl⟩ := List.getLast?_eq_some_iff.mp hx
      rw [List.dropLast_concat] at hd
      exact ⟨text', [x], rfl, hd.1, hd.2, Or.inr ⟨x, unit, rfl, hux⟩⟩
    next => cases h
  next =>
    split at h
    next hd => exact ⟨text, [], (List.append_nil text).symm, hd.1, hd.2, Or.inl rfl⟩
    next => cases h

theorem unitOf_eq {c x : Char} (hx : x.toLower = c) :
    (c = 'k' → unitOf x = some kb) ∧ (c = 'm' → unitOf x = some mb) ∧
      (c = 'g' → unitOf x = some gb) := by
  unfold unitOf
  rw [hx]
  refine ⟨?_, ?_, ?_⟩
  · rintro rfl
    rfl
  · rintro rfl
    rfl
  · rintro rfl
    rfl

/-- A letter that is taken off has a multiplier. -/
theorem Letters.unit {letters : Str} (h : Letters letters) :
    ∀ x ∈ letters, ∃ unit, unitOf x = some unit := by
  obtain ⟨g, m, k, rfl, hg, hm, hk⟩ := h
  intro x hx
  rw [List.mem_append, List.mem_append] at hx
  rcases hx with (hx | hx) | hx
  · rcases hg with rfl | ⟨y, rfl, hy⟩
    · cases hx
    · exact ⟨gb, (unitOf_eq (List.mem_singleton.mp hx ▸ hy)).2.2 rfl⟩
  · rcases hm with rfl | ⟨y, rfl, hy⟩
    · cases hx
    · exact ⟨mb, (unitOf_eq (List.mem_singleton.mp hx ▸ hy)).2.1 rfl⟩
  · rcases hk with rfl | ⟨y, rfl, hy⟩
    · cases hx
    · exact ⟨kb, (unitOf_eq (List.mem_singleton.mp hx ▸ hy)).1 rfl⟩

theorem letters_nil : Letters [] := ⟨[], [], [], rfl, Or.inl rfl, Or.inl rfl, Or.inl rfl⟩

theorem letters_singleton {x : Char} {unit : Nat} (h : unitOf x = some unit) : Letters [x] := by
  unfold unitOf at h
  split at h
  next hk => exact ⟨[], [], [x], rfl, Or.inl rfl, Or.inl rfl, Or.inr ⟨x, rfl, hk⟩⟩
  next =>
    split at h
    next hm => exact ⟨[], [x], [], rfl, Or.inl rfl, Or.inr ⟨x, rfl, hm⟩, Or.inl rfl⟩
    next =>
      split at h
      next hg => exact ⟨[x], [], [], rfl, Or.inr ⟨x, rfl, hg⟩, Or.inl rfl, Or.inl rfl⟩
      next => cases h

/-- The number in front of at most one letter. -/
theorem writtenSize_letters {digits letters : Str} (hd : digits.all Char.isDigit = true)
    (hne : digits ≠ []) (hl : Letters letters) (hlen : letters.length ≤ 1) :
    writtenSize (digits ++ letters) = some (decimal digits * multiplierOf letters) ∧
      multiplierOf letters ≤ 2 ^ 30 := by
  cases letters with
  | nil =>
    rw [List.append_nil, writtenSize_digits hd hne]
    refine ⟨?_, by decide⟩
    show some (decimal digits) = some (decimal digits * 1)
    rw [Nat.mul_one]
  | cons x rest =>
    obtain rfl : rest = [] := List.length_eq_zero_iff.mp (by rw [List.length_cons] at hlen; omega)
    obtain ⟨unit, hu⟩ := hl.unit x List.mem_cons_self
    have hm : multiplierOf [x] = unit := by
      unfold multiplierOf
      rw [List.head?_cons, Option.bind_some, hu]
      rfl
    rw [writtenSize_suffix hu, if_pos ⟨hne, hd⟩, hm]
    exact ⟨rfl, unitOf_le hu⟩

/-- Two letters behind a number are no suffix. -/
theorem writtenSize_two {digits letters : Str} (hl : Letters letters)
    (hlen : 1 < letters.length) : writtenSize (digits ++ letters) = none := by
  have hne : letters ≠ [] := by
    rintro rfl
    cases hlen
  obtain ⟨init, x, rfl⟩ : ∃ init x, letters = init ++ [x] :=
    ⟨_, _, (List.dropLast_concat_getLast hne).symm⟩
  obtain ⟨unit, hu⟩ := hl.unit x (List.mem_append_right _ List.mem_cons_self)
  rw [← List.append_assoc, writtenSize_suffix hu, if_neg]
  rintro ⟨-, hall⟩
  obtain ⟨y, hy⟩ := List.exists_mem_of_length_pos (l := init) (by
    rw [List.length_append, List.length_singleton] at hlen
    omega)
  obtain ⟨unit', hu'⟩ := hl.unit y (List.mem_append_left _ hy)
  have hyd := List.all_eq_true.mp hall y (List.mem_append_right _ hy)
  rw [isDigit_of_unitOf hu'] at hyd
  cases hyd

/-- A text without a fault and without a surprise: if it is digits and suffix letters, there are
digits, at most one letter, and the number is an `int`. -/
def Good (text : Str) : Prop :=
  ∀ digits letters, text = digits ++ letters → digits.all Char.isDigit = true →
    Letters letters → digits ≠ [] ∧ letters.length ≤ 1 ∧ decimal digits < 2 ^ 31

/-- **A good text is read as the size it writes**, and as the setting before if it writes none. -/
theorem getValue_good {text : Str} (hne : text ≠ []) (h : Good text) (setting : Nat) :
    getValue text text.length setting = .ok ((writtenSize text).getD setting) := by
  by_cases hshape : ∃ digits letters, text = digits ++ letters ∧
      digits.all Char.isDigit = true ∧ Letters letters
  · obtain ⟨digits, letters, rfl, hd, hl⟩ := hshape
    obtain ⟨hdigits, hlen, hlt⟩ := h digits letters rfl hd hl
    obtain ⟨hsize, hmult⟩ := writtenSize_letters hd hdigits hl hlen
    rw [(getValue_number hd hl hne setting).2 hdigits, if_pos hlt, hsize]
    have hmul : decimal digits * multiplierOf letters ≤ 2 ^ 31 * 2 ^ 30 :=
      Nat.mul_le_mul hlt.le hmult
    rw [Nat.mod_eq_of_lt (by omega)]
    rfl
  · have hother : ∀ digits letters, text = digits ++ letters →
        digits.all Char.isDigit = true → ¬ Letters letters := by
      intro digits letters htext hd hl
      exact hshape ⟨digits, letters, htext, hd, hl⟩
    have hnone : writtenSize text = none := by
      by_contra hsome
      obtain ⟨n, hn⟩ := Option.ne_none_iff_exists'.mp hsome
      obtain ⟨digits, letters, htext, -, hd, hl⟩ := writtenSize_isSome hn
      refine hother digits letters htext hd ?_
      rcases hl with rfl | ⟨x, unit, rfl, hu⟩
      · exact letters_nil
      · exact letters_singleton hu
    rw [getValue_other hne hother, hnone]
    rfl

/-- **`GetValue` makes of a text the size it writes, or leaves the setting, exactly if the text
is good.** -/
theorem getValue_exact {text : Str} (hne : text ≠ []) :
    (∀ setting, getValue text text.length setting = .ok ((writtenSize text).getD setting)) ↔
      Good text := by
  refine ⟨fun h digits letters htext hd hl => ?_, fun h => getValue_good hne h⟩
  subst htext
  have hdigits : digits ≠ [] := by
    intro h0
    obtain ⟨e, he⟩ := (getValue_number hd hl hne 0).1 h0
    rw [h 0] at he
    cases he
  have hvalue := fun setting => (getValue_number hd hl hne setting).2 hdigits
  have hlt : decimal digits < 2 ^ 31 := by
    by_contra hge
    have h0 := hvalue 0
    rw [h 0, if_neg hge] at h0
    cases h0
  refine ⟨hdigits, ?_, hlt⟩
  by_contra hlen
  have hnone := @writtenSize_two digits letters hl (by omega)
  -- the value does not depend on the setting, but leaving the setting does
  have h0 := hvalue 0
  have h1 := hvalue 1
  rw [h 0, hnone, if_pos hlt] at h0
  rw [h 1, hnone, if_pos hlt] at h1
  have h01 := Except.ok.inj (h0.trans h1.symm)
  cases h01

/-! ## The blocks of `MemParser` -/

@[simp] theorem PoolConfig.set_get (c : PoolConfig) (l : Limit) : c.set (c.get l) l = c := by
  cases l with
  | maxPoolableSize => rfl
  | capacity => rfl
  | slabMinSize => rfl

@[simp] theorem PoolConfig.get_set (c : PoolConfig) (n : Nat) (l l' : Limit) :
    (c.set n l).get l' = if l' = l then n else c.get l' := by
  cases l with
  | maxPoolableSize => cases l' <;> rfl
  | capacity => cases l' <;> rfl
  | slabMinSize => cases l' <;> rfl

theorem Configs.set_get (cs : Configs) (t : MemType) (l : Limit) :
    cs.set t ((cs t).get l) l = cs := by
  funext t'
  unfold Configs.set
  split
  next h =>
    rw [h]
    exact PoolConfig.set_get _ l
  next => rfl

/-- A setting for one memory type, or for all. -/
def assign (memType : Option MemType) (n : Nat) (l : Limit) (cs : Configs) : Configs :=
  match memType with
  | some t => cs.set t n l
  | none => cs.setAll n l

/-- What the host has, for every memory type. -/
def copyHost (l : Limit) (cs : Configs) : Configs := cs.setAll ((cs .host).get l) l

/-- A first piece and what follows its comma. -/
def joined (a : Str) : Option Str → Str
  | none => a
  | some rest => a ++ ',' :: rest

theorem exists_joined (params : Str) : ∃ a tail, params = joined a tail ∧ ',' ∉ a := by
  rcases first_delim ',' params with h | ⟨a, rest, rfl, ha⟩
  · exact ⟨params, none, rfl, h⟩
  · exact ⟨a, some rest, rfl, ha⟩

theorem joined_ne_nil {a : Str} (hne : a ≠ []) (tail : Option Str) : joined a tail ≠ [] := by
  cases tail with
  | none => exact hne
  | some rest => exact List.append_ne_nil_of_left_ne_nil hne _

theorem find_joined {a rest : Str} (ha : ',' ∉ a) :
    find (joined a (some rest)) ',' 0 = some a.length := by
  have h := find_delim [] rest ha
  rw [List.length_nil, Nat.zero_add] at h
  exact h

theorem drop_joined (a rest : Str) : (joined a (some rest)).drop (a.length + 1) = rest := by
  show (a ++ ',' :: rest).drop (a.length + 1) = rest
  simp

/-- A piece that is given, whatever becomes of its text. -/
theorem paramParser_given {a : Str} {tail : Option Str} (ha : ',' ∉ a) (hne : a ≠ [])
    (setting : Nat) (flag : Option Bool) : paramParser (joined a tail) setting flag =
      (getValue a a.length setting >>= fun n =>
        pure ⟨tail.getD a, n, some true, tail.isSome⟩) := by
  have hlen : (joined a tail).length ≠ 0 := by
    rw [Ne, List.length_eq_zero_iff]
    exact joined_ne_nil hne tail
  unfold paramParser
  rw [if_neg hlen]
  cases tail with
  | none =>
    have hnone := find_none [] ha
    rw [List.nil_append, List.length_nil] at hnone
    show (match find a ',' 0 with | some pos => _ | none => _) = _
    rw [hnone]
    rfl
  | some rest =>
    have hpre : a <+: joined a (some rest) := List.prefix_append a _
    rw [find_joined ha]
    dsimp only
    rw [if_pos (List.length_pos_iff.mpr hne), getValue_take hpre hne, drop_joined]
    rfl

theorem paramParser_omitted (rest : Str) (setting : Nat) (flag : Option Bool) :
    paramParser (joined [] (some rest)) setting flag = .ok ⟨rest, setting, flag, true⟩ := by
  rfl

theorem paramParser_nil (setting : Nat) (flag : Option Bool) :
    paramParser (joined [] none) setting flag = .ok ⟨[], setting, some false, false⟩ := rfl

variable {unset : Option Bool} {memType : Option MemType} {l : Limit} {s : MemState}

theorem memBlock_given {a : Str} {tail : Option Str} {n : Nat} (hp : s.params = joined a tail)
    (ha : ',' ∉ a) (hne : a ≠ [])
    (hv : getValue a a.length ((s.configs (memType.getD .host)).get l) = .ok n) :
    memBlock unset memType l s =
      .ok ⟨tail.getD a, assign memType n l s.configs, some true, tail.isSome⟩ := by
  unfold memBlock
  dsimp only
  rw [hp, paramParser_given ha hne, hv]
  cases memType with
  | some t => rfl
  | none =>
    show Except.ok (MemState.mk _ ((s.configs.set .host n l).setAll
      (((s.configs.set .host n l) .host).get l) l) _ _) = _
    have hhost : ((s.configs.set .host n l) .host).get l = n := by
      unfold Configs.set
      rw [if_pos rfl, PoolConfig.get_set, if_pos rfl]
    have hall : (s.configs.set .host n l).setAll n l = s.configs.setAll n l := by
      funext t
      unfold Configs.setAll Configs.set
      split
      next => cases l <;> rfl
      next => rfl
    rw [hhost, hall]
    rfl

theorem memBlock_fails {a : Str} {tail : Option Str} {e : PoolFault}
    (hp : s.params = joined a tail) (ha : ',' ∉ a) (hne : a ≠ [])
    (hv : getValue a a.length ((s.configs (memType.getD .host)).get l) = .error e) :
    memBlock unset memType l s = .error e := by
  unfold memBlock
  dsimp only
  rw [hp, paramParser_given ha hne, hv]
  rfl

/-- Nothing before a comma: the flag is what it was. -/
theorem memBlock_omitted {rest : Str} (hp : s.params = joined [] (some rest)) :
    memBlock unset memType l s = (readFlag unset s.paramWasSet >>= fun b =>
      pure ⟨rest, if b && memType.isNone then copyHost l s.configs else s.configs,
        s.paramWasSet, true⟩) := by
  unfold memBlock
  dsimp only
  rw [hp, paramParser_omitted]
  show (readFlag unset s.paramWasSet >>= _) = _
  refine congrArg (readFlag unset s.paramWasSet >>= ·) (funext fun b => ?_)
  rw [Configs.set_get]
  cases memType with
  | some t => simp
  | none => rfl

theorem memBlock_nil (hp : s.params = joined [] none) :
    memBlock unset memType l s = .ok ⟨[], s.configs, some false, false⟩ := by
  unfold memBlock
  dsimp only
  rw [hp, paramParser_nil]
  dsimp only [readFlag, bind, Except.bind, Option.or]
  rw [Configs.set_get]
  rfl

end UnifiedRuntime.Pools
