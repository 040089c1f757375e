import Mathlib.Data.List.Basic
import Mathlib.Tactic.Common

/-!
# Log formatting

`Sink::format` walks a NUL-terminated string with a pointer that it dereferences and increments at
some dozen places. Here every one of them is there, and a pointer that is dereferenced behind the
end of the string stops the run, as does a loop that goes on for too long.

- `scan`: the formatter as a function of the characters, one after the other.
- `format_eq_scan`: the code is that function.
- `format_right`: there is always a result, and for a well-formed string it is the rendered one.
-/

namespace UnifiedRuntime.LogFormat

/-! ## Strings -/

def nul : Char := Char.ofNat 0

/-- Why a run has no result. -/
inductive Stop where
  | pastEnd
  | outOfFuel

/-- A pointer into a string: what is still before its end, or behind the terminator. -/
inductive Pointer where
  | at (rest : List Char)
  | past

def Pointer.deref : Pointer → Except Stop Char
  | .at [] => .ok nul
  | .at (c :: _) => .ok c
  | .past => .error .pastEnd

def Pointer.next : Pointer → Pointer
  | .at (_ :: rest) => .at rest
  | _ => .past

/-- The buffer, and what went to the standard error. -/
structure Output where
  buffer : List Char
  cerr : List String

def Output.put (out : Output) (text : List Char) : Output :=
  { out with buffer := out.buffer ++ text }

def errorPrefix : String := "Log message syntax error: "

def Output.error (out : Output) (message : String) : Output :=
  { out with cerr := out.cerr ++ [errorPrefix ++ message] }

/-! ## The code -/

/-- `*fmt != '{' && *fmt != '}' && *fmt != '\0'`. -/
def ordinary (c : Char) : Bool := c != '\x7b' && c != '\x7d' && c != nul

/-- The inner loop, which is the same in both functions. -/
def copyOrdinary : Nat → Pointer → Output → Except Stop (Pointer × Output)
  | 0, _, _ => .error .outOfFuel
  | fuel + 1, fmt, out => do
    let c ← fmt.deref
    if ordinary c then copyOrdinary fuel fmt.next (out.put [c]) else return (fmt, out)

/-- A closing brace, in both functions. -/
def closingBrace (fmt : Pointer) (out : Output) : Except Stop (Pointer × Output) := do
  let fmt := fmt.next
  let c ← fmt.deref
  if c = '\x7d' then return (fmt.next, out.put [c])
  else return (fmt, out.error "Closing curly brace not escaped!")

/-- An opening brace when no argument is left. -/
def openingBrace (fmt : Pointer) (out : Output) : Except Stop (Pointer × Output) := do
  let fmt := fmt.next
  let c ← fmt.deref
  if c = '\x7b' then return (fmt.next, out.put [c])
  else return (fmt, out.error "No arguments provided and braces not escaped!")

/-- An opening brace when there is an argument, and whether that is printed now. -/
def placeholder (arg : List Char) (fmt : Pointer) (out : Output) :
    Except Stop (Pointer × Output × Bool) := do
  let fmt := fmt.next
  let c ← fmt.deref
  if c = '\x7b' then return (fmt.next, out.put [c], false)
  else if c ≠ '\x7d' then return (fmt, out.error "Only empty braces are allowed!", false)
  else return (fmt, out.put arg, true)

/-- The line break at the end. -/
def finish (skipLinebreak : Bool) (out : Output) : Output :=
  if skipLinebreak then out else out.put ['\n']

/-- `format` without arguments. -/
def formatRest (skipLinebreak : Bool) : Nat → Pointer → Output → Except Stop Output
  | 0, _, _ => .error .outOfFuel
  | fuel + 1, fmt, out => do
    if (← fmt.deref) = nul then return finish skipLinebreak out
    let (fmt, out) ← copyOrdinary (fuel + 1) fmt out
    let c ← fmt.deref
    let (fmt, out) ←
      if c = '\x7b' then openingBrace fmt out
      else if c = '\x7d' then closingBrace fmt out
      else pure (fmt, out)
    formatRest skipLinebreak fuel fmt out

/-- A brace, or the end, when there is an argument. -/
def brace (arg : List Char) (fmt : Pointer) (out : Output) :
    Except Stop (Pointer × Output × Bool) := do
  let c ← fmt.deref
  if c = '\x7b' then placeholder arg fmt out
  else if c = '\x7d' then (closingBrace fmt out).map fun r => (r.1, r.2, false)
  else return (fmt, out, false)

/-- The loop that prints one argument: where it has, or nowhere when the message is finished. -/
def printArg (skipLinebreak : Bool) (arg : List Char) :
    Nat → Pointer → Output → Except Stop (Option Pointer × Output)
  | 0, _, _ => .error .outOfFuel
  | fuel + 1, fmt, out => do
    let (fmt, out) ← copyOrdinary (fuel + 1) fmt out
    let (fmt, out, argPrinted) ← brace arg fmt out
    if (← fmt.deref) = nul then
      -- the arguments that are left are ignored
      let out ← formatRest skipLinebreak (fuel + 1) fmt (out.error "Too many arguments!")
      return (none, out)
    if argPrinted then return (some fmt, out) else printArg skipLinebreak arg fuel fmt out

/-- `Sink::format`, with what `<<` writes of every argument. -/
def format (skipLinebreak : Bool) (fuel : Nat) :
    List (List Char) → Pointer → Output → Except Stop Output
  | [], fmt, out => formatRest skipLinebreak fuel fmt out
  | arg :: args, fmt, out => do
    match ← printArg skipLinebreak arg fuel fmt out with
    | (none, out) => return out
    | (some fmt, out) => format skipLinebreak fuel args fmt.next out

/-! ## Well-formed strings -/

/-- A piece of a well-formed string. -/
inductive Piece where
  | plain (c : {c : Char // ordinary c = true})
  | openBrace
  | closeBrace
  | hole
deriving DecidableEq

def Piece.chars : Piece → List Char
  | plain c => [c]
  | openBrace => ['\x7b', '\x7b']
  | closeBrace => ['\x7d', '\x7d']
  | hole => ['\x7b', '\x7d']

def spelled (pieces : List Piece) : List Char := pieces.flatMap Piece.chars

/-- **What a string stands for.** -/
def rendered : List Piece → List (List Char) → List Char
  | [], _ => []
  | .plain c :: pieces, args => c :: rendered pieces args
  | .openBrace :: pieces, args => '\x7b' :: rendered pieces args
  | .closeBrace :: pieces, args => '\x7d' :: rendered pieces args
  | .hole :: pieces, arg :: args => arg ++ rendered pieces args
  | .hole :: pieces, [] => rendered pieces []

/-! ## One character after the other -/

/-- The end of the string, with the arguments that are left. -/
def ended (skipLinebreak : Bool) : List (List Char) → Output → Output
  | [], out => finish skipLinebreak out
  | _ :: _, out => finish skipLinebreak (out.error "Too many arguments!")

/-- The formatter without its pointer and its loops. -/
def scan (skipLinebreak : Bool) : List (List Char) → List Char → Output → Output
  | args, [], out => ended skipLinebreak args out
  | args, c :: rest, out =>
    if c = nul then ended skipLinebreak args out
    else if c = '\x7b' then
      match args, rest with
      | args, '\x7b' :: rest => scan skipLinebreak args rest (out.put ['\x7b'])
      | arg :: args, '\x7d' :: rest => scan skipLinebreak args rest (out.put arg)
      | [], rest =>
        scan skipLinebreak [] rest (out.error "No arguments provided and braces not escaped!")
      | arg :: args, rest =>
        scan skipLinebreak (arg :: args) rest (out.error "Only empty braces are allowed!")
    else if c = '\x7d' then
      match rest with
      | '\x7d' :: rest => scan skipLinebreak args rest (out.put ['\x7d'])
      | rest => scan skipLinebreak args rest (out.error "Closing curly brace not escaped!")
    else scan skipLinebreak args rest (out.put [c])
termination_by _ rest => rest.length

variable {skipLinebreak : Bool} {arg : List Char} {args : List (List Char)} {c : Char}
  {rest : List Char} {out : Output} {fuel : Nat}

@[simp]
theorem put_nil (out : Output) : out.put [] = out := by
  simp [Output.put]

@[simp]
theorem put_put (out : Output) (a b : List Char) : (out.put a).put b = out.put (a ++ b) := by
  simp [Output.put]

theorem not_ordinary (hc : ¬ ordinary c = true) : c = nul ∨ c = '\x7b' ∨ c = '\x7d' := by
  unfold ordinary at hc
  grind

theorem ordinary_ne (hc : ordinary c = true) : c ≠ nul ∧ c ≠ '\x7b' ∧ c ≠ '\x7d' := by
  unfold ordinary at hc
  grind

@[simp]
theorem ok_bind {α β : Type} (a : α) (f : α → Except Stop β) :
    (Except.ok a >>= f) = f a := rfl

@[simp]
theorem deref_cons : (Pointer.at (c :: rest)).deref = .ok c := rfl

@[simp]
theorem next_cons : (Pointer.at (c :: rest)).next = .at rest := rfl

@[simp]
theorem scan_nil : scan skipLinebreak args [] out = ended skipLinebreak args out := by
  rw [scan]

@[simp]
theorem scan_nul : scan skipLinebreak args (nul :: rest) out = ended skipLinebreak args out := by
  rw [scan.eq_def]
  exact if_pos rfl

theorem scan_plain (hc : ordinary c = true) :
    scan skipLinebreak args (c :: rest) out = scan skipLinebreak args rest (out.put [c]) := by
  obtain ⟨hnul, hopen, hclose⟩ := ordinary_ne hc
  rw [scan.eq_def]
  simp [if_neg hnul, if_neg hopen, if_neg hclose]

/-- A stretch of ordinary characters. -/
theorem scan_ordinary (args : List (List Char)) (rest : List Char) (out : Output) :
    scan skipLinebreak args rest out =
      scan skipLinebreak args (rest.dropWhile ordinary) (out.put (rest.takeWhile ordinary)) := by
  induction rest generalizing out with
  | nil => simp
  | cons c rest ih =>
    by_cases hc : ordinary c = true
    · rw [List.dropWhile_cons_of_pos hc, List.takeWhile_cons_of_pos hc, scan_plain hc, ih, put_put]
      rfl
    · rw [List.dropWhile_cons_of_neg hc, List.takeWhile_cons_of_neg hc, put_nil]

/-- The inner loop copies up to the next brace or line break. -/
theorem copyOrdinary_eq (hfuel : rest.length < fuel) :
    copyOrdinary fuel (.at rest) out =
      .ok (.at (rest.dropWhile ordinary), out.put (rest.takeWhile ordinary)) := by
  induction rest generalizing fuel out with
  | nil =>
    obtain ⟨fuel, rfl⟩ := Nat.exists_eq_succ_of_ne_zero (Nat.ne_zero_of_lt hfuel)
    rw [List.takeWhile_nil,
      put_nil]
    rfl
  | cons c rest ih =>
    obtain ⟨fuel, rfl⟩ := Nat.exists_eq_succ_of_ne_zero (Nat.ne_zero_of_lt hfuel)
    rw [copyOrdinary, deref_cons, ok_bind]
    by_cases hc : ordinary c = true
    · rw [if_pos hc, next_cons, ih (Nat.lt_of_succ_lt_succ hfuel), put_put,
        List.dropWhile_cons_of_pos hc, List.takeWhile_cons_of_pos hc]
      rfl
    · rw [if_neg hc, List.dropWhile_cons_of_neg hc, List.takeWhile_cons_of_neg hc, put_nil]
      rfl

/-! ## Braces -/

variable {b : Char}

theorem closingBrace_cons : closingBrace (.at (b :: c :: rest)) out =
    if c = '\x7d' then .ok (.at rest, out.put [c])
    else .ok (.at (c :: rest), out.error "Closing curly brace not escaped!") := rfl

theorem openingBrace_cons : openingBrace (.at (b :: c :: rest)) out =
    if c = '\x7b' then .ok (.at rest, out.put [c])
    else .ok (.at (c :: rest), out.error "No arguments provided and braces not escaped!") := rfl

theorem placeholder_cons : placeholder arg (.at (b :: c :: rest)) out =
    if c = '\x7b' then .ok (.at rest, out.put [c], false)
    else if c ≠ '\x7d' then
      .ok (.at (c :: rest), out.error "Only empty braces are allowed!", false)
    else .ok (.at (c :: rest), out.put arg, true) := rfl

theorem closingBrace_spec (skipLinebreak : Bool) (rest : List Char) (out : Output) :
    ∃ rest' out', rest'.length ≤ rest.length ∧
      closingBrace (.at ('\x7d' :: rest)) out = .ok (.at rest', out') ∧
      ∀ args, scan skipLinebreak args ('\x7d' :: rest) out =
        scan skipLinebreak args rest' out' := by
  cases rest with
  | nil =>
    refine ⟨[], _, Nat.le_refl _, rfl, ?_⟩
    intro args
    rw [scan.eq_def]
    rfl
  | cons c rest =>
    rw [closingBrace_cons]
    by_cases hc : c = '\x7d'
    · subst hc
      refine ⟨rest, _, by simp, rfl, ?_⟩
      intro args
      rw [scan.eq_def]
      rfl
    · rw [if_neg hc]
      refine ⟨c :: rest, _, Nat.le_refl _, rfl, ?_⟩
      intro args
      rw [scan.eq_def]
      simp [nul, hc]

theorem openingBrace_spec (skipLinebreak : Bool) (rest : List Char) (out : Output) :
    ∃ rest' out', rest'.length ≤ rest.length ∧
      openingBrace (.at ('\x7b' :: rest)) out = .ok (.at rest', out') ∧
      scan skipLinebreak [] ('\x7b' :: rest) out = scan skipLinebreak [] rest' out' := by
  cases rest with
  | nil =>
    refine ⟨[], _, Nat.le_refl _, rfl, ?_⟩
    rw [scan.eq_def]
    rfl
  | cons c rest =>
    rw [openingBrace_cons]
    by_cases hc : c = '\x7b'
    · subst hc
      refine ⟨rest, _, by simp, rfl, ?_⟩
      rw [scan.eq_def]
      rfl
    · rw [if_neg hc]
      refine ⟨c :: rest, _, Nat.le_refl _, rfl, ?_⟩
      rw [scan.eq_def]
      simp [nul, hc]

/-- Either the argument is still to be printed, or it is and the pointer stays at the brace. -/
theorem placeholder_spec (skipLinebreak : Bool) (arg rest : List Char) (out : Output) :
    (∃ rest' out', rest'.length ≤ rest.length ∧
      placeholder arg (.at ('\x7b' :: rest)) out = .ok (.at rest', out', false) ∧
      ∀ args, scan skipLinebreak (arg :: args) ('\x7b' :: rest) out =
        scan skipLinebreak (arg :: args) rest' out') ∨
    (∃ rest', rest = '\x7d' :: rest' ∧
      placeholder arg (.at ('\x7b' :: rest)) out = .ok (.at rest, out.put arg, true) ∧
      ∀ args, scan skipLinebreak (arg :: args) ('\x7b' :: rest) out =
        scan skipLinebreak args rest' (out.put arg)) := by
  cases rest with
  | nil =>
    refine .inl ⟨[], _, Nat.le_refl _, rfl, ?_⟩
    intro args
    rw [scan.eq_def]
    rfl
  | cons c rest =>
    rw [placeholder_cons]
    by_cases hopen : c = '\x7b'
    · subst hopen
      refine .inl ⟨rest, _, by simp, rfl, ?_⟩
      intro args
      rw [scan.eq_def]
      rfl
    · rw [if_neg hopen]
      by_cases hclose : c = '\x7d'
      · subst hclose
        refine .inr ⟨rest, rfl, rfl, ?_⟩
        intro args
        rw [scan.eq_def]
        rfl
      · rw [if_pos hclose]
        refine .inl ⟨c :: rest, _, Nat.le_refl _, rfl, ?_⟩
        intro args
        rw [scan.eq_def]
        simp [nul, hopen, hclose]

/-! ## The loops -/

/-- Where a stretch of ordinary characters ends. -/
theorem after_ordinary {left : List Char} (hleft : rest.dropWhile ordinary = b :: left) :
    b = nul ∨ b = '\x7b' ∨ b = '\x7d' := by
  have hhead := List.head?_dropWhile_not ordinary rest
  rw [hleft] at hhead
  apply not_ordinary
  simpa using hhead

theorem formatRest_nil (hfuel : 0 < fuel) :
    formatRest skipLinebreak fuel (.at []) out = .ok (finish skipLinebreak out) := by
  obtain ⟨fuel, rfl⟩ := Nat.exists_eq_succ_of_ne_zero (Nat.ne_zero_of_lt hfuel)
  rfl

theorem formatRest_nul (hfuel : 0 < fuel) :
    formatRest skipLinebreak fuel (.at (nul :: rest)) out = .ok (finish skipLinebreak out) := by
  obtain ⟨fuel, rfl⟩ := Nat.exists_eq_succ_of_ne_zero (Nat.ne_zero_of_lt hfuel)
  rfl

/-- **The loop is a scan of the text.** Every round consumes a character, so the fuel suffices. -/
theorem formatRest_eq_scan (hfuel : rest.length < fuel) :
    formatRest skipLinebreak fuel (.at rest) out = .ok (scan skipLinebreak [] rest out) := by
  induction fuel generalizing rest out with
  | zero => exact absurd hfuel (Nat.not_lt_zero _)
  | succ fuel ih =>
    cases rest with
    | nil => rw [formatRest_nil hfuel, scan_nil, ended]
    | cons c rest =>
      by_cases hc : c = nul
      · rw [hc, formatRest_nul (Nat.zero_lt_succ _), scan_nul, ended]
      · rw [formatRest, deref_cons, ok_bind, if_neg hc, copyOrdinary_eq hfuel, scan_ordinary]
        have hlength := (List.dropWhile_suffix ordinary (l := c :: rest)).length_le
        have hpos : 0 < fuel := by
          rw [List.length_cons] at hfuel
          omega
        generalize out.put ((c :: rest).takeWhile ordinary) = out
        cases hleft : (c :: rest).dropWhile ordinary with
        | nil =>
          rw [scan_nil]
          exact formatRest_nil hpos
        | cons b left =>
          rw [hleft, List.length_cons, List.length_cons] at hlength
          rw [List.length_cons] at hfuel
          rcases after_ordinary hleft with rfl | rfl | rfl
          · rw [scan_nul]
            exact formatRest_nul hpos
          · obtain ⟨rest', out', hle, hcall, hscan⟩ := openingBrace_spec skipLinebreak left out
            rw [hscan, ← ih (by omega)]
            change (openingBrace _ out >>= fun r => formatRest skipLinebreak fuel r.1 r.2) = _
            rw [hcall, ok_bind]
          · obtain ⟨rest', out', hle, hcall, hscan⟩ := closingBrace_spec skipLinebreak left out
            rw [hscan, ← ih (by omega)]
            change (closingBrace _ out >>= fun r => formatRest skipLinebreak fuel r.1 r.2) = _
            rw [hcall, ok_bind]

/-- What the formatter has to do with an argument from somewhere on. -/
def Prints (skipLinebreak : Bool) (arg : List Char) (rest : List Char) (out : Output)
    (result : Except Stop (Option Pointer × Output)) : Prop :=
  (∃ out', result = .ok (none, out') ∧
    ∀ args, scan skipLinebreak (arg :: args) rest out = out') ∨
  (∃ rest' out', rest'.length < rest.length ∧
    result = .ok (some (.at ('\x7d' :: rest')), out') ∧
    ∀ args, scan skipLinebreak (arg :: args) rest out = scan skipLinebreak args rest' out')

/-- What a round that has not printed the argument comes to. -/
theorem Prints.goOn (fuel : Nat) (result : Except Stop (Option Pointer × Output))
    (hloop : ∀ c left, rest = c :: left → c ≠ nul → Prints skipLinebreak arg rest out result) :
    Prints skipLinebreak arg rest out (do
      if (← (Pointer.at rest).deref) = nul then
        let out ← formatRest skipLinebreak (fuel + 1) (.at rest) (out.error "Too many arguments!")
        return (none, out)
      result) := by
  cases rest with
  | nil =>
    refine .inl ⟨_, rfl, ?_⟩
    intro args
    exact scan_nil
  | cons c left =>
    rw [deref_cons, ok_bind]
    by_cases hc : c = nul
    · subst hc
      refine .inl ⟨_, rfl, ?_⟩
      intro args
      exact scan_nul
    · rw [if_neg hc]
      exact hloop c left rfl hc

theorem Prints.before {rest' : List Char} {out' : Output}
    {result : Except Stop (Option Pointer × Output)} (hle : rest'.length ≤ rest.length)
    (hscan : ∀ args, scan skipLinebreak (arg :: args) rest out =
      scan skipLinebreak (arg :: args) rest' out')
    (h : Prints skipLinebreak arg rest' out' result) :
    Prints skipLinebreak arg rest out result := by
  rcases h with ⟨out'', hresult, hends⟩ | ⟨rest'', out'', hlt, hresult, hgoes⟩
  · refine .inl ⟨out'', hresult, ?_⟩
    intro args
    rw [hscan, hends]
  · refine .inr ⟨rest'', out'', by omega, hresult, ?_⟩
    intro args
    rw [hscan, hgoes]

/-- **The loop that prints an argument** finishes the message, or stops at the closing brace. -/
theorem printArg_spec (arg : List Char) (hfuel : rest.length < fuel) :
    Prints skipLinebreak arg rest out (printArg skipLinebreak arg fuel (.at rest) out) := by
  induction fuel generalizing rest out with
  | zero => exact absurd hfuel (Nat.not_lt_zero _)
  | succ fuel ih =>
    have hlength := (List.dropWhile_suffix ordinary (l := rest)).length_le
    apply Prints.before hlength (fun args => scan_ordinary (arg :: args) rest out)
    rw [printArg, copyOrdinary_eq hfuel, ok_bind]
    simp only
    generalize out.put (rest.takeWhile ordinary) = out
    cases hleft : rest.dropWhile ordinary with
    | nil =>
      apply Prints.goOn fuel (printArg skipLinebreak arg fuel (.at []) out)
      intro c left h
      cases h
    | cons b left =>
      rw [hleft, List.length_cons] at hlength
      rcases after_ordinary hleft with rfl | rfl | rfl
      · apply Prints.goOn fuel (printArg skipLinebreak arg fuel (.at (nul :: left)) out)
        intro c left h hc
        cases h
        exact absurd rfl hc
      · have hbrace : brace arg (.at ('\x7b' :: left)) out =
            placeholder arg (.at ('\x7b' :: left)) out := rfl
        rw [hbrace]
        rcases placeholder_spec skipLinebreak arg left out with
          ⟨rest', out', hle, hcall, hscan⟩ | ⟨rest', rfl, hcall, hscan⟩
        · rw [hcall]
          refine Prints.before (Nat.le_succ_of_le hle) hscan (Prints.goOn fuel _ ?_)
          intro c left h hc
          exact ih (by omega)
        · exact .inr ⟨rest', out.put arg, Nat.lt_add_of_pos_right (by decide : 0 < 2), rfl, hscan⟩
      · obtain ⟨rest', out', hle, hcall, hscan⟩ := closingBrace_spec skipLinebreak left out
        have hbrace : brace arg (.at ('\x7d' :: left)) out =
            (closingBrace (.at ('\x7d' :: left)) out).map fun r => (r.1, r.2, false) := rfl
        rw [hbrace, hcall]
        refine Prints.before (Nat.le_succ_of_le hle) (fun args => hscan _)
          (Prints.goOn fuel _ ?_)
        intro c left h hc
        exact ih (by omega)

/-- **The code is the function.** -/
theorem format_eq_scan (hfuel : rest.length < fuel) :
    format skipLinebreak fuel args (.at rest) out = .ok (scan skipLinebreak args rest out) := by
  induction args generalizing rest out with
  | nil => exact formatRest_eq_scan hfuel
  | cons arg args ih =>
    rw [format]
    rcases printArg_spec arg hfuel with
      ⟨out', hresult, hends⟩ | ⟨rest', out', hlt, hresult, hgoes⟩
    · rw [hresult, hends]
      rfl
    · rw [hresult, hgoes]
      exact ih (Nat.lt_trans hlt hfuel)

/-! ## What comes out -/

theorem scan_open : scan skipLinebreak args ('\x7b' :: '\x7b' :: rest) out =
    scan skipLinebreak args rest (out.put ['\x7b']) := by
  rw [scan.eq_def]
  rfl

theorem scan_close : scan skipLinebreak args ('\x7d' :: '\x7d' :: rest) out =
    scan skipLinebreak args rest (out.put ['\x7d']) := by
  rw [scan.eq_def]
  rfl

theorem scan_hole : scan skipLinebreak (arg :: args) ('\x7b' :: '\x7d' :: rest) out =
    scan skipLinebreak args rest (out.put arg) := by
  rw [scan.eq_def]
  rfl

/-- **A well-formed string** is rendered, without a complaint. -/
theorem scan_spelled (pieces : List Piece) (args : List (List Char)) (out : Output)
    (hargs : pieces.count .hole = args.length) :
    scan skipLinebreak args (spelled pieces) out =
      finish skipLinebreak (out.put (rendered pieces args)) := by
  induction pieces generalizing args out with
  | nil =>
    obtain rfl := List.length_eq_zero_iff.1 hargs.symm
    rw [rendered, put_nil]
    exact scan_nil
  | cons piece pieces ih =>
    cases piece with
    | plain c =>
      have h := ih args (out.put [c.1]) (by simpa using hargs)
      rw [put_put] at h
      exact (scan_plain c.2).trans h
    | openBrace =>
      have h := ih args (out.put ['\x7b']) (by simpa using hargs)
      rw [put_put] at h
      exact scan_open.trans h
    | closeBrace =>
      have h := ih args (out.put ['\x7d']) (by simpa using hargs)
      rw [put_put] at h
      exact scan_close.trans h
    | hole =>
      cases args with
      | nil => simp at hargs
      | cons arg args =>
        have h := ih args (out.put arg) (by simpa using hargs)
        rw [put_put] at h
        exact scan_hole.trans h

/-- **Log formatting**: for every string and all arguments there is a result, whatever is in them,
and what is well formed comes out as it should, without a complaint. -/
theorem format_right (skipLinebreak : Bool) :
    (∀ (fmt : List Char) (args : List (List Char)) (out : Output), ∃ out', ∀ fuel,
      fmt.length < fuel → format skipLinebreak fuel args (.at fmt) out = .ok out') ∧
    ∀ (pieces : List Piece) (args : List (List Char)) (out : Output),
      pieces.count .hole = args.length → ∀ fuel, (spelled pieces).length < fuel →
        format skipLinebreak fuel args (.at (spelled pieces)) out =
          .ok { out with
            buffer := out.buffer ++ rendered pieces args ++
              if skipLinebreak then [] else ['\n'] } := by
  constructor
  · intro fmt args out
    refine ⟨scan skipLinebreak args fmt out, ?_⟩
    intro fuel hfuel
    exact format_eq_scan hfuel
  · intro pieces args out hargs fuel hfuel
    rw [format_eq_scan hfuel, scan_spelled pieces args out hargs]
    cases skipLinebreak with
    | true => simp [finish, Output.put]
    | false => simp [finish, Output.put]

/-- Two arguments, the second in braces of the text. -/
theorem format_right_braces :
    format false 20 [['4'], ['x', 'y']] (.at (spelled
        [.plain ⟨'n', rfl⟩, .plain ⟨'=', rfl⟩, .hole, .openBrace, .hole, .closeBrace])) ⟨[], []⟩ =
      .ok ⟨['n', '=', '4', '\x7b', 'x', 'y', '\x7d', '\n'], []⟩ :=
  (format_right false).2 [.plain ⟨'n', rfl⟩, .plain ⟨'=', rfl⟩, .hole, .openBrace, .hole, .closeBrace]
    [['4'], ['x', 'y']] ⟨[], []⟩ (by decide) 20 (by decide)

end UnifiedRuntime.LogFormat
