import Mathlib

/-!
# `std::string` as a list of characters

The loader reads its environment variables with `find`, `substr`, `getline` and
`stoul`. This file has those operations over `List Char`, with the documented
behaviour of the C++ library, and the lemmas that say what they return on a
string that is written as its pieces around a delimiter.

A position is a `Nat`; `npos` is `none`. Characters are bytes in the C++
program, and no operation here looks at more than equality, order and the ASCII
letters and digits of a character.
-/

namespace UnifiedRuntime

abbrev Str := List Char

namespace Str

/-- `std::transform(.., ::tolower)` in the C locale. -/
def tolower (s : Str) : Str := s.map Char.toLower

/-- `s.front()`; on the empty string it reads the terminator. -/
def front (s : Str) : Char := s.headD '\x00'

/-- `s.find(c, pos)`. -/
def find (s : Str) (c : Char) (pos : Nat) : Option Nat :=
  ((s.drop pos).findIdx? (· == c)).map (· + pos)

/-- `s.substr(pos, count)`, with `count = npos` as `none`. -/
def substr (s : Str) (pos : Nat) : Option Nat → Str
  | none => s.drop pos
  | some count => (s.drop pos).take count

/-- `s.find(t) != npos`. -/
def containsStr (s t : Str) : Bool := s.tails.any (t.isPrefixOf ·)

/-- One `std::getline(ss, value, d)`: the characters before the delimiter, and
what is left in the stream. -/
def getline (d : Char) (s : Str) : Str × Str :=
  (s.takeWhile (· != d), (s.dropWhile (· != d)).tail)

/-- `while (std::getline(ss, value, d))`: every value the loop sees. The stream
fails only when nothing is left to extract, so a trailing delimiter closes the
last value and opens none. -/
def getlines (d : Char) : Str → List Str
  | [] => []
  | c :: s =>
    if c == d then [] :: getlines d s
    else match getlines d s with
      | [] => [[c]]
      | t :: ts => (c :: t) :: ts

/-- The exceptions the number conversions throw. -/
inductive StdException where
  | invalidArgument
  | outOfRange

/-- The value of a string of decimal digits. -/
def decimal (s : Str) : Nat := s.foldl (fun n c => 10 * n + (c.toNat - '0'.toNat)) 0

/-- `std::stoul` on a string of decimal digits, `unsigned long` having 64 bits. -/
def stoul (s : Str) : Except StdException Nat :=
  if s.isEmpty then .error .invalidArgument
  else if decimal s < 2 ^ 64 then .ok (decimal s)
  else .error .outOfRange

/-- `std::isspace` in the C locale. -/
def isSpace (c : Char) : Bool := c == ' ' || ('\t' ≤ c && c ≤ '\r')

/-- `std::stoul` on any string: leading space and a sign are allowed, what follows the
digits is not looked at, and a minus sign negates the result as an `unsigned long`. -/
def stoulPrefix (s : Str) : Except StdException Nat :=
  let (negative, rest) :=
    match s.dropWhile isSpace with
    | '-' :: rest => (true, rest)
    | '+' :: rest => (false, rest)
    | rest => (false, rest)
  let digits := rest.takeWhile Char.isDigit
  (stoul digits).map fun n => if negative then (2 ^ 64 - n) % 2 ^ 64 else n

/-! ## `find` and `substr` around a delimiter -/

theorem findIdx?_append_delim {a rest : Str} {c : Char} (ha : c ∉ a) :
    (a ++ c :: rest).findIdx? (· == c) = some a.length := by
  have hnone : a.findIdx? (· == c) = none := by
    rw [List.findIdx?_eq_none_iff]
    intro x hx
    rw [beq_eq_false_iff_ne]
    rintro rfl
    exact ha hx
  rw [List.findIdx?_append, hnone, List.findIdx?_cons]
  simp

/-- The first delimiter at or after a piece's start ends the piece. -/
theorem find_delim (pre : Str) {a : Str} (rest : Str) {c : Char} (ha : c ∉ a) :
    find (pre ++ (a ++ c :: rest)) c pre.length = some (pre.length + a.length) := by
  unfold find
  rw [List.drop_left, findIdx?_append_delim ha]
  simp [Nat.add_comm]

theorem find_none (pre : Str) {a : Str} {c : Char} (ha : c ∉ a) :
    find (pre ++ a) c pre.length = none := by
  unfold find
  rw [List.drop_left, Option.map_eq_none_iff, List.findIdx?_eq_none_iff]
  intro x hx
  rw [beq_eq_false_iff_ne]
  intro h
  exact ha (h ▸ hx)

/-- The pieces of a string around a delimiter do not contain it. -/
theorem not_mem_of_mem_splitOn {c : Char} : ∀ {s a : Str}, a ∈ s.splitOn c → c ∉ a := by
  intro s
  induction s with
  | nil =>
    intro a ha
    rw [List.splitOn_nil, List.mem_singleton] at ha
    rw [ha]
    exact List.not_mem_nil
  | cons x s ih =>
    intro a ha
    rw [List.splitOn_eq_splitOnP, List.splitOnP_cons_eq_if_modifyHead] at ha
    rw [List.splitOn_eq_splitOnP] at ih
    split at ha
    · rcases List.mem_cons.mp ha with rfl | ha
      · exact List.not_mem_nil
      · exact ih ha
    · next hx =>
      -- the head piece grows by `x`, the others are those of the tail
      obtain ⟨r, rs, hr⟩ := List.exists_cons_of_ne_nil (List.splitOnP_ne_nil (· == c) s)
      rw [hr] at ha
      rcases List.mem_cons.mp ha with rfl | ha
      · intro hc
        rcases List.mem_cons.mp hc with rfl | hc
        · simp at hx
        · exact ih (hr ▸ List.mem_cons_self ..) hc
      · exact ih (hr ▸ List.mem_cons_of_mem _ ha)

/-! ## Letters and digits -/

theorem toLower_of_isDigit {d : Char} (h : d.isDigit = true) : d.toLower = d := by
  simp only [Char.isDigit, Bool.and_eq_true, decide_eq_true_eq] at h
  unfold Char.toLower
  rw [dif_neg]
  intro hu
  have hlt : ('9' : Char).val < ('A' : Char).val := by decide
  exact absurd (UInt32.le_trans hu.1 h.2) (UInt32.not_le.mpr hlt)

/-- A character of a word stays in the word's lower case. -/
theorem toLower_mem_of_tolower_eq {a w : Str} (h : tolower a = w) {d : Char} (hd : d ∈ a) :
    d.toLower ∈ w := by
  rw [← h]
  exact List.mem_map_of_mem hd

end Str

end UnifiedRuntime
