import UnifiedRuntime.Lib.Str

/-!
# Lines and pieces

A `getline` loop sees the pieces of a string around the delimiter, but for a last piece
that is empty: what ends with the delimiter opens no line behind it.
-/

namespace UnifiedRuntime.Str

variable {d : Char} {s : Str} {ps : List Str}

/-- Without a last piece that is empty. -/
def closed (ps : List Str) : List Str := if ps.getLast? = some [] then ps.dropLast else ps

theorem closed_cons {p : Str} (h : ps ≠ []) : closed (p :: ps) = p :: closed ps := by
  obtain ⟨q, qs, rfl⟩ := List.exists_cons_of_ne_nil h
  unfold closed
  rw [List.getLast?_cons_cons]
  split
  next => rfl
  next => rfl

theorem splitOn_ne_nil (d : Char) (s : Str) : s.splitOn d ≠ [] := by
  exact List.splitOnP_ne_nil _ s

theorem splitOn_cons (d c : Char) (s : Str) :
    (c :: s).splitOn d =
      if c == d then [] :: s.splitOn d else (s.splitOn d).modifyHead (c :: ·) := by
  rw [List.splitOn_eq_splitOnP, List.splitOnP_cons_eq_if_modifyHead, List.splitOn_eq_splitOnP]

/-- **The lines of a string are its pieces**, without a last one that is empty. -/
theorem getlines_eq (d : Char) (s : Str) : getlines d s = closed (s.splitOn d) := by
  induction s with
  | nil => rfl
  | cons c s ih =>
    rw [splitOn_cons]
    unfold getlines
    rw [ih]
    obtain ⟨p, ps, hps⟩ := List.exists_cons_of_ne_nil (splitOn_ne_nil d s)
    rw [hps]
    split
    next => rw [closed_cons (List.cons_ne_nil p ps)]
    next =>
      rw [List.modifyHead_cons]
      cases ps with
      | nil =>
        cases p with
        | nil => rfl
        | cons x p => rfl
      | cons q ps => rw [closed_cons (List.cons_ne_nil q ps), closed_cons (List.cons_ne_nil q ps)]

/-- A line's characters are the string's. -/
theorem mem_of_mem_getlines {c : Char} : ∀ {s a : Str}, a ∈ getlines d s → c ∈ a → c ∈ s
  | [], a, h, _ => absurd h List.not_mem_nil
  | x :: s, a, h, hc => by
    unfold getlines at h
    split at h
    next =>
      rcases List.mem_cons.mp h with rfl | h
      · exact absurd hc List.not_mem_nil
      · exact List.mem_cons_of_mem _ (mem_of_mem_getlines h hc)
    next =>
      cases hl : getlines d s with
      | nil =>
        rw [hl] at h
        rw [List.mem_singleton.mp h] at hc
        rw [List.mem_singleton.mp hc]
        exact List.mem_cons_self
      | cons t ts =>
        rw [hl] at h
        rcases List.mem_cons.mp h with rfl | h
        · rcases List.mem_cons.mp hc with rfl | hc
          · exact List.mem_cons_self
          · exact List.mem_cons_of_mem _
              (mem_of_mem_getlines (hl ▸ List.mem_cons_self : t ∈ getlines d s) hc)
        · exact List.mem_cons_of_mem _
            (mem_of_mem_getlines (hl ▸ List.mem_cons_of_mem t h : a ∈ getlines d s) hc)

/-- The lines of joined pieces. -/
theorem getlines_intercalate (hd : ∀ p ∈ ps, d ∉ p) :
    getlines d ([d].intercalate ps) = closed ps := by
  rw [getlines_eq]
  by_cases h : ps = []
  · subst h
    rfl
  · rw [List.splitOn_intercalate d hd h]

theorem closed_of_last (h : ∀ p, ps.getLast? = some p → p ≠ []) : closed ps = ps := by
  unfold closed
  split
  next hlast => exact absurd rfl (h [] hlast)
  next => rfl

theorem closed_of_all (h : ∀ p ∈ ps, p ≠ []) : closed ps = ps :=
  closed_of_last fun p hp => h p (List.mem_of_getLast? hp)

/-- Joined pieces of the same number as the lines are the lines. -/
theorem closed_of_length (h : (closed ps).length = ps.length) : closed ps = ps := by
  unfold closed at h ⊢
  split at h
  next hlast =>
    rw [List.length_dropLast] at h
    cases ps with
    | nil => rfl
    | cons p ps =>
      rw [List.length_cons] at h
      omega
  next hlast => rw [if_neg hlast]

theorem intercalate_append_nil (d : Char) : ∀ {ps : List Str}, ps ≠ [] →
    [d].intercalate (ps ++ [[]]) = [d].intercalate ps ++ [d]
  | [p], _ => by simp
  | p :: q :: ps, _ => by
    have ih := intercalate_append_nil d (List.cons_ne_nil q ps)
    rw [List.cons_append, List.cons_append, List.intercalate_cons_cons, ← List.cons_append, ih,
      List.intercalate_cons_cons, List.append_assoc, List.append_assoc, List.append_assoc]

/-- A string that does not end with the delimiter has its pieces as lines. -/
theorem getlines_eq_splitOn (hs : s ≠ []) (hlast : s.getLast? ≠ some d) :
    getlines d s = s.splitOn d := by
  rw [getlines_eq]
  refine closed_of_last fun p hp => ?_
  rintro rfl
  -- Joining pieces of which the last is empty gives back a string with the delimiter at its end.
  have hjoin : [d].intercalate (s.splitOn d) = s := List.intercalate_splitOn d
  obtain ⟨ps, hps⟩ := List.getLast?_eq_some_iff.mp hp
  rw [hps] at hjoin
  cases ps with
  | nil => exact hs hjoin.symm
  | cons q qs =>
    rw [intercalate_append_nil d (List.cons_ne_nil q qs)] at hjoin
    apply hlast
    rw [← hjoin, List.getLast?_append]
    rfl

end UnifiedRuntime.Str
