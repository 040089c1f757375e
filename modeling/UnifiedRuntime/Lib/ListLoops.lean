import Mathlib

/-!
# Loops over a list

A loop that keeps the best entry that it has seen, and replaces it by a better one only, ends
with the first of the best entries.

A loop that does something for each entry and returns at the first one for which that fails, which
has been done all the same: what it has visited is a prefix of the list, and the whole list exactly
if nothing fails.

- `firstBest_split`: it ends with the first best entry.
- `walk_eq`: what the loop with failures does.
-/

namespace UnifiedRuntime

/-! ## The first best entry -/

section FirstBest

variable {α : Type} {better : α → α → Prop}

/-- The loop, from the first entry on. -/
def firstBest (better : α → α → Prop) [DecidableRel better] (first : α) (rest : List α) : α :=
  rest.foldl (fun best x => if better x best then x else best) first

/-- `x` is better than all entries before it, and none after it is better. -/
def BestAt (better : α → α → Prop) (before : List α) (x : α) (after : List α) : Prop :=
  (∀ y ∈ before, better x y) ∧ ∀ y ∈ after, ¬ better y x

/-- There is one first best entry. -/
theorem BestAt.unique {before after before' after' : List α} {x x' : α} (h : BestAt better before x after)
    (h' : BestAt better before' x' after') (heq : before ++ x :: after = before' ++ x' :: after') :
    x = x' := by
  rcases List.append_eq_append_iff.mp heq with ⟨mid, hbefore, hmid⟩ | ⟨mid, hbefore, hmid⟩
  · cases mid with
    | nil => exact (List.cons.inj hmid).1
    | cons y mid =>
      obtain ⟨rfl, hafter⟩ := List.cons.inj hmid
      have hx : x ∈ before' := by
        rw [hbefore]
        exact List.mem_append_right _ List.mem_cons_self
      have hx' : x' ∈ after := by
        rw [hafter]
        exact List.mem_append_right _ List.mem_cons_self
      exact absurd (h'.1 x hx) (h.2 x' hx')
  · cases mid with
    | nil => exact (List.cons.inj hmid).1.symm
    | cons y mid =>
      obtain ⟨rfl, hafter⟩ := List.cons.inj hmid
      have hx' : x' ∈ before := by
        rw [hbefore]
        exact List.mem_append_right _ List.mem_cons_self
      have hx : x ∈ after' := by
        rw [hafter]
        exact List.mem_append_right _ List.mem_cons_self
      exact absurd (h.1 x' hx') (h'.2 x hx)

/-- **The loop finds the first best entry**, for a strict weak order. -/
theorem firstBest_split [DecidableRel better]
    (htrans : ∀ x y z, better x y → better y z → better x z)
    (hneg : ∀ x y z, ¬ better x y → ¬ better y z → ¬ better x z) : ∀ (rest : List α) (first : α),
    ∃ before after, first :: rest = before ++ firstBest better first rest :: after ∧
      BestAt better before (firstBest better first rest) after := by
  -- what has been seen is `seen ++ best :: passed`
  have hloop : ∀ (rest seen passed : List α) (best : α), BestAt better seen best passed →
      ∃ before after, seen ++ best :: passed ++ rest =
        before ++ firstBest better best rest :: after ∧
          BestAt better before (firstBest better best rest) after := by
    intro rest
    induction rest with
    | nil =>
      intro seen passed best hbest
      exact ⟨seen, passed, List.append_nil _, hbest⟩
    | cons x rest ih =>
      intro seen passed best hbest
      unfold firstBest
      rw [List.foldl_cons]
      split
      next hx =>
        obtain ⟨before, after, hsplit, hafter⟩ := ih (seen ++ best :: passed) [] x
          ⟨fun y hy => by
            rcases List.mem_append.mp hy with hseen | hrest
            · exact htrans x best y hx (hbest.1 y hseen)
            · rcases List.mem_cons.mp hrest with rfl | hpassed
              · exact hx
              · exact Decidable.byContradiction fun hnot => hneg x y best hnot (hbest.2 y hpassed) hx,
            nofun⟩
        refine ⟨before, after, ?_, hafter⟩
        rw [← firstBest, ← hsplit, List.append_assoc (seen ++ best :: passed)]
        rfl
      next hx =>
        obtain ⟨before, after, hsplit, hafter⟩ := ih seen (passed ++ [x]) best
          ⟨hbest.1, fun y hy => by
            rcases List.mem_append.mp hy with hpassed | hmem
            · exact hbest.2 y hpassed
            · rw [List.mem_singleton.mp hmem]
              exact hx⟩
        refine ⟨before, after, ?_, hafter⟩
        rw [← firstBest, ← hsplit]
        simp
  intro rest first
  exact hloop rest [] [] first ⟨nofun, nofun⟩

end FirstBest

/-! ## Up to the first failure -/

section Walk

variable {α σ : Type} {ok : α → Bool} {l : List α} {a : α}

/-- The loop: `f` is done for each element, `ok` says whether it succeeded. -/
def walk (f : σ → α → σ) (ok : α → Bool) : σ → List α → σ × Bool
  | s, [] => (s, true)
  | s, a :: l => if ok a then walk f ok (f s a) l else (f s a, false)

/-- The elements up to the first failure. -/
def visited (ok : α → Bool) : List α → List α
  | [] => []
  | a :: l => a :: if ok a then visited ok l else []

/-- The elements behind it. -/
def unvisited (ok : α → Bool) : List α → List α
  | [] => []
  | a :: l => if ok a then unvisited ok l else l

theorem visited_cons (ok : α → Bool) (a : α) (l : List α) :
    visited ok (a :: l) = a :: if ok a then visited ok l else [] := rfl

theorem unvisited_cons (ok : α → Bool) (a : α) (l : List α) :
    unvisited ok (a :: l) = if ok a then unvisited ok l else l := rfl

/-- **The loop does `f` for what it visits** and fails if something does. -/
theorem walk_eq (f : σ → α → σ) (ok : α → Bool) (l : List α) (s : σ) :
    walk f ok s l = ((visited ok l).foldl f s, l.all ok) := by
  induction l generalizing s with
  | nil => rfl
  | cons a l ih =>
    show (if ok a then walk f ok (f s a) l else (f s a, false)) = _
    rw [ih (f s a), visited_cons, List.all_cons]
    cases ok a with
    | false => rfl
    | true => rfl

theorem visited_append_unvisited (ok : α → Bool) (l : List α) :
    visited ok l ++ unvisited ok l = l := by
  induction l with
  | nil => rfl
  | cons a l ih =>
    rw [visited_cons, unvisited_cons]
    cases ok a with
    | false => rfl
    | true => exact congrArg (a :: ·) ih

theorem unvisited_of_all : ∀ {l : List α}, l.all ok = true → unvisited ok l = []
  | [], _ => rfl
  | a :: l, h => by
    obtain ⟨ha, hl⟩ := (Bool.and_eq_true _ _).mp (List.all_cons.symm.trans h)
    rw [unvisited_cons, if_pos ha]
    exact unvisited_of_all hl

theorem visited_of_all (h : l.all ok = true) : visited ok l = l := by
  have hsplit := visited_append_unvisited ok l
  rwa [unvisited_of_all h, List.append_nil] at hsplit

theorem mem_of_mem_visited (h : a ∈ visited ok l) : a ∈ l := by
  rw [← visited_append_unvisited ok l]
  exact List.mem_append_left _ h

end Walk

end UnifiedRuntime
