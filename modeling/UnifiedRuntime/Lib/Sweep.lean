import Mathlib

/-!
# Selecting by removal

A selector that takes every matching element out of a pool as it selects it
needs no separate de-duplication: `sweep` runs a list of predicates over one
pool, each taking what it matches and leaving the rest to the next. The result
is the concatenation of what each predicate matches in the whole pool, with the
second and later occurrences erased (`sweep_eq_eraseDups`).
-/

namespace UnifiedRuntime

variable {α : Type}

/-- Each predicate in turn takes its matches out of the pool. -/
def sweep : List (α → Bool) → List α → List α
  | [], _ => []
  | p :: ps, pool => pool.filter p ++ sweep ps (pool.filter (!p ·))

theorem sweep_cons (p : α → Bool) (ps : List (α → Bool)) (pool : List α) :
    sweep (p :: ps) pool = pool.filter p ++ sweep ps (pool.filter (!p ·)) := rfl

theorem mem_sweep : ∀ {ps : List (α → Bool)} {pool : List α} {x : α},
    x ∈ sweep ps pool ↔ x ∈ pool ∧ ∃ p ∈ ps, p x = true := by
  intro ps
  induction ps with
  | nil => intro pool x; simp [sweep]
  | cons p ps ih =>
    intro pool x
    rw [sweep_cons, List.mem_append, ih]
    cases hp : p x <;> simp [hp]

/-- A swept element is taken once. -/
theorem sweep_nodup : ∀ {ps : List (α → Bool)} {pool : List α},
    pool.Nodup → (sweep ps pool).Nodup := by
  intro ps
  induction ps with
  | nil => intro pool _; exact List.nodup_nil
  | cons p ps ih =>
    intro pool hpool
    refine List.nodup_append.mpr ⟨hpool.filter _, ih (hpool.filter _), ?_⟩
    intro x hx y hy hxy
    subst hxy
    have hpx : p x = true := (List.mem_filter.mp hx).2
    have hnpx := (List.mem_filter.mp (mem_sweep.mp hy).1).2
    rw [hpx] at hnpx
    exact absurd hnpx (by simp)

variable [DecidableEq α]

theorem eraseDups_of_nodup : ∀ {l : List α}, l.Nodup → l.eraseDups = l := by
  intro l
  induction l with
  | nil => intro _; rfl
  | cons x l ih =>
    intro h
    obtain ⟨hx, hl⟩ := List.nodup_cons.mp h
    have hfil : l.filter (fun b => !b == x) = l := by
      refine List.filter_eq_self.mpr fun b hb => ?_
      have hne : b ≠ x := fun e => hx (e ▸ hb)
      simp [hne]
    rw [List.eraseDups_cons, hfil, ih hl]

/-- Taking out of the pool what `p` matched is what erasing later duplicates
does to the matches of every other predicate. -/
theorem removeAll_filter_filter {p q : α → Bool} {pool : List α} :
    (pool.filter q).removeAll (pool.filter p) = (pool.filter (!p ·)).filter q := by
  unfold List.removeAll
  rw [List.filter_filter, List.filter_filter]
  refine List.filter_congr fun x hx => ?_
  have hmem : (pool.filter p).elem x = p x := by
    rw [Bool.eq_iff_iff, List.elem_iff, List.mem_filter]
    exact ⟨fun h => h.2, fun h => ⟨hx, h⟩⟩
  rw [hmem]
  exact Bool.and_comm ..

theorem removeAll_flatMap {ps : List (α → Bool)} {f : (α → Bool) → List α} {l : List α} :
    (ps.flatMap f).removeAll l = ps.flatMap (fun p => (f p).removeAll l) := by
  unfold List.removeAll
  rw [List.filter_flatMap]

/-- **Selecting by removal is concatenation without repeats.** -/
theorem sweep_eq_eraseDups : ∀ {ps : List (α → Bool)} {pool : List α}, pool.Nodup →
    sweep ps pool = (ps.flatMap (fun p => pool.filter p)).eraseDups := by
  intro ps
  induction ps with
  | nil => intro pool _; rfl
  | cons p ps ih =>
    intro pool hpool
    rw [sweep_cons, List.flatMap_cons, List.eraseDups_append, eraseDups_of_nodup (hpool.filter _),
      ih (hpool.filter _), removeAll_flatMap]
    simp [removeAll_filter_filter]

end UnifiedRuntime
