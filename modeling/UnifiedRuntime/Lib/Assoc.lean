import Mathlib.Algebra.Order.Group.Multiset

/-!
# Maps as lists of keys and values

`emplace` adds an entry unless the key has one. The lookup of a list map is that of the entry
that was added first.
-/

namespace UnifiedRuntime.Assoc

variable {κ ν : Type} [DecidableEq κ] {m : List (κ × ν)} {k k' : κ} {v : ν}

/-- An entry is added unless there is one for the key. -/
def emplace (m : List (κ × ν)) (k : κ) (v : ν) : List (κ × ν) :=
  if (m.lookup k).isSome then m else m ++ [(k, v)]

theorem lookup_emplace_self (m : List (κ × ν)) (k : κ) (v : ν) :
    (emplace m k v).lookup k = some ((m.lookup k).getD v) := by
  unfold emplace
  cases hk : m.lookup k with
  | none =>
    rw [if_neg nofun, List.lookup_append, hk, List.lookup_cons_self]
    rfl
  | some w => exact hk

theorem lookup_emplace_of_ne (h : k' ≠ k) : (emplace m k v).lookup k' = m.lookup k' := by
  have hne : (k' == k) = false := beq_eq_false_iff_ne.mpr h
  unfold emplace
  split
  · rfl
  · rw [List.lookup_append, List.lookup_cons, hne]
    exact Option.or_none

/-- An entry that is there was there or is the new one. -/
theorem mem_emplace {e : κ × ν} (h : e ∈ emplace m k v) : e ∈ m ∨ e = (k, v) := by
  unfold emplace at h
  split at h
  · exact Or.inl h
  · rcases List.mem_append.mp h with hold | hnew
    · exact Or.inl hold
    · exact Or.inr (List.mem_singleton.mp hnew)

theorem subset_emplace {e : κ × ν} (h : e ∈ m) : e ∈ emplace m k v := by
  unfold emplace
  split
  · exact h
  · exact List.mem_append_left _ h

theorem mem_of_lookup (h : m.lookup k = some v) : (k, v) ∈ m := by
  obtain ⟨l₁, l₂, rfl, -⟩ := List.lookup_eq_some_iff.mp h
  exact List.mem_append_right _ List.mem_cons_self

theorem lookup_none_of_fresh (h : ∀ e ∈ m, e.1 ≠ k) : m.lookup k = none :=
  List.lookup_eq_none_iff.mpr fun e he => bne_iff_ne.mpr fun heq => h e he heq.symm

theorem emplace_of_fresh (h : ∀ e ∈ m, e.1 ≠ k) : emplace m k v = m ++ [(k, v)] := by
  unfold emplace
  rw [lookup_none_of_fresh h]
  exact if_neg nofun

/-- Keys are erased with their entries. -/
theorem filter_key_eq_erase [DecidableEq ν] (hm : (m.map (·.1)).Nodup) (h : (k, v) ∈ m) :
    m.filter (·.1 ≠ k) = m.erase (k, v) := by
  induction m with
  | nil => exact (List.not_mem_nil h).elim
  | cons e m ih =>
    rw [List.map_cons, List.nodup_cons] at hm
    by_cases heq : e.1 = k
    · -- no other entry has the key
      have hrest : ∀ e' ∈ m, e'.1 ≠ k := fun e' he' hk =>
        hm.1 (List.mem_map.mpr ⟨e', he', hk.trans heq.symm⟩)
      have he : e = (k, v) := by
        rcases List.mem_cons.mp h with h | h
        · exact h.symm
        · exact absurd rfl (hrest _ h)
      rw [List.filter_cons, if_neg (by rw [decide_eq_true_eq]; exact not_not.mpr heq), he,
        List.erase_cons_head]
      exact List.filter_eq_self.mpr fun e' he' => decide_eq_true (hrest e' he')
    · have hne : e ≠ (k, v) := fun he => heq (congrArg Prod.fst he)
      have hmem : (k, v) ∈ m := (List.mem_cons.mp h).resolve_left fun he => hne he.symm
      rw [List.filter_cons, if_pos (decide_eq_true heq), ih hm.2 hmem,
        List.erase_cons_tail (by rw [beq_iff_eq]; exact hne)]

/-! ## Entries that are there when they are asked for -/

/-- `m[k] = f(m[k])`, where a key without an entry gets the default first. -/
def modify (v : ν) (f : ν → ν) : List (κ × ν) → κ → List (κ × ν)
  | [], k => [(k, f v)]
  | e :: m, k => if e.1 = k then (k, f e.2) :: m else e :: modify v f m k

theorem lookup_modify (v : ν) (f : ν → ν) (m : List (κ × ν)) (k k' : κ) :
    (modify v f m k).lookup k' =
      if k' = k then some (f ((m.lookup k).getD v)) else m.lookup k' := by
  induction m with
  | nil =>
    rw [modify, List.lookup_cons]
    by_cases hk : k' = k
    · rw [if_pos hk, beq_iff_eq.mpr hk]
      rfl
    · rw [if_neg hk, beq_eq_false_iff_ne.mpr hk]
  | cons e m ih =>
    rw [modify, List.lookup_cons, List.lookup_cons]
    by_cases he : e.1 = k
    · rw [if_pos he, List.lookup_cons, beq_iff_eq.mpr he.symm]
      by_cases hk : k' = k
      · rw [if_pos hk, beq_iff_eq.mpr hk]
        rfl
      · rw [if_neg hk, he, beq_eq_false_iff_ne.mpr hk]
    · rw [if_neg he, List.lookup_cons, ih]
      by_cases hk : k' = k
      · rw [hk, beq_eq_false_iff_ne.mpr (Ne.symm he), if_pos rfl]
      · rw [if_neg hk, if_neg hk]

theorem modify_eq_self {m : List (κ × ν)} {k : κ} {v x : ν} {f : ν → ν} (h : m.lookup k = some x)
    (hf : f x = x) : modify v f m k = m := by
  induction m with
  | nil => cases h
  | cons e m ih =>
    rw [modify]
    rw [List.lookup_cons] at h
    by_cases he : e.1 = k
    · rw [beq_iff_eq.mpr he.symm] at h
      rw [if_pos he, Option.some.inj h, hf, ← he, ← Option.some.inj h]
    · rw [beq_eq_false_iff_ne.mpr (Ne.symm he)] at h
      rw [if_neg he, ih h]

theorem mem_modify {v : ν} {f : ν → ν} {e : κ × ν} (h : e ∈ modify v f m k) :
    e ∈ m ∨ e = (k, f ((m.lookup k).getD v)) := by
  induction m with
  | nil => exact Or.inr (List.mem_singleton.mp h)
  | cons e' m ih =>
    rw [modify] at h
    rw [List.lookup_cons]
    by_cases he : e'.1 = k
    · rw [if_pos he] at h
      rw [beq_iff_eq.mpr he.symm]
      rcases List.mem_cons.mp h with hnew | hold
      · exact Or.inr hnew
      · exact Or.inl (List.mem_cons_of_mem _ hold)
    · rw [if_neg he] at h
      rw [beq_eq_false_iff_ne.mpr (Ne.symm he)]
      rcases List.mem_cons.mp h with hfirst | hrest
      · exact Or.inl (hfirst ▸ List.mem_cons_self)
      · exact (ih hrest).imp_left (List.mem_cons_of_mem _)

/-- What is counted among the entries, where the default does not count. -/
theorem countP_modify {v : ν} {f : ν → ν} {q : ν → Bool} (m : List (κ × ν)) (k : κ)
    (hv : q v = false) :
    (modify v f m k).countP (q ·.2) + (if q ((m.lookup k).getD v) then 1 else 0) =
      m.countP (q ·.2) + if q (f ((m.lookup k).getD v)) then 1 else 0 := by
  induction m with
  | nil =>
    rw [modify, List.lookup_nil, Option.getD_none, List.countP_singleton, hv]
    exact Nat.add_comm _ _
  | cons e m ih =>
    rw [modify, List.lookup_cons, List.countP_cons]
    by_cases he : e.1 = k
    · rw [if_pos he, beq_iff_eq.mpr he.symm, List.countP_cons]
      exact Nat.add_right_comm _ _ _
    · rw [if_neg he, beq_eq_false_iff_ne.mpr (Ne.symm he), List.countP_cons,
        Nat.add_right_comm, ih, Nat.add_right_comm]

theorem modify_modify {v : ν} {f g : ν → ν} (m : List (κ × ν)) (k : κ) :
    modify v g (modify v f m k) k = modify v (fun x => g (f x)) m k := by
  induction m with
  | nil => exact if_pos rfl
  | cons e m ih =>
    rw [modify, modify]
    by_cases he : e.1 = k
    · rw [if_pos he, if_pos he, modify, if_pos rfl]
    · rw [if_neg he, if_neg he, modify, if_neg he, ih]

end UnifiedRuntime.Assoc
