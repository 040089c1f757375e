import Mathlib

/-!
# Shelves of recycled objects

Objects that are not in use wait on shelves, one list a key. `Shelved` says that
an object waits at most once in all of them; putting an object that waits
nowhere on a shelf and taking one off keep it, and an object that was taken off
waits nowhere.
-/

namespace UnifiedRuntime

open Function (update update_of_ne update_self)

variable {κ α : Type}

/-- Does the object wait on some shelf? -/
def Waits (shelves : κ → List α) (a : α) : Prop := ∃ k, a ∈ shelves k

/-- Every object waits at most once. -/
structure Shelved (shelves : κ → List α) : Prop where
  once : ∀ k, (shelves k).Nodup
  oneShelf : ∀ k k' a, a ∈ shelves k → a ∈ shelves k' → k = k'

theorem shelved_empty : Shelved (fun _ => [] : κ → List α) :=
  ⟨fun _ => List.nodup_nil, fun _ _ _ h => absurd h List.not_mem_nil⟩

variable [DecidableEq κ]

variable {shelves : κ → List α}

/-- `shelves` with the list at `k` replaced. -/
theorem mem_update_shelf {k k' : κ} {l : List α} {a : α} :
    a ∈ update shelves k l k' ↔ (k' = k ∧ a ∈ l) ∨ (k' ≠ k ∧ a ∈ shelves k') := by
  by_cases h : k' = k
  · rw [h]
    simp
  · simp [h]

theorem Shelved.put (h : Shelved shelves) (k : κ) {a : α}
    (ha : ¬ Waits shelves a) : Shelved (update shelves k (shelves k ++ [a])) := by
  refine ⟨fun k' => ?_, fun k₁ k₂ b h₁ h₂ => ?_⟩
  · by_cases hk : k' = k
    · rw [hk, update_self]
      refine List.nodup_append.mpr ⟨h.once k, List.nodup_singleton a, ?_⟩
      intro x hx y hy hxy
      rw [List.mem_singleton.mp hy] at hxy
      exact ha ⟨k, hxy ▸ hx⟩
    · rw [update_of_ne hk]
      exact h.once k'
  · -- only the new object is on `k` without having been there
    have hold : ∀ k', b ∈ update shelves k (shelves k ++ [a]) k' →
        b ∈ shelves k' ∨ (k' = k ∧ b = a) := by
      intro k' hb
      rcases mem_update_shelf.mp hb with ⟨rfl, hb⟩ | ⟨-, hb⟩
      · rcases List.mem_append.mp hb with hb | hb
        · exact .inl hb
        · exact .inr ⟨rfl, List.mem_singleton.mp hb⟩
      · exact .inl hb
    rcases hold k₁ h₁ with hb₁ | ⟨rfl, rfl⟩
    · rcases hold k₂ h₂ with hb₂ | ⟨rfl, rfl⟩
      · exact h.oneShelf k₁ k₂ b hb₁ hb₂
      · exact absurd ⟨k₁, hb₁⟩ ha
    · rcases hold k₂ h₂ with hb₂ | ⟨rfl, -⟩
      · exact absurd ⟨k₂, hb₂⟩ ha
      · rfl

/-- Taking objects off a shelf. -/
theorem Shelved.take (h : Shelved shelves) {k : κ} {l : List α}
    (hl : l.Sublist (shelves k)) : Shelved (update shelves k l) := by
  have hold : ∀ k' b, b ∈ update shelves k l k' → b ∈ shelves k' := by
    intro k' b hb
    rcases mem_update_shelf.mp hb with ⟨rfl, hb'⟩ | ⟨-, hb'⟩
    · exact hl.subset hb'
    · exact hb'
  refine ⟨fun k' => ?_, fun k₁ k₂ b h₁ h₂ => h.oneShelf k₁ k₂ b (hold _ _ h₁) (hold _ _ h₂)⟩
  by_cases hk : k' = k
  · rw [hk, update_self]
    exact hl.nodup (h.once k)
  · rw [update_of_ne hk]
    exact h.once k'

theorem waits_put {k : κ} {a b : α}
    (h : Waits (update shelves k (shelves k ++ [a])) b) : Waits shelves b ∨ b = a := by
  obtain ⟨k', hb⟩ := h
  rcases mem_update_shelf.mp hb with ⟨rfl, hb⟩ | ⟨-, hb⟩
  · rcases List.mem_append.mp hb with hb | hb
    · exact .inl ⟨k', hb⟩
    · exact .inr (List.mem_singleton.mp hb)
  · exact .inl ⟨k', hb⟩

/-- The object at the front of a shelf waits nowhere once it is taken. -/
theorem Shelved.front_gone (h : Shelved shelves) {k : κ} {a : α}
    {rest : List α} (hk : shelves k = a :: rest) : ¬ Waits (update shelves k rest) a := by
  intro ⟨k', ha⟩
  have hmem : a ∈ shelves k := hk ▸ List.mem_cons_self ..
  rcases mem_update_shelf.mp ha with ⟨rfl, ha'⟩ | ⟨hne, ha'⟩
  · have hnd := h.once k'
    rw [hk] at hnd
    exact (List.nodup_cons.mp hnd).1 ha'
  · exact hne (h.oneShelf k' k a ha' hmem)

end UnifiedRuntime
