import Mathlib

/-!
# Things in lists, each in one

Owners have lists of things. `Partitioned` says that each thing of a domain is in
exactly one list, once, and that the lists have nothing else. Things change hands
(`transfer`), enter the domain (`enter`) and leave it (`leave`); the order of a list
does not matter.
-/

namespace UnifiedRuntime

variable {O α : Type*}

structure Partitioned (lists : O → List α) (dom : α → Prop) : Prop where
  nodup : ∀ o, (lists o).Nodup
  total : ∀ a, dom a ↔ ∃ o, a ∈ lists o
  unique : ∀ {a o o'}, a ∈ lists o → a ∈ lists o' → o = o'

namespace Partitioned

variable {lists lists' : O → List α} {dom dom' : α → Prop} {o o₂ : O}

theorem empty (hl : ∀ o, lists o = []) (hd : ∀ a, ¬ dom a) : Partitioned lists dom where
  nodup := fun o => by rw [hl o]; exact List.nodup_nil
  total := fun a => by simp [hl, hd a]
  unique := fun {a o _} ha => by rw [hl o] at ha; cases ha

/-- The one owner. -/
theorem existsUnique (h : Partitioned lists dom) {a : α} (ha : dom a) : ∃! o, a ∈ lists o := by
  obtain ⟨o, ho⟩ := (h.total a).mp ha
  exact ⟨o, ho, fun o' ho' => h.unique ho' ho⟩

theorem dom_of_mem (h : Partitioned lists dom) {a : α} (ha : a ∈ lists o) : dom a :=
  (h.total a).mpr ⟨o, ha⟩

theorem congr (h : Partitioned lists dom) (hl : ∀ o, (lists' o).Perm (lists o))
    (hd : ∀ a, dom' a ↔ dom a) : Partitioned lists' dom' where
  nodup := fun o => (hl o).symm.nodup (h.nodup o)
  total := fun a => by
    rw [hd a, h.total a]
    exact exists_congr fun o => (hl o).symm.mem_iff
  unique := fun ha ha' => h.unique ((hl _).mem_iff.mp ha) ((hl _).mem_iff.mp ha')

/-- New things enter the list of one owner. -/
theorem enter (h : Partitioned lists dom) (o : O) (as : List α)
    (hin : (lists' o).Perm (as ++ lists o))
    (hother : ∀ o', o' ≠ o → (lists' o').Perm (lists o')) (hnodup : as.Nodup)
    (hnew : ∀ a ∈ as, ¬ dom a) (hd : ∀ a, dom' a ↔ dom a ∨ a ∈ as) : Partitioned lists' dom' := by
  have hmem : ∀ a o', a ∈ lists' o' ↔ a ∈ lists o' ∨ (o' = o ∧ a ∈ as) := by
    intro a o'
    by_cases ho : o' = o
    · subst ho
      rw [hin.mem_iff, List.mem_append]
      tauto
    · rw [(hother o' ho).mem_iff]
      tauto
  refine ⟨fun o' => ?_, fun a => ?_, fun {a o₁ o₂} h₁ h₂ => ?_⟩
  · by_cases ho : o' = o
    · subst ho
      refine hin.symm.nodup (List.nodup_append.mpr ⟨hnodup, h.nodup _, ?_⟩)
      rintro a ha b hb rfl
      exact hnew a ha (h.dom_of_mem hb)
    · exact (hother o' ho).symm.nodup (h.nodup o')
  · rw [hd a, h.total a]
    constructor
    · rintro (⟨o', ho'⟩ | ha)
      · exact ⟨o', (hmem a o').mpr (.inl ho')⟩
      · exact ⟨o, (hmem a o).mpr (.inr ⟨rfl, ha⟩)⟩
    · rintro ⟨o', ho'⟩
      rcases (hmem a o').mp ho' with ho' | ⟨-, ha⟩
      · exact .inl ⟨o', ho'⟩
      · exact .inr ha
  · rcases (hmem a o₁).mp h₁ with h₁ | ⟨rfl, h₁⟩ <;> rcases (hmem a o₂).mp h₂ with h₂ | ⟨rfl, h₂⟩
    · exact h.unique h₁ h₂
    · exact absurd (h.dom_of_mem h₁) (hnew a h₂)
    · exact absurd (h.dom_of_mem h₂) (hnew a h₁)
    · rfl

/-- Things leave the list of one owner. -/
theorem leave (h : Partitioned lists dom) (o : O) (as : List α)
    (hout : (lists o).Perm (as ++ lists' o))
    (hother : ∀ o', o' ≠ o → (lists' o').Perm (lists o')) (hd : ∀ a, dom' a ↔ dom a ∧ a ∉ as) :
    Partitioned lists' dom' := by
  have hnodup := List.nodup_append.mp (hout.nodup (h.nodup o))
  have has : ∀ a ∈ as, a ∈ lists o := fun a ha => hout.mem_iff.mpr (List.mem_append_left _ ha)
  have hmem : ∀ a o', a ∈ lists' o' ↔ a ∈ lists o' ∧ a ∉ as := by
    intro a o'
    by_cases ho : o' = o
    · subst ho
      rw [hout.mem_iff, List.mem_append]
      constructor
      · exact fun ha => ⟨.inr ha, fun ha' => hnodup.2.2 a ha' a ha rfl⟩
      · rintro ⟨ha | ha, hno⟩
        · exact absurd ha hno
        · exact ha
    · rw [(hother o' ho).mem_iff]
      exact ⟨fun ha => ⟨ha, fun ha' => ho (h.unique ha (has a ha'))⟩, fun ha => ha.1⟩
  refine ⟨fun o' => ?_, fun a => ?_, fun {a o₁ o₂} h₁ h₂ => ?_⟩
  · by_cases ho : o' = o
    · subst ho
      exact hnodup.2.1
    · exact (hother o' ho).symm.nodup (h.nodup o')
  · rw [hd a, h.total a]
    constructor
    · rintro ⟨⟨o', ho'⟩, hno⟩
      exact ⟨o', (hmem a o').mpr ⟨ho', hno⟩⟩
    · rintro ⟨o', ho'⟩
      obtain ⟨ho', hno⟩ := (hmem a o').mp ho'
      exact ⟨⟨o', ho'⟩, hno⟩
  · exact h.unique ((hmem a o₁).mp h₁).1 ((hmem a o₂).mp h₂).1

/-- Things go from one owner to another. -/
theorem transfer [DecidableEq O] (h : Partitioned lists dom) (o o₂ : O) (as : List α)
    (hne : o ≠ o₂)
    (hout : (lists o).Perm (as ++ lists' o)) (hin : (lists' o₂).Perm (as ++ lists o₂))
    (hother : ∀ o', o' ≠ o → o' ≠ o₂ → (lists' o').Perm (lists o'))
    (hd : ∀ a, dom' a ↔ dom a) : Partitioned lists' dom' := by
  -- in between nobody has them
  have hleft : Partitioned (fun o' => if o' = o then lists' o else lists o')
      (fun a => dom a ∧ a ∉ as) := by
    refine h.leave o as ?_ (fun o' ho' => ?_) fun a => .rfl
    · rw [if_pos rfl]
      exact hout
    · rw [if_neg ho']
  have has : ∀ a ∈ as, dom a := fun a ha =>
    h.dom_of_mem (hout.mem_iff.mpr (List.mem_append_left _ ha))
  refine hleft.enter o₂ as ?_ (fun o' ho' => ?_)
    (List.nodup_append.mp (hout.nodup (h.nodup o))).1 (fun a ha hno => hno.2 ha) fun a => ?_
  · rw [if_neg hne.symm]
    exact hin
  · by_cases ho : o' = o
    · rw [if_pos ho, ho]
    · rw [if_neg ho]
      exact hother o' ho ho'
  · rw [hd a]
    by_cases ha : a ∈ as
    · simp [ha, has a ha]
    · simp [ha]

end Partitioned

end UnifiedRuntime
